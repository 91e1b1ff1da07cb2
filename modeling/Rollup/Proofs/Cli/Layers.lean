import Rollup.Proofs.Cli.Effects
import Rollup.Proofs.Run.Validation

/-! The settings that a command line comes to.  Each setting has three layers: its flag, the field
of the file that the flags name, and its default.  The delimiter is checked in the file, when its
flag is decoded, and once more at the end, and an input has to be named.  Main statement: whatever
reader tells the fields of a file, settings that come out of this take each setting from the first
layer that has it and suit every run, and otherwise the first check that fails is reported. -/

namespace Rollup

open Rollup.Group

open Toml (Value Fields)

namespace Settings

section

variable (fieldsOf? : String → Option Fields)

def fileFault? (path : String) (content : Except String (List UInt8)) : Option SettingsError :=
  match content with
  | .error cause => some (.unreadable path cause)
  | .ok bytes =>
    match Text.Utf8.decode? bytes with
    | none => some (.unreadable path notText)
    | some text =>
      if ((fieldsOf? text).bind ofFields?).isSome then none else some (.unparsable path)

def fieldsIn? (content : Except String (List UInt8)) : Option Fields :=
  (content.toOption.bind Text.Utf8.decode?).bind fieldsOf?

def inFile? (content : Except String (List UInt8)) : Option Settings :=
  (fieldsIn? fieldsOf? content).bind ofFields?

theorem load_cases (path : String) (content : Except String (List UInt8)) :
    (∃ fault, fileFault? fieldsOf? path content = some fault ∧ inFile? fieldsOf? content = none ∧
      loadBy fieldsOf? path content = .error fault) ∨
    ∃ base, fileFault? fieldsOf? path content = none ∧ inFile? fieldsOf? content = some base ∧
      loadBy fieldsOf? path content = base.delimiterByte.map fun _ => base := by
  unfold loadBy fileFault? inFile? fieldsIn?
  cases content with
  | error cause => exact .inl ⟨_, rfl, rfl, rfl⟩
  | ok bytes =>
    dsimp only [Except.toOption, Option.bind_some]
    cases Text.Utf8.decode? bytes with
    | none => exact .inl ⟨_, rfl, rfl, rfl⟩
    | some text =>
      dsimp only [Option.bind_some]
      cases (fieldsOf? text).bind ofFields? with
      | none => exact .inl ⟨_, rfl, rfl, rfl⟩
      | some base => exact .inr ⟨base, rfl, rfl, rfl⟩

end

/-- What is wrong with a delimiter: it is not ASCII, or it would break records apart. -/
def delimiterFault? (c : Char) : Option SettingsError :=
  if 0x80 ≤ c.toNat then some (.invalidDelimiter (String.singleton c))
  else if c = '"' ∨ c = '\n' ∨ c = '\r' then some (.reservedDelimiter c)
  else none

def decodingFault? (text : String) : Option SettingsError :=
  if text = "\\t" ∨ Text.sameIgnoringCase text "tab" ∨ text.toList.length = 1 then none
  else some (.invalidDelimiter text)

theorem delimiterFault?_eq_none_iff {c : Char} :
    delimiterFault? c = none ↔ c.toNat < 0x80 ∧ c ≠ '"' ∧ c ≠ '\n' ∧ c ≠ '\r' := by
  unfold delimiterFault?
  split
  case isTrue wide => exact iff_of_false nofun fun sound => absurd sound.1 (Nat.not_lt.mpr wide)
  case isFalse ascii => simp [Nat.not_le.mp ascii, not_or]

theorem errorOf?_delimiterByte (settings : Settings) :
    errorOf? settings.delimiterByte = delimiterFault? settings.delimiter := by
  unfold delimiterByte delimiterFault? isReserved
  dsimp only
  split
  · rfl
  · simp only [Bool.or_eq_true, decide_eq_true_eq, or_assoc]
    split <;> rfl

theorem errorOf?_parseDelimiter (text : String) :
    errorOf? (parseDelimiter text) = decodingFault? text := by
  unfold parseDelimiter decodingFault?
  by_cases tab : text = "\\t" ∨ Text.sameIgnoringCase text "tab" = true
  · rw [if_pos tab, if_pos (tab.imp_right .inl)]
    rfl
  · obtain ⟨escaped, named⟩ := not_or.mp tab
    rw [if_neg tab]
    match text.toList with
    | [] => simp [escaped, named, errorOf?]
    | [c] => simp [errorOf?]
    | _ :: _ :: _ => simp [escaped, named, errorOf?]

def inputFault? (input? : Option String) : Option SettingsError :=
  if input?.isSome then none else some (.missing "input")

theorem errorOf?_inputPath (settings : Settings) :
    errorOf? settings.inputPath = inputFault? settings.input? := by
  unfold inputPath inputFault?
  cases settings.input? <;> rfl

theorem inputFault?_eq_none_iff {input? : Option String} :
    inputFault? input? = none ↔ input?.isSome = true := by
  cases input? <;> simp [inputFault?]

theorem exists_dialect {settings : Settings}
    (separates : delimiterFault? settings.delimiter = none) :
    ∃ dialect, settings.dialect = .ok dialect := by
  rw [← errorOf?_delimiterByte, errorOf?_eq_none_iff] at separates
  obtain ⟨byte, accepted⟩ := separates
  exact ⟨⟨byte, settings.hasHeader⟩, by rw [dialect, accepted]; rfl⟩

theorem runOn_ne_settings (settings : Settings) (rows : Table.Rows) (error : SettingsError) :
    (settings.runOn rows).result ≠ .error (.settings error) := by
  unfold runOn
  split
  · simp
  · cases refused : settings.prepare rows.header with
    | error met =>
      have first : (settings.faults rows.header).head? = some met := by
        rw [← errorOf?_prepare, refused]
        rfl
      have refusal := settings.isRefusal_of_mem_faults (List.mem_of_mem_head? first)
      rintro ⟨⟩
      cases refusal
    | ok prepared =>
      dsimp only [Prepared.run]
      split <;> simp

end Settings

/-- The value of a setting comes from the first layer that has it: the flag, with its text decoded,
the field of the file, or the default. -/
inductive Layer {α φ : Type} (flag? : Option φ) (decode : φ → Option α) (field? : Option Value)
    (read? : Value → Option α) (default : α) : α → Prop
  | flag {given : φ} {value : α} (named : flag? = some given) (means : decode given = some value) :
      Layer flag? decode field? read? default value
  | file {given : Value} {value : α} (silent : flag? = none) (named : field? = some given)
      (means : read? given = some value) : Layer flag? decode field? read? default value
  | fallback (silent : flag? = none) (absent : field? = none) :
      Layer flag? decode field? read? default default

theorem Layer.of_setting {α φ : Type} {fields : Fields} {name : String} {default base value : α}
    {read? : Value → Option α} {flag? : Option φ} {decode : φ → Option α}
    (below : Settings.setting fields name default read? = some base)
    (above : flag?.elim (some base) decode = some value) :
    Layer flag? decode (fields.lookup name) read? default value := by
  cases flag? with
  | some given => exact .flag rfl above
  | none =>
    obtain rfl : base = value := Option.some.inj above
    unfold Settings.setting at below
    split at below
    case h_1 given named => exact .file rfl named below
    case h_2 absent =>
      obtain rfl : default = base := Option.some.inj below
      exact .fallback rfl absent

theorem Layer.some_eq {α φ : Type} {flag? : Option φ} {decode : φ → Option α}
    {field? : Option Value} {read? : Value → Option α} {default value : α}
    (layer : Layer flag? decode field? read? default value) :
    some value = flag?.elim (field?.elim (some default) read?) decode := by
  cases layer with
  | flag named means => rw [named, Option.elim_some, means]
  | file silent named means => rw [silent, named, Option.elim_none, Option.elim_some, means]
  | fallback silent absent => rw [silent, absent, Option.elim_none, Option.elim_none]

namespace Cli.Flags

open Settings

def fields? (fieldsOf? : String → Option Fields) (flags : Flags) (read : String → Reading) :
    Option Fields :=
  flags.config?.elim (some []) fun path => fieldsIn? fieldsOf? (read path).bytes

/-- Every setting comes from the first of its layers. -/
structure Layered (flags : Flags) (fields : Fields) (settings : Settings) : Prop where
  input : Layer flags.input? (fun path => some (some path)) (fields.lookup "input")
    (fun value => (text? value).map some) none settings.input?
  delimiter : Layer flags.delimiter? (fun text => (parseDelimiter text).toOption)
    (fields.lookup "delimiter") character? ',' settings.delimiter
  hasHeader : Layer flags.header? some (fields.lookup "has_header") Settings.boolean? true
    settings.hasHeader
  filter : Layer flags.filter? (fun text => some (some text)) (fields.lookup "filter")
    (fun value => (text? value).map some) none settings.filter?
  groupBy : Layer flags.groupBy? (fun list => some (Text.listItems list))
    (fields.lookup "group_by") texts? [] settings.groupBy
  aggregations : Layer flags.aggregations? (fun list => some (Text.listItems list))
    (fields.lookup "aggregations") texts? [] settings.aggregations
  topCount : Layer flags.topCount? some (fields.lookup "top_n") Settings.natural? 10
    settings.topCount
  metric : Layer flags.metric? some (fields.lookup "top_n_metric") text? "count" settings.metric

/-- What is wrong with the flags and the file that they name, in the order of the checks: the file
as such, its delimiter, the text of the flag for the delimiter, the delimiter that results, and the
input. -/
def faults (fieldsOf? : String → Option Fields) (flags : Flags) (read : String → Reading) :
    List SettingsError :=
  let base? := (flags.fields? fieldsOf? read).bind ofFields?
  let delimiter? :=
    flags.delimiter?.elim (base?.map (·.delimiter)) fun text => (parseDelimiter text).toOption
  let input? := flags.input?.or (base?.bind (·.input?))
  [flags.config?.bind fun path => fileFault? fieldsOf? path (read path).bytes,
    base?.bind fun base => delimiterFault? base.delimiter,
    flags.delimiter?.bind decodingFault?,
    delimiter?.bind delimiterFault?,
    inputFault? input?].reduceOption

/-- The settings of a file or the defaults with the flags over them. -/
def onto (flags : Flags) (base : Settings) (delimiter : Char) : Settings where
  input? := flags.input?.or base.input?
  delimiter := delimiter
  hasHeader := flags.header?.getD base.hasHeader
  filter? := flags.filter?.or base.filter?
  groupBy := flags.groupBy?.elim base.groupBy Text.listItems
  aggregations := flags.aggregations?.elim base.aggregations Text.listItems
  topCount := flags.topCount?.getD base.topCount
  metric := flags.metric?.getD base.metric

theorem onto_of_resolve {flags : Flags} {base settings : Settings}
    (resolved : flags.resolve base = .ok settings) :
    ∃ delimiter, flags.delimiter?.elim (.ok base.delimiter) parseDelimiter = .ok delimiter ∧
      settings = flags.onto base delimiter ∧
      delimiterFault? settings.delimiter = none ∧ inputFault? settings.input? = none := by
  simp only [resolve, bind_eq_ok_iff] at resolved
  obtain ⟨delimiter, decoded, byte, checked, path, named, ⟨⟩⟩ := resolved
  have separates := errorOf?_eq_none_iff.mpr ⟨byte, checked⟩
  have given := errorOf?_eq_none_iff.mpr ⟨path, named⟩
  rw [errorOf?_delimiterByte] at separates
  rw [errorOf?_inputPath] at given
  exact ⟨delimiter, decoded, rfl, separates, given⟩

theorem layered_onto {flags : Flags} {fields : Fields} {base : Settings} {delimiter : Char}
    (known : ofFields? fields = some base)
    (decoded : flags.delimiter?.elim (.ok base.delimiter) parseDelimiter = .ok delimiter) :
    flags.Layered fields (flags.onto base delimiter) := by
  simp only [ofFields?, Option.bind_eq_bind, Option.bind_eq_some_iff] at known
  obtain ⟨input, inputSet, separator, delimiterSet, hasHeader, headerSet, filter, filterSet,
    groupBy, groupBySet, aggregations, aggregationsSet, topCount, topCountSet, metric, metricSet,
    ⟨⟩⟩ := known
  unfold onto
  refine ⟨.of_setting inputSet ?_, .of_setting delimiterSet ?_, .of_setting headerSet ?_,
    .of_setting filterSet ?_, .of_setting groupBySet ?_, .of_setting aggregationsSet ?_,
    .of_setting topCountSet ?_, .of_setting metricSet ?_⟩
  · cases flags.input? <;> rfl
  · cases given : flags.delimiter? with
    | none =>
      rw [given] at decoded
      cases decoded
      rfl
    | some text =>
      rw [given] at decoded
      exact congrArg Except.toOption decoded
  · cases flags.header? <;> rfl
  · cases flags.filter? <;> rfl
  · cases flags.groupBy? <;> rfl
  · cases flags.aggregations? <;> rfl
  · cases flags.topCount? <;> rfl
  · cases flags.metric? <;> rfl

theorem settingsFrom_cases (fieldsOf? : String → Option Fields) (flags : Flags)
    (read : String → Reading) :
    (∃ path fault, flags.config? = some path ∧
      fileFault? fieldsOf? path (read path).bytes = some fault ∧
      (flags.fields? fieldsOf? read).bind ofFields? = none ∧
      flags.settingsFrom fieldsOf? read = .error fault) ∨
    ∃ base, (flags.config?.bind fun path => fileFault? fieldsOf? path (read path).bytes) = none ∧
      (flags.fields? fieldsOf? read).bind ofFields? = some base ∧
      flags.settingsFrom fieldsOf? read = base.delimiterByte.bind fun _ => flags.resolve base := by
  unfold settingsFrom fields?
  cases flags.config? with
  | none => exact .inr ⟨{}, rfl, ofFields?_nil, rfl⟩
  | some path =>
    rcases load_cases fieldsOf? path (read path).bytes with
      ⟨fault, met, unknown, loaded⟩ | ⟨base, sound, known, loaded⟩
    · refine .inl ⟨path, fault, rfl, met, unknown, ?_⟩
      dsimp only
      rw [loaded]
      rfl
    · refine .inr ⟨base, sound, known, ?_⟩
      dsimp only
      rw [loaded]
      cases base.delimiterByte <;> rfl

theorem errorOf?_resolve (flags : Flags) (base : Settings) :
    errorOf? (flags.resolve base) =
      [flags.delimiter?.bind decodingFault?,
        (flags.delimiter?.elim (some base.delimiter) fun text =>
          (parseDelimiter text).toOption).bind delimiterFault?,
        inputFault? (flags.input?.or base.input?)].reduceOption.head? := by
  have checks (settings : Settings) :
      errorOf? (settings.delimiterByte >>= fun _ => settings.inputPath >>= fun _ => pure settings) =
        [delimiterFault? settings.delimiter, inputFault? settings.input?].reduceOption.head? := by
    rw [← errorOf?_delimiterByte, ← errorOf?_inputPath]
    cases settings.delimiterByte with
    | error fault => rfl
    | ok byte => cases settings.inputPath <;> rfl
  unfold resolve
  cases flags.delimiter? with
  | none => exact checks (flags.onto base base.delimiter)
  | some text =>
    dsimp only [Option.bind_some, Option.elim_some]
    rw [← errorOf?_parseDelimiter]
    cases parseDelimiter text with
    | error fault => rfl
    | ok delimiter => exact checks (flags.onto base delimiter)

theorem errorOf?_settingsFrom (fieldsOf? : String → Option Fields) (flags : Flags)
    (read : String → Reading) :
    errorOf? (flags.settingsFrom fieldsOf? read) = (flags.faults fieldsOf? read).head? := by
  unfold faults
  rcases flags.settingsFrom_cases fieldsOf? read with
    ⟨path, fault, named, met, unknown, failed⟩ | ⟨base, sound, known, resolved⟩
  · rw [failed, named, Option.bind_some, met]
    rfl
  · rw [sound, known, resolved]
    dsimp only [Option.bind_some, Option.map_some]
    rw [← errorOf?_delimiterByte]
    cases base.delimiterByte with
    | error fault => rfl
    | ok byte => exact flags.errorOf?_resolve base

end Cli.Flags

namespace Cli

theorem analysisFrom_ne_settings {settings : Settings} (given : settings.input?.isSome = true)
    (separates : Settings.delimiterFault? settings.delimiter = none) (read : String → Reading)
    (error : SettingsError) : analysisFrom settings read ≠ .error (.settings error) := by
  obtain ⟨path, named⟩ := Option.isSome_iff_exists.mp given
  obtain ⟨dialect, spoken⟩ := Settings.exists_dialect separates
  unfold analysisFrom Settings.inputPath
  rw [named, spoken]
  dsimp only [Except.mapError, bind, Except.bind]
  cases openTable dialect path (read path) with
  | error refused => simp
  | ok rows => exact settings.runOn_ne_settings rows error

end Cli

theorem Settings.run_ne_settings {settings : Settings}
    (separates : delimiterFault? settings.delimiter = none) (input : String)
    (source : Table.Source) (error : SettingsError) :
    (settings.run input source).result ≠ .error (.settings error) := by
  obtain ⟨dialect, spoken⟩ := exists_dialect separates
  unfold run
  rw [spoken]
  dsimp only
  cases Table.Rows.ofSource dialect input source with
  | error refused => simp
  | ok rows => exact settings.runOn_ne_settings rows error

namespace Cli

/-- Settings that the flags come to are complete: each one is from the first of its layers, and
they suit every run.  If the flags do not come to any, then because of their first fault. -/
theorem settingsFrom_layered (fieldsOf? : String → Option Fields) (flags : Flags)
    (read : String → Reading) :
    (∀ settings, flags.settingsFrom fieldsOf? read = .ok settings →
      (∃ fields, flags.fields? fieldsOf? read = some fields ∧ flags.Layered fields settings) ∧
      (settings.delimiter.toNat < 0x80 ∧
        settings.delimiter ≠ '"' ∧ settings.delimiter ≠ '\n' ∧ settings.delimiter ≠ '\r') ∧
      settings.input?.isSome = true ∧
      (∀ files error, analysisFrom settings files ≠ .error (.settings error)) ∧
      ∀ input source error, (settings.run input source).result ≠ .error (.settings error)) ∧
    errorOf? (flags.settingsFrom fieldsOf? read) = (flags.faults fieldsOf? read).head? := by
  refine ⟨fun settings settled => ?_, flags.errorOf?_settingsFrom fieldsOf? read⟩
  rcases flags.settingsFrom_cases fieldsOf? read with
    ⟨_, _, _, _, _, failed⟩ | ⟨base, _, known, resolved⟩
  · rw [failed] at settled
    cases settled
  · obtain ⟨fields, found, read⟩ := Option.bind_eq_some_iff.mp known
    rw [resolved] at settled
    obtain ⟨byte, _, resolved⟩ := bind_eq_ok_iff.mp settled
    obtain ⟨delimiter, decoded, rfl, separates, given⟩ := Flags.onto_of_resolve resolved
    have named := Settings.inputFault?_eq_none_iff.mp given
    exact ⟨⟨fields, found, Flags.layered_onto read decoded⟩,
      Settings.delimiterFault?_eq_none_iff.mp separates, named,
      analysisFrom_ne_settings named separates, Settings.run_ne_settings separates⟩

/-- The flag for the delimiter hides a delimiter in the file that can be one, but not one that
cannot. -/
theorem settingsFrom_layered_over_file :
    let flags : Flags :=
      { config? := some "tally.toml", groupBy? := some "a , b,,", delimiter? := some "TAB" }
    let held (text : String) (_ : String) : Reading := .content (.ofBytes (Text.Utf8.encode text))
    let sound := "input = \"t.csv\"\ndelimiter = \";\"\ngroup_by = [\"c\"]\ntop_n = 3\n"
    let spoiled := "input = \"t.csv\"\ndelimiter = '\"'\n"
    (∃ settings, flags.settingsFrom Toml.fields? (held sound) = .ok settings ∧
      settings.delimiter = '\t' ∧ settings.groupBy = ["a", "b"] ∧ settings.topCount = 3 ∧
      ∀ input source error, (settings.run input source).result ≠ .error (.settings error)) ∧
    flags.settingsFrom Toml.fields? (held spoiled) = .error (.reservedDelimiter '"') := by
  intro flags held sound spoiled
  obtain ⟨settings, settled⟩ :
      ∃ settings, flags.settingsFrom Toml.fields? (held sound) = .ok settings :=
    exists_ok_of_toBool (by decide +kernel)
  obtain ⟨⟨fields, found, layered⟩, -, -, -, runs⟩ :=
    (settingsFrom_layered Toml.fields? flags (held sound)).1 settings settled
  have top : (fields.lookup "top_n").elim (some 10) Settings.natural? = some 3 := by
    have given : (flags.fields? Toml.fields? (held sound)).map
        (fun fields => (fields.lookup "top_n").elim (some 10) Settings.natural?) =
        some (some 3) := by
      decide +kernel
    rw [found] at given
    exact Option.some.inj given
  have fault : errorOf? (flags.settingsFrom Toml.fields? (held spoiled)) =
      some (.reservedDelimiter '"') := by
    rw [(settingsFrom_layered Toml.fields? flags (held spoiled)).2]
    decide +kernel
  refine ⟨⟨settings, settled, ?_, ?_, ?_, runs⟩, errorOf?_eq_some_iff.mp fault⟩
  · exact Option.some.inj layered.delimiter.some_eq
  · exact (Option.some.inj layered.groupBy.some_eq).trans (by decide)
  · exact Option.some.inj (layered.topCount.some_eq.trans top)

end Cli

end Rollup
