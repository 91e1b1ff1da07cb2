import Rollup.Cli.Directory

/-! Where writing takes effect.  A path that can be written leads to one place, which is not a
directory and whose parent is one, so that putting a file there opens and closes no way for any
path.  Main statements: after writing, the place of the path holds the text, every other place
holds what it held, and every path leads where it led; and a path that was written reads as the
text, while the paths that lead elsewhere read as before. -/

namespace Rollup.Cli

namespace Place

def target? : Place → Option (List String)
  | .file found => some found.path
  | .free names => some names
  | _ => none

def file? : Place → Option File
  | .file found => some found
  | _ => none

/-- Where one path leads before and after a file is written: to the same place, and to the file if
it lies there. -/
structure Overlaid (file : File) (before after : Place) : Prop where
  target : after.target? = before.target?
  found : after.file? = if before.target? = some file.path then some file else before.file?

namespace Overlaid

variable {file found : File} {place : Place}

theorem elsewhere (apart : place.target? ≠ some file.path) : Overlaid file place place :=
  ⟨rfl, (if_neg apart).symm⟩

theorem nowhere (away : place.target? = none) : Overlaid file place place :=
  elsewhere (by simp [away])

theorem at_file (same : found.path = file.path) (rest : List String) :
    Overlaid file (if rest = [] then .file found else .blocked)
      (if rest = [] then .file file else .blocked) := by
  split
  · exact ⟨congrArg some same.symm, (if_pos (congrArg some same)).symm⟩
  · exact ⟨rfl, rfl⟩

theorem at_free (rest : List String) :
    Overlaid file (if rest = [] then .free file.path else .absent)
      (if rest = [] then .file file else .blocked) := by
  split
  · exact ⟨rfl, (if_pos rfl).symm⟩
  · exact ⟨rfl, rfl⟩

end Overlaid

end Place

namespace Directory

variable {directory : Directory}

def target? (directory : Directory) (path : String) : Option (List String) :=
  (directory.locate path).target?

/-- A place for a file: its parent is a directory, and it is not one itself. -/
structure Open (directory : Directory) (names : List String) : Prop where
  parent : directory.holds names.dropLast = true
  vacant : directory.file? names = none → directory.holds names = false

theorem path_of_file? {names : List String} {found : File}
    (known : directory.file? names = some found) : found.path = names := by
  simpa using List.find?_some known

theorem file?_put (file : File) (files : List File) (names : List String) :
    file? ⟨put file files⟩ names =
      if file.path = names then some file else file? ⟨files⟩ names := by
  simp only [file?]
  induction files with
  | nil =>
    rw [put, List.find?_cons]
    by_cases same : file.path = names <;> simp [same]
  | cons first rest ih =>
    rw [put]
    split
    case isTrue same =>
      rw [List.find?_cons, List.find?_cons, same]
      by_cases here : file.path = names <;> simp [here]
    case isFalse differ =>
      rw [List.find?_cons, List.find?_cons, ih]
      by_cases here : file.path = names
      · subst here
        simp [differ]
      · simp [here]

theorem holds_iff (names : List String) : directory.holds names = true ↔
    isAbove names = true ∨ names = [root] ∨
      ∃ path, directory.file? path ≠ none ∧ names.length < path.length ∧ names <+: path := by
  have known (path : List String) :
      directory.file? path ≠ none ↔ ∃ file ∈ directory.files, file.path = path := by
    rw [file?, Option.ne_none_iff_isSome, List.find?_isSome]
    simp
  simp only [known]
  simp only [holds, Bool.or_eq_true, or_assoc, beq_iff_eq, List.any_eq_true, Bool.and_eq_true,
    decide_eq_true_eq, List.isPrefixOf_iff_prefix]
  refine or_congr_right (or_congr_right ⟨?_, ?_⟩)
  · rintro ⟨file, member, start⟩
    exact ⟨file.path, ⟨file, member, rfl⟩, start⟩
  · rintro ⟨_, ⟨file, member, rfl⟩, start⟩
    exact ⟨file, member, start⟩

theorem isAbove_of_start {names above : List String} (steps : isAbove names = true)
    (start : above <+: names) : isAbove above = true :=
  List.all_eq_true.mpr fun name member => List.all_eq_true.mp steps name (start.subset member)

theorem holds_above {names above : List String} (held : directory.holds names = true)
    (start : above <+: names) : directory.holds above = true := by
  rw [holds_iff] at held ⊢
  rcases held with steps | rfl | ⟨path, known, shorter, begun⟩
  · exact .inl (isAbove_of_start steps start)
  · rcases List.prefix_cons_iff.mp start with rfl | ⟨rest, rfl, nothing⟩
    · exact .inl rfl
    · exact .inr (.inl (by rw [List.prefix_nil.mp nothing]))
  · exact .inr (.inr ⟨path, known, Nat.lt_of_le_of_lt start.length_le shorter, start.trans begun⟩)

theorem holds_parent {names : List String} (held : directory.holds names = true) :
    directory.holds (parent names) = true := by
  unfold parent
  split
  case isTrue steps =>
    refine (holds_iff _).mpr (.inl ?_)
    rw [isAbove, List.all_append, Bool.and_eq_true]
    exact ⟨steps, rfl⟩
  case isFalse =>
    split
    · exact held
    · exact holds_above held (List.dropLast_prefix names)

section

variable {names : List String} (there : directory.Open names) (bytes : List UInt8)
include there

theorem holds_put (other : List String) :
    holds ⟨put ⟨names, bytes⟩ directory.files⟩ other = directory.holds other := by
  rw [Bool.eq_iff_iff]
  constructor
  · intro held
    rcases (holds_iff other).mp held with steps | root | ⟨path, known, shorter, start⟩
    · exact (holds_iff other).mpr (.inl steps)
    · exact (holds_iff other).mpr (.inr (.inl root))
    · rw [file?_put] at known
      by_cases same : names = path
      · subst same
        have inside : other.length ≤ names.dropLast.length := by
          rw [List.length_dropLast]
          exact Nat.le_pred_of_lt shorter
        exact holds_above there.parent
          (List.prefix_of_prefix_length_le start (List.dropLast_prefix names) inside)
      · rw [if_neg same] at known
        exact (holds_iff other).mpr (.inr (.inr ⟨path, known, shorter, start⟩))
  · intro held
    refine (holds_iff other).mpr (((holds_iff other).mp held).imp_right (.imp_right ?_))
    rintro ⟨path, known, start⟩
    refine ⟨path, ?_, start⟩
    rw [file?_put]
    split
    · exact Option.some_ne_none _
    · exact known

theorem follow_put (reached path : List String) :
    Place.Overlaid ⟨names, bytes⟩ (directory.follow reached path)
      (follow ⟨put ⟨names, bytes⟩ directory.files⟩ reached path) := by
  induction path generalizing reached with
  | nil => exact .nowhere rfl
  | cons name rest ih =>
    rw [follow, follow]
    dsimp only
    split
    · exact ih reached
    split
    · exact ih (parent reached)
    split
    · rw [pastOverlong]
      split <;> exact .nowhere rfl
    rw [file?_put, holds_put there]
    dsimp only
    by_cases here : names = reached ++ [name]
    · subst here
      rw [if_pos rfl]
      cases known : directory.file? (reached ++ [name]) with
      | some found => exact .at_file (path_of_file? known) rest
      | none =>
        rw [there.vacant known]
        exact .at_free rest
    · rw [if_neg here]
      cases known : directory.file? (reached ++ [name]) with
      | some found =>
        have apart : found.path ≠ names := path_of_file? known ▸ Ne.symm here
        dsimp only
        split
        · exact .elsewhere fun same => apart (Option.some.inj same)
        · exact .nowhere rfl
      | none =>
        dsimp only
        split
        · exact ih (reached ++ [name])
        split
        · exact .elsewhere fun same => here (Option.some.inj same).symm
        · exact .nowhere rfl

theorem locate_put (path : String) :
    Place.Overlaid ⟨names, bytes⟩ (directory.locate path)
      (locate ⟨put ⟨names, bytes⟩ directory.files⟩ path) := by
  rw [locate, locate]
  split
  · exact .nowhere rfl
  · split
    · exact .nowhere rfl
    · exact follow_put there bytes _ _

end

theorem open_of_follow {reached path names : List String} (held : directory.holds reached = true)
    (led : (directory.follow reached path).target? = some names) : directory.Open names := by
  induction path generalizing reached with
  | nil => cases led
  | cons name rest ih =>
    have parent : directory.holds (reached ++ [name]).dropLast = true := by
      rwa [List.dropLast_concat]
    rw [follow] at led
    dsimp only at led
    split at led
    · exact ih held led
    · split at led
      · exact ih (holds_parent held) led
      · split at led
        · rw [pastOverlong] at led
          split at led <;> cases led
        · cases known : directory.file? (reached ++ [name]) with
          | some found =>
            rw [known] at led
            dsimp only at led
            split at led
            · obtain rfl : found.path = names := Option.some.inj led
              rw [← path_of_file? known] at parent known
              exact ⟨parent, fun none => absurd (known.symm.trans none) (Option.some_ne_none _)⟩
            · cases led
          | none =>
            rw [known] at led
            dsimp only at led
            split at led
            · exact ih ‹_› led
            · split at led
              · obtain rfl : reached ++ [name] = names := Option.some.inj led
                exact ⟨parent, fun _ => Bool.eq_false_iff.mpr ‹_›⟩
              · cases led

theorem open_of_target? {path : String} {names : List String}
    (led : directory.target? path = some names) : directory.Open names := by
  rw [target?, locate] at led
  split at led
  · cases led
  · split at led
    · cases led
    · refine open_of_follow ?_ led
      split <;> rfl

theorem eq_of_write {path : String} {bytes : List UInt8} {after : Directory}
    (written : directory.write path bytes = .ok after) :
    containsNul path = false ∧ endsWithSeparator path = false ∧
    ∃ names, directory.target? path = some names ∧
      after = ⟨put ⟨names, bytes⟩ directory.files⟩ := by
  have kept {answer : Directory}
      (passed : (if endsWithSeparator path then .error isDirectory else .ok answer :
        Except String Directory) = .ok after) :
      endsWithSeparator path = false ∧ after = answer := by
    split at passed
    · cases passed
    · exact ⟨Bool.eq_false_iff.mpr ‹_›, (Except.ok.inj passed).symm⟩
  rw [target?]
  unfold write at written
  dsimp only at written
  split at written
  case isTrue => cases written
  case isFalse clean =>
    refine ⟨Bool.eq_false_iff.mpr clean, ?_⟩
    cases led : directory.locate path with
    | file found =>
      rw [led] at written
      obtain ⟨plain, same⟩ := kept written
      exact ⟨plain, found.path, rfl, same⟩
    | free names =>
      rw [led] at written
      obtain ⟨plain, same⟩ := kept written
      exact ⟨plain, names, rfl, same⟩
    | tooLongAtEnd =>
      rw [led] at written
      dsimp only at written
      split at written <;> cases written
    | directory | absent | blocked | tooLong =>
      rw [led] at written
      cases written

/-- Writing changes the file at the end of the path, and leads no path elsewhere. -/
theorem of_write {path : String} {bytes : List UInt8} {after : Directory}
    (written : directory.write path bytes = .ok after) :
    (∀ names, directory.target? path ≠ some names → after.file? names = directory.file? names) ∧
    after.target? = directory.target? := by
  obtain ⟨-, -, place, led, rfl⟩ := eq_of_write written
  refine ⟨fun names elsewhere => ?_,
    funext fun other => (locate_put (open_of_target? led) bytes other).target⟩
  rw [file?_put, if_neg]
  rintro rfl
  exact elsewhere led

theorem bytes_read_iff (path : String) (bytes : List UInt8) :
    (directory.read path).bytes = .ok bytes ↔
      containsNul path = false ∧ endsWithSeparator path = false ∧
      (directory.locate path).file?.map (·.bytes) = some bytes := by
  unfold read
  cases containsNul path with
  | true => exact iff_of_false nofun (fun clean => nomatch clean.1)
  | false =>
    cases directory.locate path with
    | file found =>
      cases endsWithSeparator path with
      | true => exact iff_of_false nofun (fun plain => nomatch plain.2.1)
      | false => simp [Reading.bytes, bytesOf_ofBytes, Place.file?]
    | directory | free _ | absent | blocked | tooLong | tooLongAtEnd =>
      exact iff_of_false nofun (fun found => nomatch found.2.2)

theorem bytes_read_of_write {path : String} {bytes : List UInt8} {after : Directory}
    (written : directory.write path bytes = .ok after) : (after.read path).bytes = .ok bytes := by
  obtain ⟨clean, plain, names, led, rfl⟩ := eq_of_write written
  obtain ⟨-, found⟩ := locate_put (open_of_target? led) bytes path
  refine (bytes_read_iff path bytes).mpr ⟨clean, plain, ?_⟩
  rw [found]
  exact congrArg (Option.map _) (if_pos led)

theorem bytes_read_of_write_elsewhere {path other : String} {bytes : List UInt8}
    {after : Directory} (written : directory.write path bytes = .ok after)
    (elsewhere : directory.target? path ≠ directory.target? other) (content : List UInt8) :
    (after.read other).bytes = .ok content ↔ (directory.read other).bytes = .ok content := by
  obtain ⟨-, -, names, led, rfl⟩ := eq_of_write written
  obtain ⟨-, found⟩ := locate_put (open_of_target? led) bytes other
  rw [bytes_read_iff, bytes_read_iff, found, if_neg]
  exact fun same => elsewhere (led.trans same.symm)

end Directory

end Rollup.Cli
