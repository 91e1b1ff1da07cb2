import Rollup.Cli.Command
import Rollup.Proofs.Cli.Placement
import Rollup.Proofs.Run.Outline

/-! What the command does to its surroundings.  A world answers readings and takes writings, any of
which may fail, a reading also after some of its bytes, and takes what is printed; files in their
directories, with the text printed so far, are one such world.  The command first only reads, and
what it reads comes to an analysis or to what went wrong; only then does it print and write.  Main
statement: a command that fails before that leaves everything as it was, and one that ends well has
printed the report and put report and summary where the flags say, there to be read in every world
that keeps its files apart from what is printed. -/

namespace Rollup.Cli

open Table

/-- Surroundings with a state: what a file gives, what writing one answers and leaves, and what
printing leaves. -/
structure World (σ : Type) where
  read : σ → String → Reading
  write : σ → String → String → Option String × σ
  print : σ → String → σ

/-- What a task has done: how it stopped, what it printed, what it tried to write, in order, and
the state that it left. -/
structure Trace (σ : Type) where
  code : Nat
  error? : Option String
  printed : String := ""
  attempts : List (String × String) := []
  state : σ

def Task.runOn {σ : Type} (world : World σ) (state : σ) : Task → Trace σ
  | .stop code error? => { code := code, error? := error?, state := state }
  | .print text next =>
    let later := next.runOn world (world.print state text)
    { later with printed := text ++ later.printed }
  | .read path next => (next (world.read state path)).runOn world state
  | .write path text next =>
    let answer := world.write state path text
    let later := (next answer.1).runOn world answer.2
    { later with attempts := (path, text) :: later.attempts }

/-- A directory with the text printed so far, where a writing that fails changes nothing. -/
def Directory.world : World (Directory × String) where
  read state := state.1.read
  write state path text :=
    match state.1.write path (Text.Utf8.encode text) with
    | .ok after => (none, after, state.2)
    | .error cause => (some cause, state)
  print state text := (state.1, state.2 ++ text)

theorem Task.runIn_eq (task : Task) (directory : Directory) (printed : String) :
    task.runIn directory printed =
      let trace := task.runOn Directory.world (directory, printed)
      ⟨trace.code, trace.error?, trace.state.2, trace.state.1⟩ := by
  induction task generalizing directory printed with
  | stop code error? => rfl
  | print text next ih => exact ih directory (printed ++ text)
  | read path next ih => exact ih _ directory printed
  | write path text next ih =>
    rw [runIn, runOn, Directory.world]
    dsimp only
    cases directory.write path (Text.Utf8.encode text) with
    | ok after => exact ih none after printed
    | error cause => exact ih (some cause) directory printed

/-- Paths of a world hold what was written to them last, and what is shown is what was printed.
Which paths name one file, neither writing nor printing changes. -/
structure World.Keeps {σ : Type} (world : World σ) (shown : σ → String)
    (same : σ → String → String → Prop) : Prop where
  written {before after : σ} {path text : String} :
    world.write before path text = (none, after) →
      (world.read after path).bytes = .ok (Text.Utf8.encode text)
  others {before after : σ} {path text other : String} :
    world.write before path text = (none, after) → ¬same before path other → ∀ bytes,
      (world.read after other).bytes = .ok bytes ↔ (world.read before other).bytes = .ok bytes
  names {before after : σ} {path text : String} :
    world.write before path text = (none, after) → same after = same before
  silent {before after : σ} {path text : String} :
    world.write before path text = (none, after) → shown after = shown before
  shows (before : σ) (text : String) : shown (world.print before text) = shown before ++ text
  read_print (before : σ) (text : String) : world.read (world.print before text) = world.read before
  names_print (before : σ) (text : String) : same (world.print before text) = same before

namespace Directory

def Same (directory : Directory) (first second : String) : Prop :=
  directory.target? first = directory.target? second

instance (directory : Directory) (first second : String) :
    Decidable (directory.Same first second) :=
  inferInstanceAs (Decidable (_ = _))

theorem write_of_world {before after : Directory × String} {path text : String}
    (written : world.write before path text = (none, after)) :
    before.1.write path (Text.Utf8.encode text) = .ok after.1 ∧ after.2 = before.2 := by
  have answered : (match before.1.write path (Text.Utf8.encode text) with
      | .ok after => (none, after, before.2)
      | .error cause => (some cause, before)) = (none, after) := written
  cases result : before.1.write path (Text.Utf8.encode text) with
  | error cause =>
    rw [result] at answered
    cases answered
  | ok left =>
    rw [result] at answered
    cases answered
    exact ⟨rfl, rfl⟩

theorem keeps : world.Keeps (·.2) (fun state => state.1.Same) where
  written written := bytes_read_of_write (write_of_world written).1
  others written elsewhere := bytes_read_of_write_elsewhere (write_of_world written).1 elsewhere
  names {before after path text} written := by
    have led := (of_write (write_of_world written).1).2
    funext first second
    rw [Same, Same, led]
  silent written := (write_of_world written).2
  shows _ _ := rfl
  read_print _ _ := rfl
  names_print _ _ := rfl

end Directory

/-- The settings that the flags and the file that they name come to. -/
def Flags.settingsFrom (fieldsOf? : String → Option Toml.Fields) (flags : Flags)
    (read : String → Reading) : Except SettingsError Settings :=
  match flags.config? with
  | none => flags.resolve {}
  | some path => (Settings.loadBy fieldsOf? path (read path).bytes).bind flags.resolve

def analysisFrom (settings : Settings) (read : String → Reading) :
    Except AnalysisError Analysis := do
  let path ← settings.inputPath.mapError .settings
  let dialect ← settings.dialect.mapError .settings
  let rows ← (openTable dialect path (read path)).mapError .table
  (settings.runOn rows).result

def Flags.analysisFrom (fieldsOf? : String → Option Toml.Fields) (flags : Flags)
    (read : String → Reading) : Except (List String) Analysis :=
  match flags.settingsFrom fieldsOf? read with
  | .error error => .error (error.message :: error.cause?.toList)
  | .ok settings => (Cli.analysisFrom settings read).mapError AnalysisError.chain

section

variable {σ : Type} (world : World σ) (state : σ) (toolkit : Toolkit)

theorem runOn_runInput (flags : Flags) (settings : Settings) :
    (toolkit.runInput flags settings).runOn world state =
      match analysisFrom settings (world.read state) with
      | .error error => (failAnalysis error).runOn world state
      | .ok analysis => (toolkit.deliver flags analysis).runOn world state := by
  rw [Toolkit.runInput, analysisFrom]
  cases settings.inputPath with
  | error error => rfl
  | ok path =>
    cases settings.dialect with
    | error error => rfl
    | ok dialect =>
      rw [Task.runOn]
      dsimp only [Except.mapError, bind, Except.bind]
      generalize openTable dialect path (world.read state path) = opened
      cases opened with
      | error error => rfl
      | ok rows =>
        dsimp only
        generalize (settings.runOn rows).result = result
        cases result <;> rfl

theorem runOn_runFlags (flags : Flags) :
    (toolkit.runFlags flags).runOn world state =
      match flags.settingsFrom toolkit.fieldsOf? (world.read state) with
      | .error error => (failSettings error).runOn world state
      | .ok settings => (toolkit.runInput flags settings).runOn world state := by
  rw [Toolkit.runFlags, Flags.settingsFrom]
  cases flags.config? with
  | none =>
    dsimp only
    rw [Toolkit.runSettings]
    cases flags.resolve {} <;> rfl
  | some path =>
    dsimp only
    rw [Task.runOn]
    generalize Settings.loadBy toolkit.fieldsOf? path (world.read state path).bytes = loaded
    cases loaded with
    | error error => rfl
    | ok base =>
      dsimp only [Except.bind]
      rw [Toolkit.runSettings]
      cases flags.resolve base <;> rfl

/-- The command reads first, and then either fails or delivers. -/
theorem runOn_command {arguments : List String} {flags : Flags}
    (accepted : toolkit.request arguments = .run flags) :
    (toolkit.command arguments).runOn world state =
      match flags.analysisFrom toolkit.fieldsOf? (world.read state) with
      | .error messages => (fail messages).runOn world state
      | .ok analysis => (toolkit.deliver flags analysis).runOn world state := by
  rw [Toolkit.command, accepted]
  dsimp only
  rw [runOn_runFlags, Flags.analysisFrom]
  cases flags.settingsFrom toolkit.fieldsOf? (world.read state) with
  | error error => rfl
  | ok settings =>
    dsimp only
    rw [runOn_runInput]
    cases analysisFrom settings (world.read state) <;> rfl

def World.Writes (path? : Option String) (text : String) (before after : σ) : Prop :=
  match path? with
  | none => after = before
  | some path => world.write before path text = (none, after)

theorem runOn_writeTo (path what text : String) (next : Task) :
    (writeTo (some path) what text next).runOn world state =
      match world.write state path text with
      | (none, after) =>
        let later := next.runOn world after
        { later with attempts := (path, text) :: later.attempts }
      | (some cause, after) =>
        let failed := (fail ["Failed to write " ++ what ++ " to " ++ path, cause]).runOn world after
        { failed with attempts := [(path, text)] } := by
  show Task.runOn world state (.write path text _) = _
  rw [Task.runOn]
  generalize world.write state path text = answer
  obtain ⟨failure?, after⟩ := answer
  cases failure? <;> rfl

theorem printed_writeTo {next : Task} (quiet : ∀ state, (next.runOn world state).printed = "")
    (path? : Option String) (what text : String) :
    ((writeTo path? what text next).runOn world state).printed = "" := by
  cases path? with
  | none => exact quiet state
  | some path =>
    rw [runOn_writeTo]
    split
    · exact quiet _
    · rfl

theorem printed_deliver (flags : Flags) (analysis : Analysis) :
    ((toolkit.deliver flags analysis).runOn world state).printed = Report.text analysis := by
  have ends (state : σ) : ((Task.stop 0 none).runOn world state).printed = "" := rfl
  have quiet := fun state => printed_writeTo world state ends flags.output? "JSON summary"
    (toolkit.layOut (Report.summary analysis))
  have all := printed_writeTo world (world.print state (Report.text analysis)) quiet flags.report?
    "report" (Report.text analysis)
  rw [Toolkit.deliver, Task.runOn]
  dsimp only
  rw [all, String.append_empty]

theorem writeTo_of_code {path? : Option String} {what text : String} {next : Task}
    (ended : ((writeTo path? what text next).runOn world state).code = 0) :
    ∃ after, world.Writes path? text state after ∧ (next.runOn world after).code = 0 ∧
      (writeTo path? what text next).runOn world state =
        { next.runOn world after with
          attempts := path?.toList.map (·, text) ++ (next.runOn world after).attempts } := by
  cases path? with
  | none => exact ⟨state, rfl, ended, rfl⟩
  | some path =>
    rw [runOn_writeTo] at ended ⊢
    cases answered : world.write state path text with
    | mk failure? after =>
      rw [answered] at ended
      cases failure? with
      | none => exact ⟨after, answered, ended, rfl⟩
      | some cause => cases ended

theorem deliver_of_code {flags : Flags} {analysis : Analysis}
    (ended : ((toolkit.deliver flags analysis).runOn world state).code = 0) :
    let report := Report.text analysis
    let summary := toolkit.layOut (Report.summary analysis)
    let trace := (toolkit.deliver flags analysis).runOn world state
    trace.attempts =
      flags.report?.toList.map (·, report) ++ flags.output?.toList.map (·, summary) ∧
    ∃ between, world.Writes flags.report? report (world.print state report) between ∧
      world.Writes flags.output? summary between trace.state := by
  intro report summary trace
  obtain ⟨between, first, ended, same⟩ := writeTo_of_code world (world.print state report) ended
  obtain ⟨after, second, -, same'⟩ := writeTo_of_code world between ended
  have attempts := congrArg Trace.attempts same
  have left := congrArg Trace.state same
  rw [same'] at attempts left
  refine ⟨attempts.trans ?_, between, first, left ▸ second⟩
  simp [Task.runOn, report, summary]

theorem deliver_of_failure {flags : Flags} {analysis : Analysis} {path cause : String} {after : σ}
    (named : flags.report? = some path)
    (failed : world.write (world.print state (Report.text analysis)) path (Report.text analysis) =
      (some cause, after)) :
    let trace := (toolkit.deliver flags analysis).runOn world state
    trace.code = 1 ∧ trace.attempts = [(path, Report.text analysis)] ∧ trace.state = after := by
  have first := runOn_writeTo world (world.print state (Report.text analysis)) path "report"
    (Report.text analysis)
    (writeTo flags.output? "JSON summary" (toolkit.layOut (Report.summary analysis)) (.stop 0 none))
  rw [failed] at first
  rw [Toolkit.deliver, named, Task.runOn]
  dsimp only
  rw [first]
  exact ⟨rfl, rfl, rfl⟩

end

section

variable {σ : Type} {world : World σ} {shown : σ → String} {same : σ → String → String → Prop}
  (keeps : world.Keeps shown same)
include keeps

namespace World.Writes

variable {path? : Option String} {path text : String} {before after : σ}

theorem bytes_read (written : world.Writes path? text before after) (named : path? = some path) :
    (world.read after path).bytes = .ok (Text.Utf8.encode text) := by
  subst named
  exact keeps.written written

theorem bytes_read_elsewhere (written : world.Writes path? text before after)
    (elsewhere : ∀ named, path? = some named → ¬same before named path) (bytes : List UInt8) :
    (world.read after path).bytes = .ok bytes ↔ (world.read before path).bytes = .ok bytes := by
  cases path? with
  | none =>
    obtain rfl : after = before := written
    exact Iff.rfl
  | some named => exact keeps.others written (elsewhere named rfl) bytes

theorem same_eq (written : world.Writes path? text before after) : same after = same before := by
  cases path? with
  | none =>
    obtain rfl : after = before := written
    rfl
  | some named => exact keeps.names written

theorem shown_eq (written : world.Writes path? text before after) : shown after = shown before := by
  cases path? with
  | none =>
    obtain rfl : after = before := written
    rfl
  | some named => exact keeps.silent written

end World.Writes

end

/-- What paths read as once report and summary have been delivered.  A summary that goes where the
report went lies over it. -/
structure Delivered (same : String → String → Prop) (flags : Flags) (report summary : String)
    (before after : String → Reading) : Prop where
  summary : ∀ path, flags.output? = some path →
    (after path).bytes = .ok (Text.Utf8.encode summary)
  report : ∀ path, flags.report? = some path →
    (∀ output, flags.output? = some output → ¬same output path) →
      (after path).bytes = .ok (Text.Utf8.encode report)
  others : ∀ path, (∀ named, flags.report? = some named ∨ flags.output? = some named →
    ¬same named path) → ∀ bytes, (after path).bytes = .ok bytes ↔ (before path).bytes = .ok bytes

theorem World.Keeps.delivered {σ : Type} {world : World σ} {shown : σ → String}
    {same : σ → String → String → Prop} (keeps : world.Keeps shown same) {flags : Flags}
    {report summary : String} {before between after : σ}
    (first : world.Writes flags.report? report (world.print before report) between)
    (second : world.Writes flags.output? summary between after) :
    shown after = shown before ++ report ∧
    Delivered (same before) flags report summary (world.read before) (world.read after) := by
  have unnamed := keeps.names_print before report
  have names : same between = same before := (first.same_eq keeps).trans unnamed
  refine ⟨?_, fun path named => second.bytes_read keeps named, fun path named apart => ?_,
    fun path apart bytes => ?_⟩
  · rw [second.shown_eq keeps, first.shown_eq keeps, keeps.shows]
  · rw [← names] at apart
    exact (second.bytes_read_elsewhere keeps apart _).mpr (first.bytes_read keeps named)
  · have later : (world.read after path).bytes = .ok bytes ↔
        (world.read between path).bytes = .ok bytes :=
      second.bytes_read_elsewhere keeps (fun named output => names ▸ apart named (.inr output)) bytes
    have sooner := first.bytes_read_elsewhere keeps
      (fun named report => unnamed ▸ apart named (.inl report)) bytes
    rw [keeps.read_print] at sooner
    exact later.trans sooner

theorem Directory.of_writes {path? : Option String} {text : String}
    {before after : Directory × String} (written : Directory.world.Writes path? text before after) :
    (∀ names, path?.bind before.1.target? ≠ some names →
      after.1.file? names = before.1.file? names) ∧
    after.1.target? = before.1.target? := by
  cases path? with
  | none =>
    obtain rfl : after = before := written
    exact ⟨fun _ _ => rfl, rfl⟩
  | some path => exact of_write (write_of_world written).1

section

variable (directory : Directory) (toolkit : Toolkit)

theorem runIn_command {arguments : List String} {flags : Flags}
    (accepted : toolkit.request arguments = .run flags) :
    (toolkit.command arguments).runIn directory "" =
      match flags.analysisFrom toolkit.fieldsOf? directory.read with
      | .error messages => (fail messages).runIn directory ""
      | .ok analysis => (toolkit.deliver flags analysis).runIn directory "" := by
  have same : Directory.world.read (directory, "") = directory.read := rfl
  rw [Task.runIn_eq, runOn_command Directory.world _ toolkit accepted, same]
  cases flags.analysisFrom toolkit.fieldsOf? directory.read with
  | error messages => exact (Task.runIn_eq _ _ _).symm
  | ok analysis => exact (Task.runIn_eq _ _ _).symm

theorem runIn_deliver_of_code {flags : Flags} {analysis : Analysis}
    (ended : ((toolkit.deliver flags analysis).runIn directory "").code = 0) :
    let done := (toolkit.deliver flags analysis).runIn directory ""
    done.printed = Report.text analysis ∧
    Delivered directory.Same flags (Report.text analysis)
      (toolkit.layOut (Report.summary analysis)) directory.read done.directory.read ∧
    (∀ names, flags.report?.bind directory.target? ≠ some names →
      flags.output?.bind directory.target? ≠ some names →
        done.directory.file? names = directory.file? names) ∧
    done.directory.target? = directory.target? := by
  rw [Task.runIn_eq] at ended ⊢
  obtain ⟨-, between, first, second⟩ := deliver_of_code Directory.world _ toolkit ended
  obtain ⟨shown, delivered⟩ := Directory.keeps.delivered first second
  obtain ⟨files, paths⟩ := Directory.of_writes first
  obtain ⟨files', paths'⟩ := Directory.of_writes second
  refine ⟨shown.trans String.empty_append, delivered, fun names apart apart' => ?_,
    paths'.trans paths⟩
  have same : between.1.target? = directory.target? := paths
  rw [← same] at apart'
  exact (files' names apart').trans (files names apart)

theorem runIn_deliver_of_failure {flags : Flags} {analysis : Analysis} {path cause : String}
    (named : flags.report? = some path)
    (failed : directory.write path (Text.Utf8.encode (Report.text analysis)) = .error cause) :
    let done := (toolkit.deliver flags analysis).runIn directory ""
    done.code = 1 ∧ done.directory = directory := by
  have answered : Directory.world.write (directory, "" ++ Report.text analysis) path
      (Report.text analysis) = (some cause, directory, "" ++ Report.text analysis) := by
    show (match directory.write path _ with | .ok after => _ | .error cause => _) = _
    rw [failed]
  obtain ⟨code, -, left⟩ := deliver_of_failure Directory.world (directory, "") toolkit named answered
  rw [Task.runIn_eq]
  exact ⟨code, congrArg Prod.fst left⟩

end

/-- Unless settings and run succeed, the command prints nothing, writes nothing and stops with
their error.  When it stops well it has printed the report, and the paths that the flags name read
as the report and, over it, the summary.  After a report that cannot be written nothing is tried.
-/
theorem command_fails_or_delivers {toolkit : Toolkit} {arguments : List String} {flags : Flags}
    (accepted : toolkit.request arguments = .run flags) :
    (∀ {σ : Type} (world : World σ) (state : σ),
      let trace := (toolkit.command arguments).runOn world state
      (∀ messages, flags.analysisFrom toolkit.fieldsOf? (world.read state) = .error messages →
        trace = ⟨1, some ("Error: " ++ Text.joined ": " messages), "", [], state⟩) ∧
      ∀ analysis, flags.analysisFrom toolkit.fieldsOf? (world.read state) = .ok analysis →
        let report := Report.text analysis
        let summary := toolkit.layOut (Report.summary analysis)
        trace.printed = report ∧
        (trace.code = 0 →
          trace.attempts =
            flags.report?.toList.map (·, report) ++ flags.output?.toList.map (·, summary) ∧
          (∃ between, world.Writes flags.report? report (world.print state report) between ∧
            world.Writes flags.output? summary between trace.state) ∧
          ∀ shown same, world.Keeps shown same →
            shown trace.state = shown state ++ report ∧
            Delivered (same state) flags report summary (world.read state)
              (world.read trace.state)) ∧
        ∀ path cause after, flags.report? = some path →
          world.write (world.print state report) path report = (some cause, after) →
          trace.code = 1 ∧ trace.attempts = [(path, report)] ∧ trace.state = after) ∧
    ∀ directory : Directory,
      let done := (toolkit.command arguments).runIn directory ""
      (∀ messages, flags.analysisFrom toolkit.fieldsOf? directory.read = .error messages →
        done = ⟨1, some ("Error: " ++ Text.joined ": " messages), "", directory⟩) ∧
      ∀ analysis, flags.analysisFrom toolkit.fieldsOf? directory.read = .ok analysis →
        let report := Report.text analysis
        let summary := toolkit.layOut (Report.summary analysis)
        (done.code = 0 →
          done.printed = report ∧
          Delivered directory.Same flags report summary directory.read done.directory.read ∧
          (∀ names, flags.report?.bind directory.target? ≠ some names →
            flags.output?.bind directory.target? ≠ some names →
              done.directory.file? names = directory.file? names) ∧
          done.directory.target? = directory.target?) ∧
        ∀ path cause, flags.report? = some path →
          directory.write path (Text.Utf8.encode report) = .error cause →
          done.code = 1 ∧ done.directory = directory := by
  refine ⟨fun {σ} world state => ?_, fun directory => ?_⟩
  · rw [runOn_command world state toolkit accepted]
    refine ⟨fun messages failed => ?_, fun analysis found => ?_⟩
    · rw [failed]
      rfl
    · rw [found]
      refine ⟨printed_deliver world state toolkit flags analysis, fun ended => ?_,
        fun path cause after named failed => deliver_of_failure world state toolkit named failed⟩
      obtain ⟨attempts, between, first, second⟩ := deliver_of_code world state toolkit ended
      exact ⟨attempts, ⟨between, first, second⟩,
        fun shown same keeps => keeps.delivered first second⟩
  · rw [runIn_command directory toolkit accepted]
    refine ⟨fun messages failed => ?_, fun analysis found => ?_⟩
    · rw [failed]
      rfl
    · rw [found]
      exact ⟨runIn_deliver_of_code directory toolkit,
        fun path cause named failed => runIn_deliver_of_failure directory toolkit named failed⟩

/-- The report goes where the input was and the summary goes beyond the directory, and without the
input there is no report. -/
theorem command_fails_or_delivers_onto_input :
    let arguments := ["--input", "t.csv", "--group-by", "k", "--report", "./t.csv",
      "--output", "../s.json"]
    let table : File := ⟨["t.csv"], Text.Utf8.encode "k,v\na,1\nb,2\n"⟩
    ∃ flags analysis, Request.ofArguments arguments = .run flags ∧
      flags.analysisFrom Toml.fields? (Directory.read ⟨[table]⟩) = .ok analysis ∧
      (let done := (command arguments).runIn ⟨[table]⟩ ""
      done.code = 0 ∧ done.printed = Report.text analysis ∧
        (done.directory.read "./t.csv").bytes = .ok (Text.Utf8.encode (Report.text analysis)) ∧
        (done.directory.read "../s.json").bytes =
          .ok (Text.Utf8.encode (Report.summary analysis).toPrettyText)) ∧
      ∃ messages, flags.analysisFrom Toml.fields? (Directory.read ⟨[]⟩) = .error messages ∧
        (command arguments).runIn ⟨[]⟩ "" =
          ⟨1, some ("Error: " ++ Text.joined ": " messages), "", ⟨[]⟩⟩ := by
  intro arguments table
  rw [command]
  let flags : Flags :=
    { input? := some "t.csv", groupBy? := some "k", report? := some "./t.csv",
      output? := some "../s.json" }
  have parsed : Request.ofArguments arguments = .run flags := by decide +kernel
  have accepted : Toolkit.own.request arguments = .run flags := by
    have reader : Toolkit.own.request = Request.ofArguments := rfl
    rw [reader]
    exact parsed
  obtain ⟨analysis, found⟩ : ∃ analysis,
      flags.analysisFrom Toml.fields? (Directory.read ⟨[table]⟩) = .ok analysis :=
    exists_ok_of_toBool (by decide +kernel)
  have ended : ((Toolkit.own.command arguments).runIn ⟨[table]⟩ "").code = 0 := by decide +kernel
  obtain ⟨messages, missing⟩ : ∃ messages,
      flags.analysisFrom Toml.fields? (Directory.read ⟨[]⟩) = .error messages :=
    exists_error_of_toBool (by decide +kernel)
  have inDirectory := (command_fails_or_delivers accepted).2
  obtain ⟨printed, delivered, -⟩ := ((inDirectory ⟨[table]⟩).2 analysis found).1 ended
  have apart : ¬Directory.Same ⟨[table]⟩ "../s.json" "./t.csv" := by decide +kernel
  refine ⟨flags, analysis, parsed, found, ⟨ended, printed, ?_, delivered.summary _ rfl⟩, ?_⟩
  · refine delivered.report _ rfl fun output named => ?_
    obtain rfl : "../s.json" = output := Option.some.inj named
    exact apart
  · exact ⟨messages, missing, (inDirectory ⟨[]⟩).1 messages missing⟩

end Rollup.Cli
