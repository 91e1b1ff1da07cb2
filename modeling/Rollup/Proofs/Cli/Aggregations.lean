import Rollup.Proofs.Cli.Layers
import Rollup.Proofs.Text.Trimming

/-! Two ways to ask for aggregations: in one list behind the flag, which is split into entries, or
as entries of the settings, which are joined into one list.  Main statement: both come to the same
operations or to the same error, because only the tokens count, which stand between commas and are
not blank. -/

namespace Rollup

open Rollup.Group Text

theorem Group.parseOperations_of_listItems {first second : String}
    (same : listItems first = listItems second) (header : Table.Header) :
    parseOperations header first = parseOperations header second := by
  rw [parseOperations, parseOperations, same]

namespace Settings

def asking (settings : Settings) (entries : List String) : Settings :=
  { settings with aggregations := entries }

section

variable (settings : Settings) {first second : List String}

theorem parseOperations_asking (same : tokensOf first = tokensOf second) (header : Table.Header) :
    parseOperations header (settings.asking first).aggregationList =
      parseOperations header (settings.asking second).aggregationList := by
  refine parseOperations_of_listItems ?_ header
  rw [aggregationList, aggregationList, listItems_joined_eq, listItems_joined_eq]
  exact congrArg _ same

theorem prepare_asking (same : tokensOf first = tokensOf second) (header : Table.Header) :
    (settings.asking first).prepare header = (settings.asking second).prepare header := by
  rw [prepare, parseOperations_asking settings same header]
  rfl

theorem run_asking (same : tokensOf first = tokensOf second) (input : String)
    (source : Table.Source) :
    (settings.asking first).run input source = (settings.asking second).run input source := by
  have opened (rows : Table.Rows) :
      (settings.asking first).runOn rows = (settings.asking second).runOn rows := by
    rw [runOn, prepare_asking settings same]
    rfl
  have spoken : (settings.asking first).dialect = (settings.asking second).dialect := rfl
  rw [run, run, spoken]
  cases (settings.asking second).dialect with
  | error error => rfl
  | ok dialect =>
    dsimp only
    cases Table.Rows.ofSource dialect input source with
    | error error => rfl
    | ok rows => exact opened rows

end

end Settings

/-- A list behind the flag is read as it would be read without having been split, and the settings
that it ends up in run as if it had been their one entry.  Entries with the same tokens in the same
order, whatever commas and blanks stand in them, come to the same operations or the same error. -/
theorem aggregations_by_tokens :
    (∀ (flags : Cli.Flags) (base settings : Settings) (list : String),
      flags.aggregations? = some list → flags.resolve base = .ok settings →
      (∀ header, parseOperations header settings.aggregationList = parseOperations header list) ∧
      ∀ input source, settings.run input source = (settings.asking [list]).run input source) ∧
    (∀ (settings : Settings) (list : String) (header : Table.Header),
      parseOperations header (settings.asking (listItems list)).aggregationList =
        parseOperations header list) ∧
    ∀ first second, tokensOf first = tokensOf second → ∀ settings : Settings,
      (∀ header, parseOperations header (settings.asking first).aggregationList =
        parseOperations header (settings.asking second).aggregationList) ∧
      ∀ input source,
        (settings.asking first).run input source = (settings.asking second).run input source := by
  have again (settings : Settings) (list : String) (header : Table.Header) :
      parseOperations header (settings.asking (listItems list)).aggregationList =
        parseOperations header list :=
    parseOperations_of_listItems (listItems_joined fun item => isItem_of_mem_listItems) header
  refine ⟨fun flags base settings list given resolved => ?_, again,
    fun first second same settings => ⟨settings.parseOperations_asking same,
      settings.run_asking same⟩⟩
  obtain ⟨delimiter, -, rfl, -, -⟩ := Cli.Flags.onto_of_resolve resolved
  have entries : (flags.onto base delimiter).aggregations = listItems list := by
    rw [Cli.Flags.onto, given]
    rfl
  have split : (flags.onto base delimiter).asking (listItems list) = flags.onto base delimiter := by
    rw [← entries]
    rfl
  constructor
  · rw [← split]
    exact again (flags.onto base delimiter) list
  · rw [← split]
    exact Settings.run_asking (flags.onto base delimiter) (tokensOf_listItems list)

/-- Wide blanks around a token that is no operation, behind an empty piece and in front of a column
that the table lacks. -/
theorem aggregations_by_tokens_unrecognised :
    let header : Table.Header := ⟨["v"]⟩
    let list := " sum(v) ,,\u3000median(v)\u3000, sum(w)"
    let flags : Cli.Flags := { input? := some "t.csv", aggregations? := some list }
    let settings : Settings := { aggregations := ["sum(v),", " ", "median(v) ,\tsum(w)"] }
    tokensOf settings.aggregations = tokensOf (listItems list) ∧
    parseOperations header settings.aggregationList = .error (.unrecognised "median(v)") ∧
    ∃ resolved, flags.resolve {} = .ok resolved ∧
      resolved.aggregations = ["sum(v)", "median(v)", "sum(w)"] ∧
      parseOperations header resolved.aggregationList = .error (.unrecognised "median(v)") := by
  intro header list flags settings
  obtain ⟨flag, entries, tokens⟩ := aggregations_by_tokens
  have refused : parseOperations header list = .error (.unrecognised "median(v)") := by
    decide +kernel
  have same : tokensOf settings.aggregations = tokensOf (listItems list) := by decide +kernel
  have joined :=
    calc parseOperations header settings.aggregationList
      _ = parseOperations header (settings.asking (listItems list)).aggregationList :=
        (tokens _ _ same settings).1 header
      _ = parseOperations header list := entries settings list header
      _ = .error (.unrecognised "median(v)") := refused
  let resolved : Settings :=
    { input? := some "t.csv", aggregations := ["sum(v)", "median(v)", "sum(w)"] }
  have settled : flags.resolve {} = .ok resolved := by decide +kernel
  have named := (flag flags {} resolved list rfl settled).1 header
  exact ⟨same, joined, resolved, settled, rfl, named.trans refused⟩

end Rollup
