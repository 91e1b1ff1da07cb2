import Rollup.Proofs.Decimal.Definite
import Rollup.Proofs.Decimal.Height
import Rollup.Proofs.Filter.Numbers

/-! The six comparisons of one cell with one number.  A number of a filter text is always a number,
so when the cell holds one too, the comparisons tell how the two stand to each other, and agree on
it.  The exception is a cell with the word for no number: it is read, stands in no order to
anything, and so meets nothing but "not equal".  Main statement: what the six comparisons make of
any cell and any number that filter texts can express. -/

namespace Rollup.Filter

open Table Text Decimal

/-- Whether a comparison holds between two things in that order, if they are in one. -/
def Comparison.fits (comparison : Comparison) : Option Ordering → Bool
  | none => comparison = .notEqual
  | some o =>
    match comparison with
    | equal => o.isEq
    | notEqual => o.isNe
    | greater => o.isGT
    | less => o.isLT
    | greaterOrEqual => o.isGE
    | lessOrEqual => o.isLE

theorem holds_eq_fits (comparison : Comparison) (actual expected : Float) :
    comparison.holds actual expected =
      comparison.fits (actual.toModel.unpack.compare expected.toModel.unpack) := by
  have reversed := compare_swapped actual expected
  cases comparison with
  | equal | notEqual =>
    rw [Comparison.holds, beq_eq_compare]
    cases actual.toModel.unpack.compare expected.toModel.unpack with
    | none => rfl
    | some o => cases o <;> rfl
  | less | lessOrEqual =>
    simp only [Comparison.holds, lt_iff_compare, le_iff_compare]
    cases actual.toModel.unpack.compare expected.toModel.unpack with
    | none => rfl
    | some o => cases o <;> rfl
  | greater | greaterOrEqual =>
    simp only [Comparison.holds, lt_iff_compare, le_iff_compare, reversed]
    cases actual.toModel.unpack.compare expected.toModel.unpack with
    | none => rfl
    | some o => cases o <;> rfl

/-- The comparisons that accept fit one order: just one of less, equal and greater accepts, and
what the others do follows from that. -/
structure Ordered (accepts : Comparison → Bool) : Prop where
  one : [Comparison.less, .equal, .greater].countP accepts = 1
  notEqual : accepts .notEqual = !accepts .equal
  lessOrEqual : accepts .lessOrEqual = (accepts .less || accepts .equal)
  greaterOrEqual : accepts .greaterOrEqual = (accepts .greater || accepts .equal)

theorem ordered_fits (o : Ordering) : Ordered fun comparison => comparison.fits (some o) := by
  cases o <;> exact ⟨rfl, rfl, rfl, rfl⟩

theorem ordered_holds {actual expected : Float} (number : actual.isNaN = false)
    (number' : expected.isNaN = false) :
    Ordered fun comparison => comparison.holds actual expected := by
  simp only [holds_eq_fits, compare_eq_height number number']
  exact ordered_fits _

theorem holds_notANumber {actual : Float} (missing : actual.isNaN = true) (expected : Float)
    (comparison : Comparison) :
    comparison.holds actual expected = decide (comparison = .notEqual) := by
  rw [holds_eq_fits, compare_notANumber (.inl missing)]
  rfl

theorem isNaN_of_spells {digits : List Char} {expected : Float}
    (written : Spells digits (.number expected)) : expected.isNaN = false := by
  cases written with
  | number shape read =>
    obtain ⟨body, signed, unsigned⟩ := shape
    obtain ⟨negative, sign⟩ := takeSign_of_plain unsigned.chars signed
    apply Bool.eq_false_iff.mpr
    rw [ne_eq, isNaN_of_read? read, sign, map_toLower_of_plain unsigned.chars]
    exact ne_nan_of_plain unsigned.chars

def deniesNumber (cell : String) : Prop :=
  (takeSign (trim cell.toList)).2.map Char.toLower = "nan".toList

instance (cell : String) : Decidable (deniesNumber cell) := instDecidableEqList _ _

theorem isNaN_of_cellNumber? {cell : String} {actual : Float}
    (read : cellNumber? cell = some actual) : actual.isNaN = true ↔ deniesNumber cell := by
  rw [cellNumber?] at read
  split at read
  case h_1 blank =>
    cases read
    rw [deniesNumber, blank]
    exact iff_of_false nofun (by decide)
  case h_2 => exact isNaN_of_read? read

theorem cellNumber?_of_blank {cell : String} (blank : trim cell.toList = []) :
    cellNumber? cell = some 0.0 := by
  rw [cellNumber?, blank]

theorem exists_of_deniesNumber {cell : String} (denied : deniesNumber cell) :
    ∃ actual, cellNumber? cell = some actual ∧ actual.isNaN = true := by
  have some : trim cell.toList ≠ [] := by
    intro blank
    rw [deniesNumber, blank] at denied
    exact absurd denied (by decide)
  have read : ∃ actual, cellNumber? cell = .some actual := by
    have other : ¬("nan".toList = "inf".toList ∨ "nan".toList = "infinity".toList) := by decide
    rw [cellNumber?]
    split
    case h_1 blank => exact absurd blank some
    case h_2 =>
      rw [deniesNumber] at denied
      simp only [read?, denied, if_neg other, if_true, Option.map_some]
      exact ⟨_, rfl⟩
  obtain ⟨actual, read⟩ := read
  exact ⟨actual, read, (isNaN_of_cellNumber? read).mpr denied⟩

theorem meets_number (column : String) (comparison : Comparison) (expected : Float)
    (cell : String) : (Condition.mk column comparison (.number expected)).meets cell =
      (cellNumber? cell).any (comparison.holds · expected) := by
  rw [Condition.meets]
  cases cellNumber? cell <;> rfl

/-- One cell under the six comparisons with a number: they fit one order or they all fail, unless
the cell is the word for no number. -/
theorem comparisons_of_cell {digits : List Char} {expected : Float}
    (written : Spells digits (.number expected)) (row : Row) (column : String) :
    let condition := fun comparison => Condition.mk column comparison (.number expected)
    let accepts := fun comparison => (condition comparison).accepts row
    let cell := row.cell column
    (¬deniesNumber cell →
      Ordered accepts ∨ cellNumber? cell = none ∧ ∀ comparison, accepts comparison = false) ∧
    (deniesNumber cell → ∀ comparison, accepts comparison = decide (comparison = .notEqual)) ∧
    (trim cell.toList = [] →
      ∀ comparison, accepts comparison = (condition comparison).meets "0") := by
  intro condition accepts cell
  have number := isNaN_of_spells written
  have accepts_eq (comparison : Comparison) :
      accepts comparison = (cellNumber? cell).any (comparison.holds · expected) :=
    meets_number column comparison expected cell
  refine ⟨fun affirmed => ?_, fun denied comparison => ?_, fun blank comparison => ?_⟩
  · cases read : cellNumber? cell with
    | none =>
      refine .inr ⟨rfl, fun comparison => ?_⟩
      rw [accepts_eq, read, Option.any_none]
    | some actual =>
      have number' : actual.isNaN = false :=
        Bool.eq_false_iff.mpr (mt (isNaN_of_cellNumber? read).mp affirmed)
      have same : accepts = fun comparison => comparison.holds actual expected := by
        funext comparison
        rw [accepts_eq, read, Option.any_some]
      rw [same]
      exact .inl (ordered_holds number' number)
  · obtain ⟨actual, read, missing⟩ := exists_of_deniesNumber denied
    rw [accepts_eq, read, Option.any_some, holds_notANumber missing]
  · have zero : cellNumber? "0" = some 0.0 := rfl
    rw [accepts_eq, meets_number, zero, cellNumber?_of_blank blank]

theorem spells_one : Spells ['1'] (.number 1.0) :=
  .number ⟨['1'], .inl rfl, List.all_eq_true.mp rfl, ⟨'1', List.mem_cons_self, rfl⟩, by decide⟩ rfl

/-- Below all finite numbers, no number, and nothing, each against one. -/
theorem comparisons_of_cell_one :
    let condition := fun comparison => Condition.mk "v" comparison (.number 1.0)
    let row := fun cell => Row.ofPairs [("v", cell)]
    Spells ['1'] (.number 1.0) ∧
    Ordered (fun comparison => (condition comparison).accepts (row " -inf ")) ∧
    (∀ comparison,
      (condition comparison).accepts (row "-nAn") = decide (comparison = .notEqual)) ∧
    ∀ comparison, (condition comparison).accepts (row "\t") = (condition comparison).meets "0" := by
  intro condition row
  have told := fun cell => comparisons_of_cell spells_one (row cell) "v"
  have known : ¬deniesNumber ((row " -inf ").cell "v") := by decide
  have read : (cellNumber? ((row " -inf ").cell "v")).isSome = true := by decide
  have denied : deniesNumber ((row "-nAn").cell "v") := by decide
  have blank : trim ((row "\t").cell "v").toList = [] := by decide
  exact ⟨spells_one, ((told " -inf ").1 known).resolve_right fun unread =>
      Option.isSome_iff_ne_none.mp read unread.1, (told "-nAn").2.1 denied, (told "\t").2.2 blank⟩

/-- A cell that is the word for no number differs from a number, and yet is in no order to it. -/
theorem comparisons_disagree :
    let accepts := fun comparison =>
      (Condition.mk "v" comparison (.number 1.0)).accepts (.ofPairs [("v", "NaN")])
    Spells ['1'] (.number 1.0) ∧
    ¬(Ordered accepts ∨ ∀ comparison, accepts comparison = false) := by
  intro accepts
  have unordered : [Comparison.less, .equal, .greater].countP accepts = 0 := by decide
  have accepted : accepts .notEqual = true := by decide
  refine ⟨spells_one, ?_⟩
  rintro (ordered | rejected)
  · rw [ordered.one] at unordered
    cases unordered
  · rw [rejected] at accepted
    cases accepted

end Rollup.Filter
