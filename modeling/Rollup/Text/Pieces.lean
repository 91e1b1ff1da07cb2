import Rollup.Text.Blank

/-! Cutting texts into pieces and putting them together: the pieces between separators, the items
of a comma-separated list, what follows a word, and equality up to the case of ASCII letters. -/

namespace Rollup.Text

/-- The pieces between separators; there is always one more piece than separators. -/
def pieces (separator : Char) : List Char → List (List Char)
  | [] => [[]]
  | c :: rest =>
    if c = separator then [] :: pieces separator rest
    else
      match pieces separator rest with
      | [] => [[c]]
      | piece :: others => (c :: piece) :: others

def listItems (list : String) : List String :=
  ((pieces ',' list.toList).map trim).filter (· ≠ []) |>.map String.ofList

def joined (separator : String) (items : List String) : String := separator.intercalate items

def afterWord? : List Char → List Char → Option (List Char)
  | [], cs => some cs
  | _ :: _, [] => none
  | w :: word, c :: cs => if w = c then afterWord? word cs else none

theorem afterWord?_eq_some_iff {word cs rest : List Char} :
    afterWord? word cs = some rest ↔ cs = word ++ rest := by
  induction word generalizing cs with
  | nil => simp [afterWord?]
  | cons w word ih =>
    cases cs with
    | nil => simp [afterWord?]
    | cons c cs =>
      unfold afterWord?
      split
      case isTrue same => simp [ih, same]
      case isFalse other => simp [Ne.symm other]

def sameIgnoringCase (a b : String) : Bool :=
  a.toList.map Char.toLower == b.toList.map Char.toLower

end Rollup.Text
