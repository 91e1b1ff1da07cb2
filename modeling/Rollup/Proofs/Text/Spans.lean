import Rollup.Text.Blank

/-! The longest run of a class at the start of a text.  It is told by two facts: its members are of
the class, and the text does not go on with another one. -/

namespace Rollup.Text

variable {α : Type} {p : α → Bool} {body rest : List α}

/-- A text does not go on with a member of the class. -/
def Halts (p : α → Bool) (rest : List α) : Prop := rest.head?.any p = false

instance (p : α → Bool) (rest : List α) : Decidable (Halts p rest) :=
  inferInstanceAs (Decidable (_ = false))

theorem halts_nil : Halts p [] := rfl

theorem halts_cons {first : α} (outside : p first = false) : Halts p (first :: rest) := outside

theorem takeWhile_of_halts (halts : Halts p rest) : rest.takeWhile p = [] := by
  cases rest with
  | nil => rfl
  | cons first others =>
    have outside : p first = false := halts
    exact List.takeWhile_cons_of_neg (by simp [outside])

theorem dropWhile_of_halts (halts : Halts p rest) : rest.dropWhile p = rest := by
  cases rest with
  | nil => rfl
  | cons first others =>
    have outside : p first = false := halts
    exact List.dropWhile_cons_of_neg (by simp [outside])

theorem takeWhile_append_of_halts (inside : ∀ symbol ∈ body, p symbol = true)
    (halts : Halts p rest) : (body ++ rest).takeWhile p = body := by
  rw [List.takeWhile_append_of_pos inside, takeWhile_of_halts halts, List.append_nil]

theorem dropWhile_append_of_halts (inside : ∀ symbol ∈ body, p symbol = true)
    (halts : Halts p rest) : (body ++ rest).dropWhile p = rest := by
  rw [List.dropWhile_append_of_pos inside, dropWhile_of_halts halts]

theorem mem_takeWhile {symbol : α} (member : symbol ∈ rest.takeWhile p) : p symbol = true :=
  List.all_eq_true.mp List.all_takeWhile symbol member

theorem mem_dropWhile {symbol : α} (member : symbol ∈ rest) (outside : p symbol = false) :
    symbol ∈ rest.dropWhile p := by
  have parts : symbol ∈ rest.takeWhile p ++ rest.dropWhile p := by
    rwa [List.takeWhile_append_dropWhile]
  refine (List.mem_append.mp parts).resolve_left fun inside => ?_
  rw [mem_takeWhile inside] at outside
  cases outside

theorem trim_ne_nil_of_mem {c : Char} {cs : List Char} (member : c ∈ cs)
    (ink : isBlank c = false) : trim cs ≠ [] := by
  have start : c ∈ trimStart cs := mem_dropWhile member ink
  have kept : c ∈ trim cs :=
    List.mem_reverse.mpr (mem_dropWhile (List.mem_reverse.mpr start) ink)
  exact List.ne_nil_of_mem kept

theorem halts_dropWhile (p : α → Bool) (symbols : List α) : Halts p (symbols.dropWhile p) := by
  have first := List.head?_dropWhile_not p symbols
  unfold Halts
  cases head : (symbols.dropWhile p).head? with
  | none => rfl
  | some symbol =>
    rw [head] at first
    simpa using first

theorem Halts.append {front : List α} (halts : Halts p rest)
    (outside : ∀ symbol ∈ front, p symbol = false) : Halts p (front ++ rest) := by
  cases front with
  | nil => exact halts
  | cons first others => exact outside first List.mem_cons_self

end Rollup.Text
