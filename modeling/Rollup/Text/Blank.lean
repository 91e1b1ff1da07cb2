/-! Blank characters and trimming.  Two classes are kept apart: the White_Space property of
Unicode, by which cells, tokens and list pieces are trimmed, and the five ASCII blanks, by which
a whole record counts as blank and between which filter tokens stand. -/

namespace Rollup.Text

/-- The code points with the White_Space property. -/
def isBlank (c : Char) : Bool :=
  let n := c.toNat
  (0x9 ≤ n && n ≤ 0xD) || n == 0x20 || n == 0x85 || n == 0xA0 || n == 0x1680 ||
    (0x2000 ≤ n && n ≤ 0x200A) || n == 0x2028 || n == 0x2029 || n == 0x202F ||
    n == 0x205F || n == 0x3000

def isAsciiBlankCode (n : Nat) : Bool :=
  n == 0x20 || n == 0x9 || n == 0xA || n == 0xC || n == 0xD

def isAsciiBlank (c : Char) : Bool := isAsciiBlankCode c.toNat

theorem isBlank_of_isAsciiBlank (c : Char) (blank : isAsciiBlank c = true) :
    isBlank c = true := by
  simp only [isAsciiBlank, isAsciiBlankCode, isBlank, Bool.or_eq_true, beq_iff_eq,
    Bool.and_eq_true, decide_eq_true_eq] at blank ⊢
  omega

def trimStart (cs : List Char) : List Char := cs.dropWhile isBlank

def trimEnd (cs : List Char) : List Char := (cs.reverse.dropWhile isBlank).reverse

def trim (cs : List Char) : List Char := trimEnd (trimStart cs)

theorem trimEnd_nil : trimEnd [] = [] := rfl

theorem trimEnd_append_of_last (cs : List Char) (c : Char) (ink : isBlank c = false) :
    trimEnd (cs ++ [c]) = cs ++ [c] := by
  simp [trimEnd, ink]

end Rollup.Text
