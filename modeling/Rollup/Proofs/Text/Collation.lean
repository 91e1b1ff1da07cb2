import Rollup.Text.Encoding

/-! The order of texts.  The first byte of a character tells how many bytes follow it and rises with
their number, and the following ones are the digits of its code point to the base 64.  So the bytes
of a character are less than those of a later one, whatever comes behind the two.  Main statement:
comparing two texts byte by byte is comparing them code point by code point. -/

namespace Rollup.Text.Utf8

section

variable {α : Type} [LT α] {first second : List α}

/-- A list is less than another one, whatever follows the two. -/
def Decides (first second : List α) : Prop :=
  ∀ more others, first ++ more < second ++ others

theorem decides_of_lt {x y : α} (less : x < y) (first second : List α) :
    Decides (x :: first) (y :: second) :=
  fun _ _ => List.cons_lt_cons_iff.mpr (.inl less)

theorem Decides.append (decided : Decides first second) (rest others : List α) :
    Decides (first ++ rest) (second ++ others) := by
  intro more more'
  rw [List.append_assoc, List.append_assoc]
  exact decided _ _

theorem Decides.behind (shared : List α) (decided : Decides first second) :
    Decides (shared ++ first) (shared ++ second) := by
  intro more others
  rw [List.append_assoc, List.append_assoc]
  exact List.append_left_lt (decided more others)

theorem append_lt_append_iff [Std.Irrefl (α := α) (· < ·)] (shared : List α) :
    shared ++ first < shared ++ second ↔ first < second := by
  induction shared with
  | nil => rfl
  | cons x shared ih =>
    rw [List.cons_append, List.cons_append, List.cons_lt_cons_iff, ih]
    simp [Std.Irrefl.irrefl x]

/-- Texts compare as what their characters are written as, if a lesser character is written as
something less, whatever follows. -/
theorem flatMap_lt_flatMap_iff [Std.Asymm (α := α) (· < ·)] {written : Char → List α}
    (decides : ∀ c d : Char, c < d → Decides (written c) (written d))
    (some : ∀ c, written c ≠ []) (cs ds : List Char) :
    cs.flatMap written < ds.flatMap written ↔ cs < ds := by
  induction cs generalizing ds with
  | nil =>
    cases ds with
    | nil => simp
    | cons d ds =>
      obtain ⟨x, rest, found⟩ := List.exists_cons_of_ne_nil (some d)
      simp [found]
  | cons c cs ih =>
    cases ds with
    | nil => simp
    | cons d ds =>
      rw [List.flatMap_cons, List.flatMap_cons, List.cons_lt_cons_iff]
      rcases Nat.lt_trichotomy c.toNat d.toNat with less | same | greater
      · exact iff_of_true (decides c d less _ _) (.inl less)
      · obtain rfl := Char.toNat_inj.mp same
        rw [append_lt_append_iff, ih]
        refine ⟨fun rest => .inr ⟨rfl, rest⟩, ?_⟩
        rintro (less | ⟨-, rest⟩)
        · exact absurd less (Char.lt_irrefl c)
        · exact rest
      · refine iff_of_false (List.lt_asymm (decides d c greater _ _)) ?_
        rintro (less | ⟨rfl, -⟩)
        · exact Nat.lt_asymm greater less
        · exact Nat.lt_irrefl _ greater

end

theorem ofNat_lt_ofNat {m n : Nat} (less : m < n) (small : n < 256) :
    UInt8.ofNat m < UInt8.ofNat n := by
  rw [UInt8.lt_iff_toNat_lt, UInt8.toNat_ofNat', UInt8.toNat_ofNat']
  omega

def trail : Nat → Nat → List UInt8
  | 0, _ => []
  | count + 1, n => trail count (n / 64) ++ [UInt8.ofNat (n % 64 + 0x80)]

def front : Nat → Nat → Nat
  | 0, n => n
  | count + 1, n => front count (n / 64)

theorem decides_trail {count m n : Nat} (less : m < n) (same : front count m = front count n) :
    Decides (trail count m) (trail count n) := by
  induction count generalizing m n with
  | zero => exact absurd same (Nat.ne_of_lt less)
  | succ count ih =>
    have upTo : m / 64 ≤ n / 64 := Nat.div_le_div_right (Nat.le_of_lt less)
    rcases Nat.lt_or_eq_of_le upTo with higher | higher
    · exact (ih higher same).append _ _
    · have last : m % 64 + 0x80 < n % 64 + 0x80 := by omega
      rw [trail, trail, higher]
      exact (decides_of_lt (ofNat_lt_ofNat last (by omega)) [] []).behind _

/-- How a code point is laid out: the number of bytes behind the first one, and the code of the
first one, which holds the highest digit and tells that number. -/
inductive Layout (n : Nat) : Nat → Nat → Prop where
  | single (upper : n ≤ 0x7F) : Layout n 0 n
  | pair (lower : 0x7F < n) (upper : n ≤ 0x7FF) : Layout n 1 (n / 64 + 0xC0)
  | triple (lower : 0x7FF < n) (upper : n ≤ 0xFFFF) : Layout n 2 (n / 4096 + 0xE0)
  | quadruple (lower : 0xFFFF < n) (upper : n < 0x110000) : Layout n 3 (n / 262144 + 0xF0)

theorem exists_layout (c : Char) : ∃ count first, Layout c.toNat count first ∧
    String.utf8EncodeChar c = UInt8.ofNat first :: trail count c.toNat := by
  have limit : c.val.toNat < 0x110000 := by
    rcases c.valid with low | ⟨-, high⟩
    · exact Nat.lt_trans low (by decide)
    · exact high
  unfold String.utf8EncodeChar Char.toNat
  generalize c.val.toNat = n at limit
  dsimp only
  split
  case isTrue upper => exact ⟨0, n, .single upper, rfl⟩
  case isFalse lower =>
    split
    case isTrue upper =>
      have digit : n / 64 % 32 = n / 64 := Nat.mod_eq_of_lt (by omega)
      exact ⟨1, _, .pair (by omega) upper, by simp [trail, digit]⟩
    case isFalse lower =>
      split
      case isTrue upper =>
        have digit : n / 4096 % 16 = n / 4096 := Nat.mod_eq_of_lt (by omega)
        exact ⟨2, _, .triple (by omega) upper, by simp [trail, digit]⟩
      case isFalse lower =>
        have digit : n / 262144 % 8 = n / 262144 := Nat.mod_eq_of_lt (by omega)
        refine ⟨3, _, .quadruple (by omega) limit, ?_⟩
        simp [trail, digit, Nat.div_div_eq_div_mul]

theorem Layout.lt_or_eq {m n count count' first first' : Nat} (lesser : Layout m count first)
    (greater : Layout n count' first') (less : m < n) :
    first < first' ∧ first' < 256 ∨
      first = first' ∧ count = count' ∧ front count m = front count n := by
  cases lesser <;> cases greater <;> dsimp only [front] <;> omega

theorem decides_encodeChar (c d : Char) (less : c < d) :
    Decides (String.utf8EncodeChar c) (String.utf8EncodeChar d) := by
  have less' : c.toNat < d.toNat := less
  obtain ⟨count, first, lesser, bytes⟩ := exists_layout c
  obtain ⟨count', first', greater, bytes'⟩ := exists_layout d
  rw [bytes, bytes']
  rcases lesser.lt_or_eq greater less' with ⟨lower, small⟩ | ⟨rfl, rfl, digit⟩
  · exact decides_of_lt (ofNat_lt_ofNat lower small) _ _
  · exact (decides_trail less' digit).behind [UInt8.ofNat first]

theorem encode_lt_encode_iff (s t : String) : encode s < encode t ↔ s < t := by
  have bytes (s : String) : encode s = s.toList.flatMap String.utf8EncodeChar := by
    rw [← encode_ofList, String.ofList_toList]
  rw [bytes, bytes]
  refine flatMap_lt_flatMap_iff decides_encodeChar (fun c => ?_) _ _
  obtain ⟨count, first, -, written⟩ := exists_layout c
  rw [written]
  exact List.cons_ne_nil _ _

theorem codePoints_lt_iff (s t : String) :
    s.toList.map Char.toNat < t.toList.map Char.toNat ↔ s < t := by
  rw [List.map_eq_flatMap, List.map_eq_flatMap]
  refine flatMap_lt_flatMap_iff (fun c d less => ?_) (fun c => List.cons_ne_nil c.toNat []) _ _
  have less' : c.toNat < d.toNat := less
  exact decides_of_lt less' [] []

end Rollup.Text.Utf8
