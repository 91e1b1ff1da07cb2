import Rollup.Filter.Parser
import Rollup.Text.Encoding

/-! Scanning a filter text by byte offset.  A scan has the text and its bytes, and carries the
number of bytes behind it.  It looks at single bytes, and cuts the text where it needs characters:
to compare with a symbol, to take a word, to unescape a quoted text, and to tell what is left
over.  A cut that falls into a character or behind the end is a fault of its own.  Main statement:
a condition that is read ends behind its beginning, which lies in the text, so scanning ends. -/

namespace Rollup.Filter

open Table Text

/-- Why a scan stops: the text is refused, or it was to be cut where no character begins. -/
inductive Fault where
  | refused (error : FilterError)
  | cut (offset : Nat)

/-- The characters behind so many bytes. -/
def cutFrom? : List Char → Nat → Option (List Char)
  | cs, 0 => some cs
  | [], _ + 1 => none
  | c :: cs, offset + 1 =>
    if c.utf8Size ≤ offset + 1 then cutFrom? cs (offset + 1 - c.utf8Size) else none

def cutTo? : List Char → Nat → Option (List Char)
  | _, 0 => some []
  | [], _ + 1 => none
  | c :: cs, length + 1 =>
    if c.utf8Size ≤ length + 1 then (cutTo? cs (length + 1 - c.utf8Size)).map (c :: ·) else none

/-- A text to scan, with its bytes, and the columns that it may name. -/
structure Subject where
  header : Header
  text : List Char
  bytes : List UInt8
  encoded : bytes = text.flatMap String.utf8EncodeChar

namespace Subject

def ofText (header : Header) (text : String) : Subject where
  header := header
  text := text.toList
  bytes := Utf8.encode text
  encoded := by rw [← Utf8.encode_ofList, String.ofList_toList]

variable (subject : Subject)

def cutFrom (offset : Nat) : Except Fault (List Char) :=
  match cutFrom? subject.text offset with
  | some rest => .ok rest
  | none => .error (.cut offset)

def cut (start stop : Nat) : Except Fault (List Char) := do
  let rest ← subject.cutFrom start
  if stop < start then throw (.cut stop)
  else
    match cutTo? rest (stop - start) with
    | some part => return part
    | none => throw (.cut stop)

/-- The ASCII character at an offset; any other byte gives a character past ASCII. -/
def peek (offset : Nat) : Option Char :=
  subject.bytes[offset]?.map fun byte => Char.ofNat byte.toNat

def skip (kind : Char → Bool) (offset : Nat) : Nat :=
  if inside : offset < subject.bytes.length then
    if (subject.peek offset).any kind then skip kind (offset + 1) else offset
  else offset
termination_by subject.bytes.length - offset

def consume (token : List Char) (offset : Nat) : Except Fault (Option Nat) := do
  let rest ← subject.cutFrom offset
  return if token.isPrefixOf rest then some (offset + byteLength token) else none

def identifier (offset : Nat) : Except Fault (List Char × Nat) := do
  let stop := subject.skip isNameChar offset
  let name ← subject.cut offset stop
  return (name, stop)

def operator (offset : Nat) : List Comparison → Except Fault (Comparison × Nat)
  | [] => .error (.refused (.expectedOperator offset))
  | comparison :: others => do
    match ← subject.consume comparison.symbol.toList offset with
    | some stop => return (comparison, stop)
    | none => operator offset others

/-- The content of a quoted text up to its closing quote, and the offset of that quote among the
characters given, which have so many bytes in front of them. -/
def unescape (offset : Nat) : List Char → Option (List Char × Nat)
  | [] => none
  | '"' :: _ => some ([], offset)
  | '\\' :: '"' :: rest => (unescape (offset + 2) rest).map fun (text, stop) => ('"' :: text, stop)
  | '\\' :: '\\' :: rest => (unescape (offset + 2) rest).map fun (text, stop) => ('\\' :: text, stop)
  | c :: rest => (unescape (offset + c.utf8Size) rest).map fun (text, stop) => (c :: text, stop)

def quotedText (start : Nat) : Except Fault (List Char × Nat) := do
  let inside := start + 1
  let rest ← subject.cutFrom inside
  match unescape 0 rest with
  | some (text, offset) => return (text, inside + (offset + 1))
  | none => throw (.refused (.unclosedString start))

def number (start : Nat) : Except Fault (Float × Nat) := do
  let digits := if subject.peek start = some '-' then start + 1 else start
  let stop := subject.skip isNumeralChar digits
  let literal ← subject.cut start stop
  if literal = [] then throw (.refused (.expectedValue start))
  else
    match Decimal.read? literal with
    | some value => return (value, stop)
    | none => throw (.refused (.invalidNumber (String.ofList literal) start))

def literal (offset : Nat) : Except Fault (Literal × Nat) :=
  match subject.peek offset with
  | none => .error (.refused (.expectedValue offset))
  | some '"' => (subject.quotedText offset).map fun (text, stop) => (.text (String.ofList text), stop)
  | some _ => (subject.number offset).map fun (value, stop) => (.number value, stop)

def condition (offset : Nat) : Except Fault (Condition × Nat) := do
  let start := subject.skip isAsciiBlank offset
  if subject.bytes.length ≤ start then throw (.refused (.unexpectedEnd start))
  else
    let (name, after) ← subject.identifier start
    let column := String.ofList name
    if name = [] then throw (.refused (.expectedColumn start))
    else if ¬ subject.header.contains column then
      throw (.refused (.unknownColumn column start subject.header.describe))
    else
      let sign := subject.skip isAsciiBlank after
      let (comparison, behind) ← subject.operator sign Comparison.all
      let (value, stop) ← subject.literal (subject.skip isAsciiBlank behind)
      if value.isText ∧ comparison.isOrdering then
        throw (.refused (.stringOrdering column comparison.symbol sign))
      else return (⟨column, comparison, value⟩, stop)

theorem le_skip (kind : Char → Bool) (offset : Nat) : offset ≤ subject.skip kind offset := by
  fun_induction skip subject kind offset with
  | case1 offset inside kept ih => exact Nat.le_of_succ_le ih
  | case2 => exact Nat.le_refl _
  | case3 => exact Nat.le_refl _

section

variable {subject} {offset stop : Nat}

theorem eq_ok_of_bind {ε α β : Type} {first : Except ε α} {next : α → Except ε β} {value : β}
    (done : (first >>= next) = .ok value) :
    ∃ given, first = .ok given ∧ next given = .ok value := by
  cases first with
  | error fault => cases done
  | ok given => exact ⟨given, rfl, done⟩

theorem le_of_consume {token : List Char} {found? : Option Nat}
    (met : subject.consume token offset = .ok found?) (found : found? = some stop) :
    offset ≤ stop := by
  obtain ⟨rest, -, same⟩ := eq_ok_of_bind met
  cases same
  split at found
  · cases found
    exact Nat.le_add_right _ _
  · cases found

theorem lt_of_identifier {name : List Char} (read : subject.identifier offset = .ok (name, stop))
    (named : name ≠ []) : offset < stop := by
  obtain ⟨part, taken, same⟩ := eq_ok_of_bind read
  cases same
  apply Nat.lt_of_le_of_ne (le_skip subject isNameChar offset)
  intro same
  rw [← same, cut] at taken
  obtain ⟨rest, -, taken⟩ := eq_ok_of_bind taken
  rw [if_neg (Nat.lt_irrefl offset), Nat.sub_self, cutTo?] at taken
  exact named (Except.ok.inj taken).symm

theorem le_of_operator {comparison : Comparison} {candidates : List Comparison}
    (read : subject.operator offset candidates = .ok (comparison, stop)) : offset ≤ stop := by
  induction candidates with
  | nil => cases read
  | cons candidate others ih =>
    obtain ⟨found?, met, read⟩ := eq_ok_of_bind read
    cases found? with
    | some stop =>
      cases read
      exact le_of_consume met rfl
    | none => exact ih read

theorem le_of_quotedText {text : List Char} (read : subject.quotedText offset = .ok (text, stop)) :
    offset ≤ stop := by
  obtain ⟨rest, -, read⟩ := eq_ok_of_bind read
  split at read
  · cases read
    omega
  · cases read

theorem le_of_number {value : Float} (read : subject.number offset = .ok (value, stop)) :
    offset ≤ stop := by
  obtain ⟨literal, -, read⟩ := eq_ok_of_bind read
  have digits : offset ≤ if subject.peek offset = some '-' then offset + 1 else offset := by
    split <;> omega
  split at read
  · cases read
  · split at read
    · cases read
      exact Nat.le_trans digits (le_skip subject isNumeralChar _)
    · cases read

theorem le_of_literal {value : Literal} (read : subject.literal offset = .ok (value, stop)) :
    offset ≤ stop := by
  unfold literal at read
  split at read
  · cases read
  · cases inside : subject.quotedText offset with
    | error fault =>
      rw [inside] at read
      cases read
    | ok found =>
      rw [inside] at read
      cases read
      exact le_of_quotedText inside
  · cases inside : subject.number offset with
    | error fault =>
      rw [inside] at read
      cases read
    | ok found =>
      rw [inside] at read
      cases read
      exact le_of_number inside

theorem lt_of_condition {result : Condition}
    (read : subject.condition offset = .ok (result, stop)) :
    offset < stop ∧ offset < subject.bytes.length := by
  have start := le_skip subject isAsciiBlank offset
  unfold condition at read
  dsimp only at read
  split at read
  · cases read
  case isFalse inside =>
    obtain ⟨⟨name, after⟩, named, read⟩ := eq_ok_of_bind read
    dsimp only at read
    split at read
    · cases read
    case isFalse filled =>
      split at read
      · cases read
      · obtain ⟨⟨comparison, behind⟩, compared, read⟩ := eq_ok_of_bind read
        obtain ⟨⟨value, last⟩, valued, read⟩ := eq_ok_of_bind read
        dsimp only at valued read
        split at read
        · cases read
        · cases read
          have name := lt_of_identifier named filled
          have sign := le_of_operator compared
          have value := le_of_literal valued
          have blanks := le_skip subject isAsciiBlank after
          have between := le_skip subject isAsciiBlank behind
          omega

end

def conjuncts (offset : Nat) : Except Fault (List Expression × Nat) :=
  match read : subject.condition offset with
  | .error fault => .error fault
  | .ok (first, stop) =>
    let joint := subject.skip isAsciiBlank stop
    match met : subject.consume ['&', '&'] joint with
    | .error fault => .error fault
    | .ok none => .ok ([.condition first], joint)
    | .ok (some next) =>
      have := lt_of_condition read
      have := le_skip subject isAsciiBlank stop
      have := le_of_consume met rfl
      match conjuncts next with
      | .error fault => .error fault
      | .ok (others, last) => .ok (.condition first :: others, last)
termination_by subject.bytes.length - offset

theorem conjuncts_eq (offset : Nat) : subject.conjuncts offset =
    match subject.condition offset with
    | .error fault => .error fault
    | .ok (first, stop) =>
      let joint := subject.skip isAsciiBlank stop
      match subject.consume ['&', '&'] joint with
      | .error fault => .error fault
      | .ok none => .ok ([.condition first], joint)
      | .ok (some next) =>
        match subject.conjuncts next with
        | .error fault => .error fault
        | .ok (others, last) => .ok (.condition first :: others, last) := by
  rw [conjuncts]
  dsimp only
  generalize subject.condition offset = step
  match step with
  | .error fault => rfl
  | .ok (first, stop) =>
    dsimp only
    generalize subject.consume ['&', '&'] (subject.skip isAsciiBlank stop) = met
    match met with
    | .error fault | .ok none | .ok (some next) => rfl

theorem lt_of_conjuncts {offset stop : Nat} {terms : List Expression}
    (read : subject.conjuncts offset = .ok (terms, stop)) :
    offset < stop ∧ offset < subject.bytes.length := by
  fun_induction conjuncts subject offset generalizing terms with
  | case1 => cases read
  | case2 => cases read
  | case3 offset first after inside joint =>
    obtain ⟨-, same⟩ := Prod.mk.inj (Except.ok.inj read)
    have sign := lt_of_condition inside
    have blanks : after ≤ joint := le_skip subject isAsciiBlank after
    omega
  | case4 => cases read
  | case5 offset first after inside joint next met sign blanks token others last more =>
    rename_i ih
    obtain ⟨-, same⟩ := Prod.mk.inj (Except.ok.inj read)
    subst same
    have later := ih more
    omega

def disjuncts (offset : Nat) : Except Fault (List Expression × Nat) :=
  match read : subject.conjuncts offset with
  | .error fault => .error fault
  | .ok (terms, stop) =>
    let first := joinedBy .all terms
    let joint := subject.skip isAsciiBlank stop
    match met : subject.consume ['|', '|'] joint with
    | .error fault => .error fault
    | .ok none => .ok ([first], joint)
    | .ok (some next) =>
      have := lt_of_conjuncts subject read
      have := le_skip subject isAsciiBlank stop
      have := le_of_consume met rfl
      match disjuncts next with
      | .error fault => .error fault
      | .ok (others, last) => .ok (first :: others, last)
termination_by subject.bytes.length - offset

theorem disjuncts_eq (offset : Nat) : subject.disjuncts offset =
    match subject.conjuncts offset with
    | .error fault => .error fault
    | .ok (terms, stop) =>
      let joint := subject.skip isAsciiBlank stop
      match subject.consume ['|', '|'] joint with
      | .error fault => .error fault
      | .ok none => .ok ([joinedBy .all terms], joint)
      | .ok (some next) =>
        match subject.disjuncts next with
        | .error fault => .error fault
        | .ok (others, last) => .ok (joinedBy .all terms :: others, last) := by
  rw [disjuncts]
  dsimp only
  generalize subject.conjuncts offset = step
  match step with
  | .error fault => rfl
  | .ok (terms, stop) =>
    dsimp only
    generalize subject.consume ['|', '|'] (subject.skip isAsciiBlank stop) = met
    match met with
    | .error fault | .ok none | .ok (some next) => rfl

/-- Scans a whole filter text. -/
def expression : Except Fault Expression := do
  let (terms, stop) ← subject.disjuncts 0
  let last := subject.skip isAsciiBlank stop
  if last < subject.bytes.length then
    let rest ← subject.cutFrom last
    throw (.refused (.unexpectedInput last (String.ofList rest)))
  else return joinedBy .any terms

end Subject

end Rollup.Filter
