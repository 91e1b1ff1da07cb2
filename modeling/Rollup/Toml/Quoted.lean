import Rollup.Decimal.Digits

/-! Quoted texts of settings files, in four forms: between double quotes with escapes or between
single quotes without, and each of them over one line or several.  A text over several lines
drops a line break right after its opening, keeps the others as they are, and may end in one or
two quotes before the three that close it.  A backslash at the end of a line joins the text to
the next character that is not blank. -/

namespace Rollup.Toml

def isSpace (c : Char) : Bool := c = ' ' || c = '\t'

def isPlain (c : Char) : Bool := c = '\t' || (32 ≤ c.toNat && c.toNat ≠ 127)

def afterBreak? : List Char → Option (List Char)
  | '\n' :: rest => some rest
  | '\r' :: '\n' :: rest => some rest
  | _ => none

theorem length_afterBreak? {cs rest : List Char} (found : afterBreak? cs = some rest) :
    rest.length < cs.length := by
  unfold afterBreak? at found
  split at found
  case h_1 =>
    cases found
    exact Nat.lt_succ_self _
  case h_2 =>
    cases found
    exact Nat.lt_succ_of_lt (Nat.lt_succ_self _)
  case h_3 => cases found

def skipBreaks : List Char → List Char
  | ' ' :: rest => skipBreaks rest
  | '\t' :: rest => skipBreaks rest
  | '\n' :: rest => skipBreaks rest
  | '\r' :: '\n' :: rest => skipBreaks rest
  | cs => cs

theorem length_skipBreaks_le (cs : List Char) : (skipBreaks cs).length ≤ cs.length := by
  fun_induction skipBreaks cs with
  | case1 rest ih | case2 rest ih | case3 rest ih => exact Nat.le_succ_of_le ih
  | case4 rest ih => exact Nat.le_succ_of_le (Nat.le_succ_of_le ih)
  | case5 => exact Nat.le_refl _

def codePoint? (digits : List Char) : Option Char :=
  if digits.all fun c => (Decimal.digitValue? 16 c).isSome then
    let code := Decimal.valueIn 16 digits
    if code < 0xD800 ∨ (0xDFFF < code ∧ code ≤ 0x10FFFF) then some (Char.ofNat code) else none
  else none

def codeLength? (letter : Char) : Option Nat :=
  if letter = 'x' then some 2
  else if letter = 'u' then some 4
  else if letter = 'U' then some 8
  else none

def shortEscape? (letter : Char) : Option Char :=
  [('b', Char.ofNat 8), ('t', '\t'), ('n', '\n'), ('f', Char.ofNat 12), ('r', '\r'),
    ('e', Char.ofNat 27), ('"', '"'), ('\\', '\\')].lookup letter

def escaped? : List Char → Option (Char × List Char)
  | [] => none
  | letter :: rest =>
    match codeLength? letter with
    | some count =>
      if rest.length < count then none
      else (codePoint? (rest.take count)).map (·, rest.drop count)
    | none => (shortEscape? letter).map (·, rest)

theorem length_escaped? {cs rest : List Char} {c : Char} (read : escaped? cs = some (c, rest)) :
    rest.length < cs.length := by
  unfold escaped? at read
  split at read
  case h_1 => cases read
  case h_2 letter after =>
    split at read
    case h_1 count _ =>
      split at read
      · cases read
      · obtain ⟨found, _, same⟩ := Option.map_eq_some_iff.1 read
        cases same
        simp only [List.length_drop, List.length_cons]
        omega
    case h_2 =>
      obtain ⟨found, _, same⟩ := Option.map_eq_some_iff.1 read
      cases same
      exact Nat.lt_succ_self _

def escapedLine? (cs : List Char) : Option (List Char × List Char) :=
  match cs with
  | [] => none
  | '"' :: rest => some ([], rest)
  | '\\' :: rest =>
    match read : escaped? rest with
    | none => none
    | some (c, after) =>
      have := length_escaped? read
      (escapedLine? after).map fun (text, last) => (c :: text, last)
  | c :: rest =>
    if isPlain c then (escapedLine? rest).map fun (text, last) => (c :: text, last) else none
termination_by cs.length
decreasing_by all_goals simp only [List.length_cons]; omega

def literalLine? : List Char → Option (List Char × List Char)
  | [] => none
  | '\x27' :: rest => some ([], rest)
  | c :: rest =>
    if isPlain c then (literalLine? rest).map fun (text, last) => (c :: text, last) else none

def closing (mark : Char) (cs : List Char) : List Char × List Char :=
  let extra := (cs.take 2).takeWhile (· = mark)
  (extra, cs.drop extra.length)

def escapedLines? (cs : List Char) : Option (List Char × List Char) :=
  match cs with
  | [] => none
  | '"' :: '"' :: '"' :: rest => some (closing '"' rest)
  | '\\' :: rest =>
    match joined : afterBreak? (rest.dropWhile isSpace) with
    | some next =>
      have := length_afterBreak? joined
      have := (List.dropWhile_sublist isSpace (l := rest)).length_le
      have := length_skipBreaks_le next
      escapedLines? (skipBreaks next)
    | none =>
      match read : escaped? rest with
      | none => none
      | some (c, after) =>
        have := length_escaped? read
        (escapedLines? after).map fun (text, last) => (c :: text, last)
  | '\n' :: rest => (escapedLines? rest).map fun (text, last) => ('\n' :: text, last)
  | '\r' :: '\n' :: rest =>
    (escapedLines? rest).map fun (text, last) => ('\r' :: '\n' :: text, last)
  | c :: rest =>
    if isPlain c then (escapedLines? rest).map fun (text, last) => (c :: text, last) else none
termination_by cs.length
decreasing_by all_goals simp only [List.length_cons]; omega

def literalLines? : List Char → Option (List Char × List Char)
  | [] => none
  | '\x27' :: '\x27' :: '\x27' :: rest => some (closing '\x27' rest)
  | '\n' :: rest => (literalLines? rest).map fun (text, last) => ('\n' :: text, last)
  | '\r' :: '\n' :: rest =>
    (literalLines? rest).map fun (text, last) => ('\r' :: '\n' :: text, last)
  | c :: rest =>
    if isPlain c then (literalLines? rest).map fun (text, last) => (c :: text, last) else none

def dropBreak (cs : List Char) : List Char := (afterBreak? cs).getD cs

def quotedLine? : List Char → Option (List Char × List Char)
  | '"' :: rest => escapedLine? rest
  | '\x27' :: rest => literalLine? rest
  | _ => none

def quoted? : List Char → Option (List Char × List Char)
  | '"' :: '"' :: '"' :: rest => escapedLines? (dropBreak rest)
  | '\x27' :: '\x27' :: '\x27' :: rest => literalLines? (dropBreak rest)
  | cs => quotedLine? cs

end Rollup.Toml
