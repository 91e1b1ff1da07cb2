import Rollup.Filter.Expression

/-! The filter language.  An expression is a chain of terms joined by `||`, a term a chain of
conditions joined by `&&`, and a condition a column name, a comparison and a literal.  ASCII
blanks may stand between any two of these.  Reading works on the rest of the text, and a
position in an error is the number of UTF-8 bytes in front of that rest. -/

namespace Rollup.Filter

open Table

/-- Why a filter text is refused. -/
inductive FilterError where
  | unknownColumn (column : String) (position : Nat) (available : String)
  | expectedColumn (position : Nat)
  | expectedOperator (position : Nat)
  | expectedValue (position : Nat)
  | unclosedString (position : Nat)
  | invalidNumber (literal : String) (position : Nat)
  | stringOrdering (column operator : String) (position : Nat)
  | unexpectedInput (position : Nat) (remainder : String)
  | unexpectedEnd (position : Nat)
  deriving DecidableEq, Repr

def FilterError.message : FilterError → String
  | .unknownColumn column position available =>
    "Unknown column in filter: '" ++ column ++ "' at position " ++ Decimal.natural position ++
      ". Available columns: " ++ available
  | .expectedColumn position => "Expected column name at position " ++ Decimal.natural position
  | .expectedOperator position =>
    "Expected operator (==, !=, >, <, >=, <=) at position " ++ Decimal.natural position
  | .expectedValue position =>
    "Expected value (string or number) at position " ++ Decimal.natural position
  | .unclosedString position =>
    "Unclosed string literal starting at position " ++ Decimal.natural position
  | .invalidNumber literal position =>
    "Invalid number '" ++ literal ++ "' at position " ++ Decimal.natural position
  | .stringOrdering column operator position =>
    "String comparison on column '" ++ column ++ "' only supports == and !=, found '" ++
      operator ++ "' at position " ++ Decimal.natural position
  | .unexpectedInput position remainder =>
    "Unexpected input at position " ++ Decimal.natural position ++ ": '" ++ remainder ++ "'"
  | .unexpectedEnd position =>
    "Unexpected end of expression at position " ++ Decimal.natural position

def byteLength (cs : List Char) : Nat := (cs.map Char.utf8Size).foldr (· + ·) 0

/-- What a filter text is read against: the columns there are, and its own length. -/
structure Scope where
  header : Header
  length : Nat

def Scope.position (scope : Scope) (rest : List Char) : Nat := scope.length - byteLength rest

def skipBlanks (cs : List Char) : List Char := cs.dropWhile Text.isAsciiBlank

def isNameChar (c : Char) : Bool := c.isAlphanum || c = '_'

theorem skipBlanks_suffix (cs : List Char) : skipBlanks cs <:+ cs := List.dropWhile_suffix _

theorem skipBlanks_skipBlanks (cs : List Char) : skipBlanks (skipBlanks cs) = skipBlanks cs := by
  unfold skipBlanks
  induction cs with
  | nil => rfl
  | cons c rest ih =>
    cases blank : Text.isAsciiBlank c with
    | true => rw [List.dropWhile_cons_of_pos blank, ih]
    | false =>
      have ink : ¬Text.isAsciiBlank c = true := by simp [blank]
      rw [List.dropWhile_cons_of_neg ink, List.dropWhile_cons_of_neg ink]

def comparison? (cs : List Char) : Option (Comparison × List Char) :=
  Comparison.all.findSome? fun comparison =>
    (Text.afterWord? comparison.symbol.toList cs).map (comparison, ·)

/-- The content of a quoted text and what follows it.  A backslash before a quote or a backslash
stands for that character, and for itself before any other. -/
def quoted? : List Char → Option (List Char × List Char)
  | [] => none
  | '"' :: rest => some ([], rest)
  | '\\' :: '"' :: rest => (quoted? rest).map fun (text, after) => ('"' :: text, after)
  | '\\' :: '\\' :: rest => (quoted? rest).map fun (text, after) => ('\\' :: text, after)
  | c :: rest => (quoted? rest).map fun (text, after) => (c :: text, after)

def takeMinus : List Char → List Char × List Char
  | '-' :: body => (['-'], body)
  | body => ([], body)

def isNumeralChar (c : Char) : Bool := c.isDigit || c = '.'

def numeral (cs : List Char) : List Char × List Char :=
  ((takeMinus cs).1 ++ (takeMinus cs).2.takeWhile isNumeralChar,
    (takeMinus cs).2.dropWhile isNumeralChar)

theorem numeral_append (cs : List Char) : (numeral cs).1 ++ (numeral cs).2 = cs := by
  have signed : (takeMinus cs).1 ++ (takeMinus cs).2 = cs := by
    unfold takeMinus
    split <;> rfl
  simp [numeral, List.append_assoc, List.takeWhile_append_dropWhile, signed]

def literal (scope : Scope) (cs : List Char) : Except FilterError (Literal × List Char) :=
  match cs with
  | [] => .error (.expectedValue (scope.position cs))
  | '"' :: body =>
    match quoted? body with
    | some (text, rest) => .ok (.text (String.ofList text), rest)
    | none => .error (.unclosedString (scope.position cs))
  | _ =>
    let (digits, rest) := numeral cs
    if digits = [] then .error (.expectedValue (scope.position cs))
    else
      match Decimal.read? digits with
      | some value => .ok (.number value, rest)
      | none => .error (.invalidNumber (String.ofList digits) (scope.position cs))

def condition (scope : Scope) (cs : List Char) : Except FilterError (Condition × List Char) :=
  let start := skipBlanks cs
  let name := start.takeWhile isNameChar
  let column := String.ofList name
  let operator := skipBlanks (start.dropWhile isNameChar)
  if start = [] then .error (.unexpectedEnd (scope.position start))
  else if name = [] then .error (.expectedColumn (scope.position start))
  else if ¬ scope.header.contains column then
    .error (.unknownColumn column (scope.position start) scope.header.describe)
  else
    match comparison? operator with
    | none => .error (.expectedOperator (scope.position operator))
    | some (comparison, after) =>
      match literal scope (skipBlanks after) with
      | .error error => .error error
      | .ok (value, rest) =>
        if value.isText ∧ comparison.isOrdering then
          .error (.stringOrdering column comparison.symbol (scope.position operator))
        else .ok (⟨column, comparison, value⟩, rest)

theorem suffix_of_quoted? {cs text rest : List Char} (read : quoted? cs = some (text, rest)) :
    rest <:+ cs := by
  fun_induction quoted? cs generalizing text with
  | case1 => cases read
  | case2 rest =>
    cases read
    exact List.suffix_cons _ _
  | case3 after ih | case4 after ih =>
    obtain ⟨⟨inner, last⟩, inside, same⟩ := Option.map_eq_some_iff.1 read
    cases same
    exact (ih inside).trans ((List.suffix_cons _ _).trans (List.suffix_cons _ _))
  | case5 c after notQuote notEscape notBackslash ih =>
    obtain ⟨⟨inner, last⟩, inside, same⟩ := Option.map_eq_some_iff.1 read
    cases same
    exact (ih inside).trans (List.suffix_cons _ _)

theorem suffix_of_literal {scope : Scope} {cs rest : List Char} {value : Literal}
    (read : literal scope cs = .ok (value, rest)) : rest <:+ cs := by
  unfold literal at read
  split at read
  case h_1 => cases read
  case h_2 body =>
    split at read
    case h_1 inside =>
      cases read
      exact (suffix_of_quoted? inside).trans (List.suffix_cons _ _)
    case h_2 => cases read
  case h_3 =>
    dsimp only at read
    split at read
    · cases read
    · split at read
      · cases read
        exact ⟨_, numeral_append cs⟩
      · cases read

theorem suffix_of_afterWord? {word cs rest : List Char}
    (found : Text.afterWord? word cs = some rest) : rest <:+ cs :=
  ⟨word, (Text.afterWord?_eq_some_iff.1 found).symm⟩

theorem suffix_of_comparison? {cs rest : List Char} {comparison : Comparison}
    (read : comparison? cs = some (comparison, rest)) : rest <:+ cs := by
  obtain ⟨candidate, _, found⟩ := List.exists_of_findSome?_eq_some read
  obtain ⟨after, token, same⟩ := Option.map_eq_some_iff.1 found
  cases same
  exact suffix_of_afterWord? token

theorem rest_of_condition {scope : Scope} {cs rest : List Char} {result : Condition}
    (read : condition scope cs = .ok (result, rest)) : rest <:+ cs ∧ rest.length < cs.length := by
  unfold condition at read
  dsimp only at read
  split at read
  · cases read
  split at read
  · cases read
  split at read
  · cases read
  case isFalse named _ =>
    split at read
    case h_1 => cases read
    case h_2 comparison after operator =>
      split at read
      case h_1 => cases read
      case h_2 value last inside =>
        split at read
        · cases read
        · cases read
          have behind : rest <:+ (skipBlanks cs).dropWhile isNameChar :=
            (suffix_of_literal inside).trans ((skipBlanks_suffix after).trans
              ((suffix_of_comparison? operator).trans (skipBlanks_suffix _)))
          have parts := congrArg List.length
            (List.takeWhile_append_dropWhile (p := isNameChar) (l := skipBlanks cs))
          have name : 0 < ((skipBlanks cs).takeWhile isNameChar).length :=
            List.length_pos_iff.2 named
          have start := (skipBlanks_suffix cs).length_le
          have shorter := behind.length_le
          rw [List.length_append] at parts
          exact ⟨behind.trans ((List.dropWhile_suffix _).trans (skipBlanks_suffix cs)), by omega⟩

theorem suffix_of_joint {token cs rest : List Char}
    (found : Text.afterWord? token (skipBlanks cs) = some rest) : rest <:+ cs :=
  (suffix_of_afterWord? found).trans (skipBlanks_suffix cs)

def joinedBy (join : List Expression → Expression) : List Expression → Expression
  | [term] => term
  | terms => join terms

def conjuncts (scope : Scope) (cs : List Char) :
    Except FilterError (List Expression × List Char) :=
  match read : condition scope cs with
  | .error error => .error error
  | .ok (first, after) =>
    match joint : Text.afterWord? ['&', '&'] (skipBlanks after) with
    | none => .ok ([.condition first], skipBlanks after)
    | some next =>
      have := (rest_of_condition read).2
      have := (suffix_of_joint joint).length_le
      match conjuncts scope next with
      | .error error => .error error
      | .ok (others, rest) => .ok (.condition first :: others, rest)
termination_by cs.length

theorem conjuncts_eq (scope : Scope) (cs : List Char) : conjuncts scope cs =
    match condition scope cs with
    | .error error => .error error
    | .ok (first, after) =>
      match Text.afterWord? ['&', '&'] (skipBlanks after) with
      | none => .ok ([.condition first], skipBlanks after)
      | some next =>
        match conjuncts scope next with
        | .error error => .error error
        | .ok (others, rest) => .ok (.condition first :: others, rest) := by
  rw [conjuncts]
  dsimp only
  generalize condition scope cs = step
  match step with
  | .error error => rfl
  | .ok (first, after) =>
    dsimp only
    generalize Text.afterWord? ['&', '&'] (skipBlanks after) = joint
    cases joint <;> rfl

theorem rest_of_conjuncts {scope : Scope} {cs rest : List Char} {terms : List Expression}
    (read : conjuncts scope cs = .ok (terms, rest)) : rest <:+ cs ∧ rest.length < cs.length := by
  fun_induction conjuncts scope cs generalizing terms with
  | case1 => cases read
  | case2 cs first after inside joint =>
    cases read
    obtain ⟨suffix, shorter⟩ := rest_of_condition inside
    have blanks := skipBlanks_suffix after
    exact ⟨blanks.trans suffix, Nat.lt_of_le_of_lt blanks.length_le shorter⟩
  | case3 => cases read
  | case4 cs first after inside next joint shorter short others last more ih =>
    cases read
    obtain ⟨suffix, less⟩ := ih more
    exact ⟨suffix.trans ((suffix_of_joint joint).trans (rest_of_condition inside).1), by omega⟩

def disjuncts (scope : Scope) (cs : List Char) :
    Except FilterError (List Expression × List Char) :=
  match read : conjuncts scope cs with
  | .error error => .error error
  | .ok (terms, after) =>
    let first := joinedBy .all terms
    match joint : Text.afterWord? ['|', '|'] (skipBlanks after) with
    | none => .ok ([first], skipBlanks after)
    | some next =>
      have := (rest_of_conjuncts read).2
      have := (suffix_of_joint joint).length_le
      match disjuncts scope next with
      | .error error => .error error
      | .ok (others, rest) => .ok (first :: others, rest)
termination_by cs.length

theorem disjuncts_eq (scope : Scope) (cs : List Char) : disjuncts scope cs =
    match conjuncts scope cs with
    | .error error => .error error
    | .ok (terms, after) =>
      match Text.afterWord? ['|', '|'] (skipBlanks after) with
      | none => .ok ([joinedBy .all terms], skipBlanks after)
      | some next =>
        match disjuncts scope next with
        | .error error => .error error
        | .ok (others, rest) => .ok (joinedBy .all terms :: others, rest) := by
  rw [disjuncts]
  dsimp only
  generalize conjuncts scope cs = step
  match step with
  | .error error => rfl
  | .ok (terms, after) =>
    dsimp only
    generalize Text.afterWord? ['|', '|'] (skipBlanks after) = joint
    cases joint <;> rfl

theorem rest_of_disjuncts {scope : Scope} {cs rest : List Char} {terms : List Expression}
    (read : disjuncts scope cs = .ok (terms, rest)) : rest <:+ cs ∧ skipBlanks rest = rest := by
  fun_induction disjuncts scope cs generalizing terms with
  | case1 => cases read
  | case2 cs terms after inside first =>
    cases read
    have suffix := (rest_of_conjuncts inside).1
    exact ⟨(skipBlanks_suffix after).trans suffix, skipBlanks_skipBlanks after⟩
  | case3 => cases read
  | case4 cs terms after inside first next joint shorter short others last more =>
    rename_i ih
    cases read
    obtain ⟨suffix, settled⟩ := ih more
    exact ⟨suffix.trans ((suffix_of_joint joint).trans (rest_of_conjuncts inside).1), settled⟩

/-- Reads a whole filter text. -/
def parse (header : Header) (text : String) : Except FilterError Expression :=
  let scope : Scope := ⟨header, byteLength text.toList⟩
  match disjuncts scope text.toList with
  | .error error => .error error
  | .ok (terms, []) => .ok (joinedBy .any terms)
  | .ok (_, rest) =>
    .error (.unexpectedInput (scope.position rest) (String.ofList rest))

end Rollup.Filter
