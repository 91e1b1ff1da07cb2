import Rollup.Proofs.Json.Numbers
import Rollup.Proofs.Json.Quoted

/-! Syntax trees as texts.  A tree has a text without blanks.  Main statement: where texts are
escaped and numbers have their parts as they should, the reader gives the tree of that text again,
so nothing that is written is refused or taken for something else. -/

namespace Rollup.Json

open Decimal Text

namespace Node

mutual

def compact : Node → List Char
  | null => "null".toList
  | boolean value => (if value then "true" else "false").toList
  | number written => written.text
  | text raw => '"' :: (raw ++ ['"'])
  | list items => '[' :: (separated [','] (compactItems items) ++ [']'])
  | object fields => '\x7b' :: (separated [','] (compactFields fields) ++ ['\x7d'])

def compactItems : List Node → List (List Char)
  | [] => []
  | item :: items => compact item :: compactItems items

def compactFields : List (List Char × Node) → List (List Char)
  | [] => []
  | (name, value) :: fields => ('"' :: (name ++ '"' :: ':' :: compact value)) :: compactFields fields

end

/-- A tree whose texts are escaped and whose numbers are proper, with containers nested no deeper
than some depth. -/
inductive Sound : Nat → Node → Prop
  | null {depth : Nat} : Sound depth .null
  | boolean {depth : Nat} (value : Bool) : Sound depth (.boolean value)
  | number {depth : Nat} {written : Written} (proper : written.Proper) :
      Sound depth (.number written)
  | text {depth : Nat} {cs raw : List Char} (escapes : Escapes cs raw) : Sound depth (.text raw)
  | list {depth : Nat} {items : List Node} (sound : ∀ item ∈ items, Sound depth item) :
      Sound (depth + 1) (.list items)
  | object {depth : Nat} {fields : List (List Char × Node)}
      (names : ∀ field ∈ fields, ∃ cs, Escapes cs field.1)
      (sound : ∀ field ∈ fields, Sound depth field.2) : Sound (depth + 1) (.object fields)

end Node

theorem skipSpaces_cons {c : Char} (ink : isSpace c = false) (rest : List Char) :
    skipSpaces (c :: rest) = c :: rest :=
  dropWhile_of_halts (halts_cons ink)

def opens (c : Char) : Bool := !isSpace c && c ≠ ']' && c ≠ '\x7d'

theorem ne_of_beginsNumber {c d : Char} (begins : beginsNumber c = true)
    (other : beginsNumber d = false) : c ≠ d := by
  rintro rfl
  rw [begins] at other
  cases other

theorem isSpace_of_beginsNumber {c : Char} (begins : beginsNumber c = true) :
    isSpace c = false := by
  have differs (d : Char) (other : beginsNumber d = false) : c ≠ d :=
    ne_of_beginsNumber begins other
  simp [isSpace, differs ' ' (by decide), differs '\t' (by decide), differs '\n' (by decide),
    differs '\r' (by decide)]

theorem opens_of_beginsNumber {c : Char} (begins : beginsNumber c = true) : opens c = true := by
  simp [opens, isSpace_of_beginsNumber begins, ne_of_beginsNumber begins (d := ']') (by decide),
    ne_of_beginsNumber begins (d := '\x7d') (by decide)]

theorem Node.Sound.begins {depth : Nat} {node : Node} (sound : node.Sound depth) :
    ∃ c rest, node.compact = c :: rest ∧ opens c = true := by
  cases sound with
  | null => exact ⟨'n', _, rfl, by decide⟩
  | boolean value =>
    cases value with
    | true => exact ⟨'t', _, rfl, by decide⟩
    | false => exact ⟨'f', _, rfl, by decide⟩
  | number proper =>
    obtain ⟨c, rest, same, begins⟩ := Written.text_begins proper
    exact ⟨c, rest, same, opens_of_beginsNumber begins⟩
  | text escapes => exact ⟨'"', _, rfl, by decide⟩
  | list sound => exact ⟨'[', _, rfl, by decide⟩
  | object names sound => exact ⟨'\x7b', _, rfl, by decide⟩

theorem node?_number {c : Char} (begins : beginsNumber c = true) (fuel : Nat) (rest : List Char) :
    node? (fuel + 1) (c :: rest) =
      (number? (c :: rest)).map fun (written, after) => (.number written, after) := by
  rw [node?, skipSpaces_cons (isSpace_of_beginsNumber begins)]
  split
  case h_1 none => cases none
  case h_8 => rfl
  all_goals
    rename_i same
    cases same
    exact absurd begins (by decide)

theorem node?_text {written : Written} (proper : written.Proper) (fuel : Nat) {rest : List Char}
    (halts : Halts goesOn rest) :
    node? (fuel + 1) (written.text ++ rest) = some (.number written, rest) := by
  obtain ⟨c, others, same, begins⟩ := Written.text_begins proper
  have read := Written.number?_text proper halts
  rw [same, List.cons_append] at read ⊢
  rw [node?_number begins, read]
  rfl

theorem node?_list {c : Char} (begins : opens c = true) (fuel : Nat) (rest : List Char) :
    node? (fuel + 1) ('[' :: c :: rest) =
      (items? fuel (c :: rest)).map fun (items, after) => (.list items, after) := by
  simp only [opens, Bool.and_eq_true, Bool.not_eq_true', decide_eq_true_eq] at begins
  have bracket : isSpace '[' = false := by decide
  simp only [node?, skipSpaces_cons bracket, skipSpaces_cons begins.1.1]
  split
  case h_1 same => exact absurd (List.cons.inj same).1 begins.1.2
  case h_2 => rfl

theorem node?_object (fuel : Nat) (rest : List Char) :
    node? (fuel + 1) ('\x7b' :: '"' :: rest) =
      (fields? fuel ('"' :: rest)).map fun (fields, after) => (.object fields, after) := rfl

theorem node?_quoted {cs raw : List Char} (escapes : Escapes cs raw) (fuel : Nat)
    (rest : List Char) :
    node? (fuel + 1) ((Node.text raw).compact ++ rest) = some (.text raw, rest) := by
  rw [Node.compact, List.cons_append, List.append_assoc]
  show (rawText? (raw ++ '"' :: rest)).map _ = _
  rw [rawText?_of_escapes escapes]
  rfl

theorem items?_last {fuel : Nat} {cs after : List Char} {item : Node}
    (read : node? fuel cs = some (item, ']' :: after)) :
    items? (fuel + 1) cs = some ([item], after) := by
  rw [items?, read]
  rfl

theorem items?_more {fuel : Nat} {cs more after : List Char} {item : Node} {items : List Node}
    (read : node? fuel cs = some (item, ',' :: more))
    (others : items? fuel more = some (items, after)) :
    items? (fuel + 1) cs = some (item :: items, after) := by
  rw [items?, read]
  show (items? fuel more >>= _) = _
  rw [others]
  rfl

section

variable {name name' cs more after : List Char} (escapes : Escapes name' name)
include escapes

theorem fields?_quoted (fuel : Nat) (cs : List Char) :
    fields? (fuel + 1) ('"' :: (name ++ '"' :: ':' :: cs)) =
      (node? fuel cs).bind fun (value, rest) =>
        match skipSpaces rest with
        | '\x7d' :: after => some ([(name, value)], after)
        | ',' :: more =>
          (fields? fuel more).bind fun (fields, after) => some ((name, value) :: fields, after)
        | _ => none := by
  show (rawText? (name ++ '"' :: ':' :: cs)).bind _ = _
  rw [rawText?_of_escapes escapes]
  rfl

theorem fields?_last {fuel : Nat} {value : Node}
    (read : node? fuel cs = some (value, '\x7d' :: after)) :
    fields? (fuel + 1) ('"' :: (name ++ '"' :: ':' :: cs)) = some ([(name, value)], after) := by
  rw [fields?_quoted escapes, read]
  rfl

theorem fields?_more {fuel : Nat} {value : Node} {fields : List (List Char × Node)}
    (read : node? fuel cs = some (value, ',' :: more))
    (others : fields? fuel more = some (fields, after)) :
    fields? (fuel + 1) ('"' :: (name ++ '"' :: ':' :: cs)) =
      some ((name, value) :: fields, after) := by
  rw [fields?_quoted escapes, read]
  show (fields? fuel more).bind _ = _
  rw [others]
  rfl

end

theorem halts_bracket (rest : List Char) : Halts goesOn (']' :: rest) := halts_cons (by decide)

theorem halts_brace (rest : List Char) : Halts goesOn ('\x7d' :: rest) := halts_cons (by decide)

theorem halts_comma (rest : List Char) : Halts goesOn (',' :: rest) := halts_cons (by decide)

theorem separated_more (separator text next : List Char) (texts : List (List Char)) :
    separated separator (text :: next :: texts) =
      text ++ (separator ++ separated separator (next :: texts)) := by
  rw [separated, List.append_assoc]
  exact List.cons_ne_nil next texts

theorem separated_begins {depth : Nat} {item : Node} (sound : item.Sound depth)
    (items : List Node) :
    ∃ c rest, separated [','] (Node.compactItems (item :: items)) = c :: rest ∧
      opens c = true := by
  obtain ⟨c, rest, same, begins⟩ := sound.begins
  cases items with
  | nil => exact ⟨c, rest, same, begins⟩
  | cons next more =>
    rw [Node.compactItems, Node.compactItems, separated_more, same]
    exact ⟨c, _, rfl, begins⟩

theorem exists_separated_fields (field : List Char × Node) (fields : List (List Char × Node)) :
    ∃ rest, separated [','] (Node.compactFields (field :: fields)) = '"' :: rest := by
  cases fields with
  | nil => exact ⟨_, rfl⟩
  | cons next more =>
    rw [Node.compactFields, Node.compactFields, separated_more]
    exact ⟨_, rfl⟩

mutual

theorem node?_compact : ∀ (node : Node) {depth : Nat} (fuel : Nat) {rest : List Char},
    node.Sound depth → 2 * node.compact.length ≤ fuel → Halts goesOn rest →
    node? fuel (node.compact ++ rest) = some (node, rest)
  | node, _, 0, rest, sound, enough, _ => by
    obtain ⟨c, others, same, -⟩ := sound.begins
    rw [same] at enough
    cases enough
  | .null, _, fuel + 1, rest, _, _, _ => rfl
  | .boolean true, _, fuel + 1, rest, _, _, _ => rfl
  | .boolean false, _, fuel + 1, rest, _, _, _ => rfl
  | .number written, _, fuel + 1, rest, .number proper, _, halts => node?_text proper fuel halts
  | .text raw, _, fuel + 1, rest, .text escapes, _, _ => node?_quoted escapes fuel rest
  | .list [], _, fuel + 1, rest, _, _, _ => rfl
  | .list (item :: items), _, fuel + 1, rest, .list sound, enough, _ => by
    have inside : 2 * (separated [','] (Node.compactItems (item :: items))).length < fuel := by
      simp only [Node.compact, List.length_cons, List.length_append] at enough
      omega
    have read := items?_compact item items fuel rest sound inside
    obtain ⟨c, others, same, begins⟩ := separated_begins (sound item List.mem_cons_self) items
    rw [same, List.cons_append] at read
    rw [Node.compact, List.cons_append, List.append_assoc, same, List.singleton_append,
      List.cons_append, node?_list begins, read]
    rfl
  | .object [], _, fuel + 1, rest, _, _, _ => rfl
  | .object (field :: fields), _, fuel + 1, rest, .object names sound, enough, _ => by
    have inside : 2 * (separated [','] (Node.compactFields (field :: fields))).length < fuel := by
      simp only [Node.compact, List.length_cons, List.length_append] at enough
      omega
    have read := fields?_compact field fields fuel rest names sound inside
    obtain ⟨others, same⟩ := exists_separated_fields field fields
    rw [same, List.cons_append] at read
    rw [Node.compact, List.cons_append, List.append_assoc, same, List.singleton_append,
      List.cons_append, node?_object, read]
    rfl

theorem items?_compact : ∀ (item : Node) (items : List Node) {depth : Nat} (fuel : Nat)
    (rest : List Char), (∀ other ∈ item :: items, other.Sound depth) →
    2 * (separated [','] (Node.compactItems (item :: items))).length < fuel →
    items? fuel (separated [','] (Node.compactItems (item :: items)) ++ ']' :: rest) =
      some (item :: items, rest)
  | item, [], _, fuel + 1, rest, sound, enough =>
    items?_last (node?_compact item fuel (sound item List.mem_cons_self)
      (Nat.le_of_lt_succ enough) (halts_bracket rest))
  | item, next :: more, _, fuel + 1, rest, sound, enough => by
    obtain ⟨first, behind⟩ := List.forall_mem_cons.mp sound
    rw [Node.compactItems, Node.compactItems, separated_more, ← Node.compactItems] at enough ⊢
    simp only [List.length_append, List.length_singleton] at enough
    have others := items?_compact next more fuel rest behind (by omega)
    rw [List.append_assoc, List.append_assoc]
    exact items?_more (node?_compact item fuel first (by omega) (halts_comma _)) others

theorem fields?_compact : ∀ (field : List Char × Node) (fields : List (List Char × Node))
    {depth : Nat} (fuel : Nat) (rest : List Char),
    (∀ other ∈ field :: fields, ∃ cs, Escapes cs other.1) →
    (∀ other ∈ field :: fields, other.2.Sound depth) →
    2 * (separated [','] (Node.compactFields (field :: fields))).length < fuel →
    fields? fuel (separated [','] (Node.compactFields (field :: fields)) ++ '\x7d' :: rest) =
      some (field :: fields, rest)
  | (name, value), [], _, fuel + 1, rest, names, sound, enough => by
    obtain ⟨cs, escapes⟩ := names _ List.mem_cons_self
    simp only [Node.compactFields, separated, List.length_append, List.length_cons] at enough
    rw [Node.compactFields, Node.compactFields, separated, List.cons_append, List.append_assoc,
      List.cons_append, List.cons_append]
    exact fields?_last escapes (node?_compact value fuel (sound _ List.mem_cons_self) (by omega)
      (halts_brace rest))
  | (name, value), (other, next) :: more, _, fuel + 1, rest, names, sound, enough => by
    obtain ⟨⟨cs, escapes⟩, escapes'⟩ := List.forall_mem_cons.mp names
    obtain ⟨first, behind⟩ := List.forall_mem_cons.mp sound
    rw [Node.compactFields, Node.compactFields, separated_more, ← Node.compactFields] at enough ⊢
    simp only [List.length_append, List.length_cons] at enough
    have others := fields?_compact (other, next) more fuel rest escapes' behind (by omega)
    rw [List.append_assoc, List.append_assoc, List.cons_append, List.append_assoc, List.cons_append,
      List.cons_append]
    exact fields?_more escapes (node?_compact value fuel first (by omega) (halts_comma _)) others

end

end Rollup.Json
