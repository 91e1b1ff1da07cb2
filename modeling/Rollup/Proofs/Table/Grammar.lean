import Rollup.Table.Fields

/-! The grammar of a record.  A record is a list of cells with delimiters between them.  A quoted
cell has padding, a quote, its content with every quote doubled, a quote and padding; a bare cell
holds no delimiter and does not begin, after padding, with a quote.  Main statement: splitting a
record either reads such a list, or stops at an open quote of its last cell, or at the first
character behind a quoted cell that is neither padding nor a delimiter. -/

namespace Rollup.Table

/-- One field as it is written. -/
inductive Cell where
  | bare (raw : List Char)
  | quoted (before content after : List Char)
  deriving DecidableEq, Repr

def doubled (content : List Char) : List Char :=
  content.flatMap fun c => if c = '"' then ['"', '"'] else [c]

theorem doubled_append (first second : List Char) :
    doubled (first ++ second) = doubled first ++ doubled second :=
  List.flatMap_append

theorem doubled_singleton {c : Char} (other : c ≠ '"') : doubled [c] = [c] := by
  simp [doubled, other]

theorem doubled_cons {c : Char} (other : c ≠ '"') (rest : List Char) :
    doubled (c :: rest) = c :: doubled rest := by
  simp [doubled, other]

theorem doubled_quote (rest : List Char) :
    doubled ('"' :: rest) = '"' :: '"' :: doubled rest := rfl

namespace Cell

def text : Cell → List Char
  | bare raw => raw
  | quoted before content after => before ++ '"' :: (doubled content ++ '"' :: after)

/-- What a cell means: the content of a quoted one, and a bare one without the padding in front
of it and the blanks behind it. -/
def value : Cell → String
  | bare raw => String.ofList (Text.trimEnd (raw.dropWhile isPaddingChar))
  | quoted _ content _ => String.ofList content

end Cell

def Padding (delimiter : Char) (cs : List Char) : Prop :=
  ∀ c ∈ cs, isPaddingChar c = true ∧ c ≠ delimiter

instance (delimiter : Char) (cs : List Char) : Decidable (Padding delimiter cs) :=
  List.decidableBAll _ cs

def Cell.WellFormed (delimiter : Char) : Cell → Prop
  | bare raw => delimiter ∉ raw ∧ (raw.dropWhile isPaddingChar).head? ≠ some '"'
  | quoted before _ after => Padding delimiter before ∧ Padding delimiter after

instance (delimiter : Char) : (cell : Cell) → Decidable (cell.WellFormed delimiter)
  | .bare _ => inferInstanceAs (Decidable (_ ∧ _))
  | .quoted _ _ _ => inferInstanceAs (Decidable (_ ∧ _))

def rowText (delimiter : Char) : List Cell → List Char
  | [] => []
  | [cell] => cell.text
  | cell :: next :: rest => cell.text ++ delimiter :: rowText delimiter (next :: rest)

def begun (delimiter : Char) (cells : List Cell) : List Char :=
  cells.flatMap fun cell => cell.text ++ [delimiter]

theorem begun_append (delimiter : Char) (cells : List Cell) (cell : Cell) :
    begun delimiter (cells ++ [cell]) = begun delimiter cells ++ (cell.text ++ [delimiter]) := by
  simp [begun]

theorem rowText_append (delimiter : Char) (cells : List Cell) (last : Cell) :
    rowText delimiter (cells ++ [last]) = begun delimiter cells ++ last.text := by
  induction cells with
  | nil => rfl
  | cons first rest ih =>
    have unfolded : rowText delimiter (first :: rest ++ [last]) =
        first.text ++ delimiter :: rowText delimiter (rest ++ [last]) := by
      cases rest <;> rfl
    rw [unfolded, ih]
    simp [begun]

/-- The outcomes of splitting a text, each with the shape of the text that leads to it. -/
inductive Split (delimiter : Char) (text : List Char) : Except RecordError (List String) → Prop
    where
  | fields {cells : List Cell} (some : cells ≠ [])
      (formed : ∀ cell ∈ cells, cell.WellFormed delimiter)
      (same : text = rowText delimiter cells) :
      Split delimiter text (.ok (cells.map Cell.value))
  | unterminated {cells : List Cell} {before content : List Char}
      (formed : ∀ cell ∈ cells, cell.WellFormed delimiter) (padding : Padding delimiter before)
      (same : text = begun delimiter cells ++ (before ++ '"' :: doubled content)) :
      Split delimiter text
        (.error (.unterminatedQuote ((begun delimiter cells ++ before).length + 1)))
  | textAfterQuote {cells : List Cell} {before content after rest : List Char} {found : Char}
      (formed : ∀ cell ∈ cells, cell.WellFormed delimiter)
      (cell : (Cell.quoted before content after).WellFormed delimiter)
      (same : text =
        begun delimiter cells ++ ((Cell.quoted before content after).text ++ found :: rest))
      (outside : found ≠ delimiter) (ink : isPaddingChar found = false)
      (single : after = [] → found ≠ '"') :
      Split delimiter text (.error (.textAfterQuote found
        ((begun delimiter cells ++ (Cell.quoted before content after).text).length + 1)))

/-- What a field tells about the characters that it was read from; so many came before them. -/
def Field.Reads (delimiter : Char) (offset : Nat) : Field → List Char → Prop
  | .start, seen => Padding delimiter seen
  | .bare reversed, seen =>
    delimiter ∉ seen ∧ seen.dropWhile isPaddingChar = reversed.reverse ∧
      ∃ first rest, reversed.reverse = first :: rest ∧ first ≠ '"'
  | .quoted opened reversed, seen =>
    ∃ before, Padding delimiter before ∧ seen = before ++ '"' :: doubled reversed.reverse ∧
      opened = offset + before.length + 1
  | .closed reversed, seen =>
    ∃ before after, Padding delimiter before ∧ Padding delimiter after ∧
      seen = before ++ '"' :: (doubled reversed.reverse ++ '"' :: after)

theorem Padding.append {delimiter c : Char} {cs : List Char} (padding : Padding delimiter cs)
    (blank : isPaddingChar c = true) (other : c ≠ delimiter) :
    Padding delimiter (cs ++ [c]) := by
  intro d member
  rcases List.mem_append.mp member with before | last
  · exact padding d before
  · cases List.mem_singleton.mp last
    exact ⟨blank, other⟩

theorem Padding.not_mem {delimiter : Char} {cs : List Char} (padding : Padding delimiter cs) :
    delimiter ∉ cs :=
  fun member => (padding delimiter member).2 rfl

theorem Padding.dropWhile {delimiter : Char} {cs : List Char} (padding : Padding delimiter cs)
    (rest : List Char) : (cs ++ rest).dropWhile isPaddingChar = rest.dropWhile isPaddingChar :=
  List.dropWhile_append_of_pos fun c member => (padding c member).1

namespace Field.Reads

variable {delimiter c : Char} {offset opened : Nat} {reversed seen : List Char}

theorem ink (reads : Field.start.Reads delimiter offset seen) (outside : c ≠ delimiter)
    (notQuote : c ≠ '"') (ink : isPaddingChar c = false) :
    (Field.bare [c]).Reads delimiter offset (seen ++ [c]) := by
  refine ⟨?_, ?_, c, [], rfl, notQuote⟩
  · simp [Padding.not_mem reads, Ne.symm outside]
  · rw [Padding.dropWhile reads, List.dropWhile_cons_of_neg (by simp [ink])]
    rfl

theorem openQuote (reads : Field.start.Reads delimiter offset seen) :
    (Field.quoted (offset + seen.length + 1) []).Reads delimiter offset (seen ++ ['"']) :=
  ⟨seen, reads, rfl, rfl⟩

theorem bare_push (reads : (Field.bare reversed).Reads delimiter offset seen)
    (outside : c ≠ delimiter) :
    (Field.bare (c :: reversed)).Reads delimiter offset (seen ++ [c]) := by
  obtain ⟨absent, trimmed, first, rest, shape, notQuote⟩ := reads
  refine ⟨?_, ?_, first, rest ++ [c], ?_, notQuote⟩
  · simp [absent, Ne.symm outside]
  · have some : (seen.dropWhile isPaddingChar).isEmpty = false := by
      rw [trimmed, shape]
      rfl
    rw [List.dropWhile_append, if_neg (by simp [some]), trimmed, List.reverse_cons]
  · rw [List.reverse_cons, shape, List.cons_append]

theorem quoted_push (reads : (Field.quoted opened reversed).Reads delimiter offset seen)
    (other : c ≠ '"') :
    (Field.quoted opened (c :: reversed)).Reads delimiter offset (seen ++ [c]) := by
  obtain ⟨before, padding, rfl, position⟩ := reads
  refine ⟨before, padding, ?_, position⟩
  rw [List.reverse_cons, doubled_append, doubled_singleton other]
  simp

theorem quoted_pair (reads : (Field.quoted opened reversed).Reads delimiter offset seen) :
    (Field.quoted opened ('"' :: reversed)).Reads delimiter offset (seen ++ ['"', '"']) := by
  obtain ⟨before, padding, rfl, position⟩ := reads
  refine ⟨before, padding, ?_, position⟩
  rw [List.reverse_cons, doubled_append, doubled_quote]
  simp [doubled]

theorem close (reads : (Field.quoted opened reversed).Reads delimiter offset seen) :
    (Field.closed reversed).Reads delimiter offset (seen ++ ['"']) := by
  obtain ⟨before, padding, rfl, -⟩ := reads
  refine ⟨before, [], padding, nofun, ?_⟩
  simp

theorem closed_padding (reads : (Field.closed reversed).Reads delimiter offset seen)
    (blank : isPaddingChar c = true) (other : c ≠ delimiter) :
    (Field.closed reversed).Reads delimiter offset (seen ++ [c]) := by
  obtain ⟨before, after, padding, trailing, rfl⟩ := reads
  refine ⟨before, after ++ [c], padding, trailing.append blank other, ?_⟩
  simp

theorem cell {field : Field} {value : String} (reads : field.Reads delimiter offset seen)
    (complete : field.value? = .ok value) :
    ∃ cell : Cell, cell.WellFormed delimiter ∧ cell.text = seen ∧ cell.value = value := by
  cases field with
  | start =>
    cases complete
    have nothing : seen.dropWhile isPaddingChar = [] := by
      simpa using Padding.dropWhile reads []
    refine ⟨.bare seen, ⟨Padding.not_mem reads, by simp [nothing]⟩, rfl, ?_⟩
    rw [Cell.value, nothing]
    rfl
  | bare reversed =>
    cases complete
    obtain ⟨absent, trimmed, first, rest, shape, notQuote⟩ := reads
    refine ⟨.bare seen, ⟨absent, ?_⟩, rfl, ?_⟩
    · simpa [trimmed, shape] using notQuote
    · rw [Cell.value, trimmed]
  | quoted opened reversed => cases complete
  | closed reversed =>
    cases complete
    obtain ⟨before, after, padding, trailing, rfl⟩ := reads
    exact ⟨.quoted before reversed.reverse after, ⟨padding, trailing⟩, rfl, rfl⟩

end Field.Reads

theorem map_values_append (values : List String) (value : String)
    (result : Except RecordError (List String)) :
    result.map ((values ++ [value]) ++ ·) = (result.map (value :: ·)).map (values ++ ·) := by
  cases result with
  | error => rfl
  | ok later => simp [Except.map]

theorem bare_value_bind (reversed : List Char) (result : Except RecordError (List String)) :
    (do
      let value ← (Field.bare reversed).value?
      let values ← result
      return value :: values) =
      result.map (String.ofList (Text.trimEnd reversed.reverse) :: ·) := by
  cases result <;> rfl

/-- Where the splitting of a record stands: behind complete cells, in a field that was read from
`seen`, with `rest` ahead.  A quoted cell that was closed just now is not opened again. -/
structure Stands (delimiter : Char) (cells : List Cell) (seen : List Char) (column : Nat)
    (field : Field) (rest : List Char) : Prop where
  formed : ∀ cell ∈ cells, cell.WellFormed delimiter
  reads : field.Reads delimiter (begun delimiter cells).length seen
  position : column = (begun delimiter cells).length + seen.length + 1
  settled : ∀ reversed, field = .closed reversed → seen.getLast? = some '"' →
    rest.head? ≠ some '"'

namespace Stands

variable {delimiter c : Char} {cells : List Cell} {seen reversed rest : List Char}
  {column opened : Nat} {field next : Field} {value : String}

theorem beginning (delimiter : Char) (rest : List Char) :
    Stands delimiter [] [] 1 .start rest :=
  ⟨nofun, nofun, rfl, nofun⟩

theorem push (stands : Stands delimiter cells seen column field (c :: rest))
    (reads : next.Reads delimiter (begun delimiter cells).length (seen ++ [c]))
    (settled : ∀ reversed, next = .closed reversed → c = '"' → rest.head? ≠ some '"') :
    Stands delimiter cells (seen ++ [c]) (column + 1) next rest := by
  refine ⟨stands.formed, reads, ?_, ?_⟩
  · rw [stands.position, List.length_append, List.length_singleton]
    rfl
  · intro reversed closed last
    rw [List.getLast?_concat, Option.some.injEq] at last
    exact settled reversed closed last

theorem push_padding (stands : Stands delimiter cells seen column .start (c :: rest))
    (blank : isPaddingChar c = true) (other : c ≠ delimiter) :
    Stands delimiter cells (seen ++ [c]) (column + 1) .start rest :=
  stands.push (Padding.append stands.reads blank other) nofun

theorem push_ink (stands : Stands delimiter cells seen column .start (c :: rest))
    (other : c ≠ delimiter) (notQuote : c ≠ '"') (ink : isPaddingChar c = false) :
    Stands delimiter cells (seen ++ [c]) (column + 1) (.bare [c]) rest :=
  stands.push (stands.reads.ink other notQuote ink) nofun

theorem push_bare (stands : Stands delimiter cells seen column (.bare reversed) (c :: rest))
    (other : c ≠ delimiter) :
    Stands delimiter cells (seen ++ [c]) (column + 1) (.bare (c :: reversed)) rest :=
  stands.push (stands.reads.bare_push other) nofun

theorem openQuote (stands : Stands delimiter cells seen column .start ('"' :: rest)) :
    Stands delimiter cells (seen ++ ['"']) (column + 1) (.quoted column []) rest := by
  have reads := stands.reads.openQuote
  rw [← stands.position] at reads
  exact stands.push reads nofun

theorem push_quoted
    (stands : Stands delimiter cells seen column (.quoted opened reversed) (c :: rest))
    (notQuote : c ≠ '"') :
    Stands delimiter cells (seen ++ [c]) (column + 1) (.quoted opened (c :: reversed)) rest :=
  stands.push (stands.reads.quoted_push notQuote) nofun

theorem push_pair
    (stands : Stands delimiter cells seen column (.quoted opened reversed) ('"' :: '"' :: rest)) :
    Stands delimiter cells (seen ++ ['"', '"']) (column + 2) (.quoted opened ('"' :: reversed))
      rest := by
  refine ⟨stands.formed, stands.reads.quoted_pair, ?_, nofun⟩
  rw [stands.position, List.length_append]
  rfl

theorem closeQuote
    (stands : Stands delimiter cells seen column (.quoted opened reversed) ('"' :: rest))
    (single : rest.head? ≠ some '"') :
    Stands delimiter cells (seen ++ ['"']) (column + 1) (.closed reversed) rest :=
  stands.push stands.reads.close fun _ _ _ => single

theorem push_trailing
    (stands : Stands delimiter cells seen column (.closed reversed) (c :: rest))
    (blank : isPaddingChar c = true) (other : c ≠ delimiter) :
    Stands delimiter cells (seen ++ [c]) (column + 1) (.closed reversed) rest := by
  apply stands.push (stands.reads.closed_padding blank other)
  rintro _ _ rfl
  exact absurd blank (by decide)

theorem with_cell (stands : Stands delimiter cells seen column field rest)
    (complete : field.value? = .ok value) :
    ∃ cell : Cell, (∀ other ∈ cells ++ [cell], other.WellFormed delimiter) ∧
      cell.text = seen ∧ cell.value = value := by
  obtain ⟨cell, wellFormed, text, means⟩ := stands.reads.cell complete
  refine ⟨cell, ?_, text, means⟩
  intro other member
  rcases List.mem_append.mp member with before | last
  · exact stands.formed other before
  · exact List.mem_singleton.mp last ▸ wellFormed

theorem split_delimiter {result : Except RecordError (List String)}
    (stands : Stands delimiter cells seen column field (delimiter :: rest))
    (complete : field.value? = .ok value)
    (later : ∀ {more : List Cell} {none : List Char},
      Stands delimiter more none (column + 1) .start rest →
        Split delimiter (begun delimiter more ++ (none ++ rest))
          (result.map (more.map Cell.value ++ ·))) :
    Split delimiter (begun delimiter cells ++ (seen ++ delimiter :: rest))
      ((result.map (value :: ·)).map (cells.map Cell.value ++ ·)) := by
  obtain ⟨cell, all, text, means⟩ := stands.with_cell complete
  have position : column + 1 =
      (begun delimiter (cells ++ [cell])).length + ([] : List Char).length + 1 := by
    rw [stands.position, begun_append, text]
    simp only [List.length_append, List.length_singleton, List.length_nil, Nat.add_assoc]
  have start : Field.start.Reads delimiter (begun delimiter (cells ++ [cell])).length [] := nofun
  have split := later ⟨all, start, position, nofun⟩
  rw [begun_append, text, List.map_append, List.map_singleton, means, map_values_append] at split
  simpa using split

theorem split_end (stands : Stands delimiter cells seen column field []) :
    Split delimiter (begun delimiter cells ++ seen)
      ((field.value?.map ([·])).map (cells.map Cell.value ++ ·)) := by
  cases complete : field.value? with
  | ok value =>
    obtain ⟨cell, all, text, means⟩ := stands.with_cell complete
    show Split delimiter (begun delimiter cells ++ seen) (.ok (cells.map Cell.value ++ [value]))
    rw [← means, ← List.map_singleton, ← List.map_append]
    apply Split.fields (by simp) all
    rw [rowText_append, text]
  | error reason =>
    cases field with
    | quoted opened reversed =>
      cases complete
      obtain ⟨before, padding, same, position⟩ := stands.reads
      show Split delimiter (begun delimiter cells ++ seen) (.error (.unterminatedQuote opened))
      rw [position, ← List.length_append, same]
      exact .unterminated stands.formed padding rfl
    | start => cases complete
    | bare reversed => cases complete
    | closed reversed => cases complete

theorem split_textAfterQuote
    (stands : Stands delimiter cells seen column (.closed reversed) (c :: rest))
    (other : c ≠ delimiter) (ink : isPaddingChar c = false) :
    Split delimiter (begun delimiter cells ++ (seen ++ c :: rest))
      (.error (.textAfterQuote c column)) := by
  obtain ⟨before, after, padding, trailing, same⟩ := stands.reads
  have text : seen = (Cell.quoted before reversed.reverse after).text := same
  rw [stands.position, ← List.length_append, text]
  apply Split.textAfterQuote stands.formed ⟨padding, trailing⟩ rfl other ink
  rintro rfl
  have shape : seen = (before ++ '"' :: doubled reversed.reverse) ++ ['"'] := by simp [same]
  have last : seen.getLast? = some '"' := by rw [shape, List.getLast?_concat]
  simpa using stands.settled reversed rfl last

theorem split {cs : List Char} (stands : Stands delimiter cells seen column field cs) :
    Split delimiter (begun delimiter cells ++ (seen ++ cs))
      ((splitFrom delimiter column field cs).map (cells.map Cell.value ++ ·)) := by
  fun_induction splitFrom delimiter column field cs generalizing cells seen with
  | case1 =>
    rw [List.append_nil]
    exact stands.split_end
  | case2 _ _ ih => exact stands.split_delimiter rfl ih
  | case3 _ _ _ ih =>
    rw [List.append_cons]
    exact ih stands.openQuote
  | case4 _ _ _ other _ blank ih =>
    rw [List.append_cons]
    exact ih (stands.push_padding blank other)
  | case5 _ _ _ other notQuote ink ih =>
    rw [List.append_cons]
    exact ih (stands.push_ink other notQuote (by simpa using ink))
  | case6 _ _ _ ih =>
    rw [bare_value_bind]
    exact stands.split_delimiter rfl ih
  | case7 _ _ _ _ other ih =>
    rw [List.append_cons]
    exact ih (stands.push_bare other)
  | case8 _ _ _ ih =>
    rw [List.append_cons]
    exact ih (stands.closeQuote (by simp))
  | case9 _ _ _ _ notQuote ih =>
    rw [List.append_cons]
    exact ih (stands.push_quoted notQuote)
  | case10 _ _ _ _ ih =>
    rw [List.append_cons, List.append_cons, List.append_assoc seen]
    exact ih stands.push_pair
  | case11 _ _ _ _ _ single ih =>
    rw [List.append_cons]
    exact ih (stands.closeQuote (by simpa using single))
  | case12 _ _ _ _ _ _ notQuote ih =>
    rw [List.append_cons]
    exact ih (stands.push_quoted notQuote)
  | case13 _ _ _ ih => exact stands.split_delimiter rfl ih
  | case14 _ _ _ _ other blank ih =>
    rw [List.append_cons]
    exact ih (stands.push_trailing blank other)
  | case15 _ _ _ _ other ink => exact stands.split_textAfterQuote other (by simpa using ink)

end Stands

theorem splitFields_split (delimiter : Char) (record : String) :
    Split delimiter record.toList (splitFields delimiter record) := by
  have split : Split delimiter record.toList
      ((splitFrom delimiter 1 .start record.toList).map (([] : List Cell).map Cell.value ++ ·)) :=
    (Stands.beginning delimiter record.toList).split
  have same : (splitFrom delimiter 1 .start record.toList).map (([] : List String) ++ ·) =
      splitFields delimiter record := by
    unfold splitFields
    cases splitFrom delimiter 1 .start record.toList <;> rfl
  rw [List.map_nil, same] at split
  exact split

end Rollup.Table
