import Rollup.Filter.Interchange
import Rollup.Group.Interchange
import Rollup.Proofs.Filter.Composition
import Rollup.Proofs.Json.Shapes
import Rollup.Settings.Interchange

/-! Round trips.  Operations, plans, settings and filter expressions are read from their syntax
trees, and those are what a standard codec reads from their texts.  An expression needs as many
levels of nesting as it has, of which what a filter text compiles to has few.  Main statement: each
of them is read back from its text, whatever the texts in it are; of a filter only the numbers have
to be looked at. -/

namespace Rollup

open Json

namespace Json.Value.Within

variable {depth : Nat}

theorem ofOption (text? : Option String) : (Value.ofOption .text text?).Within depth := by
  cases text? with
  | none => exact .null
  | some text => exact .text text

theorem list_map {α : Type} {form : α → Value} {items : List α}
    (within : ∀ item ∈ items, (form item).Within depth) :
    (Value.list (items.map form)).Within (depth + 1) :=
  .list (List.forall_mem_map.mpr within)

theorem texts (texts : List String) : (Value.list (texts.map .text)).Within (depth + 1) :=
  list_map fun text _ => .text text

end Json.Value.Within

section

variable {codec : Codec} (standard : codec.Standard)

namespace Group

theorem Aggregate.lookup_name (aggregate : Aggregate) :
    Operation.aggregates.lookup aggregate.name = some aggregate := by
  cases aggregate with
  | count => decide
  | measure measure => cases measure <;> decide

theorem Operation.within_toValue (operation : Operation) : operation.toValue.Within 1 := by
  refine .object (List.forall_mem_cons.mpr ⟨.text _, List.forall_mem_singleton.mpr ?_⟩)
  exact .ofOption operation.column?

theorem Plan.within_toValue (plan : Plan) : plan.toValue.Within 3 := by
  refine .object (List.forall_mem_cons.mpr ⟨.texts plan.groupBy, List.forall_mem_singleton.mpr ?_⟩)
  exact .list_map fun operation _ => operation.within_toValue

include standard

theorem Operation.ofNodeBy?_node (operation : Operation) :
    ofNodeBy? codec.toReader (codec.node operation.toValue) = some operation := by
  rw [ofNodeBy?, toValue, standard.members?_node]
  · simp [Node.Members.required?, Node.Members.optional?, Node.Members.get?, standard.choice?_node,
      Aggregate.lookup_name, standard.optional?_node]
  · decide
  · rfl

theorem Plan.ofNodeBy?_node (plan : Plan) :
    ofNodeBy? codec.toReader (codec.node plan.toValue) = some plan := by
  have operations := Codec.Standard.list?_node plan.operations
    fun operation _ => Operation.ofNodeBy?_node standard operation
  rw [ofNodeBy?, toValue, standard.members?_node]
  · simp [Node.Members.required?, Node.Members.get?, standard.texts?_node, operations]
  · decide
  · rfl

end Group

theorem Settings.within_toValue (settings : Settings) : settings.toValue.Within 2 := by
  refine .object fun field member => ?_
  simp only [List.mem_cons, List.not_mem_nil, or_false] at member
  rcases member with rfl | rfl | rfl | rfl | rfl | rfl | rfl | rfl
  · exact .ofOption settings.input?
  · exact .text _
  · exact .boolean _
  · exact .ofOption settings.filter?
  · exact .texts settings.groupBy
  · exact .texts settings.aggregations
  · exact .natural _
  · exact .text _

include standard in
theorem Settings.ofNodeBy?_node {settings : Settings}
    (small : settings.topCount < Decimal.wordBound) :
    ofNodeBy? codec.toReader (codec.node settings.toValue) = some settings := by
  have boolean (value : Bool) : (codec.node (.boolean value)).boolean? = some value := rfl
  rw [ofNodeBy?, toValue, standard.members?_node]
  · simp [Node.Members.defaulted?, Node.Members.get?, standard.text?_node, standard.texts?_node,
      standard.optional?_node, standard.character?_node, boolean, standard.natural?_node small]
  · decide
  · rfl

namespace Filter

include standard

theorem Literal.ofNodeBy?_node {literal : Literal}
    (reads : ∀ x, literal = .number x → x.isFinite = true ∧
      codec.float? (codec.decimal x) = some x) :
    ofNodeBy? codec.toReader (codec.node literal.toValue) = some literal := by
  cases literal with
  | number x =>
    obtain ⟨finite, back⟩ := reads x rfl
    have read : (codec.node (.float x)).float? codec.toReader = some x := by
      rw [Codec.node, if_pos finite]
      exact back
    rw [ofNodeBy?, toValue, variant, standard.variant?_node]
    simp [read]
  | text text =>
    rw [ofNodeBy?, toValue, variant, standard.variant?_node]
    simp [standard.text?_node]

theorem Condition.ofNodeBy?_node {condition : Condition}
    (reads : ∀ x, condition.literal = .number x → x.isFinite = true ∧
      codec.float? (codec.decimal x) = some x) :
    ofNodeBy? codec.toReader (codec.node condition.toValue) = some condition := by
  rw [ofNodeBy?, toValue, standard.members?_node]
  · simp [Node.Members.required?, Node.Members.get?, standard.text?_node, standard.choice?_node,
      Comparison.lookup_word, Literal.ofNodeBy?_node standard reads]
  · decide
  · rfl

omit standard

namespace Expression

mutual

def numbers : Expression → List Float
  | condition c =>
    match c.literal with
    | .number x => [x]
    | .text _ => []
  | all terms => numbersOf terms
  | any terms => numbersOf terms

def numbersOf : List Expression → List Float
  | [] => []
  | term :: terms => numbers term ++ numbersOf terms

end

mutual

/-- The levels of containers that an expression is written with. -/
def levels : Expression → Nat
  | condition _ => 3
  | all terms => levelsOf terms + 2
  | any terms => levelsOf terms + 2

def levelsOf : List Expression → Nat
  | [] => 0
  | term :: terms => max (levels term) (levelsOf terms)

end

mutual

theorem within_toValue : ∀ expression : Expression, expression.toValue.Within expression.levels
  | condition c => by
    refine .object (List.forall_mem_singleton.mpr (.object fun field member => ?_))
    simp only [List.mem_cons, List.not_mem_nil, or_false] at member
    rcases member with rfl | rfl | rfl
    · exact .text _
    · exact .text _
    · cases c.literal with
      | number x => exact .object (List.forall_mem_singleton.mpr (.float x))
      | text text => exact .object (List.forall_mem_singleton.mpr (.text text))
  | all terms => .object (List.forall_mem_singleton.mpr (.list (within_valuesOf terms)))
  | any terms => .object (List.forall_mem_singleton.mpr (.list (within_valuesOf terms)))

theorem within_valuesOf :
    ∀ (terms : List Expression), ∀ value ∈ valuesOf terms, value.Within (levelsOf terms)
  | [], _, member => nomatch member
  | term :: terms, value, member => by
    rcases List.mem_cons.mp member with rfl | later
    · exact (within_toValue term).mono (Nat.le_max_left _ _)
    · exact (within_valuesOf terms value later).mono (Nat.le_max_right _ _)

end

mutual

theorem within?_node (standard : codec.Standard) :
    ∀ (expression : Expression) {depth : Nat}, expression.levels ≤ depth →
    (∀ x ∈ expression.numbers, x.isFinite = true ∧ codec.float? (codec.decimal x) = some x) →
    within? codec.toReader depth (codec.node expression.toValue) = some expression
  | condition c, depth + 3, _, reads => by
    have back : ∀ x, c.literal = .number x →
        x.isFinite = true ∧ codec.float? (codec.decimal x) = some x := by
      intro x given
      apply reads
      simp [numbers, given]
    rw [within?, toValue, variant, standard.variant?_node]
    simp [Condition.ofNodeBy?_node standard back]
  | all terms, depth + 2, shallow, reads => by
    rw [within?, toValue, variant, standard.variant?_node]
    simp [list?_within?_node standard terms (Nat.le_of_add_le_add_right shallow) reads]
  | any terms, depth + 2, shallow, reads => by
    rw [within?, toValue, variant, standard.variant?_node]
    simp [list?_within?_node standard terms (Nat.le_of_add_le_add_right shallow) reads]

theorem list?_within?_node (standard : codec.Standard) :
    ∀ (terms : List Expression) {depth : Nat}, levelsOf terms ≤ depth →
    (∀ x ∈ numbersOf terms, x.isFinite = true ∧ codec.float? (codec.decimal x) = some x) →
    (codec.node (.list (valuesOf terms))).list? (within? codec.toReader depth) = some terms
  | [], _, _, _ => rfl
  | term :: terms, depth, shallow, reads => by
    obtain ⟨first, others⟩ := List.forall_mem_append.mp reads
    obtain ⟨within, inside⟩ := Nat.max_le.mp shallow
    have read := within?_node standard term within first
    have more := list?_within?_node standard terms inside others
    rw [Codec.node, Node.list?] at more ⊢
    rw [valuesOf, Codec.itemNodes, List.mapM_cons, read, more]
    rfl

end

end Expression

end Filter

end

end Rollup
