import Rollup.Proofs.Json.Codec

/-! Reading values of a known kind back from what a standard codec writes: texts and what is made of
them, optional values, lists, variants and structures.  Main statement: of an object whose names
differ every member is found in its place. -/

namespace Rollup.Json

open Decimal

theorem mapM_eq_some_map {α β : Type} {read? : α → Option β} {value : α → β} {items : List α}
    (reads : ∀ item ∈ items, read? item = some (value item)) :
    items.mapM read? = some (items.map value) := by
  induction items with
  | nil => rfl
  | cons item items ih =>
    obtain ⟨first, others⟩ := List.forall_mem_cons.mp reads
    rw [List.mapM_cons, first, ih others]
    rfl

theorem filter_name_eq {α : Type} {entries : List (String × α)}
    (differ : (entries.map (·.1)).Nodup) {entry : String × α} (member : entry ∈ entries) :
    entries.filter (·.1 = entry.1) = [entry] := by
  induction entries with
  | nil => cases member
  | cons first others ih =>
    obtain ⟨absent, differ⟩ := List.nodup_cons.mp differ
    rcases List.mem_cons.mp member with rfl | later
    · have none : others.filter (·.1 = entry.1) = [] := by
        rw [List.filter_eq_nil_iff]
        intro other among same
        exact absent (List.mem_map.mpr ⟨other, among, of_decide_eq_true same⟩)
      simp [none]
    · have other : first.1 ≠ entry.1 := fun same =>
        absent (List.mem_map.mpr ⟨entry, later, same.symm⟩)
      simp [other, ih differ later]

namespace Codec.Standard

variable {codec : Codec} (standard : codec.Standard)
include standard

theorem textOf?_raw (text : String) : codec.text? (codec.raw text) = some text := by
  rw [standard.texts _ _ (standard.escapes text), String.ofList_toList]

theorem text?_node (text : String) : (codec.node (.text text)).text? codec.toReader = some text :=
  standard.textOf?_raw text

theorem character?_node (c : Char) :
    (codec.node (.text (String.singleton c))).character? codec.toReader = some c := by
  rw [Node.character?, standard.text?_node, Option.map_some, String.toList_singleton]

theorem natural?_node {n : Nat} (small : n < wordBound) :
    (codec.node (.natural n)).natural? codec.toReader = some n :=
  standard.naturals n small

theorem optional?_node (text? : Option String) :
    (codec.node (Value.ofOption .text text?)).optional? (Node.text? codec.toReader) =
      some text? := by
  cases text? with
  | none => rfl
  | some text =>
    show ((codec.node (.text text)).text? codec.toReader).map some = _
    rw [standard.text?_node]
    rfl

omit standard in
theorem list?_node {α : Type} {read? : Node → Option α} {form : α → Value} (items : List α)
    (reads : ∀ item ∈ items, read? (codec.node (form item)) = some item) :
    (codec.node (.list (items.map form))).list? read? = some items := by
  rw [node, itemNodes_eq_map, List.map_map, Node.list?, List.mapM_map]
  exact (mapM_eq_some_map reads).trans (congrArg some (List.map_id items))

theorem texts?_node (texts : List String) :
    (codec.node (.list (texts.map .text))).list? (Node.text? codec.toReader) = some texts :=
  list?_node texts fun text _ => standard.text?_node text

theorem choice?_node {α : Type} (choices : List (String × α)) (name : String) :
    (codec.node (.text name)).choice? codec.toReader choices = choices.lookup name := by
  have read := standard.text?_node name
  rw [node] at read ⊢
  rw [Node.choice?]
  dsimp only
  rw [read]
  rfl

theorem variant?_node (name : String) (content : Value) :
    (codec.node (.object [(name, content)])).variant? codec.toReader =
      some (name, codec.node content) := by
  show codec.field? (codec.raw name, codec.node content) = _
  rw [Reader.field?, standard.textOf?_raw]
  rfl

/-- Every member of an object whose names differ is found in its place. -/
theorem members?_node {names : List String} (differ : names.Nodup)
    {fields : List (String × Value)} (named : fields.map (·.1) = names) :
    (codec.node (.object fields)).members? codec.toReader names =
      some (.named (fields.map fun field => some (codec.node field.2))) := by
  subst named
  have known : (codec.fieldNodes fields).mapM codec.field? =
      some (fields.map fun field => (field.1, codec.node field.2)) := by
    rw [fieldNodes_eq_map, List.mapM_map]
    apply mapM_eq_some_map
    intro field _
    simp [Reader.field?, standard.textOf?_raw]
  have alone : (fields.map (·.1)).map (fun name =>
      (fields.map fun field => (field.1, codec.node field.2)).filter (·.1 = name)) =
      fields.map fun field => [(field.1, codec.node field.2)] := by
    rw [List.map_map]
    apply List.map_congr_left
    intro field member
    have apart : ((fields.map fun field => (field.1, codec.node field.2)).map (·.1)).Nodup := by
      rwa [List.map_map]
    exact filter_name_eq apart (List.mem_map_of_mem member)
  show Option.bind ((codec.fieldNodes fields).mapM codec.field?) _ = _
  rw [known]
  show (if _ then _ else _) = _
  rw [alone]
  simp

end Codec.Standard

end Rollup.Json
