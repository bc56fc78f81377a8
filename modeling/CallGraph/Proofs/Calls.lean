/-
**The calls of an index are those of its edges.**

`Edge.Calls edges a b` says that some edge of a list leads from `a` to `b`, and `Index.Calls` that
an index lists such a call. An edge whose identity is known is passed over, and nothing is lost by
that: the identity fixes both names (`Edge.Joins.of_key?`). A builder that takes one more edge
therefore lists one more call or the same ones (`Builder.Lists.add`), whatever the other fields of
the edge are, and `Builder.addAll_ok_induction` carries this along all edges.

* `Index.calls_iff`: when a list of edges has an index, it lists exactly the calls of the edges.
-/

import CallGraph.Proofs.Refusal

namespace CallGraph

/-! ### What an edge says -/

theorem Value.eq_text_of_atom? {value : Value} {s : String}
    (counts : value.atom? = some (.text s)) : value = .text s := by
  cases value with
  | text t => rw [Atom.text.inj (Option.some.inj counts)]
  | float x =>
    simp only [Value.atom?, Option.some.injEq] at counts
    cases whole : x.toInt? with
    | none => rw [whole] at counts; cases counts
    | some n => rw [whole] at counts; cases counts
  | null => cases counts
  | bool b => cases counts
  | int n => cases counts
  | list items => cases counts
  | record fields => cases counts

namespace Edge

/-- The edge leads from one method to another. -/
def Joins (edge : Edge) (caller callee : String) : Prop :=
  edge.caller.name = .text caller ∧ edge.callee.name = .text callee

/-- Some edge leads from one method to another. -/
def Calls (edges : List Edge) (caller callee : String) : Prop :=
  ∃ edge ∈ edges, edge.Joins caller callee

theorem calls_concat (edges : List Edge) (edge : Edge) (caller callee : String) :
    Calls (edges ++ [edge]) caller callee ↔
      Calls edges caller callee ∨ edge.Joins caller callee := by
  simp only [Calls, List.mem_append, List.mem_singleton, or_and_right, exists_or, exists_eq_left]

theorem names_of_key? {edge : Edge} {key : Edge.Key} (keyed : edge.key? = some key) :
    edge.caller.name.atom? = some key.caller ∧ edge.callee.name.atom? = some key.callee := by
  simp only [key?, Option.bind_eq_bind, Option.bind_eq_some_iff, Option.pure_def,
    Option.some.injEq] at keyed
  obtain ⟨caller, isCaller, callee, isCallee, site, -, rfl⟩ := keyed
  exact ⟨isCaller, isCallee⟩

/-- Edges of one identity lead from and to the same methods. -/
theorem Joins.of_key? {edge other : Edge} {key : Edge.Key} {caller callee : String}
    (joins : edge.Joins caller callee) (keyed : edge.key? = some key)
    (same : other.key? = some key) : other.Joins caller callee := by
  obtain ⟨isCaller, isCallee⟩ := names_of_key? keyed
  obtain ⟨otherCaller, otherCallee⟩ := names_of_key? same
  rw [joins.1] at isCaller
  rw [joins.2] at isCallee
  exact ⟨Value.eq_text_of_atom? (otherCaller.trans isCaller.symm),
    Value.eq_text_of_atom? (otherCallee.trans isCallee.symm)⟩

theorem joins_label_iff {edge : Edge} (callerText : edge.caller.name.IsText)
    (calleeText : edge.callee.name.IsText) (caller callee : String) :
    edge.Joins caller callee ↔ edge.caller.label = caller ∧ edge.callee.label = callee := by
  rw [Joins, callerText.eq_text, calleeText.eq_text, Value.text.injEq, Value.text.injEq]
  rfl

end Edge

/-! ### What a builder lists -/

namespace Builder

/-- **Induction over edges that are all answered**: what holds of a builder and the edges that it
took holds after any further edges, none of which is refused. -/
theorem addAll_ok_induction {motive : Builder → List Edge → Prop}
    (step : ∀ {builder : Builder} {fed : List Edge} {edge : Edge} {new : Bool} {after : Builder},
      motive builder fed → builder.Adds edge (.ok new) after → motive after (fed ++ [edge]))
    {builder after : Builder} {fed edges : List Edge} {count : Nat} (start : motive builder fed)
    (added : builder.addAll edges = (.ok count, after)) : motive after (fed ++ edges) := by
  induction edges generalizing builder fed count with
  | nil =>
    obtain rfl : builder = after := (Prod.mk.inj added).2
    rw [List.append_nil]
    exact start
  | cons edge rest ih =>
    have adds := adds_add builder edge
    rw [Builder.addAll] at added
    cases answered : builder.add edge with
    | mk answer grown =>
      rw [answered] at added adds
      cases answer with
      | error cause => cases (Prod.mk.inj added).1
      | ok new =>
        obtain ⟨counted, final⟩ := Prod.mk.inj added
        cases tail : (grown.addAll rest).1 with
        | error cause => rw [tail] at counted; cases counted
        | ok more =>
          have all := ih (step start adds) (Prod.ext tail final)
          rwa [List.append_assoc] at all

/-- The builder lists the calls of the edges that it took, and knows no other identities. -/
structure Lists (builder : Builder) (fed : List Edge) : Prop where
  calls : ∀ caller callee,
    (∃ site, ⟨callee, site⟩ ∈ (builder.callees.find? caller).getD []) ↔
      Edge.Calls fed caller callee
  noted : ∀ key ∈ builder.edges.keys, ∃ edge ∈ fed, edge.key? = some key

variable {builder : Builder} {fed : List Edge}

theorem Lists.fresh : Lists fresh [] :=
  ⟨fun _ _ => ⟨fun ⟨_, listed⟩ => (List.not_mem_nil listed).elim,
      fun ⟨_, listed, _⟩ => (List.not_mem_nil listed).elim⟩,
    fun _ listed => (List.not_mem_nil listed).elim⟩

theorem Lists.entered (lists : builder.Lists fed) {edge : Edge} {key : Edge.Key}
    (keyed : edge.key? = some key) (callerText : edge.caller.name.IsText)
    (calleeText : edge.callee.name.IsText) : (builder.entered key edge).Lists (fed ++ [edge]) where
  calls caller callee := by
    show (∃ site, (⟨callee, site⟩ : Ref) ∈
      ((builder.callees.upsert edge.caller.label (appendRef ⟨edge.callee.label, edge.site⟩)).find?
        caller).getD []) ↔ _
    simp only [mem_upsert_appendRef, exists_or, lists.calls, Edge.calls_concat,
      Edge.joins_label_iff callerText calleeText, Ref.mk.injEq]
    refine or_congr_right ⟨?_, ?_⟩
    · rintro ⟨site, isCaller, isCallee, -⟩
      exact ⟨isCaller, isCallee.symm⟩
    · rintro ⟨isCaller, isCallee⟩
      exact ⟨edge.site, isCaller, isCallee.symm, rfl⟩
  noted other listed := by
    rcases Table.mem_keys_put.mp listed with old | rfl
    · obtain ⟨first, isFed, same⟩ := lists.noted other old
      exact ⟨first, List.mem_append_left _ isFed, same⟩
    · exact ⟨edge, List.mem_append_right _ (List.mem_singleton_self edge), keyed⟩

/-- **One more edge**, new or known, is one more call or one listed before. -/
theorem Lists.add (lists : builder.Lists fed) {edge : Edge} {new : Bool} {after : Builder}
    (adds : builder.Adds edge (.ok new) after) : after.Lists (fed ++ [edge]) := by
  cases adds with
  | taken _ keyed _ callerText calleeText => exact lists.entered keyed callerText calleeText
  | known _ keyed listed =>
    obtain ⟨first, isFed, same⟩ := lists.noted _ listed
    refine ⟨fun caller callee => ?_, fun key isKey => ?_⟩
    · rw [lists.calls, Edge.calls_concat]
      refine (or_iff_left_of_imp fun joins => ?_).symm
      exact ⟨first, isFed, joins.of_key? keyed same⟩
    · obtain ⟨other, isOther, keys⟩ := lists.noted key isKey
      exact ⟨other, List.mem_append_left _ isOther, keys⟩

/-- Any edges, none of which is refused. -/
theorem Lists.addAll (lists : builder.Lists fed) {edges : List Edge} {count : Nat}
    {after : Builder} (added : builder.addAll edges = (.ok count, after)) :
    after.Lists (fed ++ edges) :=
  addAll_ok_induction (fun lists adds => lists.add adds) lists added

end Builder

/-! ### What an index lists -/

namespace Index

variable {index : Index}

/-- The index lists a call from one method to another. -/
def Calls (index : Index) (caller callee : String) : Prop :=
  ∃ site, ⟨callee, site⟩ ∈ index.calleesOf caller

theorem mem_calleeNames_iff_calls {caller callee : String} :
    callee ∈ index.calleeNames caller ↔ index.Calls caller callee :=
  Built.mem_names_iff

/-- A list of edges with an index was taken by the builder that the index was made of. -/
theorem addAll_of_ofEdges {edges : List Edge} (made : Index.ofEdges edges = .ok index) :
    ∃ count builder, Builder.fresh.addAll edges = (.ok count, builder) ∧
      builder.finish.1 = .ok index := by
  rw [Index.ofEdges] at made
  cases fed : Builder.fresh.addAll edges with
  | mk answer builder =>
    rw [fed] at made
    cases answer with
    | error cause => cases made
    | ok count => exact ⟨count, builder, rfl, made⟩

/-- **An index lists the calls of its edges**, and no others. -/
theorem calls_iff {edges : List Edge} (made : Index.ofEdges edges = .ok index)
    (caller callee : String) : index.Calls caller callee ↔ Edge.Calls edges caller callee := by
  obtain ⟨count, builder, fed, finished⟩ := addAll_of_ofEdges made
  obtain ⟨-, -, callees, -⟩ := Builder.tables_of_finish finished
  have lists := Builder.Lists.fresh.addAll fed
  rw [List.nil_append] at lists
  rw [Calls, calleesOf, callees, lists.calls]

end Index

end CallGraph
