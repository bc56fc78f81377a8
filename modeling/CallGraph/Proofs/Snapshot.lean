/-
**The index of a run of requests, read off its distinct edges.**

`Index.Reflects index kept` says that every look-up of an index is a function of the list `kept` of
edges: the edges themselves, the references of each method in both directions, the registry in the
order of first mention, the entry points and the sizes. A builder that holds typed edges can be
finished (`Builder.Holds.finish_eq`), since all types are texts then and the class names can be made
(`classNames_of_typed`), and its index reflects them (`Builder.Holds.reflects`).

* `Index.ofEdges_of_typed`: a list of typed edges has an index, which reflects the first edge of
  each identity;
* `run_reflects_distinct`: any run of requests with typed edges, finished, gives the index that
  reflects the first edge of each identity; every answer on the way is the one due.
-/

import CallGraph.Proofs.Filling
import CallGraph.Service.Related
import Mathlib.Data.List.Perm.Basic

namespace CallGraph

/-! ### Class names -/

/-- Steps that all succeed give the list of their results. -/
theorem mapM_eq_ok {α β ε : Type} {step : α → Except ε β} {result : α → β} {items : List α}
    (each : ∀ item ∈ items, step item = .ok (result item)) :
    items.mapM step = .ok (items.map result) := by
  induction items with
  | nil => rfl
  | cons item rest ih =>
    have later := ih fun other member => each other (List.mem_cons_of_mem _ member)
    rw [List.mapM_cons, each item List.mem_cons_self, later]
    rfl

namespace Index

/-- The methods whose types can be looked up. -/
def classed (methods : List Method) : List Method :=
  methods.filter fun method => !method.type.isVoid

/-- The types of some methods in lower case, with and without their namespaces. -/
def loweredTypes (methods : List Method) : List String :=
  (classed methods).map (fun method => Text.lower method.typePath.display) ++
    (classed methods).map fun method => Text.lower method.type.display

/-- The class names of methods whose types and namespaces are texts. -/
theorem classNames_of_typed {methods : List Method}
    (typed : ∀ method ∈ methods, method.type.IsText ∧ method.scope.IsText) :
    classNames methods = .ok (loweredTypes methods) := by
  have qualified : (classed methods).mapM (fun method => do
      return Text.lower (← (← method.typeName).asText)) =
      .ok ((classed methods).map fun method => Text.lower method.typePath.display) := by
    refine mapM_eq_ok fun method member => ?_
    obtain ⟨type, scope⟩ := typed method (List.mem_of_mem_filter member)
    have text : method.typePath = .text method.typePath.display :=
      (isText_qualified scope type).eq_text
    have joined : method.typeName = .ok (.text method.typePath.display) :=
      (qualify_of_isText scope type).trans (congrArg Except.ok text)
    rw [joined]
    rfl
  have bare : (classed methods).mapM (fun method => method.type.asText.map Text.lower) =
      .ok ((classed methods).map fun method => Text.lower method.type.display) := by
    refine mapM_eq_ok fun method member => ?_
    rw [(typed method (List.mem_of_mem_filter member)).1.eq_text]
    rfl
  unfold loweredTypes
  unfold classed at qualified bare ⊢
  unfold classNames
  dsimp only
  rw [qualified, bare]
  rfl

theorem contains_loweredTypes_iff (methods : List Method) (lowered : String) :
    (loweredTypes methods).contains lowered = true ↔
      ∃ method ∈ methods, method.type.isVoid = false ∧
        (lowered = Text.lower method.typePath.display ∨
          lowered = Text.lower method.type.display) := by
  simp only [loweredTypes, classed, List.contains_iff_mem, List.mem_append, List.mem_map,
    List.mem_filter, Bool.not_eq_true', and_assoc]
  constructor
  · rintro (⟨method, member, typed, rfl⟩ | ⟨method, member, typed, rfl⟩)
    · exact ⟨method, member, typed, Or.inl rfl⟩
    · exact ⟨method, member, typed, Or.inr rfl⟩
  · rintro ⟨method, member, typed, rfl | rfl⟩
    · exact Or.inl ⟨method, member, typed, rfl⟩
    · exact Or.inr ⟨method, member, typed, rfl⟩

end Index

/-! ### Reflection -/

namespace Index

/-- **The index of a list of edges**: every look-up is a function of the list. -/
structure Reflects (index : Index) (kept : List Edge) : Prop where
  /-- The edges, in order. -/
  edges : index.edges = kept
  count : index.stats.edges = kept.length
  /-- The calls of a method. -/
  callees : ∀ name, index.calleesOf name =
    (kept.filter fun edge => edge.caller.label = name).map Edge.toCallee
  /-- The calls that reach a method. -/
  callers : ∀ name, index.callersOf name =
    (kept.filter fun edge => edge.callee.label = name).map Edge.toCaller
  /-- No reference is there twice. -/
  calleesOnce : ∀ name, ((index.calleesOf name).map Ref.key).Nodup
  callersOnce : ∀ name, ((index.callersOf name).map Ref.key).Nodup
  /-- The methods in the order of their first mention. -/
  methods : index.methods.keys = ((kept.flatMap Edge.members).map Member.label).eraseDups
  /-- What is known of a method is what its first mention says. -/
  method : ∀ name, index.method? name =
    ((kept.flatMap Edge.members).find? fun member => member.label = name).map Member.entry
  /-- A class is known, in any case, by the types of the methods, with and without namespace. -/
  classes : ∀ name, index.hasClass name = true ↔
    ∃ method ∈ index.methods.values, method.type.isVoid = false ∧
      (Text.lower name = Text.lower method.typePath.display ∨
        Text.lower name = Text.lower method.type.display)
  /-- The methods that no edge leads to. -/
  entryPoints : index.entryPoints =
    index.methods.keys.filter fun name => kept.all fun edge => edge.callee.label ≠ name
  /-- A method is an entry point or has callers. -/
  balance : index.stats.entryPoints + index.stats.withCallers = index.stats.methods
  /-- The two directions agree. -/
  symmetric : ∀ caller callee site,
    ⟨callee, site⟩ ∈ index.calleesOf caller ↔ ⟨caller, site⟩ ∈ index.callersOf callee

end Index

section References

variable {kept : List Edge}

/-- Edges with one source, told apart by their targets, have distinct references. -/
theorem nodup_key_of_distinct {source : Edge → String} {target : Edge → Ref} {name : String}
    (once : (kept.map Edge.key?).Nodup)
    (apart : ∀ first ∈ kept, ∀ second ∈ kept, source first = source second →
      (target first).key = (target second).key → first.key? = second.key?) :
    (((kept.filter fun edge => source edge = name).map target).map Ref.key).Nodup := by
  rw [List.Nodup, List.pairwise_map] at once
  rw [List.Nodup, List.pairwise_map, List.pairwise_map]
  refine (once.sublist List.filter_sublist).imp_of_mem fun {first second} isFirst isSecond => ?_
  intro different same
  obtain ⟨firstKept, firstName⟩ := List.mem_filter.mp isFirst
  obtain ⟨secondKept, secondName⟩ := List.mem_filter.mp isSecond
  have sources : source first = source second :=
    (of_decide_eq_true firstName).trans (of_decide_eq_true secondName).symm
  exact different (apart first firstKept second secondKept sources same)

/-- A reference comes from an edge. -/
theorem mem_refs_iff {source : Edge → String} {target : Edge → Ref} {name : String} {ref : Ref} :
    ref ∈ (kept.filter fun edge => source edge = name).map target ↔
      ∃ edge ∈ kept, source edge = name ∧ target edge = ref := by
  simp only [List.mem_map, List.mem_filter, decide_eq_true_eq, and_assoc]

end References

/-- Among the keys of a registry, those with an entry in a table of known keys number as many as the
table. -/
theorem length_filter_not_has_add_size {α β : Type} (methods : Table String α)
    (callers : Table String β) (within : ∀ name, callers.has name = true → name ∈ methods.keys) :
    (methods.keys.filter fun name => !callers.has name).length + callers.size = methods.size := by
  have same : (methods.keys.filter fun name => callers.has name).Perm callers.keys := by
    refine (List.perm_ext_iff_of_nodup (methods.nodup_keys.filter _) callers.nodup_keys).mpr ?_
    intro name
    rw [List.mem_filter, Table.has_iff_mem_keys]
    refine ⟨fun both => both.2, fun listed => ⟨?_, listed⟩⟩
    exact within name ((Table.has_iff_mem_keys _ _).mpr listed)
  rw [Table.size_eq_length_keys, Table.size_eq_length_keys, ← same.length_eq, Nat.add_comm]
  exact List.length_eq_length_filter_add _ |>.symm

/-! ### Finishing -/

namespace Builder

/-- What is registered of typed edges has texts as type and namespace. -/
theorem Registers.isText {methods : Table String Method} {kept : List Edge}
    (registers : Registers methods (kept.flatMap Edge.members))
    (typed : ∀ edge ∈ kept, edge.Typed) :
    ∀ method ∈ methods.values, method.type.IsText ∧ method.scope.IsText := by
  intro method member
  obtain ⟨name, found⟩ := (methods.exists_find?_iff method).mpr member
  rw [registers.find, Option.map_eq_some_iff] at found
  obtain ⟨mentioned, first, rfl⟩ := found
  obtain ⟨edge, isKept, isEnd⟩ := List.mem_flatMap.mp (List.mem_of_find?_eq_some first)
  rcases List.mem_pair.mp isEnd with rfl | rfl
  · exact ⟨(typed edge isKept).caller.type, (typed edge isKept).caller.scope⟩
  · exact ⟨(typed edge isKept).callee.type, (typed edge isKept).callee.scope⟩

/-- The index of the tables of a builder. -/
def snapshot (builder : Builder) : Index where
  edges := builder.edges.values
  methods := builder.methods
  callees := builder.callees
  callers := builder.callers
  classes := Index.loweredTypes builder.methods.values

namespace Holds

variable {builder : Builder} {kept : List Edge}

/-- A builder that holds typed edges can be finished. -/
theorem finish_eq (holds : builder.Holds kept) (typed : ∀ edge ∈ kept, edge.Typed) :
    builder.finish.1 = .ok builder.snapshot := by
  unfold Builder.finish Builder.index
  rw [holds.isOpen, Index.classNames_of_typed (holds.methods.isText typed)]
  rfl

theorem calleesOnce (holds : builder.Holds kept) (typed : ∀ edge ∈ kept, edge.Typed)
    (once : (kept.map Edge.key?).Nodup) (name : String) :
    ((builder.snapshot.calleesOf name).map Ref.key).Nodup := by
  have refs : builder.snapshot.calleesOf name = _ := holds.callees.refs name
  rw [refs]
  refine nodup_key_of_distinct once fun first isFirst second isSecond callers keys => ?_
  obtain ⟨callees, sites⟩ := Prod.mk.inj keys
  rw [(typed first isFirst).key?_eq, (typed second isSecond).key?_eq, callers]
  simp only [Edge.toCallee] at callees sites
  rw [callees, sites]

theorem callersOnce (holds : builder.Holds kept) (typed : ∀ edge ∈ kept, edge.Typed)
    (once : (kept.map Edge.key?).Nodup) (name : String) :
    ((builder.snapshot.callersOf name).map Ref.key).Nodup := by
  have refs : builder.snapshot.callersOf name = _ := holds.callers.refs name
  rw [refs]
  refine nodup_key_of_distinct once fun first isFirst second isSecond callees keys => ?_
  obtain ⟨callers, sites⟩ := Prod.mk.inj keys
  rw [(typed first isFirst).key?_eq, (typed second isSecond).key?_eq, callees]
  simp only [Edge.toCaller] at callers sites
  rw [callers, sites]

/-- The callee of every edge is registered. -/
theorem mem_methods_of_has (holds : builder.Holds kept) {name : String}
    (has : builder.callers.has name = true) : name ∈ builder.methods.keys := by
  obtain ⟨edge, isKept, rfl⟩ := (holds.callers.has_iff name).mp has
  rw [holds.methods.keys, List.mem_eraseDups]
  refine List.mem_map_of_mem (List.mem_flatMap.mpr ⟨edge, isKept, ?_⟩)
  exact List.mem_cons_of_mem _ (List.mem_singleton_self _)

theorem entryPoints_eq (holds : builder.Holds kept) :
    builder.snapshot.entryPoints =
      builder.snapshot.methods.keys.filter fun name =>
        kept.all fun edge => edge.callee.label ≠ name := by
  refine List.filter_congr fun name _ => ?_
  rw [Bool.eq_iff_iff, Bool.not_eq_true', ← Bool.not_eq_true]
  show ¬ builder.callers.has name = true ↔ _
  rw [holds.callers.has_iff]
  simp

/-- **The snapshot of a builder** that holds typed edges, each identity once, reflects them. -/
theorem reflects (holds : builder.Holds kept) (typed : ∀ edge ∈ kept, edge.Typed)
    (once : (kept.map Edge.key?).Nodup) : builder.snapshot.Reflects kept where
  edges := holds.edges
  count := congrArg List.length holds.edges
  callees := holds.callees.refs
  callers := holds.callers.refs
  calleesOnce := holds.calleesOnce typed once
  callersOnce := holds.callersOnce typed once
  methods := holds.methods.keys
  method := holds.methods.find
  classes name := Index.contains_loweredTypes_iff _ _
  entryPoints := holds.entryPoints_eq
  balance := length_filter_not_has_add_size _ _ fun _ has => holds.mem_methods_of_has has
  symmetric caller callee site := by
    have refs : builder.snapshot.calleesOf caller = _ := holds.callees.refs caller
    have back : builder.snapshot.callersOf callee = _ := holds.callers.refs callee
    rw [refs, back, mem_refs_iff, mem_refs_iff]
    refine exists_congr fun edge => and_congr_right fun _ => ?_
    rw [Edge.toCallee, Edge.toCaller, Ref.mk.injEq, Ref.mk.injEq]
    exact and_left_comm

end Holds

end Builder

/-! ### Every list of edges, every run of requests -/

/-- **A list of typed edges** has an index, which reflects the first edge of each identity. -/
theorem Index.ofEdges_of_typed {edges : List Edge} (typed : ∀ edge ∈ edges, edge.Typed) :
    Index.ofEdges edges = .ok (Builder.fresh.addAll edges).2.snapshot ∧
      (Builder.fresh.addAll edges).2.finish.1 = .ok (Builder.fresh.addAll edges).2.snapshot ∧
      (Builder.fresh.addAll edges).2.snapshot.Reflects (Edge.distinct edges) := by
  obtain ⟨count, counted, holds⟩ := Builder.Holds.addAll_fresh typed
  have keptTyped : ∀ edge ∈ Edge.distinct edges, edge.Typed :=
    fun edge kept => typed edge (Edge.mem_of_mem_distinct kept)
  have finished := holds.finish_eq keptTyped
  refine ⟨?_, finished, holds.reflects keptTyped (Edge.nodup_key?_distinct _)⟩
  rw [Index.ofEdges, counted]
  exact finished

/-- **Any run of requests with typed edges.** Every answer is the one due: an edge is new exactly
when it is the first of its identity. The builder counts the first edges of all identities, and the
index made of it, which is also the index of the list of all edges fed, reflects them. -/
theorem run_reflects_distinct (requests : List Builder.Request)
    (typed : ∀ request ∈ requests, ∀ edge ∈ request.edges, edge.Typed) :
    (Builder.fresh.run requests).1 = (Builder.dues [] requests).map .ok ∧
      (Builder.fresh.run requests).2.edgeCount =
        (Edge.distinct (requests.flatMap Builder.Request.edges)).length ∧
      ∃ index, (Builder.fresh.run requests).2.finish.1 = .ok index ∧
        Index.ofEdges (requests.flatMap Builder.Request.edges) = .ok index ∧
        index.Reflects (Edge.distinct (requests.flatMap Builder.Request.edges)) := by
  have fedTyped : ∀ edge ∈ requests.flatMap Builder.Request.edges, edge.Typed := by
    intro edge fed
    obtain ⟨request, asked, member⟩ := List.mem_flatMap.mp fed
    exact typed request asked edge member
  have start : Builder.fresh.Holds (Edge.distinct []) := Builder.Holds.fresh
  obtain ⟨answers, holds⟩ := Builder.Holds.run typed start
  rw [List.nil_append] at holds
  refine ⟨answers, ?_, _, holds.finish_eq fun edge kept => ?_, ?_⟩
  · rw [Builder.edgeCount, Table.size_eq_length_values, holds.edges]
  · exact fedTyped edge (Edge.mem_of_mem_distinct kept)
  · rw [Builder.Holds.run_eq_addAll typed start]
    obtain ⟨made, -, reflects⟩ := Index.ofEdges_of_typed fedTyped
    exact ⟨made, reflects⟩

/-- A call from `Shop.Cart.Pay` to `Shop.Bank.Charge` at a line. -/
def payment (line : Int) : Edge where
  caller := ⟨.text "Shop.Cart.Pay", .text "Cart", .text "Shop"⟩
  callee := ⟨.text "Shop.Bank.Charge", .text "Bank", .text "Shop"⟩
  site := ⟨.text "Cart.cs", .int line⟩
  resolvedFrom := .text ""

theorem payment_typed (line : Int) : (payment line).Typed where
  caller := ⟨⟨_, rfl⟩, ⟨_, rfl⟩, ⟨_, rfl⟩⟩
  callee := ⟨⟨_, rfl⟩, ⟨_, rfl⟩, ⟨_, rfl⟩⟩
  file := ⟨_, rfl⟩
  line := Or.inl ⟨_, rfl⟩

/-- A call fed three times and a call of the same pair from another line, fed once. -/
theorem repeated_payment_reflected :
    (Builder.fresh.run [.add (payment 3), .addAll [payment 3, payment 4], .add (payment 3)]).1 =
        [.ok (.added true), .ok (.counted 1), .ok (.added false)] ∧
      ∃ index, Index.ofEdges [payment 3, payment 3, payment 4, payment 3] = .ok index ∧
        index.Reflects [payment 3, payment 4] := by
  obtain ⟨answers, -, index, -, made, reflects⟩ := run_reflects_distinct
    [.add (payment 3), .addAll [payment 3, payment 4], .add (payment 3)] (by
      intro request asked edge member
      simp only [List.mem_cons, List.not_mem_nil, or_false] at asked
      rcases asked with rfl | rfl | rfl
      · exact List.mem_singleton.mp member ▸ payment_typed 3
      · rcases List.mem_pair.mp member with rfl | rfl
        · exact payment_typed 3
        · exact payment_typed 4
      · exact List.mem_singleton.mp member ▸ payment_typed 3)
  exact ⟨answers, index, made, reflects⟩

end CallGraph
