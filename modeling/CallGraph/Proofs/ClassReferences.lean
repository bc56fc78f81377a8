/-
**References between classes, and the classes that are known.**

A class is known by the methods that are registered under it, and what is registered of a method is
what its first mention says (`Index.Reflects.hasClass_iff`). References are read off the edges, each
with what it says itself. Where all mentions of a method agree the two come to the same; where they
do not, an edge may lead into a class that is not known.

The references collected from typed edges name the classes of all references that the edges make
(`ClassReference.mem_map_name_keepNew`), and an edge that leaves a class makes one to the class of
its callee (`ClassReference.exists_made?`).

* `class_references_cover`: references to the class of any callee are refused exactly when no method
  is registered under that class, and otherwise list every class that calls into it;
* `reclassified_callee_unknown`: a callee whose class changes between two edges.
-/

import CallGraph.Proofs.Naming

namespace CallGraph

/-! ### The references collected -/

namespace ClassReference

/-- No class is lost, and none is added. -/
theorem mem_map_name_keepNew (found references : List ClassReference) (class_ : String) :
    class_ ∈ (keepNew found references).map name ↔ class_ ∈ (found ++ references).map name := by
  induction references generalizing found with
  | nil => simp [keepNew]
  | cons reference rest ih =>
    rw [keepNew]
    split
    · rename_i listed
      obtain ⟨other, isFound, same⟩ := List.any_eq_true.mp listed
      have known : reference.name ∈ found.map name :=
        List.mem_map.mpr ⟨other, isFound, of_decide_eq_true same⟩
      rw [ih]
      simp only [List.map_append, List.map_cons, List.mem_append, List.mem_cons]
      constructor
      · rintro (here | later)
        · exact Or.inl here
        · exact Or.inr (Or.inr later)
      · rintro (here | rfl | later)
        · exact Or.inl here
        · exact Or.inl known
        · exact Or.inr later
    · rw [ih, List.append_assoc, List.singleton_append]

end ClassReference

/-- **References to a class by any of its spellings**, for a filter that lets calls through. -/
theorem Service.classReferences_of_named {service : Service} {given filter : Value} {name : String}
    (named : requireName given .classRequired = .ok name)
    (passes : ClassReference.admits filter = .ok true)
    (placed : ∀ edge ∈ service.index.edges, edge.Placed) :
    service.classReferences given filter =
      if service.index.hasClass name then
        .ok ⟨name, ClassReference.keepNew []
          (service.index.edges.filterMap (ClassReference.made? (Text.lower name)))⟩
      else
        .error (.classUnknown name) := by
  unfold classReferences
  rw [named, passes]
  dsimp only [bind, Except.bind]
  split
  · rw [if_pos rfl, ClassReference.collect_of_placed _ placed]
    rfl
  · rfl

/-- **References to a class by its trimmed name**, for a filter that lets calls through. -/
theorem Service.classReferences_eq {service : Service} {name : String} {filter : Value}
    (trimmed : Text.trim name = name) (full : name ≠ "")
    (passes : ClassReference.admits filter = .ok true)
    (typed : ∀ edge ∈ service.index.edges, edge.Typed) :
    service.classReferences (.text name) filter =
      if service.index.hasClass name then
        .ok ⟨name, ClassReference.keepNew []
          (service.index.edges.filterMap (ClassReference.made? (Text.lower name)))⟩
      else
        .error (.classUnknown name) :=
  classReferences_of_named (requireName_of_trim trimmed full _) passes
    fun edge listed => (typed edge listed).placed

/-! ### Known classes -/

/-- The member by which some edges first mention a name. -/
def Edge.firstMention (edges : List Edge) (name : String) : Option Member :=
  (edges.flatMap Edge.members).find? fun member => member.label = name

/-- Some method has, by its first mention, a class of this name, in any case and with or without its
namespace. -/
def Index.Declares (index : Index) (name : String) : Prop :=
  ∃ method member, Edge.firstMention index.edges method = some member ∧
    (Text.lower name = Text.lower member.typePath.display ∨
      Text.lower name = Text.lower member.type.display)

/-- A type with content is not void. -/
theorem Value.IsContent.isVoid_eq {value : Value} (content : value.IsContent) :
    value.isVoid = false := by
  obtain ⟨s, rfl, -, full⟩ := content
  exact Bool.eq_false_iff.mpr fun void => full (String.isEmpty_iff.mp void)

namespace Index.Reflects

variable {index : Index} {kept : List Edge}

/-- Entries are in the registry by first mention. -/
theorem mem_values_iff (reflects : index.Reflects kept) (method : Method) :
    method ∈ index.methods.values ↔
      ∃ name member, Edge.firstMention index.edges name = some member ∧ member.entry = method := by
  rw [← Table.exists_find?_iff, reflects.edges]
  apply exists_congr
  intro name
  show index.method? name = some method ↔ _
  rw [reflects.method, Option.map_eq_some_iff]
  rfl

/-- A first mention is an end of an edge. -/
theorem clean_of_firstMention (reflects : index.Reflects kept) (clean : ∀ edge ∈ kept, edge.Clean)
    {name : String} {member : Member} (first : Edge.firstMention index.edges name = some member) :
    member.Clean := by
  rw [Edge.firstMention, reflects.edges] at first
  obtain ⟨edge, isKept, isEnd⟩ := List.mem_flatMap.mp (List.mem_of_find?_eq_some first)
  rcases List.mem_pair.mp isEnd with rfl | rfl
  · exact (clean edge isKept).caller
  · exact (clean edge isKept).callee

/-- **The known classes** of clean edges are those of the first mentions. -/
theorem hasClass_iff (reflects : index.Reflects kept) (clean : ∀ edge ∈ kept, edge.Clean)
    (name : String) : index.hasClass name = true ↔ index.Declares name := by
  rw [reflects.classes]
  constructor
  · rintro ⟨method, listed, -, named⟩
    obtain ⟨label, member, first, rfl⟩ := (reflects.mem_values_iff method).mp listed
    exact ⟨label, member, first, named⟩
  · rintro ⟨label, member, first, named⟩
    refine ⟨member.entry, (reflects.mem_values_iff _).mpr ⟨label, member, first, rfl⟩, ?_, named⟩
    exact (reflects.clean_of_firstMention clean first).type.isVoid_eq

end Index.Reflects

theorem clean_admittedEdges (limit : HopLimit) (records : List Value) :
    ∀ edge ∈ admittedEdges limit records, edge.Clean := by
  intro edge listed
  obtain ⟨record, -, fact, -, made⟩ := mem_admittedEdges_iff.mp listed
  exact Fact.clean_of_toEdge made

/-! ### References to the class of a callee -/

/-- An edge refers to the class of its callee, by the name that it gives for it, unless it stays in
the class. -/
theorem ClassReference.exists_made? {edge : Edge}
    (leaves : Text.lower edge.caller.typePath.display ≠ Text.lower edge.callee.typePath.display) :
    ∃ reference, made? (Text.lower edge.callee.typePath.display) edge = some reference ∧
      reference.name = edge.caller.typePath.display := by
  refine ⟨⟨edge.caller.typePath.display, edge.caller.type, edge.caller.scope, edge.site⟩, ?_, rfl⟩
  unfold made?
  dsimp only
  rw [if_neg (fun other => other.1 rfl), if_neg (fun stays => stays.elim leaves leaves)]

/-- **References cover the edges.** Records that can be written are assembled. Take any edge of an
assembled index, with the classes that it gives for its caller and its callee. References to the
class of the callee are refused as unknown exactly when no method has, by its first mention, a class
of that name; this is never so when the first mention of the callee agrees with the edge up to case.
Otherwise they are answered, and the class of the caller is among them if it is another one. -/
theorem class_references_cover (limit : HopLimit) (records : List Value) :
    ((∀ record ∈ records, record.isWritable = true) →
      ∃ assembled, assembleRecords limit records = .ok assembled) ∧
    ∀ assembled, assembleRecords limit records = .ok assembled →
      ∀ service : Service, service.index = assembled.index →
        ∀ edge ∈ assembled.index.edges, ∃ callerClass calleeClass,
          edge.caller.typeName = .ok (.text callerClass) ∧
          edge.callee.typeName = .ok (.text calleeClass) ∧
          (¬ assembled.index.Declares calleeClass →
            service.classReferences (.text calleeClass) .null =
              .error (.classUnknown calleeClass)) ∧
          (∀ first, Edge.firstMention assembled.index.edges edge.callee.label = some first →
            Text.lower first.typePath.display = Text.lower calleeClass →
              assembled.index.Declares calleeClass) ∧
          (assembled.index.Declares calleeClass →
            ∃ answer, service.classReferences (.text calleeClass) .null = .ok answer ∧
              (Text.lower callerClass ≠ Text.lower calleeClass →
                ∃ reference ∈ answer.references, reference.name = callerClass)) := by
  refine ⟨exists_assembled_of_isWritable, fun assembled run service serves edge listed => ?_⟩
  have reflects := reflects_of_assembled run
  have clean : ∀ edge ∈ Edge.distinct (admittedEdges limit records), edge.Clean :=
    fun edge kept => clean_admittedEdges limit records edge (Edge.mem_of_mem_distinct kept)
  have typed : ∀ edge ∈ assembled.index.edges, edge.Typed := by
    rw [reflects.edges]
    exact fun edge kept => typed_admittedEdges limit records edge (Edge.mem_of_mem_distinct kept)
  have isClean := clean edge (reflects.edges ▸ listed)
  have isPlaced := (typed edge listed).placed
  obtain ⟨callerClass, callerNamed, -⟩ :=
    isContent_qualified isClean.caller.scope isClean.caller.type
  obtain ⟨calleeClass, calleeNamed, trimmed, full⟩ :=
    isContent_qualified isClean.callee.scope isClean.callee.type
  have callerShown : edge.caller.typePath.display = callerClass :=
    congrArg Value.display callerNamed
  have calleeShown : edge.callee.typePath.display = calleeClass :=
    congrArg Value.display calleeNamed
  have answer : service.classReferences (.text calleeClass) .null = _ :=
    Service.classReferences_eq trimmed full rfl (serves ▸ typed)
  rw [serves] at answer
  have known := reflects.hasClass_iff clean calleeClass
  refine ⟨callerClass, calleeClass, isPlaced.caller.typeName_eq.trans (congrArg _ callerNamed),
    isPlaced.callee.typeName_eq.trans (congrArg _ calleeNamed), fun undeclared => ?_,
    fun first isFirst same => ⟨_, first, isFirst, Or.inl same.symm⟩, fun declared => ?_⟩
  · rw [answer, if_neg (fun has => undeclared (known.mp has))]
  · rw [answer, if_pos (known.mpr declared)]
    refine ⟨_, rfl, fun leaves => ?_⟩
    rw [← callerShown, ← calleeShown] at leaves
    obtain ⟨reference, made, named⟩ := ClassReference.exists_made? leaves
    rw [calleeShown] at made
    -- the reference of the edge itself may have been dropped for an earlier one of the same class
    have kept := (ClassReference.mem_map_name_keepNew []
      (assembled.index.edges.filterMap (ClassReference.made? (Text.lower calleeClass)))
      reference.name).mpr (List.mem_map_of_mem (List.mem_filterMap.mpr ⟨edge, listed, made⟩))
    obtain ⟨other, isKept, same⟩ := List.mem_map.mp kept
    exact ⟨other, isKept, by rw [same, named, callerShown]⟩

/-! ### A callee that changes its class -/

/-- A call of `Shop.Bank.Charge` from a line, with a class for its callee. -/
def chargeFrom (caller : String) (type scope : String) (line : Int) : Value :=
  .record
    [("caller", .record [("fully_qualified_name", .text caller), ("containing_type", .text "Cart"),
      ("containing_namespace", .text "Shop")]),
     ("callee", .record [("fully_qualified_name", .text "Shop.Bank.Charge"),
      ("containing_type", .text type), ("containing_namespace", .text scope)]),
     ("file_path", .text "Cart.cs"), ("line_number", .int line)]

/-- The callee is first in the class `Shop.Bank` and then in `Pay.Till`. -/
def reclassifiedCalls : List Value :=
  [chargeFrom "Shop.Cart.Pay" "Bank" "Shop" 1, chargeFrom "Shop.Cart.Tip" "Till" "Pay" 2]

theorem reclassifiedCalls_covered :
    ∃ assembled, assembleRecords .standard reclassifiedCalls = .ok assembled ∧
      assembled.index.Declares "Shop.Bank" ∧
      (∃ answer,
        Service.classReferences ⟨assembled.index, .standard⟩ (.text "Shop.Bank") .null =
          .ok answer ∧
        ∃ reference ∈ answer.references, reference.name = "Shop.Cart") ∧
      ¬ assembled.index.Declares "Pay.Till" := by
  have cover := (class_references_cover .standard reclassifiedCalls).2 _ rfl ⟨_, .standard⟩ rfl
  obtain ⟨_, _, callerNamed, calleeNamed, -, agrees, answered⟩ := cover _ List.mem_cons_self
  obtain rfl := Value.text.inj (Except.ok.inj callerNamed)
  obtain rfl := Value.text.inj (Except.ok.inj calleeNamed)
  have declared := agrees _ rfl rfl
  obtain ⟨answer, references, listed⟩ := answered declared
  obtain ⟨_, _, -, otherNamed, -, -, otherAnswered⟩ :=
    cover _ (List.mem_cons_of_mem _ List.mem_cons_self)
  obtain rfl := Value.text.inj (Except.ok.inj otherNamed)
  refine ⟨_, rfl, declared, ⟨answer, references, listed (by decide)⟩, fun wrong => ?_⟩
  obtain ⟨other, references, -⟩ := otherAnswered wrong
  cases references

/-- **A callee that changes its class.** The second of two calls leads into a class that is not
known, since the first has its callee in another one. -/
theorem reclassified_callee_unknown :
    ∃ assembled, assembleRecords .standard reclassifiedCalls = .ok assembled ∧
      ∃ edge ∈ assembled.index.edges, edge.callee.typeName = .ok (.text "Pay.Till") ∧
        edge.caller.typeName = .ok (.text "Shop.Cart") ∧
        Text.lower "Shop.Cart" ≠ Text.lower "Pay.Till" ∧
        Service.classReferences ⟨assembled.index, .standard⟩ (.text "Pay.Till") .null =
          .error (.classUnknown "Pay.Till") := by
  refine ⟨_, rfl, _, List.mem_cons_of_mem _ List.mem_cons_self, rfl, rfl, ?_, rfl⟩
  decide

end CallGraph
