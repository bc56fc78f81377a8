/-
**The names of an assembled index.**

The edges of admitted facts are `Clean`: names, types and file are trimmed texts with content,
namespaces are trimmed texts, and lines count from 1. A query trims the name it is given, so a clean
name is found under all its padded spellings (`Service.related_of_known`), and the class of a method
is found under the name that the method gives for it (`Service.classReferences_of_known`).

* `assembled_names_found`: the names of an assembled index are clean, they are those of the callers
  and of the last symbols of the callees of admitted records, and every query finds them.
-/

import CallGraph.Proofs.Queries
import CallGraph.Proofs.Records
import CallGraph.Proofs.Text.Trim

namespace CallGraph

/-! ### Clean edges -/

/-- The value is a trimmed text. -/
def Value.IsTrimmed (value : Value) : Prop := ∃ s, value = .text s ∧ Text.trim s = s

/-- The value is a trimmed text with content. -/
def Value.IsContent (value : Value) : Prop := ∃ s, value = .text s ∧ Text.trim s = s ∧ s ≠ ""

structure Member.Clean (member : Member) : Prop where
  name : member.name.IsContent
  type : member.type.IsContent
  scope : member.scope.IsTrimmed

/-- An edge without padding, with all that is required. -/
structure Edge.Clean (edge : Edge) : Prop where
  caller : edge.caller.Clean
  callee : edge.callee.Clean
  file : edge.site.file.IsContent
  line : ∃ n, edge.site.line = .int n ∧ 1 ≤ n

theorem Value.trim_trimmed (value : Value) : Text.trim value.trimmed = value.trimmed := by
  cases value with
  | text s => exact Text.trim_trim s
  | null => rfl
  | bool b => rfl
  | int n => rfl
  | float x => rfl
  | list items => rfl
  | record fields => rfl

theorem Member.clean_trimmed {member : Member} (name : member.name.trimmed ≠ "")
    (type : member.type.trimmed ≠ "") : member.trimmed.Clean where
  name := ⟨_, rfl, member.name.trim_trimmed, name⟩
  type := ⟨_, rfl, member.type.trim_trimmed, type⟩
  scope := ⟨_, rfl, member.scope.trim_trimmed⟩

theorem Fact.clean_of_toEdge {limit : HopLimit} {fact : Fact} {edge : Edge}
    (admitted : fact.toEdge limit = .ok edge) : edge.Clean := by
  obtain ⟨caller, callee, n, -, -, -, large, isCaller, isCallee, site, callerContent, calleeContent,
    file⟩ := toEdge_eq_ok admitted
  refine ⟨?_, ?_, ?_, ?_⟩
  · rw [isCaller]
    exact Member.clean_trimmed callerContent.1 callerContent.2
  · rw [isCallee]
    exact Member.clean_trimmed calleeContent.1 calleeContent.2
  · rw [site]
    exact ⟨_, rfl, fact.file.trim_trimmed, file⟩
  · rw [site]
    exact ⟨n, rfl, large⟩

/-- A clean type inside a clean namespace has a clean name. -/
theorem isContent_qualified {scope type : Value} (scopeTrimmed : scope.IsTrimmed)
    (typeContent : type.IsContent) : (qualified scope type).IsContent := by
  obtain ⟨outer, rfl, outerTrimmed⟩ := scopeTrimmed
  obtain ⟨inner, rfl, innerTrimmed, innerFull⟩ := typeContent
  have named : ¬ (Value.text inner).isVoid = true := fun void =>
    innerFull (String.isEmpty_iff.mp void)
  by_cases globally : outer = ""
  · subst globally
    refine ⟨inner, ?_, innerTrimmed, innerFull⟩
    have void : (Value.text "").isVoid = true := rfl
    rw [qualified, if_pos void, if_neg named]
  · have inside : ¬ (Value.text outer).isVoid = true := fun void =>
      globally (String.isEmpty_iff.mp void)
    refine ⟨outer ++ "." ++ inner, ?_, ?_, ?_⟩
    · rw [qualified, if_neg inside, if_neg named]
      rfl
    · exact Text.trim_dotted outerTrimmed innerTrimmed globally innerFull
    · intro empty
      have chars := congrArg String.toList empty
      rw [String.toList_append, String.toList_append] at chars
      exact innerFull (String.toList_eq_nil_iff.mp (List.append_eq_nil_iff.mp chars).2)

/-! ### Known methods -/

namespace Index.Reflects

variable {index : Index} {kept : List Edge}

/-- The known methods are the ends of the edges. -/
theorem hasMethod_iff (reflects : index.Reflects kept) (name : String) :
    index.hasMethod name = true ↔
      ∃ edge ∈ kept, edge.caller.label = name ∨ edge.callee.label = name := by
  rw [Index.hasMethod, Table.has_iff_mem_keys, reflects.methods, List.mem_eraseDups, List.mem_map]
  constructor
  · rintro ⟨member, listed, rfl⟩
    obtain ⟨edge, isKept, isEnd⟩ := List.mem_flatMap.mp listed
    refine ⟨edge, isKept, ?_⟩
    rcases List.mem_pair.mp isEnd with rfl | rfl
    · exact Or.inl rfl
    · exact Or.inr rfl
  · rintro ⟨edge, isKept, rfl | rfl⟩
    · exact ⟨edge.caller, List.mem_flatMap.mpr ⟨edge, isKept, List.mem_cons_self⟩, rfl⟩
    · refine ⟨edge.callee, List.mem_flatMap.mpr ⟨edge, isKept, ?_⟩, rfl⟩
      exact List.mem_cons_of_mem _ (List.mem_singleton_self _)

/-- What is known of a method is what one of its edges says. -/
theorem exists_method? (reflects : index.Reflects kept) {name : String}
    (known : index.hasMethod name = true) :
    ∃ member, (∃ edge ∈ kept, member ∈ edge.members) ∧ member.label = name ∧
      index.method? name = some member.entry := by
  obtain ⟨method, found⟩ := Option.isSome_iff_exists.mp known
  have first := reflects.method name
  rw [Index.method?, found] at first
  obtain ⟨member, isFirst, rfl⟩ := Option.map_eq_some_iff.mp first.symm
  have listed := List.mem_of_find?_eq_some isFirst
  refine ⟨member, List.mem_flatMap.mp listed, by simpa using List.find?_some isFirst, found⟩

end Index.Reflects

/-- The first edges of all identities have the same ends as all edges. -/
theorem Edge.exists_mem_distinct_iff {edges : List Edge} (typed : ∀ edge ∈ edges, edge.Typed)
    (name : String) :
    (∃ edge ∈ Edge.distinct edges, edge.caller.label = name ∨ edge.callee.label = name) ↔
      ∃ edge ∈ edges, edge.caller.label = name ∨ edge.callee.label = name := by
  constructor
  · rintro ⟨edge, kept, named⟩
    exact ⟨edge, Edge.mem_of_mem_distinct kept, named⟩
  · rintro ⟨edge, listed, named⟩
    have made := (Edge.mem_call_distinct typed edge.call).mpr (List.mem_map_of_mem listed)
    obtain ⟨first, kept, same⟩ := List.mem_map.mp made
    obtain ⟨callers, ends⟩ := Prod.mk.inj same
    obtain ⟨callees, -⟩ := Prod.mk.inj ends
    exact ⟨first, kept, by rw [callers, callees]; exact named⟩

/-! ### The names of an assembly -/

theorem mem_admittedEdges_iff {limit : HopLimit} {records : List Value} {edge : Edge} :
    edge ∈ admittedEdges limit records ↔
      ∃ record ∈ records, ∃ fact, Fact.decode record = .ok fact ∧ fact.toEdge limit = .ok edge := by
  rw [admittedEdges, List.mem_filterMap]
  exact exists_congr fun record => and_congr_right fun _ => admitted?_eq_some_iff

/-- The name of the caller of a fact, or of the symbol that its callee leads to. -/
def Fact.Names (fact : Fact) (name : String) : Prop :=
  (∃ caller, fact.caller = some caller ∧ name = caller.member.name.trimmed) ∨
    ∃ callee, fact.callee = some callee ∧ name = callee.chainEnd.member.name.trimmed

theorem Fact.names_iff {limit : HopLimit} {fact : Fact} {edge : Edge}
    (admitted : fact.toEdge limit = .ok edge) (name : String) :
    edge.caller.label = name ∨ edge.callee.label = name ↔ fact.Names name := by
  obtain ⟨caller, callee, -, isCaller, isCallee, -, -, callerIs, calleeIs, -⟩ :=
    toEdge_eq_ok admitted
  rw [callerIs, calleeIs, Names, isCaller, isCallee]
  show caller.member.name.trimmed = name ∨ callee.chainEnd.member.name.trimmed = name ↔ _
  simp only [Option.some.injEq, exists_eq_left', eq_comm]

namespace Index.Reflects

variable {index : Index} {kept : List Edge} {name : String}

/-- A known method is known by a clean member. -/
theorem exists_clean (reflects : index.Reflects kept) (clean : ∀ edge ∈ kept, edge.Clean)
    (known : index.hasMethod name = true) :
    ∃ member : Member, member.Clean ∧ member.label = name ∧
      index.method? name = some member.entry := by
  obtain ⟨member, ⟨edge, isKept, isEnd⟩, label, found⟩ := reflects.exists_method? known
  refine ⟨member, ?_, label, found⟩
  rcases List.mem_pair.mp isEnd with rfl | rfl
  · exact (clean edge isKept).caller
  · exact (clean edge isKept).callee

/-- The class of a known method is found under the name that the method gives for it. -/
theorem exists_class (reflects : index.Reflects kept) (clean : ∀ edge ∈ kept, edge.Clean)
    (known : index.hasMethod name = true) :
    ∃ method typeName, index.method? name = some method ∧ method.typeName = .ok (.text typeName) ∧
      requireName (.text typeName) .classRequired = .ok typeName ∧
      index.hasClass typeName = true := by
  obtain ⟨member, isClean, -, found⟩ := reflects.exists_clean clean known
  obtain ⟨typeName, named, trimmed, full⟩ := isContent_qualified isClean.scope isClean.type
  obtain ⟨scope, isScope, -⟩ := isClean.scope
  obtain ⟨type, isType, -, typeFull⟩ := isClean.type
  have path : member.entry.typePath = .text typeName := named
  refine ⟨member.entry, typeName, found, ?_, requireName_of_trim trimmed full _, ?_⟩
  · rw [← path]
    exact qualify_of_isText ⟨scope, isScope⟩ ⟨type, isType⟩
  · have given : member.type.isVoid = false := by
      rw [isType]
      exact Bool.eq_false_iff.mpr fun void => typeFull (String.isEmpty_iff.mp void)
    refine (reflects.classes typeName).mpr ⟨member.entry, ?_, given, Or.inl ?_⟩
    · exact (Table.exists_find?_iff _ _).mp ⟨name, found⟩
    · rw [path]
      rfl

end Index.Reflects

/-- **The names of an assembled index.** Records that can be written are assembled. Whatever is
assembled has clean edges. Its methods are the trimmed names of the callers, and of the symbols that
the callees lead to, of the admitted records. Each of them is found by every service over the index,
under all padded spellings, and so is its class. -/
theorem assembled_names_found (limit : HopLimit) (records : List Value) :
    ((∀ record ∈ records, record.isWritable = true) →
      ∃ assembled, assembleRecords limit records = .ok assembled) ∧
    ∀ assembled, assembleRecords limit records = .ok assembled →
      (∀ edge ∈ assembled.index.edges, edge.Clean) ∧
      (∀ name, assembled.index.hasMethod name = true ↔
        ∃ record ∈ records, ∃ fact edge, Fact.decode record = .ok fact ∧
          fact.toEdge limit = .ok edge ∧ fact.Names name) ∧
      ∀ name, assembled.index.hasMethod name = true →
        ∀ service : Service, service.index = assembled.index →
          (∀ query ∈ [service.callers, service.callees],
            ∀ spelling depth includeSelf, Text.IsPadded name spelling →
              (∀ unknown,
                query (.text spelling) depth includeSelf ≠ .error (.methodUnknown unknown)) ∧
              (service.Within depth →
                ∃ related, query (.text spelling) depth includeSelf = .ok related ∧
                  related.method = name)) ∧
          ∃ method typeName, assembled.index.method? name = some method ∧
            method.typeName = .ok typeName ∧
            (∀ filter unknown,
              service.classReferences typeName filter ≠ .error (.classUnknown unknown)) ∧
            ∃ references, service.classReferences typeName .null = .ok references := by
  refine ⟨exists_assembled_of_isWritable, fun assembled run => ?_⟩
  have reflects := reflects_of_assembled run
  have typed : ∀ edge ∈ Edge.distinct (admittedEdges limit records), edge.Typed :=
    fun edge isKept => typed_admittedEdges limit records edge (Edge.mem_of_mem_distinct isKept)
  have clean : ∀ edge ∈ Edge.distinct (admittedEdges limit records), edge.Clean := by
    intro edge isKept
    obtain ⟨record, -, fact, -, made⟩ := mem_admittedEdges_iff.mp (Edge.mem_of_mem_distinct isKept)
    exact Fact.clean_of_toEdge made
  refine ⟨reflects.edges ▸ clean, fun name => ?_, fun name known service serves => ⟨?_, ?_⟩⟩
  · rw [reflects.hasMethod_iff, Edge.exists_mem_distinct_iff (typed_admittedEdges limit records)]
    constructor
    · rintro ⟨edge, listed, named⟩
      obtain ⟨record, isRecord, fact, decoded, made⟩ := mem_admittedEdges_iff.mp listed
      exact ⟨record, isRecord, fact, edge, decoded, made, (Fact.names_iff made name).mp named⟩
    · rintro ⟨record, isRecord, fact, edge, decoded, made, named⟩
      refine ⟨edge, mem_admittedEdges_iff.mpr ⟨record, isRecord, fact, decoded, made⟩, ?_⟩
      exact (Fact.names_iff made name).mpr named
  · intro query asked spelling depth includeSelf padded
    obtain ⟨member, isClean, rfl, -⟩ := reflects.exists_clean clean known
    obtain ⟨name, isName, trimmed, full⟩ := isClean.name
    have label : member.label = name := by rw [Member.label, isName]; rfl
    rw [label] at padded known ⊢
    have named := requireName_of_trim (Text.trim_padded trimmed padded) full .methodRequired
    rw [← serves] at known
    rcases List.mem_pair.mp asked with rfl | rfl
    · exact Service.related_of_known _ depth includeSelf named known
    · exact Service.related_of_known _ depth includeSelf named known
  · obtain ⟨method, typeName, found, isTypeName, named, classKnown⟩ :=
      reflects.exists_class clean known
    have edgesTyped : ∀ edge ∈ service.index.edges, edge.Typed := by
      rw [serves, reflects.edges]
      exact typed
    have answered := Service.classReferences_of_known named (serves ▸ classKnown) edgesTyped
    exact ⟨method, _, found, isTypeName, fun filter => (answered filter).1,
      (answered .null).2 true rfl⟩

theorem sentRecords_names_found :
    ∃ assembled, assembleRecords .standard sentRecords = .ok assembled ∧
      assembled.index.hasMethod "Shop.Cart.Pay" = true ∧
      ∃ related,
        Service.callees ⟨assembled.index, .standard⟩ (.text "\tShop.Cart.Pay ") none false =
          .ok related ∧ related.method = "Shop.Cart.Pay" := by
  obtain ⟨assembles, names⟩ := assembled_names_found .standard sentRecords
  obtain ⟨assembled, run⟩ := assembles isWritable_sentRecords
  obtain ⟨-, methods, found⟩ := names assembled run
  have known : assembled.index.hasMethod "Shop.Cart.Pay" = true :=
    (methods _).mpr ⟨sentPayment (.int 3), List.mem_cons_self, _, _, rfl, rfl,
      Or.inl ⟨_, rfl, by decide⟩⟩
  have blank : ∀ c : Char, Text.isBlank c = true → ∀ d ∈ [c], Text.isBlank d = true := by
    intro c blank d listed
    rw [List.mem_singleton.mp listed]
    exact blank
  have padded : Text.IsPadded "Shop.Cart.Pay" "\tShop.Cart.Pay " :=
    ⟨['\t'], [' '], blank '\t' rfl, blank ' ' rfl, rfl⟩
  obtain ⟨queries, -⟩ := found _ known ⟨assembled.index, .standard⟩ rfl
  obtain ⟨-, answered⟩ :=
    queries _ (List.mem_cons_of_mem _ (List.mem_singleton_self _)) _ none false padded
  refine ⟨assembled, run, known, answered fun given wrong => ?_⟩
  cases wrong

end CallGraph
