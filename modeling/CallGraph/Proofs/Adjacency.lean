/-
**The two directions of every index agree.**

An index is *built* when some run of requests to a fresh builder ends in it, whatever the edges were
and whether or not some of them were refused on the way. `Builder.Coherent` is what every request
keeps, a refused one included: a reference to a callee is there exactly when its counterpart is,
both ends are registered, and a method listed as called has a caller.

* `Built.mem_calleeNames_iff`: `b` is among the callees of `a` exactly when `a` is among the callers
  of `b`;
* `Built.mem_entryPoints_iff`: an entry point is a known method without callers.
-/

import CallGraph.Proofs.Filling

namespace CallGraph

namespace Builder

/-- What a request keeps: the references of the two tables are counterparts of each other, between
registered methods, and no list of callers is empty. -/
structure Coherent (builder : Builder) : Prop where
  symmetric : ∀ caller callee site,
    (⟨callee, site⟩ : Ref) ∈ (builder.callees.find? caller).getD [] ↔
      (⟨caller, site⟩ : Ref) ∈ (builder.callers.find? callee).getD []
  known : ∀ caller callee site, (⟨callee, site⟩ : Ref) ∈ (builder.callees.find? caller).getD [] →
    builder.methods.has caller = true ∧ builder.methods.has callee = true
  occupied : ∀ name, builder.callers.has name = true → (builder.callers.find? name).getD [] ≠ []

theorem Coherent.fresh : Coherent fresh :=
  ⟨fun _ _ _ => ⟨fun listed => (List.not_mem_nil listed).elim,
      fun listed => (List.not_mem_nil listed).elim⟩,
    fun _ _ _ listed => (List.not_mem_nil listed).elim,
    fun _ has => (Bool.false_ne_true has).elim⟩

/-! ### One edge -/

theorem has_enroll (methods : Table String Method) (member : Member) (name : String) :
    (enroll methods member).has name = true ↔
      methods.has name = true ∨ member.label = name := by
  unfold enroll
  split
  · rename_i known
    constructor
    · exact Or.inl
    · rintro (has | rfl)
      · exact has
      · exact known
  · rw [Table.has, Table.find?_put]
    by_cases same : member.label = name
    · simp [same]
    · simp [same, Table.has]

/-- Registering enrolls a member with a text as its name and refuses any other. -/
theorem register_cases (builder : Builder) (member : Member) :
    (∃ cause, builder.register member = .error cause) ∨
      builder.register member =
        .ok (member.label, { builder with methods := enroll builder.methods member }) := by
  cases name : member.name with
  | text s =>
    right
    exact register_of_text builder (by rw [Member.label, name]; rfl)
  | null => exact Or.inl ⟨.notText, by rw [register, name]; rfl⟩
  | bool b => exact Or.inl ⟨.notText, by rw [register, name]; rfl⟩
  | int n => exact Or.inl ⟨.notText, by rw [register, name]; rfl⟩
  | float x => exact Or.inl ⟨.notText, by rw [register, name]; rfl⟩
  | list items => exact Or.inl ⟨.notText, by rw [register, name]; rfl⟩
  | record fields => exact Or.inl ⟨.notText, by rw [register, name]; rfl⟩

theorem mem_upsert_appendRef (table : Table String (List Ref)) (key name : String)
    (ref other : Ref) :
    other ∈ ((table.upsert key (appendRef ref)).find? name).getD [] ↔
      other ∈ (table.find? name).getD [] ∨ (key = name ∧ other = ref) := by
  rw [Table.find?_upsert]
  by_cases same : key = name
  · subst same
    simp [appendRef]
  · simp [same]

theorem Coherent.enroll {builder : Builder} (coherent : builder.Coherent) (member : Member) :
    Coherent { builder with methods := enroll builder.methods member } where
  symmetric := coherent.symmetric
  known caller callee site listed := by
    obtain ⟨callerKnown, calleeKnown⟩ := coherent.known caller callee site listed
    exact ⟨(has_enroll _ _ _).mpr (Or.inl callerKnown), (has_enroll _ _ _).mpr (Or.inl calleeKnown)⟩
  occupied := coherent.occupied

theorem Coherent.link {builder : Builder} (coherent : builder.Coherent) {caller callee : String}
    (callerKnown : builder.methods.has caller = true)
    (calleeKnown : builder.methods.has callee = true) (site : Site) :
    Coherent (builder.link caller callee site) where
  symmetric first second place := by
    show _ ∈ ((builder.callees.upsert caller _).find? first).getD [] ↔
      _ ∈ ((builder.callers.upsert callee _).find? second).getD []
    rw [mem_upsert_appendRef, mem_upsert_appendRef, coherent.symmetric, Ref.mk.injEq, Ref.mk.injEq]
    constructor
    · rintro (old | ⟨rfl, rfl, rfl⟩)
      · exact Or.inl old
      · exact Or.inr ⟨rfl, rfl, rfl⟩
    · rintro (old | ⟨rfl, rfl, rfl⟩)
      · exact Or.inl old
      · exact Or.inr ⟨rfl, rfl, rfl⟩
  known first second place listed := by
    rcases (mem_upsert_appendRef _ _ _ _ _).mp listed with old | ⟨rfl, same⟩
    · exact coherent.known first second place old
    · rw [(Ref.mk.inj same).1]
      exact ⟨callerKnown, calleeKnown⟩
  occupied name has := by
    show ((builder.callers.upsert callee _).find? name).getD [] ≠ []
    rw [Table.find?_upsert]
    by_cases same : callee = name
    · simp [same, appendRef]
    · have old : builder.callers.has name = true := by
        have raw : ((builder.callers.upsert callee _).find? name).isSome = true := has
        rw [Table.find?_upsert, if_neg same] at raw
        exact raw
      rw [if_neg same]
      exact coherent.occupied name old

/-- **One edge**, taken, known or refused, leaves a coherent builder. -/
theorem Coherent.add {builder : Builder} (coherent : builder.Coherent) (edge : Edge) :
    (builder.add edge).2.Coherent := by
  unfold Builder.add
  split
  · exact coherent
  cases edge.key? with
  | none => exact coherent
  | some key =>
    show (if builder.edges.has key then _ else _ : Except BuilderError Bool × Builder).2.Coherent
    split
    · exact coherent
    -- the tables that matter do not change when an edge is only noted
    have noted : (builder.note key edge).Coherent :=
      ⟨coherent.symmetric, coherent.known, coherent.occupied⟩
    unfold enter
    dsimp only
    rcases register_cases (builder.note key edge) edge.caller with ⟨cause, refused⟩ | started
    · rw [refused]
      exact noted
    rw [started]
    dsimp only
    have callerIn := noted.enroll edge.caller
    rcases register_cases { builder.note key edge with
        methods := Builder.enroll (builder.note key edge).methods edge.caller } edge.callee with
      ⟨cause, refused⟩ | registered
    · rw [refused]
      exact callerIn
    rw [registered]
    refine (callerIn.enroll edge.callee).link ?_ ?_ edge.site
    · exact (has_enroll _ _ _).mpr (Or.inl ((has_enroll _ _ _).mpr (Or.inr rfl)))
    · exact (has_enroll _ _ _).mpr (Or.inr rfl)

/-! ### Every run -/

/-- **Induction over the edges of requests**: what each edge keeps, answered or refused, every run
keeps. -/
theorem addAll_induction {motive : Builder → Prop} {edges : List Edge} {builder : Builder}
    (step : ∀ (builder : Builder), ∀ edge ∈ edges, motive builder → motive (builder.add edge).2)
    (start : motive builder) : motive (builder.addAll edges).2 := by
  induction edges generalizing builder with
  | nil => exact start
  | cons edge rest ih =>
    have next := step builder edge List.mem_cons_self start
    rw [Builder.addAll]
    cases answered : builder.add edge with
    | mk answer grown =>
      rw [answered] at next
      cases answer with
      | error cause => exact next
      | ok new => exact ih (fun later other listed => step later other (.tail edge listed)) next

theorem run_induction {motive : Builder → Prop} {requests : List Request} {builder : Builder}
    (step : ∀ (builder : Builder), ∀ edge ∈ requests.flatMap Request.edges,
      motive builder → motive (builder.add edge).2)
    (start : motive builder) : motive (builder.run requests).2 := by
  induction requests generalizing builder with
  | nil => exact start
  | cons request rest ih =>
    rw [List.flatMap_cons] at step
    refine ih (fun later edge listed => step later edge (List.mem_append_right _ listed)) ?_
    rw [Holds.serve_snd]
    exact addAll_induction
      (fun later edge listed => step later edge (List.mem_append_left _ listed)) start

theorem Coherent.run {builder : Builder} (coherent : builder.Coherent) (requests : List Request) :
    (builder.run requests).2.Coherent :=
  run_induction (fun _ edge _ coherent => coherent.add edge) coherent

/-- The tables of a finished index are those of its builder. -/
theorem tables_of_finish {builder : Builder} {index : Index} (made : builder.finish.1 = .ok index) :
    index.edges = builder.edges.values ∧ index.methods = builder.methods ∧
      index.callees = builder.callees ∧ index.callers = builder.callers := by
  unfold Builder.finish Builder.index at made
  split at made
  · cases made
  · cases names : Index.classNames builder.methods.values with
    | error cause => rw [names] at made; cases made
    | ok classes =>
      rw [names] at made
      cases made
      exact ⟨rfl, rfl, rfl, rfl⟩

end Builder

namespace Index

/-- **A built index**: some run of requests to a fresh builder ends in it. -/
def Built (index : Index) : Prop :=
  ∃ requests, (Builder.fresh.run requests).2.finish.1 = .ok index

namespace Built

variable {index : Index}

theorem of_ofEdges {edges : List Edge} (made : Index.ofEdges edges = .ok index) : index.Built := by
  refine ⟨[.addAll edges], ?_⟩
  show (Builder.fresh.addAll edges).2.finish.1 = .ok index
  rw [← made, Index.ofEdges]
  cases fed : Builder.fresh.addAll edges with
  | mk answer builder =>
    cases answer with
    | ok count => rfl
    | error cause =>
      rw [Index.ofEdges, fed] at made
      cases made

theorem exists_coherent (built : index.Built) :
    ∃ builder : Builder, builder.Coherent ∧ index.methods = builder.methods ∧
      index.callees = builder.callees ∧ index.callers = builder.callers := by
  obtain ⟨requests, made⟩ := built
  obtain ⟨-, methods, callees, callers⟩ := Builder.tables_of_finish made
  exact ⟨_, Builder.Coherent.fresh.run requests, methods, callees, callers⟩

/-- A call is listed with its caller exactly when it is listed with its callee. -/
theorem mem_calleesOf_iff (built : index.Built) (caller callee : String) (site : Site) :
    ⟨callee, site⟩ ∈ index.calleesOf caller ↔ ⟨caller, site⟩ ∈ index.callersOf callee := by
  obtain ⟨builder, coherent, -, callees, callers⟩ := built.exists_coherent
  rw [calleesOf, callersOf, callees, callers]
  exact coherent.symmetric caller callee site

theorem mem_names_iff {refs : List Ref} {name : String} :
    name ∈ (refs.map Ref.name).eraseDups ↔ ∃ site, ⟨name, site⟩ ∈ refs := by
  rw [List.mem_eraseDups, List.mem_map]
  constructor
  · rintro ⟨ref, listed, rfl⟩
    exact ⟨ref.site, listed⟩
  · rintro ⟨site, listed⟩
    exact ⟨_, listed, rfl⟩

/-- **The two directions agree.** -/
theorem mem_calleeNames_iff (built : index.Built) (caller callee : String) :
    callee ∈ index.calleeNames caller ↔ caller ∈ index.callerNames callee := by
  rw [calleeNames, callerNames, mem_names_iff, mem_names_iff]
  exact exists_congr fun site => built.mem_calleesOf_iff caller callee site

/-- Both ends of a call are known. -/
theorem hasMethod_of_mem (built : index.Built) {caller callee : String}
    (calls : callee ∈ index.calleeNames caller) :
    index.hasMethod caller = true ∧ index.hasMethod callee = true := by
  obtain ⟨site, listed⟩ := mem_names_iff.mp calls
  obtain ⟨builder, coherent, methods, callees, -⟩ := built.exists_coherent
  rw [hasMethod, hasMethod, methods]
  rw [calleesOf, callees] at listed
  exact coherent.known caller callee site listed

/-- An entry point is a known method without callers. -/
theorem mem_entryPoints_iff (built : index.Built) (name : String) :
    name ∈ index.entryPoints ↔ index.hasMethod name = true ∧ index.callerNames name = [] := by
  obtain ⟨builder, coherent, methods, -, callers⟩ := built.exists_coherent
  have empty : index.callerNames name = [] ↔ ¬ index.callers.has name = true := by
    constructor
    · intro none has
      rw [callers] at has
      refine coherent.occupied name has (List.eq_nil_iff_forall_not_mem.mpr fun ref listed => ?_)
      have named : ref.name ∈ index.callerNames name :=
        mem_names_iff.mpr ⟨ref.site, by rw [callersOf, callers]; exact listed⟩
      rw [none] at named
      exact List.not_mem_nil named
    · intro absent
      have unlisted : index.callers.find? name = none := by
        simpa [Table.has] using absent
      rw [callerNames, callersOf, unlisted]
      rfl
  rw [entryPoints, List.mem_filter, ← Table.has_iff_mem_keys, empty, Bool.not_eq_true',
    Bool.not_eq_true]
  rfl

end Built

theorem nodup_calleeNames (index : Index) (name : String) : (index.calleeNames name).Nodup :=
  nodup_eraseDups _

end Index

end CallGraph
