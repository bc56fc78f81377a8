/-
**Dispatch variation does not split the graph.**

A fact is `Fact.settled` when its callee has been replaced by the end of its dispatch chain, where
the hop limit lets that be found. Settling changes nothing that admission sees
(`Fact.resolveCallee_settled`), so a settled fact becomes the same edge without the name that the
call was bound to (`Fact.toEdge_settled`), and is refused for the same cause otherwise. Only a fact
that loses a name too long to be written (`Fact.LosesName`) fares better without it: as it stands it
ends the assembly. What an edge says of its bound name is in no table but that of the edges;
`Builder.add_unbound` and `Assembly.take_unbound` carry the edges with and without it through one
step, and the rest follows step by step.

* `assemble_settled`: facts and settled facts are assembled into the same index, up to bound names,
  with the same summary, unless a fact loses its name.
-/

import CallGraph.Proofs.Records

namespace CallGraph

/-! ### Settled facts -/

namespace Symbol

variable {symbol last : Symbol}

theorem next?_of_settle {looks : Nat} (settles : settle looks symbol = some last) :
    last.next? = none := by
  induction looks generalizing symbol with
  | zero => cases settles
  | succ looks ih =>
    rw [settle] at settles
    split at settles
    · rename_i ends
      exact Option.some.inj settles ▸ ends
    · exact ih settles

/-- The end of a chain is its own end. -/
theorem resolve?_of_resolve? {limit : HopLimit} (settles : symbol.resolve? limit = some last) :
    last.resolve? limit = some last := by
  rw [resolve?, settle, next?_of_settle settles]

end Symbol

/-- Only texts have content. -/
theorem Value.isText_of_trimmed {value : Value} (content : value.trimmed ≠ "") : value.IsText := by
  cases value with
  | text s => exact ⟨s, rfl⟩
  | _ => exact absurd rfl content

/-- The edge without the name that its call was bound to. -/
def Edge.unbound (edge : Edge) : Edge := { edge with resolvedFrom := .text "" }

@[simp] theorem Edge.caller_unbound (edge : Edge) : edge.unbound.caller = edge.caller := rfl

@[simp] theorem Edge.callee_unbound (edge : Edge) : edge.unbound.callee = edge.callee := rfl

@[simp] theorem Edge.site_unbound (edge : Edge) : edge.unbound.site = edge.site := rfl

theorem Edge.unbound_boundTo (edge : Edge) (name : String) :
    (edge.boundTo name).unbound = edge.unbound := by
  unfold boundTo
  split
  · rfl
  · rfl

namespace Fact

variable {limit : HopLimit}

/-- The fact with its callee replaced by the end of its dispatch chain, where that is found. -/
def settled (limit : HopLimit) (fact : Fact) : Fact :=
  { fact with callee := fact.callee.map fun callee => (callee.resolve? limit).getD callee }

theorem eq_settled_of_resolveCallee {fact resolved : Fact}
    (resolving : fact.resolveCallee limit = .ok resolved) : resolved = fact.settled limit := by
  obtain ⟨caller, callee, file, line⟩ := fact
  cases callee with
  | none => exact (Except.ok.inj resolving).symm
  | some callee =>
    unfold resolveCallee Symbol.resolve at resolving
    dsimp only at resolving
    split at resolving
    · rename_i last settles
      rw [← Except.ok.inj resolving, settled, Option.map_some, settles]
      rfl
    · cases resolving

/-- **Settling comes to the same as resolving.** -/
theorem resolveCallee_settled (limit : HopLimit) (fact : Fact) :
    (fact.settled limit).resolveCallee limit = fact.resolveCallee limit := by
  obtain ⟨caller, callee, file, line⟩ := fact
  cases callee with
  | none => rfl
  | some callee =>
    unfold settled resolveCallee Symbol.resolve
    dsimp only [Option.map_some]
    cases settles : callee.resolve? limit with
    | none => rw [Option.getD_none, settles]
    | some last => rw [Option.getD_some, Symbol.resolve?_of_resolve? settles]

/-- A trimmed name with content is what the call is bound to. -/
theorem boundName_of_trimmed {callee : Symbol} (content : callee.member.name.trimmed ≠ "") :
    boundName (some callee) = .ok callee.member.name.trimmed := by
  obtain ⟨s, isText⟩ := Value.isText_of_trimmed content
  rw [isText] at content
  have given : ¬ (Value.text s).isVoid = true := by
    intro void
    obtain rfl := String.isEmpty_iff.mp void
    exact content rfl
  rw [boundName_eq, isText, if_pos (Value.isWritable_text s), if_neg given]
  rfl

/-- A valid fact is bound to the name of its callee. -/
theorem exists_boundName_of_isValid {fact : Fact} (valid : fact.report.isValid = true) :
    ∃ name, boundName fact.callee = .ok name ∧
      fact.checkedEdge.boundTo name = fact.checkedEdge := by
  obtain ⟨-, ⟨callee, isCallee, content, -⟩, -⟩ := fact.isValid_report_iff.mp valid
  refine ⟨callee.member.name.trimmed, ?_, if_pos ?_⟩
  · rw [isCallee, boundName_of_trimmed content]
  · rw [checkedEdge, isCallee, checkSide, Symbol.member_withMember]
    exact decide_eq_true rfl

/-- **A settled fact** is refused like the fact, and bound to no other name. -/
theorem toEdge_settled_eq (limit : HopLimit) (fact : Fact) :
    (fact.settled limit).toEdge limit =
      match fact.resolveCallee limit with
      | .error cause => .error cause
      | .ok resolved =>
        if resolved.report.isValid then .ok resolved.checkedEdge
        else
          match resolved.check with
          | .error cause => .error (.misuse cause)
          | .ok report => .error (.malformed report) := by
  rw [toEdge_eq, resolveCallee_settled]
  cases resolving : fact.resolveCallee limit with
  | error cause => rfl
  | ok resolved =>
    obtain rfl := eq_settled_of_resolveCallee resolving
    dsimp only
    split
    · rename_i valid
      obtain ⟨name, isBound, same⟩ := exists_boundName_of_isValid valid
      rw [isBound]
      exact congrArg Except.ok same
    · rfl

/-- **The fact loses its name by settling**: settled it becomes an edge, and the name that the call
was bound to cannot be written. -/
def LosesName (limit : HopLimit) (fact : Fact) : Prop :=
  (∃ edge, (fact.settled limit).toEdge limit = .ok edge) ∧
    ∃ callee, fact.callee = some callee ∧ callee.member.name.isWritable = false

theorem losesName_iff (limit : HopLimit) (fact : Fact) :
    fact.LosesName limit ↔
      ∃ callee resolved, fact.callee = some callee ∧ fact.resolveCallee limit = .ok resolved ∧
        resolved.report.isValid = true ∧ callee.member.name.isWritable = false := by
  rw [LosesName, toEdge_settled_eq]
  constructor
  · rintro ⟨⟨edge, made⟩, callee, isCallee, long⟩
    cases resolving : fact.resolveCallee limit with
    | error cause => rw [resolving] at made; cases made
    | ok resolved =>
      rw [resolving] at made
      dsimp only at made
      split at made
      · rename_i valid
        exact ⟨callee, resolved, isCallee, rfl, valid, long⟩
      · split at made
        · cases made
        · cases made
  · rintro ⟨callee, resolved, isCallee, resolving, valid, long⟩
    rw [resolving]
    dsimp only
    rw [if_pos valid]
    exact ⟨⟨_, rfl⟩, callee, isCallee, long⟩

/-- A fact that loses its name is not refused for a fault of its own. -/
theorem toEdge_of_losesName {fact : Fact} (loses : fact.LosesName limit) :
    fact.toEdge limit = .error (.misuse .tooLong) := by
  obtain ⟨callee, resolved, isCallee, resolving, valid, long⟩ :=
    (losesName_iff limit fact).mp loses
  rw [toEdge_eq, resolving]
  dsimp only
  rw [if_pos valid, isCallee, boundName_eq, if_neg (Bool.eq_false_iff.mp long)]

/-- **A settled fact becomes the same edge**, without a bound name, or is refused for the same
cause. -/
theorem toEdge_settled {fact : Fact} (keeps : ¬ fact.LosesName limit) :
    (fact.settled limit).toEdge limit = (fact.toEdge limit).map Edge.unbound := by
  rw [toEdge_settled_eq, toEdge_eq]
  cases resolving : fact.resolveCallee limit with
  | error cause => rfl
  | ok resolved =>
    dsimp only
    by_cases valid : resolved.report.isValid = true
    · obtain ⟨callee, isCallee⟩ := exists_callee_of_isValid resolving valid
      have writable : callee.member.name.isWritable = true := by
        by_contra long
        exact keeps ((losesName_iff limit fact).mpr
          ⟨callee, resolved, isCallee, resolving, valid, Bool.not_eq_true _ ▸ long⟩)
      rw [if_pos valid, if_pos valid, isCallee, boundName_eq, if_pos writable]
      dsimp only [Except.map]
      rw [Edge.unbound_boundTo]
      rfl
    · rw [if_neg valid, if_neg valid]
      cases resolved.check with
      | error cause => rfl
      | ok report => rfl

/-- **What taking in a fact writes** is what taking in the settled fact writes and the name that the
call was bound to. -/
theorem showable_iff (limit : HopLimit) (fact : Fact) :
    fact.Showable limit ↔ (fact.settled limit).Showable limit ∧ ¬ fact.LosesName limit := by
  -- where the end of the chain is not found, settling leaves the callee alone
  have unsettled : ∀ callee, (fact.settled limit).callee = some callee →
      callee.resolve? limit = none → fact.callee = some callee := by
    intro callee isCallee lost
    obtain ⟨other, isOther, rfl⟩ := Option.map_eq_some_iff.mp isCallee
    cases settles : other.resolve? limit with
    | none => rw [Option.getD_none, isOther]
    | some last =>
      rw [settles, Option.getD_some, Symbol.resolve?_of_resolve? settles] at lost
      cases lost
  constructor
  · intro showable
    refine ⟨⟨showable.file, showable.line, ?_, ?_⟩, fun loses => ?_⟩
    · exact fun callee isCallee lost => showable.chain callee (unsettled callee isCallee lost) lost
    · intro callee resolved isCallee resolving valid
      rw [resolveCallee_settled] at resolving
      obtain rfl := eq_settled_of_resolveCallee resolving
      obtain ⟨-, ⟨other, isOther, content, -⟩, -⟩ := (isValid_report_iff _).mp valid
      obtain rfl : callee = other := Option.some.inj (isCallee.symm.trans isOther)
      exact (Value.isText_of_trimmed content).isWritable
    · obtain ⟨callee, resolved, isCallee, resolving, valid, long⟩ :=
        (losesName_iff limit fact).mp loses
      exact Bool.false_ne_true
        (long.symm.trans (showable.bound callee resolved isCallee resolving valid))
  · rintro ⟨showable, keeps⟩
    refine ⟨showable.file, showable.line, fun callee isCallee lost => ?_, ?_⟩
    · refine showable.chain callee ?_ lost
      rw [settled, isCallee, Option.map_some, lost, Option.getD_none]
    · intro callee resolved isCallee resolving valid
      by_contra long
      exact keeps ((losesName_iff limit fact).mpr
        ⟨callee, resolved, isCallee, resolving, valid, Bool.not_eq_true _ ▸ long⟩)

/-- What an edge says of the name that its call was bound to. -/
theorem resolvedFrom_of_toEdge {fact : Fact} {edge : Edge}
    (admitted : fact.toEdge limit = .ok edge) :
    ∃ bound, boundName fact.callee = .ok bound ∧
      edge.resolvedFrom = .text (if bound = edge.callee.label then "" else bound) := by
  obtain ⟨resolved, bound, resolving, valid, isBound⟩ :=
    (exists_toEdge_eq_ok_iff limit fact).mp ⟨edge, admitted⟩
  rw [toEdge_eq, resolving] at admitted
  dsimp only at admitted
  rw [if_pos valid, isBound] at admitted
  obtain ⟨-, ⟨callee, isCallee, -⟩, -⟩ := resolved.isValid_report_iff.mp valid
  have named : resolved.checkedEdge.callee.name = .text callee.member.name.trimmed := by
    rw [checkedEdge, isCallee, checkSide, Symbol.member_withMember]
    rfl
  refine ⟨bound, isBound, ?_⟩
  rw [← Except.ok.inj admitted, Member.label, (Edge.boundTo_ends _ _).2.1, Edge.boundTo, named]
  by_cases own : callee.member.name.trimmed = bound
  · rw [if_pos (show (Value.text _).reads bound = true from decide_eq_true own)]
    exact congrArg Value.text (if_pos own.symm).symm
  · rw [if_neg (show ¬ (Value.text _).reads bound = true from fun reads =>
      own (of_decide_eq_true reads))]
    exact congrArg Value.text (if_neg (Ne.symm own)).symm

end Fact

/-! ### Builders without bound names -/

namespace Table

variable {κ α β : Type}

/-- The table with its values replaced. -/
def mapValues (f : α → β) (table : Table κ α) : Table κ β where
  entries := table.entries.map fun entry => (entry.1, f entry.2)
  nodup := by
    rw [List.map_map]
    exact table.nodup

theorem keys_mapValues (f : α → β) (table : Table κ α) : (table.mapValues f).keys = table.keys := by
  unfold keys mapValues
  rw [List.map_map]
  rfl

theorem values_mapValues (f : α → β) (table : Table κ α) :
    (table.mapValues f).values = table.values.map f := by
  unfold values mapValues
  rw [List.map_map, List.map_map]
  rfl

variable [DecidableEq κ]

theorem has_mapValues (f : α → β) (table : Table κ α) (key : κ) :
    (table.mapValues f).has key = table.has key := by
  rw [Bool.eq_iff_iff, has_iff_mem_keys, has_iff_mem_keys, keys_mapValues]

theorem upsertEntries_map (f : α → β) (key : κ) (value : α) (entries : List (κ × α)) :
    upsertEntries key (fun _ => f value) (entries.map fun entry => (entry.1, f entry.2)) =
      (upsertEntries key (fun _ => value) entries).map fun entry => (entry.1, f entry.2) := by
  induction entries with
  | nil => rfl
  | cons entry rest ih =>
    simp only [List.map_cons, upsertEntries]
    split
    · rfl
    · rw [ih, List.map_cons]

theorem put_mapValues (f : α → β) (table : Table κ α) (key : κ) (value : α) :
    (table.mapValues f).put key (f value) = (table.put key value).mapValues f := by
  unfold put upsert mapValues
  simp only [upsertEntries_map]

end Table

namespace Builder

/-- The builder without the names that its calls were bound to. -/
def unbound (builder : Builder) : Builder :=
  { builder with edges := builder.edges.mapValues Edge.unbound }

theorem note_unbound (builder : Builder) (key : Edge.Key) (edge : Edge) :
    builder.unbound.note key edge.unbound = (builder.note key edge).unbound := by
  unfold note unbound
  rw [Table.put_mapValues]

theorem register_unbound (builder : Builder) (member : Member) :
    builder.unbound.register member =
      (builder.register member).map fun entry => (entry.1, entry.2.unbound) := by
  unfold register
  cases member.name.asText with
  | error cause => rfl
  | ok name =>
    -- the registry is the same with and without bound names
    show (if builder.methods.has name then _ else _) = Except.map _ (if _ then _ else _)
    split
    · rfl
    · rfl

theorem enter_unbound (builder : Builder) (key : Edge.Key) (edge : Edge) :
    builder.unbound.enter key edge.unbound =
      ((builder.enter key edge).1, (builder.enter key edge).2.unbound) := by
  unfold enter
  simp only [note_unbound, register_unbound, Edge.caller_unbound, Edge.callee_unbound,
    Edge.site_unbound]
  cases (builder.note key edge).register edge.caller with
  | error cause => rfl
  | ok entry =>
    simp only [Except.map, register_unbound]
    cases entry.2.register edge.callee with
    | error cause => rfl
    | ok last => rfl

/-- **One edge** is answered alike with and without its bound name. -/
theorem add_unbound (builder : Builder) (edge : Edge) :
    builder.unbound.add edge.unbound = ((builder.add edge).1, (builder.add edge).2.unbound) := by
  have closed : builder.unbound.closed = builder.closed := rfl
  have key : edge.unbound.key? = edge.key? := rfl
  unfold add
  rw [closed, key]
  split
  · rfl
  · cases edge.key? with
    | none => rfl
    | some key =>
      dsimp only
      rw [enter_unbound, show builder.unbound.edges.has key = builder.edges.has key from
        Table.has_mapValues _ _ _]
      split
      · rfl
      · rfl

end Builder

/-- The index without the names that its calls were bound to. -/
def Index.unbound (index : Index) : Index := { index with edges := index.edges.map Edge.unbound }

theorem Builder.finish_unbound (builder : Builder) :
    builder.unbound.finish.1 = builder.finish.1.map Index.unbound := by
  unfold Builder.finish Builder.index
  show (if builder.closed then _ else _ : Except BuilderError Index × Builder).1 = _
  split
  · rfl
  · show (Except.mapError _ (Index.classNames builder.methods.values >>= _)) = _
    cases Index.classNames builder.methods.values with
    | error cause => rfl
    | ok classes =>
      show Except.ok (⟨(builder.edges.mapValues Edge.unbound).values, _, _, _, _⟩ : Index) = _
      rw [Table.values_mapValues]
      rfl

/-! ### Assemblies without bound names -/

namespace Assembly

variable {limit : HopLimit}

def unbound (assembly : Assembly) : Assembly :=
  { assembly with builder := assembly.builder.unbound }

/-- **One fact**: settled or not, it has the same fate. -/
theorem take_unbound {fact : Fact} (keeps : ¬ fact.LosesName limit) (assembly : Assembly) :
    assembly.unbound.take limit (fact.settled limit) =
      (assembly.take limit fact).map Assembly.unbound := by
  have place : (fact.settled limit).location = fact.location := rfl
  unfold take
  rw [Fact.toEdge_settled keeps, place]
  cases fact.location with
  | error cause => rfl
  | ok place =>
    cases fact.toEdge limit with
    | error cause =>
      dsimp only [Except.map, Except.mapError, bind, Except.bind]
      cases cause.misuse? with
      | none => rfl
      | some misuse => rfl
    | ok edge =>
      have builder : assembly.unbound.builder = assembly.builder.unbound := rfl
      dsimp only [Except.map, Except.mapError, bind, Except.bind]
      rw [builder, Builder.add_unbound]
      cases assembly.builder.add edge with
      | mk answer next =>
        cases answer with
        | error cause => rfl
        | ok new => rfl

/-- **Any list of facts.** -/
theorem foldlM_unbound {facts : List Fact} (keeps : ∀ fact ∈ facts, ¬ fact.LosesName limit)
    (assembly : Assembly) :
    (facts.map (Fact.settled limit)).foldlM (take limit) assembly.unbound =
      (facts.foldlM (take limit) assembly).map Assembly.unbound := by
  induction facts generalizing assembly with
  | nil => rfl
  | cons fact rest ih =>
    rw [List.map_cons, List.foldlM_cons, List.foldlM_cons,
      take_unbound (keeps fact List.mem_cons_self)]
    cases assembly.take limit fact with
    | error cause => rfl
    | ok next => exact ih (fun other listed => keeps other (List.mem_cons_of_mem _ listed)) next

end Assembly

def Assembled.unbound (assembled : Assembled) : Assembled :=
  { assembled with index := assembled.index.unbound }

variable {limit : HopLimit}

theorem assemble_map_settled {facts : List Fact}
    (keeps : ∀ fact ∈ facts, ¬ fact.LosesName limit) :
    assemble limit (facts.map (Fact.settled limit)) =
      (assemble limit facts).map Assembled.unbound := by
  have start : Assembly.start.unbound = Assembly.start := rfl
  unfold assemble
  rw [← start, Assembly.foldlM_unbound keeps, start]
  cases facts.foldlM (Assembly.take limit) .start with
  | error cause => rfl
  | ok assembly =>
    show assembly.unbound.finish = assembly.finish.map Assembled.unbound
    unfold Assembly.finish
    show (assembly.builder.unbound.finish.1.map _) = _
    rw [Builder.finish_unbound]
    cases assembly.builder.finish.1 with
    | error cause => rfl
    | ok index => rfl

/-! ### Which assemblies succeed -/

/-- The edges of the facts that become edges, in order. -/
def factEdges (limit : HopLimit) (facts : List Fact) : List Edge :=
  facts.filterMap fun fact => (fact.toEdge limit).toOption

theorem typed_factEdges (limit : HopLimit) (facts : List Fact) :
    ∀ edge ∈ factEdges limit facts, edge.Typed := by
  intro edge listed
  obtain ⟨fact, -, made⟩ := List.mem_filterMap.mp listed
  cases outcome : fact.toEdge limit with
  | error cause => rw [outcome] at made; cases made
  | ok other =>
    rw [outcome] at made
    exact Option.some.inj made ▸ Fact.typed_of_toEdge outcome

/-- The builder of an assembly has been fed typed edges. -/
def Assembly.Feeds (fed : List Edge) (assembly : Assembly) : Prop :=
  (∀ edge ∈ fed, edge.Typed) ∧ assembly.builder = (Builder.fresh.addAll fed).2

theorem Assembly.feeds_start : Assembly.start.Feeds [] :=
  ⟨fun _ listed => absurd listed List.not_mem_nil, rfl⟩

/-- **One fact** goes to the builder, or leaves it alone. -/
theorem Assembly.Feeds.exists_take {assembly : Assembly} {fed : List Edge} {fact : Fact}
    (feeds : assembly.Feeds fed) (showable : fact.Showable limit) :
    ∃ next, assembly.take limit fact = .ok next ∧ next.Feeds (fed ++ factEdges limit [fact]) := by
  rcases Assembly.take_of_showable showable assembly with
    ⟨place, cause, -, refused, taken⟩ | ⟨edge, made, taken⟩
  · have none : factEdges limit [fact] = [] := by simp [factEdges, refused, Except.toOption]
    rw [none, List.append_nil]
    exact ⟨_, taken, feeds⟩
  · have one : factEdges limit [fact] = [edge] := by simp [factEdges, made, Except.toOption]
    have typed := Fact.typed_of_toEdge made
    have added := Builder.Holds.addAll_concat feeds.1 typed
    rw [← feeds.2] at added
    rw [one]
    refine ⟨_, taken _ _ added, fun other listed => ?_, rfl⟩
    rcases List.mem_append.mp listed with old | new
    · exact feeds.1 other old
    · exact List.mem_singleton.mp new ▸ typed

theorem Assembly.Feeds.exists_foldlM {assembly : Assembly} {fed : List Edge} {facts : List Fact}
    (feeds : assembly.Feeds fed) (showable : ∀ fact ∈ facts, fact.Showable limit) :
    ∃ last, facts.foldlM (Assembly.take limit) assembly = .ok last ∧
      last.Feeds (fed ++ factEdges limit facts) := by
  induction facts generalizing assembly fed with
  | nil =>
    rw [factEdges, List.filterMap_nil, List.append_nil]
    exact ⟨assembly, rfl, feeds⟩
  | cons fact rest ih =>
    obtain ⟨next, taken, nextFeeds⟩ := feeds.exists_take (showable fact List.mem_cons_self)
    obtain ⟨last, run, lastFeeds⟩ :=
      ih nextFeeds fun other listed => showable other (List.mem_cons_of_mem _ listed)
    rw [List.append_assoc, factEdges, factEdges, ← List.filterMap_append] at lastFeeds
    refine ⟨last, ?_, lastFeeds⟩
    rw [List.foldlM_cons, taken]
    exact run

/-- The index of an assembly is that of the edges of its facts. -/
theorem exists_assemble {facts : List Fact} (showable : ∀ fact ∈ facts, fact.Showable limit) :
    ∃ assembled, assemble limit facts = .ok assembled ∧
      Index.ofEdges (factEdges limit facts) = .ok assembled.index := by
  obtain ⟨last, run, feeds⟩ := Assembly.feeds_start.exists_foldlM showable
  rw [List.nil_append] at feeds
  obtain ⟨made, finished, -⟩ := Index.ofEdges_of_typed (typed_factEdges limit facts)
  refine ⟨⟨_, last.summary, last.skips⟩, ?_, made⟩
  unfold assemble
  rw [run]
  show last.finish = _
  rw [Assembly.finish, feeds.2, finished]
  rfl

/-- **A fact that is not showable ends the assembly**, wherever it stands. -/
theorem assemble_of_not_showable {facts : List Fact}
    (odd : ∃ fact ∈ facts, ¬ fact.Showable limit) :
    assemble limit facts = .error (.misuse .tooLong) := by
  have run : facts.foldlM (Assembly.take limit) .start = .error (.misuse .tooLong) := by
    refine Assembly.foldlM_of_bad (fun assembly => ∃ fed, assembly.Feeds fed) (Fact.Showable limit)
      ?_ ?_ ⟨[], Assembly.feeds_start⟩ odd
    · rintro assembly fact ⟨fed, feeds⟩ showable
      obtain ⟨next, taken, nextFeeds⟩ := feeds.exists_take showable
      exact ⟨next, taken, _, nextFeeds⟩
    · exact fun assembly fact unshowable => Assembly.take_of_not_showable unshowable assembly
  unfold assemble
  rw [run]
  rfl

theorem exists_assemble_iff (limit : HopLimit) (facts : List Fact) :
    (∃ assembled, assemble limit facts = .ok assembled) ↔ ∀ fact ∈ facts, fact.Showable limit := by
  constructor
  · rintro ⟨assembled, run⟩
    by_contra odd
    push Not at odd
    rw [assemble_of_not_showable odd] at run
    cases run
  · intro showable
    obtain ⟨assembled, run, -⟩ := exists_assemble showable
    exact ⟨assembled, run⟩

/-- Facts and settled facts come to the same, unless a fact loses its name and nothing else ends the
assembly of the settled ones. -/
theorem assemble_map_settled_iff (limit : HopLimit) (facts : List Fact) :
    assemble limit (facts.map (Fact.settled limit)) =
        (assemble limit facts).map Assembled.unbound ↔
      (∀ fact ∈ facts, ¬ fact.LosesName limit) ∨
        ∃ fact ∈ facts, ¬ (fact.settled limit).Showable limit := by
  constructor
  · intro same
    by_contra apart
    push Not at apart
    obtain ⟨⟨fact, listed, loses⟩, showable⟩ := apart
    have unshowable : ¬ fact.Showable limit := fun shows =>
      ((fact.showable_iff limit).mp shows).2 loses
    obtain ⟨assembled, run⟩ := (exists_assemble_iff limit (facts.map (Fact.settled limit))).mpr
      (List.forall_mem_map.mpr showable)
    rw [run, assemble_of_not_showable ⟨fact, listed, unshowable⟩] at same
    cases same
  · rintro (keeps | ⟨fact, listed, unshowable⟩)
    · exact assemble_map_settled keeps
    · have odd : ¬ fact.Showable limit := fun shows =>
        unshowable ((fact.showable_iff limit).mp shows).1
      rw [assemble_of_not_showable ⟨fact, listed, odd⟩,
        assemble_of_not_showable ⟨_, List.mem_map_of_mem listed, unshowable⟩]
      rfl

/-- **Dispatch variation does not split the graph.** Facts are assembled exactly when all that this
writes can be written, and then into the index of their edges. The same facts with every callee
replaced by the end of its dispatch chain, where that is found, give the same index, summary and
refusals; only the bound names of the edges are gone. The two assemblies differ only where a fact
loses a name that is too long to be written: it ends the first one, and the second one goes through
if nothing else ends it. Each fact that keeps its name has the same fate in both, and its edge keeps
the name that the call was bound to, trimmed, where that is not the name of the callee. -/
theorem assemble_settled (limit : HopLimit) (facts : List Fact) :
    ((∃ assembled, assemble limit facts = .ok assembled) ↔
      ∀ fact ∈ facts, (fact.settled limit).Showable limit ∧ ¬ fact.LosesName limit) ∧
    (assemble limit (facts.map (Fact.settled limit)) =
        (assemble limit facts).map Assembled.unbound ↔
      (∀ fact ∈ facts, ¬ fact.LosesName limit) ∨
        ∃ fact ∈ facts, ¬ (fact.settled limit).Showable limit) ∧
    ((∃ fact ∈ facts, fact.LosesName limit) →
      assemble limit facts = .error (.misuse .tooLong)) ∧
    (∀ assembled, assemble limit facts = .ok assembled →
      ∃ others, assemble limit (facts.map (Fact.settled limit)) = .ok others ∧
        Index.ofEdges (facts.filterMap fun fact => (fact.toEdge limit).toOption) =
          .ok assembled.index ∧
        others.index = { assembled.index with edges := assembled.index.edges.map Edge.unbound } ∧
        (∀ edge ∈ others.index.edges, edge.resolvedFrom = .text "") ∧
        others.summary = assembled.summary ∧ others.skips = assembled.skips) ∧
    ∀ fact : Fact,
      (¬ fact.LosesName limit →
        (fact.settled limit).toEdge limit = (fact.toEdge limit).map Edge.unbound) ∧
      (fact.LosesName limit → fact.toEdge limit = .error (.misuse .tooLong)) ∧
      ∀ edge, fact.toEdge limit = .ok edge →
        ∃ callee bound, fact.callee = some callee ∧
          bound = (if callee.member.name.isVoid then ""
            else Text.trim callee.member.name.display) ∧
          edge.resolvedFrom = .text (if bound = edge.callee.label then "" else bound) := by
  refine ⟨?_, assemble_map_settled_iff limit facts, ?_, fun assembled run => ?_, fun fact =>
    ⟨fact.toEdge_settled, fact.toEdge_of_losesName, fun edge admitted => ?_⟩⟩
  · rw [exists_assemble_iff]
    exact forall₂_congr fun fact _ => fact.showable_iff limit
  · rintro ⟨fact, listed, loses⟩
    exact assemble_of_not_showable
      ⟨fact, listed, fun shows => ((fact.showable_iff limit).mp shows).2 loses⟩
  · have showable := (exists_assemble_iff limit facts).mp ⟨assembled, run⟩
    obtain ⟨same, again, made⟩ := exists_assemble showable
    obtain rfl : assembled = same := Except.ok.inj (run.symm.trans again)
    have other : assemble limit (facts.map (Fact.settled limit)) = .ok assembled.unbound := by
      rw [assemble_map_settled fun fact listed =>
        ((fact.showable_iff limit).mp (showable fact listed)).2, run]
      rfl
    refine ⟨assembled.unbound, other, made, rfl, fun edge listed => ?_, rfl, rfl⟩
    obtain ⟨bound, -, rfl⟩ := List.mem_map.mp listed
    rfl
  · obtain ⟨-, callee, -, -, isCallee, -⟩ := Fact.toEdge_eq_ok admitted
    obtain ⟨bound, isBound, kept⟩ := Fact.resolvedFrom_of_toEdge admitted
    refine ⟨callee, bound, isCallee, ?_, kept⟩
    rw [isCallee, Fact.boundName_eq] at isBound
    split at isBound
    · exact (Except.ok.inj isBound).symm
    · cases isBound

/-! ### A call through an override -/

/-- A charge declared by the bank, called as it stands. -/
def bankCharge : Symbol := .ordinary ⟨.text "Shop.Bank.Charge", .text "Bank", .text "Shop"⟩

/-- The charge of a card, which overrides a charge. -/
def cardCharge (base : Symbol) : Symbol :=
  .override ⟨.text " Shop.Card.Charge", .text "Card", .text "Shop"⟩ base

/-- A call of the cart. -/
def cartCall (callee : Symbol) : Fact where
  caller := some (.ordinary ⟨.text "Shop.Cart.Pay", .text "Cart", .text "Shop"⟩)
  callee := some callee
  file := .text "Cart.cs"
  line := .int 3

/-- With one hop allowed: a call through an override, the same call without it, and a call through
two overrides. -/
theorem cartCalls_settled :
    ∃ assembled others,
      assemble ⟨1, Nat.le_refl 1⟩ [cartCall (cardCharge bankCharge), cartCall bankCharge,
        cartCall (cardCharge (cardCharge bankCharge))] = .ok assembled ∧
      assemble ⟨1, Nat.le_refl 1⟩ [cartCall bankCharge, cartCall bankCharge,
        cartCall (cardCharge (cardCharge bankCharge))] = .ok others ∧
      assembled.index.edges.map Edge.resolvedFrom = [.text "Shop.Card.Charge"] ∧
      others.index = { assembled.index with edges := assembled.index.edges.map Edge.unbound } ∧
      assembled.summary.duplicates = 1 ∧ assembled.summary.skipped = 1 ∧
      others.summary = assembled.summary ∧
      ∃ edge, (cartCall (cardCharge bankCharge)).toEdge ⟨1, Nat.le_refl 1⟩ = .ok edge ∧
        edge.callee.label = "Shop.Bank.Charge" ∧
        edge.resolvedFrom = .text "Shop.Card.Charge" := by
  obtain ⟨assembled, run⟩ : ∃ assembled, assemble ⟨1, Nat.le_refl 1⟩
      [cartCall (cardCharge bankCharge), cartCall bankCharge,
        cartCall (cardCharge (cardCharge bankCharge))] = .ok assembled := ⟨_, rfl⟩
  obtain ⟨-, -, -, runs, fates⟩ :=
    assemble_settled ⟨1, Nat.le_refl 1⟩ [cartCall (cardCharge bankCharge), cartCall bankCharge,
      cartCall (cardCharge (cardCharge bankCharge))]
  obtain ⟨others, otherRun, -, index, -, summary, -⟩ := runs assembled run
  have seen : (assemble ⟨1, Nat.le_refl 1⟩ [cartCall (cardCharge bankCharge), cartCall bankCharge,
      cartCall (cardCharge (cardCharge bankCharge))]).map (fun assembled =>
        (assembled.index.edges.map Edge.resolvedFrom, assembled.summary.duplicates,
          assembled.summary.skipped)) = .ok ([.text "Shop.Card.Charge"], 1, 1) := rfl
  rw [run] at seen
  obtain ⟨names, counts⟩ := Prod.mk.inj (Except.ok.inj seen)
  obtain ⟨duplicates, skipped⟩ := Prod.mk.inj counts
  obtain ⟨callee, bound, isCallee, rfl, kept⟩ :=
    (fates (cartCall (cardCharge bankCharge))).2.2 _ rfl
  obtain rfl := Option.some.inj isCallee
  exact ⟨assembled, others, run, otherRun, names, index, duplicates, skipped, summary, _, rfl, rfl,
    kept⟩

/-- **A bound name too long to be written.** A call through an override under such a name ends the
assembly, and the same call without the override is assembled. -/
theorem overlong_override_aborts :
    ∃ fact : Fact, fact.settled .standard = cartCall bankCharge ∧
      assemble .standard [fact] = .error (.misuse .tooLong) ∧
      ∃ assembled, assemble .standard [fact.settled .standard] = .ok assembled ∧
        assembled.summary.indexed = 1 := by
  have loses : (cartCall (.override ⟨.int Text.overlong, .text "Card", .text "Shop"⟩
      bankCharge)).LosesName .standard := by
    refine ⟨⟨_, rfl⟩, _, rfl, ?_⟩
    exact (Value.isWritable_int _).trans Text.not_isWritable_overlong
  refine ⟨cartCall (.override ⟨.int Text.overlong, .text "Card", .text "Shop"⟩ bankCharge), rfl, ?_,
    _, rfl, rfl⟩
  refine assemble_of_not_showable ⟨_, List.mem_singleton_self _, fun shows => ?_⟩
  exact ((Fact.showable_iff _ _).mp shows).2 loses

end CallGraph
