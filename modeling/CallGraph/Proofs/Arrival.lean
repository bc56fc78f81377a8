/-
**The order in which edges arrive.**

Edges that are fed in another order are kept in another order, and of several edges with one
identity another one may be kept; the calls that they stand for are the same
(`Edge.perm_call_distinct`). The tables of a builder, read up to order, are functions of these
calls, so two builders that hold edges for the same calls give indexes that are `Index.Alike`
(`Builder.Holds.alike`). No walk sees more than that: each is described by distances, trails or
references, and none of these depends on an order.

* `arrival_order`: the order of arrival changes the order of answers only.
-/

import CallGraph.Proofs.Levels

namespace CallGraph

/-! ### Indexes that are alike -/

/-- **Two indexes with the same look-ups up to order.** References count by name and site. -/
structure Index.Alike (one other : Index) : Prop where
  methods : one.methods.keys.Perm other.methods.keys
  callees : ∀ name, ((one.calleesOf name).map Ref.key).Perm ((other.calleesOf name).map Ref.key)
  callers : ∀ name, ((one.callersOf name).map Ref.key).Perm ((other.callersOf name).map Ref.key)
  entryPoints : one.entryPoints.Perm other.entryPoints
  stats : one.stats = other.stats

/-- Two answers of the service: refused for the same cause, or with the same entries up to order,
which count by name, depth and site, and with the same last level. -/
inductive Related.Alike : Except QueryError Related → Except QueryError Related → Prop
  | refused (cause : QueryError) : Alike (.error cause) (.error cause)
  | answered {found again : Related} (method : found.method = again.method)
      (entries : ∀ key, key ∈ found.entries.map RelatedMethod.key ↔
        key ∈ again.entries.map RelatedMethod.key)
      (reached : found.reached = again.reached) : Alike (.ok found) (.ok again)

/-! ### Tables as functions of calls -/

section Calls

variable (kept : List Edge)

theorem map_key_toCallee (name : String) :
    ((kept.filter fun edge => edge.caller.label = name).map Edge.toCallee).map Ref.key =
      ((kept.map Edge.call).filter fun call => call.1 = name).map Prod.snd := by
  rw [List.filter_map, List.map_map, List.map_map]
  rfl

theorem map_key_toCaller (name : String) :
    ((kept.filter fun edge => edge.callee.label = name).map Edge.toCaller).map Ref.key =
      ((kept.map Edge.call).filter fun call => call.2.1 = name).map fun call =>
        (call.1, call.2.2) := by
  rw [List.filter_map, List.map_map, List.map_map]
  rfl

theorem map_label_members :
    (kept.flatMap Edge.members).map Member.label =
      (kept.map Edge.call).flatMap fun call => [call.1, call.2.1] := by
  rw [List.map_flatMap, List.flatMap_map]
  rfl

theorem all_callee_ne (name : String) :
    (kept.all fun edge => edge.callee.label ≠ name) =
      (kept.map Edge.call).all fun call => call.2.1 ≠ name := by
  rw [List.all_map]
  rfl

end Calls

/-- **The calls of permuted edges** are permuted, whichever edge of an identity comes first. -/
theorem Edge.perm_call_distinct {first second : List Edge} (permuted : first.Perm second)
    (typed : ∀ edge ∈ first, edge.Typed) :
    ((Edge.distinct first).map Edge.call).Perm ((Edge.distinct second).map Edge.call) := by
  have typedToo : ∀ edge ∈ second, edge.Typed := fun edge listed =>
    typed edge (permuted.mem_iff.mpr listed)
  refine (List.perm_ext_iff_of_nodup (nodup_call_distinct typed)
    (nodup_call_distinct typedToo)).mpr fun call => ?_
  rw [mem_call_distinct typed, mem_call_distinct typedToo, (permuted.map Edge.call).mem_iff]

namespace Builder

variable {builder other : Builder} {kept others : List Edge}

theorem Links.size_eq {table again : Table String (List Ref)} {source : Edge → String}
    {target : Edge → Ref} (links : Links table source target kept)
    (linksToo : Links again source target others)
    (same : (kept.map source).Perm (others.map source)) : table.size = again.size := by
  rw [Table.size_eq_length_keys, Table.size_eq_length_keys, links.keys, linksToo.keys]
  exact (perm_eraseDups same).length_eq

/-- **Builders that hold the same calls** give indexes that are alike. -/
theorem Holds.alike (holds : builder.Holds kept) (holdsToo : other.Holds others)
    (same : (kept.map Edge.call).Perm (others.map Edge.call)) :
    builder.snapshot.Alike other.snapshot := by
  have methods : builder.methods.keys.Perm other.methods.keys := by
    rw [holds.methods.keys, holdsToo.methods.keys, map_label_members, map_label_members]
    exact perm_eraseDups (same.flatMap_right _)
  have entryPoints : builder.snapshot.entryPoints.Perm other.snapshot.entryPoints := by
    rw [holds.entryPoints_eq, holdsToo.entryPoints_eq]
    simp only [all_callee_ne, same.all_eq]
    exact methods.filter _
  have edges : builder.edges.values.length = other.edges.values.length := by
    have length := same.length_eq
    rw [List.length_map, List.length_map] at length
    rw [holds.edges, holdsToo.edges, length]
  have withCallees : builder.callees.size = other.callees.size := by
    apply holds.callees.size_eq holdsToo.callees
    have sources := same.map Prod.fst
    rw [List.map_map, List.map_map] at sources
    exact sources
  have withCallers : builder.callers.size = other.callers.size := by
    apply holds.callers.size_eq holdsToo.callers
    have targets := same.map fun call => call.2.1
    rw [List.map_map, List.map_map] at targets
    exact targets
  refine ⟨methods, fun name => ?_, fun name => ?_, entryPoints, ?_⟩
  · have refs : builder.snapshot.calleesOf name = _ := holds.callees.refs name
    have refsToo : other.snapshot.calleesOf name = _ := holdsToo.callees.refs name
    rw [refs, refsToo, map_key_toCallee, map_key_toCallee]
    exact (same.filter _).map _
  · have refs : builder.snapshot.callersOf name = _ := holds.callers.refs name
    have refsToo : other.snapshot.callersOf name = _ := holdsToo.callers.refs name
    rw [refs, refsToo, map_key_toCaller, map_key_toCaller]
    exact (same.filter _).map _
  · have sizes : builder.methods.size = other.methods.size := by
      rw [Table.size_eq_length_keys, Table.size_eq_length_keys, methods.length_eq]
    show Stats.mk builder.methods.size builder.edges.values.length _ builder.callees.size
      builder.callers.size = _
    rw [sizes, edges, entryPoints.length_eq, withCallees, withCallers]
    rfl

end Builder

/-! ### Walks over indexes that are alike -/

namespace Index.Alike

variable {one other : Index} {depth : Int}

theorem hasMethod_eq (alike : one.Alike other) (name : String) :
    one.hasMethod name = other.hasMethod name := by
  rw [Bool.eq_iff_iff, Index.hasMethod, Index.hasMethod, Table.has_iff_mem_keys,
    Table.has_iff_mem_keys, alike.methods.mem_iff]

theorem mem_calleeNames (alike : one.Alike other) (a b : String) :
    b ∈ one.calleeNames a ↔ b ∈ other.calleeNames a :=
  mem_refNames_congr (fun name _ => (alike.callees name).mem_iff) a b

theorem mem_callerNames (alike : one.Alike other) (a b : String) :
    b ∈ one.callerNames a ↔ b ∈ other.callerNames a :=
  mem_refNames_congr (fun name _ => (alike.callers name).mem_iff) a b

theorem reaches_iff (alike : one.Alike other) {calls : Nat} {source target : String} :
    one.Reaches calls source target ↔ other.Reaches calls source target := by
  unfold Index.Reaches
  rw [alike.hasMethod_eq]
  refine and_congr_right fun _ => exists_congr fun n => and_congr_right fun _ => ⟨?_, ?_⟩
  · exact Steps.mono fun a b => (alike.mem_calleeNames a b).mp
  · exact Steps.mono fun a b => (alike.mem_calleeNames a b).mpr

/-- The same paths to a target, and the same said of the walk. -/
theorem exists_pathsTo (alike : one.Alike other) (target : String) (deep : 1 ≤ depth) :
    ∃ found again, one.pathsTo target depth none .never = .ok found ∧
      other.pathsTo target depth none .never = .ok again ∧
      (∀ path, path ∈ found.paths ↔ path ∈ again.paths) ∧
      found.depthReached = again.depthReached ∧ found.limitReached = again.limitReached ∧
      found.cancelled = again.cancelled := by
  obtain ⟨found, walked, paths, cut, full, stopped⟩ := one.exists_paths target deep
  obtain ⟨again, walkedToo, pathsToo, cutToo, fullToo, stoppedToo⟩ := other.exists_paths target deep
  have same : ∀ path, path ∈ found.paths ↔ path ∈ again.paths := by
    intro path
    rw [paths, pathsToo, alike.hasMethod_eq, PathsTo.due_congr alike.mem_callerNames]
  refine ⟨found, again, walked, walkedToo, same, ?_, ?_, ?_⟩
  · rw [cut, cutToo, Bool.eq_iff_iff, List.any_eq_true, List.any_eq_true]
    simp only [same]
  · rw [full, fullToo]
  · rw [stopped, stoppedToo]

/-- The same methods at every level. -/
theorem exists_reach (alike : one.Alike other) (start : String) (deep : 1 ≤ depth) :
    ∃ reach again, one.reach start depth .never = .ok reach ∧
      other.reach start depth .never = .ok again ∧
      ∀ level name, name ∈ reach.level level ↔ name ∈ again.level level := by
  obtain ⟨reach, walked, visits⟩ := one.exists_visits start deep
  obtain ⟨again, walkedToo, visitsToo⟩ := other.exists_visits start deep
  refine ⟨reach, again, walked, walkedToo, fun level name => ?_⟩
  rw [Reach.mem_level_iff, Reach.mem_level_iff, visits, visitsToo, alike.hasMethod_eq,
    nearest_congr alike.mem_calleeNames]

/-- A path of the same length, or none. -/
theorem exists_link (alike : one.Alike other) (built : one.Built) (builtToo : other.Built)
    (source target : String) (deep : 1 ≤ depth) :
    ∃ link again, one.link source target depth .never = .ok link ∧
      other.link source target depth .never = .ok again ∧
      link.path.length = again.path.length := by
  obtain ⟨link, joined, answer⟩ := Index.exists_link built source target deep
  obtain ⟨again, joinedToo, answerToo⟩ := Index.exists_link builtToo source target deep
  refine ⟨link, again, joined, joinedToo, ?_⟩
  rw [alike.reaches_iff] at answer
  rcases answer with ⟨away, none⟩ | ⟨reaches, route, shortest, tip, -, path⟩
  · rcases answerToo with ⟨-, noneToo⟩ | ⟨reaches, -⟩
    · rw [none, noneToo]
    · exact absurd reaches away
  · rcases answerToo with ⟨away, -⟩ | ⟨-, routeToo, shortestToo, tipToo, -, pathToo⟩
    · exact absurd reaches away
    · -- both routes are shortest ways between the same methods
      have near : Nearest other.calleeNames route.hops source target :=
        tip ▸ (nearest_congr alike.mem_calleeNames).mp shortest.near
      have nearToo : Nearest other.calleeNames routeToo.hops source target :=
        tipToo ▸ shortestToo.near
      have hops : route.trail.length = routeToo.trail.length := near.unique nearToo
      rw [path, pathToo, List.length_reverse, List.length_reverse]
      exact congrArg Nat.succ hops

/-- The same answers of the service, over references that are the same up to order. -/
theorem related (alike : one.Alike other) {next again : String → List Ref}
    (same : ∀ name, ((next name).map Ref.key).Perm ((again name).map Ref.key))
    (settings : Settings) (given : Value) (depth : Option Int) (includeSelf : Bool) :
    Related.Alike (Service.related ⟨one, settings⟩ next given depth includeSelf)
      (Service.related ⟨other, settings⟩ again given depth includeSelf) := by
  have keys : ∀ name key, key ∈ (next name).map Ref.key ↔ key ∈ (again name).map Ref.key :=
    fun name _ => (same name).mem_iff
  have checked : Service.checkedMethod ⟨one, settings⟩ given depth =
      Service.checkedMethod ⟨other, settings⟩ given depth := by
    unfold Service.checkedMethod
    simp only [alike.hasMethod_eq]
    rfl
  rw [Service.related_eq, Service.related_eq, checked]
  cases Service.checkedMethod ⟨other, settings⟩ given depth with
  | error cause => exact .refused cause
  | ok query =>
    obtain ⟨name, levels⟩ := query
    refine .answered rfl ?_ ?_
    · rintro ⟨entry, hops, site⟩
      rw [Service.mem_key_answer_iff, Service.mem_key_answer_iff]
      simp only [Related.met_congr keys]
    · obtain ⟨-, last⟩ := Related.levels_reports next name levels
      obtain ⟨-, lastToo⟩ := Related.levels_reports again name levels
      exact (last.congr (mem_refNames_congr keys)).unique lastToo

end Index.Alike

/-! ### Any order of arrival -/

/-- **The order of arrival changes the order of answers only.** Typed edges have an index in
whatever order they come, and the indexes of two orders are alike: the same methods, references,
entry points and sizes. Every walk over them, at every depth and without a cap or a signal, finds
the same: the same paths to a method and the same said of them, the same methods at every level, a
path of the same length between two methods or none, and the same callers and callees up to the same
level. -/
theorem arrival_order {first second : List Edge} (permuted : first.Perm second)
    (typed : ∀ edge ∈ first, edge.Typed) :
    ∃ one other, Index.ofEdges first = .ok one ∧ Index.ofEdges second = .ok other ∧
      one.Alike other ∧
      (∀ target (depth : Int), 1 ≤ depth →
        ∃ found again, one.pathsTo target depth none .never = .ok found ∧
          other.pathsTo target depth none .never = .ok again ∧
          (∀ path, path ∈ found.paths ↔ path ∈ again.paths) ∧
          found.depthReached = again.depthReached ∧ found.limitReached = again.limitReached ∧
          found.cancelled = again.cancelled) ∧
      (∀ start (depth : Int), 1 ≤ depth →
        ∃ reach again, one.reach start depth .never = .ok reach ∧
          other.reach start depth .never = .ok again ∧
          ∀ level name, name ∈ reach.level level ↔ name ∈ again.level level) ∧
      (∀ source target (depth : Int), 1 ≤ depth →
        ∃ link again, one.link source target depth .never = .ok link ∧
          other.link source target depth .never = .ok again ∧
          link.path.length = again.path.length) ∧
      ∀ settings given depth includeSelf,
        Related.Alike (Service.callers ⟨one, settings⟩ given depth includeSelf)
            (Service.callers ⟨other, settings⟩ given depth includeSelf) ∧
          Related.Alike (Service.callees ⟨one, settings⟩ given depth includeSelf)
            (Service.callees ⟨other, settings⟩ given depth includeSelf) := by
  have typedToo : ∀ edge ∈ second, edge.Typed := fun edge listed =>
    typed edge (permuted.mem_iff.mpr listed)
  have made := (Index.ofEdges_of_typed typed).1
  have madeToo := (Index.ofEdges_of_typed typedToo).1
  obtain ⟨-, -, holds⟩ := Builder.Holds.addAll_fresh typed
  obtain ⟨-, -, holdsToo⟩ := Builder.Holds.addAll_fresh typedToo
  have alike := holds.alike holdsToo (Edge.perm_call_distinct permuted typed)
  refine ⟨_, _, made, madeToo, alike, fun target depth deep => alike.exists_pathsTo target deep,
    fun start depth deep => alike.exists_reach start deep, fun source target depth deep => ?_,
    fun settings given depth includeSelf => ⟨?_, ?_⟩⟩
  · exact alike.exists_link (.of_ofEdges made) (.of_ofEdges madeToo) source target deep
  · exact alike.related alike.callers settings given depth includeSelf
  · exact alike.related alike.callees settings given depth includeSelf

/-- The payment at line 3, with another type for the bank. -/
def vaultPayment : Edge :=
  { payment 3 with callee := ⟨.text "Shop.Bank.Charge", .text "Vault", .text "Shop"⟩ }

/-- Two edges of one identity and a third, in two orders: what is known of a method differs, and the
indexes are alike. -/
theorem payments_in_two_orders :
    [payment 3, vaultPayment, payment 4].Perm [vaultPayment, payment 4, payment 3] ∧
      ∃ one other, Index.ofEdges [payment 3, vaultPayment, payment 4] = .ok one ∧
        Index.ofEdges [vaultPayment, payment 4, payment 3] = .ok other ∧
        (one.method? "Shop.Bank.Charge").map Method.type = some (.text "Bank") ∧
        (other.method? "Shop.Bank.Charge").map Method.type = some (.text "Vault") ∧
        one.Alike other ∧
        ∃ found again, one.pathsTo "Shop.Bank.Charge" 2 none .never = .ok found ∧
          other.pathsTo "Shop.Bank.Charge" 2 none .never = .ok again ∧
          ∀ path, path ∈ found.paths ↔ path ∈ again.paths := by
  have permuted :
      [payment 3, vaultPayment, payment 4].Perm [vaultPayment, payment 4, payment 3] := by
    show ([payment 3] ++ [vaultPayment, payment 4]).Perm ([vaultPayment, payment 4] ++ [payment 3])
    exact List.perm_append_comm
  have typed : ∀ edge ∈ [payment 3, vaultPayment, payment 4], edge.Typed := by
    intro edge listed
    simp only [List.mem_cons, List.not_mem_nil, or_false] at listed
    rcases listed with rfl | rfl | rfl
    · exact payment_typed 3
    · exact { payment_typed 3 with callee := ⟨⟨_, rfl⟩, ⟨_, rfl⟩, ⟨_, rfl⟩⟩ }
    · exact payment_typed 4
  obtain ⟨one, other, made, madeToo, alike, paths, -⟩ := arrival_order permuted typed
  have known : (Index.ofEdges [payment 3, vaultPayment, payment 4]).map (fun index =>
      (index.method? "Shop.Bank.Charge").map Method.type) = .ok (some (.text "Bank")) := rfl
  have knownToo : (Index.ofEdges [vaultPayment, payment 4, payment 3]).map (fun index =>
      (index.method? "Shop.Bank.Charge").map Method.type) = .ok (some (.text "Vault")) := rfl
  rw [made] at known
  rw [madeToo] at knownToo
  obtain ⟨found, again, walked, walkedToo, same, -⟩ := paths "Shop.Bank.Charge" 2 (by decide)
  exact ⟨permuted, one, other, made, madeToo, Except.ok.inj known, Except.ok.inj knownToo, alike,
    found, again, walked, walkedToo, same⟩

end CallGraph
