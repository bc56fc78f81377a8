/-
**Walks see who calls whom, and nothing else.**

An index keeps a reference for every site of a call, and walks read the names of the references,
each once. These names can be read off the pairs of names of the edges given, in their order
(`neighbours`): a further edge of a pair adds nothing to them, whether it is a new site or an edge
that is known already (`Builder.Draws.add`). So the index of a list of edges is *drawn* from the
pairs of the list (`Index.drawn_of_ofEdges`), and it could as well be drawn from the first edge of
each pair (`neighbours_eraseDups`).

* `walks_ignore_sites`: when only the first edge of each pair of names is kept, at any site and with
  any types, namespaces and bound name, every walk gives the same answer as before.
-/

import CallGraph.Proofs.Calls
import CallGraph.Proofs.Walk.Agreement

namespace CallGraph

/-! ### Pairs of names -/

namespace Edge

/-- The names of caller and callee. -/
def pair (edge : Edge) : String × String := (edge.caller.label, edge.callee.label)

/-- The first edge of each pair of names, in order. -/
def firstOfPairs (edges : List Edge) : List Edge :=
  edges.eraseDupsBy fun edge earlier => edge.pair == earlier.pair

/-- **The first edge of each pair of names**, with any other site and metadata in its place. -/
def Thinned (edges others : List Edge) : Prop :=
  List.Forall₂ (fun first other => first.pair = other.pair) (firstOfPairs edges) others

theorem map_pair_firstOfPairs (edges : List Edge) :
    (firstOfPairs edges).map pair = (edges.map pair).eraseDups := by
  induction size : edges.length using Nat.strongRecOn generalizing edges with
  | ind n ih =>
    cases edges with
    | nil => rfl
    | cons edge rest =>
      have shorter : (rest.filter fun other => !other.pair == edge.pair).length < n := by
        have most := List.length_filter_le (fun other => !other.pair == edge.pair) rest
        rw [List.length_cons] at size
        omega
      have later := ih _ shorter (rest.filter fun other => !other.pair == edge.pair) rfl
      rw [List.map_cons, List.eraseDups_cons, List.filter_map]
      show (List.eraseDupsBy _ (edge :: rest)).map pair = _
      rw [List.eraseDupsBy_cons, List.map_cons]
      refine congrArg (edge.pair :: ·) (Eq.trans ?_ later)
      simp only [firstOfPairs, Bool.decide_eq_false]

theorem thinned_iff {edges others : List Edge} :
    Thinned edges others ↔ (edges.map pair).eraseDups = others.map pair := by
  rw [← map_pair_firstOfPairs, ← List.forall₂_eq_eq_eq, List.forall₂_map_left_iff,
    List.forall₂_map_right_iff]
  rfl

end Edge

/-- The names at one end of the pairs that have the given name at the other end, each once. -/
def neighbours (source target : String × String → String) (pairs : List (String × String))
    (name : String) : List String :=
  ((pairs.filter fun pair => source pair = name).map target).eraseDups

section Neighbours

variable {source target : String × String → String} {pairs : List (String × String)}
  {pair : String × String}

/-- A further pair adds its name once, and only to its own neighbours. -/
theorem neighbours_concat (pair : String × String) (name : String) :
    neighbours source target (pairs ++ [pair]) name =
      if source pair = name ∧ target pair ∉ neighbours source target pairs name then
        neighbours source target pairs name ++ [target pair]
      else neighbours source target pairs name := by
  unfold neighbours
  by_cases here : source pair = name
  · rw [List.filter_append, List.filter_singleton, decide_eq_true here, List.map_append]
    show (_ ++ [target pair]).eraseDups = _
    rw [eraseDups_concat]
    simp only [here, true_and, List.mem_eraseDups, ite_not]
  · rw [List.filter_append, List.filter_singleton, decide_eq_false here,
      if_neg fun both => here both.1]
    show (List.map target (_ ++ [])).eraseDups = _
    rw [List.append_nil]

/-- A pair that is there already adds nothing. -/
theorem neighbours_concat_of_mem (listed : pair ∈ pairs) (name : String) :
    neighbours source target (pairs ++ [pair]) name = neighbours source target pairs name := by
  rw [neighbours_concat, if_neg]
  rintro ⟨here, new⟩
  apply new
  rw [neighbours, List.mem_eraseDups]
  exact List.mem_map_of_mem (List.mem_filter.mpr ⟨listed, decide_eq_true here⟩)

/-- **First occurrences are enough** to find all neighbours in their order. -/
theorem neighbours_eraseDups (pairs : List (String × String)) (name : String) :
    neighbours source target pairs.eraseDups name = neighbours source target pairs name := by
  induction pairs using List.reverseRecOn with
  | nil => rfl
  | append_singleton pairs pair ih =>
    rw [eraseDups_concat]
    split
    · rename_i listed
      rw [neighbours_concat_of_mem listed, ih]
    · rw [neighbours_concat, neighbours_concat, ih]

end Neighbours

/-! ### Indexes drawn from pairs -/

/-- **An index as walks see it**: its methods are those of some pairs of names, and so are the
callees and the callers of each, in order. -/
structure Index.Drawn (index : Index) (pairs : List (String × String)) : Prop where
  hasMethod : ∀ name, index.hasMethod name = true ↔ ∃ pair ∈ pairs, pair.1 = name ∨ pair.2 = name
  calleeNames : ∀ name, index.calleeNames name = neighbours Prod.fst Prod.snd pairs name
  callerNames : ∀ name, index.callerNames name = neighbours Prod.snd Prod.fst pairs name

namespace Builder

/-- What a builder shows of the edges that it took. An identity that it knows is that of one of
them, whose names are texts. -/
structure Draws (builder : Builder) (fed : List Edge) : Prop where
  noted : ∀ key ∈ builder.edges.keys,
    ∃ edge ∈ fed, edge.key? = some key ∧ edge.Joins edge.caller.label edge.callee.label
  drawn : builder.snapshot.Drawn (fed.map Edge.pair)

variable {builder : Builder} {fed : List Edge}

theorem Draws.fresh : Draws fresh [] where
  noted _ listed := (List.not_mem_nil listed).elim
  drawn := by
    refine ⟨fun name => ⟨fun has => (Bool.false_ne_true has).elim, ?_⟩, fun _ => rfl, fun _ => rfl⟩
    rintro ⟨pair, listed, -⟩
    exact (List.not_mem_nil listed).elim

/-- A reference after the others, at one end of a pair, is a neighbour more or one met before. -/
theorem names_upsert_appendRef {table : Table String (List Ref)}
    {source target : String × String → String} {pairs : List (String × String)}
    (names : ∀ name, (((table.find? name).getD []).map Ref.name).eraseDups =
      neighbours source target pairs name)
    (pair : String × String) (site : Site) (name : String) :
    ((((table.upsert (source pair) (appendRef ⟨target pair, site⟩)).find? name).getD []).map
      Ref.name).eraseDups = neighbours source target (pairs ++ [pair]) name := by
  rw [neighbours_concat, ← names, Table.find?_upsert]
  by_cases here : source pair = name
  · subst here
    simp only [if_true, Option.getD_some, appendRef, List.map_append, List.map_singleton,
      eraseDups_concat, List.mem_eraseDups, true_and, ite_not]
  · rw [if_neg here, if_neg fun both => here both.1]

theorem Draws.entered (draws : builder.Draws fed) {edge : Edge} {key : Edge.Key}
    (keyed : edge.key? = some key) (callerText : edge.caller.name.IsText)
    (calleeText : edge.callee.name.IsText) : (builder.entered key edge).Draws (fed ++ [edge]) where
  noted other listed := by
    rcases Table.mem_keys_put.mp listed with old | rfl
    · obtain ⟨first, isFed, same⟩ := draws.noted other old
      exact ⟨first, List.mem_append_left _ isFed, same⟩
    · exact ⟨edge, List.mem_append_right _ (List.mem_singleton_self edge), keyed,
        callerText.eq_text, calleeText.eq_text⟩
  drawn := by
    rw [List.map_append, List.map_singleton]
    refine ⟨fun name => ?_, ?_, ?_⟩
    · have known : builder.methods.has name = true ↔ _ := draws.drawn.hasMethod name
      show (enroll (enroll builder.methods edge.caller) edge.callee).has name = true ↔ _
      rw [has_enroll, has_enroll, known, or_assoc]
      simp only [List.mem_append, List.mem_singleton, or_and_right, exists_or, exists_eq_left]
      rfl
    · exact names_upsert_appendRef draws.drawn.calleeNames edge.pair edge.site
    · exact names_upsert_appendRef draws.drawn.callerNames edge.pair edge.site

/-- **One more edge**: a new pair of names, or a pair that was there before. -/
theorem Draws.add (draws : builder.Draws fed) {edge : Edge} {new : Bool} {after : Builder}
    (adds : builder.Adds edge (.ok new) after) : after.Draws (fed ++ [edge]) := by
  cases adds with
  | taken _ keyed _ callerText calleeText => exact draws.entered keyed callerText calleeText
  | known _ keyed listed =>
    obtain ⟨first, isFed, same, joins⟩ := draws.noted _ listed
    -- the identity fixes the names, so the pair was there before
    obtain ⟨callerName, calleeName⟩ := joins.of_key? same keyed
    have pair : edge.pair = first.pair := by
      rw [Edge.pair, Member.label, Member.label, callerName, calleeName]
      rfl
    have before : edge.pair ∈ fed.map Edge.pair := pair ▸ List.mem_map_of_mem isFed
    refine ⟨fun key isKey => ?_, ?_⟩
    · obtain ⟨other, isOther, keys⟩ := draws.noted key isKey
      exact ⟨other, List.mem_append_left _ isOther, keys⟩
    · rw [List.map_append, List.map_singleton]
      refine ⟨fun name => ?_, fun name => ?_, fun name => ?_⟩
      · rw [draws.drawn.hasMethod]
        simp only [List.mem_append, List.mem_singleton, or_and_right, exists_or, exists_eq_left]
        exact (or_iff_left_of_imp fun ends => ⟨_, before, ends⟩).symm
      · rw [neighbours_concat_of_mem before, draws.drawn.calleeNames]
      · rw [neighbours_concat_of_mem before, draws.drawn.callerNames]

end Builder

namespace Index

variable {index one other : Index} {pairs : List (String × String)} {edges : List Edge}

/-- **The index of a list of edges** is drawn from their pairs of names. -/
theorem drawn_of_ofEdges (made : Index.ofEdges edges = .ok index) :
    index.Drawn (edges.map Edge.pair) := by
  obtain ⟨count, builder, fed, finished⟩ := addAll_of_ofEdges made
  obtain ⟨-, methods, callees, callers⟩ := Builder.tables_of_finish finished
  have draws := Builder.addAll_ok_induction (fun draws adds => draws.add adds)
    Builder.Draws.fresh fed
  rw [List.nil_append] at draws
  refine ⟨fun name => ?_, fun name => ?_, fun name => ?_⟩
  · rw [Index.hasMethod, methods]
    exact draws.drawn.hasMethod name
  · rw [Index.calleeNames, Index.calleesOf, callees]
    exact draws.drawn.calleeNames name
  · rw [Index.callerNames, Index.callersOf, callers]
    exact draws.drawn.callerNames name

/-- What is drawn from the first of each pair is drawn from all. -/
theorem Drawn.of_eraseDups (drawn : index.Drawn pairs.eraseDups) : index.Drawn pairs where
  hasMethod name := by
    rw [drawn.hasMethod]
    simp only [List.mem_eraseDups]
  calleeNames name := by rw [drawn.calleeNames, neighbours_eraseDups]
  callerNames name := by rw [drawn.callerNames, neighbours_eraseDups]

/-! ### Walks over indexes drawn from the same pairs -/

section Walks

variable (first : one.Drawn pairs) (second : other.Drawn pairs)

include first second

theorem Drawn.hasMethod_eq (name : String) : one.hasMethod name = other.hasMethod name := by
  rw [Bool.eq_iff_iff, first.hasMethod, second.hasMethod]

theorem Drawn.calleeNames_eq : one.calleeNames = other.calleeNames := by
  funext name
  rw [first.calleeNames, second.calleeNames]

theorem Drawn.callerNames_eq : one.callerNames = other.callerNames := by
  funext name
  rw [first.callerNames, second.callerNames]

theorem Drawn.pathsTo_eq (target : String) (depth : Int) (cap : Option Int) (signal : Signal) :
    one.pathsTo target depth cap signal = other.pathsTo target depth cap signal := by
  unfold Index.pathsTo
  rw [first.hasMethod_eq second, first.callerNames_eq second]

theorem Drawn.reach_eq (start : String) (depth : Int) (signal : Signal) :
    one.reach start depth signal = other.reach start depth signal := by
  unfold Index.reach
  rw [first.hasMethod_eq second, first.calleeNames_eq second]

theorem Drawn.link_eq (source target : String) (depth : Int) (signal : Signal) :
    one.link source target depth signal = other.link source target depth signal := by
  unfold Index.link
  rw [first.hasMethod_eq second, first.hasMethod_eq second, first.calleeNames_eq second]

end Walks

end Index

/-- **Walks ignore how often, where and as what a call was seen.** Take any edges, and in their
place the first edge of each pair of names with any site and metadata. Typed edges have an index,
and whenever both lists have one, every walk over the two indexes gives the same answer at every
depth, under every cap and every signal: the same paths to a method in the same order, the same
methods at the same levels, the same path between two methods, the same flags and the same number
of polls. -/
theorem walks_ignore_sites {edges others : List Edge} (thinned : Edge.Thinned edges others) :
    ((∀ edge ∈ edges, edge.Typed) → (∀ edge ∈ others, edge.Typed) →
      ∃ one other, Index.ofEdges edges = .ok one ∧ Index.ofEdges others = .ok other) ∧
    ∀ one other, Index.ofEdges edges = .ok one → Index.ofEdges others = .ok other →
      ∀ (depth : Int) (signal : Signal), 1 ≤ depth →
        (∀ target cap, ∃ found, one.pathsTo target depth cap signal = .ok found ∧
          other.pathsTo target depth cap signal = .ok found) ∧
        (∀ start, ∃ reach, one.reach start depth signal = .ok reach ∧
          other.reach start depth signal = .ok reach) ∧
        ∀ source target, ∃ link, one.link source target depth signal = .ok link ∧
          other.link source target depth signal = .ok link := by
  refine ⟨fun typed typedToo => ?_, fun one other made madeToo depth signal deep => ?_⟩
  · exact ⟨_, _, (Index.ofEdges_of_typed typed).1, (Index.ofEdges_of_typed typedToo).1⟩
  · have drawn := Index.drawn_of_ofEdges made
    have drawnToo : other.Drawn (edges.map Edge.pair) := by
      apply Index.Drawn.of_eraseDups
      rw [Edge.thinned_iff.mp thinned]
      exact Index.drawn_of_ofEdges madeToo
    refine ⟨fun target cap => ?_, fun start => ?_, fun source target => ?_⟩
    · obtain ⟨found, walked⟩ := one.exists_pathsTo_eq target deep cap signal
      exact ⟨found, walked, (drawn.pathsTo_eq drawnToo target depth cap signal).symm.trans walked⟩
    · obtain ⟨reach, walked⟩ := one.exists_reach_eq start deep signal
      exact ⟨reach, walked, (drawn.reach_eq drawnToo start depth signal).symm.trans walked⟩
    · obtain ⟨link, walked⟩ := one.exists_link_eq source target deep signal
      exact ⟨link, walked, (drawn.link_eq drawnToo source target depth signal).symm.trans walked⟩

/-- A job that is started from two lines of one method and by its retries, one of them reported
twice. -/
def jobSightings : List Edge :=
  [("App.Main.Run", "App.Job.Start", 3), ("App.Job.Retry", "App.Job.Start", 7),
    ("App.Main.Run", "App.Job.Start", 9), ("App.Job.Start", "App.Job.Retry", 4),
    ("App.Job.Retry", "App.Job.Start", 7)].map fun call =>
      Edge.between call.1 call.2.1 ⟨Edge.standardFile, .int call.2.2⟩

/-- The same calls, once each, between methods of one class in an unnamed file. -/
def jobPairs : List Edge :=
  [("App.Main.Run", "App.Job.Start"), ("App.Job.Retry", "App.Job.Start"),
    ("App.Job.Start", "App.Job.Retry")].map fun call =>
      ⟨⟨.text call.1, .text "All", .text ""⟩, ⟨.text call.2, .text "All", .text ""⟩,
        ⟨.text "", .int 0⟩, .text "App.Old.Start"⟩

theorem jobSightings_walked_alike :
    Edge.Thinned jobSightings jobPairs ∧
      ∃ one other, Index.ofEdges jobSightings = .ok one ∧ Index.ofEdges jobPairs = .ok other ∧
        (one.callersOf "App.Job.Start").length = 3 ∧
        (other.callersOf "App.Job.Start").length = 2 ∧
        (∃ found, one.pathsTo "App.Job.Start" 4 (some 1) (.after 2) = .ok found ∧
          other.pathsTo "App.Job.Start" 4 (some 1) (.after 2) = .ok found) ∧
        (∃ reach, one.reach "App.Main.Run" 4 .never = .ok reach ∧
          other.reach "App.Main.Run" 4 .never = .ok reach) ∧
        ∃ link, one.link "App.Main.Run" "App.Job.Retry" 4 .never = .ok link ∧
          other.link "App.Main.Run" "App.Job.Retry" 4 .never = .ok link := by
  have thinned : Edge.Thinned jobSightings jobPairs := Edge.thinned_iff.mpr (by decide)
  have typed : ∀ edge ∈ jobSightings, edge.Typed := by
    intro edge listed
    obtain ⟨call, -, rfl⟩ := List.mem_map.mp listed
    exact Edge.typed_between _ _ ⟨_, rfl⟩ (Or.inl ⟨_, rfl⟩)
  have typedToo : ∀ edge ∈ jobPairs, edge.Typed := by
    intro edge listed
    obtain ⟨call, -, rfl⟩ := List.mem_map.mp listed
    exact ⟨⟨⟨_, rfl⟩, ⟨_, rfl⟩, ⟨_, rfl⟩⟩, ⟨⟨_, rfl⟩, ⟨_, rfl⟩, ⟨_, rfl⟩⟩, ⟨_, rfl⟩,
      Or.inl ⟨_, rfl⟩⟩
  obtain ⟨indexed, walks⟩ := walks_ignore_sites thinned
  obtain ⟨one, other, made, madeToo⟩ := indexed typed typedToo
  have sites : (Index.ofEdges jobSightings).map (fun index =>
      (index.callersOf "App.Job.Start").length) = .ok 3 := rfl
  have sitesToo : (Index.ofEdges jobPairs).map (fun index =>
      (index.callersOf "App.Job.Start").length) = .ok 2 := rfl
  rw [made] at sites
  rw [madeToo] at sitesToo
  refine ⟨thinned, one, other, made, madeToo, Except.ok.inj sites, Except.ok.inj sitesToo, ?_⟩
  have deep : (1 : Int) ≤ 4 := by decide
  obtain ⟨paths, -⟩ := walks one other made madeToo 4 (.after 2) deep
  obtain ⟨-, reaches, links⟩ := walks one other made madeToo 4 .never deep
  exact ⟨paths _ _, reaches _, links _ _⟩

end CallGraph
