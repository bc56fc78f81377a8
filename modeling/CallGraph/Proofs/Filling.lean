/-
**What a builder holds after any run of requests.**

A builder is asked to add one edge or several, any number of times, and is then finished. The edges
that it keeps are the first of each identity (`Edge.distinct`), and all its tables are functions of
that list:

* `Registers`: the registry has the members that the edges mention, in the order of their first
  mention and with what that mention says;
* `Links`: a table of references has the edges of each method, in order;
* `Holds`: the five parts of a builder together.

`Holds.add` is the step: a typed edge is answered by whether its identity is new, and the list grows
accordingly. `Holds.run` takes it to every run of requests.
-/

import CallGraph.Builder
import CallGraph.Proofs.Edges
import CallGraph.Proofs.Tables
import Mathlib.Data.Option.Basic

set_option linter.unusedSectionVars false

namespace CallGraph

/-- What the registry keeps of a member. -/
def Member.entry (member : Member) : Method :=
  ⟨member.label, Text.lastSegment member.label, member.type, member.scope⟩

namespace Builder

/-! ### Requests -/

/-- What can be asked of a builder. -/
inductive Request where
  | add (edge : Edge)
  | addAll (edges : List Edge)

/-- What a builder answers: whether the edge was new, or how many were. -/
inductive Answer where
  | added (new : Bool)
  | counted (new : Nat)

/-- The edges of a request, in order. -/
def Request.edges : Request → List Edge
  | .add edge => [edge]
  | .addAll edges => edges

/-- Serves a request. -/
def serve (builder : Builder) : Request → Except BuilderError Answer × Builder
  | .add edge => ((builder.add edge).1.map .added, (builder.add edge).2)
  | .addAll edges => ((builder.addAll edges).1.map .counted, (builder.addAll edges).2)

/-- Serves requests one after the other, whatever the answers. -/
def run (builder : Builder) : List Request → List (Except BuilderError Answer) × Builder
  | [] => ([], builder)
  | request :: rest =>
    let served := builder.serve request
    (served.1 :: (served.2.run rest).1, (served.2.run rest).2)

/-- The answer that is due once some edges have been fed: an edge is new when its identity is not
among theirs. -/
def Request.due (fed : List Edge) : Request → Answer
  | .add edge => .added (edge.isNew (fed.map Edge.key?))
  | .addAll edges => .counted (Edge.newAfter (fed.map Edge.key?) edges).length

/-- The answers that are due to a run of requests once some edges have been fed. -/
def dues (fed : List Edge) : List Request → List Answer
  | [] => []
  | request :: rest => request.due fed :: dues (fed ++ request.edges) rest

/-! ### The registry -/

/-- A registry with one more member mentioned. -/
def enroll (methods : Table String Method) (member : Member) : Table String Method :=
  if methods.has member.label then methods else methods.put member.label member.entry

/-- Registering a member whose name is a text enrolls it. -/
theorem register_of_text (builder : Builder) {member : Member}
    (text : member.name = .text member.label) :
    builder.register member =
      .ok (member.label, { builder with methods := enroll builder.methods member }) := by
  unfold register
  rw [text]
  show (if builder.methods.has member.label then _ else _) = _
  unfold enroll
  split
  · rfl
  · rfl

/-- A registry lists the mentioned members in the order of their first mention, each with what that
mention says. -/
structure Registers (methods : Table String Method) (mentioned : List Member) : Prop where
  keys : methods.keys = (mentioned.map Member.label).eraseDups
  find : ∀ name, methods.find? name =
    (mentioned.find? fun member => member.label = name).map Member.entry

theorem Registers.empty : Registers .empty [] := ⟨rfl, fun _ => rfl⟩

theorem Registers.enroll {methods : Table String Method} {mentioned : List Member}
    (registers : Registers methods mentioned) (member : Member) :
    Registers (enroll methods member) (mentioned ++ [member]) := by
  have hasIff : methods.has member.label = true ↔ member.label ∈ mentioned.map Member.label := by
    rw [Table.has_iff_mem_keys, registers.keys, List.mem_eraseDups]
  unfold Builder.enroll
  by_cases known : methods.has member.label = true
  · rw [if_pos known]
    have listed := hasIff.mp known
    refine ⟨?_, fun name => ?_⟩
    · rw [List.map_append, List.map_singleton, eraseDups_concat, if_pos listed]
      exact registers.keys
    · rw [registers.find, List.find?_append]
      by_cases same : member.label = name
      · -- the first mention of the name stands earlier in the list
        obtain ⟨earlier, isMember, sameLabel⟩ := List.mem_map.mp listed
        have found : (mentioned.find? fun other => other.label = name).isSome = true :=
          List.find?_isSome.mpr ⟨earlier, isMember, by simp [sameLabel, same]⟩
        obtain ⟨first, isFirst⟩ := Option.isSome_iff_exists.mp found
        rw [isFirst]
        rfl
      · simp [same]
  · rw [if_neg known]
    have unlisted : member.label ∉ mentioned.map Member.label := fun listed =>
      known (hasIff.mpr listed)
    refine ⟨?_, fun name => ?_⟩
    · rw [List.map_append, List.map_singleton]
      exact Table.keys_upsert_eq_eraseDups registers.keys _ _
    · rw [Table.find?_put, registers.find, List.find?_append]
      by_cases same : member.label = name
      · have nowhere : (mentioned.find? fun other => other.label = name) = none := by
          refine List.find?_eq_none.mpr fun other isMember equal => unlisted ?_
          exact List.mem_map.mpr ⟨other, isMember, by simpa [same] using equal⟩
        rw [if_pos same, nowhere]
        simp [same]
      · simp [same]

/-! ### References -/

/-- A table of references has, under the source of each edge, the targets of its edges in order. -/
structure Links (table : Table String (List Ref)) (source : Edge → String) (target : Edge → Ref)
    (kept : List Edge) : Prop where
  keys : table.keys = (kept.map source).eraseDups
  refs : ∀ name, (table.find? name).getD [] =
    (kept.filter fun edge => source edge = name).map target

section Links

variable {table : Table String (List Ref)} {source : Edge → String} {target : Edge → Ref}
  {kept : List Edge}

theorem Links.empty : Links .empty source target [] := ⟨rfl, fun _ => rfl⟩

theorem Links.append (links : Links table source target kept) (edge : Edge) :
    Links (table.upsert (source edge) (appendRef (target edge))) source target
      (kept ++ [edge]) := by
  refine ⟨?_, fun name => ?_⟩
  · rw [List.map_append, List.map_singleton]
    exact Table.keys_upsert_eq_eraseDups links.keys _ _
  · rw [Table.find?_upsert, List.filter_append, List.map_append, ← links.refs]
    by_cases same : source edge = name
    · subst same
      simp [appendRef]
    · simp [same]

/-- Only the sources of edges have an entry. -/
theorem Links.has_iff (links : Links table source target kept) (name : String) :
    table.has name = true ↔ ∃ edge ∈ kept, source edge = name := by
  rw [Table.has_iff_mem_keys, links.keys, List.mem_eraseDups, List.mem_map]

end Links

/-! ### All parts of a builder -/

/-- The builder is open and its tables are those of the given edges. -/
structure Holds (builder : Builder) (kept : List Edge) : Prop where
  isOpen : builder.closed = false
  keys : builder.edges.keys.map some = kept.map Edge.key?
  edges : builder.edges.values = kept
  methods : Registers builder.methods (kept.flatMap Edge.members)
  callees : Links builder.callees (fun edge => edge.caller.label) Edge.toCallee kept
  callers : Links builder.callers (fun edge => edge.callee.label) Edge.toCaller kept

theorem Holds.fresh : Holds .fresh [] :=
  ⟨rfl, rfl, rfl, Registers.empty, Links.empty, Links.empty⟩

namespace Holds

variable {builder : Builder} {kept fed : List Edge}

theorem has_iff (holds : builder.Holds kept) {edge : Edge} {key : Edge.Key}
    (keyed : edge.key? = some key) :
    builder.edges.has key = true ↔ edge.key? ∈ kept.map Edge.key? := by
  rw [Table.has_iff_mem_keys, ← holds.keys, keyed,
    List.mem_map_of_injective (Option.some_injective _)]

/-- An edge whose identity is known changes nothing. -/
theorem add_known (holds : builder.Holds kept) {edge : Edge} (typed : edge.Typed)
    (known : edge.key? ∈ kept.map Edge.key?) : builder.add edge = (.ok false, builder) := by
  obtain ⟨key, keyed⟩ := typed.exists_key
  unfold Builder.add
  rw [holds.isOpen, keyed]
  simp only [Bool.false_eq_true, if_false, (holds.has_iff keyed).mpr known, if_true]

/-- A new edge is noted, its members are registered and linked. -/
theorem add_new (holds : builder.Holds kept) {edge : Edge} (typed : edge.Typed)
    (new : edge.key? ∉ kept.map Edge.key?) :
    ∃ next, builder.add edge = (.ok true, next) ∧ next.Holds (kept ++ [edge]) := by
  obtain ⟨key, keyed⟩ := typed.exists_key
  have absent : ¬ builder.edges.has key = true := fun has => new ((holds.has_iff keyed).mp has)
  have unlisted : key ∉ builder.edges.keys := fun listed =>
    absent ((Table.has_iff_mem_keys _ _).mpr listed)
  unfold Builder.add enter
  rw [holds.isOpen, keyed]
  simp only [Bool.false_eq_true, if_false, absent, register_of_text _ typed.caller.name_eq,
    register_of_text _ typed.callee.name_eq]
  refine ⟨_, rfl, holds.isOpen, ?_, ?_, ?_, ?_, ?_⟩
  · show (builder.edges.put key edge).keys.map some = _
    rw [Table.keys_put, if_neg unlisted, List.map_append, List.map_append, holds.keys,
      List.map_singleton, List.map_singleton, keyed]
  · show (builder.edges.put key edge).values = _
    rw [Table.values_put_of_new edge unlisted, holds.edges]
  · have mentioned : (kept ++ [edge]).flatMap Edge.members =
        kept.flatMap Edge.members ++ [edge.caller] ++ [edge.callee] := by
      simp [Edge.members]
    rw [mentioned]
    exact (holds.methods.enroll edge.caller).enroll edge.callee
  · exact holds.callees.append edge
  · exact holds.callers.append edge

/-- **One more edge.** It is answered by whether its identity is new, and kept if it is. -/
theorem add (holds : builder.Holds (Edge.distinct fed)) {edge : Edge} (typed : edge.Typed) :
    ∃ next, builder.add edge = (.ok (edge.isNew (fed.map Edge.key?)), next) ∧
      next.Holds (Edge.distinct (fed ++ [edge])) := by
  by_cases known : edge.key? ∈ fed.map Edge.key?
  · refine ⟨builder, ?_, ?_⟩
    · rw [holds.add_known typed ((Edge.mem_key?_distinct fed _).mpr known),
        Edge.isNew_of_mem known]
    · rw [Edge.distinct_concat, if_pos known]
      exact holds
  · obtain ⟨next, added, nextHolds⟩ := holds.add_new typed
      (fun listed => known ((Edge.mem_key?_distinct fed _).mp listed))
    refine ⟨next, ?_, ?_⟩
    · rw [added, Edge.isNew_of_not_mem known]
    · rw [Edge.distinct_concat, if_neg known]
      exact nextHolds

/-- Several more edges. -/
theorem addAll (edges : List Edge) (typed : ∀ edge ∈ edges, edge.Typed)
    (holds : builder.Holds (Edge.distinct fed)) :
    ∃ next, builder.addAll edges = (.ok (Edge.newAfter (fed.map Edge.key?) edges).length, next) ∧
      next.Holds (Edge.distinct (fed ++ edges)) := by
  induction edges generalizing builder fed with
  | nil =>
    rw [List.append_nil]
    exact ⟨builder, rfl, holds⟩
  | cons edge rest ih =>
    obtain ⟨grown, added, grownHolds⟩ := holds.add (typed edge List.mem_cons_self)
    obtain ⟨next, counted, nextHolds⟩ :=
      ih (fun other member => typed other (List.mem_cons_of_mem _ member)) grownHolds
    rw [List.append_assoc] at nextHolds
    refine ⟨next, ?_, nextHolds⟩
    unfold Builder.addAll
    rw [added]
    simp only [counted, List.map_append, List.map_singleton, Edge.newAfter]
    by_cases known : edge.key? ∈ fed.map Edge.key?
    · simp [known, Edge.isNew_of_mem known, Except.map]
    · simp [known, Edge.isNew_of_not_mem known, Except.map]

/-- **A request** is answered as it is due. -/
theorem serve {request : Request} (typed : ∀ edge ∈ request.edges, edge.Typed)
    (holds : builder.Holds (Edge.distinct fed)) :
    ∃ next, builder.serve request = (.ok (request.due fed), next) ∧
      next.Holds (Edge.distinct (fed ++ request.edges)) := by
  cases request with
  | add edge =>
    obtain ⟨next, added, nextHolds⟩ := holds.add (typed edge (List.mem_singleton_self edge))
    refine ⟨next, ?_, nextHolds⟩
    show ((builder.add edge).1.map Answer.added, (builder.add edge).2) = _
    rw [added]
    rfl
  | addAll edges =>
    obtain ⟨next, counted, nextHolds⟩ := addAll edges typed holds
    refine ⟨next, ?_, nextHolds⟩
    show ((builder.addAll edges).1.map Answer.counted, (builder.addAll edges).2) = _
    rw [counted]
    rfl

theorem addAll_append {grown : Builder} {first : List Edge} {count : Nat}
    (added : builder.addAll first = (.ok count, grown)) (second : List Edge) :
    (builder.addAll (first ++ second)).2 = (grown.addAll second).2 := by
  induction first generalizing builder count with
  | nil =>
    have same : builder = grown := (Prod.mk.inj added).2
    rw [List.nil_append, same]
  | cons edge rest ih =>
    rw [Builder.addAll] at added
    rw [List.cons_append, Builder.addAll]
    cases step : builder.add edge with
    | mk answer next =>
      rw [step] at added
      cases answer with
      | error cause => cases (Prod.mk.inj added).1
      | ok new =>
        obtain ⟨answered, final⟩ := Prod.mk.inj added
        cases tail : (next.addAll rest).1 with
        | error cause => rw [tail] at answered; cases answered
        | ok more => exact ih (Prod.ext tail final)

/-- A fresh builder takes any typed edges and holds the first of each identity. -/
theorem addAll_fresh (typed : ∀ edge ∈ fed, edge.Typed) :
    ∃ count, Builder.fresh.addAll fed = (.ok count, (Builder.fresh.addAll fed).2) ∧
      (Builder.fresh.addAll fed).2.Holds (Edge.distinct fed) := by
  have start : Builder.fresh.Holds (Edge.distinct []) := Holds.fresh
  obtain ⟨grown, counted, holds⟩ := Holds.addAll fed typed start
  rw [counted]
  exact ⟨_, rfl, holds⟩

/-- A builder that has been fed typed edges takes one more. -/
theorem addAll_concat (typed : ∀ edge ∈ fed, edge.Typed) {edge : Edge} (last : edge.Typed) :
    (Builder.fresh.addAll fed).2.add edge =
      (.ok (edge.isNew (fed.map Edge.key?)), (Builder.fresh.addAll (fed ++ [edge])).2) := by
  obtain ⟨count, counted, holds⟩ := addAll_fresh typed
  obtain ⟨next, added, -⟩ := holds.add last
  rw [addAll_append counted, Builder.addAll, added]
  rfl

theorem serve_snd (builder : Builder) (request : Request) :
    (builder.serve request).2 = (builder.addAll request.edges).2 := by
  cases request with
  | add edge =>
    show (builder.add edge).2 = (builder.addAll [edge]).2
    rw [Builder.addAll]
    cases builder.add edge with
    | mk answer next => cases answer <;> rfl
  | addAll edges => rfl

/-- One request at a time or all edges at once: the builder is the same. -/
theorem run_eq_addAll {requests : List Request}
    (typed : ∀ request ∈ requests, ∀ edge ∈ request.edges, edge.Typed)
    (holds : builder.Holds (Edge.distinct fed)) :
    (builder.run requests).2 = (builder.addAll (requests.flatMap Request.edges)).2 := by
  induction requests generalizing builder fed with
  | nil => rfl
  | cons request rest ih =>
    obtain ⟨next, counted, nextHolds⟩ :=
      addAll request.edges (typed request List.mem_cons_self) holds
    have served : (builder.serve request).2 = next := by rw [serve_snd, counted]
    rw [List.flatMap_cons, addAll_append counted]
    show ((builder.serve request).2.run rest).2 = _
    rw [served]
    exact ih (fun other member => typed other (List.mem_cons_of_mem _ member)) nextHolds

/-- **A run of requests**: every answer is the one due, and the builder holds the first edge of each
identity fed. -/
theorem run {requests : List Request}
    (typed : ∀ request ∈ requests, ∀ edge ∈ request.edges, edge.Typed)
    (holds : builder.Holds (Edge.distinct fed)) :
    (builder.run requests).1 = (dues fed requests).map .ok ∧
      (builder.run requests).2.Holds (Edge.distinct (fed ++ requests.flatMap Request.edges)) := by
  induction requests generalizing builder fed with
  | nil =>
    rw [List.flatMap_nil, List.append_nil]
    exact ⟨rfl, holds⟩
  | cons request rest ih =>
    obtain ⟨next, served, nextHolds⟩ := serve (typed request List.mem_cons_self) holds
    obtain ⟨answers, lastHolds⟩ :=
      ih (fun other member => typed other (List.mem_cons_of_mem _ member)) nextHolds
    rw [List.append_assoc] at lastHolds
    unfold Builder.run
    rw [served, List.flatMap_cons]
    refine ⟨?_, lastHolds⟩
    show _ :: (next.run rest).1 = _
    rw [answers]
    rfl

end Holds

end Builder

end CallGraph
