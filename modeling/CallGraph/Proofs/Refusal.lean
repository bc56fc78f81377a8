/-
**What a refused request leaves behind.**

`Builder.Adds` has one rule for each way in which an edge is answered, and every request follows one
of them (`Builder.adds_add`). A refusal leaves no trace when the builder is closed or the edge has
no identity. An edge with an identity is noted before its names are looked at, so a name that is no
text is refused too late: the edge stays, and with it a caller that came before the odd name. No
call is linked and nothing is closed. A builder is closed before its index is made, so it stays
closed when that fails, and a closed builder never changes again (`Builder.run_of_closed`).

* `refusals_leave`: what is left of a builder after any refusal;
* `refusals_not_atomic`: an odd name leaves its edge, and an odd type a closed builder.
-/

import CallGraph.Proofs.Adjacency
import CallGraph.Proofs.Snapshot

namespace CallGraph

namespace Builder

variable {builder : Builder} {edge : Edge}

/-! ### One edge -/

/-- A builder with an edge noted and its caller entered in the registry. -/
def halfway (builder : Builder) (key : Edge.Key) (edge : Edge) : Builder :=
  { builder.note key edge with methods := enroll builder.methods edge.caller }

/-- A builder with an edge noted, and both its ends registered and linked. -/
def entered (builder : Builder) (key : Edge.Key) (edge : Edge) : Builder :=
  Builder.link
    { builder.halfway key edge with
      methods := enroll (enroll builder.methods edge.caller) edge.callee }
    edge.caller.label edge.callee.label edge.site

/-- **How an edge is answered**, and the builder afterwards. -/
inductive Adds (builder : Builder) (edge : Edge) : Except BuilderError Bool → Builder → Prop
  | closed (isClosed : builder.closed = true) : Adds builder edge (.error .closed) builder
  | noKey (isOpen : builder.closed = false) (keyless : edge.key? = none) :
      Adds builder edge (.error (.misuse .notKey)) builder
  | known {key : Edge.Key} (isOpen : builder.closed = false) (keyed : edge.key? = some key)
      (listed : key ∈ builder.edges.keys) : Adds builder edge (.ok false) builder
  | oddCaller {key : Edge.Key} (isOpen : builder.closed = false) (keyed : edge.key? = some key)
      (new : key ∉ builder.edges.keys) (odd : ¬ edge.caller.name.IsText) :
      Adds builder edge (.error (.misuse .notText)) (builder.note key edge)
  | oddCallee {key : Edge.Key} (isOpen : builder.closed = false) (keyed : edge.key? = some key)
      (new : key ∉ builder.edges.keys) (text : edge.caller.name.IsText)
      (odd : ¬ edge.callee.name.IsText) :
      Adds builder edge (.error (.misuse .notText)) (builder.halfway key edge)
  | taken {key : Edge.Key} (isOpen : builder.closed = false) (keyed : edge.key? = some key)
      (new : key ∉ builder.edges.keys) (callerText : edge.caller.name.IsText)
      (calleeText : edge.callee.name.IsText) :
      Adds builder edge (.ok true) (builder.entered key edge)

theorem register_of_not_text (builder : Builder) {member : Member} (odd : ¬ member.name.IsText) :
    builder.register member = .error .notText := by
  have refused : member.name.asText = .error .notText := by
    unfold Value.asText
    split
    · rename_i s is
      exact absurd ⟨s, is⟩ odd
    · rfl
  rw [register, refused]
  rfl

theorem adds_enter {key : Edge.Key} (isOpen : builder.closed = false)
    (keyed : edge.key? = some key) (new : key ∉ builder.edges.keys) :
    builder.Adds edge (builder.enter key edge).1 (builder.enter key edge).2 := by
  unfold enter
  by_cases callerText : edge.caller.name.IsText
  · simp only [register_of_text _ callerText.eq_text]
    by_cases calleeText : edge.callee.name.IsText
    · simp only [register_of_text _ calleeText.eq_text]
      exact .taken isOpen keyed new callerText calleeText
    · simp only [register_of_not_text _ calleeText]
      exact .oddCallee isOpen keyed new callerText calleeText
  · simp only [register_of_not_text _ callerText]
    exact .oddCaller isOpen keyed new callerText

/-- **Every edge is answered in one of these ways.** -/
theorem adds_add (builder : Builder) (edge : Edge) :
    builder.Adds edge (builder.add edge).1 (builder.add edge).2 := by
  unfold add
  split
  · rename_i isClosed
    exact .closed isClosed
  · rename_i goes
    have isOpen : builder.closed = false := eq_false_of_ne_true goes
    cases keyed : edge.key? with
    | none => exact .noKey isOpen keyed
    | some key =>
      dsimp only
      split
      · rename_i has
        exact .known isOpen keyed ((Table.has_iff_mem_keys _ _).mp has)
      · rename_i absent
        exact adds_enter isOpen keyed fun listed => absent ((Table.has_iff_mem_keys _ _).mpr listed)

/-- What an odd name leaves in a builder: the edge, and its caller when that has a name. -/
structure Remains (builder : Builder) (edge : Edge) (after : Builder) : Prop where
  edges : after.edges.values = builder.edges.values ++ [edge]
  keys : after.edges.keys.map some = builder.edges.keys.map some ++ [edge.key?]
  unnamed : ¬ edge.caller.name.IsText → after.methods = builder.methods
  named : edge.caller.name.IsText → after.methods = enroll builder.methods edge.caller

theorem map_some_keys_note {key : Edge.Key} (keyed : edge.key? = some key)
    (new : key ∉ builder.edges.keys) :
    (builder.note key edge).edges.keys.map some = builder.edges.keys.map some ++ [edge.key?] := by
  show (builder.edges.put key edge).keys.map some = _
  rw [Table.keys_put, if_neg new, List.map_append, List.map_singleton, keyed]

/-- A refused edge is not linked, and the builder stays as open as it was. -/
theorem Adds.frame {cause : BuilderError} {after : Builder}
    (adds : builder.Adds edge (.error cause) after) :
    after.callees = builder.callees ∧ after.callers = builder.callers ∧
      after.closed = builder.closed := by
  cases adds with
  | closed => exact ⟨rfl, rfl, rfl⟩
  | noKey => exact ⟨rfl, rfl, rfl⟩
  | oddCaller => exact ⟨rfl, rfl, rfl⟩
  | oddCallee => exact ⟨rfl, rfl, rfl⟩

theorem Adds.eq_of_refused {cause : BuilderError} {after : Builder}
    (adds : builder.Adds edge (.error cause) after)
    (early : cause ≠ .misuse .notText ∨
      edge.caller.name.IsText ∧ edge.callee.name.IsText) : after = builder := by
  cases adds with
  | closed => rfl
  | noKey => rfl
  | oddCaller _ _ _ odd =>
    rcases early with other | texts
    · exact absurd rfl other
    · exact absurd texts.1 odd
  | oddCallee _ _ _ _ odd =>
    rcases early with other | texts
    · exact absurd rfl other
    · exact absurd texts.2 odd

theorem Adds.remains {after : Builder}
    (adds : builder.Adds edge (.error (.misuse .notText)) after) : builder.Remains edge after := by
  cases adds with
  | oddCaller _ keyed new odd =>
    exact ⟨Table.values_put_of_new edge new, map_some_keys_note keyed new, fun _ => rfl,
      fun text => absurd text odd⟩
  | oddCallee _ keyed new text _ =>
    exact ⟨Table.values_put_of_new edge new, map_some_keys_note keyed new,
      fun odd => absurd text odd, fun _ => rfl⟩

/-! ### Closing -/

theorem add_of_closed (isClosed : builder.closed = true) (edge : Edge) :
    builder.add edge = (.error .closed, builder) :=
  if_pos isClosed

theorem addAll_of_closed (isClosed : builder.closed = true) (edges : List Edge) :
    (builder.addAll edges).2 = builder := by
  cases edges with
  | nil => rfl
  | cons edge rest => rw [addAll, add_of_closed isClosed]

/-- **A closed builder never changes.** -/
theorem run_of_closed (isClosed : builder.closed = true) (requests : List Request) :
    (builder.run requests).2 = builder := by
  induction requests with
  | nil => rfl
  | cons request rest ih =>
    have served : (builder.serve request).2 = builder := by
      rw [Holds.serve_snd, addAll_of_closed isClosed]
    show ((builder.serve request).2.run rest).2 = builder
    rw [served]
    exact ih

/-- Finishing closes the builder, whatever comes of it, and changes nothing else. -/
theorem finish_snd (builder : Builder) : builder.finish.2 = { builder with closed := true } := by
  unfold finish
  split
  · rename_i isClosed
    rw [← isClosed]
  · rfl

theorem finish_error_closed_iff {cause : BuilderError} (refused : builder.finish.1 = .error cause) :
    cause = .closed ↔ builder.closed = true := by
  unfold finish at refused
  split at refused
  · rename_i isClosed
    exact iff_of_true (Except.error.inj refused).symm isClosed
  · rename_i isOpen
    refine iff_of_false ?_ isOpen
    cases made : builder.index with
    | ok index => rw [made] at refused; cases refused
    | error misuse =>
      rw [made] at refused
      obtain rfl := Except.error.inj refused
      exact fun wrong => BuilderError.noConfusion wrong

end Builder

/-! ### All refusals -/

/-- **What refusals leave.** A refused edge is not linked and closes nothing. It leaves no trace at
all unless it is refused for a name that is no text; then the edge itself stays noted, and its
caller registered if only the name of the callee is odd. Finishing that is refused keeps all tables,
and the builder is closed afterwards for good: it was before when that is the reason, and it is now
otherwise. -/
theorem refusals_leave (builder : Builder) :
    (∀ edge cause, (builder.add edge).1 = .error cause →
      ((builder.add edge).2.callees = builder.callees ∧
        (builder.add edge).2.callers = builder.callers ∧
        (builder.add edge).2.closed = builder.closed) ∧
      (cause ≠ .misuse .notText ∨ edge.caller.name.IsText ∧ edge.callee.name.IsText →
        (builder.add edge).2 = builder) ∧
      (cause = .misuse .notText → builder.Remains edge (builder.add edge).2)) ∧
    ∀ cause, builder.finish.1 = .error cause →
      builder.finish.2 = { builder with closed := true } ∧
      (cause = .closed ↔ builder.closed = true) ∧
      (cause = .closed → builder.finish.2 = builder) ∧
      (∀ edge, (builder.finish.2.add edge).1 = .error .closed) ∧
      builder.finish.2.finish.1 = .error .closed ∧
      ∀ requests, (builder.finish.2.run requests).2 = builder.finish.2 := by
  constructor
  · intro edge cause refused
    have adds := Builder.adds_add builder edge
    rw [refused] at adds
    refine ⟨adds.frame, adds.eq_of_refused, ?_⟩
    rintro rfl
    exact adds.remains
  · intro cause refused
    have after := builder.finish_snd
    have isClosed : builder.finish.2.closed = true := by rw [after]
    have reason := Builder.finish_error_closed_iff refused
    refine ⟨after, reason, fun is => ?_, fun edge => ?_, ?_, Builder.run_of_closed isClosed⟩
    · rw [after, ← reason.mp is]
    · rw [Builder.add_of_closed isClosed]
    · rw [Builder.finish, if_pos isClosed]

/-- A payment by a caller that has a number for a name. -/
def numberedPayment : Edge := { payment 3 with caller := ⟨.int 7, .text "Cart", .text "Shop"⟩ }

/-- A payment in a type that has a number for a name. -/
def numberedCart : Edge :=
  { payment 3 with caller := ⟨.text "Shop.Cart.Pay", .int 7, .text "Shop"⟩ }

/-- The builder of a payment in a type that has a number for a name. -/
def numberedBuilder : Builder := (Builder.fresh.add numberedCart).2

theorem numbered_refusals_leave :
    (Builder.fresh.add numberedPayment).1 = .error (.misuse .notText) ∧
      Builder.fresh.Remains numberedPayment (Builder.fresh.add numberedPayment).2 ∧
      numberedBuilder.finish.1 = .error (.misuse .notText) ∧
      numberedBuilder.closed = false ∧
      numberedBuilder.finish.2 = { numberedBuilder with closed := true } ∧
      (numberedBuilder.finish.2.add (payment 4)).1 = .error .closed := by
  have refused : (Builder.fresh.add numberedPayment).1 = .error (.misuse .notText) := rfl
  have unfinished : numberedBuilder.finish.1 = .error (.misuse .notText) := rfl
  obtain ⟨-, -, remains⟩ := (refusals_leave .fresh).1 numberedPayment _ refused
  obtain ⟨after, -, -, later, -⟩ := (refusals_leave numberedBuilder).2 _ unfinished
  exact ⟨refused, remains rfl, unfinished, rfl, after, later (payment 4)⟩

/-- **Refusals are not free of traces.** A fresh builder that refuses an edge for its name counts it
all the same, and an open builder that cannot be finished is closed afterwards and refuses an edge
that it took before. -/
theorem refusals_not_atomic :
    (∃ cause, (Builder.fresh.add numberedPayment).1 = .error cause) ∧
      Builder.fresh.edgeCount = 0 ∧ (Builder.fresh.add numberedPayment).2.edgeCount = 1 ∧
      (∃ cause, numberedBuilder.finish.1 = .error cause) ∧
      numberedBuilder.closed = false ∧ numberedBuilder.finish.2.closed = true ∧
      (numberedBuilder.add (payment 4)).1 = .ok true ∧
      (numberedBuilder.finish.2.add (payment 4)).1 = .error .closed :=
  ⟨⟨_, rfl⟩, rfl, rfl, ⟨_, rfl⟩, rfl, rfl, rfl, rfl⟩

end CallGraph
