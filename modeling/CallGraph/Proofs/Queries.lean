/-
**Queries about what is known.**

A query takes the trimmed form of the name it is given (`requireName_of_trim`). When that is a known
method, only the depth can still be refused, and a depth that is left out never is
(`Service.within_iff`). A depth that is refused is shown as the fault of the query, unless it is too
long to be written (`Service.checkedDepth_of_not_within`).

* `Service.related_of_known`: callers and callees of a known method are answered at every depth
  within the limit, and no depth makes the method unknown;
* `ClassReference.collect_of_placed`: on edges whose types and namespaces are texts, where the
  reference that an edge makes is a function of it (`ClassReference.made?`), the references of all
  edges are collected, each class once;
* `Service.classReferences_of_known`: references to a known class are answered when the edges are
  typed.
-/

import CallGraph.Proofs.Edges
import CallGraph.Service.ClassReferences
import CallGraph.Service.Related

namespace CallGraph

/-- The query itself is at fault, for its name or its depth. -/
def QueryError.isInput : QueryError → Bool
  | methodRequired | classRequired | depthTooSmall _ | depthTooGreat _ _ => true
  | methodUnknown _ | classUnknown _ | depth _ | misuse _ => false

theorem requireName_of_trim {spelling name : String} (trims : Text.trim spelling = name)
    (full : name ≠ "") (refusal : QueryError) :
    requireName (.text spelling) refusal = .ok name := by
  have given : ¬ (Value.text spelling).isVoid = true := by
    intro void
    obtain rfl := String.isEmpty_iff.mp void
    exact full trims.symm
  have content : ¬ (Text.trim spelling).isEmpty = true := by
    intro empty
    exact full (trims.symm.trans (String.isEmpty_iff.mp empty))
  rw [requireName, if_neg given]
  show (if (Text.trim spelling).isEmpty = true then Except.error refusal else _) = _
  rw [if_neg content, trims]

namespace Service

variable {service : Service} {depth : Option Int}

/-- The depth is left out, or given within the limit. -/
def Within (service : Service) (depth : Option Int) : Prop :=
  ∀ given, depth = some given → 1 ≤ given ∧ given ≤ service.settings.maxDepthLimit.1

/-- The depth at which a query is answered: the one that it gives, or the default. -/
def depthFor (service : Service) (depth : Option Int) : Int :=
  depth.getD service.settings.defaultDepth.1

/-- The default depth is within the limit as well. -/
theorem within_iff (service : Service) (depth : Option Int) :
    service.Within depth ↔
      1 ≤ service.depthFor depth ∧ service.depthFor depth ≤ service.settings.maxDepthLimit.1 := by
  cases depth with
  | none =>
    have least := service.settings.defaultDepth.2
    have most := service.settings.default_le_limit
    refine iff_of_true (fun given wrong => by cases wrong) ?_
    show (1 : Int) ≤ service.settings.defaultDepth.1 ∧ (service.settings.defaultDepth.1 : Int) ≤ _
    omega
  | some given =>
    refine ⟨fun within => within given rfl, fun bounds other same => ?_⟩
    obtain rfl := Option.some.inj same
    exact bounds

theorem checkedDepth_of_within (within : service.Within depth) :
    service.checkedDepth depth = .ok (service.depthFor depth).toNat := by
  obtain ⟨deep, most⟩ := (service.within_iff depth).mp within
  exact (if_neg (Int.not_lt.mpr deep)).trans (if_neg (Int.not_lt.mpr most))

/-- A depth that can be written is shown as the fault of the query; one that is too long is not. -/
def Refuses (depth : Int) (cause : QueryError) : Prop :=
  (Text.isWritable depth = true ∧ cause.isInput = true) ∨
    Text.isWritable depth = false ∧ cause = .misuse .tooLong

theorem refuses_refusal {given : Int} {cause : QueryError} {shows : List Value}
    (input : cause.isInput = true)
    (shown : Value.areWritable shows = true ↔ Text.isWritable given = true) :
    Refuses given (Value.refusal QueryError.misuse cause shows) := by
  rcases Value.refusal_cases QueryError.misuse cause shows with ⟨writable, same⟩ | ⟨long, same⟩
  · rw [same]
    exact Or.inl ⟨shown.mp writable, input⟩
  · refine Or.inr ⟨?_, same⟩
    rw [← Bool.not_eq_true, ← shown, long]
    exact Bool.false_ne_true

/-- **A depth out of the limits is refused.** The limit is shown along with the depth, and is no
longer than the depth. -/
theorem checkedDepth_of_not_within (outside : ¬ service.Within depth) :
    ∃ cause, service.checkedDepth depth = .error cause ∧
      Refuses (service.depthFor depth) cause := by
  rw [within_iff, not_and, Int.not_le] at outside
  by_cases small : service.depthFor depth < 1
  · refine ⟨_, if_pos small, refuses_refusal rfl ?_⟩
    rw [Value.areWritable_iff, List.forall_mem_singleton, Value.isWritable_int]
    rfl
  · have great := outside (Int.not_lt.mp small)
    refine ⟨_, (if_neg small).trans (if_pos great), refuses_refusal rfl ?_⟩
    rw [Value.areWritable_iff, List.forall_mem_cons, List.forall_mem_singleton,
      Value.isWritable_int, Value.isWritable_int]
    refine ⟨And.right, fun writable => ⟨Text.isWritable_of_natAbs_le writable ?_, writable⟩⟩
    show _ ≤ (service.depthFor depth).natAbs
    omega

theorem checkedDepth_of_le {given : Int} (deep : 1 ≤ given)
    (within : given ≤ service.settings.maxDepthLimit.1) :
    service.checkedDepth (some given) = .ok given.toNat :=
  checkedDepth_of_within ((service.within_iff (some given)).mpr ⟨deep, within⟩)

/-- Only the depth of a query about a known method can still be refused. -/
theorem checkedMethod_of_known {given : Value} {name : String} (depth : Option Int)
    (named : requireName given .methodRequired = .ok name)
    (known : service.index.hasMethod name = true) :
    service.checkedMethod given depth =
      (service.checkedDepth depth).map fun levels => (name, levels) := by
  unfold checkedMethod
  rw [named]
  show (service.checkedDepth depth >>= fun levels => _) = _
  cases service.checkedDepth depth with
  | error cause => rfl
  | ok levels => exact if_pos known

/-- **Callers and callees of a known method.** -/
theorem related_of_known {given : Value} {name : String} (next : String → List Ref)
    (depth : Option Int) (includeSelf : Bool) (named : requireName given .methodRequired = .ok name)
    (known : service.index.hasMethod name = true) :
    (∀ unknown, service.related next given depth includeSelf ≠ .error (.methodUnknown unknown)) ∧
      (service.Within depth →
        ∃ related, service.related next given depth includeSelf = .ok related ∧
          related.method = name) := by
  unfold related
  rw [checkedMethod_of_known depth named known]
  by_cases within : service.Within depth
  · rw [checkedDepth_of_within within]
    refine ⟨fun unknown wrong => ?_, fun _ => ⟨_, rfl, rfl⟩⟩
    cases wrong
  · obtain ⟨cause, refused, refuses⟩ := checkedDepth_of_not_within within
    rw [refused]
    refine ⟨fun unknown wrong => ?_, fun inside => absurd inside within⟩
    obtain rfl := Except.error.inj wrong
    rcases refuses with ⟨-, input⟩ | ⟨-, misused⟩
    · cases input
    · cases misused

end Service

/-! ### References between classes -/

theorem Value.IsText.asText_eq {value : Value} (text : value.IsText) :
    value.asText = .ok value.display := by
  obtain ⟨s, rfl⟩ := text
  rfl

/-- The declaring type of a member and its namespace are texts. -/
structure Member.Placed (member : Member) : Prop where
  type : member.type.IsText
  scope : member.scope.IsText

/-- The types and namespaces of both ends are texts, whatever the names and the site are. -/
structure Edge.Placed (edge : Edge) : Prop where
  caller : edge.caller.Placed
  callee : edge.callee.Placed

theorem Edge.Typed.placed {edge : Edge} (typed : edge.Typed) : edge.Placed where
  caller := ⟨typed.caller.type, typed.caller.scope⟩
  callee := ⟨typed.callee.type, typed.callee.scope⟩

theorem Member.Placed.typeName_eq {member : Member} (placed : member.Placed) :
    member.typeName = .ok member.typePath :=
  qualify_of_isText placed.scope placed.type

theorem Member.Placed.typePath_asText {member : Member} (placed : member.Placed) :
    member.typePath.asText = .ok member.typePath.display :=
  (isText_qualified placed.scope placed.type).asText_eq

namespace ClassReference

/-- The reference that an edge makes to a class, named in lower case. -/
def made? (wanted : String) (edge : Edge) : Option ClassReference :=
  let callerClass := edge.caller.typePath.display
  let calleeClass := Text.lower edge.callee.typePath.display
  if wanted ≠ calleeClass ∧ wanted ≠ Text.lower edge.callee.type.display then
    none
  else if Text.lower callerClass = wanted ∨ Text.lower callerClass = calleeClass then
    none
  else
    some ⟨callerClass, edge.caller.type, edge.caller.scope, edge.site⟩

theorem ofEdge?_of_placed (wanted : String) {edge : Edge} (placed : edge.Placed) :
    ofEdge? wanted edge = .ok (made? wanted edge) := by
  unfold ofEdge? made?
  rw [placed.callee.typeName_eq, placed.caller.typeName_eq]
  dsimp only [bind, Except.bind]
  rw [placed.callee.typePath_asText, placed.callee.type.asText_eq, placed.caller.typePath_asText]
  dsimp only
  split
  · rfl
  · split
    · rfl
    · rfl

/-- The references found so far and the further ones whose classes are not among them, each class
once. -/
def keepNew (found : List ClassReference) : List ClassReference → List ClassReference
  | [] => found
  | reference :: rest =>
    if found.any fun other => other.name = reference.name then keepNew found rest
    else keepNew (found ++ [reference]) rest

/-- **What is collected.** -/
theorem collect_of_placed (wanted : String) {edges : List Edge}
    (placed : ∀ edge ∈ edges, edge.Placed) (found : List ClassReference) :
    collect wanted edges found = .ok (keepNew found (edges.filterMap (made? wanted))) := by
  induction edges generalizing found with
  | nil => rfl
  | cons edge rest ih =>
    have later := ih fun other listed => placed other (List.mem_cons_of_mem _ listed)
    rw [collect, ofEdge?_of_placed wanted (placed edge List.mem_cons_self)]
    cases made : made? wanted edge with
    | none =>
      rw [List.filterMap_cons_none made]
      exact later found
    | some reference =>
      rw [List.filterMap_cons_some made, keepNew]
      dsimp only [bind, Except.bind]
      split
      · exact later found
      · exact later _

end ClassReference

/-- **References to a known class.** Whatever the filter, the class is not unknown. -/
theorem Service.classReferences_of_known {service : Service} {given : Value} {name : String}
    (named : requireName given .classRequired = .ok name)
    (known : service.index.hasClass name = true)
    (typed : ∀ edge ∈ service.index.edges, edge.Typed) (filter : Value) :
    (∀ unknown, service.classReferences given filter ≠ .error (.classUnknown unknown)) ∧
      ∀ admits, ClassReference.admits filter = .ok admits →
        ∃ references, service.classReferences given filter = .ok references := by
  have all := ClassReference.collect_of_placed (Text.lower name)
    (fun edge listed => (typed edge listed).placed) []
  unfold classReferences
  rw [named]
  dsimp only [bind, Except.bind]
  rw [if_pos known]
  cases ClassReference.admits filter with
  | error cause =>
    refine ⟨fun unknown wrong => ?_, fun admits wrong => ?_⟩
    · cases wrong
    · cases wrong
  | ok passes =>
    cases passes with
    | true =>
      dsimp only
      rw [if_pos rfl, all]
      refine ⟨fun unknown wrong => ?_, fun _ _ => ⟨_, rfl⟩⟩
      cases wrong
    | false =>
      refine ⟨fun unknown wrong => ?_, fun _ _ => ⟨_, rfl⟩⟩
      cases wrong

end CallGraph
