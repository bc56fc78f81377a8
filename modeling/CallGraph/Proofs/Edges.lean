/-
**Edges with the declared types, and edges that are new.**

An edge is `Typed` when its names, types and namespaces are texts and its site is a file and a whole
number. Such an edge has an identity, and the identity fixes both names (`Edge.Typed.key?_eq`).

`Edge.newAfter known edges` keeps the edges whose identity is neither known nor that of an earlier
edge, and `Edge.distinct` is that with nothing known: the first edge of each identity.
`newAfter_append` lets a list be taken in pieces; `nodup_key?_distinct` and `mem_key?_distinct` say
that `distinct` keeps every identity, and each once, and so do `nodup_call_distinct` and
`mem_call_distinct` of the calls that the edges stand for.
-/

import CallGraph.Index
import CallGraph.Proofs.Writing
import Mathlib.Data.List.Nodup

namespace CallGraph

/-! ### Declared types -/

/-- The value is a text. -/
def Value.IsText (value : Value) : Prop := ∃ s, value = .text s

/-- The value is a whole number; a truth value is one too. -/
def Value.IsWhole (value : Value) : Prop := (∃ n, value = .int n) ∨ ∃ b, value = .bool b

/-- The three names of a member are texts. -/
structure Member.Typed (member : Member) : Prop where
  name : member.name.IsText
  type : member.type.IsText
  scope : member.scope.IsText

/-- The fields of an edge have the types that they are declared with. -/
structure Edge.Typed (edge : Edge) : Prop where
  caller : edge.caller.Typed
  callee : edge.callee.Typed
  file : edge.site.file.IsText
  line : edge.site.line.IsWhole

/-- The full name of a member as a text. -/
def Member.label (member : Member) : String := member.name.display

theorem Value.IsText.eq_text {value : Value} (text : value.IsText) :
    value = .text value.display := by
  obtain ⟨s, rfl⟩ := text
  rfl

theorem Member.Typed.name_eq {member : Member} (typed : member.Typed) :
    member.name = .text member.label :=
  typed.name.eq_text

/-- A text can be written. -/
theorem Value.IsText.isWritable {value : Value} (text : value.IsText) :
    value.isWritable = true := by
  obtain ⟨s, rfl⟩ := text
  exact isWritable_text s

/-- Joining two texts cannot fail. -/
theorem qualify_of_isText {scope name : Value} (scopeText : scope.IsText)
    (nameText : name.IsText) : qualify scope name = .ok (qualified scope name) := by
  refine if_pos ?_
  rw [scopeText.isWritable, nameText.isWritable]
  exact Bool.or_true _

/-- A name inside a namespace is a text when both are. -/
theorem isText_qualified {scope name : Value} (scopeText : scope.IsText)
    (nameText : name.IsText) : (qualified scope name).IsText := by
  unfold qualified
  split
  · split
    · exact ⟨_, rfl⟩
    · exact nameText
  · split
    · exact scopeText
    · exact ⟨_, rfl⟩

/-- An edge between two full names is typed when its site is. -/
theorem Edge.typed_between (caller callee : String) {site : Site} (file : site.file.IsText)
    (line : site.line.IsWhole) : (Edge.between caller callee site).Typed where
  caller := ⟨⟨_, rfl⟩, ⟨_, rfl⟩, ⟨_, rfl⟩⟩
  callee := ⟨⟨_, rfl⟩, ⟨_, rfl⟩, ⟨_, rfl⟩⟩
  file := file
  line := line

namespace Edge

/-- The site of a typed edge can be a key. -/
theorem Typed.exists_site_key {edge : Edge} (typed : edge.Typed) :
    ∃ key, edge.site.key? = some key := by
  obtain ⟨file, fileEq⟩ := typed.file
  rcases typed.line with ⟨n, lineEq⟩ | ⟨b, lineEq⟩
  · exact ⟨⟨.text file, .int n⟩, by rw [Site.key?, fileEq, lineEq]; rfl⟩
  · exact ⟨⟨.text file, .int (if b then 1 else 0)⟩, by rw [Site.key?, fileEq, lineEq]; rfl⟩

/-- **The identity of a typed edge** is its two names and its site. -/
theorem Typed.key?_eq {edge : Edge} (typed : edge.Typed) :
    edge.key? =
      edge.site.key?.map fun site => ⟨.text edge.caller.label, .text edge.callee.label, site⟩ := by
  obtain ⟨key, keyed⟩ := typed.exists_site_key
  unfold Edge.key?
  rw [typed.caller.name_eq, typed.callee.name_eq, keyed]
  rfl

theorem Typed.exists_key {edge : Edge} (typed : edge.Typed) : ∃ key, edge.key? = some key := by
  obtain ⟨site, keyed⟩ := typed.exists_site_key
  rw [typed.key?_eq, keyed]
  exact ⟨_, rfl⟩

/-! ### The ends of an edge -/

/-- The members that an edge mentions, the caller first. -/
def members (edge : Edge) : List Member := [edge.caller, edge.callee]

/-- The call that an edge stands for: both names and the identity of the site. -/
def call (edge : Edge) : String × String × Option Site.Key :=
  (edge.caller.label, edge.callee.label, edge.site.key?)

/-- The identity of an edge fixes its call. -/
theorem Typed.call_eq {first second : Edge} (typed : first.Typed) (other : second.Typed)
    (same : first.key? = second.key?) : first.call = second.call := by
  obtain ⟨site, keyed⟩ := typed.exists_site_key
  obtain ⟨otherSite, otherKeyed⟩ := other.exists_site_key
  rw [typed.key?_eq, other.key?_eq, keyed, otherKeyed] at same
  obtain ⟨callers, callees, sites⟩ := Edge.Key.mk.inj (Option.some.inj same)
  rw [call, call, keyed, otherKeyed, Atom.text.inj callers, Atom.text.inj callees, sites]

/-- The reference that the caller keeps. -/
def toCallee (edge : Edge) : Ref := ⟨edge.callee.label, edge.site⟩

/-- The reference that the callee keeps. -/
def toCaller (edge : Edge) : Ref := ⟨edge.caller.label, edge.site⟩

/-! ### Edges that are new -/

/-- The edges whose identity is neither known nor that of an earlier edge. -/
def newAfter (known : List (Option Edge.Key)) : List Edge → List Edge
  | [] => []
  | edge :: rest =>
    let later := newAfter (known ++ [edge.key?]) rest
    if edge.key? ∈ known then later else edge :: later

/-- Whether the identity of an edge is not known. -/
def isNew (known : List (Option Edge.Key)) (edge : Edge) : Bool := decide (edge.key? ∉ known)

theorem isNew_of_mem {known : List (Option Edge.Key)} {edge : Edge} (listed : edge.key? ∈ known) :
    edge.isNew known = false :=
  decide_eq_false (not_not.mpr listed)

theorem isNew_of_not_mem {known : List (Option Edge.Key)} {edge : Edge}
    (unlisted : edge.key? ∉ known) : edge.isNew known = true :=
  decide_eq_true unlisted

/-- The first edge of each identity, in order. -/
def distinct (edges : List Edge) : List Edge := newAfter [] edges

theorem newAfter_append (known : List (Option Edge.Key)) (first second : List Edge) :
    newAfter known (first ++ second) =
      newAfter known first ++ newAfter (known ++ first.map key?) second := by
  induction first generalizing known with
  | nil => simp [newAfter]
  | cons edge rest ih =>
    have tail := ih (known ++ [edge.key?])
    rw [List.append_assoc] at tail
    simp only [List.cons_append, newAfter, tail, List.map_cons]
    split
    · rfl
    · rfl

/-- What a further piece of a list contributes. -/
theorem distinct_append (first second : List Edge) :
    distinct (first ++ second) = distinct first ++ newAfter (first.map key?) second :=
  newAfter_append [] first second

/-- A further edge counts only if its identity is new. -/
theorem distinct_concat (edges : List Edge) (edge : Edge) :
    distinct (edges ++ [edge]) =
      if edge.key? ∈ edges.map key? then distinct edges else distinct edges ++ [edge] := by
  rw [distinct_append]
  by_cases known : edge.key? ∈ edges.map key?
  · simp only [newAfter, if_pos known, List.append_nil]
  · simp only [newAfter, if_neg known]

theorem newAfter_sublist (known : List (Option Edge.Key)) (edges : List Edge) :
    (newAfter known edges).Sublist edges := by
  induction edges generalizing known with
  | nil => exact List.Sublist.slnil
  | cons edge rest ih =>
    simp only [newAfter]
    split
    · exact (ih _).cons edge
    · exact (ih _).cons_cons edge

theorem mem_of_mem_distinct {edges : List Edge} {edge : Edge} (kept : edge ∈ distinct edges) :
    edge ∈ edges :=
  (newAfter_sublist [] edges).subset kept

/-- The identities kept are those given that were not known. -/
theorem mem_key?_newAfter (known : List (Option Edge.Key)) (edges : List Edge)
    (key : Option Edge.Key) :
    key ∈ (newAfter known edges).map key? ↔ key ∈ edges.map key? ∧ key ∉ known := by
  induction edges generalizing known with
  | nil => simp [newAfter]
  | cons edge rest ih =>
    have tail := ih (known ++ [edge.key?])
    simp only [List.mem_append, List.mem_singleton, not_or] at tail
    simp only [newAfter, List.map_cons, List.mem_cons]
    split
    · rename_i listed
      rw [tail]
      constructor
      · rintro ⟨later, unknown, -⟩
        exact ⟨Or.inr later, unknown⟩
      · rintro ⟨here | later, unknown⟩
        · exact absurd (here ▸ listed) unknown
        · exact ⟨later, unknown, fun same => unknown (same ▸ listed)⟩
    · rename_i new
      rw [List.map_cons, List.mem_cons, tail]
      constructor
      · rintro (here | ⟨later, unknown, -⟩)
        · exact ⟨Or.inl here, here ▸ new⟩
        · exact ⟨Or.inr later, unknown⟩
      · rintro ⟨here | later, unknown⟩
        · exact Or.inl here
        · by_cases same : key = edge.key?
          · exact Or.inl same
          · exact Or.inr ⟨later, unknown, same⟩

theorem mem_key?_distinct (edges : List Edge) (key : Option Edge.Key) :
    key ∈ (distinct edges).map key? ↔ key ∈ edges.map key? := by
  rw [distinct, mem_key?_newAfter]
  simp

theorem nodup_key?_newAfter (known : List (Option Edge.Key)) (edges : List Edge) :
    ((newAfter known edges).map key?).Nodup := by
  induction edges generalizing known with
  | nil => exact List.nodup_nil
  | cons edge rest ih =>
    simp only [newAfter]
    split
    · exact ih _
    · rw [List.map_cons, List.nodup_cons, mem_key?_newAfter]
      refine ⟨fun later => later.2 ?_, ih _⟩
      exact List.mem_append_right known (List.mem_singleton_self _)

/-- No identity is kept twice. -/
theorem nodup_key?_distinct (edges : List Edge) : ((distinct edges).map key?).Nodup :=
  nodup_key?_newAfter [] edges

/-- The first edges of all identities stand for the same calls as all edges. -/
theorem mem_call_distinct {edges : List Edge} (typed : ∀ edge ∈ edges, edge.Typed)
    (made : String × String × Option Site.Key) :
    made ∈ (distinct edges).map call ↔ made ∈ edges.map call := by
  constructor
  · intro listed
    obtain ⟨edge, kept, rfl⟩ := List.mem_map.mp listed
    exact List.mem_map_of_mem (mem_of_mem_distinct kept)
  · intro listed
    obtain ⟨edge, given, rfl⟩ := List.mem_map.mp listed
    have key := (mem_key?_distinct edges edge.key?).mpr (List.mem_map_of_mem given)
    obtain ⟨first, kept, same⟩ := List.mem_map.mp key
    rw [← (typed first (mem_of_mem_distinct kept)).call_eq (typed edge given) same]
    exact List.mem_map_of_mem kept

/-- Each of them once. -/
theorem nodup_call_distinct {edges : List Edge} (typed : ∀ edge ∈ edges, edge.Typed) :
    ((distinct edges).map call).Nodup := by
  have once := nodup_key?_distinct edges
  rw [List.Nodup, List.pairwise_map] at once ⊢
  refine once.imp_of_mem fun {first second} isFirst isSecond different same => different ?_
  obtain ⟨callers, ends⟩ := Prod.mk.inj same
  obtain ⟨callees, sites⟩ := Prod.mk.inj ends
  rw [(typed first (mem_of_mem_distinct isFirst)).key?_eq,
    (typed second (mem_of_mem_distinct isSecond)).key?_eq, callers, callees, sites]

end Edge

end CallGraph
