/-
**Full names and the places that they give.**

A full name is made of at least two segments, each with content and without a dot. Three functions
take such a name apart: `segments` cuts it at every dot from the left, `lastSegment` reads it from
the right up to the nearest dot, and `qualify` joins namespace and type again and leaves out an
empty namespace. They agree on every full name: cutting undoes joining (`Text.segments_dotted`), the
last segment is what follows the rest (`Text.lastSegment_concat`), and namespace and type join to
all segments but the last (`qualify_dotted`).

A registry that is fed with such members only has, under each name, what the name itself says
(`Builder.Derived`), so it does not matter which edge mentions a method first.

* `full_names_fit`: the parts of a full name, and of every registry entry made of full names, join
  to the name again.
-/

import CallGraph.Proofs.Refusal

namespace CallGraph

/-! ### Cutting and joining -/

namespace Text

/-- At least two segments, each with content and without a dot. -/
structure Segmented (parts : List String) : Prop where
  two : 2 ≤ parts.length
  full : ∀ part ∈ parts, part ≠ ""
  plain : ∀ part ∈ parts, '.' ∉ part.toList

instance (parts : List String) : Decidable (Segmented parts) :=
  decidable_of_iff
    (2 ≤ parts.length ∧ (∀ part ∈ parts, part ≠ "") ∧ ∀ part ∈ parts, '.' ∉ part.toList)
    ⟨fun all => ⟨all.1, all.2.1, all.2.2⟩, fun segmented =>
      ⟨segmented.two, segmented.full, segmented.plain⟩⟩

/-- A name of at least two segments. -/
def IsFullName (name : String) : Prop := ∃ parts, Segmented parts ∧ name = dotted parts

variable {parts : List String}

/-- The last two segments are the type and the member. -/
theorem Segmented.exists_eq (segmented : Segmented parts) :
    ∃ scope type last, parts = scope ++ [type, last] := by
  have two := segmented.two
  rcases List.eq_nil_or_concat' parts with rfl | ⟨before, last, rfl⟩
  · exact absurd two (by decide)
  rcases List.eq_nil_or_concat' before with rfl | ⟨scope, type, rfl⟩
  · exact absurd two (Nat.not_succ_le_self 1)
  exact ⟨scope, type, last, List.append_assoc scope [type] [last]⟩

theorem splitDots_eq_splitOn (cs : List Char) : splitDots cs = cs.splitOn '.' := by
  induction cs with
  | nil => rfl
  | cons c rest ih =>
    rw [splitDots, ih, List.splitOn_cons_eq_if_modifyHead]
    by_cases dot : c = '.'
    · rw [if_pos dot, if_pos (beq_iff_eq.mpr dot)]
    · rw [if_neg dot, if_neg (by simpa using dot)]
      cases cut : rest.splitOn '.' with
      | nil => exact absurd cut (List.splitOn_ne_nil _ _)
      | cons segment more => rfl

/-- **Cutting undoes joining.** -/
theorem segments_dotted (some : parts ≠ []) (plain : ∀ part ∈ parts, '.' ∉ part.toList) :
    segments (dotted parts) = parts := by
  have cut : splitDots (dotted parts).toList = parts.map String.toList := by
    rw [splitDots_eq_splitOn, dotted, String.toList_intercalate]
    apply List.splitOn_intercalate '.'
    · intro chars listed
      obtain ⟨part, isPart, rfl⟩ := List.mem_map.mp listed
      exact plain part isPart
    · exact fun none => some (List.map_eq_nil_iff.mp none)
  rw [segments, cut, List.map_map]
  exact (List.map_congr_left fun part _ => String.ofList_toList).trans (List.map_id parts)

theorem dotted_concat (some : parts ≠ []) (last : String) :
    dotted (parts ++ [last]) = dotted parts ++ "." ++ last := by
  rw [dotted, String.intercalate_append_of_ne_nil some (List.cons_ne_nil last []),
    String.intercalate_singleton]
  rfl

/-- The last segment is what follows the last dot. -/
theorem lastSegment_concat (before : String) {last : String} (plain : '.' ∉ last.toList) :
    lastSegment (before ++ "." ++ last) = last := by
  have reversed : (before ++ "." ++ last).toList.reverse =
      last.toList.reverse ++ '.' :: before.toList.reverse := by
    simp
  have passes : ∀ c ∈ last.toList.reverse, decide (c ≠ '.') = true := by
    intro c listed
    refine decide_eq_true fun dot => plain ?_
    rw [← dot]
    exact List.mem_reverse.mp listed
  rw [lastSegment, reversed, List.takeWhile_append_of_pos passes,
    List.takeWhile_cons_of_neg (by decide), List.append_nil, List.reverse_reverse,
    String.ofList_toList]

/-- Segments with content join to a text with content. -/
theorem dotted_ne_empty (some : parts ≠ []) (full : ∀ part ∈ parts, part ≠ "") :
    dotted parts ≠ "" := by
  obtain ⟨first, rest, rfl⟩ := List.exists_cons_of_ne_nil some
  cases rest with
  | nil =>
    rw [dotted, String.intercalate_singleton]
    exact full first List.mem_cons_self
  | cons second more =>
    rw [dotted, String.intercalate_cons_cons]
    simp

end Text

/-! ### The place of a member -/

/-- **Namespace and type join again**, also where there is no namespace. -/
theorem qualify_dotted {scope : List String} {type : String}
    (full : ∀ part ∈ scope ++ [type], part ≠ "") :
    qualify (.text (Text.dotted scope)) (.text type) =
      .ok (.text (Text.dotted (scope ++ [type]))) := by
  have solid : (Value.text type).isVoid = false := by
    show type.isEmpty = false
    simpa using full type (by simp)
  refine (qualify_of_isText ⟨_, rfl⟩ ⟨_, rfl⟩).trans (congrArg Except.ok ?_)
  unfold qualified
  by_cases none : scope = []
  · subst none
    show (if (Value.text type).isVoid then Value.text "" else .text type) = _
    rw [solid]
    rfl
  · have scopeSolid : (Value.text (Text.dotted scope)).isVoid = false := by
      show (Text.dotted scope).isEmpty = false
      simpa using Text.dotted_ne_empty none fun part listed =>
        full part (List.mem_append_left _ listed)
    rw [scopeSolid, solid, Text.dotted_concat none]
    rfl

/-- The parts of a member fit together: the class, which is its namespace and its type, and the last
segment of its name join to the name again. -/
structure Member.Fits (member : Member) (scope : List String) (type last : String) : Prop where
  isNamed : member.name = .text (Text.dotted (scope ++ [type, last]))
  isLast : member.simpleName = .ok last
  isType : member.type = .text type
  isScope : member.scope = .text (Text.dotted scope)
  joins : ∃ cls, member.typeName = .ok (.text cls) ∧
    cls ++ "." ++ last = Text.dotted (scope ++ [type, last])

theorem dotted_pair (scope : List String) (type last : String) :
    Text.dotted (scope ++ [type]) ++ "." ++ last = Text.dotted (scope ++ [type, last]) := by
  have split : scope ++ [type, last] = scope ++ [type] ++ [last] := by simp
  rw [split, Text.dotted_concat (List.concat_ne_nil type scope)]

theorem lastSegment_of_segmented {scope : List String} {type last : String}
    (segmented : Text.Segmented (scope ++ [type, last])) :
    Text.lastSegment (Text.dotted (scope ++ [type, last])) = last := by
  rw [← dotted_pair]
  exact Text.lastSegment_concat _ (segmented.plain last (by simp))

/-- **The member of a full name** has the last segment for its simple name, the one before it for
its type and all others for its namespace. -/
theorem Member.fits_ofName {scope : List String} {type last : String}
    (segmented : Text.Segmented (scope ++ [type, last])) :
    (Member.ofName (Text.dotted (scope ++ [type, last]))).Fits scope type last := by
  have some : scope ++ [type, last] ≠ [] := by simp
  have cut := Text.segments_dotted some segmented.plain
  have member : Member.ofName (Text.dotted (scope ++ [type, last])) =
      ⟨.text (Text.dotted (scope ++ [type, last])), .text type, .text (Text.dotted scope)⟩ := by
    unfold Member.ofName Member.place
    rw [cut, List.reverse_append]
    show Member.mk _ _ (.text (Text.dotted scope.reverse.reverse)) = _
    rw [List.reverse_reverse]
  have solid : (Value.text (Text.dotted (scope ++ [type, last]))).isVoid = false := by
    show (Text.dotted (scope ++ [type, last])).isEmpty = false
    simpa using Text.dotted_ne_empty some segmented.full
  have joined := qualify_dotted fun part listed =>
    segmented.full part (by
      have longer : part ∈ (scope ++ [type]) ++ [last] := List.mem_append_left [last] listed
      simpa using longer)
  rw [member]
  refine ⟨rfl, ?_, rfl, rfl, _, joined, dotted_pair scope type last⟩
  show (if (Value.text _).isVoid then Except.ok "" else Except.ok (Text.lastSegment _)) = _
  rw [solid, lastSegment_of_segmented segmented]
  rfl

/-! ### Registries of full names -/

/-- The class of a method and its simple name join to its name. -/
def Method.Fits (method : Method) : Prop :=
  ∃ cls, method.typeName = .ok (.text cls) ∧ cls ++ "." ++ method.simpleName = method.name

/-- What a registry keeps of a full name fits together. -/
theorem fits_entry_ofName {name : String} (full : Text.IsFullName name) :
    (Member.ofName name).entry.Fits := by
  obtain ⟨parts, segmented, rfl⟩ := full
  obtain ⟨scope, type, last, rfl⟩ := segmented.exists_eq
  obtain ⟨cls, isClass, joins⟩ := (Member.fits_ofName segmented).joins
  refine ⟨cls, isClass, ?_⟩
  show cls ++ "." ++ Text.lastSegment (Text.dotted (scope ++ [type, last])) = _
  rw [lastSegment_of_segmented segmented]
  exact joins

/-- An edge between two full names, at any site. -/
def Edge.JoinsFullNames (edge : Edge) : Prop :=
  ∃ caller callee site, Text.IsFullName caller ∧ Text.IsFullName callee ∧
    edge = Edge.between caller callee site

namespace Builder

/-- Every entry of a registry is what its own name says, and the name is a full one. -/
def Derived (methods : Table String Method) : Prop :=
  ∀ name method, methods.find? name = some method →
    Text.IsFullName name ∧ method = (Member.ofName name).entry

theorem Derived.enroll {methods : Table String Method} (derived : Derived methods) {name : String}
    (full : Text.IsFullName name) : Derived (enroll methods (Member.ofName name)) := by
  unfold Builder.enroll
  split
  · exact derived
  · intro asked method found
    rw [Table.find?_put] at found
    split at found
    · rename_i same
      obtain rfl : name = asked := same
      exact ⟨full, (Option.some.inj found).symm⟩
    · exact derived asked method found

/-- **One edge between full names**, taken, known or refused, keeps the registry so. -/
theorem Derived.add {builder : Builder} (derived : Derived builder.methods) {edge : Edge}
    (joins : edge.JoinsFullNames) : Derived (builder.add edge).2.methods := by
  obtain ⟨caller, callee, site, callerFull, calleeFull, rfl⟩ := joins
  have adds := builder.adds_add (Edge.between caller callee site)
  generalize (builder.add (Edge.between caller callee site)).1 = answer at adds
  generalize (builder.add (Edge.between caller callee site)).2 = after at adds
  cases adds with
  | closed => exact derived
  | noKey => exact derived
  | known => exact derived
  | oddCaller => exact derived
  | oddCallee => exact derived.enroll callerFull
  | taken => exact (derived.enroll callerFull).enroll calleeFull

end Builder

/-- **Full names fit together.** Any list of at least two segments with content and without dots,
joined by dots, makes a symbol with the last segment for its simple name, the one before it for its
type and the join of the others for its namespace, and its class and simple name join to the full
name again. So they do for every method of an index that any run of requests makes of edges between
such names, whichever edge mentions the method first. -/
theorem full_names_fit :
    (∀ parts, Text.Segmented parts →
      ∃ scope type last symbol, parts = scope ++ [type, last] ∧
        Symbol.make .ordinary (Member.ofName (Text.dotted parts)) [] = .ok symbol ∧
        symbol.member.name = .text (Text.dotted parts) ∧
        symbol.member.simpleName = .ok last ∧ symbol.member.type = .text type ∧
        symbol.member.scope = .text (Text.dotted scope) ∧
        ∃ cls, symbol.member.typeName = .ok (.text cls) ∧ cls ++ "." ++ last = Text.dotted parts) ∧
    ∀ requests index,
      (∀ edge ∈ requests.flatMap Builder.Request.edges, edge.JoinsFullNames) →
      (Builder.fresh.run requests).2.finish.1 = .ok index →
      ∀ name, index.hasMethod name = true →
        ∃ method cls, index.method? name = some method ∧ method.name = name ∧
          method.typeName = .ok (.text cls) ∧ cls ++ "." ++ method.simpleName = name := by
  constructor
  · intro parts segmented
    obtain ⟨scope, type, last, rfl⟩ := segmented.exists_eq
    have fits := Member.fits_ofName segmented
    exact ⟨scope, type, last, _, rfl, rfl, fits.isNamed, fits.isLast, fits.isType, fits.isScope,
      fits.joins⟩
  · intro requests index joined made name known
    obtain ⟨-, methods, -, -⟩ := Builder.tables_of_finish made
    have start : Builder.Derived Builder.fresh.methods := fun name method found => by cases found
    have derived := Builder.run_induction (motive := fun builder => Builder.Derived builder.methods)
      (fun builder edge listed derived => derived.add (joined edge listed)) start
    obtain ⟨method, found⟩ := Option.isSome_iff_exists.mp known
    rw [methods] at found
    obtain ⟨full, rfl⟩ := derived name method found
    obtain ⟨cls, isClass, joins⟩ := fits_entry_ofName full
    refine ⟨_, cls, ?_, rfl, isClass, joins⟩
    rw [Index.method?, methods, found]

/-- The segments of callers and callees, in the global namespace and in a deeper one. -/
def billingSegments : List (List String × List String) :=
  [(["Main", "Run"], ["Shop", "Billing", "Cart", "Pay"]),
    (["Shop", "Billing", "Cart", "Pay"], ["Main", "Run"]), (["Main", "Run"], ["Shop", "Stop"])]

/-- The calls between them. -/
def billingCalls : List Edge :=
  billingSegments.map fun call =>
    Edge.between (Text.dotted call.1) (Text.dotted call.2) ⟨Edge.standardFile, Edge.standardLine⟩

theorem billingCalls_fit :
    (∃ symbol cls, Symbol.make .ordinary (Member.ofName "Shop.Billing.Cart.Pay") [] = .ok symbol ∧
      symbol.member.simpleName = .ok "Pay" ∧ symbol.member.typeName = .ok (.text cls) ∧
      cls ++ "." ++ "Pay" = "Shop.Billing.Cart.Pay") ∧
    ∃ index method cls, (Builder.fresh.run [.addAll billingCalls]).2.finish.1 = .ok index ∧
      index.method? "Main.Run" = some method ∧ method.typeName = .ok (.text cls) ∧
      cls ++ "." ++ method.simpleName = "Main.Run" := by
  have segmented : ∀ call ∈ billingSegments, Text.Segmented call.1 ∧ Text.Segmented call.2 := by
    decide
  have joined : ∀ edge ∈ [Builder.Request.addAll billingCalls].flatMap Builder.Request.edges,
      edge.JoinsFullNames := by
    intro edge listed
    rw [List.flatMap_singleton] at listed
    obtain ⟨call, isCall, rfl⟩ := List.mem_map.mp listed
    obtain ⟨first, second⟩ := segmented call isCall
    exact ⟨_, _, _, ⟨_, first, rfl⟩, ⟨_, second, rfl⟩, rfl⟩
  have typed : ∀ edge ∈ billingCalls, edge.Typed := by
    intro edge listed
    obtain ⟨call, -, rfl⟩ := List.mem_map.mp listed
    exact Edge.typed_between _ _ ⟨_, rfl⟩ (Or.inl ⟨_, rfl⟩)
  constructor
  · obtain ⟨scope, type, last, symbol, split, made, -, isLast, -, -, cls, isClass, joins⟩ :=
      full_names_fit.1 ["Shop", "Billing", "Cart", "Pay"] (by decide)
    obtain rfl : last = "Pay" := by
      have ends := congrArg List.getLast? split
      rw [List.getLast?_append] at ends
      exact (Option.some.inj ends).symm
    exact ⟨symbol, cls, made, isLast, isClass, joins⟩
  · have made := (Index.ofEdges_of_typed typed).2.1
    obtain ⟨method, cls, found, -, isClass, joins⟩ :=
      full_names_fit.2 [.addAll billingCalls] _ joined made "Main.Run" (by decide)
    exact ⟨_, method, cls, made, found, isClass, joins⟩

end CallGraph
