/-
**Trimmed texts and their padded spellings.**

A list of characters is `Bare` when it has no padding at either end. Stripping makes it so
(`bare_stripWhere`) and takes exactly the padding off (`stripWhere_padded`, `exists_padding`); from
these follows what is needed of `trim`:

* `trim_trim`: a trimmed text is trimmed;
* `trim_eq_empty_iff`: nothing is left of a text exactly when it has only blanks;
* `trim_padded`: all padded spellings of a trimmed text are trimmed to it;
* `trim_dotted`: two trimmed texts with content, joined by a dot, are a trimmed text.
-/

import CallGraph.Text.Blank
import Mathlib.Data.List.TakeWhile

namespace CallGraph.Text

/-- No padding at the two ends. -/
structure Bare (pad : Char → Bool) (cs : List Char) : Prop where
  head : ∀ c, cs.head? = some c → pad c = false
  last : ∀ c, cs.getLast? = some c → pad c = false

section Stripping

variable {pad : Char → Bool} {cs : List Char}

theorem head?_dropWhile (pad : Char → Bool) (cs : List Char) :
    ∀ c, (cs.dropWhile pad).head? = some c → pad c = false := by
  intro c first
  have rejected := List.head?_dropWhile_not pad cs
  rw [first] at rejected
  simpa using rejected

theorem bare_stripWhere (pad : Char → Bool) (cs : List Char) : Bare pad (stripWhere pad cs) := by
  refine ⟨fun c first => ?_, fun c last => ?_⟩
  · -- dropping at the end leaves the head alone
    obtain ⟨dropped, split⟩ := List.dropWhile_suffix pad (l := (cs.dropWhile pad).reverse)
    have whole : cs.dropWhile pad = stripWhere pad cs ++ dropped.reverse := by
      rw [stripWhere, ← List.reverse_append, split, List.reverse_reverse]
    refine head?_dropWhile pad cs c ?_
    rw [whole, List.head?_append, first]
    rfl
  · rw [stripWhere, List.getLast?_reverse] at last
    exact head?_dropWhile pad _ c last

/-- Stripping takes off the padding and nothing else. -/
theorem stripWhere_padded (bare : Bare pad cs) {left right : List Char}
    (leftPads : ∀ c ∈ left, pad c = true) (rightPads : ∀ c ∈ right, pad c = true) :
    stripWhere pad (left ++ cs ++ right) = cs := by
  have front : (left ++ cs ++ right).dropWhile pad = (cs ++ right).dropWhile pad := by
    rw [List.append_assoc, List.dropWhile_append_of_pos leftPads]
  have back : ∀ c ∈ right.reverse, pad c = true := fun c listed =>
    rightPads c (List.mem_reverse.mp listed)
  rw [stripWhere, front]
  cases cs with
  | nil =>
    rw [List.nil_append, ← List.append_nil right, List.dropWhile_append_of_pos rightPads]
    rfl
  | cons c rest =>
    have kept : (c :: rest ++ right).dropWhile pad = c :: rest ++ right := by
      refine List.dropWhile_eq_self_iff.mpr fun _ => ?_
      exact Bool.eq_false_iff.mp (bare.head c rfl)
    have ends : (c :: rest).reverse.dropWhile pad = (c :: rest).reverse := by
      refine List.dropWhile_eq_self_iff.mpr fun long => Bool.eq_false_iff.mp (bare.last _ ?_)
      rw [← List.head?_reverse, List.head?_eq_getElem?, List.getElem?_eq_getElem long]
    rw [kept, List.reverse_append, List.dropWhile_append_of_pos back, ends, List.reverse_reverse]

theorem stripWhere_of_bare (bare : Bare pad cs) : stripWhere pad cs = cs := by
  have none : ∀ c ∈ ([] : List Char), pad c = true := fun c listed => (List.not_mem_nil listed).elim
  have stripped := stripWhere_padded bare none none
  rwa [List.nil_append, List.append_nil] at stripped

/-- What is taken off is padding. -/
theorem exists_padding (pad : Char → Bool) (cs : List Char) :
    ∃ left right : List Char, (∀ c ∈ left, pad c = true) ∧ (∀ c ∈ right, pad c = true) ∧
      left ++ stripWhere pad cs ++ right = cs := by
  refine ⟨cs.takeWhile pad, ((cs.dropWhile pad).reverse.takeWhile pad).reverse, ?_, ?_, ?_⟩
  · exact fun c listed => List.mem_takeWhile_imp listed
  · exact fun c listed => List.mem_takeWhile_imp (List.mem_reverse.mp listed)
  · rw [List.append_assoc, stripWhere, ← List.reverse_append, List.takeWhile_append_dropWhile,
      List.reverse_reverse, List.takeWhile_append_dropWhile]

/-- Nothing is left exactly when all is padding. -/
theorem stripWhere_eq_nil_iff (pad : Char → Bool) (cs : List Char) :
    stripWhere pad cs = [] ↔ ∀ c ∈ cs, pad c = true := by
  rw [stripWhere, List.reverse_eq_nil_iff]
  constructor
  · intro stripped
    cases kept : cs.dropWhile pad with
    | nil => exact List.dropWhile_eq_nil_iff.mp kept
    | cons c rest =>
      have bare : pad c = false := head?_dropWhile pad cs c (by rw [kept]; rfl)
      have padded : pad c = true := by
        refine List.dropWhile_eq_nil_iff.mp stripped c ?_
        rw [kept, List.mem_reverse]
        exact List.mem_cons_self
      rw [bare] at padded
      cases padded
  · intro padded
    rw [List.dropWhile_eq_nil_iff.mpr padded]
    rfl

theorem Bare.join {before after : List Char} (bareBefore : Bare pad before)
    (bareAfter : Bare pad after) (some : before ≠ []) (more : after ≠ []) (middle : List Char) :
    Bare pad (before ++ middle ++ after) := by
  refine ⟨fun c first => ?_, fun c last => ?_⟩
  · obtain ⟨d, rest, rfl⟩ := List.exists_cons_of_ne_nil some
    exact bareBefore.head c first
  · have ends := List.getLast?_eq_some_getLast more
    rw [List.getLast?_append, ends] at last
    exact bareAfter.last c (ends.trans last)

end Stripping

/-! ### Texts -/

/-- A spelling of a text with blanks around it. -/
def IsPadded (s spelling : String) : Prop :=
  ∃ left right : List Char, (∀ c ∈ left, isBlank c = true) ∧ (∀ c ∈ right, isBlank c = true) ∧
    spelling = String.ofList (left ++ s.toList ++ right)

theorem trim_eq_self_iff (s : String) : trim s = s ↔ Bare isBlank s.toList := by
  constructor
  · intro trimmed
    have chars : stripWhere isBlank s.toList = s.toList := by
      rw [← String.toList_ofList (l := stripWhere isBlank s.toList)]
      exact congrArg String.toList trimmed
    rw [← chars]
    exact bare_stripWhere isBlank s.toList
  · intro bare
    rw [trim, stripWhere_of_bare bare, String.ofList_toList]

theorem trim_trim (s : String) : trim (trim s) = trim s := by
  rw [trim_eq_self_iff, trim, String.toList_ofList]
  exact bare_stripWhere isBlank s.toList

theorem trim_eq_empty_iff (s : String) : trim s = "" ↔ ∀ c ∈ s.toList, isBlank c = true := by
  rw [← stripWhere_eq_nil_iff, ← String.toList_eq_nil_iff, trim, String.toList_ofList]

theorem trim_padded {s spelling : String} (trimmed : trim s = s) (padded : IsPadded s spelling) :
    trim spelling = s := by
  obtain ⟨left, right, leftBlank, rightBlank, rfl⟩ := padded
  rw [trim, String.toList_ofList,
    stripWhere_padded ((trim_eq_self_iff s).mp trimmed) leftBlank rightBlank, String.ofList_toList]

theorem trim_dotted {scope name : String} (scopeTrimmed : trim scope = scope)
    (nameTrimmed : trim name = name) (scopeFull : scope ≠ "") (nameFull : name ≠ "") :
    trim (scope ++ "." ++ name) = scope ++ "." ++ name := by
  rw [trim_eq_self_iff, String.toList_append, String.toList_append]
  have before := (trim_eq_self_iff scope).mp scopeTrimmed
  have after := (trim_eq_self_iff name).mp nameTrimmed
  refine before.join after ?_ ?_ _
  · exact fun empty => scopeFull (String.toList_eq_nil_iff.mp empty)
  · exact fun empty => nameFull (String.toList_eq_nil_iff.mp empty)

end CallGraph.Text
