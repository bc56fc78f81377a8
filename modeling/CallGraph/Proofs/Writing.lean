/-
**What can be written.**

A value can be written when no whole number inside it has more than `Text.maxDigits` digits. The
condition is on all parts (`Value.areWritable_iff`, `Value.fieldsAreWritable_iff`), so that whatever
is taken out of a value that can be written can be written too. All texts can be written;
`Text.overlong` is the least number that cannot.

A refusal whose wording shows values is itself when they can be written, and a misuse otherwise
(`Value.refusal_cases`).
-/

import CallGraph.Value
import Mathlib.Algebra.Group.Nat.Defs

namespace CallGraph

/-! ### Numbers -/

namespace Text

theorem isWritable_iff (n : Int) : isWritable n = true ↔ n.natAbs < 10 ^ maxDigits := by
  rw [isWritable, decide_eq_true_eq]
  exact Nat.length_toDigits_le_iff (by decide) (by decide)

/-- A number nearer to zero is no longer. -/
theorem isWritable_of_natAbs_le {n m : Int} (writable : isWritable n = true)
    (nearer : m.natAbs ≤ n.natAbs) : isWritable m = true :=
  (isWritable_iff m).mpr (Nat.lt_of_le_of_lt nearer ((isWritable_iff n).mp writable))

/-- The least number that is too long to be written. -/
def overlong : Int := (10 ^ maxDigits : Nat)

theorem not_isWritable_overlong : isWritable overlong = false := by
  rw [← Bool.not_eq_true, isWritable_iff]
  exact Nat.lt_irrefl _

theorem not_isWritable_neg_overlong : isWritable (-overlong) = false := by
  rw [← Bool.not_eq_true, isWritable_iff, Int.natAbs_neg]
  exact Nat.lt_irrefl _

/-- It is not among the first numbers. -/
theorem lt_overlong {n : Nat} (small : n < 10 ^ 9) : (n : Int) < overlong :=
  Int.ofNat_lt.mpr (Nat.lt_of_lt_of_le small (Nat.pow_le_pow_right (by decide) (by decide)))

end Text

/-! ### Values -/

namespace Value

theorem areWritable_iff (items : List Value) :
    areWritable items = true ↔ ∀ item ∈ items, item.isWritable = true := by
  induction items with
  | nil => simp [areWritable]
  | cons item rest ih => rw [areWritable, Bool.and_eq_true, ih, List.forall_mem_cons]

theorem fieldsAreWritable_iff (fields : List (String × Value)) :
    fieldsAreWritable fields = true ↔ ∀ field ∈ fields, field.2.isWritable = true := by
  induction fields with
  | nil => simp [fieldsAreWritable]
  | cons field rest ih =>
    obtain ⟨key, value⟩ := field
    rw [fieldsAreWritable, Bool.and_eq_true, ih, List.forall_mem_cons]

@[simp]
theorem isWritable_text (s : String) : (Value.text s).isWritable = true := by
  simp [isWritable]

@[simp]
theorem isWritable_null : Value.null.isWritable = true := by
  simp [isWritable]

@[simp]
theorem isWritable_int (n : Int) : (Value.int n).isWritable = Text.isWritable n := by
  rw [isWritable]

theorem isWritable_item {items : List Value} (writable : (Value.list items).isWritable = true)
    {item : Value} (listed : item ∈ items) : item.isWritable = true := by
  rw [isWritable] at writable
  exact (areWritable_iff items).mp writable item listed

theorem isWritable_of_lookup {fields : List (String × Value)} {key : String} {value : Value}
    (writable : (Value.record fields).isWritable = true)
    (given : fields.lookup key = some value) : value.isWritable = true := by
  rw [isWritable, fieldsAreWritable_iff] at writable
  obtain ⟨before, after, rfl, -⟩ := List.lookup_eq_some_iff.mp given
  exact writable (key, value) (List.mem_append_right _ List.mem_cons_self)

theorem isWritable_getD {fields : List (String × Value)} {value : Value}
    (writable : (Value.record fields).isWritable = true) (key : String)
    (otherwise : value.isWritable = true) : ((fields.lookup key).getD value).isWritable = true := by
  cases given : fields.lookup key with
  | none => exact otherwise
  | some stated => exact isWritable_of_lookup writable given

theorem isWritable_field {fields : List (String × Value)}
    (writable : (Value.record fields).isWritable = true) (key : String) :
    (field key fields).isWritable = true :=
  isWritable_getD writable key isWritable_null

/-- Nothing given is nothing to write. -/
theorem isWritable_of_isVoid {value : Value} (void : value.isVoid = true) :
    value.isWritable = true := by
  cases value with
  | int n =>
    obtain rfl : n = 0 := of_decide_eq_true void
    rfl
  | list items =>
    obtain rfl := List.isEmpty_iff.mp void
    rfl
  | record fields =>
    obtain rfl := List.isEmpty_iff.mp void
    rfl
  | _ => simp [isWritable]

/-! ### Showing values -/

theorem shown_of_isWritable {value : Value} (writable : value.isWritable = true) :
    value.shown = .ok value.display :=
  if_pos writable

theorem shown_of_not_isWritable {value : Value} (long : value.isWritable = false) :
    value.shown = .error .tooLong :=
  if_neg (Bool.eq_false_iff.mp long)

section Refusal

variable {ε : Type} {misuse : Misuse → ε} {cause : ε} {shows : List Value}

theorem refusal_of_writable (writable : areWritable shows = true) :
    refusal misuse cause shows = cause :=
  if_pos writable

theorem refusal_of_not_writable (long : areWritable shows = false) :
    refusal misuse cause shows = misuse .tooLong :=
  if_neg (Bool.eq_false_iff.mp long)

/-- A refusal is itself or a misuse. -/
theorem refusal_cases (misuse : Misuse → ε) (cause : ε) (shows : List Value) :
    (areWritable shows = true ∧ refusal misuse cause shows = cause) ∨
      areWritable shows = false ∧ refusal misuse cause shows = misuse .tooLong := by
  cases writable : areWritable shows with
  | true => exact Or.inl ⟨rfl, refusal_of_writable writable⟩
  | false => exact Or.inr ⟨rfl, refusal_of_not_writable writable⟩

end Refusal

end Value

end CallGraph
