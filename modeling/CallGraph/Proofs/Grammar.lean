/-
**The grammar of symbols.**

`Value.IsSymbol` says which values describe a symbol: records whose kind and targets are stated in
one of the ways allowed (`StatesKind`, `StatesTargets`), with as many targets as the kind takes, all
of which describe symbols. `Symbol.Reads` goes along with it and says which symbol that is. Reading
follows the relation at one level (`decode_record_eq_ok_iff`), and at all levels by induction over
the targets of a value (`Value.targets_induction`).

Reading goes from left to right and from the inside out, and the first record that cannot be read is
the reason (`Symbol.FailsHere`, `Symbol.Meets`). Two of the reasons are not the fault of a symbol:
targets that cannot be gone through at all, and a complaint that would show a number too long to be
written.

* `decode_by_grammar`: the values that are read are those of the grammar, what is read of them has
  its targets at every level, and the failures are of three sorts.
-/

import CallGraph.Proofs.Admission
import Mathlib.Data.List.Forall2
import Mathlib.Logic.Relation

namespace CallGraph

/-! ### What a record states -/

/-- The number of targets that a kind takes. -/
def DispatchKind.Takes : DispatchKind → Nat → Prop
  | .override, count | .reducedExtension, count => count = 1
  | .ordinary, count | .interfaceMember, count => count = 0
  | .explicitImpl, _ => True

theorem DispatchKind.ofValue?_eq_some_iff {given : Value} {kind : DispatchKind} :
    ofValue? given = some kind ↔ given = .text kind.name := by
  constructor
  · intro found
    cases given with
    | text s =>
      have listed : all.find? (fun kind => kind.name = s) = some kind := found
      have named := List.find?_some listed
      exact congrArg Value.text (of_decide_eq_true named).symm
    | _ => cases found
  · rintro rfl
    exact ofValue?_name kind

namespace Symbol

/-- The kind that a record states; one that states none is that of an ordinary method. -/
inductive StatesKind (fields : List (String × Value)) : DispatchKind → Prop
  | omitted (absent : fields.lookup "dispatch_kind" = none) : StatesKind fields .ordinary
  | named {kind : DispatchKind} (given : fields.lookup "dispatch_kind" = some (.text kind.name)) :
      StatesKind fields kind

/-- The targets that a record states; none, or a void value, is no target at all. -/
inductive StatesTargets (fields : List (String × Value)) : List Value → Prop
  | omitted (absent : fields.lookup "targets" = none) : StatesTargets fields []
  | void {given : Value} (void : given.isVoid = true)
      (given : fields.lookup "targets" = some given) : StatesTargets fields []
  | listed {items : List Value} (given : fields.lookup "targets" = some (.list items)) :
      StatesTargets fields items

theorem kindIn_eq_ok_iff {fields : List (String × Value)} {kind : DispatchKind} :
    kindIn fields = .ok kind ↔ StatesKind fields kind := by
  unfold kindIn
  constructor
  · intro read
    split at read
    · rename_i absent
      obtain rfl := Except.ok.inj read
      exact .omitted absent
    · rename_i value given
      split at read
      · rename_i found isKind
        obtain rfl := Except.ok.inj read
        rw [DispatchKind.ofValue?_eq_some_iff.mp isKind] at given
        exact .named given
      · cases read
  · intro stated
    cases stated with
    | omitted absent => rw [absent]
    | named given =>
      rw [given]
      dsimp only
      rw [DispatchKind.ofValue?_name]

theorem targetsIn_eq (fields : List (String × Value)) :
    targetsIn fields =
      match fields.lookup "targets" with
      | none => .ok []
      | some given => targetsOf given := by
  induction fields with
  | nil => rw [targetsIn]; rfl
  | cons field rest ih =>
    obtain ⟨key, value⟩ := field
    rw [targetsIn, List.lookup_cons]
    by_cases same : key = "targets"
    · rw [if_pos same, beq_iff_eq.mpr same.symm]
    · rw [if_neg same, beq_eq_false_iff_ne.mpr (Ne.symm same), ih]

/-- Targets that cannot be gone through: true, or a number other than zero. -/
inductive Unlistable : Value → Prop
  | true : Unlistable (.bool true)
  | int {n : Int} (nonzero : n ≠ 0) : Unlistable (.int n)
  | float {x : Binary64} (nonzero : x.toInt? ≠ some 0) : Unlistable (.float x)

theorem targetsOf_of_isVoid {given : Value} (void : given.isVoid = true) :
    targetsOf given = .ok [] := by
  cases given with
  | text s => rw [targetsOf]; exact if_pos void
  | list items =>
    obtain rfl := List.isEmpty_iff.mp void
    rw [targetsOf, decodeAll]
  | record fields =>
    obtain rfl := List.isEmpty_iff.mp void
    rw [targetsOf]
  | _ => simp [targetsOf, void]

/-- **How targets are read** that are not void: one by one, or not at all. -/
theorem targetsOf_cases {given : Value} (solid : given.isVoid = false) :
    (∃ items, given = .list items ∧ targetsOf given = decodeAll items) ∨
      (∃ part, targetsOf given = .error (.notRecord part)) ∨
      Unlistable given ∧ targetsOf given = .error (.targetsNotListed given) := by
  cases given with
  | null => cases solid
  | bool b =>
    cases b with
    | false => cases solid
    | true => exact Or.inr (Or.inr ⟨.true, by simp [targetsOf, solid]⟩)
  | int n =>
    exact Or.inr (Or.inr ⟨.int (of_decide_eq_false solid), by simp [targetsOf, solid]⟩)
  | float x =>
    exact Or.inr (Or.inr ⟨.float (of_decide_eq_false solid), by simp [targetsOf, solid]⟩)
  | text s =>
    refine Or.inr (Or.inl ⟨.text s, ?_⟩)
    rw [targetsOf]
    exact if_neg (Bool.eq_false_iff.mp solid)
  | list items => exact Or.inl ⟨items, rfl, by rw [targetsOf]⟩
  | record fields =>
    cases fields with
    | nil => cases solid
    | cons field rest => exact Or.inr (Or.inl ⟨.text field.1, by rw [targetsOf]⟩)

/-! ### Lists of targets -/

theorem decodeAll_cons_eq_ok_iff {item : Value} {rest : List Value} {symbols : List Symbol} :
    decodeAll (item :: rest) = .ok symbols ↔
      ∃ symbol more, decode item = .ok symbol ∧ decodeAll rest = .ok more ∧
        symbols = symbol :: more := by
  rw [decodeAll]
  cases decode item with
  | error cause => simp [bind, Except.bind]
  | ok symbol =>
    cases decodeAll rest with
    | error cause => simp [bind, Except.bind]
    | ok more => simp [bind, Except.bind, pure, Except.pure, eq_comm]

theorem decodeAll_cons_eq_error_iff {item : Value} {rest : List Value} {cause : SymbolError} :
    decodeAll (item :: rest) = .error cause ↔
      decode item = .error cause ∨
        (∃ symbol, decode item = .ok symbol) ∧ decodeAll rest = .error cause := by
  rw [decodeAll]
  cases decode item with
  | error fault => simp [bind, Except.bind]
  | ok symbol =>
    cases decodeAll rest with
    | error fault => simp [bind, Except.bind]
    | ok more => simp [bind, Except.bind, pure, Except.pure]

theorem decodeAll_eq_ok_iff {items : List Value} {symbols : List Symbol} :
    decodeAll items = .ok symbols ↔
      List.Forall₂ (fun item symbol => decode item = .ok symbol) items symbols := by
  induction items generalizing symbols with
  | nil =>
    rw [decodeAll, List.forall₂_nil_left_iff, Except.ok.injEq]
    exact eq_comm
  | cons item rest ih =>
    rw [decodeAll_cons_eq_ok_iff, List.forall₂_cons_left_iff]
    simp only [ih, exists_and_left]

/-- Reading stops at the first item that cannot be read. -/
theorem decodeAll_eq_error_iff {items : List Value} {cause : SymbolError} :
    decodeAll items = .error cause ↔
      ∃ before item after, items = before ++ item :: after ∧
        (∀ earlier ∈ before, ∃ symbol, decode earlier = .ok symbol) ∧
        decode item = .error cause := by
  induction items with
  | nil => simp [decodeAll]
  | cons first rest ih =>
    rw [decodeAll_cons_eq_error_iff, ih]
    constructor
    · rintro (failed | ⟨read, before, item, after, rfl, readable, failed⟩)
      · exact ⟨[], first, rest, rfl, fun earlier listed => (List.not_mem_nil listed).elim, failed⟩
      · exact ⟨first :: before, item, after, rfl, List.forall_mem_cons.mpr ⟨read, readable⟩, failed⟩
    · rintro ⟨before, item, after, split, readable, failed⟩
      cases before with
      | nil =>
        obtain ⟨rfl, -⟩ := List.cons.inj split
        exact Or.inl failed
      | cons earlier more =>
        obtain ⟨rfl, rfl⟩ := List.cons.inj split
        obtain ⟨read, others⟩ := List.forall_mem_cons.mp readable
        exact Or.inr ⟨read, more, item, after, rfl, others, failed⟩

/-- Stated targets are read one by one. -/
theorem targetsIn_of_states {fields : List (String × Value)} {items : List Value}
    (states : StatesTargets fields items) : targetsIn fields = decodeAll items := by
  rw [targetsIn_eq]
  cases states with
  | omitted absent => rw [absent, decodeAll]
  | void void given =>
    rw [given, decodeAll]
    exact targetsOf_of_isVoid void
  | listed given =>
    rw [given]
    dsimp only
    rw [targetsOf]

theorem exists_statesTargets {fields : List (String × Value)} {symbols : List Symbol}
    (read : targetsIn fields = .ok symbols) : ∃ items, StatesTargets fields items := by
  rw [targetsIn_eq] at read
  cases stated : fields.lookup "targets" with
  | none => exact ⟨[], .omitted stated⟩
  | some given =>
    rw [stated] at read
    dsimp only at read
    cases void : given.isVoid with
    | true => exact ⟨[], .void void stated⟩
    | false =>
      rcases targetsOf_cases void with ⟨items, rfl, -⟩ | ⟨part, failed⟩ | ⟨-, failed⟩
      · exact ⟨items, .listed stated⟩
      · rw [failed] at read; cases read
      · rw [failed] at read; cases read

/-! ### One level -/

theorem make_eq_ok_iff {kind : DispatchKind} {member : Member} {targets : List Symbol}
    {symbol : Symbol} :
    make kind member targets = .ok symbol ↔
      symbol.kind = kind ∧ symbol.member = member ∧ symbol.targets = targets := by
  constructor
  · intro made
    unfold make at made
    split at made
    all_goals cases made
    all_goals exact ⟨rfl, rfl, rfl⟩
  · rintro ⟨rfl, rfl, rfl⟩
    exact make_self symbol

/-- A symbol can be made when its kind takes as many targets. -/
theorem exists_make {kind : DispatchKind} {targets : List Symbol}
    (takes : kind.Takes targets.length) (member : Member) :
    ∃ symbol, make kind member targets = .ok symbol := by
  cases kind with
  | ordinary => rw [List.length_eq_zero_iff.mp takes]; exact ⟨_, rfl⟩
  | interfaceMember => rw [List.length_eq_zero_iff.mp takes]; exact ⟨_, rfl⟩
  | override =>
    obtain ⟨base, rfl⟩ := List.length_eq_one_iff.mp takes
    exact ⟨_, rfl⟩
  | reducedExtension =>
    obtain ⟨origin, rfl⟩ := List.length_eq_one_iff.mp takes
    exact ⟨_, rfl⟩
  | explicitImpl => exact ⟨_, rfl⟩

/-- **One level of a record**: its kind, its names and its targets are those of the symbol. -/
theorem decode_record_eq_ok_iff {fields : List (String × Value)} {symbol : Symbol} :
    decode (.record fields) = .ok symbol ↔
      StatesKind fields symbol.kind ∧ symbol.member = memberIn fields ∧
        ∃ items, StatesTargets fields items ∧ decodeAll items = .ok symbol.targets := by
  rw [decode]
  constructor
  · intro read
    cases kindRead : kindIn fields with
    | error cause => rw [kindRead] at read; cases read
    | ok kind =>
      cases targetsRead : targetsIn fields with
      | error cause => rw [kindRead, targetsRead] at read; cases read
      | ok targets =>
        rw [kindRead, targetsRead] at read
        obtain ⟨rfl, member, rfl⟩ := make_eq_ok_iff.mp read
        obtain ⟨items, states⟩ := exists_statesTargets targetsRead
        exact ⟨kindIn_eq_ok_iff.mp kindRead, member, items, states,
          (targetsIn_of_states states).symm.trans targetsRead⟩
  · rintro ⟨stated, member, items, states, read⟩
    rw [kindIn_eq_ok_iff.mpr stated, targetsIn_of_states states, read, ← member]
    exact make_self symbol

end Symbol

/-! ### All levels -/

theorem sizeOf_lt_of_lookup {fields : List (String × Value)} {key : String} {value : Value}
    (given : fields.lookup key = some value) : sizeOf value < sizeOf fields := by
  induction fields with
  | nil => cases given
  | cons field rest ih =>
    obtain ⟨name, other⟩ := field
    rw [List.lookup_cons] at given
    split at given
    · obtain rfl := Option.some.inj given
      simp only [List.cons.sizeOf_spec, Prod.mk.sizeOf_spec]
      omega
    · have smaller := ih given
      rw [List.cons.sizeOf_spec]
      omega

/-- The stated targets of a record are parts of it. -/
theorem Symbol.StatesTargets.sizeOf_lt {fields : List (String × Value)} {items : List Value}
    (states : StatesTargets fields items) {item : Value} (listed : item ∈ items) :
    sizeOf item < sizeOf (Value.record fields) := by
  cases states with
  | omitted absent => cases listed
  | void void given => cases listed
  | listed given =>
    have whole := sizeOf_lt_of_lookup given
    have part := List.sizeOf_lt_of_mem listed
    rw [Value.list.sizeOf_spec] at whole
    rw [Value.record.sizeOf_spec]
    omega

/-- **Induction over the targets of a value.** -/
theorem Value.targets_induction {motive : Value → Prop}
    (step : ∀ value, (∀ fields items, value = .record fields → Symbol.StatesTargets fields items →
      ∀ item ∈ items, motive item) → motive value) (value : Value) : motive value := by
  induction size : sizeOf value using Nat.strongRecOn generalizing value with
  | ind n ih =>
    refine step value fun fields items isRecord states item listed => ih (sizeOf item) ?_ item rfl
    subst isRecord
    rw [← size]
    exact states.sizeOf_lt listed

/-- **The grammar**: a record that states a kind and targets, as many as the kind takes, each of
which is in the grammar. -/
inductive Value.IsSymbol : Value → Prop
  | record {fields : List (String × Value)} {kind : DispatchKind} {items : List Value}
      (stated : Symbol.StatesKind fields kind) (states : Symbol.StatesTargets fields items)
      (takes : kind.Takes items.length) (each : ∀ item ∈ items, item.IsSymbol) :
      IsSymbol (.record fields)

namespace Symbol

/-- **The symbol that a value describes**: it has the kind and the names that the record states, and
its targets are those that the stated ones describe. -/
inductive Reads : Value → Symbol → Prop
  | record {fields : List (String × Value)} {symbol : Symbol} {items : List Value}
      (stated : StatesKind fields symbol.kind) (named : symbol.member = memberIn fields)
      (states : StatesTargets fields items) (count : items.length = symbol.targets.length)
      (each : ∀ pair ∈ items.zip symbol.targets, Reads pair.1 pair.2) :
      Reads (.record fields) symbol

/-- A symbol has as many targets as its kind takes. -/
theorem takes_targets (symbol : Symbol) : symbol.kind.Takes symbol.targets.length := by
  cases symbol with
  | explicitImpl member targets => exact trivial
  | _ => rfl

/-- Whatever is not refused as such is a record. -/
theorem eq_record_of_decode (given : Value) (taken : decode given ≠ .error (.notRecord given)) :
    ∃ fields, given = .record fields := by
  cases given with
  | record fields => exact ⟨fields, rfl⟩
  | _ => simp [decode] at taken

/-- **What is read is what the value describes.** -/
theorem reads_of_decode {given : Value} {symbol : Symbol} (read : decode given = .ok symbol) :
    Reads given symbol := by
  induction given using Value.targets_induction generalizing symbol with
  | step given ih =>
    obtain ⟨fields, rfl⟩ := eq_record_of_decode given (by simp [read])
    obtain ⟨stated, named, items, states, each⟩ := decode_record_eq_ok_iff.mp read
    obtain ⟨count, each⟩ := List.forall₂_iff_zip.mp (decodeAll_eq_ok_iff.mp each)
    refine .record stated named states count fun pair listed => ?_
    exact ih fields items rfl states pair.1 (List.of_mem_zip listed).1 (each listed)

/-- What a value describes is in the grammar. -/
theorem Reads.isSymbol {given : Value} {symbol : Symbol} (reads : Reads given symbol) :
    given.IsSymbol := by
  induction reads with
  | @record fields symbol items stated named states count each ih =>
    refine .record stated states (count ▸ symbol.takes_targets) fun item listed => ?_
    rw [← List.map_fst_zip (Nat.le_of_eq count)] at listed
    obtain ⟨pair, paired, rfl⟩ := List.mem_map.mp listed
    exact ih pair paired

theorem exists_decodeAll {items : List Value}
    (each : ∀ item ∈ items, ∃ symbol, decode item = .ok symbol) :
    ∃ symbols, decodeAll items = .ok symbols := by
  cases read : decodeAll items with
  | ok symbols => exact ⟨symbols, rfl⟩
  | error cause =>
    obtain ⟨before, item, after, rfl, -, failed⟩ := decodeAll_eq_error_iff.mp read
    obtain ⟨symbol, readable⟩ := each item (List.mem_append_right _ List.mem_cons_self)
    rw [failed] at readable
    cases readable

/-- Every value of the grammar is read. -/
theorem exists_decode {given : Value} (described : given.IsSymbol) :
    ∃ symbol, decode given = .ok symbol := by
  induction described with
  | @record fields kind items stated states takes each ih =>
    obtain ⟨targets, read⟩ := exists_decodeAll ih
    have count := (decodeAll_eq_ok_iff.mp read).length_eq
    obtain ⟨symbol, made⟩ := exists_make (count ▸ takes) (memberIn fields)
    obtain ⟨rfl, named, rfl⟩ := make_eq_ok_iff.mp made
    exact ⟨symbol, decode_record_eq_ok_iff.mpr ⟨stated, named, items, states, read⟩⟩

theorem exists_decode_iff (given : Value) :
    (∃ symbol, decode given = .ok symbol) ↔ given.IsSymbol := by
  constructor
  · rintro ⟨symbol, read⟩
    exact (reads_of_decode read).isSymbol
  · exact exists_decode

/-! ### Targets that are there -/

/-- A symbol is a level of another one: the symbol itself, or one that its targets lead to. -/
def Nests : Symbol → Symbol → Prop := Relation.ReflTransGen fun outer inner => inner ∈ outer.targets

/-- **What is read of the targets is there.** -/
structure Grounded (symbol : Symbol) : Prop where
  count : symbol.kind.Takes symbol.targets.length
  /-- An override has its base. -/
  base : symbol.kind = .override →
    ∃ base, symbol.base? = some base ∧ symbol.targets.head? = some base
  /-- A reduced extension has its origin. -/
  origin : symbol.kind = .reducedExtension →
    ∃ origin, symbol.origin? = some origin ∧ symbol.targets.head? = some origin
  /-- A step of dispatch goes to the first target, and is taken when there is one. -/
  next : symbol.next? = symbol.targets.head?

theorem grounded (symbol : Symbol) : symbol.Grounded where
  count := symbol.takes_targets
  base isOverride := by
    cases symbol with
    | override member base => exact ⟨base, rfl, rfl⟩
    | _ => cases isOverride
  origin isExtension := by
    cases symbol with
    | reducedExtension member origin => exact ⟨origin, rfl, rfl⟩
    | _ => cases isExtension
  next := symbol.next?_eq

/-- Dispatch stays among the levels of a symbol. -/
theorem Nests.next {symbol level target : Symbol} (nests : symbol.Nests level)
    (step : level.next? = some target) : symbol.Nests target := by
  rw [level.next?_eq] at step
  exact nests.tail (List.mem_of_mem_head? step)

/-! ### Failures -/

/-- The complaint about a number of targets that a kind does not take. -/
def miscount (kind : DispatchKind) (name : Value) (count : Nat) : SymbolError :=
  if kind.isChained then .needsOneTarget kind name count else .takesNoTarget kind name

theorem shows_miscount (kind : DispatchKind) (name : Value) (count : Nat) :
    (miscount kind name count).shows = [name] := by
  cases kind <;> rfl

theorem make_of_not_takes {kind : DispatchKind} {targets : List Symbol}
    (miscounts : ¬ kind.Takes targets.length) (member : Member) :
    make kind member targets = .error (miscount kind member.name targets.length).raised := by
  cases kind with
  | explicitImpl => exact absurd trivial miscounts
  | ordinary =>
    cases targets with
    | nil => exact absurd rfl miscounts
    | cons target more => rfl
  | interfaceMember =>
    cases targets with
    | nil => exact absurd rfl miscounts
    | cons target more => rfl
  | override =>
    match targets with
    | [] => rfl
    | [base] => exact absurd rfl miscounts
    | _ :: _ :: _ => rfl
  | reducedExtension =>
    match targets with
    | [] => rfl
    | [origin] => exact absurd rfl miscounts
    | _ :: _ :: _ => rfl

/-- A symbol cannot be made exactly when its kind does not take as many targets. -/
theorem make_eq_error_iff {kind : DispatchKind} {member : Member} {targets : List Symbol}
    {cause : SymbolError} :
    make kind member targets = .error cause ↔
      ¬ kind.Takes targets.length ∧
        cause = (miscount kind member.name targets.length).raised := by
  by_cases takes : kind.Takes targets.length
  · obtain ⟨symbol, made⟩ := exists_make takes member
    rw [made]
    exact iff_of_false (fun wrong => by cases wrong) fun both => both.1 takes
  · rw [and_iff_right takes, make_of_not_takes takes, Except.error.injEq]
    exact eq_comm

theorem kindIn_eq_error_iff {fields : List (String × Value)} {cause : SymbolError} :
    kindIn fields = .error cause ↔
      ∃ given, fields.lookup "dispatch_kind" = some given ∧
        DispatchKind.ofValue? given = none ∧ cause = (SymbolError.unknownKind given).raised := by
  unfold kindIn
  cases fields.lookup "dispatch_kind" with
  | none => exact iff_of_false (fun wrong => by cases wrong) fun ⟨_, wrong, _⟩ => by cases wrong
  | some given =>
    dsimp only
    cases known : DispatchKind.ofValue? given with
    | none => simp [known, eq_comm]
    | some kind => simp [known]

/-- **A fault of the record itself**: its kind is unknown, its targets are no list, or they are not
as many as its kind takes. -/
inductive FailsHere (fields : List (String × Value)) (cause : SymbolError) : Prop
  | kind {other : Value} (given : fields.lookup "dispatch_kind" = some other)
      (unknown : DispatchKind.ofValue? other = none)
      (raised : cause = (SymbolError.unknownKind other).raised)
  | part {kind : DispatchKind} {part : Value} (stated : StatesKind fields kind)
      (raised : cause = .notRecord part)
  | unlistable {kind : DispatchKind} {odd : Value} (stated : StatesKind fields kind)
      (given : fields.lookup "targets" = some odd) (unlistable : Unlistable odd)
      (raised : cause = .targetsNotListed odd)
  | count {kind : DispatchKind} {items : List Value} (stated : StatesKind fields kind)
      (states : StatesTargets fields items) (readable : ∀ item ∈ items, item.IsSymbol)
      (miscounts : ¬ kind.Takes items.length)
      (raised : cause = (miscount kind (memberIn fields).name items.length).raised)

/-- **Reading comes to a fault**: one of the record itself, or of one of its targets when all
targets before that one can be read. The kinds on the way are known. -/
inductive Meets (fault : List (String × Value) → Prop) : Value → Prop
  | here {fields : List (String × Value)} (faulty : fault fields) : Meets fault (.record fields)
  | inside {fields : List (String × Value)} {kind : DispatchKind} {before after : List Value}
      {item : Value} (stated : StatesKind fields kind)
      (given : fields.lookup "targets" = some (.list (before ++ item :: after)))
      (readable : ∀ earlier ∈ before, earlier.IsSymbol) (meets : Meets fault item) :
      Meets fault (.record fields)

theorem Meets.imp {fault other : List (String × Value) → Prop} {given : Value}
    (implies : ∀ fields, fault fields → other fields) (meets : Meets fault given) :
    Meets other given := by
  induction meets with
  | here faulty => exact .here (implies _ faulty)
  | inside stated given readable meets ih => exact .inside stated given readable ih

/-- A fault that is the same for all records. -/
theorem Meets.elim_const {fault : Prop} {given : Value} (meets : Meets (fun _ => fault) given) :
    fault := by
  induction meets with
  | here faulty => exact faulty
  | inside stated given readable meets ih => exact ih

theorem Unlistable.targetsOf_eq {odd : Value} (unlistable : Unlistable odd) :
    targetsOf odd = .error (.targetsNotListed odd) := by
  cases unlistable with
  | true => simp [targetsOf, Value.isVoid]
  | int nonzero => simp [targetsOf, Value.isVoid, nonzero]
  | float nonzero => simp [targetsOf, Value.isVoid, nonzero]

/-- Stated targets that can all be read, counted. -/
theorem exists_states_of_targetsIn {fields : List (String × Value)} {targets : List Symbol}
    (read : targetsIn fields = .ok targets) :
    ∃ items, StatesTargets fields items ∧ (∀ item ∈ items, item.IsSymbol) ∧
      items.length = targets.length := by
  obtain ⟨items, states⟩ := exists_statesTargets read
  obtain ⟨count, each⟩ := List.forall₂_iff_zip.mp
    (decodeAll_eq_ok_iff.mp ((targetsIn_of_states states).symm.trans read))
  refine ⟨items, states, fun item listed => ?_, count⟩
  rw [← List.map_fst_zip (Nat.le_of_eq count)] at listed
  obtain ⟨pair, paired, rfl⟩ := List.mem_map.mp listed
  exact (exists_decode_iff _).mp ⟨pair.2, each paired⟩

/-- **One level of a failure**: the record itself has a fault, or one of its targets is the first
that fails. -/
theorem failsHere_or_inside {fields : List (String × Value)} {cause : SymbolError}
    (failed : decode (.record fields) = .error cause) :
    FailsHere fields cause ∨
      ∃ kind before item after, StatesKind fields kind ∧
        fields.lookup "targets" = some (.list (before ++ item :: after)) ∧
        (∀ earlier ∈ before, earlier.IsSymbol) ∧ decode item = .error cause := by
  rw [decode] at failed
  cases kindRead : kindIn fields with
  | error first =>
    rw [kindRead] at failed
    obtain rfl := Except.error.inj failed
    obtain ⟨given, isGiven, unknown, raised⟩ := kindIn_eq_error_iff.mp kindRead
    exact Or.inl (.kind isGiven unknown raised)
  | ok kind =>
    have stated := kindIn_eq_ok_iff.mp kindRead
    cases targetsRead : targetsIn fields with
    | ok targets =>
      rw [kindRead, targetsRead] at failed
      obtain ⟨miscounts, raised⟩ := make_eq_error_iff.mp failed
      obtain ⟨items, states, readable, count⟩ := exists_states_of_targetsIn targetsRead
      rw [← count] at miscounts raised
      exact Or.inl (.count stated states readable miscounts raised)
    | error first =>
      rw [kindRead, targetsRead] at failed
      obtain rfl := Except.error.inj failed
      rw [targetsIn_eq] at targetsRead
      cases isGiven : fields.lookup "targets" with
      | none => rw [isGiven] at targetsRead; cases targetsRead
      | some given =>
        rw [isGiven] at targetsRead
        dsimp only at targetsRead
        cases void : given.isVoid with
        | true => rw [targetsOf_of_isVoid void] at targetsRead; cases targetsRead
        | false =>
          rcases targetsOf_cases void with ⟨items, rfl, read⟩ | ⟨part, other⟩ | ⟨odd, other⟩
          · obtain ⟨before, item, after, rfl, readable, itemFails⟩ :=
              decodeAll_eq_error_iff.mp (read.symm.trans targetsRead)
            refine Or.inr ⟨kind, before, item, after, stated, rfl, fun earlier listed => ?_,
              itemFails⟩
            exact (exists_decode_iff earlier).mp (readable earlier listed)
          · exact Or.inl (.part stated (Except.error.inj (targetsRead.symm.trans other)))
          · exact Or.inl (.unlistable stated isGiven odd
              (Except.error.inj (targetsRead.symm.trans other)))

/-- **All levels of a failure.** -/
theorem meets_of_decode {given : Value} {cause : SymbolError} (failed : decode given = .error cause)
    (taken : ∀ part, cause ≠ .notRecord part) :
    Meets (fun fields => FailsHere fields cause) given := by
  induction given using Value.targets_induction with
  | step given ih =>
    obtain ⟨fields, rfl⟩ := eq_record_of_decode given fun refused =>
      taken given (Except.error.inj (failed.symm.trans refused))
    rcases failsHere_or_inside failed with
      here | ⟨kind, before, item, after, stated, isGiven, readable, itemFails⟩
    · exact .here here
    · refine .inside stated isGiven readable (ih fields _ rfl (.listed isGiven) item ?_ itemFails)
      exact List.mem_append_right _ List.mem_cons_self

/-- A fault that reading comes to is what it fails with. -/
theorem decode_of_meets {fault : List (String × Value) → Prop} {cause : SymbolError}
    (here : ∀ fields, fault fields → decode (.record fields) = .error cause) {given : Value}
    (meets : Meets fault given) : decode given = .error cause := by
  induction meets with
  | here faulty => exact here _ faulty
  | @inside fields kind before after item stated isGiven readable meets ih =>
    have fails : decodeAll (before ++ item :: after) = .error cause :=
      decodeAll_eq_error_iff.mpr ⟨before, item, after, rfl,
        fun earlier listed => exists_decode (readable earlier listed), ih⟩
    rw [decode, kindIn_eq_ok_iff.mpr stated, targetsIn_of_states (.listed isGiven), fails]
    rfl

/-! ### Two faults that are not those of a symbol -/

/-- The targets of a record cannot be gone through. -/
def HasUnlistable (odd : Value) (fields : List (String × Value)) : Prop :=
  (∃ kind, StatesKind fields kind) ∧ fields.lookup "targets" = some odd ∧ Unlistable odd

/-- The complaint about a record has to show a kind, or a name, that cannot be written. -/
def HasOverlong (fields : List (String × Value)) : Prop :=
  (∃ given, fields.lookup "dispatch_kind" = some given ∧ DispatchKind.ofValue? given = none ∧
      given.isWritable = false) ∨
    (∃ kind items, StatesKind fields kind ∧ StatesTargets fields items ∧
      (∀ item ∈ items, item.IsSymbol) ∧ ¬ kind.Takes items.length) ∧
    (memberIn fields).name.isWritable = false

theorem raised_of_not_isWritable {cause : SymbolError} {value : Value}
    (shows : cause.shows = [value]) (long : value.isWritable = false) :
    cause.raised = .misuse .tooLong := by
  refine Value.refusal_of_not_writable ?_
  rw [shows, Value.areWritable, long]
  rfl

theorem raised_of_isWritable {cause : SymbolError} {value : Value} (shows : cause.shows = [value])
    (writable : value.isWritable = true) : cause.raised = cause := by
  refine Value.refusal_of_writable ?_
  rw [shows, Value.areWritable_iff]
  exact List.forall_mem_singleton.mpr writable

/-- What is raised of a complaint is the complaint itself where its value can be written. -/
theorem raised_cases (cause : SymbolError) {value : Value} (shows : cause.shows = [value]) :
    (value.isWritable = true ∧ cause.raised = cause) ∨
      value.isWritable = false ∧ cause.raised = .misuse .tooLong := by
  cases writable : value.isWritable with
  | true => exact Or.inl ⟨rfl, raised_of_isWritable shows writable⟩
  | false => exact Or.inr ⟨rfl, raised_of_not_isWritable shows writable⟩

theorem miscount_ne_misuse (kind : DispatchKind) (name : Value) (count : Nat) (cause : Misuse) :
    miscount kind name count ≠ .misuse cause := by
  cases kind <;> exact fun wrong => by cases wrong

theorem miscount_ne_notListed (kind : DispatchKind) (name : Value) (count : Nat) (odd : Value) :
    miscount kind name count ≠ .targetsNotListed odd := by
  cases kind <;> exact fun wrong => by cases wrong

theorem FailsHere.hasUnlistable {fields : List (String × Value)} {odd : Value}
    (fails : FailsHere fields (.targetsNotListed odd)) : HasUnlistable odd fields := by
  cases fails with
  | kind isGiven unknown raised =>
    rcases raised_cases (.unknownKind _) rfl with ⟨-, same⟩ | ⟨-, same⟩
    · rw [same] at raised; cases raised
    · rw [same] at raised; cases raised
  | part stated raised => cases raised
  | unlistable stated isGiven unlistable raised =>
    obtain rfl := SymbolError.targetsNotListed.inj raised
    exact ⟨⟨_, stated⟩, isGiven, unlistable⟩
  | count stated states readable miscounts raised =>
    rcases raised_cases _ (shows_miscount _ _ _) with ⟨-, same⟩ | ⟨-, same⟩
    · exact absurd (raised.trans same).symm (miscount_ne_notListed _ _ _ _)
    · rw [same] at raised; cases raised

theorem FailsHere.hasOverlong {fields : List (String × Value)} {misuse : Misuse}
    (fails : FailsHere fields (.misuse misuse)) : misuse = .tooLong ∧ HasOverlong fields := by
  cases fails with
  | kind isGiven unknown raised =>
    rcases raised_cases (.unknownKind _) rfl with ⟨-, same⟩ | ⟨long, same⟩
    · rw [same] at raised; cases raised
    · rw [same] at raised
      exact ⟨SymbolError.misuse.inj raised, Or.inl ⟨_, isGiven, unknown, long⟩⟩
  | part stated raised => cases raised
  | unlistable stated isGiven unlistable raised => cases raised
  | count stated states readable miscounts raised =>
    rcases raised_cases _ (shows_miscount _ _ _) with ⟨-, same⟩ | ⟨long, same⟩
    · exact absurd (raised.trans same).symm (miscount_ne_misuse _ _ _ _)
    · rw [same] at raised
      exact ⟨SymbolError.misuse.inj raised,
        Or.inr ⟨⟨_, _, stated, states, readable, miscounts⟩, long⟩⟩

theorem HasUnlistable.decode_eq {fields : List (String × Value)} {odd : Value}
    (has : HasUnlistable odd fields) :
    decode (.record fields) = .error (.targetsNotListed odd) := by
  obtain ⟨⟨kind, stated⟩, isGiven, unlistable⟩ := has
  rw [decode, kindIn_eq_ok_iff.mpr stated, targetsIn_eq, isGiven]
  dsimp only
  rw [unlistable.targetsOf_eq]
  rfl

theorem HasOverlong.decode_eq {fields : List (String × Value)} (has : HasOverlong fields) :
    decode (.record fields) = .error (.misuse .tooLong) := by
  rw [decode]
  rcases has with ⟨given, isGiven, unknown, long⟩ |
    ⟨⟨kind, items, stated, states, readable, miscounts⟩, long⟩
  · rw [kindIn_eq_error_iff.mpr ⟨given, isGiven, unknown, rfl⟩, raised_of_not_isWritable rfl long]
    rfl
  · obtain ⟨targets, read⟩ :=
      exists_decodeAll fun item listed => exists_decode (readable item listed)
    have count := (decodeAll_eq_ok_iff.mp read).length_eq
    rw [kindIn_eq_ok_iff.mpr stated, targetsIn_of_states states, read]
    refine make_eq_error_iff.mpr ⟨count ▸ miscounts, ?_⟩
    exact (raised_of_not_isWritable (shows_miscount _ _ _) long).symm

/-- **Targets are reported that cannot be gone through** exactly when reading comes to them. -/
theorem decode_eq_notListed_iff {given odd : Value} :
    decode given = .error (.targetsNotListed odd) ↔ Meets (HasUnlistable odd) given := by
  constructor
  · intro failed
    have meets := meets_of_decode failed fun part wrong => by cases wrong
    exact meets.imp fun fields => FailsHere.hasUnlistable
  · exact decode_of_meets fun fields => HasUnlistable.decode_eq

/-- **A misuse** is that of a number too long to be written, and happens exactly when reading comes
to a record whose complaint shows one. -/
theorem decode_eq_misuse_iff {given : Value} {misuse : Misuse} :
    decode given = .error (.misuse misuse) ↔ misuse = .tooLong ∧ Meets HasOverlong given := by
  constructor
  · intro failed
    have meets := meets_of_decode failed fun part wrong => by cases wrong
    have long : Meets (fun _ => misuse = .tooLong) given :=
      meets.imp fun fields fails => fails.hasOverlong.1
    exact ⟨long.elim_const, meets.imp fun fields fails => fails.hasOverlong.2⟩
  · rintro ⟨rfl, meets⟩
    exact decode_of_meets (fun fields => HasOverlong.decode_eq) meets

/-- A value that can be written holds nothing that cannot. -/
theorem not_meets_of_isWritable {given : Value} (writable : given.isWritable = true) :
    ¬ Meets HasOverlong given := by
  intro meets
  induction meets with
  | here has =>
    rcases has with ⟨value, isGiven, -, long⟩ | ⟨-, long⟩
    · exact Bool.false_ne_true (long.symm.trans (Value.isWritable_of_lookup writable isGiven))
    · exact Bool.false_ne_true (long.symm.trans (Value.isWritable_field writable _))
  | inside stated isGiven readable meets ih =>
    have whole := Value.isWritable_of_lookup writable isGiven
    exact ih (Value.isWritable_item whole (List.mem_append_right _ List.mem_cons_self))

end Symbol

/-- The fault is in a symbol. -/
def SymbolError.isInvalid : SymbolError → Bool
  | targetsNotListed _ | misuse _ => false
  | notRecord _ | unknownKind _ | needsOneTarget _ _ _ | takesNoTarget _ _ => true

/-- **Symbols are read by their grammar.** A value is read exactly when it is in the grammar. The
symbol has at every level the kind, the names and the targets that the value states there; so each
level has as many targets as its kind takes, an override has its base, a reduced extension its
origin, and dispatch goes from level to level along targets that are there. When a value is not
read, the fault is in a symbol, unless reading comes to targets that cannot be gone through, or to a
record whose complaint shows a number too long to be written. The last never happens to a value that
can be written as a whole. -/
theorem decode_by_grammar (given : Value) :
    ((∃ symbol, Symbol.decode given = .ok symbol) ↔ given.IsSymbol) ∧
      (∀ symbol, Symbol.decode given = .ok symbol →
        Symbol.Reads given symbol ∧
          ∀ level, symbol.Nests level →
            level.Grounded ∧ ∀ target, level.next? = some target → symbol.Nests target) ∧
      (∀ cause, Symbol.decode given = .error cause →
        (cause.isInvalid = true ∧ (∀ odd, ¬ Symbol.Meets (Symbol.HasUnlistable odd) given) ∧
            ¬ Symbol.Meets Symbol.HasOverlong given) ∨
          (∃ odd, cause = .targetsNotListed odd ∧ Symbol.Meets (Symbol.HasUnlistable odd) given) ∨
          cause = .misuse .tooLong ∧ Symbol.Meets Symbol.HasOverlong given) ∧
      (given.isWritable = true → ¬ Symbol.Meets Symbol.HasOverlong given) := by
  refine ⟨Symbol.exists_decode_iff given, fun symbol read => ⟨Symbol.reads_of_decode read, ?_⟩,
    fun cause failed => ?_, Symbol.not_meets_of_isWritable⟩
  · exact fun level nests => ⟨level.grounded, fun target step => nests.next step⟩
  · have listable : ∀ odd, cause ≠ .targetsNotListed odd →
        ¬ Symbol.Meets (Symbol.HasUnlistable odd) given := by
      intro odd different meets
      rw [Symbol.decode_eq_notListed_iff.mpr meets] at failed
      exact different (Except.error.inj failed).symm
    have worded : cause ≠ .misuse .tooLong → ¬ Symbol.Meets Symbol.HasOverlong given := by
      intro different meets
      rw [Symbol.decode_eq_misuse_iff.mpr ⟨rfl, meets⟩] at failed
      exact different (Except.error.inj failed).symm
    cases cause with
    | targetsNotListed odd =>
      exact Or.inr (Or.inl ⟨odd, rfl, Symbol.decode_eq_notListed_iff.mp failed⟩)
    | misuse misuse =>
      obtain ⟨rfl, meets⟩ := Symbol.decode_eq_misuse_iff.mp failed
      exact Or.inr (Or.inr ⟨rfl, meets⟩)
    | _ =>
      refine Or.inl ⟨rfl, fun odd => listable odd ?_, worded ?_⟩
      all_goals
        intro wrong
        cases wrong

/-- The record of a method with a kind and targets. -/
def chargeRecord (kind : String) (targets : Value) : Value :=
  .record [("fully_qualified_name", .text "Shop.Bank.Charge"), ("dispatch_kind", .text kind),
    ("targets", targets)]

/-- An override of an implementation without targets, an override without a base, and an
implementation whose second target has a number for targets. -/
theorem chargeRecord_by_grammar :
    (∃ symbol base,
      Symbol.decode (chargeRecord "override"
        (.list [chargeRecord "explicit_interface_impl" (.bool false)])) = .ok symbol ∧
      symbol.base? = some base ∧ symbol.Nests base ∧ base.kind.Takes base.targets.length) ∧
    ¬ (chargeRecord "override" (.text "")).IsSymbol ∧
    Symbol.Meets (Symbol.HasUnlistable (.int 7)) (chargeRecord "explicit_interface_impl"
      (.list [.record [], chargeRecord "override" (.int 7), .null])) := by
  obtain ⟨-, levels, -⟩ := decode_by_grammar (chargeRecord "override"
    (.list [chargeRecord "explicit_interface_impl" (.bool false)]))
  obtain ⟨-, grounded⟩ := levels _ rfl
  have nests := (grounded _ .refl).2 _ rfl
  obtain ⟨bare, -, -⟩ := decode_by_grammar (chargeRecord "override" (.text ""))
  obtain ⟨-, -, failures, -⟩ := decode_by_grammar (chargeRecord "explicit_interface_impl"
    (.list [.record [], chargeRecord "override" (.int 7), .null]))
  refine ⟨⟨_, _, rfl, rfl, nests, (grounded _ nests).1.count⟩, fun described => ?_, ?_⟩
  · obtain ⟨symbol, read⟩ := bare.mpr described
    cases read
  · rcases failures _ rfl with ⟨wrong, -⟩ | ⟨odd, same, meets⟩ | ⟨wrong, -⟩
    · cases wrong
    · obtain rfl := SymbolError.targetsNotListed.inj same
      exact meets
    · cases wrong

/-- **A kind too long to be shown.** The record is not in the grammar and has no targets at all, but
what is raised says nothing of a symbol. So it is with an override without a base, under a name that
is too long. -/
theorem overlong_kind_misused :
    ¬ (Value.record [("dispatch_kind", .int Text.overlong)]).IsSymbol ∧
      Symbol.decode (.record [("dispatch_kind", .int Text.overlong)]) =
        .error (.misuse .tooLong) ∧
      (SymbolError.misuse .tooLong).isInvalid = false ∧
      Symbol.decode (.record [("fully_qualified_name", .int Text.overlong),
        ("dispatch_kind", .text "override")]) = .error (.misuse .tooLong) := by
  have long : (Value.int Text.overlong).isWritable = false := by
    rw [Value.isWritable_int]
    exact Text.not_isWritable_overlong
  have failed : Symbol.decode (.record [("dispatch_kind", .int Text.overlong)]) =
      .error (.misuse .tooLong) :=
    Symbol.HasOverlong.decode_eq (Or.inl ⟨_, rfl, rfl, long⟩)
  refine ⟨fun described => ?_, failed, rfl, ?_⟩
  · obtain ⟨symbol, read⟩ := Symbol.exists_decode described
    rw [failed] at read
    cases read
  · refine Symbol.HasOverlong.decode_eq
      (Or.inr ⟨⟨.override, [], .named rfl, .omitted rfl, ?_, ?_⟩, long⟩)
    · exact fun item listed => (List.not_mem_nil listed).elim
    · exact fun takes => by cases takes

end CallGraph
