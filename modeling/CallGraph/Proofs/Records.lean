/-
**What becomes of records.**

A record whose fact is showable (`Value.Showable`) has one of two fates: it is admitted as an edge
(`admitted?`), or it is left out with errors under a location (`refusal?`).
`Assembly.takeRecord_cases` says what one record does to an assembly in either case.
`Assembly.Tracks` says what an assembly is after some records: its builder has been fed the admitted
edges and its summary counts both fates. One more record keeps it so (`Tracks.takeRecord`), and so
does any list of records. Any other record ends the assembly (`assembleRecords_of_not_showable`), so
that what is assembled comes from showable records only.

* `assembleRecords_accounts`: an assembly of records that can be written never fails, accounts for
  every record, and does not notice when records that it leaves out are missing.
-/

import CallGraph.Proofs.Intake
import CallGraph.Proofs.Snapshot

namespace CallGraph

variable {limit : HopLimit}

/-! ### The fate of a record -/

/-- The edge that a record is admitted as. -/
def admitted? (limit : HopLimit) (record : Value) : Option Edge :=
  match Fact.decode record with
  | .error _ => none
  | .ok fact => (fact.toEdge limit).toOption

/-- What is noted of a record, at its position, that is left out. -/
def refusal? (limit : HopLimit) (entry : Value × Nat) : Option Skip :=
  match Fact.decode entry.1 with
  | .error cause =>
    some ⟨"record " ++ Text.decimalText entry.2, ["Undecodable record: " ++ cause.message]⟩
  | .ok fact =>
    match fact.toEdge limit with
    | .error cause => fact.location.toOption.map fun place => ⟨place, cause.errors⟩
    | .ok _ => none

/-- Taking in the record writes only what can be written. -/
def Value.Showable (limit : HopLimit) (record : Value) : Prop :=
  ∀ fact, Fact.decode record = .ok fact → fact.Showable limit

theorem Value.showable_of_isWritable {record : Value} (writable : record.isWritable = true) :
    record.Showable limit :=
  fun _ decoded => Fact.showable_of_decode decoded writable

/-- The edges of the admitted records, in order. -/
def admittedEdges (limit : HopLimit) (records : List Value) : List Edge :=
  records.filterMap (admitted? limit)

theorem admitted?_eq_some_iff {record : Value} {edge : Edge} :
    admitted? limit record = some edge ↔
      ∃ fact, Fact.decode record = .ok fact ∧ fact.toEdge limit = .ok edge := by
  unfold admitted?
  constructor
  · intro admitted
    split at admitted
    · cases admitted
    · rename_i fact decoded
      refine ⟨fact, decoded, ?_⟩
      cases made : fact.toEdge limit with
      | error cause =>
        rw [made] at admitted
        cases admitted
      | ok other =>
        rw [made] at admitted
        exact congrArg Except.ok (Option.some.inj admitted)
  · rintro ⟨fact, decoded, made⟩
    rw [decoded]
    dsimp only
    rw [made]
    rfl

theorem typed_admittedEdges (limit : HopLimit) (records : List Value) :
    ∀ edge ∈ admittedEdges limit records, edge.Typed := by
  intro edge listed
  obtain ⟨record, -, admitted⟩ := List.mem_filterMap.mp listed
  obtain ⟨fact, -, made⟩ := admitted?_eq_some_iff.mp admitted
  exact Fact.typed_of_toEdge made

namespace Assembly

/-! ### One record -/

/-- **What a showable record does**: it is left out with an error to show, or its edge goes to the
builder. -/
theorem takeRecord_cases {entry : Value × Nat} (showable : entry.1.Showable limit)
    (assembly : Assembly) :
    (∃ skip, admitted? limit entry.1 = none ∧ refusal? limit entry = some skip ∧ skip.errors ≠ [] ∧
      assembly.takeRecord limit entry = .ok (assembly.leave skip)) ∨
    ∃ edge, admitted? limit entry.1 = some edge ∧ refusal? limit entry = none ∧ edge.Typed ∧
      ∀ new builder, assembly.builder.add edge = (.ok new, builder) →
        assembly.takeRecord limit entry = .ok ({ assembly with builder := builder }.count new) := by
  unfold admitted? refusal? takeRecord
  cases decoded : Fact.decode entry.1 with
  | error cause => exact Or.inl ⟨_, rfl, rfl, List.cons_ne_nil _ _, rfl⟩
  | ok fact =>
    dsimp only
    rcases take_of_showable (showable fact decoded) assembly with
      ⟨place, cause, located, refused, taken⟩ | ⟨edge, made, taken⟩
    · rw [refused, located]
      exact Or.inl ⟨_, rfl, rfl, Fact.errors_ne_nil refused, taken⟩
    · rw [made]
      exact Or.inr ⟨edge, rfl, rfl, Fact.typed_of_toEdge made, taken⟩

/-- **Any other record** ends the assembly. -/
theorem takeRecord_of_not_showable {entry : Value × Nat} (unshowable : ¬ entry.1.Showable limit)
    (assembly : Assembly) : assembly.takeRecord limit entry = .error (.misuse .tooLong) := by
  unfold Value.Showable at unshowable
  push Not at unshowable
  obtain ⟨fact, decoded, odd⟩ := unshowable
  unfold takeRecord
  rw [decoded]
  exact take_of_not_showable odd assembly

/-- An assembly after some records with their positions. -/
structure Tracks (limit : HopLimit) (done : List (Value × Nat)) (assembly : Assembly) : Prop where
  builder : assembly.builder = (Builder.fresh.addAll (admittedEdges limit (done.map Prod.fst))).2
  processed : assembly.summary.processed = done.length
  indexed : assembly.summary.indexed =
    (Edge.distinct (admittedEdges limit (done.map Prod.fst))).length
  repeated : assembly.summary.indexed + assembly.summary.duplicates =
    (admittedEdges limit (done.map Prod.fst)).length
  skipped : assembly.summary.skipped = (done.filterMap (refusal? limit)).length
  errors : assembly.summary.errors = (done.filterMap (refusal? limit)).flatMap Skip.located
  skips : assembly.skips = done.filterMap (refusal? limit)

theorem Tracks.start (limit : HopLimit) : Tracks limit [] .start :=
  ⟨rfl, rfl, rfl, rfl, rfl, rfl, rfl⟩

theorem admittedEdges_concat (limit : HopLimit) (done : List (Value × Nat)) (entry : Value × Nat) :
    admittedEdges limit ((done ++ [entry]).map Prod.fst) =
      admittedEdges limit (done.map Prod.fst) ++ (admitted? limit entry.1).toList := by
  rw [List.map_append, admittedEdges, List.filterMap_append, List.map_singleton]
  cases fate : admitted? limit entry.1 <;> simp [admittedEdges, fate]

theorem Tracks.leave {done : List (Value × Nat)} {assembly : Assembly} {entry : Value × Nat}
    {skip : Skip} (tracks : assembly.Tracks limit done) (out : admitted? limit entry.1 = none)
    (refused : refusal? limit entry = some skip) :
    (assembly.leave skip).Tracks limit (done ++ [entry]) := by
  have edges : admittedEdges limit ((done ++ [entry]).map Prod.fst) =
      admittedEdges limit (done.map Prod.fst) := by
    rw [admittedEdges_concat, out]
    exact List.append_nil _
  have skips : (done ++ [entry]).filterMap (refusal? limit) =
      done.filterMap (refusal? limit) ++ [skip] := by
    rw [List.filterMap_append, List.filterMap_cons_some refused, List.filterMap_nil]
  refine ⟨?_, ?_, ?_, ?_, ?_, ?_, ?_⟩
  · rw [edges]
    exact tracks.builder
  · rw [List.length_append, ← tracks.processed]
    rfl
  · rw [edges]
    exact tracks.indexed
  · rw [edges]
    exact tracks.repeated
  · rw [skips, List.length_append, ← tracks.skipped]
    rfl
  · rw [skips, List.flatMap_append, ← tracks.errors, List.flatMap_singleton]
    rfl
  · rw [skips, ← tracks.skips]
    rfl

theorem Tracks.admit {done : List (Value × Nat)} {assembly : Assembly} {entry : Value × Nat}
    {edge : Edge} (tracks : assembly.Tracks limit done)
    (admitted : admitted? limit entry.1 = some edge) (kept : refusal? limit entry = none)
    (typed : edge.Typed) :
    ∃ new builder, assembly.builder.add edge = (.ok new, builder) ∧
      ({ assembly with builder := builder }.count new).Tracks limit (done ++ [entry]) := by
  have edges : admittedEdges limit ((done ++ [entry]).map Prod.fst) =
      admittedEdges limit (done.map Prod.fst) ++ [edge] := by
    rw [admittedEdges_concat, admitted]
    rfl
  have skips : (done ++ [entry]).filterMap (refusal? limit) = done.filterMap (refusal? limit) := by
    rw [List.filterMap_append, List.filterMap_cons_none kept]
    exact List.append_nil _
  -- what the builder answers depends on the identities it has been fed
  have added := Builder.Holds.addAll_concat (typed_admittedEdges limit (done.map Prod.fst)) typed
  rw [← tracks.builder] at added
  refine ⟨_, _, added, ?_⟩
  refine ⟨?_, ?_, ?_, ?_, ?_, ?_, ?_⟩
  · rw [edges]
    rfl
  · rw [List.length_append, ← tracks.processed]
    rfl
  · rw [edges, Edge.distinct_concat]
    show assembly.summary.indexed + _ = _
    rw [tracks.indexed]
    split
    · rename_i known
      rw [Edge.isNew_of_mem known]
      rfl
    · rename_i new
      rw [Edge.isNew_of_not_mem new, List.length_append]
      rfl
  · rw [edges, List.length_append, ← tracks.repeated]
    have one : ∀ new : Bool, assembly.summary.indexed + new.toNat +
        (assembly.summary.duplicates + (!new).toNat) =
          assembly.summary.indexed + assembly.summary.duplicates + 1 := by
      intro new
      cases new with
      | false => rfl
      | true => exact Nat.add_right_comm _ _ _
    exact one _
  · rw [skips]
    exact tracks.skipped
  · rw [skips]
    exact tracks.errors
  · rw [skips]
    exact tracks.skips

/-- **One more record.** -/
theorem Tracks.takeRecord {done : List (Value × Nat)} {assembly : Assembly} {entry : Value × Nat}
    (tracks : assembly.Tracks limit done) (showable : entry.1.Showable limit) :
    ∃ next, assembly.takeRecord limit entry = .ok next ∧ next.Tracks limit (done ++ [entry]) := by
  rcases takeRecord_cases showable assembly with
    ⟨skip, out, refused, -, taken⟩ | ⟨edge, admitted, kept, typed, taken⟩
  · exact ⟨_, taken, tracks.leave out refused⟩
  · obtain ⟨new, builder, added, next⟩ := tracks.admit admitted kept typed
    exact ⟨_, taken new builder added, next⟩

/-- **Any list of records.** -/
theorem Tracks.foldlM {done entries : List (Value × Nat)} {assembly : Assembly}
    (tracks : assembly.Tracks limit done)
    (showable : ∀ entry ∈ entries, entry.1.Showable limit) :
    ∃ last, entries.foldlM (Assembly.takeRecord limit) assembly = .ok last ∧
      last.Tracks limit (done ++ entries) := by
  induction entries generalizing done assembly with
  | nil =>
    rw [List.append_nil]
    exact ⟨assembly, rfl, tracks⟩
  | cons entry rest ih =>
    obtain ⟨next, taken, nextTracks⟩ := tracks.takeRecord (showable entry List.mem_cons_self)
    obtain ⟨last, run, lastTracks⟩ :=
      ih nextTracks fun other listed => showable other (List.mem_cons_of_mem _ listed)
    rw [List.append_assoc] at lastTracks
    refine ⟨last, ?_, lastTracks⟩
    rw [List.foldlM_cons, taken]
    exact run

end Assembly

/-! ### The whole assembly -/

theorem fst_mem_of_mem_zipIdx {records : List Value} {entry : Value × Nat}
    (listed : entry ∈ records.zipIdx) : entry.1 ∈ records := by
  rw [← List.zipIdx_map_fst 0 records]
  exact List.mem_map_of_mem listed

/-- The assembly of showable records: its index is that of the admitted edges, its summary that of
both fates. -/
theorem exists_assembled {records : List Value}
    (showable : ∀ record ∈ records, record.Showable limit) :
    ∃ assembled, assembleRecords limit records = .ok assembled ∧
      Index.ofEdges (admittedEdges limit records) = .ok assembled.index ∧
      assembled.index.Reflects (Edge.distinct (admittedEdges limit records)) ∧
      assembled.summary.processed = records.length ∧
      assembled.summary.indexed = (Edge.distinct (admittedEdges limit records)).length ∧
      assembled.summary.indexed + assembled.summary.duplicates =
        (admittedEdges limit records).length ∧
      assembled.summary.skipped = (records.zipIdx.filterMap (refusal? limit)).length ∧
      assembled.summary.errors =
        (records.zipIdx.filterMap (refusal? limit)).flatMap Skip.located := by
  obtain ⟨last, run, tracks⟩ := (Assembly.Tracks.start limit).foldlM fun entry listed =>
    showable _ (fst_mem_of_mem_zipIdx listed)
  have firsts : records.zipIdx.map Prod.fst = records := List.zipIdx_map_fst 0 records
  rw [List.nil_append] at tracks
  obtain ⟨builder, processed, indexed, repeated, skipped, errors, -⟩ := tracks
  rw [firsts] at builder indexed repeated
  obtain ⟨made, finished, reflects⟩ := Index.ofEdges_of_typed (typed_admittedEdges limit records)
  refine ⟨⟨_, last.summary, last.skips⟩, ?_, made, reflects, ?_, indexed, repeated, skipped, errors⟩
  · unfold assembleRecords
    rw [run]
    show last.finish = _
    rw [Assembly.finish, builder, finished]
    rfl
  · rw [processed, List.length_zipIdx]

/-- **A record that is not showable ends the assembly**, wherever it stands. -/
theorem assembleRecords_of_not_showable {records : List Value}
    (odd : ∃ record ∈ records, ¬ record.Showable limit) :
    assembleRecords limit records = .error (.misuse .tooLong) := by
  have run : records.zipIdx.foldlM (Assembly.takeRecord limit) .start =
      .error (.misuse .tooLong) := by
    refine Assembly.foldlM_of_bad (fun assembly => ∃ done, assembly.Tracks limit done)
      (fun entry => entry.1.Showable limit) ?_ ?_ ⟨[], .start limit⟩ ?_
    · rintro assembly entry ⟨done, tracks⟩ showable
      obtain ⟨next, taken, nextTracks⟩ := tracks.takeRecord showable
      exact ⟨next, taken, _, nextTracks⟩
    · exact fun assembly entry unshowable =>
        Assembly.takeRecord_of_not_showable unshowable assembly
    · obtain ⟨record, listed, unshowable⟩ := odd
      rw [← List.zipIdx_map_fst 0 records] at listed
      obtain ⟨entry, isEntry, rfl⟩ := List.mem_map.mp listed
      exact ⟨entry, isEntry, unshowable⟩
  unfold assembleRecords
  rw [run]
  rfl

theorem exists_assembled_of_isWritable {records : List Value}
    (writable : ∀ record ∈ records, record.isWritable = true) :
    ∃ assembled, assembleRecords limit records = .ok assembled := by
  obtain ⟨assembled, run, -⟩ :=
    exists_assembled fun record listed => Value.showable_of_isWritable (writable record listed)
  exact ⟨assembled, run⟩

/-- Whatever is assembled has the index of the admitted edges. -/
theorem reflects_of_assembled {records : List Value} {assembled : Assembled}
    (run : assembleRecords limit records = .ok assembled) :
    assembled.index.Reflects (Edge.distinct (admittedEdges limit records)) := by
  by_cases showable : ∀ record ∈ records, record.Showable limit
  · obtain ⟨same, again, -, reflects, -⟩ := exists_assembled showable
    obtain rfl : assembled = same := Except.ok.inj (run.symm.trans again)
    exact reflects
  · push Not at showable
    rw [assembleRecords_of_not_showable showable] at run
    cases run

/-- A payment as an analyzer sends it. -/
def sentPayment (line : Value) : Value :=
  .record
    [("caller", .record [("fully_qualified_name", .text " Shop.Cart.Pay"),
      ("containing_type", .text "Cart")]),
     ("callee", .record [("fully_qualified_name", .text "Shop.Bank.Charge"),
      ("containing_type", .text "Bank")]),
     ("file_path", .text "Cart.cs"), ("line_number", line)]

/-- An edge, no fact at all, the edge again, and a fact without a line. -/
def sentRecords : List Value :=
  [sentPayment (.int 3), .null, sentPayment (.text " 3"), sentPayment (.int 0)]

theorem isWritable_sentRecords : ∀ record ∈ sentRecords, record.isWritable = true := by
  simp only [sentRecords, List.forall_mem_cons]
  decide

end CallGraph
