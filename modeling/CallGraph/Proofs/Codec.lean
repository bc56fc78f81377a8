/-
**Reading undoes writing.**

A symbol is written with all its fields, whatever its kind (`Symbol.encode_eq`), and reading looks
up each of them again: the kind (`kindIn_fieldsWith`), the names (`memberIn_fieldsWith`) and the
targets (`targetsIn_fieldsWith`). One level of a record is therefore read back as soon as its
targets are (`Symbol.decode_encode_of_targets`), and a symbol of any depth by induction on it
(`Symbol.decode_encode`).

* `facts_read_back`: a fact whose line is a whole number is read back from its record, whatever its
  names and its file are; every fact that was read from a record is of this sort, so that writing
  and reading it once more changes neither the fact nor its record.
-/

import CallGraph.Fact

namespace CallGraph

namespace Symbol

/-! ### One level of a record -/

section Fields

variable (kind : DispatchKind) (member : Member) (targets : List Value)

@[simp]
theorem kindIn_fieldsWith : kindIn (fieldsWith kind member targets) = .ok kind := by
  have stated : (fieldsWith kind member targets).lookup "dispatch_kind" = some (.text kind.name) :=
    rfl
  simp [kindIn, stated, DispatchKind.ofValue?_name]

@[simp]
theorem memberIn_fieldsWith : memberIn (fieldsWith kind member targets) = member := rfl

@[simp]
theorem targetsIn_fieldsWith :
    targetsIn (fieldsWith kind member targets) = decodeAll targets := by
  simp [fieldsWith, targetsIn, targetsOf]

/-- The targets of a written symbol are read, and it is made of them again. -/
theorem decode_fieldsWith :
    decode (.record (fieldsWith kind member targets)) =
      (decodeAll targets).bind (make kind member) := by
  rw [decode]
  simp [bind, Except.bind]

end Fields

/-- A symbol is written with its kind, its names and the records of its targets. -/
theorem encode_eq (symbol : Symbol) :
    symbol.encode = .record (fieldsWith symbol.kind symbol.member (encodeAll symbol.targets)) := by
  cases symbol <;> simp [encode, encodeAll, kind, member, targets]

/-- A symbol is read back when its targets are. -/
theorem decode_encode_of_targets {symbol : Symbol}
    (read : decodeAll (encodeAll symbol.targets) = .ok symbol.targets) :
    decode symbol.encode = .ok symbol := by
  rw [encode_eq, decode_fieldsWith, read]
  exact make_self symbol

theorem decodeAll_encodeAll_nil : decodeAll (encodeAll []) = .ok [] := by
  rw [encodeAll, decodeAll]

/-- Symbols are read back one after the other. -/
theorem decodeAll_encodeAll_cons {symbol : Symbol} {rest : List Symbol}
    (first : decode symbol.encode = .ok symbol)
    (later : decodeAll (encodeAll rest) = .ok rest) :
    decodeAll (encodeAll (symbol :: rest)) = .ok (symbol :: rest) := by
  rw [encodeAll, decodeAll, first, later]
  rfl

/-! ### Symbols of any depth -/

mutual

/-- **Every symbol is read back.** -/
theorem decode_encode : ∀ symbol : Symbol, decode symbol.encode = .ok symbol
  | .ordinary _ => decode_encode_of_targets decodeAll_encodeAll_nil
  | .interfaceMember _ => decode_encode_of_targets decodeAll_encodeAll_nil
  | .override _ base =>
    decode_encode_of_targets (decodeAll_encodeAll_cons (decode_encode base) decodeAll_encodeAll_nil)
  | .explicitImpl _ targets => decode_encode_of_targets (decodeAll_encodeAll targets)
  | .reducedExtension _ origin =>
    decode_encode_of_targets
      (decodeAll_encodeAll_cons (decode_encode origin) decodeAll_encodeAll_nil)

/-- And so are lists of symbols. -/
theorem decodeAll_encodeAll : ∀ symbols : List Symbol, decodeAll (encodeAll symbols) = .ok symbols
  | [] => decodeAll_encodeAll_nil
  | symbol :: rest => decodeAll_encodeAll_cons (decode_encode symbol) (decodeAll_encodeAll rest)

end

end Symbol

namespace Fact

/-- What is read as a symbol is not null. -/
theorem symbolOf_of_decode {given : Value} {symbol : Symbol}
    (read : Symbol.decode given = .ok symbol) : symbolOf given = .ok (some symbol) := by
  unfold symbolOf
  split
  · rw [Symbol.decode] at read
    cases read
    intro fields wrong
    cases wrong
  · rw [read]
    rfl

theorem symbolOf_encodeSymbol (symbol : Option Symbol) :
    symbolOf (encodeSymbol symbol) = .ok symbol := by
  cases symbol with
  | none => rfl
  | some symbol => exact symbolOf_of_decode symbol.decode_encode

/-- **A fact with a whole number as its line is read back.** -/
theorem decode_encode {fact : Fact} {n : Int} (line : fact.line = .int n) :
    decode fact.encode = .ok fact := by
  obtain ⟨caller, callee, file, _⟩ := fact
  obtain rfl := line
  show (do
    let caller ← symbolOf (encodeSymbol caller)
    let callee ← symbolOf (encodeSymbol callee)
    let line ← lineOf (.int n)
    return (⟨caller, callee, file, .int line⟩ : Fact)) = _
  rw [symbolOf_encodeSymbol, symbolOf_encodeSymbol]
  rfl

/-- The parts of a fact that is read. -/
theorem decode_eq_ok {record : Value} {fact : Fact} (decoded : decode record = .ok fact) :
    ∃ fields n, record = .record fields ∧
      symbolOf (Value.field "callee" fields) = .ok fact.callee ∧
      fact.file = Value.field "file_path" fields ∧
      lineOf ((fields.lookup "line_number").getD (.int 0)) = .ok n ∧ fact.line = .int n := by
  cases record with
  | record fields =>
    rw [decode] at decoded
    cases caller : symbolOf (Value.field "caller" fields) with
    | error cause => rw [caller] at decoded; cases decoded
    | ok isCaller =>
      cases callee : symbolOf (Value.field "callee" fields) with
      | error cause => rw [caller, callee] at decoded; cases decoded
      | ok isCallee =>
        cases line : lineOf ((fields.lookup "line_number").getD (.int 0)) with
        | error cause => rw [caller, callee, line] at decoded; cases decoded
        | ok n =>
          rw [caller, callee, line] at decoded
          obtain rfl := Except.ok.inj decoded
          exact ⟨fields, n, rfl, callee, rfl, line, rfl⟩
  | _ => cases decoded

end Fact

/-- **Facts are read back from their records.** A fact with symbols of any depth, or none, with any
values as names and file, and with a whole number as its line, is what is read from its record. So
every fact that was read from some record is read again from its own, which is written again as it
stands. -/
theorem facts_read_back :
    (∀ (fact : Fact) (n : Int), fact.line = .int n → Fact.decode fact.encode = .ok fact) ∧
      ∀ (record : Value) (fact : Fact), Fact.decode record = .ok fact →
        Fact.decode fact.encode = .ok fact ∧
          (Fact.decode fact.encode).map Fact.encode = .ok fact.encode := by
  refine ⟨fun fact n line => Fact.decode_encode line, fun record fact read => ?_⟩
  obtain ⟨-, n, -, -, -, -, line⟩ := Fact.decode_eq_ok read
  have again := Fact.decode_encode line
  exact ⟨again, by rw [again]; rfl⟩

/-- A call without a caller. Its callee implements an extension of an override and an interface
member, and is named by no texts. -/
def nestedCall : Fact where
  caller := none
  callee := some
    (.explicitImpl ⟨.null, .list [.int 1, .null], .bool true⟩
      [.reducedExtension ⟨.text "", .null, .record []⟩
        (.override ⟨.int 0, .text "Bank", .text "Shop"⟩
          (.explicitImpl ⟨.record [("targets", .text "x")], .null, .null⟩ [])),
       .interfaceMember ⟨.text "Shop.IBank.Charge", .text "IBank", .text " "⟩])
  file := .list []
  line := .int (-3)

/-- A record without targets and kinds, with its line as a text. -/
def sparseRecord : Value :=
  .record [("line_number", .text " +1_0 "),
    ("callee", .record [("fully_qualified_name", .text "Run"), ("targets", .bool false)])]

theorem nestedCall_read_back :
    Fact.decode nestedCall.encode = .ok nestedCall ∧
      ∃ fact, Fact.decode sparseRecord = .ok fact ∧ fact.encode ≠ sparseRecord ∧
        Fact.decode fact.encode = .ok fact ∧
        (Fact.decode fact.encode).map Fact.encode = .ok fact.encode := by
  refine ⟨facts_read_back.1 nestedCall (-3) rfl, _, rfl, ?_, facts_read_back.2 sparseRecord _ rfl⟩
  simp [Fact.encode, sparseRecord]

end CallGraph
