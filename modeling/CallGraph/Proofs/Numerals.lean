/-
**The texts that are line numbers.**

`Text.Numeral` is their grammar: blanks, at most one sign, and a run of one to 4300 digits of any
script, with single underscores between some of them. A numeral knows how it is written (`text`) and
which whole number it denotes in base ten (`value`).

Reading goes from the outside in, and each layer is read exactly where the grammar has it: the
digits (`Fact.digitRun_eq_some_iff`), the sign (`Fact.signed?_eq_some_iff`) and the blanks
(`Fact.lineOfText?_eq_some_iff`). The last says it of whole texts, and the decimal text of an
integer is one of them (`Text.exists_numeral_integerText`). What a numeral denotes can be written
(`Text.Numeral.isWritable_value`).

* `line_texts_by_grammar`: a record with a numeral for its line is read like the record with the
  number itself, and with any other text for its line it is refused for that.
-/

import CallGraph.Fact
import CallGraph.Proofs.Text.Trim
import CallGraph.Proofs.Writing
import Mathlib.Data.Nat.Digits.Defs

namespace CallGraph

namespace Text

/-! ### The grammar -/

/-- A decimal digit of some script, which has its zero at `origin`. -/
structure Digit where
  char : Char
  origin : Nat
  value : Nat
  isOrigin : origin ∈ zeros
  small : value < 10
  code : char.toNat = origin + value

theorem toNat_of_isDigit {c : Char} (usual : c.isDigit = true) :
    '0'.toNat ≤ c.toNat ∧ c.toNat < '0'.toNat + 10 := by
  obtain ⟨least, most⟩ := Bool.and_eq_true_iff.mp usual
  exact ⟨of_decide_eq_true least, Nat.lt_succ_of_le (of_decide_eq_true most)⟩

/-- A digit in its usual form. -/
def Digit.ofUsual (c : Char) (usual : c.isDigit = true) : Digit where
  char := c
  origin := '0'.toNat
  value := c.toNat - '0'.toNat
  isOrigin := List.mem_cons_self
  small := Nat.sub_lt_left_of_lt_add (toNat_of_isDigit usual).1 (toNat_of_isDigit usual).2
  code := (Nat.add_sub_of_le (toNat_of_isDigit usual).1).symm

/-- One or more digits; two neighbours stand together, or apart with an underscore between. -/
inductive DigitRun where
  | last (digit : Digit)
  | next (digit : Digit) (rest : DigitRun)
  | apart (digit : Digit) (rest : DigitRun)

namespace DigitRun

/-- The digits alone. -/
def digits : DigitRun → List Digit
  | last digit => [digit]
  | next digit rest | apart digit rest => digit :: rest.digits

/-- The run as it is written. -/
def chars : DigitRun → List Char
  | last digit => [digit.char]
  | next digit rest => digit.char :: rest.chars
  | apart digit rest => digit.char :: '_' :: rest.chars

/-- The values of the digits. -/
def values (run : DigitRun) : List Nat := run.digits.map Digit.value

/-- The number that the digits denote in base ten. -/
def value (run : DigitRun) : Nat := Nat.ofDigits 10 run.values.reverse

end DigitRun

/-- The sign before a number, if there is one. -/
inductive Sign where
  | none
  | plus
  | minus

namespace Sign

def chars : Sign → List Char
  | none => []
  | plus => ['+']
  | minus => ['-']

def apply : Sign → Nat → Int
  | none, n | plus, n => n
  | minus, n => -n

end Sign

/-- **The grammar of line numbers.** -/
structure Numeral where
  left : List Char
  sign : Sign
  run : DigitRun
  right : List Char
  leftBlank : ∀ c ∈ left, isBlank c = true
  rightBlank : ∀ c ∈ right, isBlank c = true
  few : run.digits.length ≤ 4300

namespace Numeral

/-- The numeral as it is written. -/
def text (numeral : Numeral) : String :=
  String.ofList
    (numeral.left ++ (numeral.sign.chars ++ numeral.run.chars) ++ numeral.right)

/-- The number that the numeral denotes. -/
def value (numeral : Numeral) : Int := numeral.sign.apply numeral.run.value

end Numeral

/-! ### Digits -/

/-- No two scripts share a digit. -/
theorem zeros_apart : zeros.Pairwise fun lower upper => lower + 10 ≤ upper := by
  decide

/-- No script has a digit among the blanks. -/
theorem zeros_apart_from_blanks :
    ∀ origin ∈ zeros, ∀ range ∈ blanks.ranges, range.2 < origin ∨ origin + 10 ≤ range.1 := by
  decide

/-- A digit is found at its own origin, as no earlier one reaches so far. -/
theorem findSome?_origin {origins : List Nat}
    (apart : origins.Pairwise fun lower upper => lower + 10 ≤ upper) {origin value : Nat}
    (isOrigin : origin ∈ origins) (small : value < 10) :
    (origins.findSome? fun start =>
      if start ≤ origin + value ∧ origin + value < start + 10 then some (origin + value - start)
      else none) = some value := by
  induction origins with
  | nil => exact (List.not_mem_nil isOrigin).elim
  | cons first rest ih =>
    obtain ⟨before, restApart⟩ := List.pairwise_cons.mp apart
    rw [List.findSome?_cons]
    rcases List.mem_cons.mp isOrigin with rfl | later
    · rw [if_pos ⟨Nat.le_add_right _ _, Nat.add_lt_add_left small _⟩, Nat.add_sub_cancel_left]
    · have beyond := before origin later
      rw [if_neg (by omega)]
      exact ih restApart later

theorem Digit.digit?_char (digit : Digit) : digit? digit.char = some digit.value := by
  rw [digit?, digit.code]
  exact findSome?_origin zeros_apart digit.isOrigin digit.small

theorem exists_digit_of_digit? {c : Char} {value : Nat} (read : digit? c = some value) :
    ∃ digit : Digit, digit.char = c ∧ digit.value = value := by
  obtain ⟨origin, isOrigin, found⟩ := List.exists_of_findSome?_eq_some read
  split at found
  · rename_i within
    obtain rfl := Option.some.inj found
    exact ⟨⟨c, origin, c.toNat - origin, isOrigin, by omega, by omega⟩, rfl, rfl⟩
  · cases found

theorem Digit.isBlank_eq (digit : Digit) : isBlank digit.char = false := by
  have code := digit.code
  have small := digit.small
  rw [← Bool.not_eq_true, isBlank, CharClass.has_iff]
  rintro ⟨range, isRange, least, most⟩
  rcases zeros_apart_from_blanks digit.origin digit.isOrigin range isRange with below | above
  · omega
  · omega

theorem Digit.char_ne (digit : Digit) {c : Char} (other : digit? c = none) : digit.char ≠ c := by
  rintro rfl
  rw [digit.digit?_char] at other
  cases other

/-- Digits are read in base ten. -/
theorem ofDigits_eq (values : List Nat) : ofDigits values = Nat.ofDigits 10 values.reverse := by
  rw [ofDigits, List.foldl_eq_foldr_reverse, Nat.ofDigits_eq_foldr]
  simp only [Nat.add_comm, Nat.cast_id]

namespace DigitRun

theorem exists_chars_eq_cons (run : DigitRun) :
    ∃ (digit : Digit) (rest : List Char), run.chars = digit.char :: rest := by
  cases run with
  | last digit => exact ⟨digit, _, rfl⟩
  | next digit rest => exact ⟨digit, _, rfl⟩
  | apart digit rest => exact ⟨digit, _, rfl⟩

theorem exists_chars_eq_concat (run : DigitRun) :
    ∃ (before : List Char) (digit : Digit), run.chars = before ++ [digit.char] := by
  induction run with
  | last digit => exact ⟨[], digit, rfl⟩
  | next digit rest ih =>
    obtain ⟨before, final, ends⟩ := ih
    exact ⟨digit.char :: before, final, by rw [chars, ends]; rfl⟩
  | apart digit rest ih =>
    obtain ⟨before, final, ends⟩ := ih
    exact ⟨digit.char :: '_' :: before, final, by rw [chars, ends]; rfl⟩

/-- Digits of the usual form, one after the other, are a run. -/
theorem exists_of_isDigit {cs : List Char} (some : cs ≠ [])
    (usual : ∀ c ∈ cs, c.isDigit = true) :
    ∃ run : DigitRun, run.chars = cs ∧ run.values = cs.map fun c => c.toNat - '0'.toNat := by
  induction cs with
  | nil => exact absurd rfl some
  | cons c rest ih =>
    let digit := Digit.ofUsual c (usual c List.mem_cons_self)
    cases rest with
    | nil => exact ⟨.last digit, rfl, rfl⟩
    | cons next more =>
      obtain ⟨run, written, values⟩ := ih (List.cons_ne_nil next more) fun other listed =>
        usual other (List.mem_cons_of_mem c listed)
      exact ⟨.next digit run, congrArg (c :: ·) written,
        congrArg ((c.toNat - '0'.toNat) :: ·) values⟩

theorem length_values (run : DigitRun) : run.values.length = run.digits.length :=
  List.length_map Digit.value

/-- A run denotes a number of no more digits than it has. -/
theorem value_lt (run : DigitRun) : run.value < 10 ^ run.digits.length := by
  rw [← run.length_values, ← List.length_reverse]
  refine Nat.ofDigits_lt_base_pow_length (by decide) fun value listed => ?_
  obtain ⟨digit, -, rfl⟩ := List.mem_map.mp (List.mem_reverse.mp listed)
  exact digit.small

end DigitRun

/-- **A number that is read can be written.** -/
theorem Numeral.isWritable_value (numeral : Numeral) : isWritable numeral.value = true := by
  have size : numeral.value.natAbs = numeral.run.value := by
    unfold Numeral.value
    cases numeral.sign with
    | none => exact Int.natAbs_natCast _
    | plus => exact Int.natAbs_natCast _
    | minus => exact (Int.natAbs_neg _).trans (Int.natAbs_natCast _)
  rw [isWritable_iff, size]
  exact Nat.lt_of_lt_of_le numeral.run.value_lt (Nat.pow_le_pow_right (by decide) numeral.few)

/-- Between its blanks a numeral has none at its ends. -/
theorem Numeral.bare (numeral : Numeral) :
    Bare isBlank (numeral.sign.chars ++ numeral.run.chars) := by
  refine ⟨fun c first => ?_, fun c last => ?_⟩
  · cases sign : numeral.sign with
    | none =>
      obtain ⟨digit, rest, starts⟩ := numeral.run.exists_chars_eq_cons
      rw [sign, starts] at first
      obtain rfl : digit.char = c := Option.some.inj first
      exact digit.isBlank_eq
    | plus =>
      rw [sign] at first
      obtain rfl : '+' = c := Option.some.inj first
      decide
    | minus =>
      rw [sign] at first
      obtain rfl : '-' = c := Option.some.inj first
      decide
  · obtain ⟨before, digit, ends⟩ := numeral.run.exists_chars_eq_concat
    rw [ends, ← List.append_assoc, List.getLast?_concat] at last
    obtain rfl : digit.char = c := Option.some.inj last
    exact digit.isBlank_eq

/-- The digits of a number are a run that denotes it. -/
theorem exists_run_toDigits (n : Nat) :
    ∃ run : DigitRun, run.chars = Nat.toDigits 10 n ∧ run.value = n ∧
      run.digits.length = (Nat.toDigits 10 n).length := by
  obtain ⟨run, written, values⟩ := DigitRun.exists_of_isDigit Nat.toDigits_ne_nil
    fun c listed => Nat.isDigit_of_mem_toDigits (n := n) (b := 10) (by decide) (by decide) listed
  refine ⟨run, written, ?_, ?_⟩
  · rw [DigitRun.value, ← ofDigits_eq, values, ofDigits, List.foldl_map]
    exact Nat.ofDigitChars_ten_toDigits
  · rw [← run.length_values, values, List.length_map]

/-- **The decimal text of an integer** of at most 4300 digits is a numeral. -/
theorem exists_numeral_integerText {n : Int} (few : (Nat.toDigits 10 n.natAbs).length ≤ 4300) :
    ∃ numeral : Numeral, numeral.text = integerText n ∧ numeral.value = n := by
  obtain ⟨run, written, value, length⟩ := exists_run_toDigits n.natAbs
  have most : run.digits.length ≤ 4300 := length.trans_le few
  have noBlank : ∀ c ∈ ([] : List Char), isBlank c = true := fun c listed =>
    (List.not_mem_nil listed).elim
  unfold integerText decimalText
  by_cases negative : n < 0
  · refine ⟨⟨[], .minus, run, [], noBlank, noBlank, most⟩, ?_, ?_⟩
    · rw [if_pos negative, ← written]
      show String.ofList (['-'] ++ run.chars ++ []) = _
      rw [List.append_nil, String.ofList_append]
    · show -(run.value : Int) = n
      omega
  · refine ⟨⟨[], .none, run, [], noBlank, noBlank, most⟩, ?_, ?_⟩
    · rw [if_neg negative, ← written]
      show String.ofList (run.chars ++ []) = _
      rw [List.append_nil]
    · show (run.value : Int) = n
      omega

end Text

namespace Fact

open Text

/-! ### Reading numerals -/

section Runs

variable {c : Char} {value : Nat} (isDigit : digit? c = some value)

include isDigit

theorem digitRun_last : digitRun [c] = some [value] := by
  rw [digitRun, isDigit]
  rfl

theorem digitRun_apart (more : List Char) :
    digitRun (c :: '_' :: more) = (digitRun more).map (value :: ·) := by
  rw [digitRun, isDigit, Option.map_eq_bind]
  rfl

theorem digitRun_next {next : Char} (together : next ≠ '_') (more : List Char) :
    digitRun (c :: next :: more) = (digitRun (next :: more)).map (value :: ·) := by
  rw [digitRun, isDigit, Option.map_eq_bind]
  dsimp only [Option.bind_eq_bind, Option.bind_some]
  split
  · rename_i none
    cases none
  · rename_i first
    exact absurd (List.cons.inj first).1 together
  · rename_i first
    obtain ⟨rfl, rfl⟩ := List.cons.inj first
    rfl

end Runs

theorem digitRun_chars (run : DigitRun) : digitRun run.chars = some run.values := by
  induction run with
  | last digit => exact digitRun_last digit.digit?_char
  | next digit rest ih =>
    obtain ⟨second, more, starts⟩ := rest.exists_chars_eq_cons
    have together : second.char ≠ '_' := second.char_ne (by decide)
    rw [starts] at ih
    rw [DigitRun.chars, starts, digitRun_next digit.digit?_char together, ih]
    rfl
  | apart digit rest ih =>
    rw [DigitRun.chars, digitRun_apart digit.digit?_char, ih]
    rfl

/-- **A run of digits is read** exactly where the grammar has one. -/
theorem digitRun_eq_some_iff {cs : List Char} {values : List Nat} :
    digitRun cs = some values ↔ ∃ run : DigitRun, run.chars = cs ∧ run.values = values := by
  constructor
  · intro read
    induction cs using digitRun.induct generalizing values with
    | case1 => cases read
    | case2 c rest ih =>
      cases isDigit : digit? c with
      | none => rw [digitRun, isDigit] at read; cases read
      | some value =>
        obtain ⟨digit, rfl, rfl⟩ := exists_digit_of_digit? isDigit
        split at ih
        · rw [digitRun_last isDigit] at read
          exact ⟨.last digit, rfl, Option.some.inj read⟩
        · rw [digitRun_apart isDigit] at read
          obtain ⟨later, readLater, rfl⟩ := Option.map_eq_some_iff.mp read
          obtain ⟨run, rfl, rfl⟩ := ih readLater
          exact ⟨.apart digit run, rfl, rfl⟩
        · rename_i together
          rw [digitRun_next isDigit together] at read
          obtain ⟨later, readLater, rfl⟩ := Option.map_eq_some_iff.mp read
          obtain ⟨run, written, rfl⟩ := ih readLater
          exact ⟨.next digit run, congrArg (digit.char :: ·) written, rfl⟩
  · rintro ⟨run, rfl, rfl⟩
    exact digitRun_chars run

theorem unsigned?_eq_some_iff {cs : List Char} {n : Nat} :
    unsigned? cs = some n ↔
      ∃ run : DigitRun, run.chars = cs ∧ run.digits.length ≤ 4300 ∧ run.value = n := by
  unfold unsigned?
  constructor
  · intro read
    obtain ⟨values, digits, bounded⟩ := Option.bind_eq_some_iff.mp read
    obtain ⟨run, written, rfl⟩ := digitRun_eq_some_iff.mp digits
    split at bounded
    · rename_i few
      rw [run.length_values] at few
      rw [ofDigits_eq] at bounded
      exact ⟨run, written, few, Option.some.inj bounded⟩
    · cases bounded
  · rintro ⟨run, rfl, few, rfl⟩
    rw [digitRun_chars]
    show (if run.values.length ≤ 4300 then some (ofDigits run.values) else none) = _
    rw [run.length_values, if_pos few, ofDigits_eq]
    rfl

/-- A number that starts with a digit has no sign. -/
theorem signed?_of_digit (digit : Digit) (rest : List Char) :
    signed? (digit.char :: rest) = (unsigned? (digit.char :: rest)).map Int.ofNat := by
  unfold signed?
  split
  · rename_i first
    exact absurd (List.cons.inj first).1 (digit.char_ne (by decide))
  · rename_i first
    exact absurd (List.cons.inj first).1 (digit.char_ne (by decide))
  · rfl

/-- What follows a sign is read as an unsigned number. -/
theorem map_unsigned?_eq_some_iff (sign : Sign) {cs : List Char} {n : Int} :
    (unsigned? cs).map sign.apply = some n ↔
      ∃ run : DigitRun, run.chars = cs ∧ run.digits.length ≤ 4300 ∧ sign.apply run.value = n := by
  rw [Option.map_eq_some_iff]
  constructor
  · rintro ⟨size, read, rfl⟩
    obtain ⟨run, written, few, rfl⟩ := unsigned?_eq_some_iff.mp read
    exact ⟨run, written, few, rfl⟩
  · rintro ⟨run, written, few, rfl⟩
    exact ⟨run.value, unsigned?_eq_some_iff.mpr ⟨run, written, few, rfl⟩, rfl⟩

theorem signed?_eq_some_iff {cs : List Char} {n : Int} :
    signed? cs = some n ↔
      ∃ (sign : Sign) (run : DigitRun), sign.chars ++ run.chars = cs ∧
        run.digits.length ≤ 4300 ∧ sign.apply run.value = n := by
  constructor
  · intro read
    unfold signed? at read
    split at read
    · obtain ⟨run, rfl, value⟩ := (map_unsigned?_eq_some_iff .plus).mp read
      exact ⟨.plus, run, rfl, value⟩
    · obtain ⟨run, rfl, value⟩ := (map_unsigned?_eq_some_iff .minus).mp read
      exact ⟨.minus, run, rfl, value⟩
    · obtain ⟨run, rfl, value⟩ := (map_unsigned?_eq_some_iff .none).mp read
      exact ⟨.none, run, rfl, value⟩
  · rintro ⟨sign, run, rfl, value⟩
    have read := (map_unsigned?_eq_some_iff sign).mpr ⟨run, rfl, value⟩
    cases sign with
    | none =>
      obtain ⟨digit, rest, starts⟩ := run.exists_chars_eq_cons
      show signed? run.chars = _
      rw [starts] at read ⊢
      rw [signed?_of_digit]
      exact read
    | plus => exact read
    | minus => exact read

/-- **A text is read as a line number** exactly when it is a numeral, and as what that denotes. -/
theorem lineOfText?_eq_some_iff {s : String} {n : Int} :
    lineOfText? s = some n ↔ ∃ numeral : Numeral, numeral.text = s ∧ numeral.value = n := by
  unfold lineOfText?
  constructor
  · intro read
    obtain ⟨sign, run, written, few, value⟩ := signed?_eq_some_iff.mp read
    obtain ⟨left, right, leftBlank, rightBlank, whole⟩ := exists_padding isBlank s.toList
    refine ⟨⟨left, sign, run, right, leftBlank, rightBlank, few⟩, ?_, value⟩
    rw [Numeral.text, written, whole, String.ofList_toList]
  · rintro ⟨numeral, rfl, rfl⟩
    rw [Numeral.text, String.toList_ofList,
      stripWhere_padded numeral.bare numeral.leftBlank numeral.rightBlank]
    exact signed?_eq_some_iff.mpr ⟨numeral.sign, numeral.run, rfl, numeral.few, rfl⟩

theorem lineOfText?_eq_none_iff {s : String} :
    lineOfText? s = none ↔ ∀ numeral : Numeral, numeral.text ≠ s := by
  rw [Option.eq_none_iff_forall_ne_some]
  constructor
  · intro unread numeral written
    exact unread numeral.value (lineOfText?_eq_some_iff.mpr ⟨numeral, written, rfl⟩)
  · intro other n read
    obtain ⟨numeral, written, -⟩ := lineOfText?_eq_some_iff.mp read
    exact other numeral written

theorem lineOf_numeral (numeral : Numeral) : lineOf (.text numeral.text) = .ok numeral.value := by
  rw [lineOf, lineOfText?_eq_some_iff.mpr ⟨numeral, rfl, rfl⟩]

theorem lineOf_of_no_numeral {s : String} (other : ∀ numeral : Numeral, numeral.text ≠ s) :
    lineOf (.text s) = .error (.badLine (.text s)) := by
  rw [lineOf, lineOfText?_eq_none_iff.mpr other]
  refine congrArg Except.error (Value.refusal_of_writable ?_)
  rw [Value.areWritable_iff]
  exact List.forall_mem_singleton.mpr (Value.isWritable_text s)

/-- The line of a value that can be written can be written. -/
theorem isWritable_of_lineOf {given : Value} {n : Int} (writable : given.isWritable = true)
    (read : lineOf given = .ok n) : Text.isWritable n = true := by
  cases given with
  | int m =>
    obtain rfl := Except.ok.inj read
    rwa [Value.isWritable_int] at writable
  | text s =>
    rw [lineOf] at read
    split at read
    · rename_i m isLine
      obtain ⟨numeral, -, rfl⟩ := lineOfText?_eq_some_iff.mp isLine
      exact Except.ok.inj read ▸ numeral.isWritable_value
    · cases read
  | _ => cases read

/-! ### Records with another line -/

/-- Two records that state the same, apart from their lines. -/
def AlikeButForLine (fields others : List (String × Value)) : Prop :=
  ∀ key, key ≠ "line_number" → fields.lookup key = others.lookup key

section Relined

variable {fields others : List (String × Value)} (alike : AlikeButForLine fields others)

include alike

theorem decode_of_alike :
    decode (.record fields) = do
      let caller ← symbolOf (Value.field "caller" others)
      let callee ← symbolOf (Value.field "callee" others)
      let line ← lineOf ((fields.lookup "line_number").getD (.int 0))
      return ⟨caller, callee, Value.field "file_path" others, .int line⟩ := by
  have field : ∀ key, key ≠ "line_number" → Value.field key fields = Value.field key others :=
    fun key other => congrArg (Option.getD · Value.null) (alike key other)
  rw [decode, field "caller" (by decide), field "callee" (by decide), field "file_path" (by decide)]

/-- Records whose lines are read alike are read alike. -/
theorem decode_congr
    (lines : lineOf ((fields.lookup "line_number").getD (.int 0)) =
      lineOf ((others.lookup "line_number").getD (.int 0))) :
    decode (.record fields) = decode (.record others) := by
  rw [decode_of_alike alike, lines, decode]

/-- Where one record is read, all that hangs on the line of the other is its line. -/
theorem decode_relined {fact : Fact} (read : decode (.record others) = .ok fact) :
    decode (.record fields) =
      (lineOf ((fields.lookup "line_number").getD (.int 0))).map fun n =>
        { fact with line := .int n } := by
  rw [decode_of_alike alike]
  rw [decode] at read
  cases isCaller : symbolOf (Value.field "caller" others) with
  | error cause => rw [isCaller] at read; cases read
  | ok caller =>
    cases isCallee : symbolOf (Value.field "callee" others) with
    | error cause => rw [isCaller, isCallee] at read; cases read
    | ok callee =>
      cases isLine : lineOf ((others.lookup "line_number").getD (.int 0)) with
      | error cause => rw [isCaller, isCallee, isLine] at read; cases read
      | ok n =>
        rw [isCaller, isCallee, isLine] at read
        obtain rfl := Except.ok.inj read
        cases lineOf ((fields.lookup "line_number").getD (.int 0)) with
        | error cause => rfl
        | ok line => rfl

end Relined

end Fact

/-- **Lines are read by the grammar of numerals.** A record with a numeral for its line is read, or
refused, like the record with the number that it denotes, and so is one with the decimal text of an
integer of at most 4300 digits. Where a record is read with some line, it is read with any numeral
in its place, and with any other text it is refused for its line. -/
theorem line_texts_by_grammar {fields others : List (String × Value)}
    (alike : Fact.AlikeButForLine fields others) :
    (∀ numeral : Text.Numeral,
      fields.lookup "line_number" = some (.text numeral.text) →
      others.lookup "line_number" = some (.int numeral.value) →
        Fact.decode (.record fields) = Fact.decode (.record others)) ∧
    (∀ n : Int, (Nat.toDigits 10 n.natAbs).length ≤ 4300 →
      fields.lookup "line_number" = some (.text (Text.integerText n)) →
      others.lookup "line_number" = some (.int n) →
        Fact.decode (.record fields) = Fact.decode (.record others)) ∧
    ∀ fact, Fact.decode (.record others) = .ok fact →
      (∀ numeral : Text.Numeral, fields.lookup "line_number" = some (.text numeral.text) →
        Fact.decode (.record fields) = .ok { fact with line := .int numeral.value }) ∧
      ∀ s, (∀ numeral : Text.Numeral, numeral.text ≠ s) →
        fields.lookup "line_number" = some (.text s) →
          Fact.decode (.record fields) = .error (.badLine (.text s)) := by
  have same : ∀ numeral : Text.Numeral,
      fields.lookup "line_number" = some (.text numeral.text) →
      others.lookup "line_number" = some (.int numeral.value) →
        Fact.decode (.record fields) = Fact.decode (.record others) := by
    intro numeral line number
    apply Fact.decode_congr alike
    rw [line, number]
    exact Fact.lineOf_numeral numeral
  refine ⟨same, ?_, fun fact read => ⟨?_, ?_⟩⟩
  · intro n few line number
    obtain ⟨numeral, written, rfl⟩ := Text.exists_numeral_integerText few
    rw [← written] at line
    exact same numeral line number
  · intro numeral line
    rw [Fact.decode_relined alike read, line]
    show (Fact.lineOf (.text numeral.text)).map _ = _
    rw [Fact.lineOf_numeral]
    rfl
  · intro s other line
    rw [Fact.decode_relined alike read, line]
    show (Fact.lineOf (.text s)).map _ = _
    rw [Fact.lineOf_of_no_numeral other]
    rfl

/-- A call of a method without a caller, at some line. -/
def paymentAt (line : Value) : List (String × Value) :=
  [("callee", .record [("fully_qualified_name", .text "Shop.Bank.Charge")]), ("line_number", line),
    ("file_path", .text "Shop.cs")]

/-- Minus twelve between blanks, with a leading zero and digits of two scripts. -/
def paddedTwelve : Text.Numeral where
  left := [' ']
  sign := .minus
  run :=
    .apart ⟨'0', 0x30, 0, by decide, by decide, by decide⟩
      (.next ⟨'1', 0x30, 1, by decide, by decide, by decide⟩
        (.last ⟨'٢', 0x660, 2, by decide, by decide, by decide⟩))
  right := ['\t']
  leftBlank := List.forall_mem_singleton.mpr (by decide)
  rightBlank := List.forall_mem_singleton.mpr (by decide)
  few := by decide

theorem alikeButForLine_paymentAt (line other : Value) :
    Fact.AlikeButForLine (paymentAt line) (paymentAt other) := by
  intro key differs
  have skipped : (key == "line_number") = false := beq_eq_false_iff_ne.mpr differs
  simp only [paymentAt, List.lookup_cons, skipped]

theorem payment_lines_by_grammar :
    Fact.decode (.record (paymentAt (.text " -0_1٢\t"))) =
        Fact.decode (.record (paymentAt (.int (-12)))) ∧
      Fact.decode (.record (paymentAt (.text "-12"))) =
        Fact.decode (.record (paymentAt (.int (-12)))) ∧
      ∃ fact, Fact.decode (.record (paymentAt (.int 0))) = .ok fact ∧
        Fact.decode (.record (paymentAt (.text " -0_1٢\t"))) =
          .ok { fact with line := .int (-12) } ∧
        Fact.decode (.record (paymentAt (.text "1__2"))) = .error (.badLine (.text "1__2")) := by
  have alike := alikeButForLine_paymentAt
  refine ⟨?_, ?_, _, rfl, ?_, ?_⟩
  · exact (line_texts_by_grammar (alike _ _)).1 paddedTwelve rfl rfl
  · exact (line_texts_by_grammar (alike _ _)).2.1 (-12) (by decide) rfl rfl
  · exact ((line_texts_by_grammar (alike _ (.int 0))).2.2 _ rfl).1 paddedTwelve rfl
  · have other : ∀ numeral : Text.Numeral, numeral.text ≠ "1__2" :=
      Fact.lineOfText?_eq_none_iff.mp rfl
    exact ((line_texts_by_grammar (alike _ (.int 0))).2.2 _ rfl).2 "1__2" other rfl

end CallGraph
