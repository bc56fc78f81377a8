/-
**Reading the value of a setting.**

Settings come as plain values or as texts. A whole number may be given as a text in decimal, with
leading zeros, single underscores between digits and a fraction of zeros, or as a number without
fraction; a number may be given as a text in decimal or scientific notation, or by the names of the
infinities and of the undefined number.
-/

import CallGraph.Settings.Fault
import CallGraph.Text.Blank
import CallGraph.Value

namespace CallGraph.Settings

/-! ### Whole numbers -/

/-- Splits a sign off; tells whether it is a minus. -/
def splitSign : List Char → Bool × List Char
  | '-' :: rest => (true, rest)
  | '+' :: rest => (false, rest)
  | cs => (false, cs)

/-- What follows leading zeros and the underscores among them, the last of which is given and stays
where nothing or a point follows. A digit or a minus may follow. -/
def afterZeros (last : Char) : List Char → Option (List Char)
  | [] => some [last]
  | c :: rest =>
    if c = '0' ∨ c = '_' then afterZeros c rest
    else if c = '.' then some (last :: c :: rest)
    else if c = '-' ∨ c.isDigit then some (c :: rest)
    else none

/-- A text that starts with a digit, without its leading zeros. -/
def withoutZeros? : List Char → Option (List Char)
  | [] => none
  | c :: rest =>
    if c = '0' then afterZeros c rest
    else if c.isDigit then some (c :: rest)
    else none

/-- A text without a fraction of zeros at its end. -/
def withoutFraction (cs : List Char) : List Char :=
  match cs.dropWhile (· ≠ '.') with
  | [] => cs
  | _ :: zeros =>
    if !zeros.isEmpty && zeros.all (· = '0') then cs.takeWhile (· ≠ '.') else cs

/-- Whether underscores stand in a text singly and not at its end. -/
def hasInnerUnderscores : List Char → Bool
  | [] => true
  | ['_'] => false
  | '_' :: '_' :: _ => false
  | _ :: rest => hasInnerUnderscores rest

/-- A text without underscores, if these stand in it singly and not at its ends. -/
def withoutUnderscores (cs : List Char) : List Char :=
  if cs.head? ≠ some '_' ∧ hasInnerUnderscores cs then cs.filter (· ≠ '_') else cs

/-- The value of a digit from 0 to 9. -/
def digitValue (c : Char) : Nat := c.toNat - '0'.toNat

/-- The number that digits denote. -/
def ofPlainDigits (cs : List Char) : Nat := Text.ofDigits (cs.map digitValue)

/-- The most digits that a whole number is read from. -/
def maxDigits : Nat := 4300

/-- Reads an optional minus and digits without a leading zero. -/
def plainInteger (cs : List Char) : Except Flaw Int :=
  let negative := cs.head? = some '-'
  let unsigned := if negative then cs.drop 1 else cs
  let digits := unsigned.takeWhile Char.isDigit
  let size : Int := ofPlainDigits digits
  if digits.isEmpty ∨ (digits.head? = some '0' ∧ 1 < digits.length) then
    .error .notIntegerText
  else if maxDigits < digits.length then
    .error .oversized
  else if digits.length < unsigned.length then
    .error .notIntegerText
  else
    .ok (if negative then -size else size)

/-- The plain form of a text: padding, a sign, leading zeros, a fraction of zeros and underscores
are taken off, in this order, and a minus is put back. -/
def plainForm? (s : String) : Option (List Char) :=
  let (negative, unsigned) := splitSign (Text.trimSpaces s).toList
  (withoutZeros? unsigned).map fun cs =>
    let plain := withoutUnderscores (withoutFraction cs)
    if negative then '-' :: plain else plain

/-- Reads a whole number from a text, as it stands or else in its plain form. Only a text that is
too long as it stands is told so. -/
def integerOfText (s : String) : Except Flaw Int :=
  match plainInteger s.toList with
  | .error .notIntegerText =>
    match (plainForm? s).map plainInteger with
    | some (.ok n) => .ok n
    | _ => .error .notIntegerText
  | result => result

/-- A number without fraction is read as a whole one only below this size. -/
def maxRounded : Int := 9223372036854775808

/-- Reads a whole number. -/
def readInteger : Value → Except Flaw Int
  | .int n => .ok n
  | .bool b => .ok (if b then 1 else 0)
  | .float x =>
    match x.toInt?, x.toRat? with
    | some n, _ => if -maxRounded < n ∧ n < maxRounded then .ok n else .error .oversized
    | none, some _ => .error .fraction
    | none, none => .error .infinite
  | .text s => integerOfText s
  | _ => .error .notInteger

/-! ### Numbers -/

/-- The exponent after the mark of a decimal: nothing, or the mark, a sign and digits. -/
def exponentOf? : List Char → Option Int
  | [] => some 0
  | mark :: rest =>
    let (negative, digits) := splitSign rest
    if mark.toLower = 'e' && !digits.isEmpty && digits.all Char.isDigit then
      let size : Int := ofPlainDigits digits
      some (if negative then -size else size)
    else
      none

/-- The number that an unsigned decimal denotes: digits with or without a point, then an
exponent. -/
def decimalOf? (negative : Bool) (cs : List Char) : Option Binary64 := do
  let whole := cs.takeWhile Char.isDigit
  let afterWhole := cs.drop whole.length
  let (fraction, afterFraction) :=
    match afterWhole with
    | '.' :: rest => (rest.takeWhile Char.isDigit, rest.dropWhile Char.isDigit)
    | rest => ([], rest)
  let exponent ← exponentOf? afterFraction
  if whole.isEmpty && fraction.isEmpty then
    none
  else
    some (.ofDecimal negative (ofPlainDigits (whole ++ fraction)) (exponent - fraction.length))

/-- The number that a text denotes as it stands. -/
def numberOf? (cs : List Char) : Option Binary64 :=
  let (negative, unsigned) := splitSign cs
  let name := String.ofList (unsigned.map Char.toLower)
  if name = "inf" ∨ name = "infinity" then some (.infinite negative)
  else if name = "nan" then some .nan
  else decimalOf? negative unsigned

/-- The number that a text denotes: with the space around it taken off, or else with the
underscores inside it taken out. -/
def numberOfText? (s : String) : Option Binary64 :=
  match numberOf? (Text.trimSpaces s).toList with
  | some x => some x
  | none => numberOf? (withoutUnderscores s.toList)

/-- The nearest floating-point number to a whole one, if there is a finite one. -/
def finiteOfInt (n : Int) : Except Flaw Binary64 :=
  match Binary64.ofInt n with
  | .finite negative mantissa exponent => .ok (.finite negative mantissa exponent)
  | _ => .error .notNumber

/-- Reads a number. -/
def readNumber : Value → Except Flaw Binary64
  | .float x => .ok x
  | .int n => finiteOfInt n
  | .bool b => finiteOfInt (if b then 1 else 0)
  | .text s =>
    match numberOfText? s with
    | some x => .ok x
    | none => .error .notNumberText
  | _ => .error .notNumber

/-! ### Texts and absent values -/

/-- Reads a text. -/
def readText : Value → Except Flaw String
  | .text s => .ok s
  | _ => .error .notText

/-- Reads a value that may be null. -/
def readOptional {α : Type} (read : Value → Except Flaw α) : Value → Except Flaw (Option α)
  | .null => .ok none
  | given => (read given).map some

end CallGraph.Settings
