/-
**Plain values.**

Analyzer records are untyped: a name, a path or a line may be any plain value, and odd ones are
carried along unchanged until a check or an operation meets them. `Value` is that type. `display`
is a value's text in a message and `literal` the same with texts quoted. A value has these texts
only if no number inside it is too long to be written (`isWritable`); whatever shows a value goes
through `shown`, `shownLiteral` or `refusal`, which fail otherwise. `isVoid` holds of the values
that count as nothing given; `atom?` is what a value counts as when it is a key.
-/

import CallGraph.Number.Binary64
import CallGraph.Text.Quoted

namespace CallGraph

/-- A plain value. -/
inductive Value where
  | null
  | bool (b : Bool)
  | int (n : Int)
  | float (x : Binary64)
  | text (s : String)
  | list (items : List Value)
  | record (fields : List (String × Value))

/-- A value of the wrong sort reached an operation. -/
inductive Misuse where
  /-- A text operation met a value that is no text. -/
  | notText
  /-- A list or a record was used as a key. -/
  | notKey
  /-- A symbol without a text as its name was to be shown. -/
  | noName
  /-- A whole number of too many digits was to be written. -/
  | tooLong
  deriving DecidableEq

/-- The wording of a misuse. -/
def Misuse.message : Misuse → String
  | notText => "a text is needed here"
  | notKey => "a list or a record is no key"
  | noName => "the symbol has no name to show"
  | tooLong =>
    "Exceeds the limit (" ++ Text.decimalText Text.maxDigits ++ " digits) for integer string " ++
      "conversion; use sys.set_int_max_str_digits() to increase the limit"

/-- A value as a key. Two values are the same key when they are equal as numbers or as texts. -/
inductive Atom where
  | null
  | int (n : Int)
  | float (x : Binary64)
  | text (s : String)
  deriving DecidableEq, Hashable

namespace Value

/-- The name of a value's sort. -/
def sortName : Value → String
  | .null => "NoneType"
  | .bool _ => "bool"
  | .int _ => "int"
  | .float _ => "float"
  | .text _ => "str"
  | .list _ => "list"
  | .record _ => "dict"

/-- Values that count as nothing given: null, false, zero and whatever is empty. -/
def isVoid : Value → Bool
  | .null => true
  | .bool b => !b
  | .int n => n = 0
  | .float x => x.toInt? = some 0
  | .text s => s.isEmpty
  | .list items => items.isEmpty
  | .record fields => fields.isEmpty

mutual

/-- The value as it is written down: texts are quoted, also inside lists and records. -/
def literal : Value → String
  | .null => "None"
  | .bool b => if b then "True" else "False"
  | .int n => Text.integerText n
  | .float x => x.text
  | .text s => Text.quoted s
  | .list items => "[" ++ ", ".intercalate (literals items) ++ "]"
  | .record fields => "\x7b" ++ ", ".intercalate (fieldLiterals fields) ++ "\x7d"

/-- The values as they are written down. -/
def literals : List Value → List String
  | [] => []
  | item :: rest => literal item :: literals rest

/-- The fields as they are written down, each key with its value. -/
def fieldLiterals : List (String × Value) → List String
  | [] => []
  | (key, value) :: rest => (Text.quoted key ++ ": " ++ literal value) :: fieldLiterals rest

end

/-- The value inside a message: a text as it is, anything else as it is written down. -/
def display : Value → String
  | .text s => s
  | value => value.literal

mutual

/-- Whether every whole number inside the value can be written. -/
def isWritable : Value → Bool
  | .int n => Text.isWritable n
  | .list items => areWritable items
  | .record fields => fieldsAreWritable fields
  | _ => true

/-- Whether all the values can be written. -/
def areWritable : List Value → Bool
  | [] => true
  | item :: rest => isWritable item && areWritable rest

/-- Whether the values of all fields can be written. -/
def fieldsAreWritable : List (String × Value) → Bool
  | [] => true
  | (_, value) :: rest => isWritable value && fieldsAreWritable rest

end

/-- Shows the value as in a message. -/
def shown (value : Value) : Except Misuse String :=
  if value.isWritable then .ok value.display else .error .tooLong

/-- Shows the value as it is written down. -/
def shownLiteral (value : Value) : Except Misuse String :=
  if value.isWritable then .ok value.literal else .error .tooLong

/-- A refusal whose wording shows some values. Where one of them cannot be written, the wording
itself fails and a misuse takes its place. -/
def refusal {ε : Type} (misuse : Misuse → ε) (cause : ε) (shows : List Value) : ε :=
  if areWritable shows then cause else misuse .tooLong

/-- The text that the value is. -/
def asText : Value → Except Misuse String
  | .text s => .ok s
  | _ => .error .notText

/-- Whether the value is the given text. -/
def reads (value : Value) (s : String) : Bool :=
  match value with
  | .text given => given = s
  | _ => false

/-- The name that the value is: a text is one, other keys name nothing. -/
def asName : Value → Except Misuse (Option String)
  | .text s => .ok (some s)
  | .list _ => .error .notKey
  | .record _ => .error .notKey
  | _ => .ok none

/-- What the value counts as when it is a key: a truth value is 0 or 1, a number without fraction
is a whole number, and lists and records are no keys. -/
def atom? : Value → Option Atom
  | .null => some .null
  | .bool b => some (.int (if b then 1 else 0))
  | .int n => some (.int n)
  | .float x => some ((x.toInt?.map Atom.int).getD (.float x))
  | .text s => some (.text s)
  | .list _ => none
  | .record _ => none

/-- The field of a record, null when it is missing. -/
def field (key : String) (fields : List (String × Value)) : Value :=
  (fields.lookup key).getD .null

end Value

end CallGraph
