/-
**Symbols**: methods as an analyzer describes them, with the way a call to them is dispatched.

An override points at its base declaration and a reduced extension at its static origin; an explicit
implementation lists the interface members it implements; ordinary methods and interface members
point nowhere. `Symbol.make` builds a symbol from its kind and targets and refuses any other number
of targets; `Symbol.named` reads type and namespace off a full name. `Symbol.decode` reads a symbol
from a record and `Symbol.encode` writes it as one.
-/

import CallGraph.Member

namespace CallGraph

/-- How a call to a symbol is dispatched. -/
inductive DispatchKind where
  | ordinary
  | interfaceMember
  | override
  | explicitImpl
  | reducedExtension
  deriving DecidableEq

namespace DispatchKind

/-- The name of a kind in records. -/
def name : DispatchKind → String
  | ordinary => "ordinary"
  | interfaceMember => "interface_member"
  | override => "override"
  | explicitImpl => "explicit_interface_impl"
  | reducedExtension => "extension_reduced"

/-- All kinds. -/
def all : List DispatchKind :=
  [ordinary, interfaceMember, override, explicitImpl, reducedExtension]

/-- The kind with the given name. -/
def ofValue? : Value → Option DispatchKind
  | .text s => all.find? fun kind => kind.name = s
  | _ => none

/-- Kinds that point at exactly one target. -/
def isChained : DispatchKind → Bool
  | override | reducedExtension => true
  | _ => false

/-- Kinds whose symbols are called as they stand. -/
def isCanonical : DispatchKind → Bool
  | ordinary | interfaceMember => true
  | _ => false

/-- What is said of a value that names no kind. -/
def unknownMessage (given : Value) : Except Misuse String :=
  given.shownLiteral.map (· ++ " is not a valid DispatchKind")

theorem ofValue?_name (kind : DispatchKind) : ofValue? (.text kind.name) = some kind := by
  cases kind <;> decide

end DispatchKind

/-- A method-like entity and where its calls are dispatched to. -/
inductive Symbol where
  | ordinary (member : Member)
  | interfaceMember (member : Member)
  | override (member : Member) (base : Symbol)
  | explicitImpl (member : Member) (targets : List Symbol)
  | reducedExtension (member : Member) (origin : Symbol)

/-- Why a symbol cannot be read or made. -/
inductive SymbolError where
  | notRecord (given : Value)
  | unknownKind (given : Value)
  | needsOneTarget (kind : DispatchKind) (name : Value) (count : Nat)
  | takesNoTarget (kind : DispatchKind) (name : Value)
  | targetsNotListed (given : Value)
  | misuse (cause : Misuse)

/-- The wording of a symbol error. -/
def SymbolError.message : SymbolError → String
  | notRecord given => "Symbol descriptor must be a mapping, got " ++ given.sortName
  | unknownKind given => "Unknown dispatch kind: " ++ given.display
  | needsOneTarget kind name count =>
    kind.name ++ " symbol " ++ name.literal ++ " requires exactly one target, got " ++
      Text.decimalText count
  | takesNoTarget kind name =>
    kind.name ++ " symbol " ++ name.literal ++ " cannot carry resolution targets"
  | targetsNotListed given => "'" ++ given.sortName ++ "' object is not iterable"
  | misuse cause => cause.message

/-- The values that the wording of a symbol error shows. -/
def SymbolError.shows : SymbolError → List Value
  | unknownKind given => [given]
  | needsOneTarget _ name _ => [name]
  | takesNoTarget _ name => [name]
  | notRecord _ | targetsNotListed _ | misuse _ => []

/-- Raises a symbol error. -/
def SymbolError.raised (cause : SymbolError) : SymbolError :=
  Value.refusal SymbolError.misuse cause cause.shows

namespace Symbol

/-- The kind of a symbol. -/
def kind : Symbol → DispatchKind
  | .ordinary _ => .ordinary
  | .interfaceMember _ => .interfaceMember
  | .override _ _ => .override
  | .explicitImpl _ _ => .explicitImpl
  | .reducedExtension _ _ => .reducedExtension

/-- The names of a symbol. -/
def member : Symbol → Member
  | .ordinary member => member
  | .interfaceMember member => member
  | .override member _ => member
  | .explicitImpl member _ => member
  | .reducedExtension member _ => member

/-- The symbols that a symbol points at, in order. -/
def targets : Symbol → List Symbol
  | .ordinary _ => []
  | .interfaceMember _ => []
  | .override _ base => [base]
  | .explicitImpl _ targets => targets
  | .reducedExtension _ origin => [origin]

/-- The same symbol under other names. -/
def withMember (member : Member) : Symbol → Symbol
  | .ordinary _ => .ordinary member
  | .interfaceMember _ => .interfaceMember member
  | .override _ base => .override member base
  | .explicitImpl _ targets => .explicitImpl member targets
  | .reducedExtension _ origin => .reducedExtension member origin

/-- The declaration that an override replaces. -/
def base? : Symbol → Option Symbol
  | .override _ base => some base
  | _ => none

/-- The static method that a reduced extension comes from. -/
def origin? : Symbol → Option Symbol
  | .reducedExtension _ origin => some origin
  | _ => none

/-- The name that a symbol is shown by. -/
def shown (symbol : Symbol) : Except Misuse String :=
  match symbol.member.name with
  | .text s => .ok s
  | _ => .error .noName

/-- The symbol of a kind with the given targets. -/
def make (kind : DispatchKind) (member : Member) (targets : List Symbol) :
    Except SymbolError Symbol :=
  match kind, targets with
  | .ordinary, [] => .ok (.ordinary member)
  | .interfaceMember, [] => .ok (.interfaceMember member)
  | .override, [base] => .ok (.override member base)
  | .reducedExtension, [origin] => .ok (.reducedExtension member origin)
  | .explicitImpl, targets => .ok (.explicitImpl member targets)
  | .ordinary, _ | .interfaceMember, _ =>
    .error (SymbolError.takesNoTarget kind member.name).raised
  | .override, _ | .reducedExtension, _ =>
    .error (SymbolError.needsOneTarget kind member.name targets.length).raised

/-- A symbol is what is made of its kind, names and targets. -/
theorem make_self (symbol : Symbol) :
    make symbol.kind symbol.member symbol.targets = .ok symbol := by
  cases symbol <;> rfl

/-! ### Symbols by full names -/

/-- The symbol of a kind under a full name. -/
def named (kind : DispatchKind) (name : String) (targets : List Symbol) :
    Except SymbolError Symbol :=
  make kind (Member.ofName name) targets

/-- An ordinary method under a full name. -/
def namedOrdinary (name : String) : Except SymbolError Symbol := named .ordinary name []

/-- An interface member under a full name. -/
def namedInterfaceMember (name : String) : Except SymbolError Symbol :=
  named .interfaceMember name []

/-- An override of a base under a full name. -/
def namedOverride (name : String) (base : Symbol) : Except SymbolError Symbol :=
  named .override name [base]

/-- An explicit implementation of some interface members under a full name. -/
def namedExplicitImpl (name : String) (targets : List Symbol) : Except SymbolError Symbol :=
  named .explicitImpl name targets

/-- A reduced extension of an origin under a full name. -/
def namedReducedExtension (name : String) (origin : Symbol) : Except SymbolError Symbol :=
  named .reducedExtension name [origin]

/-! ### Symbols as records -/

/-- The kind that a record states, ordinary when it states none. -/
def kindIn (fields : List (String × Value)) : Except SymbolError DispatchKind :=
  match fields.lookup "dispatch_kind" with
  | none => .ok .ordinary
  | some given =>
    match DispatchKind.ofValue? given with
    | some kind => .ok kind
    | none => .error (SymbolError.unknownKind given).raised

/-- The names that a record states. -/
def memberIn (fields : List (String × Value)) : Member where
  name := Value.field "fully_qualified_name" fields
  type := Value.field "containing_type" fields
  scope := Value.field "containing_namespace" fields

mutual

/-- Reads a symbol. Its kind is looked at first, then its targets one by one, and their number
last. -/
def decode : Value → Except SymbolError Symbol
  | .record fields => do
    let kind ← kindIn fields
    let targets ← targetsIn fields
    make kind (memberIn fields) targets
  | given => .error (.notRecord given)

/-- The targets that a record states, none when it states none. -/
def targetsIn : List (String × Value) → Except SymbolError (List Symbol)
  | [] => .ok []
  | (key, value) :: rest => if key = "targets" then targetsOf value else targetsIn rest

/-- Reads targets. A void value is no target at all; the characters of a text and the keys of a
record are no symbols, and anything else is no list. -/
def targetsOf : Value → Except SymbolError (List Symbol)
  | .list items => decodeAll items
  | .text s => if s.isEmpty then .ok [] else .error (.notRecord (.text s))
  | .record [] => .ok []
  | .record ((key, _) :: _) => .error (.notRecord (.text key))
  | given => if given.isVoid then .ok [] else .error (.targetsNotListed given)

/-- Reads symbols one after the other, up to the first that fails. -/
def decodeAll : List Value → Except SymbolError (List Symbol)
  | [] => .ok []
  | item :: rest => do
    let symbol ← decode item
    let more ← decodeAll rest
    return symbol :: more

end

/-- The fields of a symbol's record, in order. -/
def fieldsWith (kind : DispatchKind) (member : Member) (targets : List Value) :
    List (String × Value) :=
  [("fully_qualified_name", member.name), ("containing_type", member.type),
   ("containing_namespace", member.scope), ("dispatch_kind", .text kind.name),
   ("targets", .list targets)]

mutual

/-- The record of a symbol. -/
def encode : Symbol → Value
  | .ordinary member => .record (fieldsWith .ordinary member [])
  | .interfaceMember member => .record (fieldsWith .interfaceMember member [])
  | .override member base => .record (fieldsWith .override member [encode base])
  | .explicitImpl member targets => .record (fieldsWith .explicitImpl member (encodeAll targets))
  | .reducedExtension member origin =>
    .record (fieldsWith .reducedExtension member [encode origin])

/-- The records of some symbols. -/
def encodeAll : List Symbol → List Value
  | [] => []
  | symbol :: rest => encode symbol :: encodeAll rest

end

end Symbol

end CallGraph
