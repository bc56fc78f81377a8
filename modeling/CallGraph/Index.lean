/-
**The call-graph index**: who calls whom, and where.

An index holds the distinct edges in the order in which they arrived, a registry of every method
that they mention, and for each method the references to its callees and to its callers. Look-ups of
unknown names give nothing. Indexes are made by `Builder.finish`.
-/

import CallGraph.Edge
import CallGraph.Table
import CallGraph.Text.Lower

namespace CallGraph

/-- The method at the other end of an edge, and the site of the call. -/
structure Ref where
  name : String
  site : Site

/-- What is known of a method: its names as the first edge that mentions it gives them. -/
structure Method where
  name : String
  simpleName : String
  type : Value
  scope : Value

/-- The declaring type inside its namespace, as it reads. -/
def Method.typePath (method : Method) : Value := qualified method.scope method.type

/-- The declaring type inside its namespace. -/
def Method.typeName (method : Method) : Except Misuse Value := qualify method.scope method.type

/-- An immutable call graph. -/
structure Index where
  /-- The distinct edges, in the order of arrival. -/
  edges : List Edge
  /-- The known methods, in the order of their first mention. -/
  methods : Table String Method
  /-- The references to callees, by caller. -/
  callees : Table String (List Ref)
  /-- The references to callers, by callee. -/
  callers : Table String (List Ref)
  /-- The names of the known types in lower case, with and without their namespaces. -/
  classes : List String

/-- The sizes of an index. -/
structure Stats where
  methods : Nat
  edges : Nat
  entryPoints : Nat
  withCallees : Nat
  withCallers : Nat

namespace Index

/-- The index of no edges. -/
def empty : Index := ⟨[], .empty, .empty, .empty, []⟩

/-- The calls that a method makes, in the order of arrival. -/
def calleesOf (index : Index) (name : String) : List Ref := (index.callees.find? name).getD []

/-- The calls that reach a method, in the order of arrival. -/
def callersOf (index : Index) (name : String) : List Ref := (index.callers.find? name).getD []

/-- The methods that a method calls, each once, in the order of its first call. -/
def calleeNames (index : Index) (name : String) : List String :=
  ((index.calleesOf name).map Ref.name).eraseDups

/-- The methods that call a method, each once, in the order of its first call. -/
def callerNames (index : Index) (name : String) : List String :=
  ((index.callersOf name).map Ref.name).eraseDups

/-- Whether some edge mentions the method. -/
def hasMethod (index : Index) (name : String) : Bool := index.methods.has name

/-- What is known of a method. -/
def method? (index : Index) (name : String) : Option Method := index.methods.find? name

/-- Whether a type, with or without its namespace and in any case, declares a known method. -/
def hasClass (index : Index) (name : String) : Bool := index.classes.contains (Text.lower name)

/-- The known methods that nothing calls. -/
def entryPoints (index : Index) : List String :=
  index.methods.keys.filter fun name => !index.callers.has name

/-- The sizes of the index. -/
def stats (index : Index) : Stats where
  methods := index.methods.size
  edges := index.edges.length
  entryPoints := index.entryPoints.length
  withCallees := index.callees.size
  withCallers := index.callers.size

/-- The index in one line. -/
def shown (index : Index) : String :=
  "CallGraphIndex(methods=" ++ Text.decimalText index.methods.size ++ ", relationships=" ++
    Text.decimalText index.edges.length ++ ")"

/-- The names under which the types of the given methods are found. Types that are void are not
found at all; any other must be a text. -/
def classNames (methods : List Method) : Except Misuse (List String) := do
  let typed := methods.filter fun method => !method.type.isVoid
  let qualified ← typed.mapM fun method => do return Text.lower (← (← method.typeName).asText)
  let bare ← typed.mapM fun method => method.type.asText.map Text.lower
  return qualified ++ bare

end Index

end CallGraph
