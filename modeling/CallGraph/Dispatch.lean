/-
**Dispatch chains.**

A call bound to an override, to a reduced extension or to an explicit implementation reaches the
symbol that it points at. `Symbol.next?` is one such step, and `Symbol.resolve?` follows the steps
to the symbol where they end, unless there are more of them than the hop limit allows;
`Symbol.reached` is where it stands by then.
-/

import CallGraph.Symbol

namespace CallGraph

/-- The most steps that a dispatch chain may have. -/
structure HopLimit where
  hops : Nat
  positive : 1 ≤ hops := by decide

namespace HopLimit

/-- The limit where none is given. -/
def standard : HopLimit := ⟨64, by decide⟩

/-- The limit of the given number of hops, if that is at least one. -/
def ofInt? (n : Int) : Option HopLimit :=
  if positive : 1 ≤ n.toNat then some ⟨n.toNat, positive⟩ else none

/-- What is said of a number of hops that is no limit. -/
def refusal (n : Int) : Except Misuse String :=
  (Value.int n).shown.map ("max_hops must be at least 1, got " ++ ·)

end HopLimit

namespace Symbol

/-- The symbol that a call to this one goes on to: the base of an override, the origin of a reduced
extension, the first target of an explicit implementation. -/
def next? : Symbol → Option Symbol
  | .ordinary _ => none
  | .interfaceMember _ => none
  | .override _ base => some base
  | .explicitImpl _ targets => targets.head?
  | .reducedExtension _ origin => some origin

/-- The end of the chain, if it is found within the given number of looks. -/
def settle : Nat → Symbol → Option Symbol
  | 0, _ => none
  | looks + 1, symbol =>
    match symbol.next? with
    | none => some symbol
    | some next => settle looks next

/-- The end of the chain, if that has at most as many steps as the limit allows. -/
def resolve? (limit : HopLimit) (symbol : Symbol) : Option Symbol := settle (limit.hops + 1) symbol

/-- The symbol that some steps along the chain lead to. -/
def reached : Nat → Symbol → Symbol
  | 0, symbol => symbol
  | steps + 1, symbol =>
    match symbol.next? with
    | none => symbol
    | some next => reached steps next

/-- What is said of a chain that is too long. The limit can always be written, since the chain has
more symbols than the limit allows for. -/
def unsettledMessage (symbol : Symbol) (limit : HopLimit) : String :=
  "Dispatch chain for '" ++ symbol.member.name.display ++ "' exceeds " ++
    Text.decimalText limit.hops ++ " hops"

/-- The names that are shown of a chain that is too long: that of the symbol where resolution
stands goes to the log, that of the first symbol into the refusal. -/
def unsettledShows (symbol : Symbol) (limit : HopLimit) : List Value :=
  [(symbol.reached (limit.hops + 1)).member.name, symbol.member.name]

end Symbol

end CallGraph
