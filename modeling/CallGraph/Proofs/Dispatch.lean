/-
**Where dispatch chains end.**

`Symbol.Chain` follows a dispatch chain by the kinds of its symbols: from an override to its base,
from a reduced extension to its origin, from an explicit implementation to its first target, until a
symbol is met that is called as it stands. Every symbol has one chain (`Symbol.exists_chain`,
`Symbol.Chain.unique`). Resolution takes one look more than the limit has hops, since the last look
only finds that the chain has ended; `Symbol.settle_of_chain` counts looks against steps, and all
else about resolution is read off the chain.

A chain sees only the first target of an explicit implementation. `Symbol.leading` drops the others,
and symbols with the same leading part have chains of the same length to the same end
(`Symbol.Chain.leading`).

* `resolve_by_chain`: the end of the chain is returned exactly when its length is within the limit.
-/

import CallGraph.Proofs.Resolution

namespace CallGraph

namespace Symbol

/-- **A dispatch chain**: its first symbol, the number of its steps, and the symbol where it
ends. -/
inductive Chain : Symbol → Nat → Symbol → Prop
  | ordinary (member : Member) : Chain (.ordinary member) 0 (.ordinary member)
  | interfaceMember (member : Member) : Chain (.interfaceMember member) 0 (.interfaceMember member)
  | bareImpl (member : Member) : Chain (.explicitImpl member []) 0 (.explicitImpl member [])
  | override (member : Member) {base last : Symbol} {steps : Nat} (chain : Chain base steps last) :
      Chain (.override member base) (steps + 1) last
  | reducedExtension (member : Member) {origin last : Symbol} {steps : Nat}
      (chain : Chain origin steps last) : Chain (.reducedExtension member origin) (steps + 1) last
  | explicitImpl (member : Member) {first last : Symbol} {steps : Nat} (others : List Symbol)
      (chain : Chain first steps last) :
      Chain (.explicitImpl member (first :: others)) (steps + 1) last

/-- Every chain comes to an end. -/
theorem exists_chain : ∀ symbol : Symbol, ∃ steps last, Chain symbol steps last
  | .ordinary member => ⟨0, _, .ordinary member⟩
  | .interfaceMember member => ⟨0, _, .interfaceMember member⟩
  | .explicitImpl member [] => ⟨0, _, .bareImpl member⟩
  | .override member base =>
    have ⟨steps, last, chain⟩ := exists_chain base
    ⟨steps + 1, last, .override member chain⟩
  | .reducedExtension member origin =>
    have ⟨steps, last, chain⟩ := exists_chain origin
    ⟨steps + 1, last, .reducedExtension member chain⟩
  | .explicitImpl member (first :: others) =>
    have ⟨steps, last, chain⟩ := exists_chain first
    ⟨steps + 1, last, .explicitImpl member others chain⟩

/-- The symbol with only the first target of each explicit implementation on its chain. -/
def leading : Symbol → Symbol
  | .ordinary member => .ordinary member
  | .interfaceMember member => .interfaceMember member
  | .override member base => .override member base.leading
  | .reducedExtension member origin => .reducedExtension member origin.leading
  | .explicitImpl member [] => .explicitImpl member []
  | .explicitImpl member (first :: _) => .explicitImpl member [first.leading]

section Chain

variable {symbol last : Symbol} {steps : Nat}

/-- A chain has ended, or goes on with the symbol that a call goes on to. -/
theorem Chain.next_cases (chain : Chain symbol steps last) :
    (symbol.next? = none ∧ steps = 0 ∧ last = symbol) ∨
      ∃ target fewer, symbol.next? = some target ∧ steps = fewer + 1 ∧
        Chain target fewer last := by
  cases chain with
  | ordinary member => exact Or.inl ⟨rfl, rfl, rfl⟩
  | interfaceMember member => exact Or.inl ⟨rfl, rfl, rfl⟩
  | bareImpl member => exact Or.inl ⟨rfl, rfl, rfl⟩
  | override member chain => exact Or.inr ⟨_, _, rfl, rfl, chain⟩
  | reducedExtension member chain => exact Or.inr ⟨_, _, rfl, rfl, chain⟩
  | explicitImpl member others chain => exact Or.inr ⟨_, _, rfl, rfl, chain⟩

/-- **Looks against steps**: the end is found when there are more looks than steps. -/
theorem settle_of_chain (chain : Chain symbol steps last) (looks : Nat) :
    settle looks symbol = if steps < looks then some last else none := by
  induction looks generalizing symbol steps with
  | zero => exact (if_neg (Nat.not_lt_zero steps)).symm
  | succ looks ih =>
    obtain ⟨ends, rfl, rfl⟩ | ⟨target, fewer, points, rfl, rest⟩ := chain.next_cases
    · rw [settle, ends]
      exact (if_pos (Nat.succ_pos looks)).symm
    · rw [settle, points]
      simp only [ih rest, Nat.succ_lt_succ_iff]

theorem Chain.settle_succ (chain : Chain symbol steps last) :
    settle (steps + 1) symbol = some last :=
  (settle_of_chain chain _).trans (if_pos (Nat.lt_succ_self steps))

/-- As many looks as one chain takes are enough for any other. -/
theorem Chain.steps_le {others : Nat} {other : Symbol} (chain : Chain symbol steps last)
    (otherChain : Chain symbol others other) : others ≤ steps := by
  by_contra more
  have found := chain.settle_succ
  rw [settle_of_chain otherChain, if_neg (by omega)] at found
  cases found

/-- A symbol has one chain. -/
theorem Chain.unique {others : Nat} {other : Symbol} (chain : Chain symbol steps last)
    (otherChain : Chain symbol others other) : others = steps ∧ other = last := by
  have here : last = symbol.chainEnd := eq_chainEnd_of_settle chain.settle_succ
  have there : other = symbol.chainEnd := eq_chainEnd_of_settle otherChain.settle_succ
  exact ⟨Nat.le_antisymm (chain.steps_le otherChain) (otherChain.steps_le chain),
    there.trans here.symm⟩

/-- A chain sees only first targets. -/
theorem Chain.leading (chain : Chain symbol steps last) : Chain symbol.leading steps last := by
  induction chain with
  | ordinary member => exact .ordinary member
  | interfaceMember member => exact .interfaceMember member
  | bareImpl member => exact .bareImpl member
  | override member chain ih => exact .override member ih
  | reducedExtension member chain ih => exact .reducedExtension member ih
  | explicitImpl member others chain ih => exact .explicitImpl member [] ih

/-- **Resolution along a chain.** -/
theorem resolve_of_chain (chain : Chain symbol steps last) (limit : HopLimit) :
    symbol.resolve limit =
      if steps ≤ limit.hops then .ok last
      else .error (Value.refusal FactError.misuse (.unsettled symbol limit)
        (symbol.unsettledShows limit)) := by
  unfold resolve resolve?
  rw [settle_of_chain chain]
  by_cases within : steps ≤ limit.hops
  · rw [if_pos within, if_pos (Nat.lt_succ_of_le within)]
  · rw [if_neg within, if_neg fun less => within (Nat.le_of_lt_succ less)]

variable {limit : HopLimit}

theorem resolve_eq_ok_iff (chain : Chain symbol steps last) {result : Symbol} :
    symbol.resolve limit = .ok result ↔ steps ≤ limit.hops ∧ result = last := by
  rw [resolve_of_chain chain]
  by_cases within : steps ≤ limit.hops
  · rw [if_pos within, Except.ok.injEq, eq_comm]
    exact (and_iff_right within).symm
  · rw [if_neg within]
    exact iff_of_false (fun wrong => by cases wrong) fun both => within both.1

theorem exists_resolve_eq_error_iff (chain : Chain symbol steps last) :
    (∃ cause, symbol.resolve limit = .error cause) ↔ limit.hops < steps := by
  rw [resolve_of_chain chain]
  by_cases within : steps ≤ limit.hops
  · rw [if_pos within]
    exact iff_of_false (fun ⟨_, wrong⟩ => by cases wrong) (Nat.not_lt.mpr within)
  · rw [if_neg within]
    exact iff_of_true ⟨_, rfl⟩ (Nat.not_le.mp within)

/-- A chain that is too long is refused together with the limit, where the refusal can be worded. -/
theorem resolve_eq_error_iff (chain : Chain symbol steps last)
    (writable : Value.areWritable (symbol.unsettledShows limit) = true) :
    symbol.resolve limit = .error (.unsettled symbol limit) ↔ limit.hops < steps := by
  rw [← exists_resolve_eq_error_iff chain]
  refine ⟨fun refused => ⟨_, refused⟩, fun ⟨cause, refused⟩ => ?_⟩
  have long := (exists_resolve_eq_error_iff chain).mp ⟨cause, refused⟩
  rw [resolve_of_chain chain, if_neg (Nat.not_le.mpr long), Value.refusal_of_writable writable]

/-- The names of a chain can be written when all names in the symbol are texts. -/
theorem areWritable_of_isText (named : ∀ level, symbol.Nests level → level.member.name.IsText)
    (limit : HopLimit) : Value.areWritable (symbol.unsettledShows limit) = true := by
  refine (Value.areWritable_iff _).mpr fun name listed => ?_
  rcases List.mem_pair.mp listed with rfl | rfl
  · exact (named _ (symbol.nests_reached _)).isWritable
  · exact (named symbol .refl).isWritable

/-- The end of a chain is its own end, under any limit. -/
theorem Chain.resolve_last (chain : Chain symbol steps last) (limit : HopLimit) :
    last.resolve limit = .ok last := by
  have ends : last.next? = none := next?_of_settle chain.settle_succ
  unfold resolve resolve?
  rw [settle, ends]

end Chain

end Symbol

/-- **Resolution goes to the end of the chain.** Every symbol has one dispatch chain. Its end is
returned exactly when the limit allows for its steps; otherwise the symbol is refused, and where its
names are texts, or can be written at all, it is refused together with the limit. What is returned
resolves to itself, it is the same under all limits that return something, and no target after the
first of an explicit implementation has a part in it. -/
theorem resolve_by_chain (symbol : Symbol) :
    ∃ steps last,
      symbol.Chain steps last ∧
      (∀ others other, symbol.Chain others other → others = steps ∧ other = last) ∧
      (∀ limit : HopLimit,
        (symbol.resolve limit = .ok last ↔ steps ≤ limit.hops) ∧
        ((∃ cause, symbol.resolve limit = .error cause) ↔ limit.hops < steps) ∧
        ((∀ level, symbol.Nests level → level.member.name.IsText) ∨
            Value.areWritable (symbol.unsettledShows limit) = true →
          (symbol.resolve limit = .error (.unsettled symbol limit) ↔ limit.hops < steps))) ∧
      (∀ limit result, symbol.resolve limit = .ok result →
        ∀ again, result.resolve again = .ok result) ∧
      (∀ first second here there, symbol.resolve first = .ok here →
        symbol.resolve second = .ok there → here = there) ∧
      ∀ other : Symbol, other.leading = symbol.leading →
        ∀ limit result, other.resolve limit = .ok result ↔ symbol.resolve limit = .ok result := by
  obtain ⟨steps, last, chain⟩ := symbol.exists_chain
  refine ⟨steps, last, chain, fun others other => chain.unique,
    fun limit => ⟨?_, Symbol.exists_resolve_eq_error_iff chain, fun named => ?_⟩, ?_, ?_, ?_⟩
  · rw [Symbol.resolve_eq_ok_iff chain]
    exact and_iff_left rfl
  · exact Symbol.resolve_eq_error_iff chain
      (named.elim (fun texts => Symbol.areWritable_of_isText texts limit) id)
  · intro limit result settled again
    obtain rfl := ((Symbol.resolve_eq_ok_iff chain).mp settled).2
    exact chain.resolve_last again
  · intro first second here there settled settledToo
    rw [((Symbol.resolve_eq_ok_iff chain).mp settled).2,
      ((Symbol.resolve_eq_ok_iff chain).mp settledToo).2]
  · intro other same limit result
    obtain ⟨others, otherLast, otherChain⟩ := other.exists_chain
    -- both chains are the chain of the leading part
    obtain ⟨rfl, rfl⟩ := chain.leading.unique (same ▸ otherChain.leading)
    rw [Symbol.resolve_eq_ok_iff chain, Symbol.resolve_eq_ok_iff otherChain]

/-! ### A chain of all kinds -/

/-- The charge of a wallet implements that of a card before others; this one overrides an extension
of an interface member. -/
def walletCharge (others : List Symbol) : Symbol :=
  .explicitImpl (.ofName "Shop.Wallet.Charge")
    (.override (.ofName "Shop.Card.Charge") (.reducedExtension (.ofName "Shop.Cards.Charge")
      (.interfaceMember (.ofName "Shop.IPay.Charge"))) :: others)

theorem walletCharge_resolved :
    (∃ steps last, (walletCharge [bankCharge]).Chain steps last ∧
      steps = 3 ∧ last = .interfaceMember (.ofName "Shop.IPay.Charge")) ∧
    (walletCharge [bankCharge]).resolve ⟨3, by decide⟩ =
      .ok (.interfaceMember (.ofName "Shop.IPay.Charge")) ∧
    (walletCharge [bankCharge]).resolve ⟨2, by decide⟩ =
      .error (.unsettled (walletCharge [bankCharge]) ⟨2, by decide⟩) ∧
    (walletCharge []).resolve ⟨3, by decide⟩ =
      .ok (.interfaceMember (.ofName "Shop.IPay.Charge")) := by
  obtain ⟨steps, last, chain, unique, limits, -, -, leading⟩ :=
    resolve_by_chain (walletCharge [bankCharge])
  obtain ⟨rfl, rfl⟩ := unique _ _ (.explicitImpl _ _ (.override _ (.reducedExtension _
    (.interfaceMember (.ofName "Shop.IPay.Charge")))))
  have settled := (limits ⟨3, by decide⟩).1.mpr (Nat.le_refl 3)
  have refused := ((limits ⟨2, by decide⟩).2.2 (Or.inr rfl)).mpr (by decide)
  exact ⟨⟨_, _, chain, rfl, rfl⟩, settled, refused,
    (leading (walletCharge []) rfl _ _).mpr settled⟩

end CallGraph
