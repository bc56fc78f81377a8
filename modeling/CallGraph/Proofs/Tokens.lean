/-
**When tokens are cancelled.**

A run of a token desk is a list of events: a flag, a deadline or a combination is given out, a token
is cancelled, or the clock moves forward. What a token reports is read off that history alone,
whatever the order of the events and however the combinations nest and share their members.

* `isCancelled_iff_contains` — at any desk, a token is cancelled exactly when one within it stops by
  itself.
* `Runs.books` — the invariant of a run: tokens with one serial number are the same, a group is
  younger than its members, and every token has the event that made it.
* `tokens_follow_history` — **the history decides.** A token is cancelled exactly when it reaches,
  through the combinations made, a token that was cancelled or a deadline whose time has come; it
  stays so; a combination of one is that token; cancelling a larger one leaves its members alone.
-/

import CallGraph.Token
import Mathlib.Algebra.Order.BigOperators.Group.List
import Mathlib.Algebra.Order.Ring.Rat
import Mathlib.Data.List.ReduceOption
import Mathlib.Logic.Relation
import Mathlib.Tactic.Linarith

namespace CallGraph

/-! ### Tokens within tokens -/

namespace Token

/-- The tokens that a token groups. -/
def members : Token → List Token
  | .flag _ => []
  | .deadline _ _ _ => []
  | .group _ members => members

/-- A token is within another: the same one, a member, a member of a member and so on. -/
def Contains : Token → Token → Prop :=
  Relation.ReflTransGen fun whole part => part ∈ whole.members

theorem sizeOf_lt_of_mem_members {whole part : Token} (member : part ∈ whole.members) :
    sizeOf part < sizeOf whole := by
  cases whole with
  | flag serial => simp [members] at member
  | deadline serial clock expiry => simp [members] at member
  | group serial members =>
    have smaller : sizeOf part < sizeOf members := List.sizeOf_lt_of_mem member
    simp only [group.sizeOf_spec]
    omega

end Token

namespace TokenDesk

/-- The time of a deadline has come. -/
def IsDue (desk : TokenDesk) : Token → Prop
  | .deadline _ clock expiry => expiry ≤ desk.time clock
  | _ => False

/-- A token stops by itself: its own flag is raised or its time has come. -/
def Stops (desk : TokenDesk) (token : Token) : Prop :=
  desk.isRaised token.serial = true ∨ desk.IsDue token

theorem anyCancelled_iff (desk : TokenDesk) (tokens : List Token) :
    desk.anyCancelled tokens = true ↔ ∃ token ∈ tokens, desk.isCancelled token = true := by
  induction tokens with
  | nil => simp [anyCancelled]
  | cons token rest ih => simp [anyCancelled, ih]

/-- One level of a token: it stops by itself or one of its members is cancelled. -/
theorem isCancelled_iff_members (desk : TokenDesk) (token : Token) :
    desk.isCancelled token = true ↔
      desk.Stops token ∨ ∃ part ∈ token.members, desk.isCancelled part = true := by
  cases token with
  | flag serial => simp [isCancelled, Stops, IsDue, Token.members, Token.serial]
  | deadline serial clock expiry =>
    simp [isCancelled, Stops, IsDue, Token.members, Token.serial]
  | group serial members =>
    simp [isCancelled, Stops, IsDue, Token.members, Token.serial, anyCancelled_iff]

theorem exists_stops_of_isCancelled (desk : TokenDesk) (token : Token)
    (cancelled : desk.isCancelled token = true) :
    ∃ part, token.Contains part ∧ desk.Stops part := by
  obtain stops | ⟨part, member, cancelled⟩ := (desk.isCancelled_iff_members token).mp cancelled
  · exact ⟨token, .refl, stops⟩
  · obtain ⟨inner, within, stops⟩ := exists_stops_of_isCancelled desk part cancelled
    exact ⟨inner, .head member within, stops⟩
termination_by sizeOf token
decreasing_by exact Token.sizeOf_lt_of_mem_members member

/-- **All levels of a token.** It is cancelled exactly when a token within it stops by itself. -/
theorem isCancelled_iff_contains (desk : TokenDesk) (token : Token) :
    desk.isCancelled token = true ↔ ∃ part, token.Contains part ∧ desk.Stops part := by
  refine ⟨desk.exists_stops_of_isCancelled token, ?_⟩
  intro ⟨part, within, stops⟩
  induction within using Relation.ReflTransGen.head_induction_on with
  | refl => exact (desk.isCancelled_iff_members part).mpr (.inl stops)
  | head member _ ih => exact (desk.isCancelled_iff_members _).mpr (.inr ⟨_, member, ih⟩)

/-- A combination is its only token, or a new group of the tokens given. -/
theorem combine_cases (desk : TokenDesk) (members : List (Option Token)) :
    (∃ token, members.reduceOption = [token] ∧ desk.combine members = (token, desk)) ∨
      members.reduceOption.length ≠ 1 ∧
        desk.combine members = (.group desk.issued members.reduceOption, desk.issue) := by
  unfold combine
  split
  next token single => exact .inl ⟨token, single, rfl⟩
  next several =>
    refine .inr ⟨?_, rfl⟩
    intro one
    obtain ⟨token, single⟩ := List.length_eq_one_iff.mp one
    exact several token single

/-! ### Runs -/

/-- What can happen at a desk; a token given out stands in its event. -/
inductive Event where
  | flag (token : Token)
  | deadline (token : Token) (seconds : Rat)
  | combine (token : Token) (members : List (Option Token))
  | cancel (token : Token)
  | advance (seconds : Rat)

namespace Event

/-- The token that an event gives out. -/
def issued? : Event → Option Token
  | .flag token => some token
  | .deadline token _ => some token
  | .combine token _ => some token
  | .cancel _ => none
  | .advance _ => none

/-- The time that an event takes. -/
def elapsed : Event → Rat
  | .advance seconds => seconds
  | _ => 0

end Event

/-- The tokens that some events gave out. -/
def given (events : List Event) : List Token := events.filterMap Event.issued?

/-- What the clock shows after some events. -/
def shown (start : Rat) (events : List Event) : Rat := start + (events.map Event.elapsed).sum

/-- The desk after an event. -/
def after (desk : TokenDesk) : Event → TokenDesk
  | .flag _ => desk.newFlag.2
  | .deadline _ seconds => (desk.newDeadline .supplied seconds).2
  | .combine _ members => (desk.combine members).2
  | .cancel token => desk.cancel token
  | .advance seconds => desk.advance seconds

/-- An event can happen: a token given out is the one the desk makes, the tokens combined or
cancelled were given out before, and the clock does not go back. -/
def Allows (desk : TokenDesk) (past : List Event) : Event → Prop
  | .flag token => token = desk.newFlag.1
  | .deadline token seconds => token = (desk.newDeadline .supplied seconds).1
  | .combine token members =>
    token = (desk.combine members).1 ∧ ∀ part, some part ∈ members → part ∈ given past
  | .cancel token => token ∈ given past
  | .advance seconds => 0 ≤ seconds

/-- The runs of a desk whose clock first shows a given time, with the desk they end in. -/
inductive Runs (start : Rat) : List Event → TokenDesk → Prop where
  | start : Runs start [] (.start start)
  | step {past : List Event} {desk : TokenDesk} (run : Runs start past desk) (event : Event)
      (allowed : desk.Allows past event) : Runs start (past ++ [event]) (desk.after event)

/-- A combination was made of a token, among others. -/
def Joins (events : List Event) (whole part : Token) : Prop :=
  ∃ members, Event.combine whole members ∈ events ∧ some part ∈ members

/-- A token reaches another through the combinations made. -/
def Reaches (events : List Event) : Token → Token → Prop := Relation.ReflTransGen (Joins events)

/-- A deadline was made whose seconds have passed since. -/
def Overdue (start : Rat) (events : List Event) (token : Token) : Prop :=
  ∃ before seconds later, events = before ++ .deadline token seconds :: later ∧
    shown start before + seconds ≤ shown start events

variable {start : Rat} {events past later : List Event} {desk : TokenDesk} {event : Event}
  {token whole part : Token}

@[simp]
theorem mem_given_append :
    token ∈ given (past ++ later) ↔ token ∈ given past ∨ token ∈ given later := by
  simp [given]

@[simp]
theorem mem_given_singleton : token ∈ given [event] ↔ event.issued? = some token := by
  simp [given]

theorem mem_given_of_mem (member : event ∈ events) (issues : event.issued? = some token) :
    token ∈ given events :=
  List.mem_filterMap.mpr ⟨event, member, issues⟩

theorem shown_append (start : Rat) (past later : List Event) :
    shown start (past ++ later) = shown start past + (later.map Event.elapsed).sum := by
  simp [shown, add_assoc]

/-- An event of a run could happen after the events before it. -/
theorem Runs.allowed (run : Runs start events desk) {before : List Event}
    (split : events = before ++ event :: later) :
    ∃ earlier, Runs start before earlier ∧ earlier.Allows before event := by
  -- a run grows at its end, so the event is the last one or one of the run before it
  induction run generalizing later with
  | start => simp at split
  | @step past desk run last allowed ih =>
    obtain rfl | ⟨rest, final, rfl⟩ := later.eq_nil_or_concat'
    · obtain ⟨rfl, same⟩ := List.append_inj' split rfl
      cases same
      exact ⟨desk, run, allowed⟩
    · have split : past ++ [last] = (before ++ event :: rest) ++ [final] := by simpa using split
      exact ih (List.append_inj' split rfl).1

theorem Runs.allowed_of_mem (run : Runs start events desk) (member : event ∈ events) :
    ∃ before later earlier, events = before ++ event :: later ∧ Runs start before earlier ∧
      earlier.Allows before event := by
  obtain ⟨before, later, split⟩ := List.append_of_mem member
  obtain ⟨earlier, run, allowed⟩ := run.allowed split
  exact ⟨before, later, earlier, split, run, allowed⟩

/-! ### The clock and the flags of a run -/

theorem time_after (desk : TokenDesk) (event : Event) :
    (desk.after event).time .supplied = desk.time .supplied + event.elapsed := by
  cases event with
  | flag token => simp [after, newFlag, issue, Event.elapsed]
  | deadline token seconds => simp [after, newDeadline, issue, Event.elapsed]
  | combine token members =>
    obtain ⟨_, _, made⟩ | ⟨_, made⟩ := desk.combine_cases members
    · simp [after, made, Event.elapsed]
    · simp [after, made, issue, Event.elapsed]
  | cancel token => simp [after, TokenDesk.cancel, Event.elapsed]
  | advance seconds => simp [after, TokenDesk.advance, Event.elapsed]

theorem isRaised_after (desk : TokenDesk) (event : Event) (serial : Nat) :
    (desk.after event).isRaised serial = true ↔
      desk.isRaised serial = true ∨ ∃ token, event = .cancel token ∧ token.serial = serial := by
  cases event with
  | flag token => simp [after, newFlag, issue, isRaised]
  | deadline token seconds => simp [after, newDeadline, issue, isRaised]
  | combine token members =>
    obtain ⟨_, _, made⟩ | ⟨_, made⟩ := desk.combine_cases members
    · simp [after, made]
    · simp [after, made, issue, isRaised]
  | cancel token =>
    have raised : (desk.cancel token).isRaised serial = true ↔
        token.serial = serial ∨ desk.isRaised serial = true := by
      simp [TokenDesk.cancel, isRaised, eq_comm (a := serial)]
    simp [after, raised, or_comm]
  | advance seconds => simp [after, TokenDesk.advance, isRaised]

/-- The clock shows the time that the events took. -/
theorem Runs.time (run : Runs start events desk) : desk.time .supplied = shown start events := by
  induction run with
  | start => simp [TokenDesk.start, shown]
  | step run event allowed ih => simp [time_after, ih, shown_append]

/-- The flags raised are those of the tokens cancelled. -/
theorem Runs.isRaised_iff (run : Runs start events desk) (serial : Nat) :
    desk.isRaised serial = true ↔ ∃ token, .cancel token ∈ events ∧ token.serial = serial := by
  induction run with
  | start => simp [TokenDesk.start, isRaised]
  | step run event allowed ih =>
    rw [isRaised_after, ih]
    simp [or_and_right, exists_or, eq_comm (b := Event.cancel _)]

/-- Only tokens given out are cancelled. -/
theorem Runs.given_of_cancel (run : Runs start events desk) (cancelled : .cancel token ∈ events) :
    token ∈ given events := by
  obtain ⟨before, later, earlier, rfl, _, allowed⟩ := run.allowed_of_mem cancelled
  exact mem_given_append.mpr (.inl allowed)

/-- No event takes the clock back. -/
theorem Runs.elapsed_nonneg (run : Runs start events desk) (member : event ∈ events) :
    0 ≤ event.elapsed := by
  cases event with
  | advance seconds =>
    obtain ⟨_, _, _, _, _, allowed⟩ := run.allowed_of_mem member
    exact allowed
  | _ => exact le_refl 0

theorem Runs.shown_le (run : Runs start (events ++ later) desk) :
    shown start events ≤ shown start (events ++ later) := by
  have passed : 0 ≤ (later.map Event.elapsed).sum := by
    apply List.sum_nonneg
    intro seconds member
    obtain ⟨event, among, rfl⟩ := List.mem_map.mp member
    exact run.elapsed_nonneg (List.mem_append_right events among)
  rw [shown_append]
  linarith

/-! ### The tokens of a run -/

/-- How a token came to be: the event that made it, with what it was made of. -/
inductive Origin (start : Rat) (events : List Event) : Token → Prop where
  | flag (serial : Nat) : Origin start events (.flag serial)
  | deadline {serial : Nat} {before later : List Event} {seconds : Rat}
      (made : events = before ++
        .deadline (.deadline serial .supplied (shown start before + seconds)) seconds :: later) :
      Origin start events (.deadline serial .supplied (shown start before + seconds))
  | group {serial : Nat} {members : List (Option Token)}
      (made : .combine (.group serial members.reduceOption) members ∈ events) :
      Origin start events (.group serial members.reduceOption)

theorem Origin.append (origin : Origin start past token) (later : List Event) :
    Origin start (past ++ later) token := by
  cases origin with
  | flag serial => exact .flag serial
  | deadline made => exact .deadline (by rw [made, List.append_assoc, List.cons_append])
  | group made => exact .group (List.mem_append_left later made)

/-- What a desk knows of the tokens it gave out. -/
structure Books (start : Rat) (events : List Event) (desk : TokenDesk) : Prop where
  below : ∀ token ∈ given events, token.serial < desk.issued
  apart : ∀ one ∈ given events, ∀ other ∈ given events, one.serial = other.serial → one = other
  nested : ∀ whole ∈ given events, ∀ part ∈ whole.members,
    part ∈ given events ∧ part.serial < whole.serial
  origin : ∀ token ∈ given events, Origin start events token

/-- Giving out a new token, with the next serial number. -/
theorem Books.issue (books : Books start past desk) (issues : event.issued? = some token)
    (serial : token.serial = desk.issued) (parts : ∀ part ∈ token.members, part ∈ given past)
    (origin : Origin start (past ++ [event]) token) :
    Books start (past ++ [event]) desk.issue := by
  have grown (other : Token) :
      other ∈ given (past ++ [event]) ↔ other ∈ given past ∨ other = token := by
    simp [issues, eq_comm]
  refine ⟨?_, ?_, ?_, ?_⟩
  · intro other member
    show other.serial < desk.issued + 1
    obtain old | rfl := (grown other).mp member
    · exact Nat.lt_succ_of_lt (books.below other old)
    · omega
  · intro one oneMember other otherMember same
    obtain old | rfl := (grown one).mp oneMember
    · obtain old' | rfl := (grown other).mp otherMember
      · exact books.apart one old other old' same
      · have := books.below one old
        omega
    · obtain old | rfl := (grown other).mp otherMember
      · have := books.below other old
        omega
      · rfl
  · intro whole member part inside
    obtain old | rfl := (grown whole).mp member
    · obtain ⟨kept, less⟩ := books.nested whole old part inside
      exact ⟨(grown part).mpr (.inl kept), less⟩
    · have kept := parts part inside
      exact ⟨(grown part).mpr (.inl kept), serial ▸ books.below part kept⟩
  · intro other member
    obtain old | rfl := (grown other).mp member
    · exact (books.origin other old).append [event]
    · exact origin

/-- An event that gives out nothing new. -/
theorem Books.keep {next : TokenDesk} (books : Books start past desk)
    (old : ∀ token, event.issued? = some token → token ∈ given past)
    (issued : next.issued = desk.issued) : Books start (past ++ [event]) next := by
  have same (token : Token) : token ∈ given (past ++ [event]) ↔ token ∈ given past := by
    simpa using old token
  refine ⟨?_, ?_, ?_, ?_⟩
  · intro token member
    exact issued ▸ books.below token ((same token).mp member)
  · intro one oneMember other otherMember
    exact books.apart one ((same one).mp oneMember) other ((same other).mp otherMember)
  · intro whole member part inside
    obtain ⟨kept, less⟩ := books.nested whole ((same whole).mp member) part inside
    exact ⟨(same part).mpr kept, less⟩
  · intro token member
    exact (books.origin token ((same token).mp member)).append [event]

/-- **What a step keeps.** -/
theorem Books.after (books : Books start past desk) (time : desk.time .supplied = shown start past)
    (allowed : desk.Allows past event) : Books start (past ++ [event]) (desk.after event) := by
  cases event with
  | flag token =>
    obtain rfl : token = .flag desk.issued := allowed
    exact books.issue rfl rfl (by simp [Token.members]) (.flag _)
  | deadline token seconds =>
    obtain rfl : token = .deadline desk.issued .supplied (shown start past + seconds) :=
      time ▸ allowed
    exact books.issue rfl rfl (by simp [Token.members]) (.deadline rfl)
  | combine token members =>
    obtain ⟨made, parts⟩ := allowed
    obtain ⟨single, only, itself⟩ | ⟨_, grouped⟩ := desk.combine_cases members
    · obtain rfl : token = single := by rw [made, itself]
      have inside : some token ∈ members := List.reduceOption_mem_iff.mp (by simp [only])
      refine books.keep ?_ ?_
      · intro other issues
        obtain rfl : token = other := Option.some.inj issues
        exact parts token inside
      · simp [TokenDesk.after, itself]
    · obtain rfl : token = .group desk.issued members.reduceOption := by rw [made, grouped]
      have next : desk.after (.combine (.group desk.issued members.reduceOption) members)
          = desk.issue := by simp [TokenDesk.after, grouped]
      rw [next]
      refine books.issue rfl rfl ?_ (.group (by simp))
      intro part inside
      exact parts part (List.reduceOption_mem_iff.mp inside)
  | cancel token => exact books.keep (by simp [Event.issued?]) rfl
  | advance seconds => exact books.keep (by simp [Event.issued?]) rfl

/-- **What a run keeps.** -/
theorem Runs.books (run : Runs start events desk) : Books start events desk := by
  induction run with
  | start => constructor <;> simp [given]
  | step run event allowed ih => exact ih.after run.time allowed

/-- What is within a token given out was given out as well, and is not younger. -/
theorem Books.contains (books : Books start events desk) (member : whole ∈ given events)
    (within : whole.Contains part) : part ∈ given events ∧ part.serial ≤ whole.serial := by
  induction within with
  | refl => exact ⟨member, le_refl _⟩
  | tail _ inside ih =>
    obtain ⟨kept, less⟩ := books.nested _ ih.1 _ inside
    exact ⟨kept, le_trans (le_of_lt less) ih.2⟩

/-! ### Reading the history -/

/-- A combination holds the tokens it was made of, or is the only one of them. -/
theorem Runs.contains_of_joins (run : Runs start events desk) (joins : Joins events whole part) :
    whole.Contains part := by
  obtain ⟨members, made, member⟩ := joins
  obtain ⟨before, later, earlier, rfl, _, rfl, _⟩ := run.allowed_of_mem made
  have inside : part ∈ members.reduceOption := List.reduceOption_mem_iff.mpr member
  obtain ⟨single, only, itself⟩ | ⟨_, grouped⟩ := earlier.combine_cases members
  · obtain rfl : part = single := by simpa [only] using inside
    rw [itself]
    exact .refl
  · rw [grouped]
    exact .single inside

/-- The members of a group given out are those of the combination that made it. -/
theorem Books.joins (books : Books start events desk) (member : whole ∈ given events)
    (inside : part ∈ whole.members) : Joins events whole part := by
  cases books.origin whole member with
  | flag serial => simp [Token.members] at inside
  | deadline made => simp [Token.members] at inside
  | group made => exact ⟨_, made, List.reduceOption_mem_iff.mp inside⟩

/-- **Reaching is being within.** -/
theorem Runs.reaches_iff (run : Runs start events desk) (member : whole ∈ given events) :
    Reaches events whole part ↔ whole.Contains part := by
  refine ⟨fun reaches => reaches.lift' id fun _ _ joins => run.contains_of_joins joins, ?_⟩
  intro within
  induction within with
  | refl => exact .refl
  | tail within inside ih =>
    exact ih.tail (run.books.joins (run.books.contains member within).1 inside)

theorem Runs.isDue_iff (run : Runs start events desk) (member : token ∈ given events) :
    desk.IsDue token ↔ Overdue start events token := by
  constructor
  · intro due
    cases run.books.origin token member with
    | flag serial => exact due.elim
    | deadline made => exact ⟨_, _, _, made, run.time ▸ due⟩
    | group made => exact due.elim
  · intro ⟨before, seconds, later, split, passed⟩
    obtain ⟨earlier, prior, rfl⟩ := run.allowed split
    show earlier.time .supplied + seconds ≤ desk.time .supplied
    rw [prior.time, run.time]
    exact passed

theorem Runs.stops_iff (run : Runs start events desk) (member : token ∈ given events) :
    desk.Stops token ↔ .cancel token ∈ events ∨ Overdue start events token := by
  have raised : desk.isRaised token.serial = true ↔ .cancel token ∈ events := by
    rw [run.isRaised_iff]
    refine ⟨?_, fun cancelled => ⟨token, cancelled, rfl⟩⟩
    -- flags are told apart by serial numbers only, and these by the tokens given out
    intro ⟨other, cancelled, same⟩
    have := run.books.apart other (run.given_of_cancel cancelled) token member same
    exact this ▸ cancelled
  rw [Stops, raised, run.isDue_iff member]

/-- **The history decides** what a token given out reports. -/
theorem Runs.isCancelled_iff (run : Runs start events desk) (member : token ∈ given events) :
    desk.isCancelled token = true ↔ ∃ part, Reaches events token part ∧
      (.cancel part ∈ events ∨ Overdue start events part) := by
  rw [isCancelled_iff_contains]
  refine exists_congr fun part => ?_
  rw [run.reaches_iff member]
  refine and_congr_right fun within => ?_
  exact run.stops_iff (run.books.contains member within).1

theorem Reaches.append (reaches : Reaches events whole part) (later : List Event) :
    Reaches (events ++ later) whole part :=
  reaches.lift id fun _ _ ⟨members, made, member⟩ =>
    ⟨members, List.mem_append_left later made, member⟩

theorem Overdue.append (overdue : Overdue start events token)
    (run : Runs start (events ++ later) desk) : Overdue start (events ++ later) token := by
  obtain ⟨before, seconds, rest, split, passed⟩ := overdue
  refine ⟨before, seconds, rest ++ later, by rw [split, List.append_assoc, List.cons_append], ?_⟩
  exact le_trans passed run.shown_le

/-- A token that is cancelled stays so. -/
theorem Runs.isCancelled_append {next : TokenDesk} (run : Runs start events desk)
    (longer : Runs start (events ++ later) next) (member : token ∈ given events)
    (cancelled : desk.isCancelled token = true) : next.isCancelled token = true := by
  obtain ⟨part, reaches, stopped⟩ := (run.isCancelled_iff member).mp cancelled
  refine (longer.isCancelled_iff (mem_given_append.mpr (.inl member))).mpr
    ⟨part, reaches.append later, ?_⟩
  obtain cancelled | overdue := stopped
  · exact .inl (List.mem_append_left later cancelled)
  · exact .inr (overdue.append longer)

/-- A combination of two or more is younger than the tokens it was made of. -/
theorem Runs.serial_lt_of_combine (run : Runs start events desk) {members : List (Option Token)}
    (made : .combine whole members ∈ events) (several : 2 ≤ members.reduceOption.length)
    (member : some part ∈ members) : part ∈ given events ∧ part.serial < whole.serial := by
  have kept : whole ∈ given events := mem_given_of_mem made rfl
  obtain ⟨before, later, earlier, rfl, _, rfl, _⟩ := run.allowed_of_mem made
  obtain ⟨single, only, _⟩ | ⟨_, grouped⟩ := earlier.combine_cases members
  · simp [only] at several
  · refine run.books.nested _ kept part ?_
    rw [grouped]
    exact List.reduceOption_mem_iff.mpr member

/-- Cancelling a token leaves alone those that are older. -/
theorem Books.isCancelled_cancel (books : Books start events desk) (member : part ∈ given events)
    (older : part.serial < whole.serial) :
    (desk.cancel whole).isCancelled part = desk.isCancelled part := by
  rw [Bool.eq_iff_iff, isCancelled_iff_contains, isCancelled_iff_contains]
  refine exists_congr fun inner => and_congr_right fun within => ?_
  -- whatever is within the older token is older still, so the flag raised is not among them
  have le := (books.contains member within).2
  have other : inner.serial ≠ whole.serial := by omega
  refine or_congr ?_ ?_
  · simp [TokenDesk.cancel, isRaised, other]
  · cases inner <;> rfl

end TokenDesk

open TokenDesk

/-- **The history of a desk decides what its tokens report.** After every run, a token given out is
cancelled exactly when it reaches, through the combinations made, a token that was cancelled or a
deadline whose seconds have passed since it was made. A token once cancelled stays so in every
longer run. Combining exactly one token gives that token and changes nothing, while a combination of
two or more is never reached from the tokens it was made of, and cancelling it leaves them as they
are. -/
theorem tokens_follow_history (start : Rat) (events : List Event) (desk : TokenDesk)
    (run : Runs start events desk) :
    (∀ token ∈ given events, (desk.isCancelled token = true ↔ ∃ part, Reaches events token part ∧
      (.cancel part ∈ events ∨ Overdue start events part))) ∧
    (∀ later next, Runs start (events ++ later) next → ∀ token ∈ given events,
      desk.isCancelled token = true → next.isCancelled token = true) ∧
    (∀ members token, members.reduceOption = [token] → desk.combine members = (token, desk)) ∧
    (∀ whole members part, .combine whole members ∈ events → 2 ≤ members.reduceOption.length →
      some part ∈ members →
        ¬ Reaches events part whole ∧
        (desk.cancel whole).isCancelled part = desk.isCancelled part) := by
  refine ⟨?_, ?_, ?_, ?_⟩
  · intro token member
    exact run.isCancelled_iff member
  · intro later next longer token member
    exact run.isCancelled_append longer member
  · intro members token single
    simp [combine, single]
  · intro whole members part made several member
    obtain ⟨kept, older⟩ := run.serial_lt_of_combine made several member
    refine ⟨?_, run.books.isCancelled_cancel kept older⟩
    intro reaches
    have := (run.books.contains kept ((run.reaches_iff kept).mp reaches)).2
    omega

/-! ### Nested combinations that share a member -/

/-- A flag that nobody raises. -/
def lamp : Token := .flag 0

/-- A deadline of five seconds, made at time zero. -/
def timer : Token := .deadline 1 .supplied (0 + 5)

/-- The flag and the deadline together. -/
def lampOrTimer : Token := .group 2 [lamp, timer]

/-- A combination that holds the flag twice, once directly. -/
def nestedLamp : Token := .group 3 [lampOrTimer, lamp]

/-- The tokens are made, the flag is combined with nothing else, and the deadline passes. -/
def sharedRun : List Event :=
  [.flag lamp, .deadline timer 5, .combine lampOrTimer [some lamp, none, some timer],
    .combine lamp [none, some lamp], .combine nestedLamp [some lampOrTimer, some lamp], .advance 5]

/-- The desk when the deadline has passed. -/
def sharedDesk : TokenDesk := sharedRun.foldl TokenDesk.after (.start 0)

theorem runs_sharedRun : Runs 0 sharedRun sharedDesk := by
  have made := (Runs.start.step (.flag lamp) rfl).step (.deadline timer 5) rfl
  have paired := made.step (.combine lampOrTimer [some lamp, none, some timer])
    ⟨rfl, by simp [given, Event.issued?]⟩
  have alone := paired.step (.combine lamp [none, some lamp]) ⟨rfl, by simp [given, Event.issued?]⟩
  have nested := alone.step (.combine nestedLamp [some lampOrTimer, some lamp])
    ⟨rfl, by simp [given, Event.issued?]⟩
  exact nested.step (.advance 5) (by norm_num [Allows])

theorem overdue_timer : Overdue 0 sharedRun timer :=
  ⟨[.flag lamp], 5, _, rfl, by norm_num [sharedRun, shown, Event.elapsed]⟩

theorem sharedRun_follows_history :
    Runs 0 sharedRun sharedDesk ∧
    (nestedLamp ∈ given sharedRun ∧ Reaches sharedRun nestedLamp timer ∧
      Overdue 0 sharedRun timer ∧ sharedDesk.isCancelled nestedLamp = true) ∧
    (Runs 0 (sharedRun ++ [.cancel lamp]) (sharedDesk.after (.cancel lamp)) ∧
      (sharedDesk.after (.cancel lamp)).isCancelled nestedLamp = true) ∧
    sharedDesk.combine [none, some lamp] = (lamp, sharedDesk) ∧
    ¬ Reaches sharedRun lamp lampOrTimer ∧
    (sharedDesk.cancel lampOrTimer).isCancelled lamp = sharedDesk.isCancelled lamp := by
  obtain ⟨decided, kept, alone, apart⟩ :=
    tokens_follow_history 0 sharedRun sharedDesk runs_sharedRun
  have member : nestedLamp ∈ given sharedRun := by simp [given, sharedRun, Event.issued?]
  have outer : Joins sharedRun nestedLamp lampOrTimer :=
    ⟨[some lampOrTimer, some lamp], by simp [sharedRun], by simp⟩
  have inner : Joins sharedRun lampOrTimer timer :=
    ⟨[some lamp, none, some timer], by simp [sharedRun], by simp⟩
  have reaches : Reaches sharedRun nestedLamp timer := .tail (.single outer) inner
  have cancelled := (decided nestedLamp member).mpr ⟨timer, reaches, .inr overdue_timer⟩
  have longer := runs_sharedRun.step (.cancel lamp)
    (by simp [Allows, given, sharedRun, Event.issued?])
  exact ⟨runs_sharedRun, ⟨member, reaches, overdue_timer, cancelled⟩,
    ⟨longer, kept _ _ longer nestedLamp member cancelled⟩, alone _ _ rfl,
    apart lampOrTimer [some lamp, none, some timer] lamp (by simp [sharedRun]) (by decide)
      (by simp)⟩

end CallGraph
