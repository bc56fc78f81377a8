/-
**In which order the walk by levels reports.**

`Levels` says what the walk reports; here is how its list stands. `Sweep.Tidy` is what each
reference that is met keeps: what has been seen is what was reported, nothing was reported twice,
depths do not fall, and the level being made is what the reports of its depth name. With the spheres
of `Levels` this goes from round to round (`Sweep.Filed.over`) to the whole walk
(`Related.exists_filed`), so the names at a depth are the level that the breadth-first walk records
there, in the same order. The last level looked at is one below the deepest report, or the depth
that was asked for.

* `related_by_distance`: the callees and the callers of a known method, by distance.
-/

import CallGraph.Proofs.Levels
import CallGraph.Proofs.Walk.Depths

namespace CallGraph

namespace Related

variable {next : String → List Ref} {start : String} {sweep : Sweep} {depth : Nat}

/-! ### One reference -/

/-- The methods reported at a depth, each once, in the order of their first report. -/
def namesAt (entries : List (Ref × Nat)) (depth : Nat) : List String :=
  ((entries.filter fun entry => entry.2 = depth).map fun entry => entry.1.name).eraseDups

theorem namesAt_concat_self (entries : List (Ref × Nat)) (ref : Ref) (depth : Nat) :
    namesAt (entries ++ [(ref, depth)]) depth =
      if ref.name ∈ namesAt entries depth then namesAt entries depth
      else namesAt entries depth ++ [ref.name] := by
  simp only [namesAt, List.filter_append, List.map_append, List.mem_eraseDups]
  rw [List.filter_cons_of_pos (by simp), List.filter_nil, List.map_singleton, eraseDups_concat]

theorem namesAt_concat_of_ne (entries : List (Ref × Nat)) (ref : Ref) {depth round : Nat}
    (other : depth ≠ round) :
    namesAt (entries ++ [(ref, depth)]) round = namesAt entries round := by
  simp only [namesAt, List.filter_append]
  rw [List.filter_cons_of_neg (by simpa using other), List.filter_nil, List.append_nil]

theorem namesAt_eq_nil {entries : List (Ref × Nat)} (none : ∀ entry ∈ entries, entry.2 ≠ depth) :
    namesAt entries depth = [] := by
  have empty : entries.filter (fun entry => entry.2 = depth) = [] := by
    rw [List.filter_eq_nil_iff]
    exact fun entry listed => by simpa using none entry listed
  rw [namesAt, empty]
  rfl

/-- A reference is passed over, or it is new and reported. -/
theorem Sweep.meet_cases (marked : List String) (depth : Nat) (sweep : Sweep) (ref : Ref) :
    sweep.meet marked depth ref = sweep ∨
      ref.key ∉ sweep.seen ∧ sweep.meet marked depth ref =
        ⟨sweep.entries ++ [(ref, depth)], ref.key :: sweep.seen,
          if ref.name ∈ sweep.level then sweep.level else sweep.level ++ [ref.name]⟩ := by
  unfold Sweep.meet
  split
  · exact Or.inl rfl
  · rename_i new
    refine Or.inr ⟨fun old => new (by simp [old]), ?_⟩
    simp only [List.contains_iff_mem]

/-- What holds of a sweep while it makes the level of a depth. -/
structure Sweep.Tidy (sweep : Sweep) (depth : Nat) : Prop where
  seen : sweep.seen = (sweep.entries.map fun entry => entry.1.key).reverse
  once : (sweep.entries.map fun entry => entry.1.key).Nodup
  ordered : (sweep.entries.map Prod.snd).Pairwise (· ≤ ·)
  latest : ∀ entry ∈ sweep.entries, entry.2 ≤ depth
  level : sweep.level = namesAt sweep.entries depth

/-- **One reference** leaves a sweep tidy. -/
theorem Sweep.Tidy.meet (tidy : sweep.Tidy depth) (marked : List String) (ref : Ref) :
    (sweep.meet marked depth ref).Tidy depth := by
  rcases sweep.meet_cases marked depth ref with same | ⟨new, met⟩
  · rw [same]
    exact tidy
  · rw [met]
    refine ⟨?_, ?_, ?_, ?_, ?_⟩
    · simp [tidy.seen]
    · rw [tidy.seen, List.mem_reverse] at new
      rw [List.map_append, List.map_singleton, ← List.concat_eq_append]
      exact tidy.once.concat new
    · rw [List.map_append, List.map_singleton, List.pairwise_append]
      refine ⟨tidy.ordered, List.pairwise_singleton _ _, fun first listed last isLast => ?_⟩
      obtain ⟨entry, reported, rfl⟩ := List.mem_map.mp listed
      rw [List.mem_singleton.mp isLast]
      exact tidy.latest entry reported
    · intro entry listed
      rcases List.mem_append.mp listed with old | isNew
      · exact tidy.latest entry old
      · rw [List.mem_singleton.mp isNew]
    · rw [namesAt_concat_self, ← tidy.level]

theorem Sweep.Tidy.foldl_meet (tidy : sweep.Tidy depth) (marked : List String) (refs : List Ref) :
    (refs.foldl (Sweep.meet marked depth) sweep).Tidy depth := by
  induction refs generalizing sweep with
  | nil => exact tidy
  | cons ref rest ih => exact ih (tidy.meet marked ref)

/-- A sweep that has made a level is ready for the next. -/
theorem Sweep.Tidy.clear (tidy : sweep.Tidy depth) :
    Sweep.Tidy { sweep with level := [] } (depth + 1) where
  seen := tidy.seen
  once := tidy.once
  ordered := tidy.ordered
  latest entry listed := Nat.le_succ_of_le (tidy.latest entry listed)
  level := by
    refine (namesAt_eq_nil fun entry listed => ?_).symm
    have before := tidy.latest entry listed
    omega

/-- References met at one depth change nothing that is reported at another. -/
theorem namesAt_foldl_meet (marked : List String) (refs : List Ref) (sweep : Sweep) {round : Nat}
    (other : depth ≠ round) :
    namesAt (refs.foldl (Sweep.meet marked depth) sweep).entries round =
      namesAt sweep.entries round := by
  induction refs generalizing sweep with
  | nil => rfl
  | cons ref rest ih =>
    rw [List.foldl_cons, ih]
    rcases sweep.meet_cases marked depth ref with same | ⟨-, met⟩
    · rw [same]
    · rw [met, namesAt_concat_of_ne _ _ other]

/-! ### One level -/

/-- The sweep after a number of rounds, with its reports in order. -/
structure Sweep.Filed (next : String → List Ref) (start : String) (rounds : Nat) (sweep : Sweep) :
    Prop where
  after : sweep.After next start rounds
  ready : Sweep.Tidy { sweep with level := [] } (rounds + 1)
  named : ∀ round, 1 ≤ round → round ≤ rounds →
    namesAt sweep.entries round = sphere (refNames next) start round

theorem Sweep.Filed.initial (next : String → List Ref) (start : String) :
    Sweep.Filed next start 0 ⟨[], [], [start]⟩ where
  after := .initial next start
  ready := ⟨rfl, List.nodup_nil, List.Pairwise.nil, fun _ listed => (List.not_mem_nil listed).elim,
    rfl⟩
  named _ least most := absurd (Nat.le_trans least most) (by decide)

/-- **One round** puts its reports behind those of the rounds before. -/
theorem Sweep.Filed.over {rounds : Nat} (filed : sweep.Filed next start rounds) :
    (sweep.over next (ball (refNames next) start rounds) (rounds + 1) sweep.level).Filed next start
      (rounds + 1) := by
  have swept := filed.after.over
  have tidy := filed.ready.foldl_meet (ball (refNames next) start rounds)
    (sweep.level.flatMap next)
  refine ⟨swept, tidy.clear, fun round least most => ?_⟩
  by_cases last : rounds + 1 = round
  · subst last
    rw [← swept.level]
    exact tidy.level.symm
  · rw [← filed.named round least (by omega)]
    exact namesAt_foldl_meet _ _ { sweep with level := [] } last

/-! ### The whole walk -/

/-- The walk from the end of a round on, by induction on the levels left. -/
theorem exists_filed_from (more : Nat) {rounds : Nat} (filed : sweep.Filed next start rounds) :
    ∃ last : Sweep,
      (levels next more rounds (ball (refNames next) start rounds) sweep).1 = last.entries ∧
      last.Filed next start
        (levels next more rounds (ball (refNames next) start rounds) sweep).2 := by
  induction more generalizing rounds sweep with
  | zero => exact ⟨sweep, rfl, filed⟩
  | succ more ih =>
    have swept := filed.over
    rw [levels]
    split
    · exact ⟨_, rfl, swept⟩
    · rw [swept.after.ball_append_level]
      exact ih swept

theorem exists_filed (next : String → List Ref) (start : String) (most : Nat) :
    ∃ last : Sweep, (levels next most 0 [start] ⟨[], [], [start]⟩).1 = last.entries ∧
      last.Filed next start (levels next most 0 [start] ⟨[], [], [start]⟩).2 :=
  exists_filed_from most (.initial next start)

/-- **The names at a depth** are the methods at that distance, in the order of the spheres. -/
theorem namesAt_levels (next : String → List Ref) (start : String) (most : Nat) {round : Nat}
    (least : 1 ≤ round) :
    namesAt (levels next most 0 [start] ⟨[], [], [start]⟩).1 round =
      if round ≤ most then sphere (refNames next) start round else [] := by
  obtain ⟨-, isLast⟩ := levels_reports next start most
  obtain ⟨last, entries, filed⟩ := exists_filed next start most
  have within := isLast.within
  by_cases looked : round ≤ (levels next most 0 [start] ⟨[], [], [start]⟩).2
  · rw [entries, filed.named round least looked, if_pos (by omega)]
  · -- beyond the last level nothing is reported, and nothing is as far away
    have silent : namesAt last.entries round = [] := by
      refine namesAt_eq_nil fun entry listed same => looked ?_
      rw [← same]
      exact ((filed.after.entries entry.1.key entry.2).mp (List.mem_map.mpr ⟨entry, listed, rfl⟩)).1
    rw [entries, silent]
    split
    · rename_i inside
      by_contra members
      obtain ⟨name, near⟩ := sphere_ne_nil_iff.mp (Ne.symm members)
      obtain ⟨other, nearer⟩ := near.exists_of_le (Nat.le_of_not_le looked)
      exact isLast.empty (by omega) other nearer
    · rfl

/-- **The last level looked at** is the one behind the deepest report, or the depth asked for. -/
theorem snd_levels_eq (next : String → List Ref) (start : String) (most : Nat) :
    (levels next most 0 [start] ⟨[], [], [start]⟩).2 =
      min most
        (1 + ((levels next most 0 [start] ⟨[], [], [start]⟩).1.map Prod.snd).max?.getD 0) := by
  obtain ⟨reported, isLast⟩ := levels_reports next start most
  generalize levels next most 0 [start] ⟨[], [], [start]⟩ = found at reported isLast ⊢
  have deepest : ∀ depth ∈ found.1.map Prod.snd, depth ≤ (found.1.map Prod.snd).max?.getD 0 :=
    fun depth listed => List.le_max?_getD_of_mem listed
  have reached : ∃ name,
      Nearest (refNames next) ((found.1.map Prod.snd).max?.getD 0) start name := by
    cases greatest : (found.1.map Prod.snd).max? with
    | none => exact ⟨start, nearest_zero_iff.mpr rfl⟩
    | some depth =>
      obtain ⟨entry, listed, rfl⟩ := List.mem_map.mp (List.max?_mem greatest)
      obtain ⟨-, met⟩ := (reported entry.1.key entry.2).mp (List.mem_map.mpr ⟨entry, listed, rfl⟩)
      exact ⟨_, met.nearest⟩
  generalize (found.1.map Prod.snd).max?.getD 0 = greatest at deepest reached ⊢
  refine isLast.unique ⟨Nat.min_le_left _ _, fun round less => ?_, fun less name near => ?_⟩
  · obtain ⟨name, near⟩ := reached
    exact near.exists_of_le (by omega)
  · have behind : min most (1 + greatest) = 1 + greatest := by omega
    rw [behind] at near
    obtain ⟨site, met⟩ := exists_met_iff.mpr ⟨Nat.le_add_right 1 greatest, near⟩
    obtain ⟨entry, listed, same⟩ := List.mem_map.mp ((reported _ _).mpr ⟨by omega, met⟩)
    have deeper := deepest entry.2 (List.mem_map_of_mem listed)
    have depth : entry.2 = 1 + greatest := (Prod.mk.inj same).2
    omega

end Related

/-! ### Answers -/

/-- **An answer by distance**: what a query reports of a method, given the references that it goes
along, how far away methods are, the depth, and the breadth-first walk along the same references. -/
structure Related.ByDistance (related : Related) (next : String → List Ref)
    (away : Nat → String → Prop) (start : String) (most : Nat) (reach : Reach) : Prop where
  /-- A method is reported exactly at its distance, with every site at which a method one call
  nearer has a reference to it. -/
  reported : ∀ name place depth, 1 ≤ depth →
    ((name, depth, place) ∈ related.entries.map RelatedMethod.key ↔
      name ≠ start ∧ depth ≤ most ∧ away depth name ∧ ∃ site method, place = some site ∧
        away (depth - 1) method ∧ (name, site) ∈ (next method).map Ref.key)
  /-- No method is reported with the same site twice. -/
  once : (related.entries.map fun entry => (entry.name, entry.site.map Site.key?)).Nodup
  /-- Depths never fall. -/
  ordered : (related.entries.map RelatedMethod.depth).Pairwise (· ≤ ·)
  /-- The distinct methods at a depth are the level of the breadth-first walk. -/
  levels : ∀ depth, 1 ≤ depth →
    ((related.entries.filter fun entry => entry.depth = depth).map RelatedMethod.name).eraseDups =
      (reach.levels.lookup depth).getD []
  /-- The last level looked at is the one behind the deepest report, or the depth. -/
  reached : related.reached =
    min most (1 + (related.entries.map RelatedMethod.depth).max?.getD 0)

/-- The method itself, at depth 0 and without a site, changes nothing when it stands before the
others. -/
theorem Related.ByDistance.cons_self {related : Related} {next : String → List Ref}
    {away : Nat → String → Prop} {start : String} {most : Nat} {reach : Reach}
    (chart : related.ByDistance next away start most reach)
    (positive : ∀ entry ∈ related.entries, 1 ≤ entry.depth) {self : RelatedMethod}
    (isSelf : self.key = (start, 0, none)) :
    Related.ByDistance { related with entries := self :: related.entries } next away start most
      reach := by
  have zero : self.depth = 0 := congrArg (fun key => key.2.1) isSelf
  have siteless : self.site.map Site.key? = none := congrArg (fun key => key.2.2) isSelf
  refine ⟨fun name place depth least => ?_, ?_, ?_, fun depth least => ?_, ?_⟩
  · have other : (name, depth, place) ≠ self.key := by
      rw [isSelf]
      intro same
      have none : depth = 0 := (Prod.mk.inj (Prod.mk.inj same).2).1
      omega
    rw [List.map_cons, List.mem_cons, or_iff_right other]
    exact chart.reported name place depth least
  · rw [List.map_cons, List.nodup_cons]
    refine ⟨fun listed => ?_, chart.once⟩
    obtain ⟨entry, member, same⟩ := List.mem_map.mp listed
    obtain ⟨-, -, -, site, -, sited, -⟩ := (chart.reported _ _ _ (positive entry member)).mp
      (List.mem_map_of_mem (f := RelatedMethod.key) member)
    rw [sited, siteless] at same
    cases (Prod.mk.inj same).2
  · rw [List.map_cons, zero, List.pairwise_cons]
    exact ⟨fun depth _ => Nat.zero_le depth, chart.ordered⟩
  · have other : ¬ self.depth = depth := by omega
    rw [List.filter_cons_of_neg (by simpa using other)]
    exact chart.levels depth least
  · rw [List.map_cons, zero, List.max?_cons, chart.reached]
    cases (related.entries.map RelatedMethod.depth).max? with
    | none => rfl
    | some depth => simp

theorem Reach.getD_lookup_levels (reach : Reach) (depth : Nat) :
    (reach.levels.lookup depth).getD [] = reach.level depth := by
  by_cases listed : depth ∈ reach.depths
  · rw [Reach.levels, List.lookup_graph _ listed]
    rfl
  · have absent : reach.levels.lookup depth = none := by
      rw [List.lookup_eq_none_iff]
      intro level member
      obtain ⟨other, isDepth, rfl⟩ := List.mem_map.mp member
      exact bne_iff_ne.mpr fun same => listed (same ▸ isDepth)
    have empty : reach.level depth = [] := by
      refine List.eq_nil_iff_forall_not_mem.mpr fun name inLevel => listed ?_
      exact List.mem_eraseDups.mpr
        (List.mem_map.mpr ⟨_, (reach.mem_level_iff name depth).mp inLevel, rfl⟩)
    rw [absent, empty]
    rfl

namespace Service

variable {service : Service} {next : String → List Ref} {name : String}

@[simp]
theorem name_relatedMethod (name : String) (depth : Nat) (site : Option Site) :
    (service.relatedMethod name depth site).name = name :=
  congrArg Prod.fst (service.key_relatedMethod name depth site)

@[simp]
theorem depth_relatedMethod (name : String) (depth : Nat) (site : Option Site) :
    (service.relatedMethod name depth site).depth = depth :=
  congrArg (fun key => key.2.1) (service.key_relatedMethod name depth site)

@[simp]
theorem site_relatedMethod (name : String) (depth : Nat) (site : Option Site) :
    (service.relatedMethod name depth site).site.map Site.key? = site.map Site.key? :=
  congrArg (fun key => key.2.2) (service.key_relatedMethod name depth site)

/-- The method itself stands before all others and has no site. -/
theorem answer_true_eq (service : Service) (next : String → List Ref) (query : String × Nat) :
    service.answer next true query =
      { service.answer next false query with
        entries := service.relatedMethod query.1 0 none ::
          (service.answer next false query).entries } := rfl

section Entries

variable (service next name) (most : Nat)

/-- The identities of an answer's entries are those of the references reported. -/
theorem map_identity_answer :
    ((service.answer next false (name, most)).entries.map fun entry =>
        (entry.name, entry.site.map Site.key?)) =
      ((Related.levels next most 0 [name] ⟨[], [], [name]⟩).1.map fun entry => entry.1.key).map
        fun key => (key.1, some key.2) := by
  simp [answer, Function.comp_def, Ref.key]

theorem map_depth_answer :
    (service.answer next false (name, most)).entries.map RelatedMethod.depth =
      (Related.levels next most 0 [name] ⟨[], [], [name]⟩).1.map Prod.snd := by
  simp [answer, Function.comp_def]

theorem namesAt_answer (depth : Nat) :
    (((service.answer next false (name, most)).entries.filter fun entry =>
        entry.depth = depth).map RelatedMethod.name).eraseDups =
      Related.namesAt (Related.levels next most 0 [name] ⟨[], [], [name]⟩).1 depth := by
  simp [answer, Related.namesAt, List.filter_map, Function.comp_def]

end Entries

/-- What an answer reports at a depth. -/
theorem mem_key_answer_of_pos {most depth : Nat} {other : String}
    {place : Option (Option Site.Key)} (least : 1 ≤ depth) :
    (other, depth, place) ∈
        (service.answer next false (name, most)).entries.map RelatedMethod.key ↔
      other ≠ name ∧ depth ≤ most ∧ Nearest (refNames next) depth name other ∧
        ∃ site method, place = some site ∧ Nearest (refNames next) (depth - 1) name method ∧
          (other, site) ∈ (next method).map Ref.key := by
  obtain ⟨before, rfl⟩ : ∃ before, depth = before + 1 := ⟨depth - 1, by omega⟩
  rw [mem_key_answer_iff]
  constructor
  · rintro (⟨wrong, -⟩ | ⟨within, site, isSite, near, method, nearer, listed⟩)
    · cases wrong
    · refine ⟨?_, within, near, site, method, isSite, nearer, listed⟩
      rintro rfl
      exact absurd (near.least 0 (.refl _)) (Nat.not_succ_le_zero before)
  · rintro ⟨-, within, near, site, method, isSite, nearer, listed⟩
    exact Or.inr ⟨within, site, isSite, near, method, nearer, listed⟩

/-- Nothing but the method itself is reported at no depth. -/
theorem depth_pos_of_mem_answer {most : Nat} {entry : RelatedMethod}
    (listed : entry ∈ (service.answer next false (name, most)).entries) : 1 ≤ entry.depth := by
  rcases mem_key_answer_iff.mp (List.mem_map_of_mem (f := RelatedMethod.key) listed) with
    ⟨wrong, -⟩ | ⟨-, place, -, met⟩
  · cases wrong
  · by_contra zero
    rw [Nat.lt_one_iff.mp (Nat.not_le.mp zero)] at met
    exact met

/-- **An answer is by distance**, with or without the method itself. -/
theorem byDistance_answer (service : Service) {most : Nat} {reach : Reach}
    (visits : reach.visits.toList = timedBall (refNames next) name most)
    {away : Nat → String → Prop}
    (isAway : ∀ hops other, away hops other ↔ Nearest (refNames next) hops name other)
    (includeSelf : Bool) :
    (service.answer next includeSelf (name, most)).ByDistance next away name most reach := by
  have plain : (service.answer next false (name, most)).ByDistance next away name most reach := by
    obtain ⟨last, entries, filed⟩ := Related.exists_filed next name most
    refine ⟨fun other place depth least => ?_, ?_, ?_, fun depth least => ?_, ?_⟩
    · simp only [isAway]
      exact mem_key_answer_of_pos least
    · rw [map_identity_answer, entries]
      refine filed.ready.once.map fun first second same => ?_
      obtain ⟨names, sites⟩ := Prod.mk.inj same
      exact Prod.ext names (Option.some.inj sites)
    · rw [map_depth_answer, entries]
      exact filed.ready.ordered
    · rw [namesAt_answer, Related.namesAt_levels _ _ _ least, Reach.getD_lookup_levels,
        Reach.level_of_visits visits]
    · rw [map_depth_answer]
      exact Related.snd_levels_eq next name most
  cases includeSelf with
  | false => exact plain
  | true =>
    rw [answer_true_eq]
    exact plain.cons_self (fun _ listed => service.depth_pos_of_mem_answer listed)
      (service.key_relatedMethod name 0 none)

end Service

/-- The index with its two directions exchanged: where a method had callers it has callees, and
where it had callees it has callers. -/
def Index.turned (index : Index) : Index :=
  { index with callees := index.callers, callers := index.callees }

/-- **The answers to a query by distance**, asked without and with the method itself. -/
structure AnswersByDistance (ask : Bool → Except QueryError Related) (next : String → List Ref)
    (away : Nat → String → Prop) (start : String) (most : Nat) (reach : Reach) : Prop where
  answered : ∀ includeSelf, ∃ related, ask includeSelf = .ok related ∧
    related.ByDistance next away start most reach
  /-- Asking for the method itself puts it, at depth 0 and without a site, before the others, and
  nothing else is at depth 0. -/
  withSelf : ∃ plain self, ask false = .ok plain ∧ (∀ entry ∈ plain.entries, 1 ≤ entry.depth) ∧
    ask true = .ok { plain with entries := self :: plain.entries } ∧ self.key = (start, 0, none)

theorem Service.Knows.answersByDistance {service : Service} {name : String}
    (knows : service.Knows name) {depth : Int} (deep : 1 ≤ depth)
    (within : depth ≤ service.settings.maxDepthLimit.1) {next : String → List Ref} {reach : Reach}
    (visits : reach.visits.toList = timedBall (refNames next) name depth.toNat)
    {away : Nat → String → Prop}
    (isAway : ∀ hops other, away hops other ↔ Nearest (refNames next) hops name other) :
    AnswersByDistance (service.related next (.text name) (some depth)) next away name depth.toNat
      reach where
  answered includeSelf := ⟨_, knows.related_eq_ok deep within next includeSelf,
    service.byDistance_answer visits isAway includeSelf⟩
  withSelf := ⟨_, _, knows.related_eq_ok deep within next false,
    fun _ listed => service.depth_pos_of_mem_answer listed,
    knows.related_eq_ok deep within next true, service.key_relatedMethod name 0 none⟩

/-- **Callees and callers by distance.** For a known method and a depth within the limit, asked with
or without the method itself: the callees are those of the shortest call paths from it, each at its
distance with every site at which a method one call nearer calls it, and depth by depth they are the
levels of the breadth-first walk; the callers are the same for the call paths to it and the walk
against the calls. -/
theorem related_by_distance {service : Service} (built : service.index.Built) {name : String}
    (knows : service.Knows name) {depth : Int} (deep : 1 ≤ depth)
    (within : depth ≤ service.settings.maxDepthLimit.1) :
    (∃ reach, service.index.reach name depth .never = .ok reach ∧
      AnswersByDistance (service.callees (.text name) (some depth)) service.index.calleesOf
        (fun hops other => Nearest service.index.calleeNames hops name other) name depth.toNat
        reach) ∧
    ∃ reach, service.index.turned.reach name depth .never = .ok reach ∧
      AnswersByDistance (service.callers (.text name) (some depth)) service.index.callersOf
        (fun hops other => Nearest service.index.calleeNames hops other name) name depth.toNat
        reach := by
  constructor
  · exact ⟨_, Index.reach_of_known knows.known deep .never,
      knows.answersByDistance deep within (Reach.visits_search name) fun _ _ => Iff.rfl⟩
  · have known : service.index.turned.hasMethod name = true := knows.known
    refine ⟨_, Index.reach_of_known known deep .never,
      knows.answersByDistance deep within (Reach.visits_search name) fun hops other => ?_⟩
    exact nearest_reverse built.mem_calleeNames_iff

theorem stockIndex_related_to_take :
    stockIndex.Built ∧ Service.Knows ⟨stockIndex, .standard⟩ "Shop.Stock.Take" ∧
      ∃ callees callers,
        Service.callees ⟨stockIndex, .standard⟩ (.text "Shop.Stock.Take") (some 2) false =
          .ok callees ∧
        Service.callers ⟨stockIndex, .standard⟩ (.text "Shop.Stock.Take") (some 2) true =
          .ok callers ∧
        ("Shop.Order.Place", 1, some (some ⟨.text "Program.cs", .int 31⟩)) ∈
          callees.entries.map RelatedMethod.key ∧
        ("Web.Cart.Open", 2, some (some ⟨.text "Program.cs", .int 5⟩)) ∈
          callers.entries.map RelatedMethod.key ∧
        (callers.entries.map RelatedMethod.depth).Pairwise (· ≤ ·) := by
  have built : stockIndex.Built := .of_ofEdges stockIndex_eq
  have knows : Service.Knows ⟨stockIndex, .standard⟩ "Shop.Stock.Take" :=
    ⟨by decide, by decide, by decide⟩
  obtain ⟨⟨forward, -, below⟩, backward, -, above⟩ :=
    @related_by_distance ⟨stockIndex, .standard⟩ built _ knows 2 (by decide) (by decide)
  obtain ⟨callees, calls, calleesChart⟩ := below.answered false
  obtain ⟨callers, called, callersChart⟩ := above.answered true
  refine ⟨built, knows, callees, callers, calls, called, ?_, ?_, callersChart.ordered⟩
  · refine (calleesChart.reported _ _ 1 (by decide)).mpr ⟨by decide, by decide, ?_⟩
    exact ⟨mem_sphere_iff.mp (by decide), _, "Shop.Stock.Take", rfl, nearest_zero_iff.mpr rfl,
      by decide⟩
  · refine (callersChart.reported _ _ 2 (by decide)).mpr ⟨by decide, by decide, ?_⟩
    exact ⟨mem_sphere_iff.mp (by decide), _, "Shop.Order.Price", rfl,
      mem_sphere_iff.mp (by decide), by decide⟩

end CallGraph
