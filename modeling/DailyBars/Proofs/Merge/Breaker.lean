import DailyBars.Proofs.Merge.Visits

/-! # When the breaker trips

The breaker shuts a source after so many outages in a row. They are counted since the last success,
and since the last attempt that began with the end of a block; whatever else the attempts come to
makes no difference to the count, and neither do other sources.
-/

namespace DailyBars

variable {ω : Type}

/-! ## Outages in a row -/

/-- The source was out of reach, at the last request if there were two. -/
def Outcome.isOutage : Outcome → Bool
  | .failed (.unavailable _) => true
  | _ => false

/-- Reading the gate at the start of the visit cleared a block that had run out, if it let the visit
through. -/
def Visit.clears (v : Visit ω) : Bool := (v.market.standing v.source).blockedUntil.isSome

/-- The attempts on a source among these visits, from the last to the first. -/
def attemptsOn (source : String) (visits : List (Visit ω)) : List (Visit ω) :=
  (visits.filter fun v => v.source == source && v.outcome.called).reverse

/-- The attempts since the last success, and since the last one that began with the end of a block;
that one counts. The attempts are given from the last to the first. -/
def stretch : List (Visit ω) → List (Visit ω)
  | [] => []
  | v :: earlier =>
    if v.outcome.answered then []
    else v :: if v.clears then [] else stretch earlier

/-- The outages of a source that count towards its breaker. -/
def outagesInRow (source : String) (visits : List (Visit ω)) : Nat :=
  (stretch (attemptsOn source visits)).countP fun v => v.outcome.isOutage

/-- Only a visit that calls the source changes its row of outages. -/
theorem outagesInRow_of_other {source : String} {visits : List (Visit ω)} {v : Visit ω}
    (h : ¬ (v.source = source ∧ v.outcome.called = true)) :
    outagesInRow source (visits ++ [v]) = outagesInRow source visits := by
  have hnone : attemptsOn source (visits ++ [v]) = attemptsOn source visits := by
    have hdropped : (v.source == source && v.outcome.called) = false := by
      rw [Bool.eq_false_iff]
      simpa using h
    simp [attemptsOn, hdropped]
  rw [outagesInRow, hnone, outagesInRow]

/-- What one more attempt makes of the count. -/
theorem outagesInRow_of_called (visits : List (Visit ω)) {v : Visit ω}
    (h : v.outcome.called = true) :
    outagesInRow v.source (visits ++ [v])
      = if v.outcome.answered then 0
        else (if v.clears then 0 else outagesInRow v.source visits)
          + if v.outcome.isOutage then 1 else 0 := by
  have hlast : attemptsOn v.source (visits ++ [v]) = v :: attemptsOn v.source visits := by
    simp [attemptsOn, h]
  rw [outagesInRow, hlast, stretch]
  split
  · rfl
  · rw [List.countP_cons]
    split
    · rfl
    · rfl

/-! ## Gates and ends of attempts -/

namespace Standing

/-- What reading the gate does to the block and to the failures: an open gate leaves no block, and the
end of one clears the failures; a shut gate leaves both. -/
def Reads (s : Standing) (read : Gate × Standing) : Prop :=
  read.1 = .opened ∧ read.2.blockedUntil = none
      ∧ read.2.failures = (if s.blockedUntil.isSome then 0 else s.failures)
    ∨ read.1 ≠ .opened ∧ read.2.blockedUntil = s.blockedUntil ∧ read.2.failures = s.failures

/-- Lifting an expired block is read off the standing, -/
theorem reads_unblock (s : Standing) (now : Instant) : s.Reads (gate.unblock now s) := by
  unfold gate.unblock
  cases hblock : s.blockedUntil with
  | none => exact Or.inl ⟨rfl, hblock, by rw [hblock]; rfl⟩
  | some release =>
    simp only
    by_cases hlt : now < release
    · rw [if_pos hlt]
      exact Or.inr ⟨nofun, rfl, rfl⟩
    · rw [if_neg hlt]
      exact Or.inl ⟨rfl, rfl, by rw [hblock]; rfl⟩

/-- and so is the gate. -/
theorem reads_gate (s : Standing) (now : Instant) : s.Reads (s.gate now) := by
  unfold gate
  cases hday : s.disabledUntil with
  | none => exact s.reads_unblock now
  | some day =>
    simp only
    by_cases hlt : now.day < day
    · rw [if_pos hlt]
      exact Or.inr ⟨nofun, rfl, rfl⟩
    · rw [if_neg hlt]
      exact reads_unblock { s with disabledUntil := none } now

end Standing

/-- The time to wait that the source asked for. -/
def Outcome.wait? : Outcome → Option Duration
  | .failed (.rateLimited retryAfter) => retryAfter
  | _ => none

namespace Engine

/-- The end of an attempt and the failures. -/
theorem settle_failures (e : Engine ω) (q : Query) (answer : Except Failure (List Bar))
    (now : Instant) (s : Standing) :
    (e.settle answer now s).failures
      = if (e.outcomeOf q answer).answered then 0
        else s.failures + if (e.outcomeOf q answer).isOutage then 1 else 0 := by
  cases answer with
  | ok rows => rfl
  | error failure =>
    cases failure with
    | unavailable detail => exact s.failures_fail e.limits.breaker now
    | rateLimited retryAfter => cases retryAfter <;> rfl
    | notFound symbol => rfl
    | malformed detail => rfl
    | invalidSymbol symbol reason => rfl

/-- The block that the end of an attempt brings. -/
theorem settle_blockedUntil (e : Engine ω) (q : Query) (answer : Except Failure (List Bar))
    (now : Instant) {s : Standing} (h : s.blockedUntil = none) :
    (e.settle answer now s).blockedUntil
      = if (e.outcomeOf q answer).isOutage = true ∧ e.limits.breaker.threshold ≤ s.failures + 1 then
          some (now.plus e.limits.breaker.cooldown.addable)
        else (e.outcomeOf q answer).wait?.map fun wait => now.plus wait.addable := by
  cases answer with
  | ok rows => exact h
  | error failure =>
    cases failure with
    | unavailable detail =>
      show (s.fail e.limits.breaker now).blockedUntil = _
      rw [Standing.fail_def, Standing.blockFor_def]
      simp only [outcomeOf, Outcome.isOutage, Outcome.wait?, true_and, Option.map_none, h]
      split
      · rfl
      · rfl
    | rateLimited retryAfter =>
      cases retryAfter with
      | none => exact h
      | some wait =>
        show (s.blockFor now wait).blockedUntil = _
        rw [Standing.blockFor_def, h]
        rfl
    | notFound symbol => exact h
    | malformed detail => exact h
    | invalidSymbol symbol reason => exact h

end Engine

/-! ## The law of the breaker -/

/-- The attempt ended with a block that was not there before, and that the source did not ask for. -/
structure Visit.Tripped (v : Visit ω) : Prop where
  called : v.outcome.called = true
  free : v.gated.blockedUntil = none
  blocked : v.settled.blockedUntil ≠ none
  unasked : v.outcome.wait? = none

/-- What an attempt does to the breaker, after the visits in `past`. -/
structure Visit.Minds (v : Visit ω) (breaker : Breaker) (past : List (Visit ω)) : Prop where
  trips : v.Tripped ↔ v.outcome.isOutage = true
    ∧ breaker.threshold ≤ outagesInRow v.source (past ++ [v])
  block : v.Tripped →
    v.settled.blockedUntil = some (v.after.now.plus breaker.cooldown.addable)
  counter : v.settled.failures = outagesInRow v.source (past ++ [v])
  bounded : v.settled.failures ≤ breaker.threshold
  neutral : v.outcome.answered = false → v.outcome.isOutage = false →
    v.settled.failures = v.gated.failures
  apart : ∀ other, other ≠ v.source → v.after.standing other = v.market.standing other

/-- What the standings say of the visits so far. -/
structure Market.Counts (m : Market ω) (breaker : Breaker) (past : List (Visit ω)) : Prop where
  inCalendar : m.now.InCalendar
  failures : ∀ source, (m.standing source).failures = outagesInRow source past
  bounded : ∀ source, (m.standing source).failures ≤ breaker.threshold
  unblocked : ∀ source, (m.standing source).blockedUntil = none →
    (m.standing source).failures < breaker.threshold
  held : ∀ v ∈ past, v.Tripped → v.after.now.plus breaker.cooldown.addable ≤ m.now
    ∨ ∃ release, (m.standing v.source).blockedUntil = some release
      ∧ v.after.now.plus breaker.cooldown.addable ≤ release

namespace Visit

variable {v : Visit ω} {breaker : Breaker} {past : List (Visit ω)}

/-- An outage is no answer -/
theorem answered_of_outage {o : Outcome} (h : o.isOutage = true) : o.answered = false := by
  unfold Outcome.isOutage at h
  split at h
  · rfl
  · cases h

/-- and asks for no wait. -/
theorem wait?_of_outage {o : Outcome} (h : o.isOutage = true) : o.wait? = none := by
  unfold Outcome.isOutage at h
  split at h
  · rfl
  · cases h

/-- Behind an open gate the failures are those that count, and there are fewer than would trip the
breaker. -/
theorem gated_of_called (h : v.market.Counts breaker past) (hn : 1 ≤ breaker.threshold)
    (hcalled : v.outcome.called = true) :
    v.gated.blockedUntil = none
      ∧ v.gated.failures = (if v.clears then 0 else outagesInRow v.source past)
      ∧ v.gated.failures < breaker.threshold := by
  have hopen : ((v.market.standing v.source).gate v.market.now).1 = .opened :=
    (v.outcome_called.1 hcalled).2
  rcases (v.market.standing v.source).reads_gate v.market.now with
    ⟨-, hblock, hfailures⟩ | ⟨hclosed, -⟩
  · refine ⟨hblock, ?_, ?_⟩
    · rw [← h.failures v.source]
      exact hfailures
    · show ((v.market.standing v.source).gate v.market.now).2.failures < _
      rw [hfailures]
      cases hsome : (v.market.standing v.source).blockedUntil with
      | none => exact h.unblocked v.source hsome
      | some release => exact hn
  · exact absurd hopen hclosed

section Called

variable (h : v.market.Counts breaker past) (hn : 1 ≤ breaker.threshold)
variable (hbreaker : v.engine.limits.breaker = breaker) (hcalled : v.outcome.called = true)
include h hn hbreaker hcalled

/-- The failures and the block that an attempt leaves. -/
theorem settled_of_called :
    v.settled.failures = (if v.outcome.answered then 0
        else v.gated.failures + if v.outcome.isOutage then 1 else 0)
      ∧ v.settled.blockedUntil
        = if v.outcome.isOutage = true ∧ breaker.threshold ≤ v.gated.failures + 1 then
            some (v.after.now.plus breaker.cooldown.addable)
          else v.outcome.wait?.map fun wait => v.after.now.plus wait.addable := by
  obtain ⟨hfree, -, -⟩ := gated_of_called h hn hcalled
  obtain ⟨answer, last, houtcome, hsettled⟩ := v.exists_settle hcalled
  have hfailures := v.engine.settle_failures v.query answer v.after.now
    { v.gated with lastRequest := last }
  have hblock := v.engine.settle_blockedUntil v.query answer v.after.now
    (s := { v.gated with lastRequest := last }) hfree
  rw [← hsettled, ← houtcome] at hfailures hblock
  rw [hbreaker] at hblock
  exact ⟨hfailures, hblock⟩

/-- After a call the counter is the row of outages with it. -/
theorem counter_of_called : v.settled.failures = outagesInRow v.source (past ++ [v]) := by
  rw [(settled_of_called h hn hbreaker hcalled).1, outagesInRow_of_called past hcalled,
    (gated_of_called h hn hcalled).2.1]

/-- The breaker trips on an outage that brings the failures up to its threshold. -/
theorem tripped_iff : v.Tripped
    ↔ v.outcome.isOutage = true ∧ breaker.threshold ≤ v.gated.failures + 1 := by
  obtain ⟨hfree, -, -⟩ := gated_of_called h hn hcalled
  have hblock := (settled_of_called h hn hbreaker hcalled).2
  constructor
  · intro htripped
    apply Decidable.byContradiction
    intro hnot
    -- a block that the breaker did not bring was asked for
    rw [if_neg hnot, htripped.unasked] at hblock
    exact htripped.blocked hblock
  · intro hreached
    rw [if_pos hreached] at hblock
    exact ⟨hcalled, hfree, by rw [hblock]; nofun, wait?_of_outage hreached.1⟩

/-- There are never more failures than trip the breaker, and fewer unless the source is blocked. -/
theorem failures_of_called : v.settled.failures ≤ breaker.threshold
    ∧ (v.settled.blockedUntil = none → v.settled.failures < breaker.threshold) := by
  obtain ⟨-, -, hbelow⟩ := gated_of_called h hn hcalled
  obtain ⟨hfailures, hblock⟩ := settled_of_called h hn hbreaker hcalled
  by_cases houtage : v.outcome.isOutage = true
  · rw [answered_of_outage houtage, if_neg Bool.false_ne_true, if_pos houtage] at hfailures
    refine ⟨by omega, fun hnone => ?_⟩
    apply Nat.lt_of_not_le
    intro hreached
    rw [if_pos ⟨houtage, by omega⟩] at hblock
    rw [hblock] at hnone
    cases hnone
  · have hless : v.settled.failures < breaker.threshold := by
      rw [hfailures, if_neg houtage]
      split
      · exact hn
      · exact hbelow
    exact ⟨Nat.le_of_lt hless, fun _ => hless⟩

/-- An attempt obeys the law. -/
theorem minds_of_called : v.Minds breaker past := by
  obtain ⟨hfailures, hblock⟩ := settled_of_called h hn hbreaker hcalled
  have hcounter := counter_of_called h hn hbreaker hcalled
  have htripped := tripped_iff h hn hbreaker hcalled
  refine ⟨htripped.trans (and_congr_right fun houtage => ?_), fun hnow => ?_, hcounter,
    (failures_of_called h hn hbreaker hcalled).1, fun hanswered hnone => ?_,
    fun other hne => v.standing_after_of_ne hne⟩
  · rw [← hcounter, hfailures, answered_of_outage houtage, if_neg Bool.false_ne_true,
      if_pos houtage]
  · rw [hblock, if_pos (htripped.1 hnow)]
  · rw [hfailures, hanswered, hnone]
    rfl

end Called

/-- A source that is not asked keeps its block and its failures. -/
theorem kept_of_not_called (hcalled : v.outcome.called = false) :
    v.settled.blockedUntil = (v.market.standing v.source).blockedUntil
      ∧ v.settled.failures = (v.market.standing v.source).failures := by
  rcases v.after_of_not_called hcalled with hafter | ⟨hafter, hclosed⟩
  · rw [settled, hafter]
    exact ⟨rfl, rfl⟩
  · rw [settled, hafter, Market.standing_gate_self]
    rcases (v.market.standing v.source).reads_gate v.market.now with ⟨hopen, -⟩ | ⟨-, hkept⟩
    · exact absurd hopen hclosed
    · exact hkept

end Visit

namespace Market.Counts

variable {v : Visit ω} {breaker : Breaker} {past : List (Visit ω)} {m m' : Market ω}

/-- A fresh market counts right. -/
theorem fresh (hfresh : m.pace.limiter = {}) (hm : m.now.InCalendar)
    (hn : 1 ≤ breaker.threshold) : m.Counts breaker [] := by
  have hclean : ∀ source, m.standing source = {} := by
    intro source
    rw [standing, hfresh]
    exact Std.HashMap.getD_emptyWithCapacity
  refine ⟨hm, fun source => ?_, fun source => ?_, fun source _ => ?_, ?_⟩
  · rw [hclean]
    rfl
  · rw [hclean]
    exact Nat.zero_le _
  · rw [hclean]
    exact hn
  · intro v hv
    exact absurd hv List.not_mem_nil

/-- Time that passes changes nothing of this. -/
theorem later (h : m.Counts breaker past) (hbefore : m.Before m')
    (hsame : ∀ source, m'.standing source = m.standing source) : m'.Counts breaker past where
  inCalendar := hbefore.inCalendar h.inCalendar
  failures source := by
    rw [hsame]
    exact h.failures source
  bounded source := by
    rw [hsame]
    exact h.bounded source
  unblocked source hnone := by
    rw [hsame] at hnone ⊢
    exact h.unblocked source hnone
  held v hv htripped := by
    rw [hsame]
    exact (h.held v hv htripped).imp_left fun hover => Instant.le_trans hover hbefore.now_le

/-- Once a source is asked again, every earlier block of the breaker is over. -/
theorem over_of_called (h : v.market.Counts breaker past) (hcalled : v.outcome.called = true)
    {w : Visit ω} (hw : w ∈ past) (htripped : w.Tripped) (hsource : w.source = v.source) :
    w.after.now.plus breaker.cooldown.addable ≤ v.market.now := by
  have hopen : ((v.market.standing v.source).gate v.market.now).1 = .opened :=
    (v.outcome_called.1 hcalled).2
  rcases h.held w hw htripped with hover | ⟨release, hrelease, hle⟩
  · exact hover
  · rw [hsource] at hrelease
    exact Instant.le_trans hle ((Standing.gate_opened.1 hopen).unblocked release hrelease)

/-- A visit concerns its own source only, so what the standings say has to be looked at for that
one. -/
theorem of_source (h : v.market.Counts breaker past)
    (hfailures : v.settled.failures = outagesInRow v.source (past ++ [v]))
    (hbounded : v.settled.failures ≤ breaker.threshold)
    (hunblocked : v.settled.blockedUntil = none → v.settled.failures < breaker.threshold)
    (hheld : ∀ w ∈ past ++ [v], w.Tripped → w.source = v.source →
      w.after.now.plus breaker.cooldown.addable ≤ v.after.now
        ∨ ∃ release, v.settled.blockedUntil = some release
          ∧ w.after.now.plus breaker.cooldown.addable ≤ release) :
    v.after.Counts breaker (past ++ [v]) := by
  have hbefore : v.market.Before v.after :=
    Engine.before_visit v.engine v.query v.source v.bars v.market
  have hother := fun source (hne : source ≠ v.source) => v.standing_after_of_ne hne
  refine ⟨hbefore.inCalendar h.inCalendar, fun source => ?_, fun source => ?_, fun source => ?_,
    fun w hw htripped => ?_⟩
  · by_cases hsource : source = v.source
    · rw [hsource]
      exact hfailures
    · rw [hother source hsource, outagesInRow_of_other fun hown => hsource hown.1.symm]
      exact h.failures source
  · by_cases hsource : source = v.source
    · rw [hsource]
      exact hbounded
    · rw [hother source hsource]
      exact h.bounded source
  · by_cases hsource : source = v.source
    · rw [hsource]
      exact hunblocked
    · rw [hother source hsource]
      exact h.unblocked source
  · by_cases hsource : w.source = v.source
    · rw [hsource]
      exact hheld w hw htripped hsource
    · have hpast : w ∈ past := by
        rcases List.mem_append.1 hw with hw | hw
        · exact hw
        · rw [List.mem_singleton.1 hw] at hsource
          exact absurd rfl hsource
      rw [hother w.source hsource]
      exact (h.held w hpast htripped).imp_left fun hover => Instant.le_trans hover hbefore.now_le

/-- What the standings say is still right after one more visit. -/
theorem visit (h : v.market.Counts breaker past) (hn : 1 ≤ breaker.threshold)
    (hbreaker : v.engine.limits.breaker = breaker) : v.after.Counts breaker (past ++ [v]) := by
  have hle := (Engine.before_visit v.engine v.query v.source v.bars v.market).now_le
  by_cases hcalled : v.outcome.called = true
  · have hminds := Visit.minds_of_called h hn hbreaker hcalled
    refine h.of_source hminds.counter hminds.bounded
      (Visit.failures_of_called h hn hbreaker hcalled).2 fun w hw htripped hsource => ?_
    rcases List.mem_append.1 hw with hw | hw
    · exact Or.inl (Instant.le_trans (h.over_of_called hcalled hw htripped hsource) hle)
    · rw [List.mem_singleton.1 hw] at htripped ⊢
      exact Or.inr ⟨_, hminds.block htripped, Int.le_refl _⟩
  · rw [Bool.not_eq_true] at hcalled
    obtain ⟨hblock, hfailures⟩ := Visit.kept_of_not_called hcalled
    have hcount : outagesInRow v.source (past ++ [v]) = outagesInRow v.source past := by
      apply outagesInRow_of_other
      rw [hcalled]
      exact fun hown => absurd hown.2 Bool.false_ne_true
    refine h.of_source ?_ ?_ ?_ fun w hw htripped hsource => ?_
    · rw [hfailures, hcount]
      exact h.failures v.source
    · rw [hfailures]
      exact h.bounded v.source
    · rw [hblock, hfailures]
      exact h.unblocked v.source
    · rcases List.mem_append.1 hw with hw | hw
      · rw [hblock, ← hsource]
        exact (h.held w hw htripped).imp_left fun hover => Instant.le_trans hover hle
      · rw [List.mem_singleton.1 hw] at htripped
        exact absurd htripped.called (by rw [hcalled]; exact Bool.false_ne_true)

end Market.Counts

/-! ## Runs of attempts -/

namespace Traffic

/-- A fetch, or something that leaves every standing alone. -/
def Undisturbed : Traffic ω → Prop
  | fetch .. | wait _ | turn _ => True
  | report .. | gate _ => False

/-- Undisturbed traffic counts on. -/
theorem Undisturbed.keeps {limits : Limits} {t : Traffic ω} (h : t.Undisturbed)
    (hn : 1 ≤ limits.breaker.threshold) :
    t.Keeps limits fun past m => m.Counts limits.breaker past := by
  cases t with
  | fetch e q =>
    intro past source bars m hm
    exact Market.Counts.visit (v := ⟨{ e with limits }, q, source, bars, m⟩) hm hn rfl
  | wait d =>
    intro past m hm
    exact hm.later (Market.before_of_advance rfl) fun _ => rfl
  | turn f =>
    intro past m hm
    exact hm.later (Market.before_of_now_eq rfl) fun _ => rfl
  | report e source answer => exact h.elim
  | gate source => exact h.elim

end Traffic

/-- What the visits of a run do to the breaker: each attempt as it should after those before it, and a
source that was shut by the breaker is not asked before its cooldown is over. -/
structure BreakerLaw (breaker : Breaker) (visits : List (Visit ω)) : Prop where
  minds : ∀ past v later, visits = past ++ v :: later → v.outcome.called = true →
    v.Minds breaker past
  lasts : ∀ past v between w later, visits = past ++ v :: (between ++ w :: later) → v.Tripped →
    w.source = v.source → w.outcome.called = true →
    (v.after.now.plus breaker.cooldown).InCalendar →
    v.after.now.plus breaker.cooldown ≤ w.market.now

/-- **The breaker trips on so many outages in a row.** Engines share a limiter from its start, and
time passes between their fetches. An attempt trips the breaker exactly when it ends in an outage and
the outages that count, with this one, have reached the threshold; the source is then not asked before
the cooldown is over. Other failures and other sources make no difference to the count, which never
exceeds the threshold. -/
theorem breaker_trips_on_outages (limits : Limits) (events : List (Traffic ω)) (m : Market ω)
    (hfresh : m.pace.limiter = {}) (hm : m.now.InCalendar) (hn : 1 ≤ limits.breaker.threshold)
    (hevents : ∀ t ∈ events, t.Undisturbed) :
    BreakerLaw limits.breaker (Traffic.visitLog limits events m)
      ∧ ∀ source, ((Traffic.run limits events m).standing source).failures
          ≤ limits.breaker.threshold := by
  have hkept : Kept (fun past m => m.Counts limits.breaker past) []
      (Traffic.visitLog limits events m) (Traffic.run limits events m) :=
    Traffic.kept_run (fun t ht => (hevents t ht).keeps hn) (.fresh hfresh hm hn)
  refine ⟨⟨fun past v later hsplit hcalled => ?_,
    fun past v between w later hsplit htripped hsource hcalled hin => ?_⟩,
    fun source => hkept.ends.bounded source⟩
  · have hv : v ∈ Traffic.visitLog limits events m := by
      rw [hsplit]
      exact List.mem_append_right _ List.mem_cons_self
    obtain ⟨e, -, hengine⟩ := Traffic.exists_fetch_of_mem_visitLog hv
    exact Visit.minds_of_called (hkept.begins past v later hsplit) hn (by rw [hengine]) hcalled
  · -- the first visit is among those before the second
    have hbegins := hkept.begins (past ++ v :: between) w later (by simp [hsplit])
    have hover := hbegins.over_of_called hcalled (w := v) (by simp) htripped hsource.symm
    have hstart := hkept.begins past v _ hsplit
    have hended := (Engine.before_visit v.engine v.query v.source v.bars v.market).inCalendar
      hstart.inCalendar
    rwa [Duration.addable_of_inCalendar hended hin] at hover

/-- Two fetches from a source that is never there, half an hour apart. -/
def Traffic.halfHourApart : List (Traffic Unit) :=
  [.fetch .down .week, .wait (.ofSeconds 1800), .fetch .down .week]

/-- Fetches half an hour apart. -/
theorem breaker_trips_on_outages_half_hour_apart :
    Traffic.noon.pace.limiter = {} ∧ Traffic.noon.now.InCalendar
      ∧ 1 ≤ ({} : Limits).breaker.threshold
      ∧ (∀ t ∈ Traffic.halfHourApart, t.Undisturbed)
      ∧ BreakerLaw ({} : Limits).breaker
        (Traffic.visitLog {} Traffic.halfHourApart Traffic.noon)
      ∧ ∀ source, ((Traffic.run {} Traffic.halfHourApart Traffic.noon).standing source).failures
          ≤ ({} : Limits).breaker.threshold := by
  have hevents : ∀ t ∈ Traffic.halfHourApart, t.Undisturbed := by
    simp [Traffic.halfHourApart, Traffic.Undisturbed]
  exact ⟨rfl, by decide, by decide, hevents,
    breaker_trips_on_outages {} Traffic.halfHourApart Traffic.noon rfl (by decide) (by decide)
      hevents⟩

end DailyBars
