import DailyBars.Proofs.Calendar.CheckedSteps
import DailyBars.Proofs.Source.Standing

/-! # Standings within the calendar

Where the sum of a time and a wait has a place in the calendar, what is noted about a source is noted
in full. A block then ends no earlier than it begins, and no earlier than a shorter wait would have
made it end; only a wait that is too long to be added to any instant counts as a year.
-/

namespace DailyBars

namespace Instant

/-- What lies between two times of the calendar is a time of the calendar. -/
theorem inCalendar_of_between {t u v : Instant} (ht : t.InCalendar) (hv : v.InCalendar)
    (htu : t ≤ u) (huv : u ≤ v) : u.InCalendar :=
  ⟨Int.le_trans ht.1 (day_le_day htu), Int.le_trans (day_le_day huv) hv.2⟩

/-- Adding a duration does not go back, -/
theorem le_plus (t : Instant) (d : Duration) : t ≤ t.plus d := by
  rw [le_def, plus]
  show t.nanos ≤ t.nanos + d.nanos
  omega

/-- and is monotone in both. -/
theorem plus_le_plus {t u : Instant} {d d' : Duration} (htu : t ≤ u) (hd : d ≤ d') :
    t.plus d ≤ u.plus d' := by
  have hnanos : d.nanos ≤ d'.nanos := hd
  rw [le_def] at htu
  show t.nanos + (d.nanos : Int) ≤ u.nanos + d'.nanos
  omega

end Instant

namespace Standing

/-! ## Updates

Each of them needs its sums to fit, and where one does not the program ends on the spot. -/

section

variable {ε : Type} (stop : ε) (s : Standing) (now : Instant)

/-- A quota that is spent needs a day after this one. -/
theorem comesTo_disableForToday : Reckoning.ComesTo (· = stop) now.day.next.InCalendar
    (s.disableForToday now) (s.disableForTodayWith (.ending stop) now) :=
  (Reckoning.ComesTo.day stop now.day.next).map fun day => { s with disabledUntil := some day }

/-- A block needs an end in the calendar. -/
theorem comesTo_blockFor (wait : Duration) :
    Reckoning.ComesTo (· = stop) (now.plus wait.addable).InCalendar (s.blockFor now wait)
      (s.blockForWith (.ending stop) now wait) :=
  (Reckoning.ComesTo.instant stop (now.plus wait.addable)).map fun release =>
    { s with blockedUntil := some ((s.blockedUntil.map (Instant.later · release)).getD release) }

/-- A failure needs to be counted, and a block that it brings needs an end in the calendar. -/
theorem comesTo_fail (breaker : Breaker) :
    Reckoning.ComesTo (· = stop)
      (s.failures + 1 < UInt32.size
        ∧ (breaker.threshold ≤ s.failures + 1 → (now.plus breaker.cooldown.addable).InCalendar))
      (s.fail breaker now) (s.failWith (.ending stop) breaker now) := by
  refine (Reckoning.ComesTo.count stop (s.failures + 1)).bind fun _ => ?_
  rw [fail_def]
  simp only
  split
  next htrips => exact (comesTo_blockFor stop _ now _).congr ⟨fun h _ => h, fun h => h htrips⟩
  next hbelow => exact (Reckoning.ComesTo.pure _).congr ⟨fun _ h => absurd h hbelow, fun _ => trivial⟩

/-- The wait before a request goes by the time of the last one. -/
theorem comesTo_pause (spacing : Duration) :
    Reckoning.ComesTo (· = stop)
      (∀ last, s.lastRequest = some last → (last.plus spacing.addable).InCalendar)
      (s.pause spacing now) (s.pauseWith (.ending stop) spacing now) := by
  rw [pause_def]
  unfold pauseWith
  cases s.lastRequest with
  | none => exact (Reckoning.ComesTo.pure _).congr ⟨fun _ => nofun, fun _ => trivial⟩
  | some last =>
    refine ((Reckoning.ComesTo.instant stop (last.plus spacing.addable)).map fun due =>
      (⟨(due.nanos - now.nanos).toNat⟩ : Duration)).congr ?_
    simp only [Option.some.injEq, forall_eq']

end

/-- A block whose end the calendar has. -/
theorem blockFor?_eq {s : Standing} {now : Instant} {wait : Duration}
    (h : (now.plus wait.addable).InCalendar) :
    s.blockFor? now wait = some (s.blockFor now wait) := by
  have hplace : Reckoning.within.instant (now.plus wait.addable) = some (now.plus wait.addable) :=
    if_pos h
  unfold blockFor? blockForWith
  rw [hplace]
  rfl

/-! ## Blocks -/

/-- The end of a block up to `release` for a source that may be blocked already. -/
def blockedTo (s : Standing) (release : Instant) : Instant :=
  (s.blockedUntil.map (·.later release)).getD release

/-- A block is over when the earlier one and the new one are. -/
theorem blockedTo_le {s : Standing} {release u : Instant} : s.blockedTo release ≤ u
    ↔ (∀ earlier, s.blockedUntil = some earlier → earlier ≤ u) ∧ release ≤ u := by
  unfold blockedTo
  cases s.blockedUntil with
  | none => simp
  | some earlier =>
    simp only [Option.map_some, Option.getD_some, Option.some.injEq, forall_eq']
    exact Instant.later_le

/-- The end of the block that a wait brings. -/
def blockEnd? (s : Standing) (now : Instant) (wait : Duration) : Option Instant :=
  (s.blockFor? now wait).bind fun blocked => blocked.blockedUntil

/-- A block that ends in the calendar has its end, -/
theorem blockEnd?_eq {s : Standing} {now : Instant} {wait : Duration}
    (h : (now.plus wait.addable).InCalendar) :
    s.blockEnd? now wait = some (s.blockedTo (now.plus wait.addable)) := by
  rw [blockEnd?, blockFor?_eq h]
  rfl

/-- What a wait makes of the block of a source. -/
structure Blocks (s : Standing) (now : Instant) (wait : Duration) : Prop where
  /-- There is a block, which ends neither before now nor before one that was there, nor before the
  end that a shorter wait would have given, if the wait can be added to an instant. -/
  ends : ∃ release, s.blockEnd? now wait = some release ∧ now ≤ release
    ∧ (∀ earlier, s.blockedUntil = some earlier → earlier ≤ release)
    ∧ (wait ≤ .longest → ∀ shorter, shorter ≤ wait →
      ∃ sooner, s.blockEnd? now shorter = some sooner ∧ sooner ≤ release)
  /-- Otherwise it counts as a year. -/
  capped : ¬ wait ≤ .longest → s.blockFor? now wait = s.blockFor? now (.ofDays 365)

/-- and can be set. -/
theorem blocks_of_inCalendar {s : Standing} {now : Instant} {wait : Duration}
    (hnow : now.InCalendar) (h : (now.plus wait.addable).InCalendar) : s.Blocks now wait := by
  obtain ⟨hearlier, hrelease⟩ :=
    blockedTo_le.1 (Int.le_refl (s.blockedTo (now.plus wait.addable)).nanos)
  refine ⟨⟨_, blockEnd?_eq h, Instant.le_trans (now.le_plus _) hrelease, hearlier,
    fun hlongest shorter hshorter => ?_⟩, fun hlongest => ?_⟩
  · have hwait : wait.addable = wait := if_pos hlongest
    have hshort : shorter.addable = shorter := if_pos (Nat.le_trans hshorter hlongest)
    have hsooner : now.plus shorter.addable ≤ now.plus wait.addable := by
      rw [hwait, hshort]
      exact Instant.plus_le_plus (Int.le_refl _) hshorter
    have hin := Instant.inCalendar_of_between hnow h (now.le_plus _) hsooner
    exact ⟨_, blockEnd?_eq hin, blockedTo_le.2 ⟨hearlier, Instant.le_trans hsooner hrelease⟩⟩
  · have hyear : wait.addable = Duration.addable (.ofDays 365) := by
      rw [Duration.addable, if_neg hlongest]
      rfl
    unfold blockFor? blockForWith
    rw [hyear]

end Standing

/-- The next request to a source has a time in the calendar. -/
def Limiter.HasTime (l : Limiter) (limits : Limits) (source : String) : Prop :=
  ∀ spacing, limits.spacing? source = some spacing →
    ∀ last, (l.standing source).lastRequest = some last → (last.plus spacing.addable).InCalendar

/-- A source with a budget is waited for if its next request has a time. -/
theorem Pace.comesTo_awaitBudget {ε : Type} (stop : ε) (p : Pace) (limits : Limits)
    (source : String) : Reckoning.ComesTo (· = stop) (p.limiter.HasTime limits source)
      (p.awaitBudget limits source) (p.awaitBudgetWith (.ending stop) limits source) := by
  rw [awaitBudget_def]
  unfold awaitBudgetWith Limiter.HasTime
  cases limits.spacing? source with
  | none => exact (Reckoning.ComesTo.pure _).congr ⟨fun _ => nofun, fun _ => trivial⟩
  | some spacing =>
    have hpause := Standing.comesTo_pause stop (p.limiter.standing source) p.clock.now spacing
    refine (hpause.map fun wait =>
      let clock := if wait = .zero then p.clock else p.clock.sleep wait
      ({ clock
         limiter := p.limiter.change source fun s => { s with lastRequest := some clock.now } } :
        Pace)).congr ?_
    simp only [Option.some.injEq, forall_eq']

end DailyBars
