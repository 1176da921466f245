import DailyBars.Proofs.Merge.Walk

/-! # When a gate is open

A gate is open once the day of a spent quota and the end of a block have come. Reading the gate
forgets what has run out, which changes nothing about when it is open. Each outcome of a call adds
its own restriction to those there are, and none takes one away.
-/

namespace DailyBars

namespace Instant

theorem lt_def {a b : Instant} : a < b ↔ a.nanos < b.nanos := Iff.rfl

/-- Instants are linearly ordered, -/
theorem not_lt {a b : Instant} : ¬ a < b ↔ b ≤ a := by
  rw [lt_def, le_def]
  omega

/-- transitively. -/
theorem le_trans {a b c : Instant} (h : a ≤ b) (h' : b ≤ c) : a ≤ c := Int.le_trans h h'

/-- The later of two instants is not after an instant just if neither is. -/
theorem later_le {a b u : Instant} : a.later b ≤ u ↔ a ≤ u ∧ b ≤ u := by
  unfold later
  split
  next h =>
    simp only [le_def] at h ⊢
    omega
  next h =>
    simp only [le_def] at h ⊢
    omega

end Instant

/-- A wait between two times of the calendar is added in full. -/
theorem Duration.addable_of_inCalendar {t : Instant} {w : Duration} (ht : t.InCalendar)
    (hw : (t.plus w).InCalendar) : w.addable = w := by
  have hfirst := ht.1
  have hlast := hw.2
  have hshort : w ≤ longest := by
    show w.nanos ≤ longest.nanos
    simp only [Day.le_def, Instant.day, Instant.plus, Day.earliest, Day.latest, longest]
      at hfirst hlast ⊢
    omega
  exact if_pos hshort

namespace Standing

/-- Nothing that is remembered keeps the source from being asked at an instant. -/
structure OpenAt (s : Standing) (u : Instant) : Prop where
  enabled : ∀ day, s.disabledUntil = some day → day ≤ u.day
  unblocked : ∀ release, s.blockedUntil = some release → release ≤ u

/-- A quota is never spent for longer than to the next day. -/
def Prompt (s : Standing) (now : Instant) : Prop :=
  ∀ day, s.disabledUntil = some day → day ≤ now.day.next

/-- A source that is neither disabled nor blocked is open. -/
theorem openAt_of_none {s : Standing} (hday : s.disabledUntil = none)
    (hrelease : s.blockedUntil = none) (u : Instant) : s.OpenAt u := by
  refine ⟨fun day h => ?_, fun release h => ?_⟩
  · rw [hday] at h
    cases h
  · rw [hrelease] at h
    cases h

/-- What is open stays open. -/
theorem OpenAt.mono {s : Standing} {u v : Instant} (h : s.OpenAt u) (huv : u ≤ v) : s.OpenAt v :=
  ⟨fun day hday => Int.le_trans (h.enabled day hday) (Instant.day_le_day huv),
    fun release hrelease => Instant.le_trans (h.unblocked release hrelease) huv⟩

/-- What is prompt now is prompt later. -/
theorem Prompt.mono {s : Standing} {now later : Instant} (h : s.Prompt now) (hle : now ≤ later) :
    s.Prompt later := by
  intro day hday
  have hnext := h day hday
  have hdays := Instant.day_le_day hle
  simp only [Day.le_def, Day.next_number] at hnext hdays ⊢
  omega

/-- Reading the gate does not change when the last request was made. -/
theorem lastRequest_gate (s : Standing) (now : Instant) :
    (s.gate now).2.lastRequest = s.lastRequest := by
  have hunblock : ∀ t : Standing, (gate.unblock now t).2.lastRequest = t.lastRequest := by
    intro t
    unfold gate.unblock
    split
    · split
      · rfl
      · rfl
    · rfl
  unfold gate
  split
  · split
    · rfl
    · exact hunblock _
  · exact hunblock _

/-- The gate when the quota is not spent. -/
theorem unblock_opened {s : Standing} {now : Instant} :
    (gate.unblock now s).1 = .opened
      ↔ ∀ release, s.blockedUntil = some release → release ≤ now := by
  unfold gate.unblock
  cases hblock : s.blockedUntil with
  | none => simp
  | some release =>
    simp only
    by_cases hlt : now < release
    · rw [if_pos hlt]
      simp only [reduceCtorEq, false_iff, Option.some.injEq, forall_eq']
      exact fun hle => absurd hlt (Instant.not_lt.2 hle)
    · rw [if_neg hlt]
      simp only [Option.some.injEq, forall_eq', true_iff]
      exact Instant.not_lt.1 hlt

/-- The gate is open exactly when nothing keeps it shut. -/
theorem gate_opened {s : Standing} {now : Instant} : (s.gate now).1 = .opened ↔ s.OpenAt now := by
  unfold gate
  cases hday : s.disabledUntil with
  | none =>
    simp only
    rw [unblock_opened]
    refine ⟨fun h => ⟨fun day heq => ?_, h⟩, fun h => h.unblocked⟩
    rw [hday] at heq
    cases heq
  | some day =>
    simp only
    by_cases hlt : now.day < day
    · rw [if_pos hlt]
      simp only [reduceCtorEq, false_iff]
      intro h
      have hle := h.enabled day hday
      simp only [Day.lt_def, Day.le_def] at hlt hle
      omega
    · rw [if_neg hlt, unblock_opened]
      have hle : day ≤ now.day := by
        simp only [Day.lt_def, Day.le_def] at hlt ⊢
        omega
      refine ⟨fun h => ⟨fun d heq => ?_, h⟩, fun h => h.unblocked⟩
      rw [hday, Option.some.injEq] at heq
      rwa [← heq]

/-- Lifting an expired block does not change when the source is open. -/
theorem openAt_unblock {s : Standing} {now u : Instant} (hle : now ≤ u) :
    (gate.unblock now s).2.OpenAt u ↔ s.OpenAt u := by
  unfold gate.unblock
  cases hblock : s.blockedUntil with
  | none => rfl
  | some release =>
    simp only
    by_cases hlt : now < release
    · rw [if_pos hlt]
    · rw [if_neg hlt]
      have hpast : release ≤ u := Instant.le_trans (Instant.not_lt.1 hlt) hle
      refine ⟨fun h => ⟨h.enabled, fun r heq => ?_⟩, fun h => ⟨h.enabled, nofun⟩⟩
      rw [hblock, Option.some.injEq] at heq
      rwa [← heq]

/-- Reading the gate does not change when it is open from then on. -/
theorem openAt_gate {s : Standing} {now u : Instant} (hle : now ≤ u) :
    (s.gate now).2.OpenAt u ↔ s.OpenAt u := by
  unfold gate
  cases hday : s.disabledUntil with
  | none => exact openAt_unblock hle
  | some day =>
    simp only
    by_cases hlt : now.day < day
    · rw [if_pos hlt]
    · rw [if_neg hlt, openAt_unblock hle]
      have hpast : day ≤ u.day := by
        have hdays := Instant.day_le_day hle
        simp only [Day.lt_def, Day.le_def] at hlt hdays ⊢
        omega
      refine ⟨fun h => ⟨fun d heq => ?_, h.unblocked⟩, fun h => ⟨nofun, h.unblocked⟩⟩
      rw [hday, Option.some.injEq] at heq
      rwa [← heq]

/-- The gate keeps a standing prompt, -/
theorem prompt_gate {s : Standing} {now : Instant} (h : s.Prompt now) :
    (s.gate now).2.Prompt now := by
  have hunblock : ∀ t : Standing, t.Prompt now → (gate.unblock now t).2.Prompt now := by
    intro t ht
    unfold gate.unblock
    split
    · split
      · exact ht
      · exact ht
    · exact ht
  unfold gate
  split
  · split
    · exact h
    · exact hunblock _ nofun
  · exact hunblock _ h

/-! ## What outcomes add -/

/-- A spent quota shuts the gate for the rest of the day. -/
theorem openAt_disableForToday {s : Standing} {now u : Instant} (h : s.Prompt now) :
    (s.disableForToday now).OpenAt u ↔ s.OpenAt u ∧ now.day < u.day := by
  have hnext : now.day.next ≤ u.day ↔ now.day < u.day := by
    simp only [Day.le_def, Day.lt_def, Day.next_number]
    omega
  constructor
  · intro hopen
    have hlater := hopen.enabled _ rfl
    refine ⟨⟨fun day hday => ?_, hopen.unblocked⟩, hnext.1 hlater⟩
    exact Int.le_trans (h day hday) hlater
  · rintro ⟨hopen, hlater⟩
    refine ⟨fun day hday => ?_, hopen.unblocked⟩
    rw [disableForToday_def, Option.some.injEq] at hday
    rw [← hday]
    exact hnext.2 hlater

/-- A block shuts the gate up to its end, and a longer one that is there stays. -/
theorem openAt_blockFor {s : Standing} {now u : Instant} {wait : Duration} :
    (s.blockFor now wait).OpenAt u ↔ s.OpenAt u ∧ now.plus wait.addable ≤ u := by
  have hrelease : (s.blockFor now wait).blockedUntil
      = some ((s.blockedUntil.map (·.later (now.plus wait.addable))).getD
        (now.plus wait.addable)) := rfl
  cases hblock : s.blockedUntil with
  | none =>
    rw [hblock] at hrelease
    refine ⟨fun h => ⟨⟨h.enabled, fun r hr => ?_⟩, h.unblocked _ hrelease⟩,
      fun h => ⟨h.1.enabled, fun r hr => ?_⟩⟩
    · rw [hblock] at hr
      cases hr
    · rw [hrelease, Option.some.injEq] at hr
      rw [← hr]
      exact h.2
  | some release =>
    rw [hblock, Option.map_some, Option.getD_some] at hrelease
    refine ⟨fun h => ?_, fun h => ⟨h.1.enabled, fun r hr => ?_⟩⟩
    · obtain ⟨hold, hnew⟩ := Instant.later_le.1 (h.unblocked _ hrelease)
      refine ⟨⟨h.enabled, fun r hr => ?_⟩, hnew⟩
      rw [hblock, Option.some.injEq] at hr
      rwa [← hr]
    · rw [hrelease, Option.some.injEq] at hr
      rw [← hr]
      exact Instant.later_le.2 ⟨h.1.unblocked release hblock, h.2⟩

/-- A failure shuts the gate when it trips the breaker, and does nothing otherwise. -/
theorem openAt_fail {s : Standing} {breaker : Breaker} {now u : Instant} :
    (s.fail breaker now).OpenAt u ↔ s.OpenAt u
      ∧ (breaker.threshold ≤ s.failures + 1 → now.plus breaker.cooldown.addable ≤ u) := by
  have hcount : ({ s with failures := s.failures + 1 } : Standing).OpenAt u ↔ s.OpenAt u :=
    ⟨fun h => ⟨h.enabled, h.unblocked⟩, fun h => ⟨h.enabled, h.unblocked⟩⟩
  rw [fail_def]
  by_cases htrips : breaker.threshold ≤ s.failures + 1
  · rw [if_pos htrips, openAt_blockFor, hcount]
    exact ⟨fun h => ⟨h.1, fun _ => h.2⟩, fun h => ⟨h.1, h.2 htrips⟩⟩
  · rw [if_neg htrips, hcount]
    exact ⟨fun h => ⟨h, fun ht => absurd ht htrips⟩, fun h => h.1⟩

/-- A failure counts whether or not it trips the breaker. -/
theorem failures_fail (s : Standing) (breaker : Breaker) (now : Instant) :
    (s.fail breaker now).failures = s.failures + 1 := by
  rw [fail_def]
  split
  · rfl
  · rfl

/-- and so do a failure -/
theorem prompt_fail {s : Standing} {breaker : Breaker} {now : Instant} (h : s.Prompt now) :
    (s.fail breaker now).Prompt now := by
  rw [fail_def]
  split
  · exact h
  · exact h

/-- and the end of the quota. -/
theorem prompt_disableForToday (s : Standing) (now : Instant) :
    (s.disableForToday now).Prompt now := by
  intro day hday
  rw [disableForToday_def, Option.some.injEq] at hday
  rw [hday]
  exact Int.le_refl _

/-- A success does not change when the source is open. -/
theorem openAt_succeed {s : Standing} {u : Instant} : s.succeed.OpenAt u ↔ s.OpenAt u :=
  ⟨fun h => ⟨h.enabled, h.unblocked⟩, fun h => ⟨h.enabled, h.unblocked⟩⟩

end Standing
/-! ## Sources that were never refused -/

/-- Nothing keeps the source from being asked. -/
structure Standing.Free (s : Standing) : Prop where
  enabled : s.disabledUntil = none
  unblocked : s.blockedUntil = none

/-- The gate of such a source is open and has nothing to clear. -/
theorem Standing.gate_of_free {s : Standing} (h : s.Free) (now : Instant) :
    s.gate now = (.opened, s) := by
  simp only [gate, gate.unblock, h.enabled, h.unblocked]

/-- A source that was never asked is free. -/
theorem Limiter.free_empty (source : String) : (({} : Limiter).standing source).Free := by
  have hclean : ({} : Limiter).standing source = {} := Std.HashMap.getD_emptyWithCapacity
  rw [hclean]
  exact ⟨rfl, rfl⟩

end DailyBars
