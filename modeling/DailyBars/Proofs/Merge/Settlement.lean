import DailyBars.Proofs.Merge.Walk
import DailyBars.Proofs.Source.Standing

/-! # Ends of attempts

An attempt on a source ends with an answer, which may keep the source from being called for a time.
The standing of a source says at every time exactly which earlier ends of attempts still do: each
adds its own restriction, none takes one away, and those that have run out no longer count.
-/

namespace DailyBars

/-- How and when an attempt on a source ended. -/
structure Settlement where
  source : String
  answer : Except Failure (List Bar)
  instant : Instant
  /-- The failures in a row, with this one if it is one. -/
  inRow : Nat

/-- The end of the attempt does not keep the source from being called any more. -/
def Settlement.Over (breaker : Breaker) (x : Settlement) (u : Instant) : Prop :=
  match x.answer with
  | .error (.rateLimited none) => x.instant.day < u.day
  | .error (.rateLimited (some wait)) => x.instant.plus wait.addable ≤ u
  | .error (.unavailable _) =>
    breaker.threshold ≤ x.inRow → x.instant.plus breaker.cooldown.addable ≤ u
  | _ => True

namespace Settlement

variable {breaker : Breaker} {x : Settlement} {u v : Instant}

/-- An exhausted quota is over on the next day, -/
theorem over_of_quota (h : x.answer = .error (.rateLimited none)) :
    x.Over breaker u ↔ x.instant.day < u.day := by
  rw [Over, h]

/-- a wait when it has passed, -/
theorem over_of_wait {wait : Duration} (h : x.answer = .error (.rateLimited (some wait))) :
    x.Over breaker u ↔ x.instant.plus wait.addable ≤ u := by
  rw [Over, h]

/-- and a failure when the cooldown has, if it trips the breaker. -/
theorem over_of_failure {detail : String} (h : x.answer = .error (.unavailable detail)) :
    x.Over breaker u ↔
      (breaker.threshold ≤ x.inRow → x.instant.plus breaker.cooldown.addable ≤ u) := by
  rw [Over, h]

/-- What is over stays over. -/
theorem Over.mono (h : x.Over breaker u) (huv : u ≤ v) : x.Over breaker v := by
  unfold Over at h ⊢
  split at h
  next hquota => exact Int.lt_of_lt_of_le h (Instant.day_le_day huv)
  next wait hwait => exact Instant.le_trans h huv
  next detail hfailed => exact fun htripped => Instant.le_trans (h htripped) huv
  next => exact trivial

end Settlement

variable {ω : Type}

namespace Engine

/-- The end of an attempt adds what it asks for to what kept the source from being called before. -/
theorem openAt_settle (e : Engine ω) (source : String) (answer : Except Failure (List Bar))
    {s : Standing} {now u : Instant} (h : s.Prompt now) :
    (e.settle answer now s).OpenAt u ↔ s.OpenAt u ∧ Settlement.Over e.limits.breaker
      ⟨source, answer, now, (e.settle answer now s).failures⟩ u := by
  cases answer with
  | ok rows => exact Standing.openAt_succeed.trans (and_true _).symm.to_iff
  | error failure =>
    cases failure with
    | rateLimited retryAfter =>
      cases retryAfter with
      | none => exact Standing.openAt_disableForToday h
      | some wait => exact Standing.openAt_blockFor
    | unavailable detail =>
      have hcount := Standing.failures_fail s e.limits.breaker now
      show (s.fail e.limits.breaker now).OpenAt u ↔ s.OpenAt u
        ∧ (e.limits.breaker.threshold ≤ (s.fail e.limits.breaker now).failures →
          now.plus e.limits.breaker.cooldown.addable ≤ u)
      rw [hcount]
      exact Standing.openAt_fail
    | notFound symbol => exact (and_true _).symm.to_iff
    | malformed detail => exact (and_true _).symm.to_iff
    | invalidSymbol symbol reason => exact (and_true _).symm.to_iff

/-- Settling an answer keeps a standing prompt. -/
theorem prompt_settle (e : Engine ω) (answer : Except Failure (List Bar)) {s : Standing}
    {now : Instant} (h : s.Prompt now) : (e.settle answer now s).Prompt now := by
  cases answer with
  | ok rows => exact h
  | error failure =>
    cases failure with
    | rateLimited retryAfter =>
      cases retryAfter with
      | none => exact Standing.prompt_disableForToday s now
      | some wait => exact h
    | unavailable detail => exact Standing.prompt_fail h
    | notFound symbol => exact h
    | malformed detail => exact h
    | invalidSymbol symbol reason => exact h

end Engine

/-! ## What the standings remember -/

namespace Market

/-- The standing of each source is shut for as long as some earlier end of an attempt on it asks. -/
structure Remembers (breaker : Breaker) (past : List Settlement) (m : Market ω) : Prop where
  prompt : ∀ source, (m.standing source).Prompt m.now
  opens : ∀ source u, m.now ≤ u →
    ((m.standing source).OpenAt u ↔ ∀ x ∈ past, x.source = source → x.Over breaker u)

variable {breaker : Breaker} {past : List Settlement} {m m' : Market ω}

/-- A fresh market has nothing to remember. -/
theorem remembers_fresh (h : m.pace.limiter = {}) : m.Remembers breaker [] := by
  have hfree : ∀ source, (m.standing source).Free := by
    intro source
    rw [standing, h]
    exact Limiter.free_empty source
  refine ⟨fun source day hday => ?_, fun source u _ => ⟨fun _ => nofun, fun _ => ?_⟩⟩
  · rw [(hfree source).enabled] at hday
    cases hday
  · exact Standing.openAt_of_none (hfree source).enabled (hfree source).unblocked u

/-- What counts is kept while time passes and nothing is added. -/
theorem Remembers.of_openAt (h : m.Remembers breaker past) (hle : m.now ≤ m'.now)
    (hopen : ∀ source u, m'.now ≤ u →
      ((m'.standing source).OpenAt u ↔ (m.standing source).OpenAt u))
    (hprompt : ∀ source, (m.standing source).Prompt m'.now → (m'.standing source).Prompt m'.now) :
    m'.Remembers breaker past where
  prompt source := hprompt source ((h.prompt source).mono hle)
  opens source u hu := (hopen source u hu).trans (h.opens source u (Instant.le_trans hle hu))

/-- A market remembers while time passes. -/
theorem Remembers.of_standing (h : m.Remembers breaker past) (hle : m.now ≤ m'.now)
    (hsame : ∀ source, m'.standing source = m.standing source) : m'.Remembers breaker past := by
  refine h.of_openAt hle (fun source u _ => ?_) (fun source hprompt => ?_)
  · rw [hsame]
  · rw [hsame]
    exact hprompt

/-- The standing of a source is changed, -/
@[simp] theorem standing_withStanding_self (m : Market ω) (source : String)
    (f : Standing → Standing) :
    (m.withStanding source f).standing source = f (m.standing source) := by
  simp only [standing, withStanding, withPace, Limiter.change, Limiter.standing_put_self]

/-- and no other. -/
theorem standing_withStanding_of_ne (m : Market ω) {source other : String}
    (f : Standing → Standing) (h : other ≠ source) :
    (m.withStanding source f).standing other = m.standing other := by
  simp only [standing, withStanding, withPace, Limiter.change, Limiter.standing_put_of_ne _ _ h]

/-- Reading a gate changes nothing that counts. -/
theorem Remembers.gate (h : m.Remembers breaker past) (source : String) :
    (m.gate source).2.Remembers breaker past := by
  have hgate : (m.gate source).2 = m.withStanding source fun s => (s.gate m.now).2 := rfl
  rw [hgate]
  refine h.of_openAt (Int.le_refl _) (fun other u hu => ?_) (fun other hprompt => ?_)
  · by_cases heq : other = source
    · rw [heq, standing_withStanding_self]
      exact Standing.openAt_gate hu
    · rw [standing_withStanding_of_ne m _ heq]
  · by_cases heq : other = source
    · rw [heq, standing_withStanding_self]
      rw [heq] at hprompt
      exact Standing.prompt_gate hprompt
    · rw [standing_withStanding_of_ne m _ heq]
      exact hprompt

/-- The gate that is read is open exactly when nothing of the past still counts. -/
theorem Remembers.gate_opened (h : m.Remembers breaker past) (source : String) :
    (m.gate source).1 = .opened ↔ ∀ x ∈ past, x.source = source → x.Over breaker m.now := by
  have hgate : (m.gate source).1 = ((m.standing source).gate m.now).1 := rfl
  rw [hgate, Standing.gate_opened]
  exact h.opens source m.now (Int.le_refl _)

/-- The end of an attempt is added to what counts. -/
theorem Remembers.settle (h : m.Remembers breaker past) (e : Engine ω)
    (he : e.limits.breaker = breaker) (source : String) (answer : Except Failure (List Bar)) :
    (m.withStanding source (e.settle answer m.now)).Remembers breaker
      (past ++ [⟨source, answer, m.now,
        ((m.withStanding source (e.settle answer m.now)).standing source).failures⟩]) := by
  rw [standing_withStanding_self]
  refine ⟨fun other => ?_, fun other u hu => ?_⟩
  · by_cases heq : other = source
    · rw [heq, standing_withStanding_self]
      exact e.prompt_settle answer (h.prompt source)
    · rw [standing_withStanding_of_ne m _ heq]
      exact h.prompt other
  · simp only [List.mem_append, List.mem_singleton, or_imp, forall_and, forall_eq]
    by_cases heq : other = source
    · rw [heq, standing_withStanding_self, e.openAt_settle source answer (h.prompt source), he,
        h.opens source u hu]
      simp only [true_imp_iff]
    · have hother : ¬ source = other := fun h' => heq h'.symm
      rw [standing_withStanding_of_ne m _ heq, h.opens other u hu]
      simp only [hother, false_imp_iff, and_true]

/-- Waiting for a budget notes the time of a request and nothing that counts. -/
theorem Remembers.awaitBudget (h : m.Remembers breaker past) (limits : Limits) (source : String) :
    (m.withPace (·.awaitBudget limits source)).Remembers breaker past := by
  have hle := (Engine.before_awaitBudget m limits source).now_le
  have hkept : ∀ other,
      ((m.withPace (·.awaitBudget limits source)).standing other).disabledUntil
          = (m.standing other).disabledUntil
        ∧ ((m.withPace (·.awaitBudget limits source)).standing other).blockedUntil
          = (m.standing other).blockedUntil := by
    intro other
    unfold standing withPace
    simp only [Pace.awaitBudget_def]
    cases limits.spacing? source with
    | none => exact ⟨rfl, rfl⟩
    | some spacing =>
      by_cases heq : other = source
      · simp only [heq, Limiter.change, Limiter.standing_put_self, and_self]
      · simp only [Limiter.change, Limiter.standing_put_of_ne _ _ heq, and_self]
  refine h.of_openAt hle (fun other u _ => ?_) (fun other hprompt => ?_)
  · refine ⟨fun ho => ⟨?_, ?_⟩, fun ho => ⟨?_, ?_⟩⟩
    · rw [← (hkept other).1]
      exact ho.enabled
    · rw [← (hkept other).2]
      exact ho.unblocked
    · rw [(hkept other).1]
      exact ho.enabled
    · rw [(hkept other).2]
      exact ho.unblocked
  · unfold Standing.Prompt
    rw [(hkept other).1]
    exact hprompt

/-- A market remembers over a request -/
theorem Remembers.ask (h : m.Remembers breaker past) (e : Engine ω) (source : String) (q : Query) :
    (e.ask source q m).2.Remembers breaker past := by
  have hwaited := h.awaitBudget e.limits source
  have hlater : (m.withPace (·.awaitBudget e.limits source)).now ≤ (e.ask source q m).2.now :=
    (before_of_advance rfl).now_le
  exact hwaited.of_standing hlater fun _ => rfl

/-- and over a sleep. -/
theorem Remembers.sleep (h : m.Remembers breaker past) (wait : Duration) :
    (m.sleep wait).Remembers breaker past :=
  h.of_standing (before_sleep m wait).now_le fun _ => rfl

end Market

end DailyBars
