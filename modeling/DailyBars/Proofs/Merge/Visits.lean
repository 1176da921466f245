import DailyBars.Proofs.Merge.Containment

/-! # Visits

A walk is a row of visits, each of which begins with the bars and the market that the one before it
left. What is true of the visits of every walk on one limiter is proved for one visit at a time, in
terms of those that came before.
-/

namespace DailyBars

variable {ω : Type}

/-- An entry of an order that comes up in a walk: who looks for what there, with which bars, and in
which market. -/
structure Visit (ω : Type) where
  engine : Engine ω
  query : Query
  source : String
  bars : List Bar
  market : Market ω

namespace Visit

/-- What comes of the visit. -/
def outcome (v : Visit ω) : Outcome := (v.engine.visit v.query v.source v.bars v.market).1

/-- The bars after the visit. -/
def barsAfter (v : Visit ω) : List Bar := (v.engine.visit v.query v.source v.bars v.market).2.1

/-- The market after the visit. -/
def after (v : Visit ω) : Market ω := (v.engine.visit v.query v.source v.bars v.market).2.2

/-- The entry for the visit in the result of the walk. -/
def attempt (v : Visit ω) : Attempt := ⟨v.source, v.outcome⟩

/-- What the bars after the visit cover. -/
def coverage (v : Visit ω) : Float := Series.coverage v.barsAfter v.query.window

/-- The source was asked, and now enough is covered. -/
def Sufficient (v : Visit ω) : Prop :=
  v.outcome.called = true ∧ v.engine.settings.minCoverage ≤ v.coverage

instance (v : Visit ω) : Decidable v.Sufficient := inferInstanceAs (Decidable (_ ∧ _))

/-- The visit begins behind an open gate. -/
theorem outcome_called (v : Visit ω) : v.outcome.called = true
    ↔ v.engine.sources.configured v.source = true ∧ (v.market.gate v.source).1 = .opened := by
  rw [outcome, Engine.visit_eq]
  by_cases hconfigured : v.engine.sources.configured v.source = true
  · rw [if_pos hconfigured]
    by_cases hopen : (v.market.gate v.source).1 = .opened
    · rw [if_pos hopen]
      split <;> simp [Outcome.called, hconfigured, hopen]
    · rw [if_neg hopen]
      simp [Outcome.called, hopen]
  · rw [if_neg hconfigured]
    simp [Outcome.called, hconfigured]

/-- What a visit does to the market is the call, if its source is asked. -/
theorem after_of_called (v : Visit ω) (h : v.outcome.called = true) :
    v.after = (v.engine.call v.source v.query (v.market.gate v.source).2).2 := by
  obtain ⟨hconfigured, hopen⟩ := v.outcome_called.1 h
  rw [after, Engine.visit_eq, if_pos hconfigured, if_pos hopen]
  generalize v.engine.call v.source v.query (v.market.gate v.source).2 = called
  obtain ⟨answer, m⟩ := called
  cases answer with
  | ok rows => rfl
  | error failure => rfl

/-- A source that is not asked has its gate read at most. -/
theorem after_of_not_called (v : Visit ω) (h : v.outcome.called = false) :
    v.after = v.market
      ∨ v.after = (v.market.gate v.source).2 ∧ (v.market.gate v.source).1 ≠ .opened := by
  rw [after, Engine.visit_eq]
  by_cases hconfigured : v.engine.sources.configured v.source = true
  · have hclosed : (v.market.gate v.source).1 ≠ .opened := by
      intro hopen
      rw [v.outcome_called.2 ⟨hconfigured, hopen⟩] at h
      cases h
    rw [if_pos hconfigured, if_neg hclosed]
    exact Or.inr ⟨rfl, hclosed⟩
  · rw [if_neg hconfigured]
    exact Or.inl rfl

end Visit

/-! ## The standings around a visit -/

namespace Market

/-- The gate of a source changes its standing, -/
theorem standing_gate_self (m : Market ω) (source : String) :
    (m.gate source).2.standing source = ((m.standing source).gate m.now).2 :=
  m.standing_withStanding_self source fun s => (s.gate m.now).2

/-- and no other. -/
theorem standing_gate_of_ne (m : Market ω) {source other : String} (h : other ≠ source) :
    (m.gate source).2.standing other = m.standing other :=
  m.standing_withStanding_of_ne (fun s => (s.gate m.now).2) h

/-- Waiting for the budget of a source may note the time of a request to it, and nothing else. -/
theorem standing_awaitBudget (m : Market ω) (limits : Limits) (source other : String) :
    (m.withPace (·.awaitBudget limits source)).standing other
      = if other = source ∧ limits.spacing? source ≠ none then
          { m.standing other with
            lastRequest := some (m.withPace (·.awaitBudget limits source)).now }
        else m.standing other := by
  unfold standing now withPace
  simp only [Pace.awaitBudget_def]
  cases hspacing : limits.spacing? source with
  | none => simp
  | some spacing =>
    by_cases heq : other = source
    · simp [heq, Limiter.change]
    · simp [heq, Limiter.change, Limiter.standing_put_of_ne _ _ heq]

end Market

namespace Engine

/-- A request changes standings only by waiting for the budget. -/
theorem standing_ask (e : Engine ω) (source : String) (q : Query) (m : Market ω)
    (other : String) :
    (e.ask source q m).2.standing other
      = (m.withPace (·.awaitBudget e.limits source)).standing other := rfl

/-- A call settles the standing of its source after its last answer. What was remembered before is
still there but for the time of the last request. -/
theorem exists_settle_of_call (e : Engine ω) (source : String) (q : Query) (m : Market ω) :
    ∃ m₁, m.Before m₁
      ∧ (e.call source q m).2 = m₁.withStanding source (e.settle (e.call source q m).1 m₁.now)
      ∧ (∃ last, m₁.standing source = { m.standing source with lastRequest := last })
      ∧ ∀ other, other ≠ source → m₁.standing other = m.standing other := by
  have hask : ∀ m : Market ω,
      (∃ last, (e.ask source q m).2.standing source
        = { m.standing source with lastRequest := last })
      ∧ ∀ other, other ≠ source → (e.ask source q m).2.standing other = m.standing other := by
    intro m
    refine ⟨?_, fun other hne => ?_⟩
    · rw [standing_ask, Market.standing_awaitBudget]
      split
      · exact ⟨_, rfl⟩
      · exact ⟨_, rfl⟩
    · rw [standing_ask, Market.standing_awaitBudget, if_neg fun h => hne h.1]
  have hbefore := before_ask e source q m
  obtain ⟨⟨last₁, hself₁⟩, hother₁⟩ := hask m
  rcases call_cases e source q m with
    ⟨answer, m₁, hfirst, -, hcall⟩ | ⟨first, m₁, wait, answer, m₂, hfirst, -, hsecond, hcall⟩
  · rw [hfirst] at hself₁ hother₁ hbefore
    rw [hcall]
    exact ⟨m₁, hbefore, rfl, ⟨last₁, hself₁⟩, hother₁⟩
  · obtain ⟨⟨last₂, hself₂⟩, hother₂⟩ := hask (m₁.sleep wait)
    have hagain := before_ask e source q (m₁.sleep wait)
    have hslept : ∀ other, (m₁.sleep wait).standing other = m₁.standing other := fun _ => rfl
    rw [hfirst] at hself₁ hother₁ hbefore
    rw [hsecond, hslept] at hself₂
    rw [hsecond] at hother₂ hagain
    rw [hcall]
    refine ⟨m₂, (hbefore.trans (m₁.before_sleep wait)).trans hagain, rfl, ⟨last₂, ?_⟩, ?_⟩
    · show m₂.standing source = _
      rw [hself₂, hself₁]
    · intro other hne
      show m₂.standing other = _
      rw [hother₂ other hne, hslept, hother₁ other hne]

/-- What comes of an entry whose source gave this answer. -/
def outcomeOf (e : Engine ω) (q : Query) : Except Failure (List Bar) → Outcome
  | .ok rows => .rows (e.usable q rows).length
  | .error failure => .failed failure

end Engine

namespace Visit

/-- The standing of the source after its gate was read. -/
def gated (v : Visit ω) : Standing := ((v.market.standing v.source).gate v.market.now).2

/-- The standing of the source after the visit. -/
def settled (v : Visit ω) : Standing := v.after.standing v.source

/-- What comes of an entry whose source is asked is what the source answers to the call. -/
theorem outcome_of_called (v : Visit ω) (h : v.outcome.called = true) :
    v.outcome = v.engine.outcomeOf v.query
      (v.engine.call v.source v.query (v.market.gate v.source).2).1 := by
  obtain ⟨hconfigured, hopen⟩ := v.outcome_called.1 h
  rw [outcome, Engine.visit_eq, if_pos hconfigured, if_pos hopen]
  generalize v.engine.call v.source v.query (v.market.gate v.source).2 = called
  obtain ⟨answer, m⟩ := called
  cases answer with
  | ok rows => rfl
  | error failure => rfl

/-- A source that was asked is settled after its last answer. -/
theorem exists_settle (v : Visit ω) (h : v.outcome.called = true) :
    ∃ answer last, v.outcome = v.engine.outcomeOf v.query answer
      ∧ v.settled = v.engine.settle answer v.after.now { v.gated with lastRequest := last } := by
  have hafter := v.after_of_called h
  obtain ⟨m₁, -, hcall, ⟨last, hself⟩, -⟩ :=
    v.engine.exists_settle_of_call v.source v.query (v.market.gate v.source).2
  rw [hcall] at hafter
  refine ⟨_, last, v.outcome_of_called h, ?_⟩
  rw [settled, hafter, Market.standing_withStanding_self, hself, Market.standing_gate_self]
  rfl

/-- A visit leaves the standings of other sources alone. -/
theorem standing_after_of_ne (v : Visit ω) {other : String} (h : other ≠ v.source) :
    v.after.standing other = v.market.standing other := by
  have hgate := v.market.standing_gate_of_ne h
  by_cases hcalled : v.outcome.called = true
  · obtain ⟨m₁, -, hcall, -, hother⟩ :=
      v.engine.exists_settle_of_call v.source v.query (v.market.gate v.source).2
    rw [v.after_of_called hcalled, hcall, Market.standing_withStanding_of_ne _ _ h, hother other h,
      hgate]
  · rw [Bool.not_eq_true] at hcalled
    rcases v.after_of_not_called hcalled with hafter | ⟨hafter, -⟩
    · rw [hafter]
    · rw [hafter, hgate]

end Visit

/-! ## Visits of a walk -/

namespace Engine

/-- The visits of a walk over what is left of an order. -/
def walkVisits (e : Engine ω) (q : Query) :
    List String → List Bar → Market ω → List (Visit ω)
  | [], _, _ => []
  | source :: rest, bars, m =>
    let v : Visit ω := ⟨e, q, source, bars, m⟩
    v :: if v.Sufficient then [] else e.walkVisits q rest v.barsAfter v.after

/-- The visits of a fetch. -/
def fetchVisits (e : Engine ω) (q : Query) (m : Market ω) : List (Visit ω) :=
  if q.window.businessDayCount = 0 then [] else e.walkVisits q (e.orderFor q.symbol) [] m

/-- A walk is its first visit, after which it ends or goes on. -/
theorem walk_cons (e : Engine ω) (q : Query) (source : String) (rest : List String)
    (bars : List Bar) (m : Market ω) (v : Visit ω) (hv : v = ⟨e, q, source, bars, m⟩) :
    e.walk q (source :: rest) bars m
      = if v.Sufficient then (⟨v.barsAfter, v.coverage, [v.attempt]⟩, v.after)
        else
          let (merged, m') := e.walk q rest v.barsAfter v.after
          ({ merged with attempts := v.attempt :: merged.attempts }, m') := by
  subst hv
  rw [walk_cons_def]
  simp only [Bool.and_eq_true, decide_eq_true_eq]
  rfl

end Engine

/-! ## What visits keep -/

/-- A property of the visits so far and of the market holds where each of these visits begins, and
after the last of them. -/
structure Kept (P : List (Visit ω) → Market ω → Prop) (past row : List (Visit ω))
    (m' : Market ω) : Prop where
  begins : ∀ earlier v later, row = earlier ++ v :: later → P (past ++ earlier) v.market
  ends : P (past ++ row) m'

/-- Every visit of the engine for the query keeps the property. -/
def Engine.Keeps (e : Engine ω) (q : Query) (P : List (Visit ω) → Market ω → Prop) : Prop :=
  ∀ past source bars m, P past m →
    P (past ++ [⟨e, q, source, bars, m⟩]) (Visit.after ⟨e, q, source, bars, m⟩)

variable {P : List (Visit ω) → Market ω → Prop} {past row row' : List (Visit ω)}
variable {m m' : Market ω}

namespace Kept

/-- No visits keep anything. -/
theorem nil (h : P past m) : Kept P past [] m where
  begins earlier v later hsplit := by simp at hsplit
  ends := by rwa [List.append_nil]

/-- Two rows of visits are kept one after the other. -/
theorem append (h : Kept P past row m) (h' : Kept P (past ++ row) row' m') :
    Kept P past (row ++ row') m' where
  begins earlier v later hsplit := by
    rcases List.append_eq_append_iff.1 hsplit with ⟨rest, rfl, hrest⟩ | ⟨rest, rfl, hrest⟩
    · rw [← List.append_assoc]
      exact h'.begins rest v later hrest
    · -- the visit is the last of the first row, or comes before it
      cases rest with
      | nil =>
        rw [List.append_nil] at h'
        have hfirst := h'.begins [] v later (by simpa using hrest.symm)
        simpa using hfirst
      | cons first rest =>
        rw [List.cons_append, List.cons.injEq] at hrest
        exact h.begins earlier v rest (by rw [hrest.1])
  ends := by
    rw [← List.append_assoc]
    exact h'.ends

/-- A visit is kept before those that follow. -/
theorem cons {v : Visit ω} (h : P past v.market) (h' : Kept P (past ++ [v]) row m') :
    Kept P past (v :: row) m' where
  begins earlier w later hsplit := by
    cases earlier with
    | nil =>
      rw [List.nil_append, List.cons.injEq] at hsplit
      rw [List.append_nil, ← hsplit.1]
      exact h
    | cons first rest =>
      rw [List.cons_append, List.cons.injEq] at hsplit
      obtain ⟨rfl, hrest⟩ := hsplit
      have hlater := h'.begins rest w later hrest
      rwa [List.append_assoc, List.singleton_append] at hlater
  ends := by
    have hends := h'.ends
    rwa [List.append_assoc, List.singleton_append] at hends

end Kept

namespace Engine

/-- If every visit keeps a property, so does a walk, -/
theorem Keeps.walk {e : Engine ω} {q : Query} (h : e.Keeps q P) (order : List String)
    (bars : List Bar) (hm : P past m) :
    Kept P past (e.walkVisits q order bars m) (e.walk q order bars m).2 := by
  induction order generalizing bars m past with
  | nil => exact .nil hm
  | cons source rest ih =>
    have hvisit := h past source bars m hm
    rw [e.walk_cons q source rest bars m _ rfl, walkVisits]
    simp only
    by_cases hends : Visit.Sufficient ⟨e, q, source, bars, m⟩
    · rw [if_pos hends, if_pos hends]
      exact .cons hm (.nil hvisit)
    · rw [if_neg hends, if_neg hends]
      exact .cons hm (ih _ hvisit)

/-- a fetch -/
theorem Keeps.fetch {e : Engine ω} {q : Query} (h : e.Keeps q P) (hm : P past m) :
    Kept P past (e.fetchVisits q m) (e.fetch q m).2 := by
  unfold fetchVisits
  rw [Engine.fetch_def]
  split
  · exact .nil hm
  · exact h.walk _ _ hm

end Engine

namespace Traffic

/-- The visits that come of something that is done with the sources. -/
def visits (limits : Limits) (m : Market ω) : Traffic ω → List (Visit ω)
  | fetch e q => { e with limits }.fetchVisits q m
  | report .. | gate _ | wait _ | turn _ => []

/-- The visits of a run. -/
def visitLog (limits : Limits) : List (Traffic ω) → Market ω → List (Visit ω)
  | [], _ => []
  | t :: rest, m => t.visits limits m ++ visitLog limits rest (t.after limits m)

/-- What is done with the sources keeps the property. -/
def Keeps (limits : Limits) (P : List (Visit ω) → Market ω → Prop) (t : Traffic ω) : Prop :=
  match t with
  | fetch e q => { e with limits }.Keeps q P
  | report .. | gate _ | wait _ | turn _ => ∀ past m, P past m → P past (t.after limits m)

/-- and any traffic. -/
theorem Keeps.after {limits : Limits} {t : Traffic ω} (h : t.Keeps limits P) (hm : P past m) :
    Kept P past (t.visits limits m) (t.after limits m) := by
  cases t with
  | fetch e q => exact Engine.Keeps.fetch h hm
  | report e source answer => exact .nil (h past m hm)
  | gate source => exact .nil (h past m hm)
  | wait d => exact .nil (h past m hm)
  | turn f => exact .nil (h past m hm)

/-- What each step keeps, a whole run keeps. -/
theorem kept_run {limits : Limits} {events : List (Traffic ω)}
    (h : ∀ t ∈ events, t.Keeps limits P) (hm : P past m) :
    Kept P past (visitLog limits events m) (run limits events m) := by
  induction events generalizing m past with
  | nil => exact .nil hm
  | cons t rest ih =>
    have hfirst := (h t List.mem_cons_self).after hm
    exact hfirst.append (ih (fun u hu => h u (List.mem_cons_of_mem t hu)) hfirst.ends)

/-- Every visit of a run is one of a fetch, under the shared rules. -/
theorem exists_fetch_of_mem_visitLog {limits : Limits} {events : List (Traffic ω)} {v : Visit ω}
    (hv : v ∈ visitLog limits events m) :
    ∃ e, fetch e v.query ∈ events ∧ v.engine = { e with limits } := by
  have hkept : Kept (fun past _ => ∀ w ∈ past, ∃ e, fetch e w.query ∈ events
      ∧ w.engine = { e with limits }) [] (visitLog limits events m) (run limits events m) := by
    refine kept_run (fun t ht => ?_) nofun
    cases t with
    | fetch e q =>
      intro past source bars m hpast w hw
      rcases List.mem_append.1 hw with hw | hw
      · exact hpast w hw
      · rw [List.mem_singleton.1 hw]
        exact ⟨e, ht, rfl⟩
    | report e source answer => exact fun past m hpast => hpast
    | gate source => exact fun past m hpast => hpast
    | wait d => exact fun past m hpast => hpast
    | turn f => exact fun past m hpast => hpast
  exact hkept.ends v (by simpa using hv)

end Traffic
end DailyBars
