import DailyBars.Proofs.Bar.Merging
import DailyBars.Proofs.Merge.Order
import DailyBars.Proofs.Number.Identity

/-! # Where merged bars come from

A walk lays the answers of its sources one over the other. So the bar of a date is the last sane row
of that date in the last answer that has one, in the unit that callers expect, and no row is lost,
brought back or priced twice on the way.
-/

namespace DailyBars

/-! ## Units -/

namespace Scaling

/-- The bar with its prices multiplied by the factor for its ticker, if there is one. -/
def priced (s : Scaling) (exchange symbol : String) (b : Bar) : Bar :=
  match s.factor? exchange symbol with
  | some factor => b.scale factor
  | none => b

/-- A factor that equals one is one. -/
theorem eq_one_of_beq {factor : Float} (h : (factor == 1.0) = true) : factor = 1.0 := by
  rcases Float.beq_iff_ne_nan_and_eq.1 h with ⟨-, -, heq | ⟨-, hzero⟩ | ⟨-, hzero⟩⟩
  · exact heq
  · exact absurd hzero (by decide)
  · exact absurd hzero (by decide)

/-- A factor of one may be left out. -/
theorem rescale_eq_priced (s : Scaling) (exchange symbol : String) :
    s.rescale exchange symbol = s.priced exchange symbol := by
  funext b
  unfold rescale priced
  cases s.factor? exchange symbol with
  | none => rfl
  | some factor =>
    simp only
    split
    next hone =>
      rw [eq_one_of_beq hone, Bar.scale]
      simp only [Number.product_one]
    next => rfl

end Scaling

/-! ## Rows of answers -/

namespace Series

/-- The last sane row of a date. -/
def lastSane? (rows : List Bar) (d : Day) : Option Bar := at? (rows.filter Bar.isSane).reverse d

/-- The last sane row of a date in the last of the answers that have one. -/
def lastSaneOf? (answers : List (List Bar)) (d : Day) : Option Bar :=
  answers.reverse.findSome? fun rows => lastSane? rows d

/-- The row is the last sane one of its date in the answer. -/
def IsLastSane (rows : List Bar) (raw : Bar) : Prop :=
  raw.isSane = true ∧ ∃ before after, rows = before ++ raw :: after
    ∧ ∀ b ∈ after, b.date = raw.date → b.isSane = false

/-- The row is the last sane one of its date in one answer, and no later answer has one. -/
def Prevails (answers : List (List Bar)) (raw : Bar) : Prop :=
  ∃ before rows after, answers = before ++ rows :: after ∧ IsLastSane rows raw
    ∧ ∀ later ∈ after, ∀ b ∈ later, b.date = raw.date → b.isSane = false

/-- The last sane row of a date is the first from the end. -/
theorem lastSane?_eq_find? (rows : List Bar) (d : Day) :
    lastSane? rows d = rows.reverse.find? fun b => b.isSane && decide (b.date = d) := by
  rw [lastSane?, ← List.filter_reverse, at?, List.find?_filter]
  simp only [Bool.decide_and, Bool.decide_eq_true]

/-- There is none just if no row of the date is sane, -/
theorem lastSane?_eq_none {rows : List Bar} {d : Day} :
    lastSane? rows d = none ↔ ∀ b ∈ rows, b.date = d → b.isSane = false := by
  rw [lastSane?_eq_find?, List.find?_eq_none]
  refine ⟨fun h b hb hd => ?_, fun h b hb => ?_⟩
  · have hnot := h b (List.mem_reverse.2 hb)
    simpa [hd] using hnot
  · have hnot := h b (List.mem_reverse.1 hb)
    simp only [Bool.and_eq_true, decide_eq_true_eq, not_and]
    intro hsane hd
    rw [hnot hd] at hsane
    cases hsane

/-- and otherwise it is the last of those that are. -/
theorem lastSane?_eq_some {rows : List Bar} {d : Day} {raw : Bar} :
    lastSane? rows d = some raw ↔ raw.date = d ∧ IsLastSane rows raw := by
  rw [lastSane?_eq_find?, find?_reverse_eq_some]
  simp only [Bool.and_eq_true, decide_eq_true_eq, Bool.and_eq_false_iff, decide_eq_false_iff_not]
  constructor
  · rintro ⟨⟨hsane, rfl⟩, before, after, hsplit, hnone⟩
    exact ⟨rfl, hsane, before, after, hsplit, fun b hb hd =>
      (hnone b hb).resolve_right fun hne => hne hd⟩
  · rintro ⟨rfl, hsane, before, after, hsplit, hnone⟩
    refine ⟨⟨hsane, rfl⟩, before, after, hsplit, fun b hb => ?_⟩
    by_cases hd : b.date = raw.date
    · exact Or.inl (hnone b hb hd)
    · exact Or.inr hd

/-- Over several answers there is none just if no answer has one, -/
theorem lastSaneOf?_eq_none {answers : List (List Bar)} {d : Day} :
    lastSaneOf? answers d = none
      ↔ ∀ rows ∈ answers, ∀ b ∈ rows, b.date = d → b.isSane = false := by
  simp only [lastSaneOf?, List.findSome?_eq_none_iff, List.mem_reverse, lastSane?_eq_none]

/-- and otherwise the last answer that has one prevails. -/
theorem lastSaneOf?_eq_some {answers : List (List Bar)} {d : Day} {raw : Bar} :
    lastSaneOf? answers d = some raw ↔ raw.date = d ∧ Prevails answers raw := by
  rw [lastSaneOf?, List.findSome?_eq_some_iff]
  constructor
  · rintro ⟨after, rows, before, hsplit, hfound, hnone⟩
    obtain ⟨rfl, hlast⟩ := lastSane?_eq_some.1 hfound
    refine ⟨rfl, before.reverse, rows, after.reverse, ?_, hlast, fun later hlater => ?_⟩
    · rw [← List.reverse_inj, hsplit]
      simp
    · exact lastSane?_eq_none.1 (hnone later (List.mem_reverse.1 hlater))
  · rintro ⟨rfl, before, rows, after, rfl, hlast, hnone⟩
    refine ⟨after.reverse, rows, before.reverse, by simp, lastSane?_eq_some.2 ⟨rfl, hlast⟩, ?_⟩
    intro later hlater
    exact lastSane?_eq_none.2 (hnone later (List.mem_reverse.1 hlater))

end Series

variable {ω : Type}

/-! ## Answers of visits -/

namespace Visit

/-- The rows that the source answered with, if it was asked and answered. -/
def answer? (v : Visit ω) : Option (List Bar) :=
  if v.outcome.called then
    (v.engine.call v.source v.query (v.market.gate v.source).2).1.toOption
  else none

/-- A visit lays the usable rows of its answer over the bars, or it has no answer. -/
theorem answer_cases (v : Visit ω) :
    (∃ rows, v.answer? = some rows
        ∧ v.outcome = .rows (v.engine.usable v.query rows).length
        ∧ v.barsAfter = Series.merge v.bars (v.engine.usable v.query rows))
      ∨ v.answer? = none ∧ v.outcome.answered = false ∧ v.barsAfter = v.bars := by
  by_cases hcalled : v.outcome.called = true
  · obtain ⟨hconfigured, hopen⟩ := v.outcome_called.1 hcalled
    have hvisit := v.engine.visit_eq v.query v.source v.bars v.market
    rw [if_pos hconfigured, if_pos hopen] at hvisit
    rw [answer?, if_pos hcalled, outcome, barsAfter]
    generalize v.engine.call v.source v.query (v.market.gate v.source).2 = called at hvisit
    obtain ⟨answer, m⟩ := called
    cases answer with
    | ok rows =>
      rw [hvisit]
      exact Or.inl ⟨rows, rfl, rfl, rfl⟩
    | error failure =>
      rw [hvisit]
      exact Or.inr ⟨rfl, rfl, rfl⟩
  · rcases v.engine.visit_cases v.query v.source v.bars v.market with
      ⟨rows, m', -, -, -, hvisit⟩ | ⟨hnot, hbars⟩
    · exact absurd (by rw [outcome, hvisit]; rfl) hcalled
    · exact Or.inr ⟨if_neg hcalled, hnot, hbars⟩

end Visit

namespace Engine

/-- Of the usable rows, the last of a date in the window is the last sane one. -/
theorem at?_usable (e : Engine ω) (q : Query) (rows : List Bar) {d : Day}
    (hd : q.window.contains d = true) :
    Series.at? (e.usable q rows).reverse d
      = (Series.lastSane? rows d).map (e.scaling.priced q.exchange q.symbol) := by
  rw [Series.lastSane?_eq_find?, usable, Scaling.apply_eq_map, ← List.map_reverse,
    ← List.filter_reverse, Series.at?, List.find?_map, List.find?_filter, Scaling.rescale_eq_priced]
  congr 2
  funext b
  have hdate : (e.scaling.priced q.exchange q.symbol b).date = b.date := by
    rw [← Scaling.rescale_eq_priced, Scaling.rescale_date]
  by_cases hb : b.date = d
  · simp [hdate, hb, hd]
  · simp [hdate, hb]

end Engine

namespace Visit

/-- What a visit leaves on a date of the window: what its answer has there, or else what there
was. -/
theorem at?_barsAfter (v : Visit ω) (h : Series.Ascending v.bars) {d : Day}
    (hd : v.query.window.contains d = true) :
    Series.at? v.barsAfter d
      = ((v.answer?.bind fun rows => Series.lastSane? rows d).map
          (v.engine.scaling.priced v.query.exchange v.query.symbol)).or (Series.at? v.bars d) := by
  rcases v.answer_cases with ⟨rows, hanswer, -, hbars⟩ | ⟨hanswer, -, hbars⟩
  · rw [hbars, hanswer, Series.at?_merge h, v.engine.at?_usable v.query rows hd]
    rfl
  · rw [hbars, hanswer]
    rfl

/-- A visit keeps the bars ascending. -/
theorem ascending_barsAfter (v : Visit ω) (h : Series.Ascending v.bars) :
    Series.Ascending v.barsAfter := by
  rcases v.answer_cases with ⟨rows, -, -, hbars⟩ | ⟨-, -, hbars⟩
  · rw [hbars]
    exact Series.ascending_merge _ _
  · rw [hbars]
    exact h

/-- An answer is what the source said to a request. -/
theorem exists_ask_of_answer {v : Visit ω} {rows : List Bar} (h : v.answer? = some rows) :
    ∃ now outside, (v.engine.sources.ask v.source v.query now outside).1 = .ok rows := by
  rw [answer?] at h
  split at h
  · apply Engine.exists_ask_of_call (m := (v.market.gate v.source).2)
    generalize (v.engine.call v.source v.query (v.market.gate v.source).2).1 = answer at h
    cases answer with
    | ok rows' =>
      injection h with h
      rw [h]
    | error failure => cases h
  · cases h

end Visit

/-! ## Answers of a walk -/

/-- The answers to the visits, in their order. -/
def answers (visits : List (Visit ω)) : List (List Bar) := visits.filterMap Visit.answer?

/-- Of a visit and those after it, the later ones decide where they have a row. -/
theorem lastSaneOf?_answers_cons (v : Visit ω) (rest : List (Visit ω)) (d : Day) :
    Series.lastSaneOf? (answers (v :: rest)) d
      = (Series.lastSaneOf? (answers rest) d).or
          (v.answer?.bind fun rows => Series.lastSane? rows d) := by
  unfold answers Series.lastSaneOf?
  cases hanswer : v.answer? with
  | none => rw [List.filterMap_cons_none hanswer, Option.bind_none, Option.or_none]
  | some rows =>
    rw [List.filterMap_cons_some hanswer, List.reverse_cons, List.findSome?_append]
    simp

/-- The bars after a row of visits, date by date. -/
theorem Linked.at? {e : Engine ω} {q : Query} {visits : List (Visit ω)} {bars bars' : List Bar}
    {m m' : Market ω} (h : Linked bars m visits bars' m')
    (hlooks : ∀ v ∈ visits, v.engine = e ∧ v.query = q) (hasc : Series.Ascending bars) {d : Day}
    (hd : q.window.contains d = true) :
    Series.at? bars' d
      = ((Series.lastSaneOf? (answers visits) d).map
          (e.scaling.priced q.exchange q.symbol)).or (Series.at? bars d) := by
  induction visits generalizing bars m with
  | nil =>
    rw [h.1]
    rfl
  | cons v rest ih =>
    obtain ⟨rfl, -, hrest⟩ := h
    obtain ⟨rfl, rfl⟩ := hlooks v List.mem_cons_self
    rw [ih hrest (fun w hw => hlooks w (List.mem_cons_of_mem v hw)) (v.ascending_barsAfter hasc),
      v.at?_barsAfter hasc hd, lastSaneOf?_answers_cons, Option.map_or, Option.or_assoc]

/-- A fetch is its visits, one after another from no bars at all. -/
theorem Engine.linked_fetch (e : Engine ω) (q : Query) (m : Market ω) :
    (∀ v ∈ e.fetchVisits q m, v.engine = e ∧ v.query = q)
      ∧ (e.fetch q m).1.attempts = (e.fetchVisits q m).map Visit.attempt
      ∧ Linked [] m (e.fetchVisits q m) (e.fetch q m).1.bars (e.fetch q m).2 := by
  unfold Engine.fetchVisits
  rw [Engine.fetch_def]
  split
  · exact ⟨fun v hv => absurd hv List.not_mem_nil, rfl, rfl, rfl⟩
  · have hwalked := walked_walk e q (e.orderFor q.symbol) [] m
    exact ⟨hwalked.looks, hwalked.attempts, hwalked.linked⟩

/-- The bars of a walk are what its answers come to. -/
structure Provenance (e : Engine ω) (q : Query) (visits : List (Visit ω)) (merged : Merged) :
    Prop where
  attempts : merged.attempts = visits.map Visit.attempt
  answered : ∀ v ∈ visits, v.outcome.answered = true ↔ ∃ rows, v.answer? = some rows
  given : ∀ v ∈ visits, ∀ rows, v.answer? = some rows →
    ∃ now outside, (e.sources.ask v.source q now outside).1 = .ok rows
  counts : ∀ v ∈ visits, ∀ rows, v.answer? = some rows →
    v.outcome = .rows (rows.countP fun b => q.window.contains b.date && b.isSane)
  ascending : Series.Ascending merged.bars
  inWindow : ∀ b ∈ merged.bars, q.window.contains b.date = true
  dates : ∀ d, q.window.contains d = true →
    ((∃ b ∈ merged.bars, b.date = d)
      ↔ ∃ rows ∈ answers visits, ∃ raw ∈ rows, raw.date = d ∧ raw.isSane = true)
  bars : ∀ d, q.window.contains d = true → ∀ b,
    b ∈ merged.bars ∧ b.date = d
      ↔ ∃ raw, (raw.date = d ∧ Series.Prevails (answers visits) raw)
        ∧ e.scaling.priced q.exchange q.symbol raw = b

/-- **Every merged bar is one row of one answer.** Whatever the sources answer, in which order and
however often: the bars are a series within the window. On a date of the window there is a bar if and
only if some answer has a sane row of that date, and it is the last such row of the last such answer,
its prices multiplied once by the factor for its ticker. An attempt that was answered counts the sane
rows of its own answer that are dated in the window. -/
theorem fetch_provenance (e : Engine ω) (q : Query) (m : Market ω) :
    Provenance e q (e.fetchVisits q m) (e.fetch q m).1 := by
  obtain ⟨hlooks, hattempts, hlinked⟩ := e.linked_fetch q m
  have hsound := e.sound_fetch q m
  have hone := Series.onePerDate_of_ascending hsound.ascending
  have hat : ∀ d, q.window.contains d = true → Series.at? (e.fetch q m).1.bars d
      = (Series.lastSaneOf? (answers (e.fetchVisits q m)) d).map
          (e.scaling.priced q.exchange q.symbol) := by
    intro d hd
    rw [hlinked.at? hlooks List.Pairwise.nil hd]
    exact Option.or_none
  refine ⟨hattempts, fun v hv => ?_, fun v hv rows hanswer => ?_, fun v hv rows hanswer => ?_,
    hsound.ascending, fun b hb => (hsound.yields b hb).inWindow, fun d hd => ?_, fun d hd b => ?_⟩
  · rcases v.answer_cases with ⟨rows, hanswer, houtcome, -⟩ | ⟨hanswer, hnot, -⟩
    · exact ⟨fun _ => ⟨rows, hanswer⟩, fun _ => by rw [houtcome, Outcome.answered]⟩
    · rw [hnot, hanswer]
      simp
  · obtain ⟨hengine, hquery⟩ := hlooks v hv
    rw [← hengine, ← hquery]
    exact Visit.exists_ask_of_answer hanswer
  · obtain ⟨hengine, hquery⟩ := hlooks v hv
    rcases v.answer_cases with ⟨rows', hanswer', houtcome, -⟩ | ⟨hnone, -, -⟩
    · rw [hanswer, Option.some.injEq] at hanswer'
      rw [houtcome, hquery, ← hanswer', Engine.usable, Scaling.apply_eq_map, List.length_map,
        List.countP_eq_length_filter]
    · rw [hanswer] at hnone
      cases hnone
  · -- there is none exactly where no answer has one
    rw [← not_iff_not]
    have hnone : (¬ ∃ b ∈ (e.fetch q m).1.bars, b.date = d)
        ↔ Series.at? (e.fetch q m).1.bars d = none := by
      simp [Series.at?_eq_none]
    rw [hnone, hat d hd, Option.map_eq_none_iff, Series.lastSaneOf?_eq_none]
    simp
  · rw [← Series.at?_eq_some hone, hat d hd, Option.map_eq_some_iff]
    simp only [Series.lastSaneOf?_eq_some]

end DailyBars
