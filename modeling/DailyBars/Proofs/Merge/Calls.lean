import DailyBars.Proofs.Merge.Walk

/-! # Calls on record

The world outside can keep a record of every request that a source is asked. The engine does not see
the record, so it does the same with it as without it, and what it asks can be read off afterwards.
-/

namespace DailyBars

/-- A request to a source, when it was made and what was answered. -/
structure Call where
  source : String
  query : Query
  instant : Instant
  answer : Except Failure (List Bar)

/-- The world outside with the calls that were made so far, in their order. -/
structure Recorded (ω : Type) where
  outside : ω
  calls : List Call := []

variable {ω : Type}

/-- The sources with every call put on record. -/
def Sources.recorded (s : Sources ω) : Sources (Recorded ω) where
  configured := s.configured
  ask source q now world :=
    let (answer, outside) := s.ask source q now world.outside
    (answer, ⟨outside, world.calls ++ [⟨source, q, now, answer⟩]⟩)
  takes source q now world := s.takes source q now world.outside

/-- The engine with every call put on record. -/
def Engine.recorded (e : Engine ω) : Engine (Recorded ω) where
  sources := e.sources.recorded
  settings := e.settings
  limits := e.limits
  scaling := e.scaling

/-- The market without its record. -/
def Market.plain (m : Market (Recorded ω)) : Market ω := ⟨m.pace, m.outside.outside⟩

/-- The market with no call on record. -/
def Market.recording (m : Market ω) : Market (Recorded ω) := ⟨m.pace, ⟨m.outside, []⟩⟩

/-! ## The record is not seen -/

section

variable {μ ν : Type → Type} [Monad μ] [Monad ν]

/-- How work that puts calls on record looks without the record: its results, the order of its parts,
and what becomes of a value without a place. -/
structure Unrecorded (r : Market (Recorded ω) → Reckoning μ) (r' : Market ω → Reckoning ν) where
  view : {α β : Type} → (α → β) → μ α → ν β
  pure : ∀ {α β : Type} (f : α → β) (a : α), view f (Pure.pure a) = Pure.pure (f a)
  bind : ∀ {α β γ δ : Type} {f : α → β} {g : γ → δ} {x : μ α} {h : α → μ γ} {k : β → ν δ},
    (∀ a, view g (h a) = k (f a)) → view g (x >>= h) = view f x >>= k
  place : ∀ {α : Type} (m : Market (Recorded ω)) (fits : Prop) [Decidable fits] (a : α),
    view id ((r m).place fits a) = (r' m.plain).place fits a

/-- Without ends there is nothing but results. -/
def Unrecorded.endless :
    Unrecorded (fun _ : Market (Recorded ω) => .endless) (fun _ : Market ω => .endless) where
  view f a := f a
  pure _ _ := rfl
  bind h := h _
  place _ _ _ _ := rfl

/-- Where the program ends, the market is left as it would be without the record. -/
def Unrecorded.ending :
    Unrecorded (fun m : Market (Recorded ω) => .ending m) (fun m : Market ω => .ending m) where
  view f x := (x.map f).mapError Market.plain
  pure _ _ := rfl
  bind := by
    intro _ _ _ _ f g x h k hh
    cases x with
    | error m => rfl
    | ok a => exact hh a
  place := by
    intro _ m fits _ a
    by_cases h : fits
    · simp only [Reckoning.ending, if_pos h]
      rfl
    · simp only [Reckoning.ending, if_neg h]
      rfl

namespace Unrecorded

variable {r : Market (Recorded ω) → Reckoning μ} {r' : Market ω → Reckoning ν}
  (u : Unrecorded r r') (m : Market (Recorded ω))

/-- A value is followed by what is made of it. -/
theorem bind_same {α β : Type} {x : μ α} {y : ν α} {f : α → μ β} {g : α → ν β}
    (hx : u.view id x = y) (hf : ∀ a, u.view id (f a) = g a) :
    u.view id (x >>= f) = y >>= g := by
  rw [← hx]
  exact u.bind hf

/-- What is noted of a source does not depend on the record. -/
theorem view_settle (e : Engine ω) (answer : Except Failure (List Bar)) (now : Instant)
    (s : Standing) : u.view id (e.recorded.settleWith (r m) answer now s)
      = e.settleWith (r' m.plain) answer now s := by
  have hblocked : ∀ (s : Standing) (wait : Duration), u.view id (s.blockForWith (r m) now wait)
      = s.blockForWith (r' m.plain) now wait :=
    fun s wait => u.bind_same (u.place m _ _) fun _ => u.pure _ _
  cases answer with
  | ok rows => exact u.pure _ _
  | error failure =>
    cases failure with
    | rateLimited retryAfter =>
      cases retryAfter with
      | none => exact u.bind_same (u.place m _ _) fun _ => u.pure _ _
      | some wait => exact hblocked s wait
    | unavailable detail =>
      refine u.bind_same (u.place m _ _) fun failures => ?_
      simp only
      show u.view id (if e.limits.breaker.threshold ≤ failures then _ else _) = _
      split
      · exact hblocked _ _
      · exact u.pure _ _
    | notFound symbol => exact u.pure _ _
    | malformed detail => exact u.pure _ _
    | invalidSymbol symbol reason => exact u.pure _ _

/-- A request is made at the same time and has the same answer. -/
theorem view_ask (e : Engine ω) (source : String) (q : Query) :
    u.view (Prod.map id Market.plain) (e.recorded.askWith r source q m)
      = e.askWith r' source q m.plain := by
  have hpause : ∀ (s : Standing) (spacing : Duration) (now : Instant),
      u.view id (s.pauseWith (r m) spacing now) = s.pauseWith (r' m.plain) spacing now := by
    intro s spacing now
    unfold Standing.pauseWith
    cases s.lastRequest with
    | none => exact u.pure _ _
    | some last => exact u.bind_same (u.place m _ _) fun _ => u.pure _ _
  have hpace : u.view id (m.pace.awaitBudgetWith (r m) e.limits source)
      = m.plain.pace.awaitBudgetWith (r' m.plain) e.limits source := by
    unfold Pace.awaitBudgetWith
    cases e.limits.spacing? source with
    | none => exact u.pure _ _
    | some spacing => exact u.bind_same (hpause _ _ _) fun _ => u.pure _ _
  unfold Engine.askWith
  rw [← hpace]
  exact u.bind fun pace => u.pure _ _

/-- A call has the same answer, after one request or after two. -/
theorem view_call (e : Engine ω) (source : String) (q : Query) :
    u.view (Prod.map id Market.plain) (e.recorded.callWith r source q m)
      = e.callWith r' source q m.plain := by
  unfold Engine.callWith
  rw [← u.view_ask m]
  refine u.bind fun (first, m₁) => ?_
  have hretry : e.recorded.retryWait? first = e.retryWait? first := rfl
  have hnoted : ∀ x : μ (Except Failure (List Bar) × Market (Recorded ω)),
      u.view (Prod.map id Market.plain) (x >>= fun p =>
          e.recorded.settleWith (r p.2) p.1 p.2.now (p.2.standing source) >>= fun s =>
            Pure.pure (p.1, p.2.withStanding source fun _ => s))
        = u.view (Prod.map id Market.plain) x >>= fun p =>
          e.settleWith (r' p.2) p.1 p.2.now (p.2.standing source) >>= fun s =>
            Pure.pure (p.1, p.2.withStanding source fun _ => s) := by
    refine fun x => u.bind fun p => ?_
    rw [Prod.map_snd, Prod.map_fst, ← u.view_settle p.2]
    exact u.bind fun _ => u.pure _ _
  simp only [hretry, Prod.map_apply, id_eq]
  cases e.retryWait? first with
  | none =>
    refine (hnoted _).trans ?_
    rw [u.pure]
    rfl
  | some wait =>
    refine (hnoted _).trans ?_
    rw [u.view_ask]
    rfl

/-- A visit comes to the same outcome and the same bars. -/
theorem view_visit (e : Engine ω) (q : Query) (source : String) (bars : List Bar) :
    u.view (Prod.map id (Prod.map id Market.plain)) (e.recorded.visitWith r q source bars m)
      = e.visitWith r' q source bars m.plain := by
  have hgate : m.plain.gate source = ((m.gate source).1, (m.gate source).2.plain) := rfl
  have hconfigured : e.recorded.sources.configured source = e.sources.configured source := rfl
  unfold Engine.visitWith
  rw [hgate, hconfigured]
  generalize m.gate source = gated
  obtain ⟨gate, m'⟩ := gated
  by_cases hc : e.sources.configured source = true
  · rw [if_pos hc, if_pos hc]
    cases gate with
    | disabledUntil day => exact u.pure _ _
    | blockedUntil instant => exact u.pure _ _
    | opened =>
      simp only
      rw [← u.view_call m']
      refine u.bind fun (answer, m'') => ?_
      cases answer with
      | ok rows => exact u.pure _ _
      | error failure => exact u.pure _ _
  · rw [if_neg hc, if_neg hc]
    exact u.pure _ _

/-- A walk goes the same way. -/
theorem view_walk (e : Engine ω) (q : Query) (order : List String) (bars : List Bar) :
    u.view (Prod.map id Market.plain) (e.recorded.walkWith r q order bars m)
      = e.walkWith r' q order bars m.plain := by
  induction order generalizing bars m with
  | nil => exact u.pure _ _
  | cons source rest ih =>
    unfold Engine.walkWith
    rw [← u.view_visit m]
    refine u.bind fun (outcome, bars', m') => ?_
    have hsettings : e.recorded.settings = e.settings := rfl
    simp only [hsettings, Prod.map_apply, id_eq]
    split
    · exact u.pure _ _
    · rw [← ih m' bars']
      exact u.bind fun (merged, m'') => u.pure _ _

/-- Putting calls on record changes nothing else of a fetch. -/
theorem view_fetch (e : Engine ω) (q : Query) :
    u.view (Prod.map id Market.plain) (e.recorded.fetchWith r q m)
      = e.fetchWith r' q m.plain := by
  have hday : ∀ d : Day, u.view id ((r m).day d) = (r' m.plain).day d := fun d => u.place m _ _
  have hsteps : ∀ (n : Nat) (d : Day), u.view id (d.countOn (r m) n) = d.countOn (r' m.plain) n := by
    intro n
    induction n with
    | zero => exact fun d => u.pure _ _
    | succ n ih =>
      exact fun d => u.bind_same (hday _) fun d' => u.bind_same (ih d') fun _ => u.pure _ _
  have hcount : u.view id (q.window.businessDayCountWith (r m))
      = q.window.businessDayCountWith (r' m.plain) := by
    unfold Window.businessDayCountWith Day.businessDayCountWith
    split
    · exact u.pure _ _
    · exact u.bind_same (hday _) fun d => u.bind_same (hsteps _ d) fun _ => u.pure _ _
  unfold Engine.fetchWith
  rw [← hcount]
  refine u.bind fun count => ?_
  simp only [id_eq]
  split
  · exact u.pure _ _
  · exact u.view_walk m e q _ []

end Unrecorded

end

namespace Engine

/-- Putting calls on record changes no fetch. -/
theorem fetch_recorded (e : Engine ω) (q : Query) (m : Market (Recorded ω)) :
    (e.recorded.fetch q m).map id Market.plain = e.fetch q m.plain :=
  Unrecorded.endless.view_fetch m e q

/-- Nor does it where the program may end. -/
theorem fetch?_recorded (e : Engine ω) (q : Query) (m : Market (Recorded ω)) :
    ((e.recorded.fetch? q m).map (Prod.map id Market.plain)).mapError Market.plain
      = e.fetch? q m.plain :=
  Unrecorded.ending.view_fetch m e q

/-! ## One call, one visit -/

/-- A call is settled after one answer, or after a second one that was waited for. -/
theorem call_cases (e : Engine ω) (source : String) (q : Query) (m : Market ω) :
    (∃ answer m₁, e.ask source q m = (answer, m₁) ∧ e.retryWait? answer = none
        ∧ e.call source q m = (answer, m₁.withStanding source (e.settle answer m₁.now)))
      ∨ ∃ first m₁ wait answer m₂, e.ask source q m = (first, m₁)
        ∧ e.retryWait? first = some wait
        ∧ e.ask source q (m₁.sleep wait) = (answer, m₂)
        ∧ e.call source q m = (answer, m₂.withStanding source (e.settle answer m₂.now)) := by
  obtain ⟨first, m₁, hfirst⟩ : ∃ first m₁, e.ask source q m = (first, m₁) := ⟨_, _, rfl⟩
  cases hretry : e.retryWait? first with
  | none =>
    refine Or.inl ⟨first, m₁, hfirst, hretry, ?_⟩
    rw [call_def]
    simp only [hfirst, hretry]
  | some wait =>
    obtain ⟨answer, m₂, hsecond⟩ : ∃ answer m₂, e.ask source q (m₁.sleep wait) = (answer, m₂) :=
      ⟨_, _, rfl⟩
    refine Or.inr ⟨first, m₁, wait, answer, m₂, hfirst, hretry, hsecond, ?_⟩
    rw [call_def]
    simp only [hfirst, hretry, hsecond]

/-- What comes of a visit: nothing but its reading of the gate, or a call and its rows. -/
theorem visit_eq (e : Engine ω) (q : Query) (source : String) (bars : List Bar) (m : Market ω) :
    e.visit q source bars m
      = if e.sources.configured source then
          if (m.gate source).1 = .opened then
            match e.call source q (m.gate source).2 with
            | (.ok rows, m) =>
              (.rows (e.usable q rows).length, Series.merge bars (e.usable q rows), m)
            | (.error failure, m) => (.failed failure, bars, m)
          else (.skipped (m.gate source).1, bars, (m.gate source).2)
        else (.unconfigured, bars, m) := by
  rw [visit_def]
  obtain ⟨gate, m', hgate⟩ : ∃ gate m', m.gate source = (gate, m') := ⟨_, _, rfl⟩
  rw [hgate]
  cases gate <;> rfl

/-! ## What is put on record -/

/-- A request is put on record when it is made, which may be after a wait for the budget. -/
theorem recorded_ask (e : Engine ω) (source : String) (q : Query) (m : Market (Recorded ω)) :
    ∃ instant, (e.recorded.ask source q m).2.outside.calls
        = m.outside.calls ++ [⟨source, q, instant, (e.recorded.ask source q m).1⟩]
      ∧ m.now ≤ instant ∧ instant ≤ (e.recorded.ask source q m).2.now := by
  refine ⟨(m.withPace (·.awaitBudget e.limits source)).now, rfl,
    (before_awaitBudget m e.limits source).now_le, ?_⟩
  exact (Market.before_of_advance (m := m.withPace (·.awaitBudget e.limits source)) rfl).now_le

end Engine
end DailyBars
