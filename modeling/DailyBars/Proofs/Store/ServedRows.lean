import DailyBars.Proofs.Store.Load

/-! # What any storage serves

Nothing is known about the storage here: its texts may come from elsewhere, and any access may
fail. Still the rows of an answer are ascending and dated in the window, because each way to an
answer puts them in order or clips an ordered series, and the memo only holds such answers.
-/

namespace DailyBars

namespace Series

/-- Bars as a request for a window is to get them. -/
structure Fits (bars : List Bar) (w : Window) : Prop where
  ascending : Ascending bars
  inWindow : ∀ b ∈ bars, w.contains b.date = true

/-- No rows fit any window. -/
theorem fits_nil (w : Window) : Fits [] w := ⟨List.Pairwise.nil, nofun⟩

/-- An ascending list fits the window it is clipped to. -/
theorem fits_clip {bars : List Bar} (h : Ascending bars) (w : Window) : Fits (clip bars w) w :=
  ⟨ascending_clip h w, fun _ hb => (mem_clip.1 hb).2⟩

/-- Only the dates of the bars matter. -/
theorem Fits.map {bars : List Bar} {w : Window} (h : Fits bars w) {f : Bar → Bar}
    (hf : ∀ b, (f b).date = b.date) : Fits (bars.map f) w where
  ascending := List.pairwise_map.2 (h.ascending.imp fun hlt => by rwa [hf, hf])
  inWindow := by
    intro b hb
    obtain ⟨a, ha, rfl⟩ := List.mem_map.1 hb
    rw [hf]
    exact h.inWindow a ha

end Series

/-! ## Invariants and results of computations -/

/-- Begun in a state with the invariant, the computation ends in one, and a result that it gives has
the property. -/
def Keeps {ε τ α : Type} (I : τ → Prop) (x : ExceptT ε (StateM τ) α) (Q : α → Prop) : Prop :=
  ∀ s, I s → I (x s).2 ∧ ∀ a, (x s).1 = .ok a → Q a

namespace Keeps

variable {ε τ α β : Type} {I : τ → Prop} {P : α → Prop} {Q : β → Prop}

/-- A value keeps what holds of it. -/
theorem pure {a : α} (h : P a) : Keeps I (Pure.pure a : ExceptT ε (StateM τ) α) P := by
  intro s hs
  refine ⟨hs, fun b hb => ?_⟩
  cases hb
  exact h

/-- An error keeps anything. -/
theorem throw (e : ε) : Keeps I (MonadExcept.throw e : ExceptT ε (StateM τ) α) P :=
  fun _ hs => ⟨hs, nofun⟩

/-- A value that does not depend on the state. -/
theorem lift (x : Except ε α) :
    Keeps I (liftM x : ExceptT ε (StateM τ) α) fun a => x = .ok a :=
  fun _ hs => ⟨hs, fun _ ha => ha⟩

/-- Two computations in a row keep what each keeps from what the one before gives. -/
theorem bind {x : ExceptT ε (StateM τ) α} {f : α → ExceptT ε (StateM τ) β} (hx : Keeps I x P)
    (hf : ∀ a, P a → Keeps I (f a) Q) : Keeps I (x >>= f) Q := by
  intro s hs
  obtain ⟨hstate, hresult⟩ := hx s hs
  obtain ⟨r, s', hrun⟩ : ∃ r s', x s = (r, s') := ⟨_, _, rfl⟩
  rw [hrun] at hstate hresult
  cases r with
  | error e =>
    rw [bind_of_error hrun]
    exact ⟨hstate, nofun⟩
  | ok a =>
    rw [bind_of_ok hrun]
    exact hf a (hresult a rfl) s' hstate

/-- A choice keeps what both sides keep. -/
theorem ite {c : Prop} [Decidable c] {x y : ExceptT ε (StateM τ) α} (hx : c → Keeps I x P)
    (hy : ¬ c → Keeps I y P) : Keeps I (if c then x else y) P := by
  by_cases h : c
  · rw [if_pos h]
    exact hx h
  · rw [if_neg h]
    exact hy h

/-- Nothing is asked of the state or of the result. -/
theorem anything (x : ExceptT ε (StateM τ) α) : Keeps (fun _ => True) x fun _ => True :=
  fun _ _ => ⟨True.intro, fun _ _ => True.intro⟩

end Keeps

/-! ## Rows that are read -/

/-- The rows that are read are ascending, in whatever order they lie in the storage. -/
theorem Storage.ascending_readSeries {σ : Type} (storage : Storage σ) (key : SeriesKey) :
    Keeps (fun _ => True) (storage.readSeries key) fun found =>
      Series.Ascending (found.getD []) := by
  have hnone : Series.Ascending ((none : Option (List Bar)).getD []) := List.Pairwise.nil
  unfold readSeries
  refine (Keeps.anything _).bind fun text _ => ?_
  cases text with
  | none => exact Keeps.pure hnone
  | some text =>
    simp only
    cases Series.decode text key.exchange with
    | ok bars => exact Keeps.pure (Series.ascending_keepFirst bars)
    | error fault =>
      cases fault with
      | dateOutsideCalendar row => exact Keeps.throw _
      | _ =>
        refine (Keeps.anything _).bind fun _ _ => (Keeps.anything _).bind fun record _ => ?_
        split
        · exact (Keeps.anything _).bind fun _ _ => Keeps.pure hnone
        · exact Keeps.pure hnone

/-! ## Answers of a store -/

variable {σ ω : Type}

/-- Every remembered answer fits its request. -/
def StoreState.Tidy (s : StoreState σ ω) : Prop :=
  ∀ k rows, s.memo.Gives k rows → Series.Fits rows k.window

/-- With an empty memo, a state is tidy. -/
theorem StoreState.tidy_of_empty (storage : σ) (market : Market ω) (capacity : Nat) :
    StoreState.Tidy ⟨storage, market, .empty capacity⟩ :=
  fun _ _ h => absurd h Memo.gives_empty

/-- Merging puts what was fetched in order. -/
theorem Delta.ascending_extended (d : Delta) {rows : List Bar} (h : Series.Ascending rows) :
    Series.Ascending (d.extended rows) := by
  unfold extended
  split
  · exact h
  · exact Series.ascending_merge _ _

namespace RollingStore

/-- The memo is not touched by a computation on the storage, -/
theorem tidy_onStorage {α : Type} {run : Storing σ α} {Q : α → Prop}
    (h : Keeps (fun _ => True) run Q) :
    Keeps StoreState.Tidy (onStorage run : StoreM σ ω α) Q :=
  fun s hs => ⟨hs, (h s.storage True.intro).2⟩

/-- nor by asking for the day. -/
theorem tidy_today : Keeps StoreState.Tidy (today : StoreM σ ω Day) fun _ => True :=
  fun _ hs => ⟨hs, fun _ _ => True.intro⟩

/-- What the memo remembers fits the window it was asked for. -/
theorem tidy_remembered (key : MemoKey) :
    Keeps StoreState.Tidy (remembered key : StoreM σ ω (Option (List Bar)))
      fun hit => ∀ bars, hit = some bars → Series.Fits bars key.window := by
  intro s hs
  rw [remembered_apply]
  refine ⟨fun k rows h => hs k rows (Memo.gives_get.1 h), fun hit hhit bars hbars => ?_⟩
  cases hhit
  exact hs key bars hbars

/-- Remembering rows that fit their window keeps the memo tidy. -/
theorem tidy_remember (key : MemoKey) {bars : List Bar} (h : Series.Fits bars key.window) :
    Keeps StoreState.Tidy (remember key bars : StoreM σ ω Unit) fun _ => True := by
  refine fun s hs => ⟨fun k rows hgives => ?_, fun _ _ => True.intro⟩
  rcases Memo.gives_insert hgives with ⟨rfl, rfl⟩ | hgives
  · exact h
  · exact hs k rows hgives

/-- Forgetting keeps the memo tidy. -/
theorem tidy_forget (key : SeriesKey) :
    Keeps StoreState.Tidy (forget key : StoreM σ ω Unit) fun _ => True :=
  fun _ hs => ⟨fun k rows h => hs k rows (Memo.gives_retain h).2, fun _ _ => True.intro⟩

variable (store : RollingStore σ ω)

/-- Fetching keeps the memo tidy. -/
theorem tidy_fetchRanges (key : SeriesKey) (ranges : List Window) :
    Keeps StoreState.Tidy (store.fetchRanges key ranges) fun _ => True :=
  fun _ hs => ⟨hs, fun _ _ => True.intro⟩

/-- The account of a key has ascending rows. -/
theorem tidy_account (key : SeriesKey) (today : Day) :
    Keeps StoreState.Tidy (store.account key today) fun a => Series.Ascending a.rows := by
  refine (tidy_onStorage (store.storage.ascending_readSeries key)).bind fun found hfound => ?_
  refine (tidy_onStorage (Keeps.anything _)).bind fun checked _ => ?_
  cases CheckedSpan.settledOf? checked today with
  | some settled => exact Keeps.pure hfound
  | none => exact Keeps.throw _

/-- Writing extended rows leaves ascending ones. -/
theorem tidy_persist (key : SeriesKey) {rows : List Bar} (h : Series.Ascending rows) (d : Delta)
    (today : Day) : Keeps StoreState.Tidy (store.persist key rows d today) fun r =>
      Series.Ascending r.1 := by
  have hrows : ∀ stored, Keeps StoreState.Tidy
      (pure (d.extended rows, stored) : StoreM σ ω (List Bar × Bool))
      fun r => Series.Ascending r.1 :=
    fun _ => Keeps.pure (d.ascending_extended h)
  rw [persist_eq]
  refine Keeps.bind (P := fun _ => True) ?_ fun stored _ => ?_
  · exact Keeps.ite (fun _ => Keeps.pure True.intro)
      fun _ => tidy_onStorage (Keeps.anything _)
  · cases d.answered with
    | none => exact hrows stored
    | some span =>
      exact Keeps.ite (fun _ => (tidy_onStorage (Keeps.anything _)).bind fun _ _ => hrows stored)
        fun _ => hrows stored

/-- Extending an account reports rows that fit the requested window. -/
theorem tidy_extend (key : SeriesKey) {account : Account} (h : Series.Ascending account.rows)
    (window requested : Window) (today : Day) :
    Keeps StoreState.Tidy (store.extend key account window requested today) fun report =>
      Series.Fits report.rows requested := by
  refine (store.tidy_fetchRanges key _).bind fun fetched _ => ?_
  refine (store.tidy_persist key h ⟨account.covered, fetched⟩ today).bind fun r hr => ?_
  refine (tidy_forget key).bind fun _ _ => ?_
  exact Keeps.pure (Series.fits_clip hr requested)

/-- So does a load past the memo, -/
theorem tidy_loadFresh (key : SeriesKey) (requested : Window) (today : Day) :
    Keeps StoreState.Tidy (store.loadFresh key requested today) fun report =>
      Series.Fits report.rows requested := by
  refine (store.tidy_account key today).bind fun account haccount => ?_
  have hcached := Series.fits_clip haccount requested
  cases Window.normalized ⟨requested.first, min requested.last today⟩ with
  | none => exact Keeps.pure hcached
  | some window =>
    refine Keeps.ite (fun _ => Keeps.pure hcached) fun _ => ?_
    exact Keeps.ite (fun _ => Keeps.throw _)
      fun _ => store.tidy_extend key haccount window requested today

/-- and an answer, from the memo or past it. -/
theorem tidy_answer (symbol exchange : String) (requested : Window) :
    Keeps StoreState.Tidy (store.answer symbol exchange requested) fun a =>
      Series.Fits a.rows requested := by
  unfold answer
  refine Keeps.ite (fun _ => Keeps.pure (Series.fits_nil requested)) fun _ => ?_
  simp only
  cases (SeriesKey.of symbol exchange).check with
  | error fault => exact Keeps.throw _
  | ok u =>
    refine tidy_today.bind fun today _ => ?_
    refine (tidy_remembered _).bind fun hit hhit => ?_
    cases hit with
    | some bars => exact Keeps.pure (hhit bars rfl)
    | none =>
      refine (store.tidy_loadFresh _ requested today).bind fun report hreport => ?_
      refine Keeps.ite (fun _ => (tidy_remember _ hreport).bind fun _ _ => ?_) fun _ => ?_
      · exact Keeps.pure hreport
      · exact Keeps.pure hreport

/-- Whatever lies in the storage and whatever the sources answer, the rows of a load fit its
window. -/
theorem tidy_load (symbol exchange : String) (requested : Window) :
    Keeps StoreState.Tidy (store.load symbol exchange requested) fun rows =>
      Series.Fits rows requested :=
  (store.tidy_answer symbol exchange requested).bind fun _ h => Keeps.pure h

end RollingStore
end DailyBars
