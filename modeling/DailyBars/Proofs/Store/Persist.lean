import DailyBars.Proofs.Store.Access
import DailyBars.Proofs.Store.Delta

/-! # What is read and what is written

A load reads what is held for its key. What came of asking is written in two steps, first the series
and then the span, and the second is only taken if the first succeeded.
-/

namespace DailyBars

/-! ## Accounts and what is written -/

/-- The rows after a delta. -/
def Delta.extended (d : Delta) (rows : List Bar) : List Bar :=
  if d.bars.isEmpty then rows else Series.merge rows d.bars

/-- What is written after a delta: the extended series if there are new bars, and then, if the
series is stored, the span that is accounted for if it grew. Each write may fail. -/
structure Written {σ : Type} {storage : Storage σ} (view : storage.View) (key : SeriesKey)
    (rows : List Bar) (d : Delta) (today : Day) (stored : Bool) (t t' : Texts) : Prop where
  series : d.bars = [] ∧ stored = true ∧ t' key.seriesName = t key.seriesName
    ∨ d.bars ≠ [] ∧ stored = true
      ∧ t' key.seriesName = some (Series.encode (Series.merge rows d.bars) key.symbol)
    ∨ d.bars ≠ [] ∧ stored = false ∧ t' key.seriesName = t key.seriesName
  span : t' key.spanName = t key.spanName
    ∨ stored = true ∧ ∃ w, d.answered = some w ∧ d.answered ≠ d.covered
      ∧ t' key.spanName = some (CheckedSpan.of w today).toJson
  others : ∀ n, ¬ key.Owns n → t' n = t n
  reliable : view.Reliable → stored = true ∧ ∀ w, d.answered = some w → d.answered ≠ d.covered →
    t' key.spanName = some (CheckedSpan.of w today).toJson

namespace RollingStore

variable {σ ω : Type}

/-- A computation on the storage leaves the rest of the state, -/
theorem onStorage_of {α : Type} {run : Storing σ α} {s : StoreState σ ω} {r : Except DataError α}
    {s' : σ} (h : run s.storage = (r, s')) : onStorage run s = (r, { s with storage := s' }) := by
  unfold onStorage
  rw [h]

/-- goes as it does alone -/
theorem storage_of_onStorage {α : Type} {run : Storing σ α} {s s' : StoreState σ ω}
    {r : Except DataError α} (h : onStorage run s = (r, s')) :
    run s.storage = (r, s'.storage) := by
  unfold onStorage at h
  generalize run s.storage = p at h ⊢
  cases h
  rfl

/-- and leaves the market. -/
theorem market_of_onStorage {α : Type} {run : Storing σ α} {s s' : StoreState σ ω}
    {r : Except DataError α} (h : onStorage run s = (r, s')) : s'.market = s.market := by
  cases h
  rfl

/-- An attempt on the storage is no failure of the load. -/
theorem onStorage_succeeds {α : Type} (run : Storing σ α) (s : StoreState σ ω) :
    ∃ b s', onStorage (Storage.succeeds run) s = (.ok b, s') ∧ s'.market = s.market :=
  ⟨_, _, rfl, rfl⟩

variable (store : RollingStore σ ω) (view : store.storage.View)

/-- What is held for the key is read, unless its series has a date outside the calendar. It makes an
account if its span can be trimmed. -/
theorem account_spec {key : SeriesKey} (hkey : key.Valid) (today : Day) {s : StoreState σ ω}
    (hs : view.Works s.storage) : ∃ r st, store.account key today s = (r, { s with storage := st })
      ∧ view.Works st
      ∧ (r = .error .outsideCalendar ∧ ¬ (view.texts s.storage).Readable key
          ∧ view.texts st = view.texts s.storage
        ∨ Cleared view key (view.texts s.storage) (view.texts st)
          ∧ (view.Reliable → view.keeps = false → (view.texts st).Readable key)
          ∧ r = if ((view.texts st).held key).Trims today then
              .ok ⟨((view.texts st).held key).rows, ((view.texts st).held key).covered today⟩
            else .error .outsideCalendar) := by
  obtain ⟨r, st₁, hread, hworks₁, hcases⟩ := Storage.readSeries_spec view hkey hs
  have hread' : onStorage (store.storage.readSeries key) s = (r, { s with storage := st₁ }) :=
    onStorage_of hread
  unfold account
  rcases hcases with ⟨rfl, hunreadable, htexts⟩ | ⟨⟨found, rfl, hfound⟩, hcleared, hgone⟩
  · exact ⟨_, st₁, bind_of_error hread', hworks₁, Or.inl ⟨rfl, hunreadable, htexts⟩⟩
  · obtain ⟨st₂, hspan, hworks₂, htexts₂⟩ :=
      Storage.access_read view (SeriesKey.isFile_spanName hkey) hworks₁
    have hspan' : onStorage (store.storage.readSpan key) { s with storage := st₁ }
        = (.ok ((view.texts st₁ key.spanName).bind CheckedSpan.parse?),
          { s with storage := st₂ }) := by
      apply onStorage_of
      unfold Storage.readSpan
      rw [bind_of_ok hspan]
      rfl
    rw [← htexts₂] at hspan' hfound hcleared hgone
    have hheld : (view.texts st₂ key.spanName).bind CheckedSpan.parse?
        = ((view.texts st₂).held key).span := rfl
    refine ⟨_, st₂, ?_, hworks₂, Or.inr ⟨hcleared, hgone, rfl⟩⟩
    rw [bind_of_ok hread', bind_of_ok hspan', hheld, hfound]
    by_cases htrims : ((view.texts st₂).held key).Trims today
    · rw [htrims.settledOf?, if_pos htrims]
      rfl
    · have hnone : CheckedSpan.settledOf? ((view.texts st₂).held key).span today = none := by
        simpa [Held.Trims] using htrims
      rw [hnone, if_neg htrims]
      rfl

/-- An account has a window in order, and the market is not asked for it. -/
theorem ordered_of_account {key : SeriesKey} {today : Day} {s s' : StoreState σ ω}
    {account : Account}
    (h : store.account key today s = (.ok account, s')) :
    Window.Ordered account.covered ∧ s'.market = s.market := by
  unfold RollingStore.account at h
  obtain ⟨found, s₁, hseries, h⟩ := exists_of_bind_ok h
  obtain ⟨span?, s₂, hspan, h⟩ := exists_of_bind_ok h
  have hmarket : s₂.market = s.market :=
    (market_of_onStorage hspan).trans (market_of_onStorage hseries)
  have hread : store.storage.readSeries key s.storage = (.ok found, s₁.storage) :=
    storage_of_onStorage hseries
  have hordered : Window.Ordered (span?.bind (·.settled today)) := by
    cases span? with
    | none =>
      intro w hw
      cases hw
    | some span => exact span.ordered_settled today
  cases hsettled : CheckedSpan.settledOf? span? today with
  | none =>
    rw [hsettled] at h
    cases h
  | some settled =>
    rw [← CheckedSpan.eq_of_settledOf? hsettled] at hordered
    rw [hsettled] at h
    cases h
    exact ⟨Window.ordered_hull?
      (Series.ordered_span (Storage.ascending_of_readSeries hread)) hordered, hmarket⟩

/-- The first write: the extended series, if there are new bars. -/
theorem persist_series {key : SeriesKey} (hkey : key.Valid) (rows : List Bar) (d : Delta)
    {s : StoreState σ ω} (hs : view.Works s.storage) : ∃ (stored : Bool) (st : σ),
    (if d.bars.isEmpty then pure true
      else onStorage (Storage.succeeds (store.storage.writeSeries key (d.extended rows)))
        : StoreM σ ω Bool) s = (.ok stored, { s with storage := st })
      ∧ view.Works st ∧ (view.Reliable → stored = true)
      ∧ (∀ n, n ≠ key.seriesName → view.texts st n = view.texts s.storage n)
      ∧ (d.bars = [] ∧ stored = true
          ∧ view.texts st key.seriesName = view.texts s.storage key.seriesName
        ∨ d.bars ≠ [] ∧ stored = true
          ∧ view.texts st key.seriesName
            = some (Series.encode (Series.merge rows d.bars) key.symbol)
        ∨ d.bars ≠ [] ∧ stored = false
          ∧ view.texts st key.seriesName = view.texts s.storage key.seriesName) := by
  by_cases hbars : d.bars = []
  · rw [if_pos (by rw [hbars]; rfl)]
    exact ⟨true, s.storage, rfl, hs, fun _ => rfl, fun _ _ => rfl, Or.inl ⟨hbars, rfl, rfl⟩⟩
  · have hsome : d.bars.isEmpty = false := by simpa using hbars
    have hmerged : d.extended rows = Series.merge rows d.bars := by
      rw [Delta.extended, hsome]
      rfl
    have hne : (Series.merge rows d.bars).isEmpty = false := by
      simpa using Series.merge_ne_nil rows hbars
    obtain ⟨stored, st, hwrite, hworks, hreliable, htexts⟩ := Storage.succeeds_write view
      (SeriesKey.isFile_seriesName hkey) (Series.encode (Series.merge rows d.bars) key.symbol) hs
    refine ⟨stored, st, ?_, hworks, hreliable, ?_, ?_⟩
    · rw [if_neg (by simp [hsome]), hmerged]
      apply onStorage_of
      unfold Storage.writeSeries
      rw [hne]
      exact hwrite
    · intro n hn
      rcases htexts with ⟨-, h⟩ | ⟨-, h⟩
      · rw [h, Texts.put_of_ne _ _ hn]
      · rw [h]
    · rcases htexts with ⟨hstored, h⟩ | ⟨hstored, h⟩
      · exact Or.inr (Or.inl ⟨hbars, hstored, by rw [h, Texts.put_self]⟩)
      · exact Or.inr (Or.inr ⟨hbars, hstored, by rw [h]⟩)

/-- The second write: a span that grew. -/
theorem persist_span {key : SeriesKey} (hkey : key.Valid) (span : CheckedSpan) {s : StoreState σ ω}
    (hs : view.Works s.storage) : ∃ (recorded : Bool) (st : σ),
    (onStorage (Storage.succeeds (store.storage.writeSpan key span)) : StoreM σ ω Bool) s
        = (.ok recorded, { s with storage := st })
      ∧ view.Works st
      ∧ (∀ n, n ≠ key.spanName → view.texts st n = view.texts s.storage n)
      ∧ (view.texts st key.spanName = some span.toJson
        ∨ ¬ view.Reliable ∧ view.texts st key.spanName = view.texts s.storage key.spanName) := by
  obtain ⟨recorded, st, hwrite, hworks, hreliable, htexts⟩ := Storage.succeeds_write view
    (SeriesKey.isFile_spanName hkey) span.toJson hs
  refine ⟨recorded, st, onStorage_of hwrite, hworks, fun n hn => ?_, ?_⟩
  · rcases htexts with ⟨-, h⟩ | ⟨-, h⟩
    · rw [h, Texts.put_of_ne _ _ hn]
    · rw [h]
  · rcases htexts with ⟨-, h⟩ | ⟨hlost, h⟩
    · exact Or.inl (by rw [h, Texts.put_self])
    · refine Or.inr ⟨fun hworking => ?_, by rw [h]⟩
      rw [hreliable hworking] at hlost
      cases hlost

/-- Storing writes the series and then, in some cases, the span. -/
theorem persist_eq (key : SeriesKey) (rows : List Bar) (d : Delta) (today : Day) :
    store.persist key rows d today =
      (if d.bars.isEmpty then pure true
        else onStorage (Storage.succeeds (store.storage.writeSeries key (d.extended rows)))
          : StoreM σ ω Bool) >>= fun stored =>
        match d.answered with
        | some span =>
          if stored ∧ d.answered ≠ d.covered then do
            let _ ← onStorage (Storage.succeeds (store.storage.writeSpan key (.of span today)))
            pure (d.extended rows, stored)
          else pure (d.extended rows, stored)
        | none => pure (d.extended rows, stored) := by
  unfold persist Delta.extended
  split <;> rfl

/-- Storing what was fetched is no matter of the market, and a failure to do so is none of the
load. -/
theorem persist_ok (key : SeriesKey) (rows : List Bar) (d : Delta)
    (today : Day) (s : StoreState σ ω) :
    ∃ result s', store.persist key rows d today s = (.ok result, s') ∧ s'.market = s.market := by
  obtain ⟨stored, s₁, hstore, hmarket⟩ : ∃ stored s₁, (if d.bars.isEmpty then pure true
      else onStorage (Storage.succeeds (store.storage.writeSeries key (d.extended rows)))
        : StoreM σ ω Bool) s = (.ok stored, s₁) ∧ s₁.market = s.market := by
    split
    · exact ⟨true, s, rfl, rfl⟩
    · exact onStorage_succeeds _ s
  rw [persist_eq, bind_of_ok hstore]
  cases d.answered with
  | none => exact ⟨_, s₁, rfl, hmarket⟩
  | some w =>
    simp only
    split
    · obtain ⟨recorded, s₂, hrecord, hmarket'⟩ :=
        onStorage_succeeds (store.storage.writeSpan key (.of w today)) s₁
      rw [bind_of_ok hrecord]
      exact ⟨_, s₂, rfl, hmarket'.trans hmarket⟩
    · exact ⟨_, s₁, rfl, hmarket⟩

/-- Storing gives back the extended series, and whether it is stored. -/
theorem persist_spec {key : SeriesKey} (hkey : key.Valid) (rows : List Bar) (d : Delta)
    (today : Day) {s : StoreState σ ω} (hs : view.Works s.storage) : ∃ stored st,
    store.persist key rows d today s = (.ok (d.extended rows, stored), { s with storage := st })
      ∧ view.Works st
      ∧ Written view key rows d today stored (view.texts s.storage) (view.texts st) := by
  have hne : key.seriesName ≠ key.spanName := key.seriesName_ne_spanName key
  obtain ⟨stored, st₁, hseries, hworks₁, hreliable, hothers, htext⟩ :=
    persist_series store view hkey rows d hs
  -- the span is not written if the series could not be stored or nothing more is covered
  have hstays : (∀ w, stored = true → d.answered = some w → d.answered = d.covered) →
      Written view key rows d today stored (view.texts s.storage) (view.texts st₁) := by
    intro hcovered
    exact {
      series := htext
      span := Or.inl (hothers _ hne.symm)
      others := fun n hn => hothers n fun h => hn (Or.inl h)
      reliable := fun h => ⟨hreliable h, fun w hw hgrown =>
        absurd (hcovered w (hreliable h) hw) hgrown⟩ }
  rw [persist_eq, bind_of_ok hseries]
  cases hanswered : d.answered with
  | none =>
    refine ⟨stored, st₁, rfl, hworks₁, hstays fun w _ hw => ?_⟩
    rw [hanswered] at hw
    cases hw
  | some w =>
    simp only
    by_cases hgrown : stored = true ∧ some w ≠ d.covered
    · rw [if_pos hgrown]
      obtain ⟨recorded, st₂, hwrite, hworks₂, hother, hspan⟩ :=
        persist_span store view hkey (.of w today) (s := { s with storage := st₁ }) hworks₁
      refine ⟨stored, st₂, ?_, hworks₂, ?_⟩
      · rw [bind_of_ok hwrite]
        rfl
      · exact {
          series := by
            rw [hother _ hne]
            exact htext
          span := by
            rcases hspan with h | ⟨-, h⟩
            · exact Or.inr ⟨hgrown.1, w, hanswered, hanswered ▸ hgrown.2, h⟩
            · exact Or.inl (h.trans (hothers _ hne.symm))
          others := fun n hn => by
            rw [hother n fun h => hn (Or.inr h)]
            exact hothers n fun h => hn (Or.inl h)
          reliable := fun h => by
            refine ⟨hgrown.1, fun v hv _ => ?_⟩
            rw [hanswered, Option.some.injEq] at hv
            rw [← hv]
            exact hspan.resolve_right fun hlost => hlost.1 h }
    · rw [if_neg hgrown]
      refine ⟨stored, st₁, rfl, hworks₁, hstays fun v hstored hv => ?_⟩
      by_cases heq : d.answered = d.covered
      · exact heq
      · exact absurd ⟨hstored, hanswered ▸ heq⟩ hgrown

end RollingStore
end DailyBars
