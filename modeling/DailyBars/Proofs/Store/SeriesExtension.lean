import DailyBars.Proofs.Store.Session

/-! # Stored series are only extended

The whole series is written anew whenever it is extended, and in a merge the new bars win. No row
is lost by that: what is asked for lies beside what the rows cover, and the engine drops what is
dated elsewhere.
-/

namespace DailyBars

variable {σ ω : Type} {storage : Storage σ}

/-- The rows of the answer are not those of a series that could not be stored. -/
def Answer.Stored (a : Answer) : Prop := ∀ report, a = .fresh report → report.stored = true

/-- What a load makes of the stored series of its key. -/
structure Entry.Extends (storage : Storage σ) (e : Entry σ ω) (old new : List Bar) : Prop where
  ascending : Series.Ascending new
  kept : ∀ b ∈ old, b ∈ new
  added : ∀ b ∈ new, b ∈ old ∨ ∃ f ∈ e.fetched storage, ∃ c,
    e.before.engine.Yields ⟨e.key.symbol, e.key.exchange, f.range⟩ c
      ∧ c.tagged e.key.symbol e.key.exchange = b
  returned : ∀ a, e.answer storage = .ok a → (∀ rows, a ≠ .remembered rows) → a.Stored →
    ∃ rows, e.result storage = .ok rows
      ∧ rows.map (Bar.tagged e.key.symbol e.key.exchange) = Series.clip new e.requested

namespace Entry

variable {view : storage.View} {e : Entry σ ω}

/-- A load only touches the two files of its key. -/
theorem texts_of_not_owns (hclean : e.before.Clean view e.key) {n : String}
    (hn : ¬ e.key.Owns n) : view.texts (e.after storage).state.storage n
      = view.texts e.before.state.storage n := by
  have hloaded := e.loaded view hclean.toSound
  generalize e.answer storage = r at hloaded
  generalize (e.after storage).state = s' at hloaded ⊢
  cases hloaded with
  | nothing => rfl
  | invalid => rfl
  | remembered rows s' hvalid hgives hstorage => rw [hstorage]
  | refused err s' hvalid hrefused => rw [hrefused.cleared.readable hclean.readable]
  | fresh t report s' hvalid hrequested hcycle =>
    rw [hcycle.written.others n hn, hcycle.cleared.readable hclean.readable]

/-- A load of a key that is not well formed changes nothing. -/
theorem after_of_not_valid (hs : e.before.Sound view) (hkey : ¬ e.key.Valid) :
    (e.after storage).state = e.before.state := by
  have hloaded := e.loaded view hs
  generalize e.answer storage = r at hloaded
  generalize (e.after storage).state = s' at hloaded ⊢
  cases hloaded with
  | nothing => rfl
  | invalid => rfl
  | remembered rows s' hvalid => exact absurd hvalid hkey
  | refused err s' hvalid => exact absurd hvalid hkey
  | fresh t report s' hvalid => exact absurd hvalid hkey

/-- Bars that came of a cycle are offered rows in the unit that callers expect. -/
theorem yields_of_mem_bars {key : SeriesKey} {t : Texts} {report : Report}
    (hcycle : Cycle (e.before.store storage) view key e.requested e.today t e.before.state
      (e.after storage).state report) {b : Bar}
    (hb : b ∈ (t.delta key e.today report.fetched).bars) : ∃ f ∈ report.fetched,
      e.before.engine.Yields ⟨key.symbol, key.exchange, f.range⟩ b := by
  obtain ⟨f, hf, hbf⟩ := Delta.mem_bars.1 hb
  have hmem : f ∈ (RollingStore.askFor (e.before.store storage).engine key
      (Window.wanted ((t.held key).covered e.today) e.requested e.today)
      e.before.state.market).fetched := by
    rw [hcycle.asked]
    exact hf
  obtain ⟨m, -, hmerged⟩ := RollingStore.exists_fetch_of_mem_askFor hmem
  rw [hmerged] at hbf
  exact ⟨f, hf, (Engine.sound_fetch _ _ m).yields b hbf⟩

/-- Rows that do not come of a cycle are remembered, or there are none. -/
theorem rows_of_not_fresh (hs : e.before.Sound view) {a : Answer} (ha : e.answer storage = .ok a)
    (hfresh : ∀ report, a ≠ .fresh report) (hremembered : ∀ rows, a ≠ .remembered rows) :
    a.rows = [] ∧ e.requested.isEmpty = true := by
  have hloaded := e.loaded view hs
  rw [ha] at hloaded
  generalize (e.after storage).state = s' at hloaded
  cases hloaded with
  | nothing hempty => exact ⟨rfl, hempty⟩
  | remembered rows => exact absurd rfl (hremembered rows)
  | fresh t report => exact absurd rfl (hfresh report)

/-- A load of a clean session extends the stored series of its key. -/
theorem extends_of_clean (hkey : e.key.Valid) (hclean : e.before.Clean view e.key) :
    e.Extends storage ((view.texts e.before.state.storage).rows e.key)
      ((view.texts (e.after storage).state.storage).rows e.key) := by
  rcases effect_of_clean hkey hclean with ⟨htexts, hnot⟩ | ⟨-, report, hanswer, hcycle⟩
  · have hrows := Texts.rows_congr (htexts _ (Or.inl rfl))
    rw [hrows]
    exact {
      ascending := Texts.ascending_rows _ _
      kept := fun b hb => hb
      added := fun b hb => Or.inl hb
      returned := fun a ha hremembered _ => by
        -- no cycle and no memo, so the window ended before it began
        have hfresh : ∀ report, a ≠ .fresh report := by
          rintro report rfl
          exact hnot rfl report ha
        obtain ⟨hnone, hempty⟩ := rows_of_not_fresh hclean.toSound ha hfresh hremembered
        refine ⟨[], ?_, ?_⟩
        · rw [result_eq, ha, ← hnone]
          rfl
        · rw [Series.clip_of_isEmpty hempty]
          rfl }
  · have hgrown := hcycle.grown e.inCalendar hclean.inCalendar
    exact {
      ascending := Texts.ascending_rows _ _
      kept := fun b hb => hgrown.mem_of_mem hclean.tagged hb
      added := fun b hb => by
        obtain ⟨a, ha | ⟨-, ha⟩, rfl⟩ := (hgrown.mem_rows_of_tagged hclean.tagged).1 hb
        · refine Or.inl ?_
          rw [hclean.tagged a ha]
          exact ha
        · rw [e.fetched_of_fresh hanswer]
          obtain ⟨f, hf, hyields⟩ := yields_of_mem_bars hcycle ha
          exact Or.inr ⟨f, hf, a, hyields, rfl⟩
      returned := fun a ha _ hstored => by
        rw [hanswer, Except.ok.injEq] at ha
        subst ha
        have hrows := hgrown
        rw [hstored report rfl] at hrows
        refine ⟨report.rows, by rw [result_eq, hanswer]; rfl, ?_⟩
        rw [hcycle.rows, ← Series.clip_tagged]
        exact congrArg (Series.clip · e.requested) (hrows.rows_of_stored hclean.tagged).symm }

end Entry

/-- In every state that loads reach from an empty storage, a further load leaves a series for its
key that has every row of the one before it, and beside them only sane rows of answers, dated in
the ranges that the load asked for; other blobs are untouched; and unless the load was answered from
the memo or the series could not be stored, its rows are those of the series in its window. -/
theorem series_is_only_extended (storage : Storage σ) (view : storage.View) (s : Session σ ω)
    (hempty : view.Empty s.state.storage) (hnow : s.state.market.now.InCalendar)
    (steps : List (Step ω)) (e : Entry σ ω) (he : e.before = s.run storage steps) :
    (e.key.Valid → ∃ old new, e.before.stored storage e.key = .ok old
        ∧ (e.after storage).stored storage e.key = .ok new ∧ e.Extends storage old new
        ∧ ∀ n, ¬ e.key.Owns n → view.texts (e.after storage).state.storage n
          = view.texts e.before.state.storage n)
      ∧ (¬ e.key.Valid → (e.after storage).state = e.before.state) := by
  refine ⟨fun hkey => ?_, fun hkey => ?_⟩
  · have hclean : e.before.Clean view e.key := by
      rw [he]
      exact Session.clean_run hkey (Session.clean_of_empty hempty hnow e.key) steps
    have hafter : (e.after storage).Clean view e.key := Entry.clean_after hkey hclean
    exact ⟨_, _, Session.stored_of_readable hclean.toSound hkey hclean.readable,
      Session.stored_of_readable hafter.toSound hkey hafter.readable,
      Entry.extends_of_clean hkey hclean, fun n hn => Entry.texts_of_not_owns hclean hn⟩
  · have hsound : e.before.Sound view := by
      rw [he]
      exact Session.sound_run ⟨hempty.works, hnow⟩ steps
    exact Entry.after_of_not_valid hsound hkey

/-- After two loads, in which the first write of all failed. -/
theorem series_is_only_extended_despite_failure :
    ∃ old new, (Entry.third (Storage.memory.failing (· == 0)) (0, {})).before.stored
        (Storage.memory.failing (· == 0)) ⟨"AAPL", "NYSE"⟩ = .ok old
      ∧ (Entry.third (Storage.memory.failing (· == 0)) (0, {})).Extends
        (Storage.memory.failing (· == 0)) old new := by
  obtain ⟨old, new, hold, -, hextends, -⟩ := (series_is_only_extended _
    (Storage.memoryView.failing (· == 0)) (Session.ofOneBar (0, {}))
    ⟨trivial, Storage.memoryView_empty.texts⟩ (by decide) Step.twoLoads
    (Entry.third (Storage.memory.failing (· == 0)) (0, {})) rfl).1 rfl
  exact ⟨old, new, hold, hextends⟩

end DailyBars
