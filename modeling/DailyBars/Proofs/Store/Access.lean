import DailyBars.Proofs.Store.Held

/-! # Accesses to a storage

Each access either does what the view of the storage says or changes no text. From this follows
what is read of a key, and what is left of its texts when the series was none.
-/

namespace DailyBars

/-! ## Computations -/

/-- Two computations in a row, applied to a state: -/
theorem bind_apply {ε τ α β : Type} (x : ExceptT ε (StateM τ) α)
    (f : α → ExceptT ε (StateM τ) β) (s : τ) :
    (x >>= f) s = ExceptT.bindCont f (x s).1 (x s).2 := rfl

/-- if the first succeeds the second goes on, -/
theorem bind_of_ok {ε τ α β : Type} {x : ExceptT ε (StateM τ) α} {f : α → ExceptT ε (StateM τ) β}
    {s s' : τ} {a : α} (h : x s = (.ok a, s')) : (x >>= f) s = f a s' := by
  rw [bind_apply, h]
  rfl

/-- and if it fails so do both. -/
theorem bind_of_error {ε τ α β : Type} {x : ExceptT ε (StateM τ) α}
    {f : α → ExceptT ε (StateM τ) β} {s s' : τ} {e : ε} (h : x s = (.error e, s')) :
    (x >>= f) s = (.error e, s') := by
  rw [bind_apply, h]
  rfl

/-- A computation that succeeds has a first part that succeeds. -/
theorem exists_of_bind_ok {ε τ α β : Type} {x : ExceptT ε (StateM τ) α}
    {f : α → ExceptT ε (StateM τ) β} {s s' : τ} {b : β} (h : (x >>= f) s = (.ok b, s')) :
    ∃ a s₁, x s = (.ok a, s₁) ∧ f a s₁ = (.ok b, s') := by
  obtain ⟨r, s₁, hx⟩ : ∃ r s₁, x s = (r, s₁) := ⟨_, _, rfl⟩
  cases r with
  | error e =>
    rw [bind_of_error hx] at h
    cases h
  | ok a =>
    rw [bind_of_ok hx] at h
    exact ⟨a, s₁, hx, h⟩

/-! ## Texts read and put out of the way -/

/-- What is left of the texts of a key when its series was read. A text that is no series, and the
record that goes with it, may have been put out of the way. -/
structure Cleared {σ : Type} {storage : Storage σ} (view : storage.View) (key : SeriesKey)
    (t t₁ : Texts) : Prop where
  rows : t₁.rows key = t.rows key
  readable : t.Readable key → t₁ = t
  keeps : view.keeps = true → t₁ = t
  others : ∀ n, IsFile n → ¬ key.Owns n → t₁ n = t n

namespace Cleared

variable {σ : Type} {storage : Storage σ} {view : storage.View} {key : SeriesKey} {t t₁ : Texts}

/-- Texts that are untouched are cleared. -/
theorem refl (t : Texts) : Cleared view key t t :=
  ⟨rfl, fun _ => rfl, fun _ => rfl, fun _ _ _ => rfl⟩

end Cleared

namespace Storage

/-- An access that succeeds succeeds as a computation. -/
theorem access_of {σ α : Type} {run : σ → Except StorageFault α × σ} {s s' : σ} {a : α}
    (h : run s = (.ok a, s')) : (access run : Storing σ α) s = (.ok a, s') := by
  unfold access
  rw [h]
  rfl

variable {σ : Type} {storage : Storage σ} (view : storage.View)

/-- A working storage reads the texts. -/
theorem access_read {name : String} (hname : IsFile name) {s : σ} (hs : view.Works s) : ∃ s',
    (access (storage.read name) : Storing σ (Option String)) s = (.ok (view.texts s name), s')
      ∧ view.Works s' ∧ view.texts s' = view.texts s := by
  obtain ⟨s', hread, hworks, htexts⟩ := view.read hname hs
  exact ⟨s', access_of hread, hworks, htexts⟩

/-- Whether an access succeeded. -/
theorem succeeds_access {α : Type} {run : σ → Except StorageFault α × σ} {s s' : σ}
    {r : Except StorageFault α} (h : run s = (r, s')) :
    (succeeds (access run) : Storing σ Bool) s = (.ok r.toBool, s') := by
  unfold succeeds access
  rw [h]
  cases r <;> rfl

/-- A write that succeeds puts the text, and one that fails changes nothing. -/
theorem succeeds_write {name : String} (hname : IsFile name) (text : String) {s : σ}
    (hs : view.Works s) : ∃ (stored : Bool) (s' : σ),
    (succeeds (access (storage.write name text)) : Storing σ Bool) s = (.ok stored, s')
      ∧ view.Works s' ∧ (view.Reliable → stored = true)
      ∧ (stored = true ∧ view.texts s' = (view.texts s).put name text
        ∨ stored = false ∧ view.texts s' = view.texts s) := by
  obtain ⟨r, s', hwrite, hworks, ⟨rfl, htexts⟩ | ⟨⟨fault, rfl⟩, htexts⟩⟩ := view.write hname text hs
  · exact ⟨true, s', succeeds_access hwrite, hworks, fun _ => rfl, Or.inl ⟨rfl, htexts⟩⟩
  · refine ⟨false, s', succeeds_access hwrite, hworks, fun hreliable => ?_, Or.inr ⟨rfl, htexts⟩⟩
    have hok := hreliable.write hname text hs
    rw [hwrite] at hok
    cases hok

/-- A text is moved away, or stays as it is. -/
theorem succeeds_quarantine {name : String} (hname : IsFile name) {s : σ} (hs : view.Works s) :
    ∃ (moved : Bool) (s' : σ),
    (succeeds (access (storage.quarantine name)) : Storing σ Bool) s = (.ok moved, s')
      ∧ view.Works s' ∧ (view.Reliable → view.keeps = false → view.texts s' name = none)
      ∧ (view.texts s' = view.texts s ∨ view.keeps = false ∧ view.texts s' name = none
        ∧ ∀ n, IsFile n → n ≠ name → view.texts s' n = view.texts s n) := by
  obtain ⟨r, s', hquarantine, hworks, htexts⟩ := view.quarantine hname hs
  refine ⟨_, s', succeeds_access hquarantine, hworks, fun hreliable hkeeps => ?_, htexts⟩
  have hnone := hreliable.quarantine hkeeps hname hs
  rwa [hquarantine] at hnone

/-- The record is put out of the way if there is one. -/
theorem quarantineSpan_spec {key : SeriesKey} (hkey : key.Valid) (found : Option String) {s : σ}
    (hs : view.Works s) : ∃ s',
    (do
      if found.isSome then
        let _ ← succeeds (access (storage.quarantine key.spanName))
      pure none : Storing σ (Option (List Bar))) s = (.ok none, s') ∧ view.Works s'
      ∧ (view.keeps = true → view.texts s' = view.texts s)
      ∧ ∀ n, IsFile n → n ≠ key.spanName → view.texts s' n = view.texts s n := by
  split
  · obtain ⟨moved, s', hmove, hworks, -, htexts⟩ :=
      succeeds_quarantine view (SeriesKey.isFile_spanName hkey) hs
    rw [bind_of_ok hmove]
    refine ⟨s', rfl, hworks, fun hkeeps => ?_, fun n hn hspan => ?_⟩
    · rcases htexts with h | ⟨hmoves, -, -⟩
      · exact h
      · rw [hkeeps] at hmoves
        cases hmoves
    · rcases htexts with h | ⟨-, -, h⟩
      · rw [h]
      · exact h n hn hspan
  · exact ⟨s, rfl, hs, fun _ => rfl, fun _ _ _ => rfl⟩

/-- A text that is no series is put out of the way, and then the record that goes with it. -/
theorem quarantine_spec {key : SeriesKey} (hkey : key.Valid) {s : σ} (hs : view.Works s) : ∃ s',
    (do
      let _ ← succeeds (access (storage.quarantine key.seriesName))
      if (← (access (storage.read key.spanName) : Storing σ (Option String))).isSome then
        let _ ← succeeds (access (storage.quarantine key.spanName))
      pure none : Storing σ (Option (List Bar))) s = (.ok none, s')
      ∧ view.Works s'
      ∧ (view.texts s' key.seriesName = view.texts s key.seriesName
        ∨ view.texts s' key.seriesName = none)
      ∧ (view.keeps = true → view.texts s' = view.texts s)
      ∧ (∀ n, IsFile n → ¬ key.Owns n → view.texts s' n = view.texts s n)
      ∧ (view.Reliable → view.keeps = false → view.texts s' key.seriesName = none) := by
  have hseries := SeriesKey.isFile_seriesName hkey
  have hne : key.seriesName ≠ key.spanName := key.seriesName_ne_spanName key
  obtain ⟨moved, s₁, hmove, hworks₁, hgone, htexts₁⟩ := succeeds_quarantine view hseries hs
  obtain ⟨s₂, hread, hworks₂, htexts₂⟩ :=
    access_read view (SeriesKey.isFile_spanName hkey) hworks₁
  obtain ⟨s', hrun, hworks', hkeeps', hothers⟩ :=
    quarantineSpan_spec view hkey (view.texts s₁ key.spanName) hworks₂
  rw [htexts₂] at hkeeps' hothers
  rw [bind_of_ok hmove, bind_of_ok hread]
  refine ⟨s', hrun, hworks', ?_, fun hkeeps => ?_, fun n hn howns => ?_, fun hreliable hkeeps => ?_⟩
  · rw [hothers _ hseries hne]
    rcases htexts₁ with h | ⟨-, h, -⟩
    · exact Or.inl (by rw [h])
    · exact Or.inr h
  · rw [hkeeps' hkeeps]
    rcases htexts₁ with h | ⟨hmoves, -, -⟩
    · exact h
    · rw [hkeeps] at hmoves
      cases hmoves
  · rw [hothers n hn fun h => howns (Or.inr h)]
    rcases htexts₁ with h | ⟨-, -, h⟩
    · rw [h]
    · exact h n hn fun h' => howns (Or.inl h')
  · rw [hothers _ hseries hne]
    exact hgone hreliable hkeeps

/-- Reading a series either gives the rows of its text, or stops at a date outside the calendar and
changes nothing. -/
theorem readSeries_spec {key : SeriesKey} (hkey : key.Valid) {s : σ} (hs : view.Works s) :
    ∃ r s', storage.readSeries key s = (r, s') ∧ view.Works s'
      ∧ (r = .error .outsideCalendar ∧ ¬ (view.texts s).Readable key
          ∧ view.texts s' = view.texts s
        ∨ (∃ found : Option (List Bar), r = .ok found ∧ found.getD [] = (view.texts s').rows key)
          ∧ Cleared view key (view.texts s) (view.texts s')
          ∧ (view.Reliable → view.keeps = false → (view.texts s').Readable key)) := by
  obtain ⟨s₁, hread, hworks₁, htexts₁⟩ := access_read view (SeriesKey.isFile_seriesName hkey) hs
  unfold readSeries
  rw [bind_of_ok hread]
  cases htext : view.texts s key.seriesName with
  | none =>
    refine ⟨.ok none, s₁, rfl, hworks₁, Or.inr ⟨⟨none, rfl, ?_⟩, ?_, fun _ _ => ?_⟩⟩
    · rw [htexts₁, Texts.rows_of_none htext]
      rfl
    · rw [htexts₁]
      exact Cleared.refl _
    · rw [htexts₁]
      exact Texts.readable_of_none htext
  | some text =>
    simp only
    cases hdecode : Series.decode text key.exchange with
    | ok bars =>
      obtain ⟨hrows, hreadable⟩ := Texts.rows_of_ok htext hdecode
      rw [← htexts₁] at hrows hreadable
      refine ⟨_, s₁, rfl, hworks₁, Or.inr ⟨⟨_, rfl, hrows.symm⟩, ?_, fun _ _ => hreadable⟩⟩
      rw [htexts₁]
      exact Cleared.refl _
    | error fault =>
      obtain ⟨hnorows, hunreadable⟩ := Texts.rows_of_error htext hdecode
      obtain ⟨s₂, hrun, hworks₂, hseries, hkeeps, hothers, hgone⟩ :=
        quarantine_spec view hkey hworks₁
      rw [htexts₁] at hseries hkeeps hothers
      -- whether or not the text was moved, no rows are left
      have hnothing : (view.texts s₂).rows key = [] := by
        rcases hseries with h | h
        · rw [Texts.rows_congr h, hnorows]
        · exact Texts.rows_of_none h
      have hcleared : Cleared view key (view.texts s) (view.texts s₂) :=
        { rows := hnothing.trans hnorows.symm
          readable := fun h => absurd h hunreadable
          keeps := hkeeps
          others := hothers }
      cases fault with
      | dateOutsideCalendar row =>
        exact ⟨_, s₁, rfl, hworks₁, Or.inl ⟨rfl, hunreadable, htexts₁⟩⟩
      | _ =>
        exact ⟨_, s₂, hrun, hworks₂, Or.inr ⟨⟨none, rfl, hnothing.symm⟩, hcleared,
          fun h h' => Texts.readable_of_none (hgone h h')⟩⟩

/-- The rows of a stored series ascend. -/
theorem ascending_of_readSeries {key : SeriesKey} {s s' : σ}
    {found : Option (List Bar)} (h : storage.readSeries key s = (.ok found, s')) :
    Series.Ascending (found.getD []) := by
  have hnone : ∀ {t t' : σ}, (pure none : Storing σ (Option (List Bar))) t = (.ok found, t') →
      Series.Ascending (found.getD []) := by
    intro t t' hpure
    cases hpure
    exact List.Pairwise.nil
  unfold readSeries at h
  obtain ⟨text?, s₁, -, h⟩ := exists_of_bind_ok h
  cases text? with
  | none => exact hnone h
  | some text =>
    simp only at h
    cases hdecode : Series.decode text key.exchange with
    | ok bars =>
      rw [hdecode] at h
      cases h
      exact Series.ascending_keepFirst bars
    | error fault =>
      rw [hdecode] at h
      -- whatever becomes of the text and the record, no rows are left
      cases fault with
      | dateOutsideCalendar row => cases h
      | _ =>
        obtain ⟨moved, s₂, -, h⟩ := exists_of_bind_ok h
        obtain ⟨record?, s₃, -, h⟩ := exists_of_bind_ok h
        split at h
        · obtain ⟨moved', s₄, -, h⟩ := exists_of_bind_ok h
          exact hnone h
        · exact hnone h

end Storage
end DailyBars
