import DailyBars.Proofs.Merge.CheckedVisits
import DailyBars.Proofs.Store.Held
import DailyBars.Store.Rolling

/-! # What is asked for and what comes of it

The ranges that a load asks for are gaps beside what is covered on its day. So the answered ranges
extend the covered window without a gap, and the bars that come of them are dated where nothing is
covered yet.
-/

namespace DailyBars

variable {ω : Type}

namespace Window

/-- A window covers the days it contains. -/
theorem covers_some_iff {w : Window} {d : Day} :
    Covers (some w) d ↔ w.contains d = true := by
  rw [covers_some, contains_iff]

end Window

/-! ## The ranges -/

namespace Window

/-- The ranges that a request asks for on a day. -/
def wanted (covered : Option Window) (requested : Window) (today : Day) : List Window :=
  match Window.normalized ⟨requested.first, min requested.last today⟩ with
  | none => []
  | some window => (Coverage.assess covered window).missing window

/-- What is inside a window in the calendar lies in the calendar. -/
theorem Inner.inCalendar {requested window : Window} {today : Day}
    (h : Inner ⟨requested.first, min requested.last today⟩ window)
    (hin : requested.InCalendar) : window.InCalendar := by
  obtain ⟨⟨hfirst, -⟩, -, hlast⟩ := hin
  have hordered := h.ordered
  have hstart := h.first_le
  have hend := h.le_last
  simp only [Day.le_def, Day.min_number] at hfirst hlast hordered hstart hend
  refine ⟨⟨?_, ?_⟩, ?_, ?_⟩
  all_goals
    rw [Day.le_def]
    omega

/-- Either no business day of the request has come yet, or what is asked for is missing of the
business days that have. -/
theorem wanted_cases {covered : Option Window} (hc : Window.Ordered covered) (requested : Window)
    (today : Day) :
    wanted covered requested today = []
        ∧ Window.normalized ⟨requested.first, min requested.last today⟩ = none
      ∨ ∃ window, Window.normalized ⟨requested.first, min requested.last today⟩ = some window
        ∧ Window.Inner ⟨requested.first, min requested.last today⟩ window
        ∧ wanted covered requested today = (Coverage.assess covered window).missing window
        ∧ Coverage.Missing covered window (wanted covered requested today) := by
  unfold wanted
  cases hnormalized : Window.normalized ⟨requested.first, min requested.last today⟩ with
  | none => exact Or.inl ⟨rfl, rfl⟩
  | some window =>
    have hinner := Window.inner_of_normalized hnormalized
    exact Or.inr ⟨window, rfl, hinner, rfl, Coverage.missing_assess hc hinner.ordered⟩

/-- The wanted ranges are the gaps of what is covered. -/
theorem gaps_wanted {covered : Option Window} (hc : Window.Ordered covered) (requested : Window)
    (today : Day) : Coverage.Gaps covered (wanted covered requested today) := by
  rcases wanted_cases hc requested today with ⟨hnil, -⟩ | ⟨window, -, -, -, hmissing⟩
  · rw [hnil]
    exact Coverage.Gaps.nil covered
  · exact hmissing.toGaps

/-- Every range that is asked for holds a business day. -/
theorem businessDayCount_wanted {covered : Option Window} (hc : Window.Ordered covered)
    {requested : Window} {today : Day} {r : Window} (hr : r ∈ wanted covered requested today) :
    r.businessDayCount ≠ 0 := by
  rcases wanted_cases hc requested today with ⟨hnil, -⟩ | ⟨window, -, hinner, -, hmissing⟩
  · rw [hnil] at hr
    cases hr
  · have hordered := hmissing.ordered r hr
    rcases hmissing.shares r hr with hfirst | hlast
    · exact Window.businessDayCount_ne_zero (Window.contains_iff.2 ⟨Int.le_refl _, hordered⟩)
        (hfirst ▸ hinner.first)
    · exact Window.businessDayCount_ne_zero (Window.contains_iff.2 ⟨hordered, Int.le_refl _⟩)
        (hlast ▸ hinner.last)

/-- Days that are asked for are days of the calendar. -/
theorem inCalendar_of_wanted {covered : Option Window} (hc : Window.Ordered covered)
    (hcovered : ∀ d, Window.Covers covered d → d.InCalendar) {requested : Window} {today : Day}
    (hin : requested.InCalendar) {r : Window} (hr : r ∈ wanted covered requested today) {d : Day}
    (hd : r.contains d = true) : d.InCalendar := by
  rcases wanted_cases hc requested today with ⟨hnil, -⟩ | ⟨window, -, hinner, -, hmissing⟩
  · rw [hnil] at hr
    cases hr
  · obtain ⟨⟨hearliest, -⟩, -, hlatest⟩ := hinner.inCalendar hin
    obtain ⟨hfirst, hlast⟩ := Window.contains_iff.1 hd
    refine ⟨?_, ?_⟩
    · rcases hmissing.first_le r hr with h | ⟨x, hx, hxr⟩
      · exact Int.le_trans hearliest (Int.le_trans h hfirst)
      · exact Int.le_trans (hcovered x hx).1 (Int.le_trans hxr hfirst)
    · rcases hmissing.le_last r hr with h | ⟨x, hx, hrx⟩
      · exact Int.le_trans hlast (Int.le_trans h hlatest)
      · exact Int.le_trans hlast (Int.le_trans hrx (hcovered x hx).2)

/-- Nothing is asked for beyond today if nothing is covered beyond it. -/
theorem le_today_of_wanted {covered : Option Window} (hc : Window.Ordered covered) {today : Day}
    (hcovered : ∀ d, Window.Covers covered d → d ≤ today) {requested : Window}
    {r : Window} (hr : r ∈ wanted covered requested today) {d : Day} (hd : r.contains d = true) :
    d ≤ today := by
  rcases wanted_cases hc requested today with ⟨hnil, -⟩ | ⟨window, -, hinner, -, hmissing⟩
  · rw [hnil] at hr
    cases hr
  · have hlast := (Window.contains_iff.1 hd).2
    have hend := hinner.le_last
    rcases hmissing.le_last r hr with h | ⟨x, hx, hrx⟩
    · simp only [Day.le_def, Day.min_number] at hlast hend h ⊢
      omega
    · exact Int.le_trans hlast (Int.le_trans hrx (hcovered x hx))

end Window

/-- The ranges that are asked for beside what is held have days of the calendar. -/
theorem Held.inCalendar_wanted (h : Held) {requested : Window} (hrequested : requested.InCalendar)
    (today : Day) : ∀ r ∈ Window.wanted (h.covered today) requested today, r.InCalendar := by
  intro r hr
  have hordered := (Window.gaps_wanted (h.ordered_covered today) requested today).ordered r hr
  have hday : ∀ {d}, r.contains d = true → d.InCalendar := fun hd =>
    Window.inCalendar_of_wanted (h.ordered_covered today) (fun _ => h.inCalendar_of_covers)
      hrequested hr hd
  exact ⟨hday (Window.contains_iff.2 ⟨Int.le_refl _, hordered⟩),
    hday (Window.contains_iff.2 ⟨hordered, Int.le_refl _⟩)⟩

/-! ## The answers -/

namespace RollingStore

variable {e : Engine ω} {key : SeriesKey} {range : Window} {rest ranges : List Window}
  {m m' : Market ω}

/-- A range for which the engine has an answer is fetched, and the others are asked for after it. -/
theorem askFor_cons_of_ok {merged : Merged}
    (h : e.fetch? ⟨key.symbol, key.exchange, range⟩ m = .ok (merged, m')) :
    askFor e key (range :: rest) m
      = { askFor e key rest m' with
          fetched := ⟨range, merged⟩ :: (askFor e key rest m').fetched } := by
  rw [askFor, h]

/-- The range at which the program ends is the last one that is asked for. -/
theorem askFor_cons_of_error (h : e.fetch? ⟨key.symbol, key.exchange, range⟩ m = .error m') :
    askFor e key (range :: rest) m = { fetched := [], endedAt := some range, market := m' } := by
  rw [askFor, h]

/-- Each range is fetched in turn, at some later time than the one before it. -/
theorem exists_fetch_of_mem_askFor {f : Fetched} (h : f ∈ (askFor e key ranges m).fetched) :
    ∃ m', m.Before m' ∧ f.merged = (e.fetch ⟨key.symbol, key.exchange, f.range⟩ m').1 := by
  induction ranges generalizing m with
  | nil => cases h
  | cons range rest ih =>
    cases hfetch : e.fetch? ⟨key.symbol, key.exchange, range⟩ m with
    | error m' =>
      rw [askFor_cons_of_error hfetch] at h
      cases h
    | ok result =>
      obtain ⟨merged, m'⟩ := result
      rw [askFor_cons_of_ok hfetch] at h
      rcases List.mem_cons.1 h with rfl | h'
      · have hmerged := ((e.comesTo_fetch _ m).eq_ok_iff.1 hfetch).2
        exact ⟨m, Market.Before.refl m, congrArg Prod.fst hmerged⟩
      · obtain ⟨m'', hbefore, hmerged⟩ := ih h'
        exact ⟨m'', (Engine.before_fetch?.1 merged hfetch).trans hbefore, hmerged⟩

end RollingStore

/-- The ranges that were passed to the engine: those that were fetched, and the one at which the
program ended. -/
def Asked.passed (a : Asked ω) : List Window := a.fetched.map Fetched.range ++ a.endedAt.toList

namespace RollingStore

variable {e : Engine ω} {key : SeriesKey} {range : Window} {rest ranges : List Window}
  {m m' : Market ω}

/-- The ranges are asked for in turn, up to the one at which the program ends. -/
theorem passed_askFor (e : Engine ω) (key : SeriesKey) (ranges : List Window) (m : Market ω) :
    (askFor e key ranges m).passed <+: ranges
      ∧ (ranges ≠ [] → (askFor e key ranges m).passed ≠ [])
      ∧ ((askFor e key ranges m).endedAt = none → (askFor e key ranges m).passed = ranges) := by
  induction ranges generalizing m with
  | nil => exact ⟨List.prefix_rfl, fun h => absurd rfl h, fun _ => rfl⟩
  | cons range rest ih =>
    cases hfetch : e.fetch? ⟨key.symbol, key.exchange, range⟩ m with
    | error m' =>
      rw [askFor_cons_of_error hfetch]
      exact ⟨⟨rest, rfl⟩, fun _ => List.cons_ne_nil _ _, nofun⟩
    | ok result =>
      obtain ⟨merged, m'⟩ := result
      rw [askFor_cons_of_ok hfetch]
      obtain ⟨hfront, -, hall⟩ := ih m'
      exact ⟨List.cons_prefix_cons.2 ⟨rfl, hfront⟩, fun _ => List.cons_ne_nil _ _,
        fun hnone => congrArg (range :: ·) (hall hnone)⟩

/-- If the program does not end, all ranges are fetched. -/
theorem map_range_askFor {fetched : List Fetched}
    (h : askFor e key ranges m = { fetched, endedAt := none, market := m' }) :
    fetched.map Fetched.range = ranges := by
  have hall := (passed_askFor e key ranges m).2.2
  rw [h] at hall
  rw [← hall rfl, Asked.passed, Option.toList_none, List.append_nil]

/-- Where the program ends, the ranges before were fetched, and the engine ended it at the next. -/
theorem askFor_of_endedAt (h : (askFor e key ranges m).endedAt = some range) :
    ∃ m', askFor e key ((askFor e key ranges m).fetched.map Fetched.range) m
        = { fetched := (askFor e key ranges m).fetched, endedAt := none, market := m' }
      ∧ e.fetch? ⟨key.symbol, key.exchange, range⟩ m' = .error (askFor e key ranges m).market := by
  induction ranges generalizing m with
  | nil => cases h
  | cons first rest ih =>
    cases hfetch : e.fetch? ⟨key.symbol, key.exchange, first⟩ m with
    | error m' =>
      rw [askFor_cons_of_error hfetch] at h ⊢
      cases h
      exact ⟨m, rfl, hfetch⟩
    | ok result =>
      obtain ⟨merged, m'⟩ := result
      rw [askFor_cons_of_ok hfetch] at h ⊢
      obtain ⟨m'', hasked, hends⟩ := ih h
      refine ⟨m'', ?_, hends⟩
      rw [List.map_cons, askFor_cons_of_ok hfetch, hasked]

/-- While ranges are asked for, time does not go backwards. -/
theorem before_askFor (e : Engine ω) (key : SeriesKey) (ranges : List Window) (m : Market ω) :
    m.Before (askFor e key ranges m).market := by
  induction ranges generalizing m with
  | nil => exact Market.Before.refl m
  | cons range rest ih =>
    cases hfetch : e.fetch? ⟨key.symbol, key.exchange, range⟩ m with
    | error m' =>
      rw [askFor_cons_of_error hfetch]
      exact Engine.before_fetch?.2 hfetch
    | ok result =>
      obtain ⟨merged, m'⟩ := result
      rw [askFor_cons_of_ok hfetch]
      exact (Engine.before_fetch?.1 merged hfetch).trans (ih m')

end RollingStore

namespace Delta

/-- What was asked for are gaps beside what is covered, and bars only come of answers and are
dated in their range. -/
structure Sound (d : Delta) : Prop where
  ordered : Window.Ordered d.covered
  gaps : Coverage.Gaps d.covered (d.fetched.map Fetched.range)
  ascending : ∀ f ∈ d.fetched, Series.Ascending f.merged.bars
  inRange : ∀ f ∈ d.fetched, ∀ b ∈ f.merged.bars, f.range.contains b.date = true
  answered : ∀ f ∈ d.fetched, f.merged.bars ≠ [] → f.merged.answered = true

/-- Whatever the sources answer to the ranges that are wanted. -/
theorem sound_askFor {e : Engine ω} {key : SeriesKey} {covered : Option Window}
    (hc : Window.Ordered covered) {requested : Window} {today : Day} {m m' : Market ω}
    {fetched : List Fetched}
    (hasked : RollingStore.askFor e key (Window.wanted covered requested today) m
      = { fetched, endedAt := none, market := m' }) : Sound ⟨covered, fetched⟩ := by
  have hfetched : ∀ f ∈ fetched, ∃ m',
      f.merged = (e.fetch ⟨key.symbol, key.exchange, f.range⟩ m').1 := by
    intro f hf
    have hmem : f ∈ (RollingStore.askFor e key (Window.wanted covered requested today) m).fetched :=
      by rwa [hasked]
    obtain ⟨m', -, hmerged⟩ := RollingStore.exists_fetch_of_mem_askFor hmem
    exact ⟨m', hmerged⟩
  have hsound : ∀ f ∈ fetched, e.Sound ⟨key.symbol, key.exchange, f.range⟩ f.merged.bars := by
    intro f hf
    obtain ⟨m', hmerged⟩ := hfetched f hf
    rw [hmerged]
    exact e.sound_fetch _ m'
  refine { ordered := hc, gaps := ?_, ascending := fun f hf => (hsound f hf).ascending,
           inRange := fun f hf b hb => ((hsound f hf).yields b hb).inWindow, answered := ?_ }
  · rw [RollingStore.map_range_askFor hasked]
    exact Window.gaps_wanted hc requested today
  · intro f hf hne
    obtain ⟨m', hmerged⟩ := hfetched f hf
    by_cases hanswered : f.merged.answered = true
    · exact hanswered
    · rw [hmerged] at hne hanswered
      exact absurd (Engine.fetch_bars_of_not_answered (by simpa using hanswered)) hne

/-- The bars of a change are those of its fetched ranges. -/
theorem mem_bars {d : Delta} {b : Bar} : b ∈ d.bars ↔ ∃ f ∈ d.fetched, b ∈ f.merged.bars :=
  List.mem_flatMap

namespace Sound

variable {d : Delta}

/-- A day lies in one range at most. -/
theorem fetched_unique (h : d.Sound) {f g : Fetched} (hf : f ∈ d.fetched) (hg : g ∈ d.fetched)
    {x : Day} (hfx : f.range.contains x = true) (hgx : g.range.contains x = true) : f = g := by
  have happart := List.pairwise_map.1 h.gaps.apart
  -- two ranges are apart whichever comes first
  have hall : ∀ a ∈ d.fetched, ∀ b ∈ d.fetched, a.range.contains x = true →
      b.range.contains x = true → a = b := by
    refine List.Pairwise.forall_of_forall_of_flip (fun a _ _ _ => rfl) (happart.imp ?_)
      (happart.imp ?_)
    · intro a b hab ha hb
      exact absurd (Window.covers_some_iff.2 hb) (hab x (Window.covers_some_iff.2 ha))
    · intro a b hab hb ha
      exact absurd (Window.covers_some_iff.2 hb) (hab x (Window.covers_some_iff.2 ha))
  exact hall f hf g hg hfx hgx

/-- A fetched day was not covered, -/
theorem not_covers (h : d.Sound) {f : Fetched} (hf : f ∈ d.fetched) {x : Day}
    (hx : f.range.contains x = true) : ¬ Window.Covers d.covered x :=
  h.gaps.outside f.range (List.mem_map_of_mem hf) x (Window.covers_some_iff.2 hx)

/-- The bars that came are dated where nothing was covered. -/
theorem not_covers_date (h : d.Sound) {b : Bar} (hb : b ∈ d.bars) :
    ¬ Window.Covers d.covered b.date := by
  obtain ⟨f, hf, hbf⟩ := mem_bars.1 hb
  exact h.not_covers hf (h.inRange f hf b hbf)

/-- and no date is fetched twice. -/
theorem onePerDate_bars (h : d.Sound) : Series.OnePerDate d.bars := by
  intro a ha b hb hdate
  obtain ⟨f, hf, haf⟩ := mem_bars.1 ha
  obtain ⟨g, hg, hbg⟩ := mem_bars.1 hb
  have hfg : f = g := h.fetched_unique hf hg (h.inRange f hf a haf) (hdate ▸ h.inRange g hg b hbg)
  subst hfg
  exact Series.onePerDate_of_ascending (h.ascending f hf) a haf b hbg hdate

/-- On a day of a range, the bars that came are those of that range. -/
theorem mem_bars_of_contains (h : d.Sound) {f : Fetched} (hf : f ∈ d.fetched) {b : Bar}
    (hb : f.range.contains b.date = true) : b ∈ d.bars ↔ b ∈ f.merged.bars := by
  refine ⟨fun hmem => ?_, fun hmem => mem_bars.2 ⟨f, hf, hmem⟩⟩
  obtain ⟨g, hg, hbg⟩ := mem_bars.1 hmem
  rwa [h.fetched_unique hf hg hb (h.inRange g hg b hbg)]

end Sound

/-! ## The covered window afterwards -/

/-- Ranges that touch a window are joined with it, those that were answered. -/
theorem covers_foldl_of_touches {v : Window} {fetched : List Fetched}
    (htouch : ∀ f ∈ fetched, Window.Touches v f.range) {u : Window} (hfirst : u.first ≤ v.first)
    (hlast : v.last ≤ u.last) {x : Day} :
    Window.Covers (fetched.foldl (fun span f =>
        if f.merged.answered then Window.hull? span (some f.range) else span) (some u)) x
      ↔ Window.Covers (some u) x
        ∨ ∃ f ∈ fetched, f.merged.answered = true ∧ f.range.contains x = true := by
  -- the window `u` grows from `v`, so every range that touches `v` touches or meets it
  induction fetched generalizing u with
  | nil => simp
  | cons f rest ih =>
    have hrest : ∀ f ∈ rest, Window.Touches v f.range := fun g hg => htouch g (by simp [hg])
    rw [List.foldl_cons]
    by_cases hanswered : f.merged.answered = true
    · have hf : Window.Touches u f.range := by
        obtain ⟨hleft, hright⟩ := htouch f (by simp)
        simp only [Window.Touches, Day.le_def, Day.next_number] at hleft hright hfirst hlast ⊢
        omega
      have hgrown : Window.Covers (some (u.hull f.range)) x
          ↔ Window.Covers (some u) x ∨ f.range.contains x = true := by
        rw [← Window.covers_some_iff]
        exact ⟨Window.covers_hull_of_touches hf, fun h => h.elim
          (Window.covers_hull?_left (some f.range)) (Window.covers_hull?_right (some u))⟩
      have hfirst' : (u.hull f.range).first ≤ v.first := by
        simp only [Window.hull, Day.le_def, Day.min_number] at hfirst ⊢
        omega
      have hlast' : v.last ≤ (u.hull f.range).last := by
        simp only [Window.hull, Day.le_def, Day.max_number] at hlast ⊢
        omega
      rw [if_pos hanswered, Window.hull?, ih hrest hfirst' hlast', hgrown]
      simp only [List.mem_cons, or_assoc, exists_eq_or_imp, hanswered, true_and]
    · rw [if_neg hanswered, ih hrest hfirst hlast]
      simp only [List.mem_cons, exists_eq_or_imp, hanswered, false_and, false_or,
        Bool.false_eq_true]

/-- What is covered afterwards is what was covered and the answered ranges. -/
theorem Sound.covers_answered {d : Delta} (h : d.Sound) {x : Day} :
    Window.Covers (Delta.answered d) x ↔ Window.Covers d.covered x
      ∨ ∃ f ∈ d.fetched, f.merged.answered = true ∧ f.range.contains x = true := by
  obtain ⟨covered, fetched⟩ := d
  cases covered with
  | some v =>
    refine covers_foldl_of_touches (fun f hf => ?_) (Int.le_refl _) (Int.le_refl _)
    exact h.gaps.touches v rfl f.range (List.mem_map_of_mem hf)
  | none =>
    -- there is one range at most, and it becomes the window
    have hlength := h.gaps.alone rfl
    cases fetched with
    | nil => simp [Delta.answered]
    | cons f rest =>
      have hrest : rest = [] := by
        simp only [List.map_cons, List.length_cons, List.length_map] at hlength
        exact List.eq_nil_of_length_eq_zero (by omega)
      subst hrest
      by_cases hanswered : f.merged.answered = true
      · simp [Delta.answered, hanswered, Window.hull?, Window.contains_iff]
      · simp [Delta.answered, hanswered]

end Delta
end DailyBars
