import DailyBars.Proofs.Fx.BaseCurrency
import DailyBars.Proofs.History.ServedSeries
import DailyBars.Proofs.Store.LoadSteps

/-! # Rates are looked up backwards

The rate for a date is looked up in a window of the pair that ends on the date, or on today if the
date is still to come. What the store serves for the window lies in it, so no later rate is found.
The window begins some days earlier, as many as the configuration says. Their number has no bound
but its own width: where so many days before there is no calendar any more, the lookup ends
everything, and nothing before it has looked at the number.
-/

namespace DailyBars

variable {σ ω : Type}

namespace FxService

variable (fx : FxService σ ω) (source target : String)

/-! ## The window of a rate -/

/-- The window in which the rate for a date is looked up. -/
def rateWindow (date : Day) (s : StoreState σ ω) : Window :=
  fx.reach ⟨min date s.today, min date s.today⟩

/-- Nothing is looked up in a window that would begin before the calendar. -/
theorem rate_of_unreachable (h : ¬ SameMajor source target) {date : Day} {s : StoreState σ ω}
    (hout : ¬ (fx.rateWindow date s).first.InCalendar) :
    fx.rate source target date s = (.error .outsideCalendar, s) := by
  have htoday : (RollingStore.today : StoreM σ ω Day) s = (.ok s.today, s) := rfl
  have hwindow := fx.window?_eq_none hout
  unfold SameMajor at h
  unfold rate
  simp only
  rw [if_neg h, bind_of_ok htoday, ratesFor, hwindow]
  rfl

/-- What the store serves of a pair lies in the window. -/
theorem contains_of_pairBars? {s : StoreState σ ω} (hs : s.Tidy) {w : Window} {quoted : List Bar}
    (h : fx.pairBars? source target w s = some quoted) :
    ∀ q ∈ quoted, w.contains q.date = true := by
  unfold pairBars? loadPair at h
  split at h
  next bars hload =>
    cases h
    exact ((fx.store.tidy_load _ _ w s hs).2 _ hload).inWindow
  next => cases h
  next =>
    cases h
    exact fun q hq => absurd hq List.not_mem_nil

/-- What comes of looking a pair up in a window. -/
structure ReadsPair (w : Window) (s : StoreState σ ω) : Prop where
  /-- Whatever is stored, no bar from outside the window is found. -/
  found : ∀ quoted, fx.pairBars? source target w s = some quoted →
    ∀ q ∈ quoted, w.first ≤ q.date ∧ q.date ≤ w.last
  /-- The lookup ends just where loading the pair comes upon a date beyond the calendar, in the
  stored series or in what the engine works out, -/
  ends : fx.pairBars? source target w s = none ↔ fx.store.Ends (pairKey source target) w s
  /-- and the date steps of the store come out as those of any load: it goes by what it reads, unless
  the span that it reads is from the first day of the calendar. -/
  steps : w.InCalendar → ∀ rows checked,
    fx.store.storage.Reads (pairKey source target) s.storage rows checked →
      DateSteps rows checked w s.today
        ∧ (CheckedSpan.FromFirstDay checked s.today →
          (fx.store.account (pairKey source target) s.today s).1 = .error .outsideCalendar)
        ∧ (¬ CheckedSpan.FromFirstDay checked s.today →
          (fx.store.account (pairKey source target) s.today s).1
            = .ok ⟨rows, Window.hull? (Series.span rows) (checked.bind (·.settled s.today))⟩)

/-- In a tidy store, the pair is read as described. -/
theorem readsPair {s : StoreState σ ω} (hs : s.Tidy) (htoday : s.today.InCalendar) (w : Window) :
    fx.ReadsPair source target w s where
  found _ h q hq := Window.contains_iff.1 (fx.contains_of_pairBars? source target hs h q hq)
  ends := fx.pairBars?_eq_none source target
  steps hw _ _ hread := ⟨hread.dateSteps hw htoday, fx.store.account_of_reads hread htoday⟩

/-! ## One rate -/

/-- Where a rate may come from that is looked up in a window: the units, the latest quote in the
window, or the constant rate where the window has no quote. -/
inductive Dated (w : Window) (s : StoreState σ ω) : Float → Prop where
  | same : SameMajor source target → Dated w s (unitRatio source target)
  | latest {bars : List Bar} {q : Bar} : fx.pairBars? source target w s = some bars →
    q ∈ Rates.quotes bars → w.first ≤ q.date → q.date ≤ w.last →
    (∀ other ∈ Rates.quotes bars, other.date ≤ q.date) →
    Dated w s (q.close * unitRatio source target)
  | constant {bars : List Bar} {rate : Float} : fx.pairBars? source target w s = some bars →
    ¬ Rates.AnyUsable bars → fx.constantRate? source target = some rate →
    Dated w s (rate * unitRatio source target)

/-- A factor for a day that no bar of the window comes after is that of the latest. -/
theorem dated_of_factor {w : Window} {s : StoreState σ ω} {date : Day} {f : Float}
    (hpair : fx.ReadsPair source target w s) (hlast : w.last ≤ date)
    (h : fx.Factor source target w s date f) : fx.Dated source target w s f := by
  cases h with
  | same hsame => exact .same hsame
  | constant hother hbars hnone hconstant => exact .constant hbars hnone hconstant
  | @quoted bars rate hother hbars hasOf =>
    have hwindow : ∀ q ∈ Rates.quotes bars, w.first ≤ q.date ∧ q.date ≤ w.last := fun q hq =>
      hpair.found bars hbars q (List.mem_filter.1 (Series.mem_of_mem_keepLast hq)).1
    obtain ⟨q, hq, rfl, ⟨-, hlatest⟩ | ⟨hafter, -⟩⟩ := hasOf
    · obtain ⟨hfirst, hend⟩ := hwindow q hq
      exact .latest hbars hq hfirst hend fun other hother =>
        hlatest other hother (Int.le_trans (hwindow other hother).2 hlast)
    · -- a rate from after the date would be one from after the window
      exact absurd (Int.le_trans (hwindow q hq).2 hlast) (Int.not_le.2 hafter)

/-- How the rate for a date is looked up with a window of so many days. -/
structure LooksBack (days : Nat) (date : Day) (s : StoreState σ ω) : Prop where
  /-- The window begins at least a day before the date and before today, and ends on the earlier of
  the two, -/
  window : 1 ≤ days
    ∧ fx.rateWindow date s = ⟨(min date s.today).plus (-days), min date s.today⟩
  pair : fx.ReadsPair source target (fx.rateWindow date s) s
  /-- nothing else is loaded, -/
  loads : ¬ SameMajor source target → (fx.rateWindow date s).first.InCalendar →
    (fx.rate source target date s).2 = (fx.loadPair source target (fx.rateWindow date s) s).2
  untouched : SameMajor source target ∨ ¬ (fx.rateWindow date s).first.InCalendar →
    (fx.rate source target date s).2 = s
  /-- and the rate comes from there. -/
  rate : ∀ f, (fx.rate source target date s).1 = .ok f →
    fx.Dated source target (fx.rateWindow date s) s f
  /-- Without a rate the currency and the date are named, -/
  errors : ∀ error, (fx.rate source target date s).1 = .error error →
    error = .noFxRate source date ∨ error = .outsideCalendar
  /-- unless the window begins before the calendar or the lookup of the pair ends. -/
  ends_iff : (fx.rate source target date s).1 = .error .outsideCalendar
    ↔ ¬ SameMajor source target
      ∧ (¬ ((min date s.today).plus (-days)).InCalendar
        ∨ fx.pairBars? source target (fx.rateWindow date s) s = none)

variable {fx source target}

/-- A rate that is found is the factor of its date. -/
theorem rateFrom_eq_ok {date : Day} {quoted? : Option (List Bar)} {f : Float}
    (h : fx.rateFrom source target date quoted? = .ok f) :
    ∃ quoted, quoted? = some quoted ∧ fx.factor? source target quoted date = some f := by
  cases quoted? with
  | none => cases h
  | some quoted =>
    rw [rateFrom] at h
    cases hfactor : fx.factor? source target quoted date with
    | none =>
      rw [hfactor] at h
      cases h
    | some g =>
      rw [hfactor] at h
      cases h
      exact ⟨quoted, rfl, hfactor⟩

/-- A rate is missing if the pair cannot be read, or has none for the date. -/
theorem rateFrom_eq_error {date : Day} {quoted? : Option (List Bar)} {error : DataError}
    (h : fx.rateFrom source target date quoted? = .error error) :
    quoted? = none ∧ error = .outsideCalendar
      ∨ (∃ quoted, quoted? = some quoted) ∧ error = .noFxRate source date := by
  cases quoted? with
  | none =>
    cases h
    exact Or.inl ⟨rfl, rfl⟩
  | some quoted =>
    rw [rateFrom] at h
    cases hfactor : fx.factor? source target quoted date with
    | none =>
      rw [hfactor] at h
      cases h
      exact Or.inr ⟨⟨quoted, rfl⟩, rfl⟩
    | some g =>
      rw [hfactor] at h
      cases h

/-- A rate is looked up backwards. -/
theorem looksBack {days : Nat} (hdays : fx.rules.windowDays = days) (hpos : 1 ≤ days) {date : Day}
    {s : StoreState σ ω} (hpair : fx.ReadsPair source target (fx.rateWindow date s) s) :
    fx.LooksBack source target days date s := by
  have hwindow : fx.rateWindow date s = ⟨(min date s.today).plus (-days), min date s.today⟩ := by
    rw [rateWindow, reach, hdays]
  have hlast : (fx.rateWindow date s).last ≤ date := by
    show min date s.today ≤ date
    rw [Day.le_def, Day.min_number]
    omega
  by_cases hsame : SameMajor source target
  · have hrate := rate_of_same fx source target hsame date s
    refine ⟨⟨hpos, hwindow⟩, hpair, fun h => absurd hsame h, fun _ => by rw [hrate],
      fun f hf => ?_, fun error herror => ?_, fun hend => ?_, fun h => absurd hsame h.1⟩
    · rw [hrate] at hf
      cases hf
      exact .same hsame
    · rw [hrate] at herror
      cases herror
    · rw [hrate] at hend
      cases hend
  by_cases hin : (fx.rateWindow date s).first.InCalendar
  · have hrate : fx.rate source target date s
        = (fx.rateFrom source target date (fx.pairBars? source target (fx.rateWindow date s) s),
          (fx.loadPair source target (fx.rateWindow date s) s).2) :=
      rate_of_other fx source target hsame rfl hin
    refine ⟨⟨hpos, hwindow⟩, hpair, fun _ _ => by rw [hrate],
      fun h => absurd (h.resolve_left hsame) (not_not_intro hin), fun f hf => ?_,
      fun error herror => ?_, fun hend => ?_, fun ⟨_, hend⟩ => ?_⟩
    · rw [hrate] at hf
      obtain ⟨quoted, hquoted, hfactor⟩ := rateFrom_eq_ok hf
      exact dated_of_factor fx source target hpair hlast (factor_of_factor? hsame hquoted hfactor)
    · rw [hrate] at herror
      rcases rateFrom_eq_error herror with ⟨-, rfl⟩ | ⟨-, rfl⟩
      · exact Or.inr rfl
      · exact Or.inl rfl
    · rw [hrate] at hend
      rcases rateFrom_eq_error hend with ⟨hnone, -⟩ | ⟨-, hother⟩
      · exact ⟨hsame, Or.inr hnone⟩
      · cases hother
    · rw [hwindow] at hin
      rw [hrate, hend.resolve_left (not_not_intro hin)]
      rfl
  · have hrate := rate_of_unreachable fx source target hsame hin
    refine ⟨⟨hpos, hwindow⟩, hpair, fun _ h => absurd h hin, fun _ => by rw [hrate],
      fun f hf => ?_, fun error herror => ?_, fun _ => ⟨hsame, Or.inl ?_⟩, fun _ => by rw [hrate]⟩
    · rw [hrate] at hf
      cases hf
    · rw [hrate] at herror
      cases herror
      exact Or.inr rfl
    · rw [hwindow] at hin
      exact hin

/-! ## Many bars -/

variable (fx source target)

/-- How the rates for bars are looked up with a window of so many days. -/
structure ConvertsBack (days : Nat) (bars : List Bar) (s : StoreState σ ω) : Prop where
  /-- The window begins at least a day before the bars. -/
  window : 1 ≤ days ∧ ∀ w, Series.span bars = some w → fx.reach w = ⟨w.first.plus (-days), w.last⟩
  pair : ∀ w, Series.span bars = some w → fx.ReadsPair source target (fx.reach w) s
  /-- Without a rate the currency and the date of a bar are named, -/
  errors : ∀ error, (fx.convert bars source target s).1 = .error error →
    (∃ b ∈ bars, error = .noFxRate source b.date) ∨ error = .outsideCalendar
  /-- unless the window begins before the calendar or the lookup of the pair ends. -/
  ends_iff : (fx.convert bars source target s).1 = .error .outsideCalendar
    ↔ ¬ SameMajor source target ∧ ∃ w, Series.span bars = some w
      ∧ (¬ (w.first.plus (-days)).InCalendar ∨ fx.pairBars? source target (fx.reach w) s = none)

variable {fx source target}

/-- A conversion fails if the pair cannot be read, or has no rate for some bar. -/
theorem convertFrom_eq_error {bars : List Bar} {quoted? : Option (List Bar)} {error : DataError}
    (h : fx.convertFrom source target bars quoted? = .error error) :
    quoted? = none ∧ error = .outsideCalendar
      ∨ (∃ quoted, quoted? = some quoted) ∧ ∃ b ∈ bars, error = .noFxRate source b.date := by
  cases quoted? with
  | none =>
    cases h
    exact Or.inl ⟨rfl, rfl⟩
  | some quoted =>
    rw [convertFrom] at h
    split at h
    next b hfind =>
      cases h
      exact Or.inr ⟨⟨quoted, rfl⟩, b, List.mem_of_find?_eq_some hfind, rfl⟩
    next => cases h

/-- A conversion looks its rates up backwards. -/
theorem convertsBack {days : Nat} (hdays : fx.rules.windowDays = days) (hpos : 1 ≤ days)
    {bars : List Bar} {s : StoreState σ ω}
    (hpair : ∀ w, fx.ReadsPair source target (fx.reach w) s) :
    fx.ConvertsBack source target days bars s := by
  have hwindow : ∀ w, fx.reach w = ⟨w.first.plus (-days), w.last⟩ := by
    intro w
    rw [reach, hdays]
  by_cases hsame : SameMajor source target
  · have hconvert := convert_of_same fx source target hsame bars s
    refine ⟨⟨hpos, fun w _ => hwindow w⟩, fun w _ => hpair w, fun error herror => ?_,
      fun hend => ?_, fun h => absurd hsame h.1⟩
    · rw [hconvert] at herror
      cases herror
    · rw [hconvert] at hend
      cases hend
  cases hspan : Series.span bars with
  | none =>
    obtain rfl := Series.eq_nil_of_span_eq_none hspan
    refine ⟨⟨hpos, fun w _ => hwindow w⟩, fun w _ => hpair w, fun error herror => ?_,
      fun hend => ?_, fun ⟨_, w, hw, _⟩ => ?_⟩
    · cases herror
    · cases hend
    · cases hw
  | some w =>
    have honly : ∀ v, Series.span bars = some v → v = w := by
      intro v hv
      rw [hspan] at hv
      exact (Option.some.inj hv).symm
    by_cases hin : (fx.reach w).first.InCalendar
    · have hconvert := convert_of_other fx source target hsame hspan hin s
      refine ⟨⟨hpos, fun w _ => hwindow w⟩, fun w _ => hpair w, fun error herror => ?_,
        fun hend => ?_, fun ⟨_, v, hv, hend⟩ => ?_⟩
      · rw [hconvert] at herror
        rcases convertFrom_eq_error herror with ⟨-, rfl⟩ | ⟨-, hnamed⟩
        · exact Or.inr rfl
        · exact Or.inl hnamed
      · rw [hconvert] at hend
        rcases convertFrom_eq_error hend with ⟨hnone, -⟩ | ⟨-, b, -, hother⟩
        · exact ⟨hsame, w, hspan, Or.inr hnone⟩
        · cases hother
      · rw [honly v hv] at hend
        rw [hwindow] at hin
        rw [hconvert, hend.resolve_left (not_not_intro hin)]
        rfl
    · have hconvert := convert_of_unreachable fx source target hsame hspan hin s
      refine ⟨⟨hpos, fun w _ => hwindow w⟩, fun w _ => hpair w, fun error herror => ?_,
        fun _ => ⟨hsame, w, hspan, Or.inl ?_⟩, fun _ => by rw [hconvert]⟩
      · rw [hconvert] at herror
        cases herror
        exact Or.inr rfl
      · rw [hwindow] at hin
        exact hin

end FxService

/-- Rates are looked up in a window that ends on the earlier of the date and today, whatever the
store holds. So no later rate is used, and lookups end without an answer just where that window
begins before the calendar, or where loading the pair comes upon a date beyond it: in the stored
series, or in what the engine works out of the answers of its sources. -/
theorem rates_are_looked_up_backwards (c : Config) (storage : Storage σ) (sources : Sources ω)
    (library : MetadataLibrary) (file : String → Option String) (h : PriceHistory σ ω)
    (hbuilt : PriceHistory.ofConfig c storage sources library file = .ok h)
    (earlier : PriceHistory σ ω) (held : σ) (market : Market ω) (capacity : Nat)
    (events : List (Service.Event σ ω)) (s : StoreState σ ω)
    (hs : s = ((Service.opened earlier held market capacity).run events).state)
    (htoday : s.today.InCalendar) (source : String) :
    (∀ target date, h.fx.LooksBack source target (max c.fx.windowDays 1) date s)
      ∧ (∀ date, h.fx.rateOn source date s = h.fx.rate source h.fx.rules.base date s)
      ∧ ∀ target bars, h.fx.ConvertsBack source target (max c.fx.windowDays 1) bars s := by
  have htidy : s.Tidy := by
    rw [hs]
    exact Service.tidy_run (StoreState.tidy_of_empty held market capacity) events
  have hdays : h.fx.rules.windowDays = max c.fx.windowDays 1 := by
    rw [PriceHistory.rules_of_config hbuilt]
    rfl
  have hpos : 1 ≤ max c.fx.windowDays 1 := Nat.le_max_right _ _
  exact ⟨fun target date => FxService.looksBack hdays hpos
      (FxService.readsPair h.fx source target htidy htoday _),
    fun _ => rfl,
    fun target bars => FxService.convertsBack hdays hpos fun w =>
      FxService.readsPair h.fx source target htidy htoday (h.fx.reach w)⟩

/-- A lookup on Wednesday, 10 January 2024, for the Friday before. -/
theorem rates_are_looked_up_backwards_a_week :
    ∃ h, PriceHistory.ofConfig {} Storage.memory Sources.nobody {} (fun _ => none) = .ok h
      ∧ h.fx.LooksBack "USD" "GBP" 7 ⟨19727⟩ (.ofDay ⟨19732⟩) :=
  ⟨_, rfl, (rates_are_looked_up_backwards {} Storage.memory Sources.nobody {} (fun _ => none) _ rfl
    .ofOneBar {} ⟨⟨.showing (.ofDay ⟨19732⟩ 0), {}⟩, ()⟩ 8 [] _ rfl (by decide) "USD").1 "GBP"
    ⟨19727⟩⟩

/-- The widest window passes for a setting, and no rate can be looked up with it. -/
theorem widest_window_leaves_calendar :
    ({ fx := { windowDays := 4294967295 } } : Config).validate = .ok ()
      ∧ ∃ h, PriceHistory.ofConfig { fx := { windowDays := 4294967295 } } Storage.memory
          Sources.nobody {} (fun _ => none) = .ok h
        ∧ h.fx.rateOn "USD" ⟨19727⟩ (.ofDay ⟨19732⟩) = (.error .outsideCalendar, .ofDay ⟨19732⟩)
        ∧ h.fx.convert [.flat ⟨19727⟩ 4.0 100 "ACME" "US" "yahoo"] "USD" "GBP" (.ofDay ⟨19732⟩)
          = (.error .outsideCalendar, .ofDay ⟨19732⟩) := by
  refine ⟨rfl, _, rfl, ?_, ?_⟩
  · exact FxService.rate_of_unreachable _ _ _ (by decide) (by decide)
  · exact FxService.convert_of_unreachable _ _ _ (by decide) rfl (by decide) _

end DailyBars
