import DailyBars.Fx.Conversion
import DailyBars.Proofs.Fx.Rates
import DailyBars.Proofs.Store.Endings

/-! # Conversion of all bars or none

A rate is known for one date if and only if it is known for every date: any usable close of the pair
serves all of them, and the constant rate does not look at the date. So bars are converted all
together or not at all, each by the factor of its own date, and a single bar is converted by just the
rate that is given for its date.
-/

namespace DailyBars

variable {σ ω : Type}

namespace FxService

/-! ## Pairs of currencies -/

/-- Both are units of one major currency. -/
def SameMajor (source target : String) : Prop :=
  (Currency.of source).code = (Currency.of target).code

instance (source target : String) : Decidable (SameMajor source target) :=
  inferInstanceAs (Decidable (_ = _))

/-- How many units of the target one unit of the source counts for, in one major currency. -/
def unitRatio (source target : String) : Float :=
  (Currency.of source).unit / (Currency.of target).unit

variable (fx : FxService σ ω) (source target : String)

/-- The key of the series of the pair. -/
def pairKey : SeriesKey :=
  .of (Currency.pair (Currency.of source).code (Currency.of target).code) Exchange.pairs

/-- The series of the pair in a window as the store gives it, and the store after that. -/
def loadPair (w : Window) (s : StoreState σ ω) : Except DataError (List Bar) × StoreState σ ω :=
  fx.store.load (Currency.pair (Currency.of source).code (Currency.of target).code) Exchange.pairs w s

/-- The bars of the pair. A series that cannot be loaded has none; at a date beyond the calendar
loading ends everything. -/
def pairBars? (w : Window) (s : StoreState σ ω) : Option (List Bar) :=
  match (fx.loadPair source target w s).1 with
  | .ok bars => some bars
  | .error .outsideCalendar => none
  | .error _ => some []

/-- Looking at the series ends everything just where loading it does. -/
theorem pairBars?_eq_none {w : Window} {s : StoreState σ ω} :
    fx.pairBars? source target w s = none ↔ fx.store.Ends (pairKey source target) w s := by
  rw [pairKey, ← RollingStore.load_ends_iff]
  unfold pairBars? loadPair
  constructor
  · intro h
    split at h
    next => cases h
    next hend => exact hend
    next => cases h
  · intro hend
    rw [hend]

/-- The constant rate between the major currencies. -/
def constantRate? : Option Float :=
  fx.rules.fallbackRate? (Currency.of source).code (Currency.of target).code

/-- The factor for a date, from the bars of the pair or else from the constant rate. -/
def factor? (quoted : List Bar) (d : Day) : Option Float :=
  (((Rates.ofBars quoted).asOf d).or (fx.constantRate? source target)).map
    (· * unitRatio source target)

/-- A date has no factor just if no bar of the pair can be used and there is no constant rate. -/
theorem factor?_eq_none {quoted : List Bar} {d : Day} : fx.factor? source target quoted d = none
    ↔ ¬ Rates.AnyUsable quoted ∧ fx.constantRate? source target = none := by
  rw [factor?, Option.map_eq_none_iff, Option.or_eq_none_iff, Rates.asOf_eq_none]

/-- The window of rates for bars from the first to the last day of `w`. -/
def reach (w : Window) : Window := ⟨w.first.plus (-fx.rules.windowDays), w.last⟩

/-- The rates of a conversion are looked up in its reach, if that starts in the calendar, -/
theorem window?_eq {w : Window} (h : (fx.reach w).first.InCalendar) :
    fx.rules.window? w.first w.last = some (fx.reach w) := by
  have hday : Day.ofNumber? (w.first.number - fx.rules.windowDays)
      = some (w.first.plus (-fx.rules.windowDays)) := if_pos h
  rw [FxRules.window?, hday]
  rfl

/-- and nowhere if it does not. -/
theorem window?_eq_none {w : Window} (h : ¬ (fx.reach w).first.InCalendar) :
    fx.rules.window? w.first w.last = none := by
  have hday : Day.ofNumber? (w.first.number - fx.rules.windowDays) = none := if_neg h
  rw [FxRules.window?, hday]
  rfl

/-- The rates of a reach are those of the bars of the pair. -/
theorem rates_eq (w : Window) (s : StoreState σ ω) :
    fx.rates (Currency.of source).code (Currency.of target).code w s
      = ((fx.pairBars? source target w s).elim (.error .outsideCalendar) fun quoted =>
          .ok (Rates.ofBars quoted), (fx.loadPair source target w s).2) := by
  unfold rates pairBars? loadPair
  obtain ⟨result, s', hload⟩ : ∃ result s', fx.store.load (Currency.pair (Currency.of source).code
      (Currency.of target).code) Exchange.pairs w s = (result, s') := ⟨_, _, rfl⟩
  rw [hload]
  cases result with
  | ok bars => rfl
  | error error => cases error <;> rfl

/-! ## One rate -/

/-- Between units of one currency the rate is the ratio of the units, and nothing is loaded. -/
theorem rate_of_same (h : SameMajor source target) (date : Day) (s : StoreState σ ω) :
    fx.rate source target date s = (.ok (unitRatio source target), s) := by
  unfold SameMajor at h
  unfold rate
  simp only
  rw [if_pos h]
  rfl

/-- The rate between two major currencies, from the series or else from the constant rates. Without
either, the currency that was asked about is named. -/
def majorRate (source targetCode : String) (date : Day) : StoreM σ ω Float := do
  let last := min date (← RollingStore.today)
  let rates ← fx.ratesFor (Currency.of source).code targetCode last last
  match (rates.asOf date).or (fx.rules.fallbackRate? (Currency.of source).code targetCode) with
  | some rate => return rate
  | none => throw (.noFxRate source date)

/-- The units only multiply the rate between the major currencies. -/
theorem rate_eq_majorRate (h : ¬ SameMajor source target) (date : Day)
    (s : StoreState σ ω) : fx.rate source target date s
      = ((fx.majorRate source (Currency.of target).code date s).1.map (· * unitRatio source target),
        (fx.majorRate source (Currency.of target).code date s).2) := by
  have htoday : (RollingStore.today : StoreM σ ω Day) s = (.ok s.today, s) := rfl
  unfold SameMajor at h
  unfold rate majorRate
  simp only
  rw [if_neg h, bind_of_ok htoday, bind_of_ok htoday]
  obtain ⟨result, s', hrates⟩ : ∃ result s', fx.ratesFor (Currency.of source).code
      (Currency.of target).code (min date s.today) (min date s.today) s = (result, s') :=
    ⟨_, _, rfl⟩
  cases result with
  | error error =>
    rw [bind_of_error hrates, bind_of_error hrates]
    rfl
  | ok rates =>
    rw [bind_of_ok hrates, bind_of_ok hrates]
    cases (rates.asOf date).or (fx.rules.fallbackRate? (Currency.of source).code
      (Currency.of target).code) <;> rfl

/-- The rate between the major currencies, from the bars of the pair. -/
theorem majorRate_eq {date d : Day} {s : StoreState σ ω} (hd : min date s.today = d)
    (hin : (fx.reach ⟨d, d⟩).first.InCalendar) :
    fx.majorRate source (Currency.of target).code date s
      = ((fx.pairBars? source target (fx.reach ⟨d, d⟩) s).elim (.error .outsideCalendar)
          fun quoted => (((Rates.ofBars quoted).asOf date).or (fx.constantRate? source target)).elim
            (.error (.noFxRate source date)) .ok,
        (fx.loadPair source target (fx.reach ⟨d, d⟩) s).2) := by
  have hrates := fx.rates_eq source target (fx.reach ⟨d, d⟩) s
  have hwindow := fx.window?_eq hin
  have htoday : (RollingStore.today : StoreM σ ω Day) s = (.ok s.today, s) := rfl
  unfold majorRate
  rw [bind_of_ok htoday, hd, ratesFor, hwindow]
  simp only
  cases hbars : fx.pairBars? source target (fx.reach ⟨d, d⟩) s with
  | none =>
    rw [hbars] at hrates
    rw [bind_of_error hrates]
    rfl
  | some quoted =>
    rw [hbars] at hrates
    rw [bind_of_ok hrates]
    simp only [Option.elim_some, constantRate?]
    cases ((Rates.ofBars quoted).asOf date).or (fx.rules.fallbackRate? (Currency.of source).code
      (Currency.of target).code) <;> rfl

/-- The rate from the bars of the pair. -/
def rateFrom (date : Day) : Option (List Bar) → Except DataError Float
  | none => .error .outsideCalendar
  | some quoted => (fx.factor? source target quoted date).elim (.error (.noFxRate source date)) .ok

/-- Between two currencies the rate comes from the bars of the pair up to the day. -/
theorem rate_of_other (h : ¬ SameMajor source target) {date d : Day} {s : StoreState σ ω}
    (hd : min date s.today = d) (hin : (fx.reach ⟨d, d⟩).first.InCalendar) :
    fx.rate source target date s
      = (fx.rateFrom source target date (fx.pairBars? source target (fx.reach ⟨d, d⟩) s),
        (fx.loadPair source target (fx.reach ⟨d, d⟩) s).2) := by
  rw [fx.rate_eq_majorRate source target h, fx.majorRate_eq source target hd hin]
  cases fx.pairBars? source target (fx.reach ⟨d, d⟩) s with
  | none => rfl
  | some quoted =>
    simp only [rateFrom, factor?, Option.elim_some]
    cases ((Rates.ofBars quoted).asOf date).or (fx.constantRate? source target) <;> rfl

/-! ## All bars -/

/-- Within one currency, bars are scaled by the ratio of the units. -/
theorem convert_of_same (h : SameMajor source target) (bars : List Bar) (s : StoreState σ ω) :
    fx.convert bars source target s
      = (.ok (bars.map fun b => b.scale (unitRatio source target)), s) := by
  cases bars with
  | nil => rfl
  | cons first rest =>
    unfold SameMajor at h
    unfold convert
    rw [List.head?_cons, List.getLast?_cons]
    simp only
    rw [if_pos h]
    rfl

/-- The converted bars, from the bars of the pair. -/
def convertFrom (bars : List Bar) : Option (List Bar) → Except DataError (List Bar)
  | none => .error .outsideCalendar
  | some quoted =>
    match bars.find? fun b => (fx.factor? source target quoted b.date).isNone with
    | some b => .error (.noFxRate source b.date)
    | none => .ok (bars.map fun b => (fx.factor? source target quoted b.date).elim b b.scale)

/-- Between two currencies, bars are converted by the bars of the pair over their reach. -/
theorem convert_of_other (h : ¬ SameMajor source target) {bars : List Bar} {w : Window}
    (hspan : Series.span bars = some w) (hin : (fx.reach w).first.InCalendar)
    (s : StoreState σ ω) : fx.convert bars source target s
      = (fx.convertFrom source target bars (fx.pairBars? source target (fx.reach w) s),
        (fx.loadPair source target (fx.reach w) s).2) := by
  unfold SameMajor at h
  obtain ⟨first, last, hfirst, hlast, rfl⟩ := Series.span_eq_some.1 hspan
  have hrates := fx.rates_eq source target (fx.reach ⟨first.date, last.date⟩) s
  have hwindow := fx.window?_eq hin
  unfold convert
  rw [hfirst, hlast]
  simp only
  rw [if_neg h, hwindow]
  simp only
  cases hbars : fx.pairBars? source target (fx.reach ⟨first.date, last.date⟩) s with
  | none =>
    rw [hbars] at hrates
    rw [pure_bind, bind_of_error hrates]
    rfl
  | some quoted =>
    rw [hbars] at hrates
    rw [pure_bind, bind_of_ok hrates]
    simp only [convertFrom, factor?, constantRate?, Option.isNone_map]
    generalize List.find? _ bars = missing
    cases missing with
    | some bar => rfl
    | none =>
      refine congrArg (fun converted => (Except.ok converted, _)) (List.map_congr_left fun b _ => ?_)
      cases ((Rates.ofBars quoted).asOf b.date).or (fx.rules.fallbackRate? (Currency.of source).code
        (Currency.of target).code) <;> rfl

/-- Nothing is converted when the rates would begin before the calendar. -/
theorem convert_of_unreachable (h : ¬ SameMajor source target) {bars : List Bar} {w : Window}
    (hspan : Series.span bars = some w) (hout : ¬ (fx.reach w).first.InCalendar)
    (s : StoreState σ ω) :
    fx.convert bars source target s = (.error .outsideCalendar, s) := by
  unfold SameMajor at h
  obtain ⟨first, last, hfirst, hlast, rfl⟩ := Series.span_eq_some.1 hspan
  have hwindow := fx.window?_eq_none hout
  unfold convert
  rw [hfirst, hlast]
  simp only
  rw [if_neg h, hwindow]
  rfl

/-! ## All or none -/

/-- There is a factor for every date or for none. -/
theorem factor?_all_or_none (quoted : List Bar) :
    (∀ d, fx.factor? source target quoted d = none)
      ∨ ∃ factor : Day → Float, ∀ d, fx.factor? source target quoted d = some (factor d) := by
  by_cases hnone : ¬ Rates.AnyUsable quoted ∧ fx.constantRate? source target = none
  · exact Or.inl fun d => (fx.factor?_eq_none source target).2 hnone
  · right
    have hsome : ∀ d, ∃ f, fx.factor? source target quoted d = some f := by
      intro d
      apply Option.ne_none_iff_exists'.1
      rwa [Ne, factor?_eq_none]
    exact ⟨fun d => (hsome d).choose, fun d => (hsome d).choose_spec⟩

variable {fx source target} {quoted : List Bar}

/-- If every date has a factor, every bar is scaled by that of its date. -/
theorem convertFrom_of_factors {factor : Day → Float}
    (h : ∀ d, fx.factor? source target quoted d = some (factor d)) (bars : List Bar) :
    fx.convertFrom source target bars (some quoted)
      = .ok (bars.map fun b => b.scale (factor b.date)) := by
  have hnone : bars.find? (fun b => (some (factor b.date)).isNone) = none :=
    List.find?_eq_none.2 fun _ _ => Bool.false_ne_true
  simp only [convertFrom, h, hnone, Option.elim_some]

/-- If no date has a factor, the first bar has no rate. -/
theorem convertFrom_of_none (h : ∀ d, fx.factor? source target quoted d = none) {bars : List Bar}
    {first : Bar} (hfirst : bars.head? = some first) :
    fx.convertFrom source target bars (some quoted) = .error (.noFxRate source first.date) := by
  obtain ⟨rest, rfl⟩ := List.head?_eq_some_iff.1 hfirst
  simp only [convertFrom, h, Option.isNone_none, List.find?_cons_of_pos]

/-! ## What a conversion comes to -/

variable (fx source target)

/-- There is a constant rate: the target is the base currency, and the table has the source. -/
def HasConstant : Prop :=
  (Currency.of target).code = fx.rules.base
    ∧ ∃ e ∈ fx.rules.fallback, e.1 = (Currency.of source).code

/-- There is no constant rate just if none is configured for the pair. -/
theorem constantRate?_eq_none : fx.constantRate? source target = none
    ↔ ¬ fx.HasConstant source target := by
  unfold constantRate? FxRules.fallbackRate? HasConstant
  split
  next hbase =>
    rw [List.lookup_eq_none_iff]
    constructor
    · rintro hall ⟨-, e, he, hcode⟩
      have hne := hall e (List.mem_reverse.2 he)
      rw [hcode, bne_self_eq_false] at hne
      cases hne
    · intro hnone e he
      rw [bne_iff_ne]
      intro hcode
      exact hnone ⟨hbase, e, List.mem_reverse.1 he, hcode.symm⟩
  next hbase => exact ⟨fun _ h => hbase h.1, fun _ => rfl⟩

/-- The factor by which prices of a date are multiplied, given the rates of a window. -/
inductive Factor (w : Window) (s : StoreState σ ω) (d : Day) : Float → Prop where
  | same : SameMajor source target → Factor w s d (unitRatio source target)
  | quoted {bars : List Bar} {rate : Float} : ¬ SameMajor source target →
    fx.pairBars? source target w s = some bars → Rates.IsAsOf bars d rate →
    Factor w s d (rate * unitRatio source target)
  | constant {bars : List Bar} {rate : Float} : ¬ SameMajor source target →
    fx.pairBars? source target w s = some bars → ¬ Rates.AnyUsable bars →
    fx.constantRate? source target = some rate → Factor w s d (rate * unitRatio source target)

/-- How bars are converted. -/
structure Converts (bars : List Bar) (s : StoreState σ ω) : Prop where
  /-- Conversion succeeds if there is nothing to convert, if only the unit changes, or if the series
  of the pair could be looked at and has a usable rate or can do without one. -/
  succeeds : (∃ converted, (fx.convert bars source target s).1 = .ok converted)
    ↔ bars = [] ∨ SameMajor source target ∨ ∃ w quoted, Series.span bars = some w
      ∧ fx.pairBars? source target (fx.reach w) s = some quoted
      ∧ (Rates.AnyUsable quoted ∨ fx.HasConstant source target)
  /-- Each bar is scaled once, by the factor of its date. -/
  scales : ∀ converted, (fx.convert bars source target s).1 = .ok converted →
    ∃ factor : Day → Float, converted = bars.map (fun b => b.scale (factor b.date))
      ∧ ∀ w, Series.span bars = some w → ∀ b ∈ bars,
        fx.Factor source target (fx.reach w) s b.date (factor b.date)
  /-- Otherwise the rate of the first bar is missing, unless looking at the series ended
  everything. -/
  fails : ∀ error, (fx.convert bars source target s).1 = .error error →
    ∃ w first, Series.span bars = some w ∧ bars.head? = some first
      ∧ ((∃ quoted, fx.pairBars? source target (fx.reach w) s = some quoted)
          ∧ error = .noFxRate source first.date
        ∨ fx.pairBars? source target (fx.reach w) s = none ∧ error = .outsideCalendar)
  /-- That is so just where loading the series comes upon a date beyond the calendar. -/
  ends : ∀ w, fx.pairBars? source target w s = none
    ↔ fx.store.Ends (pairKey source target) w s
  /-- One bar dated no later than today is converted by the rate of its date. -/
  agrees : ∀ bar, bars = [bar] → bar.date ≤ s.today →
    fx.convert bars source target s
      = ((fx.rate source target bar.date s).1.map fun f => [bar.scale f],
        (fx.rate source target bar.date s).2)

variable {fx source target}

/-- What is computed as the factor of a date is one. -/
theorem factor_of_factor? {w : Window} {s : StoreState σ ω} {d : Day} {f : Float}
    (hother : ¬ SameMajor source target) (hquoted : fx.pairBars? source target w s = some quoted)
    (h : fx.factor? source target quoted d = some f) : fx.Factor source target w s d f := by
  obtain ⟨rate, hrate, rfl⟩ := Option.map_eq_some_iff.1 h
  cases hasOf : (Rates.ofBars quoted).asOf d with
  | some found =>
    rw [hasOf, Option.some_or, Option.some.injEq] at hrate
    subst hrate
    exact .quoted hother hquoted (Rates.asOf_eq_some.1 hasOf)
  | none =>
    rw [hasOf, Option.none_or] at hrate
    exact .constant hother hquoted (Rates.asOf_eq_none.1 hasOf) hrate

/-- Without a change of the major currency, the unit alone counts. -/
theorem converts_of_same (h : SameMajor source target) (bars : List Bar) (s : StoreState σ ω) :
    fx.Converts source target bars s := by
  have hconvert := convert_of_same fx source target h bars s
  refine ⟨⟨fun _ => Or.inr (Or.inl h), fun _ => ⟨_, by rw [hconvert]⟩⟩, fun converted hok => ?_,
    fun error herror => ?_, fun _ => fx.pairBars?_eq_none source target,
    fun bar hbars _ => ?_⟩
  · rw [hconvert, Except.ok.injEq] at hok
    exact ⟨fun _ => unitRatio source target, hok.symm, fun _ _ _ _ => .same h⟩
  · rw [hconvert] at herror
    cases herror
  · rw [hconvert, rate_of_same fx source target h, hbars]
    rfl

/-- No bars are converted to no bars. -/
theorem converts_of_nil (s : StoreState σ ω) : fx.Converts source target [] s where
  succeeds := ⟨fun _ => Or.inl rfl, fun _ => ⟨[], rfl⟩⟩
  scales converted hok := by
    cases hok
    exact ⟨fun _ => unitRatio source target, rfl, fun _ _ _ hb => absurd hb List.not_mem_nil⟩
  fails error herror := by cases herror
  ends _ := fx.pairBars?_eq_none source target
  agrees bar hbars := by cases hbars

/-- One bar is converted by the rate that is given for its date. -/
theorem convertFrom_singleton (bar : Bar) (quoted? : Option (List Bar)) :
    fx.convertFrom source target [bar] quoted?
      = (fx.rateFrom source target bar.date quoted?).map fun f => [bar.scale f] := by
  cases quoted? with
  | none => rfl
  | some quoted =>
    cases hfactor : fx.factor? source target quoted bar.date with
    | none => simp [convertFrom, rateFrom, hfactor, Except.map]
    | some f => simp [convertFrom, rateFrom, hfactor, Except.map]

section Looked

variable {bars : List Bar} {w : Window} {s : StoreState σ ω} (h : ¬ SameMajor source target)
  (hspan : Series.span bars = some w)
include h hspan

/-- When the series of the pair is looked at. -/
theorem looked_iff : (bars = [] ∨ SameMajor source target ∨ ∃ w' quoted,
      Series.span bars = some w' ∧ fx.pairBars? source target (fx.reach w') s = some quoted
      ∧ (Rates.AnyUsable quoted ∨ fx.HasConstant source target))
    ↔ ∃ quoted, fx.pairBars? source target (fx.reach w) s = some quoted
      ∧ (Rates.AnyUsable quoted ∨ fx.HasConstant source target) := by
  constructor
  · rintro (rfl | hsame | ⟨w', quoted, hspan', hquoted⟩)
    · cases hspan
    · exact absurd hsame h
    · rw [hspan, Option.some.injEq] at hspan'
      subst hspan'
      exact ⟨quoted, hquoted⟩
  · rintro ⟨quoted, hquoted⟩
    exact Or.inr (Or.inr ⟨w, quoted, hspan, hquoted⟩)

variable (hin : (fx.reach w).first.InCalendar)
include hin

/-- Converting one bar that is not in the future is scaling it by the rate of its date. -/
theorem agrees_of_other {bar : Bar} (hbars : bars = [bar]) (htoday : bar.date ≤ s.today) :
    fx.convert bars source target s
      = ((fx.rate source target bar.date s).1.map fun f => [bar.scale f],
        (fx.rate source target bar.date s).2) := by
  have hday : min bar.date s.today = bar.date := if_pos htoday
  subst hbars
  obtain rfl : ⟨bar.date, bar.date⟩ = w := Option.some.inj hspan
  rw [convert_of_other fx source target h hspan hin,
    rate_of_other fx source target h hday hin, convertFrom_singleton]

/-- Without a look at the series there is no answer. -/
theorem converts_of_ended (hquoted : fx.pairBars? source target (fx.reach w) s = none) :
    fx.Converts source target bars s := by
  obtain ⟨first, last, hfirst, -⟩ := Series.span_eq_some.1 hspan
  have hconvert := convert_of_other fx source target h hspan hin s
  rw [hquoted] at hconvert
  refine ⟨?_, fun converted hok => ?_, fun error herror => ?_,
    fun _ => fx.pairBars?_eq_none source target, fun bar => agrees_of_other h hspan hin⟩
  · rw [looked_iff h hspan, hconvert, hquoted]
    exact ⟨fun ⟨_, hok⟩ => (by cases hok), fun ⟨_, hsome, _⟩ => (by cases hsome)⟩
  · rw [hconvert] at hok
    cases hok
  · rw [hconvert] at herror
    cases herror
    exact ⟨w, first, hspan, hfirst, Or.inr ⟨hquoted, rfl⟩⟩

/-- If every date has a factor, the conversion is as stated. -/
theorem converts_of_factors (hquoted : fx.pairBars? source target (fx.reach w) s = some quoted)
    {factor : Day → Float} (hfactor : ∀ d, fx.factor? source target quoted d = some (factor d)) :
    fx.Converts source target bars s := by
  have hconvert := convert_of_other fx source target h hspan hin s
  rw [hquoted, convertFrom_of_factors hfactor] at hconvert
  have hsource : Rates.AnyUsable quoted ∨ fx.HasConstant source target := by
    have hsome := hfactor w.first
    by_contra hnone
    rw [not_or, ← constantRate?_eq_none] at hnone
    rw [(fx.factor?_eq_none source target).2 hnone] at hsome
    cases hsome
  refine ⟨?_, fun converted hok => ?_, fun error herror => ?_,
    fun _ => fx.pairBars?_eq_none source target, fun bar => agrees_of_other h hspan hin⟩
  · rw [looked_iff h hspan, hconvert]
    exact ⟨fun _ => ⟨quoted, hquoted, hsource⟩, fun _ => ⟨_, rfl⟩⟩
  · rw [hconvert, Except.ok.injEq] at hok
    refine ⟨factor, hok.symm, fun w' hspan' b _ => ?_⟩
    rw [hspan, Option.some.injEq] at hspan'
    rw [← hspan']
    exact factor_of_factor? h hquoted (hfactor b.date)
  · rw [hconvert] at herror
    cases herror

/-- If none has one, the conversion is as stated. -/
theorem converts_of_no_factor (hquoted : fx.pairBars? source target (fx.reach w) s = some quoted)
    (hnone : ∀ d, fx.factor? source target quoted d = none) : fx.Converts source target bars s := by
  obtain ⟨first, last, hfirst, -⟩ := Series.span_eq_some.1 hspan
  obtain ⟨hunusable, hconstant⟩ := (fx.factor?_eq_none source target).1 (hnone w.first)
  rw [constantRate?_eq_none] at hconstant
  have hconvert := convert_of_other fx source target h hspan hin s
  rw [hquoted, convertFrom_of_none hnone hfirst] at hconvert
  refine ⟨?_, fun converted hok => ?_, fun error herror => ?_,
    fun _ => fx.pairBars?_eq_none source target, fun bar => agrees_of_other h hspan hin⟩
  · rw [looked_iff h hspan, hconvert, hquoted]
    constructor
    · rintro ⟨_, hok⟩
      cases hok
    · rintro ⟨_, hsame, husable | hsome⟩
      · rw [Option.some.inj hsame] at hunusable
        exact absurd husable hunusable
      · exact absurd hsome hconstant
  · rw [hconvert] at hok
    cases hok
  · rw [hconvert] at herror
    cases herror
    exact ⟨w, first, hspan, hfirst, Or.inl ⟨⟨quoted, hquoted⟩, rfl⟩⟩

/-- Otherwise what comes of it depends on the series of the pair. -/
theorem converts_of_other : fx.Converts source target bars s := by
  cases hquoted : fx.pairBars? source target (fx.reach w) s with
  | none => exact converts_of_ended h hspan hin hquoted
  | some quoted =>
    rcases fx.factor?_all_or_none source target quoted with hnone | ⟨factor, hfactor⟩
    · exact converts_of_no_factor h hspan hin hquoted hnone
    · exact converts_of_factors h hspan hin hquoted hfactor

end Looked

end FxService

/-- Bars are converted all together or not at all, each by the factor of its date, and one bar by the
rate that is given for its date, unless the program ends while the series of the pair is loaded. -/
theorem conversion_is_all_or_nothing (fx : FxService σ ω) (source target : String) (bars : List Bar)
    (hin : ∀ first ∈ bars.head?, (first.date.plus (-fx.rules.windowDays)).InCalendar)
    (s : StoreState σ ω) : fx.Converts source target bars s := by
  by_cases h : FxService.SameMajor source target
  · exact FxService.converts_of_same h bars s
  by_cases hnil : bars = []
  · rw [hnil]
    exact FxService.converts_of_nil s
  · obtain ⟨w, hspan⟩ := Series.exists_span hnil
    obtain ⟨first, last, hfirst, -, rfl⟩ := Series.span_eq_some.1 hspan
    exact FxService.converts_of_other h hspan (hin first hfirst)

/-- Nobody can be asked. -/
def Sources.nobody : Sources Unit where
  configured _ := false
  ask _ _ _ outside := (.ok [], outside)

/-- Conversion without a network: no series, and a constant rate for one currency. -/
def FxService.ofConstantRate (base source : String) (rate : Float) : FxService Memory Unit where
  store :=
    { storage := .memory
      engine := { sources := .nobody }
      offline := true }
  rules := .of base 7 [(source, rate)]

/-- A store at the beginning of a day, with nothing stored. -/
def StoreState.ofDay (d : Day) : StoreState Memory Unit :=
  ⟨{}, ⟨⟨.showing (.ofDay d 0), {}⟩, ()⟩, .empty 8⟩

/-- One bar is converted by a configured constant rate. -/
theorem conversion_is_all_or_nothing_one_bar :
    (FxService.ofConstantRate "GBP" "USD" 0.75).Converts "USD" "GBP"
      [.flat ⟨19723⟩ 4.0 100 "ACME" "US" "yahoo"] (.ofDay ⟨19730⟩) := by
  refine conversion_is_all_or_nothing _ _ _ _ (fun first hfirst => ?_) _
  cases hfirst
  decide

/-- Conversion with a constant rate for dollars, over a source that only ever insists on a wait. -/
def FxService.ofInsisting : FxService Memory Unit where
  store := { storage := .memory, engine := .insisting ["yahoo"] fun _ _ => none }
  rules := .of "GBP" 7 [("USD", 0.75)]

/-- The constant rate is of no use if the program ends while the series of the pair is loaded. -/
theorem insisting_source_ends_conversion :
    FxService.ofInsisting.HasConstant "USD" "GBP"
      ∧ (FxService.ofInsisting.convert [.flat ⟨19723⟩ 4.0 100 "ACME" "US" "yahoo"] "USD" "GBP"
          (.ofDay ⟨19730⟩)).1 = .error .outsideCalendar := by
  refine ⟨⟨rfl, _, List.mem_singleton_self _, rfl⟩, ?_⟩
  obtain ⟨m, hends⟩ : ∃ m, FxService.ofInsisting.store.engine.fetch?
      ⟨"USDGBP", "FX", ⟨⟨19716⟩, ⟨19723⟩⟩⟩ (StoreState.ofDay ⟨19730⟩).market = .error m :=
    Engine.fetch?_of_insisting rfl (by decide) (Limiter.free_empty "yahoo") (by decide)
  have hwanted : Window.wanted none ⟨⟨19716⟩, ⟨19723⟩⟩ (StoreState.ofDay ⟨19730⟩).today
      = [⟨⟨19716⟩, ⟨19723⟩⟩] := by decide
  have hasking : FxService.ofInsisting.store.EndsAsking (FxService.pairKey "USD" "GBP")
      ⟨⟨19716⟩, ⟨19723⟩⟩ (.ofDay ⟨19730⟩) := by
    refine ⟨rfl, ⟨[], none⟩, ⟨⟨19716⟩, ⟨19723⟩⟩, rfl, ?_⟩
    rw [hwanted]
    exact congrArg Asked.endedAt (RollingStore.askFor_cons_of_error hends)
  have hunseen : FxService.ofInsisting.pairBars? "USD" "GBP" ⟨⟨19716⟩, ⟨19723⟩⟩ (.ofDay ⟨19730⟩)
      = none :=
    (FxService.ofInsisting.pairBars?_eq_none "USD" "GBP").2
      ⟨by decide, rfl, Std.HashMap.getElem?_empty, Or.inr (Or.inr hasking)⟩
  have hspan : Series.span [.flat ⟨19723⟩ 4.0 100 "ACME" "US" "yahoo"]
      = some ⟨⟨19723⟩, ⟨19723⟩⟩ := rfl
  have hin : (FxService.ofInsisting.reach ⟨⟨19723⟩, ⟨19723⟩⟩).first.InCalendar := by decide
  rw [FxService.convert_of_other FxService.ofInsisting "USD" "GBP" (by decide) hspan hin]
  exact congrArg (FxService.ofInsisting.convertFrom "USD" "GBP" _) hunseen

end DailyBars
