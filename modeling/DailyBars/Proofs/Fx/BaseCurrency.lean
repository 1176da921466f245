import DailyBars.Cli.Run
import DailyBars.Proofs.Fx.Conversion
import DailyBars.Proofs.Text.Letters

/-! # The base currency and its unit

A currency may be named by its minor unit: `GBX` and `GBp` are a hundredth of `GBP`. Between any two
currencies the units of both count. Of the base currency only the major currency is kept, so rates
into a base that is named by a minor unit are rates into its major unit, a hundredth of what one unit
of the named base would make them.
-/

namespace DailyBars

/-! ## Minor units -/

namespace Currency

/-- The text names a hundredth of a pound. -/
def IsMinor (text : String) : Prop :=
  Text.trim text = "GBp" ∨ Text.sameLetters (Text.trim text) "GBX" = true

instance (text : String) : Decidable (IsMinor text) := inferInstanceAs (Decidable (_ ∨ _))

/-- A minor unit is a hundredth of a pound. -/
theorem of_of_isMinor {text : String} (h : IsMinor text) : of text = ⟨"GBP", 0.01⟩ := by
  rw [of]
  simp only [Bool.or_eq_true, beq_iff_eq]
  exact if_pos h

/-- Any other text is a currency of its own. -/
theorem of_of_not_isMinor {text : String} (h : ¬ IsMinor text) :
    of text = ⟨Text.upper (Text.trim text), 1.0⟩ := by
  rw [of]
  simp only [Bool.or_eq_true, beq_iff_eq]
  exact if_neg h

/-- In upper case only one of the two spellings is left. -/
theorem isMinor_upper {text : String} :
    IsMinor (Text.upper text) ↔ Text.sameLetters (Text.trim text) "GBX" = true := by
  have hmem : 'p' ∈ "GBp".toList := by decide
  rw [IsMinor, Text.trim_upper, Text.sameLetters_upper]
  constructor
  · rintro (hpence | hletters)
    · exact absurd hpence (Text.upper_ne_of_isLower hmem rfl)
    · exact hletters
  · exact Or.inr

/-- A major currency names itself. -/
theorem of_code (text : String) : of (of text).code = ⟨(of text).code, 1.0⟩ := by
  by_cases h : IsMinor text
  · rw [of_of_isMinor h]
    rfl
  · have hmajor : ¬ IsMinor (Text.upper (Text.trim text)) := by
      rw [isMinor_upper, Text.trim_trim]
      exact fun hletters => h (Or.inr hletters)
    rw [of_of_not_isMinor h, of_of_not_isMinor hmajor, Text.trim_upper, Text.trim_trim,
      Text.upper_upper]

/-- Letters of either case name one currency, but for the small one that makes pence of pounds. -/
theorem of_upper {text : String} (h : Text.trim text ≠ "GBp") : of (Text.upper text) = of text := by
  by_cases hletters : Text.sameLetters (Text.trim text) "GBX" = true
  · rw [of_of_isMinor (isMinor_upper.2 hletters), of_of_isMinor (Or.inr hletters)]
  · have hmajor : ¬ IsMinor text := by
      rintro (hpence | hsame)
      · exact h hpence
      · exact hletters hsame
    rw [of_of_not_isMinor (mt isMinor_upper.1 hletters), of_of_not_isMinor hmajor, Text.trim_upper,
      Text.upper_upper]

/-- Pence in upper case are read as pounds. -/
theorem of_upper_pence {text : String} (h : Text.trim text = "GBp") :
    of (Text.upper text) = of "GBP" := by
  have hmajor : ¬ IsMinor (Text.upper text) := by
    rw [isMinor_upper, h]
    decide
  rw [of_of_not_isMinor hmajor, Text.trim_upper, h]
  rfl

end Currency

/-! ## Rates in units -/

namespace FxService

variable {σ ω : Type} (fx : FxService σ ω)

/-- Only the currency that a text names counts. -/
theorem rate_congr {target other : String} (h : Currency.of target = Currency.of other)
    (source : String) (date : Day) : fx.rate source target date = fx.rate source other date := by
  unfold rate
  rw [h]

/-- How rates into the base currency are related to rates into the text that names it. -/
structure Denominated (base : String) : Prop where
  /-- They are rates into its major currency, -/
  inMajor : ∀ currency date, fx.rateOn currency date = fx.rate currency (Currency.of base).code date
  /-- which are rates into what is named exactly if that is no minor unit. -/
  inNamed : ∀ s, (∀ currency date, fx.rateOn currency date s = fx.rate currency base date s)
    ↔ ¬ Currency.IsMinor base
  /-- Otherwise both are one rate between the major currencies, in whole units and in hundredths, -/
  hundredths : Currency.IsMinor base → ∀ currency date s, ¬ SameMajor currency base →
    ∃ (result : Except DataError Float) (s' : StoreState σ ω), fx.rateOn currency date s
        = (result.map (· * ((Currency.of currency).unit / 1.0)), s')
      ∧ fx.rate currency base date s = (result.map (· * ((Currency.of currency).unit / 0.01)), s')
  /-- and if it is one currency, only the units differ. -/
  units : Currency.IsMinor base → ∀ currency date s, SameMajor currency base →
    fx.rateOn currency date s = (.ok ((Currency.of currency).unit / 1.0), s)
      ∧ fx.rate currency base date s = (.ok ((Currency.of currency).unit / 0.01), s)

variable {fx}

/-- The rules of conversion keep the major currency of the base. -/
theorem denominated_of_base {base : String} (hbase : fx.rules.base = (Currency.of base).code) :
    fx.Denominated base := by
  have hrate : ∀ currency date, fx.rateOn currency date
      = fx.rate currency (Currency.of base).code date := by
    intro currency date
    rw [rateOn, hbase]
  have hsame : ∀ {currency : String}, SameMajor currency base →
      SameMajor currency (Currency.of base).code := by
    intro currency h
    rw [SameMajor, Currency.of_code]
    exact h
  have hother : ∀ {currency : String}, ¬ SameMajor currency base →
      ¬ SameMajor currency (Currency.of base).code := by
    intro currency h
    rwa [SameMajor, Currency.of_code]
  have hunits : Currency.IsMinor base → ∀ currency date s, SameMajor currency base →
      fx.rateOn currency date s = (.ok ((Currency.of currency).unit / 1.0), s)
        ∧ fx.rate currency base date s = (.ok ((Currency.of currency).unit / 0.01), s) := by
    intro hminor currency date s h
    rw [hrate, rate_of_same _ _ _ (hsame h), rate_of_same _ _ _ h, unitRatio, unitRatio,
      Currency.of_code, Currency.of_of_isMinor hminor]
    exact ⟨rfl, rfl⟩
  refine ⟨hrate, fun s => ⟨fun hall hminor => ?_, fun hmajor currency date => ?_⟩,
    fun hminor currency date s h => ?_, hunits⟩
  · -- a pound is one pound, and not one penny
    have hpound : SameMajor "GBP" base := by
      rw [SameMajor, Currency.of_of_isMinor hminor]
      rfl
    obtain ⟨hin, hnamed⟩ := hunits hminor "GBP" ⟨0⟩ s hpound
    have heq := hall "GBP" ⟨0⟩
    rw [hin, hnamed, Prod.mk.injEq, Except.ok.injEq] at heq
    have hne : (1.0 : Float) / 1.0 ≠ 1.0 / 0.01 := by decide +kernel
    exact hne heq.1
  · have hunit : Currency.of (Currency.of base).code = Currency.of base := by
      rw [Currency.of_code, Currency.of_of_not_isMinor hmajor]
    rw [hrate, fx.rate_congr hunit]
  · have hin := rate_eq_majorRate fx _ _ (hother h) date s
    have hnamed := rate_eq_majorRate fx _ _ h date s
    rw [unitRatio, Currency.of_code] at hin
    rw [unitRatio, Currency.of_of_isMinor hminor] at hnamed
    rw [Currency.of_of_isMinor hminor] at hin
    rw [hrate, Currency.of_of_isMinor hminor]
    exact ⟨_, _, hin, hnamed⟩

end FxService

/-! ## Printed rates -/

namespace Cli

variable {ω : Type}

/-- The line of a rate. -/
def rateLine (currency : String) (rate : Float) (base : String) (day : Day) : String :=
  "1 " ++ currency ++ " = " ++ Number.fixedText 6 rate ++ " " ++ base ++ " on " ++ day.text

/-- A computation on the store that succeeds within a run succeeds by itself. -/
theorem run_of_ofStore {α : Type} {run : StoreM (FileTree × ω) ω α}
    {s s' : StoreState (FileTree × ω) ω} {a : α} (h : ofStore run s = (.ok a, s')) :
    run s = (.ok a, s') := by
  obtain ⟨result, s₁, hrun⟩ : ∃ result s₁, run s = (result, s₁) := ⟨_, _, rfl⟩
  change ((run s).1.mapError RunFault.data, (run s).2) = _ at h
  rw [hrun] at h ⊢
  cases result with
  | ok b =>
    cases h
    rfl
  | error error => cases h

/-- Reading a day does not change the state. -/
theorem dayOr_state {absent d : Day} {text : Option String} {s s' : StoreState (FileTree × ω) ω}
    (h : (dayOr absent text : RunM ω Day) s = (.ok d, s')) : s' = s := by
  cases text with
  | none =>
    cases h
    rfl
  | some t =>
    cases hparse : DatePattern.hyphenated.parse? t with
    | some day =>
      simp only [dayOr, hparse] at h
      cases h
      rfl
    | none =>
      simp only [dayOr, hparse] at h
      cases h

/-- The lines that are printed for a rate: the number is the rate into the base, and the unit is the
text of the configuration. -/
theorem perform_rate {h : PriceHistory (FileTree × ω) ω} {c : Config} {currency : String}
    {date : Option String} {s s' : StoreState (FileTree × ω) ω} {lines : List String}
    (hrun : (Command.rate currency date).perform h c s = (.ok lines, s')) : ∃ day rate,
      h.fx.rateOn currency day s = (.ok rate, s')
        ∧ lines = [rateLine currency rate c.fx.baseCurrency day] := by
  rw [Command.perform] at hrun
  obtain ⟨today, s₁, htoday, hdated⟩ := exists_of_bind_ok hrun
  obtain ⟨day, s₂, hday, hrated⟩ := exists_of_bind_ok hdated
  obtain ⟨rate, s₃, hrate, hline⟩ := exists_of_bind_ok hrated
  have hsame₁ : s₁ = s := by
    cases htoday
    rfl
  have hsame₂ : s₂ = s := (dayOr_state hday).trans hsame₁
  rw [hsame₂] at hrate
  cases hline
  exact ⟨day, rate, run_of_ofStore hrate, rfl⟩

/-- What is printed for a rate holds of the major currency of the base. -/
def PrintsRates (h : PriceHistory (FileTree × ω) ω) (c : Config) : Prop :=
  ∀ currency date s lines s', (Command.rate currency date).perform h c s = (.ok lines, s') →
    ∃ day rate, h.fx.rate currency (Currency.of c.fx.baseCurrency).code day s = (.ok rate, s')
      ∧ lines = [rateLine currency rate c.fx.baseCurrency day]

end Cli

/-- The rules of a history are those of its configuration. -/
theorem PriceHistory.rules_of_config {σ ω : Type} {c : Config} {storage : Storage σ}
    {sources : Sources ω} {library : MetadataLibrary} {file : String → Option String}
    {h : PriceHistory σ ω} (hbuilt : ofConfig c storage sources library file = .ok h) :
    h.fx.rules = .of c.fx.baseCurrency c.fx.windowDays c.fx.fallbackRates := by
  unfold ofConfig at hbuilt
  obtain ⟨_, -, hbuilt⟩ := exists_of_bind_eq_ok hbuilt
  simp only at hbuilt
  split at hbuilt
  all_goals
    obtain ⟨_, -, hbuilt⟩ := exists_of_bind_eq_ok hbuilt
    cases hbuilt
    rfl

/-- Rates into the base currency of a configuration, asked for or printed, are rates into its major
currency, and into the base as it is named exactly if that is no minor unit. -/
theorem base_rates_are_in_major_units {σ ω : Type} (c : Config) (storage : Storage σ)
    (sources : Sources ω) (library : MetadataLibrary) (file : String → Option String) :
    (∀ h, PriceHistory.ofConfig c storage sources library file = .ok h →
      h.fx.Denominated c.fx.baseCurrency)
    ∧ ∀ storage h, PriceHistory.ofConfig c storage sources library file = .ok h →
      Cli.PrintsRates h c := by
  refine ⟨fun h hbuilt => ?_, fun storage h hbuilt currency date s lines s' hrun => ?_⟩
  · apply FxService.denominated_of_base
    rw [PriceHistory.rules_of_config hbuilt]
    rfl
  · obtain ⟨day, rate, hrate, hlines⟩ := Cli.perform_rate hrun
    rw [FxService.rateOn, PriceHistory.rules_of_config hbuilt] at hrate
    exact ⟨day, rate, hrate, hlines⟩

/-- A base of pence gives rates in pounds. -/
theorem base_rates_are_in_major_units_pence :
    ∃ h, PriceHistory.ofConfig { fx := { baseCurrency := "GBX" } } Storage.memory Sources.nobody {}
        (fun _ => none) = .ok h
      ∧ h.fx.Denominated "GBX" :=
  ⟨_, rfl, (base_rates_are_in_major_units { fx := { baseCurrency := "GBX" } } Storage.memory
    Sources.nobody {} fun _ => none).1 _ rfl⟩

/-- A penny is a hundredth of the base currency if that is pennies. -/
theorem penny_base_counts_pounds :
    ({ fx := { baseCurrency := "GBX" } } : Config).validate = .ok ()
      ∧ (FxService.ofConstantRate "GBX" "USD" 0.75).rateOn "GBX" ⟨19723⟩ (.ofDay ⟨19730⟩)
        = (.ok 0.01, .ofDay ⟨19730⟩)
      ∧ (FxService.ofConstantRate "GBX" "USD" 0.75).rate "GBX" "GBX" ⟨19723⟩ (.ofDay ⟨19730⟩)
        = (.ok 1.0, .ofDay ⟨19730⟩) := by
  have hbase : (FxService.ofConstantRate "GBX" "USD" 0.75).rules.base
      = (Currency.of "GBX").code := rfl
  have hunits := (FxService.denominated_of_base hbase).units (by decide) "GBX" ⟨19723⟩
    (.ofDay ⟨19730⟩) rfl
  have hhundredth : (Currency.of "GBX").unit / 1.0 = 0.01 := by decide +kernel
  have hone : (Currency.of "GBX").unit / 0.01 = 1.0 := by decide +kernel
  rw [hhundredth, hone] at hunits
  exact ⟨rfl, hunits⟩

end DailyBars
