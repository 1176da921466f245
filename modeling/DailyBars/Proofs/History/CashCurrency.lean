import DailyBars.Proofs.Calendar.BusinessDays
import DailyBars.Proofs.Fx.BaseCurrency
import DailyBars.Proofs.History.ServedSeries
import DailyBars.Proofs.Number.Identity

/-! # The currency of cash

Cash is declared by the three letters after a prefix, or by a document in a folder of cash. What was
declared is kept in upper case, and a currency in upper case is the one that was declared unless that
is `GBp`, of which only the upper case makes pounds. So a request for cash is answered in the currency
that it was declared in, with prices of one where that is wanted and with rates from that currency
where another one is; only pence in that one spelling are taken for pounds.
-/

namespace DailyBars

variable {σ ω : Type}

/-! ## Declared currencies -/

namespace Cash

/-- The text is made of the prefix in any case, a dot and three letters. -/
structure IsPrefixed (marker text letters : String) : Prop where
  splits : ∃ head : String, text = head ++ "." ++ letters
    ∧ Text.sameLetters head (Text.trim marker) = true
  length : letters.length = 3
  alphabetic : ∀ c ∈ letters.toList, c.isAlpha = true

/-- The currency that a symbol is cash of, as it is written. -/
inductive Declares (marker : String) (library : MetadataLibrary) (text : String) : String → Prop where
  /-- The letters after the prefix. -/
  | letters {currency : String} : IsPrefixed marker (Text.trim text) currency →
    Declares marker library text currency
  /-- The currency of a document, -/
  | document {hit : MetadataHit} {currency : String} :
    (∀ letters, ¬ IsPrefixed marker (Text.trim text) letters) →
    library.findCash? (Text.upper (Text.trim text)) = some hit →
    hit.doc.currency = some currency → Declares marker library text currency
  /-- or the symbol, if its document names none. -/
  | symbol {hit : MetadataHit} :
    (∀ letters, ¬ IsPrefixed marker (Text.trim text) letters) →
    library.findCash? (Text.upper (Text.trim text)) = some hit →
    hit.doc.currency = none → Declares marker library text (Text.upper (Text.trim text))

/-- The characters of a marker, a dot and letters. -/
theorem toList_prefix_append (head letters : String) :
    (head ++ "." ++ letters).toList = head.toList ++ '.' :: letters.toList := by
  rw [String.toList_append, String.toList_append, List.append_assoc]
  rfl

/-- The letters after a marker are found in upper case. -/
theorem prefixed?_of_isPrefixed {marker text letters : String}
    (h : IsPrefixed marker text letters) :
    prefixed? marker (Text.upper text) = some (Text.upper letters) := by
  obtain ⟨⟨head, rfl, hhead⟩, hlength, halpha⟩ := h
  rw [Text.sameLetters, beq_iff_eq] at hhead
  have hsplit : ((head ++ "." ++ letters).toList.map Char.toUpper)
      = ((Text.trim marker).toList.map Char.toUpper ++ ['.']) ++ letters.toList.map Char.toUpper := by
    rw [toList_prefix_append, List.map_append, hhead, List.append_assoc]
    rfl
  unfold prefixed?
  simp only [Text.toList_upper]
  rw [hsplit, List.drop_left, if_pos]
  · rfl
  · simp only [Bool.and_eq_true, List.isPrefixOf_iff_prefix, beq_iff_eq, List.all_eq_true,
      List.length_map, List.prefix_append, true_and]
    refine ⟨hlength, fun x hx => ?_⟩
    obtain ⟨c, hc, rfl⟩ := List.mem_map.1 hx
    rw [Char.isAlpha_toUpper_eq_isAlpha]
    exact halpha c hc

/-- What is found follows a marker, in upper case. -/
theorem exists_isPrefixed {marker text currency : String}
    (h : prefixed? marker (Text.upper text) = some currency) :
    ∃ letters, IsPrefixed marker text letters ∧ currency = Text.upper letters := by
  unfold prefixed? at h
  simp only [Text.toList_upper] at h
  split at h
  next hfound =>
    rw [Option.some.injEq] at h
    simp only [Bool.and_eq_true, List.isPrefixOf_iff_prefix, beq_iff_eq, List.all_eq_true] at hfound
    obtain ⟨⟨⟨rest, hsplit⟩, hlength⟩, halpha⟩ := hfound
    rw [← hsplit, List.drop_left] at h hlength halpha
    -- the text splits where its upper case does, and the dot has no other case
    obtain ⟨before, letters, htext, hbefore, rfl⟩ := List.map_eq_append_iff.1 hsplit.symm
    obtain ⟨head, dot, rfl, hhead, hdot⟩ := List.map_eq_append_iff.1 hbefore
    obtain ⟨c, rfl, hc⟩ := List.map_eq_singleton_iff.1 hdot
    have hpoint : c = '.' := Text.eq_of_toUpper_eq hc rfl
    refine ⟨String.ofList letters, ⟨⟨String.ofList head, ?_, ?_⟩, ?_, ?_⟩, ?_⟩
    · rw [← String.toList_inj, toList_prefix_append, htext, hpoint]
      simp
    · rw [Text.sameLetters, String.toList_ofList, beq_iff_eq, hhead]
    · rw [List.length_map] at hlength
      rw [String.length_ofList, hlength]
    · intro x hx
      rw [String.toList_ofList] at hx
      rw [← Char.isAlpha_toUpper_eq_isAlpha]
      exact halpha _ (List.mem_map_of_mem hx)
    · rw [← h, Text.upper, String.toList_ofList]
  next => cases h

/-- The letters after the prefix are found in upper case. -/
theorem prefixed?_eq_some {marker text currency : String} :
    prefixed? marker (Text.upper text) = some currency
      ↔ ∃ letters, IsPrefixed marker text letters ∧ currency = Text.upper letters := by
  refine ⟨exists_isPrefixed, ?_⟩
  rintro ⟨letters, hletters, rfl⟩
  exact prefixed?_of_isPrefixed hletters

/-- Nothing is found just if no letters follow a marker. -/
theorem prefixed?_eq_none {marker text : String} : prefixed? marker (Text.upper text) = none
    ↔ ∀ letters, ¬ IsPrefixed marker text letters := by
  rw [Option.eq_none_iff_forall_ne_some]
  constructor
  · exact fun h letters hletters => h _ (prefixed?_eq_some.2 ⟨letters, hletters, rfl⟩)
  · intro h currency hsome
    obtain ⟨letters, hletters, -⟩ := prefixed?_eq_some.1 hsome
    exact h letters hletters

/-- Cash is what declares a currency, and of that currency the upper case is kept. -/
theorem recognise?_eq_some {marker : String} {library : MetadataLibrary} {text : String}
    {cash : Cash} :
    recognise? marker library text = some cash ↔ ∃ declared, Declares marker library text declared
      ∧ cash = ⟨Text.upper (Text.trim text), Text.upper declared⟩ := by
  unfold recognise?
  simp only
  cases hletters : prefixed? marker (Text.upper (Text.trim text)) with
  | some currency =>
    obtain ⟨letters, hprefixed, rfl⟩ := prefixed?_eq_some.1 hletters
    simp only [Option.some.injEq]
    constructor
    · rintro rfl
      exact ⟨letters, .letters hprefixed, rfl⟩
    · rintro ⟨declared, hdeclared, rfl⟩
      cases hdeclared with
      | letters hother =>
        have hsame := prefixed?_eq_some.2 ⟨_, hother, rfl⟩
        rw [hletters, Option.some.injEq] at hsame
        rw [hsame]
      | document hnone => exact absurd hprefixed (hnone letters)
      | symbol hnone => exact absurd hprefixed (hnone letters)
  | none =>
    have hnone := prefixed?_eq_none.1 hletters
    simp only [Option.map_eq_some_iff]
    constructor
    · rintro ⟨hit, hfind, rfl⟩
      cases hcurrency : hit.doc.currency with
      | some currency => exact ⟨currency, .document hnone hfind hcurrency, rfl⟩
      | none => exact ⟨_, .symbol hnone hfind hcurrency, by rw [Text.upper_upper]; rfl⟩
    · rintro ⟨declared, hdeclared, rfl⟩
      cases hdeclared with
      | letters hother => exact absurd hother (hnone _)
      | document _ hfind hcurrency => exact ⟨_, hfind, by rw [hcurrency]; rfl⟩
      | symbol _ hfind hcurrency => exact ⟨_, hfind, by rw [hcurrency, Text.upper_upper]; rfl⟩

/-- The bars are one for each business day of a window before the last day of the calendar, with a
price of the day in all four places. -/
structure IsSeries (c : Cash) (w : Window) (price : Day → Float → Prop) (bars : List Bar) : Prop where
  ascending : Series.Ascending bars
  days : ∀ d, d ∈ bars.map Bar.date ↔ w.first ≤ d ∧ d ≤ w.last ∧ d < .latest
    ∧ d.weekday ≠ .saturday ∧ d.weekday ≠ .sunday
  rows : ∀ b ∈ bars, ∃ p, price b.date p ∧ b = .flat b.date p 0 c.symbol c.currency source

/-- Flat bars on the business days of a window are a series of cash. -/
theorem isSeries_of_dates {c : Cash} {w : Window} {price : Day → Float → Prop} {bars : List Bar}
    (hdates : bars.map Bar.date = w.first.businessDays w.last)
    (hrows : ∀ b ∈ bars, ∃ p, price b.date p ∧ b = .flat b.date p 0 c.symbol c.currency source) :
    c.IsSeries w price bars where
  ascending := by
    have hordered := Day.pairwise_businessDays w.first w.last
    rw [← hdates] at hordered
    exact List.pairwise_map.1 hordered
  days d := by rw [hdates, Day.mem_businessDays_iff]
  rows := hrows

/-- Scaling a unit bar makes a flat one of the factor. -/
theorem scale_of_mem_bars {c : Cash} {w : Window} {b : Bar} (h : b ∈ c.bars w) (factor : Float) :
    b.scale factor = .flat b.date factor 0 c.symbol c.currency source := by
  rw [isUnit_of_mem_bars h]
  simp only [Bar.scale, Bar.flat, Number.one_product]

end Cash

/-! ## Conversion from a currency -/

namespace FxService

variable {fx : FxService σ ω}

/-- Of the text, only the currency that it names counts. -/
theorem factor_congr {source other target : String} {w : Window} {s : StoreState σ ω} {d : Day}
    {f : Float} (hcurrency : Currency.of source = Currency.of other)
    (h : fx.Factor source target w s d f) : fx.Factor other target w s d f := by
  have hsame : SameMajor source target ↔ SameMajor other target := by
    rw [SameMajor, SameMajor, hcurrency]
  have hunit : unitRatio source target = unitRatio other target := by
    rw [unitRatio, unitRatio, hcurrency]
  have hbars : fx.pairBars? source target w s = fx.pairBars? other target w s := by
    unfold pairBars? loadPair
    rw [hcurrency]
  have hconstant : fx.constantRate? source target = fx.constantRate? other target := by
    rw [constantRate?, constantRate?, hcurrency]
  cases h with
  | same hmajor =>
    rw [hunit]
    exact .same (hsame.1 hmajor)
  | quoted hother hquoted hrate =>
    rw [hunit]
    exact .quoted (mt hsame.2 hother) (hbars ▸ hquoted) hrate
  | constant hother hquoted hnone hrate =>
    rw [hunit]
    exact .constant (mt hsame.2 hother) (hbars ▸ hquoted) hnone (hconstant ▸ hrate)

/-- Prices of the days of a span can be converted: only the unit changes, or there is a rate, and
what may be looked at for one begins within the calendar. -/
def CanConvert (fx : FxService σ ω) (source target : String) (span : Window) (s : StoreState σ ω) :
    Prop :=
  SameMajor source target ∨ (fx.reach span).first.InCalendar ∧ ∃ quoted,
    fx.pairBars? source target (fx.reach span) s = some quoted
      ∧ (Rates.AnyUsable quoted ∨ fx.HasConstant source target)

/-- Whether a currency can be converted depends only on how it is read. -/
theorem canConvert_congr {source other target : String} {span : Window} {s : StoreState σ ω}
    (hcurrency : Currency.of source = Currency.of other) :
    fx.CanConvert source target span s ↔ fx.CanConvert other target span s := by
  unfold CanConvert SameMajor pairBars? loadPair HasConstant
  rw [hcurrency]

variable {source target : String} {bars : List Bar} {s : StoreState σ ω}

/-- A conversion succeeds just if its span can be converted. -/
theorem convert_succeeds_iff : (∃ converted, (fx.convert bars source target s).1 = .ok converted)
    ↔ ∀ span, Series.span bars = some span → fx.CanConvert source target span s := by
  by_cases hsame : SameMajor source target
  · exact ⟨fun _ _ _ => Or.inl hsame, fun _ => (converts_of_same hsame bars s).succeeds.2
      (Or.inr (Or.inl hsame))⟩
  cases hspan : Series.span bars with
  | none =>
    rw [Series.eq_nil_of_span_eq_none hspan]
    exact ⟨fun _ _ h => (by cases h), fun _ => ⟨[], rfl⟩⟩
  | some w =>
    simp only [Option.some.injEq, forall_eq', CanConvert, hsame, false_or]
    by_cases hin : (fx.reach w).first.InCalendar
    · rw [(converts_of_other hsame hspan hin).succeeds, looked_iff hsame hspan]
      exact (and_iff_right hin).symm
    · rw [convert_of_unreachable fx source target hsame hspan hin]
      exact ⟨fun ⟨_, hok⟩ => (by cases hok), fun h => absurd h.1 hin⟩

/-- A conversion that succeeds scales every bar by the factor of its date. -/
theorem exists_factor_of_convert {converted : List Bar}
    (hok : (fx.convert bars source target s).1 = .ok converted) :
    ∃ factor : Day → Float, converted = bars.map (fun b => b.scale (factor b.date))
      ∧ ∀ span, Series.span bars = some span → ∀ b ∈ bars,
        fx.Factor source target (fx.reach span) s b.date (factor b.date) := by
  have hconverts : fx.Converts source target bars s := by
    by_cases hsame : SameMajor source target
    · exact converts_of_same hsame bars s
    cases hspan : Series.span bars with
    | none =>
      rw [Series.eq_nil_of_span_eq_none hspan]
      exact converts_of_nil s
    | some w =>
      by_cases hin : (fx.reach w).first.InCalendar
      · exact converts_of_other hsame hspan hin
      · rw [convert_of_unreachable fx source target hsame hspan hin] at hok
        cases hok
  exact hconverts.scales converted hok

end FxService

/-! ## Requests for cash -/

namespace PriceHistory

variable (h : PriceHistory σ ω)

/-- How a request for cash is answered if it is cash of a currency. -/
structure ServesCash (r : HistoryRequest) (cash : Cash) (currency : String) (s : StoreState σ ω) :
    Prop where
  /-- Where no other currency or unit is wanted every price is one, and nothing else is touched. -/
  unconverted : (∀ wanted, r.currency = some wanted → Currency.same currency wanted = true) →
    ∃ bars, h.history r s = (.ok bars, s) ∧ cash.IsSeries r.window (fun _ p => p = 1.0) bars
  /-- Otherwise there is an answer if there are rates for the days from the first bar to the last, -/
  answered : ∀ wanted, r.currency = some wanted → Currency.same currency wanted = false →
    ((∃ bars, (h.history r s).1 = .ok bars) ↔ ∀ span, Series.span (cash.bars r.window) = some span →
      h.fx.CanConvert currency wanted span s)
  /-- and every price is how many units of what is wanted one unit of the currency counts for. -/
  converted : ∀ wanted, r.currency = some wanted → Currency.same currency wanted = false →
    ∀ bars, (h.history r s).1 = .ok bars → cash.IsSeries r.window (fun d p => ∃ span,
      Series.span bars = some span ∧ h.fx.Factor currency wanted (h.fx.reach span) s d p) bars

variable {h} {r : HistoryRequest} {cash : Cash}

/-- Cash in another currency than the wanted one is converted, -/
theorem history_of_other
    (hcash : Cash.recognise? h.cashPrefix h.library r.symbol = some cash) {wanted : String}
    (hwanted : r.currency = some wanted) (hother : Currency.same cash.currency wanted = false) :
    h.history r = h.fx.convert (cash.bars r.window) cash.currency wanted := by
  unfold history inCurrency
  rw [hcash, hwanted]
  simp only [hother, Bool.false_eq_true, if_false]

/-- and in the wanted one served as it is. -/
theorem history_of_own
    (hcash : Cash.recognise? h.cashPrefix h.library r.symbol = some cash)
    (hown : ∀ wanted, r.currency = some wanted → Currency.same cash.currency wanted = true)
    (s : StoreState σ ω) : h.history r s = (.ok (cash.bars r.window), s) := by
  cases hwanted : r.currency with
  | none => exact h.history_of_cash hcash hwanted s
  | some wanted =>
    unfold history inCurrency
    rw [hcash, hwanted]
    simp only [hown wanted hwanted, if_true]
    rfl

/-- It is answered by the currency that was kept. -/
theorem servesCash_of_currency
    (hcash : Cash.recognise? h.cashPrefix h.library r.symbol = some cash) {currency : String}
    (hcurrency : Currency.of cash.currency = Currency.of currency) (s : StoreState σ ω) :
    h.ServesCash r cash currency s := by
  have hsame : ∀ wanted, Currency.same cash.currency wanted = Currency.same currency wanted := by
    intro wanted
    rw [Currency.same, Currency.same, hcurrency]
  refine ⟨fun hown => ?_, fun wanted hwanted hother => ?_, fun wanted hwanted hother bars hok => ?_⟩
  · simp only [← hsame] at hown
    refine ⟨_, history_of_own hcash hown s, Cash.isSeries_of_dates (cash.map_date_bars _) ?_⟩
    exact fun b hb => ⟨1.0, rfl, Cash.isUnit_of_mem_bars hb⟩
  · rw [← hsame] at hother
    rw [history_of_other hcash hwanted hother, FxService.convert_succeeds_iff]
    simp only [FxService.canConvert_congr hcurrency]
  · rw [← hsame] at hother
    rw [history_of_other hcash hwanted hother] at hok
    obtain ⟨factor, rfl, hfactor⟩ := FxService.exists_factor_of_convert hok
    refine Cash.isSeries_of_dates ?_ fun b hb => ?_
    · rw [List.map_map]
      exact cash.map_date_bars _
    · obtain ⟨bar, hbar, rfl⟩ := List.mem_map.1 hb
      obtain ⟨span, hspan⟩ := Series.exists_span (List.ne_nil_of_mem hbar)
      have hdate : ∀ bar : Bar, (bar.scale (factor bar.date)).date = bar.date := fun _ => rfl
      refine ⟨factor bar.date, ⟨span, ?_, ?_⟩, Cash.scale_of_mem_bars hbar _⟩
      · rw [Series.span_map hdate]
        exact hspan
      · exact FxService.factor_congr hcurrency (hfactor span hspan bar hbar)

end PriceHistory

/-- A request for cash is answered in the currency that was declared, unless that is `GBp`: such cash
is served as cash in pounds. -/
theorem cash_is_served_as_declared (h : PriceHistory σ ω) (r : HistoryRequest) (cash : Cash)
    (hcash : Cash.recognise? h.cashPrefix h.library r.symbol = some cash) (s : StoreState σ ω) :
    (∃ currency, Cash.Declares h.cashPrefix h.library r.symbol currency)
      ∧ ∀ currency, Cash.Declares h.cashPrefix h.library r.symbol currency →
        (Text.trim currency ≠ "GBp" → h.ServesCash r cash currency s)
          ∧ (Text.trim currency = "GBp" → h.ServesCash r cash "GBP" s) := by
  obtain ⟨declared, hdeclared, -⟩ := Cash.recognise?_eq_some.1 hcash
  refine ⟨⟨declared, hdeclared⟩, fun currency hcurrency => ?_⟩
  have hkept : cash.currency = Text.upper currency := by
    have hother := Cash.recognise?_eq_some.2 ⟨currency, hcurrency, rfl⟩
    rw [hcash, Option.some.injEq] at hother
    rw [hother]
  constructor
  · intro hpence
    apply PriceHistory.servesCash_of_currency hcash
    rw [hkept, Currency.of_upper hpence]
  · intro hpence
    apply PriceHistory.servesCash_of_currency hcash
    rw [hkept, Currency.of_upper_pence hpence]

/-- Pence by their other spelling are served as pence. -/
theorem cash_is_served_as_declared_gbx :
    Cash.recognise? "CASH" {} "cash.gbx" = some ⟨"CASH.GBX", "GBX"⟩
      ∧ PriceHistory.ofOneBar.ServesCash ⟨"cash.gbx", none, ⟨⟨19996⟩, ⟨20002⟩⟩, some "GBP"⟩
        ⟨"CASH.GBX", "GBX"⟩ "gbx" (.ofDay ⟨20005⟩) := by
  have hcash : Cash.recognise? "CASH" {} "cash.gbx" = some ⟨"CASH.GBX", "GBX"⟩ := by decide
  have hletters : Cash.IsPrefixed "CASH" (Text.trim "cash.gbx") "gbx" :=
    ⟨⟨"cash", by decide, by decide⟩, rfl, List.all_eq_true.1 (by decide)⟩
  have hserved := cash_is_served_as_declared PriceHistory.ofOneBar
    ⟨"cash.gbx", none, ⟨⟨19996⟩, ⟨20002⟩⟩, some "GBP"⟩ _ hcash (.ofDay ⟨20005⟩)
  exact ⟨hcash, (hserved.2 "gbx" (.letters hletters)).1 (by decide)⟩

/-- A folder of cash with a document that names pence. -/
def MetadataLibrary.ofPence : MetadataLibrary :=
  ⟨[[⟨"CASH", [("PENNY.json", some "\x7b\"currency\": \"GBp\"\x7d")]⟩]]⟩

/-- A service that knows of pence and has no rates. -/
def PriceHistory.ofPence : PriceHistory Memory Unit :=
  ⟨.ofPence, "CASH", .ofConstantRate "GBP" "USD" 0.75⟩

/-- A penny is served as a pound. -/
theorem penny_is_served_as_pound :
    Cash.Declares "CASH" .ofPence "penny" "GBp" ∧ FxService.unitRatio "GBp" "GBP" = 0.01
      ∧ ∃ bars, PriceHistory.ofPence.history ⟨"penny", none, ⟨⟨19996⟩, ⟨20002⟩⟩, some "GBP"⟩
          (.ofDay ⟨20005⟩) = (.ok bars, .ofDay ⟨20005⟩)
        ∧ bars.length = 5 ∧ ∀ b ∈ bars, b.close = 1.0 := by
  have hdeclared : Cash.Declares "CASH" .ofPence "penny" "GBp" := by
    have hletters : Cash.prefixed? "CASH" (Text.upper (Text.trim "penny")) = none := by
      decide +kernel
    have hfind : (MetadataLibrary.ofPence.findCash? (Text.upper (Text.trim "penny"))).map
        (·.doc.currency) = some (some "GBp") := by decide +kernel
    obtain ⟨hit, hhit, hcurrency⟩ := Option.map_eq_some_iff.1 hfind
    exact .document (Cash.prefixed?_eq_none.1 hletters) hhit hcurrency
  have hcash : Cash.recognise? PriceHistory.ofPence.cashPrefix PriceHistory.ofPence.library "penny"
      = some ⟨"PENNY", "GBP"⟩ := Cash.recognise?_eq_some.2 ⟨_, hdeclared, by decide⟩
  have hown : ∀ wanted, some "GBP" = some wanted → Currency.same "GBP" wanted = true := by
    intro wanted hwanted
    rw [← Option.some.inj hwanted]
    decide +kernel
  have hserved := PriceHistory.history_of_own
    (r := ⟨"penny", none, ⟨⟨19996⟩, ⟨20002⟩⟩, some "GBP"⟩) hcash hown (.ofDay ⟨20005⟩)
  refine ⟨hdeclared, by decide +kernel, _, hserved, by decide, fun b hb => ?_⟩
  rw [Cash.isUnit_of_mem_bars hb]
  rfl

end DailyBars
