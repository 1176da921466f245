import DailyBars.Proofs.Instrument.Suffixes
import DailyBars.Proofs.Store.Endings

/-! # What a request for an instrument means

A ticker is read with its suffix if that is the code of a known exchange. The exchange of the
suffix comes before that of the caller, and that before the one of the document; yet whatever the
caller and the document name has to be well formed, even where it is passed over. An instrument that
results can be stored: the store accepts its key. The case of letters makes no difference.
-/

namespace DailyBars

/-- Well-formed codes are not changed by trimming, and stay well formed in upper case. -/
theorem SeriesKey.valid_of {symbol exchange : String} (hsymbol : CodeKind.ticker.WellFormed symbol)
    (hexchange : CodeKind.exchange.WellFormed exchange) : (of symbol exchange).Valid := by
  rw [valid_iff, of, CodeKind.trim_of_wellFormed hsymbol, CodeKind.trim_of_wellFormed hexchange]
  exact ⟨CodeKind.wellFormed_upper.2 hsymbol, CodeKind.wellFormed_upper.2 hexchange⟩

/-! ## Levels -/

namespace Instrument

/-- A request with what its parts name: the symbol and the exchange of the suffix, the exchange of
the caller, and the document of the symbol. -/
structure Reading (library : MetadataLibrary) (ticker : String) (exchange : Option String) where
  symbol : String
  suffix : Option String
  /-- As the caller spells it. -/
  caller : Option String
  hit : Option MetadataHit
  reads : Ticker.Reads (Text.trim ticker) symbol suffix
  named : ∀ code, caller = some code ↔
    code ≠ "" ∧ ∃ given, exchange = some given ∧ Text.trim given = code
  found : library.find? symbol = hit

variable {library : MetadataLibrary} {ticker : String} {exchange : Option String}

/-- The exchange of the caller, unless it is blank. -/
def nonblank (exchange : Option String) : Option String :=
  (exchange.map Text.trim).filter fun e => !e.isEmpty

/-- A code counts if something is left of it when it is trimmed. -/
theorem nonblank_eq_some_iff {code : String} : nonblank exchange = some code ↔
    code ≠ "" ∧ ∃ given, exchange = some given ∧ Text.trim given = code := by
  simp [nonblank, Option.filter_eq_some_iff, and_comm]

/-- Upper case makes no code blank, and no blank one count. -/
theorem map_upper_nonblank (exchange : Option String) :
    (nonblank exchange).map Text.upper = nonblank (exchange.map Text.upper) := by
  cases exchange with
  | none => rfl
  | some given =>
    simp only [nonblank, Option.map_some, Option.filter_some, Text.trim_upper, Text.isEmpty_upper]
    split <;> rfl

namespace Reading

/-- Every request is read. -/
def of (library : MetadataLibrary) (ticker : String) (exchange : Option String) :
    Reading library ticker exchange where
  symbol := (splitKnownSuffix (Text.trim ticker)).1
  suffix := (splitKnownSuffix (Text.trim ticker)).2
  caller := nonblank exchange
  hit := library.find? (splitKnownSuffix (Text.trim ticker)).1
  reads := Ticker.reads_splitKnownSuffix _
  named _ := nonblank_eq_some_iff
  found := rfl

/-- The caller's exchange is the one that is given, unless it is blank. -/
theorem caller_eq (r : Reading library ticker exchange) : r.caller = nonblank exchange := by
  ext code
  rw [r.named, nonblank_eq_some_iff]

/-- The ticker, the exchange of the caller or that of the document is malformed. -/
inductive Malformed (r : Reading library ticker exchange) : Prop
  | ticker (h : ¬ CodeKind.ticker.WellFormed (Text.trim ticker))
  | caller {code : String} (hcaller : r.caller = some code)
    (h : ¬ CodeKind.exchange.WellFormed code)
  | metadata {hit : MetadataHit} (hhit : r.hit = some hit)
    (h : ¬ CodeKind.exchange.WellFormed hit.exchange)

/-- There is no known suffix, no exchange of the caller and no document. -/
structure Unnamed (r : Reading library ticker exchange) : Prop where
  suffix : r.suffix = none
  caller : r.caller = none
  hit : r.hit = none

/-- The first exchange that is named, and where. -/
inductive First (r : Reading library ticker exchange) : String → ExchangeOrigin → Prop
  | suffix {code : String} (h : r.suffix = some code) : First r code .suffix
  | caller {code : String} (hsuffix : r.suffix = none) (h : r.caller = some code) :
    First r (Text.upper code) .caller
  | metadata {hit : MetadataHit} (hsuffix : r.suffix = none) (hcaller : r.caller = none)
    (h : r.hit = some hit) : First r hit.exchange .metadata

/-- The instrument that is meant. -/
structure Means (r : Reading library ticker exchange) (i : Instrument) : Prop where
  symbol : i.symbol = r.symbol
  first : r.First i.exchange i.origin
  metadataExchange : i.metadataExchange = r.hit.map MetadataHit.exchange
  metadata : i.metadata = r.hit.map MetadataHit.doc

section WellFormed

variable {r : Reading library ticker exchange}

/-- Where nothing is malformed, the ticker is well formed, -/
theorem wellFormed_ticker (h : ¬ r.Malformed) : CodeKind.ticker.WellFormed (Text.trim ticker) := by
  by_contra hticker
  exact h (.ticker hticker)

/-- so is the caller's exchange, -/
theorem wellFormed_caller (h : ¬ r.Malformed) {code : String} (hcaller : r.caller = some code) :
    CodeKind.exchange.WellFormed code := by
  by_contra hcode
  exact h (.caller hcaller hcode)

/-- and so is that of the document. -/
theorem wellFormed_metadata (h : ¬ r.Malformed) {hit : MetadataHit} (hhit : r.hit = some hit) :
    CodeKind.exchange.WellFormed hit.exchange := by
  by_contra hcode
  exact h (.metadata hhit hcode)

/-- The symbol is a ticker, and the exchange of its suffix is well formed. -/
theorem wellFormed_symbol (h : ¬ r.Malformed) : CodeKind.ticker.WellFormed r.symbol
    ∧ ∀ code, r.suffix = some code → CodeKind.exchange.WellFormed code :=
  r.reads.wellFormed (wellFormed_ticker h)

end WellFormed

variable (r : Reading library ticker exchange)

/-- Either nobody names an exchange or somebody is the first to. -/
theorem unnamed_or_first : r.Unnamed ∨ ∃ code origin, r.First code origin := by
  cases hsuffix : r.suffix with
  | some code => exact Or.inr ⟨code, _, .suffix hsuffix⟩
  | none =>
    cases hcaller : r.caller with
    | some code => exact Or.inr ⟨_, _, .caller hsuffix hcaller⟩
    | none =>
      cases hhit : r.hit with
      | some hit => exact Or.inr ⟨_, _, .metadata hsuffix hcaller hhit⟩
      | none => exact Or.inl ⟨hsuffix, hcaller, hhit⟩

variable {r}

/-- Without a named exchange none is chosen. -/
theorem choose?_of_unnamed (h : r.Unnamed) :
    choose? r.suffix (r.caller.map Text.upper) (r.hit.map MetadataHit.exchange) = none := by
  rw [h.suffix, h.caller, h.hit]
  rfl

/-- The first exchange that is named is chosen. -/
theorem First.choose? {code : String} {origin : ExchangeOrigin} (h : r.First code origin) :
    choose? r.suffix (r.caller.map Text.upper) (r.hit.map MetadataHit.exchange)
      = some (code, origin) := by
  cases h with
  | suffix h => rw [h]; rfl
  | caller hsuffix h => rw [hsuffix, h]; rfl
  | metadata hsuffix hcaller h => rw [hsuffix, hcaller, h]; rfl

end Reading

/-! ## Resolving -/

/-- A well-formed exchange passes its check, and so does an absent one. -/
theorem checkExchange?_of_wellFormed {e : Option String}
    (h : ∀ code, e = some code → CodeKind.exchange.WellFormed code) (symbol : String)
    (origin : ExchangeOrigin) : checkExchange? symbol origin e = .ok e := by
  cases e with
  | none => rfl
  | some code =>
    have hcheck : Exchange.check code = .ok () := CodeKind.check_of_wellFormed (h code rfl)
    simp only [checkExchange?, checkExchange, hcheck]
    rfl

/-- A malformed exchange does not pass its check. -/
theorem checkExchange?_of_malformed {code : String} (h : ¬ CodeKind.exchange.WellFormed code)
    (symbol : String) (origin : ExchangeOrigin) :
    ∃ reason, checkExchange? symbol origin (some code) = .error (.invalidSymbol symbol reason) := by
  obtain ⟨fault, hfault⟩ := CodeKind.exists_fault h
  have hcheck : Exchange.check code = .error fault := hfault
  simp only [checkExchange?, checkExchange, hcheck]
  exact ⟨_, rfl⟩

/-- A malformed ticker is given back as it was spelled. -/
theorem resolve_of_malformed_ticker (library : MetadataLibrary) (exchange : Option String)
    {fault : CodeFault} (h : CodeKind.ticker.check (Text.trim ticker) = .error fault) :
    resolve library ticker exchange
      = .error (.invalidSymbol (Text.trim ticker) fault.message) := by
  have hcheck : Ticker.check (Text.trim ticker) = .error fault := h
  unfold resolve
  simp only [hcheck]
  rfl

/-- The instrument of the exchange that was chosen. -/
def ofChoice (symbol : String) (document : Option String) (doc : Option Metadata) :
    Option (String × ExchangeOrigin) → Except DataError Instrument
  | some (exchange, origin) => .ok ⟨symbol, exchange, origin, document, doc⟩
  | none => .error (.unresolvableExchange symbol)

/-- With a well-formed ticker only what the parts of the request name counts. -/
theorem resolve_eq (r : Reading library ticker exchange)
    (h : CodeKind.ticker.WellFormed (Text.trim ticker)) :
    resolve library ticker exchange = (do
      let caller ← checkExchange? r.symbol .caller (r.caller.map Text.upper)
      let document ← checkExchange? r.symbol .metadata (r.hit.map MetadataHit.exchange)
      ofChoice r.symbol document (r.hit.map MetadataHit.doc)
        (choose? r.suffix caller document)) := by
  have hcheck : Ticker.check (Text.trim ticker) = .ok () := CodeKind.check_of_wellFormed h
  have hcaller : (exchange.map Text.trim).filter (fun e => !e.isEmpty) = r.caller :=
    r.caller_eq.symm
  unfold resolve
  simp only [hcheck, Ticker.reads_iff.1 r.reads, hcaller, r.found]
  rfl

variable {r : Reading library ticker exchange}

/-- Malformed codes are refused. -/
theorem resolve_of_malformed (h : r.Malformed) :
    ∃ symbol reason, resolve library ticker exchange = .error (.invalidSymbol symbol reason) := by
  by_cases hticker : CodeKind.ticker.WellFormed (Text.trim ticker)
  · rw [resolve_eq r hticker]
    by_cases hcaller : ∀ code, r.caller.map Text.upper = some code →
        CodeKind.exchange.WellFormed code
    · -- the exchange of the caller passes, so it is that of the document which does not
      rw [checkExchange?_of_wellFormed hcaller]
      cases h with
      | ticker h => exact absurd hticker h
      | @caller code hcode h =>
        refine absurd (CodeKind.wellFormed_upper.1 (hcaller (Text.upper code) ?_)) h
        rw [hcode, Option.map_some]
      | metadata hhit h =>
        obtain ⟨reason, herror⟩ := checkExchange?_of_malformed h r.symbol .metadata
        rw [hhit, Option.map_some, herror]
        exact ⟨r.symbol, reason, rfl⟩
    · obtain ⟨code, hcode, hmalformed⟩ : ∃ code, r.caller.map Text.upper = some code
          ∧ ¬ CodeKind.exchange.WellFormed code := by
        simpa only [not_forall, exists_prop] using hcaller
      obtain ⟨reason, herror⟩ := checkExchange?_of_malformed hmalformed r.symbol .caller
      rw [hcode, herror]
      exact ⟨r.symbol, reason, rfl⟩
  · obtain ⟨fault, hfault⟩ := CodeKind.exists_fault hticker
    exact ⟨_, _, resolve_of_malformed_ticker library exchange hfault⟩

/-- When nothing is malformed the first exchange decides. -/
theorem resolve_of_not_malformed (h : ¬ r.Malformed) :
    resolve library ticker exchange
      = ofChoice r.symbol (r.hit.map MetadataHit.exchange) (r.hit.map MetadataHit.doc)
          (choose? r.suffix (r.caller.map Text.upper) (r.hit.map MetadataHit.exchange)) := by
  have hcaller : ∀ code, r.caller.map Text.upper = some code →
      CodeKind.exchange.WellFormed code := by
    intro code hcode
    obtain ⟨given, hgiven, rfl⟩ := Option.map_eq_some_iff.1 hcode
    exact CodeKind.wellFormed_upper.2 (Reading.wellFormed_caller h hgiven)
  have hdocument : ∀ code, r.hit.map MetadataHit.exchange = some code →
      CodeKind.exchange.WellFormed code := by
    intro code hcode
    obtain ⟨hit, hhit, rfl⟩ := Option.map_eq_some_iff.1 hcode
    exact Reading.wellFormed_metadata h hhit
  rw [resolve_eq r (Reading.wellFormed_ticker h), checkExchange?_of_wellFormed hcaller,
    checkExchange?_of_wellFormed hdocument]
  simp only [bind, Except.bind]

/-- Without a named exchange there is no instrument. -/
theorem resolve_of_unnamed (h : ¬ r.Malformed) (hunnamed : r.Unnamed) :
    resolve library ticker exchange = .error (.unresolvableExchange r.symbol) := by
  rw [resolve_of_not_malformed h, Reading.choose?_of_unnamed hunnamed, ofChoice]

/-- Otherwise the instrument is the one that is meant. -/
theorem resolve_of_means (h : ¬ r.Malformed) {i : Instrument} (hmeans : r.Means i) :
    resolve library ticker exchange = .ok i := by
  rw [resolve_of_not_malformed h, hmeans.first.choose?, ofChoice, ← hmeans.symbol,
    ← hmeans.metadataExchange, ← hmeans.metadata]

/-- What comes of a request, level by level. -/
structure Precedence (r : Reading library ticker exchange) (result : Except DataError Instrument) :
    Prop where
  invalid : (∃ symbol reason, result = .error (.invalidSymbol symbol reason)) ↔ r.Malformed
  unresolvable : (∃ symbol, result = .error (.unresolvableExchange symbol))
    ↔ ¬ r.Malformed ∧ r.Unnamed
  resolved : (∃ i, result = .ok i) ↔ ¬ r.Malformed ∧ ¬ r.Unnamed
  meant : ∀ i, result = .ok i → r.Means i

/-- However a request is read, it is resolved by precedence. -/
theorem precedence (r : Reading library ticker exchange) :
    Precedence r (resolve library ticker exchange) := by
  by_cases hmalformed : r.Malformed
  · obtain ⟨symbol, reason, herror⟩ := resolve_of_malformed hmalformed
    rw [herror]
    exact {
      invalid := ⟨fun _ => hmalformed, fun _ => ⟨symbol, reason, rfl⟩⟩
      unresolvable := by simp [hmalformed]
      resolved := by simp [hmalformed]
      meant := by rintro i ⟨⟩ }
  · by_cases hunnamed : r.Unnamed
    · rw [resolve_of_unnamed hmalformed hunnamed]
      exact {
        invalid := by simp [hmalformed]
        unresolvable := ⟨fun _ => ⟨hmalformed, hunnamed⟩, fun _ => ⟨r.symbol, rfl⟩⟩
        resolved := by simp [hunnamed]
        meant := by rintro i ⟨⟩ }
    · obtain ⟨code, origin, hfirst⟩ := r.unnamed_or_first.resolve_left hunnamed
      have hmeans : r.Means ⟨r.symbol, code, origin, r.hit.map MetadataHit.exchange,
          r.hit.map MetadataHit.doc⟩ := ⟨rfl, hfirst, rfl, rfl⟩
      rw [resolve_of_means hmalformed hmeans]
      exact {
        invalid := by simp [hmalformed]
        unresolvable := by simp [hunnamed]
        resolved := ⟨fun _ => ⟨hmalformed, hunnamed⟩, fun _ => ⟨_, rfl⟩⟩
        meant := by
          rintro i ⟨⟩
          exact hmeans }

/-! ## Storing -/

/-- The store has a place for the instrument, and does not refuse it. -/
structure Storable (i : Instrument) : Prop where
  exchange : Exchange.IsCode i.exchange
  storedExchange : Exchange.IsCode i.storedExchange
  symbol : CodeKind.ticker.WellFormed i.symbol
  accepted : ∀ {σ ω : Type} (store : RollingStore σ ω) (w : Window) (s : StoreState σ ω)
    (symbol reason : String),
    (store.load i.symbol i.storedExchange w s).1 ≠ .error (.invalidSymbol symbol reason)

/-- The exchange that counts is well formed. -/
theorem Reading.First.wellFormed {code : String} {origin : ExchangeOrigin}
    (h : r.First code origin) (hmalformed : ¬ r.Malformed) :
    CodeKind.exchange.WellFormed code := by
  cases h with
  | suffix h => exact (Reading.wellFormed_symbol hmalformed).2 code h
  | caller hsuffix h =>
    exact CodeKind.wellFormed_upper.2 (Reading.wellFormed_caller hmalformed h)
  | metadata hsuffix hcaller h => exact Reading.wellFormed_metadata hmalformed h

/-- The exchange of the stored series is well formed. -/
theorem Reading.Means.wellFormed_storedExchange {i : Instrument} (h : r.Means i)
    (hmalformed : ¬ r.Malformed) : CodeKind.exchange.WellFormed i.storedExchange := by
  rw [storedExchange, h.metadataExchange]
  cases hhit : r.hit with
  | none => exact h.first.wellFormed hmalformed
  | some hit => exact Reading.wellFormed_metadata hmalformed hhit

/-- What an instrument means can be stored. -/
theorem Reading.Means.storable {i : Instrument} (h : r.Means i) (hmalformed : ¬ r.Malformed) :
    Storable i := by
  have hstored := h.wellFormed_storedExchange hmalformed
  have hsymbol : CodeKind.ticker.WellFormed i.symbol := by
    rw [h.symbol]
    exact (Reading.wellFormed_symbol hmalformed).1
  refine ⟨Exchange.isCode_of_wellFormed (h.first.wellFormed hmalformed),
    Exchange.isCode_of_wellFormed hstored, hsymbol, fun store w s symbol reason hend => ?_⟩
  have hload : FailsOnly (fun e => ∀ symbol reason, e ≠ .invalidSymbol symbol reason)
      (store.load i.symbol i.storedExchange w) :=
    store.failsOnly_load (fun _ => nofun) nofun (fun _ _ => nofun)
      (SeriesKey.valid_of hsymbol hstored) w
  exact hload s _ hend symbol reason rfl

/-! ## Spelling -/

/-- The results of two spellings of a ticker: the same one, but that a malformed ticker is given
back as it was spelled. -/
inductive SameResult (ticker other : String) :
    Except DataError Instrument → Except DataError Instrument → Prop
  | same (result : Except DataError Instrument) : SameResult ticker other result result
  | echoed (reason : String) (h : ¬ CodeKind.ticker.WellFormed (Text.trim ticker)) :
    SameResult ticker other (.error (.invalidSymbol (Text.trim ticker) reason))
      (.error (.invalidSymbol (Text.trim other) reason))

variable {ticker' : String} {exchange' : Option String}

/-- Trimming does not look at letter case. -/
theorem upper_trim_congr (h : Text.upper ticker' = Text.upper ticker) :
    Text.upper (Text.trim ticker') = Text.upper (Text.trim ticker) := by
  rw [← Text.trim_upper, h, Text.trim_upper]

/-- Other spellings name the same. -/
theorem Reading.respelled (r : Reading library ticker exchange)
    (r' : Reading library ticker' exchange') (hticker : Text.upper ticker' = Text.upper ticker)
    (hexchange : exchange'.map Text.upper = exchange.map Text.upper) :
    r'.symbol = r.symbol ∧ r'.suffix = r.suffix
      ∧ r'.caller.map Text.upper = r.caller.map Text.upper ∧ r'.hit = r.hit := by
  obtain ⟨hsymbol, hsuffix⟩ :=
    r'.reads.unique (r.reads.respelled (upper_trim_congr hticker))
  refine ⟨hsymbol, hsuffix, ?_, ?_⟩
  · rw [r'.caller_eq, r.caller_eq, map_upper_nonblank, map_upper_nonblank, hexchange]
  · rw [← r'.found, hsymbol, r.found]

/-- Codes in other letters resolve to the same instrument. -/
theorem resolve_respelled (library : MetadataLibrary)
    (hticker : Text.upper ticker' = Text.upper ticker)
    (hexchange : exchange'.map Text.upper = exchange.map Text.upper) :
    SameResult ticker ticker' (resolve library ticker exchange)
      (resolve library ticker' exchange') := by
  have hcheck : CodeKind.ticker.check (Text.trim ticker')
      = CodeKind.ticker.check (Text.trim ticker) := by
    rw [← CodeKind.check_upper, upper_trim_congr hticker, CodeKind.check_upper]
  by_cases hwell : CodeKind.ticker.WellFormed (Text.trim ticker)
  · obtain ⟨hsymbol, hsuffix, hcaller, hhit⟩ := (Reading.of library ticker exchange).respelled
      (Reading.of library ticker' exchange') hticker hexchange
    have hwell' : CodeKind.ticker.WellFormed (Text.trim ticker') := by
      rwa [← CodeKind.check_eq_ok_iff, hcheck, CodeKind.check_eq_ok_iff]
    rw [resolve_eq (Reading.of library ticker' exchange') hwell', hsymbol, hsuffix, hcaller, hhit,
      ← resolve_eq (Reading.of library ticker exchange) hwell]
    exact .same _
  · obtain ⟨fault, hfault⟩ := CodeKind.exists_fault hwell
    rw [resolve_of_malformed_ticker library exchange hfault,
      resolve_of_malformed_ticker library exchange' (hcheck.trans hfault)]
    exact .echoed _ hwell

/-- Resolving follows the order of precedence, yields only what can be stored, and does not depend
on the case of letters. -/
theorem resolution_follows_precedence (r : Reading library ticker exchange) :
    Precedence r (resolve library ticker exchange)
      ∧ (∀ i, resolve library ticker exchange = .ok i → i.Storable)
      ∧ ∀ ticker' exchange', Text.upper ticker' = Text.upper ticker →
          exchange'.map Text.upper = exchange.map Text.upper →
          SameResult ticker ticker' (resolve library ticker exchange)
            (resolve library ticker' exchange') := by
  have hprecedence := precedence r
  refine ⟨hprecedence, fun i hi => ?_, fun _ _ => resolve_respelled library⟩
  exact (hprecedence.meant i hi).storable (hprecedence.resolved.1 ⟨i, hi⟩).1

/-- A suffix comes before the exchange of the caller, which is refused all the same when it is
malformed. -/
theorem resolution_follows_precedence_of_suffix :
    (∃ i, resolve {} " vod.l" (some "nyse") = .ok i ∧ i.symbol = "VOD" ∧ i.exchange = "L"
        ∧ i.origin = .suffix ∧ i.Storable)
      ∧ ∃ symbol reason,
        resolve {} " vod.l" (some "n/a") = .error (.invalidSymbol symbol reason) := by
  have hresolved : resolve {} " vod.l" (some "nyse") = .ok ⟨"VOD", "L", .suffix, none, none⟩ := by
    cbv
  obtain ⟨-, hstorable, -⟩ :=
    resolution_follows_precedence (Reading.of {} " vod.l" (some "nyse"))
  obtain ⟨hprecedence, -, -⟩ :=
    resolution_follows_precedence (Reading.of {} " vod.l" (some "n/a"))
  refine ⟨⟨_, hresolved, rfl, rfl, rfl, hstorable _ hresolved⟩, hprecedence.invalid.2 ?_⟩
  have hcaller : (Reading.of {} " vod.l" (some "n/a")).caller = some "n/a" := by
    decide
  exact .caller hcaller fun hwell => absurd (hwell.allowed '/' (by decide)) (by decide)

end Instrument
end DailyBars
