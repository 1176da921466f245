import DailyBars.Merge.Scaling
import DailyBars.Proofs.Tables
import DailyBars.Proofs.Rows
import DailyBars.Proofs.Text.Letters

/-! # Price factors in every order of a document

A decoded document is gone through in any order. Exchanges and tickers are folded on the way, so
of several spellings of an exchange one table of tickers is kept, and of several spellings of a
ticker one factor. Only what is kept is checked, and only what is kept is served. So whether a
document is accepted, and which factors it gives, is settled by the order wherever spellings meet,
and by nothing but the document where none do.
-/

namespace DailyBars.Scaling

variable {document order : List (String × List (String × Float))} {factors : List (String × Float)}

/-! ## One order -/

/-- All factors that are kept of an exchange are factors. -/
def Kept (factors : List (String × Float)) : Prop :=
  ∀ name x, Text.lastFolded? name factors = some x → isFactor x = true

/-- No factor is refused just if all are kept. -/
theorem find?_tickersOf_eq_none :
    (tickersOf factors).find? (fun f => !isFactor f.2) = none ↔ Kept factors := by
  have htickers : tickersOf factors = Json.foldNames (fun x => x) factors := rfl
  rw [htickers, List.find?_eq_none]
  constructor
  · intro h name x hlast
    have hmem : (name, x) ∈ Json.foldNames (fun x => x) factors :=
      Json.mem_foldNames.2 ⟨x, hlast, rfl⟩
    simpa using h (name, x) hmem
  · intro h f hf
    obtain ⟨x, hlast, rfl⟩ := Json.mem_foldNames.1 hf
    simpa using h f.1 f.2 hlast

/-- The tables of tickers are written one after the other, each of them checked before. -/
theorem foldlM_tickersOf_eq_ok_iff {table result : List (String × List (String × Float))} :
    order.foldlM (fun table (e : String × List (String × Float)) =>
        match (tickersOf e.2).find? fun f => !isFactor f.2 with
        | some (ticker, factor) => Except.error (MetadataFault.scalingFactor e.1 ticker factor)
        | none => Except.ok (Json.assign (Text.upper e.1) (tickersOf e.2) table)) table = .ok result
      ↔ (∀ e ∈ order, Kept e.2) ∧ result = order.foldl
        (fun table e => Json.assign (Text.upper e.1) (tickersOf e.2) table) table := by
  induction order generalizing table with
  | nil =>
    exact ⟨fun h => ⟨fun _ he => absurd he List.not_mem_nil, (Except.ok.inj h).symm⟩,
      fun h => by rw [h.2]; rfl⟩
  | cons e rest ih =>
    rw [List.foldlM_cons, List.forall_mem_cons, List.foldl_cons]
    cases hfind : (tickersOf e.2).find? fun f => !isFactor f.2 with
    | none =>
      rw [and_assoc, ← ih, and_iff_right (find?_tickersOf_eq_none.1 hfind)]
      rfl
    | some f =>
      have hkept : ¬ Kept e.2 := by
        intro h
        rw [find?_tickersOf_eq_none.2 h] at hfind
        cases hfind
      exact ⟨fun h => (by cases h), fun h => absurd h.1.1 hkept⟩

/-- An order is accepted if the factors that it keeps are factors, and is made into the table of
these. -/
theorem ofDocument_eq_ok_iff {s : Scaling} : ofDocument order = .ok s
    ↔ (∀ e ∈ order, Kept e.2) ∧ s = ⟨Json.foldNames tickersOf order⟩ := by
  constructor
  · intro h
    obtain ⟨exchanges, hexchanges, hs⟩ := exists_of_bind_eq_ok h
    cases hs
    obtain ⟨hkept, rfl⟩ := foldlM_tickersOf_eq_ok_iff.1 hexchanges
    exact ⟨hkept, rfl⟩
  · rintro ⟨hkept, rfl⟩
    exact congrArg (· >>= fun exchanges => pure (Scaling.mk exchanges))
      (foldlM_tickersOf_eq_ok_iff.2 ⟨hkept, rfl⟩)

/-- The factor is looked up in the last spelling of the exchange, under the last spelling of the
ticker. -/
theorem factor?_foldNames (exchange symbol : String) :
    (Scaling.mk (Json.foldNames tickersOf order)).factor? exchange symbol
      = (Text.lastFolded? (Text.upper exchange) order).bind fun factors =>
        (Text.lastFolded? (Text.upper symbol) factors).or (Text.lastFolded? wildcard factors) := by
  have htickers : ∀ factors name,
      (tickersOf factors).lookup name = Text.lastFolded? name factors := by
    intro factors name
    exact (Json.lookup_foldNames (fun x => x) factors name).trans Option.map_id'
  rw [factor?, Json.lookup_foldNames, Option.bind_map]
  simp only [Function.comp_def, htickers]

/-! ## All orders -/

/-- The document with its exchanges in another order, and with the tickers of each in another
order. -/
def Orders (document order : List (String × List (String × Float))) : Prop :=
  Reordered List.Perm document order

/-- The order is made into a table. -/
def Accepts (order : List (String × List (String × Float))) : Prop :=
  ∃ s, ofDocument order = .ok s

/-- Every entry of the document is a factor. -/
def AllFactors (document : List (String × List (String × Float))) : Prop :=
  ∀ e ∈ document, ∀ f ∈ e.2, isFactor f.2 = true

/-- Every ticker of an exchange has a factor in some spelling. -/
def Mendable (factors : List (String × Float)) : Prop :=
  ∀ f ∈ factors, ∃ g ∈ factors, Text.upper g.1 = Text.upper f.1 ∧ isFactor g.2 = true

/-- Every ticker of every exchange has a factor in some spelling. -/
def SomeFactors (document : List (String × List (String × Float))) : Prop :=
  ∀ e ∈ document, Mendable e.2

/-- An order is accepted just if all its factors are kept. -/
theorem accepts_iff : Accepts order ↔ ∀ e ∈ order, Kept e.2 := by
  simp only [Accepts, ofDocument_eq_ok_iff, exists_and_left, exists_eq, and_true]

/-- With those entries last that are factors, one of them is kept of every ticker that has one. -/
theorem kept_of_factors_last (h : Mendable factors) {good : List (String × Float)}
    (hgood : (factors.filter fun f => isFactor f.2).Perm good) :
    factors.Perm (factors.filter (fun f => !isFactor f.2) ++ good)
      ∧ Kept (factors.filter (fun f => !isFactor f.2) ++ good) := by
  constructor
  · have hsplit := List.filter_append_perm (fun f : String × Float => !isFactor f.2) factors
    simp only [Bool.not_not] at hsplit
    exact hsplit.symm.trans (hgood.append_left _)
  · intro name x hlast
    rw [Text.lastFolded?_append] at hlast
    cases hkept : Text.lastFolded? name good with
    | some y =>
      rw [hkept, Option.some_or, Option.some.injEq] at hlast
      obtain ⟨f, hf, -, rfl⟩ := Text.exists_of_lastFolded? hkept
      rw [← hlast]
      exact (List.mem_filter.1 (hgood.mem_iff.2 hf)).2
    | none =>
      rw [hkept, Option.none_or] at hlast
      obtain ⟨f, hf, rfl, -⟩ := Text.exists_of_lastFolded? hlast
      obtain ⟨g, hg, hname, hfactor⟩ := h f (List.mem_filter.1 hf).1
      have hmem := hgood.mem_iff.1 (List.mem_filter.2 ⟨hg, hfactor⟩)
      exact absurd hname (Text.lastFolded?_eq_none.1 hkept g hmem)

/-- Any factor may be the one that is kept of its ticker. -/
theorem exists_kept_of_factor (h : Mendable factors) {f : String × Float} (hf : f ∈ factors)
    (hfactor : isFactor f.2 = true) : ∃ order, factors.Perm order ∧ Kept order
      ∧ Text.lastFolded? (Text.upper f.1) order = some f.2 := by
  have hmem : f ∈ factors.filter fun f => isFactor f.2 := List.mem_filter.2 ⟨hf, hfactor⟩
  obtain ⟨good, hgood, hlast⟩ := Text.exists_perm_lastFolded? hmem
  obtain ⟨hperm, hkept⟩ := kept_of_factors_last h hgood
  refine ⟨_, hperm, hkept, ?_⟩
  rw [Text.lastFolded?_append, hlast, Option.some_or]

/-- An order of the entries in which a factor is kept of every ticker that has one. -/
def factorsLast (factors : List (String × Float)) : List (String × Float) :=
  factors.filter (fun f => !isFactor f.2) ++ factors.filter fun f => isFactor f.2

/-- An order of a document whose last entry is this one is accepted, with the other exchanges
brought in order. -/
theorem exists_accepted (h : SomeFactors document) {e : String × List (String × Float)}
    (he : e ∈ document) {kept : List (String × Float)} (hperm : e.2.Perm kept)
    (hkept : Kept kept) : ∃ order, Orders document order ∧ Accepts order
      ∧ Text.lastFolded? (Text.upper e.1) order = some kept := by
  obtain ⟨rest, hrest, horder⟩ := Reordered.exists_last (g := factorsLast)
    (fun x hx => (kept_of_factors_last (h x hx) (.refl _)).1) he hperm
  refine ⟨_, horder, accepts_iff.2 fun x hx => ?_, ?_⟩
  · rcases List.mem_append.1 hx with hx | hx
    · obtain ⟨y, hy, rfl⟩ := List.mem_map.1 hx
      exact (kept_of_factors_last (h y (hrest y hy)) (.refl _)).2
    · rw [List.mem_singleton.1 hx]
      exact hkept
  · rw [Text.lastFolded?_concat, if_pos rfl]

/-- A document with factors has an order that is accepted. -/
theorem accepts_factorsLast (h : SomeFactors document) :
    Orders document (document.map fun e => (e.1, factorsLast e.2))
      ∧ Accepts (document.map fun e => (e.1, factorsLast e.2)) := by
  have hkept := fun e he => kept_of_factors_last (h e he) (.refl _)
  refine ⟨Reordered.map fun e he => (hkept e he).1, accepts_iff.2 fun x hx => ?_⟩
  obtain ⟨e, he, rfl⟩ := List.mem_map.1 hx
  exact (hkept e he).2

/-! ## The verdict -/

/-- Every order is accepted if every entry is a factor. Otherwise an entry that is none may be the
one that is kept. -/
theorem all_accepted_iff :
    (∀ order, Orders document order → Accepts order) ↔ AllFactors document := by
  constructor
  · intro h e he f hf
    obtain ⟨factors, hperm, hlast⟩ := Text.exists_perm_lastFolded? hf
    obtain ⟨rest, -, horder⟩ := Reordered.exists_last (R := List.Perm) (g := fun fs => fs)
      (fun x _ => .refl x.2) he hperm
    refine accepts_iff.1 (h _ horder) (e.1, factors) ?_ (Text.upper f.1) f.2 hlast
    exact List.mem_append_right _ (List.mem_singleton_self _)
  · intro h order horder
    refine accepts_iff.2 fun e' he' name x hlast => ?_
    obtain ⟨e, he, -, hperm⟩ := horder.of_mem_order he'
    obtain ⟨f, hf, -, rfl⟩ := Text.exists_of_lastFolded? hlast
    exact h e he f (hperm.mem_iff.2 hf)

/-- Some order is accepted if every ticker has a factor in some spelling. -/
theorem exists_accepted_iff :
    (∃ order, Orders document order ∧ Accepts order) ↔ SomeFactors document := by
  constructor
  · rintro ⟨order, horder, haccepts⟩ e he f hf
    obtain ⟨e', he', -, hperm⟩ := horder.of_mem he
    obtain ⟨x, hlast⟩ := Text.exists_lastFolded? (hperm.mem_iff.1 hf)
    have hfactor := accepts_iff.1 haccepts e' he' _ x hlast
    obtain ⟨g, hg, hname, rfl⟩ := Text.exists_of_lastFolded? hlast
    exact ⟨g, hperm.mem_iff.2 hg, hname, hfactor⟩
  · exact fun h => ⟨_, accepts_factorsLast h⟩

/-- All orders are accepted or none is, just if every entry is a factor or some ticker has none. -/
theorem same_verdict_iff : (∀ order order', Orders document order → Orders document order' →
      (Accepts order ↔ Accepts order')) ↔ AllFactors document ∨ ¬ SomeFactors document := by
  rw [← all_accepted_iff, ← exists_accepted_iff]
  constructor
  · intro h
    by_cases hsome : ∃ order, Orders document order ∧ Accepts order
    · obtain ⟨order, horder, haccepts⟩ := hsome
      exact Or.inl fun order' horder' => (h order order' horder horder').1 haccepts
    · exact Or.inr hsome
  · rintro (hall | hnone) order order' horder horder'
    · exact iff_of_true (hall order horder) (hall order' horder')
    · exact iff_of_false (fun h => hnone ⟨order, horder, h⟩) fun h => hnone ⟨order', horder', h⟩

/-! ## The factors -/

/-- What a document may give for a ticker of an exchange: it is looked up in one spelling of the
exchange, under one spelling of the ticker or else under the wildcard. -/
inductive Served (document : List (String × List (String × Float))) (exchange symbol : String) :
    Option Float → Prop
  | unlisted (absent : ∀ e ∈ document, Text.upper e.1 ≠ Text.upper exchange) :
    Served document exchange symbol none
  | own {e : String × List (String × Float)} {f : String × Float} (listed : e ∈ document)
    (spelled : Text.upper e.1 = Text.upper exchange) (mem : f ∈ e.2)
    (ticker : Text.upper f.1 = Text.upper symbol) (factor : isFactor f.2 = true) :
    Served document exchange symbol (some f.2)
  | others {e : String × List (String × Float)} {f : String × Float} (listed : e ∈ document)
    (spelled : Text.upper e.1 = Text.upper exchange)
    (absent : ∀ g ∈ e.2, Text.upper g.1 ≠ Text.upper symbol) (mem : f ∈ e.2)
    (ticker : Text.upper f.1 = wildcard) (factor : isFactor f.2 = true) :
    Served document exchange symbol (some f.2)
  | nothing {e : String × List (String × Float)} (listed : e ∈ document)
    (spelled : Text.upper e.1 = Text.upper exchange)
    (absent : ∀ g ∈ e.2, Text.upper g.1 ≠ Text.upper symbol ∧ Text.upper g.1 ≠ wildcard) :
    Served document exchange symbol none

/-- What an accepted order gives. -/
theorem served_of_order (horder : Orders document order) {s : Scaling}
    (hs : ofDocument order = .ok s) (exchange symbol : String) :
    Served document exchange symbol (s.factor? exchange symbol) := by
  obtain ⟨hkept, rfl⟩ := ofDocument_eq_ok_iff.1 hs
  rw [factor?_foldNames]
  cases hexchange : Text.lastFolded? (Text.upper exchange) order with
  | none =>
    refine .unlisted fun e he hname => ?_
    obtain ⟨e', he', hsame, -⟩ := horder.of_mem he
    rw [hsame] at hname
    exact Text.lastFolded?_eq_none.1 hexchange e' he' hname
  | some factors =>
    obtain ⟨e', he', hspelled, rfl⟩ := Text.exists_of_lastFolded? hexchange
    obtain ⟨e, he, hsame, hperm⟩ := horder.of_mem_order he'
    rw [← hsame] at hspelled
    have habsent : ∀ {name}, Text.lastFolded? name e'.2 = none →
        ∀ g ∈ e.2, Text.upper g.1 ≠ name :=
      fun hnone g hg => Text.lastFolded?_eq_none.1 hnone g (hperm.mem_iff.1 hg)
    rw [Option.bind_some]
    cases hown : Text.lastFolded? (Text.upper symbol) e'.2 with
    | some x =>
      have hfactor := hkept e' he' _ x hown
      obtain ⟨f, hf, hticker, rfl⟩ := Text.exists_of_lastFolded? hown
      exact .own he hspelled (hperm.mem_iff.2 hf) hticker hfactor
    | none =>
      rw [Option.none_or]
      cases hothers : Text.lastFolded? wildcard e'.2 with
      | some x =>
        have hfactor := hkept e' he' _ x hothers
        obtain ⟨f, hf, hticker, rfl⟩ := Text.exists_of_lastFolded? hothers
        exact .others he hspelled (habsent hown) (hperm.mem_iff.2 hf) hticker hfactor
      | none => exact .nothing he hspelled fun g hg => ⟨habsent hown g hg, habsent hothers g hg⟩

/-- Whatever may be given is given by some order. -/
theorem exists_order_of_served (h : SomeFactors document) {exchange symbol : String}
    {r : Option Float} (hr : Served document exchange symbol r) :
    ∃ order s, Orders document order ∧ ofDocument order = .ok s
      ∧ s.factor? exchange symbol = r := by
  have hgives : ∀ {e kept}, e ∈ document → Text.upper e.1 = Text.upper exchange →
      e.2.Perm kept → Kept kept →
      (Text.lastFolded? (Text.upper symbol) kept).or (Text.lastFolded? wildcard kept) = r →
      ∃ order s, Orders document order ∧ ofDocument order = .ok s
        ∧ s.factor? exchange symbol = r := by
    intro e kept he hspelled hperm hkept hlooked
    obtain ⟨order, horder, ⟨s, hs⟩, hlast⟩ := exists_accepted h he hperm hkept
    refine ⟨order, s, horder, hs, ?_⟩
    obtain ⟨-, rfl⟩ := ofDocument_eq_ok_iff.1 hs
    rw [factor?_foldNames, ← hspelled, hlast, Option.bind_some, hlooked]
  have hnone : ∀ {factors kept : List (String × Float)} {name}, factors.Perm kept →
      (∀ g ∈ factors, Text.upper g.1 ≠ name) → Text.lastFolded? name kept = none :=
    fun hperm habsent => Text.lastFolded?_eq_none.2 fun g hg => habsent g (hperm.mem_iff.2 hg)
  cases hr with
  | unlisted absent =>
    obtain ⟨horder, s, hs⟩ := accepts_factorsLast h
    refine ⟨_, s, horder, hs, ?_⟩
    obtain ⟨-, rfl⟩ := ofDocument_eq_ok_iff.1 hs
    rw [factor?_foldNames, Text.lastFolded?_eq_none.2 fun x hx => ?_, Option.bind_none]
    obtain ⟨e, he, rfl⟩ := List.mem_map.1 hx
    exact absent e he
  | own listed spelled mem ticker factor =>
    obtain ⟨kept, hperm, hkept, hlast⟩ := exists_kept_of_factor (h _ listed) mem factor
    refine hgives listed spelled hperm hkept ?_
    rw [← ticker, hlast, Option.some_or]
  | others listed spelled absent mem ticker factor =>
    obtain ⟨kept, hperm, hkept, hlast⟩ := exists_kept_of_factor (h _ listed) mem factor
    refine hgives listed spelled hperm hkept ?_
    rw [hnone hperm absent, Option.none_or, ← ticker, hlast]
  | nothing listed spelled absent =>
    obtain ⟨hperm, hkept⟩ := kept_of_factors_last (h _ listed) (.refl _)
    refine hgives listed spelled hperm hkept ?_
    rw [hnone hperm fun g hg => (absent g hg).1, hnone hperm fun g hg => (absent g hg).2]
    rfl

/-! ## What order comes to -/

/-- No two exchanges have one name in upper case, nor have two tickers of an exchange. -/
def OneSpelling (document : List (String × List (String × Float))) : Prop :=
  (∀ e ∈ document, ∀ e' ∈ document, Text.upper e.1 = Text.upper e'.1 → e = e')
    ∧ ∀ e ∈ document, ∀ f ∈ e.2, ∀ f' ∈ e.2, Text.upper f.1 = Text.upper f'.1 → f = f'

/-- With one spelling of each name the factor is that of the document as it stands. -/
theorem eq_of_served (h : OneSpelling document) {exchange symbol : String} {r : Option Float}
    (hr : Served document exchange symbol r) :
    r = (Text.lastFolded? (Text.upper exchange) document).bind fun factors =>
      (Text.lastFolded? (Text.upper symbol) factors).or (Text.lastFolded? wildcard factors) := by
  obtain ⟨hexchanges, htickers⟩ := h
  have hlast : ∀ {e : String × List (String × Float)}, e ∈ document →
      Text.upper e.1 = Text.upper exchange →
      Text.lastFolded? (Text.upper exchange) document = some e.2 := by
    intro e he hspelled
    rw [← hspelled]
    exact Text.lastFolded?_of_unique he fun e' he' => hexchanges e' he' e he
  have hkept : ∀ {e : String × List (String × Float)} {f : String × Float} {name}, e ∈ document →
      f ∈ e.2 → Text.upper f.1 = name → Text.lastFolded? name e.2 = some f.2 := by
    rintro e f name he hf rfl
    exact Text.lastFolded?_of_unique hf fun f' hf' => htickers e he f' hf' f hf
  cases hr with
  | unlisted absent => rw [Text.lastFolded?_eq_none.2 absent, Option.bind_none]
  | own listed spelled mem ticker =>
    rw [hlast listed spelled, Option.bind_some, hkept listed mem ticker, Option.some_or]
  | others listed spelled absent mem ticker =>
    rw [hlast listed spelled, Option.bind_some, Text.lastFolded?_eq_none.2 absent, Option.none_or,
      hkept listed mem ticker]
  | nothing listed spelled absent =>
    rw [hlast listed spelled, Option.bind_some,
      Text.lastFolded?_eq_none.2 fun g hg => (absent g hg).1,
      Text.lastFolded?_eq_none.2 fun g hg => (absent g hg).2, Option.none_or]

/-- What comes of the orders of a document. -/
structure OverOrders (document : List (String × List (String × Float))) : Prop where
  /-- All orders are accepted or none is, just if every entry is a factor or some ticker of an
  exchange has none in any spelling. -/
  verdict : (∀ order order', Orders document order → Orders document order' →
    (Accepts order ↔ Accepts order')) ↔ AllFactors document ∨ ¬ SomeFactors document
  /-- Where some order is accepted, the factors that the orders give are those that are looked up in
  any one spelling. -/
  given : ∀ exchange symbol r, (∃ order s, Orders document order ∧ ofDocument order = .ok s
    ∧ s.factor? exchange symbol = r) ↔ SomeFactors document ∧ Served document exchange symbol r
  /-- So a factor is the same in all orders just if all spellings lead to the same, -/
  same : ∀ exchange symbol, (∀ order order' s s', Orders document order → Orders document order' →
      ofDocument order = .ok s → ofDocument order' = .ok s' →
      s.factor? exchange symbol = s'.factor? exchange symbol)
    ↔ (SomeFactors document → ∀ r r', Served document exchange symbol r →
      Served document exchange symbol r' → r = r')
  /-- which is so if each name has one spelling. -/
  spelled_once : OneSpelling document → ∀ exchange symbol r r',
    Served document exchange symbol r → Served document exchange symbol r' → r = r'
  /-- A ticker that every spelling of the exchange lists has a factor of its own. -/
  own : ∀ order s exchange symbol, Orders document order → ofDocument order = .ok s →
    (∃ e ∈ document, Text.upper e.1 = Text.upper exchange) →
    (∀ e ∈ document, Text.upper e.1 = Text.upper exchange →
      ∃ f ∈ e.2, Text.upper f.1 = Text.upper symbol) →
    ∃ e ∈ document, Text.upper e.1 = Text.upper exchange
      ∧ ∃ f ∈ e.2, Text.upper f.1 = Text.upper symbol ∧ s.factor? exchange symbol = some f.2
  /-- Exchanges and tickers are asked for in any case. -/
  any_case : ∀ (s : Scaling) exchange exchange' symbol symbol',
    Text.sameLetters exchange exchange' = true → Text.sameLetters symbol symbol' = true →
    s.factor? exchange symbol = s.factor? exchange' symbol'

/-- **What becomes of a document** over all orders of its entries. -/
theorem overOrders (document : List (String × List (String × Float))) : OverOrders document where
  verdict := same_verdict_iff
  given exchange symbol r := by
    constructor
    · rintro ⟨order, s, horder, hs, rfl⟩
      exact ⟨exists_accepted_iff.1 ⟨order, horder, s, hs⟩,
        served_of_order horder hs exchange symbol⟩
    · rintro ⟨hsome, hserved⟩
      exact exists_order_of_served hsome hserved
  same exchange symbol := by
    constructor
    · intro h hsome r r' hr hr'
      obtain ⟨order, s, horder, hs, rfl⟩ := exists_order_of_served hsome hr
      obtain ⟨order', s', horder', hs', rfl⟩ := exists_order_of_served hsome hr'
      exact h order order' s s' horder horder' hs hs'
    · intro h order order' s s' horder horder' hs hs'
      exact h (exists_accepted_iff.1 ⟨order, horder, s, hs⟩) _ _
        (served_of_order horder hs exchange symbol) (served_of_order horder' hs' exchange symbol)
  spelled_once h _ _ _ _ hr hr' := (eq_of_served h hr).trans (eq_of_served h hr').symm
  own order s exchange symbol horder hs hlisted hown := by
    have hserved := served_of_order horder hs exchange symbol
    generalize s.factor? exchange symbol = r at hserved
    cases hserved with
    | unlisted absent =>
      obtain ⟨e, he, hspelled⟩ := hlisted
      exact absurd hspelled (absent e he)
    | own listed spelled mem ticker => exact ⟨_, listed, spelled, _, mem, ticker, rfl⟩
    | others listed spelled absent =>
      obtain ⟨f, hf, hticker⟩ := hown _ listed spelled
      exact absurd hticker (absent f hf)
    | nothing listed spelled absent =>
      obtain ⟨f, hf, hticker⟩ := hown _ listed spelled
      exact absurd hticker (absent f hf).1
  any_case s exchange exchange' symbol symbol' hexchange hsymbol := by
    rw [factor?, factor?, Text.sameLetters_iff.1 hexchange, Text.sameLetters_iff.1 hsymbol]

end DailyBars.Scaling
