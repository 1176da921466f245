import DailyBars.Fx.Conversion
import DailyBars.Proofs.Merge.ScalingOrders

/-! # Folded tables in every order

Constant rates stand under currencies, and price factors under exchanges and tickers, all of them
folded as they are taken from tables that have no order. Both depend on the order just where names
meet that differ in case: then one of the values is kept, and it may be any of them.
-/

namespace DailyBars

namespace FxRules

variable {base : String} {days : Nat} {table : List (String × Float)}

/-- The constant rate is that of the last spelling of the currency. -/
theorem fallbackRate?_of (base : String) (days : Nat) (table : List (String × Float))
    (source target : String) : (FxRules.of base days table).fallbackRate? source target
      = if target = (Currency.of base).code then Text.lastFolded? source table else none := by
  have hlookup : ∀ entries : List (String × Float),
      (entries.map fun e => (Text.upper e.1, e.2)).lookup source
        = (entries.find? fun e => Text.upper e.1 == source).map Prod.snd := by
    intro entries
    induction entries with
    | nil => rfl
    | cons e rest ih =>
      rw [List.map_cons, Json.lookup_cons_ite, ih, List.find?_cons]
      by_cases h : Text.upper e.1 = source
      · rw [if_pos h.symm, beq_iff_eq.2 h]
        rfl
      · rw [if_neg (Ne.symm h), beq_false_of_ne h]
  rw [fallbackRate?, FxRules.of, ← List.map_reverse, hlookup]
  rfl

/-- What comes of the orders of a table of constant rates. -/
structure OverOrders (base : String) (days : Nat) (table : List (String × Float)) : Prop where
  /-- Any spelling of a currency may give its rate into the base. -/
  given : ∀ source target r, (∃ order, table.Perm order
      ∧ (FxRules.of base days order).fallbackRate? source target = r)
    ↔ if target = (Currency.of base).code then
        (∃ e ∈ table, Text.upper e.1 = source ∧ r = some e.2)
          ∨ (∀ e ∈ table, Text.upper e.1 ≠ source) ∧ r = none
      else r = none
  /-- So the rate is the same in all orders just if all spellings have the same. -/
  same : ∀ source target, (∀ order, table.Perm order →
      (FxRules.of base days order).fallbackRate? source target
        = (FxRules.of base days table).fallbackRate? source target)
    ↔ (target = (Currency.of base).code → ∀ e ∈ table, ∀ e' ∈ table,
      Text.upper e.1 = source → Text.upper e'.1 = source → e.2 = e'.2)

/-- **What becomes of a table of constant rates** over all orders of its entries. -/
theorem overOrders (base : String) (days : Nat) (table : List (String × Float)) :
    OverOrders base days table where
  given source target r := by
    simp only [fallbackRate?_of]
    split
    next => exact Text.exists_perm_lastFolded?_iff
    next => exact ⟨fun ⟨_, _, h⟩ => h.symm, fun h => ⟨table, .refl table, h.symm⟩⟩
  same source target := by
    simp only [fallbackRate?_of]
    by_cases htarget : target = (Currency.of base).code
    · simp only [if_pos htarget, Text.lastFolded?_perm_iff]
      exact ⟨fun h _ => h, fun h => h htarget⟩
    · simp only [if_neg htarget]
      exact ⟨fun _ h => absurd h htarget, fun _ _ _ => True.intro⟩

end FxRules

namespace Scaling

/-- The document that a text is read as. -/
def documentOf? (text : String) : Option (List (String × List (String × Float))) :=
  (Json.parse? text).bind (Json.table? (Json.table? Json.toFloat?))

/-- What may come of a text: the tables in it are gone through in any order. -/
inductive Outcome (text : String) : Except MetadataFault Scaling → Prop
  | ofDocument {document order : List (String × List (String × Float))}
    (read : documentOf? text = some document) (orders : Orders document order) :
    Outcome text (ofDocument order)
  | unreadable (read : documentOf? text = none) : Outcome text (.error .invalidScaling)

/-- A document is in its own order. -/
theorem Orders.refl (document : List (String × List (String × Float))) :
    Orders document document :=
  ⟨document, .refl document, List.forall₂_same.2 fun e _ => ⟨rfl, .refl e.2⟩⟩

/-- The order in which the text has its entries is one of them. -/
theorem outcome_parse (text : String) : Outcome text (parse text) := by
  rw [parse]
  split
  next hread => exact .unreadable hread
  next document hread => exact .ofDocument hread (.refl document)

/-- A text is accepted in all orders or in none, just if that holds of its document. -/
theorem same_outcome_iff (text : String) :
    (∀ r r', Outcome text r → Outcome text r' → ((∃ s, r = .ok s) ↔ ∃ s, r' = .ok s))
      ↔ ∀ document, documentOf? text = some document →
        AllFactors document ∨ ¬ SomeFactors document := by
  constructor
  · intro h document hread
    exact same_verdict_iff.1 fun order order' horder horder' =>
      h _ _ (.ofDocument hread horder) (.ofDocument hread horder')
  · intro h r r' hr hr'
    cases hr with
    | unreadable hread =>
      cases hr' with
      | unreadable => exact Iff.rfl
      | ofDocument hread' =>
        rw [hread] at hread'
        cases hread'
    | ofDocument hread horder =>
      cases hr' with
      | unreadable hread' =>
        rw [hread] at hread'
        cases hread'
      | ofDocument hread' horder' =>
        rw [hread] at hread'
        cases hread'
        exact same_verdict_iff.2 (h _ hread) _ _ horder horder'

end Scaling

/-- **Folded tables over all orders.** Whether a document of price factors is accepted, which factor
it gives and which constant rate a currency has are the same in every order of the tables exactly
where the spellings that meet under one name agree on it. -/
theorem folded_tables_over_orders (text : String)
    (document : List (String × List (String × Float))) (base : String) (days : Nat)
    (table : List (String × Float)) :
    (Scaling.Outcome text (Scaling.parse text)
        ∧ ((∀ r r', Scaling.Outcome text r → Scaling.Outcome text r' →
            ((∃ s, r = .ok s) ↔ ∃ s, r' = .ok s))
          ↔ ∀ document, Scaling.documentOf? text = some document →
            Scaling.AllFactors document ∨ ¬ Scaling.SomeFactors document))
      ∧ Scaling.OverOrders document
      ∧ FxRules.OverOrders base days table :=
  ⟨⟨Scaling.outcome_parse text, Scaling.same_outcome_iff text⟩, Scaling.overOrders document,
    FxRules.overOrders base days table⟩

/-- Two spellings of an exchange: in one order the ticker has its own factor, in the other that of
the wildcard. Two spellings of a ticker: one order is accepted and the other is not. Two spellings
of a currency: the rate is either of two. -/
theorem spellings_meet_in_any_order :
    (∃ s s', Scaling.Orders [("L", [("*", 2.0)]), ("l", [("GSK", 0.5)])]
          [("l", [("GSK", 0.5)]), ("L", [("*", 2.0)])]
        ∧ Scaling.ofDocument [("L", [("*", 2.0)]), ("l", [("GSK", 0.5)])] = .ok s
        ∧ Scaling.ofDocument [("l", [("GSK", 0.5)]), ("L", [("*", 2.0)])] = .ok s'
        ∧ s.factor? "L" "GSK" = some 0.5 ∧ s'.factor? "L" "GSK" = some 2.0)
      ∧ (Scaling.Orders [("L", [("gsk", -1.0), ("GSK", 1.0)])]
          [("L", [("GSK", 1.0), ("gsk", -1.0)])]
        ∧ Scaling.Accepts [("L", [("gsk", -1.0), ("GSK", 1.0)])]
        ∧ ¬ Scaling.Accepts [("L", [("GSK", 1.0), ("gsk", -1.0)])])
      ∧ (FxRules.of "GBP" 7 [("USD", 0.75), ("usd", 0.5)]).fallbackRate? "USD" "GBP" = some 0.5
      ∧ (FxRules.of "GBP" 7 [("usd", 0.5), ("USD", 0.75)]).fallbackRate? "USD" "GBP"
        = some 0.75 := by
  refine ⟨⟨_, _, ?_, rfl, rfl, rfl, rfl⟩, ⟨?_, ⟨_, rfl⟩, ?_⟩, rfl, rfl⟩
  · exact ⟨_, .swap _ _ _, List.forall₂_same.2 fun e _ => ⟨rfl, .refl e.2⟩⟩
  · exact ⟨_, .refl _, .cons ⟨rfl, .swap _ _ _⟩ .nil⟩
  · rintro ⟨s, hs⟩
    cases hs

end DailyBars
