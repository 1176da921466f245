import DailyBars.Json.Value
import DailyBars.Text.Basic
import Mathlib.Data.List.Basic
import Mathlib.Data.List.Forall2
import Mathlib.Data.List.Induction

/-! # Tables in any order

A decoded table and a listed directory have their entries in no order of their own. When a table
is written into another one under folded names, entries whose names differ only in case meet under
one name, and the last of them is kept. Which one that is depends on the order in which the first
table is gone through, and any of them may be it.
-/

namespace DailyBars

variable {α β : Type}

/-! ## Orders of a table -/

/-- Every element of the second of two related lists is related to one of the first, -/
theorem exists_left_of_forall₂ {R : α → β → Prop} {xs : List α} {ys : List β}
    (h : List.Forall₂ R xs ys) {y : β} (hy : y ∈ ys) : ∃ x ∈ xs, R x y := by
  obtain ⟨i, hi, rfl⟩ := List.getElem_of_mem hy
  have hlength : i < xs.length := by rwa [h.length_eq]
  exact ⟨xs[i], List.getElem_mem hlength, h.get hlength hi⟩

/-- and the other way round. -/
theorem exists_right_of_forall₂ {R : α → β → Prop} {xs : List α} {ys : List β}
    (h : List.Forall₂ R xs ys) {x : α} (hx : x ∈ xs) : ∃ y ∈ ys, R x y :=
  exists_left_of_forall₂ h.flip hx

/-- An element may be moved to the end. -/
theorem perm_last (before after : List α) (x : α) :
    (before ++ x :: after).Perm (before ++ after ++ [x]) := by
  rw [List.append_assoc]
  exact (List.perm_append_singleton x after).symm.append_left before

/-- The entries of a table in another order, with values that are related to theirs. -/
def Reordered (R : α → α → Prop) (entries order : List (String × α)) : Prop :=
  ∃ middle, entries.Perm middle ∧ List.Forall₂ (fun e e' => e.1 = e'.1 ∧ R e.2 e'.2) middle order

namespace Reordered

variable {R : α → α → Prop} {entries order : List (String × α)}

/-- Every entry of a reordering comes from one of the table, -/
theorem of_mem_order (h : Reordered R entries order) {e' : String × α} (he' : e' ∈ order) :
    ∃ e ∈ entries, e.1 = e'.1 ∧ R e.2 e'.2 := by
  obtain ⟨middle, hperm, hrel⟩ := h
  obtain ⟨e, he, hsame⟩ := exists_left_of_forall₂ hrel he'
  exact ⟨e, hperm.mem_iff.2 he, hsame⟩

/-- and every entry of the table is in the reordering. -/
theorem of_mem (h : Reordered R entries order) {e : String × α} (he : e ∈ entries) :
    ∃ e' ∈ order, e.1 = e'.1 ∧ R e.2 e'.2 := by
  obtain ⟨middle, hperm, hrel⟩ := h
  exact exists_right_of_forall₂ hrel (hperm.mem_iff.1 he)

/-- The values may be changed where they stand. -/
theorem map {g : α → α} (hg : ∀ e ∈ entries, R e.2 (g e.2)) :
    Reordered R entries (entries.map fun e => (e.1, g e.2)) :=
  ⟨entries, .refl entries,
    List.forall₂_map_right_iff.2 (List.forall₂_same.2 fun e he => ⟨rfl, hg e he⟩)⟩

/-- And any entry may come last. -/
theorem exists_last {g : α → α} (hg : ∀ e ∈ entries, R e.2 (g e.2)) {e : String × α}
    (he : e ∈ entries) {v : α} (hv : R e.2 v) : ∃ rest : List (String × α),
      (∀ x ∈ rest, x ∈ entries)
        ∧ Reordered R entries (rest.map (fun x => (x.1, g x.2)) ++ [(e.1, v)]) := by
  obtain ⟨before, after, rfl⟩ := List.append_of_mem he
  have hrest : ∀ x ∈ before ++ after, x ∈ before ++ e :: after := by
    intro x hx
    rw [List.mem_append] at hx
    rw [List.mem_append, List.mem_cons]
    exact hx.imp_right Or.inr
  refine ⟨before ++ after, hrest, before ++ after ++ [e], perm_last before after e,
    List.rel_append ?_ ?_⟩
  · exact List.forall₂_map_right_iff.2 (List.forall₂_same.2 fun x hx => ⟨rfl, hg x (hrest x hx)⟩)
  · exact .cons ⟨rfl, hv⟩ .nil

end Reordered

/-! ## Entries of one name -/

namespace Text

/-- The value of the last entry whose name is this one in upper case. -/
def lastFolded? (name : String) (entries : List (String × α)) : Option α :=
  (entries.reverse.find? fun e => upper e.1 == name).map Prod.snd

variable {name : String} {entries : List (String × α)}

/-- Of two tables in a row, the later one decides where it has the name. -/
theorem lastFolded?_append (name : String) (entries more : List (String × α)) :
    lastFolded? name (entries ++ more) = (lastFolded? name more).or (lastFolded? name entries) := by
  rw [lastFolded?, List.reverse_append, List.find?_append, Option.map_or]
  rfl

/-- The last entry decides for its own name. -/
theorem lastFolded?_concat (name : String) (entries : List (String × α)) (e : String × α) :
    lastFolded? name (entries ++ [e])
      = if upper e.1 = name then some e.2 else lastFolded? name entries := by
  rw [lastFolded?_append]
  split
  next h => simp [lastFolded?, h]
  next h => simp [lastFolded?, h]

/-- A name has no value just if no entry is spelled like it. -/
theorem lastFolded?_eq_none :
    lastFolded? name entries = none ↔ ∀ e ∈ entries, upper e.1 ≠ name := by
  rw [lastFolded?, Option.map_eq_none_iff, List.find?_eq_none]
  simp only [List.mem_reverse, beq_iff_eq]

/-- The value of a name is that of an entry spelled like it. -/
theorem exists_of_lastFolded? {v : α} (h : lastFolded? name entries = some v) :
    ∃ e ∈ entries, upper e.1 = name ∧ e.2 = v := by
  obtain ⟨e, hfind, rfl⟩ := Option.map_eq_some_iff.1 h
  have hname := List.find?_some hfind
  exact ⟨e, List.mem_reverse.1 (List.mem_of_find?_eq_some hfind), beq_iff_eq.1 hname, rfl⟩

/-- Every entry gives its name a value. -/
theorem exists_lastFolded? {e : String × α} (he : e ∈ entries) :
    ∃ v, lastFolded? (upper e.1) entries = some v := by
  rw [← Option.ne_none_iff_exists', Ne, lastFolded?_eq_none]
  exact fun h => h e he rfl

/-- The only entry of a name is the last. -/
theorem lastFolded?_of_unique {e : String × α} (he : e ∈ entries)
    (h : ∀ e' ∈ entries, upper e'.1 = upper e.1 → e' = e) :
    lastFolded? (upper e.1) entries = some e.2 := by
  obtain ⟨v, hlast⟩ := exists_lastFolded? he
  obtain ⟨e', he', hname, rfl⟩ := exists_of_lastFolded? hlast
  rw [hlast, h e' he' hname]

/-- Any entry of a name may be the last. -/
theorem exists_perm_lastFolded? {e : String × α} (he : e ∈ entries) :
    ∃ order, entries.Perm order ∧ lastFolded? (upper e.1) order = some e.2 := by
  obtain ⟨before, after, rfl⟩ := List.append_of_mem he
  refine ⟨before ++ after ++ [e], perm_last before after e, ?_⟩
  rw [lastFolded?_concat, if_pos rfl]

/-- What the last entry of a name is worth in the orders of a table. -/
theorem exists_perm_lastFolded?_iff {r : Option α} :
    (∃ order, entries.Perm order ∧ lastFolded? name order = r)
      ↔ (∃ e ∈ entries, upper e.1 = name ∧ r = some e.2)
        ∨ (∀ e ∈ entries, upper e.1 ≠ name) ∧ r = none := by
  constructor
  · rintro ⟨order, hperm, rfl⟩
    cases hlast : lastFolded? name order with
    | none => exact Or.inr ⟨fun e he => lastFolded?_eq_none.1 hlast e (hperm.mem_iff.1 he), rfl⟩
    | some v =>
      obtain ⟨e, he, hname, rfl⟩ := exists_of_lastFolded? hlast
      exact Or.inl ⟨e, hperm.mem_iff.2 he, hname, rfl⟩
  · rintro (⟨e, he, rfl, rfl⟩ | ⟨hnone, rfl⟩)
    · exact exists_perm_lastFolded? he
    · exact ⟨entries, .refl entries, lastFolded?_eq_none.2 hnone⟩

/-- The last entry of a name is worth the same in every order just if all its entries are. -/
theorem lastFolded?_perm_iff :
    (∀ order, entries.Perm order → lastFolded? name order = lastFolded? name entries)
      ↔ ∀ e ∈ entries, ∀ e' ∈ entries, upper e.1 = name → upper e'.1 = name → e.2 = e'.2 := by
  constructor
  · rintro h e he e' he' rfl hname
    obtain ⟨order, hperm, hlast⟩ := exists_perm_lastFolded? he
    obtain ⟨order', hperm', hlast'⟩ := exists_perm_lastFolded? he'
    rw [hname] at hlast'
    have heq := (h order hperm).trans (h order' hperm').symm
    rw [hlast, hlast'] at heq
    exact Option.some.inj heq
  · intro h order hperm
    cases hlast : lastFolded? name entries with
    | none =>
      exact lastFolded?_eq_none.2 fun e he => lastFolded?_eq_none.1 hlast e (hperm.mem_iff.2 he)
    | some v =>
      obtain ⟨e, he, rfl, rfl⟩ := exists_of_lastFolded? hlast
      obtain ⟨v', hlast'⟩ := exists_lastFolded? (hperm.mem_iff.1 he)
      obtain ⟨e', he', hname, rfl⟩ := exists_of_lastFolded? hlast'
      rw [hlast', h e' (hperm.mem_iff.2 he') e he hname rfl]

end Text

/-! ## Writing under folded names -/

namespace Json

/-- What is written under a name takes the place of what stood there. -/
theorem mem_assign {name : String} {v : α} {table : List (String × α)} {e : String × α} :
    e ∈ assign name v table ↔ e = (name, v) ∨ e.1 ≠ name ∧ e ∈ table := by
  unfold assign
  split
  next hany =>
    obtain ⟨old, hold, hname⟩ := List.any_eq_true.1 hany
    rw [List.mem_map]
    constructor
    · rintro ⟨a, ha, rfl⟩
      split
      next => exact Or.inl rfl
      next hne => exact Or.inr ⟨fun heq => hne (beq_iff_eq.2 heq), ha⟩
    · rintro (rfl | ⟨hne, he⟩)
      · exact ⟨old, hold, if_pos hname⟩
      · exact ⟨e, he, if_neg fun heq => hne (beq_iff_eq.1 heq)⟩
  next hnone =>
    rw [List.mem_append, List.mem_singleton]
    constructor
    · rintro (he | rfl)
      · exact Or.inr ⟨fun heq => hnone (List.any_eq_true.2 ⟨e, he, beq_iff_eq.2 heq⟩), he⟩
      · exact Or.inl rfl
    · rintro (rfl | ⟨-, he⟩)
      · exact Or.inr rfl
      · exact Or.inl he

/-- The first entry decides for its own name. -/
theorem lookup_cons_ite (name other : String) (v : α) (table : List (String × α)) :
    ((name, v) :: table).lookup other = if other = name then some v else table.lookup other := by
  rw [List.lookup_cons]
  by_cases h : other = name
  · rw [if_pos h, beq_iff_eq.2 h]
  · rw [if_neg h, beq_false_of_ne h]

/-- Replacing changes the value of a name that is there, and no other. -/
theorem lookup_replace (name other : String) (v : α) (table : List (String × α)) :
    (table.map fun e => if e.1 == name then (name, v) else e).lookup other
      = if other = name then (table.lookup name).map fun _ => v else table.lookup other := by
  induction table with
  | nil => exact (ite_self none).symm
  | cons e rest ih =>
    obtain ⟨n, w⟩ := e
    rw [List.map_cons]
    by_cases hn : n = name
    · rw [if_pos (beq_iff_eq.2 hn), lookup_cons_ite, ih, lookup_cons_ite, lookup_cons_ite, hn,
        if_pos rfl]
      split <;> rfl
    · rw [if_neg fun h => hn (beq_iff_eq.1 h), lookup_cons_ite, ih, lookup_cons_ite,
        lookup_cons_ite, if_neg (Ne.symm hn)]
      by_cases hother : other = name
      · rw [if_pos hother, if_pos hother, hother, if_neg (Ne.symm hn)]
      · rw [if_neg hother, if_neg hother]

/-- After an assignment its name has the value, and the others keep theirs. -/
theorem lookup_assign (name other : String) (v : α) (table : List (String × α)) :
    (assign name v table).lookup other = if other = name then some v else table.lookup other := by
  have hnone : table.lookup name = none ↔ ¬ table.any (·.1 == name) = true := by
    rw [List.lookup_eq_none_iff, List.any_eq_true]
    constructor
    · rintro hall ⟨e, he, hname⟩
      exact bne_iff_ne.1 (hall e he) (beq_iff_eq.1 hname).symm
    · exact fun hno e he => bne_iff_ne.2 fun heq => hno ⟨e, he, beq_iff_eq.2 heq.symm⟩
  unfold assign
  split
  next hany =>
    obtain ⟨w, hw⟩ := Option.ne_none_iff_exists'.1 fun h => hnone.1 h hany
    rw [lookup_replace, hw]
    rfl
  next habsent =>
    rw [List.lookup_append, lookup_cons_ite]
    by_cases hother : other = name
    · rw [if_pos hother, if_pos hother, hother, hnone.2 habsent, Option.none_or]
    · rw [if_neg hother, if_neg hother, List.lookup_nil, Option.or_none]

/-- The table that has the values of another one under folded names, each of them read by `f`. -/
def foldNames (f : α → β) (entries : List (String × α)) : List (String × β) :=
  entries.foldl (fun table e => assign (Text.upper e.1) (f e.2) table) []

/-- Folding one more entry is assigning its value to its upper-case name. -/
theorem foldNames_concat (f : α → β) (entries : List (String × α)) (e : String × α) :
    foldNames f (entries ++ [e]) = assign (Text.upper e.1) (f e.2) (foldNames f entries) :=
  List.foldl_append

/-- The last entry of a name is kept. -/
theorem lookup_foldNames (f : α → β) (entries : List (String × α)) (name : String) :
    (foldNames f entries).lookup name = (Text.lastFolded? name entries).map f := by
  induction entries using List.reverseRecOn with
  | nil => rfl
  | append_singleton entries e ih =>
    rw [foldNames_concat, lookup_assign, Text.lastFolded?_concat, ih]
    by_cases h : name = Text.upper e.1
    · rw [if_pos h, if_pos h.symm, Option.map_some]
    · rw [if_neg h, if_neg fun heq => h heq.symm]

/-- A folded table holds the last value of every upper-case name. -/
theorem mem_foldNames {f : α → β} {entries : List (String × α)} {e : String × β} :
    e ∈ foldNames f entries ↔ ∃ v, Text.lastFolded? e.1 entries = some v ∧ f v = e.2 := by
  induction entries using List.reverseRecOn with
  | nil => exact ⟨fun h => absurd h List.not_mem_nil, fun ⟨_, h, _⟩ => by cases h⟩
  | append_singleton entries last ih =>
    rw [foldNames_concat, mem_assign, Text.lastFolded?_concat, ih]
    by_cases h : Text.upper last.1 = e.1
    · rw [if_pos h]
      constructor
      · rintro (rfl | ⟨hne, -⟩)
        · exact ⟨_, rfl, rfl⟩
        · exact absurd h.symm hne
      · rintro ⟨v, hv, hread⟩
        cases hv
        exact Or.inl (Prod.ext h.symm hread.symm)
    · rw [if_neg h]
      constructor
      · rintro (rfl | ⟨-, he⟩)
        · exact absurd rfl h
        · exact he
      · exact fun he => Or.inr ⟨fun heq => h heq.symm, he⟩

end Json
end DailyBars
