import DailyBars.Store.Memo

/-! # What a memo can give back

Storing, evicting and retaining never invent a value: what a memo gives back under a key was there
before or has just been stored.
-/

namespace DailyBars.Memo

variable {κ ν : Type} [BEq κ] [Hashable κ]

/-- The memo gives back this value under this key. -/
def Gives (m : Memo κ ν) (key : κ) (value : ν) : Prop := m.entries[key]? = some value

/-- An empty memo gives nothing. -/
theorem gives_empty {capacity : Nat} {key : κ} {value : ν} :
    ¬ (empty capacity : Memo κ ν).Gives key value := by
  simp [Gives, empty]

/-- Touching a key leaves the entries, -/
theorem entries_touch (m : Memo κ ν) (key : κ) : (m.touch key).entries = m.entries := by
  unfold touch
  split <;> rfl

/-- and so does looking one up, -/
theorem entries_get (m : Memo κ ν) (key : κ) : (m.get key).2.entries = m.entries := by
  unfold get
  split
  · exact m.entries_touch key
  · rfl

/-- so that the memo gives the same as before. -/
theorem gives_get {m : Memo κ ν} {key k : κ} {value : ν} :
    (m.get key).2.Gives k value ↔ m.Gives k value := by
  rw [Gives, Gives, entries_get]

/-- What is looked up is the entry of the key. -/
theorem get_fst (m : Memo κ ν) (key : κ) : (m.get key).1 = m.entries[key]? := by
  unfold get
  split
  next h => exact h.symm
  next h => exact h.symm

/-- A lookup that finds nothing changes nothing. -/
theorem get_of_none {m : Memo κ ν} {key : κ} (h : m.entries[key]? = none) : (m.get key).2 = m := by
  unfold get
  rw [h]

variable [LawfulBEq κ]

/-- Eviction only drops values. -/
theorem gives_evict {capacity : Nat} {entries : Std.HashMap κ ν} {order : List κ} {key : κ}
    {value : ν} (h : (evict capacity entries order).1[key]? = some value) :
    entries[key]? = some value := by
  induction order generalizing entries with
  | nil => exact h
  | cons oldest rest ih =>
    rw [evict] at h
    split at h
    · have herased := ih h
      rw [Std.HashMap.getElem?_erase] at herased
      split at herased
      · cases herased
      · exact herased
    · exact h

/-- After an insertion the memo gives the new value, or one it gave before. -/
theorem gives_insert {m : Memo κ ν} {key k : κ} {value v : ν} (h : (m.insert key value).Gives k v) :
    k = key ∧ v = value ∨ m.Gives k v := by
  have hinserted : (m.entries.insert key value)[k]? = some v →
      k = key ∧ v = value ∨ m.Gives k v := by
    intro hput
    rw [Std.HashMap.getElem?_insert] at hput
    split at hput
    next heq => exact Or.inl ⟨(eq_of_beq heq).symm, (Option.some.inj hput).symm⟩
    next => exact Or.inr hput
  unfold insert at h
  split at h
  · exact Or.inr h
  · split at h
    · rw [Gives, entries_touch] at h
      exact hinserted h
    · exact hinserted (gives_evict h)

/-- What is retained was there and is kept. -/
theorem gives_retain {m : Memo κ ν} {keep : κ → Bool} {k : κ} {v : ν}
    (h : (m.retain keep).Gives k v) : keep k = true ∧ m.Gives k v := by
  rw [Gives, retain, Std.HashMap.getElem?_filter', Option.filter_eq_some_iff] at h
  exact ⟨h.2, h.1⟩

end DailyBars.Memo
