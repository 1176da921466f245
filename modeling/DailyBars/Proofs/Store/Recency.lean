import DailyBars.Proofs.Store.Memo
import Mathlib.Data.List.Nodup

/-! # A memo is a list in the order of use

A memo keeps its values in a hash map and its keys in a queue. Both are read off one list of pairs,
the one used least recently first: the queue has the keys of the list, the map looks keys up in it,
and no key is there twice. `Memo.Shows` says so. Every operation of the memo is one on this list, so
that a run of them gives what the list gives.
-/

namespace DailyBars

/-- Keys with their values, the pair that was used least recently first. -/
abbrev Recency (κ ν : Type) := List (κ × ν)

namespace Recency

section Keys

variable {κ ν : Type}

/-- The keys in the order of their use. -/
def keys (l : Recency κ ν) : List κ := l.map Prod.fst

/-- Keeps the pairs whose key satisfies `keep`, in their order. -/
def retain (l : Recency κ ν) (keep : κ → Bool) : Recency κ ν := l.filter fun p => keep p.1

/-- Drops pairs from the old end until no more than `capacity` are left. -/
def bound (l : Recency κ ν) (capacity : Nat) : Recency κ ν := l.drop (l.length - capacity)

/-- A bounded list is no longer than its bound. -/
theorem length_bound_le (l : Recency κ ν) (capacity : Nat) :
    (l.bound capacity).length ≤ capacity := by
  rw [bound, List.length_drop]
  omega

/-- A list that is short enough is left as it is. -/
theorem bound_of_le {l : Recency κ ν} {capacity : Nat} (h : l.length ≤ capacity) :
    l.bound capacity = l := by
  rw [bound, Nat.sub_eq_zero_of_le h, List.drop_zero]

/-- Retaining filters the keys. -/
theorem keys_retain (l : Recency κ ν) (keep : κ → Bool) :
    (l.retain keep).keys = l.keys.filter keep := by
  rw [keys, keys, retain, List.filter_map]
  rfl

end Keys

variable {κ ν : Type} [BEq κ]

/-- Puts a pair at the recent end, in place of any pair with its key. -/
def put (l : Recency κ ν) (key : κ) (value : ν) : Recency κ ν :=
  l.retain (· != key) ++ [(key, value)]

/-- The value of a key, whose pair moves to the recent end. A missing key changes nothing. -/
def get (l : Recency κ ν) (key : κ) : Option ν × Recency κ ν :=
  match l.lookup key with
  | some value => (some value, l.put key value)
  | none => (none, l)

variable [LawfulBEq κ]

/-- A retained key keeps its value, and the others are gone. -/
theorem lookup_retain (l : Recency κ ν) (keep : κ → Bool) (k : κ) :
    (l.retain keep).lookup k = if keep k then l.lookup k else none := by
  induction l with
  | nil => simp [retain]
  | cons p rest ih =>
    have hrest : List.lookup k (List.filter (fun p => keep p.1) rest)
        = if keep k then rest.lookup k else none := ih
    rw [retain, List.filter_cons, List.lookup_cons]
    by_cases hk : k = p.1
    · rw [← hk, beq_self_eq_true]
      by_cases hkeep : keep k = true
      · rw [if_pos hkeep, if_pos hkeep, List.lookup_cons, ← hk, beq_self_eq_true]
      · rw [if_neg hkeep, if_neg hkeep, hrest, if_neg hkeep]
    · rw [beq_eq_false_iff_ne.2 hk]
      split
      · rw [List.lookup_cons, beq_eq_false_iff_ne.2 hk]
        exact hrest
      · exact hrest

/-- After a value was put, its key has it and the others keep theirs. -/
theorem lookup_put (l : Recency κ ν) (key : κ) (value : ν) (k : κ) :
    (l.put key value).lookup k = if key == k then some value else l.lookup k := by
  rw [put, List.lookup_append, lookup_retain, List.lookup_cons, List.lookup_nil]
  by_cases hk : k = key
  · simp [hk]
  · simp [hk, Ne.symm hk, beq_eq_false_iff_ne.2 hk]

/-- The keys are those that have a value. -/
theorem mem_keys {l : Recency κ ν} {k : κ} : k ∈ l.keys ↔ (l.lookup k).isSome = true := by
  rw [List.lookup_isSome_iff, keys, List.mem_map]
  constructor
  · rintro ⟨p, hp, rfl⟩
    exact ⟨p, hp, beq_self_eq_true _⟩
  · rintro ⟨p, hp, hk⟩
    exact ⟨p, hp, (eq_of_beq hk).symm⟩

/-- If no key comes twice, every pair of the list is found by its key. -/
theorem lookup_of_mem {l : Recency κ ν} (hnodup : l.keys.Nodup) {p : κ × ν} (hp : p ∈ l) :
    l.lookup p.1 = some p.2 := by
  induction l with
  | nil => cases hp
  | cons q rest ih =>
    obtain ⟨hfresh, hrest⟩ := List.nodup_cons.1 hnodup
    rcases List.mem_cons.1 hp with rfl | hmem
    · rw [List.lookup_cons, beq_self_eq_true]
    · have hne : p.1 ≠ q.1 := by
        intro heq
        exact hfresh (heq ▸ List.mem_map_of_mem hmem)
      rw [List.lookup_cons, beq_eq_false_iff_ne.2 hne]
      exact ih hrest hmem

/-- Putting a value moves its key to the end. -/
theorem keys_put {l : Recency κ ν} (hnodup : l.keys.Nodup) (key : κ) (value : ν) :
    (l.put key value).keys = l.keys.erase key ++ [key] := by
  rw [hnodup.erase_eq_filter, ← keys_retain]
  exact List.map_append

/-- Putting a value does not repeat a key. -/
theorem nodup_keys_put {l : Recency κ ν} (hnodup : l.keys.Nodup) (key : κ) (value : ν) :
    (l.put key value).keys.Nodup := by
  rw [keys_put hnodup, ← List.concat_eq_append]
  exact List.Nodup.concat hnodup.not_mem_erase (hnodup.erase key)

/-- A pair whose key is there takes the place of another one. -/
theorem length_put_of_mem {l : Recency κ ν} (hnodup : l.keys.Nodup) {key : κ} (hkey : key ∈ l.keys)
    (value : ν) : (l.put key value).length = l.length := by
  have hlength := congrArg List.length (keys_put hnodup key value)
  have hpos := List.length_pos_of_mem hkey
  rw [List.length_append, List.length_erase_of_mem hkey, List.length_singleton] at hlength
  simp only [keys, List.length_map] at hlength hpos
  omega

end Recency

namespace Memo

variable {κ ν : Type} [BEq κ] [Hashable κ]

/-- A map and a queue that are read off a list of pairs. -/
structure Lists (entries : Std.HashMap κ ν) (order : List κ) (l : Recency κ ν) : Prop where
  order : order = l.keys
  nodup : l.keys.Nodup
  lookup : ∀ k, entries[k]? = l.lookup k

/-- The memo is the list of pairs, which is no longer than its capacity. -/
structure Shows (m : Memo κ ν) (capacity : Nat) (l : Recency κ ν) : Prop where
  lists : Lists m.entries m.order l
  capacity_eq : m.capacity = capacity
  length_le : l.length ≤ capacity

/-- An empty memo shows the empty list. -/
theorem shows_empty (capacity : Nat) : (Memo.empty capacity : Memo κ ν).Shows capacity [] where
  lists := ⟨rfl, List.nodup_nil, fun _ => Std.HashMap.getElem?_empty⟩
  capacity_eq := rfl
  length_le := Nat.zero_le _

variable [LawfulBEq κ]

namespace Lists

variable {entries : Std.HashMap κ ν} {order : List κ} {l : Recency κ ν}

/-- The entries and the order have the same keys. -/
theorem mem (h : Lists entries order l) {k : κ} : k ∈ entries ↔ k ∈ order := by
  rw [Std.HashMap.mem_iff_isSome_getElem?, h.lookup, h.order, Recency.mem_keys]

/-- There are as many entries as pairs in the list. -/
theorem size (h : Lists entries order l) : entries.size = l.length := by
  have hperm : entries.keys.Perm l.keys := by
    refine (List.perm_ext_iff_of_nodup Std.HashMap.nodup_keys h.nodup).2 fun k => ?_
    rw [Std.HashMap.mem_keys, h.mem, h.order]
  rw [← Std.HashMap.length_keys, hperm.length_eq, Recency.keys, List.length_map]

/-- Inserting an entry and moving its key to the end is putting it into the list. -/
theorem insert (h : Lists entries order l) (key : κ) (value : ν) :
    Lists (entries.insert key value) (order.erase key ++ [key]) (l.put key value) where
  order := by rw [Recency.keys_put h.nodup, h.order]
  nodup := Recency.nodup_keys_put h.nodup key value
  lookup k := by rw [Std.HashMap.getElem?_insert, Recency.lookup_put, h.lookup]

/-- The pair at the old end is the one whose key leads the queue. -/
theorem erase {p : κ × ν} {rest : Recency κ ν} (h : Lists entries order (p :: rest)) :
    Lists (entries.erase p.1) (Recency.keys rest) rest where
  order := rfl
  nodup := (List.nodup_cons.1 h.nodup).2
  lookup k := by
    rw [Std.HashMap.getElem?_erase, h.lookup, List.lookup_cons]
    by_cases hk : p.1 = k
    · have hfresh : p.1 ∉ Recency.keys rest := (List.nodup_cons.1 h.nodup).1
      rw [Recency.mem_keys, Option.not_isSome_iff_eq_none] at hfresh
      rw [if_pos (beq_iff_eq.2 hk), ← hk, hfresh]
    · rw [if_neg (by simpa using hk), beq_eq_false_iff_ne.2 (Ne.symm hk)]

/-- Eviction drops pairs from the old end. -/
theorem evict (h : Lists entries order l) (capacity : Nat) :
    Lists (evict capacity entries order).1 (evict capacity entries order).2 (l.bound capacity) := by
  induction l generalizing entries order with
  | nil =>
    obtain rfl : order = [] := h.order
    rw [Memo.evict, Recency.bound, List.drop_nil]
    exact h
  | cons p rest ih =>
    obtain rfl : order = p.1 :: Recency.keys rest := h.order
    have hsize := h.size
    rw [List.length_cons] at hsize
    rw [Memo.evict]
    split
    next hover =>
      have hfits : capacity ≤ rest.length := by omega
      have hbound : Recency.bound (p :: rest) capacity = Recency.bound rest capacity := by
        rw [Recency.bound, Recency.bound, List.length_cons, Nat.sub_add_comm hfits,
          List.drop_succ_cons]
      rw [hbound]
      exact ih h.erase
    next hfits =>
      rw [Recency.bound_of_le (by rw [List.length_cons]; omega)]
      exact h

/-- Values that are not kept leave their keys behind, which are taken out of the queue. -/
theorem retain (h : Lists entries order l) (keep : κ → Bool) :
    Lists (entries.filter fun k _ => keep k)
      (order.filter (entries.filter fun k _ => keep k).contains) (l.retain keep) where
  order := by
    rw [Recency.keys_retain, h.order]
    refine List.filter_congr fun k hk => ?_
    rw [Std.HashMap.contains_eq_isSome_getElem?, Std.HashMap.getElem?_filter', h.lookup]
    obtain ⟨value, hvalue⟩ := Option.isSome_iff_exists.1 (Recency.mem_keys.1 hk)
    rw [hvalue, Option.filter_some]
    cases keep k <;> rfl
  nodup := by
    rw [Recency.keys_retain]
    exact h.nodup.filter keep
  lookup k := by
    rw [Std.HashMap.getElem?_filter', h.lookup, Recency.lookup_retain]
    cases l.lookup k with
    | none => simp
    | some value => rw [Option.filter_some]

end Lists

/-- A key that is there moves to the end of the queue. -/
theorem touch_of_mem {m : Memo κ ν} {key : κ} (hkey : key ∈ m.order) :
    m.touch key = { m with order := m.order.erase key ++ [key] } :=
  if_pos (List.contains_iff_mem.2 hkey)

namespace Shows

variable {m : Memo κ ν} {capacity : Nat} {l : Recency κ ν}

/-- The pairs along the queue are those of the list. -/
theorem toList (h : m.Shows capacity l) : m.toList = l := by
  have hpairs : ∀ p ∈ l, (m.entries[p.1]?.map fun v => (p.1, v)) = some p := by
    intro p hp
    rw [h.lists.lookup, Recency.lookup_of_mem h.lists.nodup hp]
    rfl
  rw [Memo.toList, h.lists.order, Recency.keys, List.filterMap_map]
  exact (List.filterMap_congr hpairs).trans List.filterMap_some

/-- A memo is as large as its list, -/
theorem size (h : m.Shows capacity l) : m.size = l.length := h.lists.size

/-- and empty with it. -/
theorem isEmpty (h : m.Shows capacity l) : m.isEmpty = l.isEmpty := by
  rw [Memo.isEmpty, Std.HashMap.isEmpty_eq_size_eq_zero, h.lists.size]
  cases l <;> rfl

/-- Looking a key up gives what the list has for it and makes it the most recent. -/
theorem get (h : m.Shows capacity l) (key : κ) :
    (m.get key).1 = (Recency.get l key).1
      ∧ (m.get key).2.Shows capacity (Recency.get l key).2 := by
  rw [Memo.get, Recency.get, h.lists.lookup]
  cases hvalue : l.lookup key with
  | none => exact ⟨rfl, h⟩
  | some value =>
    have hkey : key ∈ l.keys := Recency.mem_keys.2 (by rw [hvalue]; rfl)
    rw [touch_of_mem (by rwa [h.lists.order])]
    refine ⟨rfl, ⟨?_, Recency.nodup_keys_put h.lists.nodup key value, fun k => ?_⟩,
      h.capacity_eq, ?_⟩
    · rw [Recency.keys_put h.lists.nodup, h.lists.order]
    · -- the pair goes back with the value that it had
      show m.entries[k]? = _
      rw [h.lists.lookup, Recency.lookup_put]
      split
      next heq => rw [← eq_of_beq heq, hvalue]
      next => rfl
    · rw [Recency.length_put_of_mem h.lists.nodup hkey]
      exact h.length_le

/-- Inserting puts the value at the end of the list and drops what is over the capacity. -/
theorem insert (h : m.Shows capacity l) (key : κ) (value : ν) :
    (m.insert key value).Shows capacity (Recency.bound (l.put key value) capacity) := by
  obtain rfl := h.capacity_eq
  have hlists := h.lists.insert key value
  rw [Memo.insert]
  split
  next hzero =>
    -- nothing is held, and nothing stays
    have hnone : Recency.bound (l.put key value) m.capacity = l := by
      have hbound := Recency.length_bound_le (l.put key value) m.capacity
      have hlength := h.length_le
      rw [hzero, Nat.le_zero, List.length_eq_zero_iff] at hbound hlength
      rw [hzero, hbound, hlength]
    rw [hnone]
    exact h
  next =>
    split
    next hheld =>
      have hkey : key ∈ m.order := h.lists.mem.1 (Std.HashMap.contains_iff_mem.1 hheld)
      have hlength := Recency.length_put_of_mem h.lists.nodup (h.lists.order ▸ hkey) value
      rw [Recency.bound_of_le (hlength ▸ h.length_le),
        touch_of_mem (m := { m with entries := m.entries.insert key value }) hkey]
      exact ⟨hlists, rfl, hlength ▸ h.length_le⟩
    next hfresh =>
      have hkey : key ∉ m.order := by
        rwa [← h.lists.mem, ← Std.HashMap.contains_iff_mem]
      rw [List.erase_of_not_mem hkey] at hlists
      exact ⟨hlists.evict m.capacity, rfl, Recency.length_bound_le _ _⟩

/-- Retaining keeps the pairs of the list whose key is kept. -/
theorem retain (h : m.Shows capacity l) (keep : κ → Bool) :
    (m.retain keep).Shows capacity (Recency.retain l keep) where
  lists := h.lists.retain keep
  capacity_eq := h.capacity_eq
  length_le := Nat.le_trans (List.length_filter_le _ _) h.length_le

end Shows

/-! ## Runs -/

/-- What can be done with a memo. -/
inductive Use (κ ν : Type) where
  | get (key : κ)
  | insert (key : κ) (value : ν)
  | retain (keep : κ → Bool)

/-- What is seen of a use: the value that it gives, and how much is held after it. -/
structure Reply (ν : Type) where
  given : Option ν
  size : Nat
  isEmpty : Bool
deriving DecidableEq

end Memo

section Runs

variable {κ ν : Type} [BEq κ]

/-- Performs a use on a memo. Only a lookup gives something. -/
def Memo.perform [Hashable κ] (m : Memo κ ν) : Memo.Use κ ν → Option ν × Memo κ ν
  | .get key => m.get key
  | .insert key value => (none, m.insert key value)
  | .retain keep => (none, m.retain keep)

/-- Performs a use on a list that holds no more than `capacity` pairs. -/
def Recency.perform (capacity : Nat) (l : Recency κ ν) : Memo.Use κ ν → Option ν × Recency κ ν
  | .get key => Recency.get l key
  | .insert key value => (none, Recency.bound (l.put key value) capacity)
  | .retain keep => (none, Recency.retain l keep)

/-- The replies to a run of uses, and what is held after it. -/
def Memo.run [Hashable κ] (m : Memo κ ν) : List (Memo.Use κ ν) → List (Memo.Reply ν) × Memo κ ν
  | [] => ([], m)
  | use :: rest =>
    let (given, m) := m.perform use
    let (replies, last) := run m rest
    (⟨given, m.size, m.isEmpty⟩ :: replies, last)

/-- The replies to a run of uses, and the pairs that are held after it. -/
def Recency.run (capacity : Nat) (l : Recency κ ν) :
    List (Memo.Use κ ν) → List (Memo.Reply ν) × Recency κ ν
  | [] => ([], l)
  | use :: rest =>
    let (given, l) := Recency.perform capacity l use
    let (replies, last) := run capacity l rest
    (⟨given, l.length, l.isEmpty⟩ :: replies, last)

end Runs

namespace Memo.Shows

variable {κ ν : Type} [BEq κ] [Hashable κ] [LawfulBEq κ] {m : Memo κ ν} {capacity : Nat}
  {l : Recency κ ν}

/-- A use does to the memo what it does to the list. -/
theorem perform (h : m.Shows capacity l) (use : Use κ ν) :
    (m.perform use).1 = (Recency.perform capacity l use).1
      ∧ (m.perform use).2.Shows capacity (Recency.perform capacity l use).2 := by
  cases use with
  | get key => exact h.get key
  | insert key value => exact ⟨rfl, h.insert key value⟩
  | retain keep => exact ⟨rfl, h.retain keep⟩

/-- **Any sequence of uses** gives what the list gives, and ends showing it. -/
theorem run (h : m.Shows capacity l) (uses : List (Use κ ν)) :
    (m.run uses).1 = (Recency.run capacity l uses).1
      ∧ (m.run uses).2.Shows capacity (Recency.run capacity l uses).2 := by
  induction uses generalizing m l with
  | nil => exact ⟨rfl, h⟩
  | cons use rest ih =>
    obtain ⟨hgiven, hstep⟩ := h.perform use
    obtain ⟨hreplies, hlast⟩ := ih hstep
    refine ⟨?_, hlast⟩
    rw [Memo.run, Recency.run]
    simp only
    rw [hgiven, hstep.size, hstep.isEmpty, hreplies]

end Memo.Shows

/-- The queue has each stored key once and no other, and there are no more than `capacity`. -/
structure Memo.Exact {κ ν : Type} [BEq κ] [Hashable κ] (m : Memo κ ν) (capacity : Nat) :
    Prop where
  nodup : m.order.Nodup
  mem_order : ∀ k, k ∈ m.order ↔ k ∈ m.entries
  size_le : m.size ≤ capacity

/-- Whatever is looked up, stored and retained, a memo replies as the list of its pairs does, and
holds the pairs of that list. -/
theorem memo_is_recency_list {κ ν : Type} [BEq κ] [Hashable κ] [LawfulBEq κ] (capacity : Nat)
    (uses : List (Memo.Use κ ν)) :
    ((Memo.empty capacity).run uses).1 = (Recency.run capacity [] uses).1
      ∧ ((Memo.empty capacity).run uses).2.toList = (Recency.run capacity [] uses).2
      ∧ ((Memo.empty capacity).run uses).2.Exact capacity := by
  obtain ⟨hreplies, hlast⟩ := (Memo.shows_empty capacity).run uses
  refine ⟨hreplies, hlast.toList, ?_⟩
  exact {
    nodup := hlast.lists.order ▸ hlast.lists.nodup
    mem_order := fun _ => hlast.lists.mem.symm
    size_le := hlast.size ▸ hlast.length_le }

/-- A key that was looked up in between outlives one that was stored after it. -/
theorem memo_is_recency_list_of_two :
    ((Memo.empty 2).run [.insert "a" 1, .insert "b" 2, .get "a", .insert "c" 3, .get "b"]).1
        = [⟨none, 1, false⟩, ⟨none, 2, false⟩, ⟨some 1, 2, false⟩, ⟨none, 2, false⟩,
          ⟨none, 2, false⟩]
      ∧ ((Memo.empty 2).run [.insert "a" 1, .insert "b" 2, .get "a", .insert "c" 3,
          .get "b"]).2.toList = [("a", 1), ("c", 3)] := by
  obtain ⟨hreplies, hpairs, -⟩ := memo_is_recency_list 2
    [.insert "a" 1, .insert "b" 2, .get "a", .insert "c" 3, .get "b"]
  exact ⟨hreplies.trans (by decide), hpairs.trans (by decide)⟩

end DailyBars
