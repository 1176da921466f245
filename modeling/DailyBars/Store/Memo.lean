import Std.Data.HashMap

/-! # A map that forgets what was used least recently

A memo holds at most a fixed number of values by key. The values are in a hash map, and a
queue lists the keys from the one that was used least recently to the one used last. Looking
a key up and storing under it count as uses; what exceeds the capacity is dropped from the
front of the queue. `Memo.toList` is the memo read off along its queue.
-/

namespace DailyBars

/-- Values by key, with the keys in the order of their last use, oldest first. -/
structure Memo (κ ν : Type) [BEq κ] [Hashable κ] where
  capacity : Nat
  entries : Std.HashMap κ ν := {}
  order : List κ := []

namespace Memo

variable {κ ν : Type} [BEq κ] [Hashable κ]

/-- A memo that holds nothing yet. -/
def empty (capacity : Nat) : Memo κ ν := { capacity }

/-- The pairs of the memo, least recently used first. -/
def toList (m : Memo κ ν) : List (κ × ν) :=
  m.order.filterMap fun k => m.entries[k]?.map fun v => (k, v)

/-- The number of values held. -/
def size (m : Memo κ ν) : Nat := m.entries.size

/-- Nothing is held. -/
def isEmpty (m : Memo κ ν) : Bool := m.entries.isEmpty

/-- Moves a key of the queue to its end. -/
def touch (m : Memo κ ν) (key : κ) : Memo κ ν :=
  if m.order.contains key then { m with order := m.order.erase key ++ [key] } else m

/-- The value under a key, which counts as a use of it. -/
def get (m : Memo κ ν) (key : κ) : Option ν × Memo κ ν :=
  match m.entries[key]? with
  | some value => (some value, m.touch key)
  | none => (none, m)

/-- Drops values from the front of a queue while more than `capacity` are held. -/
def evict (capacity : Nat) (entries : Std.HashMap κ ν) : List κ → Std.HashMap κ ν × List κ
  | [] => (entries, [])
  | oldest :: rest =>
    if capacity < entries.size then evict capacity (entries.erase oldest) rest
    else (entries, oldest :: rest)

/-- Stores a value under a key, in place of the one that was there. A memo of capacity zero
stays empty. -/
def insert (m : Memo κ ν) (key : κ) (value : ν) : Memo κ ν :=
  if m.capacity = 0 then m
  else if m.entries.contains key then
    { m with entries := m.entries.insert key value }.touch key
  else
    let (entries, order) := evict m.capacity (m.entries.insert key value) (m.order ++ [key])
    { m with entries, order }

/-- Keeps only the values whose key satisfies `keep`. -/
def retain (m : Memo κ ν) (keep : κ → Bool) : Memo κ ν :=
  let entries := m.entries.filter fun k _ => keep k
  { m with entries, order := m.order.filter entries.contains }

end Memo
end DailyBars
