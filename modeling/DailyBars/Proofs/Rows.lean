/-! # Rows read one after another

A table is read row by row, and the first row that cannot be read ends the reading. So a table
that is read is known by its rows: each of them could be read, and what was read of them stands
in their order.
-/

namespace DailyBars

variable {ε α β : Type} {xs : List α} {ys : List β}

/-- Two computations that succeed in a row both succeed. -/
theorem exists_of_bind_eq_ok {x : Except ε α} {f : α → Except ε β} {b : β}
    (h : (x >>= f) = .ok b) : ∃ a, x = .ok a ∧ f a = .ok b := by
  cases x with
  | error e => cases h
  | ok a => exact ⟨a, rfl, h⟩

section Monads

variable {m : Type → Type} [Monad m] [LawfulMonad m] {f : α → m β} {g : α → β}

/-- If every element succeeds, so does the list. -/
theorem mapM_eq_pure_map (h : ∀ x ∈ xs, f x = pure (g x)) : xs.mapM f = pure (xs.map g) := by
  induction xs with
  | nil => rfl
  | cons x xs ih =>
    rw [List.mapM_cons, h x List.mem_cons_self, ih fun y hy => h y (List.mem_cons_of_mem x hy),
      pure_bind, pure_bind, List.map_cons]

/-- After rows that can be read, the next one decides how reading goes on. -/
theorem mapM_append_cons {x : α} {after : List α} (h : ∀ x ∈ xs, f x = pure (g x)) :
    (xs ++ x :: after).mapM f
      = f x >>= fun y => after.mapM f >>= fun ys => pure (xs.map g ++ y :: ys) := by
  rw [List.mapM_append, mapM_eq_pure_map h, pure_bind, List.mapM_cons, bind_assoc]
  simp only [bind_assoc, pure_bind]

end Monads

/-- Reading succeeds if every row can be read, and gives what is read of the rows. -/
theorem mapM_eq_ok_iff {f : α → Except ε β} :
    xs.mapM f = .ok ys
      ↔ (∀ x ∈ xs, ∃ y, f x = .ok y) ∧ ys = xs.filterMap fun x => (f x).toOption := by
  induction xs generalizing ys with
  | nil =>
    constructor
    · rintro ⟨⟩
      exact ⟨fun x hx => absurd hx List.not_mem_nil, rfl⟩
    · rintro ⟨-, rfl⟩
      rfl
  | cons x xs ih =>
    rw [List.mapM_cons, List.forall_mem_cons]
    cases hx : f x with
    | error e =>
      constructor
      · rintro ⟨⟩
      · rintro ⟨⟨⟨y, ⟨⟩⟩, -⟩, -⟩
    | ok z =>
      have hrow : (x :: xs).filterMap (fun x => (f x).toOption)
          = z :: xs.filterMap fun x => (f x).toOption :=
        List.filterMap_cons_some (by rw [hx]; rfl)
      rw [hrow]
      constructor
      · intro h
        obtain ⟨_, ⟨⟩, h⟩ := exists_of_bind_eq_ok h
        obtain ⟨zs, hzs, h⟩ := exists_of_bind_eq_ok h
        cases h
        obtain ⟨hall, rfl⟩ := ih.1 hzs
        exact ⟨⟨⟨z, rfl⟩, hall⟩, rfl⟩
      · rintro ⟨⟨-, hall⟩, rfl⟩
        rw [ih.2 ⟨hall, rfl⟩]
        rfl

/-- Every result comes from an element, -/
theorem mem_of_mapM_eq_ok {f : α → Except ε β} (h : xs.mapM f = .ok ys) {y : β} (hy : y ∈ ys) :
    ∃ x ∈ xs, f x = .ok y := by
  obtain ⟨-, rfl⟩ := mapM_eq_ok_iff.1 h
  obtain ⟨x, hx, hfx⟩ := List.mem_filterMap.1 hy
  cases hread : f x with
  | error e =>
    rw [hread] at hfx
    cases hfx
  | ok z =>
    rw [hread] at hfx
    cases hfx
    exact ⟨x, hx, hread⟩

/-- if there are results. -/
theorem mem_of_mapM_eq_some {f : α → Option β} (h : xs.mapM f = some ys) {y : β} (hy : y ∈ ys) :
    ∃ x ∈ xs, f x = some y := by
  induction xs generalizing ys with
  | nil =>
    cases h
    cases hy
  | cons x xs ih =>
    rw [List.mapM_cons] at h
    obtain ⟨z, hz, h⟩ := Option.bind_eq_some_iff.1 h
    obtain ⟨zs, hzs, h⟩ := Option.bind_eq_some_iff.1 h
    cases h
    rcases List.mem_cons.1 hy with rfl | hy
    · exact ⟨x, List.mem_cons_self, hz⟩
    · obtain ⟨x', hx', hfx'⟩ := ih hzs hy
      exact ⟨x', List.mem_cons_of_mem x hx', hfx'⟩

end DailyBars
