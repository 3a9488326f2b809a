/-! # Runs that can fail

What follows a reading that fails is not read. A list is run through item by item: each item changes
a state, or is at fault and ends the run.

* `bind_eq_ok_iff`, `bind_eq_error_iff`: one reading after another.
* `foldlM_cons_eq_ok_iff`, `foldlM_append_eq_ok_iff`: when a run succeeds.
* `foldlM_eq_error_iff`: where a run fails.
-/

namespace ListRequest.Run
set_option autoImplicit false

/-! ## One reading after another -/

section
variable {α β ε : Type} (x : Except ε α) (f : α → Except ε β)

theorem bind_eq_ok_iff (b : β) : (x >>= f) = .ok b ↔ ∃ a, x = .ok a ∧ f a = .ok b := by
  cases x with
  | error e => simp [bind, Except.bind]
  | ok a => simp [bind, Except.bind]

theorem bind_eq_error_iff (e : ε) :
    (x >>= f) = .error e ↔ x = .error e ∨ ∃ a, x = .ok a ∧ f a = .error e := by
  cases x with
  | error e => simp [bind, Except.bind]
  | ok a => simp [bind, Except.bind]

end

/-! ## Runs over a list -/

section
variable {σ α ε : Type} {step : σ → α → Except ε σ}

theorem foldlM_cons_of_ok {s t : σ} {x : α} (h : step s x = .ok t) (xs : List α) :
    (x :: xs).foldlM step s = xs.foldlM step t := by
  rw [List.foldlM_cons, h]
  rfl

theorem foldlM_append_of_ok {s t : σ} {xs : List α} (h : xs.foldlM step s = .ok t)
    (ys : List α) : (xs ++ ys).foldlM step s = ys.foldlM step t := by
  rw [List.foldlM_append, h]
  rfl

theorem foldlM_append_of_error {s : σ} {e : ε} {xs : List α} (h : xs.foldlM step s = .error e)
    (ys : List α) : (xs ++ ys).foldlM step s = .error e := by
  rw [List.foldlM_append, h]
  rfl

theorem foldlM_cons_eq_ok_iff (s t : σ) (x : α) (xs : List α) :
    (x :: xs).foldlM step s = .ok t ↔ ∃ u, step s x = .ok u ∧ xs.foldlM step u = .ok t := by
  rw [List.foldlM_cons]
  exact bind_eq_ok_iff _ _ t

theorem foldlM_append_eq_ok_iff (s t : σ) (xs ys : List α) :
    (xs ++ ys).foldlM step s = .ok t ↔
      ∃ u, xs.foldlM step s = .ok u ∧ ys.foldlM step u = .ok t := by
  rw [List.foldlM_append]
  exact bind_eq_ok_iff _ _ t

/-- A run fails at one of its items, after the ones before it were run through. -/
theorem foldlM_eq_error_iff (s : σ) (xs : List α) (e : ε) :
    xs.foldlM step s = .error e ↔
      ∃ ys x zs t, xs = ys ++ x :: zs ∧ ys.foldlM step s = .ok t ∧ step t x = .error e := by
  constructor
  · intro h
    induction xs generalizing s with
    | nil => cases h
    | cons x xs ih =>
      cases hx : step s x with
      | error e' =>
        rw [List.foldlM_cons, hx] at h
        exact ⟨[], x, xs, s, rfl, rfl, hx.trans h⟩
      | ok t =>
        rw [foldlM_cons_of_ok hx] at h
        obtain ⟨ys, y, zs, u, rfl, hys, hy⟩ := ih t h
        exact ⟨x :: ys, y, zs, u, rfl, by rw [foldlM_cons_of_ok hx, hys], hy⟩
  · rintro ⟨ys, x, zs, t, rfl, hys, hx⟩
    rw [foldlM_append_of_ok hys, List.foldlM_cons, hx]
    rfl

end

end ListRequest.Run
