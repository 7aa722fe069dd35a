import Mathlib.Algebra.Order.Ring.Int

/-!
# Quantities

A quantity as `types/` keeps it, an `i64` in a fixed-point unit, and the side it is dealt on.  The
model takes integers, saturating where the source does.

* `Qty.saturatingAdd` — `i64::saturating_add`.
* `Qty.saturatingAdd_of_le` — a sum within what an `i64` holds is added as it is.
-/

namespace IbkrDx

/-- A quantity in the fixed-point unit. -/
abbrev Qty := ℤ

/-- `Qty::MAX`. -/
def qtyMax : Qty := 2 ^ 63 - 1

def Qty.saturatingAdd (x y : Qty) : Qty := max (-2 ^ 63) (min qtyMax (x + y))

abbrev InstrumentId := ℕ

abbrev OrderId := ℕ

inductive Side where
  | buy
  | sell
  | shortSell
  deriving DecidableEq

lemma Qty.saturatingAdd_of_le {x y : Qty} (hsum : 0 ≤ x + y) (h : x + y ≤ qtyMax) :
    max (x.saturatingAdd y) 0 = x + y := by
  have hmin : min qtyMax (x + y) = x + y := min_eq_right h
  rw [Qty.saturatingAdd, hmin, max_eq_right (le_trans (by decide) hsum), max_eq_left hsum]

end IbkrDx
