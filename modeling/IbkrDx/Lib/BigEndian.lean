import Mathlib.Data.UInt
import Mathlib.Tactic.Ring

/-!
# Big-endian numbers

Numbers in so many bytes, the most significant first.

* `BigEndian.toBe` — a number in `k` bytes, as far as they hold it.
* `BigEndian.ofBe` — the number some bytes write.
* **`BigEndian.ofBe_toBe`** — what is read back is the number as `k` bytes hold it.
-/

namespace BigEndian

/-- A number in `k` bytes, as far as they hold it. -/
def toBe : ℕ → ℕ → List UInt8
  | 0, _ => []
  | k + 1, v => UInt8.ofNat (v / 256 ^ k) :: toBe k v

def ofBe (os : List UInt8) : ℕ := os.foldl (fun w o => w * 256 + o.toNat) 0

@[simp]
lemma length_toBe (k v : ℕ) : (toBe k v).length = k := by
  induction k with
  | zero => rfl
  | succ k ih => rw [toBe, List.length_cons, ih]

lemma foldl_toBe (k v acc : ℕ) :
    (toBe k v).foldl (fun w o => w * 256 + o.toNat) acc = acc * 256 ^ k + v % 256 ^ k := by
  induction k generalizing acc with
  | zero => simp [toBe, Nat.mod_one]
  | succ k ih =>
      have hbyte : (UInt8.ofNat (v / 256 ^ k)).toNat = v / 256 ^ k % 256 := UInt8.toNat_ofNat'
      rw [toBe, List.foldl_cons, ih, hbyte, Nat.mod_pow_succ, pow_succ]
      ring

theorem ofBe_toBe (k v : ℕ) : ofBe (toBe k v) = v % 256 ^ k := by
  rw [ofBe, foldl_toBe, Nat.zero_mul, Nat.zero_add]

lemma ofBe_toBe_of_lt {k v : ℕ} (h : v < 256 ^ k) : ofBe (toBe k v) = v := by
  rw [ofBe_toBe, Nat.mod_eq_of_lt h]

lemma ofBe_toBe_uInt32 (v : UInt32) : UInt32.ofNat (ofBe (toBe 4 v.toNat)) = v := by
  rw [ofBe_toBe_of_lt v.toNat_lt, UInt32.ofNat_toNat]

end BigEndian
