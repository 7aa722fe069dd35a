import Mathlib.Data.List.Basic
import Mathlib.Data.Nat.Bitwise
import Mathlib.Tactic.Ring

/-!
# Bits written least significant first

Bytes as a run of bits, the least significant of each byte first, and numbers written in it.

* `LsbBits.ofBytes` — the bits of some bytes; `LsbBits.pack` — the bytes of some bits.
* `LsbBits.write`, `LsbBits.number` — a number in so many bits, and the number some bits write.
* **`number_write`**, **`ofBytes_pack`** — what is written is what is read.
-/

namespace LsbBits

def ofByte (b : UInt8) : List Bool := (List.range 8).map b.toNat.testBit

def ofBytes (data : List UInt8) : List Bool := data.flatMap ofByte

def number : List Bool → ℕ
  | [] => 0
  | b :: bits => b.toNat + 2 * number bits

def write (n v : ℕ) : List Bool := (List.range n).map v.testBit

/-- Whole bytes of some bits; what is left over is dropped. -/
def pack : List Bool → List UInt8
  | a :: b :: c :: d :: e :: f :: g :: h :: bits =>
      UInt8.ofNat (number [a, b, c, d, e, f, g, h]) :: pack bits
  | _ => []

@[simp] lemma length_write (n v : ℕ) : (write n v).length = n := by
  rw [write, List.length_map, List.length_range]

lemma write_succ (n v : ℕ) : write (n + 1) v = v.testBit 0 :: write n (v / 2) := by
  rw [write, List.range_succ_eq_map, List.map_cons, List.map_map, write]
  refine congrArg _ (List.map_congr_left fun i _ => ?_)
  rw [Function.comp_apply, Nat.testBit_succ]

/-- **What is written is what is read**, as far as the bits hold it. -/
theorem number_write (n v : ℕ) : number (write n v) = v % 2 ^ n := by
  induction n generalizing v with
  | zero => rw [pow_zero, Nat.mod_one]; rfl
  | succ n ih =>
      have hbit : (v.testBit 0).toNat = v % 2 := by
        rw [Nat.testBit_zero]
        rcases Nat.mod_two_eq_zero_or_one v with h | h <;> rw [h] <;> rfl
      rw [write_succ, number, ih, hbit, pow_succ, Nat.mul_comm (2 ^ n), Nat.mod_mul]

lemma number_lt (bits : List Bool) : number bits < 2 ^ bits.length := by
  induction bits with
  | nil => exact Nat.one_pos
  | cons b bits ih =>
      have hb := Bool.toNat_le b
      rw [number, List.length_cons, pow_succ]
      omega

lemma number_append (a b : List Bool) : number (a ++ b) = number a + 2 ^ a.length * number b := by
  induction a with
  | nil => simp [number]
  | cons x a ih =>
      rw [List.cons_append, number, ih, number, List.length_cons, pow_succ]
      ring

lemma write_number (bits : List Bool) : write bits.length (number bits) = bits := by
  induction bits with
  | nil => rfl
  | cons b bits ih =>
      have hhalf : (b.toNat + 2 * number bits) / 2 = number bits := by
        have hb := Bool.toNat_le b
        omega
      have hbit : (b.toNat + 2 * number bits).testBit 0 = b := by
        rw [Nat.testBit_zero, Nat.add_mul_mod_self_left]
        cases b <;> rfl
      rw [List.length_cons, number, write_succ, hhalf, ih, hbit]

lemma ofByte_pack {bits : List Bool} (h : bits.length = 8) :
    ofByte (UInt8.ofNat (number bits)) = bits := by
  have hlt := number_lt bits
  rw [h] at hlt
  have hbyte : (UInt8.ofNat (number bits)).toNat = number bits := by
    rw [UInt8.toNat_ofNat']
    exact Nat.mod_eq_of_lt hlt
  have hwrite : ofByte (UInt8.ofNat (number bits)) = write 8 (number bits) := by
    rw [ofByte, hbyte, write]
  rw [hwrite, ← h, write_number]

/-- **Bits packed are the bits of their bytes**, where they fill them. -/
theorem ofBytes_pack (bits : List Bool) (h : 8 ∣ bits.length) : ofBytes (pack bits) = bits := by
  fun_induction pack bits with
  | case1 a b c d e f g i bits ih =>
      have hrest : 8 ∣ bits.length := by
        simp only [List.length_cons] at h
        omega
      rw [ofBytes, List.flatMap_cons, ofByte_pack rfl]
      exact congrArg ([a, b, c, d, e, f, g, i] ++ ·) (ih hrest)
  | case2 bits hshort =>
      rcases bits with _ | ⟨a, _ | ⟨b, _ | ⟨c, _ | ⟨d, _ | ⟨e, _ | ⟨f, _ | ⟨g, _ | ⟨i, bits⟩⟩⟩⟩⟩⟩⟩⟩
      · rfl
      all_goals first
        | exact absurd rfl (hshort _ _ _ _ _ _ _ _ _)
        | (simp only [List.length_cons, List.length_nil] at h; omega)

lemma length_ofBytes (data : List UInt8) : (ofBytes data).length = 8 * data.length := by
  induction data with
  | nil => rfl
  | cons b data ih =>
      rw [ofBytes, List.flatMap_cons, List.length_append, List.length_cons]
      have hb : (ofByte b).length = 8 := by rw [ofByte, List.length_map, List.length_range]
      have hrest : (data.flatMap ofByte).length = 8 * data.length := ih
      omega

lemma getElem?_ofBytes (data : List UInt8) (i : ℕ) :
    (ofBytes data)[i]? = data[i / 8]?.map fun b => b.toNat.testBit (i % 8) := by
  induction data generalizing i with
  | nil => simp [ofBytes]
  | cons b data ih =>
      have hb : (ofByte b).length = 8 := by rw [ofByte, List.length_map, List.length_range]
      rw [ofBytes, List.flatMap_cons]
      rcases Nat.lt_or_ge i 8 with hi | hi
      · rw [List.getElem?_append_left (by omega), Nat.div_eq_of_lt hi, Nat.mod_eq_of_lt hi, ofByte,
          List.getElem?_map, List.getElem?_range hi]
        rfl
      · have hrest := ih (i - 8)
        rw [ofBytes] at hrest
        have hdiv : i / 8 = (i - 8) / 8 + 1 := by omega
        have hmod : i % 8 = (i - 8) % 8 := by omega
        rw [List.getElem?_append_right (by omega), hb, hrest, hdiv, hmod, List.getElem?_cons_succ]

end LsbBits
