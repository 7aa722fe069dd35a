import IbkrDx.Lib.BigEndian
import IbkrDx.Protocol.Fix

/-!
# The password exchange

`auth/srp.rs` with `strip_leading_zeros` of `auth/crypto.rs`.  Both sides derive one secret: the
client from the server's public value less the verifier's share of it, the server from the client's
public value and the verifier.

* **`secrets_agree`** — the two sides' secrets are one, and what is hashed depends on the numbers.

The hash is a parameter.
-/

namespace IbkrDx.Srp

/-! ## Bytes -/

/-- `strip_leading_zeros`: the last byte stays, whatever it is. -/
def stripLeadingZeros : Bytes → Bytes
  | [] => []
  | [b] => [b]
  | b :: c :: bs => if b = 0 then stripLeadingZeros (c :: bs) else b :: c :: bs

def fromBytesBe (bs : Bytes) : ℕ := BigEndian.ofBe bs

/-- `BigUint::to_bytes_be`: no nought in front, and one byte for nought. -/
def toBytesBe (n : ℕ) : Bytes :=
  if n = 0 then [0] else ((Nat.digits 256 n).map Nat.toUInt8).reverse

/-! ## The exchange -/

def modpow (base exp n : ℕ) : ℕ := base ^ exp % n

/-- A difference of two numbers without signs. -/
def checkedSub (a b : ℕ) : Option ℕ := if b ≤ a then some (a - b) else none

def srpComputeS (bPub aPriv u x n g k : ℕ) : Option ℕ := do
  let gx := modpow g x n
  let kgx := (k * gx) % n
  let difference ← if bPub > kgx then checkedSub bPub kgx else checkedSub (bPub + n) kgx
  return modpow (difference % n) (aPriv + u * x) n

def hashed (n : ℕ) : Bytes := stripLeadingZeros (toBytesBe n)

section

variable (sha1 : Bytes → Bytes)

def srpComputeX (salt username password : Bytes) : ℕ :=
  fromBytesBe (sha1 (stripLeadingZeros salt ++ sha1 (username ++ [58] ++ password)))

/-- What is hashed for `u`. -/
def hashedU (a b : ℕ) : Bytes := hashed a ++ hashed b

def srpComputeU (a b : ℕ) : ℕ := fromBytesBe (sha1 (hashedU a b))

/-- What is hashed for `K`. -/
def hashedK (s : ℕ) : Bytes := hashed s

def srpComputeK (s : ℕ) : ℕ := fromBytesBe (sha1 (hashedK s))

/-- What is hashed for `M1`. -/
def hashedM1 (n g : ℕ) (username : Bytes) (salt aPub bPub k : ℕ) : Bytes :=
  List.zipWith (· ^^^ ·) (sha1 (hashed n)) (sha1 (hashed g)) ++ sha1 username ++ hashed salt ++
    hashed aPub ++ hashed bPub ++ hashed k

def srpComputeM1 (n g : ℕ) (username : Bytes) (salt aPub bPub k : ℕ) : ℕ :=
  fromBytesBe (sha1 (hashedM1 sha1 n g username salt aPub bPub k))

/-- What is hashed for `M2`. -/
def hashedM2 (aPub m1 k : ℕ) : Bytes := hashed aPub ++ hashed m1 ++ hashed k

def srpComputeM2 (aPub m1 k : ℕ) : ℕ := fromBytesBe (sha1 (hashedM2 aPub m1 k))

end

/-! ## One secret -/

lemma exists_base {n : ℕ} (hn : 0 < n) (bPub aPriv u x g k : ℕ) :
    ∃ base, base + k * modpow g x n ≡ bPub [MOD n] ∧
      srpComputeS bPub aPriv u x n g k = some (modpow base (aPriv + u * x) n) := by
  have hlt : (k * modpow g x n) % n < n := Nat.mod_lt _ hn
  have hraise (d : ℕ) : modpow (d % n) (aPriv + u * x) n = modpow d (aPriv + u * x) n :=
    (Nat.pow_mod d _ n).symm
  have hshare (d : ℕ) : d + k * modpow g x n ≡ d + (k * modpow g x n) % n [MOD n] :=
    (Nat.mod_modEq _ n).symm.add_left d
  unfold srpComputeS checkedSub
  dsimp only
  by_cases hgt : bPub > (k * modpow g x n) % n
  · have hle : (k * modpow g x n) % n ≤ bPub := Nat.le_of_lt hgt
    refine ⟨bPub - (k * modpow g x n) % n, ?_, ?_⟩
    · have hback := hshare (bPub - (k * modpow g x n) % n)
      rwa [Nat.sub_add_cancel hle] at hback
    · rw [if_pos hgt, if_pos hle, Option.bind_eq_bind, Option.bind_some, hraise]
      rfl
  · have hle : (k * modpow g x n) % n ≤ bPub + n := by omega
    refine ⟨bPub + n - (k * modpow g x n) % n, ?_, ?_⟩
    · have hback := hshare (bPub + n - (k * modpow g x n) % n)
      rw [Nat.sub_add_cancel hle] at hback
      exact hback.trans (Nat.add_modEq_right)
    · rw [if_neg hgt, if_pos hle, Option.bind_eq_bind, Option.bind_some, hraise]
      rfl

lemma srpComputeS_eq {n : ℕ} (hn : 0 < n) (g x u k a b : ℕ) :
    srpComputeS ((k * modpow g x n + modpow g b n) % n) a u x n g k =
      some (modpow (modpow g a n * modpow (modpow g x n) u n) b n) := by
  obtain ⟨base, hbase, hs⟩ := exists_base hn ((k * modpow g x n + modpow g b n) % n) a u x g k
  have hpow (c e : ℕ) : modpow c e n ≡ c ^ e [MOD n] := Nat.mod_modEq _ _
  have hown : base ≡ g ^ b [MOD n] := by
    have hsum : base + k * modpow g x n ≡ g ^ b + k * modpow g x n [MOD n] :=
      calc base + k * modpow g x n
          ≡ k * modpow g x n + modpow g b n [MOD n] := hbase.trans (Nat.mod_modEq _ _)
        _ ≡ k * modpow g x n + g ^ b [MOD n] := (hpow g b).add_left _
        _ = g ^ b + k * modpow g x n := Nat.add_comm _ _
    exact Nat.ModEq.add_right_cancel' _ hsum
  have hsecret : modpow g a n * modpow (modpow g x n) u n ≡ g ^ (a + u * x) [MOD n] :=
    calc modpow g a n * modpow (modpow g x n) u n
        ≡ g ^ a * (g ^ x) ^ u [MOD n] :=
          (hpow g a).mul ((hpow (modpow g x n) u).trans ((hpow g x).pow u))
      _ = g ^ (a + u * x) := by rw [← pow_mul, ← pow_add, Nat.mul_comm x u]
  rw [hs]
  refine congrArg some ?_
  have hboth : base ^ (a + u * x) ≡ (modpow g a n * modpow (modpow g x n) u n) ^ b [MOD n] :=
    calc base ^ (a + u * x)
        ≡ (g ^ b) ^ (a + u * x) [MOD n] := hown.pow _
      _ = (g ^ (a + u * x)) ^ b := by rw [← pow_mul, ← pow_mul, Nat.mul_comm]
      _ ≡ (modpow g a n * modpow (modpow g x n) u n) ^ b [MOD n] := hsecret.symm.pow b
  exact hboth

/-! ## A number's bytes -/

lemma strip_zero_cons {bs : Bytes} (h : bs ≠ []) :
    stripLeadingZeros (0 :: bs) = stripLeadingZeros bs := by
  obtain ⟨b, rest, rfl⟩ := List.exists_cons_of_ne_nil h
  rw [stripLeadingZeros, if_pos rfl]

lemma fromBytesBe_zero_cons (bs : Bytes) : fromBytesBe (0 :: bs) = fromBytesBe bs := rfl

lemma strip_of_head {b : UInt8} (h : b ≠ 0) (bs : Bytes) :
    stripLeadingZeros (b :: bs) = b :: bs := by
  cases bs with
  | nil => rfl
  | cons c bs => rw [stripLeadingZeros, if_neg h]

lemma fromBytesBe_eq_ofDigits (bs : Bytes) :
    fromBytesBe bs = Nat.ofDigits 256 (bs.reverse.map UInt8.toNat) := by
  induction bs using List.reverseRecOn with
  | nil => rfl
  | append_singleton bs b ih =>
      rw [fromBytesBe, BigEndian.ofBe, List.foldl_append, List.reverse_append,
        List.reverse_singleton, List.singleton_append, List.map_cons, Nat.ofDigits_cons, ← ih,
        fromBytesBe, BigEndian.ofBe]
      exact (Nat.add_comm _ _).trans (congrArg _ (Nat.mul_comm _ _))

lemma toBytesBe_fromBytesBe {b : UInt8} (h : b ≠ 0) (bs : Bytes) :
    toBytesBe (fromBytesBe (b :: bs)) = b :: bs := by
  have hsmall : ∀ d ∈ (b :: bs).reverse.map UInt8.toNat, d < 256 := by
    intro d hd
    obtain ⟨c, -, rfl⟩ := List.mem_map.1 hd
    exact c.toNat_lt
  have hlast : ∀ hne : (b :: bs).reverse.map UInt8.toNat ≠ [],
      ((b :: bs).reverse.map UInt8.toNat).getLast hne ≠ 0 := by
    intro hne hcon
    rw [List.getLast_map, List.getLast_reverse] at hcon
    exact h (UInt8.toNat_inj.1 hcon)
  have hdigits : Nat.digits 256 (fromBytesBe (b :: bs)) =
      (b :: bs).reverse.map UInt8.toNat := by
    rw [fromBytesBe_eq_ofDigits]
    exact Nat.digits_ofDigits 256 (by decide) _ hsmall hlast
  have hpos : fromBytesBe (b :: bs) ≠ 0 := by
    intro hcon
    rw [hcon, Nat.digits_zero, List.map_reverse] at hdigits
    exact absurd hdigits.symm (by simp)
  have hback : ((b :: bs).reverse.map UInt8.toNat).map Nat.toUInt8 = (b :: bs).reverse := by
    rw [List.map_map]
    exact (List.map_congr_left fun c _ => UInt8.ofNat_toNat).trans (List.map_id _)
  rw [toBytesBe, if_neg hpos, hdigits, hback, List.reverse_reverse]

lemma strip_eq_toBytesBe {bs : Bytes} (h : bs ≠ []) :
    stripLeadingZeros bs = toBytesBe (fromBytesBe bs) := by
  induction bs with
  | nil => exact absurd rfl h
  | cons b bs ih =>
      by_cases hb : b = 0
      · subst hb
        cases bs with
        | nil => rfl
        | cons c bs => rw [strip_zero_cons (List.cons_ne_nil c bs), ih (List.cons_ne_nil c bs),
            fromBytesBe_zero_cons]
      · rw [strip_of_head hb, toBytesBe_fromBytesBe hb]

lemma hashed_fromBytesBe {bs : Bytes} (h : bs ≠ []) :
    hashed (fromBytesBe bs) = stripLeadingZeros bs := by
  have hagain : ∀ bs : Bytes, stripLeadingZeros (stripLeadingZeros bs) = stripLeadingZeros bs := by
    intro bs
    induction bs with
    | nil => rfl
    | cons b bs ih =>
        by_cases hb : b = 0
        · subst hb
          cases bs with
          | nil => rfl
          | cons c bs => rw [strip_zero_cons (List.cons_ne_nil c bs), ih]
        · rw [strip_of_head hb, strip_of_head hb]
  rw [hashed, ← strip_eq_toBytesBe h, hagain]

lemma fromBytesBe_replicate (zeros : ℕ) (bs : Bytes) :
    fromBytesBe (List.replicate zeros 0 ++ bs) = fromBytesBe bs := by
  induction zeros with
  | zero => rfl
  | succ zeros ih => rw [List.replicate_succ, List.cons_append, fromBytesBe_zero_cons, ih]

/-! ## The exchange -/

/-- Values spelled by a peer, each with as many noughts in front as it likes. -/
structure Spelled where
  zeros : ℕ
  bytes : Bytes
  nonempty : bytes ≠ []

namespace Spelled

def text (s : Spelled) : Bytes := List.replicate s.zeros 0 ++ s.bytes

def number (s : Spelled) : ℕ := fromBytesBe s.text

lemma number_eq (s : Spelled) : s.number = fromBytesBe s.bytes := fromBytesBe_replicate _ _

lemma hashed_number (s : Spelled) : hashed s.number = stripLeadingZeros s.bytes := by
  rw [number_eq, hashed_fromBytesBe s.nonempty]

end Spelled

/-- **Client and server derive one secret**: the client's is the server's, and is a number for any
public value; and what is hashed for `u`, `K`, `M1` and `M2` is what the bytes of the numbers are,
whatever noughts a spelling of them carried. -/
theorem secrets_agree (n : ℕ) (hn : 1 < n) (g x u k a b : ℕ) (sha1 : Bytes → Bytes) :
    srpComputeS ((k * modpow g x n + modpow g b n) % n) a u x n g k =
      some (modpow (modpow g a n * modpow (modpow g x n) u n) b n) ∧
    (∀ bPub, (srpComputeS bPub a u x n g k).isSome) ∧
    (∀ aPub bPub : Spelled, hashedU aPub.number bPub.number =
      stripLeadingZeros aPub.bytes ++ stripLeadingZeros bPub.bytes) ∧
    (∀ s : Spelled, hashedK s.number = stripLeadingZeros s.bytes) ∧
    (∀ (n g salt aPub bPub k : Spelled) (username : Bytes),
      hashedM1 sha1 n.number g.number username salt.number aPub.number bPub.number k.number =
        List.zipWith (· ^^^ ·) (sha1 (stripLeadingZeros n.bytes))
            (sha1 (stripLeadingZeros g.bytes)) ++
          sha1 username ++ stripLeadingZeros salt.bytes ++ stripLeadingZeros aPub.bytes ++
          stripLeadingZeros bPub.bytes ++ stripLeadingZeros k.bytes) ∧
    ∀ aPub m1 k : Spelled, hashedM2 aPub.number m1.number k.number =
      stripLeadingZeros aPub.bytes ++ stripLeadingZeros m1.bytes ++ stripLeadingZeros k.bytes := by
  have hpos : 0 < n := Nat.lt_trans Nat.zero_lt_one hn
  refine ⟨srpComputeS_eq hpos g x u k a b, fun bPub => ?_, fun aPub bPub => ?_,
    fun s => s.hashed_number, fun n g salt aPub bPub k username => ?_, fun aPub m1 k => ?_⟩
  · obtain ⟨base, -, hs⟩ := exists_base hpos bPub a u x g k
    rw [hs]
    rfl
  · rw [hashedU, aPub.hashed_number, bPub.hashed_number]
  · rw [hashedM1, n.hashed_number, g.hashed_number, salt.hashed_number, aPub.hashed_number,
      bPub.hashed_number, k.hashed_number]
  · rw [hashedM2, aPub.hashed_number, m1.hashed_number, k.hashed_number]

theorem secrets_agree_small :
    srpComputeS ((3 * modpow 5 2 23 + modpow 5 6 23) % 23) 4 3 2 23 5 3 =
      some (modpow (modpow 5 4 23 * modpow (modpow 5 2 23) 3 23) 6 23) :=
  (secrets_agree 23 (by decide) 5 2 3 3 4 6 id).1

end IbkrDx.Srp
