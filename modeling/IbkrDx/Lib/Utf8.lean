import Mathlib.Data.UInt
import Mathlib.Data.List.TakeWhile

/-!
# Text in UTF-8

A run of bytes read as text, in the two ways a standard library reads it: strictly, where one byte
out of place leaves no text at all (`decode`), and lossily, where each longest piece that begins no
character is read as the replacement character (`lossy`).  What a text is written as is
`encode`, by the core library's own encoding of a character.

* `decode_encode`, `lossy_encode` — what is written reads back.
* `lossy_append_ascii` — a reading goes apart at an ASCII byte, whatever stands on either side.
* `lossy_ascii`, `exists_not_ascii_lossy` — ASCII bytes are their own characters, and no other
  byte reads as one.
-/

namespace Utf8

def encode (cs : List Char) : List UInt8 := cs.flatMap String.utf8EncodeChar

/-- How many bytes the character has that begins with this byte: none where none does. -/
def width (b : ℕ) : ℕ :=
  if b < 0x80 then 1
  else if b < 0xC2 then 0
  else if b < 0xE0 then 2
  else if b < 0xF0 then 3
  else if b < 0xF5 then 4
  else 0

/-- The least and the greatest byte that may stand second behind this one. -/
def secondRange (b : ℕ) : ℕ × ℕ :=
  if b = 0xE0 then (0xA0, 0xBF)
  else if b = 0xED then (0x80, 0x9F)
  else if b = 0xF0 then (0x90, 0xBF)
  else if b = 0xF4 then (0x80, 0x8F)
  else (0x80, 0xBF)

def second (b c : ℕ) : Bool :=
  decide (2 ≤ width b ∧ (secondRange b).1 ≤ c ∧ c ≤ (secondRange b).2)

def cont (c : UInt8) : Bool := decide (0x80 ≤ c.toNat ∧ c.toNat ≤ 0xBF)

/-- The bytes behind a first one that go on with its character. -/
def tailOf (b : ℕ) : List UInt8 → List UInt8
  | [] => []
  | c :: rest => if second b c.toNat then c :: (rest.take (width b - 2)).takeWhile cont else []

/-- What a first byte holds of its character's number. -/
def lead (b : ℕ) : ℕ := if b < 0x80 then b else b % 2 ^ (7 - width b)

def scalar (b : ℕ) (t : List UInt8) : ℕ := t.foldl (fun v c => 64 * v + c.toNat % 64) (lead b)

/-- The character a first byte begins, where what is behind it completes one. -/
def charOf (b : ℕ) (rest : List UInt8) : Option Char :=
  let t := tailOf b rest
  if t.length + 1 = width b then some (Char.ofNat (scalar b t)) else none

def replacement : Char := Char.ofNat 0xFFFD

def decode : List UInt8 → Option (List Char)
  | [] => some []
  | b :: rest =>
      (charOf b.toNat rest).bind fun c =>
        (decode (rest.drop (tailOf b.toNat rest).length)).map (c :: ·)
termination_by l => l.length
decreasing_by
  simp only [List.length_drop, List.length_cons]
  omega

/-- The text, each piece that begins no character read as the replacement character. -/
def lossy : List UInt8 → List Char
  | [] => []
  | b :: rest =>
      (charOf b.toNat rest).getD replacement :: lossy (rest.drop (tailOf b.toNat rest).length)
termination_by l => l.length
decreasing_by
  simp only [List.length_drop, List.length_cons]
  omega

/-! ## One character -/

variable {b : ℕ}

lemma second_ge {c : ℕ} (h : second b c = true) : 0x80 ≤ c := by
  have h' := of_decide_eq_true h
  have hlo : 0x80 ≤ (secondRange b).1 := by
    unfold secondRange
    split_ifs <;> decide
  omega

lemma tailOf_ge : ∀ {rest : List UInt8} {c : UInt8}, c ∈ tailOf b rest → 0x80 ≤ c.toNat
  | d :: rest, c, h => by
      rw [tailOf] at h
      split at h
      · next hsecond =>
          rcases List.mem_cons.1 h with rfl | h
          · exact second_ge hsecond
          · have hcont : cont c = true := List.mem_takeWhile_imp h
            exact (of_decide_eq_true hcont).1
      · exact absurd h List.not_mem_nil

lemma takeWhile_cont_append {e : UInt8} (he : e.toNat < 0x80) (x y : List UInt8) :
    (x ++ e :: y).takeWhile cont = x.takeWhile cont := by
  have hnot : cont e = false := decide_eq_false (by omega)
  induction x with
  | nil => rw [List.nil_append, List.takeWhile_cons_of_neg (by simp [hnot]), List.takeWhile_nil]
  | cons c x ih =>
      by_cases hc : cont c = true
      · rw [List.cons_append, List.takeWhile_cons_of_pos hc, List.takeWhile_cons_of_pos hc, ih]
      · rw [List.cons_append, List.takeWhile_cons_of_neg hc, List.takeWhile_cons_of_neg hc]

lemma tailOf_append {e : UInt8} (he : e.toNat < 0x80) (b : ℕ) (x y : List UInt8) :
    tailOf b (x ++ e :: y) = tailOf b x := by
  cases x with
  | nil =>
      have hnot : second b e.toNat = false := by
        by_contra h
        have := second_ge (Bool.eq_true_of_not_eq_false h)
        omega
      show tailOf b (e :: y) = []
      rw [tailOf, hnot]
      rfl
  | cons c x =>
      rw [List.cons_append, tailOf, tailOf]
      split
      · rw [List.take_append]
        cases hk : width b - 2 - x.length with
        | zero => rw [List.take_zero, List.append_nil]
        | succ k => rw [List.take_succ_cons, takeWhile_cont_append he]
      · rfl

lemma length_tailOf_le (b : ℕ) (rest : List UInt8) : (tailOf b rest).length ≤ rest.length := by
  cases rest with
  | nil => exact Nat.le_refl 0
  | cons c rest =>
      rw [tailOf]
      split
      · have h := (List.takeWhile_prefix (p := cont) (l := rest.take (width b - 2))).length_le
        rw [List.length_take] at h
        simp only [List.length_cons]
        omega
      · exact Nat.zero_le _

/-- **A reading goes apart at an ASCII byte.** -/
theorem lossy_append_ascii {e : UInt8} (he : e.toNat < 0x80) (x y : List UInt8) :
    lossy (x ++ e :: y) = lossy x ++ lossy (e :: y) := by
  induction hn : x.length using Nat.strong_induction_on generalizing x with
  | _ n ih =>
      subst hn
      cases x with
      | nil => rw [lossy.eq_1]; rfl
      | cons b x =>
          have htail := tailOf_append he b.toNat x y
          have hle := length_tailOf_le b.toNat x
          have hrec := ih (x.drop (tailOf b.toNat x).length).length
            (by rw [List.length_drop, List.length_cons]; omega) _ rfl
          rw [List.cons_append, lossy, lossy, charOf, charOf, htail,
            List.drop_append_of_le_length hle, hrec, List.cons_append]

/-! ## ASCII -/

lemma tailOf_ascii (hb : b < 0x80) (rest : List UInt8) : tailOf b rest = [] := by
  have hwidth : width b = 1 := if_pos hb
  cases rest with
  | nil => rfl
  | cons c rest =>
      have hnot : second b c.toNat = false := decide_eq_false (by omega)
      rw [tailOf, hnot]
      rfl

lemma charOf_ascii (hb : b < 0x80) (rest : List UInt8) :
    charOf b rest = some (Char.ofNat b) := by
  have hwidth : width b = 1 := if_pos hb
  have hlead : lead b = b := if_pos hb
  simp [charOf, tailOf_ascii hb, hwidth, scalar, hlead]

@[simp]
lemma lossy_cons_ascii {b : UInt8} (hb : b.toNat < 0x80) (rest : List UInt8) :
    lossy (b :: rest) = Char.ofNat b.toNat :: lossy rest := by
  rw [lossy, charOf_ascii hb, tailOf_ascii hb, List.length_nil, List.drop_zero, Option.getD_some]

@[simp]
lemma lossy_nil : lossy [] = [] := lossy.eq_1

lemma lossy_ascii : ∀ {l : List UInt8}, (∀ b ∈ l, b.toNat < 0x80) →
    lossy l = l.map fun b => Char.ofNat b.toNat
  | [], _ => lossy_nil
  | b :: l, h => by
      rw [lossy_cons_ascii (h b List.mem_cons_self),
        lossy_ascii fun c hc => h c (List.mem_cons_of_mem b hc), List.map_cons]

lemma tailOf_prefix (b : ℕ) (rest : List UInt8) : tailOf b rest <+: rest := by
  cases rest with
  | nil => exact List.prefix_refl []
  | cons c rest =>
      rw [tailOf]
      split
      · exact List.cons_prefix_cons.2
          ⟨rfl, (List.takeWhile_prefix _).trans (List.take_prefix _ rest)⟩
      · exact List.nil_prefix

lemma tailOf_append_drop (b : ℕ) (rest : List UInt8) :
    tailOf b rest ++ rest.drop (tailOf b rest).length = rest := by
  obtain ⟨t, ht⟩ := tailOf_prefix b rest
  have hdrop : rest.drop (tailOf b rest).length = t := by
    conv_lhs => rw [← ht]
    exact List.drop_left' (by rw [ht])
  rw [hdrop, ht]

lemma toNat_ofNat {n : ℕ} (h : n < 0xD800 ∨ 0xDFFF < n ∧ n < 0x110000) :
    (Char.ofNat n).toNat = n := by
  have hvalid : n.isValidChar := h
  rw [Char.ofNat, dif_pos hvalid]
  rfl

lemma width_cases (hb : 0x80 ≤ b) : width b = 0 ∨
    width b = 2 ∧ 0xC2 ≤ b ∧ b < 0xE0 ∨ width b = 3 ∧ 0xE0 ≤ b ∧ b < 0xF0 ∨
      width b = 4 ∧ 0xF0 ≤ b ∧ b < 0xF5 := by
  unfold width
  split_ifs <;> omega

lemma charOf_ge (hb : 0x80 ≤ b) {rest : List UInt8} {c : Char}
    (h : charOf b rest = some c) : 0x80 ≤ c.toNat := by
  simp only [charOf, Option.ite_none_right_eq_some, Option.some.injEq] at h
  obtain ⟨hlen, rfl⟩ := h
  have hvalid {n : ℕ} (hlow : 0x80 ≤ n) (hn : n < 0xD800 ∨ 0xDFFF < n ∧ n < 0x110000) :
      0x80 ≤ (Char.ofNat n).toNat := by
    rwa [toNat_ofNat hn]
  cases rest with
  | nil =>
      have hwidth := width_cases hb
      rw [tailOf, List.length_nil] at hlen
      omega
  | cons d rest =>
      have hwidth := width_cases hb
      rw [tailOf] at hlen ⊢
      split at hlen
      case isFalse => simp only [List.length_nil] at hlen; omega
      case isTrue hsecond =>
        have hrange := of_decide_eq_true hsecond
        rw [if_pos hsecond]
        generalize (rest.take (width b - 2)).takeWhile cont = t at hlen ⊢
        rw [List.length_cons] at hlen
        unfold secondRange at hrange
        rw [scalar, lead, if_neg (by omega)]
        rcases hwidth with hw | ⟨hw, hlo, hhi⟩ | ⟨hw, hlo, hhi⟩ | ⟨hw, hlo, hhi⟩
        · omega
        · obtain rfl : t = [] := List.eq_nil_of_length_eq_zero (by omega)
          rw [hw, List.foldl_cons, List.foldl_nil]
          refine hvalid ?_ ?_ <;> split_ifs at hrange <;> omega
        · obtain ⟨e, rfl⟩ := List.length_eq_one_iff.1 (show t.length = 1 by omega)
          rw [hw, List.foldl_cons, List.foldl_cons, List.foldl_nil]
          refine hvalid ?_ ?_ <;> split_ifs at hrange <;> omega
        · obtain ⟨e, f, rfl⟩ := List.length_eq_two.1 (show t.length = 2 by omega)
          rw [hw, List.foldl_cons, List.foldl_cons, List.foldl_cons, List.foldl_nil]
          refine hvalid ?_ ?_ <;> split_ifs at hrange <;> omega

lemma getD_charOf_ge (hb : 0x80 ≤ b) (rest : List UInt8) :
    0x80 ≤ ((charOf b rest).getD replacement).toNat := by
  cases h : charOf b rest with
  | none => exact (show 0x80 ≤ replacement.toNat by decide)
  | some c => exact charOf_ge hb h

/-- **ASCII is read off as it stands**: the ASCII characters of a reading are the ASCII bytes. -/
theorem filter_lossy (l : List UInt8) : (lossy l).filter (·.toNat < 0x80)
    = (l.filter (·.toNat < 0x80)).map fun b => Char.ofNat b.toNat := by
  induction hn : l.length using Nat.strong_induction_on generalizing l with
  | _ n ih =>
      subst hn
      cases l with
      | nil => rw [lossy_nil]; rfl
      | cons b l =>
          by_cases hb : b.toNat < 0x80
          · have hchar : (Char.ofNat b.toNat).toNat = b.toNat := by
              exact toNat_ofNat (Or.inl (by omega))
            rw [lossy_cons_ascii hb, List.filter_cons_of_pos (by simpa [hchar] using hb),
              List.filter_cons_of_pos (by simpa using hb), List.map_cons,
              ih l.length (by simp) l rfl]
          · have hge := getD_charOf_ge (Nat.not_lt.1 hb) l
            have hnone : (tailOf b.toNat l).filter (·.toNat < 0x80) = [] := by
              rw [List.filter_eq_nil_iff]
              intro c hc
              have := tailOf_ge hc
              simpa using this
            rw [lossy, List.filter_cons_of_neg (by simpa using hge),
              ih _ (by rw [List.length_drop, List.length_cons]; omega) _ rfl,
              List.filter_cons_of_neg (by simpa using hb)]
            nth_rewrite 3 [← tailOf_append_drop b.toNat l]
            rw [List.filter_append, hnone, List.nil_append]

lemma ascii_of_lossy (l : List UInt8) (h : ∀ c ∈ lossy l, c.toNat < 0x80) :
    ∀ b ∈ l, b.toNat < 0x80 := by
  induction l with
  | nil => simp
  | cons b l ih =>
      have hb : b.toNat < 0x80 := by
        by_contra hge
        rw [lossy] at h
        have := getD_charOf_ge (Nat.not_lt.1 hge) l
        have := h _ List.mem_cons_self
        omega
      rw [lossy_cons_ascii hb] at h
      exact List.forall_mem_cons.2 ⟨hb, ih fun c hc => h c (List.mem_cons_of_mem _ hc)⟩

/-! ## What is written reads back -/

lemma tailOf_eq {c : UInt8} {t : List UInt8} (hc : second b c.toNat = true)
    (ht : ∀ d ∈ t, cont d = true) (hlen : t.length = width b - 2) (rest : List UInt8) :
    tailOf b (c :: (t ++ rest)) = c :: t := by
  rw [tailOf, if_pos hc, List.take_left' hlen, List.takeWhile_eq_self_iff.2 ht]

lemma utf8EncodeChar_eq (c : Char) : ∃ b t, String.utf8EncodeChar c = b :: t ∧
    (∀ rest, tailOf b.toNat (t ++ rest) = t) ∧ t.length + 1 = width b.toNat ∧
      scalar b.toNat t = c.toNat := by
  have hv : c.toNat = c.val.toNat := rfl
  have hvalid : c.val.toNat < 0xD800 ∨ 0xDFFF < c.val.toNat ∧ c.val.toNat < 0x110000 := c.valid
  unfold String.utf8EncodeChar
  simp only
  rw [hv]
  generalize c.val.toNat = v at hvalid ⊢
  split_ifs with h1 h2 h3
  · have hb : (UInt8.ofNat v).toNat = v := by simp; omega
    refine ⟨_, [], rfl, fun rest => ?_, ?_, ?_⟩
    · rw [hb]
      exact tailOf_ascii (by omega) _
    · rw [hb, width, if_pos (by omega), List.length_nil]
    · rw [hb, scalar, List.foldl_nil, lead, if_pos (by omega)]
  · have hb : (UInt8.ofNat (v / 64 % 0x20 + 0xC0)).toNat = v / 64 + 0xC0 := by simp; omega
    have hc : (UInt8.ofNat (v % 0x40 + 0x80)).toNat = v % 0x40 + 0x80 := by simp; omega
    have hwidth : width (v / 64 + 0xC0) = 2 := by
      unfold width
      split_ifs <;> omega
    have hrange : secondRange (v / 64 + 0xC0) = (0x80, 0xBF) := by
      unfold secondRange
      split_ifs <;> first | rfl | omega
    refine ⟨_, [_], rfl, fun rest => ?_, ?_, ?_⟩
    · rw [hb]
      refine tailOf_eq ?_ (by simp) (by simp [hwidth]) rest
      rw [second, hc, hwidth, hrange]
      exact decide_eq_true (by omega)
    · rw [hb, hwidth, List.length_singleton]
    · rw [hb, scalar, List.foldl_cons, List.foldl_nil, hc, lead, if_neg (by omega), hwidth]
      omega
  · have hb : (UInt8.ofNat (v / 4096 % 0x10 + 0xE0)).toNat = v / 4096 + 0xE0 := by simp; omega
    have hc : (UInt8.ofNat (v / 64 % 0x40 + 0x80)).toNat = v / 64 % 0x40 + 0x80 := by simp; omega
    have hd : (UInt8.ofNat (v % 0x40 + 0x80)).toNat = v % 0x40 + 0x80 := by simp; omega
    have hwidth : width (v / 4096 + 0xE0) = 3 := by
      unfold width
      split_ifs <;> omega
    refine ⟨_, [_, _], rfl, fun rest => ?_, ?_, ?_⟩
    · rw [hb]
      refine tailOf_eq (t := [_]) ?_ ?_ (by simp [hwidth]) rest
      · rw [second, hc, hwidth]
        refine decide_eq_true ?_
        unfold secondRange
        split_ifs <;> omega
      · intro d hmem
        rw [List.mem_singleton.1 hmem, cont, hd]
        exact decide_eq_true (by omega)
    · rw [hb, hwidth]
      rfl
    · rw [hb, scalar, List.foldl_cons, List.foldl_cons, List.foldl_nil, hc, hd, lead,
        if_neg (by omega), hwidth]
      omega
  · have hb : (UInt8.ofNat (v / 262144 % 0x08 + 0xF0)).toNat = v / 262144 + 0xF0 := by simp; omega
    have hc : (UInt8.ofNat (v / 4096 % 0x40 + 0x80)).toNat = v / 4096 % 0x40 + 0x80 := by
      simp; omega
    have hd : (UInt8.ofNat (v / 64 % 0x40 + 0x80)).toNat = v / 64 % 0x40 + 0x80 := by simp; omega
    have he : (UInt8.ofNat (v % 0x40 + 0x80)).toNat = v % 0x40 + 0x80 := by simp; omega
    have hwidth : width (v / 262144 + 0xF0) = 4 := by
      unfold width
      split_ifs <;> omega
    refine ⟨_, [_, _, _], rfl, fun rest => ?_, ?_, ?_⟩
    · rw [hb]
      refine tailOf_eq (t := [_, _]) ?_ ?_ (by simp [hwidth]) rest
      · rw [second, hc, hwidth]
        refine decide_eq_true ?_
        unfold secondRange
        split_ifs <;> omega
      · intro d hmem
        rcases List.mem_cons.1 hmem with rfl | hmem
        · rw [cont, hd]
          exact decide_eq_true (by omega)
        · rw [List.mem_singleton.1 hmem, cont, he]
          exact decide_eq_true (by omega)
    · rw [hb, hwidth]
      rfl
    · rw [hb, scalar, List.foldl_cons, List.foldl_cons, List.foldl_cons, List.foldl_nil, hc, hd, he,
        lead, if_neg (by omega), hwidth]
      omega

section

variable (c : Char) (rest : List UInt8)

lemma lossy_encodeChar : lossy (String.utf8EncodeChar c ++ rest) = c :: lossy rest := by
  obtain ⟨b, t, heq, htail, hwidth, hscalar⟩ := utf8EncodeChar_eq c
  rw [heq, List.cons_append, lossy, charOf]
  simp only [htail, hwidth, if_true, hscalar, List.drop_left, Option.getD_some, Char.ofNat_toNat]

lemma decode_encodeChar :
    decode (String.utf8EncodeChar c ++ rest) = (decode rest).map (c :: ·) := by
  obtain ⟨b, t, heq, htail, hwidth, hscalar⟩ := utf8EncodeChar_eq c
  rw [heq, List.cons_append, decode, charOf]
  simp only [htail, hwidth, if_true, hscalar, List.drop_left, Option.bind_some, Char.ofNat_toNat]

end

/-- **A text reads back**, lossily or strictly. -/
theorem lossy_encode : ∀ cs : List Char, lossy (encode cs) = cs
  | [] => lossy_nil
  | c :: cs => by
      rw [encode, List.flatMap_cons, lossy_encodeChar]
      exact congrArg (c :: ·) (lossy_encode cs)

theorem decode_encode : ∀ cs : List Char, decode (encode cs) = some cs
  | [] => decode.eq_1
  | c :: cs => by
      rw [encode, List.flatMap_cons, decode_encodeChar]
      exact congrArg (Option.map (c :: ·)) (decode_encode cs)

lemma encode_ascii : ∀ {l : List UInt8}, (∀ b ∈ l, b.toNat < 0x80) →
    encode (l.map fun b => Char.ofNat b.toNat) = l
  | [], _ => rfl
  | b :: l, h => by
      have hb := h b List.mem_cons_self
      have hv : (Char.ofNat b.toNat).val.toNat = b.toNat := toNat_ofNat (Or.inl (by omega))
      have hrec := encode_ascii fun c hc => h c (List.mem_cons_of_mem b hc)
      rw [List.map_cons, encode, List.flatMap_cons, String.utf8EncodeChar, if_pos (by rw [hv]; omega),
        hv]
      exact congrArg₂ (· :: ·) UInt8.ofNat_toNat hrec

lemma exists_mem_encodeChar {c : Char} (h : 0x80 ≤ c.toNat) :
    ∃ b ∈ String.utf8EncodeChar c, 0x80 ≤ b.toNat := by
  obtain ⟨b, t, heq, -, hwidth, hscalar⟩ := utf8EncodeChar_eq c
  refine ⟨b, heq ▸ List.mem_cons_self, ?_⟩
  by_contra hlt
  have hone : width b.toNat = 1 := if_pos (by omega)
  have hlead : lead b.toNat = b.toNat := if_pos (by omega)
  obtain rfl : t = [] := List.eq_nil_of_length_eq_zero (by omega)
  rw [scalar, List.foldl_nil, hlead] at hscalar
  omega

end Utf8
