import IbkrDx.Protocol.BitReader

/-!
# The bit reader, step by step

`BitReader` of `protocol/tick_decoder/mod.rs` once more, with every step that could stop the program
checked: a shift by as many bits as the word has, a piece of the bytes that is not there, a
difference that would go below nought.  `none` is a stopped program.

* **`BitReader.reads_bit_by_bit`** — no step stops it, and what it reads is the next bits, one after
  the other.
-/

namespace IbkrDx

open BookBits (number)

namespace BitReader

/-! ## Checked steps -/

def subChecked (a b : ℕ) : Option ℕ := if b ≤ a then some (a - b) else none

def shlChecked (word n : ℕ) : Option ℕ := if n < 64 then some (shl64 word n) else none

def shrChecked (word n : ℕ) : Option ℕ := if n < 64 then some (word >>> n) else none

def pieceChecked (data : Bytes) (start stop : ℕ) : Option Bytes :=
  if start ≤ stop ∧ stop ≤ data.length then some ((data.drop start).take (stop - start)) else none

/-- The word eight bytes state; no other number of bytes becomes one. -/
def wordChecked (bs : Bytes) : Option ℕ :=
  if bs.length = 8 then some (BigEndian.ofBe bs) else none

/-- Eight noughts with the first `n` written over by as many bytes. -/
def copyChecked (n : ℕ) (src : Bytes) : Option Bytes :=
  if n ≤ 8 ∧ src.length = n then some (src ++ List.replicate (8 - n) 0) else none

/-! ## The reader -/

def loadHere (data : Bytes) (byteIdx remainingBytes : ℕ) : Option ℕ :=
  if 8 ≤ remainingBytes then do
    wordChecked (← pieceChecked data byteIdx (byteIdx + 8))
  else do
    wordChecked (← copyChecked remainingBytes (← pieceChecked data byteIdx data.length))

/-- `load_be`: the word at a place that may lie behind the bytes. -/
def loadChecked (data : Bytes) (off : ℕ) : Option ℕ :=
  let rem := data.length - off
  if 8 ≤ rem then do
    wordChecked (← pieceChecked data off (off + 8))
  else if 0 < rem then do
    wordChecked (← copyChecked rem (← pieceChecked data off (off + rem)))
  else some 0

/-- What is read once enough bits are known to remain. -/
def unsignedChecked (data : Bytes) (byteIdx bitOffset n : ℕ) : Option ℕ := do
  let needed := bitOffset + n
  let remainingBytes ← subChecked data.length byteIdx
  if needed ≤ 64 then
    let word ← loadHere data byteIdx remainingBytes
    shrChecked (← shlChecked word bitOffset) (← subChecked 64 n)
  else
    let hi ← loadChecked data byteIdx
    let lo ← loadChecked data (byteIdx + 8)
    let hiBits ← subChecked 64 bitOffset
    let loBits ← subChecked n hiBits
    let front ← shrChecked (← shlChecked hi bitOffset) (← subChecked 64 n)
    let behind ← shrChecked lo (← subChecked 64 loBits)
    return front ||| behind

/-- `read_unsigned`: what it gives and the reader it leaves. -/
def readChecked (r : BitReader) (n : ℕ) : Option (Option ℕ × BitReader) :=
  if n = 0 then some (some 0, r)
  else if 64 < n ∨ r.totalBits < r.bitPos + n then some (none, r)
  else (unsignedChecked r.data (r.bitPos / 8) (r.bitPos % 8) n).map fun v => (some v, r.advance n)

/-- `skip`: whether so many bits remained, and the reader it leaves. -/
def skipChecked (r : BitReader) (n : ℕ) : Bool × BitReader :=
  if r.remaining < n then (false, r) else (true, r.advance n)

inductive Reached (data : Bytes) (totalBits : ℕ) : BitReader → Prop
  | new : Reached data totalBits (new data totalBits)
  | skip {r : BitReader} (n : ℕ) (h : Reached data totalBits r) :
      Reached data totalBits (r.skipChecked n).2
  | read {r r' : BitReader} {v : Option ℕ} (n : ℕ) (h : Reached data totalBits r)
      (hread : r.readChecked n = some (v, r')) : Reached data totalBits r'

/-- How many bits of some bytes a bound lets be read; nought stands for all there are. -/
def bound (data : Bytes) (totalBits : ℕ) : ℕ :=
  if 0 < totalBits then min totalBits (data.length * 8) else data.length * 8

/-! ## No step stops -/

lemma subChecked_of_le {a b : ℕ} (h : b ≤ a) : subChecked a b = some (a - b) := if_pos h

variable {n : ℕ}

lemma shlChecked_of_lt (h : n < 64) (word : ℕ) : shlChecked word n = some (shl64 word n) :=
  if_pos h

lemma shrChecked_of_lt (h : n < 64) (word : ℕ) : shrChecked word n = some (word >>> n) :=
  if_pos h

variable {data : Bytes}

lemma whole_word {off : ℕ} (h : off + 8 ≤ data.length) :
    (do wordChecked (← pieceChecked data off (off + 8))) = some (loadBe data off) := by
  have hthere : off ≤ off + 8 ∧ off + 8 ≤ data.length := ⟨Nat.le_add_right _ _, h⟩
  have hwide : off + 8 - off = 8 := Nat.add_sub_cancel_left off 8
  have hnone : 8 - (data.length - off) = 0 := by omega
  have hlen : ((data.drop off).take 8).length = 8 := by
    rw [List.length_take, List.length_drop]
    omega
  rw [pieceChecked, if_pos hthere, hwide, Option.bind_eq_bind, Option.bind_some, wordChecked,
    if_pos hlen, loadBe, wordBytes, hnone, List.replicate_zero, List.append_nil]

lemma part_word {off stop : ℕ} (hoff : off ≤ data.length)
    (hstop : stop = data.length) (hfew : data.length - off < 8) :
    (do wordChecked (← copyChecked (data.length - off) (← pieceChecked data off stop))) =
      some (loadBe data off) := by
  subst hstop
  have hall : (data.drop off).take (data.length - off) = data.drop off := by
    rw [← List.length_drop, List.take_length]
  have height : (data.drop off).take 8 = data.drop off :=
    List.take_of_length_le (by rw [List.length_drop]; omega)
  have hcopy : data.length - off ≤ 8 ∧ (data.drop off).length = data.length - off :=
    ⟨Nat.le_of_lt hfew, List.length_drop⟩
  have hlen : (data.drop off ++ List.replicate (8 - (data.length - off)) 0).length = 8 := by
    rw [List.length_append, List.length_drop, List.length_replicate]
    omega
  rw [pieceChecked, if_pos ⟨hoff, Nat.le_refl _⟩, hall, Option.bind_eq_bind, Option.bind_some,
    copyChecked, if_pos hcopy, Option.bind_some, wordChecked, if_pos hlen, loadBe, wordBytes,
    height]

lemma loadHere_eq {off : ℕ} (h : off ≤ data.length) :
    loadHere data off (data.length - off) = some (loadBe data off) := by
  rw [loadHere]
  split
  case isTrue hwhole => exact whole_word (by omega)
  case isFalse hfew => exact part_word h rfl (by omega)

lemma loadChecked_eq (data : Bytes) (off : ℕ) :
    loadChecked data off = some (loadBe data off) := by
  simp only [loadChecked]
  split
  case isTrue hwhole => exact whole_word (by omega)
  case isFalse hfew =>
    split
    case isTrue hsome => exact part_word (by omega) (by omega) (by omega)
    case isFalse hnone =>
      -- behind the bytes there are only noughts
      have hdrop : data.drop off = [] := List.drop_of_length_le (by omega)
      have hzero : data.length - off = 0 := by omega
      rw [loadBe, wordBytes, hdrop, hzero]
      rfl

variable {r : BitReader}

lemma unsignedChecked_eq (hpos : 0 < n) (hn : n ≤ 64)
    (h : r.bitPos + n ≤ r.totalBits) :
    unsignedChecked r.data (r.bitPos / 8) (r.bitPos % 8) n = some (r.unsignedAt n) := by
  have hfits := r.fits
  have hoff : r.bitPos % 8 < 64 := by omega
  have hin : r.bitPos / 8 ≤ r.data.length := by omega
  have hshift : 64 - n < 64 := by omega
  rw [unsignedChecked, subChecked_of_le hin, Option.bind_eq_bind, Option.bind_some, unsignedAt]
  split
  case isTrue hone =>
    rw [loadHere_eq hin, Option.bind_some, shlChecked_of_lt hoff, Option.bind_some,
      subChecked_of_le hn, Option.bind_some, shrChecked_of_lt hshift]
  case isFalse htwo =>
    have hhead : 64 - r.bitPos % 8 ≤ n := by omega
    have htail : n - (64 - r.bitPos % 8) ≤ 64 := by omega
    have hlast : 64 - (n - (64 - r.bitPos % 8)) < 64 := by omega
    rw [loadChecked_eq, Option.bind_some, loadChecked_eq, Option.bind_some,
      subChecked_of_le hoff.le, Option.bind_some, subChecked_of_le hhead, Option.bind_some,
      shlChecked_of_lt hoff, Option.bind_some, subChecked_of_le hn, Option.bind_some,
      shrChecked_of_lt hshift, Option.bind_some, subChecked_of_le htail, Option.bind_some,
      shrChecked_of_lt hlast, Option.bind_some]
    rfl

/-! ## What is read -/

lemma readChecked_eq (hin : r.bitPos ≤ r.totalBits) (hn : n ≤ 64) :
    r.readChecked n = some (if n ≤ r.remaining then (some (number 0 (r.unread.take n)), r.advance n)
      else (none, r)) := by
  rw [readChecked]
  split
  case isTrue hzero =>
    subst hzero
    rw [if_pos (Nat.zero_le _), List.take_zero]
    rfl
  case isFalse hpos =>
    have hsplit : r.unread = r.unread.take n ++ r.unread.drop n := (List.take_append_drop _ _).symm
    split
    case isTrue hfew =>
      rw [if_neg]
      rw [remaining]
      omega
    case isFalse henough =>
      have hleft : n ≤ r.remaining := by
        rw [remaining]
        omega
      have hlen : (r.unread.take n).length = n := by
        rw [List.length_take, length_unread, min_eq_left hleft]
      have hne : r.unread.take n ≠ [] := List.ne_nil_of_length_pos (by omega)
      have hvalue := unsignedAt_eq hsplit hne (hlen.le.trans hn)
      rw [hlen] at hvalue
      rw [unsignedChecked_eq (by omega) hn (by omega), Option.map_some, if_pos hleft, hvalue]

structure OnItsWay (data : Bytes) (totalBits : ℕ) (r : BitReader) : Prop where
  data_eq : r.data = data
  totalBits_eq : r.totalBits = bound data totalBits
  bitPos_le : r.bitPos ≤ r.totalBits

lemma OnItsWay.advance {totalBits : ℕ}
    (h : OnItsWay data totalBits r) (hn : n ≤ r.remaining) :
    OnItsWay data totalBits (r.advance n) := by
  refine ⟨h.data_eq, h.totalBits_eq, ?_⟩
  have hle := h.bitPos_le
  rw [remaining] at hn
  show r.bitPos + n ≤ r.totalBits
  omega

lemma readChecked_cases {r' : BitReader} {v : Option ℕ}
    (h : r.readChecked n = some (v, r')) : r' = r ∨ (n ≤ r.remaining ∧ r' = r.advance n) := by
  rw [readChecked] at h
  split at h
  case isTrue hzero => exact .inl (Prod.mk.inj (Option.some.inj h)).2.symm
  case isFalse hpos =>
    split at h
    case isTrue hfew => exact .inl (Prod.mk.inj (Option.some.inj h)).2.symm
    case isFalse henough =>
      obtain ⟨v', -, hv⟩ := Option.map_eq_some_iff.1 h
      refine .inr ⟨?_, (Prod.mk.inj hv).2.symm⟩
      rw [remaining]
      omega

lemma Reached.onItsWay {totalBits : ℕ}
    (h : Reached data totalBits r) : OnItsWay data totalBits r := by
  induction h with
  | new => exact ⟨rfl, rfl, Nat.zero_le _⟩
  | @skip r n h ih =>
      rw [skipChecked]
      split
      case isTrue hfew => exact ih
      case isFalse henough => exact ih.advance (not_lt.1 henough)
  | @read r r' v n h hread ih =>
      obtain rfl | ⟨hn, rfl⟩ := readChecked_cases hread
      · exact ih
      · exact ih.advance hn

/-- **Word by word is bit by bit.**  Wherever skips and reads have brought a reader, a read of up to
sixty-four bits stops at no step; it gives the number the next bits form, the first of them the
greatest, and goes on behind them, exactly where so many remain within the bound. -/
theorem reads_bit_by_bit {data : Bytes} {totalBits : ℕ} {r : BitReader}
    (h : Reached data totalBits r) {n : ℕ} (hn : n ≤ 64) :
    r.readChecked n = some
      (if r.bitPos + n ≤ bound data totalBits then
        (some (number 0 ((((bitsOf data).take (bound data totalBits)).drop r.bitPos).take n)),
          { r with bitPos := r.bitPos + n })
      else (none, r)) := by
  have hway := h.onItsWay
  have hiff : n ≤ r.remaining ↔ r.bitPos + n ≤ bound data totalBits := by
    have hle := hway.bitPos_le
    rw [remaining, ← hway.totalBits_eq]
    omega
  have hunread : r.unread = ((bitsOf data).take (bound data totalBits)).drop r.bitPos := by
    rw [unread, hway.data_eq, hway.totalBits_eq]
  rw [readChecked_eq hway.bitPos_le hn, if_congr hiff rfl rfl, hunread]
  rfl

theorem reads_bit_by_bit_across :
    ((new [1, 2, 3, 4, 5, 6, 7, 8, 9] 71).skipChecked 3).2.readChecked 64 = some
      (some (number 0 ((((bitsOf [1, 2, 3, 4, 5, 6, 7, 8, 9]).take 71).drop 3).take 64)),
        { new [1, 2, 3, 4, 5, 6, 7, 8, 9] 71 with bitPos := 67 }) :=
  reads_bit_by_bit (Reached.skip 3 Reached.new) (Nat.le_refl 64)

end BitReader

end IbkrDx
