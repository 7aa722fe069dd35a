import IbkrDx.Lib.Patch
import IbkrDx.Protocol.StatedLength

/-!
# The frames a sender writes, and what signing does to them

A frame built by `fixBuild` or `fixcompBuild` is a header, a body that ends at a separator, and for
FIX a checksum: `Framing.frame`.  Signing one builds a frame of the same framing whose body carries
the signature field behind it, and then distorts some bytes of that body.

* `distort_reverse` — taking the same distortion off again.
-/

namespace IbkrDx

open Search Decimal

/-! ## The two framings -/

inductive Framing where
  | fix
  | comp
  deriving DecidableEq

namespace Framing

def name : Framing → Bytes
  | fix => ascii "FIX.4.1"
  | comp => ascii "FIXCOMP"

def closing : Framing → Bytes → Bytes
  | fix, m => trailer m
  | comp, _ => []

def closingLen : Framing → ℕ
  | fix => fix41TrailerLen
  | comp => 0

/-- A frame: header, body, and what closes it. -/
def frame (k : Framing) (len body : Bytes) : Bytes :=
  header k.name len ++ body ++ k.closing (header k.name len ++ body)

end Framing

lemma fixBuild_eq (fields : List (UInt32 × String)) (seq : UInt32) :
    fixBuild fields seq
      = Framing.fix.frame (padded 4 ((fixBody fields seq).length % u32Bound))
          (fixBody fields seq) := rfl

lemma fixcompBuild_eq (deflate : Bytes → Bytes) (innerMsg : Bytes) :
    fixcompBuild deflate innerMsg
      = Framing.comp.frame (text (fixcompBody (deflate innerMsg)).length)
          (fixcompBody (deflate innerMsg)) := by
  simp only [fixcompBuild, Framing.frame, Framing.closing, Framing.name, List.append_nil]

lemma length_trailer (m : Bytes) : (trailer m).length = fix41TrailerLen := by
  have hsmall : ¬ 0 < (m.map UInt8.toNat).sum % 256 / 10 ^ 3 := by omega
  have hascii : (ascii "10=").length = 3 := by decide
  simp only [trailer, padded, if_neg hsmall, List.length_append, length_low, hascii,
    List.length_singleton, fix41TrailerLen]

lemma Framing.length_closing (k : Framing) (m : Bytes) : (k.closing m).length = k.closingLen := by
  cases k with
  | fix => exact length_trailer m
  | comp => rfl

/-- A separator stands last. -/
def Ended (m : Bytes) : Prop := ∃ b, m = b ++ [soh]

lemma ended_header (name len : Bytes) : Ended (header name len) :=
  ⟨ascii "8=" ++ name ++ soh :: (ascii "9=" ++ len), by simp [header]⟩

lemma Ended.append {m : Bytes} (h : Ended m) (a : Bytes) : Ended (a ++ m) := by
  obtain ⟨b, rfl⟩ := h
  exact ⟨a ++ b, (List.append_assoc _ _ _).symm⟩

lemma ended_field (f : UInt32 × String) : Ended (field f) := ⟨_, rfl⟩

lemma ended_flatMap_field {fs : List (UInt32 × String)} (h : fs ≠ []) :
    Ended (fs.flatMap field) := by
  induction fs with
  | nil => exact absurd rfl h
  | cons f fs ih =>
      rw [List.flatMap_cons]
      by_cases hfs : fs = []
      · rw [hfs, List.flatMap_nil, List.append_nil]
        exact ended_field f
      · exact (ih hfs).append _

lemma ended_fixBody {fields : List (UInt32 × String)} (h : fields ≠ []) (seq : UInt32) :
    Ended (fixBody fields seq) := by
  obtain ⟨f, rest, rfl⟩ := List.exists_cons_of_ne_nil h
  simp only [fixBody]
  by_cases hrest : rest = []
  · have hseq : Ended (seqField seq) := ⟨_, rfl⟩
    rw [hrest, List.flatMap_nil, List.append_nil]
    exact hseq.append _
  · exact (ended_flatMap_field hrest).append _

lemma ended_fixcompBody (c : Bytes) : Ended (fixcompBody c) :=
  ⟨ascii "95=" ++ text c.length ++ soh :: (ascii "96=" ++ c), by simp [fixcompBody]⟩

/-! ## What stands at the front of a frame -/

lemma Framing.soh_not_mem_name (k : Framing) : soh ∉ k.name := by
  cases k <;> decide

lemma Framing.isFix41_header (k : Framing) (len r : Bytes) :
    isFix41 (header k.name len ++ r) = decide (k = .fix) := by
  have hlit : ascii "8=FIX.4.1" = [56, 61, 70, 73, 88, 46, 52, 46, 49] := by decide
  cases k with
  | fix =>
      have hname : Framing.fix.name = [70, 73, 88, 46, 52, 46, 49] := by decide
      simp [isFix41, hlit, hname, header_eq]
  | comp =>
      have hname : Framing.comp.name = [70, 73, 88, 67, 79, 77, 80] := by decide
      simp [isFix41, hlit, hname, header_eq]

lemma Framing.isFixcomp_header (k : Framing) (len r : Bytes) :
    isFixcomp (header k.name len ++ r) = decide (k = .comp) := by
  have hlit : ascii "8=FIXCOMP" = [56, 61, 70, 73, 88, 67, 79, 77, 80] := by decide
  cases k with
  | fix =>
      have hname : Framing.fix.name = [70, 73, 88, 46, 52, 46, 49] := by decide
      simp [isFixcomp, hlit, hname, header_eq]
  | comp =>
      have hname : Framing.comp.name = [70, 73, 88, 67, 79, 77, 80] := by decide
      simp [isFixcomp, hlit, hname, header_eq]

lemma Framing.trailerLen_header (k : Framing) (len r : Bytes) :
    trailerLen (header k.name len ++ r) = k.closingLen := by
  rw [trailerLen, k.isFix41_header]
  cases k <;> rfl

/-! ## Looking for a field -/

lemma findAfterTagBytes_append {a r needle : Bytes}
    (h : find needle (a ++ r) = (find needle r).map (· + a.length)) :
    findAfterTagBytes (a ++ r) needle = (findAfterTagBytes r needle).map (· + a.length) := by
  unfold findAfterTagBytes
  rw [h]
  cases hr : find needle r with
  | none => rfl
  | some i =>
      simp only [Option.map_some, Option.bind_eq_bind, Option.bind_some]
      have hdrop : (a ++ r).drop (i + a.length + needle.length) = r.drop (i + needle.length) := by
        have hi : i + a.length + needle.length = a.length + (i + needle.length) := by omega
        rw [hi, List.drop_length_add_append]
      rw [hdrop]
      cases hp : position soh (r.drop (i + needle.length)) with
      | none => rfl
      | some p =>
          simp only [Option.bind_some, Option.pure_def, Option.map_some, Option.some.injEq]
          omega

variable {s : ℕ}

lemma findAfterTagBytes_eq_some {data needle : Bytes}
    (h : findAfterTagBytes data needle = some s) :
    ∃ i p, find needle data = some i ∧ position soh (data.drop (i + needle.length)) = some p ∧
      s = i + needle.length + p + 1 := by
  simp only [findAfterTagBytes, Option.bind_eq_bind, Option.bind_eq_some_iff] at h
  obtain ⟨i, hi, p, hp, hs⟩ := h
  exact ⟨i, p, hi, hp, by simpa using hs.symm⟩

lemma findAfterTagBytes_le {data needle : Bytes}
    (h : findAfterTagBytes data needle = some s) : s ≤ data.length := by
  obtain ⟨i, p, hi, hp, rfl⟩ := findAfterTagBytes_eq_some h
  have := position_lt hp
  simp only [List.length_drop] at this
  omega

lemma findAfterTagBytes_front {data needle : Bytes}
    (h : findAfterTagBytes data needle = some s) (r : Bytes) :
    findAfterTagBytes (data.take s ++ r) needle = some s := by
  have hs := findAfterTagBytes_le h
  obtain ⟨i, p, hi, hp, rfl⟩ := findAfterTagBytes_eq_some h
  have hfind : find needle (data.take (i + needle.length + p + 1) ++ r) = some i :=
    find_append (find_take hi (by omega)) r
  have hlen : i + needle.length ≤ (data.take (i + needle.length + p + 1)).length := by
    rw [List.length_take]
    omega
  have hpos : position soh ((data.take (i + needle.length + p + 1) ++ r).drop
      (i + needle.length)) = some p := by
    rw [List.drop_append_of_le_length hlen, List.drop_take]
    exact position_append (position_take hp (by omega)) r
  rw [findAfterTagBytes, hfind]
  simp only [Option.bind_eq_bind, Option.bind_some, hpos, Option.pure_def]

variable {body : Bytes}

lemma findAfterTagBytes_ended {tail needle : Bytes} (hbody : Ended body)
    (hneedle : soh ∉ needle) (htail : find needle tail = none)
    (h : findAfterTagBytes (body ++ tail) needle = some s) : s ≤ body.length := by
  obtain ⟨b, rfl⟩ := hbody
  obtain ⟨i, p, hi, hp, rfl⟩ := findAfterTagBytes_eq_some h
  cases hb : find needle b with
  | none =>
      rw [List.append_assoc, List.singleton_append, find_append_sep hneedle hb, htail] at hi
      exact absurd hi (by simp)
  | some j =>
      have hij : i = j := by
        have := find_append hb ([soh] ++ tail)
        rw [← List.append_assoc, hi] at this
        simpa using this
      subst hij
      have hle := find_le hb
      -- the separator that ends the body is behind the needle
      have hsplit : (b ++ [soh] ++ tail).drop (i + needle.length)
          = b.drop (i + needle.length) ++ soh :: tail := by
        rw [List.append_assoc, List.drop_append_of_le_length (by omega), List.singleton_append]
      rw [hsplit] at hp
      have hp' := position_le hp
      simp only [List.length_drop] at hp'
      simp only [List.length_append, List.length_singleton]
      omega

/-! ## The signed frame before the distortion -/

lemma Framing.find_nine (k : Framing) (len r : Bytes) :
    find (ascii "9=") (header k.name len ++ r) = some (k.name.length + 3) := by
  have hnine : soh ∉ ascii "9=" := by decide
  have hname : find (ascii "9=") (56 :: 61 :: k.name) = none := by cases k <;> decide
  have hshape : header k.name len ++ r
      = 56 :: 61 :: k.name ++ soh :: (57 :: 61 :: len ++ soh :: r) := by
    simp [header_eq]
  rw [hshape, find_append_sep hnine hname, find_front (by rw [ascii_nine]; exact ⟨_, rfl⟩)]
  simp

lemma Framing.findAfter_nine (k : Framing) {len : Bytes} (hlen : soh ∉ len) (r : Bytes) :
    findAfterTagBytes (header k.name len ++ r) (ascii "9=")
      = some (header k.name len).length := by
  have hshape : header k.name len ++ r
      = (56 :: 61 :: k.name ++ [soh, 57, 61]) ++ (len ++ soh :: r) := by
    simp [header_eq]
  have hdrop : (header k.name len ++ r).drop (k.name.length + 3 + 2) = len ++ soh :: r := by
    rw [hshape]
    exact List.drop_left' (by simp)
  have htwo : (ascii "9=").length = 2 := by decide
  simp only [findAfterTagBytes, k.find_nine, Option.bind_eq_bind, Option.bind_some, hdrop,
    position_append_cons hlen, Option.pure_def, length_header, htwo, Option.some.injEq]
  omega

lemma rfind_trailer {m : Bytes} (hm : Ended m) :
    (rfind (soh :: ascii "10=") (m ++ trailer m)).map (· + 1) = some m.length := by
  obtain ⟨b, rfl⟩ := hm
  set digits := padded 3 (((b ++ [soh]).map UInt8.toNat).sum % 256) with hdigits
  have hno : rfind (soh :: ascii "10=") (ascii "10=" ++ digits ++ [soh]) = none := by
    refine rfind_eq_none_of_last (by decide) ?_
    have hten : soh ∉ ascii "10=" := by decide
    simp only [List.mem_append, hten, false_or]
    exact not_mem_padded (by decide) 3 _
  have hlast : rfind (soh :: ascii "10=") (soh :: (ascii "10=" ++ digits ++ [soh])) = some 0 := by
    rw [rfind, hno]
    simp only
    rw [if_pos]
    rw [List.append_assoc, List.cons_prefix_cons]
    exact ⟨rfl, List.prefix_append _ _⟩
  have hshape : b ++ [soh] ++ trailer (b ++ [soh])
      = b ++ soh :: (ascii "10=" ++ digits ++ [soh]) := by
    simp [trailer, hdigits]
  rw [hshape, rfind_append hlast]
  simp

lemma Framing.signedBody_frame (k : Framing) {len : Bytes} (hlen : soh ∉ len)
    (hend : Ended (header k.name len ++ body)) : signedBody (k.frame len body) = some body := by
  have hstop : bodyEnd (k.frame len body) = some (header k.name len ++ body).length := by
    have hfix : isFix41 (k.frame len body) = decide (k = .fix) := by
      rw [Framing.frame, List.append_assoc, k.isFix41_header]
    rw [bodyEnd, hfix]
    cases k with
    | fix => exact rfind_trailer hend
    | comp => simp [Framing.frame, Framing.closing]
  have hnine : findAfterTagBytes (k.frame len body) (ascii "9=")
      = some (header k.name len).length := by
    rw [Framing.frame, List.append_assoc]
    exact k.findAfter_nine hlen _
  have hle : (header k.name len).length ≤ (header k.name len ++ body).length := by simp
  simp only [signedBody, hnine, hstop, Option.bind_eq_bind, Option.bind_some]
  rw [if_pos hle, Framing.frame, List.take_left, List.drop_left]
  rfl

/-- The length a signed frame states. -/
def signedLen (body : Bytes) : Bytes := text ((body.length + sigFieldLen) % u32Bound)

/-- The signed frame of a body, not yet distorted. -/
def Framing.signed (k : Framing) (body : Bytes) (h : Digest) : Bytes :=
  k.frame (signedLen body) (body ++ sigField h)

/-- **Signing keeps the framing.**  The signed frame, before the distortion, is the frame of the
body with the signature field behind it. -/
theorem Framing.fixSignPlain_frame (hmac : Hmac) (k : Framing) {len : Bytes}
    (hlen : soh ∉ len) (hend : Ended (header k.name len ++ body)) (key iv : Bytes) :
    fixSignPlain hmac (k.frame len body) key iv
      = some (k.signed body (hmac key (iv ++ body)), hmac key (iv ++ body)) := by
  have hpos : position soh (k.frame len body) = some (k.name.length + 2) := by
    have hshape : k.frame len body = 56 :: 61 :: k.name ++ soh :: (57 :: 61 :: len ++ soh ::
        (body ++ k.closing (header k.name len ++ body))) := by
      simp [Framing.frame, header_eq]
    rw [hshape]
    exact position_append_cons (by simpa [soh] using k.soh_not_mem_name) _
  have htake : (k.frame len body).take (k.name.length + 2 + 1) = 56 :: 61 :: k.name ++ [soh] := by
    have hshape : k.frame len body = (56 :: 61 :: k.name ++ [soh]) ++ (57 :: 61 :: len ++ soh ::
        (body ++ k.closing (header k.name len ++ body))) := by
      simp [Framing.frame, header_eq]
    rw [hshape]
    exact List.take_left' (by simp)
  have hhead : ∀ x, 56 :: 61 :: k.name ++ [soh] ++ ascii "9=" ++ x ++ [soh] = header k.name x := by
    intro x
    simp [header_eq, ascii_nine]
  have hfix : isFix41 (k.frame len body) = decide (k = .fix) := by
    rw [Framing.frame, List.append_assoc, k.isFix41_header]
  simp only [fixSignPlain, k.signedBody_frame hlen hend, Option.bind_eq_bind, Option.bind_some,
    rebuilt, hpos, Option.getD_some, htake, hhead, hfix, Option.pure_def, Option.some.injEq,
    Prod.mk.injEq, and_true]
  cases k with
  | fix => simp [Framing.signed, Framing.frame, Framing.closing, signedLen]
  | comp => simp [Framing.signed, Framing.frame, Framing.closing, signedLen]

/-! ## The distortion -/

/-- The place and the change of one step of the distortion. -/
def distortEdit (iv : Bytes) (start rng i : ℕ) : ℕ × (UInt8 → UInt8) :=
  (start + (iv.getD (i * 2) 0).toNat % rng, (· ^^^ iv.getD (i * 2 + 1) 0))

lemma distort_eq_run (iv : Bytes) (behind start : ℕ) (order : List ℕ) (msg : Bytes) :
    distort iv behind start order msg
      = if distortionRange msg.length behind start = 0 then msg
        else Patch.run
          (order.map (distortEdit iv start (distortionRange msg.length behind start))) msg := by
  simp only [distort, Patch.run, List.foldl_map]
  rfl

lemma inside_distortEdit (iv : Bytes) (start : ℕ) {rng : ℕ} (hrng : rng ≠ 0) (order : List ℕ) :
    Patch.Inside start (start + rng) (order.map (distortEdit iv start rng)) := by
  intro e he
  obtain ⟨i, -, rfl⟩ := List.mem_map.1 he
  have := Nat.mod_lt (iv.getD (i * 2) 0).toNat (Nat.pos_of_ne_zero hrng)
  simp only [distortEdit]
  omega

@[simp]
lemma length_distort (iv : Bytes) (behind start : ℕ) (order : List ℕ) (msg : Bytes) :
    (distort iv behind start order msg).length = msg.length := by
  rw [distort_eq_run]
  split
  · rfl
  · exact Patch.length_run _ _

/-- **The steps in the other order undo the distortion.** -/
lemma distort_reverse (iv : Bytes) (behind start : ℕ) (order : List ℕ) (msg : Bytes) :
    distort iv behind start order.reverse (distort iv behind start order msg) = msg := by
  rw [distort_eq_run iv behind start order.reverse, length_distort, distort_eq_run]
  split
  · rfl
  · rw [List.map_reverse]
    refine Patch.run_reverse ?_ msg
    intro e he x
    obtain ⟨i, -, rfl⟩ := List.mem_map.1 he
    simp only [distortEdit, UInt8.xor_assoc, UInt8.xor_self, UInt8.xor_zero]

lemma take_distort (iv : Bytes) (behind start : ℕ) (order : List ℕ) (msg : Bytes) :
    (distort iv behind start order msg).take start = msg.take start := by
  rw [distort_eq_run]
  split
  · rfl
  · next hrng =>
      refine List.ext_getElem? fun i => ?_
      simp only [List.getElem?_take]
      split
      · next hi => exact Patch.run_outside (inside_distortEdit iv start hrng order) msg (Or.inl hi)
      · rfl

lemma distort_middle (iv : Bytes) {behind start : ℕ} (order : List ℕ) {a b c : Bytes}
    (hstart : a.length ≤ start) (hlen : (a ++ b ++ c).length ≤ a.length + b.length + 15 + behind) :
    ∃ b', b'.length = b.length ∧ distort iv behind start order (a ++ b ++ c) = a ++ b' ++ c := by
  rw [distort_eq_run]
  split
  · exact ⟨b, rfl, rfl⟩
  · next hrng =>
      refine Patch.run_middle fun e he => ?_
      have := inside_distortEdit iv start hrng order e he
      unfold distortionRange at this hrng
      omega

/-! ## The signed frame -/

lemma not_mem_signedLen {b : UInt8} (hb : isDigit b = false) (body : Bytes) :
    b ∉ signedLen body := not_mem_text hb _

lemma isAsciiHexdigit_hexChar {n : UInt8} (hn : n < 16) : isAsciiHexdigit (hexChar n) = true := by
  have key : ∀ m : Fin 16, isAsciiHexdigit (hexChar ⟨⟨m, by omega⟩⟩) = true := by decide
  exact key ⟨n.toNat, hn⟩

lemma shiftRight_four_lt (b : UInt8) : b >>> 4 < 16 := by
  have hb := b.toNat_lt
  rw [UInt8.lt_iff_toNat_lt, UInt8.toNat_shiftRight]
  show b.toNat >>> 4 < 16
  rw [Nat.shiftRight_eq_div_pow]
  omega

lemma and_fifteen_lt (b : UInt8) : b &&& 0xF < 16 := by
  rw [UInt8.lt_iff_toNat_lt, UInt8.toNat_and]
  exact Nat.lt_of_le_of_lt Nat.and_le_right (by decide)

lemma isAsciiHexdigit_of_mem {r : Fin 4 → UInt8} {b : UInt8} (h : b ∈ pushHexUpper r) :
    isAsciiHexdigit b = true := by
  simp only [pushHexUpper, List.mem_flatMap, List.mem_cons, List.not_mem_nil, or_false] at h
  obtain ⟨i, -, rfl | rfl⟩ := h
  · exact isAsciiHexdigit_hexChar (shiftRight_four_lt _)
  · exact isAsciiHexdigit_hexChar (and_fifteen_lt _)

@[simp]
lemma length_pushHexUpper (r : Fin 4 → UInt8) : (pushHexUpper r).length = 8 := rfl

@[simp]
lemma length_sigField (h : Digest) : (sigField h).length = sigFieldLen := by
  have hlit : (ascii "8349=").length = 5 := by decide
  simp only [sigField, List.length_append, hlit, length_pushHexUpper, List.length_singleton,
    sigFieldLen]

lemma ended_sigField (h : Digest) : Ended (sigField h) := ⟨_, rfl⟩

lemma find_thirtyfive_tail (h : Digest) (m : Bytes) :
    find (ascii "35=") (sigField h ++ trailer m) = none := by
  have hsoh : soh ∉ ascii "35=" := by decide
  have hlit : ascii "35=" = [51, 53, 61] := by decide
  have hsig : find (ascii "35=") (ascii "8349=" ++ pushHexUpper (xorFoldBytes h)) = none := by
    have hhex : eqSign ∉ pushHexUpper (xorFoldBytes h) := fun hm =>
      absurd (isAsciiHexdigit_of_mem hm) (by decide)
    have hshape : ascii "8349=" = [56, 51, 52, 57, 61] := by decide
    have hnone : find [51, 53, 61] (pushHexUpper (xorFoldBytes h)) = none :=
      find_eq_none_of_not_mem (by decide) hhex
    simp [hshape, hlit, find, hnone]
  have htrailer : find (ascii "35=")
      (ascii "10=" ++ padded 3 ((m.map UInt8.toNat).sum % 256)) = none := by
    have hdig : eqSign ∉ padded 3 ((m.map UInt8.toNat).sum % 256) :=
      not_mem_padded (by decide) 3 _
    have hshape : ascii "10=" = [49, 48, 61] := by decide
    have hnone : find [51, 53, 61] (padded 3 ((m.map UInt8.toNat).sum % 256)) = none :=
      find_eq_none_of_not_mem (by decide) hdig
    simp [hshape, hlit, find, hnone]
  rw [sigField, trailer, List.append_assoc, List.singleton_append, find_append_sep hsoh hsig,
    find_append_sep hsoh htrailer, hlit]
  rfl

lemma Framing.find_thirtyfive (k : Framing) {len : Bytes} (hlen : eqSign ∉ len) (r : Bytes) :
    find (ascii "35=") (header k.name len ++ r)
      = (find (ascii "35=") r).map (· + (header k.name len).length) := by
  have hsoh : soh ∉ ascii "35=" := by decide
  have hlit : ascii "35=" = [51, 53, 61] := by decide
  have hname : find (ascii "35=") (56 :: 61 :: k.name) = none := by cases k <;> decide
  have hnine : find (ascii "35=") (57 :: 61 :: len) = none := by
    have hnone : find [51, 53, 61] len = none := find_eq_none_of_not_mem (by decide) hlen
    simp [hlit, find, hnone]
  have hshape : header k.name len ++ r
      = 56 :: 61 :: k.name ++ soh :: (57 :: 61 :: len ++ soh :: r) := by
    simp [header_eq]
  rw [hshape, find_append_sep hsoh hname, find_append_sep hsoh hnine, Option.map_map,
    length_header]
  congr 1
  funext i
  simp only [Function.comp_apply, List.length_cons]
  omega

/-- Behind which field the distortion starts. -/
def Framing.mark : Framing → Bytes
  | fix => ascii "35="
  | comp => ascii "9="

lemma Framing.distortedBehind_header (k : Framing) (len r : Bytes) :
    distortedBehind (header k.name len ++ r) = k.mark := by
  rw [distortedBehind, k.isFixcomp_header]
  cases k <;> rfl

/-- The distortion starts in the body, or behind it. -/
lemma Framing.findAfter_mark (k : Framing) (hbody : Ended body) (h : Digest)
    (hs : findAfterTagBytes (k.signed body h) k.mark = some s) :
    (header k.name (signedLen body)).length ≤ s ∧
      s ≤ (header k.name (signedLen body)).length + body.length := by
  rw [Framing.signed, Framing.frame, List.append_assoc] at hs
  cases k with
  | fix =>
      have hfind := Framing.fix.find_thirtyfive (not_mem_signedLen (by decide) body)
      rw [Framing.mark, findAfterTagBytes_append (hfind _), Option.map_eq_some_iff] at hs
      obtain ⟨t, ht, rfl⟩ := hs
      rw [List.append_assoc] at ht
      have := findAfterTagBytes_ended hbody (by decide) (find_thirtyfive_tail h _) ht
      omega
  | comp =>
      rw [Framing.mark, Framing.comp.findAfter_nine (not_mem_signedLen (by decide) body),
        Option.some.injEq] at hs
      omega

/-- **What signing writes.**  The distortion is taken off the same start a reader of the frame
finds, and it stays inside the body, in front of the separator the body ends at. -/
theorem Framing.fixSign_frame (hmac : Hmac) (k : Framing) {len key iv d iv' : Bytes}
    (hlen : soh ∉ len) (hbody : Ended body)
    (hsign : fixSign hmac (k.frame len body) key iv = some (d, iv')) :
    ∃ s, findAfterTagBytes (k.signed body (hmac key (iv ++ body))) k.mark = some s ∧
      d = distort iv k.closingLen s (List.range 8) (k.signed body (hmac key (iv ++ body))) ∧
      iv' = chainIv iv (hmac key (iv ++ body)) := by
  have hmark : distortedBehind (k.frame len body) = k.mark := by
    rw [Framing.frame, List.append_assoc, k.distortedBehind_header]
  have htrail : trailerLen (k.frame len body) = k.closingLen := by
    rw [Framing.frame, List.append_assoc, k.trailerLen_header]
  simp only [fixSign, k.fixSignPlain_frame hmac hlen (hbody.append _), Option.bind_eq_bind, Option.bind_some,
    hmark, htrail, Option.bind_eq_some_iff] at hsign
  obtain ⟨s, hs, hsome⟩ := hsign
  split at hsome
  · simp only [Option.pure_def, Option.some.injEq, Prod.mk.injEq] at hsome
    exact ⟨s, hs, hsome.1.symm, hsome.2.symm⟩
  · exact absurd hsome (by simp)

/-- A distorted frame has the header, the signature field and the checksum it was signed with, and
between them as many bytes as the body has, ending at a separator. -/
theorem Framing.distort_signed (k : Framing) (hbody : Ended body) (h : Digest)
    (iv : Bytes) (hs : (header k.name (signedLen body)).length ≤ s) (order : List ℕ) :
    ∃ b, (b ++ [soh]).length = body.length ∧
      distort iv k.closingLen s order (k.signed body h)
        = header k.name (signedLen body) ++ (b ++ [soh]) ++ sigField h
          ++ k.closing (header k.name (signedLen body) ++ (body ++ sigField h)) := by
  obtain ⟨b₀, rfl⟩ := hbody
  set hdr := header k.name (signedLen (b₀ ++ [soh])) with hhdr
  have hclose := k.length_closing (hdr ++ (b₀ ++ [soh] ++ sigField h))
  set close := k.closing (hdr ++ (b₀ ++ [soh] ++ sigField h)) with hcl
  have hshape : k.signed (b₀ ++ [soh]) h = hdr ++ b₀ ++ (soh :: sigField h ++ close) := by
    show hdr ++ (b₀ ++ [soh] ++ sigField h) ++ close = _
    simp only [List.append_assoc, List.cons_append, List.nil_append]
  have hmiddle : ∃ b, b.length = b₀.length ∧ distort iv k.closingLen s order
      (hdr ++ b₀ ++ (soh :: sigField h ++ close)) = hdr ++ b ++ (soh :: sigField h ++ close) :=
    distort_middle iv order hs (by
      simp only [List.length_append, List.length_cons, length_sigField, sigFieldLen, hclose]
      omega)
  obtain ⟨b, hblen, hb⟩ := hmiddle
  refine ⟨b, by simp [hblen], ?_⟩
  rw [hshape, hb]
  simp only [List.append_assoc, List.cons_append, List.nil_append]

end IbkrDx
