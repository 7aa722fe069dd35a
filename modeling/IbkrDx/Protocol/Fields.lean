import IbkrDx.Protocol.Signing

/-!
# Walking the fields of a written message

The walk over a message's fields finds a field where one was written, and nothing else, as long as
no value holds a separator and every raw block is as long as the field in front of it states.  The
signature is found by that walk, so this is what keeps it from being found inside a value.

* `Passed` — bytes the walk passes over without seeing a signature field.
* `passed_fields` — the fields of a message with balanced raw blocks are passed.
* `signedParts_signed` — in a signed frame the walk finds the signature where it was written.
-/

namespace IbkrDx

open Search Decimal

/-! ## One step of the walk -/

lemma takeWhile_soh {seg : Bytes} (hseg : soh ∉ seg) (rest : Bytes) :
    (seg ++ soh :: rest).takeWhile (· ≠ soh) = seg := by
  rw [List.takeWhile_append_of_pos fun b hb => by
    simpa using fun (heq : b = soh) => hseg (heq ▸ hb)]
  simp

section

variable {seg rest value : Bytes} {tag : ℕ} (hseg : soh ∉ seg) (off : ℕ)

lemma drop_segment (seg rest : Bytes) : (seg ++ soh :: rest).drop (seg.length + 1) = rest := by
  rw [List.append_cons, List.drop_left' (by simp)]

include hseg

lemma fieldsFrom_none (h : segment seg = none) :
    fieldsFrom off (seg ++ soh :: rest) = fieldsFrom (off + seg.length + 1) rest := by
  rw [fieldsFrom, dif_neg (by simp)]
  simp only [takeWhile_soh hseg, drop_segment, h]

lemma fieldsFrom_some (h : segment seg = some (tag, value)) (hraw : rawBlock tag value rest = none) :
    fieldsFrom off (seg ++ soh :: rest)
      = ⟨tag, off, value⟩ :: fieldsFrom (off + seg.length + 1) rest := by
  rw [fieldsFrom, dif_neg (by simp)]
  simp only [takeWhile_soh hseg, drop_segment, h, hraw]

lemma fieldsFrom_raw (h : segment seg = some (tag, value)) {n : ℕ}
    (hraw : rawBlock tag value rest = some n) :
    fieldsFrom off (seg ++ soh :: rest)
      = ⟨tag, off, value⟩ :: ⟨tagRawData, off + seg.length + 1, (rest.drop 3).take n⟩ ::
          fieldsFrom (off + seg.length + 1 + 3 + ((rest.drop 3).take n).length)
            (rest.drop (3 + ((rest.drop 3).take n).length)) := by
  rw [fieldsFrom, dif_neg (by simp)]
  simp only [takeWhile_soh hseg, drop_segment, h, hraw]

end

variable {tag : ℕ}

lemma segment_field (htag : tag < u32Bound) (value : Bytes) :
    segment (text tag ++ eqSign :: value) = some (tag, value) := by
  have hdigits : eqSign ∉ text tag := not_mem_text (by decide) tag
  have hdrop : (text tag ++ eqSign :: value).drop ((text tag).length + 1) = value := by
    rw [List.append_cons, List.drop_left' (by simp)]
  simp only [segment, position_append_cons hdigits, Option.bind_eq_bind, Option.bind_some,
    List.take_left, parse_text htag, hdrop, Option.pure_def]

variable {value : Bytes}

lemma soh_not_mem_segment (hvalue : soh ∉ value) :
    soh ∉ text tag ++ eqSign :: value := by
  have hdigits : soh ∉ text tag := not_mem_text (by decide) tag
  simp only [List.mem_append, List.mem_cons, hdigits, hvalue, or_false, false_or]
  decide

lemma fieldsFrom_field (htag : tag < u32Bound) (hvalue : soh ∉ value)
    {rest : Bytes} (hraw : rawBlock tag value rest = none) (off : ℕ) :
    fieldsFrom off (text tag ++ eqSign :: value ++ soh :: rest)
      = ⟨tag, off, value⟩ ::
          fieldsFrom (off + (text tag ++ eqSign :: value).length + 1) rest := by
  exact fieldsFrom_some (soh_not_mem_segment hvalue) off (segment_field htag value) hraw

lemma fieldsFrom_block {raw : Bytes} (hvalue : soh ∉ value)
    (hlen : parse usizeBound value = some raw.length) (rest : Bytes) (off : ℕ) :
    ∃ off', fieldsFrom off (text tagRawDataLength ++ eqSign :: value ++ soh ::
        (ascii "96=" ++ raw ++ soh :: rest))
      = ⟨tagRawDataLength, off, value⟩ :: ⟨tagRawData, off', raw⟩ ::
          fieldsFrom (off + (text tagRawDataLength ++ eqSign :: value ++ soh ::
            (ascii "96=" ++ raw ++ [soh])).length) rest := by
  have hthree : (ascii "96=").length = 3 := by decide
  have hdrop : (ascii "96=" ++ raw ++ soh :: rest).drop 3 = raw ++ soh :: rest := by
    rw [List.append_assoc, List.drop_left' hthree]
  have hraw : rawBlock tagRawDataLength value (ascii "96=" ++ raw ++ soh :: rest)
      = some raw.length := by
    rw [rawBlock, if_pos ⟨rfl, by simp⟩, hlen, Option.bind_some, if_pos]
    rw [List.append_assoc]
    exact List.prefix_append _ _
  have hskip : ∀ o, fieldsFrom o (soh :: rest) = fieldsFrom (o + 1) rest := fun o => by
    have hempty : soh ∉ [] := List.not_mem_nil
    exact fieldsFrom_none hempty o rfl
  refine ⟨off + (text tagRawDataLength ++ eqSign :: value).length + 1, ?_⟩
  rw [fieldsFrom_raw (soh_not_mem_segment hvalue) off (segment_field (by decide) value) hraw]
  simp only [hdrop, List.take_left]
  rw [← List.drop_drop, hdrop, List.drop_left, hskip]
  simp only [List.length_append, List.length_cons, List.length_nil, hthree]
  congr 3
  omega

/-! ## What the walk passes -/

/-- The walk passes over these bytes without seeing a signature field, and stands behind them in
front of what follows — unless that could be the raw block of their last field. -/
def Passed (m : Bytes) : Prop :=
  ∀ off tail, ¬ ascii "96=" <+: tail →
    ∃ fs, fieldsFrom off (m ++ tail) = fs ++ fieldsFrom (off + m.length) tail ∧
      ∀ f ∈ fs, f.tag ≠ tagHmacSignature

lemma passed_nil : Passed [] := fun _ _ _ => ⟨[], rfl, by simp⟩

variable {m : Bytes}

lemma Passed.cons (hm : Passed m) (htag : tag < u32Bound)
    (hsig : tag ≠ tagHmacSignature) (hvalue : soh ∉ value)
    (hraw : ∀ tail, ¬ ascii "96=" <+: tail → rawBlock tag value (m ++ tail) = none) :
    Passed (text tag ++ eqSign :: value ++ soh :: m) := by
  intro off tail htail
  obtain ⟨fs, hfs, hno⟩ := hm (off + (text tag ++ eqSign :: value).length + 1) tail htail
  refine ⟨⟨tag, off, value⟩ :: fs, ?_, List.forall_mem_cons.2 ⟨hsig, hno⟩⟩
  rw [List.append_assoc (text tag ++ eqSign :: value), List.cons_append,
    fieldsFrom_field htag hvalue (hraw tail htail), hfs, List.cons_append]
  congr 3
  simp only [List.length_append, List.length_cons]
  omega

lemma rawBlock_of_ne (h : tag ≠ tagRawDataLength) (value rest : Bytes) :
    rawBlock tag value rest = none := if_neg fun h' => h h'.1

lemma block_append (value raw m tail : Bytes) :
    text tagRawDataLength ++ eqSign :: value ++ soh :: (ascii "96=" ++ raw ++ soh :: m) ++ tail =
      text tagRawDataLength ++ eqSign :: value ++ soh ::
        (ascii "96=" ++ raw ++ soh :: (m ++ tail)) := by
  simp only [List.append_assoc, List.cons_append]

lemma Passed.block (hm : Passed m) {raw : Bytes} (hvalue : soh ∉ value)
    (hlen : parse usizeBound value = some raw.length) :
    Passed (text tagRawDataLength ++ eqSign :: value ++ soh :: (ascii "96=" ++ raw ++ soh :: m)) := by
  intro off tail htail
  set front := text tagRawDataLength ++ eqSign :: value ++ soh :: (ascii "96=" ++ raw ++ [soh])
    with hfront
  obtain ⟨fs, hfs, hno⟩ := hm (off + front.length) tail htail
  obtain ⟨off', hblock⟩ := fieldsFrom_block hvalue hlen (m ++ tail) off
  refine ⟨⟨tagRawDataLength, off, value⟩ :: ⟨tagRawData, off', raw⟩ :: fs, ?_, ?_⟩
  · rw [block_append, hblock, hfs, List.cons_append, List.cons_append]
    congr 4
    simp only [hfront, List.length_append, List.length_cons, List.length_nil]
    omega
  · simp only [List.forall_mem_cons]
    exact ⟨by decide, by decide, hno⟩

/-! ## The fields of a message -/

/-- Every length field directly in front of a raw block states that block's length. -/
def Balanced : List (UInt32 × String) → Prop
  | f :: g :: rest =>
      (f.1.toNat = tagRawDataLength → g.1.toNat = tagRawData →
        ∀ n, parse usizeBound (pushValue f.2) = some n → n = (pushValue g.2).length) ∧
      Balanced (g :: rest)
  | _ => True

lemma soh_not_mem_pushValue {v : String} (h : '\x01' ∉ v.toList) : soh ∉ pushValue v := by
  intro hmem
  obtain ⟨c, hc, heq⟩ := List.mem_map.1 hmem
  split at heq
  · next hlt =>
      refine h ?_
      have hval : c.val = 1 := by
        have hlow : c.val.toNat % 2 ^ 8 = 1 := by
          rw [← UInt32.toNat_toUInt8]
          exact congrArg UInt8.toNat heq
        have hlt' : c.val.toNat < 128 := hlt
        refine UInt32.toNat_inj.1 ?_
        show c.val.toNat = 1
        omega
      have : c = '\x01' := Char.ext hval
      exact this ▸ hc
  · exact absurd heq (by decide)

lemma field_eq (f : UInt32 × String) (m : Bytes) :
    field f ++ m = text f.1.toNat ++ eqSign :: pushValue f.2 ++ soh :: m := by
  simp [field]

lemma tag_of_front {f : UInt32 × String} (h : ascii "96=" <+: field f ++ m) :
    f.1.toNat = tagRawData := by
  have hlit : ascii "96=" = text 96 ++ [eqSign] := by decide
  have heq : eqSign ∉ text f.1.toNat := not_mem_text (by decide) _
  have heq' : eqSign ∉ text 96 := not_mem_text (by decide) _
  obtain ⟨t, ht⟩ := h
  rw [field_eq, hlit, List.append_assoc, List.append_assoc] at ht
  have hpos : position eqSign (text 96 ++ ([eqSign] ++ t))
      = position eqSign (text f.1.toNat ++ (eqSign :: pushValue f.2 ++ soh :: m)) := by rw [ht]
  rw [List.singleton_append, List.cons_append, position_append_cons heq',
    position_append_cons heq, Option.some.injEq] at hpos
  have htext : text 96 = text f.1.toNat := (List.append_inj ht hpos).1
  have := congrArg value htext
  rw [value_text, value_text] at this
  exact this.symm

lemma passed_fields : ∀ fs : List (UInt32 × String), (∀ f ∈ fs, '\x01' ∉ f.2.toList) →
    (∀ f ∈ fs, f.1.toNat ≠ tagHmacSignature) → Balanced fs → Passed (fs.flatMap field)
  | [], _, _, _ => passed_nil
  | [f], hsoh, hsig, _ => by
      rw [List.flatMap_cons, field_eq]
      refine passed_nil.cons f.1.toNat_lt (hsig f List.mem_cons_self)
        (soh_not_mem_pushValue (hsoh f List.mem_cons_self)) ?_
      intro tail htail
      rw [List.nil_append, rawBlock]
      split
      · cases parse usizeBound (pushValue f.2) <;> rfl
      · rfl
  | f :: g :: rest, hsoh, hsig, hbal => by
      have hval := soh_not_mem_pushValue (hsoh f List.mem_cons_self)
      have hrec := passed_fields (g :: rest) (fun e he => hsoh e (List.mem_cons_of_mem _ he))
        (fun e he => hsig e (List.mem_cons_of_mem _ he)) hbal.2
      by_cases hblock : f.1.toNat = tagRawDataLength ∧ g.1.toNat = tagRawData ∧
          (parse usizeBound (pushValue f.2)).isSome
      · -- a length field and its block: the walk stands behind both
        obtain ⟨hf, hg, hparse⟩ := hblock
        obtain ⟨n, hn⟩ := Option.isSome_iff_exists.1 hparse
        rw [hbal.1 hf hg n hn] at hn
        have hrest := passed_fields rest
          (fun e he => hsoh e (List.mem_cons_of_mem _ (List.mem_cons_of_mem _ he)))
          (fun e he => hsig e (List.mem_cons_of_mem _ (List.mem_cons_of_mem _ he))) (by
            cases rest with
            | nil => trivial
            | cons e rest => exact hbal.2.2)
        have hlit : ascii "96=" = text tagRawData ++ [eqSign] := by decide
        have hshape : (f :: g :: rest).flatMap field
            = text tagRawDataLength ++ eqSign :: pushValue f.2 ++ soh ::
                (ascii "96=" ++ pushValue g.2 ++ soh :: rest.flatMap field) := by
          rw [List.flatMap_cons, List.flatMap_cons, field_eq, field_eq, hf, hg, hlit]
          simp only [List.append_assoc, List.cons_append, List.nil_append]
        rw [hshape]
        exact hrest.block hval hn
      · rw [List.flatMap_cons, field_eq]
        refine hrec.cons f.1.toNat_lt (hsig f List.mem_cons_self) hval ?_
        intro tail _
        rw [rawBlock]
        split
        · next h =>
            cases hparse : parse usizeBound (pushValue f.2) with
            | none => rfl
            | some n =>
                rw [Option.bind_some, if_neg]
                intro hpre
                rw [List.flatMap_cons, List.append_assoc] at hpre
                exact hblock ⟨h.1, tag_of_front hpre, by rw [hparse]; rfl⟩
        · rfl

lemma passed_fixcompBody {c : Bytes} (hc : c.length < usizeBound) : Passed (fixcompBody c) := by
  have hlit : ascii "95=" = text tagRawDataLength ++ [eqSign] := by decide
  have hshape : fixcompBody c = text tagRawDataLength ++ eqSign :: text c.length ++ soh ::
      (ascii "96=" ++ c ++ soh :: []) := by
    rw [fixcompBody, hlit]
    simp only [List.append_assoc, List.cons_append, List.nil_append]
  rw [hshape]
  exact passed_nil.block (not_mem_text (by decide) _) (parse_text hc)

lemma fixBody_cons (f : UInt32 × String) (rest : List (UInt32 × String)) (seq : UInt32) :
    fixBody (f :: rest) seq = text f.1.toNat ++ eqSign :: pushValue f.2 ++ soh ::
      (text 34 ++ eqSign :: padded 6 seq.toNat ++ soh :: rest.flatMap field) := by
  have hlit : ascii "34=" = text 34 ++ [eqSign] := by decide
  rw [fixBody, List.append_assoc, field_eq, seqField, hlit]
  simp only [List.append_assoc, List.cons_append, List.nil_append]

lemma passed_fixBody {f : UInt32 × String} {rest : List (UInt32 × String)} (hf : f.1 = 35)
    (hsoh : ∀ e ∈ f :: rest, '\x01' ∉ e.2.toList)
    (hsig : ∀ e ∈ rest, e.1.toNat ≠ tagHmacSignature) (hbal : Balanced rest) (seq : UInt32) :
    Passed (fixBody (f :: rest) seq) := by
  have hrest := passed_fields rest (fun e he => hsoh e (List.mem_cons_of_mem _ he)) hsig hbal
  rw [fixBody_cons, hf]
  refine Passed.cons ?_ (by decide) (by decide)
    (soh_not_mem_pushValue (hsoh f List.mem_cons_self)) fun _ _ => rawBlock_of_ne (by decide) _ _
  exact hrest.cons (by decide) (by decide) (not_mem_padded (by decide) 6 _)
    fun _ _ => rawBlock_of_ne (by decide) _ _

lemma Passed.header (hm : Passed m) (k : Framing) {len : Bytes} (hlen : soh ∉ len) :
    Passed (IbkrDx.header k.name len ++ m) := by
  have h8 : ascii "8=" = text 8 ++ [eqSign] := by decide
  have h9 : ascii "9=" = text 9 ++ [eqSign] := by decide
  have hshape : IbkrDx.header k.name len ++ m = text 8 ++ eqSign :: k.name ++ soh ::
      (text 9 ++ eqSign :: len ++ soh :: m) := by
    rw [IbkrDx.header, h8, h9]
    simp only [List.append_assoc, List.cons_append, List.nil_append]
  rw [hshape]
  refine Passed.cons ?_ (by decide) (by decide) k.soh_not_mem_name
    fun _ _ => rawBlock_of_ne (by decide) _ _
  exact hm.cons (by decide) (by decide) hlen fun _ _ => rawBlock_of_ne (by decide) _ _

/-! ## The signature field -/

/-- **The signature is where it was written.**  In a signed frame whose body the walk passes, the
signed bytes are the body and the signature is the one written behind it. -/
theorem signedParts_signed (k : Framing) {body : Bytes} (hbody : Passed body) (h : Digest) :
    signedParts (k.signed body h) = some (body, pushHexUpper (xorFoldBytes h)) := by
  set hdr := header k.name (signedLen body) with hhdr
  set close := k.closing (hdr ++ (body ++ sigField h)) with hclose
  have hlen : soh ∉ signedLen body := not_mem_signedLen (by decide) body
  have hshape : k.signed body h = hdr ++ body ++ (sigField h ++ close) := by
    show hdr ++ (body ++ sigField h) ++ close = _
    simp only [List.append_assoc]
  have hsig : sigField h ++ close
      = text tagHmacSignature ++ eqSign :: pushHexUpper (xorFoldBytes h) ++ soh :: close := by
    have hlit : ascii "8349=" = text tagHmacSignature ++ [eqSign] := by decide
    rw [sigField, hlit]
    simp only [List.append_assoc, List.cons_append, List.nil_append]
  have hhex : soh ∉ pushHexUpper (xorFoldBytes h) := fun hm =>
    absurd (isAsciiHexdigit_of_mem hm) (by decide)
  have hnot : ¬ ascii "96=" <+: sigField h ++ close := by
    have hlit : text tagHmacSignature = [56, 51, 52, 57] := by decide
    have hlit' : ascii "96=" = [57, 54, 61] := by decide
    simp [hsig, hlit, hlit']
  have hwalk : (fields (k.signed body h)).find? (·.tag = tagHmacSignature)
      = some ⟨tagHmacSignature, (hdr ++ body).length, pushHexUpper (xorFoldBytes h)⟩ := by
    obtain ⟨fs, hfs, hno⟩ := (hbody.header k hlen) 0 _ hnot
    rw [fields, hshape, hfs, List.find?_append, hsig,
      fieldsFrom_field (by decide) hhex (rawBlock_of_ne (by decide) _ _)]
    have hnone : fs.find? (·.tag = tagHmacSignature) = none := by
      rw [List.find?_eq_none]
      intro f hf
      simpa using hno f hf
    rw [hnone, Option.none_or, List.find?_cons_of_pos (by simp), Nat.zero_add]
  have hnine : findAfterTagBytes (k.signed body h) (ascii "9=") = some hdr.length := by
    rw [hshape, List.append_assoc]
    exact k.findAfter_nine hlen _
  simp only [signedParts, hnine, hwalk, Option.bind_eq_bind, Option.bind_some]
  rw [if_pos (by simp), hshape, List.take_left, List.drop_left]
  rfl

end IbkrDx
