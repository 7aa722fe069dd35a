import IbkrDx.Lib.Texts
import IbkrDx.Protocol.Repeating

/-!
# Frames of text

A frame whose fields hold any text, written in UTF-8, and the three ways it is read: as a map of
tags, as parts cut at the separators, and as fields cut at the separators.

* `TextField.part`, `textFrame` — one field, and the frame.
* `Separate` — fields whose texts hold no separator, none of which states the length of a raw block.
* `textFields_textFrame`, `messageParts_textFrame`, `splitFields_textFrame` — each way reads the
  fields back.
-/

namespace IbkrDx

open Search Decimal Texts

/-! ## Writing -/

abbrev TextField := ℕ × List Char

namespace TextField

def part (f : TextField) : List Char := numeral f.1 ++ '=' :: f.2

def read (f : TextField) : ℕ × String := (f.1, String.ofList f.2)

end TextField

def frameText (fs : List TextField) : List Char := fs.flatMap fun f => f.part ++ ['\x01']

def textFrame (fs : List TextField) : Bytes := Utf8.encode (frameText fs)

def Separate (fs : List TextField) : Prop :=
  ∀ f ∈ fs, f.1 < u32Bound ∧ f.1 ≠ tagRawDataLength ∧ '\x01' ∉ f.2

instance : DecidablePred Separate := fun _ => inferInstanceAs (Decidable (∀ f ∈ _, _))

lemma Separate.append {fs gs : List TextField} (hf : Separate fs) (hg : Separate gs) :
    Separate (fs ++ gs) :=
  List.forall_mem_append.2 ⟨hf, hg⟩

lemma separator_not_mem_part {f : TextField} (h : '\x01' ∉ f.2) : '\x01' ∉ f.part := by
  rw [TextField.part, List.mem_append, List.mem_cons, not_or, not_or]
  exact ⟨fun hcon => absurd (digit_of_mem_numeral hcon).1 (by decide), by decide, h⟩

lemma equals_not_mem_numeral (n : ℕ) : '=' ∉ numeral n := fun h =>
  absurd (digit_of_mem_numeral h).2 (by decide)

/-! ## Reading -/

/-- `str::split` at the separators, of a text. -/
def textParts (text : List Char) : List (List Char) := text.splitOn '\x01'

lemma textParts_frameText {fs : List TextField} (h : Separate fs) :
    textParts (frameText fs) = fs.map TextField.part ++ [[]] :=
  splitOn_flatMap '\x01' TextField.part fun f hf => separator_not_mem_part (h f hf).2.2

@[simp]
lemma decode_textFrame (fs : List TextField) :
    Utf8.decode (textFrame fs) = some (frameText fs) :=
  Utf8.decode_encode _

lemma textFrame_cons (f : TextField) (fs : List TextField) :
    textFrame (f :: fs) = text f.1 ++ eqSign :: Utf8.encode f.2 ++ soh :: textFrame fs := by
  have happend (a b : List Char) : Utf8.encode (a ++ b) = Utf8.encode a ++ Utf8.encode b :=
    List.flatMap_append
  have hequals (a : List Char) : Utf8.encode ('=' :: a) = eqSign :: Utf8.encode a := rfl
  have hsoh (a : List Char) : Utf8.encode ('\x01' :: a) = soh :: Utf8.encode a := rfl
  rw [textFrame, frameText, List.flatMap_cons, TextField.part, List.append_assoc,
    List.singleton_append, List.append_assoc, List.cons_append, happend, encode_numeral, hequals,
    happend, hsoh, List.append_assoc, List.cons_append]
  rfl

lemma soh_not_mem_encode {v : List Char} (h : '\x01' ∉ v) : soh ∉ Utf8.encode v := by
  intro hcon
  have hmem := (mem_lossy_ascii (e := soh) (by decide)).2 hcon
  rw [Utf8.lossy_encode] at hmem
  exact h hmem

lemma textFields_textFrame : ∀ {fs : List TextField}, Separate fs →
    textFields (textFrame fs) = fs.map TextField.read
  | [], _ => by
      rw [textFrame, frameText, List.flatMap_nil]
      exact textFields_eq 0 [] |>.trans (by simp)
  | f :: fs, h => by
      obtain ⟨⟨htag, hraw, hvalue⟩, hrest⟩ := List.forall_mem_cons.1 h
      rw [textFrame_cons, textFields_eq 0,
        fieldsFrom_field htag (soh_not_mem_encode hvalue) (rawBlock_of_ne hraw _ _) 0,
        List.map_cons, ← textFields_eq, textFields_textFrame hrest, List.map_cons, Field.read,
        fromUtf8Lossy, Utf8.lossy_encode]
      rfl

lemma splitFields_field {tag : ℕ} (htag : tag < u32Bound) {value : Bytes} (hvalue : soh ∉ value)
    (m : Bytes) : splitFields (text tag ++ eqSign :: value ++ soh :: m) =
      (tag, fromUtf8Lossy value) :: splitFields m := by
  have hpart : partField (text tag ++ eqSign :: value) = some (tag, fromUtf8Lossy value) := by
    rw [partField_eq, segment_field htag, Option.map_some]
  rw [splitFields, List.splitOn_append_cons_self_of_not_mem (soh_not_mem_segment hvalue),
    List.filterMap_cons_some hpart, ← splitFields]

lemma splitFields_textFrame : ∀ {fs : List TextField}, Separate fs →
    splitFields (textFrame fs) = fs.map TextField.read
  | [], _ => splitFields_nil
  | f :: fs, h => by
      obtain ⟨⟨htag, -, hvalue⟩, hrest⟩ := List.forall_mem_cons.1 h
      rw [textFrame_cons, splitFields_field htag (soh_not_mem_encode hvalue),
        splitFields_textFrame hrest, fromUtf8Lossy, Utf8.lossy_encode, List.map_cons]
      rfl

lemma splitFields_fields : ∀ {fs : List (UInt32 × String)}, (∀ f ∈ fs, '\x01' ∉ f.2.toList) →
    ∀ m : Bytes, splitFields (fs.flatMap field ++ m) = fs.map readOf ++ splitFields m
  | [], _, m => rfl
  | f :: fs, h, m => by
      obtain ⟨hf, hfs⟩ := List.forall_mem_cons.1 h
      rw [List.flatMap_cons, List.append_assoc, field_eq,
        splitFields_field f.1.toNat_lt (soh_not_mem_pushValue hf), splitFields_fields hfs,
        fromUtf8Lossy_pushValue, List.map_cons]
      rfl

lemma splitFields_fixBuild {f : UInt32 × String} {rest : List (UInt32 × String)}
    (h : ∀ g ∈ f :: rest, '\x01' ∉ g.2.toList) (seq : UInt32) :
    ∃ len sum, splitFields (fixBuild (f :: rest) seq) =
      (8, "FIX.4.1") :: (9, len) :: readOf f :: (34, digitText 6 seq.toNat) ::
        rest.map readOf ++ [(10, sum)] := by
  obtain ⟨hf, hrest⟩ := List.forall_mem_cons.1 h
  have hlit : ascii "8=" = text 8 ++ [eqSign] ∧ ascii "9=" = text 9 ++ [eqSign] ∧
      ascii "34=" = text 34 ++ [eqSign] ∧ ascii "10=" = text 10 ++ [eqSign] := by
    decide
  have hdigits (k n : ℕ) : soh ∉ padded k n := not_mem_padded (by decide) k n
  refine ⟨fromUtf8Lossy (padded 4 ((fixBody (f :: rest) seq).length % u32Bound)),
    fromUtf8Lossy (padded 3 (((headed (f :: rest) seq).map UInt8.toNat).sum % 256)), ?_⟩
  have hhead (len b t : Bytes) : header (ascii "FIX.4.1") len ++ b ++ t =
      text 8 ++ eqSign :: ascii "FIX.4.1" ++ soh ::
        (text 9 ++ eqSign :: len ++ soh :: (b ++ t)) := by
    rw [header, hlit.1, hlit.2.1]
    simp only [List.append_assoc, List.cons_append, List.nil_append]
  have hbody (t : Bytes) : fixBody (f :: rest) seq ++ t = [f].flatMap field ++
      (text 34 ++ eqSign :: padded 6 seq.toNat ++ soh :: (rest.flatMap field ++ t)) := by
    rw [fixBody, seqField, hlit.2.2.1, List.flatMap_singleton]
    simp only [List.append_assoc, List.cons_append, List.nil_append]
  have htrailer (m : Bytes) : trailer m =
      text 10 ++ eqSign :: padded 3 ((m.map UInt8.toNat).sum % 256) ++ soh :: [] := by
    rw [trailer, hlit.2.2.2]
    simp only [List.append_assoc, List.cons_append, List.nil_append]
  have hshape : fixBuild (f :: rest) seq = _ := hhead _ _ _
  rw [hbody, htrailer] at hshape
  rw [hshape, splitFields_field (by decide) (by decide), splitFields_field (by decide) (hdigits _ _),
    splitFields_fields (by simpa using hf), splitFields_field (by decide) (hdigits _ _),
    splitFields_fields hrest, splitFields_field (by decide) (hdigits _ _), splitFields_nil,
    fromUtf8Lossy_version]
  rfl

/-! ## Stripping a tag -/

/-- `str::strip_prefix`, of a tag and its equals sign. -/
def stripTag (tag : ℕ) (part : List Char) : Option (List Char) :=
  stripPrefix (numeral tag ++ ['=']) part

@[simp]
lemma stripTag_nil (tag : ℕ) : stripTag tag [] = none := by
  simp [stripTag, stripPrefix]

lemma stripTag_part (tag : ℕ) (f : TextField) :
    stripTag tag f.part = if tag = f.1 then some f.2 else none := by
  rw [stripTag, TextField.part]
  by_cases h : tag = f.1
  · have hshape : numeral tag ++ '=' :: f.2 = numeral tag ++ ['='] ++ f.2 := by simp
    rw [if_pos h, ← h, hshape, stripPrefix_append]
  · rw [if_neg h, stripPrefix, if_neg]
    rintro ⟨rest, hrest⟩
    rw [List.append_assoc, List.singleton_append] at hrest
    refine h (numeral_injective ?_)
    have htake := congrArg (List.takeWhile (· ≠ '=')) hrest
    have hstop (n : ℕ) (l : List Char) :
        (numeral n ++ '=' :: l).takeWhile (· ≠ '=') = numeral n := by
      rw [List.takeWhile_append_of_pos, List.takeWhile_cons_of_neg (by simp), List.append_nil]
      intro c hc
      exact decide_eq_true fun hcon => equals_not_mem_numeral n (hcon ▸ hc)
    rwa [hstop, hstop] at htake

end IbkrDx
