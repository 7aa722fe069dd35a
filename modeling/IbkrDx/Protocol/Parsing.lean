import IbkrDx.Lib.Utf8
import IbkrDx.Protocol.Fields

/-!
# Reading a message's fields as text

The reader `fix_parse` of `protocol/fix.rs`: it walks a message field by field, a raw block read
whole, and keeps the last value of each tag.

* **`parse_undoes_build`** — building then parsing gives the fields back.
-/

namespace IbkrDx

open Search Decimal

/-! ## The reader -/

def fromUtf8Lossy (b : Bytes) : String := String.ofList (Utf8.lossy b)

abbrev TagMap := ℕ → Option String

/-- Fields put into a map one after another, the last value of a tag kept. -/
def insertAll (fs : List (ℕ × String)) (m : TagMap) : TagMap :=
  fs.foldl (fun m f => Function.update m f.1 (some f.2)) m

/-- The fields of a message in wire order, each with the text of its value. -/
def textFields (data : Bytes) : List (ℕ × String) :=
  (fields data).map fun f => (f.tag, fromUtf8Lossy f.value)

def fixParse (data : Bytes) : TagMap := insertAll (textFields data) fun _ => none

/-! ## Reading as text -/

lemma fromUtf8Lossy_ascii {b : Bytes} (h : ∀ c ∈ b, c.toNat < 0x80) :
    fromUtf8Lossy b = String.ofList (b.map fun c => Char.ofNat c.toNat) := by
  rw [fromUtf8Lossy, Utf8.lossy_ascii h]

lemma fromUtf8Lossy_version : fromUtf8Lossy (ascii "FIX.4.1") = "FIX.4.1" := by
  rw [fromUtf8Lossy_ascii (by decide +kernel)]
  decide

def Field.read (f : Field) : ℕ × String := (f.tag, fromUtf8Lossy f.value)

def firstSegment (rest : Bytes) : Bytes := rest.takeWhile (· ≠ soh)

def behindSegment (rest : Bytes) : Bytes := rest.drop ((firstSegment rest).length + 1)

lemma length_behindSegment {rest : Bytes} (hne : rest ≠ []) :
    (behindSegment rest).length < rest.length := by
  have := List.length_pos_iff.2 hne
  rw [behindSegment, List.length_drop]
  omega

/-- The raw block read at the front of what follows its length field. -/
def rawOf (n : ℕ) (next : Bytes) : Bytes := (next.drop 3).take n

section

variable {rest : Bytes} (hne : rest ≠ []) (off : ℕ)

include hne

lemma fieldsFrom_step_none (h : segment (firstSegment rest) = none) :
    fieldsFrom off rest
      = fieldsFrom (off + (firstSegment rest).length + 1) (behindSegment rest) := by
  unfold firstSegment at h
  rw [fieldsFrom, dif_neg hne]
  simp only [h]
  rfl

variable {tag : ℕ} {value : Bytes} (h : segment (firstSegment rest) = some (tag, value))

include h

lemma fieldsFrom_step_some (hraw : rawBlock tag value (behindSegment rest) = none) :
    fieldsFrom off rest = ⟨tag, off, value⟩ ::
      fieldsFrom (off + (firstSegment rest).length + 1) (behindSegment rest) := by
  unfold behindSegment firstSegment at hraw
  unfold firstSegment at h
  rw [fieldsFrom, dif_neg hne]
  simp only [h, hraw]
  rfl

lemma fieldsFrom_step_raw {n : ℕ} (hraw : rawBlock tag value (behindSegment rest) = some n) :
    fieldsFrom off rest = ⟨tag, off, value⟩ ::
      ⟨tagRawData, off + (firstSegment rest).length + 1, rawOf n (behindSegment rest)⟩ ::
        fieldsFrom (off + (firstSegment rest).length + 1 + 3
            + (rawOf n (behindSegment rest)).length)
          ((behindSegment rest).drop (3 + (rawOf n (behindSegment rest)).length)) := by
  unfold behindSegment firstSegment at hraw
  unfold firstSegment at h
  rw [fieldsFrom, dif_neg hne]
  simp only [h, hraw]
  rfl

end

@[simp]
lemma fieldsFrom_nil (off : ℕ) : fieldsFrom off [] = [] := by rw [fieldsFrom, dif_pos rfl]

lemma map_read_fieldsFrom (off off' : ℕ) (rest : Bytes) :
    (fieldsFrom off rest).map Field.read = (fieldsFrom off' rest).map Field.read := by
  induction hn : rest.length using Nat.strong_induction_on generalizing off off' rest with
  | _ n ih =>
      subst hn
      by_cases hne : rest = []
      · rw [hne, fieldsFrom_nil, fieldsFrom_nil]
      · have hshort := length_behindSegment hne
        cases h : segment (firstSegment rest) with
        | none =>
            rw [fieldsFrom_step_none hne off h, fieldsFrom_step_none hne off' h]
            exact ih _ hshort _ _ _ rfl
        | some f =>
            cases hraw : rawBlock f.1 f.2 (behindSegment rest) with
            | none =>
                rw [fieldsFrom_step_some hne off h hraw, fieldsFrom_step_some hne off' h hraw]
                exact congrArg ((f.1, fromUtf8Lossy f.2) :: ·) (ih _ hshort _ _ _ rfl)
            | some k =>
                rw [fieldsFrom_step_raw hne off h hraw, fieldsFrom_step_raw hne off' h hraw]
                refine congrArg (fun l => (f.1, fromUtf8Lossy f.2) ::
                  (tagRawData, fromUtf8Lossy (rawOf k (behindSegment rest))) :: l)
                  (ih _ ?_ _ _ _ rfl)
                rw [List.length_drop]
                omega

lemma textFields_eq (off : ℕ) (rest : Bytes) :
    textFields rest = (fieldsFrom off rest).map Field.read := map_read_fieldsFrom 0 off rest

/-! ## Building, then parsing -/

def starred (v : String) : String := String.ofList (v.toList.map fun c => if c.val < 128 then c else '*')

def digitText (k n : ℕ) : String := fromUtf8Lossy (padded k n)

lemma fromUtf8Lossy_pushValue (v : String) : fromUtf8Lossy (pushValue v) = starred v := by
  have hascii : ∀ b ∈ pushValue v, b.toNat < 0x80 := by
    intro b hb
    obtain ⟨c, -, rfl⟩ := List.mem_map.1 hb
    split
    · next hc =>
        have hc' : c.val.toNat < 128 := hc
        show c.val.toUInt8.toNat < 0x80
        rw [UInt32.toNat_toUInt8]
        omega
    · decide
  rw [fromUtf8Lossy_ascii hascii, starred, pushValue, List.map_map]
  refine congrArg String.ofList (List.map_congr_left fun c _ => ?_)
  simp only [Function.comp_apply]
  split
  · next hc =>
      have hc' : c.val.toNat < 128 := hc
      have hbyte : c.toUInt8.toNat = c.toNat := by
        show c.val.toUInt8.toNat = c.val.toNat
        rw [UInt32.toNat_toUInt8]
        omega
      rw [hbyte, Char.ofNat_toNat]
  · rfl

/-- The walk reads these fields off these bytes, whatever stands behind them — unless that could
be the raw block of their last field. -/
def WalksAs (m : Bytes) (fs : List (ℕ × String)) : Prop :=
  ∀ tail, ¬ ascii "96=" <+: tail → textFields (m ++ tail) = fs ++ textFields tail

lemma walksAs_nil : WalksAs [] [] := fun _ _ => rfl

variable {fs : List (ℕ × String)}

lemma WalksAs.cons {m : Bytes} (hm : WalksAs m fs) {tag : ℕ}
    (htag : tag < u32Bound) {value : Bytes} (hvalue : soh ∉ value)
    (hraw : ∀ tail, ¬ ascii "96=" <+: tail → rawBlock tag value (m ++ tail) = none) :
    WalksAs (text tag ++ eqSign :: value ++ soh :: m) ((tag, fromUtf8Lossy value) :: fs) := by
  intro tail htail
  have hshape : text tag ++ eqSign :: value ++ soh :: m ++ tail
      = text tag ++ eqSign :: value ++ soh :: (m ++ tail) := by
    simp only [List.append_assoc, List.cons_append]
  rw [textFields_eq 0, hshape, fieldsFrom_field htag hvalue (hraw tail htail) 0, List.map_cons,
    ← textFields_eq, hm tail htail]
  rfl

lemma WalksAs.block {m : Bytes} (hm : WalksAs m fs) {value raw : Bytes}
    (hvalue : soh ∉ value) (hlen : parse usizeBound value = some raw.length) :
    WalksAs (text tagRawDataLength ++ eqSign :: value ++ soh :: (ascii "96=" ++ raw ++ soh :: m))
      ((tagRawDataLength, fromUtf8Lossy value) :: (tagRawData, fromUtf8Lossy raw) :: fs) := by
  intro tail htail
  obtain ⟨off', hblock⟩ := fieldsFrom_block hvalue hlen (m ++ tail) 0
  rw [textFields_eq 0, block_append, hblock, List.map_cons, List.map_cons, ← textFields_eq,
    hm tail htail]
  rfl

/-- Fields that are written so that they can be read back: no value holds a separator, but for a
raw block, which is as long as the length field in front of it states and holds ASCII bytes. -/
inductive WrittenFields : List (UInt32 × String) → Prop
  | nil : WrittenFields []
  | field {tag : UInt32} {value : String} {rest : List (UInt32 × String)}
      (hvalue : '\x01' ∉ value.toList)
      (hraw : tag = 95 → (parse usizeBound (pushValue value)).isSome = true →
        ∀ g ∈ rest.head?, g.1 ≠ 96)
      (hrest : WrittenFields rest) : WrittenFields ((tag, value) :: rest)
  | block {len raw : String} {rest : List (UInt32 × String)}
      (hlen : parse usizeBound (pushValue len) = some raw.toList.length)
      (hraw : ∀ c ∈ raw.toList, c.val < 128) (hrest : WrittenFields rest) :
      WrittenFields ((95, len) :: (96, raw) :: rest)

lemma ascii_of_all {s : String} (h : (s.toList.all fun c => decide (c.val < 128)) = true) :
    ∀ c ∈ s.toList, c.val < 128 := fun c hc => of_decide_eq_true (List.all_eq_true.1 h c hc)

def readOf (f : UInt32 × String) : ℕ × String := (f.1.toNat, starred f.2)

variable {rest : List (UInt32 × String)}

lemma not_rawBlock {tag : UInt32} {value : String}
    (hraw : tag = 95 → (parse usizeBound (pushValue value)).isSome = true →
      ∀ g ∈ rest.head?, g.1 ≠ 96) {tail : Bytes} (htail : ¬ ascii "96=" <+: tail) :
    rawBlock tag.toNat (pushValue value) (rest.flatMap field ++ tail) = none := by
  rw [rawBlock]
  split
  · next hblock =>
      have htag : tag = 95 := UInt32.toNat_inj.1 hblock.1
      cases hparse : parse usizeBound (pushValue value) with
      | none => rfl
      | some n =>
          rw [Option.bind_some, if_neg]
          intro hpre
          cases rest with
          | nil => exact htail hpre
          | cons g rest =>
              rw [List.flatMap_cons, List.append_assoc] at hpre
              refine hraw htag (by rw [hparse]; rfl) g rfl ?_
              exact UInt32.toNat_inj.1 (tag_of_front hpre)
  · rfl

lemma walksAs_fields {fs : List (UInt32 × String)} (h : WrittenFields fs) :
    WalksAs (fs.flatMap field) (fs.map readOf) := by
  induction h with
  | nil => exact walksAs_nil
  | @field tag value rest hvalue hraw hrest ih =>
      rw [List.flatMap_cons, field_eq, List.map_cons, readOf, ← fromUtf8Lossy_pushValue]
      exact ih.cons tag.toNat_lt (soh_not_mem_pushValue hvalue) fun tail htail =>
        not_rawBlock hraw htail
  | @block len raw rest hlen hraw hrest ih =>
      have hlit : ascii "96=" = text tagRawData ++ [eqSign] := by decide
      have hshape : ((95, len) :: (96, raw) :: rest).flatMap field
          = text tagRawDataLength ++ eqSign :: pushValue len ++ soh ::
              (ascii "96=" ++ pushValue raw ++ soh :: rest.flatMap field) := by
        rw [List.flatMap_cons, List.flatMap_cons, field_eq, field_eq, hlit]
        simp only [List.append_assoc, List.cons_append, List.nil_append]
        rfl
      have hlength : (pushValue raw).length = raw.toList.length := List.length_map _
      have hsoh := not_mem_of_parse hlen (b := soh) (by decide) (by decide)
      rw [hshape, List.map_cons, List.map_cons, readOf, readOf, ← fromUtf8Lossy_pushValue,
        ← fromUtf8Lossy_pushValue]
      exact ih.block hsoh (by rw [hlength, hlen])

lemma rawBlock_of_not_prefix {rest : Bytes} (h : ¬ ascii "96=" <+: rest) (tag : ℕ) (value : Bytes) :
    rawBlock tag value rest = none := by
  rw [rawBlock]
  split
  · cases parse usizeBound value <;> rfl
  · rfl

variable {f : UInt32 × String}

lemma walksAs_fixBody
    (hf : '\x01' ∉ f.2.toList) (hrest : WrittenFields rest) (seq : UInt32) :
    WalksAs (fixBody (f :: rest) seq)
      (readOf f :: (34, digitText 6 seq.toNat) :: rest.map readOf) := by
  have hseq : WalksAs (text 34 ++ eqSign :: padded 6 seq.toNat ++ soh :: rest.flatMap field)
      ((34, digitText 6 seq.toNat) :: rest.map readOf) :=
    (walksAs_fields hrest).cons (by decide) (not_mem_padded (by decide) 6 _)
      fun _ _ => rawBlock_of_ne (by decide) _ _
  rw [fixBody_cons, readOf, ← fromUtf8Lossy_pushValue]
  refine hseq.cons f.1.toNat_lt (soh_not_mem_pushValue hf) fun tail _ =>
    rawBlock_of_not_prefix ?_ _ _
  have htext : text 34 = [51, 52] := by decide
  have hlit' : ascii "96=" = [57, 54, 61] := by decide
  simp [htext, hlit']

lemma WalksAs.header {m : Bytes} (hm : WalksAs m fs) {name len : Bytes}
    (hname : soh ∉ name) (hlen : soh ∉ len) :
    WalksAs (IbkrDx.header name len ++ m)
      ((8, fromUtf8Lossy name) :: (9, fromUtf8Lossy len) :: fs) := by
  have h8 : ascii "8=" = text 8 ++ [eqSign] := by decide
  have h9 : ascii "9=" = text 9 ++ [eqSign] := by decide
  have hshape : IbkrDx.header name len ++ m = text 8 ++ eqSign :: name ++ soh ::
      (text 9 ++ eqSign :: len ++ soh :: m) := by
    rw [IbkrDx.header, h8, h9]
    simp only [List.append_assoc, List.cons_append, List.nil_append]
  rw [hshape]
  exact (hm.cons (by decide) hlen fun _ _ => rawBlock_of_ne (by decide) _ _).cons (by decide) hname
    fun _ _ => rawBlock_of_ne (by decide) _ _

lemma textFields_trailer (m : Bytes) :
    textFields (trailer m) = [(10, digitText 3 ((m.map UInt8.toNat).sum % 256))] := by
  have hlit : ascii "10=" = text 10 ++ [eqSign] := by decide
  have hread : WalksAs (text 10 ++ eqSign :: padded 3 ((m.map UInt8.toNat).sum % 256) ++ [soh])
      [(10, digitText 3 ((m.map UInt8.toNat).sum % 256))] :=
    walksAs_nil.cons (by decide) (not_mem_padded (by decide) 3 _)
      fun _ _ => rawBlock_of_ne (by decide) _ _
  have hnil : textFields [] = [] := by rw [textFields_eq 0, fieldsFrom_nil]; rfl
  have hwhole := hread [] (by decide)
  rw [List.append_nil, hnil, List.append_nil] at hwhole
  rw [trailer, hlit, ← hwhole]
  simp only [List.append_assoc, List.cons_append, List.nil_append]

def headed (fields : List (UInt32 × String)) (seq : UInt32) : Bytes :=
  header (ascii "FIX.4.1") (padded 4 ((fixBody fields seq).length % u32Bound))
    ++ fixBody fields seq

/-- **What was written is what the walk reads**: the two header fields, the first field, the
sequence number, the other fields and the checksum. -/
theorem textFields_fixBuild
    (hf : '\x01' ∉ f.2.toList) (hrest : WrittenFields rest) (seq : UInt32) :
    textFields (fixBuild (f :: rest) seq)
      = (8, "FIX.4.1") :: (9, digitText 4 ((fixBody (f :: rest) seq).length % u32Bound)) ::
          readOf f :: (34, digitText 6 seq.toNat) :: rest.map readOf
            ++ [(10, digitText 3 (((headed (f :: rest) seq).map UInt8.toNat).sum % 256))] := by
  have hname_soh : soh ∉ ascii "FIX.4.1" := by decide
  have hlen_soh : soh ∉ padded 4 ((fixBody (f :: rest) seq).length % u32Bound) :=
    not_mem_padded (by decide) 4 _
  have hhead := (walksAs_fixBody hf hrest seq).header hname_soh hlen_soh
  have htrailer : ¬ ascii "96=" <+: trailer (headed (f :: rest) seq) := by
    have hlit : ascii "96=" = [57, 54, 61] ∧ ascii "10=" = [49, 48, 61] := by decide
    simp [trailer, hlit.1, hlit.2]
  have hread := hhead _ htrailer
  rw [fromUtf8Lossy_version, textFields_trailer] at hread
  exact hread

/-! ## The map -/

lemma insertAll_of_not_mem : ∀ {fs : List (ℕ × String)} {t : ℕ} (m : TagMap),
    t ∉ fs.map Prod.fst → insertAll fs m t = m t
  | [], _, _, _ => rfl
  | f :: fs, t, m, h => by
      simp only [List.map_cons, List.mem_cons, not_or] at h
      have hrec := insertAll_of_not_mem (Function.update m f.1 (some f.2)) h.2
      rw [insertAll, List.foldl_cons]
      exact hrec.trans (Function.update_of_ne h.1 _ _)

lemma insertAll_of_mem : ∀ {fs : List (ℕ × String)} (m : TagMap), (fs.map Prod.fst).Nodup →
    ∀ {f : ℕ × String}, f ∈ fs → insertAll fs m f.1 = some f.2
  | g :: fs, m, hnodup, f, hmem => by
      rw [List.map_cons, List.nodup_cons] at hnodup
      rw [insertAll, List.foldl_cons]
      rcases List.mem_cons.1 hmem with rfl | hmem
      · exact (insertAll_of_not_mem _ hnodup.1).trans (Function.update_self _ _ _)
      · exact insertAll_of_mem _ hnodup.2 hmem

def ownTags : List UInt32 := [8, 9, 10, 34]

def writtenTags (fields : List (UInt32 × String)) : List UInt32 :=
  match fields.map Prod.fst with
  | [] => [8, 9, 10]
  | tag :: tags => [8, 9, tag, 34] ++ tags ++ [10]

lemma map_fst_textFields
    (hf : '\x01' ∉ f.2.toList) (hrest : WrittenFields rest) (seq : UInt32) :
    (textFields (fixBuild (f :: rest) seq)).map Prod.fst
      = (writtenTags (f :: rest)).map UInt32.toNat := by
  have hmap : (rest.map readOf).map Prod.fst = (rest.map Prod.fst).map UInt32.toNat := by
    rw [List.map_map, List.map_map]
    rfl
  rw [textFields_fixBuild hf hrest seq, writtenTags]
  simp only [List.map_append, List.map_cons, List.map_nil, hmap]
  rfl

lemma mem_writtenTags {tag : UInt32} :
    tag ∈ writtenTags (f :: rest) ↔ tag ∈ ownTags ∨ tag ∈ (f :: rest).map Prod.fst := by
  simp only [writtenTags, List.map_cons, List.mem_append, List.mem_cons, List.not_mem_nil,
    or_false, ownTags]
  tauto

lemma nodup_writtenTags
    (hnodup : ((f :: rest).map Prod.fst).Nodup) (hown : ∀ g ∈ f :: rest, g.1 ∉ ownTags) :
    (writtenTags (f :: rest)).Nodup := by
  have hperm : (ownTags ++ (f :: rest).map Prod.fst).Perm (writtenTags (f :: rest)) := by
    rw [List.perm_iff_count]
    intro tag
    simp only [ownTags, writtenTags, List.map_cons, List.count_append, List.count_cons,
      List.count_nil]
    omega
  refine (List.Perm.nodup_iff hperm).1 (List.nodup_append.2 ⟨by decide, hnodup, ?_⟩)
  rintro tag hmem tag' hmem' rfl
  obtain ⟨g, hg, rfl⟩ := List.mem_map.1 hmem'
  exact hown g hg hmem

/-- **Building then parsing gives the fields back.**  Each listed tag is mapped to its value,
starred; the tags of the header and the checksum are mapped to what they state — the length as it
fits a `u32` — and no other tag is there.  Where the second field is a raw block, which the
sequence number is then written in front of, its value is free of separators. -/
theorem parse_undoes_build {fields : List (UInt32 × String)} {seq : UInt32} (hne : fields ≠ [])
    (hwritten : WrittenFields fields) (hnodup : (fields.map Prod.fst).Nodup)
    (hown : ∀ f ∈ fields, f.1 ∉ ownTags)
    (hfront : ∀ len raw rest, fields = (95, len) :: (96, raw) :: rest → '\x01' ∉ raw.toList) :
    (∀ f ∈ fields, fixParse (fixBuild fields seq) f.1.toNat = some (starred f.2)) ∧
      fixParse (fixBuild fields seq) 34 = some (digitText 6 seq.toNat) ∧
      fixParse (fixBuild fields seq) 9
        = some (digitText 4 ((fixBody fields seq).length % u32Bound)) ∧
      fixParse (fixBuild fields seq) 10
        = some (digitText 3 (((headed fields seq).map UInt8.toNat).sum % 256)) ∧
      fixParse (fixBuild fields seq) 8 = some "FIX.4.1" ∧
      ∀ tag : UInt32, tag ∉ ownTags → tag ∉ fields.map Prod.fst →
        fixParse (fixBuild fields seq) tag.toNat = none := by
  obtain ⟨f, rest, rfl⟩ := List.exists_cons_of_ne_nil hne
  obtain ⟨hf, hrest⟩ : '\x01' ∉ f.2.toList ∧ WrittenFields rest := by
    cases hwritten with
    | field hvalue hraw hrest => exact ⟨hvalue, hrest⟩
    | @block len raw rest hlen hraw hrest =>
        -- the sequence number goes in between, and the block is walked like any other field
        have hsoh := not_mem_of_parse hlen (b := soh) (by decide) (by decide)
        refine ⟨fun hmem => hsoh ?_, .field (hfront _ _ _ rfl) (fun h => absurd h (by decide)) hrest⟩
        exact List.mem_map.2 ⟨'\x01', hmem, by decide⟩
  have htags := map_fst_textFields hf hrest seq
  have hdistinct := (nodup_writtenTags hnodup hown).map (f := UInt32.toNat)
    fun a b h => UInt32.toNat_inj.1 h
  rw [← htags] at hdistinct
  have hkept (v : ℕ × String) (hv : v ∈ textFields (fixBuild (f :: rest) seq)) :
      fixParse (fixBuild (f :: rest) seq) v.1 = some v.2 := insertAll_of_mem _ hdistinct hv
  rw [textFields_fixBuild hf hrest seq] at hkept
  simp only [List.cons_append, List.forall_mem_cons, List.forall_mem_append, List.mem_map,
    List.not_mem_nil, forall_exists_index, and_imp, forall_apply_eq_imp_iff₂] at hkept
  obtain ⟨h8, h9, hfirst, h34, hothers, h10, -⟩ := hkept
  refine ⟨List.forall_mem_cons.2 ⟨hfirst, hothers⟩, h34, h9, h10, h8, fun tag hown' hno => ?_⟩
  refine insertAll_of_not_mem _ ?_
  rw [htags, List.mem_map_of_injective fun a b h => UInt32.toNat_inj.1 h, mem_writtenTags]
  exact fun h => h.elim hown' hno

/-- A value outside ASCII, a raw block with a separator in it and a value with an equals sign. -/
theorem parse_undoes_build_four :
    let fields := [(35, "B"), (58, "Zürich"), (95, "3"), (96, "a\x01b"), (55, "=X")]
    fixParse (fixBuild fields 7) 58 = some "Z*rich" ∧
      fixParse (fixBuild fields 7) 96 = some "a\x01b" ∧
        fixParse (fixBuild fields 7) 55 = some "=X" ∧ fixParse (fixBuild fields 7) 1 = none := by
  intro fields
  have hwritten : WrittenFields fields :=
    .field (by decide) (by decide) <| .field (by decide) (by decide) <|
      .block (by decide) (ascii_of_all (by decide)) <| .field (by decide) (by decide) .nil
  have hfront : ∀ len raw rest, fields = (95, len) :: (96, raw) :: rest → '\x01' ∉ raw.toList :=
    fun len raw rest h => absurd (List.cons.inj h).1 (by simp)
  have hread := @parse_undoes_build fields 7 (by decide) hwritten (by decide) (by decide) hfront
  exact ⟨hread.1 (58, "Zürich") (by decide), hread.1 (96, "a\x01b") (by decide),
    hread.1 (55, "=X") (by decide), hread.2.2.2.2.2 1 (by decide) (by decide)⟩

/-- **A raw block written second is cut**: the sequence number goes in front of it, and what stands
behind its first separator is read as a field of its own. -/
theorem not_parse_undoes_build :
    ¬ ∀ (fields : List (UInt32 × String)) (seq : UInt32), fields ≠ [] → WrittenFields fields →
      (fields.map Prod.fst).Nodup → (∀ f ∈ fields, f.1 ∉ ownTags) →
        (∀ f ∈ fields, fixParse (fixBuild fields seq) f.1.toNat = some (starred f.2)) ∧
          ∀ tag : UInt32, tag ∉ ownTags → tag ∉ fields.map Prod.fst →
            fixParse (fixBuild fields seq) tag.toNat = none := by
  intro h
  have hread := (h [(95, "6"), (96, "a\x0158=b")] 1 (by decide)
    (.block (by decide) (ascii_of_all (by decide)) .nil) (by decide) (by decide)).2 58 (by decide) (by decide)
  -- the bytes are those of three fields, none of them a raw block
  have hsame : fixBuild [(95, "6"), (96, "a\x0158=b")] 1
      = fixBuild [(95, "6"), (96, "a"), (58, "b")] 1 := by decide
  have hwritten : WrittenFields [(96, "a"), (58, "b")] :=
    .field (by decide) (by decide) (.field (by decide) (by decide) .nil)
  have hf : '\x01' ∉ ((95, "6") : UInt32 × String).2.toList := by decide
  have htags := map_fst_textFields hf hwritten 1
  have hnodup : ((textFields (fixBuild [(95, "6"), (96, "a"), (58, "b")] 1)).map Prod.fst).Nodup := by
    rw [htags]
    decide
  have hmem : readOf (58, "b") ∈ textFields (fixBuild [(95, "6"), (96, "a"), (58, "b")] 1) := by
    rw [textFields_fixBuild hf hwritten 1]
    simp
  have hkept := insertAll_of_mem (fun _ => none) hnodup hmem
  rw [hsame] at hread
  exact absurd (hread.symm.trans hkept) (by simp)

end IbkrDx
