import IbkrDx.Protocol.BitReader

/-!
# Tick batches

The decoder of the 35=P batches of `protocol/tick_decoder/mod.rs`: a count of bits, which wraps, and
as many bits, in records of fields; nothing in it is delimited.

* **`decodeTicks35p_batch`** — a batch so written is decoded tick for tick.
-/

namespace IbkrDx

open BookBits (digits length_digits)
open BitReader

/-! ## Decoding -/

inductive RecordLayout where
  | ordinary
  | last
  | bidAsk
  | extremes
  | unknown
  deriving DecidableEq

structure RawField where
  id : ℕ
  magnitude : ℤ
  decimalShift : ℕ
  deriving DecidableEq

/-- The field that says what the rest of the record means. -/
def oLayout : ℕ := 18

def RecordLayout.of (fields : List RawField) : RecordLayout :=
  match (fields.find? fun f => f.id = oLayout).map RawField.magnitude with
  | some 0 => .last
  | some 1 => .bidAsk
  | some 2 => .extremes
  | some _ => .unknown
  | none => .ordinary

structure RawTick where
  serverTag : ℕ
  tickType : ℕ
  magnitude : ℤ
  decimalShift : ℕ
  layout : RecordLayout
  previousType : Option ℕ
  deriving DecidableEq

structure FieldHead where
  hasMore : Bool
  tickType : ℕ
  byteWidth : ℕ
  decimalShift : ℕ
  deriving DecidableEq

/-- A number that does not fit five bits is stated in a byte, with the decimal shift and the width
in four bits each. -/
def decodeFieldName (hasMore : Bool) (rawTickType rawWidth : ℕ) : Reader BitReader FieldHead := do
  if rawTickType = 31 then
    enough 16
    let tickType ← readUnsigned 8
    let decimalShift ← readUnsigned 4
    let byteWidth ← readUnsigned 4
    return ⟨hasMore, tickType, byteWidth, decimalShift⟩
  else return ⟨hasMore, rawTickType, rawWidth, 0⟩

def decodeFieldHead : Reader BitReader FieldHead := do
  enough 8
  let rawTickType ← readUnsigned 5
  let hasMore ← readUnsigned 1
  let rawWidth ← readUnsigned 2
  decodeFieldName (hasMore = 1) rawTickType (rawWidth + 1)

/-- The value of a field; none where it has no width, or is wider than this decoder reads and is
stepped over. -/
def decodeFieldValue (totalValueBits : ℕ) : Reader BitReader (Option ℤ) := do
  enough totalValueBits
  if totalValueBits = 0 then return none
  else if 64 < totalValueBits then
    skip totalValueBits
    return none
  else
    let sign ← readUnsigned 1
    let magnitude ← readUnsigned (totalValueBits - 1)
    return some (if sign = 1 then -(magnitude : ℤ) else magnitude)

def decodeField : Reader BitReader (Option RawField × Bool) := do
  let head ← decodeFieldHead
  let magnitude ← decodeFieldValue (8 * head.byteWidth)
  return (magnitude.map fun v => ⟨head.tickType, v, head.decimalShift⟩, head.hasMore)

/-- One record: every field up to the one that says no more follows; nothing where the bits run out
before it. -/
def decodeRecord : ℕ → Reader BitReader (List RawField)
  | 0 => failure
  | fuel + 1 => do
      let (field, hasMore) ← decodeField
      if hasMore then
        let fields ← decodeRecord fuel
        return field.toList ++ fields
      else return field.toList

def pushTicks (serverTag : ℕ) (layout : RecordLayout) : Option ℕ → List RawField → List RawTick
  | _, [] => []
  | previousType, field :: fields =>
      ⟨serverTag, field.id, field.magnitude, field.decimalShift, layout, previousType⟩ ::
        pushTicks serverTag layout (some field.id) fields

/-- A continuation bit, which is not used, and the server tag. -/
def decodeRecordHead : Reader BitReader ℕ := do
  let _ ← readUnsigned 1
  readUnsigned 31

/-- The record at the reader's place, under its server tag. -/
def decodeTagged : Reader BitReader (ℕ × List RawField) := do
  let serverTag ← decodeRecordHead
  let r ← get
  let fields ← decodeRecord (r.remaining + 1)
  return (serverTag, fields)

/-- The records, for as long as more is left than the head of one; the walk stops at one that does
not end. -/
def decodeRecords : ℕ → BitReader → List RawTick
  | 0, _ => []
  | fuel + 1, r =>
      if r.remaining ≤ 32 then []
      else
        match decodeTagged.outcome r with
        | (none, _) => []
        | (some (serverTag, fields), rest) =>
            pushTicks serverTag (RecordLayout.of fields) none fields ++ decodeRecords fuel rest

def decodeCounted (payload : Bytes) (bitCount : ℕ) : List RawTick :=
  if payload.length * 8 < bitCount then []
  else if bitCount = 0 then []
  else decodeRecords (bitCount + 1) (BitReader.new payload bitCount)

def decodeTicks35p (body : Bytes) : List RawTick :=
  if body.length < 4 then []
  else
    match body with
    | hi :: lo :: payload =>
        decodeCounted payload (bitsCarried (hi.toNat * 256 + lo.toNat) body.length)
    | _ => []

/-! ## As the venue writes them -/

/-- How a field states its number and the width of its value: in five bits and two, or in a byte of
its own with a decimal shift. -/
inductive FieldForm where
  | short (id : Fin 31) (width : Fin 4)
  | extended (spare : Fin 4) (id : Fin 256) (decimalShift byteWidth : Fin 16)

namespace FieldForm

def head (hasMore : Bool) : FieldForm → FieldHead
  | short id width => ⟨hasMore, id, width + 1, 0⟩
  | extended _ id decimalShift byteWidth => ⟨hasMore, id, byteWidth, decimalShift⟩

def id (form : FieldForm) : ℕ := (form.head false).tickType

def byteWidth (form : FieldForm) : ℕ := (form.head false).byteWidth

def decimalShift (form : FieldForm) : ℕ := (form.head false).decimalShift

def bits (hasMore : Bool) : FieldForm → List Bool
  | short id width => digits 5 id ++ ([hasMore] ++ digits 2 width)
  | extended spare id decimalShift byteWidth =>
      digits 5 31 ++ ([hasMore] ++ (digits 2 spare ++
        (digits 8 id ++ (digits 4 decimalShift ++ digits 4 byteWidth))))

lemma head_eq (hasMore : Bool) (form : FieldForm) :
    form.head hasMore = ⟨hasMore, form.id, form.byteWidth, form.decimalShift⟩ := by
  cases form <;> rfl

lemma length_bits (hasMore : Bool) (form : FieldForm) : 8 ≤ (form.bits hasMore).length := by
  cases form <;>
    simp only [FieldForm.bits, List.length_append, List.length_singleton, length_digits] <;> decide

end FieldForm

/-- A field: its form, and a sign and a magnitude that fit the width. -/
structure TickField where
  form : FieldForm
  negative : Bool
  magnitude : ℕ
  fits : magnitude < 2 ^ (8 * form.byteWidth - 1)

namespace TickField

def valueBits (f : TickField) : List Bool :=
  if f.form.byteWidth = 0 then [] else f.negative :: digits (8 * f.form.byteWidth - 1) f.magnitude

def bits (hasMore : Bool) (f : TickField) : List Bool := f.form.bits hasMore ++ f.valueBits

def value (f : TickField) : ℤ := if f.negative then -(f.magnitude : ℤ) else f.magnitude

/-- What is read of the field: its value, where that is one to eight bytes wide. -/
def returned (f : TickField) : Option RawField :=
  if 1 ≤ f.form.byteWidth ∧ f.form.byteWidth ≤ 8 then
    some ⟨f.form.id, f.value, f.form.decimalShift⟩
  else none

end TickField

/-- The bits of the fields of a record: each but the last says that another follows. -/
def fieldsBits : List TickField → List Bool
  | [] => []
  | [f] => f.bits false
  | f :: g :: fs => f.bits true ++ fieldsBits (g :: fs)

/-- A record: a continuation bit, a server tag and at least one field. -/
structure TickRecord where
  continues : Bool
  serverTag : ℕ
  fields : List TickField
  tag_lt : serverTag < 2 ^ 31
  fields_ne : fields ≠ []

namespace TickRecord

def bits (rec : TickRecord) : List Bool :=
  rec.continues :: (digits 31 rec.serverTag ++ fieldsBits rec.fields)

def returned (rec : TickRecord) : List RawField := rec.fields.filterMap TickField.returned

/-- The ticks of the record: one for each field returned, with the number of the one before it. -/
def ticks (rec : TickRecord) : List RawTick :=
  rec.returned.zipWith
    (fun f previous => ⟨rec.serverTag, f.id, f.magnitude, f.decimalShift,
      RecordLayout.of rec.returned, previous⟩)
    (none :: rec.returned.map fun f => some f.id)

end TickRecord

/-- A batch that carries the records: the count of their bits as two bytes hold it, the bits, and
less than 8190 bytes that are not part of it. -/
inductive TickBatch (records : List TickRecord) : Bytes → Prop
  | mk {hi lo : UInt8} {payload trailing : Bytes}
      (hcount : hi.toNat * 256 + lo.toNat = (records.flatMap TickRecord.bits).length % bitCycle)
      (hpayload : bitsOf payload = records.flatMap TickRecord.bits)
      (htrailing : trailing.length < 8190) :
      TickBatch records (hi :: lo :: (payload ++ trailing))

/-! ## Each reader reads what was written for it -/

lemma readsOff_decodeFieldName_extended (hasMore : Bool) (id : Fin 256)
    (decimalShift byteWidth : Fin 16) (rawWidth : ℕ) :
    ReadsOff (decodeFieldName hasMore 31 rawWidth)
      (digits 8 id ++ (digits 4 decimalShift ++ digits 4 byteWidth))
      ⟨hasMore, id, byteWidth, decimalShift⟩ := by
  rw [decodeFieldName, if_pos rfl]
  refine ReadsOff.enough ?_ (by simp only [List.length_append, length_digits]; decide)
  refine (readsOff_digits (by decide) id.isLt).bind ?_
  refine (readsOff_digits (by decide) decimalShift.isLt).bind ?_
  exact (readsOff_digits (by decide) byteWidth.isLt).bind_pure fun byteWidth =>
    (⟨hasMore, id, byteWidth, decimalShift⟩ : FieldHead)

lemma readsOff_decodeFieldHead {rawTickType rawWidth : ℕ} (hasMore : Bool)
    (hid : rawTickType < 2 ^ 5) (hwidth : rawWidth < 2 ^ 2) {name : List Bool} {head : FieldHead}
    (hname : ReadsOff (decodeFieldName hasMore rawTickType (rawWidth + 1)) name head) :
    ReadsOff decodeFieldHead (digits 5 rawTickType ++ ([hasMore] ++ (digits 2 rawWidth ++ name)))
      head := by
  have hmore : decide (hasMore.toNat = 1) = hasMore := by cases hasMore <;> rfl
  rw [← hmore] at hname
  refine ReadsOff.enough ?_ ?_
  · refine (readsOff_digits (by decide) hid).bind ?_
    refine (readsOff_bit hasMore).bind ?_
    exact (readsOff_digits (by decide) hwidth).bind hname
  · simp only [List.length_append, length_digits, List.length_singleton]
    omega

lemma readsOff_form (hasMore : Bool) (form : FieldForm) :
    ReadsOff decodeFieldHead (form.bits hasMore) (form.head hasMore) := by
  cases form with
  | short id width =>
      have hid : id.val < 2 ^ 5 := lt_trans id.isLt (by decide)
      have hname : ReadsOff (decodeFieldName hasMore id (width + 1)) []
          ⟨hasMore, id, width + 1, 0⟩ := by
        rw [decodeFieldName, if_neg (Nat.ne_of_lt id.isLt)]
        exact readsOff_pure _
      have hhead := readsOff_decodeFieldHead hasMore hid width.isLt hname
      rwa [List.append_nil] at hhead
  | extended spare id decimalShift byteWidth =>
      exact readsOff_decodeFieldHead hasMore (by decide) spare.isLt
        (readsOff_decodeFieldName_extended hasMore id decimalShift byteWidth (spare + 1))

lemma readsOff_decodeFieldValue_number {width magnitude : ℕ} (hpos : 1 ≤ width) (hwidth : width ≤ 8)
    (negative : Bool) (hfits : magnitude < 2 ^ (8 * width - 1)) :
    ReadsOff (decodeFieldValue (8 * width)) (negative :: digits (8 * width - 1) magnitude)
      (some (if negative then -(magnitude : ℤ) else magnitude)) := by
  have hsign : (if negative.toNat = 1 then -(magnitude : ℤ) else magnitude)
      = if negative then -(magnitude : ℤ) else magnitude := by
    cases negative <;> rfl
  have hnone : ¬ 8 * width = 0 := by omega
  have hread : ¬ 64 < 8 * width := by omega
  have hone : 8 * width - 1 ≤ 64 := by omega
  rw [decodeFieldValue, if_neg hnone, if_neg hread, ← hsign]
  refine ReadsOff.enough ?_ ?_
  · refine (readsOff_bit negative).bind ?_
    exact (readsOff_digits hone hfits).bind_pure fun magnitude =>
      some (if negative.toNat = 1 then -(magnitude : ℤ) else magnitude)
  · rw [List.length_cons, length_digits]
    exact Nat.le_add_of_sub_le le_rfl

lemma readsOff_decodeFieldValue_wide {width : ℕ} (hwide : 8 < width) {bits : List Bool}
    (hbits : bits.length = 8 * width) : ReadsOff (decodeFieldValue (8 * width)) bits none := by
  have hskip := (readsOff_skip bits).bind_pure fun _ => (none : Option ℤ)
  have hnone : ¬ 8 * width = 0 := by omega
  have hskips : 64 < 8 * width := by omega
  rw [decodeFieldValue, if_neg hnone, if_pos hskips, ← hbits]
  exact hskip.enough le_rfl

lemma readsOff_decodeFieldValue (f : TickField) :
    ReadsOff (decodeFieldValue (8 * f.form.byteWidth)) f.valueBits
      (f.returned.map RawField.magnitude) := by
  rw [TickField.valueBits, TickField.returned]
  rcases Nat.eq_zero_or_pos f.form.byteWidth with hnone | hpos
  · rw [if_pos hnone, hnone, if_neg (by decide)]
    exact (readsOff_pure none).enough le_rfl
  · rw [if_neg (Nat.pos_iff_ne_zero.1 hpos)]
    rcases le_or_gt f.form.byteWidth 8 with hread | hwide
    · rw [if_pos ⟨hpos, hread⟩]
      exact readsOff_decodeFieldValue_number hpos hread f.negative f.fits
    · rw [if_neg fun h => absurd h.2 (Nat.not_le.2 hwide)]
      refine readsOff_decodeFieldValue_wide hwide ?_
      rw [List.length_cons, length_digits]
      omega

lemma readsOff_decodeField (hasMore : Bool) (f : TickField) :
    ReadsOff decodeField (f.bits hasMore) (f.returned, hasMore) := by
  have hback : (f.returned.map RawField.magnitude).map
      (fun v => (⟨f.form.id, v, f.form.decimalShift⟩ : RawField)) = f.returned := by
    rw [TickField.returned]
    split <;> rfl
  have hvalue := (readsOff_decodeFieldValue f).bind_pure fun magnitude =>
    (magnitude.map fun v => (⟨f.form.id, v, f.form.decimalShift⟩ : RawField), hasMore)
  rw [hback] at hvalue
  have hform := readsOff_form hasMore f.form
  rw [f.form.head_eq] at hform
  exact hform.bind hvalue

/-! ## Records -/

lemma filterMap_returned (f : TickField) (fs : List TickField) :
    (f :: fs).filterMap TickField.returned
      = f.returned.toList ++ fs.filterMap TickField.returned := by
  rw [List.filterMap_cons]
  cases f.returned <;> rfl

lemma TickField.length_bits (hasMore : Bool) (f : TickField) : 8 ≤ (f.bits hasMore).length := by
  rw [bits, List.length_append]
  exact Nat.le_add_right_of_le (f.form.length_bits hasMore)

lemma length_fieldsBits : ∀ {fields : List TickField}, fields ≠ [] → 8 ≤ (fieldsBits fields).length
  | [], hne => absurd rfl hne
  | [f], _ => f.length_bits false
  | f :: g :: fs, _ => by
      rw [fieldsBits, List.length_append]
      exact Nat.le_add_right_of_le (f.length_bits true)

lemma readsOff_decodeRecord : ∀ {fields : List TickField}, fields ≠ [] →
    ∀ fuel, (fieldsBits fields).length < fuel →
      ReadsOff (decodeRecord fuel) (fieldsBits fields) (fields.filterMap TickField.returned)
  | [], hne, _, _ => absurd rfl hne
  | _ :: _, _, 0, hfuel => absurd hfuel (Nat.not_lt_zero _)
  | [f], _, fuel + 1, _ => by
      rw [filterMap_returned, List.filterMap_nil, List.append_nil]
      intro r rest h
      obtain ⟨r', hread, hleft⟩ := readsOff_decodeField false f r rest h
      exact ⟨r', hread.bind (Reader.gives_pure _ _), hleft⟩
  | f :: g :: fs, _, fuel + 1, hfuel => by
      have hlen := f.length_bits true
      rw [fieldsBits, List.length_append] at hfuel
      rw [filterMap_returned, fieldsBits, decodeRecord]
      refine (readsOff_decodeField true f).bind ?_
      exact (readsOff_decodeRecord (List.cons_ne_nil g fs) fuel (by omega)).bind_pure fun fields =>
        f.returned.toList ++ fields

lemma readsOff_decodeTagged (rec : TickRecord) :
    ReadsOff decodeTagged rec.bits (rec.serverTag, rec.returned) := by
  have hhead : ReadsOff decodeRecordHead ([rec.continues] ++ digits 31 rec.serverTag)
      rec.serverTag := (readsOff_bit rec.continues).bind (readsOff_digits (by decide) rec.tag_lt)
  have hbits : rec.bits = [rec.continues] ++ digits 31 rec.serverTag ++ fieldsBits rec.fields := by
    rw [List.append_assoc]
    rfl
  rw [hbits]
  refine hhead.bind (readsOff_remaining (g := fun n => do
    let fields ← decodeRecord (n + 1)
    return (rec.serverTag, fields)) fun n hn => ?_)
  exact (readsOff_decodeRecord rec.fields_ne (n + 1) (Nat.lt_succ_of_le hn)).bind_pure fun fields =>
    (rec.serverTag, fields)

lemma TickRecord.length_bits (rec : TickRecord) : 40 ≤ rec.bits.length := by
  have hfields := length_fieldsBits rec.fields_ne
  rw [bits, List.length_cons, List.length_append, length_digits]
  omega

lemma pushTicks_eq (serverTag : ℕ) (layout : RecordLayout) (previous : Option ℕ)
    (fields : List RawField) : pushTicks serverTag layout previous fields
      = fields.zipWith
          (fun f previous => ⟨serverTag, f.id, f.magnitude, f.decimalShift, layout, previous⟩)
          (previous :: fields.map fun f => some f.id) := by
  induction fields generalizing previous with
  | nil => rfl
  | cons f fs ih => rw [pushTicks, ih, List.map_cons, List.zipWith_cons_cons]

lemma decodeRecords_eq (records : List TickRecord) : ∀ (fuel : ℕ) (r : BitReader),
    r.unread = records.flatMap TickRecord.bits → r.remaining < fuel →
      decodeRecords fuel r = records.flatMap TickRecord.ticks := by
  induction records with
  | nil =>
      intro fuel r hunread hfuel
      have hnone : r.remaining = 0 := by rw [← length_unread, hunread]; rfl
      cases fuel with
      | zero => rfl
      | succ fuel => rw [decodeRecords, if_pos (by omega)]; rfl
  | cons rec records ih =>
      intro fuel r hunread hfuel
      obtain _ | fuel := fuel
      · exact absurd hfuel (Nat.not_lt_zero _)
      rw [List.flatMap_cons] at hunread
      have hlen := congrArg List.length hunread
      have hrec := rec.length_bits
      rw [length_unread, List.length_append] at hlen
      obtain ⟨r', hread, hleft⟩ := readsOff_decodeTagged rec r _ hunread
      have hless : r'.remaining < fuel := by
        rw [← length_unread, hleft]
        omega
      rw [Reader.Gives] at hread
      rw [decodeRecords, if_neg (by omega), hread, List.flatMap_cons]
      simp only []
      rw [ih fuel r' hleft hless, pushTicks_eq]
      rfl

/-! ## The batch -/

/-- **A batch is decoded tick for tick.**  In order, each record gives a tick for each of its fields
that is one to eight bytes wide, under the record's own tag and layout and with the number of the
tick in front of it; the count is recovered however often it wrapped. -/
theorem decodeTicks35p_batch {records : List TickRecord} {body : Bytes}
    (h : TickBatch records body) : decodeTicks35p body = records.flatMap TickRecord.ticks := by
  obtain @⟨hi, lo, payload, trailing, hcount, hpayload, htrailing⟩ := h
  have hlen := congrArg List.length hpayload
  rw [length_bitsOf] at hlen
  have harrived : (hi :: lo :: (payload ++ trailing)).length
      = payload.length + trailing.length + 2 := by
    rw [List.length_cons, List.length_cons, List.length_append]
  have hcarried : bitsCarried (hi.toNat * 256 + lo.toNat) (hi :: lo :: (payload ++ trailing)).length
      = (records.flatMap TickRecord.bits).length := by
    rw [hcount, harrived]
    refine bitsCarried_eq ?_ ?_ _ _ (Nat.mod_add_div' _ _)
    · omega
    · rw [bitCycle]
      omega
  rw [decodeTicks35p, hcarried]
  rcases records with _ | ⟨rec, records⟩
  · simp only [List.flatMap_nil, List.length_nil, decodeCounted, if_pos, ite_self]
  · have hrec : 40 ≤ ((rec :: records).flatMap TickRecord.bits).length := by
      rw [List.flatMap_cons, List.length_append]
      exact Nat.le_add_right_of_le rec.length_bits
    have hfits : ((rec :: records).flatMap TickRecord.bits).length
        ≤ (payload ++ trailing).length * 8 := by
      rw [List.length_append]
      omega
    have hunread : (BitReader.new (payload ++ trailing)
        ((rec :: records).flatMap TickRecord.bits).length).unread
          = (rec :: records).flatMap TickRecord.bits := by
      rw [unread_new (by omega) hfits, bitsOf_append, hpayload, List.take_left]
    rw [if_neg (by omega)]
    show decodeCounted _ _ = _
    rw [decodeCounted, if_neg (by omega), if_neg (by omega)]
    refine decodeRecords_eq _ _ _ hunread ?_
    rw [← length_unread, hunread]
    exact Nat.lt_succ_self _

/-- A record under tag 7, and a sidecar under tag 9 with a field of no width inside it. -/
theorem decodeTicks35p_batch_two :
    decodeTicks35p [0, 144, 0x80, 0, 0, 7, 0x00, 0x85, 0, 0, 0, 9, 0x94, 1, 0xfc, 40, 0x20, 0x21, 1,
        44, 0x38, 0x3d]
      = [⟨7, 0, -5, 0, .ordinary, none⟩, ⟨9, 18, 1, 0, .bidAsk, none⟩,
          ⟨9, 4, 300, 0, .bidAsk, some 18⟩] := by
  have hbatch : TickBatch
      [⟨true, 7, [⟨.short 0 0, true, 5, by decide⟩], by decide, by decide⟩,
        ⟨false, 9, [⟨.short 18 0, false, 1, by decide⟩, ⟨.extended 0 40 2 0, false, 0, by decide⟩,
          ⟨.short 4 1, false, 300, by decide⟩], by decide, by decide⟩]
      ([0, 144, 0x80, 0, 0, 7, 0x00, 0x85, 0, 0, 0, 9, 0x94, 1, 0xfc, 40, 0x20, 0x21, 1, 44]
        ++ [0x38, 0x3d]) :=
    .mk (by decide +kernel) (by decide +kernel) (by decide)
  exact (decodeTicks35p_batch hbatch).trans (by decide +kernel)

end IbkrDx
