import IbkrDx.Protocol.AuthFrames

/-!
# Taking a raw field out of a message

`extract_raw_tag` and `extract_text_tag` of `hot_loop/mod.rs`: a field is looked for in the bytes of
a whole message, not in its fields.

* **`raw_tag_extracted`** — a raw field is extracted where its tag stands nowhere in front of it.

A reader gives nothing at all where an index is out of range.
-/

namespace IbkrDx

open Search Decimal

/-! ## The reader -/

def slice (msg : Bytes) (a b : ℕ) : Option Bytes :=
  if a ≤ b ∧ b ≤ msg.length then some ((msg.drop a).take (b - a)) else none

def isAnchor (msg : Bytes) (i : ℕ) : Option Bool :=
  if i = 0 then some true else (msg[i - 1]?).map (· == soh)

/-- The first place a needle stands at the front of a field, from `pos` on. -/
def anchoredFrom (needle msg : Bytes) (pos : ℕ) : Option (Option ℕ) :=
  if _h : pos < msg.length then
    (slice msg pos msg.length).bind fun remaining =>
      match find needle remaining with
      | none => some none
      | some idx =>
          (isAnchor msg (pos + idx)).bind fun anchored =>
            if anchored then some (some (pos + idx))
            else anchoredFrom needle msg (pos + idx + 1)
  else some none
termination_by msg.length - pos

def needleOf (tag : ℕ) : Bytes := text tag ++ [eqSign]

def valueAt (msg : Bytes) (start : ℕ) : Option Bytes :=
  (slice msg start msg.length).bind fun rest =>
    slice msg start (match position soh rest with
      | some p => start + p
      | none => msg.length)

def anchoredValue (msg : Bytes) (tag : ℕ) : Option (Option Bytes) :=
  (anchoredFrom (needleOf tag) msg 0).bind fun
    | none => some none
    | some i => (valueAt msg (i + (needleOf tag).length)).map some

def extractTextTag (msg : Bytes) (tag : ℕ) : Option (Option String) :=
  (anchoredValue msg tag).map (Option.map fromUtf8Lossy)

def statedLen (len : Option String) : Option ℕ := len.bind fun t => parse usizeBound (asBytes t)

/-- Extract the raw bytes of a field, as many as the field in front of it states.  The end of the
value saturates where no message reaches. -/
def extractRawTag (msg : Bytes) (tag : ℕ) : Option (Option Bytes) :=
  (extractTextTag msg (tag - 1)).bind fun len =>
    match statedLen len with
    | none => anchoredValue msg tag
    | some n =>
        match find (needleOf tag) msg with
        | none => anchoredValue msg tag
        | some idx =>
            let start := idx + (needleOf tag).length
            (slice msg start (min (start + n) msg.length)).map some

/-! ## Every index is in range -/

lemma slice_eq {msg : Bytes} {a b : ℕ} (hab : a ≤ b) (hb : b ≤ msg.length) :
    slice msg a b = some ((msg.drop a).take (b - a)) := if_pos ⟨hab, hb⟩

lemma slice_behind {msg : Bytes} {a : ℕ} (h : a ≤ msg.length) :
    slice msg a msg.length = some (msg.drop a) := by
  rw [slice_eq h (Nat.le_refl _), ← List.length_drop, List.take_length]

lemma length_needleOf_pos (tag : ℕ) : 0 < (needleOf tag).length := by
  rw [needleOf, List.length_append]
  exact Nat.succ_pos _

lemma anchoredFrom_in_range {needle : Bytes} (hneedle : 0 < needle.length) (msg : Bytes) (pos : ℕ) :
    ∃ found, anchoredFrom needle msg pos = some found ∧
      ∀ i, found = some i → i + needle.length ≤ msg.length := by
  induction hn : msg.length - pos using Nat.strong_induction_on generalizing pos with
  | _ n ih =>
      subst hn
      rw [anchoredFrom]
      split_ifs with hpos
      · rw [slice_behind hpos.le, Option.bind_some]
        cases hfind : find needle (msg.drop pos) with
        | none => exact ⟨none, rfl, fun _ h => nomatch h⟩
        | some idx =>
            have hle := find_le hfind
            rw [List.length_drop] at hle
            have hanchor : ∃ b, isAnchor msg (pos + idx) = some b := by
              unfold isAnchor
              split_ifs
              · exact ⟨true, rfl⟩
              · rw [List.getElem?_eq_getElem (by omega)]
                exact ⟨_, rfl⟩
            obtain ⟨b, hb⟩ := hanchor
            dsimp only
            rw [hb, Option.bind_some]
            split_ifs
            · refine ⟨_, rfl, fun i hi => ?_⟩
              cases hi
              omega
            · exact ih _ (by omega) _ rfl
      · exact ⟨none, rfl, fun _ h => nomatch h⟩

lemma valueAt_in_range {msg : Bytes} {start : ℕ} (h : start ≤ msg.length) :
    ∃ v, valueAt msg start = some v := by
  rw [valueAt, slice_behind h, Option.bind_some]
  cases hpos : position soh (msg.drop start) with
  | none => exact ⟨_, slice_behind h⟩
  | some p =>
      have hp := position_lt hpos
      rw [List.length_drop] at hp
      exact ⟨_, slice_eq (by dsimp only; omega) (by dsimp only; omega)⟩

lemma anchoredValue_in_range (msg : Bytes) (tag : ℕ) : ∃ v, anchoredValue msg tag = some v := by
  obtain ⟨found, hfound, hin⟩ := anchoredFrom_in_range (length_needleOf_pos tag) msg 0
  rw [anchoredValue, hfound, Option.bind_some]
  cases found with
  | none => exact ⟨none, rfl⟩
  | some i =>
      obtain ⟨v, hv⟩ := valueAt_in_range (hin i rfl)
      exact ⟨some v, by dsimp only; rw [hv, Option.map_some]⟩

lemma extractRawTag_in_range (msg : Bytes) (tag : ℕ) : ∃ v, extractRawTag msg tag = some v := by
  obtain ⟨len, hlen⟩ := anchoredValue_in_range msg (tag - 1)
  rw [extractRawTag, extractTextTag, hlen, Option.map_some, Option.bind_some]
  cases statedLen (len.map fromUtf8Lossy) with
  | none => exact anchoredValue_in_range msg tag
  | some n =>
      dsimp only
      cases hfind : find (needleOf tag) msg with
      | none => exact anchoredValue_in_range msg tag
      | some idx =>
          have hle := find_le hfind
          dsimp only
          rw [slice_eq (by omega) (Nat.min_le_right _ _)]
          exact ⟨_, rfl⟩

/-! ## A tag in front of which no field has it -/

/-- No field of these bytes begins with the needle, whatever stands behind them; and what stands
behind them begins a field. -/
structure Clear (needle m : Bytes) : Prop where
  nowhere : ∀ tail j, j < m.length → (j = 0 ∨ m[j - 1]? = some soh) →
    ¬ needle <+: (m ++ tail).drop j
  separated : m = [] ∨ m.getLast? = some soh

lemma clear_nil (needle : Bytes) : Clear needle [] := ⟨fun _ _ h => (nomatch h), Or.inl rfl⟩

lemma Clear.cons {needle seg m : Bytes} (hsoh : soh ∉ needle) (hseg : soh ∉ seg)
    (hnot : ¬ needle <+: seg) (hm : Clear needle m) : Clear needle (seg ++ soh :: m) := by
  refine ⟨fun tail j hj hanchor hpre => ?_, Or.inr ?_⟩
  case refine_2 =>
    rcases hm.separated with rfl | hlast
    · rw [List.getLast?_concat]
    · rw [List.getLast?_append, List.getLast?_cons, hlast]
      rfl
  rw [List.append_assoc, List.cons_append] at hpre
  rcases Nat.lt_trichotomy j (seg.length + 1) with hlt | rfl | hgt
  · rcases hanchor with rfl | hanchor
    · rw [List.drop_zero, prefix_append_sep hsoh] at hpre
      exact hnot hpre
    · -- the byte in front is one of the segment
      rcases Nat.eq_zero_or_pos j with rfl | hpos
      · rw [List.drop_zero, prefix_append_sep hsoh] at hpre
        exact hnot hpre
      · rw [List.getElem?_append_left (by omega)] at hanchor
        exact hseg (List.mem_of_getElem? hanchor)
  · rw [drop_segment] at hpre
    simp only [List.length_append, List.length_cons] at hj
    exact hm.nowhere tail 0 (by omega) (Or.inl rfl) hpre
  · obtain ⟨k, rfl⟩ := Nat.exists_eq_add_of_lt hgt
    have hdrop : (seg ++ soh :: (m ++ tail)).drop (seg.length + 1 + k + 1) =
        (m ++ tail).drop (k + 1) := by
      rw [Nat.add_assoc (seg.length + 1), ← List.drop_drop, drop_segment]
    rw [hdrop] at hpre
    simp only [List.length_append, List.length_cons] at hj
    refine hm.nowhere tail (k + 1) (by omega) (Or.inr ?_) hpre
    rcases hanchor with hzero | hanchor
    · omega
    · rw [List.getElem?_append_right (by omega)] at hanchor
      have hat : seg.length + 1 + k + 1 - 1 - seg.length = k + 1 := by omega
      rw [hat, List.getElem?_cons_succ] at hanchor
      exact hanchor

lemma soh_not_mem_needleOf (tag : ℕ) : soh ∉ needleOf tag := by
  rw [needleOf, List.mem_append, List.mem_singleton]
  rintro (h | h)
  · exact not_mem_text (by decide) tag h
  · exact absurd h (by decide)

lemma not_needle_of_ne {tag tag' : ℕ} (h : tag' ≠ tag) (v : Bytes) :
    ¬ needleOf tag <+: text tag' ++ eqSign :: v := by
  rintro ⟨t, ht⟩
  rw [needleOf, List.append_assoc, List.singleton_append] at ht
  have hpos := congrArg (position eqSign) ht
  rw [position_append_cons (not_mem_text (by decide) _),
    position_append_cons (not_mem_text (by decide) _), Option.some.injEq] at hpos
  have htext := congrArg value (List.append_inj ht hpos).1
  rw [value_text, value_text] at htext
  exact h htext.symm

lemma Clear.field {t u : ℕ} (h : u ≠ t) {v m : Bytes} (hv : soh ∉ v)
    (hm : Clear (needleOf t) m) :
    Clear (needleOf t) (text u ++ eqSign :: v ++ soh :: m) :=
  hm.cons (soh_not_mem_needleOf t) (soh_not_mem_segment hv) (not_needle_of_ne h v)

lemma clear_fields {t : ℕ} {fs : List (UInt32 × String)}
    (h : ∀ f ∈ fs, f.1.toNat ≠ t ∧ '\x01' ∉ f.2.toList) {m : Bytes}
    (hm : Clear (needleOf t) m) : Clear (needleOf t) (fs.flatMap IbkrDx.field ++ m) := by
  induction fs with
  | nil => exact hm
  | cons f fs ih =>
      obtain ⟨hf, hrest⟩ := List.forall_mem_cons.1 h
      rw [List.flatMap_cons, List.append_assoc, field_eq]
      exact (ih hrest).field hf.1 (soh_not_mem_pushValue hf.2)

lemma anchoredFrom_eq {needle m rest : Bytes} (hclear : Clear needle m)
    (hneedle : 0 < needle.length) {pos : ℕ}
    (hpos : pos ≤ m.length) :
    anchoredFrom needle (m ++ (needle ++ rest)) pos = some (some m.length) := by
  induction hn : m.length - pos using Nat.strong_induction_on generalizing pos with
  | _ n ih =>
      subst hn
      have hlength : (m ++ (needle ++ rest)).length = m.length + needle.length + rest.length := by
        rw [List.length_append, List.length_append, Nat.add_assoc]
      have hstands : needle <+: ((m ++ (needle ++ rest)).drop pos).drop (m.length - pos) := by
        rw [List.drop_drop, Nat.add_sub_cancel' hpos, List.drop_left]
        exact List.prefix_append _ _
      obtain ⟨idx, hidx, hfind⟩ := find_of_prefix (by rw [List.length_drop]; omega) hstands
      have hat := prefix_of_find hfind
      rw [List.drop_drop] at hat
      rw [anchoredFrom, dif_pos (by omega), slice_behind (by omega), Option.bind_some]
      simp only [hfind]
      rcases Nat.eq_or_lt_of_le hidx with rfl | hlt
      · rw [Nat.add_sub_cancel' hpos]
        have hanchor : isAnchor (m ++ (needle ++ rest)) m.length = some true := by
          unfold isAnchor
          split_ifs with hzero
          · rfl
          · rcases hclear.separated with rfl | hend
            · exact absurd rfl hzero
            · rw [List.getElem?_append_left (by omega), ← List.getLast?_eq_getElem?, hend]
              rfl
        rw [hanchor, Option.bind_some, if_pos rfl]
      · have hbefore : pos + idx < m.length := by omega
        have hno := mt (hclear.nowhere (needle ++ rest) (pos + idx) hbefore) (not_not.2 hat)
        have hanchor : isAnchor (m ++ (needle ++ rest)) (pos + idx) = some false := by
          unfold isAnchor
          rw [if_neg fun h => hno (Or.inl h), List.getElem?_append_left (by omega),
            List.getElem?_eq_getElem (by omega), Option.map_some, Option.some.injEq]
          refine beq_eq_false_iff_ne.2 fun h => hno (Or.inr ?_)
          rw [List.getElem?_eq_getElem (by omega), h]
        rw [hanchor, Option.bind_some, if_neg Bool.false_ne_true]
        exact ih _ (by omega) (by omega) rfl

lemma anchoredValue_eq {tag : ℕ} {m v rest : Bytes} (hclear : Clear (needleOf tag) m)
    (hv : soh ∉ v) :
    anchoredValue (m ++ (needleOf tag ++ (v ++ soh :: rest))) tag = some (some v) := by
  have hin : m.length + (needleOf tag).length ≤
      (m ++ (needleOf tag ++ (v ++ soh :: rest))).length := by
    rw [List.length_append, List.length_append]
    omega
  have hdrop : (m ++ (needleOf tag ++ (v ++ soh :: rest))).drop (m.length + (needleOf tag).length)
      = v ++ soh :: rest := by
    rw [← List.drop_drop, List.drop_left, List.drop_left]
  have hlength := congrArg List.length hdrop
  rw [List.length_drop, @List.length_append _ v, List.length_cons] at hlength
  rw [anchoredValue, anchoredFrom_eq hclear (length_needleOf_pos tag) (Nat.zero_le _),
    Option.bind_some]
  dsimp only
  rw [valueAt, slice_behind hin, Option.bind_some, hdrop, position_append_cons hv]
  dsimp only
  rw [slice_eq (by omega) (by omega), hdrop, Nat.add_sub_cancel_left, List.take_left]
  rfl

/-! ## A message with a raw field -/

/-- A message of fields free of separators, and a raw field of ASCII characters among them directly
behind the field that states how many. -/
structure RawMessage where
  first : UInt32 × String
  before : List (UInt32 × String)
  len : String
  raw : String
  after : List (UInt32 × String)
  seq : UInt32
  others : ∀ g ∈ first :: (before ++ after), g.1 ≠ 95 ∧ g.1 ≠ 96 ∧ '\x01' ∉ g.2.toList
  states : parse usizeBound (pushValue len) = some raw.toList.length
  isAscii : ∀ c ∈ raw.toList, c.val < 128

namespace RawMessage

variable (w : RawMessage)

def rest : List (UInt32 × String) := w.before ++ (95, w.len) :: (96, w.raw) :: w.after

def message : Bytes := fixBuild (w.first :: w.rest) w.seq

def ahead : Bytes :=
  header (ascii "FIX.4.1") (padded 4 ((fixBody (w.first :: w.rest) w.seq).length % u32Bound)) ++
    (field w.first ++ (seqField w.seq ++ w.before.flatMap field))

/-- What stands in front of the raw field, but for the separator. -/
def front : Bytes := w.ahead ++ (needleOf 95 ++ pushValue w.len)

def behind : Bytes :=
  pushValue w.raw ++ soh :: (w.after.flatMap field ++
    trailer (header (ascii "FIX.4.1")
      (padded 4 ((fixBody (w.first :: w.rest) w.seq).length % u32Bound)) ++
        fixBody (w.first :: w.rest) w.seq))

/-- **The tag stands nowhere in front of the raw field**, or where it first does the very bytes of
the raw field stand behind it. -/
def FindsOwn : Prop :=
  ∀ i, find (needleOf 96) w.front = some i →
    pushValue w.raw <+: (w.front ++ soh :: (needleOf 96 ++ w.behind)).drop
      (i + (needleOf 96).length)

lemma fixBody_eq : fixBody (w.first :: w.rest) w.seq =
    field w.first ++ (seqField w.seq ++ w.before.flatMap field) ++
      ((needleOf 95 ++ pushValue w.len) ++ soh ::
        (needleOf 96 ++ (pushValue w.raw ++ soh :: w.after.flatMap field))) := by
  have h95 : field (95, w.len) = needleOf 95 ++ pushValue w.len ++ [soh] := by
    rw [field, needleOf]
    simp only [List.append_assoc, List.cons_append, List.nil_append]
    rfl
  have h96 : field (96, w.raw) = needleOf 96 ++ pushValue w.raw ++ [soh] := by
    rw [field, needleOf]
    simp only [List.append_assoc, List.cons_append, List.nil_append]
    rfl
  rw [fixBody, rest, List.flatMap_append, List.flatMap_cons, List.flatMap_cons, h95, h96]
  simp only [List.append_assoc, List.cons_append, List.nil_append]

lemma message_eq : w.message = w.front ++ soh :: (needleOf 96 ++ w.behind) := by
  rw [message, fixBuild, front, ahead, behind]
  generalize trailer _ = close
  generalize header _ _ = hdr
  rw [fixBody_eq]
  simp only [List.append_assoc, List.cons_append]

lemma others_first : w.first.1 ≠ 95 ∧ w.first.1 ≠ 96 ∧ '\x01' ∉ w.first.2.toList :=
  w.others _ List.mem_cons_self

lemma others_before {g : UInt32 × String} (h : g ∈ w.before) :
    g.1 ≠ 95 ∧ g.1 ≠ 96 ∧ '\x01' ∉ g.2.toList :=
  w.others _ (List.mem_cons_of_mem _ (List.mem_append_left _ h))

lemma others_after {g : UInt32 × String} (h : g ∈ w.after) :
    g.1 ≠ 95 ∧ g.1 ≠ 96 ∧ '\x01' ∉ g.2.toList :=
  w.others _ (List.mem_cons_of_mem _ (List.mem_append_right _ h))

lemma soh_not_mem_len : soh ∉ pushValue w.len :=
  not_mem_of_parse w.states (b := soh) (by decide) (by decide)

lemma clear_ahead : Clear (needleOf 95) w.ahead := by
  have hbefore : Clear (needleOf 95) (w.before.flatMap field) := by
    have hfields := clear_fields (t := 95)
      (fun g hg => ⟨fun h => (w.others_before hg).1 (UInt32.toNat_inj.1 h),
        (w.others_before hg).2.2⟩) (clear_nil _)
    rwa [List.append_nil] at hfields
  have h8 : ascii "8=" = text 8 ++ [eqSign] := by decide
  have h9 : ascii "9=" = text 9 ++ [eqSign] := by decide
  have h34 : ascii "34=" = text 34 ++ [eqSign] := by decide
  have hname : soh ∉ ascii "FIX.4.1" := by decide
  have hseq := hbefore.field (u := 34) (by decide)
    (not_mem_padded (b := soh) (by decide) 6 w.seq.toNat)
  have hfirst := hseq.field (u := w.first.1.toNat)
    (fun h => w.others_first.1 (UInt32.toNat_inj.1 h)) (soh_not_mem_pushValue w.others_first.2.2)
  have hlen := hfirst.field (u := 9) (by decide)
    (not_mem_padded (b := soh) (by decide) 4
      ((fixBody (w.first :: w.rest) w.seq).length % u32Bound))
  have hhead := hlen.field (u := 8) (by decide) hname
  have hshape : w.ahead = text 8 ++ eqSign :: ascii "FIX.4.1" ++ soh ::
      (text 9 ++ eqSign :: padded 4 ((fixBody (w.first :: w.rest) w.seq).length % u32Bound) ++ soh ::
        (text w.first.1.toNat ++ eqSign :: pushValue w.first.2 ++ soh ::
          (text 34 ++ eqSign :: padded 6 w.seq.toNat ++ soh :: w.before.flatMap field))) := by
    rw [ahead, header, field_eq, seqField, h8, h9, h34]
    simp only [List.append_assoc, List.cons_append, List.nil_append]
  rw [hshape]
  exact hhead

lemma statedLen_eq : (extractTextTag w.message 95).map statedLen = some (some w.raw.toList.length) := by
  have hascii : ∀ b ∈ pushValue w.len, b.toNat < 0x80 := by
    intro b hb
    obtain ⟨c, -, rfl⟩ := List.mem_map.1 hb
    split_ifs with hc
    · show c.val.toUInt8.toNat < 0x80
      have hc : c.val.toNat < 128 := hc
      rw [UInt32.toNat_toUInt8]
      omega
    · decide
  have hbytes : asBytes (fromUtf8Lossy (pushValue w.len)) = pushValue w.len := by
    rw [asBytes, fromUtf8Lossy_ascii hascii, String.toList_ofList, Utf8.encode_ascii hascii]
  have hshape : w.message = w.ahead ++ (needleOf 95 ++ (pushValue w.len ++ soh ::
      (needleOf 96 ++ w.behind))) := by
    rw [message_eq, front]
    simp only [List.append_assoc]
  rw [extractTextTag, hshape, anchoredValue_eq w.clear_ahead w.soh_not_mem_len]
  simp only [Option.map_some, statedLen, Option.bind_some, hbytes, w.states]

lemma extractRawTag_eq {i : ℕ} (h : find (needleOf 96) w.message = some i) :
    extractRawTag w.message 96 =
      some (some ((w.message.drop (i + (needleOf 96).length)).take w.raw.toList.length)) := by
  obtain ⟨len, hlen, hstated⟩ := Option.map_eq_some_iff.1 w.statedLen_eq
  have hle := find_le h
  rw [extractRawTag, hlen, Option.bind_some, hstated]
  simp only [h]
  rw [slice_eq (by omega) (Nat.min_le_right _ _), Option.map_some]
  refine congrArg some (congrArg some ?_)
  rcases Nat.le_total (i + (needleOf 96).length + w.raw.toList.length) w.message.length with hin | hout
  · rw [Nat.min_eq_left hin, Nat.add_sub_cancel_left]
  · have hlength : (w.message.drop (i + (needleOf 96).length)).length =
        w.message.length - (i + (needleOf 96).length) := List.length_drop
    rw [Nat.min_eq_right hout, List.take_of_length_le (by omega),
      List.take_of_length_le (by omega)]

/-! ## As the walk reads it -/

lemma written_others {fs rest : List (UInt32 × String)}
    (h : ∀ g ∈ fs, g.1 ≠ 95 ∧ g.1 ≠ 96 ∧ '\x01' ∉ g.2.toList) (hrest : WrittenFields rest) :
    WrittenFields (fs ++ rest) := by
  induction fs with
  | nil => exact hrest
  | cons g fs ih =>
      obtain ⟨hg, hfs⟩ := List.forall_mem_cons.1 h
      exact .field hg.2.2 (fun h95 => absurd h95 hg.1) (ih hfs)

lemma written_rest : WrittenFields w.rest := by
  refine written_others (fun g hg => w.others_before hg) (.block w.states w.isAscii ?_)
  have hafter := written_others (fun g hg => w.others_after hg) .nil
  rwa [List.append_nil] at hafter

lemma insertAll_of_only {a b : List (ℕ × String)} {t : ℕ} {v : String} (m : TagMap)
    (h : t ∉ b.map Prod.fst) : insertAll (a ++ (t, v) :: b) m t = some v := by
  have hsplit : insertAll (a ++ (t, v) :: b) m =
      insertAll b (Function.update (insertAll a m) t (some v)) := by
    rw [insertAll, List.foldl_append, List.foldl_cons]
    rfl
  rw [hsplit, insertAll_of_not_mem _ h, Function.update_self]

lemma fixParse_eq : fixParse w.message 96 = some w.raw := by
  have hstarred : starred w.raw = w.raw := by
    have hmap : (w.raw.toList.map fun c => if c.val < 128 then c else '*') = w.raw.toList := by
      refine (List.map_congr_left fun c hc => if_pos (w.isAscii c hc)).trans ?_
      exact List.map_id _
    rw [starred, hmap, String.ofList_toList]
  have hafter : 96 ∉ ((w.after.map readOf ++ [(10, digitText 3 (((headed (w.first :: w.rest)
      w.seq).map UInt8.toNat).sum % 256))]).map Prod.fst) := by
    rw [List.map_append, List.map_map, List.mem_append]
    rintro (h | h)
    · obtain ⟨g, hg, heq⟩ := List.mem_map.1 h
      exact (w.others_after hg).2.1 (UInt32.toNat_inj.1 heq)
    · exact absurd h (by simp)
  rw [fixParse, message, textFields_fixBuild w.others_first.2.2 w.written_rest w.seq]
  generalize digitText 3 _ = checksum at hafter ⊢
  have hrest : w.rest.map readOf = w.before.map readOf ++ readOf (95, w.len) ::
      (96, w.raw) :: w.after.map readOf := by
    have hraw : readOf (96, w.raw) = (96, w.raw) := congrArg (Prod.mk 96) hstarred
    rw [rest, List.map_append, List.map_cons, List.map_cons, hraw]
  rw [hrest]
  have honly := insertAll_of_only (a := (8, "FIX.4.1") ::
    (9, digitText 4 ((fixBody (w.first :: w.rest) w.seq).length % u32Bound)) :: readOf w.first ::
      (34, digitText 6 w.seq.toNat) :: (w.before.map readOf ++ [readOf (95, w.len)]))
    (v := w.raw) (fun _ => none) hafter
  simpa only [List.cons_append, List.append_assoc, List.nil_append] using honly

/-! ## What is extracted -/

lemma length_pushValue_raw : (pushValue w.raw).length = w.raw.toList.length := List.length_map _

lemma extracted_iff : extractRawTag w.message 96 = some (some (pushValue w.raw)) ↔ w.FindsOwn := by
  cases hfront : find (needleOf 96) w.front with
  | none =>
      -- the first place is the raw field's own
      have hfind : find (needleOf 96) w.message = some (w.front.length + 1) := by
        rw [message_eq, find_append_sep (soh_not_mem_needleOf 96) hfront,
          find_front (List.prefix_append _ _), Option.map_some, Nat.zero_add]
      refine ⟨fun _ i hi => ?_, fun _ => ?_⟩
      · rw [hfront] at hi
        exact nomatch hi
      · rw [w.extractRawTag_eq hfind, message_eq, ← List.drop_drop, drop_segment, List.drop_left,
          behind, ← w.length_pushValue_raw, List.take_left]
  | some i =>
      have hfind : find (needleOf 96) w.message = some i := by
        rw [message_eq]
        exact find_append hfront _
      rw [w.extractRawTag_eq hfind, Option.some.injEq, Option.some.injEq, FindsOwn,
        ← w.length_pushValue_raw, message_eq]
      refine ⟨fun h j hj => ?_, fun h => ?_⟩
      · obtain rfl : i = j := Option.some.inj (hfront.symm.trans hj)
        exact List.prefix_iff_eq_take.2 h.symm
      · exact (List.prefix_iff_eq_take.1 (h i hfront)).symm

end RawMessage

/-- **A raw field is extracted whole, from its own tag, where that tag stands nowhere in front of
it** — not as the end of another tag, nor in a value; and no message is read out of range. -/
theorem raw_tag_extracted (msg : Bytes) (w : RawMessage) :
    (∃ v, extractRawTag msg 96 = some v) ∧
      ((extractRawTag w.message 96 = some (some (pushValue w.raw)) ∧
        fixParse w.message 96 = some w.raw) ↔ w.FindsOwn) :=
  ⟨extractRawTag_in_range msg 96,
    fun h => w.extracted_iff.1 h.1, fun h => ⟨w.extracted_iff.2 h, w.fixParse_eq⟩⟩

/-- A field of tag 196 in front of the raw field is taken for it. -/
theorem raw_tag_mistaken :
    ∃ w : RawMessage, w.raw.toList.length = 3 ∧ fixParse w.message 96 = some w.raw ∧
      extractRawTag w.message 96 ≠ some (some (pushValue w.raw)) := by
  refine ⟨⟨(35, "U"), [(196, "x")], "3", "abc", [], 1, by decide, by decide,
    ascii_of_all (by decide)⟩, rfl, RawMessage.fixParse_eq _, ?_⟩
  rw [ne_eq, RawMessage.extracted_iff]
  intro h
  have hfind : find (needleOf 96) (RawMessage.front ⟨(35, "U"), [(196, "x")], "3", "abc", [], 1,
      by decide, by decide, ascii_of_all (by decide)⟩) = some 33 := by decide
  exact absurd (h 33 hfind) (by decide)

end IbkrDx
