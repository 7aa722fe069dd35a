import IbkrDx.Protocol.Framing

/-!
# The messages of an inflated batch

What a compressed frame inflates to is a run of messages laid end to end, and `split_messages` of
`protocol/fixcomp.rs` takes it apart again.  A message's end is found in one of three ways — the
length its header states, with the checksum where that puts it; the length of a frame without a
trailer; or, where no length is stated, the checksum itself, looked for past every raw block.

* **`split_undoes_concatenation`** — messages laid end to end come back.
* **`split_loses_nothing_unseen_iff`** — the batches that lose bytes without a count.

Inflating is a parameter: any function from the raw block to what it inflates to, or nothing.
-/

namespace IbkrDx

open Search Decimal

/-! ## Where a message ends -/

/-- Where the raw block behind the length field at `rt` ends, where the block is here whole. -/
def blockEnd (chunk : Bytes) (rt : ℕ) : Option ℕ := do
  let p ← position soh (chunk.drop (rt + 4))
  let rdl ← parse usizeBound ((chunk.drop (rt + 4)).take p)
  let tag96 := rt + 4 + p + 1
  if ascii "96=" <+: chunk.drop tag96 then
    ((checkedAdd tag96 3).bind (checkedAdd · rdl)).filter (· ≤ chunk.length)
  else none

lemma blockEnd_bounds {chunk : Bytes} {rt n : ℕ} (h : blockEnd chunk rt = some n) :
    rt < n ∧ n ≤ chunk.length := by
  simp only [blockEnd, Option.bind_eq_bind, Option.bind_eq_some_iff] at h
  obtain ⟨p, -, rdl, -, h⟩ := h
  split at h
  · obtain ⟨h, hle⟩ := Option.filter_eq_some_iff.1 h
    obtain ⟨m, hm, hn⟩ := Option.bind_eq_some_iff.1 h
    rw [checkedAdd_eq_some] at hm hn
    exact ⟨by omega, by simpa using hle⟩
  · exact absurd h (by simp)

/-- Where a message that states no body length ends, looked for from `scan` on: at its checksum,
stepping over any length-prefixed block on the way. -/
def checksumEndFrom (chunk : Bytes) (scan : ℕ) : Option ℕ :=
  let rawTag := (find (soh :: ascii "95=") (chunk.drop scan)).map (scan + ·)
  let ck := (find (soh :: ascii "10=") (chunk.drop scan)).map (scan + ·)
  match hrt : rawTag.filter fun rt => ck.all (rt < ·) with
  | some rt =>
      match _hn : blockEnd chunk rt with
      | some n => checksumEndFrom chunk n
      | none => none
  | none => do
      let ck ← ck
      let p ← position soh (chunk.drop (ck + 4))
      return ck + 4 + p + 1
termination_by chunk.length - scan
decreasing_by
  have hbounds := blockEnd_bounds _hn
  obtain ⟨k, -, hk⟩ := Option.map_eq_some_iff.1 (Option.filter_eq_some_iff.1 hrt).1
  omega

def checksumEnd (chunk : Bytes) : Option ℕ := checksumEndFrom chunk 0

lemma checksumEndFrom_bounds (chunk : Bytes) (scan : ℕ) {n : ℕ}
    (h : checksumEndFrom chunk scan = some n) : 0 < n ∧ n ≤ chunk.length := by
  induction hk : chunk.length - scan using Nat.strong_induction_on generalizing scan with
  | _ k ih =>
      subst hk
      rw [checksumEndFrom] at h
      split at h
      · next rt hrt =>
          split at h
          · next m hm =>
              have hbounds := blockEnd_bounds hm
              obtain ⟨j, -, hj⟩ := Option.map_eq_some_iff.1 (Option.filter_eq_some_iff.1 hrt).1
              exact ih _ (by omega) m h rfl
          · exact absurd h (by simp)
      · simp only [Option.bind_eq_bind, Option.bind_eq_some_iff, Option.pure_def,
          Option.some.injEq] at h
        obtain ⟨ck, -, p, hp, rfl⟩ := h
        have hlt := position_lt hp
        rw [List.length_drop] at hlt
        omega

/-! ## Splitting a batch -/

/-- What a round does with the header at the front of what is left: take a message of `total`
bytes, step over the header's first byte, or stop. -/
inductive SplitRound where
  | take (total : ℕ)
  | skip
  | stop
  deriving DecidableEq

/-- A length-prefixed frame without a trailer. -/
def splitBinary (chunk : Bytes) : SplitRound :=
  match binaryMsgLength chunk with
  | some total => if chunk.length < total then .stop else .take total
  | none => .skip

/-- A FIX message: by its stated length, with the checksum where that puts it, or by its checksum
where it states none. -/
def splitFix (chunk : Bytes) : SplitRound :=
  match fixMsgLength chunk with
  | some total =>
      if chunk.length < total then .stop
      else if trailerIsWhereTheLengthSays chunk total then .take total
      else .skip
  | none =>
      match checksumEnd chunk with
      | some total => .take total
      | none => .stop

def splitChunk (chunk : Bytes) : SplitRound :=
  if ascii "8=O\x01" <+: chunk then splitBinary chunk else splitFix chunk

def headerHere (l : Bytes) : Bool := decide (ascii "8=FIX." <+: l ∨ ascii "8=O\x01" <+: l)

def messageStart (remaining : Bytes) : Option ℕ :=
  (List.range remaining.length).find? fun i => headerHere (remaining.drop i)

lemma splitChunk_take {chunk : Bytes} {total : ℕ} (h : splitChunk chunk = .take total) :
    0 < total ∧ total ≤ chunk.length := by
  unfold splitChunk splitBinary splitFix at h
  split at h
  · split at h
    · next n hn =>
        split at h
        · cases h
        · cases h
          exact ⟨binaryMsgLength_pos hn, by omega⟩
    · cases h
  · split at h
    · next n hn =>
        split at h
        · cases h
        · split at h
          · cases h
            exact ⟨fixMsgLength_pos hn, by omega⟩
          · cases h
    · split at h
      · next n hn =>
          cases h
          exact checksumEndFrom_bounds _ _ hn
      · cases h

lemma messageStart_eq_some {l : Bytes} {i : ℕ} : messageStart l = some i ↔
    i < l.length ∧ headerHere (l.drop i) = true ∧ ∀ j < i, headerHere (l.drop j) = false := by
  rw [messageStart, List.find?_range_eq_some]
  simp only [List.mem_range, Bool.not_eq_eq_eq_not, Bool.not_true]
  tauto

/-- Split decompressed content into individual messages: the messages, and how many bytes were
left unread behind them. -/
def splitMessages (buf : Bytes) : List Bytes × ℕ :=
  match _hs : messageStart buf with
  | none => ([], buf.length)
  | some start =>
      match _hc : splitChunk (buf.drop start) with
      | .take total =>
          let rest := splitMessages ((buf.drop start).drop total)
          ((buf.drop start).take total :: rest.1, rest.2)
      | .skip => splitMessages ((buf.drop start).drop 1)
      | .stop => ([], buf.length)
termination_by buf.length
decreasing_by
  all_goals have hstart := (messageStart_eq_some.1 _hs).1
  · have htake := splitChunk_take _hc
    simp only [List.length_drop] at htake ⊢
    omega
  · simp only [List.length_drop]
    omega

/-- What decompressing a frame gives: the messages, and whether bytes that follow the last of them
were warned about. -/
structure Decompressed where
  messages : List Bytes
  warned : Bool
  deriving DecidableEq

/-- Why a compressed frame does not read. -/
inductive FixcompError where
  | noSohBehind95
  | lengthIsNotAUsize
  | tag96DoesNotFollow
  | lengthOverflows
  | lengthExceedsFrame
  | noSoh
  | noSecondSoh
  | inflate
  | pastTheCeiling
  deriving DecidableEq

/-- The deflated block behind the length field at `idx95`. -/
def statedRaw (data : Bytes) (idx95 : ℕ) : Except FixcompError Bytes := do
  let p ← (position soh (data.drop idx95)).elim (throw .noSohBehind95) pure
  let rawLen ← (parse usizeBound ((data.drop (idx95 + 3)).take (p - 3))).elim
    (throw .lengthIsNotAUsize) pure
  let sohAt := idx95 + p
  if data.length < sohAt + 4 ∨ (data.drop (sohAt + 1)).take 3 ≠ ascii "96=" then
    throw .tag96DoesNotFollow
  let payloadEnd ← (checkedAdd (sohAt + 4) rawLen).elim (throw .lengthOverflows) pure
  if data.length < payloadEnd then throw .lengthExceedsFrame
  return (data.take payloadEnd).drop (sohAt + 4)

/-- The deflated block of a frame that states no length: behind its second separator. -/
def unstatedRaw (data : Bytes) : Except FixcompError Bytes := do
  let soh1 ← (position soh data).elim (throw .noSoh) pure
  let p ← (position soh (data.drop (soh1 + 1))).elim (throw .noSecondSoh) pure
  return data.drop (soh1 + 1 + p + 1)

def fixcompDecompress (inflate : Bytes → Option Bytes) (data : Bytes) :
    Except FixcompError Decompressed := do
  let raw ← (find (soh :: ascii "95=") data).elim (unstatedRaw data) fun p =>
    statedRaw data (p + 1)
  let decompressed ← (inflate raw).elim (throw .inflate) pure
  if maxInflated < decompressed.length then throw .pastTheCeiling
  let split := splitMessages decompressed
  return ⟨split.1, decide (0 < split.2)⟩

/-! ## One round -/

variable {buf : Bytes}

lemma splitMessages_none (h : messageStart buf = none) :
    splitMessages buf = ([], buf.length) := by
  rw [splitMessages]
  split
  · rfl
  · next heq => exact absurd (h.symm.trans heq) (by simp)

section

variable {buf : Bytes} {start : ℕ} (hstart : messageStart buf = some start)

include hstart

lemma splitMessages_take {total : ℕ} (h : splitChunk (buf.drop start) = .take total) :
    splitMessages buf
      = ((buf.drop start).take total :: (splitMessages ((buf.drop start).drop total)).1,
          (splitMessages ((buf.drop start).drop total)).2) := by
  rw [splitMessages]
  split
  · next heq => exact absurd (hstart.symm.trans heq) (by simp)
  · next i heq =>
      obtain rfl : start = i := Option.some.inj (hstart.symm.trans heq)
      split
      · next heq' =>
          rw [h, SplitRound.take.injEq] at heq'
          rw [heq']
      · next heq' => exact absurd (h.symm.trans heq') (by simp)
      · next heq' => exact absurd (h.symm.trans heq') (by simp)

lemma splitMessages_skip (h : splitChunk (buf.drop start) = .skip) :
    splitMessages buf = splitMessages (buf.drop (start + 1)) := by
  rw [splitMessages]
  split
  · next heq => exact absurd (hstart.symm.trans heq) (by simp)
  · next i heq =>
      obtain rfl : start = i := Option.some.inj (hstart.symm.trans heq)
      split
      · next heq' => exact absurd (h.symm.trans heq') (by simp)
      · rw [List.drop_drop]
      · next heq' => exact absurd (h.symm.trans heq') (by simp)

lemma splitMessages_stop (h : splitChunk (buf.drop start) = .stop) :
    splitMessages buf = ([], buf.length) := by
  rw [splitMessages]
  split
  · rfl
  · next i heq =>
      obtain rfl : start = i := Option.some.inj (hstart.symm.trans heq)
      split
      · next heq' => exact absurd (h.symm.trans heq') (by simp)
      · next heq' => exact absurd (h.symm.trans heq') (by simp)
      · rfl

end

/-! ## A batch parted into messages -/

def SteppedOver (l : Bytes) : Prop := headerHere l = true → splitChunk l = .skip

/-- The splitter passes over the front of `gap ++ rest` as far as `rest`. -/
def PassedOver (gap rest : Bytes) : Prop := ∀ i < gap.length, SteppedOver ((gap ++ rest).drop i)

/-- A message the splitter takes stands in front of `rest`. -/
structure Taken (msg rest : Bytes) : Prop where
  header : headerHere (msg ++ rest) = true
  whole : splitChunk (msg ++ rest) = .take msg.length

/-- A batch as messages, each behind what was passed over on the way to it, and a tail. -/
inductive Parted : List (Bytes × Bytes) → Bytes → Bytes → Prop
  | nil (tail : Bytes) : Parted [] tail tail
  | cons {gap msg rest : Bytes} {parts : List (Bytes × Bytes)} {tail : Bytes}
      (hgap : PassedOver gap (msg ++ rest)) (hmsg : Taken msg rest)
      (hrest : Parted parts tail rest) :
      Parted ((gap, msg) :: parts) tail (gap ++ (msg ++ rest))

variable {parts : List (Bytes × Bytes)}

lemma Parted.eq {tail : Bytes} (h : Parted parts tail buf) :
    buf = parts.flatMap (fun part => part.1 ++ part.2) ++ tail := by
  induction h with
  | nil tail => rfl
  | cons hgap hmsg hrest ih =>
      rw [List.flatMap_cons, List.append_assoc, List.append_assoc, ← ih]

lemma PassedOver.append {a gap rest : Bytes} (ha : PassedOver a (gap ++ rest))
    (hgap : PassedOver gap rest) : PassedOver (a ++ gap) rest := by
  intro i hi
  rw [List.append_assoc]
  by_cases hia : i < a.length
  · exact ha i hia
  · obtain ⟨k, rfl⟩ := Nat.exists_eq_add_of_le (Nat.not_lt.1 hia)
    rw [List.drop_length_add_append]
    rw [List.length_append] at hi
    exact hgap k (by omega)

lemma PassedOver.drop {gap rest : Bytes} (h : PassedOver gap rest) (n : ℕ) :
    PassedOver (gap.drop n) rest := by
  intro i hi
  rw [List.length_drop] at hi
  have := h (n + i) (by omega)
  rwa [← List.drop_drop, List.drop_append_of_le_length (by omega)] at this

/-! ## The splitter reads off the parting -/

lemma messageStart_eq_none {l : Bytes} :
    messageStart l = none ↔ ∀ i < l.length, headerHere (l.drop i) = false := by
  rw [messageStart, List.find?_range_eq_none]
  simp

lemma length_of_headerHere {l : Bytes} (h : headerHere l = true) : 4 ≤ l.length := by
  have hlong : (ascii "8=FIX.").length = 6 ∧ (ascii "8=O\x01").length = 4 := by decide
  rcases of_decide_eq_true h with hpre | hpre
  · have := hpre.length_le
    omega
  · have := hpre.length_le
    omega

lemma passedOver_take {start : ℕ} (h : messageStart buf = some start) :
    PassedOver (buf.take start) (buf.drop start) := by
  intro i hi hhead
  rw [List.length_take] at hi
  rw [List.take_append_drop] at hhead
  have hno := (messageStart_eq_some.1 h).2.2 i (by omega)
  exact absurd (hhead.symm.trans hno) (by simp)

lemma splitMessages_passedOver {msg rest : Bytes} (hmsg : Taken msg rest) (gap : Bytes)
    (hgap : PassedOver gap (msg ++ rest)) :
    splitMessages (gap ++ (msg ++ rest))
      = (msg :: (splitMessages rest).1, (splitMessages rest).2) := by
  induction hn : gap.length using Nat.strong_induction_on generalizing gap with
  | _ n ih =>
      subst hn
      have hlong := length_of_headerHere hmsg.header
      have hhere : (gap ++ (msg ++ rest)).drop gap.length = msg ++ rest := List.drop_left
      cases hstart : messageStart (gap ++ (msg ++ rest)) with
      | none =>
          have hno := messageStart_eq_none.1 hstart gap.length
            (by rw [List.length_append]; omega)
          rw [hhere, hmsg.header] at hno
          exact absurd hno (by simp)
      | some i =>
          obtain ⟨-, hhead, hfirst⟩ := messageStart_eq_some.1 hstart
          have hle : i ≤ gap.length := by
            by_contra hlt
            have hno := hfirst gap.length (Nat.not_le.1 hlt)
            rw [hhere, hmsg.header] at hno
            exact absurd hno (by simp)
          rcases Nat.lt_or_eq_of_le hle with hlt | rfl
          · rw [splitMessages_skip hstart (hgap i hlt hhead),
              List.drop_append_of_le_length (by omega)]
            exact ih _ (by rw [List.length_drop]; omega) _ (hgap.drop (i + 1)) rfl
          · have hwhole : splitChunk ((gap ++ (msg ++ rest)).drop gap.length) = .take msg.length := by
              rw [hhere]
              exact hmsg.whole
            rw [splitMessages_take hstart hwhole, hhere, List.take_left, List.drop_left]

theorem splitMessages_parted {tail : Bytes}
    (h : Parted parts tail buf) (htail : tail = []) :
    splitMessages buf = (parts.map Prod.snd, 0) := by
  induction h with
  | nil tail =>
      subst htail
      exact splitMessages_none (messageStart_eq_none.2 (by simp))
  | cons hgap hmsg hrest ih =>
      rw [splitMessages_passedOver hmsg _ hgap, ih htail, List.map_cons]

lemma passedOver_skip {start : ℕ} (h : messageStart buf = some start)
    (hskip : splitChunk (buf.drop start) = .skip) :
    PassedOver (buf.take (start + 1)) (buf.drop (start + 1)) := by
  intro i hi hhere
  rw [List.length_take] at hi
  rw [List.take_append_drop] at hhere ⊢
  rcases Nat.lt_or_eq_of_le (Nat.lt_succ_iff.1 (lt_of_lt_of_le hi (Nat.min_le_left _ _)))
    with hlt | rfl
  · have hno := (messageStart_eq_some.1 h).2.2 i hlt
    exact absurd (hhere.symm.trans hno) (by simp)
  · exact hskip

lemma Parted.behind {front left tail : Bytes}
    (hfront : PassedOver front left) (h : Parted parts tail left) :
    ∃ parts' tail', Parted parts' tail' (front ++ left) ∧
      parts'.map Prod.snd = parts.map Prod.snd ∧ tail <:+ tail' ∧
        (tail = [] → left ≠ [] → tail' = tail) := by
  cases h with
  | nil => exact ⟨[], front ++ left, .nil _, rfl, List.suffix_append _ _, fun h h' => absurd h h'⟩
  | @cons gap msg rest parts _ hgap hmsg hrest =>
      refine ⟨(front ++ gap, msg) :: parts, tail, ?_, rfl, List.suffix_refl tail, fun _ _ => rfl⟩
      rw [← List.append_assoc]
      exact .cons (hfront.append hgap) hmsg hrest

/-- **What the splitter returns is a parting of what it was given**: the messages are pieces of
it, in order and apart, and what is left unread is the end of it. -/
theorem parted_splitMessages (buf : Bytes) : ∃ parts tail rest, Parted parts tail buf ∧
    splitMessages buf = (parts.map Prod.snd, rest.length) ∧ rest <:+ tail ∧
      (rest = [] → tail = []) := by
  induction hn : buf.length using Nat.strong_induction_on generalizing buf with
  | _ n ih =>
      subst hn
      have hwhole (heq : splitMessages buf = ([], buf.length)) : ∃ parts tail rest,
          Parted parts tail buf ∧ splitMessages buf = (parts.map Prod.snd, rest.length) ∧
            rest <:+ tail ∧ (rest = [] → tail = []) :=
        ⟨[], buf, buf, .nil buf, heq, List.suffix_refl buf, id⟩
      cases hstart : messageStart buf with
      | none => exact hwhole (splitMessages_none hstart)
      | some start =>
          have hover := passedOver_take hstart
          obtain ⟨hlt, hhead, -⟩ := messageStart_eq_some.1 hstart
          have hlong := length_of_headerHere hhead
          rw [List.length_drop] at hlong
          cases hchunk : splitChunk (buf.drop start) with
          | stop => exact hwhole (splitMessages_stop hstart hchunk)
          | take total =>
              have htake := splitChunk_take hchunk
              rw [List.length_drop] at htake
              have hsplit : (buf.drop start).take total ++ (buf.drop start).drop total
                  = buf.drop start := List.take_append_drop _ _
              obtain ⟨parts, tail, rest, hparted, heq, hrest, hend⟩ :=
                ih ((buf.drop start).drop total).length
                  (by simp only [List.length_drop]; omega) _ rfl
              have hmsg : Taken ((buf.drop start).take total) ((buf.drop start).drop total) := by
                refine ⟨by rwa [hsplit], ?_⟩
                rw [hsplit, hchunk, List.length_take, List.length_drop, Nat.min_eq_left htake.2]
              refine ⟨(buf.take start, (buf.drop start).take total) :: parts, tail, rest, ?_, ?_,
                hrest, hend⟩
              · have hcons := Parted.cons (by rwa [hsplit]) hmsg hparted
                rwa [hsplit, List.take_append_drop] at hcons
              · rw [splitMessages_take hstart hchunk, heq, List.map_cons]
          | skip =>
              obtain ⟨parts, tail, rest, hparted, heq, hrest, hend⟩ :=
                ih (buf.drop (start + 1)).length (by simp only [List.length_drop]; omega) _ rfl
              have hne : buf.drop (start + 1) ≠ [] := by
                refine List.ne_nil_of_length_pos ?_
                rw [List.length_drop]
                omega
              obtain ⟨parts', tail', hparted', hmap, hsuffix, htail⟩ :=
                hparted.behind (passedOver_skip hstart hchunk)
              rw [List.take_append_drop] at hparted'
              refine ⟨parts', tail', rest, hparted', ?_, hrest.trans hsuffix, fun hnil => ?_⟩
              · rw [splitMessages_skip hstart hchunk, heq, hmap]
              · rw [htail (hend hnil) hne, hend hnil]

/-! ## Messages laid end to end -/

/-- The messages of a batch: a FIX message as it is built, or a frame without a trailer whose
header states how much is behind it.  `fits` is what is asked of a body whose length the builder
states as a `u32`. -/
inductive InnerMessage (fits : ℕ → Prop) : Bytes → Prop
  | fix (fields : List (UInt32 × String)) (seq : UInt32) (h : fits (fixBody fields seq).length) :
      InnerMessage fits (fixBuild fields seq)
  | binary (len payload : Bytes) (h : parse usizeBound len = some payload.length) :
      InnerMessage fits (header (ascii "O") len ++ payload)

lemma taken_fix {version len body close : Bytes} (hversion : soh ∉ version) (hlen : soh ∉ len)
    (hparse : parse usizeBound len = some body.length) (hbody : body = [] ∨ Ended body)
    (hclose : close.length = 7 ∧ ascii "10=" <+: close ∧ Ended close)
    (hheld : (header (ascii "FIX." ++ version) len ++ (body ++ close)).length < 2 ^ 63)
    (tail : Bytes) : Taken (header (ascii "FIX." ++ version) len ++ (body ++ close)) tail := by
  have hmark : ascii "8=FIX." <+: header (ascii "FIX." ++ version) len ++ (body ++ close) ++ tail := by
    rw [List.append_assoc]
    exact marker_version _ _ _
  have hnot : ¬ ascii "8=O\x01" <+: header (ascii "FIX." ++ version) len ++ (body ++ close) ++ tail :=
    markers_apart hmark (by decide) (by decide)
  refine ⟨decide_eq_true (Or.inl hmark), ?_⟩
  rw [splitChunk, if_neg hnot, splitFix, fixMsgLength_frame hversion hlen hparse hclose.1 hheld tail]
  simp only [trailer_found (ended_header_append hbody) hclose, if_true]
  rw [if_neg (by simp)]

lemma taken_binary {len payload : Bytes} (hparse : parse usizeBound len = some payload.length)
    (hheld : (header (ascii "O") len ++ payload).length < 2 ^ 63) (tail : Bytes) :
    Taken (header (ascii "O") len ++ payload) tail := by
  have hsoh := not_mem_of_parse hparse (b := soh) (by decide) (by decide)
  have hmark : ascii "8=O\x01" <+: header (ascii "O") len ++ payload ++ tail := by
    rw [List.append_assoc]
    exact (show ascii "8=O\x01" <+: plainMarker (ascii "O") by decide).trans
      (header_prefix_marker _ _ _)
  refine ⟨decide_eq_true (Or.inr hmark), ?_⟩
  rw [splitChunk, if_pos hmark, splitBinary, binaryMsgLength_frame (by decide) hsoh hparse hheld]
  simp only
  rw [if_neg (by simp)]

lemma InnerMessage.taken {m : Bytes} (hm : InnerMessage (· < u32Bound) m)
    (hheld : m.length < 2 ^ 63) (tail : Bytes) : Taken m tail := by
  cases hm with
  | binary len payload h => exact taken_binary h hheld tail
  | fix fields seq h =>
      have hbody : fixBody fields seq = [] ∨ Ended (fixBody fields seq) := by
        by_cases hne : fields = []
        · exact Or.inl (by rw [hne]; rfl)
        · exact Or.inr (ended_fixBody hne seq)
      have hparse : parse usizeBound (padded 4 ((fixBody fields seq).length % u32Bound))
          = some (fixBody fields seq).length := by
        rw [Nat.mod_eq_of_lt h, parse_padded (by decide) (length_fixBody_lt h)]
      rw [fixBuild_eq, Framing.frame, List.append_assoc] at hheld ⊢
      have hversion : soh ∉ ascii "4.1" := by decide
      exact taken_fix hversion (not_mem_padded (by decide) 4 _) hparse hbody (trailer_shape _) hheld
        tail

lemma parted_flatten : ∀ ms : List Bytes, (∀ m ∈ ms, InnerMessage (· < u32Bound) m) →
    ms.flatten.length < 2 ^ 63 → Parted (ms.map fun m => ([], m)) [] ms.flatten
  | [], _, _ => .nil []
  | m :: ms, hms, hheld => by
      rw [List.flatten_cons, List.length_append] at hheld
      have hrest := parted_flatten ms (fun m hm => hms m (List.mem_cons_of_mem _ hm)) (by omega)
      have htaken := (hms m List.mem_cons_self).taken (by omega) ms.flatten
      have hgap : PassedOver [] (m ++ ms.flatten) := fun i hi => absurd hi (by simp)
      exact .cons hgap htaken hrest

def splitRounds : ℕ → Bytes → Option (List Bytes × ℕ)
  | 0, _ => none
  | k + 1, buf =>
      match messageStart buf with
      | none => some ([], buf.length)
      | some start =>
          match splitChunk (buf.drop start) with
          | .take total =>
              (splitRounds k ((buf.drop start).drop total)).map fun rest =>
                ((buf.drop start).take total :: rest.1, rest.2)
          | .skip => splitRounds k (buf.drop (start + 1))
          | .stop => some ([], buf.length)

/-- **The splitter ends.**  Every round takes a byte off what is left. -/
theorem splitRounds_eq : ∀ (k : ℕ) (buf : Bytes), buf.length < k →
    splitRounds k buf = some (splitMessages buf)
  | k + 1, buf, hk => by
      rw [splitRounds]
      cases hstart : messageStart buf with
      | none => rw [splitMessages_none hstart]
      | some start =>
          have hlt := (messageStart_eq_some.1 hstart).1
          cases hchunk : splitChunk (buf.drop start) with
          | take total =>
              have htake := splitChunk_take hchunk
              rw [List.length_drop] at htake
              have hrec := splitRounds_eq k ((buf.drop start).drop total)
                (by simp only [List.length_drop]; omega)
              simp only [hchunk, hrec, Option.map_some, splitMessages_take hstart hchunk]
          | skip =>
              have hrec := splitRounds_eq k (buf.drop (start + 1))
                (by rw [List.length_drop]; omega)
              simp only [hchunk, hrec, splitMessages_skip hstart hchunk]
          | stop => simp only [hchunk, splitMessages_stop hstart hchunk]

/-- **Splitting undoes concatenation.**  Messages laid end to end come back, with nothing left
unread; and whatever the bytes, the splitter ends, and what it returns are pieces of them, apart
and in order, in front of what it left unread. -/
theorem split_undoes_concatenation :
    (∀ ms : List Bytes, (∀ m ∈ ms, InnerMessage (· < u32Bound) m) → ms.flatten.length < 2 ^ 63 →
      splitMessages ms.flatten = (ms, 0)) ∧
    ∀ buf : Bytes, splitRounds (buf.length + 1) buf = some (splitMessages buf) ∧
      ∃ (parts : List (Bytes × Bytes)) (tail rest : Bytes),
        buf = parts.flatMap (fun part => part.1 ++ part.2) ++ tail ∧
        splitMessages buf = (parts.map Prod.snd, rest.length) ∧ rest <:+ tail := by
  refine ⟨fun ms hms hheld => ?_, fun buf => ⟨splitRounds_eq _ buf (Nat.lt_succ_self _), ?_⟩⟩
  · have hread := splitMessages_parted (parted_flatten ms hms hheld) rfl
    rw [hread, List.map_map]
    exact congrArg (·, 0) (List.map_id ms)
  · obtain ⟨parts, tail, rest, hparted, heq, hrest, -⟩ := parted_splitMessages buf
    exact ⟨parts, tail, rest, hparted.eq, heq, hrest⟩

/-- Two messages, the first with a checksum and a header inside its raw block. -/
theorem split_undoes_concatenation_two :
    splitMessages [fixBuild [(35, "B"), (95, "14"), (96, "\x0110=0\x018=FIX.4")] 1,
        header (ascii "O") (ascii "6") ++ ascii "8=FIX."].flatten
      = ([fixBuild [(35, "B"), (95, "14"), (96, "\x0110=0\x018=FIX.4")] 1,
          header (ascii "O") (ascii "6") ++ ascii "8=FIX."], 0) := by
  refine split_undoes_concatenation.1 _ ?_ (by decide +kernel)
  intro m hm
  simp only [List.mem_cons, List.not_mem_nil, or_false] at hm
  rcases hm with rfl | rfl
  · exact .fix _ _ (by decide)
  · exact .binary _ _ (by decide)

lemma splitChunk_longFields : splitChunk (fixBuild (longFields (2 ^ 32)) 1) = .skip := by
  rw [splitChunk, if_neg (markers_apart marker_longFields (by decide) (by decide)), splitFix,
    fixMsgLength_longFields]
  simp only [trailer_longFields, Bool.false_eq_true, if_false]
  rw [if_neg (by rw [length_longFields]; decide)]

/-- **A message whose body reaches `2 ^ 32` bytes is lost**: the length it states is what is left
over in a `u32`, and its header is stepped over. -/
theorem not_split_undoes_concatenation :
    ¬ ∀ ms : List Bytes, (∀ m ∈ ms, InnerMessage (fun _ => True) m) →
      ms.flatten.length < 2 ^ 63 → splitMessages ms.flatten = (ms, 0) := by
  intro h
  have hskip := splitChunk_longFields
  have hmark := marker_longFields
  set m := fixBuild (longFields (2 ^ 32)) 1 with hm
  have hlen : m.length = 2 ^ 32 + 38 := length_longFields
  have hread := h [m] (fun m' hm' => by
    rw [List.mem_singleton.1 hm']
    exact .fix _ _ trivial) (by simp [hlen])
  rw [List.flatten_singleton] at hread
  have hstart : messageStart m = some 0 :=
    messageStart_eq_some.2 ⟨by omega, decide_eq_true (Or.inl hmark), by simp⟩
  rw [splitMessages_skip hstart hskip] at hread
  obtain ⟨parts, tail, rest, hparted, heq, -⟩ := parted_splitMessages (m.drop 1)
  have hparts : parts.map Prod.snd = [m] := by
    rw [hread, Prod.mk.injEq] at heq
    exact heq.1.symm
  -- the message would be a piece of itself without its first byte
  obtain ⟨part, hmem, hpart⟩ : ∃ part ∈ parts, part.2 = m := by
    have : m ∈ parts.map Prod.snd := by rw [hparts]; exact List.mem_singleton_self m
    simpa using this
  have hshort := congrArg List.length hparted.eq
  obtain ⟨l, r, rfl⟩ := List.append_of_mem hmem
  simp only [List.length_drop, List.flatMap_append, List.flatMap_cons, List.length_append, hpart]
    at hshort
  omega

/-! ## Bytes lost without a count -/

/-- **A batch that loses bytes unseen**: messages to its very end, something passed over in front
of one of them. -/
def LosesUnseen (buf : Bytes) : Prop :=
  ∃ parts : List (Bytes × Bytes), Parted parts [] buf ∧ ∃ part ∈ parts, part.1 ≠ []

lemma Parted.flatten_eq (h : Parted parts [] buf)
    (hgaps : ∀ part ∈ parts, part.1 = []) : (parts.map Prod.snd).flatten = buf := by
  rw [h.eq, List.append_nil, ← List.flatMap_def]
  refine List.flatMap_congr fun part hpart => ?_
  rw [hgaps part hpart, List.nil_append]

lemma Parted.flatten_ne (h : Parted parts [] buf)
    {part : Bytes × Bytes} (hpart : part ∈ parts) (hgap : part.1 ≠ []) :
    (parts.map Prod.snd).flatten ≠ buf := by
  intro heq
  have hpos := List.length_pos_iff.2 hgap
  have hlen := congrArg List.length (heq.trans h.eq)
  obtain ⟨l, r, rfl⟩ := List.append_of_mem hpart
  have hle (ps : List (Bytes × Bytes)) : (ps.map Prod.snd).flatten.length
      ≤ (ps.flatMap fun part => part.1 ++ part.2).length := by
    induction ps with
    | nil => exact Nat.le_refl 0
    | cons p ps ih =>
        simp only [List.map_cons, List.flatten_cons, List.flatMap_cons, List.length_append]
        omega
  have hl := hle l
  have hr := hle r
  simp only [List.map_append, List.map_cons, List.flatten_append, List.flatten_cons,
    List.flatMap_append, List.flatMap_cons, List.length_append, List.append_nil] at hlen
  omega

/-- **The batches that lose no byte unseen.**  Where the messages returned do not cover the batch
the count of unread bytes says so, except for exactly the batches that part into messages to their
very end with something passed over on the way. -/
theorem split_loses_nothing_unseen_iff (buf : Bytes) :
    ((splitMessages buf).1.flatten ≠ buf → 0 < (splitMessages buf).2) ↔ ¬ LosesUnseen buf := by
  constructor
  · rintro h ⟨parts, hparted, part, hpart, hgap⟩
    rw [splitMessages_parted hparted rfl] at h
    exact absurd (h (hparted.flatten_ne hpart hgap)) (Nat.lt_irrefl 0)
  · intro hkept hne
    by_contra hzero
    obtain ⟨parts, tail, rest, hparted, heq, -, hend⟩ := parted_splitMessages buf
    rw [heq] at hne hzero
    have hnil : tail = [] := hend (List.eq_nil_of_length_eq_zero (Nat.eq_zero_of_not_pos hzero))
    subst hnil
    refine hne (hparted.flatten_eq fun part hpart => ?_)
    by_contra hgap
    exact hkept ⟨parts, hparted, part, hpart, hgap⟩

instance (l : Bytes) : Decidable (SteppedOver l) :=
  inferInstanceAs (Decidable (headerHere l = true → splitChunk l = .skip))

instance (gap rest : Bytes) : Decidable (PassedOver gap rest) :=
  inferInstanceAs (Decidable (∀ i < gap.length, SteppedOver ((gap ++ rest).drop i)))

def unclosed : Bytes := ascii "8=FIX.4.2\x019=14\x0135=A\x0158=FIRST\x01"

def closed : Bytes := ascii "8=FIX.4.2\x019=15\x0135=A\x0158=SECOND\x0110=000\x01"

/-- **A message lost in silence.**  The one without its checksum is stepped over, the one behind it
is delivered, and nothing is counted. -/
theorem message_lost_unseen :
    (splitMessages (unclosed ++ closed)).1.flatten ≠ unclosed ++ closed ∧
      ¬ 0 < (splitMessages (unclosed ++ closed)).2 := by
  have hparted : Parted [(unclosed, closed)] [] (unclosed ++ (closed ++ [])) :=
    .cons (by decide) ⟨by decide, by decide⟩ (.nil [])
  rw [List.append_nil] at hparted
  rw [splitMessages_parted hparted rfl]
  decide

theorem fixcompDecompress_warned {inflate : Bytes → Option Bytes} {data : Bytes} {d : Decompressed}
    (h : fixcompDecompress inflate data = .ok d) : ∃ raw content, inflate raw = some content ∧
      d.messages = (splitMessages content).1 ∧
        (d.warned = true ↔ 0 < (splitMessages content).2) := by
  unfold fixcompDecompress at h
  cases hraw : (find (soh :: ascii "95=") data).elim (unstatedRaw data)
      fun p => statedRaw data (p + 1) with
  | error e => simp [hraw, bind, Except.bind] at h
  | ok raw =>
      cases hinflate : inflate raw with
      | none => simp [hraw, hinflate, bind, Except.bind, throw, throwThe, MonadExceptOf.throw] at h
      | some content =>
          refine ⟨raw, content, hinflate, ?_⟩
          simp only [hraw, hinflate, bind, Except.bind, Option.elim_some, pure, Except.pure] at h
          split at h
          · simp [throw, throwThe, MonadExceptOf.throw] at h
          · simp only [Except.ok.injEq] at h
            subst h
            exact ⟨rfl, by simp⟩

end IbkrDx
