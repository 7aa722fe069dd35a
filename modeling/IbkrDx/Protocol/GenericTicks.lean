import IbkrDx.Protocol.TickBatches

/-!
# Generic tick messages

The reader of the generic ticks of `engine/hot_loop/farm/mod.rs`: a count of bits, which wraps, and
records one behind another, each a server tag and a payload.  Nothing on a record says which tick it
carries, and how its payload is delimited is the tick's: a length in one byte, a length in two, or
the field grammar of `Protocol/TickBatches`, which ends of itself.

* **`generic_ticks_framed`** — nothing is misframed.
-/

namespace IbkrDx

open BitReader

/-! ## Reading -/

inductive PayloadLength where
  | oneByte
  | twoBytes
  | toTheEnd
  deriving DecidableEq

def twoByteLengthTicks : List ℕ :=
  [247, 256, 257, 258, 292, 385, 386, 434, 454, 481, 490, 491, 496, 546, 593, 594, 628, 631,
    633, 669, 678, 687, 691, 699, 700, 703, 705, 726]

def noLengthTicks : List ℕ := [221, 320, 376, 530, 532, 619, 787]

/-- The ticks that state no length and whose record says where it ends. -/
def selfDescribingTicks : List ℕ := [220, 221, 320, 376, 530, 532, 619, 787]

namespace PayloadLength

def of (tick : ℕ) : PayloadLength :=
  if tick ∈ twoByteLengthTicks then .twoBytes
  else if tick ∈ noLengthTicks then .toTheEnd
  else .oneByte

/-- How many bytes stand between the start of a record and its payload. -/
def header : PayloadLength → ℕ
  | toTheEnd => 4
  | oneByte => 5
  | twoBytes => 6

end PayloadLength

/-- A record as it is handed over: the tick its number was asked for under, the number and the
payload. -/
structure GenericTick where
  tick : ℕ
  serverTag : ℕ
  payload : Bytes
  deriving DecidableEq

/-- The length of a message, in bytes; the records stand on byte boundaries. -/
def genericTickLength (statedBits arrived : ℕ) : Option ℕ :=
  if bitsCarried statedBits arrived % 8 = 0 then some (bitsCarried statedBits arrived / 8) else none

/-- How many bytes the fields of a record take; nothing where they do not end, or not on a byte. -/
def fieldsWidth (rest : Bytes) : Option ℕ :=
  match (decodeRecord (rest.length * 8 + 1)).outcome (BitReader.new rest 0) with
  | (none, _) => none
  | (some _, reader) =>
      if reader.bitPos = 0 ∨ reader.bitPos % 8 ≠ 0 then none else some (reader.bitPos / 8)

def payloadStated (tick : ℕ) (frame : Bytes) : Option ℕ :=
  match PayloadLength.of tick with
  | .toTheEnd =>
      if tick ∉ selfDescribingTicks then none
      else fieldsWidth (frame.drop PayloadLength.toTheEnd.header)
  | .oneByte => frame[4]?.map UInt8.toNat
  | .twoBytes =>
      match frame[4]?, frame[5]? with
      | some hi, some lo => some (hi.toNat * 256 + lo.toNat)
      | _, _ => none

def payloadAt (tick : ℕ) (frame : Bytes) : Option (Bytes × Bytes) :=
  match payloadStated tick frame with
  | none => none
  | some stated =>
      let rest := frame.drop (PayloadLength.of tick).header
      if rest.length < stated then none else some (rest.take stated, rest.drop stated)

/-- The records of a frame.  A number nothing asked for stops the reading. -/
def readRecordsOf (tickOf : ℕ → Option ℕ) : ℕ → Bytes → List GenericTick
  | 0, _ => []
  | fuel + 1, frame =>
      if frame.length < 4 then []
      else
        match tickOf (BigEndian.ofBe (frame.take 4)) with
        | none => []
        | some tick =>
            match payloadAt tick frame with
            | none => []
            | some (payload, rest) =>
                ⟨tick, BigEndian.ofBe (frame.take 4), payload⟩ :: readRecordsOf tickOf fuel rest

def genericFrame (body : Bytes) : Option Bytes :=
  match body with
  | hi :: lo :: bytes =>
      match genericTickLength (hi.toNat * 256 + lo.toNat) body.length with
      | none => none
      | some length => if bytes.length < length then none else some (bytes.take length)
  | _ => none

def readGenericTicks (tickOf : ℕ → Option ℕ) (body : Bytes) : List GenericTick :=
  match genericFrame body with
  | none => []
  | some frame => readRecordsOf tickOf (frame.length + 1) frame

variable {tick : ℕ}

lemma selfDescribing_of_toTheEnd (h : PayloadLength.of tick = .toTheEnd) :
    tick ∈ selfDescribingTicks := by
  unfold PayloadLength.of at h
  split_ifs at h with htwo hnone
  exact List.mem_cons_of_mem _ hnone

/-! ## As the venue writes them -/

inductive FramedAs (tick : ℕ) (payload : Bytes) : Bytes → Prop
  | oneByte {n : UInt8} (htick : PayloadLength.of tick = .oneByte)
      (hlength : n.toNat = payload.length) :
      FramedAs tick payload (n :: payload)
  | twoBytes {hi lo : UInt8} (htick : PayloadLength.of tick = .twoBytes)
      (hlength : hi.toNat * 256 + lo.toNat = payload.length) :
      FramedAs tick payload (hi :: lo :: payload)
  | fields {fields : List TickField} (htick : PayloadLength.of tick = .toTheEnd)
      (hfields : fields ≠ []) (hpayload : bitsOf payload = fieldsBits fields) :
      FramedAs tick payload payload

inductive RecordsWire (tickOf : ℕ → Option ℕ) : List GenericTick → Bytes → Prop
  | nil : RecordsWire tickOf [] []
  | cons {t : GenericTick} {ts : List GenericTick} {own rest : Bytes}
      (htag : t.serverTag < 2 ^ 32) (htick : tickOf t.serverTag = some t.tick)
      (hown : FramedAs t.tick t.payload own) (hrest : RecordsWire tickOf ts rest) :
      RecordsWire tickOf (t :: ts) (BigEndian.toBe 4 t.serverTag ++ (own ++ rest))

/-- A message that carries a frame: the count of its bits as two bytes hold it, the frame, and fewer
than 8190 bytes beside it. -/
inductive GenericFrame (frame : Bytes) : Bytes → Prop
  | mk {hi lo : UInt8} {spare : Bytes}
      (hcount : hi.toNat * 256 + lo.toNat = frame.length * 8 % bitCycle)
      (hspare : spare.length < 8190) : GenericFrame frame (hi :: lo :: (frame ++ spare))

/-- Records that stand in some bytes: each its server tag, what states its length and its payload,
one behind another. -/
inductive Stand (tickOf : ℕ → Option ℕ) : List GenericTick → Bytes → Prop
  | nil (rest : Bytes) : Stand tickOf [] rest
  | cons {t : GenericTick} {ts : List GenericTick} {rest : Bytes} (tag stated : Bytes)
      (htag : tag.length = 4 ∧ BigEndian.ofBe tag = t.serverTag)
      (htick : tickOf t.serverTag = some t.tick)
      (hstated : 4 + stated.length = (PayloadLength.of t.tick).header)
      (hrest : Stand tickOf ts rest) :
      Stand tickOf (t :: ts) (tag ++ (stated ++ (t.payload ++ rest)))

/-! ## Where the fields of a record end -/

/-- Where a reader stands: its bytes, its end, and whether it has run past that. -/
def BitReader.bounds (r : BitReader) : Bytes × ℕ × Bool :=
  (r.data, r.totalBits, decide (r.bitPos ≤ r.totalBits))

lemma keeps_enough (n : ℕ) : Reader.Keeps BitReader.bounds (enough n) := by
  intro r
  have hrun : (enough n).outcome r = if r.remaining < n then (none, r) else (some (), r) := by
    rw [enough]
    refine (Reader.outcome_bind_some (Reader.gives_get r)).trans ?_
    split_ifs <;> rfl
  rw [hrun]
  split_ifs <;> rfl

lemma bounds_advance {r : BitReader} {n : ℕ} (h : n = 0 ∨ r.bitPos + n ≤ r.totalBits) :
    (r.advance n).bounds = r.bounds := by
  have hiff : r.bitPos + n ≤ r.totalBits ↔ r.bitPos ≤ r.totalBits := by omega
  simp only [bounds, advance, hiff]

lemma keeps_skip (n : ℕ) : Reader.Keeps BitReader.bounds (skip n) := by
  intro r
  by_cases hshort : r.remaining < n
  · have hrun : (enough n).outcome r = (none, r) := by
      refine (Reader.outcome_bind_some (Reader.gives_get r)).trans ?_
      rw [if_pos hshort]
      rfl
    rw [skip, Reader.outcome_bind_none hrun]
  · have hread : Reader.Gives (skip n) r () (r.advance n) := gives_skip (not_lt.1 hshort)
    rw [Reader.Gives] at hread
    rw [hread]
    refine bounds_advance ?_
    rw [remaining] at hshort
    omega

lemma keeps_readUnsigned (n : ℕ) : Reader.Keeps BitReader.bounds (readUnsigned n) := by
  intro r
  have hrun : (readUnsigned n).outcome r = if n = 0 then (some 0, r)
      else if 64 < n ∨ r.totalBits < r.bitPos + n then (none, r)
      else (some (r.unsignedAt n), r.advance n) := by
    refine (Reader.outcome_bind_some (Reader.gives_get r)).trans ?_
    split_ifs <;> rfl
  rw [hrun]
  split_ifs with hnone hshort
  · rfl
  · rfl
  · exact bounds_advance (by omega)

lemma keeps_decodeFieldName (hasMore : Bool) (rawTickType rawWidth : ℕ) :
    Reader.Keeps BitReader.bounds (decodeFieldName hasMore rawTickType rawWidth) := by
  rw [decodeFieldName]
  split_ifs
  · refine (keeps_enough 16).bind fun _ => ?_
    refine (keeps_readUnsigned 8).bind fun _ => ?_
    refine (keeps_readUnsigned 4).bind fun _ => ?_
    exact (keeps_readUnsigned 4).bind fun _ => Reader.keeps_pure _
  · exact Reader.keeps_pure _

lemma keeps_decodeFieldHead : Reader.Keeps BitReader.bounds decodeFieldHead := by
  refine (keeps_enough 8).bind fun _ => ?_
  refine (keeps_readUnsigned 5).bind fun _ => ?_
  refine (keeps_readUnsigned 1).bind fun _ => ?_
  exact (keeps_readUnsigned 2).bind fun _ => keeps_decodeFieldName _ _ _

lemma keeps_decodeFieldValue (n : ℕ) : Reader.Keeps BitReader.bounds (decodeFieldValue n) := by
  refine (keeps_enough n).bind fun _ => ?_
  split_ifs
  · exact Reader.keeps_pure _
  · exact (keeps_skip n).bind fun _ => Reader.keeps_pure _
  · refine (keeps_readUnsigned 1).bind fun _ => ?_
    exact (keeps_readUnsigned (n - 1)).bind fun _ => Reader.keeps_pure _

lemma keeps_decodeField : Reader.Keeps BitReader.bounds decodeField :=
  keeps_decodeFieldHead.bind fun _ => (keeps_decodeFieldValue _).bind fun _ => Reader.keeps_pure _

lemma keeps_decodeRecord : ∀ fuel : ℕ, Reader.Keeps BitReader.bounds (decodeRecord fuel)
  | 0 => fun _ => rfl
  | fuel + 1 => by
      refine keeps_decodeField.bind fun field => ?_
      obtain ⟨field, hasMore⟩ := field
      cases hasMore with
      | true => exact (keeps_decodeRecord fuel).bind fun _ => Reader.keeps_pure _
      | false => exact Reader.keeps_pure _

lemma unread_new_zero (data : Bytes) : (BitReader.new data 0).unread = bitsOf data := by
  have hall : (bitsOf data).take (data.length * 8) = bitsOf data :=
    List.take_of_length_le (length_bitsOf data).le
  simpa only [unread, BitReader.new, Nat.lt_irrefl, if_false, List.drop_zero] using hall

lemma fieldsWidth_wire {payload rest : Bytes} {fields : List TickField} (hfields : fields ≠ [])
    (hpayload : bitsOf payload = fieldsBits fields) :
    fieldsWidth (payload ++ rest) = some payload.length := by
  have hlen := congrArg List.length hpayload
  have hpos := length_fieldsBits hfields
  rw [length_bitsOf] at hlen
  have hunread : (BitReader.new (payload ++ rest) 0).unread = fieldsBits fields ++ bitsOf rest := by
    rw [unread_new_zero, bitsOf_append, hpayload]
  obtain ⟨reader, hread, hleft⟩ := readsOff_decodeRecord hfields ((payload ++ rest).length * 8 + 1)
    (by rw [List.length_append]; omega) _ _ hunread
  have hbounds := keeps_decodeRecord ((payload ++ rest).length * 8 + 1)
    (BitReader.new (payload ++ rest) 0)
  rw [Reader.Gives] at hread
  rw [hread] at hbounds
  have hplace : reader.bitPos = payload.length * 8 := by
    have hremaining := congrArg List.length hleft
    simp only [bounds, BitReader.new, Prod.mk.injEq, Nat.lt_irrefl, if_false, Nat.zero_le,
      decide_true, decide_eq_true_eq] at hbounds
    rw [length_unread, remaining, length_bitsOf] at hremaining
    obtain ⟨-, htotal, hinside⟩ := hbounds
    rw [List.length_append] at htotal
    omega
  rw [fieldsWidth, hread]
  simp only [hplace, Nat.mul_mod_left, Nat.mul_div_cancel _ (Nat.zero_lt_succ 7)]
  rw [if_neg (by omega)]

/-! ## What is written is read -/

lemma payloadAt_eq (front payload rest : Bytes)
    (hfront : front.length = (PayloadLength.of tick).header)
    (hstated : payloadStated tick (front ++ (payload ++ rest)) = some payload.length) :
    payloadAt tick (front ++ (payload ++ rest)) = some (payload, rest) := by
  rw [payloadAt, hstated]
  simp only [List.drop_left' hfront]
  rw [if_neg (by rw [List.length_append]; omega), List.take_left, List.drop_left]

lemma payloadAt_wire {tag payload own rest : Bytes} (htag : tag.length = 4)
    (h : FramedAs tick payload own) :
    payloadAt tick (tag ++ (own ++ rest)) = some (payload, rest) := by
  have hat (behind : Bytes) : (tag ++ behind)[4]? = behind[0]? ∧
      (tag ++ behind)[5]? = behind[1]? := by
    rw [List.getElem?_append_right htag.le, List.getElem?_append_right (by omega), htag]
    exact ⟨rfl, rfl⟩
  cases h with
  | @oneByte n htick hlength =>
      have h := payloadAt_eq (tag ++ [n]) payload rest
        (by rw [htick, List.length_append, htag]; rfl)
      rw [List.append_assoc] at h
      refine h ?_
      rw [payloadStated, htick]
      simp only [(hat _).1, ← hlength]
      rfl
  | @twoBytes hi lo htick hlength =>
      have h := payloadAt_eq (tag ++ [hi, lo]) payload rest
        (by rw [htick, List.length_append, htag]; rfl)
      rw [List.append_assoc] at h
      refine h ?_
      rw [payloadStated, htick]
      simp only [(hat _).1, (hat _).2]
      exact congrArg some hlength
  | fields htick hfields hpayload =>
      refine payloadAt_eq tag payload rest (by rw [htick, htag]; rfl) ?_
      rw [payloadStated, htick]
      simp only []
      rw [if_neg (not_not.2 (selfDescribing_of_toTheEnd htick))]
      have hdrop : (tag ++ (payload ++ rest)).drop PayloadLength.toTheEnd.header
          = payload ++ rest := List.drop_left' htag
      rw [hdrop]
      exact fieldsWidth_wire hfields hpayload

lemma readRecordsOf_wire {tickOf : ℕ → Option ℕ} {ts : List GenericTick} {own : Bytes}
    (h : RecordsWire tickOf ts own) {left : Bytes}
    (hstop : ∀ fuel, readRecordsOf tickOf fuel left = []) :
    ∀ fuel, own.length < fuel → readRecordsOf tickOf fuel (own ++ left) = ts := by
  induction h with
  | nil => exact fun fuel _ => hstop fuel
  | @cons t ts own rest htag htick hown _ ih =>
      rintro (_ | fuel) hfuel
      · exact absurd hfuel (Nat.not_lt_zero _)
      · have hlength := BigEndian.length_toBe 4 t.serverTag
        have htake : (BigEndian.toBe 4 t.serverTag ++ (own ++ (rest ++ left))).take 4
            = BigEndian.toBe 4 t.serverTag := List.take_left' hlength
        have hvalue : BigEndian.ofBe (BigEndian.toBe 4 t.serverTag) = t.serverTag :=
          BigEndian.ofBe_toBe_of_lt htag
        simp only [List.length_append, hlength] at hfuel
        simp only [List.append_assoc]
        rw [readRecordsOf, if_neg (by rw [List.length_append, hlength]; omega), htake, hvalue,
          htick]
        simp only [payloadAt_wire hlength hown, ih fuel (by omega)]

lemma genericFrame_of {frame body : Bytes} (h : GenericFrame frame body) :
    genericFrame body = some frame := by
  obtain @⟨hi, lo, spare, hcount, hspare⟩ := h
  have hcarried : bitsCarried (hi.toNat * 256 + lo.toNat) (hi :: lo :: (frame ++ spare)).length
      = frame.length * 8 := by
    rw [hcount]
    refine bitsCarried_eq ?_ ?_ (frame.length * 8 / bitCycle) _ (Nat.mod_add_div' _ _)
    · simp only [List.length_cons, List.length_append]
      omega
    · simp only [List.length_cons, List.length_append, bitCycle]
      omega
  have hlength : genericTickLength (hi.toNat * 256 + lo.toNat) (hi :: lo :: (frame ++ spare)).length
      = some frame.length := by
    rw [genericTickLength, hcarried, if_pos (Nat.mul_mod_left _ _),
      Nat.mul_div_cancel _ (Nat.zero_lt_succ 7)]
  rw [genericFrame, hlength]
  simp only [List.take_left]
  rw [if_neg (by rw [List.length_append]; omega)]

/-! ## What is read stands in the bytes -/

lemma payloadStated_header {n : ℕ} {frame : Bytes} (hlong : 4 ≤ frame.length)
    (h : payloadStated tick frame = some n) : (PayloadLength.of tick).header ≤ frame.length := by
  unfold payloadStated at h
  split at h
  case h_1 hform => rwa [hform]
  case h_2 hform =>
    obtain ⟨o, ho, -⟩ := Option.map_eq_some_iff.1 h
    rw [hform]
    exact (List.getElem?_eq_some_iff.1 ho).1
  case h_3 hform =>
    split at h
    case h_1 hlo =>
      rw [hform]
      exact (List.getElem?_eq_some_iff.1 hlo).1
    case h_2 => cases h

lemma payloadAt_some {frame payload rest : Bytes} (hlong : 4 ≤ frame.length)
    (h : payloadAt tick frame = some (payload, rest)) :
    ∃ stated : Bytes, frame = frame.take 4 ++ (stated ++ (payload ++ rest)) ∧
      4 + stated.length = (PayloadLength.of tick).header := by
  rw [payloadAt] at h
  rcases hstated : payloadStated tick frame with _ | n
  · rw [hstated] at h
    cases h
  · rw [hstated] at h
    simp only [] at h
    split_ifs at h
    cases h
    have hheader := payloadStated_header hlong hstated
    have hfour : 4 ≤ (PayloadLength.of tick).header := by
      cases PayloadLength.of tick <;> decide
    have hdrop : frame.drop (PayloadLength.of tick).header
        = (frame.drop 4).drop ((PayloadLength.of tick).header - 4) := by
      rw [List.drop_drop, Nat.add_sub_cancel' hfour]
    refine ⟨(frame.drop 4).take ((PayloadLength.of tick).header - 4), ?_, ?_⟩
    · rw [List.take_append_drop, hdrop, List.take_append_drop, List.take_append_drop]
    · rw [List.length_take, List.length_drop]
      omega

lemma length_payloadAt {frame payload rest : Bytes} (hlong : 4 ≤ frame.length)
    (h : payloadAt tick frame = some (payload, rest)) : rest.length < frame.length := by
  obtain ⟨stated, hframe, -⟩ := payloadAt_some hlong h
  have hlen := congrArg List.length hframe
  simp only [List.length_append, List.length_take] at hlen
  omega

lemma readRecordsOf_stand (tickOf : ℕ → Option ℕ) : ∀ (fuel : ℕ) (frame : Bytes),
    Stand tickOf (readRecordsOf tickOf fuel frame) frame
  | 0, frame => .nil frame
  | fuel + 1, frame => by
      rw [readRecordsOf]
      split_ifs with hshort
      · exact .nil frame
      · rcases htick : tickOf (BigEndian.ofBe (frame.take 4)) with _ | tick
        · exact .nil frame
        · rcases hpayload : payloadAt tick frame with _ | ⟨payload, rest⟩
          · simp only [hpayload]
            exact .nil frame
          · obtain ⟨stated, hframe, hstated⟩ := payloadAt_some (not_lt.1 hshort) hpayload
            have hfour : (frame.take 4).length = 4 := by
              rw [List.length_take]
              omega
            have h := Stand.cons (t := ⟨tick, BigEndian.ofBe (frame.take 4), payload⟩) _ stated
              ⟨hfour, rfl⟩ htick hstated (readRecordsOf_stand tickOf fuel rest)
            rw [← hframe] at h
            simpa only [hpayload] using h

lemma readRecordsOf_fuel (tickOf : ℕ → Option ℕ) : ∀ {fuel fuel' : ℕ} {frame : Bytes},
    frame.length < fuel → frame.length < fuel' →
      readRecordsOf tickOf fuel frame = readRecordsOf tickOf fuel' frame
  | 0, _, _, h, _ => absurd h (Nat.not_lt_zero _)
  | _ + 1, 0, _, _, h => absurd h (Nat.not_lt_zero _)
  | fuel + 1, fuel' + 1, frame, h, h' => by
      rw [readRecordsOf, readRecordsOf]
      split_ifs with hshort
      · rfl
      · rcases tickOf (BigEndian.ofBe (frame.take 4)) with _ | tick
        · rfl
        · rcases hpayload : payloadAt tick frame with _ | ⟨payload, rest⟩
          · simp only [hpayload]
          · have hlen := length_payloadAt (not_lt.1 hshort) hpayload
            have hrest : readRecordsOf tickOf fuel rest = readRecordsOf tickOf fuel' rest :=
              readRecordsOf_fuel tickOf (by omega) (by omega)
            simp only [hpayload, hrest]

lemma genericFrame_some {body frame : Bytes} (h : genericFrame body = some frame) :
    ∃ (hi lo : UInt8) (behind : Bytes), body = hi :: lo :: (frame ++ behind) ∧
      frame.length * 8 = bitsCarried (hi.toNat * 256 + lo.toNat) body.length := by
  rcases body with _ | ⟨hi, _ | ⟨lo, bytes⟩⟩
  · cases h
  · cases h
  · rw [genericFrame, genericTickLength] at h
    split_ifs at h with hwhole
    simp only [] at h
    split_ifs at h with hshort
    cases h
    refine ⟨hi, lo, bytes.drop _, by rw [List.take_append_drop], ?_⟩
    rw [List.length_take, min_eq_left (not_lt.1 hshort)]
    omega

/-! ## Any message -/

/-- What is handed over of a message, whatever the bytes of it are: records that stand one behind
another in the bytes it counts. -/
def StandsWithin (tickOf : ℕ → Option ℕ) (body : Bytes) : Prop :=
  readGenericTicks tickOf body = [] ∨ ∃ (hi lo : UInt8) (frame behind : Bytes),
    body = hi :: lo :: (frame ++ behind) ∧
    frame.length * 8 = bitsCarried (hi.toNat * 256 + lo.toNat) body.length ∧
    Stand tickOf (readGenericTicks tickOf body) frame

lemma standsWithin (tickOf : ℕ → Option ℕ) (body : Bytes) : StandsWithin tickOf body := by
  rw [StandsWithin, readGenericTicks]
  rcases hframe : genericFrame body with _ | frame
  · exact Or.inl rfl
  · obtain ⟨hi, lo, behind, hbody, hlength⟩ := genericFrame_some hframe
    exact Or.inr ⟨hi, lo, frame, behind, hbody, hlength, readRecordsOf_stand tickOf _ _⟩

/-- **Nothing is misframed.**  Records written one behind another, each framed as its tick demands,
are handed over with their own payloads, up to the first whose tag nothing asked for; and whatever
the bytes are, what is handed over stands in the bytes counted and the loop ends. -/
theorem generic_ticks_framed (tickOf : ℕ → Option ℕ) :
    (∀ (ts : List GenericTick) (frame body : Bytes), RecordsWire tickOf ts frame →
      GenericFrame frame body → readGenericTicks tickOf body = ts) ∧
    (∀ (ts : List GenericTick) (known : Bytes) (unknown : ℕ) (behind body : Bytes),
      RecordsWire tickOf ts known → unknown < 2 ^ 32 → tickOf unknown = none →
      GenericFrame (known ++ (BigEndian.toBe 4 unknown ++ behind)) body →
      readGenericTicks tickOf body = ts) ∧
    (∀ body : Bytes, StandsWithin tickOf body) ∧
    ∀ (frame : Bytes) (fuel : ℕ), frame.length < fuel →
      readRecordsOf tickOf fuel frame = readRecordsOf tickOf (frame.length + 1) frame := by
  refine ⟨?_, ?_, standsWithin tickOf, fun _ _ h => ?_⟩
  · intro ts frame body hrecords hframe
    have hnone : ∀ fuel, readRecordsOf tickOf fuel [] = []
      | 0 => rfl
      | fuel + 1 => rfl
    have h := readRecordsOf_wire hrecords hnone (frame.length + 1) (Nat.lt_succ_self _)
    rw [List.append_nil] at h
    rw [readGenericTicks, genericFrame_of hframe]
    exact h
  · intro ts known unknown behind body hrecords hlt hunknown hframe
    have hlength := BigEndian.length_toBe 4 unknown
    have hstop : ∀ fuel, readRecordsOf tickOf fuel (BigEndian.toBe 4 unknown ++ behind) = []
      | 0 => rfl
      | fuel + 1 => by
          rw [readRecordsOf, List.take_left' hlength, BigEndian.ofBe_toBe_of_lt hlt, hunknown]
          split_ifs <;> rfl
    rw [readGenericTicks, genericFrame_of hframe]
    refine readRecordsOf_wire hrecords hstop _ ?_
    rw [List.length_append]
    omega
  · exact readRecordsOf_fuel tickOf h (Nat.lt_succ_self _)

/-- Three subscriptions: a credit mark, a trade and a news feed. -/
def threeTicks (serverTag : ℕ) : Option ℕ :=
  ([(7, 221), (8, 233), (9, 292)].find? fun held : ℕ × ℕ => held.1 = serverTag).map (·.2)

/-- A record of each, and the first bytes of one nothing asked for. -/
theorem generic_ticks_framed_three :
    readGenericTicks threeTicks
        [0, 224, 0, 0, 0, 7, 3, 0, 0, 0, 100, 0, 0, 0, 8, 2, 65, 66, 0, 0, 0, 9, 0, 1, 90,
          0, 0, 0, 10, 1]
      = [⟨221, 7, [3, 0, 0, 0, 100]⟩, ⟨233, 8, [65, 66]⟩, ⟨292, 9, [90]⟩] := by
  have hmark : bitsOf [3, 0, 0, 0, 100] = fieldsBits [⟨.short 0 3, false, 100, by decide⟩] := by
    decide
  have hwire : RecordsWire threeTicks
      [⟨221, 7, [3, 0, 0, 0, 100]⟩, ⟨233, 8, [65, 66]⟩, ⟨292, 9, [90]⟩]
      [0, 0, 0, 7, 3, 0, 0, 0, 100, 0, 0, 0, 8, 2, 65, 66, 0, 0, 0, 9, 0, 1, 90] :=
    .cons (by decide) rfl (.fields rfl (List.cons_ne_nil _ _) hmark) <|
      .cons (by decide) rfl (@FramedAs.oneByte _ _ 2 rfl rfl) <|
        .cons (by decide) rfl (@FramedAs.twoBytes _ _ 0 1 rfl rfl) .nil
  exact (generic_ticks_framed threeTicks).2.1 _ _ 10 [1] _ hwire (by decide) rfl
    (@GenericFrame.mk _ 0 224 [] rfl (by decide))

end IbkrDx
