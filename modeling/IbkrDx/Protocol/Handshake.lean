import IbkrDx.Protocol.AuthFrames
import IbkrDx.Protocol.TextFrames

/-!
# The handshake wire

The ns frames of `protocol/ns.rs`: a magic, a length in four bytes, and a text whose fields each end
with a semicolon, read off a socket one read at a time, bounded by the clock.

* **`nsRecvs_parse`** — however the frames arrive, each is received whole and parsed back.
-/

namespace IbkrDx

open BigEndian Decimal Texts

/-! ## The text -/

def nsMagic : Bytes := ascii "#%#%"

/-- The byte `;`. -/
def semicolon : UInt8 := 59

def nsPayload (version msgType : UInt32) (fields : List String) (pre : String) : Bytes :=
  asBytes pre ++ (text version.toNat ++ semicolon :: (text msgType.toNat ++ semicolon ::
    fields.flatMap fun f => asBytes f ++ [semicolon]))

def nsFrame (payload : Bytes) : Bytes := nsMagic ++ (toBe 4 payload.length ++ payload)

def nsBuild (version msgType : UInt32) (fields : List String) (pre : String) : Bytes :=
  nsFrame (nsPayload version msgType fields pre)

/-- The text without the prefix, in either case.  Four bytes that match are four characters. -/
def stripMisc (t : List Char) : List Char :=
  if (t.take 4).map Char.toLower = "MISC".toList.map Char.toLower then t.drop 4 else t

def parseU32 (part : List Char) : Option UInt32 :=
  (parse u32Bound (Utf8.encode part)).map UInt32.ofNat

/-- The last semicolon ends a field, so the empty part behind it is none. -/
def withoutTerminator (parts : List (List Char)) : List (List Char) :=
  if parts.getLast? = some [] then parts.dropLast else parts

/-- The version, the type and the fields of the parts of a text. -/
def nsParseParts : List (List Char) → Option (UInt32 × UInt32 × List String)
  | version :: msgType :: parts => do
      let version ← parseU32 version
      let msgType ← parseU32 msgType
      return (version, msgType, (withoutTerminator parts).map String.ofList)
  | _ => none

def nsParse (payload : Bytes) : Option (UInt32 × UInt32 × List String) :=
  (Utf8.decode payload).bind fun t => nsParseParts ((stripMisc t).splitOn ';')

/-! ## The socket -/

inductive NsError where
  | timedOut
  | unexpectedEof
  | invalidData
  | other
  deriving DecidableEq

inductive ReadPause where
  | wouldBlock
  | timedOut
  | interrupted
  deriving DecidableEq

/-- What one read of the socket gives: bytes, of which it takes as many as it asked for, a pause, or
a failure. -/
inductive ReadOutcome where
  | gives (bytes : Bytes)
  | pauses (why : ReadPause)
  | fails
  deriving DecidableEq

structure SocketRead where
  clock : ℕ
  outcome : ReadOutcome
  deriving DecidableEq

/-- Fill so many bytes one read at a time, bounded by the clock; the reads that are left.  Behind
the last of the reads the clock has run out. -/
def readBounded (deadline : ℕ) : ℕ → List SocketRead → Except NsError Bytes × List SocketRead
  | 0, reads => (.ok [], reads)
  | _ + 1, [] => (.error .timedOut, [])
  | want + 1, ⟨clock, outcome⟩ :: reads =>
      if deadline ≤ clock then (.error .timedOut, ⟨clock, outcome⟩ :: reads)
      else
        match outcome with
        | .gives bytes =>
            if bytes = [] then (.error .unexpectedEof, reads)
            else if want + 1 < bytes.length then
              -- what was not asked for is there for the next read
              (.ok (bytes.take (want + 1)), ⟨clock, .gives (bytes.drop (want + 1))⟩ :: reads)
            else
              ((readBounded deadline (want + 1 - bytes.length) reads).1.map (bytes ++ ·),
                (readBounded deadline (want + 1 - bytes.length) reads).2)
        | .pauses _ => readBounded deadline (want + 1) reads
        | .fails => (.error .other, reads)

def maxNsFrame : ℕ := 64 * 1024

def nsBuffer : ℕ := 8192

def readPayload (deadline : ℕ) (left : ℕ) (reads : List SocketRead) :
    Except NsError Bytes × List SocketRead :=
  if left = 0 then (.ok [], reads)
  else
    match readBounded deadline (min left nsBuffer) reads with
    | (.error e, reads) => (.error e, reads)
    | (.ok bytes, reads) =>
        ((readPayload deadline (left - min left nsBuffer) reads).1.map (bytes ++ ·),
          (readPayload deadline (left - min left nsBuffer) reads).2)
termination_by left
decreasing_by all_goals rw [nsBuffer]; omega

/-- The payload behind a header, and how many bytes the frame took. -/
def recvBehind (deadline : ℕ) (header : Bytes) (reads : List SocketRead) :
    Except NsError (Bytes × ℕ) × List SocketRead :=
  if header.take 4 ≠ nsMagic then (.error .invalidData, reads)
  else if maxNsFrame < ofBe (header.drop 4) then (.error .invalidData, reads)
  else
    ((readPayload deadline (ofBe (header.drop 4)) reads).1.map fun payload =>
      (payload, ofBe (header.drop 4) + 8), (readPayload deadline (ofBe (header.drop 4)) reads).2)

def nsRecv (deadline : ℕ) (reads : List SocketRead) :
    Except NsError (Bytes × ℕ) × List SocketRead :=
  match readBounded deadline 8 reads with
  | (.error e, reads) => (.error e, reads)
  | (.ok header, reads) => recvBehind deadline header reads

def nsRecvs : List ℕ → List SocketRead → List (Except NsError (Bytes × ℕ))
  | [], _ => []
  | deadline :: deadlines, reads =>
      (nsRecv deadline reads).1 :: nsRecvs deadlines (nsRecv deadline reads).2

/-! ## Reads that deliver -/

/-- The reads hand over these bytes before the deadline: each gives some of them or pauses. -/
inductive HandsOver (deadline : ℕ) : Bytes → List SocketRead → Prop
  | nil : HandsOver deadline [] []
  | gives {clock : ℕ} {chunk bytes : Bytes} {reads : List SocketRead} (hclock : clock < deadline)
      (hchunk : chunk ≠ []) (hrest : HandsOver deadline bytes reads) :
      HandsOver deadline (chunk ++ bytes) (⟨clock, .gives chunk⟩ :: reads)
  | pauses {clock : ℕ} {bytes : Bytes} {reads : List SocketRead} (why : ReadPause)
      (hclock : clock < deadline) (hmore : bytes ≠ []) (hrest : HandsOver deadline bytes reads) :
      HandsOver deadline bytes (⟨clock, .pauses why⟩ :: reads)

variable {reads : List SocketRead} {deadline : ℕ}

lemma HandsOver.eq_nil {bytes : Bytes}
    (h : HandsOver deadline bytes reads) (hnil : bytes = []) : reads = [] := by
  cases h with
  | nil => rfl
  | gives hclock hchunk hrest => exact absurd (List.append_eq_nil_iff.1 hnil).1 hchunk
  | pauses why hclock hmore hrest => exact absurd hnil hmore

lemma readBounded_handsOver {bytes : Bytes}
    (h : HandsOver deadline bytes reads) (behind : List SocketRead) :
    ∀ want ≤ bytes.length, ∃ left, HandsOver deadline (bytes.drop want) left ∧
      readBounded deadline want (reads ++ behind) = (.ok (bytes.take want), left ++ behind) := by
  induction h with
  | nil =>
      intro want hwant
      obtain rfl : want = 0 := Nat.le_zero.1 hwant
      exact ⟨[], .nil, by rw [readBounded]; rfl⟩
  | @gives clock chunk bytes reads hclock hchunk hrest ih =>
      intro want hwant
      cases want with
      | zero => exact ⟨_, .gives hclock hchunk hrest, by rw [readBounded]; rfl⟩
      | succ want =>
          rw [List.cons_append, readBounded, if_neg (Nat.not_le.2 hclock)]
          rcases Nat.lt_or_ge (want + 1) chunk.length with hlong | hshort
          · -- the read asks for less than there is
            have hleft : chunk.drop (want + 1) ≠ [] :=
              List.ne_nil_of_length_pos (by rw [List.length_drop]; omega)
            refine ⟨⟨clock, .gives (chunk.drop (want + 1))⟩ :: reads, ?_, ?_⟩
            · rw [List.drop_append_of_le_length hlong.le]
              exact .gives hclock hleft hrest
            · simp only [if_neg hchunk, if_pos hlong]
              rw [List.take_append_of_le_length hlong.le]
              rfl
          · rw [List.length_append] at hwant
            obtain ⟨left, hhands, hread⟩ := ih (want + 1 - chunk.length) (by omega)
            refine ⟨left, ?_, ?_⟩
            · rwa [List.drop_append, List.drop_of_length_le hshort, List.nil_append]
            · simp only [if_neg hchunk, if_neg (Nat.not_lt.2 hshort), hread]
              rw [List.take_append, List.take_of_length_le hshort]
              rfl
  | @pauses clock bytes reads why hclock hmore hrest ih =>
      intro want hwant
      cases want with
      | zero => exact ⟨_, .pauses why hclock hmore hrest, by rw [readBounded]; rfl⟩
      | succ want =>
          rw [List.cons_append, readBounded, if_neg (Nat.not_le.2 hclock)]
          exact ih (want + 1) hwant

lemma readPayload_handsOver (behind : List SocketRead) : ∀ (left : ℕ) {bytes : Bytes}
    {reads : List SocketRead}, HandsOver deadline bytes reads → left ≤ bytes.length →
      ∃ after, HandsOver deadline (bytes.drop left) after ∧
        readPayload deadline left (reads ++ behind) = (.ok (bytes.take left), after ++ behind) := by
  intro left
  induction left using Nat.strong_induction_on with
  | _ left ih =>
      intro bytes reads h hleft
      rcases Nat.eq_zero_or_pos left with rfl | hpos
      · exact ⟨reads, h, by rw [readPayload, if_pos rfl]; rfl⟩
      · obtain ⟨mid, hmid, hread⟩ := readBounded_handsOver h behind (min left nsBuffer) (by omega)
        have hbuffer : 0 < nsBuffer := by decide
        obtain ⟨after, hafter, hrest⟩ := ih (left - min left nsBuffer) (by omega) hmid
          (by rw [List.length_drop]; omega)
        refine ⟨after, ?_, ?_⟩
        · rwa [List.drop_drop, Nat.add_sub_cancel' (Nat.min_le_left _ _)] at hafter
        · rw [readPayload, if_neg (Nat.pos_iff_ne_zero.1 hpos), hread]
          simp only [hrest]
          rw [← Nat.add_sub_cancel' (Nat.min_le_left left nsBuffer), List.take_add,
            Nat.add_sub_cancel' (Nat.min_le_left left nsBuffer)]
          rfl

lemma nsRecv_handsOver {payload : Bytes} (hshort : payload.length ≤ maxNsFrame)
    (h : HandsOver deadline (nsFrame payload) reads)
    (behind : List SocketRead) :
    nsRecv deadline (reads ++ behind) = (.ok (payload, payload.length + 8), behind) := by
  have hhead : (nsMagic ++ toBe 4 payload.length).length = 8 := by
    rw [List.length_append, length_toBe]
    decide
  have hframe : nsFrame payload = (nsMagic ++ toBe 4 payload.length) ++ payload := by
    rw [nsFrame, List.append_assoc]
  rw [hframe] at h
  obtain ⟨mid, hmid, hread⟩ := readBounded_handsOver h behind 8
    (by rw [List.length_append, hhead]; omega)
  rw [List.drop_left' hhead] at hmid
  rw [List.take_left' hhead] at hread
  obtain ⟨after, hafter, hpayload⟩ := readPayload_handsOver behind payload.length hmid le_rfl
  rw [List.drop_length] at hafter
  rw [List.take_length] at hpayload
  have hmagic : (nsMagic ++ toBe 4 payload.length).take 4 = nsMagic := List.take_left' (by decide)
  have hlen : ofBe ((nsMagic ++ toBe 4 payload.length).drop 4) = payload.length := by
    rw [List.drop_left' (by decide), ofBe_toBe_of_lt]
    exact lt_of_le_of_lt hshort (by decide)
  rw [hafter.eq_nil rfl, List.nil_append] at hpayload
  rw [nsRecv, hread]
  simp only [recvBehind, hmagic, hlen, hpayload, if_neg (Nat.not_lt.2 hshort), ne_eq,
    not_true_eq_false, if_false]
  rfl

/-! ## What is parsed -/

/-- A message to send: fields without a semicolon, in a payload that fits a frame. -/
structure NsMessage where
  version : UInt32
  msgType : UInt32
  fields : List String
  misc : Bool
  separable : ∀ f ∈ fields, ';' ∉ f.toList
  short : (nsPayload version msgType fields (if misc then "MISC" else "")).length ≤ maxNsFrame

namespace NsMessage

def payload (m : NsMessage) : Bytes :=
  nsPayload m.version m.msgType m.fields (if m.misc then "MISC" else "")

def build (m : NsMessage) : Bytes :=
  nsBuild m.version m.msgType m.fields (if m.misc then "MISC" else "")

end NsMessage

lemma parseU32_numeral (n : UInt32) : parseU32 (numeral n.toNat) = some n := by
  have hread : parse u32Bound (text n.toNat) = some n.toNat := parse_text n.toNat_lt
  rw [parseU32, encode_numeral, hread, Option.map_some, UInt32.ofNat_toNat]

lemma semicolon_not_mem_numeral (n : ℕ) : ';' ∉ numeral n := fun h =>
  absurd (digit_of_mem_numeral h).2 (by decide)

lemma stripMisc_numeral (n : ℕ) (rest : List Char) :
    stripMisc (numeral n ++ rest) = numeral n ++ rest := by
  have hne : numeral n ≠ [] := fun h => text_ne_nil n (List.map_eq_nil_iff.1 h)
  obtain ⟨c, cs, hnumeral⟩ := List.exists_cons_of_ne_nil hne
  have hdigit : c.toNat ≤ 57 := (digit_of_mem_numeral (hnumeral ▸ List.mem_cons_self)).2
  have hlower : c.toLower = c := by
    delta Char.toLower
    rw [dif_neg]
    intro h
    exact absurd (UInt32.le_iff_toNat_le.1 h.1) (Nat.not_le.2 (lt_of_le_of_lt hdigit (by decide)))
  rw [stripMisc, if_neg]
  rw [hnumeral, List.cons_append, List.take_succ_cons, List.map_cons, hlower]
  intro h
  rw [(List.cons.inj h).1] at hdigit
  exact absurd hdigit (by decide)

lemma stripMisc_misc (rest : List Char) : stripMisc ("MISC".toList ++ rest) = rest := by
  have hmisc : ("MISC".toList ++ rest).take 4 = "MISC".toList := List.take_left' rfl
  have hrest : ("MISC".toList ++ rest).drop 4 = rest := List.drop_left' rfl
  rw [stripMisc, hmisc, if_pos rfl, hrest]

lemma nsPayload_eq (version msgType : UInt32) (fields : List String) (pre : String) :
    nsPayload version msgType fields pre = Utf8.encode (pre.toList ++ (numeral version.toNat ++
      ';' :: (numeral msgType.toNat ++ ';' :: fields.flatMap fun f => f.toList ++ [';']))) := by
  have happend (a b : List Char) : Utf8.encode (a ++ b) = Utf8.encode a ++ Utf8.encode b :=
    List.flatMap_append
  have hsemicolon (a : List Char) : Utf8.encode (';' :: a) = semicolon :: Utf8.encode a := rfl
  have hfields : Utf8.encode (fields.flatMap fun f => f.toList ++ [';'])
      = fields.flatMap fun f => asBytes f ++ [semicolon] := by
    induction fields with
    | nil => rfl
    | cons f fs ih =>
        rw [List.flatMap_cons, happend, ih, happend, List.flatMap_cons]
        rfl
  rw [happend, happend, hsemicolon, happend, hsemicolon, hfields, encode_numeral, encode_numeral]
  rfl

lemma splitOn_fields {fields : List String} (h : ∀ f ∈ fields, ';' ∉ f.toList) :
    (fields.flatMap fun f => f.toList ++ [';']).splitOn ';' = fields.map String.toList ++ [[]] :=
  splitOn_flatMap ';' String.toList h

/-- **What was built is parsed back**, blank fields in their places. -/
theorem nsParse_payload (m : NsMessage) :
    nsParse m.payload = some (m.version, m.msgType, m.fields) := by
  have hstrip (rest : List Char) :
      stripMisc ((if m.misc then "MISC" else "").toList ++ (numeral m.version.toNat ++ rest))
        = numeral m.version.toNat ++ rest := by
    cases m.misc with
    | true => exact stripMisc_misc _
    | false => exact stripMisc_numeral _ _
  have hlast : withoutTerminator (m.fields.map String.toList ++ [[]])
      = m.fields.map String.toList := by
    rw [withoutTerminator, List.getLast?_concat, if_pos rfl, List.dropLast_concat]
  have hback : (m.fields.map String.toList).map String.ofList = m.fields := by
    rw [List.map_map]
    exact (List.map_congr_left fun f _ => String.ofList_toList).trans (List.map_id _)
  rw [NsMessage.payload, nsPayload_eq, nsParse, Utf8.decode_encode, Option.bind_some, hstrip,
    List.splitOn_append_cons_self_of_not_mem (semicolon_not_mem_numeral _),
    List.splitOn_append_cons_self_of_not_mem (semicolon_not_mem_numeral _),
    splitOn_fields m.separable, nsParseParts, parseU32_numeral, parseU32_numeral, hlast, hback]
  rfl

/-- **However the frames arrive, each is received whole and parsed back.**  The reads of each frame
hand its bytes over before its deadline, cut anywhere and with pauses anywhere in between. -/
theorem nsRecvs_parse (calls : List (ℕ × NsMessage × List SocketRead))
    (h : ∀ call ∈ calls, HandsOver call.1 call.2.1.build call.2.2) (behind : List SocketRead) :
    nsRecvs (calls.map Prod.fst) (calls.flatMap (fun call => call.2.2) ++ behind)
        = calls.map (fun call => .ok (call.2.1.payload, call.2.1.payload.length + 8)) ∧
      ∀ call ∈ calls, nsParse call.2.1.payload
        = some (call.2.1.version, call.2.1.msgType, call.2.1.fields) := by
  refine ⟨?_, fun call _ => nsParse_payload call.2.1⟩
  induction calls with
  | nil => rfl
  | cons call calls ih =>
      rw [List.forall_mem_cons] at h
      have hrecv := nsRecv_handsOver call.2.1.short h.1
        (calls.flatMap (fun call => call.2.2) ++ behind)
      rw [List.flatMap_cons, List.append_assoc, List.map_cons, nsRecvs, hrecv, ih h.2]
      rfl

def testRequest : NsMessage := ⟨50, 530, ["2026", ""], true, by decide, by decide⟩

/-- A frame cut in its magic and in its payload, with a pause in between. -/
def cutReads : List SocketRead :=
  [⟨1, .gives (testRequest.build.take 3)⟩, ⟨2, .pauses .wouldBlock⟩,
    ⟨3, .gives (testRequest.build.drop 3)⟩]

theorem nsRecvs_parse_two :
    nsRecvs [5, 9] (cutReads ++ (cutReads ++ []))
        = [.ok (testRequest.payload, testRequest.payload.length + 8),
            .ok (testRequest.payload, testRequest.payload.length + 8)] ∧
      nsParse testRequest.payload = some (50, 530, ["2026", ""]) := by
  have hcut : testRequest.build.take 3 ++ (testRequest.build.drop 3 ++ []) = testRequest.build := by
    rw [List.append_nil, List.take_append_drop]
  have hhands (deadline : ℕ) (h : 3 < deadline) :
      HandsOver deadline testRequest.build cutReads := by
    have hreads : HandsOver deadline (testRequest.build.take 3 ++ (testRequest.build.drop 3 ++ []))
        cutReads :=
      .gives (by omega) (by decide) <| .pauses .wouldBlock (by omega) (by decide) <|
        .gives h (by decide) .nil
    rwa [hcut] at hreads
  have hcalls : ∀ call ∈ [(5, testRequest, cutReads), (9, testRequest, cutReads)],
      HandsOver call.1 call.2.1.build call.2.2 := by
    simp only [List.forall_mem_cons, List.not_mem_nil, false_imp_iff, implies_true, and_true]
    exact ⟨hhands 5 (by decide), hhands 9 (by decide)⟩
  have hread := nsRecvs_parse _ hcalls []
  have hparse : nsParse testRequest.payload = _ :=
    hread.2 (5, testRequest, cutReads) List.mem_cons_self
  refine ⟨?_, ?_⟩
  · exact hread.1
  · rw [hparse]
    decide

end IbkrDx
