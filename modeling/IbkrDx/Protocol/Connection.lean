import IbkrDx.Lib.Cut
import IbkrDx.Protocol.Fixcomp

/-!
# One connection

The connection of `protocol/connection.rs`: what it has buffered, the sequence number and the two
IV chains it keeps, and whether its transport has been given up in either direction.

* `extractFrames` — the frames the buffer holds, taken off its front.
* `unsign` — one received frame verified against the read chain.

The byte and frame counters of `traffic` are left out: nothing here reads them.
-/

namespace IbkrDx

open Search Decimal

inductive Frame where
  | fixComp (msg : Bytes)
  | fix (msg : Bytes)
  | binary (msg : Bytes)
  | control (msg : Bytes)
  deriving DecidableEq

def Frame.bytes : Frame → Bytes
  | .fixComp msg | .fix msg | .binary msg | .control msg => msg

/-- Per-connection state; `tls` is whether the stream is a TLS one. -/
structure Connection where
  tls : Bool := false
  buf : Bytes := []
  seq : UInt32 := 0
  signKey : Bytes := []
  signIv : Bytes := []
  readKey : Bytes := []
  readIv : Bytes := []
  writeFailed : Bool := false
  readFailed : Bool := false
  unreadable : ℕ := 0
  deriving DecidableEq

/-- How much one frame is allowed to become once inflated. -/
def maxInflated : ℕ := 64 * 1024 * 1024

/-- The most an unfinished frame may hold in the buffer. -/
def maxBuffered : ℕ := maxInflated + 1024 * 1024

/-! ## Stated lengths -/

def fixcompMarker : Bytes := ascii "8=FIXCOMP\x01"

/-- The headers this reader recognises, in the order the frame scan lists them. -/
def headers : List Bytes :=
  [ascii "8=FIX.", ascii "8=O\x01", ascii "8=1\x01", ascii "8=X\x01", fixcompMarker]

/-- The offset of the earliest header this reader recognises, if there is one. -/
def nextHeader (data : Bytes) : Option ℕ := (headers.filterMap (find · data)).min?

/-- Where tag 9 must begin: straight after the tag-8 field. -/
def whereTag9Begins (data : Bytes) : Option ℕ :=
  if ascii "8=" <+: data then (position soh (data.drop 2)).map (· + 3) else none

/-- The offset of the separator that ends the length field, and the length it states. -/
def statedBodyLength (data : Bytes) : Option (ℕ × ℕ) := do
  let at9 ← whereTag9Begins data
  if ascii "9=" <+: data.drop at9 then
    let p ← position soh (data.drop at9)
    let bodyLen ← parse usizeBound ((data.drop (at9 + 2)).take (p - 2))
    return (at9 + p, bodyLen)
  else none

/-- The length of a length-prefixed message without a trailer. -/
def binaryMsgLength (data : Bytes) : Option ℕ := do
  let (sohPos, bodyLen) ← statedBodyLength data
  checkedAdd (← checkedAdd sohPos 1) bodyLen

/-- The length of a FIX message, with its seven-byte checksum trailer. -/
def fixMsgLength (data : Bytes) : Option ℕ := do
  let (sohPos, bodyLen) ← statedBodyLength data
  checkedAdd (← checkedAdd sohPos 8) bodyLen

def trailerIsWhereTheLengthSays (data : Bytes) (total : ℕ) : Bool :=
  decide (total ≤ data.length ∧ 8 ≤ total ∧ data[total - 8]? = some soh ∧
    (data.drop (total - 7)).take 3 = ascii "10=" ∧ data[total - 1]? = some soh)

/-- Whether tag 9 has arrived in full and no frame length can be got from it. -/
def tag9IsUnreadable (data : Bytes) (total : Bytes → Option ℕ) : Bool :=
  match whereTag9Begins data with
  | none => false
  | some at9 =>
      let head := data.drop at9
      if head.length < 2 then false
      else if ¬ ascii "9=" <+: head then true
      else if soh ∉ head then false
      else (total data).isNone

/-! ## Extracting frames -/

/-- What one round of the frame walk does with the buffer: take a frame of `total` bytes, drop `n`
bytes and look again, or drop `n` bytes and leave the rest for the next read. -/
inductive Extract where
  | take (frame : Frame) (total : ℕ)
  | skip (n : ℕ)
  | stop (n : ℕ)
  deriving DecidableEq

def extractFixcomp (buf : Bytes) : Extract :=
  match fixcompFrameLength buf with
  | .complete total =>
      if total ≤ buf.length then .take (.fixComp (buf.take total)) total else .stop 0
  | .incomplete => .stop 0
  | .unreadable =>
      let next := (nextHeader (buf.drop 1)).map (· + 1)
      .skip (max (next.getD (buf.length - (fixcompMarker.length - 1))) 1)

/-- A header whose frame is not here whole: stepped past where its length does not read, waited on
otherwise. -/
def waitOrResync (buf : Bytes) (total : Bytes → Option ℕ) : Extract :=
  if tag9IsUnreadable buf total then .skip 1 else .stop 0

/-- A binary or control frame at the front of the buffer. -/
def extractBinary (buf : Bytes) : Extract :=
  match (binaryMsgLength buf).filter (· ≤ buf.length) with
  | some total =>
      let msg := buf.take total
      .take (if ascii "8=O\x01" <+: buf then .binary msg else .control msg) total
  | none => waitOrResync buf binaryMsgLength

def extractFix (buf : Bytes) : Extract :=
  match (fixMsgLength buf).filter (· ≤ buf.length) with
  | some total =>
      if trailerIsWhereTheLengthSays buf total then .take (.fix (buf.take total)) total
      else .skip 1
  | none => waitOrResync buf fixMsgLength

/-- One round of the frame walk, over a buffer that is not empty. -/
def extractStep (buf : Bytes) : Extract :=
  if fixcompMarker <+: buf then extractFixcomp buf
  else
    match nextHeader buf with
    | none => .stop (buf.length - min buf.length (fixcompMarker.length - 1))
    | some earliest =>
        if 0 < earliest then .skip earliest
        else if ascii "8=O\x01" <+: buf ∨ ascii "8=1\x01" <+: buf ∨ ascii "8=X\x01" <+: buf then
          extractBinary buf
        else if ascii "8=FIX." <+: buf then extractFix buf
        else .skip 1

def Extract.consumed : Extract → ℕ
  | .take _ total => total
  | .skip n | .stop n => n

def Extract.goesOn : Extract → Bool
  | .take _ _ | .skip _ => true
  | .stop _ => false

variable {n : ℕ}

lemma checkedAdd_eq_some {a b : ℕ} : checkedAdd a b = some n ↔ a + b = n ∧ n < usizeBound := by
  unfold checkedAdd
  split
  · next h =>
      rw [Option.some.injEq]
      exact ⟨fun heq => ⟨heq, heq ▸ h⟩, fun heq => heq.1⟩
  · next h =>
      refine ⟨fun heq => absurd heq (by simp), ?_⟩
      rintro ⟨rfl, hlt⟩
      exact absurd hlt h

lemma binaryMsgLength_pos {buf : Bytes} (h : binaryMsgLength buf = some n) : 0 < n := by
  simp only [binaryMsgLength, Option.bind_eq_bind, Option.bind_eq_some_iff] at h
  obtain ⟨⟨sohPos, bodyLen⟩, -, m, hm, hn⟩ := h
  rw [checkedAdd_eq_some] at hm hn
  omega

lemma fixMsgLength_pos {buf : Bytes} (h : fixMsgLength buf = some n) : 0 < n := by
  simp only [fixMsgLength, Option.bind_eq_bind, Option.bind_eq_some_iff] at h
  obtain ⟨⟨sohPos, bodyLen⟩, -, m, hm, hn⟩ := h
  rw [checkedAdd_eq_some] at hm hn
  omega

lemma statedTotal_pos {data : Bytes} {tag9 p : ℕ} (h : statedTotal data tag9 p = .complete n) :
    0 < n := by
  unfold statedTotal at h
  split at h
  · cases h
  · split at h
    · cases h
    · next total htotal =>
        obtain ⟨m, hm, hn⟩ := Option.bind_eq_some_iff.1 htotal
        rw [checkedAdd_eq_some] at hm hn
        split at h
        · cases h
        · cases h
          omega

lemma fixcompFrameLength_pos {data : Bytes}
    (h : fixcompFrameLength data = .complete n) : 0 < n := by
  simp only [fixcompFrameLength, unseparated] at h
  repeat' split at h
  all_goals first | cases h | exact statedTotal_pos h

/-- A round the walk goes on behind has taken something off the buffer. -/
def Extract.Moves (e : Extract) : Prop := e.goesOn = true → 0 < e.consumed

lemma Extract.moves_stop (n : ℕ) : (Extract.stop n).Moves := fun h => absurd h Bool.false_ne_true

lemma Extract.moves_skip (h : 0 < n) : (Extract.skip n).Moves := fun _ => h

lemma Extract.moves_take {f : Frame} (h : 0 < n) : (Extract.take f n).Moves := fun _ => h

lemma waitOrResync_moves (buf : Bytes) (total : Bytes → Option ℕ) :
    (waitOrResync buf total).Moves := by
  unfold waitOrResync
  split
  · exact Extract.moves_skip Nat.one_pos
  · exact Extract.moves_stop 0

lemma extractFixcomp_moves (buf : Bytes) : (extractFixcomp buf).Moves := by
  unfold extractFixcomp
  split
  · next total htotal =>
      split
      · exact Extract.moves_take (fixcompFrameLength_pos htotal)
      · exact Extract.moves_stop 0
  · exact Extract.moves_stop 0
  · exact Extract.moves_skip (by omega)

lemma extractBinary_moves (buf : Bytes) : (extractBinary buf).Moves := by
  unfold extractBinary
  split
  · next total htotal =>
      exact Extract.moves_take (binaryMsgLength_pos (Option.filter_eq_some_iff.1 htotal).1)
  · exact waitOrResync_moves buf _

lemma extractFix_moves (buf : Bytes) : (extractFix buf).Moves := by
  unfold extractFix
  split
  · next total htotal =>
      split
      · exact Extract.moves_take (fixMsgLength_pos (Option.filter_eq_some_iff.1 htotal).1)
      · exact Extract.moves_skip Nat.one_pos
  · exact waitOrResync_moves buf _

lemma extractStep_moves (buf : Bytes) : (extractStep buf).Moves := by
  unfold extractStep
  split
  · exact extractFixcomp_moves buf
  · split
    · exact Extract.moves_stop _
    · split
      · next hpos => exact Extract.moves_skip hpos
      · split
        · exact extractBinary_moves buf
        · split
          · exact extractFix_moves buf
          · exact Extract.moves_skip Nat.one_pos

/-- The frame walk: the frames taken, what is left in the buffer, and how many bytes were thrown
away without being read. -/
def extractLoop (buf : Bytes) : Cut.Reading Frame UInt8 :=
  if _hne : buf = [] then ⟨[], [], 0⟩
  else
    match _h : extractStep buf with
    | .take frame total => (extractLoop (buf.drop total)).cons frame
    | .skip n =>
        let r := extractLoop (buf.drop n)
        ⟨r.frames, r.rest, n + r.dropped⟩
    | .stop n => ⟨[], buf.drop n, n⟩
termination_by buf.length
decreasing_by
  all_goals
    have hpos := extractStep_moves buf (by rw [_h]; rfl)
    have hlen := List.length_pos_iff.2 _hne
    rw [_h] at hpos
    simp only [Extract.consumed] at hpos
    simp only [List.length_drop]
    omega

/-- Extract all complete frames from the buffer.  A walk that reads no frame counts what it threw
away, and past what one frame can be the connection is given up. -/
def Connection.extractFrames (c : Connection) : List Frame × Connection :=
  let r := extractLoop c.buf
  if r.frames = [] then
    let unreadable := min (c.unreadable + r.dropped) (2 ^ 64 - 1)
    (r.frames, { c with
      buf := r.rest
      unreadable := unreadable
      readFailed := c.readFailed || decide (maxBuffered < unreadable) })
  else (r.frames, { c with buf := r.rest, unreadable := 0 })

def Connection.injectBuf (c : Connection) (data : Bytes) : Connection :=
  { c with buf := c.buf ++ data }

/-- Each chunk of a stream appended in turn, and the frames extracted behind it: what each call
gave, with the connection as it left it. -/
def Connection.receive (c : Connection) : List Bytes → List (List Frame × Connection)
  | [] => []
  | chunk :: chunks =>
      let call := (c.injectBuf chunk).extractFrames
      call :: call.2.receive chunks

def Connection.received (c : Connection) : List Bytes → Connection
  | [] => c
  | chunk :: chunks => (c.injectBuf chunk).extractFrames.2.received chunks

/-! ## Receiving a signed frame -/

/-- Verify a received frame against the read chain.  A frame that does not verify gives nothing,
leaves the chain alone and gives the connection up. -/
def Connection.unsign (hmac : Hmac) (c : Connection) (msg : Bytes) : Option Bytes × Connection :=
  if c.readKey = [] then (some msg, c)
  else if ¬ carriesSignature msg then (some msg, c)
  else
    let u := fixUnsign hmac msg c.readKey c.readIv
    if u.valid then (some u.msg, { c with readIv := u.iv })
    else (none, { c with readFailed := true })

end IbkrDx
