import IbkrDx.Protocol.Connection

/-!
# What reaches the wire

The three ways a connection sends — a FIX message, a compressed one, raw bytes — share one loop
that writes a frame until all of it is taken, its time is up or the socket fails.  A frame that
went out in part finishes the connection, and the sequence number and the signing chain move only
on a frame that went out whole.

* **`wire_holds_whole_frames`** — the bytes the socket took are those frames, with at most one
  abandoned prefix behind them.

The socket is a list of outcomes for each call: what each `write` of the loop does, up to the round
that finds the frame's time up.  The sequence number is a `u32`, so the result counts fewer than
`2 ^ 32` messages: `not_wire_holds_whole_frames` is what comes after.
-/

namespace IbkrDx

/-! ## Writing one frame -/

/-- The kinds of a socket error the loop tells apart. -/
inductive ErrorKind where
  | interrupted
  | wouldBlock
  | timedOut
  | brokenPipe
  | writeZero
  | other
  deriving DecidableEq

structure IoError where
  kind : ErrorKind
  text : String
  deriving DecidableEq

/-- What one `write` of the socket does: take `n` bytes of what it is offered, or fail. -/
inductive WriteOutcome where
  | ok (n : ℕ)
  | err (e : IoError)
  deriving DecidableEq

def abandoned : IoError := ⟨.brokenPipe, "connection abandoned after an incomplete write"⟩

def outOfTime : IoError := ⟨.timedOut, "the peer did not take a whole frame in time"⟩

def tookNothing : IoError := ⟨.writeZero, "peer accepted no more of the frame"⟩

/-- Whether a write that stopped with `err` after `written` bytes leaves the transport usable. -/
def writeIsRecoverable (err : IoError) (written : ℕ) (tls : Bool) : Bool :=
  !tls && decide (written = 0) && decide (err.kind = .wouldBlock ∨ err.kind = .timedOut)

/-- The write loop: how much of the frame was taken, and what stopped it short of all of it.  Where
no outcome is left the frame's time is found up. -/
def writeLoop (tls wait : Bool) (bytes : Bytes) : List WriteOutcome → ℕ → ℕ × Option IoError
  | [], written =>
      if bytes.length ≤ written then (written, none) else (written, some outOfTime)
  | outcome :: rest, written =>
      if bytes.length ≤ written then (written, none)
      else
        match outcome with
        | .ok n =>
            if n = 0 then (written, some tookNothing)
            else writeLoop tls wait bytes rest (written + n)
        | .err e =>
            if e.kind = .interrupted then writeLoop tls wait bytes rest written
            else if wait && writeIsRecoverable e written tls then
              writeLoop tls wait bytes rest written
            else (written, some e)

/-- How a send ended.  A message that cannot be signed panics before anything is written. -/
inductive SendResult where
  | sent
  | failed (e : IoError)
  | panicked
  deriving DecidableEq

/-- What one write gave: the bytes the socket took, how it ended, and the connection after it. -/
structure Written where
  accepted : Bytes
  result : SendResult
  conn : Connection
  deriving DecidableEq

def Connection.writeFrameWaiting (c : Connection) (bytes : Bytes) (wait : Bool)
    (outcomes : List WriteOutcome) : Written :=
  if c.writeFailed then ⟨[], .failed abandoned, c⟩
  else
    match writeLoop c.tls wait bytes outcomes 0 with
    | (written, none) => ⟨bytes.take written, .sent, c⟩
    | (written, some e) => ⟨bytes.take written, .failed e, { c with writeFailed := true }⟩

/-! ## The three ways to send -/

/-- The bytes to send for a message and the IV to commit with them: the message as it is where no
key is set, signed where one is. -/
def Connection.toSend (hmac : Hmac) (c : Connection) (msg : Bytes) :
    Option (Bytes × Option Bytes) :=
  if c.signKey = [] then some (msg, none)
  else (fixSign hmac msg c.signKey c.signIv).map fun signed => (signed.1, some signed.2)

/-- What a send gave: the frame it tried to write, and what came of it. -/
structure Report where
  frame : Bytes
  written : Written
  deriving DecidableEq

def Connection.sendFixWaiting (hmac : Hmac) (c : Connection) (fields : List (UInt32 × String))
    (wait : Bool) (outcomes : List WriteOutcome) : Report :=
  let nextSeq := c.seq + 1
  match c.toSend hmac (fixBuild fields nextSeq) with
  | none => ⟨[], ⟨[], .panicked, c⟩⟩
  | some (toSend, nextIv) =>
      let w := c.writeFrameWaiting toSend wait outcomes
      if w.result = .sent then
        ⟨toSend, { w with
          conn := { w.conn with seq := nextSeq, signIv := nextIv.getD w.conn.signIv } }⟩
      else ⟨toSend, w⟩

def Connection.sendFix (hmac : Hmac) (c : Connection) (fields : List (UInt32 × String))
    (outcomes : List WriteOutcome) : Report :=
  c.sendFixWaiting hmac fields true outcomes

def Connection.sendFixcomp (hmac : Hmac) (deflate : Bytes → Bytes) (c : Connection)
    (fields : List (UInt32 × String)) (outcomes : List WriteOutcome) : Report :=
  match c.toSend hmac (fixcompBuild deflate (fixBuild fields 0)) with
  | none => ⟨[], ⟨[], .panicked, c⟩⟩
  | some (toSend, nextIv) =>
      let w := c.writeFrameWaiting toSend true outcomes
      if w.result = .sent then
        ⟨toSend, { w with conn := { w.conn with signIv := nextIv.getD w.conn.signIv } }⟩
      else ⟨toSend, w⟩

def Connection.sendRaw (c : Connection) (data : Bytes) (outcomes : List WriteOutcome) : Report :=
  ⟨data, c.writeFrameWaiting data true outcomes⟩

inductive Call where
  | fix (fields : List (UInt32 × String))
  | fixcomp (fields : List (UInt32 × String))
  | raw (data : Bytes)

def Connection.send (hmac : Hmac) (deflate : Bytes → Bytes) (c : Connection) (call : Call)
    (outcomes : List WriteOutcome) : Report :=
  match call with
  | .fix fields => c.sendFix hmac fields outcomes
  | .fixcomp fields => c.sendFixcomp hmac deflate fields outcomes
  | .raw data => c.sendRaw data outcomes

/-- Sends in turn, each with what the socket does during it: every call with its report. -/
def Connection.sendAll (hmac : Hmac) (deflate : Bytes → Bytes) (c : Connection) :
    List (Call × List WriteOutcome) → List (Call × Report)
  | [] => []
  | (call, outcomes) :: rest =>
      let r := c.send hmac deflate call outcomes
      (call, r) :: r.written.conn.sendAll hmac deflate rest

def Connection.afterAll (hmac : Hmac) (deflate : Bytes → Bytes) (c : Connection) :
    List (Call × List WriteOutcome) → Connection
  | [] => c
  | (call, outcomes) :: rest =>
      (c.send hmac deflate call outcomes).written.conn.afterAll hmac deflate rest

/-! ## One write -/

lemma writeLoop_isSome (tls wait : Bool) (bytes : Bytes) (outcomes : List WriteOutcome)
    (written : ℕ) :
    (writeLoop tls wait bytes outcomes written).2.isSome
      = decide ((writeLoop tls wait bytes outcomes written).1 < bytes.length) := by
  induction outcomes generalizing written with
  | nil =>
      unfold writeLoop
      split
      · next h => simpa using h
      · next h => simpa using h
  | cons outcome rest ih =>
      unfold writeLoop
      split
      · next h => simpa using h
      · next h =>
          cases outcome with
          | ok n =>
              simp only
              split
              · simpa using h
              · exact ih _
          | err e =>
              simp only
              split
              · exact ih _
              · split
                · exact ih _
                · simpa using h

/-- What a write leaves: the whole frame taken and the connection as it was, or a proper prefix of
it and a connection that is finished. -/
structure WriteSpec (c : Connection) (bytes : Bytes) (w : Written) : Prop where
  sent : w.result = .sent → w.accepted = bytes ∧ w.conn = c ∧ c.writeFailed = false
  failed : ∀ e, w.result = .failed e →
    w.conn = { c with writeFailed := true } ∧
      (c.writeFailed = false → w.accepted <+: bytes ∧ w.accepted ≠ bytes) ∧
      (c.writeFailed = true → w.accepted = [])
  panicked : w.result ≠ .panicked

lemma writeFrameWaiting_spec (c : Connection) (bytes : Bytes) (wait : Bool)
    (outcomes : List WriteOutcome) :
    WriteSpec c bytes (c.writeFrameWaiting bytes wait outcomes) := by
  have hloop := writeLoop_isSome c.tls wait bytes outcomes 0
  unfold Connection.writeFrameWaiting
  split
  · next hfailed =>
      refine ⟨fun h => by simp at h, fun e _ => ⟨?_, fun h => ?_, fun _ => rfl⟩, by simp⟩
      · rw [← hfailed]
      · simp [h] at hfailed
  · next hfailed =>
      have hok : c.writeFailed = false := by simpa using hfailed
      split
      · next written heq =>
          rw [heq] at hloop
          have hwhole : bytes.length ≤ written := by simpa using hloop
          exact ⟨fun _ => ⟨List.take_of_length_le hwhole, rfl, hok⟩, fun e h => by simp at h,
            by simp⟩
      · next written e heq =>
          rw [heq] at hloop
          have hshort : written < bytes.length := by simpa using hloop.symm
          have hfront : bytes.take written <+: bytes := List.take_prefix written bytes
          refine ⟨fun h => by simp at h, fun e' _ => ⟨rfl, fun _ => ⟨hfront, ?_⟩,
            fun h => ?_⟩, by simp⟩
          · intro heq'
            have := congrArg List.length heq'
            simp only [List.length_take] at this
            omega
          · simp [hok] at h

/-! ## The frames a run of sends writes -/

/-- The frames of a run of sends that all go out, from the state the sends before it committed:
messages are numbered from `n + 1` on and chained from `iv`, and the run ends at `n'` and `iv'`. -/
inductive Chain (hmac : Hmac) (deflate : Bytes → Bytes) (key : Bytes) :
    ℕ → Bytes → List (Call × Bytes) → ℕ → Bytes → Prop
  | nil (n : ℕ) (iv : Bytes) : Chain hmac deflate key n iv [] n iv
  | fix {n n' : ℕ} {iv iv' : Bytes} {rest : List (Call × Bytes)}
      (fields : List (UInt32 × String)) (frame : Bytes) (next : Option Bytes)
      (hframe : ({ signKey := key, signIv := iv } : Connection).toSend hmac
        (fixBuild fields (UInt32.ofNat (n + 1))) = some (frame, next))
      (hrest : Chain hmac deflate key (n + 1) (next.getD iv) rest n' iv') :
      Chain hmac deflate key n iv ((.fix fields, frame) :: rest) n' iv'
  | fixcomp {n n' : ℕ} {iv iv' : Bytes} {rest : List (Call × Bytes)}
      (fields : List (UInt32 × String)) (frame : Bytes) (next : Option Bytes)
      (hframe : ({ signKey := key, signIv := iv } : Connection).toSend hmac
        (fixcompBuild deflate (fixBuild fields 0)) = some (frame, next))
      (hrest : Chain hmac deflate key n (next.getD iv) rest n' iv') :
      Chain hmac deflate key n iv ((.fixcomp fields, frame) :: rest) n' iv'
  | raw {n n' : ℕ} {iv iv' : Bytes} {rest : List (Call × Bytes)} (data : Bytes)
      (hrest : Chain hmac deflate key n iv rest n' iv') :
      Chain hmac deflate key n iv ((.raw data, data) :: rest) n' iv'

/-- The sends that returned `Ok`, with the frame each wrote. -/
def okCalls (reports : List (Call × Report)) : List (Call × Bytes) :=
  (reports.filter fun r => r.2.written.result = .sent).map fun r => (r.1, r.2.frame)

def fixCount (calls : List (Call × Bytes)) : ℕ :=
  calls.countP fun c => match c.1 with | .fix _ => true | _ => false

def acceptedBytes (reports : List (Call × Report)) : Bytes :=
  reports.flatMap fun r => r.2.written.accepted

/-- Whether a send returned `Err`. -/
def Report.isErr (r : Report) : Bool :=
  match r.written.result with
  | .failed _ => true
  | _ => false

/-- The first send that returned `Err`. -/
def firstErr (reports : List (Call × Report)) : Option (Call × Report) :=
  reports.find? fun r => r.2.isErr

/-! ## One send -/

/-- What one send leaves.  A send that returns `Ok` commits the state the next one is built from;
a send that fails moves neither the sequence number nor the chain. -/
structure SendSpec (hmac : Hmac) (deflate : Bytes → Bytes) (c : Connection) (call : Call)
    (r : Report) : Prop where
  sent : r.written.result = .sent →
    c.writeFailed = false ∧ r.written.accepted = r.frame ∧ r.written.conn.writeFailed = false ∧
      r.written.conn.signKey = c.signKey ∧
      ∀ n, c.seq = UInt32.ofNat n →
        r.written.conn.seq = UInt32.ofNat (n + fixCount [(call, r.frame)]) ∧
        ∀ rest n' iv', Chain hmac deflate c.signKey (n + fixCount [(call, r.frame)])
            r.written.conn.signIv rest n' iv' →
          Chain hmac deflate c.signKey n c.signIv ((call, r.frame) :: rest) n' iv'
  failed : ∀ e, r.written.result = .failed e →
    r.written.conn = { c with writeFailed := true } ∧
      (c.writeFailed = false → r.written.accepted <+: r.frame ∧ r.written.accepted ≠ r.frame) ∧
      (c.writeFailed = true → r.written.accepted = [])
  panicked : r.written.result = .panicked → r.written.conn = c ∧ r.written.accepted = []

lemma sendFix_spec (hmac : Hmac) (deflate : Bytes → Bytes) (c : Connection)
    (fields : List (UInt32 × String)) (outcomes : List WriteOutcome) :
    SendSpec hmac deflate c (.fix fields) (c.sendFix hmac fields outcomes) := by
  simp only [Connection.sendFix, Connection.sendFixWaiting]
  split
  · exact ⟨fun h => by simp at h, fun e h => by simp at h, fun _ => ⟨rfl, rfl⟩⟩
  · next toSend next hnext =>
      have hw := writeFrameWaiting_spec c toSend true outcomes
      split
      · next hsent =>
          obtain ⟨hacc, hconn, hok⟩ := hw.sent hsent
          refine ⟨fun _ => ⟨hok, hacc, ?_, ?_, fun n hn => ⟨?_, ?_⟩⟩,
            fun e h => absurd (hsent.symm.trans h) (by simp),
            fun h => absurd (hsent.symm.trans h) (by simp)⟩
          · simp only [hconn, hok]
          · simp only [hconn]
          · show c.seq + 1 = UInt32.ofNat (n + 1)
            rw [hn, UInt32.ofNat_add]
            rfl
          · intro rest n' iv' hrest
            simp only [hconn] at hrest
            refine .fix fields toSend next ?_ hrest
            rw [UInt32.ofNat_add, ← hn]
            exact hnext
      · next hsent =>
          exact ⟨fun h => absurd h hsent, hw.failed, fun h => absurd h hw.panicked⟩

lemma sendFixcomp_spec (hmac : Hmac) (deflate : Bytes → Bytes) (c : Connection)
    (fields : List (UInt32 × String)) (outcomes : List WriteOutcome) :
    SendSpec hmac deflate c (.fixcomp fields) (c.sendFixcomp hmac deflate fields outcomes) := by
  simp only [Connection.sendFixcomp]
  split
  · exact ⟨fun h => by simp at h, fun e h => by simp at h, fun _ => ⟨rfl, rfl⟩⟩
  · next toSend next hnext =>
      have hw := writeFrameWaiting_spec c toSend true outcomes
      split
      · next hsent =>
          obtain ⟨hacc, hconn, hok⟩ := hw.sent hsent
          refine ⟨fun _ => ⟨hok, hacc, ?_, ?_, fun n hn => ⟨?_, ?_⟩⟩,
            fun e h => absurd (hsent.symm.trans h) (by simp),
            fun h => absurd (hsent.symm.trans h) (by simp)⟩
          · simp only [hconn, hok]
          · simp only [hconn]
          · simp only [hconn]
            exact hn
          · intro rest n' iv' hrest
            simp only [hconn] at hrest
            exact .fixcomp fields toSend next hnext hrest
      · next hsent =>
          exact ⟨fun h => absurd h hsent, hw.failed, fun h => absurd h hw.panicked⟩

lemma sendRaw_spec (hmac : Hmac) (deflate : Bytes → Bytes) (c : Connection) (data : Bytes)
    (outcomes : List WriteOutcome) :
    SendSpec hmac deflate c (.raw data) (c.sendRaw data outcomes) := by
  have hw := writeFrameWaiting_spec c data true outcomes
  refine ⟨fun hsent => ?_, hw.failed, fun h => absurd h hw.panicked⟩
  obtain ⟨hacc, hconn, hok⟩ := hw.sent hsent
  refine ⟨hok, hacc, ?_, ?_, fun n hn => ⟨?_, fun rest n' iv' hrest => ?_⟩⟩
  · simp only [Connection.sendRaw, hconn, hok]
  · simp only [Connection.sendRaw, hconn]
  · simp only [Connection.sendRaw, hconn]
    exact hn
  · simp only [Connection.sendRaw, hconn] at hrest
    exact .raw data hrest

lemma send_spec (hmac : Hmac) (deflate : Bytes → Bytes) (c : Connection) (call : Call)
    (outcomes : List WriteOutcome) :
    SendSpec hmac deflate c call (c.send hmac deflate call outcomes) := by
  cases call with
  | fix fields => exact sendFix_spec hmac deflate c fields outcomes
  | fixcomp fields => exact sendFixcomp_spec hmac deflate c fields outcomes
  | raw data => exact sendRaw_spec hmac deflate c data outcomes

/-! ## Any sequence of sends -/

/-- A send that neither returns `Ok` nor writes. -/
def Report.Silent (r : Report) : Prop := r.written.result ≠ .sent ∧ r.written.accepted = []

lemma sendAll_finished (hmac : Hmac) (deflate : Bytes → Bytes)
    (calls : List (Call × List WriteOutcome)) (c : Connection) (hc : c.writeFailed = true) :
    (∀ r ∈ c.sendAll hmac deflate calls, r.2.Silent) ∧ c.afterAll hmac deflate calls = c := by
  induction calls with
  | nil => exact ⟨by simp [Connection.sendAll], rfl⟩
  | cons x rest ih =>
      obtain ⟨call, outcomes⟩ := x
      have hspec := send_spec hmac deflate c call outcomes
      have hstep : (c.send hmac deflate call outcomes).Silent ∧
          (c.send hmac deflate call outcomes).written.conn = c := by
        cases hres : (c.send hmac deflate call outcomes).written.result with
        | sent => exact absurd (hspec.sent hres).1 (by simp [hc])
        | failed e =>
            obtain ⟨hconn, -, hnone⟩ := hspec.failed e hres
            refine ⟨⟨by simp [hres], hnone hc⟩, hconn.trans ?_⟩
            rw [← hc]
        | panicked =>
            obtain ⟨hconn, hnone⟩ := hspec.panicked hres
            exact ⟨⟨by simp [hres], hnone⟩, hconn⟩
      simp only [Connection.sendAll, Connection.afterAll, hstep.2, List.forall_mem_cons]
      exact ⟨⟨hstep.1, ih.1⟩, ih.2⟩

lemma okCalls_cons (call : Call) (r : Report) (rest : List (Call × Report)) :
    okCalls ((call, r) :: rest)
      = if r.written.result = .sent then (call, r.frame) :: okCalls rest else okCalls rest := by
  unfold okCalls
  by_cases h : r.written.result = .sent
  · rw [List.filter_cons_of_pos (by simpa using h), List.map_cons, if_pos h]
  · rw [List.filter_cons_of_neg (by simpa using h), if_neg h]

lemma fixCount_cons (c : Call × Bytes) (rest : List (Call × Bytes)) :
    fixCount (c :: rest) = fixCount [c] + fixCount rest := by
  simp only [fixCount, List.countP_cons, List.countP_nil]
  omega

lemma silent_run {reports : List (Call × Report)} (h : ∀ r ∈ reports, r.2.Silent) :
    okCalls reports = [] ∧ acceptedBytes reports = [] := by
  constructor
  · rw [okCalls, List.map_eq_nil_iff, List.filter_eq_nil_iff]
    intro r hr
    simpa using (h r hr).1
  · rw [acceptedBytes, List.flatMap_eq_nil_iff]
    exact fun r hr => (h r hr).2

/-- What a run of sends from a connection in use leaves, the first message being numbered one above
`n`. -/
structure RunSpec (hmac : Hmac) (deflate : Bytes → Bytes) (c : Connection) (n : ℕ)
    (reports : List (Call × Report)) (after : Connection) : Prop where
  chain : Chain hmac deflate c.signKey n c.signIv (okCalls reports)
    (n + fixCount (okCalls reports)) after.signIv
  seq : after.seq = UInt32.ofNat (n + fixCount (okCalls reports))
  bytes : acceptedBytes reports = (okCalls reports).flatMap Prod.snd
    ++ ((firstErr reports).map fun r => r.2.written.accepted).getD []
  part : ∀ r, firstErr reports = some r →
    r.2.written.accepted <+: r.2.frame ∧ r.2.written.accepted ≠ r.2.frame
  silent : ∀ before r later, reports = before ++ r :: later → r.2.isErr = true →
    ∀ s ∈ later, s.2.Silent

lemma sendAll_spec (hmac : Hmac) (deflate : Bytes → Bytes)
    (calls : List (Call × List WriteOutcome)) (c : Connection) (n : ℕ)
    (hc : c.writeFailed = false) (hseq : c.seq = UInt32.ofNat n) :
    RunSpec hmac deflate c n (c.sendAll hmac deflate calls) (c.afterAll hmac deflate calls) := by
  induction calls generalizing c n with
  | nil =>
      exact ⟨.nil n c.signIv, hseq, rfl, by simp [Connection.sendAll, firstErr],
        by simp [Connection.sendAll]⟩
  | cons x rest ih =>
      obtain ⟨call, outcomes⟩ := x
      have hspec := send_spec hmac deflate c call outcomes
      set r := c.send hmac deflate call outcomes with hr
      simp only [Connection.sendAll, Connection.afterAll, ← hr]
      cases hres : r.written.result with
      | sent =>
          -- the frame went out whole: the rest of the run starts from what it committed
          obtain ⟨-, hacc, hok, hkey, hnext⟩ := hspec.sent hres
          obtain ⟨hseq', hchain⟩ := hnext n hseq
          have hrun := ih r.written.conn _ hok hseq'
          have hok : r.isErr = false := by rw [Report.isErr, hres]
          have hcalls : okCalls ((call, r) :: r.written.conn.sendAll hmac deflate rest)
              = (call, r.frame) :: okCalls (r.written.conn.sendAll hmac deflate rest) := by
            rw [okCalls_cons, if_pos hres]
          have herr : firstErr ((call, r) :: r.written.conn.sendAll hmac deflate rest)
              = firstErr (r.written.conn.sendAll hmac deflate rest) := by
            rw [firstErr, List.find?_cons_of_neg (by simp [hok])]
            rfl
          have hcount : n + fixCount ((call, r.frame) ::
              okCalls (r.written.conn.sendAll hmac deflate rest))
              = n + fixCount [(call, r.frame)]
                + fixCount (okCalls (r.written.conn.sendAll hmac deflate rest)) := by
            rw [fixCount_cons, Nat.add_assoc]
          refine ⟨?_, ?_, ?_, ?_, ?_⟩
          · rw [hcalls, hcount]
            refine hchain _ _ _ ?_
            rw [← hkey]
            exact hrun.chain
          · rw [hcalls, hcount]
            exact hrun.seq
          · rw [hcalls, herr, List.flatMap_cons, List.append_assoc, ← hrun.bytes, acceptedBytes,
              List.flatMap_cons, hacc]
            rfl
          · rw [herr]
            exact hrun.part
          · rintro (_ | ⟨b, before⟩) x later heq hx
            · obtain ⟨rfl, -⟩ := List.cons.inj heq
              rw [hok] at hx
              exact absurd hx (by simp)
            · exact hrun.silent before x later (List.cons.inj heq).2 hx
      | failed e =>
          -- the first failure: a proper prefix of its frame, and nothing behind it
          obtain ⟨hconn, hpart, -⟩ := hspec.failed e hres
          have hfin : r.written.conn.writeFailed = true := by rw [hconn]
          obtain ⟨hsilent, hafter⟩ := sendAll_finished hmac deflate rest r.written.conn hfin
          obtain ⟨hnone, hquiet⟩ := silent_run hsilent
          have hbad : r.isErr = true := by rw [Report.isErr, hres]
          have hcalls : okCalls ((call, r) :: r.written.conn.sendAll hmac deflate rest) = [] := by
            rw [okCalls_cons, if_neg (by simp [hres]), hnone]
          have herr : firstErr ((call, r) :: r.written.conn.sendAll hmac deflate rest)
              = some (call, r) := by
            rw [firstErr, List.find?_cons_of_pos (by simpa using hbad)]
          refine ⟨?_, ?_, ?_, ?_, ?_⟩
          · rw [hcalls, hafter, hconn]
            exact .nil n c.signIv
          · rw [hcalls, hafter, hconn]
            exact hseq
          · have hbytes : acceptedBytes ((call, r) :: r.written.conn.sendAll hmac deflate rest)
                = r.written.accepted ++ acceptedBytes (r.written.conn.sendAll hmac deflate rest) :=
              List.flatMap_cons
            rw [hcalls, herr, hbytes, hquiet, List.append_nil]
            rfl
          · rintro x hx
            rw [herr, Option.some.injEq] at hx
            rw [← hx]
            exact hpart hc
          · rintro (_ | ⟨b, before⟩) x later heq hx
            · rw [← (List.cons.inj heq).2]
              exact hsilent
            · intro s hs
              refine hsilent s ?_
              rw [(List.cons.inj heq).2]
              exact List.mem_append_right _ (List.mem_cons_of_mem _ hs)
      | panicked =>
          -- nothing was written and nothing moved
          obtain ⟨hconn, hacc⟩ := hspec.panicked hres
          rw [hconn]
          have hrun := ih c n hc hseq
          have hok : r.isErr = false := by rw [Report.isErr, hres]
          have hcalls : okCalls ((call, r) :: c.sendAll hmac deflate rest)
              = okCalls (c.sendAll hmac deflate rest) := by
            rw [okCalls_cons, if_neg (by simp [hres])]
          have herr : firstErr ((call, r) :: c.sendAll hmac deflate rest)
              = firstErr (c.sendAll hmac deflate rest) := by
            rw [firstErr, List.find?_cons_of_neg (by simp [hok])]
            rfl
          refine ⟨by rw [hcalls]; exact hrun.chain, by rw [hcalls]; exact hrun.seq, ?_,
            by rw [herr]; exact hrun.part, ?_⟩
          · rw [hcalls, herr, ← hrun.bytes, acceptedBytes, List.flatMap_cons, hacc]
            rfl
          · rintro (_ | ⟨b, before⟩) x later heq hx
            · obtain ⟨rfl, -⟩ := List.cons.inj heq
              rw [hok] at hx
              exact absurd hx (by simp)
            · exact hrun.silent before x later (List.cons.inj heq).2 hx

/-- **The wire holds whole frames.**  Whatever the socket does, the bytes it took are the frames of
the sends that returned `Ok`, in order, and behind them at most one proper prefix of the frame of
the first that failed; those frames are numbered from one on and chained from the first IV, the
sequence number is how many of them are messages, and behind the first failure no send returns `Ok`
or writes a byte. -/
theorem wire_holds_whole_frames (hmac : Hmac) (deflate : Bytes → Bytes) (c : Connection)
    (hseq : c.seq = 0) (hok : c.writeFailed = false) (calls : List (Call × List WriteOutcome))
    (hcount : fixCount (okCalls (c.sendAll hmac deflate calls)) < u32Bound) :
    acceptedBytes (c.sendAll hmac deflate calls)
        = (okCalls (c.sendAll hmac deflate calls)).flatMap Prod.snd
          ++ ((firstErr (c.sendAll hmac deflate calls)).map fun r => r.2.written.accepted).getD [] ∧
      (∀ r, firstErr (c.sendAll hmac deflate calls) = some r →
        r.2.written.accepted <+: r.2.frame ∧ r.2.written.accepted ≠ r.2.frame) ∧
      (c.afterAll hmac deflate calls).seq.toNat
        = fixCount (okCalls (c.sendAll hmac deflate calls)) ∧
      Chain hmac deflate c.signKey 0 c.signIv (okCalls (c.sendAll hmac deflate calls))
        (fixCount (okCalls (c.sendAll hmac deflate calls))) (c.afterAll hmac deflate calls).signIv ∧
      ∀ before r later, c.sendAll hmac deflate calls = before ++ r :: later → r.2.isErr = true →
        ∀ s ∈ later, s.2.Silent := by
  have hrun := sendAll_spec hmac deflate calls c 0 hok hseq
  refine ⟨hrun.bytes, hrun.part, ?_, by simpa using hrun.chain, hrun.silent⟩
  rw [hrun.seq, Nat.zero_add, UInt32.toNat_ofNat']
  exact Nat.mod_eq_of_lt hcount

/-- Raw bytes taken in two writes around a stall and a signal, a heartbeat cut after nine bytes,
and a third send that is refused. -/
theorem wire_holds_whole_frames_three :
    acceptedBytes (({} : Connection).sendAll (fun _ _ _ => 0) id
        [(.raw [1, 2, 3], [.err ⟨.wouldBlock, ""⟩, .ok 2, .err ⟨.interrupted, ""⟩, .ok 1]),
          (.fix [(35, "0")], [.ok 9, .err ⟨.wouldBlock, ""⟩]), (.raw [4], [.ok 1])])
      = [1, 2, 3] ++ (fixBuild [(35, "0")] 1).take 9 := by
  have h := (wire_holds_whole_frames (fun _ _ _ => 0) id {} rfl rfl
    [(.raw [1, 2, 3], [.err ⟨.wouldBlock, ""⟩, .ok 2, .err ⟨.interrupted, ""⟩, .ok 1]),
      (.fix [(35, "0")], [.ok 9, .err ⟨.wouldBlock, ""⟩]), (.raw [4], [.ok 1])]
    (by decide)).1
  rw [h]
  decide

/-! ## The sequence number wraps -/

def heartbeats (n : ℕ) : List (Call × List WriteOutcome) :=
  List.replicate n (.fix [(35, "0")], [.ok 1000])

lemma length_heartbeat_le (seq : UInt32) : (fixBuild [(35, "0")] seq).length ≤ 1000 := by
  have hseq : ∀ k n, k ≤ 10 → n < 10 ^ 10 → (Decimal.padded k n).length ≤ 10 := by
    intro k n hk hn
    unfold Decimal.padded
    split
    · exact Decimal.length_text_le (by decide) hn
    · rw [Decimal.length_low]
      exact hk
  have h₁ := hseq 6 seq.toNat (by decide) (seq.toNat_lt.trans (by decide))
  have h₂ := hseq 4 ((fixBody [(35, "0")] seq).length % u32Bound) (by decide)
    ((Nat.mod_lt _ (by decide)).trans (by decide))
  have h₃ : ∀ m, (trailer m).length ≤ 14 := by
    intro m
    have hten : (ascii "10=").length = 3 := by decide
    have := hseq 3 ((m.map UInt8.toNat).sum % 256) (by decide)
      ((Nat.mod_lt _ (by decide)).trans (by decide))
    simp only [trailer, List.length_append, hten, List.length_singleton]
    omega
  have hlits : (ascii "8=").length = 2 ∧ (ascii "9=").length = 2 ∧ (ascii "FIX.4.1").length = 7 ∧
      (ascii "34=").length = 3 ∧ (field (35, "0")).length = 5 := by decide
  have h := h₃ (header (ascii "FIX.4.1") (Decimal.padded 4
    ((fixBody [(35, "0")] seq).length % u32Bound)) ++ fixBody [(35, "0")] seq)
  have hbody : (fixBody [(35, "0")] seq).length ≤ 19 := by
    simp only [fixBody, seqField, List.flatMap_nil, List.append_nil, List.length_append,
      List.length_singleton, hlits]
    omega
  simp only [fixBuild, header, List.length_append, List.length_cons, List.length_nil, hlits] at h ⊢
  omega

lemma heartbeat_sent {c : Connection} (hc : c.writeFailed = false) (hkey : c.signKey = []) :
    (c.send (fun _ _ _ => 0) id (.fix [(35, "0")]) [.ok 1000]).written.result = .sent := by
  have hlen := length_heartbeat_le (c.seq + 1)
  have hloop : ∃ w, writeLoop c.tls true (fixBuild [(35, "0")] (c.seq + 1)) [.ok 1000] 0
      = (w, none) := by
    by_cases h : (fixBuild [(35, "0")] (c.seq + 1)).length ≤ 0
    · exact ⟨0, by rw [writeLoop, if_pos h]⟩
    · exact ⟨0 + 1000, by
        simp only [writeLoop, if_neg h]
        rw [if_neg (by decide), if_pos (by omega)]⟩
  obtain ⟨w, hw⟩ := hloop
  simp only [Connection.send, Connection.sendFix, Connection.sendFixWaiting, Connection.toSend,
    hkey, if_true, Connection.writeFrameWaiting, hc, Bool.false_eq_true, if_false, hw]

lemma fixCount_heartbeats (n : ℕ) (c : Connection) (hc : c.writeFailed = false)
    (hkey : c.signKey = []) :
    fixCount (okCalls (c.sendAll (fun _ _ _ => 0) id (heartbeats n))) = n := by
  induction n generalizing c with
  | zero => rfl
  | succ n ih =>
      have hsent := heartbeat_sent hc hkey
      obtain ⟨-, -, hok, hkey', -⟩ := (send_spec (fun _ _ _ => 0) id c (.fix [(35, "0")])
        [.ok 1000]).sent hsent
      rw [heartbeats, List.replicate_succ, Connection.sendAll, okCalls_cons, if_pos hsent,
        fixCount_cons]
      have hrec := ih _ hok (hkey'.trans hkey)
      rw [heartbeats] at hrec
      rw [hrec]
      show 1 + n = n + 1
      omega

/-- **The sequence number wraps.**  Behind `2 ^ 32` messages that all went out it is nought. -/
theorem not_wire_holds_whole_frames :
    ¬ ∀ (c : Connection), c.seq = 0 → c.writeFailed = false →
      ∀ calls : List (Call × List WriteOutcome),
        (c.afterAll (fun _ _ _ => 0) id calls).seq.toNat
          = fixCount (okCalls (c.sendAll (fun _ _ _ => 0) id calls)) := by
  intro h
  have hall := h {} rfl rfl (heartbeats (2 ^ 32))
  have hrun := (sendAll_spec (fun _ _ _ => 0) id (heartbeats (2 ^ 32)) {} 0 rfl rfl).seq
  rw [fixCount_heartbeats _ _ rfl rfl] at hall hrun
  rw [hrun, UInt32.toNat_ofNat'] at hall
  exact absurd hall (by decide)

end IbkrDx
