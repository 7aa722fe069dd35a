import IbkrDx.Protocol.TbtWire

/-!
# Streams that share frames

What reading the frames of any number of interleaved streams comes to.  Every record is read by its
own stream's kind and with its own stream's running price, so each stream reads as if it had the
frames to itself, and its prices are the sums of its own moves.

* **`streams_keep_apart`** — the frames of interleaved streams.
-/

namespace IbkrDx

open Bits Reader

/-! ## Records as the venue means them -/

inductive Moves where
  | trade (move : Int64) (flags size : UInt64) (exchange conditions : String)
  | quote (bidMove askMove : Int64) (flags bidSize askSize : UInt64)
  | midPoint (move : Int64) (flags : UInt64)

inductive PriceKind where
  | last
  | bid
  | ask
  | mid
  deriving DecidableEq

def Moves.on : Moves → PriceKind → ℤ
  | .trade move .., .last => move.toInt
  | .quote bidMove .., .bid => bidMove.toInt
  | .quote _ askMove .., .ask => askMove.toInt
  | .midPoint move _, .mid => move.toInt
  | _, _ => 0

/-- One record, the stream it belongs to and the second it happened. -/
structure Entry where
  stream : UInt64
  second : UInt64
  moves : Moves

/-- A record and the octets that carry it, laid out as its stream's kind lays one out. -/
inductive MovesWire : TbtKind → Moves → Bytes → Prop
  | trade {kind : TbtKind} {move : Int64} {flags size : UInt64} {exchange conditions : String}
      {a b c d e : Bytes} (hkind : kind = .last ∨ kind = .allLast) (hmove : SignedWire move a)
      (hflags : UnsignedWire flags b) (hsize : SizeWire (flagged flags 5 && flagged flags 4) size c)
      (hexchange : TextWire exchange.toList d) (hconditions : TextWire conditions.toList e) :
      MovesWire kind (.trade move flags size exchange conditions) (a ++ (b ++ (c ++ (d ++ e))))
  | quote {bidMove askMove : Int64} {flags bidSize askSize : UInt64} {a b c d e : Bytes}
      (hbid : SignedWire bidMove a) (hask : SignedWire askMove b) (hflags : UnsignedWire flags c)
      (hbidSize : SizeWire (flagged flags 2) bidSize d)
      (haskSize : SizeWire (flagged flags 3) askSize e) :
      MovesWire .bidAsk (.quote bidMove askMove flags bidSize askSize) (a ++ (b ++ (c ++ (d ++ e))))
  | midPoint {move : Int64} {flags : UInt64} {a b : Bytes} (hmove : SignedWire move a)
      (hflags : UnsignedWire flags b) : MovesWire .midPoint (.midPoint move flags) (a ++ b)

/-- The records of a frame and the octets that carry them, each headed by its stream and second. -/
inductive EntriesWire (kind : UInt64 → TbtKind) : List Entry → Bytes → Prop
  | nil : EntriesWire kind [] []
  | cons {e : Entry} {es : List Entry} {a b c os : Bytes} (hstream : UnsignedWire e.stream a)
      (hsecond : UnsignedWire e.second b) (hmoves : MovesWire (kind e.stream) e.moves c)
      (hs : EntriesWire kind es os) : EntriesWire kind (e :: es) (a ++ (b ++ (c ++ os)))

/-- A frame's body: the count of its bits, the records, and what the message carries behind them,
which is shorter than a cycle of the count. -/
inductive Body (kind : UInt64 → TbtKind) (es : List Entry) : Bytes → Prop
  | mk {payload tail : Bytes} (hpayload : EntriesWire kind es payload)
      (htail : (tail.length + 2) * 8 ≤ bitCycle) :
      Body kind es (UInt8.ofNat (payload.length * 8 % bitCycle / 256) ::
        UInt8.ofNat (payload.length * 8 % 256) :: (payload ++ tail))

/-! ## Where the prices stand -/

def moved (es : List Entry) (stream : UInt64) (side : PriceKind) : ℤ :=
  ((es.filter (·.stream = stream)).map (·.moves.on side)).sum

/-- The running price of a stream whose moves have come this far. -/
def standing (total : PriceKind → ℤ) : RunningPrice :=
  ⟨Int64.ofInt (total .last), Int64.ofInt (total .bid), Int64.ofInt (total .ask),
    Int64.ofInt (total .mid)⟩

/-- A number of ticks an `i64` holds. -/
def Holds (ticks : ℤ) : Prop := -2 ^ 63 ≤ ticks ∧ ticks < 2 ^ 63

/-- No price ever leaves what an `i64` of ticks holds. -/
def Fits (es : List Entry) : Prop :=
  ∀ before after, es = before ++ after → ∀ stream side, Holds (moved before stream side)

section

variable {Price : Type} (worth : Int64 → Price → Price)

def Moves.record (minTick : Price) (total : PriceKind → ℤ) : Moves → TbtRecord Price
  | .trade _ flags size exchange conditions =>
      .trade ⟨worth (Int64.ofInt (total .last)) minTick, size, flagged flags 0, flagged flags 1,
        exchange, conditions⟩
  | .quote _ _ flags bidSize askSize =>
      .quote ⟨worth (Int64.ofInt (total .bid)) minTick, worth (Int64.ofInt (total .ask)) minTick,
        bidSize, askSize, flagged flags 0, flagged flags 1⟩
  | .midPoint _ _ => .midPoint (Int64.ofInt (total .mid))

/-- The records behind `before` as they are handed over, each at the sum of its own stream's moves
so far. -/
def shown (streams : Streams Price) (before : List Entry) : List Entry → List (Tick Price)
  | [] => []
  | e :: es =>
      ⟨e.stream, e.second,
        e.moves.record worth (streams.minTick e.stream) (moved (before ++ [e]) e.stream)⟩ ::
        shown streams (before ++ [e]) es

end

/-! ## One record -/

section

variable {Price : Type} (worth : Int64 → Price → Price)

lemma checkedAdd_ofInt {total : ℤ} {move : Int64} (htotal : Holds total)
    (hsum : Holds (total + move.toInt)) :
    RunningPrice.checkedAdd (Int64.ofInt total) move = some (Int64.ofInt (total + move.toInt)) := by
  have hint : (Int64.ofInt total).toInt = total :=
    Int64.toInt_ofInt_of_le htotal.1 htotal.2
  have hadd : Int64.ofInt total + move = Int64.ofInt (total + move.toInt) := by
    rw [Int64.ofInt_add, Int64.ofInt_toInt]
  rw [RunningPrice.checkedAdd, hint, if_pos (show _ ∧ _ from hsum), hadd]

/-- Wherever it stands before the octets `os` with the prices at `r`, the reader gives `a`, stands
behind them, and leaves the prices at `r'`. -/
def TakesAs {α : Type} (m : Reader (Bits × RunningPrice) α) (os : Bytes) (a : α)
    (r r' : RunningPrice) : Prop :=
  ∀ pre rest, Gives m (behind pre (os ++ rest), r) a (behind (pre ++ os) rest, r')

namespace TakesAs

variable {α β : Type} {m : Reader (Bits × RunningPrice) α} {os os' : Bytes} {a : α} {b : β}
  {r r' r'' : RunningPrice} {f : α → Reader (Bits × RunningPrice) β}

lemma field {m : Reader Bits α} (h : ReadsAs m os a) (hf : TakesAs (f a) os' b r r') :
    TakesAs (onFst m >>= f) (os ++ os') b r r' := by
  intro pre rest
  have hsecond := hf (pre ++ os) rest
  rw [List.append_assoc] at hsecond ⊢
  exact ((h pre (os' ++ rest)).onFst r).bind hsecond

lemma still (h : ∀ s, Gives m (s, r) a (s, r')) (hf : TakesAs (f a) os b r' r'') :
    TakesAs (m >>= f) os b r r'' := fun pre rest => (h _).bind (hf pre rest)

lemma done (a : α) (r : RunningPrice) : TakesAs (pure a) [] a r r := by
  intro pre rest
  rw [List.append_nil]
  exact gives_pure a _

end TakesAs

/-- **One record.**  It is taken exactly, at the price its stream has moved to, and the running
price moves with it. -/
theorem takes_readRecord {kind : TbtKind} {moves : Moves} {os : Bytes}
    (hwire : MovesWire kind moves os) (minTick : Price) {total : PriceKind → ℤ}
    (htotal : ∀ side, Holds (total side)) (hsum : ∀ side, Holds (total side + moves.on side)) :
    TakesAs (readRecord worth kind minTick) os
      (moves.record worth minTick fun side => total side + moves.on side)
      (standing total) (standing fun side => total side + moves.on side) := by
  cases hwire with
  | @trade _ move flags size exchange conditions a b c d e hkind hmove hflags hsize hexchange
      hconditions =>
      have hadd := checkedAdd_ofInt (htotal .last) (hsum .last)
      have hend : (standing fun side =>
          total side + (Moves.trade move flags size exchange conditions).on side)
          = { standing total with lastTicks := Int64.ofInt (total .last + move.toInt) } := by
        simp [standing, Moves.on]
      have hsized : ReadsAs (if flagged flags 5 then Bits.size (flagged flags 4) else unsigned) c
          size := by
        have hread := reads_size hsize
        cases hfive : flagged flags 5 with
        | true => simpa [hfive] using hread
        | false => simpa [hfive, Bits.size] using hread
      have hnil : e = e ++ [] := (List.append_nil e).symm
      rw [hend, hnil]
      rcases hkind with rfl | rfl
      all_goals
        refine TakesAs.field (reads_signed hmove) (TakesAs.still (fun s => gives_getSnd _) ?_)
        refine TakesAs.still (fun s => gives_take hadd _) ?_
        refine TakesAs.field (reads_unsigned hflags) (TakesAs.field hsized ?_)
        refine TakesAs.field (reads_text hexchange) (TakesAs.field (reads_text hconditions) ?_)
        refine TakesAs.still (fun s => gives_setSnd _ _) ?_
        exact TakesAs.done _ _
  | @quote bidMove askMove flags bidSize askSize a b c d e hbid hask hflags hbidSize haskSize =>
      have hbidAdd := checkedAdd_ofInt (htotal .bid) (hsum .bid)
      have haskAdd := checkedAdd_ofInt (htotal .ask) (hsum .ask)
      have hend : (standing fun side =>
          total side + (Moves.quote bidMove askMove flags bidSize askSize).on side)
          = { standing total with
                bidTicks := Int64.ofInt (total .bid + bidMove.toInt)
                askTicks := Int64.ofInt (total .ask + askMove.toInt) } := by
        simp [standing, Moves.on]
      have hnil : e = e ++ [] := (List.append_nil e).symm
      rw [hend, hnil]
      refine TakesAs.field (reads_signed hbid) (TakesAs.still (fun s => gives_getSnd _) ?_)
      refine TakesAs.field (reads_signed hask) ?_
      refine TakesAs.still (fun s => gives_take hbidAdd _) ?_
      refine TakesAs.still (fun s => gives_take haskAdd _) ?_
      refine TakesAs.field (reads_unsigned hflags) (TakesAs.field (reads_size hbidSize) ?_)
      refine TakesAs.field (reads_size haskSize) (TakesAs.still (fun s => gives_setSnd _ _) ?_)
      exact TakesAs.done _ _
  | @midPoint move flags a b hmove hflags =>
      have hadd := checkedAdd_ofInt (htotal .mid) (hsum .mid)
      have hend : (standing fun side => total side + (Moves.midPoint move flags).on side)
          = { standing total with midTicks := Int64.ofInt (total .mid + move.toInt) } := by
        simp [standing, Moves.on]
      have hnil : b = b ++ [] := (List.append_nil b).symm
      rw [hend, hnil]
      refine TakesAs.field (reads_signed hmove) (TakesAs.still (fun s => gives_getSnd _) ?_)
      refine TakesAs.still (fun s => gives_take hadd _) ?_
      refine TakesAs.field (reads_unsigned hflags) (TakesAs.still (fun s => gives_setSnd _ _) ?_)
      exact TakesAs.done _ _

theorem safe_readRecord (kind : TbtKind) (minTick : Price) :
    Safe Prod.snd (readRecord worth kind minTick) := by
  refine (keeps_onFst _).bind_safe fun move => keeps_getSnd.bind_safe fun running => ?_
  cases kind with
  | last | allLast =>
      refine (keeps_take _).bind_safe fun lastTicks => (keeps_onFst _).bind_safe fun flags => ?_
      refine (keeps_onFst _).bind_safe fun size => (keeps_onFst _).bind_safe fun exchange => ?_
      exact (keeps_onFst _).bind_safe fun conditions => safe_setSnd _ _
  | bidAsk =>
      refine (keeps_onFst _).bind_safe fun askMove => (keeps_take _).bind_safe fun bidTicks => ?_
      refine (keeps_take _).bind_safe fun askTicks => (keeps_onFst _).bind_safe fun flags => ?_
      refine (keeps_onFst _).bind_safe fun bidSize => (keeps_onFst _).bind_safe fun askSize => ?_
      exact safe_setSnd _ _
  | midPoint =>
      refine (keeps_take _).bind_safe fun midTicks => (keeps_onFst _).bind_safe fun flags => ?_
      exact safe_setSnd _ _

end

/-! ## Sums of moves -/

lemma moved_append (es es' : List Entry) (stream : UInt64) (side : PriceKind) :
    moved (es ++ es') stream side = moved es stream side + moved es' stream side := by
  simp [moved]

lemma moved_single (e : Entry) (side : PriceKind) : moved [e] e.stream side = e.moves.on side := by
  simp [moved]

lemma moved_single_of_ne {e : Entry} {stream : UInt64} (h : e.stream ≠ stream) (side : PriceKind) :
    moved [e] stream side = 0 := by
  simp [moved, h]

lemma moved_filter (es : List Entry) (stream : UInt64) (side : PriceKind) :
    moved (es.filter (·.stream = stream)) stream side = moved es stream side := by
  simp [moved]

lemma moved_filter_of_ne (es : List Entry) {stream other : UInt64} (h : other ≠ stream)
    (side : PriceKind) : moved (es.filter (·.stream = stream)) other side = 0 := by
  have hnone : (es.filter (·.stream = stream)).filter (·.stream = other) = [] := by
    rw [List.filter_filter, List.filter_eq_nil_iff]
    intro e _ hboth
    simp only [Bool.and_eq_true, decide_eq_true_eq] at hboth
    exact h (hboth.1.symm.trans hboth.2)
  rw [moved, hnone]
  rfl

lemma Fits.filter {es : List Entry} (h : Fits es) (stream : UInt64) :
    Fits (es.filter (·.stream = stream)) := by
  intro before after heq other side
  obtain ⟨l, l', rfl, rfl, rfl⟩ := List.filter_eq_append_iff.1 heq
  by_cases hother : other = stream
  · subst hother
    rw [moved_filter]
    exact h l l' rfl other side
  · rw [moved_filter_of_ne l hother]
    exact ⟨by decide, by decide⟩

lemma moved_of_not_mem {es : List Entry} {stream : UInt64} (h : ∀ e ∈ es, e.stream ≠ stream)
    (side : PriceKind) : moved es stream side = 0 := by
  have hnone : es.filter (·.stream = stream) = [] := by
    rw [List.filter_eq_nil_iff]
    intro e he
    simpa using h e he
  rw [moved, hnone]
  rfl

lemma fits_iff (es : List Entry) :
    Fits es ↔ ∀ before ∈ es.inits, ∀ e ∈ es, ∀ side ∈ [PriceKind.last, .bid, .ask, .mid],
      Holds (moved before e.stream side) := by
  constructor
  · intro h before hbefore e _ side _
    obtain ⟨after, rfl⟩ := (List.mem_inits _ _).1 hbefore
    exact h before after rfl e.stream side
  · rintro h before after rfl stream side
    by_cases hmem : ∃ e ∈ before, e.stream = stream
    · obtain ⟨e, he, rfl⟩ := hmem
      exact h before ((List.mem_inits _ _).2 (List.prefix_append _ _)) e
        (List.mem_append_left _ he) side (by cases side <;> simp)
    · push Not at hmem
      rw [moved_of_not_mem hmem]
      exact ⟨by decide, by decide⟩

instance (ticks : ℤ) : Decidable (Holds ticks) := inferInstanceAs (Decidable (_ ∧ _))

instance (es : List Entry) : Decidable (Fits es) := decidable_of_iff _ (fits_iff es).symm

section

variable {Price : Type} (worth : Int64 → Price → Price) (streams : Streams Price)

lemma shown_append : ∀ (before es es' : List Entry),
    shown worth streams before (es ++ es')
      = shown worth streams before es ++ shown worth streams (before ++ es) es'
  | before, [], es' => by simp [shown]
  | before, e :: es, es' => by
      rw [List.cons_append, shown, shown, shown_append (before ++ [e]) es es', List.append_assoc]
      rfl

lemma shown_filter (stream : UInt64) : ∀ (es before before' : List Entry),
    moved before stream = moved before' stream →
      (shown worth streams before es).filter (·.stream = stream)
        = shown worth streams before' (es.filter (·.stream = stream))
  | [], _, _, _ => rfl
  | e :: es, before, before', h => by
      by_cases hstream : e.stream = stream
      · have hnext : moved (before ++ [e]) stream = moved (before' ++ [e]) stream := by
          funext side
          rw [moved_append, moved_append, h]
        rw [shown, List.filter_cons_of_pos (by simpa using hstream),
          List.filter_cons_of_pos (by simpa using hstream), shown, hstream, hnext,
          shown_filter stream es _ _ hnext]
      · have hnext : moved (before ++ [e]) stream = moved before' stream := by
          funext side
          rw [moved_append, moved_single_of_ne hstream, add_zero, h]
        rw [shown, List.filter_cons_of_neg (by simpa using hstream),
          List.filter_cons_of_neg (by simpa using hstream), shown_filter stream es _ _ hnext]

/-! ## Frames -/

lemma Bits.Ended.length_pos {os : Bytes} (h : Ended os) : 0 < os.length := by
  cases h with
  | last => exact Nat.one_pos
  | cons => exact Nat.succ_pos _

lemma EntriesWire.length_le {kind : UInt64 → TbtKind} {es : List Entry} {os : Bytes}
    (h : EntriesWire kind es os) : es.length * 2 ≤ os.length := by
  induction h with
  | nil => exact le_refl 0
  | cons hstream hsecond _ _ ih =>
      have hfirst := hstream.ended.length_pos
      have hnext := hsecond.ended.length_pos
      simp only [List.length_append, List.length_cons]
      omega

lemma gives_nextStream {stream second : UInt64} {a b : Bytes} (hstream : UnsignedWire stream a)
    (hsecond : UnsignedWire second b) (pre rest : Bytes) :
    Gives Records.nextStream (behind pre (a ++ (b ++ rest))) (stream, second)
      (behind (pre ++ a ++ b) rest) := by
  have hfirst := hstream.ended.length_pos
  have hnext := hsecond.ended.length_pos
  refine (gives_get _).bind ?_
  rw [if_neg (by rw [remaining_behind]; simp only [List.length_append]; omega)]
  exact ((reads_unsigned hstream) pre (b ++ rest)).bind
    (((reads_unsigned hsecond) (pre ++ a) rest).bind (gives_pure _ _))

lemma nextStream_end (pre : Bytes) :
    Records.nextStream.outcome (behind pre []) = (none, behind pre []) := by
  have hget : (get : Reader Bits Bits).outcome (behind pre []) = (some _, _) := gives_get _
  refine (outcome_bind_some hget).trans ?_
  rw [if_pos (by rw [remaining_behind]; decide)]
  rfl

lemma readRecords_wire {es : List Entry} {os : Bytes} (hwire : EntriesWire streams.kind es os) :
    ∀ (before : List Entry) (fuel : ℕ) (pre : Bytes), es.length < fuel → Fits (before ++ es) →
      readRecords worth streams fuel (behind pre os) (fun s => standing (moved before s))
        = (shown worth streams before es, fun s => standing (moved (before ++ es) s)) := by
  induction hwire with
  | nil =>
      rintro before (_ | fuel) pre hfuel -
      · exact absurd hfuel (by simp)
      · rw [readRecords, nextStream_end, List.append_nil]
        rfl
  | @cons e es a b c os hstream hsecond hmoves _ ih =>
      rintro before (_ | fuel) pre hfuel hfits
      · exact absurd hfuel (by simp)
      · have hnow := hfits before (e :: es) rfl e.stream
        have hthen := hfits (before ++ [e]) es (by simp) e.stream
        simp only [moved_append, moved_single] at hthen
        have hrecord := takes_readRecord worth hmoves (streams.minTick e.stream) hnow hthen
          (pre ++ a ++ b) os
        have hrunning : Function.update (fun s => standing (moved before s)) e.stream
            (standing fun side => moved before e.stream side + e.moves.on side)
            = fun s => standing (moved (before ++ [e]) s) := by
          funext s
          by_cases hs : s = e.stream
          · subst hs
            rw [Function.update_self]
            congr 1
            funext side
            rw [moved_append, moved_single]
          · rw [Function.update_of_ne hs]
            congr 1
            funext side
            rw [moved_append, moved_single_of_ne (Ne.symm hs), add_zero]
        rw [readRecords, gives_nextStream hstream hsecond]
        simp only []
        rw [hrecord]
        simp only []
        rw [hrunning, ih (before ++ [e]) fuel (pre ++ a ++ b ++ c) (by simpa using hfuel)
          (by simpa using hfits)]
        simp [shown, funext (moved_append _ _ _), moved_single]

lemma new_frame {payload tail : Bytes} (htail : (tail.length + 2) * 8 ≤ bitCycle) :
    Records.new (UInt8.ofNat (payload.length * 8 % bitCycle / 256) ::
      UInt8.ofNat (payload.length * 8 % 256) :: (payload ++ tail)) = some (Bits.new payload) := by
  have hbits : bitsCarried (payload.length * 8 % bitCycle) ((payload ++ tail).length + 2)
      = payload.length * 8 := by
    refine bitsCarried_eq ?_ ?_ (payload.length * 8 / bitCycle) _ (Nat.mod_add_div' _ _)
    · rw [List.length_append, Nat.add_assoc, Nat.add_mul]
      exact Nat.lt_add_of_pos_right (Nat.mul_pos (Nat.succ_pos _) (by decide))
    · rw [List.length_append, Nat.add_assoc, Nat.add_mul]
      exact Nat.add_le_add_left htail _
  have hlen : (payload.length * 8 + 7) / 8 = payload.length := by omega
  have hcount : (UInt8.ofNat (payload.length * 8 % bitCycle / 256)).toNat * 256
      + (UInt8.ofNat (payload.length * 8 % 256)).toNat = payload.length * 8 % bitCycle := by
    have hcut : payload.length * 8 % 256 = payload.length * 8 % bitCycle % 256 :=
      (Nat.mod_mod_of_dvd _ (by decide)).symm
    have hhigh : payload.length * 8 % bitCycle / 256 < 256 :=
      Nat.div_lt_of_lt_mul (Nat.mod_lt _ (by decide))
    rw [UInt8.toNat_ofNat', UInt8.toNat_ofNat', Nat.mod_eq_of_lt hhigh, Nat.mod_mod, hcut]
    exact Nat.div_add_mod' _ _
  simp only [Records.new, List.length_cons, hcount, hbits, hlen, List.take_left]
  rw [if_pos (by simp)]

lemma readFrame_wire {before es : List Entry} {body : Bytes} (hbody : Body streams.kind es body)
    (hfits : Fits (before ++ es)) :
    readFrame worth streams (fun s => standing (moved before s)) body
      = (shown worth streams before es, fun s => standing (moved (before ++ es) s)) := by
  obtain @⟨payload, tail, hpayload, htail⟩ := hbody
  have hlen := hpayload.length_le
  have hleft : (Bits.new payload).remaining = payload.length * 8 := remaining_behind [] payload
  rw [readFrame, new_frame htail]
  exact readRecords_wire worth streams hpayload before _ [] (by rw [hleft]; omega) hfits

lemma readFrames_wire {batches : List (List Entry)} {bodies : List Bytes}
    (hwire : List.Forall₂ (Body streams.kind) batches bodies) :
    ∀ before : List Entry, Fits (before ++ batches.flatten) →
      (readFrames worth streams (fun s => standing (moved before s)) bodies).1
        = shown worth streams before batches.flatten := by
  induction hwire with
  | nil => intro before _; rfl
  | @cons es body batches bodies hbody _ ih =>
      intro before hfits
      rw [List.flatten_cons, ← List.append_assoc] at hfits
      have hfirst : Fits (before ++ es) := fun l l' h =>
        hfits l (l' ++ batches.flatten) (by rw [h, List.append_assoc])
      rw [readFrames, readFrame_wire worth streams hbody hfirst, List.flatten_cons, shown_append,
        ← ih (before ++ es) hfits]

end

/-! ## Any number of streams -/

/-- **The streams keep apart.**  Whatever streams the records of the frames belong to and however
they are interleaved, reading each with its own stream's kind and running price gives every record
at the sum of its stream's moves so far; any frames of one stream's records alone give what the
shared frames give of that stream; and a record that fails to read moves no price. -/
theorem streams_keep_apart {Price : Type} (worth : Int64 → Price → Price) (streams : Streams Price)
    (batches : List (List Entry)) (bodies : List Bytes)
    (hwire : List.Forall₂ (Body streams.kind) batches bodies) (hfits : Fits batches.flatten) :
    (readFrames worth streams (fun _ => {}) bodies).1 = shown worth streams [] batches.flatten ∧
      (∀ (stream : UInt64) (alone : List (List Entry)) (bodies' : List Bytes),
        alone.flatten = batches.flatten.filter (·.stream = stream) →
        List.Forall₂ (Body streams.kind) alone bodies' →
        (readFrames worth streams (fun _ => {}) bodies').1
          = (readFrames worth streams (fun _ => {}) bodies).1.filter (·.stream = stream)) ∧
      ∀ kind minTick bits running,
        ((readRecord worth kind minTick).outcome (bits, running)).1 = none →
          ((readRecord worth kind minTick).outcome (bits, running)).2.2 = running := by
  have hzero : (fun _ => {} : UInt64 → RunningPrice) = fun s => standing (moved [] s) := rfl
  have hshown := readFrames_wire worth streams hwire [] hfits
  rw [hzero]
  refine ⟨hshown, fun stream alone bodies' halone hwire' => ?_, fun kind minTick bits running => ?_⟩
  · have hfits' : Fits alone.flatten := by
      rw [halone]
      exact hfits.filter stream
    have halone' := readFrames_wire worth streams hwire' [] hfits'
    rw [halone', hshown, shown_filter worth streams stream batches.flatten [] [] rfl, halone]
  · exact safe_readRecord worth kind minTick (bits, running)

/-- A trade and a midpoint in one frame, the next trade of the same stream in the next. -/
theorem streams_keep_apart_three :
    (readFrames (fun ticks step => ticks.toInt * step)
        ⟨fun stream => if stream = 1 then .last else .midPoint, fun _ => (25 : ℤ)⟩ (fun _ => {})
        [[0, 88, 0x81, 0x87, 0x85, 0x80, 0x82, 0xC1, 0x80, 0x82, 0x87, 0xFF, 0x80, 1],
          [0, 56, 0x81, 0x88, 0xFE, 0x80, 0x81, 0xC1, 0x80]]).1
      = [⟨1, 7, .trade ⟨125, 2, false, false, "A", ""⟩⟩, ⟨2, 7, .midPoint (-1)⟩,
          ⟨1, 8, .trade ⟨75, 1, false, false, "A", ""⟩⟩] := by
  have hsmall : ∀ (n : UInt64) (o : UInt8), o.toNat = 128 + n.toNat → UnsignedWire n [o] := by
    intro n o h
    have hlt := o.toNat_lt
    refine ⟨.last o (by omega), ?_⟩
    show 0 * 128 + ((o.toNat % 128 : ℕ) : ℤ) = n.toNat
    omega
  have htrade : ∀ (move : Int64) (size : UInt64) (m n : UInt8), SignedWire move [m] →
      n.toNat = 128 + size.toNat →
      MovesWire .last (.trade move 0 size "A" "") [m, 0x80, n, 0xC1, 0x80] :=
    fun move size m n hmove hsize => @MovesWire.trade _ move 0 size "A" "" [m] [0x80] [n] [0xC1]
      [0x80] (Or.inl rfl) hmove (hsmall 0 _ rfl) (.whole (hsmall size n hsize))
      (.marked 'A' 0xC1 rfl (by decide)) .closed
  refine (streams_keep_apart (fun ticks step => ticks.toInt * step)
    ⟨fun stream => if stream = 1 then .last else .midPoint, fun _ => (25 : ℤ)⟩
    [[⟨1, 7, .trade 5 0 2 "A" ""⟩, ⟨2, 7, .midPoint (-1) 0⟩], [⟨1, 8, .trade (-2) 0 1 "A" ""⟩]]
    _ (.cons (.mk (.cons (hsmall 1 0x81 rfl) (hsmall 7 0x87 rfl)
        (htrade 5 2 0x85 0x82 ⟨.last _ (by decide), by decide⟩ rfl)
        (.cons (hsmall 2 0x82 rfl) (hsmall 7 0x87 rfl)
          (.midPoint ⟨.last 0xFF (by decide), by decide⟩ (hsmall 0 0x80 rfl)) .nil)) (by decide))
      (.cons (.mk (.cons (hsmall 1 0x81 rfl) (hsmall 8 0x88 rfl)
        (htrade (-2) 1 0xFE 0x81 ⟨.last _ (by decide), by decide⟩ rfl) .nil) (by decide)) .nil))
    (by decide)).1.trans ?_
  decide

/-- **A sum past an `i64` is refused.**  A midpoint that moves to the largest price an `i64` holds
and then one tick further is read once: the second record is refused, and with it the rest of the
frame. -/
theorem not_streams_keep_apart :
    ¬ ∀ (streams : Streams ℤ) (batches : List (List Entry)) (bodies : List Bytes),
      List.Forall₂ (Body streams.kind) batches bodies →
      (readFrames (fun ticks step => ticks.toInt * step) streams (fun _ => {}) bodies).1
        = shown (fun ticks step => ticks.toInt * step) streams [] batches.flatten := by
  intro h
  have hone : UnsignedWire 1 [0x81] := ⟨.last _ (by decide), by decide⟩
  have hnone : UnsignedWire 0 [0x80] := ⟨.last _ (by decide), by decide⟩
  have hmost : SignedWire 9223372036854775807
      [0x00, 0x7F, 0x7F, 0x7F, 0x7F, 0x7F, 0x7F, 0x7F, 0x7F, 0xFF] := by
    refine ⟨?_, by decide⟩
    iterate 9 refine .cons _ (by decide) ?_
    exact .last _ (by decide)
  have hstep : SignedWire 1 [0x81] := ⟨.last _ (by decide), by decide⟩
  have hbody : Body (fun _ => .midPoint)
      [⟨1, 1, .midPoint 9223372036854775807 0⟩, ⟨1, 1, .midPoint 1 0⟩] _ :=
    @Body.mk _ _ _ [] (.cons hone hone (.midPoint hmost hnone)
      (.cons hone hone (.midPoint hstep hnone) .nil)) (by decide)
  have hread := h ⟨fun _ => .midPoint, fun _ => 1⟩ [_] [_] (.cons hbody .nil)
  rw [readFrames, readFrame, new_frame (by decide)] at hread
  exact absurd (congrArg List.length hread) (by decide +kernel)

end IbkrDx
