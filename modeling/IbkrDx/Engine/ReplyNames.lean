import IbkrDx.Lib.Removal
import IbkrDx.Lib.Texts

/-!
# Which query a reply answers

A reply of the historical service states the id of the query it answers, and it is looked for on
the list of what is in flight of its kind, `process_hmds_message` of `engine/hot_loop/hmds/mod.rs`.

* **`reply_attributed`** — exactly when a reply is applied to the request that sent its id.

What a whole series asks next, what the venue numbers a stream, and what is told of an answer are
left out.
-/

namespace IbkrDx

open Texts (numeral stripPrefix)

/-! ## Names -/

inductive IdStem where
  | hist | rt | tk | hg | adj | news | art | fundamentals | sched | scan | tbt
  deriving DecidableEq

namespace IdStem

def text : IdStem → List Char
  | hist => "hist_".toList
  | rt => "rt_".toList
  | tk => "tk_".toList
  | hg => "hg_".toList
  | adj => "adj_".toList
  | news => "news_".toList
  | art => "art_".toList
  | fundamentals => "COMPANY_FUNDAMENTALS".toList
  | sched => "sched_".toList
  | scan => "APISCAN".toList
  | tbt => "tbt_".toList

end IdStem

def inName (c : Char) : Bool := c.isAlphanum || c == '_'

def SetOff (t : List Char) : Prop := ∀ c ∈ t.head?, inName c = false

instance (t : List Char) : Decidable (SetOff t) := inferInstanceAs (Decidable (∀ c ∈ _, _))

structure QueryId where
  stem : IdStem
  number : ℕ
  tail : List Char
  setOff : SetOff tail
  deriving DecidableEq

namespace QueryId

def text (q : QueryId) : List Char := q.stem.text ++ numeral q.number ++ q.tail

def plain (stem : IdStem) (number : ℕ) : QueryId := ⟨stem, number, [], fun _ h => nomatch h⟩

def asked (exchange : List Char) : List Char :=
  if exchange = "SMART".toList then "BEST".toList else exchange

def pairIdUnder (number : ℕ) (symbol exchange second : List Char) : QueryId :=
  ⟨.hist, number, ";;".toList ++ symbol ++ "@".toList ++ asked exchange ++ " ".toList ++ second,
    fun c hc => by cases hc; decide⟩

def headTimestampQueryId (number conId : ℕ) (exchange dataType : List Char) (useRth : Bool) :
    QueryId :=
  ⟨.tk, number, ";;".toList ++ numeral conId ++ "@".toList ++ asked exchange ++ " ".toList ++
      dataType ++ ";;0;;".toList ++ (if useRth then "true" else "false").toList ++
      ";;0;;U".toList,
    fun c hc => by cases hc; decide⟩

/-- Two ids off one number: of one query, or of the two sides of a pair. -/
def Akin (q e : QueryId) : Prop := q.stem = e.stem ∧ q.number = e.number

instance (q e : QueryId) : Decidable (q.Akin e) := inferInstanceAs (Decidable (_ ∧ _))

end QueryId

def states (stated qid : List Char) : Bool :=
  match stripPrefix qid stated with
  | some [] => true
  | some (c :: _) => !inName c
  | none => false

/-! ## What a name reads as -/

lemma states_iff {stated qid : List Char} :
    states stated qid = true ↔ ∃ rest, stated = qid ++ rest ∧ SetOff rest := by
  unfold states
  constructor
  · intro h
    cases hstrip : stripPrefix qid stated with
    | none => rw [hstrip] at h; cases h
    | some rest =>
        rw [hstrip] at h
        have heq : stated = qid ++ rest := by
          unfold stripPrefix at hstrip
          split_ifs at hstrip with hpre
          obtain ⟨t, rfl⟩ := hpre
          rw [← Option.some.inj hstrip, List.drop_left]
        refine ⟨rest, heq, ?_⟩
        cases rest with
        | nil => exact fun c hc => nomatch hc
        | cons c rest =>
            intro c' hc'
            cases hc'
            simpa using h
  · rintro ⟨rest, rfl, hsetOff⟩
    rw [Texts.stripPrefix_append]
    cases rest with
    | nil => rfl
    | cons c rest => simpa using hsetOff c rfl

lemma setOff_nil : SetOff [] := fun _ h => nomatch h

lemma setOff_append {s t : List Char} (hs : SetOff s) (ht : SetOff t) : SetOff (s ++ t) := by
  cases s with
  | nil => exact ht
  | cons c s => exact hs

lemma inName_numeral {n : ℕ} : ∀ c ∈ numeral n, inName c = true := by
  intro c hc
  obtain ⟨hlow, hhigh⟩ := Texts.digit_of_mem_numeral hc
  have hdigit : c.isDigit = true := by
    rw [Char.isDigit, Bool.and_eq_true, decide_eq_true_iff, decide_eq_true_iff]
    exact ⟨UInt32.le_iff_toNat_le.2 hlow, UInt32.le_iff_toNat_le.2 hhigh⟩
  rw [inName, Char.isAlphanum, hdigit, Bool.or_true, Bool.true_or]

lemma isDigit_numeral {n : ℕ} : ∀ c ∈ numeral n, c.isDigit = true := by
  intro c hc
  obtain ⟨hlow, hhigh⟩ := Texts.digit_of_mem_numeral hc
  rw [Char.isDigit, Bool.and_eq_true, decide_eq_true_iff, decide_eq_true_iff]
  exact ⟨UInt32.le_iff_toNat_le.2 hlow, UInt32.le_iff_toNat_le.2 hhigh⟩

lemma IdStem.inName_text (s : IdStem) : ∀ c ∈ s.text, inName c = true ∧ c.isDigit = false := by
  have hall : s.text.all (fun c => inName c && !c.isDigit) = true := by
    cases s <;> decide
  intro c hc
  have hgood := List.all_eq_true.1 hall c hc
  simpa using hgood

lemma IdStem.text_injective : Function.Injective IdStem.text := by
  intro a b h
  revert h
  cases a <;> cases b <;> decide

lemma word_of_append {w w' t t' : List Char} (p : Char → Bool) (hw : ∀ c ∈ w, p c = true)
    (hw' : ∀ c ∈ w', p c = true) (ht : ∀ c ∈ t.head?, p c = false)
    (ht' : ∀ c ∈ t'.head?, p c = false) (h : w ++ t = w' ++ t') : w = w' ∧ t = t' := by
  have htake : ∀ {v s : List Char}, (∀ c ∈ v, p c = true) → (∀ c ∈ s.head?, p c = false) →
      (v ++ s).takeWhile p = v := by
    intro v s hv hs
    rw [List.takeWhile_append_of_pos hv]
    cases s with
    | nil => rw [List.takeWhile_nil, List.append_nil]
    | cons c s => rw [List.takeWhile_cons_of_neg (by simp [hs c rfl]), List.append_nil]
  have hword : w = w' := by
    rw [← htake hw ht, h, htake hw' ht']
  subst hword
  exact ⟨rfl, List.append_cancel_left h⟩

/-- **A name is of one number.** -/
theorem akin_of_append_eq {q e : QueryId} {rest rest' : List Char} (hrest : SetOff rest)
    (hrest' : SetOff rest') (h : q.text ++ rest = e.text ++ rest') :
    q.Akin e ∧ q.tail ++ rest = e.tail ++ rest' := by
  unfold QueryId.text at h
  rw [List.append_assoc, List.append_assoc (_ ++ _)] at h
  have hname : ∀ s : QueryId, ∀ c ∈ s.stem.text ++ numeral s.number, inName c = true := by
    intro s c hc
    rcases List.mem_append.1 hc with hc | hc
    · exact (s.stem.inName_text c hc).1
    · exact inName_numeral c hc
  obtain ⟨hword, htails⟩ := word_of_append inName (hname q) (hname e)
    (setOff_append q.setOff hrest) (setOff_append e.setOff hrest') h
  refine ⟨?_, htails⟩
  have hhead : ∀ n : ℕ, ∀ c ∈ (numeral n).head?, (!c.isDigit) = false := fun n c hc => by
    rw [isDigit_numeral c (List.mem_of_mem_head? hc)]
    rfl
  obtain ⟨hstem, hnumber⟩ := word_of_append (fun c => !c.isDigit)
    (fun c hc => by rw [(q.stem.inName_text c hc).2]; rfl)
    (fun c hc => by rw [(e.stem.inName_text c hc).2]; rfl) (hhead _) (hhead _) hword
  exact ⟨IdStem.text_injective hstem, Texts.numeral_injective hnumber⟩

/-! ## What is in flight -/

inductive QueryList where
  | historical | rtbarSubs | headTs | histogram | adjustments | ticks | news | articles
  | fundamental | schedule | scanner | tbt
  deriving DecidableEq

structure HeldPages (P : Type) where
  reqId : ℕ
  /-- The id of the ask side, where the series is a pair. -/
  askQuery : Option QueryId
  bars : List P
  asks : List P
  bidDone : Bool
  askDone : Bool
  actionsQuery : Option QueryId

structure HmdsDesk (P : Type) where
  pending : QueryList → List (QueryId × ℕ)
  held : List (HeldPages P)
  keepUpToDate : List ℕ

inductive ReplyPlace (P : Type) where
  | page (p : P) (complete : Bool)
  | headTimestamp
  | histogram
  /-- Ticks, and whether no more follow or they do not read. -/
  | ticks (done : Bool)
  | schedule
  | actions
  /-- The number of a five-second stream. -/
  | ticker
  /-- The number of a tick-by-tick stream. -/
  | acknowledged
  | headlines
  | article
  /-- A `QueryError`. -/
  | refused
  /-- What names a query and does not read. -/
  | unread

namespace ReplyPlace

variable {P : Type}

def lists : ReplyPlace P → List QueryList
  | page _ _ => [.historical]
  | headTimestamp => [.headTs]
  | histogram => [.histogram]
  | ticks _ => [.ticks]
  | schedule => [.schedule]
  | actions => [.adjustments]
  | ticker => [.rtbarSubs, .historical]
  | acknowledged => [.tbt]
  | headlines => [.news]
  | article => [.articles]
  | refused => [.historical, .rtbarSubs, .headTs, .histogram, .adjustments, .ticks, .news,
      .articles, .fundamental, .schedule, .scanner, .tbt]
  | unread => [.historical, .headTs, .histogram]

def whole : ReplyPlace P → Bool
  | schedule | actions | acknowledged => true
  | _ => false

def reads (place : ReplyPlace P) (stated : List Char) (q : QueryId) : Bool :=
  if place.whole then decide (stated = q.text) else states stated q.text

/-- A stream's number is the batch's too where its request is kept up to date. -/
def eligible (place : ReplyPlace P) (keepUpToDate : List ℕ) (k : QueryList) (reqId : ℕ) : Bool :=
  match place, k with
  | ticker, .historical => decide (reqId ∈ keepUpToDate)
  | _, _ => true

end ReplyPlace

namespace HeldPages

variable {P : Type}

def askSide (h : HeldPages P) (stated : List Char) : Bool :=
  h.askQuery.any fun q => q.text = stated

def holdBars (stated : List Char) (p : P) (complete : Bool) (h : HeldPages P) : HeldPages P :=
  if h.askSide stated then { h with asks := h.asks ++ [p], askDone := h.askDone || complete }
  else { h with
    bars := h.bars ++ [p]
    bidDone := if h.askQuery.isSome then h.bidDone || complete else h.bidDone }

end HeldPages

namespace HmdsDesk

variable {P : Type}

def matched (d : HmdsDesk P) (place : ReplyPlace P) (stated : List Char) :
    Option (QueryList × QueryId × ℕ) :=
  place.lists.findSome? fun k =>
    ((d.pending k).find? fun e =>
      place.eligible d.keepUpToDate k e.2 && place.reads stated e.1).map fun e => (k, e)

def filterOf (d : HmdsDesk P) (k : QueryList) (keep : QueryId × ℕ → Bool) : HmdsDesk P :=
  { d with pending := fun j => if j = k then (d.pending j).filter keep else d.pending j }

def removeOf (d : HmdsDesk P) (k : QueryList) (e : QueryId × ℕ) : HmdsDesk P :=
  { d with pending := fun j => if j = k then (d.pending j).eraseP (· = e) else d.pending j }

def withdrawStreamHalf (d : HmdsDesk P) (reqId : ℕ) : HmdsDesk P :=
  if reqId ∈ d.keepUpToDate then
    { d with keepUpToDate := d.keepUpToDate.filter (· ≠ reqId) }.filterOf .rtbarSubs
      (·.2 ≠ reqId)
  else d

def dropSeries (d : HmdsDesk P) (reqId : ℕ) : HmdsDesk P :=
  ({ d with held := d.held.filter (·.reqId ≠ reqId) }.withdrawStreamHalf reqId)

def holds (d : HmdsDesk P) (reqId : ℕ) : Bool := d.held.any (·.reqId = reqId)

def refuse (d : HmdsDesk P) (k : QueryList) (e : QueryId × ℕ) : HmdsDesk P :=
  match k with
  | .historical =>
      let d := (d.removeOf k e).withdrawStreamHalf e.2
      if d.holds e.2 then (d.dropSeries e.2).filterOf .historical (·.2 ≠ e.2) else d
  | .adjustments =>
      let d := d.removeOf k e
      if d.held.any (·.actionsQuery = some e.1) && d.holds e.2 then
        (d.dropSeries e.2).filterOf .historical (·.2 ≠ e.2)
      else d
  | _ => d.removeOf k e

def unreadable (d : HmdsDesk P) (k : QueryList) (e : QueryId × ℕ) : HmdsDesk P :=
  match k with
  | .historical =>
      if e.2 ∉ d.keepUpToDate ∨ d.holds e.2 = true then (d.removeOf k e).dropSeries e.2 else d
  | _ => d.removeOf k e

def answer (d : HmdsDesk P) (place : ReplyPlace P) (stated : List Char) (k : QueryList)
    (e : QueryId × ℕ) : HmdsDesk P :=
  match place with
  | .page p complete =>
      let d := { d with held :=
        Removal.modifyFirst (·.reqId = e.2) (·.holdBars stated p complete) d.held }
      if complete ∧ e.2 ∉ d.keepUpToDate then d.filterOf .historical (· ≠ e) else d
  | .ticks done => if done then d.removeOf k e else d
  | .ticker =>
      if k = .historical then
        { d with pending := fun j =>
            if j = .rtbarSubs then d.pending j ++ [e] else d.pending j }
      else d
  | .acknowledged => d
  | .refused => d.refuse k e
  | .unread => d.unreadable k e
  | _ => d.removeOf k e

def take (d : HmdsDesk P) (place : ReplyPlace P) (stated : List Char) : HmdsDesk P :=
  match d.matched place stated with
  | some (k, e) => d.answer place stated k e
  | none => d

end HmdsDesk

/-! ## What is asked -/

section

variable {P : Type}

/-- **Ids off their counters**: two ids off one number are of one query, or of the two sides of a
pair, of which the ask side's leads. -/
structure HmdsDesk.Composed (d : HmdsDesk P) : Prop where
  akin : ∀ k, ∀ e ∈ d.pending k, ∀ j, ∀ x ∈ d.pending j, e.1.Akin x.1 →
    e.2 = x.2 ∧ (e.1 ≠ x.1 → k = .historical ∧ j = .historical)
  leads : (d.pending .historical).Pairwise fun a b => a.1.Akin b.1 → a.1 ≠ b.1 → b.1.tail = []
  sides : ∀ h ∈ d.held, ∀ a ∈ h.askQuery, ∀ e ∈ d.pending .historical, e.2 = h.reqId →
    a.Akin e.1
  paired : ∀ e ∈ d.pending .historical, e.1.tail ≠ [] →
    ∀ h ∈ d.held, h.reqId = e.2 → h.askQuery = some e.1

/-- A reply that names an id, alone or set off from what follows it. -/
structure HmdsReply (P : Type) where
  desk : HmdsDesk P
  composed : desk.Composed
  place : ReplyPlace P
  id : QueryId
  rest : List Char
  setOff : SetOff rest
  /-- The id is off the same counters as those in flight. -/
  known : ∀ k, ∀ e ∈ desk.pending k, id.Akin e.1 → e.1 ≠ id →
    k = .historical ∧ (e.1.tail = [] ∨ id.tail = [])

namespace HmdsReply

def stated (r : HmdsReply P) : List Char := r.id.text ++ r.rest

def Asked (r : HmdsReply P) (k : QueryList) (reqId : ℕ) : Prop :=
  k ∈ r.place.lists ∧ r.place.eligible r.desk.keepUpToDate k reqId = true ∧
    (r.id, reqId) ∈ r.desk.pending k

end HmdsReply

/-- Two desks differ in what is of one request at most. -/
structure HmdsDesk.SameBut (d d' : HmdsDesk P) (reqId : ℕ) : Prop where
  pending : ∀ k e, e.2 ≠ reqId → (e ∈ d'.pending k ↔ e ∈ d.pending k)
  held : ∀ h : HeldPages P, h.reqId ≠ reqId → (h ∈ d'.held ↔ h ∈ d.held)
  keepUpToDate : ∀ n, n ≠ reqId → (n ∈ d'.keepUpToDate ↔ n ∈ d.keepUpToDate)

/-- **A reply is applied to the request that sent its id, and to no other.** -/
structure HmdsReply.Attributed (r : HmdsReply P) : Prop where
  /-- It is matched with the query that is in flight under its id. -/
  own : ∀ k reqId, r.Asked k reqId → ∃ j, r.Asked j reqId ∧
    r.desk.matched r.place r.stated = some (j, r.id, reqId)
  side : ∀ p complete, r.place = .page p complete → ∀ reqId, r.Asked .historical reqId →
    ∀ h ∈ r.desk.held, h.reqId = reqId → (h.askSide r.stated = true ↔ r.id.tail ≠ [])
  others : ∀ k reqId, r.Asked k reqId →
    r.desk.SameBut (r.desk.take r.place r.stated) reqId
  /-- A reply that names nothing in flight is matched with nothing, and changes nothing. -/
  gone : (∀ k reqId, ¬r.Asked k reqId) → r.desk.matched r.place r.stated = none ∧
    r.desk.take r.place r.stated = r.desk

/-- **The condition.** -/
structure HmdsReply.NamesOne (r : HmdsReply P) : Prop where
  /-- A name that is compared as a whole is stated alone. -/
  bare : r.place.whole = true → ∀ k reqId, r.Asked k reqId → r.rest = []
  /-- The ask side of a pair is named alone in its pages. -/
  askPage : ∀ p complete, r.place = .page p complete → r.id.tail ≠ [] →
    ∀ reqId, r.Asked .historical reqId → ∀ h ∈ r.desk.held, h.reqId = reqId → r.rest = []
  /-- An ask side that has gone leaves no bid side in flight. -/
  late : r.id.tail ≠ [] → (∀ k reqId, ¬r.Asked k reqId) → ∀ k ∈ r.place.lists,
    ∀ e ∈ r.desk.pending k, r.place.eligible r.desk.keepUpToDate k e.2 = true → ¬r.id.Akin e.1
  /-- What follows the id of a bid side does not spell that of the ask side. -/
  unspelt : r.id.tail = [] → ∀ k ∈ r.place.lists, ∀ e ∈ r.desk.pending k,
    r.place.eligible r.desk.keepUpToDate k e.2 = true → r.id.Akin e.1 → e.1 ≠ r.id →
      ∀ rest, r.rest = e.1.tail ++ rest → ¬SetOff rest
  unspeltPage : ∀ p complete, r.place = .page p complete → r.id.tail = [] →
    ∀ reqId, r.Asked .historical reqId → ∀ h ∈ r.desk.held, h.reqId = reqId →
      ∀ a ∈ h.askQuery, r.rest ≠ a.tail

/-! ## Asking -/

namespace HmdsDesk

def send (d : HmdsDesk P) (k : QueryList) (q : QueryId) (reqId : ℕ) : HmdsDesk P :=
  { d with pending := fun j => if j = k then d.pending j ++ [(q, reqId)] else d.pending j }

/-- A stretch of one series is asked, in the place of the one before it. -/
def askOne (d : HmdsDesk P) (q : QueryId) (reqId : ℕ) : HmdsDesk P :=
  { d with pending := fun j => if j = .historical then
      if (d.pending j).any (·.2 = reqId) then
        Removal.modifyFirst (·.2 = reqId) (fun e => (q, e.2)) (d.pending j)
      else d.pending j ++ [(q, reqId)]
    else d.pending j }

/-- A stretch of a pair is asked: the ask side's name leads. -/
def askPair (d : HmdsDesk P) (ask bid : QueryId) (reqId : ℕ) : HmdsDesk P :=
  { d with
    pending := fun j => if j = .historical then
      (d.pending j).filter (·.2 ≠ reqId) ++ [(ask, reqId), (bid, reqId)] else d.pending j
    held := Removal.modifyFirst (·.reqId = reqId)
      (fun h => { h with askQuery := some ask, bidDone := false, askDone := false }) d.held }

variable {d : HmdsDesk P} {reqId : ℕ}

variable {q : QueryId} {e : QueryId × ℕ}

lemma mem_send {j k : QueryList} :
    e ∈ (d.send k q reqId).pending j ↔ e ∈ d.pending j ∨ j = k ∧ e = (q, reqId) := by
  change e ∈ (if j = k then d.pending j ++ [(q, reqId)] else d.pending j) ↔ _
  split_ifs with hj
  · rw [List.mem_append, List.mem_singleton, and_iff_right hj]
  · exact ⟨Or.inl, fun h => h.resolve_right fun hc => hj hc.1⟩

/-- **A query off the counter keeps the ids as they are asked.** -/
theorem Composed.send (h : d.Composed) {k : QueryList} (hk : k ≠ .historical)
    (hnew : ∀ j, ∀ e ∈ d.pending j, ¬q.Akin e.1) : (d.send k q reqId).Composed where
  akin := fun j e he i x hx hakin => by
    rcases mem_send.1 he with hold | ⟨-, rfl⟩ <;> rcases mem_send.1 hx with hold' | ⟨-, rfl⟩
    · exact h.akin j e hold i x hold' hakin
    · exact absurd ⟨hakin.1.symm, hakin.2.symm⟩ (hnew j e hold)
    · exact absurd hakin (hnew i x hold')
    · exact ⟨rfl, fun hne => absurd rfl hne⟩
  leads := by
    have hsame : (d.send k q reqId).pending .historical = d.pending .historical :=
      if_neg (Ne.symm hk)
    rw [hsame]
    exact h.leads
  sides := fun x hx a ha e he hid =>
    h.sides x hx a ha e ((mem_send.1 he).resolve_right fun hc => hk hc.1.symm) hid
  paired := fun e he htail x hx hid =>
    h.paired e ((mem_send.1 he).resolve_right fun hc => hk hc.1.symm) htail x hx hid

lemma mem_renamed {l : List (QueryId × ℕ)}
    (h : e ∈ Removal.modifyFirst (·.2 = reqId) (fun e => (q, e.2)) l) :
    e ∈ l ∨ e = (q, reqId) :=
  (Removal.mem_modifyFirst h).imp_right fun ⟨_, _, hid, heq⟩ =>
    heq.trans (congrArg _ (of_decide_eq_true hid))

lemma pairwise_renamed {R : QueryId × ℕ → QueryId × ℕ → Prop}
    {l : List (QueryId × ℕ)} (h : l.Pairwise R) (hfront : ∀ e ∈ l, R e (q, reqId))
    (hbehind : ∀ e ∈ l, R (q, reqId) e) :
    (Removal.modifyFirst (·.2 = reqId) (fun e => (q, e.2)) l).Pairwise R := by
  induction l with
  | nil => exact h
  | cons x l ih =>
      obtain ⟨hfirst, hrest⟩ := List.pairwise_cons.1 h
      unfold Removal.modifyFirst
      split_ifs with hid
      · refine List.pairwise_cons.2 ⟨fun e he => ?_, hrest⟩
        rw [show x.2 = reqId from of_decide_eq_true hid]
        exact hbehind e (List.mem_cons_of_mem _ he)
      · refine List.pairwise_cons.2 ⟨fun e he => ?_, ih hrest
          (fun e he => hfront e (List.mem_cons_of_mem _ he))
          fun e he => hbehind e (List.mem_cons_of_mem _ he)⟩
        rcases mem_renamed he with he | rfl
        · exact hfirst e he
        · exact hfront x List.mem_cons_self

lemma mem_askOne {j : QueryList}
    (h : e ∈ (d.askOne q reqId).pending j) :
    e ∈ d.pending j ∨ j = .historical ∧ e = (q, reqId) := by
  change e ∈ (if j = .historical then
    if (d.pending j).any (·.2 = reqId) then
      Removal.modifyFirst (·.2 = reqId) (fun e => (q, e.2)) (d.pending j)
    else d.pending j ++ [(q, reqId)] else d.pending j) at h
  split_ifs at h with hj hany
  · exact (mem_renamed h).imp_right fun heq => ⟨hj, heq⟩
  · exact (List.mem_append.1 h).imp_right fun hin => ⟨hj, List.mem_singleton.1 hin⟩
  · exact Or.inl h

/-- **A series off the counter keeps the ids as they are asked.** -/
theorem Composed.askOne (h : d.Composed)
    (hsingle : ∀ x ∈ d.held, x.reqId = reqId → x.askQuery = none)
    (htail : q.tail = []) (hnew : ∀ j, ∀ e ∈ d.pending j, ¬q.Akin e.1) :
    (d.askOne q reqId).Composed where
  akin := fun j e he i x hx hakin => by
    rcases mem_askOne he with hold | ⟨-, rfl⟩ <;> rcases mem_askOne hx with hold' | ⟨-, rfl⟩
    · exact h.akin j e hold i x hold' hakin
    · exact absurd ⟨hakin.1.symm, hakin.2.symm⟩ (hnew j e hold)
    · exact absurd hakin (hnew i x hold')
    · exact ⟨rfl, fun hne => absurd rfl hne⟩
  leads := by
    change (if (d.pending .historical).any (·.2 = reqId) then
      Removal.modifyFirst (·.2 = reqId) (fun e => (q, e.2)) (d.pending .historical)
      else d.pending .historical ++ [(q, reqId)]).Pairwise _
    split_ifs
    · exact pairwise_renamed h.leads (fun _ _ _ _ => htail)
        fun e he hakin _ => absurd hakin (hnew _ e he)
    · refine List.pairwise_append.2 ⟨h.leads, List.pairwise_singleton _ _, ?_⟩
      intro a _ b hb _ _
      rw [List.mem_singleton.1 hb]
      exact htail
  sides := fun x hx a ha e he hid => by
    rcases mem_askOne he with hold | ⟨-, rfl⟩
    · exact h.sides x hx a ha e hold hid
    · rw [hsingle x hx hid.symm] at ha
      cases ha
  paired := fun e he hne x hx hid => by
    rcases mem_askOne he with hold | ⟨-, rfl⟩
    · exact h.paired e hold hne x hx hid
    · exact absurd htail hne

lemma mem_askPair {ask bid : QueryId} {j : QueryList}
    (h : e ∈ (d.askPair ask bid reqId).pending j) :
    (e ∈ d.pending j ∧ (j = .historical → e.2 ≠ reqId)) ∨
      j = .historical ∧ e.2 = reqId ∧ (e.1 = ask ∨ e.1 = bid) := by
  change e ∈ (if j = .historical then
    (d.pending j).filter (·.2 ≠ reqId) ++ [(ask, reqId), (bid, reqId)] else d.pending j) at h
  split_ifs at h with hj
  · rcases List.mem_append.1 h with h | h
    · obtain ⟨hin, hne⟩ := List.mem_filter.1 h
      exact Or.inl ⟨hin, fun _ => of_decide_eq_true hne⟩
    · refine Or.inr ⟨hj, ?_⟩
      rcases List.mem_cons.1 h with rfl | h
      · exact ⟨rfl, Or.inl rfl⟩
      · cases List.mem_singleton.1 h
        exact ⟨rfl, Or.inr rfl⟩
  · exact Or.inl ⟨h, fun hc => absurd hc hj⟩

lemma held_askPair {ask bid : QueryId} (honce : (d.held.map HeldPages.reqId).Nodup)
    {x : HeldPages P} (hx : x ∈ (d.askPair ask bid reqId).held) :
    (x.reqId = reqId ∧ x.askQuery = some ask) ∨ (x.reqId ≠ reqId ∧ x ∈ d.held) := by
  have hpair : d.held.Pairwise fun a b =>
      decide (a.reqId = reqId) = true → ¬decide (b.reqId = reqId) = true :=
    (List.pairwise_map.1 honce).imp fun hne ha hb =>
      hne ((of_decide_eq_true ha).trans (of_decide_eq_true hb).symm)
  change x ∈ Removal.modifyFirst _ _ d.held at hx
  rw [Removal.modifyFirst_eq_map _ hpair] at hx
  obtain ⟨y, hy, rfl⟩ := List.mem_map.1 hx
  split_ifs with hid
  · exact Or.inl ⟨of_decide_eq_true hid, rfl⟩
  · exact Or.inr ⟨fun hsame => hid (decide_eq_true hsame), hy⟩

/-- **A pair off the counter keeps the ids as they are asked.** -/
theorem Composed.askPair (h : d.Composed) (honce : (d.held.map HeldPages.reqId).Nodup)
    {ask bid : QueryId} (hakin : ask.Akin bid) (hask : ask.tail ≠ []) (hbid : bid.tail = [])
    (hnew : ∀ j, ∀ e ∈ d.pending j, ¬ask.Akin e.1) : (d.askPair ask bid reqId).Composed where
  akin := fun j e he i x hx hsame => by
    have hpair : ∀ q, q = ask ∨ q = bid → ask.Akin q := by
      rintro q (rfl | rfl)
      · exact ⟨rfl, rfl⟩
      · exact hakin
    rcases mem_askPair he with ⟨hold, -⟩ | ⟨rfl, hid, hof⟩ <;>
      rcases mem_askPair hx with ⟨hold', -⟩ | ⟨rfl, hid', hof'⟩
    · exact h.akin j e hold i x hold' hsame
    · obtain ⟨hstem, hnumber⟩ := hpair _ hof'
      exact absurd ⟨hstem.trans hsame.1.symm, hnumber.trans hsame.2.symm⟩ (hnew j e hold)
    · obtain ⟨hstem, hnumber⟩ := hpair _ hof
      exact absurd ⟨hstem.trans hsame.1, hnumber.trans hsame.2⟩ (hnew i x hold')
    · exact ⟨hid.trans hid'.symm, fun _ => ⟨rfl, rfl⟩⟩
  leads := by
    have heq : (d.askPair ask bid reqId).pending .historical =
        (d.pending .historical).filter (·.2 ≠ reqId) ++ [(ask, reqId), (bid, reqId)] := rfl
    rw [heq]
    refine List.pairwise_append.2 ⟨h.leads.sublist List.filter_sublist, ?_, ?_⟩
    · refine List.pairwise_cons.2 ⟨fun b hb _ _ => ?_, List.pairwise_singleton _ _⟩
      rw [List.mem_singleton.1 hb]
      exact hbid
    · intro a ha b hb hsame _
      have hold := (List.mem_filter.1 ha).1
      have hof : ask.Akin b.1 := by
        rcases List.mem_cons.1 hb with rfl | hb
        · exact ⟨rfl, rfl⟩
        · rw [List.mem_singleton.1 hb]
          exact hakin
      exact absurd ⟨hof.1.trans hsame.1.symm, hof.2.trans hsame.2.symm⟩ (hnew _ a hold)
  sides := fun x hx a ha e he hid => by
    rcases held_askPair honce hx with ⟨hown, hquery⟩ | ⟨hother, hold⟩
    · rw [hquery] at ha
      cases ha
      rcases mem_askPair he with ⟨-, hne⟩ | ⟨-, -, rfl | rfl⟩
      · exact absurd (hid.trans hown) (hne rfl)
      · exact ⟨rfl, rfl⟩
      · exact hakin
    · rcases mem_askPair he with ⟨hin, -⟩ | ⟨-, hid', -⟩
      · exact h.sides x hold a ha e hin hid
      · exact absurd (hid.symm.trans hid') hother
  paired := fun e he htail x hx hid => by
    rcases mem_askPair he with ⟨hin, hne⟩ | ⟨-, hid', rfl | rfl⟩
    · rcases held_askPair honce hx with ⟨hown, -⟩ | ⟨-, hold⟩
      · exact absurd (hid.symm.trans hown) (hne rfl)
      · exact h.paired e hin htail x hold hid
    · rcases held_askPair honce hx with ⟨-, hquery⟩ | ⟨hother, -⟩
      · exact hquery
      · exact absurd (hid.trans hid') hother
    · exact absurd hbid htail

end HmdsDesk

/-! ## Matching -/

lemma QueryId.eq_of_akin {q e : QueryId} (h : q.Akin e) (htail : q.tail = e.tail) : q = e := by
  obtain ⟨stem, number, tail, _⟩ := q
  obtain ⟨stem', number', tail', _⟩ := e
  obtain ⟨rfl, rfl⟩ := h
  cases htail
  rfl

lemma QueryId.text_of_akin {q e : QueryId} (h : q.Akin e) (htail : e.tail = []) :
    q.text = e.text ++ q.tail := by
  rw [text, text, htail, List.append_nil, h.1, h.2]

lemma HmdsDesk.of_matched {d : HmdsDesk P} {place : ReplyPlace P} {stated : List Char}
    {k : QueryList} {e : QueryId × ℕ} (h : d.matched place stated = some (k, e)) :
    k ∈ place.lists ∧ e ∈ d.pending k ∧ place.eligible d.keepUpToDate k e.2 = true ∧
      place.reads stated e.1 = true ∧ ((d.pending k).find? fun e =>
        place.eligible d.keepUpToDate k e.2 && place.reads stated e.1) = some e := by
  obtain ⟨j, hj, hfound⟩ := List.exists_of_findSome?_eq_some h
  obtain ⟨x, hfind, heq⟩ := Option.map_eq_some_iff.1 hfound
  cases heq
  have hboth := List.find?_some hfind
  rw [Bool.and_eq_true] at hboth
  exact ⟨hj, List.mem_of_find?_eq_some hfind, hboth.1, hboth.2, hfind⟩

namespace HmdsReply

variable {r : HmdsReply P} {k : QueryList} {e : QueryId × ℕ}

lemma historical_of_whole (h : r.place.whole = true) : .historical ∉ r.place.lists := by
  revert h
  cases r.place <;> simp [ReplyPlace.whole, ReplyPlace.lists]

lemma akin_of_reads {q : QueryId} (h : r.place.reads r.stated q = true) :
    r.id.Akin q ∧ ∃ rest, r.id.tail ++ r.rest = q.tail ++ rest ∧ SetOff rest := by
  unfold ReplyPlace.reads at h
  split_ifs at h with hwhole
  · have heq : r.id.text ++ r.rest = q.text ++ [] := by
      rw [List.append_nil]
      exact of_decide_eq_true h
    obtain ⟨hakin, htails⟩ := akin_of_append_eq r.setOff setOff_nil heq
    exact ⟨hakin, [], htails, setOff_nil⟩
  · obtain ⟨rest, heq, hsetOff⟩ := states_iff.1 h
    obtain ⟨hakin, htails⟩ := akin_of_append_eq r.setOff hsetOff heq
    exact ⟨hakin, rest, htails, hsetOff⟩

lemma reads_of_append {q : QueryId} (hwhole : r.place.whole = false) {rest : List Char}
    (heq : r.stated = q.text ++ rest) (hsetOff : SetOff rest) :
    r.place.reads r.stated q = true := by
  rw [ReplyPlace.reads, hwhole, if_neg Bool.false_ne_true]
  exact states_iff.2 ⟨rest, heq, hsetOff⟩

lemma reads_id : r.place.reads r.stated r.id = true ↔ (r.place.whole = true → r.rest = []) := by
  constructor
  · intro h hwhole
    rw [ReplyPlace.reads, if_pos hwhole, decide_eq_true_iff] at h
    exact List.append_right_eq_self.1 h
  · intro h
    cases hwhole : r.place.whole with
    | false => exact reads_of_append hwhole rfl r.setOff
    | true =>
        rw [ReplyPlace.reads, if_pos hwhole, decide_eq_true_iff, stated, h hwhole, List.append_nil]

lemma matched_of_reads (hk : k ∈ r.place.lists) (he : e ∈ r.desk.pending k)
    (heligible : r.place.eligible r.desk.keepUpToDate k e.2 = true)
    (hreads : r.place.reads r.stated e.1 = true) :
    ∃ j x, r.desk.matched r.place r.stated = some (j, x) := by
  cases hmatched : r.desk.matched r.place r.stated with
  | some m => exact ⟨m.1, m.2, rfl⟩
  | none =>
      have hnone := List.findSome?_eq_none_iff.1 hmatched k hk
      rw [Option.map_eq_none_iff, List.find?_eq_none] at hnone
      exact absurd (Bool.and_eq_true _ _ ▸ ⟨heligible, hreads⟩) (hnone e he)

lemma rel_of_find? {α : Type} {R : α → α → Prop} {p : α → Bool} {l : List α} {a b : α}
    (hpair : l.Pairwise R) (hfind : l.find? p = some a) (hb : b ∈ l) (hp : p b = true) :
    b = a ∨ R a b := by
  induction l with
  | nil => cases hb
  | cons c l ih =>
      obtain ⟨hfirst, hrest⟩ := List.pairwise_cons.1 hpair
      by_cases hc : p c = true
      · rw [List.find?_cons_of_pos hc] at hfind
        cases hfind
        exact (List.mem_cons.1 hb).imp_right (hfirst b)
      · rw [List.find?_cons_of_neg hc] at hfind
        rcases List.mem_cons.1 hb with rfl | hb
        · exact absurd hp hc
        · exact ih hrest hfind hb

end HmdsReply

/-! ## What a reply changes -/

namespace HmdsDesk

variable {d d₁ d₂ d₃ : HmdsDesk P} {reqId : ℕ}

lemma SameBut.refl (d : HmdsDesk P) : d.SameBut d reqId :=
  ⟨fun _ _ _ => Iff.rfl, fun _ _ => Iff.rfl, fun _ _ => Iff.rfl⟩

lemma SameBut.trans (h : d₁.SameBut d₂ reqId) (h' : d₂.SameBut d₃ reqId) :
    d₁.SameBut d₃ reqId where
  pending := fun k e hne => (h'.pending k e hne).trans (h.pending k e hne)
  held := fun x hne => (h'.held x hne).trans (h.held x hne)
  keepUpToDate := fun n hne => (h'.keepUpToDate n hne).trans (h.keepUpToDate n hne)

lemma sameBut_filterOf (k : QueryList) {keep : QueryId × ℕ → Bool}
    (hkeep : ∀ e, e.2 ≠ reqId → keep e = true) : d.SameBut (d.filterOf k keep) reqId where
  pending := fun j e hne => by
    change e ∈ (if j = k then (d.pending j).filter keep else d.pending j) ↔ _
    split_ifs
    · rw [List.mem_filter]
      exact and_iff_left (hkeep e hne)
    · exact Iff.rfl
  held := fun _ _ => Iff.rfl
  keepUpToDate := fun _ _ => Iff.rfl

lemma sameBut_removeOf (k : QueryList) {e : QueryId × ℕ} : d.SameBut (d.removeOf k e) e.2 where
  pending := fun j x hne => by
    change x ∈ (if j = k then (d.pending j).eraseP (· = e) else d.pending j) ↔ _
    split_ifs
    · refine List.mem_eraseP_of_neg ?_
      rw [decide_eq_true_iff]
      rintro rfl
      exact hne rfl
    · exact Iff.rfl
  held := fun _ _ => Iff.rfl
  keepUpToDate := fun _ _ => Iff.rfl

lemma sameBut_withdraw : d.SameBut (d.withdrawStreamHalf reqId) reqId := by
  unfold withdrawStreamHalf
  split_ifs
  · have hkeep : d.SameBut { d with keepUpToDate := d.keepUpToDate.filter (· ≠ reqId) } reqId :=
      ⟨fun _ _ _ => Iff.rfl, fun _ _ => Iff.rfl, fun n hne => by
        rw [List.mem_filter]
        exact and_iff_left (decide_eq_true hne)⟩
    exact hkeep.trans (sameBut_filterOf _ fun e hne => decide_eq_true hne)
  · exact SameBut.refl d

lemma sameBut_dropSeries : d.SameBut (d.dropSeries reqId) reqId := by
  have hheld : d.SameBut { d with held := d.held.filter (·.reqId ≠ reqId) } reqId :=
    ⟨fun _ _ _ => Iff.rfl, fun h hne => by
      rw [List.mem_filter]
      exact and_iff_left (decide_eq_true hne), fun _ _ => Iff.rfl⟩
  exact hheld.trans sameBut_withdraw

lemma sameBut_refuse (k : QueryList) (e : QueryId × ℕ) : d.SameBut (d.refuse k e) e.2 := by
  have hend : ∀ d : HmdsDesk P,
      d.SameBut ((d.dropSeries e.2).filterOf .historical (·.2 ≠ e.2)) e.2 := fun d =>
    sameBut_dropSeries.trans (sameBut_filterOf _ fun x hne => decide_eq_true hne)
  cases k with
  | historical =>
      have hfirst : d.SameBut ((d.removeOf .historical e).withdrawStreamHalf e.2) e.2 :=
        (sameBut_removeOf _).trans sameBut_withdraw
      dsimp only [refuse]
      split_ifs
      · exact hfirst.trans (hend _)
      · exact hfirst
  | adjustments =>
      dsimp only [refuse]
      split_ifs
      · exact (sameBut_removeOf _).trans (hend _)
      · exact sameBut_removeOf _
  | _ => exact sameBut_removeOf _

lemma sameBut_unreadable (k : QueryList) (e : QueryId × ℕ) :
    d.SameBut (d.unreadable k e) e.2 := by
  cases k with
  | historical =>
      dsimp only [unreadable]
      split_ifs
      · exact (sameBut_removeOf _).trans sameBut_dropSeries
      · exact SameBut.refl d
  | _ => exact sameBut_removeOf _

lemma mem_modifyFirst_of_ne {α : Type} {p q : α → Bool} {f : α → α} {l : List α} {a : α}
    (ha : q a = false) (hp : ∀ b, p b = true → q b = true) (hf : ∀ b, q b = true → q (f b) = true) :
    a ∈ Removal.modifyFirst p f l ↔ a ∈ l := by
  induction l with
  | nil => exact Iff.rfl
  | cons b l ih =>
      unfold Removal.modifyFirst
      split_ifs with hb
      · have hne : ∀ c, q c = true → a ≠ c := fun c hc heq => by
          rw [heq, hc] at ha
          cases ha
        rw [List.mem_cons, List.mem_cons, or_iff_right (hne _ (hf b (hp b hb))),
          or_iff_right (hne b (hp b hb))]
      · rw [List.mem_cons, List.mem_cons, ih]

lemma sameBut_page (stated : List Char) (p : P) (complete : Bool) :
    d.SameBut { d with held :=
      Removal.modifyFirst (·.reqId = reqId) (·.holdBars stated p complete) d.held } reqId where
  pending := fun _ _ _ => Iff.rfl
  held := fun h hne => by
    refine mem_modifyFirst_of_ne (q := fun h => h.reqId = reqId) (decide_eq_false hne)
      (fun _ hb => hb) fun b hb => ?_
    rw [HeldPages.holdBars]
    split_ifs <;> exact hb
  keepUpToDate := fun _ _ => Iff.rfl

/-- **What a reply does, it does to the request it is matched with.** -/
theorem sameBut_answer (place : ReplyPlace P) (stated : List Char) (k : QueryList)
    (e : QueryId × ℕ) : d.SameBut (d.answer place stated k e) e.2 := by
  cases place with
  | page p complete =>
      dsimp only [answer]
      split_ifs
      · refine (sameBut_page stated p complete).trans (sameBut_filterOf _ fun x hne => ?_)
        refine decide_eq_true ?_
        rintro rfl
        exact hne rfl
      · exact sameBut_page stated p complete
  | ticks done =>
      dsimp only [answer]
      split_ifs
      · exact sameBut_removeOf _
      · exact SameBut.refl d
  | ticker =>
      dsimp only [answer]
      split_ifs
      · refine ⟨fun j x hne => ?_, fun _ _ => Iff.rfl, fun _ _ => Iff.rfl⟩
        change x ∈ (if j = .rtbarSubs then d.pending j ++ [e] else d.pending j) ↔ _
        split_ifs
        · rw [List.mem_append, List.mem_singleton]
          refine or_iff_left ?_
          rintro rfl
          exact hne rfl
        · exact Iff.rfl
      · exact SameBut.refl d
  | acknowledged => exact SameBut.refl d
  | refused => exact sameBut_refuse k e
  | unread => exact sameBut_unreadable k e
  | _ => exact sameBut_removeOf _

end HmdsDesk

/-! ## What a reply leaves in flight -/

namespace HmdsDesk

variable {d d₁ d₂ d₃ : HmdsDesk P}

/-- Nothing more is in flight or held, and what is held is of the pairs it was of. -/
structure Shrinks (d d' : HmdsDesk P) : Prop where
  pending : ∀ k, (d'.pending k).Sublist (d.pending k)
  held : (d'.held.map fun x => (x.reqId, x.askQuery)).Sublist
    (d.held.map fun x => (x.reqId, x.askQuery))
  keepUpToDate : d'.keepUpToDate.Sublist d.keepUpToDate

lemma Shrinks.refl (d : HmdsDesk P) : d.Shrinks d :=
  ⟨fun _ => List.Sublist.refl _, List.Sublist.refl _, List.Sublist.refl _⟩

lemma Shrinks.trans (h : d₁.Shrinks d₂) (h' : d₂.Shrinks d₃) : d₁.Shrinks d₃ where
  pending := fun k => (h'.pending k).trans (h.pending k)
  held := h'.held.trans h.held
  keepUpToDate := h'.keepUpToDate.trans h.keepUpToDate

lemma Shrinks.of_held {d' : HmdsDesk P} (h : d.Shrinks d') {x : HeldPages P} (hx : x ∈ d'.held) :
    ∃ y ∈ d.held, y.reqId = x.reqId ∧ y.askQuery = x.askQuery := by
  obtain ⟨y, hy, heq⟩ := List.mem_map.1 (h.held.subset (List.mem_map_of_mem hx))
  exact ⟨y, hy, congrArg Prod.fst heq, congrArg Prod.snd heq⟩

/-- **What goes leaves the ids as they are asked.** -/
theorem Composed.shrink (h : d.Composed) {d' : HmdsDesk P} (hless : d.Shrinks d') :
    d'.Composed where
  akin := fun k e he j x hx =>
    h.akin k e ((hless.pending k).subset he) j x ((hless.pending j).subset hx)
  leads := h.leads.sublist (hless.pending _)
  sides := fun x hx a ha e he hid => by
    obtain ⟨y, hy, hsame, hquery⟩ := hless.of_held hx
    exact h.sides y hy a (hquery ▸ ha) e ((hless.pending _).subset he) (hid.trans hsame.symm)
  paired := fun e he htail x hx hid => by
    obtain ⟨y, hy, hsame, hquery⟩ := hless.of_held hx
    exact hquery ▸ h.paired e ((hless.pending _).subset he) htail y hy (hsame.trans hid)

lemma shrinks_filterOf (k : QueryList) (keep : QueryId × ℕ → Bool) :
    d.Shrinks (d.filterOf k keep) where
  pending := fun j => by
    change (if j = k then (d.pending j).filter keep else d.pending j).Sublist _
    split_ifs
    · exact List.filter_sublist
    · exact List.Sublist.refl _
  held := List.Sublist.refl _
  keepUpToDate := List.Sublist.refl _

lemma shrinks_removeOf (k : QueryList) (e : QueryId × ℕ) : d.Shrinks (d.removeOf k e) where
  pending := fun j => by
    change (if j = k then (d.pending j).eraseP (· = e) else d.pending j).Sublist _
    split_ifs
    · exact List.eraseP_sublist
    · exact List.Sublist.refl _
  held := List.Sublist.refl _
  keepUpToDate := List.Sublist.refl _

lemma shrinks_withdraw (reqId : ℕ) : d.Shrinks (d.withdrawStreamHalf reqId) := by
  unfold withdrawStreamHalf
  split_ifs
  · exact ⟨(shrinks_filterOf _ _).pending, List.Sublist.refl _, List.filter_sublist⟩
  · exact Shrinks.refl d

lemma shrinks_dropSeries (reqId : ℕ) : d.Shrinks (d.dropSeries reqId) := by
  have hheld : d.Shrinks { d with held := d.held.filter (·.reqId ≠ reqId) } :=
    ⟨fun _ => List.Sublist.refl _, List.filter_sublist.map _, List.Sublist.refl _⟩
  exact hheld.trans (shrinks_withdraw reqId)

lemma shrinks_refuse (k : QueryList) (e : QueryId × ℕ) : d.Shrinks (d.refuse k e) := by
  have hend : ∀ d : HmdsDesk P,
      d.Shrinks ((d.dropSeries e.2).filterOf .historical (·.2 ≠ e.2)) := fun d =>
    (shrinks_dropSeries _).trans (shrinks_filterOf _ _)
  cases k with
  | historical =>
      have hfirst : d.Shrinks ((d.removeOf .historical e).withdrawStreamHalf e.2) :=
        (shrinks_removeOf _ _).trans (shrinks_withdraw _)
      dsimp only [refuse]
      split_ifs
      · exact hfirst.trans (hend _)
      · exact hfirst
  | adjustments =>
      dsimp only [refuse]
      split_ifs
      · exact (shrinks_removeOf _ _).trans (hend _)
      · exact shrinks_removeOf _ _
  | _ => exact shrinks_removeOf _ _

lemma shrinks_unreadable (k : QueryList) (e : QueryId × ℕ) : d.Shrinks (d.unreadable k e) := by
  cases k with
  | historical =>
      dsimp only [unreadable]
      split_ifs
      · exact (shrinks_removeOf _ _).trans (shrinks_dropSeries _)
      · exact Shrinks.refl d
  | _ => exact shrinks_removeOf _ _

lemma shrinks_page (stated : List Char) (p : P) (complete : Bool) (reqId : ℕ) :
    d.Shrinks { d with held :=
      Removal.modifyFirst (·.reqId = reqId) (·.holdBars stated p complete) d.held } where
  pending := fun _ => List.Sublist.refl _
  held := by
    rw [Removal.map_modifyFirst fun y _ => by unfold HeldPages.holdBars; split_ifs <;> rfl]
  keepUpToDate := List.Sublist.refl _

lemma Composed.number (h : d.Composed) {e : QueryId × ℕ} (he : e ∈ d.pending .historical)
    (hunpaired : ∀ x ∈ d.pending .historical, e.1.Akin x.1 → e.1 = x.1) :
    (d.send .rtbarSubs e.1 e.2).Composed where
  akin := fun j x hx i y hy hakin => by
    have hone : ∀ i, ∀ y ∈ d.pending i, e.1.Akin y.1 → e.2 = y.2 ∧ e.1 = y.1 := by
      intro i y hy hakin
      obtain ⟨hid, hpair⟩ := h.akin .historical e he i y hy hakin
      refine ⟨hid, ?_⟩
      by_contra hne
      obtain ⟨-, rfl⟩ := hpair hne
      exact hne (hunpaired y hy hakin)
    rcases mem_send.1 hx with hold | ⟨-, rfl⟩ <;> rcases mem_send.1 hy with hold' | ⟨-, rfl⟩
    · exact h.akin j x hold i y hold' hakin
    · obtain ⟨hid, hsame⟩ := hone j x hold ⟨hakin.1.symm, hakin.2.symm⟩
      exact ⟨hid.symm, fun hne => absurd hsame.symm hne⟩
    · obtain ⟨hid, hsame⟩ := hone i y hold' hakin
      exact ⟨hid, fun hne => absurd hsame hne⟩
    · exact ⟨rfl, fun hne => absurd rfl hne⟩
  leads := h.leads
  sides := fun x hx a ha y hy hid =>
    h.sides x hx a ha y ((mem_send.1 hy).resolve_right fun hc => nomatch hc.1) hid
  paired := fun y hy htail x hx hid =>
    h.paired y ((mem_send.1 hy).resolve_right fun hc => nomatch hc.1) htail x hx hid

/-- A reply lets go of some of the desk, or numbers the stream of what is kept up to date. -/
lemma shrinks_or_numbers (d : HmdsDesk P) (place : ReplyPlace P) (stated : List Char) :
    d.Shrinks (d.take place stated) ∨ ∃ e ∈ d.pending .historical, e.2 ∈ d.keepUpToDate ∧
      d.take place stated = d.send .rtbarSubs e.1 e.2 := by
  unfold HmdsDesk.take
  cases hmatched : d.matched place stated with
  | none => exact Or.inl (Shrinks.refl d)
  | some m =>
      obtain ⟨k, e⟩ := m
      cases place with
      | page p complete =>
          refine Or.inl ?_
          dsimp only [answer]
          split_ifs
          · exact (shrinks_page stated p complete e.2).trans (shrinks_filterOf _ _)
          · exact shrinks_page stated p complete e.2
      | ticks done =>
          refine Or.inl ?_
          dsimp only [answer]
          split_ifs
          · exact shrinks_removeOf _ _
          · exact Shrinks.refl d
      | ticker =>
          dsimp only [answer]
          split_ifs with hk
          · subst hk
            obtain ⟨-, he, heligible, -⟩ := of_matched hmatched
            exact Or.inr ⟨e, he, of_decide_eq_true heligible, rfl⟩
          · exact Or.inl (Shrinks.refl d)
      | acknowledged => exact Or.inl (Shrinks.refl d)
      | refused => exact Or.inl (shrinks_refuse k e)
      | unread => exact Or.inl (shrinks_unreadable k e)
      | _ => exact Or.inl (shrinks_removeOf _ _)

/-- **A reply leaves the ids as they are asked.** -/
theorem Composed.take (h : d.Composed) (place : ReplyPlace P) (stated : List Char)
    (hunpaired : ∀ e ∈ d.pending .historical, e.2 ∈ d.keepUpToDate →
      ∀ x ∈ d.pending .historical, e.1.Akin x.1 → e.1 = x.1) :
    (d.take place stated).Composed := by
  rcases shrinks_or_numbers d place stated with hless | ⟨e, he, hkept, heq⟩
  · exact h.shrink hless
  · exact heq ▸ h.number he (hunpaired e he hkept)

/-! ## What is reached -/

/-- The desks a session comes to, and the ids asked by then: a counter gives a number once. -/
inductive Reached : List QueryId → HmdsDesk P → Prop where
  | opened : Reached [] ⟨fun _ => [], [], []⟩
  | asked {ids d} (h : Reached ids d) {k : QueryList} (hk : k ≠ .historical) (q : QueryId)
      (reqId : ℕ) (hnew : ∀ x ∈ ids, ¬q.Akin x) : Reached (q :: ids) (d.send k q reqId)
  /-- A bar request is taken, under a number that nothing answers under. -/
  | begun {ids d} (h : Reached ids d) (reqId : ℕ) (actions : Option QueryId) (kept : Bool)
      (hheld : ∀ x ∈ d.held, x.reqId ≠ reqId) (hidle : ∀ e ∈ d.pending .historical, e.2 ≠ reqId) :
      Reached ids { d with
        held := d.held ++ [⟨reqId, none, [], [], false, false, actions⟩]
        keepUpToDate := if kept then reqId :: d.keepUpToDate else d.keepUpToDate }
  | stretch {ids d} (h : Reached ids d) (n reqId : ℕ)
      (hsingle : ∀ x ∈ d.held, x.reqId = reqId → x.askQuery = none)
      (hnew : ∀ x ∈ ids, ¬(QueryId.plain .hist n).Akin x) :
      Reached (.plain .hist n :: ids) (d.askOne (.plain .hist n) reqId)
  /-- A pair is not kept up to date. -/
  | pair {ids d} (h : Reached ids d) (n reqId : ℕ) (symbol exchange second : List Char)
      (hkept : reqId ∉ d.keepUpToDate) (hnew : ∀ x ∈ ids, ¬(QueryId.plain .hist n).Akin x) :
      Reached (.pairIdUnder n symbol exchange second :: .plain .hist n :: ids)
        (d.askPair (.pairIdUnder n symbol exchange second) (.plain .hist n) reqId)
  | replied {ids d} (h : Reached ids d) (place : ReplyPlace P) (stated : List Char) :
      Reached ids (d.take place stated)
  /-- What is withdrawn, fails, or is whole. -/
  | gone {ids d} (h : Reached ids d) {d' : HmdsDesk P} (hless : d.Shrinks d') : Reached ids d'

/-- What a session keeps. -/
structure Sound (d : HmdsDesk P) (ids : List QueryId) : Prop where
  composed : d.Composed
  once : (d.held.map HeldPages.reqId).Nodup
  known : ∀ k, ∀ e ∈ d.pending k, e.1 ∈ ids
  apart : ∀ q ∈ ids, ∀ k, ∀ e ∈ d.pending k, q.Akin e.1 → e.1 ≠ q →
    k = .historical ∧ e.2 ∉ d.keepUpToDate ∧ (e.1.tail = [] ∨ q.tail = [])
  sides : ∀ x ∈ d.held, ∀ a ∈ x.askQuery, a.tail ≠ []

variable {ids l : List QueryId} {a : QueryId} {d' : HmdsDesk P}

lemma Sound.shrink (h : d.Sound ids) (hless : d.Shrinks d') : d'.Sound ids where
  composed := h.composed.shrink hless
  once := by
    have hids := hless.held.map Prod.fst
    rw [List.map_map, List.map_map] at hids
    exact h.once.sublist hids
  known := fun k e he => h.known k e ((hless.pending k).subset he)
  apart := fun q hq k e he hakin hne => by
    obtain ⟨hk, hkept, htail⟩ := h.apart q hq k e ((hless.pending k).subset he) hakin hne
    exact ⟨hk, fun hc => hkept (hless.keepUpToDate.subset hc), htail⟩
  sides := fun x hx => by
    obtain ⟨y, hy, -, hquery⟩ := hless.of_held hx
    exact hquery ▸ h.sides y hy

/-- Ids off one number nothing is asked under. -/
lemma Sound.ask (h : d.Sound ids) (hd' : d'.Composed)
    (honce : d'.held.map HeldPages.reqId = d.held.map HeldPages.reqId)
    (hkept : d'.keepUpToDate = d.keepUpToDate)
    (hsides : ∀ x ∈ d'.held, ∀ a ∈ x.askQuery, a.tail ≠ []) (hakin : ∀ q ∈ l, a.Akin q)
    (hnew : ∀ x ∈ ids, ¬a.Akin x)
    (hpending : ∀ k, ∀ e ∈ d'.pending k, e ∈ d.pending k ∨ e.1 ∈ l ∧ ∀ q ∈ l, e.1 ≠ q →
      k = .historical ∧ e.2 ∉ d.keepUpToDate ∧ (e.1.tail = [] ∨ q.tail = [])) :
    d'.Sound (l ++ ids) where
  composed := hd'
  once := honce ▸ h.once
  known := fun k e he => by
    rcases hpending k e he with hold | ⟨hin, -⟩
    · exact List.mem_append_right _ (h.known k e hold)
    · exact List.mem_append_left _ hin
  apart := fun q hq k e he hsame hne => by
    rw [hkept]
    rcases hpending k e he with hold | ⟨hin, hl⟩ <;> rcases List.mem_append.1 hq with hq | hq
    · have hof := hakin q hq
      exact absurd ⟨hof.1.trans hsame.1, hof.2.trans hsame.2⟩ (hnew _ (h.known k e hold))
    · exact h.apart q hq k e hold hsame hne
    · exact hl q hq hne
    · have hof := hakin e.1 hin
      exact absurd ⟨hof.1.trans hsame.1.symm, hof.2.trans hsame.2.symm⟩ (hnew q hq)
  sides := hsides

lemma Sound.askSingle (h : d.Sound ids) (hd' : d'.Composed) (hheld : d'.held = d.held)
    (hkept : d'.keepUpToDate = d.keepUpToDate) (hnew : ∀ x ∈ ids, ¬a.Akin x) (reqId : ℕ)
    (hpending : ∀ k, ∀ e ∈ d'.pending k, e ∈ d.pending k ∨ e = (a, reqId)) :
    d'.Sound (a :: ids) := by
  refine h.ask (l := [a]) hd' (by rw [hheld]) hkept (hheld ▸ h.sides)
    (fun q hq => List.mem_singleton.1 hq ▸ ⟨rfl, rfl⟩) hnew fun k e he => ?_
  rcases hpending k e he with hold | rfl
  · exact Or.inl hold
  · exact Or.inr ⟨List.mem_singleton_self _, fun q hq hne =>
      absurd (List.mem_singleton.1 hq).symm hne⟩

/-- **What a session keeps, at every desk reached.** -/
theorem Reached.sound (h : Reached ids d) : d.Sound ids := by
  induction h with
  | opened =>
      have hnone {α : Type} {p : α → Prop} : ∀ a ∈ ([] : List α), p a := fun _ => nofun
      exact ⟨⟨fun _ => hnone, List.Pairwise.nil, hnone, hnone⟩, List.nodup_nil, fun _ => hnone,
        hnone, hnone⟩
  | asked _ hk q reqId hnew ih =>
      refine ih.askSingle (ih.composed.send hk fun j e he => hnew _ (ih.known j e he)) rfl rfl hnew
        reqId fun k e he => ?_
      exact (mem_send.1 he).imp_right And.right
  | @begun ids d _ reqId actions kept hheld hidle ih =>
      have hsides : ∀ x ∈ d.held ++ [⟨reqId, none, [], [], false, false, actions⟩],
          ∀ a ∈ x.askQuery, x ∈ d.held := fun x hx a ha => by
        refine (List.mem_append.1 hx).resolve_right fun hc => ?_
        rw [List.mem_singleton.1 hc] at ha
        cases ha
      refine { ih with composed := ?_, once := ?_, apart := ?_, sides := ?_ }
      · refine { ih.composed with sides := ?_, paired := ?_ }
        · exact fun x hx a ha => ih.composed.sides x (hsides x hx a ha) a ha
        · intro e he htail x hx hid
          refine ih.composed.paired e he htail x ((List.mem_append.1 hx).resolve_right ?_) hid
          exact fun hc => hidle e he (hid ▸ List.mem_singleton.1 hc ▸ rfl)
      · rw [List.map_append]
        refine ih.once.append (List.nodup_singleton _) ?_
        rw [List.map_singleton, List.disjoint_singleton]
        exact fun hc => (List.mem_map.1 hc).elim fun x hx => hheld x hx.1 hx.2
      · intro q hq k e he hakin hne
        obtain ⟨rfl, hkept, htail⟩ := ih.apart q hq k e he hakin hne
        refine ⟨rfl, ?_, htail⟩
        dsimp only
        split_ifs
        · exact fun hc => (List.mem_cons.1 hc).elim (hidle e he) hkept
        · exact hkept
      · exact fun x hx a ha => ih.sides x (hsides x hx a ha) a ha
  | stretch _ n reqId hsingle hnew ih =>
      refine ih.askSingle (ih.composed.askOne hsingle rfl fun j e he => hnew _ (ih.known j e he))
        rfl rfl hnew reqId fun k e he => ?_
      exact (mem_askOne he).imp_right And.right
  | pair _ n reqId symbol exchange second hkept hnew ih =>
      refine ih.ask (l := [_, _]) (ih.composed.askPair ih.once ⟨rfl, rfl⟩ (List.cons_ne_nil _ _) rfl
        fun j e he => hnew _ (ih.known j e he)) ?_ rfl ?_ ?_ hnew ?_
      · exact Removal.map_modifyFirst (f := fun h : HeldPages P =>
          { h with askQuery := some _, bidDone := false, askDone := false }) (fun _ _ => rfl) _
      · intro x hx a ha
        rcases held_askPair ih.once hx with ⟨-, hquery⟩ | ⟨-, hold⟩
        · rw [hquery] at ha
          cases ha
          exact List.cons_ne_nil _ _
        · exact ih.sides x hold a ha
      · simp [QueryId.Akin, QueryId.plain, QueryId.pairIdUnder]
      · intro k e he
        rcases mem_askPair he with ⟨hold, -⟩ | ⟨rfl, rfl, hof⟩
        · exact Or.inl hold
        · refine Or.inr ⟨by simpa using hof, fun q hq hne => ⟨rfl, hkept, ?_⟩⟩
          rcases hof with heq | heq
          · rcases List.mem_cons.1 hq with rfl | hq
            · exact absurd heq hne
            · exact Or.inr (List.mem_singleton.1 hq ▸ rfl)
          · exact Or.inl (heq ▸ rfl)
  | @replied ids d _ place stated ih =>
      have hone : ∀ e ∈ d.pending .historical, e.2 ∈ d.keepUpToDate → ∀ q ∈ ids, q.Akin e.1 →
          e.1 = q := fun e he hkept q hq hakin => by
        by_contra hne
        exact (ih.apart q hq _ e he hakin hne).2.1 hkept
      have hcomposed := ih.composed.take place stated fun e he hkept x hx hakin =>
        hone e he hkept x.1 (ih.known _ x hx) ⟨hakin.1.symm, hakin.2.symm⟩
      rcases shrinks_or_numbers d place stated with hless | ⟨e, he, hkept, heq⟩
      · exact ih.shrink hless
      · rw [heq] at hcomposed ⊢
        refine { ih with composed := hcomposed, known := ?_, apart := ?_ }
        · intro k x hx
          rcases mem_send.1 hx with hold | ⟨-, rfl⟩
          · exact ih.known k x hold
          · exact ih.known _ e he
        · intro q hq k x hx hakin hne
          rcases mem_send.1 hx with hold | ⟨-, rfl⟩
          · exact ih.apart q hq k x hold hakin hne
          · exact absurd (hone _ he hkept q hq hakin) hne
  | gone _ hless ih => exact ih.shrink hless

end HmdsDesk

/-! ## Attribution -/

namespace HmdsReply

variable {r : HmdsReply P}

lemma other_of_matched {k : QueryList} {e : QueryId × ℕ}
    (hmatched : r.desk.matched r.place r.stated = some (k, e)) (hne : e.1 ≠ r.id) :
    k = .historical ∧ (e.1.tail = [] ∨ r.id.tail = []) ∧ r.id.Akin e.1 ∧
      r.place.whole = false := by
  obtain ⟨hk, he, -, hreads, -⟩ := HmdsDesk.of_matched hmatched
  obtain ⟨hakin, -⟩ := akin_of_reads hreads
  obtain ⟨rfl, htails⟩ := r.known k e he hakin hne
  refine ⟨rfl, htails, hakin, ?_⟩
  cases hwhole : r.place.whole with
  | false => rfl
  | true => exact absurd hk (historical_of_whole hwhole)

lemma bid_apart (h : r.NamesOne) (htail : r.id.tail = []) {k : QueryList} {e : QueryId × ℕ}
    (hmatched : r.desk.matched r.place r.stated = some (k, e)) : e.1 = r.id := by
  by_contra hne
  obtain ⟨hk, he, heligible, hreads, -⟩ := HmdsDesk.of_matched hmatched
  obtain ⟨hakin, rest, heq, hsetOff⟩ := akin_of_reads hreads
  rw [htail, List.nil_append] at heq
  exact h.unspelt htail k hk e he heligible hakin hne rest heq hsetOff

lemma own (h : r.NamesOne) {k : QueryList} {reqId : ℕ} (hasked : r.Asked k reqId) :
    ∃ j, r.Asked j reqId ∧ r.desk.matched r.place r.stated = some (j, r.id, reqId) := by
  obtain ⟨hk, heligible, hin⟩ := hasked
  have hreads : r.place.reads r.stated r.id = true :=
    reads_id.2 fun hwhole => h.bare hwhole k reqId ⟨hk, heligible, hin⟩
  obtain ⟨j, e, hmatched⟩ := matched_of_reads hk hin heligible hreads
  obtain ⟨hj, he, heligible', hreads', hfind⟩ := HmdsDesk.of_matched hmatched
  have hsame : e.1 = r.id := by
    by_contra hne
    obtain ⟨rfl, htails, hakin, -⟩ := other_of_matched hmatched hne
    rcases htails with htail | htail
    · have hboth := r.composed.akin k _ hin .historical e he hakin
      obtain ⟨rfl, -⟩ := hboth.2 (Ne.symm hne)
      rcases rel_of_find? r.composed.leads hfind hin
        (Bool.and_eq_true _ _ ▸ ⟨heligible, hreads⟩) with heq | hrel
      · exact hne (congrArg Prod.fst heq).symm
      · have hnil := hrel ⟨hakin.1.symm, hakin.2.symm⟩ hne
        exact hne (QueryId.eq_of_akin hakin (hnil.trans htail.symm)).symm
    · exact hne (bid_apart h htail hmatched)
  have hnumber := (r.composed.akin k _ hin j e he (by rw [hsame]; exact ⟨rfl, rfl⟩)).1
  obtain ⟨q, n⟩ := e
  cases hsame
  cases hnumber
  exact ⟨j, ⟨hj, heligible', he⟩, hmatched⟩

lemma gone (h : r.NamesOne) (hnone : ∀ k reqId, ¬r.Asked k reqId) :
    r.desk.matched r.place r.stated = none := by
  cases hmatched : r.desk.matched r.place r.stated with
  | none => rfl
  | some m =>
      obtain ⟨hk, he, heligible, -, -⟩ := HmdsDesk.of_matched hmatched
      have hne : m.2.1 ≠ r.id := fun heq => hnone m.1 m.2.2 ⟨hk, heligible, heq ▸ he⟩
      obtain ⟨-, -, hakin, -⟩ := other_of_matched hmatched hne
      by_cases htail : r.id.tail = []
      · exact absurd (bid_apart h htail hmatched) hne
      · exact absurd hakin (h.late htail hnone m.1 hk m.2 he heligible)

lemma side (h : r.NamesOne) {p : P} {complete : Bool} (hplace : r.place = .page p complete)
    {reqId : ℕ} (hasked : r.Asked .historical reqId) {x : HeldPages P} (hx : x ∈ r.desk.held)
    (hid : x.reqId = reqId) : x.askSide r.stated = true ↔ r.id.tail ≠ [] := by
  by_cases htail : r.id.tail = []
  · refine iff_of_false (fun hside => ?_) fun hne => hne htail
    obtain ⟨a, ha, heq⟩ := (Option.any_eq_true _ _).1 hside
    have htext : r.id.text ++ r.rest = a.text ++ [] := by
      rw [List.append_nil]
      exact (of_decide_eq_true heq).symm
    obtain ⟨-, htails⟩ := akin_of_append_eq r.setOff setOff_nil htext
    rw [htail, List.nil_append, List.append_nil] at htails
    exact h.unspeltPage p complete hplace htail reqId hasked x hx hid a ha htails
  · refine iff_of_true ?_ htail
    rw [HeldPages.askSide, r.composed.paired _ hasked.2.2 htail x hx hid]
    refine decide_eq_true ?_
    rw [stated, h.askPage p complete hplace htail reqId hasked x hx hid, List.append_nil]

lemma attributed (h : r.NamesOne) : r.Attributed where
  own := fun _ _ hasked => own h hasked
  side := fun _ _ hplace _ hasked _ hx hid => side h hplace hasked hx hid
  others := fun k reqId hasked => by
    obtain ⟨j, -, hmatched⟩ := own h hasked
    rw [HmdsDesk.take, hmatched]
    exact HmdsDesk.sameBut_answer _ _ _ _
  gone := fun hnone => by
    have hmatched := gone h hnone
    refine ⟨hmatched, ?_⟩
    rw [HmdsDesk.take, hmatched]

lemma stated_of_spelt {q : QueryId} {rest : List Char} (htail : r.id.tail = [])
    (hakin : r.id.Akin q) (hrest : r.rest = q.tail ++ rest) : r.stated = q.text ++ rest := by
  rw [stated, hrest, QueryId.text, QueryId.text, htail, List.append_nil, hakin.1, hakin.2,
    List.append_assoc, List.append_assoc, List.append_assoc]

lemma namesOne (h : r.Attributed) : r.NamesOne where
  bare := fun hwhole k reqId hasked => by
    obtain ⟨j, -, hmatched⟩ := h.own k reqId hasked
    exact reads_id.1 (HmdsDesk.of_matched hmatched).2.2.2.1 hwhole
  askPage := fun p complete hplace htail reqId hasked x hx hid => by
    have hside := (h.side p complete hplace reqId hasked x hx hid).2 htail
    rw [HeldPages.askSide, r.composed.paired _ hasked.2.2 htail x hx hid] at hside
    have htext : r.id.text = r.stated := of_decide_eq_true hside
    exact List.append_right_eq_self.1 htext.symm
  late := fun htail hnone k hk e he heligible hakin => by
    have hmatched := (h.gone hnone).1
    have hne : e.1 ≠ r.id := fun heq => hnone k e.2 ⟨hk, heligible, heq ▸ he⟩
    obtain ⟨rfl, htails⟩ := r.known k e he hakin hne
    have hnil := htails.resolve_right htail
    have hwhole : r.place.whole = false := Bool.eq_false_iff.2 fun hwhole =>
      historical_of_whole hwhole hk
    have hreads : r.place.reads r.stated e.1 = true := by
      refine reads_of_append hwhole ?_ (setOff_append r.id.setOff r.setOff)
      rw [stated, QueryId.text_of_akin hakin hnil, List.append_assoc]
    obtain ⟨j, x, hsome⟩ := matched_of_reads hk he heligible hreads
    rw [hmatched] at hsome
    cases hsome
  unspelt := fun htail k hk e he heligible hakin hne rest hrest hsetOff => by
    obtain ⟨rfl, htails⟩ := r.known k e he hakin hne
    have hwhole : r.place.whole = false := Bool.eq_false_iff.2 fun hwhole =>
      historical_of_whole hwhole hk
    have hreads := reads_of_append hwhole (stated_of_spelt htail hakin hrest) hsetOff
    by_cases hasked : ∃ k reqId, r.Asked k reqId
    · obtain ⟨k, reqId, hk', heligible', hin⟩ := hasked
      obtain ⟨j, hj, hmatched⟩ := h.own k reqId ⟨hk', heligible', hin⟩
      obtain ⟨rfl, -⟩ := (r.composed.akin j _ hj.2.2 .historical e he hakin).2 (Ne.symm hne)
      obtain ⟨-, -, -, -, hfind⟩ := HmdsDesk.of_matched hmatched
      rcases rel_of_find? r.composed.leads hfind he
        (Bool.and_eq_true _ _ ▸ ⟨heligible, hreads⟩) with heq | hrel
      · exact hne (congrArg Prod.fst heq)
      · have hnil := hrel hakin (Ne.symm hne)
        exact hne (QueryId.eq_of_akin hakin (htail.trans hnil.symm)).symm
    · push Not at hasked
      obtain ⟨j, x, hsome⟩ := matched_of_reads hk he heligible hreads
      rw [(h.gone hasked).1] at hsome
      cases hsome
  unspeltPage := fun p complete hplace htail reqId hasked x hx hid a ha hrest => by
    refine (h.side p complete hplace reqId hasked x hx hid).1 ?_ htail
    have hakin := r.composed.sides x hx a ha _ hasked.2.2 hid.symm
    refine (Option.any_eq_true _ _).2 ⟨a, ha, decide_eq_true ?_⟩
    have hspelt : r.stated = a.text ++ [] := stated_of_spelt htail
      ⟨hakin.1.symm, hakin.2.symm⟩ (by rw [hrest, List.append_nil])
    rw [hspelt, List.append_nil]

end HmdsReply

/-- A reply to an id asked by then, at a desk reached. -/
def HmdsDesk.Reached.reply {d : HmdsDesk P} {ids : List QueryId} (h : HmdsDesk.Reached ids d)
    (place : ReplyPlace P) {q : QueryId} (hq : q ∈ ids) {rest : List Char} (hrest : SetOff rest) :
    HmdsReply P where
  desk := d
  composed := h.sound.composed
  place := place
  id := q
  rest := rest
  setOff := hrest
  known := fun k e he hakin hne => by
    obtain ⟨hk, -, htail⟩ := h.sound.apart q hq k e he hakin hne
    exact ⟨hk, htail⟩

/-- **At every desk reached, a reply that states the id of a query in flight, alone, is applied to
the request that sent it, and to no other.** -/
theorem HmdsDesk.Reached.attributed {d : HmdsDesk P} {ids : List QueryId}
    (h : HmdsDesk.Reached ids d) (place : ReplyPlace P) {q : QueryId} (hq : q ∈ ids)
    {k : QueryList} {reqId : ℕ} (hasked : (h.reply place hq setOff_nil).Asked k reqId) :
    (h.reply place hq setOff_nil).Attributed :=
  HmdsReply.attributed
    { bare := fun _ _ _ _ => rfl
      askPage := fun _ _ _ _ _ _ _ _ _ => rfl
      late := fun _ hnone => absurd hasked (hnone k reqId)
      unspelt := fun htail j _ x _ _ hakin hne rest hrest _ => by
        have hx : x.1.tail = [] := (List.append_eq_nil_iff.1 hrest.symm).1
        exact hne (QueryId.eq_of_akin hakin (htail.trans hx.symm)).symm
      unspeltPage := fun _ _ _ _ _ _ x hx _ a ha hrest => h.sound.sides x hx a ha hrest.symm }

/-- **A reply is applied to the request that sent its id, and to no other, exactly when its name is
of that id alone.** -/
theorem reply_attributed (r : HmdsReply P) : r.Attributed ↔ r.NamesOne :=
  ⟨HmdsReply.namesOne, HmdsReply.attributed⟩

end

def askSideGone : QueryId := .pairIdUnder 1000 "T".toList "SMART".toList "AskYield".toList

/-- The bid side of a pair is in flight, and its ask side has had its last page. -/
def bidSideLeft : HmdsDesk Unit :=
  { pending := fun k => if k = .historical then [(.plain .hist 1000, 7)] else []
    held := [⟨7, some askSideGone, [], [()], false, true, none⟩]
    keepUpToDate := [] }

lemma mem_bidSideLeft {k : QueryList} {e : QueryId × ℕ} (h : e ∈ bidSideLeft.pending k) :
    k = .historical ∧ e = (.plain .hist 1000, 7) := by
  change e ∈ (if k = .historical then [(QueryId.plain .hist 1000, 7)] else []) at h
  split_ifs at h with hk
  · exact ⟨hk, List.mem_singleton.1 h⟩
  · exact absurd h List.not_mem_nil

def lateAskPage : HmdsReply Unit where
  desk := bidSideLeft
  composed :=
    { akin := fun k e he j x hx _ => by
        obtain ⟨rfl, rfl⟩ := mem_bidSideLeft he
        obtain ⟨rfl, rfl⟩ := mem_bidSideLeft hx
        exact ⟨rfl, fun _ => ⟨rfl, rfl⟩⟩
      leads := List.pairwise_singleton _ _
      sides := fun x hx a ha e he _ => by
        obtain rfl := List.mem_singleton.1 hx
        cases ha
        exact (mem_bidSideLeft he).2 ▸ ⟨rfl, rfl⟩
      paired := fun e he htail => absurd ((mem_bidSideLeft he).2 ▸ rfl) htail }
  place := .page () false
  id := askSideGone
  rest := []
  setOff := setOff_nil
  known := fun k e he _ _ => by
    obtain ⟨rfl, rfl⟩ := mem_bidSideLeft he
    exact ⟨rfl, Or.inl rfl⟩

/-- **A late page of an ask side is read as one of the bid side's.** -/
theorem late_ask_page_misread : ¬lateAskPage.Attributed := by
  intro h
  have hnone : ∀ k reqId, ¬lateAskPage.Asked k reqId := by
    rintro k reqId ⟨-, -, hin⟩
    have heq := (mem_bidSideLeft hin).2
    have hid : lateAskPage.id = QueryId.plain .hist 1000 := congrArg Prod.fst heq
    exact absurd hid (by decide)
  have hmatched := (h.gone hnone).1
  exact absurd hmatched (by decide)

end IbkrDx
