import IbkrDx.Lib.Runs
import IbkrDx.Lib.Texts

/-!
# The calendar's two slots

`hot_loop/secdef.rs`: metadata and events of the calendar are asked over a connection of their own,
one request of a kind at a time.  A request goes by a key made of its kind and its caller's number,
which the venue's answer echoes; a rejection names none.

* **`calendar_settled`** — so it is wherever nothing is sent under a key still owed.
-/

namespace IbkrDx

open Texts Runs

/-! ## The desk -/

inductive CalendarKind where
  | metaData
  | events
  deriving DecidableEq

def CalendarKind.word : CalendarKind → List Char
  | metaData => ['M', 'e', 't', 'a', 'D', 'a', 't', 'a', 'R', 'e', 'q', 'u', 'e', 's', 't']
  | events => ['C', 'a', 'l', 'e', 'n', 'd', 'a', 'r', 'R', 'e', 'q', 'u', 'e', 's', 't']

structure CalendarQuestion where
  kind : CalendarKind
  reqId : ℕ
  /-- Which request it is, in the order they are made. -/
  ticket : ℕ
  deriving DecidableEq

/-- The name this client gives a request, which the answer echoes. -/
def CalendarQuestion.key (q : CalendarQuestion) : List Char := q.kind.word ++ numeral q.reqId

def CalendarQuestion.name (q : CalendarQuestion) : CalendarKind × ℕ := (q.kind, q.reqId)

inductive CalendarEnd where
  /-- `push_calendar_meta_data`, `push_calendar_events`. -/
  | answered (json : String)
  /-- `push_historical_error`. -/
  | error (code : ℤ) (why : String)
  deriving DecidableEq

inductive CalendarReply where
  | answer (json : Option String)
  | refusal (words : Option String)
  deriving DecidableEq

def CalendarReply.ending (reqId : ℕ) : CalendarReply → CalendarEnd
  | answer (some json) => .answered json
  | answer none =>
      .error 321 ("the calendar answered request " ++ String.ofList (numeral reqId) ++
        " with no payload, so there is nothing to read out of it")
  | refusal words => .error 321 (words.getD "refused")

inductive CalendarEntry where
  | sent (q : CalendarQuestion)
  | ended (q : CalendarQuestion) (how : CalendarEnd) (reply : Option (ℕ × CalendarReply))
  | withdrawn (q : CalendarQuestion)
  deriving DecidableEq

/-- `SecDefState` with the connection, what the venue owes on it, and what happened. -/
structure CalendarDesk where
  metaPending : Option CalendarQuestion := none
  eventsPending : Option CalendarQuestion := none
  metaAnswered : Option String := none
  connected : Bool := true
  /-- The questions sent on the connection now up that the venue has not replied to. -/
  owed : List CalendarQuestion := []
  next : ℕ := 0
  log : List CalendarEntry := []

namespace CalendarDesk

def waiting (w : CalendarDesk) : List CalendarQuestion :=
  w.metaPending.toList ++ w.eventsPending.toList

def tell (w : CalendarDesk) (q : CalendarQuestion) (code : ℤ) (why : String) : CalendarDesk :=
  { w with log := w.log ++ [.ended q (.error code why) none] }

def cancelCalendar (w : CalendarDesk) : CalendarDesk :=
  { w with metaPending := none, log := w.log ++ w.metaPending.toList.map .withdrawn }

/-- `send_calendar_meta_data_request`, and how the write fails where it does. -/
def sendCalendarMetaDataRequest (w : CalendarDesk) (reqId : ℕ) (failure : Option String) :
    CalendarDesk :=
  let q : CalendarQuestion := ⟨.metaData, reqId, w.next⟩
  let asked := { w with next := w.next + 1 }
  match w.metaAnswered with
  | some cached => { asked with log := w.log ++ [.ended q (.answered cached) none] }
  | none =>
      if w.metaPending.isSome then asked.tell q 10278 "Duplicate WSH meta data request."
      else if w.connected then
        match failure with
        | some e => asked.tell q 10279 ("Failed to request WSH meta data." ++ e)
        | none =>
            { asked with
              metaPending := some q, owed := w.owed ++ [q], log := w.log ++ [.sent q] }
      else asked.tell q 10279 "Failed to request WSH meta data."

/-- `send_calendar_events_request`: what its query is refused for where it is, and how the write
fails where it does. -/
def sendCalendarEventsRequest (w : CalendarDesk) (reqId : ℕ) (refused : Option (ℤ × String))
    (failure : Option String) : CalendarDesk :=
  let q : CalendarQuestion := ⟨.events, reqId, w.next⟩
  let asked := { w with next := w.next + 1 }
  if w.metaAnswered.isNone then asked.tell q 10282 "WSH meta data not requested."
  else
    match refused with
    | some (code, why) => asked.tell q code why
    | none =>
        if w.eventsPending.isSome then asked.tell q 10281 "Duplicate WSH event data request."
        else if w.connected then
          match failure with
          | some e => asked.tell q 10283 ("Failed to request WSH event data." ++ e)
          | none =>
              { asked with
                eventsPending := some q, owed := w.owed ++ [q], log := w.log ++ [.sent q] }
        else asked.tell q 10283 "Failed to request WSH event data."

def empty (w : CalendarDesk) (error : CalendarKind → ℤ × String) : CalendarDesk :=
  let failed (kind : CalendarKind) (q : CalendarQuestion) : CalendarEntry :=
    .ended q (.error (error kind).1 (error kind).2) none
  { w with
    metaPending := none
    eventsPending := none
    log := w.log ++ (w.metaPending.toList.map (failed .metaData)
      ++ w.eventsPending.toList.map (failed .events)) }

def giveUpWith (w : CalendarDesk) : CalendarDesk :=
  { w.empty fun
      | .metaData => (10279, "Failed to request WSH meta data.")
      | .events => (10283, "Failed to request WSH event data.") with
    connected := false, owed := [] }

def reject (w : CalendarDesk) (said : Option String) : CalendarDesk :=
  w.empty fun _ => (321, said.getD "refused")

/-- The caller of a slot is told what the venue replied to a question. -/
def settle (w : CalendarDesk) (kind : CalendarKind) (q : CalendarQuestion) (ticket : ℕ)
    (reply : CalendarReply) : CalendarDesk :=
  { w with
    metaAnswered := match kind, reply with
      | .metaData, .answer (some json) => some json
      | _, _ => w.metaAnswered
    log := w.log ++ [.ended q (reply.ending q.reqId) (some (ticket, reply))] }

/-- `deliver`, by the key the reply echoes. -/
def deliver (w : CalendarDesk) (key : List Char) (ticket : ℕ) (reply : CalendarReply) :
    CalendarDesk :=
  match w.metaPending.filter fun p => p.key = key with
  | some p => { w with metaPending := none }.settle .metaData p ticket reply
  | none =>
      match w.eventsPending.filter fun p => p.key = key with
      | some p => { w with eventsPending := none }.settle .events p ticket reply
      | none => w

end CalendarDesk

inductive CalendarEvent where
  | asksMetaData (reqId : ℕ) (failure : Option String)
  | asksEvents (reqId : ℕ) (refused : Option (ℤ × String)) (failure : Option String)
  | cancels
  /-- The venue replies to a question it owes an answer to. -/
  | replies (ticket : ℕ) (reply : CalendarReply)
  /-- The venue rejects a question, or something else, without naming it. -/
  | rejects (ticket : Option ℕ) (said : Option String)
  | givesUp
  | installed

namespace CalendarDesk

/-- The venue owes no answer to a question any more. -/
def answeredFor (w : CalendarDesk) (ticket : ℕ) : CalendarDesk :=
  { w with owed := w.owed.filter fun q => q.ticket ≠ ticket }

def step (w : CalendarDesk) : CalendarEvent → CalendarDesk
  | .asksMetaData reqId failure => w.sendCalendarMetaDataRequest reqId failure
  | .asksEvents reqId refused failure => w.sendCalendarEventsRequest reqId refused failure
  | .cancels => w.cancelCalendar
  | .replies ticket reply =>
      match w.owed.find? fun q => q.ticket = ticket with
      | some q => (w.answeredFor ticket).deliver q.key ticket reply
      | none => w
  | .rejects ticket said => (ticket.elim w w.answeredFor).reject said
  | .givesUp => w.giveUpWith
  | .installed => { w with connected := true }

/-! ## What is claimed -/

def Unowed (w : CalendarDesk) (kind : CalendarKind) (reqId : ℕ) : Prop :=
  ∀ q ∈ w.owed, q.name ≠ (kind, reqId)

/-- Nothing is sent under a key the venue still owes an answer under. -/
def Fresh (w : CalendarDesk) : CalendarEvent → Prop
  | .asksMetaData reqId none =>
      w.metaAnswered = none → w.metaPending = none → w.Unowed .metaData reqId
  | .asksEvents reqId none none =>
      w.metaAnswered ≠ none → w.eventsPending = none → w.Unowed .events reqId
  | _ => True

instance (w : CalendarDesk) (kind : CalendarKind) (reqId : ℕ) : Decidable (w.Unowed kind reqId) :=
  inferInstanceAs (Decidable (∀ q ∈ w.owed, _))

instance (w : CalendarDesk) : DecidablePred w.Fresh := fun e =>
  match e with
  | .asksMetaData _ none | .asksEvents _ none none => inferInstanceAs (Decidable (_ → _ → _))
  | .asksMetaData _ (some _) | .asksEvents _ (some _) _ | .asksEvents _ none (some _) | .cancels
    | .replies .. | .rejects .. | .givesUp | .installed => isTrue trivial

end CalendarDesk

namespace CalendarEntry

def finished : CalendarEntry → Option CalendarQuestion
  | sent _ => none
  | ended q _ _ => some q
  | withdrawn q => some q

/-- A reply ends the request whose question it replies to, with what it says; and a cancel
withdraws metadata requests alone. -/
def Own : CalendarEntry → Prop
  | sent _ => True
  | ended q how reply => ∀ r ∈ reply, r.1 = q.ticket ∧ how = r.2.ending q.reqId
  | withdrawn q => q.kind = .metaData

def AnswersMetaData : CalendarEntry → Prop
  | ended q (.answered _) reply => q.kind = .metaData ∧ reply.isSome
  | _ => False

end CalendarEntry

def SentBehindMetaData (log : List CalendarEntry) : Prop :=
  ∀ pre q post, log = pre ++ .sent q :: post → q.kind = .events →
    ∃ x ∈ pre, x.AnswersMetaData

namespace CalendarDesk

/-- The requests that are over, and those that wait, by their tickets. -/
def accounted (w : CalendarDesk) : List ℕ :=
  (w.log.filterMap CalendarEntry.finished ++ w.waiting).map CalendarQuestion.ticket

/-- Every request is over once or waits, one that waits is owed its answer, and each is over by its
own. -/
structure Settled (w : CalendarDesk) : Prop where
  once : w.accounted.Perm (List.range w.next)
  owed : ∀ q ∈ w.waiting, q ∈ w.owed
  own : ∀ x ∈ w.log, x.Own
  behind : SentBehindMetaData w.log

end CalendarDesk

/-! ## Keys and entries -/

lemma CalendarQuestion.name_eq {p q : CalendarQuestion} (h : p.key = q.key) : p.name = q.name := by
  unfold key at h
  unfold name
  cases hp : p.kind <;> cases hq : q.kind <;> rw [hp, hq] at h
  · rw [numeral_injective (List.append_cancel_left h)]
  · exact absurd (List.cons.inj h).1 (by decide)
  · exact absurd (List.cons.inj h).1 (by decide)
  · rw [numeral_injective (List.append_cancel_left h)]

lemma SentBehindMetaData.append {log added : List CalendarEntry} (h : SentBehindMetaData log)
    (hadded : ∀ q, .sent q ∉ added) : SentBehindMetaData (log ++ added) := by
  intro pre q post heq hkind
  rcases List.append_eq_append_iff.1 heq with ⟨l, hpre, hl⟩ | ⟨l, hlog, hl⟩
  · exact absurd (hl ▸ List.mem_append_right l List.mem_cons_self) (hadded q)
  · rcases l with _ | ⟨x, l⟩
    · exact absurd (show .sent q ∈ added by rw [← List.nil_append added, ← hl]; simp) (hadded q)
    · obtain ⟨rfl, -⟩ := List.cons.inj hl
      exact h pre q l hlog hkind

lemma SentBehindMetaData.send {log : List CalendarEntry} (h : SentBehindMetaData log)
    {q : CalendarQuestion} (hq : q.kind = .events → ∃ x ∈ log, x.AnswersMetaData) :
    SentBehindMetaData (log ++ [.sent q]) := by
  intro pre p post heq hkind
  rcases List.eq_nil_or_concat post with rfl | ⟨post, x, rfl⟩
  · obtain ⟨rfl, hp⟩ := List.append_inj' heq rfl
    obtain ⟨rfl⟩ : q = p := by simpa using hp
    exact hq hkind
  · rw [List.concat_eq_append, ← List.cons_append, ← List.append_assoc] at heq
    exact h pre p post (List.append_inj' heq rfl).1 hkind

namespace CalendarDesk

/-! ## What every event keeps -/

/-- What holds of the desk behind every run that sends under fresh keys alone. -/
structure Sound (w : CalendarDesk) : Prop extends w.Settled where
  metaKind : ∀ q ∈ w.metaPending, q.kind = .metaData
  eventsKind : ∀ q ∈ w.eventsPending, q.kind = .events
  older : ∀ q ∈ w.owed, q.ticket < w.next
  tickets : (w.owed.map CalendarQuestion.ticket).Nodup
  names : (w.owed.map CalendarQuestion.name).Nodup
  cached : w.metaAnswered.isSome → ∃ x ∈ w.log, x.AnswersMetaData

variable {w : CalendarDesk}

variable {added : List CalendarEntry} {w' : CalendarDesk}

lemma accounted_perm {new : List CalendarQuestion}
    (hlog : w'.log = w.log ++ added)
    (hmoved : (added.filterMap CalendarEntry.finished ++ w'.waiting).Perm (w.waiting ++ new)) :
    w'.accounted.Perm (w.accounted ++ new.map CalendarQuestion.ticket) := by
  unfold accounted
  rw [hlog, List.filterMap_append, List.append_assoc, ← List.map_append]
  refine List.Perm.map _ ?_
  rw [List.append_assoc]
  exact hmoved.append_left _

lemma Sound.once_of (h : w.Sound)
    (hlog : w'.log = w.log ++ added) (hnext : w'.next = w.next)
    (hmoved : (added.filterMap CalendarEntry.finished ++ w'.waiting).Perm w.waiting) :
    w'.accounted.Perm (List.range w'.next) := by
  rw [hnext]
  have hperm : w'.accounted.Perm (w.accounted ++ [].map CalendarQuestion.ticket) :=
    accounted_perm hlog (by rwa [List.append_nil])
  rw [List.map_nil, List.append_nil] at hperm
  exact hperm.trans h.once

variable {q : CalendarQuestion}

lemma Sound.once_new (h : w.Sound)
    (hlog : w'.log = w.log ++ added) (hnext : w'.next = w.next + 1)
    (hq : q.ticket = w.next)
    (hmoved : (added.filterMap CalendarEntry.finished ++ w'.waiting).Perm (w.waiting ++ [q])) :
    w'.accounted.Perm (List.range w'.next) := by
  rw [hnext, List.range_succ]
  refine (accounted_perm hlog hmoved).trans ?_
  rw [List.map_singleton, hq]
  exact h.once.append_right _

lemma Sound.over_at_once (h : w.Sound) (kind : CalendarKind) (reqId : ℕ) (how : CalendarEnd) :
    Sound { w with
      next := w.next + 1
      log := w.log ++ [.ended ⟨kind, reqId, w.next⟩ how none] } where
  once := h.once_new (q := ⟨kind, reqId, w.next⟩) rfl rfl rfl List.perm_append_comm
  owed := h.owed
  own := List.forall_mem_append.2 ⟨h.own, by simp [CalendarEntry.Own]⟩
  behind := h.behind.append (by simp)
  metaKind := h.metaKind
  eventsKind := h.eventsKind
  older := fun p hp => (h.older p hp).trans (Nat.lt_succ_self _)
  tickets := h.tickets
  names := h.names
  cached := fun hc => by
    obtain ⟨x, hx, hans⟩ := h.cached hc
    exact ⟨x, List.mem_append_left _ hx, hans⟩

lemma Sound.owed_send (h : w.Sound) (hq : q.ticket = w.next)
    (hfresh : w.Unowed q.kind q.reqId) :
    (∀ p ∈ w.owed ++ [q], p.ticket < w.next + 1) ∧
      ((w.owed ++ [q]).map CalendarQuestion.ticket).Nodup ∧
      ((w.owed ++ [q]).map CalendarQuestion.name).Nodup := by
  refine ⟨?_, ?_, ?_⟩
  · rintro p hp
    rcases List.mem_append.1 hp with hp | hp
    · exact (h.older p hp).trans (Nat.lt_succ_self _)
    · rw [List.mem_singleton.1 hp, hq]
      exact Nat.lt_succ_self _
  · rw [List.map_append, List.map_singleton]
    refine List.nodup_append'.2 ⟨h.tickets, List.nodup_singleton _, ?_⟩
    rw [List.disjoint_singleton, hq]
    intro hmem
    obtain ⟨p, hp, heq⟩ := List.mem_map.1 hmem
    exact absurd (h.older p hp) (by omega)
  · rw [List.map_append, List.map_singleton]
    refine List.nodup_append'.2 ⟨h.names, List.nodup_singleton _, ?_⟩
    rw [List.disjoint_singleton]
    intro hmem
    obtain ⟨p, hp, heq⟩ := List.mem_map.1 hmem
    exact hfresh p hp heq

lemma Sound.send_metaData (h : w.Sound) {reqId : ℕ} (hslot : w.metaPending = none)
    (hfresh : w.Unowed .metaData reqId) :
    Sound { w with
      next := w.next + 1
      metaPending := some ⟨.metaData, reqId, w.next⟩
      owed := w.owed ++ [⟨.metaData, reqId, w.next⟩]
      log := w.log ++ [.sent ⟨.metaData, reqId, w.next⟩] } := by
  obtain ⟨holder, htickets, hnames⟩ := h.owed_send (q := ⟨.metaData, reqId, w.next⟩) rfl hfresh
  refine ⟨⟨h.once_new rfl rfl (q := ⟨.metaData, reqId, w.next⟩) rfl ?_, ?_,
    List.forall_mem_append.2 ⟨h.own, by simp [CalendarEntry.Own]⟩,
    h.behind.send (by simp)⟩, by simp, h.eventsKind, holder, htickets, hnames, ?_⟩
  · simp only [waiting, hslot]
    exact (List.perm_append_singleton _ _).symm
  · rintro p hp
    rcases List.mem_append.1 hp with hp | hp
    · exact List.mem_append_right _ (by simpa using hp)
    · exact List.mem_append_left _ (h.owed p (List.mem_append_right _ hp))
  · intro hc
    obtain ⟨x, hx, hans⟩ := h.cached hc
    exact ⟨x, List.mem_append_left _ hx, hans⟩

lemma Sound.send_events (h : w.Sound) {reqId : ℕ} (hcached : w.metaAnswered ≠ none)
    (hslot : w.eventsPending = none) (hfresh : w.Unowed .events reqId) :
    Sound { w with
      next := w.next + 1
      eventsPending := some ⟨.events, reqId, w.next⟩
      owed := w.owed ++ [⟨.events, reqId, w.next⟩]
      log := w.log ++ [.sent ⟨.events, reqId, w.next⟩] } := by
  obtain ⟨holder, htickets, hnames⟩ := h.owed_send (q := ⟨.events, reqId, w.next⟩) rfl hfresh
  have hanswer := h.cached (Option.isSome_iff_ne_none.2 hcached)
  refine ⟨⟨h.once_new rfl rfl (q := ⟨.events, reqId, w.next⟩) rfl ?_, ?_,
    List.forall_mem_append.2 ⟨h.own, by simp [CalendarEntry.Own]⟩,
    h.behind.send fun _ => hanswer⟩, h.metaKind, by simp, holder, htickets, hnames, ?_⟩
  · simp only [waiting, hslot]
    rw [Option.toList_none, List.append_nil]
    exact List.Perm.refl _
  · rintro p hp
    rcases List.mem_append.1 hp with hp | hp
    · exact List.mem_append_left _ (h.owed p (List.mem_append_left _ hp))
    · exact List.mem_append_right _ (by simpa using hp)
  · intro hc
    obtain ⟨x, hx, hans⟩ := h.cached hc
    exact ⟨x, List.mem_append_left _ hx, hans⟩

lemma Sound.settled_of (h : w.Sound)
    (hlog : w'.log = w.log ++ added) (hnext : w'.next = w.next)
    (hmoved : (added.filterMap CalendarEntry.finished ++ w'.waiting).Perm w.waiting)
    (howed : w'.owed.Sublist w.owed) (hwait : ∀ q ∈ w'.waiting, q ∈ w'.owed)
    (hmeta : ∀ q ∈ w'.metaPending, q ∈ w.metaPending)
    (hevents : ∀ q ∈ w'.eventsPending, q ∈ w.eventsPending)
    (hown : ∀ x ∈ added, x.Own) (hsent : ∀ q, .sent q ∉ added)
    (hcached : w'.metaAnswered.isSome →
      w.metaAnswered.isSome ∨ ∃ x ∈ added, x.AnswersMetaData) : w'.Sound where
  once := h.once_of hlog hnext hmoved
  owed := hwait
  own := hlog ▸ List.forall_mem_append.2 ⟨h.own, hown⟩
  behind := hlog ▸ h.behind.append hsent
  metaKind := fun q hq => h.metaKind q (hmeta q hq)
  eventsKind := fun q hq => h.eventsKind q (hevents q hq)
  older := fun q hq => hnext ▸ h.older q (howed.subset hq)
  tickets := h.tickets.sublist (howed.map _)
  names := h.names.sublist (howed.map _)
  cached := fun hc => by
    rw [hlog]
    rcases hcached hc with hc | ⟨x, hx, hans⟩
    · obtain ⟨x, hx, hans⟩ := h.cached hc
      exact ⟨x, List.mem_append_left _ hx, hans⟩
    · exact ⟨x, List.mem_append_right _ hx, hans⟩

lemma filterMap_finished_map {f : CalendarQuestion → CalendarEntry}
    (hf : ∀ q, (f q).finished = some q) (l : List CalendarQuestion) :
    (l.map f).filterMap CalendarEntry.finished = l := by
  rw [List.filterMap_map]
  exact (List.filterMap_congr fun q _ => hf q).trans List.filterMap_some

lemma Sound.cancel (h : w.Sound) : w.cancelCalendar.Sound := by
  have hlog : w.cancelCalendar.log = w.log ++ w.metaPending.toList.map .withdrawn := rfl
  refine h.settled_of hlog rfl ?_ (List.Sublist.refl _)
    (fun q hq => h.owed q (List.mem_append_right _ hq)) (by simp [cancelCalendar])
    (fun q hq => hq) ?_ (by simp) Or.inl
  · rw [filterMap_finished_map fun _ => rfl]
    exact List.Perm.refl _
  · simp only [List.mem_map, forall_exists_index, and_imp, forall_apply_eq_imp_iff₂]
    exact fun q hq => h.metaKind q (Option.mem_toList.1 hq)

lemma Sound.emptied (h : w.Sound) (error : CalendarKind → ℤ × String) (connected : Bool)
    {owed : List CalendarQuestion} (howed : owed.Sublist w.owed) :
    Sound { w.empty error with connected := connected, owed := owed } := by
  refine h.settled_of rfl rfl ?_ howed (by simp [waiting, empty]) (by simp [empty])
    (by simp [empty]) ?_ (by simp) Or.inl
  · rw [List.filterMap_append, filterMap_finished_map fun _ => rfl,
      filterMap_finished_map fun _ => rfl]
    simp [waiting, empty]
  · simp only [List.mem_append, List.mem_map]
    rintro x (⟨q, -, rfl⟩ | ⟨q, -, rfl⟩) <;> simp [CalendarEntry.Own]

/-! ## A reply -/

variable {p : CalendarQuestion}

lemma Sound.eq_of_name (h : w.Sound) (hp : p ∈ w.owed) (hq : q ∈ w.owed)
    (heq : p.name = q.name) : p = q :=
  List.inj_on_of_nodup_map h.names hp hq heq

lemma Sound.eq_of_ticket (h : w.Sound) (hp : p ∈ w.owed)
    (hq : q ∈ w.owed) (heq : p.ticket = q.ticket) : p = q :=
  List.inj_on_of_nodup_map h.tickets hp hq heq

lemma Sound.mem_answeredFor (h : w.Sound) (hp : p ∈ w.owed)
    (hq : q ∈ w.owed) (hne : p ≠ q) : p ∈ (w.answeredFor q.ticket).owed :=
  List.mem_filter.2 ⟨hp, decide_eq_true fun heq => hne (h.eq_of_ticket hp hq heq)⟩

lemma Sound.reply (h : w.Sound) (hq : q ∈ w.owed) (reply : CalendarReply) :
    ((w.answeredFor q.ticket).deliver q.key q.ticket reply).Sound := by
  have howed : (w.answeredFor q.ticket).owed.Sublist w.owed := List.filter_sublist
  unfold deliver
  split
  · next p hp =>
      rw [Option.filter_eq_some_iff] at hp
      obtain ⟨hslot, hkey⟩ := hp
      replace hslot : w.metaPending = some p := hslot
      have hmem : p ∈ w.waiting := by simp [waiting, hslot]
      obtain rfl := h.eq_of_name (h.owed p hmem) hq
        (CalendarQuestion.name_eq (of_decide_eq_true hkey))
      refine h.settled_of rfl rfl ?_ howed (fun e he' => ?_) (by simp [settle])
        (fun e he => he) (by simp [CalendarEntry.Own]) (by simp) ?_
      · simp only [waiting, settle, answeredFor, hslot]
        exact List.Perm.refl _
      · have he : e ∈ w.eventsPending := by simpa [waiting, settle, answeredFor] using he'
        have hwaits : e ∈ w.waiting := List.mem_append_right _ (Option.mem_toList.2 he)
        refine h.mem_answeredFor (h.owed e hwaits) hq ?_
        rintro rfl
        exact absurd ((h.eventsKind _ he).symm.trans (h.metaKind _ hslot)) (by decide)
      · rcases reply with (_ | json) | words
        · exact Or.inl
        · exact fun _ => Or.inr ⟨_, List.mem_singleton_self _, h.metaKind _ hslot, rfl⟩
        · exact Or.inl
  · next hnone =>
      split
      · next p hp =>
          rw [Option.filter_eq_some_iff] at hp
          obtain ⟨hslot, hkey⟩ := hp
          replace hslot : w.eventsPending = some p := hslot
          have hmem : p ∈ w.waiting := by simp [waiting, hslot]
          obtain rfl := h.eq_of_name (h.owed p hmem) hq
            (CalendarQuestion.name_eq (of_decide_eq_true hkey))
          refine h.settled_of rfl rfl ?_ howed (fun e he' => ?_) (fun e he => he)
            (by simp [settle]) (by simp [CalendarEntry.Own]) (by simp) Or.inl
          · simp only [waiting, settle, answeredFor, hslot]
            rw [Option.toList_none, List.append_nil]
            exact (List.perm_append_singleton _ _).symm
          · have he : e ∈ w.metaPending := by simpa [waiting, settle, answeredFor] using he'
            have hwaits : e ∈ w.waiting := List.mem_append_left _ (Option.mem_toList.2 he)
            refine h.mem_answeredFor (h.owed e hwaits) hq ?_
            rintro rfl
            exact absurd ((h.metaKind _ he).symm.trans (h.eventsKind _ hslot)) (by decide)
      · next hnone' =>
          refine h.settled_of (List.append_nil _).symm rfl (List.Perm.refl _) howed
            (fun e he => ?_) (fun e he => he) (fun e he => he) (by simp) (by simp) Or.inl
          refine h.mem_answeredFor (h.owed e he) hq ?_
          rintro rfl
          rcases List.mem_append.1 he with he | he
          · have := Option.filter_eq_none_iff.1 hnone e (Option.mem_toList.1 he)
            simp at this
          · have := Option.filter_eq_none_iff.1 hnone' e (Option.mem_toList.1 he)
            simp at this

/-! ## The run -/

/-- **What every event keeps.** -/
theorem Sound.step (h : w.Sound) {e : CalendarEvent} (hfresh : w.Fresh e) : (w.step e).Sound := by
  cases e with
  | asksMetaData reqId failure =>
      simp only [CalendarDesk.step, sendCalendarMetaDataRequest]
      split
      · exact h.over_at_once _ _ _
      · next hcached =>
          split_ifs with hslot hup
          · exact h.over_at_once _ _ _
          · cases failure with
            | some e => exact h.over_at_once _ _ _
            | none =>
                have hslot := Option.not_isSome_iff_eq_none.1 hslot
                exact h.send_metaData hslot (hfresh hcached hslot)
          · exact h.over_at_once _ _ _
  | asksEvents reqId refused failure =>
      simp only [CalendarDesk.step, sendCalendarEventsRequest]
      split
      · exact h.over_at_once _ _ _
      · next hcached =>
        cases refused with
        | some why => exact h.over_at_once _ _ _
        | none =>
            dsimp only
            split_ifs with hslot hup
            · exact h.over_at_once _ _ _
            · cases failure with
              | some e => exact h.over_at_once _ _ _
              | none =>
                  have hslot := Option.not_isSome_iff_eq_none.1 hslot
                  have hcached : w.metaAnswered ≠ none := by simpa using hcached
                  exact h.send_events hcached hslot (hfresh hcached hslot)
            · exact h.over_at_once _ _ _
  | cancels => exact h.cancel
  | replies ticket reply =>
      rw [CalendarDesk.step]
      split
      · next q hq =>
          obtain rfl : q.ticket = ticket := by simpa using List.find?_some hq
          exact h.reply (List.mem_of_find?_eq_some hq) reply
      · exact h
  | rejects ticket said =>
      have hrejected {owed : List CalendarQuestion} (howed : owed.Sublist w.owed) :=
        h.emptied (fun _ => (321, said.getD "refused")) w.connected howed
      cases ticket with
      | none => exact hrejected (List.Sublist.refl _)
      | some ticket => exact hrejected List.filter_sublist
  | givesUp => exact h.emptied _ false (List.nil_sublist _)
  | installed => exact ⟨⟨h.once, h.owed, h.own, h.behind⟩, h.metaKind, h.eventsKind, h.older,
      h.tickets, h.names, h.cached⟩

lemma sound_opened : ({} : CalendarDesk).Sound where
  once := List.Perm.refl _
  owed := by simp [waiting]
  own := by simp
  behind := fun pre q post h => by simp at h
  metaKind := by simp
  eventsKind := by simp
  older := by simp
  tickets := List.nodup_nil
  names := List.nodup_nil
  cached := by simp

end CalendarDesk

/-- **Each calendar request ends once, with the answer to its own question**, in every run that
sends nothing under a key the venue still owes an answer under. -/
theorem calendar_settled {es : List CalendarEvent}
    (h : Along CalendarDesk.step CalendarDesk.Fresh {} es) :
    (run CalendarDesk.step {} es).Settled :=
  (h.invariant (fun _ _ hs hf => hs.step hf) CalendarDesk.sound_opened).toSettled

/-- Metadata and events are asked, one request is withdrawn, one rejected with the other, and the
connection goes and comes back. -/
def calendarRun : List CalendarEvent :=
  [.asksEvents 1 none none, .asksMetaData 2 none, .cancels, .asksMetaData 3 none,
    .replies 1 (.answer (some "late")), .replies 2 (.answer (some "kinds")),
    .asksEvents 1 none none, .rejects (some 3) none, .asksEvents 4 none none, .givesUp,
    .asksEvents 5 none none, .installed, .asksEvents 5 none none,
    .replies 6 (.answer (some "events"))]

theorem calendar_settled_of_run : (run CalendarDesk.step {} calendarRun).Settled :=
  calendar_settled (by decide)

/-- **The answer to a withdrawn question ends the next one of its number.**  So does the answer to a
question a rejection ended. -/
theorem withdrawn_answer_ends_the_next :
    ¬ (run CalendarDesk.step {} [.asksMetaData 1 none, .cancels, .asksMetaData 1 none,
        .replies 0 (.answer (some "kinds"))]).Settled ∧
      ¬ (run CalendarDesk.step {} [.asksMetaData 1 none, .replies 0 (.answer (some "kinds")),
        .asksEvents 5 none none, .rejects none none, .asksEvents 5 none none,
        .replies 1 (.answer (some "the first's events"))]).Settled := by
  constructor
  · intro h
    have hown := h.own (.ended ⟨.metaData, 1, 1⟩ (.answered "kinds")
      (some (0, .answer (some "kinds")))) (by decide)
    exact absurd (hown _ rfl).1 (by decide)
  · intro h
    have hown := h.own (.ended ⟨.events, 5, 2⟩ (.answered "the first's events")
      (some (1, .answer (some "the first's events")))) (by decide)
    exact absurd (hown _ rfl).1 (by decide)

end IbkrDx
