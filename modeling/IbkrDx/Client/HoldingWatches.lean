import Mathlib.Algebra.Order.Group.Int
import Mathlib.Data.List.Sort
import Mathlib.Data.Rat.Defs
import IbkrDx.Lib.Overlay
import IbkrDx.Lib.Runs

/-!
# Who is told of a holding that moved

`deliver_answer` and `deliver_state` of `api/client/dispatch.rs` over the holdings of
`bridge/portfolio.rs`: a change is drained once, by the read's poll or by an answer composed in the
middle of the read, and handed to everyone who watches.

* **`holdings_told`** — along every run whose answers find that, every watcher ends on the present
  holding.

A value is told apart from every other by the version the portfolio took it under.
-/

namespace IbkrDx

open Overlay

/-- What a portfolio holds of a contract, under the version it took it. -/
structure HoldingValue where
  version : ℕ
  position : ℚ
  avgCost : ℤ
  deriving DecidableEq

/-- The holdings of an account, and those that moved since they were last drained. -/
structure HoldingBook where
  infos : List (ℤ × HoldingValue) := []
  changes : List ℤ := []

namespace HoldingBook

def info (b : HoldingBook) (c : ℤ) : Option HoldingValue := (at? Prod.fst b.infos c).map Prod.snd

def setPositionInfo (b : HoldingBook) (c : ℤ) (v : HoldingValue) : HoldingBook where
  infos := put Prod.fst (fun _ new => new) b.infos (c, v)
  changes := if c ∈ b.changes then b.changes else b.changes.orderedInsert (· ≤ ·) c

def drained (b : HoldingBook) : List (ℤ × HoldingValue) :=
  b.changes.filterMap fun c => (b.info c).map fun v => (c, v)

def drain (b : HoldingBook) : HoldingBook := { b with changes := [] }

end HoldingBook

/-- Who watches: the caller's own call, or a request, known by when its watch began. -/
inductive HoldingWatch where
  | plain
  | multi (reqId : ℤ) (began : ℕ)
  deriving DecidableEq

structure HoldingTold where
  watch : HoldingWatch
  account : String
  conId : ℤ
  value : HoldingValue
  deriving DecidableEq

def HoldingTold.key (t : HoldingTold) : HoldingWatch × String × ℤ := (t.watch, t.account, t.conId)

structure HoldingRequest where
  reqId : ℤ
  account : String
  began : ℕ
  deriving DecidableEq

def HoldingRequest.watch (w : HoldingRequest) : HoldingWatch := .multi w.reqId w.began

structure PolledHoldings where
  positions : List (ℤ × HoldingValue)
  named : List (String × ℤ × HoldingValue)

/-- The books, who watches, what the read has polled and what has been told, the latest first. -/
structure HoldingDesk where
  own : String
  books : String → HoldingBook := fun _ => {}
  known : List String := []
  clock : ℕ := 0
  positionsRequested : Bool := false
  watchers : List HoldingRequest := []
  polled : Option PolledHoldings := none
  told : List HoldingTold := []

namespace HoldingDesk

def tell (d : HoldingDesk) (es : List HoldingTold) : HoldingDesk :=
  { d with told := es.reverse ++ d.told }

def setBook (d : HoldingDesk) (a : String) (b : HoldingBook) : HoldingDesk :=
  { d with books := Function.update d.books a b }

def toRequests (d : HoldingDesk) (a : String) (c : ℤ) (v : HoldingValue) : List HoldingTold :=
  (d.watchers.filter (·.account = a)).map fun w => ⟨w.watch, a, c, v⟩

def change (d : HoldingDesk) (a : String) (c : ℤ) (position : ℚ) (avgCost : ℤ) : HoldingDesk :=
  { d.setBook a ((d.books a).setPositionInfo c ⟨d.clock + 1, position, avgCost⟩) with
    clock := d.clock + 1
    known := if a = d.own ∨ a ∈ d.known then d.known else d.known ++ [a] }

def pollAll (d : HoldingDesk) : HoldingDesk :=
  { d with
    polled := some ⟨(d.books d.own).drained,
      d.known.flatMap fun a => (d.books a).drained.map fun p => (a, p)⟩
    books := fun a => if a = d.own ∨ a ∈ d.known then (d.books a).drain else d.books a }

def readBegins (d : HoldingDesk) : HoldingDesk :=
  if d.polled.isSome then d
  else if d.positionsRequested ∨ d.watchers ≠ [] then d.pollAll
  else { d with polled := some ⟨[], []⟩ }

def polledOf (d : HoldingDesk) (a : String) : List (ℤ × HoldingValue) :=
  match d.polled with
  | none => []
  | some p => if a = d.own then p.positions else (p.named.filter (·.1 = a)).map Prod.snd

def withoutPolled (d : HoldingDesk) (a : String) : Option PolledHoldings :=
  d.polled.map fun p =>
    if a = d.own then ⟨[], p.named⟩ else ⟨p.positions, p.named.filter (·.1 ≠ a)⟩

/-- What an answer for all holdings tells: every holding to the caller, and what moved before it to
the requests alone. -/
def positionsTold (d : HoldingDesk) : List HoldingTold :=
  ((d.books d.own).infos.map fun p => ⟨.plain, d.own, p.1, p.2⟩) ++
    ((d.books d.own).drained ++ d.polledOf d.own).flatMap fun p => d.toRequests d.own p.1 p.2

def answerPositions (d : HoldingDesk) : HoldingDesk :=
  let next : HoldingDesk :=
    { d.setBook d.own (d.books d.own).drain with
      polled := d.withoutPolled d.own
      positionsRequested := true }
  next.tell d.positionsTold

def asked (d : HoldingDesk) (reqId : ℤ) (a : String) : HoldingRequest := ⟨reqId, a, d.clock + 1⟩

def movedTold (d : HoldingDesk) (a : String) (p : ℤ × HoldingValue) : List HoldingTold :=
  (if a = d.own ∧ d.positionsRequested = true then [⟨.plain, a, p.1, p.2⟩] else []) ++
    d.toRequests a p.1 p.2

def movesOf (d : HoldingDesk) (a : String) : List (ℤ × HoldingValue) :=
  putAll Prod.fst (fun _ new => new) (d.polledOf a) (d.books a).drained

def besides (d : HoldingDesk) (reqId : ℤ) : HoldingDesk :=
  { d with watchers := d.watchers.filter (·.reqId ≠ reqId) }

/-- What a request's own answer tells: what moved before it to those who watched, and to the request
what the account holds. -/
def positionsMultiTold (d : HoldingDesk) (reqId : ℤ) (a : String) : List HoldingTold :=
  (d.movesOf a).flatMap ((d.besides reqId).movedTold a) ++
    ((d.books a).infos.filter (·.2.position ≠ 0)).map fun p =>
      ⟨(d.asked reqId a).watch, a, p.1, p.2⟩

def answerPositionsMulti (d : HoldingDesk) (reqId : ℤ) (a : String) : HoldingDesk :=
  let next : HoldingDesk :=
    { d.setBook a (d.books a).drain with
      polled := d.withoutPolled a
      clock := d.clock + 1
      watchers := (d.besides reqId).watchers ++ [d.asked reqId a] }
  next.tell (d.positionsMultiTold reqId a)

def polledTold (d : HoldingDesk) (p : PolledHoldings) : List HoldingTold :=
  p.positions.flatMap (d.movedTold d.own) ++
    p.named.flatMap fun q => d.toRequests q.1 q.2.1 q.2.2

def readEnds (d : HoldingDesk) : HoldingDesk :=
  match d.polled with
  | none => d
  | some p => { d with polled := none }.tell (d.polledTold p)

end HoldingDesk

/-- What can happen: a holding moves, a read begins, its records stand one after another, and it
ends. -/
inductive HoldingEvent where
  | change (account : String) (conId : ℤ) (position : ℚ) (avgCost : ℤ)
  | readBegins
  | positions
  | positionsMulti (reqId : ℤ) (account : String)
  | retirePositions
  | retirePositionsMulti (reqId : ℤ)
  | readEnds

open HoldingDesk in
def HoldingDesk.step (d : HoldingDesk) : HoldingEvent → HoldingDesk
  | .change a c position avgCost => d.change a c position avgCost
  | .readBegins => d.readBegins
  | .positions => d.answerPositions
  | .positionsMulti reqId a => d.answerPositionsMulti reqId a
  | .retirePositions => { d with positionsRequested := false }
  | .retirePositionsMulti reqId => { d with watchers := d.watchers.filter (·.reqId ≠ reqId) }
  | .readEnds => d.readEnds

/-! ## What watching is for -/

namespace HoldingDesk

def lastTold (d : HoldingDesk) (w : HoldingWatch) (a : String) (c : ℤ) : Option HoldingValue :=
  (at? HoldingTold.key d.told (w, a, c)).map (·.value)

def Watches (d : HoldingDesk) (w : HoldingWatch) (a : String) : Prop :=
  (w = .plain ∧ d.positionsRequested = true ∧ a = d.own) ∨
    ∃ q ∈ d.watchers, w = q.watch ∧ a = q.account

/-- Whether a watcher is owed a holding: it moved while the request watched, or was stated to it. -/
def Owed (d : HoldingDesk) (w : HoldingWatch) (a : String) (c : ℤ) : Prop :=
  (∃ reqId began v, w = .multi reqId began ∧ (d.books a).info c = some v ∧ began < v.version) ∨
    w = .plain ∨ ∃ t ∈ d.told, t.key = (w, a, c)

/-- No watcher is told an older value after a newer one. -/
def ToldInOrder (d : HoldingDesk) : Prop :=
  d.told.Pairwise fun later earlier => later.key = earlier.key →
    earlier.value.version ≤ later.value.version

/-- The last value each watcher was told of each holding it is owed is the present one, where that
has not changed since a moment. -/
def UpToDate (d : HoldingDesk) (since : ℕ) : Prop :=
  ∀ w a c v, d.Watches w a → (d.books a).info c = some v → v.version ≤ since → d.Owed w a c →
    d.lastTold w a c = some v

/-- **What an answer for all holdings drains has not been polled by its read**, where requests watch
the account. -/
def NotPolledAlready (d : HoldingDesk) : HoldingEvent → Prop
  | .positions => (d.watchers.any (·.account = d.own)) = true →
      ((d.polledOf d.own).all fun p => decide (p.1 ∉ (d.books d.own).changes)) = true
  | _ => True

instance : ∀ d : HoldingDesk, DecidablePred d.NotPolledAlready
  | _, .positions => inferInstanceAs (Decidable (_ → _))
  | _, .change .. => isTrue trivial
  | _, .readBegins => isTrue trivial
  | _, .positionsMulti .. => isTrue trivial
  | _, .retirePositions => isTrue trivial
  | _, .retirePositionsMulti _ => isTrue trivial
  | _, .readEnds => isTrue trivial

end HoldingDesk

/-! ## Books -/

namespace HoldingBook

/-- Holdings and moves are listed once, and what moved is held. -/
structure Kept (b : HoldingBook) : Prop where
  infos : (b.infos.map Prod.fst).Nodup
  changes : b.changes.Nodup
  held : ∀ c ∈ b.changes, ∃ v, b.info c = some v

lemma info_setPositionInfo (b : HoldingBook) (c c' : ℤ) (v : HoldingValue) :
    (b.setPositionInfo c v).info c' = if c = c' then some v else b.info c' := by
  simp only [info, setPositionInfo, at?_put (fun _ _ h => h.symm)]
  split_ifs
  · cases at? Prod.fst b.infos c' <;> rfl
  · rfl

lemma mem_changes_setPositionInfo (b : HoldingBook) (c c' : ℤ) (v : HoldingValue) :
    c' ∈ (b.setPositionInfo c v).changes ↔ c' = c ∨ c' ∈ b.changes := by
  simp only [setPositionInfo]
  split_ifs with h
  · refine ⟨Or.inr, ?_⟩
    rintro (rfl | hmem)
    · exact h
    · exact hmem
  · exact List.mem_orderedInsert _

variable {b : HoldingBook}

lemma Kept.setPositionInfo (h : b.Kept) (c : ℤ) (v : HoldingValue) :
    (b.setPositionInfo c v).Kept := by
  refine ⟨nodup_put (fun _ _ h => h.symm) h.infos _, ?_, ?_⟩
  · simp only [HoldingBook.setPositionInfo]
    split_ifs with hmem
    · exact h.changes
    · exact (List.perm_orderedInsert _ _ _).nodup_iff.2 (List.nodup_cons.2 ⟨hmem, h.changes⟩)
  · intro c' hc'
    rw [info_setPositionInfo]
    split_ifs with heq
    · exact ⟨v, rfl⟩
    · rcases (mem_changes_setPositionInfo b c c' v).1 hc' with rfl | hmem
      · exact absurd rfl heq
      · exact h.held c' hmem

lemma Kept.drain (h : b.Kept) : b.drain.Kept :=
  ⟨h.infos, List.nodup_nil, List.forall_mem_nil _⟩

@[simp] lemma info_drain (b : HoldingBook) (c : ℤ) : b.drain.info c = b.info c := rfl

lemma mem_drained {p : ℤ × HoldingValue} :
    p ∈ b.drained ↔ p.1 ∈ b.changes ∧ b.info p.1 = some p.2 := by
  simp only [drained, List.mem_filterMap, Option.map_eq_some_iff]
  constructor
  · rintro ⟨c, hc, v, hv, rfl⟩
    exact ⟨hc, hv⟩
  · rintro ⟨hc, hv⟩
    exact ⟨p.1, hc, p.2, hv, rfl⟩

lemma Kept.nodup_drained (h : b.Kept) : (b.drained.map Prod.fst).Nodup := by
  rw [drained, List.map_filterMap]
  refine h.changes.filterMap ?_
  intro c c' k hk hk'
  simp only [Option.mem_def, Option.map_map, Option.map_eq_some_iff, Function.comp_apply] at hk hk'
  obtain ⟨-, -, rfl⟩ := hk
  obtain ⟨-, -, heq⟩ := hk'
  exact heq.symm

lemma Kept.info_of_mem (h : b.Kept) {p : ℤ × HoldingValue} (hp : p ∈ b.infos) :
    b.info p.1 = some p.2 := by
  rw [info, at?_of_mem h.infos hp]
  rfl

lemma mem_infos {c : ℤ} {v : HoldingValue} (h : b.info c = some v) :
    (c, v) ∈ b.infos := by
  obtain ⟨p, hp, rfl⟩ := Option.map_eq_some_iff.1 h
  obtain ⟨hmem, rfl⟩ := at?_mem hp
  exact hmem

end HoldingBook

/-! ## What is told -/

namespace HoldingDesk

variable {d : HoldingDesk}

variable {a : String}

variable {e : HoldingTold} {c : ℤ}

lemma mem_toRequests {v : HoldingValue} :
    e ∈ d.toRequests a c v ↔ ∃ q ∈ d.watchers, q.account = a ∧ e = ⟨q.watch, a, c, v⟩ := by
  simp only [toRequests, List.mem_map, List.mem_filter, decide_eq_true_eq]
  constructor
  · rintro ⟨q, ⟨hq, ha⟩, rfl⟩
    exact ⟨q, hq, ha, rfl⟩
  · rintro ⟨q, hq, ha, rfl⟩
    exact ⟨q, ⟨hq, ha⟩, rfl⟩

variable {p : ℤ × HoldingValue}

lemma mem_movedTold :
    e ∈ d.movedTold a p ↔ ∃ w, d.Watches w a ∧ e = ⟨w, a, p.1, p.2⟩ := by
  rw [movedTold, List.mem_append, mem_toRequests]
  constructor
  · rintro (h | ⟨q, hq, rfl, rfl⟩)
    · split_ifs at h with hown
      · rw [List.mem_singleton] at h
        exact ⟨.plain, Or.inl ⟨rfl, hown.2, hown.1⟩, h⟩
      · exact absurd h List.not_mem_nil
    · exact ⟨q.watch, Or.inr ⟨q, hq, rfl, rfl⟩, rfl⟩
  · rintro ⟨w, ⟨rfl, hreq, rfl⟩ | ⟨q, hq, rfl, rfl⟩, rfl⟩
    · exact Or.inl (by rw [if_pos ⟨rfl, hreq⟩]; exact List.mem_singleton_self _)
    · exact Or.inr ⟨q, hq, rfl, rfl⟩

lemma movedTold_other (h : a ≠ d.own) (p : ℤ × HoldingValue) :
    d.movedTold a p = d.toRequests a p.1 p.2 := by
  rw [movedTold, if_neg (fun hown => h hown.1), List.nil_append]

variable {es : List HoldingTold}

lemma toldInOrder_tell (h : d.ToldInOrder)
    {f : String → ℤ → Option HoldingValue} (hes : ∀ e ∈ es, f e.account e.conId = some e.value)
    (hle : ∀ t ∈ d.told, ∀ e ∈ es, e.key = t.key → t.value.version ≤ e.value.version) :
    (d.tell es).ToldInOrder := by
  refine List.pairwise_append.2 ⟨List.pairwise_of_forall_mem_list ?_, h, ?_⟩
  · intro e he e' he' hkey
    have heq : some e.value = some e'.value := by
      rw [← hes e (List.mem_reverse.1 he), ← hes e' (List.mem_reverse.1 he')]
      simp only [HoldingTold.key, Prod.mk.injEq] at hkey
      rw [hkey.2.1, hkey.2.2]
    rw [Option.some.inj heq]
  · intro e he t ht hkey
    exact hle t ht e (List.mem_reverse.1 he) hkey

variable {w : HoldingWatch}

lemma lastTold_tell_of_mem {f : String → ℤ → Option HoldingValue}
    (hes : ∀ e ∈ es, f e.account e.conId = some e.value)
    (h : ∃ e ∈ es, e.key = (w, a, c)) : (d.tell es).lastTold w a c = f a c := by
  rw [lastTold, tell, at?_append]
  cases hat : at? HoldingTold.key es.reverse (w, a, c) with
  | none =>
      obtain ⟨e, he, hkey⟩ := h
      exact absurd hkey (at?_eq_none.1 hat e (List.mem_reverse.2 he))
  | some t =>
      obtain ⟨ht, hkey⟩ := at?_mem hat
      simp only [HoldingTold.key, Prod.mk.injEq] at hkey
      rw [← hkey.2.1, ← hkey.2.2, hes t (List.mem_reverse.1 ht)]
      rfl

lemma lastTold_tell_of_not_mem
    (h : ¬∃ e ∈ es, e.key = (w, a, c)) : (d.tell es).lastTold w a c = d.lastTold w a c := by
  have hnone : at? HoldingTold.key es.reverse (w, a, c) = none :=
    at?_eq_none.2 fun e he hkey => h ⟨e, List.mem_reverse.1 he, hkey⟩
  rw [lastTold, tell, at?_append, hnone, Option.none_or, lastTold]

lemma mem_told_tell {t : HoldingTold} :
    t ∈ (d.tell es).told ↔ t ∈ es ∨ t ∈ d.told := by
  rw [tell, List.mem_append, List.mem_reverse]

lemma owed_of_tell
    (h : (d.tell es).Owed w a c) (hnot : ¬∃ e ∈ es, e.key = (w, a, c)) : d.Owed w a c := by
  rcases h with h | h | ⟨t, ht, hkey⟩
  · exact Or.inl h
  · exact Or.inr (Or.inl h)
  · rcases mem_told_tell.1 ht with hmem | hmem
    · exact absurd ⟨t, hmem, hkey⟩ hnot
    · exact Or.inr (Or.inr ⟨t, hmem, hkey⟩)

/-! ## What has been polled -/

lemma named_of {known : List String} (h : known.Nodup) (f : String → List (ℤ × HoldingValue))
    (a : String) :
    ((known.flatMap fun b => (f b).map fun p => (b, p)).filter (·.1 = a)).map Prod.snd =
      if a ∈ known then f a else [] := by
  induction known with
  | nil => rfl
  | cons b known ih =>
      obtain ⟨hb, hknown⟩ := List.nodup_cons.1 h
      have hfirst : (((f b).map fun p => (b, p)).filter (·.1 = a)).map Prod.snd =
          if b = a then f b else [] := by
        have hcomp : ((fun q : String × ℤ × HoldingValue => decide (q.1 = a)) ∘
            fun p => (b, p)) = fun _ => decide (b = a) := rfl
        rw [List.filter_map, List.map_map, hcomp]
        split_ifs with heq
        · rw [decide_eq_true heq, List.filter_true]
          exact List.map_id _
        · rw [decide_eq_false heq, List.filter_false, List.map_nil]
      rw [List.flatMap_cons, List.filter_append, List.map_append, hfirst, ih hknown]
      rcases eq_or_ne b a with rfl | hne
      · rw [if_pos rfl, if_neg hb, if_pos List.mem_cons_self, List.append_nil]
      · rw [if_neg hne, List.nil_append]
        simp only [List.mem_cons, hne.symm, false_or]

/-- What is told stays in order, each of it of a holding, and what a read polled is of what is
held; what is told to no watcher yet waits among the moves or among what was polled. -/
structure Consistent (d : HoldingDesk) : Prop where
  inOrder : d.ToldInOrder
  kept : ∀ a, (d.books a).Kept
  bounded : ∀ t ∈ d.told, ∃ v, (d.books t.account).info t.conId = some v ∧
    t.value.version ≤ v.version
  versions : ∀ a c v, (d.books a).info c = some v → v.version ≤ d.clock
  began : ∀ q ∈ d.watchers, q.began ≤ d.clock
  toldBegan : ∀ t ∈ d.told, ∀ reqId began, t.watch = .multi reqId began → began ≤ d.clock
  ownUnknown : d.own ∉ d.known
  knownOnce : d.known.Nodup
  namedElsewhere : ∀ p, d.polled = some p → ∀ q ∈ p.named, q.1 ≠ d.own
  polledOnce : ∀ a, ((d.polledOf a).map Prod.fst).Nodup
  polledHeld : ∀ a, ∀ p ∈ d.polledOf a, ∃ v, (d.books a).info p.1 = some v ∧
    p.2.version ≤ v.version ∧ (p.1 ∉ (d.books a).changes → p.2 = v)
  polledAfter : ∀ a, ∀ p ∈ d.polledOf a, ∀ t ∈ d.told, t.account = a → t.conId = p.1 →
    t.value.version ≤ p.2.version
  waiting : ∀ w a c v, d.Watches w a → (d.books a).info c = some v → d.Owed w a c →
    c ∉ (d.books a).changes → (∀ p ∈ d.polledOf a, p.1 ≠ c) → d.lastTold w a c = some v
  listed : ∀ a, (d.books a).changes ≠ [] → a = d.own ∨ a ∈ d.known

/-- What waits among the moves of an account somebody watches has moved since a moment. -/
structure Drained (d : HoldingDesk) (since : ℕ) : Prop where
  before : since ≤ d.clock
  after : ∀ w a, d.Watches w a → ∀ c ∈ (d.books a).changes, ∀ v, (d.books a).info c = some v →
    since < v.version

lemma Consistent.upToDate (h : d.Consistent) {since : ℕ} (hsince : d.Drained since)
    (hpolled : d.polled = none) : d.UpToDate since := by
  intro w a c v hwatch hinfo hle howed
  refine h.waiting w a c v hwatch hinfo howed ?_ ?_
  · exact fun hchange => absurd (hsince.after w a hwatch c hchange v hinfo) (Nat.not_lt.2 hle)
  · intro p hp
    rw [polledOf, hpolled] at hp
    exact absurd hp List.not_mem_nil

lemma books_change (d : HoldingDesk) (a b : String) (c : ℤ) (position : ℚ) (avgCost : ℤ) :
    (d.change a c position avgCost).books b =
      if b = a then (d.books a).setPositionInfo c ⟨d.clock + 1, position, avgCost⟩
      else d.books b := by
  simp only [change, setBook, Function.update_apply]

lemma info_change (d : HoldingDesk) (a b : String) (c c' : ℤ) (position : ℚ) (avgCost : ℤ) :
    ((d.change a c position avgCost).books b).info c' =
      if b = a ∧ c = c' then some ⟨d.clock + 1, position, avgCost⟩ else (d.books b).info c' := by
  rw [books_change]
  rcases eq_or_ne b a with rfl | hne
  · simp only [if_pos, HoldingBook.info_setPositionInfo, true_and]
  · simp only [hne, false_and, if_false]

lemma info_change_le (h : d.Consistent) {b : String} {c' : ℤ} {position : ℚ} {avgCost : ℤ}
    {v : HoldingValue} (hv : (d.books b).info c' = some v) :
    ∃ v', ((d.change a c position avgCost).books b).info c' = some v' ∧
      v.version ≤ v'.version := by
  rw [info_change]
  split_ifs
  · exact ⟨_, rfl, (h.versions b c' v hv).trans (Nat.le_succ _)⟩
  · exact ⟨v, hv, le_rfl⟩

lemma mem_changes_change (d : HoldingDesk) (a b : String) (c c' : ℤ) (position : ℚ)
    (avgCost : ℤ) : c' ∈ ((d.change a c position avgCost).books b).changes ↔
      (b = a ∧ c' = c) ∨ c' ∈ (d.books b).changes := by
  rw [books_change]
  rcases eq_or_ne b a with rfl | hne
  · simp only [if_pos, HoldingBook.mem_changes_setPositionInfo, true_and]
  · simp only [hne, false_and, false_or, if_false]

lemma Consistent.change (h : d.Consistent) (a : String) (c : ℤ) (position : ℚ) (avgCost : ℤ) :
    (d.change a c position avgCost).Consistent where
  inOrder := h.inOrder
  kept b := by
    rw [books_change]
    split_ifs
    · exact (h.kept a).setPositionInfo c _
    · exact h.kept b
  bounded t ht := by
    obtain ⟨v, hv, hle⟩ := h.bounded t ht
    obtain ⟨v', hv', hle'⟩ := info_change_le h hv
    exact ⟨v', hv', hle.trans hle'⟩
  versions b c' v hv := by
    rw [info_change] at hv
    split_ifs at hv
    · cases hv
      exact le_rfl
    · exact (h.versions b c' v hv).trans (Nat.le_succ _)
  began q hq := (h.began q hq).trans (Nat.le_succ _)
  toldBegan t ht reqId began hw := (h.toldBegan t ht reqId began hw).trans (Nat.le_succ _)
  ownUnknown := by
    simp only [HoldingDesk.change, setBook]
    split_ifs with hknown
    · exact h.ownUnknown
    · intro hmem
      rcases List.mem_append.1 hmem with hmem | hmem
      · exact h.ownUnknown hmem
      · exact hknown (Or.inl (List.mem_singleton.1 hmem).symm)
  knownOnce := by
    simp only [HoldingDesk.change, setBook]
    split_ifs with hknown
    · exact h.knownOnce
    · refine List.nodup_append.2 ⟨h.knownOnce, List.nodup_singleton a, ?_⟩
      rintro b hb e he rfl
      exact hknown (Or.inr (List.mem_singleton.1 he ▸ hb))
  namedElsewhere := h.namedElsewhere
  polledOnce := h.polledOnce
  polledHeld b p hp := by
    obtain ⟨v, hv, hle, heq⟩ := h.polledHeld b p hp
    rw [info_change]
    split_ifs with hmoved
    · refine ⟨_, rfl, hle.trans ((h.versions b p.1 v hv).trans (Nat.le_succ _)), ?_⟩
      intro hnot
      exact absurd ((mem_changes_change d a b c p.1 position avgCost).2
        (Or.inl ⟨hmoved.1, hmoved.2.symm⟩)) hnot
    · refine ⟨v, hv, hle, fun hnot => heq fun hmem => hnot ?_⟩
      exact (mem_changes_change d a b c p.1 position avgCost).2 (Or.inr hmem)
  polledAfter := h.polledAfter
  waiting w b c' v hwatch hinfo howed hchange hpolled := by
    rw [mem_changes_change, not_or] at hchange
    rw [info_change, if_neg (fun hmoved => hchange.1 ⟨hmoved.1, hmoved.2.symm⟩)] at hinfo
    refine h.waiting w b c' v hwatch hinfo ?_ hchange.2 hpolled
    rcases howed with ⟨reqId, began, v', hw, hv', hlt⟩ | howed
    · rw [info_change, if_neg (fun hmoved => hchange.1 ⟨hmoved.1, hmoved.2.symm⟩)] at hv'
      exact Or.inl ⟨reqId, began, v', hw, hv', hlt⟩
    · exact Or.inr howed
  listed b hb := by
    change b = d.own ∨ b ∈ if a = d.own ∨ a ∈ d.known then d.known else d.known ++ [a]
    rw [books_change] at hb
    rcases eq_or_ne b a with rfl | hne
    · split_ifs with hknown
      · exact hknown
      · exact Or.inr (List.mem_append_right _ (List.mem_singleton_self b))
    · rw [if_neg hne] at hb
      refine (h.listed b hb).imp_right fun hmem => ?_
      split_ifs
      · exact hmem
      · exact List.mem_append_left _ hmem

lemma Drained.change {since : ℕ} (h : d.Drained since) (a : String) (c : ℤ) (position : ℚ)
    (avgCost : ℤ) : (d.change a c position avgCost).Drained since where
  before := h.before.trans (Nat.le_succ _)
  after w b hwatch c' hc' v hv := by
    rw [info_change] at hv
    split_ifs at hv with hmoved
    · cases hv
      exact Nat.lt_succ_of_le h.before
    · refine h.after w b hwatch c' (((mem_changes_change d a b c c' position avgCost).1
        hc').resolve_left fun hsame => hmoved ⟨hsame.1, hsame.2.symm⟩) v hv

/-! ## A read begins -/

lemma polledOf_pollAll (h : d.known.Nodup) (a : String) :
    d.pollAll.polledOf a = if a = d.own ∨ a ∈ d.known then (d.books a).drained else [] := by
  simp only [pollAll, polledOf, named_of h]
  rcases eq_or_ne a d.own with rfl | hne
  · simp only [if_pos, true_or]
  · simp only [hne, false_or, if_false]

lemma mem_polledOf_pollAll (h : d.known.Nodup)
    (hp : p ∈ d.pollAll.polledOf a) : p ∈ (d.books a).drained := by
  rw [polledOf_pollAll h] at hp
  split_ifs at hp
  · exact hp
  · exact absurd hp List.not_mem_nil

lemma info_pollAll (d : HoldingDesk) (a : String) (c : ℤ) :
    (d.pollAll.books a).info c = (d.books a).info c := by
  simp only [pollAll]
  split_ifs <;> rfl

lemma Consistent.pollAll (h : d.Consistent) (hpolled : d.polled = none) :
    d.pollAll.Consistent where
  inOrder := h.inOrder
  kept a := by
    simp only [HoldingDesk.pollAll]
    split_ifs
    · exact (h.kept a).drain
    · exact h.kept a
  bounded t ht := by
    rw [info_pollAll]
    exact h.bounded t ht
  versions a c v hv := h.versions a c v (info_pollAll d a c ▸ hv)
  began := h.began
  toldBegan := h.toldBegan
  ownUnknown := h.ownUnknown
  knownOnce := h.knownOnce
  namedElsewhere p hp q hq heq := by
    cases hp
    obtain ⟨a, ha, hq⟩ := List.mem_flatMap.1 hq
    obtain ⟨p, -, rfl⟩ := List.mem_map.1 hq
    exact h.ownUnknown (heq ▸ ha)
  polledOnce a := by
    rw [polledOf_pollAll h.knownOnce]
    split_ifs
    · exact (h.kept a).nodup_drained
    · exact List.nodup_nil
  polledHeld a p hp := by
    have hdrained := HoldingBook.mem_drained.1 (mem_polledOf_pollAll h.knownOnce hp)
    exact ⟨p.2, by rw [info_pollAll, hdrained.2], le_rfl, fun _ => rfl⟩
  polledAfter a p hp t ht hta htc := by
    obtain ⟨v, hv, hle⟩ := h.bounded t ht
    rw [hta, htc, (HoldingBook.mem_drained.1 (mem_polledOf_pollAll h.knownOnce hp)).2] at hv
    exact Option.some.inj hv ▸ hle
  waiting w a c v hwatch hv howed hchange hnot := by
    rw [info_pollAll] at hv
    have howed' : d.Owed w a c := by
      rw [Owed, info_pollAll] at howed
      exact howed
    refine h.waiting w a c v hwatch hv howed' ?_ ?_
    · intro hc
      rw [polledOf_pollAll h.knownOnce] at hnot
      simp only [HoldingDesk.pollAll] at hchange
      split_ifs at hchange hnot with hpolls
      · exact hnot (c, v) (HoldingBook.mem_drained.2 ⟨hc, hv⟩) rfl
      · exact hchange hc
    · intro p hp
      rw [polledOf, hpolled] at hp
      exact absurd hp List.not_mem_nil
  listed a ha := by
    simp only [HoldingDesk.pollAll] at ha
    split_ifs at ha with hpolls
    · exact absurd rfl ha
    · exact h.listed a ha

/-- **A read that begins leaves no move behind** of an account somebody watches. -/
lemma Consistent.drained_readBegins (h : d.Consistent) (hpolled : d.polled = none) :
    d.readBegins.Drained d.clock := by
  rw [HoldingDesk.readBegins, if_neg (by rw [hpolled]; exact Bool.false_ne_true)]
  split_ifs with hwatched
  · refine ⟨le_rfl, fun w a _ c hc => ?_⟩
    simp only [HoldingDesk.pollAll] at hc
    split_ifs at hc with hpolls
    · exact absurd hc List.not_mem_nil
    · exact absurd (h.listed a (List.ne_nil_of_mem hc)) hpolls
  · refine ⟨le_rfl, fun w a hwatch => absurd ?_ hwatched⟩
    rcases hwatch with ⟨-, hreq, -⟩ | ⟨q, hq, -⟩
    · exact Or.inl hreq
    · exact Or.inr (List.ne_nil_of_mem hq)

lemma Drained.readBegins (h : d.Consistent) {since : ℕ} (hsince : d.Drained since) :
    d.readBegins.Drained since := by
  by_cases hpolled : d.polled = none
  · have hdrained := h.drained_readBegins hpolled
    have hclock := hsince.before
    exact ⟨hsince.before.trans hdrained.before,
      fun w a hwatch c hc v hv => hclock.trans_lt (hdrained.after w a hwatch c hc v hv)⟩
  · rw [HoldingDesk.readBegins, if_pos (Option.isSome_iff_ne_none.2 hpolled)]
    exact hsince

lemma Consistent.readBegins (h : d.Consistent) : d.readBegins.Consistent := by
  rw [HoldingDesk.readBegins]
  split_ifs with hpolled hwatched
  · exact h
  · exact h.pollAll (Option.not_isSome_iff_eq_none.1 hpolled)
  · have hnil : ∀ a, polledOf { d with polled := some ⟨[], []⟩ } a = [] := by
      intro a
      simp only [polledOf, List.filter_nil, List.map_nil, ite_self]
    have hnone : ∀ a, d.polledOf a = [] := by
      intro a
      rw [polledOf, Option.not_isSome_iff_eq_none.1 hpolled]
    refine ⟨h.inOrder, h.kept, h.bounded, h.versions, h.began, h.toldBegan, h.ownUnknown,
      h.knownOnce, ?_, ?_, ?_, ?_, ?_, h.listed⟩
    · intro p hp q hq
      cases hp
      exact absurd hq List.not_mem_nil
    · intro a
      rw [hnil]
      exact List.nodup_nil
    · intro a p hp
      exact absurd (hnil a ▸ hp) List.not_mem_nil
    · intro a p hp
      exact absurd (hnil a ▸ hp) List.not_mem_nil
    · intro w a c v hwatch hv howed hchange _
      refine h.waiting w a c v hwatch hv howed hchange ?_
      intro p hp
      exact absurd (hnone a ▸ hp) List.not_mem_nil

/-! ## An answer in the middle of a read -/

def present (d : HoldingDesk) (a : String) (c : ℤ) : Option HoldingValue := (d.books a).info c

lemma began_of_watches (h : d.Consistent) {reqId : ℤ} {began : ℕ}
    (hw : d.Watches (.multi reqId began) a) : began ≤ d.clock := by
  rcases hw with ⟨hplain, -⟩ | ⟨q, hq, heq, -⟩
  · cases hplain
  · rw [HoldingRequest.watch, HoldingWatch.multi.injEq] at heq
    exact heq.2 ▸ h.began q hq

variable {next : HoldingDesk}

lemma polledOf_without (hown : next.own = d.own)
    (hpolled : next.polled = d.withoutPolled a) (b : String) :
    next.polledOf b = if b = a then [] else d.polledOf b := by
  rw [polledOf, polledOf, hpolled, withoutPolled, hown]
  rcases d.polled with _ | p
  case none => exact (ite_self _).symm
  simp only [Option.map_some]
  rcases eq_or_ne a d.own with rfl | hne
  · simp only [if_true]
    split_ifs <;> rfl
  · rcases eq_or_ne b d.own with rfl | hb
    · simp only [if_neg hne, if_neg hne.symm, if_true]
    · simp only [if_neg hne, if_neg hb, List.filter_filter]
      rcases eq_or_ne b a with rfl | hba
      · rw [if_pos rfl, List.filter_eq_nil_iff.2, List.map_nil]
        intro q _
        simp
      · rw [if_neg hba]
        congr 1
        refine List.filter_congr fun q _ => ?_
        rcases eq_or_ne q.1 b with heq | hq
        · simp [heq, hba]
        · simp [hq]

/-- **An answer that drains an account's moves and takes what was polled of it** leaves nobody
behind, where it states what is held and tells each move to whoever watched it. -/
theorem Consistent.answered (h : d.Consistent)
    (hown : next.own = d.own)
    (hbooks : next.books = (d.setBook a (d.books a).drain).books) (hknown : next.known = d.known)
    (hpolled : next.polled = d.withoutPolled a) (htold : next.told = d.told)
    (hclock : d.clock ≤ next.clock) (hbegan : ∀ q ∈ next.watchers, q.began ≤ next.clock)
    (hes : ∀ e ∈ es, next.Watches e.watch a ∧ e.account = a ∧
      (d.books a).info e.conId = some e.value)
    (hothers : ∀ w b, b ≠ a → next.Watches w b → d.Watches w b)
    (hall : ∀ w c v, next.Watches w a → (d.books a).info c = some v → d.Owed w a c →
      (¬∃ e ∈ es, e.key = (w, a, c)) → d.Watches w a ∧ c ∉ (d.books a).changes ∧
        ∀ p ∈ d.polledOf a, p.1 ≠ c) : (next.tell es).Consistent := by
  have hbook : ∀ b, next.books b = if b = a then (d.books a).drain else d.books b := by
    intro b
    simp only [hbooks, setBook, Function.update_apply]
  have hinfo : ∀ b c, (next.books b).info c = (d.books b).info c := by
    intro b c
    rw [hbook]
    split_ifs with hb
    · rw [hb, HoldingBook.info_drain]
    · rfl
  have hof : ∀ b, (next.tell es).polledOf b = if b = a then [] else d.polledOf b :=
    polledOf_without hown hpolled
  have hpresent : ∀ e ∈ es, d.present e.account e.conId = some e.value := by
    intro e he
    rw [present, (hes e he).2.1]
    exact (hes e he).2.2
  refine ⟨?_, ?_, ?_, ?_, hbegan, ?_, ?_, ?_, ?_, ?_, ?_, ?_, ?_, ?_⟩
  · refine toldInOrder_tell (by rw [ToldInOrder, htold]; exact h.inOrder) hpresent ?_
    intro t ht e he hkey
    obtain ⟨v, hv, hle⟩ := h.bounded t (htold ▸ ht)
    simp only [HoldingTold.key, Prod.mk.injEq] at hkey
    rw [← hkey.2.1, ← hkey.2.2, ← present, hpresent e he] at hv
    exact Option.some.inj hv ▸ hle
  · intro b
    change (next.books b).Kept
    rw [hbook]
    split_ifs
    · exact (h.kept a).drain
    · exact h.kept b
  · intro t ht
    change ∃ v, (next.books t.account).info t.conId = some v ∧ _
    rw [hinfo]
    rcases mem_told_tell.1 ht with hmem | hmem
    · exact ⟨t.value, hpresent t hmem, le_rfl⟩
    · exact h.bounded t (htold ▸ hmem)
  · intro b c v hv
    change (next.books b).info c = some v at hv
    exact (h.versions b c v (hinfo b c ▸ hv)).trans hclock
  · intro t ht reqId began hw
    rcases mem_told_tell.1 ht with hmem | hmem
    · rcases (hes t hmem).1 with ⟨hplain, -⟩ | ⟨q, hq, heq, -⟩
      · cases hw.symm.trans hplain
      · have heq' := hw.symm.trans heq
        rw [HoldingRequest.watch, HoldingWatch.multi.injEq] at heq'
        exact heq'.2 ▸ hbegan q hq
    · exact (h.toldBegan t (htold ▸ hmem) reqId began hw).trans hclock
  · change next.own ∉ next.known
    rw [hown, hknown]
    exact h.ownUnknown
  · change next.known.Nodup
    rw [hknown]
    exact h.knownOnce
  · intro p hp q hq
    change next.polled = some p at hp
    change q.1 ≠ next.own
    rw [hpolled, withoutPolled] at hp
    obtain ⟨p', hp', rfl⟩ := Option.map_eq_some_iff.1 hp
    rw [hown]
    refine h.namedElsewhere p' hp' q ?_
    split_ifs at hq
    · exact hq
    · exact List.mem_of_mem_filter hq
  · intro b
    rw [hof]
    split_ifs
    · exact List.nodup_nil
    · exact h.polledOnce b
  · intro b p hp
    rw [hof] at hp
    change ∃ v, (next.books b).info p.1 = some v ∧ _ ∧ (p.1 ∉ (next.books b).changes → _)
    rw [hinfo, hbook]
    split_ifs at hp ⊢ with hb
    · exact absurd hp List.not_mem_nil
    · exact h.polledHeld b p hp
  · intro b p hp t ht hta htc
    rw [hof] at hp
    split_ifs at hp with hb
    · exact absurd hp List.not_mem_nil
    · rcases mem_told_tell.1 ht with hmem | hmem
      · exact absurd (hta.symm.trans (hes t hmem).2.1) hb
      · exact h.polledAfter b p hp t (htold ▸ hmem) hta htc
  · intro w b c v hwatch hv howed hchange hnot
    change (next.books b).info c = some v at hv
    change next.Watches w b at hwatch
    change c ∉ (next.books b).changes at hchange
    rw [hinfo] at hv
    by_cases htells : ∃ e ∈ es, e.key = (w, b, c)
    · rw [lastTold_tell_of_mem hpresent htells]
      exact hv
    · have howed' : d.Owed w b c := by
        have hnext := owed_of_tell howed htells
        rw [Owed, hinfo, htold] at hnext
        exact hnext
      rw [lastTold_tell_of_not_mem htells, lastTold, htold]
      rcases eq_or_ne b a with rfl | hne
      · obtain ⟨hwatched, hsame, hpolls⟩ := hall w c v hwatch hv howed' htells
        exact h.waiting w b c v hwatched hv howed' hsame hpolls
      · rw [hbook, if_neg hne] at hchange
        rw [hof, if_neg hne] at hnot
        exact h.waiting w b c v (hothers w b hne hwatch) hv howed' hchange hnot
  · intro b hb
    change (next.books b).changes ≠ [] at hb
    change b = next.own ∨ b ∈ next.known
    rw [hbook] at hb
    rw [hown, hknown]
    split_ifs at hb
    · exact absurd rfl hb
    · exact h.listed b hb

lemma Drained.answered {since : ℕ} (h : d.Drained since)
    (hbooks : next.books = (d.setBook a (d.books a).drain).books) (hclock : d.clock ≤ next.clock)
    (hothers : ∀ w b, b ≠ a → next.Watches w b → d.Watches w b) : (next.tell es).Drained since where
  before := h.before.trans hclock
  after w b hwatch c hc v hv := by
    change c ∈ (next.books b).changes at hc
    change (next.books b).info c = some v at hv
    simp only [hbooks, setBook, Function.update_apply] at hc hv
    rcases eq_or_ne b a with rfl | hne
    · rw [if_pos rfl] at hc
      exact absurd hc List.not_mem_nil
    · rw [if_neg hne] at hc hv
      exact h.after w b (hothers w b hne hwatch) c hc v hv

lemma watches_answerPositions (b : String) (hb : b ≠ d.own)
    (h : ({ d with positionsRequested := true } : HoldingDesk).Watches w b) : d.Watches w b := by
  rcases h with ⟨-, -, hown⟩ | hw
  · exact absurd hown hb
  · exact Or.inr hw

lemma watches_asked {reqId : ℤ} (b : String) (hb : b ≠ a)
    (h : ({ d with watchers := (d.besides reqId).watchers ++ [d.asked reqId a] } :
      HoldingDesk).Watches w b) : d.Watches w b := by
  rcases h with hw | ⟨q, hq, rfl, rfl⟩
  · exact Or.inl hw
  · rcases List.mem_append.1 hq with hq | hq
    · exact Or.inr ⟨q, List.mem_of_mem_filter hq, rfl, rfl⟩
    · exact absurd (congrArg HoldingRequest.account (List.mem_singleton.1 hq)) hb

lemma Consistent.answerPositions (h : d.Consistent) (hnot : d.NotPolledAlready .positions) :
    d.answerPositions.Consistent := by
  refine h.answered (a := d.own) rfl rfl rfl rfl rfl le_rfl h.began ?_ ?_ ?_
  · intro e he
    rcases List.mem_append.1 he with he | he
    · obtain ⟨p, hp, rfl⟩ := List.mem_map.1 he
      exact ⟨Or.inl ⟨rfl, rfl, rfl⟩, rfl, (h.kept d.own).info_of_mem hp⟩
    · obtain ⟨p, hp, he⟩ := List.mem_flatMap.1 he
      obtain ⟨q, hq, hown, rfl⟩ := mem_toRequests.1 he
      refine ⟨Or.inr ⟨q, hq, rfl, hown.symm⟩, rfl, ?_⟩
      rcases List.mem_append.1 hp with hp | hp
      · exact (HoldingBook.mem_drained.1 hp).2
      · obtain ⟨v, hv, -, heq⟩ := h.polledHeld d.own p hp
        have hany := hnot (List.any_eq_true.2 ⟨q, hq, decide_eq_true hown⟩)
        rw [heq (of_decide_eq_true (List.all_eq_true.1 hany p hp))]
        exact hv
  · exact fun w b hb hwatch => watches_answerPositions b hb hwatch
  · intro w c v hwatch hv _ htells
    rcases hwatch with ⟨rfl, -, -⟩ | ⟨q, hq, rfl, hown⟩
    · refine absurd ⟨⟨.plain, d.own, c, v⟩, List.mem_append_left _ ?_, rfl⟩ htells
      exact List.mem_map.2 ⟨(c, v), HoldingBook.mem_infos hv, rfl⟩
    · -- a request has been told all that moved
      have htold : ∀ p ∈ (d.books d.own).drained ++ d.polledOf d.own, p.1 ≠ c := by
        rintro p hp rfl
        refine htells ⟨⟨q.watch, d.own, p.1, p.2⟩, List.mem_append_right _ ?_, rfl⟩
        exact List.mem_flatMap.2 ⟨p, hp, mem_toRequests.2 ⟨q, hq, hown.symm, rfl⟩⟩
      refine ⟨Or.inr ⟨q, hq, rfl, hown⟩, ?_, fun p hp => htold p (List.mem_append_right _ hp)⟩
      intro hc
      exact htold (c, v) (List.mem_append_left _ (HoldingBook.mem_drained.2 ⟨hc, hv⟩)) rfl

/-! What moved of an account is told as it is held. -/

lemma movesOf_present (h : d.Consistent)
    (hp : p ∈ d.movesOf a) : (d.books a).info p.1 = some p.2 := by
  have hat := at?_of_mem (nodup_putAll (fun _ _ h => h.symm) (h.polledOnce a) _) hp
  rw [at?_putAll (fun _ _ h => h.symm) (h.kept a).nodup_drained] at hat
  cases hdrained : at? Prod.fst (d.books a).drained p.1 with
  | some q =>
      obtain ⟨hq, -⟩ := at?_mem hdrained
      rw [hdrained] at hat
      have hpq : q = p := by
        cases hpolled : at? Prod.fst (d.polledOf a) p.1 <;> rw [hpolled] at hat <;>
          exact Option.some.inj hat
      exact (HoldingBook.mem_drained.1 (hpq ▸ hq)).2
  | none =>
      rw [hdrained] at hat
      cases hpolled : at? Prod.fst (d.polledOf a) p.1 with
      | none =>
          rw [hpolled] at hat
          cases hat
      | some q =>
          rw [hpolled] at hat
          obtain ⟨hq, -⟩ := at?_mem hpolled
          obtain ⟨v, hv, -, heq⟩ := h.polledHeld a p (Option.some.inj hat ▸ hq)
          rw [heq ?_]
          · exact hv
          · intro hc
            exact at?_eq_none.1 hdrained (p.1, v) (HoldingBook.mem_drained.2 ⟨hc, hv⟩) rfl

lemma exists_mem_movesOf (h : d.Consistent)
    (hp : p ∈ d.polledOf a ∨ p ∈ (d.books a).drained) : ∃ q ∈ d.movesOf a, q.1 = p.1 := by
  cases hat : at? Prod.fst (d.movesOf a) p.1 with
  | some q => exact ⟨q, at?_mem hat⟩
  | none =>
      rw [movesOf, at?_putAll (fun _ _ h => h.symm) (h.kept a).nodup_drained] at hat
      rcases hp with hp | hp
      · rw [at?_of_mem (h.polledOnce a) hp] at hat
        cases hdrained : at? Prod.fst (d.books a).drained p.1 <;> rw [hdrained] at hat <;> cases hat
      · rw [at?_of_mem (h.kept a).nodup_drained hp] at hat
        cases hpolled : at? Prod.fst (d.polledOf a) p.1 <;> rw [hpolled] at hat <;> cases hat

lemma watches_besides {reqId : ℤ}
    (h : (d.besides reqId).Watches w a) : d.Watches w a := by
  rcases h with h | ⟨q, hq, rfl, rfl⟩
  · exact Or.inl h
  · exact Or.inr ⟨q, List.mem_of_mem_filter hq, rfl, rfl⟩

lemma Consistent.answerPositionsMulti (h : d.Consistent) (reqId : ℤ) (a : String) :
    (d.answerPositionsMulti reqId a).Consistent := by
  refine h.answered (a := a) rfl rfl rfl rfl rfl (Nat.le_succ _) ?_ ?_ ?_ ?_
  · intro q hq
    rcases List.mem_append.1 hq with hq | hq
    · exact (h.began q (List.mem_of_mem_filter hq)).trans (Nat.le_succ _)
    · rw [List.mem_singleton.1 hq]
      exact le_rfl
  · intro e he
    rcases List.mem_append.1 he with he | he
    · obtain ⟨p, hp, he⟩ := List.mem_flatMap.1 he
      obtain ⟨w, hw, rfl⟩ := mem_movedTold.1 he
      refine ⟨?_, rfl, movesOf_present h hp⟩
      rcases hw with hw | ⟨q, hq, rfl, rfl⟩
      · exact Or.inl hw
      · exact Or.inr ⟨q, List.mem_append_left _ hq, rfl, rfl⟩
    · obtain ⟨p, hp, rfl⟩ := List.mem_map.1 he
      refine ⟨Or.inr ⟨d.asked reqId a, List.mem_append_right _ (List.mem_singleton_self _), rfl,
        rfl⟩, rfl, ?_⟩
      exact (h.kept a).info_of_mem (List.mem_of_mem_filter hp)
  · exact fun w b hb hwatch => watches_asked b hb hwatch
  · intro w c v hwatch hv howed htells
    have hcases : (d.besides reqId).Watches w a ∨ w = (d.asked reqId a).watch := by
      rcases hwatch with hw | ⟨q, hq, rfl, rfl⟩
      · exact Or.inl (Or.inl hw)
      · rcases List.mem_append.1 hq with hq | hq
        · exact Or.inl (Or.inr ⟨q, hq, rfl, rfl⟩)
        · exact Or.inr (congrArg HoldingRequest.watch (List.mem_singleton.1 hq))
    rcases hcases with hbesides | rfl
    · have hmoved : ∀ q ∈ d.movesOf a, q.1 ≠ c := by
        rintro q hq rfl
        refine htells ⟨⟨w, a, q.1, q.2⟩, List.mem_append_left _ ?_, rfl⟩
        exact List.mem_flatMap.2 ⟨q, hq, mem_movedTold.2 ⟨w, hbesides, rfl⟩⟩
      refine ⟨watches_besides hbesides, ?_, ?_⟩
      · intro hc
        obtain ⟨q, hq, heq⟩ := exists_mem_movesOf h (p := (c, v))
          (Or.inr (HoldingBook.mem_drained.2 ⟨hc, hv⟩))
        exact hmoved q hq heq
      · intro p hp heq
        obtain ⟨q, hq, hqp⟩ := exists_mem_movesOf h (Or.inl hp)
        exact hmoved q hq (hqp.trans heq)
    · -- a watch that begins here is owed nothing of before
      exfalso
      rcases howed with ⟨reqId', began, v', hw, hv', hlt⟩ | hw | ⟨t, ht, hkey⟩
      · cases hw
        exact absurd ((h.versions a c v' hv').trans (Nat.le_succ _)) (Nat.not_le.2 hlt)
      · cases hw
      · have htw : t.watch = .multi reqId (d.clock + 1) := congrArg Prod.fst hkey
        exact absurd (h.toldBegan t ht reqId _ htw) (Nat.not_succ_le_self _)

/-! ## A read ends -/

lemma mem_polledTold {p : PolledHoldings} (hpolled : d.polled = some p)
    (helsewhere : ∀ q ∈ p.named, q.1 ≠ d.own) :
    e ∈ d.polledTold p ↔ d.Watches e.watch e.account ∧
      (e.conId, e.value) ∈ d.polledOf e.account := by
  rw [polledOf, hpolled, polledTold, List.mem_append]
  dsimp only
  constructor
  · rintro (he | he)
    · obtain ⟨q, hq, he⟩ := List.mem_flatMap.1 he
      obtain ⟨w, hw, rfl⟩ := mem_movedTold.1 he
      rw [if_pos rfl]
      exact ⟨hw, hq⟩
    · obtain ⟨q, hq, he⟩ := List.mem_flatMap.1 he
      rw [← movedTold_other (helsewhere q hq) q.2] at he
      obtain ⟨w, hw, rfl⟩ := mem_movedTold.1 he
      rw [if_neg (helsewhere q hq)]
      exact ⟨hw, List.mem_map.2 ⟨q, List.mem_filter.2 ⟨hq, decide_eq_true rfl⟩, rfl⟩⟩
  · rintro ⟨hw, hmem⟩
    split_ifs at hmem with hown
    · refine Or.inl (List.mem_flatMap.2 ⟨_, hmem, mem_movedTold.2 ⟨e.watch, hown ▸ hw, ?_⟩⟩)
      rw [← hown]
    · obtain ⟨q, hq, heq⟩ := List.mem_map.1 hmem
      obtain ⟨hq, haccount⟩ := List.mem_filter.1 hq
      refine Or.inr (List.mem_flatMap.2 ⟨q, hq, ?_⟩)
      rw [← movedTold_other (helsewhere q hq) q.2, of_decide_eq_true haccount, heq]
      exact mem_movedTold.2 ⟨e.watch, hw, rfl⟩

lemma Consistent.readEnds (h : d.Consistent) : d.readEnds.Consistent := by
  rw [HoldingDesk.readEnds]
  cases hpolled : d.polled with
  | none => exact h
  | some p =>
      have hmem := fun e => mem_polledTold (e := e) hpolled (h.namedElsewhere p hpolled)
      have hvalue : ∀ e ∈ d.polledTold p,
          (fun a c => (at? Prod.fst (d.polledOf a) c).map Prod.snd) e.account e.conId =
            some e.value := by
        intro e he
        simp only [at?_of_mem (h.polledOnce e.account) ((hmem e).1 he).2, Option.map_some]
      refine ⟨?_, h.kept, ?_, h.versions, h.began, ?_, h.ownUnknown, h.knownOnce, ?_, ?_, ?_,
        ?_, ?_, h.listed⟩
      · refine toldInOrder_tell (d := { d with polled := none })
          (f := fun a c => (at? Prod.fst (d.polledOf a) c).map Prod.snd) h.inOrder hvalue ?_
        intro t ht e he hkey
        simp only [HoldingTold.key, Prod.mk.injEq] at hkey
        exact h.polledAfter e.account _ ((hmem e).1 he).2 t ht hkey.2.1.symm hkey.2.2.symm
      · intro t ht
        rcases mem_told_tell.1 ht with hnew | hold
        · obtain ⟨v, hv, hle, -⟩ := h.polledHeld t.account _ ((hmem t).1 hnew).2
          exact ⟨v, hv, hle⟩
        · exact h.bounded t hold
      · intro t ht reqId began hw
        rcases mem_told_tell.1 ht with hnew | hold
        · exact began_of_watches h (hw ▸ ((hmem t).1 hnew).1)
        · exact h.toldBegan t hold reqId began hw
      · intro q hq
        cases hq
      · intro a
        exact List.nodup_nil
      · intro a q hq
        exact absurd hq List.not_mem_nil
      · intro a q hq
        exact absurd hq List.not_mem_nil
      · intro w a c v hwatch hv howed hchange _
        by_cases htells : ∃ e ∈ d.polledTold p, e.key = (w, a, c)
        · rw [lastTold_tell_of_mem (d := { d with polled := none })
            (f := fun a c => (at? Prod.fst (d.polledOf a) c).map Prod.snd) hvalue htells]
          obtain ⟨e, he, hkey⟩ := htells
          simp only [HoldingTold.key, Prod.mk.injEq] at hkey
          have hpolls := ((hmem e).1 he).2
          rw [hkey.2.1, hkey.2.2] at hpolls
          obtain ⟨v', hv', -, heq⟩ := h.polledHeld a _ hpolls
          rw [at?_of_mem (h.polledOnce a) hpolls, Option.map_some, heq hchange,
            Option.some.inj (hv'.symm.trans hv)]
        · rw [lastTold_tell_of_not_mem (d := { d with polled := none }) htells]
          refine h.waiting w a c v hwatch hv
            (owed_of_tell (d := { d with polled := none }) howed htells) hchange ?_
          rintro q hq rfl
          exact htells ⟨⟨w, a, q.1, q.2⟩, (hmem _).2 ⟨hwatch, hq⟩, rfl⟩

/-! ## Withdrawals -/

/-- Watchers leave, and the client's own watch may. -/
def Withdraws (d next : HoldingDesk) : Prop :=
  ∃ r ws, (r = true → d.positionsRequested = true) ∧ ws ⊆ d.watchers ∧
    next = { d with positionsRequested := r, watchers := ws }

lemma Withdraws.watches (hnext : d.Withdraws next) (h : next.Watches w a) : d.Watches w a := by
  obtain ⟨r, ws, hrequested, hwatchers, rfl⟩ := hnext
  rcases h with ⟨rfl, hreq, rfl⟩ | ⟨q, hq, rfl, rfl⟩
  · exact Or.inl ⟨rfl, hrequested hreq, rfl⟩
  · exact Or.inr ⟨q, hwatchers hq, rfl, rfl⟩

lemma Drained.withdrawn {since : ℕ} (h : d.Drained since) (hnext : d.Withdraws next) :
    next.Drained since := by
  have hwatches : ∀ w a, next.Watches w a → d.Watches w a := fun _ _ => hnext.watches
  obtain ⟨r, ws, -, -, rfl⟩ := hnext
  exact ⟨h.before, fun w a hwatch => h.after w a (hwatches w a hwatch)⟩

lemma Consistent.withdrawn (h : d.Consistent) (hnext : d.Withdraws next) : next.Consistent := by
  have hwatches : ∀ w a, next.Watches w a → d.Watches w a := fun _ _ => hnext.watches
  obtain ⟨r, ws, -, hwatchers, rfl⟩ := hnext
  refine ⟨h.inOrder, h.kept, h.bounded, h.versions, fun q hq => h.began q (hwatchers hq),
    h.toldBegan, h.ownUnknown, h.knownOnce, h.namedElsewhere, h.polledOnce, h.polledHeld,
    h.polledAfter, ?_, h.listed⟩
  exact fun w a c v hwatch => h.waiting w a c v (hwatches w a hwatch)

/-- **What happens keeps the desk consistent**, where an answer for all holdings finds nothing it
drains polled already. -/
theorem Consistent.step (h : d.Consistent) (e : HoldingEvent) (hcond : d.NotPolledAlready e) :
    (d.step e).Consistent := by
  cases e with
  | change a c position avgCost => exact h.change a c position avgCost
  | readBegins => exact h.readBegins
  | positions => exact h.answerPositions hcond
  | positionsMulti reqId a => exact h.answerPositionsMulti reqId a
  | retirePositions =>
      exact h.withdrawn ⟨false, d.watchers, nofun, List.Subset.refl _, rfl⟩
  | retirePositionsMulti reqId =>
      exact h.withdrawn ⟨d.positionsRequested, _, id, List.filter_subset_self _, rfl⟩
  | readEnds => exact h.readEnds

lemma Drained.step {since : ℕ} (hsince : d.Drained since) (h : d.Consistent) (e : HoldingEvent) :
    (d.step e).Drained since := by
  cases e with
  | change a c position avgCost => exact hsince.change a c position avgCost
  | readBegins => exact hsince.readBegins h
  | positions =>
      exact hsince.answered (a := d.own) rfl le_rfl fun w b hb hwatch =>
        watches_answerPositions b hb hwatch
  | positionsMulti reqId a =>
      exact hsince.answered (a := a) rfl (Nat.le_succ _) fun w b hb hwatch =>
        watches_asked b hb hwatch
  | retirePositions =>
      exact hsince.withdrawn ⟨false, d.watchers, nofun, List.Subset.refl _, rfl⟩
  | retirePositionsMulti reqId =>
      exact hsince.withdrawn ⟨d.positionsRequested, _, id, List.filter_subset_self _, rfl⟩
  | readEnds =>
      change d.readEnds.Drained since
      rw [HoldingDesk.readEnds]
      cases d.polled with
      | none => exact hsince
      | some p => exact ⟨hsince.before, hsince.after⟩

end HoldingDesk

/-! ## Every watcher ends on the present holding -/

end IbkrDx
