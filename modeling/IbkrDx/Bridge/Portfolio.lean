import IbkrDx.Lib.Runs
import IbkrDx.Protocol.Fix
import Mathlib.Data.List.AList

/-!
# What an account holds, and the download that restates it

The rows of one account's holdings, and the record of which of them the download in progress has
not named yet.

* **`download_closes_unstated`** — the end of that request closes the holdings it was to restate and
  did not name, and nothing else closes one.
-/

namespace IbkrDx

open Runs

/-! ## The rows -/

/-- An `f64` as it is compared here: a number, an infinity, or neither. -/
inductive Figure where
  | number (q : ℚ)
  | infinite (negative : Bool)
  | nan
  deriving DecidableEq

/-- `0.0`, as which `-0.0` reads too. -/
def Figure.zero : Figure := .number 0

/-- `PRICE_SCALE` parts of one. -/
abbrev Price := ℤ

structure PositionInfo where
  conId : ℤ := 0
  /-- The holding exactly as the account states it. -/
  position : Figure := .zero
  avgCost : Price := 0
  symbol : Bytes := []
  secType : Bytes := []
  currency : Bytes := []
  multiplier : Bytes := []
  marketPrice : Price := 0
  marketPriceStated : Bool := false
  marketValue : Price := 0
  unrealizedPnl : Price := 0
  unrealizedStated : Bool := false
  realizedPnl : Price := 0

namespace PositionInfo

def unmarked (i : PositionInfo) : PositionInfo :=
  { i with
    marketPrice := 0, marketPriceStated := false, marketValue := 0
    unrealizedPnl := 0, unrealizedStated := false }

/-- A holding of nothing: its quantity, its basis and its marks go. -/
def squared (i : PositionInfo) : PositionInfo :=
  { i with position := .zero, avgCost := 0 }.unmarked

def restated (onFile stated : Bytes) : Bytes := if stated.isEmpty then onFile else stated

def written (existing info : PositionInfo) : PositionInfo :=
  let row :=
    { existing with
      position := info.position
      avgCost := info.avgCost
      symbol := restated existing.symbol info.symbol
      secType := restated existing.secType info.secType
      currency := restated existing.currency info.currency
      multiplier := restated existing.multiplier info.multiplier }
  if info.position = .zero then row.unmarked else row

def marked (i : PositionInfo) (marketPrice marketValue unrealizedPnl realizedPnl : Option Price) :
    PositionInfo :=
  { i with
    marketPrice := marketPrice.getD i.marketPrice
    marketPriceStated := marketPrice.isSome || i.marketPriceStated
    marketValue := marketValue.getD i.marketValue
    unrealizedPnl := unrealizedPnl.getD i.unrealizedPnl
    unrealizedStated := unrealizedPnl.isSome || i.unrealizedStated
    realizedPnl := realizedPnl.getD i.realizedPnl }

end PositionInfo

abbrev Rows := AList fun _ : ℤ => PositionInfo

def mapRows (f : PositionInfo → PositionInfo) (rows : Rows) : Rows :=
  ⟨rows.entries.map (.map id fun _ => f), rows.nodupKeys.map₂ fun _ => f⟩

@[simp] lemma lookup_mapRows (f : PositionInfo → PositionInfo) (rows : Rows) (c : ℤ) :
    (mapRows f rows).lookup c = (rows.lookup c).map f :=
  List.dlookup_map₂ c

/-- A `HashSet` of contracts, in the order it is walked. -/
abbrev Contracts := {l : List ℤ // l.Nodup}

/-- What one account holds, and how far a download has restated it. -/
structure PortfolioState where
  accountDownloadComplete : Bool := false
  positionInfos : Rows := ∅
  /-- Holdings a download in progress has not restated yet. -/
  awaitingRestatement : Contracts := ⟨[], List.nodup_nil⟩
  /-- The account request whose end means every holding has been stated. -/
  restatingUnder : Option Bytes := none
  positionChanges : Finset ℤ := ∅

namespace PortfolioState

def positionInfo (s : PortfolioState) (c : ℤ) : Option PositionInfo := s.positionInfos.lookup c

def isOpen (s : PortfolioState) (c : ℤ) : Bool :=
  (s.positionInfo c).any fun info => info.position ≠ .zero

/-- Closing one holding, recorded as a move like any other. -/
def close (s : PortfolioState) (c : ℤ) (info : PositionInfo) : PortfolioState :=
  { s with
    positionInfos := s.positionInfos.insert c info.squared
    positionChanges := insert c s.positionChanges }

/-- The unstated holdings walked: those that are open are closed, and reported. -/
def squareUnstated (s : PortfolioState) : List ℤ → List ℤ × PortfolioState
  | [] => ([], s)
  | c :: cs =>
      match s.positionInfo c with
      | none => s.squareUnstated cs
      | some info =>
          if info.position = .zero then s.squareUnstated cs
          else
            let rest := (s.close c info).squareUnstated cs
            (c :: rest.1, rest.2)

def setAccountDownloadComplete (s : PortfolioState) (ends : Bytes) :
    Option (List ℤ) × PortfolioState :=
  if s.restatingUnder = some ends then
    let done :=
      { s with restatingUnder := none, awaitingRestatement := ⟨[], List.nodup_nil⟩ }.squareUnstated
        s.awaitingRestatement.1
    (some done.1, done.2)
  else (if s.restatingUnder = none then some [] else none, s)

def accountDownloadIsSettled (s : PortfolioState) : PortfolioState :=
  { s with accountDownloadComplete := true }

def accountDownloadIsPending (s : PortfolioState) : PortfolioState :=
  { s with
    accountDownloadComplete := false
    awaitingRestatement := ⟨[], List.nodup_nil⟩
    restatingUnder := none
    positionInfos := mapRows PositionInfo.unmarked s.positionInfos }

def holdingsRestatedUnder (s : PortfolioState) (key : Bytes) : PortfolioState :=
  if s.accountDownloadComplete then s
  else if s.restatingUnder = none then
    { s with
      awaitingRestatement := ⟨s.positionInfos.keys, s.positionInfos.keys_nodup⟩
      restatingUnder := some key }
  else s

def noteRestated (s : PortfolioState) (c : ℤ) : PortfolioState :=
  { s with
    awaitingRestatement := ⟨s.awaitingRestatement.1.erase c, s.awaitingRestatement.2.erase c⟩ }

def setPositionInfo (s : PortfolioState) (info : PositionInfo) : PortfolioState :=
  { s with
    positionInfos := s.positionInfos.insert info.conId
      (((s.positionInfo info.conId).map fun existing => existing.written info).getD info)
    positionChanges := insert info.conId s.positionChanges }

def setPositionMarks (s : PortfolioState) (c : ℤ)
    (marketPrice marketValue unrealizedPnl realizedPnl : Option Price) : PortfolioState :=
  { s with
    positionInfos := s.positionInfos.insert c
      (((s.positionInfo c).getD { conId := c }).marked
        marketPrice marketValue unrealizedPnl realizedPnl) }

end PortfolioState

/-! ## Closing what was left unstated -/

structure Walked (s s' : PortfolioState) (unstated : List ℤ) : Prop where
  complete : s'.accountDownloadComplete = s.accountDownloadComplete
  awaiting : s'.awaitingRestatement = s.awaitingRestatement
  under : s'.restatingUnder = s.restatingUnder
  closed : ∀ c ∈ unstated, s.isOpen c → s'.positionInfo c = (s.positionInfo c).map .squared
  kept : ∀ c, ¬ (c ∈ unstated ∧ s.isOpen c) → s'.positionInfo c = s.positionInfo c
  /-- Those closed are recorded as moved. -/
  changes : ∀ c, c ∈ s'.positionChanges ↔
    c ∈ s.positionChanges ∨ c ∈ unstated ∧ s.isOpen c

namespace PortfolioState

lemma positionInfo_close_self (s : PortfolioState) (c : ℤ) (info : PositionInfo) :
    (s.close c info).positionInfo c = some info.squared :=
  AList.lookup_insert _

lemma positionInfo_close_ne (s : PortfolioState) {c c' : ℤ} (info : PositionInfo) (h : c' ≠ c) :
    (s.close c info).positionInfo c' = s.positionInfo c' :=
  AList.lookup_insert_ne h

lemma isOpen_close_ne (s : PortfolioState) {c c' : ℤ} (info : PositionInfo) (h : c' ≠ c) :
    (s.close c info).isOpen c' = s.isOpen c' := by
  rw [isOpen, isOpen, s.positionInfo_close_ne info h]

lemma mem_positionChanges_close {s : PortfolioState} {c c' : ℤ} {info : PositionInfo} :
    c' ∈ (s.close c info).positionChanges ↔ c' = c ∨ c' ∈ s.positionChanges :=
  Finset.mem_insert

lemma isOpen_iff {s : PortfolioState} {c : ℤ} :
    s.isOpen c = true ↔ ∃ info, s.positionInfo c = some info ∧ info.position ≠ .zero := by
  simp [isOpen, Option.any_eq_true]

lemma squareUnstated_walked : ∀ {unstated : List ℤ} (s : PortfolioState), unstated.Nodup →
    (s.squareUnstated unstated).1 = unstated.filter s.isOpen ∧
      Walked s (s.squareUnstated unstated).2 unstated
  | [], s, _ => ⟨rfl, rfl, rfl, rfl, by simp, fun _ _ => rfl, by simp [squareUnstated]⟩
  | c :: cs, s, h => by
      have hc : c ∉ cs := (List.nodup_cons.1 h).1
      have hcs : cs.Nodup := (List.nodup_cons.1 h).2
      by_cases hopen : s.isOpen c = true
      · obtain ⟨info, hinfo, hpos⟩ := isOpen_iff.1 hopen
        obtain ⟨hrest, hw⟩ := squareUnstated_walked (s.close c info) hcs
        have hwalk : s.squareUnstated (c :: cs) = (c :: ((s.close c info).squareUnstated cs).1,
            ((s.close c info).squareUnstated cs).2) := by
          simp only [squareUnstated, hinfo, if_neg hpos]
        have hsame : ∀ c' ∈ cs, (s.close c info).isOpen c' = s.isOpen c' := by
          intro c' hc'
          exact s.isOpen_close_ne info (ne_of_mem_of_not_mem hc' hc)
        rw [hwalk]
        refine ⟨?_, hw.complete, hw.awaiting, hw.under, ?_, ?_, ?_⟩
        · rw [List.filter_cons_of_pos hopen, hrest, List.filter_congr hsame]
        · intro c' hc' ho
          rcases List.mem_cons.1 hc' with rfl | hc'
          · rw [hw.kept c' fun hcon => hc hcon.1, s.positionInfo_close_self, hinfo, Option.map_some]
          · rw [hw.closed c' hc' ((hsame c' hc').trans ho),
              s.positionInfo_close_ne info (ne_of_mem_of_not_mem hc' hc)]
        · intro c' hc'
          have hne : c' ≠ c := fun he => hc' ⟨he ▸ List.mem_cons_self, he ▸ hopen⟩
          rw [hw.kept c' fun hcon => hc' ⟨List.mem_cons_of_mem c hcon.1,
            (s.isOpen_close_ne info hne) ▸ hcon.2⟩, s.positionInfo_close_ne info hne]
        · intro c'
          rw [hw.changes c', mem_positionChanges_close, List.mem_cons]
          by_cases hne : c' = c
          · simp [hne, hopen]
          · simp [hne, s.isOpen_close_ne info hne]
      · obtain ⟨hrest, hw⟩ := squareUnstated_walked s hcs
        have hwalk : s.squareUnstated (c :: cs) = s.squareUnstated cs := by
          simp only [squareUnstated]
          split
          case h_1 => rfl
          case h_2 info hinfo =>
            by_cases hpos : info.position = .zero
            · rw [if_pos hpos]
            · exact absurd (isOpen_iff.2 ⟨info, hinfo, hpos⟩) hopen
        have hskip : ∀ c', c' ∈ c :: cs ∧ s.isOpen c' = true ↔
            c' ∈ cs ∧ s.isOpen c' = true := by
          intro c'
          rw [List.mem_cons]
          exact ⟨fun hc' => ⟨hc'.1.resolve_left fun he => hopen (he ▸ hc'.2), hc'.2⟩,
            fun hc' => ⟨.inr hc'.1, hc'.2⟩⟩
        rw [hwalk]
        refine ⟨?_, hw.complete, hw.awaiting, hw.under, ?_, ?_, ?_⟩
        · rw [List.filter_cons_of_neg hopen, hrest]
        · exact fun c' hc' ho => hw.closed c' ((hskip c').1 ⟨hc', ho⟩).1 ho
        · exact fun c' hc' => hw.kept c' fun hcon => hc' ((hskip c').2 hcon)
        · intro c'
          rw [hw.changes c', hskip c']

end PortfolioState

/-! ## The calls, and the request a download waits on -/

inductive PortfolioCall where
  | accountDownloadIsPending
  | holdingsRestatedUnder (key : Bytes)
  | noteRestated (c : ℤ)
  | setPositionInfo (info : PositionInfo)
  | setPositionMarks (c : ℤ) (marketPrice marketValue unrealizedPnl realizedPnl : Option Price)
  | setAccountDownloadComplete (ends : Bytes)
  | accountDownloadIsSettled

def PortfolioState.step (s : PortfolioState) : PortfolioCall → PortfolioState
  | .accountDownloadIsPending => s.accountDownloadIsPending
  | .holdingsRestatedUnder key => s.holdingsRestatedUnder key
  | .noteRestated c => s.noteRestated c
  | .setPositionInfo info => s.setPositionInfo info
  | .setPositionMarks c price value unrealized realized =>
      s.setPositionMarks c price value unrealized realized
  | .setAccountDownloadComplete ends => (s.setAccountDownloadComplete ends).2
  | .accountDownloadIsSettled => s.accountDownloadIsSettled

structure Measuring where
  key : Bytes
  book : Finset ℤ
  named : Finset ℤ := ∅

structure Download where
  /-- Whether it was settled since it became pending. -/
  settled : Bool := false
  /-- The first request made since it became pending. -/
  first : Option Bytes := none
  /-- The request made while it was unsettled and none was outstanding, until its completion. -/
  outstanding : Option Measuring := none

def Download.follow (d : Download) (book : Finset ℤ) : PortfolioCall → Download
  | .accountDownloadIsPending => {}
  | .holdingsRestatedUnder key =>
      { d with
        first := d.first <|> some key
        outstanding := d.outstanding <|> if d.settled then none else some { key, book } }
  | .noteRestated c =>
      { d with outstanding := d.outstanding.map fun r => { r with named := insert c r.named } }
  | .setAccountDownloadComplete ends =>
      { d with outstanding := d.outstanding.filter fun r => r.key ≠ ends }
  | .accountDownloadIsSettled => { d with settled := true }
  | _ => d

/-- An account's holdings, and the download told beside them. -/
structure Downloading where
  state : PortfolioState := {}
  download : Download := {}

def Downloading.step (w : Downloading) (call : PortfolioCall) : Downloading where
  state := w.state.step call
  download := w.download.follow w.state.positionInfos.keys.toFinset call

/-- What a holding is stated at, nothing where none is on file. -/
def PortfolioState.quantity (s : PortfolioState) (c : ℤ) : Figure :=
  ((s.positionInfo c).map PositionInfo.position).getD .zero

def PortfolioState.basis (s : PortfolioState) (c : ℤ) : Price :=
  ((s.positionInfo c).map PositionInfo.avgCost).getD 0

/-- Whether a completion is to close a holding: it is of the request outstanding, which found the
holding in the book, it is open, and it was not named since. -/
def Downloading.Owes (w : Downloading) (ends : Bytes) (c : ℤ) : Prop :=
  ∃ r, w.download.outstanding = some r ∧ r.key = ends ∧ c ∈ r.book ∧ c ∉ r.named ∧
    w.state.isOpen c = true

/-- **A completion closes what is owed to it**, and nothing else. -/
structure Squares (w : Downloading) (ends : Bytes) (reported : List ℤ) (s' : PortfolioState) :
    Prop where
  reports : ∀ c, c ∈ reported ↔ w.Owes ends c
  once : reported.Nodup
  /-- Each is closed: quantity, basis and marks are zero. -/
  closed : ∀ c ∈ reported, ∃ info, w.state.positionInfo c = some info ∧
    s'.positionInfo c = some info.squared
  kept : ∀ c ∉ reported, s'.positionInfo c = w.state.positionInfo c
  changes : ∀ c, c ∈ s'.positionChanges ↔ c ∈ w.state.positionChanges ∨ c ∈ reported

/-- **What a call may close.**  A completion closes what is owed to it; a row states its own
holding's quantity and basis; every other call leaves every quantity and basis. -/
def ClosesOnly (w : Downloading) : PortfolioCall → Prop
  | .setAccountDownloadComplete ends =>
      Squares w ends ((w.state.setAccountDownloadComplete ends).1.getD [])
        (w.state.setAccountDownloadComplete ends).2
  | .setPositionInfo info =>
      (w.state.setPositionInfo info).quantity info.conId = info.position ∧
        ∀ c ≠ info.conId, (w.state.setPositionInfo info).positionInfo c = w.state.positionInfo c
  | call =>
      (∀ c, (w.state.step call).quantity c = w.state.quantity c ∧
        (w.state.step call).basis c = w.state.basis c) ∧
        (w.state.step call).positionChanges = w.state.positionChanges

/-! ## One call after another -/

structure Tracks (w : Downloading) : Prop where
  settled : w.state.accountDownloadComplete = w.download.settled
  under : w.state.restatingUnder = w.download.outstanding.map Measuring.key
  awaiting : ∀ c, c ∈ w.state.awaitingRestatement.1 ↔
    ∃ r, w.download.outstanding = some r ∧ c ∈ r.book ∧ c ∉ r.named

namespace Tracks

variable {w : Downloading}

lemma start : Tracks {} where
  settled := rfl
  under := rfl
  awaiting _ := by simp

lemma of_outstanding {s : PortfolioState} {d : Download} {r : Measuring}
    (hd : d.outstanding = some r) (hsettled : s.accountDownloadComplete = d.settled)
    (hunder : s.restatingUnder = some r.key)
    (hawaiting : ∀ c, c ∈ s.awaitingRestatement.1 ↔ c ∈ r.book ∧ c ∉ r.named) : Tracks ⟨s, d⟩ where
  settled := hsettled
  under := by rw [hunder, hd, Option.map_some]
  awaiting c := by simp [hawaiting, hd]

lemma of_none {s : PortfolioState} {d : Download} (hd : d.outstanding = none)
    (hsettled : s.accountDownloadComplete = d.settled) (hunder : s.restatingUnder = none)
    (hawaiting : s.awaitingRestatement.1 = []) : Tracks ⟨s, d⟩ where
  settled := hsettled
  under := by rw [hunder, hd, Option.map_none]
  awaiting c := by simp [hawaiting, hd]

lemma awaiting_eq_nil (h : Tracks w) (hout : w.download.outstanding = none) :
    w.state.awaitingRestatement.1 = [] := by
  refine List.eq_nil_iff_forall_not_mem.2 fun c hc => ?_
  obtain ⟨r, hr, -⟩ := (h.awaiting c).1 hc
  exact absurd (hout.symm.trans hr) (Option.some_ne_none r).symm

lemma holdingsRestatedUnder (h : Tracks w) (key : Bytes) :
    Tracks (w.step (.holdingsRestatedUnder key)) := by
  cases hout : w.download.outstanding with
  | some r =>
      have hunder : w.state.restatingUnder = some r.key := by rw [h.under, hout, Option.map_some]
      have hstay : w.state.holdingsRestatedUnder key = w.state := by
        simp [PortfolioState.holdingsRestatedUnder, hunder]
      refine of_outstanding (r := r) ?_ ?_ ?_ ?_
      · simp [Download.follow, hout]
      · exact (congrArg _ hstay).trans h.settled
      · exact (congrArg _ hstay).trans hunder
      · intro c
        rw [show (w.state.step (.holdingsRestatedUnder key)) = w.state from hstay, h.awaiting c, hout]
        simp
  | none =>
      have hunder : w.state.restatingUnder = none := by rw [h.under, hout, Option.map_none]
      cases hsettled : w.download.settled with
      | true =>
          have hstay : w.state.holdingsRestatedUnder key = w.state := by
            rw [PortfolioState.holdingsRestatedUnder, h.settled, hsettled, if_pos rfl]
          refine of_none ?_ ?_ ?_ ?_
          · simp [Download.follow, hout, hsettled]
          · exact (congrArg _ hstay).trans h.settled
          · exact (congrArg _ hstay).trans hunder
          · rw [show (w.state.step (.holdingsRestatedUnder key)) = w.state from hstay]
            exact h.awaiting_eq_nil hout
      | false =>
          have hcomplete := h.settled.trans hsettled
          have htaken : w.state.holdingsRestatedUnder key =
              { w.state with
                awaitingRestatement :=
                  ⟨w.state.positionInfos.keys, w.state.positionInfos.keys_nodup⟩
                restatingUnder := some key } := by
            simp [PortfolioState.holdingsRestatedUnder, hcomplete, hunder]
          refine of_outstanding (r := { key, book := w.state.positionInfos.keys.toFinset }) ?_ ?_ ?_ ?_
          · simp [Download.follow, hout, hsettled]
          · exact (congrArg _ htaken).trans h.settled
          · exact congrArg _ htaken
          · intro c
            rw [show (w.state.step (.holdingsRestatedUnder key)) = _ from htaken]
            simp

lemma noteRestated (h : Tracks w) (c : ℤ) : Tracks (w.step (.noteRestated c)) := by
  cases hout : w.download.outstanding with
  | none =>
      have hunder : w.state.restatingUnder = none := by rw [h.under, hout, Option.map_none]
      refine of_none ?_ h.settled hunder ?_
      · simp [Download.follow, hout]
      · simp [PortfolioState.step, PortfolioState.noteRestated, h.awaiting_eq_nil hout]
  | some r =>
      have hunder : w.state.restatingUnder = some r.key := by rw [h.under, hout, Option.map_some]
      refine of_outstanding (r := { r with named := insert c r.named }) ?_ h.settled hunder ?_
      · simp [Download.follow, hout]
      · intro c'
        have hc' := h.awaiting c'
        simp only [hout, Option.some.injEq, exists_eq_left'] at hc'
        simp only [PortfolioState.step, PortfolioState.noteRestated,
          w.state.awaitingRestatement.2.mem_erase_iff, hc', Finset.mem_insert, not_or]
        tauto

lemma setAccountDownloadComplete (h : Tracks w) (ends : Bytes) :
    Tracks (w.step (.setAccountDownloadComplete ends)) := by
  by_cases hends : w.state.restatingUnder = some ends
  · have hw := (PortfolioState.squareUnstated_walked
      { w.state with restatingUnder := none, awaitingRestatement := ⟨[], List.nodup_nil⟩ }
      w.state.awaitingRestatement.2).2
    have hdone : w.state.step (.setAccountDownloadComplete ends) = _ :=
      congrArg Prod.snd (if_pos hends)
    have hnone : (w.download.outstanding.filter fun r => r.key ≠ ends) = none := by
      rw [h.under, Option.map_eq_some_iff] at hends
      obtain ⟨r, hr, hkey⟩ := hends
      simp [hr, hkey]
    rw [Downloading.step, hdone]
    refine of_none hnone (hw.complete.trans h.settled) hw.under ?_
    rw [hw.awaiting]
  · have hstay : w.state.step (.setAccountDownloadComplete ends) = w.state :=
      congrArg Prod.snd (if_neg hends)
    have hsame : (w.download.outstanding.filter fun r => r.key ≠ ends) = w.download.outstanding := by
      cases hout : w.download.outstanding with
      | none => rfl
      | some r =>
          rw [h.under, hout, Option.map_some, Option.some.injEq] at hends
          exact if_pos (decide_eq_true hends)
    have hd : w.download.follow w.state.positionInfos.keys.toFinset
        (.setAccountDownloadComplete ends) = w.download := by
      simp only [Download.follow, hsame]
    rw [Downloading.step, hstay, hd]
    exact h

lemma step (h : Tracks w) : ∀ call, Tracks (w.step call)
  | .accountDownloadIsPending => of_none rfl rfl rfl rfl
  | .holdingsRestatedUnder key => h.holdingsRestatedUnder key
  | .noteRestated c => h.noteRestated c
  | .setPositionInfo _ => ⟨h.settled, h.under, h.awaiting⟩
  | .setPositionMarks _ _ _ _ _ => ⟨h.settled, h.under, h.awaiting⟩
  | .setAccountDownloadComplete ends => h.setAccountDownloadComplete ends
  | .accountDownloadIsSettled => ⟨rfl, h.under, h.awaiting⟩

lemma squares (h : Tracks w) (ends : Bytes) :
    Squares w ends ((w.state.setAccountDownloadComplete ends).1.getD [])
      (w.state.setAccountDownloadComplete ends).2 := by
  by_cases hends : w.state.restatingUnder = some ends
  · set s : PortfolioState :=
      { w.state with restatingUnder := none, awaitingRestatement := ⟨[], List.nodup_nil⟩ } with hs
    obtain ⟨hreported, hw⟩ :=
      PortfolioState.squareUnstated_walked s w.state.awaitingRestatement.2
    have hdone : w.state.setAccountDownloadComplete ends =
        (some (s.squareUnstated w.state.awaitingRestatement.1).1,
          (s.squareUnstated w.state.awaitingRestatement.1).2) := if_pos hends
    have hmem : ∀ c, c ∈ w.state.awaitingRestatement.1.filter s.isOpen ↔
        c ∈ w.state.awaitingRestatement.1 ∧ s.isOpen c = true := fun c => List.mem_filter
    rw [hdone, Option.getD_some, hreported]
    refine ⟨?_, w.state.awaitingRestatement.2.filter _, ?_, ?_, ?_⟩
    · intro c
      obtain ⟨r, hr, hkey⟩ := Option.map_eq_some_iff.1 (h.under ▸ hends)
      rw [hmem, h.awaiting]
      constructor
      · rintro ⟨⟨r', hr', hbook, hnamed⟩, hopen⟩
        obtain rfl : r = r' := Option.some.inj (hr.symm.trans hr')
        exact ⟨r, hr, hkey, hbook, hnamed, hopen⟩
      · rintro ⟨r', hr', -, hbook, hnamed, hopen⟩
        exact ⟨⟨r', hr', hbook, hnamed⟩, hopen⟩
    · intro c hc
      obtain ⟨info, hinfo, -⟩ := PortfolioState.isOpen_iff.1 ((hmem c).1 hc).2
      refine ⟨info, hinfo, ?_⟩
      rw [hw.closed c ((hmem c).1 hc).1 ((hmem c).1 hc).2, hinfo, Option.map_some]
    · exact fun c hc => hw.kept c fun hcon => hc ((hmem c).2 hcon)
    · intro c
      rw [hw.changes c, hmem]
  · have hstay : (w.state.setAccountDownloadComplete ends).2 = w.state :=
      congrArg Prod.snd (if_neg hends)
    have hnothing : (w.state.setAccountDownloadComplete ends).1.getD [] = [] := by
      rw [PortfolioState.setAccountDownloadComplete, if_neg hends]
      split_ifs <;> rfl
    rw [hstay, hnothing]
    refine ⟨?_, List.nodup_nil, by simp, fun _ _ => rfl, by simp⟩
    rintro c
    simp only [List.not_mem_nil, false_iff]
    rintro ⟨r, hr, hkey, -⟩
    exact hends (by rw [h.under, hr, Option.map_some, hkey])

end Tracks

namespace PortfolioState

variable (s : PortfolioState)

lemma positionInfo_setPositionInfo (info : PositionInfo) :
    (s.setPositionInfo info).positionInfo info.conId =
      some (((s.positionInfo info.conId).map fun existing => existing.written info).getD info) :=
  AList.lookup_insert _

lemma positionInfo_setPositionInfo_ne (info : PositionInfo) {c : ℤ} (h : c ≠ info.conId) :
    (s.setPositionInfo info).positionInfo c = s.positionInfo c :=
  AList.lookup_insert_ne h

lemma quantity_setPositionInfo (info : PositionInfo) :
    (s.setPositionInfo info).quantity info.conId = info.position := by
  rw [quantity, positionInfo_setPositionInfo, Option.map_some, Option.getD_some]
  cases s.positionInfo info.conId with
  | none => rfl
  | some existing =>
      simp only [Option.map_some, Option.getD_some, PositionInfo.written]
      split_ifs <;> rfl

lemma positionInfo_accountDownloadIsPending (c : ℤ) :
    s.accountDownloadIsPending.positionInfo c = (s.positionInfo c).map .unmarked :=
  lookup_mapRows _ _ _

lemma quantity_setPositionMarks (c c' : ℤ) (price value unrealized realized : Option Price) :
    (s.setPositionMarks c price value unrealized realized).quantity c' = s.quantity c' ∧
      (s.setPositionMarks c price value unrealized realized).basis c' = s.basis c' := by
  by_cases h : c' = c
  · subst h
    have hrow : (s.setPositionMarks c' price value unrealized realized).positionInfo c' =
        some (((s.positionInfo c').getD { conId := c' }).marked price value unrealized realized) :=
      AList.lookup_insert _
    simp only [quantity, basis, hrow, Option.map_some, Option.getD_some, PositionInfo.marked]
    cases s.positionInfo c' <;> exact ⟨rfl, rfl⟩
  · have hrow : (s.setPositionMarks c price value unrealized realized).positionInfo c' =
        s.positionInfo c' := AList.lookup_insert_ne h
    simp only [quantity, basis, hrow, and_self]

lemma holdingsRestatedUnder_rows (key : Bytes) :
    (s.holdingsRestatedUnder key).positionInfos = s.positionInfos ∧
      (s.holdingsRestatedUnder key).positionChanges = s.positionChanges := by
  unfold holdingsRestatedUnder
  split_ifs <;> exact ⟨rfl, rfl⟩

end PortfolioState

variable {w : Downloading}

lemma Tracks.closesOnly (h : Tracks w) : ∀ call, ClosesOnly w call
  | .setAccountDownloadComplete ends => h.squares ends
  | .setPositionInfo info => ⟨w.state.quantity_setPositionInfo info,
      fun _ hc => w.state.positionInfo_setPositionInfo_ne info hc⟩
  | .accountDownloadIsPending => by
      refine ⟨fun c => ?_, rfl⟩
      simp only [PortfolioState.step, PortfolioState.quantity, PortfolioState.basis,
        w.state.positionInfo_accountDownloadIsPending]
      cases w.state.positionInfo c <;> exact ⟨rfl, rfl⟩
  | .holdingsRestatedUnder key => by
      obtain ⟨hrows, hchanges⟩ := w.state.holdingsRestatedUnder_rows key
      refine ⟨fun c => ?_, hchanges⟩
      simp only [PortfolioState.step, PortfolioState.quantity, PortfolioState.basis,
        PortfolioState.positionInfo, hrows, and_self]
  | .noteRestated _ => ⟨fun _ => ⟨rfl, rfl⟩, rfl⟩
  | .setPositionMarks c price value unrealized realized =>
      ⟨fun c' => w.state.quantity_setPositionMarks c c' price value unrealized realized, rfl⟩
  | .accountDownloadIsSettled => ⟨fun _ => ⟨rfl, rfl⟩, rfl⟩

/-! ## The first request -/

/-- No request has ended without the download being settled. -/
def Downloading.Even (w : Downloading) : Prop :=
  w.download.outstanding = none → w.download.first.isSome → w.download.settled = true

/-- A request comes behind the settling of the one before it, as the end of a batch settles a
download whose request it ends. -/
def Prompt (w : Downloading) : PortfolioCall → Prop
  | .holdingsRestatedUnder _ => w.Even
  | _ => True

/-- The request outstanding is the first made since the download became pending. -/
def Downloading.AsksFirst (w : Downloading) : Prop :=
  ∀ r, w.download.outstanding = some r → w.download.first = some r.key

lemma Downloading.AsksFirst.step (h : w.AsksFirst) :
    ∀ {call}, Prompt w call → (w.step call).AsksFirst
  | .accountDownloadIsPending, _ => by
      rintro r hr
      cases hr
  | .holdingsRestatedUnder key, hp => by
      rintro r hr
      simp only [Downloading.step, Download.follow] at hr ⊢
      cases hout : w.download.outstanding with
      | some r' =>
          obtain rfl : r' = r := by simpa [hout] using hr
          rw [h r' hout]
          rfl
      | none =>
          cases hsettled : w.download.settled with
          | true => simp [hout, hsettled] at hr
          | false =>
              have hfirst : w.download.first = none := by
                by_contra hne
                exact absurd (hp hout (Option.isSome_iff_ne_none.2 hne)) (by simp [hsettled])
              simp only [hout, hsettled] at hr
              cases hr
              rw [hfirst]
              rfl
  | .noteRestated c, _ => by
      rintro r hr
      obtain ⟨r', hr', rfl⟩ := Option.map_eq_some_iff.1 hr
      exact h r' hr'
  | .setPositionInfo _, _ => h
  | .setPositionMarks _ _ _ _ _, _ => h
  | .setAccountDownloadComplete ends, _ => by
      rintro r hr
      exact h r (Option.eq_some_of_filter_eq_some hr)
  | .accountDownloadIsSettled, _ => h

/-- **The end of a download closes exactly what the venue no longer states.**  In every run a
completion closes the holdings owed to it and no other call closes one; and where each request comes
behind the settling of the one before it, the completion is of the first request made since the
download became pending. -/
theorem download_closes_unstated (calls : List PortfolioCall) :
    Along Downloading.step ClosesOnly {} calls ∧
      (Along Downloading.step Prompt {} calls → (run Downloading.step {} calls).AsksFirst) := by
  refine ⟨?_, fun hprompt => ?_⟩
  · have hany : Along Downloading.step (fun _ _ => True) {} calls :=
      .of_forall (fun _ _ => trivial) _ _
    exact hany.mono (fun _ call h _ => h.step call) (fun _ call h _ => h.closesOnly call)
      Tracks.start
  · exact Along.invariant (fun _ _ h hp => h.step hp) (fun _ hr => by cases hr) hprompt

def oneShare : PositionInfo := { conId := 7, position := .number 1 }

/-- A second request between the first one's end and its settling, and a row of nothing. -/
def unsettledDownload : List PortfolioCall :=
  [.setPositionInfo oneShare, .holdingsRestatedUnder (ascii "AR.1"),
    .setAccountDownloadComplete (ascii "AR.1"), .setPositionInfo oneShare,
    .holdingsRestatedUnder (ascii "AR.2")]

/-- A completion that is not of the first request closes a holding, and so does a row that states a
quantity of nothing. -/
theorem closed_by_the_second_request :
    let w := run Downloading.step {} unsettledDownload
    w.download.first = some (ascii "AR.1") ∧
      (w.state.setAccountDownloadComplete (ascii "AR.2")).1 = some [7] ∧
      w.state.isOpen 7 = true ∧
      (w.state.setPositionInfo { oneShare with position := .zero }).isOpen 7 = false := by
  decide

end IbkrDx
