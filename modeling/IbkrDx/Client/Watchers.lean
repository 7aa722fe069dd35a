import Mathlib.Data.Finset.Image
import IbkrDx.Lib.Runs

/-!
# Who watches which slot

The maps of `client_core/mod.rs` that say which requests are served on which slot: one request holds
the subscription of a slot, and the others follow it.

* **`watchers_right`** — every run keeps it, and says what each withdrawal and each release does.

What a request is told is kept as the numbers it was told under.
-/

namespace IbkrDx

inductive OptionTickKind where
  | bid
  | ask
  | last
  | model
  deriving DecidableEq

structure MarketDataTaken where
  reqId : ℤ
  slot : ℕ
  /-- The occupancy of the slot it is served under. -/
  generation : ℕ
  conId : ℤ
  series : List ℕ := []
  snapshot : Bool := false
  oneShot : Bool := false
  dataType : ℤ := 1

/-- What a request asking for a contract ended up as. -/
inductive Joined where
  | took
  | tookFromTheOneShot
  | watching
  deriving DecidableEq

/-- The client's record of its market-data requests. -/
structure ClientCore where
  /-- The one request each slot's subscription belongs to. -/
  holders : ℕ → Option ℤ := fun _ => none
  following : ℕ → List ℤ := fun _ => []
  byReq : ℤ → Option ℕ := fun _ => none
  oneShot : Finset ℤ := ∅
  series : ℤ → Option (List ℕ) := fun _ => none
  takenOn : ℕ → Option ℕ := fun _ => none
  tookContract : ℕ → Option ℤ := fun _ => none
  epoch : ℤ → Option ℕ := fun _ => none
  epochs : ℕ := 1
  snapshotReqs : Finset ℤ := ∅
  tickReqParamsSent : Finset ℤ := ∅
  optionTicksSent : Finset (ℤ × OptionTickKind) := ∅
  quotesShown : Finset ℤ := ∅
  mdtSent : Finset ℤ := ∅
  mdtByInstrument : ℕ → Option ℤ := fun _ => none
  lastQuotes : Finset ℕ := ∅
  conIdToInstrument : ℤ → Option ℕ := fun _ => none

namespace ClientCore

/-- Every request watching a contract, the one holding the subscription first. -/
def watchersOf (s : ClientCore) (i : ℕ) : List ℤ := (s.holders i).toList ++ s.following i

/-- The contract's slot is cached, unless the contract carries no number. -/
def cacheInstrument (s : ClientCore) (conId : ℤ) (i : ℕ) : ClientCore :=
  if conId ≠ 0 then
    { s with conIdToInstrument := Function.update s.conIdToInstrument conId (some i) }
  else s

/-- A request watches a slot somebody else holds. -/
def watches (s : ClientCore) (i : ℕ) (r : ℤ) : ClientCore :=
  if r ∈ s.following i then s
  else { s with following := Function.update s.following i (s.following i ++ [r]) }

def noteSeries (s : ClientCore) (r : ℤ) (series : List ℕ) : ClientCore :=
  if series = [] then s else { s with series := Function.update s.series r (some series) }

def stampRegistration (s : ClientCore) (r : ℤ) : ClientCore :=
  { s with epoch := Function.update s.epoch r (some s.epochs), epochs := s.epochs + 1 }

def hold (s : ClientCore) (i : ℕ) (r : ℤ) (takenOn : ℕ) (conId : ℤ) : ClientCore :=
  { s with
    holders := Function.update s.holders i (some r)
    takenOn := Function.update s.takenOn i (some takenOn)
    tookContract := Function.update s.tookContract i (some conId) }

def pointAt (s : ClientCore) (r : ℤ) (i : ℕ) : ClientCore :=
  { s with byReq := Function.update s.byReq r (some i) }

/-- A request joins the slot somebody else holds, unless the one-shot holds it. -/
def followsExistingSubscription (s : ClientCore) (i : ℕ) (r : ℤ) (series : List ℕ) :
    Option ClientCore :=
  match s.holders i with
  | none => none
  | some existing =>
      if existing = r ∨ existing ∈ s.oneShot then none
      else some ((((s.watches i r).pointAt r i).noteSeries r series).stampRegistration r)

/-- `Ownership::take_or_follow`: hold the contract, or watch whoever took it first. -/
def ownershipTakeOrFollow (s : ClientCore) (i : ℕ) (r : ℤ) (series : List ℕ) (takenOn : ℕ) (conId : ℤ) :
    Joined × ClientCore :=
  let s := s.noteSeries r series
  match s.holders i with
  | none => (.took, (s.hold i r takenOn conId).pointAt r i)
  | some existing =>
      if r ∉ s.oneShot ∧ existing ∈ s.oneShot then
        (.tookFromTheOneShot, ((s.hold i r takenOn conId).watches i existing).pointAt r i)
      else if existing ≠ r then (.watching, (s.watches i r).pointAt r i)
      else (.took, (s.hold i r takenOn conId).pointAt r i)

/-- Hold the contract, or follow whoever took it first: whether it ended up a follower. -/
def takeOrFollow (s : ClientCore) (i : ℕ) (r : ℤ) (series : List ℕ) (askedOn : ℕ) (conId : ℤ) :
    Bool × ClientCore :=
  let (joined, s) := s.ownershipTakeOrFollow i r series askedOn conId
  (joined = .watching, if joined ≠ .took then s.stampRegistration r else s)

/-- What a request joining an option is sent of the model that stands: nothing where none does, and
what it is shown is decided only off a feed that is not delayed. -/
def tellModel (s : ClientCore) (r : ℤ) : Option Bool → ClientCore
  | none => s
  | some delayed =>
      { s with
        quotesShown := if delayed then s.quotesShown else insert r s.quotesShown
        optionTicksSent := insert (r, .model) s.optionTicksSent }

/-- What is written down of a request before it joins anything. -/
def noteAsked (s : ClientCore) (t : MarketDataTaken) : ClientCore :=
  { s.cacheInstrument t.conId t.slot with
    oneShot := if t.oneShot then insert t.reqId s.oneShot else s.oneShot
    snapshotReqs := if t.snapshot then insert t.reqId s.snapshotReqs else s.snapshotReqs }

def joinsStream (s : ClientCore) (t : MarketDataTaken) : Option ClientCore :=
  if t.oneShot then none else s.followsExistingSubscription t.slot t.reqId t.series

/-- A request that joined the stream is told what stands. -/
def tellJoiner (s : ClientCore) (t : MarketDataTaken) (model : Option Bool) : ClientCore :=
  ({ s with lastQuotes := s.lastQuotes.erase t.slot }).tellModel t.reqId model

def takeSlot (s : ClientCore) (t : MarketDataTaken) : ClientCore :=
  let s := (s.takeOrFollow t.slot t.reqId t.series t.generation t.conId).2.stampRegistration t.reqId
  { s with
    mdtByInstrument := Function.update s.mdtByInstrument t.slot
      (some ((s.mdtByInstrument t.slot).getD t.dataType)) }

/-- Write down a request the engine has taken.  `model` says whether the slot's option model stands
under its present occupancy, and whether the feed is delayed. -/
def noteMktDataTaken (s : ClientCore) (t : MarketDataTaken) (model : Option Bool) : ClientCore :=
  match (s.noteAsked t).joinsStream t with
  | some s => s.tellJoiner t model
  | none => (s.noteAsked t).takeSlot t

def forgetMarks (s : ClientCore) (r : ℤ) : ClientCore :=
  { s with
    oneShot := s.oneShot.erase r
    series := Function.update s.series r none
    epoch := Function.update s.epoch r none
    snapshotReqs := s.snapshotReqs.erase r
    tickReqParamsSent := s.tickReqParamsSent.erase r
    optionTicksSent := s.optionTicksSent.filter (·.1 ≠ r)
    quotesShown := s.quotesShown.erase r
    mdtSent := s.mdtSent.erase r }

/-- A number points at no slot, and nothing is filed under it. -/
def forgetRequest (s : ClientCore) (r : ℤ) : ClientCore :=
  { s.forgetMarks r with byReq := Function.update s.byReq r none }

/-- Everything filed under a slot goes, those who follow its holder apart. -/
def forgetSlot (s : ClientCore) (i : ℕ) : ClientCore :=
  { s with
    holders := Function.update s.holders i none
    takenOn := Function.update s.takenOn i none
    tookContract := Function.update s.tookContract i none
    lastQuotes := s.lastQuotes.erase i
    mdtByInstrument := Function.update s.mdtByInstrument i none
    conIdToInstrument := fun c => (s.conIdToInstrument c).filter (· ≠ i) }

/-- A request leaves its slot, handing it to the first that follows where it held it. -/
def leaveSlot (s : ClientCore) (r : ℤ) (i : ℕ) : ClientCore :=
  if r ∈ s.following i then
    { s with following := Function.update s.following i ((s.following i).filter (· ≠ r)) }
  else
    match s.following i with
    | [] => s.forgetSlot i
    | next :: rest =>
        { s with
          holders := Function.update s.holders i (some next)
          following := Function.update s.following i (rest.filter (· ≠ next)) }

/-- Forget a request, where its withdrawal stands in the session's order. -/
def unregisterMktData (s : ClientCore) (r : ℤ) : ClientCore :=
  match s.byReq r with
  | none => s.forgetRequest r
  | some i => (s.forgetRequest r).leaveSlot r i

/-- A watcher of a slot that is given back is forgotten, where it still points there. -/
def forgetWatcher (s : ClientCore) (i : ℕ) (r : ℤ) : ClientCore :=
  if s.byReq r = some i then s.forgetRequest r else s.forgetMarks r

/-- Forget everyone watching a slot the engine has taken back, unless it was taken again since. -/
def forgetWatchersOf (s : ClientCore) (i releasedAt : ℕ) : ClientCore :=
  if (s.takenOn i).any (· ≠ releasedAt) then s
  else
    let s := (s.watchersOf i).foldl (·.forgetWatcher i ·) s
    { s.forgetSlot i with following := Function.update s.following i [] }

def forgetReleasedSlots (s : ClientCore) (released : List (ℕ × ℕ)) : ClientCore :=
  released.foldl (fun s slot => s.forgetWatchersOf slot.1 slot.2) s

/-! ## What a watcher is told -/

def checkMdtNeeded (s : ClientCore) (r : ℤ) : ClientCore := { s with mdtSent := insert r s.mdtSent }

/-- The parameters of its subscription go to a request once, while it watches. -/
def shouldSendTickReqParams (s : ClientCore) (r : ℤ) : ClientCore :=
  if s.byReq r ≠ none then { s with tickReqParamsSent := insert r s.tickReqParamsSent } else s

/-- One watcher of an option is decided what it is shown, and sent what it is owed. -/
def oweOptionTick (s : ClientCore) (kind : OptionTickKind) (delayed : Bool) (changed : Finset ℤ)
    (r : ℤ) : ClientCore :=
  { s with
    quotesShown := if delayed then s.quotesShown else insert r s.quotesShown
    optionTicksSent :=
      if kind = .model ∨ r ∈ changed then insert (r, kind) s.optionTicksSent
      else s.optionTicksSent }

/-- An option computation, to every request watching the option; it changes what `changed` were
sent. -/
def optionTickOwed (s : ClientCore) (i : ℕ) (kind : OptionTickKind) (delayed : Bool)
    (changed : Finset ℤ) : ClientCore :=
  (s.watchersOf i).foldl (·.oweOptionTick kind delayed changed ·) s

/-- A quote of a slot is told, and each that watches it is told its feed. -/
def deliverQuotes (s : ClientCore) (i : ℕ) : ClientCore :=
  (s.watchersOf i).foldl checkMdtNeeded { s with lastQuotes := insert i s.lastQuotes }

/-! ## Nothing is filed under a number that watches nothing -/

/-- No table keeps an entry under a number. -/
structure Unmarked (s : ClientCore) (r : ℤ) : Prop where
  oneShot : r ∉ s.oneShot
  series : s.series r = none
  epoch : s.epoch r = none
  snapshotReqs : r ∉ s.snapshotReqs
  tickReqParamsSent : r ∉ s.tickReqParamsSent
  optionTicksSent : ∀ kind, (r, kind) ∉ s.optionTicksSent
  quotesShown : r ∉ s.quotesShown
  mdtSent : r ∉ s.mdtSent

/-- Who watches what is as it was, and nothing is filed under any number but `r`. -/
structure FilesUnder (s s' : ClientCore) (r : ℤ) : Prop where
  holders : s'.holders = s.holders
  following : s'.following = s.following
  byReq : s'.byReq = s.byReq
  takenOn : s'.takenOn = s.takenOn
  oneShot : ∀ q ≠ r, q ∈ s'.oneShot ↔ q ∈ s.oneShot
  unmarked : ∀ q ≠ r, s.Unmarked q → s'.Unmarked q

lemma FilesUnder.refl (s : ClientCore) (r : ℤ) : FilesUnder s s r :=
  ⟨rfl, rfl, rfl, rfl, fun _ _ => Iff.rfl, fun _ _ h => h⟩

variable {s : ClientCore} {r : ℤ}

variable {s' : ClientCore}

lemma FilesUnder.trans {s'' : ClientCore} (h : FilesUnder s s' r)
    (h' : FilesUnder s' s'' r) : FilesUnder s s'' r :=
  ⟨h'.holders.trans h.holders, h'.following.trans h.following, h'.byReq.trans h.byReq,
    h'.takenOn.trans h.takenOn, fun q hq => (h'.oneShot q hq).trans (h.oneShot q hq), fun q hq hun => h'.unmarked q hq (h.unmarked q hq hun)⟩

lemma filesUnder_noteSeries (s : ClientCore) (r : ℤ) (series : List ℕ) :
    FilesUnder s (s.noteSeries r series) r := by
  unfold noteSeries
  split_ifs
  · exact .refl s r
  · refine ⟨rfl, rfl, rfl, rfl, fun _ _ => Iff.rfl, fun q hq h => { h with series := ?_ }⟩
    exact (Function.update_of_ne hq _ _).trans h.series

lemma filesUnder_stampRegistration (s : ClientCore) (r : ℤ) :
    FilesUnder s (s.stampRegistration r) r := by
  refine ⟨rfl, rfl, rfl, rfl, fun _ _ => Iff.rfl, fun q hq h => { h with epoch := ?_ }⟩
  exact (Function.update_of_ne hq _ _).trans h.epoch

lemma notMem_insert_of_ne {α : Type*} [DecidableEq α] {a b : α} {t : Finset α} (hne : a ≠ b)
    (ha : a ∉ t) : a ∉ insert b t := by
  rw [Finset.mem_insert, not_or]
  exact ⟨hne, ha⟩

lemma filesUnder_tellModel (s : ClientCore) (r : ℤ) (model : Option Bool) :
    FilesUnder s (s.tellModel r model) r := by
  cases model with
  | none => exact .refl s r
  | some delayed =>
    refine ⟨rfl, rfl, rfl, rfl, fun _ _ => Iff.rfl, fun q hq h =>
      { h with optionTicksSent := fun kind => ?_, quotesShown := ?_ }⟩
    · exact notMem_insert_of_ne (fun he => hq (Prod.mk.inj he).1) (h.optionTicksSent kind)
    · simp only [tellModel]
      split_ifs
      · exact h.quotesShown
      · exact notMem_insert_of_ne hq h.quotesShown

lemma filesUnder_cacheInstrument (s : ClientCore) (conId : ℤ) (i : ℕ) (r : ℤ) :
    FilesUnder s (s.cacheInstrument conId i) r := by
  unfold cacheInstrument
  split_ifs
  · exact ⟨rfl, rfl, rfl, rfl, fun _ _ => Iff.rfl, fun q _ h => { h with }⟩
  · exact .refl s r

lemma filesUnder_noteAsked (s : ClientCore) (t : MarketDataTaken) :
    FilesUnder s (s.noteAsked t) t.reqId := by
  have hcache := s.filesUnder_cacheInstrument t.conId t.slot t.reqId
  have hkeep (q : ℤ) (hq : q ≠ t.reqId) (b : Bool) (marks : Finset ℤ) :
      q ∈ (if b then insert t.reqId marks else marks) ↔ q ∈ marks := by
    split_ifs
    · simp [hq]
    · exact Iff.rfl
  refine ⟨hcache.holders, hcache.following, hcache.byReq, hcache.takenOn,
    fun q hq => hkeep q hq t.oneShot s.oneShot, fun q hq h => ?_⟩
  have hcached := hcache.unmarked q hq h
  exact { hcached with
    oneShot := fun hin => h.oneShot ((hkeep q hq t.oneShot _).mp hin)
    snapshotReqs := fun hin => h.snapshotReqs ((hkeep q hq t.snapshot _).mp hin) }

/-! ## How a request joins a slot -/

/-- The three ways a request joins a slot: it takes it, it takes it from the one-shot that held it,
or it follows who holds it. -/
inductive Seated (s s' : ClientCore) (i : ℕ) (r : ℤ) : Prop
  | took (hfree : s.holders i = none) (hholders : s'.holders = Function.update s.holders i (some r))
      (hfollowing : s'.following = s.following)
  | displaced (existing : ℤ) (hheld : s.holders i = some existing) (hone : existing ∈ s'.oneShot)
      (hholders : s'.holders = Function.update s.holders i (some r))
      (hfollowing : s'.following
        = Function.update s.following i (s.following i ++ [existing])) (hr : r ∉ s'.oneShot)
  | follows (existing : ℤ) (hheld : s.holders i = some existing)
      (hjoin : r ∈ s'.oneShot ∨ existing ∉ s'.oneShot) (hholders : s'.holders = s.holders)
      (hfollowing : s'.following = Function.update s.following i (s.following i ++ [r]))

/-- A request joins a slot, and what is said of every other request stays. -/
structure Joins (s s' : ClientCore) (i : ℕ) (r : ℤ) : Prop where
  seated : Seated s s' i r
  byReq : s'.byReq = Function.update s.byReq r (some i)
  oneShot : ∀ q ≠ r, q ∈ s'.oneShot ↔ q ∈ s.oneShot
  takenOn : (∀ j, s.holders j ≠ none → s.takenOn j ≠ none) →
    ∀ j, s'.holders j ≠ none → s'.takenOn j ≠ none
  unmarked : ∀ q ≠ r, s.Unmarked q → s'.Unmarked q

variable {i : ℕ}

lemma Joins.after {s₀ : ClientCore} (h : Joins s s' i r)
    (hfiles : FilesUnder s₀ s r) : Joins s₀ s' i r where
  seated := by
    cases h.seated with
    | took hfree hholders hfollowing =>
      exact .took (hfiles.holders ▸ hfree) (hfiles.holders ▸ hholders)
        (hfollowing.trans hfiles.following)
    | displaced existing hheld hone hholders hfollowing hr =>
      exact .displaced existing (hfiles.holders ▸ hheld) hone (hfiles.holders ▸ hholders)
        (hfiles.following ▸ hfollowing) hr
    | follows existing hheld hjoin hholders hfollowing =>
      exact .follows existing (hfiles.holders ▸ hheld) hjoin (hholders.trans hfiles.holders)
        (hfiles.following ▸ hfollowing)
  byReq := hfiles.byReq ▸ h.byReq
  oneShot q hq := (h.oneShot q hq).trans (hfiles.oneShot q hq)
  takenOn hs := h.takenOn fun j hj => hfiles.takenOn ▸ hs j (hfiles.holders ▸ hj)
  unmarked q hq hun := h.unmarked q hq (hfiles.unmarked q hq hun)

lemma Joins.files {s'' : ClientCore} (h : Joins s s' i r)
    (hfiles : FilesUnder s' s'' r) (hone : s''.oneShot = s'.oneShot) : Joins s s'' i r where
  seated := by
    cases h.seated with
    | took hfree hholders hfollowing =>
      exact .took hfree (hfiles.holders.trans hholders) (hfiles.following.trans hfollowing)
    | displaced existing hheld hex hholders hfollowing hr =>
      exact .displaced existing hheld (hone ▸ hex) (hfiles.holders.trans hholders)
        (hfiles.following.trans hfollowing) (hone ▸ hr)
    | follows existing hheld hjoin hholders hfollowing =>
      exact .follows existing hheld (hone ▸ hjoin) (hfiles.holders.trans hholders)
        (hfiles.following.trans hfollowing)
  byReq := hfiles.byReq.trans h.byReq
  oneShot q hq := hone ▸ h.oneShot q hq
  takenOn hs j hj := hfiles.takenOn ▸ h.takenOn hs j (hfiles.holders ▸ hj)
  unmarked q hq hun := hfiles.unmarked q hq (h.unmarked q hq hun)

lemma joins_hold (hfree : s.holders i = none) (takenOn : ℕ)
    (conId : ℤ) : Joins s ((s.hold i r takenOn conId).pointAt r i) i r where
  seated := .took hfree rfl rfl
  byReq := rfl
  oneShot _ _ := Iff.rfl
  takenOn hs j hj := by
    simp only [hold, pointAt, ne_eq, Function.update_apply] at hj ⊢
    split_ifs at hj ⊢
    · exact nofun
    · exact hs j hj
  unmarked q _ h := { h with }

lemma joins_displace {existing : ℤ} (hheld : s.holders i = some existing)
    (hone : existing ∈ s.oneShot) (hr : r ∉ s.oneShot) (hnew : existing ∉ s.following i)
    (takenOn : ℕ) (conId : ℤ) :
    Joins s (((s.hold i r takenOn conId).watches i existing).pointAt r i) i r := by
  have hwatches : (s.hold i r takenOn conId).watches i existing
      = { s.hold i r takenOn conId with
          following := Function.update s.following i (s.following i ++ [existing]) } :=
    if_neg hnew
  rw [hwatches]
  refine ⟨.displaced existing hheld hone rfl rfl hr, rfl, fun _ _ => Iff.rfl, fun hs j hj => ?_,
    fun q _ h => { h with }⟩
  simp only [hold, pointAt, ne_eq, Function.update_apply] at hj ⊢
  split_ifs at hj ⊢
  · exact nofun
  · exact hs j hj

lemma joins_watches {existing : ℤ} (hheld : s.holders i = some existing)
    (hjoin : r ∈ s.oneShot ∨ existing ∉ s.oneShot) (hnew : r ∉ s.following i) :
    Joins s ((s.watches i r).pointAt r i) i r := by
  have hwatches : s.watches i r
      = { s with following := Function.update s.following i (s.following i ++ [r]) } :=
    if_neg hnew
  rw [hwatches]
  exact ⟨.follows existing hheld hjoin rfl rfl, rfl, fun _ _ => Iff.rfl, fun hs => hs,
    fun q _ h => { h with }⟩

lemma mem_watchersOf :
    r ∈ s.watchersOf i ↔ s.holders i = some r ∨ r ∈ s.following i := by
  simp [watchersOf, Option.mem_toList, eq_comm]

lemma notMem_following (honce : (s.watchersOf i).Nodup)
    (hheld : s.holders i = some r) : r ∉ s.following i := by
  simp only [watchersOf, hheld, Option.toList_some, List.singleton_append, List.nodup_cons] at honce
  exact honce.1

lemma joins_ownershipTakeOrFollow (hnew : r ∉ s.watchersOf i)
    (honce : (s.watchersOf i).Nodup) (series : List ℕ) (takenOn : ℕ) (conId : ℤ) :
    Joins s (s.ownershipTakeOrFollow i r series takenOn conId).2 i r := by
  have hfiles := s.filesUnder_noteSeries r series
  have hone : (s.noteSeries r series).oneShot = s.oneShot := by
    unfold noteSeries
    split_ifs <;> rfl
  rw [mem_watchersOf, not_or] at hnew
  refine Joins.after ?_ hfiles
  unfold ownershipTakeOrFollow
  cases hheld : s.holders i with
  | none =>
    simp only [hfiles.holders, hheld]
    exact joins_hold (hfiles.holders ▸ hheld) takenOn conId
  | some existing =>
    have hheld' : (s.noteSeries r series).holders i = some existing := hfiles.holders ▸ hheld
    have hnew' : r ∉ (s.noteSeries r series).following i := hfiles.following ▸ hnew.2
    have hother : existing ≠ r := fun he => hnew.1 (he ▸ hheld)
    simp only [hheld']
    split_ifs with htakes
    · exact joins_displace hheld' htakes.2 htakes.1
        (hfiles.following ▸ notMem_following honce hheld) takenOn conId
    · refine joins_watches hheld' ?_ hnew'
      rw [not_and_or, not_not] at htakes
      exact htakes

lemma joins_followsExistingSubscription {series : List ℕ}
    (hnew : r ∉ s.watchersOf i) (h : s.followsExistingSubscription i r series = some s') :
    Joins s s' i r := by
  rw [mem_watchersOf, not_or] at hnew
  cases hheld : s.holders i with
  | none => simp [followsExistingSubscription, hheld] at h
  | some existing =>
    simp only [followsExistingSubscription, hheld] at h
    split_ifs at h with hno
    rw [not_or] at hno
    cases h
    refine ((joins_watches hheld (.inr hno.2) hnew.2).files (filesUnder_noteSeries _ r series)
      ?_).files (filesUnder_stampRegistration _ r) rfl
    unfold noteSeries
    split_ifs <;> rfl

lemma joins_takeSlot {t : MarketDataTaken} (hnew : t.reqId ∉ s.watchersOf t.slot)
    (honce : (s.watchersOf t.slot).Nodup) : Joins s (s.takeSlot t) t.slot t.reqId := by
  have htook := joins_ownershipTakeOrFollow hnew honce t.series t.generation t.conId
  have hstamped : Joins s (s.takeOrFollow t.slot t.reqId t.series t.generation t.conId).2 t.slot
      t.reqId := by
    unfold takeOrFollow
    dsimp only
    split_ifs
    · exact htook.files (filesUnder_stampRegistration _ t.reqId) rfl
    · exact htook
  exact (hstamped.files (filesUnder_stampRegistration _ t.reqId) rfl).files
    ⟨rfl, rfl, rfl, rfl, fun _ _ => Iff.rfl, fun _ _ h => { h with }⟩ rfl

lemma filesUnder_tellJoiner (s : ClientCore) (t : MarketDataTaken) (model : Option Bool) :
    FilesUnder s (s.tellJoiner t model) t.reqId := by
  have hfirst : FilesUnder s { s with lastQuotes := s.lastQuotes.erase t.slot } t.reqId :=
    ⟨rfl, rfl, rfl, rfl, fun _ _ => Iff.rfl, fun _ _ h => { h with }⟩
  exact hfirst.trans (filesUnder_tellModel _ t.reqId model)

lemma joins_noteMktDataTaken {t : MarketDataTaken}
    (hnew : t.reqId ∉ s.watchersOf t.slot) (honce : (s.watchersOf t.slot).Nodup)
    (model : Option Bool) : Joins s (s.noteMktDataTaken t model) t.slot t.reqId := by
  have hasked := s.filesUnder_noteAsked t
  have hsame : (s.noteAsked t).watchersOf t.slot = s.watchersOf t.slot := by
    rw [watchersOf, watchersOf, hasked.holders, hasked.following]
  refine Joins.after ?_ hasked
  rw [← hsame] at hnew honce
  cases hjoins : (s.noteAsked t).joinsStream t with
  | some s' =>
    simp only [noteMktDataTaken, hjoins]
    have hjoined : Joins (s.noteAsked t) s' t.slot t.reqId := by
      unfold joinsStream at hjoins
      split_ifs at hjoins
      exact joins_followsExistingSubscription hnew hjoins
    refine hjoined.files (filesUnder_tellJoiner s' t model) ?_
    cases model <;> rfl
  | none =>
    simp only [noteMktDataTaken, hjoins]
    exact joins_takeSlot hnew honce

/-! ## How requests leave their slots -/

lemma unmarked_forgetMarks (s : ClientCore) (r : ℤ) : (s.forgetMarks r).Unmarked r where
  oneShot := Finset.notMem_erase _ _
  series := Function.update_self ..
  epoch := Function.update_self ..
  snapshotReqs := Finset.notMem_erase _ _
  tickReqParamsSent := Finset.notMem_erase _ _
  optionTicksSent kind := by simp [forgetMarks]
  quotesShown := Finset.notMem_erase _ _
  mdtSent := Finset.notMem_erase _ _

lemma Unmarked.forgetMarks {q : ℤ} (h : s.Unmarked q) (r : ℤ) :
    (s.forgetMarks r).Unmarked q where
  oneShot hq := h.oneShot (Finset.mem_of_mem_erase hq)
  series := by
    simp only [ClientCore.forgetMarks, Function.update_apply, h.series, ite_self]
  epoch := by
    simp only [ClientCore.forgetMarks, Function.update_apply, h.epoch, ite_self]
  snapshotReqs hq := h.snapshotReqs (Finset.mem_of_mem_erase hq)
  tickReqParamsSent hq := h.tickReqParamsSent (Finset.mem_of_mem_erase hq)
  optionTicksSent kind hq := h.optionTicksSent kind (Finset.mem_of_mem_filter _ hq)
  quotesShown hq := h.quotesShown (Finset.mem_of_mem_erase hq)
  mdtSent hq := h.mdtSent (Finset.mem_of_mem_erase hq)

lemma unmarked_forgetRequest (s : ClientCore) (r : ℤ) : (s.forgetRequest r).Unmarked r :=
  { s.unmarked_forgetMarks r with }

lemma Unmarked.forgetRequest {q : ℤ} (h : s.Unmarked q) (r : ℤ) :
    (s.forgetRequest r).Unmarked q :=
  { h.forgetMarks r with }

lemma watchersOf_leaveSlot (honce : (s.watchersOf i).Nodup)
    (hr : r ∈ s.watchersOf i) :
    (s.leaveSlot r i).watchersOf i = (s.watchersOf i).filter (· ≠ r) := by
  unfold leaveSlot
  by_cases hfollows : r ∈ s.following i
  · rw [if_pos hfollows]
    simp only [watchersOf, Function.update_self, List.filter_append]
    cases hheld : s.holders i with
    | none => rfl
    | some h =>
      have hne : h ≠ r := by
        rintro rfl
        exact notMem_following honce hheld hfollows
      simp [hne]
  · have hheld : s.holders i = some r := (mem_watchersOf.mp hr).resolve_right hfollows
    rw [if_neg hfollows]
    cases hall : s.following i with
    | nil =>
      dsimp only
      simp [watchersOf, forgetSlot, hall, hheld]
    | cons next rest =>
      simp only [watchersOf, hheld, hall, Option.toList_some, List.singleton_append,
        List.nodup_cons, List.mem_cons, not_or] at honce
      obtain ⟨⟨hnext, hrest⟩, hfresh, -⟩ := honce
      dsimp only
      have hkeep : rest.filter (· ≠ next) = rest :=
        List.filter_eq_self.mpr fun q hq => by
          simp only [decide_eq_true_eq]
          rintro rfl
          exact hfresh hq
      have hkeep' : rest.filter (· ≠ r) = rest :=
        List.filter_eq_self.mpr fun q hq => by
          simp only [decide_eq_true_eq]
          rintro rfl
          exact hrest hq
      simp only [watchersOf, Function.update_self, hheld, hall, hkeep, Option.toList_some,
        List.singleton_append, List.filter_cons, ne_eq, not_true_eq_false, decide_false,
        Bool.false_eq_true, if_false, Ne.symm hnext, not_false_eq_true, decide_true, if_true]
      rw [← hkeep']
      simp

lemma watchersOf_leaveSlot_of_ne (s : ClientCore) {j : ℕ} (hj : j ≠ i) (r : ℤ) :
    (s.leaveSlot r i).watchersOf j = s.watchersOf j := by
  unfold leaveSlot
  split_ifs
  · simp only [watchersOf, Function.update_of_ne hj]
  · cases s.following i <;>
      simp only [watchersOf, forgetSlot, Function.update_of_ne hj]

lemma handed_leaveSlot {next : ℤ} {rest : List ℤ}
    (honce : (s.watchersOf i).Nodup) (hheld : s.holders i = some r)
    (hall : s.following i = next :: rest) :
    (s.leaveSlot r i).holders i = some next ∧ (s.leaveSlot r i).following i = rest := by
  have hfollows := notMem_following honce hheld
  have hfresh : next ∉ rest := by
    simp only [watchersOf, hall, List.nodup_append, List.nodup_cons] at honce
    exact honce.2.1.1
  unfold leaveSlot
  rw [if_neg hfollows]
  simp only [hall, Function.update_self, true_and]
  refine List.filter_eq_self.mpr fun q hq => ?_
  simp only [ne_eq, decide_eq_true_eq]
  rintro rfl
  exact hfresh hq

/-- A slot with followers has a holder, and a slot that is held has the occupancy it was taken
under. -/
structure Standing (s : ClientCore) : Prop where
  held : ∀ i, s.following i ≠ [] → s.holders i ≠ none
  occupied : ∀ i, s.holders i ≠ none → s.takenOn i ≠ none

def NoneBehindOneShot (s : ClientCore) : Prop :=
  ∀ i h, s.holders i = some h → h ∈ s.oneShot → ∀ f ∈ s.following i, f ∈ s.oneShot

lemma Standing.congr (h : s.Standing) (hholders : s'.holders = s.holders)
    (hfollowing : s'.following = s.following) (htaken : s'.takenOn = s.takenOn) : s'.Standing :=
  ⟨fun i hi => hholders ▸ h.held i (hfollowing ▸ hi),
    fun i hi => htaken ▸ h.occupied i (hholders ▸ hi)⟩

lemma Standing.leaveSlot (h : s.Standing) (r : ℤ) (i : ℕ) :
    (s.leaveSlot r i).Standing := by
  unfold ClientCore.leaveSlot
  split_ifs with hr
  · refine ⟨fun j hj => h.held j fun hnil => hj ?_, h.occupied⟩
    simp only [Function.update_apply]
    split_ifs with hji
    · rw [← hji, hnil]
      rfl
    · exact hnil
  · cases hall : s.following i with
    | nil =>
      refine ⟨fun j hj => ?_, fun j hj => ?_⟩
      · have hne : j ≠ i := by
          rintro rfl
          exact hj hall
        simp only [forgetSlot, Function.update_of_ne hne]
        exact h.held j hj
      · simp only [forgetSlot, Function.update_apply] at hj ⊢
        split_ifs at hj ⊢
        · exact absurd rfl hj
        · exact h.occupied j hj
    | cons next rest =>
      refine ⟨fun j hj => ?_, fun j hj => ?_⟩
      · simp only [Function.update_apply] at hj ⊢
        split_ifs at hj ⊢
        · exact nofun
        · exact h.held j hj
      · simp only [Function.update_apply] at hj ⊢
        split_ifs at hj with hji
        · exact h.occupied j (h.held j (by rw [hji, hall]; exact nofun))
        · exact h.occupied j hj

lemma Joins.standing (hjoins : Joins s s' i r)
    (h : s.Standing) : s'.Standing := by
  refine ⟨fun j hj => ?_, hjoins.takenOn h.occupied⟩
  cases hjoins.seated with
  | took hfree hholders hfollowing =>
    rw [hfollowing] at hj
    rw [hholders, Function.update_apply]
    split_ifs
    · exact nofun
    · exact h.held j hj
  | displaced existing hheld hone hholders hfollowing hr =>
    rw [hfollowing, Function.update_apply] at hj
    rw [hholders, Function.update_apply]
    split_ifs at hj ⊢
    · exact nofun
    · exact h.held j hj
  | follows existing hheld hjoin hholders hfollowing =>
    rw [hfollowing, Function.update_apply] at hj
    rw [hholders]
    split_ifs at hj with hji
    · rw [hji, hheld]
      exact nofun
    · exact h.held j hj

lemma Joins.perm_watchersOf (hjoins : Joins s s' i r)
    (h : s.Standing) : (s'.watchersOf i).Perm (r :: s.watchersOf i) := by
  cases hjoins.seated with
  | took hfree hholders hfollowing =>
    have hnone : s.following i = [] := by
      by_contra hne
      exact h.held i hne hfree
    simp [watchersOf, hholders, hfollowing, hfree, hnone]
  | displaced existing hheld hone hholders hfollowing hr =>
    simp [watchersOf, hholders, hfollowing, hheld]
  | follows existing hheld hjoin hholders hfollowing =>
    simp only [watchersOf, hholders, hfollowing, hheld, Function.update_self, Option.toList_some,
      List.singleton_append]
    exact ((List.perm_append_singleton r _).cons existing).trans (List.Perm.swap r existing _)

lemma Joins.watchersOf_of_ne {j : ℕ} (hjoins : Joins s s' i r)
    (hj : j ≠ i) : s'.watchersOf j = s.watchersOf j := by
  cases hjoins.seated with
  | took hfree hholders hfollowing =>
    rw [watchersOf, hholders, hfollowing, Function.update_of_ne hj, watchersOf]
  | displaced existing hheld hone hholders hfollowing hr =>
    rw [watchersOf, hholders, hfollowing, Function.update_of_ne hj, Function.update_of_ne hj,
      watchersOf]
  | follows existing hheld hjoin hholders hfollowing =>
    rw [watchersOf, hholders, hfollowing, Function.update_of_ne hj, watchersOf]

lemma Joins.noneBehindOneShot (hjoins : Joins s s' i r)
    (hstanding : s.Standing) (hnew : ∀ j, r ∉ s.watchersOf j) (h : s.NoneBehindOneShot) :
    s'.NoneBehindOneShot := by
  have hother {j : ℕ} (hj : s'.holders j = s.holders j) (hj' : s'.following j = s.following j)
      {q : ℤ} (hq : s'.holders j = some q) (hone : q ∈ s'.oneShot) :
      ∀ f ∈ s'.following j, f ∈ s'.oneShot := by
    intro f hf
    rw [hj] at hq
    rw [hj'] at hf
    have hqr : q ≠ r := fun he => hnew j (mem_watchersOf.mpr (.inl (he ▸ hq)))
    have hfr : f ≠ r := fun he => hnew j (mem_watchersOf.mpr (.inr (he ▸ hf)))
    exact (hjoins.oneShot f hfr).mpr (h j q hq ((hjoins.oneShot q hqr).mp hone) f hf)
  intro j q hq hone f hf
  cases hjoins.seated with
  | took hfree hholders hfollowing =>
    by_cases hji : j = i
    · subst hji
      have hnone : s.following j = [] := by
        by_contra hne
        exact hstanding.held j hne hfree
      rw [hfollowing, hnone] at hf
      exact absurd hf List.not_mem_nil
    · exact hother (by rw [hholders, Function.update_of_ne hji]) (by rw [hfollowing]) hq hone f hf
  | displaced existing hheld hex hholders hfollowing hr =>
    by_cases hji : j = i
    · subst hji
      rw [hholders, Function.update_self, Option.some_inj] at hq
      exact absurd (hq ▸ hone) hr
    · exact hother (by rw [hholders, Function.update_of_ne hji])
        (by rw [hfollowing, Function.update_of_ne hji]) hq hone f hf
  | follows existing hheld hjoin hholders hfollowing =>
    by_cases hji : j = i
    · subst hji
      rw [hholders, hheld, Option.some_inj] at hq
      subst hq
      rw [hfollowing, Function.update_self, List.mem_append, List.mem_singleton] at hf
      rcases hf with hf | rfl
      · have hqr : existing ≠ r := fun he => hnew j (mem_watchersOf.mpr (.inl (he ▸ hheld)))
        have hfr : f ≠ r := fun he => hnew j (mem_watchersOf.mpr (.inr (he ▸ hf)))
        exact (hjoins.oneShot f hfr).mpr
          (h j existing hheld ((hjoins.oneShot existing hqr).mp hone) f hf)
      · exact hjoin.resolve_right (not_not.mpr hone)
    · exact hother (by rw [hholders]) (by rw [hfollowing, Function.update_of_ne hji]) hq hone f hf

lemma NoneBehindOneShot.leaveSlot (h : s.NoneBehindOneShot)
    (hhands : ∀ next rest, s.holders i = some r → s.following i = next :: rest →
      next ∈ s.oneShot → ∀ f ∈ rest, f ∈ s.oneShot) (hr : r ∈ s.watchersOf i) :
    (s.leaveSlot r i).NoneBehindOneShot := by
  intro j q hq hone f hf
  unfold ClientCore.leaveSlot at hq hone hf ⊢
  by_cases hfollows : r ∈ s.following i
  · simp only [if_pos hfollows] at hq hone hf ⊢
    refine h j q hq hone f ?_
    simp only [Function.update_apply] at hf
    split_ifs at hf with hji
    · exact hji ▸ List.mem_of_mem_filter hf
    · exact hf
  · simp only [if_neg hfollows] at hq hone hf ⊢
    cases hall : s.following i with
    | nil =>
      simp only [hall, forgetSlot, Function.update_apply] at hq hone hf ⊢
      split_ifs at hq
      exact h j q hq hone f hf
    | cons next rest =>
      simp only [hall, Function.update_apply] at hq hone hf ⊢
      split_ifs at hq hf with hji
      · cases hq
        have hheld := (mem_watchersOf.mp hr).resolve_right hfollows
        exact hhands _ rest hheld hall hone f (List.mem_of_mem_filter hf)
      · exact h j q hq hone f hf

lemma kept_leaveSlot (s : ClientCore) (r : ℤ) (i : ℕ) :
    (s.leaveSlot r i).oneShot = s.oneShot ∧ (s.leaveSlot r i).byReq = s.byReq ∧
      ∀ q, s.Unmarked q → (s.leaveSlot r i).Unmarked q := by
  unfold leaveSlot
  split_ifs
  · exact ⟨rfl, rfl, fun _ h => { h with }⟩
  · cases s.following i <;> exact ⟨rfl, rfl, fun _ h => { h with }⟩

lemma leaveSlot_congr (hholders : s'.holders = s.holders)
    (hfollowing : s'.following = s.following) (htaken : s'.takenOn = s.takenOn) (r : ℤ) (i : ℕ) :
    (s'.leaveSlot r i).holders = (s.leaveSlot r i).holders ∧
      (s'.leaveSlot r i).following = (s.leaveSlot r i).following ∧
      (s'.leaveSlot r i).takenOn = (s.leaveSlot r i).takenOn := by
  unfold leaveSlot
  rw [hfollowing]
  split_ifs
  · exact ⟨hholders, rfl, htaken⟩
  · cases s.following i
    · exact ⟨by simp only [forgetSlot, hholders], hfollowing, by simp only [forgetSlot, htaken]⟩
    · exact ⟨by simp only [hholders], rfl, htaken⟩

/-! ## A slot is given back -/

lemma slots_forgetWatcher (s : ClientCore) (i : ℕ) (r : ℤ) :
    (s.forgetWatcher i r).holders = s.holders ∧ (s.forgetWatcher i r).following = s.following ∧
      (s.forgetWatcher i r).takenOn = s.takenOn := by
  unfold forgetWatcher
  split_ifs <;> exact ⟨rfl, rfl, rfl⟩

lemma byReq_forgetWatcher (s : ClientCore) (i : ℕ) (r q : ℤ) :
    (s.forgetWatcher i r).byReq q = if q = r ∧ s.byReq q = some i then none else s.byReq q := by
  unfold forgetWatcher
  by_cases hqr : q = r
  · subst hqr
    split_ifs with hq hboth hboth
    · exact Function.update_self ..
    · exact absurd ⟨rfl, hq⟩ hboth
    · exact absurd hboth.2 hq
    · rfl
  · have hno : ¬ (q = r ∧ s.byReq q = some i) := fun h => hqr h.1
    rw [if_neg hno]
    split_ifs
    · exact Function.update_of_ne hqr ..
    · rfl

lemma oneShot_forgetWatcher (s : ClientCore) (i : ℕ) (r : ℤ) :
    (s.forgetWatcher i r).oneShot = s.oneShot.erase r := by
  unfold forgetWatcher
  split_ifs <;> rfl

lemma unmarked_forgetWatcher (s : ClientCore) (i : ℕ) (r : ℤ) :
    (s.forgetWatcher i r).Unmarked r := by
  unfold ClientCore.forgetWatcher
  split_ifs
  · exact s.unmarked_forgetRequest r
  · exact s.unmarked_forgetMarks r

lemma Unmarked.forgetWatcher {q : ℤ} (h : s.Unmarked q) (i : ℕ) (r : ℤ) :
    (s.forgetWatcher i r).Unmarked q := by
  unfold ClientCore.forgetWatcher
  split_ifs
  · exact h.forgetRequest r
  · exact h.forgetMarks r

lemma forgetWatchers (i : ℕ) : ∀ (l : List ℤ) (s : ClientCore),
    let s' := l.foldl (·.forgetWatcher i ·) s
    (s'.holders = s.holders ∧ s'.following = s.following ∧ s'.takenOn = s.takenOn) ∧
    (∀ q, s'.byReq q = if q ∈ l ∧ s.byReq q = some i then none else s.byReq q) ∧
    (∀ q, q ∈ s'.oneShot ↔ q ∈ s.oneShot ∧ q ∉ l) ∧
    ∀ q, q ∈ l ∨ s.Unmarked q → s'.Unmarked q
  | [], s => by simp
  | r :: l, s => by
      obtain ⟨⟨hholders, hfollowing, htaken⟩, hreq, hone, hun⟩ :=
        forgetWatchers i l (s.forgetWatcher i r)
      obtain ⟨hholders', hfollowing', htaken'⟩ := s.slots_forgetWatcher i r
      refine ⟨⟨hholders.trans hholders', hfollowing.trans hfollowing', htaken.trans htaken'⟩, fun q => ?_, fun q => ?_, fun q hq => ?_⟩
      · rw [List.foldl_cons, hreq, byReq_forgetWatcher]
        by_cases hqr : q = r
        · subst hqr
          by_cases hq : s.byReq q = some i <;> simp [hq]
        · simp [hqr]
      · rw [List.foldl_cons, hone, oneShot_forgetWatcher]
        simp only [Finset.mem_erase, List.mem_cons, not_or]
        tauto
      · refine hun q (or_iff_not_imp_left.mpr fun hql => ?_)
        rcases hq with hq | hq
        · rw [List.mem_cons, or_iff_left hql] at hq
          exact hq ▸ s.unmarked_forgetWatcher i q
        · exact hq.forgetWatcher i r

end ClientCore

namespace ClientCore

/-! ## What watchers are told -/

lemma files_foldl {f : ClientCore → ℤ → ClientCore}
    (hf : ∀ s r, FilesUnder s (f s r) r ∧ (f s r).oneShot = s.oneShot) :
    ∀ (l : List ℤ) (s : ClientCore),
      ((l.foldl f s).holders = s.holders ∧ (l.foldl f s).following = s.following ∧
        (l.foldl f s).byReq = s.byReq ∧ (l.foldl f s).takenOn = s.takenOn ∧
        (l.foldl f s).oneShot = s.oneShot) ∧
      ∀ q ∉ l, s.Unmarked q → (l.foldl f s).Unmarked q
  | [], s => ⟨⟨rfl, rfl, rfl, rfl, rfl⟩, fun _ _ h => h⟩
  | r :: l, s => by
      obtain ⟨hfiles, hone⟩ := hf s r
      obtain ⟨⟨h₁, h₂, h₃, h₄, h₅⟩, hun⟩ := files_foldl hf l (f s r)
      refine ⟨⟨h₁.trans hfiles.holders, h₂.trans hfiles.following, h₃.trans hfiles.byReq,
        h₄.trans hfiles.takenOn, h₅.trans hone⟩, fun q hq h => ?_⟩
      rw [List.mem_cons, not_or] at hq
      exact hun q hq.2 (hfiles.unmarked q hq.1 h)

lemma filesUnder_checkMdtNeeded (s : ClientCore) (r : ℤ) :
    FilesUnder s (s.checkMdtNeeded r) r :=
  ⟨rfl, rfl, rfl, rfl, fun _ _ => Iff.rfl, fun _ hq h =>
    { h with mdtSent := notMem_insert_of_ne hq h.mdtSent }⟩

lemma filesUnder_oweOptionTick (s : ClientCore) (kind : OptionTickKind) (delayed : Bool)
    (changed : Finset ℤ) (r : ℤ) :
    FilesUnder s (s.oweOptionTick kind delayed changed r) r := by
  refine ⟨rfl, rfl, rfl, rfl, fun _ _ => Iff.rfl, fun q hq h =>
    { h with optionTicksSent := fun kind' => ?_, quotesShown := ?_ }⟩
  · simp only [oweOptionTick]
    split_ifs
    · exact notMem_insert_of_ne (fun he => hq (Prod.mk.inj he).1) (h.optionTicksSent kind')
    · exact h.optionTicksSent kind'
  · simp only [oweOptionTick]
    split_ifs
    · exact h.quotesShown
    · exact notMem_insert_of_ne hq h.quotesShown

end ClientCore

/-! ## Runs -/

/-- The client's record, and beside it each number that was taken and neither withdrawn nor
released, with its slot and occupancy. -/
@[ext]
structure WatchRun where
  core : ClientCore := {}
  standing : ℤ → Option (ℕ × ℕ) := fun _ => none

/-- What edits the record, and what files under a number. -/
inductive WatchEvent where
  | taken (t : MarketDataTaken) (model : Option Bool)
  | withdrawn (r : ℤ)
  | released (slot releasedAt : ℕ)
  | quote (slot : ℕ)
  | optionTick (slot : ℕ) (kind : OptionTickKind) (delayed : Bool) (changed : Finset ℤ)
  | params (r : ℤ)

namespace WatchRun

def edit (s : ClientCore) : WatchEvent → ClientCore
  | .taken t model => s.noteMktDataTaken t model
  | .withdrawn r => s.unregisterMktData r
  | .released i g => s.forgetReleasedSlots [(i, g)]
  | .quote i => s.deliverQuotes i
  | .optionTick i kind delayed changed => s.optionTickOwed i kind delayed changed
  | .params r => s.shouldSendTickReqParams r

def stands (standing : ℤ → Option (ℕ × ℕ)) : WatchEvent → ℤ → Option (ℕ × ℕ)
  | .taken t _ => Function.update standing t.reqId (some (t.slot, t.generation))
  | .withdrawn r => Function.update standing r none
  | .released i g => fun r => (standing r).filter (· ≠ (i, g))
  | _ => standing

def step (s : WatchRun) (e : WatchEvent) : WatchRun := ⟨edit s.core e, stands s.standing e⟩

/-- A number is taken again only once it was withdrawn or released. -/
def Asked (s : WatchRun) : WatchEvent → Prop
  | .taken t _ => s.standing t.reqId = none
  | _ => True

/-- A withdrawal hands no slot to a one-shot ahead of a stream, and a release is read where the
numbers on its slot were registered under the occupancy released just if the slot was. -/
def Spared (s : WatchRun) : WatchEvent → Prop
  | .withdrawn r => ∀ i next rest, s.core.holders i = some r → s.core.following i = next :: rest →
      next ∈ s.core.oneShot → ∀ f ∈ rest, f ∈ s.core.oneShot
  | .released i g => ∀ r g', s.standing r = some (i, g') → (g' = g ↔ s.core.takenOn i = some g)
  | _ => True

/-- Every number that stands is on its slot, once, and nothing is filed under any other. -/
structure Consistent (s : WatchRun) : Prop where
  named : ∀ r i, r ∈ s.core.watchersOf i ↔ ∃ g, s.standing r = some (i, g)
  once : ∀ i, (s.core.watchersOf i).Nodup
  pointed : ∀ r, s.core.byReq r = (s.standing r).map Prod.fst
  held : ∀ i, s.core.following i ≠ [] → s.core.holders i ≠ none
  apart : s.core.NoneBehindOneShot
  unmarked : ∀ r, s.standing r = none → s.core.Unmarked r

/-- A withdrawal hands the slot its number held to one of those that follow, and loses none. -/
def HandsOn (s : WatchRun) : WatchEvent → Prop
  | .withdrawn r => ∀ i, s.core.holders i = some r → s.core.following i ≠ [] →
      ∃ next, (step s (.withdrawn r)).core.holders i = some next ∧
        (s.core.following i).Perm (next :: (step s (.withdrawn r)).core.following i)
  | _ => True

/-! ### What each event keeps -/

structure Kept (s : WatchRun) : Prop extends Consistent s where
  occupied : ∀ i, s.core.holders i ≠ none → s.core.takenOn i ≠ none

namespace Kept

variable {s : WatchRun} (h : s.Kept)
include h

lemma coreStanding : s.core.Standing := ⟨h.held, h.occupied⟩

lemma notMem_of_none {r : ℤ} (hr : s.standing r = none) (i : ℕ) : r ∉ s.core.watchersOf i := by
  rw [h.named]
  rintro ⟨g, hg⟩
  rw [hr] at hg
  cases hg

lemma one_slot {r : ℤ} {i j : ℕ} (hi : r ∈ s.core.watchersOf i) (hj : r ∈ s.core.watchersOf j) :
    i = j := by
  obtain ⟨g, hg⟩ := (h.named r i).mp hi
  obtain ⟨g', hg'⟩ := (h.named r j).mp hj
  rw [hg, Option.some_inj] at hg'
  exact (Prod.mk.inj hg').1

lemma taken {t : MarketDataTaken} (hnew : s.standing t.reqId = none) (model : Option Bool) :
    (s.step (.taken t model)).Kept := by
  have hfresh := h.notMem_of_none hnew
  have hjoins := ClientCore.joins_noteMktDataTaken (hfresh t.slot) (h.once t.slot) model
  have hperm := hjoins.perm_watchersOf h.coreStanding
  have hstanding := hjoins.standing h.coreStanding
  refine ⟨⟨fun r i => ?_, fun i => ?_, fun r => ?_, hstanding.held,
    hjoins.noneBehindOneShot h.coreStanding hfresh h.apart, fun r hr => ?_⟩, hstanding.occupied⟩
  · by_cases hi : i = t.slot
    · subst hi
      rw [step, edit, hperm.mem_iff, List.mem_cons, h.named]
      simp only [stands, Function.update_apply]
      by_cases hr : r = t.reqId <;> simp [hr]
    · rw [step, edit, hjoins.watchersOf_of_ne hi, h.named]
      simp only [stands, Function.update_apply]
      by_cases hr : r = t.reqId
      · simp [hr, hnew, Ne.symm hi]
      · simp [hr]
  · by_cases hi : i = t.slot
    · subst hi
      rw [step, edit, hperm.nodup_iff, List.nodup_cons]
      exact ⟨hfresh t.slot, h.once t.slot⟩
    · rw [step, edit, hjoins.watchersOf_of_ne hi]
      exact h.once i
  · simp only [step, edit, hjoins.byReq, stands, Function.update_apply]
    by_cases hr : r = t.reqId <;> simp [hr, h.pointed r]
  · have hne : r ≠ t.reqId := by
      rintro rfl
      simp [step, stands] at hr
    simp only [step, stands, Function.update_of_ne hne] at hr
    exact hjoins.unmarked r hne (h.unmarked r hr)

lemma of_gone {s' : WatchRun} (gone : ℤ → Prop) [DecidablePred gone]
    (hsub : ∀ j, (s'.core.watchersOf j).Sublist (s.core.watchersOf j))
    (hmem : ∀ j q, q ∈ s'.core.watchersOf j ↔ q ∈ s.core.watchersOf j ∧ ¬ gone q)
    (hreq : ∀ q, s'.core.byReq q = if gone q then none else s.core.byReq q)
    (hstanding : ∀ q, s'.standing q = if gone q then none else s.standing q)
    (hheld : s'.core.Standing) (hapart : s'.core.NoneBehindOneShot)
    (hun : ∀ q, gone q ∨ s.core.Unmarked q → s'.core.Unmarked q) : s'.Kept where
  named q j := by
    rw [hmem, h.named, hstanding]
    split_ifs with hq
    · simp [hq]
    · simp [hq]
  once j := (h.once j).sublist (hsub j)
  pointed q := by
    rw [hreq, hstanding]
    split_ifs
    · rfl
    · exact h.pointed q
  held := hheld.held
  apart := hapart
  unmarked q hq := by
    rw [hstanding] at hq
    split_ifs at hq with hgone
    · exact hun q (.inl hgone)
    · exact hun q (.inr (h.unmarked q hq))
  occupied := hheld.occupied

lemma withdrawn {r : ℤ} (hspared : s.Spared (.withdrawn r)) : (s.step (.withdrawn r)).Kept := by
  have hstands (q : ℤ) : (s.step (.withdrawn r)).standing q
      = if q = r then none else s.standing q := by
    simp only [step, stands, Function.update_apply]
  cases hreq : s.core.byReq r with
  | none =>
    have hnone : s.standing r = none := by
      have hpointed := h.pointed r
      rw [hreq] at hpointed
      exact Option.map_eq_none_iff.mp hpointed.symm
    have hcore : (s.step (.withdrawn r)).core = s.core.forgetRequest r := by
      simp only [step, edit, ClientCore.unregisterMktData, hreq]
    refine h.of_gone (· = r) (fun j => ?_) (fun j q => ?_) (fun q => ?_) hstands ?_ ?_
      fun q hq => ?_
    · exact hcore ▸ List.Sublist.refl _
    · rw [hcore]
      refine (and_iff_left_of_imp ?_).symm
      rintro hq rfl
      exact h.notMem_of_none hnone j hq
    · rw [hcore]
      exact Function.update_apply ..
    · exact hcore ▸ h.coreStanding.congr rfl rfl rfl
    · rw [hcore]
      intro j q hq hone f hf
      refine Finset.mem_erase.mpr ⟨?_, h.apart j q hq (Finset.mem_of_mem_erase hone) f hf⟩
      rintro rfl
      exact h.notMem_of_none hnone j (ClientCore.mem_watchersOf.mpr (.inr hf))
    · rw [hcore]
      rcases hq with rfl | hq
      · exact s.core.unmarked_forgetRequest q
      · exact hq.forgetRequest r
  | some i =>
    have hr : r ∈ s.core.watchersOf i := by
      rw [h.named]
      have hpointed := h.pointed r
      rw [hreq] at hpointed
      obtain ⟨⟨j, g⟩, hj, rfl⟩ := Option.map_eq_some_iff.mp hpointed.symm
      exact ⟨g, hj⟩
    have hcore : (s.step (.withdrawn r)).core
        = (s.core.forgetRequest r).leaveSlot r i := by
      simp only [step, edit, ClientCore.unregisterMktData, hreq]
    have hsame : _ ∧ _ ∧ _ := @ClientCore.leaveSlot_congr s.core (s.core.forgetRequest r)
      rfl rfl rfl r i
    obtain ⟨hone, hby, hun⟩ := (s.core.forgetRequest r).kept_leaveSlot r i
    rw [← hcore] at hsame hone hby hun
    obtain ⟨hholders, hfollowing, htaken⟩ := hsame
    have hwatchers (j : ℕ) : (s.step (.withdrawn r)).core.watchersOf j
        = (s.core.leaveSlot r i).watchersOf j := by
      simp only [ClientCore.watchersOf, hholders, hfollowing]
    have hleft := ClientCore.watchersOf_leaveSlot (h.once i) hr
    have hmem (j : ℕ) (q : ℤ) : q ∈ (s.step (.withdrawn r)).core.watchersOf j
        ↔ q ∈ s.core.watchersOf j ∧ ¬ q = r := by
      rw [hwatchers]
      by_cases hj : j = i
      · rw [hj, hleft]
        simp
      · rw [s.core.watchersOf_leaveSlot_of_ne hj]
        refine (and_iff_left_of_imp ?_).symm
        rintro hq rfl
        exact hj (h.one_slot hq hr)
    refine h.of_gone (· = r) (fun j => ?_) hmem (fun q => ?_) hstands ?_ ?_ fun q hq => ?_
    · rw [hwatchers]
      by_cases hj : j = i
      · rw [hj, hleft]
        exact List.filter_sublist
      · rw [s.core.watchersOf_leaveSlot_of_ne hj]
    · rw [hby]
      exact Function.update_apply ..
    · exact (h.coreStanding.leaveSlot r i).congr hholders hfollowing htaken
    · have happart := h.apart.leaveSlot (hspared i) hr
      intro j q hq hqone f hf
      have hf' := (hmem j f).mp (ClientCore.mem_watchersOf.mpr (.inr hf))
      rw [hone] at hqone ⊢
      rw [hholders] at hq
      rw [hfollowing] at hf
      refine Finset.mem_erase.mpr ⟨hf'.2, ?_⟩
      rw [← (s.core.kept_leaveSlot r i).1]
      refine happart j q hq ?_ f hf
      rw [(s.core.kept_leaveSlot r i).1]
      exact Finset.mem_of_mem_erase hqone
    · refine hun q ?_
      rcases hq with rfl | hq
      · exact s.core.unmarked_forgetRequest q
      · exact hq.forgetRequest r

lemma released {i g : ℕ} (hspared : s.Spared (.released i g)) :
    (s.step (.released i g)).Kept := by
  have hstands (q : ℤ) : (s.step (.released i g)).standing q
      = if s.standing q = some (i, g) then none else s.standing q := by
    simp only [step, stands]
    cases s.standing q with
    | none => rfl
    | some at' =>
      rw [Option.filter_some]
      by_cases hq : at' = (i, g) <;> simp [hq]
  by_cases htaken : (s.core.takenOn i).any (· ≠ g) = true
  · have hcore : (s.step (.released i g)).core = s.core := by
      simp only [step, edit, ClientCore.forgetReleasedSlots, List.foldl_cons, List.foldl_nil,
        ClientCore.forgetWatchersOf, if_pos htaken]
    have hnone (q : ℤ) : s.standing q ≠ some (i, g) := by
      intro hq
      rw [(hspared q g hq).mp rfl] at htaken
      simp at htaken
    have hsame : (s.step (.released i g)).standing = s.standing := by
      funext q
      rw [hstands, if_neg (hnone q)]
    rw [show s.step (.released i g) = s from WatchRun.ext hcore hsame]
    exact h
  · obtain ⟨⟨hholders, hfollowing, htakenOn⟩, hreq, hone, hun⟩ :=
      ClientCore.forgetWatchers i (s.core.watchersOf i) s.core
    have hcore : (s.step (.released i g)).core = s.core.forgetWatchersOf i g := rfl
    have hgone {q : ℤ} (hq : q ∈ s.core.watchersOf i) : s.standing q = some (i, g) := by
      obtain ⟨g', hg'⟩ := (h.named q i).mp hq
      have hheld : s.core.holders i ≠ none := by
        rcases ClientCore.mem_watchersOf.mp hq with hq | hq
        · rw [hq]
          exact nofun
        · exact h.held i (List.ne_nil_of_mem hq)
      obtain ⟨x, hx⟩ := Option.ne_none_iff_exists'.mp (h.occupied i hheld)
      have hxg : x = g := by simpa [hx] using htaken
      rw [hg', (hspared q g' hg').mpr (hxg ▸ hx)]
    have hback {q : ℤ} (hq : s.standing q = some (i, g)) : q ∈ s.core.watchersOf i :=
      (h.named q i).mpr ⟨g, hq⟩
    rw [ClientCore.forgetWatchersOf, if_neg htaken] at hcore
    have hholders' (j : ℕ) : (s.step (.released i g)).core.holders j
        = if j = i then none else s.core.holders j := by
      rw [hcore, ← hholders]
      exact Function.update_apply ..
    have hfollowing' (j : ℕ) : (s.step (.released i g)).core.following j
        = if j = i then [] else s.core.following j := by
      rw [hcore, ← hfollowing]
      exact Function.update_apply ..
    have htakenOn' (j : ℕ) : (s.step (.released i g)).core.takenOn j
        = if j = i then none else s.core.takenOn j := by
      rw [hcore, ← htakenOn]
      exact Function.update_apply ..
    have hempty : (s.step (.released i g)).core.watchersOf i = [] := by
      simp [ClientCore.watchersOf, hholders', hfollowing']
    have hothers {j : ℕ} (hj : j ≠ i) :
        (s.step (.released i g)).core.watchersOf j = s.core.watchersOf j := by
      rw [ClientCore.watchersOf, hholders', hfollowing', if_neg hj, if_neg hj,
        ClientCore.watchersOf]
    refine h.of_gone (fun q => s.standing q = some (i, g)) (fun j => ?_) (fun j q => ?_)
      (fun q => ?_) hstands ⟨fun j hj => ?_, fun j hj => ?_⟩ ?_ fun q hq => ?_
    · by_cases hj : j = i
      · rw [hj, hempty]
        exact List.nil_sublist _
      · rw [hothers hj]
    · by_cases hj : j = i
      · subst hj
        rw [hempty]
        exact iff_of_false List.not_mem_nil fun hq => hq.2 (hgone hq.1)
      · rw [hothers hj]
        refine (and_iff_left_of_imp fun hq hg => ?_).symm
        exact hj (h.one_slot hq (hback hg))
    · rw [hcore]
      refine (hreq q).trans ?_
      by_cases hq : s.standing q = some (i, g)
      · have hpoint : s.core.byReq q = some i := by rw [h.pointed, hq]; rfl
        rw [if_pos ⟨hback hq, hpoint⟩, if_pos hq]
      · rw [if_neg fun hboth => hq (hgone hboth.1), if_neg hq]
    · rw [hfollowing'] at hj
      rw [hholders']
      split_ifs at hj ⊢
      exacts [absurd rfl hj, h.held j hj]
    · rw [hholders'] at hj
      rw [htakenOn']
      split_ifs at hj ⊢
      exacts [absurd rfl hj, h.occupied j hj]
    · intro j q hq hqone f hf
      rw [hholders'] at hq
      rw [hfollowing'] at hf
      split_ifs at hq hf with hj
      rw [hcore] at hqone ⊢
      refine (hone f).mpr ⟨h.apart j q hq ((hone q).mp hqone).1 f hf, fun hfi => ?_⟩
      exact hj (h.one_slot (ClientCore.mem_watchersOf.mpr (.inr hf)) hfi)
    · rw [hcore]
      have hunmarked := hun q (hq.imp_left hback)
      exact { hunmarked with }

lemma of_files {s' : WatchRun} (hstanding : s'.standing = s.standing)
    (hholders : s'.core.holders = s.core.holders) (hfollowing : s'.core.following = s.core.following)
    (hreq : s'.core.byReq = s.core.byReq) (htaken : s'.core.takenOn = s.core.takenOn)
    (hone : s'.core.oneShot = s.core.oneShot)
    (hun : ∀ q, s.standing q = none → s.core.Unmarked q → s'.core.Unmarked q) : s'.Kept := by
  have hwatchers (j : ℕ) : s'.core.watchersOf j = s.core.watchersOf j := by
    rw [ClientCore.watchersOf, hholders, hfollowing, ClientCore.watchersOf]
  have hheld := h.coreStanding.congr hholders hfollowing htaken
  refine ⟨⟨fun r i => ?_, fun i => ?_, fun r => ?_, hheld.held, fun i q hq hqone f hf => ?_,
    fun r hr => ?_⟩, hheld.occupied⟩
  · rw [hwatchers, hstanding, h.named]
  · rw [hwatchers]
    exact h.once i
  · rw [hreq, hstanding, h.pointed]
  · rw [hone] at hqone ⊢
    exact h.apart i q (hholders ▸ hq) hqone f (hfollowing ▸ hf)
  · rw [hstanding] at hr
    exact hun r hr (h.unmarked r hr)

lemma step {e : WatchEvent} (hasked : s.Asked e) (hspared : s.Spared e) : (s.step e).Kept := by
  have hnot {q : ℤ} (hq : s.standing q = none) (i : ℕ) := h.notMem_of_none hq i
  cases e with
  | taken t model => exact h.taken hasked model
  | withdrawn r => exact h.withdrawn hspared
  | released i g => exact h.released hspared
  | quote i =>
    obtain ⟨⟨h₁, h₂, h₃, h₄, h₅⟩, hun⟩ := ClientCore.files_foldl
      (fun s r => ⟨s.filesUnder_checkMdtNeeded r, rfl⟩) (s.core.watchersOf i)
      { s.core with lastQuotes := insert i s.core.lastQuotes }
    exact h.of_files rfl h₁ h₂ h₃ h₄ h₅ fun q hq hunmarked =>
      hun q (hnot hq i) { hunmarked with }
  | optionTick i kind delayed changed =>
    obtain ⟨⟨h₁, h₂, h₃, h₄, h₅⟩, hun⟩ := ClientCore.files_foldl
      (fun s r => ⟨s.filesUnder_oweOptionTick kind delayed changed r, rfl⟩)
      (s.core.watchersOf i) s.core
    exact h.of_files rfl h₁ h₂ h₃ h₄ h₅ fun q hq hunmarked => hun q (hnot hq i) hunmarked
  | params r =>
    by_cases hr : s.core.byReq r ≠ none
    · have hcore : (s.step (.params r)).core
          = { s.core with tickReqParamsSent := insert r s.core.tickReqParamsSent } := if_pos hr
      refine h.of_files rfl (hcore ▸ rfl) (hcore ▸ rfl) (hcore ▸ rfl) (hcore ▸ rfl) (hcore ▸ rfl)
        fun q hq hunmarked => ?_
      have hqr : q ≠ r := by
        rintro rfl
        rw [h.pointed, hq] at hr
        exact hr rfl
      rw [hcore]
      exact { hunmarked with
        tickReqParamsSent := ClientCore.notMem_insert_of_ne hqr hunmarked.tickReqParamsSent }
    · have hcore : (s.step (.params r)).core = s.core := if_neg hr
      rw [show s.step (.params r) = s from WatchRun.ext hcore rfl]
      exact h

lemma handsOn (e : WatchEvent) : s.HandsOn e := by
  cases e with
  | withdrawn r =>
    intro i hheld hfollowing
    have hr : r ∈ s.core.watchersOf i := ClientCore.mem_watchersOf.mpr (.inl hheld)
    obtain ⟨g, hg⟩ := (h.named r i).mp hr
    have hreq : s.core.byReq r = some i := by rw [h.pointed, hg]; rfl
    obtain ⟨next, rest, hall⟩ := List.exists_cons_of_ne_nil hfollowing
    obtain ⟨hnext, hrest⟩ := ClientCore.handed_leaveSlot (s := s.core.forgetRequest r) (h.once i)
      hheld hall
    have hcore : (s.step (.withdrawn r)).core = (s.core.forgetRequest r).leaveSlot r i := by
      simp only [WatchRun.step, edit, ClientCore.unregisterMktData, hreq]
    refine ⟨next, hcore ▸ hnext, ?_⟩
    rw [hcore, hrest, hall]
  | _ => trivial

end Kept

lemma Kept.initial : Kept {} where
  named r i := by simp [ClientCore.watchersOf]
  once i := by simp [ClientCore.watchersOf]
  pointed r := rfl
  held i hi := absurd rfl hi
  apart i q hq := by cases hq
  unmarked r _ := ⟨by simp, rfl, rfl, by simp, by simp, by simp, by simp, by simp⟩
  occupied i hi := absurd rfl hi

end WatchRun

open WatchRun in
/-- **Who watches which slot stays right.**  In every run that takes a number again only once it
was withdrawn or released, hands no slot to a one-shot ahead of a stream, and reads a release where
the numbers on its slot were registered under the occupancy released just if the slot was, the
record stays consistent, and every withdrawal of a holder promotes one of those that follow and
loses none. -/
theorem watchers_right (es : List WatchEvent)
    (hrun : Runs.Along step (fun s e => Asked s e ∧ Spared s e) {} es) :
    Consistent (Runs.run step {} es) ∧
      Runs.Along step (fun s e => HandsOn s e ∧ Consistent (step s e)) {} es := by
  have hstep (s : WatchRun) (e : WatchEvent) (h : Kept s) (he : Asked s e ∧ Spared s e) :
      Kept (step s e) := h.step he.1 he.2
  have hkept : Kept (Runs.run step {} es) := hrun.invariant hstep Kept.initial
  exact ⟨hkept.toConsistent,
    hrun.mono hstep (fun s e h he => ⟨h.handsOn e, (hstep s e h he).toConsistent⟩) Kept.initial⟩

open WatchRun in
/-- Two streams on a slot, the one that holds it withdrawn, and the slot given back. -/
theorem watchers_right_two_streams :
    let es : List WatchEvent := [.taken ⟨1, 0, 5, 265598, [233], false, false, 1⟩ none,
      .taken ⟨2, 0, 5, 265598, [], false, false, 1⟩ (some false), .quote 0, .withdrawn 1,
      .released 0 5]
    Consistent (Runs.run step {} es) ∧
      Runs.Along step (fun s e => HandsOn s e ∧ Consistent (step s e)) {} es := by
  refine watchers_right _ ⟨⟨rfl, trivial⟩, ⟨rfl, trivial⟩, ⟨trivial, trivial⟩, ⟨trivial, ?_⟩,
    ⟨trivial, ?_⟩, trivial⟩
  · intro i next rest _ _ hone
    exact absurd hone (Finset.notMem_empty next)
  · intro r g' hg'
    have hunder : g' = 5 := by
      by_cases h1 : r = 1 <;> by_cases h2 : r = 2 <;>
        simp_all [WatchRun.step, stands]
    exact iff_of_true hunder (by decide)

open WatchRun in
/-- A stream is left behind the one-shot its holder's withdrawal promotes; and the release of one
occupancy forgets a number registered under the next, where one of the first still stands. -/
theorem stream_behind_one_shot :
    (∃ es, Runs.Along step Asked {} es ∧ ¬ (Runs.run step {} es).core.NoneBehindOneShot) ∧
    ∃ es, Runs.Along step Asked {} (es ++ [.released 0 5]) ∧
      (Runs.run step {} es).standing 2 = some (0, 6) ∧
      (Runs.run step {} (es ++ [.released 0 5])).core.byReq 2 = none := by
  refine ⟨⟨[.taken ⟨1, 0, 5, 265598, [], false, false, 1⟩ none,
      .taken ⟨2, 0, 5, 265598, [], true, true, 1⟩ none,
      .taken ⟨3, 0, 5, 265598, [], false, false, 1⟩ none, .withdrawn 1],
      ⟨rfl, rfl, rfl, trivial, trivial⟩, fun hno => ?_⟩,
    [.taken ⟨1, 0, 5, 265598, [], false, false, 1⟩ none,
      .taken ⟨2, 0, 6, 265598, [], false, false, 1⟩ none],
    ⟨rfl, rfl, trivial, trivial⟩, by decide, by decide⟩
  exact absurd (hno 0 2 (by decide) (by decide) 3 (by decide)) (by decide)

end IbkrDx
