import Mathlib.Tactic.Abel
import IbkrDx.Engine.Lookups
import IbkrDx.Protocol.Fix

/-!
# Whose request a session reject refuses

A session reject names the request it refuses on tag 320, or nothing.  What names nothing is
attributed by elimination.

* **`reject_attributed_iff`** — a reject is attributed as it should be exactly where elimination, if
  it is what decides, leaves one request.
-/

namespace IbkrDx

structure PendingChain where
  reqId : ℕ
  symbol : String
  conId : ℤ
  deriving DecidableEq

structure PendingSearch where
  reqId : ℕ
  deadline : ℕ
  deriving DecidableEq

structure PendingAdvisor where
  number : String
  reqId : ℤ
  faDataType : ℤ
  replacing : Bool
  deadline : ℕ

section

variable (Terms Narrowing : Type)

structure Outstanding where
  /-- The definition lookups and their fan-outs, and the rows that wait for trading hours. -/
  lookups : Lookups Terms Narrowing := {}
  pendingOptionParams : List PendingChain := []
  pendingMatchingSymbols : List PendingSearch := []
  /-- A search whose caller was told it went unanswered. -/
  matchingSymbolsAbandoned : Option ℕ := none
  pendingAdvisor : List PendingAdvisor := []
  schedulesAsked : List String := []
  /-- The contracts looked up without a caller asking, and the lookup that does. -/
  autoFetchedConids : List (ℤ × ℕ) := []

end

/-- What of a reject is read: its reason, and the request it names. -/
structure SessionReject where
  /-- Tag 58. -/
  reason : Option String
  /-- Tag 320. -/
  request : Option Bytes

def SessionReject.stated (m : SessionReject) : Option ℕ := m.request.bind (Decimal.parse u32Bound)

def SessionReject.namedNothing (m : SessionReject) : Bool := m.request.isNone

lemma SessionReject.namedNothing_of_stated {m : SessionReject} {n : ℕ} (h : m.stated = some n) :
    m.namedNothing = false := by
  obtain ⟨t, ht, -⟩ := Option.bind_eq_some_iff.1 h
  rw [namedNothing, ht]
  rfl

def SessionReject.why (m : SessionReject) : String := m.reason.getD "unknown"

variable {Terms Narrowing : Type}

namespace Lookups

/-- The lookup a reject refuses: the one it names, or the only one, where it names nothing and
`alone` says that no search and no chain waits. -/
def refused (stated : Option ℕ) (alone : Bool) (s : Lookups Terms Narrowing) :
    Option PendingSecdef :=
  (stated.bind fun n => s.pendingSecdef.find? (·.reqId == n)).or
    (if stated = none ∧ alone ∧ s.pendingSecdef.length = 1 ∧ s.pendingFanout.isEmpty then
      s.pendingSecdef.head? else none)

end Lookups

namespace Outstanding

variable (fails : ℕ → Option String)

/-- The chain a reject refuses: the one it names, or the only one, where it names nothing and no
lookup and no search waits. -/
def refusedChain (m : SessionReject) (o : Outstanding Terms Narrowing) : Option ℕ :=
  (m.stated.bind fun n => o.pendingOptionParams.findIdx? (·.reqId == n)).or
    (if m.namedNothing ∧ o.pendingOptionParams.length = 1 ∧ o.lookups.pendingSecdef.isEmpty ∧
        o.pendingMatchingSymbols.isEmpty then some 0 else none)

def refusedSearch (m : SessionReject) (o : Outstanding Terms Narrowing) : Option ℕ :=
  m.stated.bind fun n => o.pendingMatchingSymbols.findIdx? (·.reqId == n)

/-- Whether no search and no chain waits, and the reject names nothing. -/
def lookupsAlone (m : SessionReject) (o : Outstanding Terms Narrowing) : Bool :=
  m.namedNothing && o.pendingMatchingSymbols.isEmpty && o.pendingOptionParams.isEmpty

/-- What remains asked for the engine's own sake behind a refused lookup. -/
def keptFetches (m : SessionReject) (o : Outstanding Terms Narrowing) : List (ℤ × ℕ) :=
  match o.lookups.refused m.stated (o.lookupsAlone m) with
  | some x =>
      if isInternal x.reqId then o.autoFetchedConids.filter fun f => f.2 ≠ x.reqId
      else o.autoFetchedConids
  | none => o.autoFetchedConids

def sessionReject (m : SessionReject) (now : ℕ) (o : Outstanding Terms Narrowing) :
    Outstanding Terms Narrowing :=
  match (o.refusedChain m).bind fun i => o.pendingOptionParams[i]?.map fun c => (i, c) with
  | some (i, c) =>
      { o with
        pendingOptionParams := o.pendingOptionParams.eraseIdx i
        lookups := o.lookups.tell
          (.historicalError c.reqId noDefinition s!"option chain request rejected: {m.why}") }
  | none =>
      match (o.refusedSearch m).bind fun i => o.pendingMatchingSymbols[i]?.map fun q => (i, q) with
      | some (i, q) =>
          { o with
            pendingMatchingSymbols := o.pendingMatchingSymbols.eraseIdx i
            lookups := o.lookups.tell
              (.historicalError q.reqId noDefinition
                s!"matching symbols request rejected: {m.why}") }
      | none =>
          if m.stated.isSome ∧ m.stated = o.matchingSymbolsAbandoned then
            { o with matchingSymbolsAbandoned := none }
          else
            { o with
              lookups := o.lookups.readReject fails m.stated (o.lookupsAlone m) m.why now
              autoFetchedConids := o.keptFetches m }

end Outstanding

/-! ## Every request outstanding -/

inductive Awaited where
  | chain (c : PendingChain)
  | search (q : PendingSearch)
  | abandonedSearch (n : ℕ)
  | lookup (x : PendingSecdef)
  | leg (apiReqId : ℕ) (name : LegName)
  | advisor (a : PendingAdvisor)
  | schedule (joinKey : String)

def Awaited.WaitsUnder (n : ℕ) : Awaited → Prop
  | .chain c => c.reqId = n
  | .search q => q.reqId = n
  | .abandonedSearch m => m = n
  | .lookup x => x.reqId = n
  | .leg _ _ => False
  | .advisor _ => False
  | .schedule _ => False

local instance : LawfulBEq LegName := inferInstanceAs (LawfulBEq (ℕ × ℕ))

def PendingFanout.unanswered (p : PendingFanout) : List Awaited :=
  (p.fanoutReqIds.filter (· ∉ p.answered)).map (.leg p.apiReqId)

def Told.number : Told Terms Narrowing → Option ℕ
  | .asked n | .row n _ _ | .lookupEnd n | .historicalError n _ _ | .historicalOver n => some n
  | .bookLetGo _ _ => none

namespace Outstanding

/-- The requests outstanding that the elimination passes by: a search given up on, the legs of the
fan-outs, those of trading hours, and the advisor's. -/
def passedBy (o : Outstanding Terms Narrowing) : List Awaited :=
  o.matchingSymbolsAbandoned.toList.map .abandonedSearch ++
    o.lookups.pendingFanout.flatMap PendingFanout.unanswered ++
    o.lookups.pendingSchedulePair.map (fun p => .schedule p.joinKey) ++
    o.schedulesAsked.map .schedule ++ o.pendingAdvisor.map .advisor

def awaited (o : Outstanding Terms Narrowing) : Multiset Awaited :=
  (o.pendingOptionParams : Multiset PendingChain).map .chain +
    (o.pendingMatchingSymbols : Multiset PendingSearch).map .search +
    (o.lookups.pendingSecdef : Multiset PendingSecdef).map .lookup + (o.passedBy : Multiset Awaited)

end Outstanding

/-- **A request ends, and nothing else moves.**  Only the listed months of a continuous future are
asked for behind it, under its own number. -/
structure EndsAlone (o o' : Outstanding Terms Narrowing) (a : Awaited) : Prop where
  /-- It is one of those outstanding, and the others stay. -/
  others : ∃ rest again : Multiset Awaited, o.awaited = a ::ₘ rest ∧ o'.awaited = again + rest ∧
    ∀ b ∈ again, ∃ x y : PendingSecdef, a = .lookup x ∧ b = .lookup y ∧ y.reqId = x.reqId
  told : ∃ ts, o'.lookups.told = o.lookups.told ++ ts ∧
    ∀ t ∈ ts, ∃ n, t.number = some n ∧ a.WaitsUnder n
  /-- The answers being put together under other numbers stay. -/
  answers : ∀ n, ¬ a.WaitsUnder n →
    o'.lookups.continuousLookups.lookup n = o.lookups.continuousLookups.lookup n ∧
      o'.lookups.detailsDelivered n = o.lookups.detailsDelivered n
  /-- The engine's own lookups under other numbers stay. -/
  fetches : ∀ f ∈ o.autoFetchedConids, ¬ a.WaitsUnder f.2 → f ∈ o'.autoFetchedConids

/-- **A reject is attributed as it should be.**  What names a number ends at most the request under
it; what names no number ends none; what names nothing ends the only one outstanding, or none. -/
def Attributed (m : SessionReject) (o o' : Outstanding Terms Narrowing) : Prop :=
  match m.request, m.stated with
  | some _, some n => o' = o ∨ ∃ a, a.WaitsUnder n ∧ EndsAlone o o' a
  | some _, none => o' = o
  | none, _ => o' = o ∨ ∃ a, o.awaited = {a} ∧ EndsAlone o o' a

/-- **Where elimination leaves one request**: nothing it passes by is outstanding beside a lone
chain, or beside a lone lookup. -/
def Eliminated (o : Outstanding Terms Narrowing) : Prop :=
  o.pendingMatchingSymbols = [] →
    (o.pendingOptionParams.length = 1 ∧ o.lookups.pendingSecdef = [] ∨
      o.lookups.pendingSecdef.length = 1 ∧ o.pendingOptionParams = [] ∧
        o.lookups.pendingFanout = []) →
    o.passedBy = []

/-! ## What one request's end leaves -/

/-- A lookup goes on under one number, and nothing else of the lookups moves. -/
structure GoesOn (s s' : Lookups Terms Narrowing) (n : ℕ) : Prop where
  again : ∃ xs : List PendingSecdef, s'.pendingSecdef = s.pendingSecdef ++ xs ∧
    ∀ x ∈ xs, x.reqId = n
  fanout : s'.pendingFanout = s.pendingFanout
  pairs : s'.pendingSchedulePair = s.pendingSchedulePair
  told : ∃ ts, s'.told = s.told ++ ts ∧ ∀ t ∈ ts, t.number = some n
  continuous : ∀ k, k ≠ n → s'.continuousLookups.lookup k = s.continuousLookups.lookup k
  delivered : ∀ k, k ≠ n → s'.detailsDelivered k = s.detailsDelivered k
  moves : s.written + s.told.length < s'.written + s'.told.length

namespace Lookups

variable (fails : ℕ → Option String) {n : ℕ}

lemma ended_goesOn (s : Lookups Terms Narrowing) (ts : List (Told Terms Narrowing)) (hne : ts ≠ [])
    (hts : ∀ t ∈ ts, t.number = some n) :
    GoesOn s { s with continuousLookups := s.continuousLookups.erase n, told := s.told ++ ts } n where
  again := ⟨[], by simp, by simp⟩
  fanout := rfl
  pairs := rfl
  told := ⟨ts, rfl, hts⟩
  continuous _ hk := AList.lookup_erase_ne hk
  delivered _ _ := rfl
  moves := by simpa using List.length_pos_iff.2 hne

lemma failLookup_goesOn (s : Lookups Terms Narrowing) (code : ℤ) (why : String) :
    GoesOn s (s.failLookup n code why) n :=
  s.ended_goesOn _ (by simp) (by simp [Told.number])

lemma sendBySymbol_goesOn (s : Lookups Terms Narrowing) (hn : isInternal n = false)
    (d : Description Narrowing) (now : ℕ) :
    GoesOn s (s.sendSecdefRequestBySymbol fails n d now) n := by
  unfold sendSecdefRequestBySymbol writeLookup
  by_cases hconnected : s.connected = true
  · rw [if_pos hconnected]
    cases fails s.written with
    | none =>
        refine ⟨⟨_, rfl, by simp⟩, rfl, rfl, ⟨[], by simp [queueOrRefuse], by simp⟩, fun _ _ => rfl,
          fun k hk => Function.update_of_ne hk _ _, ?_⟩
        simp [queueOrRefuse]
    | some why =>
        have hrefused := failLookup_goesOn (n := n) { s with written := s.written + 1 } notConnected
          s!"contract details request could not be sent: {why}"
        simp only [queueOrRefuse, hn, Bool.false_eq_true, if_false]
        exact ⟨hrefused.again, hrefused.fanout, hrefused.pairs, hrefused.told, hrefused.continuous,
          hrefused.delivered, by have := hrefused.moves; simp only at this ⊢; omega⟩
  · rw [if_neg hconnected]
    simp only [queueOrRefuse, hn, Bool.false_eq_true, if_false]
    exact s.failLookup_goesOn notConnected _

lemma handHeld_goesOn (s : Lookups Terms Narrowing) (found : Bool)
    (held : List (ContractDefinition Terms Narrowing)) :
    GoesOn s
      (if found then
        (({ s with continuousLookups := s.continuousLookups.erase n }).handHeld n held).tell
          (.lookupEnd n)
      else
        (({ s with continuousLookups := s.continuousLookups.erase n }).tell
          (.historicalError n noDefinition noDefinitionFound)).tell (.lookupEnd n)) n := by
  split_ifs
  · have hended := s.ended_goesOn (n := n)
      (held.map (fun d => .row n { d with secType := "CONTFUT" } true) ++ [.lookupEnd n]) (by simp)
      (by
        simp only [List.mem_append, List.mem_map, List.mem_singleton]
        rintro t (⟨d, -, rfl⟩ | rfl) <;> rfl)
    simpa only [tell, handHeld, List.append_assoc] using hended
  · have hended := s.ended_goesOn (n := n)
      [.historicalError n noDefinition noDefinitionFound, .lookupEnd n] (by simp)
      (by simp [Told.number])
    simpa only [tell, List.append_assoc, List.cons_append, List.nil_append] using hended

lemma endLookup_goesOn (s : Lookups Terms Narrowing) (hn : isInternal n = false) (now : ℕ) :
    GoesOn s (s.endLookup fails n now) n := by
  unfold endLookup
  split
  case h_1 =>
    exact ⟨⟨[], by simp [tell], by simp⟩, rfl, rfl, ⟨_, rfl, by simp [Told.number]⟩,
      fun _ _ => rfl, fun _ _ => rfl, by simp [tell]⟩
  case h_2 asked hasked =>
    split
    · have hsent := sendBySymbol_goesOn fails
        { s with
          continuousLookups := s.continuousLookups.insert n { asked with askingListed := true } }
        hn { asked.description with secType := "FUT" } now
      exact ⟨hsent.again, hsent.fanout, hsent.pairs, hsent.told,
        fun k hk => (hsent.continuous k hk).trans (AList.lookup_insert_ne hk), hsent.delivered,
        hsent.moves⟩
    · exact s.handHeld_goesOn _ asked.held

lemma refuseLookup_goesOn (s : Lookups Terms Narrowing) (hn : isInternal n = false) (code : ℤ)
    (why : String) (now : ℕ) : GoesOn s (s.refuseLookup fails n code why now) n := by
  unfold refuseLookup
  split_ifs
  · exact s.endLookup_goesOn fails hn now
  · exact s.failLookup_goesOn code why

variable {s : Lookups Terms Narrowing} {stated : Option ℕ}

variable {alone : Bool} {x : PendingSecdef}

lemma find_of_refused
    (h : s.refused stated alone = some x) :
    s.pendingSecdef.find? (·.reqId == x.reqId) = some x := by
  rcases Option.or_eq_some_iff.1 h with hnamed | ⟨-, hlone⟩
  · obtain ⟨n, rfl, hfind⟩ := Option.bind_eq_some_iff.1 hnamed
    have hx : x.reqId = n := by simpa using List.find?_some hfind
    exact hx ▸ hfind
  · rw [Option.ite_none_right_eq_some] at hlone
    obtain ⟨⟨-, -, hlength, -⟩, hhead⟩ := hlone
    obtain ⟨y, hy⟩ := List.length_eq_one_iff.1 hlength
    rw [hy, List.head?_cons, Option.some.injEq] at hhead
    subst hhead
    simp [hy]

def without (n : ℕ) (s : Lookups Terms Narrowing) : Lookups Terms Narrowing :=
  { s with pendingSecdef := s.pendingSecdef.eraseP (·.reqId == n) }

lemma readReject_of_none
    (h : s.refused stated alone = none) (reason : String) (now : ℕ) :
    s.readReject fails stated alone reason now = s := by
  unfold refused at h
  unfold readReject
  simp only [h]

lemma readReject_of_some
    (h : s.refused stated alone = some x) (reason : String) (now : ℕ) :
    s.readReject fails stated alone reason now =
      if isInternal x.reqId then s.without x.reqId
      else (s.without x.reqId).refuseLookup fails x.reqId noDefinition
        s!"contract details request rejected: {reason}" now := by
  unfold refused at h
  unfold readReject
  simp only [h]
  rfl

lemma readReject_ne
    (h : s.refused stated alone = some x) (reason : String) (now : ℕ) :
    s.readReject fails stated alone reason now ≠ s := by
  rw [readReject_of_some fails h]
  split_ifs with hinternal
  · intro hsame
    have hperm := (Removal.perm_eraseP (find_of_refused h)).length_eq
    have hlength := congrArg (fun s => s.pendingSecdef.length) hsame
    simp only [without, List.length_cons] at hlength hperm
    omega
  · intro hsame
    have hmoves := ((s.without x.reqId).refuseLookup_goesOn fails
      (Bool.eq_false_iff.2 hinternal) noDefinition
      s!"contract details request rejected: {reason}" now).moves
    rw [hsame] at hmoves
    exact absurd hmoves (lt_irrefl _)

end Lookups

/-! ## A request of each kind -/

lemma coe_eraseIdx {α : Type*} {l : List α} {i : ℕ} {a : α} (h : l[i]? = some a) :
    (l : Multiset α) = a ::ₘ (l.eraseIdx i : Multiset α) := by
  obtain ⟨hi, rfl⟩ := List.getElem?_eq_some_iff.1 h
  exact Multiset.coe_eq_coe.2 (List.getElem_cons_eraseIdx_perm hi).symm

namespace Outstanding

variable (fails : ℕ → Option String) {o : Outstanding Terms Narrowing} {m : SessionReject}

variable {i : ℕ}

lemma endsAlone_chain {c : PendingChain} (h : o.pendingOptionParams[i]? = some c)
    (why : String) :
    EndsAlone o
      { o with
        pendingOptionParams := o.pendingOptionParams.eraseIdx i
        lookups := o.lookups.tell (.historicalError c.reqId noDefinition why) } (.chain c) where
  others := by
    refine ⟨_, 0, ?_, (zero_add _).symm, by simp⟩
    simp only [awaited, passedBy, Lookups.tell, coe_eraseIdx h, Multiset.map_cons,
      Multiset.cons_add]
  told := ⟨[_], rfl, by simp [Told.number, Awaited.WaitsUnder]⟩
  answers _ _ := ⟨rfl, rfl⟩
  fetches _ hf _ := hf

lemma endsAlone_search {q : PendingSearch} (h : o.pendingMatchingSymbols[i]? = some q)
    (why : String) :
    EndsAlone o
      { o with
        pendingMatchingSymbols := o.pendingMatchingSymbols.eraseIdx i
        lookups := o.lookups.tell (.historicalError q.reqId noDefinition why) } (.search q) where
  others := by
    refine ⟨_, 0, ?_, (zero_add _).symm, by simp⟩
    simp only [awaited, passedBy, Lookups.tell, coe_eraseIdx h, Multiset.map_cons,
      Multiset.cons_add, Multiset.add_cons]
  told := ⟨[_], rfl, by simp [Told.number, Awaited.WaitsUnder]⟩
  answers _ _ := ⟨rfl, rfl⟩
  fetches _ hf _ := hf

lemma endsAlone_abandoned {n : ℕ} (h : o.matchingSymbolsAbandoned = some n) :
    EndsAlone o { o with matchingSymbolsAbandoned := none } (.abandonedSearch n) where
  others := by
    refine ⟨_, 0, ?_, (zero_add _).symm, by simp⟩
    simp only [awaited, passedBy, h, Option.toList_some, List.map_cons, List.cons_append,
      ← Multiset.cons_coe, Multiset.add_cons]
    rfl
  told := ⟨[], by simp, by simp⟩
  answers _ _ := ⟨rfl, rfl⟩
  fetches _ hf _ := hf

lemma endsAlone_lookup {x : PendingSecdef} (now : ℕ)
    (h : o.lookups.refused m.stated (o.lookupsAlone m) = some x) :
    EndsAlone o
      { o with
        lookups := o.lookups.readReject fails m.stated (o.lookupsAlone m) m.why now
        autoFetchedConids := o.keptFetches m } (.lookup x) := by
  have hperm := Multiset.coe_eq_coe.2 (Removal.perm_eraseP (Lookups.find_of_refused h))
  have hread := Lookups.readReject_of_some fails h m.why now
  have hawaited : o.awaited = .lookup x ::ₘ
      { o with lookups := o.lookups.without x.reqId }.awaited := by
    simp only [awaited, passedBy, Lookups.without, hperm, ← Multiset.cons_coe, Multiset.map_cons,
      Multiset.cons_add, Multiset.add_cons]
  rw [hread]
  split_ifs with hinternal
  · refine ⟨⟨_, 0, hawaited, (zero_add _).symm, by simp⟩, ⟨[], by simp [Lookups.without], by simp⟩,
      fun _ _ => ⟨rfl, rfl⟩, fun f hf hne => ?_⟩
    simp only [keptFetches, h, hinternal, if_true, List.mem_filter, decide_eq_true_eq]
    exact ⟨hf, fun he => hne he.symm⟩
  · obtain ⟨⟨xs, hsecdef, hxs⟩, hfanout, hpairs, ⟨ts, htold, hts⟩, hcontinuous, hdelivered, -⟩ :=
      (o.lookups.without x.reqId).refuseLookup_goesOn fails (Bool.eq_false_iff.2 hinternal)
        noDefinition s!"contract details request rejected: {m.why}" now
    refine ⟨⟨_, (xs : Multiset PendingSecdef).map .lookup, hawaited, ?_, ?_⟩, ⟨ts, htold, ?_⟩,
      fun n hn => ⟨hcontinuous n (Ne.symm hn), hdelivered n (Ne.symm hn)⟩, fun f hf _ => ?_⟩
    · simp only [awaited, passedBy, hsecdef, hfanout, hpairs, ← Multiset.coe_add,
        Multiset.map_add]
      ac_rfl
    · intro b hb
      obtain ⟨y, hy, rfl⟩ := Multiset.mem_map.1 hb
      exact ⟨x, y, rfl, rfl, hxs y hy⟩
    · exact fun t ht => ⟨x.reqId, hts t ht, rfl⟩
    · simpa only [keptFetches, h, if_neg hinternal] using hf

/-! ## The reject -/

lemma sessionReject_chain {c : PendingChain} (hi : o.refusedChain m = some i)
    (hc : o.pendingOptionParams[i]? = some c) (now : ℕ) :
    EndsAlone o (o.sessionReject fails m now) (.chain c) := by
  rw [sessionReject, hi, Option.bind_some, hc]
  exact endsAlone_chain hc _

lemma sessionReject_of_none (hchain : o.refusedChain m = none) (hsearch : o.refusedSearch m = none)
    (now : ℕ) :
    o.sessionReject fails m now =
      if m.stated.isSome ∧ m.stated = o.matchingSymbolsAbandoned then
        { o with matchingSymbolsAbandoned := none }
      else
        { o with
          lookups := o.lookups.readReject fails m.stated (o.lookupsAlone m) m.why now
          autoFetchedConids := o.keptFetches m } := by
  rw [sessionReject, hchain, hsearch]
  rfl

lemma sessionReject_eq_self (hchain : o.refusedChain m = none) (hsearch : o.refusedSearch m = none)
    (habandoned : ¬ (m.stated.isSome ∧ m.stated = o.matchingSymbolsAbandoned))
    (hlookup : o.lookups.refused m.stated (o.lookupsAlone m) = none) (now : ℕ) :
    o.sessionReject fails m now = o := by
  rw [sessionReject_of_none fails hchain hsearch, if_neg habandoned, keptFetches, hlookup,
    Lookups.readReject_of_none fails hlookup]

lemma getElem?_of_findIdx? {α : Type} {l : List α} {p : α → Bool}
    (h : l.findIdx? p = some i) : ∃ a, l[i]? = some a ∧ p a = true := by
  obtain ⟨hi, hp, -⟩ := List.findIdx?_eq_some_iff_getElem.1 h
  exact ⟨l[i], List.getElem?_eq_getElem hi, hp⟩

lemma sessionReject_numbered {n : ℕ} (hstated : m.stated = some n) (now : ℕ) :
    o.sessionReject fails m now = o ∨
      ∃ a, a.WaitsUnder n ∧ EndsAlone o (o.sessionReject fails m now) a := by
  have hnamed := SessionReject.namedNothing_of_stated hstated
  cases hchain : o.pendingOptionParams.findIdx? (·.reqId == n) with
  | some i =>
      obtain ⟨c, hc, hn⟩ := getElem?_of_findIdx? hchain
      have hi : o.refusedChain m = some i := by simp [refusedChain, hstated, hchain]
      exact .inr ⟨.chain c, eq_of_beq hn, sessionReject_chain fails hi hc now⟩
  | none =>
      have hi : o.refusedChain m = none := by simp [refusedChain, hstated, hchain, hnamed]
      cases hsearch : o.pendingMatchingSymbols.findIdx? (·.reqId == n) with
      | some j =>
          obtain ⟨q, hq, hn⟩ := getElem?_of_findIdx? hsearch
          have hj : o.refusedSearch m = some j := by simp [refusedSearch, hstated, hsearch]
          refine .inr ⟨.search q, eq_of_beq hn, ?_⟩
          rw [sessionReject, hi, hj, Option.bind_none, Option.bind_some, hq]
          exact endsAlone_search hq _
      | none =>
          have hj : o.refusedSearch m = none := by simp [refusedSearch, hstated, hsearch]
          by_cases habandoned : m.stated.isSome ∧ m.stated = o.matchingSymbolsAbandoned
          · refine .inr ⟨.abandonedSearch n, rfl, ?_⟩
            rw [sessionReject_of_none fails hi hj, if_pos habandoned]
            exact endsAlone_abandoned (habandoned.2.symm.trans hstated)
          · cases hlookup : o.lookups.refused m.stated (o.lookupsAlone m) with
            | none => exact .inl (sessionReject_eq_self fails hi hj habandoned hlookup now)
            | some x =>
                refine .inr ⟨.lookup x, ?_, ?_⟩
                · rw [Lookups.refused, hstated, if_neg (by simp), Option.or_none,
                    Option.bind_some] at hlookup
                  have hn := List.find?_some hlookup
                  exact eq_of_beq hn
                · rw [sessionReject_of_none fails hi hj, if_neg habandoned]
                  exact endsAlone_lookup fails now hlookup

lemma sessionReject_unreadable (hnamed : m.namedNothing = false) (hstated : m.stated = none)
    (now : ℕ) : o.sessionReject fails m now = o := by
  refine sessionReject_eq_self fails ?_ ?_ ?_ ?_ now
  · simp [refusedChain, hstated, hnamed]
  · simp [refusedSearch, hstated]
  · simp [hstated]
  · simp [Lookups.refused, hstated, lookupsAlone, hnamed]

section Unnamed

variable (hnamed : m.request = none)

include hnamed

lemma refusedChain_unnamed : o.refusedChain m =
    if o.pendingOptionParams.length = 1 ∧ o.lookups.pendingSecdef = [] ∧
      o.pendingMatchingSymbols = [] then some 0 else none := by
  simp [refusedChain, SessionReject.stated, SessionReject.namedNothing, hnamed]

lemma refused_unnamed : o.lookups.refused m.stated (o.lookupsAlone m) =
    if o.pendingMatchingSymbols = [] ∧ o.pendingOptionParams = [] ∧
      o.lookups.pendingSecdef.length = 1 ∧ o.lookups.pendingFanout = [] then
      o.lookups.pendingSecdef.head? else none := by
  simp [Lookups.refused, lookupsAlone, SessionReject.stated, SessionReject.namedNothing, hnamed,
    and_assoc]

lemma sessionReject_lone_chain (hchain : o.pendingOptionParams.length = 1)
    (hsecdef : o.lookups.pendingSecdef = []) (hsearch : o.pendingMatchingSymbols = []) (now : ℕ) :
    o.sessionReject fails m now ≠ o ∧ ∃ c, o.awaited = .chain c ::ₘ o.passedBy ∧
      EndsAlone o (o.sessionReject fails m now) (.chain c) := by
  obtain ⟨c, hc⟩ := List.length_eq_one_iff.1 hchain
  have hi : o.refusedChain m = some 0 := by
    rw [refusedChain_unnamed hnamed, if_pos ⟨hchain, hsecdef, hsearch⟩]
  have hget : o.pendingOptionParams[0]? = some c := by simp [hc]
  refine ⟨fun hsame => ?_, c, ?_, sessionReject_chain fails hi hget now⟩
  · have hempty : (o.sessionReject fails m now).pendingOptionParams = [] := by
      rw [sessionReject, hi, Option.bind_some, hget]
      simp [hc]
    rw [hsame, hc] at hempty
    exact List.cons_ne_nil _ _ hempty
  · simp [awaited, hc, hsecdef, hsearch]

lemma sessionReject_lone_lookup (hsecdef : o.lookups.pendingSecdef.length = 1)
    (hchain : o.pendingOptionParams = []) (hsearch : o.pendingMatchingSymbols = [])
    (hfanout : o.lookups.pendingFanout = []) (now : ℕ) :
    o.sessionReject fails m now ≠ o ∧ ∃ x, o.awaited = .lookup x ::ₘ o.passedBy ∧
      EndsAlone o (o.sessionReject fails m now) (.lookup x) := by
  obtain ⟨x, hx⟩ := List.length_eq_one_iff.1 hsecdef
  have hi : o.refusedChain m = none := by
    rw [refusedChain_unnamed hnamed, if_neg (by simp [hchain])]
  have hj : o.refusedSearch m = none := by simp [refusedSearch, SessionReject.stated, hnamed]
  have habandoned : ¬ (m.stated.isSome ∧ m.stated = o.matchingSymbolsAbandoned) := by
    simp [SessionReject.stated, hnamed]
  have hrefused : o.lookups.refused m.stated (o.lookupsAlone m) = some x := by
    rw [refused_unnamed hnamed, if_pos ⟨hsearch, hchain, hsecdef, hfanout⟩, hx, List.head?_cons]
  rw [sessionReject_of_none fails hi hj, if_neg habandoned]
  refine ⟨fun hsame => ?_, x, ?_, endsAlone_lookup fails now hrefused⟩
  · exact Lookups.readReject_ne fails hrefused m.why now (congrArg Outstanding.lookups hsame)
  · simp [awaited, hx, hchain, hsearch]

lemma sessionReject_unattributed
    (hchain : ¬ (o.pendingOptionParams.length = 1 ∧ o.lookups.pendingSecdef = [] ∧
      o.pendingMatchingSymbols = []))
    (hlookup : ¬ (o.pendingMatchingSymbols = [] ∧ o.pendingOptionParams = [] ∧
      o.lookups.pendingSecdef.length = 1 ∧ o.lookups.pendingFanout = [])) (now : ℕ) :
    o.sessionReject fails m now = o := by
  refine sessionReject_eq_self fails ?_ ?_ ?_ ?_ now
  · rw [refusedChain_unnamed hnamed, if_neg hchain]
  · simp [refusedSearch, SessionReject.stated, hnamed]
  · simp [SessionReject.stated, hnamed]
  · rw [refused_unnamed hnamed, if_neg hlookup]

lemma sessionReject_unnamed_iff (now : ℕ) :
    (o.sessionReject fails m now = o ∨
      ∃ a, o.awaited = {a} ∧ EndsAlone o (o.sessionReject fails m now) a) ↔ Eliminated o := by
  -- What is refused alone is the only one exactly where nothing was passed by.
  have hlone : ∀ {a₀ : Awaited}, o.sessionReject fails m now ≠ o →
      o.awaited = a₀ ::ₘ (o.passedBy : Multiset Awaited) →
      EndsAlone o (o.sessionReject fails m now) a₀ →
      ((o.sessionReject fails m now = o ∨
        ∃ a, o.awaited = {a} ∧ EndsAlone o (o.sessionReject fails m now) a) ↔ o.passedBy = []) := by
    intro a₀ hne hawaited hends
    constructor
    · rintro (hsame | ⟨a, ha, -⟩)
      · exact absurd hsame hne
      · have hcard := congrArg Multiset.card (hawaited.symm.trans ha)
        simpa using hcard
    · intro hnone
      exact .inr ⟨a₀, by rw [hawaited, hnone]; rfl, hends⟩
  by_cases hchain : o.pendingOptionParams.length = 1 ∧ o.lookups.pendingSecdef = [] ∧
      o.pendingMatchingSymbols = []
  · obtain ⟨hne, c, hawaited, hends⟩ :=
      sessionReject_lone_chain fails hnamed hchain.1 hchain.2.1 hchain.2.2 now
    rw [hlone hne hawaited hends]
    exact ⟨fun h _ _ => h, fun h => h hchain.2.2 (.inl ⟨hchain.1, hchain.2.1⟩)⟩
  · by_cases hlookup : o.pendingMatchingSymbols = [] ∧ o.pendingOptionParams = [] ∧
        o.lookups.pendingSecdef.length = 1 ∧ o.lookups.pendingFanout = []
    · obtain ⟨hne, x, hawaited, hends⟩ := sessionReject_lone_lookup fails hnamed hlookup.2.2.1
        hlookup.2.1 hlookup.1 hlookup.2.2.2 now
      rw [hlone hne hawaited hends]
      exact ⟨fun h _ _ => h, fun h => h hlookup.1 (.inr ⟨hlookup.2.2.1, hlookup.2.1, hlookup.2.2.2⟩)⟩
    · refine iff_of_true (.inl (sessionReject_unattributed fails hnamed hchain hlookup now)) ?_
      rintro hsearch (⟨hone, hsecdef⟩ | ⟨hone, hempty, hfanout⟩)
      · exact absurd ⟨hone, hsecdef, hsearch⟩ hchain
      · exact absurd ⟨hsearch, hempty, hone, hfanout⟩ hlookup

end Unnamed

end Outstanding

/-- **A reject is attributed as it should be exactly where it names a request, or elimination leaves
one.** -/
theorem reject_attributed_iff (fails : ℕ → Option String) (o : Outstanding Terms Narrowing)
    (m : SessionReject) (now : ℕ) :
    Attributed m o (o.sessionReject fails m now) ↔ (m.request = none → Eliminated o) := by
  unfold Attributed
  split
  case h_1 t n hrequest hstated =>
    exact iff_of_true (o.sessionReject_numbered fails hstated now) (by simp [hrequest])
  case h_2 t hrequest hstated =>
    have hnamed : m.namedNothing = false := by rw [SessionReject.namedNothing, hrequest]; rfl
    exact iff_of_true (o.sessionReject_unreadable fails hnamed hstated now) (by simp [hrequest])
  case h_3 hrequest =>
    rw [o.sessionReject_unnamed_iff fails hrequest now]
    exact ⟨fun h _ => h, fun h => h hrequest⟩

/-- A lone chain, while one leg of a fan-out has not answered. -/
def chainBesideFanout : Outstanding Unit Unit where
  lookups := { pendingFanout := [⟨5, [(5, 0)], [], 0⟩] }
  pendingOptionParams := [⟨701, "SPY", 756733⟩]

/-- A refusal that names nothing is given to the chain, which is not the only one outstanding. -/
theorem not_reject_attributed :
    (chainBesideFanout.sessionReject (fun _ => none) ⟨none, none⟩ 0).pendingOptionParams = [] ∧
      ¬ Attributed ⟨none, none⟩ chainBesideFanout
        (chainBesideFanout.sessionReject (fun _ => none) ⟨none, none⟩ 0) := by
  refine ⟨by decide, fun h => ?_⟩
  have heliminated := (Outstanding.sessionReject_unnamed_iff (fun _ => none) rfl 0).1 h
  exact absurd (heliminated rfl (.inl ⟨rfl, rfl⟩)) (List.cons_ne_nil _ _)

end IbkrDx
