import Mathlib.Data.List.Perm.Basic

/-!
# Symbol searches

The searches of `engine/hot_loop/ccp/mod.rs`: one on the wire at a time, the ones behind it queued,
and one given up on remembered until the venue is done with it.

* **`searches_one_at_a_time`** — so it is after every run whose rejects name their search.
-/

namespace IbkrDx.SymbolSearch

variable {σ M : Type} (number : σ → ℕ)

/-! ## The desk -/

/-- What the engine holds of the searches, and of the lookups a reject may be of instead. -/
structure SearchDesk (σ : Type) where
  up : Bool := true
  pendingMatchingSymbols : List (σ × ℕ) := []
  matchingSymbolsAbandoned : Option ℕ := none
  queuedMatchingSymbols : List σ := []
  pendingOptionParams : List ℕ := []
  pendingSecdef : List ℕ := []

/-- What the engine does for a search: sends it, hands over its matches, or refuses it. -/
inductive SearchAct (σ M : Type) where
  | sent (s : σ)
  | matched (s : σ) (m : M)
  | refused (s : σ)

/-- `MATCHING_SYMBOLS_TIMEOUT`, in milliseconds. -/
def matchingSymbolsTimeout : ℕ := 1000

namespace SearchDesk

def matchingSymbolsInFlight (d : SearchDesk σ) : Bool :=
  !d.pendingMatchingSymbols.isEmpty || d.matchingSymbolsAbandoned.isSome

/-- `send_matching_symbols_request`: without a connection, or where sending fails, it is refused. -/
def sendMatchingSymbolsRequest (fails : σ → Bool) (now : ℕ) (s : σ) (d : SearchDesk σ) :
    List (SearchAct σ M) × SearchDesk σ :=
  if d.up && !fails s then
    ([.sent s], { d with
      pendingMatchingSymbols := d.pendingMatchingSymbols ++ [(s, now + matchingSymbolsTimeout)] })
  else ([.refused s], d)

def askMatchingSymbols (fails : σ → Bool) (now : ℕ) (s : σ) (d : SearchDesk σ) :
    List (SearchAct σ M) × SearchDesk σ :=
  if d.matchingSymbolsInFlight || !d.queuedMatchingSymbols.isEmpty then
    ([], { d with queuedMatchingSymbols := d.queuedMatchingSymbols ++ [s] })
  else d.sendMatchingSymbolsRequest fails now s

/-- `send_next_matching_symbols`, with so much left of the lap. -/
def sendNext (fails : σ → Bool) (now : ℕ) : ℕ → SearchDesk σ →
    List (SearchAct σ M) × SearchDesk σ
  | 0, d => ([], d)
  | left + 1, d =>
      if d.matchingSymbolsInFlight then ([], d)
      else match d.queuedMatchingSymbols with
        | [] => ([], d)
        | s :: rest =>
            let sent := { d with queuedMatchingSymbols := rest }.sendMatchingSymbolsRequest fails
              now s
            let next := sendNext fails now left sent.2
            (sent.1 ++ next.1, next.2)

/-- `sweep_pending_matching_symbols`. -/
def sweep (now : ℕ) (d : SearchDesk σ) : List (SearchAct σ M) × SearchDesk σ :=
  let expired := d.pendingMatchingSymbols.filter (·.2 ≤ now)
  (expired.map fun p => .refused p.1, { d with
    pendingMatchingSymbols := d.pendingMatchingSymbols.filter (now < ·.2)
    matchingSymbolsAbandoned := match expired.getLast? with
      | some p => some (number p.1)
      | none => d.matchingSymbolsAbandoned })

def position (d : SearchDesk σ) (rid : ℕ) : Option ℕ :=
  d.pendingMatchingSymbols.findIdx? (number ·.1 = rid)

def removed (d : SearchDesk σ) (i : ℕ) : SearchDesk σ :=
  { d with pendingMatchingSymbols := d.pendingMatchingSymbols.eraseIdx i }

/-- A reply, `186`: its matches where it reads, whether it carries a count, and the number it
states. -/
def reply (matches? : Option M) (counted : Bool) (echoed : Option ℕ) (d : SearchDesk σ) :
    List (SearchAct σ M) × SearchDesk σ :=
  match matches? with
  | none => ([], d)
  | some m =>
      if !counted then ([], d)
      else
        let pos := match echoed with
          | some rid => d.position number rid
          | none => if d.pendingMatchingSymbols.length = 1 then some 0 else none
        match pos with
        | some i => (d.pendingMatchingSymbols[i]?.toList.map fun p => .matched p.1 m, d.removed i)
        | none =>
            if d.matchingSymbolsAbandoned.isSome ∧
                (echoed = none ∨ echoed = d.matchingSymbolsAbandoned) then
              ([], { d with matchingSymbolsAbandoned := none })
            else ([], d)

/-- A session reject, `3`: the number it states, and whether it names nothing.  What follows the
searches' part concerns contract lookups alone. -/
def reject (stated : Option ℕ) (namedNothing : Bool) (d : SearchDesk σ) :
    List (SearchAct σ M) × SearchDesk σ :=
  let refusedChain := (stated.bind fun rid => d.pendingOptionParams.findIdx? (· = rid)).or
    (if namedNothing && d.pendingOptionParams.length = 1 && d.pendingSecdef.isEmpty &&
        d.pendingMatchingSymbols.isEmpty then some 0 else none)
  match refusedChain with
  | some i => ([], { d with pendingOptionParams := d.pendingOptionParams.eraseIdx i })
  | none => match stated.bind (d.position number) with
    | some i => (d.pendingMatchingSymbols[i]?.toList.map fun p => .refused p.1, d.removed i)
    | none =>
        if stated.isSome ∧ stated = d.matchingSymbolsAbandoned then
          ([], { d with matchingSymbolsAbandoned := none })
        else ([], d)

/-- `fail_pending_lookups`, as the connection goes. -/
def failPendingLookups (d : SearchDesk σ) : List (SearchAct σ M) × SearchDesk σ :=
  (d.pendingMatchingSymbols.map (fun p => .refused p.1) ++
    d.queuedMatchingSymbols.map .refused, { up := false })

end SearchDesk

/-! ## The world -/

/-- What happens: a search is asked, a lap sends, the sweep runs, the venue acknowledges, replies or
rejects, the connection goes or comes back, other lookups come and go. -/
inductive SearchEvent (σ M : Type) where
  | ask (s : σ) (now : ℕ) (fails : σ → Bool)
  | lap (left now : ℕ) (fails : σ → Bool)
  | sweep (now : ℕ)
  | acknowledgement (m : Option M) (echoed : Option ℕ)
  | reply (s : σ) (m : M) (named : Bool)
  | reject (s : σ) (named : Bool)
  | disconnect
  | reconnect
  | others (optionParams secdef : List ℕ)

/-- The desk, beside what the venue owes on this connection and what became of the searches. -/
structure SearchWorld (σ M : Type) where
  desk : SearchDesk σ := {}
  owed : List σ := []
  asked : List σ := []
  reached : List σ := []
  ended : List (σ × Option M) := []
  replied : List (σ × M) := []

def SearchAct.sends : SearchAct σ M → Option σ
  | .sent s => some s
  | _ => none

def SearchAct.ends : SearchAct σ M → Option (σ × Option M)
  | .sent _ => none
  | .matched s m => some (s, some m)
  | .refused s => some (s, none)

namespace SearchWorld

def after (w : SearchWorld σ M) (r : List (SearchAct σ M) × SearchDesk σ) : SearchWorld σ M :=
  { w with
    desk := r.2
    owed := w.owed ++ r.1.filterMap SearchAct.sends
    reached := w.reached ++ r.1.filterMap SearchAct.sends
    ended := w.ended ++ r.1.filterMap SearchAct.ends }

variable [DecidableEq σ]

def stated (s : σ) (named : Bool) : Option ℕ := if named then some (number s) else none

def step (w : SearchWorld σ M) : SearchEvent σ M → SearchWorld σ M
  | .ask s now fails =>
      { w with asked := w.asked ++ [s] }.after (w.desk.askMatchingSymbols fails now s)
  | .lap left now fails => w.after (w.desk.sendNext fails now left)
  | .sweep now => w.after (w.desk.sweep number now)
  | .acknowledgement m echoed => w.after (w.desk.reply number m false echoed)
  | .reply s m named =>
      { w with owed := w.owed.erase s, replied := w.replied ++ [(s, m)] }.after
        (w.desk.reply number (some m) true (stated number s named))
  | .reject s named =>
      { w with owed := w.owed.erase s }.after (w.desk.reject number (stated number s named) !named)
  | .disconnect => { w with owed := [] }.after w.desk.failPendingLookups
  | .reconnect => { w with desk := { w.desk with up := true } }
  | .others optionParams secdef =>
      { w with desk := { w.desk with
        pendingOptionParams := optionParams, pendingSecdef := secdef } }

def run (w : SearchWorld σ M) (es : List (SearchEvent σ M)) : SearchWorld σ M :=
  es.foldl (step number) w

/-- A search asked is one of its own, whatever its number, and the venue answers what it owes. -/
def Lawful (w : SearchWorld σ M) : SearchEvent σ M → Prop
  | .ask s _ _ => s ∉ w.asked
  | .reply s _ _ | .reject s _ => s ∈ w.owed
  | _ => True

/-- A reject of a search names it, and no option chain waits under its number. -/
def Named (w : SearchWorld σ M) : SearchEvent σ M → Prop
  | .reject s named => named = true ∧ number s ∉ w.desk.pendingOptionParams
  | _ => True

def Goes (meets : SearchWorld σ M → SearchEvent σ M → Prop) :
    SearchWorld σ M → List (SearchEvent σ M) → Prop
  | _, [] => True
  | w, e :: es => w.Lawful e ∧ meets w e ∧ Goes meets (w.step number e) es

/-- **What a caller relies on**, in a state reached. -/
structure Right (w : SearchWorld σ M) : Prop where
  one : w.desk.pendingMatchingSymbols.length + w.desk.matchingSymbolsAbandoned.toList.length ≤ 1 ∧
    w.owed.length ≤ 1
  once : w.asked.Nodup ∧ (w.ended.map Prod.fst ++ w.desk.pendingMatchingSymbols.map Prod.fst ++
    w.desk.queuedMatchingSymbols).Perm w.asked
  own : ∀ s m, (s, some m) ∈ w.ended → (s, m) ∈ w.replied
  inOrder : (w.reached ++ w.desk.queuedMatchingSymbols).Sublist w.asked
  free : w.owed = [] → w.desk.matchingSymbolsInFlight = false
  goes : w.desk.matchingSymbolsInFlight = false → ∀ s ∈ w.desk.queuedMatchingSymbols.head?,
    ∀ left now fails, s ∈ (w.step number (.lap (left + 1) now fails)).owed ∨
      (s, none) ∈ (w.step number (.lap (left + 1) now fails)).ended
  expires : ∀ p ∈ w.desk.pendingMatchingSymbols, ∀ now, p.2 ≤ now →
    (p.1, none) ∈ (w.step number (.sweep now)).ended
  answered : ∀ s ∈ w.owed, s ∉ w.ended.map Prod.fst → ∀ m named,
    (w.step number (.reply s m named)).ended = w.ended ++ [(s, some m)]
  refused : ∀ s ∈ w.owed, s ∉ w.ended.map Prod.fst → number s ∉ w.desk.pendingOptionParams →
    (w.step number (.reject s true)).ended = w.ended ++ [(s, none)]
  late : ∀ s ∈ w.owed, s ∈ w.ended.map Prod.fst → ∀ m named,
    (w.step number (.reply s m named)).ended = w.ended ∧
      (w.step number (.reject s named)).ended = w.ended

/-! ## The wire -/

/-- What the venue owes is what the desk holds in flight: nothing, a search waited for, or one given
up on. -/
inductive Wire (w : SearchWorld σ M) : Prop where
  | free (hpending : w.desk.pendingMatchingSymbols = [])
      (habandoned : w.desk.matchingSymbolsAbandoned = none) (howed : w.owed = [])
  | waits (s : σ) (t : ℕ) (hpending : w.desk.pendingMatchingSymbols = [(s, t)])
      (habandoned : w.desk.matchingSymbolsAbandoned = none) (howed : w.owed = [s])
  | late (s : σ) (hpending : w.desk.pendingMatchingSymbols = [])
      (habandoned : w.desk.matchingSymbolsAbandoned = some (number s)) (howed : w.owed = [s])
      (hended : s ∈ w.ended.map Prod.fst)

structure Kept (w : SearchWorld σ M) : Prop where
  wire : w.Wire number
  nodup : w.asked.Nodup
  parts : (w.ended.map Prod.fst ++ w.desk.pendingMatchingSymbols.map Prod.fst ++
    w.desk.queuedMatchingSymbols).Perm w.asked
  order : (w.reached ++ w.desk.queuedMatchingSymbols).Sublist w.asked
  own : ∀ s m, (s, some m) ∈ w.ended → (s, m) ∈ w.replied

section

variable {number} {w : SearchWorld σ M}

omit [DecidableEq σ]

lemma after_nil : w.after ([], w.desk) = w := by
  simp [after]

lemma after_append (a b : List (SearchAct σ M)) (d d' : SearchDesk σ) :
    w.after (a ++ b, d') = (w.after (a, d)).after (b, d') := by
  simp [after]

lemma Kept.send (h : w.Kept number) (hfree : w.desk.matchingSymbolsInFlight = false) {s : σ}
    {rest : List σ} (hqueued : w.desk.queuedMatchingSymbols = s :: rest) (fails : σ → Bool)
    (now : ℕ) : (w.after ({ w.desk with queuedMatchingSymbols := rest }.sendMatchingSymbolsRequest
      fails now s)).Kept number := by
  obtain ⟨hwire, hnodup, hparts, horder, hown⟩ := h
  rw [hqueued] at hparts horder
  cases hwire with
  | waits s' t hpending => simp [SearchDesk.matchingSymbolsInFlight, hpending] at hfree
  | late s' _ habandoned => simp [SearchDesk.matchingSymbolsInFlight, habandoned] at hfree
  | free hpending habandoned howed =>
      rw [hpending, List.map_nil, List.append_nil] at hparts
      unfold SearchDesk.sendMatchingSymbolsRequest
      split_ifs with hsent
      · refine ⟨.waits s (now + matchingSymbolsTimeout) ?_ habandoned ?_, hnodup, ?_, ?_, ?_⟩
        · simp [after, hpending]
        · simp [after, howed, SearchAct.sends, List.filterMap_cons]
        · simpa [after, hpending, SearchAct.ends, List.filterMap_cons] using hparts
        · simpa [after, SearchAct.sends, List.filterMap_cons] using horder
        · simpa [after, SearchAct.ends, List.filterMap_cons] using hown
      · refine ⟨.free hpending habandoned ?_, hnodup, ?_, ?_, ?_⟩
        · simp [after, howed, SearchAct.sends, List.filterMap_cons]
        · simpa [after, hpending, SearchAct.ends, List.filterMap_cons] using hparts
        · simpa [after, SearchAct.sends, List.filterMap_cons] using
            ((List.sublist_cons_self s rest).append_left w.reached).trans horder
        · intro s' m hmem
          refine hown s' m ?_
          simpa [after, SearchAct.ends, List.filterMap_cons] using hmem

lemma Kept.sendNext (fails : σ → Bool) (now : ℕ) : ∀ (left : ℕ) {w : SearchWorld σ M},
    w.Kept number → (w.after (w.desk.sendNext fails now left)).Kept number
  | 0, _, h => after_nil.symm ▸ h
  | left + 1, w, h => by
      rw [SearchDesk.sendNext]
      split_ifs with hflight
      · exact after_nil.symm ▸ h
      · cases hqueued : w.desk.queuedMatchingSymbols with
        | nil => exact after_nil.symm ▸ h
        | cons s rest =>
            have hsent := h.send (Bool.eq_false_iff.2 hflight) hqueued fails now
            dsimp only
            rw [after_append _ _ ({ w.desk with
              queuedMatchingSymbols := rest }.sendMatchingSymbolsRequest (M := M) fails now s).2]
            exact Kept.sendNext fails now left hsent

lemma Kept.enqueue {w : SearchWorld σ M} (h : w.Kept number) {s : σ} (hnew : s ∉ w.asked) :
    Kept number { w with
      asked := w.asked ++ [s]
      desk := { w.desk with queuedMatchingSymbols := w.desk.queuedMatchingSymbols ++ [s] } } where
  wire := by
    cases h.wire with
    | free hpending habandoned howed => exact .free hpending habandoned howed
    | waits s t hpending habandoned howed => exact .waits s t hpending habandoned howed
    | late s hpending habandoned howed hended => exact .late s hpending habandoned howed hended
  nodup := by simpa [List.nodup_append] using ⟨h.nodup, fun a ha heq => hnew (heq ▸ ha)⟩
  parts := by simpa using h.parts.append_right [s]
  order := by simpa using h.order.append_right [s]
  own := h.own

lemma Kept.ask {w : SearchWorld σ M} (h : w.Kept number) {s : σ} (hnew : s ∉ w.asked) (now : ℕ)
    (fails : σ → Bool) :
    ({ w with asked := w.asked ++ [s] }.after (w.desk.askMatchingSymbols fails now s)).Kept
      number := by
  have hqueued := h.enqueue hnew
  rw [SearchDesk.askMatchingSymbols]
  split_ifs with hwait
  · convert hqueued using 1
    simp [after]
  · rw [Bool.or_eq_true, not_or] at hwait
    obtain ⟨hflight, hnone⟩ := hwait
    have hnil : w.desk.queuedMatchingSymbols = [] := by simpa using hnone
    have hgoes := @Kept.send _ _ _ _ hqueued (Bool.eq_false_iff.2 hflight) s [] (by simp [hnil])
      fails now
    convert hgoes using 1
    rw [← hnil]
    rfl

/-! ## A message -/

variable {d : SearchDesk σ}

lemma position_waits {s : σ} {t : ℕ}
    (hpending : d.pendingMatchingSymbols = [(s, t)]) : d.position number (number s) = some 0 := by
  simp [SearchDesk.position, hpending]

lemma position_free (hpending : d.pendingMatchingSymbols = []) (rid : ℕ) :
    d.position number rid = none := by
  simp [SearchDesk.position, hpending]

lemma reply_waits {s : σ} {t : ℕ}
    (hpending : d.pendingMatchingSymbols = [(s, t)]) (m : M) (named : Bool) :
    d.reply number (some m) true (stated number s named) =
      ([.matched s m], { d with pendingMatchingSymbols := [] }) := by
  cases named with
  | true => simp [SearchDesk.reply, stated, position_waits hpending, SearchDesk.removed, hpending]
  | false => simp [SearchDesk.reply, stated, SearchDesk.removed, hpending]

lemma reply_late {s : σ} (hpending : d.pendingMatchingSymbols = [])
    (habandoned : d.matchingSymbolsAbandoned = some (number s)) (m : M) (named : Bool) :
    d.reply number (some m) true (stated number s named) =
      ([], { d with matchingSymbolsAbandoned := none }) := by
  cases named with
  | true => simp [SearchDesk.reply, stated, position_free hpending, habandoned]
  | false => simp [SearchDesk.reply, stated, hpending, habandoned]

lemma chain_none {s : σ} (h : number s ∉ d.pendingOptionParams) :
    ((some (number s)).bind fun rid => d.pendingOptionParams.findIdx? (· = rid)) = none := by
  rw [Option.bind_some, List.findIdx?_eq_none_iff]
  exact fun n hn => decide_eq_false fun heq => h (heq ▸ hn)

lemma reject_waits {s : σ} {t : ℕ}
    (hpending : d.pendingMatchingSymbols = [(s, t)]) (h : number s ∉ d.pendingOptionParams) :
    (d.reject number (stated number s true) false : List (SearchAct σ M) × SearchDesk σ) =
      ([.refused s], { d with pendingMatchingSymbols := [] }) := by
  simp only [SearchDesk.reject, stated, if_true, chain_none h]
  simp [position_waits hpending, SearchDesk.removed, hpending]

lemma reject_late {s : σ} (hpending : d.pendingMatchingSymbols = [])
    (habandoned : d.matchingSymbolsAbandoned = some (number s))
    (h : number s ∉ d.pendingOptionParams) :
    (d.reject number (stated number s true) false : List (SearchAct σ M) × SearchDesk σ) =
      ([], { d with matchingSymbolsAbandoned := none }) := by
  simp only [SearchDesk.reject, stated, if_true, chain_none h]
  simp [position_free hpending, habandoned]

lemma reject_free (hpending : d.pendingMatchingSymbols = [])
    (rid : Option ℕ) (namedNothing : Bool) :
    (d.reject number rid namedNothing : List (SearchAct σ M) × SearchDesk σ).1 = [] := by
  have hnone : rid.bind (d.position number) = none := by
    cases rid with
    | none => rfl
    | some n => exact position_free hpending n
  simp only [SearchDesk.reject, hnone]
  split
  · rfl
  · split_ifs <;> rfl

lemma Kept.ends (h : w.Kept number) {s : σ} {t : ℕ}
    (hpending : w.desk.pendingMatchingSymbols = [(s, t)])
    (habandoned : w.desk.matchingSymbolsAbandoned = none) {o : Option M} {replied : List (σ × M)}
    (hold : ∀ p ∈ w.replied, p ∈ replied) (ho : ∀ m ∈ o, (s, m) ∈ replied) :
    Kept number { w with
      desk := { w.desk with pendingMatchingSymbols := [] }
      owed := []
      ended := w.ended ++ [(s, o)]
      replied := replied } where
  wire := .free rfl habandoned rfl
  nodup := h.nodup
  parts := by simpa [hpending] using h.parts
  order := h.order
  own s' m hmem := by
    rcases List.mem_append.1 hmem with hmem | hmem
    · exact hold _ (h.own s' m hmem)
    · obtain ⟨rfl, rfl⟩ := Prod.mk.inj (List.mem_singleton.1 hmem)
      exact ho m rfl

lemma Kept.frees (h : w.Kept number) (hpending : w.desk.pendingMatchingSymbols = [])
    {replied : List (σ × M)} (hold : ∀ p ∈ w.replied, p ∈ replied) :
    Kept number { w with
      desk := { w.desk with matchingSymbolsAbandoned := none }
      owed := []
      replied := replied } where
  wire := .free hpending rfl rfl
  nodup := h.nodup
  parts := h.parts
  order := h.order
  own s m hmem := hold _ (h.own s m hmem)

lemma eq_of_owed {s s' : σ} (howed : w.owed = [s']) (hs : s ∈ w.owed) : s = s' := by
  rwa [howed, List.mem_singleton] at hs

lemma Kept.not_waiting (h : w.Kept number) {s : σ} (hended : s ∈ w.ended.map Prod.fst) {t : ℕ} :
    w.desk.pendingMatchingSymbols ≠ [(s, t)] := by
  intro hpending
  have hnodup := h.parts.nodup_iff.2 h.nodup
  rw [hpending, List.append_assoc, List.nodup_append] at hnodup
  exact hnodup.2.2 s hended s (by simp) rfl

lemma Kept.initial : (({} : SearchWorld σ M)).Kept number :=
  ⟨.free rfl rfl rfl, List.nodup_nil, List.Perm.nil, List.Sublist.refl _, by simp⟩

end

section

variable {number} {w : SearchWorld σ M}

/-! ## Every step -/

lemma Kept.replied (h : w.Kept number) {s : σ} (hs : s ∈ w.owed) (m : M) (named : Bool) :
    (w.step number (.reply s m named)).Kept number := by
  cases h.wire with
  | free _ _ howed => exact absurd (howed ▸ hs) List.not_mem_nil
  | waits s' t hpending habandoned howed =>
      obtain rfl := eq_of_owed howed hs
      rw [step, reply_waits hpending]
      simpa [after, howed, SearchAct.sends, SearchAct.ends, List.filterMap_cons] using
        @Kept.ends _ _ _ _ h _ _ hpending habandoned (some m) (w.replied ++ [(s, m)])
          (fun p hp => List.mem_append_left _ hp) (by simp)
  | late s' hpending habandoned howed =>
      obtain rfl := eq_of_owed howed hs
      rw [step, reply_late hpending habandoned]
      simpa [after, howed] using @Kept.frees _ _ _ _ h hpending (w.replied ++ [(s, m)])
        fun p hp => List.mem_append_left _ hp

lemma Kept.rejected (h : w.Kept number) {s : σ} (hs : s ∈ w.owed)
    (hchain : number s ∉ w.desk.pendingOptionParams) :
    (w.step number (.reject s true)).Kept number := by
  cases h.wire with
  | free _ _ howed => exact absurd (howed ▸ hs) List.not_mem_nil
  | waits s' t hpending habandoned howed =>
      obtain rfl := eq_of_owed howed hs
      rw [step, Bool.not_true, reject_waits hpending hchain]
      simpa [after, howed, SearchAct.sends, SearchAct.ends, List.filterMap_cons] using
        h.ends hpending habandoned (o := none) (fun p hp => hp) (by simp)
  | late s' hpending habandoned howed =>
      obtain rfl := eq_of_owed howed hs
      rw [step, Bool.not_true, reject_late hpending habandoned hchain]
      simpa [after, howed] using h.frees hpending fun p hp => hp

lemma Kept.swept (h : w.Kept number) (now : ℕ) : (w.step number (.sweep now)).Kept number := by
  by_cases hnone : ∀ p ∈ w.desk.pendingMatchingSymbols, now < p.2
  · have hkeep : w.desk.pendingMatchingSymbols.filter (now < ·.2) =
        w.desk.pendingMatchingSymbols := List.filter_eq_self.2 fun p hp => by simpa using hnone p hp
    have hnil : w.desk.pendingMatchingSymbols.filter (·.2 ≤ now) = [] :=
      List.filter_eq_nil_iff.2 fun p hp => by simpa using hnone p hp
    have hsame : w.step number (.sweep now) = w := by
      simp [step, SearchDesk.sweep, hkeep, hnil, after]
    rwa [hsame]
  obtain ⟨hwire, hnodup, hparts, horder, hown⟩ := h
  cases hwire with
  | free hpending => exact absurd (by simp [hpending]) hnone
  | late s hpending => exact absurd (by simp [hpending]) hnone
  | waits s t hpending habandoned howed =>
      have hnow : t ≤ now := by simpa [hpending] using hnone
      rw [hpending] at hparts
      refine ⟨.late s ?_ ?_ ?_ ?_, hnodup, ?_, ?_, ?_⟩
      · simp [step, after, SearchDesk.sweep, hpending, hnow]
      · simp [step, after, SearchDesk.sweep, hpending, hnow]
      · simp [step, after, SearchDesk.sweep, hpending, hnow, howed, SearchAct.sends]
      · simp [step, after, SearchDesk.sweep, hpending, hnow, SearchAct.ends]
      · simpa [step, after, SearchDesk.sweep, hpending, hnow, SearchAct.ends] using hparts
      · simpa [step, after, SearchDesk.sweep, hpending, hnow, SearchAct.sends,
          List.filterMap_cons] using horder
      · simpa [step, after, SearchDesk.sweep, hpending, hnow, SearchAct.ends] using hown

lemma Kept.disconnected (h : w.Kept number) : (w.step number .disconnect).Kept number := by
  have hends : ∀ l : List σ, (l.map (SearchAct.refused (M := M))).filterMap SearchAct.ends =
      l.map fun s => (s, none) := fun l => by
    induction l with
    | nil => rfl
    | cons s l ih => simpa [SearchAct.ends, List.filterMap_cons] using ih
  have hsends : ∀ l : List σ, (l.map (SearchAct.refused (M := M))).filterMap SearchAct.sends = [] :=
    fun l => by simp [List.filterMap_map, SearchAct.sends]
  have hpending : w.desk.pendingMatchingSymbols.map (fun p => SearchAct.refused (M := M) p.1) =
      (w.desk.pendingMatchingSymbols.map Prod.fst).map .refused := by
    rw [List.map_map]
    rfl
  rw [step, SearchDesk.failPendingLookups, hpending, ← List.map_append]
  refine ⟨.free rfl rfl ?_, h.nodup, ?_, ?_, fun s m hmem => ?_⟩
  · exact hsends _
  · have hfst (l : List σ) : (l.map fun s => (s, (none : Option M))).map Prod.fst = l := by
      rw [List.map_map]
      exact List.map_id l
    have hparts := h.parts
    simp only [after]
    rwa [hends, List.map_append, hfst, List.map_nil, List.append_nil, List.append_nil,
      ← List.append_assoc]
  · simp only [after, hsends, List.append_nil]
    exact (List.sublist_append_left _ _).trans h.order
  · simp only [after, hends] at hmem
    rcases List.mem_append.1 hmem with hmem | hmem
    · exact h.own s m hmem
    · obtain ⟨_, -, heq⟩ := List.mem_map.1 hmem
      exact absurd (Prod.mk.inj heq).2 (by simp)

/-- **Every step keeps it**, where a reject names its search. -/
theorem Kept.step (h : w.Kept number) {e : SearchEvent σ M} (hlawful : w.Lawful e)
    (hnamed : w.Named number e) : (w.step number e).Kept number := by
  cases e with
  | ask s now fails => exact h.ask hlawful now fails
  | lap left now fails => exact h.sendNext fails now left
  | sweep now => exact h.swept now
  | acknowledgement m echoed =>
      have hsame : w.step number (.acknowledgement m echoed) = w := by
        cases m <;> exact after_nil
      rw [hsame]
      exact h
  | reply s m named => exact h.replied hlawful m named
  | reject s named =>
      obtain ⟨rfl, hchain⟩ := hnamed
      exact h.rejected hlawful hchain
  | disconnect => exact h.disconnected
  | reconnect | others =>
      obtain ⟨hwire, hnodup, hparts, horder, hown⟩ := h
      refine ⟨?_, hnodup, hparts, horder, hown⟩
      cases hwire with
      | free hpending habandoned howed => exact .free hpending habandoned howed
      | waits s t hpending habandoned howed => exact .waits s t hpending habandoned howed
      | late s hpending habandoned howed hended => exact .late s hpending habandoned howed hended

/-! ## What is right of a state -/

lemma Kept.right (h : w.Kept number) : w.Right number where
  one := by
    cases h.wire with
    | free hpending habandoned howed => simp [hpending, habandoned, howed]
    | waits s t hpending habandoned howed => simp [hpending, habandoned, howed]
    | late s hpending habandoned howed => simp [hpending, habandoned, howed]
  once := ⟨h.nodup, h.parts⟩
  own := h.own
  inOrder := h.order
  free hnone := by
    cases h.wire with
    | free hpending habandoned _ => simp [SearchDesk.matchingSymbolsInFlight, hpending, habandoned]
    | waits s t _ _ howed => exact absurd (howed.symm.trans hnone) (by simp)
    | late s _ _ howed => exact absurd (howed.symm.trans hnone) (by simp)
  goes hfree s hs left now fails := by
    cases hqueued : w.desk.queuedMatchingSymbols with
    | nil => simp [hqueued] at hs
    | cons s' rest =>
        obtain rfl : s' = s := by simpa [hqueued] using hs
        rw [SearchWorld.step, SearchDesk.sendNext, if_neg (by simp [hfree]), hqueued]
        simp only [after, List.filterMap_append, List.mem_append,
          SearchDesk.sendMatchingSymbolsRequest]
        split_ifs with hsent
        · exact Or.inl (Or.inr (Or.inl (by simp [SearchAct.sends])))
        · exact Or.inr (Or.inr (Or.inl (by simp [SearchAct.ends])))
  expires p hp now hnow := by
    refine List.mem_append_right _ (List.mem_filterMap.2 ⟨.refused p.1, ?_, rfl⟩)
    exact List.mem_map.2 ⟨p, List.mem_filter.2 ⟨hp, by simpa using hnow⟩, rfl⟩
  answered s hs hopen m named := by
    cases h.wire with
    | free _ _ howed => exact absurd (howed ▸ hs) List.not_mem_nil
    | waits s' t hpending _ howed =>
        obtain rfl := eq_of_owed howed hs
        rw [SearchWorld.step, reply_waits hpending]
        simp [after, SearchAct.ends]
    | late s' _ _ howed hended => exact absurd (eq_of_owed howed hs ▸ hended) hopen
  refused s hs hopen hchain := by
    cases h.wire with
    | free _ _ howed => exact absurd (howed ▸ hs) List.not_mem_nil
    | waits s' t hpending _ howed =>
        obtain rfl := eq_of_owed howed hs
        rw [SearchWorld.step, Bool.not_true, reject_waits hpending hchain]
        simp [after, SearchAct.ends]
    | late s' _ _ howed hended => exact absurd (eq_of_owed howed hs ▸ hended) hopen
  late s hs hended m named := by
    cases h.wire with
    | free _ _ howed => exact absurd (howed ▸ hs) List.not_mem_nil
    | waits s' t hpending _ howed =>
        exact absurd hpending (h.not_waiting (eq_of_owed howed hs ▸ hended))
    | late s' hpending habandoned howed =>
        obtain rfl := eq_of_owed howed hs
        refine ⟨?_, ?_⟩
        · rw [SearchWorld.step, reply_late hpending habandoned]
          simp [after]
        · simp [SearchWorld.step, after, reject_free hpending]

lemma Kept.run (es : List (SearchEvent σ M)) : ∀ {w : SearchWorld σ M}, w.Kept number →
    Goes number (Named number) w es → (w.run number es).Kept number := by
  induction es with
  | nil => exact fun h _ => h
  | cons e es ih =>
      intro w h hgoes
      obtain ⟨hlawful, hnamed, hrest⟩ := hgoes
      exact ih (h.step hlawful hnamed) hrest

end

end SearchWorld

open SearchWorld in
/-- **Symbol searches are answered one at a time, each with its own matches**, in every run whose
rejects name their search. -/
theorem searches_one_at_a_time [DecidableEq σ] (es : List (SearchEvent σ M))
    (h : Goes number (Named number) {} es) :
    (({} : SearchWorld σ M).run number es).Right number :=
  (Kept.initial.run es h).right

open SearchWorld in
/-- One number asked twice, the first given up on: its late reply ends nothing. -/
theorem searches_one_at_a_time_late :
    Goes (fun s : ℕ × String => s.1) (Named fun s => s.1) ({} : SearchWorld (ℕ × String) ℕ)
        [.ask (7, "IB") 0 fun _ => false, .sweep 1000, .ask (7, "MS") 1500 fun _ => false,
          .reply (7, "IB") 1 false, .lap 5 2000 fun _ => false, .reply (7, "MS") 2 true] ∧
      (({} : SearchWorld (ℕ × String) ℕ).run (fun s => s.1)
        [.ask (7, "IB") 0 fun _ => false, .sweep 1000, .ask (7, "MS") 1500 fun _ => false,
          .reply (7, "IB") 1 false, .lap 5 2000 fun _ => false, .reply (7, "MS") 2 true]).Right
        fun s => s.1 := by
  have hgoes : Goes (fun s : ℕ × String => s.1) (Named fun s => s.1)
      ({} : SearchWorld (ℕ × String) ℕ)
      [.ask (7, "IB") 0 fun _ => false, .sweep 1000, .ask (7, "MS") 1500 fun _ => false,
        .reply (7, "IB") 1 false, .lap 5 2000 fun _ => false, .reply (7, "MS") 2 true] := by
    simp only [Goes, Lawful, Named]
    decide
  exact ⟨hgoes, searches_one_at_a_time _ _ hgoes⟩

/-! ## A reject that names nothing -/

def SearchEvent.waits : SearchEvent σ M → Prop
  | .lap .. | .sweep _ => True
  | _ => False

open SearchWorld in
/-- Behind a search given up on, nothing goes, however long the engine runs. -/
lemma stuck [DecidableEq σ] {es : List (SearchEvent σ M)} (hes : ∀ e ∈ es, e.waits) :
    ∀ {w : SearchWorld σ M}, w.desk.pendingMatchingSymbols = [] →
      w.desk.matchingSymbolsAbandoned.isSome → w.run number es = w := by
  induction es with
  | nil => exact fun _ _ => rfl
  | cons e es ih =>
      intro w hpending habandoned
      rw [List.forall_mem_cons] at hes
      have hsame : w.step number e = w := by
        cases e with
        | lap left now fails =>
            cases left with
            | zero => exact after_nil
            | succ left =>
                rw [step, SearchDesk.sendNext, if_pos (by
                  simp [SearchDesk.matchingSymbolsInFlight, habandoned])]
                exact after_nil
        | sweep now =>
            obtain ⟨⟨up, pending, abandoned, queued, chains, secdef⟩, _⟩ := w
            obtain rfl : pending = [] := hpending
            simp [step, SearchDesk.sweep, after]
        | _ => exact absurd hes.1 (by simp [SearchEvent.waits])
      rw [run, List.foldl_cons, hsame]
      exact ih hes.2 hpending habandoned

open SearchWorld in
/-- **A search rejected without its number is never done with**: the venue owes nothing, and the
search asked behind it waits for ever. -/
theorem nameless_reject_holds_the_wire : ∃ (es : List (SearchEvent (ℕ × String) ℕ)),
    Goes (fun s => s.1) (fun _ _ => True) {} es ∧
    ∀ es' : List (SearchEvent (ℕ × String) ℕ), (∀ e ∈ es', e.waits) →
      (({} : SearchWorld (ℕ × String) ℕ).run (fun s => s.1) (es ++ es')).owed = [] ∧
      (8, "MS") ∈ (({} : SearchWorld (ℕ × String) ℕ).run (fun s => s.1)
        (es ++ es')).desk.queuedMatchingSymbols := by
  refine ⟨[.ask (7, "IB") 0 fun _ => false, .reject (7, "IB") false, .sweep 1000,
    .ask (8, "MS") 1500 fun _ => false], ?_, fun es' hes' => ?_⟩
  · simp only [Goes, Lawful]
    decide
  · rw [run, List.foldl_append]
    change (run _ _ es').owed = [] ∧ _ ∈ (run _ _ es').desk.queuedMatchingSymbols
    rw [stuck _ hes' (by decide) (by decide)]
    decide

end IbkrDx.SymbolSearch
