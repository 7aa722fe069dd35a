import Mathlib.Data.List.MinMax
import Mathlib.Data.Prod.Lex
import IbkrDx.Lib.Drain
import IbkrDx.Lib.Runs

/-!
# The books that wait to be read

Every book of the session waits in one queue, which holds so many rows and no more.  A book that has
run away is given up whole, and its request is told.

* **`book_whole_or_given_up`** — every book stands whole or was given up, and said to be once.

A row is of any type, so it may carry a number of its own.
-/

namespace IbkrDx

def streamBacklogLimit : ℕ := 100000

structure BacklogRow (α : Type) where
  reqId : ℕ
  row : α
  deriving DecidableEq

inductive BacklogEntry (α : Type) where
  | pushed (row : α)
  /-- Taken by a read, for its reader or for nobody. -/
  | handed (row : α)
  /-- Given up, with so many rows waiting. -/
  | gaveUp (entries : ℕ)
  /-- A read took the notice that it was given up. -/
  | said

namespace BacklogEntry

variable {α : Type}

def pushed? : BacklogEntry α → Option α
  | .pushed row => some row
  | _ => none

def handed? : BacklogEntry α → Option α
  | .handed row => some row
  | _ => none

def IsRow : BacklogEntry α → Prop
  | .pushed _ => True
  | .handed _ => True
  | _ => False

/-- Whether it can follow a book's being given up. -/
def IsAfter : BacklogEntry α → Prop
  | .pushed _ => True
  | .said => True
  | _ => False

end BacklogEntry

def rowsPushed {α : Type} (l : List (BacklogEntry α)) : List α := l.filterMap BacklogEntry.pushed?

def rowsHanded {α : Type} (l : List (BacklogEntry α)) : List α := l.filterMap BacklogEntry.handed?

def timesSaid {α : Type} (l : List (BacklogEntry α)) : ℕ :=
  l.countP fun
    | .said => true
    | _ => false

structure DepthBacklog (α : Type) where
  updates : List (ℕ × BacklogRow α) := []
  dropped : List ℕ := []
  /-- Whose book was given up, and how many rows it had. -/
  unsaid : List (ℕ × ℕ × ℕ) := []
  /-- What has become of each request's book since it was last purged. -/
  span : ℕ → List (BacklogEntry α) := fun _ => []

/-- What happens to the queue.  `walk` is where the walk over the books finds each, which decides
between books as long as one another. -/
inductive BacklogEvent (α : Type) where
  | push (stamp noticeStamp : ℕ) (update : BacklogRow α) (walk : ℕ → ℕ)
  /-- A read of what is stamped below a cut, each request's records taken, left or dropped. -/
  | read (cut : ℕ) (fate : ℕ → Fate)
  | takeDepthUpdatesFor (reqId : ℕ)
  | takeDepthDropFor (reqId : ℕ)
  | purge (reqId : ℕ)

namespace DepthBacklog

variable {α : Type}

/-! ## Steps -/

def waiting (b : DepthBacklog α) (r : ℕ) : ℕ := b.updates.countP fun e => e.2.reqId = r

def worst (b : DepthBacklog α) (walk : ℕ → ℕ) : Option ℕ :=
  (b.updates.map (·.2.reqId)).dedup.argmax fun r => toLex (b.waiting r, walk r)

def note (b : DepthBacklog α) (r : ℕ) (e : BacklogEntry α) : DepthBacklog α :=
  { b with span := fun r' => if r' = r then b.span r' ++ [e] else b.span r' }

def giveUp (b : DepthBacklog α) (stamp r : ℕ) : DepthBacklog α :=
  { b with
    updates := b.updates.filter (·.2.reqId ≠ r)
    dropped := r :: b.dropped
    unsaid := b.unsaid ++ [(stamp, r, b.waiting r)] }.note r (.gaveUp (b.waiting r))

def append (b : DepthBacklog α) (stamp : ℕ) (update : BacklogRow α) : DepthBacklog α :=
  { b with updates := b.updates ++ [(stamp, update)] }

/-- `push_depth_update`. -/
def push (b : DepthBacklog α) (stamp noticeStamp : ℕ) (update : BacklogRow α) (walk : ℕ → ℕ) :
    DepthBacklog α :=
  let b := b.note update.reqId (.pushed update.row)
  if update.reqId ∈ b.dropped then b
  else if streamBacklogLimit ≤ b.updates.length then
    match b.worst walk with
    | none => b.append stamp update
    | some worst =>
        if worst = update.reqId then b.giveUp noticeStamp worst
        else (b.giveUp noticeStamp worst).append stamp update
  else b.append stamp update

def takenBy {τ : Type} (cut : ℕ) (fate : ℕ × τ → Fate) (q : List (ℕ × τ)) : List (ℕ × τ) :=
  (Drain.below cut q).filter fun e => fate e ≠ .leave

def tell (b : DepthBacklog α) (notices : List (ℕ × ℕ × ℕ)) (rows : List (ℕ × BacklogRow α)) :
    ℕ → List (BacklogEntry α) :=
  fun r => b.span r ++ ((notices.filter (·.2.1 = r)).map (fun _ => .said) ++
    (rows.filter (·.2.reqId = r)).map (.handed ·.2.row))

def read (b : DepthBacklog α) (cut : ℕ) (fate : ℕ → Fate) : DepthBacklog α :=
  { b with
    unsaid := Drain.kept cut (fate ·.2.1) b.unsaid
    updates := Drain.kept cut (fate ·.2.reqId) b.updates
    span := b.tell (takenBy cut (fate ·.2.1) b.unsaid) (takenBy cut (fate ·.2.reqId) b.updates) }

def takeDepthUpdatesFor (b : DepthBacklog α) (r : ℕ) : DepthBacklog α :=
  { b with
    updates := b.updates.filter (·.2.reqId ≠ r)
    span := b.tell [] (b.updates.filter (·.2.reqId = r)) }

def takeDepthDropFor (b : DepthBacklog α) (r : ℕ) : DepthBacklog α :=
  { b with
    unsaid := b.unsaid.eraseP (·.2.1 = r)
    span := b.tell (b.unsaid.find? (·.2.1 = r)).toList [] }

/-- `purge_depth_updates`. -/
def purge (b : DepthBacklog α) (r : ℕ) : DepthBacklog α :=
  { updates := b.updates.filter (·.2.reqId ≠ r)
    dropped := b.dropped.filter (· ≠ r)
    unsaid := b.unsaid.filter (·.2.1 ≠ r)
    span := fun r' => if r' = r then [] else b.span r' }

def step (b : DepthBacklog α) : BacklogEvent α → DepthBacklog α
  | .push stamp noticeStamp update walk => b.push stamp noticeStamp update walk
  | .read cut fate => b.read cut fate
  | .takeDepthUpdatesFor r => b.takeDepthUpdatesFor r
  | .takeDepthDropFor r => b.takeDepthDropFor r
  | .purge r => b.purge r

/-! ## How a book is -/

def rowsOf (b : DepthBacklog α) (r : ℕ) : List α :=
  (b.updates.filter (·.2.reqId = r)).map (·.2.row)

def noticesOf (b : DepthBacklog α) (r : ℕ) : List (ℕ × ℕ × ℕ) := b.unsaid.filter (·.2.1 = r)

/-- **A book stands whole**: what was handed out and what waits is what was pushed. -/
structure Standing (b : DepthBacklog α) (r : ℕ) : Prop where
  kept : r ∉ b.dropped
  whole : rowsHanded (b.span r) ++ b.rowsOf r = rowsPushed (b.span r)
  rows : ∀ e ∈ b.span r, e.IsRow
  quiet : b.noticesOf r = []

/-- **A book was given up**: once, with some of its rows waiting behind those handed out, and from
there on none is handed out, and the notice waits or has been said once. -/
structure GivenUp (b : DepthBacklog α) (r : ℕ) : Prop where
  gone : r ∈ b.dropped
  none_waits : b.rowsOf r = []
  parts : ∃ before given after, b.span r = before ++ .gaveUp given.length :: after ∧
    rowsHanded before ++ given <+: rowsPushed before ∧ given ≠ [] ∧
      (∀ e ∈ before, e.IsRow) ∧ (∀ e ∈ after, e.IsAfter) ∧
        timesSaid after + (b.noticesOf r).length = 1

def Kept (b : DepthBacklog α) (r : ℕ) : Prop := b.Standing r ∨ b.GivenUp r

/-! ## What a step leaves alone -/

section

variable {b c : DepthBacklog α} {r : ℕ}

/-- Nothing has become of a request's book. -/
structure Same (b c : DepthBacklog α) (r : ℕ) : Prop where
  dropped : r ∈ c.dropped ↔ r ∈ b.dropped
  rows : c.rowsOf r = b.rowsOf r
  notices : c.noticesOf r = b.noticesOf r
  span : c.span r = b.span r

lemma Kept.same (h : b.Kept r) (hsame : Same b c r) : c.Kept r := by
  rcases h with h | h
  · refine Or.inl ⟨fun hmem => h.kept (hsame.dropped.1 hmem), ?_, ?_, ?_⟩
    · rw [hsame.span, hsame.rows]
      exact h.whole
    · rw [hsame.span]
      exact h.rows
    · rw [hsame.notices]
      exact h.quiet
  · refine Or.inr ⟨hsame.dropped.2 h.gone, hsame.rows.trans h.none_waits, ?_⟩
    rw [hsame.span, hsame.notices]
    exact h.parts

lemma filter_filter_ne {τ : Type} (key : τ → ℕ) {r w : ℕ} (hne : r ≠ w) (l : List τ) :
    (l.filter (key · ≠ w)).filter (key · = r) = l.filter (key · = r) := by
  rw [List.filter_filter]
  refine List.filter_congr fun e _ => ?_
  by_cases he : key e = r
  · simp [he, hne]
  · simp [he]

lemma filter_filter_self {τ : Type} (key : τ → ℕ) (r : ℕ) (l : List τ) :
    (l.filter (key · ≠ r)).filter (key · = r) = [] := by
  rw [List.filter_filter, List.filter_eq_nil_iff]
  intro e _
  simp

lemma same_note {w : ℕ} (hne : r ≠ w) (e : BacklogEntry α) : Same b (b.note w e) r where
  dropped := Iff.rfl
  rows := rfl
  notices := rfl
  span := if_neg hne

lemma same_giveUp {w : ℕ} (hne : r ≠ w) (stamp : ℕ) : Same b (b.giveUp stamp w) r where
  dropped := by
    change r ∈ w :: b.dropped ↔ _
    rw [List.mem_cons, or_iff_right hne]
  rows := congrArg (List.map _) (filter_filter_ne (fun e : ℕ × BacklogRow α => e.2.reqId) hne _)
  notices := by
    change (b.unsaid ++ [_]).filter _ = _
    rw [List.filter_append, List.filter_cons_of_neg (by simpa using hne.symm), List.filter_nil,
      List.append_nil]
    rfl
  span := if_neg hne

lemma same_append {update : BacklogRow α} (hne : r ≠ update.reqId) (stamp : ℕ) :
    Same b (b.append stamp update) r where
  dropped := Iff.rfl
  rows := by
    change ((b.updates ++ [_]).filter _).map _ = _
    rw [List.filter_append, List.filter_cons_of_neg (by simpa using hne.symm), List.filter_nil,
      List.append_nil]
    rfl
  notices := rfl
  span := rfl

lemma Same.trans {d : DepthBacklog α} (h : Same b c r) (h' : Same c d r) : Same b d r where
  dropped := h'.dropped.trans h.dropped
  rows := h'.rows.trans h.rows
  notices := h'.notices.trans h.notices
  span := h'.span.trans h.span

lemma same_purge {w : ℕ} (hne : r ≠ w) : Same b (b.purge w) r where
  dropped := by simp [purge, hne]
  rows := congrArg (List.map _) (filter_filter_ne (fun e : ℕ × BacklogRow α => e.2.reqId) hne _)
  notices := filter_filter_ne (fun e : ℕ × ℕ × ℕ => e.2.1) hne _
  span := if_neg hne

end

/-! ## What becomes of a book -/

section

variable {b : DepthBacklog α} {r : ℕ}

lemma span_note (e : BacklogEntry α) : (b.note r e).span r = b.span r ++ [e] := if_pos rfl

lemma rowsPushed_append (l l' : List (BacklogEntry α)) :
    rowsPushed (l ++ l') = rowsPushed l ++ rowsPushed l' := List.filterMap_append

lemma rowsHanded_append (l l' : List (BacklogEntry α)) :
    rowsHanded (l ++ l') = rowsHanded l ++ rowsHanded l' := List.filterMap_append

lemma timesSaid_append (l l' : List (BacklogEntry α)) : timesSaid (l ++ l') = timesSaid l + timesSaid l' :=
  List.countP_append

lemma Standing.pushed (h : b.Standing r) (stamp : ℕ) (row : α) :
    ((b.note r (.pushed row)).append stamp ⟨r, row⟩).Standing r where
  kept := h.kept
  whole := by
    have hrows : ((b.note r (.pushed row)).append stamp ⟨r, row⟩).rowsOf r =
        b.rowsOf r ++ [row] := by
      change ((b.updates ++ [(stamp, (⟨r, row⟩ : BacklogRow α))]).filter _).map _ = _
      rw [List.filter_append, List.map_append, List.filter_cons_of_pos (by simp), List.filter_nil]
      rfl
    have hspan : ((b.note r (.pushed row)).append stamp ⟨r, row⟩).span r =
        b.span r ++ [.pushed row] := span_note _
    rw [hrows, hspan, rowsHanded_append, rowsPushed_append, ← h.whole]
    simp [rowsHanded, rowsPushed, BacklogEntry.handed?, BacklogEntry.pushed?]
  rows := by
    intro e he
    have hspan : ((b.note r (.pushed row)).append stamp ⟨r, row⟩).span r =
        b.span r ++ [.pushed row] := span_note _
    rw [hspan] at he
    rcases List.mem_append.1 he with he | he
    · exact h.rows e he
    · rw [List.mem_singleton.1 he]
      trivial
  quiet := h.quiet

lemma GivenUp.pushed (h : b.GivenUp r) (row : α) : (b.note r (.pushed row)).GivenUp r where
  gone := h.gone
  none_waits := h.none_waits
  parts := by
    obtain ⟨before, given, after, hspan, hfront, hsome, hrows, hafter, honce⟩ := h.parts
    refine ⟨before, given, after ++ [.pushed row], ?_, hfront, hsome, hrows, ?_, ?_⟩
    · rw [span_note, hspan, List.append_assoc]
      rfl
    · intro e he
      rcases List.mem_append.1 he with he | he
      · exact hafter e he
      · rw [List.mem_singleton.1 he]
        trivial
    · rw [timesSaid_append]
      exact honce

lemma givenUp_giveUp {late : List α}
    (hwhole : rowsHanded (b.span r) ++ b.rowsOf r ++ late = rowsPushed (b.span r))
    (hrows : ∀ e ∈ b.span r, e.IsRow) (hquiet : b.noticesOf r = []) (hsome : b.rowsOf r ≠ [])
    (stamp : ℕ) : (b.giveUp stamp r).GivenUp r where
  gone := List.mem_cons_self
  none_waits := by
    change ((b.updates.filter (·.2.reqId ≠ r)).filter (·.2.reqId = r)).map _ = []
    rw [filter_filter_self (fun e : ℕ × BacklogRow α => e.2.reqId), List.map_nil]
  parts := by
    have hcount : b.waiting r = (b.rowsOf r).length := by
      rw [waiting, rowsOf, List.length_map, List.countP_eq_length_filter]
    refine ⟨b.span r, b.rowsOf r, [], ?_, ⟨late, hwhole⟩, hsome, hrows,
      fun _ he => absurd he List.not_mem_nil, ?_⟩
    · rw [← hcount]
      exact if_pos rfl
    · have hnotices : (b.giveUp stamp r).noticesOf r = [(stamp, r, b.waiting r)] := by
        change (b.unsaid ++ [_]).filter _ = _
        rw [List.filter_append, List.filter_cons_of_pos (by simp), List.filter_nil]
        exact congrArg (· ++ [(stamp, r, b.waiting r)]) hquiet
      rw [hnotices]
      rfl

lemma mem_of_worst {walk : ℕ → ℕ} {w : ℕ} (h : b.worst walk = some w) : b.rowsOf w ≠ [] := by
  have hmem := List.mem_dedup.1 (List.argmax_mem h)
  obtain ⟨e, he, hreq⟩ := List.mem_map.1 hmem
  have hrow : e.2.row ∈ b.rowsOf w :=
    List.mem_map.2 ⟨e, List.mem_filter.2 ⟨he, by simpa using hreq⟩, rfl⟩
  exact List.ne_nil_of_mem hrow

lemma exists_worst {walk : ℕ → ℕ} (h : b.updates ≠ []) : b.worst walk ≠ none := by
  unfold worst
  rw [Ne, List.argmax_eq_none, List.dedup_eq_nil, List.map_eq_nil_iff]
  exact h

lemma giveUp_note {w : ℕ} (hne : w ≠ r) (e : BacklogEntry α) (stamp : ℕ) :
    (b.note r e).giveUp stamp w = (b.giveUp stamp w).note r e := by
  have hspan : ((b.note r e).giveUp stamp w).span = ((b.giveUp stamp w).note r e).span := by
    funext r'
    by_cases hr : r' = r
    · subst hr
      simp [giveUp, note, hne.symm]
    · by_cases hw : r' = w
      · subst hw
        simp [giveUp, note, hne, waiting]
      · simp [giveUp, note, hr, hw]
  calc (b.note r e).giveUp stamp w
      = { (b.giveUp stamp w).note r e with span := ((b.note r e).giveUp stamp w).span } := rfl
    _ = (b.giveUp stamp w).note r e := by rw [hspan]

lemma Kept.taken {update : BacklogRow α} (h : b.Kept r) (hin : update.reqId ∉ b.dropped)
    (stamp : ℕ) : ((b.note update.reqId (.pushed update.row)).append stamp update).Kept r := by
  by_cases hr : r = update.reqId
  · subst hr
    rcases h with h | h
    · exact Or.inl (h.pushed stamp update.row)
    · exact absurd h.gone hin
  · exact h.same ((same_note hr _).trans (same_append hr stamp))

/-- **A push keeps every book as it is to be.** -/
theorem Kept.push (h : b.Kept r) (stamp noticeStamp : ℕ) (update : BacklogRow α) (walk : ℕ → ℕ) :
    (b.push stamp noticeStamp update walk).Kept r := by
  unfold DepthBacklog.push
  dsimp only
  split_ifs with hdropped hfull
  · by_cases hr : r = update.reqId
    · subst hr
      rcases h with h | h
      · exact absurd hdropped h.kept
      · exact Or.inr (h.pushed update.row)
    · exact h.same (same_note hr _)
  · cases hworst : (b.note update.reqId (.pushed update.row)).worst walk with
    | none => exact h.taken hdropped stamp
    | some w =>
        have hwaits := mem_of_worst hworst
        dsimp only
        by_cases hw : w = update.reqId
        · rw [if_pos hw]
          subst hw
          by_cases hr : r = update.reqId
          · subst hr
            rcases h with h | h
            · -- what arrived is given up with the rest
              have hwhole : rowsHanded ((b.note update.reqId (.pushed update.row)).span update.reqId)
                  ++ b.rowsOf update.reqId ++ [update.row] =
                    rowsPushed ((b.note update.reqId (.pushed update.row)).span update.reqId) := by
                rw [span_note, rowsHanded_append, rowsPushed_append, ← h.whole]
                simp [rowsHanded, rowsPushed, BacklogEntry.handed?, BacklogEntry.pushed?]
              refine Or.inr (givenUp_giveUp hwhole ?_ h.quiet hwaits noticeStamp)
              intro e he
              rw [span_note] at he
              rcases List.mem_append.1 he with he | he
              · exact h.rows e he
              · rw [List.mem_singleton.1 he]
                trivial
            · exact absurd h.gone hdropped
          · exact h.same ((same_note hr _).trans (same_giveUp hr noticeStamp))
        · rw [if_neg hw]
          by_cases hr : r = w
          · subst hr
            have hsame := same_note (b := b) hw (.pushed update.row)
            rcases h.same hsame with h | h
            · have hwhole := h.whole
              rw [← List.append_nil (rowsHanded _ ++ _)] at hwhole
              have hgone := givenUp_giveUp hwhole h.rows h.quiet hwaits noticeStamp
              exact Kept.same (Or.inr hgone) (same_append hw stamp)
            · exact absurd h.none_waits hwaits
          · rw [giveUp_note hw]
            exact (h.same (same_giveUp hr noticeStamp)).taken
              (by
                change update.reqId ∉ w :: b.dropped
                rw [List.mem_cons, not_or]
                exact ⟨fun heq => hw heq.symm, hdropped⟩) stamp
  · exact h.taken hdropped stamp

/-! ## Reads -/

lemma Kept.told (h : b.Kept r) {c : DepthBacklog α} {notices : List (ℕ × ℕ × ℕ)}
    {rows : List (ℕ × BacklogRow α)} (hdropped : c.dropped = b.dropped)
    (hspan : c.span = b.tell notices rows)
    (hnotices : notices.filter (·.2.1 = r) ++ c.noticesOf r = b.noticesOf r)
    (hrows : (rows.filter (·.2.reqId = r)).map (·.2.row) ++ c.rowsOf r = b.rowsOf r) :
    c.Kept r := by
  have htold : c.span r = b.span r ++ ((notices.filter (·.2.1 = r)).map (fun _ => .said) ++
      ((rows.filter (·.2.reqId = r)).map (·.2.row)).map .handed) := by
    rw [hspan, tell, List.map_map]
    rfl
  rcases h with h | h
  · rw [h.quiet] at hnotices
    obtain ⟨hnone, hquiet⟩ := List.append_eq_nil_iff.1 hnotices
    rw [hnone, List.map_nil, List.nil_append] at htold
    generalize (rows.filter (·.2.reqId = r)).map (·.2.row) = out at hrows htold
    have hpushed : rowsPushed (out.map BacklogEntry.handed) = [] := by
      rw [rowsPushed, List.filterMap_map, List.filterMap_eq_nil_iff]
      exact fun _ _ => rfl
    have hhanded : rowsHanded (out.map BacklogEntry.handed) = out := by
      rw [rowsHanded, List.filterMap_map]
      exact List.filterMap_some
    refine Or.inl ⟨hdropped ▸ h.kept, ?_, ?_, hquiet⟩
    · rw [htold, rowsHanded_append, rowsPushed_append, hpushed, hhanded, List.append_nil,
        List.append_assoc, hrows]
      exact h.whole
    · intro e he
      rw [htold] at he
      rcases List.mem_append.1 he with he | he
      · exact h.rows e he
      · obtain ⟨row, -, rfl⟩ := List.mem_map.1 he
        trivial
  · rw [h.none_waits] at hrows
    obtain ⟨hnone, hrows⟩ := List.append_eq_nil_iff.1 hrows
    rw [hnone, List.map_nil, List.append_nil] at htold
    obtain ⟨before, given, after, heq, hfront, hsome, hbefore, hafter, honce⟩ := h.parts
    refine Or.inr ⟨hdropped ▸ h.gone, hrows, before, given,
      after ++ (notices.filter (·.2.1 = r)).map (fun _ => .said), ?_, hfront, hsome, hbefore,
      ?_, ?_⟩
    · rw [htold, heq, List.append_assoc]
      rfl
    · intro e he
      rcases List.mem_append.1 he with he | he
      · exact hafter e he
      · obtain ⟨notice, -, rfl⟩ := List.mem_map.1 he
        trivial
    · have hsaid : ∀ l : List (ℕ × ℕ × ℕ),
          timesSaid (l.map fun _ => (.said : BacklogEntry α)) = l.length := by
        intro l
        rw [timesSaid, List.countP_map]
        exact List.countP_eq_length.2 fun _ _ => rfl
      rw [← hnotices, List.length_append] at honce
      rw [timesSaid_append, hsaid]
      omega

/-- **A read keeps every book as it is to be.** -/
theorem Kept.read (h : b.Kept r) (cut : ℕ) (fate : ℕ → Fate) : (b.read cut fate).Kept r := by
  refine h.told (c := b.read cut fate) rfl rfl ?_ ?_
  · exact Drain.filter_taken_append_kept fun e e' he he' => by
      rw [of_decide_eq_true he, of_decide_eq_true he']
  · refine (List.map_append.symm.trans ?_)
    exact congrArg _ (Drain.filter_taken_append_kept fun e e' he he' => by
      rw [of_decide_eq_true he, of_decide_eq_true he'])

theorem Kept.takeDepthUpdatesFor (h : b.Kept r) (w : ℕ) : (b.takeDepthUpdatesFor w).Kept r := by
  refine h.told (c := b.takeDepthUpdatesFor w) rfl rfl rfl ?_
  refine List.map_append.symm.trans (congrArg _ ?_)
  by_cases hr : r = w
  · subst hr
    change (b.updates.filter (·.2.reqId = r)).filter (·.2.reqId = r) ++
      (b.updates.filter (·.2.reqId ≠ r)).filter (·.2.reqId = r) = _
    rw [filter_filter_self (fun e : ℕ × BacklogRow α => e.2.reqId), List.append_nil,
      List.filter_filter]
    simp
  · have hnone : (b.updates.filter (·.2.reqId = w)).filter (·.2.reqId = r) = [] := by
      rw [List.filter_filter, List.filter_eq_nil_iff]
      intro e _
      by_cases he : e.2.reqId = r
      · simp [he, hr]
      · simp [he]
    rw [hnone, List.nil_append]
    exact filter_filter_ne (fun e : ℕ × BacklogRow α => e.2.reqId) hr _

lemma find_append_eraseP (w r : ℕ) (l : List (ℕ × ℕ × ℕ)) :
    (l.find? (·.2.1 = w)).toList.filter (·.2.1 = r) ++ (l.eraseP (·.2.1 = w)).filter (·.2.1 = r) =
      l.filter (·.2.1 = r) := by
  induction l with
  | nil => rfl
  | cons e l ih =>
      by_cases hw : e.2.1 = w
      · rw [List.find?_cons_of_pos (by simpa using hw), List.eraseP_cons_of_pos (by simpa using hw)]
        exact (List.filter_append _ _).symm
      · rw [List.find?_cons_of_neg (by simpa using hw), List.eraseP_cons_of_neg (by simpa using hw)]
        by_cases hr : e.2.1 = r
        · have hnone : (l.find? (·.2.1 = w)).toList.filter (·.2.1 = r) = [] := by
            rw [List.filter_eq_nil_iff]
            intro e' he' hr'
            have hfind := List.find?_some (Option.mem_toList.1 he')
            simp only [decide_eq_true_eq] at hfind hr'
            omega
          rw [hnone, List.nil_append] at ih ⊢
          rw [List.filter_cons_of_pos (by simpa using hr), List.filter_cons_of_pos
            (by simpa using hr), ih]
        · rw [List.filter_cons_of_neg (by simpa using hr), List.filter_cons_of_neg
            (by simpa using hr), ih]

theorem Kept.takeDepthDropFor (h : b.Kept r) (w : ℕ) : (b.takeDepthDropFor w).Kept r :=
  h.told (c := b.takeDepthDropFor w) rfl rfl (find_append_eraseP w r b.unsaid) rfl

/-- **A purged book starts anew**, and any other is as it was. -/
theorem Kept.purge (h : b.Kept r) (w : ℕ) : (b.purge w).Kept r := by
  by_cases hr : r = w
  · subst hr
    have hspan : (b.purge r).span r = [] := if_pos rfl
    refine Or.inl ⟨by simp [DepthBacklog.purge], ?_, ?_, ?_⟩
    · rw [hspan]
      change [] ++ ((b.updates.filter (·.2.reqId ≠ r)).filter (·.2.reqId = r)).map _ = []
      rw [filter_filter_self (fun e : ℕ × BacklogRow α => e.2.reqId)]
      rfl
    · rw [hspan]
      exact fun _ he => absurd he List.not_mem_nil
    · exact filter_filter_self (fun e : ℕ × ℕ × ℕ => e.2.1) _ _
  · exact h.same (same_purge hr)

/-- **Every step keeps every book as it is to be.** -/
theorem Kept.step (h : b.Kept r) (e : BacklogEvent α) : (b.step e).Kept r := by
  cases e with
  | push stamp noticeStamp update walk => exact h.push stamp noticeStamp update walk
  | read cut fate => exact h.read cut fate
  | takeDepthUpdatesFor w => exact h.takeDepthUpdatesFor w
  | takeDepthDropFor w => exact h.takeDepthDropFor w
  | purge w => exact h.purge w

/-! ## The bound -/

lemma limit_pos : 0 < streamBacklogLimit := by decide

lemma length_filter_ne_lt {l : List (ℕ × BacklogRow α)} {w : ℕ}
    (h : (l.filter (·.2.reqId = w)) ≠ []) : (l.filter (·.2.reqId ≠ w)).length < l.length := by
  obtain ⟨e, he⟩ := List.exists_mem_of_ne_nil _ h
  obtain ⟨hmem, hw⟩ := List.mem_filter.1 he
  exact List.length_filter_lt_length_iff_exists.2 ⟨e, hmem, by simpa using hw⟩

/-- **A push keeps the queue under its bound.** -/
theorem length_push (h : b.updates.length ≤ streamBacklogLimit) (stamp noticeStamp : ℕ)
    (update : BacklogRow α) (walk : ℕ → ℕ) :
    (b.push stamp noticeStamp update walk).updates.length ≤ streamBacklogLimit := by
  unfold DepthBacklog.push
  dsimp only
  split_ifs with hdropped hfull
  · exact h
  · cases hworst : (b.note update.reqId (.pushed update.row)).worst walk with
    | none =>
        have hsome : b.updates ≠ [] := fun hnil => by
          change streamBacklogLimit ≤ b.updates.length at hfull
          rw [hnil] at hfull
          exact absurd limit_pos (not_lt.2 hfull)
        exact absurd hworst (exists_worst (b := b.note update.reqId (.pushed update.row)) hsome)
    | some w =>
        have hrows := mem_of_worst hworst
        have hfewer : (b.updates.filter (·.2.reqId ≠ w)).length < b.updates.length :=
          length_filter_ne_lt fun hnil => hrows (by
            change (b.updates.filter _).map _ = []
            rw [hnil, List.map_nil])
        dsimp only
        split_ifs with hw
        · exact hfewer.le.trans h
        · change (b.updates.filter _ ++ [_]).length ≤ _
          rw [List.length_append, List.length_singleton]
          omega
  · change (b.updates ++ [_]).length ≤ _
    rw [List.length_append, List.length_singleton]
    change ¬streamBacklogLimit ≤ b.updates.length at hfull
    omega

/-- **Every step keeps the queue under its bound.** -/
theorem length_step (h : b.updates.length ≤ streamBacklogLimit) (e : BacklogEvent α) :
    (b.step e).updates.length ≤ streamBacklogLimit := by
  cases e with
  | push stamp noticeStamp update walk => exact length_push h stamp noticeStamp update walk
  | read cut fate => exact Drain.kept_sublist.length_le.trans h
  | takeDepthUpdatesFor w => exact (List.length_filter_le _ _).trans h
  | takeDepthDropFor w => exact h
  | purge w => exact (List.length_filter_le _ _).trans h

end

/-! ## Runs -/

structure Lawful (b : DepthBacklog α) : Prop where
  bounded : b.updates.length ≤ streamBacklogLimit
  kept : ∀ r, b.Kept r

lemma lawful_new : (({} : DepthBacklog α)).Lawful where
  bounded := Nat.zero_le _
  kept := fun _ => Or.inl ⟨List.not_mem_nil, rfl, fun _ he => absurd he List.not_mem_nil, rfl⟩

lemma Lawful.run {b : DepthBacklog α} (h : b.Lawful) (es : List (BacklogEvent α)) :
    (Runs.run step b es).Lawful := by
  induction es generalizing b with
  | nil => exact h
  | cons e es ih => exact ih ⟨length_step h.bounded e, fun r => (h.kept r).step e⟩

lemma Kept.handed_front {b : DepthBacklog α} {r : ℕ} (h : b.Kept r) :
    rowsHanded (b.span r) <+: rowsPushed (b.span r) := by
  rcases h with h | h
  · exact ⟨_, h.whole⟩
  · obtain ⟨before, given, after, hspan, hfront, -, -, hafter, -⟩ := h.parts
    have hnone : rowsHanded (.gaveUp given.length :: after) = [] := by
      rw [rowsHanded, List.filterMap_cons_none rfl, List.filterMap_eq_nil_iff]
      intro e he
      have hpast := hafter e he
      cases e with
      | handed row => exact absurd hpast id
      | _ => rfl
    rw [hspan, rowsHanded_append, rowsPushed_append, hnone, List.append_nil]
    exact (List.prefix_append _ _).trans (hfront.trans (List.prefix_append _ _))

end DepthBacklog

/-- **A book is delivered whole to the point it was given up.**  The queue keeps its bound, and of
every request, since it was last purged, what was handed out is the front of what was pushed; the
book stands whole, or was given up and said to be once. -/
theorem book_whole_or_given_up {α : Type} (es : List (BacklogEvent α)) :
    let b := Runs.run DepthBacklog.step {} es
    b.updates.length ≤ streamBacklogLimit ∧ ∀ r,
      rowsHanded (b.span r) <+: rowsPushed (b.span r) ∧ (b.Standing r ∨ b.GivenUp r) ∧
        (b.rowsOf r = [] → rowsHanded (b.span r) ≠ rowsPushed (b.span r) → b.GivenUp r) := by
  have h := DepthBacklog.lawful_new.run es
  refine ⟨h.bounded, fun r => ⟨(h.kept r).handed_front, h.kept r, fun hnone hpart => ?_⟩⟩
  rcases h.kept r with hkept | hkept
  · have hwhole := hkept.whole
    rw [hnone, List.append_nil] at hwhole
    exact absurd hwhole hpart
  · exact hkept

end IbkrDx
