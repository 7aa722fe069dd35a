import Mathlib.Data.Int.Notation
import IbkrDx.Lib.Overlay

/-!
# Laying one poll over another

`Polled::then` of `client_core/mod.rs`: a read that takes the session's last record takes the
conflated state again, and lays what it took over what it had taken before.

* **`polls_laid_iff`** — nothing is lost and nothing is mixed just where the two are kept apart, and
  laying is associative.

What a holding, a figure of profit, a summary or a quote states is left to `V`.
-/

namespace IbkrDx

open Overlay

variable {V : Type}

/-- A slot's quote with what rode beside it, each piece with the occupancy it was drained under. -/
structure PolledQuote (V : Type) where
  iid : ℕ
  generation : ℕ
  quote : V
  masks : ℤ × ℤ
  series : List (ℕ × V)
  snapshotAnswer : Option (ℕ × List V)

/-- A figure of an account, and whether the per-currency ledger stated it — which the record of it
does not hold. -/
structure AccountFieldUpdate where
  ledger : Bool
  key : String
  value : String
  currency : String
  deriving DecidableEq

namespace AccountFieldUpdate

def pair (f : AccountFieldUpdate) : String × String := (f.key, f.currency)

def figure (f : AccountFieldUpdate) : Bool × String × String := (f.ledger, f.key, f.currency)

lemma pair_of_figure (f g : AccountFieldUpdate) (h : f.figure = g.figure) : f.pair = g.pair :=
  congrArg Prod.snd h

end AccountFieldUpdate

/-- An account's figures, and whether it has just been stated whole. -/
structure AccountUpdateBatch where
  fields : List AccountFieldUpdate
  finished : Bool
  deriving DecidableEq

/-- What a read took of the conflated state. -/
structure Polled (V : Type) where
  quotes : List (PolledQuote V) := []
  positions : List (ℤ × V) := []
  namedPositions : List ((String × ℤ) × V) := []
  pnl : List (ℤ × V) := []
  pnlSingle : List (ℤ × V) := []
  account : Option AccountUpdateBatch := none
  portfolio : List (ℤ × V) := []
  multi : List (ℤ × List AccountFieldUpdate) := []
  summaries : List V := []
  smartComponents : List (ℤ × V) := []

def PolledQuote.withEarlier (q earlier : PolledQuote V) : PolledQuote V :=
  { q with
    series := earlier.series ++ q.series
    snapshotAnswer := q.snapshotAnswer.or earlier.snapshotAnswer }

def layFields (a b : List AccountFieldUpdate) : List AccountFieldUpdate :=
  renewAll AccountFieldUpdate.pair a b

def layAccount : Option AccountUpdateBatch → Option AccountUpdateBatch → Option AccountUpdateBatch
  | some a, some b => some ⟨layFields a.fields b.fields, a.finished || b.finished⟩
  | a, b => b.or a

def layMulti (held fields : ℤ × List AccountFieldUpdate) : ℤ × List AccountFieldUpdate :=
  (held.1, layFields held.2 fields.2)

def Polled.andThen (a later : Polled V) : Polled V where
  quotes := putAll PolledQuote.iid PolledQuote.withEarlier later.quotes a.quotes
  positions := putAll Prod.fst (fun _ p => p) a.positions later.positions
  namedPositions := renewAll Prod.fst a.namedPositions later.namedPositions
  pnl := renewAll Prod.fst a.pnl later.pnl
  pnlSingle := renewAll Prod.fst a.pnlSingle later.pnlSingle
  account := layAccount a.account later.account
  portfolio := renewAll Prod.fst a.portfolio later.portfolio
  multi := putAll Prod.fst layMulti a.multi later.multi
  summaries := a.summaries ++ later.summaries
  smartComponents := a.smartComponents ++ later.smartComponents

structure Poll (V : Type) extends Polled V where
  slots : (quotes.map PolledQuote.iid).Nodup
  drained : ∀ q ∈ quotes, (∀ t ∈ q.series, t.1 = q.generation) ∧
    ∀ s ∈ q.snapshotAnswer, s.1 = q.generation
  holdings : (positions.map Prod.fst).Nodup
  namedHoldings : (namedPositions.map Prod.fst).Nodup
  profits : (pnl.map Prod.fst).Nodup
  singles : (pnlSingle.map Prod.fst).Nodup
  figures : ∀ x ∈ account, (x.fields.map AccountFieldUpdate.figure).Nodup
  entries : (portfolio.map Prod.fst).Nodup
  requests : (multi.map Prod.fst).Nodup
  requestFigures : ∀ x ∈ multi, (x.2.map AccountFieldUpdate.figure).Nodup

/-! ## What laying is for -/

/-- Under each key the later entry, else the earlier, and once. -/
def LaidOver {α κ : Type} [DecidableEq κ] (key : α → κ) (a b r : List α) : Prop :=
  (r.map key).Nodup ∧ ∀ k, at? key r k = (at? key b k).or (at? key a k)

/-- A slot's quote laid: the later one, and of what was drained beside the earlier what was drained
under the later one's occupancy. -/
def LaidQuote (e q o : Option (PolledQuote V)) : Prop :=
  match e, q with
  | some e, some q => o = some { q with
      series := (e.series ++ q.series).filter (·.1 = q.generation)
      snapshotAnswer := q.snapshotAnswer.or (e.snapshotAnswer.filter (·.1 = q.generation)) }
  | e, q => o = q.or e

def LaidFigures (x y z : Option (List AccountFieldUpdate)) : Prop :=
  match x, y with
  | some x, some y => ∃ fields, z = some fields ∧ LaidOver AccountFieldUpdate.figure x y fields
  | x, y => z = y.or x

/-- **One poll laid over another**: nothing lost, nothing mixed. -/
structure Laid (a b r : Polled V) : Prop where
  slots : (r.quotes.map PolledQuote.iid).Nodup
  quotes : ∀ slot, LaidQuote (at? PolledQuote.iid a.quotes slot) (at? PolledQuote.iid b.quotes slot)
    (at? PolledQuote.iid r.quotes slot)
  positions : LaidOver Prod.fst a.positions b.positions r.positions
  namedPositions : LaidOver Prod.fst a.namedPositions b.namedPositions r.namedPositions
  pnl : LaidOver Prod.fst a.pnl b.pnl r.pnl
  pnlSingle : LaidOver Prod.fst a.pnlSingle b.pnlSingle r.pnlSingle
  account : LaidFigures (a.account.map (·.fields)) (b.account.map (·.fields))
    (r.account.map (·.fields))
  finished : r.account.any (·.finished) = (a.account.any (·.finished) || b.account.any (·.finished))
  portfolio : LaidOver Prod.fst a.portfolio b.portfolio r.portfolio
  requests : (r.multi.map Prod.fst).Nodup
  multi : ∀ req, LaidFigures ((at? Prod.fst a.multi req).map Prod.snd)
    ((at? Prod.fst b.multi req).map Prod.snd) ((at? Prod.fst r.multi req).map Prod.snd)
  summaries : r.summaries = a.summaries ++ b.summaries
  smartComponents : r.smartComponents = a.smartComponents ++ b.smartComponents

/-- **Two polls kept apart**: no slot with something drained beside its earlier quote has changed
its occupancy, and no two figures differ in the ledger alone. -/
structure KeptApart (a b : Polled V) : Prop where
  occupancy : ∀ e ∈ a.quotes, ∀ q ∈ b.quotes, e.iid = q.iid → e.generation = q.generation ∨
    e.series = [] ∧ (e.snapshotAnswer = none ∨ q.snapshotAnswer ≠ none)
  account : ∀ x ∈ a.account, ∀ y ∈ b.account,
    NoClash AccountFieldUpdate.pair AccountFieldUpdate.figure x.fields y.fields
  multi : ∀ x ∈ a.multi, ∀ y ∈ b.multi, x.1 = y.1 →
    NoClash AccountFieldUpdate.pair AccountFieldUpdate.figure x.2 y.2

/-! ## Each collection -/

lemma laidOver_renewAll {α κ : Type} [DecidableEq κ] {key : α → κ} {a b : List α}
    (ha : (a.map key).Nodup) (hb : (b.map key).Nodup) : LaidOver key a b (renewAll key a b) :=
  ⟨nodup_renewAll ha b, at?_renewAll hb⟩

lemma laidOver_putAll {α κ : Type} [DecidableEq κ] {key : α → κ} {a b : List α}
    (ha : (a.map key).Nodup) (hb : (b.map key).Nodup) :
    LaidOver key a b (putAll key (fun _ p => p) a b) := by
  have hkey : ∀ u v : α, key u = key v → key v = key u := fun _ _ h => h.symm
  refine ⟨nodup_putAll hkey ha b, fun k => ?_⟩
  rw [at?_putAll hkey hb]
  cases at? key a k with
  | none => cases at? key b k <;> rfl
  | some u => cases at? key b k <;> rfl

lemma laidOver_layFields_iff {x y : List AccountFieldUpdate}
    (hx : (x.map AccountFieldUpdate.figure).Nodup) (hy : (y.map AccountFieldUpdate.figure).Nodup) :
    LaidOver AccountFieldUpdate.figure x y (layFields x y) ↔
      NoClash AccountFieldUpdate.pair AccountFieldUpdate.figure x y := by
  have hiff := renewAll_finer_iff AccountFieldUpdate.pair_of_figure (l := x) hy
  refine ⟨fun h => hiff.1 h.2, fun h => ⟨?_, hiff.2 h⟩⟩
  rw [layFields, renewAll_of_noClash AccountFieldUpdate.pair_of_figure h]
  exact nodup_renewAll hx y

lemma filter_eq_self_of_tags {g : ℕ} {l : List (ℕ × V)} (h : ∀ t ∈ l, t.1 = g) :
    l.filter (fun t => t.1 = g) = l :=
  List.filter_eq_self.2 fun t ht => decide_eq_true (h t ht)

lemma laidQuote_withEarlier_iff {e q : PolledQuote V}
    (he : (∀ t ∈ e.series, t.1 = e.generation) ∧ ∀ s ∈ e.snapshotAnswer, s.1 = e.generation)
    (hq : ∀ t ∈ q.series, t.1 = q.generation) :
    LaidQuote (some e) (some q) (some (q.withEarlier e)) ↔ e.generation = q.generation ∨
      e.series = [] ∧ (e.snapshotAnswer = none ∨ q.snapshotAnswer ≠ none) := by
  have hseries : (e.series ++ q.series).filter (fun t => t.1 = q.generation) =
      e.series.filter (fun t => t.1 = q.generation) ++ q.series := by
    rw [List.filter_append, filter_eq_self_of_tags hq]
  have hlaid : LaidQuote (some e) (some q) (some (q.withEarlier e)) ↔
      e.series = e.series.filter (fun t => t.1 = q.generation) ∧
        q.snapshotAnswer.or e.snapshotAnswer =
          q.snapshotAnswer.or (e.snapshotAnswer.filter (·.1 = q.generation)) := by
    rw [LaidQuote, hseries, PolledQuote.withEarlier]
    simp only [Option.some.injEq, PolledQuote.mk.injEq, true_and, List.append_cancel_right_eq]
  rw [hlaid]
  by_cases hsame : e.generation = q.generation
  · rw [hsame] at he
    refine ⟨fun _ => Or.inl hsame, fun _ => ⟨(filter_eq_self_of_tags he.1).symm, ?_⟩⟩
    cases hsnap : e.snapshotAnswer with
    | none => rfl
    | some s => rw [Option.filter_some, if_pos (decide_eq_true (he.2 s hsnap))]
  · have hnone : e.series.filter (fun t => t.1 = q.generation) = [] :=
      List.filter_eq_nil_iff.2 fun t ht heq =>
        hsame ((he.1 t ht).symm.trans (of_decide_eq_true heq))
    have hsnap : e.snapshotAnswer.filter (fun s => s.1 = q.generation) = none := by
      cases hs : e.snapshotAnswer with
      | none => rfl
      | some s =>
          rw [Option.filter_some, if_neg]
          exact fun heq => hsame ((he.2 s hs).symm.trans (of_decide_eq_true heq))
    rw [hnone, hsnap, Option.or_none, or_iff_right hsame]
    refine and_congr_right fun _ => ?_
    cases q.snapshotAnswer with
    | none => simp
    | some s => simp

/-! ## The poll -/

section

variable (a b : Poll V)

lemma iid_withEarlier (q e : PolledQuote V) (_ : q.iid = e.iid) : (q.withEarlier e).iid = q.iid :=
  rfl

lemma fst_layMulti (x y : ℤ × List AccountFieldUpdate) (_ : x.1 = y.1) : (layMulti x y).1 = x.1 :=
  rfl

lemma laidQuotes_iff : (∀ slot, LaidQuote (at? PolledQuote.iid a.quotes slot)
      (at? PolledQuote.iid b.quotes slot)
      (at? PolledQuote.iid (a.toPolled.andThen b.toPolled).quotes slot)) ↔
    ∀ e ∈ a.quotes, ∀ q ∈ b.quotes, e.iid = q.iid → e.generation = q.generation ∨
      e.series = [] ∧ (e.snapshotAnswer = none ∨ q.snapshotAnswer ≠ none) := by
  have hfound (slot : ℕ) := at?_putAll (l := b.quotes) iid_withEarlier a.slots slot
  constructor
  · intro h e he q hq hslot
    have hboth := hfound q.iid
    have hlaid := h q.iid
    rw [← hslot, at?_of_mem a.slots he, hslot, at?_of_mem b.slots hq] at hlaid hboth
    rw [Polled.andThen, hboth] at hlaid
    exact (laidQuote_withEarlier_iff (a.drained e he) (b.drained q hq).1).1 hlaid
  · intro h slot
    rw [Polled.andThen, hfound]
    cases hq : at? PolledQuote.iid b.quotes slot with
    | none =>
        cases at? PolledQuote.iid a.quotes slot with
        | none => exact rfl
        | some e => exact rfl
    | some q =>
        cases he : at? PolledQuote.iid a.quotes slot with
        | none => exact rfl
        | some e =>
            obtain ⟨hqmem, hqslot⟩ := at?_mem hq
            obtain ⟨hemem, heslot⟩ := at?_mem he
            exact (laidQuote_withEarlier_iff (a.drained e hemem) (b.drained q hqmem).1).2
              (h e hemem q hqmem (heslot.trans hqslot.symm))

lemma laidAccount_iff : LaidFigures (a.account.map (·.fields)) (b.account.map (·.fields))
      ((layAccount a.account b.account).map (·.fields)) ↔
    ∀ x ∈ a.account, ∀ y ∈ b.account,
      NoClash AccountFieldUpdate.pair AccountFieldUpdate.figure x.fields y.fields := by
  have hxs := a.figures
  have hys := b.figures
  generalize a.account = xs at hxs ⊢
  generalize b.account = ys at hys ⊢
  rcases xs with _ | x <;> rcases ys with _ | y
  · exact ⟨fun _ _ h => (nomatch h), fun _ => rfl⟩
  · exact ⟨fun _ _ h => (nomatch h), fun _ => rfl⟩
  · exact ⟨fun _ _ _ _ h => (nomatch h), fun _ => rfl⟩
  · have hiff := laidOver_layFields_iff (hxs x rfl) (hys y rfl)
    constructor
    · rintro ⟨fields, hfields, hlaid⟩ x' hx y' hy
      obtain rfl := Option.some.inj hx
      obtain rfl := Option.some.inj hy
      obtain rfl := Option.some.inj hfields
      exact hiff.1 hlaid
    · exact fun h => ⟨_, rfl, hiff.2 (h x rfl y rfl)⟩

lemma finished_layAccount (x y : Option AccountUpdateBatch) :
    (layAccount x y).any (·.finished) = (x.any (·.finished) || y.any (·.finished)) := by
  rcases x with _ | x <;> rcases y with _ | y
  · rfl
  · rfl
  · exact (Bool.or_false _).symm
  · rfl

lemma laidMulti_iff : (∀ req, LaidFigures ((at? Prod.fst a.multi req).map Prod.snd)
      ((at? Prod.fst b.multi req).map Prod.snd)
      ((at? Prod.fst (a.toPolled.andThen b.toPolled).multi req).map Prod.snd)) ↔
    ∀ x ∈ a.multi, ∀ y ∈ b.multi, x.1 = y.1 →
      NoClash AccountFieldUpdate.pair AccountFieldUpdate.figure x.2 y.2 := by
  have hfound (req : ℤ) := at?_putAll (l := a.multi) fst_layMulti b.requests req
  constructor
  · intro h x hx y hy hreq
    have hboth := hfound y.1
    have hlaid := h y.1
    rw [← hreq, at?_of_mem a.requests hx, hreq, at?_of_mem b.requests hy] at hlaid hboth
    rw [Polled.andThen, hboth] at hlaid
    obtain ⟨fields, hfields, hlaid⟩ := hlaid
    obtain rfl := Option.some.inj hfields
    exact (laidOver_layFields_iff (a.requestFigures x hx) (b.requestFigures y hy)).1 hlaid
  · intro h req
    rw [Polled.andThen, hfound]
    cases hx : at? Prod.fst a.multi req with
    | none => cases at? Prod.fst b.multi req <;> exact rfl
    | some x =>
        cases hy : at? Prod.fst b.multi req with
        | none => exact rfl
        | some y =>
            obtain ⟨hxmem, hxreq⟩ := at?_mem hx
            obtain ⟨hymem, hyreq⟩ := at?_mem hy
            exact ⟨_, rfl, (laidOver_layFields_iff (a.requestFigures x hxmem)
              (b.requestFigures y hymem)).2 (h x hxmem y hymem (hxreq.trans hyreq.symm))⟩

lemma laid_iff : Laid a.toPolled b.toPolled (a.toPolled.andThen b.toPolled) ↔
    KeptApart a.toPolled b.toPolled := by
  constructor
  · intro h
    exact ⟨(laidQuotes_iff a b).1 h.quotes, (laidAccount_iff a b).1 h.account,
      (laidMulti_iff a b).1 h.multi⟩
  · intro h
    exact {
      slots := nodup_putAll iid_withEarlier b.slots a.quotes
      quotes := (laidQuotes_iff a b).2 h.occupancy
      positions := laidOver_putAll a.holdings b.holdings
      namedPositions := laidOver_renewAll a.namedHoldings b.namedHoldings
      pnl := laidOver_renewAll a.profits b.profits
      pnlSingle := laidOver_renewAll a.singles b.singles
      account := (laidAccount_iff a b).2 h.account
      finished := finished_layAccount _ _
      portfolio := laidOver_renewAll a.entries b.entries
      requests := nodup_putAll fst_layMulti a.requests b.multi
      multi := (laidMulti_iff a b).2 h.multi
      summaries := rfl
      smartComponents := rfl }

end

/-! ## One after another -/

lemma layAccount_assoc (x y z : Option AccountUpdateBatch) :
    layAccount (layAccount x y) z = layAccount x (layAccount y z) := by
  rcases x with _ | x <;> rcases y with _ | y <;> rcases z with _ | z
  case some.some.some =>
    simp only [layAccount, layFields, renewAll_assoc, Bool.or_assoc]
  all_goals rfl

lemma andThen_assoc (a b : Poll V) (c : Polled V) :
    (a.toPolled.andThen b.toPolled).andThen c = a.toPolled.andThen (b.toPolled.andThen c) := by
  have hquotes : putAll PolledQuote.iid PolledQuote.withEarlier c.quotes
        (putAll PolledQuote.iid PolledQuote.withEarlier b.quotes a.quotes) =
      putAll PolledQuote.iid PolledQuote.withEarlier
        (putAll PolledQuote.iid PolledQuote.withEarlier c.quotes b.quotes) a.quotes := by
    refine (putAll_assoc iid_withEarlier (fun u v w _ _ => ?_) b.slots a.quotes).symm
    simp only [PolledQuote.withEarlier, List.append_assoc, Option.or_assoc]
  have hpositions := @putAll_assoc (ℤ × V) ℤ _ Prod.fst (fun _ p => p) (fun _ _ h => h.symm)
    (fun _ _ _ _ _ => rfl) a.positions _ b.holdings c.positions
  have hmulti := putAll_assoc fst_layMulti (fun u v w _ _ => by
    simp only [layMulti, layFields, renewAll_assoc]) (l := a.multi) b.requests c.multi
  unfold Polled.andThen
  dsimp only
  rw [hquotes, hpositions, hmulti, layAccount_assoc, renewAll_assoc, renewAll_assoc,
    renewAll_assoc, renewAll_assoc, List.append_assoc, List.append_assoc]

/-- **Laying one poll over another loses nothing and mixes nothing just where the two are kept
apart**, and laying is associative. -/
theorem polls_laid_iff (a b : Poll V) :
    (Laid a.toPolled b.toPolled (a.toPolled.andThen b.toPolled) ↔
      KeptApart a.toPolled b.toPolled) ∧
    ∀ c : Poll V, (a.toPolled.andThen b.toPolled).andThen c.toPolled =
      a.toPolled.andThen (b.toPolled.andThen c.toPolled) :=
  ⟨laid_iff a b, fun c => andThen_assoc a b c.toPolled⟩

def beforeRelease : Poll ℕ where
  quotes := [⟨4, 1, 100, (0, 0), [(1, 7)], none⟩]
  slots := by decide
  drained := by simp
  holdings := by decide
  namedHoldings := by decide
  profits := by decide
  singles := by decide
  figures := by simp
  entries := by decide
  requests := by decide
  requestFigures := by simp

def afterRelease : Poll ℕ where
  quotes := [⟨4, 2, 250, (0, 0), [], none⟩]
  slots := by decide
  drained := by simp
  holdings := by decide
  namedHoldings := by decide
  profits := by decide
  singles := by decide
  figures := by simp
  entries := by decide
  requests := by decide
  requestFigures := by simp

/-- **A tick of the contract that has left the slot rides beside the next one's quote.** -/
theorem ticks_of_another_occupancy :
    ¬ Laid beforeRelease.toPolled afterRelease.toPolled
        (beforeRelease.toPolled.andThen afterRelease.toPolled) ∧
      (beforeRelease.toPolled.andThen afterRelease.toPolled).quotes =
        [⟨4, 2, 250, (0, 0), [(1, 7)], none⟩] := by
  refine ⟨fun h => ?_, rfl⟩
  have hapart := (laid_iff _ _).1 h
  rcases hapart.occupancy _ List.mem_cons_self _ List.mem_cons_self rfl with hsame | hnothing
  · exact absurd hsame (by decide)
  · exact absurd hnothing.1 (List.cons_ne_nil _ _)

end IbkrDx
