import IbkrDx.Engine.DepthBooks

/-!
# A depth caller's book is the top of the venue's

Whatever entries a stream carries and however they are cut into sections and frames, a caller who
applies the updates it is handed has the rows it asked for of the venue's book after every entry.

* **`depth_books_mirror`** — a whole stream of them.
-/

namespace IbkrDx

open Window FarmDepth

variable {Price : Type}

/-! ## The caller's book -/

def DepthUpdate.edit (u : DepthUpdate Price) : Edit (BookRow Price) :=
  match u.operation with
  | 0 => .insert u.position.toNat ⟨u.marketMaker, u.price, u.size⟩
  | 1 => .replace u.position.toNat ⟨u.marketMaker, u.price, u.size⟩
  | _ => .remove u.position.toNat

def FarmDepth.updatesFor (f : FarmDepth Price) (sub : DepthSubscriber) :
    List (DepthUpdate Price) :=
  f.updates.filter fun u => u.reqId = sub.reqId ∧ u.isSmartDepth = sub.isSmart

/-- One side of the book a caller makes of its updates; nothing where one of them names a place its
book has not got. -/
def FarmDepth.callerSide (f : FarmDepth Price) (sub : DepthSubscriber) (side : BookSide) :
    Option (List (BookRow Price)) :=
  replay (((f.updatesFor sub).filter (·.side = side)).map DepthUpdate.edit) []

def DepthSubscriber.told (sub : DepthSubscriber) (row : BookRow Price) : BookRow Price :=
  { row with maker := sub.named row.maker }

def FarmDepth.asked (f : FarmDepth Price) (sub : DepthSubscriber) : Option ℕ :=
  (f.askedDepth sub).map Int.toNat

def QuotedLevel.edit (q : QuotedLevel Price) (e : BookEntry) : Edit (BookRow Price) :=
  match q.operation with
  | 0 => .insert e.position ⟨trim e.name, q.price, q.size⟩
  | 1 => .replace e.position ⟨trim e.name, q.price, q.size⟩
  | _ => .remove e.position

lemma QuotedLevel.position_edit (q : QuotedLevel Price) (e : BookEntry) :
    (q.edit e).position = e.position := by
  unfold QuotedLevel.edit
  split <;> rfl

/-! ## What a caller is told of an entry -/

section

variable {f : FarmDepth Price} {sub : DepthSubscriber} (hrows : ∀ r ∈ f.depthRows, 0 < r.rows)

include hrows

lemma statedRows_pos {n : ℤ} (h : f.statedRows sub = some n) : 0 < n := by
  obtain ⟨r, hr, rfl⟩ := Option.map_eq_some_iff.1 h
  exact hrows r (List.mem_of_find?_eq_some hr)

lemma askedDepth_eq : f.askedDepth sub = f.statedRows sub := by
  rw [askedDepth]
  cases h : f.statedRows sub with
  | none => rfl
  | some n => rw [Option.filter_some, if_pos (by simpa using statedRows_pos hrows h)]

lemma asked_pos {k : ℕ} (h : f.asked sub = some k) : 0 < k := by
  rw [asked, askedDepth_eq hrows] at h
  obtain ⟨n, hn, rfl⟩ := Option.map_eq_some_iff.1 h
  have := statedRows_pos hrows hn
  omega

lemma withinAskedDepth_iff (i : ℕ) :
    f.withinAskedDepth sub i = true ↔ Inside (f.asked sub) i := by
  rw [asked, askedDepth_eq hrows, withinAskedDepth]
  cases h : f.statedRows sub with
  | none => exact ⟨fun _ => nofun, fun _ => rfl⟩
  | some n =>
      have := statedRows_pos hrows h
      simp only [Option.map_some, inside_some, decide_eq_true_eq]
      omega

lemma map_edit_ownEntry (e : BookEntry) (q : QuotedLevel Price) :
    (f.ownEntry e q sub).map DepthUpdate.edit
      = (if Inside (f.asked sub) (q.edit e).position then [q.edit e] else []).map
          (Edit.map sub.told) := by
  rw [q.position_edit, ownEntry]
  by_cases hin : Inside (f.asked sub) e.position
  · rw [if_pos hin, if_pos ((withinAskedDepth_iff hrows _).2 hin), List.map_singleton,
      List.map_singleton]
    congr 1
    unfold DepthUpdate.edit QuotedLevel.edit
    simp only [Int.toNat_natCast]
    split <;> rfl
  · rw [if_neg hin, if_neg (mt (withinAskedDepth_iff hrows _).1 hin)]
    rfl

lemma map_edit_outOfWindow [Zero Price] (tag : ℕ) (e : BookEntry) (q : QuotedLevel Price) :
    (f.outOfWindow tag e q sub).map DepthUpdate.edit
      = (pushedOut (f.asked sub) (f.heldSide tag q.side) (q.edit e)).map (Edit.map sub.told) := by
  rw [asked, outOfWindow, askedDepth_eq hrows]
  cases h : f.statedRows sub with
  | none => rfl
  | some n =>
      have hn := statedRows_pos hrows h
      have hlast : (n - 1).toNat = n.toNat - 1 := by omega
      simp only [Option.map_some]
      by_cases hop : q.operation = 0
      · have hedit : q.edit e = .insert e.position ⟨trim e.name, q.price, q.size⟩ := by
          simp only [QuotedLevel.edit, hop]
        rw [hedit, pushedOut]
        by_cases hpush : e.position < n.toNat ∧ n.toNat ≤ (f.heldSide tag q.side).length
        · rw [if_pos hpush, if_pos ⟨hop, by omega, hpush.2⟩]
          simp only [List.map_singleton, DepthUpdate.edit, Edit.map, hlast]
        · rw [if_neg hpush, if_neg fun hall => hpush ⟨by omega, hall.2.2⟩]
          rfl
      · have hnone : pushedOut (some n.toNat) (f.heldSide tag q.side) (q.edit e) = [] := by
          unfold QuotedLevel.edit
          split
          · next hzero => exact absurd hzero hop
          · rfl
          · rfl
        rw [hnone, if_neg fun hall => hop hall.1]
        rfl

lemma map_edit_toldBefore [Zero Price] (tag : ℕ) (e : BookEntry) (q : QuotedLevel Price) :
    (f.toldBefore tag e q sub).map DepthUpdate.edit
      = (before (f.asked sub) (f.heldSide tag q.side) (q.edit e)).map (Edit.map sub.told) := by
  rw [toldBefore, List.map_append, map_edit_outOfWindow hrows, map_edit_ownEntry hrows, before,
    List.map_append]

lemma map_edit_toldAfter {tag : ℕ} {e : BookEntry} {q : QuotedLevel Price}
    {rows : List (BookRow Price)} (hop : q.operation < 3)
    (hbook : f.heldSide tag q.side = (q.edit e).apply rows) :
    (f.toldAfter tag e q sub).map DepthUpdate.edit
      = (after (f.asked sub) rows (q.edit e)).map (Edit.map sub.told) := by
  rw [asked, toldAfter, askedDepth_eq hrows, hbook]
  cases h : f.statedRows sub with
  | none =>
      have hnone : after none rows (q.edit e) = [] := rfl
      rw [Option.map_none, hnone]
      split <;> rfl
  | some n =>
      have hn := statedRows_pos hrows h
      have hlast : (n - 1).toNat = n.toNat - 1 := by omega
      simp only [Option.map_some]
      by_cases htwo : q.operation = 2
      · have hedit : q.edit e = .remove e.position := by
          simp only [QuotedLevel.edit, htwo]
        rw [if_pos (Or.inl htwo), hedit, after]
        by_cases hin : e.position < n.toNat
        · rw [if_pos hin, if_neg (by omega)]
          cases ((Edit.remove e.position).apply rows)[n.toNat - 1]? with
          | none => rfl
          | some row =>
              simp only [Option.map_some, Option.toList_some, List.map_singleton, DepthUpdate.edit,
                Edit.map, hlast, DepthSubscriber.told]
        · rw [if_neg hin, if_pos (by omega)]
          rfl
      · have hnone : after (some n.toNat) rows (q.edit e) = [] := by
          have hcases : q.operation = 0 ∨ q.operation = 1 := by omega
          rcases hcases with hzero | hone
          · simp only [QuotedLevel.edit, hzero, after]
          · simp only [QuotedLevel.edit, hone, after]
        rw [hnone, if_neg (by omega)]
        rfl

end

/-! ## Whose an update is -/

def DepthUpdate.IsFor (u : DepthUpdate Price) (sub : DepthSubscriber) (side : BookSide) : Prop :=
  u.reqId = sub.reqId ∧ u.isSmartDepth = sub.isSmart ∧ u.side = side

variable {q : QuotedLevel Price} {e : BookEntry}

lemma isFor_toldBefore [Zero Price] {f : FarmDepth Price} {tag : ℕ}
    {sub : DepthSubscriber} {u : DepthUpdate Price}
    (h : u ∈ f.toldBefore tag e q sub) : u.IsFor sub q.side := by
  rcases List.mem_append.1 h with h | h
  · unfold outOfWindow at h
    split at h
    · split at h
      · rw [List.mem_singleton] at h
        rw [h]
        exact ⟨rfl, rfl, rfl⟩
      · cases h
    · cases h
  · unfold ownEntry at h
    split at h
    · rw [List.mem_singleton] at h
      rw [h]
      exact ⟨rfl, rfl, rfl⟩
    · cases h

lemma isFor_toldAfter {f : FarmDepth Price} {tag : ℕ}
    {sub : DepthSubscriber} {u : DepthUpdate Price}
    (h : u ∈ f.toldAfter tag e q sub) : u.IsFor sub q.side := by
  unfold toldAfter at h
  split at h
  · split at h
    · split at h
      · cases h
      · split at h
        · rw [List.mem_singleton] at h
          rw [h]
          exact ⟨rfl, rfl, rfl⟩
        · cases h
    · cases h
  · cases h

def Apart (subs : List DepthSubscriber) : Prop :=
  subs.Pairwise fun a b => a.reqId ≠ b.reqId ∨ a.isSmart ≠ b.isSmart

lemma filter_flatMap_told {side : BookSide} (told : DepthSubscriber → List (DepthUpdate Price))
    (htold : ∀ sub, ∀ u ∈ told sub, u.IsFor sub side) :
    ∀ {subs : List DepthSubscriber}, Apart subs → ∀ {sub : DepthSubscriber}, sub ∈ subs →
      (subs.flatMap told).filter (fun u => u.reqId = sub.reqId ∧ u.isSmartDepth = sub.isSmart)
        = told sub
  | s :: subs, hapart, sub, hmem => by
      obtain ⟨hhead, htail⟩ := List.pairwise_cons.1 hapart
      rw [List.flatMap_cons, List.filter_append]
      have hown : (told sub).filter (fun u => u.reqId = sub.reqId ∧ u.isSmartDepth = sub.isSmart)
          = told sub := by
        refine List.filter_eq_self.2 fun u hu => ?_
        obtain ⟨hreq, hmode, -⟩ := htold sub u hu
        simp [hreq, hmode]
      rcases List.mem_cons.1 hmem with rfl | hmem
      · have hnone : (subs.flatMap told).filter
            (fun u => u.reqId = sub.reqId ∧ u.isSmartDepth = sub.isSmart) = [] := by
          refine List.filter_eq_nil_iff.2 fun u hu => ?_
          obtain ⟨other, hother, hu⟩ := List.mem_flatMap.1 hu
          obtain ⟨hreq, hmode, -⟩ := htold other u hu
          have hne := hhead other hother
          rw [hreq, hmode, decide_eq_true_eq]
          rintro ⟨h₁, h₂⟩
          rcases hne with hne | hne
          · exact hne h₁.symm
          · exact hne h₂.symm
        rw [hown, hnone, List.append_nil]
      · have hnone : (told s).filter
            (fun u => u.reqId = sub.reqId ∧ u.isSmartDepth = sub.isSmart) = [] := by
          refine List.filter_eq_nil_iff.2 fun u hu => ?_
          obtain ⟨hreq, hmode, -⟩ := htold s u hu
          have hne := hhead sub hmem
          rw [hreq, hmode, decide_eq_true_eq]
          rintro ⟨h₁, h₂⟩
          rcases hne with hne | hne
          · exact hne h₁
          · exact hne h₂
        rw [hnone, List.nil_append, filter_flatMap_told told htold htail hmem]

/-! ## The book kept -/

lemma find_setBook (tag : ℕ) (book : BookSides Price) (books : List (ℕ × BookSides Price)) :
    (setBook tag book books).find? (·.1 = tag) = some (tag, book) := by
  induction books with
  | nil => simp [setBook]
  | cons held books ih =>
      rw [setBook]
      by_cases h : held.1 = tag
      · rw [if_pos h]
        simp
      · rw [if_neg h, List.find?_cons_of_neg (by simpa using h), ih]

lemma heldSide_keepBook (f : FarmDepth Price) (tag : ℕ) (e : BookEntry) (q : QuotedLevel Price) :
    (f.keepBook tag e q).heldSide tag
      = Function.update (f.heldSide tag) q.side (rowsBehind e q (f.heldSide tag q.side)) := by
  funext side
  simp only [heldSide, heldBook, keepBook, find_setBook, Option.map_some, Option.getD_some]
  rfl

lemma rowsBehind_eq {rows : List (BookRow Price)}
    (hfits : (q.edit e).Fits rows) (hdeep : ((q.edit e).apply rows).length ≤ mostLevels) :
    rowsBehind e q rows = (q.edit e).apply rows := by
  unfold rowsBehind QuotedLevel.edit at *
  rcases hop : q.operation with _ | _ | n
  · simp only [hop] at hfits hdeep ⊢
    rw [if_pos (show e.position ≤ rows.length from hfits)]
    exact List.take_of_length_le hdeep
  · rfl
  · rfl

/-! ## One entry -/

section

variable [Zero Price]

/-- Every caller's book is the top of the book held for the stream, and that one the venue's. -/
structure Mirrors (f : FarmDepth Price) (tag : ℕ) (book : BookSides Price) : Prop where
  held : f.heldSide tag = book
  caller : ∀ sub ∈ f.depthSubscribersOf tag, ∀ side,
    f.callerSide sub side = some ((shown (f.asked sub) (book side)).map sub.told)
  inside : ∀ sub ∈ f.depthSubscribersOf tag, ∀ u ∈ f.updatesFor sub,
    0 ≤ u.position ∧ Inside (f.asked sub) u.edit.position

structure SameCallers (f f' : FarmDepth Price) : Prop where
  tags : f'.depthTagToReq = f.depthTagToReq
  rows : f'.depthRows = f.depthRows

variable {f : FarmDepth Price}

variable {f' : FarmDepth Price}

omit [Zero Price] in
lemma SameCallers.asked (h : SameCallers f f') (sub : DepthSubscriber) :
    f'.asked sub = f.asked sub := by
  simp only [FarmDepth.asked, askedDepth, statedRows, h.rows]

omit [Zero Price] in
lemma SameCallers.subscribers (h : SameCallers f f') (tag : ℕ) :
    f'.depthSubscribersOf tag = f.depthSubscribersOf tag := by
  simp only [depthSubscribersOf, h.tags]

lemma sameCallers_deliverLevel (f : FarmDepth Price) (tag : ℕ) (e : BookEntry)
    (q : QuotedLevel Price) : SameCallers f (f.deliverLevel tag e q) := by
  unfold deliverLevel
  simp only
  split <;> exact ⟨rfl, rfl⟩

variable {q : QuotedLevel Price} {tag : ℕ} {e : BookEntry} {sub : DepthSubscriber}

lemma updatesFor_deliverLevel
    (hapart : Apart (f.depthSubscribersOf tag))
    (hsub : sub ∈ f.depthSubscribersOf tag) :
    (f.deliverLevel tag e q).updatesFor sub
      = f.updatesFor sub ++ (f.toldBefore tag e q sub ++ (f.keepBook tag e q).toldAfter tag e q sub)
      := by
  have hsome : ¬ f.depthSubscribersOf tag = [] := List.ne_nil_of_mem hsub
  have hbefore := filter_flatMap_told (f.toldBefore tag e q)
    (fun _ _ h => isFor_toldBefore h) hapart hsub
  have hafter := filter_flatMap_told ((f.keepBook tag e q).toldAfter tag e q)
    (fun _ _ h => isFor_toldAfter h) hapart hsub
  simp only [deliverLevel, if_neg hsome]
  simp only [updatesFor, push, keepBook, List.filter_append, List.append_assoc] at hbefore hafter ⊢
  rw [hbefore]
  congr 2

lemma map_edit_told {book : BookSides Price}
    (hrows : ∀ r ∈ f.depthRows, 0 < r.rows) (hheld : f.heldSide tag = book)
    (hop : q.operation < 3) (hfits : (q.edit e).Fits (book q.side))
    (hdeep : ((q.edit e).apply (book q.side)).length ≤ mostLevels) (sub : DepthSubscriber) :
    (f.toldBefore tag e q sub ++ (f.keepBook tag e q).toldAfter tag e q sub).map DepthUpdate.edit
      = (windowed (f.asked sub) (book q.side) (q.edit e)).map (Edit.map sub.told) := by
  have hkept : (f.keepBook tag e q).heldSide tag q.side = (q.edit e).apply (book q.side) := by
    rw [heldSide_keepBook, Function.update_self, hheld, rowsBehind_eq hfits hdeep]
  have hrows' : ∀ r ∈ (f.keepBook tag e q).depthRows, 0 < r.rows := hrows
  rw [List.map_append, map_edit_toldBefore hrows, map_edit_toldAfter hrows' hop hkept, hheld,
    windowed, List.map_append]
  rfl

lemma position_nonneg
    (hrows : ∀ r ∈ f.depthRows, 0 < r.rows) {u : DepthUpdate Price}
    (h : u ∈ f.toldBefore tag e q sub ++ (f.keepBook tag e q).toldAfter tag e q sub) :
    0 ≤ u.position := by
  have hpos : ∀ {n : ℤ}, f.askedDepth sub = some n → 0 ≤ n - 1 := fun {n} hn => by
    have hstated : f.statedRows sub = some n := by rwa [← askedDepth_eq hrows]
    have := statedRows_pos hrows hstated
    omega
  rcases List.mem_append.1 h with h | h
  · rcases List.mem_append.1 h with h | h
    · unfold outOfWindow at h
      split at h
      · next n hn =>
          split at h
          · rw [List.mem_singleton] at h
            exact h ▸ hpos hn
          · cases h
      · cases h
    · unfold ownEntry at h
      split at h
      · rw [List.mem_singleton] at h
        exact h ▸ Int.natCast_nonneg e.position
      · cases h
  · unfold toldAfter at h
    split at h
    · split at h
      · next n hn =>
          split at h
          · cases h
          · split at h
            · rw [List.mem_singleton] at h
              exact h ▸ hpos hn
            · cases h
      · cases h
    · cases h

lemma Mirrors.deliverLevel {book : BookSides Price}
    (h : Mirrors f tag book)
    (hrows : ∀ r ∈ f.depthRows, 0 < r.rows) (hapart : Apart (f.depthSubscribersOf tag))
    (hsome : f.depthSubscribersOf tag ≠ []) (hop : q.operation < 3)
    (hfits : (q.edit e).Fits (book q.side))
    (hdeep : ((q.edit e).apply (book q.side)).length ≤ mostLevels) :
    Mirrors (f.deliverLevel tag e q) tag
      (Function.update book q.side ((q.edit e).apply (book q.side))) := by
  have hsame := sameCallers_deliverLevel f tag e q
  have htold := map_edit_told hrows h.held hop hfits hdeep
  have hside : ∀ sub, ∀ u ∈ f.toldBefore tag e q sub ++ (f.keepBook tag e q).toldAfter tag e q sub,
      u.side = q.side := by
    intro sub u hu
    rcases List.mem_append.1 hu with hu | hu
    · exact (isFor_toldBefore hu).2.2
    · exact (isFor_toldAfter hu).2.2
  refine ⟨?_, ?_, ?_⟩
  · have hheld : (f.deliverLevel tag e q).heldSide tag = (f.keepBook tag e q).heldSide tag := by
      simp only [FarmDepth.deliverLevel, if_neg hsome]
      rfl
    rw [hheld, heldSide_keepBook, h.held, rowsBehind_eq hfits hdeep]
  · intro sub hsub side
    rw [hsame.subscribers] at hsub
    rw [hsame.asked, callerSide, updatesFor_deliverLevel hapart hsub, List.filter_append,
      List.map_append, replay_append]
    have hbefore := h.caller sub hsub side
    rw [callerSide] at hbefore
    rw [hbefore, Option.bind_some]
    by_cases hq : side = q.side
    · subst hq
      have hall : (f.toldBefore tag e q sub ++ (f.keepBook tag e q).toldAfter tag e q sub).filter
          (·.side = q.side) = _ := List.filter_eq_self.2 fun u hu => by simpa using hside sub u hu
      rw [hall, htold, replay_map, replay_windowed (fun k hk => asked_pos hrows hk) hfits,
        Function.update_self]
      rfl
    · have hnone : (f.toldBefore tag e q sub ++ (f.keepBook tag e q).toldAfter tag e q sub).filter
          (·.side = side) = [] := List.filter_eq_nil_iff.2 fun u hu => by
            rw [hside sub u hu, decide_eq_true_eq]
            exact Ne.symm hq
      rw [hnone, List.map_nil, replay, Function.update_of_ne hq]
  · intro sub hsub u hu
    rw [hsame.subscribers] at hsub
    rw [hsame.asked]
    rw [updatesFor_deliverLevel hapart hsub, List.mem_append] at hu
    rcases hu with hu | hu
    · exact h.inside sub hsub u hu
    · refine ⟨position_nonneg hrows hu, ?_⟩
      have hmem := List.mem_map_of_mem (f := DepthUpdate.edit) hu
      rw [htold sub] at hmem
      obtain ⟨w, hw, heq⟩ := List.mem_map.1 hmem
      rw [← heq, Edit.position_map]
      exact inside_of_mem_windowed hw

lemma told_congr (e : BookEntry)
    (q : QuotedLevel Price) (hheld : f'.heldSide tag = f.heldSide tag)
    (hstated : f'.statedRows sub = f.statedRows sub) :
    f'.toldBefore tag e q sub ++ (f'.keepBook tag e q).toldAfter tag e q sub
      = f.toldBefore tag e q sub ++ (f.keepBook tag e q).toldAfter tag e q sub := by
  have hasked : f'.askedDepth sub = f.askedDepth sub := by
    rw [askedDepth, askedDepth, hstated]
  have hkept : (f'.keepBook tag e q).heldSide tag = (f.keepBook tag e q).heldSide tag := by
    rw [heldSide_keepBook, heldSide_keepBook, hheld]
  have haskedKept : (f'.keepBook tag e q).askedDepth sub = (f.keepBook tag e q).askedDepth sub :=
    hasked
  have hwithin (i : ℤ) : f'.withinAskedDepth sub i = f.withinAskedDepth sub i := by
    rw [withinAskedDepth, withinAskedDepth, hstated]
  simp only [toldBefore, toldAfter, outOfWindow, ownEntry, hwithin, hasked, hheld, hkept,
    haskedKept]

end

/-! ## A stream -/

section

variable [Zero Price] [One Price] [LT Price] [DecidableLT Price] (worth : ℤ → Price → Price)

def venueStep (tick : DepthTag Price) (book : BookSides Price) (e : BookEntry) : BookSides Price :=
  match e.quoted worth tick with
  | none => book
  | some q => Function.update book q.side ((q.edit e).apply (book q.side))

def venueBook (tick : DepthTag Price) (es : List BookEntry) : BookSides Price :=
  Runs.run (venueStep worth tick) (fun _ => []) es

/-- An entry that states a level, at a position the venue's book has, and leaves no side of it
deeper than a position can name. -/
def Placed (tick : DepthTag Price) (book : BookSides Price) (e : BookEntry) : Prop :=
  e.op < 4 ∧ ∃ q, e.quoted worth tick = some q ∧ (q.edit e).Fits (book q.side) ∧
    ((q.edit e).apply (book q.side)).length ≤ mostLevels

/-- A stream at its start: its callers are told apart by request and mode, no book is held under its
number, and what a caller states of its depth is a row at least. -/
structure StreamStarts (f : FarmDepth Price) (tick : DepthTag Price) : Prop where
  tag : f.lookupDepthStag tick.serverTag = some tick
  apart : Apart (f.depthSubscribersOf tick.serverTag)
  rows : ∀ r ∈ f.depthRows, 0 < r.rows
  fresh : f.heldBook tick.serverTag = none
  silent : f.updates = []

def FarmDepth.behind (f : FarmDepth Price) (tick : DepthTag Price) (es : List BookEntry) :
    FarmDepth Price :=
  es.foldl (fun f e => f.bookEntry worth tick e) f

variable {worth}

variable {tick : DepthTag Price}

lemma quoted_operation {e : BookEntry} {q : QuotedLevel Price}
    (hop : e.op < 4) (h : e.quoted worth tick = some q) : q.operation < 3 := by
  unfold BookEntry.quoted at h
  split at h
  · cases h
    exact Nat.lt_succ_self 2
  · cases h
    exact Nat.lt_succ_self 2
  · next hthree =>
      split at h
      · cases h
        exact lt_of_le_of_ne (Nat.le_of_lt_succ hop) hthree
      · cases h

variable (worth) in
lemma sameCallers_bookEntry (f : FarmDepth Price) (tick : DepthTag Price) (e : BookEntry) :
    SameCallers f (f.bookEntry worth tick e) := by
  unfold bookEntry
  split
  · exact ⟨rfl, rfl⟩
  · exact sameCallers_deliverLevel f _ e _

variable (worth) in
lemma sameCallers_behind (tick : DepthTag Price) :
    ∀ (es : List BookEntry) (f : FarmDepth Price), SameCallers f (f.behind worth tick es)
  | [], _ => ⟨rfl, rfl⟩
  | e :: es, f => by
      have hfirst := sameCallers_bookEntry worth f tick e
      have hrest := sameCallers_behind tick es (f.bookEntry worth tick e)
      exact ⟨hrest.tags.trans hfirst.tags, hrest.rows.trans hfirst.rows⟩

variable {f : FarmDepth Price}

omit [Zero Price] [One Price] [LT Price] [DecidableLT Price] in
lemma StreamStarts.some_subscriber
    (h : StreamStarts f tick) : f.depthSubscribersOf tick.serverTag ≠ [] := by
  have hmem := List.mem_of_find?_eq_some h.tag
  exact List.ne_nil_of_mem (List.mem_map_of_mem (List.mem_filter.2 ⟨hmem, by simp⟩))

omit [Zero Price] [One Price] [LT Price] [DecidableLT Price] in
lemma StreamStarts.mirrors
    (h : StreamStarts f tick) : Mirrors f tick.serverTag fun _ => [] := by
  have hsilent (sub : DepthSubscriber) : f.updatesFor sub = [] := by
    rw [updatesFor, h.silent, List.filter_nil]
  refine ⟨?_, ?_, ?_⟩
  · funext side
    rw [heldSide, h.fresh]
    rfl
  · intro sub _ side
    rw [callerSide, hsilent]
    cases f.asked sub <;> simp [shown, replay]
  · intro sub _ u hu
    rw [hsilent] at hu
    exact absurd hu List.not_mem_nil

lemma Mirrors.behind :
    ∀ (es : List BookEntry) {f : FarmDepth Price} {book : BookSides Price},
      Mirrors f tick.serverTag book → (∀ r ∈ f.depthRows, 0 < r.rows) →
      Apart (f.depthSubscribersOf tick.serverTag) → f.depthSubscribersOf tick.serverTag ≠ [] →
      Runs.Along (venueStep worth tick) (Placed worth tick) book es →
      Mirrors (f.behind worth tick es) tick.serverTag (Runs.run (venueStep worth tick) book es)
  | [], _, _, h, _, _, _, _ => h
  | e :: es, f, book, h, hrows, hapart, hsome, hplaced => by
      obtain ⟨⟨hop, q, hq, hfits, hdeep⟩, hrest⟩ := hplaced
      have hsame := sameCallers_bookEntry worth f tick e
      have hstep : Mirrors (f.bookEntry worth tick e) tick.serverTag
          (venueStep worth tick book e) := by
        simp only [bookEntry, venueStep, hq]
        exact h.deliverLevel hrows hapart hsome (quoted_operation hop hq) hfits hdeep
      exact Mirrors.behind es hstep (by rwa [hsame.rows]) (by rwa [hsame.subscribers])
        (by rwa [hsame.subscribers]) hrest

lemma updatesFor_behind_congr {sub : DepthSubscriber} :
    ∀ (es : List BookEntry) {f f' : FarmDepth Price},
      Apart (f.depthSubscribersOf tick.serverTag) → Apart (f'.depthSubscribersOf tick.serverTag) →
      sub ∈ f.depthSubscribersOf tick.serverTag → sub ∈ f'.depthSubscribersOf tick.serverTag →
      f'.heldSide tick.serverTag = f.heldSide tick.serverTag →
      f'.statedRows sub = f.statedRows sub → f'.updatesFor sub = f.updatesFor sub →
      (f'.behind worth tick es).updatesFor sub = (f.behind worth tick es).updatesFor sub
  | [], _, _, _, _, _, _, _, _, h => h
  | e :: es, f, f', hapart, hapart', hsub, hsub', hheld, hstated, h => by
      have hsame := sameCallers_bookEntry worth f tick e
      have hsame' := sameCallers_bookEntry worth f' tick e
      refine updatesFor_behind_congr es (by rwa [hsame.subscribers]) (by rwa [hsame'.subscribers])
        (by rwa [hsame.subscribers]) (by rwa [hsame'.subscribers]) ?_ ?_ ?_
      · cases hq : e.quoted worth tick with
        | none => simpa only [bookEntry, hq] using hheld
        | some q =>
            have hkept : ∀ {g : FarmDepth Price}, sub ∈ g.depthSubscribersOf tick.serverTag →
                (g.deliverLevel tick.serverTag e q).heldSide tick.serverTag
                  = (g.keepBook tick.serverTag e q).heldSide tick.serverTag := fun hg => by
              simp only [FarmDepth.deliverLevel, if_neg (List.ne_nil_of_mem hg)]
              rfl
            simp only [bookEntry, hq, hkept hsub, hkept hsub', heldSide_keepBook, hheld]
      · simp only [statedRows, hsame.rows, hsame'.rows] at hstated ⊢
        exact hstated
      · cases hq : e.quoted worth tick with
        | none => simpa only [bookEntry, hq] using h
        | some q =>
            simp only [bookEntry, hq, updatesFor_deliverLevel hapart hsub, updatesFor_deliverLevel hapart' hsub',
              told_congr e q hheld hstated, h]

/-! ### Frames -/

lemma depthSection_eq
    (h : f.lookupDepthStag tick.serverTag = some tick) (es : List BookEntry) :
    f.depthSection worth (tick.serverTag, es) = f.behind worth tick es := by
  simp only [depthSection, h]
  rfl

lemma foldl_depthSection :
    ∀ (sections : List (ℕ × List BookEntry)) {f : FarmDepth Price},
      f.lookupDepthStag tick.serverTag = some tick → (∀ s ∈ sections, s.1 = tick.serverTag) →
      sections.foldl (fun f s => f.depthSection worth s) f
        = f.behind worth tick (sections.flatMap Prod.snd)
  | [], _, _, _ => rfl
  | ⟨tag, es⟩ :: sections, f, h, htags => by
      obtain rfl : tag = tick.serverTag := htags _ List.mem_cons_self
      have hsame := sameCallers_behind worth tick es f
      have hlookup : (f.behind worth tick es).lookupDepthStag tick.serverTag = some tick := by
        rwa [lookupDepthStag, hsame.tags]
      rw [List.foldl_cons, depthSection_eq h,
        foldl_depthSection sections hlookup fun s hs => htags s (List.mem_cons_of_mem _ hs),
        List.flatMap_cons]
      simp only [FarmDepth.behind, List.foldl_append]

lemma foldl_handleDepth35y :
    ∀ (frames : List (List (ℕ × List BookEntry) × Bytes)) {f : FarmDepth Price},
      f.lookupDepthStag tick.serverTag = some tick →
      (∀ frame ∈ frames, BookFrame frame.1 frame.2 ∧ ∀ s ∈ frame.1, s.1 = tick.serverTag) →
      frames.foldl (fun f frame => f.handleDepth35y worth frame.2) f
        = f.behind worth tick (frames.flatMap fun frame => frame.1.flatMap Prod.snd)
  | [], _, _, _ => rfl
  | frame :: frames, f, h, hframes => by
      obtain ⟨hwire, htags⟩ := hframes frame List.mem_cons_self
      have hone : f.handleDepth35y worth frame.2
          = f.behind worth tick (frame.1.flatMap Prod.snd) := by
        rw [handleDepth35y, readBook_wire hwire, foldl_depthSection frame.1 h htags]
      have hsame := sameCallers_behind worth tick (frame.1.flatMap Prod.snd) f
      have hlookup : (f.behind worth tick (frame.1.flatMap Prod.snd)).lookupDepthStag
          tick.serverTag = some tick := by
        rwa [lookupDepthStag, hsame.tags]
      rw [List.foldl_cons, hone, foldl_handleDepth35y frames hlookup fun g hg =>
        hframes g (List.mem_cons_of_mem _ hg), List.flatMap_cons]
      simp only [FarmDepth.behind, List.foldl_append]

/-- **A depth caller's book is the top of the venue's book.**  The entries of a stream, in whatever
sections and frames they arrive, leave every caller of the stream with the rows it asked for of the
venue's book after each of them, maker, price and size; no update is at or past the depth its caller
asked for, and what a caller is told does not depend on the callers beside it. -/
theorem depth_books_mirror (f : FarmDepth Price) (tick : DepthTag Price)
    (hstart : StreamStarts f tick) (frames : List (List (ℕ × List BookEntry) × Bytes))
    (hframes : ∀ frame ∈ frames, BookFrame frame.1 frame.2 ∧ ∀ s ∈ frame.1, s.1 = tick.serverTag)
    (es : List BookEntry) (hes : es = frames.flatMap fun frame => frame.1.flatMap Prod.snd)
    (hplaced : Runs.Along (venueStep worth tick) (Placed worth tick) (fun _ => []) es) :
    frames.foldl (fun f frame => f.handleDepth35y worth frame.2) f = f.behind worth tick es ∧
      ∀ es₁ es₂, es = es₁ ++ es₂ → ∀ sub ∈ f.depthSubscribersOf tick.serverTag,
        (∀ side, (f.behind worth tick es₁).callerSide sub side
          = some ((shown (f.asked sub) (venueBook worth tick es₁ side)).map sub.told)) ∧
        (∀ u ∈ (f.behind worth tick es₁).updatesFor sub,
          0 ≤ u.position ∧ ∀ n, f.asked sub = some n → u.position < n) ∧
        ∀ f', StreamStarts f' tick → sub ∈ f'.depthSubscribersOf tick.serverTag →
          f'.statedRows sub = f.statedRows sub →
          (f'.behind worth tick es₁).updatesFor sub = (f.behind worth tick es₁).updatesFor sub := by
  refine ⟨hes ▸ foldl_handleDepth35y frames hstart.tag hframes, ?_⟩
  rintro es₁ es₂ rfl sub hsub
  have hfirst := hplaced.of_append
  have hmirrors := hstart.mirrors.behind es₁ hstart.rows hstart.apart hstart.some_subscriber hfirst
  have hsame := sameCallers_behind worth tick es₁ f
  have hsub' := hsub
  rw [← hsame.subscribers] at hsub'
  refine ⟨?_, ?_, ?_⟩
  · intro side
    have hside := hmirrors.caller sub hsub' side
    rwa [hsame.asked] at hside
  · intro u hu
    obtain ⟨hpos, hin⟩ := hmirrors.inside sub hsub' u hu
    refine ⟨hpos, fun n hn => ?_⟩
    rw [hsame.asked] at hin
    have hlt := hin n hn
    have hedit : u.edit.position = u.position.toNat := by
      unfold DepthUpdate.edit
      split <;> rfl
    omega
  · intro f' hstart' hmem hstated
    refine updatesFor_behind_congr es₁ hstart.apart hstart'.apart hsub hmem ?_ hstated ?_
    · rw [hstart.mirrors.held, hstart'.mirrors.held]
    · rw [updatesFor, updatesFor, hstart.silent, hstart'.silent]

end

/-- A stream two requests read, one of them a single row of it. -/
def twoReaders : FarmDepth ℤ where
  depthTagToReq := [⟨5, 7, false, 1, 1, "ISLAND"⟩, ⟨5, 9, false, 1, 1, "ISLAND"⟩]
  depthRows := [⟨7, false, 1⟩]
  depthBooks := []
  updates := []

def topBid (price size : ℤ) : BookEntry := ⟨0, "", 0, ⟨some price, some size, some .bid⟩⟩

/-- Two bids above one another in one frame, and the upper one withdrawn in the next: the caller of
a single row is left with the lower one. -/
theorem depth_books_mirror_one_row :
    ([ascii "35=Y\x01" ++ [0, 128, 0, 0, 0, 5, 128, 0, 4, 100, 128, 3, 0, 0, 4, 101, 128, 2],
        ascii "35=Y\x01" ++ [0, 48, 0, 0, 0, 5, 32, 0]].foldl
        (fun f msg => f.handleDepth35y (· * ·) msg) twoReaders).callerSide ⟨7, false, "ISLAND"⟩ .bid
      = some [⟨"", 100, 3⟩] := by
  have hfields (v w : ℕ) (hv : v < 2 ^ 7) (hw : w < 2 ^ 7) : BookFieldsWire {}
      (topBid v w).level _ :=
    .cons (.short true (by decide : 0 < 31) (by decide : 0 < 4)) (.number false (by decide) hv)
      (.last (.short false (by decide : 16 < 31) (by decide : 0 < 4)) (.number false (by decide) hw))
  have hbid (more : Bool) (v w : ℕ) (hv : v < 2 ^ 7) (hw : w < 2 ^ 7) :
      BookEntryWire more (topBid v w) _ :=
    .mk false (show 0 < 4 by decide) (show 0 < 16 by decide) nofun (show 0 < 2 ^ 8 by decide)
      (hfields v w hv hw)
  have hbids : BookSectionsWire [(5, [topBid 100 3, topBid 101 2])] _ :=
    .last false (by decide) (.cons (hbid true 100 3 (by decide) (by decide))
      (.last (hbid false 101 2 (by decide) (by decide))))
      (Or.inr (show ([] : BookBits).length < 32 by decide))
  have hdelete : BookEntryWire false ⟨2, "", 0, {}⟩ _ :=
    .mk false (by decide) (by decide) nofun (by decide) ⟨rfl, rfl⟩
  have hdeletes : BookSectionsWire [(5, [⟨2, "", 0, {}⟩])] _ :=
    .last false (by decide) (.last hdelete) (Or.inr (show ([] : BookBits).length < 32 by decide))
  have htwo : BookFrame [(5, [topBid 100 3, topBid 101 2])] (ascii "35=Y\x01" ++
      [0, 128, 0, 0, 0, 5, 128, 0, 4, 100, 128, 3, 0, 0, 4, 101, 128, 2]) :=
    @BookFrame.mk _ [] [0, 0, 0, 5, 128, 0, 4, 100, 128, 3, 0, 0, 4, 101, 128, 2] 0 128 _ []
      (by decide) hbids (by decide +kernel) (by decide +kernel) (by decide +kernel)
  have hone : BookFrame [(5, [⟨2, "", 0, {}⟩])] (ascii "35=Y\x01" ++ [0, 48, 0, 0, 0, 5, 32, 0]) :=
    @BookFrame.mk _ [] [0, 0, 0, 5, 32, 0] 0 48 _ [] (by decide) hdeletes
      (by decide +kernel) (by decide +kernel) (by decide +kernel)
  have hplaced : Runs.Along (venueStep (· * ·) ⟨5, 7, false, 1, 1, "ISLAND"⟩)
      (Placed (· * ·) ⟨5, 7, false, 1, 1, "ISLAND"⟩) (fun _ => [])
      [topBid 100 3, topBid 101 2, ⟨2, "", 0, {}⟩] :=
    ⟨⟨by decide, _, rfl, by decide, by decide⟩, ⟨by decide, _, rfl, by decide, by decide⟩,
      ⟨by decide, _, rfl, by decide, by decide⟩, trivial⟩
  have hmirror := depth_books_mirror twoReaders ⟨5, 7, false, 1, 1, "ISLAND"⟩
    ⟨rfl, by unfold Apart; decide, by decide, rfl, rfl⟩ [(_, _), (_, _)] (by
      intro frame hmem
      rcases List.mem_pair.1 hmem with rfl | rfl
      · exact ⟨htwo, by decide⟩
      · exact ⟨hone, by decide⟩) _ rfl hplaced
  have hside := (hmirror.2 _ [] (List.append_nil _).symm ⟨7, false, "ISLAND"⟩ (by decide)).1 .bid
  rw [← hmirror.1] at hside
  exact hside

end IbkrDx
