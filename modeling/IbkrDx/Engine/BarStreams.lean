import IbkrDx.Engine.BarNumbers

/-!
# Five-second bar streams: who reads what

Every step keeps the desk and the board together.

* **`bar_streams_reach`** — along every run.
-/

namespace IbkrDx

namespace Boarded

variable {Bar : Type} {d : BarDesk Bar} {board : BarBoard}

lemma find_board (h : Boarded d board) {e : BarEntry} (he : e ∈ board) :
    board.find? (·.reqId = e.reqId) = some e := by
  cases hfind : board.find? (·.reqId = e.reqId) with
  | none => exact absurd (List.find?_eq_none.1 hfind e he) (by simp)
  | some e' =>
      have hfound := List.find?_some hfind
      have heq : e'.reqId = e.reqId := of_decide_eq_true hfound
      rw [h.routes.eq_of_reqId (List.mem_of_find?_eq_some hfind) he heq]

lemma absent_of_subs (h : Boarded d board) {r : ℕ} (hr : ∀ sub ∈ d.rtbarSubs, sub.reqId ≠ r) :
    ∀ e ∈ board, e.reqId ≠ r := by
  intro e he heq
  obtain ⟨sub, hsub, hreq⟩ := h.held e he
  exact hr sub hsub (hreq.trans heq)

lemma withdraw (h : Boarded d board) (r : ℕ) :
    Boarded (d.withdrawBarStream r).2 (board.leave r) ∧
      (d.withdrawBarStream r).2.rtbarWithdrawnUnnumbered
        = BarWorld.leftBehind ⟨d, board, d.rtbarWithdrawnUnnumbered⟩ r := by
  unfold BarWorld.leftBehind
  by_cases hr : ∃ e ∈ board, e.reqId = r
  · obtain ⟨e, he, rfl⟩ := hr
    simp only [h.find_board he]
    by_cases hs : e.standing = .waiting
    · obtain ⟨sub, hfind, -, hstands, hleft⟩ := h.withdraw_waiting he hs
      simp only [hfind, hs, if_true]
      exact ⟨hstands, hleft⟩
    · obtain ⟨route, hroute, hmem⟩ := h.routes.routed e he hs
      obtain ⟨-, hstands, hleft⟩ := h.withdraw_routed hroute hmem
      refine ⟨hstands, hleft.trans ?_⟩
      cases d.rtbarSubs.find? (·.reqId = e.reqId) with
      | none => rfl
      | some sub => simp only [if_neg hs]
  · push Not at hr
    obtain ⟨-, hstands, hleft, hfind⟩ := h.withdraw_absent hr
    simp only [hfind]
    exact ⟨hstands, hleft⟩

lemma letGo (h : Boarded d board) (r : ℕ) : Boarded (d.letGoOfBarRequest r) (board.leave r) :=
  h.leave rfl rfl (h.filter_resub r)

lemma foldl_letGo : ∀ (rs : List ℕ) {d : BarDesk Bar} {board : BarBoard}, Boarded d board →
    Boarded (rs.foldl BarDesk.letGoOfBarRequest d) (board.filter fun e => e.reqId ∉ rs)
  | [], _, _, h => by
      rw [List.filter_eq_self.2 (by simp)]
      exact h
  | r :: rs, _, board, h => by
      have hrest := foldl_letGo rs (h.letGo r)
      have hboard : (board.leave r).filter (fun e => e.reqId ∉ rs)
          = board.filter fun e => e.reqId ∉ r :: rs := by
        unfold BarBoard.leave
        rw [List.filter_filter]
        refine List.filter_congr fun e _ => ?_
        simp [Bool.and_comm]
      rwa [hboard] at hrest

lemma foldl_letGo_absent (h : Boarded d board) (rs : List ℕ)
    (hrs : ∀ r ∈ rs, ∀ e ∈ board, e.reqId ≠ r) :
    Boarded (rs.foldl BarDesk.letGoOfBarRequest d) board := by
  have hfold := foldl_letGo rs h
  rwa [List.filter_eq_self.2 fun e he => by
    simpa using fun hr => hrs e.reqId hr e he rfl] at hfold

lemma readingOf_waiting (hboard : ∀ e ∈ board, e.standing = .waiting) (bars : Bars) :
    board.readingOf bars = none := by
  unfold BarBoard.readingOf
  rw [List.findSome?_eq_none_iff]
  intro e he
  unfold BarEntry.reading
  rw [hboard e (List.mem_filter.1 he).1]

lemma resubscribe : ∀ (rest : BarBoard) (made : List BarSent × BarDesk Bar) {board : BarBoard},
    Boarded made.2 board → (∀ e ∈ board, e.standing = .waiting) →
      ((board ++ rest).map (·.reqId)).Nodup → (∀ e ∈ rest, e.bars.conId ≠ 0) →
        Boarded ((rest.map (·.request)).foldl (fun made r =>
            let asked := made.2.sendRealtimeBarSubscribe r.reqId r.bars
            (made.1 ++ asked.1, asked.2)) made).2
          (board ++ rest.map fun e => { e with standing := .waiting })
  | [], _, _, h, _, _, _ => by simpa using h
  | e :: rest, made, board, h, hboard, hnodup, hbars => by
      have habsent : ∀ e' ∈ board, e'.reqId ≠ e.reqId := by
        rw [List.map_append, List.nodup_append] at hnodup
        exact fun e' he' => hnodup.2.2 _ (List.mem_map_of_mem he') _ (by simp)
      have hask := h.ask habsent (hbars e List.mem_cons_self)
      have heq : board.ask e.reqId e.bars = board ++ [{ e with standing := .waiting }] := by
        unfold BarBoard.ask
        rw [leave_eq_self _ habsent]
        simp only [readingOf_waiting hboard, Option.map_none, Option.getD_none]
      rw [heq] at hask
      have hwaits : ∀ e' ∈ board ++ [{ e with standing := .waiting }],
          e'.standing = .waiting := by
        intro e' he'
        rcases List.mem_append.1 he' with he' | he'
        · exact hboard e' he'
        · rw [List.mem_singleton.1 he']
      have hrest := resubscribe rest
        (made.1 ++ (made.2.sendRealtimeBarSubscribe e.reqId e.bars).1,
          (made.2.sendRealtimeBarSubscribe e.reqId e.bars).2) hask hwaits
        (by simpa using hnodup) fun e' he' => hbars e' (List.mem_cons_of_mem e he')
      simpa using hrest

end Boarded

namespace BarDesk

variable {Bar : Type} {d : BarDesk Bar}

lemma withdrawnUnnumbered_subscribe (r : ℕ) (bars : Bars) :
    (d.sendRealtimeBarSubscribe r bars).2.rtbarWithdrawnUnnumbered
      = d.rtbarWithdrawnUnnumbered := by
  unfold sendRealtimeBarSubscribe
  dsimp only
  split <;> rfl

lemma withdrawnUnnumbered_resubscribe : ∀ (rs : List RtBarRequest) (made : List BarSent × BarDesk Bar),
    (rs.foldl (fun made r =>
      let asked := made.2.sendRealtimeBarSubscribe r.reqId r.bars
      (made.1 ++ asked.1, asked.2)) made).2.rtbarWithdrawnUnnumbered
        = made.2.rtbarWithdrawnUnnumbered
  | [], _ => rfl
  | r :: rs, made => by
      rw [List.foldl_cons, withdrawnUnnumbered_resubscribe rs]
      exact withdrawnUnnumbered_subscribe r.reqId r.bars

lemma withdrawnUnnumbered_letGo : ∀ (rs : List ℕ) (d : BarDesk Bar),
    (rs.foldl letGoOfBarRequest d).rtbarWithdrawnUnnumbered = d.rtbarWithdrawnUnnumbered
  | [], _ => rfl
  | r :: rs, d => by
      rw [List.foldl_cons, withdrawnUnnumbered_letGo rs]
      rfl

lemma cancelled_subscribe (r : ℕ) (bars : Bars) :
    BarWorld.cancelled (d.sendRealtimeBarSubscribe r bars).1 = [] := by
  unfold sendRealtimeBarSubscribe
  dsimp only
  split
  · rfl
  · split <;> rfl

lemma cancelled_append (a b : List BarSent) :
    BarWorld.cancelled (a ++ b) = BarWorld.cancelled a ++ BarWorld.cancelled b :=
  List.filterMap_append

lemma cancelled_resubscribe : ∀ (rs : List RtBarRequest) (made : List BarSent × BarDesk Bar),
    BarWorld.cancelled (rs.foldl (fun made r =>
      let asked := made.2.sendRealtimeBarSubscribe r.reqId r.bars
      (made.1 ++ asked.1, asked.2)) made).1 = BarWorld.cancelled made.1
  | [], _ => rfl
  | r :: rs, made => by
      rw [List.foldl_cons, cancelled_resubscribe rs]
      simp only [cancelled_append, cancelled_subscribe, List.append_nil]

lemma cancelled_query (q : BarQuery) :
    BarWorld.cancelled (d.sendHistoricalCancel (.query q)) = [] := by
  unfold sendHistoricalCancel
  split <;> rfl

end BarDesk

lemma BarDesk.assignBarRoute_eq {Bar : Type} {d : BarDesk Bar} {pos : ℕ}
    (hsub : d.rtbarSubs[pos]? = some sub)
    (hasked : d.askedBy sub.reqId = some asked) (n : ℕ) (m z : F64) :
    d.assignBarRoute pos n m z = d.routeTo asked n m z := by
  unfold assignBarRoute
  simp only [hsub, hasked]

namespace BarWorld

variable {Bar : Type} {w : BarWorld Bar} (decode : Bytes → F64 → F64 → ℕ → Option Bar)

/-- The desk and the board stand together, and so do the streams withdrawn. -/
structure Kept (w : BarWorld Bar) : Prop where
  stands : Boarded w.desk w.board
  left : w.desk.rtbarWithdrawnUnnumbered = w.left

/-- What is read of a desk: the routes, the subscriptions, and the requests. -/
def Alike (d d' : BarDesk Bar) : Prop :=
  d'.rtbarRoutes = d.rtbarRoutes ∧ d'.rtbarSubs = d.rtbarSubs ∧ d'.rtbarResub = d.rtbarResub ∧
    d'.rtbarWithdrawnUnnumbered = d.rtbarWithdrawnUnnumbered

variable {d : BarDesk Bar}

variable {d' : BarDesk Bar}

lemma Alike.stands {board : BarBoard} (h : Alike d d') (hd : Boarded d board) :
    Boarded d' board := hd.of_eq h.1 h.2.1 h.2.2.1

variable {r : ℕ}

lemma endKeeping_alike (hr : d.keepUpToDateReqs.contains r = true) :
    ∃ d' : BarDesk Bar, Alike d d' ∧ d'.up = d.up ∧ d.endKeeping r = d'.withdrawBarStream r := by
  refine ⟨{ d with
    keepUpToDateReqs := d.keepUpToDateReqs.filter (· ≠ r)
    formingBars := d.formingBars.filter (·.1 ≠ r) }, ⟨rfl, rfl, rfl, rfl⟩, rfl, ?_⟩
  unfold BarDesk.endKeeping
  rw [if_pos hr]
  rfl

lemma endKeeping_of_not (hr : ¬d.keepUpToDateReqs.contains r = true) :
    d.endKeeping r = ([], d) := by
  unfold BarDesk.endKeeping
  rw [if_neg hr]

lemma alike_endKeeping (h : Alike d d')
    (hr : ¬d'.keepUpToDateReqs.contains r = true) : Alike d (d'.endKeeping r).2 := by
  rw [endKeeping_of_not hr]
  exact h

lemma cancelled_endKeeping
    (hr : ¬d.keepUpToDateReqs.contains r = true) : cancelled (d.endKeeping r).1 = [] := by
  rw [endKeeping_of_not hr]
  rfl

lemma cancelBatch_alike (d : BarDesk Bar) (r : ℕ) :
    Alike d (d.cancelBatch r).2 ∧ cancelled (d.cancelBatch r).1 = [] := by
  unfold BarDesk.cancelBatch
  split
  · exact ⟨⟨rfl, rfl, rfl, rfl⟩, rfl⟩
  · exact ⟨⟨rfl, rfl, rfl, rfl⟩, BarDesk.cancelled_query _⟩

lemma step_of_withdraws {e : BarEvent} (hw : w.withdraws e = some r) :
    ∃ d' : BarDesk Bar, Alike w.desk d' ∧ d'.up = w.desk.up ∧
      Alike (d'.withdrawBarStream r).2 (w.desk.step decode e).2 ∧
      cancelled (w.desk.step decode e).1.1 = cancelled (d'.withdrawBarStream r).1 := by
  cases e with
  | cancelRealTimeBar q =>
      simp only [withdraws] at hw
      split at hw
      · exact absurd hw (by simp)
      · next hq =>
        obtain rfl := Option.some.inj hw
        refine ⟨w.desk, ⟨rfl, rfl, rfl, rfl⟩, rfl, ?_⟩
        simp only [BarDesk.step, BarDesk.cancelRealTimeBar, if_neg hq]
        exact ⟨⟨rfl, rfl, rfl, rfl⟩, trivial⟩
  | cancelHistorical q =>
      simp only [withdraws] at hw
      split at hw
      · next hq =>
        obtain rfl := Option.some.inj hw
        obtain ⟨d', halike, hup, heq⟩ := endKeeping_alike hq
        refine ⟨d', halike, hup, ?_⟩
        obtain ⟨hbatch, hnone⟩ := cancelBatch_alike (d'.withdrawBarStream q).2 q
        simp only [BarDesk.step, BarDesk.cancelHistorical, heq, BarDesk.cancelled_append, hnone,
          List.append_nil]
        exact ⟨hbatch, trivial⟩
      · exact absurd hw (by simp)
  | failed q =>
      simp only [withdraws] at hw
      split at hw
      · next hq =>
        obtain rfl := Option.some.inj hw
        obtain ⟨d', halike, hup, heq⟩ := endKeeping_alike (d := { w.desk with
          pendingHistorical := w.desk.pendingHistorical.filter (·.2 ≠ q)
          held := w.desk.held.filter (· ≠ q) }) hq
        refine ⟨d', halike, hup, ?_⟩
        simp only [BarDesk.step, BarDesk.failBars, heq]
        exact ⟨⟨rfl, rfl, rfl, rfl⟩, trivial⟩
      · exact absurd hw (by simp)
  | refused q =>
      simp only [withdraws] at hw
      split at hw
      · next hup =>
        obtain ⟨⟨q', r'⟩, hfind, hr⟩ := Option.bind_eq_some_iff.1 hw
        split at hr
        · next hq =>
          obtain rfl := Option.some.inj hr
          obtain ⟨d', halike, hup', heq⟩ := endKeeping_alike (d := { w.desk with
            pendingHistorical := w.desk.pendingHistorical.eraseP (·.1 = q)
            held := w.desk.held.filter (· ≠ r') }) hq
          refine ⟨d', halike, hup', ?_⟩
          simp only [BarDesk.step, if_pos hup, BarDesk.queryError, hfind, heq]
          exact ⟨⟨rfl, rfl, rfl, rfl⟩, trivial⟩
        · exact absurd hr (by simp)
      · exact absurd hw (by simp)
  | subscribe | keepUpToDate | history | acknowledged | frame | disconnect | reconnect =>
      exact absurd hw (by simp [withdraws])

lemma Alike.withdraw {board : BarBoard} (h : Alike d d') (hd : Boarded d board)
    (r : ℕ) : Boarded (d'.withdrawBarStream r).2 (board.leave r) ∧
      (d'.withdrawBarStream r).2.rtbarWithdrawnUnnumbered
        = leftBehind ⟨d, board, d.rtbarWithdrawnUnnumbered⟩ r := by
  obtain ⟨hstands, hleft⟩ := (h.stands hd).withdraw r
  refine ⟨hstands, hleft.trans ?_⟩
  unfold leftBehind
  dsimp only
  rw [h.2.1, h.2.2.2]

/-! ## The acknowledgement -/

lemma kept_acknowledged (h : Kept w) {q : BarQuery} (hlate : ¬w.isLate q = true) (n : ℕ) (m z : F64)
    (hspared : ∀ r ∈ w.named q, ∃ e ∈ w.board, e.reqId = r ∧ w.Steady e.request n) :
    Boarded (w.desk.acknowledged q n (some m) z).2 (w.numberFor q ⟨n, m, z⟩) ∧
      (w.desk.acknowledged q n (some m) z).2.rtbarWithdrawnUnnumbered
        = w.desk.rtbarWithdrawnUnnumbered ∧
      cancelled (w.desk.acknowledged q n (some m) z).1 = if w.desk.up then
        ((w.named q).bind fun r => w.board.find? (·.reqId = r)).toList.flatMap fun e =>
          w.board.givesUp e.bars ⟨n, m, z⟩ else [] := by
  have hnone : w.desk.rtbarWithdrawnUnnumbered.find? (·.1 = q) = none := by
    rw [h.left, List.find?_eq_none]
    intro p hp heq
    exact hlate (List.any_eq_true.2 ⟨p, hp, heq⟩)
  unfold BarDesk.acknowledged numberFor
  simp only [hnone]
  cases hpos : w.desk.rtbarSubs.findIdx? (·.query = q) with
  | some pos =>
      obtain ⟨hlt, hat, hbefore⟩ := List.findIdx?_eq_some_iff_getElem.1 hpos
      have hfind : w.desk.rtbarSubs.find? (·.query = q) = some w.desk.rtbarSubs[pos] :=
        List.find?_eq_some_iff_getElem.2 ⟨hat, pos, hlt, rfl, fun j hj => by simpa using hbefore j hj⟩
      have hnamed : w.named q = some w.desk.rtbarSubs[pos].reqId := by
        simp [named, hfind]
      obtain ⟨e, he, heq, hsteady⟩ := hspared _ hnamed
      have hasked : w.desk.askedBy w.desk.rtbarSubs[pos].reqId = some e.request := by
        rw [← heq, BarDesk.askedBy, h.stands.find_resub he]
        rfl
      have hassign : w.desk.assignBarRoute pos n m z = w.desk.routeTo e.request n m z :=
        BarDesk.assignBarRoute_eq (List.getElem?_eq_getElem hlt) hasked n m z
      obtain ⟨hstands, hsent⟩ := BarDesk.stands_routeTo h.stands.routes he
        (fun sub hsub _ => h.stands.subs sub hsub) h.stands.held h.stands.resub m z hsteady
      simp only [hnamed, ← heq, h.stands.find_board he, Option.bind_some, Option.toList_some,
        List.flatMap_singleton]
      rw [hassign]
      exact ⟨hstands, rfl, hsent⟩
  | none =>
      have hfind : w.desk.rtbarSubs.find? (·.query = q) = none := by
        rw [List.find?_eq_none]
        simpa using List.findIdx?_eq_none_iff.1 hpos
      cases hbatch : w.desk.batchOf q with
      | none =>
          have hnamed : w.named q = none := by simp [named, hfind, hbatch]
          simp only [hnamed]
          refine ⟨h.stands, trivial, ?_⟩
          simp [cancelled]
      | some p =>
          have hnamed : w.named q = some p.2 := by simp [named, hfind, hbatch]
          obtain ⟨e, he, heq, hsteady⟩ := hspared _ hnamed
          have hasked : w.desk.askedBy p.2 = some e.request := by
            rw [← heq, BarDesk.askedBy, h.stands.find_resub he]
            rfl
          dsimp only
          set d' : BarDesk Bar := { w.desk with
            rtbarSubs := w.desk.rtbarSubs ++ [BarSub.mk q p.2 none m z] } with hd'
          have hassign : d'.assignBarRoute w.desk.rtbarSubs.length n m z
              = d'.routeTo e.request n m z :=
            BarDesk.assignBarRoute_eq List.getElem?_concat_length hasked n m z
          have hroute := BarDesk.stands_routeTo (d := d') h.stands.routes he
            (fun sub hsub hne => by
              rcases List.mem_append.1 hsub with hsub | hsub
              · exact h.stands.subs sub hsub
              · rw [List.mem_singleton.1 hsub] at hne
                exact absurd heq.symm hne)
            (fun e' he' => by
              obtain ⟨sub, hsub, hreq⟩ := h.stands.held e' he'
              exact ⟨sub, List.mem_append_left _ hsub, hreq⟩)
            h.stands.resub m z hsteady
          have hboard : w.board.find? (·.reqId = p.2) = some e := heq ▸ h.stands.find_board he
          simp only [hnamed, hboard, Option.bind_some, Option.toList_some, List.flatMap_singleton]
          rw [hassign, ← heq]
          exact ⟨hroute.1, rfl, hroute.2⟩

/-! ## Every step -/

lemma stands_turnedAway (h : Boarded w.desk w.board) {q : BarQuery} {sub : BarSub}
    (hfind : w.desk.rtbarSubs.find? (·.query = q) = some sub)
    (hone : (w.desk.rtbarSubs.filter (·.reqId = sub.reqId)).length = 1)
    (hsubs : d'.rtbarSubs = w.desk.rtbarSubs.eraseP (·.query = q))
    (hroutes : d'.rtbarRoutes = routesWithout sub.reqId w.desk.rtbarRoutes)
    (hresub : d'.rtbarResub = w.desk.rtbarResub.filter (·.reqId ≠ sub.reqId)) :
    Boarded d' (w.board.leave sub.reqId) := by
  refine h.leave hroutes (hsubs.trans ?_) (hresub.trans (h.filter_resub _))
  have hfound := List.find?_some hfind
  obtain ⟨a, l₁, l₂, hl₁, ha, hl, herase⟩ :=
    List.exists_of_eraseP (p := fun sub => decide (sub.query = q)) (List.mem_of_find?_eq_some hfind)
      hfound
  -- the one that is taken out is the one that was found
  obtain rfl : a = sub := by
    rw [hl, List.find?_append, List.find?_eq_none.2 fun b hb => hl₁ b hb,
      Option.none_or, List.find?_cons, ha] at hfind
    exact Option.some.inj hfind
  have hnone (l : List BarSub) (hlen : (l.filter (·.reqId = a.reqId)).length = 0) :
      l.filter (·.reqId ≠ a.reqId) = l := by
    rw [List.filter_eq_self]
    intro b hb
    rw [List.length_eq_zero_iff, List.filter_eq_nil_iff] at hlen
    simpa using hlen b hb
  rw [hl, List.filter_append, List.filter_cons_of_pos (by simp), List.length_append,
    List.length_cons] at hone
  rw [herase, hl, List.filter_append, List.filter_cons_of_neg (by simp), hnone l₁ (by omega),
    hnone l₂ (by omega)]

lemma unkept_of_refused {q : BarQuery} {p : BarQuery × ℕ} (hup : w.desk.up = true)
    (hpending : w.desk.pendingHistorical.find? (·.1 = q) = some p)
    (hw : w.withdraws (.refused q) = none) : ¬w.desk.keepUpToDateReqs.contains p.2 = true := by
  simp only [withdraws, if_pos hup, hpending, Option.bind_some] at hw
  intro hp
  rw [if_pos hp] at hw
  exact absurd hw (by simp)

namespace Kept

variable (h : Kept w)
include h

lemma of_alike {e : BarEvent} (hdesk : Alike w.desk (w.desk.step decode e).2)
    (hboard : w.boardAfter e = w.board) (hleft : w.leftAfter e = w.left) :
    Kept (w.step decode e) where
  stands := by
    show Boarded _ (w.boardAfter e)
    rw [hboard]
    exact hdesk.stands h.stands
  left := by
    show _ = w.leftAfter e
    rw [hleft, ← h.left]
    exact hdesk.2.2.2

lemma withdrawn {e : BarEvent} {r : ℕ} (hw : w.withdraws e = some r) : Kept (w.step decode e) := by
  obtain ⟨d', halike, -, hafter, -⟩ := step_of_withdraws decode hw
  obtain ⟨hstands, hbehind⟩ := halike.withdraw h.stands r
  have hboard : w.boardAfter e = w.board.leave r := by simp only [boardAfter, hw]
  have hleft : w.leftAfter e = w.leftBehind r := by simp only [leftAfter, hw]
  refine ⟨?_, ?_⟩
  · show Boarded _ (w.boardAfter e)
    rw [hboard]
    exact hafter.stands hstands
  · show _ = w.leftAfter e
    rw [h.left] at hbehind
    rw [hleft]
    exact hafter.2.2.2.trans hbehind

lemma subscribe {r : ℕ} {bars : Bars} (he : w.Spared (.subscribe r bars)) :
    Kept (w.step decode (.subscribe r bars)) := by
  by_cases hask : ¬w.desk.up ∨ w.desk.rtbarSubs.any (·.reqId = r)
  · refine h.of_alike decode ?_ (if_pos hask) rfl
    simp only [BarDesk.step, BarDesk.subscribeRealTimeBar, if_pos hask]
    exact ⟨rfl, rfl, rfl, rfl⟩
  · have hdesk : w.desk.subscribeRealTimeBar r bars = w.desk.sendRealtimeBarSubscribe r bars :=
      if_neg hask
    have hboard : w.boardAfter (.subscribe r bars) = w.board.ask r bars := if_neg hask
    refine ⟨?_, ?_⟩
    · show Boarded (w.desk.subscribeRealTimeBar r bars).2 (w.boardAfter (.subscribe r bars))
      rw [hdesk, hboard]
      push Not at hask
      refine h.stands.ask (h.stands.absent_of_subs fun sub hsub heq => hask.2 ?_) he.1
      exact List.any_eq_true.2 ⟨sub, hsub, decide_eq_true heq⟩
    · show (w.desk.subscribeRealTimeBar r bars).2.rtbarWithdrawnUnnumbered = w.left
      rw [hdesk, BarDesk.withdrawnUnnumbered_subscribe, h.left]

lemma keepUpToDate {r : ℕ} {bars : Bars} (he : w.Spared (.keepUpToDate r bars)) :
    Kept (w.step decode (.keepUpToDate r bars)) := by
  by_cases hup : w.desk.up = true
  · have hdesk : ∃ d' : BarDesk Bar, Alike w.desk d' ∧
        w.desk.startHistoricalRequest r bars = d'.sendRealtimeBarSubscribe r bars := by
      refine ⟨_, ?_, if_pos hup⟩
      exact ⟨rfl, rfl, rfl, rfl⟩
    obtain ⟨d', halike, hstart⟩ := hdesk
    have hboard : w.boardAfter (.keepUpToDate r bars) = w.board.ask r bars := if_pos hup
    refine ⟨?_, ?_⟩
    · show Boarded (w.desk.startHistoricalRequest r bars).2 (w.boardAfter (.keepUpToDate r bars))
      rw [hstart, hboard]
      exact (halike.stands h.stands).ask (h.stands.absent_of_subs he.2.1) he.1
    · show (w.desk.startHistoricalRequest r bars).2.rtbarWithdrawnUnnumbered = w.left
      rw [hstart, BarDesk.withdrawnUnnumbered_subscribe, halike.2.2.2, h.left]
  · refine h.of_alike decode ?_ (if_neg hup) rfl
    simp only [BarDesk.step, BarDesk.startHistoricalRequest, if_neg hup]
    exact ⟨rfl, rfl, rfl, rfl⟩

variable {q : BarQuery}

lemma late {n : ℕ} {m : Option F64} {z : F64} (hup : w.desk.up = true)
    (hlate : w.isLate q = true) : Kept (w.step decode (.acknowledged q n m z)) := by
  have hfind : ∃ p, w.desk.rtbarWithdrawnUnnumbered.find? (·.1 = q) = some p := by
    rw [h.left, ← Option.isSome_iff_exists, List.find?_isSome]
    exact List.any_eq_true.1 hlate
  obtain ⟨p, hp⟩ := hfind
  have hdesk : (w.desk.step decode (.acknowledged q n m z)).2 = { w.desk with
      rtbarWithdrawnUnnumbered := w.desk.rtbarWithdrawnUnnumbered.eraseP (·.1 = q) } := by
    simp only [BarDesk.step, if_pos hup, BarDesk.acknowledged, hp]
  have hboard : w.boardAfter (.acknowledged q n m z) = w.board := by
    cases m with
    | none => rfl
    | some m => exact if_pos (.inr hlate)
  have hleft : w.leftAfter (.acknowledged q n m z) = w.left.eraseP (·.1 = q) := if_pos hup
  refine ⟨?_, ?_⟩
  · show Boarded (w.desk.step decode (.acknowledged q n m z)).2 (w.boardAfter (.acknowledged q n m z))
    rw [hdesk, hboard]
    exact h.stands.of_eq rfl rfl rfl
  · show (w.desk.step decode (.acknowledged q n m z)).2.rtbarWithdrawnUnnumbered
      = w.leftAfter (.acknowledged q n m z)
    rw [hdesk, hleft, h.left]

lemma find_withdrawn_eq_none (hlate : ¬w.isLate q = true) :
    w.desk.rtbarWithdrawnUnnumbered.find? (·.1 = q) = none ∧ w.left.eraseP (·.1 = q) = w.left := by
  refine ⟨?_, List.eraseP_of_forall_not fun p hp heq => hlate (List.any_eq_true.2 ⟨p, hp, heq⟩)⟩
  rw [h.left, List.find?_eq_none]
  exact fun p hp heq => hlate (List.any_eq_true.2 ⟨p, hp, heq⟩)

lemma acknowledged {n : ℕ} {m : Option F64} {z : F64}
    (he : w.Spared (.acknowledged q n m z)) : Kept (w.step decode (.acknowledged q n m z)) := by
  by_cases hup : w.desk.up = true
  · by_cases hlate : w.isLate q = true
    · exact h.late decode hup hlate
    · obtain ⟨hnone, hgone⟩ := h.find_withdrawn_eq_none hlate
      have hleft : w.leftAfter (.acknowledged q n m z) = w.left := (if_pos hup).trans hgone
      cases m with
      | none =>
          refine h.of_alike decode ?_ rfl hleft
          simp only [BarDesk.step, if_pos hup, BarDesk.acknowledged, hnone]
          exact ⟨rfl, rfl, rfl, rfl⟩
      | some m =>
          obtain ⟨hstands, hkept, -⟩ := kept_acknowledged h hlate n m z (he hup hlate (by simp))
          have hdesk : (w.desk.step decode (.acknowledged q n (some m) z)).2
              = (w.desk.acknowledged q n (some m) z).2 := by
            simp only [BarDesk.step, if_pos hup]
          have hboard : w.boardAfter (.acknowledged q n (some m) z) = w.numberFor q ⟨n, m, z⟩ :=
            if_neg (by simp [hup, hlate])
          refine ⟨?_, ?_⟩
          · show Boarded (w.desk.step decode (.acknowledged q n (some m) z)).2
              (w.boardAfter (.acknowledged q n (some m) z))
            rw [hdesk, hboard]
            exact hstands
          · show (w.desk.step decode (.acknowledged q n (some m) z)).2.rtbarWithdrawnUnnumbered
              = w.leftAfter (.acknowledged q n (some m) z)
            rw [hdesk, hleft, hkept, h.left]
  · refine h.of_alike decode ?_ ?_ (if_neg hup)
    · simp only [BarDesk.step, if_neg hup]
      exact ⟨rfl, rfl, rfl, rfl⟩
    · cases m with
      | none => rfl
      | some m => exact if_pos (.inl hup)

lemma refused (hw : w.withdraws (.refused q) = none) (he : w.Spared (.refused q)) :
    Kept (w.step decode (.refused q)) := by
  have hleft : w.leftAfter (.refused q) = w.left := by simp only [leftAfter, hw]
  by_cases hup : w.desk.up = true
  · cases hpending : w.desk.pendingHistorical.find? (·.1 = q) with
    | some p =>
        -- a batch of a request that is not kept up to date
        have hnot := unkept_of_refused hup hpending hw
        have hturn : w.turnsAway (.refused q) = none := by
          simp [turnsAway, hpending]
        refine h.of_alike decode ?_ (by simp only [boardAfter, hw, hturn]) hleft
        simp only [BarDesk.step, if_pos hup, BarDesk.queryError, hpending]
        exact alike_endKeeping ⟨rfl, rfl, rfl, rfl⟩ hnot
    | none =>
        cases hfind : w.desk.rtbarSubs.find? (·.query = q) with
        | none =>
            have hturn : w.turnsAway (.refused q) = none := by
              simp [turnsAway, hfind]
            refine h.of_alike decode ?_ (by simp only [boardAfter, hw, hturn]) hleft
            simp only [BarDesk.step, if_pos hup, BarDesk.queryError, hpending, hfind]
            exact ⟨rfl, rfl, rfl, rfl⟩
        | some sub =>
            have hturn : w.turnsAway (.refused q) = some sub.reqId := by
              simp [turnsAway, hup, hpending, hfind]
            have hboard : w.boardAfter (.refused q) = w.board.leave sub.reqId := by
              simp only [boardAfter, hw, hturn]
            refine ⟨?_, ?_⟩
            · show Boarded (w.desk.step decode (.refused q)).2 (w.boardAfter (.refused q))
              rw [hboard]
              refine stands_turnedAway h.stands hfind (he _ hturn) ?_ ?_ ?_ <;>
                simp only [BarDesk.step, if_pos hup, BarDesk.queryError, hpending, hfind] <;> rfl
            · show (w.desk.step decode (.refused q)).2.rtbarWithdrawnUnnumbered
                = w.leftAfter (.refused q)
              rw [hleft, ← h.left]
              simp only [BarDesk.step, if_pos hup, BarDesk.queryError, hpending, hfind]
              rfl
  · have hturn : w.turnsAway (.refused q) = none := by simp [turnsAway, hup]
    refine h.of_alike decode ?_ (by simp only [boardAfter, hw, hturn]) hleft
    simp only [BarDesk.step, if_neg hup]
    exact ⟨rfl, rfl, rfl, rfl⟩

lemma disconnect (he : w.Spared .disconnect) : Kept (w.step decode .disconnect) := by
  have hkept := Boarded.foldl_letGo w.desk.keepUpToDateReqs h.stands
  have hkept' : Boarded ({ w.desk.keepUpToDateReqs.foldl BarDesk.letGoOfBarRequest w.desk with
      barAsks := [] } : BarDesk Bar)
      (w.board.filter fun e => e.reqId ∉ w.desk.keepUpToDateReqs) := hkept.of_eq rfl rfl rfl
  have hagain := hkept'.foldl_letGo_absent w.desk.leftToAskAgain fun r hr e hmem =>
    he r hr e (List.mem_filter.1 hmem).1
  refine ⟨hagain.of_eq rfl rfl rfl, ?_⟩
  show (w.desk.disconnect).rtbarWithdrawnUnnumbered = w.left
  unfold BarDesk.disconnect
  dsimp only
  rw [BarDesk.withdrawnUnnumbered_letGo]
  dsimp only
  rw [BarDesk.withdrawnUnnumbered_letGo, h.left]

lemma reconnect : Kept (w.step decode .reconnect) := by
  have hempty : Boarded ({ w.desk with
      up := true
      rtbarSubs := []
      rtbarRoutes := []
      rtbarResub := []
      rtbarWithdrawnUnnumbered := [] } : BarDesk Bar) [] := by
    refine ⟨⟨?_, ?_, ?_, ?_, ?_, ?_, ?_, ?_, ?_⟩, ?_, ?_, ?_⟩ <;> simp
  have hall := Boarded.resubscribe w.board ([], _) hempty (by simp)
    (by simpa using h.stands.routes.once) h.stands.routes.named
  refine ⟨?_, ?_⟩
  · show Boarded w.desk.reconnect.2 (w.board.map fun e => { e with standing := .waiting })
    unfold BarDesk.reconnect
    rw [h.stands.resub]
    exact hall
  · show w.desk.reconnect.2.rtbarWithdrawnUnnumbered = []
    unfold BarDesk.reconnect
    rw [BarDesk.withdrawnUnnumbered_resubscribe]

end Kept

/-- **One step keeps the desk and the board together.** -/
theorem Kept.step (h : Kept w) {e : BarEvent} (he : w.Spared e) : Kept (w.step decode e) := by
  cases hw : w.withdraws e with
  | some r => exact h.withdrawn decode hw
  | none =>
  cases e with
  | subscribe r bars => exact h.subscribe decode he
  | keepUpToDate r bars => exact h.keepUpToDate decode he
  | history pending held pendingSchedule asks =>
      exact h.of_alike decode ⟨rfl, rfl, rfl, rfl⟩ rfl rfl
  | acknowledged q n m z => exact h.acknowledged decode he
  | refused q => exact h.refused decode hw he
  | failed r =>
      have hnot : ¬w.desk.keepUpToDateReqs.contains r = true := by
        simpa [withdraws] using hw
      refine h.of_alike decode ?_ (by simp only [boardAfter, hw, turnsAway])
        (by simp only [leftAfter, hw])
      simp only [BarDesk.step, BarDesk.failBars]
      exact alike_endKeeping ⟨rfl, rfl, rfl, rfl⟩ hnot
  | cancelRealTimeBar r =>
      have hkeeps : w.desk.keepUpToDateReqs.contains r = true := by
        simpa [withdraws] using hw
      refine h.of_alike decode ?_ (by simp only [boardAfter, hw, turnsAway])
        (by simp only [leftAfter, hw])
      simp only [BarDesk.step, BarDesk.cancelRealTimeBar, if_pos hkeeps]
      exact ⟨rfl, rfl, rfl, rfl⟩
  | cancelHistorical r =>
      have hnot : ¬w.desk.keepUpToDateReqs.contains r = true := by
        simpa [withdraws] using hw
      refine h.of_alike decode ?_ (by simp only [boardAfter, hw, turnsAway])
        (by simp only [leftAfter, hw])
      simp only [BarDesk.step, BarDesk.cancelHistorical, endKeeping_of_not hnot]
      exact (cancelBatch_alike w.desk r).1
  | frame body =>
      refine h.of_alike decode ?_ rfl rfl
      simp only [BarDesk.step]
      split <;> exact ⟨rfl, rfl, rfl, rfl⟩
  | disconnect => exact h.disconnect decode he
  | reconnect => exact h.reconnect decode

/-! ## What is right of every step -/

lemma oneRoute_of_routed {board : BarBoard} (h : Routed d.rtbarRoutes board) :
    OneRoute d :=
  List.nodup_flatMap.2 ⟨fun route hroute => (h.read route hroute).1,
    h.apart.imp fun hab r hr hr' => hab r hr hr'⟩

lemma without_eq_nil_iff {routes : List BarRoute} {board : BarBoard} (h : Routed routes board)
    {route : BarRoute} (hroute : route ∈ routes) (hr : r ∈ route.readers) :
    (route.without r).readers = [] ↔ route.readers = [r] := by
  have hnodup := (h.read route hroute).1
  constructor
  · intro hnil
    refine List.perm_singleton.1 ((List.perm_ext_iff_of_nodup hnodup (by simp)).2 fun q => ?_)
    rw [List.mem_singleton]
    constructor
    · intro hq
      by_contra hne
      have hmem := BarRoute.mem_readers_without.2 ⟨hq, hne⟩
      rw [hnil] at hmem
      exact absurd hmem (by simp)
    · rintro rfl
      exact hr
  · intro hone
    simp [BarRoute.without, hone]

lemma readBeside_iff (h : Boarded w.desk w.board) {e : BarEntry} (he : e ∈ w.board) {ρ : BarReading}
    (hρ : ρ ∈ e.reading) {route : BarRoute} (hroute : route ∈ w.desk.rtbarRoutes)
    (hr : e.reqId ∈ route.readers) : w.ReadBeside e.reqId ρ.ticker ↔
      (route.without e.reqId).readers ≠ [] := by
  have hs := BarEntry.mem_reading.1 hρ
  obtain ⟨mine, hmine, hon, hactive, hticker, -⟩ := h.routes.route_of_reads he hs
  obtain rfl := h.routes.eq_of_reader hmine hroute hon hr
  constructor
  · rintro ⟨e', he', hne, ρ', hρ', hn⟩
    obtain ⟨x, hx, hmem, hactive', hticker', -⟩ :=
      h.routes.route_of_reads he' (BarEntry.mem_reading.1 hρ')
    obtain rfl := h.routes.distinct x hx mine hmine hactive' hactive (by rw [hticker', hticker, hn])
    exact List.ne_nil_of_mem (BarRoute.mem_readers_without.2 ⟨hmem, hne⟩)
  · intro hne
    obtain ⟨q, hq⟩ := List.exists_mem_of_ne_nil _ hne
    rw [BarRoute.mem_readers_without] at hq
    obtain ⟨e', he', rfl, -, k, hk, hs'⟩ := h.routes.reads_of_active hmine hactive hq.1
    exact ⟨e', he', hq.2, _, BarEntry.mem_reading.2 hs', Option.some.inj (hk.symm.trans hticker)⟩

namespace Kept

variable (h : Kept w)
include h

lemma delivers (e : BarEvent) : w.Delivers decode e := by
  rintro body rfl hup
  simp only [BarDesk.step, if_pos hup]
  exact BarDesk.forall₂_handRecords decode h.stands.routes h.stands.subs h.stands.held _ _

lemma withdraws (e : BarEvent) : w.Withdraws decode e := by
  intro r hw hup
  obtain ⟨d', halike, hup', -, hsent⟩ := step_of_withdraws decode hw
  have hstands := halike.stands h.stands
  -- what is sent for a reader of a route
  have hroute (route : BarRoute) (hroute : route ∈ w.desk.rtbarRoutes) (hr : r ∈ route.readers) :
      cancelled (w.desk.step decode e).1.1
        = if (route.without r).readers = [] then route.ticker.toList else [] := by
    obtain ⟨hone, -⟩ := hstands.withdraw_routed (halike.1 ▸ hroute) hr
    rw [hsent, hone]
    split
    · rw [BarDesk.cancelled_toList_flatMap, if_pos (hup'.trans hup)]
    · rfl
  refine ⟨?_, ?_⟩
  · rintro e he rfl ρ hρ
    obtain ⟨mine, hmine, hon, -, hticker, -⟩ :=
      h.stands.routes.route_of_reads he (BarEntry.mem_reading.1 hρ)
    have hbeside := readBeside_iff h.stands he hρ hmine hon
    rw [hroute mine hmine hon]
    refine ⟨fun hread => if_neg (hbeside.1 hread), fun hread => ?_⟩
    rw [hbeside, not_not] at hread
    rw [if_pos hread, hticker]
    rfl
  · intro route hmem hr
    rw [hroute route hmem hr]
    exact if_congr (without_eq_nil_iff h.stands.routes hmem hr) rfl rfl

lemma cancelsLate (e : BarEvent) : w.CancelsLate decode e := by
  rintro q n m z asked rfl hup hfind
  rw [← h.left] at hfind
  have hresub : w.desk.rtbarResub.any (·.bars = asked.bars)
      = w.board.any (·.bars = asked.bars) := by
    rw [h.stands.resub, List.any_map]
    rfl
  simp only [BarDesk.step, if_pos hup, BarDesk.acknowledged, hfind, hresub]
  split
  · rfl
  · rw [BarDesk.cancelled_sendHistoricalCancel, if_pos hup]

lemma spares {e : BarEvent} (he : w.Spared e) : w.Spares decode e := by
  intro hw n hn
  cases e with
  | acknowledged q ticker m z =>
      refine ⟨q, ticker, m, z, rfl, ?_⟩
      by_cases hup : w.desk.up = true
      · by_cases hlate : w.isLate q = true
        · exact .inl hlate
        · right
          cases m with
          | none =>
              simp only [BarDesk.step, if_pos hup, BarDesk.acknowledged,
                (h.find_withdrawn_eq_none hlate).1] at hn
              exact absurd hn (by simp [cancelled])
          | some m =>
              have hspared := he hup hlate (by simp)
              obtain ⟨-, -, hsent⟩ := kept_acknowledged h hlate ticker m z hspared
              simp only [BarDesk.step, if_pos hup] at hn
              rw [hsent, if_pos hup, List.mem_flatMap] at hn
              obtain ⟨entry, hentry, hgives⟩ := hn
              obtain ⟨r, hr, hfind⟩ := Option.bind_eq_some_iff.1 (Option.mem_toList.1 hentry)
              have hfound := List.find?_some hfind
              exact ⟨r, hr, m, rfl, entry, List.mem_of_find?_eq_some hfind,
                of_decide_eq_true hfound, hgives⟩
      · simp only [BarDesk.step, if_neg hup] at hn
        exact absurd hn (by simp [cancelled])
  | subscribe r bars =>
      simp only [BarDesk.step, BarDesk.subscribeRealTimeBar] at hn
      split at hn
      · exact absurd hn (by simp [cancelled])
      · rw [BarDesk.cancelled_subscribe] at hn
        exact absurd hn (by simp)
  | keepUpToDate r bars =>
      simp only [BarDesk.step, BarDesk.startHistoricalRequest] at hn
      split at hn
      · rw [BarDesk.cancelled_subscribe] at hn
        exact absurd hn (by simp)
      · exact absurd hn (by simp [cancelled])
  | history | disconnect => exact absurd hn (by simp [BarDesk.step, cancelled])
  | frame body =>
      simp only [BarDesk.step] at hn
      split at hn <;> exact absurd hn (by simp [cancelled])
  | reconnect =>
      simp only [BarDesk.step, BarDesk.reconnect, BarDesk.cancelled_resubscribe] at hn
      exact absurd hn (by simp [cancelled])
  | failed r =>
      simp only [BarDesk.step, BarDesk.failBars] at hn
      rw [cancelled_endKeeping] at hn
      · exact absurd hn (by simp)
      · simpa [BarWorld.withdraws] using hw
  | cancelRealTimeBar r =>
      have hkeeps : w.desk.keepUpToDateReqs.contains r = true := by
        simpa [BarWorld.withdraws] using hw
      simp only [BarDesk.step, BarDesk.cancelRealTimeBar, if_pos hkeeps] at hn
      exact absurd hn (by simp [cancelled])
  | cancelHistorical r =>
      have hnot : ¬w.desk.keepUpToDateReqs.contains r = true := by
        simpa [BarWorld.withdraws] using hw
      simp only [BarDesk.step, BarDesk.cancelHistorical, endKeeping_of_not hnot,
        List.nil_append, (cancelBatch_alike w.desk r).2] at hn
      exact absurd hn (by simp)
  | refused q =>
      simp only [BarDesk.step] at hn
      split at hn
      · next hup =>
        unfold BarDesk.queryError at hn
        split at hn
        · next _ r hpending =>
          rw [cancelled_endKeeping] at hn
          · exact absurd hn (by simp)
          · exact unkept_of_refused hup hpending hw
        · split at hn <;> exact absurd hn (by simp [cancelled])
      · exact absurd hn (by simp [cancelled])

/-- **Every step of a run spoken of is right.** -/
theorem right {e : BarEvent} (he : w.Spared e) : w.Right decode e where
  oneRoute := oneRoute_of_routed (h.step decode he).stands.routes
  delivers := h.delivers decode e
  withdraws := h.withdraws decode e
  cancelsLate := h.cancelsLate decode e
  spares := h.spares decode he

end Kept

lemma Kept.initial : Kept ({} : BarWorld Bar) := by
  refine ⟨⟨⟨?_, ?_, ?_, ?_, ?_, ?_, ?_, ?_, ?_⟩, ?_, ?_, ?_⟩, rfl⟩ <;> simp

end BarWorld

open BarWorld in
/-- **Five-second bar streams reach the requests that read them.**  Along every run in which the same
bars are read under one number while they are read, no other request or drop takes a stream under a
number that another holds, the venue refuses a kept request's stream whole, and the `u32` that
numbers queries is not used up, each record is handed once to each request that reads its number, in
the units of its stream, and to nobody else; each request reads one route at most; the last reader
of a stream that leaves has its number cancelled once, and no other has; and a stream withdrawn
before it was numbered is cancelled by number once it is, unless the same bars are asked for. -/
theorem bar_streams_reach {Bar : Type} (decode : Bytes → F64 → F64 → ℕ → Option Bar)
    (es : List BarEvent) (hrun : Runs.Along (BarWorld.step decode) Spared ({} : BarWorld Bar) es) :
    Runs.Along (BarWorld.step decode) (Right decode) ({} : BarWorld Bar) es :=
  hrun.mono (fun _ _ h he => h.step decode he) (fun _ _ h he => h.right decode he) Kept.initial

namespace BarWorld

variable {Bar : Type}

instance (w : BarWorld Bar) (asked : RtBarRequest) (ticker : ℕ) : Decidable (w.Steady asked ticker) :=
  inferInstanceAs (Decidable (_ ∧ _))

instance (w : BarWorld Bar) : DecidablePred w.Spared
  | .subscribe .. => inferInstanceAs (Decidable (_ ∧ _))
  | .keepUpToDate .. => inferInstanceAs (Decidable (_ ∧ _))
  | .acknowledged q ticker minTick _ =>
      inferInstanceAs (Decidable (w.desk.up → ¬w.isLate q → minTick ≠ none →
        ∀ r ∈ w.named q, ∃ e ∈ w.board, e.reqId = r ∧ w.Steady e.request ticker))
  | .refused q => inferInstanceAs (Decidable (∀ r ∈ w.turnsAway (.refused q), _ = 1))
  | .disconnect => inferInstanceAs (Decidable (∀ r ∈ w.desk.leftToAskAgain, ∀ e ∈ w.board, _))
  | .history .. => isTrue trivial
  | .failed _ => isTrue trivial
  | .cancelRealTimeBar _ => isTrue trivial
  | .cancelHistorical _ => isTrue trivial
  | .frame _ => isTrue trivial
  | .reconnect => inferInstanceAs (Decidable (_ < _))

end BarWorld

def unitsOf (_ : Bytes) (m z : F64) (_ : ℕ) : Option (F64 × F64) := some (m, z)

def tradesOf (conId : ℤ) : Bars := ⟨conId, "STK", "SMART", "TRADES", true⟩

/-- A frame of one record, of a stream with a small number. -/
def frameOf (ticker : UInt8) : Bytes := [0, 0, 0, 0, 0, ticker, 0, 0, 0, 1, 0]

open BarWorld in
/-- Two requests of one stream, one of them kept up to date, whose number is given to a third; each
leaves. -/
theorem bar_streams_reach_three :
    Runs.Along (BarWorld.step unitsOf) (Right unitsOf) ({} : BarWorld (F64 × F64))
      [.subscribe 1 (tradesOf 1), .acknowledged (.rt 1000) 7 (some 5) 1,
        .keepUpToDate 2 (tradesOf 1), .history [(.hist 1005, 2)] [] [] [],
        .acknowledged (.hist 1005) 7 (some 5) 1, .frame (frameOf 7), .subscribe 4 (tradesOf 2), .acknowledged (.rt 1002) 7 (some 9) 1, .frame (frameOf 7),
        .cancelHistorical 2, .cancelRealTimeBar 1, .disconnect, .reconnect] :=
  bar_streams_reach unitsOf _ (by decide)

open BarWorld in
/-- A request whose number was given to another contract's bars hears nothing of its own contract's,
read by another request under another number. -/
theorem bar_stream_unheard :
    ¬Runs.Along (BarWorld.step unitsOf)
      (fun w e => ∀ body, e = .frame body → w.desk.up → ∀ asked ∈ w.desk.rtbarResub,
        ∀ other ∈ w.desk.rtbarResub, asked.bars = other.bars →
          other.reqId ∈ ((w.desk.step unitsOf e).1.2.flatten.map fun move => (reach move).1) →
            asked.reqId ∈ ((w.desk.step unitsOf e).1.2.flatten.map fun move => (reach move).1))
      ({} : BarWorld (F64 × F64))
      [.subscribe 1 (tradesOf 1), .subscribe 2 (tradesOf 2), .subscribe 3 (tradesOf 1),
        .acknowledged (.rt 1000) 7 (some 5) 1, .acknowledged (.rt 1001) 7 (some 5) 1,
        .acknowledged (.rt 1002) 9 (some 5) 1, .frame (frameOf 9)] := by
  intro hrun
  obtain ⟨-, -, -, -, -, -, hframe, -⟩ := hrun
  have hheard := hframe (frameOf 9) rfl (by decide) ⟨1, tradesOf 1⟩ (by decide)
    ⟨3, tradesOf 1⟩ (by decide) rfl (by decide)
  exact absurd hheard (by decide)

end IbkrDx

