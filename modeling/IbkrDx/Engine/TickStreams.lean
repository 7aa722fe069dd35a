import IbkrDx.Lib.Removal
import IbkrDx.Engine.TickDesk

/-!
# Tick-by-tick streams: what every step keeps

* **`tick_streams_shared`** — along every run.
-/

namespace IbkrDx

namespace TickWorld

variable {Pos Rec Said Out : Type}

/-- The subscriptions, the queries and the streams agree. -/
structure Sound (w : TickWorld Pos) : Prop where
  ids : (w.desk.subscriptions.map (·.queryId)).Nodup
  fresh : ∀ sub ∈ w.desk.subscriptions, sub.queryId < w.desk.nextTbtReqId
  unused : ∀ q, w.desk.nextTbtReqId ≤ q → w.venue.asked q = none ∧ w.venue.answers q = none ∧
    w.desk.withdrawnUnnumbered q = none
  numbers : (w.venue.streams.map (·.venueId)).Nodup
  keys : (w.venue.streams.map (·.key)).Nodup
  nonzero : ∀ st ∈ w.venue.streams, st.venueId ≠ 0
  ledger : (w.venue.closed ++ w.venue.streams.map (·.opened)).Perm (List.range w.venue.opened)
  /-- A query is taken up before it is answered. -/
  apart : ∀ q, w.venue.asked q ≠ none → w.venue.answers q = none
  answered : ∀ q a, w.venue.answers q = some a → a.venueId ≠ 0 ∧ a.opened < w.venue.opened ∧
    w.venue.served q = some a.opened ∧
    ∀ st ∈ w.venue.streams, st.opened = a.opened → st.venueId = a.venueId ∧ st.key = a.key
  numbered : ∀ sub ∈ w.desk.subscriptions, sub.venueId ≠ 0 → 0 < sub.minTick ∧
    ∃ st ∈ w.venue.streams, st.venueId = sub.venueId ∧ st.key = sub.key ∧
      st.stands = sub.running ∧ w.venue.served sub.queryId = some st.opened
  awaiting : ∀ sub ∈ w.desk.subscriptions, sub.venueId = 0 →
    w.venue.asked sub.queryId = some sub.key ∨
      ∃ a, w.venue.answers sub.queryId = some a ∧
        ∃ st ∈ w.venue.streams, st.opened = a.opened ∧ st.key = sub.key
  /-- An unanswered query is a subscription's, or one that was withdrawn. -/
  waits : ∀ q, w.venue.asked q ≠ none ∨ w.venue.answers q ≠ none →
    (∃ sub ∈ w.desk.subscriptions, sub.queryId = q ∧ sub.venueId = 0) ∨
      w.desk.withdrawnUnnumbered q ≠ none
  live : ∀ sub ∈ w.desk.subscriptions, w.desk.withdrawnUnnumbered sub.queryId = none
  late : ∀ q key, w.desk.withdrawnUnnumbered q = some key →
    (∀ k, w.venue.asked q = some k → k = key) ∧ ∀ a, w.venue.answers q = some a → a.key = key

namespace Sound

variable {w : TickWorld Pos} (h : w.Sound)
include h

variable {sub : TbtSubscription Pos}

lemma eq_of_queryId {sub' : TbtSubscription Pos} (hsub : sub ∈ w.desk.subscriptions)
    (hsub' : sub' ∈ w.desk.subscriptions) (heq : sub.queryId = sub'.queryId) : sub = sub' :=
  List.inj_on_of_nodup_map h.ids hsub hsub' heq

variable {st : TickStream Pos}

lemma eq_of_venueId {st' : TickStream Pos} (hst : st ∈ w.venue.streams)
    (hst' : st' ∈ w.venue.streams) (heq : st.venueId = st'.venueId) : st = st' :=
  List.inj_on_of_nodup_map h.numbers hst hst' heq

lemma eq_of_key {st' : TickStream Pos} (hst : st ∈ w.venue.streams)
    (hst' : st' ∈ w.venue.streams) (heq : st.key = st'.key) : st = st' :=
  List.inj_on_of_nodup_map h.keys hst hst' heq

lemma eq_of_opened {st' : TickStream Pos} (hst : st ∈ w.venue.streams)
    (hst' : st' ∈ w.venue.streams) (heq : st.opened = st'.opened) : st = st' := by
  have hnodup := h.ledger.nodup_iff.mpr List.nodup_range
  exact List.inj_on_of_nodup_map (List.nodup_append.mp hnodup).2.1 hst hst' heq

lemma opened_lt (hst : st ∈ w.venue.streams) :
    st.opened < w.venue.opened := by
  have hmem : st.opened ∈ w.venue.closed ++ w.venue.streams.map (·.opened) :=
    List.mem_append_right _ (List.mem_map_of_mem hst)
  exact List.mem_range.mp (h.ledger.mem_iff.mp hmem)

/-- A numbered subscription's query is over. -/
lemma idle (hsub : sub ∈ w.desk.subscriptions)
    (hnum : sub.venueId ≠ 0) :
    w.venue.asked sub.queryId = none ∧ w.venue.answers sub.queryId = none := by
  by_contra hno
  rw [not_and_or] at hno
  rcases h.waits _ hno with ⟨other, hother, hid, hzero⟩ | hlate
  · exact hnum (h.eq_of_queryId hother hsub hid ▸ hzero)
  · exact hlate (h.live sub hsub)

/-- A query was asked, and answered, for its subscription's key. -/
lemma sees (hsub : sub ∈ w.desk.subscriptions) :
    (∀ k, w.venue.asked sub.queryId = some k → k = sub.key) ∧
      ∀ a, w.venue.answers sub.queryId = some a → a.key = sub.key := by
  by_cases hnum : sub.venueId = 0
  · rcases h.awaiting sub hsub hnum with hasked | ⟨a, ha, st, hst, hopened, hkey⟩
    · have hno := h.apart _ (by rw [hasked]; exact nofun)
      rw [hasked, hno]
      exact ⟨fun k hk => (Option.some.inj hk).symm, nofun⟩
    · have hno : w.venue.asked sub.queryId = none := by
        by_contra hasked
        rw [h.apart _ hasked] at ha
        cases ha
      rw [hno, ha]
      refine ⟨nofun, fun a' ha' => ?_⟩
      rw [← Option.some.inj ha', ← hkey]
      exact ((h.answered _ a ha).2.2.2 st hst hopened).2.symm
  · obtain ⟨hasked, hanswers⟩ := h.idle hsub hnum
    rw [hasked, hanswers]
    exact ⟨nofun, nofun⟩

lemma keeps_of_key (hsub : sub ∈ w.desk.subscriptions)
    (hst : st ∈ w.venue.streams) (hkey : sub.key = st.key) :
    w.Keeps st (fun _ => False) := by
  by_cases hnum : sub.venueId = 0
  · rcases h.awaiting sub hsub hnum with hasked | ⟨a, ha, st', hst', hopened, hkey'⟩
    · exact .inr (.inl ⟨sub.queryId, id, hkey ▸ hasked⟩)
    · have hsame := h.eq_of_key hst' hst (hkey'.trans hkey)
      exact .inr (.inr ⟨sub.queryId, a, id, ha, by rw [← hopened, hsame]⟩)
  · obtain ⟨-, st', hst', hvenue, hkey', -⟩ := h.numbered sub hsub hnum
    have hsame := h.eq_of_key hst' hst (hkey'.trans hkey)
    exact .inl ⟨sub, hsub, by rw [← hvenue, hsame]⟩

end Sound

lemma tbtWireKind_injective : Function.Injective tbtWireKind := by
  intro k k' heq
  cases k <;> cases k' <;> first | rfl | exact absurd heq (by decide)

lemma stillRead_eq_true {subs : List (TbtSubscription Pos)} {venueId : ℕ} {key : TickKey} :
    TickDesk.stillRead subs venueId key = true
      ↔ ∃ sub ∈ subs, sub.venueId = venueId ∨ sub.key = key := by
  simp only [TickDesk.stillRead, List.any_eq_true, decide_eq_true_eq, TbtSubscription.key]
  refine exists_congr fun sub => and_congr_right fun _ => or_congr_right ?_
  rw [tbtWireKind_injective.eq_iff, TickKey.mk.injEq]

/-- What keeps a stream goes over, each way of keeping it by itself. -/
lemma Keeps.mono {w w' : TickWorld Pos} {st : TickStream Pos} {but but' : ℕ → Prop}
    (h : w.Keeps st but)
    (hsubs : ∀ sub ∈ w.desk.subscriptions, sub.venueId = st.venueId →
      ∃ sub' ∈ w'.desk.subscriptions, sub'.venueId = st.venueId)
    (hasked : ∀ q, ¬ but q → w.venue.asked q = some st.key → w'.Keeps st but')
    (hanswers : ∀ q a, ¬ but q → w.venue.answers q = some a → a.opened = st.opened →
      w'.Keeps st but') : w'.Keeps st but' := by
  rcases h with ⟨sub, hsub, hnum⟩ | ⟨q, hq, hk⟩ | ⟨q, a, hq, ha, hopened⟩
  · exact .inl (hsubs sub hsub hnum)
  · exact hasked q hq hk
  · exact hanswers q a hq ha hopened

/-! ## A caller subscribes -/

section

variable [Inhabited Pos] {w : TickWorld Pos}

lemma Sound.subscribe (h : w.Sound) (callerReqId : ℤ) (key : TickKey) (minTick : ℤ) :
    (w.subscribe callerReqId key minTick).Sound := by
  obtain ⟨hasked, hanswers, hlate⟩ := h.unused _ le_rfl
  have hne {sub : TbtSubscription Pos} (hsub : sub ∈ w.desk.subscriptions) :
      sub.queryId ≠ w.desk.nextTbtReqId := (h.fresh sub hsub).ne
  simp only [TickWorld.subscribe, TickDesk.sendTbtSubscribe]
  constructor <;> dsimp only
  case ids =>
    rw [List.map_append, List.map_singleton, List.nodup_append]
    refine ⟨h.ids, List.nodup_singleton _, fun q hq q' hq' => ?_⟩
    rw [List.mem_singleton] at hq'
    obtain ⟨sub, hsub, rfl⟩ := List.mem_map.mp hq
    exact hq' ▸ hne hsub
  case fresh =>
    simp only [List.forall_mem_append, List.forall_mem_singleton]
    exact ⟨fun sub hsub => (h.fresh sub hsub).trans (Nat.lt_succ_self _), Nat.lt_succ_self _⟩
  case unused =>
    intro q hlt
    obtain ⟨ha, hb, hc⟩ := h.unused q (Nat.le_of_succ_le hlt)
    exact ⟨by rw [Function.update_of_ne (Nat.ne_of_gt hlt), ha], hb, hc⟩
  case apart =>
    intro q hq
    by_cases hnew : q = w.desk.nextTbtReqId
    · exact hnew ▸ hanswers
    · rw [Function.update_of_ne hnew] at hq
      exact h.apart q hq
  case numbered =>
    simp only [List.forall_mem_append, List.forall_mem_singleton]
    exact ⟨h.numbered, fun hnum => absurd rfl hnum⟩
  case awaiting =>
    simp only [List.forall_mem_append, List.forall_mem_singleton]
    refine ⟨fun sub hsub hzero => ?_, fun _ => .inl (by rw [Function.update_self]; rfl)⟩
    rw [Function.update_of_ne (hne hsub)]
    exact h.awaiting sub hsub hzero
  case waits =>
    intro q hq
    by_cases hnew : q = w.desk.nextTbtReqId
    · exact .inl ⟨_, List.mem_append_right _ (List.mem_singleton_self _), hnew.symm, rfl⟩
    · rw [Function.update_of_ne hnew] at hq
      rcases h.waits q hq with ⟨sub, hsub, hid⟩ | hwithdrawn
      · exact .inl ⟨sub, List.mem_append_left _ hsub, hid⟩
      · exact .inr hwithdrawn
  case live =>
    simp only [List.forall_mem_append, List.forall_mem_singleton]
    exact ⟨h.live, hlate⟩
  case late =>
    intro q k hk
    have hnew : q ≠ w.desk.nextTbtReqId := by
      rintro rfl
      rw [hlate] at hk
      cases hk
    obtain ⟨ha, hb⟩ := h.late q k hk
    exact ⟨fun k' hk' => ha k' (by rwa [Function.update_of_ne hnew] at hk'), hb⟩
  case numbers => exact h.numbers
  case keys => exact h.keys
  case nonzero => exact h.nonzero
  case ledger => exact h.ledger
  case answered => exact h.answered

variable {st : TickStream Pos}

lemma keeps_subscribe (h : w.Sound) (hst : w.Keeps st fun _ => False)
    (callerReqId : ℤ) (key : TickKey) (minTick : ℤ) :
    (w.subscribe callerReqId key minTick).Keeps st fun _ => False := by
  refine hst.mono (fun sub hsub hnum => ⟨sub, List.mem_append_left _ hsub, hnum⟩)
    (fun q _ hq => .inr (.inl ⟨q, id, ?_⟩)) fun q a _ ha hopened => .inr (.inr ⟨q, a, id, ha, hopened⟩)
  have hnew : q ≠ w.desk.nextTbtReqId := by
    rintro rfl
    rw [(h.unused _ le_rfl).1] at hq
    cases hq
  exact (Function.update_of_ne hnew _ _).trans hq

/-! ## The venue takes up a query -/

variable {key : TickKey}

omit [Inhabited Pos] in
lemma Sound.outstanding (h : w.Sound) {queryId : ℕ} (hasked : w.venue.asked queryId = some key) :
    queryId < w.desk.nextTbtReqId ∧ w.venue.answers queryId = none := by
  refine ⟨?_, h.apart queryId (by rw [hasked]; exact nofun)⟩
  by_contra hle
  rw [(h.unused queryId (not_lt.mp hle)).1] at hasked
  cases hasked

omit [Inhabited Pos] in
lemma Sound.answeredOnce (h : w.Sound) {queryId : ℕ} {a : TickAnswer}
    (ha : w.venue.answers queryId = some a) : w.venue.asked queryId = none := by
  by_contra hasked
  rw [h.apart _ hasked] at ha
  cases ha

omit [Inhabited Pos] in
lemma Sound.answer (h : w.Sound) {queryId : ℕ}
    (hasked : w.venue.asked queryId = some key)
    (hst : st ∈ w.venue.streams) (hkey : st.key = key) :
    ({ w with venue := w.venue.answer queryId ⟨key, st.venueId, st.opened⟩ } :
      TickWorld Pos).Sound := by
  obtain ⟨hused, hno⟩ := h.outstanding hasked
  constructor <;> dsimp only [TickVenue.answer]
  case ids => exact h.ids
  case fresh => exact h.fresh
  case unused =>
    intro q hq
    obtain ⟨ha, hb, hc⟩ := h.unused q hq
    have hne : q ≠ queryId := (hused.trans_le hq).ne'
    exact ⟨by rw [Function.update_of_ne hne, ha], by rw [Function.update_of_ne hne, hb], hc⟩
  case numbers => exact h.numbers
  case keys => exact h.keys
  case nonzero => exact h.nonzero
  case ledger => exact h.ledger
  case apart =>
    intro q hq
    by_cases hne : q = queryId
    · rw [hne, Function.update_self] at hq
      exact absurd rfl hq
    · rw [Function.update_of_ne hne] at hq ⊢
      exact h.apart q hq
  case answered =>
    intro q a ha
    by_cases hne : q = queryId
    · subst hne
      rw [Function.update_self, Option.some_inj] at ha
      subst ha
      refine ⟨h.nonzero st hst, h.opened_lt hst, Function.update_self .., fun st' hst' hopened => ?_⟩
      rw [h.eq_of_opened hst' hst hopened]
      exact ⟨rfl, hkey⟩
    · rw [Function.update_of_ne hne] at ha ⊢
      exact h.answered q a ha
  case numbered =>
    intro sub hsub hnum
    have hne : sub.queryId ≠ queryId := by
      intro heq
      rw [← heq, (h.idle hsub hnum).1] at hasked
      cases hasked
    rw [Function.update_of_ne hne]
    exact h.numbered sub hsub hnum
  case awaiting =>
    intro sub hsub hzero
    by_cases hne : sub.queryId = queryId
    · refine .inr ⟨_, by rw [hne, Function.update_self], st, hst, rfl, ?_⟩
      rcases h.awaiting sub hsub hzero with hk | ⟨a, ha, -⟩
      · rw [hne, hasked, Option.some_inj] at hk
        exact hkey.trans hk
      · rw [hne, hno] at ha
        cases ha
    · rw [Function.update_of_ne hne, Function.update_of_ne hne]
      exact h.awaiting sub hsub hzero
  case waits =>
    intro q hq
    refine h.waits q ?_
    by_cases hne : q = queryId
    · rw [hne, hasked]
      exact .inl nofun
    · rwa [Function.update_of_ne hne, Function.update_of_ne hne] at hq
  case live => exact h.live
  case late =>
    intro q k hk
    obtain ⟨ha, hb⟩ := h.late q k hk
    by_cases hne : q = queryId
    · subst hne
      refine ⟨fun k' hk' => ?_, fun a hq => ?_⟩
      · rw [Function.update_self] at hk'
        cases hk'
      · rw [Function.update_self, Option.some_inj] at hq
        exact hq ▸ ha key hasked
    · rw [Function.update_of_ne hne, Function.update_of_ne hne]
      exact ⟨ha, hb⟩

lemma Sound.openStream (h : w.Sound) {venueId : ℕ} (hmay : w.venue.MayServe key venueId)
    (hnew : ∀ st ∈ w.venue.streams, st.key ≠ key) :
    ({ w with venue := w.venue.openStream key venueId } : TickWorld Pos).Sound := by
  have hkeep {P : TickStream Pos → Prop} (hex : ∃ st ∈ w.venue.streams, P st) :
      ∃ st ∈ (⟨venueId, key, default, w.venue.opened⟩ : TickStream Pos) :: w.venue.streams, P st :=
    hex.imp fun st hst => ⟨List.mem_cons_of_mem _ hst.1, hst.2⟩
  constructor <;> dsimp only [TickVenue.openStream]
  case ids => exact h.ids
  case fresh => exact h.fresh
  case unused => exact h.unused
  case numbers =>
    rw [List.map_cons, List.nodup_cons]
    refine ⟨fun hin => ?_, h.numbers⟩
    obtain ⟨st, hst, hnum⟩ := List.mem_map.mp hin
    exact hnew st hst ((hmay.2 st hst).mp hnum)
  case keys =>
    rw [List.map_cons, List.nodup_cons]
    refine ⟨fun hin => ?_, h.keys⟩
    obtain ⟨st, hst, hkey⟩ := List.mem_map.mp hin
    exact hnew st hst hkey
  case nonzero => exact List.forall_mem_cons.mpr ⟨hmay.1, h.nonzero⟩
  case ledger =>
    rw [List.map_cons, List.range_succ]
    exact List.perm_middle.trans ((h.ledger.cons _).trans (List.perm_append_singleton _ _).symm)
  case apart => exact h.apart
  case answered =>
    intro q a ha
    obtain ⟨hnum, hlt, hserved, hst⟩ := h.answered q a ha
    refine ⟨hnum, hlt.trans (Nat.lt_succ_self _), hserved, List.forall_mem_cons.mpr ⟨?_, hst⟩⟩
    exact fun heq => absurd heq hlt.ne'
  case numbered =>
    intro sub hsub hnum
    exact (h.numbered sub hsub hnum).imp_right hkeep
  case awaiting =>
    intro sub hsub hzero
    exact (h.awaiting sub hsub hzero).imp_right fun ⟨a, ha, hst⟩ => ⟨a, ha, hkeep hst⟩
  case waits => exact h.waits
  case live => exact h.live
  case late => exact h.late

lemma Sound.serve (h : w.Sound) (queryId venueId : ℕ) :
    ({ w with venue := w.venue.serve queryId venueId } : TickWorld Pos).Sound := by
  unfold TickVenue.serve
  cases hasked : w.venue.asked queryId with
  | none => exact h
  | some key =>
    dsimp only
    split_ifs with hmay
    · cases hfind : w.venue.streams.find? (·.key = key) with
      | some st =>
        have hst := List.mem_of_find?_eq_some hfind
        have hkey : st.key = key := by simpa using List.find?_some hfind
        have hanswer := h.answer hasked hst hkey
        rwa [(hmay.2 st hst).mpr hkey] at hanswer
      | none =>
        have hnew : ∀ st ∈ w.venue.streams, st.key ≠ key := by
          simpa using List.find?_eq_none.mp hfind
        have hin : (⟨venueId, key, default, w.venue.opened⟩ : TickStream Pos)
            ∈ (w.venue.openStream key venueId).streams := List.mem_cons_self
        exact (h.openStream hmay hnew).answer hasked hin rfl
    · exact h

omit [Inhabited Pos] in
lemma keeps_answer (h : w.Sound) {queryId : ℕ}
    (hasked : w.venue.asked queryId = some key)
    (hst : st ∈ w.venue.streams) (hkey : st.key = key) {st' : TickStream Pos}
    (hst' : st' ∈ w.venue.streams) (hkeeps : w.Keeps st' fun _ => False) :
    ({ w with venue := w.venue.answer queryId ⟨key, st.venueId, st.opened⟩ } :
      TickWorld Pos).Keeps st' fun _ => False := by
  have hno : w.venue.answers queryId = none := h.apart queryId (by rw [hasked]; exact nofun)
  refine hkeeps.mono (fun sub hsub hnum => ⟨sub, hsub, hnum⟩) (fun q _ hq => ?_)
    fun q a _ ha hopened => ?_
  · by_cases hne : q = queryId
    · rw [hne, hasked, Option.some_inj] at hq
      refine .inr (.inr ⟨queryId, ⟨key, st.venueId, st.opened⟩, id, Function.update_self .., ?_⟩)
      rw [h.eq_of_key hst hst' (hkey.trans hq)]
    · exact .inr (.inl ⟨q, id, (Function.update_of_ne hne _ _).trans hq⟩)
  · have hne : q ≠ queryId := by
      rintro rfl
      rw [hno] at ha
      cases ha
    exact .inr (.inr ⟨q, a, id, (Function.update_of_ne hne _ _).trans ha, hopened⟩)

lemma keeps_serve (h : w.Sound) (hkept : ∀ st ∈ w.venue.streams, w.Keeps st fun _ => False)
    (queryId venueId : ℕ) : ∀ st ∈ (w.venue.serve queryId venueId).streams,
      ({ w with venue := w.venue.serve queryId venueId } : TickWorld Pos).Keeps st
        fun _ => False := by
  unfold TickVenue.serve
  cases hasked : w.venue.asked queryId with
  | none => exact hkept
  | some key =>
    dsimp only
    split_ifs with hmay
    · cases hfind : w.venue.streams.find? (·.key = key) with
      | some st =>
        have hst := List.mem_of_find?_eq_some hfind
        have hkey : st.key = key := by simpa using List.find?_some hfind
        intro st' hst'
        have hkeeps := keeps_answer h hasked hst hkey hst' (hkept st' hst')
        rwa [(hmay.2 st hst).mpr hkey] at hkeeps
      | none =>
        have hnew : ∀ st ∈ w.venue.streams, st.key ≠ key := by
          simpa using List.find?_eq_none.mp hfind
        have hopen := h.openStream hmay hnew
        have hin : (⟨venueId, key, default, w.venue.opened⟩ : TickStream Pos)
            ∈ (w.venue.openStream key venueId).streams := List.mem_cons_self
        intro st' hst'
        refine keeps_answer hopen hasked hin rfl hst' ?_
        rcases List.mem_cons.mp hst' with rfl | hold
        · exact .inr (.inl ⟨queryId, id, hasked⟩)
        · exact hkept st' hold
    · exact hkept

end

/-! ## A subscription goes -/

section

variable {w : TickWorld Pos}

lemma Sound.mem_eraseP (h : w.Sound) {p : TbtSubscription Pos → Bool} {gone : TbtSubscription Pos}
    (hfind : w.desk.subscriptions.find? p = some gone) (sub : TbtSubscription Pos) :
    sub ∈ w.desk.subscriptions.eraseP p
      ↔ sub ∈ w.desk.subscriptions ∧ sub.queryId ≠ gone.queryId := by
  have hperm := Removal.perm_eraseP hfind
  have hids := (hperm.map (·.queryId)).nodup_iff.mp h.ids
  rw [List.map_cons, List.nodup_cons] at hids
  rw [hperm.mem_iff, List.mem_cons]
  constructor
  · intro hsub
    exact ⟨.inr hsub, fun heq => hids.1 (heq ▸ List.mem_map_of_mem hsub)⟩
  · rintro ⟨rfl | hsub, hne⟩
    · exact absurd rfl hne
    · exact hsub

/-- A subscription goes, and its query with it or left to be answered late. -/
lemma Sound.without (h : w.Sound) (gone : ℕ) (asked late : ℕ → Option TickKey)
    {subs : List (TbtSubscription Pos)} (hsublist : subs.Sublist w.desk.subscriptions)
    (hmem : ∀ sub, sub ∈ subs ↔ sub ∈ w.desk.subscriptions ∧ sub.queryId ≠ gone)
    (hused : gone < w.desk.nextTbtReqId)
    (hasked : ∀ q ≠ gone, asked q = w.venue.asked q)
    (hgone : ∀ k, asked gone = some k → w.venue.asked gone = some k)
    (hothers : ∀ q ≠ gone, late q = w.desk.withdrawnUnnumbered q)
    (hlate : ∀ k, late gone = some k → (∀ k', w.venue.asked gone = some k' → k' = k) ∧
      ∀ a, w.venue.answers gone = some a → a.key = k)
    (hwaits : asked gone ≠ none ∨ w.venue.answers gone ≠ none → late gone ≠ none) :
    ({ desk := { w.desk with
          subscriptions := subs
          withdrawnUnnumbered := late }
       venue := { w.venue with asked := asked } } : TickWorld Pos).Sound := by
  constructor <;> dsimp only
  case ids => exact h.ids.sublist (hsublist.map _)
  case fresh => exact fun sub hsub => h.fresh sub ((hmem sub).mp hsub).1
  case unused =>
    intro q hq
    have hne : q ≠ gone := (hused.trans_le hq).ne'
    rw [hasked q hne, hothers q hne]
    exact h.unused q hq
  case numbers => exact h.numbers
  case keys => exact h.keys
  case nonzero => exact h.nonzero
  case ledger => exact h.ledger
  case apart =>
    intro q hq
    refine h.apart q ?_
    by_cases hne : q = gone
    · subst hne
      obtain ⟨k, hk⟩ := Option.ne_none_iff_exists'.mp hq
      rw [hgone k hk]
      exact nofun
    · rwa [hasked q hne] at hq
  case answered => exact h.answered
  case numbered => exact fun sub hsub => h.numbered sub ((hmem sub).mp hsub).1
  case awaiting =>
    intro sub hsub hzero
    obtain ⟨hsub, hne⟩ := (hmem sub).mp hsub
    rw [hasked _ hne]
    exact h.awaiting sub hsub hzero
  case waits =>
    intro q hq
    by_cases hne : q = gone
    · subst hne
      exact .inr (hwaits hq)
    · rw [hasked q hne] at hq
      rw [hothers q hne]
      refine (h.waits q hq).imp_left fun ⟨sub, hsub, hid, hzero⟩ => ⟨sub, ?_, hid, hzero⟩
      exact (hmem sub).mpr ⟨hsub, hid ▸ hne⟩
  case live =>
    intro sub hsub
    obtain ⟨hsub, hne⟩ := (hmem sub).mp hsub
    rw [hothers _ hne]
    exact h.live sub hsub
  case late =>
    intro q k hk
    by_cases hne : q = gone
    · subst hne
      obtain ⟨hk', ha⟩ := hlate k hk
      exact ⟨fun k' hk'' => hk' k' (hgone k' hk''), ha⟩
    · rw [hothers q hne] at hk
      rw [hasked q hne]
      exact h.late q k hk

variable {venueId : ℕ}

/-- A stream nobody reads or asks for is closed. -/
lemma Sound.close (h : w.Sound) (hsubs : ∀ sub ∈ w.desk.subscriptions,
      sub.venueId ≠ venueId ∧ ∀ st ∈ w.venue.streams, st.venueId = venueId → sub.key ≠ st.key) :
    ({ w with venue := w.venue.close (some (.rtTicker venueId)) } : TickWorld Pos).Sound := by
  have hsub : (w.venue.streams.filter (·.venueId ≠ venueId)).Sublist w.venue.streams :=
    List.filter_sublist
  constructor <;> dsimp only [TickVenue.close]
  case ids => exact h.ids
  case fresh => exact h.fresh
  case unused => exact h.unused
  case numbers => exact h.numbers.sublist (hsub.map _)
  case keys => exact h.keys.sublist (hsub.map _)
  case nonzero => exact fun st hst => h.nonzero st (hsub.mem hst)
  case ledger =>
    refine List.Perm.trans ?_ h.ledger
    rw [List.append_assoc, ← List.map_append]
    refine List.Perm.append_left _ (List.Perm.map _ ?_)
    simpa using List.filter_append_perm (fun st : TickStream Pos => st.venueId = venueId) _
  case apart => exact h.apart
  case answered =>
    intro q a ha
    obtain ⟨hnum, hlt, hserved, hst⟩ := h.answered q a ha
    exact ⟨hnum, hlt, hserved, fun st hin => hst st (hsub.mem hin)⟩
  case numbered =>
    intro sub hin hnum
    obtain ⟨htick, st, hst, hvenue, hrest⟩ := h.numbered sub hin hnum
    refine ⟨htick, st, ?_, hvenue, hrest⟩
    simpa [hst, hvenue] using (hsubs sub hin).1
  case awaiting =>
    intro sub hin hzero
    refine (h.awaiting sub hin hzero).imp_right fun ⟨a, ha, st, hst, hopened, hkey⟩ =>
      ⟨a, ha, st, ?_, hopened, hkey⟩
    simp only [List.mem_filter, decide_eq_true_eq, hst, true_and]
    exact fun hvenue => (hsubs sub hin).2 st hst hvenue hkey.symm
  case waits => exact h.waits
  case live => exact h.live
  case late => exact h.late

/-! ## A caller withdraws -/

variable {key : TickKey}

lemma not_stillRead {subs : List (TbtSubscription Pos)}
    (hno : ¬ TickDesk.stillRead subs venueId key = true) :
    ∀ sub ∈ subs, sub.venueId ≠ venueId ∧ sub.key ≠ key := by
  intro sub hsub
  rw [stillRead_eq_true] at hno
  refine ⟨fun heq => hno ⟨sub, hsub, .inl heq⟩, fun heq => hno ⟨sub, hsub, .inr heq⟩⟩

/-- What a withdrawal does, by who else reads the stream. -/
lemma unsubscribe_cases (w : TickWorld Pos) (callerReqId : ℤ) (instrument : ℕ) :
    w.unsubscribe callerReqId instrument = w ∨
    ∃ gone subs, w.desk.subscriptions.find? (TickDesk.isCallers callerReqId instrument) = some gone ∧
      subs = w.desk.subscriptions.eraseP (TickDesk.isCallers callerReqId instrument) ∧
      ((gone.venueId ≠ 0 ∧ TickDesk.stillRead subs gone.venueId gone.key = true ∧
          w.unsubscribe callerReqId instrument
            = ⟨{ w.desk with subscriptions := subs }, w.venue⟩) ∨
        (gone.venueId ≠ 0 ∧ ¬ TickDesk.stillRead subs gone.venueId gone.key = true ∧
          w.unsubscribe callerReqId instrument
            = ⟨{ w.desk with
                  subscriptions := subs
                  withdrawn := Function.update w.desk.withdrawn gone.venueId (some gone.kind) },
                w.venue.close (some (.rtTicker gone.venueId))⟩) ∨
        (gone.venueId = 0 ∧
          w.unsubscribe callerReqId instrument
            = ⟨{ w.desk with
                  subscriptions := subs
                  withdrawnUnnumbered :=
                    Function.update w.desk.withdrawnUnnumbered gone.queryId (some gone.key) },
                w.venue⟩)) := by
  cases hfind : w.desk.subscriptions.find? (TickDesk.isCallers callerReqId instrument) with
  | none =>
    refine .inl ?_
    simp only [unsubscribe, TickDesk.sendTbtUnsubscribe, hfind, TickVenue.close]
  | some gone =>
    refine .inr ⟨gone, _, rfl, rfl, ?_⟩
    simp only [unsubscribe, TickDesk.sendTbtUnsubscribe, hfind, TickDesk.withdraw]
    by_cases hnum : gone.venueId = 0
    · refine .inr (.inr ⟨hnum, ?_⟩)
      rw [if_neg (not_not.mpr hnum)]
      rfl
    · rw [if_pos hnum]
      by_cases hread : TickDesk.stillRead (w.desk.subscriptions.eraseP
          (TickDesk.isCallers callerReqId instrument)) gone.venueId gone.key = true
      · refine .inl ⟨hnum, hread, ?_⟩
        rw [if_pos hread]
        rfl
      · refine .inr (.inl ⟨hnum, hread, ?_⟩)
        rw [if_neg hread]

/-- What every step keeps: the world is sound, every stream has somebody on it or a query
unanswered, and no stream was closed that a caller reads or awaits. -/
structure Goes (w w' : TickWorld Pos) : Prop where
  sound : w'.Sound
  kept : ∀ st ∈ w'.venue.streams, w'.Keeps st fun _ => False
  closes : ∀ st ∈ w.venue.streams, (∀ st' ∈ w'.venue.streams, st'.opened ≠ st.opened) →
    ∀ sub ∈ w'.desk.subscriptions, sub.key ≠ st.key

/-- No stream is closed. -/
lemma Goes.of_streams {w w' : TickWorld Pos} (hsound : w'.Sound)
    (hkept : ∀ st ∈ w'.venue.streams, w'.Keeps st fun _ => False)
    (hstreams : ∀ st ∈ w.venue.streams, ∃ st' ∈ w'.venue.streams, st'.opened = st.opened) :
    Goes w w' := by
  refine ⟨hsound, hkept, fun st hst hclosed => ?_⟩
  obtain ⟨st', hst', hsame⟩ := hstreams st hst
  exact absurd hsame (hclosed st' hst')

/-- One stream is closed, which nobody asks for. -/
lemma Goes.of_close {w w' : TickWorld Pos} (hsound : w'.Sound)
    (hkept : ∀ st ∈ w'.venue.streams, w'.Keeps st fun _ => False)
    (hstreams : w'.venue.streams = w.venue.streams.filter (·.venueId ≠ venueId))
    (hsubs : ∀ sub ∈ w'.desk.subscriptions, ∀ st ∈ w.venue.streams, st.venueId = venueId →
      sub.key ≠ st.key) : Goes w w' := by
  refine ⟨hsound, hkept, fun st hst hclosed sub hsub => hsubs sub hsub st hst ?_⟩
  by_contra hne
  refine hclosed st ?_ rfl
  rw [hstreams]
  simpa [hst] using hne

lemma Sound.key_of_venueId (h : w.Sound) {gone : TbtSubscription Pos}
    (hin : gone ∈ w.desk.subscriptions) (hnum : gone.venueId ≠ 0) {st : TickStream Pos}
    (hst : st ∈ w.venue.streams) (hvenue : st.venueId = gone.venueId) : st.key = gone.key := by
  obtain ⟨-, st', hst', hvenue', hkey, -⟩ := h.numbered gone hin hnum
  rw [h.eq_of_venueId hst hst' (hvenue.trans hvenue'.symm), hkey]

lemma goes_unsubscribe (h : w.Sound) (hkept : ∀ st ∈ w.venue.streams, w.Keeps st fun _ => False)
    (callerReqId : ℤ) (instrument : ℕ) : Goes w (w.unsubscribe callerReqId instrument) := by
  rcases w.unsubscribe_cases callerReqId instrument with hsame | ⟨gone, subs, hfind, rfl, hcases⟩
  · rw [hsame]
    exact .of_streams h hkept fun st hst => ⟨st, hst, rfl⟩
  have hin := List.mem_of_find?_eq_some hfind
  have hmem := h.mem_eraseP hfind
  have hlive := h.live gone hin
  -- A subscription that stays is the one that kept a stream, unless that was the one that goes.
  have hstays {st : TickStream Pos} {sub : TbtSubscription Pos} (hsub : sub ∈ w.desk.subscriptions)
      (hnum : sub.venueId = st.venueId) (hne : gone.venueId ≠ st.venueId) :
      sub ∈ w.desk.subscriptions.eraseP (TickDesk.isCallers callerReqId instrument) := by
    refine (hmem sub).mpr ⟨hsub, fun hid => hne ?_⟩
    rw [← h.eq_of_queryId hsub hin hid, hnum]
  rcases hcases with ⟨hnum, hread, heq⟩ | ⟨hnum, hread, heq⟩ | ⟨hzero, heq⟩
  · obtain ⟨hasked, hanswers⟩ := h.idle hin hnum
    have hsound : Sound ⟨{ w.desk with
          subscriptions := w.desk.subscriptions.eraseP (TickDesk.isCallers callerReqId instrument) },
        w.venue⟩ :=
      h.without gone.queryId w.venue.asked w.desk.withdrawnUnnumbered List.eraseP_sublist hmem
        (h.fresh gone hin) (fun _ _ => rfl) (fun _ hk => hk) (fun _ _ => rfl)
        (fun k hk => by rw [hlive] at hk; cases hk)
        (fun hno => absurd hno (by rw [hasked, hanswers]; simp))
    rw [heq]
    refine .of_streams hsound (fun st hst => ?_) fun st hst => ⟨st, hst, rfl⟩
    by_cases hvenue : gone.venueId = st.venueId
    · obtain ⟨sub, hsub, hsame | hkey⟩ := stillRead_eq_true.mp hread
      · exact .inl ⟨sub, hsub, hsame.trans hvenue⟩
      · exact hsound.keeps_of_key hsub hst
          (hkey.trans (h.key_of_venueId hin hnum hst hvenue.symm).symm)
    · exact (hkept st hst).mono (fun sub hsub hsame => ⟨sub, hstays hsub hsame hvenue, hsame⟩)
        (fun q _ hq => .inr (.inl ⟨q, id, hq⟩))
        fun q a _ ha hopened => .inr (.inr ⟨q, a, id, ha, hopened⟩)
  · obtain ⟨hasked, hanswers⟩ := h.idle hin hnum
    have hsound : Sound ⟨{ w.desk with
          subscriptions := w.desk.subscriptions.eraseP (TickDesk.isCallers callerReqId instrument)
          withdrawn := Function.update w.desk.withdrawn gone.venueId (some gone.kind) },
        w.venue⟩ :=
      { h.without gone.queryId w.venue.asked w.desk.withdrawnUnnumbered List.eraseP_sublist hmem
          (h.fresh gone hin) (fun _ _ => rfl) (fun _ hk => hk) (fun _ _ => rfl)
          (fun k hk => by rw [hlive] at hk; cases hk)
          (fun hno => absurd hno (by rw [hasked, hanswers]; simp)) with }
    have hnobody := not_stillRead hread
    have hsubs (sub : TbtSubscription Pos) (hsub : sub ∈ w.desk.subscriptions.eraseP
          (TickDesk.isCallers callerReqId instrument)) (st : TickStream Pos)
        (hst : st ∈ w.venue.streams) (hvenue : st.venueId = gone.venueId) : sub.key ≠ st.key := by
      rw [h.key_of_venueId hin hnum hst hvenue]
      exact (hnobody sub hsub).2
    rw [heq]
    refine .of_close (hsound.close fun sub hsub => ⟨(hnobody sub hsub).1, hsubs sub hsub⟩)
      (fun st hst => ?_) rfl hsubs
    obtain ⟨hst, hne⟩ : st ∈ w.venue.streams ∧ st.venueId ≠ gone.venueId := by
      simpa [TickVenue.close] using hst
    exact (hkept st hst).mono (fun sub hsub hsame => ⟨sub, hstays hsub hsame hne.symm, hsame⟩)
      (fun q _ hq => .inr (.inl ⟨q, id, hq⟩))
      fun q a _ ha hopened => .inr (.inr ⟨q, a, id, ha, hopened⟩)
  · have hsound : Sound ⟨{ w.desk with
          subscriptions := w.desk.subscriptions.eraseP (TickDesk.isCallers callerReqId instrument)
          withdrawnUnnumbered :=
            Function.update w.desk.withdrawnUnnumbered gone.queryId (some gone.key) }, w.venue⟩ :=
      h.without gone.queryId w.venue.asked _ List.eraseP_sublist hmem (h.fresh gone hin)
        (fun _ _ => rfl) (fun _ hk => hk) (fun q hq => Function.update_of_ne hq _ _)
        (fun k hk => by
          rw [Function.update_self, Option.some_inj] at hk
          exact hk ▸ h.sees hin)
        (fun _ => by rw [Function.update_self]; exact nofun)
    rw [heq]
    refine .of_streams hsound (fun st hst => ?_) fun st hst => ⟨st, hst, rfl⟩
    have hne : gone.venueId ≠ st.venueId := hzero ▸ (h.nonzero st hst).symm
    exact (hkept st hst).mono (fun sub hsub hsame => ⟨sub, hstays hsub hsame hne, hsame⟩)
      (fun q _ hq => .inr (.inl ⟨q, id, hq⟩))
      fun q a _ ha hopened => .inr (.inr ⟨q, a, id, ha, hopened⟩)

/-! ## An answer arrives -/

variable {a : TickAnswer} {queryId : ℕ}

lemma Sound.answeredLate (h : w.Sound)
    (ha : w.venue.answers queryId = some a) (hlate : w.desk.withdrawnUnnumbered queryId = some key) :
    ({ desk := { w.desk with
          withdrawnUnnumbered := Function.update w.desk.withdrawnUnnumbered queryId none }
       venue := { w.venue with
          answers := Function.update w.venue.answers queryId none } } : TickWorld Pos).Sound := by
  have hasked := h.answeredOnce ha
  have hne {sub : TbtSubscription Pos} (hsub : sub ∈ w.desk.subscriptions) :
      sub.queryId ≠ queryId := by
    intro heq
    rw [← heq, h.live sub hsub] at hlate
    cases hlate
  constructor <;> dsimp only
  case ids => exact h.ids
  case fresh => exact h.fresh
  case unused =>
    intro q hq
    obtain ⟨ha, hb, hc⟩ := h.unused q hq
    exact ⟨ha, by rw [Function.update_apply, hb, ite_self],
      by rw [Function.update_apply, hc, ite_self]⟩
  case numbers => exact h.numbers
  case keys => exact h.keys
  case nonzero => exact h.nonzero
  case ledger => exact h.ledger
  case apart =>
    intro q hq
    rw [Function.update_apply, h.apart q hq, ite_self]
  case answered =>
    intro q a' ha'
    rw [Function.update_apply] at ha'
    split_ifs at ha'
    exact h.answered q a' ha'
  case numbered => exact h.numbered
  case awaiting =>
    intro sub hsub hzero
    rw [Function.update_of_ne (hne hsub)]
    exact h.awaiting sub hsub hzero
  case waits =>
    intro q hq
    by_cases hqq : q = queryId
    · subst hqq
      rw [Function.update_self, hasked] at hq
      simp at hq
    · rw [Function.update_of_ne hqq] at hq ⊢
      exact h.waits q hq
  case live =>
    intro sub hsub
    rw [Function.update_of_ne (hne hsub)]
    exact h.live sub hsub
  case late =>
    intro q k hk
    rw [Function.update_apply] at hk
    split_ifs at hk with hqq
    rw [Function.update_of_ne hqq]
    exact h.late q k hk

lemma goes_acknowledgedLate (h : w.Sound)
    (hkept : ∀ st ∈ w.venue.streams, w.Keeps st fun _ => False)
    (ha : w.venue.answers queryId = some a)
    (hlate : w.desk.withdrawnUnnumbered queryId = some key)
    (hspared : TickDesk.stillRead w.desk.subscriptions a.venueId key = false →
      ∀ st ∈ w.venue.streams, st.venueId = a.venueId → st.opened ≠ a.opened →
        ∀ sub ∈ w.desk.subscriptions, sub.key ≠ st.key) :
    let acked := TickDesk.acknowledgedLate { w.desk with
      withdrawnUnnumbered := Function.update w.desk.withdrawnUnnumbered queryId none } a.venueId key
    Goes w ⟨acked.2, ({ w.venue with
      answers := Function.update w.venue.answers queryId none } : TickVenue Pos).close acked.1⟩ := by
  intro acked
  have hsound := h.answeredLate ha hlate
  have hkey : a.key = key := (h.late queryId key hlate).2 a ha
  obtain ⟨-, -, -, hserves⟩ := h.answered queryId a ha
  by_cases hread : TickDesk.stillRead w.desk.subscriptions a.venueId key = true
  · have hacked : acked = (none, { w.desk with
        withdrawnUnnumbered := Function.update w.desk.withdrawnUnnumbered queryId none }) :=
      if_pos hread
    rw [hacked]
    refine .of_streams hsound (fun st hst => ?_) fun st hst => ⟨st, hst, rfl⟩
    refine (hkept st hst).mono (fun sub hsub hsame => ⟨sub, hsub, hsame⟩)
      (fun q _ hq => .inr (.inl ⟨q, id, hq⟩)) fun q a' _ ha' hopened => ?_
    by_cases hqq : q = queryId
    · rw [hqq, ha, Option.some_inj] at ha'
      subst ha'
      obtain ⟨hvenue, hst'⟩ := hserves st hst hopened.symm
      obtain ⟨sub, hsub, hsame | hsame⟩ := stillRead_eq_true.mp hread
      · exact .inl ⟨sub, hsub, hsame.trans hvenue.symm⟩
      · exact hsound.keeps_of_key hsub hst (hsame.trans (hst'.trans hkey).symm)
    · exact .inr (.inr ⟨q, a', id, (Function.update_of_ne hqq _ _).trans ha', hopened⟩)
  · have hacked : acked = (some (.rtTicker a.venueId), { w.desk with
        withdrawnUnnumbered := Function.update w.desk.withdrawnUnnumbered queryId none
        withdrawn := Function.update w.desk.withdrawn a.venueId (some key.kind) }) :=
      if_neg hread
    have hnobody := not_stillRead hread
    have hsubs (sub : TbtSubscription Pos) (hsub : sub ∈ w.desk.subscriptions)
        (st : TickStream Pos) (hst : st ∈ w.venue.streams) (hvenue : st.venueId = a.venueId) :
        sub.key ≠ st.key := by
      by_cases hopened : st.opened = a.opened
      · rw [(hserves st hst hopened).2, hkey]
        exact (hnobody sub hsub).2
      · exact hspared (Bool.eq_false_iff.mpr hread) st hst hvenue hopened sub hsub
    have hclosed := hsound.close fun sub hsub => ⟨(hnobody sub hsub).1, hsubs sub hsub⟩
    rw [hacked]
    refine .of_close { hclosed with } (fun st hst => ?_) rfl hsubs
    obtain ⟨hopen, hne⟩ : st ∈ w.venue.streams ∧ st.venueId ≠ a.venueId := by
      simpa [TickVenue.close] using hst
    refine (hkept st hopen).mono (fun sub hsub hsame => ⟨sub, hsub, hsame⟩)
      (fun q _ hq => .inr (.inl ⟨q, id, hq⟩)) fun q a' _ ha' hopened => ?_
    have hqq : q ≠ queryId := by
      rintro rfl
      rw [ha, Option.some_inj] at ha'
      subst ha'
      exact hne (hserves st hopen hopened.symm).1
    exact .inr (.inr ⟨q, a', id, (Function.update_of_ne hqq _ _).trans ha', hopened⟩)

lemma Sound.number [Inhabited Pos] (h : w.Sound)
    (ha : w.venue.answers queryId = some a) (hlive : w.desk.withdrawnUnnumbered queryId = none)
    (hspared : (∃ sub ∈ w.desk.subscriptions, sub.queryId ≠ queryId ∧ sub.venueId = a.venueId) ∨
      ∀ st ∈ w.venue.streams, st.opened = a.opened → st.stands = default)
    {minTick : ℤ} (htick : 0 < minTick) (sizeTick : ℚ) :
    ({ desk := w.desk.number queryId a.venueId minTick sizeTick
       venue := { w.venue with
          answers := Function.update w.venue.answers queryId none } } : TickWorld Pos).Sound := by
  have hasked := h.answeredOnce ha
  obtain ⟨hnum, -, hserved, hserves⟩ := h.answered queryId a ha
  constructor <;> dsimp only [TickDesk.number]
  case ids =>
    rw [List.map_map]
    refine (List.map_congr_left fun sub _ => ?_).symm ▸ h.ids
    simp only [Function.comp_apply]
    split_ifs <;> rfl
  case fresh =>
    simp only [List.forall_mem_map]
    intro sub hsub
    split_ifs <;> exact h.fresh sub hsub
  case unused =>
    intro q hq
    obtain ⟨ha, hb, hc⟩ := h.unused q hq
    exact ⟨ha, by rw [Function.update_apply, hb, ite_self], hc⟩
  case numbers => exact h.numbers
  case keys => exact h.keys
  case nonzero => exact h.nonzero
  case ledger => exact h.ledger
  case apart =>
    intro q hq
    rw [Function.update_apply, h.apart q hq, ite_self]
  case answered =>
    intro q a' ha'
    rw [Function.update_apply] at ha'
    split_ifs at ha'
    exact h.answered q a' ha'
  case numbered =>
    simp only [List.forall_mem_map]
    intro sub hsub hsubnum
    split_ifs at hsubnum ⊢ with hid
    · subst hid
      refine ⟨htick, ?_⟩
      have hzero : sub.venueId = 0 := by
        by_contra hnum
        rw [(h.idle hsub hnum).2] at ha
        cases ha
      rcases h.awaiting sub hsub hzero with hk | ⟨a', ha', st, hst, hopened, hkey⟩
      · rw [hasked] at hk
        cases hk
      rw [ha, Option.some_inj] at ha'
      subst ha'
      obtain ⟨hvenue, -⟩ := hserves st hst hopened
      refine ⟨st, hst, hvenue, hkey, ?_, by rw [hserved, hopened]⟩
      cases hfind : w.desk.subscriptions.find? fun other =>
          other.queryId ≠ sub.queryId ∧ other.venueId = a.venueId with
      | some other =>
        have hother := List.mem_of_find?_eq_some hfind
        have hsame : other.venueId = a.venueId := by
          have := List.find?_some hfind
          simp only [decide_eq_true_eq] at this
          exact this.2
        obtain ⟨-, st', hst', hvenue', -, hstands, -⟩ := h.numbered other hother (hsame ▸ hnum)
        rw [h.eq_of_venueId hst hst' (hvenue.trans (hsame.symm.trans hvenue'.symm)), hstands]
        rfl
      | none =>
        refine (hspared.resolve_left ?_) st hst hopened
        rintro ⟨other, hother, hne, hsame⟩
        have hno := List.find?_eq_none.mp hfind other hother
        simp only [decide_eq_true_eq] at hno
        exact hno ⟨hne, hsame⟩
    · exact h.numbered sub hsub hsubnum
  case awaiting =>
    simp only [List.forall_mem_map]
    intro sub hsub hzero
    split_ifs at hzero ⊢ with hid
    · exact absurd hzero hnum
    · rw [Function.update_of_ne hid]
      exact h.awaiting sub hsub hzero
  case waits =>
    intro q hq
    by_cases hqq : q = queryId
    · subst hqq
      rw [Function.update_self, hasked] at hq
      simp at hq
    · rw [Function.update_of_ne hqq] at hq
      refine (h.waits q hq).imp_left fun ⟨sub, hsub, hid, hzero⟩ =>
        ⟨sub, List.mem_map.mpr ⟨sub, hsub, if_neg (hid ▸ hqq)⟩, hid, hzero⟩
  case live =>
    simp only [List.forall_mem_map]
    intro sub hsub
    split_ifs <;> exact h.live sub hsub
  case late =>
    intro q k hk
    obtain ⟨hq, hq'⟩ := h.late q k hk
    refine ⟨hq, fun a' ha' => hq' a' ?_⟩
    rw [Function.update_apply] at ha'
    split_ifs at ha'
    exact ha'

lemma goes_acknowledge [Inhabited Pos] (h : w.Sound)
    (hkept : ∀ st ∈ w.venue.streams, w.Keeps st fun _ => False) (queryId : ℕ) (minTick : ℤ)
    (sizeTick : ℚ) (hspared : w.Spared (.acknowledge queryId minTick sizeTick : TickEvent Rec)) :
    Goes w (w.acknowledge queryId minTick sizeTick) := by
  have hstays : Goes w w := .of_streams h hkept fun st hst => ⟨st, hst, rfl⟩
  unfold TickWorld.acknowledge
  cases ha : w.venue.answers queryId with
  | none => exact hstays
  | some a =>
    have hspare := hspared a ha
    dsimp only
    split_ifs with htick
    · unfold TickDesk.acknowledged
      cases hlate : w.desk.withdrawnUnnumbered queryId with
      | some key =>
        rw [hlate] at hspare
        exact goes_acknowledgedLate h hkept ha hlate hspare
      | none =>
        rw [hlate] at hspare
        have hsound := h.number ha hlate hspare htick sizeTick
        refine .of_streams hsound (fun st hst => ?_) fun st hst => ⟨st, hst, rfl⟩
        refine (hkept st hst).mono (fun sub hsub hsame => ?_)
          (fun q _ hq => .inr (.inl ⟨q, id, hq⟩)) fun q a' _ ha' hopened => ?_
        · refine ⟨_, List.mem_map_of_mem hsub, ?_⟩
          have hne : sub.queryId ≠ queryId := by
            intro hid
            rw [← hid, (h.idle hsub (hsame ▸ h.nonzero st hst)).2] at ha
            cases ha
          rw [if_neg hne]
          exact hsame
        · by_cases hqq : q = queryId
          · rw [hqq, ha, Option.some_inj] at ha'
            subst ha'
            obtain ⟨-, -, -, hserves⟩ := h.answered queryId a ha
            rcases h.waits queryId (.inr (by rw [ha]; exact nofun)) with ⟨sub, hsub, hid, -⟩ | hno
            · refine .inl ⟨_, List.mem_map_of_mem hsub, ?_⟩
              rw [if_pos hid]
              exact (hserves st hst hopened.symm).1.symm
            · exact absurd hlate hno
          · exact .inr (.inr ⟨q, a', id, (Function.update_of_ne hqq _ _).trans ha', hopened⟩)
    · exact hstays

/-! ## The venue refuses a query -/

lemma Sound.mem_refused (h : w.Sound) (queryId : ℕ) (sub : TbtSubscription Pos) :
    sub ∈ w.desk.subscriptions.eraseP (·.queryId = queryId)
      ↔ sub ∈ w.desk.subscriptions ∧ sub.queryId ≠ queryId := by
  cases hfind : w.desk.subscriptions.find? (·.queryId = queryId) with
  | some gone =>
    have hid : gone.queryId = queryId := by simpa using List.find?_some hfind
    rw [h.mem_eraseP hfind, hid]
  | none =>
    have hno := List.find?_eq_none.mp hfind
    rw [List.eraseP_of_forall_not hno]
    refine (and_iff_left_of_imp fun hsub => ?_).symm
    simpa using hno sub hsub

lemma goes_refuse [Inhabited Pos] (h : w.Sound)
    (hkept : ∀ st ∈ w.venue.streams, w.Keeps st fun _ => False) (queryId : ℕ)
    (hspared : w.Spared (.refuse queryId : TickEvent Rec)) : Goes w (w.refuse queryId) := by
  unfold TickWorld.refuse
  cases hasked : w.venue.asked queryId with
  | none => exact .of_streams h hkept fun st hst => ⟨st, hst, rfl⟩
  | some key =>
    have hmem := h.mem_refused queryId
    obtain ⟨hused, hno⟩ := h.outstanding hasked
    have hsound := h.without queryId (Function.update w.venue.asked queryId none)
      w.desk.withdrawnUnnumbered List.eraseP_sublist hmem hused (fun q hq => Function.update_of_ne hq _ _)
      (fun k hk => by rw [Function.update_self] at hk; cases hk) (fun _ _ => rfl)
      (h.late queryId) (fun hq => by rw [Function.update_self, hno] at hq; simp at hq)
    refine .of_streams hsound (fun st hst => ?_) fun st hst => ⟨st, hst, rfl⟩
    -- What kept the stream is not the query refused.
    have hkeeps : w.Keeps st (· = queryId) := by
      by_cases hkey : key = st.key
      · exact hspared st hst (hkey ▸ hasked)
      · refine (hkept st hst).mono (fun sub hsub hsame => ⟨sub, hsub, hsame⟩)
          (fun q _ hq => .inr (.inl ⟨q, ?_, hq⟩)) fun q a _ ha hopened => .inr (.inr ⟨q, a, ?_, ha, hopened⟩)
        · rintro rfl
          rw [hasked, Option.some_inj] at hq
          exact hkey hq
        · rintro rfl
          rw [hno] at ha
          cases ha
    refine hkeeps.mono (fun sub hsub hsame => ⟨sub, (hmem sub).mpr ⟨hsub, ?_⟩, hsame⟩)
      (fun q hne hq => .inr (.inl ⟨q, id, (Function.update_of_ne hne _ _).trans hq⟩))
      fun q a _ ha hopened => .inr (.inr ⟨q, a, id, ha, hopened⟩)
    intro hid
    rw [← hid, (h.idle hsub (hsame ▸ h.nonzero st hst)).1] at hasked
    cases hasked

/-! ## A record is written -/

section

variable (read : TbtKind → Rec → Pos → Option (Said × Pos)) (worth : Said → ℤ → ℚ → Out)

def toldOf (said : Said) (sub : TbtSubscription Pos) : TickTold Out :=
  ⟨sub.callerReqId, sub.instrument, sub.kind, worth said sub.minTick sub.sizeTick⟩

variable {venueId : ℕ}

variable {said : Said} {rec : Rec} {moved : Pos}

lemma readFor_eq {kind : TbtKind} {stands : Pos}
    (hread : read kind rec stands = some (said, moved)) :
    ∀ {subs : List (TbtSubscription Pos)}, (∀ sub ∈ subs, sub.venueId = venueId →
        sub.kind = kind ∧ sub.running = stands ∧ 0 < sub.minTick) →
      TickDesk.readFor read worth venueId rec subs
        = ((subs.filter (·.venueId = venueId)).map (toldOf worth said),
          subs.map fun sub => if sub.venueId = venueId then { sub with running := moved } else sub)
  | [], _ => rfl
  | sub :: subs, hsubs => by
      obtain ⟨hsub, hrest⟩ := List.forall_mem_cons.mp hsubs
      have ih := readFor_eq hread hrest
      by_cases hnum : sub.venueId = venueId
      · obtain ⟨hkind, hstands, htick⟩ := hsub hnum
        rw [TickDesk.readFor, if_pos hnum, hkind, hstands, hread]
        simp only [ih, TickDesk.tell, if_neg (not_le.mpr htick), hnum, decide_true,
          List.filter_cons_of_pos, List.map_cons, if_true, List.singleton_append, toldOf, hkind]
      · rw [TickDesk.readFor, if_neg hnum]
        simp only [ih, hnum, decide_false, Bool.false_eq_true, not_false_eq_true,
          List.filter_cons_of_neg, List.map_cons, if_false]

variable {st : TickStream Pos}

lemma Sound.on_iff (h : w.Sound) (hst : st ∈ w.venue.streams)
    {sub : TbtSubscription Pos} (hsub : sub ∈ w.desk.subscriptions) :
    w.On st sub = true ↔ sub.venueId = st.venueId := by
  simp only [On, decide_eq_true_eq]
  constructor
  · rintro ⟨hnum, hserved⟩
    obtain ⟨-, st', hst', hvenue, -, -, hserved'⟩ := h.numbered sub hsub hnum
    rw [hserved, Option.some_inj] at hserved'
    rw [h.eq_of_opened hst hst' hserved', hvenue]
  · intro hvenue
    have hnum : sub.venueId ≠ 0 := hvenue ▸ h.nonzero st hst
    obtain ⟨-, st', hst', hvenue', -, -, hserved⟩ := h.numbered sub hsub hnum
    rw [hserved, h.eq_of_venueId hst' hst (hvenue'.trans hvenue)]
    exact ⟨hnum, rfl⟩

lemma written_eq_some
    (hwritten : w.written read venueId rec = some (st, said, moved)) :
    st ∈ w.venue.streams ∧ st.venueId = venueId ∧
      read st.key.kind rec st.stands = some (said, moved) := by
  obtain ⟨st', hfind, hread⟩ := Option.bind_eq_some_iff.mp hwritten
  obtain ⟨said', hsaid, heq⟩ := Option.map_eq_some_iff.mp hread
  cases heq
  exact ⟨List.mem_of_find?_eq_some hfind, by simpa using List.find?_some hfind, hsaid⟩

lemma Sound.readFor_holders (h : w.Sound)
    (hwritten : w.written read venueId rec = some (st, said, moved)) :
    TickDesk.readFor read worth venueId rec w.desk.subscriptions
      = ((w.desk.subscriptions.filter (·.venueId = venueId)).map (toldOf worth said),
        w.desk.subscriptions.map fun sub =>
          if sub.venueId = venueId then { sub with running := moved } else sub) := by
  obtain ⟨hst, rfl, hread⟩ := written_eq_some read hwritten
  refine readFor_eq read worth hread fun sub hsub hvenue => ?_
  have hnum : sub.venueId ≠ 0 := hvenue ▸ h.nonzero st hst
  obtain ⟨htick, st', hst', hvenue', hkey, hstands, -⟩ := h.numbered sub hsub hnum
  rw [h.eq_of_venueId hst' hst (hvenue'.trans hvenue)] at hkey hstands
  exact ⟨(congrArg TickKey.kind hkey).symm, hstands.symm, htick⟩

/-- A record is told as it is owed. -/
lemma Sound.tells_record [Inhabited Pos] (h : w.Sound) (venueId : ℕ) (rec : Rec) :
    (w.record read worth venueId rec).1 = w.owed read worth venueId rec := by
  unfold TickWorld.record owed
  cases hwritten : w.written read venueId rec with
  | none => rfl
  | some out =>
    obtain ⟨st, said, moved⟩ := out
    obtain ⟨hst, hvenue, -⟩ := written_eq_some read hwritten
    simp only [TickDesk.handleTbtRecord, h.readFor_holders read worth hwritten]
    have hsame : w.desk.subscriptions.filter (·.venueId = venueId)
        = w.desk.subscriptions.filter (w.On st) := by
      refine List.filter_congr fun sub hsub => ?_
      rw [Bool.eq_iff_iff, h.on_iff hst hsub, decide_eq_true_eq, hvenue]
    rw [hsame]
    rfl

omit read worth in
lemma map_move {β : Type} (f : TickStream Pos → β) (v : TickVenue Pos) (opened : ℕ) (moved : Pos)
    (hf : ∀ st : TickStream Pos, f { st with stands := moved } = f st) :
    (v.move opened moved).streams.map f = v.streams.map f := by
  rw [TickVenue.move, List.map_map]
  refine List.map_congr_left fun st _ => ?_
  simp only [Function.comp_apply]
  split_ifs
  · exact hf st
  · rfl

lemma Sound.record (h : w.Sound)
    (hwritten : w.written read venueId rec = some (st, said, moved)) :
    ({ desk := (w.desk.handleTbtRecord read worth venueId rec).2
       venue := w.venue.move st.opened moved } : TickWorld Pos).Sound := by
  obtain ⟨hst, hvenue, -⟩ := written_eq_some read hwritten
  have hmoved {st' : TickStream Pos} (hst' : st' ∈ w.venue.streams) :
      (if st'.opened = st.opened then { st' with stands := moved } else st')
        ∈ (w.venue.move st.opened moved).streams := List.mem_map_of_mem hst'
  simp only [TickDesk.handleTbtRecord, h.readFor_holders read worth hwritten]
  constructor <;> dsimp only
  case ids =>
    rw [List.map_map]
    refine (List.map_congr_left fun sub _ => ?_).symm ▸ h.ids
    simp only [Function.comp_apply]
    split_ifs <;> rfl
  case fresh =>
    simp only [List.forall_mem_map]
    intro sub hsub
    split_ifs <;> exact h.fresh sub hsub
  case unused => exact h.unused
  case numbers =>
    rw [map_move _ _ _ _ fun _ => rfl]
    exact h.numbers
  case keys =>
    rw [map_move _ _ _ _ fun _ => rfl]
    exact h.keys
  case nonzero =>
    simp only [TickVenue.move, List.forall_mem_map]
    intro st' hst'
    split_ifs <;> exact h.nonzero st' hst'
  case ledger =>
    rw [map_move _ _ _ _ fun _ => rfl]
    exact h.ledger
  case apart => exact h.apart
  case answered =>
    intro q a ha
    obtain ⟨hnum, hlt, hserved, hserves⟩ := h.answered q a ha
    refine ⟨hnum, hlt, hserved, ?_⟩
    simp only [TickVenue.move, List.forall_mem_map]
    intro st' hst'
    split_ifs <;> exact hserves st' hst'
  case numbered =>
    simp only [List.forall_mem_map]
    intro sub hsub hsubnum
    have hnum : sub.venueId ≠ 0 := by
      split_ifs at hsubnum <;> exact hsubnum
    obtain ⟨htick, st', hst', hvenue', hkey, hstands, hserved⟩ := h.numbered sub hsub hnum
    by_cases hsame : sub.venueId = venueId
    · have heq := h.eq_of_venueId hst' hst (hvenue'.trans (hsame.trans hvenue.symm))
      subst heq
      rw [if_pos hsame]
      refine ⟨htick, _, hmoved hst', ?_⟩
      rw [if_pos rfl]
      exact ⟨hvenue', hkey, rfl, hserved⟩
    · have hne : st'.opened ≠ st.opened := by
        intro heq
        rw [h.eq_of_opened hst' hst heq, hvenue] at hvenue'
        exact hsame hvenue'.symm
      rw [if_neg hsame]
      refine ⟨htick, _, hmoved hst', ?_⟩
      rw [if_neg hne]
      exact ⟨hvenue', hkey, hstands, hserved⟩
  case awaiting =>
    simp only [List.forall_mem_map]
    intro sub hsub hsubzero
    have hzero : sub.venueId = 0 := by
      split_ifs at hsubzero <;> exact hsubzero
    have hkeep := (h.awaiting sub hsub hzero).imp_right fun ⟨a, ha, st', hst', hopened, hkey⟩ =>
      (⟨a, ha, _, hmoved hst', by split_ifs <;> exact hopened, by split_ifs <;> exact hkey⟩ :
        ∃ a, w.venue.answers sub.queryId = some a ∧
          ∃ st' ∈ (w.venue.move st.opened moved).streams, st'.opened = a.opened ∧ st'.key = sub.key)
    split_ifs <;> exact hkeep
  case waits =>
    intro q hq
    refine (h.waits q hq).imp_left fun ⟨sub, hsub, hid, hzero⟩ => ⟨_, List.mem_map_of_mem hsub, ?_⟩
    split_ifs <;> exact ⟨hid, hzero⟩
  case live =>
    simp only [List.forall_mem_map]
    intro sub hsub
    split_ifs <;> exact h.live sub hsub
  case late => exact h.late

lemma goes_record (h : w.Sound) (hkept : ∀ st ∈ w.venue.streams, w.Keeps st fun _ => False)
    (venueId : ℕ) (rec : Rec) : Goes w (w.record read worth venueId rec).2 := by
  unfold TickWorld.record
  cases hwritten : w.written read venueId rec with
  | none => exact .of_streams h hkept fun st hst => ⟨st, hst, rfl⟩
  | some out =>
    obtain ⟨st, said, moved⟩ := out
    have hsound := h.record read worth hwritten
    refine .of_streams hsound ?_ fun st' hst' => ⟨_, List.mem_map_of_mem hst', ?_⟩
    · simp only [TickVenue.move, List.forall_mem_map]
      intro st' hst'
      have hkeeps : (⟨(w.desk.handleTbtRecord read worth venueId rec).2,
          w.venue.move st.opened moved⟩ : TickWorld Pos).Keeps st' fun _ => False := by
        refine (hkept st' hst').mono (fun sub hsub hsame => ?_)
          (fun q _ hq => .inr (.inl ⟨q, id, hq⟩))
          fun q a _ ha hopened => .inr (.inr ⟨q, a, id, ha, hopened⟩)
        simp only [TickDesk.handleTbtRecord, h.readFor_holders read worth hwritten]
        refine ⟨_, List.mem_map_of_mem hsub, ?_⟩
        split_ifs <;> exact hsame
      split_ifs <;> exact hkeeps
    · split_ifs <;> rfl

/-! ## Runs -/

section

variable [Inhabited Pos]

omit read worth in
/-- The invariant of a run. -/
structure Kept (w : TickWorld Pos) : Prop where
  sound : w.Sound
  kept : ∀ st ∈ w.venue.streams, w.Keeps st fun _ => False

/-- **What one step keeps.** -/
lemma Kept.step (h : w.Kept) (e : TickEvent Rec) (hspared : w.Spared e) :
    Goes w (w.step read worth e) := by
  have hopen {w' : TickWorld Pos} (hsound : w'.Sound)
      (hkept : ∀ st ∈ w'.venue.streams, w'.Keeps st fun _ => False)
      (hstreams : ∀ st ∈ w.venue.streams, st ∈ w'.venue.streams) : Goes w w' :=
    .of_streams hsound hkept fun st hst => ⟨st, hstreams st hst, rfl⟩
  cases e with
  | subscribe callerReqId key minTick =>
    exact hopen (h.sound.subscribe callerReqId key minTick)
      (fun st hst => keeps_subscribe h.sound (h.kept st hst) callerReqId key minTick)
      fun st hst => hst
  | unsubscribe callerReqId instrument =>
    exact goes_unsubscribe h.sound h.kept callerReqId instrument
  | serve queryId venueId =>
    refine hopen (h.sound.serve queryId venueId) (keeps_serve h.sound h.kept queryId venueId)
      fun st hst => ?_
    show st ∈ (w.venue.serve queryId venueId).streams
    unfold TickVenue.serve
    cases w.venue.asked queryId with
    | none => exact hst
    | some key =>
      dsimp only
      split_ifs
      · cases w.venue.streams.find? (·.key = key)
        · exact List.mem_cons_of_mem _ hst
        · exact hst
      · exact hst
  | acknowledge queryId minTick sizeTick =>
    exact goes_acknowledge h.sound h.kept queryId minTick sizeTick hspared
  | refuse queryId => exact goes_refuse h.sound h.kept queryId hspared
  | record venueId rec => exact goes_record read worth h.sound h.kept venueId rec

lemma Kept.right (h : w.Kept) (e : TickEvent Rec) (hspared : w.Spared e) :
    w.Right read worth e := by
  refine ⟨?_, (h.step read worth e hspared).closes⟩
  rintro venueId rec rfl
  exact h.sound.tells_record read worth venueId rec

omit read worth [Inhabited Pos] in
lemma Kept.closes (h : w.Kept) : w.Closes := by
  intro n hn
  have hcount := h.sound.ledger.count_eq n
  rw [List.count_append, List.count_range, if_pos hn] at hcount
  by_cases hopen : n ∈ w.venue.streams.map (·.opened)
  · obtain ⟨st, hst, rfl⟩ := List.mem_map.mp hopen
    have hpos := List.count_pos_iff.mpr hopen
    exact .inr ⟨by omega, st, hst, rfl, h.kept st hst⟩
  · rw [List.count_eq_zero.mpr hopen, add_zero] at hcount
    exact .inl ⟨hcount, fun st hst heq => hopen (heq ▸ List.mem_map_of_mem hst)⟩

omit read worth [Inhabited Pos] in
lemma Kept.initial : Kept ({} : TickWorld Pos) where
  sound := by
    constructor <;> simp
  kept := by simp

end

end

end

end TickWorld

end IbkrDx
