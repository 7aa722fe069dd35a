import IbkrDx.Engine.BarBoard

/-!
# The routes stand as the board does

A request leaves, and a request asks.
-/

namespace IbkrDx

def BarRoute.Carries (route : BarRoute) (e : BarEntry) : Prop :=
  (∃ c ∈ route.contracts, c.bars = e.bars) ∧
    ((route.active = true ∧ ∃ n, route.ticker = some n ∧
        e.standing = .reads ⟨n, route.minTick, route.sizeTick⟩) ∨
      (route.active = false ∧ e.standing = .silent))

structure Routed (routes : List BarRoute) (board : BarBoard) : Prop where
  once : (board.map (·.reqId)).Nodup
  named : ∀ e ∈ board, e.bars.conId ≠ 0
  apart : routes.Pairwise fun a b => ∀ r ∈ a.readers, r ∉ b.readers
  read : ∀ route ∈ routes, route.readers.Nodup ∧ route.readers ≠ []
  carried : ∀ route ∈ routes, ∀ r ∈ route.readers, ∃ e ∈ board, e.reqId = r ∧ route.Carries e
  routed : ∀ e ∈ board, e.standing ≠ .waiting → ∃ route ∈ routes, e.reqId ∈ route.readers
  kin : ∀ route ∈ routes, ∀ c ∈ route.contracts, ∀ c' ∈ route.contracts, c.bars.sameStream c'.bars
  distinct : ∀ a ∈ routes, ∀ b ∈ routes, a.active = true → b.active = true → a.ticker = b.ticker →
    a = b
  same : ∀ e ∈ board, ∀ e' ∈ board, e.bars = e'.bars → ∀ ρ ∈ e.reading, ∀ ρ' ∈ e'.reading, ρ = ρ'

/-- A subscription is of a live request, and numbered as it reads. -/
def SubFits (board : BarBoard) (sub : BarSub) : Prop :=
  ∃ e ∈ board, e.reqId = sub.reqId ∧
    (∀ ρ, e.standing = .reads ρ →
      sub.ticker = some ρ.ticker ∧ sub.minTick = ρ.minTick ∧ sub.sizeTick = ρ.sizeTick) ∧
    (e.standing = .waiting → sub.ticker = none)

lemma BarEntry.mem_reading {e : BarEntry} {ρ : BarReading} :
    ρ ∈ e.reading ↔ e.standing = .reads ρ := by
  unfold reading
  cases e.standing <;> simp [eq_comm]

namespace Routed

variable {routes : List BarRoute} {board : BarBoard} (h : Routed routes board)
include h

lemma eq_of_reqId {e e' : BarEntry} (he : e ∈ board) (he' : e' ∈ board)
    (heq : e.reqId = e'.reqId) : e = e' :=
  List.inj_on_of_nodup_map h.once he he' heq

lemma eq_of_reader {a b : BarRoute} (ha : a ∈ routes) (hb : b ∈ routes) {r : ℕ}
    (hra : r ∈ a.readers) (hrb : r ∈ b.readers) : a = b := by
  by_contra hne
  have : Std.Symm fun a b : BarRoute => ∀ r ∈ a.readers, r ∉ b.readers :=
    ⟨fun _ _ hab r hr hr' => hab r hr' hr⟩
  have hapart := h.apart.forall ha hb hne
  exact hapart r hra hrb

lemma nodup : routes.Nodup :=
  h.apart.imp_of_mem fun {a b} ha _ hab heq => by
    obtain ⟨r, hr⟩ := List.exists_mem_of_ne_nil _ (h.read a ha).2
    exact hab r hr (heq ▸ hr)

lemma route_of_reads {e : BarEntry} (he : e ∈ board) {ρ : BarReading}
    (hρ : e.standing = .reads ρ) : ∃ route ∈ routes, e.reqId ∈ route.readers ∧
      route.active = true ∧ route.ticker = some ρ.ticker ∧ ρ.minTick = route.minTick ∧
      ρ.sizeTick = route.sizeTick ∧ ∃ c ∈ route.contracts, c.bars = e.bars := by
  obtain ⟨route, hroute, hr⟩ := h.routed e he (by simp [hρ])
  obtain ⟨e', he', heq, hc, hstands⟩ := h.carried route hroute _ hr
  obtain rfl := h.eq_of_reqId he' he heq
  rcases hstands with ⟨hactive, n, hn, hs⟩ | ⟨_, hs⟩
  · obtain rfl := BarStanding.reads.inj (hρ.symm.trans hs)
    exact ⟨route, hroute, hr, hactive, hn, rfl, rfl, hc⟩
  · exact absurd (hρ.symm.trans hs) (by simp)

lemma reads_of_active {route : BarRoute} (hroute : route ∈ routes) (hactive : route.active = true)
    {r : ℕ} (hr : r ∈ route.readers) : ∃ e ∈ board, e.reqId = r ∧
      (∃ c ∈ route.contracts, c.bars = e.bars) ∧ ∃ n, route.ticker = some n ∧
        e.standing = .reads ⟨n, route.minTick, route.sizeTick⟩ := by
  obtain ⟨e, he, heq, hc, hstands⟩ := h.carried route hroute r hr
  rcases hstands with ⟨_, hn⟩ | ⟨hoff, _⟩
  · exact ⟨e, he, heq, hc, hn⟩
  · rw [hactive] at hoff
    exact absurd hoff (by simp)

lemma silent_of_inactive {route : BarRoute} (hroute : route ∈ routes) (hoff : route.active = false)
    {r : ℕ} (hr : r ∈ route.readers) : ∃ e ∈ board, e.reqId = r ∧
      (∃ c ∈ route.contracts, c.bars = e.bars) ∧ e.standing = .silent := by
  obtain ⟨e, he, heq, hc, hstands⟩ := h.carried route hroute r hr
  rcases hstands with ⟨hactive, _⟩ | ⟨_, hs⟩
  · rw [hactive] at hoff
    exact absurd hoff (by simp)
  · exact ⟨e, he, heq, hc, hs⟩

end Routed

namespace BarDesk

variable {Bar : Type} {d : BarDesk Bar} {board : BarBoard}

lemma routeOf_eq_some (h : Routed d.rtbarRoutes board) {route : BarRoute}
    (hroute : route ∈ d.rtbarRoutes) {r : ℕ} (hr : r ∈ route.readers) :
    d.routeOf r = some route := by
  unfold routeOf
  cases hfind : d.rtbarRoutes.find? (·.readers.contains r) with
  | none =>
      rw [List.find?_eq_none] at hfind
      exact absurd (hfind route hroute) (by simpa using hr)
  | some route' =>
      have hr' : r ∈ route'.readers := by simpa using List.find?_some hfind
      rw [h.eq_of_reader (List.mem_of_find?_eq_some hfind) hroute hr' hr]

lemma barRouteActive_iff (h : Routed d.rtbarRoutes board) {e : BarEntry} (he : e ∈ board) :
    d.barRouteActive e.reqId = true ↔ e.standing ≠ .silent := by
  cases hfind : d.routeOf e.reqId with
  | none =>
      have hactive : d.barRouteActive e.reqId = true := by simp [barRouteActive, hfind]
      refine iff_of_true hactive fun hs => ?_
      obtain ⟨route, hroute, hr⟩ := h.routed e he (by simp [hs])
      rw [routeOf_eq_some h hroute hr] at hfind
      exact absurd hfind (by simp)
  | some route =>
      have hroute := List.mem_of_find?_eq_some hfind
      have hr : e.reqId ∈ route.readers := by simpa using List.find?_some hfind
      obtain ⟨e', he', heq, _, hstands⟩ := h.carried route hroute _ hr
      obtain rfl := h.eq_of_reqId he' he heq
      have hval : d.barRouteActive e'.reqId = route.active := by simp [barRouteActive, hfind]
      rw [hval]
      rcases hstands with ⟨hactive, n, _, hs⟩ | ⟨hoff, hs⟩
      · simp [hactive, hs]
      · simp [hoff, hs]

/-! ## A frame -/

lemma mem_barReaders {n : ℕ} {sub : BarSub} :
    ∀ {served : List ℕ} {subs : List BarSub}, sub ∈ d.barReaders n served subs →
      sub ∈ subs ∧ sub.ticker = some n ∧ sub.reqId ∉ served ∧ d.barRouteActive sub.reqId = true
  | _, [], hmem => by simp [barReaders] at hmem
  | served, s :: subs, hmem => by
      unfold barReaders at hmem
      split at hmem
      · obtain ⟨hsub, hrest⟩ := mem_barReaders hmem
        exact ⟨List.mem_cons_of_mem _ hsub, hrest⟩
      · next hhears =>
        push Not at hhears
        rcases List.mem_cons.1 hmem with rfl | hmem
        · exact ⟨List.mem_cons_self, hhears.1, hhears.2.1, by simpa using hhears.2.2⟩
        · obtain ⟨hsub, hn, hserved, hactive⟩ := mem_barReaders hmem
          exact ⟨List.mem_cons_of_mem _ hsub, hn, fun hs => hserved (List.mem_cons_of_mem _ hs),
            hactive⟩

lemma nodup_barReaders (n : ℕ) : ∀ (served : List ℕ) (subs : List BarSub),
    ((d.barReaders n served subs).map (·.reqId)).Nodup
  | _, [] => by simp [barReaders]
  | served, s :: subs => by
      unfold barReaders
      split
      · exact nodup_barReaders n served subs
      · rw [List.map_cons, List.nodup_cons]
        refine ⟨fun hmem => ?_, nodup_barReaders n _ subs⟩
        obtain ⟨sub, hsub, heq⟩ := List.mem_map.1 hmem
        exact (mem_barReaders hsub).2.2.1 (heq ▸ List.mem_cons_self)

lemma served_barReaders {n : ℕ} {sub : BarSub} (hn : sub.ticker = some n)
    (hactive : d.barRouteActive sub.reqId = true) :
    ∀ (served : List ℕ) {subs : List BarSub}, sub ∈ subs → sub.reqId ∉ served →
      ∃ s ∈ d.barReaders n served subs, s.reqId = sub.reqId
  | served, s :: subs, hmem, hserved => by
      unfold barReaders
      rcases List.mem_cons.1 hmem with rfl | hmem
      · rw [if_neg (by simp [hn, hserved, hactive])]
        exact ⟨sub, List.mem_cons_self, rfl⟩
      · split
        · exact served_barReaders hn hactive _ hmem hserved
        · by_cases heq : sub.reqId = s.reqId
          · exact ⟨s, List.mem_cons_self, heq.symm⟩
          · obtain ⟨s', hs', heq'⟩ := served_barReaders hn hactive (s.reqId :: served) hmem
              (by simp [heq, hserved])
            exact ⟨s', List.mem_cons_of_mem _ hs', heq'⟩

section

variable (decode : Bytes → F64 → F64 → ℕ → Option Bar)

lemma reach_handBar (held : List ℕ) (forming : List (ℕ × List Bar)) (r : ℕ) (bar : Bar) :
    BarWorld.reach (handBar held forming r bar).1 = (r, bar) := by
  unfold handBar
  split
  · rfl
  · split <;> rfl

lemma reach_handRecord (held : List ℕ) (rec : BarRecord) :
    ∀ (subs : List BarSub) (forming : List (ℕ × List Bar)),
      (handRecord decode held rec subs forming).1.map BarWorld.reach = subs.filterMap fun sub =>
        (decode rec.payload sub.minTick sub.sizeTick rec.timestamp).map fun bar => (sub.reqId, bar)
  | [], _ => rfl
  | sub :: subs, forming => by
      unfold handRecord
      cases hbar : decode rec.payload sub.minTick sub.sizeTick rec.timestamp with
      | none => simp only [List.filterMap_cons, hbar, Option.map_none, reach_handRecord]
      | some bar =>
          simp only [List.map_cons, List.filterMap_cons, hbar, Option.map_some, reach_handBar,
            reach_handRecord]

lemma sublist_filterMap_fst {α κ β : Type} (key : α → κ) (f : α → Option β) (l : List α) :
    ((l.filterMap fun a => (f a).map fun b => (key a, b)).map (·.1)).Sublist (l.map key) := by
  induction l with
  | nil => simp
  | cons a l ih =>
      cases hf : f a with
      | none => simpa [hf] using ih.cons (key a)
      | some b => simpa [hf] using ih.cons_cons (key a)

lemma perm_owed (h : Routed d.rtbarRoutes board) (hsubs : ∀ sub ∈ d.rtbarSubs, SubFits board sub)
    (hheld : ∀ e ∈ board, ∃ sub ∈ d.rtbarSubs, sub.reqId = e.reqId) (rec : BarRecord)
    (forming : List (ℕ × List Bar)) :
    ((handRecord decode d.held rec (d.barReaders rec.ticker [] d.rtbarSubs) forming).1.map
      BarWorld.reach).Perm (BarWorld.owed decode board rec) := by
  have hperm : ((d.barReaders rec.ticker [] d.rtbarSubs).map
      fun sub => (sub.reqId, sub.minTick, sub.sizeTick)).Perm
      (board.filterMap fun e => ((e.reading.filter (·.ticker = rec.ticker)).map
        fun ρ => (ρ.minTick, ρ.sizeTick)).map fun units => (e.reqId, units)) := by
    refine (List.perm_ext_iff_of_nodup ?_ ?_).2 ?_
    · have hnodup := nodup_barReaders (d := d) rec.ticker [] d.rtbarSubs
      exact List.Nodup.of_map (·.1) (by rwa [List.map_map])
    · exact List.Nodup.of_map (·.1) (h.once.sublist (sublist_filterMap_fst _ _ _))
    · rintro ⟨r, m, z⟩
      simp only [List.mem_map, List.mem_filterMap, Option.map_eq_some_iff, Option.filter_eq_some_iff,
        decide_eq_true_eq, Prod.mk.injEq]
      constructor
      · rintro ⟨sub, hsub, rfl, rfl, rfl⟩
        obtain ⟨hmem, hn, _, hactive⟩ := mem_barReaders hsub
        obtain ⟨e, he, heq, hreads, hwaits⟩ := hsubs sub hmem
        rw [← heq, barRouteActive_iff h he] at hactive
        cases hs : e.standing with
        | waiting => exact absurd (hn.symm.trans (hwaits hs)) (by simp)
        | silent => exact absurd hs hactive
        | reads ρ =>
            obtain ⟨hρ, hm, hz⟩ := hreads ρ hs
            exact ⟨e, he, (ρ.minTick, ρ.sizeTick),
              ⟨ρ, ⟨BarEntry.mem_reading.2 hs, Option.some.inj (hρ.symm.trans hn)⟩, rfl⟩, heq,
              Prod.ext hm.symm hz.symm⟩
      · rintro ⟨e, he, _, ⟨ρ, ⟨hρ, hn⟩, rfl⟩, rfl, rfl, rfl⟩
        have hs := BarEntry.mem_reading.1 hρ
        obtain ⟨sub, hsub, heq⟩ := hheld e he
        obtain ⟨e', he', heq', hreads, _⟩ := hsubs sub hsub
        obtain rfl := h.eq_of_reqId he' he (heq'.trans heq)
        have hactive : d.barRouteActive sub.reqId = true := by
          rw [heq, barRouteActive_iff h he]
          simp [hs]
        have hticker : sub.ticker = some rec.ticker := by rw [(hreads ρ hs).1, hn]
        obtain ⟨s, hserved, heqs⟩ := served_barReaders hticker hactive [] hsub (by simp)
        obtain ⟨e'', he'', heq'', hreads', _⟩ := hsubs s (mem_barReaders hserved).1
        obtain rfl := h.eq_of_reqId he'' he' (heq''.trans (heqs.trans heq))
        obtain ⟨_, hm, hz⟩ := hreads' ρ hs
        exact ⟨s, hserved, heqs.trans heq, hm, hz⟩
  have hgiven := hperm.filterMap fun u =>
    (decode rec.payload u.2.1 u.2.2 rec.timestamp).map fun bar => (u.1, bar)
  rw [List.filterMap_map, List.filterMap_filterMap] at hgiven
  rw [reach_handRecord]
  refine hgiven.trans (List.Perm.of_eq ?_)
  unfold BarWorld.owed
  refine congrArg (fun f => board.filterMap f) (funext fun e => ?_)
  cases e.reading.filter (·.ticker = rec.ticker) <;> rfl

lemma forall₂_handRecords (h : Routed d.rtbarRoutes board)
    (hsubs : ∀ sub ∈ d.rtbarSubs, SubFits board sub)
    (hheld : ∀ e ∈ board, ∃ sub ∈ d.rtbarSubs, sub.reqId = e.reqId) :
    ∀ (recs : List BarRecord) (forming : List (ℕ × List Bar)),
      List.Forall₂ (fun rec moves => (moves.map BarWorld.reach).Perm (BarWorld.owed decode board rec))
        recs (d.handRecords decode recs forming).1
  | [], _ => List.Forall₂.nil
  | rec :: recs, forming =>
      .cons (perm_owed decode h hsubs hheld rec forming)
        (forall₂_handRecords h hsubs hheld recs _)

end

end BarDesk

/-! ## A request leaves -/

variable {route : BarRoute}

variable {r : ℕ}

@[simp]
lemma BarRoute.mem_readers_without {r' : ℕ} :
    r' ∈ (route.without r).readers ↔ r' ∈ route.readers ∧ r' ≠ r := by
  simp [without]

def routesWithout (r : ℕ) (routes : List BarRoute) : List BarRoute :=
  (routes.map (·.without r)).filter (·.readers ≠ [])

variable {routes : List BarRoute}

lemma mem_routesWithout :
    route ∈ routesWithout r routes ↔
      ∃ a ∈ routes, a.without r = route ∧ route.readers ≠ [] := by
  simp only [routesWithout, List.mem_filter, List.mem_map, decide_eq_true_eq]
  exact ⟨fun ⟨⟨a, ha, heq⟩, hne⟩ => ⟨a, ha, heq, hne⟩, fun ⟨a, ha, heq, hne⟩ => ⟨⟨a, ha, heq⟩, hne⟩⟩

variable {board : BarBoard}

@[simp]
lemma BarBoard.mem_leave {e : BarEntry} :
    e ∈ board.leave r ↔ e ∈ board ∧ e.reqId ≠ r := by
  simp [leave]

namespace Routed

lemma leave (h : Routed routes board) (r : ℕ) :
    Routed (routesWithout r routes) (board.leave r) where
  once := h.once.sublist (List.filter_sublist.map _)
  named e he := h.named e (BarBoard.mem_leave.1 he).1
  apart := by
    refine List.Pairwise.filter _ (List.pairwise_map.2 (h.apart.imp fun hab r' hr hr' => ?_))
    exact hab r' (BarRoute.mem_readers_without.1 hr).1 (BarRoute.mem_readers_without.1 hr').1
  read route hroute := by
    obtain ⟨a, ha, rfl, hne⟩ := mem_routesWithout.1 hroute
    exact ⟨(h.read a ha).1.filter _, hne⟩
  carried route hroute r' hr := by
    obtain ⟨a, ha, rfl, hne⟩ := mem_routesWithout.1 hroute
    rw [BarRoute.mem_readers_without] at hr
    obtain ⟨e, he, rfl, hcarries⟩ := h.carried a ha r' hr.1
    exact ⟨e, BarBoard.mem_leave.2 ⟨he, hr.2⟩, rfl, hcarries⟩
  routed e he hs := by
    rw [BarBoard.mem_leave] at he
    obtain ⟨route, hroute, hr⟩ := h.routed e he.1 hs
    have hr' : e.reqId ∈ (route.without r).readers := BarRoute.mem_readers_without.2 ⟨hr, he.2⟩
    exact ⟨route.without r, mem_routesWithout.2 ⟨route, hroute, rfl, List.ne_nil_of_mem hr'⟩, hr'⟩
  kin route hroute := by
    obtain ⟨a, ha, rfl, -⟩ := mem_routesWithout.1 hroute
    exact h.kin a ha
  distinct a ha b hb hactive hactive' hticker := by
    obtain ⟨a', ha', rfl, -⟩ := mem_routesWithout.1 ha
    obtain ⟨b', hb', rfl, -⟩ := mem_routesWithout.1 hb
    rw [h.distinct a' ha' b' hb' hactive hactive' hticker]
  same e he e' he' := h.same e (BarBoard.mem_leave.1 he).1 e' (BarBoard.mem_leave.1 he').1

end Routed

variable {sub : BarSub}

lemma SubFits.leave (h : SubFits board sub)
    (hne : sub.reqId ≠ r) : SubFits (board.leave r) sub := by
  obtain ⟨e, he, heq, hrest⟩ := h
  exact ⟨e, BarBoard.mem_leave.2 ⟨he, heq ▸ hne⟩, heq, hrest⟩

lemma routesWithout_eq_self
    (hr : ∀ route ∈ routes, r ∉ route.readers) (hne : ∀ route ∈ routes, route.readers ≠ []) :
    routesWithout r routes = routes := by
  have hmap : routes.map (·.without r) = routes := by
    refine (List.map_congr_left fun route hroute => ?_).trans (List.map_id _)
    have hfilter : route.readers.filter (· ≠ r) = route.readers :=
      List.filter_eq_self.2 fun r' hr' => by
        simpa using fun (heq : r' = r) => hr route hroute (heq ▸ hr')
    simp only [BarRoute.without, hfilter, id_eq]
  rw [routesWithout, hmap, List.filter_eq_self]
  simpa using hne

lemma routesWithout_of_findIdx : ∀ {routes : List BarRoute} {pos : ℕ} {a : BarRoute},
    routes.Pairwise (fun a b => ∀ r ∈ a.readers, r ∉ b.readers) →
      (∀ route ∈ routes, route.readers ≠ []) →
        routes.findIdx? (·.readers.contains r) = some pos → routes[pos]? = some a →
          routesWithout r routes = if (a.without r).readers = [] then routes.eraseIdx pos
            else routes.modify pos (·.without r)
  | x :: routes, pos, a, hapart, hne, hfind, ha => by
      rw [List.pairwise_cons] at hapart
      rw [List.findIdx?_cons] at hfind
      have hcons : routesWithout r (x :: routes)
          = [x.without r].filter (·.readers ≠ []) ++ routesWithout r routes := by
        unfold routesWithout
        rw [List.map_cons, ← List.singleton_append, List.filter_append]
      have hne' := fun route hroute => hne route (List.mem_cons_of_mem x hroute)
      by_cases hx : r ∈ x.readers
      · rw [if_pos (by simpa using hx), Option.some.injEq] at hfind
        subst hfind
        obtain rfl : x = a := by simpa using ha
        rw [hcons, routesWithout_eq_self (fun b hb => hapart.1 b hb r hx) hne']
        by_cases hlast : (x.without r).readers = []
        · rw [if_pos hlast, List.filter_singleton]
          simp [hlast]
        · rw [if_neg hlast, List.filter_singleton]
          simp [hlast]
      · rw [if_neg (by simpa using hx)] at hfind
        obtain ⟨pos', hpos', rfl⟩ := Option.map_eq_some_iff.1 hfind
        have hself : x.without r = x := by
          have hfilter : x.readers.filter (· ≠ r) = x.readers :=
            List.filter_eq_self.2 fun r' hr' => by simpa using fun (heq : r' = r) => hx (heq ▸ hr')
          simp only [BarRoute.without, hfilter]
        rw [hcons, hself, routesWithout_of_findIdx hapart.2 hne' hpos' (by simpa using ha),
          List.filter_singleton]
        have hnx := hne x List.mem_cons_self
        split <;> simp [hnx]

/-! ## What stands -/

structure Boarded {Bar : Type} (d : BarDesk Bar) (board : BarBoard) : Prop where
  routes : Routed d.rtbarRoutes board
  subs : ∀ sub ∈ d.rtbarSubs, SubFits board sub
  held : ∀ e ∈ board, ∃ sub ∈ d.rtbarSubs, sub.reqId = e.reqId
  resub : d.rtbarResub = board.map (·.request)

namespace Boarded

variable {Bar : Type} {d : BarDesk Bar}

lemma of_eq {d' : BarDesk Bar} (h : Boarded d board) (hroutes : d'.rtbarRoutes = d.rtbarRoutes)
    (hsubs : d'.rtbarSubs = d.rtbarSubs) (hresub : d'.rtbarResub = d.rtbarResub) :
    Boarded d' board where
  routes := hroutes ▸ h.routes
  subs := hsubs ▸ h.subs
  held := hsubs ▸ h.held
  resub := hresub ▸ h.resub

lemma eraseP_resub (h : Boarded d board) (r : ℕ) :
    d.rtbarResub.eraseP (·.reqId = r) = (board.leave r).map (·.request) := by
  have hkeys : (d.rtbarResub.map (·.reqId)).Nodup := by
    rw [h.resub, List.map_map]
    exact h.routes.once
  have herase := Removal.eraseP_eq_filter_of_nodup RtBarRequest.reqId (k := r) hkeys
  rw [herase, h.resub, List.filter_map]
  rfl

lemma filter_resub (h : Boarded d board) (r : ℕ) :
    d.rtbarResub.filter (·.reqId ≠ r) = (board.leave r).map (·.request) := by
  rw [h.resub, List.filter_map]
  rfl

lemma leave (h : Boarded d board) {d' : BarDesk Bar} {r : ℕ}
    (hroutes : d'.rtbarRoutes = routesWithout r d.rtbarRoutes)
    (hsubs : d'.rtbarSubs = d.rtbarSubs.filter (·.reqId ≠ r))
    (hresub : d'.rtbarResub = (board.leave r).map (·.request)) : Boarded d' (board.leave r) where
  routes := hroutes ▸ h.routes.leave r
  subs sub hsub := by
    rw [hsubs, List.mem_filter, decide_eq_true_eq] at hsub
    exact (h.subs sub hsub.1).leave hsub.2
  held e he := by
    rw [BarBoard.mem_leave] at he
    obtain ⟨sub, hsub, heq⟩ := h.held e he.1
    exact ⟨sub, hsubs ▸ List.mem_filter.2 ⟨hsub, by simpa [heq] using he.2⟩, heq⟩
  resub := hresub

lemma mem_board_of_reader (h : Boarded d board) {route : BarRoute} (hroute : route ∈ d.rtbarRoutes)
    {r : ℕ} (hr : r ∈ route.readers) : ∃ e ∈ board, e.reqId = r := by
  obtain ⟨e, he, heq, -⟩ := h.routes.carried route hroute r hr
  exact ⟨e, he, heq⟩

lemma leave_eq_self (r : ℕ) (hr : ∀ e ∈ board, e.reqId ≠ r) : board.leave r = board :=
  List.filter_eq_self.2 fun e he => by simpa using hr e he

lemma withdraw_absent (h : Boarded d board) {r : ℕ} (hr : ∀ e ∈ board, e.reqId ≠ r) :
    (d.withdrawBarStream r).1 = [] ∧ Boarded (d.withdrawBarStream r).2 (board.leave r) ∧
      (d.withdrawBarStream r).2.rtbarWithdrawnUnnumbered = d.rtbarWithdrawnUnnumbered ∧
      d.rtbarSubs.find? (·.reqId = r) = none := by
  have hnone : d.rtbarSubs.find? (·.reqId = r) = none := by
    rw [List.find?_eq_none]
    intro sub hsub heq
    obtain ⟨e, he, heq', -⟩ := h.subs sub hsub
    exact hr e he (heq'.trans (by simpa using heq))
  have hboard := leave_eq_self r hr
  unfold BarDesk.withdrawBarStream
  simp only [hnone]
  refine ⟨trivial, ?_, trivial, trivial⟩
  rw [hboard]
  refine ⟨h.routes, h.subs, h.held, ?_⟩
  have herase := h.eraseP_resub r
  rwa [hboard] at herase

lemma withdraw_routed (h : Boarded d board) {route : BarRoute} (hroute : route ∈ d.rtbarRoutes)
    {r : ℕ} (hr : r ∈ route.readers) :
    (d.withdrawBarStream r).1 = (if (route.without r).readers = [] then
        route.ticker.toList.flatMap fun n => d.sendHistoricalCancel (.number n) else []) ∧
      Boarded (d.withdrawBarStream r).2 (board.leave r) ∧
      (d.withdrawBarStream r).2.rtbarWithdrawnUnnumbered = d.rtbarWithdrawnUnnumbered := by
  obtain ⟨e, he, rfl⟩ := h.mem_board_of_reader hroute hr
  obtain ⟨sub, hsub, heq⟩ := h.held e he
  cases hfind : d.rtbarSubs.find? (·.reqId = e.reqId) with
  | none => exact absurd heq (by simpa using List.find?_eq_none.1 hfind sub hsub)
  | some s =>
  cases hpos : d.rtbarRoutes.findIdx? (·.readers.contains e.reqId) with
  | none =>
      rw [List.findIdx?_eq_none_iff] at hpos
      exact absurd (hpos route hroute) (by simpa using hr)
  | some pos =>
  obtain ⟨hlt, hat, -⟩ := List.findIdx?_eq_some_iff_getElem.1 hpos
  have hget : d.rtbarRoutes[pos]? = some route := by
    rw [List.getElem?_eq_getElem hlt]
    exact congrArg some (h.routes.eq_of_reader (List.getElem_mem hlt) hroute (by simpa using hat) hr)
  have hwithout := routesWithout_of_findIdx h.routes.apart (fun a ha => (h.routes.read a ha).2)
    hpos hget
  unfold BarDesk.withdrawBarStream
  simp only [hfind, hpos, hget]
  unfold BarDesk.withdrawRouted
  by_cases hlast : (route.without e.reqId).readers = []
  · rw [if_pos hlast] at hwithout
    rw [if_pos hlast, if_pos hlast]
    refine ⟨?_, h.leave hwithout.symm rfl (h.eraseP_resub _), rfl⟩
    cases route.ticker <;> simp [BarDesk.sendHistoricalCancel]
  · rw [if_neg hlast] at hwithout
    rw [if_neg hlast, if_neg hlast]
    exact ⟨rfl, h.leave hwithout.symm rfl (h.eraseP_resub _), rfl⟩

lemma find_resub (h : Boarded d board) {e : BarEntry} (he : e ∈ board) :
    d.rtbarResub.find? (·.reqId = e.reqId) = some e.request := by
  rw [h.resub, List.find?_map]
  cases hboard : board.find? ((fun r : RtBarRequest => decide (r.reqId = e.reqId)) ∘ (·.request)) with
  | none => exact absurd (List.find?_eq_none.1 hboard e he) (by simp)
  | some e' =>
      have hfound := List.find?_some hboard
      have heq' : e'.reqId = e.reqId := of_decide_eq_true hfound
      rw [h.routes.eq_of_reqId (List.mem_of_find?_eq_some hboard) he heq']
      rfl

lemma withdraw_waiting (h : Boarded d board) {e : BarEntry} (he : e ∈ board)
    (hs : e.standing = .waiting) : ∃ sub, d.rtbarSubs.find? (·.reqId = e.reqId) = some sub ∧
      (d.withdrawBarStream e.reqId).1 = d.sendHistoricalCancel (.query sub.query) ∧
      Boarded (d.withdrawBarStream e.reqId).2 (board.leave e.reqId) ∧
      (d.withdrawBarStream e.reqId).2.rtbarWithdrawnUnnumbered
        = d.rtbarWithdrawnUnnumbered.filter (·.1 ≠ sub.query) ++ [(sub.query, e.request)] := by
  obtain ⟨sub, hsub, heq⟩ := h.held e he
  cases hfind : d.rtbarSubs.find? (·.reqId = e.reqId) with
  | none => exact absurd heq (by simpa using List.find?_eq_none.1 hfind sub hsub)
  | some s =>
  have hs' : s.ticker = none := by
    obtain ⟨e', he', heq', -, hwaits⟩ := h.subs s (List.mem_of_find?_eq_some hfind)
    have hreq : s.reqId = e.reqId := by simpa using List.find?_some hfind
    obtain rfl := h.routes.eq_of_reqId he' he (heq'.trans hreq)
    exact hwaits hs
  have hoff (a : BarRoute) (ha : a ∈ d.rtbarRoutes) : e.reqId ∉ a.readers := by
    intro hr
    obtain ⟨e', he', heq', -, hstands⟩ := h.routes.carried a ha _ hr
    obtain rfl := h.routes.eq_of_reqId he' he heq'
    rcases hstands with ⟨_, n, _, hreads⟩ | ⟨_, hsilent⟩
    · exact absurd (hs.symm.trans hreads) (by simp)
    · exact absurd (hs.symm.trans hsilent) (by simp)
  have hpos : d.rtbarRoutes.findIdx? (·.readers.contains e.reqId) = none := by
    rw [List.findIdx?_eq_none_iff]
    exact fun a ha => by simpa using hoff a ha
  have hasked := h.find_resub he
  refine ⟨s, rfl, ?_⟩
  unfold BarDesk.withdrawBarStream
  simp only [hfind, hpos, hasked]
  unfold BarDesk.withdrawUnrouted
  simp only [hs']
  refine ⟨rfl, h.leave ?_ rfl (h.eraseP_resub _), trivial⟩
  exact (routesWithout_eq_self hoff fun a ha => (h.routes.read a ha).2).symm

end Boarded

/-! ## A request asks -/

namespace Routed

variable {ρ : BarReading}

lemma readingOf_eq (h : Routed routes board) {e : BarEntry} (he : e ∈ board)
    (hρ : ρ ∈ e.reading) : board.readingOf e.bars = some ρ := by
  unfold BarBoard.readingOf
  cases hfind : (board.filter (·.bars = e.bars)).findSome? (·.reading) with
  | none =>
      rw [List.findSome?_eq_none_iff] at hfind
      have hnone := hfind e (List.mem_filter.2 ⟨he, by simp⟩)
      rw [hnone] at hρ
      exact absurd hρ (by simp)
  | some ρ' =>
      obtain ⟨e', he', hρ'⟩ := List.exists_of_findSome?_eq_some hfind
      rw [List.mem_filter, decide_eq_true_eq] at he'
      rw [h.same e' he'.1 e he he'.2 ρ' hρ' ρ hρ]

lemma exists_of_readingOf {bars : Bars} (hρ : board.readingOf bars = some ρ) :
    ∃ e ∈ board, e.bars = bars ∧ ρ ∈ e.reading := by
  obtain ⟨e, he, hreads⟩ := List.exists_of_findSome?_eq_some hρ
  rw [List.mem_filter, decide_eq_true_eq] at he
  exact ⟨e, he.1, he.2, hreads⟩

lemma notMem_readers (h : Routed routes board) {r : ℕ} (hr : ∀ e ∈ board, e.reqId ≠ r)
    {route : BarRoute} (hroute : route ∈ routes) : r ∉ route.readers := by
  intro hmem
  obtain ⟨e, he, heq, -⟩ := h.carried route hroute r hmem
  exact hr e he heq

lemma once_ask (h : Routed routes board) {r : ℕ} (hr : ∀ e ∈ board, e.reqId ≠ r) (bars : Bars)
    (standing : BarStanding) : ((board ++ [BarEntry.mk r bars standing]).map (·.reqId)).Nodup := by
  rw [List.map_append, List.nodup_append]
  refine ⟨h.once, by simp, ?_⟩
  intro q hq q' hq'
  obtain ⟨e, he, rfl⟩ := List.mem_map.1 hq
  obtain rfl : q' = r := by simpa using hq'
  exact hr e he

lemma wait (h : Routed routes board) {r : ℕ} (hr : ∀ e ∈ board, e.reqId ≠ r) {bars : Bars}
    (hbars : bars.conId ≠ 0) : Routed routes (board ++ [⟨r, bars, .waiting⟩]) where
  once := h.once_ask hr bars _
  named e he := by
    rcases List.mem_append.1 he with he | he
    · exact h.named e he
    · rw [List.mem_singleton.1 he]
      exact hbars
  apart := h.apart
  read := h.read
  carried route hroute r hr := by
    obtain ⟨e, he, hrest⟩ := h.carried route hroute r hr
    exact ⟨e, List.mem_append_left _ he, hrest⟩
  routed e he hs := by
    rcases List.mem_append.1 he with he | he
    · exact h.routed e he hs
    · rw [List.mem_singleton.1 he] at hs
      exact absurd rfl hs
  kin := h.kin
  distinct := h.distinct
  same e he e' he' heq ρ hρ ρ' hρ' := by
    rcases List.mem_append.1 he with he | he
    · rcases List.mem_append.1 he' with he' | he'
      · exact h.same e he e' he' heq ρ hρ ρ' hρ'
      · rw [List.mem_singleton.1 he'] at hρ'
        exact absurd (BarEntry.mem_reading.1 hρ') (by simp)
    · rw [List.mem_singleton.1 he] at hρ
      exact absurd (BarEntry.mem_reading.1 hρ) (by simp)

lemma joinRoute_eq_map (h : Routed routes board) (owner r : ℕ) :
    BarDesk.joinRoute owner r routes = routes.map fun route =>
      if route.readers.contains owner then { route with readers := route.readers ++ [r] }
      else route :=
  Removal.modifyFirst_eq_map _ (h.apart.imp fun hab ha hb =>
    hab owner (by simpa using ha) (by simpa using hb))

lemma join (h : Routed routes board) {r : ℕ} (hr : ∀ e ∈ board, e.reqId ≠ r) {owner : BarEntry}
    (howner : owner ∈ board) (hρ : owner.standing = .reads ρ) :
    Routed (BarDesk.joinRoute owner.reqId r routes) (board ++ [⟨r, owner.bars, .reads ρ⟩]) := by
  rw [h.joinRoute_eq_map]
  obtain ⟨mine, hmine, hon, hactive, hticker, hmin, hsize, hlisted⟩ := h.route_of_reads howner hρ
  have honly (a : BarRoute) (ha : a ∈ routes) (hmem : owner.reqId ∈ a.readers) : a = mine :=
    h.eq_of_reader ha hmine hmem hon
  refine ⟨h.once_ask hr _ _, ?_, ?_, ?_, ?_, ?_, ?_, ?_, ?_⟩
  case refine_1 =>
    intro e he
    rcases List.mem_append.1 he with he | he
    · exact h.named e he
    · rw [List.mem_singleton.1 he]
      exact h.named owner howner
  case refine_2 =>
    refine List.pairwise_map.2 (h.apart.imp_of_mem fun {a b} ha hb hab q hqa hqb => ?_)
    have hra := h.notMem_readers hr ha
    have hrb := h.notMem_readers hr hb
    by_cases hoa : owner.reqId ∈ a.readers
    · have hob := hab _ hoa
      rw [if_pos (by simpa using hoa)] at hqa
      rw [if_neg (by simpa using hob)] at hqb
      rcases List.mem_append.1 hqa with hqa | hqa
      · exact hab q hqa hqb
      · exact hrb (List.mem_singleton.1 hqa ▸ hqb)
    · rw [if_neg (by simpa using hoa)] at hqa
      split at hqb
      · rcases List.mem_append.1 hqb with hqb | hqb
        · exact hab q hqa hqb
        · exact hra (List.mem_singleton.1 hqb ▸ hqa)
      · exact hab q hqa hqb
  case refine_3 =>
    intro route hroute
    obtain ⟨a, ha, rfl⟩ := List.mem_map.1 hroute
    split
    · refine ⟨List.nodup_append.2 ⟨(h.read a ha).1, by simp, ?_⟩, by simp⟩
      intro q hq q' hq' heq
      rw [List.mem_singleton.1 hq'] at heq
      exact h.notMem_readers hr ha (heq ▸ hq)
    · exact h.read a ha
  case refine_4 =>
    intro route hroute q hq
    obtain ⟨a, ha, rfl⟩ := List.mem_map.1 hroute
    have hold (hqa : q ∈ a.readers) : ∃ e ∈ board ++ [⟨r, owner.bars, .reads ρ⟩], e.reqId = q ∧
        a.Carries e := by
      obtain ⟨e, he, hrest⟩ := h.carried a ha q hqa
      exact ⟨e, List.mem_append_left _ he, hrest⟩
    by_cases hoa : owner.reqId ∈ a.readers
    · obtain rfl := honly a ha hoa
      rw [if_pos (by simpa using hoa)] at hq ⊢
      rcases List.mem_append.1 hq with hq | hq
      · exact hold hq
      · refine ⟨_, List.mem_append_right _ List.mem_cons_self, (List.mem_singleton.1 hq).symm, hlisted,
          .inl ⟨hactive, ρ.ticker, hticker, ?_⟩⟩
        simp only [← hmin, ← hsize]
    · rw [if_neg (by simpa using hoa)] at hq ⊢
      exact hold hq
  case refine_5 =>
    intro e he hs
    rcases List.mem_append.1 he with he | he
    · obtain ⟨route, hroute, hmem⟩ := h.routed e he hs
      refine ⟨_, List.mem_map_of_mem hroute, ?_⟩
      split
      · exact List.mem_append_left _ hmem
      · exact hmem
    · rw [List.mem_singleton.1 he]
      refine ⟨_, List.mem_map_of_mem hmine, ?_⟩
      rw [if_pos (by simpa using hon)]
      simp
  case refine_6 =>
    intro route hroute
    obtain ⟨a, ha, rfl⟩ := List.mem_map.1 hroute
    split <;> exact h.kin a ha
  case refine_7 =>
    intro a ha b hb hact hact' heq
    obtain ⟨a', ha', rfl⟩ := List.mem_map.1 ha
    obtain ⟨b', hb', rfl⟩ := List.mem_map.1 hb
    have hsame : a' = b' := by
      refine h.distinct a' ha' b' hb' ?_ ?_ ?_
      · revert hact; split <;> exact id
      · revert hact'; split <;> exact id
      · revert heq; split <;> split <;> exact id
    rw [hsame]
  case refine_8 =>
    have hnew (e : BarEntry) (he : e ∈ board) (heq : e.bars = owner.bars) (ρ' : BarReading)
        (hρ' : ρ' ∈ e.reading) : ρ' = ρ :=
      h.same e he owner howner heq ρ' hρ' ρ (BarEntry.mem_reading.2 hρ)
    intro e he e' he' heq σ hσ σ' hσ'
    rcases List.mem_append.1 he with he | he
    · rcases List.mem_append.1 he' with he' | he'
      · exact h.same e he e' he' heq σ hσ σ' hσ'
      · rw [List.mem_singleton.1 he'] at hσ' heq
        obtain rfl := BarStanding.reads.inj (BarEntry.mem_reading.1 hσ')
        exact hnew e he heq σ hσ
    · rw [List.mem_singleton.1 he] at hσ heq
      obtain rfl := BarStanding.reads.inj (BarEntry.mem_reading.1 hσ)
      rcases List.mem_append.1 he' with he' | he'
      · exact (hnew e' he' heq.symm σ' hσ').symm
      · rw [List.mem_singleton.1 he'] at hσ'
        exact BarStanding.reads.inj (BarEntry.mem_reading.1 hσ')

end Routed

lemma SubFits.append (h : SubFits board sub) (e : BarEntry) :
    SubFits (board ++ [e]) sub := by
  obtain ⟨e', he', hrest⟩ := h
  exact ⟨e', List.mem_append_left _ he', hrest⟩

namespace Boarded

variable {Bar : Type} {d : BarDesk Bar}

lemma runningStream_spec (h : Boarded d board) (bars : Bars) :
    match d.runningStream bars with
    | some sub => ∃ e ∈ board, e.bars = bars ∧ e.reqId = sub.reqId ∧ ∃ ρ, e.standing = .reads ρ ∧
        sub.ticker = some ρ.ticker ∧ sub.minTick = ρ.minTick ∧ sub.sizeTick = ρ.sizeTick
    | none => board.readingOf bars = none := by
  cases hrun : d.runningStream bars with
  | none =>
      unfold BarDesk.runningStream at hrun
      rw [List.findSome?_eq_none_iff] at hrun
      cases hread : board.readingOf bars with
      | none => rfl
      | some ρ =>
          obtain ⟨e, he, rfl, hρ⟩ := Routed.exists_of_readingOf hread
          have hs := BarEntry.mem_reading.1 hρ
          obtain ⟨sub, hsub, heq⟩ := h.held e he
          obtain ⟨e', he', heq', hreads, -⟩ := h.subs sub hsub
          obtain rfl := h.routes.eq_of_reqId he' he (heq'.trans heq)
          have hactive : d.barRouteActive e'.reqId = true := by
            rw [BarDesk.barRouteActive_iff h.routes he']
            simp [hs]
          have hnone := hrun e'.request (List.mem_filter.2
            ⟨h.resub ▸ List.mem_map_of_mem he', by simp [hactive]⟩)
          rw [List.find?_eq_none] at hnone
          exact absurd (hnone sub hsub) (by simp [heq, (hreads ρ hs).1])
  | some sub =>
      obtain ⟨r, hr, hfind⟩ := List.exists_of_findSome?_eq_some hrun
      rw [List.mem_filter, h.resub, List.mem_map, decide_eq_true_eq] at hr
      obtain ⟨⟨e, he, rfl⟩, hbars, hactive⟩ := hr
      rw [BarEntry.request_reqId, BarDesk.barRouteActive_iff h.routes he] at hactive
      have hfound := List.find?_some hfind
      have hsome : sub.reqId = e.reqId ∧ sub.ticker.isSome = true := of_decide_eq_true hfound
      obtain ⟨e', he', heq', hreads, hwaits⟩ := h.subs sub (List.mem_of_find?_eq_some hfind)
      obtain rfl := h.routes.eq_of_reqId he' he (heq'.trans hsome.1)
      refine ⟨e', he, hbars, heq', ?_⟩
      cases hs : e'.standing with
      | waiting => simp [hwaits hs] at hsome
      | silent => exact absurd hs hactive
      | reads ρ => exact ⟨ρ, rfl, hreads ρ hs⟩

lemma ask (h : Boarded d board) {r : ℕ} (hr : ∀ e ∈ board, e.reqId ≠ r) {bars : Bars}
    (hbars : bars.conId ≠ 0) : Boarded (d.sendRealtimeBarSubscribe r bars).2 (board.ask r bars) := by
  have hleave := leave_eq_self r hr
  have hresub : d.rtbarResub.filter (·.reqId ≠ r) = d.rtbarResub := by
    rw [h.filter_resub, hleave, h.resub]
  have hd : { d with rtbarResub := d.rtbarResub } = d := rfl
  unfold BarDesk.sendRealtimeBarSubscribe BarBoard.ask
  simp only [hresub, hleave]
  rw [hd]
  have hspec := h.runningStream_spec bars
  have hown (standing : BarStanding) (sub : BarSub) (hsub : sub.reqId = r)
      (e : BarEntry) (he : e ∈ board ++ [⟨r, bars, standing⟩]) :
      ∃ s ∈ d.rtbarSubs ++ [sub], s.reqId = e.reqId := by
    rcases List.mem_append.1 he with he | he
    · obtain ⟨s, hs, heq⟩ := h.held e he
      exact ⟨s, List.mem_append_left _ hs, heq⟩
    · rw [List.mem_singleton.1 he]
      exact ⟨sub, by simp, hsub⟩
  cases hrun : d.runningStream bars with
  | none =>
      rw [hrun] at hspec
      simp only [hspec, Option.map_none, Option.getD_none]
      refine ⟨h.routes.wait hr hbars, ?_, hown _ _ rfl, ?_⟩
      · intro sub hsub
        rcases List.mem_append.1 hsub with hsub | hsub
        · exact (h.subs sub hsub).append _
        · rw [List.mem_singleton.1 hsub]
          exact ⟨_, List.mem_append_right _ List.mem_cons_self, rfl, by simp, fun _ => rfl⟩
      · simp [h.resub, BarEntry.request]
  | some sub =>
      rw [hrun] at hspec
      obtain ⟨owner, howner, rfl, heq, ρ, hρ, hn, hm, hz⟩ := hspec
      have hread := h.routes.readingOf_eq howner (BarEntry.mem_reading.2 hρ)
      simp only [hread, Option.map_some, Option.getD_some]
      refine ⟨heq ▸ h.routes.join hr howner hρ, ?_, hown _ _ rfl, ?_⟩
      · intro s hs
        rcases List.mem_append.1 hs with hs | hs
        · exact (h.subs s hs).append _
        · rw [List.mem_singleton.1 hs]
          refine ⟨_, List.mem_append_right _ List.mem_cons_self, rfl, fun σ hσ => ?_, by simp⟩
          obtain rfl := BarStanding.reads.inj hσ
          exact ⟨hn, hm, hz⟩
      · simp [h.resub, BarEntry.request]

end Boarded

end IbkrDx
