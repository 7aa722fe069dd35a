import IbkrDx.Engine.BarRoutes

/-!
# A number is given

What it does to the routes and to the board.
-/

namespace IbkrDx

variable {route : BarRoute} {r : ℕ} {routes : List BarRoute} {board : BarBoard} {sub : BarSub}

/-- The routes once a request is put on the target, those that lose their number off. -/
def givenRoutes (off : BarRoute → BarRoute) (target : Option BarRoute) (asked : RtBarRequest)
    (n : ℕ) (fresh : BarRoute) (routes : List BarRoute) : List BarRoute :=
  ((routes.map fun x =>
      if some x = target then ((off x).without asked.reqId).take asked n
      else (off x).without asked.reqId) ++
    if target = none then [fresh.take asked n] else []).filter (·.readers ≠ [])

/-- What a number that is given does: to the routes, `off`, and to what is on the board, `upd`. -/
structure Assigns (routes : List BarRoute) (board : BarBoard) (asked : RtBarRequest) (n : ℕ)
    (m z : F64) (off : BarRoute → BarRoute) (target : Option BarRoute) (upd : BarEntry → BarEntry) :
    Prop where
  keeps : ∀ x, (off x).readers = x.readers ∧ (off x).contracts = x.contracts ∧
    (off x).minTick = x.minTick ∧ (off x).sizeTick = x.sizeTick
  still : ∀ x, (off x).active = true → off x = x
  /-- Nobody else is left with the number. -/
  alone : ∀ x ∈ routes, some x ≠ target → (off x).active = true → x.ticker ≠ some n
  takes : ∀ a ∈ target, a ∈ routes ∧ a.active = true ∧ off a = a ∧
    ∀ c ∈ a.contracts, c.bars.sameStream asked.bars
  entry : ∀ e, (upd e).reqId = e.reqId ∧ (upd e).bars = e.bars
  mine : ∀ e ∈ board, e.reqId = asked.reqId → e.bars = asked.bars ∧ (upd e).standing =
    .reads ⟨n, (target.map (·.minTick)).getD m, (target.map (·.sizeTick)).getD z⟩
  others : ∀ x ∈ routes, ∀ e ∈ board, e.reqId ∈ x.readers → e.reqId ≠ asked.reqId →
    (upd e).standing = if some x = target then .reads ⟨n, x.minTick, x.sizeTick⟩
      else if (off x).active then e.standing else .silent
  waits : ∀ e ∈ board, e.standing = .waiting → e.reqId ≠ asked.reqId → (upd e).standing = .waiting
  same : ∀ e ∈ board, ∀ e' ∈ board, e.bars = e'.bars → ∀ ρ ∈ (upd e).reading,
    ∀ ρ' ∈ (upd e').reading, ρ = ρ'

variable {asked : RtBarRequest}

lemma BarRoute.mem_readers_take {n : ℕ} :
    r ∈ (route.take asked n).readers ↔ r ∈ route.readers ∨ r = asked.reqId := by
  simp [take]

lemma BarRoute.mem_contracts_take {n : ℕ}
    {c : RtBarRequest} (hc : c ∈ (route.take asked n).contracts) :
    c ∈ route.contracts ∨ c = asked := by
  unfold take at hc
  dsimp only at hc
  split at hc
  · exact .inl hc
  · simpa using hc

lemma BarRoute.contracts_take {n : ℕ}
    {c : RtBarRequest} (hc : c ∈ route.contracts) : c ∈ (route.take asked n).contracts := by
  unfold take
  dsimp only
  split
  · exact hc
  · exact List.mem_append_left _ hc

lemma BarRoute.listed_take (route : BarRoute) (asked : RtBarRequest) (n : ℕ) :
    ∃ c ∈ (route.take asked n).contracts, c.bars = asked.bars := by
  unfold take
  dsimp only
  split
  · next hlists =>
    obtain ⟨c, hc, hsame⟩ := List.any_eq_true.1 hlists
    exact ⟨c, hc, (of_decide_eq_true hsame).1⟩
  · exact ⟨asked, by simp, rfl⟩

namespace Assigns

variable {n : ℕ} {m z : F64}
  {off : BarRoute → BarRoute} {target : Option BarRoute} {upd : BarEntry → BarEntry}

lemma mem_givenRoutes {route : BarRoute} :
    route ∈ givenRoutes off target asked n ⟨[], [], some n, true, m, z⟩ routes ↔
      ((∃ x ∈ routes, (if some x = target then ((off x).without asked.reqId).take asked n
          else (off x).without asked.reqId) = route) ∨
        (target = none ∧ route = ⟨[asked], [asked.reqId], some n, true, m, z⟩)) ∧
        route.readers ≠ [] := by
  unfold givenRoutes
  rw [List.mem_filter, List.mem_append, List.mem_map, decide_eq_true_eq]
  refine and_congr_left fun _ => or_congr_right ?_
  by_cases ht : target = none
  · rw [if_pos ht, List.mem_singleton]
    exact ⟨fun heq => ⟨ht, heq⟩, And.right⟩
  · rw [if_neg ht]
    exact ⟨fun hmem => absurd hmem (by simp), fun hmem => absurd hmem.1 ht⟩

variable (g : Assigns routes board asked n m z off target upd)
include g

lemma mem_readers {x : BarRoute} {r : ℕ} :
    r ∈ (if some x = target then ((off x).without asked.reqId).take asked n
        else (off x).without asked.reqId).readers ↔
      (r ∈ x.readers ∧ r ≠ asked.reqId) ∨ (some x = target ∧ r = asked.reqId) := by
  by_cases hx : some x = target
  · rw [if_pos hx, BarRoute.mem_readers_take, BarRoute.mem_readers_without, (g.keeps x).1]
    simp [hx]
  · rw [if_neg hx, BarRoute.mem_readers_without, (g.keeps x).1]
    simp [hx]

lemma apart (h : Routed routes board) :
    (givenRoutes off target asked n ⟨[], [], some n, true, m, z⟩ routes).Pairwise
      fun a b => ∀ r ∈ a.readers, r ∉ b.readers := by
  refine List.Pairwise.filter _ (List.pairwise_append.2 ⟨?_, ?_, ?_⟩)
  · refine List.pairwise_map.2 ((h.apart.and h.nodup).imp fun {a b} hab r hr hr' => ?_)
    rw [g.mem_readers] at hr hr'
    rcases hr with ⟨hr, hne⟩ | ⟨ha, hr⟩
    · rcases hr' with ⟨hr', _⟩ | ⟨_, hr'⟩
      · exact hab.1 r hr hr'
      · exact hne hr'
    · rcases hr' with ⟨_, hne⟩ | ⟨hb, _⟩
      · exact hne hr
      · exact hab.2 (Option.some.inj (ha.trans hb.symm))
  · split <;> simp
  · intro a ha b hb r hr hr'
    split at hb
    · next hnone =>
      obtain ⟨x, -, rfl⟩ := List.mem_map.1 ha
      rw [g.mem_readers] at hr
      rw [List.mem_singleton.1 hb, BarRoute.mem_readers_take] at hr'
      have hr' : r = asked.reqId := by simpa using hr'
      rcases hr with ⟨_, hne⟩ | ⟨hx, _⟩
      · exact hne hr'
      · rw [hnone] at hx
        exact absurd hx (by simp)
    · exact absurd hb (by simp)

lemma carried_other (h : Routed routes board) {x : BarRoute} (hx : x ∈ routes) {r : ℕ}
    (hr : r ∈ x.readers) (hne : r ≠ asked.reqId) : ∃ e ∈ board.map upd, e.reqId = r ∧
      (if some x = target then ((off x).without asked.reqId).take asked n
        else (off x).without asked.reqId).Carries e := by
  obtain ⟨e, he, rfl, ⟨c, hc, hbars⟩, hstands⟩ := h.carried x hx r hr
  refine ⟨upd e, List.mem_map_of_mem he, (g.entry e).1, ?_⟩
  have hs := g.others x hx e he hr hne
  have hcontracts : ((off x).without asked.reqId).contracts = x.contracts := (g.keeps x).2.1
  by_cases ht : some x = target
  · rw [if_pos ht] at hs ⊢
    obtain ⟨-, -, hoff, -⟩ := g.takes x ht.symm
    refine ⟨⟨c, BarRoute.contracts_take (hcontracts ▸ hc), hbars.trans (g.entry e).2.symm⟩,
      .inl ⟨rfl, n, rfl, ?_⟩⟩
    rw [hs, hoff]
    rfl
  · rw [if_neg ht] at hs ⊢
    refine ⟨⟨c, hcontracts ▸ hc, hbars.trans (g.entry e).2.symm⟩, ?_⟩
    by_cases hactive : (off x).active = true
    · rw [if_pos hactive] at hs
      have hself := g.still x hactive
      rw [hself] at hactive ⊢
      rw [hs]
      exact hstands
    · rw [if_neg hactive] at hs
      exact .inr ⟨by simpa [BarRoute.without] using hactive, hs⟩

/-- **Giving a number keeps the routes and the board together.** -/
theorem routed (h : Routed routes board) (hasked : ∃ e ∈ board, e.reqId = asked.reqId) :
    Routed (givenRoutes off target asked n ⟨[], [], some n, true, m, z⟩ routes)
      (board.map upd) := by
  obtain ⟨e₀, he₀, heq₀⟩ := hasked
  obtain ⟨hbars₀, hs₀⟩ := g.mine e₀ he₀ heq₀
  have hkeep (a : BarRoute) (ha : a ∈ target) : (off a).minTick = a.minTick ∧
      (off a).sizeTick = a.sizeTick := ⟨(g.keeps a).2.2.1, (g.keeps a).2.2.2⟩
  refine ⟨?_, ?_, g.apart h, ?_, ?_, ?_, ?_, ?_, ?_⟩
  case refine_1 =>
    rw [List.map_map]
    exact (List.map_congr_left fun e _ => (g.entry e).1) ▸ h.once
  case refine_2 =>
    intro e he
    obtain ⟨e', he', rfl⟩ := List.mem_map.1 he
    rw [(g.entry e').2]
    exact h.named e' he'
  case refine_3 =>
    intro route hroute
    obtain ⟨hfrom, hne⟩ := mem_givenRoutes.1 hroute
    refine ⟨?_, hne⟩
    rcases hfrom with ⟨x, hx, rfl⟩ | ⟨-, rfl⟩
    · have hnodup : ((off x).without asked.reqId).readers.Nodup := by
        have := (h.read x hx).1
        rw [← (g.keeps x).1] at this
        exact this.filter _
      by_cases ht : some x = target
      · rw [if_pos ht]
        refine List.nodup_append.2 ⟨hnodup, by simp, ?_⟩
        intro r hr r' hr'
        rw [List.mem_singleton.1 hr']
        exact (BarRoute.mem_readers_without.1 hr).2
      · rw [if_neg ht]
        exact hnodup
    · simp
  case refine_4 =>
    intro route hroute r hr
    rcases (mem_givenRoutes.1 hroute).1 with ⟨x, hx, rfl⟩ | ⟨hnone, rfl⟩
    · rcases g.mem_readers.1 hr with ⟨hrx, hne⟩ | ⟨ht, rfl⟩
      · exact g.carried_other h hx hrx hne
      · refine ⟨upd e₀, List.mem_map_of_mem he₀, (g.entry e₀).1.trans heq₀, ?_⟩
        rw [if_pos ht]
        obtain ⟨c, hc, hbars⟩ := BarRoute.listed_take ((off x).without asked.reqId) asked n
        refine ⟨⟨c, hc, hbars.trans (hbars₀.symm.trans (g.entry e₀).2.symm)⟩, .inl ⟨rfl, n, rfl, ?_⟩⟩
        rw [hs₀, ← ht]
        obtain ⟨hm, hz⟩ := hkeep x ht.symm
        simp only [Option.map_some, Option.getD_some, BarRoute.take, BarRoute.without, hm, hz]
    · refine ⟨upd e₀, List.mem_map_of_mem he₀, ?_, ⟨asked, by simp, ?_⟩, .inl ⟨rfl, n, rfl, ?_⟩⟩
      · rw [(g.entry e₀).1, heq₀]
        exact (List.mem_singleton.1 hr).symm
      · rw [(g.entry e₀).2, hbars₀]
      · rw [hs₀, hnone]
        rfl
  case refine_5 =>
    have hmine : ∃ route ∈ givenRoutes off target asked n ⟨[], [], some n, true, m, z⟩ routes,
        asked.reqId ∈ route.readers := by
      cases ht : target with
      | none =>
          subst ht
          exact ⟨_, mem_givenRoutes.2 ⟨.inr ⟨rfl, rfl⟩, by simp⟩, by simp⟩
      | some a =>
          have hin : asked.reqId ∈ (if some a = target then
              ((off a).without asked.reqId).take asked n
              else (off a).without asked.reqId).readers := g.mem_readers.2 (.inr ⟨ht.symm, rfl⟩)
          rw [← ht]
          exact ⟨_, mem_givenRoutes.2 ⟨.inl ⟨a, (g.takes a ht).1, rfl⟩, List.ne_nil_of_mem hin⟩, hin⟩
    intro e he hs
    obtain ⟨e', he', rfl⟩ := List.mem_map.1 he
    rw [(g.entry e').1]
    by_cases hr : e'.reqId = asked.reqId
    · rw [hr]
      exact hmine
    · obtain ⟨x, hx, hmem⟩ := h.routed e' he' fun hw => hs (g.waits e' he' hw hr)
      have hin := g.mem_readers.2 (.inl ⟨hmem, hr⟩)
      exact ⟨_, mem_givenRoutes.2 ⟨.inl ⟨x, hx, rfl⟩, List.ne_nil_of_mem hin⟩, hin⟩
  case refine_6 =>
    intro route hroute c hc c' hc'
    rcases (mem_givenRoutes.1 hroute).1 with ⟨x, hx, rfl⟩ | ⟨-, rfl⟩
    · have hcontracts : ((off x).without asked.reqId).contracts = x.contracts := (g.keeps x).2.1
      by_cases ht : some x = target
      · rw [if_pos ht] at hc hc'
        have hkin := (g.takes x ht.symm).2.2.2
        rcases BarRoute.mem_contracts_take hc with hc | rfl
        · rcases BarRoute.mem_contracts_take hc' with hc' | rfl
          · exact h.kin x hx c (hcontracts ▸ hc) c' (hcontracts ▸ hc')
          · exact hkin c (hcontracts ▸ hc)
        · rcases BarRoute.mem_contracts_take hc' with hc' | rfl
          · obtain ⟨h₁, h₂, h₃⟩ := hkin c' (hcontracts ▸ hc')
            exact ⟨h₁.symm, h₂.symm, h₃.symm⟩
          · exact ⟨rfl, rfl, rfl⟩
      · rw [if_neg ht] at hc hc'
        exact h.kin x hx c (hcontracts ▸ hc) c' (hcontracts ▸ hc')
    · rw [List.mem_singleton.1 hc, List.mem_singleton.1 hc']
      exact ⟨rfl, rfl, rfl⟩
  case refine_7 =>
    -- the target alone has the number
    have hother (x : BarRoute) (hx : x ∈ routes) (ht : some x ≠ target)
        (hactive : ((off x).without asked.reqId).active = true) :
        off x = x ∧ x.active = true ∧ x.ticker ≠ some n := by
      have hself := g.still x hactive
      rw [hself] at hactive
      exact ⟨hself, hactive, g.alone x hx ht (by rw [hself]; exact hactive)⟩
    intro a ha b hb hact hact' htick
    rcases (mem_givenRoutes.1 ha).1 with ⟨x, hx, rfl⟩ | ⟨hnone, rfl⟩
    · rcases (mem_givenRoutes.1 hb).1 with ⟨y, hy, rfl⟩ | ⟨hnone, rfl⟩
      · by_cases htx : some x = target
        · by_cases hty : some y = target
          · rw [Option.some.inj (htx.trans hty.symm)]
          · rw [if_pos htx, if_neg hty] at htick
            rw [if_neg hty] at hact'
            obtain ⟨hself, -, hn⟩ := hother y hy hty hact'
            rw [hself] at htick
            exact absurd htick.symm hn
        · rw [if_neg htx] at hact htick ⊢
          obtain ⟨hself, hon, hn⟩ := hother x hx htx hact
          by_cases hty : some y = target
          · rw [if_pos hty, hself] at htick
            exact absurd htick hn
          · rw [if_neg hty] at hact' htick ⊢
            obtain ⟨hself', hon', -⟩ := hother y hy hty hact'
            rw [hself, hself'] at htick ⊢
            rw [h.distinct x hx y hy hon hon' htick]
      · have htx : some x ≠ target := by simp [hnone]
        rw [if_neg htx] at hact htick
        obtain ⟨hself, -, hn⟩ := hother x hx htx hact
        rw [hself] at htick
        exact absurd htick hn
    · rcases (mem_givenRoutes.1 hb).1 with ⟨y, hy, rfl⟩ | ⟨-, rfl⟩
      · have hty : some y ≠ target := by simp [hnone]
        rw [if_neg hty] at hact' htick
        obtain ⟨hself, -, hn⟩ := hother y hy hty hact'
        rw [hself] at htick
        exact absurd htick.symm hn
      · rfl
  case refine_8 =>
    intro e he e' he' heq
    obtain ⟨e₁, he₁, rfl⟩ := List.mem_map.1 he
    obtain ⟨e₂, he₂, rfl⟩ := List.mem_map.1 he'
    rw [(g.entry e₁).2, (g.entry e₂).2] at heq
    exact g.same e₁ he₁ e₂ he₂ heq

end Assigns

/-! ## The routes a number is given on -/

def offOf (displaced givenUp : Option BarRoute) (x : BarRoute) : BarRoute :=
  if some x = givenUp then x.replaced else if some x = displaced then x.quiet else x

lemma offOf_keeps (displaced givenUp : Option BarRoute) (x : BarRoute) :
    (offOf displaced givenUp x).readers = x.readers ∧
      (offOf displaced givenUp x).contracts = x.contracts ∧
      (offOf displaced givenUp x).minTick = x.minTick ∧
      (offOf displaced givenUp x).sizeTick = x.sizeTick := by
  unfold offOf
  split
  · exact ⟨rfl, rfl, rfl, rfl⟩
  · split <;> exact ⟨rfl, rfl, rfl, rfl⟩

lemma offOf_active {displaced givenUp : Option BarRoute} {x : BarRoute}
    (h : (offOf displaced givenUp x).active = true) :
    some x ≠ givenUp ∧ some x ≠ displaced ∧ offOf displaced givenUp x = x := by
  unfold offOf at h ⊢
  by_cases hgiven : some x = givenUp
  · rw [if_pos hgiven] at h
    exact absurd h (by simp [BarRoute.replaced])
  · by_cases hdisplaced : some x = displaced
    · rw [if_neg hgiven, if_pos hdisplaced] at h
      exact absurd h (by simp [BarRoute.quiet])
    · rw [if_neg hgiven, if_neg hdisplaced]
      exact ⟨hgiven, hdisplaced, rfl⟩

lemma offOf_of_ne {displaced givenUp : Option BarRoute} {x : BarRoute} (hgiven : some x ≠ givenUp)
    (hdisplaced : some x ≠ displaced) : offOf displaced givenUp x = x := by
  unfold offOf
  rw [if_neg hgiven, if_neg hdisplaced]

lemma modifyAt_map {f g : BarRoute → BarRoute} (hnodup : routes.Nodup)
    {pos : Option ℕ} (hpos : ∀ i ∈ pos, ∃ a, routes[i]? = some a) :
    modifyAt f pos (routes.map g)
      = routes.map fun x => if some x = pos.bind (routes[·]?) then f (g x) else g x := by
  cases pos with
  | none => simp [modifyAt]
  | some i =>
      obtain ⟨a, ha⟩ := hpos i rfl
      simp only [modifyAt, Option.bind_some, ha, Option.some.injEq]
      exact Removal.modify_map_of_nodup hnodup ha f g

lemma clearedRoutes_eq {Bar : Type} {d : BarDesk Bar} (hnodup : d.rtbarRoutes.Nodup)
    (asked : RtBarRequest) (n : ℕ) (m : F64)
    (hgiven : ∀ i ∈ replacedRoute d.rtbarRoutes asked n m, ∃ a, d.rtbarRoutes[i]? = some a)
    (hdisplaced : ∀ i ∈ displacedRoute d.rtbarRoutes asked n m, ∃ a, d.rtbarRoutes[i]? = some a) :
    d.clearedRoutes asked n m = d.rtbarRoutes.map fun x =>
      (offOf ((displacedRoute d.rtbarRoutes asked n m).bind (d.rtbarRoutes[·]?))
        ((replacedRoute d.rtbarRoutes asked n m).bind (d.rtbarRoutes[·]?)) x).without
          asked.reqId := by
  unfold BarDesk.clearedRoutes
  have hquiet := modifyAt_map (f := BarRoute.quiet) (g := id) hnodup hdisplaced
  rw [List.map_id] at hquiet
  rw [hquiet, modifyAt_map hnodup hgiven, List.map_map]
  refine List.map_congr_left fun x _ => ?_
  simp only [Function.comp_apply, id_eq, offOf]
  split
  · split <;> rfl
  · rfl

def takenRoute (off : BarRoute → BarRoute) (target : Option BarRoute) (asked : RtBarRequest) (n : ℕ)
    (m z : F64) : BarRoute :=
  match target with
  | some a => ((off a).without asked.reqId).take asked n
  | none => ⟨[asked], [asked.reqId], some n, true, m, z⟩

section

variable {Bar : Type} {d : BarDesk Bar} {asked : RtBarRequest} {n : ℕ} {m : F64}
  {displaced givenUp target : Option ℕ}

lemma routeTo_eq (z : F64) (hnodup : d.rtbarRoutes.Nodup)
    (hd : displacedRoute d.rtbarRoutes asked n m = displaced)
    (hg : replacedRoute d.rtbarRoutes asked n m = givenUp)
    (ht : targetRoute d.rtbarRoutes asked n m = target)
    (hat : ∀ pos : Option ℕ, pos = displaced ∨ pos = givenUp ∨ pos = target → ∀ i ∈ pos,
      ∃ a, d.rtbarRoutes[i]? = some a) :
    d.routeTo asked n m z =
      (((givenUp.bind (d.rtbarRoutes[·]?)).bind (·.ticker)).toList.flatMap
          fun number => d.sendHistoricalCancel (.number number),
        { d with
          rtbarSubs := BarDesk.number (takenRoute (offOf (displaced.bind (d.rtbarRoutes[·]?))
              (givenUp.bind (d.rtbarRoutes[·]?))) (target.bind (d.rtbarRoutes[·]?)) asked n m z) n
            ((givenUp.bind (d.rtbarRoutes[·]?)).elim d.rtbarSubs
              fun route => BarDesk.unnumber route d.rtbarSubs)
          rtbarRoutes := givenRoutes (offOf (displaced.bind (d.rtbarRoutes[·]?))
            (givenUp.bind (d.rtbarRoutes[·]?))) (target.bind (d.rtbarRoutes[·]?)) asked n
              ⟨[], [], some n, true, m, z⟩ d.rtbarRoutes }) := by
  have hcleared := clearedRoutes_eq hnodup asked n m
    (fun i hi => hat _ (.inr (.inl rfl)) i (hg ▸ hi)) fun i hi => hat _ (.inl rfl) i (hd ▸ hi)
  rw [hd, hg] at hcleared
  unfold BarDesk.routeTo givenRoutes
  simp only [hg, ht, hcleared]
  cases target with
  | none =>
      simp only [Option.getD_none, if_true, Option.bind_none, reduceCtorEq, if_false]
      rw [Removal.modify_length_append_singleton, List.getElem?_concat_length]
      simp [takenRoute, BarRoute.take, BarRoute.lists]
  | some i =>
      obtain ⟨a, ha⟩ := hat _ (.inr (.inr rfl)) i rfl
      simp only [Option.getD_some, reduceCtorEq, if_false, Option.bind_some, ha,
        List.append_nil, Option.some.injEq]
      rw [Removal.modify_map_of_nodup hnodup ha]
      have hget : (d.rtbarRoutes.map fun x => if x = a then
          ((offOf (displaced.bind (d.rtbarRoutes[·]?)) (givenUp.bind (d.rtbarRoutes[·]?)) x).without
            asked.reqId).take asked n
          else (offOf (displaced.bind (d.rtbarRoutes[·]?)) (givenUp.bind (d.rtbarRoutes[·]?))
            x).without asked.reqId)[i]? = some (((offOf (displaced.bind (d.rtbarRoutes[·]?))
              (givenUp.bind (d.rtbarRoutes[·]?)) a).without asked.reqId).take asked n) := by
        rw [List.getElem?_map, ha, Option.map_some, if_pos rfl]
      rw [hget]
      rfl

end

namespace Assigns

variable {n : ℕ} {m z : F64}
  {off : BarRoute → BarRoute} {target : Option BarRoute} {upd : BarEntry → BarEntry}

lemma mem_takenRoute {r : ℕ} (g : Assigns routes board asked n m z off target upd) :
    r ∈ (takenRoute off target asked n m z).readers ↔
      r = asked.reqId ∨ (r ≠ asked.reqId ∧ ∃ a ∈ target, r ∈ a.readers) := by
  cases target with
  | none => simp [takenRoute]
  | some a =>
      unfold takenRoute
      rw [BarRoute.mem_readers_take, BarRoute.mem_readers_without, (g.keeps a).1]
      simp [or_comm, and_comm]

lemma units_takenRoute (g : Assigns routes board asked n m z off target upd) :
    (takenRoute off target asked n m z).minTick = (target.map (·.minTick)).getD m ∧
      (takenRoute off target asked n m z).sizeTick = (target.map (·.sizeTick)).getD z := by
  cases target with
  | none => exact ⟨rfl, rfl⟩
  | some a => exact ⟨(g.keeps a).2.2.1, (g.keeps a).2.2.2⟩

lemma reads_taken (g : Assigns routes board asked n m z off target upd) {e : BarEntry}
    (he : e ∈ board) (hin : e.reqId ∈ (takenRoute off target asked n m z).readers) :
    (upd e).standing = .reads ⟨n, (takenRoute off target asked n m z).minTick,
      (takenRoute off target asked n m z).sizeTick⟩ := by
  rw [g.units_takenRoute.1, g.units_takenRoute.2]
  rcases g.mem_takenRoute.1 hin with hr | ⟨hne, a, ha, hra⟩
  · exact (g.mine e he hr).2
  · have hs := g.others a (g.takes a ha).1 e he hra hne
    rw [if_pos (Option.mem_def.1 ha).symm] at hs
    rw [hs, Option.mem_def.1 ha]
    rfl

/-- **Giving a number keeps the subscriptions and the board together.** -/
theorem subFits (g : Assigns routes board asked n m z off target upd) (h : Routed routes board)
    {subs : List BarSub} (hsubs : ∀ sub ∈ subs, sub.reqId ≠ asked.reqId → SubFits board sub)
    (hasked : ∃ e ∈ board, e.reqId = asked.reqId) {givenUp : Option BarRoute}
    (hgiven : ∀ x ∈ givenUp, x ∈ routes ∧ (off x).active = false ∧ some x ≠ target) :
    ∀ sub ∈ BarDesk.number (takenRoute off target asked n m z) n
      (givenUp.elim subs fun route => BarDesk.unnumber route subs), SubFits (board.map upd) sub := by
  intro sub' hsub'
  obtain ⟨sub₁, hsub₁, rfl⟩ := List.mem_map.1 hsub'
  -- the subscription as it was, its number taken where the route is given up
  obtain ⟨sub, hsub, hreq, hkept⟩ : ∃ sub ∈ subs, sub₁.reqId = sub.reqId ∧
      (sub₁ = sub ∨ (sub₁.ticker = none ∧ ∃ x ∈ givenUp, sub.reqId ∈ x.readers)) := by
    cases givenUp with
    | none => exact ⟨sub₁, hsub₁, rfl, .inl rfl⟩
    | some x =>
        obtain ⟨sub, hsub, rfl⟩ := List.mem_map.1 hsub₁
        by_cases hx : sub.reqId ∈ x.readers
        · rw [if_pos (by simpa using hx)]
          exact ⟨sub, hsub, rfl, .inr ⟨rfl, x, rfl, hx⟩⟩
        · rw [if_neg (by simpa using hx)]
          exact ⟨sub, hsub, rfl, .inl rfl⟩
  have hsome : ∃ e ∈ board, e.reqId = sub.reqId := by
    by_cases hr : sub.reqId = asked.reqId
    · rw [hr]
      exact hasked
    · obtain ⟨e, he, heq, -⟩ := hsubs sub hsub hr
      exact ⟨e, he, heq⟩
  obtain ⟨e, he, heq⟩ := hsome
  by_cases hin : sub₁.reqId ∈ (takenRoute off target asked n m z).readers
  · rw [if_pos (by simpa using hin)]
    have hs := g.reads_taken he (by rwa [heq, ← hreq])
    refine ⟨upd e, List.mem_map_of_mem he, (g.entry e).1.trans (heq.trans hreq.symm), ?_, ?_⟩
    · intro ρ hρ
      obtain rfl := BarStanding.reads.inj (hρ.symm.trans hs)
      exact ⟨rfl, rfl, rfl⟩
    · intro hw
      exact absurd (hw.symm.trans hs) (by simp)
  · rw [if_neg (by simpa using hin)]
    have hnot : sub.reqId ≠ asked.reqId ∧ ∀ a ∈ target, sub.reqId ∉ a.readers := by
      rw [hreq, g.mem_takenRoute] at hin
      push Not at hin
      exact ⟨hin.1, hin.2 hin.1⟩
    obtain ⟨e', he', heq', hreads, hwaits⟩ := hsubs sub hsub hnot.1
    obtain rfl := h.eq_of_reqId he' he (heq'.trans heq.symm)
    refine ⟨upd e', List.mem_map_of_mem he, (g.entry e').1.trans (heq.trans hreq.symm), ?_, ?_⟩
    · intro ρ hρ
      have hs : e'.standing ≠ .waiting := fun hw =>
        absurd (hρ.symm.trans (g.waits e' he hw (heq ▸ hnot.1))) (by simp)
      obtain ⟨x, hx, hmem⟩ := h.routed e' he hs
      have hother := g.others x hx e' he hmem (heq ▸ hnot.1)
      have ht : some x ≠ target := fun ht => hnot.2 x ht.symm (heq ▸ hmem)
      rw [if_neg ht] at hother
      by_cases hactive : (off x).active = true
      · rw [if_pos hactive] at hother
        rcases hkept with rfl | ⟨-, y, hy, hmem'⟩
        · exact hreads ρ (hother.symm.trans hρ)
        · obtain ⟨hy', hoff, -⟩ := hgiven y hy
          obtain rfl := h.eq_of_reader hx hy' hmem (heq ▸ hmem')
          exact absurd (hactive.symm.trans hoff) (by simp)
      · rw [if_neg hactive] at hother
        exact absurd (hρ.symm.trans hother) (by simp)
    · intro hw
      have hs : e'.standing = .waiting := by
        by_contra hs
        obtain ⟨x, hx, hmem⟩ := h.routed e' he hs
        have hother := g.others x hx e' he hmem (heq ▸ hnot.1)
        have ht : some x ≠ target := fun ht => hnot.2 x ht.symm (heq ▸ hmem)
        rw [if_neg ht, hw] at hother
        split at hother
        · exact hs hother.symm
        · exact absurd hother (by simp)
      rcases hkept with rfl | ⟨hnone, -⟩
      · exact hwaits hs
      · exact hnone

end Assigns

/-! ## The stream a number is of -/

namespace Routed

variable (h : Routed routes board)

lemma lists_iff {route : BarRoute} {asked : RtBarRequest} (hne : asked.bars.conId ≠ 0) :
    route.lists asked = true ↔ ∃ c ∈ route.contracts, c.bars = asked.bars := by
  simp [BarRoute.lists, BarRoute.sameContract, hne]

include h

lemma sameStream_of_compatible {route : BarRoute} (hroute : route ∈ routes) {asked : RtBarRequest}
    (hne : asked.bars.conId ≠ 0) (hcompat : route.compatible asked = true) :
    ∀ c ∈ route.contracts, c.bars.sameStream asked.bars := by
  intro c hc
  unfold BarRoute.compatible at hcompat
  split at hcompat
  · exact absurd hcompat (by simp)
  · next primary rest heq =>
    obtain ⟨hwhat, hrth, hfits⟩ := of_decide_eq_true hcompat
    have hprimary : primary ∈ route.contracts := heq ▸ List.mem_cons_self
    obtain ⟨hid, hw, hr⟩ := h.kin route hroute c hc primary hprimary
    refine ⟨hid.trans ?_, hw.trans hwhat, hr.trans hrth⟩
    rcases hfits with hlists | ⟨-, hid'⟩
    · obtain ⟨c', hc', hbars⟩ := (lists_iff hne).1 hlists
      rw [(h.kin route hroute primary hprimary c' hc').1, hbars]
    · exact hid'

lemma compatible_of_sameStream {route : BarRoute} (hroute : route ∈ routes) {asked : RtBarRequest}
    (hne : asked.bars.conId ≠ 0) {c : RtBarRequest} (hc : c ∈ route.contracts)
    (hsame : c.bars.sameStream asked.bars) : route.compatible asked = true := by
  unfold BarRoute.compatible
  split
  · next heq =>
    rw [heq] at hc
    exact absurd hc (by simp)
  · next primary rest heq =>
    have hprimary : primary ∈ route.contracts := heq ▸ List.mem_cons_self
    obtain ⟨hid, hw, hr⟩ := h.kin route hroute primary hprimary c hc
    obtain ⟨hid', hw', hr'⟩ := hsame
    exact decide_eq_true ⟨hw.trans hw', hr.trans hr', .inr ⟨by rw [hid, hid']; exact hne,
      hid.trans hid'⟩⟩

lemma streamOf_eq_some {route : BarRoute} (hroute : route ∈ routes) (hactive : route.active = true)
    {n : ℕ} (hn : route.ticker = some n) {asked : RtBarRequest} (hne : asked.bars.conId ≠ 0)
    (hcompat : route.compatible asked = true) :
    board.streamOf asked.bars n = some ⟨n, route.minTick, route.sizeTick⟩ := by
  obtain ⟨r, hr⟩ := List.exists_mem_of_ne_nil _ (h.read route hroute).2
  obtain ⟨e, he, -, ⟨c, hc, hbars⟩, k, hk, hs⟩ := h.reads_of_active hroute hactive hr
  obtain rfl := Option.some.inj (hn.symm.trans hk)
  have hkin := hbars ▸ h.sameStream_of_compatible hroute hne hcompat c hc
  unfold BarBoard.streamOf
  cases hfind : ((board.filter (·.bars.sameStream asked.bars)).filterMap (·.reading)).find?
      (·.ticker = n) with
  | none =>
      rw [List.find?_eq_none] at hfind
      have hmem : ⟨n, route.minTick, route.sizeTick⟩ ∈
          (board.filter (·.bars.sameStream asked.bars)).filterMap (·.reading) :=
        List.mem_filterMap.2 ⟨e, List.mem_filter.2 ⟨he, by simpa using hkin⟩,
          BarEntry.mem_reading.2 hs⟩
      exact absurd (hfind _ hmem) (by simp)
  | some ρ =>
      obtain ⟨e', he', hρ⟩ := List.mem_filterMap.1 (List.mem_of_find?_eq_some hfind)
      have hfound := List.find?_some hfind
      have hticker : ρ.ticker = n := of_decide_eq_true hfound
      obtain ⟨x, hx, -, hon, htx, hm, hz, -⟩ :=
        h.route_of_reads (List.mem_filter.1 he').1 (BarEntry.mem_reading.1 hρ)
      obtain rfl := h.distinct x hx route hroute hon hactive (by rw [htx, hn, hticker])
      rw [← hm, ← hz, ← hticker]

lemma streamOf_eq_none {n : ℕ} {asked : RtBarRequest} (hne : asked.bars.conId ≠ 0)
    (hcurrent : ∀ route ∈ routes, route.active = true → route.ticker = some n →
      ¬route.compatible asked = true) : board.streamOf asked.bars n = none := by
  unfold BarBoard.streamOf
  rw [List.find?_eq_none]
  intro ρ hρ hticker
  obtain ⟨e, he, hread⟩ := List.mem_filterMap.1 hρ
  rw [List.mem_filter] at he
  have hn : ρ.ticker = n := by simpa using hticker
  obtain ⟨x, hx, -, hon, htx, -, -, c, hc, hbars⟩ :=
    h.route_of_reads he.1 (BarEntry.mem_reading.1 hread)
  exact hcurrent x hx hon (hn ▸ htx) (h.compatible_of_sameStream hx hne hc
    (hbars ▸ of_decide_eq_true he.2))

end Routed

/-! ## A number nobody reads for these bars -/

/-- What an acknowledgement finds: the route that has the number, none that can carry the bars, and
the route they are read on under another, whose readers all ask for them. -/
structure Fresh (routes : List BarRoute) (board : BarBoard) (asked : RtBarRequest) (n : ℕ)
    (current alternate : Option BarRoute) : Prop where
  named : asked.bars.conId ≠ 0
  has : ∀ x ∈ routes, (x.active = true ∧ x.ticker = some n) ↔ some x = current
  other : ∀ x ∈ current, ¬x.compatible asked = true
  listed : ∀ a ∈ alternate, a ∈ routes ∧ a.active = true ∧ a.lists asked = true ∧
    ∀ r ∈ a.readers, ∃ e ∈ board, e.reqId = r ∧ e.bars = asked.bars
  steady : alternate = none → ∀ e ∈ board, e.bars = asked.bars → ∀ ρ ∈ e.reading, ρ.ticker = n

def freshly (board : BarBoard) (reqId : ℕ) (bars : Bars) (stated : BarReading) (e : BarEntry) :
    BarEntry :=
  if e.reqId = reqId then { e with standing := .reads (board.newReading bars stated) }
  else { e with standing := BarBoard.renumbered bars stated e }

namespace Fresh

variable {n : ℕ}
  {current alternate : Option BarRoute} (f : Fresh routes board asked n current alternate)
  (h : Routed routes board)
include f h

lemma reads_alternate {e : BarEntry} (he : e ∈ board) (hbars : e.bars = asked.bars) {ρ : BarReading}
    (hρ : ρ ∈ e.reading) : ρ.ticker ≠ n ∧ ∃ a ∈ alternate, e.reqId ∈ a.readers ∧
      a.ticker = some ρ.ticker ∧ ρ.minTick = a.minTick ∧ ρ.sizeTick = a.sizeTick := by
  obtain ⟨x, hx, hmem, hactive, hticker, hm, hz, c, hc, hcb⟩ :=
    h.route_of_reads he (BarEntry.mem_reading.1 hρ)
  have hn : ρ.ticker ≠ n := by
    intro hn
    have hx' := (f.has x hx).1 ⟨hactive, hn ▸ hticker⟩
    exact f.other x hx'.symm (h.compatible_of_sameStream hx f.named hc
      (by rw [hcb, hbars]; exact ⟨rfl, rfl, rfl⟩))
  refine ⟨hn, ?_⟩
  cases ha : alternate with
  | none => exact absurd (f.steady ha e he hbars ρ hρ) hn
  | some a =>
      obtain ⟨ha', hon, -, hall⟩ := f.listed a ha
      obtain ⟨r, hr⟩ := List.exists_mem_of_ne_nil _ (h.read a ha').2
      obtain ⟨e', he', rfl, hbars'⟩ := hall r hr
      obtain ⟨e'', he'', heq, -, k, hk, hs⟩ := h.reads_of_active ha' hon hr
      obtain rfl := h.eq_of_reqId he'' he' heq
      obtain rfl := h.same e he e'' he'' (hbars.trans hbars'.symm) ρ hρ _ (BarEntry.mem_reading.2 hs)
      obtain rfl := h.distinct x hx a ha' hactive hon (hticker.trans hk.symm)
      exact ⟨x, rfl, hmem, hk, rfl, rfl⟩

lemma readingOf_eq : board.readingOf asked.bars = alternate.bind fun a =>
    a.ticker.map fun k => ⟨k, a.minTick, a.sizeTick⟩ := by
  cases ha : alternate with
  | none =>
      cases hread : board.readingOf asked.bars with
      | none => rfl
      | some ρ =>
          obtain ⟨e, he, hbars, hρ⟩ := Routed.exists_of_readingOf hread
          obtain ⟨-, a, hmem, -⟩ := f.reads_alternate h he hbars hρ
          rw [ha] at hmem
          exact absurd hmem (by simp)
  | some a =>
      obtain ⟨ha', hon, -, hall⟩ := f.listed a ha
      obtain ⟨r, hr⟩ := List.exists_mem_of_ne_nil _ (h.read a ha').2
      obtain ⟨e, he, rfl, hbars⟩ := hall r hr
      obtain ⟨e', he', heq, -, k, hk, hs⟩ := h.reads_of_active ha' hon hr
      obtain rfl := h.eq_of_reqId he' he heq
      rw [← hbars, h.readingOf_eq he' (BarEntry.mem_reading.2 hs)]
      simp [hk]

lemma newReading_eq (m z : F64) : board.newReading asked.bars ⟨n, m, z⟩ =
    ⟨n, ((alternate.filter fun a => sameTick a.minTick m).map (·.minTick)).getD m,
      ((alternate.filter fun a => sameTick a.minTick m).map (·.sizeTick)).getD z⟩ := by
  unfold BarBoard.newReading
  rw [f.readingOf_eq h]
  cases ha : alternate with
  | none => rfl
  | some a =>
      obtain ⟨ha', hon, -, -⟩ := f.listed a ha
      obtain ⟨r, hr⟩ := List.exists_mem_of_ne_nil _ (h.read a ha').2
      obtain ⟨-, -, -, -, k, hk, -⟩ := h.reads_of_active ha' hon hr
      by_cases hsame : sameTick a.minTick m = true
      · simp [hk, hsame, Option.filter_some]
      · simp [hk, hsame, Option.filter_some]

lemma givesUp_eq (hstream : board.streamOf asked.bars n = none) (m z : F64) :
    board.givesUp asked.bars ⟨n, m, z⟩
      = ((alternate.filter fun a => ¬sameTick a.minTick m).bind (·.ticker)).toList := by
  unfold BarBoard.givesUp
  rw [show board.streamOf asked.bars (BarReading.mk n m z).ticker = none from hstream,
    f.readingOf_eq h]
  cases ha : alternate with
  | none => rfl
  | some a =>
      obtain ⟨ha', hon, -, -⟩ := f.listed a ha
      obtain ⟨r, hr⟩ := List.exists_mem_of_ne_nil _ (h.read a ha').2
      obtain ⟨-, -, -, -, k, hk, -⟩ := h.reads_of_active ha' hon hr
      by_cases hsame : sameTick a.minTick m = true <;> simp [hk, hsame, Option.filter_some]

lemma reading_freshly {r : ℕ} {m z : F64} {e : BarEntry} (he : e ∈ board)
    (hbars : e.bars = asked.bars) {σ : BarReading}
    (hσ : σ ∈ (freshly board r asked.bars ⟨n, m, z⟩ e).reading) :
    σ = board.newReading asked.bars ⟨n, m, z⟩ := by
  rw [BarEntry.mem_reading] at hσ
  unfold freshly at hσ
  split at hσ
  · exact (BarStanding.reads.inj hσ).symm
  · dsimp only [BarBoard.renumbered] at hσ
    cases hs : e.standing with
    | waiting => rw [hs] at hσ; exact absurd hσ (by simp)
    | silent => rw [hs] at hσ; exact absurd hσ (by simp)
    | reads ρ =>
        have hρ := BarEntry.mem_reading.2 hs
        obtain ⟨hn, -⟩ := f.reads_alternate h he hbars hρ
        simp only [hs, if_neg hn, hbars, ne_eq, not_true_eq_false, if_false] at hσ
        have hread := h.readingOf_eq he hρ
        rw [hbars] at hread
        unfold BarBoard.newReading
        rw [hread]
        dsimp only
        split at hσ
        · next hsame =>
          rw [if_pos hsame]
          exact (BarStanding.reads.inj hσ).symm
        · exact absurd hσ (by simp)

/-- **What a number that nobody reads for these bars does.** -/
theorem gives {e₀ : BarEntry} (he₀ : e₀ ∈ board) (hasked : asked = e₀.request) (m z : F64) :
    Assigns routes board asked n m z
      (offOf current (alternate.filter fun a => ¬sameTick a.minTick m))
      (alternate.filter fun a => sameTick a.minTick m)
      (freshly board asked.reqId asked.bars ⟨n, m, z⟩) where
  keeps := offOf_keeps _ _
  still x hx := (offOf_active hx).2.2
  alone x hx _ hactive hn := by
    obtain ⟨-, hne, hself⟩ := offOf_active hactive
    rw [hself] at hactive
    exact hne ((f.has x hx).1 ⟨hactive, hn⟩)
  takes a ha := by
    rw [Option.mem_def, Option.filter_eq_some_iff] at ha
    obtain ⟨ha', hon, hlists, -⟩ := f.listed a ha.1
    obtain ⟨c, hc, hbars⟩ := (Routed.lists_iff f.named).1 hlists
    refine ⟨ha', hon, offOf_of_ne ?_ ?_, ?_⟩
    · intro hgiven
      rw [eq_comm, Option.filter_eq_some_iff] at hgiven
      exact absurd ha.2 (by simpa using hgiven.2)
    · intro hcurrent
      exact f.other a hcurrent.symm (h.compatible_of_sameStream ha' f.named hc
        (by rw [hbars]; exact ⟨rfl, rfl, rfl⟩))
    · intro c' hc'
      rw [← hbars]
      exact h.kin a ha' c' hc' c hc
  entry e := by
    unfold freshly
    split <;> exact ⟨rfl, rfl⟩
  mine e he hr := by
    rw [hasked] at hr
    obtain rfl := h.eq_of_reqId he he₀ hr
    refine ⟨by rw [hasked]; rfl, ?_⟩
    unfold freshly
    rw [if_pos (by rw [hasked]; rfl), f.newReading_eq h]
  others x hx e he hmem hne := by
    unfold freshly
    rw [if_neg hne]
    dsimp only [BarBoard.renumbered]
    by_cases hactive : x.active = true
    · obtain ⟨e', he', heq, ⟨c, hc, hcb⟩, k, hk, hs⟩ := h.reads_of_active hx hactive hmem
      obtain rfl := h.eq_of_reqId he' he heq
      have hρ := BarEntry.mem_reading.2 hs
      simp only [hs]
      by_cases hn : k = n
      · -- the number is taken from it
        subst hn
        have hcurrent := (f.has x hx).1 ⟨hactive, hk⟩
        have hfar : ∀ a ∈ alternate, x ≠ a := by
          rintro a ha rfl
          obtain ⟨-, -, hlists, -⟩ := f.listed x ha
          obtain ⟨c', hc', hbars⟩ := (Routed.lists_iff f.named).1 hlists
          exact f.other x hcurrent.symm (h.compatible_of_sameStream hx f.named hc'
            (by rw [hbars]; exact ⟨rfl, rfl, rfl⟩))
        have hoff : (offOf current (alternate.filter fun a => ¬sameTick a.minTick m) x).active
            = false := by
          unfold offOf
          rw [if_pos hcurrent]
          split <;> rfl
        have htarget : some x ≠ alternate.filter fun a => sameTick a.minTick m := by
          intro heq
          rw [eq_comm, Option.filter_eq_some_iff] at heq
          exact hfar x heq.1 rfl
        rw [if_pos rfl, if_neg htarget, hoff]
        rfl
      · have hcurrent : some x ≠ current := fun heq =>
          hn (Option.some.inj (hk.symm.trans ((f.has x hx).2 heq).2))
        rw [if_neg hn]
        by_cases hbars : e'.bars = asked.bars
        · obtain ⟨-, a, ha, hmem', -⟩ := f.reads_alternate h he hbars hρ
          obtain ⟨ha', -⟩ := f.listed a ha
          obtain rfl := h.eq_of_reader hx ha' hmem hmem'
          rw [if_neg (by simp [hbars])]
          by_cases hsame : sameTick x.minTick m = true
          · rw [if_pos hsame, if_pos (by simp [Option.mem_def.1 ha, hsame, Option.filter_some])]
          · have hoff : (offOf current (alternate.filter fun a => ¬sameTick a.minTick m) x).active
                = false := by
              unfold offOf
              rw [if_pos (by simp [Option.mem_def.1 ha, hsame, Option.filter_some])]
              rfl
            rw [if_neg hsame, if_neg (by simp [Option.mem_def.1 ha, hsame, Option.filter_some]), hoff]
            rfl
        · have hfar : ∀ a ∈ alternate, x ≠ a := by
            rintro a ha rfl
            obtain ⟨-, -, -, hall⟩ := f.listed x ha
            obtain ⟨e'', he'', heq'', hbars''⟩ := hall _ hmem
            obtain rfl := h.eq_of_reqId he'' he heq''
            exact hbars hbars''
          have hgiven : some x ≠ alternate.filter fun a => ¬sameTick a.minTick m := by
            intro heq
            rw [eq_comm, Option.filter_eq_some_iff] at heq
            exact hfar x heq.1 rfl
          have htarget : some x ≠ alternate.filter fun a => sameTick a.minTick m := by
            intro heq
            rw [eq_comm, Option.filter_eq_some_iff] at heq
            exact hfar x heq.1 rfl
          rw [if_pos hbars, if_neg htarget, offOf_of_ne hgiven hcurrent, if_pos hactive]
    · -- a silent request stays silent
      have hoff : x.active = false := by simpa using hactive
      obtain ⟨e', he', heq, -, hs⟩ := h.silent_of_inactive hx hoff hmem
      obtain rfl := h.eq_of_reqId he' he heq
      have htarget : some x ≠ alternate.filter fun a => sameTick a.minTick m := by
        intro heq
        rw [eq_comm, Option.filter_eq_some_iff] at heq
        exact hactive (f.listed x heq.1).2.1
      simp only [hs]
      rw [if_neg htarget]
      split <;> rfl
  waits e he hs hne := by
    unfold freshly
    rw [if_neg hne]
    dsimp only [BarBoard.renumbered]
    rw [hs]
  same e he e' he' heq ρ hρ ρ' hρ' := by
    by_cases hbars : e.bars = asked.bars
    · rw [f.reading_freshly h he hbars hρ, f.reading_freshly h he' (heq ▸ hbars) hρ']
    · have hold (e : BarEntry) (he : e ∈ board) (hbars : e.bars ≠ asked.bars) (ρ : BarReading)
          (hρ : ρ ∈ (freshly board asked.reqId asked.bars ⟨n, m, z⟩ e).reading) :
          ρ ∈ e.reading := by
        have hne : e.reqId ≠ asked.reqId := by
          intro hr
          rw [hasked] at hr
          obtain rfl := h.eq_of_reqId he he₀ hr
          exact hbars (by rw [hasked]; rfl)
        rw [BarEntry.mem_reading] at hρ ⊢
        unfold freshly at hρ
        rw [if_neg hne] at hρ
        dsimp only [BarBoard.renumbered] at hρ
        cases hs : e.standing with
        | waiting => rw [hs] at hρ; exact hρ
        | silent => rw [hs] at hρ; exact hρ
        | reads σ =>
            simp only [hs] at hρ
            split at hρ
            · exact absurd hρ (by simp)
            · exact hρ
      exact h.same e he e' he' heq ρ (hold e he hbars ρ hρ) ρ' (hold e' he' (heq ▸ hbars) ρ' hρ')

end Fresh

/-- **What a number that is read for these bars already does.** -/
theorem Routed.gives_compatible
    {n : ℕ} (h : Routed routes board) (hne : asked.bars.conId ≠ 0) {e₀ : BarEntry} (he₀ : e₀ ∈ board)
    (hasked : asked = e₀.request) {a : BarRoute} (ha : a ∈ routes) (hactive : a.active = true)
    (hn : a.ticker = some n) (hcompat : a.compatible asked = true)
    (hsteady : ∀ e ∈ board, e.bars = asked.bars → ∀ ρ ∈ e.reading, ρ.ticker = n) (m z : F64) :
    Assigns routes board asked n m z (offOf none none) (some a) fun e =>
      if e.reqId = asked.reqId then { e with standing := .reads ⟨n, a.minTick, a.sizeTick⟩ }
      else e where
  keeps := offOf_keeps _ _
  still x _ := offOf_of_ne (by simp) (by simp)
  alone x hx hxa hon hxn := by
    rw [offOf_of_ne (by simp) (by simp)] at hon
    exact hxa (congrArg some (h.distinct x hx a ha hon hactive (hxn.trans hn.symm)))
  takes b hb := by
    obtain rfl := Option.some.inj (Option.mem_def.1 hb)
    exact ⟨ha, hactive, offOf_of_ne (by simp) (by simp), h.sameStream_of_compatible ha hne hcompat⟩
  entry e := by split <;> exact ⟨rfl, rfl⟩
  mine e he hr := by
    rw [if_pos hr]
    rw [hasked] at hr
    obtain rfl := h.eq_of_reqId he he₀ hr
    exact ⟨by rw [hasked]; rfl, rfl⟩
  others x hx e he hmem hr := by
    rw [if_neg hr, offOf_of_ne (by simp) (by simp)]
    by_cases hxa : x = a
    · subst hxa
      obtain ⟨e', he', heq, -, k, hk, hs⟩ := h.reads_of_active hx hactive hmem
      obtain rfl := h.eq_of_reqId he' he heq
      obtain rfl := Option.some.inj (hn.symm.trans hk)
      rw [if_pos rfl, hs]
    · rw [if_neg (by simpa using hxa)]
      by_cases hon : x.active = true
      · rw [if_pos hon]
      · obtain ⟨e', he', heq, -, hs⟩ := h.silent_of_inactive hx (by simpa using hon) hmem
        obtain rfl := h.eq_of_reqId he' he heq
        rw [if_neg hon, hs]
  waits e _ hs hr := by
    rw [if_neg hr, hs]
  same e he e' he' heq ρ hρ ρ' hρ' := by
    have hread (e : BarEntry) (he : e ∈ board) (hbars : e.bars = asked.bars) (ρ : BarReading)
        (hρ : ρ ∈ e.reading) : ρ = ⟨n, a.minTick, a.sizeTick⟩ := by
      have hnum := hsteady e he hbars ρ hρ
      obtain ⟨x, hx, -, hon, hticker, hm, hz, -⟩ := h.route_of_reads he (BarEntry.mem_reading.1 hρ)
      obtain rfl := h.distinct x hx a ha hon hactive (by rw [hticker, hn, hnum])
      rw [← hnum, ← hm, ← hz]
    have hmine (e : BarEntry) (he : e ∈ board) (hr : e.reqId = asked.reqId) :
        e.bars = asked.bars := by
      rw [hasked] at hr
      obtain rfl := h.eq_of_reqId he he₀ hr
      rw [hasked]
      rfl
    have hnew (e : BarEntry) (he : e ∈ board) (hbars : e.bars = asked.bars) (ρ : BarReading)
        (hρ : ρ ∈ (if e.reqId = asked.reqId then
          { e with standing := .reads ⟨n, a.minTick, a.sizeTick⟩ } else e).reading) :
        ρ = ⟨n, a.minTick, a.sizeTick⟩ := by
      split at hρ
      · exact (BarStanding.reads.inj (BarEntry.mem_reading.1 hρ)).symm
      · exact hread e he hbars ρ hρ
    by_cases hbars : e.bars = asked.bars
    · rw [hnew e he hbars ρ hρ, hnew e' he' (heq ▸ hbars) ρ' hρ']
    · rw [if_neg fun hr => hbars (hmine e he hr)] at hρ
      rw [if_neg fun hr => hbars (heq.trans (hmine e' he' hr))] at hρ'
      exact h.same e he e' he' heq ρ hρ ρ' hρ'

lemma exists_of_findIdx {p : BarRoute → Bool} {i : ℕ}
    (h : routes.findIdx? p = some i) : ∃ a, routes[i]? = some a ∧ a ∈ routes ∧ p a = true := by
  obtain ⟨hi, hp, -⟩ := List.findIdx?_eq_some_iff_getElem.1 h
  exact ⟨routes[i], List.getElem?_eq_getElem hi, List.getElem_mem hi, hp⟩

lemma exists_of_alternateRoute {n j : ℕ}
    (h : alternateRoute routes asked n = some j) :
    ∃ a, routes[j]? = some a ∧ a ∈ routes ∧ a.active = true ∧ a.lists asked = true := by
  unfold alternateRoute at h
  split at h
  · exact absurd h (by simp)
  · obtain ⟨a, hget, ha, hp⟩ := exists_of_findIdx h
    exact ⟨a, hget, ha, by simpa using hp⟩

lemma BarBoard.map_request_number (board : BarBoard) (r : ℕ) (bars : Bars) (stated : BarReading) :
    (board.number r bars stated).map (·.request) = board.map (·.request) := by
  unfold number
  split <;>
    · rw [List.map_map]
      refine List.map_congr_left fun e _ => ?_
      simp only [Function.comp_apply]
      split <;> rfl

namespace BarDesk

variable {Bar : Type} {d : BarDesk Bar}

lemma mem_reqId_number (route : BarRoute) (n : ℕ) (givenUp : Option BarRoute) {subs : List BarSub}
    {sub : BarSub} (hsub : sub ∈ subs) : ∃ sub' ∈ number route n
      (givenUp.elim subs fun route => unnumber route subs), sub'.reqId = sub.reqId := by
  have hfirst : ∃ sub' ∈ givenUp.elim subs fun route => unnumber route subs,
      sub'.reqId = sub.reqId := by
    cases givenUp with
    | none => exact ⟨sub, hsub, rfl⟩
    | some x =>
        refine ⟨_, List.mem_map_of_mem hsub, ?_⟩
        split <;> rfl
  obtain ⟨sub', hsub', heq⟩ := hfirst
  refine ⟨_, List.mem_map_of_mem hsub', ?_⟩
  rw [← heq]
  split <;> rfl

lemma cancelled_sendHistoricalCancel (d : BarDesk Bar) (n : ℕ) :
    BarWorld.cancelled (d.sendHistoricalCancel (.number n)) = if d.up then [n] else [] := by
  unfold sendHistoricalCancel
  split <;> rfl

lemma cancelled_toList_flatMap (d : BarDesk Bar) (number : Option ℕ) :
    BarWorld.cancelled (number.toList.flatMap fun n => d.sendHistoricalCancel (.number n))
      = if d.up then number.toList else [] := by
  cases number with
  | none => simp [BarWorld.cancelled]
  | some n => simpa using cancelled_sendHistoricalCancel d n

/-- **A number that is given leaves the desk as the board stands.** -/
theorem stands_routeTo (h : Routed d.rtbarRoutes board) {e₀ : BarEntry} (he₀ : e₀ ∈ board)
    (hsubs : ∀ sub ∈ d.rtbarSubs, sub.reqId ≠ e₀.reqId → SubFits board sub)
    (hheld : ∀ e ∈ board, ∃ sub ∈ d.rtbarSubs, sub.reqId = e.reqId)
    (hresub : d.rtbarResub = board.map (·.request)) {n : ℕ} (m z : F64)
    (hsteady : (⟨d, board, []⟩ : BarWorld Bar).Steady e₀.request n) :
    Boarded (d.routeTo e₀.request n m z).2 (board.number e₀.reqId e₀.bars ⟨n, m, z⟩) ∧
      BarWorld.cancelled (d.routeTo e₀.request n m z).1
        = if d.up then board.givesUp e₀.bars ⟨n, m, z⟩ else [] := by
  have hne : e₀.request.bars.conId ≠ 0 := h.named e₀ he₀
  have hme : ∃ e ∈ board, e.reqId = e₀.request.reqId := ⟨e₀, he₀, rfl⟩
  have hall (target : Option BarRoute) (displaced givenUp : Option BarRoute) (upd)
      (g : Assigns d.rtbarRoutes board e₀.request n m z (offOf displaced givenUp) target upd)
      (hnumber : board.number e₀.reqId e₀.bars ⟨n, m, z⟩ = board.map upd)
      (hgiven : ∀ x ∈ givenUp, x ∈ d.rtbarRoutes ∧ (offOf displaced givenUp x).active = false ∧
        some x ≠ target) (d' : BarDesk Bar)
      (hroutes : d'.rtbarRoutes = givenRoutes (offOf displaced givenUp) target e₀.request n
        ⟨[], [], some n, true, m, z⟩ d.rtbarRoutes)
      (hsubs' : d'.rtbarSubs = number (takenRoute (offOf displaced givenUp) target e₀.request n m z) n
        (givenUp.elim d.rtbarSubs fun route => unnumber route d.rtbarSubs))
      (hresub' : d'.rtbarResub = d.rtbarResub) :
      Boarded d' (board.number e₀.reqId e₀.bars ⟨n, m, z⟩) := by
    refine ⟨?_, ?_, ?_, ?_⟩
    · rw [hnumber, hroutes]
      exact g.routed h hme
    · rw [hnumber, hsubs']
      exact g.subFits h hsubs hme hgiven
    · intro e he
      rw [hnumber] at he
      obtain ⟨e', he', rfl⟩ := List.mem_map.1 he
      obtain ⟨sub, hsub, heq⟩ := hheld e' he'
      obtain ⟨sub', hsub', heq'⟩ := mem_reqId_number
        (takenRoute (offOf displaced givenUp) target e₀.request n m z) n givenUp hsub
      exact ⟨sub', hsubs' ▸ hsub', by rw [heq', heq, (g.entry e').1]⟩
    · rw [hresub', hresub, BarBoard.map_request_number]
  have hcurrent (x : BarRoute) (hx : x ∈ d.rtbarRoutes) : (x.active = true ∧ x.ticker = some n) ↔
      some x = (currentRoute d.rtbarRoutes n).bind (d.rtbarRoutes[·]?) := by
    cases hcur : currentRoute d.rtbarRoutes n with
    | none =>
        have hnone := List.findIdx?_eq_none_iff.1 hcur x hx
        simpa using hnone
    | some i =>
        obtain ⟨a, hget, ha, hp⟩ := exists_of_findIdx hcur
        have hp' : a.active = true ∧ a.ticker = some n := by simpa using hp
        rw [Option.bind_some, hget, Option.some.injEq]
        constructor
        · rintro ⟨hon, hticker⟩
          exact h.distinct x hx a ha hon hp'.1 (hticker.trans hp'.2.symm)
        · rintro rfl
          exact hp'
  cases hcompat : compatibleRoute d.rtbarRoutes e₀.request n with
  | some i =>
      obtain ⟨hcur, hany⟩ := Option.filter_eq_some_iff.1 hcompat
      obtain ⟨a, hget, ha, hp⟩ := exists_of_findIdx hcur
      have hp' : a.active = true ∧ a.ticker = some n := by simpa using hp
      have hfits : a.compatible e₀.request = true := by simpa [hget] using hany
      have htarget : targetRoute d.rtbarRoutes e₀.request n m = some i := by
        simp [targetRoute, hcompat]
      have hgiven : replacedRoute d.rtbarRoutes e₀.request n m = none := by
        simp [replacedRoute, hcompat]
      have hdisplaced : displacedRoute d.rtbarRoutes e₀.request n m = none := by
        simp [displacedRoute, htarget, hcur, Option.filter_some]
      have hsteady' := hsteady.1 (.inl (by simp [hcompat]))
      have g := h.gives_compatible hne he₀ rfl ha hp'.1 hp'.2 hfits hsteady' m z
      have hstream := h.streamOf_eq_some ha hp'.1 hp'.2 hne hfits
      have hroute := routeTo_eq (d := d) z h.nodup hdisplaced hgiven htarget (by
        rintro pos (rfl | rfl | rfl) j hj
        · exact absurd hj (by simp)
        · exact absurd hj (by simp)
        · obtain rfl := Option.some.inj (Option.mem_def.1 hj)
          exact ⟨a, hget⟩)
      rw [hroute]
      simp only [Option.bind_none, Option.bind_some, hget]
      refine ⟨hall (some a) none none _ g ?_ (by simp) _ rfl rfl rfl, ?_⟩
      · unfold BarBoard.number
        rw [show board.streamOf e₀.bars n = _ from hstream]
        rfl
      · unfold BarBoard.givesUp
        rw [show board.streamOf e₀.bars n = _ from hstream]
        simp [BarWorld.cancelled]
  | none =>
      have f : Fresh d.rtbarRoutes board e₀.request n
          ((currentRoute d.rtbarRoutes n).bind (d.rtbarRoutes[·]?))
          ((alternateRoute d.rtbarRoutes e₀.request n).bind (d.rtbarRoutes[·]?)) := by
        refine ⟨hne, hcurrent, ?_, ?_, ?_⟩
        · intro x hx hfits
          obtain ⟨i, hcur, hget⟩ := Option.bind_eq_some_iff.1 hx
          rw [compatibleRoute, hcur, Option.filter_some, hget] at hcompat
          exact absurd hcompat (by simp [hfits])
        · intro a ha
          obtain ⟨j, halt, hget⟩ := Option.bind_eq_some_iff.1 ha
          obtain ⟨a', hget', ha', hp⟩ := exists_of_alternateRoute halt
          obtain rfl := Option.some.inj (hget.symm.trans hget')
          exact ⟨ha', hp.1, hp.2, hsteady.2 hcompat j halt a hget⟩
        · intro hnone
          refine hsteady.1 (.inr ?_)
          cases halt : alternateRoute d.rtbarRoutes e₀.request n with
          | none => rfl
          | some j =>
              obtain ⟨a, hget, -⟩ := exists_of_alternateRoute halt
              rw [halt, Option.bind_some, hget] at hnone
              exact absurd hnone (by simp)
      have hstream : board.streamOf e₀.bars n = none :=
        h.streamOf_eq_none hne fun x hx hon hticker =>
          f.other x ((hcurrent x hx).1 ⟨hon, hticker⟩).symm
      have htarget : targetRoute d.rtbarRoutes e₀.request n m
          = (alternateRoute d.rtbarRoutes e₀.request n).filter fun pos =>
            d.rtbarRoutes[pos]?.any fun route => sameTick route.minTick m := by
        simp [targetRoute, hcompat]
      have hgiven : replacedRoute d.rtbarRoutes e₀.request n m
          = (alternateRoute d.rtbarRoutes e₀.request n).filter fun pos =>
            ¬d.rtbarRoutes[pos]?.any fun route => sameTick route.minTick m := by
        unfold replacedRoute
        rw [htarget]
        cases alternateRoute d.rtbarRoutes e₀.request n with
        | none => simp
        | some j =>
            by_cases hj : (d.rtbarRoutes[j]?.any fun route => sameTick route.minTick m) = true
            · simp [hcompat, Option.filter_some, hj]
            · simp [hcompat, Option.filter_some, hj]
      have hdisplaced : displacedRoute d.rtbarRoutes e₀.request n m
          = currentRoute d.rtbarRoutes n := by
        unfold displacedRoute
        cases hcur : currentRoute d.rtbarRoutes n with
        | none => rfl
        | some i =>
            rw [Option.filter_some, if_pos]
            refine decide_eq_true fun heq => ?_
            rw [htarget, eq_comm, Option.filter_eq_some_iff] at heq
            obtain ⟨a, hget, ha, hlists⟩ := exists_of_alternateRoute heq.1
            obtain ⟨c, hc, hbars⟩ := (Routed.lists_iff hne).1 hlists.2
            exact f.other a (by rw [hcur, Option.bind_some]; exact hget)
              (h.compatible_of_sameStream ha hne hc (by rw [hbars]; exact ⟨rfl, rfl, rfl⟩))
      have hat : ∀ pos : Option ℕ, pos = currentRoute d.rtbarRoutes n ∨
          (∃ q, pos = (alternateRoute d.rtbarRoutes e₀.request n).filter q) →
            ∀ i ∈ pos, ∃ a, d.rtbarRoutes[i]? = some a := by
        rintro pos (rfl | ⟨q, rfl⟩) i hi
        · obtain ⟨a, hget, -⟩ := exists_of_findIdx hi
          exact ⟨a, hget⟩
        · rw [Option.mem_def, Option.filter_eq_some_iff] at hi
          obtain ⟨a, hget, -⟩ := exists_of_alternateRoute hi.1
          exact ⟨a, hget⟩
      have hroute := routeTo_eq (d := d) z h.nodup hdisplaced hgiven htarget (by
        rintro pos (rfl | rfl | rfl)
        · exact hat _ (.inl rfl)
        · exact hat _ (.inr ⟨_, rfl⟩)
        · exact hat _ (.inr ⟨_, rfl⟩))
      have hbind (q' : ℕ → Bool) (q : BarRoute → Bool)
          (hq : ∀ j a, d.rtbarRoutes[j]? = some a → q' j = q a) :
          ((alternateRoute d.rtbarRoutes e₀.request n).filter q').bind (d.rtbarRoutes[·]?)
            = ((alternateRoute d.rtbarRoutes e₀.request n).bind (d.rtbarRoutes[·]?)).filter q := by
        cases halt : alternateRoute d.rtbarRoutes e₀.request n with
        | none => rfl
        | some j =>
            obtain ⟨a, hget, -⟩ := exists_of_alternateRoute halt
            by_cases hqa : q a = true <;> simp [Option.filter_some, hget, hq j a hget, hqa]
      have hgives := hbind (fun pos => ¬d.rtbarRoutes[pos]?.any fun route => sameTick route.minTick m)
        (fun a => ¬sameTick a.minTick m) fun j a hget => by simp [hget]
      have htakes := hbind (fun pos => d.rtbarRoutes[pos]?.any fun route => sameTick route.minTick m)
        (fun a => sameTick a.minTick m) fun j a hget => by simp [hget]
      have g := f.gives h he₀ rfl m z
      rw [hroute, hgives, htakes]
      refine ⟨hall _ _ _ _ g ?_ ?_ _ rfl rfl rfl, ?_⟩
      · unfold BarBoard.number
        rw [hstream]
        rfl
      · intro x hx
        have hx' := hx
        rw [Option.mem_def, Option.filter_eq_some_iff] at hx'
        refine ⟨(f.listed x hx'.1).1, ?_, ?_⟩
        · unfold offOf
          rw [if_pos hx.symm]
          rfl
        · intro heq
          rw [eq_comm, Option.filter_eq_some_iff] at heq
          exact absurd heq.2 (by simpa using hx'.2)
      · have hgone := f.givesUp_eq h hstream m z
        rw [show board.givesUp e₀.bars ⟨n, m, z⟩ = _ from hgone]
        exact cancelled_toList_flatMap d _

end BarDesk

end IbkrDx
