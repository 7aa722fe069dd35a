import IbkrDx.Engine.FrozenDesk

/-!
# Frozen feeds

What is asked for, then every event.

* **`own_quote_given_back`** — every event of every clean run serves right.
* `own_quote_given_back_twice_closed` is such a run.
* `given_back_without_the_halt` — a frozen quote refused once it was taken is asked for again, and a
  halt stated meanwhile is lost with the quote put back.
-/

namespace IbkrDx

open Overlay Runs

namespace FrozenDesk

variable {V : Type} {d d' d'' : FrozenDesk V} {w w' : StatusWatch V}

def pairs (d : FrozenDesk V) : List FrozenPair := d.watch.elim [] (·.pairs)

/-- What was asked for stands in the watch, and so do the numbers it is answered under. -/
structure Logged (d : FrozenDesk V) : Prop where
  once : AsksOnce d.sent
  standing : ∀ f, f ∈ standingFeeds d.sent ↔ f ∈ d.pairs.map (·.feed)
  refused : ∀ w ∈ d.watch, ∀ f ∈ refusedFeeds d.sent, f ∈ w.refused
  status : standingStatus d.sent = d.watch.any fun w => w.status.isSome
  state : ∀ w ∈ d.watch, w.inFrozenState = false → w.pairs = []
  filed : d.withdrawn = false → ∀ tag ∈ d.serverTags, tag ∈ d.frozenTags →
    ∃ p ∈ d.pairs, tag ∈ p.tags

lemma pairs_of_watch (hw : d.watch = some w) : d.pairs = w.pairs := by
  rw [pairs, hw]
  rfl

lemma Logged.congr (h : d.Logged) (hw : d.watch = some w) (hw' : d'.watch = some w')
    (hsent : d'.sent = d.sent) (hwithdrawn : d'.withdrawn = d.withdrawn)
    (htags : d'.serverTags = d.serverTags) (hfrozen : d'.frozenTags = d.frozenTags)
    (hpairs : w'.pairs = w.pairs) (hrefused : w'.refused = w.refused)
    (hstatus : w'.status = w.status)
    (hstate : w'.inFrozenState = false → w.inFrozenState = false) : d'.Logged := by
  have hsame : d'.pairs = d.pairs := by rw [pairs_of_watch hw, pairs_of_watch hw', hpairs]
  refine ⟨hsent ▸ h.once, fun f => ?_, fun w'' hw'' f hf => ?_, ?_, fun w'' hw'' hout => ?_, ?_⟩
  · rw [hsent, hsame]
    exact h.standing f
  · obtain rfl := Option.some.inj (hw'.symm.trans hw'')
    rw [hrefused]
    exact h.refused w hw f (hsent ▸ hf)
  · have hbefore := h.status
    rw [hw, Option.any_some] at hbefore
    rw [hsent, hw', Option.any_some, hstatus, hbefore]
  · obtain rfl := Option.some.inj (hw'.symm.trans hw'')
    rw [hpairs]
    exact h.state w hw (hstate hout)
  · rw [hwithdrawn, htags, hfrozen, hsame]
    exact h.filed

lemma watch_serve (hw : d.watch = some w) (frozen delayedFrozen : Bool) :
    (∃ held, (d.serve frozen delayedFrozen).watch = some { w with
      showsFrozen := frozen, showsDelayedFrozen := delayedFrozen, held := held }) ∧
    (d.serve frozen delayedFrozen).sent = d.sent ∧
    (d.serve frozen delayedFrozen).serverTags = d.serverTags := by
  unfold serve
  rw [hw]
  dsimp only
  split_ifs
  · exact ⟨⟨_, rfl⟩, rfl, rfl⟩
  · split
    · exact ⟨⟨_, rfl⟩, rfl, rfl⟩
    · exact ⟨⟨_, rfl⟩, rfl, rfl⟩
  · exact ⟨⟨_, rfl⟩, rfl, rfl⟩

lemma Logged.serve (h : d.Logged) (hw : d.watch = some w) (frozen delayedFrozen : Bool) :
    (d.serve frozen delayedFrozen).Logged := by
  obtain ⟨⟨held, hshown⟩, hsent, htags⟩ := watch_serve hw frozen delayedFrozen
  have halike := alike_serve d frozen delayedFrozen
  exact h.congr hw hshown hsent halike.withdrawn htags halike.frozenTags rfl rfl rfl id

lemma Logged.askFrozenPair (h : d.Logged) (hw : d.watch = some w) (hin : w.inFrozenState = true)
    (feed : FrozenFeed) : (d.askFrozenPair feed).Logged := by
  have hpairs := pairs_of_watch hw
  unfold FrozenDesk.askFrozenPair
  rw [hw]
  dsimp only
  split_ifs with hno
  · exact h
  · rw [not_or] at hno
    refine ⟨⟨fun hf => hno.2 ?_, fun hf => hno.1 (h.refused w hw feed hf), h.once⟩, fun f => ?_,
      fun w' hw' f hf => ?_, ?_, fun w' hw' hout => ?_, fun hstands tag htag hfrozen => ?_⟩
    · rw [← hpairs]
      exact (h.standing feed).1 hf
    · have hstanding := h.standing f
      rw [hpairs] at hstanding
      simp only [standingFeeds, List.mem_cons, hstanding, pairs, Option.elim_some, List.map_append,
        List.map_cons, List.map_nil, List.mem_append, List.not_mem_nil, or_false]
      exact or_comm
    · obtain rfl := Option.some.inj hw'
      exact h.refused w hw f hf
    · have hbefore := h.status
      rw [hw] at hbefore
      exact hbefore
    · obtain rfl := Option.some.inj hw'
      exact absurd (hin.symm.trans hout) (by simp)
    · obtain ⟨p, hp, hmem⟩ := h.filed hstands tag htag hfrozen
      exact ⟨p, List.mem_append_left _ (hpairs ▸ hp), hmem⟩

lemma Logged.enterFrozenState (h : d.Logged) : d.enterFrozenState.Logged := by
  unfold FrozenDesk.enterFrozenState
  split
  · exact h
  · rename_i w hw
    have hin : Logged { d with watch := some { w with inFrozenState := true } } :=
      h.congr hw rfl rfl rfl rfl rfl rfl rfl rfl fun hout => nomatch hout
    have hasked := hin.askFrozenPair rfl rfl .frozen
    obtain ⟨pairs, hwatch⟩ := watch_askFrozenPair
      (d := { d with watch := some { w with inFrozenState := true } }) rfl .frozen
    dsimp only
    split_ifs
    · obtain ⟨pairs', hwatch'⟩ := watch_askFrozenPair hwatch .delayedFrozen
      have harmed := congrArg (Option.map fun w => { w with armed := true }) hwatch'
      exact (hasked.askFrozenPair hwatch rfl .delayedFrozen).congr hwatch' harmed rfl rfl rfl rfl
        rfl rfl rfl id
    · exact hasked.serve hwatch true false
    · exact hasked

lemma Logged.standing_withdrew (h : d.Logged) (hw : d.watch = some w) :
    standingFeeds (.withdrew w.pairs :: d.sent) = [] := by
  refine List.filter_eq_nil_iff.2 fun f hf => ?_
  have hmem := (h.standing f).1 hf
  rw [pairs_of_watch hw] at hmem
  simpa using hmem

lemma Logged.withdrawFrozenPairs (h : d.Logged) (hw : d.watch = some w) {w' : StatusWatch V}
    (hpairs : w'.pairs = []) (hrefused : w'.refused = w.refused) (hstatus : w'.status = w.status) :
    Logged (withdrawFrozenPairs { d with
      serverTags := d.serverTags.filter fun t => t ∉ w.pairs.flatMap FrozenPair.tags
      watch := some w' } w.pairs) := by
  have hbefore := pairs_of_watch hw
  refine ⟨h.once, fun f => ?_, fun w'' hw'' f hf => ?_, ?_, fun w'' hw'' _ => ?_,
    fun hstands tag htag hfrozen => ?_⟩
  · have hpairs' : pairs (FrozenDesk.withdrawFrozenPairs { d with
        serverTags := d.serverTags.filter fun t => t ∉ w.pairs.flatMap FrozenPair.tags
        watch := some w' } w.pairs) = [] := hpairs
    rw [hpairs']
    simp only [FrozenDesk.withdrawFrozenPairs, h.standing_withdrew hw, List.map_nil]
  · obtain rfl := Option.some.inj hw''
    rw [hrefused]
    exact h.refused w hw f hf
  · have hstands := h.status
    rw [hw, Option.any_some] at hstands
    exact hstands.trans (by rw [← hstatus]; rfl)
  · obtain rfl := Option.some.inj hw''
    exact hpairs
  · obtain ⟨hmem, hnot⟩ := List.mem_filter.1 htag
    obtain ⟨p, hp, hpt⟩ := h.filed hstands tag hmem hfrozen
    refine absurd (List.mem_flatMap.2 ⟨p, hbefore ▸ hp, hpt⟩) (of_decide_eq_true hnot)

lemma Logged.leaveFrozenState (h : d.Logged) (told : Bool) : (d.leaveFrozenState told).Logged := by
  unfold FrozenDesk.leaveFrozenState
  split
  · exact h
  · rename_i w hw
    have hleft : Logged (FrozenDesk.withdrawFrozenPairs { d with
        serverTags := d.serverTags.filter fun t => t ∉ w.pairs.flatMap FrozenPair.tags
        watch := some { w with inFrozenState := false, armed := false, pairs := [] } } w.pairs) :=
      h.withdrawFrozenPairs hw rfl rfl rfl
    dsimp only
    split_ifs
    · exact hleft.serve rfl false false
    · exact hleft.congr rfl rfl rfl rfl rfl rfl rfl rfl rfl id

lemma Logged.applyStatus (h : d.Logged) (closed : Bool) : (d.applyStatus closed).Logged := by
  unfold FrozenDesk.applyStatus
  split
  · exact h
  · rename_i w hw
    have hnoted : Logged { d with watch := some { w with closed } } :=
      h.congr hw rfl rfl rfl rfl rfl rfl rfl rfl id
    dsimp only
    split_ifs
    · exact hnoted
    · exact hnoted.enterFrozenState
    · exact hnoted.leaveFrozenState true
    · exact hnoted

lemma Logged.withdrawStatusWatch (h : d.Logged) (hpairs : d.withdrawn = false → d.pairs = []) :
    d.withdrawStatusWatch.Logged := by
  unfold FrozenDesk.withdrawStatusWatch
  split
  · exact h
  · rename_i w hw
    have hnone := h.standing_withdrew hw
    have hstands := h.status
    rw [hw, Option.any_some] at hstands
    have hfiled : d.withdrawn = false → ∀ tag ∈ d.serverTags, tag ∈ d.frozenTags →
        ∃ p ∈ ([] : List FrozenPair), tag ∈ p.tags := by
      intro hin tag htag hfrozen
      obtain ⟨p, hp, -⟩ := h.filed hin tag htag hfrozen
      exact absurd (hpairs hin ▸ hp) List.not_mem_nil
    dsimp only
    split
    · rename_i hstatus
      rw [hstatus] at hstands
      exact ⟨h.once, fun f => by simp [FrozenDesk.withdrawFrozenPairs, hnone, pairs],
        fun _ hw' => absurd hw' (Option.not_mem_none _), hstands,
        fun _ hw' => absurd hw' (Option.not_mem_none _), hfiled⟩
    · exact ⟨h.once, fun f => by
        simp [FrozenDesk.withdrawFrozenPairs, standingFeeds, hnone, pairs],
        fun _ hw' => absurd hw' (Option.not_mem_none _), rfl,
        fun _ hw' => absurd hw' (Option.not_mem_none _), hfiled⟩

lemma Logged.askStatus (h : d.Logged) : d.askStatus.Logged := by
  unfold FrozenDesk.askStatus
  split
  · exact h
  · rename_i w hw
    have hpairs := pairs_of_watch hw
    refine ⟨h.once, fun f => ?_, fun w' hw' => ?_, rfl, fun w' hw' => ?_, fun hin tag htag hf => ?_⟩
    · have hstanding := h.standing f
      rw [hpairs] at hstanding
      exact hstanding
    · obtain rfl := Option.some.inj hw'
      exact h.refused w hw
    · obtain rfl := Option.some.inj hw'
      exact h.state w hw
    · obtain ⟨p, hp, hmem⟩ := h.filed hin tag htag hf
      exact ⟨p, hpairs ▸ hp, hmem⟩

lemma Logged.statusOnRefusal (h : d.Logged) {fallsBack : Bool}
    (hnone : fallsBack = true → refusedFeeds d.sent = []) :
    (d.statusOnRefusal fallsBack).Logged := by
  unfold FrozenDesk.statusOnRefusal
  split
  · exact h
  · rename_i w hw
    have hpairs := pairs_of_watch hw
    have hrefused : ∀ f ∈ refusedFeeds d.sent, f ∈ if fallsBack then [] else w.refused := by
      intro f hf
      split_ifs with hback
      · exact hnone hback ▸ hf
      · exact h.refused w hw f hf
    generalize (if fallsBack then [] else w.refused) = refused at hrefused ⊢
    have hnoted :
        Logged { d with watch := some { w with frozen := false, refused := refused } } := by
      refine ⟨h.once, fun f => ?_, fun w' hw' => ?_, ?_, fun w' hw' => ?_,
        fun hin tag htag hf => ?_⟩
      · have hstanding := h.standing f
        rw [hpairs] at hstanding
        exact hstanding
      · obtain rfl := Option.some.inj hw'
        exact hrefused
      · have hstatus := h.status
        rw [hw] at hstatus
        exact hstatus
      · obtain rfl := Option.some.inj hw'
        exact h.state w hw
      · obtain ⟨p, hp, hmem⟩ := h.filed hin tag htag hf
        exact ⟨p, hpairs ▸ hp, hmem⟩
    dsimp only
    split_ifs with hkeeps hin hin
    · exact hnoted.leaveFrozenState false
    · exact hnoted
    · exact (hnoted.leaveFrozenState false).withdrawStatusWatch fun _ => rfl
    · exact hnoted.withdrawStatusWatch fun _ => h.state w hw (eq_false_of_ne_true hin)

lemma Logged.statusOnFallback (h : d.Logged) (hnone : refusedFeeds d.sent = []) :
    d.statusOnFallback.Logged := by
  have hrefused : (d.statusOnRefusal true).Logged := h.statusOnRefusal fun _ => hnone
  unfold FrozenDesk.statusOnFallback
  dsimp only
  split
  · exact hrefused
  · split_ifs
    · exact hrefused.askStatus
    · exact hrefused.applyStatus _

lemma Logged.sendDelayedTop (h : d.Logged) : d.sendDelayedTop.Logged :=
  statusOnFallback ⟨h.once, h.standing, fun _ _ _ hf => absurd hf List.not_mem_nil, h.status,
    h.state, fun _ _ htag => absurd htag List.not_mem_nil⟩ rfl

lemma Logged.refuseOwn (h : d.Logged) (request : ℕ) (delayedAvailable : Bool) :
    (d.refuseOwn request delayedAvailable).Logged := by
  unfold FrozenDesk.refuseOwn
  split
  · exact h
  · split_ifs
    · exact h
    · exact h.sendDelayedTop
    · exact h.statusOnRefusal fun hf => nomatch hf

lemma feeds_noteRefused (request : ℕ) (ps : List FrozenPair) :
    (noteRefused request ps).map (·.feed) = ps.map (·.feed) := by
  induction ps with
  | nil => rfl
  | cons p ps ih =>
      rw [noteRefused]
      split_ifs
      · rfl
      · rw [List.map_cons, List.map_cons, ih]

lemma tags_noteRefused (request : ℕ) (ps : List FrozenPair) :
    (noteRefused request ps).map (·.tags) = ps.map (·.tags) := by
  induction ps with
  | nil => rfl
  | cons p ps ih =>
      rw [noteRefused]
      split_ifs
      · rfl
      · rw [List.map_cons, List.map_cons, ih]

lemma Logged.refuse (h : d.Logged) (request : ℕ) (delayedAvailable : Bool) :
    (d.refuse request delayedAvailable).Logged := by
  unfold FrozenDesk.refuse
  split
  · exact h.refuseOwn request delayedAvailable
  · rename_i w hw
    have hpairs := pairs_of_watch hw
    split_ifs with hstatus
    · exact h
    · split
      · exact h.refuseOwn request delayedAvailable
      · rename_i p _
        refine ⟨h.once, fun f => ?_, fun w' hw' f hf => ?_, ?_, fun w' hw' hout => ?_,
          fun hin tag htag hf => ?_⟩
        · have hstanding := h.standing f
          rw [hpairs] at hstanding
          rw [pairs, Option.elim_some, feeds_noteRefused]
          exact hstanding
        · obtain rfl := Option.some.inj hw'
          dsimp only
          rcases List.mem_cons.1 hf with rfl | hf
          · split_ifs with hmem
            · exact hmem
            · exact List.mem_append_right _ (List.mem_singleton_self _)
          · have hbefore := h.refused w hw f hf
            split_ifs
            · exact hbefore
            · exact List.mem_append_left _ hbefore
        · have hbefore := h.status
          rw [hw] at hbefore
          exact hbefore
        · obtain rfl := Option.some.inj hw'
          dsimp only
          rw [h.state w hw hout]
          rfl
        · obtain ⟨p, hp, hmem⟩ := h.filed hin tag htag hf
          have htags : p.tags ∈ (noteRefused request w.pairs).map (·.tags) := by
            rw [tags_noteRefused]
            exact List.mem_map_of_mem (hpairs ▸ hp)
          obtain ⟨q, hq, heq⟩ := List.mem_map.1 htags
          exact ⟨q, hq, heq ▸ hmem⟩

lemma feeds_noteTag (request tag : ℕ) (ps : List FrozenPair) :
    (noteTag request tag ps).map (·.feed) = ps.map (·.feed) := by
  induction ps with
  | nil => rfl
  | cons p ps ih =>
      rw [noteTag]
      split_ifs
      · rfl
      · rw [List.map_cons, List.map_cons, ih]

lemma exists_noteTag {request : ℕ} (tag : ℕ) {ps : List FrozenPair}
    (h : ∃ p ∈ ps, request ∈ p.requests) : ∃ p ∈ noteTag request tag ps, tag ∈ p.tags := by
  induction ps with
  | nil => exact absurd h.choose_spec.1 List.not_mem_nil
  | cons p ps ih =>
      rw [noteTag]
      split_ifs with hp
      · exact ⟨_, List.mem_cons_self, List.mem_append_right _ (List.mem_singleton_self tag)⟩
      · obtain ⟨q, hq, hmem⟩ := h
        rcases List.mem_cons.1 hq with rfl | hq
        · exact absurd hmem hp
        · obtain ⟨q, hq, hmem⟩ := ih ⟨q, hq, hmem⟩
          exact ⟨q, List.mem_cons_of_mem _ hq, hmem⟩

lemma exists_noteTag_of_ne {request tag other : ℕ} (hne : other ≠ tag) {ps : List FrozenPair}
    (h : ∃ p ∈ ps, other ∈ p.tags) : ∃ p ∈ noteTag request tag ps, other ∈ p.tags := by
  induction ps with
  | nil => exact absurd h.choose_spec.1 List.not_mem_nil
  | cons p ps ih =>
      obtain ⟨q, hq, hmem⟩ := h
      rw [noteTag]
      split_ifs
      · rcases List.mem_cons.1 hq with rfl | hq
        · exact ⟨_, List.mem_cons_self, List.mem_append_left _
            (List.mem_filter.2 ⟨hmem, decide_eq_true hne⟩)⟩
        · exact ⟨q, List.mem_cons_of_mem _ hq, hmem⟩
      · rcases List.mem_cons.1 hq with rfl | hq
        · exact ⟨q, List.mem_cons_self, hmem⟩
        · obtain ⟨q, hq, hmem⟩ := ih ⟨q, hq, hmem⟩
          exact ⟨q, List.mem_cons_of_mem _ hq, hmem⟩

lemma pairs_acknowledge (d : FrozenDesk V) (request tag : ℕ) (minTick : ℤ) :
    (d.acknowledge request tag minTick).pairs = noteTag request tag d.pairs := by
  unfold acknowledge pairs
  cases d.watch with
  | none => rfl
  | some w => rfl

lemma Logged.acknowledge (h : d.Logged) (request tag : ℕ) (minTick : ℤ) :
    (d.acknowledge request tag minTick).Logged := by
  have hpairs := pairs_acknowledge d request tag minTick
  refine ⟨h.once, fun f => ?_, fun w' hw' => ?_, ?_, fun w' hw' hout => ?_,
    fun hin other hother hf => ?_⟩
  · rw [hpairs, feeds_noteTag]
    exact h.standing f
  · obtain ⟨w, hw, rfl⟩ := Option.map_eq_some_iff.1 hw'
    exact h.refused w hw
  · have hbefore := h.status
    rw [FrozenDesk.acknowledge]
    dsimp only
    rw [Option.any_map]
    exact hbefore
  · obtain ⟨w, hw, rfl⟩ := Option.map_eq_some_iff.1 hw'
    dsimp only
    rw [h.state w hw hout]
    rfl
  · rw [hpairs]
    by_cases heq : other = tag
    · subst heq
      rw [FrozenDesk.acknowledge] at hf
      dsimp only at hf
      split_ifs at hf with hours
      · refine exists_noteTag other ?_
        cases hw : d.watch with
        | none =>
            rw [hw] at hours
            exact absurd hours (by simp)
        | some w =>
            rw [hw, Option.any_some] at hours
            obtain ⟨p, hp, hmem⟩ := List.any_eq_true.1 hours
            exact ⟨p, (pairs_of_watch hw).symm ▸ hp, of_decide_eq_true hmem⟩
      · exact absurd (List.mem_filter.1 hf).2 (by simp)
    · refine exists_noteTag_of_ne heq (h.filed hin other ?_ ?_)
      · rw [FrozenDesk.acknowledge] at hother
        dsimp only at hother
        split_ifs at hother
        · exact hother
        · exact (List.mem_append.1 hother).resolve_right fun hlast =>
            heq (List.mem_singleton.1 hlast)
      · rw [FrozenDesk.acknowledge] at hf
        dsimp only at hf
        split_ifs at hf
        · exact (List.mem_cons.1 hf).resolve_left heq
        · exact (List.mem_filter.1 hf).1

lemma Logged.enter (h : d.Logged) (tag : ℕ) (e : FeedEntry V) : (d.enter tag e).Logged := by
  have hserved {d : FrozenDesk V} (h : d.Logged) : (d.applyServed e).Logged := by
    cases e <;> exact { h with }
  have howned {d : FrozenDesk V} (h : d.Logged) : (d.noteOwn e).Logged := by
    cases e <;> exact { h with }
  have hmapped {f : StatusWatch V → StatusWatch V} (hpairs : ∀ w, (f w).pairs = w.pairs)
      (hrefused : ∀ w, (f w).refused = w.refused) (hstatus : ∀ w, (f w).status = w.status)
      (hstate : ∀ w, (f w).inFrozenState = w.inFrozenState) :
      Logged { d with watch := d.watch.map f } := by
    cases hw : d.watch with
    | none =>
        have hsame : { d with watch := Option.map f none } = d := by
          rw [Option.map_none, ← hw]
        exact hsame.symm ▸ h
    | some w =>
        exact h.congr hw rfl rfl rfl rfl rfl (hpairs w) (hrefused w) (hstatus w)
          fun hout => (hstate w).symm.trans hout
  unfold FrozenDesk.enter
  split
  · split_ifs
    · exact howned (hserved h)
    · refine howned ?_
      exact hmapped (fun _ => rfl) (fun _ => rfl) (fun _ => rfl) fun _ => rfl
  · split_ifs
    · exact hserved h
    · exact h
  · split_ifs with hshows harmed
    · exact hserved h
    · have hdisarmed := hmapped (f := fun w => { w with armed := false }) (fun _ => rfl)
        (fun _ => rfl) (fun _ => rfl) fun _ => rfl
      cases hw : d.watch with
      | none =>
          rw [hw] at harmed
          exact absurd harmed (by simp)
      | some w =>
          rw [hw] at hdisarmed
          exact hserved (hdisarmed.serve rfl false true)
    · exact h

lemma Logged.answered (h : d.Logged) (request : ℕ) : (d.answered request).Logged :=
  { h with }

/-! ## Every event -/

/-- What every event keeps: the own quote served or held, what was asked for standing in the watch,
and nothing filed while there is no connection. -/
structure Sound (d : FrozenDesk V) : Prop where
  watched : ∀ w ∈ d.watch, d.Watched w
  logged : d.Logged
  idle : d.withdrawn = false → d.connected = false →
    d.serverTags = [] ∧ d.mdReqs = [] ∧ ∀ w ∈ d.watch, w = afresh w

lemma alike_askStatus (d : FrozenDesk V) : Alike d d.askStatus := by
  unfold askStatus
  split <;> exact { Alike.refl d with }

lemma alike_statusOnFallback (d : FrozenDesk V) : Alike d d.statusOnFallback := by
  have hrefused := (unserved_statusOnRefusal d true).toAlike
  unfold statusOnFallback
  dsimp only
  split
  · exact hrefused
  · split_ifs
    · exact hrefused.trans (alike_askStatus _)
    · exact hrefused.trans (alike_applyStatus _ _)

lemma connected_refuseOwn (d : FrozenDesk V) (request : ℕ) (delayedAvailable : Bool) :
    (d.refuseOwn request delayedAvailable).connected = d.connected := by
  unfold refuseOwn
  split
  · rfl
  · split_ifs
    · rfl
    · exact (alike_statusOnFallback _).connected
    · exact (unserved_statusOnRefusal d false).connected

lemma connected_refuse (d : FrozenDesk V) (request : ℕ) (delayedAvailable : Bool) :
    (d.refuse request delayedAvailable).connected = d.connected := by
  unfold refuse
  split
  · exact connected_refuseOwn d request delayedAvailable
  · split_ifs
    · rfl
    · split
      · exact connected_refuseOwn d request delayedAvailable
      · rfl

lemma connected_enter (d : FrozenDesk V) (tag : ℕ) (e : FeedEntry V) :
    (d.enter tag e).connected = d.connected := by
  unfold enter
  split
  · split_ifs <;> cases e <;> rfl
  · split_ifs
    · cases e <;> rfl
    · rfl
  · split_ifs
    · cases e <;> rfl
    · cases e <;> exact (alike_serve _ false true).connected
    · rfl

lemma watch_withdrawStatusWatch (d : FrozenDesk V) : d.withdrawStatusWatch.watch = none := by
  unfold withdrawStatusWatch
  split
  · assumption
  · dsimp only
    split <;> rfl

lemma Watched.quiet_of_out (h : ∀ w ∈ d.watch, d.Watched w) :
    ∀ w ∈ d.watch, w.inFrozenState = false → Quiet w := by
  intro w hw hout
  obtain ⟨hfrozen, hdelayed, harmed⟩ := (h w hw).quiet hout
  exact ⟨hfrozen, hdelayed, harmed, ((h w hw).held_of_quiet hw hout).1⟩

lemma Sound.refuseOwn (h : d.Sound) (request : ℕ) (delayedAvailable : Bool) :
    ∀ w ∈ (d.refuseOwn request delayedAvailable).watch,
      (d.refuseOwn request delayedAvailable).Watched w := by
  have hquiet := Watched.quiet_of_out h.watched
  unfold FrozenDesk.refuseOwn
  split
  · exact h.watched
  · split_ifs
    · exact h.watched
    · exact watched_statusOnFallback rfl hquiet
    · exact fun w hw => nomatch (quiet_statusOnRefusal false hquiet w hw).1

lemma Sound.refuse (h : d.Sound) (request : ℕ) (delayedAvailable : Bool) :
    ∀ w ∈ (d.refuse request delayedAvailable).watch,
      (d.refuse request delayedAvailable).Watched w := by
  unfold FrozenDesk.refuse
  split
  · exact h.refuseOwn request delayedAvailable
  · rename_i w hw
    split_ifs
    · exact h.watched
    · split
      · exact h.refuseOwn request delayedAvailable
      · rintro w' hw'
        obtain rfl := Option.some.inj hw'
        exact (h.watched w hw).congr hw rfl ⟨⟨rfl, rfl, rfl, rfl, rfl, rfl⟩, rfl, rfl, rfl⟩ id rfl
          rfl rfl rfl

lemma Sound.answered (h : d.Sound) (request : ℕ) : (d.answered request).Sound := by
  refine ⟨fun w hw => ?_, h.logged.answered request, fun hwithdrawn hconnected => ?_⟩
  · exact (h.watched w hw).congr hw hw ⟨⟨rfl, rfl, rfl, rfl, rfl, rfl⟩, rfl, rfl, rfl⟩ id rfl rfl
      rfl rfl
  · obtain ⟨htags, hnone, hafresh⟩ := h.idle hwithdrawn hconnected
    exact ⟨htags, by rw [FrozenDesk.answered, hnone, List.erase_nil], hafresh⟩

lemma Sound.passOver (h : d.Sound) {request : ℕ} (hnone : feedAsked request d.sent = none) :
    (d.passOver request).Sound := by
  rw [FrozenDesk.passOver, hnone]
  exact h

lemma Sound.noteTrading (h : d.Sound) {halted : ℤ} (hconnected : d.connected = true)
    (hheld : ∀ w ∈ d.watch, ∀ held ∈ w.held, held.stated.halted = halted) :
    (d.noteTrading halted).Sound := by
  refine ⟨fun w hw => ?_, { h.logged with }, fun _ hno => nomatch hconnected.symm.trans hno⟩
  have hwatched := h.watched w hw
  have hkept := hwatched.kept
  refine ⟨⟨hwatched.frozen, hwatched.delayed⟩, hwatched.quiet, hwatched.armed, ?_⟩
  have hserving : (d.noteTrading halted).serving = d.serving := rfl
  unfold Kept at hkept ⊢
  rw [hserving]
  cases hw' : w.held with
  | none =>
      rw [hw'] at hkept
      exact ⟨hkept.1, congrArg (fun q : ServedQuote => { q with halted }) hkept.2⟩
  | some held =>
      rw [hw'] at hkept
      obtain ⟨hother, hstated, hseries⟩ := hkept
      refine ⟨hother, ?_, hseries⟩
      have hsame := hheld w hw held hw'
      rw [FrozenDesk.noteTrading, ← hstated, ← hsame]

lemma Sound.acknowledge (h : d.Sound) (request tag : ℕ) (minTick : ℤ) :
    ∀ w ∈ (d.acknowledge request tag minTick).watch,
      (d.acknowledge request tag minTick).Watched w := by
  intro w' hw'
  obtain ⟨w, hw, rfl⟩ := Option.map_eq_some_iff.1 hw'
  have hwatched := h.watched w hw
  have hkept : Kept (d.acknowledge request tag minTick)
      { w with pairs := noteTag request tag w.pairs } := by
    have hserving : (d.acknowledge request tag minTick).serving = d.serving := by
      rw [serving_of_watch hw', serving_of_watch hw]
    have hbefore := hwatched.kept
    unfold Kept at hbefore ⊢
    rw [hserving]
    exact hbefore
  exact ⟨⟨hwatched.frozen, hwatched.delayed⟩, hwatched.quiet, hwatched.armed, hkept⟩

lemma watched_afresh (hw : d.watch = some w) (hafresh : w = afresh w) (hserved : d.served = d.own) :
    d.Watched w := by
  have hfrozen : w.showsFrozen = false := by rw [hafresh]; rfl
  have hdelayed : w.showsDelayedFrozen = false := by rw [hafresh]; rfl
  have hheld : w.held = none := by rw [hafresh]; rfl
  have harmed : w.armed = false := by rw [hafresh]; rfl
  exact watched_of_quiet hw hfrozen hdelayed hheld
    (fun ha => absurd (harmed.symm.trans ha) Bool.false_ne_true) (fun _ => harmed) hserved

lemma Sound.enter (h : d.Sound) (tag : ℕ) (e : FeedEntry V) :
    (∀ w ∈ (d.enter tag e).watch, (d.enter tag e).Watched w) ∧
      if d.feedOf tag = (d.enter tag e).serving then d.Served (d.enter tag e) e
      else (d.enter tag e).served = d.served ∧ (d.enter tag e).told = d.told := by
  cases hw : d.watch with
  | none =>
      have hfeed : d.feedOf tag = none := by rw [feedOf, hw]; rfl
      have howns : d.servesItsOwn = true := by rw [servesItsOwn, hw]
      unfold FrozenDesk.enter
      rw [hfeed]
      dsimp only
      rw [if_pos howns]
      have hwatch : ((d.applyServed e).noteOwn e).watch = none := by cases e <;> exact hw
      have hnone : ((d.applyServed e).noteOwn e).serving = none := by rw [serving, hwatch]; rfl
      refine ⟨fun w hw' => absurd (hwatch.symm.trans hw') (Option.some_ne_none w).symm, ?_⟩
      rw [if_pos hnone.symm]
      cases e <;> exact ⟨rfl, rfl⟩
  | some w =>
      have hwatched := h.watched w hw
      have hone {w' : StatusWatch V} (hw' : (d.enter tag e).watch = some w')
          (hthis : (d.enter tag e).Watched w') :
          ∀ w ∈ (d.enter tag e).watch, (d.enter tag e).Watched w := by
        intro w'' hw''
        obtain rfl := Option.some.inj (hw'.symm.trans hw'')
        exact hthis
      cases hfeed : d.feedOf tag with
      | none =>
          obtain ⟨⟨w', hw', hthis⟩, hserving, hserved⟩ := hwatched.entersOwn hw e hfeed
          refine ⟨hone hw' hthis, ?_⟩
          by_cases hown : d.serving = none
          · rw [if_pos hown] at hserved
            rw [if_pos (hserving.trans hown).symm]
            exact hserved
          · rw [if_neg hown] at hserved
            rw [if_neg fun hthis => hown (hserving.symm.trans hthis.symm)]
            exact hserved
      | some feed =>
          obtain ⟨⟨w', hw', hthis⟩, hserved⟩ := hwatched.entersOther hw e hfeed
          exact ⟨hone hw' hthis, hserved⟩

lemma Sound.goOut (h : d.Sound) (hconnected : d.connected = false)
    (hwithdrawn : d.withdrawn = false) : d.goOut.Sound := by
  obtain ⟨htags, -, hafresh⟩ := h.idle hwithdrawn hconnected
  have hmap : d.watch.map afresh = d.watch := by
    cases hw : d.watch with
    | none => rfl
    | some w => rw [Option.map_some, ← hafresh w hw]
  have hout : Sound { d with
      connected := true
      delayed := d.delayed.map fun _ => false
      nextMdReqId := d.nextMdReqId + 2
      mdReqs := d.mdReqs ++ [d.nextMdReqId, d.nextMdReqId + 1]
      ownRequests := some (d.nextMdReqId, d.nextMdReqId + 1)
      watch := d.watch.map afresh } := by
    rw [hmap]
    refine ⟨fun w hw => ?_, { h.logged with }, fun _ hno => nomatch hno⟩
    have hquiet : w.inFrozenState = false := by rw [hafresh w hw]; rfl
    exact watched_afresh hw (hafresh w hw) ((h.watched w hw).held_of_quiet hw hquiet).2
  unfold FrozenDesk.goOut
  dsimp only
  split_ifs
  · refine ⟨fun w hw => ?_, hout.logged.askStatus, fun _ hno => ?_⟩
    · unfold FrozenDesk.askStatus at hw ⊢
      split at hw
      · rename_i hnone
        exact absurd (hnone.symm.trans hw) (Option.some_ne_none w).symm
      · rename_i w' hw'
        obtain rfl := Option.some.inj hw
        exact (hout.watched w' hw').congr hw' rfl ⟨⟨rfl, rfl, rfl, rfl, rfl, rfl⟩, rfl, rfl, rfl⟩ id
          rfl rfl rfl rfl
    · exact nomatch (alike_askStatus _).connected.symm.trans hno
  · exact hout

lemma Sound.step (h : d.Sound) {e : FrozenEvent V} (hclean : d.Clean e) : (d.step e).Sound := by
  cases e with
  | goesOut =>
      rw [FrozenDesk.step]
      split_ifs with hno
      · exact h
      · rw [not_or] at hno
        exact h.goOut (eq_false_of_ne_true hno.1) (eq_false_of_ne_true hno.2)
  | acks request tag minTick =>
      rw [FrozenDesk.step]
      split_ifs with hno
      · exact h
      · exact h.answered request
      · rw [not_or, not_not] at hno
        have hout := h.answered request
        refine ⟨hout.acknowledge request tag minTick, hout.logged.acknowledge request tag minTick,
          fun hwithdrawn hconnected => ?_⟩
        have hnone := (h.idle hwithdrawn hconnected).2.1
        exact absurd (hnone ▸ hno.2) List.not_mem_nil
  | refuses request delayedAvailable =>
      rw [FrozenDesk.step]
      split_ifs with hin hno
      · exact h
      · refine ⟨h.refuse request delayedAvailable, h.logged.refuse request delayedAvailable,
          fun _ hconnected => ?_⟩
        have hnone := (h.idle (eq_false_of_ne_true hin)
          ((connected_refuse d request delayedAvailable).symm.trans hconnected)).2.1
        exact absurd (hnone ▸ hno) List.not_mem_nil
      · have hthis : d.withdrawn = true ∨ request ∈ d.mdReqs ∨ feedAsked request d.sent = none :=
          hclean.2
        exact h.passOver ((hthis.resolve_left hin).resolve_left hno)
  | states closed =>
      rw [FrozenDesk.step]
      split_ifs with hno
      · exact h
      · rw [not_or, not_not] at hno
        have hsome : ∃ w, d.watch = some w ∧ w.status.isSome = true := by
          cases hw : d.watch with
          | none =>
              rw [hw] at hno
              exact absurd hno.2 (by simp)
          | some w =>
              rw [hw] at hno
              exact ⟨w, rfl, hno.2⟩
        obtain ⟨w, hw, hstatus⟩ := hsome
        obtain ⟨w', hw', hwatched⟩ := (h.watched w hw).applies hw closed
        refine ⟨fun w'' hw'' => ?_, h.logged.applyStatus closed, fun _ hconnected => ?_⟩
        · obtain rfl := Option.some.inj (hw'.symm.trans hw'')
          exact hwatched
        · have hafresh := (h.idle (eq_false_of_ne_true hno.1)
            ((alike_applyStatus d closed).connected.symm.trans hconnected)).2.2 w hw
          rw [hafresh] at hstatus
          exact absurd hstatus Bool.false_ne_true
  | enters tag e =>
      rw [FrozenDesk.step]
      split_ifs with hno
      · exact h
      · rw [not_or, not_not] at hno
        refine ⟨(h.enter tag e).1, h.logged.enter tag e, fun _ hconnected => ?_⟩
        have hnone := (h.idle (eq_false_of_ne_true hno.1)
          ((connected_enter d tag e).symm.trans hconnected)).1
        exact absurd (hnone ▸ hno.2) List.not_mem_nil
  | trades halted =>
      rw [FrozenDesk.step]
      split_ifs with hno
      · exact h
      · rw [not_or, not_not] at hno
        exact h.noteTrading hno.2 hclean.2
  | drops =>
      rw [FrozenDesk.step]
      split_ifs
      · exact h
      · refine ⟨fun w' hw' => ?_, ⟨h.logged.once, fun f => ?_, fun _ _ _ hf =>
          absurd hf List.not_mem_nil, ?_, fun w' hw' _ => ?_, fun _ _ htag =>
          absurd htag List.not_mem_nil⟩, fun _ _ => ⟨rfl, rfl, fun w' hw' => ?_⟩⟩
        · obtain ⟨w, hw, rfl⟩ := Option.map_eq_some_iff.1 hw'
          exact watched_afresh hw' rfl rfl
        · rw [pairs, handleDisconnect]
          cases d.watch <;> simp [standingFeeds, afresh]
        · rw [handleDisconnect]
          cases d.watch <;> simp [standingStatus, afresh]
        · obtain ⟨w, hw, rfl⟩ := Option.map_eq_some_iff.1 hw'
          rfl
        · obtain ⟨w, hw, rfl⟩ := Option.map_eq_some_iff.1 hw'
          rfl
  | withdraws =>
      rw [FrozenDesk.step]
      split_ifs
      · exact h
      · have hover : Logged { d with withdrawn := true } :=
          { h.logged with filed := fun hin => nomatch hin }
        have hnone := watch_withdrawStatusWatch { d with withdrawn := true }
        have hout := (unserved_withdrawStatusWatch { d with withdrawn := true }).withdrawn
        exact ⟨fun w hw => absurd (hnone.symm.trans hw) (Option.some_ne_none w).symm,
          hover.withdrawStatusWatch fun hin => (nomatch hin),
          fun hin => nomatch hout.symm.trans hin⟩

lemma Sound.opens (h : d.Sound) (hw : d.watch = some w) :
    (d.applyStatus false).serving = none ∧ (d.serving ≠ none →
      ∃ series : List (ℤ × V), (d.applyStatus false).told = d.told ++ series ∧
        (series.map Prod.fst).Nodup ∧
        ∀ k, at? Prod.fst series k = at? Prod.fst d.readings k) := by
  have hwatched := h.watched w hw
  have hnoted : Watched { d with watch := some { w with closed := false } }
      { w with closed := false } :=
    hwatched.congr hw rfl (unserved_watch d _) id rfl rfl rfl rfl
  have hwatch : ({ d with watch := some { w with closed := false } } : FrozenDesk V).watch =
      some { w with closed := false } := rfl
  have hserving : serving { d with watch := some { w with closed := false } } = d.serving :=
    (serving_of_watch hwatch).trans (serving_of_watch hw).symm
  unfold applyStatus
  rw [hw]
  dsimp only
  rw [Bool.false_and, if_neg Bool.false_ne_true, Bool.not_false, Bool.true_and]
  split_ifs with hin
  · obtain ⟨w', hw', -, hnone, htold⟩ := hnoted.leaves rfl
    refine ⟨hnone, fun hother => ?_⟩
    obtain ⟨held, hheld, htold⟩ := htold (hserving ▸ hother)
    have hkept := hwatched.kept
    have hheld : w.held = some held := hheld
    unfold Kept at hkept
    rw [hheld] at hkept
    exact ⟨held.series, htold, hkept.2.2⟩
  · obtain ⟨hfrozen, hdelayed, -⟩ := hwatched.quiet (eq_false_of_ne_true hin)
    have hnone : d.serving = none := by
      rw [serving_of_watch hw, hfrozen, hdelayed]
      rfl
    exact ⟨hserving.trans hnone, fun hother => absurd hnone hother⟩

end FrozenDesk

end IbkrDx

