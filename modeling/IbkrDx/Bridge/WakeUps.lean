import Mathlib.Data.Finset.Card
import IbkrDx.Lib.Runs

/-!
# Waking whoever reads the session

The notifications of `bridge/mod.rs`, an atomic operation at a time: any number of threads push
records and notify, a reader passes over the session, and callers wait for data.

* **`wake_ups_not_lost`** — every record a finished notification covers is heard, the hook is taken
  once for each time the reader arms, and a wait finds the flag of a notification before it.

The hook is set throughout and does not panic.  A record's stamp is taken as it is pushed, under the
lock the drain takes.
-/

namespace IbkrDx

/-- Where a thread is in `notify`, with the stamp counter as the notification began and as it read
it. -/
inductive Notifying where
  | idle
  /-- The pending flag is set. -/
  | announced (begun : ℕ)
  | readCut (begun cut : ℕ)
  | swapped (begun cut : ℕ) (pushed : Bool)
  | noted (begun cut : ℕ) (changed : Bool)
  /-- The hook was seen armed. -/
  | mayCall (begun cut : ℕ)
  /-- The armed flag was taken, and the hook is to be called. -/
  | calling (begun cut : ℕ)
  deriving DecidableEq

/-- Where the reader is in its pass: armed, then with the cut it took. -/
inductive Reading where
  | idle
  | armed
  | cut (c : ℕ)
  deriving DecidableEq

/-- What notifications, reads and waits share, and their history. -/
structure WakeState where
  /-- The stamp the next record will take. -/
  cut : ℕ := 0
  written : Bool := false
  pending : Bool := false
  wakeArmed : Bool := true
  wakeCut : ℕ := 0
  threads : ℕ → Notifying := fun _ => .idle
  reading : Reading := .idle
  /-- The waits that sleep on the condition variable. -/
  waiting : ℕ := 0
  drained : ℕ := 0
  /-- The records below it were pushed before a notification that has finished. -/
  notified : ℕ := 0
  calls : ℕ := 0
  takes : ℕ := 0
  /-- The calls and the takings of the armed flag as the reader last armed. -/
  callsAtArm : ℕ := 0
  takesAtArm : ℕ := 0
  /-- The threads that have taken the flag and not called the hook. -/
  owing : Finset ℕ := ∅
  notifies : ℕ := 0
  /-- The notifications before the last wait that took the pending flag. -/
  consumed : ℕ := 0

inductive WakeEvent where
  | push (thread : ℕ)
  | write (thread : ℕ)
  | notify (thread : ℕ)
  | next (thread : ℕ)
  | arm
  | takeCut
  | drain
  | beginWait
  | endWait (timedOut : Bool)

namespace WakeState

def goesOn (s : WakeState) (i : ℕ) (n : Notifying) : WakeState :=
  { s with threads := Function.update s.threads i n }

def finish (s : WakeState) (i begun : ℕ) : WakeState :=
  { s.goesOn i .idle with notified := max s.notified begun }

/-- The first half of `notify`: the pending flag, under its lock. -/
def notify (s : WakeState) (i : ℕ) : WakeState :=
  if s.threads i = .idle then
    { s.goesOn i (.announced s.cut) with pending := true, notifies := s.notifies + 1 }
  else s

/-- The next operation of `wake`. -/
def next (s : WakeState) (i : ℕ) : WakeState :=
  match s.threads i with
  | .idle => s
  | .announced begun => s.goesOn i (.readCut begun s.cut)
  | .readCut begun cut => { s.goesOn i (.swapped begun cut (s.wakeCut ≠ cut)) with wakeCut := cut }
  | .swapped begun cut pushed =>
      { s.goesOn i (.noted begun cut (pushed || s.written)) with written := false }
  | .noted begun cut changed =>
      if changed && s.wakeArmed then s.goesOn i (.mayCall begun cut) else s.finish i begun
  | .mayCall begun cut =>
      if s.wakeArmed then
        { s.goesOn i (.calling begun cut) with
          wakeArmed := false
          takes := s.takes + 1
          owing := insert i s.owing }
      else s.finish i begun
  | .calling begun _ =>
      { s.finish i begun with calls := s.calls + 1, owing := s.owing.erase i }

/-- `arm_wake`, as a pass begins. -/
def arm (s : WakeState) : WakeState :=
  if s.reading = .idle then
    { s with
      wakeArmed := true
      reading := .armed
      callsAtArm := s.calls
      takesAtArm := s.takes }
  else s

def takeCut (s : WakeState) : WakeState :=
  if s.reading = .armed then { s with reading := .cut s.cut } else s

def drain (s : WakeState) : WakeState :=
  match s.reading with
  | .cut c => { s with reading := .idle, drained := max s.drained c }
  | _ => s

/-- `wait_for_data` up to its sleep: what it returns at once, if it does. -/
def beginWait (s : WakeState) : Option Bool × WakeState :=
  if s.pending then (some true, { s with pending := false, consumed := s.notifies })
  else (none, { s with waiting := s.waiting + 1 })

def endWait (s : WakeState) (timedOut : Bool) : Option Bool × WakeState :=
  if s.waiting = 0 then (none, s)
  else
    let hadData := s.pending
    let s := { s with waiting := s.waiting - 1 }
    (some (hadData || !timedOut),
      if hadData then { s with pending := false, consumed := s.notifies } else s)

/-- The state behind one operation.  A thread pushes and writes between its notifications. -/
def step (s : WakeState) : WakeEvent → WakeState
  | .push i => if s.threads i = .idle then { s with cut := s.cut + 1 } else s
  | .write i => if s.threads i = .idle then { s with written := true } else s
  | .notify i => s.notify i
  | .next i => s.next i
  | .arm => s.arm
  | .takeCut => s.takeCut
  | .drain => s.drain
  | .beginWait => s.beginWait.2
  | .endWait timedOut => (s.endWait timedOut).2

/-! ## Records that are heard of -/

end WakeState

def Reading.Will : Reading → ℕ → Prop
  | .idle, _ => False
  | .armed, _ => True
  | .cut c, r => r < c

/-- A notification that read the counter behind a record, or has the flag, is on its way to the
hook. -/
def Notifying.OnItsWay : Notifying → ℕ → Prop
  | .swapped _ cut true, r | .noted _ cut true, r | .mayCall _ cut, r => r < cut
  | .calling _ _, _ => True
  | _, _ => False

namespace WakeState

/-- The hook has been called since the reader last armed. -/
def Called (s : WakeState) : Prop := s.callsAtArm < s.calls

/-- A record is drained, is about to be, or whoever reads has been woken since it armed or is about
to be. -/
def Heard (s : WakeState) (r : ℕ) : Prop :=
  r < s.drained ∨ s.reading.Will r ∨ s.Called ∨ ∃ i, (s.threads i).OnItsWay r

end WakeState

def Notifying.cutRead : Notifying → Option (ℕ × ℕ)
  | .readCut begun cut | .swapped begun cut _ | .noted begun cut _ | .mayCall begun cut
  | .calling begun cut => some (begun, cut)
  | _ => none

def Notifying.Put : Notifying → Prop
  | .swapped .. | .noted .. | .mayCall .. | .calling .. => True
  | _ => False

namespace WakeState

/-- No counter is ahead of the stamps handed out. -/
structure Behind (s : WakeState) : Prop where
  wakeCut : s.wakeCut ≤ s.cut
  notified : s.notified ≤ s.cut
  announced : ∀ i begun, s.threads i = .announced begun → begun ≤ s.cut
  read : ∀ i begun cut, (s.threads i).cutRead = some (begun, cut) → begun ≤ cut ∧ cut ≤ s.cut

structure Woken (s : WakeState) : Prop extends Behind s where
  called : s.callsAtArm ≤ s.calls
  /-- The flag is down only where the hook has been called since, or is to be. -/
  taken : s.wakeArmed = false → s.Called ∨ ∃ i begun cut, s.threads i = .calling begun cut
  put : ∀ r < s.wakeCut, s.Heard r
  thread : ∀ i begun cut, (s.threads i).cutRead = some (begun, cut) → (s.threads i).Put →
    ∀ r < cut, s.Heard r
  covered : ∀ r < s.notified, s.Heard r

/-! ## What is heard stays heard -/

variable {s : WakeState}

lemma Heard.of_calling {i begun cut : ℕ} (h : s.threads i = .calling begun cut)
    (r : ℕ) : s.Heard r :=
  .inr (.inr (.inr ⟨i, by simp only [h, Notifying.OnItsWay]⟩))

lemma Woken.heard_of_down (h : s.Woken) (hdown : s.wakeArmed = false) {i : ℕ}
    (hi : ∀ begun cut, s.threads i ≠ .calling begun cut) :
    s.Called ∨ ∃ j ≠ i, ∃ begun cut, s.threads j = .calling begun cut := by
  rcases h.taken hdown with hcalled | ⟨j, begun, cut, hj⟩
  · exact .inl hcalled
  · refine .inr ⟨j, ?_, begun, cut, hj⟩
    rintro rfl
    exact hi begun cut hj

variable {n : Notifying}

lemma Heard.of_goesOn {s' : WakeState} {i : ℕ} {r : ℕ} (hr : s.Heard r)
    (hthreads : s'.threads = Function.update s.threads i n) (hreading : s'.reading = s.reading)
    (hdrained : s'.drained = s.drained) (hcalled : s.Called → s'.Called)
    (hi : (s.threads i).OnItsWay r → s'.Heard r) : s'.Heard r := by
  rcases hr with h | h | h | ⟨j, hj⟩
  · exact .inl (hdrained ▸ h)
  · exact .inr (.inl (hreading ▸ h))
  · exact .inr (.inr (.inl (hcalled h)))
  · by_cases hji : j = i
    · exact hi (hji ▸ hj)
    · refine .inr (.inr (.inr ⟨j, ?_⟩))
      rwa [hthreads, Function.update_of_ne hji]

lemma Heard.of_onItsWay {s' : WakeState} {i r : ℕ} {t : ℕ → Notifying}
    (hthreads : s'.threads = Function.update t i n) (hn : n.OnItsWay r) : s'.Heard r :=
  .inr (.inr (.inr ⟨i, by rwa [hthreads, Function.update_self]⟩))

lemma Woken.heard_finish (h : s.Woken) (hdown : s.wakeArmed = false) {i : ℕ}
    (hi : ∀ begun cut, s.threads i ≠ .calling begun cut) (begun r : ℕ) :
    (s.finish i begun).Heard r := by
  rcases h.heard_of_down hdown hi with hcalled | ⟨j, hji, begun', cut', hj⟩
  · exact .inr (.inr (.inl hcalled))
  · have hstill : (s.finish i begun).threads j = .calling begun' cut' := by
      simpa only [finish, goesOn, Function.update_of_ne hji] using hj
    exact Heard.of_calling hstill r

lemma Woken.heard_next (h : s.Woken) (i : ℕ) {r : ℕ} (hr : s.Heard r) :
    (s.next i).Heard r := by
  cases hi : s.threads i with
  | idle => simpa only [next, hi] using hr
  | announced begun =>
    simp only [next, hi]
    exact hr.of_goesOn rfl rfl rfl id fun hw => by simp [hi, Notifying.OnItsWay] at hw
  | readCut begun cut =>
    simp only [next, hi]
    exact hr.of_goesOn rfl rfl rfl id fun hw => by simp [hi, Notifying.OnItsWay] at hw
  | swapped begun cut pushed =>
    simp only [next, hi]
    refine hr.of_goesOn rfl rfl rfl id fun hw => ?_
    cases pushed with
    | false => simp [hi, Notifying.OnItsWay] at hw
    | true => exact Heard.of_onItsWay rfl (by simpa [hi, Notifying.OnItsWay] using hw)
  | noted begun cut changed =>
    simp only [next, hi]
    split_ifs with hgo
    · exact hr.of_goesOn rfl rfl rfl id fun hw => Heard.of_onItsWay rfl (by
        simp only [Bool.and_eq_true] at hgo
        simpa only [hi, hgo.1, Notifying.OnItsWay] using hw)
    · refine hr.of_goesOn rfl rfl rfl id fun hw => ?_
      cases changed with
      | false => simp [hi, Notifying.OnItsWay] at hw
      | true => exact h.heard_finish (by simpa using hgo) (by simp [hi]) begun r
  | mayCall begun cut =>
    simp only [next, hi]
    split_ifs with hup
    · exact hr.of_goesOn rfl rfl rfl id fun _ => Heard.of_onItsWay rfl trivial
    · exact h.heard_finish (by simpa using hup) (by simp [hi]) begun r
  | calling begun cut =>
    simp only [next, hi]
    exact .inr (.inr (.inl (Nat.lt_succ_of_le h.called)))

lemma Woken.heard_step (h : s.Woken) (e : WakeEvent) {r : ℕ} (hr : s.Heard r)
    (hcut : r < s.cut) : (s.step e).Heard r := by
  cases e with
  | push i => simp only [step]; split_ifs <;> exact hr
  | write i => simp only [step]; split_ifs <;> exact hr
  | notify i =>
    simp only [step, notify]
    split_ifs with hi
    · exact hr.of_goesOn rfl rfl rfl id fun hw => by simp [hi, Notifying.OnItsWay] at hw
    · exact hr
  | next i => exact h.heard_next i hr
  | arm =>
    simp only [step, arm]
    split_ifs with hidle
    · exact .inr (.inl trivial)
    · exact hr
  | takeCut =>
    simp only [step, takeCut]
    split_ifs with harmed
    · exact .inr (.inl hcut)
    · exact hr
  | drain =>
    simp only [step, drain]
    split
    case h_1 c hc =>
      rcases hr with hd | hw | hrest
      · exact .inl (lt_max_of_lt_left hd)
      · exact .inl (lt_max_of_lt_right (by simpa only [hc, Reading.Will] using hw))
      · exact .inr (.inr hrest)
    case h_2 => exact hr
  | beginWait => simp only [step, beginWait]; split_ifs <;> exact hr
  | endWait timedOut =>
    simp only [step, endWait]
    split_ifs <;> exact hr

/-! ## What every operation keeps -/

/-- What a thread says of the counter it read, as `Woken` asks of it. -/
def ThreadKept (s : WakeState) (n : Notifying) : Prop :=
  (∀ begun, n = .announced begun → begun ≤ s.cut) ∧
    ∀ begun cut, n.cutRead = some (begun, cut) →
      begun ≤ cut ∧ cut ≤ s.cut ∧ (n.Put → ∀ r < cut, s.Heard r)

lemma Woken.threadKept (h : s.Woken) (i : ℕ) : s.ThreadKept (s.threads i) :=
  ⟨h.announced i, fun begun cut hi => ⟨(h.read i begun cut hi).1, (h.read i begun cut hi).2,
    fun hput => h.thread i begun cut hi hput⟩⟩

lemma Woken.of_threadKept (hwakeCut : s.wakeCut ≤ s.cut)
    (hnotified : s.notified ≤ s.cut) (hcalled : s.callsAtArm ≤ s.calls)
    (htaken : s.wakeArmed = false → s.Called ∨ ∃ i begun cut, s.threads i = .calling begun cut)
    (hput : ∀ r < s.wakeCut, s.Heard r) (hcovered : ∀ r < s.notified, s.Heard r)
    (hthreads : ∀ i, s.ThreadKept (s.threads i)) : s.Woken where
  wakeCut := hwakeCut
  notified := hnotified
  announced i := (hthreads i).1
  read i begun cut hi := ⟨((hthreads i).2 begun cut hi).1, ((hthreads i).2 begun cut hi).2.1⟩
  called := hcalled
  taken := htaken
  put := hput
  thread i begun cut hi hp := ((hthreads i).2 begun cut hi).2.2 hp
  covered := hcovered

lemma ThreadKept.step (h : s.Woken) (e : WakeEvent) (hcut : s.cut ≤ (s.step e).cut)
    (hn : s.ThreadKept n) : (s.step e).ThreadKept n := by
  refine ⟨fun begun hbegun => (hn.1 begun hbegun).trans hcut, fun begun cut hread => ?_⟩
  obtain ⟨hle, hlt, hheard⟩ := hn.2 begun cut hread
  exact ⟨hle, hlt.trans hcut, fun hput r hr => h.heard_step e (hheard hput r hr) (hr.trans_le hlt)⟩

lemma cut_next (s : WakeState) (i : ℕ) : (s.next i).cut = s.cut := by
  unfold next
  cases s.threads i <;> dsimp only
  case noted => split_ifs <;> rfl
  case mayCall => split_ifs <;> rfl
  all_goals rfl

lemma cut_le_step (s : WakeState) (e : WakeEvent) : s.cut ≤ (s.step e).cut := by
  cases e with
  | push i =>
    simp only [step]
    split_ifs
    · exact Nat.le_succ _
    · exact le_rfl
  | next i => exact (s.cut_next i).ge
  | drain =>
    simp only [step, drain]
    split <;> exact le_rfl
  | _ =>
    simp only [step, notify, arm, takeCut, beginWait, endWait]
    split_ifs <;> exact le_rfl

lemma threads_next (s : WakeState) (i j : ℕ) (hj : j ≠ i) : (s.next i).threads j = s.threads j := by
  unfold next
  cases s.threads i <;> dsimp only [goesOn, finish]
  case noted => split_ifs <;> exact Function.update_of_ne hj ..
  case mayCall => split_ifs <;> exact Function.update_of_ne hj ..
  all_goals exact Function.update_of_ne hj ..

lemma ThreadKept.of_put {n' : Notifying} (h : s.ThreadKept n) (hput : n.Put)
    (hread : n'.cutRead = n.cutRead) (hn' : ∀ begun, n' ≠ .announced begun) : s.ThreadKept n' := by
  refine ⟨fun begun hbegun => absurd hbegun (hn' begun), fun begun cut hcut => ?_⟩
  obtain ⟨hle, hlt, hheard⟩ := h.2 begun cut (hread ▸ hcut)
  exact ⟨hle, hlt, fun _ => hheard hput⟩

lemma Woken.heard_swap (h : s.Woken) {i begun cut : ℕ}
    (hi : s.threads i = .readCut begun cut) {r : ℕ} (hr : r < cut) : (s.next i).Heard r := by
  by_cases hsame : s.wakeCut = cut
  · exact h.heard_next i (h.put r (hsame ▸ hr))
  · simp only [next, hi, ne_eq, hsame, not_false_eq_true, decide_true]
    exact Heard.of_onItsWay rfl hr

lemma Woken.threadKept_next (h : s.Woken) (i : ℕ) :
    (s.next i).ThreadKept ((s.next i).threads i) := by
  have hkept := (h.threadKept i).step h (.next i) (s.cut_le_step _)
  simp only [step] at hkept
  have hidle : (s.next i).ThreadKept .idle := ⟨nofun, nofun⟩
  cases hi : s.threads i with
  | idle => simpa only [next, hi] using hidle
  | announced begun =>
    have hbegun := h.announced i begun hi
    simp only [next, hi, goesOn, Function.update_self]
    refine ⟨nofun, fun begun' cut hread => ?_⟩
    simp only [Notifying.cutRead, Option.some.injEq, Prod.mk.injEq] at hread
    obtain ⟨rfl, rfl⟩ := hread
    exact ⟨hbegun, le_rfl, False.elim⟩
  | readCut begun cut =>
    have hthread : (s.next i).threads i = .swapped begun cut (s.wakeCut ≠ cut) := by
      simp only [next, hi, goesOn, Function.update_self]
    rw [hthread]
    refine ⟨nofun, fun begun' cut' hread => ?_⟩
    obtain ⟨hle, hlt, -⟩ := hkept.2 begun' cut' (by rw [hi]; exact hread)
    simp only [Notifying.cutRead, Option.some.injEq, Prod.mk.injEq] at hread
    obtain ⟨rfl, rfl⟩ := hread
    exact ⟨hle, hlt, fun _ r hr => h.heard_swap hi hr⟩
  | swapped begun cut pushed =>
    have hthread : (s.next i).threads i = .noted begun cut (pushed || s.written) := by
      simp only [next, hi, goesOn, Function.update_self]
    rw [hi] at hkept
    rw [hthread]
    exact hkept.of_put trivial rfl nofun
  | noted begun cut changed =>
    rw [hi] at hkept
    by_cases hgo : (changed && s.wakeArmed) = true
    · have hthread : (s.next i).threads i = .mayCall begun cut := by
        simp only [next, hi, if_pos hgo, goesOn, Function.update_self]
      rw [hthread]
      exact hkept.of_put trivial rfl nofun
    · have hthread : (s.next i).threads i = .idle := by
        simp only [next, hi, if_neg hgo, finish, goesOn, Function.update_self]
      rwa [hthread]
  | mayCall begun cut =>
    rw [hi] at hkept
    by_cases hup : s.wakeArmed = true
    · have hthread : (s.next i).threads i = .calling begun cut := by
        simp only [next, hi, if_pos hup, goesOn, Function.update_self]
      rw [hthread]
      exact hkept.of_put trivial rfl nofun
    · have hthread : (s.next i).threads i = .idle := by
        simp only [next, hi, if_neg hup, finish, goesOn, Function.update_self]
      rwa [hthread]
  | calling begun cut =>
    have hthread : (s.next i).threads i = .idle := by
      simp only [next, hi, finish, goesOn, Function.update_self]
    rwa [hthread]

lemma Woken.threadKept_step (h : s.Woken) (e : WakeEvent) (i : ℕ) :
    (s.step e).ThreadKept ((s.step e).threads i) := by
  have hkept := (h.threadKept i).step h e (s.cut_le_step e)
  have hsame (hi : (s.step e).threads i = s.threads i) :
      (s.step e).ThreadKept ((s.step e).threads i) := by rwa [hi]
  cases e with
  | next j =>
    by_cases hij : i = j
    · exact hij ▸ h.threadKept_next j
    · exact hsame (s.threads_next j i hij)
  | notify j =>
    by_cases hj : s.threads j = .idle
    · by_cases hij : i = j
      · subst hij
        have hthread : (s.step (.notify i)).threads i = .announced s.cut := by
          simp only [step, notify, if_pos hj, goesOn, Function.update_self]
        rw [hthread]
        refine ⟨fun begun hbegun => ?_, nofun⟩
        cases hbegun
        exact s.cut_le_step _
      · exact hsame (by simp only [step, notify, if_pos hj, goesOn, Function.update_of_ne hij])
    · exact hsame (by simp only [step, notify, if_neg hj])
  | drain =>
    refine hsame ?_
    simp only [step, drain]
    split <;> rfl
  | _ =>
    refine hsame ?_
    simp only [step, arm, takeCut, beginWait, endWait]
    split_ifs <;> rfl

lemma wakeCut_step (s : WakeState) (e : WakeEvent) :
    (s.step e).wakeCut = s.wakeCut ∨
      ∃ i begun cut, e = .next i ∧ s.threads i = .readCut begun cut ∧ (s.step e).wakeCut = cut := by
  cases e with
  | next i =>
    simp only [step, next]
    cases hi : s.threads i <;> dsimp only
    case readCut begun cut => exact .inr ⟨i, begun, cut, rfl, hi, rfl⟩
    case noted => split_ifs <;> exact .inl rfl
    case mayCall => split_ifs <;> exact .inl rfl
    all_goals exact .inl rfl
  | drain =>
    simp only [step, drain]
    split <;> exact .inl rfl
  | _ =>
    simp only [step, notify, arm, takeCut, beginWait, endWait]
    split_ifs <;> exact .inl rfl

lemma notified_step (s : WakeState) (e : WakeEvent) :
    (s.step e).notified = s.notified ∨
      ∃ i begun cut, (s.threads i).cutRead = some (begun, cut) ∧ (s.threads i).Put ∧
        (s.step e).notified = max s.notified begun := by
  cases e with
  | next i =>
    simp only [step, next]
    cases hi : s.threads i <;> dsimp only
    case noted begun cut changed =>
      split_ifs
      · exact .inl rfl
      · exact .inr ⟨i, begun, cut, by rw [hi]; rfl, by rw [hi]; trivial, rfl⟩
    case mayCall begun cut =>
      split_ifs
      · exact .inl rfl
      · exact .inr ⟨i, begun, cut, by rw [hi]; rfl, by rw [hi]; trivial, rfl⟩
    case calling begun cut =>
      exact .inr ⟨i, begun, cut, by rw [hi]; rfl, by rw [hi]; trivial, rfl⟩
    all_goals exact .inl rfl
  | drain =>
    simp only [step, drain]
    split <;> exact .inl rfl
  | _ =>
    simp only [step, notify, arm, takeCut, beginWait, endWait]
    split_ifs <;> exact .inl rfl

lemma Woken.taken_step (h : s.Woken) (e : WakeEvent)
    (hdown : (s.step e).wakeArmed = false) :
    (s.step e).Called ∨ ∃ i begun cut, (s.step e).threads i = .calling begun cut := by
  cases e with
  | next i =>
    simp only [step] at hdown ⊢
    have hothers (hcalls : (s.next i).callsAtArm = s.callsAtArm ∧ (s.next i).calls = s.calls)
        (hwas : s.wakeArmed = false) (hi : ∀ begun cut, s.threads i ≠ .calling begun cut) :
        (s.next i).Called ∨ ∃ j begun cut, (s.next i).threads j = .calling begun cut := by
      rcases h.heard_of_down hwas hi with hcalled | ⟨j, hji, begun, cut, hj⟩
      · refine .inl ?_
        rw [Called, hcalls.1, hcalls.2]
        exact hcalled
      · exact .inr ⟨j, begun, cut, (s.threads_next i j hji).trans hj⟩
    cases hi : s.threads i with
    | calling begun cut =>
      refine .inl ?_
      simp only [next, hi]
      exact Nat.lt_succ_of_le h.called
    | mayCall begun cut =>
      by_cases hup : s.wakeArmed = true
      · refine .inr ⟨i, begun, cut, ?_⟩
        simp only [next, hi, if_pos hup, goesOn, Function.update_self]
      · refine hothers ?_ (by simpa using hup) (by simp [hi])
        simp only [next, hi, if_neg hup, finish, goesOn, and_self]
    | noted begun cut changed =>
      refine hothers ?_ ?_ (by simp [hi])
      · simp only [next, hi]
        split_ifs <;> exact ⟨rfl, rfl⟩
      · simp only [next, hi] at hdown
        split_ifs at hdown <;> exact hdown
    | _ =>
      simp only [next, hi] at hdown
      refine hothers ?_ hdown (by simp [hi])
      simp only [next, hi, goesOn, and_self]
  | notify i =>
    simp only [step, notify] at hdown ⊢
    split_ifs at hdown ⊢ with hi
    · rcases h.heard_of_down hdown (i := i) (by simp [hi]) with hcalled | ⟨j, hji, begun, cut, hj⟩
      · exact .inl hcalled
      · exact .inr ⟨j, begun, cut, by simpa only [goesOn, Function.update_of_ne hji] using hj⟩
    · exact h.taken hdown
  | arm =>
    simp only [step, arm] at hdown ⊢
    split_ifs at hdown ⊢
    exact h.taken hdown
  | drain =>
    simp only [step, drain] at hdown ⊢
    split at hdown <;> exact h.taken hdown
  | _ =>
    simp only [step, takeCut, beginWait, endWait] at hdown ⊢
    split_ifs at hdown ⊢ <;> exact h.taken hdown

lemma Woken.called_step (h : s.Woken) (e : WakeEvent) :
    (s.step e).callsAtArm ≤ (s.step e).calls := by
  cases e with
  | next i =>
    simp only [step, next]
    cases s.threads i <;> dsimp only
    case noted => split_ifs <;> exact h.called
    case mayCall => split_ifs <;> exact h.called
    case calling => exact h.called.trans (Nat.le_succ _)
    all_goals exact h.called
  | arm =>
    simp only [step, arm]
    split_ifs
    · exact le_rfl
    · exact h.called
  | drain =>
    simp only [step, drain]
    split <;> exact h.called
  | _ =>
    simp only [step, notify, takeCut, beginWait, endWait]
    split_ifs <;> exact h.called

lemma Woken.step (h : s.Woken) (e : WakeEvent) : (s.step e).Woken := by
  have hcut := s.cut_le_step e
  have hstill {c : ℕ} (hc : c ≤ s.cut) (hheard : ∀ r < c, s.Heard r) (r : ℕ) (hr : r < c) :
      (s.step e).Heard r :=
    h.heard_step e (hheard r hr) (hr.trans_le hc)
  refine .of_threadKept ?_ ?_ (h.called_step e) (h.taken_step e) ?_ ?_ (h.threadKept_step e)
  · rcases s.wakeCut_step e with hsame | ⟨i, begun, cut, -, hi, hnew⟩
    · exact hsame ▸ h.wakeCut.trans hcut
    · exact hnew ▸ (h.read i begun cut (by rw [hi]; rfl)).2.trans hcut
  · rcases s.notified_step e with hsame | ⟨i, begun, cut, hread, -, hnew⟩
    · exact hsame ▸ h.notified.trans hcut
    · obtain ⟨hbegun, hle⟩ := h.read i begun cut hread
      exact hnew ▸ (max_le h.notified (hbegun.trans hle)).trans hcut
  · rcases s.wakeCut_step e with hsame | ⟨i, begun, cut, rfl, hi, hnew⟩
    · exact hsame ▸ hstill h.wakeCut h.put
    · exact fun r hr => h.heard_swap hi (hnew ▸ hr)
  · rcases s.notified_step e with hsame | ⟨i, begun, cut, hread, hput, hnew⟩
    · exact hsame ▸ hstill h.notified h.covered
    · obtain ⟨hbegun, hle⟩ := h.read i begun cut hread
      intro r hr
      rcases lt_max_iff.mp (hnew ▸ hr) with hlt | hlt
      · exact hstill h.notified h.covered r hlt
      · exact hstill hle (h.thread i begun cut hread hput) r (hlt.trans_le hbegun)

lemma Woken.initial : Woken {} where
  wakeCut := le_rfl
  notified := le_rfl
  announced := nofun
  read := nofun
  called := le_rfl
  taken := nofun
  put := fun r hr => absurd hr (Nat.not_lt_zero r)
  thread := nofun
  covered := fun r hr => absurd hr (Nat.not_lt_zero r)

/-! ## One call for each time the reader arms -/

/-- The flag is taken once for each time the reader arms, and each call is of one taking. -/
structure Counted (s : WakeState) : Prop where
  owing : ∀ i, i ∈ s.owing ↔ ∃ begun cut, s.threads i = .calling begun cut
  calls : s.calls + s.owing.card = s.takes
  takes : s.takes + s.wakeArmed.toNat ≤ s.takesAtArm + 1

lemma Counted.of_goesOn {s' : WakeState} (h : s.Counted) {i : ℕ}
    (hi : ∀ begun cut, s.threads i ≠ .calling begun cut) (hn : ∀ begun cut, n ≠ .calling begun cut)
    (hthreads : s'.threads = Function.update s.threads i n) (howing : s'.owing = s.owing)
    (hcalls : s'.calls = s.calls) (htakes : s'.takes = s.takes)
    (harmed : s'.wakeArmed = s.wakeArmed) (hat : s'.takesAtArm = s.takesAtArm) : s'.Counted where
  owing j := by
    rw [howing, h.owing j, hthreads]
    by_cases hji : j = i
    · subst hji
      simp [hi, hn]
    · rw [Function.update_of_ne hji]
  calls := by rw [hcalls, howing, htakes, h.calls]
  takes := by rw [htakes, harmed, hat]; exact h.takes

lemma Counted.next (h : s.Counted) (i : ℕ) : (s.next i).Counted := by
  cases hi : s.threads i with
  | idle => simpa only [WakeState.next, hi] using h
  | noted begun cut changed =>
    simp only [WakeState.next, hi]
    split_ifs <;> exact h.of_goesOn (by simp [hi]) (by simp) rfl rfl rfl rfl rfl rfl
  | mayCall begun cut =>
    simp only [WakeState.next, hi]
    split_ifs with hup
    · have hfresh : i ∉ s.owing := by simp [h.owing, hi]
      refine ⟨fun j => ?_, ?_, ?_⟩
      · by_cases hji : j = i
        · simp [hji, goesOn]
        · simp only [goesOn, Finset.mem_insert, hji, false_or, Function.update_of_ne hji, h.owing]
      · rw [Finset.card_insert_of_notMem hfresh, ← h.calls]
        simp only [goesOn]
        omega
      · have htakes := h.takes
        simp only [hup, Bool.toNat_true] at htakes
        simpa only [goesOn, Bool.toNat_false] using htakes
    · exact h.of_goesOn (by simp [hi]) (by simp) rfl rfl rfl rfl rfl rfl
  | calling begun cut =>
    simp only [WakeState.next, hi]
    have howed : i ∈ s.owing := (h.owing i).mpr ⟨begun, cut, hi⟩
    refine ⟨fun j => ?_, ?_, h.takes⟩
    · by_cases hji : j = i
      · simp [hji, finish, goesOn]
      · simp only [finish, goesOn, Finset.mem_erase, ne_eq, hji, not_false_eq_true, true_and,
          Function.update_of_ne hji, h.owing]
    · have hcard := Finset.card_erase_add_one howed
      have hcalls := h.calls
      simp only [finish, goesOn]
      omega
  | _ =>
    simp only [WakeState.next, hi]
    exact h.of_goesOn (by simp [hi]) (by simp) rfl rfl rfl rfl rfl rfl

lemma Counted.step (h : s.Counted) (e : WakeEvent) : (s.step e).Counted := by
  cases e with
  | next i => exact h.next i
  | notify i =>
    simp only [WakeState.step, WakeState.notify]
    split_ifs with hi
    · exact h.of_goesOn (by simp [hi]) (by simp) rfl rfl rfl rfl rfl rfl
    · exact h
  | arm =>
    simp only [WakeState.step, WakeState.arm]
    split_ifs
    · exact ⟨h.owing, h.calls, le_rfl⟩
    · exact h
  | drain =>
    simp only [WakeState.step, WakeState.drain]
    split <;> exact ⟨h.owing, h.calls, h.takes⟩
  | _ =>
    simp only [WakeState.step, takeCut, beginWait, endWait]
    split_ifs <;> exact ⟨h.owing, h.calls, h.takes⟩

lemma Counted.initial : Counted {} where
  owing := by simp
  calls := rfl
  takes := le_rfl

/-! ## Waits -/

/-- The flag stands for the notifications no wait has taken. -/
structure Flagged (s : WakeState) : Prop where
  pending : s.pending = true ↔ s.consumed < s.notifies
  consumed : s.consumed ≤ s.notifies

lemma Flagged.step (h : s.Flagged) (e : WakeEvent) : (s.step e).Flagged := by
  cases e with
  | notify i =>
    simp only [WakeState.step, WakeState.notify]
    split_ifs
    · exact ⟨iff_of_true rfl (Nat.lt_succ_of_le h.consumed), h.consumed.trans (Nat.le_succ _)⟩
    · exact h
  | next i =>
    simp only [WakeState.step, WakeState.next]
    cases s.threads i <;> dsimp only
    case noted => split_ifs <;> exact ⟨h.pending, h.consumed⟩
    case mayCall => split_ifs <;> exact ⟨h.pending, h.consumed⟩
    all_goals exact ⟨h.pending, h.consumed⟩
  | beginWait =>
    simp only [WakeState.step, beginWait]
    split_ifs
    · exact ⟨by simp, le_rfl⟩
    · exact ⟨h.pending, h.consumed⟩
  | endWait timedOut =>
    simp only [WakeState.step, endWait]
    split_ifs
    · exact h
    · exact ⟨by simp, le_rfl⟩
    · exact ⟨h.pending, h.consumed⟩
  | drain =>
    simp only [WakeState.step, WakeState.drain]
    split <;> exact ⟨h.pending, h.consumed⟩
  | _ =>
    simp only [WakeState.step, arm, takeCut]
    split_ifs <;> exact ⟨h.pending, h.consumed⟩

lemma Flagged.initial : Flagged {} := ⟨by simp, le_rfl⟩

end WakeState

open WakeState in
/-- **No wake-up is lost.**  Wherever a run has come, a record that a finished notification covers
and no pass has drained or will drain has the hook called for it since the reader armed, or a
notification is on its way to call it; the armed flag is taken once for each time the reader arms,
each taking is one call, made or still owed; and a wait that begins after a notification no wait
has taken returns at once. -/
theorem wake_ups_not_lost (es : List WakeEvent) :
    let s := Runs.run step {} es
    (∀ r < s.notified, ¬ r < s.drained → ¬ s.reading.Will r →
      s.Called ∨ ∃ i, (s.threads i).OnItsWay r) ∧
    (s.takes ≤ s.takesAtArm + 1 ∧ s.calls + s.owing.card = s.takes ∧
      ∀ i, i ∈ s.owing ↔ ∃ begun cut, s.threads i = .calling begun cut) ∧
    (s.consumed < s.notifies → s.beginWait.1 = some true) := by
  intro s
  have halways : Runs.Along step (fun _ _ => True) ({} : WakeState) es :=
    Runs.Along.of_forall (fun _ _ => trivial) _ es
  have hwoken : s.Woken :=
    @Runs.Along.invariant _ _ _ Woken _ (fun _ e h _ => h.step e) _ Woken.initial _ halways
  have hcounted : s.Counted :=
    @Runs.Along.invariant _ _ _ Counted _ (fun _ e h _ => h.step e) _ Counted.initial _ halways
  have hflagged : s.Flagged :=
    @Runs.Along.invariant _ _ _ Flagged _ (fun _ e h _ => h.step e) _ Flagged.initial _ halways
  refine ⟨fun r hr hdrained hpass => ?_, ⟨?_, hcounted.calls, hcounted.owing⟩, fun hnew => ?_⟩
  · rcases hwoken.covered r hr with h | h | h
    · exact absurd h hdrained
    · exact absurd h hpass
    · exact h
  · exact (Nat.le_add_right _ _).trans hcounted.takes
  · simp only [beginWait, if_pos (hflagged.pending.mpr hnew)]

open WakeState in
/-- A notification that finds the counter as another left it returns before the other calls the
hook; and a thread that has taken the flag may call after the reader armed and another called. -/
theorem wake_up_awaited_and_doubled :
    (∃ es, let s := Runs.run step {} es
      0 < s.notified ∧ ¬ 0 < s.drained ∧ ¬ s.reading.Will 0 ∧ ¬ s.Called) ∧
    ∃ es, let s := Runs.run step {} es
      s.callsAtArm + 2 ≤ s.calls := by
  refine ⟨⟨[.push 0, .notify 0, .next 0, .next 0, .notify 1, .next 1, .next 1, .next 1, .next 1],
    ?_, ?_, ?_, ?_⟩, [.push 0, .notify 0, .next 0, .next 0, .next 0, .next 0, .next 0, .arm,
      .push 1, .notify 1, .next 1, .next 1, .next 1, .next 1, .next 1, .next 1, .next 0], ?_⟩
  · decide
  · decide
  · exact id
  · unfold Called; decide
  · decide

end IbkrDx
