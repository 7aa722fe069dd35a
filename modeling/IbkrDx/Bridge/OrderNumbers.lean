import Mathlib.Order.MinMax
import IbkrDx.Bridge.OrderIds
import IbkrDx.Lib.Runs

/-!
# Order numbers are handed out once

Sessions come and go on one file of order numbers, each reading it, bringing it up to date and
going on from memory where that fails.

* **`SavedIds.update_cases`** — what bringing the file up to date leaves.
* **`order_numbers_handed_once`** — the runs saved are apart, a session repeats none of its own, and
  what is saved only rises.
-/

namespace IbkrDx

/-! ## The file -/

namespace Counters

variable (digest : String → String)

/-- The next number a session reads for what is filed under a key. -/
def mark (c : Counters) (key : String) (client : ℤ) : ℕ :=
  ((c.migrate digest).1.held key client).getD 1

/-- The number saved for an account and a client, under its digest or under its name. -/
def filed (c : Counters) (account : String) (client : ℤ) : ℕ :=
  max ((c.held (digest account) client).getD 0)
    (if isDigest account then 0 else (c.held account client).getD 0)

variable {digest}

@[simp]
lemma held_put_self (key : String) (client : ℤ) (next : ℕ) (c : Counters) :
    (c.put key client next).held key client = some next := by
  simp [held, put]

variable {client : ℤ}

lemma held_put_of_ne {key key' : String} {client' : ℤ}
    (h : key' ≠ key ∨ client' ≠ client) (next : ℕ) (c : Counters) :
    (c.put key client next).held key' client' = c.held key' client' := by
  by_cases hkey : key' = key
  · subst hkey
    have hclient := h.resolve_left (fun hne => hne rfl)
    rcases hids : c.lookup key' with _ | ids
    · simp only [held, put, hids, AList.lookup_insert, Option.getD_none, Option.bind_some,
        Option.bind_none]
      rw [AList.lookup_insert_ne hclient, AList.lookup_empty]
    · simp [held, put, hids, AList.lookup_insert_ne hclient]
  · simp [held, put, AList.lookup_insert_ne hkey]

/-! ### Names filed under digests -/

lemma le_lookup_join {ids : ClientIds} {client' : ℤ} {n next : ℕ}
    (h : n ≤ (ids.lookup client').getD 0) :
    n ≤ ((join ids client next).lookup client').getD 0 := by
  by_cases heq : client' = client
  · subst heq
    rcases hids : ids.lookup client' with _ | held
    · rw [hids] at h
      exact le_trans h (Nat.zero_le _)
    · rw [hids] at h
      simpa [join, hids] using le_max_of_le_left h
  · simpa [join, AList.lookup_insert_ne heq] using h

lemma le_lookup_foldl {entries : List (Sigma fun _ : ℤ => ℕ)} {filed : ClientIds}
    {n : ℕ} (h : n ≤ (filed.lookup client).getD 0) :
    n ≤ ((entries.foldl (fun ids e => join ids e.1 e.2) filed).lookup client).getD 0 := by
  induction entries generalizing filed with
  | nil => exact h
  | cons e entries ih => exact ih (le_lookup_join h)

lemma le_lookup_foldl_of_mem {entries : List (Sigma fun _ : ℤ => ℕ)} {filed : ClientIds}
    {n : ℕ} (h : ⟨client, n⟩ ∈ entries) :
    n ≤ ((entries.foldl (fun ids e => join ids e.1 e.2) filed).lookup client).getD 0 := by
  induction entries generalizing filed with
  | nil => exact absurd h (List.not_mem_nil)
  | cons e entries ih =>
      rcases List.mem_cons.1 h with rfl | hmem
      · have hjoin : n ≤ ((join filed client n).lookup client).getD 0 := by
          rw [join, AList.lookup_insert]
          exact le_max_right _ _
        rw [List.foldl_cons]
        exact le_lookup_foldl hjoin
      · exact ih hmem

lemma held_refile_of_ne {c : Counters} {account key : String} (hkey : key ≠ digest account)
    (hname : key ≠ account) (client : ℤ) :
    (refile digest c account).held key client = c.held key client := by
  simp [held, refile, AList.lookup_insert_ne hkey, AList.lookup_erase_ne hname]

lemma le_held_refile {c : Counters} {account : String} (hname : digest account ≠ account)
    {n : ℕ}
    (h : n ≤ (c.held (digest account) client).getD 0 ∨ n ≤ (c.held account client).getD 0) :
    n ≤ ((refile digest c account).held (digest account) client).getD 0 := by
  have hheld : (refile digest c account).held (digest account) client
      = ((((c.lookup account).getD ∅).entries.foldl (fun ids e => join ids e.1 e.2)
          ((c.lookup (digest account)).getD ∅)).lookup client) := by
    simp [held, refile, AList.lookup_erase_ne hname, AList.foldl]
  rw [hheld]
  rcases h with h | h
  · refine le_lookup_foldl ?_
    rcases hids : c.lookup (digest account) with _ | ids
    · simpa [held, hids] using h
    · simpa [held, hids] using h
  · rcases hids : c.lookup account with _ | ids
    · simp only [held, hids, Option.bind_none, Option.getD_none] at h
      exact le_trans h (Nat.zero_le _)
    · simp only [held, hids, Option.bind_some] at h
      rcases hnext : ids.lookup client with _ | next
      · simp only [hnext, Option.getD_none] at h
        exact le_trans h (Nat.zero_le _)
      · have hmem : (⟨client, next⟩ : Sigma fun _ : ℤ => ℕ) ∈ ids.entries :=
          AList.mem_lookup_iff.1 hnext
        simp only [hnext, Option.getD_some] at h
        exact le_trans h (le_lookup_foldl_of_mem (by simpa using hmem))

lemma mem_keys_refile {c : Counters} {account key : String}
    (h : key ∈ (refile digest c account).keys) : key = digest account ∨ key ∈ c.keys ∧ key ≠ account := by
  rw [refile, AList.keys_insert, List.mem_cons] at h
  rcases h with rfl | h
  · exact Or.inl rfl
  · have hmem := List.mem_of_mem_erase h
    rw [← AList.mem_keys, AList.mem_erase, AList.mem_keys] at hmem
    exact Or.inr ⟨hmem.2, hmem.1⟩

section

variable (hdigest : ∀ account, isDigest (digest account) = true)
include hdigest

lemma ne_of_not_isDigest {account account' : String} (h : isDigest account' = false) :
    digest account ≠ account' := by
  rintro rfl
  exact absurd (hdigest account) (by simp [h])

variable {c : Counters}

lemma named_foldl_refile {accounts : List String}
    (h : ∀ key ∈ c.keys, isDigest key = false → key ∈ accounts) :
    (accounts.foldl (refile digest) c).named = [] := by
  induction accounts generalizing c with
  | nil =>
      refine List.filter_eq_nil_iff.2 fun key hkey => ?_
      rcases hname : isDigest key with _ | _
      · exact absurd (h key hkey hname) List.not_mem_nil
      · simp
  | cons account accounts ih =>
      refine ih fun key hkey hname => ?_
      rcases mem_keys_refile hkey with rfl | ⟨hmem, hne⟩
      · exact absurd (hdigest account) (by simp [hname])
      · exact (List.mem_cons.1 (h key hmem hname)).resolve_left hne

lemma named_migrate (c : Counters) : (c.migrate digest).1.named = [] :=
  named_foldl_refile hdigest fun key hkey hname => List.mem_filter.2 ⟨hkey, by simp [hname]⟩

lemma filed_le_foldl {accounts : List String} (hnames : ∀ a ∈ accounts, isDigest a = false)
    (c : Counters) (account : String) (client : ℤ) :
    c.filed digest account client
      ≤ (accounts.foldl (refile digest) c).filed digest account client := by
  induction accounts generalizing c with
  | nil => exact le_rfl
  | cons name accounts ih =>
      refine le_trans ?_ (ih (fun a ha => hnames a (List.mem_cons_of_mem _ ha)) _)
      have hname := hnames name List.mem_cons_self
      have hne : digest account ≠ name := ne_of_not_isDigest hdigest hname
      refine max_le ?_ ?_
      · refine le_max_of_le_left ?_
        by_cases hsame : digest account = digest name
        · rw [hsame]
          exact le_held_refile (ne_of_not_isDigest hdigest hname) (Or.inl le_rfl)
        · rw [held_refile_of_ne hsame hne]
      · split_ifs with hisdigest
        · exact Nat.zero_le _
        · by_cases heq : account = name
          · subst heq
            exact le_max_of_le_left
              (le_held_refile (ne_of_not_isDigest hdigest hname) (Or.inr le_rfl))
          · refine le_max_of_le_right ?_
            have hdig : account ≠ digest name := fun h => hisdigest (h ▸ hdigest name)
            rw [if_neg hisdigest, held_refile_of_ne hdig heq]

lemma filed_le_migrate (c : Counters) (account : String) (client : ℤ) :
    c.filed digest account client ≤ (c.migrate digest).1.filed digest account client :=
  filed_le_foldl hdigest (fun a ha => by simpa using (List.mem_filter.1 ha).2) c account client

omit hdigest in
/-- Nothing is held under a name once none is left. -/
lemma filed_of_named_nil (h : c.named = []) (account : String) (client : ℤ) :
    c.filed digest account client = (c.held (digest account) client).getD 0 := by
  rw [filed]
  split_ifs with hname
  · exact max_eq_left (Nat.zero_le _)
  · have hno : c.lookup account = none := by
      rw [AList.lookup_eq_none, AList.mem_keys]
      intro hmem
      have hnamed : account ∈ c.named := List.mem_filter.2 ⟨hmem, by simp [hname]⟩
      rw [h] at hnamed
      exact absurd hnamed List.not_mem_nil
    simp [held, hno]

lemma filed_le_mark (c : Counters) (account : String) (client : ℤ) :
    c.filed digest account client ≤ c.mark digest (digest account) client := by
  refine le_trans (filed_le_migrate hdigest c account client) ?_
  rw [filed_of_named_nil (named_migrate hdigest c), mark]
  cases (c.migrate digest).1.held (digest account) client with
  | none => simp
  | some next => exact le_rfl

omit hdigest in
lemma migrate_of_named_nil (h : c.named = []) : c.migrate digest = (c, false) := by
  simp [migrate, h]

omit hdigest in
lemma mark_of_named_nil (h : c.named = []) (key : String) (client : ℤ) :
    c.mark digest key client = (c.held key client).getD 1 := by
  rw [mark, migrate_of_named_nil h]

end

end Counters

/-! ## The file brought up to date -/

section

variable {digest : String → String} (hdigest : ∀ account, isDigest (digest account) = true)
include hdigest

open Counters

omit hdigest in
lemma named_put {key : String} (hkey : isDigest key = true) {c : Counters} (h : c.named = [])
    (client : ℤ) (next : ℕ) : (c.put key client next).named = [] := by
  refine List.filter_eq_nil_iff.2 fun name hname => ?_
  rw [put, AList.keys_insert, List.mem_cons] at hname
  rcases hname with rfl | hmem
  · simp [hkey]
  · exact List.filter_eq_nil_iff.1 h name (List.mem_of_mem_erase hmem)

/-- What bringing the file up to date leaves: the file as it was and no store, or the number read
raised to what was asked and no other lowered. -/
structure Raises (digest : String → String) (file file' : Counters) (key : String) (client : ℤ)
    (next : ℕ) : Prop where
  here : file'.mark digest key client = next
  elsewhere : ∀ key' client', key' ≠ key ∨ client' ≠ client →
    file'.mark digest key' client' = file.mark digest key' client'
  rises : ∀ account client', file.filed digest account client' ≤ file'.filed digest account client'

lemma raises_put (file : Counters) {key : String} (hkey : isDigest key = true) (client : ℤ)
    {next : ℕ} (hnext : file.mark digest key client ≤ next) :
    Raises digest file ((file.migrate digest).1.put key client next) key client next := by
  have hnamed := named_migrate hdigest file
  have hput := named_put hkey hnamed client next
  refine ⟨?_, fun key' client' hne => ?_, fun account client' => ?_⟩
  · rw [mark_of_named_nil hput, held_put_self, Option.getD_some]
  · rw [mark_of_named_nil hput, held_put_of_ne hne, mark]
  · refine le_trans (filed_le_migrate hdigest file account client') ?_
    rw [filed_of_named_nil hnamed, filed_of_named_nil hput]
    by_cases hsame : digest account = key ∧ client' = client
    · obtain ⟨rfl, rfl⟩ := hsame
      rw [held_put_self, Option.getD_some]
      refine le_trans ?_ hnext
      rw [mark]
      cases (file.migrate digest).1.held (digest account) client' with
      | none => exact Nat.zero_le _
      | some held => exact le_rfl
    · rw [held_put_of_ne (by tauto)]

/-- **Bringing the file up to date**: it fails and leaves the file, or the number read is raised. -/
theorem SavedIds.update_cases {T : Type} (outcome : FileOutcome) (change : ℕ → ℕ × T)
    (file : Counters) (store : SavedIds) (hkey : isDigest store.key = true) :
    let next := file.mark digest store.key store.client
    let made := store.update digest outcome change file
    (made.1 = file ∧ made.2.2 = none ∧ (made.2.1 = none ∨ made.2.1 = some (change next).2)) ∨
    ∃ raised, raised = max (change next).1 next ∧
      made.2 = (some (change next).2, some { store with next := raised }) ∧
      Raises digest file made.1 store.key store.client raised := by
  have hmark : file.mark digest store.key store.client
      = ((file.migrate digest).1.held store.key store.client).getD 1 := rfl
  dsimp only
  unfold SavedIds.update
  by_cases hread : outcome = .unread
  · rw [if_pos hread]
    exact Or.inl ⟨rfl, rfl, Or.inl rfl⟩
  rw [if_neg hread]
  dsimp only
  rw [← hmark]
  have hraised := raises_put hdigest file hkey store.client
    (le_max_right (change (file.mark digest store.key store.client)).1
      (file.mark digest store.key store.client))
  split_ifs with hwrite hfailed
  · exact Or.inl ⟨rfl, rfl, Or.inr rfl⟩
  · exact Or.inr ⟨_, rfl, rfl, hraised⟩
  · simp only [not_or, not_not, Bool.not_eq_true] at hwrite
    exact Or.inr ⟨_, rfl, rfl, hwrite.1.symm ▸ rfl, fun _ _ _ => rfl, fun _ _ => le_rfl⟩

end

/-! ## Sessions on one file -/

structure IdSession where
  account : String
  client : ℤ
  ids : OrderIds

structure Handed where
  session : ℕ
  account : String
  client : ℤ
  span : Span
  /-- Whether the file was brought up to date as it was reserved. -/
  filed : Bool

/-- The file and the sessions on it, beside what was handed out. -/
structure Numbering where
  file : Counters
  sessions : ℕ → Option IdSession := fun _ => none
  /-- What the file held as a session about to open read it. -/
  seen : ℕ → Option Counters := fun _ => none
  handed : List Handed := []
  /-- The ids a session was told are used, or named by the venue. -/
  noted : ℕ → List ℕ := fun _ => []
  saves : ℕ → List ℕ := fun _ => []

inductive NumberEvent where
  /-- A session about to open reads the file. -/
  | look (session : ℕ)
  /-- It opens, on what it read, or on none where no file is set or none could be read. -/
  | opens (session : ℕ) (account : String) (client : ℤ) (reads : Bool) (outcome : FileOutcome)
  | reserve (session count : ℕ) (outcome : FileOutcome)
  | save (session next : ℕ) (outcome : FileOutcome)
  | numberInMemory (session : ℕ)
  | noteUsed (session id : ℕ)
  | noteTheVenueNamed (session id : ℕ)
  | spend (session id : ℕ)

namespace Numbering

def moved (w : Numbering) (session : ℕ) (s : IdSession) (file : Counters) (ids : OrderIds)
    (span : Option (Span × Bool)) : Numbering :=
  { w with
    file := file
    sessions := Function.update w.sessions session (some { s with ids := ids })
    handed := w.handed ++ (span.map fun r => ⟨session, s.account, s.client, r.1, r.2⟩).toList }

def step (digest : String → String) (w : Numbering) : NumberEvent → Numbering
  | .look session => { w with seen := Function.update w.seen session (some w.file) }
  | .opens session account client reads outcome =>
      let opened := OrderIds.openOrderIds digest account client
        (if reads then w.seen session else none) outcome w.file
      { w with
        file := opened.1
        sessions := Function.update w.sessions session (some ⟨account, client, opened.2⟩) }
  | .reserve session count outcome =>
      match w.sessions session with
      | none => w
      | some s => match s.ids.reserveOrderIds digest count outcome w.file with
        | (file, ids, .ok first) =>
            w.moved session s file ids (some (⟨first, count⟩, ids.saved.isSome))
        | (file, ids, .error _) => w.moved session s file ids none
  | .save session next outcome =>
      match w.sessions session with
      | none => w
      | some s =>
          let saved := s.ids.saveOrderIds digest next outcome w.file
          { w.moved session s saved.1 saved.2 none with
            saves := Function.update w.saves session (next :: w.saves session) }
  | .numberInMemory session =>
      match w.sessions session with
      | none => w
      | some s => match s.ids.numberInMemory with
        | (ids, .ok first) => w.moved session s w.file ids (some (⟨first, 1⟩, false))
        | (ids, .error _) => w.moved session s w.file ids none
  | .noteUsed session id =>
      match w.sessions session with
      | none => w
      | some s => { w.moved session s w.file (s.ids.noteUsed id) none with
          noted := Function.update w.noted session (id :: w.noted session) }
  | .noteTheVenueNamed session id =>
      match w.sessions session with
      | none => w
      | some s => { w.moved session s w.file (s.ids.noteTheVenueNamed id) none with
          noted := Function.update w.noted session (id :: w.noted session) }
  | .spend session id =>
      match w.sessions session with
      | none => w
      | some s => w.moved session s w.file (s.ids.spend id) none

/-- A session opens once, and a reservation asks for a number or more. -/
def Lawful (w : Numbering) : NumberEvent → Prop
  | .opens session _ _ _ _ => w.sessions session = none
  | .reserve _ count _ => 1 ≤ count
  | _ => True

instance (w : Numbering) : DecidablePred w.Lawful := fun e =>
  match e with
  | .opens session .. => inferInstanceAs (Decidable (w.sessions session = none))
  | .reserve _ count _ => inferInstanceAs (Decidable (1 ≤ count))
  | .look _ | .save .. | .numberInMemory _ | .noteUsed .. | .noteTheVenueNamed .. | .spend .. =>
      isTrue trivial

/-! ### What is claimed -/

def spansOf (w : Numbering) (session : ℕ) : List Span :=
  (w.handed.filter fun h => h.session = session).map Handed.span

def filedSpans (w : Numbering) (account : String) (client : ℤ) : List Span :=
  (w.handed.filter fun h => h.filed ∧ h.account = account ∧ h.client = client).map Handed.span

/-- What is saved only rises, and a run saved as it was reserved lies above what was saved, used and
named before it. -/
def Keeps (digest : String → String) (w : Numbering) (e : NumberEvent) : Prop :=
  (∀ account client, w.file.filed digest account client
    ≤ (w.step digest e).file.filed digest account client) ∧
  ∀ h ∈ (w.step digest e).handed.drop w.handed.length, h.filed = true →
    w.file.filed digest h.account h.client ≤ h.span.first ∧
    (∀ id ∈ w.noted h.session, id < h.span.first) ∧
    ∀ next ∈ w.saves h.session, next ≤ h.span.first

/-! ### What every event keeps -/

/-- What holds of the numbers after every run. -/
structure Sound (digest : String → String) (w : Numbering) : Prop where
  stored : ∀ session s store, w.sessions session = some s → s.ids.saved = some store →
    store.key = digest s.account ∧ store.client = s.client ∧
    store.next ≤ w.file.mark digest store.key store.client ∧
    ∀ next ∈ w.saves session, next ≤ store.next
  noted : ∀ session s, w.sessions session = some s → ∀ id ∈ w.noted session, id ≤ s.ids.watermark
  fresh : ∀ session, w.sessions session = none →
    w.spansOf session = [] ∧ w.noted session = [] ∧ w.saves session = []
  seen : ∀ session c, w.seen session = some c → ∀ key client,
    c.mark digest key client ≤ w.file.mark digest key client
  filed : ∀ account client, Watermark.Below (w.file.mark digest (digest account) client)
    (w.filedSpans account client)
  own : ∀ session s, w.sessions session = some s →
    Watermark.Below s.ids.allocator (w.spansOf session)
  carried : ∀ h ∈ w.handed, 1 ≤ h.span.first ∧ h.span.stop ≤ maxOrderId + 1

variable {digest : String → String} {w : Numbering}

structure Rises (digest : String → String) (file file' : Counters) : Prop where
  marks : ∀ key client, file.mark digest key client ≤ file'.mark digest key client
  filed : ∀ account client, file.filed digest account client ≤ file'.filed digest account client

lemma Rises.refl (file : Counters) : Rises digest file file :=
  ⟨fun _ _ => le_rfl, fun _ _ => le_rfl⟩

variable {file : Counters}

lemma Rises.of_raises {file' : Counters} {key : String} {client : ℤ} {next : ℕ}
    (h : Raises digest file file' key client next) (hle : file.mark digest key client ≤ next) :
    Rises digest file file' := by
  refine ⟨fun key' client' => ?_, h.rises⟩
  by_cases hsame : key' = key ∧ client' = client
  · obtain ⟨rfl, rfl⟩ := hsame
    exact h.here ▸ hle
  · exact (h.elsewhere key' client' (by tauto)).ge

/-- A run handed out as one session moves: past its allocator, within what an order is carried
under, and where it was saved past what was saved, used and named. -/
structure Takes (digest : String → String) (w : Numbering) (s : IdSession) (file : Counters)
    (ids : OrderIds) (span : Span) (filed : Bool) : Prop where
  first : s.ids.allocator ≤ span.first
  stop : span.stop ≤ ids.allocator
  carried : 1 ≤ span.first ∧ span.stop ≤ maxOrderId + 1
  above : filed = true → w.file.mark digest (digest s.account) s.client ≤ span.first ∧
    s.ids.watermark < span.first ∧ s.ids.saved ≠ none
  saved : filed = true → span.stop ≤ file.mark digest (digest s.account) s.client

structure Move (digest : String → String) (w : Numbering) (session : ℕ) (s : IdSession)
    (file : Counters) (ids : OrderIds) (span : Option (Span × Bool)) (noted saves : ℕ → List ℕ) :
    Prop where
  rises : Rises digest w.file file
  stored : ∀ store, ids.saved = some store → store.key = digest s.account ∧
    store.client = s.client ∧ store.next ≤ file.mark digest store.key store.client ∧
    ∀ next ∈ saves session, next ≤ store.next
  past : ∀ id ∈ noted session, id ≤ ids.watermark
  others : ∀ other, other ≠ session → noted other = w.noted other ∧ saves other = w.saves other
  allocator : s.ids.allocator ≤ ids.allocator
  takes : ∀ r ∈ span, Takes digest w s file ids r.1 r.2

variable {ids : OrderIds} {session : ℕ}

/-- **What one session does leaves the numbers sound.** -/
theorem Sound.move (h : w.Sound digest) {s : IdSession}
    (hs : w.sessions session = some s)
    {span : Option (Span × Bool)} {noted saves : ℕ → List ℕ}
    (hm : Move digest w session s file ids span noted saves) :
    Sound digest { w.moved session s file ids span with noted := noted, saves := saves } := by
  obtain ⟨⟨hrise, -⟩, hstored, hnoted, hothers, halloc, hspan⟩ := hm
  have hself : (w.moved session s file ids span).sessions session = some { s with ids := ids } :=
    Function.update_self _ _ _
  have hother : ∀ {other}, other ≠ session →
      (w.moved session s file ids span).sessions other = w.sessions other := fun hne =>
    Function.update_of_ne hne _ _
  refine ⟨fun at_ s' store hs' hstore => ?_, fun at_ s' hs' => ?_, fun at_ hnone => ?_,
    fun at_ c hseen key client => ?_, fun account client => ?_, fun at_ s' hs' => ?_,
    fun handed hmem => ?_⟩
  · by_cases hat : at_ = session
    · subst hat
      obtain rfl : { s with ids := ids } = s' := Option.some.inj (hself.symm.trans hs')
      exact hstored store hstore
    · obtain ⟨hkey, hclient, hnext, hsaves⟩ := h.stored at_ s' store ((hother hat).symm.trans hs') hstore
      refine ⟨hkey, hclient, hnext.trans (hrise _ _), ?_⟩
      simpa only [(hothers at_ hat).2] using hsaves
  · by_cases hat : at_ = session
    · subst hat
      obtain rfl : { s with ids := ids } = s' := Option.some.inj (hself.symm.trans hs')
      exact hnoted
    · simpa only [(hothers at_ hat).1] using h.noted at_ s' ((hother hat).symm.trans hs')
  · have hat : at_ ≠ session := by
      rintro rfl
      exact absurd (hself.symm.trans hnone) (by simp)
    obtain ⟨hspans, hnotes, hsaves⟩ := h.fresh at_ ((hother hat).symm.trans hnone)
    refine ⟨?_, (hothers at_ hat).1.trans hnotes, (hothers at_ hat).2.trans hsaves⟩
    rw [← hspans]
    rcases span with _ | r
    · simp [spansOf, moved]
    · simp [spansOf, moved, hat.symm]
  · exact (h.seen at_ c hseen key client).trans (hrise key client)
  · have hbelow := h.filed account client
    rcases span with _ | ⟨r, saved⟩
    · simpa [filedSpans, moved] using hbelow.rise (hrise (digest account) client)
    · by_cases hmine : saved = true ∧ s.account = account ∧ s.client = client
      · obtain ⟨rfl, rfl, rfl⟩ := hmine
        have htake := hspan _ rfl
        simpa [filedSpans, moved] using hbelow.take (htake.above rfl).1 (htake.saved rfl)
      · have hno : (w.moved session s file ids (some (r, saved))).filedSpans account client
            = w.filedSpans account client := by
          simp [filedSpans, moved, List.filter_append, hmine]
        change Watermark.Below _ ((w.moved session s file ids (some (r, saved))).filedSpans
          account client)
        rw [hno]
        exact hbelow.rise (hrise (digest account) client)
  · by_cases hat : at_ = session
    · subst hat
      obtain rfl : { s with ids := ids } = s' := Option.some.inj (hself.symm.trans hs')
      have hbelow := h.own at_ s hs
      rcases span with _ | ⟨r, saved⟩
      · simpa [spansOf, moved] using hbelow.rise halloc
      · have htake := hspan _ rfl
        simpa [spansOf, moved] using hbelow.take htake.first htake.stop
    · have hbelow := h.own at_ s' ((hother hat).symm.trans hs')
      rcases span with _ | r
      · simpa [spansOf, moved] using hbelow
      · simpa [spansOf, moved, Ne.symm hat] using hbelow
  · rcases span with _ | r
    · exact h.carried handed (by simpa [moved] using hmem)
    · rcases List.mem_append.1 hmem with hold | hnew
      · exact h.carried handed hold
      · obtain rfl : handed = _ := List.mem_singleton.1 hnew
        exact (hspan _ rfl).carried

/-- **And keeps what is saved and what was handed out apart.** -/
theorem Move.keeps {s : IdSession}
    {span : Option (Span × Bool)} {noted saves : ℕ → List ℕ}
    (hm : Move digest w session s file ids span noted saves)
    (hdigest : ∀ account, isDigest (digest account) = true) (h : w.Sound digest)
    (hs : w.sessions session = some s) {e : NumberEvent}
    (he : w.step digest e = { w.moved session s file ids span with noted := noted, saves := saves }) :
    w.Keeps digest e := by
  refine ⟨fun account client => by rw [he]; exact hm.rises.filed account client,
    fun handed hmem hfiled => ?_⟩
  rw [he] at hmem
  rcases span with _ | ⟨r, saved⟩
  · simp [moved] at hmem
  · obtain rfl : handed = _ := by simpa [moved] using hmem
    obtain ⟨hmark, hwater, hstore⟩ := (hm.takes _ rfl).above hfiled
    obtain ⟨store, hstore⟩ := Option.ne_none_iff_exists'.1 hstore
    obtain ⟨hkey, hclient, hnext, hsaves⟩ := h.stored session s store hs hstore
    rw [hkey, hclient] at hnext
    refine ⟨le_trans (Counters.filed_le_mark hdigest w.file s.account s.client) hmark,
      fun id hid => lt_of_le_of_lt (h.noted session s hs id hid) hwater, fun next hmem => ?_⟩
    exact le_trans (hsaves next hmem) (le_trans hnext hmark)

lemma Sound.opens (h : w.Sound digest) (hs : w.sessions session = none)
    {account : String} {client : ℤ}
    (hrise : Rises digest w.file file)
    (hstored : ∀ store, ids.saved = some store → store.key = digest account ∧
      store.client = client ∧ store.next ≤ file.mark digest store.key store.client) :
    Sound digest { w with
      file := file
      sessions := Function.update w.sessions session (some ⟨account, client, ids⟩) } := by
  obtain ⟨hspans, hnotes, hsaves⟩ := h.fresh session hs
  have hself : Function.update w.sessions session (some ⟨account, client, ids⟩) session
      = some ⟨account, client, ids⟩ := Function.update_self _ _ _
  have hother : ∀ {other}, other ≠ session →
      Function.update w.sessions session (some ⟨account, client, ids⟩) other = w.sessions other :=
    fun hne => Function.update_of_ne hne _ _
  refine ⟨fun at_ s' store hs' hstore => ?_, fun at_ s' hs' => ?_, fun at_ hnone => ?_,
    fun at_ c hseen key client => (h.seen at_ c hseen key client).trans (hrise.marks key client),
    fun account client => (h.filed account client).rise (hrise.marks _ _),
    fun at_ s' hs' => ?_, h.carried⟩
  · by_cases hat : at_ = session
    · subst hat
      obtain rfl := Option.some.inj (hself.symm.trans hs')
      obtain ⟨hkey, hclient, hnext⟩ := hstored store hstore
      exact ⟨hkey, hclient, hnext, by simp [hsaves]⟩
    · obtain ⟨hkey, hclient, hnext, hold⟩ :=
        h.stored at_ s' store ((hother hat).symm.trans hs') hstore
      exact ⟨hkey, hclient, hnext.trans (hrise.marks _ _), hold⟩
  · by_cases hat : at_ = session
    · subst hat
      simp [hnotes]
    · exact h.noted at_ s' ((hother hat).symm.trans hs')
  · have hat : at_ ≠ session := by
      rintro rfl
      exact absurd (hself.symm.trans hnone) (by simp)
    exact h.fresh at_ ((hother hat).symm.trans hnone)
  · by_cases hat : at_ = session
    · subst hat
      obtain rfl := Option.some.inj (hself.symm.trans hs')
      change Watermark.Below ids.allocator (w.spansOf at_)
      rw [hspans]
      exact .nil _
    · exact h.own at_ s' ((hother hat).symm.trans hs')

end Numbering

/-! ## What each operation does -/

namespace OrderIds

variable {digest : String → String} (hdigest : ∀ account, isDigest (digest account) = true)

lemma reserveIds_ok {allocator count floor first allocator' : ℕ} (hcount : 1 ≤ count)
    (h : reserveIds allocator count floor = .ok (first, allocator')) :
    allocator ≤ first ∧ floor ≤ first ∧ allocator' = first + count ∧
      first + count ≤ maxOrderId + 1 := by
  unfold reserveIds at h
  dsimp only at h
  split_ifs at h with hle
  obtain ⟨rfl, rfl⟩ := Prod.mk.injEq .. ▸ Except.ok.inj h
  exact ⟨le_max_left _ _, le_max_right _ _, by omega, by omega⟩

lemma one_le_floor (s : OrderIds) : 1 ≤ s.floor := le_min (by omega) (by decide)

lemma watermark_lt {s : OrderIds} {first : ℕ} (hfloor : s.floor ≤ first) (hle : first ≤ maxOrderId) :
    s.watermark < first := by
  have hmax : maxOrderId < u64Max := by decide
  unfold floor at hfloor
  rcases le_total (s.watermark + 1) u64Max with hw | hw
  · rw [min_eq_left hw] at hfloor
    omega
  · rw [min_eq_right hw] at hfloor
    omega

include hdigest

lemma withSavedIds_cases {T : Type} (outcome : FileOutcome) (change : ℕ → ℕ × T) (file : Counters)
    (s : OrderIds) (hkey : ∀ store, s.saved = some store → isDigest store.key = true) :
    (∃ made, s.withSavedIds digest outcome change file
        = (file, { s with saved := none }, (change made).2)) ∨
    ∃ store file' next raised, s.saved = some store ∧
      next = file.mark digest store.key store.client ∧ raised = max (change next).1 next ∧
      s.withSavedIds digest outcome change file
        = (file', { s with saved := some { store with next := raised } }, (change next).2) ∧
      Raises digest file file' store.key store.client raised := by
  unfold withSavedIds
  rcases hstore : s.saved with _ | store
  · have hs : { s with saved := none } = s := by
      cases s
      simp only at hstore
      rw [hstore]
    exact Or.inl ⟨1, by rw [hs]⟩
  have hcases := SavedIds.update_cases hdigest outcome change file store (hkey store hstore)
  dsimp only at hcases ⊢
  rcases hcases with ⟨hfile, hnone, hvalue⟩ | ⟨raised, rfl, hmade, hraises⟩
  · refine Or.inl ?_
    rw [hfile, hnone]
    rcases hvalue with hvalue | hvalue
    · exact ⟨1, by rw [hvalue]; rfl⟩
    · exact ⟨_, by rw [hvalue]; rfl⟩
  · obtain ⟨hvalue, hkept⟩ := Prod.ext_iff.1 hmade
    exact Or.inr ⟨store, _, _, _, rfl, rfl, rfl, by rw [hvalue, hkept]; rfl, hraises⟩

end OrderIds

/-! ## Every event -/

namespace Numbering

variable {digest : String → String} {w : Numbering}

section

variable (hdigest : ∀ account, isDigest (digest account) = true)
include hdigest

variable {session : ℕ} {s : IdSession}

omit hdigest in
lemma Sound.move_memory (h : w.Sound digest)
    (hs : w.sessions session = some s) (ids : OrderIds) (span : Option Span) {noted : ℕ → List ℕ}
    (hsaved : ids.saved = s.ids.saved) (hpast : ∀ id ∈ noted session, id ≤ ids.watermark)
    (hothers : ∀ other, other ≠ session → noted other = w.noted other)
    (halloc : s.ids.allocator ≤ ids.allocator)
    (hspan : ∀ r ∈ span, s.ids.allocator ≤ r.first ∧ r.stop ≤ ids.allocator ∧ 1 ≤ r.first ∧
      r.stop ≤ maxOrderId + 1) :
    Move digest w session s w.file ids (span.map fun r => (r, false)) noted w.saves where
  rises := .refl _
  stored store hstore := h.stored session s store hs (hsaved ▸ hstore)
  past := hpast
  others other hne := ⟨hothers other hne, rfl⟩
  allocator := halloc
  takes r hr := by
    obtain ⟨a, ha, rfl⟩ := Option.map_eq_some_iff.1 hr
    obtain ⟨hfirst, hstop, hcarried⟩ := hspan a ha
    exact ⟨hfirst, hstop, hcarried, by simp, by simp⟩

omit hdigest in
lemma Sound.move_note (h : w.Sound digest)
    (hs : w.sessions session = some s) (id : ℕ) (ids : OrderIds) (hsaved : ids.saved = s.ids.saved)
    (halloc : ids.allocator = s.ids.allocator) (hwater : ids.watermark = max s.ids.watermark id) :
    Move digest w session s w.file ids none
      (Function.update w.noted session (id :: w.noted session)) w.saves := by
  refine h.move_memory hs ids none hsaved ?_ (fun other hne => Function.update_of_ne hne _ _)
    halloc.ge (by simp)
  rw [Function.update_self, hwater]
  rintro n hmem
  rcases List.mem_cons.1 hmem with rfl | hold
  · exact le_max_right _ _
  · exact le_max_of_le_left (h.noted session s hs n hold)

lemma Sound.isDigest_key (h : w.Sound digest)
    (hs : w.sessions session = some s) {store : SavedIds} (hstore : s.ids.saved = some store) :
    isDigest store.key = true := by
  rw [(h.stored session s store hs hstore).1]
  exact hdigest _

lemma Sound.reserve (h : w.Sound digest)
    (hs : w.sessions session = some s) {count : ℕ} (hcount : 1 ≤ count) (outcome : FileOutcome) :
    ∃ file ids span, w.step digest (.reserve session count outcome) = w.moved session s file ids span ∧
      Move digest w session s file ids span w.noted w.saves := by
  have hnoted := h.noted session s hs
  have hfloor := OrderIds.one_le_floor s.ids
  rcases OrderIds.withSavedIds_cases hdigest outcome (s.ids.reserving count) w.file s.ids
    (fun store => h.isDigest_key hdigest hs) with
    ⟨made, hmade⟩ | ⟨store, file, next, raised, hstore, hnext, hraised, hmade, hraises⟩
  · -- the file was not brought up to date
    rcases hreserve : reserveIds s.ids.allocator count (max made s.ids.floor) with
      why | ⟨first, allocator⟩
    · refine ⟨w.file, { s.ids with saved := none }, none, ?_, ?_⟩
      · simp [step, hs, OrderIds.reserveOrderIds, hmade, OrderIds.reserving, hreserve]
      · exact ⟨.refl _, by simp, hnoted, fun _ _ => ⟨rfl, rfl⟩, le_rfl, by simp⟩
    · obtain ⟨hheld, hpast, rfl, hcarried⟩ := OrderIds.reserveIds_ok hcount hreserve
      refine ⟨w.file, { s.ids with saved := none, allocator := first + count },
        some (⟨first, count⟩, false), ?_, ?_⟩
      · simp [step, hs, OrderIds.reserveOrderIds, hmade, OrderIds.reserving, hreserve]
      · refine ⟨.refl _, by simp, hnoted, fun _ _ => ⟨rfl, rfl⟩, le_trans hheld (by simp), ?_⟩
        intro r hr
        obtain rfl := Option.some.inj hr
        exact ⟨hheld, le_rfl, ⟨le_trans (le_trans hfloor (le_max_right _ _)) hpast, hcarried⟩,
          by simp, by simp⟩
  · obtain ⟨hkey, hclient, hread, hsaves⟩ := h.stored session s store hs hstore
    rw [← hnext] at hread
    have hle : next ≤ raised := hraised ▸ le_max_right _ _
    have hrises := Rises.of_raises hraises (hnext ▸ hle)
    have hstored : ∀ saved, some { store with next := raised } = some saved →
        saved.key = digest s.account ∧ saved.client = s.client ∧
        saved.next ≤ file.mark digest saved.key saved.client ∧
        ∀ next ∈ w.saves session, next ≤ saved.next := by
      rintro saved hsaved
      obtain rfl := Option.some.inj hsaved
      exact ⟨hkey, hclient, hraises.here.ge,
        fun _ hmem => le_trans (hsaves _ hmem) (le_trans hread hle)⟩
    rcases hreserve : reserveIds s.ids.allocator count (max next s.ids.floor) with
      why | ⟨first, allocator⟩
    · refine ⟨file, { s.ids with saved := some { store with next := raised } }, none, ?_, hrises,
        hstored, hnoted, fun _ _ => ⟨rfl, rfl⟩, le_rfl, by simp⟩
      simp [step, hs, OrderIds.reserveOrderIds, hmade, OrderIds.reserving, hreserve]
    · obtain ⟨hheld, hpast, rfl, hcarried⟩ := OrderIds.reserveIds_ok hcount hreserve
      refine ⟨file, { s.ids with
          saved := some { store with next := raised }, allocator := first + count },
        some (⟨first, count⟩, true), ?_, hrises, hstored, hnoted, fun _ _ => ⟨rfl, rfl⟩,
        le_trans hheld (by simp), ?_⟩
      · simp [step, hs, OrderIds.reserveOrderIds, hmade, OrderIds.reserving, hreserve]
      · intro r hr
        obtain rfl := Option.some.inj hr
        have hmark : next ≤ first := le_trans (le_max_left _ _) hpast
        have hwater : s.ids.watermark < first :=
          OrderIds.watermark_lt (le_trans (le_max_right _ _) hpast) (by omega)
        refine ⟨hheld, le_rfl, ⟨le_trans (le_trans hfloor (le_max_right _ _)) hpast, hcarried⟩,
          fun _ => ⟨hkey ▸ hclient ▸ hnext ▸ hmark, hwater, by simp [hstore]⟩, fun _ => ?_⟩
        rw [← hkey, ← hclient, hraises.here, hraised]
        exact le_max_of_le_left (by simp [OrderIds.reserving, hreserve, Span.stop])

lemma Sound.save (h : w.Sound digest)
    (hs : w.sessions session = some s) (next : ℕ) (outcome : FileOutcome) :
    Move digest w session s (s.ids.saveOrderIds digest next outcome w.file).1
      (s.ids.saveOrderIds digest next outcome w.file).2 none w.noted
      (Function.update w.saves session (next :: w.saves session)) := by
  have hnoted := h.noted session s hs
  have hothers : ∀ other, other ≠ session → w.noted other = w.noted other ∧
      Function.update w.saves session (next :: w.saves session) other = w.saves other :=
    fun other hne => ⟨rfl, Function.update_of_ne hne _ _⟩
  unfold OrderIds.saveOrderIds
  by_cases hbehind : (s.ids.saved.any fun store => store.next < next) = true
  · rw [if_pos hbehind]
    rcases OrderIds.withSavedIds_cases hdigest outcome (fun saved => (max saved next, ())) w.file
      s.ids (fun store => h.isDigest_key hdigest hs) with
      ⟨made, hmade⟩ | ⟨store, file, read, raised, hstore, hread, hraised, hmade, hraises⟩
    · rw [hmade]
      exact ⟨.refl _, by simp, hnoted, hothers, le_rfl, by simp⟩
    · obtain ⟨hkey, hclient, hle, hsaves⟩ := h.stored session s store hs hstore
      rw [← hread] at hle
      have hup : read ≤ raised := hraised ▸ le_max_right _ _
      rw [hmade]
      refine ⟨Rises.of_raises hraises (hread ▸ hup), ?_, hnoted, hothers, le_rfl, by simp⟩
      rintro saved hsaved
      obtain rfl := Option.some.inj hsaved
      refine ⟨hkey, hclient, hraises.here.ge, ?_⟩
      rw [Function.update_self]
      rintro n hmem
      rcases List.mem_cons.1 hmem with rfl | hold
      · exact hraised ▸ le_max_of_le_left (le_max_right _ _)
      · exact le_trans (hsaves n hold) (le_trans hle hup)
  · rw [if_neg hbehind]
    refine ⟨.refl _, ?_, hnoted, hothers, le_rfl, by simp⟩
    rintro store (hstore : s.ids.saved = some store)
    obtain ⟨hkey, hclient, hle, hsaves⟩ := h.stored session s store hs hstore
    refine ⟨hkey, hclient, hle, ?_⟩
    rw [Function.update_self]
    rintro n hmem
    rcases List.mem_cons.1 hmem with rfl | hold
    · by_contra hlt
      exact hbehind (by simpa [hstore] using Nat.lt_of_not_le hlt)
    · exact hsaves n hold

lemma openOrderIds_spec (account : String) (client : ℤ) {seen : Option Counters}
    (outcome : FileOutcome) {file : Counters}
    (hseen : ∀ c, seen = some c → ∀ key client, c.mark digest key client ≤ file.mark digest key client) :
    Rises digest file (OrderIds.openOrderIds digest account client seen outcome file).1 ∧
    ∀ store, (OrderIds.openOrderIds digest account client seen outcome file).2.saved = some store →
      store.key = digest account ∧ store.client = client ∧
      store.next ≤ (OrderIds.openOrderIds digest account client seen outcome file).1.mark digest
        store.key store.client := by
  have hsaved : ∀ (o : OrderIds) (next : ℕ),
      (if 1 < next then o.noteTheVenueNamed (next - 1) else o).saved = o.saved := by
    intro o next
    split_ifs <;> rfl
  unfold OrderIds.openOrderIds
  rcases seen with _ | c
  · refine ⟨.refl _, fun store hstore => ?_⟩
    simp only [hsaved] at hstore
    exact absurd hstore (by simp)
  dsimp only
  simp only [hsaved]
  by_cases hmigrated : (c.migrate digest).2 = true
  · simp only [hmigrated, if_true]
    have hcases := SavedIds.update_cases hdigest outcome (fun next => (next, ())) file
      ⟨digest account, client, ((c.migrate digest).1.held (digest account) client).getD 1⟩ (hdigest _)
    dsimp only at hcases
    rcases hupdate : SavedIds.update digest outcome (fun next => (next, ())) file
      ⟨digest account, client, ((c.migrate digest).1.held (digest account) client).getD 1⟩ with
      ⟨file', value, made⟩
    rw [hupdate] at hcases
    rcases hcases with ⟨rfl, rfl, -⟩ | ⟨raised, rfl, hmade, hraises⟩
    · exact ⟨.refl _, fun store hstore => absurd hstore (by simp)⟩
    · obtain ⟨-, rfl⟩ := Prod.ext_iff.1 hmade
      refine ⟨Rises.of_raises hraises (le_max_right _ _), fun store hstore => ?_⟩
      obtain rfl := Option.some.inj hstore
      exact ⟨rfl, rfl, hraises.here.ge⟩
  · simp only [hmigrated]
    refine ⟨.refl _, fun store hstore => ?_⟩
    obtain rfl := Option.some.inj hstore
    exact ⟨rfl, rfl, hseen c rfl _ _⟩

/-- **Every event leaves the numbers sound, and keeps what is saved and handed out apart.** -/
theorem Sound.step (h : w.Sound digest) {e : NumberEvent} (he : w.Lawful e) :
    (w.step digest e).Sound digest ∧ w.Keeps digest e := by
  have hstay : ∀ {e : NumberEvent}, w.step digest e = w →
      (w.step digest e).Sound digest ∧ w.Keeps digest e := by
    intro e heq
    refine ⟨heq.symm ▸ h, fun _ _ => by rw [heq], fun handed hmem => ?_⟩
    rw [heq] at hmem
    simp at hmem
  have hmoves : ∀ {e : NumberEvent} {session s file ids span noted saves},
      w.sessions session = some s → Move digest w session s file ids span noted saves →
      w.step digest e = { w.moved session s file ids span with noted := noted, saves := saves } →
      (w.step digest e).Sound digest ∧ w.Keeps digest e := fun hs hm heq =>
    ⟨heq.symm ▸ h.move hs hm, hm.keeps hdigest h hs heq⟩
  cases e with
  | look session =>
      refine ⟨⟨h.stored, h.noted, h.fresh, fun at_ c hseen => ?_, h.filed, h.own, h.carried⟩,
        fun _ _ => le_rfl, by simp [Numbering.step]⟩
      by_cases hat : at_ = session
      · subst hat
        have heq : some w.file = some c := by
          rw [← hseen]
          exact (Function.update_self at_ (some w.file) w.seen).symm
        obtain rfl := Option.some.inj heq
        exact fun _ _ => le_rfl
      · refine h.seen at_ c ?_
        rw [← hseen]
        exact (Function.update_of_ne hat (some w.file) w.seen).symm
  | opens session account client reads outcome =>
      have hseen : ∀ c, (if reads = true then w.seen session else none) = some c →
          ∀ key client, c.mark digest key client ≤ w.file.mark digest key client := by
        intro c hc
        split_ifs at hc
        exact h.seen session c hc
      obtain ⟨hrises, hstored⟩ := openOrderIds_spec hdigest account client outcome hseen
      exact ⟨h.opens he hrises hstored, hrises.filed, by simp [Numbering.step]⟩
  | reserve session count outcome =>
      rcases hs : w.sessions session with _ | s
      · exact hstay (by simp [Numbering.step, hs])
      · obtain ⟨file, ids, span, hstep, hm⟩ := h.reserve hdigest hs he outcome
        exact hmoves hs hm hstep
  | save session next outcome =>
      rcases hs : w.sessions session with _ | s
      · exact hstay (by simp [Numbering.step, hs])
      · exact hmoves hs (h.save hdigest hs next outcome) (by simp [Numbering.step, hs, moved])
  | numberInMemory session =>
      rcases hs : w.sessions session with _ | s
      · exact hstay (by simp [Numbering.step, hs])
      · rcases hreserve : reserveIds s.ids.allocator 1 s.ids.floor with why | ⟨first, allocator⟩
        · refine hmoves hs (h.move_memory hs s.ids none rfl (h.noted session s hs)
            (fun _ _ => rfl) le_rfl (by simp)) ?_
          simp [Numbering.step, hs, OrderIds.numberInMemory, hreserve, moved]
        · obtain ⟨hheld, hpast, rfl, hcarried⟩ := OrderIds.reserveIds_ok le_rfl hreserve
          refine hmoves hs (h.move_memory hs { s.ids with allocator := first + 1 }
            (some ⟨first, 1⟩) rfl (h.noted session s hs) (fun _ _ => rfl)
            (le_trans hheld (by simp)) ?_) ?_
          · intro r hr
            obtain rfl := Option.some.inj hr
            exact ⟨hheld, le_rfl, le_trans (OrderIds.one_le_floor _) hpast, hcarried⟩
          · simp [Numbering.step, hs, OrderIds.numberInMemory, hreserve, moved]
  | noteUsed session id =>
      rcases hs : w.sessions session with _ | s
      · exact hstay (by simp [Numbering.step, hs])
      · refine hmoves hs (h.move_note hs id (s.ids.noteUsed id) rfl rfl rfl) ?_
        simp [Numbering.step, hs, moved]
  | noteTheVenueNamed session id =>
      rcases hs : w.sessions session with _ | s
      · exact hstay (by simp [Numbering.step, hs])
      · refine hmoves hs (h.move_note hs id (s.ids.noteTheVenueNamed id) rfl rfl rfl) ?_
        simp [Numbering.step, hs, moved]
  | spend session id =>
      rcases hs : w.sessions session with _ | s
      · exact hstay (by simp [Numbering.step, hs])
      · refine hmoves hs (h.move_memory hs (s.ids.spend id) none rfl
          (h.noted session s hs) (fun _ _ => rfl) (le_max_left _ _) (by simp)) ?_
        simp [Numbering.step, hs, moved]

end

/-! ## Every run -/

lemma sound_start (digest : String → String) (file : Counters) :
    Sound digest { file := file } where
  stored := by simp
  noted := by simp
  fresh := by simp [spansOf]
  seen := by simp
  filed _ _ := .nil _
  own := by simp
  carried := by simp

/-- **Order numbers are handed out once.**  The runs saved as they were reserved are apart for an
account and a client, whatever their sessions; a session repeats none of its own numbers, whatever
failed; none is past what an order is carried under; and what is saved only rises. -/
theorem order_numbers_handed_once (digest : String → String)
    (hdigest : ∀ account, isDigest (digest account) = true) (file : Counters)
    (es : List NumberEvent) (hrun : Runs.Along (step digest) Lawful { file := file } es) :
    (∀ account client, ((Runs.run (step digest) { file := file } es).filedSpans account
      client).Pairwise Span.Before) ∧
    (∀ session, ((Runs.run (step digest) { file := file } es).spansOf session).Pairwise
      Span.Before) ∧
    (∀ h ∈ (Runs.run (step digest) { file := file } es).handed,
      1 ≤ h.span.first ∧ h.span.stop ≤ maxOrderId + 1) ∧
    Runs.Along (step digest) (Keeps digest) { file := file } es := by
  have hstep : ∀ (w : Numbering) e, w.Sound digest → w.Lawful e → (w.step digest e).Sound digest :=
    fun w e h he => (Sound.step hdigest h he).1
  have hsound := Runs.Along.invariant hstep (sound_start digest file) hrun
  refine ⟨fun account client => (hsound.filed account client).apart, fun session => ?_,
    hsound.carried, Runs.Along.mono hstep (fun w e h he => (Sound.step hdigest h he).2)
      (sound_start digest file) hrun⟩
  rcases hs : (Runs.run (step digest) { file := file } es).sessions session with _ | s
  · rw [(hsound.fresh session hs).1]
    exact .nil
  · exact (hsound.own session s hs).apart

def oneDigest (account : String) : String :=
  if account = "DU1" then "53415c3745ee231e1600d4cdddf04ada27899909ed1baf3d242e2b79ea7139b9"
  else "0000000000000000000000000000000000000000000000000000000000000000"

def namedFile : Counters := (∅ : Counters).put "DU1" 0 40

def twoSessions : List NumberEvent :=
  [.look 1, .opens 1 "DU1" 0 true .done, .look 2, .opens 2 "DU1" 0 true .done, .reserve 1 3 .done,
    .reserve 2 1 .done, .noteUsed 1 100, .numberInMemory 1, .reserve 1 2 .unwritten,
    .reserve 1 1 .done, .reserve 2 5 .done]

theorem order_numbers_handed_once_two :
    (Runs.run (step oneDigest) { file := namedFile } twoSessions).filedSpans "DU1" 0
      = [⟨40, 3⟩, ⟨43, 1⟩, ⟨44, 5⟩] ∧
    (Runs.run (step oneDigest) { file := namedFile } twoSessions).spansOf 1
      = [⟨40, 3⟩, ⟨101, 1⟩, ⟨102, 2⟩, ⟨104, 1⟩] ∧
    Runs.Along (step oneDigest) (Keeps oneDigest) { file := namedFile } twoSessions := by
  have hdigest : ∀ account, isDigest (oneDigest account) = true := by
    intro account
    unfold oneDigest
    split_ifs
    · decide +kernel
    · decide +kernel
  have hspans : (Runs.run (step oneDigest) { file := namedFile } twoSessions).filedSpans "DU1" 0
      = [⟨40, 3⟩, ⟨43, 1⟩, ⟨44, 5⟩] ∧
      (Runs.run (step oneDigest) { file := namedFile } twoSessions).spansOf 1
        = [⟨40, 3⟩, ⟨101, 1⟩, ⟨102, 2⟩, ⟨104, 1⟩] := by decide +kernel
  exact ⟨hspans.1, hspans.2,
    (order_numbers_handed_once oneDigest hdigest namedFile twoSessions (by decide)).2.2.2⟩

end Numbering

end IbkrDx
