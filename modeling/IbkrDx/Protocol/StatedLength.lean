import IbkrDx.Protocol.Connection

/-!
# What a header says about its frame

Every frame on this wire opens with tag 8 and tag 9, the second stating how much follows.  This
file says what the three length readers make of such a header once it is whole, and of any part of
one that has arrived so far: a part is never taken for an unreadable header.

* `statedBodyLength_header`, `binaryMsgLength_header`, `fixMsgLength_header`,
  `fixcompFrameLength_header` — a whole header, whatever stands behind it.
* `waitOrResync_part`, `fixcompFrameLength_part` — the front of a header.
-/

namespace IbkrDx

open Search Decimal

/-! ## The bytes of a header -/

lemma ascii_eight : ascii "8=" = [56, 61] := by decide

lemma ascii_nine : ascii "9=" = [57, 61] := by decide

lemma header_eq (name len : Bytes) :
    header name len = 56 :: 61 :: name ++ soh :: (57 :: 61 :: len ++ [soh]) := by
  simp only [header, ascii_eight, ascii_nine]
  rfl

@[simp]
lemma length_header (name len : Bytes) : (header name len).length = name.length + len.length + 6 := by
  simp only [header_eq, List.length_append, List.length_cons, List.length_nil]
  omega

lemma prefix_field {p l r : Bytes} (h : p <+: l ++ soh :: r) :
    p <+: l ∨ ∃ t, p = l ++ soh :: t ∧ t <+: r := by
  rcases List.prefix_or_prefix_of_prefix h (List.prefix_append l _) with hp | ⟨t, rfl⟩
  · exact Or.inl hp
  · rw [List.prefix_append_right_inj] at h
    cases t with
    | nil => exact Or.inl (by simp)
    | cons b t =>
        rw [List.cons_prefix_cons] at h
        obtain ⟨rfl, ht⟩ := h
        exact Or.inr ⟨t, rfl, ht⟩

lemma prefix_header {name len q : Bytes} (h : q <+: header name len) (hne : q ≠ header name len) :
    q <+: 56 :: 61 :: name ∨
      ∃ t, q = 56 :: 61 :: name ++ soh :: t ∧ t <+: 57 :: 61 :: len := by
  rw [header_eq] at h hne
  rcases prefix_field h with hq | ⟨t, rfl, ht⟩
  · exact Or.inl hq
  · rcases prefix_field ht with ht' | ⟨u, rfl, hu⟩
    · exact Or.inr ⟨t, rfl, ht'⟩
    · rw [List.prefix_nil] at hu
      exact absurd (by rw [hu]) hne

/-! ## Tag 9 -/

lemma soh_not_mem_nine {len : Bytes} (hlen : soh ∉ len) : soh ∉ 57 :: 61 :: len := by
  simpa [soh] using hlen

section

variable {name len : Bytes} (hname : soh ∉ name) (hlen : soh ∉ len)

include hname

lemma whereTag9Begins_name (t : Bytes) :
    whereTag9Begins (56 :: 61 :: name ++ soh :: t) = some (name.length + 3) := by
  rw [whereTag9Begins, ascii_eight, if_pos ⟨name ++ soh :: t, rfl⟩]
  have hdrop : (56 :: 61 :: name ++ soh :: t).drop 2 = name ++ soh :: t := rfl
  rw [hdrop, position_append_cons hname, Option.map_some]

omit hname in
lemma drop_name (t : Bytes) : (56 :: 61 :: name ++ soh :: t).drop (name.length + 3) = t := by
  have h : name.length + 3 = (56 :: 61 :: name ++ [soh]).length := by simp
  rw [h, List.append_cons (56 :: 61 :: name) soh t, List.drop_left]

variable {q : Bytes}

lemma whereTag9Begins_part (hq : q <+: 56 :: 61 :: name) :
    whereTag9Begins q = none := by
  unfold whereTag9Begins
  split
  · rw [Option.map_eq_none_iff, position_eq_none]
    intro hmem
    have hsoh : soh ∈ (56 :: 61 :: name).drop 2 := (hq.drop 2).subset hmem
    exact hname hsoh
  · rfl

include hlen

lemma statedBodyLength_header (r : Bytes) :
    statedBodyLength (header name len ++ r)
      = (parse usizeBound len).map fun n => (name.length + len.length + 5, n) := by
  have hshape : header name len ++ r = 56 :: 61 :: name ++ soh :: (57 :: 61 :: len ++ soh :: r) := by
    simp [header_eq]
  have hpos : position soh (57 :: 61 :: len ++ soh :: r) = some (len.length + 2) :=
    position_append_cons (soh_not_mem_nine hlen) r
  have hval : ((header name len ++ r).drop (name.length + 3 + 2)).take len.length = len := by
    rw [hshape, ← List.drop_drop, drop_name]
    exact List.take_left
  rw [hshape] at hval
  rw [hshape, statedBodyLength, whereTag9Begins_name hname]
  simp only [Option.bind_eq_bind, Option.bind_some, drop_name]
  rw [ascii_nine, if_pos ⟨len ++ soh :: r, rfl⟩, hpos]
  simp only [Option.bind_some, Nat.add_sub_cancel, hval]
  cases parse usizeBound len with
  | none => rfl
  | some n =>
      simp only [Option.bind_some, Option.map_some, Option.pure_def, Option.some.injEq,
        Prod.mk.injEq, and_true]
      omega

omit hname in
/-- What has arrived of tag 9 states no length, and is not unreadable either. -/
lemma statedBodyLength_part (hname : soh ∉ name) (hq : q <+: header name len)
    (hne : q ≠ header name len) : statedBodyLength q = none := by
  rcases prefix_header hq hne with hq' | ⟨t, rfl, ht⟩
  · rw [statedBodyLength, whereTag9Begins_part hname hq']
    rfl
  · have hsoh : soh ∉ t := fun hmem => soh_not_mem_nine hlen (ht.subset hmem)
    rw [statedBodyLength, whereTag9Begins_name hname]
    simp only [Option.bind_eq_bind, Option.bind_some, drop_name, position_eq_none.2 hsoh,
      Option.bind_none, ite_self]

lemma waitOrResync_part (total : Bytes → Option ℕ) (hq : q <+: header name len)
    (hne : q ≠ header name len) : waitOrResync q total = .stop 0 := by
  have hwait : tag9IsUnreadable q total = false := by
    rcases prefix_header hq hne with hq' | ⟨t, rfl, ht⟩
    · rw [tag9IsUnreadable, whereTag9Begins_part hname hq']
    · have hsoh : soh ∉ t := fun hmem => soh_not_mem_nine hlen (ht.subset hmem)
      simp only [tag9IsUnreadable, whereTag9Begins_name hname, drop_name]
      by_cases hshort : t.length < 2
      · rw [if_pos hshort]
      · have hnine : ascii "9=" <+: t := by
          rw [ascii_nine]
          exact List.prefix_of_prefix_length_le ⟨len, rfl⟩ ht (not_lt.1 hshort)
        rw [if_neg hshort, if_neg (not_not.2 hnine), if_pos hsoh]
  rw [waitOrResync, hwait]
  rfl

omit hname hlen in
lemma checkedAdd_of_lt {a b : ℕ} (h : a + b < usizeBound) : checkedAdd a b = some (a + b) :=
  if_pos h

variable {n : ℕ} (hparse : parse usizeBound len = some n)

include hparse

lemma binaryMsgLength_header (hfit : name.length + len.length + 6 + n < usizeBound) (r : Bytes) :
    binaryMsgLength (header name len ++ r) = some (name.length + len.length + 6 + n) := by
  simp only [binaryMsgLength, statedBodyLength_header hname hlen, hparse, Option.map_some,
    Option.bind_eq_bind, Option.bind_some]
  rw [checkedAdd_of_lt (by omega), Option.bind_some, checkedAdd_of_lt hfit]

lemma fixMsgLength_header (hfit : name.length + len.length + 6 + n + 7 < usizeBound) (r : Bytes) :
    fixMsgLength (header name len ++ r) = some (name.length + len.length + 6 + n + 7) := by
  simp only [fixMsgLength, statedBodyLength_header hname hlen, hparse, Option.map_some,
    Option.bind_eq_bind, Option.bind_some]
  rw [checkedAdd_of_lt (by omega), Option.bind_some, checkedAdd_of_lt (by omega),
    Option.some.injEq]
  omega

omit hlen hparse in
lemma waitOrResync_header {total : Bytes → Option ℕ} {r : Bytes}
    (htotal : (total (header name len ++ r)).isSome = true) :
    waitOrResync (header name len ++ r) total = .stop 0 := by
  have hwait : tag9IsUnreadable (header name len ++ r) total = false := by
    unfold tag9IsUnreadable
    split
    · rfl
    · next at9 hat =>
        have hshape : header name len ++ r
            = 56 :: 61 :: name ++ soh :: (57 :: 61 :: len ++ soh :: r) := by
          simp [header_eq]
        have hat9 : at9 = name.length + 3 := by
          rw [hshape, whereTag9Begins_name hname, Option.some.injEq] at hat
          exact hat.symm
        have hdrop : (header name len ++ r).drop at9 = 57 :: 61 :: len ++ soh :: r := by
          rw [hshape, hat9, drop_name]
        have hnine : ascii "9=" <+: 57 :: 61 :: len ++ soh :: r := by
          rw [ascii_nine]
          exact ⟨len ++ soh :: r, rfl⟩
        simp only [hdrop]
        rw [if_neg (by simp), if_neg (not_not.2 hnine), if_neg (by simp)]
        simpa using htotal
  rw [waitOrResync, hwait]
  rfl

/-! ## Compressed frames -/

omit hlen hparse in
/-- What a compressed header says, told by what stands behind its first field. -/
lemma fixcompFrameLength_name (t : Bytes) (h10 : 10 ≤ (56 :: 61 :: name ++ soh :: t).length) :
    fixcompFrameLength (56 :: 61 :: name ++ soh :: t)
      = if t.length < 2 then .incomplete
        else if ¬ ascii "9=" <+: t then .unreadable
        else (position soh t).elim (unseparated (56 :: 61 :: name ++ soh :: t))
          (statedTotal (56 :: 61 :: name ++ soh :: t) (name.length + 3)) := by
  have hsoh1 : position soh (56 :: 61 :: name ++ soh :: t) = some (name.length + 2) :=
    position_append_cons (by simpa [soh] using hname) t
  have hdrop : (56 :: 61 :: name ++ soh :: t).drop (name.length + 2 + 1) = t := drop_name t
  have hshort : (56 :: 61 :: name ++ soh :: t).length < name.length + 2 + 1 + 2 ↔ t.length < 2 := by
    simp only [List.length_append, List.length_cons]
    omega
  simp only [fixcompFrameLength, if_neg (not_lt.2 h10), hsoh1, hdrop, hshort]
  cases position soh t <;> rfl

lemma fixcompFrameLength_header (h10 : 10 ≤ name.length + len.length + 6)
    (hfit : name.length + len.length + 6 + n < usizeBound) (r : Bytes) :
    fixcompFrameLength (header name len ++ r)
      = if (header name len ++ r).length < name.length + len.length + 6 + n then .incomplete
        else .complete (name.length + len.length + 6 + n) := by
  have hshape : header name len ++ r
      = 56 :: 61 :: name ++ soh :: (57 :: 61 :: len ++ soh :: r) := by
    simp [header_eq]
  have hsoh2 : position soh (57 :: 61 :: len ++ soh :: r) = some (len.length + 2) :=
    position_append_cons (soh_not_mem_nine hlen) r
  have hval : ((header name len ++ r).drop (name.length + 3 + 2)).take
      (len.length + 2 - 2) = len := by
    rw [hshape, ← List.drop_drop, drop_name]
    exact List.take_left
  have hnine : ascii "9=" <+: 57 :: 61 :: len ++ soh :: r := by
    rw [ascii_nine]
    exact ⟨len ++ soh :: r, rfl⟩
  have htotal : (checkedAdd (name.length + 3 + (len.length + 2)) 1).bind (checkedAdd · n)
      = some (name.length + len.length + 6 + n) := by
    rw [checkedAdd_of_lt (by omega), Option.bind_some, checkedAdd_of_lt (by omega),
      Option.some.injEq]
    omega
  have hname9 := fixcompFrameLength_name hname (57 :: 61 :: len ++ soh :: r)
    (by rw [← hshape, List.length_append, length_header]; omega)
  rw [← hshape] at hname9
  rw [hname9, if_neg (by simp), if_neg (not_not.2 hnine), hsoh2]
  simp only [Option.elim_some, statedTotal, hval, hparse, htotal]

omit hparse in
lemma fixcompFrameLength_part (hq : q <+: header name len)
    (hne : q ≠ header name len) (hscan : name.length + len.length + 6 ≤ maxHeaderScan) :
    fixcompFrameLength q = .incomplete := by
  have hshort : q.length ≤ maxHeaderScan := by
    have := hq.length_le
    rw [length_header] at this
    omega
  have hunsep : unseparated q = .incomplete := if_neg (by omega)
  unfold fixcompFrameLength
  split
  · rfl
  · rcases prefix_header hq hne with hq' | ⟨t, rfl, ht⟩
    · have hsoh : soh ∉ q := fun hmem => by
        have := hq'.subset hmem
        simp [soh] at this
        exact hname this
      rw [position_eq_none.2 hsoh]
      exact hunsep
    · have hsoh1 : position soh (56 :: 61 :: name ++ soh :: t) = some (name.length + 2) :=
        position_append_cons (by simpa [soh] using hname) t
      have hsoh : soh ∉ t := fun hmem => soh_not_mem_nine hlen (ht.subset hmem)
      have hdrop : (56 :: 61 :: name ++ soh :: t).drop (name.length + 2 + 1) = t := drop_name t
      simp only [hsoh1, hdrop, position_eq_none.2 hsoh, hunsep]
      split
      · rfl
      · next h2 =>
          have hnine : ascii "9=" <+: t := by
            rw [ascii_nine]
            refine List.prefix_of_prefix_length_le ⟨len, rfl⟩ ht ?_
            simp only [List.length_append, List.length_cons] at h2
            simp only [List.length_cons, List.length_nil]
            omega
          rw [if_neg (not_not.2 hnine)]

end

end IbkrDx
