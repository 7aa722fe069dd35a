import IbkrDx.Protocol.Framing

/-!
# Nothing holds the frame walk up

Bytes that begin no header are stepped over and the frames behind them come out, and what the walk
leaves in the buffer is never something that no byte can complete.

* **`extractFrames_never_stalls`** — the three together.
-/

namespace IbkrDx

open Search Decimal

/-! ## The walk by rounds -/

def extractRounds : ℕ → Bytes → Option (Cut.Reading Frame UInt8)
  | 0, _ => none
  | k + 1, buf =>
      if buf = [] then some ⟨[], [], 0⟩
      else
        match extractStep buf with
        | .take frame total => (extractRounds k (buf.drop total)).map fun r => r.cons frame
        | .skip n => (extractRounds k (buf.drop n)).map fun r => ⟨r.frames, r.rest, n + r.dropped⟩
        | .stop n => some ⟨[], buf.drop n, n⟩

variable {buf : Bytes}

lemma length_drop_consumed (hne : buf ≠ [])
    (hgo : (extractStep buf).goesOn = true) :
    (buf.drop (extractStep buf).consumed).length < buf.length := by
  have := List.length_pos_iff.2 hne
  have := extractStep_moves buf hgo
  rw [List.length_drop]
  omega

/-- **The walk ends.**  Every round it goes on behind takes a byte off the buffer. -/
theorem extractRounds_eq : ∀ (k : ℕ) (buf : Bytes), buf.length < k →
    extractRounds k buf = some (extractLoop buf)
  | k + 1, buf, hk => by
      by_cases hne : buf = []
      · rw [hne, extractLoop_nil, extractRounds, if_pos rfl]
      · rw [extractRounds, if_neg hne]
        have hshort := length_drop_consumed hne
        cases hstep : extractStep buf with
        | take frame total =>
            rw [hstep] at hshort
            have hrec := extractRounds_eq k (buf.drop total)
              (lt_of_lt_of_le (hshort rfl) (Nat.le_of_lt_succ hk))
            simp only [hrec, Option.map_some, extractLoop_take hne hstep]
        | skip n =>
            rw [hstep] at hshort
            have hrec := extractRounds_eq k (buf.drop n)
              (lt_of_lt_of_le (hshort rfl) (Nat.le_of_lt_succ hk))
            simp only [hrec, Option.map_some, extractLoop_skip hne hstep]
        | stop n => simp only [extractLoop_stop hne hstep]

lemma extractLoop_induction {P : Bytes → Prop} (nil : P [])
    (on : ∀ buf, buf ≠ [] → (extractStep buf).goesOn = true →
      P (buf.drop (extractStep buf).consumed) → P buf)
    (stop : ∀ buf n, buf ≠ [] → extractStep buf = .stop n → P buf) (buf : Bytes) : P buf := by
  induction hn : buf.length using Nat.strong_induction_on generalizing buf with
  | _ n ih =>
      subst hn
      by_cases hne : buf = []
      · exact hne ▸ nil
      · cases hstep : extractStep buf with
        | stop n => exact stop buf n hne hstep
        | take frame total =>
            have hgo : (extractStep buf).goesOn = true := by rw [hstep]; rfl
            exact on buf hne hgo (ih _ (length_drop_consumed hne hgo) _ rfl)
        | skip n =>
            have hgo : (extractStep buf).goesOn = true := by rw [hstep]; rfl
            exact on buf hne hgo (ih _ (length_drop_consumed hne hgo) _ rfl)

lemma extractLoop_rest (hne : buf ≠ []) (hgo : (extractStep buf).goesOn = true) :
    (extractLoop buf).rest = (extractLoop (buf.drop (extractStep buf).consumed)).rest := by
  cases hstep : extractStep buf with
  | take frame total => rw [extractLoop_take hne hstep]; rfl
  | skip n => rw [extractLoop_skip hne hstep]; rfl
  | stop n =>
      rw [hstep] at hgo
      exact absurd hgo Bool.false_ne_true

lemma extractLoop_rest_suffix (buf : Bytes) : (extractLoop buf).rest <:+ buf := by
  induction buf using extractLoop_induction with
  | nil => rw [extractLoop_nil]
  | on buf hne hgo ih =>
      rw [extractLoop_rest hne hgo]
      exact ih.trans (List.drop_suffix _ _)
  | stop buf n hne hstep =>
      rw [extractLoop_stop hne hstep]
      exact List.drop_suffix n buf

lemma extractLoop_rest_stopped (buf : Bytes) :
    (extractLoop buf).rest = [] ∨
      ∃ b n, b ≠ [] ∧ extractStep b = .stop n ∧ (extractLoop buf).rest = b.drop n := by
  induction buf using extractLoop_induction with
  | nil => exact Or.inl (by rw [extractLoop_nil])
  | on buf hne hgo ih => rwa [extractLoop_rest hne hgo]
  | stop buf n hne hstep => exact Or.inr ⟨buf, n, hne, hstep, by rw [extractLoop_stop hne hstep]⟩

/-! ## Frames behind garbage -/

/-- No header this reader recognises begins in the first `n` bytes. -/
def NoHeaderIn (n : ℕ) (buf : Bytes) : Prop := ∀ i < n, ∀ m ∈ headers, ¬ m <+: buf.drop i

lemma le_of_nextHeader {n : ℕ} (hno : NoHeaderIn n buf) {i : ℕ}
    (h : nextHeader buf = some i) : n ≤ i := by
  obtain ⟨m, hm, hfind⟩ := List.mem_filterMap.1 (List.min?_mem h)
  by_contra hlt
  exact hno i (not_le.1 hlt) m hm (prefix_of_find hfind)

lemma nextHeader_behind {g tail m : Bytes} (hno : NoHeaderIn g.length (g ++ tail))
    (hm : m ∈ headers) (hfront : m <+: tail) : nextHeader (g ++ tail) = some g.length := by
  have hthere : m <+: (g ++ tail).drop g.length := by rwa [List.drop_left]
  obtain ⟨j, hj, hfind⟩ := find_of_prefix (by simp) hthere
  have hmem : j ∈ headers.filterMap (find · (g ++ tail)) := List.mem_filterMap.2 ⟨m, hm, hfind⟩
  cases hnext : nextHeader (g ++ tail) with
  | none =>
      rw [nextHeader, List.min?_eq_none_iff] at hnext
      rw [hnext] at hmem
      exact absurd hmem List.not_mem_nil
  | some i =>
      have hle : i ≤ j := (List.min?_eq_some_iff.1 hnext).2 j hmem
      have hge := le_of_nextHeader hno hnext
      rw [Option.some.injEq]
      omega

lemma extractStep_garbage {g tail : Bytes} (hg : g ≠ []) (hno : NoHeaderIn g.length (g ++ tail)) :
    extractStep (g ++ tail) = match nextHeader (g ++ tail) with
      | none => .stop ((g ++ tail).length - min (g ++ tail).length (fixcompMarker.length - 1))
      | some earliest => .skip earliest := by
  have hpos := List.length_pos_iff.2 hg
  have hcomp : ¬ fixcompMarker <+: g ++ tail := hno 0 hpos fixcompMarker (by decide)
  cases hnext : nextHeader (g ++ tail) with
  | none => simp only [extractStep, if_neg hcomp, hnext]
  | some e =>
      have he : 0 < e := lt_of_lt_of_le hpos (le_of_nextHeader hno hnext)
      simp only [extractStep, if_neg hcomp, hnext, if_pos he]

lemma Framed.marker {f : Frame} (hf : Framed f) : ∃ m ∈ headers, m <+: f.bytes := by
  cases hf with
  | fix version len body close hversion hlen hparse hbody hclose =>
      exact ⟨_, by decide, marker_version version len _⟩
  | comp len body hlen hparse => exact ⟨_, by decide, marker_comp len body⟩
  | plain name hname len body hlen hparse =>
      have hnames : ∀ n ∈ plainNames, plainMarker n ∈ headers := by decide
      refine ⟨plainMarker name, hnames name hname, ?_⟩
      split <;> exact header_prefix_marker name len body

lemma extractLoop_framed : ∀ fs : List Frame, (∀ f ∈ fs, Framed f ∧ Held f) →
    extractLoop (fs.flatMap Frame.bytes) = ⟨fs, [], 0⟩
  | [], _ => extractLoop_nil
  | f :: fs, hfs => by
      obtain ⟨hf, hheld⟩ := hfs f List.mem_cons_self
      rw [List.flatMap_cons, hf.extractLoop_append hheld,
        extractLoop_framed fs fun f hf => hfs f (List.mem_cons_of_mem _ hf)]
      rfl

lemma frames_behind_garbage {g : Bytes} {fs : List Frame} (hfs : ∀ f ∈ fs, Framed f ∧ Held f)
    (hno : NoHeaderIn g.length (g ++ fs.flatMap Frame.bytes)) :
    (extractLoop (g ++ fs.flatMap Frame.bytes)).frames = fs := by
  by_cases hg : g = []
  · rw [hg, List.nil_append, extractLoop_framed fs hfs]
  · have hne : g ++ fs.flatMap Frame.bytes ≠ [] := fun h => hg (List.append_eq_nil_iff.1 h).1
    have hstep := extractStep_garbage hg hno
    cases fs with
    | nil =>
        have hnone : nextHeader (g ++ [].flatMap Frame.bytes) = none := by
          by_contra hsome
          obtain ⟨i, hi⟩ := Option.ne_none_iff_exists'.1 hsome
          have hlt := nextHeader_lt hi
          have hge := le_of_nextHeader hno hi
          simp only [List.flatMap_nil, List.append_nil] at hlt
          omega
        rw [hnone] at hstep
        rw [extractLoop_stop hne hstep]
    | cons f fs =>
        obtain ⟨m, hm, hmark⟩ := (hfs f List.mem_cons_self).1.marker
        rw [nextHeader_behind hno hm (by
          rw [List.flatMap_cons]
          exact hmark.trans (List.prefix_append _ _))] at hstep
        rw [extractLoop_skip hne hstep, List.drop_left, extractLoop_framed _ hfs]

/-! ## What a header that is waited on still needs -/

def strayByte : UInt8 := 120

lemma parse_stray (bound : ℕ) (t : Bytes) : parse bound (t ++ [strayByte]) = none := by
  cases h : parse bound (t ++ [strayByte]) with
  | none => rfl
  | some n =>
      exact absurd (List.mem_append_right t (List.mem_singleton.2 rfl))
        (not_mem_of_parse h (b := strayByte) (by decide) (by decide))

variable {b : Bytes}

lemma first_field_cases (h : ascii "8=" <+: b) :
    (∃ name, soh ∉ name ∧ b = 56 :: 61 :: name) ∨
      ∃ name t, soh ∉ name ∧ b = 56 :: 61 :: name ++ soh :: t := by
  obtain ⟨u, rfl⟩ := h
  rw [ascii_eight]
  cases hu : position soh u with
  | none => exact Or.inl ⟨u, position_eq_none.1 hu, rfl⟩
  | some i =>
      obtain ⟨t, ht, hsoh⟩ := position_eq_some hu
      exact Or.inr ⟨u.take i, t, hsoh, congrArg (56 :: 61 :: ·) ht⟩

lemma not_nine_stray {t : Bytes} (h : t.length < 2) :
    ¬ ascii "9=" <+: t ++ [strayByte, strayByte] := by
  rw [ascii_nine]
  rintro ⟨r, hr⟩
  match t, h with
  | [], _ => exact absurd (List.cons.inj hr).1 (by decide)
  | [a], _ => exact absurd (List.cons.inj (List.cons.inj hr).2).1 (by decide)

lemma exists_more_length (b : Bytes) (n : ℕ) : ∃ more : Bytes, n ≤ (b ++ more).length :=
  ⟨List.replicate n 0, by simp⟩

/-! ### Compressed headers -/

lemma fixcompFrameLength_le {n : ℕ} (h : fixcompFrameLength b = .complete n) :
    n ≤ b.length := by
  have hstated : ∀ {tag9 p}, statedTotal b tag9 p = .complete n → n ≤ b.length := by
    intro tag9 p h
    unfold statedTotal at h
    repeat' split at h
    all_goals cases h
    omega
  simp only [fixcompFrameLength, unseparated] at h
  repeat' split at h
  all_goals first | cases h | exact hstated h

lemma take_drop_append {more : Bytes} {i j : ℕ} (h : i + j ≤ b.length) :
    ((b ++ more).drop i).take j = (b.drop i).take j := by
  rw [List.drop_append_of_le_length (by omega),
    List.take_append_of_le_length (by rw [List.length_drop]; omega)]

lemma exists_more_statedTotal {tag9 p : ℕ} (hp : 2 ≤ p) (hlen : tag9 + p ≤ b.length) :
    ∃ more, statedTotal (b ++ more) tag9 p ≠ .incomplete := by
  have hval (more : Bytes) : ((b ++ more).drop (tag9 + 2)).take (p - 2)
      = (b.drop (tag9 + 2)).take (p - 2) := take_drop_append (by omega)
  simp only [statedTotal, hval]
  cases parse usizeBound ((b.drop (tag9 + 2)).take (p - 2)) with
  | none => exact ⟨[], by simp⟩
  | some bodyLen =>
      simp only
      cases (checkedAdd (tag9 + p) 1).bind (checkedAdd · bodyLen) with
      | none => exact ⟨[], by simp⟩
      | some total =>
          obtain ⟨more, hmore⟩ := exists_more_length b total
          exact ⟨more, by simp only [if_neg (not_lt.2 hmore)]; exact nofun⟩

lemma exists_more_fixcomp (hmark : fixcompMarker <+: b)
    (hwait : fixcompFrameLength b = .incomplete) :
    ∃ more, fixcompFrameLength (b ++ more) ≠ .incomplete := by
  obtain ⟨t, rfl⟩ := hmark
  have hname : soh ∉ ascii "FIXCOMP" := by decide
  have hshape : ∀ r, fixcompMarker ++ r = 56 :: 61 :: ascii "FIXCOMP" ++ soh :: r := by
    have h : fixcompMarker = 56 :: 61 :: ascii "FIXCOMP" ++ [soh] := by decide
    intro r
    rw [h, List.append_assoc]
    rfl
  have hten : fixcompMarker.length = 10 := by decide
  have hsays : ∀ r, fixcompFrameLength (fixcompMarker ++ r)
      = if r.length < 2 then .incomplete
        else if ¬ ascii "9=" <+: r then .unreadable
        else (position soh r).elim (unseparated (fixcompMarker ++ r))
          (statedTotal (fixcompMarker ++ r) 10) := by
    intro r
    rw [hshape]
    exact fixcompFrameLength_name hname r (by
      rw [← hshape, List.length_append, hten]
      omega)
  simp only [List.append_assoc, hsays] at hwait ⊢
  by_cases hshort : t.length < 2
  · refine ⟨[strayByte, strayByte], ?_⟩
    rw [if_neg (by simp), if_pos (not_nine_stray hshort)]
    exact fun h => by cases h
  · rw [if_neg hshort] at hwait
    by_cases hnine : ascii "9=" <+: t
    · rw [if_neg (not_not.2 hnine)] at hwait
      have hlong (more : Bytes) : ¬ (t ++ more).length < 2 := by
        rw [List.length_append]
        omega
      have hnine' (more : Bytes) : ascii "9=" <+: t ++ more := hnine.trans (List.prefix_append _ _)
      cases hsoh : position soh t with
      | none =>
          -- the length is still arriving: one byte of it that is no digit, and its separator
          obtain ⟨len, rfl⟩ := hnine
          have hlen : soh ∉ len := fun h => position_eq_none.1 hsoh (List.mem_append_right _ h)
          have hpos : position soh (ascii "9=" ++ len ++ [strayByte, soh])
              = some (len.length + 3) := by
            have hfield : soh ∉ 57 :: 61 :: (len ++ [strayByte]) :=
              soh_not_mem_nine (by
                rw [List.mem_append, not_or]
                exact ⟨hlen, by decide⟩)
            have := position_append_cons hfield []
            simpa [ascii_nine] using this
          refine ⟨[strayByte, soh], ?_⟩
          rw [if_neg (hlong _), if_neg (not_not.2 (hnine' _)), hpos, Option.elim_some, statedTotal]
          have hval : ((fixcompMarker ++ (ascii "9=" ++ len ++ [strayByte, soh])).drop (10 + 2)).take
              (len.length + 3 - 2) = len ++ [strayByte] := by
            have hfront : fixcompMarker ++ (ascii "9=" ++ len ++ [strayByte, soh])
                = (fixcompMarker ++ ascii "9=") ++ ((len ++ [strayByte]) ++ [soh]) := by simp
            have htwelve : (fixcompMarker ++ ascii "9=").length = 12 := by decide
            rw [hfront, List.drop_left' htwelve, List.take_left' (by simp)]
          rw [hval, parse_stray]
          exact fun h => by cases h
      | some p =>
          have hp := position_lt hsoh
          have htwo : 2 ≤ p := by
            obtain ⟨r, hr, -⟩ := position_eq_some hsoh
            obtain ⟨u, rfl⟩ := hnine
            by_contra hlt
            have hcases : p = 0 ∨ p = 1 := by omega
            rcases hcases with rfl | rfl
            · exact absurd (List.cons.inj hr).1 (by decide)
            · exact absurd (List.cons.inj (List.cons.inj hr).2).1 (by decide)
          have hroom : 10 + p ≤ (fixcompMarker ++ t).length := by
            rw [List.length_append, hten]
            omega
          obtain ⟨more, hmore⟩ := exists_more_statedTotal htwo hroom
          refine ⟨more, ?_⟩
          rw [if_neg (hlong _), if_neg (not_not.2 (hnine' _)), position_append hsoh,
            Option.elim_some, ← List.append_assoc]
          exact hmore
    · rw [if_pos hnine] at hwait
      cases hwait

/-! ### Headers with their length behind the first field -/

lemma header_of_nine (name : Bytes) {t : Bytes} (hnine : ascii "9=" <+: t) (hsoh : soh ∈ t) :
    ∃ len r, soh ∉ len ∧ 56 :: 61 :: name ++ soh :: t = header name len ++ r := by
  obtain ⟨u, rfl⟩ := hnine
  have hu : soh ∈ u := by
    rw [List.mem_append] at hsoh
    exact hsoh.resolve_left (by decide)
  cases hpos : position soh u with
  | none => exact absurd hu (position_eq_none.1 hpos)
  | some i =>
      obtain ⟨r, hr, hlen⟩ := position_eq_some hpos
      refine ⟨u.take i, r, hlen, ?_⟩
      rw [header_eq, ascii_nine]
      conv_lhs => rw [hr]
      simp

lemma header_of_stated {x : ℕ × ℕ} (h : statedBodyLength b = some x) :
    ∃ name len r, soh ∉ name ∧ soh ∉ len ∧ b = header name len ++ r := by
  simp only [statedBodyLength, Option.bind_eq_bind, Option.bind_eq_some_iff] at h
  obtain ⟨at9, hat, h⟩ := h
  have height : ascii "8=" <+: b := by
    unfold whereTag9Begins at hat
    split at hat
    · assumption
    · cases hat
  rcases first_field_cases height with ⟨name, hname, rfl⟩ | ⟨name, t, hname, rfl⟩
  · rw [whereTag9Begins_part hname (List.prefix_refl _)] at hat
    cases hat
  · rw [whereTag9Begins_name hname, Option.some.injEq] at hat
    subst hat
    rw [drop_name] at h
    split at h
    · next hnine =>
        obtain ⟨p, hp, -⟩ := Option.bind_eq_some_iff.1 h
        obtain ⟨len, r, hlen, hb⟩ := header_of_nine name hnine
          (by_contra fun hno => by rw [position_eq_none.2 hno] at hp; cases hp)
        exact ⟨name, len, r, hname, hlen, hb⟩
    · cases h

lemma statedBodyLength_append {x : ℕ × ℕ} (h : statedBodyLength b = some x)
    (more : Bytes) : statedBodyLength (b ++ more) = some x := by
  obtain ⟨name, len, r, hname, hlen, rfl⟩ := header_of_stated h
  rw [List.append_assoc, statedBodyLength_header hname hlen]
  rwa [statedBodyLength_header hname hlen] at h

structure LengthReader (total : Bytes → Option ℕ) : Prop where
  stated : ∀ b, statedBodyLength b = none → total b = none
  stays : ∀ b n, total b = some n → ∀ more, total (b ++ more) = some n

variable {total : Bytes → Option ℕ}

lemma lengthReader_of_bind (f : ℕ × ℕ → Option ℕ)
    (h : ∀ b, total b = (statedBodyLength b).bind f) : LengthReader total where
  stated := fun b hb => by rw [h, hb, Option.bind_none]
  stays := fun b n hn more => by
    rw [h] at hn ⊢
    obtain ⟨x, hx, hfx⟩ := Option.bind_eq_some_iff.1 hn
    rw [statedBodyLength_append hx, Option.bind_some, hfx]

lemma lengthReader_binary : LengthReader binaryMsgLength :=
  lengthReader_of_bind (fun x => (checkedAdd x.1 1).bind (checkedAdd · x.2)) fun _ => rfl

lemma lengthReader_fix : LengthReader fixMsgLength :=
  lengthReader_of_bind (fun x => (checkedAdd x.1 8).bind (checkedAdd · x.2)) fun _ => rfl

/-- The frame at the front is here whole, or its length does not read. -/
def Settled (total : Bytes → Option ℕ) (b : Bytes) : Prop :=
  (∃ n, total b = some n ∧ n ≤ b.length) ∨ tag9IsUnreadable b total = true

lemma LengthReader.exists_more_tag9 (H : LengthReader total)
    (height : ascii "8=" <+: b) : ∃ more, Settled total (b ++ more) := by
  have hhead : ∀ name t, soh ∉ name → tag9IsUnreadable (56 :: 61 :: name ++ soh :: t) total
      = if t.length < 2 then false
        else if ¬ ascii "9=" <+: t then true
        else if soh ∉ t then false
        else (total (56 :: 61 :: name ++ soh :: t)).isNone := by
    intro name t hname
    simp only [tag9IsUnreadable, whereTag9Begins_name hname, drop_name]
  rcases first_field_cases height with ⟨name, hname, rfl⟩ | ⟨name, t, hname, rfl⟩
  · -- the first field is still arriving: it ends, and what follows is no length
    refine ⟨soh :: [strayByte, strayByte], Or.inr ?_⟩
    rw [hhead name _ hname, if_neg (by decide), if_pos (by decide)]
  · simp only [List.append_assoc, List.cons_append] at hhead ⊢
    by_cases hshort : t.length < 2
    · refine ⟨[strayByte, strayByte], Or.inr ?_⟩
      rw [hhead name _ hname, if_neg (by simp), if_pos (not_nine_stray hshort)]
    · have hlong (more : Bytes) : ¬ (t ++ more).length < 2 := by
        rw [List.length_append]
        omega
      by_cases hnine : ascii "9=" <+: t
      · have hnine' (more : Bytes) : ascii "9=" <+: t ++ more :=
          hnine.trans (List.prefix_append _ _)
        by_cases hsoh : soh ∈ t
        · cases htotal : total (56 :: 61 :: (name ++ soh :: t)) with
          | none =>
              refine ⟨[], Or.inr ?_⟩
              rw [List.append_nil, hhead name t hname, if_neg hshort, if_neg (not_not.2 hnine),
                if_neg (not_not.2 hsoh), htotal]
              rfl
          | some n =>
              obtain ⟨more, hmore⟩ := exists_more_length (56 :: 61 :: (name ++ soh :: t)) n
              have hstays := H.stays _ n htotal more
              simp only [List.cons_append, List.append_assoc] at hstays hmore
              exact ⟨more, Or.inl ⟨n, hstays, hmore⟩⟩
        · -- the length is still arriving: one byte of it that is no digit, and its separator
          refine ⟨[strayByte, soh], Or.inr ?_⟩
          rw [hhead name _ hname, if_neg (hlong _), if_neg (not_not.2 (hnine' _)),
            if_neg (by simp), Option.isNone_iff_eq_none]
          obtain ⟨len, rfl⟩ := hnine
          have hlen : soh ∉ len ++ [strayByte] := by
            rw [List.mem_append, not_or] at hsoh ⊢
            exact ⟨hsoh.2, by decide⟩
          have hbytes : 56 :: 61 :: (name ++ soh :: (ascii "9=" ++ len ++ [strayByte, soh]))
              = header name (len ++ [strayByte]) ++ [] := by
            rw [header_eq, ascii_nine]
            simp
          rw [hbytes]
          refine H.stated _ ?_
          rw [statedBodyLength_header hname hlen, parse_stray]
          rfl
      · refine ⟨[], Or.inr ?_⟩
        rw [List.append_nil, hhead name t hname, if_neg hshort, if_pos hnine]

/-! ## What the walk leaves -/

lemma waitOrResync_goesOn
    (h : tag9IsUnreadable buf total = true) : (waitOrResync buf total).goesOn = true := by
  rw [waitOrResync, if_pos h]
  rfl

lemma filter_settled
    (h : (total buf).filter (· ≤ buf.length) = none) (hset : Settled total buf) :
    tag9IsUnreadable buf total = true := by
  refine hset.resolve_left ?_
  rintro ⟨n, hn, hle⟩
  rw [hn, Option.filter_some, if_pos (by simpa using hle)] at h
  cases h

lemma extractBinary_goesOn (h : Settled binaryMsgLength buf) :
    (extractBinary buf).goesOn = true := by
  unfold extractBinary
  split
  · rfl
  · next hnone => exact waitOrResync_goesOn (filter_settled hnone h)

lemma extractFix_goesOn (h : Settled fixMsgLength buf) :
    (extractFix buf).goesOn = true := by
  unfold extractFix
  split
  · split <;> rfl
  · next hnone => exact waitOrResync_goesOn (filter_settled hnone h)

lemma extractFixcomp_goesOn (h : fixcompFrameLength buf ≠ .incomplete) :
    (extractFixcomp buf).goesOn = true := by
  unfold extractFixcomp
  split
  · next total htotal => rw [if_pos (fixcompFrameLength_le htotal)]; rfl
  · next hwait => exact absurd hwait h
  · rfl

lemma exists_more_header {m : Bytes} (hm : m ∈ headers) (hmark : m <+: buf) :
    ∃ more, (extractStep (buf ++ more)).goesOn = true := by
  have hkind : ∀ m ∈ headers, m = ascii "8=FIX." ∨ (∃ name ∈ plainNames, m = plainMarker name) ∨
      m = fixcompMarker := by decide
  have height : ascii "8=" <+: buf := by
    have hall : ∀ m ∈ headers, ascii "8=" <+: m := by decide
    exact (hall m hm).trans hmark
  rcases hkind m hm with rfl | ⟨name, hname, rfl⟩ | rfl
  · obtain ⟨more, hmore⟩ := lengthReader_fix.exists_more_tag9 height
    refine ⟨more, ?_⟩
    rw [extractStep_fix (hmark.trans (List.prefix_append _ _))]
    exact extractFix_goesOn hmore
  · obtain ⟨more, hmore⟩ := lengthReader_binary.exists_more_tag9 height
    refine ⟨more, ?_⟩
    rw [extractStep_plain hname (hmark.trans (List.prefix_append _ _))]
    exact extractBinary_goesOn hmore
  · have hmore : ∃ more, fixcompFrameLength (buf ++ more) ≠ .incomplete := by
      by_cases hwait : fixcompFrameLength buf = .incomplete
      · exact exists_more_fixcomp hmark hwait
      · exact ⟨[], by rwa [List.append_nil]⟩
    obtain ⟨more, hmore⟩ := hmore
    refine ⟨more, ?_⟩
    rw [extractStep_comp (hmark.trans (List.prefix_append _ _))]
    exact extractFixcomp_goesOn hmore

lemma waitOrResync_stop {n : ℕ}
    (h : waitOrResync buf total = .stop n) : n = 0 := by
  unfold waitOrResync at h
  split at h
  · cases h
  · exact (Extract.stop.inj h).symm

lemma extractStep_stopped {n : ℕ} (h : extractStep buf = .stop n) :
    (buf.drop n).length ≤ 9 ∨ n = 0 ∧ ∃ m ∈ headers, m <+: buf := by
  have hten : fixcompMarker.length = 10 := by decide
  unfold extractStep at h
  split at h
  · next hcomp =>
      refine Or.inr ⟨?_, fixcompMarker, by decide, hcomp⟩
      unfold extractFixcomp at h
      repeat' split at h
      all_goals cases h
      all_goals rfl
  · split at h
    · refine Or.inl ?_
      rw [← Extract.stop.inj h, List.length_drop, hten]
      omega
    · split at h
      · cases h
      · split at h
        · next hplain =>
            refine Or.inr ⟨?_, ?_⟩
            · unfold extractBinary at h
              split at h
              · cases h
              · exact waitOrResync_stop h
            · rcases hplain with hmark | hmark | hmark
              · exact ⟨_, by decide, hmark⟩
              · exact ⟨_, by decide, hmark⟩
              · exact ⟨_, by decide, hmark⟩
        · split at h
          · next hfix =>
              refine Or.inr ⟨?_, _, by decide, hfix⟩
              unfold extractFix at h
              split at h
              · split at h <;> cases h
              · exact waitOrResync_stop h
          · cases h

lemma extractLoop_left (buf : Bytes) :
    (extractLoop buf).rest.length ≤ 9 ∨
      (∃ m ∈ headers, m <+: (extractLoop buf).rest) ∧
        ∃ more, (extractStep ((extractLoop buf).rest ++ more)).goesOn = true := by
  rcases extractLoop_rest_stopped buf with hnil | ⟨b, n, -, hstop, hrest⟩
  · exact Or.inl (by rw [hnil]; exact Nat.zero_le 9)
  · rw [hrest]
    rcases extractStep_stopped hstop with hshort | ⟨rfl, m, hm, hmark⟩
    · exact Or.inl hshort
    · rw [List.drop_zero]
      exact Or.inr ⟨⟨m, hm, hmark⟩, exists_more_header hm hmark⟩

lemma extractFrames_buf (c : Connection) : c.extractFrames.2.buf = (extractLoop c.buf).rest := by
  by_cases h : (extractLoop c.buf).frames = []
  · simp only [Connection.extractFrames, if_pos h]
  · simp only [Connection.extractFrames, if_neg h]

lemma extractLoop_past (hgo : (extractStep buf).goesOn = true) :
    (extractLoop buf).rest <:+ buf.tail := by
  by_cases hne : buf = []
  · rw [hne, extractLoop_nil, List.tail_nil]
  · rw [extractLoop_rest hne hgo]
    obtain ⟨k, hk⟩ := Nat.exists_eq_succ_of_ne_zero (extractStep_moves buf hgo).ne'
    rw [hk, Nat.succ_eq_add_one, Nat.add_comm, ← List.drop_drop, List.drop_one]
    exact (extractLoop_rest_suffix _).trans (List.drop_suffix _ _)

/-- **The frame walk loses nothing behind garbage and never stalls.**  Bytes that begin no header
cost no frame that follows them; the walk ends whatever the buffer holds; and what it leaves is
nine bytes at most, or begins with a header it is right to wait on: some further bytes have the
next call deliver it as a frame or resynchronise past it. -/
theorem extractFrames_never_stalls (c : Connection) :
    (∀ (garbage : Bytes) (fs : List Frame), (∀ f ∈ fs, Framed f ∧ Held f) →
      c.buf = garbage ++ fs.flatMap Frame.bytes → NoHeaderIn garbage.length c.buf →
      c.extractFrames.1 = fs) ∧
    extractRounds (c.buf.length + 1) c.buf = some (extractLoop c.buf) ∧
    (c.extractFrames.2.buf.length ≤ 9 ∨
      (∃ m ∈ headers, m <+: c.extractFrames.2.buf) ∧
        ∃ more, (extractStep (c.extractFrames.2.buf ++ more)).goesOn = true ∧
          (c.extractFrames.2.injectBuf more).extractFrames.2.buf
            <:+ (c.extractFrames.2.buf ++ more).tail) := by
  refine ⟨?_, extractRounds_eq _ _ (Nat.lt_succ_self _), ?_⟩
  · intro garbage fs hfs hbuf hno
    rw [hbuf] at hno
    rw [extractFrames_fst, hbuf]
    exact frames_behind_garbage hfs hno
  · simp only [extractFrames_buf, Connection.injectBuf]
    rcases extractLoop_left c.buf with hshort | ⟨hmark, more, hgo⟩
    · exact Or.inl hshort
    · exact Or.inr ⟨hmark, more, hgo, extractLoop_past hgo⟩

/-- A quote behind bytes that are the end of something else. -/
theorem extractFrames_never_stalls_quote :
    ({ buf := ascii "9=6\x018=8=O\x019=2\x01hi" } : Connection).extractFrames.1
      = [.binary (header (ascii "O") (ascii "2") ++ ascii "hi")] := by
  refine (extractFrames_never_stalls _).1 (ascii "9=6\x018=") _ ?_ (by decide)
    (by unfold NoHeaderIn; decide)
  intro f hf
  rw [List.mem_singleton.1 hf]
  exact ⟨Framed.plain (ascii "O") (by decide) (ascii "2") (ascii "hi") (by decide) (by decide),
    by unfold Held; decide⟩

end IbkrDx
