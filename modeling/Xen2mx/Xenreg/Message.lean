/-
# `Xen2mx.Xenreg.Message` — what the request describes

A description is good for something only if the grants it refers to stand:
`Carries` says that the references of a segment find the pages of its list, that
the list holds a reference for each page of the segment, and that these find the
pages.  Segments share no reference and no page of a list, so that what one of
them grants leaves the others as they are.

**Proved here.**

    granting a segment goes through  ⟺  its list has at most 16 pages, and they are
                                         found if it needs any                       (`grantSegment_iff`)
    the loop comes to its end        ⟺  all of its segments go through              (`describeSegments_iff`)
    each segment is described, and its grants stand at the end                      (`describeSegments_spec`)
    given up, or out of segments     ⟹   a description keeps what the slot held     (`describeSegments_stale`)
-/
import Xen2mx.Xenreg.Frontend

namespace Xen2mx.Xenreg

variable {φ : Type*} [DecidableEq φ] {refs : Refs} {i : ℕ} {seg : UserRegionSegment φ}
  {g g' : Guest (Page φ)} {allocated : Bool}

/-! ## The grants of one segment -/

/-- The references of segment `i` lead to its pages. -/
structure Carries (refs : Refs) (g : Guest (Page φ)) (i : ℕ) (seg : UserRegionSegment φ) : Prop where
  list : ∀ k < seg.nrParts, g.page (refs.ref i k) = some (.list i k)
  user : ∀ j < seg.nrPages, g.page (refs.ref i (seg.nrParts + j)) = some (.user (seg.page j))
  word : ∀ j < seg.nrPages,
    g.word (.list i (j / 1024)) (4 * (j % 1024)) = refs.ref i (seg.nrParts + j)

/-- What was granted for the segment `i` is as it was. -/
def Same (refs : Refs) (i : ℕ) (g g' : Guest (Page φ)) : Prop :=
  (∀ k, g'.page (refs.ref i k) = g.page (refs.ref i k)) ∧
    ∀ k off, g'.word (.list i k) off = g.word (.list i k) off

omit [DecidableEq φ] in
theorem Same.refl : Same refs i g g := ⟨fun _ => rfl, fun _ _ => rfl⟩

omit [DecidableEq φ] in
theorem Same.trans {g'' : Guest (Page φ)} (h : Same refs i g g') (h' : Same refs i g' g'') :
    Same refs i g g'' :=
  ⟨fun k => (h'.1 k).trans (h.1 k), fun k off => (h'.2 k off).trans (h.2 k off)⟩

omit [DecidableEq φ] in
theorem Carries.of_same (h : Carries refs g i seg) (hs : Same refs i g g') : Carries refs g' i seg where
  list := fun k hk => (hs.1 k).trans (h.list k hk)
  user := fun j hj => (hs.1 _).trans (h.user j hj)
  word := fun j hj => (hs.2 _ _).trans (h.word j hj)

omit [DecidableEq φ] in
theorem grant_page_self (k : ℕ) (p : Page φ) :
    (g.grant (refs.ref i k) p).page (refs.ref i k) = some p := by
  simp [Guest.grant]

omit [DecidableEq φ] in
theorem grant_page_of_ne {i' k k' : ℕ} (p : Page φ) (h : i' ≠ i ∨ k' ≠ k) :
    (g.grant (refs.ref i k) p).page (refs.ref i' k') = g.page (refs.ref i' k') := by
  have hne : refs.ref i' k' ≠ refs.ref i k := fun heq => by
    obtain ⟨hi, hk⟩ := refs.inj heq
    rcases h with h | h
    · exact h hi
    · exact h hk
  simp [Guest.grant, hne]

omit [DecidableEq φ] in
theorem same_grant {i' : ℕ} (h : i' ≠ i) (k : ℕ) (p : Page φ) :
    Same refs i' g (g.grant (refs.ref i k) p) :=
  ⟨fun _ => grant_page_of_ne p (.inl h), fun _ _ => rfl⟩

theorem same_write {i' : ℕ} (h : i' ≠ i) (k off w : ℕ) : Same refs i' g (g.write (.list i k) off w) :=
  ⟨fun _ => rfl, fun _ _ => if_neg fun hc => h (Page.list.inj hc.1).1⟩

omit [DecidableEq φ] in
theorem grantList_eq_ok :
    grantList refs i seg g = .ok g' ↔ seg.nrParts ≤ omxXenGrantPagesMax ∧
      g' = steps (fun k g => g.grant (refs.ref i k) (.list i k)) seg.nrParts 0 g := by
  rw [grantList, loop_check_eq_ok]
  refine and_congr_left' ⟨fun h => ?_, fun h j _ hj => by omega⟩
  by_contra hlt
  exact absurd (h omxXenGrantPagesMax (Nat.zero_le _) (by omega)) (lt_irrefl _)

theorem grantPages_eq_ok :
    grantPages refs i seg allocated g = .ok g' ↔ seg.nrPages ≤ listRoom allocated seg.nrParts ∧
      g' = steps (fun j g =>
        (g.write (.list i (j / 1024)) (4 * (j % 1024)) (refs.ref i (seg.nrParts + j))).grant
          (refs.ref i (seg.nrParts + j)) (.user (seg.page j))) seg.nrPages 0 g := by
  rw [grantPages, loop_check_eq_ok]
  refine and_congr_left' ⟨fun h => ?_, fun h j _ hj => by omega⟩
  by_contra hlt
  exact absurd (h (listRoom allocated seg.nrParts) (Nat.zero_le _) (by omega)) (lt_irrefl _)

/-- The first `n` pages of the list are granted, and nothing of the other segments changed. -/
def ListGranted (refs : Refs) (i : ℕ) (g : Guest (Page φ)) (n : ℕ) (g' : Guest (Page φ)) : Prop :=
  (∀ k < n, g'.page (refs.ref i k) = some (.list i k)) ∧ ∀ i' ≠ i, Same refs i' g g'

omit [DecidableEq φ] in
theorem grantList_spec (h : grantList refs i seg g = .ok g') :
    ListGranted refs i g seg.nrParts g' := by
  obtain ⟨-, rfl⟩ := grantList_eq_ok.1 h
  have hstep : ∀ k g₁, 0 ≤ k → k < 0 + seg.nrParts → ListGranted refs i g k g₁ →
      ListGranted refs i g (k + 1) (g₁.grant (refs.ref i k) (.list i k)) := by
    rintro k g₁ - - ⟨hlist, hsame⟩
    refine ⟨fun k' hk' => ?_, fun i' hi' => (hsame i' hi').trans (same_grant hi' k _)⟩
    rcases Nat.lt_succ_iff_lt_or_eq.1 hk' with hlt | rfl
    · rw [grant_page_of_ne _ (.inr (by omega))]
      exact hlist k' hlt
    · exact grant_page_self k' _
  have hall := steps_induction hstep ⟨nofun, fun _ _ => .refl⟩
  rwa [Nat.zero_add] at hall

/-- The first `n` pages of the segment are granted and in the list. -/
structure PagesGranted (refs : Refs) (i : ℕ) (seg : UserRegionSegment φ) (g : Guest (Page φ))
    (n : ℕ) (g' : Guest (Page φ)) : Prop where
  list : ∀ k < seg.nrParts, g'.page (refs.ref i k) = some (.list i k)
  user : ∀ j < n, g'.page (refs.ref i (seg.nrParts + j)) = some (.user (seg.page j))
  word : ∀ j < n, g'.word (.list i (j / 1024)) (4 * (j % 1024)) = refs.ref i (seg.nrParts + j)
  same : ∀ i' ≠ i, Same refs i' g g'

theorem PagesGranted.step {n : ℕ} (h : PagesGranted refs i seg g n g') :
    PagesGranted refs i seg g (n + 1)
      ((g'.write (.list i (n / 1024)) (4 * (n % 1024)) (refs.ref i (seg.nrParts + n))).grant
        (refs.ref i (seg.nrParts + n)) (.user (seg.page n))) where
  list := by
    intro k hk
    rw [grant_page_of_ne _ (.inr (by omega))]
    exact h.list k hk
  user := by
    intro j hj
    rcases Nat.lt_succ_iff_lt_or_eq.1 hj with hlt | rfl
    · rw [grant_page_of_ne _ (.inr (by omega))]
      exact h.user j hlt
    · exact grant_page_self _ _
  word := by
    intro j hj
    show (if _ ∧ _ then _ else _) = _
    rcases Nat.lt_succ_iff_lt_or_eq.1 hj with hlt | rfl
    · have hne : ¬ (Page.list (φ := φ) i (j / 1024) = .list i (n / 1024) ∧
          4 * (j % 1024) = 4 * (n % 1024)) := fun hc => by
        have hpage := (Page.list.inj hc.1).2
        have hoff := hc.2
        omega
      rw [if_neg hne]
      exact h.word j hlt
    · exact if_pos ⟨rfl, rfl⟩
  same := fun i' hi' => (h.same i' hi').trans ((same_write hi' _ _ _).trans (same_grant hi' _ _))

theorem grantPages_spec (h : grantPages refs i seg allocated g = .ok g')
    (hlist : ∀ k < seg.nrParts, g.page (refs.ref i k) = some (.list i k)) :
    PagesGranted refs i seg g seg.nrPages g' := by
  obtain ⟨-, rfl⟩ := grantPages_eq_ok.1 h
  have hall := steps_induction (n := seg.nrPages) (i := 0) (I := PagesGranted refs i seg g)
    (fun _ _ _ _ hn => hn.step) ⟨hlist, nofun, nofun, fun _ _ => .refl⟩
  rwa [Nat.zero_add] at hall

/-- Granting a segment leaves its references leading to its pages, and the others alone. -/
theorem grantSegment_spec {g₁ : Guest (Page φ)} (h : grantList refs i seg g = .ok g₁)
    (h' : grantPages refs i seg allocated g₁ = .ok g') :
    Carries refs g' i seg ∧ ∀ i' ≠ i, Same refs i' g g' := by
  obtain ⟨hlist, hsame⟩ := grantList_spec h
  have hpages := grantPages_spec h' hlist
  exact ⟨⟨hpages.list, hpages.user, hpages.word⟩,
    fun i' hi' => (hsame i' hi').trans (hpages.same i' hi')⟩

/-! ## The sizes -/

/-- The list of a segment goes through the arrays of 16, and has its pages. -/
def UserRegionSegment.Fits (seg : UserRegionSegment φ) (allocated : Bool) : Prop :=
  seg.nrPages ≤ 16 * 1024 ∧ (seg.nrPages ≠ 0 → allocated = true)

omit [DecidableEq φ] in
theorem nrPages_le (h : seg.nrPages ≤ 16 * 1024) :
    seg.nrParts ≤ omxXenGrantPagesMax ∧ seg.nrPages ≤ 1024 * seg.nrParts := by
  unfold UserRegionSegment.nrParts UserRegionSegment.parts omxXenGrantPagesMax pageSize
  omega

omit [DecidableEq φ] in
/-- The count of parts is eight bits wide, and the room for the list follows it. -/
theorem fits_iff :
    seg.nrParts ≤ omxXenGrantPagesMax ∧ seg.nrPages ≤ listRoom allocated seg.nrParts ↔
      seg.Fits allocated := by
  constructor
  · rintro ⟨hparts, hroom⟩
    unfold listRoom at hroom
    split at hroom
    · rename_i hc
      have hpow : 2 ^ Nat.clog 2 seg.nrParts ≤ 2 ^ 4 :=
        Nat.pow_le_pow_right (by omega) (Nat.clog_le_of_le_pow hparts)
      exact ⟨by omega, fun _ => hc.1⟩
    · exact ⟨by omega, fun h0 => absurd (Nat.le_zero.1 hroom) h0⟩
  · rintro ⟨hpages, halloc⟩
    obtain ⟨hparts, hle⟩ := nrPages_le hpages
    refine ⟨hparts, ?_⟩
    unfold listRoom
    by_cases h0 : seg.nrPages = 0
    · omega
    · have hpow := Nat.le_pow_clog (Nat.one_lt_two) seg.nrParts
      rw [if_pos ⟨halloc h0, by omega⟩]
      exact hle.trans (Nat.mul_le_mul_left 1024 hpow)

theorem grantSegment_iff :
    (∃ g₁, grantList refs i seg g = .ok g₁ ∧ ∃ g', grantPages refs i seg allocated g₁ = .ok g') ↔
      seg.Fits allocated := by
  simp only [grantList_eq_ok, grantPages_eq_ok, ← fits_iff]
  constructor
  · rintro ⟨_, ⟨hparts, rfl⟩, _, hroom, -⟩
    exact ⟨hparts, hroom⟩
  · rintro ⟨hparts, hroom⟩
    exact ⟨_, ⟨hparts, rfl⟩, _, hroom, rfl⟩

/-! ## The segments of the command -/

section
variable {out : CreateOutcome} {pageAt : ℕ → φ} {id eid n : ℕ} {rest : List (UserRegionSegment φ)}
  {segs segs' : ℕ → RegisterSegment} {poked : Bool}

/-- One iteration: it is given up, finds an empty segment, or describes one. -/
theorem describeSegments_succ_eq_ok {r : Bool × Message φ} :
    describeSegments refs out pageAt id eid (n + 1) i rest (g, segs) = .ok r ↔
      out.cookie i = false ∧ r = (false, g, segs) ∨
      out.cookie i = true ∧ ∃ g₁, grantList refs i (rest.headD (.zero pageAt)) g = .ok g₁ ∧
        ((rest.headD (.zero pageAt)).length = 0 ∧
            describeSegments refs out pageAt id eid n (i + 1) rest (g₁, segs) = .ok r ∨
          (rest.headD (.zero pageAt)).length ≠ 0 ∧ ∃ g₂,
            grantPages refs i (rest.headD (.zero pageAt)) (out.listPages i) g₁ = .ok g₂ ∧ i < 2 ∧
            describeSegments refs out pageAt id eid n (i + 1) rest.tail (g₂, Function.update segs i
              (describe refs i (rest.headD (.zero pageAt)) id eid (segs i))) = .ok r) := by
  rw [describeSegments]
  cases out.cookie i with
  | false => simp [eq_comm]
  | true =>
      simp only [if_true, bind_eq_ok, true_and, Bool.true_eq_false, false_and, false_or]
      refine exists_congr fun g₁ => and_congr_right fun _ => ?_
      by_cases h0 : (rest.headD (.zero pageAt)).length = 0
      · simp only [h0, if_true, true_and, ne_eq, not_true, false_and, or_false]
      · simp only [h0, if_false, false_and, false_or, ne_eq, not_false_eq_true, true_and,
          bind_eq_ok, check_eq_ok]

/-- The iterations leave the earlier segments alone. -/
theorem describeSegments_frame
    (h : describeSegments refs out pageAt id eid n i rest (g, segs) = .ok (poked, g', segs')) :
    ∀ i' < i, Same refs i' g g' ∧ segs' i' = segs i' := by
  induction n generalizing i rest g segs with
  | zero =>
      cases h
      exact fun _ _ => ⟨.refl, rfl⟩
  | succ n ih =>
      intro i' hi'
      rcases describeSegments_succ_eq_ok.1 h with ⟨-, hr⟩ | ⟨-, g₁, hlist, hr⟩
      · cases hr
        exact ⟨.refl, rfl⟩
      · have hsame := (grantList_spec hlist).2 i' hi'.ne
        rcases hr with ⟨-, hrest⟩ | ⟨-, g₂, hpages, -, hrest⟩
        · obtain ⟨hs, hsegs⟩ := ih hrest i' (by omega)
          exact ⟨hsame.trans hs, hsegs⟩
        · obtain ⟨hs, hsegs⟩ := ih hrest i' (by omega)
          refine ⟨((grantSegment_spec hlist hpages).2 i' hi'.ne).trans hs, hsegs.trans ?_⟩
          exact Function.update_of_ne hi'.ne _ _

/-- A loop that is given up, or runs out of segments, leaves a description as it was. -/
theorem describeSegments_stale
    (h : describeSegments refs out pageAt id eid n i rest (g, segs) = .ok (poked, g', segs'))
    (hless : poked = false ∨ rest.length < n) : ∃ j, i ≤ j ∧ j < i + n ∧ segs' j = segs j := by
  induction n generalizing i rest g segs with
  | zero =>
      cases h
      rcases hless with h | h
      · cases h
      · exact absurd h (Nat.not_lt_zero _)
  | succ n ih =>
      rcases describeSegments_succ_eq_ok.1 h with ⟨-, hr⟩ | ⟨-, g₁, -, hr⟩
      · cases hr
        exact ⟨i, le_rfl, by omega, rfl⟩
      · rcases hr with ⟨-, hrest⟩ | ⟨hne, g₂, -, -, hrest⟩
        · exact ⟨i, le_rfl, by omega, (describeSegments_frame hrest i (by omega)).2⟩
        · have hlen : rest.length = rest.tail.length + 1 := by
            cases rest with
            | nil => exact absurd rfl hne
            | cons _ _ => rfl
          obtain ⟨j, hj, hj', hsegs⟩ := ih hrest (hless.imp_right fun h => by omega)
          exact ⟨j, by omega, by omega, hsegs.trans (Function.update_of_ne (by omega) _ _)⟩

/-- With as many segments as iterations, none of them empty, the loop comes to its end
exactly when every segment gets its references, fits, and has a place in the request. -/
theorem describeSegments_iff (hlen : rest.length = n) (hne : ∀ seg ∈ rest, seg.length ≠ 0) :
    (∃ msg, describeSegments refs out pageAt id eid n i rest (g, segs) = .ok (true, msg)) ↔
      ∀ j seg, rest[j]? = some seg →
        out.cookie (i + j) = true ∧ seg.Fits (out.listPages (i + j)) ∧ i + j < 2 := by
  induction n generalizing i rest g segs with
  | zero =>
      obtain rfl := List.length_eq_zero_iff.1 hlen
      exact iff_of_true ⟨_, rfl⟩ nofun
  | succ n ih =>
      obtain ⟨seg, rest, rfl⟩ := List.exists_cons_of_length_eq_add_one hlen
      have hlen' : rest.length = n := by simpa using hlen
      have hne' : ∀ seg ∈ rest, seg.length ≠ 0 := fun seg hs => hne seg (List.mem_cons_of_mem _ hs)
      have hseg := hne seg (List.mem_cons_self ..)
      constructor
      · rintro ⟨msg, h⟩
        rcases describeSegments_succ_eq_ok.1 h with ⟨-, hr⟩ | ⟨hcookie, g₁, hlist, hr⟩
        · cases hr
        · rcases hr with ⟨h0, -⟩ | ⟨-, g₂, hpages, hi, hrest⟩
          · exact absurd h0 hseg
          · have hall := (ih hlen' hne').1 ⟨msg, hrest⟩
            rintro (_ | j) seg' hj
            · cases hj
              exact ⟨hcookie, grantSegment_iff.1 ⟨g₁, hlist, g₂, hpages⟩, hi⟩
            · have hj := hall j seg' hj
              rwa [Nat.add_right_comm] at hj
      · intro hall
        obtain ⟨hcookie, hfits, hi⟩ := hall 0 seg rfl
        obtain ⟨g₁, hlist, g₂, hpages⟩ := grantSegment_iff.2 hfits
        obtain ⟨msg, hrest⟩ : ∃ msg, describeSegments refs out pageAt id eid n (i + 1) rest
            (g₂, Function.update segs i (describe refs i seg id eid (segs i))) = .ok (true, msg) :=
          (ih hlen' hne').2 fun j seg' hj => by
            have hj := hall (j + 1) seg' hj
            rwa [← Nat.add_assoc, Nat.add_right_comm] at hj
        exact ⟨msg, describeSegments_succ_eq_ok.2
          (.inr ⟨hcookie, g₁, hlist, .inr ⟨hseg, g₂, hpages, hi, hrest⟩⟩)⟩

/-- A loop that comes to its end has described its segments, and their grants stand. -/
theorem describeSegments_spec
    (h : describeSegments refs out pageAt id eid n i rest (g, segs) = .ok (true, g', segs'))
    (hlen : rest.length = n) (hne : ∀ seg ∈ rest, seg.length ≠ 0) {j : ℕ}
    {seg : UserRegionSegment φ} (hj : rest[j]? = some seg) :
    segs' (i + j) = describe refs (i + j) seg id eid (segs (i + j)) ∧ Carries refs g' (i + j) seg := by
  induction n generalizing i rest g segs j with
  | zero =>
      obtain rfl := List.length_eq_zero_iff.1 hlen
      cases hj
  | succ n ih =>
      obtain ⟨head, rest, rfl⟩ := List.exists_cons_of_length_eq_add_one hlen
      rcases describeSegments_succ_eq_ok.1 h with ⟨-, hr⟩ | ⟨-, g₁, hlist, hr⟩
      · cases hr
      · rcases hr with ⟨h0, -⟩ | ⟨-, g₂, hpages, -, hrest⟩
        · exact absurd h0 (hne head (List.mem_cons_self ..))
        · cases j with
          | zero =>
              cases hj
              obtain ⟨hsame, hsegs⟩ := describeSegments_frame hrest i (Nat.lt_succ_self i)
              exact ⟨hsegs.trans (Function.update_self ..),
                (grantSegment_spec hlist hpages).1.of_same hsame⟩
          | succ j =>
              have hrest' := ih hrest (by simpa using hlen)
                (fun seg hs => hne seg (List.mem_cons_of_mem _ hs)) hj
              rw [Function.update_of_ne (by omega)] at hrest'
              rwa [Nat.add_right_comm, Nat.add_assoc] at hrest'

end

end Xen2mx.Xenreg
