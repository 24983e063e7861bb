/-
# `Xen2mx.Segments.Scan` — copies that go on where the last one ended

A scan state is a segment of the vector and an offset in it, or the end of the array.  A copy from
a state in the array takes the bytes there, or puts them there, and ends in a state behind them; it
does not look at the segment after the last if there is room for the bytes.

**Proved here.**

    the search finds a state at the offset  ⟺  the vector reaches it     (`seekLoop_eq`, `seekLoop_error`)
    a copy from, to a state takes, puts the bytes at its position        (`continueCopyFrom_eq`, `continueCopyTo_eq`)
-/
import Xen2mx.Segments.Copy

namespace Xen2mx.Segments

variable {β : Type*} {lens : List ℕ} {c : Cursor} {length offset : ℕ}

/-- The cursor is in a segment, or at its end. -/
def InArray (lens : List ℕ) (c : Cursor) : Prop := ∃ n, lens[c.seg]? = some n ∧ c.offset ≤ n

/-- A saved state: the end of the array is one as well. -/
def Saved (lens : List ℕ) (c : Cursor) : Prop :=
  InArray lens c ∨ c.seg = lens.length ∧ c.offset = 0

theorem InArray.lt (h : InArray lens c) : c.seg < lens.length := by
  obtain ⟨n, hn, -⟩ := h
  exact (List.getElem?_eq_some_iff.1 hn).1

theorem Saved.inArray (h : Saved lens c) (hlt : c.seg < lens.length) : InArray lens c :=
  h.resolve_right fun hend => hlt.ne hend.1

theorem Saved.le (h : Saved lens c) : c.seg ≤ lens.length := by
  rcases h with h | h
  · exact h.lt.le
  · exact h.1.le

/-- A cursor in the array is at most at its end. -/
theorem InArray.pos_le (h : InArray lens c) : c.pos lens ≤ lens.sum := by
  obtain ⟨n, hn, hle⟩ := h
  have hsucc := start_succ_of_getElem? hn
  have hsum := start_le_sum lens (c.seg + 1)
  unfold Cursor.pos
  omega

/-- At the end of its segment, the next one or the end of the array. -/
theorem saved_next {n : ℕ} (hn : lens[c.seg]? = some n) : Saved lens ⟨c.seg + 1, 0⟩ := by
  have hlt := (List.getElem?_eq_some_iff.1 hn).1
  rcases Nat.lt_or_ge (c.seg + 1) lens.length with h | h
  · exact .inl ⟨_, List.getElem?_eq_getElem h, Nat.zero_le _⟩
  · exact .inr ⟨Nat.le_antisymm hlt h, rfl⟩

/-! ## The search -/

/-- The first segment that reaches the offset, from the segment `i` on. -/
theorem seekLoop_eq {segs : ReqSegs β} {i curoffset : ℕ} (hle : curoffset ≤ offset)
    (h : offset ≤ curoffset + totalLength segs) (hne : segs ≠ []) :
    ∃ j n, seekLoop offset segs i curoffset = .ok ⟨i + j, n⟩ ∧
      InArray (lengths segs) ⟨j, n⟩ ∧ curoffset + Cursor.pos ⟨j, n⟩ (lengths segs) = offset := by
  induction segs generalizing i curoffset with
  | nil => exact absurd rfl hne
  | cons s segs ih =>
      rw [totalLength_cons] at h
      rw [seekLoop]
      split
      · rename_i hlt
        have hne' : segs ≠ [] := by
          rintro rfl
          have hzero : totalLength ([] : ReqSegs β) = 0 := rfl
          omega
        obtain ⟨j, n, hseek, ⟨m, hm, hle'⟩, hpos⟩ :=
          @ih (i + 1) _ (Nat.le_of_lt hlt) (by omega) hne'
        refine ⟨j + 1, n, ?_, ⟨m, hm, hle'⟩, ?_⟩
        · rw [hseek, Nat.add_assoc, Nat.add_comm 1 j]
        · dsimp only [Cursor.pos] at hpos ⊢
          rw [lengths_cons, start_cons]
          omega
      · rename_i hge
        refine ⟨0, offset - curoffset, rfl, ⟨s.length, rfl, ?_⟩, ?_⟩
        · show offset - curoffset ≤ s.length
          omega
        · show curoffset + (0 + (offset - curoffset)) = offset
          omega

theorem seekLoop_error {segs : ReqSegs β} {i curoffset : ℕ}
    (h : curoffset + totalLength segs < offset) :
    seekLoop offset segs i curoffset = .error .cursor := by
  induction segs generalizing i curoffset with
  | nil => rfl
  | cons s segs ih =>
      rw [totalLength_cons] at h
      rw [seekLoop, if_pos (by omega)]
      exact ih (by omega)

/-! ## Copying on -/

/-- Within a segment, or behind the last byte of one. -/
def Behind (lens : List ℕ) (c : Cursor) : Prop :=
  (∃ n, lens[c.seg]? = some n ∧ c.offset < n) ∨ ∃ i n, c = ⟨i + 1, 0⟩ ∧ lens[i]? = some n ∧ 0 < n

/-- What a copy does to the state.  One of no bytes leaves the segment too if it is at its end. -/
structure Moved (lens : List ℕ) (c : Cursor) (length : ℕ) (c' : Cursor) : Prop where
  pos : c'.pos lens = c.pos lens + length
  saved : Saved lens c'
  behind : 0 < length → Behind lens c'
  next : length = 0 → c.pos lens = lens.sum → c' = ⟨c.seg + 1, 0⟩

/-- The bytes end before the segment does. -/
theorem Moved.within {n : ℕ} (hn : lens[c.seg]? = some n) (hlt : c.offset + length < n) :
    Moved lens c length ⟨c.seg, c.offset + length⟩ where
  pos := (Nat.add_assoc ..).symm
  saved := .inl ⟨n, hn, hlt.le⟩
  behind _ := .inl ⟨n, hn, hlt⟩
  next := by
    rintro - hsum
    have hsucc := start_succ_of_getElem? hn
    have hle := start_le_sum lens (c.seg + 1)
    have hpos : c.pos lens = start lens c.seg + c.offset := rfl
    omega

/-- They end with it. -/
theorem Moved.whole {n : ℕ} (hn : lens[c.seg]? = some n) (heq : c.offset + length = n) :
    Moved lens c length ⟨c.seg + 1, 0⟩ where
  pos := by
    show start lens (c.seg + 1) + 0 = start lens c.seg + c.offset + length
    rw [start_succ_of_getElem? hn, ← heq]
    omega
  saved := saved_next hn
  behind hpos := .inr ⟨c.seg, n, rfl, hn, by omega⟩
  next := fun _ _ => rfl

/-- They go on in the next. -/
theorem Moved.rest {c' : Cursor} {chunk : ℕ} (h : Moved lens ⟨c.seg + 1, 0⟩ (length - chunk) c')
    (hnext : Cursor.pos ⟨c.seg + 1, 0⟩ lens = c.pos lens + chunk) (hlt : chunk < length) :
    Moved lens c length c' where
  pos := by
    rw [h.pos, hnext]
    omega
  saved := h.saved
  behind := fun _ => h.behind (Nat.sub_pos_of_lt hlt)
  next := fun hzero => by omega

theorem continueCopyTo_error {dst : ReqSegs β} {src : List β} (h : dst.length ≤ c.seg) :
    continuePartialCopyToSegments dst src length c = .error .cursor := by
  rw [continuePartialCopyToSegments]
  split
  · rfl
  · rename_i hseg
    exact absurd (List.getElem?_eq_some_iff.1 hseg).1 (not_lt.2 h)

/-- What a round of `omx_continue_partial_copy_to_segments` does. -/
theorem continueCopyTo_round {dst : ReqSegs β} {src seg : List β} (hseg : dst[c.seg]? = some seg)
    (hoff : c.offset ≤ seg.length) (hsrc : length ≤ src.length) :
    continuePartialCopyToSegments dst src length c =
      if length < seg.length - c.offset then
        .ok (write dst c (src.take length), ⟨c.seg, c.offset + length⟩)
      else if length = seg.length - c.offset then
        .ok (write dst c (src.take length), ⟨c.seg + 1, 0⟩)
      else
        continuePartialCopyToSegments (write dst c (src.take (seg.length - c.offset)))
          (src.drop (seg.length - c.offset)) (length - (seg.length - c.offset)) ⟨c.seg + 1, 0⟩ := by
  rw [continuePartialCopyToSegments]
  split
  · rename_i hnone
    cases hseg.symm.trans hnone
  · rename_i seg' hseg'
    cases hseg.symm.trans hseg'
    rw [check_pos hoff]
    dsimp only
    rw [check_pos (by omega)]
    rcases Nat.lt_trichotomy length (seg.length - c.offset) with hlt | heq | hgt
    · rw [Nat.min_eq_right hlt.le, if_pos hlt.ne', if_pos hlt]
    · rw [← heq, Nat.min_self, if_neg (not_not.2 rfl), Nat.sub_self, if_pos rfl,
        if_neg (Nat.lt_irrefl _), if_pos rfl]
    · rw [Nat.min_eq_left hgt.le, if_neg (not_not.2 rfl), if_neg (by omega), if_neg (by omega),
        if_neg (by omega)]

/-- The start of the segment after the one at the state, if something is left. -/
theorem next_inArray {segs : ReqSegs β} {m : ℕ} (hm : (lengths segs)[c.seg]? = some m)
    (hoff : c.offset ≤ m) (hlt : c.pos (lengths segs) + (m - c.offset) < totalLength segs) :
    Cursor.pos ⟨c.seg + 1, 0⟩ (lengths segs) = c.pos (lengths segs) + (m - c.offset) ∧
      InArray (lengths segs) ⟨c.seg + 1, 0⟩ := by
  have hsucc := start_succ_of_getElem? hm
  have hpos : c.pos (lengths segs) = start (lengths segs) c.seg + c.offset := rfl
  have hnext : Cursor.pos ⟨c.seg + 1, 0⟩ (lengths segs) =
      c.pos (lengths segs) + (m - c.offset) := by
    show start (lengths segs) (c.seg + 1) + 0 = _
    omega
  have hend : Cursor.pos ⟨c.seg + 1, 0⟩ (lengths segs) < (lengths segs).sum := hnext ▸ hlt
  obtain ⟨k, hk⟩ := exists_seg_of_pos_lt hend
  exact ⟨hnext, k, hk, Nat.zero_le _⟩

/-- The bytes are put where the state is, and the new state is behind them. -/
theorem continueCopyTo_eq {n : ℕ} : ∀ (dst : ReqSegs β) (src : List β) (length : ℕ) (c : Cursor),
    dst.length - c.seg = n → InArray (lengths dst) c → length ≤ src.length →
    c.pos (lengths dst) + length ≤ totalLength dst →
    ∃ dst' c', continuePartialCopyToSegments dst src length c = .ok (dst', c') ∧
      Written dst (c.pos (lengths dst)) (src.take length) dst' ∧
      Moved (lengths dst) c length c' := by
  induction n with
  | zero =>
      intro dst src length c hn hin
      have hlt := hin.lt
      rw [lengths, List.length_map] at hlt
      omega
  | succ n ih =>
      rintro dst src length c hn ⟨m, hm, hoff⟩ hsrc hle
      obtain ⟨seg, hseg, rfl⟩ := getElem?_lengths hm
      have hlength : (src.take length).length = length := by rw [List.length_take]; omega
      rw [continueCopyTo_round hseg hoff hsrc]
      split
      · rename_i hlt
        exact ⟨_, _, rfl, .write hseg (by omega), .within hm (by omega)⟩
      · rename_i hge
        split
        · rename_i heq
          exact ⟨_, _, rfl, .write hseg (by omega), .whole hm (by omega)⟩
        · rename_i hne
          -- The rest of the segment, and then the segments after it.
          have htake : (src.take (seg.length - c.offset)).length = seg.length - c.offset := by
            rw [List.length_take]
            omega
          have hwritten : Written dst (c.pos (lengths dst)) (src.take (seg.length - c.offset)) _ :=
            .write hseg (by omega)
          obtain ⟨hnext, hin⟩ := next_inArray hm hoff (by omega)
          have hleft : (write dst c (src.take (seg.length - c.offset))).length - (c.seg + 1) = n := by
            rw [write, List.length_modify]
            omega
          obtain ⟨dst', c', hcopy, hrest, hmoved⟩ := ih _ (src.drop (seg.length - c.offset))
            (length - (seg.length - c.offset)) ⟨c.seg + 1, 0⟩ hleft (by rwa [hwritten.lengths])
            (by rw [List.length_drop]; omega)
            (by rw [totalLength, hwritten.lengths, hnext, ← totalLength]; omega)
          rw [hwritten.lengths] at hmoved hrest
          refine ⟨dst', c', hcopy, ?_, hmoved.rest hnext (by omega)⟩
          have hsplit : src.take length = src.take (seg.length - c.offset) ++
              (src.drop (seg.length - c.offset)).take (length - (seg.length - c.offset)) := by
            rw [← List.take_add]
            congr 1
            omega
          rw [hsplit]
          refine hwritten.trans ?_ ?_
          · rwa [htake, ← hnext]
          · rw [htake, List.length_take, List.length_drop]
            omega

/-- What a round of `omx_continue_partial_copy_from_segments` does. -/
theorem continueCopyFrom_round {src : ReqSegs β} {seg : List β} (hseg : src[c.seg]? = some seg)
    (hoff : c.offset ≤ seg.length) :
    continuePartialCopyFromSegments src length c =
      if length < seg.length - c.offset then
        .ok ((seg.drop c.offset).take length, ⟨c.seg, c.offset + length⟩)
      else if length = seg.length - c.offset then
        .ok ((seg.drop c.offset).take length, ⟨c.seg + 1, 0⟩)
      else
        (continuePartialCopyFromSegments src (length - (seg.length - c.offset)) ⟨c.seg + 1, 0⟩).bind
          fun (rest, state) =>
            .ok ((seg.drop c.offset).take (seg.length - c.offset) ++ rest, state) := by
  rw [continuePartialCopyFromSegments]
  split
  · rename_i hnone
    cases hseg.symm.trans hnone
  · rename_i seg' hseg'
    cases hseg.symm.trans hseg'
    rw [check_pos hoff]
    dsimp only
    rcases Nat.lt_trichotomy length (seg.length - c.offset) with hlt | heq | hgt
    · rw [Nat.min_eq_right hlt.le, if_pos hlt.ne', if_pos hlt]
    · rw [← heq, Nat.min_self, if_neg (not_not.2 rfl), Nat.sub_self, if_pos rfl,
        if_neg (Nat.lt_irrefl _), if_pos rfl]
    · rw [Nat.min_eq_left hgt.le, if_neg (not_not.2 rfl), if_neg (by omega), if_neg (by omega),
        if_neg (by omega)]

/-- The bytes are those where the state is, and the new state is behind them. -/
theorem continueCopyFrom_eq {src : ReqSegs β} {n : ℕ} : ∀ (length : ℕ) (c : Cursor),
    src.length - c.seg = n → InArray (lengths src) c →
    c.pos (lengths src) + length ≤ totalLength src →
    ∃ c', continuePartialCopyFromSegments src length c =
        .ok ((src.flatten.drop (c.pos (lengths src))).take length, c') ∧
      Moved (lengths src) c length c' := by
  induction n with
  | zero =>
      intro length c hn hin
      have hlt := hin.lt
      rw [lengths, List.length_map] at hlt
      omega
  | succ n ih =>
      rintro length c hn ⟨m, hm, hoff⟩ hle
      obtain ⟨seg, hseg, rfl⟩ := getElem?_lengths hm
      rw [continueCopyFrom_round hseg hoff]
      split
      · rename_i hlt
        refine ⟨⟨c.seg, c.offset + length⟩, ?_, .within hm (by omega)⟩
        rw [read_eq hseg (by omega)]
      · rename_i hge
        split
        · rename_i heq
          refine ⟨⟨c.seg + 1, 0⟩, ?_, .whole hm (by omega)⟩
          rw [read_eq hseg (by omega)]
        · rename_i hne
          obtain ⟨hnext, hin⟩ := next_inArray hm hoff (by omega)
          obtain ⟨c', hcopy, hmoved⟩ := ih (length - (seg.length - c.offset)) ⟨c.seg + 1, 0⟩
            (by show src.length - (c.seg + 1) = n; omega) hin (by omega)
          refine ⟨c', ?_, hmoved.rest hnext (by omega)⟩
          rw [hcopy, ok_bind, hnext, read_eq hseg (by omega), ← List.drop_drop]
          dsimp only
          rw [← List.take_add, Nat.add_sub_cancel' (by omega)]

end Xen2mx.Segments
