/-
# `Xen2mx.Segments.Chunks` — copies that share a scan state

A vector is read, or written, by one copy after the other, each of a chunk, and all of them with
the same scan state.  The state starts at the first segment.

A copy looks at the segment at the state before it looks at its length.  The copy that takes the
last byte leaves the state behind the segment of this byte; each copy of no bytes after it leaves
one of the empty segments that follow, and looks past the array when there are no more.

    segments     | 5 | 0 | 3 | 0 |
    chunks       | 4 | 4 | 0 | 0 |     the last one starts at the end of the array

**Proved here.**

    a copy that finds a segment goes on as it would from where it ends         (`fits_cons`)
    each copy reads, writes the next slice, and leaves the state behind it
        ⟺  after the last byte there are not more copies than segments         (`copyChunks_iff`)
    one copy more                                                              (`copyChunks_past`)
-/
import Mathlib.Algebra.Order.BigOperators.Group.List
import Mathlib.Algebra.Order.Group.Nat
import Mathlib.Data.List.DropRight
import Mathlib.Data.List.SplitLengths
import Xen2mx.Segments.Scan

namespace Xen2mx.Segments

variable {β : Type*}

/-- Calls of `omx_continue_partial_copy_from_segments`, one after the other: what each of them puts
in its buffer, and the state that it leaves. -/
def copyChunksFrom (src : ReqSegs β) :
    (chunks : List ℕ) → Cursor → Except Fault (List (List β × Cursor))
  | [], _ => .ok []
  | length :: chunks, state =>
      (continuePartialCopyFromSegments src length state).bind fun call =>
        (copyChunksFrom src chunks call.2).bind fun calls => .ok (call :: calls)

/-- Calls of `omx_continue_partial_copy_to_segments`: the segments, and the state that each of them
leaves. -/
def copyChunksTo :
    (bufs : List (List β)) → ReqSegs β → Cursor → Except Fault (List (ReqSegs β × Cursor))
  | [], _, _ => .ok []
  | buf :: bufs, dst, state =>
      (continuePartialCopyToSegments dst buf buf.length state).bind fun call =>
        (copyChunksTo bufs call.1 call.2).bind fun calls => .ok (call :: calls)

/-- The state is at a position: in the array, or at its end. -/
def Denotes (lens : List ℕ) (c : Cursor) (p : ℕ) : Prop := c.pos lens = p ∧ Saved lens c

/-- The calls read the successive slices, and each leaves the state behind its own. -/
def ReadsSlices (src : ReqSegs β) (chunks : List ℕ) : Prop :=
  ∃ calls, copyChunksFrom src chunks ⟨0, 0⟩ = .ok calls ∧
    calls.map Prod.fst = chunks.splitLengths src.flatten ∧
    ∀ k call, calls[k]? = some call → Denotes (lengths src) call.2 (chunks.take (k + 1)).sum

/-- The calls write the successive slices, and each leaves the state behind its own. -/
def WritesSlices (dst : ReqSegs β) (bufs : List (List β)) : Prop :=
  ∃ calls, copyChunksTo bufs dst ⟨0, 0⟩ = .ok calls ∧ calls.length = bufs.length ∧
    ∀ k call, calls[k]? = some call → Written dst 0 (bufs.take (k + 1)).flatten call.1 ∧
      Denotes (lengths dst) call.2 (lengths (bufs.take (k + 1))).sum

/-! ## Zeros at the end -/

/-- How many zeros a list ends with. -/
def trailing (l : List ℕ) : ℕ := (l.rtakeWhile (· = 0)).length

theorem trailing_of_sum_eq_zero {l : List ℕ} (h : l.sum = 0) : trailing l = l.length := by
  rw [trailing, List.rtakeWhile_eq_self_iff.2 fun n hn => decide_eq_true (List.sum_eq_zero_iff.1 h n hn)]

/-- What comes before something that is not zero does not count. -/
theorem trailing_cons {n : ℕ} {l : List ℕ} (h : n ≠ 0 ∨ l.sum ≠ 0) :
    trailing (n :: l) = trailing l := by
  rw [trailing, trailing, List.rtakeWhile, List.rtakeWhile, List.reverse_cons, List.takeWhile_append]
  split
  · rename_i hall
    have hzero : l.sum = 0 := by
      refine List.sum_eq_zero_iff.2 fun m hm => ?_
      have htake := (List.takeWhile_prefix (p := (· = 0)) (l := l.reverse)).eq_of_length hall
      exact of_decide_eq_true (List.takeWhile_eq_self_iff.1 htake m (List.mem_reverse.2 hm))
    have hn : n ≠ 0 := h.resolve_right (not_not.2 hzero)
    have hnil : [n].takeWhile (· = 0) = [] := List.takeWhile_cons_of_neg (by simpa using hn)
    rw [hnil, List.append_nil, List.reverse_reverse, List.length_reverse, hall, List.length_reverse]
  · rfl

theorem trailing_append {l : List ℕ} (h : l.sum ≠ 0) (before : List ℕ) :
    trailing (before ++ l) = trailing l := by
  induction before with
  | nil => rfl
  | cons n before ih =>
      rw [List.cons_append, trailing_cons, ih]
      refine .inr ?_
      rw [List.sum_append]
      omega

variable {lens : List ℕ} {c c' : Cursor} {n : ℕ} {chunks : List ℕ}

/-- Behind the last byte, what is left are the empty segments at the end. -/
theorem Behind.trailing (h : Behind lens c) (hend : c.pos lens = lens.sum) :
    trailing lens = lens.length - c.seg := by
  rcases h with ⟨n, hn, hlt⟩ | ⟨i, n, rfl, hn, hpos⟩
  · have hsucc := start_succ_of_getElem? hn
    have hle := start_le_sum lens (c.seg + 1)
    have hstart : c.pos lens = start lens c.seg + c.offset := rfl
    omega
  · obtain ⟨hi, rfl⟩ := List.getElem?_eq_some_iff.1 hn
    have hsplit : lens = lens.take i ++ lens[i] :: lens.drop (i + 1) := by
      rw [← List.drop_eq_getElem_cons hi, List.take_append_drop]
    have hzero : (lens.drop (i + 1)).sum = 0 := by
      have hsum := congrArg List.sum (List.take_append_drop (i + 1) lens)
      rw [List.sum_append] at hsum
      have hstart : (lens.take (i + 1)).sum + 0 = lens.sum := hend
      omega
    have hcons : (lens[i] :: lens.drop (i + 1)).sum ≠ 0 := by
      rw [List.sum_cons]
      omega
    calc trailing lens = trailing (lens[i] :: lens.drop (i + 1)) := by
          conv_lhs => rw [hsplit]
          exact trailing_append hcons _
      _ = (lens.drop (i + 1)).length := by
          rw [trailing_cons (.inl hpos.ne'), trailing_of_sum_eq_zero hzero]
      _ = lens.length - (i + 1) := List.length_drop

/-! ## Chunks that fit -/

/-- After the last byte there are not more copies than segments. -/
def NotPastEnd (lens chunks : List ℕ) : Prop :=
  chunks.sum = lens.sum → trailing chunks ≤ trailing lens

instance (lens chunks : List ℕ) : Decidable (NotPastEnd lens chunks) :=
  inferInstanceAs (Decidable (_ → _))

/-- The same from a state on. -/
def Fits (lens : List ℕ) (c : Cursor) (chunks : List ℕ) : Prop :=
  if c.pos lens = lens.sum then chunks.length ≤ lens.length - c.seg
  else c.pos lens + chunks.sum = lens.sum → trailing chunks ≤ trailing lens

theorem fits_nil (lens : List ℕ) (c : Cursor) : Fits lens c [] := by
  unfold Fits
  split
  · exact Nat.zero_le _
  · exact fun _ => Nat.zero_le _

theorem fits_start (h : chunks.sum ≤ lens.sum) :
    Fits lens ⟨0, 0⟩ chunks ↔ NotPastEnd lens chunks := by
  have hpos : Cursor.pos ⟨0, 0⟩ lens = 0 := rfl
  unfold Fits NotPastEnd
  rw [hpos]
  split
  · rename_i hzero
    rw [trailing_of_sum_eq_zero hzero.symm, trailing_of_sum_eq_zero (by omega)]
    exact (imp_iff_right (by omega)).symm
  · rw [Nat.zero_add]

/-- The copy looks at a segment. -/
theorem Fits.inArray (h : Fits lens c (n :: chunks)) (hsaved : Saved lens c)
    (hle : c.pos lens ≤ lens.sum) : InArray lens c := by
  refine hsaved.inArray ?_
  by_cases hend : c.pos lens = lens.sum
  · rw [Fits, if_pos hend, List.length_cons] at h
    omega
  · obtain ⟨m, hm⟩ := exists_seg_of_pos_lt (lt_of_le_of_ne hle hend)
    exact (List.getElem?_eq_some_iff.1 hm).1

/-- A copy that looks at a segment goes on as it would from where it ends. -/
theorem fits_cons (hin : InArray lens c) (hmoved : Moved lens c n c')
    (hle : c.pos lens + (n + chunks.sum) ≤ lens.sum) :
    Fits lens c (n :: chunks) ↔ Fits lens c' chunks := by
  have hpos := hmoved.pos
  unfold Fits
  rw [List.sum_cons, List.length_cons]
  by_cases hend : c.pos lens = lens.sum
  · have hlt := hin.lt
    obtain rfl : c' = ⟨c.seg + 1, 0⟩ := hmoved.next (by omega) hend
    rw [if_pos hend, if_pos (by omega)]
    show chunks.length + 1 ≤ lens.length - c.seg ↔ chunks.length ≤ lens.length - (c.seg + 1)
    omega
  · rw [if_neg hend]
    by_cases hend' : c'.pos lens = lens.sum
    · -- the last byte
      have hn : 0 < n := by omega
      rw [if_pos hend', (hmoved.behind hn).trailing hend', trailing_cons (.inl hn.ne'),
        trailing_of_sum_eq_zero (by omega)]
      exact imp_iff_right (by omega)
    · rw [if_neg hend', hpos, Nat.add_assoc]
      refine imp_congr_right fun hsum => ?_
      rw [trailing_cons (.inr (by omega))]

/-! ## Runs of copies -/

theorem continueCopyFrom_error {src : ReqSegs β} (h : src.length ≤ c.seg) :
    continuePartialCopyFromSegments src n c = .error .cursor := by
  rw [continuePartialCopyFromSegments]
  split
  · rfl
  · rename_i hseg
    exact absurd (List.getElem?_eq_some_iff.1 hseg).1 (not_lt.2 h)

/-- A state that is not in the array is at its end. -/
theorem Saved.end {segs : ReqSegs β} (h : Saved (lengths segs) c)
    (hout : ¬ InArray (lengths segs) c) : segs.length ≤ c.seg := by
  rw [← List.length_map (f := List.length)]
  exact (h.resolve_left hout).1.ge

theorem copyChunksFrom_eq {src : ReqSegs β} (hsaved : Saved (lengths src) c)
    (hle : c.pos (lengths src) + chunks.sum ≤ totalLength src) (hfits : Fits (lengths src) c chunks) :
    ∃ calls, copyChunksFrom src chunks c = .ok calls ∧
      calls.map Prod.fst = chunks.splitLengths (src.flatten.drop (c.pos (lengths src))) ∧
      ∀ k call, calls[k]? = some call →
        Denotes (lengths src) call.2 (c.pos (lengths src) + (chunks.take (k + 1)).sum) := by
  induction chunks generalizing c with
  | nil => exact ⟨[], rfl, rfl, nofun⟩
  | cons n chunks ih =>
      rw [List.sum_cons] at hle
      have hin := hfits.inArray hsaved ((Nat.le_add_right _ _).trans hle)
      obtain ⟨c', hcopy, hmoved⟩ := continueCopyFrom_eq n c rfl hin (by omega)
      have hpos := hmoved.pos
      obtain ⟨calls, hcalls, hslices, hstates⟩ := ih hmoved.saved (by omega)
        ((fits_cons hin hmoved hle).1 hfits)
      refine ⟨((src.flatten.drop (c.pos (lengths src))).take n, c') :: calls, ?_, ?_, ?_⟩
      · rw [copyChunksFrom, hcopy, ok_bind, hcalls, ok_bind]
      · rw [List.map_cons, hslices, List.splitLengths_cons, List.drop_drop, hpos]
      · rintro (_ | k) call hcall
        · cases hcall
          refine ⟨?_, hmoved.saved⟩
          rw [hpos, List.take_succ_cons, List.take_zero, List.sum_singleton]
        · have hstate := hstates k call hcall
          rwa [hpos, Nat.add_assoc, ← List.sum_cons, ← List.take_succ_cons] at hstate

theorem copyChunksFrom_error {src : ReqSegs β} (hsaved : Saved (lengths src) c)
    (hle : c.pos (lengths src) + chunks.sum ≤ totalLength src)
    (hfits : ¬ Fits (lengths src) c chunks) : copyChunksFrom src chunks c = .error .cursor := by
  induction chunks generalizing c with
  | nil => exact absurd (fits_nil _ _) hfits
  | cons n chunks ih =>
      rw [List.sum_cons] at hle
      by_cases hin : InArray (lengths src) c
      · obtain ⟨c', hcopy, hmoved⟩ := continueCopyFrom_eq n c rfl hin (by omega)
        have hpos := hmoved.pos
        rw [copyChunksFrom, hcopy, ok_bind, ih hmoved.saved (by omega)
          fun h => hfits ((fits_cons hin hmoved hle).2 h), error_bind]
      · rw [copyChunksFrom, continueCopyFrom_error (hsaved.end hin), error_bind]

theorem copyChunksTo_eq {bufs : List (List β)} {dst : ReqSegs β} (hsaved : Saved (lengths dst) c)
    (hle : c.pos (lengths dst) + (lengths bufs).sum ≤ totalLength dst)
    (hfits : Fits (lengths dst) c (lengths bufs)) :
    ∃ calls, copyChunksTo bufs dst c = .ok calls ∧ calls.length = bufs.length ∧
      ∀ k call, calls[k]? = some call →
        Written dst (c.pos (lengths dst)) (bufs.take (k + 1)).flatten call.1 ∧
        Denotes (lengths dst) call.2 (c.pos (lengths dst) + (lengths (bufs.take (k + 1))).sum) := by
  induction bufs generalizing dst c with
  | nil => exact ⟨[], rfl, rfl, nofun⟩
  | cons buf bufs ih =>
      rw [lengths_cons] at hle hfits
      rw [List.sum_cons] at hle
      have hin := hfits.inArray hsaved ((Nat.le_add_right _ _).trans hle)
      obtain ⟨dst', c', hcopy, hwritten, hmoved⟩ :=
        continueCopyTo_eq dst buf buf.length c rfl hin le_rfl (by omega)
      rw [List.take_length] at hwritten
      have hlens := hwritten.lengths
      have htotal : totalLength dst' = totalLength dst := congrArg List.sum hlens
      have hpos := hmoved.pos
      have hfits' := (fits_cons hin hmoved hle).1 hfits
      rw [← hlens] at hfits'
      obtain ⟨calls, hcalls, hlength, hstates⟩ := @ih c' dst' (hlens ▸ hmoved.saved)
        (by rw [hlens, htotal]; omega) hfits'
      refine ⟨(dst', c') :: calls, ?_, congrArg Nat.succ hlength, ?_⟩
      · rw [copyChunksTo, hcopy, ok_bind, hcalls, ok_bind]
      · rintro (_ | k) call hcall
        · cases hcall
          rw [List.take_succ_cons, List.take_zero, List.flatten_singleton]
          exact ⟨hwritten, hpos, hmoved.saved⟩
        · obtain ⟨hrest, hstate⟩ := hstates k call hcall
          rw [hlens, hpos] at hrest hstate
          rw [List.take_succ_cons, List.flatten_cons, lengths_cons, List.sum_cons, ← Nat.add_assoc]
          refine ⟨hwritten.trans hrest ?_, hstate⟩
          have htake : (lengths (bufs.take (k + 1))).sum ≤ (lengths bufs).sum := by
            have hstart := start_le_sum (lengths bufs) (k + 1)
            rwa [start, ← List.map_take] at hstart
          rw [← sum_lengths]
          omega

theorem copyChunksTo_error {bufs : List (List β)} {dst : ReqSegs β} (hsaved : Saved (lengths dst) c)
    (hle : c.pos (lengths dst) + (lengths bufs).sum ≤ totalLength dst)
    (hfits : ¬ Fits (lengths dst) c (lengths bufs)) :
    copyChunksTo bufs dst c = .error .cursor := by
  induction bufs generalizing dst c with
  | nil => exact absurd (fits_nil _ _) hfits
  | cons buf bufs ih =>
      rw [lengths_cons] at hle hfits
      rw [List.sum_cons] at hle
      by_cases hin : InArray (lengths dst) c
      · obtain ⟨dst', c', hcopy, hwritten, hmoved⟩ :=
          continueCopyTo_eq dst buf buf.length c rfl hin le_rfl (by omega)
        have hlens := hwritten.lengths
        have htotal : totalLength dst' = totalLength dst := congrArg List.sum hlens
        have hpos := hmoved.pos
        rw [copyChunksTo, hcopy, ok_bind, @ih c' dst' (hlens ▸ hmoved.saved)
          (by rw [hlens, htotal]; omega)
          (fun h => hfits ((fits_cons hin hmoved hle).2 (hlens ▸ h))), error_bind]
      · rw [copyChunksTo, continueCopyTo_error (hsaved.end hin), error_bind]

theorem saved_start (lens : List ℕ) : Saved lens ⟨0, 0⟩ := by
  cases lens with
  | nil => exact .inr ⟨rfl, rfl⟩
  | cons n lens => exact .inl ⟨n, rfl, Nat.zero_le _⟩

/-- Copies of chunks that the vector has room for read, and write, its successive slices, each
behind the one before, exactly when after the last byte there are not more of them than segments. -/
theorem copyChunks_iff (segs : ReqSegs β) (chunks : List ℕ) (h : chunks.sum ≤ totalLength segs) :
    (ReadsSlices segs chunks ↔ NotPastEnd (lengths segs) chunks) ∧
      ∀ bufs : List (List β), lengths bufs = chunks →
        (WritesSlices segs bufs ↔ NotPastEnd (lengths segs) chunks) := by
  have hsaved := saved_start (lengths segs)
  have hzero : Cursor.pos ⟨0, 0⟩ (lengths segs) = 0 := rfl
  have hle : Cursor.pos ⟨0, 0⟩ (lengths segs) + chunks.sum ≤ totalLength segs := by
    rwa [hzero, Nat.zero_add]
  rw [← fits_start h]
  constructor
  · constructor
    · rintro ⟨calls, hcalls, -⟩
      by_contra hfits
      cases hcalls.symm.trans (copyChunksFrom_error hsaved hle hfits)
    · intro hfits
      obtain ⟨calls, hcalls, hslices, hstates⟩ := copyChunksFrom_eq hsaved hle hfits
      rw [hzero, List.drop_zero] at hslices
      simp only [hzero, Nat.zero_add] at hstates
      exact ⟨calls, hcalls, hslices, hstates⟩
  · rintro bufs rfl
    constructor
    · rintro ⟨calls, hcalls, -⟩
      by_contra hfits
      cases hcalls.symm.trans (copyChunksTo_error hsaved hle hfits)
    · intro hfits
      obtain ⟨calls, hcalls, hlength, hstates⟩ := copyChunksTo_eq hsaved hle hfits
      simp only [hzero, Nat.zero_add] at hstates
      exact ⟨calls, hcalls, hlength, hstates⟩

/-- All bytes, and then a copy of nothing: the empty segment at the end is left. -/
theorem copyChunks_iff_emptyEnd :
    ReadsSlices [[1, 2], [], [3], []] [2, 0, 1, 0] ∧
      WritesSlices [[1, 2], [], [3], []] [[4, 5], [], [6], []] := by
  have h := copyChunks_iff [[1, 2], [], [3], []] [2, 0, 1, 0] (by decide)
  exact ⟨h.1.2 (by decide +kernel), (h.2 [[4, 5], [], [6], []] rfl).2 (by decide +kernel)⟩

/-- All bytes, and then a copy of nothing at the end of the array. -/
theorem copyChunks_past : ¬ ∀ (segs : ReqSegs ℕ) (chunks : List ℕ),
    chunks.sum ≤ totalLength segs →
      ReadsSlices segs chunks ∧
        ∀ bufs : List (List ℕ), lengths bufs = chunks → WritesSlices segs bufs := by
  intro h
  obtain ⟨⟨calls, hcalls, -⟩, -⟩ := h [[1, 2], [3]] [3, 0] (by decide)
  have herror : copyChunksFrom [[1, 2], [3]] [3, 0] ⟨0, 0⟩ = .error .cursor :=
    copyChunksFrom_error (saved_start _) (by decide) fun hfits =>
      absurd ((fits_start (by decide)).1 hfits) (by decide +kernel)
  cases herror.symm.trans hcalls

end Xen2mx.Segments
