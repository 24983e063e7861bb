/-
# `Xen2mx.Segments.Copy` — copies from a vector to a vector

`omx_copy_from_to_segments` takes the length of both segments for its chunk, and not what is left
of them.  A chunk that starts within a segment is then too long, unless the other segment or the
message ends before.

    source        |-------|
    destination       |-------|        the second chunk leaves the first segment of the source

As long as no segment crosses another so, one of the two starts with each chunk, and the chunk ends
with the first of them.

**Proved here.**

    the first bytes of the source come to the destination, and nothing else is touched
        ⟺  no two segments cross                            (`copyFromToSegments_iff`)
    they do not for segments of 3, 3 and 2, 4 bytes         (`copyFromToSegments_crossing`)
-/
import Xen2mx.Segments.Vector

namespace Xen2mx.Segments

variable {β : Type*} {dst dst' : ReqSegs β} {length : ℕ}

/-- The bytes are written from a position on, and nothing else. -/
structure Written (dst : ReqSegs β) (p : ℕ) (bytes : List β) (dst' : ReqSegs β) : Prop where
  lengths : lengths dst' = lengths dst
  flatten : dst'.flatten = splice p bytes dst.flatten

theorem Written.refl (dst : ReqSegs β) (p : ℕ) : Written dst p [] dst := ⟨rfl, (splice_nil ..).symm⟩

theorem Written.trans {p : ℕ} {bytes bytes' : List β} {dst'' : ReqSegs β}
    (h : Written dst p bytes dst') (h' : Written dst' (p + bytes.length) bytes' dst'')
    (hle : p + bytes.length + bytes'.length ≤ totalLength dst) :
    Written dst p (bytes ++ bytes') dst'' where
  lengths := h'.lengths.trans h.lengths
  flatten := by
    rw [h'.flatten, h.flatten, splice_splice]
    rwa [length_flatten]

/-- A write at the cursor. -/
theorem Written.write {c : Cursor} {buf bytes : List β} (hbuf : dst[c.seg]? = some buf)
    (h : c.offset + bytes.length ≤ buf.length) :
    Written dst (c.pos (Xen2mx.lengths dst)) bytes (write dst c bytes) :=
  ⟨lengths_write hbuf h, flatten_write hbuf h⟩

/-! ## From and to a buffer -/

theorem copyFromLoop_eq {src : ReqSegs β} (h : length ≤ totalLength src) :
    copyFromLoop src length = .ok (src.flatten.take length) := by
  induction src generalizing length with
  | nil =>
      obtain rfl : length = 0 := Nat.le_zero.1 h
      rfl
  | cons seg segs ih =>
      cases length with
      | zero => rfl
      | succ n =>
          have hle : n + 1 ≤ seg.length + totalLength segs := h
          rw [copyFromLoop, ih (by omega), ok_bind, List.flatten_cons, List.take_append]
          congr 2
          · rw [List.take_eq_take_iff]
            omega
          · congr 1
            omega

theorem copyFromSegments_eq {src : ReqSegs β} (h : length ≤ totalLength src) :
    copyFromSegments src length = .ok (src.flatten.take length) := by
  unfold copyFromSegments
  split
  · rename_i single
    have hle : length ≤ single.length := h.trans_eq (totalLength_single single)
    rw [check_pos hle, List.flatten_cons, List.flatten_nil, List.append_nil]
  · exact copyFromLoop_eq h

theorem copyToLoop_eq {src : List β} (hdst : length ≤ totalLength dst) (hsrc : length ≤ src.length) :
    ∃ dst', copyToLoop dst src length = .ok dst' ∧ Written dst 0 (src.take length) dst' := by
  induction dst generalizing src length with
  | nil =>
      obtain rfl : length = 0 := Nat.le_zero.1 hdst
      exact ⟨[], rfl, .refl _ _⟩
  | cons seg segs ih =>
      cases length with
      | zero => exact ⟨_, rfl, .refl _ _⟩
      | succ n =>
          have hle : n + 1 ≤ seg.length + totalLength segs := hdst
          have hsegs : n + 1 - min seg.length (n + 1) ≤ totalLength segs := by omega
          have hsrc' : n + 1 - min seg.length (n + 1) ≤
              (src.drop (min seg.length (n + 1))).length := by
            rw [List.length_drop]
            omega
          obtain ⟨rest, hrest, hwritten⟩ := ih hsegs hsrc'
          have hchunk : (src.take (min seg.length (n + 1))).length = min seg.length (n + 1) := by
            rw [List.length_take]
            omega
          refine ⟨splice 0 (src.take (min seg.length (n + 1))) seg :: rest, ?_, ?_, ?_⟩
          · rw [copyToLoop, check_pos (by omega), hrest, ok_bind]
          · rw [lengths_cons, lengths_cons, hwritten.lengths, length_splice (by omega)]
          · rw [List.flatten_cons, List.flatten_cons, hwritten.flatten]
            rcases Nat.lt_or_ge (n + 1) seg.length with hlt | hge
            · rw [Nat.min_eq_right hlt.le, Nat.sub_self, List.take_zero, splice_nil,
                splice_append_left (by rw [List.length_take]; omega)]
            · rw [Nat.min_eq_left hge]
              have hwhole : splice 0 (src.take seg.length) seg = src.take seg.length := by
                rw [splice, List.take_zero, List.nil_append, List.drop_of_length_le, List.append_nil]
                rw [List.length_take]
                omega
              have hsplit : src.take (n + 1) =
                  src.take seg.length ++ (src.drop seg.length).take (n + 1 - seg.length) := by
                rw [← List.take_add, Nat.add_sub_cancel' hge]
              have hlen : (src.take seg.length).length = seg.length := by
                rw [List.length_take]
                omega
              rw [hwhole, hsplit, ← splice_splice, Nat.zero_add, splice_append_left, hwhole]
              · exact (splice_append_right 0 ((src.drop seg.length).take (n + 1 - seg.length))
                  (src.take seg.length) segs.flatten).symm
              · omega
              · rw [List.length_append, hlen, List.length_take, List.length_drop, length_flatten]
                omega

theorem copyToSegments_eq {src : List β} (hdst : length ≤ totalLength dst)
    (hsrc : length ≤ src.length) :
    ∃ dst', copyToSegments dst src length = .ok dst' ∧ Written dst 0 (src.take length) dst' := by
  unfold copyToSegments
  split
  · rename_i single
    have hle : length ≤ single.length := hdst.trans_eq (totalLength_single single)
    refine ⟨_, check_pos ⟨hle, hsrc⟩, ?_, ?_⟩
    · rw [lengths_cons, lengths_cons, length_splice]
      rw [List.length_take]
      omega
    · rw [List.flatten_cons, List.flatten_cons, List.flatten_nil, List.append_nil, List.append_nil]
  · exact copyToLoop_eq hdst hsrc

/-! ## Crossing segments -/

/-- The segment `j` of the second vector starts within the segment `i` of the first, which ends
before it, and before the length. -/
def Crosses (length : ℕ) (l m : List ℕ) (i j : ℕ) : Prop :=
  start l i < start m j ∧ start m j < start l (i + 1) ∧ start l (i + 1) < start m (j + 1) ∧
    start l (i + 1) < length

instance (length : ℕ) (l m : List ℕ) (i j : ℕ) : Decidable (Crosses length l m i j) :=
  inferInstanceAs (Decidable (_ ∧ _))

/-- Within the length, of two segments that have bytes in common one contains the other. -/
def Nested (length : ℕ) (l m : List ℕ) : Prop :=
  ∀ i < l.length, ∀ j < m.length, ¬ Crosses length l m i j ∧ ¬ Crosses length m l j i

instance (length : ℕ) (l m : List ℕ) : Decidable (Nested length l m) :=
  inferInstanceAs (Decidable (∀ i < l.length, ∀ j < m.length, _ ∧ _))

theorem Nested.symm {l m : List ℕ} (h : Nested length l m) : Nested length m l :=
  fun j hj i hi => (h i hi j hj).symm

/-- The chunk of a round, with `rem` to go. -/
def chunkOf (rem s d : ℕ) : ℕ := min (min rem s) d

/-- The rounds that a copy makes when no chunk leaves a segment. -/
inductive InStep (l m : List ℕ) : Cursor → Cursor → ℕ → Prop
  | done (cs cd : Cursor) : InStep l m cs cd 0
  | round {cs cd : Cursor} {rem s d : ℕ} (hs : l[cs.seg]? = some s) (hd : m[cd.seg]? = some d)
      (hfit : cs.offset + chunkOf rem s d ≤ s) (hfit' : cd.offset + chunkOf rem s d ≤ d)
      (rest : InStep l m (advance cs (chunkOf rem s d) s) (advance cd (chunkOf rem s d) d)
        (rem - chunkOf rem s d)) : InStep l m cs cd rem

theorem InStep.symm {l m : List ℕ} {cs cd : Cursor} {rem : ℕ} (h : InStep l m cs cd rem) :
    InStep m l cd cs rem := by
  induction h with
  | done => exact .done _ _
  | @round cs cd rem s d hs hd hfit hfit' rest ih =>
      have hcomm : chunkOf rem d s = chunkOf rem s d := by
        unfold chunkOf
        omega
      refine .round hd hs ?_ ?_ ?_
      · rwa [hcomm]
      · rwa [hcomm]
      · rwa [hcomm]

section

variable {lens : List ℕ} {c : Cursor} {chunk n : ℕ}

theorem pos_advance (hn : lens[c.seg]? = some n) (h : c.offset + chunk ≤ n) :
    (advance c chunk n).pos lens = c.pos lens + chunk := by
  unfold advance
  split
  · rename_i hge
    obtain ⟨hlt, rfl⟩ := List.getElem?_eq_some_iff.1 hn
    have hsucc := start_succ hlt
    show start lens (c.seg + 1) + 0 = start lens c.seg + c.offset + chunk
    omega
  · exact (Nat.add_assoc ..).symm

theorem start_succ_of_getElem? (hn : lens[c.seg]? = some n) :
    start lens (c.seg + 1) = start lens c.seg + n := by
  obtain ⟨hlt, rfl⟩ := List.getElem?_eq_some_iff.1 hn
  exact start_succ hlt

/-- Before the end of the vector there is a segment. -/
theorem exists_seg_of_pos_lt (h : c.pos lens < lens.sum) : ∃ n, lens[c.seg]? = some n := by
  have hlt : c.seg < lens.length := by
    by_contra hge
    rw [Cursor.pos, start_of_length_le (not_lt.1 hge)] at h
    omega
  exact ⟨_, List.getElem?_eq_getElem hlt⟩

/-- The cursor is at the start of a segment, or within it. -/
def Inside (lens : List ℕ) (c : Cursor) : Prop :=
  c.offset = 0 ∨ ∃ n, lens[c.seg]? = some n ∧ c.offset < n

theorem inside_advance (hn : lens[c.seg]? = some n) : Inside lens (advance c chunk n) := by
  unfold advance
  split
  · exact .inl rfl
  · rename_i hlt
    exact .inr ⟨n, hn, not_le.1 hlt⟩

theorem offset_advance (h : n ≤ c.offset + chunk) : (advance c chunk n).offset = 0 := by
  rw [advance, if_pos h]

end

/-- A crossing that is still to come stops the copy. -/
theorem InStep.not_crosses {l m : List ℕ} {cs cd : Cursor} {rem i j : ℕ}
    (h : InStep l m cs cd rem) (hpos : cs.pos l = cd.pos m) (hi : cs.seg ≤ i) (hj : cd.seg ≤ j)
    (hbefore : cs.pos l ≤ start m j) : ¬ Crosses (cs.pos l + rem) l m i j := by
  induction h with
  | done cs cd =>
      rintro ⟨-, hstart, -, hlength⟩
      omega
  | @round cs cd rem s d hs hd hfit hfit' rest ih =>
      rintro ⟨hstart, hstart', hend, hlength⟩
      have hsucc := start_succ_of_getElem? hs
      have hsucc' := start_succ_of_getElem? hd
      have hchunk : chunkOf rem s d ≤ rem := (Nat.min_le_left _ _).trans (Nat.min_le_left _ _)
      have hpos₁ := pos_advance hs hfit
      have hpos₂ := pos_advance hd hfit'
      have hcs : cs.pos l = start l cs.seg + cs.offset := rfl
      have hcd : cd.pos m = start m cd.seg + cd.offset := rfl
      -- The two segments are not those that cross: the chunk would leave the first.
      have hnot : ¬ (cs.seg = i ∧ cd.seg = j) := by
        rintro ⟨rfl, rfl⟩
        unfold chunkOf at hfit
        omega
      have hlt : cd.seg < j := by
        refine lt_of_le_of_ne hj fun heq => ?_
        have hi' : cs.seg + 1 ≤ i := lt_of_le_of_ne hi fun heq' => hnot ⟨heq', heq⟩
        have hmono : start l (cs.seg + 1) ≤ start l i := start_mono hi'
        rw [heq] at hcd
        omega
      have hmono : start m (cd.seg + 1) ≤ start m j := start_mono hlt
      refine ih ?_ ?_ ?_ ?_ ⟨hstart, hstart', hend, ?_⟩
      · rw [hpos₁, hpos₂, hpos]
      · unfold advance
        split
        · refine lt_of_le_of_ne hi fun heq => ?_
          rw [heq] at hcs hsucc
          omega
        · exact hi
      · unfold advance
        split
        · exact hlt
        · exact hj
      · omega
      · omega

/-- A chunk that starts with one of the two segments leaves the other only if they cross. -/
theorem fits_of_not_crosses {l m : List ℕ} {cs cd : Cursor} {rem s d : ℕ}
    (hs : l[cs.seg]? = some s) (hd : m[cd.seg]? = some d) (hpos : cs.pos l = cd.pos m)
    (hinside : Inside l cs) (hzero : cs.offset = 0 ∨ cd.offset = 0)
    (h : ¬ Crosses (cs.pos l + rem) l m cs.seg cd.seg) : cs.offset + chunkOf rem s d ≤ s := by
  by_contra hover
  refine h ?_
  have hsucc := start_succ_of_getElem? hs
  have hsucc' := start_succ_of_getElem? hd
  have hcs : cs.pos l = start l cs.seg + cs.offset := rfl
  have hcd : cd.pos m = start m cd.seg + cd.offset := rfl
  have hlt : cs.offset = 0 ∨ cs.offset < s := by
    refine hinside.imp_right ?_
    rintro ⟨n, hn, hlt⟩
    cases hs.symm.trans hn
    exact hlt
  unfold chunkOf at hover
  refine ⟨?_, ?_, ?_, ?_⟩
  all_goals omega

theorem Nested.inStep {l m : List ℕ} {n : ℕ} : ∀ {cs cd : Cursor} {rem : ℕ},
    rem + (l.length - cs.seg) + (m.length - cd.seg) = n → cs.pos l = cd.pos m →
    Inside l cs → Inside m cd → cs.offset = 0 ∨ cd.offset = 0 ∨ rem = 0 →
    cs.pos l + rem ≤ l.sum → cs.pos l + rem ≤ m.sum → Nested (cs.pos l + rem) l m →
    InStep l m cs cd rem := by
  induction n using Nat.strong_induction_on with
  | _ n ih =>
      intro cs cd rem hn hpos hin hin' hzero hl hm hnested
      rcases Nat.eq_zero_or_pos rem with rfl | hrem
      · exact .done _ _
      have hbefore : cs.pos l < l.sum := by omega
      have hbefore' : cd.pos m < m.sum := by omega
      obtain ⟨s, hs⟩ := exists_seg_of_pos_lt hbefore
      obtain ⟨d, hd⟩ := exists_seg_of_pos_lt hbefore'
      have hslt := (List.getElem?_eq_some_iff.1 hs).1
      have hdlt := (List.getElem?_eq_some_iff.1 hd).1
      have hzero' : cs.offset = 0 ∨ cd.offset = 0 := by omega
      have hcross := hnested _ hslt _ hdlt
      have hcomm : chunkOf rem d s = chunkOf rem s d := by
        unfold chunkOf
        omega
      have hfit := fits_of_not_crosses hs hd hpos hin hzero' hcross.1
      have hfit' : cd.offset + chunkOf rem s d ≤ d := by
        rw [← hcomm]
        refine fits_of_not_crosses hd hs hpos.symm hin' hzero'.symm ?_
        rw [← hpos]
        exact hcross.2
      have hpos₁ := pos_advance hs hfit
      have hpos₂ := pos_advance hd hfit'
      have hchunk : chunkOf rem s d ≤ rem := (Nat.min_le_left _ _).trans (Nat.min_le_left _ _)
      have hlength : (advance cs (chunkOf rem s d) s).pos l + (rem - chunkOf rem s d) =
          cs.pos l + rem := by omega
      refine .round hs hd hfit hfit' (ih _ ?_ rfl ?_ (inside_advance hs) (inside_advance hd) ?_ ?_
        ?_ ?_)
      · unfold advance chunkOf
        split
        · split
          · show _ + (l.length - (cs.seg + 1)) + (m.length - (cd.seg + 1)) < _
            omega
          · show _ + (l.length - (cs.seg + 1)) + (m.length - cd.seg) < _
            omega
        · split
          · show _ + (l.length - cs.seg) + (m.length - (cd.seg + 1)) < _
            omega
          · show _ + (l.length - cs.seg) + (m.length - cd.seg) < _
            unfold chunkOf at *
            omega
      · rw [hpos₁, hpos₂, hpos]
      · have hcases : chunkOf rem s d = s ∨ chunkOf rem s d = d ∨ chunkOf rem s d = rem := by
          unfold chunkOf
          omega
        rcases hcases with heq | heq | heq
        · exact .inl (offset_advance (by omega))
        · exact .inr (.inl (offset_advance (by omega)))
        · exact .inr (.inr (by omega))
      · rwa [hlength]
      · rwa [hlength]
      · rwa [hlength]

/-! ## The loop -/

variable {src : ReqSegs β} {cs cd : Cursor} {s d : List β}

theorem copyFromToLoop_zero : copyFromToLoop src dst cs cd 0 = .ok dst := by
  rw [copyFromToLoop, if_pos rfl]

theorem copyFromToLoop_round (hs : src[cs.seg]? = some s) (hd : dst[cd.seg]? = some d)
    (hlength : length ≠ 0) : copyFromToLoop src dst cs cd length =
      check (cs.offset + chunkOf length s.length d.length ≤ s.length ∧
          cd.offset + chunkOf length s.length d.length ≤ d.length) .overrun
        (copyFromToLoop src
          (write dst cd ((s.drop cs.offset).take (chunkOf length s.length d.length)))
          (advance cs (chunkOf length s.length d.length) s.length)
          (advance cd (chunkOf length s.length d.length) d.length)
          (length - chunkOf length s.length d.length)) := by
  rw [copyFromToLoop, if_neg hlength]
  split
  · rename_i s' d' hs' hd'
    cases hs.symm.trans hs'
    cases hd.symm.trans hd'
    rfl
  · rename_i hnone
    exact absurd hd (hnone s d hs)

theorem lengths_getElem? {segs : ReqSegs β} {i : ℕ} {seg : List β} (h : segs[i]? = some seg) :
    (lengths segs)[i]? = some seg.length := by
  rw [lengths, List.getElem?_map, h]
  rfl

theorem getElem?_lengths {segs : ReqSegs β} {i n : ℕ} (h : (lengths segs)[i]? = some n) :
    ∃ seg, segs[i]? = some seg ∧ seg.length = n := by
  rw [lengths, List.getElem?_map] at h
  exact Option.map_eq_some_iff.1 h

theorem length_take_drop {chunk : ℕ} (h : cs.offset + chunk ≤ s.length) :
    ((s.drop cs.offset).take chunk).length = chunk := by
  rw [List.length_take, List.length_drop]
  omega

/-- Rounds in which no chunk leaves a segment copy what they go through. -/
theorem InStep.copies {l m : List ℕ} {rem : ℕ} (h : InStep l m cs cd rem) :
    ∀ {dst : ReqSegs β}, lengths src = l → lengths dst = m → cs.pos l = cd.pos m →
      cd.pos m + rem ≤ m.sum → ∃ dst', copyFromToLoop src dst cs cd rem = .ok dst' ∧
        Written dst (cd.pos m) ((src.flatten.drop (cs.pos l)).take rem) dst' := by
  induction h with
  | done cs cd =>
      intro dst _ _ _ _
      refine ⟨dst, copyFromToLoop_zero, ?_⟩
      rw [List.take_zero]
      exact .refl _ _
  | @round cs cd rem s d hs hd hfit hfit' rest ih =>
      rintro dst rfl rfl hpos hle
      obtain ⟨sbytes, hsbytes, rfl⟩ := getElem?_lengths hs
      obtain ⟨dbytes, hdbytes, rfl⟩ := getElem?_lengths hd
      have hlen := length_take_drop (s := sbytes) hfit
      have hbytes := read_eq hsbytes hfit
      have hwritten : Written dst (cd.pos (lengths dst))
          ((sbytes.drop cs.offset).take (chunkOf rem sbytes.length dbytes.length)) _ :=
        .write hdbytes (by rwa [hlen])
      have hpos₁ := pos_advance hs hfit
      have hpos₂ := pos_advance hd hfit'
      have hchunk : chunkOf rem sbytes.length dbytes.length ≤ rem :=
        (Nat.min_le_left _ _).trans (Nat.min_le_left _ _)
      obtain ⟨dst', hdst', hrest⟩ := ih rfl hwritten.lengths (by rw [hpos₁, hpos₂, hpos]) (by omega)
      rcases Nat.eq_zero_or_pos rem with rfl | hrem
      · refine ⟨dst, copyFromToLoop_zero, ?_⟩
        rw [List.take_zero]
        exact .refl _ _
      refine ⟨dst', ?_, ?_⟩
      · rw [copyFromToLoop_round hsbytes hdbytes hrem.ne', check_pos ⟨hfit, hfit'⟩, hdst']
      · rw [hpos₁, hpos₂] at hrest
        have hsplit : (src.flatten.drop (cs.pos (lengths src))).take rem =
            (sbytes.drop cs.offset).take (chunkOf rem sbytes.length dbytes.length) ++
              (src.flatten.drop (cs.pos (lengths src) +
                chunkOf rem sbytes.length dbytes.length)).take
                  (rem - chunkOf rem sbytes.length dbytes.length) := by
          rw [hbytes, ← List.drop_drop, ← List.take_add, Nat.add_sub_cancel' hchunk]
        rw [hsplit]
        refine hwritten.trans ?_ ?_
        · rwa [hlen]
        · rw [hlen, List.length_take]
          have hsum : (lengths dst).sum = totalLength dst := rfl
          omega

/-- A copy that goes well is one of such rounds. -/
theorem inStep_of_ok (h : copyFromToLoop src dst cs cd length = .ok dst') :
    InStep (lengths src) (lengths dst) cs cd length := by
  fun_induction copyFromToLoop src dst cs cd length with
  | case1 => exact .done _ _
  | case2 dst cs cd length hlength s d hs hd chunk ih =>
      obtain ⟨⟨hfit, hfit'⟩, h⟩ := check_eq_ok.1 h
      have hlen := length_take_drop (s := s) hfit
      have hrest := ih h
      rw [lengths_write hd (by rwa [hlen])] at hrest
      exact .round (lengths_getElem? hs) (lengths_getElem? hd) hfit hfit' hrest
  | case3 => cases h

/-! ## The whole copy -/

/-- The first bytes of the source come to the destination, all within the segments. -/
def Copies (dst src : ReqSegs β) (length : ℕ) : Prop :=
  ∃ dst', copyFromToSegments dst src length = .ok dst' ∧
    Written dst 0 (src.flatten.take length) dst'

theorem nested_single {n : ℕ} (m : List ℕ) (h : length ≤ n) : Nested length [n] m := by
  intro i hi j _
  obtain rfl : i = 0 := Nat.lt_one_iff.1 hi
  have hend : start [n] 1 = n := Nat.add_zero n
  constructor
  · rintro ⟨-, -, -, hlt⟩
    exact absurd (hend ▸ hlt) (not_lt.2 h)
  · rintro ⟨hstart, -⟩
    exact absurd hstart (Nat.not_lt_zero _)

theorem copies_loop_iff (hsrc : length ≤ totalLength src) (hdst : length ≤ totalLength dst) :
    (∃ dst', copyFromToLoop src dst ⟨0, 0⟩ ⟨0, 0⟩ length = .ok dst' ∧
      Written dst 0 (src.flatten.take length) dst') ↔
      Nested length (lengths src) (lengths dst) := by
  constructor
  · rintro ⟨dst', h, -⟩ i _ j _
    have hrounds := inStep_of_ok h
    have hcross := hrounds.not_crosses (i := i) (j := j) rfl (Nat.zero_le _) (Nat.zero_le _)
      (Nat.zero_le _)
    have hcross' := hrounds.symm.not_crosses (i := j) (j := i) rfl (Nat.zero_le _) (Nat.zero_le _)
      (Nat.zero_le _)
    rw [show Cursor.pos ⟨0, 0⟩ (lengths src) = 0 from rfl, Nat.zero_add] at hcross
    rw [show Cursor.pos ⟨0, 0⟩ (lengths dst) = 0 from rfl, Nat.zero_add] at hcross'
    exact ⟨hcross, hcross'⟩
  · intro h
    have hzero : ∀ lens : List ℕ, Cursor.pos ⟨0, 0⟩ lens = 0 := fun _ => rfl
    have hrounds : InStep (lengths src) (lengths dst) ⟨0, 0⟩ ⟨0, 0⟩ length := by
      refine Nested.inStep rfl rfl (.inl rfl) (.inl rfl) (.inl rfl) ?_ ?_ ?_
      · rwa [hzero, Nat.zero_add]
      · rwa [hzero, Nat.zero_add]
      · rwa [hzero, Nat.zero_add]
    obtain ⟨dst', hdst', hwritten⟩ := hrounds.copies rfl rfl rfl (by rwa [hzero, Nat.zero_add])
    rw [hzero, hzero, List.drop_zero] at hwritten
    exact ⟨dst', hdst', hwritten⟩

/-- The first bytes of the source are copied, within the segments, exactly when no two segments
cross within them. -/
theorem copyFromToSegments_iff (dst src : ReqSegs β) (length : ℕ)
    (hsrc : length ≤ totalLength src) (hdst : length ≤ totalLength dst) :
    Copies dst src length ↔ Nested length (lengths src) (lengths dst) := by
  unfold Copies copyFromToSegments
  split
  · rename_i single
    rw [totalLength_single] at hsrc
    refine iff_of_true ?_ (nested_single _ hsrc)
    rw [List.flatten_cons, List.flatten_nil, List.append_nil]
    exact copyToSegments_eq hdst hsrc
  · rename_i single hmany
    rw [totalLength_single] at hdst
    refine iff_of_true ?_ (nested_single _ hdst).symm
    have hlen : (src.flatten.take length).length = length := by
      rw [List.length_take, length_flatten]
      omega
    refine ⟨[splice 0 (src.flatten.take length) single], ?_, ?_, ?_⟩
    · rw [copyFromSegments_eq hsrc, ok_bind, check_pos hdst]
    · rw [lengths_cons, lengths_cons, length_splice (by omega)]
    · rw [List.flatten_cons, List.flatten_cons, List.flatten_nil, List.append_nil, List.append_nil]
  · exact copies_loop_iff hsrc hdst

/-- Two segments of the source fill the first of the destination. -/
theorem copyFromToSegments_nested :
    Copies [[0, 0, 0, 0], [0]] [[1, 2], [3, 4], [5]] 5 ↔ Nested 5 [2, 2, 1] [4, 1] :=
  copyFromToSegments_iff [[0, 0, 0, 0], [0]] [[1, 2], [3, 4], [5]] 5 (by decide) (by decide)

/-- The second chunk takes three bytes, of which the segment has one. -/
theorem copyFromToSegments_crossing : ¬ ∀ (dst src : ReqSegs ℕ) (length : ℕ),
    length ≤ totalLength src → length ≤ totalLength dst → Copies dst src length := by
  intro h
  obtain ⟨dst', hdst', -⟩ := h [[0, 0], [0, 0, 0, 0]] [[1, 2, 3], [4, 5, 6]] 6 (by decide) (by decide)
  have hnested := (inStep_of_ok hdst').not_crosses (i := 0) (j := 1) rfl le_rfl (Nat.zero_le _)
    (Nat.zero_le _)
  exact hnested (by decide)

end Xen2mx.Segments
