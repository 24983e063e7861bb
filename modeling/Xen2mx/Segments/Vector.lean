/-
# `Xen2mx.Segments.Vector` — copies from and to the segments of a request

The memory of a request is a vector of segments.  A copy goes through them from the first, or from
a scan state, which is where the one before ended.

    copy from, copy to       a buffer, the first segments
    continue partial copy    a buffer, the segments from the scan state on
    partial copy             the same at an offset, which is looked for unless it is the state's
    copy from to             two vectors, each with its own segment and offset

A copy that leaves the segment, or the buffer, is a fault, and so is one that looks at a segment
after the last.  The segments do not overlap.  What is after the end of a buffer, and after the end
of an array, is not defined.
-/
import Xen2mx.Lib.Buffers
import Xen2mx.Lib.Faults

namespace Xen2mx.Segments

variable {β : Type*}

/-- Where a copy goes wrong: out of a segment or a buffer, or after the last segment. -/
inductive Fault where
  | overrun
  | cursor
  deriving DecidableEq, Repr

/-- `omx__req_segs`: what each segment holds.  `nseg` is the length of the list. -/
abbrev ReqSegs (β : Type*) := List (List β)

/-- `total_length`. -/
def totalLength (segs : ReqSegs β) : ℕ := (lengths segs).sum

theorem totalLength_cons (seg : List β) (segs : ReqSegs β) :
    totalLength (seg :: segs) = seg.length + totalLength segs := rfl

theorem totalLength_single (seg : List β) : totalLength [seg] = seg.length := Nat.add_zero _

theorem length_flatten (segs : ReqSegs β) : segs.flatten.length = totalLength segs :=
  (sum_lengths segs).symm

/-! ## From and to the first segments -/

/-- The loop of `omx_copy_from_segments`, from a segment on. -/
def copyFromLoop : ReqSegs β → (length : ℕ) → Except Fault (List β)
  | _, 0 => .ok []
  | [], _ + 1 => .error .cursor
  | seg :: segs, length + 1 =>
      let chunk := min seg.length (length + 1)
      (copyFromLoop segs (length + 1 - chunk)).bind fun rest => .ok (seg.take chunk ++ rest)

/-- `omx_copy_from_segments`: what is written to the buffer. -/
def copyFromSegments (src : ReqSegs β) (length : ℕ) : Except Fault (List β) :=
  match src with
  | [single] => check (length ≤ single.length) .overrun (.ok (single.take length))
  | _ => copyFromLoop src length

/-- The loop of `omx_copy_to_segments`, from a segment on. -/
def copyToLoop : ReqSegs β → (src : List β) → (length : ℕ) → Except Fault (ReqSegs β)
  | segs, _, 0 => .ok segs
  | [], _, _ + 1 => .error .cursor
  | seg :: segs, src, length + 1 =>
      let chunk := min seg.length (length + 1)
      check (chunk ≤ src.length) .overrun
        ((copyToLoop segs (src.drop chunk) (length + 1 - chunk)).bind fun rest =>
          .ok (splice 0 (src.take chunk) seg :: rest))

/-- `omx_copy_to_segments`. -/
def copyToSegments (dst : ReqSegs β) (src : List β) (length : ℕ) : Except Fault (ReqSegs β) :=
  match dst with
  | [single] =>
      check (length ≤ single.length ∧ length ≤ src.length) .overrun
        (.ok [splice 0 (src.take length) single])
  | _ => copyToLoop dst src length

/-! ## From a vector to a vector -/

/-- Past what was copied, and to the next segment at the end of this one. -/
def advance (c : Cursor) (chunk segLength : ℕ) : Cursor :=
  if segLength ≤ c.offset + chunk then ⟨c.seg + 1, 0⟩ else ⟨c.seg, c.offset + chunk⟩

/-- The loop of `omx_copy_from_to_segments`. -/
def copyFromToLoop (src dst : ReqSegs β) (cs cd : Cursor) (length : ℕ) :
    Except Fault (ReqSegs β) :=
  if length = 0 then .ok dst
  else
    match _hs : src[cs.seg]?, _hd : dst[cd.seg]? with
    | some s, some d =>
        let chunk := min (min length s.length) d.length
        check (cs.offset + chunk ≤ s.length ∧ cd.offset + chunk ≤ d.length) .overrun
          (copyFromToLoop src (write dst cd ((s.drop cs.offset).take chunk))
            (advance cs chunk s.length) (advance cd chunk d.length) (length - chunk))
    | _, _ => .error .cursor
  termination_by length + (src.length - cs.seg) + (dst.length - cd.seg)
  decreasing_by
    -- An empty chunk is one of an empty segment, which is left.
    have hslt := (List.getElem?_eq_some_iff.1 _hs).1
    have hdlt := (List.getElem?_eq_some_iff.1 _hd).1
    rw [write, List.length_modify]
    unfold advance
    split
    · split
      · show length - chunk + (src.length - (cs.seg + 1)) + (dst.length - (cd.seg + 1)) < _
        omega
      · show length - chunk + (src.length - (cs.seg + 1)) + (dst.length - cd.seg) < _
        omega
    · split
      · show length - chunk + (src.length - cs.seg) + (dst.length - (cd.seg + 1)) < _
        omega
      · show length - chunk + (src.length - cs.seg) + (dst.length - cd.seg) < _
        omega

/-- `omx_copy_from_to_segments`. -/
def copyFromToSegments (dst src : ReqSegs β) (length : ℕ) : Except Fault (ReqSegs β) :=
  match src, dst with
  | [single], _ => copyToSegments dst single length
  | _, [single] =>
      (copyFromSegments src length).bind fun bytes =>
        check (length ≤ single.length) .overrun (.ok [splice 0 bytes single])
  | _, _ => copyFromToLoop src dst ⟨0, 0⟩ ⟨0, 0⟩ length

/-! ## From a scan state on -/

/-- `omx_continue_partial_copy_from_segments`: what is written to the buffer, and the new state. -/
def continuePartialCopyFromSegments (src : ReqSegs β) (length : ℕ) (state : Cursor) :
    Except Fault (List β × Cursor) :=
  match _h : src[state.seg]? with
  | none => .error .cursor
  | some seg =>
      check (state.offset ≤ seg.length) .overrun
        (let curchunk := seg.length - state.offset
        let chunk := min curchunk length
        let bytes := (seg.drop state.offset).take chunk
        if curchunk ≠ chunk then .ok (bytes, ⟨state.seg, state.offset + chunk⟩)
        else if length - chunk = 0 then .ok (bytes, ⟨state.seg + 1, 0⟩)
        else
          (continuePartialCopyFromSegments src (length - chunk) ⟨state.seg + 1, 0⟩).bind
            fun (rest, state) => .ok (bytes ++ rest, state))
  termination_by src.length - state.seg
  decreasing_by
    have hlt := (List.getElem?_eq_some_iff.1 _h).1
    show src.length - (state.seg + 1) < src.length - state.seg
    omega

/-- `omx_continue_partial_copy_to_segments`. -/
def continuePartialCopyToSegments (dst : ReqSegs β) (src : List β) (length : ℕ) (state : Cursor) :
    Except Fault (ReqSegs β × Cursor) :=
  match _h : dst[state.seg]? with
  | none => .error .cursor
  | some seg =>
      check (state.offset ≤ seg.length) .overrun
        (let curchunk := seg.length - state.offset
        let chunk := min curchunk length
        check (chunk ≤ src.length) .overrun
          (let dst' := write dst state (src.take chunk)
          if curchunk ≠ chunk then .ok (dst', ⟨state.seg, state.offset + chunk⟩)
          else if length - chunk = 0 then .ok (dst', ⟨state.seg + 1, 0⟩)
          else
            continuePartialCopyToSegments dst' (src.drop chunk) (length - chunk)
              ⟨state.seg + 1, 0⟩))
  termination_by dst.length - state.seg
  decreasing_by
    have hlt := (List.getElem?_eq_some_iff.1 _h).1
    rw [write, List.length_modify]
    show dst.length - (state.seg + 1) < dst.length - state.seg
    omega

/-- The search of `omx_partial_copy_to_segments`, from a segment on. -/
def seekLoop (offset : ℕ) : ReqSegs β → (seg curoffset : ℕ) → Except Fault Cursor
  | [], _, _ => .error .cursor
  | s :: segs, seg, curoffset =>
      if curoffset + s.length < offset then seekLoop offset segs (seg + 1) (curoffset + s.length)
      else .ok ⟨seg, offset - curoffset⟩

/-- `omx_partial_copy_to_segments`.  A saved state that is no segment of the vector is `none`. -/
def partialCopyToSegments (dst : ReqSegs β) (src : List β) (length offset : ℕ)
    (scanState : Option Cursor) (scanOffset : ℕ) : Except Fault (ReqSegs β × Cursor × ℕ) :=
  (if offset ≠ scanOffset then seekLoop offset dst 0 0
    else
      match scanState with
      | some state => .ok state
      | none => .error .cursor).bind fun state =>
    (continuePartialCopyToSegments dst src length state).bind fun (dst, state) =>
      .ok (dst, state, offset + length)

end Xen2mx.Segments
