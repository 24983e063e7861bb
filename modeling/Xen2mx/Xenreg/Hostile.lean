/-
# `Xen2mx.Xenreg.Hostile` — what a guest can do to the backend

A guest may write anything into a request.  `Fits` is what the backend depends on
then, request by request: the indexes in their bounds, a list of references as
large as the pages it is said to have, a divisor that is not zero, and no command
that ends in a `BUG`.

    get info, other commands   eid < 256
    create                     id < 256; at most 2 segments, each with at most 16 parts, its region
                               below 256, its index below the segments of the region there, and a
                               list that fits
    destroy                    at most 2 segments, each with its region below 256 and its index below
                               the segments of the region there; without segments, id < 256
    open                       the two lists fit their page
    pull                       eid < 256, not shared, the endpoint attached
    send mediumva              never

**Proved here.**

    the processing of a request reaches no fault of the list  ⟺  the request fits   (`spares_processRequest`)
    a run is stopped by none of them  ⟺  all its requests fit                       (`hostileGuest_spared`)
-/
import Xen2mx.Xenreg.Backend

namespace Xen2mx.Xenreg

open Xenback (Func)

variable {π : Type*} (g : Guest π) (e : Outcome) (b : Backend π)

/-- The faults of the list: an index out of its bounds, a division by zero, a `BUG`. -/
def Fault.Listed (f : Fault) : Prop := f ≠ .nullPointer

/-! ## The conditions -/

/-- The number of segments of the region that the segments of a message find. -/
def CreateUserRegion.segmentsAt (cur : CreateUserRegion) (eid id : ℕ) : Option ℕ :=
  match b.xenRegion eid id with
  | some region => some region.segments.length
  | none =>
      if e.memory ∧ eid % 256 = cur.eid % 256 ∧ id = cur.id then some cur.nrSegments else none

def RegisterSegment.Fits (req : RegisterSegment) (out : MapOutcome) (found : Option ℕ) : Prop :=
  req.nrParts ≤ omxXenGrantPagesMax ∧ req.rid < omxUserRegionMax ∧ ∀ n ∈ found,
    req.sid < n ∧ (out.memory = true → Accepts g out req.gref req.nrParts → req.ListFits)

def CreateUserRegion.Fits (cur : CreateUserRegion) : Prop :=
  (e.memory = true → cur.id < omxUserRegionMax) ∧ ∀ i < cur.nrSegments,
    i < 2 ∧ (cur.segs i).Fits g (e.segment i) (cur.segmentsAt e b (cur.segs i).eid (cur.segs i).rid)

def DeregisterSegment.Fits (req : DeregisterSegment) : Prop :=
  req.rid < omxUserRegionMax ∧
    ∀ region ∈ b.xenRegion req.eid req.rid, req.sid < region.segments.length

/-- The pointers to the pages of its list run out before the parts do: a null
pointer, which ends the processing of the request. -/
def DeregisterSegment.Stops (req : DeregisterSegment) (unmapped : ℕ → Bool) : Prop :=
  ∃ region ∈ b.xenRegion req.eid req.rid, ∃ seg ∈ region.segments[req.sid]?,
    seg.unmap = true ∧ seg.areas < seg.nrParts ∧ ∀ k < seg.areas, unmapped k = true

def DestroyUserRegion.Fits (dur : DestroyUserRegion) : Prop :=
  (∀ i < dur.nrSegments, (∀ k < i, ¬ (dur.segs k).Stops b (e.unmap k)) →
    i < 2 ∧ (dur.segs i).Fits b) ∧
  (dur.nrSegments = 0 → dur.eid % 256 < 255 → dur.id < omxUserRegionMax)

/-- A list of `size` references fits the page it is on. -/
def QueueFits (offset size : ℕ) : Prop := size = 0 ∨ offset + 4 * size ≤ pageSize

def OpenEndpoint.Fits (req : OpenEndpoint) (eid : ℕ) : Prop :=
  (b.endpoint eid).status = .free → e.sendq = true →
    QueueFits req.egrefSendqOffset req.sendqGrefSize ∧
      (e.recvq = true → QueueFits req.egrefRecvqOffset req.recvqGrefSize)

def Request.Fits (q : Request) : Prop :=
  match q.func with
  | .null | .xenCloseEndpoint | .peerFromIndex | .peerFromAddr | .peerFromHostname
  | .xenGetBoardCount | .xenPeerTableGetState | .xenPeerTableSetState | .xenSetHostname => True
  | .xenOpenEndpoint => q.endpoint.Fits e b q.eid
  | .xenCreateUserRegion => q.cur.Fits g e b
  | .xenDestroyUserRegion => q.dur.Fits e b
  | .pull => q.eid < omxXenMaxEndpoints ∧ q.shared = false ∧ (b.endpoints q.eid).iface = true
  | .sendMediumva => False
  | .getEndpointInfo | .getBoardInfo | .sendRndv | .sendMediumsqFrag | .sendSmall | .sendTiny
  | .sendNotify | .sendLiback | .sendConnectRequest | .sendConnectReply | .unknown _ =>
      q.eid < omxXenMaxEndpoints

/-! ## Creating -/

section
variable {g e b} {bad : Fault → Prop} {cur : CreateUserRegion} {i : ℕ}

/-- The segments of the regions that a message finds do not change on the way. -/
def Shape (b : Backend π) (eid id : ℕ) : Option ℕ := (b.xenRegion eid id).map (·.segments.length)

theorem createUserRegion_shape {ret : Ret} {b' : Backend π}
    (h : createUserRegion e b cur.id cur.nrSegments cur.eid = .ok (ret, b')) :
    Shape b' = cur.segmentsAt e b := by
  funext eid id
  unfold createUserRegion at h
  unfold CreateUserRegion.segmentsAt Shape
  split at h
  · rename_i hmem
    split at h
    · rename_i hid
      split at h
      · rename_i hbusy
        cases h
        cases hr : b.xenRegion eid id with
        | some region => rfl
        | none =>
            refine (if_neg ?_).symm
            rintro ⟨-, heid, rfl⟩
            have hsame : b.xenRegion eid cur.id = b.xenRegion cur.eid cur.id := by
              simp only [Backend.xenRegion, Backend.endpoint, heid]
            rw [← hsame, hr] at hbusy
            cases hbusy
      · rename_i hfree
        cases h
        rw [Backend.xenRegion_setXenRegion]
        by_cases hat : eid % 256 = cur.eid % 256 ∧ id = cur.id
        · have hnone : b.xenRegion eid id = none := by
            have hsame : b.xenRegion eid id = b.xenRegion cur.eid cur.id := by
              simp only [Backend.xenRegion, Backend.endpoint, hat.1, hat.2]
            rw [hsame]
            exact Option.not_isSome_iff_eq_none.1 hfree
          rw [if_pos hat, hnone]
          simp [hmem, hat]
        · rw [if_neg hat]
          cases b.xenRegion eid id with
          | some region => rfl
          | none => exact (if_neg fun hc => hat hc.2).symm
    · cases h
  · rename_i hmem
    cases h
    cases b.xenRegion eid id with
    | some region => rfl
    | none => exact (if_neg fun hc => hmem hc.1).symm

theorem registerUserSegment_shape {out : MapOutcome} {req : RegisterSegment} {ret : Ret}
    {b' : Backend π} (h : registerUserSegment g b out req = .ok (ret, b')) : Shape b' = Shape b := by
  unfold registerUserSegment at h
  split at h
  · obtain ⟨-, h⟩ := check_eq_ok.1 h
    split at h
    · cases h; rfl
    · rename_i region hregion
      split at h
      · cases h
      · obtain ⟨⟨ret', seg'⟩, -, h⟩ := bind_eq_ok.1 h
        cases h
        funext eid id
        unfold Shape
        rw [Backend.xenRegion_setXenRegion]
        split
        · rename_i hat
          have hsame : b.xenRegion eid id = b.xenRegion req.eid req.rid := by
            simp only [Backend.xenRegion, Backend.endpoint, hat.1, hat.2]
          simp [hsame, hregion]
        · rfl
  · cases h

theorem spares_registerUserSegment (hbad : ∀ f : Fault, f.Listed → bad f) {out : MapOutcome}
    {req : RegisterSegment} :
    Spares bad (registerUserSegment g b out req) ↔ req.Fits g out (Shape b req.eid req.rid) := by
  unfold registerUserSegment RegisterSegment.Fits Shape
  split
  · rename_i hparts
    rw [spares_check (hbad .xenRegions nofun), and_iff_right hparts]
    refine and_congr_right' ?_
    cases hregion : b.xenRegion req.eid req.rid with
    | none => exact iff_of_true (spares_ok _) nofun
    | some region =>
        simp only [Option.map_some, Option.mem_def, Option.some.injEq, forall_eq']
        split
        · rename_i hseg
          have hlen := List.getElem?_eq_none_iff.1 hseg
          exact iff_of_false (fun h => spares_error.1 h (hbad .segments nofun)) fun h => by omega
        · rename_i seg hseg
          have hlen := (List.getElem?_eq_some_iff.1 hseg).1
          rw [spares_bind, spares_register (hbad .grefList nofun) (hbad .divideByZero nofun), and_iff_right hlen]
          exact and_iff_left fun _ _ => spares_ok _
  · rename_i hparts
    exact iff_of_false (fun h => spares_error.1 h (hbad .gref nofun)) fun h => hparts h.1

theorem spares_createUserRegion (hbad : ∀ f : Fault, f.Listed → bad f) {id n eid : ℕ} :
    Spares bad (createUserRegion e b id n eid) ↔ (e.memory = true → id < omxUserRegionMax) := by
  unfold createUserRegion
  split
  · rename_i hmem
    split
    · rename_i hid
      refine iff_of_true ?_ fun _ => hid
      split <;> exact spares_ok _
    · rename_i hid
      exact iff_of_false (fun h => spares_error.1 h (hbad .xenRegions nofun)) fun h => hid (h hmem)
  · exact iff_of_true (spares_ok _) fun h => absurd h ‹_›

theorem spares_registerNth (hbad : ∀ f : Fault, f.Listed → bad f) {s : Ret × Backend π}
    (hs : Shape s.2 = cur.segmentsAt e b) :
    Spares bad (registerNth g e cur i s) ↔
      i < 2 ∧ (cur.segs i).Fits g (e.segment i)
        (cur.segmentsAt e b (cur.segs i).eid (cur.segs i).rid) := by
  rw [registerNth, spares_check (hbad .segs nofun), spares_registerUserSegment hbad, hs]

theorem registerNth_shape {s s' : Ret × Backend π} (h : registerNth g e cur i s = .ok s') :
    Shape s'.2 = Shape s.2 :=
  registerUserSegment_shape (check_eq_ok.1 h).2

theorem spares_dispatchCreate : Spares Fault.Listed (dispatchCreate g e b cur) ↔ cur.Fits g e b := by
  unfold dispatchCreate CreateUserRegion.Fits
  rw [spares_bind, spares_createUserRegion fun _ => id]
  refine and_congr_right fun hid => ?_
  obtain ⟨⟨ret, b'⟩, hb'⟩ : ∃ r, createUserRegion e b cur.id cur.nrSegments cur.eid = .ok r :=
    spares_true_iff.1 ((spares_createUserRegion fun _ _ => trivial).2 hid)
  -- no other fault can stop the loop
  have hstep : ∀ i s s', Shape s.2 = cur.segmentsAt e b → registerNth g e cur i s = .ok s' →
      Shape s'.2 = cur.segmentsAt e b := fun i s s' hs h => (registerNth_shape h).trans hs
  have hloop := spares_loop_iff (S := fun _ => False) hstep
    (fun i s hs => spares_registerNth (fun _ => id) hs)
    (fun i s hs hC => iff_of_true
      (spares_true_iff.1 ((spares_registerNth (fun _ _ => trivial) hs).2 hC)) not_false)
    (n := cur.nrSegments) (i := 0) (s := (ret, b')) (createUserRegion_shape hb')
  simp only [hb', Except.ok.injEq, forall_eq', hloop, Nat.zero_le, true_imp_iff, Nat.zero_add,
    not_false_eq_true, implies_true]

/-! ## Destroying -/

/-- The list has an area for every part, or unmapping fails before the parts run out. -/
theorem unmapParts_returns {seg : Segment π} {unmapped : ℕ → Bool} {n k : ℕ}
    (hlen : k + n = seg.nrParts) :
    (∃ ret, seg.unmapParts unmapped n k = .ok ret) ↔
      ¬ (max k seg.areas < seg.nrParts ∧ ∀ j, k ≤ j → j < seg.areas → unmapped j = true) := by
  induction n generalizing k with
  | zero => exact iff_of_true ⟨none, rfl⟩ fun h => by omega
  | succ n ih =>
      have hk : k < omxXenGrantPagesMax := by have := seg.nrParts_le; omega
      rw [Segment.unmapParts, check_pos hk]
      by_cases harea : k < seg.areas
      · rw [check_pos harea]
        cases hun : unmapped k with
        | false =>
            refine iff_of_true ⟨_, rfl⟩ fun h => ?_
            rw [h.2 k le_rfl harea] at hun
            cases hun
        | true =>
            rw [if_pos rfl, ih (by omega), not_iff_not, max_eq_right harea.le,
              max_eq_right (Nat.succ_le_of_lt harea)]
            refine and_congr_right' ⟨fun h j hj hj' => ?_, fun h j hj hj' => h j (by omega) hj'⟩
            rcases hj.eq_or_lt with rfl | hlt
            · exact hun
            · exact h j hlt hj'
      · rw [check, if_neg harea]
        refine iff_of_false nofun fun h => h ⟨by omega, fun j hj hj' => ?_⟩
        omega

theorem unmapParts_error {seg : Segment π} {unmapped : ℕ → Bool} {n k : ℕ} {f : Fault}
    (hlen : k + n = seg.nrParts) (h : seg.unmapParts unmapped n k = .error f) : f = .nullPointer := by
  induction n generalizing k with
  | zero => cases h
  | succ n ih =>
      have hk : k < omxXenGrantPagesMax := by have := seg.nrParts_le; omega
      rw [Segment.unmapParts, check_pos hk] at h
      by_cases harea : k < seg.areas
      · rw [check_pos harea] at h
        split at h
        · exact ih (by omega) h
        · cases h
      · rw [check, if_neg harea] at h
        cases h
        rfl

variable {req : DeregisterSegment} {unmapped : ℕ → Bool}

theorem spares_deregisterUserSegment :
    Spares Fault.Listed (deregisterUserSegment b unmapped req) ↔ req.Fits b := by
  unfold deregisterUserSegment DeregisterSegment.Fits
  rw [spares_check (show Fault.Listed .xenRegions from nofun)]
  refine and_congr_right' ?_
  cases hregion : b.xenRegion req.eid req.rid with
  | none => exact iff_of_true (spares_ok _) nofun
  | some region =>
      simp only [Option.mem_def, Option.some.injEq, forall_eq']
      split
      · rename_i hseg
        have hlen := List.getElem?_eq_none_iff.1 hseg
        exact iff_of_false (fun h => spares_error.1 h nofun) fun h => by omega
      · rename_i seg hseg
        refine iff_of_true ?_ (List.getElem?_eq_some_iff.1 hseg).1
        split
        · rintro f hf
          exact not_not.2 (unmapParts_error (Nat.zero_add _) hf)
        · exact spares_ok _

theorem deregisterUserSegment_returns (h : req.Fits b) :
    (∃ ret, deregisterUserSegment b unmapped req = .ok ret) ↔ ¬ req.Stops b unmapped := by
  obtain ⟨hrid, hsid⟩ := h
  unfold deregisterUserSegment DeregisterSegment.Stops
  rw [check_pos hrid]
  cases hregion : b.xenRegion req.eid req.rid with
  | none => exact iff_of_true ⟨_, rfl⟩ fun ⟨_, hr, _⟩ => by cases hr
  | some region =>
      obtain ⟨seg, hseg⟩ : ∃ seg, region.segments[req.sid]? = some seg :=
        ⟨_, List.getElem?_eq_getElem (hsid region hregion)⟩
      simp only [Option.mem_def, Option.some.injEq, exists_eq_left', hseg]
      cases hun : seg.unmap with
      | false => exact iff_of_true ⟨_, rfl⟩ fun h => by cases h.1
      | true =>
          rw [if_pos rfl, unmapParts_returns (Nat.zero_add _), max_eq_right (Nat.zero_le _)]
          simp only [true_and, Nat.zero_le, true_imp_iff]

theorem spares_destroyUserRegion {id eid : ℕ} :
    Spares Fault.Listed (destroyUserRegion b id eid) ↔ (eid % 256 < 255 → id < omxUserRegionMax) := by
  unfold destroyUserRegion
  split
  · rename_i heid
    rw [spares_check (show Fault.Listed .xenRegions from nofun), imp_iff_right heid]
    refine and_iff_left ?_
    split <;> exact spares_ok _
  · rename_i heid
    exact iff_of_true (spares_ok _) fun h => absurd h heid

variable {dur : DestroyUserRegion} {s s' : ℕ × ℕ}

theorem spares_deregisterNth :
    Spares Fault.Listed (deregisterNth e b dur i s) ↔ i < 2 ∧ (dur.segs i).Fits b := by
  rw [deregisterNth, spares_check (show Fault.Listed .segs from nofun), spares_bind,
    spares_deregisterUserSegment]
  exact and_congr_right' (and_iff_left fun _ _ => spares_ok _)

theorem deregisterNth_returns (h : i < 2 ∧ (dur.segs i).Fits b) :
    (∃ s', deregisterNth e b dur i s = .ok s') ↔ ¬ (dur.segs i).Stops b (e.unmap i) := by
  rw [deregisterNth, check_pos h.1, ← deregisterUserSegment_returns h.2]
  constructor
  · rintro ⟨s', hs'⟩
    obtain ⟨ret, hret, -⟩ := bind_eq_ok.1 hs'
    exact ⟨ret, hret⟩
  · rintro ⟨ret, hret⟩
    exact ⟨_, bind_eq_ok.2 ⟨ret, hret, rfl⟩⟩

/-- The region that a segment leaves to be destroyed is in its bounds. -/
theorem deregisterNth_region (h : deregisterNth e b dur i s = .ok s') : s'.1 < omxUserRegionMax := by
  obtain ⟨ret, hret, h⟩ := bind_eq_ok.1 (check_eq_ok.1 h).2
  cases h
  exact (check_eq_ok.1 hret).1

theorem spares_dispatchDestroy :
    Spares Fault.Listed (dispatchDestroy e b dur) ↔ dur.Fits e b := by
  unfold dispatchDestroy DestroyUserRegion.Fits
  have hstep : ∀ i s s', True → deregisterNth e b dur i s = .ok s' → True :=
    fun _ _ _ _ _ => trivial
  have hloop := spares_loop_iff hstep (fun i s _ => spares_deregisterNth)
    (fun i s _ h => deregisterNth_returns h) (n := dur.nrSegments) (i := 0)
    (s := (dur.id, dur.eid)) trivial
  simp only [Nat.zero_le, true_imp_iff, Nat.zero_add] at hloop
  rw [spares_bind, hloop]
  refine and_congr_right fun _ => ?_
  simp only [spares_destroyUserRegion]
  cases dur.nrSegments with
  | zero => simp [loop]
  | succ n =>
      refine iff_of_true (fun s hloop _ => ?_) (by rintro ⟨⟩)
      obtain ⟨s', hs', hrest⟩ := bind_eq_ok.1 hloop
      exact loop_invariant (I := fun s : ℕ × ℕ => s.1 < omxUserRegionMax)
        (fun i s s' _ h => deregisterNth_region h) (deregisterNth_region hs') hrest

/-! ## The other commands -/

theorem spares_readQueueGrefs {offset size : ℕ} :
    Spares Fault.Listed (readQueueGrefs offset size) ↔ QueueFits offset size := by
  have hbody : ∀ (i : ℕ) (s : Unit), True →
      (Spares Fault.Listed (check (offset + 4 * i + 4 ≤ pageSize) .grefList (.ok ())) ↔
        offset + 4 * i + 4 ≤ pageSize) := by
    intro i s _
    rw [spares_check (show Fault.Listed .grefList from nofun)]
    exact and_iff_left (spares_ok _)
  unfold readQueueGrefs QueueFits
  rw [spares_loop_iff (I := fun _ => True) (S := fun _ => False) (fun _ _ _ _ _ => trivial) hbody
    (fun i s _ hi => iff_of_true ⟨(), check_pos hi⟩ not_false) trivial]
  constructor
  · intro h
    rcases Nat.eq_zero_or_pos size with h0 | hpos
    · exact .inl h0
    · have hlast := h (size - 1) (Nat.zero_le _) (by omega) fun _ _ _ => not_false
      exact .inr (by omega)
  · rintro (h0 | hfits) j - hj -
    · omega
    · omega

theorem readQueueGrefs_eq_ok {offset size : ℕ} (h : QueueFits offset size) :
    readQueueGrefs offset size = .ok () := by
  have hbody : ∀ (i : ℕ) (s : Unit), i < size → True → ∃ s' : Unit,
      check (offset + 4 * i + 4 ≤ pageSize) Fault.grefList (.ok ()) = .ok s' ∧ True := by
    intro i s hi _
    refine ⟨(), check_pos ?_, trivial⟩
    rcases h with h | h <;> omega
  obtain ⟨u, hu, -⟩ := loop_eq_ok hbody (Nat.zero_add size) trivial (s := ())
  exact hu

theorem spares_readQueueGrefs_bind {α : Type*} {offset size : ℕ} {x : Unit → Except Fault α} :
    Spares Fault.Listed ((readQueueGrefs offset size).bind x) ↔
      QueueFits offset size ∧ Spares Fault.Listed (x ()) := by
  rw [spares_bind, spares_readQueueGrefs]
  refine and_congr_right fun h => ⟨fun hx => hx () (readQueueGrefs_eq_ok h), fun hx _ _ => hx⟩

theorem spares_endpointOpen {eid : ℕ} {queues : OpenEndpoint} :
    Spares Fault.Listed (endpointOpen e b eid queues) ↔ queues.Fits e b eid := by
  unfold endpointOpen OpenEndpoint.Fits
  cases (b.endpoint eid).status with
  | ok => exact iff_of_true (spares_ok _) (by rintro ⟨⟩)
  | initializing => exact iff_of_true (spares_ok _) (by rintro ⟨⟩)
  | closing => exact iff_of_true (spares_ok _) (by rintro ⟨⟩)
  | free =>
      cases e.sendq with
      | false => exact iff_of_true (spares_ok _) (by rintro _ ⟨⟩)
      | true =>
          simp only [if_true, true_imp_iff]
          rw [spares_readQueueGrefs_bind]
          refine and_congr_right' ?_
          cases e.recvq with
          | false => exact iff_of_true (spares_ok _) (by rintro ⟨⟩)
          | true =>
              simp only [if_true, true_imp_iff]
              rw [spares_readQueueGrefs_bind]
              refine and_iff_left ?_
              split <;> exact spares_ok _

theorem spares_getEndpoint_bind {α : Type*} {eid : ℕ} {x : Endpoint π → Except Fault α} :
    Spares Fault.Listed ((getEndpoint b eid).bind x) ↔
      eid < omxXenMaxEndpoints ∧ Spares Fault.Listed (x (b.endpoints eid)) := by
  unfold getEndpoint check
  split
  · exact (and_iff_right ‹_›).symm
  · exact iff_of_false (fun h => spares_error.1 h nofun) fun h => absurd h.1 ‹_›

end

/-! ## Requests and runs -/

theorem spares_processMisc (q : Request) (h : q.func.isMisc = true) :
    Spares Fault.Listed (processMisc g e b q) ↔ q.Fits g e b := by
  unfold processMisc Request.Fits
  cases hf : q.func with
  | getEndpointInfo | getBoardInfo =>
      exact spares_getEndpoint_bind.trans (and_iff_left (spares_ok _))
  | xenOpenEndpoint =>
      exact spares_bind.trans ((and_iff_left fun _ _ => spares_ok _).trans spares_endpointOpen)
  | xenCreateUserRegion =>
      exact spares_bind.trans ((and_iff_left fun _ _ => spares_ok _).trans spares_dispatchCreate)
  | xenDestroyUserRegion =>
      exact spares_bind.trans ((and_iff_left fun _ _ => spares_ok _).trans spares_dispatchDestroy)
  | xenCloseEndpoint | peerFromIndex | peerFromAddr | peerFromHostname | xenGetBoardCount
  | xenPeerTableGetState | xenPeerTableSetState | xenSetHostname =>
      exact iff_of_true (spares_ok _) trivial
  | _ => rw [hf] at h; cases h

theorem spares_processSpecific (q : Request) (hnull : q.func ≠ .null) (h : q.func.isMisc = false) :
    Spares Fault.Listed (processSpecific b q) ↔ q.Fits g e b := by
  unfold processSpecific Request.Fits
  rw [spares_getEndpoint_bind]
  cases hf : q.func with
  | null => exact absurd hf hnull
  | pull =>
      refine and_congr_right' ?_
      rw [spares_check (show Fault.Listed .bug from nofun),
        spares_check (show Fault.Listed .bug from nofun), and_iff_left (spares_ok _)]
  | sendMediumva => exact iff_of_false (fun h => spares_error.1 h.2 nofun) id
  | sendRndv | sendMediumsqFrag | sendSmall | sendTiny | sendNotify | sendLiback
  | sendConnectRequest | sendConnectReply | unknown => exact and_iff_left (spares_ok _)
  | _ => rw [hf] at h; cases h

/-- The processing of a request reaches no fault of the list exactly when the request fits. -/
theorem spares_processRequest (q : Request) :
    Spares Fault.Listed (processRequest g e b q) ↔ q.Fits g e b := by
  unfold processRequest
  split
  · rename_i hnull
    refine iff_of_true (spares_ok _) ?_
    rw [Request.Fits, hnull]
    trivial
  · rename_i hnull
    split
    · exact spares_processMisc g e b q ‹_›
    · exact spares_processSpecific g e b q hnull (eq_false_of_ne_true ‹_›)

/-- A step of the backend on a request that fits. -/
def Fits (s : Except Fault (Backend π)) (a : Act π) : Prop :=
  ∀ b, s = .ok b → a.request.Fits a.guest a.outcome b

/-- The backend was stopped by a fault of the list. -/
def Stopped (s : Except Fault (Backend π)) : Prop := ¬ Spares Fault.Listed s

/-- From the start, no request of a run indexes an array out of its bounds, divides by
zero or ends in a `BUG` exactly when every request of the run fits the state it finds. -/
theorem hostileGuest_spared {as : List (Act π)} {s : Except Fault (Backend π)}
    (h : machine.exec machine.init as = some s) :
    machine.Meets Fits machine.init as ↔ ¬ Stopped s := by
  refine Machine.meets_iff_not (I := fun _ => True) (fun _ _ _ _ _ => trivial) ?_ trivial
    (not_not.2 (spares_ok _)) h
  rintro (f | b) a s' - hs
  · cases hs
  · cases hs
    refine ⟨not_not.2 (spares_ok _), ?_⟩
    rw [Stopped, not_not, spares_processRequest]
    exact ⟨fun h => h b rfl, by rintro h _ ⟨⟩; exact h⟩

/-- A request to open, to pull or to ask about an endpoint, with the rest of it zero. -/
def Request.plain (func : Func) (eid : ℕ) (shared : Bool) : Request :=
  let seg : RegisterSegment :=
    { rid := 0, eid := 0, sid := 0, firstPageOffset := 0, length := 0, nrPages := 0, nrGrefs := 0,
      gref := fun _ => 0, grefOffset := 0, nrParts := 0 }
  { func, eid, shared
    cur := { id := 0, eid := 0, nrSegments := 0, segs := fun _ => seg }
    dur := { id := 0, eid := 0, nrSegments := 0, segs := fun _ => { rid := 0, eid := 0, sid := 0 } }
    endpoint :=
      { sendqGrefSize := 4, recvqGrefSize := 4, egrefSendqOffset := 0, egrefRecvqOffset := 0 } }

/-- Everything the backend asks for works. -/
def Outcome.fine : Outcome :=
  { memory := true, segment := fun _ => { memory := true, accept := fun _ => .mapped, mapped := true }
    unmap := fun _ _ => true, sendq := true, recvq := true, attached := true, released := true }

/-- The guest makes the requests of the list. -/
def requests (qs : List Request) : List (Act Unit) :=
  qs.map fun request =>
    { guest := { page := fun _ => none, word := fun _ _ => 0 }, outcome := .fine, request }

theorem hostileGuest_spared_pull :
    ∃ s, machine.exec machine.init
        (requests [.plain .xenOpenEndpoint 0 false, .plain .pull 0 false]) = some s ∧ ¬ Stopped s := by
  obtain ⟨s, hs⟩ : ∃ s, machine.exec machine.init
      (requests [.plain .xenOpenEndpoint 0 false, .plain .pull 0 false]) = some s := ⟨_, rfl⟩
  refine ⟨s, hs, (hostileGuest_spared hs).1 ⟨?_, ?_⟩⟩
  · rintro b ⟨⟩ - -
    exact ⟨.inr (by decide), fun _ => .inr (by decide)⟩
  · rintro s' hs'
    cases Option.mem_some_iff.1 hs'
    exact ⟨by rintro b ⟨⟩; exact ⟨by decide, rfl, rfl⟩, fun _ _ => trivial⟩

/-- `endpoints[req->eid]` with a `uint32_t` beyond the table. -/
theorem hostileGuest_not_spared :
    ¬ ∀ (as : List (Act Unit)) (s : Except Fault (Backend Unit)),
      machine.exec machine.init as = some s → ¬ Stopped s :=
  fun h => h (requests [.plain .getBoardInfo 256 false]) (.error .endpoints) rfl
    fun hs => spares_error.1 hs nofun

end Xen2mx.Xenreg
