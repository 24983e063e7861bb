/-
# `Xen2mx.Pull.Timer` — what the retransmission timer finds

The handler of the timer asks for the first block again, and has a `BUG_ON` that the first block
misses frames.  A block that misses none is dropped by the reply that completes it, and the next one
takes its place; after the last one nothing does, and the descriptor stays as it is, with an empty
bitmap, until the handle is completed.

    last reply received      the bitmap of the first descriptor is empty
    lock released            the data of the reply are copied
    lock taken back          the status leaves OK

The timer runs in between, if it expires.  A pull without frames is requested as a block of none,
and is never completed by a reply.

**Proved here.**

    frames of the first block are missing  ⟺  frames are missing, or bytes
                                               remain to be requested      (`Settled.first_iff`)
    the timer finds frames of the first block missing
        ⟺  it does not fire between the last reply and its copies         (`timer_firstBlock_iff`)
-/
import Xen2mx.Pull.Marked
import Xen2mx.Pull.Status

namespace Xen2mx.Pull

open Word

variable {c : Config} {p : CmdPull}

/-! ## The first block -/

/-- The first descriptor is not in use after the last block is done. -/
def NoneLeft (h : Handle) : Prop :=
  h.nrValidBlockDescs = 0 → (h.blockDesc 0).framesMissingBitmap = 0

theorem NoneLeft.firstBlockDone {h : Handle} (hdone : (h.blockDesc 0).framesMissingBitmap = 0) :
    NoneLeft (pullHandleFirstBlockDone c h) := by
  intro hnone
  rw [firstBlockDone_nrValid] at hnone
  rw [firstBlockDone_bitmap_of_ge hnone.le, hdone, ite_self]

theorem NoneLeft.dropDoneBlocks {h : Handle} (hn : NoneLeft h) (n : ℕ) :
    NoneLeft ((dropDoneBlock c)^[n] h) :=
  Function.Iterate.rec NoneLeft hn (fun h hn => by
    obtain ⟨-, hsame⟩ | ⟨-, hdone, hdrop⟩ := dropDoneBlock_cases (c := c) h
    · rw [hsame]
      exact hn
    · rw [hdrop]
      exact .firstBlockDone hdone) n

theorem NoneLeft.prepareNextBlocks {h : Handle} (hn : NoneLeft h)
    (hle : h.nrValidBlockDescs ≤ (Pull.prepareNextBlocks c h).nrValidBlockDescs) :
    NoneLeft (prepareNextBlocks c h) := by
  intro hnone
  have hbehind : Behind (fun i => (h.blockDesc i).framesMissingBitmap)
      (Pull.prepareNextBlocks c h) := Behind.prepareNextBlocks fun _ _ _ => rfl
  exact (hbehind 0 hnone.le (by decide)).trans (hn (Nat.le_zero.1 (hnone ▸ hle)))

/-- A frame of block `b` is missing. -/
def MissesFrame (c : Config) (p : CmdPull) (b : ℕ) (R : Finset ℕ) : Prop :=
  ∃ f, p.blockFrame c b ≤ f ∧ f < p.blockFrame c (b + 1) ∧ f ∉ R

theorem Marked.missesFrame_iff {b nv : ℕ} {R : Finset ℕ} {h : Handle} (hm : Marked c p b nv R h)
    (hnv : nv ≠ 0) : (h.blockDesc 0).framesMissingBitmap ≠ 0 ↔ MissesFrame c p b R := by
  have hpos := Nat.pos_of_ne_zero hnv
  constructor
  · intro hne
    obtain ⟨j, hbit⟩ := Nat.exists_testBit_of_ne_zero hne
    have hend : p.blockFrame c (b + 0) + j < p.blockFrame c (b + 0 + 1) := by
      by_contra hge
      rw [hm.noTail 0 hpos j (Nat.le_of_not_lt hge)] at hbit
      cases hbit
    exact ⟨p.blockFrame c b + j, Nat.le_add_right _ _, hend, (hm.received.bits 0 hpos j hend).1 hbit⟩
  · rintro ⟨f, hlo, hhi, hmiss⟩ hzero
    have hsum : p.blockFrame c (b + 0) + (f - p.blockFrame c b) = f := by
      rw [Nat.add_zero]
      omega
    have hbit := (hm.received.bits 0 hpos (f - p.blockFrame c b) (by rw [hsum]; exact hhi)).2
      (by rw [hsum]; exact hmiss)
    rw [hzero, Nat.zero_testBit] at hbit
    cases hbit

/-- Between two sections: the blocks that are done are dropped, and as many are requested as there
can be. -/
structure Settled (c : Config) (p : CmdPull) (h : Handle) : Prop where
  marked : ∃ b nv R, Marked c p b nv R h ∧ (nv ≠ 0 → MissesFrame c p b R) ∧
    (nv = blockDescsNr ∨ h.remainingLength = 0)
  noneLeft : NoneLeft h

namespace Settled

variable {h : Handle}

theorem withLife (hs : Settled c p h) (st : Status) (rerequested copies : ℕ) :
    Settled c p { h with
      status := st
      alreadyRerequestedBlocks := rerequested
      hostCopyNrFrames := copies } := by
  obtain ⟨b, nv, R, hm, hfirst, hfull⟩ := hs.marked
  exact ⟨⟨b, nv, R, hm.withLife _ _ _, hfirst, hfull⟩, hs.noneLeft⟩

theorem start (hframes : 0 < p.frameCount c) (mem : ℕ → BlockDesc) :
    Settled c p (ioctlPullBlocks c (pullHandleCreate mem p.totalLength p.pulledRdmaOffset)) := by
  obtain ⟨nv, hnv, hm, hfull⟩ := Marked.start (p := p) (fun hnone => absurd hnone hframes.ne') mem
  refine ⟨⟨0, nv, ∅, hm, fun _ => ⟨0, ?_, ?_, Finset.notMem_empty 0⟩, hfull⟩, fun hnone => ?_⟩
  · rw [CmdPull.blockFrame, Nat.zero_mul, Nat.zero_min]
  · rw [CmdPull.blockFrame, Nat.zero_add, Nat.one_mul]
    exact lt_min c.replyPerBlock_pos hframes
  · rw [hm.received.geo.valid] at hnone
    omega

/-- The blocks that are requested next are not received. -/
theorem requestNextBlocks {b nv : ℕ} {R : Finset ℕ} (hframes : 0 < p.frameCount c)
    (hm : Marked c p b (nv + 1) R h) (hdone : (h.blockDesc 0).framesMissingBitmap = 0)
    (allocs : ℕ) : Settled c p (requestNextBlocks c h allocs).1 := by
  obtain ⟨b', nv', nv'', hm', hm'', hle, hfull⟩ :=
    hm.requestNextBlocks (fun hnone => absurd hnone hframes.ne') hdone allocs
  have hvalid' := hm'.received.geo.valid
  have hvalid'' := hm''.received.geo.valid
  have hnr : (pullHandleFirstBlockDone c h).nrValidBlockDescs ≤ blockDescsNr - 1 := by
    have hgeo := hm.received.geo.valid
    have hle := hm.received.le
    rw [firstBlockDone_nrValid]
    omega
  have hstop : doneBlocks ((dropDoneBlock c)^[blockDescsNr - 1] (pullHandleFirstBlockDone c h))
      = 0 := by
    have hd := doneBlocks_le (pullHandleFirstBlockDone c h)
    rw [(dropDoneBlocks_spec _ (hnr.trans (Nat.sub_le ..))).2]
    omega
  refine ⟨⟨b', nv'', R, hm'', fun hne => ?_, hfull⟩, ?_⟩
  · rcases Nat.eq_zero_or_pos nv' with rfl | hpos
    · -- the first block is one of the new ones
      have hinside : b' * c.replyPerBlock < p.frameCount c := by
        rcases hm''.received.geo.inside 0 (Nat.pos_of_ne_zero hne) with hzero | hlt
        · have := hm'.pos
          omega
        · exact hlt
      refine ⟨p.blockFrame c b', le_rfl, ?_, fun hmem => ?_⟩
      · have hP := c.replyPerBlock_pos
        simp only [CmdPull.blockFrame, Nat.succ_mul]
        omega
      · exact absurd (hm'.received.lt _ hmem) (lt_irrefl _)
    · exact (hm'.missesFrame_iff hpos.ne').1
        ((doneBlocks_eq_zero_iff.1 hstop).resolve_left (by omega))
  · have hnone := (NoneLeft.firstBlockDone (c := c) hdone).dropDoneBlocks (c := c) (blockDescsNr - 1)
    rw [requestNextBlocks_fst] at hvalid'' ⊢
    exact hnone.prepareNextBlocks (by omega)

theorem progress {b nv idesc : ℕ} {R : Finset ℕ} (hframes : 0 < p.frameCount c)
    (hm : Marked c p b nv R h) (hfull : nv = blockDescsNr ∨ h.remainingLength = 0)
    (hi : idesc < nv) (allocs : ℕ) :
    Settled c p (progressPullOnRecvPullReply c h idesc allocs).1 := by
  have hne : nv ≠ 0 := Nat.ne_of_gt (Nat.zero_lt_of_lt hi)
  unfold progressPullOnRecvPullReply
  split
  · rename_i hmiss
    have hs : Settled c p h := by
      refine ⟨⟨b, nv, R, hm, fun _ => (hm.missesFrame_iff hne).1 hmiss, hfull⟩, fun hnone => ?_⟩
      exact absurd (hm.received.geo.valid.symm.trans hnone) hne
    split
    · exact hs.withLife _ _ _
    · exact hs
  · rename_i hdone
    obtain ⟨nv, rfl⟩ := Nat.exists_eq_succ_of_ne_zero hne
    exact requestNextBlocks hframes hm (not_not.1 hdone) allocs

/-- Every section leaves a handle settled. -/
theorem next (hframes : 0 < p.frameCount c) {e : Env} {s : State} (hs : Settled c p s.handle)
    (a : Action) : Settled c p (s.next c e a).handle := by
  by_cases ha : ∀ r dma allocs, a ≠ .recvReply r dma allocs
  · obtain ⟨st, rerequested, copies, hhandle⟩ := next_handle_of_not_reply (c := c) (e := e) ha
    rw [hhandle]
    exact hs.withLife _ _ _
  · simp only [not_forall, not_not] at ha
    obtain ⟨r, dma, allocs, rfl⟩ := ha
    show Settled c p (s.recvReply c r dma allocs).handle
    by_cases hdrop : s.handle.status = .ok → checkPullReply c s.handle r = none
    · rw [recvReply_handle_of_none hdrop]
      exact hs
    · obtain ⟨hok, hsome⟩ := Classical.not_imp.1 hdrop
      obtain ⟨⟨idesc, frame⟩, hcheck⟩ := Option.ne_none_iff_exists'.1 hsome
      obtain ⟨b, nv, R, hm, -, hfull⟩ := hs.marked
      obtain ⟨hi, hm'⟩ := hm.receiveFrame hcheck
      obtain ⟨copies, hhandle⟩ := recvReply_handle_of_some dma allocs hok hcheck
      rw [hhandle]
      exact progress hframes (hm'.withLife _ _ copies) hfull hi allocs

/-- The first block misses frames exactly when some are missing or bytes remain to be requested. -/
theorem first_iff (hs : Settled c p h) :
    (h.blockDesc 0).framesMissingBitmap ≠ 0 ↔ h.remainingLength ≠ 0 ∨ h.nrMissingFrames ≠ 0 := by
  obtain ⟨b, nv, R, hm, hfirst, hfull⟩ := hs.marked
  have hvalid := hm.received.geo.valid
  have hsum := hm.received.missing
  by_cases hnv : nv = 0
  · subst hnv
    have hsub : Finset.range (p.blockFrame c b) ⊆ R := fun f hf =>
      hm.received.dropped f (Finset.mem_range.1 hf)
    have hcard := Finset.card_le_card hsub
    rw [Finset.card_range] at hcard
    rw [Nat.add_zero] at hsum
    have hrem : h.remainingLength = 0 := hfull.resolve_left (by decide)
    have hmiss : h.nrMissingFrames = 0 := by omega
    refine iff_of_false (not_not.2 (hs.noneLeft hvalid)) fun hwait => ?_
    exact hwait.elim (absurd hrem) (absurd hmiss)
  · obtain ⟨f, hlo, hhi, hmiss⟩ := hfirst hnv
    have hnext : p.blockFrame c (b + 1) ≤ p.blockFrame c (b + nv) :=
      CmdPull.blockFrame_mono (by omega)
    have hsub : insert f R ⊆ Finset.range (p.blockFrame c (b + nv)) := by
      intro g hg
      rcases Finset.mem_insert.1 hg with rfl | hg
      · exact Finset.mem_range.2 (hhi.trans_le hnext)
      · exact Finset.mem_range.2 (hm.received.lt g hg)
    have hcard := Finset.card_le_card hsub
    rw [Finset.card_insert_of_notMem hmiss, Finset.card_range] at hcard
    exact iff_of_true ((hm.missesFrame_iff hnv).2 ⟨f, hlo, hhi, hmiss⟩) (.inr (by omega))

end Settled

/-! ## A pull without frames -/

/-- A handle that asked for a block without frames, whose bitmap is the mask of none. -/
structure NoFrames (c : Config) (h : Handle) : Prop where
  requested : h.nrRequestedFrames = 0
  remaining : h.remainingLength = 0
  missing : h.nrMissingFrames = 0
  bitmap : (h.blockDesc 0).framesMissingBitmap = c.overshift

theorem NoFrames.start (hframes : p.frameCount c = 0) (mem : ℕ → BlockDesc) :
    NoFrames c (ioctlPullBlocks c (pullHandleCreate mem p.totalLength p.pulledRdmaOffset)) := by
  obtain ⟨nv, -, hr⟩ := Received.start (c := c) (p := p) mem
  have hle := CmdPull.blockFrame_le (c := c) (p := p) (0 + nv)
  have hlen : p.totalLength = 0 :=
    (Nat.add_eq_zero_iff.1 ((pieces_eq_zero_iff c.replyLengthMax_pos).1 hframes)).2
  have hsum := hr.missing
  constructor
  · rw [hr.geo.requested]
    omega
  · rw [hr.geo.remaining]
    omega
  · omega
  · exact bitmap_start_of_empty hframes mem

/-- No reply is one of its frames. -/
theorem NoFrames.next {e : Env} {s : State} (hn : NoFrames c s.handle) (a : Action) :
    NoFrames c (s.next c e a).handle := by
  by_cases ha : ∀ r dma allocs, a ≠ .recvReply r dma allocs
  · obtain ⟨st, rerequested, copies, hhandle⟩ := next_handle_of_not_reply (c := c) (e := e) ha
    rw [hhandle]
    exact ⟨hn.requested, hn.remaining, hn.missing, hn.bitmap⟩
  · simp only [not_forall, not_not] at ha
    obtain ⟨r, dma, allocs, rfl⟩ := ha
    show NoFrames c (s.recvReply c r dma allocs).handle
    rw [recvReply_handle_of_none fun _ => ?_]
    · exact hn
    · cases hcheck : checkPullReply c s.handle r with
      | none => rfl
      | some place =>
          obtain ⟨⟨-, -, hoffset⟩, -⟩ := checkPullReply_eq_some.1 hcheck
          rw [hn.requested] at hoffset
          cases hoffset

/-! ## The timer -/

variable (c p) in
/-- The handle waits for bytes that remain to be requested, or for frames; without frames it depends
on an undefined shift. -/
def Waiting (h : Handle) : Prop :=
  h.remainingLength ≠ 0 ∨ h.nrMissingFrames ≠ 0 ∨ p.frameCount c = 0 ∧ c.overshift ≠ 0

instance : DecidablePred (Waiting c p) := fun h => by
  unfold Waiting
  infer_instance

/-- A timer that fires while the status is OK finds frames of the first block missing. -/
def FirstBlockMissing (s : State) : Action → Prop
  | .timer _ _ => s.handle.status = .ok → (s.handle.blockDesc 0).framesMissingBitmap ≠ 0
  | _ => True

variable (c p) in
/-- A timer does not fire between the last reply and the end of its copies. -/
def TimerWaits (s : State) : Action → Prop
  | .timer _ _ => s.handle.status = .ok → Waiting c p s.handle
  | _ => True

variable (c p) in
/-- Nor does one before the last retransmit time. -/
def TimerWaitsOrExpires (s : State) : Action → Prop
  | .timer false _ => s.handle.status = .ok → Waiting c p s.handle
  | _ => True

instance (s : State) : DecidablePred (TimerWaits c p s)
  | .timer _ _ => inferInstanceAs (Decidable (s.handle.status = .ok → Waiting c p s.handle))
  | .recvReply .. | .hostCopy _ | .finishCopy | .finishFailed _ | .dmaDone _ | .nack _
  | .endpointClose | .delTimer | .notify =>
      inferInstanceAs (Decidable True)

variable (c p) in
/-- What every section keeps of the first block. -/
def FirstBlock (h : Handle) : Prop :=
  0 < p.frameCount c ∧ Settled c p h ∨ p.frameCount c = 0 ∧ NoFrames c h

theorem FirstBlock.start (mem : ℕ → BlockDesc) :
    FirstBlock c p (ioctlPullBlocks c (pullHandleCreate mem p.totalLength p.pulledRdmaOffset)) :=
  (Nat.eq_zero_or_pos (p.frameCount c)).elim (fun hnone => .inr ⟨hnone, .start hnone mem⟩)
    fun hframes => .inl ⟨hframes, .start hframes mem⟩

theorem FirstBlock.next {e : Env} {s : State} (hs : FirstBlock c p s.handle) (a : Action) :
    FirstBlock c p (s.next c e a).handle :=
  hs.imp (fun ⟨hframes, hs⟩ => ⟨hframes, hs.next hframes a⟩) fun ⟨hnone, hn⟩ => ⟨hnone, hn.next a⟩

theorem FirstBlock.waiting_iff {h : Handle} (hs : FirstBlock c p h) :
    (h.blockDesc 0).framesMissingBitmap ≠ 0 ↔ Waiting c p h := by
  rcases hs with ⟨hframes, hs⟩ | ⟨hnone, hn⟩
  · rw [hs.first_iff, Waiting]
    refine or_congr_right ⟨.inl, fun h => h.resolve_right fun hshift => ?_⟩
    exact hframes.ne' hshift.1
  · rw [hn.bitmap, Waiting, or_iff_right (not_not.2 hn.remaining),
      or_iff_right (not_not.2 hn.missing), and_iff_right hnone]

theorem FirstBlock.missing_iff {s : State} (hs : FirstBlock c p s.handle) (a : Action) :
    FirstBlockMissing s a ↔ TimerWaits c p s a := by
  cases a with
  | timer expired allocs => exact imp_congr_right fun _ => hs.waiting_iff
  | _ => exact Iff.rfl

theorem markCompleted_bug_ne {s : State} (t : PullDone) (hs : s.bug = none) :
    (s.markCompleted t).bug ≠ some .timerFirstBlock := by
  unfold State.markCompleted
  split
  · exact nofun
  · rw [hs]
    exact nofun

/-- Only the timer runs into the `BUG_ON` on the first block. -/
theorem timerWaitsOrExpires_iff {e : Env} {s : State} (hs : FirstBlock c p s.handle)
    (hbug : s.bug = none) (a : Action) :
    TimerWaitsOrExpires c p s a ↔ ¬ (s.next c e a).bug = some .timerFirstBlock := by
  have hsame : ∀ s' : State, s'.bug = s.bug → (True ↔ ¬ s'.bug = some .timerFirstBlock) := by
    intro s' hbug'
    rw [hbug', hbug]
    exact iff_of_true trivial nofun
  have hdone : ∀ (s' : State) (t : PullDone), s'.bug = none →
      (True ↔ ¬ (s'.markCompleted t).bug = some .timerFirstBlock) := fun s' t hbug' =>
    iff_of_true trivial (markCompleted_bug_ne t hbug')
  cases a with
  | recvReply r dma allocs => exact hsame _ (recvReply_bug ..)
  | hostCopy r => exact hsame _ (hostCopy_bug ..)
  | finishCopy =>
      show True ↔ ¬ s.finishCopy.bug = _
      unfold State.finishCopy
      split
      · exact hsame _ rfl
      · split
        · exact hdone _ _ hbug
        · exact hsame _ rfl
  | finishFailed r => exact hdone _ _ hbug
  | dmaDone r => exact hsame _ rfl
  | nack t =>
      show True ↔ ¬ (s.nack t).bug = _
      unfold State.nack
      split
      · exact hsame _ rfl
      · exact hdone _ _ hbug
  | timer expired allocs =>
      show _ ↔ ¬ (s.timer c expired allocs).bug = _
      cases expired with
      | true =>
          show True ↔ _
          unfold State.timer
          split
          · split
            · exact iff_of_true trivial nofun
            · exact hsame _ rfl
          · rw [if_pos rfl]
            exact hdone _ _ hbug
      | false =>
          show (s.handle.status = .ok → Waiting c p s.handle) ↔ _
          rw [← hs.waiting_iff]
          unfold State.timer
          split
          · rename_i hstatus
            refine (iff_of_true (fun hok => absurd hok hstatus) ?_)
            split
            · exact nofun
            · exact (hsame _ rfl).1 trivial
          · rename_i hstatus
            rw [imp_iff_right (not_not.1 hstatus), if_neg Bool.false_ne_true]
            split
            · rename_i hzero
              exact iff_of_false (not_not.2 hzero) (not_not.2 rfl)
            · rename_i hmiss
              exact iff_of_true hmiss ((hsame _ rfl).1 trivial)
  | endpointClose =>
      show True ↔ ¬ s.endpointClose.bug = _
      unfold State.endpointClose
      split
      · exact hsame _ rfl
      · exact hsame _ rfl
  | delTimer =>
      show True ↔ ¬ s.delTimer.bug = _
      unfold State.delTimer
      split
      · split
        · exact iff_of_true trivial nofun
        · exact hsame _ rfl
      · split
        · exact iff_of_true trivial nofun
        · exact hsame _ rfl
  | notify => exact hsame _ rfl

/-! ## The result -/

/-- For every pull and every run of its sections, with any replies: each time the timer fires and the
status is OK it finds frames of the first block missing, and the `BUG_ON` is not reached, exactly when
it only fires while frames are missing or bytes remain to be requested. -/
theorem timer_firstBlock_iff (c : Config) (e : Env) (p : CmdPull) (mem : ℕ → BlockDesc)
    (allocs : ℕ) (as : List Action) {s : State}
    (h : (pullMachine c e (ioctlPull c mem p.totalLength p.pulledRdmaOffset allocs)).exec
      (ioctlPull c mem p.totalLength p.pulledRdmaOffset allocs) as = some s) :
    ((pullMachine c e (ioctlPull c mem p.totalLength p.pulledRdmaOffset allocs)).Meets
          FirstBlockMissing (ioctlPull c mem p.totalLength p.pulledRdmaOffset allocs) as ∧
        s.bug ≠ some .timerFirstBlock ↔
      (pullMachine c e (ioctlPull c mem p.totalLength p.pulledRdmaOffset allocs)).Meets
        (TimerWaits c p) (ioctlPull c mem p.totalLength p.pulledRdmaOffset allocs) as) ∧
    -- For the `BUG_ON` alone it is enough to look at the timers before the last retransmit time.
    (s.bug ≠ some .timerFirstBlock ↔
      (pullMachine c e (ioctlPull c mem p.totalLength p.pulledRdmaOffset allocs)).Meets
        (TimerWaitsOrExpires c p) (ioctlPull c mem p.totalLength p.pulledRdmaOffset allocs) as) := by
  have hstart : FirstBlock c p (ioctlPull c mem p.totalLength p.pulledRdmaOffset allocs).handle :=
    .start mem
  have hnext : ∀ (s : State) (a : Action) (s' : State), FirstBlock c p s.handle →
      (pullMachine c e (ioctlPull c mem p.totalLength p.pulledRdmaOffset allocs)).step s a
        = some s' → FirstBlock c p s'.handle := by
    intro s a s' hs hstep
    obtain ⟨-, rfl⟩ := (pullMachine_step ..).1 hstep
    exact hs.next a
  have hbug : (pullMachine c e (ioctlPull c mem p.totalLength p.pulledRdmaOffset allocs)).Meets
      (TimerWaitsOrExpires c p) (ioctlPull c mem p.totalLength p.pulledRdmaOffset allocs) as ↔
        s.bug ≠ some .timerFirstBlock := by
    refine Machine.meets_iff_not (I := fun s => FirstBlock c p s.handle)
      (B := fun s => s.bug = some .timerFirstBlock) hnext ?_ hstart
      (show (none : Option BugSite) ≠ some .timerFirstBlock from nofun) h
    intro s a s' hs hstep
    obtain ⟨⟨hnone, -⟩, rfl⟩ := (pullMachine_step ..).1 hstep
    refine ⟨?_, timerWaitsOrExpires_iff hs hnone a⟩
    rw [hnone]
    exact nofun
  refine ⟨?_, hbug.symm⟩
  rw [Machine.meets_congr (I := fun s => FirstBlock c p s.handle) hnext
    (fun s a hs => hs.missing_iff a) hstart, ← hbug, ← Machine.meets_and]
  refine Machine.meets_congr (I := fun s => FirstBlock c p s.handle) hnext ?_ hstart
  intro s a _
  refine and_iff_left_of_imp fun hwaits => ?_
  cases a with
  | timer expired allocs =>
      cases expired with
      | true => trivial
      | false => exact hwaits
  | _ => trivial

/-- Two frames, and the timer before the second one. -/
theorem timer_firstBlock_iff_twoFrames :
    ∃ s, (pullMachine defaultConfig ⟨fun _ _ => true, 10000⟩
        (ioctlPull defaultConfig (fun _ => ⟨0, 0, 0, 0⟩) 10000 0 1)).exec
      (ioctlPull defaultConfig (fun _ => ⟨0, 0, 0, 0⟩) 10000 0 1)
      [.recvReply ⟨1, 1032, 8968, 1032, 8968⟩ false 1, .timer false 4,
        .hostCopy ⟨1, 1032, 8968, 1032, 8968⟩, .recvReply ⟨0, 8968, 0, 8968, 0⟩ true 1] = some s ∧
      s.bug ≠ some .timerFirstBlock := by
  obtain ⟨s, hs⟩ : ∃ s, (pullMachine defaultConfig ⟨fun _ _ => true, 10000⟩
        (ioctlPull defaultConfig (fun _ => ⟨0, 0, 0, 0⟩) 10000 0 1)).exec
      (ioctlPull defaultConfig (fun _ => ⟨0, 0, 0, 0⟩) 10000 0 1)
      [.recvReply ⟨1, 1032, 8968, 1032, 8968⟩ false 1, .timer false 4,
        .hostCopy ⟨1, 1032, 8968, 1032, 8968⟩, .recvReply ⟨0, 8968, 0, 8968, 0⟩ true 1] = some s :=
    Option.isSome_iff_exists.1 (by decide +kernel)
  exact ⟨s, hs, ((timer_firstBlock_iff defaultConfig ⟨fun _ _ => true, 10000⟩
    ⟨10000, 0, by decide, by decide⟩ (fun _ => ⟨0, 0, 0, 0⟩) 1 _ hs).1.2 (by decide +kernel)).2⟩

/-- The only reply of a pull is being copied when the timer fires; and a pull of nothing, where
shifting the bitmask gives nothing, waits for no reply. -/
theorem timer_firstBlock_reached :
    ((pullMachine defaultConfig ⟨fun _ _ => true, 100⟩
        (ioctlPull defaultConfig (fun _ => ⟨0, 0, 0, 0⟩) 100 0 1)).exec
      (ioctlPull defaultConfig (fun _ => ⟨0, 0, 0, 0⟩) 100 0 1)
      [.recvReply ⟨0, 100, 0, 100, 0⟩ false 1, .timer false 4]).map State.bug
        = some (some .timerFirstBlock) ∧
    ((pullMachine mxWireConfig ⟨fun _ _ => true, 100⟩
        (ioctlPull mxWireConfig (fun _ => ⟨0, 0, 0, 0⟩) 0 0 1)).exec
      (ioctlPull mxWireConfig (fun _ => ⟨0, 0, 0, 0⟩) 0 0 1) [.timer false 4]).map State.bug
        = some (some .timerFirstBlock) := by
  decide +kernel

end Xen2mx.Pull
