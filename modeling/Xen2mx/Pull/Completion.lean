/-
# `Xen2mx.Pull.Completion` — a pull that succeeds has all its bytes

While the status of a handle is OK, every frame it has received is in the hands of a
copy, in those of the DMA engine or in the local region (`Collecting`).  A success is
decided when nothing is missing and no copy is pending, and reported when the DMA
engine is done (`Sound`).

The gap is in the descriptors.  `omx_pull_handle_create` clears the bitmaps of all of
them but the last, and the timer asks again for every block whose bitmap is not empty.
If the last descriptor was never filled it asks for whatever `kmalloc` left there, and
the answer may be shorter than the frame that it is taken for.

**Proved here.**

    the timer asks for the last block only if it is valid  ⟹
      at most one event is reported, and a success only with every byte copied   (`pullDone_complete`)
-/
import Xen2mx.Pull.Received
import Xen2mx.Pull.Status

namespace Xen2mx.Pull

open Word

variable {c : Config} {p : CmdPull}

/-! ## Requests -/

/-- What a handle asks for is a block of the pull that was requested before, as long as
the last descriptor is only used when it is valid. -/
theorem Received.mem_postBlocks {b nv : ℕ} {R : Finset ℕ} {h : Handle} {is : List ℕ} {q : Request}
    (hr : Received c p b nv R h)
    (his : ∀ i ∈ is, i < nv ∨ i < blockDescsNr - 1 ∧ (h.blockDesc i).framesMissingBitmap ≠ 0)
    (hq : q ∈ postBlocks c h is) : ∃ k < b + nv, p.InPull c k ∧ q = p.blockRequest c k := by
  obtain ⟨i, hi, rfl⟩ := List.mem_map.1 hq
  rcases his i hi with hvalid | ⟨hlt, hne⟩
  · exact ⟨b + i, by omega, hr.geo.inside i hvalid, hr.geo.fillPullBlockRequest hvalid⟩
  · obtain ⟨k, hk, hin, hblock⟩ := hr.stale i hlt hne
    exact ⟨k, hk, hin, hblock.fillPullBlockRequest hr.geo.pulledRdmaOffset⟩

/-- The requests that follow a reply. -/
theorem Received.progress {b nv idesc allocs : ℕ} {R : Finset ℕ} {h h' : Handle}
    {requests : List Request} (hr : Received c p b nv R h) (hi : idesc < nv)
    (hp : progressPullOnRecvPullReply c h idesc allocs = (h', requests)) :
    ∃ b' nv', b + nv ≤ b' + nv' ∧ Received c p b' nv' R h' ∧
      ∀ q ∈ requests, ∃ k < b' + nv', p.InPull c k ∧ q = p.blockRequest c k := by
  unfold progressPullOnRecvPullReply at hp
  split at hp
  · split at hp
    · cases hp
      refine ⟨b, nv, le_rfl, hr.withLife _ _ _, fun q hq => hr.mem_postBlocks (fun i hi' => ?_) hq⟩
      have hmem := List.mem_range'_1.1 (List.mem_of_mem_filter (List.mem_of_mem_take hi'))
      exact .inl (by omega)
    · cases hp
      exact ⟨b, nv, le_rfl, hr, fun q hq => absurd hq List.not_mem_nil⟩
  · rename_i hdone
    obtain ⟨nv, rfl⟩ := Nat.exists_eq_succ_of_ne_zero (Nat.ne_of_gt (Nat.zero_lt_of_lt hi))
    obtain ⟨b₁, nv₁, hsum, hr₁⟩ := (hr.firstBlockDone (not_not.1 hdone)).dropDoneBlocks
      (blockDescsNr - 1)
    obtain ⟨nv₂, hle, hr₂⟩ := hr₁.prepareNextBlocks (by omega)
    have hh : Pull.prepareNextBlocks c ((Pull.dropDoneBlock c)^[blockDescsNr - 1]
        (pullHandleFirstBlockDone c h)) = h' := by
      rw [← requestNextBlocks_fst c h allocs, hp]
    have hq := congrArg Prod.snd hp
    simp only [requestNextBlocks] at hq
    rw [hh] at hq hr₂
    refine ⟨b₁, nv₂, by omega, hr₂, fun q hmem => hr₂.mem_postBlocks (fun i hi' => ?_) (hq ▸ hmem)⟩
    have hmem := List.mem_range'_1.1 (List.mem_of_mem_take hi')
    rw [hr₂.geo.valid, hr₁.geo.valid] at hmem
    exact .inl (by omega)

/-! ## Replies of the pull -/

/-- The network delivers what a replier answers to the requests sent. -/
def pullReplies (c : Config) (regionLength : ℕ) (requests : List Request) (r : Reply) : Bool :=
  requests.any fun q => (recvPullRequest c regionLength q).any fun s => decide (r ∈ s.replies)

theorem pullReplies_iff {regionLength : ℕ} {requests : List Request} {r : Reply} :
    pullReplies c regionLength requests r = true ↔
      ∃ q ∈ requests, ∃ s, recvPullRequest c regionLength q = some s ∧ r ∈ s.replies := by
  simp only [pullReplies, List.any_eq_true, Option.any_eq_true, decide_eq_true_eq]

theorem pullReplies_append {regionLength : ℕ} {requests requests' : List Request} {r : Reply}
    (h : pullReplies c regionLength requests r = true) :
    pullReplies c regionLength (requests ++ requests') r = true := by
  rw [pullReplies, List.any_append, Bool.or_eq_true]
  exact .inl h

/-- A reply to a block of the pull is one of its frames. -/
theorem frame_of_pullReplies {regionLength n : ℕ} {requests : List Request} {r : Reply}
    (hq : ∀ q ∈ requests, ∃ k < n, p.InPull c k ∧ q = p.blockRequest c k)
    (h : pullReplies c regionLength requests r = true) :
    ∃ k < n, ∃ f regionOffset, p.blockFrame c k ≤ f ∧ f < p.blockFrame c (k + 1) ∧
      r = frameReply c p f regionOffset := by
  obtain ⟨q, hmem, s, hs, hr⟩ := pullReplies_iff.1 h
  obtain ⟨k, hk, hin, rfl⟩ := hq q hmem
  rw [recvPullRequest_block hin] at hs
  dsimp only at hs
  split at hs
  · cases hs
  · cases hs
    obtain ⟨f, hf, rfl⟩ := List.mem_map.1 hr
    have hf := List.mem_range'_1.1 hf
    exact ⟨k, hk, f, _, hf.1, by omega, rfl⟩

/-! ## Frames in hand -/

variable (c p) in
/-- Frame `f` has bytes in one of the replies `rs`, if it has any. -/
def Carried (rs : List Reply) (f : ℕ) : Prop :=
  p.frameLength c f = 0 ∨ ∃ r ∈ rs, r.msgOffset = p.cut c f ∧ r.frameLength = p.frameLength c f

theorem Carried.mono {rs rs' : List Reply} {f : ℕ} (h : Carried c p rs f) (hsub : rs ⊆ rs') :
    Carried c p rs' f :=
  h.imp_right fun ⟨r, hr, hframe⟩ => ⟨r, hsub hr, hframe⟩

/-- The replies that a handle has taken. -/
def State.taken (s : State) : List Reply := s.copying ++ s.copyFailed ++ s.dmaPending ++ s.copied

/-- The agents that have yet to take the lock back. -/
def State.pendingCopies (s : State) : ℕ := s.copying.length + s.copyFailed.length + s.finishing

variable (c p) in
/-- A handle in use: it dropped `b` blocks, requested `nv` more and received the frames `R`. -/
structure Collecting (b nv : ℕ) (R : Finset ℕ) (s : State) : Prop where
  received : Received c p b nv R s.handle
  pos : 1 ≤ b + nv
  requests : ∀ q ∈ s.requests, ∃ k < b + nv, p.InPull c k ∧ q = p.blockRequest c k
  carried : ∀ f ∈ R, Carried c p s.taken f
  copies : s.handle.hostCopyNrFrames = s.pendingCopies
  bound : s.pendingCopies ≤ R.card

variable (c p) in
/-- What holds along every run: a handle in use collects frames, and one that reports a
success has them all. -/
structure Sound (regionLength : ℕ) (s : State) : Prop where
  collecting : s.handle.status = .ok → ∃ b nv R, Collecting c p b nv R s
  pending : .success ∈ s.notifying → ∀ f < p.frameCount c, Carried c p (s.dmaPending ++ s.copied) f
  reported : .success ∈ s.events → ∀ f < p.frameCount c, Carried c p s.copied f
  ofPull : ∀ r ∈ s.copying ++ s.dmaPending ++ s.copied,
    pullReplies c regionLength s.requests r = true

theorem Received.card_lt {b nv : ℕ} {R : Finset ℕ} {h : Handle} (hr : Received c p b nv R h) :
    R.card < 2 ^ 32 := by
  have hsum := hr.missing
  have hlt := CmdPull.blockFrame_lt (c := c) (p := p) (b + nv)
  omega

/-- When nothing is missing and nothing remains to be asked for, all frames are there. -/
theorem Received.all {b nv : ℕ} {R : Finset ℕ} {h : Handle} (hr : Received c p b nv R h)
    (hpos : 1 ≤ b + nv) (hrem : h.remainingLength = 0) (hmiss : h.nrMissingFrames = 0) :
    ∀ f < p.frameCount c, f ∈ R := by
  have hcut := CmdPull.cut_le (c := c) (p := p) ((b + nv) * c.replyPerBlock)
  have hgeo := hr.geo.remaining
  have hsum := hr.missing
  rw [hrem] at hgeo
  rw [hmiss, Nat.zero_add] at hsum
  have hcount : p.frameCount c ≤ (b + nv) * c.replyPerBlock :=
    (CmdPull.cut_eq_totalLength_iff (Nat.mul_pos hpos c.replyPerBlock_pos)).1 (by omega)
  rw [CmdPull.blockFrame, Nat.min_eq_right hcount] at hsum
  have hsub : R ⊆ Finset.range (p.frameCount c) := fun f hf =>
    Finset.mem_range.2 ((hr.lt f hf).trans_le (CmdPull.blockFrame_le _))
  have heq : R = Finset.range (p.frameCount c) :=
    Finset.eq_of_subset_of_card_le hsub (by rw [Finset.card_range, hsum])
  intro f hf
  rw [heq]
  exact Finset.mem_range.2 hf

/-! ## One section at a time -/

theorem Accounted.quiet {s : State} (hs : Accounted s) (hok : s.handle.status = .ok) :
    s.notifying = [] ∧ s.events = [] := by
  have hfrees := hs.slotFrees
  have hreports := hs.reports
  rw [if_pos hok] at hfrees
  exact ⟨List.length_eq_zero_iff.1 (by omega), List.length_eq_zero_iff.1 (by omega)⟩

namespace Sound

variable {regionLength : ℕ} {s s' : State}

/-- A handle in use has reported nothing. -/
theorem of_collecting {b nv : ℕ} {R : Finset ℕ} (hs : Accounted s') (hok : s'.handle.status = .ok)
    (hc : Collecting c p b nv R s') (hof : ∀ r ∈ s'.copying ++ s'.dmaPending ++ s'.copied,
      pullReplies c regionLength s'.requests r = true) : Sound c p regionLength s' := by
  obtain ⟨hnotifying, hevents⟩ := hs.quiet hok
  refine ⟨fun _ => ⟨b, nv, R, hc⟩, ?_, ?_, hof⟩
  · rw [hnotifying]
    exact nofun
  · rw [hevents]
    exact nofun

/-- Replies pass from one agent to the next, and nothing else happens. -/
theorem moved (hs : Sound c p regionLength s) (hhandle : s'.handle = s.handle)
    (hrequests : s'.requests = s.requests) (hnotifying : s'.notifying = s.notifying)
    (hevents : s'.events = s.events) (htaken : s.taken ⊆ s'.taken)
    (hlanded : s.dmaPending ++ s.copied ⊆ s'.dmaPending ++ s'.copied)
    (hcopied : s.copied ⊆ s'.copied) (hcount : s'.pendingCopies = s.pendingCopies)
    (hof : s'.copying ++ s'.dmaPending ++ s'.copied ⊆ s.copying ++ s.dmaPending ++ s.copied) :
    Sound c p regionLength s' where
  collecting := by
    intro hok
    rw [hhandle] at hok
    obtain ⟨b, nv, R, hc⟩ := hs.collecting hok
    refine ⟨b, nv, R, by rw [hhandle]; exact hc.received, hc.pos, by rw [hrequests]; exact hc.requests,
      fun f hf => (hc.carried f hf).mono htaken, ?_, by rw [hcount]; exact hc.bound⟩
    rw [hhandle, hcount]
    exact hc.copies
  pending := by
    intro hmem f hf
    rw [hnotifying] at hmem
    exact (hs.pending hmem f hf).mono hlanded
  reported := by
    intro hmem f hf
    rw [hevents] at hmem
    exact (hs.reported hmem f hf).mono hcopied
  ofPull := by
    intro r hr
    rw [hrequests]
    exact hs.ofPull r (hof hr)

/-- The handle is done, and not with a success. -/
theorem done (hs : Sound c p regionLength s) (hstatus : s'.handle.status ≠ .ok)
    (hrequests : s'.requests = s.requests)
    (hnotifying : .success ∈ s'.notifying → .success ∈ s.notifying)
    (hevents : s'.events = s.events) (hcopying : s'.copying = s.copying)
    (hdma : s'.dmaPending = s.dmaPending) (hcopied : s'.copied = s.copied) :
    Sound c p regionLength s' where
  collecting := fun hok => absurd hok hstatus
  pending := by
    intro hmem
    rw [hdma, hcopied]
    exact hs.pending (hnotifying hmem)
  reported := by
    intro hmem
    rw [hevents] at hmem
    rw [hcopied]
    exact hs.reported hmem
  ofPull := by
    intro r hr
    rw [hcopying, hdma, hcopied] at hr
    rw [hrequests]
    exact hs.ofPull r hr

theorem withBug (hs : Sound c p regionLength s) (site : BugSite) :
    Sound c p regionLength { s with bug := some site } :=
  hs.moved rfl rfl rfl rfl (List.Subset.refl _) (List.Subset.refl _) (List.Subset.refl _) rfl
    (List.Subset.refl _)

theorem markCompleted (hs : Sound c p regionLength s) {t : PullDone} (ht : t ≠ .success) :
    Sound c p regionLength (s.markCompleted t) := by
  unfold State.markCompleted
  split
  · exact hs.withBug _
  · refine hs.done nofun rfl (fun hmem => ?_) rfl rfl rfl rfl
    rcases List.mem_append.1 hmem with hmem | hmem
    · exact hmem
    · exact absurd (List.mem_singleton.1 hmem).symm ht

theorem timerExit (hs : Sound c p regionLength s) : Sound c p regionLength s.timerExit :=
  hs.done nofun rfl id rfl rfl rfl rfl

/-- A reply is taken: its frame was missing, and is in hand now. -/
theorem took (ha' : Accounted s') (hs : Sound c p regionLength s) {r : Reply} {allocs : ℕ}
    {h : Handle} {requests : List Request} (hok : s.handle.status = .ok)
    (hr : pullReplies c regionLength s.requests r = true)
    (hrecv : recvPullReply c s.handle r allocs = some (h, requests)) (hhandle : s'.handle = h)
    (hrequests : s'.requests = s.requests ++ requests) (htaken : s.taken ⊆ s'.taken)
    (hin : r.frameLength = 0 ∨ r ∈ s'.taken) (hcount : s'.pendingCopies = s.pendingCopies + 1)
    (hof : s'.copying ++ s'.dmaPending ++ s'.copied ⊆
      r :: (s.copying ++ s.dmaPending ++ s.copied)) : Sound c p regionLength s' := by
  obtain ⟨b, nv, R, hc⟩ := hs.collecting hok
  obtain ⟨k, hk, f, regionOffset, hlo, hhi, hframe⟩ := frame_of_pullReplies hc.requests hr
  obtain ⟨hst, hcopy⟩ := recvPullReply_status hrecv
  rw [recvPullReply, Option.map_eq_some_iff] at hrecv
  obtain ⟨⟨idesc, frame⟩, hcheck, hprogress⟩ := hrecv
  obtain ⟨hi, heq, hend, hnew⟩ := hc.received.accepted hk hlo hhi hframe hcheck
  have hreceived := (hc.received.receiveFrame hi (heq ▸ hend) (heq ▸ hnew)).withLife
    (receiveFrame c s.handle idesc frame).status
    (receiveFrame c s.handle idesc frame).alreadyRerequestedBlocks
    (wrap 32 ((receiveFrame c s.handle idesc frame).hostCopyNrFrames + 1))
  rw [heq] at hreceived
  obtain ⟨b', nv', hle, hreceived', hposted⟩ := hreceived.progress hi hprogress
  have hcard : (insert f R).card = R.card + 1 := Finset.card_insert_of_notMem hnew
  have hlt := hreceived'.card_lt
  have hbound := hc.bound
  rw [← hhandle] at hst hcopy hreceived'
  refine of_collecting ha' (hst.trans hok)
    ⟨hreceived', hc.pos.trans hle, ?_, ?_, ?_, ?_⟩ ?_
  · intro q hq
    rw [hrequests] at hq
    rcases List.mem_append.1 hq with hq | hq
    · obtain ⟨k, hk, hblock⟩ := hc.requests q hq
      exact ⟨k, by omega, hblock⟩
    · exact hposted q hq
  · intro g hg
    rcases Finset.mem_insert.1 hg with rfl | hg
    · rcases hin with hzero | hmem
      · rw [hframe] at hzero
        exact .inl hzero
      · exact .inr ⟨r, hmem, by rw [hframe]; rfl, by rw [hframe]; rfl⟩
    · exact (hc.carried g hg).mono htaken
  · rw [hcopy, hc.copies, wrap_of_lt (by omega), hcount]
  · omega
  · intro x hx
    rw [hrequests]
    rcases List.mem_cons.1 (hof hx) with rfl | hx
    · exact pullReplies_append hr
    · exact pullReplies_append (hs.ofPull x hx)

theorem recvReply (ha : Accounted s) (hs : Sound c p regionLength s) {r : Reply} {dma : Bool}
    {allocs : ℕ} (hr : pullReplies c regionLength s.requests r = true) :
    Sound c p regionLength (s.recvReply c r dma allocs) := by
  have ha' := ha.recvReply (c := c) r dma allocs
  unfold State.recvReply at ha' ⊢
  split
  · exact hs
  · rename_i hstatus
    rw [if_neg hstatus] at ha'
    split
    · exact hs
    · rename_i h requests hrecv
      rw [hrecv] at ha'
      dsimp only at ha'
      split
      · rename_i hdma
        rw [if_pos hdma] at ha'
        refine took ha' hs (not_not.1 hstatus) hr hrecv rfl rfl ?_ (.inr ?_) ?_ ?_
        · intro x hx
          simp only [State.taken, List.mem_append, List.mem_cons] at hx ⊢
          tauto
        · simp only [State.taken, List.mem_append, List.mem_cons]
          tauto
        · simp only [State.pendingCopies]
          omega
        · intro x hx
          simp only [List.mem_append, List.mem_cons] at hx ⊢
          tauto
      · rename_i hdma
        rw [if_neg hdma] at ha'
        split
        · rename_i hzero
          rw [if_pos hzero] at ha'
          exact took ha' hs (not_not.1 hstatus) hr hrecv rfl rfl (List.Subset.refl _) (.inl hzero)
            (Nat.add_assoc ..).symm (List.subset_cons_self _ _)
        · rename_i hzero
          rw [if_neg hzero] at ha'
          refine took ha' hs (not_not.1 hstatus) hr hrecv rfl rfl ?_ (.inr ?_) ?_ ?_
          · intro x hx
            simp only [State.taken, List.mem_append, List.mem_cons] at hx ⊢
            tauto
          · simp only [State.taken, List.mem_append, List.mem_cons]
            tauto
          · simp only [State.pendingCopies, List.length_cons]
            omega
          · intro x hx
            simp only [List.mem_append, List.mem_cons] at hx ⊢
            tauto

theorem hostCopy (hs : Sound c p regionLength s) {r : Reply} (hr : r ∈ s.copying)
    (localLength : ℕ) : Sound c p regionLength (s.hostCopy localLength r) := by
  have hsplit : ∀ x ∈ s.copying, x = r ∨ x ∈ s.copying.erase r := fun x hx =>
    List.mem_cons.1 ((List.perm_cons_erase hr).subset hx)
  have hsub : ∀ x ∈ s.copying.erase r, x ∈ s.copying := List.erase_subset
  have hlen := List.length_erase_of_mem hr
  have hpos := List.length_pos_of_mem hr
  unfold State.hostCopy
  dsimp only
  split
  · refine hs.moved rfl rfl rfl rfl ?_ (List.Subset.refl _) (List.Subset.refl _) ?_ ?_
    · intro x hx
      simp only [State.taken, List.mem_append, List.mem_cons] at hx ⊢
      have := hsplit x
      tauto
    · simp only [State.pendingCopies, List.length_cons]
      omega
    · intro x hx
      simp only [List.mem_append] at hx ⊢
      have := hsub x
      tauto
  · refine hs.moved rfl rfl rfl rfl ?_ ?_ (List.subset_cons_self _ _) ?_ ?_
    · intro x hx
      simp only [State.taken, List.mem_append, List.mem_cons] at hx ⊢
      have := hsplit x
      tauto
    · intro x hx
      simp only [List.mem_append, List.mem_cons] at hx ⊢
      tauto
    · simp only [State.pendingCopies]
      omega
    · intro x hx
      simp only [List.mem_append, List.mem_cons] at hx ⊢
      rcases hx with (hx | hx) | rfl | hx
      · exact .inl (.inl (hsub x hx))
      · exact .inl (.inr hx)
      · exact .inl (.inl hr)
      · exact .inr hx

theorem dmaDone (hs : Sound c p regionLength s) {r : Reply} (hr : r ∈ s.dmaPending) :
    Sound c p regionLength
      { s with dmaPending := s.dmaPending.erase r, copied := r :: s.copied } := by
  have hsplit : ∀ x ∈ s.dmaPending, x = r ∨ x ∈ s.dmaPending.erase r := fun x hx =>
    List.mem_cons.1 ((List.perm_cons_erase hr).subset hx)
  have hsub : ∀ x ∈ s.dmaPending.erase r, x ∈ s.dmaPending := List.erase_subset
  refine hs.moved rfl rfl rfl rfl ?_ ?_ (List.subset_cons_self _ _) rfl ?_
  · intro x hx
    simp only [State.taken, List.mem_append, List.mem_cons] at hx ⊢
    have := hsplit x
    tauto
  · intro x hx
    simp only [List.mem_append, List.mem_cons] at hx ⊢
    have := hsplit x
    tauto
  · intro x hx
    simp only [List.mem_append, List.mem_cons] at hx ⊢
    rcases hx with (hx | hx) | rfl | hx
    · exact .inl (.inl hx)
    · exact .inl (.inr (hsub x hx))
    · exact .inl (.inr hr)
    · exact .inr hx

theorem finishFailed (hs : Sound c p regionLength s) (r : Reply) :
    Sound c p regionLength (s.finishFailed r) := by
  unfold State.finishFailed State.markCompleted
  dsimp only
  split
  · rename_i hstatus
    exact hs.done hstatus rfl id rfl rfl rfl rfl
  · refine hs.done nofun rfl (fun hmem => ?_) rfl rfl rfl rfl
    rcases List.mem_append.1 hmem with hmem | hmem
    · exact hmem
    · cases List.mem_singleton.1 hmem

/-- A copy takes the lock back; if it was the last and nothing is missing, the pull is a
success. -/
theorem finishCopy (hs : Sound c p regionLength s) (hfinish : 0 < s.finishing) :
    Sound c p regionLength s.finishCopy := by
  unfold State.finishCopy
  split
  · rename_i hstatus
    exact hs.done hstatus rfl id rfl rfl rfl rfl
  · rename_i hstatus
    have hok := not_not.1 hstatus
    obtain ⟨b, nv, R, hc⟩ := hs.collecting hok
    have hcount : s.copyDone.pendingCopies + 1 = s.pendingCopies := by
      simp only [State.copyDone, State.pendingCopies]
      omega
    have hbound := hc.bound
    have hlt := hc.received.card_lt
    have hcopies : s.copyDone.handle.hostCopyNrFrames = s.copyDone.pendingCopies := by
      show sub 32 s.handle.hostCopyNrFrames 1 = _
      rw [hc.copies, sub_of_le (by omega) (by omega), ← hcount, Nat.add_sub_cancel]
    have hc' : Collecting c p b nv R s.copyDone :=
      ⟨hc.received.withLife _ _ _, hc.pos, hc.requests, hc.carried, hcopies, by omega⟩
    split
    · rename_i hdone
      obtain ⟨hrem, hmiss, hzero⟩ := hdone
      have hall := hc'.received.all hc'.pos hrem hmiss
      rw [hcopies, State.pendingCopies] at hzero
      have hcopying : s.copying = [] := List.length_eq_zero_iff.1 (by
        show s.copyDone.copying.length = 0
        omega)
      have hfailed : s.copyFailed = [] := List.length_eq_zero_iff.1 (by
        show s.copyDone.copyFailed.length = 0
        omega)
      have hok' : ¬ s.copyDone.handle.status ≠ .ok := not_not.2 hok
      rw [State.markCompleted, if_neg hok']
      refine ⟨by rintro ⟨⟩, ?_, hs.reported, hs.ofPull⟩
      intro _ f hf
      have hcarried := hc.carried f (hall f hf)
      rw [State.taken, hcopying, hfailed, List.nil_append, List.nil_append] at hcarried
      exact hcarried
    · exact ⟨fun _ => ⟨b, nv, R, hc'⟩, hs.pending, hs.reported, hs.ofPull⟩

theorem nack (hs : Sound c p regionLength s) (t : NackType) :
    Sound c p regionLength (s.nack t) := by
  unfold State.nack
  split
  · exact hs
  · refine hs.markCompleted ?_
    cases t <;> exact nofun

/-- When the timer asks again for the last block, it must be valid. -/
theorem timer (hs : Sound c p regionLength s) {expired : Bool} {allocs : ℕ}
    (hlast : expired = false → s.handle.status = .ok →
      3 ∈ (0 :: missingBlocks s.handle [1, 2, 3]).take allocs →
      s.handle.nrValidBlockDescs = blockDescsNr) :
    Sound c p regionLength (s.timer c expired allocs) := by
  unfold State.timer
  split
  · split
    · exact hs.withBug _
    · exact hs.timerExit
  · rename_i hstatus
    have hok := not_not.1 hstatus
    split
    · exact (hs.markCompleted (t := .timeout) nofun).timerExit
    · rename_i hexpired
      split
      · exact hs.withBug _
      · rename_i hfirst
        obtain ⟨b, nv, R, hc⟩ := hs.collecting hok
        have hposted : ∀ q ∈ (progressPullOnTimeout c s.handle allocs).2, ∃ k < b + nv,
            p.InPull c k ∧ q = p.blockRequest c k := by
          intro q hq
          refine hc.received.mem_postBlocks (fun i hi => ?_) hq
          rcases List.mem_cons.1 (List.mem_of_mem_take hi) with rfl | hmem
          · exact .inr ⟨by decide, hfirst⟩
          · obtain ⟨hi', hne⟩ := List.mem_filter.1 hmem
            by_cases hthree : i = 3
            · subst hthree
              have hvalid := hlast (Bool.eq_false_iff.2 hexpired) hok hi
              rw [hc.received.geo.valid, blockDescsNr] at hvalid
              exact .inl (by omega)
            · refine .inr ⟨?_, of_decide_eq_true hne⟩
              simp only [List.mem_cons, List.not_mem_nil, or_false] at hi'
              rw [blockDescsNr]
              omega
        refine ⟨fun _ => ⟨b, nv, R, ?_⟩, hs.pending, hs.reported, fun r hr =>
          pullReplies_append (hs.ofPull r hr)⟩
        refine ⟨hc.received.withLife _ _ _, hc.pos, fun q hq => ?_, hc.carried, hc.copies, hc.bound⟩
        rcases List.mem_append.1 hq with hq | hq
        · exact hc.requests q hq
        · exact hposted q hq

theorem endpointClose (hs : Sound c p regionLength s) :
    Sound c p regionLength s.endpointClose := by
  unfold State.endpointClose
  split
  · exact hs.done nofun rfl id rfl rfl rfl rfl
  · rename_i hstatus
    exact hs.done hstatus rfl id rfl rfl rfl rfl

theorem delTimer (hs : Sound c p regionLength s) : Sound c p regionLength s.delTimer := by
  unfold State.delTimer
  split
  · split
    · exact hs.withBug _
    · exact hs.done nofun rfl id rfl rfl rfl rfl
  · split
    · exact hs.withBug _
    · exact hs.moved rfl rfl rfl rfl (List.Subset.refl _) (List.Subset.refl _)
        (List.Subset.refl _) rfl (List.Subset.refl _)

/-- The completion is reported once the DMA engine is done. -/
theorem notify (ha : Accounted s) (hs : Sound c p regionLength s) (hne : s.notifying ≠ [])
    (hdma : s.dmaPending = []) : Sound c p regionLength s.notify where
  collecting := by
    intro hok
    exact absurd (ha.quiet hok).1 hne
  pending := by
    intro hmem
    exact hs.pending (List.mem_of_mem_tail hmem)
  reported := by
    intro hmem f hf
    rcases List.mem_append.1 hmem with hmem | hmem
    · exact hs.reported hmem f hf
    · have hcarried := hs.pending (List.mem_of_mem_take hmem) f hf
      rw [hdma, List.nil_append] at hcarried
      exact hcarried
  ofPull := hs.ofPull

theorem start (mem : ℕ → BlockDesc) (allocs : ℕ) :
    Sound c p regionLength (ioctlPull c mem p.totalLength p.pulledRdmaOffset allocs) := by
  obtain ⟨nv, hnv, hr⟩ := Received.start (c := c) (p := p) mem
  refine ⟨fun _ => ⟨0, nv, ∅, hr, by omega, fun q hq => ?_, nofun, ?_, Nat.zero_le _⟩, nofun, nofun,
    nofun⟩
  · refine hr.mem_postBlocks (fun i hi => ?_) hq
    have hlt := List.mem_range.1 (List.mem_of_mem_take hi)
    rw [hr.geo.valid] at hlt
    exact .inl hlt
  · have hlife : SameLife (pullHandleCreate mem p.totalLength p.pulledRdmaOffset)
        (ioctlPullBlocks c (pullHandleCreate mem p.totalLength p.pulledRdmaOffset)) :=
      SameLife.trans ⟨append_status .., append_hostCopyNrFrames ..⟩ (sameLife_prepareNextBlocks _)
    exact hlife.2

end Sound

/-! ## The result -/

/-- The retransmission timer asks for the last block only when it is valid. -/
def LastBlockValid (s : State) : Action → Prop
  | .timer false allocs => s.handle.status = .ok →
      3 ∈ (0 :: missingBlocks s.handle [1, 2, 3]).take allocs →
      s.handle.nrValidBlockDescs = blockDescsNr
  | _ => True

instance (s : State) : DecidablePred (LastBlockValid s) := fun a => by
  unfold LastBlockValid
  split <;> infer_instance

variable (c) in
/-- The parties of a pull: a replier with a region of `remoteLength` bytes, and a local
region of `localLength` bytes. -/
def pullEnv (remoteLength localLength : ℕ) : Env :=
  { network := pullReplies c remoteLength, regionLength := localLength }

theorem Sound.next {remoteLength localLength : ℕ} {s : State} {a : Action} (ha : Accounted s)
    (hs : Sound c p remoteLength s) (hlast : LastBlockValid s a)
    (henabled : s.Enabled (pullEnv c remoteLength localLength) a) :
    Sound c p remoteLength (s.next c (pullEnv c remoteLength localLength) a) := by
  cases a with
  | recvReply r dma allocs => exact hs.recvReply ha henabled
  | hostCopy r => exact hs.hostCopy henabled localLength
  | finishCopy => exact hs.finishCopy henabled
  | finishFailed r => exact hs.finishFailed r
  | dmaDone r => exact hs.dmaDone henabled
  | nack t => exact hs.nack t
  | timer expired allocs =>
      refine hs.timer (fun hexpired => ?_)
      subst hexpired
      exact hlast
  | endpointClose => exact hs.endpointClose
  | delTimer => exact hs.delTimer
  | notify => exact hs.notify ha henabled.1 henabled.2

/-- Every byte of a pull lies in a frame. -/
theorem CmdPull.exists_frame {x : ℕ} (hx : x < p.totalLength) :
    ∃ f < p.frameCount c, p.cut c f ≤ x ∧ x < p.cut c f + p.frameLength c f := by
  have htiles := Tiles.of_cuts (CmdPull.cut_mono (c := c) (p := p)) 0 (p.frameCount c)
  rw [Nat.zero_add, CmdPull.cut_zero, CmdPull.cut_of_frameCount_le le_rfl] at htiles
  obtain ⟨i, ⟨piece, hpiece, hlo, hhi⟩, -⟩ := htiles.exists_unique (Nat.zero_le x) hx
  obtain ⟨f, hf, rfl⟩ := List.mem_map.1 (List.mem_of_getElem? hpiece)
  have hf := (List.mem_range'_1.1 hf).2
  rw [Nat.zero_add] at hf
  exact ⟨f, hf, hlo, hhi⟩

/-- For every pull, and every order, loss and duplication of its replies among nacks,
timer expiries and the close of the endpoint: if the timer never asks for a last block
that was not filled, at most one completion is reported, and when it is a success each
byte of the pull was copied from a reply to one of its requests. -/
theorem pullDone_complete (c : Config) (p : CmdPull) (mem : ℕ → BlockDesc)
    (remoteLength localLength allocs : ℕ) {s : State}
    (h : (pullMachine c (pullEnv c remoteLength localLength)
      (ioctlPull c mem p.totalLength p.pulledRdmaOffset allocs)).Reaches LastBlockValid s) :
    s.events.length ≤ 1 ∧ (.success ∈ s.events → ∀ x < p.totalLength, ∃ r ∈ s.copied,
      pullReplies c remoteLength s.requests r = true ∧
        r.msgOffset ≤ x ∧ x < r.msgOffset + r.frameLength) := by
  obtain ⟨ha, hs⟩ : Accounted s ∧ Sound c p remoteLength s := by
    refine h.invariant (I := fun s => Accounted s ∧ Sound c p remoteLength s)
      ⟨.start .., .start ..⟩ (fun s a s' hI hlast hstep => ?_)
    obtain ⟨⟨-, henabled⟩, rfl⟩ := (pullMachine_step ..).1 hstep
    exact ⟨hI.1.next henabled, hI.2.next hI.1 hlast henabled⟩
  constructor
  · have hreports := ha.reports
    have hfrees := ha.slotFrees
    split at hfrees <;> omega
  · intro hsuccess x hx
    obtain ⟨f, hf, hlo, hhi⟩ := CmdPull.exists_frame (c := c) hx
    rcases hs.reported hsuccess f hf with hzero | ⟨r, hr, hoffset, hlength⟩
    · omega
    · exact ⟨r, hr, hs.ofPull r (List.mem_append_right _ hr), by omega, by omega⟩

/-- A run on two frames: the second one comes first, the timer asks again, both arrive. -/
def twoFrames : List Action :=
  [.recvReply ⟨1, 1032, 8968, 1032, 8968⟩ false 1, .timer false 4,
    .hostCopy ⟨1, 1032, 8968, 1032, 8968⟩, .recvReply ⟨0, 8968, 0, 8968, 0⟩ true 1,
    .finishCopy, .finishCopy, .dmaDone ⟨0, 8968, 0, 8968, 0⟩, .notify]

theorem pullDone_complete_twoFrames :
    ∃ s, (pullMachine defaultConfig (pullEnv defaultConfig 10000 10000)
        (ioctlPull defaultConfig (fun _ => ⟨0, 0, 0, 0⟩) 10000 0 1)).exec
        (ioctlPull defaultConfig (fun _ => ⟨0, 0, 0, 0⟩) 10000 0 1) twoFrames = some s ∧
      s.events = [.success] ∧ ∀ x < 10000, ∃ r ∈ s.copied,
        r.msgOffset ≤ x ∧ x < r.msgOffset + r.frameLength := by
  obtain ⟨s, hs, hevents⟩ : ∃ s, (pullMachine defaultConfig (pullEnv defaultConfig 10000 10000)
      (ioctlPull defaultConfig (fun _ => ⟨0, 0, 0, 0⟩) 10000 0 1)).exec
      (ioctlPull defaultConfig (fun _ => ⟨0, 0, 0, 0⟩) 10000 0 1) twoFrames = some s ∧
      s.events = [.success] := ⟨_, rfl, by decide⟩
  refine ⟨s, hs, hevents, fun x hx => ?_⟩
  obtain ⟨-, hall⟩ := pullDone_complete defaultConfig ⟨10000, 0, by decide, by decide⟩
    (fun _ => ⟨0, 0, 0, 0⟩) 10000 10000 1 ⟨twoFrames, by decide +kernel, hs⟩
  obtain ⟨r, hr, -, hbytes⟩ := hall (by rw [hevents]; decide) x hx
  exact ⟨r, hr, hbytes⟩

/-- `kmalloc` left the request for one byte of frame 0 in the last descriptor.  The timer
sends it, its answer is taken for the whole frame, and the pull is reported as a success
with byte 1 never copied. -/
theorem pullDone_not_complete :
    ∃ s, (pullMachine defaultConfig (pullEnv defaultConfig 10000 10000)
        (ioctlPull defaultConfig (fun i => ⟨0, 1, 0, if i = 3 then 1 else 0⟩) 10000 0 1)).exec
        (ioctlPull defaultConfig (fun i => ⟨0, 1, 0, if i = 3 then 1 else 0⟩) 10000 0 1)
        [.timer false 4, .recvReply ⟨0, 1, 0, 1, 0⟩ false 1, .hostCopy ⟨0, 1, 0, 1, 0⟩,
          .recvReply ⟨1, 1032, 8968, 1032, 8968⟩ false 1,
          .hostCopy ⟨1, 1032, 8968, 1032, 8968⟩, .finishCopy, .finishCopy, .notify] = some s ∧
      .success ∈ s.events ∧
      ∀ r ∈ s.copied, ¬ (r.msgOffset ≤ 1 ∧ 1 < r.msgOffset + r.frameLength) :=
  ⟨_, rfl, by decide, by decide⟩

end Xen2mx.Pull
