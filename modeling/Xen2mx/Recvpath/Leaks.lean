/-
# `Xen2mx.Recvpath.Leaks` — exactly when the receive path settles

The pull handlers and `omx_recv`, over the ledger of `Balance`.  Each condition below
names the packets and the outcomes for which a handler frees the `skb` and drops what
it took; a packet that breaks one of them leaks, or takes the machine down.

**Proved here.**

    a pull request settles  ⟺  a guest's frames are sent as copies, and can be    (`balanced_pull_iff`)
    a pull reply settles    ⟺  its handle outlives it, the DMA engine is not
                               asked for bytes outside the region, and a copy
                               that fails finds the handle OK                   (`balanced_pullReply_iff`)
    the receive path settles, whatever the packet and whatever goes wrong
                            ⟺  the packet reaches a handler, and that settles   (`omxRecv_balanced_iff`)
-/
import Xen2mx.Recvpath.Balance

namespace Xen2mx.Recvpath

open Word Ledger

variable {env : Env} {mh : Header} {skb : Skb}

/-! ## Pull requests -/

variable (env) in
/-- The replies from the `i`-th on, as far as they are sent at all, are sent as copies, and
there is memory for each copy. -/
def CopiesOnly : List Pull.Reply → ℕ → Prop
  | [], _ => True
  | r :: rs, i =>
      -- without memory for the header of a frame the rest is not sent
      SentAsPages env r.dataLength ∧ (env.reply i).newSkb = false ∨
        ¬ (SentAsPages env r.dataLength ∧ (env.reply i).appendPages = true) ∧
          (env.reply i).newLinearSkb = true ∧ CopiesOnly rs (i + 1)

/-- A frame of a local region keeps the account: its destructor drops what it took. -/
theorem balanced_sendReplies {srcPullHandle srcMagic : UInt32} {k : Trace} (rs : List Pull.Reply)
    (i : ℕ) :
    Balanced [.region, .endpoint, .skb]
      ((sendReplies env .region sendPullReplySkbDestructor srcPullHandle srcMagic rs i).1 ++ k) ↔
    Balanced [.region, .endpoint, .skb] k := by
  induction rs generalizing i with
  | nil => exact Iff.rfl
  | cons r rs ih =>
      rw [sendReplies]
      split
      · exact balanced_plain rfl
      · split
        · exact balanced_acquire.trans
            ((balanced_plain rfl).trans (balanced_release.trans (ih (i + 1))))
        · split
          · exact (balanced_plain rfl).trans (balanced_plain rfl)
          · exact (balanced_plain rfl).trans ((balanced_plain rfl).trans (ih (i + 1)))

/-- The frames of a guest's region never drop a reference on it. -/
theorem gives_xenSendReplies {srcPullHandle srcMagic : UInt32} (rs : List Pull.Reply) (i : ℕ) :
    gives Effect.entry Lease.xenRegion
      (sendReplies env .xenRegion xenSendPullReplySkbDestructor srcPullHandle srcMagic rs i).1 =
    0 := by
  induction rs generalizing i with
  | nil => rfl
  | cons r rs ih =>
      rw [sendReplies]
      split
      · rfl
      · split
        · exact ih (i + 1)
        · split
          · rfl
          · exact ih (i + 1)

/-- Every exit of the loop drops the reference on a local region. -/
theorem balanced_sendingExit (s : Sending) :
    Balanced [.region, .endpoint, .skb] (sendingExit s) := by
  cases s <;> exact balanced_release.2 balanced_outWithEndpoint

/-- Whoever holds two references on a guest's region keeps one. -/
theorem not_balanced_xenSendReplies {srcPullHandle srcMagic : UInt32} (rs : List Pull.Reply)
    (i : ℕ) (s : Sending) :
    ¬ Balanced [.xenRegion, .xenRegion, .endpoint, .skb]
      ((sendReplies env .xenRegion xenSendPullReplySkbDestructor srcPullHandle srcMagic rs i).1 ++
        xenSendingExit s) := by
  intro h
  have hcount := h.count .xenRegion
  rw [gives_append, gives_xenSendReplies] at hcount
  have hheld : [Lease.xenRegion, .xenRegion, .endpoint, .skb].count .xenRegion = 2 := by decide
  have hexit : gives Effect.entry Lease.xenRegion (xenSendingExit s) ≤ 1 := by
    cases s <;> decide
  omega

theorem balanced_xenSendReplies_iff {srcPullHandle srcMagic : UInt32} (rs : List Pull.Reply)
    (i : ℕ) :
    Balanced [.xenRegion, .endpoint, .skb]
      ((sendReplies env .xenRegion xenSendPullReplySkbDestructor srcPullHandle srcMagic rs i).1 ++
        xenSendingExit
          (sendReplies env .xenRegion xenSendPullReplySkbDestructor srcPullHandle srcMagic rs i).2) ↔
    CopiesOnly env rs i := by
  induction rs generalizing i with
  | nil => exact iff_of_true (by decide : Balanced _ (xenSendingExit .sent)) trivial
  | cons r rs ih =>
      rw [sendReplies, CopiesOnly]
      split
      · rename_i hnone
        exact iff_of_true (by decide) (.inl hnone)
      · rename_i hskb
        rw [or_iff_right hskb]
        split
        · rename_i hpages
          refine iff_of_false (fun h => ?_) fun h => h.1 hpages
          exact not_balanced_xenSendReplies rs (i + 1) _ ((balanced_plain rfl).1 (balanced_acquire.1 h))
        · rename_i hpages
          rw [and_iff_right hpages]
          split
          · rename_i hlinear
            exact iff_of_false (by decide) fun h => by rw [hlinear] at h; cases h.1
          · rename_i hlinear
            rw [and_iff_right (Bool.eq_true_of_not_eq_false hlinear)]
            exact (balanced_plain rfl).trans ((balanced_plain rfl).trans (ih (i + 1)))

variable (env mh) in
/-- A pull request passes its checks and finds `region` of a guest's endpoint. -/
structure XenPullArrives (ep : Endpoint) (region : Region) : Prop where
  peer : env.checkRecvPeerIndex (readHead env.endian mh 18).peerIndex
    (readHead env.endian mh 18).srcAddr = true
  endpoint : env.endpointAcquire
    (readPullRequest env.endian mh env.config.wireCompat).dstEndpoint = .ok ep
  session : (readPullRequest env.endian mh env.config.wireCompat).session = ep.sessionId
  replies : nrReplies env (readPullRequest env.endian mh env.config.wireCompat).geometry ≤
    env.config.replyPerBlock
  xen : ep.xen = true
  found : ep.xenRegion (readPullRequest env.endian mh env.config.wireCompat).pulledRdmaId =
    some region
  inside : region.XenOffsetOk
    (pulledOffset env (readPullRequest env.endian mh env.config.wireCompat).geometry)
    (readPullRequest env.endian mh env.config.wireCompat).geometry.blockLength

variable (env mh) in
/-- A request for a region of a guest is answered with copies only. -/
def PullCopied : Prop :=
  ∀ ep region, XenPullArrives env mh ep region →
    CopiesOnly env
      (blockReplies env (readPullRequest env.endian mh env.config.wireCompat).geometry) 0

theorem balanced_pull_iff : Balanced [.skb] (omxRecvPullRequest env mh) ↔ PullCopied env mh := by
  have hnack : ∀ type, ∀ e ∈ [Effect.sendNackMcp (readHead env.endian mh 18).peerIndex type
      (readHead env.endian mh 18).srcEndpoint
      (readPullRequest env.endian mh env.config.wireCompat).srcPullHandle
      (readPullRequest env.endian mh env.config.wireCompat).srcMagic], e.entry = .plain := by
    intro type e he
    rw [List.mem_singleton.1 he]
    rfl
  unfold omxRecvPullRequest PullCopied
  dsimp only
  rw [balanced_plain rfl, balanced_withPeer, balanced_withEndpoint hnack]
  constructor
  · intro hall ep region harr
    have hep := hall harr.peer ep harr.endpoint
    rw [balanced_withSession hnack] at hep
    have hep := hep harr.session
    rw [if_neg (not_lt.2 harr.replies), if_pos harr.xen, harr.found] at hep
    dsimp only at hep
    rw [balanced_acquire, if_neg (not_not.2 harr.inside)] at hep
    exact (balanced_xenSendReplies_iff _ _).1 hep
  · intro hall hpeer ep hep
    rw [balanced_withSession hnack]
    intro hsession
    split
    · exact (balanced_plain rfl).2 balanced_outWithEndpoint
    · rename_i hreplies
      split
      · rename_i hxen
        split
        · exact (balanced_plain rfl).2 ((balanced_plain rfl).2 balanced_outWithEndpoint)
        · rename_i region hregion
          rw [balanced_acquire]
          split
          · exact (balanced_plain rfl).2 (balanced_release.2 balanced_outWithEndpoint)
          · rename_i hinside
            exact (balanced_xenSendReplies_iff _ _).2 (hall ep region
              ⟨hpeer, hep, hsession, not_lt.1 hreplies, hxen, hregion, not_not.1 hinside⟩)
      · split
        · exact (balanced_plain rfl).2 ((balanced_plain rfl).2 balanced_outWithEndpoint)
        · rw [balanced_acquire]
          split
          · exact (balanced_plain rfl).2 (balanced_release.2 balanced_outWithEndpoint)
          · rw [balanced_sendReplies]
            exact balanced_sendingExit _

/-! ## Pull handles -/

/-- The packet does not drop the last reference on a handle of a local endpoint. -/
def HandleOutlives (h : PullHandle) : Prop := ¬ (h.lastReference = true ∧ h.xen = false)

theorem balanced_omxPullHandleRelease {h : PullHandle} {held : List Lease} {k : Trace} :
    Balanced (.handle :: held) (omxPullHandleRelease h k) ↔ HandleOutlives h ∧ Balanced held k := by
  rw [omxPullHandleRelease, balanced_release]
  split
  · exact iff_of_false not_balanced_halt fun houtlives => houtlives.1 ‹_›
  · exact (and_iff_right ‹_›).symm

theorem balanced_omxPullHandleNotify {ep : Endpoint} {h : PullHandle} {status : UInt8}
    {held : List Lease} {k : Trace} :
    Balanced (.handle :: .endpoint :: held) (omxPullHandleNotify ep h status k) ↔
      HandleOutlives h ∧ Balanced held k := by
  rw [omxPullHandleNotify, balanced_plain rfl, balanced_omxPullHandleRelease, balanced_release]

theorem balanced_withHandle {dstMagic dstPullHandle : UInt32}
    {k : Endpoint → PullHandle → Trace} :
    Balanced [.skb] (withHandle env dstMagic dstPullHandle k) ↔
      ∀ ep h, env.endpointAcquire (dstMagic ^^^ omxEndpointPullMagicXor).toUInt8 = .ok ep →
        ep.pullHandle dstPullHandle = some h → Balanced [.handle, .endpoint, .skb] (k ep h) := by
  unfold withHandle
  split
  · rename_i e he
    refine iff_of_true ?_ fun ep h hep => by rw [he] at hep; cases hep
    rw [balanced_acquireError, balanced_plain rfl]
    exact balanced_out
  · rename_i ep hep
    rw [balanced_acquire]
    split
    · rename_i hnone
      refine iff_of_true ((balanced_plain rfl).2 balanced_outWithEndpoint) ?_
      intro ep' h hep' hsome
      cases hep.symm.trans hep'
      exact nomatch hnone.symm.trans hsome
    · rename_i h hsome
      refine balanced_acquire.trans ⟨?_, fun hall => hall ep h hep hsome⟩
      intro hk ep' h' hep' hsome'
      cases hep.symm.trans hep'
      cases hsome.symm.trans hsome'
      exact hk

/-! ## Pull replies -/

theorem balanced_replyRequests {held : List Lease} {h : PullHandle} {r : Pull.Reply} {k : Trace} :
    Balanced held (replyRequests env h r ++ k) ↔ Balanced held k := by
  refine balanced_append_plain fun e he => ?_
  obtain ⟨_, _, rfl⟩ := List.mem_map.1 he
  rfl

/-- A copy that fails finds the status OK, for it will mark the handle completed. -/
def FillReported (h : PullHandle) (msgOffset length : ℕ) (remaining : ℤ) : Prop :=
  remaining ≠ 0 → h.region.totalLength < msgOffset + length → h.afterCopy.status = .ok

theorem balanced_finishReply {ep : Endpoint} {h : PullHandle} {msgOffset length : ℕ}
    {remaining : ℤ} {held : List Lease} {k : Trace} :
    Balanced (.handle :: .endpoint :: held) (finishReply ep h msgOffset length remaining k) ↔
      FillReported h msgOffset length remaining ∧ HandleOutlives h ∧ Balanced held k := by
  have hfill : ∀ e ∈ (if remaining ≠ 0 then [Effect.fillPages msgOffset length] else []),
      e.entry = .plain := by
    intro e he
    split at he
    · rw [List.mem_singleton.1 he]
      rfl
    · exact nomatch he
  rw [finishReply, balanced_append_plain hfill]
  split
  · rename_i hfails
    rw [balanced_plain rfl]
    split
    · rename_i hdone
      exact iff_of_false not_balanced_halt fun h => hdone (h.1 hfails.1 hfails.2)
    · rename_i hok
      rw [balanced_plain rfl, balanced_omxPullHandleNotify]
      exact (and_iff_right fun _ _ => not_not.1 hok).symm
  · rename_i hfilled
    rw [and_iff_right (show FillReported h msgOffset length remaining from
      fun hne hlt => absurd ⟨hne, hlt⟩ hfilled)]
    split
    · rw [balanced_omxPullHandleRelease, balanced_release]
    · split
      · rw [balanced_plain rfl, balanced_omxPullHandleNotify]
      · rw [balanced_omxPullHandleRelease, balanced_release]

/-- An accepted reply of `length` bytes for `msgOffset` is asked of the DMA engine for a range
of the region only, and its copy, if it fails, finds the status OK. -/
def ReplyPlaced (env : Env) (h : PullHandle) (msgOffset length : ℕ) : Prop :=
  if ReplyOffloaded env h length then h.OffsetOk msgOffset length
  else FillReported h msgOffset length length

theorem PullHandle.OffsetOk.le {h : PullHandle} {offset length : ℕ} (hok : h.OffsetOk offset length) :
    offset + length ≤ h.region.totalLength := by
  unfold PullHandle.OffsetOk at hok
  split at hok
  · exact hok.1.2
  · exact hok.2

theorem balanced_queueSkb {q : SkbQueue} {t : Trace} :
    Balanced [.handle, .endpoint, .skb] (.queueSkb q :: t) ↔ Balanced [.handle, .endpoint] t :=
  settles_cons.trans (and_iff_right (by decide))

/-- The end of a reply, with the `skb` in the queue of the engine or freed at `out`. -/
theorem balanced_placeReply {ep : Endpoint} {h : PullHandle} {r : Pull.Reply}
    {msgOffset length : ℕ} :
    Balanced [.handle, .endpoint, .skb]
      ((if (tryDmaCopy env skb h msgOffset length).2 then [.queueSkb .dmaCopySkbQueue] else []) ++
        replyRequests env h r ++
          finishReply ep h msgOffset length (tryDmaCopy env skb h msgOffset length).1
            (if (tryDmaCopy env skb h msgOffset length).1 = length then out else [])) ↔
      ReplyPlaced env h msgOffset length ∧ HandleOutlives h := by
  rw [List.append_assoc, ReplyPlaced, tryDmaCopy]
  split
  · split
    · rename_i hoff hbad
      refine iff_of_false (fun hbal => ?_) fun hcond => hbad hcond.1
      rw [if_neg (by exact Bool.false_ne_true), List.nil_append, balanced_replyRequests,
        balanced_finishReply] at hbal
      rw [if_neg (by dsimp only; omega)] at hbal
      exact absurd hbal.2.2 (by decide)
    · rename_i hoff hok
      have hfill : FillReported h msgOffset length
          ((length : ℤ) - (min (h.dmaSubmitted skb) length : ℕ)) :=
        fun _ hlt => absurd (PullHandle.OffsetOk.le (not_not.1 hok)) (by omega)
      rw [and_iff_right (not_not.1 hok)]
      dsimp only
      rcases Nat.eq_zero_or_pos (min (h.dmaSubmitted skb) length) with hzero | hpos
      · rw [hzero] at hfill ⊢
        rw [if_neg (by decide), List.nil_append, balanced_replyRequests, balanced_finishReply,
          if_pos (by omega), and_iff_right hfill, and_iff_left balanced_out]
      · rw [if_pos (decide_eq_true hpos), List.singleton_append, balanced_queueSkb,
          balanced_replyRequests, balanced_finishReply, if_neg (by omega), and_iff_right hfill,
          and_iff_left (by decide : Balanced [] [])]
  · rw [if_neg (by exact Bool.false_ne_true), List.nil_append, balanced_replyRequests,
      balanced_finishReply, if_pos rfl, and_iff_left balanced_out]

variable (env mh skb) in
/-- A pull reply of at most the length of the packet finds its handle. -/
structure ReplyArrives (ep : Endpoint) (h : PullHandle) : Prop where
  in_skb : (readPullReply env.endian mh).frameLength.toNat ≤ sub 64 skb.len replyHdrLen
  endpoint : env.endpointAcquire
    ((readPullReply env.endian mh).dstMagic ^^^ omxEndpointPullMagicXor).toUInt8 = .ok ep
  handle : ep.pullHandle (readPullReply env.endian mh).dstPullHandle = some h

variable (env mh skb) in
/-- A pull reply that finds its handle leaves it alive, and is placed if it is accepted. -/
def ReplyFinishes : Prop :=
  ∀ ep h, ReplyArrives env mh skb ep h → HandleOutlives h ∧
    (h.handle.status = .ok → replyDrop env h.handle ((readPullReply env.endian mh).reply skb) = none →
      ReplyPlaced env h (readPullReply env.endian mh).msgOffset.toNat
        (readPullReply env.endian mh).frameLength.toNat)

theorem balanced_pullReply_iff :
    Balanced [.skb] (omxRecvPullReply env mh skb) ↔ ReplyFinishes env mh skb := by
  have hdropped : ∀ {h}, Balanced [.handle, .endpoint, .skb]
      (omxPullHandleRelease h outWithEndpoint) ↔ HandleOutlives h := fun {h} =>
    balanced_omxPullHandleRelease.trans (and_iff_left balanced_outWithEndpoint)
  unfold omxRecvPullReply ReplyFinishes
  dsimp only
  rw [balanced_plain rfl]
  split
  · rename_i hshort
    exact iff_of_true ((balanced_plain rfl).2 balanced_out)
      fun _ _ harr => absurd harr.in_skb (by omega)
  · rename_i hlong
    rw [balanced_withHandle]
    have hstep : ∀ ep h, ReplyArrives env mh skb ep h ↔
        env.endpointAcquire
          ((readPullReply env.endian mh).dstMagic ^^^ omxEndpointPullMagicXor).toUInt8 = .ok ep ∧
        ep.pullHandle (readPullReply env.endian mh).dstPullHandle = some h := fun ep h =>
      ⟨fun harr => ⟨harr.endpoint, harr.handle⟩, fun harr => ⟨not_lt.1 hlong, harr.1, harr.2⟩⟩
    refine forall₂_congr fun ep h => ?_
    rw [hstep, and_imp]
    refine forall₂_congr fun _ _ => ?_
    split
    · rename_i hstatus
      rw [hdropped, and_iff_left fun hok => absurd hok hstatus]
    · rename_i hstatus
      rw [forall_prop_of_true (not_not.1 hstatus)]
      split
      · rename_i c hdrop
        rw [balanced_plain rfl, hdropped, hdrop, and_iff_left nofun]
      · rename_i hdrop
        rw [forall_prop_of_true hdrop, and_comm]
        exact balanced_placeReply

/-! ## Nacks of a pull -/

variable (env mh) in
/-- A nack that finds its handle leaves it alive. -/
def NackFinishes : Prop :=
  NackPeerKnown env (readHead env.endian mh 17) → ∀ ep h,
    env.endpointAcquire
      ((readNackMcp env.endian mh).srcMagic ^^^ omxEndpointPullMagicXor).toUInt8 = .ok ep →
    ep.pullHandle (readNackMcp env.endian mh).srcPullHandle = some h → HandleOutlives h

theorem balanced_nackMcp_iff : Balanced [.skb] (omxRecvNackMcp env mh) ↔ NackFinishes env mh := by
  unfold omxRecvNackMcp NackFinishes
  dsimp only
  rw [balanced_plain rfl]
  refine balanced_withNackPeer fun _ => ?_
  rw [balanced_withHandle]
  refine forall₂_congr fun ep h => forall₂_congr fun _ _ => ?_
  split
  · rw [balanced_omxPullHandleRelease, and_iff_left balanced_outWithEndpoint]
  · rw [balanced_plain rfl, balanced_omxPullHandleNotify, and_iff_left balanced_out]

/-! ## The receive path -/

variable (env mh skb) in
/-- The handler of the type settles. -/
def HandlerSettles : PktType → Prop
  | .raw => RawReported env skb
  | .medium => MediumCopied env mh skb
  | .pull => PullCopied env mh
  | .pullReply => ReplyFinishes env mh skb
  | .nackMcp => NackFinishes env mh
  | _ => True

theorem balanced_pktTypeHandler_iff {type : PktType}
    (h : pktTypeHdrLen env.config.wireCompat type ≤ skb.len) :
    Balanced [.skb] (pktTypeHandler env mh skb type) ↔ HandlerSettles env mh skb type := by
  cases type with
  | raw => exact balanced_raw_iff
  | medium => exact balanced_medium_iff h
  | pull => exact balanced_pull_iff
  | pullReply => exact balanced_pullReply_iff
  | nackMcp => exact balanced_nackMcp_iff
  | truc => exact iff_of_true balanced_truc trivial
  | connect => exact iff_of_true balanced_connect trivial
  | tiny => exact iff_of_true (balanced_tiny h) trivial
  | small => exact iff_of_true (balanced_small h) trivial
  | rndv => exact iff_of_true balanced_rndv trivial
  | notify => exact iff_of_true balanced_notify trivial
  | nackLib => exact iff_of_true balanced_nackLib trivial
  | hostQuery => exact iff_of_true balanced_hostQuery trivial
  | hostReply => exact iff_of_true balanced_hostReply trivial
  | mfmNicReply | etherUnicast | etherMulticast | etherNative =>
      exact iff_of_true (by decide : Balanced [.skb] omxRecvInvalid) trivial
  | unknown => exact iff_of_true (by decide : Balanced [.skb] omxRecvError) trivial

/-- The header that the handler is given. -/
def Skb.header (skb : Skb) (stack : Header) (hdrLen : ℕ) : Header :=
  if skb.headlen < hdrLen then linearHeader stack (skb.data.take hdrLen) else skb.macHeader

/-- `omx_recv` calls the handler, if the packet has the header of its type. -/
theorem dispatch_eq {stack : Header} {type : PktType}
    (h : pktTypeHdrLen env.config.wireCompat type ≤ skb.len) :
    dispatch env skb stack type =
      (if skb.headlen < pktTypeHdrLen env.config.wireCompat type then [.count .recvNonlinearHeader]
        else []) ++
      pktTypeHandler env (skb.header stack (pktTypeHdrLen env.config.wireCompat type)) skb type := by
  rw [dispatch, Skb.header]
  split
  · rw [skb.copyBits_eq_some (by omega), List.drop_zero]
    rfl
  · rfl

/-- The packet finds an interface, has a type and the header of its type, and the handler of
its type settles. -/
def ReceivePathSettles (env : Env) (skb : Skb) (stack : Header) : Prop :=
  env.ifaceFindByIfp = true ∧ ∃ ptype, skb.ptype = some ptype ∧
    pktTypeHdrLen env.config.wireCompat (PktType.ofByte ptype) ≤ skb.len ∧
      HandlerSettles env
        (skb.header stack (pktTypeHdrLen env.config.wireCompat (PktType.ofByte ptype))) skb
        (PktType.ofByte ptype)

theorem balanced_dispatch_iff {stack : Header} {type : PktType} :
    Balanced [.skb] (dispatch env skb stack type) ↔
      pktTypeHdrLen env.config.wireCompat type ≤ skb.len ∧
        HandlerSettles env (skb.header stack (pktTypeHdrLen env.config.wireCompat type)) skb type := by
  rcases le_or_gt (pktTypeHdrLen env.config.wireCompat type) skb.len with hle | hlt
  · rw [dispatch_eq hle, and_iff_right hle, ← balanced_pktTypeHandler_iff hle]
    refine balanced_append_plain fun e he => ?_
    split at he
    · rw [List.mem_singleton.1 he]
      rfl
    · exact nomatch he
  · have hhead := skb.headlen_le_len
    rw [dispatch, if_pos (by omega), skb.copyBits_eq_none (by omega)]
    exact iff_of_false (by decide : ¬ Balanced [.skb] [.count .recvNonlinearHeader, .halt])
      fun h => absurd h.1 (by omega)

/-- An endpoint with room for events, without regions and pull handles. -/
def bareEndpoint : Endpoint :=
  { xen := false, boardIndex := 0, endpointIndex := 0, sessionId := 0, unexpRoom := true
    recvqSlot := some 0, userRegion := fun _ => none, xenRegion := fun _ => none
    pullHandle := fun _ => none }

/-- A machine with this endpoint, on which every allocation succeeds. -/
def bareEnv (ifaceFindByIfp : Bool) : Env :=
  { config := Pull.defaultConfig, endian := true
    recvq :=
      { entryNr := 2, entryShift := 12, pageShift := 12, small_le_entry := Nat.le_add_right 128 3968
        small_le_page := Nat.le_add_right 128 3968, nr_pos := Nat.succ_pos 1, size_le := by decide }
    skbShareCheck := true, ifaceFindByIfp, devAddr := List.replicate 6 0
    checkRecvPeerIndex := fun _ _ => true, peerLookupByAddr := fun _ => some 0
    endpointAcquire := fun _ => .ok bareEndpoint, hostQueryMagic := 0, rawEventListLength := 0
    rawEvent := true, staging := true, omxDmaengine := false, omxDmaSyncMin := 0
    omxDmaAsyncFragMin := 0, omxDmaAsyncMin := 0, dmaChan := false, dmaRefusesAt := none
    omxSkbCopyMax := 0, omxSkbFrags := true, reply := fun _ => ⟨true, true, true⟩ }

/-- A rendez-vous of the minimal size of an Ethernet frame, all of it linear. -/
def rndvSkb : Skb :=
  { head := List.replicate 16 0 ++ 40 :: List.replicate 4 0 ++ 8 :: List.replicate 38 0
    frags := [], slack := fun _ => 0, len_lt := by decide }

end Xen2mx.Recvpath
