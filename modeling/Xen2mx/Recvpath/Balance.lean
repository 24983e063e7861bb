/-
# `Xen2mx.Recvpath.Balance` — what the receive path takes it gives back

Every exit of every handler has to free the packet, or leave it to a list that frees
it, and to drop the references taken on the way.  Most do.  These do not:

    `omx_recv`       returns before the handler is called, and the `skb` is not freed
    raw              no memory for the event, and the `skb` is not freed
    medium           the staging buffer is not checked; the copy by the DMA engine may
                     overrun the data or not come to an end
    pull request     of a guest: a frame sent as pages keeps its reference for ever, and
                     a frame that cannot be copied releases a region that is NULL
    pull reply,      the last release of a handle of a local endpoint ends in a BUG; a reply
    nack mcp         outside of the region is neither queued nor freed if the DMA engine is
                     asked first; a copy that fails marks a handle completed that already is

**Proved here.**

    the handlers that always settle
    a raw packet settles       ⟺  there is memory for its event            (`balanced_raw_iff`)
    a medium fragment settles  ⟺  its data can be copied to its slot       (`balanced_medium_iff`)
-/
import Xen2mx.Recvpath.Dispatch
import Xen2mx.Recvpath.DmaCopy

namespace Xen2mx.Recvpath

open Word Ledger

variable (env : Env) (mh : Header) (skb : Skb)

/-- The trace settles the account of one who holds `held`. -/
abbrev Balanced (held : List Lease) (t : Trace) : Prop := Settles Effect.entry held t

/-! ## The ledger of the common exits -/

variable {env mh skb}

theorem balanced_plain {held : List Lease} {e : Effect} {t : Trace} (h : e.entry = .plain) :
    Balanced held (e :: t) ↔ Balanced held t := settles_plain h

theorem balanced_out : Balanced [.skb] out := by decide

theorem balanced_outWithEndpoint : Balanced [.endpoint, .skb] outWithEndpoint := by decide

theorem balanced_received (c : Counter) : Balanced [.endpoint, .skb] (received c) :=
  (balanced_plain rfl).2 balanced_outWithEndpoint

theorem not_balanced_halt {held : List Lease} {t : Trace} : ¬ Balanced held (.halt :: t) :=
  settles_cons.not.2 id

theorem balanced_acquire {held : List Lease} {l : Lease} {t : Trace} :
    Balanced held (.acquire l :: t) ↔ Balanced (l :: held) t := settles_cons

theorem balanced_release {held : List Lease} {l : Lease} {t : Trace} :
    Balanced (l :: held) (.release l :: t) ↔ Balanced held t := by
  refine settles_cons.trans ?_
  simp only [Effect.entry, List.mem_cons, true_or, true_and, List.erase_cons_head]

/-- A trace of plain effects can be passed over. -/
theorem balanced_append_plain {held : List Lease} {t k : Trace} (h : ∀ e ∈ t, e.entry = .plain) :
    Balanced held (t ++ k) ↔ Balanced held k := by
  induction t with
  | nil => exact Iff.rfl
  | cons e t ih =>
      rw [List.cons_append, balanced_plain (h e List.mem_cons_self),
        ih fun e he => h e (List.mem_cons_of_mem _ he)]

theorem balanced_deliver (ep : Endpoint) (func : Recvring.Func) (event : Recv.Event) (c : Counter) :
    Balanced [.endpoint, .skb] (deliver ep func event c) := by
  unfold deliver
  split
  · exact (balanced_plain rfl).2 (balanced_received c)
  · split
    · exact (balanced_plain rfl).2 (balanced_received c)
    · exact balanced_outWithEndpoint

/-! ## The ledger of the common stages -/

theorem balanced_withPeer {head : Recv.PktHead} {k : Trace} :
    Balanced [.skb] (withPeer env head k) ↔
      (env.checkRecvPeerIndex head.peerIndex head.srcAddr = true → Balanced [.skb] k) := by
  unfold withPeer
  split
  · exact ⟨fun h _ => h, fun h => h ‹_›⟩
  · exact iff_of_true ((balanced_plain rfl).2 balanced_out) fun h => absurd h ‹_›

/-- A failed acquisition holds nothing afterwards. -/
theorem balanced_acquireError {e : AcquireError} {k : Trace} :
    Balanced [.skb] (e.trace ++ k) ↔ Balanced [.skb] k := by
  cases e with
  | badIndex => exact Iff.rfl
  | notAttached => exact Iff.rfl
  | notOpen => exact balanced_acquire.trans balanced_release

theorem balanced_withEndpoint {dstEndpoint : UInt8} {nack : Pull.NackType → Trace}
    {k : Endpoint → Trace} (hnack : ∀ type, ∀ e ∈ nack type, e.entry = .plain) :
    Balanced [.skb] (withEndpoint env dstEndpoint nack k) ↔
      ∀ ep, env.endpointAcquire dstEndpoint = .ok ep → Balanced [.endpoint, .skb] (k ep) := by
  unfold withEndpoint
  split
  · rename_i e he
    refine iff_of_true ?_ fun ep hep => by rw [he] at hep; cases hep
    rw [List.append_assoc, balanced_acquireError, List.cons_append, balanced_plain rfl,
      balanced_append_plain (hnack _)]
    exact balanced_out
  · rename_i ep hep
    refine balanced_acquire.trans ⟨fun h ep' hep' => ?_, fun h => h ep hep⟩
    rw [hep] at hep'
    cases hep'
    exact h

theorem balanced_withSession {ep : Endpoint} {session : UInt32} {nack : Pull.NackType → Trace}
    {k : Trace} (hnack : ∀ type, ∀ e ∈ nack type, e.entry = .plain) :
    Balanced [.endpoint, .skb] (withSession ep session nack k) ↔
      (session = ep.sessionId → Balanced [.endpoint, .skb] k) := by
  unfold withSession
  split
  · refine iff_of_true ?_ fun h => absurd h ‹_›
    rw [List.cons_append, balanced_plain rfl, balanced_append_plain (hnack _)]
    exact balanced_outWithEndpoint
  · exact ⟨fun h _ => h, fun h => h (not_not.1 ‹_›)⟩

theorem nackLib_plain {head : Recv.PktHead} {dstEndpoint : UInt8} {libSeqnum : UInt16}
    (type : Pull.NackType) : ∀ e ∈ nackLib head dstEndpoint libSeqnum type, e.entry = .plain := by
  intro e he
  rw [List.mem_singleton.1 he]
  rfl

theorem noNack_plain (_type : Pull.NackType) : ∀ e ∈ ([] : Trace), e.entry = .plain := nofun

/-- The data that a header promises is in the packet. -/
theorem copyBits_of_length {hdrLen length : ℕ} (hhdr : hdrLen ≤ skb.len)
    (hlen : ¬ sub 64 skb.len hdrLen < length) :
    skb.copyBits hdrLen length = some ((skb.data.drop hdrLen).take length) := by
  have hlt : skb.len < 2 ^ 64 := skb.len_lt.trans (by decide)
  rw [sub_of_le hhdr hlt] at hlen
  exact skb.copyBits_eq_some (by omega)

/-! ## The handlers that always settle -/

theorem balanced_connect : Balanced [.skb] (omxRecvConnect env mh) := by
  unfold omxRecvConnect
  dsimp only
  split
  · exact (balanced_plain rfl).2 balanced_out
  · split
    · exact (balanced_plain rfl).2 balanced_out
    · rw [balanced_plain rfl, balanced_withEndpoint]
      · exact fun ep _ => balanced_deliver ..
      · intro type e he
        rw [List.mem_singleton.1 he]
        rfl

theorem balanced_tiny (h : sizeofPktHead + sizeofPktMsg ≤ skb.len) :
    Balanced [.skb] (omxRecvTiny env mh skb) := by
  unfold omxRecvTiny
  dsimp only
  split
  · exact (balanced_plain rfl).2 balanced_out
  · split
    · exact (balanced_plain rfl).2 balanced_out
    · rw [balanced_withPeer, balanced_withEndpoint nackLib_plain]
      intro _ ep _
      rw [balanced_withSession nackLib_plain, copyBits_of_length h ‹_›]
      exact fun _ => balanced_deliver ..

/-- A native event or a response leaves the account as it is. -/
theorem balanced_report {held : List Lease} {ep : Endpoint} {func : Recvring.Func}
    {event : Recv.Event} {t : Trace} :
    Balanced held ((if ep.xen then .pokeDomU func ep.boardIndex ep.endpointIndex event
      else .notifyUnexpEvent event) :: t) ↔ Balanced held t := by
  refine balanced_plain ?_
  split <;> rfl

theorem balanced_small (h : sizeofPktHead + sizeofPktMsg ≤ skb.len) :
    Balanced [.skb] (omxRecvSmall env mh skb) := by
  unfold omxRecvSmall
  dsimp only
  split
  · exact (balanced_plain rfl).2 balanced_out
  · split
    · exact (balanced_plain rfl).2 balanced_out
    · rw [balanced_withPeer, balanced_withEndpoint nackLib_plain]
      intro _ ep _
      rw [balanced_withSession nackLib_plain, copyBits_of_length h ‹_›]
      intro _
      split
      · exact balanced_outWithEndpoint
      · exact (balanced_plain rfl).2 (balanced_report.2 (balanced_received _))

theorem balanced_rndv : Balanced [.skb] (omxRecvRndv env mh) := by
  unfold omxRecvRndv
  dsimp only
  split
  · exact (balanced_plain rfl).2 balanced_out
  · rw [balanced_withPeer, balanced_withEndpoint nackLib_plain]
    intro _ ep _
    rw [balanced_withSession nackLib_plain]
    exact fun _ => balanced_deliver ..

theorem balanced_notify : Balanced [.skb] (omxRecvNotify env mh) := by
  unfold omxRecvNotify
  dsimp only
  rw [balanced_withPeer, balanced_withEndpoint nackLib_plain]
  intro _ ep _
  rw [balanced_withSession nackLib_plain]
  exact fun _ => balanced_deliver ..

theorem balanced_truc : Balanced [.skb] (omxRecvTruc env mh) := by
  unfold omxRecvTruc
  dsimp only
  rw [balanced_withPeer, balanced_withEndpoint noNack_plain]
  intro _ ep _
  rw [balanced_withSession noNack_plain]
  intro _
  split
  · exact balanced_outWithEndpoint
  · split
    · exact (balanced_plain rfl).2 balanced_outWithEndpoint
    · split
      · exact (balanced_plain rfl).2 balanced_outWithEndpoint
      · exact balanced_deliver ..

variable (env) in
/-- The peer of a nack is known. -/
def NackPeerKnown (head : Recv.PktHead) : Prop :=
  env.checkRecvPeerIndex head.peerIndex head.srcAddr = true ∨
    (head.peerIndex = 0xffff ∧ (env.peerLookupByAddr head.srcAddr).isSome = true)

theorem balanced_withNackPeer {head : Recv.PktHead} {k : UInt32 → Trace} {P : Prop}
    (hk : ∀ peerIndex, Balanced [.skb] (k peerIndex) ↔ P) :
    Balanced [.skb] (withNackPeer env head k) ↔ (NackPeerKnown env head → P) := by
  unfold withNackPeer
  split
  · exact (hk _).trans ⟨fun h _ => h, fun h => h (.inl ‹_›)⟩
  · rename_i hcheck
    split
    · rename_i hne
      exact iff_of_true balanced_out fun h => (h.elim hcheck fun h => hne h.1).elim
    · rename_i heq
      split
      · rename_i hnone
        refine iff_of_true ((balanced_plain rfl).2 balanced_out) fun h => (h.elim hcheck ?_).elim
        rw [hnone]
        exact fun h => nomatch h.2
      · rename_i peerIndex hsome
        refine (hk _).trans ⟨fun h _ => h, fun h => h (.inr ⟨not_not.1 heq, ?_⟩)⟩
        rw [hsome]
        rfl

theorem balanced_nackLib : Balanced [.skb] (omxRecvNackLib env mh) := by
  unfold omxRecvNackLib
  dsimp only
  refine (balanced_withNackPeer (P := True) fun peerIndex => iff_of_true ?_ trivial).2
    fun _ => trivial
  rw [balanced_withEndpoint noNack_plain]
  intro ep _
  split
  · exact (balanced_plain rfl).2 (balanced_received _)
  · exact balanced_outWithEndpoint

theorem balanced_hostQuery : Balanced [.skb] (omxRecvHostQuery env mh) := by
  unfold omxRecvHostQuery
  split
  · exact balanced_out
  · exact (by decide : Balanced [.skb] [.queueSkb .hostQueryList, .count .recvHostQuery])

theorem balanced_hostReply : Balanced [.skb] (omxRecvHostReply env mh) := by
  unfold omxRecvHostReply
  split
  · exact (balanced_plain rfl).2 balanced_out
  · exact (by decide : Balanced [.skb] [.queueSkb .hostReplyList, .count .recvHostReply])

/-! ## Raw packets and medium fragments -/

variable (env skb) in
/-- A raw packet that is to be reported finds memory for its event. -/
def RawReported : Prop :=
  env.rawEventListLength ≤ omxRawRecvqLen → skb.len ≤ omxRawPktLenMax → env.rawEvent = true

theorem balanced_raw_iff : Balanced [.skb] (omxRecvRaw env skb) ↔ RawReported env skb := by
  unfold omxRecvRaw RawReported
  split
  · rename_i hfull
    exact iff_of_true (by decide : Balanced [.skb] [.freeSkb, .count .dropRawQueueFull])
      fun h => absurd hfull (by omega)
  · split
    · rename_i hlarge
      exact iff_of_true (by decide : Balanced [.skb] [.freeSkb, .count .dropRawTooLarge])
        fun _ h => absurd hlarge (by omega)
    · split
      · rename_i hfull hlarge hmem
        exact iff_of_false (by decide : ¬ Balanced [.skb] [])
          fun h => hmem (h (by omega) (by omega))
      · rename_i hmem
        exact iff_of_true (settles_cons.2 ⟨List.mem_cons_self, rfl⟩) fun _ _ => not_not.1 hmem

variable (env mh skb) in
/-- A medium fragment passes its checks and is given the slot at `recvqOffset`. -/
structure MediumArrives (ep : Endpoint) (recvqOffset : ℕ) : Prop where
  length_le : (readMediumFrag env.endian mh env.config.wireCompat).fragLength.toNat ≤
    env.recvq.entrySize
  in_skb : (readMediumFrag env.endian mh env.config.wireCompat).fragLength.toNat ≤
    sub 64 skb.len (sizeofPktHead + sizeofPktMediumFrag)
  peer : env.checkRecvPeerIndex (readHead env.endian mh 18).peerIndex
    (readHead env.endian mh 18).srcAddr = true
  endpoint : env.endpointAcquire (Header.ntoh8 mh 17) = .ok ep
  session : (readMediumFrag env.endian mh env.config.wireCompat).session = ep.sessionId
  slot : ep.recvqSlot = some recvqOffset

variable (env skb) in
/-- `length` bytes behind the header can be copied to the slot: for a guest there is a staging
buffer, and else the DMA engine, if it is asked, comes to a good end. -/
def CopyReturns (ep : Endpoint) (recvqOffset length : ℕ) : Prop :=
  if ep.xen = true then env.staging = true ∨ length = 0
  else
    MediumOffloaded env length →
      DmaEndsWell env.recvq.pageSize env.dmaRefusesAt skb (sizeofPktHead + sizeofPktMediumFrag)
        (recvqOffset % env.recvq.pageSize) length

variable (env mh skb) in
/-- Every fragment that is given a slot can be copied there. -/
def MediumCopied : Prop :=
  ∀ ep recvqOffset, MediumArrives env mh skb ep recvqOffset →
    CopyReturns env skb ep recvqOffset
      (readMediumFrag env.endian mh env.config.wireCompat).fragLength.toNat

/-- The host can copy what a copy that ends well has left. -/
theorem mediumPayload_isSome_iff {hdrLen length : ℕ} {copy : DmaCopy}
    (hle : ∀ {remaining}, copy = .returns remaining → remaining ≤ length)
    (hin : hdrLen + length ≤ skb.len) :
    (mediumPayload skb hdrLen length copy).isSome = true ↔ copy.Good := by
  cases copy with
  | halts => exact iff_of_false (by rintro ⟨⟩) id
  | returns remaining =>
      rcases lt_or_ge remaining 0 with hneg | hpos
      · rw [mediumPayload, if_pos hneg]
        exact iff_of_false (by rintro ⟨⟩) (not_le.2 hneg)
      · obtain ⟨n, rfl⟩ := Int.eq_ofNat_of_zero_le hpos
        rw [mediumPayload_returns _ (by exact_mod_cast hle rfl) hin]
        exact iff_of_true rfl hpos

theorem mediumCopy_isSome_iff {ep : Endpoint} {recvqOffset length : ℕ}
    (hin : sizeofPktHead + sizeofPktMediumFrag + length ≤ skb.len) :
    (mediumCopy env skb ep recvqOffset (sizeofPktHead + sizeofPktMediumFrag) length).isSome = true ↔
      CopyReturns env skb ep recvqOffset length := by
  unfold mediumCopy CopyReturns
  split
  · rw [skb.copyBits_eq_some hin]
    split
    · rename_i hnone
      exact iff_of_false (by rintro ⟨⟩) fun h =>
        h.elim (by rw [hnone.1]; rintro ⟨⟩) (Nat.pos_iff_ne_zero.1 hnone.2)
    · rename_i hsome
      refine iff_of_true rfl ?_
      rcases Nat.eq_zero_or_pos length with h | h
      · exact .inr h
      · exact .inl (Bool.eq_true_of_not_eq_false fun hf => hsome ⟨hf, h⟩)
  · rw [mediumDma]
    split
    · rename_i hoff
      have hpgoff : recvqOffset % env.recvq.pageSize < env.recvq.pageSize :=
        Nat.mod_lt _ (Nat.two_pow_pos _)
      rw [forall_prop_of_true hoff, ← dmaSkbCopyDatagramToPages_good_iff hpgoff hin]
      exact mediumPayload_isSome_iff dmaSkbCopyDatagramToPages_le hin
    · rename_i hoff
      refine iff_of_true ?_ fun h => absurd h hoff
      rw [mediumPayload_returns _ le_rfl hin]
      rfl

theorem balanced_storeMedium_iff {ep : Endpoint} {recvqOffset length : ℕ} {event : Recv.Event}
    (hin : sizeofPktHead + sizeofPktMediumFrag + length ≤ skb.len) :
    Balanced [.endpoint, .skb] (storeMedium env skb ep recvqOffset length event) ↔
      CopyReturns env skb ep recvqOffset length := by
  rw [← mediumCopy_isSome_iff hin, storeMedium]
  split
  · rename_i hnone
    rw [hnone]
    exact iff_of_false not_balanced_halt nofun
  · rename_i bytes hsome
    rw [hsome]
    exact iff_of_true ((balanced_plain rfl).2 (balanced_report.2 (balanced_received _))) rfl

theorem balanced_medium_iff (h : sizeofPktHead + sizeofPktMediumFrag ≤ skb.len) :
    Balanced [.skb] (omxRecvMediumFrag env mh skb) ↔ MediumCopied env mh skb := by
  have hlt : skb.len < 2 ^ 64 := skb.len_lt.trans (by decide)
  unfold omxRecvMediumFrag MediumCopied
  dsimp only
  split
  · rename_i hlong
    exact iff_of_true ((balanced_plain rfl).2 balanced_out)
      fun _ _ harr => absurd harr.length_le (by omega)
  · split
    · rename_i hshort
      exact iff_of_true ((balanced_plain rfl).2 balanced_out)
        fun _ _ harr => absurd harr.in_skb (by omega)
    · rename_i hlong hshort
      have hin := not_lt.1 hshort
      rw [sub_of_le h hlt] at hin
      rw [balanced_withPeer, balanced_withEndpoint nackLib_plain]
      constructor
      · intro hall ep recvqOffset harr
        have hep := hall harr.peer ep harr.endpoint
        rw [balanced_withSession nackLib_plain] at hep
        have hep := hep harr.session
        rw [harr.slot] at hep
        exact (balanced_storeMedium_iff (by omega)).1 hep
      · intro hall hpeer ep hep
        rw [balanced_withSession nackLib_plain]
        intro hsession
        split
        · exact balanced_outWithEndpoint
        · rename_i recvqOffset hsome
          exact (balanced_storeMedium_iff (by omega)).2 (hall ep recvqOffset
            ⟨not_lt.1 hlong, not_lt.1 hshort, hpeer, hep, hsession, hsome⟩)

end Xen2mx.Recvpath
