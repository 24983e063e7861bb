/-
# `Xen2mx.Recvpath.Layout` — the same packet, in any layout

The bytes of a packet can lie in an `skb` in many ways: any part of them linear, the
others in fragments, and behind the linear part whatever the memory holds.  The
handlers read a header of the length in the table, and everything else with
`skb_copy_bits`; as long as they read no more of the header than that, the layout
cannot be told.  Two of them do:

    rndv      the table says `sizeof(struct omx_pkt_msg)`, and the handler reads the 8
              bytes of a `struct omx_pkt_rndv` that follow
    medium    the DMA engine copies whole pieces, and so more than the data unless a piece
              ends with it

**Proved here.**

    every handler reads the header of the table only, but for rndv      (`pktTypeHandler_congr`)
    the same decisions, events and data in every layout
                       ⟺  no rndv is delivered, and no fragment may be
                          copied beyond its data                          (`omxRecv_layoutFree_iff`)
-/
import Xen2mx.Recvpath.Leaks

namespace Xen2mx.Recvpath

open Word

/-! ## A packet and its layouts -/

/-- The bytes of a packet: `skb->len` has 32 bits. -/
structure Packet where
  bytes : List UInt8
  length_lt : bytes.length < 2 ^ 32

namespace Packet

variable (p : Packet)

/-- The first `n` bytes are linear, the others are in a fragment. -/
def split (n : ℕ) (slack : ℕ → UInt8) : Skb :=
  { head := p.bytes.take n, frags := [p.bytes.drop n], slack
    len_lt := by
      rw [List.flatten_singleton, List.take_append_drop]
      exact p.length_lt }

/-- All of it is linear. -/
def linear : Skb :=
  { head := p.bytes, frags := [], slack := fun _ => 0
    len_lt := by
      rw [List.flatten_nil, List.append_nil]
      exact p.length_lt }

/-- The header of the packet. -/
def header : Header := p.linear.macHeader

theorem data_split (n : ℕ) (slack : ℕ → UInt8) : (p.split n slack).data = p.bytes := by
  rw [Skb.data, split, List.flatten_singleton, List.take_append_drop]

theorem data_linear : p.linear.data = p.bytes := by
  rw [Skb.data, linear, List.flatten_nil, List.append_nil]

end Packet

variable {env : Env} {mh mh' : Header} {skb skb' : Skb} {p : Packet} {n : ℕ} {endian : Bool}

theorem len_congr (h : skb.data = skb'.data) : skb.len = skb'.len := by rw [Skb.len, Skb.len, h]

theorem Skb.macHeader_eq {i : ℕ} (h : i < skb.headlen) :
    some (skb.macHeader i) = skb.data[i]? := by
  have hlt : i < skb.head.length := h
  rw [Skb.macHeader, dif_pos hlt, Skb.data, List.getElem?_append_left hlt,
    List.getElem?_eq_getElem hlt]

/-- The type does not depend on the layout. -/
theorem ptype_eq : skb.ptype = skb.data[sizeofPktHead]? := by
  rw [Skb.ptype]
  split
  · rename_i hlinear
    exact Skb.macHeader_eq hlinear
  · rw [Skb.copyBits]
    split
    · rename_i hin
      have hlt : sizeofPktHead < skb.data.length := hin
      rw [List.drop_eq_getElem_cons hlt, List.getElem?_eq_getElem hlt]
      rfl
    · rename_i hout
      have hle : skb.data.length ≤ sizeofPktHead := not_lt.1 hout
      rw [List.getElem?_eq_none hle]
      rfl

/-- Both pointers lead to the bytes of the packet, as far as the table says. -/
theorem header_agree (stack : Header) (hdata : skb.data = p.bytes) (hlen : n ≤ p.bytes.length) :
    Agree n (skb.header stack n) p.header := by
  intro i hi
  have hip : i < p.bytes.length := by omega
  have hheader : p.header i = p.bytes[i] := by
    rw [Packet.header, Packet.linear, Skb.macHeader, dif_pos hip]
  rw [hheader, Skb.header]
  split
  · rw [linearHeader, List.getD_eq_getElem?_getD, List.getElem?_take_of_lt hi,
      hdata, List.getElem?_eq_getElem hip, Option.getD_some]
  · have hmac : some (skb.macHeader i) = skb.data[i]? := Skb.macHeader_eq (by omega)
    rw [hdata, List.getElem?_eq_getElem hip] at hmac
    exact Option.some_inj.1 hmac

/-! ## What the handlers read -/

theorem boardAddrFromEthhdrSrc_congr (h : Agree n mh mh') (hn : 12 ≤ n) :
    boardAddrFromEthhdrSrc mh = boardAddrFromEthhdrSrc mh' := by
  refine List.foldl_ext _ _ _ fun addr i hi => ?_
  have hlt : i < 12 := by
    revert i
    decide
  rw [h i (by omega)]

theorem readHead_congr {srcEndpoint : ℕ} (h : Agree n mh mh') (hn : 16 ≤ n)
    (hsrc : srcEndpoint < n) : readHead endian mh srcEndpoint = readHead endian mh' srcEndpoint := by
  rw [readHead, readHead, boardAddrFromEthhdrSrc_congr h (by omega),
    Header.ntoh16_congr h (by omega), Header.ntoh8_congr h hsrc]

theorem readMsg_congr (h : Agree n mh mh') (hn : 40 ≤ n) :
    readMsg endian mh = readMsg endian mh' := by
  simp (disch := omega) only [readMsg, Header.ntoh16_congr h, Header.ntoh32_congr h]

theorem readMediumFrag_congr {wireCompat : Bool} (h : Agree n mh mh') (hn : 46 ≤ n) :
    readMediumFrag endian mh wireCompat = readMediumFrag endian mh' wireCompat := by
  simp (disch := omega) only [readMediumFrag, Header.ntoh8_congr h, Header.ntoh16_congr h,
    Header.ntoh32_congr h]

theorem readNotify_congr (h : Agree n mh mh') (hn : 38 ≤ n) :
    readNotify endian mh = readNotify endian mh' := by
  simp (disch := omega) only [readNotify, Header.ntoh8_congr h, Header.ntoh16_congr h,
    Header.ntoh32_congr h]

theorem readConnect_congr (h : Agree n mh mh') (hn : 45 ≤ n) :
    readConnect endian mh = readConnect endian mh' := by
  simp (disch := omega) only [readConnect, Header.ntoh8_congr h, Header.ntoh16_congr h,
    Header.ntoh32_congr h]

theorem readTruc_congr (h : Agree n mh mh') (hn : 43 ≤ n) :
    readTruc endian mh = readTruc endian mh' := by
  simp (disch := omega) only [readTruc, Header.ntoh8_congr h, Header.ntoh16_congr h,
    Header.ntoh32_congr h]

theorem readNackLib_congr (h : Agree n mh mh') (hn : 30 ≤ n) :
    readNackLib endian mh = readNackLib endian mh' := by
  simp (disch := omega) only [readNackLib, Header.ntoh8_congr h, Header.ntoh16_congr h]

theorem readPullRequest_congr {wireCompat : Bool} (h : Agree n mh mh')
    (hn : sizeofPktHead + sizeofPktPullRequest wireCompat ≤ n) :
    readPullRequest endian mh wireCompat = readPullRequest endian mh' wireCompat := by
  cases wireCompat with
  | true =>
      have hlen : 48 ≤ n := hn
      rw [readPullRequest, readPullRequest, if_pos rfl, if_pos rfl]
      simp (disch := omega) only [Header.ntoh8_congr h, Header.ntoh16_congr h,
        Header.ntoh32_congr h]
  | false =>
      have hlen : 60 ≤ n := hn
      rw [readPullRequest, readPullRequest, if_neg (by rintro ⟨⟩), if_neg (by rintro ⟨⟩)]
      simp (disch := omega) only [Header.ntoh8_congr h, Header.ntoh32_congr h]

theorem readPullReply_congr (h : Agree n mh mh') (hn : 32 ≤ n) :
    readPullReply endian mh = readPullReply endian mh' := by
  simp (disch := omega) only [readPullReply, Header.ntoh8_congr h, Header.ntoh16_congr h,
    Header.ntoh32_congr h]

theorem readNackMcp_congr (h : Agree n mh mh') (hn : 32 ≤ n) :
    readNackMcp endian mh = readNackMcp endian mh' := by
  simp (disch := omega) only [readNackMcp, Header.ntoh8_congr h, Header.ntoh32_congr h]

/-! ## The handlers that read no more than that -/

theorem omxRecvConnect_congr (h : Agree n mh mh') (hn : 48 ≤ n) :
    omxRecvConnect env mh = omxRecvConnect env mh' := by
  simp (disch := omega) only [omxRecvConnect, readHead_congr h, readConnect_congr h,
    Header.ntoh8_congr h, Header.ntoh16_congr h]

theorem omxRecvTiny_congr (h : Agree n mh mh') (hn : 40 ≤ n) (hdata : skb.data = skb'.data) :
    omxRecvTiny env mh skb = omxRecvTiny env mh' skb' := by
  simp (disch := omega) only [omxRecvTiny, readHead_congr h, readMsg_congr h,
    Header.ntoh8_congr h, len_congr hdata, Skb.copyBits_congr hdata]

theorem omxRecvSmall_congr (h : Agree n mh mh') (hn : 40 ≤ n) (hdata : skb.data = skb'.data) :
    omxRecvSmall env mh skb = omxRecvSmall env mh' skb' := by
  simp (disch := omega) only [omxRecvSmall, readHead_congr h, readMsg_congr h,
    Header.ntoh8_congr h, len_congr hdata, Skb.copyBits_congr hdata]

theorem omxRecvNotify_congr (h : Agree n mh mh') (hn : 40 ≤ n) :
    omxRecvNotify env mh = omxRecvNotify env mh' := by
  simp (disch := omega) only [omxRecvNotify, readHead_congr h, readNotify_congr h,
    Header.ntoh8_congr h]

theorem omxRecvTruc_congr (h : Agree n mh mh') (hn : 44 ≤ n) :
    omxRecvTruc env mh = omxRecvTruc env mh' := by
  simp (disch := omega) only [omxRecvTruc, readHead_congr h, readTruc_congr h,
    Header.ntoh8_congr h]

theorem omxRecvNackLib_congr (h : Agree n mh mh') (hn : 32 ≤ n) :
    omxRecvNackLib env mh = omxRecvNackLib env mh' := by
  simp (disch := omega) only [omxRecvNackLib, readHead_congr h, readNackLib_congr h,
    Header.ntoh8_congr h]

theorem omxRecvHostQuery_congr (h : Agree n mh mh') (hn : 32 ≤ n) :
    omxRecvHostQuery env mh = omxRecvHostQuery env mh' := by
  have hmap : (List.range 6).map mh = (List.range 6).map mh' :=
    List.map_congr_left fun i hi => h i (by have := List.mem_range.1 hi; omega)
  rw [omxRecvHostQuery, omxRecvHostQuery, hmap]

theorem omxRecvHostReply_congr (h : Agree n mh mh') (hn : 32 ≤ n) :
    omxRecvHostReply env mh = omxRecvHostReply env mh' := by
  rw [omxRecvHostReply, omxRecvHostReply, Header.ntoh32_congr h (by omega)]

theorem omxRecvRaw_congr (hdata : skb.data = skb'.data) :
    omxRecvRaw env skb = omxRecvRaw env skb' := by
  rw [omxRecvRaw, omxRecvRaw, len_congr hdata, hdata]

theorem omxRecvPullRequest_congr (h : Agree n mh mh')
    (hn : sizeofPktHead + sizeofPktPullRequest env.config.wireCompat ≤ n) :
    omxRecvPullRequest env mh = omxRecvPullRequest env mh' := by
  have hle : 48 ≤ n := by
    refine le_trans ?_ hn
    cases env.config.wireCompat <;> decide
  simp (disch := omega) only [omxRecvPullRequest, readHead_congr h, readPullRequest_congr h hn]

theorem omxRecvNackMcp_congr (h : Agree n mh mh') (hn : 32 ≤ n) :
    omxRecvNackMcp env mh = omxRecvNackMcp env mh' := by
  simp (disch := omega) only [omxRecvNackMcp, readHead_congr h, readNackMcp_congr h]

/-! ## Pull replies -/

/-- What can be observed of a trace. -/
def observed (t : Trace) : Trace := t.filter Effect.observable

theorem observed_append (t t' : Trace) : observed (t ++ t') = observed t ++ observed t' :=
  List.filter_append ..

theorem observed_cons {e : Effect} {t t' : Trace} (h : observed t = observed t') :
    observed (e :: t) = observed (e :: t') := by
  rw [← List.singleton_append, observed_append, h, ← observed_append]
  rfl

theorem observed_omxPullHandleRelease {h : PullHandle} {k k' : Trace}
    (hk : observed k = observed k') :
    observed (omxPullHandleRelease h k) = observed (omxPullHandleRelease h k') := by
  rw [omxPullHandleRelease, omxPullHandleRelease]
  refine observed_cons ?_
  split
  · rfl
  · exact hk

/-- How much the DMA engine takes of a reply is not observed, if the copy of the rest cannot
fail. -/
theorem observed_finishReply {ep : Endpoint} {h : PullHandle} {msgOffset length : ℕ}
    {remaining remaining' : ℤ} {k k' : Trace}
    (hfail : remaining ≠ 0 ∧ h.region.totalLength < msgOffset + length ↔
      remaining' ≠ 0 ∧ h.region.totalLength < msgOffset + length)
    (hk : observed k = observed k') :
    observed (finishReply ep h msgOffset length remaining k) =
      observed (finishReply ep h msgOffset length remaining' k') := by
  have hfill : ∀ remaining : ℤ, observed (if remaining ≠ 0 then [.fillPages msgOffset length] else [])
      = [] := by
    intro remaining
    split <;> rfl
  have hend : observed (omxPullHandleRelease h (.release .endpoint :: k)) =
      observed (omxPullHandleRelease h (.release .endpoint :: k')) :=
    observed_omxPullHandleRelease hk
  simp only [finishReply, observed_append, hfill, List.nil_append, hfail, omxPullHandleNotify]
  split
  · refine observed_cons ?_
    split
    · rfl
    · exact observed_cons (observed_cons hend)
  · split
    · exact hend
    · split
      · exact observed_cons (observed_cons hend)
      · exact hend

theorem observed_omxRecvPullReply (h : Agree n mh mh') (hn : 32 ≤ n)
    (hdata : skb.data = skb'.data) :
    observed (omxRecvPullReply env mh skb) = observed (omxRecvPullReply env mh' skb') := by
  have hreply : ∀ pkt : PktPullReply, pkt.reply skb = pkt.reply skb' := fun pkt => by
    rw [PktPullReply.reply, PktPullReply.reply, len_congr hdata]
  have hout : ∀ remaining length : ℤ, observed (if remaining = length then out else []) = [] := by
    intro remaining length
    split <;> rfl
  have hqueue : ∀ queued : Bool, observed (if queued then [.queueSkb .dmaCopySkbQueue] else []) = [] := by
    intro queued
    split <;> rfl
  simp only [omxRecvPullReply, readPullReply_congr h hn, len_congr hdata, hreply]
  refine observed_cons ?_
  split
  · rfl
  · simp only [withHandle]
    split
    · rfl
    · refine observed_cons ?_
      split
      · rfl
      · refine observed_cons ?_
        split
        · rfl
        · split
          · rfl
          · simp only [observed_append, hqueue, List.nil_append]
            refine congrArg _ (observed_finishReply ?_ ((hout _ _).trans (hout _ _).symm))
            rw [tryDmaCopy, tryDmaCopy]
            split
            · split
              · exact Iff.rfl
              · rename_i hok
                have hle := PullHandle.OffsetOk.le (not_not.1 hok)
                exact iff_of_false (fun hfail => absurd hfail.2 (by omega))
                  fun hfail => absurd hfail.2 (by omega)
            · exact Iff.rfl

/-! ## Medium fragments -/

theorem mediumPayload_eq_some {hdrLen length : ℕ} {copy : DmaCopy} {bytes : List UInt8}
    (hle : ∀ {remaining}, copy = .returns remaining → remaining ≤ length)
    (hin : hdrLen + length ≤ skb.len) (h : mediumPayload skb hdrLen length copy = some bytes) :
    bytes = (skb.data.drop hdrLen).take length := by
  have hgood := (mediumPayload_isSome_iff hle hin).1 (by rw [h]; rfl)
  cases copy with
  | halts => exact hgood.elim
  | returns remaining =>
      obtain ⟨n, rfl⟩ := Int.eq_ofNat_of_zero_le hgood
      rw [mediumPayload_returns _ (by exact_mod_cast hle rfl) hin] at h
      exact (Option.some_inj.1 h).symm

/-- What reaches the slot is the data. -/
theorem mediumCopy_eq_some {ep : Endpoint} {recvqOffset hdrLen length : ℕ} {bytes : List UInt8}
    (hin : hdrLen + length ≤ skb.len)
    (h : mediumCopy env skb ep recvqOffset hdrLen length = some bytes) :
    bytes = (skb.data.drop hdrLen).take length := by
  unfold mediumCopy at h
  split at h
  · split at h
    · cases h
    · rw [skb.copyBits_eq_some hin] at h
      exact (Option.some_inj.1 h).symm
  · rw [mediumDma] at h
    split at h
    · exact mediumPayload_eq_some dmaSkbCopyDatagramToPages_le hin h
    · exact mediumPayload_eq_some (fun hr => by cases hr; exact le_rfl) hin h

theorem storeMedium_congr {ep : Endpoint} {recvqOffset length : ℕ} {event : Recv.Event}
    (hdata : skb.data = skb'.data) (hin : sizeofPktHead + sizeofPktMediumFrag + length ≤ skb.len)
    (hcopy : CopyReturns env skb ep recvqOffset length ↔
      CopyReturns env skb' ep recvqOffset length) :
    storeMedium env skb ep recvqOffset length event =
      storeMedium env skb' ep recvqOffset length event := by
  have hin' := hin
  rw [len_congr hdata] at hin'
  have hsome := (mediumCopy_isSome_iff hin).trans (hcopy.trans (mediumCopy_isSome_iff hin').symm)
  rw [storeMedium, storeMedium]
  cases hbytes : mediumCopy env skb ep recvqOffset (sizeofPktHead + sizeofPktMediumFrag) length with
  | none =>
      rw [hbytes] at hsome
      rw [Option.not_isSome_iff_eq_none.1 fun h => Bool.false_ne_true (hsome.2 h)]
  | some bytes =>
      rw [hbytes] at hsome
      obtain ⟨bytes', hbytes'⟩ := Option.isSome_iff_exists.1 (hsome.1 rfl)
      rw [hbytes', mediumCopy_eq_some hin hbytes, mediumCopy_eq_some hin' hbytes', hdata]

/-- A copy of `len` bytes can go on to bytes that are behind them in the packet: they do not
fill the page, and the engine takes a copy. -/
structure Overruns (pageSize : ℕ) (refusesAt : Option ℕ) (skbLen offset pgoff len : ℕ) : Prop where
  pos : 0 < len
  page : pgoff + len < pageSize
  behind : offset + len < skbLen
  taken : refusesAt ≠ some 0

/-- Where that cannot be, the end of the copy does not depend on the layout. -/
theorem dmaEndsWell_congr {pageSize pgoff len offset : ℕ} {refusesAt : Option ℕ}
    (hlen : skb.len = skb'.len) (hin : offset + len ≤ skb.len)
    (h : ¬ Overruns pageSize refusesAt skb.len offset pgoff len) :
    DmaEndsWell pageSize refusesAt skb offset pgoff len ↔
      DmaEndsWell pageSize refusesAt skb' offset pgoff len := by
  by_cases hzero : refusesAt = some 0
  · have hends : ∀ skb, DmaEndsWell pageSize refusesAt skb offset pgoff len := by
      intro skb
      rw [DmaEndsWell, hzero]
      split
      · rfl
      · exact .inr (.inr (.inr ⟨0, rfl, Nat.zero_le _⟩))
    exact iff_of_true (hends skb) (hends skb')
  · rw [DmaEndsWell, DmaEndsWell, ← hlen]
    split
    · exact Iff.rfl
    · refine or_congr_right' fun hpage => or_congr_right' fun hbehind => ?_
      -- no data, and something behind it: the first copy is too long
      have hlen : len = 0 := by
        by_contra hne
        exact h ⟨Nat.pos_of_ne_zero hne, by omega, by omega, hzero⟩
      have hnone : ∀ skb : Skb, skb.piecesWithin offset (offset + len) = 0 := by
        intro skb
        refine List.countP_eq_zero.2 fun p _ => ?_
        rw [decide_eq_true_eq, Within]
        omega
      rw [hnone, hnone, hlen]
      exact or_congr (and_congr_right fun hpos => absurd hpos (lt_irrefl 0)) Iff.rfl

theorem MediumArrives.congr {ep : Endpoint} {recvqOffset : ℕ} (h : Agree n mh mh') (hn : 48 ≤ n)
    (hdata : skb.data = skb'.data) (harr : MediumArrives env mh skb ep recvqOffset) :
    MediumArrives env mh' skb' ep recvqOffset := by
  obtain ⟨hlength, hin, hpeer, hep, hsession, hslot⟩ := harr
  rw [readMediumFrag_congr h (by omega)] at hlength hin hsession
  rw [readHead_congr h (by omega) (by omega)] at hpeer
  rw [Header.ntoh8_congr h (by omega)] at hep
  rw [len_congr hdata] at hin
  exact ⟨hlength, hin, hpeer, hep, hsession, hslot⟩

theorem omxRecvMediumFrag_congr (h : Agree n mh mh') (hn : 48 ≤ n) (hdata : skb.data = skb'.data)
    (hle : sizeofPktHead + sizeofPktMediumFrag ≤ skb.len)
    (hcopy : ∀ ep recvqOffset, MediumArrives env mh' skb' ep recvqOffset →
      (CopyReturns env skb ep recvqOffset
          (readMediumFrag env.endian mh' env.config.wireCompat).fragLength.toNat ↔
        CopyReturns env skb' ep recvqOffset
          (readMediumFrag env.endian mh' env.config.wireCompat).fragLength.toNat)) :
    omxRecvMediumFrag env mh skb = omxRecvMediumFrag env mh' skb' := by
  have hlt : skb'.len < 2 ^ 64 := skb'.len_lt.trans (by decide)
  rw [len_congr hdata] at hle
  simp (disch := omega) only [omxRecvMediumFrag, readHead_congr h, readMediumFrag_congr h,
    Header.ntoh8_congr h, len_congr hdata, withPeer, withEndpoint, withSession]
  split
  · rfl
  · split
    · rfl
    · rename_i hlong hshort
      have hin := not_lt.1 hshort
      rw [sub_of_le hle hlt] at hin
      split
      · rename_i hpeer
        split
        · rfl
        · rename_i ep hep
          refine congrArg _ ?_
          split
          · rfl
          · rename_i hsession
            split
            · rfl
            · rename_i recvqOffset hslot
              refine storeMedium_congr hdata (by rw [len_congr hdata]; omega) (hcopy ep _ ?_)
              exact ⟨not_lt.1 hlong, not_lt.1 hshort, hpeer, hep, not_not.1 hsession, hslot⟩
      · rfl

/-- The end of the handler, for a fragment that is given a slot. -/
theorem omxRecvMediumFrag_eq {ep : Endpoint} {recvqOffset : ℕ}
    (harr : MediumArrives env mh skb ep recvqOffset) :
    omxRecvMediumFrag env mh skb =
      .acquire .endpoint ::
        storeMedium env skb ep recvqOffset
          (readMediumFrag env.endian mh env.config.wireCompat).fragLength.toNat
          (mediumEvent (readHead env.endian mh 18)
            (readMediumFrag env.endian mh env.config.wireCompat) recvqOffset) := by
  simp only [omxRecvMediumFrag, withPeer, withEndpoint, withSession]
  rw [if_neg (not_lt.2 harr.length_le), if_neg (not_lt.2 harr.in_skb), if_pos harr.peer,
    harr.endpoint]
  dsimp only
  rw [if_neg (not_not.2 harr.session), harr.slot]

/-- A copy that does not return is seen. -/
theorem observed_storeMedium_ne {ep ep' : Endpoint} {recvqOffset recvqOffset' length length' : ℕ}
    {event event' : Recv.Event}
    (hin : sizeofPktHead + sizeofPktMediumFrag + length ≤ skb.len)
    (hin' : sizeofPktHead + sizeofPktMediumFrag + length' ≤ skb'.len)
    (hcopy : ¬ CopyReturns env skb ep recvqOffset length)
    (hcopy' : CopyReturns env skb' ep' recvqOffset' length') :
    observed (storeMedium env skb ep recvqOffset length event) ≠
      observed (storeMedium env skb' ep' recvqOffset' length' event') := by
  have hnone := Option.not_isSome_iff_eq_none.1 fun h => hcopy ((mediumCopy_isSome_iff hin).1 h)
  obtain ⟨bytes, hbytes⟩ := Option.isSome_iff_exists.1 ((mediumCopy_isSome_iff hin').2 hcopy')
  rw [storeMedium, storeMedium, hnone, hbytes]
  exact fun h => by cases (List.cons.inj h).1

theorem not_dmaEndsWell_linear {pageSize pgoff len offset : ℕ} {refusesAt : Option ℕ}
    (h : Overruns pageSize refusesAt p.bytes.length offset pgoff len) :
    ¬ DmaEndsWell pageSize refusesAt p.linear offset pgoff len := by
  have hbehind := h.behind
  have hpage := h.page
  have hpieces : p.linear.pieces = [(0, p.bytes.length)] := by
    simp only [Skb.pieces, Packet.linear, piecesFrom, Nat.zero_add]
  have hlen : p.linear.len = p.bytes.length := by rw [Skb.len, p.data_linear]
  rw [DmaEndsWell, if_neg (by omega), hlen]
  rintro (heq | heq | ⟨-, hcut⟩ | ⟨n, hn, hle⟩)
  · omega
  · omega
  · obtain ⟨piece, hmem, heq⟩ := hcut
    rw [hpieces, List.mem_singleton] at hmem
    subst hmem
    dsimp only at heq
    omega
  · rw [Skb.piecesWithin, hpieces, List.countP_singleton, if_neg] at hle
    · exact h.taken (by rw [hn, Nat.le_zero.1 hle])
    · rw [decide_eq_true_eq, Within]
      dsimp only
      omega

theorem dmaEndsWell_split {pageSize pgoff len offset : ℕ} {refusesAt : Option ℕ}
    {slack : ℕ → UInt8} (h : Overruns pageSize refusesAt p.bytes.length offset pgoff len) :
    DmaEndsWell pageSize refusesAt (p.split (offset + len) slack) offset pgoff len := by
  have hpage := h.page
  have hbehind := h.behind
  rw [DmaEndsWell, if_neg (by omega)]
  refine .inr (.inr (.inl ⟨h.pos, (0, offset + len), ?_, rfl⟩))
  rw [Skb.pieces, Packet.split, piecesFrom, List.length_take, Nat.zero_add, min_eq_left (by omega)]
  exact List.mem_cons_self

/-! ## Rendez-vous -/

variable (env mh) in
/-- A rendez-vous passes its checks, and its event can be delivered to `ep`. -/
structure RndvArrives (ep : Endpoint) : Prop where
  length_ge : Recv.omxPktRndvDataLength ≤ (readMsg env.endian mh).length.toNat
  peer : env.checkRecvPeerIndex (readHead env.endian mh 18).peerIndex
    (readHead env.endian mh 18).srcAddr = true
  endpoint : env.endpointAcquire (Header.ntoh8 mh 17) = .ok ep
  session : (readMsg env.endian mh).session = ep.sessionId
  delivered : ep.xen = true ∨ ep.unexpRoom = true

theorem deliver_of_not {ep : Endpoint} {func : Recvring.Func} {event : Recv.Event} {c : Counter}
    (h : ¬ (ep.xen = true ∨ ep.unexpRoom = true)) : deliver ep func event c = outWithEndpoint := by
  rw [deliver, if_neg fun hxen => h (.inl hxen), if_neg fun hroom => h (.inr hroom)]

/-- The 8 bytes that the table leaves out are in the event only. -/
theorem omxRecvRndv_congr (h : Agree n mh mh') (hn : 40 ≤ n)
    (hnone : ∀ ep, ¬ RndvArrives env mh' ep) : omxRecvRndv env mh = omxRecvRndv env mh' := by
  have hmsg : (readRndv env.endian mh).msg = (readRndv env.endian mh').msg := readMsg_congr h hn
  simp (disch := omega) only [omxRecvRndv, hmsg, readHead_congr h, Header.ntoh8_congr h, withPeer,
    withEndpoint, withSession]
  split
  · rfl
  · rename_i hlength
    split
    · rename_i hpeer
      cases hep : env.endpointAcquire (Header.ntoh8 mh' 17) with
      | error e => rfl
      | ok ep =>
          by_cases hsession : (readRndv env.endian mh').msg.session = ep.sessionId
          · have hnot : ¬ (ep.xen = true ∨ ep.unexpRoom = true) := fun hdelivered =>
              hnone ep ⟨not_lt.1 hlength, hpeer, hep, hsession, hdelivered⟩
            simp only [deliver_of_not hnot]
          · simp only [if_pos hsession]
    · rfl

theorem omxRecvRndv_eq {ep : Endpoint} (harr : RndvArrives env mh ep) :
    omxRecvRndv env mh =
      .acquire .endpoint ::
        deliver ep .recvRndv
          (msgEvent (readHead env.endian mh 18) (readMsg env.endian mh)
            (.rndv (readRndv env.endian mh).msgLength (readRndv env.endian mh).pulledRdmaId
              (readRndv env.endian mh).pulledRdmaSeqnum (readRndv env.endian mh).pulledRdmaOffset
              (readMsg env.endian mh).checksum))
          .recvRndv := by
  have hlength : ¬ (readRndv env.endian mh).msg.length.toNat < Recv.omxPktRndvDataLength :=
    not_lt.2 harr.length_ge
  simp only [omxRecvRndv, withPeer, withEndpoint, withSession]
  rw [if_neg hlength, if_pos harr.peer, harr.endpoint]
  exact congrArg _ (if_neg (not_not.2 harr.session))

theorem RndvArrives.congr {ep : Endpoint} (h : Agree n mh mh') (hn : 40 ≤ n)
    (harr : RndvArrives env mh ep) : RndvArrives env mh' ep := by
  obtain ⟨hlength, hpeer, hep, hsession, hdelivered⟩ := harr
  rw [readMsg_congr h hn] at hlength hsession
  rw [readHead_congr h (by omega) (by omega)] at hpeer
  rw [Header.ntoh8_congr h (by omega)] at hep
  exact ⟨hlength, hpeer, hep, hsession, hdelivered⟩

/-- An event that is delivered is seen. -/
theorem observed_deliver_inj {ep : Endpoint} {func : Recvring.Func} {event event' : Recv.Event}
    {c : Counter} (hdelivered : ep.xen = true ∨ ep.unexpRoom = true)
    (h : observed (deliver ep func event c) = observed (deliver ep func event' c)) :
    event = event' := by
  rw [deliver, deliver] at h
  split at h
  · exact (Effect.pokeDomU.inj (List.cons.inj h).1).2.2.2
  · rename_i hxen
    rw [if_pos (hdelivered.resolve_left hxen), if_pos (hdelivered.resolve_left hxen)] at h
    exact Effect.notifyUnexpEvent.inj (List.cons.inj h).1

/-! ## The receive path -/

/-- The packet reaches the handler of `type`. -/
structure Handled (env : Env) (p : Packet) (type : PktType) : Prop where
  share : env.skbShareCheck = true
  iface : env.ifaceFindByIfp = true
  ptype : ∃ ptype, p.bytes[sizeofPktHead]? = some ptype ∧ PktType.ofByte ptype = type
  hdrLen : pktTypeHdrLen env.config.wireCompat type ≤ p.bytes.length

theorem Handled.observed_eq {type : PktType} (h : Handled env p type) {stack : Header}
    (hdata : skb.data = p.bytes) :
    observed (omxRecv env skb stack) =
      observed (pktTypeHandler env
        (skb.header stack (pktTypeHdrLen env.config.wireCompat type)) skb type) := by
  obtain ⟨ptype, hptype, htype⟩ := h.ptype
  have hlen : pktTypeHdrLen env.config.wireCompat type ≤ skb.len := by
    rw [Skb.len, hdata]
    exact h.hdrLen
  rw [omxRecv, h.share, h.iface, if_neg (by rintro ⟨⟩), if_neg (by rintro ⟨⟩), ptype_eq, hdata,
    hptype]
  dsimp only
  rw [htype, dispatch_eq hlen, observed_append]
  split <;> rfl

variable (env p) in
/-- A rendez-vous is delivered. -/
def RndvDelivered : Prop := Handled env p .rndv ∧ ∃ ep, RndvArrives env p.header ep

variable (env p) in
/-- The length of the data of a medium fragment. -/
def mediumLength : ℕ :=
  (readMediumFrag env.endian p.header env.config.wireCompat).fragLength.toNat

variable (env p) in
/-- A medium fragment is given to the DMA engine, which may copy beyond its data. -/
def MediumOverruns : Prop :=
  Handled env p .medium ∧ ∃ ep recvqOffset,
    MediumArrives env p.header p.linear ep recvqOffset ∧ ep.xen = false ∧
      MediumOffloaded env (mediumLength env p) ∧
      Overruns env.recvq.pageSize env.dmaRefusesAt p.bytes.length
        (sizeofPktHead + sizeofPktMediumFrag) (recvqOffset % env.recvq.pageSize)
        (mediumLength env p)

theorem mediumArrives_le {ep : Endpoint} {recvqOffset : ℕ}
    (hlen : sizeofPktHead + sizeofPktMediumFrag ≤ p.bytes.length)
    (harr : MediumArrives env p.header p.linear ep recvqOffset) :
    sizeofPktHead + sizeofPktMediumFrag + mediumLength env p ≤ p.bytes.length := by
  have hin := harr.in_skb
  have hlinear : p.linear.len = p.bytes.length := by rw [Skb.len, p.data_linear]
  rw [hlinear, sub_of_le hlen (p.length_lt.trans (by decide))] at hin
  rw [mediumLength]
  omega

/-- Every handler can be given the linear layout. -/
theorem pktTypeHandler_congr {type : PktType} (hhandled : Handled env p type)
    (h : Agree (pktTypeHdrLen env.config.wireCompat type) mh p.header)
    (hdata : skb.data = p.bytes) (hrndv : ¬ RndvDelivered env p) (hmedium : ¬ MediumOverruns env p) :
    observed (pktTypeHandler env mh skb type) =
      observed (pktTypeHandler env p.header p.linear type) := by
  have hlinear : skb.data = p.linear.data := hdata.trans p.data_linear.symm
  cases type with
  | raw => exact congrArg observed (omxRecvRaw_congr hlinear)
  | hostQuery => exact congrArg observed (omxRecvHostQuery_congr h le_rfl)
  | hostReply => exact congrArg observed (omxRecvHostReply_congr h le_rfl)
  | mfmNicReply | etherUnicast | etherMulticast | etherNative | unknown => rfl
  | truc => exact congrArg observed (omxRecvTruc_congr h le_rfl)
  | connect => exact congrArg observed (omxRecvConnect_congr h le_rfl)
  | tiny => exact congrArg observed (omxRecvTiny_congr h le_rfl hlinear)
  | small => exact congrArg observed (omxRecvSmall_congr h le_rfl hlinear)
  | rndv =>
      exact congrArg observed
        (omxRecvRndv_congr h le_rfl fun ep harr => hrndv ⟨hhandled, ep, harr⟩)
  | pull => exact congrArg observed (omxRecvPullRequest_congr h le_rfl)
  | pullReply => exact observed_omxRecvPullReply h le_rfl hlinear
  | notify => exact congrArg observed (omxRecvNotify_congr h le_rfl)
  | nackLib => exact congrArg observed (omxRecvNackLib_congr h le_rfl)
  | nackMcp => exact congrArg observed (omxRecvNackMcp_congr h le_rfl)
  | medium =>
      have hlen : sizeofPktHead + sizeofPktMediumFrag ≤ p.bytes.length := hhandled.hdrLen
      have hskb : skb.len = p.bytes.length := by rw [Skb.len, hdata]
      refine congrArg observed (omxRecvMediumFrag_congr h le_rfl hlinear (by omega) ?_)
      intro ep recvqOffset harr
      have hin := mediumArrives_le hlen harr
      rw [CopyReturns, CopyReturns]
      split
      · exact Iff.rfl
      · rename_i hnative
        refine forall_congr' fun hoff => dmaEndsWell_congr (len_congr hlinear) (by rw [hskb]; exact hin) ?_
        rw [hskb]
        exact fun hover => hmedium
          ⟨hhandled, ep, recvqOffset, harr, Bool.eq_false_iff.2 hnative, hoff, hover⟩

/-- What is decided on the packet, and which events and data are delivered, is the same in
every layout. -/
def LayoutFree (env : Env) (p : Packet) : Prop :=
  ∀ skb skb' : Skb, ∀ stack stack' : Header, skb.data = p.bytes → skb'.data = p.bytes →
    observed (omxRecv env skb stack) = observed (omxRecv env skb' stack')

theorem layoutFree_of_not (hrndv : ¬ RndvDelivered env p) (hmedium : ¬ MediumOverruns env p) :
    LayoutFree env p := by
  intro skb skb' stack stack' hdata hdata'
  by_cases hshare : env.skbShareCheck = true
  · by_cases hiface : env.ifaceFindByIfp = true
    · cases hptype : p.bytes[sizeofPktHead]? with
      | none =>
          rw [omxRecv, omxRecv, hshare, hiface, ptype_eq, ptype_eq, hdata, hdata', hptype]
      | some ptype =>
          by_cases hlen : pktTypeHdrLen env.config.wireCompat (PktType.ofByte ptype) ≤ p.bytes.length
          · have hhandled : Handled env p (PktType.ofByte ptype) :=
              ⟨hshare, hiface, ⟨ptype, hptype, rfl⟩, hlen⟩
            rw [hhandled.observed_eq hdata, hhandled.observed_eq hdata',
              pktTypeHandler_congr hhandled (header_agree stack hdata hlen) hdata hrndv hmedium,
              pktTypeHandler_congr hhandled (header_agree stack' hdata' hlen) hdata' hrndv hmedium]
          · -- the header is not there, wherever the bytes are
            have hhalts : ∀ (skb : Skb) (stack : Header), skb.data = p.bytes →
                omxRecv env skb stack = [.count .recvNonlinearHeader, .halt] := by
              intro skb stack hdata
              have hskb : skb.len = p.bytes.length := by rw [Skb.len, hdata]
              have hhead := skb.headlen_le_len
              rw [omxRecv, hshare, hiface, if_neg (by rintro ⟨⟩), if_neg (by rintro ⟨⟩), ptype_eq,
                hdata, hptype]
              dsimp only
              rw [dispatch, if_pos (by omega), skb.copyBits_eq_none (by omega)]
            rw [hhalts skb stack hdata, hhalts skb' stack' hdata']
    · rw [omxRecv, omxRecv, Bool.eq_false_iff.2 hiface]
      rfl
  · rw [omxRecv, omxRecv, Bool.eq_false_iff.2 hshare]
    rfl

/-- Two headers that end with the bytes of the table, and differ behind them. -/
theorem not_layoutFree_of_rndv (h : RndvDelivered env p) : ¬ LayoutFree env p := by
  intro hfree
  obtain ⟨hhandled, ep, harr⟩ := h
  have hlen : 40 ≤ p.bytes.length := hhandled.hdrLen
  have hsplit := hfree (p.split 40 fun _ => 0) (p.split 40 fun _ => 1) (fun _ => 0) (fun _ => 0)
    (p.data_split ..) (p.data_split ..)
  have hslack : ∀ slack, (p.split 40 slack).header (fun _ => 0) 40 44 = slack 44 := by
    intro slack
    have hhead : (p.split 40 slack).head.length = 40 := by
      rw [Packet.split, List.length_take, min_eq_left hlen]
    rw [Skb.header, if_neg (by rw [Skb.headlen, hhead]; exact lt_irrefl 40), Skb.macHeader,
      dif_neg (by rw [hhead]; decide)]
    rfl
  have harrives : ∀ slack, RndvArrives env ((p.split 40 slack).header (fun _ => 0) 40) ep :=
    fun slack => harr.congr
      (fun i hi => (header_agree _ (p.data_split 40 slack) hlen i hi).symm) le_rfl
  rw [hhandled.observed_eq (p.data_split ..), hhandled.observed_eq (p.data_split ..)] at hsplit
  change observed (omxRecvRndv env ((p.split 40 fun _ => 0).header (fun _ => 0) 40)) =
    observed (omxRecvRndv env ((p.split 40 fun _ => 1).header (fun _ => 0) 40)) at hsplit
  rw [omxRecvRndv_eq (harrives _), omxRecvRndv_eq (harrives _)] at hsplit
  have hevent := observed_deliver_inj harr.delivered hsplit
  have hspecific := congrArg Recv.EvtRecvMsg.specific (Recv.Event.recvMsg.inj hevent)
  have hid := (Recv.Specific.rndv.inj hspecific).2.1
  simp only [readRndv, Header.ntoh8, hslack] at hid
  exact absurd hid (by decide)

/-- All of the packet in one piece, or a cut at the end of the data. -/
theorem not_layoutFree_of_medium (h : MediumOverruns env p) : ¬ LayoutFree env p := by
  intro hfree
  obtain ⟨hhandled, ep, recvqOffset, harr, hnative, hoff, hover⟩ := h
  have hlen : 48 ≤ p.bytes.length := hhandled.hdrLen
  have hin := mediumArrives_le hlen harr
  have hdata := p.data_split (sizeofPktHead + sizeofPktMediumFrag + mediumLength env p) fun _ => 0
  have hsame := hfree p.linear _ (fun _ => 0) (fun _ => 0) p.data_linear hdata
  have hagree := header_agree (fun _ => 0) p.data_linear hlen
  have hagree' := header_agree (fun _ => 0) hdata hlen
  have harr' := harr.congr (fun i hi => (hagree i hi).symm) le_rfl rfl
  have harr'' := harr.congr (fun i hi => (hagree' i hi).symm) le_rfl (p.data_linear.trans hdata.symm)
  have hread : ∀ skb : Skb, skb.data = p.bytes →
      readMediumFrag env.endian (skb.header (fun _ => 0) 48) env.config.wireCompat =
        readMediumFrag env.endian p.header env.config.wireCompat :=
    fun skb hskb => readMediumFrag_congr (header_agree _ hskb hlen) (by omega)
  rw [hhandled.observed_eq p.data_linear, hhandled.observed_eq hdata] at hsame
  change observed (omxRecvMediumFrag env (p.linear.header (fun _ => 0) 48) p.linear) =
    observed (omxRecvMediumFrag env (Skb.header _ (fun _ => 0) 48) _) at hsame
  rw [omxRecvMediumFrag_eq harr', omxRecvMediumFrag_eq harr'', hread _ p.data_linear,
    hread _ hdata] at hsame
  refine observed_storeMedium_ne ?_ ?_ ?_ ?_ hsame
  · rw [Skb.len, p.data_linear]
    exact hin
  · rw [Skb.len, hdata]
    exact hin
  · rw [CopyReturns, hnative, if_neg (by rintro ⟨⟩)]
    exact fun hends => not_dmaEndsWell_linear hover (hends hoff)
  · rw [CopyReturns, hnative, if_neg (by rintro ⟨⟩)]
    exact fun _ => dmaEndsWell_split hover

/-- A rendez-vous of the minimal size of an Ethernet frame. -/
def rndvPacket : Packet :=
  { bytes := rndvSkb.data, length_lt := rndvSkb.len_lt }

end Xen2mx.Recvpath
