/-
# `Xen2mx.Recvpath.Medium` — medium fragments, and the DMA engine that may copy them

The data of a medium fragment goes to a slot of the receive queue.  For a guest it is
staged first and copied to the pages of the queue; for a local endpoint the DMA engine
may be given the copy, piece by piece: the rest of the linear part, then each fragment
of the `skb`.  What the engine did not take is copied by the host.

`omx_dma_skb_copy_datagram_to_pages` cuts a piece at the end of the page, not at the end
of the data (the second `min_t` forgets the first), and when it reaches the end of the
page it does not go on to the start of the next one: from there on it submits empty
copies until the engine refuses one.
-/
import Xen2mx.Recvpath.Handlers

namespace Xen2mx.Recvpath

open Word

/-! ## The DMA engine -/

/-- How `omx_dma_skb_copy_datagram_to_pages` ends: it returns how much is left, below zero
if it copied too much, or it does not return. -/
inductive DmaCopy where
  | returns (remaining : ℤ)
  | halts
  deriving DecidableEq, Repr

/-- The variables of the copy: `submitted` counts the copies that the engine took. -/
structure DmaState where
  offset : ℕ
  pgoff : ℕ
  len : ℤ
  submitted : ℕ
  deriving DecidableEq, Repr

/-- A `while (copy > 0)` loop is left at its end, or by `goto end`. -/
inductive PieceCopy where
  | next (s : DmaState)
  | ends (r : DmaCopy)
  deriving DecidableEq, Repr

variable (pageSize : ℕ) (refusesAt : Option ℕ)

/-- `while (copy > 0)`, over a piece of `copy` bytes. -/
def copyPiece (s : DmaState) (copy : ℕ) : PieceCopy :=
  if _h : copy = 0 then .next s
  else
    let chunk := min copy (pageSize - s.pgoff)
    if _h : chunk = 0 then
      -- no progress from here on: the loop ends when the engine refuses a copy
      match refusesAt with
      | none => .ends .halts
      | some _ => .ends (.returns s.len)
    else if refusesAt.any (· ≤ s.submitted) then .ends (.returns s.len)
    else if s.len - chunk = 0 then .ends (.returns 0)
    else
      copyPiece
        { offset := s.offset + chunk, pgoff := s.pgoff + chunk, len := s.len - chunk
          submitted := s.submitted + 1 }
        (copy - chunk)
termination_by copy

/-- The loop over the fragments, of which the next begins at `start`. -/
def copyFrags (s : DmaState) (start : ℕ) : List (List UInt8) → DmaCopy
  | [] => .returns s.len
  | frag :: frags =>
      -- `BUG_ON(start > offset + len)`
      if (s.offset : ℤ) + s.len < start then .halts
      else
        match copyPiece pageSize refusesAt s (start + frag.length - s.offset) with
        | .ends r => r
        | .next s => copyFrags s (start + frag.length) frags

/-- `omx_dma_skb_copy_datagram_to_pages`. -/
def dmaSkbCopyDatagramToPages (skb : Skb) (offset pgoff len : ℕ) : DmaCopy :=
  match copyPiece pageSize refusesAt ⟨offset, pgoff, len, 0⟩ (skb.headlen - offset) with
  | .ends r => r
  | .next s => copyFrags pageSize refusesAt s skb.headlen skb.frags

/-- No more is left than there was: of a piece. -/
def PieceCopy.AtMost (len : ℤ) : PieceCopy → Prop
  | .next s => s.len ≤ len
  | .ends (.returns remaining) => remaining ≤ len
  | .ends .halts => True

variable {pageSize refusesAt}

theorem copyPiece_atMost (s : DmaState) (copy : ℕ) :
    (copyPiece pageSize refusesAt s copy).AtMost s.len := by
  fun_induction copyPiece pageSize refusesAt s copy with
  | case1 s => exact le_rfl
  | case2 => exact trivial
  | case3 => exact le_rfl
  | case4 => exact le_rfl
  | case5 s copy _ chunk _ _ hzero => exact (by omega : (0 : ℤ) ≤ s.len)
  | case6 s copy _ chunk _ _ _ ih =>
      generalize copyPiece pageSize refusesAt _ _ = r at ih ⊢
      cases r with
      | next s' => exact ih.trans (by dsimp only; omega)
      | ends r =>
          cases r with
          | returns remaining => exact ih.trans (by dsimp only; omega)
          | halts => trivial

theorem copyFrags_le {frags : List (List UInt8)} {s : DmaState} {start : ℕ} {remaining : ℤ}
    (h : copyFrags pageSize refusesAt s start frags = .returns remaining) : remaining ≤ s.len := by
  induction frags generalizing s start with
  | nil =>
      cases h
      exact le_rfl
  | cons frag frags ih =>
      rw [copyFrags] at h
      split at h
      · cases h
      · have hle : (copyPiece pageSize refusesAt s (start + frag.length - s.offset)).AtMost s.len :=
          copyPiece_atMost s _
        split at h
        · rename_i r hr
          rw [hr, h] at hle
          exact hle
        · rename_i s' hs'
          rw [hs'] at hle
          exact (ih h).trans hle

/-- The engine never leaves more than it was given. -/
theorem dmaSkbCopyDatagramToPages_le {skb : Skb} {offset pgoff len : ℕ} {remaining : ℤ}
    (h : dmaSkbCopyDatagramToPages pageSize refusesAt skb offset pgoff len = .returns remaining) :
    remaining ≤ len := by
  rw [dmaSkbCopyDatagramToPages] at h
  have hle : (copyPiece pageSize refusesAt ⟨offset, pgoff, len, 0⟩ (skb.headlen - offset)).AtMost
      len := copyPiece_atMost _ _
  split at h
  · rename_i r hr
    rw [hr, h] at hle
    exact hle
  · rename_i s' hs'
    rw [hs'] at hle
    exact (copyFrags_le h).trans hle

variable (env : Env) (mh : Header) (skb : Skb)

/-! ## The handler -/

/-- A medium fragment of `length` bytes is given to the DMA engine. -/
def MediumOffloaded (length : ℕ) : Prop :=
  env.omxDmaengine = true ∧ env.omxDmaSyncMin ≤ length ∧ env.dmaChan = true

instance (length : ℕ) : Decidable (MediumOffloaded env length) :=
  inferInstanceAs (Decidable (_ ∧ _ ∧ _))

/-- "try to submit the dma copy". -/
def mediumDma (hdrLen recvqOffset length : ℕ) : DmaCopy :=
  if MediumOffloaded env length then
    dmaSkbCopyDatagramToPages env.recvq.pageSize env.dmaRefusesAt skb hdrLen
      (recvqOffset % env.recvq.pageSize) length
  else .returns length

/-- The data that reaches the receive queue of a local endpoint: what the engine took, and
"what's remaining", which the host copies. -/
def mediumPayload (hdrLen length : ℕ) : DmaCopy → Option (List UInt8)
  | .halts => none
  | .returns remaining =>
      -- a copy of a length below zero faults
      if remaining < 0 then none
      else
        let copied := length - remaining.toNat
        (skb.copyBits (hdrLen + copied) remaining.toNat).map
          (((skb.data.drop hdrLen).take copied) ++ ·)

/-- Whatever part of the data the engine took, the host brings the rest. -/
theorem mediumPayload_returns {hdrLen length remaining : ℕ} (hle : remaining ≤ length)
    (hin : hdrLen + length ≤ skb.len) :
    mediumPayload skb hdrLen length (.returns remaining) =
      some ((skb.data.drop hdrLen).take length) := by
  rw [mediumPayload, if_neg (by omega), Int.toNat_natCast]
  dsimp only
  rw [skb.copyBits_eq_some (by omega), Option.map_some, ← List.drop_drop, ← List.take_add,
    Nat.sub_add_cancel hle]

/-- The event of a medium fragment. -/
def mediumEvent (head : Recv.PktHead) (pkt : Recv.PktMediumFrag) (recvqOffset : ℕ) : Recv.Event :=
  .recvMsg
    { peerIndex := head.peerIndex, srcEndpoint := head.srcEndpoint, seqnum := pkt.libSeqnum
      piggyack := pkt.libPiggyack, matchInfo := Recv.ntohMatchInfo pkt.matchA pkt.matchB
      specific := .mediumFrag (UInt32.ofNat recvqOffset) pkt.length pkt.fragLength pkt.fragSeqnum
        pkt.fragPipeline pkt.checksum }

/-- The bytes that `omx_recv_medium_frag` brings to a slot, if it gets through. -/
def mediumCopy (ep : Endpoint) (recvqOffset hdrLen length : ℕ) : Option (List UInt8) :=
  if ep.xen then
    -- `staging` is not checked; of zero bytes it is not used either
    if env.staging = false ∧ 0 < length then none else skb.copyBits hdrLen length
  else mediumPayload skb hdrLen length (mediumDma env skb hdrLen recvqOffset length)

/-- The end of `omx_recv_medium_frag`, for a fragment that has the slot at `recvqOffset`. -/
def storeMedium (ep : Endpoint) (recvqOffset length : ℕ) (event : Recv.Event) : Trace :=
  match mediumCopy env skb ep recvqOffset (sizeofPktHead + sizeofPktMediumFrag) length with
  | none => [.halt]
  | some bytes =>
      .copyToRecvq recvqOffset bytes ::
      (if ep.xen then .pokeDomU .recvMediumFrag ep.boardIndex ep.endpointIndex event
        else .notifyUnexpEvent event) ::
      received .recvMediumFrag

/-- `omx_recv_medium_frag`. -/
def omxRecvMediumFrag : Trace :=
  let head := readHead env.endian mh 18
  let pkt := readMediumFrag env.endian mh env.config.wireCompat
  let dstEndpoint := Header.ntoh8 mh 17
  let hdrLen := sizeofPktHead + sizeofPktMediumFrag
  let length := pkt.fragLength.toNat
  let nack := nackLib head dstEndpoint pkt.libSeqnum
  if env.recvq.entrySize < length then .count .dropBadDatalen :: out
  else if sub 64 skb.len hdrLen < length then .count .dropBadSkblen :: out
  else
    withPeer env head <| withEndpoint env dstEndpoint nack fun ep =>
      withSession ep pkt.session nack <|
        match ep.recvqSlot with
        | none => outWithEndpoint
        | some recvqOffset =>
            storeMedium env skb ep recvqOffset length (mediumEvent head pkt recvqOffset)

end Xen2mx.Recvpath
