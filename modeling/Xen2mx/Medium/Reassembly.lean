/-
# `Xen2mx.Medium.Reassembly` — what the receiver makes of the entries

The receiver of a message from the same host puts each fragment at its number times a stride: a
power of two that is in the event if the packets are those of MX, the length of a fragment on the
wire otherwise.  The sender cuts the message at the entries of the receive queue.

    stride  =  entry     the fragments are the message
    stride  <  entry     all but the first come too early, and the end of the buffer is not written

Of the fragments that came there is a bit in a word of 32.  And the offset of the last entry is
written behind the array if the length is no multiple of the entry.

**Proved here.**

    fragments in their order are put one stride apart                (`Receiving.receive`)
    the offsets are in the array, the bytes in the entries, all
        slots are settled and what was delivered is the message
        ⟺  no slot is prepared, or the message fills its entries,
            and it cannot be read or its fragments are few and
            put where they belong                                    (`sharedSendMediumva_iff`)
    of a message of 100 bytes an offset is behind the array          (`sharedSendMediumva_short`)
-/
import Xen2mx.Medium.Shared
import Xen2mx.Segments.Medium

namespace Xen2mx.Medium

open Region Word Segments

variable {cfg : SharedConfig}

/-! ## The receiver -/

/-- `omx__process_recv_medium_frag`, of an event.  The bit `1 << frag_seqnum` is one of 32. -/
def receiveFrag (cfg : SharedConfig) (recvq : ℕ → Option ℕ) (req : MediumReq (Option ℕ))
    (event : MediumEvent) : Option (MediumReq (Option ℕ)) :=
  if event.fragSeqnum < 32 then
    (req.processRecvMediumFrag (cfg.stride event.fragPipeline)
      ⟨event.fragSeqnum, (List.range' event.recvqOffset event.fragLength).map recvq⟩).toOption
  else none

/-- What is in the receive queue after a call, by the addresses that it comes from. -/
def SharedOutcome.recvq (o : SharedOutcome) : ℕ → Option ℕ :=
  writeAll (fun _ => none) (o.copied.map Prod.fst) (o.copied.map fun w => some w.2)

/-- The events of the fragments that are delivered. -/
def SharedOutcome.events (o : SharedOutcome) : List MediumEvent := o.settled.filterMap Prod.snd

/-- The receiver gets all fragments, in a buffer that is as long as the message. -/
def SharedOutcome.receive (cfg : SharedConfig) (o : SharedOutcome) (length : ℕ) :
    Option (MediumReq (Option ℕ)) :=
  o.events.foldlM (receiveFrag cfg o.recvq)
    (MediumReq.expected [List.replicate length none] length)

/-- The message of a command: the first bytes of its segments. -/
def CmdSendMediumva.message (cmd : CmdSendMediumva) : List ℕ :=
  (cmd.segments.flatMap addresses).take cmd.length

/-- Offsets are written to the array and bytes to the entries that were reserved, each slot that was
prepared is taken once, and if fragments are delivered they are the message. -/
structure SharedOutcome.Sound (cfg : SharedConfig) (cmd : CmdSendMediumva) (o : SharedOutcome) :
    Prop where
  inArray : o.offsets.length ≤ o.allocated
  inEntries : ∀ w ∈ o.copied, ∃ offset ∈ o.offsets, offset ≤ w.1 ∧ w.1 < offset + cfg.recvqEntrySize
  once : o.settled.length = o.prepared ∧ (o.settled.map Prod.fst).Nodup
  reassembles : o.ret = .ok → o.events ≠ [] →
    ∃ req, o.receive cfg cmd.length = some req ∧ req.segs = [cmd.message.map some]

/-! ## When it is sound -/

/-- The bytes that are read for a command. -/
def CmdSendMediumva.read (cmd : CmdSendMediumva) : List ℕ :=
  ((cmd.segments.map low32).flatMap addresses).take cmd.length

/-- The call gets to where it prepares slots, and there are enough. -/
def SharedCall.Prepares (cmd : CmdSendMediumva) (call : SharedCall cfg) : Prop :=
  call.offsetsMemory = true ∧ call.usegsMemory = true ∧ call.usegsRead = true ∧
    wrap 32 (cmd.segments.map UserSegment.len).sum = cmd.length ∧
    ∃ dst ∈ call.dst, cfg.ring.hasRoom (dst.nextfree + sharedFragsNr cfg cmd.length)
      dst.nextreleased

/-- The message fills its entries; and one of its bytes cannot be read, or it has no more fragments
than there are bits for, they are put where they belong and no long segment is cut. -/
def SharedCall.Whole (cmd : CmdSendMediumva) (call : SharedCall cfg) : Prop :=
  cfg.recvqEntrySize ∣ cmd.length ∧
    ((∃ a ∈ cmd.read, call.readable a = false) ∨
      cmd.length / cfg.recvqEntrySize ≤ 32 ∧
        (cmd.length / cfg.recvqEntrySize ≤ 1 ∨
          cfg.stride cfg.recvqEntryShift = cfg.recvqEntrySize) ∧
        cmd.message = cmd.read)

/-! ## Reassembly -/

section Receive

variable {req : MediumReq (Option ℕ)} {buf : List (Option ℕ)} {recvq : ℕ → Option ℕ}
  {event : MediumEvent} {entrySize stride i n : ℕ}

theorem mediumEvents_eq (hle : entrySize ≤ 8192) (event : ℕ → ℕ → MediumEvent) (n i : ℕ) :
    mediumEvents entrySize event n i (n * entrySize) =
      (List.range' i n).map fun j => event j entrySize := by
  induction n generalizing i with
  | zero => rfl
  | succ n ih =>
      have hmin : min entrySize ((n + 1) * entrySize) = entrySize := by
        rw [Nat.succ_mul]
        omega
      rw [mediumEvents, entryLength_eq hle, hmin, Nat.succ_mul, Nat.add_sub_cancel, ih,
        List.range'_succ, List.map_cons]

/-- A receive of a message that fits, of which the first fragments came. -/
structure Receiving (req : MediumReq (Option ℕ)) (buf : List (Option ℕ)) (i : ℕ) : Prop where
  segs : req.segs = [buf]
  xfer : req.xferLength = buf.length
  mask : ∀ j, i ≤ j → j < 32 → req.fragsReceivedMask &&& 1#32 <<< j = 0

theorem Receiving.start {length : ℕ} (h : length < 2 ^ 32) :
    Receiving (MediumReq.expected [List.replicate length none] length)
      (List.replicate length none) 0 where
  segs := rfl
  xfer := by
    rw [MediumReq.expected, xferLengthFor, totalLength_single, List.length_replicate, wrap_of_lt h]
    exact if_neg (lt_irrefl _)
  mask := fun _ _ _ => BitVec.zero_and

/-- Bits of different fragments. -/
theorem bit_and_bit {i j : ℕ} (h : i < j) (hj : j < 32) : 1#32 <<< i &&& 1#32 <<< j = 0 := by
  have hall : ∀ i < 32, ∀ j < 32, i < j → 1#32 <<< i &&& 1#32 <<< j = 0 := by decide +kernel
  exact hall i (h.trans hj) j hj h

/-- A fragment that comes in its turn is put in its place. -/
theorem Receiving.receiveFrag (cfg : SharedConfig) (recvq : ℕ → Option ℕ)
    (h : Receiving req buf i) (hseqnum : event.fragSeqnum = i)
    (hi : i < 32) (hfits : i * cfg.stride event.fragPipeline + event.fragLength ≤ buf.length) :
    ∃ req', receiveFrag cfg recvq req event = some req' ∧
      Receiving req' (splice (i * cfg.stride event.fragPipeline)
        ((List.range' event.recvqOffset event.fragLength).map recvq) buf) (i + 1) := by
  set data := (List.range' event.recvqOffset event.fragLength).map recvq with hdata
  have hlength : data.length = event.fragLength := by
    rw [hdata, List.length_map, List.length_range']
  have hnew : ¬ req.Received ⟨i, data⟩ := fun hreceived => hreceived (h.mask i le_rfl hi)
  have hchunk : req.xferChunk (i * cfg.stride event.fragPipeline) data.length = data.length := by
    rw [MediumReq.xferChunk, h.xfer, if_pos (by omega)]
  have hcopy : req.copyFrag (i * cfg.stride event.fragPipeline) data =
      .ok { req with segs := [splice (i * cfg.stride event.fragPipeline) data buf] } := by
    rw [MediumReq.copyFrag]
    dsimp only
    rw [hchunk, h.segs]
    dsimp only
    rw [List.take_length, check_pos (.inr (by omega))]
  refine ⟨{ req with
    segs := [splice (i * cfg.stride event.fragPipeline) data buf]
    fragsReceivedMask := req.fragsReceivedMask ||| 1#32 <<< i
    accumulatedLength := req.accumulatedLength + data.length }, ?_, ?_⟩
  · rw [Medium.receiveFrag, hseqnum, if_pos hi, MediumReq.processRecvMediumFrag, if_neg hnew, hcopy,
      ok_bind]
    rfl
  · refine ⟨rfl, ?_, fun j hj hj' => ?_⟩
    · rw [length_splice (by omega)]
      exact h.xfer
    · show (req.fragsReceivedMask ||| 1#32 <<< i) &&& 1#32 <<< j = 0
      rw [BitVec.and_comm, BitVec.and_or_distrib_left, BitVec.and_comm _ req.fragsReceivedMask,
        h.mask j (by omega) hj', BitVec.and_comm _ (1#32 <<< i), bit_and_bit hj hj']
      rfl

/-- The buffer after `n` fragments that are put `stride` apart. -/
def placed (stride : ℕ) (piece : ℕ → List (Option ℕ)) (buf : List (Option ℕ)) : ℕ → List (Option ℕ)
  | 0 => buf
  | n + 1 => splice (n * stride) (piece n) (placed stride piece buf n)

theorem length_placed {piece : ℕ → List (Option ℕ)}
    (h : ∀ j < n, j * stride + (piece j).length ≤ buf.length) :
    (placed stride piece buf n).length = buf.length := by
  induction n with
  | zero => rfl
  | succ n ih =>
      have hprev := ih fun j hj => h j (Nat.lt_succ_of_lt hj)
      rw [placed, length_splice (by rw [hprev]; exact h n (Nat.lt_succ_self n)), hprev]

/-- Fragments that come in their order, no more than there are bits for. -/
theorem Receiving.receive (cfg : SharedConfig) (recvq : ℕ → Option ℕ) (event : ℕ → MediumEvent)
    (piece : ℕ → List (Option ℕ)) (h : Receiving req buf 0) (hn : n ≤ 32)
    (hseqnum : ∀ j < n, (event j).fragSeqnum = j)
    (hstride : ∀ j < n, cfg.stride (event j).fragPipeline = stride)
    (hpiece : ∀ j < n, (List.range' (event j).recvqOffset (event j).fragLength).map recvq = piece j)
    (hfits : ∀ j < n, j * stride + (piece j).length ≤ buf.length) :
    ∃ req', ((List.range n).map event).foldlM (Medium.receiveFrag cfg recvq) req = some req' ∧
      Receiving req' (placed stride piece buf n) n := by
  induction n with
  | zero => exact ⟨req, rfl, h⟩
  | succ n ih =>
      have hlt := Nat.lt_succ_self n
      obtain ⟨req', hfold, hreq'⟩ := ih (by omega) (fun j hj => hseqnum j (hj.trans hlt))
        (fun j hj => hstride j (hj.trans hlt)) (fun j hj => hpiece j (hj.trans hlt))
        (fun j hj => hfits j (hj.trans hlt))
      have hlength : (event n).fragLength = (piece n).length := by
        rw [← hpiece n hlt, List.length_map, List.length_range']
      have hplaced := length_placed fun j hj => hfits j (Nat.lt_succ_of_lt hj)
      obtain ⟨req'', hfrag, hreq''⟩ := hreq'.receiveFrag cfg recvq
        (hseqnum n hlt) (by omega) (by rw [hstride n hlt, hlength, hplaced]; exact hfits n hlt)
      refine ⟨req'', ?_, ?_⟩
      · rw [List.range_succ, List.map_append, List.foldlM_append, hfold]
        exact congrArg (· >>= pure) hfrag
      · rw [hstride n hlt, hpiece n hlt] at hreq''
        exact hreq''

/-- An event that cannot be received. -/
theorem foldlM_receiveFrag_none {events : List MediumEvent} (hmem : event ∈ events)
    (h : 32 ≤ event.fragSeqnum) (req : MediumReq (Option ℕ)) :
    events.foldlM (Medium.receiveFrag cfg recvq) req = none := by
  induction events generalizing req with
  | nil => exact nomatch hmem
  | cons first events ih =>
      rw [List.foldlM_cons]
      rcases List.mem_cons.1 hmem with rfl | hmem
      · rw [Medium.receiveFrag, if_neg h.not_gt]
        rfl
      · cases Medium.receiveFrag cfg recvq req first with
        | none => rfl
        | some req' => exact ih hmem req'

/-- The fragment `i` of a message, as the receiver finds it. -/
def fragment (entrySize : ℕ) (bytes : List ℕ) (i : ℕ) : List (Option ℕ) :=
  ((bytes.drop (i * entrySize)).take entrySize).map some

theorem length_fragment {bytes : List ℕ} (hlen : bytes.length = n * entrySize) (hi : i < n) :
    (fragment entrySize bytes i).length = entrySize := by
  have hle : (i + 1) * entrySize ≤ n * entrySize := Nat.mul_le_mul_right _ hi
  rw [Nat.succ_mul] at hle
  rw [fragment, List.length_map, List.length_take, List.length_drop]
  omega

/-- Fragments that are put where they belong are the message. -/
theorem placed_eq {bytes : List ℕ} (hlen : bytes.length = n * entrySize)
    (hplace : ∀ j < n, j * stride = j * entrySize) :
    placed stride (fragment entrySize bytes) (List.replicate bytes.length none) n =
      bytes.map some := by
  have hall : ∀ k ≤ n, placed stride (fragment entrySize bytes)
      (List.replicate bytes.length none) k = (bytes.take (k * entrySize)).map some ++
        List.replicate (bytes.length - k * entrySize) none := by
    intro k hk
    induction k with
    | zero => rw [placed, Nat.zero_mul, List.take_zero, Nat.sub_zero]; rfl
    | succ k ih =>
        have hle : (k + 1) * entrySize ≤ n * entrySize := Nat.mul_le_mul_right _ hk
        rw [Nat.succ_mul] at hle
        have hpiece := length_fragment hlen (Nat.lt_of_succ_le hk)
        have hbefore : ((bytes.take (k * entrySize)).map some).length = k * entrySize := by
          rw [List.length_map, List.length_take]
          omega
        have hright := splice_append_right 0 (fragment entrySize bytes k)
          ((bytes.take (k * entrySize)).map some)
          (List.replicate (bytes.length - k * entrySize) none)
        rw [hbefore, Nat.add_zero] at hright
        rw [placed, ih (Nat.le_of_succ_le hk), hplace k (Nat.lt_of_succ_le hk), hright, splice,
          List.take_zero, List.nil_append, Nat.zero_add, hpiece, List.drop_replicate, fragment,
          ← List.append_assoc, ← List.map_append, ← List.take_add, Nat.succ_mul, Nat.sub_sub]
  rw [hall n le_rfl, ← hlen, List.take_length, Nat.sub_self]
  exact List.append_nil _

/-- If all but the first come too early, nothing gets to the end. -/
theorem placed_short {bytes : List ℕ} (hlen : bytes.length = n * entrySize) (hn : 1 < n)
    (hstride : stride < entrySize) :
    (placed stride (fragment entrySize bytes) (List.replicate bytes.length none) n)[
      bytes.length - 1]? = some none := by
  have hpos : entrySize ≤ n * entrySize := Nat.le_mul_of_pos_left _ (by omega)
  -- a fragment ends before the last byte
  have hend : ∀ j < n, j * stride + entrySize ≤ bytes.length - 1 := by
    intro j hj
    obtain ⟨m, rfl⟩ : ∃ m, n = m + 1 := ⟨n - 1, by omega⟩
    have hjm : j * stride ≤ m * stride := Nat.mul_le_mul_right _ (Nat.le_of_lt_succ hj)
    have hms : m * stride + m ≤ m * entrySize := by
      rw [← Nat.mul_succ]
      exact Nat.mul_le_mul_left m hstride
    rw [Nat.succ_mul] at hlen
    omega
  have hall : ∀ k ≤ n, (placed stride (fragment entrySize bytes)
      (List.replicate bytes.length none) k)[bytes.length - 1]? = some none := by
    intro k hk
    induction k with
    | zero => exact List.getElem?_replicate_of_lt (by omega)
    | succ k ih =>
        have hk' := Nat.lt_of_succ_le hk
        have hlast := hend k hk'
        have hpiece := length_fragment hlen hk'
        have hlength : (placed stride (fragment entrySize bytes)
            (List.replicate bytes.length none) k).length = bytes.length := by
          rw [length_placed, List.length_replicate]
          intro j hj
          have hjend := hend j (hj.trans hk')
          rw [length_fragment hlen (hj.trans hk'), List.length_replicate]
          omega
        rw [placed, getElem?_splice (by omega), if_neg (by omega), if_neg (by omega),
          ih (Nat.le_of_succ_le hk)]
  exact hall n le_rfl

end Receive

/-! ## Calls -/

variable {cmd : CmdSendMediumva} {call : SharedCall cfg}

theorem length_mediumEvents (entrySize : ℕ) (event : ℕ → ℕ → MediumEvent) (n i remaining : ℕ) :
    (mediumEvents entrySize event n i remaining).length = n := by
  induction n generalizing i remaining with
  | zero => rfl
  | succ n ih => exact congrArg Nat.succ (ih _ _)

theorem SharedOutcome.early_sound (allocated : ℕ) (ret : SharedRet) :
    (SharedOutcome.early allocated ret).Sound cfg cmd where
  inArray := Nat.zero_le _
  inEntries := nofun
  once := ⟨rfl, .nil⟩
  reassembles := fun _ hne => absurd rfl hne

/-- The bytes of the segments, as they are read, are enough. -/
theorem length_le_read (h : wrap 32 (cmd.segments.map UserSegment.len).sum = cmd.length) :
    cmd.length ≤ ((cmd.segments.map low32).flatMap addresses).length := by
  have hsum (usegs : List UserSegment) : wrap 32 ((usegs.map low32).map UserSegment.len).sum =
      wrap 32 (usegs.map UserSegment.len).sum := by
    induction usegs with
    | nil => rfl
    | cons useg usegs ih =>
        rw [List.map_cons, List.map_cons, List.sum_cons, List.map_cons, List.sum_cons, low32,
          wrap_wrap_add, Nat.add_comm, ← wrap_wrap_add, ih, wrap_wrap_add, Nat.add_comm]
  rw [length_flatMap_addresses, ← h, ← hsum]
  exact Nat.mod_le ..

/-- A call that prepares slots. -/
theorem SharedCall.Prepares.send (h : call.Prepares cmd) :
    ∃ o, sharedSendMediumva cmd call = some o ∧
      o.allocated = cmd.length / cfg.recvqEntrySize ∧
      o.offsets.length = sharedFragsNr cfg cmd.length ∧
      (∀ w ∈ o.copied, ∃ offset ∈ o.offsets, offset ≤ w.1 ∧ w.1 < offset + cfg.recvqEntrySize) ∧
      (o.settled.length = o.prepared ∧ (o.settled.map Prod.fst).Nodup) ∧
      (o.ret = .ok ↔ ∀ a ∈ cmd.read, call.readable a) ∧
      (o.ret = .ok → ∃ recvqOffset : ℕ → ℕ, (∀ i, recvqOffset i < 2 ^ 32) ∧
        Apart cfg.recvqEntrySize recvqOffset 0 (sharedFragsNr cfg cmd.length) ∧
        o.events = mediumEvents cfg.recvqEntrySize (mediumEvent cmd call recvqOffset)
          (sharedFragsNr cfg cmd.length) 0 cmd.length ∧
        o.copied = (entryBytes cfg.recvqEntrySize recvqOffset (sharedFragsNr cfg cmd.length) 0
          cmd.length).zip cmd.read) := by
  obtain ⟨hoffsets, husegs, husegsRead, hsum, dst, hdst, hroom⟩ := h
  have hlength : cmd.length < 2 ^ 32 := hsum ▸ wrap_lt 32 _
  obtain ⟨hnr, hnrle⟩ := sharedFragsNr_eq cfg hlength
  obtain ⟨hlo, hhi, -⟩ := cfg.recvqEntrySize_bounds
  obtain ⟨offsets, hprepare⟩ : ∃ offsets,
      dst.prepare (sharedFragsNr cfg cmd.length) = some offsets := ⟨_, if_pos hroom⟩
  obtain ⟨hcount, hsmall, hapart⟩ := DstEndpoint.prepare_apart hnrle hprepare
  -- the cursor starts at the first segment, if there is one
  have hstart : (enterUseg cmd.segments call.beyond 0).At (cmd.segments.map low32)
      ((cmd.segments.map low32).flatMap addresses) := by
    rw [← enterUseg_low32]
    rcases Nat.eq_zero_or_pos (cmd.segments.map low32).length with hnil | hpos
    · rw [List.length_eq_zero_iff.1 hnil]
      exact .past rfl nofun
    · refine enterUseg_at (fun useg hmem => ?_) (List.getElem?_eq_getElem hpos)
      obtain ⟨useg, -, rfl⟩ := List.mem_map.1 hmem
      exact wrap_lt ..
  obtain ⟨copied, done, hcopy, hin, hdone, hcopied⟩ := copyFrags_eq call.readable
    (by omega) hhi (offsetAt offsets) (i := 0) hstart (length_le_read hsum) hnr.symm
  obtain ⟨events, hevents⟩ : ∃ events, events =
      if done then (mediumEvents cfg.recvqEntrySize (mediumEvent cmd call (offsetAt offsets))
        (sharedFragsNr cfg cmd.length) 0 cmd.length).map some
      else List.replicate (sharedFragsNr cfg cmd.length) none := ⟨_, rfl⟩
  have hmany : events.length = sharedFragsNr cfg cmd.length := by
    rw [hevents]
    split
    · rw [List.length_map, length_mediumEvents]
    · exact List.length_replicate
  obtain ⟨settled, hsettle, hsettled, hslots⟩ := dst.settle_eq dst.nextreserved events
    hnrle (by rw [hmany]; exact Nat.add_le_add_right dst.reserved _)
  have hret : (if done then SharedRet.ok else .efault) = .ok ↔ done = true := by cases done <;> simp
  refine ⟨⟨if done then .ok else .efault, cmd.length / cfg.recvqEntrySize, offsets, copied,
    sharedFragsNr cfg cmd.length, settled⟩, ?_, rfl, hcount, fun w hw => ?_, ⟨?_, ?_⟩,
    hret.trans hdone, fun hok => ⟨offsetAt offsets, fun i => ?_, hapart, ?_, hcopied (hret.1 hok)⟩⟩
  · rw [sharedSendMediumva, Option.mem_def.1 hdst]
    dsimp only
    rw [if_neg (not_not.2 hoffsets), if_neg (not_not.2 husegs), if_neg (not_not.2 husegsRead),
      if_neg (not_not.2 hsum), hprepare, hsum]
    dsimp only
    rw [hcopy, Option.bind_some]
    dsimp only
    rw [← hevents, hsettle, Option.map_some]
  · obtain ⟨j, hj, hbound⟩ := hin w hw
    have hget : offsets[j]? = some offsets[j] := List.getElem?_eq_getElem (hcount ▸ hj)
    rw [Nat.zero_add, offsetAt, hget] at hbound
    exact ⟨offsets[j], List.getElem_mem _, hbound⟩
  · have hlen := congrArg List.length hsettled
    rwa [List.length_map, hmany] at hlen
  · rw [hslots, hmany]
    exact nodup_slots hnrle
  · rw [offsetAt]
    rcases hget : offsets[i]? with _ | offset
    · exact Nat.two_pow_pos 32
    · exact hsmall offset (List.mem_of_getElem? hget)
  · rw [if_pos (hret.1 hok)] at hevents
    rw [SharedOutcome.events, ← Function.id_comp Prod.snd, ← List.filterMap_map, hsettled, hevents,
      List.filterMap_map]
    exact List.filterMap_some

/-- What is received of a message that fills `n` entries is the bytes that were read, if there are
bits for the fragments and they are put where they belong; otherwise it is not the message. -/
theorem receive_iff {o : SharedOutcome} {recvqOffset : ℕ → ℕ} {n : ℕ} (hn : 0 < n)
    (hlength : cmd.length = n * cfg.recvqEntrySize) (hread : cmd.read.length = cmd.length)
    (hsmall : ∀ i, recvqOffset i < 2 ^ 32) (hapart : Apart cfg.recvqEntrySize recvqOffset 0 n)
    (hevents : o.events = mediumEvents cfg.recvqEntrySize (mediumEvent cmd call recvqOffset) n 0
      cmd.length)
    (hcopied : o.copied = (entryBytes cfg.recvqEntrySize recvqOffset n 0 cmd.length).zip cmd.read) :
    (∃ req, o.receive cfg cmd.length = some req ∧ req.segs = [cmd.message.map some]) ↔
      n ≤ 32 ∧ (n ≤ 1 ∨ cfg.stride cfg.recvqEntryShift = cfg.recvqEntrySize) ∧
        cmd.message = cmd.read := by
  obtain ⟨hlo, hhi, -, hshift⟩ := cfg.recvqEntrySize_bounds
  have hfull : cmd.read.length = n * cfg.recvqEntrySize := hread.trans hlength
  have hbytes : (entryBytes cfg.recvqEntrySize recvqOffset n 0 (n * cfg.recvqEntrySize)).length =
      n * cfg.recvqEntrySize := length_entryBytes (pieces_mul (by omega) n) (by omega)
  rw [hlength, mediumEvents_eq hhi, ← List.range_eq_range'] at hevents
  rw [hlength] at hcopied
  have hrecvq : o.recvq = writeAll (fun _ => none)
      (entryBytes cfg.recvqEntrySize recvqOffset n 0 (n * cfg.recvqEntrySize))
      (cmd.read.map some) := by
    rw [SharedOutcome.recvq, hcopied, List.map_fst_zip (hbytes.trans hfull.symm).le]
    congr 1
    rw [← Function.comp_def, ← List.map_map, List.map_snd_zip (hfull.trans hbytes.symm).le]
  rw [SharedOutcome.receive, hevents]
  rcases Nat.lt_or_ge 32 n with hmany | hfew
  · -- the fragment 32 has no bit
    refine iff_of_false ?_ fun h => hmany.not_ge h.1
    rintro ⟨req, hreceive, -⟩
    have hmem : mediumEvent cmd call recvqOffset 32 cfg.recvqEntrySize ∈
        (List.range n).map fun j => mediumEvent cmd call recvqOffset j cfg.recvqEntrySize :=
      List.mem_map_of_mem (List.mem_range.2 hmany)
    rw [foldlM_receiveFrag_none hmem (le_refl 32)] at hreceive
    cases hreceive
  · have hstride := cfg.stride_le
    have hfits : ∀ j < n, j * cfg.stride cfg.recvqEntryShift +
        (fragment cfg.recvqEntrySize cmd.read j).length ≤
          (List.replicate cmd.length (none : Option ℕ)).length := by
      intro j hj
      rw [length_fragment hfull hj, List.length_replicate, hlength]
      calc j * cfg.stride cfg.recvqEntryShift + cfg.recvqEntrySize
          ≤ j * cfg.recvqEntrySize + cfg.recvqEntrySize :=
            Nat.add_le_add_right (Nat.mul_le_mul_left j hstride) _
        _ = (j + 1) * cfg.recvqEntrySize := (Nat.succ_mul ..).symm
        _ ≤ n * cfg.recvqEntrySize := Nat.mul_le_mul_right _ hj
    have hshort : cmd.length < 2 ^ 32 := calc
      cmd.length = n * cfg.recvqEntrySize := hlength
      _ ≤ 32 * 8192 := Nat.mul_le_mul hfew hhi
      _ < 2 ^ 32 := by decide
    obtain ⟨req, hreceive, hreq⟩ := (Receiving.start hshort).receive cfg o.recvq
      (fun j => mediumEvent cmd call recvqOffset j cfg.recvqEntrySize)
      (fragment cfg.recvqEntrySize cmd.read) hfew
      (fun j hj => wrap_of_lt (by omega))
      (fun j _ => congrArg cfg.stride (wrap_of_lt hshift))
      (fun j hj => by
        have hentry := recvq_entry (fun _ => none) hfull hapart hj
        rw [Nat.zero_add] at hentry
        have hoffset : (mediumEvent cmd call recvqOffset j cfg.recvqEntrySize).recvqOffset =
          recvqOffset j := wrap_of_lt (hsmall j)
        have hlen : (mediumEvent cmd call recvqOffset j cfg.recvqEntrySize).fragLength =
          cfg.recvqEntrySize := wrap_of_lt (by omega)
        rw [hrecvq, hoffset, hlen]
        exact hentry)
      hfits
    rw [hreceive]
    have hsegs := hreq.segs
    rw [← hread] at hsegs
    have hsame (h : req.segs = [cmd.read.map some]) :
        (∃ req', some req = some req' ∧ req'.segs = [cmd.message.map some]) ↔
          cmd.message = cmd.read := by
      constructor
      · rintro ⟨req', ⟨⟩, hmessage⟩
        rw [h] at hmessage
        exact (List.map_injective_iff.2 (Option.some_injective ℕ) (List.cons.inj hmessage).1).symm
      · intro heq
        exact ⟨req, rfl, by rw [h, heq]⟩
    rcases Nat.lt_or_ge 1 n with htwo | hone
    · rcases hstride.lt_or_eq with hshort | heq
      · -- the last byte is still missing
        refine iff_of_false ?_ fun h => h.2.1.elim htwo.not_ge hshort.ne
        rintro ⟨req, ⟨⟩, hmessage⟩
        have hlast := placed_short hfull htwo hshort
        rw [hsegs] at hmessage
        rw [(List.cons.inj hmessage).1, List.getElem?_map] at hlast
        cases hget : cmd.message[cmd.read.length - 1]? with
        | none => rw [hget] at hlast; cases hlast
        | some a => rw [hget] at hlast; cases hlast
      · rw [placed_eq hfull fun j _ => congrArg (j * ·) heq] at hsegs
        rw [hsame hsegs, and_iff_right hfew, and_iff_right (.inr heq)]
    · rw [placed_eq hfull fun j hj => by
        obtain rfl : j = 0 := by omega
        rw [Nat.zero_mul, Nat.zero_mul]] at hsegs
      rw [hsame hsegs, and_iff_right hfew, and_iff_right (.inl hone)]

/-- A call that prepares no slot. -/
theorem sharedSendMediumva_early (h : ¬ call.Prepares cmd) :
    ∃ allocated ret, sharedSendMediumva cmd call = some (.early allocated ret) := by
  rw [sharedSendMediumva]
  dsimp only
  rcases hdst : call.dst with _ | dst
  · split_ifs <;> exact ⟨_, _, rfl⟩
  · dsimp only
    rcases hprepare : dst.prepare (sharedFragsNr cfg cmd.length) with _ | offsets
    · split_ifs <;> exact ⟨_, _, rfl⟩
    · have hroom : cfg.ring.hasRoom (dst.nextfree + sharedFragsNr cfg cmd.length)
          dst.nextreleased := by
        by_contra hfull
        rw [DstEndpoint.prepare, if_neg hfull] at hprepare
        cases hprepare
      split_ifs with hoffsets husegs hread hsum
      · exact ⟨_, _, rfl⟩
      · exact absurd ⟨hoffsets, husegs, hread, not_not.1 hsum, dst, hdst, hroom⟩ h
      · exact ⟨_, _, rfl⟩
      · exact ⟨_, _, rfl⟩
      · exact ⟨_, _, rfl⟩

/-- Every call comes to its end.  What it does is sound exactly when it prepares no slot, or the
message fills its entries, and it cannot be read, or its fragments are few, the receiver puts them
where they belong, and the bytes that are read are those of the message. -/
theorem sharedSendMediumva_iff (cmd : CmdSendMediumva) (call : SharedCall cfg) :
    ∃ o, sharedSendMediumva cmd call = some o ∧
      (o.Sound cfg cmd ↔ (call.Prepares cmd → call.Whole cmd)) := by
  by_cases hprepares : call.Prepares cmd
  · obtain ⟨o, hsend, hallocated, hcount, hentries, honce, hok, hdelivered⟩ := hprepares.send
    have hsum := hprepares.2.2.2.1
    obtain ⟨hlo, -⟩ := cfg.recvqEntrySize_bounds
    have hpos : 0 < cfg.recvqEntrySize := by omega
    have hnr := (sharedFragsNr_eq cfg (hsum ▸ wrap_lt 32 _)).1
    have hread : cmd.read.length = cmd.length := List.length_take_of_le (length_le_read hsum)
    have harray : o.offsets.length ≤ o.allocated ↔ cfg.recvqEntrySize ∣ cmd.length := by
      rw [hcount, hallocated, hnr, pieces_le_iff hpos]
    have hsound : o.Sound cfg cmd ↔ cfg.recvqEntrySize ∣ cmd.length ∧ (o.ret = .ok → o.events ≠ [] →
        ∃ req, o.receive cfg cmd.length = some req ∧ req.segs = [cmd.message.map some]) :=
      ⟨fun h => ⟨harray.1 h.inArray, h.reassembles⟩,
        fun h => ⟨harray.2 h.1, hentries, honce, h.2⟩⟩
    refine ⟨o, hsend, hsound.trans (Iff.trans ?_ (forall_prop_of_true hprepares).symm)⟩
    refine and_congr_right ?_
    rintro ⟨n, hn⟩
    rw [Nat.mul_comm] at hn
    have hdiv : cmd.length / cfg.recvqEntrySize = n := by rw [hn, Nat.mul_div_cancel _ hpos]
    by_cases hreadable : ∀ a ∈ cmd.read, call.readable a
    · have hnone : ¬ ∃ a ∈ cmd.read, call.readable a = false := by
        rintro ⟨a, ha, hno⟩
        exact Bool.false_ne_true (hno.symm.trans (hreadable a ha))
      obtain ⟨recvqOffset, hsmall, hapart, hevents, hcopied⟩ := hdelivered (hok.2 hreadable)
      rw [show sharedFragsNr cfg cmd.length = n by rw [hnr, hn, pieces_mul hpos]]
        at hapart hevents hcopied
      rw [or_iff_right hnone, hdiv, forall_prop_of_true (hok.2 hreadable)]
      rcases Nat.eq_zero_or_pos n with rfl | hn0
      · have hzero : cmd.length = 0 := hn.trans (Nat.zero_mul _)
        refine iff_of_true (fun hne => absurd hevents hne) ⟨Nat.zero_le _, .inl (Nat.zero_le _), ?_⟩
        rw [CmdSendMediumva.message, CmdSendMediumva.read, hzero, List.take_zero, List.take_zero]
      · have hne : o.events ≠ [] := by
          rw [hevents, ← List.length_pos_iff, length_mediumEvents]
          exact hn0
        rw [forall_prop_of_true hne]
        exact receive_iff hn0 hn hread hsmall hapart hevents hcopied
    · obtain ⟨a, ha, hno⟩ := not_forall₂.1 hreadable
      exact iff_of_true (fun hret => absurd (hok.1 hret) hreadable)
        (.inl ⟨a, ha, Bool.eq_false_iff.2 hno⟩)
  · obtain ⟨allocated, ret, hsend⟩ := sharedSendMediumva_early hprepares
    exact ⟨_, hsend, iff_of_true (SharedOutcome.early_sound allocated ret) fun h =>
      absurd h hprepares⟩

/-- Entries of 8192 bytes, in a ring of the default size. -/
def jumboShared : SharedConfig where
  wire := jumboWire
  ring := .default
  fits := by decide

/-- The queue of the destination is empty, and everything is there. -/
def idleCall : SharedCall jumboShared where
  srcPeerIndex := 1
  srcEndpointIndex := 2
  offsetsMemory := true
  dst := some ⟨0, 0, 0, 0, by decide, by decide⟩
  usegsMemory := true
  usegsRead := true
  readable := fun _ => true
  beyond := fun _ => ⟨0, 0⟩

/-- A message of 100 bytes in one segment: the array has no entry, and one is written. -/
theorem sharedSendMediumva_short : ¬ ∀ (cfg : SharedConfig) (cmd : CmdSendMediumva)
    (call : SharedCall cfg), ∃ o, sharedSendMediumva cmd call = some o ∧ o.Sound cfg cmd := by
  intro h
  obtain ⟨o, hsend, hsound⟩ := h jumboShared
    (mediumvaCmd (jumboMessage 100 0 [⟨4096, 100⟩])) idleCall
  have hzero : o.allocated = 0 ∧ o.offsets = [0] := by
    obtain rfl : o = _ := Option.some.inj (hsend.symm.trans rfl)
    exact ⟨rfl, rfl⟩
  have hle := hsound.inArray
  rw [hzero.1, hzero.2] at hle
  exact absurd hle (by decide)

end Xen2mx.Medium
