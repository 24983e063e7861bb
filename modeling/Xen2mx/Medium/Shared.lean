/-
# `Xen2mx.Medium.Shared` — vectors of segments between two endpoints of one host

If the peer is on the same host the bytes are copied from the segments into its receive queue, and
an event tells it of each fragment.  The fragments are as long as the entries of the queue.

    recvq_offset    room for   length / entry             rounded down
    frags_nr                   length / entry             rounded up

All slots are prepared at once.  If a segment cannot be read they are cancelled, otherwise they are
committed after the last byte is copied.  The segments are read up to the end of the message; of the
length of a segment the low 32 bits are read.

**Proved here.**

    the loop writes what comes next in the segments to the entries, and
        comes to its end if it can read all of it                         (`copyFrags_eq`)
    an entry has the bytes of its fragment                                (`recvq_entry`)
    as many slots are there as were prepared, and they are different      (`settle_eq`)
    they are no more than a ring, and their entries do not overlap        (`prepare_apart`)
-/
import Xen2mx.Eventq.Queue
import Xen2mx.Lib.Memory
import Xen2mx.Medium.Vector

namespace Xen2mx.Medium

open Region Word
open Eventq (RingSize)

/-! ## Entries -/

/-- `OMX_MEDIUM_FRAG_LENGTH_ROUNDUPSHIFT`. -/
def WireConfig.roundupShift (wire : WireConfig) : ℕ :=
  if wire.fragLengthMax ≤ 1024 then 10
  else if wire.fragLengthMax ≤ 2048 then 11
  else if wire.fragLengthMax ≤ 4096 then 12
  else if wire.fragLengthMax ≤ 8192 then 13
  else 14

/-- How packets are cut, and the entries of the rings.  An offset in the receive queue is a
`uint32_t` in the events. -/
structure SharedConfig where
  wire : WireConfig
  ring : RingSize
  fits : ring.entryNr * 2 ^ wire.roundupShift ≤ 2 ^ 32

namespace SharedConfig

variable (cfg : SharedConfig)

/-- `OMX_RECVQ_ENTRY_SHIFT`. -/
def recvqEntryShift : ℕ := cfg.wire.roundupShift

/-- `OMX_RECVQ_ENTRY_SIZE`. -/
def recvqEntrySize : ℕ := 2 ^ cfg.recvqEntryShift

/-- How far apart `omx__process_recv_medium_frag` puts fragments of this `frag_pipeline`. -/
def stride (fragPipeline : ℕ) : ℕ :=
  if cfg.wire.compat then 2 ^ fragPipeline else cfg.wire.fragLengthMax

theorem recvqEntrySize_bounds : 1024 ≤ cfg.recvqEntrySize ∧ cfg.recvqEntrySize ≤ 8192 ∧
    cfg.wire.fragLengthMax ≤ cfg.recvqEntrySize ∧ cfg.recvqEntryShift < 2 ^ 8 := by
  have hle := cfg.wire.le
  unfold recvqEntrySize recvqEntryShift WireConfig.roundupShift
  split_ifs <;> omega

theorem stride_le : cfg.stride cfg.recvqEntryShift ≤ cfg.recvqEntrySize := by
  unfold stride
  split
  · exact le_rfl
  · exact cfg.recvqEntrySize_bounds.2.2.1

end SharedConfig

/-! ## Slots of the receiver -/

/-- What the event of a fragment tells. -/
structure MediumEvent where
  peerIndex : ℕ
  srcEndpoint : ℕ
  matchInfo : ℕ
  seqnum : ℕ
  piggyack : ℕ
  msgLength : ℕ
  checksum : ℕ
  fragPipeline : ℕ
  fragLength : ℕ
  fragSeqnum : ℕ
  recvqOffset : ℕ
  deriving DecidableEq

/-- The counters of the destination, as a call finds them: no more slots are reserved than there
are, and those that were taken are reserved. -/
structure DstEndpoint (cfg : SharedConfig) where
  nextfree : ℕ
  nextreleased : ℕ
  nextreserved : ℕ
  nextRecvq : ℕ
  room : cfg.ring.hasRoom nextfree nextreleased
  reserved : sub 32 nextreserved nextreleased ≤ sub 32 nextfree nextreleased

namespace DstEndpoint

variable {cfg : SharedConfig} (ep : DstEndpoint cfg)

/-- `omx_prepare_notify_unexp_events_with_recvq`: the offsets that it writes. -/
def prepare (nr : ℕ) : Option (List ℕ) :=
  if cfg.ring.hasRoom (ep.nextfree + nr) ep.nextreleased then
    some ((List.range nr).map fun i => cfg.ring.slot (ep.nextRecvq + i) * cfg.recvqEntrySize)
  else none

/-- `omx_commit_notify_unexp_event_with_recvq`, or `omx_cancel_notify_unexp_event_with_recvq` if
there is no event, for each of these, when `nr` slots were prepared: which slots they take.  `none`
is where "the caller should have called prepare() earlier". -/
def settle (nr : ℕ) : (nextreserved : ℕ) → List (Option MediumEvent) →
    Option (List (ℕ × Option MediumEvent))
  | _, [] => some []
  | nextreserved, event :: events =>
      if sub 32 nextreserved ep.nextreleased < sub 32 (ep.nextfree + nr) ep.nextreleased then
        (settle nr (nextreserved + 1) events).map ((wrap 32 nextreserved, event) :: ·)
      else none

end DstEndpoint

/-! ## The copy -/

section Loops

variable (usegs : List UserSegment) (beyond : ℕ → UserSegment) (readable : ℕ → Bool)

/-- "copy the data right after the header", to the entry.  The bytes are given by their offset in
the queue and the address that they come from, also those of a chunk that cannot be read. -/
def copyFragTo : (fuel fragRemaining curDest : ℕ) → VaCursor →
    Option (List (ℕ × ℕ) × Option VaCursor)
  | fuel, fragRemaining, curDest, c =>
      if fragRemaining = 0 then some ([], some c)
      else
        match fuel with
        | 0 => none
        | fuel + 1 =>
            let chunk := if c.curUsegRemaining < fragRemaining then c.curUsegRemaining
              else fragRemaining
            let copied := (List.range' curDest chunk).zip (List.range' c.curUdata chunk)
            if ∀ a ∈ List.range' c.curUdata chunk, readable a then
              let c' := if chunk = c.curUsegRemaining then enterUseg usegs beyond (c.curUseg + 1)
                else ⟨c.curUseg, c.curUdata + chunk, c.curUsegRemaining - chunk⟩
              (copyFragTo fuel (fragRemaining - chunk) (curDest + chunk) c').map fun (rest, r) =>
                (copied ++ rest, r)
            else some (copied, none)

/-- The loop over the fragments, from the fragment `i` on, and whether it comes to its end. -/
def copyFrags (entrySize : ℕ) (recvqOffset : ℕ → ℕ) : (n i remaining : ℕ) → VaCursor →
    Option (List (ℕ × ℕ) × Bool)
  | 0, _, _, _ => some ([], true)
  | n + 1, i, remaining, c =>
      let fragLength := wrap 16 (if entrySize < remaining then entrySize else remaining)
      (copyFragTo usegs beyond readable (fragLength + usegs.length) fragLength (recvqOffset i)
          c).bind fun (copied, r) =>
          match r with
          | none => some (copied, false)
          | some c' =>
              (copyFrags entrySize recvqOffset n (i + 1) (remaining - fragLength) c').map
                fun (rest, done) => (copied ++ rest, done)

end Loops

/-! ## The command -/

/-- What a call finds. -/
structure SharedCall (cfg : SharedConfig) where
  srcPeerIndex : ℕ
  srcEndpointIndex : ℕ
  /-- there is memory for `recvq_offset` -/
  offsetsMemory : Bool
  /-- `none` if the sender was told so in `omx_shared_get_endpoint_or_notify_nack` -/
  dst : Option (DstEndpoint cfg)
  usegsMemory : Bool
  usegsRead : Bool
  /-- the addresses that `copy_from_user` can read -/
  readable : ℕ → Bool
  /-- what is in the memory after the segments -/
  beyond : ℕ → UserSegment

inductive SharedRet where
  | ok | enomem | efault | einval
  deriving DecidableEq

/-- What a call does. -/
structure SharedOutcome where
  ret : SharedRet
  /-- the entries of `recvq_offset` -/
  allocated : ℕ
  /-- what is written there, from the first entry on -/
  offsets : List ℕ
  /-- the bytes that are written to the receive queue, and where they come from -/
  copied : List (ℕ × ℕ)
  /-- the slots that are prepared -/
  prepared : ℕ
  /-- those that are taken, with their events if they are committed -/
  settled : List (ℕ × Option MediumEvent)
  deriving DecidableEq

/-- A call that comes to its end before it has prepared a slot. -/
def SharedOutcome.early (allocated : ℕ) (ret : SharedRet) : SharedOutcome :=
  ⟨ret, allocated, [], [], 0, []⟩

variable {cfg : SharedConfig}

/-- The event of the fragment `i`. -/
def mediumEvent (cmd : CmdSendMediumva) (call : SharedCall cfg) (recvqOffset : ℕ → ℕ)
    (i fragLength : ℕ) : MediumEvent where
  peerIndex := wrap 16 call.srcPeerIndex
  srcEndpoint := wrap 8 call.srcEndpointIndex
  matchInfo := wrap 64 cmd.matchInfo
  seqnum := wrap 16 cmd.seqnum
  piggyack := wrap 16 cmd.piggyack
  msgLength := wrap 32 cmd.length
  checksum := wrap 16 cmd.checksum
  fragPipeline := wrap 8 cfg.recvqEntryShift
  fragLength := wrap 16 fragLength
  fragSeqnum := wrap 8 i
  recvqOffset := wrap 32 (recvqOffset i)

/-- The loop that notifies the events, from the fragment `i` on. -/
def mediumEvents (entrySize : ℕ) (event : ℕ → ℕ → MediumEvent) : (n i remaining : ℕ) →
    List MediumEvent
  | 0, _, _ => []
  | n + 1, i, remaining =>
      let fragLength := wrap 16 (if entrySize < remaining then entrySize else remaining)
      event i fragLength :: mediumEvents entrySize event n (i + 1) (remaining - fragLength)

/-- `recvq_offset[i]`. -/
def offsetAt (offsets : List ℕ) (i : ℕ) : ℕ := offsets[i]?.getD 0

/-- `frags_nr` of `omx_shared_send_mediumva`; `OMX_RECVQ_ENTRY_SIZE` is an `unsigned long`. -/
def sharedFragsNr (cfg : SharedConfig) (length : ℕ) : ℕ :=
  wrap 64 (length + cfg.recvqEntrySize - 1) / cfg.recvqEntrySize

/-- `omx_shared_send_mediumva`. -/
def sharedSendMediumva (cmd : CmdSendMediumva) (call : SharedCall cfg) : Option SharedOutcome :=
  let allocated := cmd.length / cfg.recvqEntrySize
  if ¬ call.offsetsMemory then some (.early 0 .enomem)
  else
    match call.dst with
    | none => some (.early allocated .ok)
    | some dst =>
        let fragsNr := sharedFragsNr cfg cmd.length
        if ¬ call.usegsMemory then some (.early allocated .enomem)
        else if ¬ call.usegsRead then some (.early allocated .efault)
        else
          let remaining := wrap 32 (cmd.segments.map UserSegment.len).sum
          if remaining ≠ cmd.length then some (.early allocated .einval)
          else
            match dst.prepare fragsNr with
            | none => some (.early allocated .ok)
            | some offsets =>
                (copyFrags cmd.segments call.beyond call.readable cfg.recvqEntrySize
                    (offsetAt offsets) fragsNr 0 remaining
                    (enterUseg cmd.segments call.beyond 0)).bind
                  fun (copied, done) =>
                    let events := if done then (mediumEvents cfg.recvqEntrySize
                        (mediumEvent cmd call (offsetAt offsets)) fragsNr 0 cmd.length).map some
                      else List.replicate fragsNr none
                    (dst.settle fragsNr dst.nextreserved events).map fun settled =>
                      ⟨if done then .ok else .efault, allocated, offsets, copied, fragsNr, settled⟩

/-! ## What is copied -/

/-- A segment as the loop reads it: `cur_useg_remaining` is a `uint32_t`. -/
def low32 (useg : UserSegment) : UserSegment := ⟨useg.vaddr, wrap 32 useg.len⟩

section Copy

variable {usegs : List UserSegment} {beyond : ℕ → UserSegment} {readable : ℕ → Bool}
  {c c' : VaCursor} {data rest : List ℕ}

theorem enterUseg_low32 (i : ℕ) :
    enterUseg (usegs.map low32) beyond i = enterUseg usegs beyond i := by
  rw [enterUseg, enterUseg, List.getElem?_map]
  cases usegs[i]? with
  | none => rfl
  | some useg => exact congrArg (VaCursor.mk i useg.vaddr) (Nat.mod_mod ..)

theorem copyFrag_low32 (fuel fragRemaining : ℕ) (c : VaCursor) :
    copyFrag (usegs.map low32) beyond fuel fragRemaining c =
      copyFrag usegs beyond fuel fragRemaining c := by
  induction fuel generalizing fragRemaining c with
  | zero => rw [copyFrag, copyFrag]
  | succ fuel ih => rw [copyFrag, copyFrag]; simp only [enterUseg_low32, ih]

/-- What is copied to an entry, if all of it can be read; otherwise it stops before its end. -/
theorem copyFragTo_eq {fuel fragRemaining : ℕ} (curDest : ℕ)
    (h : copyFrag usegs beyond fuel fragRemaining c = some (data, c')) :
    ∃ copied r, copyFragTo usegs beyond readable fuel fragRemaining curDest c = some (copied, r) ∧
      (∀ w ∈ copied, curDest ≤ w.1 ∧ w.1 < curDest + fragRemaining) ∧
      ((∀ a ∈ data, readable a) →
        copied = (List.range' curDest data.length).zip data ∧ r = some c') ∧
      (¬ (∀ a ∈ data, readable a) → r = none) := by
  induction fuel generalizing fragRemaining curDest c data with
  | zero =>
      rw [copyFrag] at h
      split at h
      · rename_i hzero
        cases h
        exact ⟨[], some c', by rw [copyFragTo, if_pos hzero], by rintro _ ⟨⟩, fun _ => ⟨rfl, rfl⟩,
          fun hno => absurd (by rintro _ ⟨⟩) hno⟩
      · cases h
  | succ fuel ih =>
      rw [copyFrag] at h
      split at h
      · rename_i hzero
        cases h
        exact ⟨[], some c', by rw [copyFragTo, if_pos hzero], by rintro _ ⟨⟩, fun _ => ⟨rfl, rfl⟩,
          fun hno => absurd (by rintro _ ⟨⟩) hno⟩
      · rename_i hpos
        dsimp only at h
        rw [copyFragTo, if_neg hpos]
        dsimp only
        set chunk := if c.curUsegRemaining < fragRemaining then c.curUsegRemaining
          else fragRemaining with hchunk
        have hle : chunk ≤ fragRemaining := by rw [hchunk]; split <;> omega
        obtain ⟨⟨rest, c''⟩, hcopy, heq⟩ := Option.map_eq_some_iff.1 h
        cases heq
        have hbounds : ∀ w ∈ (List.range' curDest chunk).zip (List.range' c.curUdata chunk),
            curDest ≤ w.1 ∧ w.1 < curDest + fragRemaining := by
          intro w hw
          have hmem := List.mem_range'_1.1 (List.of_mem_zip hw).1
          omega
        by_cases hread : ∀ a ∈ List.range' c.curUdata chunk, readable a
        · obtain ⟨copied, r, hto, hin, hall, hnot⟩ := ih (curDest + chunk) hcopy
          refine ⟨_, r, by rw [if_pos hread, hto]; rfl, ?_, fun hdata => ?_, fun hdata => ?_⟩
          · intro w hw
            rcases List.mem_append.1 hw with hw | hw
            · exact hbounds w hw
            · have hrest := hin w hw
              omega
          · obtain ⟨rfl, rfl⟩ := hall fun a ha => hdata a (List.mem_append_right _ ha)
            refine ⟨?_, rfl⟩
            rw [List.length_append, List.length_range', ← List.range'_append_1,
              List.zip_append (by rw [List.length_range', List.length_range'])]
          · refine hnot fun hrest => hdata fun a ha => ?_
            rcases List.mem_append.1 ha with ha | ha
            · exact hread a ha
            · exact hrest a ha
        · refine ⟨_, none, if_neg hread, hbounds, fun hdata => ?_, fun _ => rfl⟩
          exact absurd (fun a ha => hdata a (List.mem_append_left _ ha)) hread

/-- The offsets of the bytes that the loop writes, from the fragment `i` on. -/
def entryBytes (entrySize : ℕ) (recvqOffset : ℕ → ℕ) : (n i remaining : ℕ) → List ℕ
  | 0, _, _ => []
  | n + 1, i, remaining =>
      List.range' (recvqOffset i) (min entrySize remaining) ++
        entryBytes entrySize recvqOffset n (i + 1) (remaining - min entrySize remaining)

/-- A chunk is as long as an entry, or as what remains. -/
theorem entryLength_eq {entrySize : ℕ} (hle : entrySize ≤ 8192) (remaining : ℕ) :
    wrap 16 (if entrySize < remaining then entrySize else remaining) = min entrySize remaining := by
  have hmin : (if entrySize < remaining then entrySize else remaining)
      = min entrySize remaining := by
    split <;> omega
  rw [hmin, wrap_of_lt (by omega)]

/-- The loop writes what comes next in the segments to the entries, and comes to its end if it can
read all of it. -/
theorem copyFrags_eq (readable : ℕ → Bool) {entrySize : ℕ} (hpos : 0 < entrySize)
    (hle : entrySize ≤ 8192) (recvqOffset : ℕ → ℕ) {n i remaining : ℕ}
    (h : c.At (usegs.map low32) rest)
    (hremaining : remaining ≤ rest.length) (hn : (remaining + entrySize - 1) / entrySize = n) :
    ∃ copied done, copyFrags usegs beyond readable entrySize recvqOffset n i remaining c =
        some (copied, done) ∧
      (∀ w ∈ copied, ∃ j < n, recvqOffset (i + j) ≤ w.1 ∧ w.1 < recvqOffset (i + j) + entrySize) ∧
      (done = true ↔ ∀ a ∈ rest.take remaining, readable a) ∧
      (done = true → copied =
        (entryBytes entrySize recvqOffset n i remaining).zip (rest.take remaining)) := by
  have hlow : ∀ useg ∈ usegs.map low32, useg.len < 2 ^ 32 := by
    intro useg hmem
    obtain ⟨useg, -, rfl⟩ := List.mem_map.1 hmem
    exact wrap_lt ..
  induction n generalizing i remaining c rest with
  | zero =>
      have hlt := Nat.lt_of_div_eq_zero hpos hn
      obtain rfl : remaining = 0 := by omega
      exact ⟨[], true, rfl, by rintro _ ⟨⟩, iff_of_true rfl (by rw [List.take_zero]; rintro _ ⟨⟩),
        fun _ => rfl⟩
  | succ n ih =>
      obtain ⟨hmore, hnext⟩ := fragsNr_succ hpos hn
      have hmin := (Nat.min_le_right entrySize remaining).trans hremaining
      have hfuel : min entrySize remaining + ((usegs.map low32).length - c.curUseg) ≤
          min entrySize remaining + usegs.length := by
        rw [List.length_map]
        omega
      obtain ⟨c', hcopy, hat⟩ := @copyFrag_eq _ beyond _ _ hlow _ _ h hmin hfuel
      rw [copyFrag_low32] at hcopy
      obtain ⟨copied, r, hto, hin, hall, hnot⟩ :=
        @copyFragTo_eq _ _ readable _ _ _ _ _ (recvqOffset i) hcopy
      have hsplit : rest.take remaining = rest.take (min entrySize remaining) ++
          (rest.drop (min entrySize remaining)).take (remaining - min entrySize remaining) := by
        rw [← List.take_add]
        congr 1
        omega
      have htake : (rest.take (min entrySize remaining)).length = min entrySize remaining :=
        List.length_take_of_le hmin
      have hfirst : ∀ w ∈ copied, ∃ j < n + 1,
          recvqOffset (i + j) ≤ w.1 ∧ w.1 < recvqOffset (i + j) + entrySize := by
        intro w hw
        have hbound := hin w hw
        exact ⟨0, Nat.succ_pos n, by rw [Nat.add_zero]; omega⟩
      rw [copyFrags, entryLength_eq hle, hto, Option.bind_some]
      dsimp only
      by_cases hread : ∀ a ∈ rest.take (min entrySize remaining), readable a
      · obtain ⟨rfl, rfl⟩ := hall hread
        obtain ⟨copied', done, hloop, hin', hdone, hcopied⟩ := @ih _ _ (i + 1) _ hat
          (by rw [List.length_drop]; omega) hnext
        dsimp only
        refine ⟨_, done, by rw [hloop]; rfl, fun w hw => ?_, ?_, fun hyes => ?_⟩
        · rcases List.mem_append.1 hw with hw | hw
          · exact hfirst w hw
          · obtain ⟨j, hj, hbound⟩ := hin' w hw
            refine ⟨j + 1, Nat.succ_lt_succ hj, ?_⟩
            rwa [show i + (j + 1) = i + 1 + j by omega]
        · rw [hdone, hsplit]
          refine ⟨fun hrest a ha => ?_, fun h a ha => h a (List.mem_append_right _ ha)⟩
          rcases List.mem_append.1 ha with ha | ha
          · exact hread a ha
          · exact hrest a ha
        · rw [hcopied hyes, hsplit, entryBytes, htake]
          exact (List.zip_append (by rw [List.length_range', htake])).symm
      · obtain rfl := hnot hread
        refine ⟨copied, false, rfl, hfirst,
          iff_of_false (by rintro ⟨⟩) fun h => hread fun a ha => ?_, by rintro ⟨⟩⟩
        rw [hsplit] at h
        exact h a (List.mem_append_left _ ha)

/-! ## What is in the entries -/

variable {entrySize : ℕ} {recvqOffset : ℕ → ℕ}

theorem length_entryBytes {n i remaining : ℕ} (h : (remaining + entrySize - 1) / entrySize = n)
    (hpos : 0 < entrySize) :
    (entryBytes entrySize recvqOffset n i remaining).length = remaining := by
  induction n generalizing i remaining with
  | zero =>
      have hlt := Nat.lt_of_div_eq_zero hpos h
      rw [entryBytes, List.length_nil]
      omega
  | succ n ih =>
      obtain ⟨-, hnext⟩ := fragsNr_succ hpos h
      rw [entryBytes, List.length_append, List.length_range', ih hnext]
      exact Nat.add_sub_cancel' (Nat.min_le_right ..)

theorem mem_entryBytes {n i remaining a : ℕ}
    (h : a ∈ entryBytes entrySize recvqOffset n i remaining) :
    ∃ j < n, recvqOffset (i + j) ≤ a ∧ a < recvqOffset (i + j) + entrySize := by
  induction n generalizing i remaining with
  | zero => exact nomatch h
  | succ n ih =>
      rcases List.mem_append.1 h with h | h
      · have hbound := List.mem_range'_1.1 h
        exact ⟨0, Nat.succ_pos n, by rw [Nat.add_zero]; omega⟩
      · obtain ⟨j, hj, hbound⟩ := ih h
        refine ⟨j + 1, Nat.succ_lt_succ hj, ?_⟩
        rwa [show i + (j + 1) = i + 1 + j by omega]

/-- Entries do not overlap. -/
def Apart (entrySize : ℕ) (recvqOffset : ℕ → ℕ) (i n : ℕ) : Prop :=
  ∀ j < n, ∀ k < n, j ≠ k → recvqOffset (i + j) + entrySize ≤ recvqOffset (i + k) ∨
    recvqOffset (i + k) + entrySize ≤ recvqOffset (i + j)

/-- A range that is written, as it is read. -/
theorem map_writeAll_range' (mem : ℕ → Option ℕ) (o : ℕ) (values : List ℕ) :
    (List.range' o values.length).map
        (writeAll mem (List.range' o values.length) (values.map some)) = values.map some := by
  refine List.ext_getElem (by simp) fun k hk hk' => ?_
  rw [List.getElem_map]
  have hk'' : k < values.length := by simpa using hk'
  exact writeAll_of_nodup List.nodup_range'
    (List.getElem?_eq_getElem (by rwa [List.length_range'])) (List.getElem?_eq_getElem hk')

/-- If the message fills its entries, an entry has the bytes of its fragment. -/
theorem recvq_entry (mem : ℕ → Option ℕ) {n i : ℕ} {bytes : List ℕ}
    (hlen : bytes.length = n * entrySize) (hapart : Apart entrySize recvqOffset i n) {j : ℕ}
    (hj : j < n) :
    (List.range' (recvqOffset (i + j)) entrySize).map
        (writeAll mem (entryBytes entrySize recvqOffset n i (n * entrySize)) (bytes.map some)) =
      ((bytes.drop (j * entrySize)).take entrySize).map some := by
  induction n generalizing i j bytes mem with
  | zero => exact absurd hj (Nat.not_lt_zero j)
  | succ n ih =>
      rw [Nat.succ_mul] at hlen
      have hmin : min entrySize ((n + 1) * entrySize) = entrySize := by
        rw [Nat.succ_mul]
        omega
      have htake : (bytes.take entrySize).length = entrySize := List.length_take_of_le (by omega)
      have hrest : (n + 1) * entrySize - entrySize = n * entrySize := by
        rw [Nat.succ_mul, Nat.add_sub_cancel]
      have hsplit : writeAll mem (entryBytes entrySize recvqOffset (n + 1) i ((n + 1) * entrySize))
            (bytes.map some) =
          writeAll (writeAll mem (List.range' (recvqOffset i) entrySize)
              ((bytes.take entrySize).map some))
            (entryBytes entrySize recvqOffset n (i + 1) (n * entrySize))
            ((bytes.drop entrySize).map some) := by
        rw [entryBytes, hmin, hrest,
          ← writeAll_append (by rw [List.length_range', List.length_map, htake]),
          ← List.map_append, List.take_append_drop]
      rw [hsplit]
      cases j with
      | zero =>
          -- the later fragments are somewhere else
          have hkeep : ∀ a ∈ List.range' (recvqOffset i) entrySize,
              a ∉ entryBytes entrySize recvqOffset n (i + 1) (n * entrySize) := by
            intro a ha hmem
            have hin := List.mem_range'_1.1 ha
            obtain ⟨k, hk, hbound⟩ := mem_entryBytes hmem
            have happ := hapart 0 (Nat.succ_pos n) (k + 1) (Nat.succ_lt_succ hk) nofun
            rw [Nat.add_zero, show i + (k + 1) = i + 1 + k by omega] at happ
            omega
          rw [Nat.zero_mul, List.drop_zero, Nat.add_zero]
          have hread := map_writeAll_range' mem (recvqOffset i) (bytes.take entrySize)
          rw [htake] at hread
          exact (List.map_congr_left fun a ha => writeAll_of_notMem (hkeep a ha)).trans hread
      | succ j =>
          have hapart' : Apart entrySize recvqOffset (i + 1) n := by
            intro k hk l hl hne
            have happ := hapart (k + 1) (Nat.succ_lt_succ hk) (l + 1) (Nat.succ_lt_succ hl)
              (by omega)
            rwa [show i + (k + 1) = i + 1 + k by omega,
              show i + (l + 1) = i + 1 + l by omega] at happ
          rw [show i + (j + 1) = i + 1 + j by omega,
            ih _ (by rw [List.length_drop]; omega) hapart' (Nat.lt_of_succ_lt_succ hj),
            List.drop_drop]
          congr 3
          rw [Nat.succ_mul]
          omega

end Copy

/-! ## Slots -/

section Slots

variable (dst : DstEndpoint cfg)

/-- The slots that are reserved are reserved above those that were. -/
theorem DstEndpoint.sub_nextfree {n : ℕ} (hn : n ≤ 2 ^ 30) :
    sub 32 (dst.nextfree + n) dst.nextreleased = sub 32 dst.nextfree dst.nextreleased + n := by
  have hroom := dst.room
  have hlt := cfg.ring.lt
  rw [RingSize.hasRoom] at hroom
  unfold sub at hroom ⊢
  omega

/-- As many slots are there as events, and they are different. -/
theorem DstEndpoint.settle_eq {nr : ℕ} (start : ℕ) (events : List (Option MediumEvent))
    (hnr : nr ≤ 2 ^ 30)
    (h : sub 32 start dst.nextreleased + events.length ≤
      sub 32 dst.nextfree dst.nextreleased + nr) :
    ∃ settled, dst.settle nr start events = some settled ∧ settled.map Prod.snd = events ∧
      settled.map Prod.fst = (List.range' start events.length).map (wrap 32) := by
  induction events generalizing start with
  | nil => exact ⟨[], rfl, rfl, rfl⟩
  | cons event events ih =>
      have hroom := dst.room
      have hlt := cfg.ring.lt
      rw [RingSize.hasRoom] at hroom
      rw [List.length_cons] at h
      have hnext : sub 32 (start + 1) dst.nextreleased = sub 32 start dst.nextreleased + 1 := by
        unfold sub at h hroom ⊢
        omega
      obtain ⟨settled, hsettle, hevents, hslots⟩ := ih (start + 1) (by omega)
      refine ⟨(wrap 32 start, event) :: settled, ?_, ?_, ?_⟩
      · rw [DstEndpoint.settle, dst.sub_nextfree hnr, if_pos (by omega), hsettle]
        rfl
      · rw [List.map_cons, hevents]
      · rw [List.map_cons, hslots, List.length_cons, List.range'_succ, List.map_cons]

/-- The numbers of slots that follow each other. -/
theorem nodup_slots {start n : ℕ} (hn : n ≤ 2 ^ 30) :
    ((List.range' start n).map (wrap 32)).Nodup := by
  refine (List.nodup_map_iff_inj_on List.nodup_range').2 fun a ha b hb heq => ?_
  have hlo := List.mem_range'_1.1 ha
  have hhi := List.mem_range'_1.1 hb
  unfold wrap at heq
  omega

variable {dst} {nr : ℕ} {offsets : List ℕ}

theorem sharedFragsNr_eq (cfg : SharedConfig) {length : ℕ} (h : length < 2 ^ 32) :
    sharedFragsNr cfg length = (length + cfg.recvqEntrySize - 1) / cfg.recvqEntrySize ∧
      sharedFragsNr cfg length ≤ 2 ^ 30 := by
  obtain ⟨hlo, hhi, -⟩ := cfg.recvqEntrySize_bounds
  have hwrap : sharedFragsNr cfg length =
      (length + cfg.recvqEntrySize - 1) / cfg.recvqEntrySize := by
    rw [sharedFragsNr, wrap_of_lt (by omega)]
  refine ⟨hwrap, ?_⟩
  rw [hwrap]
  refine Nat.div_le_of_le_mul (le_trans ?_ (Nat.mul_le_mul_right (2 ^ 30) hlo))
  omega

/-- What is prepared is no more than a ring, and its entries do not overlap. -/
theorem DstEndpoint.prepare_apart (hn : nr ≤ 2 ^ 30) (h : dst.prepare nr = some offsets) :
    offsets.length = nr ∧ (∀ offset ∈ offsets, offset < 2 ^ 32) ∧
      Apart cfg.recvqEntrySize (offsetAt offsets) 0 nr := by
  rw [DstEndpoint.prepare] at h
  split at h
  · rename_i hroom
    cases h
    rw [RingSize.hasRoom, dst.sub_nextfree hn] at hroom
    have hdvd := cfg.ring.dvd
    have hringpos := cfg.ring.pos
    have hsize := (cfg.recvqEntrySize_bounds).1
    refine ⟨by rw [List.length_map, List.length_range], ?_, fun j hj k hk hne => ?_⟩
    · intro offset hmem
      obtain ⟨i, -, rfl⟩ := List.mem_map.1 hmem
      have hslot : cfg.ring.slot (dst.nextRecvq + i) < cfg.ring.entryNr := Nat.mod_lt _ hringpos
      exact (Nat.mul_lt_mul_of_pos_right hslot (by omega)).trans_le cfg.fits
    · have hslots : cfg.ring.slot (dst.nextRecvq + j) ≠ cfg.ring.slot (dst.nextRecvq + k) := by
        intro heq
        rw [RingSize.slot, RingSize.slot, wrap, wrap, Nat.mod_mod_of_dvd _ hdvd,
          Nat.mod_mod_of_dvd _ hdvd] at heq
        have hmodeq : j ≡ k [MOD cfg.ring.entryNr] := Nat.ModEq.add_left_cancel' _ heq
        exact hne (hmodeq.eq_of_lt_of_lt (by omega) (by omega))
      simp only [offsetAt, Nat.zero_add, List.getElem?_map, List.getElem?_range hj,
        List.getElem?_range hk, Option.map_some, Option.getD_some]
      rcases Nat.lt_or_gt_of_ne hslots with hlt | hgt
      · exact .inl ((Nat.succ_mul ..).ge.trans (Nat.mul_le_mul_right _ hlt))
      · exact .inr ((Nat.succ_mul ..).ge.trans (Nat.mul_le_mul_right _ hgt))
  · cases h

end Slots

end Xen2mx.Medium
