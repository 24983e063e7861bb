/-
# `Xen2mx.Medium.Vector` — messages from a vector of segments

A medium message may be sent in one command, with the segments that it is in.  The fragments are
cut as the library cuts them for the send queue, and their bytes are copied from the segments one
after the other; the header of each is filled field by field.

    fragments    | 0         | 1         | 2   |
    segments     | 0   | 1         |2| 3       |

A segment that is copied to its end is left, and the next one looked at, also after the last byte
of the message.  Nobody fills the checksum: it is what was in the memory of the packet before.

Memory for the packets is there, the peer is known and the segments are readable: otherwise the
command ends with an error, after the fragments that are sent already.

**Proved here.**

    what is copied is what comes next in the segments               (`copyFrag_eq`)
    the fragments tile the message; they have the headers of those
    of the send queue and no segment past the last is looked at
        ⟺  the last segment is empty, the checksums were there
            before, and the number of fragments does not wrap       (`sendMediumva_iff`)
    a message in one segment: one past the last is looked at        (`sendMediumva_past`)
-/
import Mathlib.Algebra.Order.BigOperators.Group.List
import Xen2mx.Lib.Tiling
import Xen2mx.Medium.Sendq
import Xen2mx.Region.Segment

namespace Xen2mx.Medium

open Region Word

variable {π : Type*}

/-! ## Commands -/

/-- How the packets are cut.  A fragment of a message has at most `OMX_MEDIUM_FRAG_LENGTH_MAX` bytes;
its shift is there, and the pipeline in the packets, if they are those of MX. -/
structure WireConfig where
  compat : Bool
  fragLengthMax : ℕ
  fragLengthShift : ℕ
  one_lt : 1 < fragLengthMax
  le : fragLengthMax ≤ 8192

/-- `OMX__MX_MEDIUM_MSG_LENGTH_MAX`. -/
def mxMediumMsgLengthMax : ℕ := 32768

/-- `struct omx_cmd_send_mediumva`, with the segments that it points to. -/
structure CmdSendMediumva where
  peerIndex : ℕ
  destEndpoint : ℕ
  shared : Bool
  sessionId : ℕ
  seqnum : ℕ
  piggyack : ℕ
  length : ℕ
  checksum : ℕ
  segments : List UserSegment
  matchInfo : ℕ

/-- A fragment that is sent, with the addresses that its data is copied from. -/
structure MediumvaFrag where
  header : MediumHeader
  data : List ℕ
  deriving DecidableEq

/-- `cur_useg`, `cur_udata` and `cur_useg_remaining`. -/
structure VaCursor where
  curUseg : ℕ
  curUdata : ℕ
  curUsegRemaining : ℕ
  deriving DecidableEq

/-- What becomes of a command; where the cursor ends if it is done. -/
inductive MediumvaResult where
  | einval
  /-- `omx_shared_send_mediumva` -/
  | shared
  | sent (frags : List MediumvaFrag) (cursor : VaCursor)
  deriving DecidableEq

/-- The fields of the header of the fragment `i`, in the order in which they are filled.  `stale` is
what the checksum was. -/
def mediumvaHeader {cfg : SendqConfig} (wire : WireConfig) (ep : Endpoint cfg π)
    (cmd : CmdSendMediumva) (i fragLength stale : ℕ) : MediumHeader where
  dstPeer := cmd.peerIndex
  hSource := ep.devAddr
  srcEndpoint := wrap 8 ep.endpointIndex
  dstEndpoint := wrap 8 cmd.destEndpoint
  length := wrap (if wire.compat then 16 else 32) cmd.length
  fragPipeline := if wire.compat then some (wrap 8 wire.fragLengthShift) else none
  libSeqnum := wrap 16 cmd.seqnum
  libPiggyack := wrap 16 cmd.piggyack
  session := wrap 32 cmd.sessionId
  matchInfo := wrap 64 cmd.matchInfo
  fragLength := wrap 16 fragLength
  fragSeqnum := wrap 8 i
  checksum := wrap 16 stale

/-! ## The segments -/

section Loops

variable (usegs : List UserSegment) (beyond : ℕ → UserSegment)

/-- The cursor at the start of the segment `i`; `beyond` is what is in the memory after the array. -/
def enterUseg (i : ℕ) : VaCursor where
  curUseg := i
  curUdata := (usegs[i]?.getD (beyond i)).vaddr
  curUsegRemaining := wrap 32 (usegs[i]?.getD (beyond i)).len

/-- "copy the data right after the header". -/
def copyFrag : (fuel fragRemaining : ℕ) → VaCursor → Option (List ℕ × VaCursor)
  | fuel, fragRemaining, c =>
      if fragRemaining = 0 then some ([], c)
      else
        match fuel with
        | 0 => none
        | fuel + 1 =>
            let chunk := if c.curUsegRemaining < fragRemaining then c.curUsegRemaining
              else fragRemaining
            let c' := if chunk = c.curUsegRemaining then enterUseg usegs beyond (c.curUseg + 1)
              else ⟨c.curUseg, c.curUdata + chunk, c.curUsegRemaining - chunk⟩
            (copyFrag fuel (fragRemaining - chunk) c').map fun (data, c'') =>
              (List.range' c.curUdata chunk ++ data, c'')

/-- The loop over the fragments, from the fragment `i` on.  As many rounds are enough for one as it
has bytes and there are segments. -/
def vaLoop (fragLengthMax : ℕ) (header : ℕ → ℕ → MediumHeader) :
    (n i remaining : ℕ) → VaCursor → Option (List MediumvaFrag × VaCursor)
  | 0, _, _, c => some ([], c)
  | n + 1, i, remaining, c =>
      let fragLength := wrap 16 (if fragLengthMax < remaining then fragLengthMax else remaining)
      (copyFrag usegs beyond (fragLength + usegs.length) fragLength c).bind fun (data, c') =>
        (vaLoop fragLengthMax header n (i + 1) (remaining - fragLength) c').map fun (frags, c'') =>
          (⟨header i fragLength, data⟩ :: frags, c'')

end Loops

/-- `omx_ioctl_send_mediumva`, of the native driver.  The number of fragments is an `unsigned long`
until it is divided. -/
def sendMediumva {cfg : SendqConfig} (wire : WireConfig) (ep : Endpoint cfg π)
    (cmd : CmdSendMediumva) (stale : ℕ → ℕ) (beyond : ℕ → UserSegment) : Option MediumvaResult :=
  if wire.compat = true ∧ mxMediumMsgLengthMax < cmd.length then some .einval
  else if cmd.shared then some .shared
  else
    let fragsNr := wrap 64 (cmd.length + wire.fragLengthMax - 1) / wire.fragLengthMax
    let remaining := wrap 32 (cmd.segments.map UserSegment.len).sum
    if remaining ≠ cmd.length then some .einval
    else
      (vaLoop cmd.segments beyond wire.fragLengthMax
          (fun i fragLength => mediumvaHeader wire ep cmd i fragLength (stale i))
          fragsNr 0 remaining (enterUseg cmd.segments beyond 0)).map fun (frags, c) =>
        .sent frags c

/-! ## The library -/

/-- A medium message that the library sends. -/
structure MediumSend where
  peerIndex : ℕ
  endpointIndex : ℕ
  shared : Bool
  trueSessionId : ℕ
  sendSeqnum : ℕ
  ackUpto : ℕ
  matchInfo : ℕ
  msgLength : ℕ
  checksum : ℕ
  segs : List UserSegment
  sendqMapIndex : ℕ → ℕ

/-- `omx__alloc_setup_isend_mediumva`, and what comes of it until the message is posted. -/
def mediumvaCmd (req : MediumSend) : CmdSendMediumva where
  peerIndex := req.peerIndex
  destEndpoint := req.endpointIndex
  shared := req.shared
  matchInfo := req.matchInfo
  sessionId := req.trueSessionId
  length := req.msgLength
  segments := req.segs
  checksum := req.checksum
  seqnum := req.sendSeqnum
  piggyack := req.ackUpto

/-- `omx__alloc_setup_isend_mediumsq` and `omx__post_isend_mediumsq`: the command of the fragment `i`,
of `chunk` bytes. -/
def mediumsqCmd (cfg : SendqConfig) (wire : WireConfig) (req : MediumSend) (i chunk : ℕ) :
    CmdSendMediumsqFrag where
  peerIndex := req.peerIndex
  destEndpoint := req.endpointIndex
  shared := req.shared
  matchInfo := req.matchInfo
  fragPipeline := if wire.compat then wrap 8 wire.fragLengthShift else 0
  msgLength := req.msgLength
  sessionId := req.trueSessionId
  checksum := req.checksum
  seqnum := req.sendSeqnum
  piggyack := req.ackUpto
  fragLength := wrap 16 chunk
  fragSeqnum := wrap 8 i
  sendqOffset := wrap 32 (req.sendqMapIndex i * 2 ^ cfg.sendqEntryShift)

/-- The fragments that are posted, from the fragment `i` on. -/
def mediumsqLoop (cfg : SendqConfig) (wire : WireConfig) (req : MediumSend) :
    (n i remaining : ℕ) → List CmdSendMediumsqFrag
  | 0, _, _ => []
  | n + 1, i, remaining =>
      let chunk := if wire.fragLengthMax < remaining then wire.fragLengthMax else remaining
      mediumsqCmd cfg wire req i chunk :: mediumsqLoop cfg wire req n (i + 1) (remaining - chunk)

/-- `frags_nr` of `omx__submit_isend_medium`. -/
def fragsNr (wire : WireConfig) (length : ℕ) : ℕ :=
  wrap 32 (length + wire.fragLengthMax - 1) / wire.fragLengthMax

/-- The commands that the library gives to the driver for a message through the send queue. -/
def mediumsqCmds (cfg : SendqConfig) (wire : WireConfig) (req : MediumSend) :
    List CmdSendMediumsqFrag :=
  mediumsqLoop cfg wire req (fragsNr wire req.msgLength) 0 req.msgLength

/-! ## Where the cursor is -/

/-- The addresses of the bytes of a segment. -/
def addresses (useg : UserSegment) : List ℕ := List.range' useg.vaddr useg.len

theorem length_flatMap_addresses (usegs : List UserSegment) :
    (usegs.flatMap addresses).length = (usegs.map UserSegment.len).sum := by
  rw [List.length_flatMap]
  exact congrArg List.sum (List.map_congr_left fun useg _ => List.length_range' ..)

/-- These addresses come next.  The cursor is in a segment, and at its end only if it is empty, or it
is past the last, which is not empty. -/
inductive VaCursor.At (usegs : List UserSegment) (c : VaCursor) : List ℕ → Prop
  | inside (useg : UserSegment) (hget : usegs[c.curUseg]? = some useg)
      (hzero : c.curUsegRemaining = 0 ↔ useg.len = 0) :
      At usegs c (List.range' c.curUdata c.curUsegRemaining ++
        (usegs.drop (c.curUseg + 1)).flatMap addresses)
  | past (hend : c.curUseg = usegs.length) (hlast : ∀ useg ∈ usegs.getLast?, useg.len ≠ 0) :
      At usegs c []

variable {usegs : List UserSegment} {beyond : ℕ → UserSegment} {c : VaCursor} {rest : List ℕ}

/-- The cursor at the start of a segment of the array. -/
theorem enterUseg_at (hlen : ∀ useg ∈ usegs, useg.len < 2 ^ 32) {i : ℕ} {useg : UserSegment}
    (hget : usegs[i]? = some useg) :
    (enterUseg usegs beyond i).At usegs ((usegs.drop i).flatMap addresses) := by
  have hwrap : wrap 32 useg.len = useg.len := wrap_of_lt (hlen useg (List.mem_of_getElem? hget))
  have henter : enterUseg usegs beyond i = ⟨i, useg.vaddr, useg.len⟩ := by
    rw [enterUseg, hget, Option.getD_some, hwrap]
  obtain ⟨hi, hgetElem⟩ := List.getElem?_eq_some_iff.1 hget
  rw [henter, List.drop_eq_getElem_cons hi, List.flatMap_cons, hgetElem]
  exact .inside useg hget Iff.rfl

/-- The cursor is in the array at the end of the bytes if the last segment is empty. -/
theorem VaCursor.At.lt_iff (h : c.At usegs []) :
    c.curUseg < usegs.length ↔ ∃ useg ∈ usegs.getLast?, useg.len = 0 := by
  generalize hrest : ([] : List ℕ) = rest at h
  cases h with
  | past hend hlast =>
      refine ⟨fun hlt => absurd hlt hend.not_lt, ?_⟩
      rintro ⟨useg, hmem, hzero⟩
      exact absurd hzero (hlast useg hmem)
  | inside useg hget hzero =>
      obtain ⟨hlt, hgetElem⟩ := List.getElem?_eq_some_iff.1 hget
      refine iff_of_true hlt ?_
      obtain ⟨hin, htail⟩ := List.append_eq_nil_iff.1 hrest.symm
      have hempty : ∀ useg' ∈ usegs.drop c.curUseg, useg'.len = 0 := by
        rw [List.drop_eq_getElem_cons hlt, hgetElem]
        intro useg' hmem
        obtain rfl | hmem := List.mem_cons.1 hmem
        · exact hzero.1 (List.range'_eq_nil_iff.1 hin)
        · exact List.range'_eq_nil_iff.1 (List.flatMap_eq_nil_iff.1 htail useg' hmem)
      obtain ⟨last, hlast⟩ : ∃ last, usegs.getLast? = some last :=
        ⟨_, List.getLast?_eq_getElem?.trans (List.getElem?_eq_getElem (by omega))⟩
      refine ⟨last, hlast, hempty last (List.mem_of_getLast? ?_)⟩
      rw [List.getLast?_drop, if_neg hlt.not_ge]
      exact hlast

/-! ## What is copied -/

/-- A round of the copy that ends a segment. -/
theorem VaCursor.At.next (hlen : ∀ useg ∈ usegs, useg.len < 2 ^ 32) {useg : UserSegment}
    (hget : usegs[c.curUseg]? = some useg) (hne : useg.len ≠ 0) :
    (enterUseg usegs beyond (c.curUseg + 1)).At usegs
      ((usegs.drop (c.curUseg + 1)).flatMap addresses) := by
  obtain ⟨hlt, hgetElem⟩ := List.getElem?_eq_some_iff.1 hget
  rcases Nat.lt_or_ge (c.curUseg + 1) usegs.length with hin | hend
  · exact enterUseg_at hlen (List.getElem?_eq_getElem hin)
  · rw [List.drop_of_length_le hend]
    refine .past (le_antisymm hlt hend) fun last hlast => ?_
    rw [List.getLast?_eq_getElem?, show usegs.length - 1 = c.curUseg by omega, hget] at hlast
    cases hlast
    exact hne

theorem copyFrag_zero (fuel : ℕ) (c : VaCursor) : copyFrag usegs beyond fuel 0 c = some ([], c) := by
  cases fuel <;> rw [copyFrag, if_pos rfl]

/-- A round: the segment is left if the chunk is what remains of it. -/
theorem copyFrag_succ {fragRemaining : ℕ} (h : 0 < fragRemaining) (fuel : ℕ) (c : VaCursor) :
    copyFrag usegs beyond (fuel + 1) fragRemaining c =
      if fragRemaining < c.curUsegRemaining then
        (copyFrag usegs beyond fuel 0
          ⟨c.curUseg, c.curUdata + fragRemaining, c.curUsegRemaining - fragRemaining⟩).map
            fun (data, c') => (List.range' c.curUdata fragRemaining ++ data, c')
      else
        (copyFrag usegs beyond fuel (fragRemaining - c.curUsegRemaining)
          (enterUseg usegs beyond (c.curUseg + 1))).map
            fun (data, c') => (List.range' c.curUdata c.curUsegRemaining ++ data, c') := by
  rw [copyFrag, if_neg h.ne']
  rcases Nat.lt_or_ge fragRemaining c.curUsegRemaining with hshort | hlong
  · simp only [if_neg hshort.not_gt, if_neg hshort.ne, Nat.sub_self, if_pos hshort]
  · have hchunk : (if c.curUsegRemaining < fragRemaining then c.curUsegRemaining
        else fragRemaining) = c.curUsegRemaining := by
      split <;> omega
    simp only [hchunk, if_neg hlong.not_gt, if_true]

/-- What is copied is what comes next, and the cursor is after it. -/
theorem copyFrag_eq (hlen : ∀ useg ∈ usegs, useg.len < 2 ^ 32) {fuel fragRemaining : ℕ}
    (h : c.At usegs rest) (hle : fragRemaining ≤ rest.length)
    (hfuel : fragRemaining + (usegs.length - c.curUseg) ≤ fuel) :
    ∃ c', copyFrag usegs beyond fuel fragRemaining c = some (rest.take fragRemaining, c') ∧
      c'.At usegs (rest.drop fragRemaining) := by
  induction fuel generalizing fragRemaining c rest with
  | zero =>
      obtain rfl : fragRemaining = 0 := by omega
      exact ⟨c, by rw [copyFrag, if_pos rfl]; rfl, h⟩
  | succ fuel ih =>
      rcases Nat.eq_zero_or_pos fragRemaining with rfl | hpos
      · exact ⟨c, by rw [copyFrag, if_pos rfl]; rfl, h⟩
      · cases h with
        | past hend hlast => exact absurd hle (by simpa using hpos.ne')
        | inside useg hget hzero =>
            obtain ⟨hlt, -⟩ := List.getElem?_eq_some_iff.1 hget
            have hin : (List.range' c.curUdata c.curUsegRemaining).length = c.curUsegRemaining :=
              List.length_range' ..
            rw [copyFrag_succ hpos]
            rcases Nat.lt_or_ge fragRemaining c.curUsegRemaining with hshort | hlong
            · -- the fragment ends in the segment
              have hsplit : List.range' c.curUdata c.curUsegRemaining
                  = List.range' c.curUdata fragRemaining ++ List.range' (c.curUdata + fragRemaining)
                    (c.curUsegRemaining - fragRemaining) := by
                rw [List.range'_append_1, Nat.add_sub_cancel' hshort.le]
              refine ⟨⟨c.curUseg, c.curUdata + fragRemaining, c.curUsegRemaining - fragRemaining⟩,
                ?_, ?_⟩
              · rw [if_pos hshort, copyFrag_zero, Option.map_some]
                dsimp only
                rw [List.append_nil, hsplit, List.append_assoc,
                  List.take_left' (List.length_range' ..)]
              · rw [hsplit, List.append_assoc, List.drop_left' (List.length_range' ..)]
                exact .inside useg hget ⟨fun hz => absurd hz (Nat.sub_pos_of_lt hshort).ne',
                  fun hz => absurd (hzero.2 hz) (by omega)⟩
            · -- the segment ends in the fragment, or with it
              have hnext : (enterUseg usegs beyond (c.curUseg + 1)).At usegs
                  ((usegs.drop (c.curUseg + 1)).flatMap addresses) := by
                rcases Nat.lt_or_ge (c.curUseg + 1) usegs.length with hmore | hlast
                · exact enterUseg_at hlen (List.getElem?_eq_getElem hmore)
                · rw [List.drop_of_length_le hlast, List.flatMap_nil, List.append_nil, hin] at hle
                  exact .next hlen hget fun hz => absurd (hzero.2 hz) (by omega)
              have htake : (List.range' c.curUdata c.curUsegRemaining).take fragRemaining
                  = List.range' c.curUdata c.curUsegRemaining :=
                List.take_of_length_le (hin.trans_le hlong)
              rw [List.length_append, hin] at hle
              obtain ⟨c', hcopy, hat⟩ := @ih _ _ (fragRemaining - c.curUsegRemaining) hnext
                (by omega) (by simp only [enterUseg]; omega)
              refine ⟨c', ?_, ?_⟩
              · rw [if_neg hlong.not_gt, hcopy, Option.map_some, List.take_append, hin, htake]
              · rwa [List.drop_append, hin, List.drop_of_length_le (hin.trans_le hlong),
                  List.nil_append]

/-! ## Fragments -/

/-- The number of fragments of a message that goes on after its first one. -/
theorem fragsNr_succ {max len n : ℕ} (hmax : 0 < max) (h : (len + max - 1) / max = n + 1) :
    0 < len ∧ (len - min max len + max - 1) / max = n := by
  have hpos : 0 < len := Nat.pos_of_ne_zero fun hzero => by
    rw [(pieces_eq_zero_iff hmax).2 hzero] at h
    cases h
  rw [pieces_eq_succ hmax hpos] at h
  exact ⟨hpos, Nat.succ.inj h⟩

/-- A chunk is as long as a fragment may be, or as what remains. -/
theorem fragLength_eq (wire : WireConfig) (remaining : ℕ) :
    wrap 16 (if wire.fragLengthMax < remaining then wire.fragLengthMax else remaining)
      = min wire.fragLengthMax remaining := by
  have hle := wire.le
  have hmin : (if wire.fragLengthMax < remaining then wire.fragLengthMax else remaining)
      = min wire.fragLengthMax remaining := by
    split <;> omega
  rw [hmin, wrap_of_lt (by omega)]

/-- The headers of the fragments, from the fragment `i` on. -/
def fragHeaders (max : ℕ) (header : ℕ → ℕ → MediumHeader) : (n i remaining : ℕ) → List MediumHeader
  | 0, _, _ => []
  | n + 1, i, remaining =>
      header i (min max remaining) :: fragHeaders max header n (i + 1) (remaining - min max remaining)

theorem length_fragHeaders (max : ℕ) (header : ℕ → ℕ → MediumHeader) (n i remaining : ℕ) :
    (fragHeaders max header n i remaining).length = n := by
  induction n generalizing i remaining with
  | zero => rfl
  | succ n ih => exact congrArg Nat.succ (ih _ _)

/-- A fragment has as many bytes as its header was filled with, at least one and not too many. -/
def MediumvaFrag.Filled (max : ℕ) (header : ℕ → ℕ → MediumHeader) (frag : MediumvaFrag) : Prop :=
  0 < frag.data.length ∧ frag.data.length ≤ max ∧ ∃ i, frag.header = header i frag.data.length

/-- The fragments are the rest of the message, one after the other. -/
theorem vaLoop_eq (wire : WireConfig) (hlen : ∀ useg ∈ usegs, useg.len < 2 ^ 32)
    (header : ℕ → ℕ → MediumHeader) {n i : ℕ} (h : c.At usegs rest)
    (hn : (rest.length + wire.fragLengthMax - 1) / wire.fragLengthMax = n) :
    ∃ frags c', vaLoop usegs beyond wire.fragLengthMax header n i rest.length c = some (frags, c') ∧
      c'.At usegs [] ∧ (frags.map MediumvaFrag.data).flatten = rest ∧
      (∀ frag ∈ frags, frag.Filled wire.fragLengthMax header) ∧
      frags.map MediumvaFrag.header = fragHeaders wire.fragLengthMax header n i rest.length := by
  have hmax : 0 < wire.fragLengthMax := Nat.lt_of_succ_lt wire.one_lt
  induction n generalizing i c rest with
  | zero =>
      have hlt := Nat.lt_of_div_eq_zero hmax hn
      obtain rfl : rest = [] := List.length_eq_zero_iff.1 (by omega)
      exact ⟨[], c, rfl, h, rfl, nofun, rfl⟩
  | succ n ih =>
      obtain ⟨hpos, hnext⟩ := fragsNr_succ hmax hn
      have hmin := Nat.min_le_right wire.fragLengthMax rest.length
      obtain ⟨c', hcopy, hat⟩ := @copyFrag_eq _ beyond _ _ hlen _ _ h hmin
        (Nat.add_le_add_left (Nat.sub_le _ _) _)
      have hdrop : (rest.drop (min wire.fragLengthMax rest.length)).length
          = rest.length - min wire.fragLengthMax rest.length := List.length_drop
      rw [← hdrop] at hnext
      obtain ⟨frags, c'', hloop, hend, hdata, hfilled, hheaders⟩ := @ih _ _ (i + 1) hat hnext
      have htake : (rest.take (min wire.fragLengthMax rest.length)).length
          = min wire.fragLengthMax rest.length := List.length_take_of_le hmin
      rw [hdrop] at hloop hheaders
      refine ⟨⟨header i (min wire.fragLengthMax rest.length), rest.take
        (min wire.fragLengthMax rest.length)⟩ :: frags, c'', ?_, hend, ?_, ?_, ?_⟩
      · rw [vaLoop, fragLength_eq]
        dsimp only
        rw [hcopy, Option.bind_some]
        dsimp only
        rw [hloop]
        rfl
      · rw [List.map_cons, List.flatten_cons, hdata, List.take_append_drop]
      · intro frag hfrag
        obtain rfl | hfrag := List.mem_cons.1 hfrag
        · exact ⟨by rw [htake]; omega, by rw [htake]; exact Nat.min_le_left _ _, i, by rw [htake]⟩
        · exact hfilled frag hfrag
      · rw [List.map_cons, hheaders, fragHeaders]

/-! ## Headers -/

/-- Headers that agree where a condition holds, agree for a message if it holds of each fragment. -/
theorem fragHeaders_eq_iff {max : ℕ} {header header' : ℕ → ℕ → MediumHeader} {P : ℕ → Prop}
    (hiff : ∀ i fragLength, header i fragLength = header' i fragLength ↔ P i) (n i remaining : ℕ) :
    fragHeaders max header n i remaining = fragHeaders max header' n i remaining ↔
      ∀ j < n, P (i + j) := by
  induction n generalizing i remaining with
  | zero => exact iff_of_true rfl nofun
  | succ n ih =>
      rw [fragHeaders, fragHeaders, List.cons.injEq, hiff, ih]
      constructor
      · rintro ⟨hfirst, hrest⟩ (_ | j) hj
        · exact hfirst
        · rw [Nat.add_comm j, ← Nat.add_assoc]
          exact hrest j (by omega)
      · refine fun hall => ⟨hall 0 (Nat.succ_pos n), fun j hj => ?_⟩
        rw [Nat.add_assoc, Nat.add_comm 1]
        exact hall (j + 1) (by omega)

/-- The headers of the fragments that the library posts. -/
theorem map_mediumsqHeader {cfg : SendqConfig} (wire : WireConfig) (ep : Endpoint cfg π)
    (req : MediumSend) (n i remaining : ℕ) :
    (mediumsqLoop cfg wire req n i remaining).map (mediumsqHeader wire.compat ep)
      = fragHeaders wire.fragLengthMax (fun i fragLength =>
          mediumsqHeader wire.compat ep (mediumsqCmd cfg wire req i fragLength)) n i remaining := by
  induction n generalizing i remaining with
  | zero => rfl
  | succ n ih =>
      have hmin : (if wire.fragLengthMax < remaining then wire.fragLengthMax else remaining)
          = min wire.fragLengthMax remaining := by
        split <;> omega
      rw [mediumsqLoop, hmin, List.map_cons, ih, fragHeaders]

/-- Every field is the same, but that nobody fills the checksum. -/
theorem mediumvaHeader_eq_iff {cfg : SendqConfig} (wire : WireConfig) (ep : Endpoint cfg π)
    (req : MediumSend) (i fragLength stale : ℕ) :
    mediumvaHeader wire ep (mediumvaCmd req) i fragLength stale
        = mediumsqHeader wire.compat ep (mediumsqCmd cfg wire req i fragLength) ↔
      wrap 16 stale = wrap 16 req.checksum := by
  have hwrap (w x : ℕ) : wrap w (wrap w x) = wrap w x := Nat.mod_mod x _
  unfold mediumvaHeader mediumsqHeader mediumvaCmd mediumsqCmd
  cases wire.compat <;> simp [hwrap]

/-! ## Messages -/

/-- A medium message that fits in the packets of a wire, and has the bytes of its segments. -/
structure MediumSend.Sendable (wire : WireConfig) (req : MediumSend) : Prop where
  network : req.shared = false
  bytes : (req.segs.map UserSegment.len).sum = req.msgLength
  length : req.msgLength < 2 ^ 32
  compat : wire.compat = true → req.msgLength ≤ mxMediumMsgLengthMax

/-- The last segment is empty, the number of fragments does not wrap in the library, and the checksum
of the message is what was in the memory of each packet before. -/
def MediumSend.Agrees (wire : WireConfig) (req : MediumSend) (stale : ℕ → ℕ) : Prop :=
  (∃ useg ∈ req.segs.getLast?, useg.len = 0) ∧
    req.msgLength + wire.fragLengthMax - 1 < 2 ^ 32 ∧
    ∀ i < fragsNr wire req.msgLength, wrap 16 (stale i) = wrap 16 req.checksum

/-- The fragments of a message tile it.  They have the headers of those that would be sent through
the send queue, and no segment past the last is looked at, exactly when the message agrees. -/
theorem sendMediumva_iff {cfg : SendqConfig} (wire : WireConfig) (ep : Endpoint cfg π)
    {req : MediumSend} (hreq : req.Sendable wire) (stale : ℕ → ℕ) (beyond : ℕ → UserSegment) :
    ∃ frags c, sendMediumva wire ep (mediumvaCmd req) stale beyond = some (.sent frags c) ∧
      (frags.map MediumvaFrag.data).flatten = req.segs.flatMap addresses ∧
      (∀ frag ∈ frags, 0 < frag.data.length ∧ frag.data.length ≤ wire.fragLengthMax ∧
        frag.header.fragLength = frag.data.length) ∧
      (frags.map MediumvaFrag.header
          = (mediumsqCmds cfg wire req).map (mediumsqHeader wire.compat ep) ∧
        c.curUseg < req.segs.length ↔ req.Agrees wire stale) := by
  obtain ⟨hshared, hbytes, hlength, hcompat⟩ := hreq
  have hmax := wire.one_lt
  have hle := wire.le
  have hlen : ∀ useg ∈ req.segs, useg.len < 2 ^ 32 := fun useg hmem =>
    (List.single_le_sum (fun _ _ => Nat.zero_le _) _ (List.mem_map_of_mem hmem)).trans_lt
      (hbytes.trans_lt hlength)
  have hall : (req.segs.flatMap addresses).length = req.msgLength :=
    (length_flatMap_addresses _).trans hbytes
  -- the cursor starts at the first segment, if there is one
  have hstart : (enterUseg req.segs beyond 0).At req.segs (req.segs.flatMap addresses) := by
    rcases Nat.eq_zero_or_pos req.segs.length with hnil | hpos
    · rw [List.length_eq_zero_iff.1 hnil]
      exact .past rfl nofun
    · exact enterUseg_at hlen (List.getElem?_eq_getElem hpos)
  have hwrap : wrap 64 (req.msgLength + wire.fragLengthMax - 1)
      = req.msgLength + wire.fragLengthMax - 1 := wrap_of_lt (by omega)
  set header := fun i fragLength => mediumvaHeader wire ep (mediumvaCmd req) i fragLength (stale i)
    with hheader
  obtain ⟨frags, c, hloop, hend, hdata, hfilled, hheaders⟩ :=
    @vaLoop_eq _ beyond _ _ wire hlen header _ 0 hstart rfl
  rw [hall] at hloop hheaders
  refine ⟨frags, c, ?_, hdata, fun frag hfrag => ?_, ?_⟩
  · rw [sendMediumva, if_neg fun h => (hcompat h.1).not_gt h.2,
      if_neg (by simp [mediumvaCmd, hshared])]
    simp only [mediumvaCmd, hbytes, wrap_of_lt hlength, hwrap]
    rw [if_neg (not_not.2 rfl)]
    exact congrArg _ hloop
  · obtain ⟨hpos, hshort, i, hi⟩ := hfilled frag hfrag
    refine ⟨hpos, hshort, ?_⟩
    rw [hi]
    exact wrap_of_lt (by omega)
  · rw [MediumSend.Agrees, ← hend.lt_iff, and_comm]
    refine and_congr_right fun _ => ?_
    rw [hheaders, mediumsqCmds, map_mediumsqHeader]
    rcases Nat.lt_or_ge (req.msgLength + wire.fragLengthMax - 1) (2 ^ 32) with hfits | hwraps
    · have hnr : fragsNr wire req.msgLength
          = (req.msgLength + wire.fragLengthMax - 1) / wire.fragLengthMax := by
        rw [fragsNr, wrap_of_lt hfits]
      rw [← hnr, fragHeaders_eq_iff fun i fragLength =>
        mediumvaHeader_eq_iff wire ep req i fragLength (stale i)]
      simp only [Nat.zero_add]
      exact (and_iff_right hfits).symm
    · -- the library sends nothing
      refine iff_of_false (fun heq => ?_) fun h => h.1.not_ge hwraps
      have hnr := congrArg List.length heq
      rw [length_fragHeaders, length_fragHeaders, fragsNr, wrap] at hnr
      have hsmall : (req.msgLength + wire.fragLengthMax - 1) % 2 ^ 32 < wire.fragLengthMax := by omega
      rw [Nat.div_eq_of_lt hsmall] at hnr
      have hlt := Nat.lt_of_div_eq_zero (by omega) hnr
      omega

/-- Fragments of 8192 bytes. -/
def jumboWire : WireConfig where
  compat := false
  fragLengthMax := 8192
  fragLengthShift := 13
  one_lt := by decide
  le := by decide

/-- A message with these segments. -/
def jumboMessage (msgLength checksum : ℕ) (segs : List UserSegment) : MediumSend where
  peerIndex := 1
  endpointIndex := 2
  shared := false
  trueSessionId := 17
  sendSeqnum := 16385
  ackUpto := 16386
  matchInfo := 5
  msgLength := msgLength
  checksum := checksum
  segs := segs
  sendqMapIndex := id

/-- Two fragments of four segments, two of them empty. -/
theorem sendMediumva_iff_fourSegments :
    ∃ frags c, sendMediumva jumboWire (jumboEndpoint false)
        (mediumvaCmd (jumboMessage 13000 0 [⟨4096, 10000⟩, ⟨100, 0⟩, ⟨20000, 3000⟩, ⟨200, 0⟩]))
        (fun _ => 0) (fun _ => ⟨0, 0⟩) = some (.sent frags c) ∧
      c.curUseg < 4 := by
  have hreq : (jumboMessage 13000 0 [⟨4096, 10000⟩, ⟨100, 0⟩, ⟨20000, 3000⟩, ⟨200, 0⟩]).Sendable
      jumboWire := ⟨rfl, rfl, by decide, nofun⟩
  obtain ⟨frags, c, hsend, -, -, hiff⟩ := sendMediumva_iff jumboWire (jumboEndpoint false)
    hreq (fun _ => 0) fun _ => ⟨0, 0⟩
  exact ⟨frags, c, hsend, (hiff.2 ⟨⟨_, rfl, rfl⟩, by decide, fun _ _ => rfl⟩).2⟩

/-- A message in one segment: the checksum is not sent, and the segment after the last is read. -/
theorem sendMediumva_past :
    ∃ frags c, sendMediumva jumboWire (jumboEndpoint false)
        (mediumvaCmd (jumboMessage 10 48879 [⟨4096, 10⟩])) (fun _ => 0) (fun _ => ⟨0, 0⟩)
        = some (.sent frags c) ∧
      frags.map (fun frag => frag.header.checksum) = [0] ∧
      (mediumsqCmds jumboConfig jumboWire (jumboMessage 10 48879 [⟨4096, 10⟩])).map
        (fun cmd => (mediumsqHeader false (jumboEndpoint false) cmd).checksum) = [48879] ∧
      c.curUseg = 1 :=
  ⟨_, _, rfl, rfl, rfl, rfl⟩

end Xen2mx.Medium
