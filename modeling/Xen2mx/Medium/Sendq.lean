/-
# `Xen2mx.Medium.Sendq` — fragments from the send queue

A fragment of a medium message is sent from where the library put it in the send queue.  The packet
has the bytes after its header, or pages of the queue attached to it; the queue of a guest is known
to the backend by its pages only.

    native, linear    one copy from the queue
    native, paged     a page of the queue is attached for each chunk
    guest, linear     a chunk is copied from each page
    guest, paged      as the native one

A chunk is a page long if so much remains, wherever it starts in its page.  It goes over the end of
the page if it starts after the start of one and does not end there.  The copies from a guest all go
to the start of the data.  And the end of the fragment is not compared with the end of the queue.

Memory for the packet, and the peer, are there: otherwise the command ends with an error.

**Proved here.**

    what the chunks are, and when none goes over the end of a page    (`sendqChunks_eq_ok`)
    the bytes of the fragment are sent, and no others are read
        ⟺  it ends in the queue, and where pages are used it starts a page or stays in one, and is
            no longer than one if it is copied from a guest           (`sendMediumsqFrag_iff`)
    a fragment from the middle of a page is sent with other bytes     (`sendMediumsqFrag_pastPage`)
-/
import Xen2mx.Lib.Buffers
import Xen2mx.Lib.Faults
import Xen2mx.Lib.Pages
import Xen2mx.Lib.Word

namespace Xen2mx.Medium

open Pages Word

variable {π : Type*}

/-! ## The send queue -/

/-- How the queue is laid out, and the parameters of the module.  Its size, and a page more, is a
`uint32_t`. -/
structure SendqConfig where
  pageShift : ℕ
  sendqEntryShift : ℕ
  sendqEntryNr : ℕ
  skbFrags : ℕ
  skbCopyMax : ℕ
  fits : sendqEntryNr * 2 ^ sendqEntryShift + 2 ^ pageShift ≤ 2 ^ 32

namespace SendqConfig

/-- `PAGE_SIZE`. -/
def pageSize (cfg : SendqConfig) : ℕ := 2 ^ cfg.pageShift

/-- `OMX_SENDQ_ENTRY_SIZE`. -/
def sendqEntrySize (cfg : SendqConfig) : ℕ := 2 ^ cfg.sendqEntryShift

/-- `OMX_SENDQ_SIZE`. -/
def sendqSize (cfg : SendqConfig) : ℕ := cfg.sendqEntryNr * cfg.sendqEntrySize

theorem pageSize_pos (cfg : SendqConfig) : 0 < cfg.pageSize := Nat.two_pow_pos _

end SendqConfig

/-- Pages of 4096 bytes, and the entries for frames of 9000 bytes. -/
def jumboConfig : SendqConfig where
  pageShift := 12
  sendqEntryShift := 13
  sendqEntryNr := 1024
  skbFrags := 17
  skbCopyMax := 0
  fits := by decide

/-- `endpoint->sendq_pages` or `endpoint->xen_sendq_pages`: the pages that the queue is in. -/
structure Sendq (cfg : SendqConfig) (π : Type*) where
  pages : List π
  /-- The driver allocates so many pages, and the frontend grants them.  The backend maps as many as
  `sendq_gref_size` of the guest says, and compares that with nothing. -/
  size_eq : pages.length * cfg.pageSize = cfg.sendqSize

/-- What the functions look at in an endpoint. -/
structure Endpoint (cfg : SendqConfig) (π : Type*) where
  endpointIndex : ℕ
  devAddr : ℕ
  xen : Bool
  sendq : Sendq cfg π

/-! ## Packets -/

/-- The header of a fragment: `struct omx_pkt_medium_frag`, and what is filled of the head.
`fragPipeline` is a field only if the packets are those of MX. -/
structure MediumHeader where
  hSource : ℕ
  dstPeer : ℕ
  srcEndpoint : ℕ
  dstEndpoint : ℕ
  length : ℕ
  fragPipeline : Option ℕ
  libSeqnum : ℕ
  libPiggyack : ℕ
  session : ℕ
  matchInfo : ℕ
  fragLength : ℕ
  fragSeqnum : ℕ
  checksum : ℕ
  deriving DecidableEq

/-- `struct omx_cmd_send_mediumsq_frag`. -/
structure CmdSendMediumsqFrag where
  peerIndex : ℕ
  destEndpoint : ℕ
  shared : Bool
  sessionId : ℕ
  seqnum : ℕ
  piggyack : ℕ
  sendqOffset : ℕ
  checksum : ℕ
  msgLength : ℕ
  fragLength : ℕ
  fragSeqnum : ℕ
  fragPipeline : ℕ
  matchInfo : ℕ
  deriving DecidableEq

/-- A fragment that is sent.  Of a byte of its data it is known where it comes from, unless it was
in the memory of the packet before. -/
structure MediumsqSent (π : Type*) where
  header : MediumHeader
  data : List (Option (π × ℕ))
  /-- whether the event that it is done waits for the packet to be sent -/
  deferred : Bool
  evtSendqOffset : ℕ

/-- What becomes of a command. -/
inductive MediumsqResult (π : Type*) where
  | einval
  /-- `omx_shared_send_mediumsq_frag` -/
  | shared
  | sent (s : MediumsqSent π)

/-- Where the code reads outside of the queue: at a page past the last, past the end of a page, or
past the end of the queue. -/
inductive Fault where
  | noPage
  | pastPage
  | pastQueue
  deriving DecidableEq

/-- `sizeof(struct omx_pkt_head) + sizeof(struct omx_pkt_medium_frag)`. -/
def hdrLen : ℕ := 16 + 32

/-- `ETH_ZLEN`. -/
def ethZlen : ℕ := 60

/-- The fields of the header, in the order in which they are filled.  `compat` is
`OMX_MX_WIRE_COMPAT`. -/
def mediumsqHeader {cfg : SendqConfig} (compat : Bool) (ep : Endpoint cfg π)
    (cmd : CmdSendMediumsqFrag) : MediumHeader where
  dstPeer := cmd.peerIndex
  hSource := ep.devAddr
  srcEndpoint := wrap 8 ep.endpointIndex
  dstEndpoint := wrap 8 cmd.destEndpoint
  length := wrap (if compat then 16 else 32) cmd.msgLength
  fragPipeline := if compat then some (wrap 8 cmd.fragPipeline) else none
  libSeqnum := wrap 16 cmd.seqnum
  libPiggyack := wrap 16 cmd.piggyack
  session := wrap 32 cmd.sessionId
  matchInfo := wrap 64 cmd.matchInfo
  fragLength := wrap 16 cmd.fragLength
  fragSeqnum := wrap 8 cmd.fragSeqnum
  checksum := wrap 16 cmd.checksum

/-! ## Data -/

/-- The chunks of `while (remaining)`, with the pages that they are in. -/
def sendqChunks (P : ℕ) (pages : List π) :
    (fuel remaining currentSendqOffset : ℕ) → Except Fault (List (Piece π))
  | 0, _, _ => .ok []
  | fuel + 1, remaining, currentSendqOffset =>
      if remaining = 0 then .ok []
      else
        let chunk := if P < remaining then P else remaining
        match pages[currentSendqOffset / P]? with
        | none => .error .noPage
        | some page =>
            check (currentSendqOffset % P + chunk ≤ P) .pastPage
              ((sendqChunks P pages fuel (remaining - chunk)
                (wrap 32 (currentSendqOffset + chunk))).bind fun rest =>
                  .ok (⟨page, currentSendqOffset % P, chunk⟩ :: rest))

/-- The data of a linear packet: `len` bytes of memory. -/
def newSkb (π : Type*) (len : ℕ) : List (Option (π × ℕ)) := List.replicate len none

/-- "attach the sendq page": the data is what is in the fragments of the packet. -/
def attachPages (P : ℕ) (pages : List π) (sendqOffset fragLength : ℕ) :
    Except Fault (List (Option (π × ℕ))) :=
  (sendqChunks P pages fragLength fragLength sendqOffset).bind fun pieces =>
    .ok ((pieces.flatMap Piece.bytes).map some)

/-- "copy the data in the linear skb". -/
def copySendq (P : ℕ) (pages : List π) (sendqOffset fragLength : ℕ) :
    Except Fault (List (Option (π × ℕ))) :=
  check (sendqOffset + fragLength ≤ pages.length * P) .pastQueue
    (.ok (splice 0 ((bytes P sendqOffset fragLength pages).map some) (newSkb π fragLength)))

/-- The copies from the pages of a guest: `data` stays where it is. -/
def copyXenSendq (P : ℕ) (pages : List π) (sendqOffset fragLength : ℕ) :
    Except Fault (List (Option (π × ℕ))) :=
  (sendqChunks P pages fragLength fragLength sendqOffset).bind fun pieces =>
    .ok (pieces.foldl (fun data piece => splice 0 (piece.bytes.map some) data) (newSkb π fragLength))

/-! ## Commands -/

/-- "use skb with frags". -/
def UsesFrags (cfg : SendqConfig) (fragLength : ℕ) : Prop :=
  cfg.skbCopyMax < fragLength ∧ ethZlen ≤ hdrLen + fragLength ∧
    fragLength / 2 ^ cfg.sendqEntryShift ≤ cfg.skbFrags

instance (cfg : SendqConfig) (fragLength : ℕ) : Decidable (UsesFrags cfg fragLength) :=
  inferInstanceAs (Decidable (_ ∧ _ ∧ _))

/-- `omx_ioctl_send_mediumsq_frag`. -/
def sendMediumsqFrag (cfg : SendqConfig) (compat : Bool) (ep : Endpoint cfg π)
    (cmd : CmdSendMediumsqFrag) : Except Fault (MediumsqResult π) :=
  let pages := ep.sendq.pages
  let fragLength := cmd.fragLength
  let sendqOffset := cmd.sendqOffset
  if cfg.sendqEntrySize < fragLength then .ok .einval
  else if cfg.sendqSize ≤ sendqOffset then .ok .einval
  else if cmd.shared then .ok .shared
  else
    let deferred := decide (UsesFrags cfg fragLength)
    let data :=
      if deferred then attachPages cfg.pageSize pages sendqOffset fragLength
      else if ep.xen then copyXenSendq cfg.pageSize pages sendqOffset fragLength
      else copySendq cfg.pageSize pages sendqOffset fragLength
    data.bind fun data =>
      .ok (.sent ⟨mediumsqHeader compat ep cmd, data, deferred, sendqOffset⟩)

/-! ## Chunks -/

section Chunks

variable {P : ℕ} {pages : List π} {fuel remaining cur : ℕ} {pieces : List (Piece π)}

/-- A chunk is no longer than a page. -/
theorem chunk_eq (P remaining : ℕ) : (if P < remaining then P else remaining) = min remaining P := by
  split <;> omega

/-- What the loop does while something remains. -/
theorem sendqChunks_succ (h : 0 < remaining) (fuel cur : ℕ) :
    sendqChunks P pages (fuel + 1) remaining cur =
      match pages[cur / P]? with
      | none => .error .noPage
      | some page => check (cur % P + min remaining P ≤ P) .pastPage
          ((sendqChunks P pages fuel (remaining - min remaining P)
            (wrap 32 (cur + min remaining P))).bind fun rest =>
              .ok (⟨page, cur % P, min remaining P⟩ :: rest)) := by
  rw [sendqChunks, if_neg h.ne']
  simp only [chunk_eq]

/-- A chunk that goes over the end of its page. -/
theorem sendqChunks_pastPage {page : π} (hfuel : 0 < fuel) (hpos : 0 < remaining)
    (hpage : pages[cur / P]? = some page) (h : ¬ cur % P + min remaining P ≤ P) :
    sendqChunks P pages fuel remaining cur = .error .pastPage := by
  obtain ⟨fuel, rfl⟩ := Nat.exists_eq_add_of_lt hfuel
  rw [Nat.zero_add, sendqChunks_succ hpos, hpage]
  exact if_neg h

/-- The chunks of a range that starts a page, or stays in one, are the range. -/
theorem sendqChunks_eq_ok (hP : 0 < P) (hfit : pages.length * P + P ≤ 2 ^ 32)
    (hfuel : remaining ≤ fuel) (hle : cur + remaining ≤ pages.length * P)
    (hcur : cur % P = 0 ∨ cur % P + remaining ≤ P) :
    ∃ pieces, sendqChunks P pages fuel remaining cur = .ok pieces ∧
      pieces.flatMap Piece.bytes = bytes P cur remaining pages ∧
      (remaining ≤ P → pieces = [] ∨ ∃ piece, pieces = [piece]) := by
  induction fuel generalizing remaining cur with
  | zero =>
      obtain rfl : remaining = 0 := by omega
      exact ⟨[], rfl, rfl, fun _ => .inl rfl⟩
  | succ fuel ih =>
      rcases Nat.eq_zero_or_pos remaining with rfl | hpos
      · exact ⟨[], by rw [sendqChunks, if_pos rfl], rfl, fun _ => .inl rfl⟩
      · obtain ⟨page, hpage⟩ := exists_page hle hpos
        rw [Nat.add_zero] at hpage
        have hin : cur % P + min remaining P ≤ P := by omega
        have hnext : (cur + min remaining P) % P = 0 ∨
            (cur + min remaining P) % P + (remaining - min remaining P) ≤ P := by
          rcases Nat.lt_or_ge P remaining with hlt | hge
          · rw [Nat.min_eq_right hlt.le] at hin ⊢
            exact .inl (next_page hP (by omega)).2
          · rw [Nat.min_eq_left hge, Nat.sub_self, Nat.add_zero]
            exact .inr (Nat.mod_lt _ hP).le
        obtain ⟨rest, hrest, hbytes, -⟩ := @ih (remaining - min remaining P)
          (cur + min remaining P) (by omega) (by omega) hnext
        rw [sendqChunks_succ hpos, hpage, wrap_of_lt (by omega)]
        refine ⟨⟨page, cur % P, min remaining P⟩ :: rest, ?_, ?_, ?_⟩
        · dsimp only
          rw [check_pos hin, hrest, ok_bind]
        · have hpiece : ((bytes P cur (min remaining P) pages).drop 0).take (min remaining P)
              = Piece.bytes ⟨page, (cur + 0) % P, min remaining P⟩ :=
            take_drop_bytes hP hpage hin (Nat.zero_add _).le
          have hall : ((bytes P cur (min remaining P) pages).drop 0).take (min remaining P)
              = bytes P cur (min remaining P) pages := by
            rw [List.drop_zero, bytes, List.take_take, Nat.min_self]
          rw [List.flatMap_cons, hbytes, ← Nat.add_zero cur, ← hpiece, Nat.add_zero, hall,
            ← bytes_add, Nat.add_sub_cancel' (Nat.min_le_left _ _)]
        · intro hone
          rw [Nat.min_eq_left hone, Nat.sub_self] at hrest
          have hnil : rest = [] := by
            cases fuel with
            | zero => exact (Except.ok.inj hrest).symm
            | succ fuel =>
                rw [sendqChunks, if_pos rfl] at hrest
                exact (Except.ok.inj hrest).symm
          exact .inr ⟨_, congrArg _ hnil⟩

/-- Chunks that stay in the pages of the queue are such a range, and none is longer than a page. -/
theorem sendqChunks_fits (hP : 0 < P) (hfit : pages.length * P + P ≤ 2 ^ 32)
    (hfuel : remaining ≤ fuel) (h : sendqChunks P pages fuel remaining cur = .ok pieces) :
    (remaining = 0 ∨ cur + remaining ≤ pages.length * P ∧
      (cur % P = 0 ∨ cur % P + remaining ≤ P)) ∧ ∀ piece ∈ pieces, piece.length ≤ P := by
  induction fuel generalizing remaining cur pieces with
  | zero =>
      cases h
      exact ⟨.inl (by omega), nofun⟩
  | succ fuel ih =>
      rcases Nat.eq_zero_or_pos remaining with rfl | hpos
      · rw [sendqChunks, if_pos rfl] at h
        cases h
        exact ⟨.inl rfl, nofun⟩
      · rw [sendqChunks_succ hpos] at h
        cases hpage : pages[cur / P]? with
        | none => simp [hpage] at h
        | some page =>
            simp only [hpage, check_eq_ok, bind_eq_ok] at h
            obtain ⟨hin, rest, hrest, hpieces⟩ := h
            cases hpieces
            have hindex : cur / P + 1 ≤ pages.length := (List.getElem?_eq_some_iff.1 hpage).1
            have hend : (cur / P + 1) * P ≤ pages.length * P := Nat.mul_le_mul_right P hindex
            have hcur := Nat.div_add_mod cur P
            rw [Nat.add_mul, Nat.one_mul, Nat.mul_comm] at hend
            rw [wrap_of_lt (by omega)] at hrest
            obtain ⟨hnext, hshort⟩ := ih (by omega) hrest
            refine ⟨.inr ?_, fun piece hpiece => ?_⟩
            · rcases Nat.lt_or_ge P remaining with hlt | hge
              · rw [Nat.min_eq_right hlt.le] at hin hnext
                exact ⟨by omega, .inl (by omega)⟩
              · rw [Nat.min_eq_left hge] at hin
                exact ⟨by omega, .inr hin⟩
            · obtain rfl | hpiece := List.mem_cons.1 hpiece
              · exact Nat.min_le_right _ _
              · exact hshort piece hpiece

/-! ## Data -/

variable {sendqOffset fragLength : ℕ} {data : List (Option (π × ℕ))}

/-- Pages carry the fragment if it starts a page or stays in one. -/
theorem attachPages_iff (hP : 0 < P) (hfit : pages.length * P + P ≤ 2 ^ 32)
    (hoff : sendqOffset < pages.length * P) :
    attachPages P pages sendqOffset fragLength
        = .ok ((bytes P sendqOffset fragLength pages).map some) ↔
      sendqOffset + fragLength ≤ pages.length * P ∧
        (sendqOffset % P = 0 ∨ sendqOffset % P + fragLength ≤ P) := by
  constructor
  · intro h
    obtain ⟨pieces, hpieces, -⟩ := bind_eq_ok.1 h
    obtain ⟨rfl | hin, -⟩ := sendqChunks_fits hP hfit le_rfl hpieces
    · exact ⟨hoff.le, .inr (Nat.mod_lt _ hP).le⟩
    · exact hin
  · rintro ⟨hle, hin⟩
    obtain ⟨pieces, hpieces, hbytes, -⟩ := sendqChunks_eq_ok hP hfit le_rfl hle hin
    rw [attachPages, hpieces, ok_bind, hbytes]

/-- One copy does if the fragment ends in the queue. -/
theorem copySendq_iff :
    copySendq P pages sendqOffset fragLength = .ok ((bytes P sendqOffset fragLength pages).map some)
      ↔ sendqOffset + fragLength ≤ pages.length * P := by
  rw [copySendq, check_eq_ok, and_iff_left_iff_imp]
  intro hle
  rw [splice_zero_of_length_eq]
  rw [List.length_map, length_bytes hle, newSkb, List.length_replicate]

/-- Copies to the start that are no longer than a page leave what is after a page as it is. -/
theorem foldl_splice_getElem? (hshort : ∀ piece ∈ pieces, piece.length ≤ P) :
    (pieces.foldl (fun data piece => splice 0 (piece.bytes.map some) data) data)[P]? = data[P]? := by
  induction pieces generalizing data with
  | nil => rfl
  | cons piece pieces ih =>
      have hle := hshort piece List.mem_cons_self
      rw [List.foldl_cons, ih fun p hp => hshort p (List.mem_cons_of_mem _ hp),
        getElem?_splice (Nat.zero_le _), if_neg (Nat.not_lt_zero _), List.length_map,
        Piece.length_bytes, if_neg (by omega)]

/-- The copies from a guest do if there is one. -/
theorem copyXenSendq_iff (hP : 0 < P) (hfit : pages.length * P + P ≤ 2 ^ 32)
    (hoff : sendqOffset < pages.length * P) :
    copyXenSendq P pages sendqOffset fragLength
        = .ok ((bytes P sendqOffset fragLength pages).map some) ↔
      sendqOffset + fragLength ≤ pages.length * P ∧
        (sendqOffset % P = 0 ∨ sendqOffset % P + fragLength ≤ P) ∧ fragLength ≤ P := by
  constructor
  · intro h
    obtain ⟨pieces, hpieces, hdata⟩ := bind_eq_ok.1 h
    obtain ⟨rfl | ⟨hle, hin⟩, hshort⟩ := sendqChunks_fits hP hfit le_rfl hpieces
    · exact ⟨hoff.le, .inr (Nat.mod_lt _ hP).le, Nat.zero_le _⟩
    · refine ⟨hle, hin, Nat.le_of_not_lt fun hlt => ?_⟩
      -- the byte after a page is not written
      have hbyte := @foldl_splice_getElem? _ _ _ (newSkb π fragLength) hshort
      obtain ⟨page, hpage⟩ := exists_page hle hlt
      rw [Except.ok.inj hdata, List.getElem?_map, getElem?_bytes hP hlt, hpage, newSkb,
        List.getElem?_replicate_of_lt hlt] at hbyte
      cases hbyte
  · rintro ⟨hle, hin, hone⟩
    obtain ⟨pieces, hpieces, hbytes, hsingle⟩ := sendqChunks_eq_ok hP hfit le_rfl hle hin
    have hlen := length_bytes hle
    rw [copyXenSendq, hpieces, ok_bind]
    obtain rfl | ⟨piece, rfl⟩ := hsingle hone
    · rw [← hbytes] at hlen ⊢
      obtain rfl : fragLength = 0 := hlen.symm
      rfl
    · have hpiece : piece.bytes = bytes P sendqOffset fragLength pages := by
        rw [← hbytes, List.flatMap_singleton]
      rw [List.foldl_cons, List.foldl_nil, hpiece, splice_zero_of_length_eq]
      rw [List.length_map, hlen, newSkb, List.length_replicate]

end Chunks

/-! ## Fragments -/

/-- The fragment ends in the queue.  Where pages are used it starts a page or stays in one, and it is
no longer than a page if it is copied from a guest. -/
def CmdSendMediumsqFrag.Fits (cfg : SendqConfig) (xen : Bool) (cmd : CmdSendMediumsqFrag) : Prop :=
  cmd.sendqOffset + cmd.fragLength ≤ cfg.sendqSize ∧
    (UsesFrags cfg cmd.fragLength ∨ xen = true →
      cmd.sendqOffset % cfg.pageSize = 0 ∨
        cmd.sendqOffset % cfg.pageSize + cmd.fragLength ≤ cfg.pageSize) ∧
    (¬ UsesFrags cfg cmd.fragLength ∧ xen = true → cmd.fragLength ≤ cfg.pageSize)

/-- Exactly the bytes of the fragment are sent, in order, and nothing is read outside of the queue. -/
theorem sendMediumsqFrag_iff {cfg : SendqConfig} (compat : Bool) (ep : Endpoint cfg π)
    {cmd : CmdSendMediumsqFrag} (hlength : cmd.fragLength ≤ cfg.sendqEntrySize)
    (hoffset : cmd.sendqOffset < cfg.sendqSize) (hshared : cmd.shared = false) :
    (∃ s, sendMediumsqFrag cfg compat ep cmd = .ok (.sent s) ∧
        s.data.length = cmd.fragLength ∧
        s.data = (bytes cfg.pageSize cmd.sendqOffset cmd.fragLength ep.sendq.pages).map some) ↔
      cmd.Fits cfg ep.xen := by
  have hP := cfg.pageSize_pos
  have hsize := ep.sendq.size_eq
  have hfit : ep.sendq.pages.length * cfg.pageSize + cfg.pageSize ≤ 2 ^ 32 := by
    rw [hsize]
    exact cfg.fits
  rw [← hsize] at hoffset
  rw [sendMediumsqFrag, if_neg hlength.not_gt, if_neg (by rw [← hsize]; exact hoffset.not_ge)]
  simp only [hshared, Bool.false_eq_true, if_false]
  generalize hdata : (if decide (UsesFrags cfg cmd.fragLength) = true then
      attachPages cfg.pageSize ep.sendq.pages cmd.sendqOffset cmd.fragLength
    else if ep.xen = true then
      copyXenSendq cfg.pageSize ep.sendq.pages cmd.sendqOffset cmd.fragLength
    else copySendq cfg.pageSize ep.sendq.pages cmd.sendqOffset cmd.fragLength) = data
  have hdone : data = .ok ((bytes cfg.pageSize cmd.sendqOffset cmd.fragLength
      ep.sendq.pages).map some) ↔ cmd.Fits cfg ep.xen := by
    rw [← hdata, CmdSendMediumsqFrag.Fits, ← hsize]
    by_cases hfrags : UsesFrags cfg cmd.fragLength
    · simp [hfrags, attachPages_iff hP hfit hoffset]
    · by_cases hxen : ep.xen = true
      · simp [hfrags, hxen, copyXenSendq_iff hP hfit hoffset]
      · simp [hfrags, hxen, copySendq_iff]
  rw [← hdone]
  constructor
  · rintro ⟨s, hs, -, hbytes⟩
    obtain ⟨bytes', hok, hsent⟩ := bind_eq_ok.1 hs
    cases hsent
    exact hok.trans (congrArg _ hbytes)
  · intro hok
    have hle := (hdone.1 hok).1
    refine ⟨_, by rw [hok]; rfl, ?_, rfl⟩
    rw [List.length_map, length_bytes (by rw [hsize]; exact hle)]

/-- An endpoint with a queue of 2048 pages. -/
def jumboEndpoint (xen : Bool) : Endpoint jumboConfig ℕ where
  endpointIndex := 3
  devAddr := 0x001122334455
  xen := xen
  sendq := ⟨List.range 2048, by rw [List.length_range]; rfl⟩

/-- A fragment of a message of 20000 bytes. -/
def jumboFrag (sendqOffset fragLength : ℕ) : CmdSendMediumsqFrag where
  peerIndex := 1
  destEndpoint := 2
  shared := false
  sessionId := 17
  seqnum := 16385
  piggyack := 16386
  sendqOffset := sendqOffset
  checksum := 0
  msgLength := 20000
  fragLength := fragLength
  fragSeqnum := 0
  fragPipeline := 0
  matchInfo := 5

/-- A guest's fragment of two pages, attached. -/
theorem sendMediumsqFrag_iff_twoPages :
    ∃ s, sendMediumsqFrag jumboConfig false (jumboEndpoint true) (jumboFrag 16384 8192)
        = .ok (.sent s) ∧ s.data.length = (jumboFrag 16384 8192).fragLength ∧
      s.data = (bytes jumboConfig.pageSize (jumboFrag 16384 8192).sendqOffset
        (jumboFrag 16384 8192).fragLength (jumboEndpoint true).sendq.pages).map some :=
  (sendMediumsqFrag_iff false (jumboEndpoint true) (by decide) (by decide) rfl).2
    ⟨by decide, by decide, by decide⟩

/-- A fragment that starts in the middle of a page: the attached chunk goes over the end of it. -/
theorem sendMediumsqFrag_pastPage :
    sendMediumsqFrag jumboConfig false (jumboEndpoint false) (jumboFrag 2048 4096)
      = .error .pastPage := by
  have hpage : (jumboEndpoint false).sendq.pages[(jumboFrag 2048 4096).sendqOffset /
      jumboConfig.pageSize]? = some 0 := by decide +kernel
  have hattach : attachPages jumboConfig.pageSize (jumboEndpoint false).sendq.pages
      (jumboFrag 2048 4096).sendqOffset (jumboFrag 2048 4096).fragLength = .error .pastPage := by
    rw [attachPages, sendqChunks_pastPage (by decide) (by decide) hpage (by decide), error_bind]
  have hfrags : UsesFrags jumboConfig (jumboFrag 2048 4096).fragLength := by decide
  rw [sendMediumsqFrag, if_neg (by decide), if_neg (by decide), if_neg (by decide)]
  simp only [decide_eq_true hfrags, if_true, hattach, error_bind]

end Xen2mx.Medium
