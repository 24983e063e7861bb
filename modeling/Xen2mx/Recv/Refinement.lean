/-
# `Xen2mx.Recv.Refinement` — the guest's endpoint against a local one

Both ways are a mailbox: `parcel` is what a packet is to the native driver, a
message and the data that goes with it, and the backend, the ring and the
frontend together put the same parcel into the same place — for every type of
packet but one.  `omx_recv_nack_lib` has no branch for the endpoint of a guest,
and the frontend no case for its event.

**Proved here.**

    writing page by page is writing at once                      (`flat_copyLoop`)
    the library reads the parcels of the packets, in order       (`run_holds`, `Xen.run_holds`)
    the two sequences are one  ⟺  no lib nack is among them     (`xenRecv_refines_iff`)
-/
import Mathlib.Algebra.Order.Ring.Nat
import Mathlib.Data.Nat.ModEq
import Xen2mx.Recv.Xen

namespace Xen2mx.Recv

open Mailbox (Box Parcel)
open Mailbox.Layout (Holds)

variable {env : Env} {z : Recvq} {eid : ℕ}

/-! ## Parcels -/

/-- What the native driver puts for a packet. -/
def parcelOf (peerIndex : UInt16) : Packet → Parcel Event UInt8
  | .connect head { libSeqnum, data := .request srcSessionId appKey start connectSeqnum, .. } =>
      ⟨fun _ => .recvConnectRequest ⟨peerIndex, head.srcEndpoint, 0, libSeqnum, srcSessionId, appKey,
        start, connectSeqnum⟩, none⟩
  | .connect head { libSeqnum, data := .reply srcSessionId targetSessionId start connectSeqnum status, .. } =>
      ⟨fun _ => .recvConnectReply ⟨peerIndex, head.srcEndpoint, 0, libSeqnum, srcSessionId,
        targetSessionId, start, connectSeqnum, status⟩, none⟩
  | .tiny head pkt data =>
      ⟨fun _ => .recvMsg ⟨peerIndex, head.srcEndpoint, pkt.libSeqnum, pkt.libPiggyack,
        ntohMatchInfo pkt.matchA pkt.matchB,
        .tiny pkt.length.toUInt8 pkt.checksum (data.take pkt.length.toNat)⟩, none⟩
  | .small head pkt data =>
      ⟨fun off => .recvMsg ⟨peerIndex, head.srcEndpoint, pkt.libSeqnum, pkt.libPiggyack,
        ntohMatchInfo pkt.matchA pkt.matchB, .small (UInt32.ofNat off) pkt.length pkt.checksum⟩,
        some (data.take pkt.length.toNat)⟩
  | .mediumFrag head pkt data =>
      ⟨fun off => .recvMsg ⟨peerIndex, head.srcEndpoint, pkt.libSeqnum, pkt.libPiggyack,
        ntohMatchInfo pkt.matchA pkt.matchB, .mediumFrag (UInt32.ofNat off) pkt.length pkt.fragLength
          pkt.fragSeqnum pkt.fragPipeline pkt.checksum⟩,
        some (data.take pkt.fragLength.toNat)⟩
  | .rndv head pkt =>
      ⟨fun _ => .recvMsg ⟨peerIndex, head.srcEndpoint, pkt.msg.libSeqnum, pkt.msg.libPiggyack,
        ntohMatchInfo pkt.msg.matchA pkt.msg.matchB, .rndv pkt.msgLength pkt.pulledRdmaId
          pkt.pulledRdmaSeqnum pkt.pulledRdmaOffset pkt.msg.checksum⟩, none⟩
  | .notify head pkt =>
      ⟨fun _ => .recvMsg ⟨peerIndex, head.srcEndpoint, pkt.libSeqnum, pkt.libPiggyack, none,
        .notify pkt.totalLength pkt.pulledRdmaId pkt.pulledRdmaSeqnum⟩, none⟩
  | .truc head pkt =>
      ⟨fun _ => .recvLiback ⟨peerIndex, head.srcEndpoint, pkt.acknum, pkt.libSeqnum, pkt.sendSeq,
        pkt.resent⟩, none⟩
  | .nackLib head pkt =>
      ⟨fun _ => .recvNackLib ⟨peerIndex, head.srcEndpoint, pkt.nackType, pkt.libSeqnum⟩, none⟩

variable (env z) in
def parcel (pkt : Packet) : Option (Parcel Event UInt8) :=
  (accepts env z pkt).map fun peerIndex => parcelOf peerIndex pkt

theorem omxRecv_eq (ep : Endpoint) (pkt : Packet) :
    omxRecv env z ep pkt = ((parcel env z pkt).map (z.layout.put ep)).getD ep := by
  unfold omxRecv parcel
  cases accepts env z pkt with
  | none => rfl
  | some peerIndex =>
      cases pkt with
      | connect head pkt => obtain ⟨length, libSeqnum, data⟩ := pkt; cases data <;> rfl
      | tiny | small | mediumFrag | rndv | notify | truc | nackLib => rfl

theorem slot_lt (k : ℕ) : z.layout.slot k + z.entrySize ≤ 2 ^ 32 := by
  have hk := Nat.mod_lt k z.nr_pos
  calc z.layout.slot k + z.entrySize = (k % z.entryNr + 1) * z.entrySize := (Nat.succ_mul _ _).symm
    _ ≤ z.entryNr * z.entrySize := Nat.mul_le_mul_right _ hk
    _ ≤ 2 ^ 32 := z.size_le

theorem slot_toNat (k : ℕ) : (UInt32.ofNat (z.layout.slot k)).toNat = z.layout.slot k := by
  have hpos : 0 < z.entrySize := Nat.two_pow_pos z.entryShift
  have hlt := slot_lt (z := z) k
  rw [UInt32.toNat_ofNat']
  exact Nat.mod_eq_of_lt (by omega)

theorem parcel_fits {pkt : Packet} {p : Parcel Event UInt8} (h : parcel env z pkt = some p) :
    z.layout.Fits p := by
  obtain ⟨peerIndex, haccept, rfl⟩ := Option.map_eq_some_iff.1 h
  cases pkt with
  | connect head pkt => obtain ⟨length, libSeqnum, data⟩ := pkt; cases data <;> rfl
  | tiny | rndv | notify | truc | nackLib => rfl
  | small head pkt data =>
      simp only [accepts, Option.ite_none_left_eq_some, not_lt] at haccept
      obtain ⟨hle, hlen, -⟩ := haccept
      have htake : (data.take pkt.length.toNat).length = pkt.length.toNat := by
        rw [List.length_take]
        omega
      refine ⟨htake.trans_le (hle.trans z.small_le_entry), fun k => ?_⟩
      rw [htake]
      exact congrArg (fun off => some (off, _)) (slot_toNat k)
  | mediumFrag head pkt data =>
      simp only [accepts, Option.ite_none_left_eq_some, not_lt] at haccept
      obtain ⟨hle, hlen, -⟩ := haccept
      have htake : (data.take pkt.fragLength.toNat).length = pkt.fragLength.toNat := by
        rw [List.length_take]
        omega
      refine ⟨htake.trans_le hle, fun k => ?_⟩
      rw [htake]
      exact congrArg (fun off => some (off, _)) (slot_toNat k)

/-- What the library of a local endpoint reads. -/
theorem run_holds {ep ep' : Endpoint} {sent : List (Parcel Event UInt8)} {acts : List Act}
    (h : Holds z.layout ep sent) (hroom : (machine env z).Meets (HasRoom z) ep acts)
    (hrun : (machine env z).exec ep acts = some ep') :
    Holds z.layout ep' (sent ++ (acts.filterMap Act.received).filterMap (parcel env z)) := by
  induction acts generalizing ep sent with
  | nil =>
      cases hrun
      simpa using h
  | cons a acts ih =>
      obtain ⟨s, hs, hrest⟩ := (Machine.exec_cons_eq_some _).1 hrun
      cases a with
      | receive pkt =>
          cases hs
          have hroom' := hroom.2 _ rfl
          cases hp : parcel env z pkt with
          | none =>
              have heq : omxRecv env z ep pkt = ep := by rw [omxRecv_eq, hp]; rfl
              rw [heq] at hroom' hrest
              simpa [Act.received, hp] using ih h hroom' hrest
          | some p =>
              have heq : omxRecv env z ep pkt = z.layout.put ep p := by rw [omxRecv_eq, hp]; rfl
              rw [heq] at hroom' hrest
              have hput := h.put (parcel_fits hp) hroom.1
              simpa [Act.received, hp] using ih hput hroom' hrest
      | read => exact ih (h.take hs) (hroom.2 _ hs) hrest

/-! ## Pages -/

namespace Xen

open Recvring (Func)

theorem pageSize_pos (z : Recvq) : 0 < z.pageSize := Nat.two_pow_pos z.pageShift

/-- A copy that stays in its page. -/
theorem flat_copyToPage (pages : ℕ → ℕ → UInt8) (off : ℕ) (data : List UInt8)
    (hfits : off % z.pageSize + data.length ≤ z.pageSize) :
    flat z (copyToPage pages (off / z.pageSize) (off % z.pageSize) data) =
      Mailbox.write (flat z pages) off data := by
  funext a
  have hoff := Nat.div_add_mod off z.pageSize
  have ha := Nat.div_add_mod a z.pageSize
  have hmod := Nat.mod_lt a (pageSize_pos z)
  unfold flat copyToPage
  by_cases hpage : a / z.pageSize = off / z.pageSize
  · rw [hpage] at ha ⊢
    rw [Function.update_self]
    unfold Mailbox.write
    have hle : off % z.pageSize ≤ a % z.pageSize ↔ off ≤ a := by omega
    have hsub : a % z.pageSize - off % z.pageSize = a - off := by omega
    simp only [hle, hsub, hpage]
  · rw [Function.update_of_ne hpage, Mailbox.write_of_lt]
    by_contra hin
    refine hpage ?_
    have hlo : z.pageSize * (off / z.pageSize) ≤ a := by omega
    have hhi : a < z.pageSize * (off / z.pageSize) + z.pageSize := by omega
    rw [Nat.div_eq_iff (pageSize_pos z)]
    rw [Nat.mul_comm] at hlo hhi
    omega

variable {recvqOffset : ℕ} {staging : List UInt8}

/-- From the start of a page, as many pages as there are data. -/
theorem flat_copyLoop_aligned (halign : recvqOffset % z.pageSize = 0) (remaining : ℕ)
    (pages : ℕ → ℕ → UInt8) (pgidx : ℕ) (hpgidx : pgidx % z.pageSize = 0) (hle : recvqOffset ≤ pgidx)
    (hlen : pgidx - recvqOffset + remaining = staging.length) :
    flat z (copyLoop z recvqOffset staging pages pgidx remaining) =
      Mailbox.write (flat z pages) pgidx (staging.drop (pgidx - recvqOffset)) := by
  induction remaining using Nat.strong_induction_on generalizing pages pgidx with
  | _ remaining ih =>
      have hpos := pageSize_pos z
      rw [copyLoop]
      split
      · rw [List.drop_of_length_le (by omega), Mailbox.write_nil]
      · have hchunk : ((staging.drop (pgidx - recvqOffset)).take (min remaining z.pageSize)).length =
            min remaining z.pageSize := by
          rw [List.length_take, List.length_drop]
          omega
        have hcopy := flat_copyToPage (z := z) pages pgidx
          ((staging.drop (pgidx - recvqOffset)).take (min remaining z.pageSize))
          (by rw [hpgidx, hchunk]; omega)
        rw [hpgidx] at hcopy
        dsimp only
        rw [halign]
        rcases Nat.lt_or_ge z.pageSize remaining with hlt | hge
        · have hmin : min remaining z.pageSize = z.pageSize := by omega
          rw [hmin] at hcopy hchunk ⊢
          rw [ih (remaining - z.pageSize) (by omega) _ _ (by rw [Nat.add_mod_right, hpgidx])
            (by omega) (by omega), hcopy]
          have hdrop : staging.drop (pgidx + z.pageSize - recvqOffset) =
              (staging.drop (pgidx - recvqOffset)).drop z.pageSize := by
            rw [List.drop_drop]
            congr 1
            omega
          rw [hdrop]
          conv_rhs => rw [← List.take_append_drop z.pageSize (staging.drop (pgidx - recvqOffset)),
            Mailbox.write_append, hchunk]
        · have hmin : min remaining z.pageSize = remaining := by omega
          rw [hmin] at hcopy hchunk ⊢
          rw [Nat.sub_self, copyLoop, if_pos rfl, hcopy, List.take_of_length_le]
          rw [List.length_drop]
          omega

/-- Within a page, one turn. -/
theorem flat_copyLoop_within (pages : ℕ → ℕ → UInt8)
    (hfits : recvqOffset % z.pageSize + staging.length ≤ z.pageSize) :
    flat z (copyLoop z recvqOffset staging pages recvqOffset staging.length) =
      Mailbox.write (flat z pages) recvqOffset staging := by
  rw [copyLoop]
  split
  · rename_i hzero
    rw [List.length_eq_zero_iff.1 hzero, Mailbox.write_nil]
  · have hmin : min staging.length z.pageSize = staging.length := by omega
    dsimp only
    rw [hmin, Nat.sub_self, Nat.sub_self, List.drop_zero, List.take_length, copyLoop, if_pos rfl,
      flat_copyToPage pages recvqOffset staging hfits]

/-- An entry begins with a page, or lies in one. -/
theorem slot_page (k : ℕ) : z.layout.slot k % z.pageSize = 0 ∨
    z.layout.slot k % z.pageSize + z.entrySize ≤ z.pageSize := by
  show k % z.entryNr * z.entrySize % z.pageSize = 0 ∨
    k % z.entryNr * z.entrySize % z.pageSize + z.entrySize ≤ z.pageSize
  rcases Nat.le_total z.pageShift z.entryShift with hle | hle
  · left
    exact Nat.mod_eq_zero_of_dvd ((Nat.pow_dvd_pow 2 hle).mul_left _)
  · right
    obtain ⟨c, hc⟩ := Nat.pow_dvd_pow 2 hle
    have hpage : z.pageSize = c * z.entrySize := by rw [Nat.mul_comm]; exact hc
    have hcpos : 0 < c := Nat.pos_of_ne_zero fun h => by
      have hpos := pageSize_pos z
      rw [hpage, h, Nat.zero_mul] at hpos
      exact absurd hpos (lt_irrefl _)
    rw [hpage, Nat.mul_mod_mul_right, ← Nat.succ_mul]
    exact Nat.mul_le_mul_right _ (Nat.mod_lt _ hcpos)

/-- The pages of a medium fragment, in its entry. -/
theorem flat_copyLoop (pages : ℕ → ℕ → UInt8) (k : ℕ) (hlen : staging.length ≤ z.entrySize) :
    flat z (copyLoop z (z.layout.slot k) staging pages (z.layout.slot k) staging.length) =
      Mailbox.write (flat z pages) (z.layout.slot k) staging := by
  rcases slot_page (z := z) k with halign | hwithin
  · rw [flat_copyLoop_aligned halign _ _ _ halign le_rfl (by omega), Nat.sub_self, List.drop_zero]
  · exact flat_copyLoop_within pages (by omega)

/-! ## The mailbox of the guest -/

/-- The type that the backend keeps to itself. -/
def IsNackLib : Packet → Prop
  | .nackLib _ _ => True
  | _ => False

instance : DecidablePred IsNackLib := fun pkt => by
  unfold IsNackLib
  split <;> infer_instance

variable (env z) in
/-- What the backend puts for a packet. -/
def parcel (pkt : Packet) : Option (Parcel Event UInt8) :=
  if IsNackLib pkt then none else Recv.parcel env z pkt

variable (z) in
/-- The guest's endpoint as a mailbox: the ring and the queue are one. -/
structure View (ep : Endpoint) (b : Box Event UInt8) : Prop where
  next : b.next = ep.next
  mem : b.mem = flat z ep.recvqPages
  queue : (ep.queue.map some ++ ep.responses.map unexpEvent) = b.queue.map some
  log : b.log = ep.log

namespace View

variable {ep ep' : Endpoint} {b : Box Event UInt8}

theorem length_queue (h : View z ep b) : b.queue.length = ep.queue.length + ep.responses.length := by
  have hlen := congrArg List.length h.queue
  simpa using hlen.symm

/-- A response without data. -/
theorem pokeDomU (h : View z ep b) {func : Func} {data : RespData} {event : Event}
    (hevent : unexpEvent ⟨func, eid, data⟩ = some event) :
    View z (Xen.pokeDomU eid ep func data) (notifyUnexpEvent b event) := by
  refine { h with queue := ?_ }
  simp only [Xen.pokeDomU, notifyUnexpEvent, List.map_append, List.map_cons, List.map_nil, hevent,
    ← List.append_assoc, h.queue]

/-- A response whose data is in its entry. -/
theorem pokeDomU_payload (h : View z ep b) {func : Func} {data : RespData} {event : Event}
    {pages : ℕ → ℕ → UInt8} {payload : List UInt8}
    (hevent : unexpEvent ⟨func, eid, data⟩ = some event)
    (hpages : flat z pages = Mailbox.write (flat z ep.recvqPages) (z.layout.slot ep.next) payload) :
    View z (Xen.pokeDomU eid { ep with next := ep.next + 1, recvqPages := pages } func data)
      (notifyUnexpEvent (skbCopyBits (Recv.prepareNotifyUnexpEventWithRecvq z b).2
        (z.layout.slot b.next) payload) event) := by
  refine pokeDomU ?_ hevent
  exact {
    next := congrArg Nat.succ h.next
    mem := by rw [hpages, ← h.mem, ← h.next]; rfl
    queue := h.queue
    log := h.log }

theorem omxRecv (h : View z ep b) (pkt : Packet) :
    View z (Xen.omxRecv env z eid ep pkt) (((parcel env z pkt).map (z.layout.put b)).getD b) := by
  obtain ⟨next, mem, queue, log⟩ := b
  obtain rfl : next = ep.next := h.next
  unfold Xen.omxRecv parcel Recv.parcel
  cases haccept : accepts env z pkt with
  | none =>
      rw [Option.map_none, ite_self]
      exact h
  | some peerIndex =>
      cases pkt with
      | connect head pkt =>
          obtain ⟨length, libSeqnum, data⟩ := pkt
          cases data <;> exact h.pokeDomU rfl
      | tiny | rndv | notify | truc => exact h.pokeDomU rfl
      | nackLib => exact { h with }
      | small head pkt data =>
          simp only [accepts, Option.ite_none_left_eq_some, not_lt] at haccept
          obtain ⟨hle, hlen, -⟩ := haccept
          have htake : (data.take pkt.length.toNat).length = pkt.length.toNat := by
            rw [List.length_take]
            omega
          have hfits : z.layout.slot ep.next % z.pageSize + pkt.length.toNat ≤ z.pageSize := by
            have hentry : pkt.length.toNat ≤ z.entrySize := hle.trans z.small_le_entry
            have hpage : pkt.length.toNat ≤ z.pageSize := hle.trans z.small_le_page
            rcases slot_page (z := z) ep.next with halign | hwithin <;> omega
          exact h.pokeDomU_payload rfl
            (flat_copyToPage ep.recvqPages (z.layout.slot ep.next) _ (by rw [htake]; exact hfits))
      | mediumFrag head pkt data =>
          simp only [accepts, Option.ite_none_left_eq_some, not_lt] at haccept
          obtain ⟨hle, hlen, -⟩ := haccept
          have htake : (data.take pkt.fragLength.toNat).length = pkt.fragLength.toNat := by
            rw [List.length_take]
            omega
          have hpages := flat_copyLoop ep.recvqPages ep.next (htake.trans_le hle)
          rw [htake] at hpages
          exact h.pokeDomU_payload rfl hpages

/-- The frontend moves an event on. -/
theorem interruptRecv (h : View z ep b) (hs : Xen.interruptRecv ep = some ep') : View z ep' b := by
  unfold Xen.interruptRecv at hs
  split at hs <;> cases hs
  rename_i resp responses hresponses
  have hqueue := h.queue
  rw [hresponses] at hqueue
  have hmem : unexpEvent resp ∈ b.queue.map some := by
    rw [← hqueue]
    simp
  obtain ⟨event, -, hevent⟩ := List.mem_map.1 hmem
  refine { h with queue := ?_ }
  rw [← hqueue]
  simp [← hevent]

/-- The library reads the event at the head, and the data that the flat memory has. -/
theorem read (h : View z ep b) (hs : Xen.read z ep = some ep') :
    ∃ b', z.layout.take b = some b' ∧ View z ep' b' := by
  unfold Xen.read at hs
  split at hs <;> cases hs
  rename_i event queue hqueue
  obtain ⟨next, mem, bqueue, log⟩ := b
  obtain rfl : mem = flat z ep.recvqPages := h.mem
  have hq : ep.queue.map some ++ ep.responses.map unexpEvent = bqueue.map some := h.queue
  rw [hqueue] at hq
  cases bqueue with
  | nil => cases hq
  | cons e bqueue =>
      obtain ⟨heq, htail⟩ := List.cons.inj hq
      cases heq
      exact ⟨_, rfl, h.next, rfl, htail, congrArg (· ++ _) h.log⟩

end View

/-- What the library of the guest reads. -/
theorem run_holds {ep ep' : Endpoint} {b : Box Event UInt8} {sent : List (Parcel Event UInt8)}
    {acts : List Act} (hview : View z ep b) (h : Holds z.layout b sent)
    (hroom : (machine env z eid).Meets (HasRoom z) ep acts)
    (hrun : (machine env z eid).exec ep acts = some ep') :
    ∃ b', View z ep' b' ∧
      Holds z.layout b' (sent ++ (acts.filterMap Act.received).filterMap (parcel env z)) := by
  induction acts generalizing ep b sent with
  | nil =>
      cases hrun
      exact ⟨b, hview, by simpa using h⟩
  | cons a acts ih =>
      obtain ⟨s, hs, hrest⟩ := (Machine.exec_cons_eq_some _).1 hrun
      have hroom' := hroom.2 _ hs
      cases a with
      | receive pkt =>
          cases hs
          have hview' : Xen.View z (Xen.omxRecv env z eid ep pkt) _ := hview.omxRecv pkt
          cases hp : parcel env z pkt with
          | none =>
              rw [hp] at hview'
              simpa [Act.received, hp] using ih hview' h hroom' hrest
          | some p =>
              rw [hp] at hview'
              have hfits : z.layout.Fits p := by
                unfold parcel at hp
                split at hp
                · cases hp
                · exact parcel_fits hp
              have hput := h.put hfits (hview.length_queue.trans_lt hroom.1)
              simpa [Act.received, hp] using ih hview' hput hroom' hrest
      | interruptRecv =>
          exact ih (hview.interruptRecv hs) h hroom' hrest
      | read =>
          obtain ⟨b', hb', hview'⟩ := hview.read hs
          exact ih hview' (h.take hb') hroom' hrest

theorem init_view : View z init (Mailbox.Layout.empty fun _ => 0) := ⟨rfl, rfl, rfl, rfl⟩

end Xen

/-! ## The result -/

theorem countP_lt {α : Type*} {p q : α → Bool} {l : List α} (hpq : ∀ a, p a → q a) {a : α}
    (ha : a ∈ l) (hq : q a) (hp : ¬ p a) : l.countP p < l.countP q := by
  induction l with
  | nil => cases ha
  | cons b l ih =>
      have hle : l.countP p ≤ l.countP q := List.countP_mono_left fun x _ => hpq x
      rw [List.countP_cons, List.countP_cons]
      rcases List.mem_cons.1 ha with rfl | ha
      · rw [if_neg hp, if_pos hq]
        omega
      · have hlt := ih ha
        by_cases hb : p b
        · rw [if_pos hb, if_pos (hpq b hb)]
          omega
        · rw [if_neg hb]
          omega

/-- A packet more is a parcel more. -/
theorem parcels_eq_iff (pkts : List Packet) :
    z.layout.parcels 0 (pkts.filterMap (Xen.parcel env z)) =
        z.layout.parcels 0 (pkts.filterMap (parcel env z)) ↔
      ∀ pkt ∈ pkts, Xen.IsNackLib pkt → accepts env z pkt = none := by
  constructor
  · intro h pkt hpkt hnack
    by_contra haccept
    have hlen := congrArg List.length h
    rw [Mailbox.Layout.length_parcels, Mailbox.Layout.length_parcels,
      List.length_filterMap_eq_countP, List.length_filterMap_eq_countP] at hlen
    refine absurd hlen (countP_lt (fun pkt h => ?_) hpkt ?_ ?_).ne
    · unfold Xen.parcel at h
      split at h
      · cases h
      · exact h
    · rw [parcel, Option.isSome_map]
      exact Option.isSome_iff_ne_none.2 haccept
    · rw [Xen.parcel, if_pos hnack]
      exact Bool.false_ne_true
  · intro h
    refine congrArg _ (List.filterMap_congr fun pkt hpkt => ?_)
    unfold Xen.parcel
    split
    · rename_i hnack
      rw [parcel, h pkt hpkt hnack]
      rfl
    · rfl

/-- Whatever the order in which packets are received, handled and read, and as long as
the queues have room: the library of a guest's endpoint reads the events and the data
that the library of a local endpoint reads for the same packets if and only if no lib
nack is accepted among them; and without one it never reads anything else. -/
theorem xenRecv_refines_iff (env : Env) (z : Recvq) (eid : ℕ) (acts : List Xen.Act)
    (nativeActs : List Act)
    (hpkts : acts.filterMap Xen.Act.received = nativeActs.filterMap Act.received)
    (hroom : (Xen.machine env z eid).Meets (Xen.HasRoom z) Xen.init acts)
    (hnativeRoom : (machine env z).Meets (HasRoom z) (machine env z).init nativeActs)
    (ep : Xen.Endpoint) (nativeEp : Endpoint)
    (hrun : (Xen.machine env z eid).exec Xen.init acts = some ep)
    (hnativeRun : (machine env z).exec (machine env z).init nativeActs = some nativeEp)
    (hnativeRest : nativeEp.queue = []) :
    ((∀ pkt ∈ acts.filterMap Xen.Act.received, Xen.IsNackLib pkt → accepts env z pkt = none) →
        ep.log <+: nativeEp.log) ∧
      (ep.responses = [] → ep.queue = [] → (ep.log = nativeEp.log ↔
        ∀ pkt ∈ acts.filterMap Xen.Act.received, Xen.IsNackLib pkt → accepts env z pkt = none)) := by
  have hnative := run_holds (Holds.empty fun _ => 0) hnativeRoom hnativeRun
  obtain ⟨b, hview, hholds⟩ := Xen.run_holds Xen.init_view (Holds.empty fun _ => 0) hroom hrun
  have hlog := hholds.parcels
  have hnativeLog := hnative.parcels
  rw [hnativeRest, List.map_nil, List.append_nil, List.nil_append, ← hpkts] at hnativeLog
  rw [List.nil_append, hview.log] at hlog
  constructor
  · intro hnone
    rw [hnativeLog, ← (parcels_eq_iff _).2 hnone, ← hlog]
    exact List.prefix_append _ _
  · intro hresponses hqueue
    have hb : b.queue = [] := by
      have hlen := hview.length_queue
      rw [hresponses, hqueue] at hlen
      exact List.length_eq_zero_iff.1 hlen
    rw [hb, List.map_nil, List.append_nil] at hlog
    rw [hlog, hnativeLog]
    exact parcels_eq_iff _

/-- A page of 4 kB, entries of 8 kB. -/
def jumboRecvq : Recvq where
  entryNr := 1024
  entryShift := 13
  pageShift := 12
  small_le_entry := by decide
  small_le_page := by decide
  nr_pos := Nat.succ_pos 1023
  size_le := by decide

/-- A host with one peer. -/
def oneFriend : Env where
  checkRecvPeerIndex := fun peerIndex _ => peerIndex == 5
  peerLookupByAddr := fun _ => some 5
  sessionId := 9

/-- A small message of three bytes. -/
def aSmall : Packet := .small ⟨0, 5, 2⟩ ⟨3, 0, 1, 1, 0, 7, 9⟩ [10, 11, 12, 0]

/-- A nack for a message. -/
def aNack : Packet := .nackLib ⟨0, 5, 2⟩ ⟨1, 4⟩

theorem xenRecv_refines_iff_small :
    ∃ ep nativeEp, (Xen.machine oneFriend jumboRecvq 3).exec Xen.init
        [.receive aSmall, .interruptRecv, .read] = some ep ∧
      (machine oneFriend jumboRecvq).exec (machine oneFriend jumboRecvq).init
        [.receive aSmall, .read] = some nativeEp ∧ ep.log.length = 1 ∧ ep.log = nativeEp.log := by
  obtain ⟨ep, nativeEp, hep, hnative, hlen, hresponses, hqueue, hrest⟩ : ∃ ep nativeEp,
      (Xen.machine oneFriend jumboRecvq 3).exec Xen.init
        [.receive aSmall, .interruptRecv, .read] = some ep ∧
      (machine oneFriend jumboRecvq).exec (machine oneFriend jumboRecvq).init
        [.receive aSmall, .read] = some nativeEp ∧ ep.log.length = 1 ∧
      ep.responses = [] ∧ ep.queue = [] ∧ nativeEp.queue = [] :=
    ⟨_, _, rfl, rfl, rfl, rfl, rfl, rfl⟩
  refine ⟨ep, nativeEp, hep, hnative, hlen, ?_⟩
  exact ((xenRecv_refines_iff oneFriend jumboRecvq 3 _ _ rfl (by decide +kernel)
    (by decide +kernel) ep nativeEp hep hnative hrest).2 hresponses hqueue).2 (by decide +kernel)

/-- A nack is read at a local endpoint, and nothing at a guest's. -/
theorem xenRecv_not_refines :
    ∃ ep nativeEp, (Xen.machine oneFriend jumboRecvq 3).exec Xen.init [.receive aNack] = some ep ∧
      (machine oneFriend jumboRecvq).exec (machine oneFriend jumboRecvq).init
        [.receive aNack, .read] = some nativeEp ∧
      ep.responses = [] ∧ ep.queue = [] ∧ nativeEp.queue = [] ∧ ep.log ≠ nativeEp.log := by
  obtain ⟨ep, nativeEp, hep, hnative, hresponses, hqueue, hrest, hlog, hlen⟩ : ∃ ep nativeEp,
      (Xen.machine oneFriend jumboRecvq 3).exec Xen.init [.receive aNack] = some ep ∧
      (machine oneFriend jumboRecvq).exec (machine oneFriend jumboRecvq).init
        [.receive aNack, .read] = some nativeEp ∧
      ep.responses = [] ∧ ep.queue = [] ∧ nativeEp.queue = [] ∧ ep.log = [] ∧
        nativeEp.log.length = 1 := ⟨_, _, rfl, rfl, rfl, rfl, rfl, rfl, rfl⟩
  refine ⟨ep, nativeEp, hep, hnative, hresponses, hqueue, hrest, fun h => ?_⟩
  rw [← h, hlog] at hlen
  cases hlen

end Xen2mx.Recv
