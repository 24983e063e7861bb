/-
# `Xen2mx.Reassembly.Completion` — a medium message is completed once, and is in its segments

A packet is told from the others by the 14 bits of its number.  It is taken for what it is as long
as it is less than a turn of the numbers away from what the partner expects, and from the first
message that is partial.

**Proved here.**

    numbers are not a turn away, the expected message is not processed while a message of the
    partner is with the handler, copies start in the array and lengths do not wrap
        ⟹  the request of a message completes once, when all fragments came, and its segments hold
            what fits of the message, and what they held behind it   (`mediums_reassembled`)
    the third fragment of a message of 12 bytes leaves two segments of 3 bytes
                                                                     (`mediums_not_reassembled`)
-/
import Xen2mx.Reassembly.Partner

namespace Xen2mx.Reassembly

open Isend (Seqnum)
open Segments
open Session (At)

variable {β : Type*} {fragLengthMax : ℕ}

/-! ## What is claimed -/

/-- All fragments of its message came since it was matched. -/
def Req.AllCame (m : Message β fragLengthMax) (arrived : List (ℕ × ℕ)) (req : Req β) : Prop :=
  ∀ j < m.frags, (req.place, j) ∈ arrived

instance (m : Message β fragLengthMax) (arrived : List (ℕ × ℕ)) (req : Req β) :
    Decidable (req.AllCame m arrived) :=
  inferInstanceAs (Decidable (∀ j < m.frags, (req.place, j) ∈ arrived))

/-- It completes once, when all fragments came and a receive has matched it, with what fits of the
message in the segments, and nothing else written. -/
structure Req.Right (m : Message β fragLengthMax) (arrived : List (ℕ × ℕ)) (req : Req β) :
    Prop where
  completed : req.completed =
    if req.medium.unexpected = false ∧ req.AllCame m arrived then 1 else 0
  lengths : lengths req.medium.segs = lengths req.posted
  behind : req.medium.segs.flatten.drop (min (totalLength req.posted) m.bytes.length) =
    req.posted.flatten.drop (min (totalLength req.posted) m.bytes.length)
  message : req.AllCame m arrived →
    req.medium.segs.flatten.take (min (totalLength req.posted) m.bytes.length) =
      m.bytes.take (min (totalLength req.posted) m.bytes.length)

/-- Each message has one request at most, which is right. -/
structure State.Reassembled (messages : ℕ → Option (Message β fragLengthMax)) (s : State β) :
    Prop where
  fault : s.fault = false
  once : s.reqs.Pairwise fun req req' => req.place ≠ req'.place
  right : ∀ req ∈ s.reqs, ∃ m, messages req.place = some m ∧ req.Right m s.arrived

namespace State

/-- The first message that is partial, or the expected one. -/
def firstPartial (s : State β) : ℕ :=
  match s.partialMediumRecvReqQ with
  | [] => s.handedOn
  | i :: _ => ((s.reqs[i]?).map Req.place).getD s.handedOn

end State

instance (req : MediumReq β) (offset : ℕ) : Decidable (req.Reaches offset) :=
  inferInstanceAs (Decidable (if offset = req.scanOffset then
    ∃ c ∈ req.scanState, c.seg < req.segs.length else offset ≤ totalLength req.segs))

instance (req : MediumReq β) (offset : ℕ) : Decidable (StartsAt req offset) :=
  inferInstanceAs (Decidable (_ ∨ _))

/-- The fragment that matches a receive is copied to a place in it, and its lengths do not wrap. -/
def Match.Copies (fragLengthMax : ℕ) (msg : Msg β) : Match β → Prop
  | .posted segs => ∀ f ∈ msg.frag, NotWrapped segs msg.msgLength ∧
      StartsAt (.expected segs msg.msgLength) (f.fragSeqnum * fragLengthMax)
  | _ => True

instance (fragLengthMax : ℕ) (msg : Msg β) : (o : Match β) → Decidable (o.Copies fragLengthMax msg)
  | .posted _ => inferInstanceAs (Decidable (∀ f ∈ msg.frag, _ ∧ _))
  | .failed | .finished | .unexpected _ => inferInstanceAs (Decidable True)

/-- The numbers are not a turn away, a message is not matched while one is with the handler, the
copies start in the array and the lengths do not wrap. -/
def Proper (messages : ℕ → Option (Message β fragLengthMax)) (start : Seqnum) (s : State β) :
    Action β → Prop
  | .recv place j outcome =>
      (s.handedOn < place + 2 ^ 14 ∧ place + 1 < s.firstPartial + 2 ^ 14) ∧
        (place = s.handedOn → s.calls = []) ∧
        ∀ msg ∈ packet messages start place j,
          (∀ o ∈ outcome, o.Copies fragLengthMax msg) ∧
            ∀ f ∈ msg.frag, ∀ req ∈ s.reqs, req.place = place →
              req.medium.Received f ∨ StartsAt req.medium (f.fragSeqnum * fragLengthMax)
  | .handlerReturn k outcome => ∀ msg ∈ s.calls[k]?, outcome.Copies fragLengthMax msg
  | .otherHandler _ => True
  | .irecv i segs => ∀ req ∈ s.reqs[i]?, NotWrapped segs req.medium.msgLength

instance (messages : ℕ → Option (Message β fragLengthMax)) (start : Seqnum) (s : State β) :
    (a : Action β) → Decidable (Proper messages start s a)
  | .recv _ _ _ => inferInstanceAs (Decidable (_ ∧ _ ∧ ∀ _ ∈ _, _ ∧ ∀ _ ∈ _, ∀ _ ∈ _, _))
  | .handlerReturn _ _ => inferInstanceAs (Decidable (∀ _ ∈ _, _))
  | .otherHandler _ => inferInstanceAs (Decidable True)
  | .irecv _ _ => inferInstanceAs (Decidable (∀ _ ∈ _, _))

/-! ## One request -/

/-- A request and what came of its message. -/
structure ReqInv (start : Seqnum) (m : Message β fragLengthMax) (arrived : List (ℕ × ℕ))
    (req : Req β) : Prop where
  number : At start req.place req.seqnum
  holds : Holds m req.posted req.medium
  received : ∀ j < m.frags, req.medium.Received (m.frag j) ↔ (req.place, j) ∈ arrived
  recvPartial : req.recvPartial = true ↔ ¬ req.IsNew ∧ ¬ req.AllCame m arrived
  completed : req.completed =
    if req.medium.unexpected = false ∧ req.AllCame m arrived then 1 else 0

namespace ReqInv

variable {start : Seqnum} {m : Message β fragLengthMax} {arrived arrived' : List (ℕ × ℕ)}
  {req : Req β} {j : ℕ}

theorem congr (h : ReqInv start m arrived req)
    (hsame : ∀ j, (req.place, j) ∈ arrived' ↔ (req.place, j) ∈ arrived) :
    ReqInv start m arrived' req := by
  have hall : req.AllCame m arrived' ↔ req.AllCame m arrived :=
    forall₂_congr fun j _ => hsame j
  refine ⟨h.number, h.holds, fun j hj => (h.received j hj).trans (hsame j).symm, ?_, ?_⟩
  · rw [hall]
    exact h.recvPartial
  · rw [h.completed]
    simp only [hall]

theorem allCame_iff (h : ReqInv start m arrived req) :
    req.AllCame m arrived ↔ req.medium.accumulatedLength = m.bytes.length := by
  rw [h.holds.accumulated_eq_iff]
  exact forall₂_congr fun j hj => (h.received j hj).symm

theorem right (h : ReqInv start m arrived req) : req.Right m arrived := by
  have hinside : min (totalLength req.posted) m.bytes.length = req.medium.inside := by
    rw [MediumReq.inside, h.holds.msgLength]
    exact congrArg (min · _) (congrArg List.sum h.holds.lengths.symm)
  refine ⟨h.completed, h.holds.lengths, ?_, fun hall => ?_⟩
  · rw [hinside]
    refine List.ext_getElem? fun p => ?_
    rw [List.getElem?_drop, List.getElem?_drop]
    exact h.holds.behind _ (Nat.le_add_right _ _)
  · rw [hinside, h.holds.flatten_eq fun j hj => (h.received j hj).2 (hall j hj),
      List.take_append_of_le_length]
    · rw [List.take_take, Nat.min_self]
    · rw [List.length_take, Nat.min_eq_left h.holds.inside_le]

/-- A fragment that is new. -/
theorem receive (h : ReqInv start m arrived req) (hj : j < m.frags)
    (hnew : ¬ req.medium.Received (m.frag j)) (hstart : StartsAt req.medium (j * fragLengthMax)) :
    ∃ medium, req.medium.processRecvMediumFrag fragLengthMax (m.frag j) = .ok medium ∧
      ReqInv start m ((req.place, j) :: arrived) (req.receive medium m.bytes.length) ∧
      ¬ (req.receive medium m.bytes.length).IsNew ∧
      ((req.receive medium m.bytes.length).recvPartial = true ↔
        medium.accumulatedLength ≠ m.bytes.length) := by
  obtain ⟨medium, hprocess, hholds, hunexpected, hreceived⟩ := h.holds.frag hj hnew hstart
  have hgot : ∀ k < m.frags,
      medium.Received (m.frag k) ↔ (req.place, k) ∈ (req.place, j) :: arrived := by
    intro k hk
    rw [hreceived k (hk.trans_le m.frags_le), List.mem_cons, h.received k hk, Prod.mk.injEq]
    exact or_congr_left (and_iff_right rfl).symm
  have hmask : medium.fragsReceivedMask ≠ 0 := by
    intro hzero
    have hjgot := (hreceived j (hj.trans_le m.frags_le)).2 (.inl rfl)
    exact hjgot ((congrArg (· &&& _) hzero).trans BitVec.zero_and)
  have hmissing : ¬ req.AllCame m arrived := fun hall => hnew ((h.received j hj).2 (hall j hj))
  have hzero : req.completed = 0 := h.completed.trans (if_neg fun hall => hmissing hall.2)
  have hall : medium.accumulatedLength = m.bytes.length ↔
      ∀ k < m.frags, (req.place, k) ∈ (req.place, j) :: arrived := by
    rw [hholds.accumulated_eq_iff]
    exact forall₂_congr hgot
  refine ⟨medium, hprocess, ?_⟩
  unfold Req.receive
  split
  · rename_i hlast
    have hcame := hall.1 hlast
    refine ⟨⟨h.number, hholds, hgot, ?_, ?_⟩, hmask, iff_of_false nofun (not_not.2 hlast)⟩
    · exact iff_of_false nofun fun hincomplete => hincomplete.2 hcame
    · show (if medium.unexpected = true then req.completed else req.completed + 1) = _
      rw [hzero]
      rcases hmedium : medium.unexpected
      · rw [if_neg Bool.false_ne_true, if_pos ⟨rfl, hcame⟩]
      · rw [if_pos rfl, if_neg fun hmatched => nomatch hmatched.1]
  · rename_i hmore
    have hcame := mt hall.2 hmore
    have hincomplete : (if req.IsNew then true else req.recvPartial) = true := by
      split
      · rfl
      · rename_i hbegun
        exact h.recvPartial.2 ⟨hbegun, hmissing⟩
    refine ⟨⟨h.number, hholds, hgot, iff_of_true hincomplete ⟨hmask, hcame⟩, ?_⟩, hmask,
      iff_of_true hincomplete hmore⟩
    exact hzero.trans (if_neg fun hmatched => hcame hmatched.2).symm

/-- A receive that matches it. -/
theorem irecv (h : ReqInv start m arrived req) (hbegun : ¬ req.IsNew)
    (hunexpected : req.medium.unexpected = true) {segs : ReqSegs β}
    (hwrap : NotWrapped segs m.bytes.length) :
    ∃ medium, req.medium.completeUnexpAsIrecv segs = .ok medium ∧ medium.fragsReceivedMask =
        req.medium.fragsReceivedMask ∧
      ReqInv start m arrived { req with
        medium
        posted := segs
        completed := if req.recvPartial then req.completed else req.completed + 1 } := by
  obtain ⟨medium, hprocess, hholds, hmatched, hmask⟩ := h.holds.irecv hunexpected hwrap
  have hreceived : ∀ j, medium.Received (m.frag j) ↔ req.medium.Received (m.frag j) := by
    intro j
    unfold MediumReq.Received
    rw [hmask]
  have hzero : req.completed = 0 :=
    h.completed.trans (if_neg fun hall => Bool.noConfusion (hunexpected.symm.trans hall.1))
  refine ⟨medium, hprocess, hmask, h.number, hholds,
    fun j hj => (hreceived j).trans (h.received j hj), ?_, ?_⟩
  · show req.recvPartial = true ↔ ¬ medium.fragsReceivedMask = 0 ∧ _
    rw [hmask]
    exact h.recvPartial
  · show (if req.recvPartial = true then req.completed else req.completed + 1) =
      if medium.unexpected = false ∧ req.AllCame m arrived then 1 else 0
    rw [hzero]
    by_cases hincomplete : req.recvPartial = true
    · rw [if_pos hincomplete, if_neg fun hall => (h.recvPartial.1 hincomplete).2 hall.2]
    · have hcame : req.AllCame m arrived :=
        by_contra fun hmissing => hincomplete (h.recvPartial.2 ⟨hbegun, hmissing⟩)
      rw [if_neg hincomplete, if_pos ⟨hmatched, hcame⟩]

end ReqInv

/-! ## All requests -/

/-- The requests, in the order of their messages, those of the queue that are partial, and what
came, of messages before `n`. -/
structure Table (messages : ℕ → Option (Message β fragLengthMax)) (start : Seqnum) (n : ℕ)
    (reqs : List (Req β)) (queue : List ℕ) (arrived : List (ℕ × ℕ)) : Prop where
  each : ∀ req ∈ reqs, ∃ m, messages req.place = some m ∧ ReqInv start m arrived req
  sorted : reqs.Pairwise fun req req' => req.place < req'.place
  before : ∀ req ∈ reqs, req.place < n
  came : ∀ x ∈ arrived, x.1 < n
  ordered : queue.Pairwise (· < ·)
  mem : ∀ i, i ∈ queue ↔ ∃ req, reqs[i]? = some req ∧ req.recvPartial = true

namespace Table

variable {messages : ℕ → Option (Message β fragLengthMax)} {start : Seqnum} {n i j place : ℕ}
  {reqs : List (Req β)} {queue queue' : List ℕ} {arrived : List (ℕ × ℕ)} {req req' : Req β}
  {m : Message β fragLengthMax}

/-- Two requests are of different messages. -/
theorem place_inj (h : Table messages start n reqs queue arrived) {k : ℕ}
    (hi : reqs[i]? = some req) (hk : reqs[k]? = some req') (hsame : req.place = req'.place) :
    i = k := by
  obtain ⟨hilt, rfl⟩ := List.getElem?_eq_some_iff.1 hi
  obtain ⟨hklt, rfl⟩ := List.getElem?_eq_some_iff.1 hk
  rcases lt_trichotomy i k with hlt | heq | hlt
  · exact absurd hsame (List.pairwise_iff_getElem.1 h.sorted i k hilt hklt hlt).ne
  · exact heq
  · exact absurd hsame.symm (List.pairwise_iff_getElem.1 h.sorted k i hklt hilt hlt).ne

/-- Something comes that is known, or of a message without a request. -/
theorem cons_arrived (h : Table messages start n reqs queue arrived) (hplace : place < n)
    (hcame : ∀ req ∈ reqs, req.place = place → (place, j) ∈ arrived) :
    Table messages start n reqs queue ((place, j) :: arrived) := by
  refine ⟨fun req hreq => ?_, h.sorted, h.before, ?_, h.ordered, h.mem⟩
  · obtain ⟨m, hm, hinv⟩ := h.each req hreq
    refine ⟨m, hm, hinv.congr fun k => ?_⟩
    rw [List.mem_cons, Prod.mk.injEq]
    refine or_iff_right_of_imp ?_
    rintro ⟨hreqplace, rfl⟩
    exact hreqplace ▸ hcame req hreq hreqplace
  · rintro x (_ | ⟨_, hx⟩)
    · exact hplace
    · exact h.came x hx

/-- A message for which there is no request. -/
theorem mono (h : Table messages start n reqs queue arrived) {n' : ℕ} (hle : n ≤ n') :
    Table messages start n' reqs queue arrived :=
  ⟨h.each, h.sorted, fun req hreq => (h.before req hreq).trans_le hle,
    fun x hx => (h.came x hx).trans_le hle, h.ordered, h.mem⟩

/-- The places stay as they are. -/
theorem map_place_set (hreq : reqs[i]? = some req) (hplace : req'.place = req.place) (k : ℕ) :
    ((reqs.set i req')[k]?).map Req.place = (reqs[k]?).map Req.place := by
  by_cases hki : k = i
  · subst hki
    rw [List.getElem?_set_self (List.getElem?_eq_some_iff.1 hreq).1, hreq, Option.map_some,
      Option.map_some, hplace]
  · rw [List.getElem?_set_ne (Ne.symm hki)]

/-- A request changes with what came of its message. -/
theorem set (h : Table messages start n reqs queue arrived) (hreq : reqs[i]? = some req)
    (hm : messages req.place = some m) (hplace : req'.place = req.place) {arrived' : List (ℕ × ℕ)}
    (harrived : ∀ x ∈ arrived', x ∈ arrived ∨ x.1 = req.place)
    (hkept : ∀ x ∈ arrived, x ∈ arrived')
    (hinv : ReqInv start m arrived' req') (hsorted : queue'.Pairwise (· < ·))
    (hmem : ∀ k, k ∈ queue' ↔ if k = i then req'.recvPartial = true else k ∈ queue) :
    Table messages start n (reqs.set i req') queue' arrived' := by
  have hlt := (List.getElem?_eq_some_iff.1 hreq).1
  have hbefore := h.before req (List.mem_of_getElem? hreq)
  have hother : ∀ k req'', k ≠ i → (reqs.set i req')[k]? = some req'' → reqs[k]? = some req'' := by
    intro k req'' hk hreq''
    rwa [List.getElem?_set_ne hk.symm] at hreq''
  have hset : ∀ req'' ∈ reqs.set i req', req'' = req' ∨ ∃ k ≠ i, reqs[k]? = some req'' := by
    intro req'' hreq''
    obtain ⟨k, hk⟩ := List.mem_iff_getElem?.1 hreq''
    by_cases hki : k = i
    · subst hki
      rw [List.getElem?_set_self hlt] at hk
      exact .inl (Option.some.inj hk).symm
    · exact .inr ⟨k, hki, hother k req'' hki hk⟩
  refine ⟨fun req'' hreq'' => ?_, ?_, fun req'' hreq'' => ?_, fun x hx => ?_, hsorted, fun k => ?_⟩
  · rcases hset req'' hreq'' with rfl | ⟨k, hki, hk⟩
    · exact ⟨m, hplace ▸ hm, hinv⟩
    · obtain ⟨m'', hm'', hinv''⟩ := h.each req'' (List.mem_of_getElem? hk)
      refine ⟨m'', hm'', hinv''.congr fun l => ⟨fun hl => ?_, fun hl => hkept _ hl⟩⟩
      exact (harrived _ hl).resolve_right fun hsame => hki (h.place_inj hk hreq hsame)
  · have hmap : (reqs.set i req').map Req.place = reqs.map Req.place := by
      refine List.ext_getElem? fun k => ?_
      rw [List.getElem?_map, List.getElem?_map, map_place_set hreq hplace]
    have hpairs := List.pairwise_map.2 h.sorted
    rw [← hmap] at hpairs
    exact List.pairwise_map.1 hpairs
  · rcases hset req'' hreq'' with rfl | ⟨k, -, hk⟩
    · exact hplace.trans_lt hbefore
    · exact h.before req'' (List.mem_of_getElem? hk)
  · rcases harrived x hx with hx | hx
    · exact h.came x hx
    · exact hx.trans_lt hbefore
  · rw [hmem k]
    split
    · rename_i hki
      subst hki
      rw [List.getElem?_set_self hlt]
      simp
    · rename_i hki
      rw [h.mem k, List.getElem?_set_ne (Ne.symm hki)]

/-- A message is matched with a request that is new. -/
theorem append (h : Table messages start n reqs queue arrived) (hm : messages req.place = some m)
    (hplace : req.place = n) (hinv : ReqInv start m arrived req) (hincomplete : req.recvPartial = false) :
    Table messages start (n + 1) (reqs ++ [req]) queue arrived := by
  have hmono := h.mono (Nat.le_succ n)
  refine ⟨fun req' hreq' => ?_, ?_, fun req' hreq' => ?_, hmono.came, h.ordered, fun k => ?_⟩
  · rcases List.mem_append.1 hreq' with hreq' | hreq'
    · exact h.each req' hreq'
    · obtain rfl := List.mem_singleton.1 hreq'
      exact ⟨m, hm, hinv⟩
  · refine List.pairwise_append.2 ⟨h.sorted, List.pairwise_singleton _ _, ?_⟩
    intro req' hreq' req'' hreq''
    rw [List.mem_singleton.1 hreq'', hplace]
    exact h.before req' hreq'
  · rcases List.mem_append.1 hreq' with hreq' | hreq'
    · exact hmono.before req' hreq'
    · obtain rfl := List.mem_singleton.1 hreq'
      exact hplace.trans_lt (Nat.lt_succ_self n)
  · rw [h.mem k]
    constructor
    · rintro ⟨req', hreq', hincomplete'⟩
      refine ⟨req', ?_, hincomplete'⟩
      rwa [List.getElem?_append_left (List.getElem?_eq_some_iff.1 hreq').1]
    · rintro ⟨req', hreq', hincomplete'⟩
      refine ⟨req', ?_, hincomplete'⟩
      rcases lt_or_ge k reqs.length with hlt | hge
      · rwa [List.getElem?_append_left hlt] at hreq'
      · rw [List.getElem?_append_right hge] at hreq'
        obtain rfl := List.mem_singleton.1 (List.mem_of_getElem? hreq')
        exact Bool.noConfusion (hincomplete.symm.trans hincomplete')

end Table

/-! ## Fragments of a request -/

/-- What the processing of a fragment does not touch. -/
structure SameRest (s s' : State β) : Prop where
  fault : s'.fault = s.fault
  nextMatchRecvSeq : s'.nextMatchRecvSeq = s.nextMatchRecvSeq
  handedOn : s'.handedOn = s.handedOn
  calls : s'.calls = s.calls
  arrived : s'.arrived = s.arrived

/-- A fragment of a request was processed. -/
structure Took (messages : ℕ → Option (Message β fragLengthMax)) (start : Seqnum) (n i : ℕ)
    (req : Req β) (j : ℕ) (s s' : State β) : Prop where
  table : Table messages start n s'.reqs s'.partialMediumRecvReqQ ((req.place, j) :: s.arrived)
  same : SameRest s s'
  reqs : ∃ req', s'.reqs = s.reqs.set i req' ∧ req'.place = req.place ∧ ¬ req'.IsNew
  queue : ∀ k ∈ s'.partialMediumRecvReqQ, k ∈ s.partialMediumRecvReqQ ∨ k = i

section Fragments

variable {messages : ℕ → Option (Message β fragLengthMax)} {start : Seqnum} {n i j : ℕ}
  {m : Message β fragLengthMax} {req : Req β} {s : State β}

theorem Table.processRecvMediumFrag
    (h : Table messages start n s.reqs s.partialMediumRecvReqQ s.arrived)
    (hreq : s.reqs[i]? = some req) (hm : messages req.place = some m) (hj : j < m.frags)
    (hlast : req.IsNew → i + 1 = s.reqs.length)
    (hstart : req.medium.Received (m.frag j) ∨ StartsAt req.medium (j * fragLengthMax)) :
    Took messages start n i req j s
      (s.processRecvMediumFrag fragLengthMax i m.bytes.length (m.frag j)) := by
  obtain ⟨hlt, hget⟩ := List.getElem?_eq_some_iff.1 hreq
  obtain ⟨m', hm', hinv⟩ := h.each req (List.mem_of_getElem? hreq)
  obtain rfl := Option.some.inj (hm.symm.trans hm')
  unfold State.processRecvMediumFrag
  rw [hreq]
  dsimp only
  by_cases hreceived : req.medium.Received (m.frag j)
  · rw [if_pos hreceived]
    have hcame := (hinv.received j hj).1 hreceived
    refine ⟨h.cons_arrived (h.before req (List.mem_of_getElem? hreq)) fun _ _ _ => hcame,
      ⟨rfl, rfl, rfl, rfl, rfl⟩, ⟨req, ?_, rfl, fun hnew => ?_⟩, fun k hk => .inl hk⟩
    · rw [← hget, List.set_getElem_self]
    · exact hreceived ((congrArg (· &&& _) hnew).trans BitVec.zero_and)
  · rw [if_neg hreceived]
    obtain ⟨medium, hprocess, hinv', hbegun, hincomplete⟩ :=
      hinv.receive hj hreceived (hstart.resolve_left hreceived)
    rw [hprocess]
    dsimp only
    set queue := if req.IsNew then s.partialMediumRecvReqQ ++ [i] else s.partialMediumRecvReqQ
      with hqueue
    have hbefore : req.IsNew → ∀ k ∈ s.partialMediumRecvReqQ, k < i := by
      intro hnew k hk
      obtain ⟨req', hreq', hincomplete'⟩ := (h.mem k).1 hk
      have hklt := (List.getElem?_eq_some_iff.1 hreq').1
      have hne : k ≠ i := by
        rintro rfl
        cases hreq.symm.trans hreq'
        exact (hinv.recvPartial.1 hincomplete').1 hnew
      have hlength := hlast hnew
      omega
    have hsorted : queue.Pairwise (· < ·) := by
      rw [hqueue]
      split
      · rename_i hnew
        refine List.pairwise_append.2 ⟨h.ordered, List.pairwise_singleton _ _, fun k hk l hl => ?_⟩
        exact (hbefore hnew k hk).trans_eq (List.mem_singleton.1 hl).symm
      · exact h.ordered
    have hmem : ∀ k, k ∈ queue ↔ k = i ∨ k ∈ s.partialMediumRecvReqQ := by
      intro k
      rw [hqueue]
      split
      · rw [List.mem_append, List.mem_singleton, or_comm]
      · rename_i hold
        refine (or_iff_right_of_imp ?_).symm
        rintro rfl
        refine (h.mem k).2 ⟨req, hreq, hinv.recvPartial.2 ⟨hold, fun hall => hreceived ?_⟩⟩
        exact (hinv.received j hj).2 (hall j hj)
    have hplace : (req.receive medium m.bytes.length).place = req.place := by
      unfold Req.receive
      split <;> rfl
    have hsub : ∀ k ∈ (if medium.accumulatedLength = m.bytes.length then queue.erase i else queue),
        k ∈ s.partialMediumRecvReqQ ∨ k = i := by
      intro k hk
      have hk' : k ∈ queue := by
        split at hk
        · exact List.mem_of_mem_erase hk
        · exact hk
      exact ((hmem k).1 hk').symm
    refine ⟨h.set hreq hm hplace ?_ (fun x hx => List.mem_cons_of_mem _ hx) hinv' ?_ fun k => ?_,
      ⟨rfl, rfl, rfl, rfl, rfl⟩, ⟨_, rfl, hplace, hbegun⟩, hsub⟩
    · rintro x (_ | ⟨_, hx⟩)
      · exact .inr rfl
      · exact .inl hx
    · split
      · exact hsorted.sublist List.erase_sublist
      · exact hsorted
    · rw [hincomplete]
      split
      · rename_i hall
        rw [List.Nodup.mem_erase_iff (hsorted.imp ne_of_lt), hmem k]
        by_cases hki : k = i
        · rw [if_pos hki]
          exact iff_of_false (fun hk => hk.1 hki) (not_not.2 hall)
        · rw [if_neg hki]
          exact ⟨fun hk => hk.2.resolve_left hki, fun hk => ⟨hki, .inr hk⟩⟩
      · rename_i hmore
        rw [hmem k]
        by_cases hki : k = i
        · rw [if_pos hki]
          exact iff_of_true (.inl hki) hmore
        · rw [if_neg hki]
          exact or_iff_right hki

end Fragments

/-! ## Numbers -/

/-- The offset of a number, of a message less than a turn further. -/
theorem num_sub_eq {start x y : Seqnum} {p f : ℕ} (hx : At start p x) (hy : At start f y)
    (hle : f ≤ p) (hlt : p < f + 2 ^ 14) : (x - y).num = p - f := by
  have hmod := hx.num_sub hy
  have hnum := (x - y).num_lt
  omega

/-- Of a message behind. -/
theorem num_sub_eq_behind {start x y : Seqnum} {p f : ℕ} (hx : At start p x) (hy : At start f y)
    (hlt : p < f) (hle : f < p + 2 ^ 14) : (x - y).num = p + 2 ^ 14 - f := by
  have hmod := hx.num_sub hy
  have hnum := (x - y).num_lt
  omega

theorem at_iterate (start : Seqnum) (p : ℕ) : At start p (Seqnum.increase^[p] start) := by
  induction p with
  | zero => exact (Nat.mod_eq_of_lt start.num_lt).symm
  | succ p ih =>
      rw [Function.iterate_succ_apply']
      exact ih.increase

/-! ## The invariant -/

section Invariant

variable (messages : ℕ → Option (Message β fragLengthMax)) (start : Seqnum)

/-- A message that is with the handler. -/
def WithHandler (s : State β) (msg : Msg β) : Prop :=
  (∃ j, packet messages start s.handedOn j = some msg) ∧
    s.handedOn + 1 < s.firstPartial + 2 ^ 14

structure Inv (s : State β) : Prop where
  fault : s.fault = false
  expected : At start s.handedOn s.nextMatchRecvSeq
  frag : At start s.firstPartial s.nextFragRecvSeq
  window : s.handedOn < s.firstPartial + 2 ^ 14
  table : Table messages start s.handedOn s.reqs s.partialMediumRecvReqQ s.arrived
  begun : ∀ req ∈ s.reqs, ¬ req.IsNew
  calls : s.calls = [] ∨ ∃ msg, s.calls = [msg] ∧ WithHandler messages start s msg

end Invariant

variable {messages : ℕ → Option (Message β fragLengthMax)} {start : Seqnum} {n : ℕ}
  {s s' : State β}

/-- The requests of the queue are of messages from the first partial one on. -/
theorem State.firstPartial_le {arrived : List (ℕ × ℕ)}
    (h : Table messages start n s.reqs s.partialMediumRecvReqQ arrived) {i : ℕ} {req : Req β}
    (hi : i ∈ s.partialMediumRecvReqQ) (hreq : s.reqs[i]? = some req) :
    s.firstPartial ≤ req.place := by
  obtain ⟨hilt, rfl⟩ := List.getElem?_eq_some_iff.1 hreq
  have hordered := h.ordered
  have hmem := h.mem
  unfold State.firstPartial
  split
  · rename_i hnil
    rw [hnil] at hi
    exact absurd hi List.not_mem_nil
  · rename_i k queue hqueue
    rw [hqueue] at hi hordered hmem
    obtain ⟨first, hfirst, -⟩ := (hmem k).1 List.mem_cons_self
    obtain ⟨hklt, rfl⟩ := List.getElem?_eq_some_iff.1 hfirst
    rw [hfirst]
    show s.reqs[k].place ≤ s.reqs[i].place
    rcases List.mem_cons.1 hi with rfl | hi
    · exact le_rfl
    · have hlt := List.rel_of_pairwise_cons hordered hi
      exact (List.pairwise_iff_getElem.1 h.sorted k i hklt hilt hlt).le

/-- A bound of the partial messages and of the expected one is one of the first. -/
theorem State.le_firstPartial {f : ℕ} (hn : f ≤ s.handedOn)
    (h : ∀ i ∈ s.partialMediumRecvReqQ, ∀ req ∈ s.reqs[i]?, f ≤ req.place) :
    f ≤ s.firstPartial := by
  unfold State.firstPartial
  split
  · exact hn
  · rename_i i queue hqueue
    rcases hreq : s.reqs[i]? with _ | req
    · exact hn
    · exact h i (hqueue ▸ List.mem_cons_self) req hreq

theorem State.firstPartial_le_handedOn
    (h : Table messages start s.handedOn s.reqs s.partialMediumRecvReqQ s.arrived) :
    s.firstPartial ≤ s.handedOn := by
  unfold State.firstPartial
  split
  · exact le_rfl
  · rename_i i queue hqueue
    rcases hreq : s.reqs[i]? with _ | req
    · exact le_rfl
    · exact (h.before req (List.mem_of_getElem? hreq)).le

/-- The number that is expected of fragments is that of the first partial message. -/
theorem State.frag_updateNextFragRecvSeq {arrived : List (ℕ × ℕ)}
    (h : Table messages start n s.reqs s.partialMediumRecvReqQ arrived)
    (hexpected : At start s.handedOn s.nextMatchRecvSeq) :
    At start s.updateNextFragRecvSeq.firstPartial s.updateNextFragRecvSeq.nextFragRecvSeq := by
  show At start s.firstPartial _
  unfold State.firstPartial State.updateNextFragRecvSeq
  dsimp only
  rcases hqueue : s.partialMediumRecvReqQ with _ | ⟨i, queue⟩
  · exact hexpected
  · dsimp only
    rcases hreq : s.reqs[i]? with _ | req
    · exact hexpected
    · obtain ⟨m, -, hinv⟩ := h.each req (List.mem_of_getElem? hreq)
      exact hinv.number

namespace Took

variable {i j : ℕ} {req : Req β}

/-- All requests have begun, if all others had. -/
theorem begun (h : Took messages start n i req j s s')
    (hbegun : ∀ k, k ≠ i → ∀ req', s.reqs[k]? = some req' → ¬ req'.IsNew) :
    ∀ req' ∈ s'.reqs, ¬ req'.IsNew := by
  obtain ⟨req₁, hreqs, -, hbegun₁⟩ := h.reqs
  rw [hreqs]
  intro req' hreq'
  obtain ⟨k, hk⟩ := List.mem_iff_getElem?.1 hreq'
  by_cases hki : k = i
  · subst hki
    have hlt := (List.getElem?_eq_some_iff.1 hk).1
    rw [List.length_set] at hlt
    rw [List.getElem?_set_self hlt] at hk
    exact Option.some.inj hk ▸ hbegun₁
  · rw [List.getElem?_set_ne (Ne.symm hki)] at hk
    exact hbegun k hki req' hk

/-- No message before the first partial one gets partial. -/
theorem le_place (h : Took messages start n i req j s s') (hreq : s.reqs[i]? = some req) {f : ℕ}
    (hqueue : ∀ k ∈ s.partialMediumRecvReqQ, ∀ req' ∈ s.reqs[k]?, f ≤ req'.place)
    (hplace : f ≤ req.place) :
    ∀ k ∈ s'.partialMediumRecvReqQ, ∀ req' ∈ s'.reqs[k]?, f ≤ req'.place := by
  obtain ⟨req₁, hreqs, hplace₁, -⟩ := h.reqs
  intro k hk req' hreq'
  have hki := h.queue k hk
  rw [Option.mem_def, hreqs] at hreq'
  by_cases hne : k = i
  · rw [hne, List.getElem?_set_self (List.getElem?_eq_some_iff.1 hreq).1] at hreq'
    rw [← Option.some.inj hreq', hplace₁]
    exact hplace
  · rw [List.getElem?_set_ne (Ne.symm hne)] at hreq'
    exact hqueue k (hki.resolve_right hne) req' hreq'

end Took

namespace Inv

variable {place : ℕ} {seqnum : Seqnum}

/-- Whether a number is the expected one. -/
theorem matchIndex_eq_zero_iff (h : Inv messages start s) (hseqnum : At start place seqnum)
    (hold : s.handedOn < place + 2 ^ 14) (hnear : place + 1 < s.firstPartial + 2 ^ 14) :
    s.matchIndex seqnum = 0 ↔ place = s.handedOn := by
  have hfirst := State.firstPartial_le_handedOn h.table
  unfold State.matchIndex
  rcases lt_or_ge place s.handedOn with hlt | hge
  · rw [num_sub_eq_behind hseqnum h.expected hlt hold]
    omega
  · rw [num_sub_eq hseqnum h.expected hge (by omega)]
    omega

/-- Whether it is one of a message that was handed on, and not before the first partial one. -/
theorem fragIndex_lt_iff (h : Inv messages start s) (hseqnum : At start place seqnum)
    (hold : s.handedOn < place + 2 ^ 14) (hnear : place + 1 < s.firstPartial + 2 ^ 14) :
    s.fragIndex seqnum < s.fragIndexMax ↔ s.firstPartial ≤ place ∧ place < s.handedOn := by
  have hfirst := State.firstPartial_le_handedOn h.table
  have hmax : s.fragIndexMax = s.handedOn - s.firstPartial :=
    num_sub_eq h.expected h.frag hfirst h.window
  unfold State.fragIndex
  rw [hmax]
  rcases lt_or_ge place s.firstPartial with hlt | hge
  · rw [num_sub_eq_behind hseqnum h.frag hlt (by omega)]
    omega
  · rw [num_sub_eq hseqnum h.frag hge (by omega)]
    omega

/-- The search finds the request of the message, if it is partial. -/
theorem continueLoop_eq (h : Inv messages start s) (hseqnum : At start place seqnum)
    (hge : s.firstPartial ≤ place) (hlt : place < s.handedOn) {queue : List ℕ}
    (hsub : queue.Sublist s.partialMediumRecvReqQ) :
    (∀ i, s.continueLoop seqnum queue = some i →
        ∃ req, s.reqs[i]? = some req ∧ req.place = place) ∧
      (s.continueLoop seqnum queue = none →
        ∀ i ∈ queue, ∀ req, s.reqs[i]? = some req → req.place ≠ place) := by
  have hwindow := h.window
  induction queue with
  | nil => exact ⟨nofun, fun _ i hi => absurd hi List.not_mem_nil⟩
  | cons k queue ih =>
      obtain ⟨hfound, hnone⟩ := ih (List.sublist_of_cons_sublist hsub)
      have hk := hsub.subset List.mem_cons_self
      obtain ⟨req, hreq, -⟩ := (h.table.mem k).1 hk
      obtain ⟨m, -, hinv⟩ := h.table.each req (List.mem_of_getElem? hreq)
      have hfirst := State.firstPartial_le h.table hk hreq
      have hbefore := h.table.before req (List.mem_of_getElem? hreq)
      have hindex : s.fragIndex req.seqnum = req.place - s.firstPartial :=
        num_sub_eq hinv.number h.frag hfirst (by omega)
      have hindex' : s.fragIndex seqnum = place - s.firstPartial :=
        num_sub_eq hseqnum h.frag hge (by omega)
      unfold State.continueLoop
      rw [hreq, Option.bind_some, hindex, hindex']
      split
      · rename_i hsame
        refine ⟨?_, nofun⟩
        rintro _ ⟨⟩
        exact ⟨req, hreq, by omega⟩
      · rename_i hother
        split
        · rename_i hpast
          refine ⟨nofun, fun _ i hi req' hreq' => ?_⟩
          rcases List.mem_cons.1 hi with rfl | hi
          · cases hreq.symm.trans hreq'
            omega
          · have hki := List.rel_of_pairwise_cons (h.table.ordered.sublist hsub) hi
            obtain ⟨hklt, rfl⟩ := List.getElem?_eq_some_iff.1 hreq
            obtain ⟨hilt, rfl⟩ := List.getElem?_eq_some_iff.1 hreq'
            have hplaces := List.pairwise_iff_getElem.1 h.table.sorted k i hklt hilt hki
            omega
        · rename_i hbehind
          refine ⟨hfound, fun hrest i hi req' hreq' => ?_⟩
          rcases List.mem_cons.1 hi with rfl | hi
          · cases hreq.symm.trans hreq'
            omega
          · exact hnone hrest i hi req' hreq'

end Inv

/-! ## Packets -/

section Packets

variable {place j : ℕ} {msg : Msg β}

/-- A packet is of its message. -/
theorem packet_eq_some (h : packet messages start place j = some msg) :
    msg.place = place ∧ At start place msg.seqnum ∧
      (msg.frag = none ∨ ∃ m, messages place = some m ∧ j < m.frags ∧ msg.frag = some (m.frag j) ∧
        msg.msgLength = m.bytes.length) := by
  unfold packet at h
  split at h
  · cases h
    exact ⟨rfl, at_iterate start place, .inl rfl⟩
  · rename_i m hm
    obtain ⟨hj, h⟩ := Option.ite_none_right_eq_some.1 h
    cases h
    exact ⟨rfl, at_iterate start place, .inr ⟨m, hm, hj, rfl, rfl⟩⟩

theorem came_eq {m : Message β fragLengthMax} (h : msg.frag = some (m.frag j)) :
    msg.came = [(msg.place, j)] := by
  unfold Msg.came
  rw [h]
  rfl

theorem arrive_of_le (h : s.handedOn ≤ msg.place) : s.arrive msg = s := if_neg (not_lt.2 h)

theorem arrive_of_lt (h : msg.place < s.handedOn) :
    s.arrive msg = { s with arrived := msg.came ++ s.arrived } := if_pos h

end Packets

namespace Inv

variable {place j : ℕ} {msg : Msg β}

/-- A packet comes of a message that is not partial. -/
theorem arrive (h : Inv messages start s) (hmsg : packet messages start place j = some msg)
    (hlt : place < s.handedOn)
    (hother : ∀ i ∈ s.partialMediumRecvReqQ, ∀ req, s.reqs[i]? = some req → req.place ≠ place) :
    Inv messages start (s.arrive msg) := by
  obtain ⟨hplace, -, hmsg⟩ := packet_eq_some hmsg
  rw [arrive_of_lt (hplace.trans_lt hlt)]
  refine ⟨h.fault, h.expected, h.frag, h.window, ?_, h.begun, h.calls⟩
  rcases hmsg with hnone | ⟨m, hm, hj, hfrag, -⟩
  · show Table messages start s.handedOn s.reqs _ (msg.came ++ s.arrived)
    unfold Msg.came
    rw [hnone]
    exact h.table
  · show Table messages start s.handedOn s.reqs _ (msg.came ++ s.arrived)
    rw [came_eq hfrag, hplace]
    refine h.table.cons_arrived hlt fun req hreq hsame => ?_
    obtain ⟨m', hm', hinv⟩ := h.table.each req hreq
    rw [hsame] at hm'
    obtain rfl := Option.some.inj (hm.symm.trans hm')
    obtain ⟨i, hi⟩ := List.mem_iff_getElem?.1 hreq
    by_contra hmissing
    have hincomplete : req.recvPartial = true :=
      hinv.recvPartial.2 ⟨h.begun req hreq, fun hall => hmissing (hsame ▸ hall j hj)⟩
    exact hother i ((h.table.mem i).2 ⟨req, hi, hincomplete⟩) req hi hsame

/-- A fragment of a message that was handed on. -/
theorem continuePartialRequest (h : Inv messages start s)
    (hmsg : packet messages start place j = some msg) {f : Frag β} (hf : msg.frag = some f)
    (hge : s.firstPartial ≤ place) (hlt : place < s.handedOn)
    (hstart : ∀ req ∈ s.reqs, req.place = place →
      req.medium.Received f ∨ StartsAt req.medium (f.fragSeqnum * fragLengthMax)) :
    Inv messages start ((s.continuePartialRequest fragLengthMax msg f).arrive msg) := by
  obtain ⟨hplace, hseqnum, hmedium⟩ := packet_eq_some hmsg
  obtain ⟨m, hm, hj, hfrag, hlength⟩ := hmedium.resolve_left fun hnone => nomatch hf.symm.trans hnone
  obtain rfl := Option.some.inj (hf.symm.trans hfrag)
  obtain ⟨hfound, hnone⟩ := h.continueLoop_eq hseqnum hge hlt (List.Sublist.refl _)
  unfold State.continuePartialRequest
  split
  · rename_i i hi
    obtain ⟨req, hreq, hsame⟩ := hfound i hi
    have hmem := List.mem_of_getElem? hreq
    rw [hlength]
    have htook := h.table.processRecvMediumFrag hreq (hsame ▸ hm) hj
      (fun hnew => absurd hnew (h.begun req hmem)) (hstart req hmem hsame)
    have hbegun := htook.begun fun k _ req' hreq' => h.begun req' (List.mem_of_getElem? hreq')
    have hfirst := State.le_firstPartial
      ((State.firstPartial_le_handedOn h.table).trans_eq htook.same.handedOn.symm)
      (htook.le_place hreq (fun k hk req' hreq' => State.firstPartial_le h.table hk hreq')
        (hsame ▸ hge))
    obtain ⟨htable, hrest, -, -⟩ := htook
    generalize s.processRecvMediumFrag fragLengthMax i m.bytes.length (m.frag j) = s₁ at *
    have hexpected : At start s₁.handedOn s₁.nextMatchRecvSeq := by
      rw [hrest.handedOn, hrest.nextMatchRecvSeq]
      exact h.expected
    have hhandedOn : s₁.updateNextFragRecvSeq.handedOn = s.handedOn := hrest.handedOn
    rw [arrive_of_lt (by rw [hhandedOn, hplace]; exact hlt)]
    refine ⟨hrest.fault.trans h.fault, hexpected, State.frag_updateNextFragRecvSeq htable hexpected,
      ?_, ?_, hbegun, ?_⟩
    · show s₁.handedOn < s₁.firstPartial + 2 ^ 14
      rw [hrest.handedOn]
      exact h.window.trans_le (Nat.add_le_add_right hfirst _)
    · show Table messages start s₁.handedOn s₁.reqs _ (msg.came ++ s₁.arrived)
      rw [hrest.handedOn, hrest.arrived, came_eq hfrag, hplace, ← hsame]
      exact htable
    · show s₁.calls = [] ∨ ∃ msg, s₁.calls = [msg] ∧ _
      rw [hrest.calls]
      refine h.calls.imp_right ?_
      rintro ⟨msg', hcalls, hwith, hnear⟩
      refine ⟨msg', hcalls, ?_, ?_⟩
      · show ∃ j, packet messages start s₁.handedOn j = some msg'
        rwa [hrest.handedOn]
      · show s₁.handedOn + 1 < s₁.firstPartial + 2 ^ 14
        rw [hrest.handedOn]
        exact hnear.trans_le (Nat.add_le_add_right hfirst _)
  · rename_i hi
    exact h.arrive hmsg hlt (hnone hi)

end Inv

/-! ## Matching -/

/-- What the match of the expected message leaves, but for the numbers. -/
structure Matched (messages : ℕ → Option (Message β fragLengthMax)) (start : Seqnum) (msg : Msg β)
    (s s' : State β) : Prop where
  table : Table messages start (s.handedOn + 1) s'.reqs s'.partialMediumRecvReqQ
    (msg.came ++ s.arrived)
  same : SameRest s s'
  begun : ∀ req ∈ s'.reqs, ¬ req.IsNew
  queue : ∀ k ∈ s'.partialMediumRecvReqQ, ∀ req ∈ s'.reqs[k]?, s.firstPartial ≤ req.place

namespace Inv

variable {j : ℕ} {msg : Msg β}

/-- A message that gets no request. -/
theorem unmatched (h : Inv messages start s)
    (hmsg : packet messages start s.handedOn j = some msg) : Matched messages start msg s s := by
  obtain ⟨hplace, -, hmedium⟩ := packet_eq_some hmsg
  refine ⟨?_, ⟨rfl, rfl, rfl, rfl, rfl⟩, h.begun,
    fun k hk req hreq => State.firstPartial_le h.table hk hreq⟩
  have hmono := h.table.mono (Nat.le_succ _)
  rcases hmedium with hnone | ⟨m, -, -, hfrag, -⟩
  · unfold Msg.came
    rw [hnone]
    exact hmono
  · rw [came_eq hfrag, hplace]
    refine hmono.cons_arrived (Nat.lt_succ_self _) fun req hreq hsame => ?_
    exact absurd hsame (h.table.before req hreq).ne

/-- A medium that gets one. -/
theorem matched (h : Inv messages start s)
    (hmsg : packet messages start s.handedOn j = some msg) {m : Message β fragLengthMax}
    (hm : messages s.handedOn = some m) (hj : j < m.frags) (hfrag : msg.frag = some (m.frag j))
    {medium : MediumReq β} (hholds : Holds m medium.segs medium)
    (hmask : medium.fragsReceivedMask = 0) (hstart : StartsAt medium (j * fragLengthMax)) :
    Matched messages start msg s ((s.addReq msg medium).processRecvMediumFrag fragLengthMax
      s.reqs.length m.bytes.length (m.frag j)) := by
  obtain ⟨hplace, hseqnum, -⟩ := packet_eq_some hmsg
  set req : Req β :=
    ⟨msg.seqnum, medium, false, 0, msg.place, medium.segs⟩ with hreqdef
  have hnone : ∀ k, (req.place, k) ∉ s.arrived := by
    intro k hk
    exact absurd hplace (h.table.came _ hk).ne
  have hnot : ∀ k, ¬ medium.Received (m.frag k) :=
    fun k hgot => hgot ((congrArg (· &&& _) hmask).trans BitVec.zero_and)
  have hmissing : ¬ req.AllCame m s.arrived := fun hall => hnone j (hall j hj)
  have hinv : ReqInv start m s.arrived req := by
    refine ⟨?_, hholds, fun k _ => iff_of_false (hnot k) (hnone k), ?_, ?_⟩
    · show At start msg.place msg.seqnum
      rw [hplace]
      exact hseqnum
    · exact iff_of_false nofun fun hbegun => hbegun.1 hmask
    · exact (if_neg fun hall => hmissing hall.2).symm
  have hplace' : req.place = s.handedOn := hplace
  have htable := h.table.append (hplace'.symm ▸ hm) hplace' hinv rfl
  have hget : (s.addReq msg medium).reqs[s.reqs.length]? = some req := List.getElem?_concat_length
  have hlength : (s.reqs ++ [req]).length = s.reqs.length + 1 := List.length_append
  have htook := Table.processRecvMediumFrag (s := s.addReq msg medium) htable hget
    (hplace'.symm ▸ hm) hj (fun _ => hlength.symm) (.inr hstart)
  have hfirst := State.firstPartial_le_handedOn h.table
  refine ⟨?_, ⟨htook.same.fault, htook.same.nextMatchRecvSeq, htook.same.handedOn, htook.same.calls,
    htook.same.arrived⟩, htook.begun fun k hk req' hreq' => ?_,
    htook.le_place hget (fun k hk req' hreq' => ?_) (hplace'.symm ▸ hfirst)⟩
  · rw [came_eq hfrag]
    exact htook.table
  · change (s.reqs ++ [req])[k]? = some req' at hreq'
    refine h.begun req' ?_
    rcases lt_or_ge k s.reqs.length with hlt | hge
    · rw [List.getElem?_append_left hlt] at hreq'
      exact List.mem_of_getElem? hreq'
    · rw [List.getElem?_append_right hge] at hreq'
      have hlt := (List.getElem?_eq_some_iff.1 hreq').1
      rw [List.length_singleton] at hlt
      omega
  · change (s.reqs ++ [req])[k]? = some req' at hreq'
    obtain ⟨req'', hreq'', -⟩ := (h.table.mem k).1 hk
    rw [List.getElem?_append_left (List.getElem?_eq_some_iff.1 hreq'').1] at hreq'
    exact State.firstPartial_le h.table hk hreq'

/-- Whatever the match comes to. -/
theorem matchNext (h : Inv messages start s)
    (hmsg : packet messages start s.handedOn j = some msg)
    (hnear : s.handedOn + 1 < s.firstPartial + 2 ^ 14) (hcalls : s.calls = []) {outcome : Match β}
    (hcopies : outcome.Copies fragLengthMax msg) :
    Inv messages start ((s.matchNext fragLengthMax msg outcome).arrive msg) := by
  obtain ⟨hplace, -, hmedium⟩ := packet_eq_some hmsg
  by_cases hfailed : outcome = .failed
  · subst hfailed
    show Inv messages start (s.arrive msg)
    rw [arrive_of_le hplace.ge]
    exact h
  · have hmatched : Matched messages start msg s
        (msg.frag.elim s fun f => s.tryMatchNextRecv fragLengthMax msg f outcome) := by
      rcases hmedium with hnone | ⟨m, hm, hj, hfrag, hlength⟩
      · rw [hnone]
        exact h.unmatched hmsg
      · rw [hfrag, Option.elim_some]
        cases outcome with
        | failed => exact absurd rfl hfailed
        | finished => exact h.unmatched hmsg
        | posted segs =>
            obtain ⟨hwrap, hstart⟩ := hcopies (m.frag j) hfrag
            unfold State.tryMatchNextRecv
            rw [hlength] at hwrap hstart ⊢
            exact h.matched hmsg hm hj hfrag (Holds.expected m hwrap) rfl hstart
        | unexpected buffer =>
            unfold State.tryMatchNextRecv
            rw [hlength]
            refine h.matched hmsg hm hj hfrag (Holds.unexpected ?_) rfl (.inl rfl)
            rw [List.length_map, List.length_range]
    have hmatchNext : s.matchNext fragLengthMax msg outcome =
        { (msg.frag.elim s fun f => s.tryMatchNextRecv fragLengthMax msg f outcome) with
          nextMatchRecvSeq := (msg.frag.elim s fun f =>
            s.tryMatchNextRecv fragLengthMax msg f outcome).nextMatchRecvSeq.increase
          handedOn := (msg.frag.elim s fun f =>
            s.tryMatchNextRecv fragLengthMax msg f outcome).handedOn + 1 }.updateNextFragRecvSeq := by
      cases outcome with
      | failed => exact absurd rfl hfailed
      | finished => rfl
      | posted segs => rfl
      | unexpected buffer => rfl
    rw [hmatchNext]
    generalize (msg.frag.elim s fun f => s.tryMatchNextRecv fragLengthMax msg f outcome) = s₁ at *
    obtain ⟨htable, hrest, hbegun, hqueue⟩ := hmatched
    have hexpected : At start (s₁.handedOn + 1) s₁.nextMatchRecvSeq.increase := by
      rw [hrest.handedOn, hrest.nextMatchRecvSeq]
      exact h.expected.increase
    have hfirst : s.firstPartial ≤ State.firstPartial { s₁ with handedOn := s₁.handedOn + 1 } := by
      refine State.le_firstPartial ?_ hqueue
      show s.firstPartial ≤ s₁.handedOn + 1
      rw [hrest.handedOn]
      exact (State.firstPartial_le_handedOn h.table).trans (Nat.le_succ _)
    rw [arrive_of_lt (by show msg.place < s₁.handedOn + 1; rw [hrest.handedOn, hplace]; omega)]
    refine ⟨hrest.fault.trans h.fault, hexpected,
      State.frag_updateNextFragRecvSeq (s := { s₁ with
        nextMatchRecvSeq := s₁.nextMatchRecvSeq.increase, handedOn := s₁.handedOn + 1 })
        htable hexpected, ?_, ?_, hbegun, ?_⟩
    · show s₁.handedOn + 1 < State.firstPartial { s₁ with handedOn := s₁.handedOn + 1 } + 2 ^ 14
      rw [hrest.handedOn] at hfirst ⊢
      omega
    · show Table messages start (s₁.handedOn + 1) s₁.reqs _ (msg.came ++ s₁.arrived)
      rw [hrest.handedOn, hrest.arrived]
      exact htable
    · exact .inl (hrest.calls.trans hcalls)

/-- A packet that is processed. -/
theorem processOrderedRecv (h : Inv messages start s) {place : ℕ}
    (hmsg : packet messages start place j = some msg)
    (hold : s.handedOn < place + 2 ^ 14) (hnear : place + 1 < s.firstPartial + 2 ^ 14)
    (hcalls : place = s.handedOn → s.calls = []) {outcome : Option (Match β)}
    (hcopies : ∀ o ∈ outcome, o.Copies fragLengthMax msg)
    (hstart : ∀ f ∈ msg.frag, ∀ req ∈ s.reqs, req.place = place →
      req.medium.Received f ∨ StartsAt req.medium (f.fragSeqnum * fragLengthMax)) :
    Inv messages start ((s.processOrderedRecv fragLengthMax msg outcome).arrive msg) := by
  obtain ⟨hplace, hseqnum, -⟩ := packet_eq_some hmsg
  unfold State.processOrderedRecv
  split
  · rename_i hindex
    obtain rfl := (h.matchIndex_eq_zero_iff hseqnum hold hnear).1 hindex
    cases outcome with
    | none =>
        have harrive : ({ s with calls := msg :: s.calls, progressionDisabled := true } :
            State β).arrive msg = _ := arrive_of_le hplace.ge
        have hcalls' : msg :: s.calls = [msg] := by rw [hcalls rfl]
        rw [Option.elim_none, harrive]
        exact ⟨h.fault, h.expected, h.frag, h.window, h.table, h.begun,
          .inr ⟨msg, hcalls', ⟨j, hmsg⟩, hnear⟩⟩
    | some outcome => exact h.matchNext hmsg hnear (hcalls rfl) (hcopies outcome rfl)
  · rename_i hindex
    have hne : place ≠ s.handedOn := fun hsame =>
      hindex ((h.matchIndex_eq_zero_iff hseqnum hold hnear).2 hsame)
    split
    · rename_i hfrag
      obtain ⟨hge, hlt⟩ := (h.fragIndex_lt_iff hseqnum hold hnear).1 hfrag
      rcases hf : msg.frag with _ | f
      · rw [Option.elim_none, arrive_of_lt (hplace.trans_lt hlt)]
        unfold Msg.came
        rw [hf]
        exact h
      · exact h.continuePartialRequest hmsg hf hge hlt (hstart f hf)
    · rename_i hfrag
      rcases lt_or_gt_of_ne hne with hlt | hgt
      · refine h.arrive hmsg hlt fun i hi req hreq hsame => hfrag ?_
        refine (h.fragIndex_lt_iff hseqnum hold hnear).2 ⟨?_, hlt⟩
        exact hsame ▸ State.firstPartial_le h.table hi hreq
      · rw [arrive_of_le (hplace.symm ▸ hgt.le)]
        exact h

/-- A receive that matches an unexpected message. -/
theorem completeUnexpAsIrecv (h : Inv messages start s) {i : ℕ} {req : Req β}
    (hreq : s.reqs[i]? = some req) (hunexpected : req.medium.unexpected = true)
    {segs : ReqSegs β} (hwrap : NotWrapped segs req.medium.msgLength) :
    Inv messages start (s.completeUnexpAsIrecv i segs) := by
  have hmem := List.mem_of_getElem? hreq
  obtain ⟨m, hm, hinv⟩ := h.table.each req hmem
  rw [hinv.holds.msgLength] at hwrap
  obtain ⟨medium, hprocess, hmask, hinv'⟩ := hinv.irecv (h.begun req hmem) hunexpected hwrap
  unfold State.completeUnexpAsIrecv
  rw [hreq]
  dsimp only
  rw [hprocess]
  dsimp only
  set req' : Req β := { req with
    medium
    posted := segs
    completed := if req.recvPartial = true then req.completed else req.completed + 1 } with hreq'
  have hplace : req'.place = req.place := rfl
  have hset := h.table.set hreq hm hplace (fun x hx => .inl hx) (fun x hx => hx) hinv'
    h.table.ordered fun k => ?_
  · have hfirst : State.firstPartial { s with reqs := s.reqs.set i req' } = s.firstPartial := by
      unfold State.firstPartial
      dsimp only
      split
      · rfl
      · rw [Table.map_place_set hreq hplace]
    refine ⟨h.fault, h.expected, ?_, ?_, hset, fun req'' hreq'' => ?_, ?_⟩
    · rw [hfirst]
      exact h.frag
    · rw [hfirst]
      exact h.window
    · rcases List.mem_or_eq_of_mem_set hreq'' with hreq'' | rfl
      · exact h.begun req'' hreq''
      · exact fun hnew => h.begun req hmem (hmask.symm.trans hnew)
    · unfold WithHandler
      rw [hfirst]
      exact h.calls
  · split
    · rename_i hki
      subst hki
      rw [h.table.mem k]
      constructor
      · rintro ⟨req'', hreq'', hincomplete⟩
        cases hreq.symm.trans hreq''
        exact hincomplete
      · intro hincomplete
        exact ⟨req, hreq, hincomplete⟩
    · rfl

/-- Every step keeps it. -/
theorem step (h : Inv messages start s) {a : Action β} (hok : Proper messages start s a)
    (hstep : step messages start s a = some s') : Inv messages start s' := by
  cases a with
  | recv place j outcome =>
      obtain ⟨⟨hold, hnear⟩, hcalls, hmsg⟩ := hok
      obtain ⟨-, hstep⟩ := Option.ite_none_left_eq_some.1 hstep
      obtain ⟨msg, hpacket, rfl⟩ := Option.map_eq_some_iff.1 hstep
      obtain ⟨hcopies, hstart⟩ := hmsg msg hpacket
      exact h.processOrderedRecv hpacket hold hnear hcalls hcopies hstart
  | handlerReturn k outcome =>
      obtain ⟨msg, hk, rfl⟩ := Option.map_eq_some_iff.1 hstep
      rcases h.calls with hnil | ⟨msg', hcalls, ⟨j, hpacket⟩, hnear⟩
      · rw [hnil] at hk
        exact nomatch hk
      · rw [hcalls] at hk
        obtain rfl := List.mem_singleton.1 (List.mem_of_getElem? hk)
        have hlt := (List.getElem?_eq_some_iff.1 hk).1
        obtain rfl : k = 0 := by
          rw [List.length_singleton] at hlt
          omega
        have hnone : s.calls.eraseIdx 0 = [] := by rw [hcalls]; rfl
        have hreturned : Inv messages start
            { s with calls := s.calls.eraseIdx 0, progressionDisabled := false } :=
          ⟨h.fault, h.expected, h.frag, h.window, h.table, h.begun, .inl hnone⟩
        exact hreturned.matchNext hpacket hnear hnone (hok msg (by rw [hcalls]; rfl))
  | otherHandler called =>
      cases hstep
      exact ⟨h.fault, h.expected, h.frag, h.window, h.table, h.begun, h.calls⟩
  | irecv i segs =>
      obtain ⟨hunexpected, hstep⟩ := Option.ite_none_right_eq_some.1 hstep
      cases hstep
      obtain ⟨req, hreq, hunexpected⟩ := (Option.any_eq_true _ _).1 hunexpected
      exact h.completeUnexpAsIrecv hreq hunexpected (hok req hreq)

theorem init : Inv messages start (init start) where
  fault := rfl
  expected := (Nat.mod_eq_of_lt start.num_lt).symm
  frag := (Nat.mod_eq_of_lt start.num_lt).symm
  window := by
    show 0 < 0 + 2 ^ 14
    omega
  table := ⟨nofun, List.Pairwise.nil, nofun, nofun, List.Pairwise.nil, fun i => ⟨nofun, nofun⟩⟩
  begun := nofun
  calls := .inl rfl

theorem reassembled (h : Inv messages start s) : s.Reassembled messages where
  fault := h.fault
  once := h.table.sorted.imp ne_of_lt
  right := fun req hreq => by
    obtain ⟨m, hm, hinv⟩ := h.table.each req hreq
    exact ⟨m, hm, hinv.right⟩

end Inv

/-- In every run of proper steps, of any messages, each has one request at most, which completes
once, when all fragments came, and then holds what fits of the message, and nothing else. -/
theorem mediums_reassembled (messages : ℕ → Option (Message β fragLengthMax)) (start : Seqnum)
    (s : State β) (h : (machine messages start).Reaches (Proper messages start) s) :
    s.Reassembled messages :=
  Inv.reassembled (h.invariant Inv.init fun _ _ _ hs hok hstep => Inv.step hs hok hstep)

/-- A message of three fragments, and one of two. -/
def twoMessages (place : ℕ) : Option (Message ℕ 4) :=
  if place = 0 then some ⟨[0, 1, 2, 3, 4, 5, 6, 7, 8, 9], by decide⟩
  else if place = 1 then some ⟨[20, 21, 22, 23, 24, 25], by decide⟩
  else none

/-- The last fragment of the first comes first, and is shown to the handler; the others come mixed
with those of the second, in a receive that is shorter, and a receive of two segments matches the
first in the end. -/
def mixedFragments : List (Action ℕ) :=
  [.recv 0 2 none, .otherHandler false, .recv 1 1 none, .handlerReturn 0 (.unexpected fun _ => 0),
    .recv 1 1 (some (.posted [[0, 0, 0, 0]])), .recv 0 0 none, .recv 0 0 none, .recv 1 0 none,
    .recv 0 1 none, .irecv 0 [[0, 0, 0], [0, 0, 0, 0, 0, 0, 0, 0]]]

theorem mediums_reassembled_mixed : ∃ s,
    (machine twoMessages 1#16).exec (init 1#16) mixedFragments = some s ∧
      s.Reassembled twoMessages := by
  obtain ⟨s, hs⟩ := Option.isSome_iff_exists.1
    (show ((machine twoMessages 1#16).exec (init 1#16) mixedFragments).isSome = true by decide)
  exact ⟨s, hs, mediums_reassembled twoMessages 1#16 s ⟨mixedFragments, by decide, hs⟩⟩

/-- The second fragment of a message comes first and the message is not expected; a receive of two
segments matches it, and then the first fragment comes. -/
theorem mediums_not_reassembled : ¬ ∀ (fragLengthMax : ℕ)
    (messages : ℕ → Option (Message ℕ fragLengthMax)) (start : Seqnum) (as : List (Action ℕ))
    (s : State ℕ), (machine messages start).exec (init start) as = some s →
      s.Reassembled messages := by
  intro h
  have hright := h 4 twoMessages 1#16 [.recv 0 1 (some (.unexpected fun _ => 0)),
    .irecv 0 [[0, 0, 0], [0, 0, 0, 0, 0, 0, 0]], .recv 0 0 none] _ rfl
  exact absurd hright.fault (by decide)

end Xen2mx.Reassembly
