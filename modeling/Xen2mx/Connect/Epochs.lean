/-
# `Xen2mx.Connect.Epochs` — who goes by which receive numbers

A side sends from the number that its peer last told it to, and its peer drops what is not
from the number that it expects.  The peer rewrites that number when it cleans its partner
up, and again at the next request of a side that it has no back session id for.  A side that
has the session id of the peer already keeps its own number all the same:

    left                            right
    connect, lost                                          left expects 1
    cleanup                                                left expects 0x70f1
    connect                 →       goes by 0x70f1
    goes by 1               ←       reply
    starts over at 0x4001   ←       connect                left has no back session id
    reply 0x4001            →       still goes by 0x70f1   right has the session id

so that from then on every message of the right side is obsolete.

**Proved here.**

    a number is what the peer expects, if it was issued in the epoch the peer is in   (`Inv.step`)
    both sides go by numbers of the epoch the other is in
        ⟹  the next message is the expected one                                       (`Inv.inStep`)
-/
import Xen2mx.Connect.Handshake

namespace Xen2mx.Connect

open Isend (Seqnum)

/-! ## What the handlers do to the sequence numbers -/

theorem sesnum_xor_eq_zero {x y : Seqnum} (h : x.sesnum = y.sesnum) : (x ^^^ y).sesnum = 0 := by
  have hxor : (x ^^^ y).sesnum = x.sesnum ^^^ y.sesnum := by
    simp only [Seqnum.sesnum]
    ext i hi
    simp [Bool.and_xor_distrib_right]
  rw [hxor, h, BitVec.xor_self]
  rfl

namespace Partner

variable (partner : Partner) {sessionId : BitVec 32}

/-- Both receive sequence numbers are of one session. -/
def SameSession : Prop := partner.nextMatchRecvSeq.sesnum = partner.nextFragRecvSeq.sesnum

theorem sameSession_reset : partner.reset.SameSession := rfl

theorem sameSession_disconnect : partner.disconnect.SameSession :=
  sesnum_disconnect partner.nextMatchRecvSeq

theorem cleaned_of_changed (h : partner.Changed sessionId) :
    partner.cleaned sessionId = partner.reset := if_pos h

theorem cleaned_of_not_changed (h : ¬ partner.Changed sessionId) :
    partner.cleaned sessionId = partner := if_neg h

theorem SameSession.cleaned {partner : Partner} (h : partner.SameSession) :
    (partner.cleaned sessionId).SameSession := by
  by_cases hchanged : partner.Changed sessionId
  · rw [cleaned_of_changed _ hchanged]
    exact partner.sameSession_reset
  · rw [cleaned_of_not_changed _ hchanged]
    exact h

/-- `resetSendSeq` only writes the send sequence numbers. -/
theorem resetSendSeq_recv (start : Seqnum) :
    (partner.resetSendSeq sessionId start).nextMatchRecvSeq = partner.nextMatchRecvSeq ∧
      (partner.resetSendSeq sessionId start).nextFragRecvSeq = partner.nextFragRecvSeq := by
  rw [resetSendSeq]
  split <;> exact ⟨rfl, rfl⟩

theorem SameSession.processRecvConnectRequest {partner : Partner} (h : partner.SameSession)
    (event : EvtRecvConnectRequest) : (partner.processRecvConnectRequest event).SameSession := by
  unfold Partner.processRecvConnectRequest
  dsimp only
  rw [SameSession]
  dsimp only
  rw [(resetSendSeq_recv _ _).1, (resetSendSeq_recv _ _).2]
  split
  · have hcleaned : (partner.cleaned event.srcSessionId).SameSession := h.cleaned
    rw [SameSession] at hcleaned
    dsimp only
    rw [sesnum_seqnumReset, sesnum_seqnumReset, hcleaned]
  · exact h

theorem SameSession.handleConnectReply {partner : Partner} (h : partner.SameSession)
    (event : EvtRecvConnectReply) : (partner.handleConnectReply event).SameSession := by
  have hcleaned : (partner.cleaned event.targetSessionId).SameSession := h.cleaned
  rw [SameSession] at hcleaned ⊢
  unfold Partner.handleConnectReply
  dsimp only
  rw [(resetSendSeq_recv _ _).1, (resetSendSeq_recv _ _).2, hcleaned]

theorem handleConnectReply_nextMatchRecvSeq (event : EvtRecvConnectReply) :
    (partner.handleConnectReply event).nextMatchRecvSeq =
      (partner.cleaned event.targetSessionId).nextMatchRecvSeq :=
  (resetSendSeq_recv _ _).1

theorem processRecvConnectRequest_nextSendSeq (event : EvtRecvConnectRequest) :
    (partner.processRecvConnectRequest event).nextSendSeq =
      ((partner.cleaned event.srcSessionId).resetSendSeq event.srcSessionId
        event.targetRecvSeqnumStart).nextSendSeq := by
  unfold Partner.processRecvConnectRequest
  dsimp only
  by_cases hback : partner.backSessionId ≠ event.srcSessionId
  · rw [if_pos hback, resetSendSeq, resetSendSeq]
    dsimp only
    split <;> rfl
  · have hcleaned : partner.cleaned event.srcSessionId = partner :=
      cleaned_of_not_changed _ fun hchanged => hback hchanged.1
    rw [if_neg hback, hcleaned]

end Partner

namespace Side

variable {side : Side}

/-! ## Epochs -/

/-- A number that the side told its peer in this epoch. -/
structure Issued (side : Side) (epoch : ℕ) (seqnum : Seqnum) : Prop where
  le : epoch ≤ side.epoch
  eq : epoch = side.epoch → seqnum = side.partner.nextMatchRecvSeq
  session : side.since ≤ epoch → seqnum.sesnum = side.partner.nextMatchRecvSeq.sesnum

/-- The side goes on: if it rewrites its number then in a later epoch, and if it takes other
session bits then from that epoch on. -/
structure Follows (side' side : Side) : Prop where
  le : side.epoch ≤ side'.epoch
  eq : side.epoch = side'.epoch →
    side.partner.nextMatchRecvSeq = side'.partner.nextMatchRecvSeq
  session : side'.since ≤ side.epoch → side.since = side'.since ∧
    side.partner.nextMatchRecvSeq.sesnum = side'.partner.nextMatchRecvSeq.sesnum

theorem issued_now : side.Issued side.epoch side.partner.nextMatchRecvSeq :=
  ⟨le_rfl, fun _ => rfl, fun _ => rfl⟩

theorem Issued.follows {side' : Side} {epoch : ℕ} {seqnum : Seqnum}
    (h : side.Issued epoch seqnum) (hfollows : side'.Follows side) :
    side'.Issued epoch seqnum where
  le := h.le.trans hfollows.le
  eq := by
    intro heq
    have hepoch : side.epoch = side'.epoch := le_antisymm hfollows.le (heq ▸ h.le)
    rw [h.eq (heq.trans hepoch.symm), hfollows.eq hepoch]
  session := by
    intro hsince
    obtain ⟨hsame, hsession⟩ := hfollows.session (hsince.trans h.le)
    rw [h.session (hsame.le.trans hsince), hsession]

theorem follows_of_write {side' : Side} (hepoch : side'.epoch = (side.write side'.partner).epoch)
    (hsince : side'.since = (side.write side'.partner).since) : side'.Follows side where
  le := by
    rw [hepoch, write]
    dsimp only
    split
    · exact le_rfl
    · exact Nat.le_succ _
  eq := by
    rw [hepoch, write]
    dsimp only
    split
    · rename_i hsame
      exact fun _ => hsame.symm
    · intro h
      omega
  session := by
    rw [hsince, write]
    dsimp only
    split
    · rename_i hsame
      exact fun _ => ⟨rfl, hsame.symm⟩
    · intro h
      omega

/-- What `hear` says of the number that `resetSendSeq` leaves. -/
theorem hear_eq_some {sessionId : BitVec 32} {epoch e : ℕ} (start : Seqnum)
    (h : side.hear sessionId epoch = some e) :
    (e = epoch ∧
        ((side.partner.cleaned sessionId).resetSendSeq sessionId start).nextSendSeq = start) ∨
      (side.heard = some e ∧
        ((side.partner.cleaned sessionId).resetSendSeq sessionId start).nextSendSeq =
          side.partner.nextSendSeq) := by
  unfold hear at h
  unfold Partner.resetSendSeq
  by_cases htrue : (side.partner.cleaned sessionId).trueSessionId ≠ sessionId
  · rw [if_pos htrue] at h
    rw [if_pos htrue]
    exact .inl ⟨(Option.some.inj h).symm, rfl⟩
  · rw [if_neg htrue] at h
    rw [if_neg htrue]
    by_cases hchanged : side.partner.Changed sessionId
    · rw [if_pos hchanged] at h
      cases h
    · rw [if_neg hchanged] at h
      rw [Partner.cleaned_of_not_changed _ hchanged]
      exact .inr ⟨h, rfl⟩

end Side

/-! ## The invariant -/

/-- What is in flight, and what a side goes by, was issued by the other side. -/
structure Inv (s : State) : Prop where
  net : ∀ msg ∈ s.net, (s.side (!msg.dst)).Issued msg.epoch msg.packet.targetRecvSeqnumStart
  sends : ∀ x e, (s.side x).heard = some e →
    (s.side (!x)).Issued e (s.side x).partner.nextSendSeq
  session : ∀ x, (s.side x).partner.SameSession

namespace Inv

variable {s : State}

theorem init : Inv .init :=
  { net := fun _ h => nomatch h
    sends := fun _ _ h => nomatch h
    session := fun _ => Partner.sameSession_reset _ }

theorem drop (h : Inv s) (i : ℕ) : Inv (s.drop i) :=
  { net := fun msg hmsg => h.net msg (List.mem_of_mem_eraseIdx hmsg)
    sends := h.sends
    session := h.session }

theorem send (h : Inv s) {msg : Msg}
    (hmsg : (s.side (!msg.dst)).Issued msg.epoch msg.packet.targetRecvSeqnumStart) :
    Inv (s.send msg) where
  net := by
    intro msg' hmem
    rcases List.mem_append.1 hmem with hmem | hmem
    · exact h.net msg' hmem
    · cases List.mem_singleton.1 hmem
      exact hmsg
  sends := h.sends
  session := h.session

/-- One side changes: it follows itself, and goes by what the other one issued. -/
theorem set (h : Inv s) {x : Bool} {side : Side} (hfollows : side.Follows (s.side x))
    (hsends : ∀ e, side.heard = some e → (s.side (!x)).Issued e side.partner.nextSendSeq)
    (hsession : side.partner.SameSession) : Inv (s.set x side) where
  net := by
    intro msg hmsg
    have hissued := h.net msg hmsg
    by_cases hdst : msg.dst = x
    · rw [hdst, State.set_side_not]
      rw [hdst] at hissued
      exact hissued
    · have hx : (!msg.dst) = x := by rw [Bool.eq_not_of_ne hdst, Bool.not_not]
      rw [hx, State.set_side_self]
      rw [hx] at hissued
      exact hissued.follows hfollows
  sends := by
    intro y e hheard
    by_cases hy : y = x
    · subst hy
      rw [State.set_side_self] at hheard
      rw [State.set_side_self, State.set_side_not]
      exact hsends e hheard
    · obtain rfl := Bool.eq_not_of_ne hy
      rw [State.set_side_not] at hheard
      have hissued := h.sends _ e hheard
      rw [Bool.not_not] at hissued ⊢
      rw [State.set_side_self, State.set_side_not]
      exact hissued.follows hfollows
  session := by
    intro y
    by_cases hy : y = x
    · subst hy
      rw [State.set_side_self]
      exact hsession
    · obtain rfl := Bool.eq_not_of_ne hy
      rw [State.set_side_not]
      exact h.session _

/-- A side that keeps its sequence numbers. -/
theorem set_same (h : Inv s) {x : Bool} {side : Side}
    (hepoch : side.epoch = (s.side x).epoch) (hsince : side.since = (s.side x).since)
    (hheard : side.heard = (s.side x).heard)
    (hmatch : side.partner.nextMatchRecvSeq = (s.side x).partner.nextMatchRecvSeq)
    (hfrag : side.partner.nextFragRecvSeq = (s.side x).partner.nextFragRecvSeq)
    (hsend : side.partner.nextSendSeq = (s.side x).partner.nextSendSeq) : Inv (s.set x side) := by
  have hfollows : side.Follows (s.side x) :=
    ⟨hepoch.ge, fun _ => hmatch.symm, fun _ => ⟨hsince.symm, by rw [hmatch]⟩⟩
  refine h.set hfollows (fun e he => ?_) ?_
  · rw [hsend]
    exact h.sends x e (hheard ▸ he)
  · have hsession := h.session x
    rw [Partner.SameSession] at hsession ⊢
    rw [hmatch, hfrag, hsession]

theorem renew (h : Inv s) (x : Bool) {partner : Partner} (hsession : partner.SameSession) :
    Inv (s.set x ((s.side x).renew partner)) :=
  h.set (Side.follows_of_write rfl rfl) (fun _ he => nomatch he) hsession

theorem post (h : Inv s) (p : Peers) (x : Bool) (req : ConnectReq) : Inv (s.post p x req) := by
  refine h.send ?_
  dsimp only
  rw [Bool.not_not]
  exact Side.issued_now

/-- What a side goes by once `resetSendSeq` was offered a number in flight. -/
theorem hear (h : Inv s) {x : Bool} {sessionId : BitVec 32} {epoch e : ℕ} {start : Seqnum}
    (hissued : (s.side (!x)).Issued epoch start)
    (he : (s.side x).hear sessionId epoch = some e) :
    (s.side (!x)).Issued e
      (((s.side x).partner.cleaned sessionId).resetSendSeq sessionId start).nextSendSeq := by
  rcases Side.hear_eq_some start he with ⟨rfl, hsend⟩ | ⟨hheard, hsend⟩
  · rw [hsend]
    exact hissued
  · rw [hsend]
    exact h.sends x e hheard

theorem processRecvConnectRequest (h : Inv s) {x : Bool} {event : EvtRecvConnectRequest}
    {epoch : ℕ} (hissued : (s.side (!x)).Issued epoch event.targetRecvSeqnumStart) :
    Inv (s.set x ((s.side x).processRecvConnectRequest event epoch)) := by
  refine h.set (Side.follows_of_write rfl rfl) (fun e he => ?_) ((h.session x).processRecvConnectRequest _)
  have hsends := h.hear hissued he
  rw [← Partner.processRecvConnectRequest_nextSendSeq] at hsends
  exact hsends

theorem processRecvConnectReply (h : Inv s) {x : Bool} {event : EvtRecvConnectReply} {epoch : ℕ}
    (sessionId : BitVec 32) (hissued : (s.side (!x)).Issued epoch event.targetRecvSeqnumStart) :
    Inv (s.set x ((s.side x).processRecvConnectReply sessionId event epoch)) := by
  unfold Side.processRecvConnectReply Side.handleConnectReply
  split
  · split
    · exact h.set (Side.follows_of_write rfl rfl) (fun e he => h.hear hissued he)
        ((h.session x).handleConnectReply _)
    · exact h.set_same rfl rfl rfl rfl rfl rfl
    · exact h.set_same rfl rfl rfl rfl rfl rfl
  · exact h.set_same rfl rfl rfl rfl rfl rfl

theorem recv (h : Inv s) (p : Peers) {msg : Msg}
    (hissued : (s.side (!msg.dst)).Issued msg.epoch msg.packet.targetRecvSeqnumStart) :
    Inv (s.recv p msg) := by
  obtain ⟨dst, packet, epoch⟩ := msg
  cases packet with
  | connectRequest event =>
      refine (h.processRecvConnectRequest hissued).send ?_
      dsimp only
      rw [Bool.not_not, State.set_side_self]
      exact Side.issued_now
  | connectReply event => exact h.processRecvConnectReply _ hissued

theorem step (p : Peers) {s s' : State} {a : Action} (h : Inv s) (hs : s.step p a = some s') :
    Inv s' := by
  cases a with
  | connect x appKey =>
      cases hs
      have hconnect : Inv (s.set x ((s.side x).connect appKey)) :=
        h.set_same rfl rfl rfl rfl rfl rfl
      exact hconnect.post p x _
  | resend x i =>
      obtain ⟨req, -, rfl⟩ := Option.map_eq_some_iff.1 hs
      exact h.post p x req
  | giveUp x i =>
      cases hs
      exact h.set_same rfl rfl rfl rfl rfl rfl
  | cleanup x =>
      cases hs
      exact h.renew x (Partner.sameSession_disconnect _)
  | disconnect x =>
      cases hs
      exact h.renew x (Partner.sameSession_reset _)
  | reopen x =>
      cases hs
      exact h.set (Side.follows_of_write rfl rfl) (fun _ he => nomatch he) (Partner.sameSession_reset _)
  | lose i =>
      cases hs
      exact h.drop i
  | recv i =>
      obtain ⟨msg, hmsg, rfl⟩ := Option.map_eq_some_iff.1 hs
      exact (h.drop i).recv p (h.net msg (List.mem_of_getElem? hmsg))

end Inv

/-! ## The next message -/

/-- What a side sends next is the number that the other one expects, and is accepted. -/
def State.InStep (s : State) (x : Bool) : Prop :=
  (s.side x).partner.nextSendSeq = (s.side (!x)).partner.nextMatchRecvSeq ∧
    (s.side (!x)).partner.processRecv (s.side x).partner.nextSendSeq
      (s.side x).partner.neededAck = .expected

instance (s : State) (x : Bool) : Decidable (s.InStep x) := inferInstanceAs (Decidable (_ ∧ _))

theorem Partner.processRecv_expected {partner : Partner} {piggyack : Seqnum}
    (hsession : partner.SameSession) (hpiggyack : piggyack.sesnum = partner.nextSendSeq.sesnum) :
    partner.processRecv partner.nextMatchRecvSeq piggyack = .expected := by
  unfold Partner.processRecv
  dsimp only
  rw [if_neg (not_not.2 (sesnum_xor_eq_zero hsession)),
    if_neg (not_not.2 (sesnum_xor_eq_zero hpiggyack)), if_pos le_rfl,
    if_pos (Seqnum.num_sub_self _)]

/-- A side goes by the number of the epoch that the other one is in, which goes by one of the
session this side is in. -/
theorem Inv.inStep {s : State} (h : Inv s) {x : Bool} {e : ℕ}
    (hsends : (s.side x).heard = some (s.side (!x)).epoch)
    (hreceives : (s.side (!x)).heard = some e) (hsince : (s.side x).since ≤ e) : s.InStep x := by
  have hsend : (s.side x).partner.nextSendSeq = (s.side (!x)).partner.nextMatchRecvSeq :=
    (h.sends x _ hsends).eq rfl
  have hback := h.sends (!x) e hreceives
  rw [Bool.not_not] at hback
  have hpiggyack : (s.side x).partner.neededAck.sesnum =
      (s.side (!x)).partner.nextSendSeq.sesnum := by
    rw [hback.session hsince, Partner.neededAck]
    exact (h.session x).symm
  refine ⟨hsend, ?_⟩
  rw [hsend]
  exact Partner.processRecv_expected (h.session (!x)) hpiggyack

/-- The success reply that the action has processed for the current connect attempt, with the
side it is for and the epoch it was sent in. -/
def State.connecting (p : Peers) (s : State) : Action → Option (Bool × EvtRecvConnectReply × ℕ)
  | .recv i =>
      match s.net[i]? with
      | some ⟨x, .connectReply event, epoch⟩ =>
          if (s.side x).Awaits (s.sessionId p x) event ∧ event.connectStatusCode = .success then
            some (x, event, epoch)
          else none
      | _ => none
  | _ => none

/-- The number that the side is going to send from, its own or that of the reply, is of the
epoch the other side is in.  The other side goes by a number of the session this side is in. -/
structure State.Fresh (s : State) (x : Bool) (event : EvtRecvConnectReply) (epoch : ℕ) :
    Prop where
  sends : (s.side x).hear event.targetSessionId epoch = some (s.side (!x)).epoch
  receives : ∃ e ∈ (s.side (!x)).heard, (s.side x).since ≤ e

instance (s : State) (x : Bool) (event : EvtRecvConnectReply) (epoch : ℕ) :
    Decidable (s.Fresh x event epoch) :=
  decidable_of_iff
    ((s.side x).hear event.targetSessionId epoch = some (s.side (!x)).epoch ∧
      ∃ e ∈ (s.side (!x)).heard, (s.side x).since ≤ e)
    ⟨fun h => ⟨h.1, h.2⟩, fun h => ⟨h.sends, h.receives⟩⟩

def InTime (p : Peers) (s : State) (a : Action) : Prop :=
  ∀ r ∈ s.connecting p a, s.Fresh r.1 r.2.1 r.2.2

instance (p : Peers) (s : State) (a : Action) : Decidable (InTime p s a) :=
  inferInstanceAs (Decidable (∀ r ∈ s.connecting p a, _))

/-- A side that has processed a success reply is in step. -/
def Synchronises (p : Peers) (s : State) (a : Action) : Prop :=
  ∀ r ∈ s.connecting p a, ∀ s' ∈ s.step p a, s'.InStep r.1

instance (p : Peers) (s : State) (a : Action) : Decidable (Synchronises p s a) :=
  have : DecidablePred fun r : Bool × EvtRecvConnectReply × ℕ =>
      ∀ s' ∈ s.step p a, s'.InStep r.1 :=
    fun r => inferInstanceAs (Decidable (∀ s' ∈ s.step p a, s'.InStep r.1))
  inferInstanceAs (Decidable (∀ r ∈ s.connecting p a, _))

theorem State.connecting_eq_some {p : Peers} {s : State} {a : Action} {x : Bool}
    {event : EvtRecvConnectReply} {epoch : ℕ} (h : s.connecting p a = some (x, event, epoch)) :
    ∃ i, a = .recv i ∧ s.net[i]? = some ⟨x, .connectReply event, epoch⟩ ∧
      (s.side x).Awaits (s.sessionId p x) event ∧ event.connectStatusCode = .success := by
  unfold State.connecting at h
  split at h
  · rename_i i
    split at h
    · rename_i hmsg
      split at h
      · rename_i hawaits
        cases h
        exact ⟨i, rfl, hmsg, hawaits⟩
      · cases h
    · cases h
  · cases h

theorem Partner.handleConnectReply_sesnum (partner : Partner) (event : EvtRecvConnectReply) :
    (partner.handleConnectReply event).nextMatchRecvSeq.sesnum =
      partner.nextMatchRecvSeq.sesnum := by
  rw [handleConnectReply_nextMatchRecvSeq, cleaned]
  split
  · exact sesnum_seqnumReset _
  · rfl

/-- After a success reply the side goes by its number, and is still in its session. -/
theorem Side.processRecvConnectReply_success {side : Side} {sessionId : BitVec 32}
    {event : EvtRecvConnectReply} (epoch : ℕ) (hawaits : side.Awaits sessionId event)
    (hsuccess : event.connectStatusCode = .success) :
    (side.processRecvConnectReply sessionId event epoch).since = side.since ∧
      (side.processRecvConnectReply sessionId event epoch).heard =
        side.hear event.targetSessionId epoch := by
  rw [processRecvConnectReply, if_pos hawaits, handleConnectReply, hsuccess]
  exact ⟨if_pos (side.partner.handleConnectReply_sesnum event), rfl⟩

theorem synchronises_of_inTime {p : Peers} {s : State} {a : Action} (h : Inv s)
    (htime : InTime p s a) : Synchronises p s a := by
  rintro ⟨x, event, epoch⟩ hr s' hs
  have hfresh := htime _ hr
  obtain ⟨i, rfl, hmsg, hawaits, hsuccess⟩ := State.connecting_eq_some hr
  have hinv := h.step p hs
  have hs' : s' = (s.drop i).recv p ⟨x, .connectReply event, epoch⟩ := by
    obtain ⟨msg, hget, rfl⟩ := Option.map_eq_some_iff.1 hs
    cases hmsg.symm.trans hget
    rfl
  have hself : s'.side x =
      (s.side x).processRecvConnectReply (s.sessionId p x) event epoch := by
    rw [hs']
    exact State.set_side_self _ _ _
  have hother : s'.side (!x) = s.side (!x) := by
    rw [hs']
    exact State.set_side_not _ _ _
  obtain ⟨hsince, hheard⟩ := Side.processRecvConnectReply_success epoch hawaits hsuccess
  obtain ⟨e, he, hle⟩ := hfresh.receives
  apply hinv.inStep
  · rw [hself, hother, hheard]
    exact hfresh.sends
  · rw [hother]
    exact he
  · rw [hself, hsince]
    exact hle

/-- In every run in which each success reply is processed while the numbers it is about are
those the two sides are still in, the side that processes it is in step with its peer. -/
theorem machine_synchronises (p : Peers) {as : List Action}
    (h : (machine p).Meets (InTime p) (machine p).init as) :
    (machine p).Meets (Synchronises p) (machine p).init as := by
  have hstep : ∀ s a s', Inv s → InTime p s a → (machine p).step s a = some s' → Inv s' :=
    fun _ _ _ hinv _ hs => hinv.step p hs
  have himp : ∀ s a, Inv s → InTime p s a → Synchronises p s a :=
    fun _ _ hinv htime => synchronises_of_inTime hinv htime
  exact h.imp hstep himp Inv.init

/-- Two endpoints of one application. -/
def Peers.pair : Peers :=
  { sessionId := fun x n => cond x 7 1000 + BitVec.ofNat 32 n
    appKey := fun _ => 42 }

/-- Both sides connect to each other at the same time. -/
theorem machine_synchronises_crossing :
    (machine .pair).Meets (Synchronises .pair) (machine .pair).init
      [.connect true 42, .connect false 42, .recv 0, .recv 0, .recv 0, .recv 0] :=
  machine_synchronises .pair (by decide)

/-- The left side gives its first attempt up and connects again.  Then the right side connects
to it, and its first message is dropped. -/
theorem machine_not_synchronises :
    ¬ ∀ (p : Peers) (as : List Action), (∀ a ∈ as, ∀ x, a ≠ .disconnect x ∧ a ≠ .reopen x) →
      (machine p).Meets (Synchronises p) (machine p).init as := by
  intro h
  have hrun : ¬ (machine .pair).Meets (Synchronises .pair) (machine .pair).init
      [.connect true 42, .lose 0, .cleanup true, .connect true 42, .recv 0, .recv 0,
        .connect false 42, .recv 0, .recv 0] := by
    decide
  exact hrun (h _ _ (by decide))

end Xen2mx.Connect
