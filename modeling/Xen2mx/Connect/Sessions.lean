/-
# `Xen2mx.Connect.Sessions` — the session ids of a partner

Messages that start something carry the `true_session_id` of the partner, and those that go
back, which are acks, pulls and notifies, its `back_session_id`.  The rules above
`omx__partner_reset` have a connect reply set both.  The handler of the reply sets the first:

                              true_session_id     back_session_id
    connect request           the requester's     the requester's
    connect reply             the replier's       kept, or unknown if it was another one
    cleanup                   unknown             unknown

so that a side that connects and is not connected to acks to the session 0xffffffff.

**Proved here.**  Both ids are the peer's in every state of a run exactly when each success
reply finds the back one set (`machine_rules_iff`).
-/
import Xen2mx.Connect.Epochs

namespace Xen2mx.Connect

namespace Partner

/-- The session id of `omx__submit_send_liback`, `omx__submit_pull` and `omx__setup_notify`. -/
def sessionIdBack (partner : Partner) : BitVec 32 := partner.backSessionId

variable (partner : Partner)

theorem processRecvConnectRequest_sessionId (event : EvtRecvConnectRequest) :
    (partner.processRecvConnectRequest event).trueSessionId = event.srcSessionId ∧
      (partner.processRecvConnectRequest event).backSessionId = event.srcSessionId := ⟨rfl, rfl⟩

/-- What goes back to a replier after its reply carries its session id if that was known. -/
theorem handleConnectReply_sessionIdBack {event : EvtRecvConnectReply}
    (h : event.targetSessionId ≠ unknownSession) :
    (partner.handleConnectReply event).sessionIdBack = event.targetSessionId ↔
      partner.sessionIdBack = event.targetSessionId := by
  have hkeep : (partner.handleConnectReply event).sessionIdBack =
      (partner.cleaned event.targetSessionId).backSessionId := by
    rw [sessionIdBack, handleConnectReply, resetSendSeq]
    dsimp only
    split <;> rfl
  rw [hkeep]
  by_cases hchanged : partner.Changed event.targetSessionId
  · rw [cleaned_of_changed _ hchanged]
    exact iff_of_false (Ne.symm h) hchanged.1
  · rw [cleaned_of_not_changed _ hchanged]
    rfl

end Partner

/-! ## The rules -/

/-- Once the true session id is known, it is the one that the peer has, and what goes back to
the peer carries it. -/
def State.Rules (p : Peers) (s : State) : Prop :=
  ∀ x, (s.side x).partner.trueSessionId ≠ unknownSession →
    (s.side x).partner.trueSessionId = s.sessionId p (!x) ∧
      (s.side x).partner.sessionIdBack = s.sessionId p (!x)

/-- The session id is unknown, or that of the peer. -/
def State.OfPeer (p : Peers) (s : State) (x : Bool) (sessionId : BitVec 32) : Prop :=
  sessionId = unknownSession ∨ sessionId = s.sessionId p (!x)

instance (p : Peers) (s : State) (x : Bool) (sessionId : BitVec 32) :
    Decidable (s.OfPeer p x sessionId) :=
  inferInstanceAs (Decidable (_ ∨ _))

/-- A packet of the peer is from the endpoint that the peer has open, and if it is the reply to
a connect request, the partner has that session id as the back one already. -/
def State.Arrives (p : Peers) (s : State) (msg : Msg) : Prop :=
  match msg.packet with
  | .connectRequest event => s.OfPeer p msg.dst event.srcSessionId
  | .connectReply event =>
      (s.side msg.dst).Awaits (s.sessionId p msg.dst) event →
        event.connectStatusCode = .success → event.targetSessionId ≠ unknownSession →
          event.targetSessionId = s.sessionId p (!msg.dst) ∧
            (s.side msg.dst).partner.sessionIdBack = event.targetSessionId

/-- An endpoint is only opened again while its session id is not known, or to get it again. -/
def Renews (p : Peers) (s : State) (x : Bool) : Prop :=
  (s.side (!x)).partner.trueSessionId = unknownSession ∨
    p.sessionId x ((s.side x).opened + 1) = s.sessionId p x

def SetsBoth (p : Peers) (s : State) : Action → Prop
  | .reopen x => Renews p s x
  | .recv i => ∀ msg ∈ s.net[i]?, s.Arrives p msg
  | _ => True

/-! ## One side changes -/

section
variable {p : Peers} {s : State}

/-- The rules after a side changes but keeps its session id: those of its partner matter. -/
theorem rules_set_iff (h : s.Rules p) {x : Bool} {side : Side}
    (hopened : side.opened = (s.side x).opened) :
    (s.set x side).Rules p ↔ (side.partner.trueSessionId ≠ unknownSession →
      side.partner.trueSessionId = s.sessionId p (!x) ∧
        side.partner.sessionIdBack = s.sessionId p (!x)) := by
  have hself : (s.set x side).sessionId p x = s.sessionId p x := by
    rw [State.sessionId, State.set_side_self, hopened]
    rfl
  have hother : (s.set x side).sessionId p (!x) = s.sessionId p (!x) := by
    rw [State.sessionId, State.set_side_not]
    rfl
  constructor
  · intro hrules hknown
    have hx := hrules x
    rw [State.set_side_self, hother] at hx
    exact hx hknown
  · intro hside y
    by_cases hy : y = x
    · subst hy
      rw [State.set_side_self, hother]
      exact hside
    · obtain rfl := Bool.eq_not_of_ne hy
      rw [State.set_side_not, Bool.not_not, hself]
      have hrest := h (!x)
      rw [Bool.not_not] at hrest
      exact hrest

/-- What is in flight says nothing about the rules. -/
theorem rules_congr {s' : State} (h : s'.side = s.side) : s'.Rules p ↔ s.Rules p := by
  rw [State.Rules, State.Rules]
  simp only [State.sessionId, h]

/-- A side that keeps the session ids of its partner keeps the rules. -/
theorem State.Rules.set (h : s.Rules p) {x : Bool} {side : Side}
    (hopened : side.opened = (s.side x).opened)
    (htrue : side.partner.trueSessionId = (s.side x).partner.trueSessionId)
    (hback : side.partner.backSessionId = (s.side x).partner.backSessionId) :
    (s.set x side).Rules p := by
  rw [rules_set_iff h hopened, Partner.sessionIdBack, htrue, hback]
  exact h x

theorem State.Rules.renew (h : s.Rules p) (x : Bool) {partner : Partner}
    (htrue : partner.trueSessionId = unknownSession) :
    (s.set x ((s.side x).renew partner)).Rules p := by
  refine (rules_set_iff h ?_).2 fun hknown => absurd htrue hknown
  rfl

theorem State.Rules.post (h : s.Rules p) (x : Bool) (req : ConnectReq) :
    (s.post p x req).Rules p := (rules_congr rfl).2 h

theorem rules_reopen_iff (h : s.Rules p) (x : Bool) :
    (s.set x { (s.side x).renew .create with opened := (s.side x).opened + 1 }).Rules p ↔
      Renews p s x := by
  have hpeer := h (!x)
  rw [Bool.not_not] at hpeer
  constructor
  · intro hrules
    by_cases hknown : (s.side (!x)).partner.trueSessionId = unknownSession
    · exact .inl hknown
    · have hnew := hrules (!x)
      rw [State.set_side_not, Bool.not_not, State.sessionId, State.set_side_self] at hnew
      exact .inr ((hnew hknown).1.symm.trans (hpeer hknown).1)
  · intro hrenews y
    by_cases hy : y = x
    · subst hy
      rw [State.set_side_self]
      exact fun hknown => absurd rfl hknown
    · obtain rfl := Bool.eq_not_of_ne hy
      rw [State.set_side_not, Bool.not_not, State.sessionId, State.set_side_self]
      intro hknown
      have hsame := hrenews.resolve_left hknown
      dsimp only
      rw [hsame]
      exact hpeer hknown

theorem rules_connectRequest_iff (h : s.Rules p) (x : Bool) (event : EvtRecvConnectRequest)
    (epoch : ℕ) :
    (s.set x ((s.side x).processRecvConnectRequest event epoch)).Rules p ↔
      s.OfPeer p x event.srcSessionId := by
  refine (rules_set_iff h ?_).trans ?_
  · rfl
  · rw [State.OfPeer, or_iff_not_imp_left]
    exact imp_congr_right fun _ => and_self_iff

theorem rules_connectReply_iff (h : s.Rules p) (x : Bool) (event : EvtRecvConnectReply)
    (epoch : ℕ) :
    (s.set x ((s.side x).processRecvConnectReply (s.sessionId p x) event epoch)).Rules p ↔
      ((s.side x).Awaits (s.sessionId p x) event → event.connectStatusCode = .success →
        event.targetSessionId ≠ unknownSession →
          event.targetSessionId = s.sessionId p (!x) ∧
            (s.side x).partner.sessionIdBack = event.targetSessionId) := by
  unfold Side.processRecvConnectReply Side.handleConnectReply
  split
  · rename_i hawaits
    split
    · rename_i hsuccess
      refine (rules_set_iff h ?_).trans ?_
      · rfl
      constructor
      · intro hrules _ _ hknown
        obtain ⟨htrue, hback⟩ := hrules hknown
        refine ⟨htrue, ((s.side x).partner.handleConnectReply_sessionIdBack hknown).1 ?_⟩
        exact hback.trans htrue.symm
      · intro hrules hknown
        obtain ⟨htrue, hback⟩ := hrules hawaits hsuccess hknown
        refine ⟨htrue, ?_⟩
        rw [← htrue]
        exact ((s.side x).partner.handleConnectReply_sessionIdBack hknown).2 hback
    · rename_i hbadKey
      exact iff_of_true (h.set rfl rfl rfl) fun _ hsuccess => nomatch hsuccess.symm.trans hbadKey
    · rename_i hinvalid
      exact iff_of_true (h.set rfl rfl rfl) fun _ hsuccess => nomatch hsuccess.symm.trans hinvalid
  · rename_i hawaits
    exact iff_of_true (h.set rfl rfl rfl) fun hawaits' => absurd hawaits' hawaits

theorem rules_recv_iff (h : s.Rules p) (msg : Msg) : (s.recv p msg).Rules p ↔ s.Arrives p msg := by
  obtain ⟨dst, packet, epoch⟩ := msg
  cases packet with
  | connectRequest event => exact (rules_congr rfl).trans (rules_connectRequest_iff h dst event epoch)
  | connectReply event => exact rules_connectReply_iff h dst event epoch

/-- The steps that keep the rules. -/
theorem setsBoth_iff (h : s.Rules p) (a : Action) :
    SetsBoth p s a ↔ ∀ s' ∈ s.step p a, s'.Rules p := by
  cases a with
  | connect x appKey =>
      have hconnect : (s.set x ((s.side x).connect appKey)).Rules p := h.set rfl rfl rfl
      refine iff_of_true trivial fun s' hs => ?_
      cases hs
      exact hconnect.post x _
  | resend x i =>
      refine iff_of_true trivial fun s' hs => ?_
      obtain ⟨req, -, rfl⟩ := Option.map_eq_some_iff.1 hs
      exact h.post x req
  | giveUp x i =>
      refine iff_of_true trivial fun s' hs => ?_
      cases hs
      exact h.set rfl rfl rfl
  | cleanup x =>
      refine iff_of_true trivial fun s' hs => ?_
      cases hs
      exact h.renew x rfl
  | disconnect x =>
      refine iff_of_true trivial fun s' hs => ?_
      cases hs
      exact h.renew x rfl
  | reopen x =>
      refine (rules_reopen_iff h x).symm.trans ⟨fun hrules s' hs => ?_, fun hall => hall _ rfl⟩
      cases hs
      exact hrules
  | lose i =>
      refine iff_of_true trivial fun s' hs => ?_
      cases hs
      exact (rules_congr rfl).2 h
  | recv i =>
      have hdrop : (s.drop i).Rules p := (rules_congr rfl).2 h
      constructor
      · intro harrives s' hs
        obtain ⟨msg, hmsg, rfl⟩ := Option.map_eq_some_iff.1 hs
        exact (rules_recv_iff hdrop msg).2 (harrives msg hmsg)
      · intro hall msg hmsg
        exact (rules_recv_iff hdrop msg).1 (hall _ (Option.map_eq_some_iff.2 ⟨msg, hmsg, rfl⟩))

end

theorem State.init_rules (p : Peers) : State.init.Rules p := fun _ hknown => absurd rfl hknown

/-- In every state of a run both session ids of a partner that is known are those of the peer,
exactly when each success reply comes from the peer that is open and finds its session id set
as the back one, no request of an earlier endpoint of the peer is processed, and no peer that
is known is opened again under another id. -/
theorem machine_rules_iff (p : Peers) (as : List Action) :
    (∀ bs, bs <+: as → ∀ s, (machine p).exec (machine p).init bs = some s → s.Rules p) ↔
      (machine p).Meets (SetsBoth p) (machine p).init as := by
  have hstep : ∀ s a, s.Rules p →
      (SetsBoth p s a ↔ ∀ s' ∈ (machine p).step s a, s'.Rules p) :=
    fun _ a h => setsBoth_iff h a
  have hinv : ∀ s a s', s.Rules p → SetsBoth p s a → (machine p).step s a = some s' →
      s'.Rules p := fun s a s' h hboth hs => (hstep s a h).1 hboth s' hs
  exact (Machine.meets_iff_forall_prefix hinv (fun _ h => h) hstep (State.init_rules p)).symm

/-- After the first handshake, the acks of the side that connected carry an unknown session. -/
theorem machine_not_rules :
    ¬ ∀ (p : Peers) (as : List Action) (s : State),
      (machine p).exec (machine p).init as = some s → s.Rules p := by
  intro h
  have hrun : ∃ s ∈ (machine .pair).exec (machine .pair).init [.connect true 42, .recv 0, .recv 0],
      (s.side true).partner.trueSessionId ≠ unknownSession ∧
        (s.side true).partner.sessionIdBack = unknownSession ∧
        s.sessionId .pair false ≠ unknownSession := by
    decide
  obtain ⟨s, hs, hknown, hback, hpeer⟩ := hrun
  exact hpeer ((h _ _ s hs true hknown).2.symm.trans hback)

end Xen2mx.Connect
