/-
# `Xen2mx.Matching.Turns` — the messages of a partner are handed on once, in their order

What a partner has handed on is in the order of its numbers, from `next_match_recv_seq` back,
as long as it is increased once for each.  A message that is with its handler is still the
expected one.  If another message of its partner comes to be matched then, it is that one again:
both increase the number, and the message after it is taken for an old one (`NotReentered`).

**Proved here.**

    no message comes to be matched while one of its partner is with its handler
        ⟹  every number is handed on once, in its turn        (`Turns.step`)
-/
import Mathlib.Data.List.Nodup
import Xen2mx.Isend.Throttling
import Xen2mx.Matching.Endpoint

namespace Xen2mx.Matching

open Isend (Seqnum)

variable {z : CtxidConfig}

namespace Endpoint

/-- The number that comes after another. -/
def After (seqnum seqnum' : Seqnum) : Prop := (seqnum - seqnum').num = 1

instance (seqnum seqnum' : Seqnum) : Decidable (After seqnum seqnum') :=
  inferInstanceAs (Decidable (_ = _))

/-- The numbers that a partner has handed on, the latest first. -/
def handedOnOf (ep : Endpoint) (partner : ℕ) : List Seqnum :=
  (ep.handedOn.filter fun origin => origin.partner = partner).map Origin.seqnum

/-- Each number up to the expected one was handed on once, in its turn. -/
def InTurn (ep : Endpoint) : Prop :=
  ∀ partner, (ep.nextMatchRecvSeq partner :: ep.handedOnOf partner).IsChain After

/-- No message of the partner is with its handler. -/
def Apart (ep : Endpoint) (origin : Origin) : Prop :=
  ∀ msg ∈ ep.handling, ∀ origin' ∈ msg.origin, origin'.partner ≠ origin.partner

instance (ep : Endpoint) : DecidablePred ep.Apart :=
  fun _ => inferInstanceAs (Decidable (∀ _ ∈ _, ∀ _ ∈ _, _))

/-- A message is not matched while one of its partner is with its handler. -/
def NotReentered (ep : Endpoint) : Action → Prop
  | .recv origin _ _ | .notify origin => ep.Expects origin → ep.Apart origin
  | _ => True

instance (ep : Endpoint) : DecidablePred ep.NotReentered := fun a => by
  unfold NotReentered
  split <;> infer_instance

structure Turns (ep : Endpoint) : Prop where
  inTurn : ep.InTurn
  /-- What a handler looks at is still expected, -/
  expected : ∀ msg ∈ ep.handling, ∀ origin ∈ msg.origin, ep.Expects origin
  /-- and the only message of its partner there. -/
  apart : (ep.handling.filterMap fun msg => msg.origin.map Origin.partner).Nodup

/-- Nothing is handed on, and no handler is called. -/
structure Quiet (ep ep' : Endpoint) : Prop where
  nextMatchRecvSeq : ep'.nextMatchRecvSeq = ep.nextMatchRecvSeq
  handedOn : ep'.handedOn = ep.handedOn
  handling : ep'.handling.Sublist ep.handling

variable {ep ep' : Endpoint}

theorem Quiet.refl (ep : Endpoint) : Quiet ep ep := ⟨rfl, rfl, .refl _⟩

theorem Quiet.trans {ep'' : Endpoint} (h : Quiet ep ep') (h' : Quiet ep' ep'') : Quiet ep ep'' :=
  ⟨h'.nextMatchRecvSeq.trans h.nextMatchRecvSeq, h'.handedOn.trans h.handedOn,
    h'.handling.trans h.handling⟩

theorem Quiet.expects (h : Quiet ep ep') {origin : Origin} (hexpects : ep.Expects origin) :
    ep'.Expects origin := by
  unfold Expects
  rw [h.nextMatchRecvSeq]
  exact hexpects

theorem Quiet.of_eq_rest (ep : Endpoint) (ctxid : BitVec 32 → Ctxid) (unexpReqQ : List Msg)
    (unexpHandler : Bool) (progressionDisabled : ProgressionDisabled) (posted arrived : ℕ)
    (given : List (Msg × Recv)) :
    Quiet ep { ep with ctxid, unexpReqQ, unexpHandler, progressionDisabled, posted, arrived, given } :=
  ⟨rfl, rfl, .refl _⟩

theorem quiet_matchOrEnqueue (ep : Endpoint) (msg : Msg) (alloc : Bool) :
    Quiet ep (ep.matchOrEnqueue z msg alloc).2 := by
  unfold Endpoint.matchOrEnqueue
  split
  · rename_i req ep' hmatch
    obtain ⟨req', -, heq⟩ := Option.map_eq_some_iff.1 hmatch
    cases heq
    exact .of_eq_rest ..
  · split
    · simp only [enqueueUnexp]
      split
      · exact .of_eq_rest ..
      · exact .of_eq_rest ..
    · exact .refl ep

theorem quiet_irecv (ep : Endpoint) (matchInfo matchMask : BitVec 64) (alloc : Bool) :
    Quiet ep (ep.irecv z matchInfo matchMask alloc).2 := by
  simp only [Endpoint.irecv, Endpoint.irecvSegs]
  split
  · exact .refl ep
  split
  · exact .refl ep
  split
  · split
    · exact .of_eq_rest ..
    · exact .of_eq_rest ..
  · split
    · exact .of_eq_rest ..
    · exact .refl ep

theorem nextMatchRecvSeq_expectNext_self (ep : Endpoint) (origin : Origin) :
    (ep.expectNext origin).nextMatchRecvSeq origin.partner =
      (ep.nextMatchRecvSeq origin.partner).increase := Function.update_self ..

theorem nextMatchRecvSeq_expectNext_of_ne {origin : Origin} {partner : ℕ}
    (h : partner ≠ origin.partner) :
    (ep.expectNext origin).nextMatchRecvSeq partner = ep.nextMatchRecvSeq partner :=
  Function.update_of_ne h ..

theorem handedOnOf_expectNext_self (ep : Endpoint) (origin : Origin) :
    (ep.expectNext origin).handedOnOf origin.partner =
      origin.seqnum :: ep.handedOnOf origin.partner := by
  simp [handedOnOf, Endpoint.expectNext]

theorem handedOnOf_expectNext_of_ne {origin : Origin} {partner : ℕ} (h : partner ≠ origin.partner) :
    (ep.expectNext origin).handedOnOf partner = ep.handedOnOf partner := by
  simp [handedOnOf, Endpoint.expectNext, h.symm]

/-- The number that came is the one that was expected, up to the session. -/
theorem isChain_handedOn {next seqnum : Seqnum} {rest : List Seqnum}
    (hsame : (seqnum - next).num = 0) (h : (next :: rest).IsChain After) :
    (next.increase :: seqnum :: rest).IsChain After := by
  have hnum := Seqnum.num_sub seqnum next
  refine .cons_cons ?_ ?_
  · have hone := Seqnum.num_increase_sub_self next
    unfold After
    rw [Seqnum.num_sub] at hone ⊢
    omega
  · cases rest with
    | nil => exact .singleton _
    | cons seqnum' rest =>
        obtain ⟨hafter, hrest⟩ := List.isChain_cons_cons.1 h
        refine .cons_cons ?_ hrest
        unfold After at hafter ⊢
        rw [Seqnum.num_sub] at hafter ⊢
        omega

namespace Turns

theorem init (start : ℕ → Seqnum) : Turns (.init start) :=
  ⟨fun _ => .singleton _, nofun, .nil⟩

theorem congr (h : Turns ep) (hquiet : Quiet ep ep') : Turns ep' where
  inTurn := by
    unfold InTurn handedOnOf
    rw [hquiet.nextMatchRecvSeq, hquiet.handedOn]
    exact h.inTurn
  expected msg hmsg origin horigin :=
    hquiet.expects (h.expected msg (hquiet.handling.subset hmsg) origin horigin)
  apart := h.apart.sublist (hquiet.handling.filterMap _)

/-- The expected message is handed on. -/
theorem expectNext (h : Turns ep) {origin : Origin} (hexpects : ep.Expects origin)
    (hapart : ep.Apart origin) : Turns (ep.expectNext origin) where
  inTurn := by
    intro partner
    by_cases hpartner : partner = origin.partner
    · subst hpartner
      rw [handedOnOf_expectNext_self, nextMatchRecvSeq_expectNext_self]
      exact isChain_handedOn hexpects (h.inTurn origin.partner)
    · rw [handedOnOf_expectNext_of_ne hpartner, nextMatchRecvSeq_expectNext_of_ne hpartner]
      exact h.inTurn partner
  expected := by
    intro msg hmsg origin' horigin'
    unfold Expects
    rw [nextMatchRecvSeq_expectNext_of_ne (hapart msg hmsg origin' horigin')]
    exact h.expected msg hmsg origin' horigin'
  apart := h.apart

/-- Matching is done with a message. -/
theorem matched {msg : Msg} {r : Option ReturnCode × Endpoint} (h : Turns r.2)
    (hexpects : ∀ origin ∈ msg.origin, r.2.Expects origin)
    (hapart : r.1 ≠ none → ∀ origin ∈ msg.origin, r.2.Apart origin) :
    Turns (Endpoint.matched msg r) := by
  unfold Endpoint.matched
  split
  · cases horigin : msg.origin with
    | none => exact h
    | some origin => exact h.expectNext (hexpects origin horigin) (hapart nofun origin horigin)
  · exact h

theorem arrive (h : Turns ep) {origin : Option Origin} (hexpects : ∀ o ∈ origin, ep.Expects o)
    (hapart : ∀ o ∈ origin, ep.Apart o) (matchInfo : BitVec 64) (alloc : Bool) :
    Turns (ep.arrive z origin matchInfo alloc) := by
  unfold Endpoint.arrive Endpoint.tryMatch
  split
  · -- it goes to its handler
    refine matched ⟨h.inTurn, ?_, ?_⟩ hexpects fun hnone => absurd rfl hnone
    · intro msg hmsg o ho
      rcases List.mem_cons.1 hmsg with rfl | hmem
      · exact hexpects o ho
      · exact h.expected msg hmem o ho
    · cases horigin : origin with
      | none => exact h.apart
      | some o =>
          refine List.nodup_cons.2 ⟨fun hmem => ?_, h.apart⟩
          obtain ⟨msg, hmsg, heq⟩ := List.mem_filterMap.1 hmem
          obtain ⟨o', ho', hpartner⟩ := Option.map_eq_some_iff.1 heq
          exact hapart o horigin msg hmsg o' ho' hpartner
  · have hquiet : Quiet ep ({ ep with arrived := ep.arrived + 1 }.matchOrEnqueue z
        ⟨ep.arrived, origin, matchInfo⟩ alloc).2 :=
      .trans (.of_eq_rest ..) (quiet_matchOrEnqueue ..)
    refine matched (h.congr hquiet) (fun o ho => hquiet.expects (hexpects o ho)) fun _ o ho => ?_
    intro msg hmsg o' ho'
    exact hapart o ho msg (hquiet.handling.subset hmsg) o' ho'

theorem handlerReturn (h : Turns ep) {msg : Msg} (hmsg : msg ∈ ep.handling) (ret : HandlerAction)
    (alloc : Bool) : Turns (ep.handlerReturn z msg ret alloc) := by
  have hquiet : Quiet ep { ep with
      progressionDisabled := .no
      handling := ep.handling.erase msg } := ⟨rfl, rfl, List.erase_sublist⟩
  have hexpects := h.expected msg hmsg
  have hapart : ∀ origin ∈ msg.origin, ∀ msg' ∈ ep.handling.erase msg, ∀ origin' ∈ msg'.origin,
      origin'.partner ≠ origin.partner := by
    intro origin horigin msg' hmsg' origin' horigin' hpartner
    have hnodup := (((List.perm_cons_erase hmsg).filterMap
      fun msg => msg.origin.map Origin.partner).nodup_iff).1 h.apart
    rw [List.filterMap_cons_some (b := origin.partner)
      (by rw [Option.mem_def.1 horigin, Option.map_some])] at hnodup
    refine (List.nodup_cons.1 hnodup).1 (List.mem_filterMap.2 ⟨msg', hmsg', ?_⟩)
    rw [Option.mem_def.1 horigin', Option.map_some, hpartner]
  unfold Endpoint.handlerReturn
  cases ret with
  | recvFinished =>
      exact matched (h.congr hquiet) (fun o ho => hquiet.expects (hexpects o ho))
        fun _ => hapart
  | recvContinue =>
      have hmatch := quiet_matchOrEnqueue (z := z) { ep with
        progressionDisabled := .no
        handling := ep.handling.erase msg } msg alloc
      refine matched (h.congr (hquiet.trans hmatch))
        (fun o ho => (hquiet.trans hmatch).expects (hexpects o ho)) fun _ o ho msg' hmsg' => ?_
      exact hapart o ho msg' (hmatch.handling.subset hmsg')

theorem step (h : Turns ep) {a : Action} (hok : ep.NotReentered a)
    (hstep : Matching.step z ep a = some ep') : Turns ep' := by
  cases a with
  | irecv matchInfo matchMask alloc =>
      cases hstep
      exact h.congr (quiet_irecv ..)
  | cancel req =>
      have hstep' : (if _ then _ else _) = _ := hstep
      split at hstep'
      · cases hstep'
        exact h.congr (.of_eq_rest ..)
      · cases hstep'
        exact h
  | recv origin matchInfo alloc =>
      obtain ⟨-, heq⟩ := Option.ite_none_right_eq_some.1 hstep
      cases heq
      unfold processPartnerOrderedRecv
      split
      · rename_i hexpects
        refine h.arrive ?_ ?_ matchInfo alloc
        · rintro o ⟨⟩
          exact hexpects
        · rintro o ⟨⟩
          exact hok hexpects
      · exact h
  | notify origin =>
      obtain ⟨-, heq⟩ := Option.ite_none_right_eq_some.1 hstep
      cases heq
      unfold processPartnerOrderedNotify
      split
      · rename_i hexpects
        exact h.expectNext hexpects (hok hexpects)
      · exact h
  | selfSend matchInfo alloc =>
      cases hstep
      exact h.arrive (by rintro o ⟨⟩) (by rintro o ⟨⟩) matchInfo alloc
  | handlerReturn msg ret alloc =>
      obtain ⟨hmsg, heq⟩ := Option.ite_none_right_eq_some.1 hstep
      cases heq
      exact h.handlerReturn hmsg ret alloc
  | registerUnexpHandler handler =>
      cases hstep
      exact h.congr (.of_eq_rest ..)
  | disableProgression =>
      obtain ⟨-, heq⟩ := Option.ite_none_left_eq_some.1 hstep
      cases heq
      exact h.congr (.of_eq_rest ..)
  | reenableProgression =>
      have hstep' : (if _ then _ else _) = _ := hstep
      split at hstep'
      · cases hstep'
        exact h.congr (.of_eq_rest ..)
      · cases hstep'
        exact h

end Turns

end Endpoint

end Xen2mx.Matching
