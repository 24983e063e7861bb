/-
# `Xen2mx.Eventq.Transit` — the responses of a split reservation in the receive ring

The receptions of the backend and the handler of the frontend (`Eventq.Split`) have the
receive ring of the guest between them (`Recvring`).  It carries the responses for all its
endpoints, and what a slot holds when the handler reads it is what is handled: a response
that was written over is lost with its reservation, and the one that is read in its place
is committed twice.

    event      a step of either kernel on the indexes and the queue of the endpoint
    ring       a step of the ring: a reception that has reserved a slot takes its place
               in it, the handler commits or notifies what it reads, and acknowledges
               it when that is done

A ring that is used as `Recvring.Careful` says is a queue: what the handler reads is the
first response that it has not handled.  So the two kernels over it take the steps of the
two kernels over a list (`State.abs`).

**Proved here.**

    the indexes are written in turn, receptions find room in order and within a ring,
    the receive ring is used carefully
        ⟹  as many slots are reserved and not committed as responses are in flight,
            each owns its slot of the receive queue, and no `BUG_ON` is reached
                                                                (`splitReservation_agrees`)
    a lost update of the index, or a burst of 17 messages, and they do not agree
                                                                (`splitReservation_not_agrees`)
-/
import Xen2mx.Eventq.Split
import Xen2mx.Recvring.Balance

namespace Xen2mx.Eventq.Transit

open Split (Response Locked Handler InTurn Agrees)
open Recvring (Entry Reception Careful Invariant)

universe u

variable {κ : Type*} {ε : Type u}

/-! ## Responses for an endpoint -/

/-- What the handler of the frontend makes of a response for the endpoint `eid`.  Those of the
last kinds are for the expected queue, or for none. -/
def response (eid : ℕ) (e : Entry (ℕ × ε)) : Option (Response ε) :=
  if e.eid = eid then
    match e.func with
    | .recvSmall | .recvMediumFrag => some (.payload e.data.1 e.data.2)
    | .recvTiny | .recvLiback | .recvNotify | .recvRndv | .recvConnectRequest
    | .recvConnectReply => some (.plain e.data.2)
    | .null | .xenDummy | .xenRecvPullDone | .recvPullRequest | .xenSendMediumsqDone => none
  else none

/-- The slot of the receive queue that a response for the endpoint names. -/
def recvq (eid : ℕ) (e : Entry (ℕ × ε)) : Option ℕ := (response eid e).bind Response.recvq

/-! ## The system -/

/-- The two kernels and the ring; `sending` are the slots of receptions that have not read the
index of the ring, `loading` of those that have, and have not written it back. -/
structure State (κ : Type*) (ε : Type u) where
  q : UnexpEventq ε
  backend : Option Locked
  sending : List ℕ
  loading : List ℕ
  handler : Handler ε
  ring : Recvring.State κ (ℕ × ε)

inductive Act (κ : Type*) (ε : Type u) where
  | event (a : Split.Act ε)
  | ring (a : Recvring.Act κ (ℕ × ε))

namespace State

variable (s : State κ ε) (eid : ℕ)

/-- The two kernels, with these responses between them. -/
def kernels (responses : List (Response ε)) : Split.State ε :=
  { q := s.q, backend := s.backend, sending := s.sending, responses, handler := s.handler }

/-- What they have become. -/
def put (t : Split.State ε) : State κ ε :=
  { s with q := t.q, backend := t.backend, sending := t.sending, handler := t.handler }

/-- The response for the endpoint that the handler reads, if the endpoint is known. -/
def received (n : Xenback.RingSize) : Option (Response ε) :=
  s.ring.handler.next.bind fun cons =>
    let resp := Recvring.ringGet n s.ring.sring cons
    if s.ring.endpoints resp.eid then response eid resp else none

/-- The slot that the reception `k` is taking its place for. -/
def loaded (k : κ) : Option ℕ :=
  match s.ring.reception k with
  | .loaded _ resp => recvq eid resp
  | .idle | .taken .. | .filled => none

/-- The two kernels over a list: the responses that were sent and are not handled. -/
def abs : Split.State ε :=
  { q := s.q
    backend := s.backend
    sending := s.sending ++ s.loading
    responses := (s.ring.sent.drop s.ring.handled.length).filterMap (response eid)
    handler := s.handler }

end State

def init (zero : ℕ × ε) : State κ ε :=
  { q := UnexpEventq.init, backend := none, sending := [], loading := [], handler := .idle
    ring := Recvring.start zero }

variable [DecidableEq κ] [DecidableEq ε] (z : RingSize) (n : Xenback.RingSize) (eid : ℕ)

/-- A step on the indexes and the queue of the endpoint; the responses go over the ring. -/
def State.stepEvent (s : State κ ε) : Split.Act ε → Option (State κ ε)
  | .poke .. | .plain _ | .handle => none
  | a => (Split.step z (s.kernels []) a).map s.put

def State.stepRing (s : State κ ε) : Recvring.Act κ (ℕ × ε) → Option (State κ ε)
  | .load k resp =>
      match recvq eid resp with
      | some slot =>
          if slot ∈ s.sending then
            (s.ring.load k resp).map fun ring =>
              { s with ring, sending := s.sending.erase slot, loading := slot :: s.loading }
          else none
      | none => (s.ring.load k resp).map fun ring => { s with ring }
  | .take k => (s.ring.take k).map fun ring =>
      { s with ring, loading := (s.loaded eid k).elim s.loading s.loading.erase }
  | .handle => (s.ring.handle n).bind fun ring =>
      match s.received eid n with
      | some resp => (Split.step z (s.kernels [resp]) .handle).map fun t => { s.put t with ring }
      | none => some { s with ring }
  | .ack =>
      match s.handler with
      | .idle => (s.ring.ack n).map fun ring => { s with ring }
      | .notify .. | .check | .failed | .rollback _ => none
  | a => (Recvring.step n s.ring a).map fun ring => { s with ring }

def step (s : State κ ε) : Act κ ε → Option (State κ ε)
  | .event a => s.stepEvent z a
  | .ring a => s.stepRing z n eid a

/-- The endpoint `eid` of a guest, whose event queues have the size `z` and whose receive ring
has `n` slots. -/
def machine (zero : ℕ × ε) : Machine (State κ ε) (Act κ ε) :=
  { init := init zero, step := step z n eid }

/-! ## The condition -/

/-- The indexes of the endpoint are written in turn, and the ring is used carefully. -/
def Orderly (s : State κ ε) : Act κ ε → Prop
  | .event a => InTurn z (s.kernels []) a
  | .ring a => Careful n s.ring a

instance [Fintype κ] (s : State κ ε) : DecidablePred (Orderly z n s)
  | .event a => inferInstanceAs (Decidable (InTurn z (s.kernels []) a))
  | .ring a => inferInstanceAs (Decidable (Careful n s.ring a))

/-! ## The invariant -/

structure Inv (s : State κ ε) : Prop where
  ring : Invariant n s.ring
  kernels : Split.Inv z (s.abs eid)
  loading : ∀ k, ∀ slot ∈ s.loaded eid k, slot ∈ s.loading

variable {z n eid}

/-! ## Steps between the kernels -/

/-- The kernels with more receptions and responses behind. -/
def more (sending : List ℕ) (responses : List (Response ε)) (s : Split.State ε) : Split.State ε :=
  { s with sending := s.sending ++ sending, responses := s.responses ++ responses }

section
variable {s t : Split.State ε} {a : Split.Act ε} (sending : List ℕ) (responses : List (Response ε))

theorem stepBackend_more (hpoke : ∀ slot event, a ≠ .poke slot event)
    (hplain : ∀ event, a ≠ .plain event) : (more sending responses s).stepBackend z a =
      (s.stepBackend z a).map (more sending responses) := by
  obtain ⟨q, backend, sending', responses', handler⟩ := s
  cases a with
  | poke slot event => exact absurd rfl (hpoke slot event)
  | plain event => exact absurd rfl (hplain event)
  | prepareLoad => cases backend <;> rfl
  | prepareStore | rollbackStore =>
      rcases backend with _ | _ | _ <;> simp [Split.State.stepBackend, more, Function.comp_def]
  | prepareCheck b =>
      by_cases hroom : z.hasRoom q.nextfree q.ring.nextreleased <;>
        simp [Split.State.stepBackend, more, Function.comp_def, hroom]
  | rollbackLoad =>
      cases backend <;> cases hq : q.prepareFailed <;> simp [Split.State.stepBackend, more, hq]
  | handle | notifyStore | notifyCheck | notifyRollbackLoad | notifyRollbackStore | ring a => rfl

theorem stepFrontend_more (hhandle : a = .handle → s.responses ≠ []) :
    (more sending responses s).stepFrontend z a =
      (s.stepFrontend z a).map (more sending responses) := by
  obtain ⟨q, backend, sending', responses', handler⟩ := s
  cases a with
  | handle =>
      cases responses' with
      | nil => exact absurd rfl (hhandle rfl)
      | cons response rest =>
          cases handler <;> cases response <;>
            simp [Split.State.stepFrontend, more, Function.comp_def]
  | notifyStore | notifyRollbackLoad | notifyRollbackStore =>
      cases handler <;> simp [Split.State.stepFrontend, more, Function.comp_def]
  | notifyCheck =>
      cases handler <;> cases hq : q.notifying <;>
        simp [Split.State.stepFrontend, more, Function.comp_def, hq]
      rfl
  | ring a => simp [Split.State.stepFrontend, more, Function.comp_def]
  | prepareLoad | prepareStore | prepareCheck | rollbackLoad | rollbackStore | poke | plain => rfl

/-- A step is the same whatever is under way behind it. -/
theorem step_more (hpoke : ∀ slot event, a ≠ .poke slot event)
    (hplain : ∀ event, a ≠ .plain event) (hhandle : a = .handle → s.responses ≠ [])
    (h : Split.step z s a = some t) :
    Split.step z (more sending responses s) a = some (more sending responses t) := by
  rw [Split.step] at h ⊢
  obtain ⟨hbug, h⟩ := Option.ite_none_left_eq_some.1 h
  rw [if_neg (show ¬ (more sending responses s).q.bug = true from hbug),
    stepBackend_more sending responses hpoke hplain, stepFrontend_more sending responses hhandle]
  rcases (Option.orElse_eq_some _ _ _).1 h with h | ⟨hnone, h⟩
  · rw [h]
    rfl
  · rw [h, hnone]
    rfl

/-- Only these steps send or handle a response. -/
theorem step_responses (hpoke : ∀ slot event, a ≠ .poke slot event)
    (hplain : ∀ event, a ≠ .plain event) (h : Split.step z s a = some t) :
    t.responses = if a = .handle then s.responses.tail else s.responses := by
  rw [Split.step] at h
  obtain ⟨-, h⟩ := Option.ite_none_left_eq_some.1 h
  rcases (Option.orElse_eq_some _ _ _).1 h with h | ⟨-, h⟩
  · cases a <;> grind [Split.State.stepBackend, Option.map_eq_some_iff]
  · cases a <;> grind [Split.State.stepFrontend, Option.map_eq_some_iff]

end

/-! ## Steps of the system -/

namespace Inv

variable {s s' : State κ ε}

omit [DecidableEq κ] [DecidableEq ε] in
theorem start (zero : ℕ × ε) : Inv z n eid (init zero : State κ ε) where
  ring := .start zero
  kernels := Split.init_inv
  loading := nofun

omit [DecidableEq κ] in
theorem stepEvent (hs : Inv z n eid s) {a : Split.Act ε} (hok : InTurn z (s.kernels []) a)
    (h : s.stepEvent z a = some s') : Inv z n eid s' := by
  have hok' : InTurn z (s.abs eid) a := by
    cases a <;> exact hok
  obtain ⟨t, ht, rfl, hpoke, hplain, hhandle⟩ : ∃ t, Split.step z (s.kernels []) a = some t ∧
      s' = s.put t ∧ (∀ slot event, a ≠ .poke slot event) ∧ (∀ event, a ≠ .plain event) ∧
      a ≠ .handle := by
    unfold State.stepEvent at h
    split at h
    · cases h
    · cases h
    · cases h
    · obtain ⟨t, ht, rfl⟩ := Option.map_eq_some_iff.1 h
      exact ⟨t, ht, rfl, by assumption, by assumption, by assumption⟩
  have hnone : t.responses = [] := by
    rw [step_responses hpoke hplain ht, if_neg hhandle]
    rfl
  have hkernels := hs.kernels.step hok' (step_more s.loading (s.abs eid).responses hpoke hplain
    (fun heq => absurd heq hhandle) ht)
  rw [more, hnone] at hkernels
  exact ⟨hs.ring, hkernels, hs.loading⟩

/-- A reception that has reserved a slot, or has a response without one, is about to take its
place. -/
theorem load (hs : Inv z n eid s) {k : κ} {resp : Entry (ℕ × ε)}
    (hok : Careful n s.ring (.load k resp)) (h : s.stepRing z n eid (.load k resp) = some s') :
    Inv z n eid s' := by
  have honly : ∀ ring, s.ring.load k resp = some ring → ring.sent = s.ring.sent ∧
      ring.handled = s.ring.handled ∧ ∀ k', ∀ slot ∈ ({ s with ring } : State κ ε).loaded eid k',
        slot ∈ recvq eid resp := by
    intro ring hring
    simp only [Recvring.State.load] at hring
    split at hring <;> cases hring
    refine ⟨rfl, rfl, fun k' slot hslot => ?_⟩
    by_cases hk : k' = k
    · simpa [State.loaded, hk] using hslot
    · have hnone := hok.1 k'
      simp only [State.loaded, Function.update_of_ne hk] at hslot
      cases hr : s.ring.reception k' with
      | loaded idx resp' =>
          rw [hr] at hnone
          cases hnone
      | idle | taken i idx resp' | filled =>
          rw [hr] at hslot
          cases hslot
  simp only [State.stepRing] at h
  split at h
  · rename_i slot hslot
    obtain ⟨hmem, h⟩ := Option.ite_none_right_eq_some.1 h
    obtain ⟨ring, hring, rfl⟩ := Option.map_eq_some_iff.1 h
    obtain ⟨hsent, hhandled, hloaded⟩ := honly ring hring
    refine ⟨hs.ring.step hok hring, ?_, fun k' slot' hslot' => ?_⟩
    · have hperm : (s.abs eid).sending.Perm (s.sending.erase slot ++ slot :: s.loading) :=
        ((List.perm_cons_erase hmem).append_right _).trans List.perm_middle.symm
      have hkernels := hs.kernels.perm hperm
      simpa only [State.abs, hsent, hhandled] using hkernels
    · obtain rfl := Option.mem_unique (hloaded k' slot' hslot') hslot
      exact List.mem_cons_self ..
  · rename_i hnone
    obtain ⟨ring, hring, rfl⟩ := Option.map_eq_some_iff.1 h
    obtain ⟨hsent, hhandled, hloaded⟩ := honly ring hring
    refine ⟨hs.ring.step hok hring, ?_, fun k' slot hslot => ?_⟩
    · simpa only [State.abs, hsent, hhandled] using hs.kernels
    · cases hnone.symm.trans (hloaded k' slot hslot)

/-- It takes its place behind the responses that are under way. -/
theorem take (hs : Inv z n eid s) {k : κ} (h : s.stepRing z n eid (.take k) = some s') :
    Inv z n eid s' := by
  obtain ⟨ring, hring, rfl⟩ := Option.map_eq_some_iff.1 h
  have hI := hs.ring.step (a := .take k) trivial hring
  simp only [Recvring.State.take] at hring
  split at hring <;> cases hring
  rename_i idx resp hk
  have hle := hs.ring.counted.handled.length_le
  have hloaded : s.loaded eid k = recvq eid resp := by
    simp only [State.loaded, hk]
  have hnone : ∀ k', k' ≠ k → s.loaded eid k' = none := by
    intro k' hne
    cases hr : s.ring.reception k' <;> simp only [State.loaded, hr]
    exact absurd (hs.ring.loading.alone _ _ _ _ _ _ hr hk) hne
  have hresponses : ((s.ring.sent ++ [resp]).drop s.ring.handled.length).filterMap (response eid) =
      (s.abs eid).responses ++ (response eid resp).toList := by
    rw [List.drop_append_of_le_length hle, List.filterMap_append]
    cases hr : response eid resp <;> simp [State.abs, hr]
  refine ⟨hI, ?_, fun k' slot hslot => ?_⟩
  · simp only [State.abs, hresponses, hloaded, recvq]
    cases hr : response eid resp with
    | none => simpa [State.abs] using hs.kernels
    | some r =>
        cases r with
        | plain event => exact hs.kernels.plain event
        | payload slot event =>
            have hmem : slot ∈ s.loading := hs.loading k slot (by rw [hloaded, recvq, hr]; rfl)
            have hkernels := hs.kernels.poke (List.mem_append_right s.sending hmem) event
            refine hkernels.perm ?_
            have hperm : (s.sending ++ s.loading).Perm (s.loading ++ s.sending) :=
              List.perm_append_comm
            have hcomm := hperm.erase slot
            rw [List.erase_append_left _ hmem] at hcomm
            exact hcomm.trans List.perm_append_comm
  · exfalso
    by_cases hne : k' = k
    · simp [State.loaded, hne] at hslot
    · have hsame := hnone k' hne
      simp only [State.loaded, Function.update_of_ne hne] at hslot hsame
      rw [hsame] at hslot
      cases hslot

/-- The handler commits or notifies the first response that is not handled. -/
theorem handle (hs : Inv z n eid s) (hok : Careful n s.ring (.handle : Recvring.Act κ (ℕ × ε)))
    (h : s.stepRing z n eid .handle = some s') : Inv z n eid s' := by
  obtain ⟨ring, hring, h⟩ := Option.bind_eq_some_iff.1 h
  obtain ⟨cons, prod, resp, hloop, hresp, hopen, hread, hsent, hhandled⟩ := hs.ring.read hok hring
  have hreceived : s.received eid n = response eid resp := by
    simp [State.received, hloop, Recvring.Handler.next, hresp, hopen]
  have hdrop : s.ring.sent.drop s.ring.handled.length =
      resp :: s.ring.sent.drop (s.ring.handled.length + 1) := by
    obtain ⟨hlt, hget⟩ := List.getElem?_eq_some_iff.1 hread
    rw [List.drop_eq_getElem_cons hlt, hget]
  have hreception : ring.reception = s.ring.reception := by
    simp only [Recvring.State.handle, hloop] at hring
    split at hring <;> cases hring
    rfl
  rw [hreceived] at h
  cases hr : response eid resp with
  | none =>
      rw [hr] at h
      cases h
      refine ⟨hs.ring.step hok hring, ?_, fun k => ?_⟩
      · have hkernels := hs.kernels
        simp only [State.abs, hdrop, List.filterMap_cons, hr] at hkernels
        simpa [State.abs, hsent, hhandled] using hkernels
      · simpa only [State.loaded, hreception] using hs.loading k
  | some r =>
      rw [hr] at h
      obtain ⟨t, ht, rfl⟩ := Option.map_eq_some_iff.1 h
      have hnone : t.responses = [] := by
        rw [step_responses (by simp) (by simp) ht]
        rfl
      have hkernels := hs.kernels
      simp only [State.abs, hdrop, List.filterMap_cons, hr] at hkernels
      have hnext := hkernels.step (a := .handle) trivial (step_more s.loading
        ((s.ring.sent.drop (s.ring.handled.length + 1)).filterMap (response eid))
        (by simp) (by simp) (fun _ => List.cons_ne_nil _ _) ht)
      refine ⟨hs.ring.step hok hring, ?_, fun k => ?_⟩
      · rw [more, hnone] at hnext
        simpa [State.abs, State.put, hsent, hhandled] using hnext
      · simpa only [State.loaded, State.put, hreception] using hs.loading k

theorem stepRing (hs : Inv z n eid s) {a : Recvring.Act κ (ℕ × ε)} (hok : Careful n s.ring a)
    (h : s.stepRing z n eid a = some s') : Inv z n eid s' := by
  have hother : ∀ ring, (∀ k resp, a ≠ .load k resp) → (∀ k, a ≠ .take k) → a ≠ .handle →
      Recvring.step n s.ring a = some ring → Inv z n eid { s with ring } := by
    intro ring hload htake hhandle hring
    obtain ⟨hsent, hhandled, hreception⟩ := Recvring.step_keeps hload htake hhandle hring
    refine ⟨hs.ring.step hok hring, ?_, fun k slot hslot => ?_⟩
    · simpa only [State.abs, hsent, hhandled] using hs.kernels
    · refine hs.loading k slot ?_
      simp only [State.loaded] at hslot ⊢
      cases hr : ring.reception k with
      | loaded idx resp =>
          rw [hr] at hslot
          rw [hreception k idx resp hr]
          exact hslot
      | idle | taken i idx resp | filled =>
          rw [hr] at hslot
          cases hslot
  cases a with
  | load k resp => exact hs.load hok h
  | take k => exact hs.take h
  | handle => exact hs.handle hok h
  | ack =>
      simp only [State.stepRing] at h
      split at h
      · obtain ⟨ring, hring, rfl⟩ := Option.map_eq_some_iff.1 h
        exact hother ring nofun nofun nofun hring
      all_goals cases h
  | fill k | poke k | interrupt | finish =>
      obtain ⟨ring, hring, rfl⟩ := Option.map_eq_some_iff.1 h
      exact hother ring nofun nofun nofun hring
  | balance | setEndpoint eid isOpen =>
      cases h
      exact hother _ nofun nofun nofun rfl

theorem step (hs : Inv z n eid s) {a : Act κ ε} (hok : Orderly z n s a)
    (h : step z n eid s a = some s') : Inv z n eid s' := by
  cases a with
  | event a => exact hs.stepEvent hok h
  | ring a => exact hs.stepRing hok h

end Inv

/-! ## Every run -/

/-- In every run in which the two kernels do not write the index at once, receptions find room
in order and within a ring, and the receive ring is used carefully, the reservations of the
backend and the commits of the frontend agree. -/
theorem splitReservation_agrees (z : RingSize) (n : Xenback.RingSize) (eid : ℕ) (zero : ℕ × ε)
    {s : State κ ε} (h : (machine z n eid zero).Reaches (Orderly z n) s) :
    Agrees z (s.abs eid) :=
  (h.invariant (I := Inv z n eid) (.start zero) fun _ _ _ hs hok hstep =>
    hs.step hok hstep).kernels.agrees

/-! ## Runs -/

/-- An endpoint 3 with event queues of the default size, behind a receive ring of 16 slots. -/
def sixteenSlots : Machine (State Bool ℕ) (Act Bool ℕ) :=
  machine .default ⟨4, by decide⟩ 3 (0, 0)

/-- The backend reserves the slot `i` of the receive queue. -/
def reserve (i : ℕ) : List (Act Bool ℕ) :=
  [.event .prepareLoad, .event .prepareStore, .event (.prepareCheck (i, 1))]

/-- A reception sends its response. -/
def send (k : Bool) (func : Recvring.Func) (slot event : ℕ) : List (Act Bool ℕ) :=
  [.ring (.load k ⟨func, 3, (slot, event)⟩), .ring (.take k), .ring (.fill k), .ring (.poke k)]

/-- A tiny message and a small one; the index is read for a third when they are not handled. -/
def tinyThenSmall : List (Act Bool ℕ) :=
  .ring (.setEndpoint 3 true) :: reserve 0 ++ send false .recvTiny 0 8 ++ send true .recvSmall 0 7 ++
    [.event .prepareLoad, .event .prepareStore, .ring .interrupt, .ring .handle,
      .event .notifyStore, .event .notifyCheck, .ring .ack, .ring .handle, .ring .ack, .ring .finish]

theorem splitReservation_agrees_small :
    ∃ s, sixteenSlots.exec (init (0, 0)) tinyThenSmall = some s ∧ s.q.preparing = [(1, 1)] ∧
      Agrees .default (s.abs 3) := by
  obtain ⟨s, hs, hpreparing⟩ : ∃ s, sixteenSlots.exec (init (0, 0)) tinyThenSmall = some s ∧
      s.q.preparing = [(1, 1)] := ⟨_, rfl, rfl⟩
  exact ⟨s, hs, hpreparing,
    splitReservation_agrees .default _ 3 (0, 0) ⟨tinyThenSmall, by decide +kernel, hs⟩⟩

/-- The backend reads the index for a small message, the frontend advances it for a tiny one,
and the backend writes back what it had read, and one. -/
def lostUpdate : List (Act Bool ℕ) :=
  .ring (.setEndpoint 3 true) :: send false .recvTiny 0 8 ++
    [.event .prepareLoad, .ring .interrupt, .ring .handle, .event .notifyStore,
      .event .notifyCheck, .event .prepareStore, .event (.prepareCheck (0, 1)), .ring .ack] ++
    send true .recvSmall 0 7 ++ [.ring .finish, .ring .handle]

/-- Seventeen small messages, before the handler runs. -/
def burst : List (Act Bool ℕ) :=
  .ring (.setEndpoint 3 true) ::
    ((List.range 17).flatMap fun i => reserve i ++ send false .recvSmall i (100 + i)) ++
    [.ring .interrupt, .ring .handle]

/-- The commit of the small message finds no slot reserved, and its `BUG_ON` is reached; of
the burst, the last is handled in the place of the first, and the two kernels do not agree on
what is under way. -/
theorem splitReservation_not_agrees :
    (∃ s, sixteenSlots.exec (init (0, 0)) lostUpdate = some s ∧ ¬ Agrees .default (s.abs 3)) ∧
    ∃ s, sixteenSlots.exec (init (0, 0)) burst = some s ∧ ¬ Agrees .default (s.abs 3) := by
  constructor
  · obtain ⟨s, hs, hbug⟩ : ∃ s, sixteenSlots.exec (init (0, 0)) lostUpdate = some s ∧
        s.q.bug = true := ⟨_, rfl, rfl⟩
    refine ⟨s, hs, fun h => ?_⟩
    rw [show s.q.bug = false from h.noBug] at hbug
    cases hbug
  · obtain ⟨s, hs, hlost⟩ := Option.map_eq_some_iff.1 (show
      (sixteenSlots.exec (init (0, 0)) burst).map (fun s =>
        (decide (0 ∈ s.q.prepared), decide (0 ∈ (s.abs 3).inFlight))) = some (true, false)
      by decide +kernel)
    simp only [Prod.mk.injEq, decide_eq_true_eq, decide_eq_false_iff_not] at hlost
    exact ⟨s, hs, fun h => hlost.2 (h.reserved.subset hlost.1)⟩

end Xen2mx.Eventq.Transit
