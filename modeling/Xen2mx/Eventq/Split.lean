/-
# `Xen2mx.Eventq.Split` — a reservation split between two kernels

For an endpoint of a guest the backend does the first half of a reservation,
`omx_prepare_notify_unexp_event_with_recvq`, on the indexes of the frontend's
endpoint, which it has mapped; the frontend does the second half,
`omx_commit_notify_unexp_event_with_recvq`, when it handles the response that
names the slot.  Each kernel has a lock of its own, and the frontend has
commented its own out: `nextfree_unexp_eventq_index`, which both advance, is
read by one and written back by the other in any order.  The other indexes have
one writer: `next_recvq_index` the backend, `nextreserved_unexp_eventq_index`
the handler of the frontend, one response at a time.

    backend     prepareLoad, prepareStore      the locked section of the reservation
                prepareCheck                   room or not
                rollbackLoad, rollbackStore    the locked section that undoes it
                poke, plain                    a response, with a payload or without, is sent
    frontend    handle                         commit, or the first half of `omx_notify_unexp_event`
                notifyStore, notifyCheck       its other half
                notifyRollbackLoad, -Store     and what undoes it
    library     ring                           the stores, the reader and the release

A section computes what it does in the native driver (`UnexpEventq.next`), from
the index it has read.  The responses on their way are a list here, the first sent
is the first handled; what carries them is in `Eventq.Transit`.

**Proved here.**

    nobody writes the index between another's read and its write, a reception finds
    room in order and within a ring
        ⟹  the step keeps the two kernels in agreement                (`Inv.step`)
    two kernels in agreement have as many slots reserved and not committed as
        responses are in flight, each of which owns its slot of the
        receive queue, and have reached no `BUG_ON`                   (`Inv.agrees`)
-/
import Xen2mx.Eventq.Recvq

namespace Xen2mx.Eventq.Split

universe u

variable {ε : Type u} {z : RingSize}

/-! ## The two kernels -/

/-- A response for the endpoint: `OMX_CMD_RECV_SMALL` and `OMX_CMD_RECV_MEDIUM_FRAG` name a
slot of the receive queue, all others none. -/
inductive Response (ε : Type u) where
  | payload (recvq : ℕ) (event : ε)
  | plain (event : ε)
  deriving DecidableEq, Repr

def Response.recvq : Response ε → Option ℕ
  | payload recvq _ => some recvq
  | plain _ => none

/-- Who is in the section under the lock of the backend, and the index it has read. -/
inductive Locked where
  | prepare (nextfree : ℕ)
  | rollback (nextfree : ℕ)
  deriving DecidableEq, Repr

def Locked.loaded : Locked → ℕ
  | prepare v | rollback v => v

/-- Where the handler of the frontend is in `omx_notify_unexp_event`. -/
inductive Handler (ε : Type u) where
  | idle
  | notify (event : ε) (nextfree : ℕ)
  | check
  | failed
  | rollback (nextfree : ℕ)
  deriving DecidableEq, Repr

def Handler.loaded : Handler ε → Option ℕ
  | notify _ v | rollback v => some v
  | idle | check | failed => none

structure State (ε : Type u) where
  /-- the indexes and the queue, of the frontend's endpoint -/
  q : UnexpEventq ε
  backend : Option Locked
  /-- the slots of receptions that have not sent their response yet -/
  sending : List ℕ
  responses : List (Response ε)
  handler : Handler ε

inductive Act (ε : Type u) where
  | prepareLoad
  | prepareStore
  | prepareCheck (b : ℕ × ℕ)
  | rollbackLoad
  | rollbackStore
  | poke (recvq : ℕ) (event : ε)
  | plain (event : ε)
  | handle
  | notifyStore
  | notifyCheck
  | notifyRollbackLoad
  | notifyRollbackStore
  | ring (a : RingAction ε)
  deriving DecidableEq, Repr

/-- The slots named by responses in flight. -/
def State.inFlight (s : State ε) : List ℕ := s.sending ++ s.responses.filterMap Response.recvq

def init : State ε :=
  { q := UnexpEventq.init, backend := none, sending := [], responses := [], handler := .idle }

/-- The index as it was when read. -/
def asRead (q : UnexpEventq ε) (nextfree : ℕ) : UnexpEventq ε := { q with nextfree }

variable (z) [DecidableEq ε]

/-- The backend. -/
def State.stepBackend (s : State ε) : Act ε → Option (State ε)
  | .prepareLoad =>
      match s.backend with
      | none => some { s with backend := some (.prepare s.q.nextfree) }
      | some _ => none
  | .prepareStore =>
      match s.backend with
      | some (.prepare v) => ((asRead s.q v).next z (.prepare 1)).map fun q =>
          { s with q, backend := none }
      | _ => none
  | .prepareCheck b => (s.q.next z (.prepareCheck b)).map fun q =>
      { s with
        q
        sending := if z.hasRoom s.q.nextfree s.q.ring.nextreleased then b.1 :: s.sending
          else s.sending }
  | .rollbackLoad =>
      match s.backend, s.q.prepareFailed with
      | none, _ :: _ => some { s with backend := some (.rollback s.q.nextfree) }
      | _, _ => none
  | .rollbackStore =>
      match s.backend with
      | some (.rollback v) => ((asRead s.q v).next z (.prepareRollback 1)).map fun q =>
          { s with q, backend := none }
      | _ => none
  | .poke recvq event =>
      if recvq ∈ s.sending then
        some { s with
          sending := s.sending.erase recvq
          responses := s.responses ++ [.payload recvq event] }
      else none
  | .plain event => some { s with responses := s.responses ++ [.plain event] }
  | _ => none

/-- The handler of the frontend, and the library. -/
def State.stepFrontend (s : State ε) : Act ε → Option (State ε)
  | .handle =>
      match s.handler, s.responses with
      | .idle, .payload recvq event :: responses =>
          (s.q.next z (.commit recvq event)).map fun q => { s with q, responses }
      | .idle, .plain event :: responses =>
          some { s with responses, handler := .notify event s.q.nextfree }
      | _, _ => none
  | .notifyStore =>
      match s.handler with
      | .notify event v => ((asRead s.q v).next z (.notify event)).map fun q =>
          { s with q, handler := .check }
      | _ => none
  | .notifyCheck =>
      match s.handler, s.q.notifying with
      | .check, n :: _ => (s.q.next z (.notifyCheck n)).map fun q =>
          { s with
            q
            handler := if z.hasRoom s.q.nextfree s.q.ring.nextreleased then .idle else .failed }
      | _, _ => none
  | .notifyRollbackLoad =>
      match s.handler with
      | .failed => some { s with handler := .rollback s.q.nextfree }
      | _ => none
  | .notifyRollbackStore =>
      match s.handler with
      | .rollback v => ((asRead s.q v).next z .notifyRollback).map fun q =>
          { s with q, handler := .idle }
      | _ => none
  | .ring a => (s.q.next z (.ring a)).map fun q => { s with q }
  | _ => none

/-- A `BUG_ON` stops the machine. -/
def step (s : State ε) (a : Act ε) : Option (State ε) :=
  if s.q.bug then none else s.stepBackend z a <|> s.stepFrontend z a

/-! ## The condition -/

/-- Nobody has written the index since it was read; a reception that finds room has a slot
less than a ring away from those in use, and none below it was given back; one that finds
none has none below it that was kept. -/
def InTurn (s : State ε) : Act ε → Prop
  | .prepareStore => (∀ w ∈ s.backend, w.loaded = s.q.nextfree) ∧ s.q.inflight + 1 ≤ 2 ^ 31
  | .rollbackStore => ∀ w ∈ s.backend, w.loaded = s.q.nextfree
  | .notifyStore => (∀ v ∈ s.handler.loaded, v = s.q.nextfree) ∧ s.q.inflight < 2 ^ 31
  | .notifyRollbackStore => ∀ v ∈ s.handler.loaded, v = s.q.nextfree
  | .prepareCheck b => UnexpEventq.WithinRing z s.q (.prepareCheck b)
  | _ => True

instance (s : State ε) : DecidablePred (InTurn z s) := fun a => by
  unfold InTurn
  split <;> infer_instance

/-! ## The statement -/

/-- The two halves agree. -/
structure Agrees (s : State ε) : Prop where
  /-- The slots reserved and not committed are those named by the responses in flight. -/
  reserved : s.q.prepared.Perm s.inFlight
  /-- The indexes count them, beside receptions that have advanced the index and not
  looked for room, or found none and have not turned it back. -/
  counters : s.q.nextfree = s.q.nextreserved + s.inFlight.length +
    (s.q.preparing.length + s.q.prepareFailed.length)
  /-- No two of them, or of those committed and not released, are the same slot. -/
  owned : (s.q.owners.map z.slot).Nodup
  noBug : s.q.bug = false

/-! ## The invariant -/

/-- What the handler holds of the queue. -/
def Handler.Holds (q : UnexpEventq ε) : Handler ε → Prop
  | idle | notify _ _ => q.notifying = [] ∧ q.notifyFailed = 0
  | check => ∃ n, q.notifying = [n] ∧ q.notifyFailed = 0
  | failed | rollback _ => q.notifying = [] ∧ q.notifyFailed = 1

omit [DecidableEq ε] in
/-- The handler takes the event slots one after the other: `c` of them so far, and one
reservation fewer than the ring has slots beyond those released. -/
structure Serial (q : UnexpEventq ε) (c : ℕ) : Prop where
  taken : ∀ i < c, i ∈ q.ring.handed.map Notification.index
  below : ∀ m ∈ q.ring.handed, m.index < c
  notifying : ∀ n ∈ q.notifying, n.1 = c
  reserved : q.nextreserved = c + q.notifying.length + q.notifyFailed
  room : c + q.prepared.length ≤ q.ring.nextreleased + z.entryNr

structure Inv (s : State ε) : Prop where
  queue : UnexpEventq.Inv z s.q
  recvq : UnexpEventq.Owned z s.q
  handler : s.handler.Holds s.q
  serial : ∃ c, Serial z s.q c
  reserved : s.q.prepared.Perm s.inFlight
  single : (∀ b ∈ s.q.preparing, b.2 = 1) ∧ ∀ nr ∈ s.q.prepareFailed, nr = 1

variable {z}

omit [DecidableEq ε] in
theorem asRead_self (q : UnexpEventq ε) : asRead q q.nextfree = q := rfl

/-! ## Steps of the queue -/

namespace Serial

variable {q q' : UnexpEventq ε} {c : ℕ}

omit [DecidableEq ε] in
/-- Steps that take no index. -/
theorem keep (h : Serial z q c) (hring : q'.ring = q.ring) (hnotifying : q'.notifying = q.notifying)
    (hfailed : q'.notifyFailed = q.notifyFailed) (hreserved : q'.nextreserved = q.nextreserved)
    (hprepared : q'.prepared = q.prepared) : Serial z q' c where
  taken := by rw [hring]; exact h.taken
  below := by rw [hring]; exact h.below
  notifying := by rw [hnotifying]; exact h.notifying
  reserved := by rw [hreserved, hnotifying, hfailed]; exact h.reserved
  room := by rw [hprepared, hring]; exact h.room

/-- A reservation that found room is one of at most a ring of them. -/
theorem prepareCheck (h : Serial z q c) (hq : UnexpEventq.Inv z q) {b : ℕ × ℕ} (hb : b.2 = 1)
    (hnext : q.next z (.prepareCheck b) = some q') : Serial z q' c := by
  obtain ⟨hmem, hnext⟩ := Option.ite_none_right_eq_some.1 hnext
  split at hnext
  · rename_i hroom
    cases hnext
    refine { h with room := ?_ }
    have hfree := hq.free
    have hreserved := h.reserved
    have hspan := UnexpEventq.Inv.span_erase hmem
    rw [RingSize.hasRoom, hq.sub_nextfree] at hroom
    simp only [UnexpEventq.uncommitted, List.length_append, List.length_range'] at hfree ⊢
    omega
  · cases hnext
    exact { h with }

omit [DecidableEq ε] in
/-- The slot of a commit is the next one. -/
theorem commit_inOrder (h : Serial z q c) (hq : UnexpEventq.Inv z q) (hnone : q.notifying = [])
    (hfailed : q.notifyFailed = 0) {recvq : ℕ} (hmem : recvq ∈ q.prepared) (event : ε) :
    UnexpEventq.InOrder z q (.commit recvq event) := by
  have hreserved := h.reserved
  have hroom := h.room
  have hpos := List.length_pos_of_mem hmem
  have hreleased := hq.ring.released
  simp only [hnone, hfailed, List.length_nil, Nat.add_zero] at hreserved
  exact ⟨fun i hi => .inl (h.taken i (hreserved ▸ hi)), by omega⟩

theorem commit (h : Serial z q c) (hnone : q.notifying = []) (hfailed : q.notifyFailed = 0)
    {recvq : ℕ} {event : ε} (hnext : q.next z (.commit recvq event) = some q')
    (hbug : q'.bug = false) : Serial z q' (c + 1) := by
  have hreserved := h.reserved
  have hroom := h.room
  obtain ⟨hmem, hnext⟩ := Option.ite_none_right_eq_some.1 hnext
  have hlen := List.length_erase_of_mem hmem
  have hpos := List.length_pos_of_mem hmem
  simp only [hnone, hfailed, List.length_nil, Nat.add_zero] at hreserved
  rw [UnexpEventq.takeReserved] at hnext
  split at hnext <;> cases hnext
  · cases hbug
  · refine ⟨fun i hi => ?_, fun m hm => ?_, fun n hn => ?_, ?_, ?_⟩
    · simp only [Ring.hand, List.map_cons, List.mem_cons]
      rcases Nat.lt_succ_iff_lt_or_eq.1 hi with hlt | rfl
      · exact .inr (h.taken i hlt)
      · exact .inl hreserved.symm
    · rcases List.mem_cons.1 hm with rfl | hm
      · show q.nextreserved < c + 1
        omega
      · exact (h.below m hm).trans (Nat.lt_succ_self c)
    · rw [hnone] at hn
      cases hn
    · simp only [hnone, hfailed, hreserved, List.length_nil, Nat.add_zero]
    · simp only [Ring.hand]
      omega

omit [DecidableEq ε] in
theorem notify (h : Serial z q c) (hnone : q.notifying = []) (hfailed : q.notifyFailed = 0)
    (event : ε) : Serial z { q with
      nextfree := q.nextfree + 1
      nextreserved := q.nextreserved + 1
      notifying := (q.nextreserved, event) :: q.notifying } c := by
  have hreserved := h.reserved
  simp only [hnone, hfailed, List.length_nil, Nat.add_zero] at hreserved
  refine { h with notifying := fun n hn => ?_, reserved := ?_ }
  · simp only [hnone, List.mem_singleton] at hn
    rw [hn]
    exact hreserved
  · simp only [hnone, hfailed, hreserved, List.length_singleton, Nat.add_zero]

omit [DecidableEq ε] in
/-- The index of a notification is in order, whether it finds room or not. -/
theorem notifyCheck_inOrder (h : Serial z q c) {n : ℕ × ε} (hn : n ∈ q.notifying) :
    UnexpEventq.InOrder z q (.notifyCheck n) := by
  rw [UnexpEventq.InOrder, h.notifying n hn]
  split
  · exact fun i hi => .inl (h.taken i hi)
  · exact h.below

theorem notifyCheck (h : Serial z q c) (hq : UnexpEventq.Inv z q) {n : ℕ × ε}
    (hone : q.notifying = [n]) (hfailed : q.notifyFailed = 0)
    (hnext : q.next z (.notifyCheck n) = some q') :
    (∃ c, Serial z q' c) ∧ q'.notifying = [] ∧ q'.prepared = q.prepared ∧
      q'.notifyFailed = if z.hasRoom q.nextfree q.ring.nextreleased then 0 else 1 := by
  have hn := h.notifying n (by simp [hone])
  have hreserved := h.reserved
  simp only [hone, hfailed, List.length_singleton] at hreserved
  obtain ⟨-, hnext⟩ := Option.ite_none_right_eq_some.1 hnext
  split at hnext <;> rename_i hroom <;> cases hnext
  · refine ⟨⟨c + 1, fun i hi => ?_, fun m hm => ?_, ?_, ?_, ?_⟩, by simp [hone], rfl,
      by rw [if_pos hroom]; exact hfailed⟩
    · simp only [Ring.hand, List.map_cons, List.mem_cons]
      rcases Nat.lt_succ_iff_lt_or_eq.1 hi with hlt | rfl
      · exact .inr (h.taken i hlt)
      · exact .inl hn.symm
    · rcases List.mem_cons.1 hm with rfl | hm
      · exact hn.trans_lt (Nat.lt_succ_self c)
      · exact (h.below m hm).trans (Nat.lt_succ_self c)
    · simp [hone]
    · simp only [hone, hfailed, hreserved, List.erase_cons_head, List.length_nil]
    · have hfree := hq.free
      rw [RingSize.hasRoom, hq.sub_nextfree] at hroom
      simp only [UnexpEventq.uncommitted, Ring.hand] at hfree ⊢
      omega
  · refine ⟨⟨c, { h with notifying := ?_, reserved := ?_ }⟩, by simp [hone], rfl,
      by rw [if_neg hroom, hfailed]⟩
    · simp [hone]
    · simp only [hone, hfailed, hreserved, List.erase_cons_head, List.length_nil]

omit [DecidableEq ε] in
theorem notifyRollback (h : Serial z q c) (hnone : q.notifying = []) (hfailed : q.notifyFailed = 1) :
    Serial z { q with
      nextfree := q.nextfree - 1
      nextreserved := q.nextreserved - 1
      notifyFailed := q.notifyFailed - 1 } c := by
  have hreserved := h.reserved
  simp only [hnone, hfailed, List.length_nil] at hreserved
  refine { h with reserved := ?_ }
  simp only [hnone, hfailed, hreserved, List.length_nil]
  rfl

omit [DecidableEq ε] in
theorem ring (h : Serial z q c) {r : Ring ε} (hhanded : r.handed = q.ring.handed)
    (hreleased : q.ring.nextreleased ≤ r.nextreleased) : Serial z { q with ring := r } c where
  taken := by simpa only [hhanded] using h.taken
  below := by simpa only [hhanded] using h.below
  notifying := h.notifying
  reserved := h.reserved
  room := h.room.trans (Nat.add_le_add_right hreleased _)

end Serial

/-! ## Steps of the system -/

omit [DecidableEq ε] in
theorem init_inv : Inv z (init : State ε) where
  queue := .init
  recvq := .init
  handler := ⟨rfl, rfl⟩
  serial := ⟨0, nofun, nofun, nofun, rfl, Nat.zero_le _⟩
  reserved := .nil
  single := ⟨nofun, nofun⟩

/-- The stores, the reader and the release leave the indexes taken as they are. -/
theorem ring_step {r r' : Ring ε} {top : ℕ} {a : RingAction ε} (h : r.step z top a = some r') :
    r'.handed = r.handed ∧ r.nextreleased ≤ r'.nextreleased := by
  cases a with
  | store | publish | peek | process =>
      obtain ⟨-, h⟩ := Option.ite_none_right_eq_some.1 h
      cases h
      exact ⟨rfl, le_rfl⟩
  | release =>
      obtain ⟨-, h⟩ := Option.ite_none_right_eq_some.1 h
      cases h
      unfold Ring.release
      split
      · exact ⟨rfl, le_rfl⟩
      · exact ⟨rfl, Nat.le_add_right _ _⟩

namespace Inv

variable {s s' : State ε} {q : UnexpEventq ε}

theorem prepareStore (hs : Inv z s) (hbound : s.q.inflight + 1 ≤ 2 ^ 31)
    (h : s.q.next z (.prepare 1) = some q) : Inv z { s with q, backend := none } := by
  obtain ⟨c, hserial⟩ := hs.serial
  have hqueue := hs.queue.next (a := .prepare 1) hbound h
  have hrecvq := hs.recvq.next (a := .prepare 1) trivial h
  obtain ⟨-, h⟩ := Option.ite_none_right_eq_some.1 h
  cases h
  refine ⟨hqueue, hrecvq, ?_, ⟨c, hserial.keep rfl rfl rfl rfl rfl⟩, hs.reserved, ?_, hs.single.2⟩
  · cases hh : s.handler <;> simpa only [Handler.Holds, hh] using hs.handler
  · rintro b (_ | ⟨_, hb⟩)
    · rfl
    · exact hs.single.1 b hb

theorem prepareCheck (hs : Inv z s) {b : ℕ × ℕ}
    (hok : UnexpEventq.WithinRing z s.q (.prepareCheck b))
    (h : s.q.next z (.prepareCheck b) = some q) :
    Inv z { s with
      q
      sending := if z.hasRoom s.q.nextfree s.q.ring.nextreleased then b.1 :: s.sending
        else s.sending } := by
  obtain ⟨c, hserial⟩ := hs.serial
  have hqueue := hs.queue.next (a := .prepareCheck b) trivial h
  have hrecvq := hs.recvq.next hok h
  have hmem := (Option.ite_none_right_eq_some.1 h).1
  have hone := hs.single.1 b hmem
  have hserial' := hserial.prepareCheck hs.queue hone h
  obtain ⟨-, h⟩ := Option.ite_none_right_eq_some.1 h
  split at h <;> rename_i hroom <;> cases h
  · simp only [if_pos hroom]
    refine ⟨hqueue, hrecvq, ?_, ⟨c, hserial'⟩, ?_, ?_, hs.single.2⟩
    · cases hh : s.handler <;> simpa only [Handler.Holds, hh] using hs.handler
    · simp only [hone, State.inFlight]
      exact hs.reserved.cons b.1
    · exact fun b' hb' => hs.single.1 b' (List.mem_of_mem_erase hb')
  · simp only [if_neg hroom]
    refine ⟨hqueue, hrecvq, ?_, ⟨c, hserial'⟩, hs.reserved, ?_, ?_⟩
    · cases hh : s.handler <;> simpa only [Handler.Holds, hh] using hs.handler
    · exact fun b' hb' => hs.single.1 b' (List.mem_of_mem_erase hb')
    · rintro nr (_ | ⟨_, hnr⟩)
      · exact hone
      · exact hs.single.2 nr hnr

theorem rollbackStore (hs : Inv z s) (h : s.q.next z (.prepareRollback 1) = some q) :
    Inv z { s with q, backend := none } := by
  obtain ⟨c, hserial⟩ := hs.serial
  have hqueue := hs.queue.next (a := .prepareRollback 1) trivial h
  have hrecvq := hs.recvq.next (a := .prepareRollback 1) trivial h
  obtain ⟨-, h⟩ := Option.ite_none_right_eq_some.1 h
  cases h
  refine ⟨hqueue, hrecvq, ?_, ⟨c, hserial.keep rfl rfl rfl rfl rfl⟩, hs.reserved, hs.single.1, ?_⟩
  · cases hh : s.handler <;> simpa only [Handler.Holds, hh] using hs.handler
  · exact fun nr hnr => hs.single.2 nr (List.mem_of_mem_erase hnr)

omit [DecidableEq ε] in
/-- It does not matter in which order the receptions are. -/
theorem perm (hs : Inv z s) {sending : List ℕ} (h : s.sending.Perm sending) :
    Inv z { s with sending } :=
  { hs with reserved := hs.reserved.trans (h.append_right _) }

omit [DecidableEq ε] in
/-- A response leaves its reception, and stays in flight. -/
theorem poke (hs : Inv z s) {recvq : ℕ} (hmem : recvq ∈ s.sending) (event : ε) :
    Inv z { s with
      sending := s.sending.erase recvq
      responses := s.responses ++ [.payload recvq event] } := by
  refine { hs with reserved := hs.reserved.trans ?_ }
  simp only [State.inFlight, List.filterMap_append]
  refine ((List.perm_cons_erase hmem).append_right _).trans ?_
  simp only [List.filterMap_cons, Response.recvq, List.filterMap_nil, ← List.append_assoc]
  exact (List.perm_append_singleton _ _).symm

omit [DecidableEq ε] in
theorem plain (hs : Inv z s) (event : ε) :
    Inv z { s with responses := s.responses ++ [.plain event] } := by
  refine { hs with reserved := ?_ }
  simpa only [State.inFlight, List.filterMap_append, List.filterMap_cons, Response.recvq,
    List.filterMap_nil, List.append_nil] using hs.reserved

/-- The frontend commits the slot that the response names. -/
theorem commit (hs : Inv z s) (hidle : s.handler = .idle) {recvq : ℕ} {event : ε}
    {responses : List (Response ε)} (hresponses : s.responses = .payload recvq event :: responses)
    (h : s.q.next z (.commit recvq event) = some q) : Inv z { s with q, responses } := by
  obtain ⟨c, hserial⟩ := hs.serial
  have hholds := hs.handler
  rw [hidle] at hholds
  obtain ⟨hnone, hfailed⟩ := hholds
  have hmem := (Option.ite_none_right_eq_some.1 h).1
  have hqueue := hs.queue.next (hserial.commit_inOrder hs.queue hnone hfailed hmem event) h
  have hrecvq := hs.recvq.next (a := .commit recvq event) trivial h
  have hserial' := hserial.commit hnone hfailed h hqueue.noBug
  have hreserved := hs.reserved
  simp only [State.inFlight, hresponses, List.filterMap_cons, Response.recvq] at hreserved
  have herase := (hreserved.trans List.perm_middle).erase recvq
  rw [List.erase_cons_head] at herase
  obtain ⟨-, h⟩ := Option.ite_none_right_eq_some.1 h
  rw [UnexpEventq.takeReserved] at h
  split at h <;> cases h
  · exact absurd hqueue.noBug Bool.true_eq_false.mp
  · refine ⟨hqueue, hrecvq, ?_, ⟨_, hserial'⟩, herase, hs.single⟩
    simp only [hidle, Handler.Holds]
    exact ⟨hnone, hfailed⟩

theorem notifyStore (hs : Inv z s) {event : ε} {v : ℕ} (hh : s.handler = .notify event v)
    (hbound : s.q.inflight < 2 ^ 31) (h : s.q.next z (.notify event) = some q) :
    Inv z { s with q, handler := .check } := by
  obtain ⟨c, hserial⟩ := hs.serial
  have hholds := hs.handler
  rw [hh] at hholds
  have hqueue := hs.queue.next (a := .notify event) hbound h
  have hrecvq := hs.recvq.next (a := .notify event) trivial h
  cases h
  refine ⟨hqueue, hrecvq, ⟨(s.q.nextreserved, event), ?_, hholds.2⟩,
    ⟨c, hserial.notify hholds.1 hholds.2 event⟩, hs.reserved, hs.single⟩
  rw [hholds.1]

theorem notifyCheck (hs : Inv z s) (hh : s.handler = .check) {n : ℕ × ε}
    {rest : List (ℕ × ε)} (hnotifying : s.q.notifying = n :: rest)
    (h : s.q.next z (.notifyCheck n) = some q) :
    Inv z { s with
      q
      handler := if z.hasRoom s.q.nextfree s.q.ring.nextreleased then .idle else .failed } := by
  obtain ⟨c, hserial⟩ := hs.serial
  have hholds := hs.handler
  rw [hh] at hholds
  obtain ⟨n', hone, hfailed⟩ := hholds
  obtain ⟨rfl, rfl⟩ := List.cons.inj (hnotifying.symm.trans hone)
  have hqueue := hs.queue.next (hserial.notifyCheck_inOrder (by simp [hone])) h
  have hrecvq := hs.recvq.next (a := .notifyCheck n) trivial h
  obtain ⟨hserial', hnone, hprepared, hcount⟩ := hserial.notifyCheck hs.queue hone hfailed h
  refine ⟨hqueue, hrecvq, ?_, hserial', hprepared ▸ hs.reserved, ?_⟩
  · split at hcount <;> rename_i hroom
    · simp only [if_pos hroom]
      exact ⟨hnone, hcount⟩
    · simp only [if_neg hroom]
      exact ⟨hnone, hcount⟩
  · obtain ⟨-, h⟩ := Option.ite_none_right_eq_some.1 h
    split at h <;> cases h <;> exact hs.single

theorem notifyRollbackStore (hs : Inv z s) {v : ℕ} (hh : s.handler = .rollback v)
    (h : s.q.next z .notifyRollback = some q) : Inv z { s with q, handler := .idle } := by
  obtain ⟨c, hserial⟩ := hs.serial
  have hholds := hs.handler
  rw [hh] at hholds
  have hqueue := hs.queue.next (a := .notifyRollback) trivial h
  have hrecvq := hs.recvq.next (a := .notifyRollback) trivial h
  obtain ⟨-, h⟩ := Option.ite_none_right_eq_some.1 h
  cases h
  exact ⟨hqueue, hrecvq, ⟨hholds.1, by simp only [hholds.2]⟩,
    ⟨c, hserial.notifyRollback hholds.1 hholds.2⟩, hs.reserved, hs.single⟩

theorem ring (hs : Inv z s) {a : RingAction ε} (h : s.q.next z (.ring a) = some q) :
    Inv z { s with q } := by
  obtain ⟨c, hserial⟩ := hs.serial
  have hqueue := hs.queue.next (a := .ring a) trivial h
  have hrecvq := hs.recvq.next (a := .ring a) trivial h
  obtain ⟨r, hr, h⟩ := Option.map_eq_some_iff.1 h
  cases h
  obtain ⟨hhanded, hreleased⟩ := ring_step hr
  refine ⟨hqueue, hrecvq, ?_, ⟨c, hserial.ring hhanded hreleased⟩, hs.reserved, hs.single⟩
  cases hh : s.handler <;> simpa only [Handler.Holds, hh] using hs.handler

theorem backend (hs : Inv z s) {a : Act ε} (hok : InTurn z s a)
    (h : s.stepBackend z a = some s') : Inv z s' := by
  simp only [State.stepBackend] at h
  split at h
  · split at h <;> cases h
    exact { hs with }
  · split at h
    · rename_i v hb
      obtain ⟨q, hq, rfl⟩ := Option.map_eq_some_iff.1 h
      have hv : v = s.q.nextfree := hok.1 (.prepare v) hb
      rw [hv, asRead_self] at hq
      exact hs.prepareStore hok.2 hq
    · cases h
  · obtain ⟨q, hq, rfl⟩ := Option.map_eq_some_iff.1 h
    exact hs.prepareCheck hok hq
  · split at h <;> cases h
    exact { hs with }
  · split at h
    · rename_i v hb
      obtain ⟨q, hq, rfl⟩ := Option.map_eq_some_iff.1 h
      have hv : v = s.q.nextfree := hok (.rollback v) hb
      rw [hv, asRead_self] at hq
      exact hs.rollbackStore hq
    · cases h
  · obtain ⟨hmem, h⟩ := Option.ite_none_right_eq_some.1 h
    cases h
    exact hs.poke hmem _
  · cases h
    exact hs.plain _
  · cases h

theorem frontend (hs : Inv z s) {a : Act ε} (hok : InTurn z s a)
    (h : s.stepFrontend z a = some s') : Inv z s' := by
  simp only [State.stepFrontend] at h
  split at h
  · split at h
    · rename_i hidle hresponses
      obtain ⟨q, hq, rfl⟩ := Option.map_eq_some_iff.1 h
      exact hs.commit hidle hresponses hq
    · rename_i hidle hresponses
      cases h
      have hholds := hs.handler
      rw [hidle] at hholds
      refine { hs with handler := hholds, reserved := ?_ }
      simpa only [State.inFlight, hresponses, List.filterMap_cons, Response.recvq] using hs.reserved
    · cases h
  · split at h
    · rename_i event v hh
      obtain ⟨q, hq, rfl⟩ := Option.map_eq_some_iff.1 h
      have hv : v = s.q.nextfree := hok.1 v (by rw [hh]; rfl)
      rw [hv, asRead_self] at hq
      exact hs.notifyStore hh hok.2 hq
    · cases h
  · split at h
    · rename_i n rest hh hnotifying
      obtain ⟨q, hq, rfl⟩ := Option.map_eq_some_iff.1 h
      exact hs.notifyCheck hh hnotifying hq
    · cases h
  · split at h <;> cases h
    rename_i hh
    have hholds := hs.handler
    rw [hh] at hholds
    exact { hs with handler := hholds }
  · split at h
    · rename_i v hh
      obtain ⟨q, hq, rfl⟩ := Option.map_eq_some_iff.1 h
      have hv : v = s.q.nextfree := hok v (by rw [hh]; rfl)
      rw [hv, asRead_self] at hq
      exact hs.notifyRollbackStore hh hq
    · cases h
  · obtain ⟨q, hq, rfl⟩ := Option.map_eq_some_iff.1 h
    exact hs.ring hq
  · cases h

theorem step (hs : Inv z s) {a : Act ε} (hok : InTurn z s a) (h : step z s a = some s') :
    Inv z s' := by
  rw [Split.step, if_neg (by rw [hs.queue.noBug]; exact Bool.false_ne_true)] at h
  rcases (Option.orElse_eq_some _ _ _).1 h with h | ⟨-, h⟩
  · exact hs.backend hok h
  · exact hs.frontend hok h

omit [DecidableEq ε] in
theorem agrees (hs : Inv z s) : Agrees z s where
  reserved := hs.reserved
  counters := by
    have hfree := hs.queue.free
    have hlen := hs.reserved.length_eq
    have hspan : span (s.q.preparing : Multiset Block) = s.q.preparing.length := by
      rw [span, Multiset.map_coe, Multiset.sum_coe, List.map_congr_left hs.single.1]
      simp
    have hsum : s.q.prepareFailed.sum = s.q.prepareFailed.length :=
      (List.sum_eq_card_nsmul _ 1 hs.single.2).trans (by simp)
    rw [UnexpEventq.uncommitted, hspan, hsum] at hfree
    omega
  owned := hs.recvq.slots_nodup
  noBug := hs.queue.noBug

end Inv

end Xen2mx.Eventq.Split
