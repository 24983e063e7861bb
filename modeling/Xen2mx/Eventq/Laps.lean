/-
# `Xen2mx.Eventq.Laps` — the ids of the slots, lap after lap

The indexes of an event queue count without end, and are kept in 32 bits.  The slot of an index
is its remainder by the size of the ring, its id goes from 1 to 255.  The reader takes the event
of a slot if it has the id of the index that it looks for; what else may be there is the event of
the lap before, whose id should differ.

    ring size R, index n           the slot has still      with the id of n if
    n < 2³²                        the event of n - R      255 ∣ R
    first lap after 2³²            the event of n - R      R = 1 (mod 255), as 2³² = 1 (mod 255)

The size is what `configure` is given.  The default is 1024; 256, which is the size of the
installation notes, is 1 modulo 255.  A size that does not divide 2³² moves the slots of the
indexes where these wrap.

Here a reservation is one step: the counters are moved, compared, and moved back if there is no
room.  A counter is the number of times it was moved, and the code sees it modulo 2³².

**Proved here.**

    the reader meets no slot of the lap before with its id, and no size that does not divide
    2³² is used past the wrap
        ⟹  reserved is between released and free, free is at most a ring after released, and
            the reader takes a slot just when it has the event of its index
        ⟸  (sizes that divide 2³²)                                       (`machine_coherent_iff`)
-/
import Mathlib.Data.Nat.Prime.Basic
import Xen2mx.Eventq.Slots

namespace Xen2mx.Eventq.Laps

open Word

/-! ## Sizes, slots and ids -/

/-- The size of the shared rings, with what is checked when the code is compiled: a batch that is
released is not empty, and the indexes of the send queue, a ring of the same size, have 16 bits. -/
structure SharedRing where
  entryNr : ℕ
  batch_pos : 0 < entryNr / 4
  le : entryNr ≤ 2 ^ 16

/-- The default of `configure`. -/
def SharedRing.default : SharedRing where
  entryNr := 1024
  batch_pos := by decide
  le := by decide

/-- The size given in the installation notes. -/
def SharedRing.notes : SharedRing where
  entryNr := 256
  batch_pos := by decide
  le := by decide

namespace SharedRing

variable (z : SharedRing)

/-- `OMX_EXP_RELEASE_SLOTS_BATCH_NR` and `OMX_UNEXP_RELEASE_SLOTS_BATCH_NR`. -/
def batchNr : ℕ := z.entryNr / 4

/-- `index % OMX_UNEXP_EVENTQ_ENTRY_NR`. -/
def slot (index : ℕ) : ℕ := wrap 32 index % z.entryNr

/-- Not more than `ENTRY_NR` slots are taken. -/
def HasRoom (nextfree nextreleased : ℕ) : Prop := sub 32 nextfree nextreleased ≤ z.entryNr

instance (nextfree nextreleased : ℕ) : Decidable (z.HasRoom nextfree nextreleased) :=
  inferInstanceAs (Decidable (_ ≤ _))

/-- The slots of the indexes up to this one follow each other. -/
def Plain (index : ℕ) : Prop := z.entryNr ∣ 2 ^ 32 ∨ index < 2 ^ 32

/-- The index a ring before has the same id. -/
def Repeats (index : ℕ) : Prop :=
  (255 ∣ z.entryNr ∧ z.entryNr ≤ index) ∨
    (z.entryNr % 255 = 1 ∧ 2 ^ 32 ≤ index ∧ index % 2 ^ 32 < z.entryNr)

end SharedRing

/-! ## One queue -/

/-- The two queues of an endpoint.  Both have a counter of free and one of released slots; the
unexpected one also has the next reserved, as its slots may be prepared before they are used. -/
inductive Queue where
  | exp
  | unexp
  deriving DecidableEq, Repr

/-- What was done with an index since it was handed out. -/
inductive Stage where
  | writing
  | stored
  | published
  deriving DecidableEq, Repr

/-- A slot: its id, and the index of the event in it. -/
structure LapSlot where
  id : ℕ
  event : Option ℕ
  deriving DecidableEq, Repr

structure EventRing where
  nextfree : ℕ
  /-- The next index to be handed out; the expected queue has `nextfree` for it. -/
  nextreserved : ℕ
  nextreleased : ℕ
  /-- The slots prepared, and neither committed nor cancelled. -/
  prepared : ℕ
  stage : ℕ → Stage
  slots : ℕ → LapSlot
  /-- `next_exp_event_index` or `next_unexp_event_index` of the library. -/
  nextEventIndex : ℕ
  /-- The library is about to release a batch. -/
  releasing : Bool
  aborted : Bool

inductive Action where
  | notify
  | prepare (nr : ℕ)
  | commit
  | cancel
  | store (index : ℕ)
  | publish (index : ℕ)
  | read
  | release
  deriving DecidableEq, Repr

namespace EventRing

variable (z : SharedRing) (r : EventRing)

/-- `omx_endpoint_queues_init`. -/
def init : EventRing where
  nextfree := 0
  nextreserved := 0
  nextreleased := 0
  prepared := 0
  stage := fun _ => .writing
  slots := fun _ => ⟨0, none⟩
  nextEventIndex := 0
  releasing := false
  aborted := false

/-- The reservation of `omx_notify_exp_event` and `omx_notify_unexp_event`. -/
def notify : EventRing :=
  if z.HasRoom (r.nextfree + 1) r.nextreleased then
    { r with nextfree := r.nextfree + 1, nextreserved := r.nextreserved + 1 }
  else r

/-- `omx_prepare_notify_unexp_event_with_recvq` and `omx_prepare_notify_unexp_events_with_recvq`. -/
def prepare (nr : ℕ) : EventRing :=
  if z.HasRoom (r.nextfree + nr) r.nextreleased then
    { r with nextfree := r.nextfree + nr, prepared := r.prepared + nr }
  else r

/-- The locked section of `omx_commit_notify_unexp_event_with_recvq` and
`omx_cancel_notify_unexp_event_with_recvq`, after their `BUG_ON`. -/
def takeReserved : Option EventRing :=
  if 0 < r.prepared then
    if sub 32 r.nextfree r.nextreleased ≤ sub 32 r.nextreserved r.nextreleased then none
    else some { r with nextreserved := r.nextreserved + 1, prepared := r.prepared - 1 }
  else none

/-- "store the event without setting the id first". -/
def store (index : ℕ) : EventRing :=
  { r with
    slots := Function.update r.slots (z.slot index) ⟨0, some index⟩
    stage := Function.update r.stage index .stored }

/-- "write the actual id now that the whole event has been written to memory". -/
def publish (index : ℕ) : EventRing :=
  { r with
    slots := Function.update r.slots (z.slot index)
      { r.slots (z.slot index) with id := eventId index }
    stage := Function.update r.stage index .published }

/-- The slot of an index has its id: a reader that looks for the index takes what is there. -/
def Accepts (index : ℕ) : Prop := (r.slots (z.slot index)).id = eventId index

instance (index : ℕ) : Decidable (r.Accepts z index) := inferInstanceAs (Decidable (_ = _))

/-- The round of `omx__progress` for an event. -/
def read : EventRing :=
  { r with
    nextEventIndex := r.nextEventIndex + 1
    releasing := decide (wrap 32 (r.nextEventIndex + 1) % z.batchNr = 0) }

/-- `omx_ioctl_release_exp_slots` and `omx_ioctl_release_unexp_slots`; the library aborts if they
fail. -/
def release (top : ℕ) : EventRing :=
  if sub 32 top r.nextreleased < z.batchNr then { r with releasing := false, aborted := true }
  else { r with releasing := false, nextreleased := r.nextreleased + z.batchNr }

theorem release_keeps (top : ℕ) : (r.release z top).nextEventIndex = r.nextEventIndex ∧
    (r.release z top).nextreserved = r.nextreserved ∧ (r.release z top).releasing = false := by
  unfold release
  split
  · exact ⟨rfl, rfl, rfl⟩
  · exact ⟨rfl, rfl, rfl⟩

/-- The reader is in its loop, and finds an event. -/
def CanRead : Prop :=
  r.aborted = false ∧ r.releasing = false ∧ r.Accepts z r.nextEventIndex

instance : Decidable (r.CanRead z) := inferInstanceAs (Decidable (_ ∧ _))

/-- The steps of a queue.  A message that is delivered at once has less than 2²² fragments, as its
length has 32 bits and a fragment at least a kilobyte. -/
def step (q : Queue) : Action → Option EventRing
  | .notify => some (r.notify z)
  | .prepare nr => if q = .unexp ∧ nr ≤ 2 ^ 22 then some (r.prepare z nr) else none
  | .commit => r.takeReserved
  | .cancel => r.takeReserved
  | .store index =>
      if index < r.nextreserved ∧ r.stage index = .writing then some (r.store z index) else none
  | .publish index => if r.stage index = .stored then some (r.publish z index) else none
  | .read => if r.CanRead z then some (r.read z) else none
  | .release =>
      if r.aborted = false ∧ r.releasing = true then
        some (r.release z (match q with | .exp => r.nextfree | .unexp => r.nextreserved))
      else none

/-- The event of the index is in its slot, with an id. -/
def Holds (index : ℕ) : Prop :=
  (r.slots (z.slot index)).event = some index ∧ (r.slots (z.slot index)).id ≠ 0

/-- The order of the counters, in 32 bits, and what the reader takes. -/
structure Coherent : Prop where
  reserved : sub 32 r.nextreserved r.nextreleased ≤ sub 32 r.nextfree r.nextreleased
  room : sub 32 r.nextfree r.nextreleased ≤ z.entryNr
  accepts : r.Accepts z r.nextEventIndex ↔ r.Holds z r.nextEventIndex

end EventRing

def machine (z : SharedRing) (q : Queue) : Machine EventRing Action where
  init := EventRing.init
  step := fun r => r.step z q

/-! ## Slots and ids -/

namespace SharedRing

variable {z : SharedRing} {i j n : ℕ}

theorem pos (z : SharedRing) : 4 ≤ z.entryNr := by
  have hbatch := z.batch_pos
  omega

theorem batch_mul_le (z : SharedRing) : 4 * z.batchNr ≤ z.entryNr := Nat.mul_div_le _ _

theorem slot_eq (h : z.Plain i) : z.slot i = i % z.entryNr := by
  rcases h with hdvd | hlt
  · exact Nat.mod_mod_of_dvd i hdvd
  · rw [slot, wrap_of_lt hlt]

theorem Plain.mono (h : z.Plain i) (hle : j ≤ i) : z.Plain j :=
  h.imp id (Nat.lt_of_le_of_lt hle)

/-- Two indexes of a window of the size of the ring have different slots. -/
theorem slot_ne (hi : n ≤ i) (hi' : i < n + z.entryNr) (hj : n ≤ j) (hj' : j < n + z.entryNr)
    (hplain : z.Plain i) (hplain' : z.Plain j) (hne : i ≠ j) : z.slot i ≠ z.slot j := by
  intro h
  rw [slot_eq hplain, slot_eq hplain'] at h
  have hmod : (i - n) % z.entryNr = (j - n) % z.entryNr := by
    refine Nat.ModEq.add_right_cancel' n ?_
    rw [Nat.sub_add_cancel hi, Nat.sub_add_cancel hj]
    exact h
  rw [Nat.mod_eq_of_lt (by omega), Nat.mod_eq_of_lt (by omega)] at hmod
  omega

theorem slot_add (h : z.Plain (n + z.entryNr)) : z.slot (n + z.entryNr) = z.slot n := by
  rw [slot_eq h, slot_eq (h.mono (Nat.le_add_right _ _)), Nat.add_mod_right]

/-- 255 is odd. -/
theorem not_dvd_of_dvd (h : z.entryNr ∣ 2 ^ 32) : ¬ 255 ∣ z.entryNr := fun h255 =>
  absurd (h255.trans h) (by decide)

/-- Where a slot and its content of the lap before have one id. -/
theorem eventId_sub_eq_iff (hplain : z.Plain n) (hn : z.entryNr ≤ n) :
    eventId (n - z.entryNr) = eventId n ↔ z.Repeats n := by
  have hle := z.le
  have hpos := z.pos
  simp only [eventId, wrap, Repeats]
  rcases Nat.lt_or_ge (n % 2 ^ 32) z.entryNr with hlow | hhigh
  · have hsub : (n - z.entryNr) % 2 ^ 32 = n % 2 ^ 32 + 2 ^ 32 - z.entryNr := by omega
    have hodd : ¬ 255 ∣ z.entryNr := by
      rcases hplain with hdvd | hlt
      · exact not_dvd_of_dvd hdvd
      · omega
    rw [hsub]
    omega
  · have hsub : (n - z.entryNr) % 2 ^ 32 = n % 2 ^ 32 - z.entryNr := by omega
    rw [hsub]
    omega

/-- A size that divides the range of the indexes is a power of two. -/
theorem four_dvd (h : z.entryNr ∣ 2 ^ 32) : 4 ∣ z.entryNr := by
  obtain ⟨k, -, hk⟩ := (Nat.dvd_prime_pow Nat.prime_two).1 h
  have hpos := z.pos
  rw [hk] at hpos ⊢
  have htwo : 2 ≤ k := (Nat.pow_le_pow_iff_right (a := 2) (by decide)).1 hpos
  exact Nat.pow_dvd_pow 2 htwo

/-- The library sees a batch end where a multiple of the batch is. -/
theorem wrap_mod_batch (h : z.Plain n) : wrap 32 n % z.batchNr = n % z.batchNr := by
  rcases h with hdvd | hlt
  · refine Nat.mod_mod_of_dvd n ?_
    have hfour : 4 ∣ z.entryNr := four_dvd hdvd
    exact (Nat.div_dvd_of_dvd hfour).trans hdvd
  · rw [wrap_of_lt hlt]

end SharedRing

/-! ## The invariant -/

/-- What the slot of an index has while its event is not stored. -/
def stale (z : SharedRing) (index : ℕ) : LapSlot :=
  if index < z.entryNr then ⟨0, none⟩
  else ⟨eventId (index - z.entryNr), some (index - z.entryNr)⟩

/-- What the slot of an index has, by what was done with the index. -/
def Stage.content (z : SharedRing) (index : ℕ) : Stage → LapSlot
  | .writing => stale z index
  | .stored => ⟨0, some index⟩
  | .published => ⟨eventId index, some index⟩

/-- The counters are in order, and a slot of the ring that starts at the reader has what its
stage says.  The index that the reader looks for is not one whose slot has its id before its
event. -/
structure Lapped (z : SharedRing) (q : Queue) (r : EventRing) : Prop where
  released : r.nextreleased ≤ r.nextEventIndex
  reserved : r.nextEventIndex ≤ r.nextreserved
  free : r.nextreserved + r.prepared = r.nextfree
  room : r.nextfree ≤ r.nextreleased + z.entryNr
  whole : q = .exp → r.prepared = 0
  batch : z.batchNr ∣ r.nextreleased
  reading : r.releasing = false → r.nextEventIndex < r.nextreleased + z.batchNr
  releasing : r.releasing = true → r.nextEventIndex = r.nextreleased + z.batchNr
  alive : r.aborted = false
  plain : z.Plain r.nextEventIndex
  past : ∀ i, i < r.nextEventIndex → r.stage i = .published
  fresh : ∀ i, r.nextreserved ≤ i → r.stage i = .writing
  begun : ∀ i, r.stage i ≠ .writing → z.Plain i
  content : ∀ i, r.nextEventIndex ≤ i → i < r.nextEventIndex + z.entryNr → z.Plain i →
    r.slots (z.slot i) = (r.stage i).content z i
  current : r.stage r.nextEventIndex = .writing → ¬ z.Repeats r.nextEventIndex

/-- The condition on a step: an index past the first 2³² is not used with a size that does not
divide 2³², and the reader does not go on to an index whose slot has its id before its event. -/
def InLap (z : SharedRing) (r : EventRing) : Action → Prop
  | .store index => z.Plain index
  | .read =>
      r.CanRead z → z.Plain (r.nextEventIndex + 1) ∧
        ((r.slots (z.slot (r.nextEventIndex + 1))).event = some (r.nextEventIndex + 1) ∨
          ¬ z.Repeats (r.nextEventIndex + 1))
  | _ => True

namespace Lapped

variable {z : SharedRing} {q : Queue} {r r' : EventRing} {i n : ℕ}

theorem init : Lapped z q EventRing.init where
  released := le_rfl
  reserved := le_rfl
  free := rfl
  room := Nat.zero_le _
  whole := fun _ => rfl
  batch := Nat.dvd_zero _
  reading := fun _ => by
    rw [EventRing.init, Nat.zero_add]
    exact z.batch_pos
  releasing := nofun
  alive := rfl
  plain := .inr (by decide)
  past := nofun
  fresh := fun _ _ => rfl
  begun := fun i h => absurd rfl h
  content := by
    intro i _ hi _
    have hlt : i < z.entryNr := by
      rwa [EventRing.init, Nat.zero_add] at hi
    exact (if_pos hlt).symm
  current := by
    rintro - (⟨-, h⟩ | ⟨-, h, -⟩)
    · exact absurd (z.pos.trans h) (by decide)
    · exact absurd h (by decide)

section
variable (hr : Lapped z q r)
include hr

/-- The indexes handed out and not yet read are in the ring that starts at the reader. -/
theorem window (h : i < r.nextreserved) : i < r.nextEventIndex + z.entryNr := by
  have h1 := hr.released
  have h2 := hr.free
  have h3 := hr.room
  omega

theorem handed (h : r.stage i ≠ .writing) : i < r.nextreserved :=
  lt_of_not_ge fun hge => h (hr.fresh i hge)

theorem unread (h : r.stage i ≠ .published) : r.nextEventIndex ≤ i :=
  le_of_not_gt fun hlt => h (hr.past i hlt)

theorem sub_free (k : ℕ) (hk : k ≤ 2 ^ 22) :
    sub 32 (r.nextfree + k) r.nextreleased = r.nextfree + k - r.nextreleased := by
  have h1 := hr.released
  have h2 := hr.reserved
  have h3 := hr.free
  have h4 := hr.room
  have h5 := z.le
  exact sub_eq_of_le_of_lt (by omega) (by omega)

theorem sub_reserved :
    sub 32 r.nextreserved r.nextreleased = r.nextreserved - r.nextreleased := by
  have h1 := hr.released
  have h2 := hr.reserved
  have h3 := hr.free
  have h4 := hr.room
  have h5 := z.le
  exact sub_eq_of_le_of_lt (by omega) (by omega)

/-- An index whose event is not stored does not have it in its slot. -/
theorem slot_of_writing (hn : r.nextEventIndex ≤ n) (hn' : n < r.nextEventIndex + z.entryNr)
    (hplain : z.Plain n) (h : r.stage n = .writing) : (r.slots (z.slot n)).event ≠ some n := by
  have hpos := z.pos
  rw [hr.content n hn hn' hplain, h]
  rcases Nat.lt_or_ge n z.entryNr with hlt | hge
  · simp [Stage.content, stale, hlt]
  · have hne : n - z.entryNr ≠ n := by omega
    simp [Stage.content, stale, hge.not_gt, hne]

/-- The reader takes an index just when its event is complete, or when it has the id already. -/
theorem accepts_iff (hn : r.nextEventIndex ≤ n) (hn' : n < r.nextEventIndex + z.entryNr)
    (hplain : z.Plain n) :
    r.Accepts z n ↔ r.stage n = .published ∨ (r.stage n = .writing ∧ z.Repeats n) := by
  rw [EventRing.Accepts, hr.content n hn hn' hplain]
  cases hstage : r.stage n with
  | writing =>
      rcases Nat.lt_or_ge n z.entryNr with hlt | hge
      · have hrep : ¬ z.Repeats n := by
          rintro (⟨-, h⟩ | ⟨-, h, -⟩)
          · exact absurd hlt h.not_gt
          · exact absurd (h.trans_lt hlt) (z.le.trans (by decide)).not_gt
        simp [Stage.content, stale, hlt, hrep, (eventId_pos n).symm]
      · simp [Stage.content, stale, hge.not_gt, SharedRing.eventId_sub_eq_iff hplain hge]
  | stored => simp [Stage.content, (eventId_pos n).symm]
  | published => simp [Stage.content]

theorem holds_iff (hn : r.nextEventIndex ≤ n) (hn' : n < r.nextEventIndex + z.entryNr)
    (hplain : z.Plain n) : r.Holds z n ↔ r.stage n = .published := by
  unfold EventRing.Holds
  cases hstage : r.stage n with
  | writing => simp [hr.slot_of_writing hn hn' hplain hstage]
  | stored => simp [hr.content n hn hn' hplain, hstage, Stage.content]
  | published => simp [hr.content n hn hn' hplain, hstage, Stage.content, eventId_pos n]

theorem coherent : r.Coherent z where
  reserved := by
    have hfree := hr.free
    have hsub := hr.sub_free 0 (by decide)
    rw [Nat.add_zero] at hsub
    rw [hr.sub_reserved, hsub]
    omega
  room := by
    have hroom := hr.room
    have hsub := hr.sub_free 0 (by decide)
    rw [Nat.add_zero] at hsub
    rw [hsub]
    omega
  accepts := by
    have hlt : r.nextEventIndex < r.nextEventIndex + z.entryNr := by
      have hpos := z.pos
      omega
    rw [hr.accepts_iff le_rfl hlt hr.plain, hr.holds_iff le_rfl hlt hr.plain]
    refine or_iff_left fun h => hr.current h.1 h.2

/-- An index is handed out. -/
theorem advance {free prepared : ℕ} (hfree : r.nextreserved + 1 + prepared = free)
    (hroom : free ≤ r.nextreleased + z.entryNr) (hwhole : q = .exp → prepared = 0) :
    Lapped z q { r with
      nextfree := free, nextreserved := r.nextreserved + 1, prepared := prepared } where
  released := hr.released
  reserved := Nat.le_succ_of_le hr.reserved
  free := hfree
  room := hroom
  whole := hwhole
  batch := hr.batch
  reading := hr.reading
  releasing := hr.releasing
  alive := hr.alive
  plain := hr.plain
  past := hr.past
  fresh := fun i hi => hr.fresh i (Nat.le_of_succ_le hi)
  begun := hr.begun
  content := hr.content
  current := hr.current

theorem notify : Lapped z q (r.notify z) := by
  unfold EventRing.notify
  split
  · rename_i hroom
    rw [SharedRing.HasRoom, hr.sub_free 1 (by decide)] at hroom
    have hfree := hr.free
    exact hr.advance (by omega) (by omega) hr.whole
  · exact hr

theorem prepare {nr : ℕ} (hq : q = .unexp) (hnr : nr ≤ 2 ^ 22) : Lapped z q (r.prepare z nr) := by
  unfold EventRing.prepare
  split
  · rename_i hroom
    rw [SharedRing.HasRoom, hr.sub_free nr hnr] at hroom
    have hfree := hr.free
    constructor
    · exact hr.released
    · exact hr.reserved
    · show r.nextreserved + (r.prepared + nr) = r.nextfree + nr
      omega
    · show r.nextfree + nr ≤ r.nextreleased + z.entryNr
      omega
    · intro h
      cases hq.symm.trans h
    · exact hr.batch
    · exact hr.reading
    · exact hr.releasing
    · exact hr.alive
    · exact hr.plain
    · exact hr.past
    · exact hr.fresh
    · exact hr.begun
    · exact hr.content
    · exact hr.current
  · exact hr

/-- The `BUG_ON` of the commit does not fire while a slot is prepared. -/
theorem takeReserved_of_prepared (hpos : 0 < r.prepared) :
    r.takeReserved =
      some { r with nextreserved := r.nextreserved + 1, prepared := r.prepared - 1 } := by
  have hfree := hr.free
  have hreleased := hr.released
  have hreserved := hr.reserved
  have hlt : ¬ sub 32 r.nextfree r.nextreleased ≤ sub 32 r.nextreserved r.nextreleased := by
    have hsub := hr.sub_free 0 (Nat.zero_le _)
    rw [Nat.add_zero] at hsub
    rw [hsub, hr.sub_reserved]
    omega
  rw [EventRing.takeReserved, if_pos hpos, if_neg hlt]

/-- A commit takes the next index. -/
theorem takeReserved (h : r.takeReserved = some r') : Lapped z q r' := by
  have hpos : 0 < r.prepared := by
    by_contra hzero
    rw [EventRing.takeReserved, if_neg hzero] at h
    cases h
  cases (hr.takeReserved_of_prepared hpos).symm.trans h
  have hfree := hr.free
  refine hr.advance (by omega) hr.room fun hq => ?_
  rw [hr.whole hq]

/-- The slot of one index is written, whose stage changes. -/
theorem write {stage : Stage} {slot : LapSlot} (hi : r.nextEventIndex ≤ i)
    (hi' : i < r.nextreserved) (hplain : z.Plain i) (hstage : stage ≠ .writing)
    (hslot : slot = stage.content z i) :
    Lapped z q { r with
      slots := Function.update r.slots (z.slot i) slot
      stage := Function.update r.stage i stage } where
  released := hr.released
  reserved := hr.reserved
  free := hr.free
  room := hr.room
  whole := hr.whole
  batch := hr.batch
  reading := hr.reading
  releasing := hr.releasing
  alive := hr.alive
  plain := hr.plain
  past := by
    intro j hj
    have hne : j ≠ i := (Nat.lt_of_lt_of_le hj hi).ne
    show Function.update r.stage i stage j = .published
    rw [Function.update_of_ne hne]
    exact hr.past j hj
  fresh := by
    intro j hj
    have hne : j ≠ i := (Nat.lt_of_lt_of_le hi' hj).ne'
    show Function.update r.stage i stage j = .writing
    rw [Function.update_of_ne hne]
    exact hr.fresh j hj
  begun := by
    intro j hj
    by_cases hne : j = i
    · rwa [hne]
    · refine hr.begun j fun h => hj ?_
      show Function.update r.stage i stage j = .writing
      rwa [Function.update_of_ne hne]
  content := by
    intro j hj hj' hplain'
    show Function.update r.slots (z.slot i) slot (z.slot j)
      = (Function.update r.stage i stage j).content z j
    by_cases hne : j = i
    · rw [hne, Function.update_self, Function.update_self]
      exact hslot
    · have hslots := SharedRing.slot_ne hj hj' hi (hr.window hi') hplain' hplain hne
      rw [Function.update_of_ne hslots, Function.update_of_ne hne]
      exact hr.content j hj hj' hplain'
  current := by
    intro h
    refine hr.current ?_
    by_cases hne : r.nextEventIndex = i
    · refine absurd h ?_
      show Function.update r.stage i stage r.nextEventIndex ≠ .writing
      rw [hne, Function.update_self]
      exact hstage
    · have hsame : Function.update r.stage i stage r.nextEventIndex = r.stage r.nextEventIndex :=
        Function.update_of_ne hne _ _
      exact hsame.symm.trans h

theorem store (hi : i < r.nextreserved) (hstage : r.stage i = .writing) (hplain : z.Plain i) :
    Lapped z q (r.store z i) := by
  have hunread : r.nextEventIndex ≤ i := hr.unread fun h => nomatch hstage.symm.trans h
  exact hr.write hunread hi hplain nofun rfl

theorem publish (hstage : r.stage i = .stored) : Lapped z q (r.publish z i) := by
  have hunread : r.nextEventIndex ≤ i := hr.unread fun h => nomatch hstage.symm.trans h
  have hbegun : r.stage i ≠ .writing := fun h => nomatch hstage.symm.trans h
  have hi := hr.handed hbegun
  have hplain := hr.begun i hbegun
  refine hr.write hunread hi hplain nofun ?_
  rw [hr.content i hunread (hr.window hi) hplain, hstage]
  rfl

/-- The event that the reader takes is complete. -/
theorem published (h : r.CanRead z) : r.stage r.nextEventIndex = .published := by
  have hlt : r.nextEventIndex < r.nextEventIndex + z.entryNr := by
    have hpos := z.pos
    omega
  rcases (hr.accepts_iff le_rfl hlt hr.plain).1 h.2.2 with hpub | ⟨hwriting, hrep⟩
  · exact hpub
  · exact absurd hrep (hr.current hwriting)

/-- The slot that the reader leaves has what is there a ring later. -/
theorem read (hcan : r.CanRead z) (hplain : z.Plain (r.nextEventIndex + 1))
    (hnext : r.stage (r.nextEventIndex + 1) = .writing → ¬ z.Repeats (r.nextEventIndex + 1)) :
    Lapped z q (r.read z) := by
  have hpub := hr.published hcan
  have hlt := hr.handed (i := r.nextEventIndex) (by rw [hpub]; nofun)
  have hreading := hr.reading hcan.2.1
  have hreleased := hr.released
  obtain ⟨k, hk⟩ := hr.batch
  have hpos := z.pos
  have hbatch := z.batch_pos
  have hmod : wrap 32 (r.nextEventIndex + 1) % z.batchNr = 0 ↔
      r.nextEventIndex + 1 = r.nextreleased + z.batchNr := by
    rw [SharedRing.wrap_mod_batch hplain]
    constructor
    · intro h
      obtain ⟨m, hm⟩ := Nat.dvd_of_mod_eq_zero h
      have hkm : k < m := by
        refine lt_of_not_ge fun hge => ?_
        have hmul := Nat.mul_le_mul_left z.batchNr hge
        omega
      have hmul := Nat.mul_le_mul_left z.batchNr hkm
      rw [Nat.mul_succ] at hmul
      omega
    · intro h
      rw [h, hk, Nat.add_mod_right, Nat.mul_mod_right]
  constructor
  · exact Nat.le_succ_of_le hreleased
  · exact hlt
  · exact hr.free
  · exact hr.room
  · exact hr.whole
  · exact hr.batch
  · intro h
    have hne : r.nextEventIndex + 1 ≠ r.nextreleased + z.batchNr := fun h' =>
      of_decide_eq_false h (hmod.2 h')
    show r.nextEventIndex + 1 < r.nextreleased + z.batchNr
    omega
  · exact fun h => hmod.1 (of_decide_eq_true h)
  · exact hr.alive
  · exact hplain
  · intro i hi
    rcases Nat.lt_succ_iff_lt_or_eq.1 hi with hi | rfl
    · exact hr.past i hi
    · exact hpub
  · exact hr.fresh
  · exact hr.begun
  · intro i hi hi' hplain'
    rcases Nat.lt_or_ge i (r.nextEventIndex + z.entryNr) with hin | hover
    · exact hr.content i (Nat.le_of_succ_le hi) hin hplain'
    · have heq : i = r.nextEventIndex + z.entryNr := by
        have : i < r.nextEventIndex + 1 + z.entryNr := hi'
        omega
      subst heq
      have hfresh : r.stage (r.nextEventIndex + z.entryNr) = .writing :=
        hr.fresh _ (by
          have hfree := hr.free
          have hroom := hr.room
          omega)
      show r.slots (z.slot (r.nextEventIndex + z.entryNr))
        = (r.stage (r.nextEventIndex + z.entryNr)).content z _
      rw [hfresh, SharedRing.slot_add hplain',
        hr.content _ le_rfl (Nat.lt_add_of_pos_right (by omega)) hr.plain, hpub]
      simp [Stage.content, stale]
  · exact hnext

/-- The batch that the reader has left is released, and the call does not fail. -/
theorem release {top : ℕ} (hreleasing : r.releasing = true) (htop : r.nextreserved ≤ top)
    (htop' : top ≤ r.nextfree) : Lapped z q (r.release z top) := by
  have hread := hr.releasing hreleasing
  have hreserved := hr.reserved
  have hroom := hr.room
  have hle := z.le
  have hbatch := z.batch_pos
  have hbatch' : 0 < z.batchNr := hbatch
  have hsub : sub 32 top r.nextreleased = top - r.nextreleased :=
    sub_eq_of_le_of_lt (by omega) (by omega)
  have hif : ¬ sub 32 top r.nextreleased < z.batchNr := by
    rw [hsub]
    omega
  unfold EventRing.release
  rw [if_neg hif]
  constructor
  · exact hread.ge
  · exact hr.reserved
  · exact hr.free
  · show r.nextfree ≤ r.nextreleased + z.batchNr + z.entryNr
    omega
  · exact hr.whole
  · exact (Nat.dvd_add_right hr.batch).2 (dvd_refl _)
  · intro _
    show r.nextEventIndex < r.nextreleased + z.batchNr + z.batchNr
    omega
  · nofun
  · exact hr.alive
  · exact hr.plain
  · exact hr.past
  · exact hr.fresh
  · exact hr.begun
  · exact hr.content
  · exact hr.current

theorem step {a : Action} (hok : InLap z r a) (h : r.step z q a = some r') : Lapped z q r' := by
  cases a with
  | notify =>
      cases h
      exact hr.notify
  | prepare nr =>
      obtain ⟨⟨hq, hnr⟩, h⟩ := (Option.ite_none_right_eq_some).1 h
      cases h
      exact hr.prepare hq hnr
  | commit => exact hr.takeReserved h
  | cancel => exact hr.takeReserved h
  | store i =>
      obtain ⟨⟨hi, hstage⟩, h⟩ := (Option.ite_none_right_eq_some).1 h
      cases h
      exact hr.store hi hstage hok
  | publish i =>
      obtain ⟨hstage, h⟩ := (Option.ite_none_right_eq_some).1 h
      cases h
      exact hr.publish hstage
  | read =>
      obtain ⟨hcan, h⟩ := (Option.ite_none_right_eq_some).1 h
      cases h
      obtain ⟨hplain, hnext⟩ := hok hcan
      refine hr.read hcan hplain fun hwriting hrep => ?_
      refine hnext.elim (hr.slot_of_writing (Nat.le_succ _) ?_ hplain hwriting) fun h => h hrep
      have hpos := z.pos
      omega
  | release =>
      obtain ⟨⟨-, hreleasing⟩, h⟩ := (Option.ite_none_right_eq_some).1 h
      cases h
      cases q with
      | exp => exact hr.release hreleasing (Nat.le.intro hr.free) le_rfl
      | unexp => exact hr.release hreleasing le_rfl (Nat.le.intro hr.free)

end

end Lapped

/-! ## Every run -/

section
variable {z : SharedRing} {q : Queue} {r : EventRing}

/-- Where the reader goes on, it takes the next index just when this one is complete, if the next
one is. -/
theorem Lapped.inLap_of_coherent (hr : Lapped z q r) (hdvd : z.entryNr ∣ 2 ^ 32) {a : Action}
    (h : ∀ r' ∈ r.step z q a, r'.Coherent z) : InLap z r a := by
  cases a with
  | notify => trivial
  | prepare nr => trivial
  | commit => trivial
  | cancel => trivial
  | store i => exact .inl hdvd
  | publish i => trivial
  | release => trivial
  | read =>
      intro hcan
      have haccepts := (h (r.read z) (if_pos hcan)).accepts
      have hplain : z.Plain (r.nextEventIndex + 1) := .inl hdvd
      have hlt : r.nextEventIndex + 1 < r.nextEventIndex + z.entryNr := by
        have hpos := z.pos
        omega
      have hiff : r.Accepts z (r.nextEventIndex + 1) ↔ r.Holds z (r.nextEventIndex + 1) := haccepts
      rw [hr.accepts_iff (Nat.le_succ _) hlt hplain] at hiff
      refine ⟨hplain, ?_⟩
      by_cases hrep : z.Repeats (r.nextEventIndex + 1)
      · left
        rw [hr.content _ (Nat.le_succ _) hlt hplain]
        cases hstage : r.stage (r.nextEventIndex + 1) with
        | writing =>
            refine absurd (hiff.1 (.inr ⟨hstage, hrep⟩)).1 ?_
            exact hr.slot_of_writing (Nat.le_succ _) hlt hplain hstage
        | stored => rfl
        | published => rfl
      · exact .inr hrep

end

/-- In a run whose steps meet the condition, the counters are in order in 32 bits, and the reader
takes the slot that it looks at just when this holds the event of its index.  With a size that
divides 2³² only such runs are so throughout. -/
theorem machine_coherent_iff (z : SharedRing) (q : Queue) (as : List Action) :
    ((machine z q).Meets (InLap z) EventRing.init as →
        ∀ bs, bs <+: as → ∀ r, (machine z q).exec EventRing.init bs = some r → r.Coherent z) ∧
      (z.entryNr ∣ 2 ^ 32 →
        (∀ bs, bs <+: as → ∀ r, (machine z q).exec EventRing.init bs = some r → r.Coherent z) →
        (machine z q).Meets (InLap z) EventRing.init as) := by
  have hinv : ∀ r a r', Lapped z q r → InLap z r a → (machine z q).step r a = some r' →
      Lapped z q r' := fun r a r' hr hok h => hr.step hok h
  constructor
  · intro hm bs hbs r hrun
    exact ((hm.of_prefix _ hbs).invariant hinv Lapped.init hrun).coherent
  · intro hdvd
    refine (Machine.meets_iff_forall_prefix hinv (fun _ hr => hr.coherent) ?_ Lapped.init).2
    intro r a hr
    exact ⟨fun hok r' h => (hr.step hok h).coherent, hr.inLap_of_coherent hdvd⟩

/-! ## A ring of 256 slots -/

namespace Lapped

variable {z : SharedRing} {r : EventRing}

/-- An event of an index is reported and complete, to a reader that waits for it. -/
theorem reported (hr : Lapped z .exp r) (hnext : r.nextreserved = r.nextEventIndex)
    (hidle : r.releasing = false) :
    ∃ r', (machine z .exp).exec r
        [.notify, .store r.nextEventIndex, .publish r.nextEventIndex] = some r' ∧
      Lapped z .exp r' ∧ r'.CanRead z ∧ r'.nextEventIndex = r.nextEventIndex ∧
        r'.nextreserved = r.nextEventIndex + 1 := by
  have hread := hr.reading hidle
  have hfree := hr.free
  have hprepared := hr.whole rfl
  have hbatch := z.batch_mul_le
  have hroom : z.HasRoom (r.nextfree + 1) r.nextreleased := by
    rw [SharedRing.HasRoom, hr.sub_free 1 (by decide)]
    omega
  have hstage : r.stage r.nextEventIndex = .writing := hr.fresh _ hnext.le
  obtain ⟨r₁, hr₁⟩ : ∃ r₁, r₁ = r.notify z := ⟨_, rfl⟩
  have hnotify : r₁ = { r with
      nextfree := r.nextfree + 1, nextreserved := r.nextreserved + 1 } := hr₁.trans (if_pos hroom)
  have hi : r₁.nextEventIndex < r₁.nextreserved := by
    rw [hnotify]
    exact Nat.lt_succ_of_le hnext.ge
  have hL₁ : Lapped z .exp r₁ := hr₁ ▸ hr.notify
  have hn₁ : r₁.nextEventIndex = r.nextEventIndex := by rw [hnotify]
  have hstage₁ : r₁.stage r₁.nextEventIndex = .writing := by
    rw [hn₁, hnotify]
    exact hstage
  have hL₂ := hL₁.store hi hstage₁ hL₁.plain
  have hstage₂ : (r₁.store z r₁.nextEventIndex).stage r₁.nextEventIndex = .stored :=
    Function.update_self ..
  have hL₃ := hL₂.publish hstage₂
  refine ⟨(r₁.store z r₁.nextEventIndex).publish z r₁.nextEventIndex, ?_, hL₃, ?_, hn₁, ?_⟩
  · refine (Machine.exec_cons_eq_some _).2 ⟨r₁, congrArg some hr₁.symm, ?_⟩
    refine (Machine.exec_cons_eq_some _).2 ⟨r₁.store z r₁.nextEventIndex, ?_, ?_⟩
    · rw [← hn₁]
      exact if_pos ⟨hi, hstage₁⟩
    · refine (Machine.exec_cons_eq_some _).2 ⟨_, ?_, rfl⟩
      rw [← hn₁]
      exact if_pos hstage₂
  · refine ⟨hL₃.alive, ?_, ?_⟩
    · show r₁.releasing = false
      rw [hnotify]
      exact hidle
    · refine (hL₃.accepts_iff le_rfl ?_ hL₃.plain).2 (.inl (Function.update_self ..))
      exact Nat.lt_add_of_pos_right (Nat.lt_of_lt_of_le (by decide) z.pos)
  · show r₁.nextreserved = _
    rw [hnotify]
    exact congrArg (· + 1) hnext

/-- The reader takes event after event, each when it comes, up to any index of the first 2³². -/
theorem reaches_index (hids : ¬ 255 ∣ z.entryNr) : ∀ n < 2 ^ 32, ∃ as r,
    (machine z .exp).exec EventRing.init as = some r ∧ Lapped z .exp r ∧
      r.nextEventIndex = n ∧ r.nextreserved = n ∧ r.releasing = false
  | 0, _ => ⟨[], EventRing.init, rfl, init, rfl, rfl, rfl⟩
  | n + 1, hn => by
      obtain ⟨as, r, hrun, hr, rfl, hnext, hidle⟩ := reaches_index hids n (Nat.lt_of_succ_lt hn)
      obtain ⟨r', hrun', hr', hcan, hn', hnext'⟩ := hr.reported hnext hidle
      have hrep : ¬ z.Repeats (r'.nextEventIndex + 1) := by
        rw [hn']
        rintro (⟨h, -⟩ | ⟨-, h, -⟩)
        · exact hids h
        · exact absurd hn h.not_gt
      have hread := hr'.read hcan (.inr (by rwa [hn'])) fun _ => hrep
      have hexec : (machine z .exp).exec EventRing.init (as ++ ([.notify, .store r.nextEventIndex,
          .publish r.nextEventIndex] ++ [.read])) = some (r'.read z) := by
        rw [Machine.exec_append, hrun, Option.bind_some, Machine.exec_append, hrun',
          Option.bind_some]
        exact (Machine.exec_cons_eq_some _).2 ⟨_, if_pos hcan, rfl⟩
      cases hreleasing : (r'.read z).releasing with
      | false => exact ⟨_, _, hexec, hread, congrArg (· + 1) hn', hnext', hreleasing⟩
      | true =>
          have hrelease := hread.release hreleasing (Nat.le.intro hread.free) le_rfl
          have hkeeps := EventRing.release_keeps z (r'.read z) (r'.read z).nextfree
          refine ⟨as ++ ([.notify, .store r.nextEventIndex, .publish r.nextEventIndex] ++ [.read])
            ++ [.release], _, ?_, hrelease, hkeeps.1.trans (congrArg (· + 1) hn'),
            hkeeps.2.1.trans hnext', hkeeps.2.2⟩
          rw [Machine.exec_append, hexec, Option.bind_some]
          exact (Machine.exec_cons_eq_some _).2 ⟨_, if_pos ⟨hread.alive, hreleasing⟩, rfl⟩

end Lapped

/-- With a ring of 256 slots, the reader that has taken the last index of the first 2³² takes the
event of the index 2³² - 256 again. -/
theorem machine_not_coherent : ¬ ∀ (z : SharedRing) (q : Queue) (as : List Action) (r : EventRing),
    (machine z q).exec EventRing.init as = some r → r.Coherent z := by
  intro h
  obtain ⟨as, r, hrun, hr, hn, hnext, hidle⟩ :=
    Lapped.reaches_index (z := .notes) (by decide) (2 ^ 32 - 1) (by decide)
  obtain ⟨r', hrun', hr', hcan, hn', hnext'⟩ := hr.reported (hnext.trans hn.symm) hidle
  have hlast : r'.nextEventIndex + 1 = 2 ^ 32 := by omega
  have hplain : SharedRing.notes.Plain (2 ^ 32) := .inl (by decide)
  have hlo : r'.nextEventIndex ≤ 2 ^ 32 := by omega
  have hhi : 2 ^ 32 < r'.nextEventIndex + SharedRing.notes.entryNr := by
    have hpos := SharedRing.notes.pos
    omega
  have hstage : r'.stage (2 ^ 32) = .writing := hr'.fresh _ (by omega)
  have haccepts : r'.Accepts .notes (2 ^ 32) :=
    (hr'.accepts_iff hlo hhi hplain).2 (.inr ⟨hstage, .inr (by decide)⟩)
  have hholds : ¬ r'.Holds .notes (2 ^ 32) := fun hholds =>
    nomatch hstage.symm.trans ((hr'.holds_iff hlo hhi hplain).1 hholds)
  have hexec : (machine .notes .exp).exec EventRing.init (as ++ ([.notify,
      .store r.nextEventIndex, .publish r.nextEventIndex] ++ [.read])) = some (r'.read .notes) := by
    rw [Machine.exec_append, hrun, Option.bind_some, Machine.exec_append, hrun', Option.bind_some]
    exact (Machine.exec_cons_eq_some _).2 ⟨_, if_pos hcan, rfl⟩
  have hiff : r'.Accepts .notes (r'.nextEventIndex + 1) ↔ r'.Holds .notes (r'.nextEventIndex + 1) :=
    (h .notes .exp _ _ hexec).accepts
  rw [hlast] at hiff
  exact hholds (hiff.1 haccepts)

end Xen2mx.Eventq.Laps
