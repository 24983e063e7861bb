/-
# `Xen2mx.Eventq.Delivery` — every event is read once

A notifier takes an index and then looks for room, so a notifier that finds none turns
back a counter that others have moved on.  If one of them holds an index above and keeps
it, the index below is a hole that the reader never gets past, and the next notifier takes
the index above a second time.  `InOrder` is what rules this out, and with it the two
counters of the unexpected queue hand out an initial segment of the indices, each once
(`Tickets`); the slots then take care of themselves (`RingInv`).

The expected queue is the unexpected one without receptions, and its two counters in
one: its runs are runs of the unexpected queue (`ExpEventq.toUnexp`).

**Proved here.**

    checks and commits in order  ⟹  each notified event is read once, in slot order,
                                     by a reader that is never stuck      (`event_exactlyOnce`)
-/
import Xen2mx.Eventq.Slots
import Xen2mx.Lib.Tickets

namespace Xen2mx.Eventq

open Word

universe u

variable {ε : Type u} {z : RingSize}

/-! ## What is claimed -/

variable (z) in
/-- The events of a ring are delivered once, given the indices that notifiers hold and may
still give up. -/
structure ExactlyOnce (r : Ring ε) (reserved : List ℕ) : Prop where
  oneWriter : (r.handed.map Notification.index).Nodup
  noHole : ∀ n ∈ r.handed, ∀ i < n.index, r.Held reserved i
  /-- The events read so far are those of the first indices, in their order. -/
  inOrder : r.log.length = r.nextEventIndex ∧
    ∀ k < r.nextEventIndex, ∃ n ∈ r.handed, n.index = k ∧ r.log[k]? = some n.event
  /-- An event that is complete is in its slot until it is read, -/
  intact : ∀ n, r.Published n → r.nextEventIndex ≤ n.index →
    r.slots (z.slot n.index) = ⟨eventId n.index, n.event⟩
  running : r.aborted = false
  /-- and the reader stops only when it has read all events. -/
  atRest : reserved = [] → r.writing = [] → r.stored = [] → r.pc = .idle → ¬ r.HasEvent z →
    r.log.length = r.handed.length

/-! ## Indices as tickets -/

/-- Blocks of one number. -/
def units (is : List ℕ) : Multiset Block := (is.map fun i => (i, 1) : List Block)

@[simp] theorem units_cons (i : ℕ) (is : List ℕ) : units (i :: is) = (i, 1) ::ₘ units is := rfl

theorem mem_units {is : List ℕ} {b : Block} : b ∈ units is ↔ b.1 ∈ is ∧ b.2 = 1 := by
  rw [units, Multiset.mem_coe, List.mem_map]
  constructor
  · rintro ⟨i, hi, rfl⟩
    exact ⟨hi, rfl⟩
  · rintro ⟨hi, hlen⟩
    exact ⟨b.1, hi, Prod.ext rfl hlen.symm⟩

theorem span_units (is : List ℕ) : span (units is) = is.length := by
  induction is with
  | nil => rfl
  | cons i is ih =>
      rw [units_cons, span_cons, ih, List.length_cons]
      omega

theorem covers_units_iff {is js : List ℕ} {i : ℕ} :
    Covers (units is + units js) i ↔ i ∈ is ∨ i ∈ js := by
  constructor
  · rintro ⟨b, hb, hlo, hhi⟩
    rcases Multiset.mem_add.1 hb with hb | hb
    · obtain ⟨hmem, hlen⟩ := mem_units.1 hb
      obtain rfl : i = b.1 := by omega
      exact .inl hmem
    · obtain ⟨hmem, hlen⟩ := mem_units.1 hb
      obtain rfl : i = b.1 := by omega
      exact .inr hmem
  · rintro (h | h)
    · exact ⟨(i, 1), Multiset.mem_add.2 (.inl (mem_units.2 ⟨h, rfl⟩)), le_rfl, Nat.lt_succ_self i⟩
    · exact ⟨(i, 1), Multiset.mem_add.2 (.inr (mem_units.2 ⟨h, rfl⟩)), le_rfl, Nat.lt_succ_self i⟩

theorem units_erase [DecidableEq ε] {l : List (ℕ × ε)} {n : ℕ × ε} (hn : n ∈ l) :
    units (l.map Prod.fst) = (n.1, 1) ::ₘ units ((l.erase n).map Prod.fst) := by
  have hperm := ((List.perm_cons_erase hn).map Prod.fst).map fun i => (i, 1)
  exact Multiset.coe_eq_coe.2 hperm

theorem sum_ones (k : ℕ) : (Multiset.replicate k 1).sum = k := by
  induction k with
  | zero => rfl
  | succ k ih =>
      rw [Multiset.replicate_succ, Multiset.sum_cons, ih]
      omega

/-! ## The unexpected queue -/

namespace UnexpEventq

/-- Slots counted by `nextfree` that have no index yet. -/
def uncommitted (q : UnexpEventq ε) : ℕ :=
  q.prepared.length + span (q.preparing : Multiset Block) + q.prepareFailed.sum

/-- Slots of notifiers at work. -/
def inflight (q : UnexpEventq ε) : ℕ := q.notifying.length + q.notifyFailed + q.uncommitted

variable (z) in
/-- A step that takes an index in order.  A notifier that finds room holds the lowest index
that is not taken for good, those held by notifiers that go on aside; so does a commit,
less than a ring ahead of the reader.  A notifier that finds no room has no index below one
that was taken for good.  And fewer than 2³¹ slots are being reserved at a time. -/
def InOrder (q : UnexpEventq ε) : UnexpAction ε → Prop
  | .notify _ => q.inflight < 2 ^ 31
  | .notifyCheck n =>
      if z.hasRoom q.nextfree q.ring.nextreleased then
        ∀ i < n.1, q.ring.Held (q.notifying.map Prod.fst) i
      else ∀ m ∈ q.ring.handed, m.index < n.1
  | .prepare nr => q.inflight + nr ≤ 2 ^ 31
  | .commit _ _ | .cancel _ =>
      (∀ i < q.nextreserved, q.ring.Held (q.notifying.map Prod.fst) i) ∧
        q.nextreserved < q.ring.nextEventIndex + z.entryNr
  | _ => True

instance (q : UnexpEventq ε) : DecidablePred (InOrder z q) := fun a => by
  unfold InOrder
  split <;> infer_instance

variable (z) in
structure Inv (q : UnexpEventq ε) : Prop where
  ring : RingInv z q.ring
  tickets : Tickets (units (q.ring.handed.map Notification.index))
    (units (q.notifying.map Prod.fst)) (Multiset.replicate q.notifyFailed 1) q.nextreserved
  free : q.nextfree = q.nextreserved + q.uncommitted
  bound : q.inflight ≤ 2 ^ 31
  noBug : q.bug = false

namespace Inv

variable {q : UnexpEventq ε}

theorem init : Inv z (UnexpEventq.init : UnexpEventq ε) where
  ring := .init
  tickets := .start
  free := rfl
  bound := Nat.zero_le _
  noBug := rfl

/-- The reader is not ahead of the counter. -/
theorem next_le (hq : Inv z q) : q.ring.nextEventIndex ≤ q.nextreserved := by
  rcases Nat.eq_zero_or_pos q.ring.nextEventIndex with hzero | hpos
  · rw [hzero]
    exact Nat.zero_le _
  · obtain ⟨n, hn, hi, -⟩ := hq.ring.log_get (q.ring.nextEventIndex - 1) (by omega)
    have hle := hq.tickets.le (b := (n.index, 1)) (mem_units.2 ⟨List.mem_map_of_mem hn, rfl⟩)
    dsimp only at hle
    omega

/-- And the counters are not too far ahead of the reader. -/
theorem nextfree_lt (hq : Inv z q) : q.nextfree < q.ring.nextreleased + 2 ^ 32 := by
  have hcount := hq.tickets.count
  rw [span_units, span_units, List.length_map, List.length_map, sum_ones] at hcount
  have hhanded : (q.ring.handed.map Notification.index).length ≤
      (List.range (q.ring.nextEventIndex + z.entryNr)).length := by
    refine (List.subperm_of_subset hq.ring.nodup fun i hi => ?_).length_le
    obtain ⟨n, hn, rfl⟩ := List.mem_map.1 hi
    exact List.mem_range.2 (hq.ring.capacity n hn)
  rw [List.length_map, List.length_range] at hhanded
  have hread : q.ring.nextEventIndex ≤ q.ring.nextreleased + z.batchNr := by
    by_cases hpc : q.ring.pc = .releasing
    · exact (hq.ring.releasing hpc).le
    · exact (hq.ring.reading hpc).le
  have hbatch := z.batch_mul
  have hlt := z.lt
  have hfree := hq.free
  have hbound := hq.bound
  rw [inflight] at hbound
  omega

theorem sub_nextfree (hq : Inv z q) :
    sub 32 q.nextfree q.ring.nextreleased = q.nextfree - q.ring.nextreleased := by
  have hle := hq.next_le
  have hreleased := hq.ring.released
  have hfree := hq.free
  exact sub_eq_of_le_of_lt (by omega) hq.nextfree_lt

/-- An index below the counter, when there is room, is less than a ring ahead. -/
theorem lt_of_hasRoom (hq : Inv z q) (hroom : z.hasRoom q.nextfree q.ring.nextreleased) :
    q.nextreserved ≤ q.ring.nextEventIndex + z.entryNr := by
  have hreleased := hq.ring.released
  have hfree := hq.free
  rw [RingSize.hasRoom, hq.sub_nextfree] at hroom
  omega

section
variable [DecidableEq ε]

theorem notifyCheck_pass (hq : Inv z q) {n : ℕ × ε} (hn : n ∈ q.notifying)
    (hroom : z.hasRoom q.nextfree q.ring.nextreleased)
    (hbelow : ∀ i < n.1, q.ring.Held (q.notifying.map Prod.fst) i) :
    Inv z { q with
      notifying := q.notifying.erase n
      ring := q.ring.hand { index := n.1, event := some n.2, recvq := none } } := by
  have htickets := hq.tickets
  rw [units_erase hn] at htickets
  have hkept := htickets.keep fun i hi => by
    rw [← units_erase hn]
    exact covers_units_iff.2 (hbelow i hi)
  have hlen := List.length_erase_of_mem hn
  have hpos := List.length_pos_of_mem hn
  have hbound := hq.bound
  have hle := hkept.le (Multiset.mem_cons_self _ _)
  have hcap := hq.lt_of_hasRoom hroom
  have hfresh : n.1 ∉ q.ring.handed.map Notification.index := by
    have hnodup := hkept.nodup
    rw [Multiset.map_cons] at hnodup
    intro hmem
    exact (Multiset.nodup_cons.1 hnodup).1
      (Multiset.mem_map.2 ⟨(n.1, 1), mem_units.2 ⟨hmem, rfl⟩, rfl⟩)
  refine ⟨hq.ring.hand hfresh ?_, hkept, hq.free, ?_, hq.noBug⟩
  · dsimp only at hle ⊢
    omega
  · rw [inflight] at hbound ⊢
    show (q.notifying.erase n).length + q.notifyFailed + q.uncommitted ≤ 2 ^ 31
    omega

theorem notifyCheck_fail (hq : Inv z q) {n : ℕ × ε} (hn : n ∈ q.notifying)
    (habove : ∀ m ∈ q.ring.handed, m.index < n.1) :
    Inv z { q with
      notifying := q.notifying.erase n
      notifyFailed := q.notifyFailed + 1 } := by
  have htickets := hq.tickets
  rw [units_erase hn] at htickets
  have hlen := List.length_erase_of_mem hn
  have hpos := List.length_pos_of_mem hn
  have hbound := hq.bound
  refine ⟨hq.ring, ?_, hq.free, ?_, hq.noBug⟩
  · rw [Multiset.replicate_succ]
    refine htickets.fail fun b hb => ?_
    obtain ⟨m, hm, hi⟩ := List.mem_map.1 (mem_units.1 hb).1
    rw [← hi]
    exact habove m hm
  · rw [inflight] at hbound ⊢
    show (q.notifying.erase n).length + (q.notifyFailed + 1) + q.uncommitted ≤ 2 ^ 31
    omega

end

theorem notifyRollback (hq : Inv z q) (hfailed : 0 < q.notifyFailed) :
    Inv z { q with
      nextfree := q.nextfree - 1
      nextreserved := q.nextreserved - 1
      notifyFailed := q.notifyFailed - 1 } := by
  obtain ⟨k, hk⟩ := Nat.exists_eq_succ_of_ne_zero hfailed.ne'
  have htickets := hq.tickets
  have hfree := hq.free
  have hbound := hq.bound
  have hcount := htickets.count
  rw [hk, Multiset.replicate_succ] at htickets
  rw [hk, sum_ones] at hcount
  refine ⟨hq.ring, ?_, ?_, ?_, hq.noBug⟩
  · show Tickets _ _ (Multiset.replicate (q.notifyFailed - 1) 1) _
    rw [hk, Nat.succ_sub_one]
    exact htickets.rollback
  · show q.nextfree - 1 = q.nextreserved - 1 + q.uncommitted
    omega
  · rw [inflight] at hbound ⊢
    show q.notifying.length + (q.notifyFailed - 1) + q.uncommitted ≤ 2 ^ 31
    omega

theorem notify (hq : Inv z q) (event : ε) (hroom : q.inflight < 2 ^ 31) :
    Inv z { q with
      nextfree := q.nextfree + 1
      nextreserved := q.nextreserved + 1
      notifying := (q.nextreserved, event) :: q.notifying } := by
  have hfree := hq.free
  refine ⟨hq.ring, hq.tickets.reserve Nat.one_pos, ?_, ?_, hq.noBug⟩
  · show q.nextfree + 1 = q.nextreserved + 1 + q.uncommitted
    omega
  · rw [inflight] at hroom ⊢
    show q.notifying.length + 1 + q.notifyFailed + q.uncommitted ≤ 2 ^ 31
    omega

/-- A section that moves `nextfree` with the slots that have no index yet. -/
theorem congr {q' : UnexpEventq ε} (hq : Inv z q) (hring : q'.ring = q.ring)
    (hreserved : q'.nextreserved = q.nextreserved) (hnotifying : q'.notifying = q.notifying)
    (hfailed : q'.notifyFailed = q.notifyFailed) (hbug : q'.bug = q.bug)
    (hfree : q'.nextfree + q.uncommitted = q.nextfree + q'.uncommitted)
    (hbound : q'.inflight ≤ 2 ^ 31) : Inv z q' where
  ring := by rw [hring]; exact hq.ring
  tickets := by rw [hring, hnotifying, hfailed, hreserved]; exact hq.tickets
  free := by
    have := hq.free
    omega
  bound := hbound
  noBug := hbug.trans hq.noBug

theorem sum_erase {l : List ℕ} {x : ℕ} (h : x ∈ l) : x + (l.erase x).sum = l.sum :=
  List.sum_erase h

theorem span_erase {l : List Block} {b : Block} (h : b ∈ l) :
    b.2 + span (l.erase b : Multiset Block) = span (l : Multiset Block) := by
  rw [Multiset.coe_eq_coe.2 (List.perm_cons_erase h), ← Multiset.cons_coe, span_cons]

theorem prepare (hq : Inv z q) {nr : ℕ} (hroom : q.inflight + nr ≤ 2 ^ 31) :
    Inv z { q with
      nextfree := q.nextfree + nr
      nextRecvq := q.nextRecvq + nr
      preparing := (q.nextRecvq, nr) :: q.preparing } := by
  refine hq.congr rfl rfl rfl rfl rfl ?_ ?_
  · simp only [uncommitted, ← Multiset.cons_coe, span_cons]
    omega
  · simp only [inflight, uncommitted, ← Multiset.cons_coe, span_cons] at hroom ⊢
    omega

theorem prepareCheck_pass (hq : Inv z q) {b : ℕ × ℕ} (hb : b ∈ q.preparing) :
    Inv z { q with
      preparing := q.preparing.erase b
      prepared := List.range' b.1 b.2 ++ q.prepared
      blocks := b :: q.blocks } := by
  have hspan := span_erase hb
  have hbound := hq.bound
  refine hq.congr rfl rfl rfl rfl rfl ?_ ?_
  · simp only [uncommitted, List.length_append, List.length_range']
    omega
  · simp only [inflight, uncommitted, List.length_append, List.length_range'] at hbound ⊢
    omega

theorem prepareCheck_fail (hq : Inv z q) {b : ℕ × ℕ} (hb : b ∈ q.preparing) :
    Inv z { q with
      preparing := q.preparing.erase b
      prepareFailed := b.2 :: q.prepareFailed } := by
  have hspan := span_erase hb
  have hbound := hq.bound
  refine hq.congr rfl rfl rfl rfl rfl ?_ ?_
  · simp only [uncommitted, List.sum_cons]
    omega
  · simp only [inflight, uncommitted, List.sum_cons] at hbound ⊢
    omega

theorem prepareRollback (hq : Inv z q) {nr : ℕ} (hnr : nr ∈ q.prepareFailed) :
    Inv z { q with
      nextfree := q.nextfree - nr
      nextRecvq := q.nextRecvq - nr
      prepareFailed := q.prepareFailed.erase nr } := by
  have hsum := sum_erase hnr
  have hfree := hq.free
  have hbound := hq.bound
  rw [uncommitted] at hfree
  refine hq.congr rfl rfl rfl rfl rfl ?_ ?_
  · simp only [uncommitted]
    omega
  · simp only [inflight, uncommitted] at hbound ⊢
    omega

/-- The index of a commit or a cancel. -/
theorem takeReserved (hq : Inv z q) {y : ℕ} (hy : y ∈ q.prepared)
    (hbelow : ∀ i < q.nextreserved, q.ring.Held (q.notifying.map Prod.fst) i)
    (hlt : q.nextreserved < q.ring.nextEventIndex + z.entryNr) (event : Option ε)
    (recvq : Option ℕ) :
    Inv z ({ q with prepared := q.prepared.erase y }.takeReserved event recvq) := by
  have hlen := List.length_erase_of_mem hy
  have hpos := List.length_pos_of_mem hy
  have hfree := hq.free
  have hbound := hq.bound
  have htop := hq.nextfree_lt
  have hle := hq.next_le
  have hreleased := hq.ring.released
  rw [uncommitted] at hfree
  have hroom : ¬ sub 32 q.nextfree q.ring.nextreleased ≤
      sub 32 q.nextreserved q.ring.nextreleased := by
    rw [hq.sub_nextfree, sub_eq_of_le_of_lt (by omega) (by omega)]
    omega
  have hkept := hq.tickets.take Nat.one_pos fun i hi => covers_units_iff.2 (hbelow i hi)
  have hfresh : q.nextreserved ∉ q.ring.handed.map Notification.index := by
    intro hmem
    have := hq.tickets.le (b := (q.nextreserved, 1)) (mem_units.2 ⟨hmem, rfl⟩)
    dsimp only at this
    omega
  rw [UnexpEventq.takeReserved, if_neg hroom]
  refine ⟨hq.ring.hand hfresh hlt, hkept, ?_, ?_, hq.noBug⟩
  · simp only [uncommitted]
    omega
  · simp only [inflight, uncommitted] at hbound ⊢
    omega

variable [DecidableEq ε]

theorem next (hq : Inv z q) {a : UnexpAction ε} {q' : UnexpEventq ε} (hok : InOrder z q a)
    (h : q.next z a = some q') : Inv z q' := by
  cases a with
  | notify event =>
      cases h
      exact hq.notify event hok
  | notifyCheck n =>
      obtain ⟨hn, h⟩ := Option.ite_none_right_eq_some.1 h
      rw [InOrder] at hok
      split at h
      · rename_i hroom
        cases h
        rw [if_pos hroom] at hok
        exact hq.notifyCheck_pass hn hroom hok
      · rename_i hroom
        cases h
        rw [if_neg hroom] at hok
        exact hq.notifyCheck_fail hn hok
  | notifyRollback =>
      obtain ⟨hfailed, h⟩ := Option.ite_none_right_eq_some.1 h
      cases h
      exact hq.notifyRollback hfailed
  | prepare nr =>
      obtain ⟨-, h⟩ := Option.ite_none_right_eq_some.1 h
      cases h
      exact hq.prepare hok
  | prepareCheck b =>
      obtain ⟨hb, h⟩ := Option.ite_none_right_eq_some.1 h
      split at h
      · cases h
        exact hq.prepareCheck_pass hb
      · cases h
        exact hq.prepareCheck_fail hb
  | prepareRollback nr =>
      obtain ⟨hnr, h⟩ := Option.ite_none_right_eq_some.1 h
      cases h
      exact hq.prepareRollback hnr
  | commit y event =>
      obtain ⟨hy, h⟩ := Option.ite_none_right_eq_some.1 h
      cases h
      exact hq.takeReserved hy hok.1 hok.2 _ _
  | cancel y =>
      obtain ⟨hy, h⟩ := Option.ite_none_right_eq_some.1 h
      cases h
      exact hq.takeReserved hy hok.1 hok.2 _ _
  | ring a =>
      obtain ⟨r, hr, h⟩ := Option.map_eq_some_iff.1 h
      cases h
      have hlt : q.nextreserved < q.ring.nextreleased + 2 ^ 32 := by
        have := hq.nextfree_lt
        have := hq.free
        omega
      obtain ⟨hring, hhanded⟩ := hq.ring.step hq.next_le hlt hr
      refine ⟨hring, ?_, hq.free, hq.bound, hq.noBug⟩
      show Tickets (units (r.handed.map Notification.index)) _ _ _
      rw [hhanded]
      exact hq.tickets

omit [DecidableEq ε] in
theorem exactlyOnce (hq : Inv z q) : ExactlyOnce z q.ring (q.notifying.map Prod.fst) := by
  have hnoHole : ∀ n ∈ q.ring.handed, ∀ i < n.index,
      q.ring.Held (q.notifying.map Prod.fst) i := by
    intro n hn i hi
    have hmem : (n.index, 1) ∈ units (q.ring.handed.map Notification.index) :=
      mem_units.2 ⟨List.mem_map_of_mem hn, rfl⟩
    exact covers_units_iff.1 (hq.tickets.covered hmem hi)
  refine ⟨hq.ring.nodup, hnoHole, ⟨hq.ring.log, hq.ring.log_get⟩, hq.ring.slot_published,
    hq.ring.alive, ?_⟩
  intro hreserved hwriting hstored hpc hno
  have hread : ∀ n ∈ q.ring.handed, n.index < q.ring.nextEventIndex := by
    intro n hn
    by_contra hge
    have hheld : q.ring.nextEventIndex ∈ q.ring.handed.map Notification.index := by
      rcases Nat.lt_or_ge q.ring.nextEventIndex n.index with hlt | hle
      · refine (hnoHole n hn _ hlt).resolve_right ?_
        rw [hreserved]
        exact List.not_mem_nil
      · rw [show q.ring.nextEventIndex = n.index by omega]
        exact List.mem_map_of_mem hn
    obtain ⟨m, hm, hi⟩ := List.mem_map.1 hheld
    refine hno (hq.ring.hasEvent_of_published ⟨hm, ?_, ?_⟩ hi)
    · rw [hwriting]
      exact List.not_mem_nil
    · rw [hstored]
      exact List.not_mem_nil
  have hle : (q.ring.handed.map Notification.index).length ≤
      (List.range q.ring.nextEventIndex).length := by
    refine (List.subperm_of_subset hq.ring.nodup fun i hi => ?_).length_le
    obtain ⟨n, hn, rfl⟩ := List.mem_map.1 hi
    exact List.mem_range.2 (hread n hn)
  have hge : (List.range q.ring.nextEventIndex).length ≤
      (q.ring.handed.map Notification.index).length := by
    refine (List.subperm_of_subset List.nodup_range fun i hi => ?_).length_le
    obtain ⟨n, hn, rfl, -⟩ := hq.ring.log_get i (List.mem_range.1 hi)
    exact List.mem_map_of_mem hn
  rw [List.length_map, List.length_range] at hle hge
  rw [hq.ring.log]
  omega

end Inv

theorem inv [DecidableEq ε] {q : UnexpEventq ε} (h : (machine z).Reaches (InOrder z) q) :
    Inv z q := by
  refine h.invariant Inv.init fun q a q' hq hok hstep => ?_
  have hstep' : q.next z a = some q' := by
    have hbug : ¬ q.bug = true := by
      rw [hq.noBug]
      exact Bool.false_ne_true
    have h : (if q.bug then none else q.next z a) = some q' := hstep
    rwa [if_neg hbug] at h
  exact hq.next hok hstep'

end UnexpEventq

/-! ## The expected queue -/

namespace ExpEventq

/-- The unexpected queue that behaves like an expected one. -/
def toUnexp (q : ExpEventq ε) : UnexpEventq ε :=
  { ring := q.ring
    nextfree := q.nextfree
    nextreserved := q.nextfree
    nextRecvq := 0
    notifying := q.notifying
    notifyFailed := q.notifyFailed
    preparing := []
    prepareFailed := []
    prepared := []
    blocks := []
    bug := false }

def toUnexpAction : ExpAction ε → UnexpAction ε
  | .notify event => .notify event
  | .check n => .notifyCheck n
  | .rollback => .notifyRollback
  | .ring a => .ring a

variable (z) in
/-- A step that takes an index in order, as in the unexpected queue. -/
def InOrder (q : ExpEventq ε) : ExpAction ε → Prop
  | .notify _ => q.notifying.length + q.notifyFailed < 2 ^ 31
  | .check n =>
      if z.hasRoom q.nextfree q.ring.nextreleased then
        ∀ i < n.1, q.ring.Held (q.notifying.map Prod.fst) i
      else ∀ m ∈ q.ring.handed, m.index < n.1
  | _ => True

instance (q : ExpEventq ε) : DecidablePred (InOrder z q) := fun a => by
  unfold InOrder
  split <;> infer_instance

theorem toUnexp_step [DecidableEq ε] {q q' : ExpEventq ε} {a : ExpAction ε}
    (h : q.step z a = some q') : q.toUnexp.step z (toUnexpAction a) = some q'.toUnexp := by
  cases a with
  | notify event =>
      cases h
      rfl
  | check n =>
      obtain ⟨hn, h⟩ := Option.ite_none_right_eq_some.1 h
      show (if n ∈ q.notifying then _ else none) = _
      rw [if_pos hn]
      show (if z.hasRoom q.nextfree q.ring.nextreleased then _ else _) = _
      split at h
      · rename_i hroom
        cases h
        rw [if_pos hroom]
        rfl
      · rename_i hroom
        cases h
        rw [if_neg hroom]
        rfl
  | rollback =>
      obtain ⟨hfailed, h⟩ := Option.ite_none_right_eq_some.1 h
      cases h
      show (if 0 < q.notifyFailed then _ else none) = _
      rw [if_pos hfailed]
      rfl
  | ring a =>
      obtain ⟨r, hr, h⟩ := Option.map_eq_some_iff.1 h
      cases h
      exact Option.map_eq_some_iff.2 ⟨r, hr, rfl⟩

theorem toUnexp_inOrder {q : ExpEventq ε} {a : ExpAction ε} (h : InOrder z q a) :
    UnexpEventq.InOrder z q.toUnexp (toUnexpAction a) := by
  cases a with
  | notify event => exact h
  | check n => exact h
  | rollback => trivial
  | ring a => trivial

theorem inv [DecidableEq ε] {q : ExpEventq ε} (h : (machine z).Reaches (InOrder z) q) :
    UnexpEventq.Inv z q.toUnexp := by
  have hreach : (UnexpEventq.machine z).Reaches (UnexpEventq.InOrder z) q.toUnexp :=
    Machine.Reaches.map (f := toUnexp) (g := toUnexpAction) rfl (fun _ _ _ => toUnexp_step)
      (fun _ _ => toUnexp_inOrder) h
  exact UnexpEventq.inv hreach

end ExpEventq

/-! ## The result -/

/-- For every number of notifiers and every order of their steps, of those of the reader and
of the releases: in both queues, as long as indices are taken in order, every notified
event is read once, in slot order, and every index has one writer and leaves no hole. -/
theorem event_exactlyOnce (z : RingSize) {ε : Type u} [DecidableEq ε] :
    (∀ q : ExpEventq ε, (ExpEventq.machine z).Reaches (ExpEventq.InOrder z) q →
      ExactlyOnce z q.ring (q.notifying.map Prod.fst)) ∧
    ∀ q : UnexpEventq ε, (UnexpEventq.machine z).Reaches (UnexpEventq.InOrder z) q →
      ExactlyOnce z q.ring (q.notifying.map Prod.fst) ∧ q.bug = false :=
  ⟨fun _ h => (ExpEventq.inv h).exactlyOnce, fun _ h =>
    ⟨(UnexpEventq.inv h).exactlyOnce, (UnexpEventq.inv h).noBug⟩⟩

/-- A reception and a notifier at once: the notifier looks for room first, and the event
of the reception, which takes the second index, is stored first. -/
def twoEvents : List (UnexpAction ℕ) :=
  [.prepare 1, .notify 7, .prepareCheck (0, 1), .notifyCheck (0, 7), .commit 0 8,
    .ring (.store ⟨1, some 8, some 0⟩), .ring (.publish ⟨1, some 8, some 0⟩),
    .ring (.store ⟨0, some 7, none⟩), .ring (.publish ⟨0, some 7, none⟩),
    .ring .peek, .ring .process, .ring .peek, .ring .process]

theorem event_exactlyOnce_two :
    ∃ q : UnexpEventq ℕ,
      (UnexpEventq.machine .default).exec UnexpEventq.init twoEvents = some q ∧
        q.ring.log = [some 7, some 8] ∧ ExactlyOnce .default q.ring [] := by
  obtain ⟨q, hq, hlog, hnone⟩ : ∃ q : UnexpEventq ℕ,
      (UnexpEventq.machine .default).exec UnexpEventq.init twoEvents = some q ∧
        q.ring.log = [some 7, some 8] ∧ q.notifying.map Prod.fst = [] :=
    ⟨_, rfl, by decide, by decide⟩
  obtain ⟨-, hunexp⟩ := event_exactlyOnce .default (ε := ℕ)
  obtain ⟨honce, -⟩ := hunexp q ⟨twoEvents, by decide +kernel, hq⟩
  rw [hnone] at honce
  exact ⟨q, hq, hlog, honce⟩

/-- All slots but one are taken.  Two notifiers take an index each, 1023 and 1024; the first
finds no room and turns back the counter, the second then finds room. -/
def overReserve : List (ExpAction ℕ) :=
  ((List.range 1023).flatMap fun i => [.notify 0, .check (i, 0)]) ++
    [.notify 0, .notify 0, .check (1023, 0), .rollback, .check (1024, 0)]

/-- Index 1023 is left to nobody, and the event of index 1024 goes to the slot of index 0,
which is not released. -/
theorem event_not_exactlyOnce :
    ∃ q : ExpEventq ℕ, (ExpEventq.machine .default).exec ExpEventq.init overReserve = some q ∧
      ¬ ExactlyOnce .default q.ring (q.notifying.map Prod.fst) := by
  have hrun : ((ExpEventq.machine .default).exec ExpEventq.init overReserve).map (fun q =>
      (decide (1024 ∈ q.ring.handed.map Notification.index),
        decide (q.ring.Held (q.notifying.map Prod.fst) 1023))) = some (true, false) := by
    decide +kernel
  obtain ⟨q, hq, heq⟩ := Option.map_eq_some_iff.1 hrun
  obtain ⟨hhanded, hheld⟩ := Prod.mk.inj heq
  refine ⟨q, hq, fun honce => ?_⟩
  obtain ⟨n, hn, hi⟩ := List.mem_map.1 (of_decide_eq_true hhanded)
  exact of_decide_eq_false hheld (honce.noHole n hn 1023 (by omega))

end Xen2mx.Eventq
