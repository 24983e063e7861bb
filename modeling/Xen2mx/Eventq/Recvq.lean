/-
# `Xen2mx.Eventq.Recvq` — one owner for each slot of the receive queue

"The recvq accounting is trivial since there are as many recvq slots than unexp event
slots, the latter are accounted, and we allocate only one recvq slot per prepare()/commit()":
the code counts how many slots are in use, and takes it that the numbers of those in use
lie within one turn of the ring.  They do as long as no reception lags behind by a full
ring, and no number is handed out twice because a check that failed turned the counter
back under another one (`WithinRing`).

**Proved here.**

    checks in order, owners within a ring  ⟹  no slot has two owners     (`recvq_oneOwner`)
-/
import Xen2mx.Eventq.Delivery

namespace Xen2mx.Eventq

universe u

variable {ε : Type u} {z : RingSize}

namespace UnexpEventq

/-- The receive-queue numbers of the events that are not released. -/
def committed (r : Ring ε) : List ℕ :=
  (r.handed.filter fun n => r.nextreleased ≤ n.index).filterMap Notification.recvq

/-- The receive-queue numbers in use: prepared, or committed and not released. -/
def owners (q : UnexpEventq ε) : List ℕ := q.prepared ++ committed q.ring

variable (z) in
/-- A reception that finds room holds the lowest block that is not prepared, those of
receptions that go on aside, and every number in use is less than a ring away from it.  A
reception that finds no room has no block below one that was prepared. -/
def WithinRing (q : UnexpEventq ε) : UnexpAction ε → Prop
  | .prepareCheck b =>
      if z.hasRoom q.nextfree q.ring.nextreleased then
        (∀ i < b.1, ∃ b' ∈ q.blocks ++ q.preparing, b'.1 ≤ i ∧ i < b'.1 + b'.2) ∧
          ∀ y ∈ q.owners, b.1 + b.2 ≤ y + z.entryNr ∧ y < b.1 + z.entryNr
      else ∀ b' ∈ q.blocks, b'.1 < b.1
  | _ => True

instance (q : UnexpEventq ε) : DecidablePred (WithinRing z q)
  | .prepareCheck b =>
      inferInstanceAs (Decidable (if z.hasRoom q.nextfree q.ring.nextreleased then
        (∀ i < b.1, ∃ b' ∈ q.blocks ++ q.preparing, b'.1 ≤ i ∧ i < b'.1 + b'.2) ∧
          ∀ y ∈ q.owners, b.1 + b.2 ≤ y + z.entryNr ∧ y < b.1 + z.entryNr
      else ∀ b' ∈ q.blocks, b'.1 < b.1))
  | .notify _ | .notifyCheck _ | .notifyRollback | .prepare _ | .prepareRollback _ | .commit ..
  | .cancel _ | .ring _ => inferInstanceAs (Decidable True)

variable (z) in
/-- The numbers in use are distinct, were prepared, and lie within a ring. -/
structure Owned (q : UnexpEventq ε) : Prop where
  tickets : Tickets q.blocks q.preparing q.prepareFailed q.nextRecvq
  len : ∀ b ∈ q.preparing, b.2 ≤ z.entryNr
  covered : ∀ y ∈ q.owners, Covers q.blocks y
  nodup : q.owners.Nodup
  near : ∀ y ∈ q.owners, ∀ y' ∈ q.owners, y < y' + z.entryNr

namespace Owned

variable {q q' : UnexpEventq ε}

theorem init : Owned z (UnexpEventq.init : UnexpEventq ε) :=
  ⟨.start, nofun, nofun, .nil, nofun⟩

/-- A step that only gives slots back. -/
theorem shrink (hq : Owned z q) (hblocks : q'.blocks = q.blocks)
    (hpreparing : q'.preparing = q.preparing) (hfailed : q'.prepareFailed = q.prepareFailed)
    (hrecvq : q'.nextRecvq = q.nextRecvq) (howners : q'.owners.Subperm q.owners) : Owned z q' where
  tickets := by rw [hblocks, hpreparing, hfailed, hrecvq]; exact hq.tickets
  len := by rw [hpreparing]; exact hq.len
  covered := by
    intro y hy
    rw [hblocks]
    exact hq.covered y (howners.subset hy)
  nodup := by
    obtain ⟨l, hperm, hsub⟩ := howners
    exact hperm.nodup_iff.1 (hsub.nodup hq.nodup)
  near := fun y hy y' hy' => hq.near y (howners.subset hy) y' (howners.subset hy')

/-- Releasing more slots leaves fewer in use. -/
theorem committed_release {r r' : Ring ε} (hhanded : r'.handed = r.handed)
    (hle : r.nextreleased ≤ r'.nextreleased) : (committed r').Sublist (committed r) := by
  unfold committed
  rw [hhanded]
  refine List.Sublist.filterMap _ (List.monotone_filter_right _ fun n hn => ?_)
  exact decide_eq_true (hle.trans (of_decide_eq_true hn))

/-- A new index, with or without a slot of the receive queue. -/
theorem committed_hand (r : Ring ε) (n : Notification ε) :
    committed (r.hand n) = committed r ∨
      ∃ y, n.recvq = some y ∧ committed (r.hand n) = y :: committed r := by
  show ((n :: r.handed).filter _).filterMap _ = _ ∨ ∃ y, _ ∧ ((n :: r.handed).filter _).filterMap _ = _
  rw [List.filter_cons]
  split
  · rw [List.filterMap_cons]
    cases hrecvq : n.recvq with
    | none => exact .inl rfl
    | some y => exact .inr ⟨y, rfl, rfl⟩
  · exact .inl rfl

theorem committed_hand_none (r : Ring ε) {n : Notification ε} (hn : n.recvq = none) :
    committed (r.hand n) = committed r := by
  rcases committed_hand r n with h | ⟨y, hy, -⟩
  · exact h
  · rw [hn] at hy
    cases hy

/-- An event that names no slot changes nothing here. -/
theorem hand (hq : Owned z q) {n : Notification ε} (hn : n.recvq = none)
    (hring : q'.ring = q.ring.hand n) (hprepared : q'.prepared = q.prepared)
    (hblocks : q'.blocks = q.blocks) (hpreparing : q'.preparing = q.preparing)
    (hfailed : q'.prepareFailed = q.prepareFailed) (hrecvq : q'.nextRecvq = q.nextRecvq) :
    Owned z q' := by
  refine hq.shrink hblocks hpreparing hfailed hrecvq ?_
  rw [owners, owners, hring, hprepared, committed_hand_none _ hn]

/-- A commit passes its slot on to the event, a cancel gives it up. -/
theorem takeReserved (hq : Owned z q) {y : ℕ} (hy : y ∈ q.prepared) (event : Option ε)
    {recvq : Option ℕ} (hrecvq : ∀ y' ∈ recvq, y' = y) :
    Owned z ({ q with prepared := q.prepared.erase y }.takeReserved event recvq) := by
  have hless : (q.prepared.erase y ++ committed q.ring).Subperm q.owners :=
    (List.erase_sublist.append (List.Sublist.refl _)).subperm
  unfold UnexpEventq.takeReserved
  split
  · exact hq.shrink rfl rfl rfl rfl hless
  · refine hq.shrink rfl rfl rfl rfl ?_
    rcases committed_hand q.ring { index := q.nextreserved, event, recvq } with h | ⟨y', hy', h⟩
    · show (q.prepared.erase y ++ committed (q.ring.hand _)).Subperm _
      rw [h]
      exact hless
    · show (q.prepared.erase y ++ committed (q.ring.hand _)).Subperm _
      obtain rfl := hrecvq y' hy'
      rw [h]
      exact (List.perm_middle.trans
        ((List.perm_cons_erase hy).symm.append_right (committed q.ring))).subperm

theorem preparing_eq {b : ℕ × ℕ} (hb : b ∈ q.preparing) :
    (q.preparing : Multiset Block) = b ::ₘ (q.preparing.erase b : List Block) :=
  Multiset.coe_eq_coe.2 (List.perm_cons_erase hb)

theorem prepareCheck_pass (hq : Owned z q) {b : ℕ × ℕ} (hb : b ∈ q.preparing)
    (hbelow : ∀ i < b.1, ∃ b' ∈ q.blocks ++ q.preparing, b'.1 ≤ i ∧ i < b'.1 + b'.2)
    (hnear : ∀ y ∈ q.owners, b.1 + b.2 ≤ y + z.entryNr ∧ y < b.1 + z.entryNr) :
    Owned z { q with
      preparing := q.preparing.erase b
      prepared := List.range' b.1 b.2 ++ q.prepared
      blocks := b :: q.blocks } := by
  have htickets := hq.tickets
  rw [preparing_eq hb] at htickets
  have hkept := htickets.keep fun i hi => by
    obtain ⟨b', hb', hx⟩ := hbelow i hi
    rw [← preparing_eq hb]
    exact ⟨b', Multiset.mem_coe.2 hb', hx⟩
  have hlen := hq.len b hb
  have howners : ({ q with
      preparing := q.preparing.erase b
      prepared := List.range' b.1 b.2 ++ q.prepared
      blocks := b :: q.blocks } : UnexpEventq ε).owners = List.range' b.1 b.2 ++ q.owners :=
    List.append_assoc ..
  have hsplit : ∀ y ∈ List.range' b.1 b.2 ++ q.owners, (b.1 ≤ y ∧ y < b.1 + b.2) ∨ y ∈ q.owners :=
    fun y hy => (List.mem_append.1 hy).imp_left List.mem_range'_1.1
  refine ⟨hkept, fun b' hb' => hq.len b' (List.mem_of_mem_erase hb'), ?_, ?_, ?_⟩
  · rw [howners]
    intro y hy
    rcases hsplit y hy with hnew | hold
    · exact ⟨b, Multiset.mem_coe.2 List.mem_cons_self, hnew⟩
    · exact (hq.covered y hold).mono (Multiset.subset_cons _ _)
  · rw [howners]
    refine List.nodup_append.2 ⟨List.nodup_range', hq.nodup, fun y hy y' hy' heq => ?_⟩
    subst heq
    obtain ⟨b', hb', hlo, hhi⟩ := hq.covered y hy'
    have hdisjoint := hkept.disjoint b' hb'
    have hnew := List.mem_range'_1.1 hy
    omega
  · rw [howners]
    intro y hy y' hy'
    rcases hsplit y hy with hnew | hold
    · rcases hsplit y' hy' with hnew' | hold'
      · omega
      · have := hnear y' hold'
        omega
    · rcases hsplit y' hy' with hnew' | hold'
      · have := hnear y hold
        omega
      · exact hq.near y hold y' hold'

theorem prepareCheck_fail (hq : Owned z q) {b : ℕ × ℕ} (hb : b ∈ q.preparing)
    (habove : ∀ b' ∈ q.blocks, b'.1 < b.1) :
    Owned z { q with
      preparing := q.preparing.erase b
      prepareFailed := b.2 :: q.prepareFailed } := by
  have htickets := hq.tickets
  rw [preparing_eq hb] at htickets
  exact ⟨htickets.fail habove, fun b' hb' => hq.len b' (List.mem_of_mem_erase hb'), hq.covered,
    hq.nodup, hq.near⟩

theorem prepare (hq : Owned z q) {nr : ℕ} (hpos : 0 < nr) (hle : nr ≤ z.entryNr) :
    Owned z { q with
      nextfree := q.nextfree + nr
      nextRecvq := q.nextRecvq + nr
      preparing := (q.nextRecvq, nr) :: q.preparing } :=
  ⟨hq.tickets.reserve hpos, List.forall_mem_cons.2 ⟨hle, hq.len⟩, hq.covered, hq.nodup, hq.near⟩

theorem prepareRollback (hq : Owned z q) {nr : ℕ} (hnr : nr ∈ q.prepareFailed) :
    Owned z { q with
      nextfree := q.nextfree - nr
      nextRecvq := q.nextRecvq - nr
      prepareFailed := q.prepareFailed.erase nr } := by
  have htickets := hq.tickets
  rw [Multiset.coe_eq_coe.2 (List.perm_cons_erase hnr), ← Multiset.cons_coe] at htickets
  exact ⟨htickets.rollback, hq.len, hq.covered, hq.nodup, hq.near⟩

variable [DecidableEq ε]

/-- The stores and the reader hand out nothing, and a release only takes away. -/
theorem ring (hq : Owned z q) {top : ℕ} {a : RingAction ε} {r : Ring ε}
    (h : q.ring.step z top a = some r) : Owned z { q with ring := r } := by
  obtain ⟨hhanded, hle⟩ : r.handed = q.ring.handed ∧ q.ring.nextreleased ≤ r.nextreleased := by
    cases a with
    | release =>
        obtain ⟨-, heq⟩ := Option.ite_none_right_eq_some.1 h
        cases heq
        unfold Ring.release
        split
        · exact ⟨rfl, le_rfl⟩
        · exact ⟨rfl, Nat.le_add_right _ _⟩
    | store n =>
        obtain ⟨-, heq⟩ := Option.ite_none_right_eq_some.1 h
        cases heq
        exact ⟨rfl, le_rfl⟩
    | publish n =>
        obtain ⟨-, heq⟩ := Option.ite_none_right_eq_some.1 h
        cases heq
        exact ⟨rfl, le_rfl⟩
    | peek =>
        obtain ⟨-, heq⟩ := Option.ite_none_right_eq_some.1 h
        cases heq
        exact ⟨rfl, le_rfl⟩
    | process =>
        obtain ⟨-, heq⟩ := Option.ite_none_right_eq_some.1 h
        cases heq
        exact ⟨rfl, le_rfl⟩
  refine hq.shrink rfl rfl rfl rfl ?_
  exact ((List.Sublist.refl q.prepared).append (committed_release hhanded hle)).subperm

theorem next (hq : Owned z q) {a : UnexpAction ε} (hok : WithinRing z q a)
    (h : q.next z a = some q') : Owned z q' := by
  cases a with
  | notify event =>
      cases h
      exact hq.shrink rfl rfl rfl rfl (List.Subperm.refl _)
  | notifyCheck n =>
      obtain ⟨-, h⟩ := Option.ite_none_right_eq_some.1 h
      split at h
      · cases h
        exact hq.hand rfl rfl rfl rfl rfl rfl rfl
      · cases h
        exact hq.shrink rfl rfl rfl rfl (List.Subperm.refl _)
  | notifyRollback =>
      obtain ⟨-, h⟩ := Option.ite_none_right_eq_some.1 h
      cases h
      exact hq.shrink rfl rfl rfl rfl (List.Subperm.refl _)
  | prepare nr =>
      obtain ⟨⟨hpos, hle⟩, h⟩ := Option.ite_none_right_eq_some.1 h
      cases h
      exact hq.prepare hpos hle
  | prepareCheck b =>
      obtain ⟨hb, h⟩ := Option.ite_none_right_eq_some.1 h
      rw [WithinRing] at hok
      split at h
      · rename_i hroom
        cases h
        rw [if_pos hroom] at hok
        exact hq.prepareCheck_pass hb hok.1 hok.2
      · rename_i hroom
        cases h
        rw [if_neg hroom] at hok
        exact hq.prepareCheck_fail hb hok
  | prepareRollback nr =>
      obtain ⟨hnr, h⟩ := Option.ite_none_right_eq_some.1 h
      cases h
      exact hq.prepareRollback hnr
  | commit y event =>
      obtain ⟨hy, h⟩ := Option.ite_none_right_eq_some.1 h
      cases h
      refine hq.takeReserved hy _ fun y' hy' => ?_
      exact (Option.some.inj hy').symm
  | cancel y =>
      obtain ⟨hy, h⟩ := Option.ite_none_right_eq_some.1 h
      cases h
      exact hq.takeReserved hy _ nofun
  | ring a =>
      obtain ⟨r, hr, h⟩ := Option.map_eq_some_iff.1 h
      cases h
      exact hq.ring hr

omit [DecidableEq ε] in
/-- Distinct numbers within a ring have distinct slots. -/
theorem slots_nodup (hq : Owned z q) : (q.owners.map z.slot).Nodup := by
  refine List.Nodup.map_on (fun y hy y' hy' h => ?_) hq.nodup
  have hlt := hq.near y hy y' hy'
  have hlt' := hq.near y' hy' y hy
  exact RingSize.slot_inj (r := min y y') (Nat.min_le_left _ _) (by omega) (Nat.min_le_right _ _)
    (by omega) h

end Owned

end UnexpEventq

/-! ## The result -/

/-- For every order of preparing, committing, cancelling, notifying, reading and releasing:
as long as receptions find room in order and within a ring, no two events that are
prepared, or committed and not released, have the same slot of the receive queue. -/
theorem recvq_oneOwner (z : RingSize) {ε : Type u} [DecidableEq ε] {q : UnexpEventq ε}
    (h : (UnexpEventq.machine z).Reaches (UnexpEventq.WithinRing z) q) :
    (q.owners.map z.slot).Nodup := by
  have howned : UnexpEventq.Owned z q := by
    refine h.invariant UnexpEventq.Owned.init fun q a q' hq hok hstep => ?_
    have hstep' : (if q.bug then none else q.next z a) = some q' := hstep
    split at hstep'
    · cases hstep'
    · exact hq.next hok hstep'
  exact howned.slots_nodup

/-- A reception that has committed while another one, prepared at once with it, is not done. -/
def twoReceptions : List (UnexpAction ℕ) :=
  [.prepare 2, .prepare 1, .prepareCheck (0, 2), .prepareCheck (2, 1), .commit 1 7, .cancel 2]

theorem recvq_oneOwner_two :
    ∃ q : UnexpEventq ℕ,
      (UnexpEventq.machine .default).exec UnexpEventq.init twoReceptions = some q ∧
        q.owners = [0, 1] ∧ (q.owners.map RingSize.default.slot).Nodup := by
  obtain ⟨q, hq, howners⟩ : ∃ q : UnexpEventq ℕ,
      (UnexpEventq.machine .default).exec UnexpEventq.init twoReceptions = some q ∧
        q.owners = [0, 1] :=
    ⟨_, rfl, by decide⟩
  exact ⟨q, hq, howners, recvq_oneOwner .default ⟨twoReceptions, by decide +kernel, hq⟩⟩

/-- All slots but one are taken.  Two receptions take a number each, 1023 and 1024; the first
finds no room and turns back the counters, the second then finds room. -/
def overPrepare : List (UnexpAction ℕ) :=
  ((List.range 1023).flatMap fun i => [.prepare 1, .prepareCheck (i, 1)]) ++
    [.prepare 1, .prepare 1, .prepareCheck (1023, 1), .prepareRollback 1, .prepareCheck (1024, 1)]

/-- The receptions with the numbers 0 and 1024 write to the same slot. -/
theorem recvq_not_oneOwner :
    ∃ q : UnexpEventq ℕ,
      (UnexpEventq.machine .default).exec UnexpEventq.init overPrepare = some q ∧
        ¬ (q.owners.map RingSize.default.slot).Nodup := by
  have hrun : ((UnexpEventq.machine .default).exec UnexpEventq.init overPrepare).map
      (fun q : UnexpEventq ℕ => (decide (0 ∈ q.owners), decide (1024 ∈ q.owners))) =
        some (true, true) := by
    decide +kernel
  obtain ⟨q, hq, heq⟩ := Option.map_eq_some_iff.1 hrun
  obtain ⟨hfirst, hlast⟩ := Prod.mk.inj heq
  refine ⟨q, hq, fun hnodup => ?_⟩
  have hsame : (0 : ℕ) = 1024 :=
    List.inj_on_of_nodup_map hnodup (of_decide_eq_true hfirst) (of_decide_eq_true hlast)
      (by decide +kernel)
  cases hsame

end Xen2mx.Eventq
