/-
# `Xen2mx.Peers.Coherent` — the array, the hash table and the list agree

What is in the table is in the array, and the other places follow it.

    hash table    a peer is in the bucket of its address, and in no other, if it is in the table
    list          a peer in the table is asked for its name if it has none and is of no interface
    interfaces    the peer of an interface is in the table only while the interface is attached

An operation puts a peer in, takes one out, puts one in the place of another, or moves one to an
index that is free; each keeps the three, and clearing keeps them from round to round.

**Proved here.**

    after any run the table is coherent                                  (`machine_coherent`)
-/
import Mathlib.Data.List.Nodup
import Mathlib.Logic.Function.Basic
import Xen2mx.Peers.Table

namespace Xen2mx.Peers

open Tables

variable {k : Params} {s s' : Tables} {p q old : PeerRef} {i j n : ℕ}

/-! ## Lookups and lists -/

theorem setPeer_self (peer : Peer) : (s.setPeer p peer).peer p = peer := Function.update_self ..

theorem setPeer_of_ne (peer : Peer) (h : q ≠ p) : (s.setPeer p peer).peer q = s.peer q :=
  Function.update_of_ne h ..

theorem unhashPeer_eq_ok : s.unhashPeer p = .ok s' ↔
    p ∈ s.addrHash (peerAddrHash (s.peer p).boardAddr) ∧
      { s with
        addrHash := Function.update s.addrHash (peerAddrHash (s.peer p).boardAddr)
          ((s.addrHash (peerAddrHash (s.peer p).boardAddr)).erase p) } = s' := by
  rw [unhashPeer, check_eq_ok, Except.ok.injEq]

theorem delHostQuery_eq_ok : s.delHostQuery p = .ok s' ↔
    p ∈ s.hostQueryPeers ∧ { s with hostQueryPeers := s.hostQueryPeers.erase p } = s' := by
  rw [delHostQuery, check_eq_ok, Except.ok.injEq]

theorem ifaceFindByAddr_some {addr : BoardAddr} {id : ℕ} (h : s.ifaceFindByAddr k addr = some id) :
    s.Attached k id ∧ (s.peer (.iface id)).boardAddr = addr := by
  obtain ⟨i, hi, hid⟩ := List.exists_of_findSome?_eq_some h
  obtain ⟨hslot, haddr⟩ := Option.filter_eq_some_iff.1 hid
  exact ⟨⟨i, List.mem_range.1 hi, hslot⟩, of_decide_eq_true haddr⟩

theorem ifaceFindByAddr_none {addr : BoardAddr} {id : ℕ} (h : s.ifaceFindByAddr k addr = none)
    (hid : s.Attached k id) : (s.peer (.iface id)).boardAddr ≠ addr := by
  obtain ⟨i, hi, hslot⟩ := hid
  intro haddr
  have hnone := List.findSome?_eq_none_iff.1 h i (List.mem_range.2 hi)
  rw [hslot, Option.filter_some, if_pos (decide_eq_true haddr)] at hnone
  cases hnone

theorem peerLookupByAddr_some {addr : BoardAddr} (h : s.peerLookupByAddr addr = some p) :
    p ∈ s.addrHash (peerAddrHash addr) ∧ (s.peer p).boardAddr = addr :=
  ⟨List.mem_of_find?_eq_some h, by simpa using List.find?_some h⟩

theorem peerLookupByAddr_none {addr : BoardAddr} (h : s.peerLookupByAddr addr = none)
    (hp : p ∈ s.addrHash (peerAddrHash addr)) : (s.peer p).boardAddr ≠ addr := fun haddr =>
  List.find?_eq_none.1 h p hp (decide_eq_true haddr)

/-- The element in the place of another is first, and the rest is what stays. -/
theorem replace_perm {α : Type*} [DecidableEq α] {a b : α} :
    ∀ {l : List α}, a ∈ l → (l.replace a b).Perm (b :: l.erase a)
  | c :: l, h => by
      by_cases hca : c = a
      · rw [hca, List.erase_cons_head, List.replace_cons_self]
      · have hl : a ∈ l := (List.mem_cons.1 h).resolve_left fun hac => hca hac.symm
        have hbeq : (a == c) = false := beq_false_of_ne fun hac => hca hac.symm
        rw [List.replace_cons, hbeq, List.erase_cons_tail (by simpa using hca)]
        exact ((replace_perm hl).cons c).trans (.swap b c _)

/-! ## The array and the hash table -/

/-- Where the peers of the table are. -/
structure Placed (s : Tables) : Prop where
  index : ∀ i p, s.peerArray i = some p → (s.peer p).index = i
  hash : ∀ hash p, p ∈ s.addrHash hash ↔
    s.InTable p ∧ hash = peerAddrHash (s.peer p).boardAddr
  nodup : ∀ hash, (s.addrHash hash).Nodup
  addr : ∀ p q, s.InTable p → s.InTable q → (s.peer p).boardAddr = (s.peer q).boardAddr → p = q

/-- The indexes that were handed out. -/
structure Bounded (k : Params) (s : Tables) : Prop where
  le : s.nextNr ≤ k.peerMax
  below : ∀ i p, s.peerArray i = some p → i < s.nextNr

theorem setArray_eq_some {x : Option PeerRef} : (s.setArray i x).peerArray j = some q ↔
    (j = i ∧ x = some q) ∨ (j ≠ i ∧ s.peerArray j = some q) := by
  show Function.update s.peerArray i x j = some q ↔ _
  by_cases hji : j = i
  · rw [hji, Function.update_self]
    exact ⟨fun h => .inl ⟨rfl, h⟩, fun h => (h.resolve_right fun h => h.1 rfl).2⟩
  · rw [Function.update_of_ne hji]
    exact ⟨fun h => .inr ⟨hji, h⟩, fun h => (h.resolve_left fun h => hji h.1).2⟩

theorem inTable_setArray_some : (s.setArray i (some p)).InTable q ↔
    q = p ∨ ∃ j, j ≠ i ∧ s.peerArray j = some q := by
  constructor
  · rintro ⟨j, hj⟩
    rcases setArray_eq_some.1 hj with ⟨-, hqp⟩ | hj
    · exact .inl (Option.some_inj.1 hqp).symm
    · exact .inr ⟨j, hj⟩
  · rintro (rfl | ⟨j, hj⟩)
    · exact ⟨i, setArray_eq_some.2 (.inl ⟨rfl, rfl⟩)⟩
    · exact ⟨j, setArray_eq_some.2 (.inr hj)⟩

theorem inTable_setArray_none : (s.setArray i none).InTable q ↔
    ∃ j, j ≠ i ∧ s.peerArray j = some q := by
  refine exists_congr fun j => setArray_eq_some.trans (or_iff_right ?_)
  exact fun h => nomatch h.2

namespace Placed

variable (hs : Placed s)
include hs

theorem array_index (hp : s.InTable p) : s.peerArray (s.peer p).index = some p := by
  obtain ⟨i, hi⟩ := hp
  rwa [hs.index i p hi]

/-- A peer is at one index. -/
theorem index_inj (hi : s.peerArray i = some p) (hj : s.peerArray j = some p) : i = j :=
  (hs.index i p hi).symm.trans (hs.index j p hj)

theorem inTable_of_lookup {addr : BoardAddr} (h : s.peerLookupByAddr addr = some p) :
    s.InTable p ∧ (s.peer p).boardAddr = addr := by
  obtain ⟨hmem, haddr⟩ := peerLookupByAddr_some h
  exact ⟨((hs.hash _ p).1 hmem).1, haddr⟩

theorem addr_ne_of_lookup {addr : BoardAddr} (h : s.peerLookupByAddr addr = none)
    (hp : s.InTable p) : (s.peer p).boardAddr ≠ addr := fun haddr =>
  peerLookupByAddr_none h ((hs.hash _ p).2 ⟨hp, by rw [haddr]⟩) haddr

/-- Of the peer in the table at an index, the others are elsewhere. -/
theorem inTable_ne_iff (hi : s.peerArray i = some p) :
    (∃ j, j ≠ i ∧ s.peerArray j = some q) ↔ s.InTable q ∧ q ≠ p := by
  constructor
  · rintro ⟨j, hji, hj⟩
    refine ⟨⟨j, hj⟩, fun hqp => ?_⟩
    rw [hqp] at hj
    exact hji (hs.index_inj hj hi)
  · rintro ⟨⟨j, hj⟩, hne⟩
    refine ⟨j, fun hji => ?_, hj⟩
    rw [hji, hi] at hj
    exact hne (Option.some_inj.1 hj).symm

/-- What else is known of a peer, and all of one that is not in the table, may change. -/
theorem setPeer {peer : Peer} (h : s.InTable p →
    peer.index = (s.peer p).index ∧ peer.boardAddr = (s.peer p).boardAddr) :
    Placed (s.setPeer p peer) := by
  have hkeep : ∀ q, s.InTable q → ((s.setPeer p peer).peer q).index = (s.peer q).index ∧
      ((s.setPeer p peer).peer q).boardAddr = (s.peer q).boardAddr := by
    intro q hq
    by_cases hqp : q = p
    · subst hqp
      rw [setPeer_self]
      exact h hq
    · rw [setPeer_of_ne _ hqp]
      exact ⟨rfl, rfl⟩
  constructor
  · intro i q hi
    rw [(hkeep q ⟨i, hi⟩).1]
    exact hs.index i q hi
  · intro hash q
    refine (hs.hash hash q).trans (and_congr_right fun hq => ?_)
    rw [(hkeep q hq).2]
  · exact hs.nodup
  · intro q q' hq hq' haddr
    rw [(hkeep q hq).2, (hkeep q' hq').2] at haddr
    exact hs.addr q q' hq hq' haddr

/-- Only the peers, the array and the hash table are looked at. -/
theorem of_eq (hpeer : s'.peer = s.peer) (harray : s'.peerArray = s.peerArray)
    (hhash : s'.addrHash = s.addrHash) : Placed s' where
  index := by
    rw [harray, hpeer]
    exact hs.index
  hash := by
    simp only [InTable, hhash, hpeer, harray]
    exact hs.hash
  nodup := by
    rw [hhash]
    exact hs.nodup
  addr := by
    simp only [InTable, hpeer, harray]
    exact hs.addr

theorem mem_bucket : p ∈ s.addrHash (peerAddrHash (s.peer p).boardAddr) ↔ s.InTable p :=
  (hs.hash _ p).trans (and_iff_left rfl)

/-- A peer with a new address comes to an index that is free. -/
theorem insert (hfree : s.peerArray i = none) (hnew : ¬ s.InTable p)
    (hindex : (s.peer p).index = i)
    (haddr : ∀ q, s.InTable q → (s.peer q).boardAddr ≠ (s.peer p).boardAddr) :
    Placed ((s.hashPeer p).setArray i (some p)) ∧
      ∀ q, ((s.hashPeer p).setArray i (some p)).InTable q ↔ q = p ∨ s.InTable q := by
  have hin : ∀ q, ((s.hashPeer p).setArray i (some p)).InTable q ↔ q = p ∨ s.InTable q := by
    intro q
    refine inTable_setArray_some.trans (or_congr_right ⟨fun ⟨j, _, hj⟩ => ⟨j, hj⟩, ?_⟩)
    rintro ⟨j, hj⟩
    refine ⟨j, fun hji => ?_, hj⟩
    rw [hji, hfree] at hj
    cases hj
  refine ⟨?_, hin⟩
  constructor
  · intro j q hj
    rcases setArray_eq_some.1 hj with ⟨hji, hqp⟩ | hj
    · rw [hji, ← Option.some_inj.1 hqp]
      exact hindex
    · exact hs.index j q hj.2
  · intro hash q
    rw [hin]
    show q ∈ Function.update s.addrHash _ _ hash ↔ (q = p ∨ s.InTable q) ∧
      hash = peerAddrHash (s.peer q).boardAddr
    by_cases hhash : hash = peerAddrHash (s.peer p).boardAddr
    · rw [hhash, Function.update_self, List.mem_append, List.mem_singleton, hs.hash]
      constructor
      · rintro (h | rfl)
        · exact ⟨.inr h.1, h.2⟩
        · exact ⟨.inl rfl, rfl⟩
      · rintro ⟨rfl | h, hq⟩
        · exact .inr rfl
        · exact .inl ⟨h, hq⟩
    · rw [Function.update_of_ne hhash, hs.hash]
      refine and_congr_left fun hq => (or_iff_right fun hqp => hhash ?_).symm
      rw [hq, hqp]
  · intro hash
    show (Function.update s.addrHash _ _ hash).Nodup
    by_cases hhash : hash = peerAddrHash (s.peer p).boardAddr
    · rw [hhash, Function.update_self]
      refine List.nodup_append.2 ⟨hs.nodup _, List.nodup_singleton p, fun q hq q' hq' hqq => ?_⟩
      rw [hqq, List.mem_singleton.1 hq'] at hq
      exact hnew (hs.mem_bucket.1 hq)
    · rw [Function.update_of_ne hhash]
      exact hs.nodup hash
  · intro q q' hq hq' heq
    rcases (hin q).1 hq with hqp | hq
    · rcases (hin q').1 hq' with hqp' | hq'
      · rw [hqp, hqp']
      · rw [hqp] at heq
        exact absurd heq.symm (haddr q' hq')
    · rcases (hin q').1 hq' with hqp' | hq'
      · rw [hqp'] at heq
        exact absurd heq (haddr q hq)
      · exact hs.addr q q' hq hq' heq

/-- The peer of an index is taken out. -/
theorem remove (hi : s.peerArray i = some p) (h : s.unhashPeer p = .ok s') :
    Placed (s'.setArray i none) ∧
      ∀ q, (s'.setArray i none).InTable q ↔ s.InTable q ∧ q ≠ p := by
  obtain ⟨-, rfl⟩ := unhashPeer_eq_ok.1 h
  have hin : ∀ q, (Tables.setArray { s with
      addrHash := Function.update s.addrHash (peerAddrHash (s.peer p).boardAddr)
        ((s.addrHash (peerAddrHash (s.peer p).boardAddr)).erase p) } i none).InTable q ↔
      s.InTable q ∧ q ≠ p := fun q => inTable_setArray_none.trans (hs.inTable_ne_iff hi)
  refine ⟨?_, hin⟩
  constructor
  · intro j q hj
    rcases setArray_eq_some.1 hj with ⟨-, hq⟩ | hj
    · cases hq
    · exact hs.index j q hj.2
  · intro hash q
    rw [hin]
    show q ∈ Function.update s.addrHash _ _ hash ↔ (s.InTable q ∧ q ≠ p) ∧
      hash = peerAddrHash (s.peer q).boardAddr
    by_cases hhash : hash = peerAddrHash (s.peer p).boardAddr
    · rw [hhash, Function.update_self, (hs.nodup _).mem_erase_iff, hs.hash]
      exact ⟨fun h => ⟨⟨h.2.1, h.1⟩, h.2.2⟩, fun h => ⟨h.1.2, h.1.1, h.2⟩⟩
    · rw [Function.update_of_ne hhash, hs.hash]
      refine and_congr_left fun hq => (and_iff_left fun hqp => hhash ?_).symm
      rw [hq, hqp]
  · intro hash
    show (Function.update s.addrHash _ _ hash).Nodup
    by_cases hhash : hash = peerAddrHash (s.peer p).boardAddr
    · rw [hhash, Function.update_self]
      exact (hs.nodup _).erase p
    · rw [Function.update_of_ne hhash]
      exact hs.nodup hash
  · intro q q' hq hq'
    exact hs.addr q q' ((hin q).1 hq).1 ((hin q').1 hq').1

/-- A peer takes the place of the one of an index, which has its address. -/
theorem replace (hi : s.peerArray i = some old) (hnew : ¬ s.InTable p)
    (hindex : (s.peer p).index = i) (haddr : (s.peer old).boardAddr = (s.peer p).boardAddr) :
    Placed ((s.rehashPeer old p).setArray i (some p)) ∧
      ∀ q, ((s.rehashPeer old p).setArray i (some p)).InTable q ↔
        q = p ∨ (s.InTable q ∧ q ≠ old) := by
  have hold : s.InTable old := ⟨i, hi⟩
  have hin : ∀ q, ((s.rehashPeer old p).setArray i (some p)).InTable q ↔
      q = p ∨ (s.InTable q ∧ q ≠ old) := fun q =>
    inTable_setArray_some.trans (or_congr_right (hs.inTable_ne_iff hi))
  refine ⟨?_, hin⟩
  constructor
  · intro j q hj
    rcases setArray_eq_some.1 hj with ⟨hji, hqp⟩ | hj
    · rw [hji, ← Option.some_inj.1 hqp]
      exact hindex
    · exact hs.index j q hj.2
  · intro hash q
    rw [hin]
    show q ∈ Function.update s.addrHash _ _ hash ↔ (q = p ∨ (s.InTable q ∧ q ≠ old)) ∧
      hash = peerAddrHash (s.peer q).boardAddr
    by_cases hhash : hash = peerAddrHash (s.peer old).boardAddr
    · rw [hhash, Function.update_self, (replace_perm (hs.mem_bucket.2 hold)).mem_iff,
        List.mem_cons, (hs.nodup _).mem_erase_iff, hs.hash]
      constructor
      · rintro (hqp | ⟨hne, hq, heq⟩)
        · rw [hqp, haddr]
          exact ⟨.inl rfl, rfl⟩
        · exact ⟨.inr ⟨hq, hne⟩, heq⟩
      · rintro ⟨hqp | ⟨hq, hne⟩, heq⟩
        · exact .inl hqp
        · exact .inr ⟨hne, hq, heq⟩
    · rw [Function.update_of_ne hhash, hs.hash]
      refine and_congr_left fun heq => ⟨fun hq => .inr ⟨hq, fun hqo => hhash ?_⟩, ?_⟩
      · rw [heq, hqo]
      · rintro (hqp | hq)
        · rw [heq, hqp, haddr] at hhash
          exact absurd rfl hhash
        · exact hq.1
  · intro hash
    show (Function.update s.addrHash _ _ hash).Nodup
    by_cases hhash : hash = peerAddrHash (s.peer old).boardAddr
    · rw [hhash, Function.update_self, (replace_perm (hs.mem_bucket.2 hold)).nodup_iff]
      refine List.nodup_cons.2 ⟨fun hp => hnew ?_, (hs.nodup _).erase old⟩
      exact ((hs.hash _ p).1 (List.mem_of_mem_erase hp)).1
    · rw [Function.update_of_ne hhash]
      exact hs.nodup hash
  · intro q q' hq hq' heq
    rcases (hin q).1 hq with hqp | hq
    · rcases (hin q').1 hq' with hqp' | hq'
      · rw [hqp, hqp']
      · rw [hqp] at heq
        exact absurd (hs.addr _ _ hold hq'.1 (haddr.trans heq)).symm hq'.2
    · rcases (hin q').1 hq' with hqp' | hq'
      · rw [hqp'] at heq
        exact absurd (hs.addr _ _ hq.1 hold (heq.trans haddr.symm)) hq.2
      · exact hs.addr q q' hq.1 hq'.1 heq

/-- A peer moves to an index that is free. -/
theorem move (hi : s.peerArray i = some p) (hfree : s.peerArray n = none) :
    Placed (((s.setIndex p n).setArray n (some p)).setArray i none) ∧
      ∀ q, (((s.setIndex p n).setArray n (some p)).setArray i none).InTable q ↔ s.InTable q := by
  have hne : n ≠ i := by
    intro hni
    rw [hni, hi] at hfree
    cases hfree
  have harray : ∀ j q, (((s.setIndex p n).setArray n (some p)).setArray i none).peerArray j
      = some q ↔ (j = n ∧ q = p) ∨ (q ≠ p ∧ s.peerArray j = some q) := by
    intro j q
    rw [setArray_eq_some, setArray_eq_some]
    constructor
    · rintro (⟨-, h⟩ | ⟨hji, ⟨hjn, hqp⟩ | ⟨-, hj⟩⟩)
      · cases h
      · exact .inl ⟨hjn, (Option.some_inj.1 hqp).symm⟩
      · refine .inr ⟨fun hqp => hji ?_, hj⟩
        rw [hqp] at hj
        exact hs.index_inj hj hi
    · rintro (⟨rfl, rfl⟩ | ⟨hqp, hj⟩)
      · exact .inr ⟨hne, .inl ⟨rfl, rfl⟩⟩
      · refine .inr ⟨fun hji => ?_, .inr ⟨fun hjn => ?_, hj⟩⟩
        · rw [hji, hi] at hj
          exact hqp (Option.some_inj.1 hj).symm
        · rw [hjn, hfree] at hj
          cases hj
  have hin : ∀ q, (((s.setIndex p n).setArray n (some p)).setArray i none).InTable q ↔
      s.InTable q := by
    intro q
    constructor
    · rintro ⟨j, hj⟩
      rcases (harray j q).1 hj with ⟨-, rfl⟩ | ⟨-, hj⟩
      · exact ⟨i, hi⟩
      · exact ⟨j, hj⟩
    · rintro ⟨j, hj⟩
      by_cases hqp : q = p
      · exact ⟨n, (harray n q).2 (.inl ⟨rfl, hqp⟩)⟩
      · exact ⟨j, (harray j q).2 (.inr ⟨hqp, hj⟩)⟩
  have haddr : ∀ q, ((((s.setIndex p n).setArray n (some p)).setArray i none).peer q).boardAddr
      = (s.peer q).boardAddr := by
    intro q
    show ((s.setIndex p n).peer q).boardAddr = _
    by_cases hqp : q = p
    · rw [hqp, setIndex, setPeer_self]
    · rw [setIndex, setPeer_of_ne _ hqp]
  refine ⟨?_, hin⟩
  constructor
  · intro j q hj
    show ((s.setIndex p n).peer q).index = j
    rcases (harray j q).1 hj with ⟨rfl, rfl⟩ | ⟨hqp, hj⟩
    · rw [setIndex, setPeer_self]
    · rw [setIndex, setPeer_of_ne _ hqp]
      exact hs.index j q hj
  · intro hash q
    rw [hin, haddr]
    exact hs.hash hash q
  · exact hs.nodup
  · intro q q' hq hq' heq
    rw [haddr, haddr] at heq
    exact hs.addr q q' ((hin q).1 hq) ((hin q').1 hq') heq

end Placed

/-! ## The list of those to be asked -/

/-- The peer is to be asked for its name. -/
def Asked (s : Tables) (p : PeerRef) : Prop :=
  s.InTable p ∧ (s.peer p).localIface = none ∧ (s.peer p).hostname = none

theorem asked_setHostname {hostname : Option Hostname} :
    Asked (s.setHostname p hostname) q ↔ (q ≠ p ∧ Asked s q) ∨
      (q = p ∧ s.InTable p ∧ (s.peer p).localIface = none ∧ hostname = none) := by
  rw [Asked, setHostname]
  by_cases hqp : q = p
  · subst hqp
    rw [setPeer_self]
    exact ⟨fun h => .inr ⟨rfl, h⟩, fun h => (h.resolve_left fun h => h.1 rfl).2⟩
  · rw [setPeer_of_ne _ hqp]
    exact ⟨fun h => .inl ⟨hqp, h⟩, fun h => (h.resolve_right fun h => hqp h.1).2⟩

theorem asked_rename {hostname : Option Hostname} {l : List PeerRef} :
    Asked { s.setHostname p hostname with hostQueryPeers := l } q ↔ (q ≠ p ∧ Asked s q) ∨
      (q = p ∧ s.InTable p ∧ (s.peer p).localIface = none ∧ hostname = none) := by
  have h : Asked (s.setHostname p hostname) q ↔ _ := asked_setHostname
  exact h

structure Queried (s : Tables) : Prop where
  mem : ∀ p, p ∈ s.hostQueryPeers ↔ Asked s p
  nodup : s.hostQueryPeers.Nodup

namespace Queried

variable (hs : Queried s)
include hs

theorem keep (hlist : s'.hostQueryPeers = s.hostQueryPeers)
    (h : ∀ q, Asked s' q ↔ Asked s q) : Queried s' where
  mem := fun q => by rw [hlist, h, hs.mem]
  nodup := by rw [hlist]; exact hs.nodup

theorem add (hlist : s'.hostQueryPeers = s.hostQueryPeers ++ [p]) (hnew : ¬ Asked s p)
    (h : ∀ q, Asked s' q ↔ Asked s q ∨ q = p) : Queried s' where
  mem := fun q => by rw [hlist, h, List.mem_append, List.mem_singleton, hs.mem]
  nodup := by
    rw [hlist]
    refine List.nodup_append.2 ⟨hs.nodup, List.nodup_singleton p, fun q hq q' hq' hqq => hnew ?_⟩
    rw [← List.mem_singleton.1 hq', ← hqq]
    exact (hs.mem q).1 hq

theorem del (hlist : s'.hostQueryPeers = s.hostQueryPeers.erase p)
    (h : ∀ q, Asked s' q ↔ Asked s q ∧ q ≠ p) : Queried s' where
  mem := fun q => by rw [hlist, hs.nodup.mem_erase_iff, h, hs.mem, and_comm]
  nodup := by rw [hlist]; exact hs.nodup.erase p

end Queried

/-! ## Peers of interfaces -/

/-- What was allocated, and what is an interface's. -/
structure Owned (k : Params) (s : Tables) : Prop where
  remote : ∀ id, (s.peer (.remote id)).localIface = none
  iface : ∀ id, s.InTable (.iface id) → (s.peer (.iface id)).localIface = some id
  attached : ∀ id, s.InTable (.iface id) → s.Attached k id
  freshPeer : ∀ id, s.InTable (.remote id) → id < s.nextPeer
  freshIface : ∀ id, s.Attached k id → id < s.nextIface

theorem Owned.of (hs : Owned k s)
    (hlocal : ∀ q, (s'.peer q).localIface = (s.peer q).localIface)
    (hin : ∀ q, s'.InTable q → s.InTable q)
    (hattached : ∀ id, s'.InTable (.iface id) → s.Attached k id → s'.Attached k id)
    (hkept : ∀ id, s'.Attached k id → s.Attached k id)
    (hnextPeer : s.nextPeer ≤ s'.nextPeer) (hnextIface : s.nextIface ≤ s'.nextIface) :
    Owned k s' where
  remote := fun id => (hlocal _).trans (hs.remote id)
  iface := fun id hid => (hlocal _).trans (hs.iface id (hin _ hid))
  attached := fun id hid => hattached id hid (hs.attached id (hin _ hid))
  freshPeer := fun id hid => (hs.freshPeer id (hin _ hid)).trans_le hnextPeer
  freshIface := fun id hid => (hs.freshIface id (hkept id hid)).trans_le hnextIface

/-- The table, its list and its interfaces. -/
structure Inv (k : Params) (s : Tables) : Prop where
  placed : Placed s
  bounded : Bounded k s
  queried : Queried s
  owned : Owned k s

theorem Inv.init : Inv k Tables.init where
  placed :=
    { index := nofun
      hash := fun _ _ => iff_of_false List.not_mem_nil fun h => nomatch h.1
      nodup := fun _ => List.nodup_nil
      addr := fun _ _ h => nomatch h }
  bounded := ⟨Nat.zero_le _, nofun⟩
  queried := ⟨fun _ => iff_of_false List.not_mem_nil fun h => (nomatch h.1), List.nodup_nil⟩
  owned :=
    { remote := fun _ => rfl
      iface := fun _ h => nomatch h
      attached := fun _ h => nomatch h
      freshPeer := fun _ h => nomatch h
      freshIface := fun _ h => nomatch h }

namespace Inv

variable (hs : Inv k s)
include hs

theorem coherent : s.Coherent where
  index := hs.placed.index
  below := hs.bounded.below
  hash := by
    intro p hp hash
    split
    · rename_i hhash
      exact List.count_eq_one_of_mem (hs.placed.nodup hash) ((hs.placed.hash hash p).2 ⟨hp, hhash⟩)
    · rename_i hhash
      exact List.count_eq_zero_of_not_mem fun hmem => hhash ((hs.placed.hash hash p).1 hmem).2
  addr := by
    intro i j p q hi hj haddr
    have hpq := hs.placed.addr p q ⟨i, hi⟩ ⟨j, hj⟩ haddr
    rw [← hpq] at hj
    exact hs.placed.index_inj hi hj
  query := by
    intro p hp hlocal
    rw [hs.queried.mem]
    exact ⟨fun h => h.2.2, fun h => ⟨hp, hlocal, h⟩⟩

/-- Nothing of the table changes. -/
theorem of_eq (hpeer : s'.peer = s.peer) (harray : s'.peerArray = s.peerArray)
    (hhash : s'.addrHash = s.addrHash) (hnext : s'.nextNr = s.nextNr)
    (hquery : s'.hostQueryPeers = s.hostQueryPeers) (hifaces : s'.ifaces = s.ifaces)
    (hnextPeer : s.nextPeer ≤ s'.nextPeer) (hnextIface : s.nextIface ≤ s'.nextIface) :
    Inv k s' where
  placed := hs.placed.of_eq hpeer harray hhash
  bounded := by
    refine ⟨?_, ?_⟩
    · rw [hnext]
      exact hs.bounded.le
    · rw [harray, hnext]
      exact hs.bounded.below
  queried := by
    refine hs.queried.keep hquery fun q => ?_
    simp only [Asked, InTable, hpeer, harray]
  owned := by
    refine hs.owned.of (fun q => by rw [hpeer]) (fun q => ?_) (fun id _ h => ?_) (fun id h => ?_)
      hnextPeer hnextIface
    · rw [InTable, InTable, harray]
      exact id
    · rwa [Attached, hifaces]
    · rwa [Attached, hifaces] at h

/-- The name of a peer changes, and the list with it. -/
theorem rename {hostname : Option Hostname} {l : List PeerRef}
    (hq : Queried { s.setHostname p hostname with hostQueryPeers := l }) :
    Inv k { s.setHostname p hostname with hostQueryPeers := l } where
  placed := by
    have hplaced : Placed (s.setHostname p hostname) := hs.placed.setPeer fun _ => ⟨rfl, rfl⟩
    exact hplaced.of_eq rfl rfl rfl
  bounded := ⟨hs.bounded.le, hs.bounded.below⟩
  queried := hq
  owned := by
    refine hs.owned.of (fun q => ?_) (fun _ => id) (fun _ _ => id) (fun _ => id) le_rfl le_rfl
    show ((s.setHostname p hostname).peer q).localIface = _
    by_cases hqp : q = p
    · rw [hqp, Tables.setHostname, setPeer_self]
    · rw [Tables.setHostname, setPeer_of_ne _ hqp]

/-- A peer that is asked no more than before gets a name, or none. -/
theorem setHostname {hostname : Option Hostname} (h : s.InTable p →
    (s.peer p).localIface = none → (hostname = none ↔ (s.peer p).hostname = none)) :
    Inv k (s.setHostname p hostname) := by
  refine hs.rename (hs.queried.keep rfl fun q => asked_setHostname.trans ?_)
  by_cases hqp : q = p
  · subst hqp
    constructor
    · rintro (⟨hne, -⟩ | ⟨-, hin, hlocal, hname⟩)
      · exact absurd rfl hne
      · exact ⟨hin, hlocal, (h hin hlocal).1 hname⟩
    · rintro ⟨hin, hlocal, hname⟩
      exact .inr ⟨rfl, hin, hlocal, (h hin hlocal).2 hname⟩
  · exact ⟨fun hq => (hq.resolve_right fun hq => hqp hq.1).2, fun hq => .inl ⟨hqp, hq⟩⟩

/-- A peer that was asked gets its name. -/
theorem named {name : Hostname} (h : s.delHostQuery p = .ok s') :
    Inv k (s'.setHostname p (some name)) := by
  obtain ⟨-, rfl⟩ := delHostQuery_eq_ok.1 h
  refine hs.rename (hs.queried.del rfl fun q => asked_rename.trans ?_)
  exact ⟨fun hq => (hq.resolve_right fun hq => nomatch hq.2.2.2).symm,
    fun hq => .inl hq.symm⟩

/-- The name of a peer is forgotten, and it is asked. -/
theorem unnamed (hp : s.InTable p) (hlocal : (s.peer p).localIface = none)
    (hname : (s.peer p).hostname ≠ none) : Inv k ((s.setHostname p none).addHostQuery p) := by
  refine hs.rename (hs.queried.add rfl (fun h => hname h.2.2) fun q => asked_rename.trans ?_)
  by_cases hqp : q = p
  · exact iff_of_true (.inr ⟨hqp, hp, hlocal, rfl⟩) (.inr hqp)
  · exact ⟨fun hq => .inl (hq.resolve_right fun hq => hqp hq.1).2,
      fun hq => .inl ⟨hqp, hq.resolve_right hqp⟩⟩

theorem peerRename {hostname : Option Hostname} (hp : s.InTable p)
    (hlocal : (s.peer p).localIface = none) (h : s.peerRename p hostname = .ok s') :
    Inv k s' := by
  unfold Tables.peerRename at h
  obtain ⟨s₁, hs₁, h⟩ := bind_eq_ok.1 h
  cases h
  cases hname : (s.peer p).hostname with
  | none =>
      cases hostname with
      | none =>
          rw [hname] at hs₁
          cases hs₁
          exact hs.setHostname fun _ _ => iff_of_true rfl hname
      | some name =>
          rw [hname] at hs₁
          exact hs.named hs₁
  | some old =>
      have hsome : (s.peer p).hostname ≠ none := by
        rw [hname]
        nofun
      rw [hname] at hs₁
      cases hostname with
      | none =>
          cases hs₁
          exact hs.unnamed hp hlocal hsome
      | some name =>
          cases hs₁
          exact hs.setHostname fun _ _ => iff_of_false nofun hsome

/-- The peer of an interface changes, but for where it is in the table. -/
theorem setIface {id : ℕ} {peer : Peer} (h : s.InTable (.iface id) →
    peer.index = (s.peer (.iface id)).index ∧ peer.boardAddr = (s.peer (.iface id)).boardAddr ∧
      peer.localIface = some id) : Inv k (s.setPeer (.iface id) peer) where
  placed := hs.placed.setPeer fun hin => ⟨(h hin).1, (h hin).2.1⟩
  bounded := ⟨hs.bounded.le, hs.bounded.below⟩
  queried := by
    refine hs.queried.keep rfl fun q => and_congr_right fun hq => ?_
    by_cases hqp : q = .iface id
    · subst hqp
      rw [setPeer_self]
      exact iff_of_false (fun hq' => nomatch hq'.1.symm.trans (h hq).2.2)
        fun hq' => nomatch hq'.1.symm.trans (hs.owned.iface id hq)
    · rw [setPeer_of_ne _ hqp]
  owned := by
    constructor
    · intro id'
      have hne : PeerRef.remote id' ≠ .iface id := nofun
      rw [setPeer_of_ne _ hne]
      exact hs.owned.remote id'
    · intro id' hid
      by_cases heq : PeerRef.iface id' = .iface id
      · cases heq
        rw [setPeer_self]
        exact (h hid).2.2
      · rw [setPeer_of_ne _ heq]
        exact hs.owned.iface id' hid
    · exact hs.owned.attached
    · exact hs.owned.freshPeer
    · exact hs.owned.freshIface

end Inv

/-! ## Adding -/

/-- The peer of an interface is marked as its, and may be renamed. -/
theorem peerAddLocal_eq {id : ℕ} {hostname : Option Hostname}
    (h : s.peerAddLocal id hostname = .ok s') :
    ∃ name, s' = s.setPeer (.iface id)
      { s.peer (.iface id) with hostname := name, localIface := some id } := by
  obtain ⟨s₁, hs₁, h⟩ := bind_eq_ok.1 h
  have heq : s₁ = s.setLocalIface (.iface id) (some id) := by
    split at hs₁
    · obtain ⟨hlocal, hs₁⟩ := check_eq_ok.1 hs₁
      cases hs₁
      have hself : { s.peer (.iface id) with localIface := some id } = s.peer (.iface id) := by
        rw [← hlocal]
      rw [setLocalIface, setPeer, hself, Function.update_eq_self]
    · exact (Except.ok.inj (check_eq_ok.1 hs₁).2).symm
  cases hostname with
  | none =>
      cases h
      exact ⟨_, heq⟩
  | some name =>
      obtain ⟨-, h⟩ := check_eq_ok.1 h
      cases h
      refine ⟨some name, ?_⟩
      rw [heq, setHostname, setLocalIface, setPeer_self]
      simp only [setPeer, Function.update_idem]

/-- A peer with a new address gets the next index. -/
theorem Inv.insert (hplaced : Placed s) (hbounded : Bounded k s)
    (hquery : ∀ q, q ∈ s.hostQueryPeers ↔
      Asked s q ∨ (q = p ∧ (s.peer p).localIface = none ∧ (s.peer p).hostname = none))
    (hnodup : s.hostQueryPeers.Nodup) (howned : Owned k s) (hnew : ¬ s.InTable p)
    (hindex : (s.peer p).index = s.nextNr)
    (haddr : ∀ q, s.InTable q → (s.peer q).boardAddr ≠ (s.peer p).boardAddr)
    (hlt : s.nextNr < k.peerMax) (hremote : ∀ id, p = .remote id → id < s.nextPeer)
    (hiface : ∀ id, p = .iface id →
      (s.peer p).localIface = some id ∧ s.Attached k id) :
    Inv k { (s.hashPeer p).setArray s.nextNr (some p) with nextNr := s.nextNr + 1 } := by
  have hfree : s.peerArray s.nextNr = none := by
    cases hi : s.peerArray s.nextNr with
    | none => rfl
    | some q => exact absurd (hbounded.below _ q hi) (Nat.lt_irrefl _)
  obtain ⟨hplaced', hin⟩ := hplaced.insert hfree hnew hindex haddr
  constructor
  · exact hplaced'.of_eq rfl rfl rfl
  · refine ⟨hlt, fun j q hj => ?_⟩
    rcases setArray_eq_some.1 hj with ⟨rfl, -⟩ | ⟨-, hj⟩
    · exact Nat.lt_succ_self _
    · exact Nat.lt_succ_of_lt (hbounded.below j q hj)
  · refine ⟨fun q => (hquery q).trans ?_, hnodup⟩
    constructor
    · rintro (hq | ⟨rfl, hq⟩)
      · exact ⟨(hin q).2 (.inr hq.1), hq.2⟩
      · exact ⟨(hin q).2 (.inl rfl), hq⟩
    · rintro ⟨hq, hq'⟩
      rcases (hin q).1 hq with rfl | hq
      · exact .inr ⟨rfl, hq'⟩
      · exact .inl ⟨hq, hq'⟩
  · constructor
    · exact howned.remote
    · intro id hid
      rcases (hin _).1 hid with hp | hid
      · rw [hp] at hid ⊢
        exact (hiface id hp.symm).1
      · exact howned.iface id hid
    · intro id hid
      rcases (hin _).1 hid with hp | hid
      · exact (hiface id hp.symm).2
      · exact howned.attached id hid
    · intro id hid
      rcases (hin _).1 hid with hp | hid
      · exact hremote id hp.symm
      · exact howned.freshPeer id hid
    · exact howned.freshIface

/-- The peer of an attached interface gets the next index. -/
theorem Inv.insertIface {id : ℕ} (hs : Inv k s) (hnew : ¬ s.InTable (.iface id))
    (hindex : (s.peer (.iface id)).index = s.nextNr)
    (haddr : ∀ q, s.InTable q → (s.peer q).boardAddr ≠ (s.peer (.iface id)).boardAddr)
    (hlt : s.nextNr < k.peerMax) (hlocal : (s.peer (.iface id)).localIface = some id)
    (hattached : s.Attached k id) :
    Inv k { (s.hashPeer (.iface id)).setArray s.nextNr (some (.iface id)) with
      nextNr := s.nextNr + 1 } := by
  refine Inv.insert hs.placed hs.bounded (fun q => ?_) hs.queried.nodup hs.owned hnew hindex haddr
    hlt nofun ?_
  · refine (hs.queried.mem q).trans (or_iff_left fun h => ?_).symm
    exact nomatch h.2.1.symm.trans hlocal
  · rintro _ ⟨⟩
    exact ⟨hlocal, hattached⟩

theorem Inv.peerAddLocal {id : ℕ} {hostname : Option Hostname} (hs : Inv k s)
    (h : s.peerAddLocal id hostname = .ok s') : Inv k s' := by
  obtain ⟨name, rfl⟩ := peerAddLocal_eq h
  exact hs.setIface fun _ => ⟨rfl, rfl, rfl⟩

/-- A peer of an interface that is not in the table is added. -/
theorem Inv.addIface {id : ℕ} {hostname : Option Hostname} (hs : Inv k s)
    (h : s.peerAddLocal id hostname = .ok s') (hlt : s.nextNr < k.peerMax)
    (haddr : ∀ q, s.InTable q → (s.peer q).boardAddr ≠ (s.peer (.iface id)).boardAddr)
    (hattached : s.Attached k id) : Inv k (s'.allocIndex k (.iface id) true) := by
  have hnew : ¬ s.InTable (.iface id) := fun hin => haddr _ hin rfl
  have hs' := hs.peerAddLocal h
  obtain ⟨name, rfl⟩ := peerAddLocal_eq h
  have hself : ((s.setPeer (.iface id) { s.peer (.iface id) with
      hostname := name, localIface := some id }).setIndex (.iface id) s.nextNr).peer (.iface id) =
      { s.peer (.iface id) with
        hostname := name, localIface := some id, index := s.nextNr } := by
    rw [setIndex, setPeer_self, setPeer_self]
  refine Inv.insertIface ((hs'.setIface fun hin => absurd hin hnew).of_eq
    rfl rfl rfl rfl rfl rfl le_rfl le_rfl) hnew ?_ ?_ hlt ?_ hattached
  · exact congrArg Peer.index hself
  · intro q hq
    have hne : q ≠ .iface id := fun hqp => hnew (hqp ▸ hq)
    refine ((congrArg Peer.boardAddr ?_).trans_ne (haddr q hq)).trans_eq ?_
    · exact (setPeer_of_ne _ hne).trans (setPeer_of_ne _ hne)
    · exact (congrArg Peer.boardAddr hself).symm
  · exact congrArg Peer.localIface hself

theorem peerNew_eq {addr : BoardAddr} {hostname : Option Hostname} :
    s.peerNew addr hostname = { s.setPeer (.remote s.nextPeer)
        ⟨addr, hostname, unknownReversePeerIndex, none⟩ with
      nextPeer := s.nextPeer + 1
      hostQueryPeers :=
        if hostname = none then s.hostQueryPeers ++ [.remote s.nextPeer] else s.hostQueryPeers } := by
  unfold peerNew
  split
  · rfl
  · rfl

/-- A peer of no interface is added. -/
theorem Inv.addNew {addr : BoardAddr} {hostname : Option Hostname} (hs : Inv k s)
    (hlt : s.nextNr < k.peerMax) (haddr : ∀ q, s.InTable q → (s.peer q).boardAddr ≠ addr) :
    Inv k ((s.peerNew addr hostname).allocIndex k (.remote s.nextPeer) false) := by
  have hnew : ¬ s.InTable (.remote s.nextPeer) := fun hin =>
    Nat.lt_irrefl _ (hs.owned.freshPeer _ hin)
  have hne : ∀ q, s.InTable q → q ≠ .remote s.nextPeer := fun q hq hqp => hnew (hqp ▸ hq)
  have hplaced : Placed (s.setPeer (.remote s.nextPeer) ⟨addr, hostname, s.nextNr, none⟩) :=
    hs.placed.setPeer fun hin => absurd hin hnew
  have hpeer : ((s.peerNew addr hostname).setIndex (.remote s.nextPeer) s.nextNr).peer =
      (s.setPeer (.remote s.nextPeer) ⟨addr, hostname, s.nextNr, none⟩).peer := by
    have hself : (s.peerNew addr hostname).peer (.remote s.nextPeer) =
        ⟨addr, hostname, unknownReversePeerIndex, none⟩ := by
      rw [peerNew_eq]
      exact setPeer_self _
    rw [setIndex, hself, peerNew_eq]
    exact Function.update_idem ..
  have hself : ((s.peerNew addr hostname).setIndex (.remote s.nextPeer) s.nextNr).peer
      (.remote s.nextPeer) = ⟨addr, hostname, s.nextNr, none⟩ := by
    rw [hpeer]
    exact setPeer_self _
  have hother : ∀ q, q ≠ .remote s.nextPeer →
      ((s.peerNew addr hostname).setIndex (.remote s.nextPeer) s.nextNr).peer q = s.peer q := by
    intro q hqp
    rw [hpeer]
    exact setPeer_of_ne _ hqp
  rw [peerNew_eq] at hpeer hself hother ⊢
  refine Inv.insert (hplaced.of_eq hpeer rfl rfl) ⟨hs.bounded.le, hs.bounded.below⟩ (fun q => ?_)
    ?_ ?_ hnew ?_ (fun q hq => ?_) hlt ?_ nofun
  · have hasked : ∀ b : Tables, (∀ q, q ≠ .remote s.nextPeer → b.peer q = s.peer q) →
        b.peerArray = s.peerArray → (Asked b q ↔ Asked s q) := by
      intro b hb harray
      rw [Asked, InTable, harray]
      exact and_congr_right fun hq => by rw [hb q (hne q hq)]
    refine Iff.trans ?_ (or_congr_left (hasked _ hother rfl)).symm
    rw [← hs.queried.mem]
    show q ∈ ite _ _ _ ↔ _
    split
    · rename_i hname
      rw [List.mem_append, List.mem_singleton]
      refine or_congr_right (and_iff_left ?_).symm
      exact ⟨congrArg Peer.localIface hself, (congrArg Peer.hostname hself).trans hname⟩
    · rename_i hname
      exact (or_iff_left fun h => hname ((congrArg Peer.hostname hself).symm.trans h.2.2)).symm
  · show List.Nodup (ite _ _ _)
    split
    · refine List.nodup_append.2 ⟨hs.queried.nodup, List.nodup_singleton _, ?_⟩
      intro q hq q' hq' hqq
      rw [hqq, List.mem_singleton.1 hq', hs.queried.mem] at hq
      exact hnew hq.1
    · exact hs.queried.nodup
  · constructor
    · intro id
      by_cases hid : PeerRef.remote id = .remote s.nextPeer
      · rw [hid]
        exact congrArg Peer.localIface hself
      · exact (congrArg Peer.localIface (hother _ hid)).trans (hs.owned.remote id)
    · intro id hid
      have hne' : PeerRef.iface id ≠ .remote s.nextPeer := nofun
      exact (congrArg Peer.localIface (hother _ hne')).trans (hs.owned.iface id hid)
    · exact hs.owned.attached
    · exact fun id hid => Nat.lt_succ_of_lt (hs.owned.freshPeer id hid)
    · exact hs.owned.freshIface
  · exact congrArg Peer.index hself
  · refine ((congrArg Peer.boardAddr (hother q (hne q hq))).trans_ne (haddr q hq)).trans_eq ?_
    exact (congrArg Peer.boardAddr hself).symm
  · rintro _ ⟨⟩
    exact Nat.lt_succ_self _

/-- What `omx_peer_add` does. -/
theorem peerAdd_cases {addr : BoardAddr} {hostname : Option Hostname} {kstrdup kmalloc : Bool}
    (h : s.peerAdd k addr hostname kstrdup kmalloc = .ok s') :
    s' = s ∨
    (s.peerLookupByAddr addr = none ∧ s.nextNr ≠ k.peerMax ∧
      ∃ iface s₁, s.ifaceFindByAddr k addr = some iface ∧ s.peerAddLocal iface hostname = .ok s₁ ∧
        s' = s₁.allocIndex k (.iface iface) true) ∨
    (s.peerLookupByAddr addr = none ∧ s.nextNr ≠ k.peerMax ∧ s.ifaceFindByAddr k addr = none ∧
      s' = (s.peerNew addr hostname).allocIndex k (.remote s.nextPeer) false) ∨
    (∃ iface, s.ifaceFindByAddr k addr = some iface ∧ s.peerAddLocal iface hostname = .ok s') ∨
    (∃ q, s.peerLookupByAddr addr = some q ∧ s.ifaceFindByAddr k addr = none ∧
      s.peerRename q hostname = .ok s') := by
  unfold Tables.peerAdd at h
  split at h
  · cases h
    exact .inl rfl
  · cases hlookup : s.peerLookupByAddr addr with
    | none =>
        simp only [hlookup] at h
        split at h
        · cases h
          exact .inl rfl
        · rename_i hfull
          cases hfound : s.ifaceFindByAddr k addr with
          | none =>
              simp only [hfound] at h
              split at h
              · cases h
                exact .inr (.inr (.inl ⟨rfl, hfull, rfl, rfl⟩))
              · cases h
                exact .inl rfl
          | some iface =>
              simp only [hfound] at h
              obtain ⟨s₁, hs₁, h⟩ := bind_eq_ok.1 h
              cases h
              exact .inr (.inl ⟨rfl, hfull, iface, s₁, rfl, hs₁, rfl⟩)
    | some q =>
        cases hfound : s.ifaceFindByAddr k addr with
        | none =>
            simp only [hlookup, hfound] at h
            exact .inr (.inr (.inr (.inr ⟨q, rfl, rfl, h⟩)))
        | some iface =>
            simp only [hlookup, hfound] at h
            exact .inr (.inr (.inr (.inl ⟨iface, rfl, h⟩)))

theorem Inv.peerAdd {addr : BoardAddr} {hostname : Option Hostname} {kstrdup kmalloc : Bool}
    (hs : Inv k s) (h : s.peerAdd k addr hostname kstrdup kmalloc = .ok s') : Inv k s' := by
  rcases peerAdd_cases h with rfl | ⟨hlookup, hfull, iface, s₁, hfound, hs₁, rfl⟩ |
    ⟨hlookup, hfull, -, rfl⟩ | ⟨iface, -, h⟩ | ⟨q, hlookup, hfound, h⟩
  · exact hs
  · obtain ⟨hattached, rfl⟩ := ifaceFindByAddr_some hfound
    exact hs.addIface hs₁ (lt_of_le_of_ne hs.bounded.le hfull)
      (fun q hq => hs.placed.addr_ne_of_lookup hlookup hq) hattached
  · exact hs.addNew (lt_of_le_of_ne hs.bounded.le hfull) fun q hq =>
      hs.placed.addr_ne_of_lookup hlookup hq
  · exact hs.peerAddLocal h
  · obtain ⟨hin, haddr⟩ := hs.placed.inTable_of_lookup hlookup
    refine hs.peerRename hin ?_ h
    cases q with
    | remote id => exact hs.owned.remote id
    | iface id => exact absurd haddr (ifaceFindByAddr_none hfound (hs.owned.attached id hin))

/-! ## Taking out -/

/-- The peer of an index is taken out, and out of the list if it was asked. -/
theorem Inv.remove {l : List PeerRef} (hs : Inv k s) (hi : s.peerArray i = some p)
    (h : s.unhashPeer p = .ok s') (hl : ∀ q, q ∈ l ↔ Asked s q ∧ q ≠ p) (hnodup : l.Nodup) :
    Inv k { s'.setArray i none with hostQueryPeers := l } := by
  obtain ⟨hplaced, hin⟩ := hs.placed.remove hi h
  obtain ⟨-, rfl⟩ := unhashPeer_eq_ok.1 h
  constructor
  · exact hplaced.of_eq rfl rfl rfl
  · refine ⟨hs.bounded.le, fun j q hj => ?_⟩
    rcases setArray_eq_some.1 hj with ⟨-, hq⟩ | ⟨-, hj⟩
    · cases hq
    · exact hs.bounded.below j q hj
  · refine ⟨fun q => (hl q).trans ⟨fun hq => ?_, fun hq => ?_⟩, hnodup⟩
    · exact ⟨(hin q).2 ⟨hq.1.1, hq.2⟩, hq.1.2⟩
    · obtain ⟨hq', hne⟩ := (hin q).1 hq.1
      exact ⟨⟨hq', hq.2⟩, hne⟩
  · exact hs.owned.of (fun _ => rfl) (fun q hq => ((hin q).1 hq).1) (fun _ _ => id) (fun _ => id)
      le_rfl le_rfl

/-- The peer of an index that was not asked is taken out. -/
theorem Inv.removeNamed (hs : Inv k s) (hi : s.peerArray i = some p)
    (h : s.unhashPeer p = .ok s') (hp : ¬ Asked s p) : Inv k (s'.setArray i none) := by
  have hlist : s'.hostQueryPeers = s.hostQueryPeers := by
    obtain ⟨-, rfl⟩ := unhashPeer_eq_ok.1 h
    rfl
  have hs' := hs.remove (l := s'.hostQueryPeers) hi h (fun q => ?_) ?_
  · exact hs'
  · rw [hlist, hs.queried.mem]
    refine (and_iff_left_of_imp fun hq hqp => hp ?_).symm
    rwa [hqp] at hq
  · rw [hlist]
    exact hs.queried.nodup

/-- The peer of an interface leaves the table. -/
theorem Inv.peersNotifyIfaceDetach {iface : ℕ} (hs : Inv k s)
    (h : s.peersNotifyIfaceDetach iface = .ok s') :
    Inv k s' ∧ ¬ s'.InTable (.iface iface) ∧ s'.ifaces = s.ifaces := by
  simp only [Tables.peersNotifyIfaceDetach] at h
  split at h
  · rename_i hunknown
    cases h
    refine ⟨hs, fun hin => ?_, rfl⟩
    have hlt := hs.bounded.below _ _ (hs.placed.array_index hin)
    have hle := hs.bounded.le
    have hmax := k.le
    rw [hunknown, unknownReversePeerIndex] at hlt
    omega
  · obtain ⟨s₁, hs₁, h⟩ := bind_eq_ok.1 h
    cases h
    have hin : s.InTable (.iface iface) := hs.placed.mem_bucket.1 (unhashPeer_eq_ok.1 hs₁).1
    have hi := hs.placed.array_index hin
    have hremoved := hs.removeNamed hi hs₁ fun hasked =>
      nomatch hasked.2.1.symm.trans (hs.owned.iface iface hin)
    have hout := fun hin' => (((hs.placed.remove hi hs₁).2 _).1 hin').2 rfl
    refine ⟨?_, hout, ?_⟩
    · exact (hremoved.setIface fun hin' => absurd hin' hout).setIface fun hin' => absurd hin' hout
    · obtain ⟨-, rfl⟩ := unhashPeer_eq_ok.1 hs₁
      rfl

theorem Inv.ifaceDetach (hs : Inv k s) (h : s.ifaceDetach i = .ok s') : Inv k s' := by
  unfold Tables.ifaceDetach at h
  split at h
  · cases h
    exact hs
  · rename_i iface hslot
    obtain ⟨s₁, hs₁, h⟩ := bind_eq_ok.1 h
    cases h
    obtain ⟨hs', hout, hifaces⟩ := hs.peersNotifyIfaceDetach hs₁
    refine ⟨hs'.placed.of_eq rfl rfl rfl, ⟨hs'.bounded.le, hs'.bounded.below⟩,
      ⟨hs'.queried.mem, hs'.queried.nodup⟩, ?_⟩
    -- An interface that stays in the table is in another slot.
    refine hs'.owned.of (fun _ => rfl) (fun _ hin => hin) ?_ ?_ le_rfl le_rfl
    · rintro iface' hin ⟨j, hj, hj'⟩
      refine ⟨j, hj, (Function.update_of_ne (fun hji => hout ?_) _ _).trans hj'⟩
      rw [hji, hifaces, hslot] at hj'
      cases hj'
      exact hin
    · rintro iface' ⟨j, hj, hj'⟩
      change Function.update s₁.ifaces i none j = some iface' at hj'
      refine ⟨j, hj, ?_⟩
      by_cases hji : j = i
      · rw [hji, Function.update_self] at hj'
        cases hj'
      · rwa [Function.update_of_ne hji] at hj'

/-! ## Clearing -/

/-- A round keeps the table, and the entry that it leaves is of an interface that stays. -/
theorem Inv.clearPeer {isLocal : Bool} (hs : Inv k s)
    (hdone : ∀ j < i, ∀ p, s.peerArray j = some p → isLocal = false ∧
      (s.peer p).localIface ≠ none)
    (h : Tables.clearPeer isLocal i s = .ok s') :
    Inv k s' ∧ ∀ j < i + 1, ∀ p, s'.peerArray j = some p → isLocal = false ∧
      (s'.peer p).localIface ≠ none := by
  unfold Tables.clearPeer at h
  split at h
  · rename_i hnone
    cases h
    refine ⟨hs, fun j hj p hp => ?_⟩
    rcases Nat.lt_succ_iff_lt_or_eq.1 hj with hj | rfl
    · exact hdone j hj p hp
    · cases hnone.symm.trans hp
  · rename_i p hi
    split at h
    · rename_i hstays
      cases h
      refine ⟨hs, fun j hj q hq => ?_⟩
      rcases Nat.lt_succ_iff_lt_or_eq.1 hj with hj | rfl
      · exact hdone j hj q hq
      · cases hi.symm.trans hq
        exact ⟨hstays.2, hstays.1⟩
    · rename_i hgoes
      obtain ⟨s₁, hs₁, h⟩ := bind_eq_ok.1 h
      have hpeer : s₁.peer = s.peer := by
        obtain ⟨-, rfl⟩ := unhashPeer_eq_ok.1 hs₁
        rfl
      have hlist : s₁.hostQueryPeers = s.hostQueryPeers := by
        obtain ⟨-, rfl⟩ := unhashPeer_eq_ok.1 hs₁
        rfl
      have harray : s₁.peerArray = s.peerArray := by
        obtain ⟨-, rfl⟩ := unhashPeer_eq_ok.1 hs₁
        rfl
      have hin := (hs.placed.remove hi hs₁).2
      -- The entries before are those of before, whose peers are others.
      have hrest : ∀ t : Tables, t.peerArray = Function.update s.peerArray i none →
          (∀ q, q ≠ p → t.peer q = s.peer q) → ∀ j < i + 1, ∀ q, t.peerArray j = some q →
            isLocal = false ∧ (t.peer q).localIface ≠ none := by
        intro t htarray htpeer j hj q hq
        have hq' : (s.setArray i none).peerArray j = some q := by
          rw [htarray] at hq
          exact hq
        rcases setArray_eq_some.1 hq' with ⟨-, hnone⟩ | ⟨hji, hq⟩
        · cases hnone
        · have hqp : q ≠ p := fun hqp => hji (hs.placed.index_inj (hqp ▸ hq) hi)
          rw [htpeer q hqp]
          exact hdone j (by omega) q hq
      dsimp only at h
      split at h
      · rename_i hlocal
        obtain ⟨-, h⟩ := check_eq_ok.1 h
        cases h
        change (s₁.peer p).localIface ≠ none at hlocal
        rw [hpeer] at hlocal
        have hremoved := hs.removeNamed hi hs₁ fun hasked => hlocal hasked.2.1
        have hout : ¬ (s₁.setArray i none).InTable p := fun hin' => ((hin p).1 hin').2 rfl
        cases p with
        | remote id => exact absurd (hs.owned.remote id) hlocal
        | iface id =>
            refine ⟨?_, hrest _ ?_ ?_⟩
            · exact (hremoved.setIface fun hin' => absurd hin' hout).setIface
                fun hin' => absurd hin' hout
            · show Function.update s₁.peerArray i none = _
              rw [harray]
            · intro q hqp
              exact (setPeer_of_ne _ hqp).trans ((setPeer_of_ne _ hqp).trans (congrFun hpeer q))
      · rename_i hlocal
        split at h
        · rename_i hname
          obtain ⟨hmem, h⟩ := delHostQuery_eq_ok.1 h
          cases h
          refine ⟨hs.remove hi hs₁ (fun q => ?_) ?_, hrest _ ?_ fun q _ => congrFun hpeer q⟩
          · show q ∈ s₁.hostQueryPeers.erase p ↔ _
            rw [hlist, hs.queried.nodup.mem_erase_iff, hs.queried.mem, and_comm]
          · show (s₁.hostQueryPeers.erase p).Nodup
            rw [hlist]
            exact hs.queried.nodup.erase p
          · show Function.update s₁.peerArray i none = _
            rw [harray]
        · rename_i hname
          cases h
          change ¬ (s₁.peer p).hostname = none at hname
          rw [hpeer] at hname
          refine ⟨hs.removeNamed hi hs₁ fun hasked => hname hasked.2.2, hrest _ ?_ fun q _ =>
            congrFun hpeer q⟩
          show Function.update s₁.peerArray i none = _
          rw [harray]

/-- Moving the peers to the first indexes, from a table: those before the round are in a row, and
nothing else changes. -/
structure Moving (s₀ : Tables) (i : ℕ) (s : Tables) : Prop where
  placed : Placed s
  le : s.nextNr ≤ i
  row : ∀ j < s.nextNr, s.peerArray j ≠ none
  gap : ∀ j, s.nextNr ≤ j → j < i → s.peerArray j = none
  later : ∀ j, i ≤ j → s.peerArray j = s₀.peerArray j
  inTable : ∀ q, s.InTable q ↔ s₀.InTable q
  peer : ∀ q, { s.peer q with index := (s₀.peer q).index } = s₀.peer q
  hostQueryPeers : s.hostQueryPeers = s₀.hostQueryPeers
  ifaces : s.ifaces = s₀.ifaces
  reverse : s.reversePeerIndexes = s₀.reversePeerIndexes
  nextPeer : s.nextPeer = s₀.nextPeer
  nextIface : s.nextIface = s₀.nextIface

theorem Moving.localIface {s₀ : Tables} (hm : Moving s₀ i s) (q : PeerRef) :
    (s.peer q).localIface = (s₀.peer q).localIface := by
  have h := congrArg Peer.localIface (hm.peer q)
  exact h

theorem Moving.hostname {s₀ : Tables} (hm : Moving s₀ i s) (q : PeerRef) :
    (s.peer q).hostname = (s₀.peer q).hostname := by
  have h := congrArg Peer.hostname (hm.peer q)
  exact h

theorem Moving.moveBack {s₀ : Tables} (hm : Moving s₀ i s) : Moving s₀ (i + 1) (moveBack i s) := by
  unfold Tables.moveBack
  split
  · rename_i hnone
    refine { hm with le := Nat.le_succ_of_le hm.le, gap := fun j hj hj' => ?_, later := ?_ }
    · rcases Nat.lt_succ_iff_lt_or_eq.1 hj' with hj' | rfl
      · exact hm.gap j hj hj'
      · exact hnone
    · exact fun j hj => hm.later j (Nat.le_of_succ_le hj)
  · rename_i p hi
    dsimp only
    split
    · rename_i hne
      have hlt : s.nextNr < i := lt_of_le_of_ne hm.le (Ne.symm hne)
      have hfree := hm.gap s.nextNr le_rfl hlt
      obtain ⟨hplaced, hin⟩ := hm.placed.move hi hfree
      have hkept : ∀ j, j ≠ s.nextNr → j ≠ i → (((s.setIndex p s.nextNr).setArray s.nextNr
          (some p)).setArray i none).peerArray j = s.peerArray j := fun j hj hj' =>
        (Function.update_of_ne hj' _ _).trans (Function.update_of_ne hj _ _)
      constructor
      · exact hplaced.of_eq rfl rfl rfl
      · exact Nat.succ_le_succ hm.le
      · intro j hj
        rcases Nat.lt_succ_iff_lt_or_eq.1 hj with hj | rfl
        · exact fun hnone => hm.row j hj ((hkept j hj.ne (hj.trans hlt).ne).symm.trans hnone)
        · have hself : (((s.setIndex p s.nextNr).setArray s.nextNr (some p)).setArray i
              none).peerArray s.nextNr = some p :=
            (Function.update_of_ne hne.symm _ _).trans (Function.update_self ..)
          exact fun hnone => nomatch hself.symm.trans hnone
      · intro j hj hj'
        rcases Nat.lt_succ_iff_lt_or_eq.1 hj' with hj' | rfl
        · exact (hkept j (Nat.lt_of_succ_le hj).ne' hj'.ne).trans
            (hm.gap j (Nat.le_of_succ_le hj) hj')
        · exact Function.update_self ..
      · intro j hj
        exact (hkept j (hlt.trans (Nat.lt_of_succ_le hj)).ne' (Nat.lt_of_succ_le hj).ne').trans
          (hm.later j (Nat.le_of_succ_le hj))
      · exact fun q => (hin q).trans (hm.inTable q)
      · intro q
        show { (s.setIndex p s.nextNr).peer q with index := (s₀.peer q).index } = s₀.peer q
        by_cases hqp : q = p
        · rw [hqp, setIndex, setPeer_self]
          exact hm.peer p
        · rw [setIndex, setPeer_of_ne _ hqp]
          exact hm.peer q
      · exact hm.hostQueryPeers
      · exact hm.ifaces
      · exact hm.reverse
      · exact hm.nextPeer
      · exact hm.nextIface
    · rename_i heq
      obtain rfl : i = s.nextNr := not_not.1 heq
      refine { hm with placed := ?_, le := le_rfl, row := ?_, gap := ?_, later := ?_ }
      · exact hm.placed.of_eq rfl rfl rfl
      · intro j hj
        rcases Nat.lt_succ_iff_lt_or_eq.1 hj with hj | rfl
        · exact hm.row j hj
        · intro hnone
          cases hi.symm.trans hnone
      · exact fun j hj hj' => absurd hj hj'.not_ge
      · exact fun j hj => hm.later j (Nat.le_of_succ_le hj)

/-- Where the second loop of a clearing ends. -/
theorem Placed.moving (hs : Placed s) : Moving s k.peerMax (steps moveBack k.peerMax 0
    { s with nextNr := 0 }) := by
  have hstart : Moving s 0 { s with nextNr := 0 } :=
    { placed := hs.of_eq rfl rfl rfl
      le := le_rfl
      row := nofun
      gap := fun _ _ hj => absurd hj (Nat.not_lt_zero _)
      later := fun _ _ => rfl
      inTable := fun _ => Iff.rfl
      peer := fun _ => rfl
      hostQueryPeers := rfl
      ifaces := rfl
      reverse := rfl
      nextPeer := rfl
      nextIface := rfl }
  have hend := steps_induction (I := Moving s) (n := k.peerMax)
    (fun j t _ _ ht => ht.moveBack) hstart
  rwa [Nat.zero_add] at hend

/-- The first loop of a clearing. -/
theorem Inv.clearPeers {isLocal : Bool} (hs : Inv k s)
    (h : loop (Tables.clearPeer isLocal) k.peerMax 0 s = .ok s') :
    Inv k s' ∧ ∀ j p, s'.peerArray j = some p → isLocal = false ∧
      (s'.peer p).localIface ≠ none := by
  have hend := loop_induction (I := fun i t => Inv k t ∧ ∀ j < i, ∀ p, t.peerArray j = some p →
    isLocal = false ∧ (t.peer p).localIface ≠ none) (fun i t t' ht h => ht.1.clearPeer ht.2 h)
    ⟨hs, fun _ hj => absurd hj (Nat.not_lt_zero _)⟩ h
  rw [Nat.zero_add] at hend
  refine ⟨hend.1, fun j p hp => hend.2 j ?_ p hp⟩
  exact (hend.1.bounded.below j p hp).trans_le hend.1.bounded.le

theorem Inv.peersClear {isLocal : Bool} (hs : Inv k s) (h : s.peersClear k isLocal = .ok s') :
    Inv k s' := by
  obtain ⟨s₁, hs₁, h⟩ := bind_eq_ok.1 h
  obtain ⟨hinv, hleft⟩ := hs.clearPeers hs₁
  cases h
  split
  · have hm : Moving s₁ k.peerMax (steps moveBack k.peerMax 0 { s₁ with nextNr := 0 }) :=
      hinv.placed.moving
    constructor
    · exact hm.placed
    · refine ⟨hm.le, fun j p hj => lt_of_not_ge fun hge => ?_⟩
      rcases Nat.lt_or_ge j k.peerMax with hlt | hge'
      · cases hj.symm.trans (hm.gap j hge hlt)
      · rw [hm.later j hge'] at hj
        exact absurd (hinv.bounded.below j p hj) (hinv.bounded.le.trans hge').not_gt
    · refine hinv.queried.keep hm.hostQueryPeers fun q => ?_
      rw [Asked, Asked, hm.inTable, hm.localIface, hm.hostname]
    · refine hinv.owned.of hm.localIface (fun q => (hm.inTable q).1) (fun id _ hid => ?_)
        (fun id hid => ?_) hm.nextPeer.ge hm.nextIface.ge
      · rwa [Attached, hm.ifaces]
      · rwa [Attached, hm.ifaces] at hid
  · rename_i htrue
    have hempty : ∀ j p, s₁.peerArray j ≠ some p := fun j p hp => htrue (hleft j p hp).1
    exact ⟨hinv.placed.of_eq rfl rfl rfl, ⟨Nat.zero_le _, fun j p hp => absurd hp (hempty j p)⟩,
      ⟨hinv.queried.mem, hinv.queried.nodup⟩,
      hinv.owned.of (fun _ => rfl) (fun _ hq => hq) (fun _ _ hid => hid) (fun _ hid => hid)
        le_rfl le_rfl⟩

/-! ## Attaching -/

/-- An interface that was just allocated, in its slot already: its peer is of none, and not in the
table. -/
theorem Inv.newIface {ifp : ℕ} {addr : BoardAddr} {hostname : Hostname} (hs : Inv k s) :
    Inv k (s.newIface ifp addr hostname) := by
  have hnew : ¬ s.InTable (.iface s.nextIface) := fun hin =>
    Nat.lt_irrefl _ (hs.owned.freshIface _ (hs.owned.attached _ hin))
  exact (hs.setIface fun hin => absurd hin hnew).of_eq rfl rfl rfl rfl rfl rfl le_rfl
    (Nat.le_succ _)

/-- A free slot is given to an interface. -/
theorem Owned.setSlot {iface : ℕ} (hs : Owned k s) (hfree : s.ifaces i = none)
    (hfresh : iface < s.nextIface) : Owned k { s with
      ifaces := Function.update s.ifaces i (some iface), ifaceNr := s.ifaceNr + 1 } := by
  refine ⟨hs.remote, hs.iface, ?_, hs.freshPeer, ?_⟩
  · intro id hid
    obtain ⟨j, hj, hj'⟩ := hs.attached id hid
    refine ⟨j, hj, (Function.update_of_ne (fun hji => ?_) _ _).trans hj'⟩
    rw [hji, hfree] at hj'
    cases hj'
  · rintro id ⟨j, hj, hj'⟩
    change Function.update s.ifaces i (some iface) j = some id at hj'
    by_cases hji : j = i
    · rw [hji, Function.update_self] at hj'
      cases hj'
      exact hfresh
    · rw [Function.update_of_ne hji] at hj'
      exact hs.freshIface id ⟨j, hj, hj'⟩

/-- The peer of an attached interface takes the place of another. -/
theorem Inv.replace {iface : ℕ} (hplaced : Placed s) (hbounded : Bounded k s) (howned : Owned k s)
    (hquery : ∀ q, q ∈ s.hostQueryPeers ↔ Asked s q ∧ q ≠ old) (hnodup : s.hostQueryPeers.Nodup)
    (hi : s.peerArray i = some old) (hnew : ¬ s.InTable (.iface iface))
    (hindex : (s.peer (.iface iface)).index = i)
    (haddr : (s.peer old).boardAddr = (s.peer (.iface iface)).boardAddr)
    (hlocal : (s.peer (.iface iface)).localIface = some iface) (hattached : s.Attached k iface) :
    Inv k ((s.rehashPeer old (.iface iface)).setArray i (some (.iface iface))) := by
  obtain ⟨hplaced', hin⟩ := hplaced.replace hi hnew hindex haddr
  constructor
  · exact hplaced'
  · refine ⟨hbounded.le, fun j q hj => ?_⟩
    rcases setArray_eq_some.1 hj with ⟨rfl, -⟩ | ⟨-, hj⟩
    · exact hbounded.below _ old hi
    · exact hbounded.below j q hj
  · refine ⟨fun q => (hquery q).trans ⟨fun hq => ?_, fun hq => ?_⟩, hnodup⟩
    · exact ⟨(hin q).2 (.inr ⟨hq.1.1, hq.2⟩), hq.1.2⟩
    · rcases (hin q).1 hq.1 with rfl | hq'
      · exact nomatch hq.2.1.symm.trans hlocal
      · exact ⟨⟨hq'.1, hq.2⟩, hq'.2⟩
  · constructor
    · exact howned.remote
    · intro id hid
      rcases (hin _).1 hid with hp | hid
      · cases hp
        exact hlocal
      · exact howned.iface id hid.1
    · intro id hid
      rcases (hin _).1 hid with hp | hid
      · cases hp
        exact hattached
      · exact howned.attached id hid.1
    · intro id hid
      rcases (hin _).1 hid with hp | hid
      · cases hp
      · exact howned.freshPeer id hid.1
    · exact howned.freshIface

/-- What there is when the name is taken over, or no longer asked for. -/
theorem Inv.takeHostname (hs : Inv k s) (hnew : ¬ s.InTable p) (hold : s.InTable old)
    (h : s.takeHostname old p = .ok s') :
    (Placed s' ∧ Owned k s' ∧ (∀ q, q ∈ s'.hostQueryPeers ↔ Asked s' q ∧ q ≠ old) ∧
      s'.hostQueryPeers.Nodup) ∧
    (∀ q, { s'.peer q with hostname := (s.peer q).hostname } = s.peer q) ∧
    s'.peerArray = s.peerArray ∧ s'.nextNr = s.nextNr ∧ s'.ifaces = s.ifaces ∧
      s'.nextIface = s.nextIface := by
  have hne : old ≠ p := fun heq => hnew (heq ▸ hold)
  unfold Tables.takeHostname at h
  split at h
  · rename_i name hname
    cases h
    have hs₁ : Inv k (s.setHostname p (some name)) := hs.setHostname fun hin => absurd hin hnew
    have hpeer : ∀ q, { ((s.setHostname p (some name)).setHostname old none).peer q with
        hostname := (s.peer q).hostname } = s.peer q := by
      intro q
      by_cases hqo : q = old
      · rw [hqo, Tables.setHostname, setPeer_self, Tables.setHostname, setPeer_of_ne _ hne]
      · rw [Tables.setHostname, setPeer_of_ne _ hqo]
        by_cases hqp : q = p
        · rw [hqp, Tables.setHostname, setPeer_self]
        · rw [Tables.setHostname, setPeer_of_ne _ hqp]
    refine ⟨⟨?_, ?_, fun q => ?_, hs.queried.nodup⟩, hpeer, rfl, rfl, rfl, rfl⟩
    · exact hs₁.placed.setPeer fun _ => ⟨rfl, rfl⟩
    · refine hs.owned.of (fun q => ?_) (fun _ hin => hin) (fun _ _ hid => hid) (fun _ hid => hid)
        le_rfl le_rfl
      have hq := congrArg Peer.localIface (hpeer q)
      exact hq
    · have hnot : ¬ Asked (s.setHostname p (some name)) old := by
        intro hasked
        have hnone := hasked.2.2
        rw [Tables.setHostname, setPeer_of_ne _ hne, hname] at hnone
        cases hnone
      refine (hs₁.queried.mem q).trans ?_
      constructor
      · intro hasked
        have hqo : q ≠ old := fun hqo => hnot (hqo ▸ hasked)
        exact ⟨asked_setHostname.2 (.inl ⟨hqo, hasked⟩), hqo⟩
      · rintro ⟨hq, hqo⟩
        exact ((asked_setHostname.1 hq).resolve_right fun hq => hqo hq.1).2
  · obtain ⟨-, rfl⟩ := delHostQuery_eq_ok.1 h
    refine ⟨⟨hs.placed.of_eq rfl rfl rfl, ?_, fun q => ?_, hs.queried.nodup.erase old⟩,
      fun _ => rfl, rfl, rfl, rfl, rfl⟩
    · exact hs.owned.of (fun _ => rfl) (fun _ hin => hin) (fun _ _ hid => hid) (fun _ hid => hid)
        le_rfl le_rfl
    · refine hs.queried.nodup.mem_erase_iff.trans ?_
      rw [hs.queried.mem, and_comm]
      exact Iff.rfl

theorem Inv.replacePeer {iface : ℕ} (hs : Inv k s) (hold : s.InTable old)
    (haddr : (s.peer old).boardAddr = (s.peer (.iface iface)).boardAddr)
    (hnew : ¬ s.InTable (.iface iface)) (hfree : s.ifaces i = none) (hi : i < k.ifaceMax)
    (hfresh : iface < s.nextIface) (h : s.replacePeer k old iface = .ok s') :
    Inv k { s' with ifaces := Function.update s'.ifaces i (some iface), ifaceNr := s'.ifaceNr + 1 } := by
  obtain ⟨-, h⟩ := check_eq_ok.1 h
  obtain ⟨s₂, hs₂, h⟩ := bind_eq_ok.1 h
  cases h
  have hs₁ : Inv k (((s.setIndex (.iface iface) (s.peer old).index).initIfaceReverseIndexes k
      iface).setLocalIface (.iface iface) (some iface)) := by
    refine Inv.setIface ?_ fun hin => absurd hin hnew
    have hs₀ : Inv k (s.setIndex (.iface iface) (s.peer old).index) :=
      hs.setIface fun hin => absurd hin hnew
    exact hs₀.of_eq rfl rfl rfl rfl rfl rfl le_rfl le_rfl
  obtain ⟨⟨hplaced, howned, hquery, hnodup⟩, hpeer, harray, hnext, hifaces, hnextIface⟩ :=
    hs₁.takeHostname hnew hold hs₂
  have hne : old ≠ .iface iface := fun heq => hnew (heq ▸ hold)
  have hself : (((s.setIndex (.iface iface) (s.peer old).index).initIfaceReverseIndexes k
      iface).setLocalIface (.iface iface) (some iface)).peer (.iface iface) =
      { s.peer (.iface iface) with index := (s.peer old).index, localIface := some iface } := by
    have hkeeps : ∀ t : Tables, (t.initIfaceReverseIndexes k iface).peer = t.peer := fun _ => rfl
    rw [setLocalIface, setPeer_self, hkeeps, setIndex, setPeer_self]
  have hother : (((s.setIndex (.iface iface) (s.peer old).index).initIfaceReverseIndexes k
      iface).setLocalIface (.iface iface) (some iface)).peer old = s.peer old :=
    (setPeer_of_ne _ hne).trans (setPeer_of_ne _ hne)
  have hpeer' := hpeer (.iface iface)
  rw [hself] at hpeer'
  have hold' := hpeer old
  rw [hother] at hold'
  have hslot : s₂.ifaces i = none := (congrFun hifaces i).trans hfree
  have hfresh' : iface < s₂.nextIface := hfresh.trans_eq hnextIface.symm
  have hfinal : Inv k ((Tables.rehashPeer { s₂ with
      ifaces := Function.update s₂.ifaces i (some iface), ifaceNr := s₂.ifaceNr + 1 } old
      (.iface iface)).setArray (s.peer old).index (some (.iface iface))) := by
    refine Inv.replace (hplaced.of_eq rfl rfl rfl) ⟨?_, ?_⟩ (howned.setSlot hslot hfresh') hquery
      hnodup ?_ ?_ ?_ ?_ ?_ ⟨i, hi, Function.update_self ..⟩
    · exact hnext.le.trans hs.bounded.le
    · intro j q hj
      exact (hs.bounded.below j q ((congrFun harray j).symm.trans hj)).trans_eq hnext.symm
    · exact (congrFun harray _).trans (hs.placed.array_index hold)
    · rintro ⟨j, hj⟩
      exact hnew ⟨j, (congrFun harray j).symm.trans hj⟩
    · have hindex := congrArg Peer.index hpeer'
      exact hindex
    · have hleft := congrArg Peer.boardAddr hold'
      have hright := congrArg Peer.boardAddr hpeer'
      exact hleft.trans (haddr.trans hright.symm)
    · have hlocal := congrArg Peer.localIface hpeer'
      exact hlocal
  exact hfinal

/-- The peer of a new interface gets the next index. -/
theorem Inv.appendPeer {iface : ℕ} (hs : Inv k s) (hlt : s.nextNr < k.peerMax)
    (haddr : ∀ q, s.InTable q → (s.peer q).boardAddr ≠ (s.peer (.iface iface)).boardAddr)
    (hfree : s.ifaces i = none) (hi : i < k.ifaceMax) (hfresh : iface < s.nextIface) :
    Inv k { (((((s.setLocalIface (.iface iface) (some iface)).setIndex (.iface iface)
        s.nextNr).initIfaceReverseIndexes k iface).hashPeer (.iface iface)).setArray s.nextNr
          (some (.iface iface))) with
      nextNr := s.nextNr + 1
      ifaces := Function.update s.ifaces i (some iface)
      ifaceNr := s.ifaceNr + 1 } := by
  have hnew : ¬ s.InTable (.iface iface) := fun hin => haddr _ hin rfl
  have hself : ((s.setLocalIface (.iface iface) (some iface)).setIndex (.iface iface)
      s.nextNr).peer (.iface iface) =
      { s.peer (.iface iface) with index := s.nextNr, localIface := some iface } := by
    rw [setIndex, setPeer_self, setLocalIface, setPeer_self]
  have hs₁ : Inv k ((s.setLocalIface (.iface iface) (some iface)).setIndex (.iface iface)
      s.nextNr) :=
    (hs.setIface fun hin => absurd hin hnew).setIface fun hin => absurd hin hnew
  have hs₁' : Inv k (((s.setLocalIface (.iface iface) (some iface)).setIndex (.iface iface)
      s.nextNr).initIfaceReverseIndexes k iface) := hs₁.of_eq rfl rfl rfl rfl rfl rfl le_rfl le_rfl
  have hs₂ : Inv k { ((s.setLocalIface (.iface iface) (some iface)).setIndex (.iface iface)
      s.nextNr).initIfaceReverseIndexes k iface with
      ifaces := Function.update s.ifaces i (some iface), ifaceNr := s.ifaceNr + 1 } :=
    ⟨hs₁.placed.of_eq rfl rfl rfl, ⟨hs₁.bounded.le, hs₁.bounded.below⟩,
      ⟨hs₁.queried.mem, hs₁.queried.nodup⟩, hs₁'.owned.setSlot hfree hfresh⟩
  refine hs₂.insertIface hnew ?_ (fun q hq => ?_) hlt ?_ ⟨i, hi, Function.update_self ..⟩
  · have hindex := congrArg Peer.index hself
    exact hindex
  · have hne : q ≠ .iface iface := fun hqp => hnew (hqp ▸ hq)
    have hother : ((s.setLocalIface (.iface iface) (some iface)).setIndex (.iface iface)
        s.nextNr).peer q = s.peer q := (setPeer_of_ne _ hne).trans (setPeer_of_ne _ hne)
    have hleft := congrArg Peer.boardAddr hother
    have hright := congrArg Peer.boardAddr hself
    exact (hleft.trans_ne (haddr q hq)).trans_eq hright.symm
  · have hlocal := congrArg Peer.localIface hself
    exact hlocal

/-- What `omx_iface_attach` does: a peer is replaced or added, or there is no room. -/
theorem ifaceAttach_cases {ifp : ℕ} {addr : BoardAddr} {hostname : Hostname} {kmalloc : Bool}
    (h : s.ifaceAttach k ifp addr hostname kmalloc = .ok s') :
    s' = s ∨
    ∃ i < k.ifaceMax, s.ifaces i = none ∧ s.ifaceNr ≠ k.ifaceMax ∧ s.ifaceFindByIfp k ifp = none ∧
      kmalloc = true ∧
      (s' = s.newIface ifp addr hostname ∨
      (∃ old s₁, (s.newIface ifp addr hostname).peerLookupByAddr
          ((s.newIface ifp addr hostname).peer (.iface s.nextIface)).boardAddr = some old ∧
        (s.newIface ifp addr hostname).replacePeer k old s.nextIface = .ok s₁ ∧
        s' = { s₁ with
          ifaces := Function.update s₁.ifaces i (some s.nextIface), ifaceNr := s₁.ifaceNr + 1 }) ∨
      ((s.newIface ifp addr hostname).peerLookupByAddr
          ((s.newIface ifp addr hostname).peer (.iface s.nextIface)).boardAddr = none ∧
        s.nextNr ≠ k.peerMax ∧
        s' = { ((((((s.newIface ifp addr hostname).setLocalIface (.iface s.nextIface)
            (some s.nextIface)).setIndex (.iface s.nextIface) s.nextNr).initIfaceReverseIndexes k
              s.nextIface).hashPeer (.iface s.nextIface)).setArray s.nextNr
                (some (.iface s.nextIface))) with
          nextNr := s.nextNr + 1
          ifaces := Function.update s.ifaces i (some s.nextIface)
          ifaceNr := s.ifaceNr + 1 })) := by
  unfold Tables.ifaceAttach at h
  split at h
  · cases h
    exact .inl rfl
  rename_i hnr
  split at h
  · cases h
    exact .inl rfl
  rename_i hifp
  split at h
  · cases h
    exact .inl rfl
  rename_i halloc
  split at h
  · cases h
  · rename_i i hslot
    obtain ⟨⟨attached, s₁⟩, hs₁, h⟩ := bind_eq_ok.1 h
    cases h
    refine .inr ⟨i, List.mem_range.1 (List.mem_of_find?_eq_some hslot),
      by simpa using List.find?_some hslot, hnr, not_not.1 hifp, by simpa using halloc, ?_⟩
    unfold peersNotifyIfaceAttach at hs₁
    dsimp only at hs₁
    split at hs₁
    · rename_i old hlookup
      obtain ⟨s₂, hs₂, h⟩ := bind_eq_ok.1 hs₁
      cases h
      exact .inr (.inl ⟨old, _, hlookup, hs₂, rfl⟩)
    · rename_i hlookup
      split at hs₁
      · cases hs₁
        exact .inl rfl
      · rename_i hfull
        cases hs₁
        exact .inr (.inr ⟨hlookup, hfull, rfl⟩)

theorem Inv.ifaceAttach {ifp : ℕ} {addr : BoardAddr} {hostname : Hostname} {kmalloc : Bool}
    (hs : Inv k s) (h : s.ifaceAttach k ifp addr hostname kmalloc = .ok s') : Inv k s' := by
  have hs₀ : Inv k (s.newIface ifp addr hostname) := hs.newIface
  have hnew : ¬ s.InTable (.iface s.nextIface) := fun hin =>
    Nat.lt_irrefl _ (hs.owned.freshIface _ (hs.owned.attached _ hin))
  rcases ifaceAttach_cases h with rfl | ⟨i, hi, hfree, -, -, -, rfl | ⟨old, s₁, hlookup, hs₁, rfl⟩ |
    ⟨hlookup, hfull, rfl⟩⟩
  · exact hs
  · exact hs₀
  · obtain ⟨hold, haddr⟩ := hs₀.placed.inTable_of_lookup hlookup
    exact hs₀.replacePeer hold haddr hnew hfree hi (Nat.lt_succ_self _) hs₁
  · exact hs₀.appendPeer (lt_of_le_of_ne hs₀.bounded.le hfull)
      (fun q hq => hs₀.placed.addr_ne_of_lookup hlookup hq) hfree hi (Nat.lt_succ_self _)

/-! ## Names, queries and replies -/

theorem Inv.ifaceSetHostname {hostname : Hostname} {kstrdup : Bool} (hs : Inv k s) :
    Inv k (s.ifaceSetHostname i hostname kstrdup) := by
  unfold Tables.ifaceSetHostname
  split
  · rename_i iface _
    refine hs.setHostname fun hin hlocal => ?_
    exact nomatch hlocal.symm.trans (hs.owned.iface iface hin)
  · exact hs

theorem Inv.peersClearNames (hs : Inv k s) : Inv k (s.peersClearNames k) := by
  have hround : ∀ i t, Inv k t → Inv k (clearName i t) := by
    intro i t ht
    unfold clearName
    split
    · exact ht
    · rename_i p hi
      split
      · exact ht
      · rename_i hnot
        obtain ⟨hname, hlocal⟩ := not_or.1 hnot
        exact ht.unnamed ⟨i, hi⟩ (not_not.1 hlocal) hname
  have hend := steps_induction (I := fun _ => Inv k) (n := k.peerMax) (i := 0)
    (fun i t _ _ ht => hround i t ht) hs
  exact hend.of_eq rfl rfl rfl rfl rfl rfl le_rfl le_rfl

theorem Inv.processHostReply {kmalloc : Bool} (hs : Inv k s)
    (h : s.processHostReply kmalloc = .ok s') : Inv k s' := by
  unfold Tables.processHostReply at h
  split at h
  · cases h
    exact hs
  · rename_i r rest _
    have hs₀ : Inv k { s with hostReplies := rest } :=
      hs.of_eq rfl rfl rfl rfl rfl rfl le_rfl le_rfl
    dsimp only at h
    split at h
    · rename_i p _
      obtain ⟨-, h⟩ := check_eq_ok.1 h
      obtain ⟨s₁, hs₁, h⟩ := bind_eq_ok.1 h
      cases h
      split at hs₁
      · exact (hs₀.named hs₁).of_eq rfl rfl rfl rfl rfl rfl le_rfl le_rfl
      · rename_i hname
        cases hs₁
        have hs₂ := hs₀.setHostname (p := p) fun _ _ =>
          iff_of_false (Option.some_ne_none (r.name.take (r.length.toNat - 1))) hname
        exact hs₂.of_eq rfl rfl rfl rfl rfl rfl le_rfl le_rfl
    · cases h
      exact hs₀

theorem Inv.processHostQuery (hs : Inv k s) (h : s.processHostQuery = .ok s') : Inv k s' := by
  unfold Tables.processHostQuery at h
  split at h
  · cases h
    exact hs
  · obtain ⟨-, h⟩ := check_eq_ok.1 h
    split at h
    · cases h
      exact hs.of_eq rfl rfl rfl rfl rfl rfl le_rfl le_rfl
    · cases h
      exact hs.of_eq rfl rfl rfl rfl rfl rfl le_rfl le_rfl

/-! ## Every run -/

theorem Inv.tableStep {a : TableAction} (hs : Inv k s) (h : s.tableStep k a = .ok s') :
    Inv k s' := by
  cases a with
  | add => exact hs.peerAdd h
  | clear => exact hs.peersClear h
  | attach => exact hs.ifaceAttach h
  | detach => exact hs.ifaceDetach h

theorem Inv.step {a : Action} (hs : Inv k s) (h : s.step k a = .ok s') : Inv k s' := by
  cases a with
  | table a => exact hs.tableStep h
  | setHostname =>
      cases h
      exact hs.ifaceSetHostname
  | clearNames =>
      cases h
      exact hs.peersClearNames
  | recvHostReply magic r =>
      cases h
      unfold Tables.recvHostReply
      split
      · exact hs
      · exact hs.of_eq rfl rfl rfl rfl rfl rfl le_rfl le_rfl
  | recvHostQuery q =>
      cases h
      exact hs.of_eq rfl rfl rfl rfl rfl rfl le_rfl le_rfl
  | processHostReply => exact hs.processHostReply h
  | processHostQuery => exact hs.processHostQuery h

/-- Whatever is added, cleared, attached, detached, renamed and replied, the peers of the table
are where their indexes and addresses say, and those without a name are asked for it. -/
theorem machine_coherent (k : Params) (as : List Action) (s : Tables)
    (h : (machine k).exec Tables.init as = some s) : s.Coherent := by
  have hs : Inv k s := Machine.exec_invariant
    (fun _ _ _ ht hstep => ht.step (toOption_eq_some.1 hstep)) Inv.init h
  exact hs.coherent

/-- A peer is added, the second of two interfaces has its address, and all but those of interfaces
are cleared. -/
theorem machine_coherent_cleared : ∃ s : Tables,
    (machine ⟨4, 2, by decide⟩).exec Tables.init
      [.table (.add 7 none true true), .table (.add 2 none true true),
        .table (.attach 0 1 [] true), .table (.attach 1 2 [] true), .clearNames,
        .table (.clear false)] = some s ∧
      (s.nextNr, s.peerArray 0, s.peerArray 1) = (2, some (.iface 1), some (.iface 0)) ∧
        s.Coherent := by
  have hrun : ((machine ⟨4, 2, by decide⟩).exec Tables.init
      [.table (.add 7 none true true), .table (.add 2 none true true),
        .table (.attach 0 1 [] true), .table (.attach 1 2 [] true), .clearNames,
        .table (.clear false)]).map (fun s => (s.nextNr, s.peerArray 0, s.peerArray 1)) =
      some (2, some (.iface 1), some (.iface 0)) := by
    decide +kernel
  obtain ⟨s, hs, hvalues⟩ := Option.map_eq_some_iff.1 hrun
  exact ⟨s, hs, hvalues, machine_coherent _ _ s hs⟩

end Xen2mx.Peers
