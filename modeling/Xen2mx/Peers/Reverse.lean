/-
# `Xen2mx.Peers.Reverse` — the index that a peer has for an interface

The reverse index of a peer is "our index in the remote peer tables".  That of a peer of an
interface of the same host is in the same table: it is the index of the interface that keeps it.
The code puts the index of the peer there instead, on every interface, and does not move the
entries when a clearing moves the peers.

    two interfaces, at 0 and 1     each has 1 for the peer 1, and 0 for the peer 0
    one, moved from 1 to 0         it has nothing for the peer 0

So the index is right for the one interface of a host, seen from itself, as long as it is not
moved.

**Proved here.**

    interfaces come to the table alone, and no clearing moves the peer of one
        ⟹  each interface has its own index for each local peer          (`machine_reversed`)
    two interfaces: the first does not                                  (`machine_not_reversed`)
-/
import Xen2mx.Peers.Coherent

namespace Xen2mx.Peers

open Tables

variable {k : Params} {s s' : Tables} {p q : PeerRef} {i j n : ℕ}

theorem Tables.Attached.congr {id : ℕ} (h : s.Attached k id) (hifaces : s.ifaces = s'.ifaces) :
    s'.Attached k id := by
  rwa [Tables.Attached, ← hifaces]

/-- What an attached interface has for the index of a local peer is its own index in the table. -/
def Tables.Reversed (k : Params) (s : Tables) : Prop :=
  ∀ id, s.Attached k id → ∀ p, s.InTable p → (s.peer p).localIface ≠ none →
    s.peerArray (s.reversePeerIndexes id (s.peer p).index) = some (.iface id)

/-- The interface is allocated, and there is room for it. -/
def Tables.Attaches (k : Params) (s : Tables) (ifp : ℕ) (boardAddr : BoardAddr) (kmalloc : Bool) :
    Prop :=
  s.ifaceNr ≠ k.ifaceMax ∧ s.ifaceFindByIfp k ifp = none ∧ kmalloc = true ∧
    (s.peerLookupByAddr boardAddr = none → s.nextNr ≠ k.peerMax)

/-- The condition on a step: an interface whose peer is put in the table is alone, and a clearing
that keeps its peer finds this at the first index. -/
def Alone (k : Params) (s : Tables) : TableAction → Prop
  | .add boardAddr _ _ _ => s.peerLookupByAddr boardAddr = none →
      ∀ iface, s.ifaceFindByAddr k boardAddr = some iface → ∀ id, s.Attached k id → id = iface
  | .clear true => True
  | .clear false => ∀ p, s.InTable p → (s.peer p).localIface ≠ none → (s.peer p).index = 0
  | .attach ifp boardAddr _ kmalloc =>
      s.Attaches k ifp boardAddr kmalloc → ∀ id, ¬ s.Attached k id
  | .detach _ => True

/-- An interface in the table is the only one, and has its own index for itself. -/
structure Single (k : Params) (s : Tables) : Prop where
  inv : Inv k s
  alone : ∀ id, s.InTable (.iface id) → ∀ id', s.Attached k id' → id' = id
  own : ∀ id, s.InTable (.iface id) →
    s.reversePeerIndexes id (s.peer (.iface id)).index = (s.peer (.iface id)).index

namespace Single

variable (hs : Single k s)
include hs

theorem reversed : s.Reversed k := by
  intro id hid p hp hlocal
  cases p with
  | remote n => exact absurd (hs.inv.owned.remote n) hlocal
  | iface id' =>
      rw [hs.alone id' hp id hid, hs.own id' hp]
      exact hs.inv.placed.array_index hp

/-- The interfaces and their peers are those of before, or fewer, and have the same entries. -/
theorem of (hinv : Inv k s') (hin : ∀ id, s'.InTable (.iface id) → s.InTable (.iface id))
    (hattached : ∀ id, s'.Attached k id → s.Attached k id)
    (hindex : ∀ id, s'.InTable (.iface id) →
      (s'.peer (.iface id)).index = (s.peer (.iface id)).index)
    (hreverse : ∀ id, s'.InTable (.iface id) →
      s'.reversePeerIndexes id (s.peer (.iface id)).index =
        s.reversePeerIndexes id (s.peer (.iface id)).index) : Single k s' where
  inv := hinv
  alone := fun id hid id' hid' => hs.alone id (hin id hid) id' (hattached id' hid')
  own := fun id hid => by
    rw [hindex id hid, hreverse id hid]
    exact hs.own id (hin id hid)

end Single

theorem Single.init : Single k Tables.init where
  inv := Inv.init
  alone := fun _ h => nomatch h
  own := fun _ h => nomatch h

/-! ## Adding -/

theorem peerAddLocal_keeps {iface : ℕ} {hostname : Option Hostname}
    (h : s.peerAddLocal iface hostname = .ok s') :
    s'.peerArray = s.peerArray ∧ s'.ifaces = s.ifaces ∧ s'.nextNr = s.nextNr ∧
      s'.reversePeerIndexes = s.reversePeerIndexes ∧
        ∀ q, (s'.peer q).index = (s.peer q).index := by
  obtain ⟨name, rfl⟩ := peerAddLocal_eq h
  refine ⟨rfl, rfl, rfl, rfl, fun q => ?_⟩
  by_cases hq : q = .iface iface
  · rw [hq, setPeer_self]
  · rw [setPeer_of_ne _ hq]

theorem peerRename_keeps {hostname : Option Hostname} (h : s.peerRename p hostname = .ok s') :
    s'.peerArray = s.peerArray ∧ s'.ifaces = s.ifaces ∧
      s'.reversePeerIndexes = s.reversePeerIndexes ∧
        ∀ q, (s'.peer q).index = (s.peer q).index := by
  obtain ⟨s₁, hs₁, h⟩ := bind_eq_ok.1 h
  cases h
  have hkeeps : s₁.peer = s.peer ∧ s₁.peerArray = s.peerArray ∧ s₁.ifaces = s.ifaces ∧
      s₁.reversePeerIndexes = s.reversePeerIndexes := by
    split at hs₁
    · obtain ⟨-, rfl⟩ := delHostQuery_eq_ok.1 hs₁
      exact ⟨rfl, rfl, rfl, rfl⟩
    · cases hs₁
      exact ⟨rfl, rfl, rfl, rfl⟩
    · cases hs₁
      exact ⟨rfl, rfl, rfl, rfl⟩
  refine ⟨hkeeps.2.1, hkeeps.2.2.1, hkeeps.2.2.2, fun q => ?_⟩
  by_cases hq : q = p
  · rw [hq, Tables.setHostname, setPeer_self, hkeeps.1]
  · rw [Tables.setHostname, setPeer_of_ne _ hq, hkeeps.1]

/-- The one interface gets the next index, and has it for itself. -/
theorem Single.allocIndex {iface : ℕ} (hinv : Inv k (s.allocIndex k (.iface iface) true))
    (hattached : s.Attached k iface) (halone : ∀ id, s.Attached k id → id = iface) :
    Single k (s.allocIndex k (.iface iface) true) where
  inv := hinv
  alone := by
    intro id hid id' hid'
    rw [halone id' hid', halone id (hinv.owned.attached id hid)]
  own := by
    intro id hid
    obtain rfl : id = iface := halone id (hinv.owned.attached id hid)
    have hindex : ((s.allocIndex k (.iface id) true).peer (.iface id)).index = s.nextNr := by
      show ((s.setIndex (.iface id) s.nextNr).peer (.iface id)).index = s.nextNr
      rw [setIndex, setPeer_self]
    rw [hindex]
    exact if_pos ⟨rfl, hattached⟩

theorem allocIndex_peer {isLocal : Bool} (h : q ≠ p) :
    (s.allocIndex k p isLocal).peer q = s.peer q := by
  show (s.setIndex p s.nextNr).peer q = s.peer q
  exact setPeer_of_ne _ h

/-- A peer of no interface gets an index that no interface has. -/
theorem Single.addNew {addr : BoardAddr} {hostname : Option Hostname} (hs : Single k s)
    (hinv : Inv k ((s.peerNew addr hostname).allocIndex k (.remote s.nextPeer) false)) :
    Single k ((s.peerNew addr hostname).allocIndex k (.remote s.nextPeer) false) := by
  have hin : ∀ id, ((s.peerNew addr hostname).allocIndex k (.remote s.nextPeer) false).InTable
      (.iface id) → s.InTable (.iface id) := by
    intro id hid
    rw [peerNew_eq] at hid
    rcases inTable_setArray_some.1 hid with hq | ⟨j, -, hj⟩
    · cases hq
    · exact ⟨j, hj⟩
  refine hs.of hinv hin (fun id hid => ?_) (fun id _ => ?_) fun id hid => ?_
  · rw [peerNew_eq] at hid
    exact hid
  · have hne : PeerRef.iface id ≠ .remote s.nextPeer := nofun
    have hpeer : ((s.peerNew addr hostname).allocIndex k (.remote s.nextPeer) false).peer
        (.iface id) = s.peer (.iface id) := by
      refine (allocIndex_peer hne).trans ?_
      rw [peerNew_eq]
      show (s.setPeer (.remote s.nextPeer) ⟨addr, hostname, unknownReversePeerIndex, none⟩).peer
        (.iface id) = _
      exact setPeer_of_ne _ hne
    exact congrArg Peer.index hpeer
  · have hlt := hs.inv.bounded.below _ _ (hs.inv.placed.array_index (hin id hid))
    rw [peerNew_eq]
    exact if_neg fun h => hlt.ne h.1

theorem Single.peerAdd {addr : BoardAddr} {hostname : Option Hostname} {kstrdup kmalloc : Bool}
    (hs : Single k s) (hok : Alone k s (.add addr hostname kstrdup kmalloc))
    (h : s.peerAdd k addr hostname kstrdup kmalloc = .ok s') : Single k s' := by
  have hinv := hs.inv.peerAdd h
  rcases peerAdd_cases h with rfl | ⟨hlookup, hfull, iface, s₁, hfound, hs₁, rfl⟩ |
    ⟨hlookup, hfull, -, rfl⟩ | ⟨iface, -, h⟩ | ⟨q, -, -, h⟩
  · exact hs
  · obtain ⟨-, hifaces, -⟩ := peerAddLocal_keeps hs₁
    have hsame : ∀ id, s₁.Attached k id ↔ s.Attached k id := fun id => by
      rw [Attached, Attached, hifaces]
    exact Single.allocIndex hinv ((hsame iface).2 (ifaceFindByAddr_some hfound).1)
      fun id hid => hok hlookup iface hfound id ((hsame id).1 hid)
  · exact hs.addNew hinv
  · obtain ⟨harray, hifaces, -, hreverse, hindex⟩ := peerAddLocal_keeps h
    refine hs.of hinv (fun id hid => ?_) (fun id hid => ?_) (fun id _ => hindex _) fun id _ => ?_
    · rwa [InTable, harray] at hid
    · rwa [Attached, hifaces] at hid
    · rw [hreverse]
  · obtain ⟨harray, hifaces, hreverse, hindex⟩ := peerRename_keeps h
    refine hs.of hinv (fun id hid => ?_) (fun id hid => ?_) (fun id _ => hindex _) fun id _ => ?_
    · rwa [InTable, harray] at hid
    · rwa [Attached, hifaces] at hid
    · rw [hreverse]

/-! ## Attaching and detaching -/

theorem takeHostname_keeps {old : PeerRef} (h : s.takeHostname old p = .ok s') :
    s'.reversePeerIndexes = s.reversePeerIndexes ∧ s'.peerArray = s.peerArray ∧
      s'.ifaces = s.ifaces ∧ ∀ q, (s'.peer q).index = (s.peer q).index := by
  unfold Tables.takeHostname at h
  split at h
  · cases h
    refine ⟨rfl, rfl, rfl, fun q => ?_⟩
    have hset : ∀ (t : Tables) (r : PeerRef) (name : Option Hostname),
        ((t.setHostname r name).peer q).index = (t.peer q).index := by
      intro t r name
      by_cases hq : q = r
      · rw [hq, Tables.setHostname, setPeer_self]
      · rw [Tables.setHostname, setPeer_of_ne _ hq]
    exact (hset _ _ _).trans (hset _ _ _)
  · obtain ⟨-, rfl⟩ := delHostQuery_eq_ok.1 h
    exact ⟨rfl, rfl, rfl, fun _ => rfl⟩

theorem initIface_own (k : Params) (s : Tables) (iface : ℕ) :
    (s.initIfaceReverseIndexes k iface).reversePeerIndexes iface (s.peer (.iface iface)).index =
      (s.peer (.iface iface)).index := by
  unfold initIfaceReverseIndexes
  dsimp only
  rw [Function.update_self]
  exact Function.update_self ..

/-- The first interface has for itself the index that it takes over. -/
theorem replacePeer_own {old : PeerRef} {iface : ℕ} (h : s.replacePeer k old iface = .ok s') :
    s'.ifaces = s.ifaces ∧ (s'.peer (.iface iface)).index = (s.peer old).index ∧
      s'.reversePeerIndexes iface (s.peer old).index = (s.peer old).index := by
  obtain ⟨-, h⟩ := check_eq_ok.1 h
  obtain ⟨s₂, hs₂, h⟩ := bind_eq_ok.1 h
  cases h
  obtain ⟨hreverse, -, hifaces, hindex⟩ := takeHostname_keeps hs₂
  have hkeeps : ∀ t : Tables, (t.initIfaceReverseIndexes k iface).peer = t.peer := fun _ => rfl
  have hself : ((s.setIndex (.iface iface) (s.peer old).index).peer (.iface iface)).index =
      (s.peer old).index := by
    rw [setIndex, setPeer_self]
  refine ⟨hifaces, ?_, ?_⟩
  · show (s₂.peer (.iface iface)).index = _
    rw [hindex, setLocalIface, setPeer_self, hkeeps]
    exact hself
  · show s₂.reversePeerIndexes iface _ = _
    have hown := initIface_own k (s.setIndex (.iface iface) (s.peer old).index) iface
    rw [hself] at hown
    rw [hreverse]
    exact hown

/-- An interface that is attached when there is none has its own index for itself. -/
theorem Single.attached {iface : ℕ} (hinv : Inv k s') (hslot : ∀ id, ¬ s.Attached k id)
    (hifaces : s'.ifaces = Function.update s.ifaces i (some iface))
    (hown : s'.reversePeerIndexes iface (s'.peer (.iface iface)).index =
      (s'.peer (.iface iface)).index) : Single k s' := by
  have honly : ∀ id, s'.Attached k id → id = iface := by
    rintro id ⟨j, hj, hj'⟩
    rw [hifaces] at hj'
    by_cases hji : j = i
    · rw [hji, Function.update_self] at hj'
      exact (Option.some_inj.1 hj').symm
    · rw [Function.update_of_ne hji] at hj'
      exact absurd ⟨j, hj, hj'⟩ (hslot id)
  constructor
  · exact hinv
  · intro id hid id' hid'
    rw [honly id' hid', honly id (hinv.owned.attached id hid)]
  · intro id hid
    rw [honly id (hinv.owned.attached id hid)]
    exact hown

theorem Single.ifaceAttach {ifp : ℕ} {addr : BoardAddr} {hostname : Hostname} {kmalloc : Bool}
    (hs : Single k s) (hok : Alone k s (.attach ifp addr hostname kmalloc))
    (h : s.ifaceAttach k ifp addr hostname kmalloc = .ok s') : Single k s' := by
  have hinv := hs.inv.ifaceAttach h
  have hnew : ¬ s.InTable (.iface s.nextIface) := fun hin =>
    Nat.lt_irrefl _ (hs.inv.owned.freshIface _ (hs.inv.owned.attached _ hin))
  have hself : ((s.newIface ifp addr hostname).peer (.iface s.nextIface)).boardAddr = addr :=
    congrArg Peer.boardAddr (setPeer_self _)
  rcases ifaceAttach_cases h with rfl | ⟨i, hi, hfree, hnr, hifp, halloc, rfl |
    ⟨old, s₁, hlookup, hs₁, rfl⟩ | ⟨hlookup, hfull, rfl⟩⟩
  · exact hs
  · refine hs.of hinv (fun _ hid => hid) (fun _ hid => hid) (fun id hid => ?_) fun _ _ => rfl
    have hne : PeerRef.iface id ≠ .iface s.nextIface := fun heq => hnew (heq ▸ hid)
    exact congrArg Peer.index (setPeer_of_ne _ hne)
  · have hattaches : s.Attaches k ifp addr kmalloc := by
      refine ⟨hnr, hifp, halloc, fun hnone => ?_⟩
      obtain ⟨hold, haddr⟩ := hs.inv.newIface.placed.inTable_of_lookup hlookup
      have hne : old ≠ .iface s.nextIface := fun heq => hnew (heq ▸ hold)
      have hpeer : (s.newIface ifp addr hostname).peer old = s.peer old := setPeer_of_ne _ hne
      rw [hpeer, hself] at haddr
      exact absurd haddr (hs.inv.placed.addr_ne_of_lookup hnone hold)
    obtain ⟨hifaces, hindex, hown⟩ := replacePeer_own hs₁
    refine Single.attached hinv (hok hattaches) (congrArg (fun f => Function.update f i _) hifaces) ?_
    show s₁.reversePeerIndexes _ (s₁.peer _).index = (s₁.peer _).index
    rw [hindex]
    exact hown
  · have hattaches : s.Attaches k ifp addr kmalloc := ⟨hnr, hifp, halloc, fun _ => hfull⟩
    refine Single.attached hinv (hok hattaches) rfl ?_
    exact initIface_own k (((s.newIface ifp addr hostname).setLocalIface (.iface s.nextIface)
      (some s.nextIface)).setIndex (.iface s.nextIface) s.nextNr) s.nextIface

/-- The interface leaves the array of interfaces, and its peer the table. -/
theorem Single.ifaceDetach (hs : Single k s) (h : s.ifaceDetach i = .ok s') : Single k s' := by
  have hinv := hs.inv.ifaceDetach h
  unfold Tables.ifaceDetach at h
  split at h
  · cases h
    exact hs
  · rename_i iface hslot
    obtain ⟨s₁, hs₁, h⟩ := bind_eq_ok.1 h
    cases h
    obtain ⟨-, -, hifaces⟩ := hs.inv.peersNotifyIfaceDetach hs₁
    have hkept : s₁.reversePeerIndexes = s.reversePeerIndexes ∧ ∀ id, s₁.InTable (.iface id) →
        s.InTable (.iface id) ∧ s₁.peer (.iface id) = s.peer (.iface id) := by
      simp only [peersNotifyIfaceDetach] at hs₁
      split at hs₁
      · cases hs₁
        exact ⟨rfl, fun id hid => ⟨hid, rfl⟩⟩
      · obtain ⟨s₂, hs₂, hs₁⟩ := bind_eq_ok.1 hs₁
        cases hs₁
        have hi := hs.inv.placed.array_index (hs.inv.placed.mem_bucket.1 (unhashPeer_eq_ok.1 hs₂).1)
        have hin := (hs.inv.placed.remove hi hs₂).2
        obtain ⟨-, rfl⟩ := unhashPeer_eq_ok.1 hs₂
        refine ⟨rfl, fun id hid => ?_⟩
        obtain ⟨hid, hne⟩ := (hin _).1 hid
        exact ⟨hid, (setPeer_of_ne _ hne).trans (setPeer_of_ne _ hne)⟩
    refine hs.of hinv (fun id hid => (hkept.2 id hid).1) ?_
      (fun id hid => congrArg Peer.index (hkept.2 id hid).2) fun id _ => ?_
    · rintro id ⟨j, hj, hj'⟩
      refine ⟨j, hj, ?_⟩
      change Function.update s₁.ifaces i none j = some id at hj'
      by_cases hji : j = i
      · rw [hji, Function.update_self] at hj'
        cases hj'
      · rwa [Function.update_of_ne hji, hifaces] at hj'
    · exact congrFun (congrFun hkept.1 id) _

/-! ## Clearing -/

/-- What a round leaves is as it was. -/
structure Kept (s s' : Tables) : Prop where
  peer : ∀ q, s'.InTable q → s.InTable q ∧ s'.peer q = s.peer q
  ifaces : s'.ifaces = s.ifaces
  reverse : s'.reversePeerIndexes = s.reversePeerIndexes

theorem Kept.refl (s : Tables) : Kept s s := ⟨fun _ hq => ⟨hq, rfl⟩, rfl, rfl⟩

theorem Kept.trans {t : Tables} (h : Kept s s') (h' : Kept s' t) : Kept s t where
  peer := fun q hq => by
    obtain ⟨hq', hpeer'⟩ := h'.peer q hq
    obtain ⟨hq'', hpeer⟩ := h.peer q hq'
    exact ⟨hq'', hpeer'.trans hpeer⟩
  ifaces := h'.ifaces.trans h.ifaces
  reverse := h'.reverse.trans h.reverse

theorem clearPeer_kept {isLocal : Bool} (hs : Inv k s)
    (h : clearPeer isLocal i s = .ok s') : Kept s s' := by
  unfold Tables.clearPeer at h
  split at h
  · cases h
    exact .refl s
  rename_i p hi
  split at h
  · cases h
    exact .refl s
  obtain ⟨s₁, hs₁, h⟩ := bind_eq_ok.1 h
  have hin := (hs.placed.remove hi hs₁).2
  obtain ⟨-, rfl⟩ := unhashPeer_eq_ok.1 hs₁
  dsimp only at h
  split at h
  · obtain ⟨-, h⟩ := check_eq_ok.1 h
    cases h
    refine ⟨fun q hq => ?_, rfl, rfl⟩
    obtain ⟨hq, hne⟩ := (hin q).1 hq
    exact ⟨hq, (setPeer_of_ne _ hne).trans (setPeer_of_ne _ hne)⟩
  · split at h
    · obtain ⟨-, rfl⟩ := delHostQuery_eq_ok.1 h
      exact ⟨fun q hq => ⟨((hin q).1 hq).1, rfl⟩, rfl, rfl⟩
    · cases h
      exact ⟨fun q hq => ⟨((hin q).1 hq).1, rfl⟩, rfl, rfl⟩

theorem clearPeers_kept {isLocal : Bool} (hs : Inv k s)
    (h : loop (clearPeer isLocal) k.peerMax 0 s = .ok s') : Kept s s' := by
  have hend := loop_induction (I := fun i t => (Inv k t ∧ ∀ j < i, ∀ p, t.peerArray j = some p →
      isLocal = false ∧ (t.peer p).localIface ≠ none) ∧ Kept s t)
    (fun i t t' ht h => ⟨ht.1.1.clearPeer ht.1.2 h, ht.2.trans (clearPeer_kept ht.1.1 h)⟩)
    ⟨⟨hs, fun _ hj => absurd hj (Nat.not_lt_zero _)⟩, .refl s⟩ h
  exact hend.2

/-- The peer of the one interface is the first that is left, and stays where it is. -/
theorem Single.peersClear {isLocal : Bool} (hs : Single k s) (hok : Alone k s (.clear isLocal))
    (h : s.peersClear k isLocal = .ok s') : Single k s' := by
  have hinv := hs.inv.peersClear h
  obtain ⟨s₁, hs₁, h⟩ := bind_eq_ok.1 h
  obtain ⟨hinv₁, hleft⟩ := hs.inv.clearPeers hs₁
  have hkept := clearPeers_kept hs.inv hs₁
  cases h
  cases isLocal with
  | true =>
      refine hs.of hinv (fun id hid => ?_) (fun id hid => ?_) (fun id hid => ?_) fun id hid => ?_
      · exact (hkept.peer _ hid).1
      · exact hid.congr hkept.ifaces
      · exact congrArg Peer.index (hkept.peer _ hid).2
      · exact congrFun (congrFun hkept.reverse id) _
  | false =>
      have hm : Moving s₁ k.peerMax (steps moveBack k.peerMax 0 { s₁ with nextNr := 0 }) :=
        hinv₁.placed.moving
      have hin : ∀ id, (steps moveBack k.peerMax 0 { s₁ with nextNr := 0 }).InTable (.iface id) →
          s.InTable (.iface id) := fun id hid => (hkept.peer _ ((hm.inTable _).1 hid)).1
      refine hs.of hinv hin (fun id hid => ?_) (fun id hid => ?_) fun id hid => ?_
      · exact hid.congr (hm.ifaces.trans hkept.ifaces)
      · -- The row starts with the peer of an interface, and there is one only.
        rw [hok _ (hin id hid) fun hnone => nomatch (hs.inv.owned.iface id (hin id hid)).symm.trans
          hnone]
        refine Nat.eq_zero_of_not_pos fun hpos => ?_
        have hself := hinv.placed.array_index hid
        obtain ⟨q, hq⟩ := Option.ne_none_iff_exists'.1
          (hm.row 0 (hpos.trans (hinv.bounded.below _ _ hself)))
        obtain ⟨j, hj⟩ := (hm.inTable q).1 ⟨0, hq⟩
        have hlocal := (hleft j q hj).2
        cases q with
        | remote n => exact hlocal (hinv₁.owned.remote n)
        | iface id' =>
            have hid' : s.Attached k id' := (hinv₁.owned.attached id' ⟨j, hj⟩).congr hkept.ifaces
            rw [hs.alone id (hin id hid) id' hid'] at hq
            exact hpos.ne (hinv.placed.index_inj hq hself)
      · exact congrFun (congrFun (hm.reverse.trans hkept.reverse) id) _

/-! ## Every run -/

theorem Single.tableStep {a : TableAction} (hs : Single k s) (hok : Alone k s a)
    (h : s.tableStep k a = .ok s') : Single k s' := by
  cases a with
  | add => exact hs.peerAdd hok h
  | clear => exact hs.peersClear hok h
  | attach => exact hs.ifaceAttach hok h
  | detach => exact hs.ifaceDetach h

/-- When the interface whose peer is put in the table is the only one, and no clearing moves its
peer, each attached interface has its own index for each local peer of the table. -/
theorem machine_reversed (k : Params) (as : List TableAction)
    (hmeets : (tableMachine k).Meets (Alone k) Tables.init as) (pre : List TableAction)
    (hpre : pre <+: as) (s : Tables) (h : (tableMachine k).exec Tables.init pre = some s) :
    s.Reversed k := by
  have hs : Single k s := Machine.Meets.invariant
    (fun _ _ _ ht hok hstep => ht.tableStep hok (toOption_eq_some.1 hstep)) Single.init
    (hmeets.of_prefix _ hpre) h
  exact hs.reversed

/-- An interface has the first index, and keeps it when the others are cleared. -/
theorem machine_reversed_first : ∃ s : Tables,
    (tableMachine ⟨4, 2, by decide⟩).exec Tables.init
      [.attach 0 1 [] true, .clear false] = some s ∧
      (s.ifaces 0, s.peerArray 0) = (some 0, some (.iface 0)) ∧
        s.Reversed ⟨4, 2, by decide⟩ := by
  have hfirst : ((tableMachine ⟨4, 2, by decide⟩).step Tables.init
      (.attach 0 1 [] true)).map Tables.nextNr = some 1 := by
    decide +kernel
  have hrun : ((tableMachine ⟨4, 2, by decide⟩).exec Tables.init
      [.attach 0 1 [] true, .clear false]).map (fun s => (s.ifaces 0, s.peerArray 0)) =
      some (some 0, some (.iface 0)) := by
    decide +kernel
  obtain ⟨s, hs, hvalues⟩ := Option.map_eq_some_iff.1 hrun
  refine ⟨s, hs, hvalues, machine_reversed ⟨4, 2, by decide⟩ [.attach 0 1 [] true, .clear false]
    ⟨?_, fun s₁ hs₁ => ⟨?_, ?_⟩⟩ _ List.prefix_rfl s hs⟩
  · exact fun _ _ ⟨_, _, hid⟩ => nomatch hid
  · intro p ⟨i, hi⟩ _
    have hstep : tableStep ⟨4, 2, by decide⟩ Tables.init (.attach 0 1 [] true) = .ok s₁ :=
      toOption_eq_some.1 hs₁
    have hinv := Inv.init.tableStep hstep
    rw [Option.mem_def.1 hs₁] at hfirst
    have hlt := hinv.bounded.below i p hi
    rw [Option.some_inj.1 hfirst] at hlt
    rw [hinv.placed.index i p hi]
    exact Nat.lt_one_iff.1 hlt
  · exact fun _ _ => trivial

/-- Of two interfaces, the first has the index of the second for the peer of the second. -/
theorem machine_not_reversed : ¬ ∀ (k : Params) (as : List TableAction) (s : Tables),
    (tableMachine k).exec Tables.init as = some s → s.Reversed k := by
  intro h
  have hrun : ((tableMachine ⟨4, 2, by decide⟩).exec Tables.init
      [.attach 0 1 [] true, .attach 1 2 [] true]).map (fun s => (s.ifaces 0, s.peerArray 0,
        s.peerArray 1, s.reversePeerIndexes 0 1, s.peer (.iface 1))) =
      some (some 0, some (.iface 0), some (.iface 1), 1, ⟨2, some [], 1, some 1⟩) := by
    decide +kernel
  obtain ⟨s, hs, hvalues⟩ := Option.map_eq_some_iff.1 hrun
  simp only [Prod.mk.injEq] at hvalues
  obtain ⟨hslot, -, hsecond, hentry, hpeer⟩ := hvalues
  have hreversed := h _ _ s hs 0 ⟨0, by decide, hslot⟩ (.iface 1) ⟨1, hsecond⟩ (by rw [hpeer]; decide)
  rw [hpeer, hentry, hsecond] at hreversed
  cases hreversed

end Xen2mx.Peers
