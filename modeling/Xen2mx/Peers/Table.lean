/-
# `Xen2mx.Peers.Table` — the peer table of the driver

The driver gives each address it may talk to an index.  A peer is in an array by its index and in
a hash table by its address; a peer whose hostname is not known is also in a list of those to be
asked.  The peer of an attached interface is part of the interface: it takes the place of a peer
that was added for the same address before, and is taken out when the interface is detached.

An interface keeps for each peer the index that the peer has for it, which goes into the packets
to this peer, so that the receiver finds the sender without looking up its address.

    add         the hash table, the array; the name of one that is there
    attach      the peer of the interface, over the one that has the address
    detach      its array entry stays empty
    clear       those of interfaces stay, and move to the first indexes
    replies     the hostname, and the index that the peer has for us

The operations hold one mutex, and are steps here.  An element that is deleted from a list in
which it is not has no neighbours: its pointers are poisoned or zero, and the kernel faults.  What
an allocation gives and how a message comes in are chosen by the action.
-/
import Mathlib.Algebra.Group.Nat.Defs
import Xen2mx.Lib.Faults
import Xen2mx.Lib.Runs

namespace Xen2mx.Peers

/-! ## The table -/

/-- The parameters of the module, with what is checked when it is loaded: there are not more
than `OMX_PEER_INDEX_MAX` peers. -/
structure Params where
  peerMax : ℕ
  ifaceMax : ℕ
  le : peerMax ≤ 65536

/-- `OMX_UNKNOWN_REVERSE_PEER_INDEX`. -/
def unknownReversePeerIndex : ℕ := 2 ^ 32 - 1

abbrev BoardAddr := BitVec 64

/-- A string, without its null byte. -/
abbrev Hostname := List (BitVec 8)

/-- A peer is allocated, or it is the one of an interface. -/
inductive PeerRef where
  | remote (id : ℕ)
  | iface (id : ℕ)
  deriving DecidableEq, Repr

structure Peer where
  boardAddr : BoardAddr
  hostname : Option Hostname
  index : ℕ
  localIface : Option ℕ
  deriving DecidableEq, Repr

/-- `omx_pkt_host_reply`, its source and the interface that it came in at. -/
structure HostReply where
  iface : ℕ
  src : BoardAddr
  length : BitVec 8
  name : Hostname
  srcDstPeerIndex : BitVec 16
  deriving DecidableEq, Repr

/-- `omx_pkt_host_query`, likewise. -/
structure HostQuery where
  iface : ℕ
  src : BoardAddr
  srcDstPeerIndex : BitVec 16
  deriving DecidableEq, Repr

structure Tables where
  peer : PeerRef → Peer
  /-- `reverse_peer_indexes` of each interface; the entries from `omx_peer_max` on are past its end. -/
  reversePeerIndexes : ℕ → ℕ → ℕ
  /-- The device of each interface. -/
  ethIfp : ℕ → ℕ
  ifaces : ℕ → Option ℕ
  ifaceNr : ℕ
  peerArray : ℕ → Option PeerRef
  addrHash : BitVec 8 → List PeerRef
  nextNr : ℕ
  hostQueryPeers : List PeerRef
  hostQueryMagic : BitVec 32
  hostReplies : List HostReply
  hostQueries : List HostQuery
  /-- The first peer and the first interface that were not allocated yet. -/
  nextPeer : ℕ
  nextIface : ℕ

/-- Where the kernel stops. -/
inductive Fault where
  | bug
  | unlinked
  | deref
  deriving DecidableEq, Repr

/-- `omx_peers_init` and `omx_net_init`. -/
def Tables.init : Tables where
  peer := fun _ => ⟨0, none, unknownReversePeerIndex, none⟩
  reversePeerIndexes := fun _ _ => 0
  ethIfp := fun _ => 0
  ifaces := fun _ => none
  ifaceNr := 0
  peerArray := fun _ => none
  addrHash := fun _ => []
  nextNr := 0
  hostQueryPeers := []
  hostQueryMagic := 0x13052008
  hostReplies := []
  hostQueries := []
  nextPeer := 0
  nextIface := 0

/-- `omx_peer_addr_hash`. -/
def peerAddrHash (boardAddr : BoardAddr) : BitVec 8 :=
  let tmp24 : BitVec 32 := (boardAddr ^^^ (boardAddr >>> 24)).setWidth 32
  (tmp24 ^^^ (tmp24 >>> 8) ^^^ (tmp24 >>> 16)).setWidth 8

namespace Tables

variable (k : Params) (s : Tables)

/-! ## Lookups -/

/-- `omx_iface_find_by_addr`. -/
def ifaceFindByAddr (addr : BoardAddr) : Option ℕ :=
  (List.range k.ifaceMax).findSome? fun i =>
    (s.ifaces i).filter fun id => (s.peer (.iface id)).boardAddr = addr

/-- `omx_iface_find_by_ifp`. -/
def ifaceFindByIfp (ifp : ℕ) : Option ℕ :=
  (List.range k.ifaceMax).findSome? fun i => (s.ifaces i).filter fun id => s.ethIfp id = ifp

/-- `omx_peer_lookup_by_addr_locked`, and the same loop elsewhere. -/
def peerLookupByAddr (boardAddr : BoardAddr) : Option PeerRef :=
  (s.addrHash (peerAddrHash boardAddr)).find? fun p => (s.peer p).boardAddr = boardAddr

/-! ## The array, the hash table and the list -/

def setPeer (p : PeerRef) (peer : Peer) : Tables :=
  { s with peer := Function.update s.peer p peer }

def setHostname (p : PeerRef) (hostname : Option Hostname) : Tables :=
  s.setPeer p { s.peer p with hostname := hostname }

def setIndex (p : PeerRef) (index : ℕ) : Tables := s.setPeer p { s.peer p with index := index }

def setLocalIface (p : PeerRef) (iface : Option ℕ) : Tables :=
  s.setPeer p { s.peer p with localIface := iface }

def setArray (index : ℕ) (p : Option PeerRef) : Tables :=
  { s with peerArray := Function.update s.peerArray index p }

/-- `list_add_tail_rcu` of the hash element. -/
def hashPeer (p : PeerRef) : Tables :=
  let hash := peerAddrHash (s.peer p).boardAddr
  { s with addrHash := Function.update s.addrHash hash (s.addrHash hash ++ [p]) }

/-- `list_del_rcu` of the hash element. -/
def unhashPeer (p : PeerRef) : Except Fault Tables :=
  let hash := peerAddrHash (s.peer p).boardAddr
  check (p ∈ s.addrHash hash) .unlinked
    (.ok { s with addrHash := Function.update s.addrHash hash ((s.addrHash hash).erase p) })

/-- `list_replace_rcu` of the hash element. -/
def rehashPeer (old p : PeerRef) : Tables :=
  let hash := peerAddrHash (s.peer old).boardAddr
  { s with addrHash := Function.update s.addrHash hash ((s.addrHash hash).replace old p) }

/-- "peer needs host query". -/
def addHostQuery (p : PeerRef) : Tables := { s with hostQueryPeers := s.hostQueryPeers ++ [p] }

/-- "peer does not need host query anymore". -/
def delHostQuery (p : PeerRef) : Except Fault Tables :=
  check (p ∈ s.hostQueryPeers) .unlinked
    (.ok { s with hostQueryPeers := s.hostQueryPeers.erase p })

/-! ## Reverse indexes -/

/-- The interface is in the array of interfaces. -/
def Attached (id : ℕ) : Prop := ∃ i < k.ifaceMax, s.ifaces i = some id

instance (id : ℕ) : Decidable (s.Attached k id) :=
  inferInstanceAs (Decidable (∃ i < k.ifaceMax, s.ifaces i = some id))

/-- `omx_init_peer_reverse_indexes`. -/
def initPeerReverseIndexes (index : ℕ) (isLocal : Bool) : Tables :=
  { s with
    reversePeerIndexes := fun id j =>
      if j = index ∧ s.Attached k id then (if isLocal then index else unknownReversePeerIndex)
      else s.reversePeerIndexes id j }

/-- The index of an attached interface, in 16 bits. -/
def AttachedIndex (j : ℕ) : Prop :=
  ∃ i < k.ifaceMax, ∃ id ∈ s.ifaces i, (s.peer (.iface id)).index % 2 ^ 16 = j

instance (j : ℕ) : Decidable (s.AttachedIndex k j) :=
  inferInstanceAs (Decidable (∃ i < k.ifaceMax, ∃ id ∈ s.ifaces i, _ = j))

/-- `omx_init_iface_reverse_indexes`. -/
def initIfaceReverseIndexes (iface : ℕ) : Tables :=
  let index := (s.peer (.iface iface)).index
  let s := { s with
    reversePeerIndexes := Function.update s.reversePeerIndexes iface fun j =>
      if s.AttachedIndex k j then j else unknownReversePeerIndex }
  let s := s.initPeerReverseIndexes k index true
  { s with
    reversePeerIndexes := Function.update s.reversePeerIndexes iface
      (Function.update (s.reversePeerIndexes iface) index index) }

/-- `omx_peer_set_reverse_index`. -/
def peerSetReverseIndex (p : PeerRef) (iface reverseIndex : ℕ) : Tables :=
  { s with
    reversePeerIndexes := Function.update s.reversePeerIndexes iface
      (Function.update (s.reversePeerIndexes iface) (s.peer p).index reverseIndex) }

/-! ## Adding a peer -/

/-- "this is a new peer, allocate an index and hash it". -/
def allocIndex (p : PeerRef) (isLocal : Bool) : Tables :=
  let index := s.nextNr
  let s := ((s.setIndex p index).initPeerReverseIndexes k index isLocal).hashPeer p
  { s.setArray index (some p) with nextNr := index + 1 }

/-- "add local iface to peer table and update the iface name if possible". -/
def peerAddLocal (iface : ℕ) (hostname : Option Hostname) : Except Fault Tables :=
  let p := PeerRef.iface iface
  (if (s.peer p).index ≠ unknownReversePeerIndex then
    check ((s.peer p).localIface = some iface) .bug (.ok s)
  else check ((s.peer p).localIface = none) .bug (.ok (s.setLocalIface p (some iface)))).bind
    fun s =>
      match hostname with
      | none => .ok s
      | some name =>
          check ((s.peer p).hostname ≠ none) .bug (.ok (s.setHostname p (some name)))

/-- "just update the hostname of the existing peer". -/
def peerRename (p : PeerRef) (hostname : Option Hostname) : Except Fault Tables :=
  (match (s.peer p).hostname, hostname with
    | none, some _ => s.delHostQuery p
    | some _, none => .ok (s.addHostQuery p)
    | _, _ => .ok s).bind fun s => .ok (s.setHostname p hostname)

/-- "actually add a new peer". -/
def peerNew (boardAddr : BoardAddr) (hostname : Option Hostname) : Tables :=
  let p := PeerRef.remote s.nextPeer
  let s := { s.setPeer p ⟨boardAddr, hostname, unknownReversePeerIndex, none⟩ with
    nextPeer := s.nextPeer + 1 }
  if hostname = none then s.addHostQuery p else s

/-- `omx_peer_add`; `kstrdup` and `kmalloc` say if the allocations succeed. -/
def peerAdd (boardAddr : BoardAddr) (hostname : Option Hostname) (kstrdup kmalloc : Bool) :
    Except Fault Tables :=
  if hostname ≠ none ∧ kstrdup = false then .ok s
  else
    match s.peerLookupByAddr boardAddr, s.ifaceFindByAddr k boardAddr with
    | none, found =>
        if s.nextNr = k.peerMax then .ok s
        else
          match found with
          | some iface =>
              (s.peerAddLocal iface hostname).bind fun s =>
                .ok (s.allocIndex k (.iface iface) true)
          | none =>
              if kmalloc then
                .ok ((s.peerNew boardAddr hostname).allocIndex k (.remote s.nextPeer) false)
              else .ok s
    | some _, some iface => s.peerAddLocal iface hostname
    | some p, none => s.peerRename p hostname

/-! ## Interfaces -/

/-- "replace the iface hostname with the one from the peer table if it exists". -/
def takeHostname (old p : PeerRef) : Except Fault Tables :=
  match (s.peer old).hostname with
  | some name => .ok ((s.setHostname p (some name)).setHostname old none)
  | none => s.delHostQuery old

/-- "the peer is already in the table, replace it". -/
def replacePeer (old : PeerRef) (iface : ℕ) : Except Fault Tables :=
  let p := PeerRef.iface iface
  let index := (s.peer old).index
  check ((s.peer p).localIface = none) .bug
    ((((s.setIndex p index).initIfaceReverseIndexes k iface).setLocalIface p
      (some iface)).takeHostname old p |>.bind fun s =>
        .ok ((s.rehashPeer old p).setArray index (some p)))

/-- `omx_peers_notify_iface_attach`, and if it succeeds. -/
def peersNotifyIfaceAttach (iface : ℕ) : Except Fault (Bool × Tables) :=
  let p := PeerRef.iface iface
  match s.peerLookupByAddr (s.peer p).boardAddr with
  | some old => (s.replacePeer k old iface).bind fun s => .ok (true, s)
  | none =>
      if s.nextNr = k.peerMax then .ok (false, s)
      else
        let index := s.nextNr
        let s := ((s.setLocalIface p (some iface)).setIndex p index).initIfaceReverseIndexes k iface
        .ok (true, { (s.hashPeer p).setArray index (some p) with nextNr := index + 1 })

/-- `omx_peers_notify_iface_detach`. -/
def peersNotifyIfaceDetach (iface : ℕ) : Except Fault Tables :=
  let p := PeerRef.iface iface
  let index := (s.peer p).index
  if index = unknownReversePeerIndex then .ok s
  else
    (s.unhashPeer p).bind fun s =>
      .ok (((s.setArray index none).setIndex p unknownReversePeerIndex).setLocalIface p none)

/-- The interface that `omx_iface_attach` allocates. -/
def newIface (ifp : ℕ) (boardAddr : BoardAddr) (hostname : Hostname) : Tables :=
  { s.setPeer (.iface s.nextIface) ⟨boardAddr, some hostname, unknownReversePeerIndex, none⟩ with
    ethIfp := Function.update s.ethIfp s.nextIface ifp
    nextIface := s.nextIface + 1 }

/-- `omx_iface_attach` of a device with an address. -/
def ifaceAttach (ifp : ℕ) (boardAddr : BoardAddr) (hostname : Hostname) (kmalloc : Bool) :
    Except Fault Tables :=
  if s.ifaceNr = k.ifaceMax then .ok s
  else if s.ifaceFindByIfp k ifp ≠ none then .ok s
  else if kmalloc = false then .ok s
  else
    match (List.range k.ifaceMax).find? fun i => s.ifaces i = none with
    | none => .error .deref
    | some i =>
        let iface := s.nextIface
        ((s.newIface ifp boardAddr hostname).peersNotifyIfaceAttach k iface).bind
          fun (attached, s) =>
            .ok (if attached then
              { s with
                ifaces := Function.update s.ifaces i (some iface)
                ifaceNr := s.ifaceNr + 1 }
            else s)

/-- `omx_iface_detach`, of an interface that may be detached. -/
def ifaceDetach (i : ℕ) : Except Fault Tables :=
  match s.ifaces i with
  | none => .ok s
  | some iface =>
      (s.peersNotifyIfaceDetach iface).bind fun s =>
        .ok { s with ifaces := Function.update s.ifaces i none, ifaceNr := s.ifaceNr - 1 }

/-- `omx_iface_set_hostname`. -/
def ifaceSetHostname (i : ℕ) (hostname : Hostname) (kstrdup : Bool) : Tables :=
  match kstrdup, s.ifaces i with
  | true, some iface => s.setHostname (.iface iface) (some hostname)
  | _, _ => s

/-! ## Clearing -/

/-- The first loop of `omx_peers_clear`. -/
def clearPeer (isLocal : Bool) (i : ℕ) (s : Tables) : Except Fault Tables :=
  match s.peerArray i with
  | none => .ok s
  | some p =>
      if (s.peer p).localIface ≠ none ∧ isLocal = false then .ok s
      else
        (s.unhashPeer p).bind fun s =>
          let s := s.setArray i none
          if (s.peer p).localIface ≠ none then
            check ((s.peer p).hostname ≠ none) .bug
              (.ok ((s.setIndex p unknownReversePeerIndex).setLocalIface p none))
          else if (s.peer p).hostname = none then s.delHostQuery p
          else .ok s

/-- "move local ifaces back to the beginning". -/
def moveBack (i : ℕ) (s : Tables) : Tables :=
  match s.peerArray i with
  | none => s
  | some p =>
      let s :=
        if i ≠ s.nextNr then ((s.setIndex p s.nextNr).setArray s.nextNr (some p)).setArray i none
        else s
      { s with nextNr := s.nextNr + 1 }

/-- `omx_peers_clear`. -/
def peersClear (isLocal : Bool) : Except Fault Tables :=
  (loop (clearPeer isLocal) k.peerMax 0 s).bind fun s =>
    let s := { s with nextNr := 0 }
    .ok (if isLocal = false then steps moveBack k.peerMax 0 s else s)

/-- The loop of `omx_peers_clear_names`. -/
def clearName (i : ℕ) (s : Tables) : Tables :=
  match s.peerArray i with
  | none => s
  | some p =>
      if (s.peer p).hostname = none ∨ (s.peer p).localIface ≠ none then s
      else (s.setHostname p none).addHostQuery p

/-- `omx_peers_clear_names`. -/
def peersClearNames : Tables :=
  let s := steps clearName k.peerMax 0 s
  { s with hostQueryMagic := s.hostQueryMagic + 1 }

/-! ## Queries and replies -/

/-- `omx_recv_host_reply`. -/
def recvHostReply (magic : BitVec 32) (r : HostReply) : Tables :=
  if magic ≠ s.hostQueryMagic then s else { s with hostReplies := s.hostReplies ++ [r] }

/-- `omx_recv_host_query`, of a query for the interface. -/
def recvHostQuery (q : HostQuery) : Tables := { s with hostQueries := s.hostQueries ++ [q] }

/-- A round of the first loop of `omx_process_host_queries_and_replies_workfunc`. -/
def processHostReply (kmalloc : Bool) : Except Fault Tables :=
  match s.hostReplies with
  | [] => .ok s
  | r :: rest =>
      let s := { s with hostReplies := rest }
      match s.peerLookupByAddr r.src, kmalloc with
      | some p, true =>
          -- "new_hostname[new_hostnamelen-1] = '\0'", before the memory if the length is zero
          check (r.length ≠ 0) .deref
            ((if (s.peer p).hostname = none then s.delHostQuery p else .ok s).bind fun s =>
              .ok ((s.setHostname p (some (r.name.take (r.length.toNat - 1)))).peerSetReverseIndex
                p r.iface r.srcDstPeerIndex.toNat))
      | _, _ => .ok s

/-- A round of the second loop, up to the reply. -/
def processHostQuery : Except Fault Tables :=
  match s.hostQueries with
  | [] => .ok s
  | q :: rest =>
      let s := { s with hostQueries := rest }
      check ((s.peer (.iface q.iface)).hostname ≠ none) .deref
        (match s.peerLookupByAddr q.src with
        | none => .ok s
        | some p => .ok (s.peerSetReverseIndex p q.iface q.srcDstPeerIndex.toNat))

end Tables

/-! ## Runs -/

/-- The operations that change which peers are in the table, or their indexes. -/
inductive TableAction where
  | add (boardAddr : BoardAddr) (hostname : Option Hostname) (kstrdup kmalloc : Bool)
  | clear (isLocal : Bool)
  | attach (ifp : ℕ) (boardAddr : BoardAddr) (hostname : Hostname) (kmalloc : Bool)
  | detach (i : ℕ)
  deriving DecidableEq, Repr

inductive Action where
  | table (a : TableAction)
  | setHostname (i : ℕ) (hostname : Hostname) (kstrdup : Bool)
  | clearNames
  | recvHostReply (magic : BitVec 32) (r : HostReply)
  | recvHostQuery (q : HostQuery)
  | processHostReply (kmalloc : Bool)
  | processHostQuery
  deriving DecidableEq, Repr

namespace Tables

variable (k : Params) (s : Tables)

def tableStep : TableAction → Except Fault Tables
  | .add boardAddr hostname kstrdup kmalloc => s.peerAdd k boardAddr hostname kstrdup kmalloc
  | .clear isLocal => s.peersClear k isLocal
  | .attach ifp boardAddr hostname kmalloc => s.ifaceAttach k ifp boardAddr hostname kmalloc
  | .detach i => s.ifaceDetach i

def step : Action → Except Fault Tables
  | .table a => s.tableStep k a
  | .setHostname i hostname kstrdup => .ok (s.ifaceSetHostname i hostname kstrdup)
  | .clearNames => .ok (s.peersClearNames k)
  | .recvHostReply magic r => .ok (s.recvHostReply magic r)
  | .recvHostQuery q => .ok (s.recvHostQuery q)
  | .processHostReply kmalloc => s.processHostReply kmalloc
  | .processHostQuery => s.processHostQuery

/-- The peer is in the table. -/
def InTable (p : PeerRef) : Prop := ∃ i, s.peerArray i = some p

/-- Each peer in the table is at its index, in the one bucket of its address, alone with this
address, and in the list of those to be asked if it is not of an interface and has no name. -/
structure Coherent : Prop where
  index : ∀ i p, s.peerArray i = some p → (s.peer p).index = i
  below : ∀ i p, s.peerArray i = some p → i < s.nextNr
  hash : ∀ p, s.InTable p → ∀ hash, (s.addrHash hash).count p =
    if hash = peerAddrHash (s.peer p).boardAddr then 1 else 0
  addr : ∀ i j p q, s.peerArray i = some p → s.peerArray j = some q →
    (s.peer p).boardAddr = (s.peer q).boardAddr → i = j
  query : ∀ p, s.InTable p → (s.peer p).localIface = none →
    (p ∈ s.hostQueryPeers ↔ (s.peer p).hostname = none)

end Tables

def machine (k : Params) : Machine Tables Action where
  init := Tables.init
  step := fun s a => (s.step k a).toOption

/-- Runs of the operations on the table only. -/
def tableMachine (k : Params) : Machine Tables TableAction where
  init := Tables.init
  step := fun s a => (s.tableStep k a).toOption

end Xen2mx.Peers
