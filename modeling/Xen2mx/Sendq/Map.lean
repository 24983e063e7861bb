/-
# `Xen2mx.Sendq.Map` — which entries of the send queue are free

The send queue of an endpoint is shared with the driver: a medium message is copied there, one
entry for each fragment.  Next to it the library keeps an array of who uses the entries, and
the free ones are threaded through it.

    get  nr     the first nr entries, in the order in which they are free
    put         one in front of the other, so that the last of the message is the first free
    user        of an entry

A put of no entry is the exception: the last of no entries is what stands in memory before
the array of indexes of the request, and that becomes the first free entry.

**Proved here.**

    a get takes the first entries of the free list, if it has so many    (`SendqMap.Free.get`)
    a put of other entries brings them back                              (`SendqMap.Free.put`)
    a put of none leaves the free list  ⟺  the first free entry stands before the array
                                                                         (`SendqMap.Free.put_nil_iff`)
-/
import Xen2mx.Lib.FreeList

namespace Xen2mx.Sendq

/-- `struct omx__sendq_entry`: the request, and the index of the next free entry, if there is
one (`-1` if not). -/
structure SendqEntry where
  user : Option ℕ
  nextFree : Option ℕ
  deriving DecidableEq, Repr

/-- `sendq_map` of the endpoint. -/
structure SendqMap where
  array : ℕ → SendqEntry
  firstFree : Option ℕ
  nrFree : ℕ

namespace SendqMap

/-- `omx__endpoint_sendq_map_init`; `entryNr` is `OMX_SENDQ_ENTRY_NR`. -/
def init (entryNr : ℕ) : SendqMap where
  array := fun i => ⟨none, if i + 1 < entryNr then some (i + 1) else none⟩
  firstFree := some 0
  nrFree := entryNr

/-- The loop of `omx__endpoint_sendq_map_get`: the array, the index and the entries that it
found.  `none` where it goes out of the array. -/
def getLoop (entryNr user : ℕ) :
    ℕ → (ℕ → SendqEntry) → Option ℕ → Option ((ℕ → SendqEntry) × Option ℕ × List ℕ)
  | 0, array, index => some (array, index, [])
  | _ + 1, _, none => none
  | nr + 1, array, some index =>
      if index < entryNr then
        (getLoop entryNr user nr
          (Function.update array index { array index with user := some user })
          (array index).nextFree).map
          fun (array', index', founds) => (array', index', index :: founds)
      else none

/-- `omx__endpoint_sendq_map_get`: what it found, if there was enough. -/
def get (entryNr : ℕ) (map : SendqMap) (nr user : ℕ) : Option (Option (SendqMap × List ℕ)) :=
  if map.nrFree < nr then some none
  else
    (getLoop entryNr user nr map.array map.firstFree).map fun (array, index, founds) =>
      some ({ array, firstFree := index, nrFree := map.nrFree - nr }, founds)

theorem getLoop_length {entryNr user nr : ℕ} {array array' : ℕ → SendqEntry}
    {index index' : Option ℕ} {founds : List ℕ}
    (h : getLoop entryNr user nr array index = some (array', index', founds)) :
    founds.length = nr := by
  induction nr generalizing array index founds with
  | zero => cases h; rfl
  | succ nr ih =>
      cases index with
      | none => exact nomatch h
      | some index =>
          rw [getLoop] at h
          obtain ⟨-, h⟩ := Option.ite_none_right_eq_some.1 h
          obtain ⟨⟨_, _, founds'⟩, hloop, heq⟩ := Option.map_eq_some_iff.1 h
          cases heq
          rw [List.length_cons, ih hloop]

theorem get_length {entryNr nr user : ℕ} {map map' : SendqMap} {founds : List ℕ}
    (h : map.get entryNr nr user = some (some (map', founds))) : founds.length = nr := by
  rw [get] at h
  split at h
  · exact nomatch h
  · obtain ⟨⟨_, _, founds'⟩, hloop, heq⟩ := Option.map_eq_some_iff.1 h
    cases heq
    exact getLoop_length hloop

/-- The loop of `omx__endpoint_sendq_map_put`; `prev` is the index of the round before, at
first `first_free`. -/
def putLoop : List ℕ → Option ℕ → (ℕ → SendqEntry) → (ℕ → SendqEntry)
  | [], _, array => array
  | index :: indexes, prev, array =>
      putLoop indexes (some index) (Function.update array index ⟨none, prev⟩)

/-- `omx__endpoint_sendq_map_put`.  The array of indexes has `indexes[-1]` before it, which is
read if `nr` is zero. -/
def put (map : SendqMap) (nr before : ℕ) (indexes : List ℕ) : SendqMap where
  array := putLoop (indexes.take nr) map.firstFree map.array
  firstFree := some ((indexes.take nr).getLastD before)
  nrFree := map.nrFree + nr

/-- `omx__endpoint_sendq_map_user`. -/
def user (map : SendqMap) (index : ℕ) : Option ℕ := (map.array index).user

/-! ## The free list -/

/-- The next free entry, as the array has it. -/
def next (map : SendqMap) (index : ℕ) : Option ℕ := (map.array index).nextFree

/-- The free list from `first_free` on: it has the entries of the array without a user, and
their number is `nr_free`. -/
structure Free (entryNr : ℕ) (map : SendqMap) (l : List ℕ) : Prop where
  threaded : Threaded map.next map.firstFree l
  mem_iff : ∀ i, i ∈ l ↔ i < entryNr ∧ map.user i = none
  nrFree : map.nrFree = l.length

variable {entryNr : ℕ} {map : SendqMap} {l : List ℕ}

theorem threaded_init {entryNr : ℕ} (h : 0 < entryNr) :
    Threaded (init entryNr).next (some 0) (List.range entryNr) := .range h

theorem Free.init {entryNr : ℕ} (h : 0 < entryNr) :
    Free entryNr (init entryNr) (List.range entryNr) where
  threaded := threaded_init h
  mem_iff := fun i => by
    rw [List.mem_range]
    exact (and_iff_left rfl).symm
  nrFree := List.length_range.symm

theorem Free.unique {l' : List ℕ} (h : Free entryNr map l) (h' : Free entryNr map l') : l = l' :=
  h.threaded.unique h'.threaded

/-- The array with a user for some entries. -/
def assign (array : ℕ → SendqEntry) (user : ℕ) (indexes : List ℕ) : ℕ → SendqEntry :=
  fun i => if i ∈ indexes then { array i with user := some user } else array i

theorem assign_user (array : ℕ → SendqEntry) (user : ℕ) (indexes : List ℕ) (i : ℕ) :
    (assign array user indexes i).user = if i ∈ indexes then some user else (array i).user :=
  apply_ite SendqEntry.user _ _ _

theorem assign_nextFree (array : ℕ → SendqEntry) (user : ℕ) (indexes : List ℕ) (i : ℕ) :
    (assign array user indexes i).nextFree = (array i).nextFree := by
  rw [assign]
  split <;> rfl

/-- What the loop of a get does: the first entries of the list get the user. -/
theorem getLoop_eq (user : ℕ) {array : ℕ → SendqEntry} {index : Option ℕ}
    (h : Threaded (fun i => (array i).nextFree) index l) (hl : ∀ i ∈ l, i < entryNr) {nr : ℕ}
    (hnr : nr ≤ l.length) :
    ∃ index',
      getLoop entryNr user nr array index =
        some (assign array user (l.take nr), index', l.take nr) ∧
      Threaded (fun i => (array i).nextFree) index' (l.drop nr) := by
  induction nr generalizing index l array with
  | zero =>
      refine ⟨index, ?_, h⟩
      rw [getLoop, List.take_zero]
      have hassign : assign array user [] = array := funext fun i => if_neg List.not_mem_nil
      rw [hassign]
  | succ nr ih =>
      cases h with
      | nil => exact absurd hnr (Nat.not_succ_le_zero nr)
      | @cons i l hl' =>
          have hi : i < entryNr := hl i (List.mem_cons_self ..)
          have hnot : i ∉ l := (List.nodup_cons.1 (Threaded.cons hl').nodup).1
          -- the users that the loop sets have no part in the list
          let array' := Function.update array i { array i with user := some user }
          have hnext : (fun j => (array' j).nextFree) = fun j => (array j).nextFree := by
            funext j
            rcases eq_or_ne j i with rfl | hne
            · have hj : array' j = { array j with user := some user } := Function.update_self ..
              rw [hj]
            · have hj : array' j = array j := Function.update_of_ne hne ..
              rw [hj]
          have hl'' : Threaded (fun j => (array' j).nextFree) (array i).nextFree l := hnext ▸ hl'
          obtain ⟨index', hloop, hrest⟩ := ih hl''
            (fun j hj => hl j (List.mem_cons_of_mem _ hj)) (Nat.le_of_succ_le_succ hnr)
          rw [hnext] at hrest
          refine ⟨index', ?_, hrest⟩
          rw [getLoop, if_pos hi, hloop]
          refine congrArg some (Prod.ext (funext fun j => ?_) rfl)
          change assign array' user (l.take nr) j = assign array user (i :: l.take nr) j
          rw [assign, assign]
          rcases eq_or_ne j i with rfl | hne
          · rw [if_neg fun hmem => hnot (List.mem_of_mem_take hmem), if_pos (List.mem_cons_self ..)]
            exact Function.update_self ..
          · have hj : array' j = array j := Function.update_of_ne hne ..
            rw [hj]
            simp only [List.mem_cons, hne, false_or]

/-- A get, if there are enough free entries. -/
theorem Free.get (h : Free entryNr map l) {nr : ℕ} (hnr : nr ≤ l.length) (user : ℕ) :
    ∃ map', map.get entryNr nr user = some (some (map', l.take nr)) ∧
      Free entryNr map' (l.drop nr) ∧
      ∀ i, map'.user i = if i ∈ l.take nr then some user else map.user i := by
  obtain ⟨index, hloop, hrest⟩ :=
    getLoop_eq user h.threaded (fun i hi => ((h.mem_iff i).1 hi).1) hnr
  have huser := assign_user map.array user (l.take nr)
  refine ⟨⟨assign map.array user (l.take nr), index, map.nrFree - nr⟩, ?_,
    ⟨?_, fun i => ?_, ?_⟩, huser⟩
  · rw [SendqMap.get, if_neg (by rw [h.nrFree]; omega), hloop]
    rfl
  · exact hrest.congr fun i _ => assign_nextFree map.array user (l.take nr) i
  · -- an entry is taken or left
    have hnodup := h.threaded.nodup
    have hsplit : i ∈ l ↔ i ∈ l.take nr ∨ i ∈ l.drop nr := by
      rw [← List.mem_append, List.take_append_drop]
    have hdisj : i ∈ l.take nr → i ∉ l.drop nr := by
      rw [← List.take_append_drop nr l] at hnodup
      exact fun ht hd => (List.nodup_append.1 hnodup).2.2 i ht i hd rfl
    have hi := huser i
    rw [SendqMap.user, hi]
    by_cases htake : i ∈ l.take nr
    · rw [if_pos htake]
      exact iff_of_false (hdisj htake) fun hfree => nomatch hfree.2
    · rw [if_neg htake]
      exact ((or_iff_right htake).symm.trans hsplit.symm).trans (h.mem_iff i)
  · change map.nrFree - nr = _
    rw [h.nrFree, List.length_drop]

/-- A get, if there are not. -/
theorem Free.get_eq_none (h : Free entryNr map l) {nr : ℕ} (hnr : l.length < nr) (user : ℕ) :
    map.get entryNr nr user = some none := by
  rw [SendqMap.get, if_pos (by rw [h.nrFree]; exact hnr)]

/-- The loop of a put, from an entry on. -/
theorem threaded_putLoop {array : ℕ → SendqEntry} {prev : Option ℕ} (indexes : List ℕ)
    (h : Threaded (fun i => (array i).nextFree) prev l) (hnodup : indexes.Nodup)
    (hdisj : ∀ i ∈ indexes, i ∉ l) :
    Threaded (fun i => (putLoop indexes prev array i).nextFree) (indexes.getLast?.or prev)
      (indexes.reverse ++ l) := by
  induction indexes generalizing prev l array with
  | nil => exact h
  | cons i indexes ih =>
      obtain ⟨hi, hnodup⟩ := List.nodup_cons.1 hnodup
      have hnext : (fun j => (Function.update array i ⟨none, prev⟩ j).nextFree) =
          Function.update (fun j => (array j).nextFree) i prev := by
        funext j
        exact Function.apply_update (fun _ => SendqEntry.nextFree) array i ⟨none, prev⟩ j
      have hpush := h.push (hdisj i (List.mem_cons_self ..))
      rw [← hnext] at hpush
      have hrest := ih hpush hnodup fun j hj hmem => by
        rcases List.mem_cons.1 hmem with rfl | hmem
        · exact hi hj
        · exact hdisj j (List.mem_cons_of_mem _ hj) hmem
      rw [List.reverse_cons, List.append_assoc, List.getLast?_cons]
      cases hlast : indexes.getLast? with
      | none =>
          rw [hlast] at hrest
          exact hrest
      | some last =>
          rw [hlast] at hrest
          exact hrest

theorem putLoop_user (array : ℕ → SendqEntry) (prev : Option ℕ) (indexes : List ℕ) (i : ℕ) :
    (putLoop indexes prev array i).user = if i ∈ indexes then none else (array i).user := by
  induction indexes generalizing prev array with
  | nil => rfl
  | cons j indexes ih =>
      rw [putLoop, ih]
      by_cases hmem : i ∈ indexes
      · rw [if_pos hmem, if_pos (List.mem_cons_of_mem _ hmem)]
      · rw [if_neg hmem]
        rcases eq_or_ne i j with rfl | hne
        · rw [Function.update_self, if_pos (List.mem_cons_self ..)]
        · rw [Function.update_of_ne hne, if_neg]
          rw [List.mem_cons]
          exact not_or.2 ⟨hne, hmem⟩

theorem put_user (nr before : ℕ) (indexes : List ℕ) (i : ℕ) :
    (map.put nr before indexes).user i = if i ∈ indexes.take nr then none else map.user i :=
  putLoop_user _ _ _ i

/-- A put of the entries of a message. -/
theorem Free.put (h : Free entryNr map l) {indexes : List ℕ} {nr : ℕ} (hnr : indexes.length = nr)
    (hpos : 0 < nr) (hnodup : indexes.Nodup)
    (hused : ∀ i ∈ indexes, i < entryNr ∧ map.user i ≠ none) (before : ℕ) :
    Free entryNr (map.put nr before indexes) (indexes.reverse ++ l) := by
  have htake : indexes.take nr = indexes := List.take_of_length_le (Nat.le_of_eq hnr)
  have hdisj : ∀ i ∈ indexes, i ∉ l := fun i hi hmem =>
    (hused i hi).2 ((h.mem_iff i).1 hmem).2
  refine ⟨?_, fun i => ?_, ?_⟩
  · have hloop := threaded_putLoop indexes h.threaded hnodup hdisj
    have hfirst : (map.put nr before indexes).firstFree = indexes.getLast?.or map.firstFree := by
      rw [SendqMap.put, htake, List.getLastD_eq_getLast?]
      cases hlast : indexes.getLast? with
      | none =>
          rw [List.getLast?_eq_none_iff.1 hlast] at hnr
          exact absurd hnr.symm (Nat.pos_iff_ne_zero.1 hpos)
      | some last => rfl
    rw [hfirst]
    refine hloop.congr fun i _ => ?_
    rw [next, SendqMap.put, htake]
  · rw [put_user, htake, List.mem_append, List.mem_reverse, h.mem_iff i]
    by_cases hi : i ∈ indexes
    · rw [if_pos hi]
      exact iff_of_true (.inl hi) ⟨(hused i hi).1, rfl⟩
    · rw [if_neg hi]
      exact or_iff_right hi
  · change map.nrFree + nr = _
    rw [h.nrFree, List.length_append, List.length_reverse, hnr, Nat.add_comm]

theorem put_zero {before : ℕ} (h : map.firstFree = some before) (indexes : List ℕ) :
    map.put 0 before indexes = map := by
  rw [put, List.take_zero]
  cases map
  cases h
  rfl

/-- A put of no entries. -/
theorem Free.put_nil_iff (h : Free entryNr map l) (before : ℕ) (indexes : List ℕ) :
    (∃ l', Free entryNr (map.put 0 before indexes) l') ↔ map.firstFree = some before := by
  constructor
  · rintro ⟨l', h'⟩
    have hmem : ∀ i, i ∈ l' ↔ i ∈ l := fun i => by
      rw [h'.mem_iff, h.mem_iff, put_user, List.take_zero, if_neg List.not_mem_nil]
    have hlen : l'.length = l.length := by
      rw [← h'.nrFree, ← h.nrFree]
      rfl
    have hthreaded : Threaded map.next (some before) l' := h'.threaded
    -- the list that begins before the array is the end of the free list, and as long
    obtain ⟨after, rfl⟩ : ∃ after, l' = before :: after := by
      cases hthreaded
      exact ⟨_, rfl⟩
    obtain ⟨front, after', rfl, hafter⟩ :=
      h.threaded.of_mem ((hmem before).1 (List.mem_cons_self ..))
    rw [hthreaded.unique hafter, List.length_append] at hlen
    have hfront : front = [] := List.length_eq_zero_iff.1 (by omega)
    subst hfront
    have hfirst := h.threaded
    rw [List.nil_append] at hfirst
    generalize map.firstFree = first at hfirst
    cases hfirst
    rfl
  · intro hfirst
    refine ⟨l, ?_, fun i => ?_, h.nrFree⟩
    · have hthreaded := h.threaded
      rw [hfirst] at hthreaded
      exact hthreaded
    · rw [put_user, List.take_zero, if_neg List.not_mem_nil]
      exact h.mem_iff i

end SendqMap

end Xen2mx.Sendq
