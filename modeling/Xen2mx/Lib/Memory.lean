/-
# `Xen2mx.Lib.Memory` — memories that are written address by address

A memory has a value at each address.  `writeAll` writes a list of values to a list of addresses,
one after the other; an address that is listed twice keeps what is written last.

**Proved here.**

    one list of writes after another                       (`writeAll_append`)
    an address that is not listed keeps its value          (`writeAll_of_notMem`)
    the last write to an address stands                    (`writeAll_last`)
    copies whose targets are different addresses, none of
      which is read, may be made in any order              (`runMoves_eq`)
-/
import Mathlib.Data.List.Nodup
import Mathlib.Logic.Function.Basic
import Mathlib.Tactic.Common

namespace Xen2mx

variable {α β : Type*} [DecidableEq α]

/-- The values are written to the addresses, in their order. -/
def writeAll (mem : α → β) : List α → List β → α → β
  | a :: as, v :: vs => writeAll (Function.update mem a v) as vs
  | _, _ => mem

variable {mem : α → β} {as bs : List α} {us vs : List β} {a : α} {v : β}

@[simp] theorem writeAll_nil (mem : α → β) (vs : List β) : writeAll mem [] vs = mem := by
  rw [writeAll]
  exact nofun

theorem writeAll_append (h : as.length = us.length) :
    writeAll mem (as ++ bs) (us ++ vs) = writeAll (writeAll mem as us) bs vs := by
  induction as generalizing us mem with
  | nil =>
      obtain rfl := List.eq_nil_of_length_eq_zero h.symm
      rw [List.nil_append, List.nil_append, writeAll_nil]
  | cons a as ih =>
      obtain ⟨u, us, rfl⟩ := List.exists_cons_of_length_eq_add_one h.symm
      exact ih (Nat.succ.inj h)

theorem writeAll_of_notMem (h : a ∉ as) : writeAll mem as vs a = mem a := by
  induction as generalizing vs mem with
  | nil => rw [writeAll_nil]
  | cons b as ih =>
      obtain ⟨hne, hnot⟩ := not_or.1 (mt List.mem_cons.2 h)
      cases vs with
      | nil => rfl
      | cons v vs => exact (ih hnot).trans (Function.update_of_ne hne ..)

/-- What is written last to an address stands there. -/
theorem writeAll_last {j : ℕ} (ha : as[j]? = some a) (hv : vs[j]? = some v)
    (hlast : ∀ k, j < k → as[k]? ≠ some a) : writeAll mem as vs a = v := by
  induction as generalizing vs mem j with
  | nil => exact nomatch ha
  | cons b as ih =>
      cases vs with
      | nil => exact nomatch hv
      | cons w vs =>
          cases j with
          | zero =>
              obtain rfl : b = a := Option.some.inj ha
              obtain rfl : w = v := Option.some.inj hv
              have hnot : b ∉ as := fun hmem => by
                obtain ⟨k, hk⟩ := List.mem_iff_getElem?.1 hmem
                exact hlast (k + 1) (Nat.succ_pos k) hk
              exact (writeAll_of_notMem hnot).trans (Function.update_self ..)
          | succ j => exact ih ha hv fun k hk => hlast (k + 1) (Nat.succ_lt_succ hk)

/-- Different addresses get what is written to them. -/
theorem writeAll_of_nodup {j : ℕ} (hnodup : as.Nodup) (ha : as[j]? = some a)
    (hv : vs[j]? = some v) : writeAll mem as vs a = v := by
  refine writeAll_last ha hv fun k hk heq => Nat.ne_of_lt hk ?_
  exact (List.getElem?_inj (List.getElem?_eq_some_iff.1 ha).1 hnodup).1 (ha.trans heq.symm)

/-! ## Copies -/

/-- A copy within a memory.  It reads all its addresses before it writes. -/
structure Move (α : Type*) where
  src : List α
  dst : List α

/-- What a copy does. -/
def Move.run (mem : α → β) (m : Move α) : α → β := writeAll mem m.dst (m.src.map mem)

/-- Copies, one after the other. -/
def runMoves (mem : α → β) (ms : List (Move α)) : α → β := ms.foldl Move.run mem

/-- Together the copies take a list of addresses to another one, piece by piece. -/
structure Copies (ms : List (Move α)) (src dst : List α) : Prop where
  src_eq : ms.flatMap Move.src = src
  dst_eq : ms.flatMap Move.dst = dst
  length_eq : ∀ m ∈ ms, m.src.length = m.dst.length

variable {ms order : List (Move α)} {src dst src' dst' : List α} {m : Move α} {b : α} {j : ℕ}

omit [DecidableEq α] in
theorem Copies.nil : Copies ([] : List (Move α)) [] [] := ⟨rfl, rfl, nofun⟩

omit [DecidableEq α] in
theorem Copies.cons (hlen : m.src.length = m.dst.length) (h : Copies ms src dst) :
    Copies (m :: ms) (m.src ++ src) (m.dst ++ dst) where
  src_eq := by rw [List.flatMap_cons, h.src_eq]
  dst_eq := by rw [List.flatMap_cons, h.dst_eq]
  length_eq := List.forall_mem_cons.2 ⟨hlen, h.length_eq⟩

omit [DecidableEq α] in
theorem Copies.append {ms' : List (Move α)} (h : Copies ms src dst) (h' : Copies ms' src' dst') :
    Copies (ms ++ ms') (src ++ src') (dst ++ dst') where
  src_eq := by rw [List.flatMap_append, h.src_eq, h'.src_eq]
  dst_eq := by rw [List.flatMap_append, h.dst_eq, h'.dst_eq]
  length_eq := fun m hm => (List.mem_append.1 hm).elim (h.length_eq m) (h'.length_eq m)

theorem runMoves_of_notMem (h : a ∉ ms.flatMap Move.dst) : runMoves mem ms a = mem a := by
  induction ms generalizing mem with
  | nil => rfl
  | cons m ms ih =>
      rw [List.flatMap_cons, List.mem_append, not_or] at h
      exact (ih h.2).trans (writeAll_of_notMem h.1)

/-- An address that is written gets what the source held at the beginning. -/
theorem runMoves_of_mem (hm : m ∈ ms) (ha : m.dst[j]? = some a) (hb : m.src[j]? = some b)
    (hnodup : (ms.flatMap Move.dst).Nodup)
    (hdisj : ∀ a ∈ ms.flatMap Move.dst, a ∉ ms.flatMap Move.src) :
    runMoves mem ms a = mem b := by
  induction ms generalizing mem with
  | nil => exact nomatch hm
  | cons m' ms ih =>
      rw [List.flatMap_cons] at hnodup hdisj
      obtain ⟨hfirst, hrest, hne⟩ := List.nodup_append.1 hnodup
      change runMoves (Move.run mem m') ms a = mem b
      rcases List.mem_cons.1 hm with rfl | hm
      · -- written here, and by no later copy
        have hv : (m.src.map mem)[j]? = some (mem b) := by rw [List.getElem?_map, hb]; rfl
        rw [runMoves_of_notMem fun hmem => hne a (List.mem_of_getElem? ha) a hmem rfl]
        exact writeAll_of_nodup hfirst ha hv
      · -- the source of a later copy is not written here
        have hsrc : b ∈ ms.flatMap Move.src :=
          List.mem_flatMap.2 ⟨m, hm, List.mem_of_getElem? hb⟩
        have hb' : b ∉ m'.dst := fun hmem =>
          hdisj b (List.mem_append_left _ hmem) (List.flatMap_cons ▸ List.mem_append_right _ hsrc)
        rw [ih hm hrest fun a hmem hmem' => hdisj a (List.mem_append_right _ hmem)
          (List.flatMap_cons ▸ List.mem_append_right _ hmem')]
        exact writeAll_of_notMem hb'

omit [DecidableEq α] in
/-- The copy that writes to an address of the list, and where it reads. -/
theorem Copies.exists_move (h : Copies ms src dst) (ha : a ∈ dst) :
    ∃ m ∈ ms, ∃ (j i : ℕ) (b : α), m.dst[j]? = some a ∧ m.src[j]? = some b ∧ dst[i]? = some a ∧
      src[i]? = some b := by
  induction ms generalizing src dst with
  | nil =>
      obtain rfl := h.dst_eq
      exact nomatch ha
  | cons m ms ih =>
      obtain rfl := h.src_eq
      obtain rfl := h.dst_eq
      have hlen := h.length_eq m (List.mem_cons_self ..)
      have hrest : Copies ms (ms.flatMap Move.src) (ms.flatMap Move.dst) :=
        ⟨rfl, rfl, fun m' hm' => h.length_eq m' (List.mem_cons_of_mem _ hm')⟩
      rw [List.flatMap_cons] at ha
      simp only [List.flatMap_cons]
      rcases List.mem_append.1 ha with hhere | hthere
      · obtain ⟨j, hj⟩ := List.mem_iff_getElem?.1 hhere
        have hlt := (List.getElem?_eq_some_iff.1 hj).1
        have hsrc : m.src[j]? = some m.src[j] := List.getElem?_eq_getElem (hlen ▸ hlt)
        refine ⟨m, List.mem_cons_self .., j, j, m.src[j], hj, hsrc, ?_, ?_⟩
        · rw [List.getElem?_append_left hlt, hj]
        · rw [List.getElem?_append_left (hlen ▸ hlt), hsrc]
      · obtain ⟨m', hm', j, i, b, hdst, hsrc, hi, hi'⟩ := ih hrest hthere
        refine ⟨m', List.mem_cons_of_mem _ hm', j, m.dst.length + i, b, hdst, hsrc, ?_, ?_⟩
        · rw [List.getElem?_append_right (Nat.le_add_right ..), Nat.add_sub_cancel_left, hi]
        · rw [← hlen, List.getElem?_append_right (Nat.le_add_right ..), Nat.add_sub_cancel_left, hi']

/-- If the targets are different addresses and none of them is a source, the copies may be made in
any order, and however they are cut. -/
theorem runMoves_eq (h : Copies ms src dst) (hnodup : dst.Nodup) (hdisj : ∀ a ∈ dst, a ∉ src)
    (hperm : order.Perm ms) : runMoves mem order = writeAll mem dst (src.map mem) := by
  have hdst : (order.flatMap Move.dst).Perm dst := h.dst_eq ▸ hperm.flatMap_right _
  have hsrc : (order.flatMap Move.src).Perm src := h.src_eq ▸ hperm.flatMap_right _
  funext a
  by_cases ha : a ∈ dst
  · obtain ⟨m, hm, j, i, b, hj, hj', hi, hi'⟩ := h.exists_move ha
    have hv : (src.map mem)[i]? = some (mem b) := by rw [List.getElem?_map, hi']; rfl
    rw [writeAll_of_nodup hnodup hi hv]
    refine runMoves_of_mem (hperm.mem_iff.2 hm) hj hj' (hdst.nodup_iff.2 hnodup) ?_
    exact fun a hmem hmem' => hdisj a (hdst.mem_iff.1 hmem) (hsrc.mem_iff.1 hmem')
  · rw [writeAll_of_notMem ha, runMoves_of_notMem fun hmem => ha (hdst.mem_iff.1 hmem)]

end Xen2mx
