/-
# `Xen2mx.Lib.Buffers` — vectors of buffers

A vector of buffers is written and read at a cursor, a buffer and an offset in it.  What it holds
is the concatenation, in which a cursor has a position; a write within a buffer is one within the
concatenation, and so is a read.

    splice o bytes l      the bytes of l from o on are replaced
    start lens i          where the buffer i starts
    pos lens c            where the cursor is

**Proved here.**

    a write within a buffer is a splice of the concatenation    (`flatten_write`)
    a read within a buffer is a read of the concatenation       (`read_eq`)
    splices one after the other are one                         (`splice_splice`)
    a splice of what is there already changes nothing           (`splice_eq_self_iff`)
-/
import Mathlib.Algebra.GroupWithZero.Nat
import Mathlib.Data.List.Basic
import Mathlib.Order.Basic
import Mathlib.Order.Nat
import Mathlib.Tactic.Common

namespace Xen2mx

variable {β : Type*} {bytes l r : List β} {i o : ℕ}

/-! ## Replacing bytes -/

/-- The bytes of `l` from `o` on are replaced. -/
def splice (o : ℕ) (bytes l : List β) : List β := l.take o ++ bytes ++ l.drop (o + bytes.length)

@[simp] theorem splice_nil (o : ℕ) (l : List β) : splice o [] l = l := by
  rw [splice, List.append_nil, List.length_nil, Nat.add_zero, List.take_append_drop]

theorem length_splice (h : o + bytes.length ≤ l.length) : (splice o bytes l).length = l.length := by
  rw [splice, List.length_append, List.length_append, List.length_take, List.length_drop]
  omega

/-- All bytes are replaced. -/
theorem splice_zero_of_length_eq (h : bytes.length = l.length) : splice 0 bytes l = bytes := by
  rw [splice, List.take_zero, List.nil_append, Nat.zero_add, h, List.drop_length, List.append_nil]

theorem splice_append_left (h : o + bytes.length ≤ l.length) :
    splice o bytes (l ++ r) = splice o bytes l ++ r := by
  rw [splice, splice, List.take_append_of_le_length (by omega), List.drop_append_of_le_length h,
    List.append_assoc _ _ r]

theorem splice_append_right (o : ℕ) (bytes l r : List β) :
    splice (l.length + o) bytes (l ++ r) = l ++ splice o bytes r := by
  rw [splice, splice, List.take_append, List.drop_append, List.take_of_length_le (by omega),
    List.drop_of_length_le (by omega), Nat.add_sub_cancel_left, List.nil_append, List.append_assoc,
    List.append_assoc, List.append_assoc]
  rw [Nat.add_assoc, Nat.add_sub_cancel_left]

/-- Bytes that come after those that were written just before. -/
theorem splice_splice {bytes' : List β} (h : o + bytes.length + bytes'.length ≤ l.length) :
    splice (o + bytes.length) bytes' (splice o bytes l) = splice o (bytes ++ bytes') l := by
  have hlen : (l.take o ++ bytes).length = o + bytes.length := by
    rw [List.length_append, List.length_take, Nat.min_eq_left (by omega)]
  have hright := splice_append_right 0 bytes' (l.take o ++ bytes) (l.drop (o + bytes.length))
  rw [hlen, Nat.add_zero] at hright
  rw [splice.eq_def o bytes, hright, splice, splice, List.take_zero, List.nil_append,
    List.drop_drop, List.length_append, List.append_assoc, List.append_assoc, List.append_assoc,
    Nat.zero_add, Nat.add_assoc]

/-- Bytes that were there already. -/
theorem splice_eq_self_iff :
    splice o bytes l = l ↔ (l.drop o).take bytes.length = bytes := by
  have hparts : l = l.take o ++ (l.drop o).take bytes.length ++ l.drop (o + bytes.length) := by
    rw [List.append_assoc, ← List.drop_drop, List.take_append_drop, List.take_append_drop]
  constructor
  · intro heq
    have hsame : l.take o ++ bytes ++ l.drop (o + bytes.length) = _ := heq.trans hparts
    exact (List.append_cancel_left (List.append_cancel_right hsame)).symm
  · intro hthere
    rw [hthere] at hparts
    exact hparts.symm

/-- What comes after the replaced bytes. -/
theorem drop_splice (h : o ≤ l.length) :
    (splice o bytes l).drop (o + bytes.length) = l.drop (o + bytes.length) := by
  have hlen : (l.take o ++ bytes).length = o + bytes.length := by
    rw [List.length_append, List.length_take, Nat.min_eq_left h]
  rw [splice, ← hlen, List.drop_left]

/-- What is at a position of the replaced bytes. -/
theorem getElem?_splice {p : ℕ} (h : o ≤ l.length) : (splice o bytes l)[p]? =
    if p < o then l[p]? else if p < o + bytes.length then bytes[p - o]? else l[p]? := by
  have htake : (l.take o).length = o := by rw [List.length_take, Nat.min_eq_left h]
  rw [splice, List.append_assoc]
  split
  · rename_i hlt
    rw [List.getElem?_append_left (by omega), List.getElem?_take_of_lt hlt]
  · rename_i hge
    rw [List.getElem?_append_right (by omega), htake]
    split
    · rw [List.getElem?_append_left (by omega)]
    · rw [List.getElem?_append_right (by omega), List.getElem?_drop]
      congr 1
      omega

/-! ## Where the buffers are -/

/-- Where the buffer `i` starts. -/
def start (lens : List ℕ) (i : ℕ) : ℕ := (lens.take i).sum

variable {lens : List ℕ}

@[simp] theorem start_zero (lens : List ℕ) : start lens 0 = 0 := rfl

theorem start_succ (h : i < lens.length) : start lens (i + 1) = start lens i + lens[i] := by
  rw [start, List.take_succ_eq_append_getElem h, List.sum_append, List.sum_singleton]
  rfl

theorem start_mono {j : ℕ} (h : i ≤ j) : start lens i ≤ start lens j := by
  obtain ⟨k, rfl⟩ := Nat.exists_eq_add_of_le h
  rw [start, start, List.take_add, List.sum_append]
  exact Nat.le_add_right ..

theorem start_of_length_le (h : lens.length ≤ i) : start lens i = lens.sum := by
  rw [start, List.take_of_length_le h]

theorem start_le_sum (lens : List ℕ) (i : ℕ) : start lens i ≤ lens.sum := by
  rcases Nat.le_total lens.length i with h | h
  · exact (start_of_length_le h).le
  · exact (start_mono h).trans (start_of_length_le le_rfl).le

theorem start_cons (n : ℕ) (lens : List ℕ) (i : ℕ) :
    start (n :: lens) (i + 1) = n + start lens i := by
  rw [start, List.take_succ_cons, List.sum_cons]
  rfl

/-! ## Reads and writes at a cursor -/

/-- A buffer and an offset in it. -/
structure Cursor where
  seg : ℕ
  offset : ℕ
  deriving DecidableEq, Repr

/-- Where the cursor is in the concatenation. -/
def Cursor.pos (c : Cursor) (lens : List ℕ) : ℕ := start lens c.seg + c.offset

/-- The lengths of the buffers. -/
abbrev lengths (bufs : List (List β)) : List ℕ := bufs.map List.length

/-- The bytes are written at the cursor. -/
def write (bufs : List (List β)) (c : Cursor) (bytes : List β) : List (List β) :=
  bufs.modify c.seg (splice c.offset bytes)

variable {bufs : List (List β)}

theorem lengths_cons (buf : List β) (bufs : List (List β)) :
    lengths (buf :: bufs) = buf.length :: lengths bufs := rfl

theorem sum_lengths (bufs : List (List β)) : (lengths bufs).sum = bufs.flatten.length :=
  (List.length_flatten).symm

theorem lengths_write {c : Cursor} {buf : List β} (hbuf : bufs[c.seg]? = some buf)
    (h : c.offset + bytes.length ≤ buf.length) : lengths (write bufs c bytes) = lengths bufs := by
  refine List.ext_getElem? fun j => ?_
  rw [lengths, lengths, List.getElem?_map, List.getElem?_map, write, List.getElem?_modify]
  by_cases hj : c.seg = j
  · simp only [← hj, hbuf, if_true]
    exact congrArg some (length_splice h)
  · simp only [hj, if_false]
    exact congrArg _ (Option.map_id' (x := bufs[j]?))

/-- A write within a buffer is a splice of the concatenation. -/
theorem flatten_write {c : Cursor} {buf : List β} (hbuf : bufs[c.seg]? = some buf)
    (h : c.offset + bytes.length ≤ buf.length) :
    (write bufs c bytes).flatten = splice (c.pos (lengths bufs)) bytes bufs.flatten := by
  obtain ⟨i, o⟩ := c
  dsimp only [write, Cursor.pos] at hbuf h ⊢
  induction bufs generalizing i with
  | nil => cases hbuf
  | cons b rest ih =>
      cases i with
      | zero =>
          cases hbuf
          rw [List.modify_zero_cons, List.flatten_cons, List.flatten_cons, start_zero, Nat.zero_add,
            splice_append_left h]
      | succ i =>
          rw [List.modify_succ_cons, List.flatten_cons, List.flatten_cons, ih i hbuf, lengths_cons,
            start_cons, Nat.add_assoc, splice_append_right]

/-- A read within a buffer is one of the concatenation. -/
theorem read_eq {c : Cursor} {n : ℕ} {buf : List β} (hbuf : bufs[c.seg]? = some buf)
    (h : c.offset + n ≤ buf.length) :
    (buf.drop c.offset).take n = (bufs.flatten.drop (c.pos (lengths bufs))).take n := by
  obtain ⟨i, o⟩ := c
  dsimp only [Cursor.pos] at hbuf h ⊢
  induction bufs generalizing i with
  | nil => cases hbuf
  | cons b rest ih =>
      cases i with
      | zero =>
          cases hbuf
          rw [List.flatten_cons, start_zero, Nat.zero_add, List.drop_append_of_le_length (by omega),
            List.take_append_of_le_length (by rw [List.length_drop]; omega)]
      | succ i =>
          rw [List.flatten_cons, lengths_cons, start_cons, Nat.add_assoc, ← List.drop_drop,
            List.drop_left, ih i hbuf]

end Xen2mx
