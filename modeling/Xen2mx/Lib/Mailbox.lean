/-
# `Xen2mx.Lib.Mailbox` — messages whose payloads lie in shared slots

A sender puts the payload of a message in the next slot of a memory, in turn,
and the message itself in a queue; the message says where its payload is.  The
receiver takes the messages from the head of the queue and reads the payload
from the slot at that moment.  A slot is used again as soon as the sender has
been round, so that the receiver reads what was sent only if the sender is never
a full round ahead.

A `Parcel` is what the sender wants to send: the message for each place where its
payload may go, and the payload, if it has one.

**Proved here.**

    reading back what was written                              (`read_write`)
    writing elsewhere                                          (`read_write_of_disjoint`)
    fewer messages queued than slots, at each sending
        ⟹  the receiver reads the parcels, in order            (`Holds.put`, `Holds.take`)
-/
import Mathlib.Data.List.Basic
import Mathlib.Tactic.Common

namespace Xen2mx.Mailbox

universe u v

variable {μ : Type u} {β : Type v}

/-! ## Memory -/

/-- The memory after `data` was written from `off` on. -/
def write (mem : ℕ → β) (off : ℕ) (data : List β) : ℕ → β := fun a =>
  if off ≤ a then data[a - off]?.getD (mem a) else mem a

/-- The `len` values from `off` on. -/
def read (mem : ℕ → β) (off len : ℕ) : List β := (List.range len).map fun i => mem (off + i)

variable (mem : ℕ → β) (data : List β)

@[simp] theorem write_nil (off : ℕ) : write mem off [] = mem := by
  funext a
  simp [write]

theorem write_of_lt {off a : ℕ} (h : a < off ∨ off + data.length ≤ a) :
    write mem off data a = mem a := by
  unfold write
  split
  · rw [List.getElem?_eq_none (by omega), Option.getD_none]
  · rfl

theorem read_write (off : ℕ) : read (write mem off data) off data.length = data := by
  refine List.ext_getElem (by simp [read]) fun i hi hi' => ?_
  simp [read, write, hi']

theorem read_congr {mem mem' : ℕ → β} {off len : ℕ} (h : ∀ i < len, mem (off + i) = mem' (off + i)) :
    read mem off len = read mem' off len :=
  List.map_congr_left fun i hi => h i (List.mem_range.1 hi)

theorem read_write_of_disjoint {off off' len : ℕ}
    (h : off' + len ≤ off ∨ off + data.length ≤ off') :
    read (write mem off data) off' len = read mem off' len :=
  read_congr fun i hi => write_of_lt mem data (by omega)

/-- What is written in two parts. -/
theorem write_append (data' : List β) (off : ℕ) :
    write mem off (data ++ data') = write (write mem off data) (off + data.length) data' := by
  funext a
  unfold write
  by_cases hoff : off ≤ a
  · rw [if_pos hoff]
    rcases Nat.lt_or_ge (a - off) data.length with hlt | hge
    · rw [if_neg (by omega), if_pos hoff, List.getElem?_append_left hlt]
    · rw [if_pos (by omega), if_pos hoff, List.getElem?_append_right hge,
        List.getElem?_eq_none hge, Option.getD_none, Nat.sub_sub]
  · rw [if_neg hoff, if_neg (by omega), if_neg hoff]

/-! ## The box -/

structure Box (μ : Type u) (β : Type v) where
  /-- the number of payloads sent -/
  next : ℕ
  mem : ℕ → β
  queue : List μ
  /-- the messages received, with the payload that was read -/
  log : List (μ × List β)

structure Parcel (μ : Type u) (β : Type v) where
  /-- the message, if the payload is at a place -/
  label : ℕ → μ
  data : Option (List β)

/-- The slots: where each begins, and where a message says that its payload is. -/
structure Layout (μ : Type u) where
  nr : ℕ
  size : ℕ
  place : μ → Option (ℕ × ℕ)

namespace Layout

variable (l : Layout μ)

/-- Where the `k`-th payload goes. -/
def slot (k : ℕ) : ℕ := k % l.nr * l.size

def payload (mem : ℕ → β) (m : μ) : List β :=
  match l.place m with
  | none => []
  | some (off, len) => read mem off len

def empty (mem : ℕ → β) : Box μ β := { next := 0, mem, queue := [], log := [] }

def put (b : Box μ β) (p : Parcel μ β) : Box μ β :=
  match p.data with
  | none => { b with queue := b.queue ++ [p.label 0] }
  | some data =>
      { b with
        next := b.next + 1
        mem := write b.mem (l.slot b.next) data
        queue := b.queue ++ [p.label (l.slot b.next)] }

def take (b : Box μ β) : Option (Box μ β) :=
  match b.queue with
  | [] => none
  | m :: queue => some { b with queue, log := b.log ++ [(m, l.payload b.mem m)] }

/-- The message of a parcel says where its payload is, and the payload fits a slot. -/
def Fits (p : Parcel μ β) : Prop :=
  match p.data with
  | none => l.place (p.label 0) = none
  | some data => data.length ≤ l.size ∧
      ∀ k, l.place (p.label (l.slot k)) = some (l.slot k, data.length)

/-- What is to be received, when `k` payloads were sent before. -/
def parcels : ℕ → List (Parcel μ β) → List (μ × List β)
  | _, [] => []
  | k, p :: ps =>
      match p.data with
      | none => (p.label 0, []) :: parcels k ps
      | some data => (p.label (l.slot k), data) :: parcels (k + 1) ps

def payloads (ps : List (Parcel μ β)) : ℕ := ps.countP (·.data.isSome)

variable {l}

theorem length_parcels (k : ℕ) (ps : List (Parcel μ β)) : (l.parcels k ps).length = ps.length := by
  induction ps generalizing k with
  | nil => rfl
  | cons p ps ih =>
      unfold parcels
      split <;> simp [ih]

theorem parcels_append (k : ℕ) (ps qs : List (Parcel μ β)) :
    l.parcels k (ps ++ qs) = l.parcels k ps ++ l.parcels (k + payloads ps) qs := by
  induction ps generalizing k with
  | nil => rfl
  | cons p ps ih =>
      simp only [List.cons_append, parcels, payloads, List.countP_cons]
      cases hd : p.data with
      | none => simp [ih, payloads]
      | some data =>
          show (p.label (l.slot k), data) :: l.parcels (k + 1) (ps ++ qs) =
            (p.label (l.slot k), data) :: (l.parcels (k + 1) ps ++ l.parcels (k + (payloads ps + 1)) qs)
          rw [ih, Nat.add_right_comm, Nat.add_assoc]

/-! ## What the receiver reads -/

/-- The parcels sent so far are those received and those queued, whose payloads are in
their slots: the last numbers that were handed out. -/
structure Holds (l : Layout μ) (b : Box μ β) (sent : List (Parcel μ β)) : Prop where
  next : b.next = payloads sent
  parcels : b.log ++ b.queue.map (fun m => (m, l.payload b.mem m)) = l.parcels 0 sent
  window : ∀ i m off len, b.queue[i]? = some m → l.place m = some (off, len) → len ≤ l.size ∧
    ∃ k < b.next, b.next + i ≤ k + b.queue.length ∧ off = l.slot k

theorem Holds.empty (mem : ℕ → β) : Holds l (Layout.empty mem) [] := ⟨rfl, rfl, nofun⟩

theorem slot_disjoint {k k' : ℕ} (hlt : k' < k) (hnr : k < k' + l.nr) :
    l.slot k' + l.size ≤ l.slot k ∨ l.slot k + l.size ≤ l.slot k' := by
  have hne : k % l.nr ≠ k' % l.nr := by
    intro h
    have hdvd : l.nr ∣ k - k' := Nat.dvd_of_mod_eq_zero (Nat.sub_mod_eq_zero_of_mod_eq h)
    have hle := Nat.le_of_dvd (by omega) hdvd
    omega
  unfold slot
  rcases Nat.lt_or_gt_of_ne hne with h | h
  · exact .inr (by rw [← Nat.succ_mul]; exact Nat.mul_le_mul_right _ h)
  · exact .inl (by rw [← Nat.succ_mul]; exact Nat.mul_le_mul_right _ h)

theorem Holds.put {b : Box μ β} {sent : List (Parcel μ β)} (h : Holds l b sent) {p : Parcel μ β}
    (hp : l.Fits p) (hroom : b.queue.length < l.nr) : Holds l (l.put b p) (sent ++ [p]) := by
  obtain ⟨label, data⟩ := p
  cases data with
  | none =>
      simp only [Fits] at hp
      refine ⟨?_, ?_, ?_⟩
      · simp [Layout.put, payloads, h.next]
      · simp only [Layout.put, List.map_append, List.map_cons, List.map_nil, payload, hp]
        rw [parcels_append, ← h.parcels, List.append_assoc]
        rfl
      · intro i m off len hi hplace
        simp only [Layout.put, List.length_append, List.length_singleton] at hi ⊢
        rw [List.getElem?_append] at hi
        split at hi
        · obtain ⟨hlen, k, hk, hle, hoff⟩ := h.window i m off len hi hplace
          exact ⟨hlen, k, hk, by omega, hoff⟩
        · rw [List.getElem?_singleton] at hi
          split at hi <;> cases hi
          rw [hp] at hplace
          cases hplace
  | some data =>
      simp only [Fits] at hp
      obtain ⟨hlen, hplace⟩ := hp
      have hkept : ∀ m ∈ b.queue,
          l.payload (write b.mem (l.slot b.next) data) m = l.payload b.mem m := by
        intro m hm
        obtain ⟨i, hi⟩ := List.getElem?_of_mem hm
        unfold payload
        split
        · rfl
        · rename_i off len hm
          obtain ⟨hlen', k, hk, hle, rfl⟩ := h.window i m off len hi hm
          have hdisjoint := slot_disjoint (l := l) hk (by omega)
          exact read_write_of_disjoint _ _ (by omega)
      refine ⟨?_, ?_, ?_⟩
      · simp [Layout.put, payloads, h.next]
      · simp only [Layout.put, List.map_append, List.map_cons, List.map_nil]
        rw [parcels_append, ← h.parcels, List.append_assoc, List.map_congr_left fun m hm =>
          congrArg (Prod.mk m) (hkept m hm)]
        simp only [payload, hplace, read_write, Nat.zero_add, ← h.next, Layout.parcels]
      · intro i m off len hi hm
        simp only [Layout.put, List.length_append, List.length_singleton] at hi ⊢
        rw [List.getElem?_append] at hi
        split at hi
        · obtain ⟨hlen, k, hk, hle, hoff⟩ := h.window i m off len hi hm
          exact ⟨hlen, k, by omega, by omega, hoff⟩
        · rw [List.getElem?_singleton] at hi
          split at hi <;> cases hi
          rw [hplace] at hm
          cases hm
          exact ⟨hlen, b.next, by omega, by omega, rfl⟩

theorem Holds.take {b b' : Box μ β} {sent : List (Parcel μ β)} (h : Holds l b sent)
    (hb : l.take b = some b') : Holds l b' sent := by
  unfold Layout.take at hb
  split at hb <;> cases hb
  rename_i m queue hqueue
  refine ⟨h.next, ?_, ?_⟩
  · rw [← h.parcels, hqueue, List.append_assoc]
    rfl
  · intro i m' off len hi hplace
    obtain ⟨hlen, k, hk, hle, hoff⟩ := h.window (i + 1) m' off len (by rw [hqueue]; exact hi) hplace
    rw [hqueue, List.length_cons] at hle
    exact ⟨hlen, k, hk, by show b.next + i ≤ k + queue.length; omega, hoff⟩

end Layout

end Xen2mx.Mailbox
