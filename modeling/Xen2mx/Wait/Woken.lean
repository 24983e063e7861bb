/-
# `Xen2mx.Wait.Woken` — nobody sleeps through an event

What the others do between two steps of the process is one relation (`Env`): indexes and jiffies do
not go back, the process is not put to sleep, and whoever counts an event is on the way to wake it.
The invariant of the call is kept by `Env`, and by each step of the process.

**Proved here.**

    a process that sleeps, and nobody on the way to wake it: the indexes are those it passed, and no
        walk has started since its waiter is in the list
    a call that returns: the waiter is removed and the timer is off; the date that the status stands
        for has passed, or there was a signal for `INTR`, or somebody posted it
    a timeout that `omx__wait` reports: the date of the application has passed, or somebody posted
        it, or `WAKEUP`, or the status is `INTR` and counts as one    (`sleeping_wait`)
    a wakeup before the date of the application is reported as a timeout  (`early_wakeup`)
-/
import Xen2mx.Wait.Sleep

namespace Xen2mx.Wait

/-! ## What is claimed -/

/-- A date that has passed since the library passed its indexes. -/
def State.Expired (s : State) (date : ℕ) : Prop :=
  ∃ now, s.start ≤ now ∧ now ≤ s.jiffies ∧ timeAfterEq64 now date

/-- Nobody is on the way to wake the process. -/
structure State.Quiet (s : State) : Prop where
  walkers : s.walkers = []
  signal : s.signalWakes = 0
  timer : ∀ handler, s.timer ≠ .running handler
  wrote : s.timer ≠ .wrote

/-- A process that sleeps has missed nothing. -/
structure State.Rests (s : State) : Prop where
  /-- no walk has started since the waiter is in the list -/
  called : s.called = false
  signal : s.signalPending = false
  timer : s.timer ≠ .done
  indexes : s.wrapped = false → s.exp = s.cmd.nextExpEventIndex ∧
    s.unexp = s.cmd.nextUnexpEventIndex + s.ignored ∧ s.user = s.cmd.userEventIndex

/-- The process can be awake without a status: for a signal; but also as an index differs, as a
walk of before comes late, or as nothing was posted. -/
def State.Interrupted (s : State) : Prop :=
  s.signalPending = true ∨ s.raced = true ∨ s.stale = true ∨ .none ∈ s.posted

/-- Where a status can be from. -/
def State.Sourced (s : State) : Status → Prop
  | .intr => s.Interrupted ∨ .intr ∈ s.posted
  | .timeout => s.Expired s.cmd.jiffiesExpire ∨ .timeout ∈ s.posted
  | .progress => s.Expired s.cmd.wakeupJiffies ∨ .progress ∈ s.posted
  | .race => s.Expired s.cmd.jiffiesExpire ∨ s.Expired s.cmd.wakeupJiffies ∨ .race ∈ s.posted
  | status => status ∈ s.posted

/-- What holds in every state of a call. -/
structure State.Safe (s : State) : Prop where
  asleep : s.pc = .asleep → s.running = false → s.Quiet → s.Rests
  cleanedUp : ∀ status, s.pc = .returned status →
    s.membership = .after ∧ (s.timer = .none ∨ s.timer = .done)
  sourced : ∀ status, s.pc = .returned status → s.Sourced status
  timeout : ∀ status waitintr jiffies, s.pc = .returned status →
    reportsTimeout waitintr jiffies s.cmd.jiffiesExpire status →
    s.cmd.jiffiesExpire ≤ jiffies ∨ s.Expired s.cmd.jiffiesExpire ∨ .timeout ∈ s.posted ∨
      .wakeup ∈ s.posted ∨ (waitintr = true ∧ status = .intr)

/-! ## On the way -/

/-- A walk that will wake the process, whose waiter is in the list. -/
def Walker.Comes : Walker → Prop
  | .bumped _ | .wrote => True
  | .walking _ had _ => had = true

/-- Its status was posted. -/
def Walker.Posted (posted : List Status) : Walker → Prop
  | .bumped status | .walking status _ _ => status ∈ posted
  | .wrote => True

/-- The process is awake, or somebody is on the way to wake it. -/
def State.Coming (s : State) : Prop := s.running = true ∨ ∃ w ∈ s.walkers, w.Comes

/-- A signal is on the way to wake the process, or has woken it. -/
def State.Signalled (s : State) : Prop :=
  s.signalPending = true → s.running = true ∨ s.signalWakes ≠ 0

/-- The process has a status, or can be awake without. -/
def State.Explained (s : State) : Prop := s.status ≠ .none ∨ s.Interrupted

/-! ## What the others do -/

/-- What the others do between two steps of the process. -/
structure Env (s s' : State) : Prop where
  pc : s'.pc = s.pc
  cmd : s'.cmd = s.cmd
  start : s'.start = s.start
  membership : s'.membership = s.membership
  wrapped : s'.wrapped = s.wrapped
  jiffies : s.jiffies ≤ s'.jiffies
  posted : s.posted ⊆ s'.posted
  running : s.running = true → s'.running = true
  counts : s.exp ≤ s'.exp ∧ s.unexp ≤ s'.unexp ∧ s.user ≤ s'.user
  /-- whoever counts an event is on the way -/
  counted : (s'.exp = s.exp ∧ s'.unexp + s.ignored = s.unexp + s'.ignored ∧ s'.user = s.user) ∨
    s'.Coming
  /-- and does not turn back -/
  coming : s.membership = .linked → s.Coming → s'.Coming
  called : s'.called = true → s.called = true ∨ (s.membership = .linked ∧ s'.Coming)
  signal : s.Signalled → s'.Signalled
  timer : s'.timer = s.timer ∨
    (∃ handler, s.timer = .pending handler ∧ s'.timer = .running handler ∧
      timeAfterEq64 s.jiffies (handler.date s.cmd)) ∨
    (∃ handler, s.timer = .running handler ∧ s'.timer = .wrote ∧ s'.status = handler.status) ∨
    (s.timer = .wrote ∧ s'.timer = .done ∧ s'.running = true)
  status : s'.status = s.status ∨ (∃ had can, .walking s'.status had can ∈ s.walkers) ∨
    (∃ handler, s.timer = .running handler ∧ s'.status = handler.status)
  walkers : (∀ w ∈ s.walkers, w.Posted s.posted) → ∀ w ∈ s'.walkers, w.Posted s'.posted
  /-- who wakes the process has written a status, or is a signal, or a walk of before -/
  woken : s'.running = true → s.running = true ∨ s'.stale = true ∨ s.signalWakes ≠ 0 ∨
    .wrote ∈ s.walkers ∨ s.timer = .wrote
  visited : .wrote ∈ s'.walkers → .wrote ∈ s.walkers ∨
    (s.membership ≠ .before ∧ ∃ had can, .walking s'.status had can ∈ s.walkers)
  signals : (s.signalWakes ≠ 0 → s.signalPending = true) →
    s'.signalWakes ≠ 0 → s'.signalPending = true
  pending : s.signalPending = true → s'.signalPending = true
  raced : s'.raced = s.raced
  stale : s.stale = true → s'.stale = true

/-- Nothing happens.  What a step does not touch is kept as here. -/
theorem Env.refl (s : State) : Env s s where
  pc := rfl
  cmd := rfl
  start := rfl
  membership := rfl
  wrapped := rfl
  jiffies := Nat.le_refl _
  posted := List.Subset.refl _
  running := id
  counts := ⟨Nat.le_refl _, Nat.le_refl _, Nat.le_refl _⟩
  counted := .inl ⟨rfl, rfl, rfl⟩
  coming := fun _ h => h
  called := .inl
  signal := id
  timer := .inl rfl
  status := .inl rfl
  walkers := id
  woken := .inl
  visited := .inl
  signals := id
  pending := id
  raced := rfl
  stale := id

section
variable {s s' : State} {i : ℕ}

theorem State.coming_post (s : State) (status : Status) : (s.post status).Coming :=
  .inr ⟨_, List.mem_append_right _ (List.mem_singleton_self _), trivial⟩

theorem Walker.Posted.mono {posted posted' : List Status} (h : posted ⊆ posted') {w : Walker}
    (hw : w.Posted posted) : w.Posted posted' := by
  cases w with
  | bumped status => exact h hw
  | walking status had can => exact h hw
  | wrote => trivial

/-- Those that were there, and the new one. -/
theorem posted_post (status : Status) (h : ∀ w ∈ s.walkers, w.Posted s.posted) :
    ∀ w ∈ (s.post status).walkers, w.Posted (s.post status).posted := by
  intro w hw
  rcases List.mem_append.1 hw with hw | hw
  · exact (h w hw).mono (List.subset_cons_self _ _)
  · cases List.mem_singleton.1 hw
    exact List.mem_cons_self

theorem posted_set {v : Walker} (hv : (∀ w ∈ s.walkers, w.Posted s.posted) → v.Posted s.posted)
    (h : ∀ w ∈ s.walkers, w.Posted s.posted) :
    ∀ w ∈ s.walkers.set i v, w.Posted s.posted := by
  intro w hw
  rcases List.mem_or_eq_of_mem_set hw with hw | rfl
  · exact h w hw
  · exact hv h

/-- A new walk is not at the waiter. -/
theorem wrote_of_post {status : Status} (h : .wrote ∈ (s.post status).walkers) :
    .wrote ∈ s.walkers := by
  rcases List.mem_append.1 h with h | h
  · exact h
  · exact absurd (List.mem_singleton.1 h) nofun

theorem mem_set_of_getElem? {v w : Walker} (h : s.walkers[i]? = some w) : v ∈ s.walkers.set i v :=
  List.mem_set (List.getElem?_eq_some_iff.1 h).1 v

theorem Env.startWalk (h : s.startWalk i = some s') : Env s s' := by
  unfold State.startWalk at h
  split at h
  · rename_i status hi
    cases h
    have hmem := List.mem_of_getElem? hi
    have hcomes : ∀ (_ : s.membership = .linked), State.Coming { s with
        walkers := s.walkers.set i
          (.walking status (s.membership = .linked) (s.membership ≠ .after))
        called := s.called || s.membership = .linked } := fun hlinked =>
      .inr ⟨_, mem_set_of_getElem? hi, decide_eq_true hlinked⟩
    exact
      { Env.refl s with
        counted := .inl ⟨rfl, rfl, rfl⟩
        coming := fun hlinked _ => hcomes hlinked
        called := fun hcalled => by
          rcases Bool.or_eq_true_iff.1 hcalled with hcalled | hlinked
          · exact .inl hcalled
          · exact .inr ⟨of_decide_eq_true hlinked, hcomes (of_decide_eq_true hlinked)⟩
        walkers := posted_set fun hall => hall (.bumped status) hmem
        visited := fun hwrote => by
          rcases List.mem_or_eq_of_mem_set hwrote with hwrote | heq
          · exact .inl hwrote
          · exact absurd heq nofun }
  · cases h

theorem Env.visit (h : s.visit i = some s') : Env s s' := by
  unfold State.visit at h
  split at h
  · rename_i status had hi
    split at h
    · cases h
    · rename_i hbefore
      cases h
      have hmem := List.mem_of_getElem? hi
      exact
        { Env.refl s with
          counted := .inl ⟨rfl, rfl, rfl⟩
          coming := fun _ _ => .inr ⟨_, mem_set_of_getElem? hi, trivial⟩
          called := .inl
          timer := .inl rfl
          status := .inr (.inl ⟨had, true, hmem⟩)
          walkers := posted_set fun _ => trivial
          visited := fun _ => .inr ⟨hbefore, had, true, hmem⟩ }
  · cases h

/-- A walk that ends early is not the one that will wake the process. -/
theorem Env.finish (h : s.finish i = some s') : Env s s' := by
  unfold State.finish at h
  split at h
  · rename_i status had can hi
    split at h
    · cases h
    · rename_i hnot
      cases h
      refine
        { Env.refl s with
          counted := .inl ⟨rfl, rfl, rfl⟩
          coming := fun hlinked hcoming => ?_
          called := .inl
          walkers := fun hall w hw => hall w (List.mem_of_mem_eraseIdx hw)
          visited := fun hwrote => .inl (List.mem_of_mem_eraseIdx hwrote) }
      rcases hcoming with hrunning | ⟨w, hw, hcomes⟩
      · exact .inl hrunning
      · obtain ⟨j, hj⟩ := List.mem_iff_getElem?.1 hw
        refine .inr ⟨w, List.mem_eraseIdx_iff_getElem?.2 ⟨j, fun heq => ?_, hj⟩, hcomes⟩
        rw [heq, hi] at hj
        cases hj
        exact hnot ⟨hcomes, hlinked⟩
  · cases h

theorem Env.wake (h : s.wake i = some s') : Env s s' := by
  unfold State.wake at h
  split at h
  · rename_i hi
    cases h
    exact
      { Env.refl s with
        running := fun _ => rfl
        counted := .inl ⟨rfl, rfl, rfl⟩
        coming := fun _ _ => .inl rfl
        called := .inl
        signal := fun _ _ => .inl rfl
        timer := .inl rfl
        walkers := fun hall w hw => hall w (List.mem_of_mem_eraseIdx hw)
        woken := fun _ => .inr (.inr (.inr (.inl (List.mem_of_getElem? hi))))
        visited := fun hwrote => .inl (List.mem_of_mem_eraseIdx hwrote) }
  · cases h

theorem Env.expire (h : s.expire = some s') : Env s s' := by
  unfold State.expire at h
  split at h
  · rename_i handler htimer
    split at h
    · rename_i hdate
      cases h
      exact { Env.refl s with timer := .inr (.inl ⟨handler, htimer, rfl, hdate⟩) }
    · cases h
  · cases h

theorem Env.handle (h : s.handle = some s') : Env s s' := by
  unfold State.handle at h
  split at h
  · rename_i handler htimer
    cases h
    exact
      { Env.refl s with
        timer := .inr (.inr (.inl ⟨handler, htimer, rfl, rfl⟩))
        status := .inr (.inr ⟨handler, htimer, rfl⟩)
        visited := .inl }
  · rename_i htimer
    cases h
    exact
      { Env.refl s with
        running := fun _ => rfl
        counted := .inl ⟨rfl, rfl, rfl⟩
        coming := fun _ _ => .inl rfl
        called := .inl
        signal := fun _ _ => .inl rfl
        timer := .inr (.inr (.inr ⟨htimer, rfl, rfl⟩))
        woken := fun _ => .inr (.inr (.inr (.inr htimer))) }
  · cases h

/-- All but the process itself, and the library before it calls. -/
theorem Env.of_step {a : Action} (hproc : a ≠ .proc) (hpass : ∀ cmd, a ≠ .pass cmd)
    (h : step s a = some s') : Env s s' := by
  cases a with
  | tick => cases h; exact { Env.refl s with jiffies := Nat.le_succ _ }
  | notifyExp =>
      cases h
      exact
        { Env.refl s with
          posted := List.subset_cons_self _ _
          counts := ⟨Nat.le_succ _, Nat.le_refl _, Nat.le_refl _⟩
          counted := .inr (State.coming_post _ _)
          coming := fun _ _ => State.coming_post _ _
          called := .inl
          walkers := posted_post .event
          visited := fun hwrote => .inl (wrote_of_post hwrote) }
  | notifyUnexp =>
      cases h
      exact
        { Env.refl s with
          posted := List.subset_cons_self _ _
          counts := ⟨Nat.le_refl _, Nat.le_succ _, Nat.le_refl _⟩
          counted := .inr (State.coming_post _ _)
          coming := fun _ _ => State.coming_post _ _
          called := .inl
          walkers := posted_post .event
          visited := fun hwrote => .inl (wrote_of_post hwrote) }
  | overExp => cases h; exact { Env.refl s with }
  | backExp =>
      obtain ⟨-, h⟩ := Option.ite_none_right_eq_some.1 h
      cases h
      exact { Env.refl s with }
  | overUnexp => cases h; exact { Env.refl s with }
  | backUnexp =>
      obtain ⟨-, h⟩ := Option.ite_none_right_eq_some.1 h
      cases h
      exact { Env.refl s with }
  | cancelUnexp =>
      cases h
      exact { Env.refl s with 
          counts := ⟨Nat.le_refl _, Nat.le_succ _, Nat.le_refl _⟩
          counted := .inl ⟨rfl, Nat.add_right_comm _ _ _, rfl⟩ }
  | notifyUser =>
      cases h
      exact
        { Env.refl s with
          posted := List.subset_cons_self _ _
          counts := ⟨Nat.le_refl _, Nat.le_refl _, Nat.le_succ _⟩
          counted := .inr (State.coming_post _ _)
          coming := fun _ _ => State.coming_post _ _
          called := .inl
          walkers := posted_post .event
          visited := fun hwrote => .inl (wrote_of_post hwrote) }
  | wakeup status =>
      cases h
      exact
        { Env.refl s with
          posted := List.subset_cons_self _ _
          counted := .inr (State.coming_post _ _)
          coming := fun _ _ => State.coming_post _ _
          called := .inl
          walkers := posted_post status
          visited := fun hwrote => .inl (wrote_of_post hwrote) }
  | close =>
      cases h
      exact
        { Env.refl s with
          posted := List.subset_cons_self _ _
          counted := .inr (State.coming_post _ _)
          coming := fun _ _ => State.coming_post _ _
          called := .inl
          walkers := posted_post .wakeup
          visited := fun hwrote => .inl (wrote_of_post hwrote) }
  | startWalk i => exact .startWalk h
  | visit i => exact .visit h
  | finish i => exact .finish h
  | wake i => exact .wake h
  | staleWake =>
      cases h
      exact
        { Env.refl s with
          running := fun _ => rfl
          counted := .inl ⟨rfl, rfl, rfl⟩
          coming := fun _ _ => .inl rfl
          called := .inl
          signal := fun _ _ => .inl rfl
          timer := .inl rfl
          woken := fun _ => .inr (.inl rfl)
          stale := fun _ => rfl }
  | signal =>
      cases h
      exact
        { Env.refl s with
          signal := fun _ _ => .inr (Nat.succ_ne_zero _)
          signals := fun _ _ => rfl
          pending := fun _ => rfl }
  | signalWake =>
      obtain ⟨hpos, h⟩ := Option.ite_none_right_eq_some.1 h
      cases h
      exact
        { Env.refl s with
          running := fun _ => rfl
          counted := .inl ⟨rfl, rfl, rfl⟩
          coming := fun _ _ => .inl rfl
          called := .inl
          signal := fun _ _ => .inl rfl
          timer := .inl rfl
          woken := fun _ => .inr (.inr (.inl hpos.ne'))
          signals := fun hpending _ => hpending hpos.ne' }
  | expire => exact .expire h
  | handle => exact .handle h
  | pass cmd => exact absurd rfl (hpass cmd)
  | proc => exact absurd rfl hproc

end

/-! ## What holds where -/

namespace State

/-- Before the waiter is in the list. -/
structure Before (s : State) : Prop where
  membership : s.membership = .before
  timer : s.timer = .none
  called : s.called = false

/-- The library has seen nothing that was not counted. -/
structure Seen (s : State) : Prop where
  exp : s.cmd.nextExpEventIndex ≤ s.exp
  unexp : s.cmd.nextUnexpEventIndex ≤ s.unexp
  user : s.cmd.userEventIndex ≤ s.user

/-- Nobody wakes the process without a reason. -/
def Awake (s : State) : Prop := s.running = true → s.Explained

/-- In the list: each walk that starts comes to the waiter. -/
structure Listed (s : State) : Prop where
  membership : s.membership = .linked
  called : s.called = true → s.Coming
  awake : s.Awake

/-- What the comparison of the first index gives, and what is left of it later. -/
def ExpSeen (s : State) : Prop :=
  s.wrapped = false → s.exp = s.cmd.nextExpEventIndex ∨ s.Coming

def UnexpSeen (s : State) : Prop :=
  s.wrapped = false → s.unexp = s.cmd.nextUnexpEventIndex + s.ignored ∨ s.Coming

def UserSeen (s : State) : Prop :=
  s.wrapped = false → s.user = s.cmd.userEventIndex ∨ s.Coming

/-- The timer may be set, and if its handler is done the process is awake. -/
def Armed (s : State) : Prop := s.timer = .done → s.running = true

/-- The timer is off. -/
def Off (s : State) : Prop := s.timer = .none ∨ s.timer = .done

/-- The status of the waiter. -/
def Marked (s : State) : Prop := s.status = .none ∨ s.Sourced s.status

/-- What holds at each point of the call. -/
def At (s : State) : Pc → Prop
  | .library => s.Before
  | .setState => s.Before ∧ s.Seen
  | .link => s.Before ∧ s.Seen ∧ s.Marked ∧ s.Awake
  | .compareExp => s.Listed ∧ s.Seen ∧ s.Marked ∧ s.timer = .none
  | .compareUnexp => s.Listed ∧ s.Seen ∧ s.Marked ∧ s.timer = .none ∧ s.ExpSeen
  | .compareUser =>
      s.Listed ∧ s.Seen ∧ s.Marked ∧ s.timer = .none ∧ s.ExpSeen ∧ s.UnexpSeen
  | .readJiffies | .modTimer _ =>
      s.Listed ∧ s.Marked ∧ s.timer = .none ∧ s.ExpSeen ∧ s.UnexpSeen ∧ s.UserSeen
  | .readStatus | .readSignal | .schedule =>
      s.Listed ∧ s.Marked ∧ s.Armed ∧ s.ExpSeen ∧ s.UnexpSeen ∧ s.UserSeen
  | .asleep =>
      s.Listed ∧ s.Marked ∧ s.Armed ∧ s.ExpSeen ∧ s.UnexpSeen ∧ s.UserSeen ∧ s.Signalled
  | .delTimer => s.Marked ∧ s.Explained
  | .setRunning | .unlink => s.Marked ∧ s.Explained ∧ s.Off
  | .readResult => s.Marked ∧ s.Explained ∧ s.Off ∧ s.membership = .after
  | .setIntr => s.Interrupted ∧ s.Off ∧ s.membership = .after
  | .copyResult => s.Sourced s.status ∧ s.Off ∧ s.membership = .after
  | .returned status => s.Sourced status ∧ s.Off ∧ s.membership = .after

/-- What holds of those who write the status, at any point of the call. -/
structure Writers (s : State) : Prop where
  start : s.start ≤ s.jiffies
  /-- a handler that runs has come to its date -/
  expired : ∀ handler, s.timer = .running handler → s.Expired (handler.date s.cmd)
  walkers : ∀ w ∈ s.walkers, w.Posted s.posted
  /-- the status is there before the process is woken -/
  visited : .wrote ∈ s.walkers → s.membership ≠ .before ∧ s.Explained
  handled : s.timer = .wrote → s.Explained
  signals : s.signalWakes ≠ 0 → s.signalPending = true

/-- The invariant of a call. -/
structure Inv (s : State) : Prop where
  here : s.At s.pc
  writers : s.Writers

end State

/-! ## What the others leave as it is -/

namespace Env

variable {s s' : State}

theorem before (e : Env s s') (h : s.Before) : s'.Before where
  membership := e.membership.trans h.membership
  timer := by
    rcases e.timer with heq | ⟨handler, hpending, -⟩ | ⟨handler, hrunning, -⟩ | ⟨hwrote, -⟩
    · exact heq.trans h.timer
    · exact absurd (h.timer.symm.trans hpending) (by rintro ⟨⟩)
    · exact absurd (h.timer.symm.trans hrunning) (by rintro ⟨⟩)
    · exact absurd (h.timer.symm.trans hwrote) (by rintro ⟨⟩)
  called := by
    by_contra hcalled
    rcases e.called (eq_true_of_ne_false hcalled) with hcalled | ⟨hlinked, -⟩
    · exact absurd (h.called.symm.trans hcalled) (by rintro ⟨⟩)
    · exact absurd (h.membership.symm.trans hlinked) (by rintro ⟨⟩)

theorem none (e : Env s s') (h : s.timer = .none) : s'.timer = .none := by
  rcases e.timer with heq | ⟨handler, hpending, -⟩ | ⟨handler, hrunning, -⟩ | ⟨hwrote, -⟩
  · exact heq.trans h
  · exact absurd (h.symm.trans hpending) nofun
  · exact absurd (h.symm.trans hrunning) nofun
  · exact absurd (h.symm.trans hwrote) nofun

theorem seen (e : Env s s') (h : s.Seen) : s'.Seen := by
  constructor <;> rw [e.cmd]
  · exact h.exp.trans e.counts.1
  · exact h.unexp.trans e.counts.2.1
  · exact h.user.trans e.counts.2.2

theorem expSeen (e : Env s s') (hl : s.Listed) (h : s.ExpSeen) : s'.ExpSeen := by
  intro hwrapped
  rw [e.wrapped] at hwrapped
  rcases e.counted with ⟨heq, -, -⟩ | hcoming
  · rcases h hwrapped with hexp | hcoming
    · exact .inl (by rw [heq, e.cmd, hexp])
    · exact .inr (e.coming hl.membership hcoming)
  · exact .inr hcoming

theorem unexpSeen (e : Env s s') (hl : s.Listed) (h : s.UnexpSeen) : s'.UnexpSeen := by
  intro hwrapped
  rw [e.wrapped] at hwrapped
  rcases e.counted with ⟨-, heq, -⟩ | hcoming
  · rcases h hwrapped with hunexp | hcoming
    · refine .inl ?_
      rw [e.cmd]
      omega
    · exact .inr (e.coming hl.membership hcoming)
  · exact .inr hcoming

theorem userSeen (e : Env s s') (hl : s.Listed) (h : s.UserSeen) : s'.UserSeen := by
  intro hwrapped
  rw [e.wrapped] at hwrapped
  rcases e.counted with ⟨-, -, heq⟩ | hcoming
  · rcases h hwrapped with huser | hcoming
    · exact .inl (by rw [heq, e.cmd, huser])
    · exact .inr (e.coming hl.membership hcoming)
  · exact .inr hcoming

theorem armed (e : Env s s') (h : s.Armed) : s'.Armed := by
  intro hdone
  rcases e.timer with heq | ⟨handler, -, hrunning, -⟩ | ⟨handler, -, hwrote, -⟩ | ⟨-, -, hrunning⟩
  · exact e.running (h (heq.symm.trans hdone))
  · exact absurd (hrunning.symm.trans hdone) nofun
  · exact absurd (hwrote.symm.trans hdone) nofun
  · exact hrunning

theorem off (e : Env s s') (h : s.Off) : s'.Off := by
  rcases e.timer with heq | ⟨handler, hpending, -⟩ | ⟨handler, hrunning, -⟩ | ⟨hwrote, -⟩
  · exact h.imp heq.trans heq.trans
  · rcases h with h | h <;> exact absurd (h.symm.trans hpending) nofun
  · rcases h with h | h <;> exact absurd (h.symm.trans hrunning) nofun
  · rcases h with h | h <;> exact absurd (h.symm.trans hwrote) nofun

theorem expired (e : Env s s') {date : ℕ} (h : s.Expired date) : s'.Expired date := by
  obtain ⟨now, hstart, hnow, hdate⟩ := h
  exact ⟨now, e.start.le.trans hstart, hnow.trans e.jiffies, hdate⟩

theorem interrupted (e : Env s s') (h : s.Interrupted) : s'.Interrupted :=
  h.imp e.pending (Or.imp e.raced.trans (Or.imp e.stale fun h => e.posted h))

theorem sourced (e : Env s s') {status : Status} (h : s.Sourced status) : s'.Sourced status := by
  cases status with
  | intr => exact h.imp e.interrupted fun h => e.posted h
  | timeout =>
      rw [State.Sourced, e.cmd]
      exact h.imp e.expired fun h => e.posted h
  | progress =>
      rw [State.Sourced, e.cmd]
      exact h.imp e.expired fun h => e.posted h
  | race =>
      rw [State.Sourced, e.cmd]
      exact h.imp e.expired (Or.imp e.expired fun h => e.posted h)
  | _ => exact e.posted h

end Env

/-- A status that was posted. -/
theorem State.sourced_of_posted {s : State} {status : Status} (h : status ∈ s.posted) :
    s.Sourced status := by
  cases status with
  | intr => exact .inr h
  | timeout => exact .inr h
  | progress => exact .inr h
  | race => exact .inr (.inr h)
  | _ => exact h

/-- The status of a handler that has come to its date. -/
theorem State.sourced_of_expired {s : State} {handler : Handler}
    (h : s.Expired (handler.date s.cmd)) : s.Sourced handler.status := by
  cases handler with
  | timeout => exact .inl h
  | progress => exact .inl h

theorem Handler.status_ne_none (handler : Handler) : handler.status ≠ .none := by
  cases handler <;> exact nofun

theorem State.explained_of_posted {s : State} (h : s.status ∈ s.posted) : s.Explained := by
  by_cases hnone : s.status = .none
  · exact .inr (.inr (.inr (.inr (hnone ▸ h))))
  · exact .inl hnone

namespace Env

variable {s s' : State}

/-- The status is the one that was there, or has a source. -/
theorem status_or (e : Env s s') (h : s.Writers) :
    s'.status = s.status ∨ (s'.Sourced s'.status ∧ s'.Explained) := by
  rcases e.status with heq | ⟨had, can, hmem⟩ | ⟨handler, htimer, heq⟩
  · exact .inl heq
  · have hposted := e.posted (h.walkers _ hmem)
    exact .inr ⟨State.sourced_of_posted hposted, State.explained_of_posted hposted⟩
  · rw [State.Explained, heq]
    exact .inr ⟨e.sourced (State.sourced_of_expired (h.expired handler htimer)),
      .inl handler.status_ne_none⟩

theorem marked (e : Env s s') (hw : s.Writers) (h : s.Marked) : s'.Marked := by
  rcases e.status_or hw with heq | ⟨hsourced, -⟩
  · rw [State.Marked, heq]
    exact h.imp_right e.sourced
  · exact .inr hsourced

theorem resulted (e : Env s s') (hw : s.Writers) (h : s.Sourced s.status) :
    s'.Sourced s'.status := by
  rcases e.status_or hw with heq | ⟨hsourced, -⟩
  · rw [heq]
    exact e.sourced h
  · exact hsourced

theorem explained (e : Env s s') (hw : s.Writers) (h : s.Explained) : s'.Explained := by
  rcases e.status_or hw with heq | ⟨-, hexplained⟩
  · rw [State.Explained, heq]
    exact h.imp_right e.interrupted
  · exact hexplained

theorem awake (e : Env s s') (hw : s.Writers) (h : s.Awake) : s'.Awake := by
  intro hrunning
  rcases e.woken hrunning with hrunning | hstale | hsignal | hwrote | htimer
  · exact e.explained hw (h hrunning)
  · exact .inr (.inr (.inr (.inl hstale)))
  · exact .inr (.inl (e.pending (hw.signals hsignal)))
  · exact e.explained hw (hw.visited hwrote).2
  · exact e.explained hw (hw.handled htimer)

theorem listed (e : Env s s') (hw : s.Writers) (h : s.Listed) : s'.Listed where
  membership := e.membership.trans h.membership
  called := fun hcalled => by
    rcases e.called hcalled with hcalled | ⟨-, hcoming⟩
    · exact e.coming h.membership (h.called hcalled)
    · exact hcoming
  awake := e.awake hw h.awake

theorem writers (e : Env s s') (h : s.Writers) : s'.Writers where
  start := e.start.le.trans (h.start.trans e.jiffies)
  expired := fun handler htimer => by
    rw [e.cmd]
    rcases e.timer with heq | ⟨_, -, hrunning, hdate⟩ | ⟨_, -, hwrote, -⟩ | ⟨-, hdone, -⟩
    · exact e.expired (h.expired handler (heq.symm.trans htimer))
    · cases hrunning.symm.trans htimer
      exact e.expired ⟨s.jiffies, h.start, Nat.le_refl _, hdate⟩
    · exact absurd (hwrote.symm.trans htimer) nofun
    · exact absurd (hdone.symm.trans htimer) nofun
  walkers := e.walkers h.walkers
  visited := fun hwrote => by
    rw [e.membership]
    rcases e.visited hwrote with hwrote | ⟨hbefore, had, can, hmem⟩
    · exact ⟨(h.visited hwrote).1, e.explained h (h.visited hwrote).2⟩
    · exact ⟨hbefore, State.explained_of_posted (e.posted (h.walkers _ hmem))⟩
  handled := fun htimer => by
    rcases e.timer with heq | ⟨handler, -, hrunning, -⟩ | ⟨handler, -, -, heq⟩ | ⟨-, hdone, -⟩
    · exact e.explained h (h.handled (heq.symm.trans htimer))
    · exact absurd (hrunning.symm.trans htimer) nofun
    · rw [State.Explained, heq]
      exact .inl handler.status_ne_none
    · exact absurd (hdone.symm.trans htimer) nofun
  signals := e.signals h.signals

/-- The invariant, when others take a step. -/
theorem inv (e : Env s s') (h : s.Inv) : s'.Inv where
  here := by
    have hw := h.writers
    have hhere := h.here
    rw [e.pc]
    cases hpc : s.pc <;> rw [hpc] at hhere
    case library => exact e.before hhere
    case setState => exact hhere.imp e.before e.seen
    case link =>
      obtain ⟨hb, hs, hm, ha⟩ := hhere
      exact ⟨e.before hb, e.seen hs, e.marked hw hm, e.awake hw ha⟩
    case compareExp =>
      obtain ⟨hl, hs, hm, ht⟩ := hhere
      exact ⟨e.listed hw hl, e.seen hs, e.marked hw hm, e.none ht⟩
    case compareUnexp =>
      obtain ⟨hl, hs, hm, ht, hx⟩ := hhere
      exact ⟨e.listed hw hl, e.seen hs, e.marked hw hm, e.none ht, e.expSeen hl hx⟩
    case compareUser =>
      obtain ⟨hl, hs, hm, ht, hx, hu⟩ := hhere
      exact ⟨e.listed hw hl, e.seen hs, e.marked hw hm, e.none ht, e.expSeen hl hx,
        e.unexpSeen hl hu⟩
    case readJiffies | modTimer =>
      obtain ⟨hl, hm, ht, hx, hu, hv⟩ := hhere
      exact ⟨e.listed hw hl, e.marked hw hm, e.none ht, e.expSeen hl hx, e.unexpSeen hl hu,
        e.userSeen hl hv⟩
    case readStatus | readSignal | schedule =>
      obtain ⟨hl, hm, ha, hx, hu, hv⟩ := hhere
      exact ⟨e.listed hw hl, e.marked hw hm, e.armed ha, e.expSeen hl hx, e.unexpSeen hl hu,
        e.userSeen hl hv⟩
    case asleep =>
      obtain ⟨hl, hm, ha, hx, hu, hv, hg⟩ := hhere
      exact ⟨e.listed hw hl, e.marked hw hm, e.armed ha, e.expSeen hl hx, e.unexpSeen hl hu,
        e.userSeen hl hv, e.signal hg⟩
    case delTimer => exact hhere.imp (e.marked hw) (e.explained hw)
    case setRunning | unlink =>
      obtain ⟨hm, he, ho⟩ := hhere
      exact ⟨e.marked hw hm, e.explained hw he, e.off ho⟩
    case readResult =>
      obtain ⟨hm, he, ho, hafter⟩ := hhere
      exact ⟨e.marked hw hm, e.explained hw he, e.off ho, e.membership.trans hafter⟩
    case setIntr =>
      obtain ⟨hi, ho, hafter⟩ := hhere
      exact ⟨e.interrupted hi, e.off ho, e.membership.trans hafter⟩
    case copyResult =>
      obtain ⟨hr, ho, hafter⟩ := hhere
      exact ⟨e.resulted hw hr, e.off ho, e.membership.trans hafter⟩
    case returned =>
      obtain ⟨hr, ho, hafter⟩ := hhere
      exact ⟨e.sourced hr, e.off ho, e.membership.trans hafter⟩
  writers := e.writers h.writers

end Env

/-! ## The steps of the process -/

namespace State

variable {s s' : State}

/-- An index that is compared, where everything seen was counted. -/
theorem eq_of_compare {count passed : ℕ} {wrapped : Bool} (excess : ℕ) (hle : passed ≤ count)
    (h : (wrapped || decide (count + excess ≠ passed)) = false) :
    wrapped = false ∧ count = passed := by
  obtain ⟨hwrapped, heq⟩ := Bool.or_eq_false_iff.1 h
  have heq := not_not.1 (of_decide_eq_false heq)
  exact ⟨hwrapped, by omega⟩

/-- A step that does not touch the status, the timer or the list. -/
theorem Writers.goesOn (h : s.Writers) {pc : Pc} {running wrapped : Bool} {ignored : ℕ} :
    Writers { s with pc := pc, running := running, wrapped := wrapped, ignored := ignored } :=
  ⟨h.start, h.expired, h.walkers, h.visited, h.handled, h.signals⟩

/-- A step that sets the timer, or stops it. -/
theorem Writers.setTimer (h : s.Writers) {pc : Pc} {timer : Timer}
    (hrunning : ∀ handler, timer ≠ .running handler) (hwrote : timer ≠ .wrote) :
    Writers { s with pc := pc, timer := timer } :=
  ⟨h.start, fun handler heq => absurd heq (hrunning handler), h.walkers, h.visited,
    fun heq => absurd heq hwrote, h.signals⟩

/-- An index differs: the process does not sleep. -/
theorem Inv.raced (h : s.Inv) (hm : s.Marked) (ht : s.timer = .none) (ignored : ℕ) :
    Inv { s with pc := .setRunning, raced := true, ignored := ignored } := by
  refine
    { here := ⟨hm.imp_right fun hsourced => ?_, .inr (.inr (.inl rfl)), .inl ht⟩
      writers := ⟨h.writers.start, h.writers.expired, h.writers.walkers,
        fun hwrote => ⟨(h.writers.visited hwrote).1, .inr (.inr (.inl rfl))⟩,
        fun _ => .inr (.inr (.inl rfl)), h.writers.signals⟩ }
  show State.Sourced _ s.status
  revert hsourced
  cases s.status with
  | intr => exact fun _ => .inl (.inr (.inl rfl))
  | _ => exact id

/-- The first comparison. -/
theorem Inv.compareExp (h : s.Inv) (hpc : s.pc = .compareExp) :
    (s.compare (s.exp + s.expOver) s.cmd.nextExpEventIndex .compareUnexp).Inv := by
  have hhere := h.here
  rw [hpc] at hhere
  obtain ⟨hl, hs, hm, ht⟩ := hhere
  unfold compare
  split
  · refine ⟨⟨⟨hl.membership, hl.called, hl.awake⟩, ⟨hs.exp, hs.unexp, hs.user⟩, hm, ht, ?_⟩,
      h.writers.goesOn⟩
    exact fun hwrapped => .inl (eq_of_compare s.expOver hs.exp hwrapped).2
  · exact h.raced hm ht s.ignored

theorem Inv.compareUnexp (h : s.Inv) (hpc : s.pc = .compareUnexp) :
    ({ s with ignored := 0 }.compare (s.unexp + s.unexpOver) s.cmd.nextUnexpEventIndex
      .compareUser).Inv := by
  have hhere := h.here
  rw [hpc] at hhere
  obtain ⟨hl, hs, hm, ht, hx⟩ := hhere
  unfold compare
  split
  · refine ⟨⟨⟨hl.membership, hl.called, hl.awake⟩, ⟨hs.exp, hs.unexp, hs.user⟩, hm, ht, ?_, ?_⟩,
      h.writers.goesOn⟩
    · exact fun hwrapped => hx (eq_of_compare s.unexpOver hs.unexp hwrapped).1
    · exact fun hwrapped => .inl (eq_of_compare s.unexpOver hs.unexp hwrapped).2
  · exact h.raced hm ht 0

theorem Inv.compareUser (h : s.Inv) (hpc : s.pc = .compareUser) :
    (s.compare s.user s.cmd.userEventIndex .readJiffies).Inv := by
  have hhere := h.here
  rw [hpc] at hhere
  obtain ⟨hl, hs, hm, ht, hx, hu⟩ := hhere
  unfold compare
  split
  · refine ⟨⟨⟨hl.membership, hl.called, hl.awake⟩, hm, ht, ?_, ?_, ?_⟩, h.writers.goesOn⟩
    · exact fun hwrapped => hx (eq_of_compare 0 hs.user hwrapped).1
    · exact fun hwrapped => hu (eq_of_compare 0 hs.user hwrapped).1
    · exact fun hwrapped => .inl (eq_of_compare 0 hs.user hwrapped).2
  · exact h.raced hm ht s.ignored

/-- The dates are looked at, before the timer is set. -/
theorem Inv.readJiffies (h : s.Inv) (hpc : s.pc = .readJiffies) (hs' : s.proc = some s') :
    s'.Inv := by
  have hhere := h.here
  rw [hpc] at hhere
  obtain ⟨hl, hm, ht, hx, hu, hv⟩ := hhere
  have hw := h.writers
  unfold State.proc at hs'
  rw [hpc] at hs'
  dsimp only at hs'
  split at hs'
  · cases hs'
    refine ⟨⟨⟨hl.membership, hl.called, hl.awake⟩, hm, fun hdone => ?_, hx, hu, hv⟩, hw.goesOn⟩
    exact absurd (ht.symm.trans hdone) nofun
  · rename_i handler _
    split at hs'
    · rename_i hdate
      cases hs'
      have hexpired : s.Expired (handler.date s.cmd) := ⟨s.jiffies, hw.start, Nat.le_refl _, hdate⟩
      refine
        { here := ⟨.inr ?_, .inl nofun, .inl ht⟩
          writers := ⟨hw.start, hw.expired, hw.walkers,
            fun hwrote => ⟨(hw.visited hwrote).1, .inl nofun⟩, fun _ => .inl nofun, hw.signals⟩ }
      cases handler with
      | timeout => exact .inl hexpired
      | progress => exact .inr (.inl hexpired)
    · cases hs'
      exact ⟨⟨⟨hl.membership, hl.called, hl.awake⟩, hm, ht, hx, hu, hv⟩, hw.goesOn⟩

/-- The invariant, when the process takes a step. -/
theorem Inv.proc (h : s.Inv) (hs' : s.proc = some s') : s'.Inv := by
  have hw := h.writers
  have hhere := h.here
  have hproc := hs'
  unfold State.proc at hs'
  cases hpc : s.pc <;> rw [hpc] at hs' hhere <;> dsimp only at hs'
  case library => cases hs'
  case setState =>
    cases hs'
    obtain ⟨hb, hs⟩ := hhere
    refine
      { here := ⟨⟨hb.membership, hb.timer, hb.called⟩, ⟨hs.exp, hs.unexp, hs.user⟩, .inl rfl,
          by rintro ⟨⟩⟩
        writers := ⟨hw.start, hw.expired, hw.walkers, fun hwrote => ?_, fun htimer => ?_,
          hw.signals⟩ }
    · exact absurd hb.membership (hw.visited hwrote).1
    · exact absurd (hb.timer.symm.trans htimer) (by rintro ⟨⟩)
  case link =>
    cases hs'
    obtain ⟨hb, hs, hm, ha⟩ := hhere
    refine
      { here := ⟨⟨rfl, fun hcalled => ?_, ha⟩, ⟨hs.exp, hs.unexp, hs.user⟩, hm, hb.timer⟩
        writers := ⟨hw.start, hw.expired, hw.walkers,
          fun hwrote => ⟨by rintro ⟨⟩, (hw.visited hwrote).2⟩, hw.handled, hw.signals⟩ }
    exact absurd (hb.called.symm.trans hcalled) (by rintro ⟨⟩)
  case compareExp =>
    cases hs'
    exact h.compareExp hpc
  case compareUnexp =>
    cases hs'
    exact h.compareUnexp hpc
  case compareUser =>
    cases hs'
    exact h.compareUser hpc
  case readJiffies => exact h.readJiffies hpc hproc
  case modTimer handler =>
    cases hs'
    obtain ⟨hl, hm, -, hx, hu, hv⟩ := hhere
    exact ⟨⟨⟨hl.membership, hl.called, hl.awake⟩, hm, by rintro ⟨⟩, hx, hu, hv⟩,
      hw.setTimer (by rintro _ ⟨⟩) (by rintro ⟨⟩)⟩
  case readStatus =>
    obtain ⟨hl, hm, ha, hx, hu, hv⟩ := hhere
    split at hs' <;> cases hs'
    · exact ⟨⟨⟨hl.membership, hl.called, hl.awake⟩, hm, ha, hx, hu, hv⟩, hw.goesOn⟩
    · rename_i hne
      exact ⟨⟨hm, .inl hne⟩, hw.goesOn⟩
  case readSignal =>
    obtain ⟨hl, hm, ha, hx, hu, hv⟩ := hhere
    split at hs' <;> cases hs'
    · rename_i hsignal
      exact ⟨⟨hm, .inr (.inl hsignal)⟩, hw.goesOn⟩
    · exact ⟨⟨⟨hl.membership, hl.called, hl.awake⟩, hm, ha, hx, hu, hv⟩, hw.goesOn⟩
  case schedule =>
    obtain ⟨hl, hm, ha, hx, hu, hv⟩ := hhere
    split at hs'
    · rename_i hawake
      cases hs'
      exact ⟨⟨hm, hawake.elim hl.awake fun hsignal => .inr (.inl hsignal)⟩, hw.goesOn⟩
    · rename_i hnot
      cases hs'
      refine ⟨⟨⟨hl.membership, hl.called, hl.awake⟩, hm, ha, hx, hu, hv, fun hsignal => ?_⟩,
        hw.goesOn⟩
      exact absurd (.inr hsignal) hnot
  case asleep =>
    obtain ⟨hl, hm, -⟩ := hhere
    split at hs'
    · rename_i hrunning
      cases hs'
      exact ⟨⟨hm, hl.awake hrunning⟩, hw.goesOn⟩
    · cases hs'
  case delTimer =>
    obtain ⟨hm, he⟩ := hhere
    split at hs'
    · rename_i ht
      cases hs'
      exact ⟨⟨hm, he, .inl ht⟩, hw.goesOn⟩
    · cases hs'
      exact ⟨⟨hm, he, .inr rfl⟩, hw.setTimer (by rintro _ ⟨⟩) (by rintro ⟨⟩)⟩
    · cases hs'
      exact ⟨⟨hm, he, .inr rfl⟩, hw.setTimer (by rintro _ ⟨⟩) (by rintro ⟨⟩)⟩
    · cases hs'
    · cases hs'
  case setRunning =>
    cases hs'
    exact ⟨hhere, hw.goesOn⟩
  case unlink =>
    cases hs'
    obtain ⟨hm, he, ho⟩ := hhere
    exact ⟨⟨hm, he, ho, rfl⟩, ⟨hw.start, hw.expired, hw.walkers,
      fun hwrote => ⟨by rintro ⟨⟩, (hw.visited hwrote).2⟩, hw.handled, hw.signals⟩⟩
  case readResult =>
    obtain ⟨hm, he, ho, hafter⟩ := hhere
    split at hs' <;> cases hs'
    · rename_i hnone
      exact ⟨⟨he.resolve_left (not_not.2 hnone), ho, hafter⟩, hw.goesOn⟩
    · rename_i hne
      exact ⟨⟨hm.resolve_left hne, ho, hafter⟩, hw.goesOn⟩
  case setIntr =>
    cases hs'
    obtain ⟨hi, ho, hafter⟩ := hhere
    exact ⟨⟨.inl hi, ho, hafter⟩, ⟨hw.start, hw.expired, hw.walkers,
      fun hwrote => ⟨(hw.visited hwrote).1, .inl (by rintro ⟨⟩)⟩, fun _ => .inl (by rintro ⟨⟩),
      hw.signals⟩⟩
  case copyResult =>
    cases hs'
    exact ⟨hhere, hw.goesOn⟩
  case returned => cases hs'

/-- The invariant, when the library passes its indexes. -/
theorem Inv.pass (h : s.Inv) {cmd : WaitParam} (hs' : step s (.pass cmd) = some s') : s'.Inv := by
  obtain ⟨⟨hpc, hexp, hunexp, huser⟩, hs'⟩ := Option.ite_none_right_eq_some.1 hs'
  cases hs'
  have hb := h.here
  rw [hpc] at hb
  have hw := h.writers
  refine
    { here := ⟨⟨hb.membership, hb.timer, hb.called⟩, ⟨hexp, hunexp, huser⟩⟩
      writers := ⟨Nat.le_refl _, fun handler hrunning => ?_, hw.walkers, hw.visited, hw.handled,
        hw.signals⟩ }
  exact absurd (hb.timer.symm.trans hrunning) nofun

theorem Inv.init : Wait.init.Inv :=
  ⟨⟨rfl, rfl, rfl⟩, ⟨Nat.le_refl _, nofun, nofun, nofun, nofun, nofun⟩⟩

theorem Inv.step (h : s.Inv) {a : Action} (hs' : Wait.step s a = some s') : s'.Inv := by
  by_cases hproc : a = .proc
  · subst a
    exact h.proc hs'
  · by_cases hpass : ∃ cmd, a = .pass cmd
    · obtain ⟨cmd, rfl⟩ := hpass
      exact h.pass hs'
    · exact (Env.of_step hproc (fun cmd heq => hpass ⟨cmd, heq⟩) hs').inv h

/-! ## What follows -/

/-- Nobody is on the way to a process that sleeps, and it has missed nothing. -/
theorem Inv.rests (h : s.Inv) (hpc : s.pc = .asleep) (hrunning : s.running = false)
    (hquiet : s.Quiet) : s.Rests := by
  have hhere := h.here
  rw [hpc] at hhere
  obtain ⟨hl, -, ha, hx, hu, hv, hg⟩ := hhere
  have hnobody : ¬ s.Coming := by
    rintro (hawake | ⟨w, hw, -⟩)
    · exact absurd (hrunning.symm.trans hawake) (by rintro ⟨⟩)
    · rw [hquiet.walkers] at hw
      exact absurd hw List.not_mem_nil
  exact
    { called := by
        by_contra hcalled
        exact hnobody (hl.called (eq_true_of_ne_false hcalled))
      signal := by
        by_contra hsignal
        rcases hg (eq_true_of_ne_false hsignal) with hawake | hwakes
        · exact absurd (hrunning.symm.trans hawake) (by rintro ⟨⟩)
        · exact hwakes hquiet.signal
      timer := fun hdone => absurd (hrunning.symm.trans (ha hdone)) (by rintro ⟨⟩)
      indexes := fun hwrapped => ⟨(hx hwrapped).resolve_right hnobody,
        (hu hwrapped).resolve_right hnobody, (hv hwrapped).resolve_right hnobody⟩ }

theorem Inv.safe (h : s.Inv) : s.Safe := by
  have hreturned : ∀ status, s.pc = .returned status →
      s.Sourced status ∧ s.Off ∧ s.membership = .after := by
    intro status hpc
    have hhere := h.here
    rwa [hpc] at hhere
  refine ⟨h.rests, fun status hpc => ⟨(hreturned status hpc).2.2, (hreturned status hpc).2.1⟩,
    fun status hpc => (hreturned status hpc).1, ?_⟩
  rintro status waitintr jiffies hpc (hdate | rfl | rfl | hintr)
  · exact .inl hdate
  · rcases (hreturned _ hpc).1 with hexpired | hposted
    · exact .inr (.inl hexpired)
    · exact .inr (.inr (.inl hposted))
  · exact .inr (.inr (.inr (.inl (hreturned _ hpc).1)))
  · exact .inr (.inr (.inr (.inr hintr)))

end State

/-- In every interleaving, a process that waits has missed nothing while it sleeps with nobody on
the way to wake it, and has its waiter removed, its timer off and a status with a source when the
call returns. -/
theorem sleeping_wait (as : List Action) (s : State)
    (h : machine.exec machine.init as = some s) : s.Safe :=
  (Machine.exec_invariant (fun _ _ _ hinv hs => hinv.step hs) State.Inv.init h).safe

/-- The process falls asleep with 100 jiffies to go. -/
def fallAsleep : List Action := .pass ⟨0, 0, 0, 100, 0⟩ :: List.replicate 10 .proc

/-- An event wakes it. -/
theorem sleeping_wait_event :
    ((machine.exec machine.init (fallAsleep ++
      [.notifyExp, .startWalk 0, .visit 0, .wake 0] ++ List.replicate 6 .proc)).get rfl).Safe :=
  sleeping_wait _ _ (Option.some_get rfl).symm

/-- A wakeup command wakes it: the status is not one of those for the date of the application, an
event or a signal, and `omx__wait` reports a timeout before that date. -/
theorem early_wakeup :
    ∃ s, machine.exec machine.init (fallAsleep ++
        [.wakeup .wakeup, .startWalk 0, .visit 0, .wake 0] ++ List.replicate 6 .proc) = some s ∧
      s.pc = .returned .wakeup ∧ ¬ s.Expired s.cmd.jiffiesExpire ∧
      reportsTimeout false s.jiffies s.cmd.jiffiesExpire .wakeup := by
  refine ⟨_, rfl, rfl, ?_, .inr (.inr (.inl rfl))⟩
  rintro ⟨now, -, hnow, hdate⟩
  cases Nat.le_zero.1 hnow
  exact absurd hdate (by decide)

end Xen2mx.Wait
