import Mathlib.Logic.Function.Basic
import Mathlib.Tactic.Cases

/-!
# The mark lock

`GC_acquire_mark_lock` and `GC_release_mark_lock` of PARALLEL_MARK builds: a mutex
made of `InterlockedExchange` on `GC_mark_mutex_state` (0 unlocked, 1 locked, -1
locked with possible waiters) and the auto-reset event `mark_mutex_event`, with the
`GC_mark_lock_holder` assertions of GC_ASSERTIONS builds. A thread runs the routines
one shared access at a time, and any number of threads interleave. A thread starts
an acquire only when it does not hold the lock and a release only when it does.
Over every interleaving the lock is a mutex (`MarkInv`), and a thread sleeping on the
event is always owed a signal by another thread (`WakeInv`).
-/

namespace Win32GcThreads

/-- Where a thread is in the two routines. -/
inductive MarkPc where
  /-- Outside both routines, not holding the lock. -/
  | idle
  /-- `GC_ASSERT(GC_mark_lock_holder != GetCurrentThreadId())`. -/
  | checkNotHolder
  /-- The first `InterlockedExchange(&GC_mark_mutex_state, 1)`. -/
  | fastExchange
  /-- `InterlockedExchange(&GC_mark_mutex_state, -1)` of the wait loop. -/
  | slowExchange
  /-- `WaitForSingleObject(mark_mutex_event, INFINITE)`. -/
  | waitEvent
  /-- `GC_ASSERT(GC_mark_lock_holder == NO_THREAD)`. -/
  | checkNoHolder
  /-- `SET_MARK_LOCK_HOLDER`. -/
  | setHolder
  /-- Between the two routines, holding the lock. -/
  | holding
  /-- The `GC_ASSERT` of `UNSET_MARK_LOCK_HOLDER`. -/
  | checkHolder
  /-- `GC_mark_lock_holder = NO_THREAD`. -/
  | unsetHolder
  /-- `InterlockedExchange(&GC_mark_mutex_state, 0)`. -/
  | releaseExchange
  /-- `SetEvent(mark_mutex_event)`. -/
  | setEvent
  /-- A `GC_ASSERT` failed. -/
  | assertFailed
  deriving DecidableEq, Repr

namespace MarkPc

/-- The thread holds the lock: from the exchange that returned 0 to the exchange of
its release. -/
def holds : MarkPc → Bool
  | checkNoHolder | setHolder | holding | checkHolder | unsetHolder | releaseExchange => true
  | _ => false

/-- The thread has stored its id in `GC_mark_lock_holder` and not yet cleared it. -/
def recorded : MarkPc → Bool
  | holding | checkHolder | unsetHolder => true
  | _ => false

theorem holds_of_recorded {p : MarkPc} (h : p.recorded = true) : p.holds = true := by
  cases p <;> simp_all [recorded, holds]

end MarkPc

/-- The shared variables and every thread's place; thread `t` has id `t`. -/
structure MarkState where
  /-- `GC_mark_mutex_state`. -/
  state : Int
  /-- `mark_mutex_event` is signalled. -/
  event : Bool
  /-- `GC_mark_lock_holder`, `none` for `NO_THREAD`. -/
  holder : Option Nat
  /-- Each thread's place in the routines. -/
  pc : Nat → MarkPc

/-- No thread in the routines, the lock free. -/
def MarkState.init : MarkState := ⟨0, false, none, fun _ => .idle⟩

/-- Thread `t` moves to `p`. -/
def MarkState.moveTo (s : MarkState) (t : Nat) (p : MarkPc) : MarkState :=
  { s with pc := Function.update s.pc t p }

@[simp] theorem MarkState.moveTo_pc (s : MarkState) (t : Nat) (p : MarkPc) (u : Nat) :
    (s.moveTo t p).pc u = if u = t then p else s.pc u := by
  simp [moveTo, Function.update_apply]

@[simp] theorem MarkState.moveTo_state (s : MarkState) (t : Nat) (p : MarkPc) :
    (s.moveTo t p).state = s.state := rfl

@[simp] theorem MarkState.moveTo_holder (s : MarkState) (t : Nat) (p : MarkPc) :
    (s.moveTo t p).holder = s.holder := rfl

@[simp] theorem MarkState.moveTo_event (s : MarkState) (t : Nat) (p : MarkPc) :
    (s.moveTo t p).event = s.event := rfl

/-- One shared access by thread `t`; `none` while it waits on the event or after a
failed assertion. -/
def markStep (s : MarkState) (t : Nat) : Option MarkState :=
  match s.pc t with
  | .idle => some (s.moveTo t .checkNotHolder)
  | .checkNotHolder =>
    some (s.moveTo t (if s.holder != some t then .fastExchange else .assertFailed))
  | .fastExchange =>
    some ({ s with state := 1 }.moveTo t (if s.state != 0 then .slowExchange else .checkNoHolder))
  | .slowExchange =>
    some ({ s with state := -1 }.moveTo t (if s.state != 0 then .waitEvent else .checkNoHolder))
  | .waitEvent => if s.event then some ({ s with event := false }.moveTo t .slowExchange) else none
  | .checkNoHolder =>
    some (s.moveTo t (if s.holder == none then .setHolder else .assertFailed))
  | .setHolder => some ({ s with holder := some t }.moveTo t .holding)
  | .holding => some (s.moveTo t .checkHolder)
  | .checkHolder =>
    some (s.moveTo t (if s.holder == some t then .unsetHolder else .assertFailed))
  | .unsetHolder => some ({ s with holder := none }.moveTo t .releaseExchange)
  | .releaseExchange =>
    some ({ s with state := 0 }.moveTo t (if s.state < 0 then .setEvent else .idle))
  | .setEvent => some ({ s with event := true }.moveTo t .idle)
  | .assertFailed => none

/-- The states some interleaving reaches. -/
inductive MarkReachable : MarkState → Prop
  | init : MarkReachable MarkState.init
  | step {s s' : MarkState} (t : Nat) : MarkReachable s → markStep s t = some s' →
      MarkReachable s'

/-- Threads step in the order of the list. -/
def markRun (s : MarkState) : List Nat → Option MarkState
  | [] => some s
  | t :: ts => (markStep s t).bind fun s' => markRun s' ts

theorem markRun_reachable {s s' : MarkState} (hs : MarkReachable s) :
    ∀ (ts : List Nat), markRun s ts = some s' → MarkReachable s'
  | [], h => by cases h; exact hs
  | t :: ts, h => by
    obtain ⟨s₁, h₁, h₂⟩ := Option.bind_eq_some.mp h
    exact markRun_reachable (.step t hs h₁) ts h₂

/-- The invariant, with `owner` the thread that holds the lock. -/
structure MarkInv (s : MarkState) (owner : Option Nat) : Prop where
  holds_iff : ∀ t, (s.pc t).holds = true ↔ owner = some t
  locked : owner.isSome → s.state ≠ 0
  holder_iff : ∀ t, s.holder = some t ↔ (s.pc t).recorded = true
  no_fail : ∀ t, s.pc t ≠ .assertFailed

theorem markInv_init : MarkInv MarkState.init none :=
  ⟨fun _ => by simp [MarkState.init, MarkPc.holds], by simp,
    fun _ => by simp [MarkState.init, MarkPc.recorded], fun _ => by simp [MarkState.init]⟩

/-- The abstract mutex the routines implement: a step of thread `t` leaves the owner,
takes the free lock, or gives back the lock `t` owns. -/
inductive MutexStep : Option Nat → Nat → Option Nat → Prop
  | stay (o : Option Nat) (t : Nat) : MutexStep o t o
  | acquire (t : Nat) : MutexStep none t (some t)
  | release (t : Nat) : MutexStep (some t) t none

section Step

variable {s : MarkState} {owner : Option Nat} {t : Nat}

/-- With a holder recorded, the holder is the owner. -/
theorem MarkInv.holder_owner (hi : MarkInv s owner) {u : Nat} (hu : s.holder = some u) :
    owner = some u :=
  (hi.holds_iff u).mp (MarkPc.holds_of_recorded ((hi.holder_iff u).mp hu))

/-- A step of thread `t` to `q` that sets the shared variables to `st`, `ev`, `hd`
keeps the invariant, with owner `owner'`, when ownership and the recorded holder
change at `t` only and as `q` says. -/
theorem MarkInv.update (hi : MarkInv s owner) {st : Int} {ev : Bool} {hd : Option Nat}
    {q : MarkPc} {owner' : Option Nat}
    (h_own : ∀ u, owner' = some u ↔ if u = t then q.holds = true else owner = some u)
    (h_lock : owner'.isSome → st ≠ 0)
    (h_hd : ∀ u, hd = some u ↔ if u = t then q.recorded = true else s.holder = some u)
    (hq : q ≠ .assertFailed) :
    MarkInv ((⟨st, ev, hd, s.pc⟩ : MarkState).moveTo t q) owner' := by
  refine ⟨fun u => ?_, h_lock, fun u => ?_, fun u => ?_⟩ <;> by_cases hu : u = t
  · simp [hu, h_own]
  · simp [hu, h_own, hi.holds_iff]
  · simp [hu, h_hd]
  · simp [hu, h_hd, hi.holder_iff]
  · simpa [hu] using hq
  · simpa [hu] using hi.no_fail u

/-- The owner stays when the step keeps `t` on the same side of the lock. -/
theorem MarkInv.same_owner (hi : MarkInv s owner) {q : MarkPc}
    (hq : q.holds = (s.pc t).holds) (u : Nat) :
    owner = some u ↔ if u = t then q.holds = true else owner = some u := by
  split_ifs with hu
  · rw [hq, hi.holds_iff, hu]
  · rfl

/-- The recorded holder stays when the step keeps `t` recorded or not. -/
theorem MarkInv.same_holder (hi : MarkInv s owner) {q : MarkPc}
    (hq : q.recorded = (s.pc t).recorded) (u : Nat) :
    s.holder = some u ↔ if u = t then q.recorded = true else s.holder = some u := by
  split_ifs with hu
  · rw [hq, hi.holder_iff, hu]
  · rfl

/-- A thread that holds the lock is the owner. -/
theorem MarkInv.owner_eq (hi : MarkInv s owner) (h : (s.pc t).holds = true) : owner = some t :=
  (hi.holds_iff t).mp h

/-- The exchange of an acquire that returned 0: nobody owned the lock, and `t`
becomes the owner. -/
theorem MarkInv.acquire (hi : MarkInv s owner) (h0 : s.state = 0) (ht : (s.pc t).holds = false)
    {st : Int} (hst : st ≠ 0) :
    MarkInv ((⟨st, s.event, s.holder, s.pc⟩ : MarkState).moveTo t .checkNoHolder) (some t) ∧
      MutexStep owner t (some t) := by
  have hno : owner = none := Option.not_isSome_iff_eq_none.mp fun ho => hi.locked ho h0
  refine ⟨?_, hno ▸ .acquire t⟩
  refine hi.update (fun u => ?_) (fun _ => hst) (fun u => ?_) (by simp)
  · split_ifs with hu
    · simp [hu, MarkPc.holds]
    · simp [hno, Ne.symm hu]
  · split_ifs with hu
    · subst hu
      exact iff_of_false (fun he => by simp [hi.holder_owner he] at hno) (by simp [MarkPc.recorded])
    · rfl

/-- The exchange of an acquire by a thread without the lock, writing `st ≠ 0`: it takes
the lock if the lock was free, and otherwise moves to `q`, still without it. -/
theorem MarkInv.exchange (hi : MarkInv s owner) (ht : (s.pc t).holds = false)
    (hr : (s.pc t).recorded = false) {st : Int} (hst : st ≠ 0) {q : MarkPc}
    (hq : q.holds = false) (hqr : q.recorded = false) (hqf : q ≠ .assertFailed) :
    ∃ owner', MarkInv ((⟨st, s.event, s.holder, s.pc⟩ : MarkState).moveTo t
      (if s.state != 0 then q else .checkNoHolder)) owner' ∧ MutexStep owner t owner' := by
  by_cases h0 : s.state = 0
  · simp only [h0, bne_self_eq_false, Bool.false_eq_true, ↓reduceIte]
    exact ⟨some t, hi.acquire h0 ht hst⟩
  · simp only [bne_iff_ne, ne_eq, h0, not_false_eq_true, ↓reduceIte]
    exact ⟨owner, hi.update (hi.same_owner (hq.trans ht.symm)) (fun _ => hst)
      (hi.same_holder (hqr.trans hr.symm)) hqf, .stay _ _⟩

/-- The exchange of a release: `t` stops owning the lock. -/
theorem MarkInv.release (hi : MarkInv s owner) (ht : s.pc t = .releaseExchange) {q : MarkPc}
    (hq : q.holds = false) (hr : q.recorded = false) (hf : q ≠ .assertFailed) {ev : Bool} :
    MarkInv ((⟨0, ev, s.holder, s.pc⟩ : MarkState).moveTo t q) none ∧ MutexStep owner t none := by
  have ho : owner = some t := hi.owner_eq (by simp [ht, MarkPc.holds])
  refine ⟨?_, ho ▸ .release t⟩
  refine hi.update (fun u => ?_) (by simp) (fun u => ?_) hf
  · split_ifs with hu <;> simp [hq, ho, Ne.symm, hu]
  · split_ifs with hu
    · rw [hi.holder_iff, hu, ht, hr]; rfl
    · rfl

/-- One step keeps the invariant, and moves the owner as the abstract mutex does. -/
theorem MarkInv.step (hi : MarkInv s owner) {s' : MarkState} (h : markStep s t = some s') :
    ∃ owner', MarkInv s' owner' ∧ MutexStep owner t owner' := by
  /- The steps that keep `t` on its side of the lock and the holder where it is. -/
  have keep : ∀ {p q : MarkPc} {ev : Bool}, s.pc t = p → q.holds = p.holds →
      q.recorded = p.recorded → q ≠ .assertFailed →
      ∃ owner', MarkInv ((⟨s.state, ev, s.holder, s.pc⟩ : MarkState).moveTo t q) owner' ∧
        MutexStep owner t owner' := fun hp hh hr hf =>
    ⟨owner, hi.update (hi.same_owner (hp ▸ hh)) hi.locked (hi.same_holder (hp ▸ hr)) hf, .stay _ _⟩
  have hnr : ∀ {p : MarkPc}, s.pc t = p → p.recorded = false → s.holder ≠ some t :=
    fun hp hr he => absurd ((hi.holder_iff t).mp he) (by rw [hp, hr]; decide)
  unfold markStep at h
  split at h <;> rename_i hpc
  · obtain rfl := Option.some.inj h
    exact keep hpc rfl rfl (by decide)
  · obtain rfl := Option.some.inj h
    have hne := hnr hpc rfl
    exact keep hpc (by simp [hne, MarkPc.holds]) (by simp [hne, MarkPc.recorded]) (by simp [hne])
  · obtain rfl := Option.some.inj h
    exact hi.exchange (by simp [hpc, MarkPc.holds]) (by simp [hpc, MarkPc.recorded]) (by decide)
      rfl rfl (by simp)
  · obtain rfl := Option.some.inj h
    exact hi.exchange (by simp [hpc, MarkPc.holds]) (by simp [hpc, MarkPc.recorded]) (by decide)
      rfl rfl (by simp)
  · split at h
    · obtain rfl := Option.some.inj h
      exact keep hpc rfl rfl (by decide)
    · cases h
  · obtain rfl := Option.some.inj h
    have ho : owner = some t := hi.owner_eq (by simp [hpc, MarkPc.holds])
    have hnone : s.holder = none := by
      cases hh : s.holder with
      | none => rfl
      | some u =>
        obtain rfl : t = u := Option.some.inj (ho.symm.trans (hi.holder_owner hh))
        exact absurd hh (hnr hpc rfl)
    exact keep hpc (by simp [hnone, MarkPc.holds]) (by simp [hnone, MarkPc.recorded]) (by simp [hnone])
  · obtain rfl := Option.some.inj h
    have ho : owner = some t := hi.owner_eq (by simp [hpc, MarkPc.holds])
    refine ⟨owner, hi.update (hi.same_owner (by simp [hpc, MarkPc.holds])) hi.locked
      (fun u => ?_) (by simp), .stay _ _⟩
    split_ifs with hu
    · simp [hu, MarkPc.recorded]
    · exact iff_of_false (by simp [Ne.symm hu]) fun hh => hu (Option.some.inj ((hi.holder_owner hh).symm.trans ho))
  · obtain rfl := Option.some.inj h
    exact keep hpc rfl rfl (by decide)
  · obtain rfl := Option.some.inj h
    have hh : s.holder = some t := (hi.holder_iff t).mpr (by simp [hpc, MarkPc.recorded])
    exact keep hpc (by simp [hh, MarkPc.holds]) (by simp [hh, MarkPc.recorded]) (by simp [hh])
  · obtain rfl := Option.some.inj h
    have ho : owner = some t := hi.owner_eq (by simp [hpc, MarkPc.holds])
    refine ⟨owner, hi.update (hi.same_owner (by simp [hpc, MarkPc.holds])) hi.locked
      (fun u => ?_) (by simp), .stay _ _⟩
    split_ifs with hu
    · simp [MarkPc.recorded]
    · exact iff_of_false (by simp) fun hh => hu (Option.some.inj ((hi.holder_owner hh).symm.trans ho))
  · obtain rfl := Option.some.inj h
    split_ifs
    all_goals exact ⟨none, hi.release hpc (by rfl) (by rfl) (by simp)⟩
  · obtain rfl := Option.some.inj h
    exact keep hpc rfl rfl (by decide)
  · cases h

end Step

theorem MarkReachable.inv {s : MarkState} (hr : MarkReachable s) : ∃ owner, MarkInv s owner := by
  induction hr with
  | init => exact ⟨none, markInv_init⟩
  | step t _ h ih => obtain ⟨_, hi⟩ := ih; exact (hi.step h).imp fun _ => And.left

/-- At most one thread holds the mark lock, `GC_mark_mutex_state` is nonzero while
one does, and no `GC_mark_lock_holder` assertion has failed. -/
def MarkLockSafe (s : MarkState) : Prop :=
  (∀ t u, (s.pc t).holds = true → (s.pc u).holds = true → t = u) ∧
    (∀ t, (s.pc t).holds = true → s.state ≠ 0) ∧ ∀ t, s.pc t ≠ .assertFailed

/-- Every interleaving of acquires and releases keeps the mark lock safe. -/
theorem markLock_mutualExclusion {s : MarkState} (hr : MarkReachable s) : MarkLockSafe s := by
  obtain ⟨owner, hi⟩ := hr.inv
  refine ⟨fun t u ht hu => ?_, fun t ht => hi.locked (by simp [hi.owner_eq ht]), hi.no_fail⟩
  exact Option.some.inj ((hi.owner_eq ht).symm.trans (hi.owner_eq hu))

/-- Thread 1 takes the lock, thread 2 finds it taken and waits on the event, thread 1
releases and signals, and thread 2 takes the lock. -/
def markHandoff : List Nat := [1, 1, 1, 1, 1, 2, 2, 2, 2, 1, 1, 1, 1, 1, 2, 2, 2, 2]

theorem markLock_mutualExclusion_handoff :
    ∃ s, markRun MarkState.init markHandoff = some s ∧ s.pc 2 = .holding ∧ MarkLockSafe s :=
  ⟨_, rfl, rfl, markLock_mutualExclusion (markRun_reachable .init markHandoff rfl)⟩

/-- The routines refine the abstract mutex: from a reachable state, every step moves
the owner as `MutexStep` allows. -/
theorem markStep_refines_mutex {s s' : MarkState} {t : Nat} (hr : MarkReachable s)
    (h : markStep s t = some s') :
    ∃ owner owner', MarkInv s owner ∧ MarkInv s' owner' ∧ MutexStep owner t owner' := by
  obtain ⟨owner, hi⟩ := hr.inv
  obtain ⟨owner', hi', hm⟩ := hi.step h
  exact ⟨owner, owner', hi, hi', hm⟩

section Wakeup

/-! A waiter sleeps on the auto-reset `mark_mutex_event` after its loop exchange wrote -1
and found the lock taken. The event is then owed to it by the lock word still being -1 (the
owner's release will signal), by a contender about to run the loop exchange (which writes
-1 again), or by a release about to signal. -/

/-- A nonzero lock word has an owner. -/
def MarkState.Locked (s : MarkState) : Prop := s.state ≠ 0 → ∃ u, (s.pc u).holds = true

/-- A sleeper on the clear event is owed a signal. -/
def MarkState.WakeOwed (s : MarkState) : Prop :=
  (∃ w, s.pc w = .waitEvent) → s.event = false →
    s.state < 0 ∨ (∃ u, s.pc u = .slowExchange) ∨ ∃ u, s.pc u = .setEvent

/-- The invariant that keeps a wakeup owed to every sleeper. -/
structure WakeInv (s : MarkState) : Prop where
  locked : s.Locked
  owed : s.WakeOwed

theorem wakeInv_init : WakeInv MarkState.init :=
  ⟨fun h => absurd rfl h, fun ⟨_, h⟩ => by simp [MarkState.init] at h⟩

variable {s : MarkState} {t : Nat} {st : Int} {ev : Bool} {hd : Option Nat} {q : MarkPc}

/-- A step of `t` keeps an owner for a nonzero word when it writes a nonzero word only
over one, and keeps `t` holding if it held. -/
theorem MarkState.Locked.move (hl : s.Locked) (hst : st ≠ 0 → s.state ≠ 0)
    (hh : (s.pc t).holds = true → q.holds = true) :
    (MarkState.moveTo ⟨st, ev, hd, s.pc⟩ t q).Locked := fun hs => by
  obtain ⟨u, hu⟩ := hl (hst hs)
  by_cases hut : u = t
  · exact ⟨t, by simpa [← hut] using hh (hut ▸ hu)⟩
  · exact ⟨u, by simpa [hut] using hu⟩

/-- A step of `t` keeps the owed signal when it keeps the event and a negative word, starts
neither at the loop exchange nor at the `SetEvent`, and does not enter the wait. -/
theorem MarkState.WakeOwed.move (ho : s.WakeOwed) (hst : s.state < 0 → st < 0)
    (hp : s.pc t ≠ .slowExchange ∧ s.pc t ≠ .setEvent) (hq : q ≠ .waitEvent) :
    (MarkState.moveTo ⟨st, s.event, hd, s.pc⟩ t q).WakeOwed := fun ⟨w, hw⟩ he => by
  have hwt : w ≠ t := by rintro rfl; simp [hq] at hw
  simp only [MarkState.moveTo_pc, hwt, ↓reduceIte] at hw
  rcases ho ⟨w, hw⟩ he with h | ⟨u, hu⟩ | ⟨u, hu⟩
  · exact .inl (hst h)
  · exact .inr (.inl ⟨u, by simp [show u ≠ t by rintro rfl; exact hp.1 hu, hu]⟩)
  · exact .inr (.inr ⟨u, by simp [show u ≠ t by rintro rfl; exact hp.2 hu, hu]⟩)

/-- A step that keeps the lock word and the event. -/
theorem WakeInv.move (hw : WakeInv s) (hp : s.pc t ≠ .slowExchange ∧ s.pc t ≠ .setEvent)
    (hq : q ≠ .waitEvent) (hh : (s.pc t).holds = true → q.holds = true) :
    WakeInv (MarkState.moveTo ⟨s.state, s.event, hd, s.pc⟩ t q) :=
  ⟨hw.locked.move id hh, hw.owed.move id hp hq⟩

/-- An exchange of an acquire leaves an owner: `t` if the old word was 0, and the old
owner otherwise. -/
theorem MarkState.Locked.exchange (hl : s.Locked) (ht : (s.pc t).holds = false) :
    (MarkState.moveTo ⟨st, ev, hd, s.pc⟩ t
      (if s.state != 0 then q else .checkNoHolder)).Locked := fun _ => by
  by_cases h0 : s.state = 0
  · exact ⟨t, by simp [h0, MarkPc.holds]⟩
  · obtain ⟨u, hu⟩ := hl h0
    exact ⟨u, by simp [show u ≠ t by rintro rfl; simp [hu] at ht, hu]⟩

/-- One step keeps the wakeup invariant. -/
theorem WakeInv.step {owner : Option Nat} (hi : MarkInv s owner) (hw : WakeInv s)
    {s' : MarkState} (h : markStep s t = some s') : WakeInv s' := by
  obtain ⟨_, hi', -⟩ := hi.step h
  have hf := hi'.no_fail t
  unfold markStep at h
  split at h <;> rename_i hpc
  · cases h; exact hw.move (by simp [hpc]) (by decide) (by simp [hpc, MarkPc.holds])
  · cases h; exact hw.move (by simp [hpc]) (by split <;> decide) (by simp [hpc, MarkPc.holds])
  · -- the fast path exchange writes 1
    cases h
    refine ⟨hw.locked.exchange (by simp [hpc, MarkPc.holds]), ?_⟩
    by_cases h0 : s.state = 0
    · exact hw.owed.move (by omega) (by simp [hpc]) (by split <;> decide)
    · exact fun _ _ => .inr (.inl ⟨t, by simp [h0]⟩)
  · -- the loop exchange writes -1
    cases h
    exact ⟨hw.locked.exchange (by simp [hpc, MarkPc.holds]), fun _ _ => .inl (by simp)⟩
  · -- a sleeper woken by the signalled event consumes it and retries the exchange
    split at h
    · cases h
      refine ⟨hw.locked.move id (by simp [hpc, MarkPc.holds]), fun _ _ => .inr (.inl ⟨t, by simp⟩)⟩
    · cases h
  · cases h
    exact hw.move (by simp [hpc]) (by split <;> decide) fun _ => by split <;> simp_all [MarkPc.holds]
  · cases h; exact hw.move (by simp [hpc]) (by decide) (by simp [MarkPc.holds])
  · cases h; exact hw.move (by simp [hpc]) (by decide) (by simp [MarkPc.holds])
  · cases h
    exact hw.move (by simp [hpc]) (by split <;> decide) fun _ => by split <;> simp_all [MarkPc.holds]
  · cases h; exact hw.move (by simp [hpc]) (by decide) (by simp [MarkPc.holds])
  · -- the release exchange writes 0, and signals if the old word was negative
    cases h
    refine ⟨fun h => absurd rfl h, ?_⟩
    by_cases hneg : s.state < 0
    · exact fun _ _ => .inr (.inr ⟨t, by simp [hneg]⟩)
    · exact hw.owed.move (by omega) (by simp [hpc]) (by split <;> decide)
  · cases h
    exact ⟨hw.locked.move id (by simp [hpc, MarkPc.holds]), fun _ he => by simp at he⟩
  · cases h

theorem MarkReachable.wakeInv {s : MarkState} (hr : MarkReachable s) : WakeInv s := by
  induction hr with
  | init => exact wakeInv_init
  | step t hr h ih => exact WakeInv.step hr.inv.choose_spec ih h

/-- No wakeup is lost: while a thread sleeps in `WaitForSingleObject(mark_mutex_event)` on
the clear event, another thread holds the mark lock or is at a step of the two routines
other than that wait. -/
theorem markLock_noLostWakeup {s : MarkState} (hr : MarkReachable s) {t : Nat}
    (ht : s.pc t = .waitEvent) (he : s.event = false) :
    ∃ u, u ≠ t ∧ ((s.pc u).holds = true ∨ (s.pc u ≠ .idle ∧ s.pc u ≠ .waitEvent)) := by
  rcases hr.wakeInv.owed ⟨t, ht⟩ he with h | ⟨u, hu⟩ | ⟨u, hu⟩
  · obtain ⟨u, hu⟩ := hr.wakeInv.locked (by omega)
    exact ⟨u, by rintro rfl; simp [ht, MarkPc.holds] at hu, .inl hu⟩
  · exact ⟨u, by rintro rfl; simp [ht] at hu, .inr (by simp [hu])⟩
  · exact ⟨u, by rintro rfl; simp [ht] at hu, .inr (by simp [hu])⟩

/-- Thread 1 holds the lock and thread 2 sleeps with the word at -1; thread 3's fast
exchange overwrites -1 with 1, so thread 1's release skips `SetEvent`. -/
def markOverwrite : List Nat := [1, 1, 1, 1, 1, 2, 2, 2, 2, 3, 3, 3, 1, 1, 1, 1]

theorem markLock_noLostWakeup_overwrite :
    ∃ s, markRun MarkState.init markOverwrite = some s ∧ s.pc 2 = .waitEvent ∧
      s.event = false ∧ s.pc 1 = .idle ∧ s.pc 3 = .slowExchange ∧
      ∃ u, u ≠ 2 ∧ ((s.pc u).holds = true ∨ (s.pc u ≠ .idle ∧ s.pc u ≠ .waitEvent)) :=
  ⟨_, rfl, rfl, rfl, rfl, rfl,
    markLock_noLostWakeup (markRun_reachable .init markOverwrite rfl) rfl rfl⟩

end Wakeup

/-- Thread 1's exchange on the free lock is an abstract acquire. Thread 2's exchange on the lock
thread 1 then holds is a stutter: the owner stays thread 1, and thread 2 goes on to the loop
exchange. -/
theorem markStep_refines_mutex_contended :
    (∃ s s', markRun MarkState.init [1, 1] = some s ∧ markStep s 1 = some s' ∧
      ∃ owner owner', MarkInv s owner ∧ MarkInv s' owner' ∧ MutexStep owner 1 owner') ∧
    ∃ s s', markRun MarkState.init [1, 1, 1, 1, 1, 2, 2] = some s ∧ markStep s 2 = some s' ∧
      s.pc 2 = .fastExchange ∧ s'.pc 2 = .slowExchange ∧
      ∃ owner owner', MarkInv s owner ∧ MarkInv s' owner' ∧ MutexStep owner 2 owner' ∧
        owner = some 1 ∧ owner' = some 1 := by
  refine ⟨⟨_, _, rfl, rfl, markStep_refines_mutex (markRun_reachable .init [1, 1] rfl) rfl⟩, ?_⟩
  have hr : MarkReachable _ := markRun_reachable .init [1, 1, 1, 1, 1, 2, 2] rfl
  obtain ⟨o, o', hi, hi', hm⟩ := markStep_refines_mutex hr (t := 2) rfl
  exact ⟨_, _, rfl, rfl, rfl, rfl, o, o', hi, hi', hm, hi.owner_eq rfl, hi'.owner_eq rfl⟩

end Win32GcThreads
