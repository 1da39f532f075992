import Mathlib.Logic.Function.Basic
import Mathlib.Tactic.Cases

/-!
# Waiting on the events of parallel marking

`GC_wait_for_reclaim` and `GC_notify_all_builder` emulate a condition variable with the
manual-reset event `builder_cv`; `GC_wait_marker` and `GC_notify_all_marker` give each helper
its own event `GC_marker_cv[i]`, found through `GC_marker_Id`, and the others `mark_cv`. The
mark lock is the abstract mutex the mark-lock module refines; every other step is one Win32
call or one update of shared data, and any number of threads interleave. The reclaim waiter
returns only after reading a zero count and the assertion of `GC_notify_all_builder` holds; a
sleeper is owed a `SetEvent` unless an increment brings a negative count to zero. When a notify
loop completes, every other party past its `ResetEvent` finds its event signalled, although the
notifier sets `mark_cv` in place of its own.
-/

namespace Win32GcThreads

section Owner

variable {P : Type} {lock lock' : Option P} {holds holds' : P → Bool}

/-- The owner of the mark lock is the party at a place that holds it. -/
def LockOwner (lock : Option P) (holds : P → Bool) : Prop :=
  ∀ p, lock = some p ↔ holds p = true

/-- Two parties holding the lock are one. -/
theorem LockOwner.excl (hi : LockOwner lock holds) {p q : P} (hp : holds p = true)
    (hq : holds q = true) : p = q :=
  Option.some.inj (((hi p).mpr hp).symm.trans ((hi q).mpr hq))

/-- A step that keeps the lock and who holds it. -/
theorem LockOwner.keep (hi : LockOwner lock holds) (hl : lock' = lock)
    (hh : ∀ p, holds' p = holds p) : LockOwner lock' holds' := fun p => by
  rw [hl, hh, hi]

/-- A step in which `m` takes the free lock. -/
theorem LockOwner.acquire (hi : LockOwner lock holds) {m : P} (hf : lock = none)
    (hl : lock' = some m) (hm : holds' m = true) (hh : ∀ p ≠ m, holds' p = holds p) :
    LockOwner lock' holds' := fun p => by
  by_cases hp : p = m
  · subst hp; simp [hl, hm]
  · rw [hl, hh p hp, ← hi, hf]; simp [Ne.symm hp]

/-- A step in which the owner `m` frees the lock. -/
theorem LockOwner.release (hi : LockOwner lock holds) {m : P} (ho : holds m = true)
    (hl : lock' = none) (hm : holds' m = false) (hh : ∀ p ≠ m, holds' p = holds p) :
    LockOwner lock' holds' := fun p => by
  by_cases hp : p = m
  · subst hp; simp [hl, hm]
  · rw [hl, hh p hp]
    exact iff_of_false (by simp) fun h => hp (hi.excl h ho)

end Owner

section Reclaim

/-- Where the thread in `GC_wait_for_reclaim` is. -/
inductive ReclaimPc where
  /-- Outside the routine. -/
  | idle
  /-- `GC_acquire_mark_lock()` at the top of the loop. -/
  | acquire
  /-- `if (GC_fl_builder_count == 0) break;` -/
  | check
  /-- `ResetEvent(builder_cv)`. -/
  | reset
  /-- `GC_release_mark_lock()` before the wait. -/
  | release
  /-- `WaitForSingleObject(builder_cv, INFINITE)`. -/
  | wait
  /-- `GC_release_mark_lock()` after the loop. -/
  | releaseDone
  deriving DecidableEq, Repr

/-- Where a builder is: a thread that changes `GC_fl_builder_count` under the mark lock,
such as `GC_mark_thread` at start-up or a free-list builder. -/
inductive BuilderPc where
  /-- Outside the mark lock. -/
  | idle
  /-- `GC_acquire_mark_lock()`. -/
  | acquire
  /-- Holding the lock, about to change the count. -/
  | locked
  /-- `GC_notify_all_builder()`: its `GC_ASSERT`s and `SetEvent(builder_cv)`. -/
  | notify
  /-- `GC_release_mark_lock()`. -/
  | release
  /-- A `GC_ASSERT` of `GC_notify_all_builder` failed. -/
  | assertFailed
  deriving DecidableEq, Repr

/-- The places that hold the mark lock. -/
def ReclaimPc.holds : ReclaimPc → Bool
  | .check | .reset | .release | .releaseDone => true
  | _ => false

/-- The places that hold the mark lock. -/
def BuilderPc.holds : BuilderPc → Bool
  | .locked | .notify | .release => true
  | _ => false

/-- A party: the waiter, or builder `i`. -/
inductive ReclaimParty where
  | waiter
  | builder (i : Nat)
  deriving DecidableEq, Repr

/-- The shared variables and every party's place. -/
structure ReclaimState where
  /-- `GC_fl_builder_count`. -/
  count : Int
  /-- `builder_cv` is signalled. -/
  event : Bool
  /-- The owner of the mark lock. -/
  lock : Option ReclaimParty
  /-- The waiter's place. -/
  waiter : ReclaimPc
  /-- Each builder's place. -/
  builder : Nat → BuilderPc

namespace ReclaimState

/-- Count zero (asserted by `GC_start_mark_threads_inner`), the event clear (as
`GC_thr_init` creates it), the lock free, nobody in a routine. -/
def init : ReclaimState := ⟨0, false, none, .idle, fun _ => .idle⟩

/-- Builder `i` moves to `q`. -/
def moveBuilder (s : ReclaimState) (i : Nat) (q : BuilderPc) : ReclaimState :=
  { s with builder := Function.update s.builder i q }

/-- Whether a party is at a place holding the lock. -/
def holds (s : ReclaimState) : ReclaimParty → Bool
  | .waiter => s.waiter.holds
  | .builder i => (s.builder i).holds

@[simp] theorem moveBuilder_builder (s : ReclaimState) (i : Nat) (q : BuilderPc) (j : Nat) :
    (s.moveBuilder i q).builder j = if j = i then q else s.builder j := by
  simp [moveBuilder, Function.update_apply]

@[simp] theorem moveBuilder_count (s : ReclaimState) (i q) : (s.moveBuilder i q).count = s.count := rfl
@[simp] theorem moveBuilder_event (s : ReclaimState) (i q) : (s.moveBuilder i q).event = s.event := rfl
@[simp] theorem moveBuilder_lock (s : ReclaimState) (i q) : (s.moveBuilder i q).lock = s.lock := rfl
@[simp] theorem moveBuilder_waiter (s : ReclaimState) (i q) :
    (s.moveBuilder i q).waiter = s.waiter := rfl

end ReclaimState

/-- One step of one party; `add` and `decrement` are a builder's change of the count
while it holds the lock. -/
inductive ReclaimAct where
  | waiter
  | builder (i : Nat)
  /-- `GC_fl_builder_count += k`. -/
  | add (i k : Nat)
  /-- `if (0 == --GC_fl_builder_count) GC_notify_all_builder();` -/
  | decrement (i : Nat)

/-- One step; `none` while the party waits for the lock or the event, or after a failed
assertion. -/
def reclaimStep (s : ReclaimState) : ReclaimAct → Option ReclaimState
  | .waiter =>
    match s.waiter with
    | .idle => some { s with waiter := .acquire }
    | .acquire => if s.lock = none then some { s with lock := some .waiter, waiter := .check } else none
    | .check => some { s with waiter := if s.count = 0 then .releaseDone else .reset }
    | .reset => some { s with event := false, waiter := .release }
    | .release => some { s with lock := none, waiter := .wait }
    | .wait => if s.event then some { s with waiter := .acquire } else none
    | .releaseDone => some { s with lock := none, waiter := .idle }
  | .builder i =>
    match s.builder i with
    | .idle => some (s.moveBuilder i .acquire)
    | .acquire =>
      if s.lock = none then some ({ s with lock := some (.builder i) }.moveBuilder i .locked) else none
    | .notify =>
      if s.lock = some (.builder i) ∧ s.count = 0 then some ({ s with event := true }.moveBuilder i .release)
      else some (s.moveBuilder i .assertFailed)
    | .release => some ({ s with lock := none }.moveBuilder i .idle)
    | .locked | .assertFailed => none
  | .add i k =>
    if s.builder i = .locked then some ({ s with count := s.count + k }.moveBuilder i .release) else none
  | .decrement i =>
    if s.builder i = .locked then
      some ({ s with count := s.count - 1 }.moveBuilder i (if s.count - 1 = 0 then .notify else .release))
    else none

/-- No increment brings the count to zero while the waiter is in the routine. -/
def ReclaimAct.NoZeroAdd (s : ReclaimState) : ReclaimAct → Prop
  | .add _ k => s.waiter = .idle ∨ s.count + k ≠ 0
  | _ => True

/-- The states some interleaving reaches; with `guarded`, only through steps that respect
`NoZeroAdd`. -/
inductive ReclaimReachable (guarded : Bool) : ReclaimState → Prop
  | init : ReclaimReachable guarded ReclaimState.init
  | step {s s' : ReclaimState} {a : ReclaimAct} : ReclaimReachable guarded s →
      (guarded = true → a.NoZeroAdd s) → reclaimStep s a = some s' → ReclaimReachable guarded s'

instance (s : ReclaimState) (a : ReclaimAct) : Decidable (a.NoZeroAdd s) :=
  match a with
  | .add _ k => inferInstanceAs (Decidable (s.waiter = .idle ∨ s.count + k ≠ 0))
  | .waiter | .builder _ | .decrement _ => isTrue trivial

/-- Run actions in order; with `guarded`, stop at an action that breaks `NoZeroAdd`. -/
def reclaimRun (guarded : Bool) (s : ReclaimState) : List ReclaimAct → Option ReclaimState
  | [] => some s
  | a :: as =>
    if guarded = true → a.NoZeroAdd s then (reclaimStep s a).bind fun s' => reclaimRun guarded s' as
    else none

/-- A run of actions from a reachable state ends in a reachable state. -/
theorem reclaimRun_reachable {g : Bool} {s s' : ReclaimState} (hs : ReclaimReachable g s) :
    ∀ (as : List ReclaimAct), reclaimRun g s as = some s' → ReclaimReachable g s'
  | [], h => by cases h; exact hs
  | a :: as, h => by
    simp only [reclaimRun] at h
    split at h
    · obtain ⟨s₁, h₁, h₂⟩ := Option.bind_eq_some.mp h
      exact reclaimRun_reachable (.step hs ‹_› h₁) as h₂
    · cases h

/-- The invariant of every interleaving. -/
structure ReclaimInv (s : ReclaimState) : Prop where
  /-- The lock's owner is the party at a place holding it. -/
  lock_iff : LockOwner s.lock s.holds
  /-- The waiter read a nonzero count, which nobody changes while it holds the lock. -/
  read : s.waiter = .reset ∨ s.waiter = .release → s.count ≠ 0
  /-- The waiter about to return read zero. -/
  done : s.waiter = .releaseDone → s.count = 0
  /-- A builder in `GC_notify_all_builder` brought the count to zero. -/
  notify : ∀ i, s.builder i = .notify → s.count = 0
  /-- No assertion has failed. -/
  no_fail : ∀ i, s.builder i ≠ .assertFailed

/-- A waiter past its `ResetEvent` with the event clear is owed a wakeup: the count it read
is still nonzero, or a builder is about to `SetEvent`. -/
def ReclaimState.Owed (s : ReclaimState) : Prop :=
  s.waiter = .release ∨ s.waiter = .wait → s.event = false →
    s.count ≠ 0 ∨ ∃ i, s.builder i = .notify

/-- The initial state satisfies the invariant. -/
theorem reclaimInv_init : ReclaimInv ReclaimState.init :=
  ⟨fun p => by cases p <;> simp [ReclaimState.init, ReclaimState.holds, ReclaimPc.holds,
    BuilderPc.holds], by simp [ReclaimState.init], by simp [ReclaimState.init],
    by simp [ReclaimState.init], by simp [ReclaimState.init]⟩

section Step

variable {s s' : ReclaimState}

/-- While builder `i` holds the lock, the waiter is not between its check and its release. -/
theorem ReclaimInv.waiter_out (hi : ReclaimInv s) {i : Nat} (h : (s.builder i).holds = true) :
    s.waiter.holds = false := by
  by_contra hw
  exact absurd (hi.lock_iff.excl (p := .waiter) (q := .builder i) (by simpa using hw) h) (by simp)

@[simp] theorem ReclaimState.holds_waiter (s : ReclaimState) : s.holds .waiter = s.waiter.holds :=
  rfl

@[simp] theorem ReclaimState.holds_builder (s : ReclaimState) (i : Nat) :
    s.holds (.builder i) = (s.builder i).holds := rfl

/-- Moving builder `i` changes nothing that another party holds. -/
theorem ReclaimState.holds_moveBuilder_ne (s : ReclaimState) {i : Nat} {q : BuilderPc}
    {p : ReclaimParty} (hp : p ≠ .builder i) : (s.moveBuilder i q).holds p = s.holds p := by
  cases p with
  | waiter => rfl
  | builder j => simp [show j ≠ i by rintro rfl; exact hp rfl]

/-- A builder that moves between places of equal hold changes nobody's hold. -/
theorem ReclaimState.holds_moveBuilder_same (s : ReclaimState) {i : Nat} {q : BuilderPc}
    (hq : q.holds = (s.builder i).holds) (p : ReclaimParty) :
    (s.moveBuilder i q).holds p = s.holds p := by
  cases p with
  | waiter => rfl
  | builder j => by_cases hj : j = i <;> simp [hj, hq]

/-- If every builder at `notify` sees a zero count, and builder `i` moves to `notify` only at a zero
count, the same holds after the move. -/
theorem ReclaimState.moveBuilder_notify {t : ReclaimState} {i : Nat} {q : BuilderPc}
    (hn : ∀ j, j ≠ i → t.builder j = .notify → t.count = 0) (hq : q = .notify → t.count = 0) :
    ∀ j, (t.moveBuilder i q).builder j = .notify → (t.moveBuilder i q).count = 0 := fun j => by
  simp only [moveBuilder_builder, moveBuilder_count]
  split_ifs with hj
  exacts [hq, hn j hj]

/-- A move that does not fail the assertion keeps every builder off the failed assertion. -/
theorem ReclaimState.moveBuilder_no_fail {t : ReclaimState} {i : Nat} {q : BuilderPc}
    (hn : ∀ j, t.builder j ≠ .assertFailed) (hq : q ≠ .assertFailed) :
    ∀ j, (t.moveBuilder i q).builder j ≠ .assertFailed := fun j => by
  simp only [moveBuilder_builder]
  split_ifs
  exacts [hq, hn j]

/-- While builder `i` is about to change the count, no builder is notifying. -/
theorem ReclaimInv.no_notify (hi : ReclaimInv s) {i : Nat} (hb : s.builder i = .locked) (j : Nat) :
    s.builder j ≠ .notify := fun hj => by
  have := hi.lock_iff.excl (p := .builder i) (q := .builder j) (by simp [hb, BuilderPc.holds])
    (by simp [hj, BuilderPc.holds])
  cases this
  simp [hb] at hj

/-- While builder `i` holds the lock, the waiter is neither past its check nor about to
return. -/
theorem ReclaimInv.waiter_free (hi : ReclaimInv s) {i : Nat} (h : (s.builder i).holds = true) :
    s.waiter ≠ .reset ∧ s.waiter ≠ .release ∧ s.waiter ≠ .releaseDone := by
  have hw := hi.waiter_out h
  refine ⟨?_, ?_, ?_⟩ <;> rintro h' <;> simp [h', ReclaimPc.holds] at hw

/-- A builder's move to a place other than `notify` and `assertFailed`, from a state that
differs from `s` at most in the lock and the event, keeps the invariant once the lock's owner
is settled. -/
theorem ReclaimInv.moveBuilder_quiet (hi : ReclaimInv s) {t : ReclaimState} {i : Nat}
    {q : BuilderPc} (hlock : LockOwner (t.moveBuilder i q).lock (t.moveBuilder i q).holds)
    (hw : t.waiter = s.waiter) (hc : t.count = s.count) (hb : t.builder = s.builder)
    (hq : q ≠ .notify ∧ q ≠ .assertFailed) : ReclaimInv (t.moveBuilder i q) :=
  ⟨hlock, by simpa [hw, hc] using hi.read, by simpa [hw, hc] using hi.done,
    ReclaimState.moveBuilder_notify (fun j _ => hb ▸ hc ▸ hi.notify j) (absurd · hq.1),
    ReclaimState.moveBuilder_no_fail (hb ▸ hi.no_fail) hq.2⟩

/-- One step keeps the invariant. -/
theorem ReclaimInv.step (hi : ReclaimInv s) {a : ReclaimAct} (h : reclaimStep s a = some s') :
    ReclaimInv s' := by
  cases a with
  | waiter =>
    simp only [reclaimStep] at h
    split at h <;> rename_i hw
    · cases h
      exact ⟨hi.lock_iff.keep rfl fun p => by cases p <;> simp [hw, ReclaimPc.holds], by simp, by simp,
        hi.notify, hi.no_fail⟩
    · split at h
      · cases h
        exact ⟨hi.lock_iff.acquire ‹_› rfl rfl fun p hp => by cases p; exacts [absurd rfl hp, rfl],
          by simp, by simp, hi.notify, hi.no_fail⟩
      · cases h
    · cases h
      refine ⟨hi.lock_iff.keep rfl fun p => ?_, fun h => ?_, fun h => ?_, hi.notify, hi.no_fail⟩
      · cases p <;> simp [hw, ReclaimPc.holds]; split_ifs <;> rfl
      · simp only at h; split at h <;> simp_all
      · simp only at h; split at h <;> simp_all
    · cases h
      exact ⟨hi.lock_iff.keep rfl fun p => by cases p <;> simp [hw, ReclaimPc.holds],
        fun _ => hi.read (.inl hw), by simp, hi.notify, hi.no_fail⟩
    · cases h
      exact ⟨hi.lock_iff.release (m := .waiter) (by simp [hw, ReclaimPc.holds]) rfl rfl
        fun p hp => by cases p; exacts [absurd rfl hp, rfl], by simp, by simp, hi.notify, hi.no_fail⟩
    · split at h
      · cases h
        exact ⟨hi.lock_iff.keep rfl fun p => by cases p <;> simp [hw, ReclaimPc.holds], by simp, by simp,
          hi.notify, hi.no_fail⟩
      · cases h
    · cases h
      exact ⟨hi.lock_iff.release (m := .waiter) (by simp [hw, ReclaimPc.holds]) rfl rfl
        fun p hp => by cases p; exacts [absurd rfl hp, rfl], by simp, by simp, hi.notify, hi.no_fail⟩
  | builder i =>
    simp only [reclaimStep] at h
    split at h <;> rename_i hb
    · cases h
      exact hi.moveBuilder_quiet
        (hi.lock_iff.keep rfl (s.holds_moveBuilder_same (by simp [hb, BuilderPc.holds])))
        rfl rfl rfl (by decide)
    · split at h
      · cases h
        exact hi.moveBuilder_quiet (hi.lock_iff.acquire ‹_› rfl (by simp [BuilderPc.holds])
          fun p hp => ReclaimState.holds_moveBuilder_ne _ hp) rfl rfl rfl (by decide)
      · cases h
    · split at h
      · cases h
        exact hi.moveBuilder_quiet (hi.lock_iff.keep rfl
          (ReclaimState.holds_moveBuilder_same _ (by simp [hb, BuilderPc.holds]))) rfl rfl rfl
          (by decide)
      · rename_i hn
        exact absurd ⟨(hi.lock_iff _).mpr (by simp [hb, BuilderPc.holds]), hi.notify i hb⟩ hn
    · cases h
      exact hi.moveBuilder_quiet (hi.lock_iff.release (m := .builder i)
        (by simp [hb, BuilderPc.holds]) rfl (by simp [BuilderPc.holds])
        fun p hp => ReclaimState.holds_moveBuilder_ne _ hp) rfl rfl rfl (by decide)
    · cases h
    · cases h
  | add i k =>
    simp only [reclaimStep] at h
    split at h <;> rename_i hb
    · cases h
      have hw := hi.waiter_free (i := i) (by simp [hb, BuilderPc.holds])
      exact ⟨hi.lock_iff.keep rfl (ReclaimState.holds_moveBuilder_same _ (by simp [hb, BuilderPc.holds])),
        fun h => (h.elim hw.1 hw.2.1).elim, fun h => (hw.2.2 h).elim,
        ReclaimState.moveBuilder_notify (fun j _ h => absurd h (hi.no_notify hb j)) nofun,
        ReclaimState.moveBuilder_no_fail hi.no_fail nofun⟩
    · cases h
  | decrement i =>
    simp only [reclaimStep] at h
    split at h <;> rename_i hb
    · cases h
      have hw := hi.waiter_free (i := i) (by simp [hb, BuilderPc.holds])
      exact ⟨hi.lock_iff.keep rfl (ReclaimState.holds_moveBuilder_same _ (by
          split_ifs <;> simp [hb, BuilderPc.holds])),
        fun h => (h.elim hw.1 hw.2.1).elim, fun h => (hw.2.2 h).elim,
        ReclaimState.moveBuilder_notify (fun j _ h => absurd h (hi.no_notify hb j))
          (by split_ifs <;> simp_all),
        ReclaimState.moveBuilder_no_fail hi.no_fail (by split_ifs <;> simp)⟩
    · cases h

/-- Every reachable state satisfies the invariant. -/
theorem ReclaimReachable.inv {g : Bool} {s : ReclaimState} (hr : ReclaimReachable g s) :
    ReclaimInv s := by
  induction hr with
  | init => exact reclaimInv_init
  | step _ _ h ih => exact ih.step h

/-- A move that leaves the waiter, the event, the count and every notifying builder. -/
theorem ReclaimState.Owed.frame (ho : s.Owed) (hw : s'.waiter = s.waiter)
    (he : s'.event = s.event) (hc : s'.count = s.count)
    (hb : ∀ j, s.builder j = .notify → s'.builder j = .notify) : s'.Owed := fun hW hE => by
  rw [hw] at hW
  rw [he] at hE
  rcases ho hW hE with h | ⟨j, hj⟩
  exacts [.inl (hc ▸ h), .inr ⟨j, hb j hj⟩]

/-- Moving a builder that is not at `notify` leaves every builder at `notify` there. -/
theorem ReclaimState.moveBuilder_keeps_notify (s : ReclaimState) {i : Nat} {q : BuilderPc}
    (hi : s.builder i ≠ .notify) (j : Nat) (hj : s.builder j = .notify) :
    (s.moveBuilder i q).builder j = .notify := by
  have : j ≠ i := by rintro rfl; exact hi hj
  simp [this, hj]

/-- One step that respects `NoZeroAdd` keeps the wakeup owed. -/
theorem ReclaimState.Owed.step (hi : ReclaimInv s) (ho : s.Owed) {a : ReclaimAct}
    (hg : a.NoZeroAdd s) (h : reclaimStep s a = some s') : s'.Owed := by
  have hi' := hi.step h
  cases a with
  | waiter =>
    simp only [reclaimStep] at h
    split at h <;> rename_i hw
    · cases h; intro hW; simp at hW
    · split at h <;> cases h; intro hW; simp at hW
    · cases h; intro hW; split_ifs at hW <;> simp at hW
    · cases h; exact fun _ _ => .inl (hi.read (.inl hw))
    · cases h; exact fun _ he => ho (.inl hw) he
    · split at h <;> cases h; intro hW; simp at hW
    · cases h; intro hW; simp at hW
  | builder i =>
    simp only [reclaimStep] at h
    split at h <;> rename_i hb
    · cases h; exact ho.frame rfl rfl rfl (s.moveBuilder_keeps_notify (by simp [hb]))
    · split at h <;> cases h
      exact ho.frame rfl rfl rfl (ReclaimState.moveBuilder_keeps_notify _ (by simp [hb]))
    · split at h <;> cases h
      · intro _ he; simp at he
      · exact absurd (by simp) (hi'.no_fail i)
    · cases h; exact ho.frame rfl rfl rfl (ReclaimState.moveBuilder_keeps_notify _ (by simp [hb]))
    · cases h
    · cases h
  | add i k =>
    simp only [reclaimStep] at h
    split at h <;> cases h
    intro hW _
    simp only [ReclaimState.moveBuilder_waiter] at hW
    exact .inl (hg.resolve_left (by rcases hW with h | h <;> simp [h]))
  | decrement i =>
    simp only [reclaimStep] at h
    split at h <;> cases h
    intro _ _
    by_cases hz : s.count - 1 = 0
    · exact .inr ⟨i, by simp [hz]⟩
    · exact .inl (by simpa using hz)

/-- Along guarded runs, a waiter past its `ResetEvent` with the event clear is always owed a wakeup.
-/
theorem ReclaimReachable.owed {s : ReclaimState} (hr : ReclaimReachable true s) : s.Owed := by
  induction hr with
  | init => intro h; simp [ReclaimState.init] at h
  | step hr hg h ih => exact ih.step hr.inv (hg rfl) h

end Step

/-- Over every interleaving the waiter returns holding the lock after reading zero, and no
assertion of `GC_notify_all_builder` fails; over the interleavings that respect `NoZeroAdd`,
a waiter blocked on the clear event while the count is zero is woken by a builder's next
step. -/
theorem waitForReclaim_guarded {g : Bool} {s : ReclaimState} (hr : ReclaimReachable g s) :
    (s.waiter = .releaseDone → s.lock = some .waiter ∧ s.count = 0) ∧
    (∀ i, s.builder i ≠ .assertFailed) ∧
    (g = true → s.waiter = .wait → s.event = false → s.count = 0 →
      ∃ i s' s'', s.builder i = .notify ∧ reclaimStep s (.builder i) = some s' ∧
        reclaimStep s' .waiter = some s'' ∧ s''.waiter = .acquire) := by
  have hi := hr.inv
  refine ⟨fun hw => ⟨(hi.lock_iff _).mpr (by simp [hw, ReclaimPc.holds]), hi.done hw⟩,
    hi.no_fail, ?_⟩
  rintro rfl hw he hc
  obtain hc' | ⟨i, hn⟩ := hr.owed (.inr hw) he
  · exact absurd hc hc'
  have hl : s.lock = some (.builder i) := (hi.lock_iff _).mpr (by simp [hn, BuilderPc.holds])
  let s' := { s with event := true }.moveBuilder i .release
  have h₁ : reclaimStep s (.builder i) = some s' := by simp [s', reclaimStep, hn, hl, hc]
  exact ⟨i, s', { s' with waiter := .acquire }, hn, h₁, by simp [s', reclaimStep, hw], rfl⟩

/-- A builder raises the count to one before the waiter enters, then brings it back to zero
while the waiter sleeps. -/
def reclaimOwedRun : List ReclaimAct :=
  [.builder 0, .builder 0, .add 0 1, .builder 0, .waiter, .waiter, .waiter, .waiter, .waiter,
    .builder 0, .builder 0, .decrement 0]

theorem waitForReclaim_guarded_owed :
    ∃ s, reclaimRun true ReclaimState.init reclaimOwedRun = some s ∧ s.waiter = .wait ∧
      s.event = false ∧ s.count = 0 ∧
      ∃ i s' s'', s.builder i = .notify ∧ reclaimStep s (.builder i) = some s' ∧
        reclaimStep s' .waiter = some s'' ∧ s''.waiter = .acquire :=
  ⟨_, rfl, rfl, rfl, rfl,
    (waitForReclaim_guarded (reclaimRun_reachable (g := true) .init reclaimOwedRun rfl)).2.2 rfl rfl rfl rfl⟩

/-- A start-up decrement makes the count `-1`; the waiter reads it, resets the event and
sleeps; the starter's increment brings the count to zero and signals nobody. -/
def reclaimLostRun : List ReclaimAct :=
  [.builder 0, .builder 0, .decrement 0, .builder 0, .waiter, .waiter, .waiter, .waiter, .waiter,
    .builder 1, .builder 1, .add 1 1, .builder 1]

theorem waitForReclaim_lostWakeup :
    ∃ s, reclaimRun false ReclaimState.init reclaimLostRun = some s ∧ ReclaimReachable false s ∧
      s.waiter = .wait ∧ s.event = false ∧ s.count = 0 ∧ reclaimStep s .waiter = none ∧
      ∀ i, s.builder i = .idle := by
  refine ⟨_, rfl, reclaimRun_reachable .init reclaimLostRun rfl, rfl, rfl, rfl, rfl, fun i => ?_⟩
  simp only [ReclaimState.moveBuilder_builder]
  split_ifs <;> rfl

end Reclaim

section Marker

variable {m : Nat}

/-- A thread that marks: helper `i` of the `GC_markers_m1` helpers, or the one non-helper
that waits, the holder of the allocation lock. -/
inductive MarkerParty (m : Nat) where
  | helper (i : Fin m)
  | primary
  deriving DecidableEq, Repr

/-- The events of `GC_wait_marker`: `GC_marker_cv[i]` and `mark_cv`. -/
inductive MarkerEvent where
  | markerCv (i : Nat)
  | markCv
  deriving DecidableEq, Repr

/-- The event a party should wait on: `GC_marker_cv[i]` for helper `i`, `mark_cv` for the
non-helper. -/
def MarkerParty.own : MarkerParty m → MarkerEvent
  | .helper i => .markerCv i
  | .primary => .markCv

/-- The parties' `GetCurrentThreadId()`: Win32 thread ids are distinct and never 0, the value
the static `GC_marker_Id` starts with. -/
structure MarkerIds (m : Nat) where
  tid : MarkerParty m → Nat
  inj : Function.Injective tid
  ne_zero : ∀ p, tid p ≠ 0

/-- Where a party is in `GC_mark_thread`, `GC_wait_marker` and `GC_notify_all_marker`. -/
inductive MarkerPc where
  /-- A helper at the top of `GC_mark_thread`, before `GC_marker_Id[id] = GetCurrentThreadId()`. -/
  | start
  /-- Outside the mark lock. -/
  | idle
  /-- `GC_acquire_mark_lock()`. -/
  | acquire
  /-- Holding the lock in the marking code. -/
  | holding
  /-- `while (i-- > 0)` of `GC_wait_marker`, with `i == k`. -/
  | search (k : Nat)
  /-- `ResetEvent(event)`. -/
  | reset (ev : MarkerEvent)
  /-- `GC_release_mark_lock()` in `GC_wait_marker`. -/
  | release (ev : MarkerEvent)
  /-- `WaitForSingleObject(event, INFINITE)`. -/
  | wait (ev : MarkerEvent)
  /-- `GC_acquire_mark_lock()` at the end of `GC_wait_marker`. -/
  | reacquire (ev : MarkerEvent)
  /-- `while (i-- > 0) SetEvent(...)` of `GC_notify_all_marker`, with `i == k`. -/
  | notify (k : Nat)
  deriving DecidableEq, Repr

/-- The places that hold the mark lock. -/
def MarkerPc.holds : MarkerPc → Bool
  | .holding | .search _ | .reset _ | .release _ | .notify _ => true
  | _ => false

/-- Past the `ResetEvent` of `GC_wait_marker`, waiting on `ev`. -/
def MarkerPc.PastReset (q : MarkerPc) (ev : MarkerEvent) : Prop :=
  q = .release ev ∨ q = .wait ev ∨ q = .reacquire ev

/-- The shared variables and every party's place. -/
structure MarkerState (m : Nat) where
  /-- `GC_marker_Id`. -/
  markerId : Nat → Nat
  /-- The signalled events. -/
  signaled : MarkerEvent → Bool
  /-- The owner of the mark lock. -/
  lock : Option (MarkerParty m)
  /-- Each party's place. -/
  pc : MarkerParty m → MarkerPc

namespace MarkerState

/-- `GC_marker_Id` zero, the events clear (`CreateEvent` with `initialState` false), the lock
free, the helpers at their start. -/
def init : MarkerState m :=
  ⟨fun _ => 0, fun _ => false, none, fun | .helper _ => .start | .primary => .idle⟩

/-- Party `p` moves to `q`. -/
def move (s : MarkerState m) (p : MarkerParty m) (q : MarkerPc) : MarkerState m :=
  { s with pc := Function.update s.pc p q }

/-- `SetEvent` (`b` true) or `ResetEvent` (`b` false) on `ev`. -/
def setSignal (s : MarkerState m) (ev : MarkerEvent) (b : Bool) : MarkerState m :=
  { s with signaled := Function.update s.signaled ev b }

@[simp] theorem setSignal_pc (s : MarkerState m) (ev b) : (s.setSignal ev b).pc = s.pc := rfl
@[simp] theorem setSignal_lock (s : MarkerState m) (ev b) : (s.setSignal ev b).lock = s.lock := rfl
@[simp] theorem setSignal_markerId (s : MarkerState m) (ev b) :
    (s.setSignal ev b).markerId = s.markerId := rfl
@[simp] theorem setSignal_signaled (s : MarkerState m) (ev b) :
    (s.setSignal ev b).signaled = Function.update s.signaled ev b := rfl

@[simp] theorem move_pc (s : MarkerState m) (p q) (r : MarkerParty m) :
    (s.move p q).pc r = if r = p then q else s.pc r := by
  simp [move, Function.update_apply]

@[simp] theorem move_lock (s : MarkerState m) (p q) : (s.move p q).lock = s.lock := rfl
@[simp] theorem move_signaled (s : MarkerState m) (p q) : (s.move p q).signaled = s.signaled := rfl
@[simp] theorem move_markerId (s : MarkerState m) (p q) : (s.move p q).markerId = s.markerId := rfl

end MarkerState

/-- One step of one party; `callWait`, `callNotify` and `unlock` are the calls the marking
code makes while it holds the lock. -/
inductive MarkerAct (m : Nat) where
  /-- The next statement of the party's code. -/
  | next (p : MarkerParty m)
  /-- `GC_wait_marker()`. -/
  | callWait (p : MarkerParty m)
  /-- `GC_notify_all_marker()`. -/
  | callNotify (p : MarkerParty m)
  /-- `GC_release_mark_lock()`. -/
  | unlock (p : MarkerParty m)

/-- One step; `none` while the party waits for the lock or its event. -/
def markerStep (ids : MarkerIds m) (s : MarkerState m) : MarkerAct m → Option (MarkerState m)
  | .next p =>
    match s.pc p with
    | .start =>
      match p with
      | .helper i => some ({ s with markerId := Function.update s.markerId i (ids.tid p) }.move p .idle)
      | .primary => none
    | .idle => some (s.move p .acquire)
    | .acquire => if s.lock = none then some ({ s with lock := some p }.move p .holding) else none
    | .holding => none
    | .search 0 => some (s.move p (.reset .markCv))
    | .search (k + 1) =>
      some (s.move p (if s.markerId k = ids.tid p then .reset (.markerCv k) else .search k))
    | .reset ev => some ((s.setSignal ev false).move p (.release ev))
    | .release ev => some ({ s with lock := none }.move p (.wait ev))
    | .wait ev => if s.signaled ev then some (s.move p (.reacquire ev)) else none
    | .reacquire _ => if s.lock = none then some ({ s with lock := some p }.move p .holding) else none
    | .notify 0 => some (s.move p .holding)
    | .notify (k + 1) =>
      some ((s.setSignal (if s.markerId k ≠ ids.tid p then .markerCv k else .markCv) true).move p
        (.notify k))
  | .callWait p => if s.pc p = .holding then some (s.move p (.search m)) else none
  | .callNotify p => if s.pc p = .holding then some (s.move p (.notify m)) else none
  | .unlock p => if s.pc p = .holding then some ({ s with lock := none }.move p .idle) else none

/-- The states some interleaving reaches. -/
inductive MarkerReachable (ids : MarkerIds m) : MarkerState m → Prop
  | init : MarkerReachable ids MarkerState.init
  | step {s s' : MarkerState m} {a : MarkerAct m} : MarkerReachable ids s →
      markerStep ids s a = some s' → MarkerReachable ids s'

/-- Run actions in order. -/
def markerRun (ids : MarkerIds m) (s : MarkerState m) : List (MarkerAct m) → Option (MarkerState m)
  | [] => some s
  | a :: as => (markerStep ids s a).bind fun s' => markerRun ids s' as

/-- A run of actions from a reachable state ends in a reachable state. -/
theorem markerRun_reachable {ids : MarkerIds m} {s s' : MarkerState m}
    (hs : MarkerReachable ids s) :
    ∀ (as : List (MarkerAct m)), markerRun ids s as = some s' → MarkerReachable ids s'
  | [], h => by cases h; exact hs
  | a :: as, h => by
    obtain ⟨s₁, h₁, h₂⟩ := Option.bind_eq_some.mp h
    exact markerRun_reachable (.step hs h₁) as h₂

/-- What a party's place says about it: a helper past its start stored its id, a helper
searching has its own slot ahead, and the event a party resets or waits on is its own. -/
structure MarkerPcOk (ids : MarkerIds m) (markerId : Nat → Nat) (p : MarkerParty m)
    (q : MarkerPc) : Prop where
  stored : q ≠ .start → ∀ i, p = .helper i → markerId i = ids.tid p
  search : ∀ i k, p = .helper i → q = .search k → i.val < k
  own : ∀ ev, q = .reset ev ∨ q.PastReset ev → ev = p.own

/-- Whether `n`'s loop in `GC_notify_all_marker` has signalled waiter `w` once `i` is down to
`k`: helper `i` from `k` up, and the non-helper once the loop passed the notifier's slot. -/
def MarkerParty.Covered (w n : MarkerParty m) (k : Nat) : Prop :=
  match w with
  | .helper i => k ≤ i.val
  | .primary => ∃ j : Fin m, n = .helper j ∧ k ≤ j.val

@[simp] theorem MarkerParty.covered_helper (n : MarkerParty m) (i : Fin m) (k : Nat) :
    (MarkerParty.helper i).Covered n k ↔ k ≤ i.val := Iff.rfl

@[simp] theorem MarkerParty.covered_primary (n : MarkerParty m) (k : Nat) :
    MarkerParty.primary.Covered n k ↔ ∃ j : Fin m, n = .helper j ∧ k ≤ j.val := Iff.rfl

/-- A waiter past its reset that a running notify loop has covered has its event signalled. -/
def MarkerState.Notified (s : MarkerState m) : Prop :=
  ∀ n k, s.pc n = .notify k → ∀ w ev, (s.pc w).PastReset ev → w.Covered n k → s.signaled ev = true

/-- The invariant of every interleaving. -/
structure MarkerInv (ids : MarkerIds m) (s : MarkerState m) : Prop where
  lock : LockOwner s.lock fun p => (s.pc p).holds
  /-- A slot of `GC_marker_Id` holding a party's id is that helper's slot. -/
  slot : ∀ j p, s.markerId j = ids.tid p → ∃ h : j < m, p = .helper ⟨j, h⟩
  pcOk : ∀ p, MarkerPcOk ids s.markerId p (s.pc p)
  notified : s.Notified

section MarkerStep

variable {ids : MarkerIds m} {s : MarkerState m}

/-- A move to a position that holds the lock exactly when the old one did changes no party's
hold. -/
theorem MarkerState.holds_move (s : MarkerState m) {p : MarkerParty m} {q : MarkerPc}
    (hq : q.holds = (s.pc p).holds) (r : MarkerParty m) :
    ((s.move p q).pc r).holds = (s.pc r).holds := by
  by_cases hr : r = p <;> simp [hr, hq]

/-- A move of `p` changes nothing that another party holds. -/
theorem MarkerState.holds_move_ne (s : MarkerState m) {p : MarkerParty m} {q : MarkerPc}
    (r : MarkerParty m) (hr : r ≠ p) : ((s.move p q).pc r).holds = (s.pc r).holds := by
  simp [hr]

/-- A move to a place that neither searches nor waits, from one past the start. -/
theorem MarkerPcOk.to {mid : Nat → Nat} {p : MarkerParty m} {q q' : MarkerPc}
    (h : MarkerPcOk ids mid p q) (hq : q ≠ .start) (hs : ∀ k, q' ≠ .search k)
    (ho : ∀ ev, q' = .reset ev ∨ q'.PastReset ev → ev = p.own) : MarkerPcOk ids mid p q' :=
  ⟨fun _ => h.stored hq, fun _ k _ h => absurd h (hs k), ho⟩

/-- A move to a well-formed position keeps every party's position well formed. -/
theorem MarkerState.pcOk_move {mid : Nat → Nat} (h : ∀ r, MarkerPcOk ids mid r (s.pc r))
    {p : MarkerParty m} {q : MarkerPc} (hq : MarkerPcOk ids mid p q) (r : MarkerParty m) :
    MarkerPcOk ids mid r ((s.move p q).pc r) := by
  by_cases hr : r = p
  · subst hr; simpa using hq
  · simpa [hr] using h r

/-- A move that starts no notify loop and puts nobody past a reset keeps `Notified`. -/
theorem MarkerState.Notified.move (hn : s.Notified) {p : MarkerParty m} {q : MarkerPc}
    (hq : ∀ k, q ≠ .notify k) (hpast : ∀ ev, q.PastReset ev → (s.pc p).PastReset ev) :
    (s.move p q).Notified := by
  intro n k hnk w ev hw hc
  have hnp : n ≠ p := by rintro rfl; simp only [move_pc, if_pos] at hnk; exact hq k hnk
  simp only [MarkerState.move_pc, if_neg hnp] at hnk
  simp only [MarkerState.move_pc] at hw
  split_ifs at hw with hwp
  · exact hn n k hnk w ev (hwp ▸ hpast ev hw) hc
  · exact hn n k hnk w ev hw hc

/-- While `p` holds the lock, nobody else runs a notify loop. -/
theorem MarkerInv.no_notify (hi : MarkerInv ids s) {p : MarkerParty m} (hp : (s.pc p).holds = true)
    {n : MarkerParty m} (hn : n ≠ p) (k : Nat) : s.pc n ≠ .notify k := fun h =>
  hn (hi.lock.excl (by simp [h, MarkerPc.holds]) hp)

/-- A move of `p` that keeps the lock. -/
theorem MarkerInv.move (hi : MarkerInv ids s) {p : MarkerParty m} {q : MarkerPc}
    (hq : q.holds = (s.pc p).holds) (hok : MarkerPcOk ids s.markerId p q)
    (hn : ∀ k, q ≠ .notify k) (hpast : ∀ ev, q.PastReset ev → (s.pc p).PastReset ev) :
    MarkerInv ids (s.move p q) :=
  ⟨hi.lock.keep rfl (s.holds_move hq), hi.slot, s.pcOk_move hi.pcOk hok, hi.notified.move hn hpast⟩

/-- A move of `p` that takes the free lock. -/
theorem MarkerInv.take (hi : MarkerInv ids s) {p : MarkerParty m} {q : MarkerPc}
    (hf : s.lock = none) (hq : q.holds = true) (hok : MarkerPcOk ids s.markerId p q)
    (hn : ∀ k, q ≠ .notify k) (hpast : ∀ ev, q.PastReset ev → (s.pc p).PastReset ev) :
    MarkerInv ids ({ s with lock := some p }.move p q) :=
  ⟨hi.lock.acquire hf rfl (by simpa using hq) (MarkerState.holds_move_ne _), hi.slot,
    MarkerState.pcOk_move (s := { s with lock := some p }) hi.pcOk hok,
    MarkerState.Notified.move (s := { s with lock := some p }) hi.notified hn hpast⟩

/-- A move of the owner `p` that frees the lock. -/
theorem MarkerInv.free (hi : MarkerInv ids s) {p : MarkerParty m} {q : MarkerPc}
    (hp : (s.pc p).holds = true) (hq : q.holds = false) (hok : MarkerPcOk ids s.markerId p q)
    (hn : ∀ k, q ≠ .notify k) (hpast : ∀ ev, q.PastReset ev → (s.pc p).PastReset ev) :
    MarkerInv ids ({ s with lock := none }.move p q) :=
  ⟨hi.lock.release hp rfl (by simpa using hq) (MarkerState.holds_move_ne _), hi.slot,
    MarkerState.pcOk_move (s := { s with lock := none }) hi.pcOk hok,
    MarkerState.Notified.move (s := { s with lock := none }) hi.notified hn hpast⟩

/-- A position past the reset of an event is not the start. -/
theorem MarkerPc.PastReset.ne_start {q : MarkerPc} {ev : MarkerEvent} (h : q.PastReset ev) :
    q ≠ .start := by
  rcases h with rfl | rfl | rfl <;> simp

/-- `GC_marker_Id[id] = GetCurrentThreadId()` at the top of `GC_mark_thread`. -/
theorem MarkerInv.store (hi : MarkerInv ids s) {i : Fin m} (hp : s.pc (.helper i) = .start) :
    MarkerInv ids ({ s with markerId := Function.update s.markerId i (ids.tid (.helper i)) }.move
      (.helper i) .idle) := by
  have hmid : ∀ i' : Fin m, i' ≠ i →
      Function.update s.markerId i (ids.tid (.helper i)) i' = s.markerId i' := fun i' h =>
    Function.update_noteq (Fin.val_ne_of_ne h) _ _
  refine ⟨hi.lock.keep rfl (MarkerState.holds_move _ (by simp [hp, MarkerPc.holds])),
    fun j p hj => ?_, MarkerState.pcOk_move (s := { s with markerId := _ }) (fun r => ⟨?_,
      (hi.pcOk r).search, (hi.pcOk r).own⟩) ⟨fun _ i' h => ?_, by simp, by simp [MarkerPc.PastReset]⟩,
    MarkerState.Notified.move (s := { s with markerId := _ }) hi.notified (by simp)
      (by simp [MarkerPc.PastReset])⟩
  · simp only [MarkerState.move_markerId, Function.update_apply] at hj
    split_ifs at hj with hji
    · subst hji
      exact ⟨i.isLt, (ids.inj hj).symm⟩
    · exact hi.slot j p hj
  · rintro hq i' rfl
    by_cases hi' : i' = i
    · subst hi'; exact absurd hp hq
    · show Function.update s.markerId i (ids.tid (.helper i)) i' = _
      rw [hmid i' hi']; exact (hi.pcOk _).stored hq i' rfl
  · cases h; simp

/-- `ResetEvent(event)`: the waiter clears its own event while it holds the lock. -/
theorem MarkerInv.resetEvent (hi : MarkerInv ids s) {p : MarkerParty m} {ev : MarkerEvent}
    (hp : s.pc p = .reset ev) :
    MarkerInv ids ((s.setSignal ev false).move p (.release ev)) := by
  have hown := (hi.pcOk p).own ev (.inl hp)
  refine ⟨hi.lock.keep rfl (MarkerState.holds_move _ (by simp [hp, MarkerPc.holds])), hi.slot,
    MarkerState.pcOk_move (s := s.setSignal ev false) hi.pcOk
      ((hi.pcOk p).to (by simp [hp]) (by simp) fun ev' h => ?_), ?_⟩
  · rcases h with h | h | h | h <;> cases h; exact hown
  · intro n k hnk
    have hnp : n ≠ p := by rintro rfl; simp at hnk
    simp only [MarkerState.move_pc, if_neg hnp] at hnk
    exact absurd hnk (hi.no_notify (by simp [hp, MarkerPc.holds]) hnp k)

/-- `GC_notify_all_marker()` starts its loop at `i = GC_markers_m1`: nobody is covered yet. -/
theorem MarkerInv.callNotify (hi : MarkerInv ids s) {p : MarkerParty m} (hp : s.pc p = .holding) :
    MarkerInv ids (s.move p (.notify m)) := by
  refine ⟨hi.lock.keep rfl (s.holds_move (by simp [hp, MarkerPc.holds])), hi.slot,
    s.pcOk_move hi.pcOk ((hi.pcOk p).to (by simp [hp]) (by simp) (by simp [MarkerPc.PastReset])), ?_⟩
  intro n k hnk w ev _ hc
  by_cases hnp : n = p
  · subst hnp
    simp only [MarkerState.move_pc, if_pos, MarkerPc.notify.injEq] at hnk
    subst hnk
    cases w with
    | helper i => exact absurd i.isLt (by simp only [MarkerParty.covered_helper] at hc; omega)
    | primary =>
      obtain ⟨j, -, hj⟩ := (MarkerParty.covered_primary _ _).mp hc
      exact absurd j.isLt (by omega)
  · simp only [MarkerState.move_pc, if_neg hnp] at hnk
    exact absurd hnk (hi.no_notify (by simp [hp, MarkerPc.holds]) hnp k)

/-- One turn of the loop of `GC_notify_all_marker`: `SetEvent` on `GC_marker_Id[k]`'s event,
or on `mark_cv` at the notifier's own slot. -/
theorem MarkerInv.signal (hi : MarkerInv ids s) {p : MarkerParty m} {k : Nat}
    (hp : s.pc p = .notify (k + 1)) :
    MarkerInv ids ((s.setSignal (if s.markerId k ≠ ids.tid p then .markerCv k else .markCv)
      true).move p (.notify k)) := by
  refine ⟨hi.lock.keep rfl (MarkerState.holds_move _ (by simp [hp, MarkerPc.holds])), hi.slot,
    MarkerState.pcOk_move (s := s.setSignal _ true) hi.pcOk
      ((hi.pcOk p).to (by simp [hp]) (by simp) (by simp [MarkerPc.PastReset])), ?_⟩
  intro n k' hnk w ev hw hc
  have hnp : n = p := by
    by_contra hnp
    simp only [MarkerState.move_pc, if_neg hnp] at hnk
    exact hi.no_notify (by simp [hp, MarkerPc.holds]) hnp k' hnk
  subst hnp
  simp only [MarkerState.move_pc, if_pos, MarkerPc.notify.injEq] at hnk
  subst hnk
  have hwn : w ≠ n := by rintro rfl; simp [MarkerPc.PastReset] at hw
  simp only [MarkerState.move_pc, if_neg hwn] at hw
  have hown := (hi.pcOk w).own ev (.inr hw)
  have hstored := (hi.pcOk n).stored (by simp [hp])
  suffices hev : ev = (if s.markerId k ≠ ids.tid n then .markerCv k else .markCv) ∨
      s.signaled ev = true by
    simp only [MarkerState.move_signaled, MarkerState.setSignal_signaled]
    rcases hev with rfl | hev
    · exact Function.update_same _ _ _
    · simp [Function.update_apply, hev]
  by_cases hc' : w.Covered n (k + 1)
  · exact .inr (hi.notified n (k + 1) hp w ev hw hc')
  refine .inl ?_
  cases w with
  | helper i =>
    have hik : i.val = k := by simp only [MarkerParty.covered_helper] at hc hc'; omega
    have hw' : s.markerId k ≠ ids.tid n := by
      rw [← hik, (hi.pcOk _).stored hw.ne_start i rfl]; exact fun h => hwn (ids.inj h)
    rw [if_pos hw', hown, ← hik]; rfl
  | primary =>
    obtain ⟨j, rfl, hj⟩ := (MarkerParty.covered_primary _ _).mp hc
    have hjk : j.val = k := by
      simp only [MarkerParty.covered_primary, not_exists, not_and] at hc'; have := hc' j rfl; omega
    rw [if_neg (not_not.mpr (hjk ▸ hstored j rfl)), hown]; rfl

/-- One step keeps the invariant. -/
theorem MarkerInv.step (hi : MarkerInv ids s) {s' : MarkerState m} {a : MarkerAct m}
    (h : markerStep ids s a = some s') : MarkerInv ids s' := by
  cases a with
  | next p =>
    simp only [markerStep] at h
    split at h <;> rename_i hp
    · split at h
      · cases h; exact hi.store hp
      · cases h
    · cases h
      exact hi.move (by simp [hp, MarkerPc.holds]) ((hi.pcOk p).to (by simp [hp]) (by simp)
        (by simp [MarkerPc.PastReset])) (by simp) (by simp [MarkerPc.PastReset])
    · split at h <;> cases h
      exact hi.take ‹_› rfl ((hi.pcOk p).to (by simp [hp]) (by simp) (by simp [MarkerPc.PastReset]))
        (by simp) (by simp [MarkerPc.PastReset])
    · cases h
    · cases h
      refine hi.move (by simp [hp, MarkerPc.holds]) ⟨fun _ => (hi.pcOk p).stored (by simp [hp]),
        by simp, fun ev h => ?_⟩ (by simp) (by simp [MarkerPc.PastReset])
      cases p with
      | helper i => exact absurd ((hi.pcOk _).search i 0 rfl hp) (by omega)
      | primary => rcases h with h | h | h | h <;> cases h; rfl
    · cases h
      rename_i k
      refine hi.move (by split_ifs <;> simp [hp, MarkerPc.holds])
        ⟨fun _ => (hi.pcOk p).stored (by simp [hp]), fun i k' hpi hk => ?_, fun ev h => ?_⟩
        (by split_ifs <;> simp) (by split_ifs <;> simp [MarkerPc.PastReset])
      · subst hpi
        split_ifs at hk with hid
        cases hk
        have := (hi.pcOk _).search i (k + 1) rfl hp
        have : i.val ≠ k := fun hik => hid (hik ▸ (hi.pcOk _).stored (by simp [hp]) i rfl)
        omega
      · split_ifs at h with hid
        · obtain ⟨hk, rfl⟩ := hi.slot k p hid
          rcases h with h | h | h | h <;> cases h; rfl
        · simp [MarkerPc.PastReset] at h
    · cases h; exact hi.resetEvent hp
    · cases h
      exact hi.free (by simp [hp, MarkerPc.holds]) rfl ((hi.pcOk p).to (by simp [hp]) (by simp)
        fun ev h => by rcases h with h | h | h | h <;> cases h; exact (hi.pcOk p).own _ (.inr (.inl hp)))
        (by simp) (by simp [MarkerPc.PastReset, hp])
    · split at h <;> cases h
      exact hi.move (by simp [hp, MarkerPc.holds]) ((hi.pcOk p).to (by simp [hp]) (by simp)
        fun ev h => by
          rcases h with h | h | h | h <;> cases h; exact (hi.pcOk p).own _ (.inr (.inr (.inl hp))))
        (by simp) (by simp [MarkerPc.PastReset, hp])
    · split at h <;> cases h
      exact hi.take ‹_› rfl ((hi.pcOk p).to (by simp [hp]) (by simp) (by simp [MarkerPc.PastReset]))
        (by simp) (by simp [MarkerPc.PastReset])
    · cases h
      exact hi.move (by simp [hp, MarkerPc.holds]) ((hi.pcOk p).to (by simp [hp]) (by simp)
        (by simp [MarkerPc.PastReset])) (by simp) (by simp [MarkerPc.PastReset])
    · cases h; exact hi.signal hp
  | callWait p =>
    simp only [markerStep] at h
    split at h <;> cases h; rename_i hp
    exact hi.move (by simp [hp, MarkerPc.holds]) ⟨fun _ => (hi.pcOk p).stored (by simp [hp]),
      fun i k hpi hk => by cases hk; exact i.isLt, by simp [MarkerPc.PastReset]⟩ (by simp)
      (by simp [MarkerPc.PastReset])
  | callNotify p =>
    simp only [markerStep] at h
    split at h <;> cases h; rename_i hp
    exact hi.callNotify hp
  | unlock p =>
    simp only [markerStep] at h
    split at h <;> cases h; rename_i hp
    exact hi.free (by simp [hp, MarkerPc.holds]) rfl ((hi.pcOk p).to (by simp [hp]) (by simp)
      (by simp [MarkerPc.PastReset])) (by simp) (by simp [MarkerPc.PastReset])

end MarkerStep

/-- The initial state satisfies the invariant. -/
theorem markerInv_init (ids : MarkerIds m) : MarkerInv ids MarkerState.init where
  lock p := by cases p <;> simp [MarkerState.init, MarkerPc.holds]
  slot _ p h := absurd h.symm (ids.ne_zero p)
  pcOk p := by
    cases p <;> exact ⟨by simp [MarkerState.init], by simp [MarkerState.init],
      by simp [MarkerState.init, MarkerPc.PastReset]⟩
  notified n k h := by cases n <;> simp [MarkerState.init] at h

/-- Every reachable state satisfies the invariant. -/
theorem MarkerReachable.inv {ids : MarkerIds m} {s : MarkerState m} (hr : MarkerReachable ids s) :
    MarkerInv ids s := by
  induction hr with
  | init => exact markerInv_init ids
  | step _ h ih => exact ih.step h

/-- When a party completes `GC_notify_all_marker`, every other party past the `ResetEvent` of
`GC_wait_marker` waits on its own event, and that event is signalled. -/
theorem notifyAllMarker_wakesWaiters {ids : MarkerIds m} {s s' : MarkerState m}
    (hr : MarkerReachable ids s) {n : MarkerParty m} (hn : s.pc n = .notify 0)
    (h : markerStep ids s (.next n) = some s') :
    s'.pc n = .holding ∧
      ∀ w ev, w ≠ n → (s'.pc w).PastReset ev → ev = w.own ∧ s'.signaled ev = true := by
  have hi := hr.inv
  simp only [markerStep, hn, Option.some.injEq] at h
  subst h
  refine ⟨by simp, fun w ev hwn hw => ?_⟩
  simp only [MarkerState.move_pc, if_neg hwn] at hw
  refine ⟨(hi.pcOk w).own ev (.inr hw), hi.notified n 0 hn w ev hw ?_⟩
  cases w with
  | helper i => simp
  | primary =>
    cases n with
    | helper j => exact ⟨j, rfl, Nat.zero_le _⟩
    | primary => exact absurd rfl hwn

/-- Helper `i` has thread id `i + 2`, the non-helper `1`. -/
def twoMarkerIds : MarkerIds 2 where
  tid
    | .helper i => i.val + 2
    | .primary => 1
  inj := by
    rintro (a | _) (b | _) h <;> dsimp only at h
    exacts [congrArg _ (Fin.ext (by omega)), by omega, by omega, rfl]
  ne_zero p := by cases p <;> simp

/-- The non-helper and helper 0 go to sleep; helper 1 runs its notify loop down to `i == 0`. -/
def twoMarkersRun : List (MarkerAct 2) :=
  [.next (.helper 0), .next (.helper 1),
    .next .primary, .next .primary, .callWait .primary, .next .primary, .next .primary,
    .next .primary, .next .primary, .next .primary,
    .next (.helper 0), .next (.helper 0), .callWait (.helper 0), .next (.helper 0),
    .next (.helper 0), .next (.helper 0), .next (.helper 0),
    .next (.helper 1), .next (.helper 1), .callNotify (.helper 1), .next (.helper 1),
    .next (.helper 1)]

theorem notifyAllMarker_wakesWaiters_twoHelpers :
    ∃ s s', markerRun twoMarkerIds .init twoMarkersRun = some s ∧
      s.pc (.helper 1) = .notify 0 ∧ markerStep twoMarkerIds s (.next (.helper 1)) = some s' ∧
      s'.pc .primary = .wait .markCv ∧ s'.pc (.helper 0) = .wait (.markerCv 0) ∧
      s'.pc (.helper 1) = .holding ∧
      ∀ w ev, w ≠ .helper 1 → (s'.pc w).PastReset ev → ev = w.own ∧ s'.signaled ev = true :=
  ⟨_, _, rfl, rfl, rfl, rfl, rfl,
    notifyAllMarker_wakesWaiters
      (markerRun_reachable (MarkerReachable.init : MarkerReachable twoMarkerIds _) twoMarkersRun rfl)
      rfl rfl⟩

end Marker

end Win32GcThreads
