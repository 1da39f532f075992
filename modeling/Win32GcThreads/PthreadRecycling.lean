import Win32GcThreads.LifecycleInvariant

/-!
# Recycled `pthread_t` values

Without `GC_WIN32_PTHREADS` the threads library hands a `pthread_t` out again once its thread
has ended and been joined or detached. `GC_pthread_join` finds its record before `pthread_join`
and frees it after, under the lock (lines 2770-2791); `GC_pthread_detach` likewise
(lines 2949-2962). Here `pthread_join` returns in one step and the locked tail runs in
another, and the two calls act on the thread that owns the value now. Every step keeps the
table well formed. A join tail whose record another tail already freed dereferences NULL,
and a run reaches that state: a second joiner finds the dead thread's record while the
new owner of its `pthread_t` has not yet registered.
-/

namespace Win32GcThreads

namespace Runtime

/-- The threads library may hand out `p` again: every thread that had it has ended and can no
longer be joined or detached. -/
def pthreadReusable (rt : Runtime) (p : Nat) : Bool :=
  rt.threads.all fun th => th.pthread != p || !(th.alive || th.joinable)

/-- The thread `pthread_join(p)` and `pthread_detach(p)` act on: the last one given `p`. -/
def lastByPthread? (rt : Runtime) (p : Nat) : Option (Nat × OsThread) :=
  rt.threads.enum.reverse.find? fun (_, th) => th.pthread == p

end Runtime

/-- The process, with the record each thread's `GC_pthread_join` holds once `pthread_join`
returned and before the thread takes the lock. -/
structure RecycleRuntime where
  /-- Threads and table. -/
  rt : Runtime
  /-- The record the lookup loop of the thread's `GC_pthread_join` found. -/
  joined : Nat → Option Ptr

/-- A process whose main thread has not yet initialised the collector. -/
def RecycleRuntime.start (main : OsThread) : RecycleRuntime := ⟨Runtime.start main, fun _ => none⟩

section Routines

variable (H : TableHash)

/-- `GC_pthread_create` by thread `parent` when `pthread_create` may hand out a recycled
`pthread_t` `p`. -/
def gcPthreadCreateRecycled (rt : Runtime) (parent w p sb : Nat) (detached : Bool) :
    Option Runtime := do
  let th ← rt.thread? parent
  if th.alive && rt.initialized && rt.win32IdFree H w && rt.pthreadReusable p then
    some { rt with
      threads := rt.threads ++ [⟨w, p, sb, true, !detached, some detached, none, none, none⟩],
      needToLock := true }
  else none

/-- `pthread_join(target)` returning in thread `j`, whose lookup loop found `t`: it joins the
thread that owns `target` now, waiting for it to end. On success that thread can no longer be
joined and `j` goes on to `LOCK()` holding `t`; on failure `GC_pthread_join` returns. -/
def pthreadJoinReturn (rs : RecycleRuntime) (j : Nat) : Option RecycleRuntime := do
  let th ← rs.rt.thread? j
  let .join target t ← th.pending | none
  if (rs.joined j).isSome then none else
  match rs.rt.lastByPthread? target with
  | none => some { rs with rt := rs.rt.setThread j { th with pending := none } }
  | some (i, tg) =>
    if !tg.joinable then some { rs with rt := rs.rt.setThread j { th with pending := none } }
    else if tg.alive then none
    else some ⟨rs.rt.setThread i { tg with joinable := false }, Function.update rs.joined j (some t)⟩

/-- The locked tail of `GC_pthread_join` in thread `j`: the record its lookup found is unlinked
and freed if it is `FINISHED`. -/
def gcPthreadJoinTail (rs : RecycleRuntime) (j : Nat) : Option (Except Fault RecycleRuntime) := do
  let th ← rs.rt.thread? j
  let t ← rs.joined j
  let rt := rs.rt.setThread j { th with pending := none }
  pure ((freeIfFinished H rt.table t).map fun s => ⟨rt.setTable s, Function.update rs.joined j none⟩)

/-- The rest of `GC_pthread_detach` in thread `j`, `pthread_detach` acting on the thread that
owns the value now: on success, mark the record found `DETACHED` and free it if it is
`FINISHED`. -/
def gcPthreadDetachRecycled (rt : Runtime) (j : Nat) : Option (Except Fault Runtime) := do
  let th ← rt.thread? j
  let .detach target t ← th.pending | none
  let rt := rt.setThread j { th with pending := none }
  match rt.lastByPthread? target with
  | none => some (.ok rt)
  | some (i, tg) =>
    if !tg.joinable then some (.ok rt)
    else
      let rt := rt.setThread i { tg with joinable := false }
      some ((freeIfFinished H (updateRep rt.table t fun r => { r with detached := true }) t).map
        rt.setTable)

end Routines

/-- The lifecycle events whose OS side differs once `pthread_t` values are recycled. -/
def LifeEvent.recycledApart : LifeEvent → Bool
  | .pthreadCreate .. | .joinDone _ | .detachDone _ => true
  | _ => false

/-- A lifecycle event unchanged by recycling, or one of the calls that differ. -/
inductive RecycleEvent where
  /-- A lifecycle event that is not `recycledApart`. -/
  | life (e : LifeEvent)
  /-- `GC_pthread_create` in thread `parent`. -/
  | pthreadCreate (parent w p sb : Nat) (detached : Bool)
  /-- `pthread_join` returns in thread `j`. -/
  | joinReturn (j : Nat)
  /-- The locked tail of that `GC_pthread_join`. -/
  | joinTail (j : Nat)
  /-- The rest of `GC_pthread_detach` in thread `j`. -/
  | detachDone (j : Nat)

section Step

variable (H : TableHash)

/-- One step of a process whose `pthread_t` values are recycled. -/
def recycleStep (rs : RecycleRuntime) : RecycleEvent → Option (Except Fault RecycleRuntime)
  | .life e =>
    if e.recycledApart then none else (lifeStep H rs.rt e).map (·.map fun rt => { rs with rt := rt })
  | .pthreadCreate parent w p sb d =>
    (gcPthreadCreateRecycled H rs.rt parent w p sb d).map fun rt => .ok { rs with rt := rt }
  | .joinReturn j => (pthreadJoinReturn rs j).map .ok
  | .joinTail j => gcPthreadJoinTail H rs j
  | .detachDone j => (gcPthreadDetachRecycled H rs.rt j).map (·.map fun rt => { rs with rt := rt })

/-- Run events in order: `none` if one cannot happen, the fault if one faults. -/
def recycleRun (rs : RecycleRuntime) : List RecycleEvent → Option (Except Fault RecycleRuntime)
  | [] => some (.ok rs)
  | e :: es =>
    match recycleStep H rs e with
    | some (.ok rs') => recycleRun rs' es
    | r => r

end Step

section Table

variable {H : TableHash} {rt rt' : Runtime} {rs rs' : RecycleRuntime} {B : Nat → List Ptr}

/-- `GC_pthread_create` leaves the table alone. -/
theorem gcPthreadCreateRecycled_table {parent w p sb : Nat} {d : Bool}
    (h : gcPthreadCreateRecycled H rt parent w p sb d = some rt') : rt'.table = rt.table := by
  simp only [gcPthreadCreateRecycled, Option.bind_eq_bind, Option.bind_eq_some] at h
  obtain ⟨th, -, h⟩ := h
  split at h
  · cases h; rfl
  · cases h

/-- `pthread_join` returning leaves the table alone. -/
theorem pthreadJoinReturn_table {j : Nat} (h : pthreadJoinReturn rs j = some rs') :
    rs'.rt.table = rs.rt.table := by
  simp only [pthreadJoinReturn, Option.bind_eq_bind, Option.bind_eq_some] at h
  obtain ⟨th, -, call, -, h⟩ := h
  cases call with
  | detach => cases h
  | join target t =>
    dsimp only at h
    split at h
    · cases h
    split at h
    · cases h; rfl
    · split at h
      · cases h; rfl
      · split at h
        · cases h
        · cases h; rfl

/-- The rest of `GC_pthread_detach` marks the record found `DETACHED` and frees at most that record.
-/
theorem gcPthreadDetachRecycled_steps {A : TableWrite → Bool} {j : Nat} (hA : A .free = true)
    (h : gcPthreadDetachRecycled H rt j = some (.ok rt')) : TableSteps H A rt.table rt'.table := by
  simp only [gcPthreadDetachRecycled, Option.bind_eq_bind, Option.bind_eq_some] at h
  obtain ⟨th, -, call, -, h⟩ := h
  cases call with
  | join => cases h
  | detach target t =>
    dsimp only at h
    split at h
    · cases h; exact .refl
    · split at h
      · cases h; exact .refl
      · obtain ⟨s₁, hr, rfl⟩ := except_map_eq_ok.mp (Option.some.inj h)
        exact (TableSteps.update _ _ (by intro; exact ⟨rfl, rfl, rfl, rfl, rfl⟩)).trans
          (freeIfFinished_steps hA hr)

/-- Every step of a process with recycled `pthread_t` values keeps the table well formed. -/
theorem recycleStep_tableInv {e : RecycleEvent} (hi : TableInv H rs.rt.table B)
    (h : recycleStep H rs e = some (.ok rs')) : ∃ B', TableInv H rs'.rt.table B' := by
  cases e with
  | life e =>
    simp only [recycleStep] at h
    split at h
    · cases h
    obtain ⟨r, h₁, h₂⟩ := Option.map_eq_some'.mp h
    obtain ⟨rt', rfl, rfl⟩ := except_map_eq_ok.mp h₂
    exact (lifeStep_tableSteps h₁).inv hi
  | pthreadCreate parent w p sb d =>
    obtain ⟨rt', h₁, h₂⟩ := Option.map_eq_some'.mp h
    cases h₂
    exact ⟨B, (gcPthreadCreateRecycled_table h₁).symm ▸ hi⟩
  | joinReturn j =>
    obtain ⟨rs₁, h₁, h₂⟩ := Option.map_eq_some'.mp h
    cases h₂
    exact ⟨B, (pthreadJoinReturn_table h₁).symm ▸ hi⟩
  | joinTail j =>
    simp only [recycleStep, gcPthreadJoinTail, Option.bind_eq_bind, Option.bind_eq_some] at h
    obtain ⟨th, -, t, -, h⟩ := h
    obtain ⟨s, hs, rfl⟩ := except_map_eq_ok.mp (Option.some.inj h)
    exact (freeIfFinished_steps (A := fun _ => true) rfl hs).inv hi
  | detachDone j =>
    obtain ⟨r, h₁, h₂⟩ := Option.map_eq_some'.mp h
    obtain ⟨rt', rfl, rfl⟩ := except_map_eq_ok.mp h₂
    exact (gcPthreadDetachRecycled_steps (A := fun _ => true) rfl h₁).inv hi

/-- Every run of a process with recycled `pthread_t` values keeps the table well formed. -/
theorem recycleRun_tableInv :
    ∀ (es : List RecycleEvent) {rs rs' : RecycleRuntime} {B : Nat → List Ptr},
      TableInv H rs.rt.table B → recycleRun H rs es = some (.ok rs') →
      ∃ B', TableInv H rs'.rt.table B'
  | [], _, _, B, hi, h => by cases h; exact ⟨B, hi⟩
  | e :: es, rs, rs', _, hi, h => by
    simp only [recycleRun] at h
    split at h
    · next rs₁ h₁ =>
      obtain ⟨B₁, hi₁⟩ := recycleStep_tableInv hi h₁
      exact recycleRun_tableInv es hi₁ h
    · next hne => exact (hne _ h).elim

end Table

section Race

variable {H : TableHash} {rs : RecycleRuntime} {B : Nat → List Ptr}

/-- The locked tail of `GC_pthread_join` or `GC_pthread_detach` on a `FINISHED` record that the
bucket of its id no longer links dereferences NULL in `GC_delete_gc_thread_no_free`. -/
theorem freeIfFinished_unlinked {s : ThreadTable} {t : Ptr} (hi : TableInv H s B)
    (hf : (s.rep t).finished = true) (ht : t ∉ B (H.index (s.rep t).id)) :
    freeIfFinished H s t = .error .nullDeref := by
  simp only [freeIfFinished, ThreadRep.knownFinished, hf, if_true,
    gcDeleteGcThreadNoFree_unlinked hi ht]
  rfl

/-- With recycled `pthread_t` values, a thread whose `pthread_join` returned holding a record
still marked `FINISHED` that no bucket links any more, because another join or detach unlinked
and freed it, dereferences NULL in the locked tail of its `GC_pthread_join`. -/
theorem gcPthreadJoinTail_freed_faults {j : Nat} {t : Ptr} (hi : TableInv H rs.rt.table B)
    (hj : (rs.rt.thread? j).isSome) (ht : rs.joined j = some t)
    (hf : (rs.rt.table.rep t).finished = true) (hu : t ∉ B (H.index (rs.rt.table.rep t).id)) :
    gcPthreadJoinTail H rs j = some (.error .nullDeref) := by
  obtain ⟨th, hth⟩ := Option.isSome_iff_exists.mp hj
  simp only [gcPthreadJoinTail, hth, ht, Option.bind_eq_bind, Option.some_bind,
    Runtime.setThread_table, freeIfFinished_unlinked hi hf hu]
  rfl

/-- Thread `1` (`pthread_t` `101`) ends and the main thread joins it. Before the main thread
takes the lock, thread `2` creates thread `3`, which is given `101` again, and joins it: its
lookup loop finds record `2` of thread `1`, thread `3` not having registered yet. The main
thread frees record `2`; thread `3` registers with record `4` and ends; thread `2`'s
`pthread_join` joins thread `3`, and its tail takes record `2` again. -/
def recycledJoinRun : List RecycleEvent :=
  [.life (.thrInit (some 11)), .pthreadCreate 0 2 101 0x40000 false,
    .life (.startInner 1 (some 12) (some 2)), .pthreadCreate 0 3 102 0x50000 false,
    .life (.startInner 2 (some 13) (some 3)), .life (.exitProc 1), .life (.terminate 1),
    .life (.joinLookup 0 101), .joinReturn 0, .pthreadCreate 2 4 101 0x60000 false,
    .life (.joinLookup 2 101), .joinTail 0, .life (.startInner 3 (some 14) (some 4)),
    .life (.exitProc 3), .life (.terminate 3), .joinReturn 2, .joinTail 2]

set_option maxRecDepth 4000 in
/-- Before the last step of `recycledJoinRun`, thread `2` holds record `2`, which the main
thread freed, and its tail dereferences NULL; record `4` of thread `3`, which thread `2`
joined, stays linked and `FINISHED`. -/
theorem recycledJoinRun_faults :
    ∃ rs B, recycleRun lowByteHash (.start mainThread) (recycledJoinRun.take 16) = some (.ok rs) ∧
      TableInv lowByteHash rs.rt.table B ∧ (rs.rt.thread? 2).isSome ∧ rs.joined 2 = some 2 ∧
      (rs.rt.table.rep 2).finished = true ∧ 2 ∉ B (lowByteHash.index (rs.rt.table.rep 2).id) ∧
      rs.rt.table.freed = [2] ∧ gcPthreadJoinTail lowByteHash rs 2 = some (.error .nullDeref) ∧
      recycleRun lowByteHash (.start mainThread) recycledJoinRun = some (.error .nullDeref) ∧
      gcLookupThread lowByteHash rs.rt.table 4 = .ok (some 4) ∧
      (rs.rt.table.rep 4).finished = true ∧ (rs.rt.thread? 3).map OsThread.joinable = some false := by
  have h₀ : TableInv lowByteHash (RecycleRuntime.start mainThread).rt.table fun _ => [] :=
    tableInv_init
  obtain ⟨B, hi⟩ := recycleRun_tableInv (recycledJoinRun.take 16) h₀ rfl
  have hu : (2 : Ptr) ∉ B (lowByteHash.index 2) := by
    rw [Chain.none_iff.mp (hi.chain (lowByteHash.index 2) (lowByteHash.index_lt 2))]
    exact List.not_mem_nil 2
  exact ⟨_, B, rfl, hi, rfl, rfl, rfl, hu, rfl,
    gcPthreadJoinTail_freed_faults hi rfl rfl rfl hu, rfl, rfl, rfl, rfl⟩

end Race

end Win32GcThreads
