import Win32GcThreads.ThreadTableInvariant

/-!
# Thread lifecycle in explicit mode

The GC_PTHREADS build with `GC_win32_dll_threads` off: every routine below runs
under the allocation lock, so a run is a sequence of whole routine calls. The OS
side is explicit: threads, their Win32 ids (an id is free for reuse once its thread
has terminated and no linked record holds a handle of it), `pthread_t` values, and whether
`pthread_join` or `pthread_detach` can still succeed. `GC_pthread_join` and `GC_pthread_detach` are split where the
code releases the lock: the lookup loop, then the pthread call and the locked tail.
`GC_wait_for_gc_completion` is a no-op here (no incremental collection is
modelled) and thread-local allocation is left out.
-/

namespace Win32GcThreads

/-- `GC_SUCCESS` or `GC_DUPLICATE`. -/
inductive RegisterStatus where
  | success
  | duplicate
  deriving DecidableEq, Repr

/-- A `GC_pthread_join` or `GC_pthread_detach` whose lookup loop found record `t`
for the pthread `target`, now in the pthread call. -/
inductive PendingCall where
  | join (target : Nat) (t : Ptr)
  | detach (target : Nat) (t : Ptr)
  deriving DecidableEq, Repr

/-- One OS thread. -/
structure OsThread where
  /-- `GetCurrentThreadId()`. -/
  win32Id : Nat
  /-- `pthread_self()`. -/
  pthread : Nat
  /-- The stack base `GC_get_stack_base` reports for it. -/
  stackBase : Nat
  /-- Not yet terminated. -/
  alive : Bool
  /-- `pthread_join` and `pthread_detach` would still succeed on it. -/
  joinable : Bool
  /-- Created by `GC_pthread_create` with `si->detached`, start routine not yet run. -/
  startInfo : Option Bool
  /-- The record `GC_pthread_start_inner` registered, the argument of the pending
  `GC_thread_exit_proc`. -/
  me : Option Ptr
  /-- A join or detach in progress. -/
  pending : Option PendingCall
  /-- Inside `GC_do_blocking`: the record it marked `DO_BLOCKING`. -/
  blocking : Option Ptr
  deriving DecidableEq, Repr

/-- The process: the thread table and the OS threads, thread `0` being the main one. -/
structure Runtime where
  /-- `GC_threads` and the records. -/
  table : ThreadTable
  /-- Every OS thread of the process, by creation order. -/
  threads : List OsThread
  /-- `GC_pthread_map_cache`. -/
  pthreadMapCache : Nat → Nat
  /-- `GC_need_to_lock`. -/
  needToLock : Bool
  /-- `GC_thr_init` has run. -/
  initialized : Bool

/-- `PTHREAD_MAP_INDEX(pthread_id)`: `(pthread_id >> 5) % PTHREAD_MAP_SIZE`. -/
def pthreadMapIndex (p : Nat) : Nat := (p >>> 5) % 512

namespace Runtime

/-- A process whose main thread has not yet initialised the collector. -/
def start (main : OsThread) : Runtime := ⟨ThreadTable.init, [main], fun _ => 0, false, false⟩

/-- The thread with index `t`. -/
def thread? (rt : Runtime) (t : Nat) : Option OsThread := rt.threads[t]?

/-- Replace thread `t`. -/
def setThread (rt : Runtime) (t : Nat) (th : OsThread) : Runtime :=
  { rt with threads := rt.threads.set t th }

/-- Replace the table. -/
def setTable (rt : Runtime) (s : ThreadTable) : Runtime := { rt with table := s }

/-- The OS may hand out the Win32 id `w`: no running thread has it, and no record linked in
`GC_threads` carries it, since such a record holds a handle of its thread (`DuplicateHandle`,
line 351) that is closed only when the record is unlinked (lines 542, 608). -/
def win32IdFree (H : TableHash) (rt : Runtime) (w : Nat) : Bool :=
  rt.threads.all (fun th => !th.alive || th.win32Id != w) &&
    match gcLookupThread H rt.table w with
    | .ok none => true
    | _ => false

theorem win32IdFree_running {H : TableHash} {rt : Runtime} {w : Nat} (h : rt.win32IdFree H w = true)
    {th : OsThread} (hth : th ∈ rt.threads) (ha : th.alive = true) : th.win32Id ≠ w := by
  have := List.all_eq_true.mp (Bool.and_eq_true _ _ ▸ h).1 th hth
  simpa [ha] using this

theorem win32IdFree_lookup {H : TableHash} {rt : Runtime} {w : Nat} (h : rt.win32IdFree H w = true) :
    gcLookupThread H rt.table w = .ok none := by
  have h₂ := (Bool.and_eq_true _ _ ▸ h).2
  split at h₂
  · assumption
  · cases h₂

/-- No thread ever had the `pthread_t` value `p`. -/
def pthreadFresh (rt : Runtime) (p : Nat) : Bool := rt.threads.all fun th => th.pthread != p

/-- The thread whose `pthread_t` is `p`. -/
def byPthread? (rt : Runtime) (p : Nat) : Option (Nat × OsThread) :=
  rt.threads.enum.find? fun (_, th) => th.pthread == p

@[simp] theorem setThread_table (rt : Runtime) (t : Nat) (th : OsThread) :
    (rt.setThread t th).table = rt.table := rfl
@[simp] theorem setTable_table (rt : Runtime) (s : ThreadTable) : (rt.setTable s).table = s := rfl

end Runtime

section Routines

variable (H : TableHash)

/-- The buckets `hvs` searched in order, `p -> pthread_id == thread` as test. -/
def findInBuckets (s : ThreadTable) (test : Ptr → Bool) : List Nat → Except Fault (Option Ptr)
  | [] => .ok none
  | hv :: hvs => do
    match ← findFirst s.next test s.fuel (s.heads hv) with
    | some p => pure (some p)
    | none => findInBuckets s test hvs

/-- `GC_lookup_by_pthread(thread)`: the bucket the cache suggests, then every bucket. -/
def gcLookupByPthread (s : ThreadTable) (cache : Nat → Nat) (thread : Nat) :
    Except Fault (Option Ptr) := do
  let test := fun p => (s.rep p).pthreadId == thread
  match ← findFirst s.next test s.fuel (s.heads (H.index (cache (pthreadMapIndex thread)))) with
  | some p => pure (some p)
  | none => findInBuckets s test (List.range H.size)

/-- Set flags of record `p` in place. -/
def updateRep (s : ThreadTable) (p : Ptr) (f : ThreadRep → ThreadRep) : ThreadTable :=
  s.setRep p (f (s.rep p))

@[simp] theorem updateRep_rep_self (s : ThreadTable) (p : Ptr) (f : ThreadRep → ThreadRep) :
    (updateRep s p f).rep p = f (s.rep p) := by
  simp [updateRep]

theorem updateRep_rep_ne (s : ThreadTable) {p q : Ptr} (f : ThreadRep → ThreadRep) (h : q ≠ p) :
    (updateRep s p f).rep q = s.rep q := by
  simp [updateRep, Function.update_noteq h]

@[simp] theorem updateRep_heads (s : ThreadTable) (p f) : (updateRep s p f).heads = s.heads := rfl
@[simp] theorem updateRep_next (s : ThreadTable) (p f) : (updateRep s p f).next = s.next := rfl
@[simp] theorem updateRep_allocated (s : ThreadTable) (p f) :
    (updateRep s p f).allocated = s.allocated := rfl
@[simp] theorem updateRep_firstThreadUsed (s : ThreadTable) (p f) :
    (updateRep s p f).firstThreadUsed = s.firstThreadUsed := rfl

/-- `GC_record_stack_base(me, sb)`. -/
def gcRecordStackBase (s : ThreadTable) (me : Ptr) (sb : Nat) : Except Fault ThreadTable :=
  if sb = 0 then .error (.abort "Bad stack base in GC_register_my_thread")
  else .ok (updateRep s me fun r => { r with stackEnd := sb })

/-- `GC_thr_init`: register the main thread, not detached. -/
def gcThrInit (rt : Runtime) (dup : Option Nat) : Option (Except Fault Runtime) := do
  let main ← rt.thread? 0
  if rt.initialized then none else
  pure <| (gcRegisterMyThreadInner H rt.table main.stackBase main.win32Id main.pthread dup none).map
    fun (s, _) => { rt.setTable s with initialized := true }

/-- `GC_pthread_create` by thread `parent`: the OS starts a thread with Win32 id
`w` (free for reuse), a fresh `pthread_t` `p` and stack base `sb`. -/
def gcPthreadCreate (rt : Runtime) (parent w p sb : Nat) (detached : Bool) : Option Runtime := do
  let th ← rt.thread? parent
  if th.alive && rt.initialized && rt.win32IdFree H w && rt.pthreadFresh p then
    some { rt with
      threads := rt.threads ++ [⟨w, p, sb, true, !detached, some detached, none, none, none⟩],
      needToLock := true }
  else none

/-- A thread the collector did not create (a plain `CreateThread`), detached. -/
def foreignCreate (rt : Runtime) (w p sb : Nat) : Option Runtime :=
  if rt.win32IdFree H w && rt.pthreadFresh p then
    some { rt with threads := rt.threads ++ [⟨w, p, sb, true, false, none, none, none, none⟩] }
  else none

/-- `GC_pthread_start_inner` in thread `t`: register, fill the pthread map cache,
store `pthread_id`, and mark the record `DETACHED` if the thread was created so. -/
def gcPthreadStartInner (rt : Runtime) (t : Nat) (dup : Option Nat) (alloc : Option Ptr) :
    Option (Except Fault Runtime) := do
  let th ← rt.thread? t
  let d ← th.startInfo
  if !th.alive then none else
  pure <| (gcRegisterMyThreadInner H rt.table th.stackBase th.win32Id th.pthread dup alloc).map
    fun (s, me) =>
      let s := updateRep s me fun r => { r with pthreadId := th.pthread, detached := r.detached || d }
      { (rt.setTable s).setThread t { th with startInfo := none, me := some me } with
        pthreadMapCache := Function.update rt.pthreadMapCache (pthreadMapIndex th.pthread)
          th.win32Id }

/-- `GC_thread_exit_proc(me)` in thread `t` after its start routine returned. -/
def gcThreadExitProc (rt : Runtime) (t : Nat) : Option (Except Fault Runtime) := do
  let th ← rt.thread? t
  let me ← th.me
  if !th.alive then none else
  let rt := rt.setThread t { th with me := none }
  pure <| if (rt.table.rep me).detached then
      (gcDeleteThread H rt.table th.win32Id).map rt.setTable
    else .ok (rt.setTable (updateRep rt.table me fun r => { r with finished := true }))

/-- `GC_register_my_thread(sb)` in thread `t`, with the stack base `sb` the client passes. -/
def gcRegisterMyThread (rt : Runtime) (t sb : Nat) (dup : Option Nat) (alloc : Option Ptr) :
    Option (Except Fault (Runtime × RegisterStatus)) := do
  let th ← rt.thread? t
  if !th.alive then none else
  pure <| if !rt.needToLock then
      .error (.abort "Threads explicit registering is not previously enabled")
    else do
      match ← gcLookupThread H rt.table th.win32Id with
      | none =>
        let (s, me) ← gcRegisterMyThreadInner H rt.table sb th.win32Id th.pthread dup alloc
        pure (rt.setTable (updateRep s me fun r => { r with detached := true }), .success)
      | some me =>
        if (rt.table.rep me).knownFinished then do
          let s ← gcRecordStackBase rt.table me sb
          pure (rt.setTable (updateRep s me fun r => { r with finished := false }), .success)
        else pure (rt, .duplicate)

/-- `GC_unregister_my_thread()` in thread `t` (the explicit branch). -/
def gcUnregisterMyThread (rt : Runtime) (t : Nat) : Option (Except Fault Runtime) := do
  let th ← rt.thread? t
  if !th.alive then none else
  pure do
    match ← gcLookupThread H rt.table th.win32Id with
    | none => .error .nullDeref
    | some me =>
      if !(rt.table.rep me).detached then
        pure (rt.setTable (updateRep rt.table me fun r => { r with finished := true }))
      else (gcDeleteThread H rt.table th.win32Id).map rt.setTable

/-- The lookup loop of `GC_pthread_join(target)` or `GC_pthread_detach(target)` in
thread `j`: it sleeps until `GC_lookup_by_pthread` finds a record. -/
def lookupLoop (rt : Runtime) (j target : Nat) (call : Nat → Ptr → PendingCall) :
    Option (Except Fault Runtime) := do
  let th ← rt.thread? j
  if !th.alive || th.pending.isSome then none else
  match gcLookupByPthread H rt.table rt.pthreadMapCache target with
  | .error e => some (.error e)
  | .ok none => none
  | .ok (some p) => some (.ok (rt.setThread j { th with pending := some (call target p) }))

/-- The locked tail shared by join and detach: if `t` is `FINISHED`, unlink it
and pass it to `GC_INTERNAL_FREE`. -/
def freeIfFinished (s : ThreadTable) (t : Ptr) : Except Fault ThreadTable :=
  if (s.rep t).knownFinished then (gcDeleteGcThreadNoFree H s t).map (·.internalFree t)
  else .ok s

/-- The rest of `GC_pthread_join` in thread `j`: `pthread_join` waits for the target
to terminate when it is joinable and fails at once otherwise; on success the
locked tail frees a `FINISHED` record. -/
def gcPthreadJoinDone (rt : Runtime) (j : Nat) : Option (Except Fault Runtime) := do
  let th ← rt.thread? j
  let .join target t ← th.pending | none
  let rt := rt.setThread j { th with pending := none }
  match rt.byPthread? target with
  | none => some (.ok rt)
  | some (i, tg) =>
    if !tg.joinable then some (.ok rt)
    else if tg.alive then none
    else some ((freeIfFinished H rt.table t).map (rt.setThread i { tg with joinable := false }).setTable)

/-- The rest of `GC_pthread_detach` in thread `j`: on success of `pthread_detach`,
mark the record `DETACHED` and free it if it is `FINISHED`. -/
def gcPthreadDetachDone (rt : Runtime) (j : Nat) : Option (Except Fault Runtime) := do
  let th ← rt.thread? j
  let .detach target t ← th.pending | none
  let rt := rt.setThread j { th with pending := none }
  match rt.byPthread? target with
  | none => some (.ok rt)
  | some (i, tg) =>
    if !tg.joinable then some (.ok rt)
    else
      let rt := rt.setThread i { tg with joinable := false }
      some ((freeIfFinished H (updateRep rt.table t fun r => { r with detached := true }) t).map
        rt.setTable)

/-- `GC_do_blocking_inner` in thread `t` up to the call of `fn`: the record found by
id gets `DO_BLOCKING` and the approximate stack pointer `sp`. -/
def gcDoBlockingEnter (rt : Runtime) (t sp : Nat) : Option (Except Fault Runtime) := do
  let th ← rt.thread? t
  if !th.alive || th.blocking.isSome then none else
  pure do
    match ← gcLookupThread H rt.table th.win32Id with
    | none => .error .nullDeref
    | some me =>
      pure ((rt.setTable (updateRep rt.table me fun r => { r with stackPtr := sp, doBlocking := true })).setThread
        t { th with blocking := some me })

/-- The rest of `GC_do_blocking_inner` once `fn` returned: clear `DO_BLOCKING`. -/
def gcDoBlockingLeave (rt : Runtime) (t : Nat) : Option (Except Fault Runtime) := do
  let th ← rt.thread? t
  let me ← th.blocking
  pure (.ok ((rt.setTable (updateRep rt.table me fun r => { r with doBlocking := false })).setThread
    t { th with blocking := none }))

/-- `GC_set_stackbottom(NULL, sb)` in thread `t`: a new stack base, and the known
minimum reset. Before initialisation only `GC_stackbottom` changes. -/
def gcSetStackbottom (rt : Runtime) (t sb : Nat) : Option (Except Fault Runtime) := do
  let th ← rt.thread? t
  if !th.alive then none else
  if !rt.initialized then pure (.ok rt) else
  pure do
    match ← gcLookupThread H rt.table th.win32Id with
    | none => .error .nullDeref
    | some me =>
      pure (rt.setTable (updateRep rt.table me fun r => { r with stackEnd := sb, lastStackMin := addrLimit }))

end Routines

/-- One call of the lifecycle routines, or one OS action, with the answers of
`DuplicateHandle` and of the allocator it receives. -/
inductive LifeEvent where
  /-- `GC_thr_init` in the main thread. -/
  | thrInit (dup : Option Nat)
  /-- `GC_pthread_create` in thread `parent`. -/
  | pthreadCreate (parent w p sb : Nat) (detached : Bool)
  /-- The OS starts a thread the collector does not intercept. -/
  | foreignCreate (w p sb : Nat)
  /-- `GC_pthread_start_inner` in thread `t`. -/
  | startInner (t : Nat) (dup : Option Nat) (alloc : Option Ptr)
  /-- `GC_thread_exit_proc` in thread `t`. -/
  | exitProc (t : Nat)
  /-- `GC_register_my_thread(sb)` in thread `t`. -/
  | register (t sb : Nat) (dup : Option Nat) (alloc : Option Ptr)
  /-- `GC_unregister_my_thread` in thread `t`. -/
  | unregister (t : Nat)
  /-- `GC_allow_register_threads` in thread `t`. -/
  | allowRegister (t : Nat)
  /-- Thread `t` terminates. -/
  | terminate (t : Nat)
  /-- The lookup loop of `GC_pthread_join(target)` in thread `j`. -/
  | joinLookup (j target : Nat)
  /-- The rest of that `GC_pthread_join`. -/
  | joinDone (j : Nat)
  /-- The lookup loop of `GC_pthread_detach(target)` in thread `j`. -/
  | detachLookup (j target : Nat)
  /-- The rest of that `GC_pthread_detach`. -/
  | detachDone (j : Nat)
  /-- `GC_do_blocking` in thread `t`, with stack pointer `sp`, up to the call of `fn`. -/
  | doBlocking (t sp : Nat)
  /-- The end of that `GC_do_blocking`. -/
  | doBlockingDone (t : Nat)
  /-- `GC_set_stackbottom(NULL, sb)` in thread `t`. -/
  | setStackbottom (t sb : Nat)

/-- The allocator answer is one `GC_INTERNAL_MALLOC` can give. -/
def allocOk (s : ThreadTable) : Option Ptr → Bool
  | none => true
  | some p => !s.allocated.contains p && p != firstThread

section Step

variable (H : TableHash)

/-- One lifecycle step: `none` when the event cannot happen now (a blocked call, an
answer the OS or the allocator cannot give), otherwise the outcome. -/
def lifeStep (rt : Runtime) : LifeEvent → Option (Except Fault Runtime)
  | .thrInit dup => gcThrInit H rt dup
  | .pthreadCreate parent w p sb d => (gcPthreadCreate H rt parent w p sb d).map .ok
  | .foreignCreate w p sb => (foreignCreate H rt w p sb).map .ok
  | .startInner t dup alloc =>
    if allocOk rt.table alloc then gcPthreadStartInner H rt t dup alloc else none
  | .exitProc t => gcThreadExitProc H rt t
  | .register t sb dup alloc =>
    if allocOk rt.table alloc then (gcRegisterMyThread H rt t sb dup alloc).map (·.map Prod.fst)
    else none
  | .unregister t => gcUnregisterMyThread H rt t
  | .allowRegister t => (rt.thread? t).bind fun th =>
    if th.alive then some (.ok { rt with needToLock := true }) else none
  | .terminate t => (rt.thread? t).bind fun th =>
    if th.alive then some (.ok (rt.setThread t { th with alive := false, pending := none }))
    else none
  | .joinLookup j target => lookupLoop H rt j target .join
  | .joinDone j => gcPthreadJoinDone H rt j
  | .detachLookup j target => lookupLoop H rt j target .detach
  | .detachDone j => gcPthreadDetachDone H rt j
  | .doBlocking t sp => gcDoBlockingEnter H rt t sp
  | .doBlockingDone t => gcDoBlockingLeave rt t
  | .setStackbottom t sb => gcSetStackbottom H rt t sb

/-- Run events in order: `none` if one cannot happen, the fault if one faults. -/
def runLife (rt : Runtime) : List LifeEvent → Option (Except Fault Runtime)
  | [] => some (.ok rt)
  | e :: es =>
    match lifeStep H rt e with
    | some (.ok rt') => runLife rt' es
    | r => r

end Step

/-! ## Runs

The runs below use `lowByteHash`; no two of their ids share a bucket. -/

/-- The main thread: Win32 id `1`, `pthread_t` `100`, joinable. -/
def mainThread : OsThread := ⟨1, 100, 0x10000, true, true, none, none, none, none⟩

/-- The main thread unregisters and then detaches itself: its record, `first_thread`,
is `FINISHED` and not `DETACHED`, so `GC_pthread_detach` frees it. -/
def mainDetachRun : List LifeEvent :=
  [.thrInit (some 11), .unregister 0, .detachLookup 0 100, .detachDone 0]

theorem mainDetach_frees_firstThread :
    ∃ rt, runLife lowByteHash (Runtime.start mainThread) mainDetachRun = some (.ok rt) ∧
      rt.table.freed = [firstThread] :=
  ⟨_, rfl, rfl⟩

/-- The main thread (Win32 id `1`) creates the detached thread `1` (Win32 id `257`) and the
joinable thread `2` (Win32 id `513`), whose records `2` and `3` go in front of bucket `1`,
which holds `first_thread`; thread `1` returns from its start routine, and its exit
procedure deletes record `2` from between the other two. -/
def collisionRun : List LifeEvent :=
  [.thrInit (some 11), .pthreadCreate 0 257 101 0x20000 true, .startInner 1 (some 12) (some 2),
    .pthreadCreate 0 513 102 0x30000 false, .startInner 2 (some 13) (some 3), .exitProc 1]

end Win32GcThreads
