import Win32GcThreads.WorldStopInvariant

/-!
# Thread lifecycle in a build without `GC_PTHREADS`

The native Win32 build with `GC_win32_dll_threads` off. `GC_CreateThread` hands the start
routine to the new thread in a `win32_start_info` block; `GC_win32_start_inner` registers the
thread, ignoring `GC_DUPLICATE`, frees the block, and runs the routine in a `__try` whose
`__finally` unregisters it; `GC_ExitThread` unregisters and ends the thread. A record carries no
`pthread_t` and is never `DETACHED` or `FINISHED`. A collection differs in `GC_suspend` only: a
thread whose handle reports an exit code has its record unlinked by
`GC_delete_gc_thread_no_free` and not freed, after an assertion that fails in explicit mode.
Every routine runs under the allocation lock; `GC_do_blocking` and `GC_set_stackbottom` are as
in the `GC_PTHREADS` model, and parallel marking is left out.
-/

namespace Win32GcThreads

/-- One OS thread of the native build. -/
structure NativeThread where
  /-- `GetCurrentThreadId()`. -/
  win32Id : Nat
  /-- The stack base `GC_get_stack_base` reports for it. -/
  stackBase : Nat
  /-- Not yet terminated. -/
  alive : Bool
  /-- Created by `GC_CreateThread`: the `win32_start_info` block it was handed, until
  `GC_win32_start_inner` frees it. -/
  startInfo : Option Ptr
  /-- Running the start routine `GC_win32_start_inner` called. -/
  inStart : Bool
  deriving DecidableEq, Repr

/-- The process of the native build: the thread table, the OS threads (thread `0` being the
main one), and the live start-info blocks. -/
structure NativeRuntime where
  /-- `GC_threads` and the records. -/
  table : ThreadTable
  /-- Every OS thread of the process, by creation order. -/
  threads : List NativeThread
  /-- `win32_start_info` blocks from `GC_malloc_uncollectable` not yet passed to `GC_free`. -/
  startInfos : List Ptr
  /-- `GC_need_to_lock`. -/
  needToLock : Bool
  /-- `GC_thr_init` has run. -/
  initialized : Bool

namespace NativeRuntime

/-- A process whose main thread has not yet initialised the collector. -/
def start (main : NativeThread) : NativeRuntime := ⟨ThreadTable.init, [main], [], false, false⟩

/-- The thread with index `t`. -/
def thread? (rt : NativeRuntime) (t : Nat) : Option NativeThread := rt.threads[t]?

/-- Replace thread `t`. -/
def setThread (rt : NativeRuntime) (t : Nat) (th : NativeThread) : NativeRuntime :=
  { rt with threads := rt.threads.set t th }

/-- Replace the table. -/
def setTable (rt : NativeRuntime) (s : ThreadTable) : NativeRuntime := { rt with table := s }

/-- The OS may hand out the Win32 id `w`: no running thread has it, and no record linked in
`GC_threads` carries it, since such a record holds a handle of its thread that is closed only
when the record is unlinked. -/
def win32IdFree (H : TableHash) (rt : NativeRuntime) (w : Nat) : Bool :=
  rt.threads.all (fun th => !th.alive || th.win32Id != w) &&
    match gcLookupThread H rt.table w with
    | .ok none => true
    | _ => false

theorem win32IdFree_running {H : TableHash} {rt : NativeRuntime} {w : Nat}
    (h : rt.win32IdFree H w = true) {th : NativeThread} (hth : th ∈ rt.threads)
    (ha : th.alive = true) : th.win32Id ≠ w := by
  have := List.all_eq_true.mp (Bool.and_eq_true _ _ ▸ h).1 th hth
  simpa [ha] using this

@[simp] theorem setThread_table (rt : NativeRuntime) (t th) : (rt.setThread t th).table = rt.table :=
  rfl
@[simp] theorem setTable_table (rt : NativeRuntime) (s) : (rt.setTable s).table = s := rfl
@[simp] theorem setTable_threads (rt : NativeRuntime) (s) : (rt.setTable s).threads = rt.threads :=
  rfl
@[simp] theorem setThread_threads (rt : NativeRuntime) (t th) :
    (rt.setThread t th).threads = rt.threads.set t th := rfl

end NativeRuntime

section Routines

variable (H : TableHash)

/-- `GC_register_my_thread(sb)` without `GC_PTHREADS`, by the thread with Win32 id `w` and stack
base `sb`: a record for an id already in the table gives `GC_DUPLICATE`. The record has no
`pthread_id` field in this build; the model stores `0` there, which nothing reads. -/
def gcRegisterMyThreadNative (needToLock : Bool) (s : ThreadTable) (w sb : Nat)
    (dup : Option Nat) (alloc : Option Ptr) : Except Fault (ThreadTable × RegisterStatus) :=
  if !needToLock then .error (.abort "Threads explicit registering is not previously enabled")
  else do
    match ← gcLookupThread H s w with
    | none =>
      let (s, _) ← gcRegisterMyThreadInner H s sb w 0 dup alloc
      pure (s, .success)
    | some _ => pure (s, .duplicate)

/-- `GC_unregister_my_thread()` without `GC_PTHREADS`, explicit branch, by the thread with Win32
id `w`: `GC_delete_thread(GetCurrentThreadId())`. -/
def gcUnregisterMyThreadNative (s : ThreadTable) (w : Nat) : Except Fault ThreadTable :=
  gcDeleteThread H s w

/-- `GC_thr_init` in the main thread. -/
def gcThrInitNative (rt : NativeRuntime) (dup : Option Nat) : Option (Except Fault NativeRuntime) := do
  let main ← rt.thread? 0
  if rt.initialized then none else
  pure <| (gcRegisterMyThreadInner H rt.table main.stackBase main.win32Id 0 dup none).map
    fun (s, _) => { rt.setTable s with initialized := true }

/-- `GC_CreateThread` or `GC_beginthreadex` in thread `parent`, explicit branch. `psi` is the
answer of `GC_malloc_uncollectable`: on `NULL` the call returns `NULL`; otherwise
`set_need_to_lock` runs and `CreateThread` either starts a thread with Win32 id `w` (free for
reuse) and stack base `sb`, handing it the block, or fails (`created = false`) and the block is
freed. -/
def gcCreateThread (rt : NativeRuntime) (parent w sb : Nat) (psi : Option Ptr) (created : Bool) :
    Option NativeRuntime := do
  let th ← rt.thread? parent
  if !th.alive || th.startInfo.isSome || !rt.initialized then none else
  match psi with
  | none => some rt
  | some b =>
    if rt.startInfos.contains b then none
    else if !created then some { rt with needToLock := true }
    else if rt.win32IdFree H w then
      some { rt with
        threads := rt.threads ++ [⟨w, sb, true, some b, false⟩],
        startInfos := rt.startInfos ++ [b],
        needToLock := true }
    else none

/-- A thread the collector did not create (a plain `CreateThread`). -/
def nativeForeignCreate (rt : NativeRuntime) (w sb : Nat) : Option NativeRuntime :=
  if rt.win32IdFree H w then some { rt with threads := rt.threads ++ [⟨w, sb, true, none, false⟩] }
  else none

/-- `GC_win32_start_inner` in thread `t` up to the call of the start routine: register, ignoring
a `GC_DUPLICATE` answer, and `GC_free` the start info. -/
def gcWin32StartInner (rt : NativeRuntime) (t : Nat) (dup : Option Nat) (alloc : Option Ptr) :
    Option (Except Fault NativeRuntime) := do
  let th ← rt.thread? t
  let psi ← th.startInfo
  if !th.alive then none else
  pure <| (gcRegisterMyThreadNative H rt.needToLock rt.table th.win32Id th.stackBase dup alloc).map
    fun (s, _) => { (rt.setTable s).setThread t { th with startInfo := none, inStart := true } with
      startInfos := rt.startInfos.erase psi }

/-- The start routine of thread `t` returns: the `__finally` of `GC_win32_start_inner`
unregisters the thread, and its thread procedure returns, which ends it. -/
def gcWin32StartReturn (rt : NativeRuntime) (t : Nat) : Option (Except Fault NativeRuntime) := do
  let th ← rt.thread? t
  if !th.alive || !th.inStart then none else
  pure <| (gcUnregisterMyThreadNative H rt.table th.win32Id).map fun s =>
    (rt.setTable s).setThread t { th with alive := false, inStart := false }

/-- `GC_ExitThread` or `GC_endthreadex` in thread `t`: unregister, then end the thread. -/
def gcExitThread (rt : NativeRuntime) (t : Nat) : Option (Except Fault NativeRuntime) := do
  let th ← rt.thread? t
  if !th.alive || th.startInfo.isSome then none else
  pure <| (gcUnregisterMyThreadNative H rt.table th.win32Id).map fun s =>
    (rt.setTable s).setThread t { th with alive := false, inStart := false }

end Routines

section Collect

variable (H : TableHash) (assertions : Bool)

/-- `GC_suspend(t)` without `GC_PTHREADS`: the record of a thread that has exited is removed with
`GC_delete_gc_thread_no_free`, after `GC_ASSERT(GC_win32_dll_threads)` (line 1204), which fails
in explicit mode; any other thread is suspended and marked `IS_SUSPENDED`. -/
def gcSuspendNative (os : OsView) (s : ThreadTable) (t : Ptr) : Except Fault ThreadTable :=
  if os.exited (s.rep t).handle then
    if assertions then .error (.assertFailed 1204) else gcDeleteGcThreadNoFree H s t
  else .ok (updateRep s t fun r => { r with isSuspended := true })

/-- One iteration of the explicit loop of `GC_stop_world` without `GC_PTHREADS`. -/
def suspendIfWantedNative (os : OsView) (self : Nat) (s : ThreadTable) (p : Ptr) :
    Except Fault ThreadTable :=
  if suspendWanted self (s.rep p) then gcSuspendNative H assertions os s p else .ok s

/-- `GC_stop_world()` without `GC_PTHREADS`, explicit branch. -/
def gcStopWorldNative (os : OsView) (self : Nat) (s : ThreadTable) : Except Fault ThreadTable :=
  walkBuckets id (suspendIfWantedNative H assertions os self) (List.range H.size) s

/-- A collection without `GC_PTHREADS` by the thread with id `self`: stop the world, push every
stack, start the world. -/
def gcCollectNative (os : OsView) (self approxSp : Nat) (s : ThreadTable) (c : QueryCache) :
    Except Fault PushState := do
  let s ← gcStopWorldNative H assertions os self s
  let st ← gcPushAllStacks H assertions os self approxSp false ⟨s, c, false, []⟩
  let s ← gcStartWorld H assertions self st.table
  pure { st with table := s }

end Collect

/-- One call of the routines above, one OS action, or a collection, with the answers of the
allocators, of `DuplicateHandle`, of `CreateThread` and of the OS it receives. -/
inductive NativeEvent where
  /-- `GC_thr_init` in the main thread. -/
  | thrInit (dup : Option Nat)
  /-- `GC_CreateThread` or `GC_beginthreadex` in thread `parent`. -/
  | createThread (parent w sb : Nat) (psi : Option Ptr) (created : Bool)
  /-- The OS starts a thread the collector does not intercept. -/
  | foreignCreate (w sb : Nat)
  /-- `GC_win32_start_inner` in thread `t`, up to the start routine. -/
  | startInner (t : Nat) (dup : Option Nat) (alloc : Option Ptr)
  /-- The start routine of thread `t` returns. -/
  | startReturn (t : Nat)
  /-- `GC_ExitThread` or `GC_endthreadex` in thread `t`. -/
  | exitThread (t : Nat)
  /-- `GC_register_my_thread` in thread `t`. -/
  | register (t : Nat) (dup : Option Nat) (alloc : Option Ptr)
  /-- `GC_unregister_my_thread` in thread `t`. -/
  | unregister (t : Nat)
  /-- `GC_allow_register_threads` in thread `t`. -/
  | allowRegister (t : Nat)
  /-- Thread `t` ends without the collector: its thread procedure returns, or it calls
  `ExitThread`. -/
  | terminate (t : Nat)
  /-- A collection by thread `t` at stack pointer `approxSp`. -/
  | collect (t approxSp : Nat) (os : OsView)

/-- The native process with the collector's statics. -/
structure NativeSystem where
  /-- The threads and the table. -/
  rt : NativeRuntime
  /-- `last_address` and `last_info`. -/
  cache : QueryCache
  /-- Every range pushed by every collection, in order. -/
  pushed : List PushedRange

section Step

variable (H : TableHash) (assertions : Bool)

/-- Thread `t` runs its own code: it is alive and past `GC_win32_start_inner`'s registration if
the collector created it. -/
def NativeRuntime.running (rt : NativeRuntime) (t : Nat) : Option NativeThread :=
  (rt.thread? t).filter fun th => th.alive && th.startInfo.isNone

/-- One step: `none` when the event cannot happen now, otherwise the outcome. -/
def nativeStep (sys : NativeSystem) : NativeEvent → Option (Except Fault NativeSystem)
  | .thrInit dup => (gcThrInitNative H sys.rt dup).map (·.map fun rt => { sys with rt := rt })
  | .createThread parent w sb psi created =>
    (gcCreateThread H sys.rt parent w sb psi created).map fun rt => .ok { sys with rt := rt }
  | .foreignCreate w sb =>
    (nativeForeignCreate H sys.rt w sb).map fun rt => .ok { sys with rt := rt }
  | .startInner t dup alloc =>
    if allocOk sys.rt.table alloc then
      (gcWin32StartInner H sys.rt t dup alloc).map (·.map fun rt => { sys with rt := rt })
    else none
  | .startReturn t => (gcWin32StartReturn H sys.rt t).map (·.map fun rt => { sys with rt := rt })
  | .exitThread t => (gcExitThread H sys.rt t).map (·.map fun rt => { sys with rt := rt })
  | .register t dup alloc => do
    let th ← sys.rt.running t
    if !allocOk sys.rt.table alloc then none else
    pure <| (gcRegisterMyThreadNative H sys.rt.needToLock sys.rt.table th.win32Id th.stackBase dup
      alloc).map fun (s, _) => { sys with rt := sys.rt.setTable s }
  | .unregister t => do
    let th ← sys.rt.running t
    pure <| (gcUnregisterMyThreadNative H sys.rt.table th.win32Id).map fun s =>
      { sys with rt := sys.rt.setTable s }
  | .allowRegister t => do
    let _ ← sys.rt.running t
    pure (.ok { sys with rt := { sys.rt with needToLock := true } })
  | .terminate t => do
    let th ← sys.rt.running t
    pure (.ok { sys with rt := sys.rt.setThread t { th with alive := false, inStart := false } })
  | .collect t approxSp os => do
    let th ← sys.rt.running t
    if !sys.rt.initialized then none else
    pure ((gcCollectNative H assertions os th.win32Id approxSp sys.rt.table sys.cache).map
      fun st => ⟨sys.rt.setTable st.table, st.cache, sys.pushed ++ st.pushed⟩)

/-- Run events in order: `none` if one cannot happen, the fault if one faults. -/
def nativeRun (sys : NativeSystem) : List NativeEvent → Option (Except Fault NativeSystem)
  | [] => some (.ok sys)
  | e :: es =>
    match nativeStep H assertions sys e with
    | some (.ok sys') => nativeRun sys' es
    | r => r

end Step

/-- The native main thread: Win32 id `1`, stack base `0x10000`. -/
def nativeMain : NativeThread := ⟨1, 0x10000, true, none, false⟩

/-- A fresh native process. -/
def nativeStart : NativeSystem := ⟨NativeRuntime.start nativeMain, .init, []⟩

/-- The OS of a collection after the thread with handle `12` has exited. -/
def exitedOs : OsView :=
  ⟨fun h => h == 12, fun _ => none, [⟨0xF000, 0x10000, true⟩]⟩

/-- The main thread creates thread `1` (Win32 id `2`, stack base `0x40000`) with start info
`500`; thread `1` registers with record `2` (handle `12`); the main thread collects while it
runs; its start routine returns; the main thread leaves through `GC_ExitThread`. -/
def nativeExitRun : List NativeEvent :=
  [.thrInit (some 11), .createThread 0 2 0x40000 (some 500) true, .startInner 1 (some 12) (some 2),
    .collect 0 0xF800 firstScanOs, .startReturn 1, .exitThread 0]

/-- As `nativeExitRun`, but thread `1` ends with a plain `ExitThread` while still registered, and
the main thread then collects. -/
def nativeRawExitRun : List NativeEvent :=
  [.thrInit (some 11), .createThread 0 2 0x40000 (some 500) true, .startInner 1 (some 12) (some 2),
    .terminate 1, .collect 0 0xF800 exitedOs]

end Win32GcThreads
