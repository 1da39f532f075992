import Mathlib.Logic.Function.Basic
import Mathlib.Order.Basic

/-!
# Discovery mode: `dll_thread_table`

With `GC_win32_dll_threads` set, each thread registers itself from `GC_DllMain` without the
allocation lock, taking a slot of `dll_thread_table` with `InterlockedExchange` and raising
`GC_max_thread_index`; `GC_delete_gc_thread_no_free` clears a slot field by field. The
collector stops and restarts the world by scanning the slots up to `GC_get_max_thread_index()`.
Every shared access is one step, as is the lookup scan of `GC_delete_thread` and
`GC_do_blocking`, and any number of threads interleave with the collector. The OS may hand out
a closed handle again, and `GetExitCodeThread`, `SuspendThread` and `ResumeThread` fail on a
closed one. Thread `t` has Win32 id and stack base `t + 1`; thread `0` is the main thread and
runs the collections.
-/

namespace Win32GcThreads

/-- `MAX_THREADS`. -/
def maxThreads : Nat := 512

/-- The fields of a `dll_thread_table` entry that the discovery-mode code reads and
writes; `flags` is split into its `DO_BLOCKING` and `IS_SUSPENDED` bits. -/
structure DllSlot where
  /-- `tm.in_use`. -/
  inUse : Bool
  /-- `id`, `0` for none. -/
  id : Nat
  /-- `handle`. -/
  handle : Nat
  /-- `stack_end`, `0` for NULL. -/
  stackEnd : Nat
  /-- `flags & DO_BLOCKING`. -/
  doBlocking : Bool
  /-- `flags & IS_SUSPENDED`. -/
  isSuspended : Bool
  deriving DecidableEq, Repr

/-- The zero-initialised static entry. -/
def DllSlot.empty : DllSlot := ⟨false, 0, 0, 0, false, false⟩

/-- The stores of `GC_delete_gc_thread_no_free`, discovery branch, in order. -/
inductive DeleteStep where
  /-- `CloseHandle(t->handle)`. -/
  | closeHandle
  /-- `t->stack_end = NULL`. -/
  | clearStackEnd
  /-- `t->id = 0`. -/
  | clearId
  /-- `t->flags = 0`. -/
  | clearFlags
  /-- `AO_store_release(&t->tm.in_use, FALSE)`. -/
  | release
  deriving DecidableEq, Repr

/-- The store after this one. -/
def DeleteStep.next : DeleteStep → Option DeleteStep
  | .closeHandle => some .clearStackEnd
  | .clearStackEnd => some .clearId
  | .clearId => some .clearFlags
  | .clearFlags => some .release
  | .release => none

/-- Where a thread is: in `GC_DllMain` (registering or deleting itself), in client
code, or in `GC_do_blocking`. `i` is the slot its registration took. -/
inductive DllPc where
  /-- Not yet created. -/
  | unborn
  /-- Created; `DLL_THREAD_ATTACH` has not run. -/
  | attach
  /-- `InterlockedExchange(&dll_thread_table[i].tm.long_in_use, 1)`. -/
  | claim (i : Nat)
  /-- `while (i > GC_max_thread_index)`. -/
  | raiseCheck (i : Nat)
  /-- `InterlockedIncrement(&GC_max_thread_index)`. -/
  | raiseIncrement (i : Nat)
  /-- `if (GC_max_thread_index >= MAX_THREADS)`. -/
  | clampCheck (i : Nat)
  /-- `GC_max_thread_index = MAX_THREADS - 1`. -/
  | clampStore (i : Nat)
  /-- `DuplicateHandle(..., &me->handle, ...)`. -/
  | duplicate (i : Nat)
  /-- `GC_record_stack_base`: `me->stack_end = sb->mem_base`. -/
  | recordStackBase (i : Nat)
  /-- `me->id = id`. -/
  | storeId (i : Nat)
  /-- `if (GC_please_stop)`. -/
  | checkStop (i : Nat)
  /-- `AO_store(&GC_attached_thread, TRUE)`. -/
  | storeAttached (i : Nat)
  /-- Registered, in client code. -/
  | running (i : Nat)
  /-- In `GC_do_blocking`, with `DO_BLOCKING` set on record `j`. -/
  | blocked (i j : Nat)
  /-- `DLL_THREAD_DETACH`: the store `d` of deleting record `j`. -/
  | deleting (j : Nat) (d : DeleteStep)
  /-- Terminated. -/
  | exited
  deriving DecidableEq, Repr

/-- The slot a registration owns: from the exchange that found it free until its
`in_use` is cleared. -/
def DllPc.slot? : DllPc → Option Nat
  | .raiseCheck i | .raiseIncrement i | .clampCheck i | .clampStore i | .duplicate i
  | .recordStackBase i | .storeId i | .checkStop i | .storeAttached i | .running i
  | .blocked i _ => some i
  | .deleting j _ => some j
  | _ => none

/-- Where the collector is in `GC_stop_world`, `GC_suspend` and `GC_start_world`;
`i` is the loop index and `my` the `my_max` the loop runs to. -/
inductive CollectorPc where
  /-- Not collecting. -/
  | idle
  /-- `GC_please_stop = TRUE`. -/
  | setPleaseStop
  /-- `AO_store(&GC_attached_thread, FALSE)`. -/
  | resetAttached
  /-- `my_max = (int)GC_get_max_thread_index()`. -/
  | readMax
  /-- `p -> stack_end != NULL`. -/
  | testStackEnd (i my : Nat)
  /-- `(p -> flags & DO_BLOCKING) == 0`. -/
  | testFlags (i my : Nat)
  /-- `p -> id != self_id`. -/
  | testId (i my : Nat)
  /-- `GC_suspend`: `GetExitCodeThread(t -> handle, &exitCode)`. -/
  | exitCode (i my : Nat)
  /-- `GC_suspend`: `SuspendThread(t -> handle)`. -/
  | suspend (i my : Nat)
  /-- `GC_suspend` on a terminated thread: store `d` of
  `GC_delete_gc_thread_no_free(t)`. -/
  | deleting (d : DeleteStep) (i my : Nat)
  /-- The read of `t -> flags |= IS_SUSPENDED` (`stopping`) or of
  `p -> flags &= ~IS_SUSPENDED`. -/
  | readFlags (stopping : Bool) (i my : Nat)
  /-- The write of that update, with the `DO_BLOCKING` bit read. -/
  | writeFlags (stopping : Bool) (i my : Nat) (blocking : Bool)
  /-- The world is stopped. -/
  | stopped
  /-- `GC_start_world`: `my_max = GC_get_max_thread_index()`. -/
  | startReadMax
  /-- `(p -> flags & IS_SUSPENDED) != 0`. -/
  | testSuspended (i my : Nat)
  /-- `ResumeThread(THREAD_HANDLE(p))`. -/
  | resume (i my : Nat)
  /-- `GC_please_stop = FALSE`. -/
  | clearPleaseStop
  deriving DecidableEq, Repr

/-- The shared memory, the OS, and two ghost variables. -/
structure DllState where
  /-- `dll_thread_table`. -/
  slots : Nat → DllSlot
  /-- `GC_max_thread_index`. -/
  maxIndex : Nat
  /-- `GC_please_stop`. -/
  pleaseStop : Bool
  /-- `GC_attached_thread`. -/
  attached : Bool
  /-- Every thread's place. -/
  pc : Nat → DllPc
  /-- The collector's place. -/
  cpc : CollectorPc
  /-- The open handles, each with the thread it refers to. -/
  handles : Nat → Option Nat
  /-- Each thread's suspend count. -/
  suspendCount : Nat → Nat
  /-- The message of the `ABORT` that ended the process. -/
  abort : Option String
  /-- Ghost: the largest slot index of a registration that left its
  `GC_max_thread_index` update loop. -/
  leftMax : Nat
  /-- Ghost: how often each slot's `in_use` was cleared. -/
  releases : Nat → Nat

/-- Before `GC_thr_init` registers the main thread. -/
def DllState.init : DllState :=
  ⟨fun _ => .empty, 0, false, false, fun t => if t = 0 then .attach else .unborn, .idle,
    fun _ => none, fun _ => 0, none, 0, fun _ => 0⟩

/-- `GC_get_max_thread_index()`. -/
def getMaxThreadIndex (s : DllState) : Nat :=
  if s.maxIndex ≥ maxThreads then maxThreads - 1 else s.maxIndex

/-- `GC_lookup_thread(id)`, discovery branch: the first slot up to
`GC_get_max_thread_index()` in use with that id. -/
def dllLookupThread (s : DllState) (id : Nat) : Option Nat :=
  (List.range (getMaxThreadIndex s + 1)).find? fun i => (s.slots i).inUse && (s.slots i).id == id

namespace DllState

/-- Thread `t` moves to `p`. -/
def setPc (s : DllState) (t : Nat) (p : DllPc) : DllState := { s with pc := Function.update s.pc t p }

/-- Slot `i` becomes `e`. -/
def setSlot (s : DllState) (i : Nat) (e : DllSlot) : DllState :=
  { s with slots := Function.update s.slots i e }

/-- The collector moves to `p`. -/
def setCpc (s : DllState) (p : CollectorPc) : DllState := { s with cpc := p }

/-- Handle `h` becomes open to `v`, or closed. -/
def setHandle (s : DllState) (h : Nat) (v : Option Nat) : DllState :=
  { s with handles := Function.update s.handles h v }

/-- Thread `x`'s suspend count becomes `n`. -/
def setSuspendCount (s : DllState) (x n : Nat) : DllState :=
  { s with suspendCount := Function.update s.suspendCount x n }

/-- The thread has started and not terminated. -/
def alive (s : DllState) (t : Nat) : Bool := s.pc t != .unborn && s.pc t != .exited

/-- Thread `t` can run: alive, not suspended, the process not aborted, and the main
thread not inside a collection. -/
def runnable (s : DllState) (t : Nat) : Bool :=
  s.alive t && s.suspendCount t == 0 && s.abort.isNone && (t != 0 || s.cpc == .idle)

end DllState

/-- The store `d` of `GC_delete_gc_thread_no_free` on slot `i`. -/
def deleteAccess (s : DllState) (i : Nat) : DeleteStep → DllState
  | .closeHandle => s.setHandle (s.slots i).handle none
  | .clearStackEnd => s.setSlot i { s.slots i with stackEnd := 0 }
  | .clearId => s.setSlot i { s.slots i with id := 0 }
  | .clearFlags => s.setSlot i { s.slots i with doBlocking := false, isSuspended := false }
  | .release =>
    { s.setSlot i { s.slots i with inUse := false } with
      releases := Function.update s.releases i (s.releases i + 1) }

/-- The next access of thread `t` in `GC_DllMain`. A registered thread's next
access is `DLL_THREAD_DETACH`; `DuplicateHandle`, `GC_do_blocking` and thread
creation are separate events. -/
def dllThreadStep (s : DllState) (t : Nat) : Option DllState :=
  match s.pc t with
  | .attach => some (s.setPc t (.claim 0))
  | .claim i =>
    let s' := s.setSlot i { s.slots i with inUse := true }
    if !(s.slots i).inUse then some (s'.setPc t (.raiseCheck i))
    else if i = maxThreads - 1 then some { s' with abort := some "Too many threads" }
    else some (s'.setPc t (.claim (i + 1)))
  | .raiseCheck i =>
    if i > s.maxIndex then some (s.setPc t (.raiseIncrement i))
    else some ({ s with leftMax := Nat.max s.leftMax i }.setPc t (.clampCheck i))
  | .raiseIncrement i => some ({ s with maxIndex := s.maxIndex + 1 }.setPc t (.raiseCheck i))
  | .clampCheck i =>
    some (s.setPc t (if s.maxIndex ≥ maxThreads then .clampStore i else .duplicate i))
  | .clampStore i => some ({ s with maxIndex := maxThreads - 1 }.setPc t (.duplicate i))
  | .recordStackBase i => some ((s.setSlot i { s.slots i with stackEnd := t + 1 }).setPc t (.storeId i))
  | .storeId i => some ((s.setSlot i { s.slots i with id := t + 1 }).setPc t (.checkStop i))
  | .checkStop i => some (s.setPc t (if s.pleaseStop then .storeAttached i else .running i))
  | .storeAttached i => some ({ s with attached := true }.setPc t (.running i))
  | .running _ =>
    match dllLookupThread s (t + 1) with
    | some j => some (s.setPc t (.deleting j .closeHandle))
    | none => some (s.setPc t .exited)
  | .deleting j d =>
    some ((deleteAccess s j d).setPc t (match d.next with | some d' => .deleting j d' | none => .exited))
  | _ => none

/-- The loop step of `GC_stop_world` after slot `i`. -/
def nextStop (i my : Nat) : CollectorPc := if i + 1 ≤ my then .testStackEnd (i + 1) my else .stopped

/-- The loop step of `GC_start_world` after slot `i`. -/
def nextStart (i my : Nat) : CollectorPc :=
  if i + 1 ≤ my then .testSuspended (i + 1) my else .clearPleaseStop

/-- The collector's next access. -/
def dllCollectorStep (s : DllState) : Option DllState :=
  match s.cpc with
  | .idle => match s.pc 0 with
    | .running _ => some (s.setCpc .setPleaseStop)
    | _ => none
  | .setPleaseStop => some ({ s with pleaseStop := true }.setCpc .resetAttached)
  | .resetAttached => some ({ s with attached := false }.setCpc .readMax)
  | .readMax => some (s.setCpc (.testStackEnd 0 (getMaxThreadIndex s)))
  | .testStackEnd i my =>
    some (s.setCpc (if (s.slots i).stackEnd != 0 then .testFlags i my else nextStop i my))
  | .testFlags i my => some (s.setCpc (if !(s.slots i).doBlocking then .testId i my else nextStop i my))
  | .testId i my => some (s.setCpc (if (s.slots i).id != 1 then .exitCode i my else nextStop i my))
  | .exitCode i my => some (s.setCpc
      (match s.handles (s.slots i).handle with
       | some x => if s.alive x then .suspend i my else .deleting .closeHandle i my
       | none => .suspend i my))
  | .suspend i my => match s.handles (s.slots i).handle with
    | some x => some ((s.setSuspendCount x (s.suspendCount x + 1)).setCpc (.readFlags true i my))
    | none => some { s with abort := some "SuspendThread failed" }
  | .deleting d i my =>
    some ((deleteAccess s i d).setCpc (match d.next with
      | some d' => .deleting d' i my
      | none => nextStop i my))
  | .readFlags stopping i my => some (s.setCpc (.writeFlags stopping i my (s.slots i).doBlocking))
  | .writeFlags stopping i my b =>
    some ((s.setSlot i { s.slots i with doBlocking := b, isSuspended := stopping }).setCpc
      (if stopping then nextStop i my else nextStart i my))
  | .stopped => some (s.setCpc .startReadMax)
  | .startReadMax => some (s.setCpc (.testSuspended 0 (getMaxThreadIndex s)))
  | .testSuspended i my =>
    some (s.setCpc (if (s.slots i).isSuspended then .resume i my else nextStart i my))
  | .resume i my => match s.handles (s.slots i).handle with
    | some x => some ((s.setSuspendCount x (s.suspendCount x - 1)).setCpc (.readFlags false i my))
    | none => some { s with abort := some "ResumeThread failed" }
  | .clearPleaseStop => some ({ s with pleaseStop := false }.setCpc .idle)

/-- One event: a thread's or the collector's next access, or an OS or client action
with the value the OS picks. -/
inductive DllEvent where
  /-- Thread `t`'s next access in `GC_DllMain`. -/
  | thread (t : Nat)
  /-- Thread `t`'s `DuplicateHandle` returns the handle `h`. -/
  | duplicate (t h : Nat)
  /-- Thread `t` enters `GC_do_blocking` (under the lock). -/
  | block (t : Nat)
  /-- Thread `t` leaves `GC_do_blocking` (under the lock). -/
  | unblock (t : Nat)
  /-- Thread `c` calls `CreateThread` for thread `t` and keeps the handle `h`. -/
  | create (c t h : Nat)
  /-- The collector's next access. -/
  | collector
  /-- `GC_started_thread_while_stopped()` while the world is stopped. -/
  | consume

/-- One step of the system: `none` when the event cannot happen now. -/
def dllStep (s : DllState) : DllEvent → Option DllState
  | .thread t => if s.runnable t then dllThreadStep s t else none
  | .duplicate t h => match s.pc t with
    | .duplicate i =>
      if s.runnable t && (s.handles h).isNone then
        some (((s.setHandle h (some t)).setSlot i { s.slots i with handle := h }).setPc t
          (.recordStackBase i))
      else none
    | _ => none
  | .block t => match s.pc t with
    | .running i =>
      if s.runnable t && s.cpc == .idle then
        match dllLookupThread s (t + 1) with
        | some j => some ((s.setSlot j { s.slots j with doBlocking := true }).setPc t (.blocked i j))
        | none => some { s with abort := some "NULL dereference in GC_do_blocking_inner" }
      else none
    | _ => none
  | .unblock t => match s.pc t with
    | .blocked i j =>
      if s.runnable t && s.cpc == .idle then
        some ((s.setSlot j { s.slots j with doBlocking := false }).setPc t (.running i))
      else none
    | _ => none
  | .create c t h =>
    let client := match s.pc c with | .running _ | .blocked _ _ => true | _ => false
    if s.runnable c && client && s.pc t == .unborn && (s.handles h).isNone then
      some ((s.setHandle h (some t)).setPc t .attach)
    else none
  | .collector => if s.abort.isNone && s.suspendCount 0 == 0 then dllCollectorStep s else none
  | .consume =>
    if s.abort.isNone && s.cpc == .stopped then some { s with attached := false } else none

/-- Run events in order. -/
def dllRun (s : DllState) : List DllEvent → Option DllState
  | [] => some s
  | e :: es => (dllStep s e).bind fun s' => dllRun s' es

/-! ## Runs

Each run starts from `DllState.init`; thread `0` registers in slot `0` and creates
the other threads. -/

/-- `n` accesses of thread `t`. -/
def threadSteps (t n : Nat) : List DllEvent := List.replicate n (.thread t)

/-- `n` accesses of the collector. -/
def collectorSteps (n : Nat) : List DllEvent := List.replicate n .collector

/-- Thread `0` registers in slot `0` with handle `10`. -/
def mainRegisters : List DllEvent := threadSteps 0 4 ++ [.duplicate 0 10] ++ threadSteps 0 3

/-- Thread `1`, created by thread `0` with handle `20`, registers in slot `1` with
handle `11`; the collector starts `GC_stop_world`, skips its own slot `0` and passes
the tests on slot `1`; thread `1` exits and closes handle `11`. -/
def closedHandleRun : List DllEvent :=
  mainRegisters ++ [.create 0 1 20] ++ threadSteps 1 7 ++ [.duplicate 1 11] ++
    threadSteps 1 3 ++ collectorSteps 10 ++ threadSteps 1 2

/-- The collector calls `GetExitCodeThread` on the handle of a slot whose owner
already closed it, then `SuspendThread` on it, and aborts. -/
theorem closedHandleRun_suspends_closed_handle :
    ∃ s, dllRun DllState.init closedHandleRun = some s ∧ s.cpc = .exitCode 1 1 ∧
      (s.slots 1).stackEnd ≠ 0 ∧ s.handles (s.slots 1).handle = none ∧
      (dllRun s (collectorSteps 2)).map DllState.abort = some (some "SuspendThread failed") :=
  ⟨_, rfl, by decide⟩

/-- As `closedHandleRun`, but thread `2` registers in slot `2` before the collector
calls `GetExitCodeThread`, and the OS gives its `DuplicateHandle` the value `11`
again; thread `1` finishes clearing slot `1` before the collector's
`t -> flags |= IS_SUSPENDED`. -/
def reusedHandleRun : List DllEvent :=
  mainRegisters ++ [.create 0 1 20, .create 0 2 21, .create 0 3 22] ++ threadSteps 1 7 ++
    [.duplicate 1 11] ++ threadSteps 1 3 ++ collectorSteps 10 ++ threadSteps 1 2 ++
    threadSteps 2 8 ++ [.duplicate 2 11] ++ threadSteps 2 4 ++ collectorSteps 2 ++
    threadSteps 1 4 ++ collectorSteps 2

/-- Thread `3` then registers in the freed slot `1` with handle `12`, and the
collector runs `GC_start_world`. -/
def reusedHandleTail : List DllEvent :=
  threadSteps 3 5 ++ [.duplicate 3 12] ++ threadSteps 3 4 ++ collectorSteps 9

/-- With the world stopped, slot `1` is marked `IS_SUSPENDED` with `stack_end`
NULL, and the thread suspended through it is thread `2`. After `GC_start_world`
returns, the `ResumeThread` for slot `1` went to thread `3`, and thread `2` stays
suspended. -/
theorem reusedHandleRun_leaves_thread_suspended :
    ∃ s s', dllRun DllState.init reusedHandleRun = some s ∧ dllRun s reusedHandleTail = some s' ∧
      s.cpc = .stopped ∧ (s.slots 1).isSuspended = true ∧ (s.slots 1).stackEnd = 0 ∧
      s.suspendCount 2 = 1 ∧
      s'.cpc = .idle ∧ (∀ i < 4, (s'.slots i).isSuspended = false) ∧ s'.suspendCount 2 = 1 :=
  ⟨_, _, rfl, rfl, by decide⟩

/-- Threads `1` (slot `1`, handle `11`) and `2` (slot `2`, handle `12`) register; the
collector starts `GC_stop_world` and passes the tests on slot `1`. Thread `1` exits,
and thread `3` takes slot `1`, whose `handle` field still holds `11`. Thread `2` calls
`CreateThread` for thread `4` and the OS gives it the handle value `11`; thread `4`
registers and exits. The collector's `GetExitCodeThread(11)` reports thread `4`
terminated, so `GC_suspend` deletes slot `1`, and thread `5` takes it. -/
def staleSlotRun : List DllEvent :=
  mainRegisters ++ [.create 0 1 20, .create 0 2 21, .create 0 3 22, .create 0 5 23] ++
    threadSteps 1 7 ++ [.duplicate 1 11] ++ threadSteps 1 3 ++
    threadSteps 2 8 ++ [.duplicate 2 12] ++ threadSteps 2 3 ++
    collectorSteps 10 ++ threadSteps 1 6 ++ threadSteps 3 5 ++ [.create 2 4 11] ++
    threadSteps 4 9 ++ [.duplicate 4 13] ++ threadSteps 4 10 ++ collectorSteps 6 ++ threadSteps 5 3

set_option maxRecDepth 2000 in
/-- Two registrations own slot `1`. -/
theorem staleSlotRun_two_owners :
    ∃ s, dllRun DllState.init staleSlotRun = some s ∧
      (s.pc 3).slot? = some 1 ∧ (s.pc 5).slot? = some 1 :=
  ⟨_, rfl, by decide⟩

/-- Thread `5` finishes registering in slot `1` while the first `GC_stop_world` is
still running, and that collection ends; thread `3` then finishes its registration
and overwrites `handle` and `id` of slot `1`. -/
def staleSlotMid : List DllEvent :=
  threadSteps 5 2 ++ [.duplicate 5 14] ++ threadSteps 5 4 ++ collectorSteps 17 ++
    [.duplicate 3 15] ++ threadSteps 3 3

/-- The second `GC_stop_world` suspends through slot `1` the thread its `handle`
now names. -/
def staleSlotStop : List DllEvent := collectorSteps 22

set_option maxRecDepth 2000 in
/-- Thread `5` registered before the second `GC_stop_world` began, its slot was not
released since it took it, and it is not in `GC_do_blocking`; yet with the world
stopped it is not suspended and `GC_attached_thread` is FALSE. -/
theorem staleSlotStop_misses_thread :
    ∃ s₁ s₂ s₃, dllRun DllState.init staleSlotRun = some s₁ ∧ dllRun s₁ staleSlotMid = some s₂ ∧
      dllRun s₂ staleSlotStop = some s₃ ∧
      s₁.pc 5 = .raiseCheck 1 ∧ s₂.cpc = .idle ∧ s₂.pc 5 = .running 1 ∧
      s₃.cpc = .stopped ∧ s₃.pc 5 = .running 1 ∧ s₃.releases 1 = s₁.releases 1 ∧
      (s₃.slots 1).doBlocking = false ∧ s₃.suspendCount 5 = 0 ∧ s₃.attached = false :=
  ⟨_, _, _, rfl, rfl, rfl, by decide⟩

/-- Thread `5` finishes registering in slot `1` while the first `GC_stop_world` is
still running, and that collection ends. -/
def staleSlotReady : List DllEvent :=
  threadSteps 5 2 ++ [.duplicate 5 14] ++ threadSteps 5 4 ++ collectorSteps 17

/-- A second `GC_stop_world` suspends thread `5` through slot `1`; then thread `3`,
whose claim on slot `1` is stale, finishes its registration and overwrites the slot,
and the stop loop ends. -/
def staleSlotLateWrite : List DllEvent :=
  collectorSteps 14 ++ [.duplicate 3 15] ++ threadSteps 3 4 ++ collectorSteps 8

set_option maxRecDepth 2000 in
/-- With the world stopped, slot `1`, whose registration completed before the stop
began and which was not released since, is in use with `stack_end` set, is neither the
collector's nor blocking, and has `IS_SUSPENDED`; but its handle names thread `3`,
which runs with suspend count `0`. The discovery loop of `GC_push_all_stacks` hands
the slot to `GC_push_stack_for`, whose `GetThreadContext` then reads a running thread. -/
theorem staleSlotLateWrite_scans_running_thread :
    ∃ s₁ s₂ s₃, dllRun DllState.init staleSlotRun = some s₁ ∧
      dllRun s₁ staleSlotReady = some s₂ ∧ dllRun s₂ staleSlotLateWrite = some s₃ ∧
      s₂.cpc = .idle ∧ s₂.pc 5 = .running 1 ∧ s₃.cpc = .stopped ∧ s₃.releases 1 = s₂.releases 1 ∧
      (s₃.slots 1).inUse = true ∧ (s₃.slots 1).stackEnd ≠ 0 ∧ (s₃.slots 1).id ≠ 1 ∧
      (s₃.slots 1).doBlocking = false ∧ (s₃.slots 1).isSuspended = true ∧
      s₃.handles (s₃.slots 1).handle = some 3 ∧ s₃.pc 3 = .running 1 ∧ s₃.suspendCount 3 = 0 :=
  ⟨_, _, _, rfl, rfl, rfl, by decide⟩

end Win32GcThreads
