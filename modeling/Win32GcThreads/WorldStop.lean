import Win32GcThreads.ThreadLifecycle

/-!
# Stopping the world and scanning the stacks in explicit mode

`GC_stop_world`, `GC_push_all_stacks` with `GC_push_stack_for`, and `GC_start_world`
over the explicit-mode table, run by the thread holding the allocation lock. The OS
answers are arguments: whether `GetExitCodeThread` reports a thread gone, the stack
pointer `GetThreadContext` reads, and the address space `VirtualQuery` describes. The
`VirtualQuery` cache `last_address`/`last_info` lives on from one collection to the
next. The build is GC_PTHREADS without `RETRY_GET_THREAD_CONTEXT`, WoW64 or WinCE;
`assertions` selects a `GC_ASSERTIONS` build with thread-local allocation. Collections
and lifecycle calls interleave in `GcSystem`.
-/

namespace Win32GcThreads

/-- One region of the address space as `VirtualQuery` reports it. -/
structure MemRegion where
  /-- `BaseAddress`. -/
  base : Nat
  /-- One past the region's last byte. -/
  limit : Nat
  /-- `Protect` has `PAGE_READWRITE` and not `PAGE_GUARD`. -/
  readWrite : Bool
  deriving DecidableEq, Repr

/-- The fields of `MEMORY_BASIC_INFORMATION` the code reads. -/
structure MemInfo where
  /-- `BaseAddress`. -/
  baseAddress : Nat
  /-- `(Protect & PAGE_READWRITE) && !(Protect & PAGE_GUARD)`. -/
  readWrite : Bool
  deriving DecidableEq, Repr

/-- `VirtualQuery(a)`: the first listed region holding `a`; an address in no listed
region is free memory, reported as starting at `a` and not readable. -/
def virtualQuery (mem : List MemRegion) (a : Nat) : MemInfo :=
  match mem.find? fun r => r.base ≤ a && a < r.limit with
  | some r => ⟨r.base, r.readWrite⟩
  | none => ⟨a, false⟩

/-- `lpMaximumApplicationAddress` of a 64-bit process: `VirtualQuery` of a higher address
fails. -/
def maxAppAddress : Nat := 0x7FFFFFFEFFFF

/-- `p - 1` on a `ptr_t`, in word arithmetic modulo `ADDR_LIMIT + 1`: below address 0 lies
`ADDR_LIMIT`. -/
def ptrPred (p : Nat) : Nat := (p + addrLimit) % (addrLimit + 1)

/-- The statics `last_address` and `last_info`. -/
structure QueryCache where
  /-- `last_address`. -/
  lastAddress : Nat
  /-- `last_info`. -/
  lastInfo : MemInfo
  deriving DecidableEq, Repr

namespace QueryCache

/-- The zero-initialised statics. -/
def init : QueryCache := ⟨0, ⟨0, false⟩⟩

/-- `VirtualQuery(s, &last_info, ...); last_address = s;`. Above the user address space the
call fails and leaves `last_info` as it was. -/
def load (c : QueryCache) (mem : List MemRegion) (s : Nat) : QueryCache :=
  ⟨s, if s ≤ maxAppAddress then virtualQuery mem s else c.lastInfo⟩

/-- `if (s != last_address) { VirtualQuery(s, &last_info, ...); last_address = s; }` -/
def query (c : QueryCache) (mem : List MemRegion) (s : Nat) : QueryCache :=
  if s ≠ c.lastAddress then c.load mem s else c

end QueryCache

/-- The `do ... while` loop of `GC_get_stack_min`: step below the region in
`last_info` while the page below is a readable stack page. A walk longer than the
number of regions is cycling. -/
def stackMinLoop (mem : List MemRegion) : Nat → QueryCache → Except Fault (Nat × QueryCache)
  | 0, _ => .error .diverged
  | n + 1, c =>
    let bottom := c.lastInfo.baseAddress
    let c := c.load mem (ptrPred bottom)
    if c.lastInfo.readWrite then stackMinLoop mem n c else .ok (bottom, c)

/-- `GC_get_stack_min(s)`: the lowest address of the readable run of regions that
holds `s`. -/
def gcGetStackMin (mem : List MemRegion) (s : Nat) (c : QueryCache) :
    Except Fault (Nat × QueryCache) :=
  stackMinLoop mem (mem.length + 1) (c.query mem s)

/-- `may_be_in_stack(s)`: the page at `s` is readable and unguarded. -/
def mayBeInStack (mem : List MemRegion) (s : Nat) (c : QueryCache) : Bool × QueryCache :=
  let c := c.query mem s
  (c.lastInfo.readWrite, c)

/-- What the OS answers during one collection, by thread handle. -/
structure OsView where
  /-- `GetExitCodeThread` succeeds with a code other than `STILL_ACTIVE`. -/
  exited : Nat → Bool
  /-- The stack pointer `GetThreadContext` reads; `none` when the call fails. -/
  context : Nat → Option Nat
  /-- The address space `VirtualQuery` describes. -/
  mem : List MemRegion

/-- `for (p = x; p != NULL; p = p -> tm.next) body(p)`, reading `tm.next` after the
body, with the walk fuel of `GC_threads`. -/
def walkChain {σ : Type} (tbl : σ → ThreadTable) (body : σ → Ptr → Except Fault σ) :
    Nat → σ → Option Ptr → Except Fault σ
  | _, st, none => .ok st
  | 0, _, some _ => .error .diverged
  | n + 1, st, some p => do
    let st ← body st p
    walkChain tbl body n st ((tbl st).next p)

/-- `for (i = 0; i < THREAD_TABLE_SZ; i++) for (p = GC_threads[i]; ...)` over the
buckets `hvs`. -/
def walkBuckets {σ : Type} (tbl : σ → ThreadTable) (body : σ → Ptr → Except Fault σ) :
    List Nat → σ → Except Fault σ
  | [], st => .ok st
  | hv :: hvs, st => do
    let st ← walkChain tbl body (tbl st).fuel st ((tbl st).heads hv)
    walkBuckets tbl body hvs st

/-- `GC_suspend(t)`: a thread that has exited loses its stack (`stack_end = NULL`);
any other is suspended through its handle and marked `IS_SUSPENDED`. -/
def gcSuspend (os : OsView) (s : ThreadTable) (t : Ptr) : ThreadTable :=
  if os.exited (s.rep t).handle then updateRep s t fun r => { r with stackEnd := 0 }
  else updateRep s t fun r => { r with isSuspended := true }

/-- The test of the explicit loop of `GC_stop_world`. -/
def suspendWanted (self : Nat) (r : ThreadRep) : Bool :=
  r.stackEnd != 0 && r.id != self && !(r.finished || r.doBlocking)

/-- The test of the explicit loop of `GC_push_all_stacks`. -/
def pushWanted (r : ThreadRep) : Bool := !r.knownFinished && r.stackEnd != 0

/-- A range handed to the mark stack. -/
inductive PushedRange where
  /-- `GC_push_all_stack_sections(lo, hi, traced_stack_sect)`. -/
  | sections (lo hi traced : Nat)
  /-- `GC_push_all_stack(lo, hi)`. -/
  | all (lo hi : Nat)
  deriving DecidableEq, Repr

/-- What the loop of `GC_push_all_stacks` carries. -/
structure PushState where
  /-- The records, whose `last_stack_min` the loop updates. -/
  table : ThreadTable
  /-- `last_address` and `last_info`. -/
  cache : QueryCache
  /-- `found_me`. -/
  foundMe : Bool
  /-- The ranges pushed so far, in order. -/
  pushed : List PushedRange

section Collect

variable (H : TableHash) (assertions : Bool)

/-- One iteration of the explicit loop of `GC_stop_world`. -/
def suspendIfWanted (os : OsView) (self : Nat) (s : ThreadTable) (p : Ptr) : ThreadTable :=
  if suspendWanted self (s.rep p) then gcSuspend os s p else s

/-- `GC_stop_world()` by the thread whose id is `self`, explicit branch. -/
def gcStopWorld (os : OsView) (self : Nat) (s : ThreadTable) : Except Fault ThreadTable :=
  walkBuckets id (fun s p => .ok (suspendIfWanted os self s p)) (List.range H.size) s

/-- The start of `GC_push_stack_for` (lines 1478-1525): the stack pointer to scan
from, and whether the record is the caller's. -/
def stackPointerFor (os : OsView) (self approxSp : Nat) (t : ThreadRep) :
    Except Fault (Nat × Bool) :=
  if t.id = self then
    if assertions && t.doBlocking then .error (.assertFailed 1480) else .ok (approxSp, true)
  else if t.doBlocking then .ok (t.stackPtr, false)
  else
    match os.context t.handle with
    | none => .error (.abort "GetThreadContext failed")
    | some sp =>
      if assertions && !t.isSuspended then .error (.assertFailed 1524) else .ok (sp, false)

/-- Lines 1589-1635 of `GC_push_stack_for`: `stack_min`, the new `last_stack_min`,
and the cache. -/
def stackMinFor (mem : List MemRegion) (t : ThreadRep) (sp : Nat) (isSelf : Bool)
    (c : QueryCache) : Except Fault (Nat × Nat × QueryCache) :=
  let traced := t.tracedStackSect
  if t.lastStackMin = addrLimit then do
    let (m, c) ← gcGetStackMin mem (if traced ≠ 0 then traced else t.stackEnd) c
    pure (m, m, c)
  else
    let lsm := if traced ≠ 0 && t.lastStackMin > traced then traced else t.lastStackMin
    if sp < t.stackEnd && sp ≥ lsm then .ok (sp, lsm, c)
    else do
      let (inStack, c) := mayBeInStack mem (if isSelf && sp < lsm then sp else lsm) c
      let (m, c) ← if inStack then
          if sp < c.lastInfo.baseAddress || sp ≥ t.stackEnd then gcGetStackMin mem lsm c
          else pure (c.lastInfo.baseAddress, c)
        else gcGetStackMin mem t.stackEnd c
      pure (m, m, c)

/-- The `GC_ASSERT` on `stack_min` (line 1637), whose `GC_get_stack_min` calls go
through the cache too. -/
def checkStackMin (mem : List MemRegion) (t : ThreadRep) (sp stackMin : Nat) (c : QueryCache) :
    Except Fault QueryCache :=
  if !assertions then .ok c else do
  let (m, c) ← gcGetStackMin mem t.stackEnd c
  if stackMin = m then .ok c
  else if sp ≥ stackMin && stackMin < t.stackEnd then do
    let (m', c) ← gcGetStackMin mem t.stackEnd c
    if stackMin > m' then .ok c else .error (.assertFailed 1637)
  else .error (.assertFailed 1637)

/-- The range `GC_push_stack_for` pushes (lines 1644-1664). -/
def rangeFor (t : ThreadRep) (sp stackMin : Nat) : PushedRange :=
  if sp ≥ stackMin && sp < t.stackEnd then .sections sp t.stackEnd t.tracedStackSect
  else .all stackMin t.stackEnd

/-- `GC_push_stack_for(thread, self_id, &found_me)`. -/
def gcPushStackFor (os : OsView) (self approxSp : Nat) (st : PushState) (p : Ptr) :
    Except Fault PushState := do
  let t := st.table.rep p
  let (sp, isSelf) ← stackPointerFor assertions os self approxSp t
  let (stackMin, lsm, c) ← stackMinFor os.mem t sp isSelf st.cache
  let c ← checkStackMin assertions os.mem t sp stackMin c
  let t := { t with lastStackMin := lsm }
  pure ⟨st.table.setRep p t, c, st.foundMe || isSelf, st.pushed ++ [rangeFor t sp stackMin]⟩

/-- One iteration of the explicit loop of `GC_push_all_stacks`. -/
def pushIfWanted (os : OsView) (self approxSp : Nat) (st : PushState) (p : Ptr) :
    Except Fault PushState :=
  if pushWanted (st.table.rep p) then gcPushStackFor assertions os self approxSp st p else .ok st

/-- `GC_push_all_stacks()`, explicit branch. -/
def gcPushAllStacks (os : OsView) (self approxSp : Nat) (inThreadCreation : Bool)
    (st : PushState) : Except Fault PushState := do
  let st ← walkBuckets PushState.table (pushIfWanted assertions os self approxSp)
    (List.range H.size) st
  if !st.foundMe && !inThreadCreation then .error (.abort "Collecting from unknown thread")
  else .ok st

/-- `GC_push_stack_for` with the value it returns, `thread -> stack_end - sp` in word
arithmetic (line 1666). -/
def gcPushStackForCount (os : OsView) (self approxSp : Nat) (st : PushState) (p : Ptr) :
    Except Fault (PushState × BitVec 64) := do
  let (sp, _) ← stackPointerFor assertions os self approxSp (st.table.rep p)
  let st' ← gcPushStackFor assertions os self approxSp st p
  pure (st', BitVec.ofNat 64 (st.table.rep p).stackEnd - BitVec.ofNat 64 sp)

/-- One iteration of the explicit loop of `GC_push_all_stacks`, adding the count to
`total_size`. -/
def pushCountIfWanted (os : OsView) (self approxSp : Nat) (acc : PushState × BitVec 64)
    (p : Ptr) : Except Fault (PushState × BitVec 64) :=
  if pushWanted (acc.1.table.rep p) then
    (gcPushStackForCount assertions os self approxSp acc.1 p).map fun r => (r.1, acc.2 + r.2)
  else .ok acc

/-- `GC_push_all_stacks()`, explicit branch, with the `total_size` it stores in
`GC_total_stacksize`. -/
def gcPushAllStacksTotal (os : OsView) (self approxSp : Nat) (inThreadCreation : Bool)
    (st : PushState) : Except Fault (PushState × BitVec 64) := do
  let (st, total) ← walkBuckets (·.1.table) (pushCountIfWanted assertions os self approxSp)
    (List.range H.size) (st, 0)
  if !st.foundMe && !inThreadCreation then .error (.abort "Collecting from unknown thread")
  else .ok (st, total)

/-- One iteration of the explicit loop of `GC_start_world`: resume and unmark a
suspended record. -/
def resumeIfSuspended (self : Nat) (s : ThreadTable) (p : Ptr) : Except Fault ThreadTable :=
  if (s.rep p).isSuspended then
    if assertions && !((s.rep p).stackEnd != 0 && (s.rep p).id != self) then
      .error (.assertFailed 1333)
    else .ok (updateRep s p fun r => { r with isSuspended := false })
  else .ok s

/-- `GC_start_world()`, explicit branch. -/
def gcStartWorld (self : Nat) (s : ThreadTable) : Except Fault ThreadTable :=
  walkBuckets id (resumeIfSuspended assertions self) (List.range H.size) s

/-- A collection by the thread with id `self` at stack pointer `approxSp`: stop the
world, push every stack, start the world. -/
def gcCollect (os : OsView) (self approxSp : Nat) (s : ThreadTable) (c : QueryCache) :
    Except Fault PushState := do
  let s ← gcStopWorld H os self s
  let st ← gcPushAllStacks H assertions os self approxSp false ⟨s, c, false, []⟩
  let s ← gcStartWorld H assertions self st.table
  pure { st with table := s }

end Collect

/-- The process with the collector's statics. -/
structure GcSystem where
  /-- The threads and the table. -/
  rt : Runtime
  /-- `last_address` and `last_info`. -/
  cache : QueryCache
  /-- Every range pushed by every collection, in order. -/
  pushed : List PushedRange

/-- A lifecycle call, or a collection by thread `t` at stack pointer `approxSp`. -/
inductive SysEvent where
  | life (e : LifeEvent)
  | collect (t approxSp : Nat) (os : OsView)

section Step

variable (H : TableHash) (assertions : Bool)

/-- One step of the process. A collection runs in a live thread outside
`GC_do_blocking`, after `GC_thr_init`. -/
def sysStep (sys : GcSystem) : SysEvent → Option (Except Fault GcSystem)
  | .life e => (lifeStep H sys.rt e).map (·.map fun rt => { sys with rt := rt })
  | .collect t approxSp os => do
    let th ← sys.rt.thread? t
    if !th.alive || !sys.rt.initialized || th.blocking.isSome then none else
    pure ((gcCollect H assertions os th.win32Id approxSp sys.rt.table sys.cache).map fun st =>
      ⟨sys.rt.setTable st.table, st.cache, sys.pushed ++ st.pushed⟩)

/-- Run events in order: `none` if one cannot happen, the fault if one faults. -/
def sysRun (sys : GcSystem) : List SysEvent → Option (Except Fault GcSystem)
  | [] => some (.ok sys)
  | e :: es =>
    match sysStep H assertions sys e with
    | some (.ok sys') => sysRun sys' es
    | r => r

/-- The systems reached from a fresh process. -/
inductive SysReachable : GcSystem → Prop
  | start (main : OsThread) : SysReachable ⟨Runtime.start main, .init, []⟩
  | step {sys sys' : GcSystem} {e : SysEvent} : SysReachable sys →
      sysStep H assertions sys e = some (.ok sys') → SysReachable sys'

end Step

end Win32GcThreads
