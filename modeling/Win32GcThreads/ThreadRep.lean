import Mathlib.Data.List.Basic

/-!
# Thread records of the Win32 thread layer

The fields of `struct GC_Thread_Rep` that the modelled routines of `win32_threads.c`
read or write, with its flag bits as separate booleans. The private header that
defines the record, `THREAD_TABLE_SZ` and `THREAD_TABLE_INDEX` is not part of the
source; the bucket function is therefore a parameter carrying its own range proof.
Thread-local free lists, the IA64 backing-store fields and `status` are left out:
no modelled routine reads them.
-/

namespace Win32GcThreads

/-- Addresses, thread ids, handles and `pthread_t` values are modelled by their
numeric value. A stored address of zero is NULL; a nullable record pointer is an
`Option Ptr`. -/
abbrev Ptr := Nat

/-- `ADDR_LIMIT`, i.e. `(ptr_t)GC_WORD_MAX` on a 64-bit target. -/
def addrLimit : Nat := 0xFFFFFFFFFFFFFFFF

/-- The record of one tracked thread (`struct GC_Thread_Rep`, minus `tm.next`,
which the table keeps as a separate next-pointer map). -/
structure ThreadRep where
  /-- Win32 thread id; zero until the registering code stores it. -/
  id : Nat
  /-- The `pthread_t` of the thread (GC_PTHREADS builds). -/
  pthreadId : Nat
  /-- Handle duplicated by the thread itself and owned by the record. -/
  handle : Nat
  /-- Cold end of the stack; zero is NULL (not yet registered, or neutralised). -/
  stackEnd : Nat
  /-- Cached hottest known stack address, `addrLimit` when unknown. -/
  lastStackMin : Nat
  /-- Approximate sp saved on entry to a blocking call. -/
  stackPtr : Nat
  /-- Innermost traced stack section; zero is NULL. -/
  tracedStackSect : Nat
  /-- Stack pointer captured by `GC_suspend` (RETRY_GET_THREAD_CONTEXT builds). -/
  contextSp : Nat
  /-- `FINISHED`: ran to completion, not yet reclaimed. -/
  finished : Bool
  /-- `DETACHED`: reclaimed as soon as it unregisters. -/
  detached : Bool
  /-- `DO_BLOCKING`: inside `GC_do_blocking`, registers not current. -/
  doBlocking : Bool
  /-- `IS_SUSPENDED`: suspended by the current `GC_stop_world`. -/
  isSuspended : Bool
  deriving DecidableEq, Repr

/-- Cleared memory: what `GC_INTERNAL_MALLOC(..., NORMAL)` returns and what the
static `first_thread` holds before its first use. -/
def ThreadRep.zero : ThreadRep :=
  ⟨0, 0, 0, 0, 0, 0, 0, 0, false, false, false, false⟩

/-- `KNOWN_FINISHED(t)`. -/
def ThreadRep.knownFinished (t : ThreadRep) : Bool := t.finished

/-- `THREAD_TABLE_SZ` and `THREAD_TABLE_INDEX`: a bucket count and a bucket
function into range. -/
structure TableHash where
  /-- `THREAD_TABLE_SZ`. -/
  size : Nat
  /-- `THREAD_TABLE_INDEX(id)`. -/
  index : Nat → Nat
  /-- Every id hashes to an existing bucket. -/
  index_lt : ∀ id, index id < size

/-- `THREAD_TABLE_INDEX` comes from a header outside the source; concrete runs use
`THREAD_TABLE_SZ = 256` and the low byte of the id. -/
def lowByteHash : TableHash := ⟨256, fun id => id % 256, fun _ => Nat.mod_lt _ (by decide)⟩

/-- The static record `first_thread`, used for the first registration. Heap
records are allocated at other addresses. -/
def firstThread : Ptr := 1

end Win32GcThreads
