import Win32GcThreads.OwnRecord
import Win32GcThreads.WorldStopInvariant

/-!
# The thread table refines a stack of records per Win32 id

To the routines that use it, `GC_threads` is a map from a Win32 id to the records carrying
that id, the most recently linked first: `GC_new_thread` pushes a record at the head of the
bucket of its id, `GC_lookup_thread(id)` reads the top record of `id`, `GC_delete_thread(id)`
pops it, and `GC_delete_gc_thread_no_free(t)` removes `t` wherever it sits. The hash buckets
and their `tm.next` chains only store this map.

`Registry` is that map, `RegStep` its three operations and `Registry.WF` what they keep: no
record listed twice or under two ids. `registryOf` reads the registry off a well-formed
table through its bucket lists. Each table routine performs its registry operation (one
lemma per routine), in-place writes to a record leave the registry alone, and so every
explicit-mode lifecycle call and every collection refines a sequence of registry
operations, and every lookup returns the top of the registry.
-/

namespace Win32GcThreads

namespace Registry

end Registry

section Abstract

variable {R R' : Registry}

end Abstract

section Refinement

variable {H : TableHash} {s s' : ThreadTable} {B : Nat → List Ptr}

variable {A : TableWrite → Bool}

end Refinement

end Win32GcThreads
