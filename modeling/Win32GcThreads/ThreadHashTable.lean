import Win32GcThreads.PointerChain

/-!
# The explicit-mode thread table

`GC_threads` as the code lays it out: bucket heads, records linked by `tm.next`,
the static `first_thread`, and the allocator the records come from. Every pointer
walk runs with fuel, the number of records that exist plus two: a walk over a
well-formed bucket ends well within it, and one that does not is cycling. The table
routines are `GC_new_thread`, the explicit branch of `GC_register_my_thread_inner`,
`GC_lookup_thread`, `GC_delete_gc_thread_no_free`, `GC_delete_thread` and the
fork-child `GC_remove_all_threads_but_me`. `CloseHandle` and `GC_INTERNAL_FREE`
are recorded in logs, in call order.
-/

namespace Win32GcThreads

/-- What ends a run of the modelled code. -/
inductive Fault where
  /-- A `p -> field` access with `p == NULL`. -/
  | nullDeref
  /-- A pointer walk longer than the number of existing records: a cycle. -/
  | diverged
  /-- `ABORT(msg)`. -/
  | abort (msg : String)
  /-- The `GC_ASSERT` at this source line fails, in a `GC_ASSERTIONS` build. -/
  | assertFailed (line : Nat)
  deriving DecidableEq, Repr

/-- Results of the modelled routines compare by value. -/
instance instDecidableEqExcept {ε α : Type} [DecidableEq ε] [DecidableEq α] :
    DecidableEq (Except ε α)
  | .ok a, .ok b => if h : a = b then isTrue (h ▸ rfl) else isFalse fun e => h (Except.ok.inj e)
  | .error a, .error b =>
    if h : a = b then isTrue (h ▸ rfl) else isFalse fun e => h (Except.error.inj e)
  | .ok _, .error _ => isFalse Except.noConfusion
  | .error _, .ok _ => isFalse Except.noConfusion

/-- `Except.ok a >>= f` runs `f a`. -/
@[simp] theorem except_ok_bind {ε α β : Type} (a : α) (f : α → Except ε β) :
    (Except.ok a >>= f : Except ε β) = f a := rfl

/-- A fault passes through a bind. -/
@[simp] theorem except_error_bind {ε α β : Type} (e : ε) (f : α → Except ε β) :
    (Except.error e >>= f : Except ε β) = Except.error e := rfl

/-- A bind returns a value exactly when both of its stages do. -/
theorem except_bind_eq_ok {ε α β : Type} {e : Except ε α} {f : α → Except ε β} {b : β} :
    e >>= f = .ok b ↔ ∃ a, e = .ok a ∧ f a = .ok b := by
  cases e <;> simp

/-- A mapped result is a value exactly when the original one is. -/
@[simp] theorem except_map_eq_ok {ε α β : Type} {f : α → β} {e : Except ε α} {b : β} :
    e.map f = .ok b ↔ ∃ a, e = .ok a ∧ f a = b := by
  cases e <;> simp [Except.map]

/-- Mapping keeps the fault. -/
@[simp] theorem except_map_eq_error {ε α β : Type} {f : α → β} {e : Except ε α} {x : ε} :
    e.map f = .error x ↔ e = .error x := by
  cases e <;> simp [Except.map]

/-- The explicit-mode table and the records it links. -/
structure ThreadTable where
  /-- `GC_threads[h]`, the head of bucket `h`. -/
  heads : Nat → Option Ptr
  /-- `tm.next` of every record. -/
  next : Ptr → Option Ptr
  /-- The remaining fields of every record. -/
  rep : Ptr → ThreadRep
  /-- `first_thread_used`. -/
  firstThreadUsed : Bool
  /-- Records obtained from `GC_INTERNAL_MALLOC` and not yet freed. -/
  allocated : List Ptr
  /-- Every argument passed to `GC_INTERNAL_FREE`, in call order. -/
  freed : List Ptr
  /-- Every handle passed to `CloseHandle`, in call order. -/
  closed : List Nat

/-- The fields `GC_register_my_thread_inner` stores into the record it takes:
`pthread_id`, `handle`, `last_stack_min`, `stack_end` (by `GC_record_stack_base`)
and, last, `id`. -/
def ThreadRep.registered (r : ThreadRep) (sb id self h : Nat) : ThreadRep :=
  { r with pthreadId := self, handle := h, lastStackMin := addrLimit, stackEnd := sb, id := id }

/-- Registration gives the record the id it is passed. -/
@[simp] theorem ThreadRep.registered_id (r : ThreadRep) (sb id self h) :
    (r.registered sb id self h).id = id := rfl

namespace ThreadTable

/-- The zero-initialised statics before any registration. -/
def init : ThreadTable :=
  ⟨fun _ => none, fun _ => none, fun _ => ThreadRep.zero, false, [], [], []⟩

/-- Iterations granted to a pointer walk: more than any acyclic walk can need. -/
def fuel (s : ThreadTable) : Nat := s.allocated.length + 2

/-- Store a whole record. -/
def setRep (s : ThreadTable) (p : Ptr) (r : ThreadRep) : ThreadTable :=
  { s with rep := Function.update s.rep p r }

/-- `CloseHandle(h)`. -/
def closeHandle (s : ThreadTable) (h : Nat) : ThreadTable :=
  { s with closed := s.closed ++ [h] }

/-- `GC_INTERNAL_FREE(p)`. -/
def internalFree (s : ThreadTable) (p : Ptr) : ThreadTable :=
  { s with allocated := s.allocated.erase p, freed := s.freed ++ [p] }

/-- A `GC_INTERNAL_MALLOC` that returned `p`: cleared memory. -/
def allocate (s : ThreadTable) (p : Ptr) : ThreadTable :=
  { s with allocated := s.allocated ++ [p], rep := Function.update s.rep p ThreadRep.zero }

/-- `if (prev == 0) GC_threads[hv] = p->tm.next; else prev->tm.next = p->tm.next;` -/
def unlink (s : ThreadTable) (hv : Nat) (prev : Option Ptr) (p : Ptr) : ThreadTable :=
  match prev with
  | none => { s with heads := Function.update s.heads hv (s.next p) }
  | some q => { s with next := Function.update s.next q (s.next p) }

/-- `result -> tm.next = GC_threads[hv]; GC_threads[hv] = result;` -/
def linkFront (s : ThreadTable) (hv : Nat) (r : Ptr) : ThreadTable :=
  { s with next := Function.update s.next r (s.heads hv),
           heads := Function.update s.heads hv (some r) }

/-! Each table operation writes its own fields; the lemmas below say what it leaves. -/
@[simp] theorem setRep_heads (s : ThreadTable) (p r) : (s.setRep p r).heads = s.heads := rfl
@[simp] theorem setRep_next (s : ThreadTable) (p r) : (s.setRep p r).next = s.next := rfl
@[simp] theorem setRep_rep (s : ThreadTable) (p r) :
    (s.setRep p r).rep = Function.update s.rep p r := rfl
@[simp] theorem setRep_allocated (s : ThreadTable) (p r) :
    (s.setRep p r).allocated = s.allocated := rfl
@[simp] theorem setRep_firstThreadUsed (s : ThreadTable) (p r) :
    (s.setRep p r).firstThreadUsed = s.firstThreadUsed := rfl
@[simp] theorem setRep_freed (s : ThreadTable) (p r) : (s.setRep p r).freed = s.freed := rfl
@[simp] theorem setRep_closed (s : ThreadTable) (p r) : (s.setRep p r).closed = s.closed := rfl

@[simp] theorem closeHandle_heads (s : ThreadTable) (h) : (s.closeHandle h).heads = s.heads := rfl
@[simp] theorem closeHandle_next (s : ThreadTable) (h) : (s.closeHandle h).next = s.next := rfl
@[simp] theorem closeHandle_rep (s : ThreadTable) (h) : (s.closeHandle h).rep = s.rep := rfl
@[simp] theorem closeHandle_allocated (s : ThreadTable) (h) :
    (s.closeHandle h).allocated = s.allocated := rfl
@[simp] theorem closeHandle_firstThreadUsed (s : ThreadTable) (h) :
    (s.closeHandle h).firstThreadUsed = s.firstThreadUsed := rfl
@[simp] theorem closeHandle_freed (s : ThreadTable) (h) : (s.closeHandle h).freed = s.freed := rfl
@[simp] theorem closeHandle_closed (s : ThreadTable) (h) :
    (s.closeHandle h).closed = s.closed ++ [h] := rfl

@[simp] theorem internalFree_heads (s : ThreadTable) (p) : (s.internalFree p).heads = s.heads := rfl
@[simp] theorem internalFree_next (s : ThreadTable) (p) : (s.internalFree p).next = s.next := rfl
@[simp] theorem internalFree_rep (s : ThreadTable) (p) : (s.internalFree p).rep = s.rep := rfl
@[simp] theorem internalFree_allocated (s : ThreadTable) (p) :
    (s.internalFree p).allocated = s.allocated.erase p := rfl
@[simp] theorem internalFree_firstThreadUsed (s : ThreadTable) (p) :
    (s.internalFree p).firstThreadUsed = s.firstThreadUsed := rfl
@[simp] theorem internalFree_freed (s : ThreadTable) (p) :
    (s.internalFree p).freed = s.freed ++ [p] := rfl
@[simp] theorem internalFree_closed (s : ThreadTable) (p) :
    (s.internalFree p).closed = s.closed := rfl

@[simp] theorem unlink_rep (s : ThreadTable) (hv prev p) : (s.unlink hv prev p).rep = s.rep := by
  cases prev <;> rfl
@[simp] theorem unlink_allocated (s : ThreadTable) (hv prev p) :
    (s.unlink hv prev p).allocated = s.allocated := by cases prev <;> rfl
@[simp] theorem unlink_firstThreadUsed (s : ThreadTable) (hv prev p) :
    (s.unlink hv prev p).firstThreadUsed = s.firstThreadUsed := by cases prev <;> rfl
@[simp] theorem unlink_freed (s : ThreadTable) (hv prev p) :
    (s.unlink hv prev p).freed = s.freed := by cases prev <;> rfl
@[simp] theorem unlink_closed (s : ThreadTable) (hv prev p) :
    (s.unlink hv prev p).closed = s.closed := by cases prev <;> rfl

@[simp] theorem linkFront_rep (s : ThreadTable) (hv r) : (s.linkFront hv r).rep = s.rep := rfl
@[simp] theorem linkFront_allocated (s : ThreadTable) (hv r) :
    (s.linkFront hv r).allocated = s.allocated := rfl
@[simp] theorem linkFront_firstThreadUsed (s : ThreadTable) (hv r) :
    (s.linkFront hv r).firstThreadUsed = s.firstThreadUsed := rfl
@[simp] theorem linkFront_freed (s : ThreadTable) (hv r) : (s.linkFront hv r).freed = s.freed := rfl
@[simp] theorem linkFront_closed (s : ThreadTable) (hv r) :
    (s.linkFront hv r).closed = s.closed := rfl

/-- Closing a handle keeps the bound on chain walks. -/
@[simp] theorem fuel_closeHandle (s : ThreadTable) (h) : (s.closeHandle h).fuel = s.fuel := rfl

end ThreadTable

/-- `for (p = x; p != NULL; p = p -> tm.next) if (test(p)) break;`, the search of
`GC_lookup_thread` and `GC_lookup_by_pthread`. -/
def findFirst (next : Ptr → Option Ptr) (test : Ptr → Bool) :
    Nat → Option Ptr → Except Fault (Option Ptr)
  | _, none => .ok none
  | 0, some _ => .error .diverged
  | n + 1, some p => if test p then .ok (some p) else findFirst next test n (next p)

/-- The unlink searches `while (!test(p)) { prev = p; p = p -> tm.next; }` of
`GC_delete_gc_thread_no_free` and `GC_delete_thread`; they dereference NULL when
they run off the bucket. Returns `prev` and the record found. -/
def findPrevBy (next : Ptr → Option Ptr) (test : Ptr → Bool) :
    Nat → Option Ptr → Option Ptr → Except Fault (Option Ptr × Ptr)
  | _, _, none => .error .nullDeref
  | 0, _, some _ => .error .diverged
  | n + 1, prev, some p =>
    if test p then .ok (prev, p) else findPrevBy next test n (some p) (next p)

section Routines

variable (H : TableHash)

/-- The record `GC_new_thread` takes: `first_thread` once, otherwise the
allocator's answer `alloc` (NULL on failure). -/
def takeRecord (s : ThreadTable) (alloc : Option Ptr) : Option (ThreadTable × Ptr) :=
  if s.firstThreadUsed then alloc.map fun p => (s.allocate p, p)
  else some ({ s with firstThreadUsed := true }, firstThread)

/-- `GC_new_thread(id)`: take a record and push it in front of bucket
`THREAD_TABLE_INDEX(id)`. The id is left for the caller to store. -/
def gcNewThread (s : ThreadTable) (id : Nat) (alloc : Option Ptr) :
    Option (ThreadTable × Ptr) :=
  (takeRecord s alloc).map fun (s, r) => (s.linkFront (H.index id) r, r)

/-- The explicit branch of `GC_register_my_thread_inner(sb, id)` run by the thread
with `pthread_self() == self`; `dup` is the result of `DuplicateHandle`. -/
def gcRegisterMyThreadInner (s : ThreadTable) (sb id self : Nat) (dup : Option Nat)
    (alloc : Option Ptr) : Except Fault (ThreadTable × Ptr) :=
  match gcNewThread H s id alloc with
  | none => .error (.abort "Failed to allocate memory for thread registering")
  | some (s, me) =>
    match dup with
    | none => .error (.abort "DuplicateHandle failed")
    | some h =>
      if sb = 0 then .error (.abort "Bad stack base in GC_register_my_thread")
      else .ok (s.setRep me ((s.rep me).registered sb id self h), me)

/-- `GC_lookup_thread(id)`, explicit branch: the first record of the id's bucket
carrying the id. -/
def gcLookupThread (s : ThreadTable) (id : Nat) : Except Fault (Option Ptr) :=
  findFirst s.next (fun p => (s.rep p).id == id) s.fuel (s.heads (H.index id))

/-- `GC_delete_gc_thread_no_free(t)`, explicit branch: close the handle and unlink
exactly the record `t` from the bucket of its id. -/
def gcDeleteGcThreadNoFree (s : ThreadTable) (t : Ptr) : Except Fault ThreadTable := do
  let s := s.closeHandle (s.rep t).handle
  let hv := H.index (s.rep t).id
  let (prev, p) ← findPrevBy s.next (fun p => p == t) s.fuel none (s.heads hv)
  pure (s.unlink hv prev p)

/-- The tail of `GC_delete_thread` once `p` is found behind `prev`: close the
handle, unlink `p`, and free it unless it is `first_thread`. -/
def deleteFound (s : ThreadTable) (hv : Nat) (prev : Option Ptr) (p : Ptr) : ThreadTable :=
  let s := (s.closeHandle (s.rep p).handle).unlink hv prev p
  if p ≠ firstThread then s.internalFree p else s

/-- `GC_delete_thread(id)`, explicit branch: delete the first record of the bucket
carrying `id`. -/
def gcDeleteThread (s : ThreadTable) (id : Nat) : Except Fault ThreadTable := do
  let hv := H.index id
  let (prev, p) ← findPrevBy s.next (fun p => (s.rep p).id == id) s.fuel none (s.heads hv)
  pure (deleteFound s hv prev p)

/-- One bucket of `GC_remove_all_threads_but_me`: the first record whose
`pthread_id` is `self` becomes `me` with its link cut; every other record is freed
unless it is `first_thread`. -/
def removeChain (self : Nat) :
    Nat → ThreadTable → Option Ptr → Option Ptr → Except Fault (ThreadTable × Option Ptr)
  | _, s, me, none => .ok (s, me)
  | 0, _, _, some _ => .error .diverged
  | n + 1, s, me, some p =>
    if (s.rep p).pthreadId = self ∧ me = none then
      removeChain self n { s with next := Function.update s.next p none } (some p) (s.next p)
    else removeChain self n (if firstThread ≠ p then s.internalFree p else s) me (s.next p)

/-- The bucket loop of `GC_remove_all_threads_but_me`, clearing each head after its
chain is processed. -/
def removeBuckets (self fuel : Nat) :
    List Nat → ThreadTable → Option Ptr → Except Fault (ThreadTable × Option Ptr)
  | [], s, me => .ok (s, me)
  | hv :: hvs, s, me => do
    let (s, me) ← removeChain self fuel s me (s.heads hv)
    removeBuckets self fuel hvs { s with heads := Function.update s.heads hv none } me

/-- `GC_remove_all_threads_but_me()` in the fork child: keep only the record of
`pthread_self() == self`, rehashed under the child's id `selfId` with the handle
`dup` from `DuplicateHandle`. -/
def gcRemoveAllThreadsButMe (s : ThreadTable) (self selfId : Nat) (dup : Option Nat) :
    Except Fault ThreadTable := do
  let (s, me) ← removeBuckets self s.fuel (List.range H.size) s none
  match me with
  | none => .error .nullDeref
  | some me =>
    let s := { s with heads := Function.update s.heads (H.index selfId) (some me) }
    match dup with
    | none => .error (.abort "DuplicateHandle failed")
    | some h => .ok (s.setRep me { (s.rep me) with id := selfId, handle := h })

end Routines

section Walks

variable {next : Ptr → Option Ptr} {test : Ptr → Bool}

/-- A search over a chain no longer than its fuel finds the first match, or NULL. -/
theorem findFirst_chain {x : Option Ptr} {l : List Ptr} (h : Chain next x l) {n : Nat}
    (hn : l.length ≤ n) : findFirst next test n x = .ok (l.find? test) := by
  induction h generalizing n with
  | nil => cases n <;> rfl
  | @cons p l _ ih =>
    obtain ⟨n, rfl⟩ : ∃ m, n = m + 1 := ⟨n - 1, by simp at hn; omega⟩
    by_cases ht : test p <;> simp [findFirst, ht, ih (by simpa using hn)]

/-- The last record of `a :: l` is the last of `l`, or `a` when `l` is empty. -/
theorem getLast?_cons_or (a : Ptr) (l : List Ptr) (y : Option Ptr) :
    (a :: l).getLast?.or y = l.getLast?.or (some a) := by
  cases l with
  | nil => rfl
  | cons b l =>
    rw [List.getLast?_cons_cons, List.getLast?_eq_getLast (b :: l) (List.cons_ne_nil b l)]
    rfl

/-- An unlink search reaching a match after the prefix `pre` returns the last
record of `pre` (or the initial `prev`) and the match. -/
theorem findPrevBy_chain {x prev : Option Ptr} {pre post : List Ptr} {p : Ptr}
    (h : Chain next x (pre ++ p :: post)) (hpre : ∀ q ∈ pre, test q = false)
    (hp : test p = true) {n : Nat} (hn : pre.length < n) :
    findPrevBy next test n prev x = .ok (pre.getLast?.or prev, p) := by
  induction pre generalizing x prev n with
  | nil =>
    obtain ⟨rfl, _⟩ := Chain.cons_inv h
    obtain ⟨n, rfl⟩ : ∃ m, n = m + 1 := ⟨n - 1, by simp at hn; omega⟩
    simp [findPrevBy, hp]
  | cons a pre ih =>
    obtain ⟨rfl, h'⟩ := Chain.cons_inv h
    obtain ⟨n, rfl⟩ : ∃ m, n = m + 1 := ⟨n - 1, by simp at hn; omega⟩
    rw [getLast?_cons_or]
    simp only [findPrevBy, hpre a (List.mem_cons_self a pre), Bool.false_eq_true, ↓reduceIte]
    exact ih h' (fun q hq => hpre q (List.mem_cons_of_mem a hq)) (by simpa using hn)

end Walks

section Records

variable {H : TableHash} {s s' : ThreadTable}

/-- The unlink routines change links, handles and the allocator's lists, never a record. -/
@[simp] theorem deleteFound_rep (s : ThreadTable) (hv : Nat) (prev : Option Ptr) (p : Ptr) :
    (deleteFound s hv prev p).rep = s.rep := by
  unfold deleteFound
  split <;> simp

/-- `GC_delete_thread` changes no record's fields. -/
theorem gcDeleteThread_rep {id : Nat} (h : gcDeleteThread H s id = .ok s') : s'.rep = s.rep := by
  obtain ⟨⟨prev, p⟩, -, h⟩ := except_bind_eq_ok.mp h
  cases h
  simp

/-- `GC_delete_gc_thread_no_free` changes no record's fields. -/
theorem gcDeleteGcThreadNoFree_rep {t : Ptr} (h : gcDeleteGcThreadNoFree H s t = .ok s') :
    s'.rep = s.rep := by
  obtain ⟨⟨prev, p⟩, -, h⟩ := except_bind_eq_ok.mp h
  cases h
  simp

/-- `GC_delete_thread` allocates nothing. -/
theorem gcDeleteThread_allocated {id : Nat} (h : gcDeleteThread H s id = .ok s') :
    ∀ q ∈ s'.allocated, q ∈ s.allocated := by
  obtain ⟨⟨prev, p⟩, -, h⟩ := except_bind_eq_ok.mp h
  cases h
  intro q hq
  unfold deleteFound at hq
  split at hq
  · exact List.mem_of_mem_erase (by simpa using hq)
  · simpa using hq

/-- `GC_delete_gc_thread_no_free` frees nothing. -/
theorem gcDeleteGcThreadNoFree_allocated {t : Ptr} (h : gcDeleteGcThreadNoFree H s t = .ok s') :
    s'.allocated = s.allocated := by
  obtain ⟨⟨prev, p⟩, -, h⟩ := except_bind_eq_ok.mp h
  cases h
  simp

/-- A registration allocates at most the record it returns. -/
theorem gcRegisterMyThreadInner_allocated {sb id self : Nat} {dup : Option Nat}
    {alloc : Option Ptr} {me : Ptr}
    (hr : gcRegisterMyThreadInner H s sb id self dup alloc = .ok (s', me)) :
    ∀ q ∈ s'.allocated, q ∈ s.allocated ∨ q = me := by
  unfold gcRegisterMyThreadInner gcNewThread at hr
  cases ht : takeRecord s alloc with
  | none => simp [ht] at hr
  | some r =>
    obtain ⟨s₁, r⟩ := r
    have hal : ∀ q ∈ s₁.allocated, q ∈ s.allocated ∨ q = r := by
      unfold takeRecord at ht
      split at ht
      · cases alloc with
        | none => cases ht
        | some a =>
          obtain ⟨rfl, rfl⟩ := Prod.mk.inj (Option.some.inj ht)
          intro q hq
          simpa [ThreadTable.allocate] using hq
      · cases ht
        exact fun q hq => .inl hq
    simp only [ht, Option.map_some'] at hr
    split at hr
    · cases hr
    · split at hr
      · cases hr
      · cases hr
        simpa using hal

end Records

end Win32GcThreads
