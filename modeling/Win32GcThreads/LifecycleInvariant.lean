import Win32GcThreads.ThreadLifecycle
import Mathlib.Logic.Relation

/-!
# Lifecycle runs keep the thread table well formed

A lifecycle routine changes the table in six ways only: a registration, an in-place
write that moves no stack (`KeepsStack`), the new base of `GC_set_stackbottom`, the
`GC_record_stack_base` of a re-registration on a `FINISHED` record, a `GC_delete_thread`,
or the unlink-and-free of the join and detach tails. `TableStep` lists them, the two
stack-moving writes only where the event allows them, and each keeps `TableInv`; one lemma
per routine says which steps it takes, so every table a lifecycle run reaches is well
formed. Every step but the take-over of a `FINISHED` record also keeps the cached stack
minimum of each record at or below its stack (`StackMinOk`).

Over a well-formed table, `GC_lookup_by_pthread` is a `find?` over the cached bucket and
then over every record, whatever `GC_pthread_map_cache` holds.
-/
namespace Win32GcThreads

variable {H : TableHash}

/-- The cached stack minimum of a record is unknown (`ADDR_LIMIT`), at or below the cold
end of its stack, or the record has no stack; and the record has no traced stack section
(`GC_call_with_gc_active`, which links one, is outside the model). -/
def StackMinOk (r : ThreadRep) : Prop :=
  r.tracedStackSect = 0 ∧ (r.lastStackMin = addrLimit ∨ r.lastStackMin ≤ r.stackEnd ∨ r.stackEnd = 0)

/-- `StackMinOk` for every record, linked or not. -/
def StackMinBounded (s : ThreadTable) : Prop := ∀ p, StackMinOk (s.rep p)

/-- An in-place write that moves no stack: it keeps the record's id, handle and stack
fields. -/
def KeepsStack (f : ThreadRep → ThreadRep) : Prop :=
  ∀ r, (f r).id = r.id ∧ (f r).handle = r.handle ∧ (f r).stackEnd = r.stackEnd ∧
    (f r).lastStackMin = r.lastStackMin ∧ (f r).tracedStackSect = r.tracedStackSect

/-- The table writes of the lifecycle routines that only some events make: the two that move
a record's stack, and the removal of a record. -/
inductive TableWrite where
  /-- `GC_record_stack_base` on the `FINISHED` record `GC_register_my_thread` takes over. -/
  | takeOver
  /-- `GC_set_stackbottom` with the new base `sb`. -/
  | stackbottom (sb : Nat)
  /-- `GC_delete_thread`, or the unlink and free of the join and detach tails. -/
  | free

section Steps

variable (H)

/-- Whether `GC_register_my_thread` in thread `t` finds a `FINISHED` record by its id and
takes it over (lines 663-665). -/
def takesOverFinished (rt : Runtime) (t : Nat) : Bool :=
  match rt.thread? t with
  | none => false
  | some th =>
    match gcLookupThread H rt.table th.win32Id with
    | .ok (some me) => (rt.table.rep me).knownFinished
    | _ => false

/-- Whether the event is a `GC_register_my_thread` that takes over a `FINISHED` record. -/
def LifeEvent.reusesFinished (rt : Runtime) : LifeEvent → Bool
  | .register t _ _ _ => takesOverFinished H rt t
  | _ => false

/-- The writes an event can make: the take-over, in a registration that finds a `FINISHED`
record, the base passed to `GC_set_stackbottom`, and a removal, in the exit procedure, the
unregistration and the tails of join and detach. -/
def LifeEvent.tableWrites (rt : Runtime) (e : LifeEvent) : TableWrite → Bool
  | .takeOver => e.reusesFinished H rt
  | .stackbottom sb =>
    match e with
    | .setStackbottom _ sb' => decide (sb' = sb)
    | _ => false
  | .free =>
    match e with
    | .exitProc _ | .unregister _ | .joinDone _ | .detachDone _ => true
    | _ => false

/-- What one lifecycle routine can do to the table, making only the writes `allow` admits. -/
inductive TableStep (allow : TableWrite → Bool) : ThreadTable → ThreadTable → Prop
  /-- `GC_register_my_thread_inner`, with an answer the allocator can give. -/
  | register {s s' : ThreadTable} {me : Ptr} {sb id self : Nat} {dup : Option Nat}
      {alloc : Option Ptr} (ha : AllocAnswer s alloc)
      (hr : gcRegisterMyThreadInner H s sb id self dup alloc = .ok (s', me)) : TableStep allow s s'
  /-- Flags and other fields of one record change in place, its stack staying put. -/
  | update (s : ThreadTable) (p : Ptr) {f : ThreadRep → ThreadRep} (hf : KeepsStack f) :
      TableStep allow s (updateRep s p f)
  /-- `GC_set_stackbottom`: a new stack base and the known minimum reset. -/
  | setStackbottom (s : ThreadTable) (p : Ptr) (sb : Nat) (ha : allow (.stackbottom sb) = true) :
      TableStep allow s (updateRep s p fun r => { r with stackEnd := sb, lastStackMin := addrLimit })
  /-- `GC_record_stack_base` on the `FINISHED` record `GC_register_my_thread` takes over. -/
  | recordStackBase {s s' : ThreadTable} {me : Ptr} {sb : Nat} (ha : allow .takeOver = true)
      (hr : gcRecordStackBase s me sb = .ok s') : TableStep allow s s'
  /-- `GC_delete_thread`. -/
  | delete {s s' : ThreadTable} {id : Nat} (ha : allow .free = true)
      (hr : gcDeleteThread H s id = .ok s') : TableStep allow s s'
  /-- `GC_delete_gc_thread_no_free` followed by `GC_INTERNAL_FREE` of the same record. -/
  | deleteFree {s s' : ThreadTable} {t : Ptr} (ha : allow .free = true)
      (hr : gcDeleteGcThreadNoFree H s t = .ok s') :
      TableStep allow s (s'.internalFree t)

/-- Any number of table steps. -/
def TableSteps (allow : TableWrite → Bool) : ThreadTable → ThreadTable → Prop :=
  Relation.ReflTransGen (TableStep H allow)

end Steps

variable {s s' : ThreadTable} {rt rt' : Runtime} {A : TableWrite → Bool}

/-- Every table step keeps the table well formed. -/
theorem TableStep.inv (h : TableStep H A s s') {B : Nat → List Ptr} (hi : TableInv H s B) :
    ∃ B', TableInv H s' B' := by
  cases h with
  | register ha hr => exact ⟨_, (gcRegisterMyThreadInner_spec hi ha hr).2.1⟩
  | update p hf => exact ⟨B, hi.setRep (hf _).1⟩
  | setStackbottom => exact ⟨B, hi.setRep rfl⟩
  | recordStackBase _ hr =>
    unfold gcRecordStackBase at hr
    split at hr
    · cases hr
    · cases hr; exact ⟨B, hi.setRep rfl⟩
  | delete _ hr => exact hi.of_deleteThread hr
  | deleteFree _ hr =>
    obtain ⟨B', hi', hn⟩ := hi.of_deleteNoFree hr
    exact ⟨B', hi'.internalFree hn⟩

/-- Every sequence of table steps keeps the table well formed. -/
theorem TableSteps.inv (h : TableSteps H A s s') {B : Nat → List Ptr} (hi : TableInv H s B) :
    ∃ B', TableInv H s' B' := by
  induction h with
  | refl => exact ⟨B, hi⟩
  | tail _ hst ih => obtain ⟨B', hi'⟩ := ih; exact hst.inv hi'

section StackMin

variable {B : Nat → List Ptr}

/-- Writing a record whose known stack minimum is bounded keeps every minimum bounded. -/
theorem StackMinBounded.setRep (hb : StackMinBounded s) (p : Ptr) {r : ThreadRep}
    (hr : StackMinOk r) : StackMinBounded (s.setRep p r) := by
  intro q
  by_cases hq : q = p
  · subst hq; simpa using hr
  · simpa [Function.update_noteq hq] using hb q

/-- An in-place update that keeps a minimum bounded keeps every minimum bounded. -/
theorem StackMinBounded.updateRep (hb : StackMinBounded s) (p : Ptr) {f : ThreadRep → ThreadRep}
    (hm : ∀ r, StackMinOk r → StackMinOk (f r)) : StackMinBounded (updateRep s p f) :=
  hb.setRep p (hm _ (hb p))

/-- A registered record starts with an unknown minimum. -/
theorem gcRegisterMyThreadInner_stackMin (hi : TableInv H s B) {alloc : Option Ptr}
    (ha : AllocAnswer s alloc) {sb id self : Nat} {dup : Option Nat} {me : Ptr}
    (hr : gcRegisterMyThreadInner H s sb id self dup alloc = .ok (s', me))
    (hb : StackMinBounded s) : StackMinBounded s' := by
  obtain ⟨-, -, ⟨hd, -, -, hme⟩, hq, -⟩ := gcRegisterMyThreadInner_spec hi ha hr
  intro q
  by_cases hqm : q = me
  · subst hqm
    rw [hme]
    refine ⟨?_, .inl rfl⟩
    split
    · rfl
    · exact (hb _).1
  · rw [hq q hqm]; exact hb q

/-- An update that keeps the stack keeps the minimum bounded. -/
theorem KeepsStack.stackMinOk {f : ThreadRep → ThreadRep} (hf : KeepsStack f) {r : ThreadRep}
    (h : StackMinOk r) : StackMinOk (f r) := by
  obtain ⟨-, -, he, hl, ht⟩ := hf r
  unfold StackMinOk
  rw [he, hl, ht]
  exact h

/-- Every table step but the take-over of a `FINISHED` record keeps the cached minima
bounded. -/
theorem TableStep.stackMin (h : TableStep H A s s') (hA : A .takeOver = false)
    (hi : TableInv H s B) (hb : StackMinBounded s) : StackMinBounded s' := by
  cases h with
  | register ha hr => exact gcRegisterMyThreadInner_stackMin hi ha hr hb
  | update p hf => exact hb.updateRep p fun _ => hf.stackMinOk
  | setStackbottom p => exact hb.updateRep p fun _ h => ⟨h.1, .inl rfl⟩
  | recordStackBase ha => simp [hA] at ha
  | delete _ hr => exact fun p => by rw [gcDeleteThread_rep hr]; exact hb p
  | deleteFree _ hr =>
    exact fun p => by rw [ThreadTable.internalFree_rep, gcDeleteGcThreadNoFree_rep hr]; exact hb p

/-- Table steps that take over no `FINISHED` record keep every known minimum bounded. -/
theorem TableSteps.stackMin (h : TableSteps H A s s') (hA : A .takeOver = false)
    (hi : TableInv H s B) (hb : StackMinBounded s) : StackMinBounded s' := by
  induction h with
  | refl => exact hb
  | tail hs hst ih =>
    obtain ⟨B', hi'⟩ := TableSteps.inv hs hi
    exact hst.stackMin hA hi' ih

end StackMin

namespace TableSteps

/-- An in-place update that keeps the stack is a table step. -/
theorem update (s : ThreadTable) (p : Ptr) {f : ThreadRep → ThreadRep} (hf : KeepsStack f) :
    TableSteps H A s (updateRep s p f) :=
  .single (.update s p hf)

/-- A registration followed by an in-place update of the new record. -/
theorem register_update {s₁ : ThreadTable} {me : Ptr} {sb id self : Nat} {dup : Option Nat}
    {alloc : Option Ptr} (ha : AllocAnswer s alloc)
    (hr : gcRegisterMyThreadInner H s sb id self dup alloc = .ok (s₁, me))
    {f : ThreadRep → ThreadRep} (hf : KeepsStack f) : TableSteps H A s (updateRep s₁ me f) :=
  .tail (.single (.register ha hr)) (.update s₁ me hf)

end TableSteps

/-- The allocator answers `lifeStep` admits are ones `GC_INTERNAL_MALLOC` can give. -/
theorem allocAnswer_of_allocOk {alloc : Option Ptr} (h : allocOk s alloc = true) :
    AllocAnswer s alloc := by
  cases alloc <;> simp_all [allocOk, AllocAnswer]

/-- The locked tail of a join or detach frees at most the record found. -/
theorem freeIfFinished_steps {t : Ptr} (hA : A .free = true) (h : freeIfFinished H s t = .ok s') :
    TableSteps H A s s' := by
  unfold freeIfFinished at h
  split at h
  · obtain ⟨s₁, hr, rfl⟩ := except_map_eq_ok.mp h
    exact .single (.deleteFree hA hr)
  · cases h; exact .refl

/-- `GC_thr_init` is one registration. -/
theorem gcThrInit_steps {dup : Option Nat} (h : gcThrInit H rt dup = some (.ok rt')) :
    TableSteps H A rt.table rt'.table := by
  simp only [gcThrInit, Option.bind_eq_bind, Option.bind_eq_some] at h
  obtain ⟨main, -, h⟩ := h
  split at h
  · cases h
  · obtain ⟨⟨s₁, me⟩, hr, rfl⟩ := except_map_eq_ok.mp (Option.some.inj h)
    exact .single (.register (show AllocAnswer _ none from trivial) hr)

/-- `GC_pthread_start_inner` is a registration and an update of the new record. -/
theorem gcPthreadStartInner_steps {t : Nat} {dup : Option Nat} {alloc : Option Ptr}
    (ha : AllocAnswer rt.table alloc) (h : gcPthreadStartInner H rt t dup alloc = some (.ok rt')) :
    TableSteps H A rt.table rt'.table := by
  simp only [gcPthreadStartInner, Option.bind_eq_bind, Option.bind_eq_some] at h
  obtain ⟨th, -, d, -, h⟩ := h
  split at h
  · cases h
  · obtain ⟨⟨s₁, me⟩, hr, rfl⟩ := except_map_eq_ok.mp (Option.some.inj h)
    dsimp only [Runtime.setThread_table, Runtime.setTable_table]
    exact .register_update ha hr (by intro; exact ⟨rfl, rfl, rfl, rfl, rfl⟩)

/-- `GC_thread_exit_proc` deletes its record or marks it `FINISHED`. -/
theorem gcThreadExitProc_steps {t : Nat} (hA : A .free = true)
    (h : gcThreadExitProc H rt t = some (.ok rt')) : TableSteps H A rt.table rt'.table := by
  simp only [gcThreadExitProc, Option.bind_eq_bind, Option.bind_eq_some] at h
  obtain ⟨th, -, me, -, h⟩ := h
  split at h
  · cases h
  · split at h
    · obtain ⟨s₁, hr, rfl⟩ := except_map_eq_ok.mp (Option.some.inj h)
      exact .single (.delete hA hr)
    · cases h
      simp only [Runtime.setThread_table, Runtime.setTable_table]
      exact .update _ _ (by intro; exact ⟨rfl, rfl, rfl, rfl, rfl⟩)

/-- `GC_register_my_thread` registers a new record or takes over a `FINISHED` one. -/
theorem gcRegisterMyThread_steps {t sb : Nat} {dup : Option Nat} {alloc : Option Ptr}
    {r : Runtime × RegisterStatus} (ha : AllocAnswer rt.table alloc)
    (h : gcRegisterMyThread H rt t sb dup alloc = some (.ok r))
    (hA : takesOverFinished H rt t = true → A .takeOver = true) : TableSteps H A rt.table r.1.table := by
  simp only [gcRegisterMyThread, Option.bind_eq_bind, Option.bind_eq_some] at h
  obtain ⟨th, hth, h⟩ := h
  split at h
  · cases h
  split at h
  · cases h
  cases hl : gcLookupThread H rt.table th.win32Id with
  | error e => simp [hl] at h
  | ok me? =>
    cases me? with
    | none =>
      simp only [hl, except_ok_bind] at h
      obtain ⟨⟨s₁, me⟩, hr, h⟩ := except_bind_eq_ok.mp (Option.some.inj h)
      cases h
      dsimp only [Runtime.setTable_table]
      exact .register_update ha hr (by intro; exact ⟨rfl, rfl, rfl, rfl, rfl⟩)
    | some me =>
      simp only [hl, except_ok_bind] at h
      split at h
      · next hk =>
        obtain ⟨s₁, hs, h⟩ := except_bind_eq_ok.mp (Option.some.inj h)
        cases h
        have ht : takesOverFinished H rt t = true := by simp [takesOverFinished, hth, hl, hk]
        dsimp only [Runtime.setTable_table]
        exact .tail (.single (.recordStackBase (hA ht) hs))
          (.update _ _ (by intro; exact ⟨rfl, rfl, rfl, rfl, rfl⟩))
      · cases h
        exact .refl

/-- `GC_unregister_my_thread` deletes the caller's record or marks it `FINISHED`. -/
theorem gcUnregisterMyThread_steps {t : Nat} (hA : A .free = true)
    (h : gcUnregisterMyThread H rt t = some (.ok rt')) : TableSteps H A rt.table rt'.table := by
  simp only [gcUnregisterMyThread, Option.bind_eq_bind, Option.bind_eq_some] at h
  obtain ⟨th, -, h⟩ := h
  split at h
  · cases h
  obtain ⟨me?, -, h⟩ := except_bind_eq_ok.mp (Option.some.inj h)
  cases me? with
  | none => cases h
  | some me =>
    dsimp only at h
    split at h
    · cases h
      dsimp only [Runtime.setTable_table]
      exact .update _ _ (by intro; exact ⟨rfl, rfl, rfl, rfl, rfl⟩)
    · obtain ⟨s₁, hr, rfl⟩ := except_map_eq_ok.mp h
      exact .single (.delete hA hr)

/-- The lookup loop of a join or detach leaves the table alone. -/
theorem lookupLoop_table {j target : Nat} {call : Nat → Ptr → PendingCall}
    (h : lookupLoop H rt j target call = some (.ok rt')) : rt'.table = rt.table := by
  simp only [lookupLoop, Option.bind_eq_bind, Option.bind_eq_some] at h
  obtain ⟨th, -, h⟩ := h
  split at h
  · cases h
  split at h <;> cases h
  simp

/-- The rest of `GC_pthread_join` frees at most the record found. -/
theorem gcPthreadJoinDone_steps {j : Nat} (hA : A .free = true)
    (h : gcPthreadJoinDone H rt j = some (.ok rt')) : TableSteps H A rt.table rt'.table := by
  simp only [gcPthreadJoinDone, Option.bind_eq_bind, Option.bind_eq_some] at h
  obtain ⟨th, -, call, -, h⟩ := h
  cases call with
  | detach => cases h
  | join target t =>
    dsimp only at h
    split at h
    · cases h; exact .refl
    · split at h
      · cases h; exact .refl
      · split at h
        · cases h
        · obtain ⟨s₁, hr, rfl⟩ := except_map_eq_ok.mp (Option.some.inj h)
          exact freeIfFinished_steps hA hr

/-- The rest of `GC_pthread_detach` marks the record found `DETACHED` and frees at most that record.
-/
theorem gcPthreadDetachDone_steps {j : Nat} (hA : A .free = true)
    (h : gcPthreadDetachDone H rt j = some (.ok rt')) : TableSteps H A rt.table rt'.table := by
  simp only [gcPthreadDetachDone, Option.bind_eq_bind, Option.bind_eq_some] at h
  obtain ⟨th, -, call, -, h⟩ := h
  cases call with
  | join => cases h
  | detach target t =>
    dsimp only at h
    split at h
    · cases h; exact .refl
    · split at h
      · cases h; exact .refl
      · obtain ⟨s₁, hr, rfl⟩ := except_map_eq_ok.mp (Option.some.inj h)
        exact (TableSteps.update _ _ (by intro; exact ⟨rfl, rfl, rfl, rfl, rfl⟩)).trans
          (freeIfFinished_steps hA hr)

/-- Entering `GC_do_blocking` updates the caller's record in place. -/
theorem gcDoBlockingEnter_steps {t sp : Nat} (h : gcDoBlockingEnter H rt t sp = some (.ok rt')) :
    TableSteps H A rt.table rt'.table := by
  simp only [gcDoBlockingEnter, Option.bind_eq_bind, Option.bind_eq_some] at h
  obtain ⟨th, -, h⟩ := h
  split at h
  · cases h
  obtain ⟨me?, -, h⟩ := except_bind_eq_ok.mp (Option.some.inj h)
  cases me? with
  | none => cases h
  | some me =>
    cases h
    dsimp only [Runtime.setTable_table, Runtime.setThread_table]
    exact .update _ _ (by intro; exact ⟨rfl, rfl, rfl, rfl, rfl⟩)

/-- Leaving `GC_do_blocking` updates the caller's record in place. -/
theorem gcDoBlockingLeave_steps {t : Nat} (h : gcDoBlockingLeave rt t = some (.ok rt')) :
    TableSteps H A rt.table rt'.table := by
  simp only [gcDoBlockingLeave, Option.bind_eq_bind, Option.bind_eq_some] at h
  obtain ⟨th, -, me, -, h⟩ := h
  cases h
  dsimp only [Runtime.setTable_table, Runtime.setThread_table]
  exact .update _ _ (by intro; exact ⟨rfl, rfl, rfl, rfl, rfl⟩)

/-- `GC_set_stackbottom` gives the caller's record a new stack base in place. -/
theorem gcSetStackbottom_steps {t sb : Nat} (h : gcSetStackbottom H rt t sb = some (.ok rt'))
    (hA : A (.stackbottom sb) = true) : TableSteps H A rt.table rt'.table := by
  simp only [gcSetStackbottom, Option.bind_eq_bind, Option.bind_eq_some] at h
  obtain ⟨th, -, h⟩ := h
  split at h
  · cases h
  split at h
  · cases h; exact .refl
  obtain ⟨me?, -, h⟩ := except_bind_eq_ok.mp (Option.some.inj h)
  cases me? with
  | none => cases h
  | some me =>
    cases h
    dsimp only [Runtime.setTable_table, Runtime.setThread_table]
    exact .single (.setStackbottom _ _ _ hA)

/-- Every lifecycle step that returns changes the table by table steps only, making only
the stack-moving writes its event can make. -/
theorem lifeStep_tableSteps {e : LifeEvent} (h : lifeStep H rt e = some (.ok rt')) :
    TableSteps H (e.tableWrites H rt) rt.table rt'.table := by
  cases e with
  | thrInit dup => exact gcThrInit_steps h
  | pthreadCreate parent w p sb d =>
    obtain ⟨rt₁, h₁, h₂⟩ := Option.map_eq_some'.mp h
    cases h₂
    simp only [gcPthreadCreate, Option.bind_eq_bind, Option.bind_eq_some] at h₁
    obtain ⟨th, -, h₁⟩ := h₁
    split at h₁ <;> cases h₁
    exact .refl
  | foreignCreate w p sb =>
    obtain ⟨rt₁, h₁, h₂⟩ := Option.map_eq_some'.mp h
    cases h₂
    simp only [foreignCreate] at h₁
    split at h₁ <;> cases h₁
    exact .refl
  | startInner t dup alloc =>
    simp only [lifeStep] at h
    split at h
    · exact gcPthreadStartInner_steps (allocAnswer_of_allocOk ‹_›) h
    · cases h
  | exitProc t => exact gcThreadExitProc_steps rfl h
  | register t sb dup alloc =>
    simp only [lifeStep] at h
    split at h
    · obtain ⟨r, h₁, h₂⟩ := Option.map_eq_some'.mp h
      obtain ⟨r', h₃, rfl⟩ := except_map_eq_ok.mp h₂
      exact gcRegisterMyThread_steps (allocAnswer_of_allocOk ‹_›) (h₁.trans (congrArg _ h₃)) id
    · cases h
  | unregister t => exact gcUnregisterMyThread_steps rfl h
  | allowRegister t | terminate t =>
    simp only [lifeStep, Option.bind_eq_some] at h
    obtain ⟨th, -, h⟩ := h
    split at h <;> cases h
    exact .refl
  | joinLookup j target => exact (lookupLoop_table h).symm ▸ .refl
  | joinDone j => exact gcPthreadJoinDone_steps rfl h
  | detachLookup j target => exact (lookupLoop_table h).symm ▸ .refl
  | detachDone j => exact gcPthreadDetachDone_steps rfl h
  | doBlocking t sp => exact gcDoBlockingEnter_steps h
  | doBlockingDone t => exact gcDoBlockingLeave_steps h
  | setStackbottom t sb => exact gcSetStackbottom_steps h (decide_eq_true rfl)

/-- A lifecycle step other than the take-over of a `FINISHED` record keeps the cached
minima bounded. -/
theorem lifeStep_stackMin {e : LifeEvent} (h : lifeStep H rt e = some (.ok rt'))
    (hn : e.reusesFinished H rt = false) {B : Nat → List Ptr} (hi : TableInv H rt.table B)
    (hb : StackMinBounded rt.table) : StackMinBounded rt'.table := by
  exact (lifeStep_tableSteps h).stackMin hn hi hb

variable (H) in
/-- The processes reached from a fresh one by lifecycle steps that return. -/
inductive LifeReachable : Runtime → Prop
  | start (main : OsThread) : LifeReachable (Runtime.start main)
  | step {rt rt' : Runtime} {e : LifeEvent} : LifeReachable rt → lifeStep H rt e = some (.ok rt') →
      LifeReachable rt'

/-- Every reachable process has a well-formed table. -/
theorem LifeReachable.tableInv (hr : LifeReachable H rt) : ∃ B, TableInv H rt.table B := by
  induction hr with
  | start => exact ⟨_, tableInv_init⟩
  | step _ he ih =>
    obtain ⟨B, hi⟩ := ih
    exact (lifeStep_tableSteps he).inv hi

/-- A run from a reachable process ends in a reachable process. -/
theorem runLife_reachable (hr : LifeReachable H rt) (es : List LifeEvent)
    (h : runLife H rt es = some (.ok rt')) : LifeReachable H rt' := by
  induction es generalizing rt with
  | nil => cases h; exact hr
  | cons e es ih =>
    simp only [runLife] at h
    split at h
    · exact ih (hr.step ‹_›) h
    · next hne => exact (hne _ h).elim

/-- Every thread table reached by explicit-mode lifecycle calls is well formed: finite
acyclic buckets, no record linked twice, each record in the bucket of its id, and the
two unlink routines removing exactly the record they look for. -/
theorem lifecycle_tableWellFormed (hr : LifeReachable H rt) : TableWellFormed H rt.table :=
  let ⟨_, hi⟩ := hr.tableInv
  hi.wellFormed

set_option maxRecDepth 4000 in
/-- After `collisionRun` bucket `1` links record `3` and then `first_thread`, and record `2`
is freed. -/
theorem lifecycle_tableWellFormed_collision :
    ∃ rt, runLife lowByteHash (Runtime.start mainThread) collisionRun = some (.ok rt) ∧
      rt.table.heads 1 = some 3 ∧ rt.table.next 3 = some firstThread ∧ rt.table.freed = [2] ∧
      TableWellFormed lowByteHash rt.table :=
  ⟨_, rfl, rfl, rfl, rfl,
    lifecycle_tableWellFormed (runLife_reachable (.start mainThread) collisionRun rfl)⟩

section Lookup

variable {B : Nat → List Ptr}

/-- Under the invariant, scanning the buckets `hvs` in order finds the first match among
their records, and never runs out of fuel. -/
theorem findInBuckets_eq (hi : TableInv H s B) (test : Ptr → Bool) {hvs : List Nat}
    (hvs_lt : ∀ h ∈ hvs, h < H.size) :
    findInBuckets s test hvs = .ok ((hvs.flatMap B).find? test) := by
  induction hvs with
  | nil => rfl
  | cons hv hvs ih =>
    have hv_lt := hvs_lt hv (List.mem_cons_self _ _)
    rw [findInBuckets, findFirst_chain (hi.chain hv hv_lt) (hi.length_lt_fuel hv_lt).le,
      List.flatMap_cons, List.find?_append]
    cases (B hv).find? test with
    | none => exact ih fun h hh => hvs_lt h (List.mem_cons_of_mem _ hh)
    | some p => rfl

/-- `GC_lookup_by_pthread` answers the first match of the bucket the cache names, else the
first match of the whole table. -/
theorem gcLookupByPthread_eq (hi : TableInv H s B) (cache : Nat → Nat) (P : Nat) :
    gcLookupByPthread H s cache P =
      .ok (((B (H.index (cache (pthreadMapIndex P)))).find? fun p => (s.rep p).pthreadId == P).or
        ((tableRecords H B).find? fun p => (s.rep p).pthreadId == P)) := by
  have hg := H.index_lt (cache (pthreadMapIndex P))
  rw [gcLookupByPthread, findFirst_chain (hi.chain _ hg) (hi.length_lt_fuel hg).le]
  cases (B _).find? _ with
  | none => exact findInBuckets_eq hi _ fun h hh => List.mem_range.mp hh
  | some p => rfl

/-- A first match in `l ⊆ L`, else in `L`, is a match of `L`, none only when `L` has none,
and the one match of `L` when there is one only. -/
private theorem find?_or_find?_spec {l L : List Ptr} (hl : l ⊆ L) (test : Ptr → Bool) :
    ((l.find? test).or (L.find? test) = none ↔ ∀ p ∈ L, test p = false) ∧
    (∀ q, (l.find? test).or (L.find? test) = some q → q ∈ L ∧ test q = true) ∧
    ∀ p ∈ L, test p = true → (∀ q ∈ L, test q = true → q = p) →
      (l.find? test).or (L.find? test) = some p := by
  have hnone : (l.find? test).or (L.find? test) = none ↔ ∀ p ∈ L, test p = false := by
    simp only [Option.or_eq_none, List.find?_eq_none, Bool.not_eq_true]
    exact ⟨And.right, fun h => ⟨fun p hp => h p (hl hp), h⟩⟩
  have hsome : ∀ q, (l.find? test).or (L.find? test) = some q → q ∈ L ∧ test q = true := by
    intro q hq
    rcases Option.or_eq_some.mp hq with h | ⟨-, h⟩
    · exact ⟨hl (List.mem_of_find?_eq_some h), List.find?_some h⟩
    · exact ⟨List.mem_of_find?_eq_some h, List.find?_some h⟩
  refine ⟨hnone, hsome, fun p hp ht hu => ?_⟩
  cases h : (l.find? test).or (L.find? test) with
  | none => simp [hnone.mp h p hp] at ht
  | some q => rw [hu q (hsome q h).1 (hsome q h).2]

/-- For every cache content, `GC_lookup_by_pthread(P)` returns, and returns NULL exactly
when no linked record has `pthread_id` `P`, and otherwise a linked record with `pthread_id`
`P`. When one record only has `pthread_id` `P`, it answers that record, as a plain scan of
every bucket does: the cache only chooses the bucket tried first. -/
theorem gcLookupByPthread_any_cache (hi : TableInv H s B) (cache : Nat → Nat) (P : Nat) :
    (∃ r, gcLookupByPthread H s cache P = .ok r) ∧
    (gcLookupByPthread H s cache P = .ok none ↔
      ∀ p ∈ tableRecords H B, (s.rep p).pthreadId ≠ P) ∧
    (∀ q, gcLookupByPthread H s cache P = .ok (some q) →
      q ∈ tableRecords H B ∧ (s.rep q).pthreadId = P) ∧
    ∀ p ∈ tableRecords H B, (s.rep p).pthreadId = P →
      (∀ q ∈ tableRecords H B, (s.rep q).pthreadId = P → q = p) →
      gcLookupByPthread H s cache P = .ok (some p) ∧
      findInBuckets s (fun q => (s.rep q).pthreadId == P) (List.range H.size) = .ok (some p) := by
  have hsub : B (H.index (cache (pthreadMapIndex P))) ⊆ tableRecords H B := fun _ hp =>
    mem_tableRecords.mpr ⟨_, H.index_lt _, hp⟩
  obtain ⟨hnone, hsome, hone⟩ := find?_or_find?_spec hsub fun q => (s.rep q).pthreadId == P
  -- the plain scan is the same search with no bucket tried first
  have hscan := (find?_or_find?_spec (List.nil_subset (tableRecords H B))
    fun q => (s.rep q).pthreadId == P).2.2
  simp only [beq_iff_eq, beq_eq_false_iff_ne] at hnone hsome hone hscan
  rw [gcLookupByPthread_eq hi, findInBuckets_eq hi _ fun h hh => List.mem_range.mp hh]
  exact ⟨⟨_, rfl⟩, by simpa using hnone, fun q hq => hsome q (Except.ok.inj hq),
    fun p hp hP hu => ⟨by rw [hone p hp hP hu], congrArg Except.ok (hscan p hp hP hu)⟩⟩

/-- Records `5` and `6` of `finishedBeforeLiveTable` both carry `pthread_t` 100: with a
cache entry naming id 3, the lookup tries bucket `1` first and answers record `6`, where the
plain scan answers record `5`; either answer is a linked record with that `pthread_t`. -/
theorem gcLookupByPthread_sharedPthread :
    gcLookupByPthread twoBucketHash finishedBeforeLiveTable (fun _ => 3) 100 = .ok (some 6) ∧
    findInBuckets finishedBeforeLiveTable (fun q => (finishedBeforeLiveTable.rep q).pthreadId == 100)
      (List.range twoBucketHash.size) = .ok (some 5) ∧
    ∀ q, gcLookupByPthread twoBucketHash finishedBeforeLiveTable (fun _ => 3) 100 = .ok (some q) →
      q ∈ tableRecords twoBucketHash (fun h => if h = 0 then [5] else if h = 1 then [6] else []) ∧
      (finishedBeforeLiveTable.rep q).pthreadId = 100 :=
  ⟨rfl, rfl, (gcLookupByPthread_any_cache finishedBeforeLiveTable_inv (fun _ => 3) 100).2.2.1⟩

end Lookup

end Win32GcThreads
