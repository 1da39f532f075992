import Win32GcThreads.StackMinInvariant

/-!
# A registered thread's collection finds its own record

`GC_push_all_stacks` aborts with "Collecting from unknown thread" when the caller has no
record it pushes. The stop loop never touches the caller's own records, so the abort
needs a record whose `stack_end` was NULL before the collection: cleared by `GC_suspend`
in an earlier collection, which does so when `GetExitCodeThread` reports the record's
handle exited, or set by `GC_set_stackbottom` with a NULL base. The OS reports a handle
exited only once the thread that duplicated it has terminated; `OsGhost` records which
thread duplicated each handle and which threads terminated.

Over runs in which the OS and the client keep their side (`wellBehaved`) and no
registration takes over a `FINISHED` record, every record with `stack_end` NULL holds no
handle or the handle of a terminated thread (`NullStacksDead`). So a collection by a live
thread whose record holds the handle it duplicated never aborts; with the take-over it
does, as the run of the `FinishedReuse` section of the world-stop invariant shows.
-/

namespace Win32GcThreads

/-- What the OS knows and the process does not record. -/
structure OsGhost where
  /-- The thread whose `DuplicateHandle` returned the handle. -/
  owner : Nat → Option Nat
  /-- The thread has terminated. -/
  terminated : Nat → Bool

/-- No handle duplicated, no thread terminated. -/
def OsGhost.init : OsGhost := ⟨fun _ => none, fun _ => false⟩

/-- The handle `DuplicateHandle` returns to the event's thread, with that thread;
`GC_thr_init` runs in the main thread `0`. -/
def LifeEvent.dupHandle : LifeEvent → Option (Nat × Nat)
  | .thrInit (some h) => some (0, h)
  | .startInner t (some h) _ => some (t, h)
  | .register t _ (some h) _ => some (t, h)
  | _ => none

/-- The ghost after an event that happened. -/
def OsGhost.step (g : OsGhost) : SysEvent → OsGhost
  | .life e =>
    ⟨match e.dupHandle with
      | some (t, h) => Function.update g.owner h (some t)
      | none => g.owner,
     match e with
      | .terminate t => Function.update g.terminated t true
      | _ => g.terminated⟩
  | .collect .. => g

/-- The records a collection can read: `first_thread` and the allocated ones. -/
def liveRecords (s : ThreadTable) : List Ptr := firstThread :: s.allocated

/-- The OS and the client keep their side at the event: `DuplicateHandle` returns a
non-NULL handle no record holds, `GC_set_stackbottom` gets a non-NULL base, and
`GetExitCodeThread` reports a record's handle exited only once the thread that duplicated
it has terminated. -/
def wellBehaved (g : OsGhost) (sys : GcSystem) : SysEvent → Bool
  | .life e =>
    (match e.dupHandle with
     | some (_, h) => h != 0 && (liveRecords sys.rt.table).all fun p => (sys.rt.table.rep p).handle != h
     | none => true) &&
    (match e with
     | .setStackbottom _ sb => sb != 0
     | _ => true)
  | .collect _ _ os =>
    (liveRecords sys.rt.table).all fun p =>
      !os.exited (sys.rt.table.rep p).handle ||
        match g.owner (sys.rt.table.rep p).handle with
        | some t => g.terminated t
        | none => true

section Run

variable (H : TableHash) (assertions : Bool)

/-- `sysRun` with the ghost, stopping with `none` at the first event that is not well
behaved or that takes over a `FINISHED` record. -/
def wellBehavedRun (sys : GcSystem) (g : OsGhost) :
    List SysEvent → Option (Except Fault (GcSystem × OsGhost))
  | [] => some (.ok (sys, g))
  | e :: es =>
    if e.reusesFinished H sys.rt || !wellBehaved g sys e then none
    else
      match sysStep H assertions sys e with
      | some (.ok sys') => wellBehavedRun sys' (g.step e) es
      | some (.error f) => some (.error f)
      | none => none

end Run

/-- Every record a collection can read with `stack_end` NULL holds no handle, or the
handle of a terminated thread. -/
def NullStacksDead (g : OsGhost) (s : ThreadTable) : Prop :=
  ∀ p ∈ liveRecords s, (s.rep p).stackEnd = 0 →
    ∀ t, g.owner (s.rep p).handle = some t → g.terminated t = true

/-- Every readable record of `s'` with `stack_end` NULL was one of `s`, with the same
handle. -/
def NullStacksKept (s s' : ThreadTable) : Prop :=
  ∀ p ∈ liveRecords s', (s'.rep p).stackEnd = 0 →
    p ∈ liveRecords s ∧ (s.rep p).stackEnd = 0 ∧ (s'.rep p).handle = (s.rep p).handle

section Kept

variable {H : TableHash} {A : TableWrite → Bool} {g : OsGhost} {s s' s'' : ThreadTable}
  {B : Nat → List Ptr}

/-- A table keeps its own records without a stack. -/
theorem NullStacksKept.refl (s : ThreadTable) : NullStacksKept s s :=
  fun _ hp h => ⟨hp, h, rfl⟩

/-- Keeping the records without a stack composes. -/
theorem NullStacksKept.trans (h₁ : NullStacksKept s s') (h₂ : NullStacksKept s' s'') :
    NullStacksKept s s'' := fun p hp h0 =>
  let ⟨hp', h0', hh'⟩ := h₂ p hp h0
  let ⟨hp'', h0'', hh''⟩ := h₁ p hp' h0'
  ⟨hp'', h0'', hh'.trans hh''⟩

/-- Records without a stack that belonged to terminated threads still do after a step that only
keeps such records. -/
theorem NullStacksDead.of_kept (hd : NullStacksDead g s) (hk : NullStacksKept s s') :
    NullStacksDead g s' := fun p hp h0 => by
  obtain ⟨hp', h0', hh⟩ := hk p hp h0
  rw [hh]
  exact hd p hp' h0'

/-- A record write that keeps the handle and leaves a stack, or keeps `stack_end`, keeps
every other record as it was. -/
theorem NullStacksKept.setRep {p : Ptr} {r : ThreadRep} (hh : r.handle = (s.rep p).handle)
    (he : r.stackEnd ≠ 0 ∨ r.stackEnd = (s.rep p).stackEnd) : NullStacksKept s (s.setRep p r) := by
  intro q hq h0
  by_cases hqp : q = p
  · subst hqp
    simp only [ThreadTable.setRep_rep, Function.update_same] at h0 ⊢
    exact ⟨hq, he.resolve_left (· h0) ▸ h0, hh⟩
  · rw [ThreadTable.setRep_rep, Function.update_noteq hqp] at h0 ⊢
    exact ⟨hq, h0, rfl⟩

/-- A step that allocates nothing and changes no record keeps the records without a stack. -/
theorem NullStacksKept.of_allocated (hal : ∀ q ∈ s'.allocated, q ∈ s.allocated)
    (hrep : s'.rep = s.rep) : NullStacksKept s s' := fun q hq h0 => by
  refine ⟨?_, by rwa [hrep] at h0, by rw [hrep]⟩
  rcases List.mem_cons.mp hq with rfl | hq
  · exact List.mem_cons_self _ _
  · exact List.mem_cons_of_mem _ (hal q hq)

/-- A registration gives its record the stack it registers. -/
theorem gcRegisterMyThreadInner_nullStacksKept (hi : TableInv H s B) {alloc : Option Ptr}
    (ha : AllocAnswer s alloc) {sb id self : Nat} {dup : Option Nat} {me : Ptr}
    (hr : gcRegisterMyThreadInner H s sb id self dup alloc = .ok (s', me)) :
    NullStacksKept s s' := by
  obtain ⟨-, -, ⟨hd, -, hsb, hme⟩, hq, -⟩ := gcRegisterMyThreadInner_spec hi ha hr
  intro q hql h0
  have hqm : q ≠ me := by
    rintro rfl
    rw [hme] at h0
    exact hsb h0
  rw [hq q hqm] at h0 ⊢
  refine ⟨?_, h0, rfl⟩
  rcases List.mem_cons.mp hql with rfl | hql
  · exact List.mem_cons_self _ _
  · exact List.mem_cons_of_mem _ ((gcRegisterMyThreadInner_allocated hr q hql).resolve_right hqm)

/-- No table step but the take-over and a NULL base for `GC_set_stackbottom` leaves a
record without a stack that had one. -/
theorem TableStep.nullStacksKept (h : TableStep H A s s') (hA : A .takeOver = false)
    (hB : A (.stackbottom 0) = false) (hi : TableInv H s B) : NullStacksKept s s' := by
  cases h with
  | register ha hr => exact gcRegisterMyThreadInner_nullStacksKept hi ha hr
  | update p hf => exact .setRep (hf _).2.1 (.inr (hf _).2.2.1)
  | setStackbottom p sb ha =>
    refine .setRep rfl (.inl fun h0 => ?_)
    subst h0
    simp [hB] at ha
  | recordStackBase ha => simp [hA] at ha
  | delete _ hr => exact .of_allocated (gcDeleteThread_allocated hr) (gcDeleteThread_rep hr)
  | deleteFree _ hr =>
    refine .of_allocated (fun q hq => ?_)
      (by rw [ThreadTable.internalFree_rep]; exact gcDeleteGcThreadNoFree_rep hr)
    rw [← gcDeleteGcThreadNoFree_allocated hr]
    exact List.mem_of_mem_erase hq

/-- Routine calls that take over no `FINISHED` record and set no NULL stack base keep the records
without a stack. -/
theorem TableSteps.nullStacksKept (h : TableSteps H A s s') (hA : A .takeOver = false)
    (hB : A (.stackbottom 0) = false) (hi : TableInv H s B) : NullStacksKept s s' := by
  induction h with
  | refl => exact .refl _
  | tail hs hst ih =>
    obtain ⟨B', hi'⟩ := TableSteps.inv hs hi
    exact ih.trans (hst.nullStacksKept hA hB hi')

end Kept

section Collect

variable {H : TableHash} {a : Bool} {os : OsView} {self approxSp : Nat} {g : OsGhost}
  {s₀ s s' : ThreadTable} {c : QueryCache} {st st' : PushState} {p : Ptr} {r : ThreadRep}

/-- `GetExitCodeThread` reports exited only handles of terminated threads, among those the
records of `s` hold. -/
def ExitedDead (g : OsGhost) (os : OsView) (s : ThreadTable) : Prop :=
  ∀ p ∈ liveRecords s, os.exited (s.rep p).handle = true →
    ∀ t, g.owner (s.rep p).handle = some t → g.terminated t = true

/-- `s'` has the records and handles of `s`. -/
def HandlesKept (s s' : ThreadTable) : Prop :=
  s'.allocated = s.allocated ∧ ∀ p, (s'.rep p).handle = (s.rep p).handle

/-- Rewriting a record with its own handle keeps the records and their handles. -/
theorem HandlesKept.setRep (hk : HandlesKept s₀ s) (hh : r.handle = (s.rep p).handle) :
    HandlesKept s₀ (s.setRep p r) := by
  refine ⟨hk.1, fun q => ?_⟩
  by_cases hq : q = p
  · subst hq; simpa [hh] using hk.2 q
  · simpa [Function.update_noteq hq] using hk.2 q

/-- One iteration of the stop loop: `GC_suspend` clears `stack_end` only of a record
whose handle the OS reports exited. -/
theorem suspendIfWanted_nullStacksDead (hos : ExitedDead g os s₀)
    (hP : NullStacksDead g s ∧ HandlesKept s₀ s) :
    NullStacksDead g (suspendIfWanted os self s p) ∧ HandlesKept s₀ (suspendIfWanted os self s p) := by
  obtain ⟨hd, hk⟩ := hP
  unfold suspendIfWanted gcSuspend
  split
  · split
    · next hx =>
      refine ⟨fun q hq h0 t ho => ?_, hk.setRep rfl⟩
      by_cases hqp : q = p
      · subst hqp
        simp only [updateRep, ThreadTable.setRep_rep, Function.update_same] at ho
        have hq₀ : q ∈ liveRecords s₀ := by simpa [liveRecords, hk.1] using hq
        exact hos q hq₀ (by rw [← hk.2 q]; exact hx) t (by rw [← hk.2 q]; exact ho)
      · simp only [updateRep, ThreadTable.setRep_rep, Function.update_noteq hqp] at h0 ho
        exact hd q hq h0 t ho
    · exact ⟨hd.of_kept (.setRep rfl (.inr rfl)), hk.setRep rfl⟩
  · exact ⟨hd, hk⟩

/-- `GC_stop_world` clears `stack_end` only in records whose handle reports an exit code, which
belong to terminated threads, and changes no handle. -/
theorem gcStopWorld_nullStacksDead (hos : ExitedDead g os s) (hd : NullStacksDead g s)
    (h : gcStopWorld H os self s = .ok s') : NullStacksDead g s' ∧ HandlesKept s s' :=
  walkBuckets_preserves (fun (x : ThreadTable) _ _ (hP : NullStacksDead g x ∧ HandlesKept s x) h => by
    cases h; exact suspendIfWanted_nullStacksDead hos hP) _ _ ⟨hd, rfl, fun _ => rfl⟩ h

/-- `GC_push_all_stacks` keeps the records without a stack dead and the handles. -/
theorem gcPushAllStacks_nullStacksDead {itc : Bool} (h : gcPushAllStacks H a os self approxSp itc st = .ok st')
    (hP : NullStacksDead g st.table ∧ HandlesKept s₀ st.table) :
    NullStacksDead g st'.table ∧ HandlesKept s₀ st'.table := by
  obtain ⟨st₁, h₁, h⟩ := except_bind_eq_ok.mp h
  have hP₁ := walkBuckets_preserves (fun (x : PushState) _ _
      (hP : NullStacksDead g x.table ∧ HandlesKept s₀ x.table) h => by
    unfold pushIfWanted at h
    split at h
    · obtain ⟨⟨lsm, ht⟩, -⟩ := gcPushStackFor_ok h
      rw [ht]
      exact ⟨hP.1.of_kept (.setRep rfl (.inr rfl)), hP.2.setRep rfl⟩
    · cases h; exact hP) _ _ hP h₁
  split at h
  · cases h
  · cases h; exact hP₁

/-- `GC_start_world` keeps the records without a stack dead and the handles. -/
theorem gcStartWorld_nullStacksDead (hP : NullStacksDead g s ∧ HandlesKept s₀ s)
    (h : gcStartWorld H a self s = .ok s') : NullStacksDead g s' ∧ HandlesKept s₀ s' :=
  walkBuckets_preserves (fun (x : ThreadTable) _ _ (hP : NullStacksDead g x ∧ HandlesKept s₀ x) h => by
    unfold resumeIfSuspended at h
    split at h
    · split at h
      · cases h
      · cases h; exact ⟨hP.1.of_kept (.setRep rfl (.inr rfl)), hP.2.setRep rfl⟩
    · cases h; exact hP) _ _ hP h

/-- A collection in which the OS answers truthfully leaves every record without a stack
holding no handle or one of a terminated thread. -/
theorem gcCollect_nullStacksDead (hos : ExitedDead g os s) (hd : NullStacksDead g s)
    (h : gcCollect H a os self approxSp s c = .ok st) : NullStacksDead g st.table := by
  obtain ⟨s₁, h₁, h⟩ := except_bind_eq_ok.mp h
  obtain ⟨st₂, h₂, h⟩ := except_bind_eq_ok.mp h
  obtain ⟨s₃, h₃, h⟩ := except_bind_eq_ok.mp h
  cases h
  exact (gcStartWorld_nullStacksDead
    (gcPushAllStacks_nullStacksDead h₂ (gcStopWorld_nullStacksDead hos hd h₁)) h₃).1

end Collect

section System

variable {H : TableHash} {a : Bool} {g : OsGhost} {sys sys' : GcSystem} {s s' : ThreadTable}

/-- An event that duplicates no handle `x` leaves the owner of `x`. -/
theorem OsGhost.step_owner {e : LifeEvent} {x : Nat} (hx : ∀ t h, e.dupHandle = some (t, h) → x ≠ h) :
    (g.step (.life e)).owner x = g.owner x := by
  cases hd : e.dupHandle with
  | none => simp only [OsGhost.step, hd]
  | some th => simp only [OsGhost.step, hd, Function.update_noteq (hx th.1 th.2 hd)]

/-- A terminated thread stays terminated. -/
theorem OsGhost.step_terminated (e : SysEvent) {t : Nat} (h : g.terminated t = true) :
    (g.step e).terminated t = true := by
  cases e with
  | life e =>
    cases e with
    | terminate u => by_cases hu : t = u <;> simp [OsGhost.step, Function.update_apply, hu, h]
    | _ => exact h
  | collect => exact h

/-- Only the termination event of `t` terminates `t`. -/
theorem OsGhost.step_terminated_ne {e : SysEvent} {t : Nat} (he : e ≠ .life (.terminate t))
    (h : g.terminated t = false) : (g.step e).terminated t = false := by
  cases e with
  | life e =>
    cases e with
    | terminate u =>
      have hu : t ≠ u := fun htu => he (htu ▸ rfl)
      simpa [OsGhost.step, Function.update_noteq hu] using h
    | _ => exact h
  | collect => exact h

/-- A lifecycle step keeps the records without a stack dead, its fresh handle going to
no such record. -/
theorem NullStacksDead.life {e : LifeEvent} (hd : NullStacksDead g s) (hk : NullStacksKept s s')
    (hfresh : ∀ t h, e.dupHandle = some (t, h) → ∀ p ∈ liveRecords s, (s.rep p).handle ≠ h) :
    NullStacksDead (g.step (.life e)) s' := fun p hp h0 t ho => by
  obtain ⟨hp₀, h0₀, hh⟩ := hk p hp h0
  rw [hh, OsGhost.step_owner fun u x hx => hfresh u x hx p hp₀] at ho
  exact OsGhost.step_terminated _ (hd p hp₀ h0₀ t ho)

/-- A well-behaved lifecycle event duplicates no handle a readable record holds and sets no NULL
stack base. -/
theorem wellBehaved_life {e : LifeEvent} (h : wellBehaved g sys (.life e) = true) :
    (∀ t x, e.dupHandle = some (t, x) → ∀ p ∈ liveRecords sys.rt.table, (sys.rt.table.rep p).handle ≠ x) ∧
      e.tableWrites H sys.rt (.stackbottom 0) = false := by
  simp only [wellBehaved, Bool.and_eq_true] at h
  obtain ⟨h₁, h₂⟩ := h
  refine ⟨fun t x hx p hp => ?_, ?_⟩
  · rw [hx] at h₁
    simp only [Bool.and_eq_true, bne_iff_ne, ne_eq, List.all_eq_true] at h₁
    exact h₁.2 p hp
  · cases e <;> simp_all [LifeEvent.tableWrites]

/-- A well-behaved collection sees an exit code only for handles of terminated threads. -/
theorem wellBehaved_collect {t approxSp : Nat} {os : OsView}
    (h : wellBehaved g sys (.collect t approxSp os) = true) : ExitedDead g os sys.rt.table := by
  intro p hp hx u ho
  have := List.all_eq_true.mp h p hp
  simpa [hx, ho] using this

/-- What a well-behaved run without a take-over of a `FINISHED` record keeps: a
well-formed table whose records without a stack belong to terminated threads. -/
structure CallerInv (H : TableHash) (sys : GcSystem) (g : OsGhost) : Prop where
  table : ∃ B, TableInv H sys.rt.table B
  nullStacks : NullStacksDead g sys.rt.table

/-- A fresh process keeps the invariant. -/
theorem CallerInv.start (main : OsThread) : CallerInv H ⟨Runtime.start main, .init, []⟩ .init :=
  ⟨⟨_, tableInv_init⟩, fun _ _ _ _ ho => by cases ho⟩

/-- Every well-behaved step that takes over no `FINISHED` record keeps the invariant. -/
theorem CallerInv.step {e : SysEvent} (hi : CallerInv H sys g) (hn : e.reusesFinished H sys.rt = false)
    (hw : wellBehaved g sys e = true) (h : sysStep H a sys e = some (.ok sys')) :
    CallerInv H sys' (g.step e) := by
  obtain ⟨⟨B, ht⟩, hd⟩ := hi
  refine ⟨sysStep_tableInv ht h, ?_⟩
  cases e with
  | life e =>
    obtain ⟨rt', h₁, rfl⟩ := sysStep_life_ok h
    obtain ⟨hfresh, hB⟩ := wellBehaved_life hw
    exact hd.life ((lifeStep_tableSteps h₁).nullStacksKept hn hB ht) hfresh
  | collect t approxSp os =>
    obtain ⟨th, -, hr⟩ := sysStep_collect h
    obtain ⟨st, hcl, rfl⟩ := except_map_eq_ok.mp hr.symm
    exact gcCollect_nullStacksDead (wellBehaved_collect hw) hd hcl

/-- Every well-behaved run keeps the invariant. -/
theorem CallerInv.run (hi : CallerInv H sys g) (es : List SysEvent) {g' : OsGhost}
    (h : wellBehavedRun H a sys g es = some (.ok (sys', g'))) : CallerInv H sys' g' := by
  induction es generalizing sys g with
  | nil => cases h; exact hi
  | cons e es ih =>
    simp only [wellBehavedRun] at h
    split at h
    · cases h
    · next hn =>
      simp only [Bool.or_eq_true, Bool.not_eq_true', not_or, Bool.not_eq_true] at hn
      split at h
      · exact ih (hi.step hn.1 (by simpa using hn.2) ‹_›) h
      · cases h
      · cases h

/-- A thread no event of the run terminated is not terminated in the ghost. -/
theorem wellBehavedRun_terminated (es : List SysEvent) {g' : OsGhost} {t : Nat}
    (h : wellBehavedRun H a sys g es = some (.ok (sys', g'))) (ht : .life (.terminate t) ∉ es)
    (hg : g.terminated t = false) : g'.terminated t = false := by
  induction es generalizing sys g with
  | nil => cases h; exact hg
  | cons e es ih =>
    simp only [wellBehavedRun] at h
    split at h
    · cases h
    · split at h
      · exact ih h (fun he => ht (List.mem_cons_of_mem _ he))
          (OsGhost.step_terminated_ne (fun he => ht (he ▸ List.mem_cons_self _ _)) hg)
      · cases h
      · cases h

/-- Over every well-behaved run from a fresh process in which no registration takes over a
`FINISHED` record, a collection by a thread the run did not terminate, whose record (found
by its id, not `FINISHED`) holds the handle it duplicated, never aborts with "Collecting
from unknown thread". -/
theorem registeredThread_collect_finds_record (main : OsThread) (es : List SysEvent)
    {g : OsGhost} (h : wellBehavedRun H a ⟨Runtime.start main, .init, []⟩ .init es = some (.ok (sys, g)))
    {t : Nat} (hterm : .life (.terminate t) ∉ es) {th : OsThread} (ht : sys.rt.thread? t = some th)
    {p : Ptr} (hp : gcLookupThread H sys.rt.table th.win32Id = .ok (some p))
    (hf : (sys.rt.table.rep p).finished = false) (ho : g.owner (sys.rt.table.rep p).handle = some t)
    (approxSp : Nat) (os : OsView) :
    sysStep H a sys (.collect t approxSp os) ≠ some (.error (.abort "Collecting from unknown thread")) := by
  obtain ⟨⟨B, hB⟩, hd⟩ := (CallerInv.start main).run es h
  obtain ⟨hmem, hid⟩ := gcLookupThread_mem hB hp
  have hse : (sys.rt.table.rep p).stackEnd ≠ 0 := fun h0 => by
    have := hd p (hB.records_subset hmem) h0 t ho
    rw [wellBehavedRun_terminated es h hterm rfl] at this
    cases this
  have hw : pushWanted (sys.rt.table.rep p) = true := by
    simp [pushWanted, ThreadRep.knownFinished, hf, hse]
  intro he
  obtain ⟨th', ht', hr⟩ := sysStep_collect he
  cases ht.symm.trans ht'
  exact (gcCollect_faults hB _ (except_map_eq_error.mp hr.symm)).2 ⟨p, hmem, hid, hw⟩ rfl

set_option maxRecDepth 4000 in
/-- After thread 1 registered and the main thread collected, thread 1's own collection
finds its record. -/
theorem registeredThread_collect_finds_record_afterScan :
    ∃ sys g, wellBehavedRun lowByteHash false ⟨Runtime.start mainThread, .init, []⟩ .init
        (scanJoinableRun.take 4) = some (.ok (sys, g)) ∧
      sysStep lowByteHash false sys (.collect 1 0x3F800 firstScanOs) ≠
        some (.error (.abort "Collecting from unknown thread")) :=
  by
  refine ⟨_, _, rfl, ?_⟩
  apply registeredThread_collect_finds_record mainThread (scanJoinableRun.take 4)
    (rfl : wellBehavedRun lowByteHash false _ _ (scanJoinableRun.take 4) = _) (by simp [scanJoinableRun])
  all_goals rfl

end System

end Win32GcThreads
