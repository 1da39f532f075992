import Win32GcThreads.RecordReclaim
import Win32GcThreads.StackMinInvariant

/-!
# No record leaks while collections run between the thread calls

A collection stops the world, pushes every stack and starts the world again. It writes
`stack_end` of a thread that has exited, `IS_SUSPENDED` and `last_stack_min`, and nothing that
says whose a record is: the id, the `pthread_t`, `DETACHED` and `FINISHED` stay as they were,
and so do the links of `GC_threads`. So the ownership invariant of the lifecycle calls holds
over every run of the whole process in which the thread calls keep the contract of the thread
API and collections happen at any point, with any answers of the OS: every live heap record
belongs to a thread that is running or can still be joined, `GC_lookup_by_pthread` finds the
record of every started thread that can still be joined, and once every thread is done the
table is empty and every heap record is freed.
-/

namespace Win32GcThreads

open Relation

/-- One write of a collection to record `q`: fields other than its id, `pthread_t`,
`DETACHED` and `FINISHED`. -/
def FlagWrite (s s' : ThreadTable) : Prop :=
  ∃ (q : Ptr) (f : ThreadRep → ThreadRep),
    (∀ r, (f r).id = r.id ∧ (f r).pthreadId = r.pthreadId ∧ (f r).detached = r.detached ∧
      (f r).finished = r.finished) ∧ s' = updateRep s q f

section Writes

variable {H : TableHash} {a : Bool} {os : OsView} {self approxSp : Nat} {s s' : ThreadTable}
  {st st' : PushState} {c : QueryCache} {p : Ptr}

theorem FlagWrite.updateRep {q : Ptr} {f : ThreadRep → ThreadRep} (hf : ∀ r, (f r).id = r.id ∧
    (f r).pthreadId = r.pthreadId ∧ (f r).detached = r.detached ∧ (f r).finished = r.finished) :
    FlagWrite s (updateRep s q f) :=
  ⟨q, f, hf, rfl⟩

/-- `GC_suspend` clears `stack_end` of an exited thread or sets `IS_SUSPENDED`. -/
theorem suspendIfWanted_flagWrites : ReflTransGen FlagWrite s (suspendIfWanted os self s p) := by
  unfold suspendIfWanted gcSuspend
  split
  · split <;> exact .single (.updateRep fun _ => ⟨rfl, rfl, rfl, rfl⟩)
  · exact .refl

theorem gcStopWorld_flagWrites (h : gcStopWorld H os self s = .ok s') :
    ReflTransGen FlagWrite s s' :=
  walkBuckets_preserves (P := ReflTransGen FlagWrite s)
    (fun _ _ _ hP h => by cases h; exact hP.trans suspendIfWanted_flagWrites) _ _ .refl h

/-- `GC_push_stack_for` writes `last_stack_min` of its record. -/
theorem pushIfWanted_flagWrites (h : pushIfWanted a os self approxSp st p = .ok st') :
    ReflTransGen FlagWrite st.table st'.table := by
  unfold pushIfWanted at h
  split at h
  · obtain ⟨⟨lsm, ht⟩, -⟩ := gcPushStackFor_ok h
    rw [ht]
    exact .single (FlagWrite.updateRep (f := fun r => { r with lastStackMin := lsm })
      fun _ => ⟨rfl, rfl, rfl, rfl⟩)
  · cases h; exact .refl

theorem gcPushAllStacks_flagWrites {itc : Bool}
    (h : gcPushAllStacks H a os self approxSp itc st = .ok st') :
    ReflTransGen FlagWrite st.table st'.table := by
  obtain ⟨st₁, h₁, h⟩ := except_bind_eq_ok.mp h
  have hw := walkBuckets_preserves
    (P := fun st₂ : PushState => ReflTransGen FlagWrite st.table st₂.table)
    (fun _ _ _ hP h => hP.trans (pushIfWanted_flagWrites h)) _ _ .refl h₁
  split at h
  · cases h
  · cases h; exact hw

/-- `GC_start_world` clears `IS_SUSPENDED`. -/
theorem resumeIfSuspended_flagWrites (h : resumeIfSuspended a self s p = .ok s') :
    ReflTransGen FlagWrite s s' := by
  unfold resumeIfSuspended at h
  split at h
  · split at h
    · cases h
    · cases h; exact .single (.updateRep fun _ => ⟨rfl, rfl, rfl, rfl⟩)
  · cases h; exact .refl

theorem gcStartWorld_flagWrites (h : gcStartWorld H a self s = .ok s') :
    ReflTransGen FlagWrite s s' :=
  walkBuckets_preserves (P := ReflTransGen FlagWrite s)
    (fun _ _ _ hP h => hP.trans (resumeIfSuspended_flagWrites h)) _ _ .refl h

/-- A whole collection writes flags only. -/
theorem gcCollect_flagWrites (h : gcCollect H a os self approxSp s c = .ok st) :
    ReflTransGen FlagWrite s st.table := by
  obtain ⟨s₁, h₁, h⟩ := except_bind_eq_ok.mp h
  obtain ⟨st₂, h₂, h⟩ := except_bind_eq_ok.mp h
  obtain ⟨s₃, h₃, h⟩ := except_bind_eq_ok.mp h
  cases h
  exact (gcStopWorld_flagWrites h₁).trans
    ((gcPushAllStacks_flagWrites h₂).trans (gcStartWorld_flagWrites h₃))

end Writes

section Keep

variable {H : TableHash} {s s' : ThreadTable} {ts : List OsThread} {B : Nat → List Ptr}
  {rt : Runtime}

/-- After `GC_thr_init` the ownership invariant survives every write of a collection. -/
theorem OwnerInv.of_flagWrites (hi : OwnerInv H s ts true B) (h : ReflTransGen FlagWrite s s') :
    OwnerInv H s' ts true B := by
  induction h with
  | refl => exact hi
  | tail _ hw ih =>
    obtain ⟨q, f, hf, rfl⟩ := hw
    exact OwnerInv.of_updateFlags ih rfl hf

/-- So does the invariant that a started thread finds its own record. -/
theorem OwnInv.of_flagWrites (hi : OwnInv H rt) (h : ReflTransGen FlagWrite rt.table s') :
    OwnInv H (rt.setTable s') := by
  induction h with
  | refl => exact hi
  | tail _ hw ih =>
    obtain ⟨q, f, hf, rfl⟩ := hw
    exact OwnInv.of_updateRep ih (fun r => (hf r).1) fun r => (hf r).2.2.2

end Keep

section Contract

variable (H : TableHash) (assertions : Bool)

/-- The event keeps the contract of the thread API; a collection always does. -/
def SysEvent.keepsContract (rt : Runtime) : SysEvent → Bool
  | .life e => e.keepsContract H rt
  | .collect .. => true

/-- The systems reached from a fresh process, whose main thread can be joined, by lifecycle calls
that keep the contract and by collections. -/
inductive SysContractReachable : GcSystem → Prop
  | start (main : OsThread) (hm : main.me = none) (hs : main.startInfo = none)
      (hj : main.joinable = true) (hp : main.pending = none) (hb : main.blocking = none) :
      SysContractReachable ⟨Runtime.start main, .init, []⟩
  | step {sys sys' : GcSystem} {e : SysEvent} : SysContractReachable sys →
      e.keepsContract H sys.rt = true → sysStep H assertions sys e = some (.ok sys') →
      SysContractReachable sys'

/-- `sysRun`, stopping with `none` at the first event that breaks the contract. -/
def sysRunContract (sys : GcSystem) : List SysEvent → Option (Except Fault GcSystem)
  | [] => some (.ok sys)
  | e :: es =>
    if e.keepsContract H sys.rt then
      match sysStep H assertions sys e with
      | some (.ok sys') => sysRunContract sys' es
      | r => r
    else none

end Contract

section Runs

variable {H : TableHash} {a : Bool} {sys sys' : GcSystem} {B : Nat → List Ptr}

/-- A collection happens only after `GC_thr_init`. -/
theorem sysStep_collect_initialized {t approxSp : Nat} {os : OsView} {r : Except Fault GcSystem}
    (h : sysStep H a sys (.collect t approxSp os) = some r) : sys.rt.initialized = true := by
  simp only [sysStep, Option.bind_eq_bind, Option.bind_eq_some] at h
  obtain ⟨th, -, h⟩ := h
  split at h
  · cases h
  · next hg => simp_all

/-- Every process reached keeps both ownership invariants. -/
theorem SysContractReachable.ownerInv (hr : SysContractReachable H a sys) :
    OwnInv H sys.rt ∧ ∃ B, OwnerInv H sys.rt.table sys.rt.threads sys.rt.initialized B := by
  induction hr with
  | start main hm hs hj hp hb => exact ⟨OwnInv.start hm hs, _, OwnerInv.start hs hj hp hb⟩
  | @step sys sys' e _ hc h ih =>
    obtain ⟨ho, B, hi⟩ := ih
    cases e with
    | life e =>
      obtain ⟨rt', h₁, rfl⟩ := sysStep_life_ok h
      exact ⟨ho.step (LifeEvent.unregistersStarted_of_keepsContract hc) h₁,
        hi.step ho hc h₁⟩
    | collect t approxSp os =>
      have hinit := sysStep_collect_initialized h
      obtain ⟨th, -, hr⟩ := sysStep_collect h
      obtain ⟨st, hcol, rfl⟩ := except_map_eq_ok.mp hr.symm
      have hw := gcCollect_flagWrites hcol
      refine ⟨OwnInv.of_flagWrites ho hw, ?_⟩
      show ∃ B', OwnerInv H st.table sys.rt.threads sys.rt.initialized B'
      rw [hinit] at hi ⊢
      exact ⟨B, hi.of_flagWrites hw⟩

theorem sysRunContract_reachable (hr : SysContractReachable H a sys) (es : List SysEvent)
    (h : sysRunContract H a sys es = some (.ok sys')) : SysContractReachable H a sys' := by
  induction es generalizing sys with
  | nil => cases h; exact hr
  | cons e es ih =>
    simp only [sysRunContract] at h
    split at h
    · rename_i hc
      split at h
      · exact ih (.step hr hc ‹_›) h
      · next hne => exact (hne _ h).elim
    · cases h

end Runs

section Owners

variable {H : TableHash} {s : ThreadTable} {ts : List OsThread} {init : Bool}
  {B : Nat → List Ptr}

/-- A table with no linked record has every bucket empty. -/
theorem TableInv.heads_none (hi : TableInv H s B) (hnil : ∀ p ∈ tableRecords H B, False) :
    ∀ h < H.size, s.heads h = none := fun h hh => by
  have hc := hi.chain h hh
  cases hx : s.heads h with
  | none => rfl
  | some q =>
    rw [hx, Chain.some_iff] at hc
    obtain ⟨l, hl, -⟩ := hc
    exact (hnil q (mem_tableRecords.mpr ⟨h, hh, by simp [hl]⟩)).elim

namespace OwnerInv

/-- A linked record carries the `pthread_t` of a thread that is running or can still be
joined. -/
theorem owner_alive_or_joinable (hi : OwnerInv H s ts init B) {p : Ptr}
    (hp : p ∈ tableRecords H B) : ∃ (t : Nat) (th : OsThread), ts[t]? = some th ∧
      (s.rep p).pthreadId = th.pthread ∧ (th.alive = true ∨ th.joinable = true) :=
  let ⟨t, th, hth, ho⟩ := hi.owner p hp
  ⟨t, th, hth, ho.pthread, ho.alive_or_joinable⟩

/-- After `GC_thr_init`, `GC_lookup_by_pthread` finds for a started thread that can still be
joined a record the thread owns, whatever its cache holds. -/
theorem lookupByPthread_owned (hi : OwnerInv H s ts init B) (hinit : init = true) {t : Nat}
    {th : OsThread} (hth : ts[t]? = some th) (hj : th.joinable = true)
    (hs : th.startInfo = none) (c : Nat → Nat) :
    ∃ p, gcLookupByPthread H s c th.pthread = .ok (some p) ∧ (s.rep p).OwnedBy th := by
  obtain ⟨p, hp, hpt⟩ := hi.joinable hinit t th hth hj hs
  rcases gcLookupByPthread_cases hi.table c th.pthread with ⟨-, hall⟩ | ⟨q, hq, hqm, hqp⟩
  · exact absurd hpt (hall p hp)
  · exact ⟨q, hq, hi.owner_eq hqm hth hqp⟩

/-- Once every thread has terminated and none can be joined, no record is linked or
allocated. -/
theorem empty_of_done (hi : OwnerInv H s ts init B)
    (hdone : ∀ th ∈ ts, th.alive = false ∧ th.joinable = false) :
    s.allocated = [] ∧ ∀ h < H.size, s.heads h = none := by
  -- a linked record would belong to a running or joinable thread
  have hnil : ∀ p ∈ tableRecords H B, False := fun p hp => by
    obtain ⟨t, th, hth, -, hlive⟩ := hi.owner_alive_or_joinable hp
    obtain ⟨ha, hj⟩ := hdone th (List.getElem?_mem hth)
    rcases hlive with h | h <;> simp_all
  exact ⟨List.eq_nil_iff_forall_not_mem.mpr fun p hp => hnil p (hi.allocated p hp),
    hi.table.heads_none hnil⟩

end OwnerInv

end Owners

section Process

variable {H : TableHash} {a : Bool} {sys : GcSystem}

/-- Over every run of the process in which the thread calls keep the contract and collections
happen at any point, with any answers of the OS: every live heap record carries the `pthread_t`
of a thread that is running or can still be joined; after `GC_thr_init`,
`GC_lookup_by_pthread` finds, for every started thread that can still be joined, a record the
thread owns; and once every thread has
terminated and none can be joined, `GC_threads` is empty and every heap record is freed. -/
theorem process_records_reclaimed (hr : SysContractReachable H a sys) :
    (∀ p ∈ sys.rt.table.allocated, ∃ t th, sys.rt.thread? t = some th ∧
      (sys.rt.table.rep p).pthreadId = th.pthread ∧ (th.alive = true ∨ th.joinable = true)) ∧
    (∀ t th, sys.rt.thread? t = some th → sys.rt.initialized = true → th.joinable = true →
      th.startInfo = none →
      ∃ p, gcLookupByPthread H sys.rt.table sys.rt.pthreadMapCache th.pthread = .ok (some p) ∧
        (sys.rt.table.rep p).OwnedBy th) ∧
    ((∀ th ∈ sys.rt.threads, th.alive = false ∧ th.joinable = false) →
      sys.rt.table.allocated = [] ∧ ∀ h < H.size, sys.rt.table.heads h = none) := by
  obtain ⟨-, B, hi⟩ := hr.ownerInv
  exact ⟨fun p hp => hi.owner_alive_or_joinable (hi.allocated p hp),
    fun t th hth hinit hj hs => hi.lookupByPthread_owned hinit hth hj hs _, hi.empty_of_done⟩

set_option maxRecDepth 4000 in
/-- The main thread collects while thread `1` runs, thread `1` exits and terminates
(`scanJoinableRun`), and the main thread joins it, unregisters, detaches itself and terminates: at
the end both threads are done, `GC_threads` is empty and record `2` is freed. -/
theorem process_records_reclaimed_scannedJoinDetach :
    ∃ sys, sysRunContract lowByteHash false ⟨Runtime.start mainThread, .init, []⟩
        (scanJoinableRun ++ joinDetachTail.map SysEvent.life) = some (.ok sys) ∧
      (∀ th ∈ sys.rt.threads, th.alive = false ∧ th.joinable = false) ∧
      (∀ p ∈ sys.rt.table.allocated, ∃ t th, sys.rt.thread? t = some th ∧
        (sys.rt.table.rep p).pthreadId = th.pthread ∧
        (th.alive = true ∨ th.joinable = true)) ∧
      (∀ t th, sys.rt.thread? t = some th → sys.rt.initialized = true → th.joinable = true →
        th.startInfo = none → ∃ p, gcLookupByPthread lowByteHash sys.rt.table
          sys.rt.pthreadMapCache th.pthread = .ok (some p) ∧ (sys.rt.table.rep p).OwnedBy th) ∧
      ((∀ th ∈ sys.rt.threads, th.alive = false ∧ th.joinable = false) →
        sys.rt.table.allocated = [] ∧ ∀ h < lowByteHash.size, sys.rt.table.heads h = none) :=
  have hr : SysContractReachable lowByteHash false _ :=
    sysRunContract_reachable (.start mainThread rfl rfl rfl rfl rfl)
      (scanJoinableRun ++ joinDetachTail.map SysEvent.life) rfl
  ⟨_, rfl, by decide, process_records_reclaimed hr⟩

end Process

end Win32GcThreads
