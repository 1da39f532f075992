import Win32GcThreads.NativeReclaim

/-!
# Restarting the world

`GC_suspend` marks every thread it suspends `IS_SUSPENDED`, and `GC_start_world` resumes every
record so marked and clears the mark, after `GC_ASSERT(t -> stack_end != NULL && t -> id !=
thread_id)` (line 1333). A collection that starts with no record marked ends with none marked,
so no thread stays suspended, and it never fails that assertion: every mark comes from
`GC_suspend` on a record the loop of `GC_stop_world` wanted, which has a stack and is not the
caller's, and `GC_push_all_stacks` moves neither. No lifecycle routine of either build marks
a record, so no record is marked between collections in every process of the `GC_PTHREADS`
build and in every native process reached under the contract.
-/

namespace Win32GcThreads

/-- No record is marked `IS_SUSPENDED`. -/
def NoneSuspended (s : ThreadTable) : Prop := ∀ p, (s.rep p).isSuspended = false

/-- Every record marked `IS_SUSPENDED` passes the assertion at line 1333: it has a stack and is
not the caller's. -/
def SuspendedWanted (self : Nat) (s : ThreadTable) : Prop :=
  ∀ p, (s.rep p).isSuspended = true → (s.rep p).stackEnd ≠ 0 ∧ (s.rep p).id ≠ self

section Stop

variable {os : OsView} {self : Nat}

theorem suspendIfWanted_suspendedWanted {s : ThreadTable} {p : Ptr} (hw : SuspendedWanted self s)
    (hp : (s.rep p).isSuspended = false) : SuspendedWanted self (suspendIfWanted os self s p) := by
  intro q hq
  by_cases hqp : q = p
  · subst hqp
    by_cases hwant : suspendWanted self (s.rep q) = true
    · by_cases hex : os.exited (s.rep q).handle = true
      · simp [suspendIfWanted, gcSuspend, hwant, hex, hp] at hq
      · simp only [suspendWanted, Bool.and_eq_true, bne_iff_ne, ne_eq] at hwant
        simp [suspendIfWanted, gcSuspend, suspendWanted, hwant, hex]
    · simp [suspendIfWanted, hwant, hp] at hq
  · rw [suspendIfWanted_rep_ne hqp] at hq ⊢
    exact hw q hq

/-- The loop of `GC_stop_world` marks only records it wants, each once. -/
theorem stopFold_suspendedWanted : ∀ (l : List Ptr) (s : ThreadTable), l.Nodup →
    SuspendedWanted self s → (∀ q ∈ l, (s.rep q).isSuspended = false) →
    SuspendedWanted self (l.foldl (suspendIfWanted os self) s)
  | [], _, _, hw, _ => hw
  | p :: l, s, hl, hw, hq => by
    obtain ⟨hp, hl⟩ := List.nodup_cons.mp hl
    refine stopFold_suspendedWanted l _ hl
      (suspendIfWanted_suspendedWanted hw (hq p (List.mem_cons_self _ _))) fun q hql => ?_
    have hqp : q ≠ p := fun e => hp (e ▸ hql)
    rw [suspendIfWanted_rep_ne hqp]
    exact hq q (List.mem_cons_of_mem _ hql)

end Stop

section Push

variable {H : TableHash} {a : Bool} {os : OsView} {self approxSp : Nat} {st st' : PushState}

/-- One iteration of the scan loop moves no mark, no stack end and no id. -/
theorem pushIfWanted_marks {p : Ptr} (h : pushIfWanted a os self approxSp st p = .ok st') (q : Ptr) :
    (st'.table.rep q).isSuspended = (st.table.rep q).isSuspended ∧
      (st'.table.rep q).stackEnd = (st.table.rep q).stackEnd ∧
      (st'.table.rep q).id = (st.table.rep q).id := by
  unfold pushIfWanted at h
  split at h
  · obtain ⟨⟨lsm, ht⟩, -⟩ := gcPushStackFor_ok h
    rw [ht]
    by_cases hq : q = p
    · subst hq; simp
    · simp [Function.update_noteq hq]
  · cases h
    exact ⟨rfl, rfl, rfl⟩

/-- Nor does `GC_push_all_stacks`. -/
theorem gcPushAllStacks_marks {itc : Bool}
    (h : gcPushAllStacks H a os self approxSp itc st = .ok st') (q : Ptr) :
    (st'.table.rep q).isSuspended = (st.table.rep q).isSuspended ∧
      (st'.table.rep q).stackEnd = (st.table.rep q).stackEnd ∧
      (st'.table.rep q).id = (st.table.rep q).id := by
  obtain ⟨st₁, h₁, h⟩ := except_bind_eq_ok.mp h
  have hw := walkBuckets_preserves (P := fun st₂ : PushState =>
    (st₂.table.rep q).isSuspended = (st.table.rep q).isSuspended ∧
      (st₂.table.rep q).stackEnd = (st.table.rep q).stackEnd ∧
      (st₂.table.rep q).id = (st.table.rep q).id)
    (fun _ _ _ hP hb => ⟨(pushIfWanted_marks hb q).1.trans hP.1,
      (pushIfWanted_marks hb q).2.1.trans hP.2.1, (pushIfWanted_marks hb q).2.2.trans hP.2.2⟩)
    _ st ⟨rfl, rfl, rfl⟩ h₁
  split at h
  · cases h
  · cases h
    exact hw

/-- `GC_push_all_stacks` never fails the assertion of `GC_start_world`. -/
theorem gcPushAllStacks_faults {B : Nat → List Ptr} {itc : Bool} (hi : TableInv H st.table B) :
    FaultsIn (· ≠ .assertFailed 1333) (gcPushAllStacks H a os self approxSp itc st) := by
  rw [gcPushAllStacks, walkBuckets_range pushIfWanted_keepsLinks hi]
  refine FaultsIn.bind (FaultsIn.foldlM (fun st₁ p => ?_) _ _) fun _ _ => ?_
  · unfold pushIfWanted
    split
    · exact gcPushStackFor_faults.mono fun e he => by
        rcases he with rfl | rfl | ⟨rfl, -⟩ | rfl | rfl <;> simp
    · exact .ok _
  · split
    · exact .error (by simp)
    · exact .ok _

end Push

section Start

variable {a : Bool} {self : Nat} {s : ThreadTable} {p : Ptr}

/-- One iteration of `GC_start_world` on a table whose marks pass the assertion: it returns,
and clears the mark of its record only. -/
theorem resumeIfSuspended_clears (hw : SuspendedWanted self s) :
    ∃ s₁, resumeIfSuspended a self s p = .ok s₁ ∧ (s₁.rep p).isSuspended = false ∧
      ∀ q ≠ p, s₁.rep q = s.rep q := by
  unfold resumeIfSuspended
  split
  · next hs =>
    obtain ⟨hse, hid⟩ := hw p hs
    rw [if_neg (by simp [hse, hid])]
    exact ⟨_, rfl, by simp, fun q hq => updateRep_rep_ne _ _ hq⟩
  · next hs => exact ⟨s, rfl, by simpa using hs, fun _ _ => rfl⟩

/-- The loop of `GC_start_world` over records that include every marked one returns and leaves
no mark. -/
theorem resumeFold_clears : ∀ (l : List Ptr) (s : ThreadTable), l.Nodup → SuspendedWanted self s →
    (∀ q, q ∉ l → (s.rep q).isSuspended = false) →
    ∃ s', l.foldlM (resumeIfSuspended a self) s = .ok s' ∧ NoneSuspended s'
  | [], s, _, _, hq => ⟨s, rfl, fun q => hq q (List.not_mem_nil q)⟩
  | p :: l, s, hl, hw, hq => by
    obtain ⟨hp, hl⟩ := List.nodup_cons.mp hl
    obtain ⟨s₁, h₁, hp₁, hne⟩ := resumeIfSuspended_clears (a := a) (p := p) hw
    have hw₁ : SuspendedWanted self s₁ := fun q hq₁ => by
      by_cases hqp : q = p
      · subst hqp; simp [hp₁] at hq₁
      · rw [hne q hqp] at hq₁ ⊢; exact hw q hq₁
    obtain ⟨s', h', hn⟩ := resumeFold_clears l s₁ hl hw₁ fun q hql => by
      by_cases hqp : q = p
      · subst hqp; exact hp₁
      · rw [hne q hqp]; exact hq q (by simp [hqp, hql])
    exact ⟨s', by rw [List.foldlM_cons, h₁]; exact h', hn⟩

end Start

section Collect

variable {H : TableHash} {a : Bool} {os : OsView} {self approxSp : Nat} {s : ThreadTable}
  {c : QueryCache} {B : Nat → List Ptr}

/-- A collection on a well-formed table with no record marked `IS_SUSPENDED` never fails the
assertion of `GC_start_world` at line 1333, and when it returns no record is marked: every thread
`GC_stop_world` suspended has been resumed. -/
theorem gcCollect_restarts_world (hi : TableInv H s B) (hs : NoneSuspended s) :
    (∀ e, gcCollect H a os self approxSp s c = .error e → e ≠ .assertFailed 1333) ∧
    ∀ st, gcCollect H a os self approxSp s c = .ok st →
      ∀ p, (st.table.rep p).isSuspended = false := by
  have k₀ : LinksKept s ((tableRecords H B).foldl (suspendIfWanted os self) s) :=
    stopFold_linksKept _ _
  -- `GC_stop_world` marks only records it wants
  have hw₀ : SuspendedWanted self ((tableRecords H B).foldl (suspendIfWanted os self) s) :=
    stopFold_suspendedWanted _ _ hi.nodup (fun p hp => by simp [hs p] at hp) fun q _ => hs q
  simp only [gcCollect, gcStopWorld_eq hi, except_ok_bind]
  cases hpush : gcPushAllStacks H a os self approxSp false
      ⟨(tableRecords H B).foldl (suspendIfWanted os self) s, c, false, []⟩ with
  | error e =>
    exact ⟨fun e' he => by cases he; exact gcPushAllStacks_faults (k₀.inv hi) e hpush,
      fun _ h => by cases h⟩
  | ok st =>
    have hm := gcPushAllStacks_marks hpush
    have hi₂ : TableInv H st.table B :=
      (k₀.trans (gcPushAllStacks_linksKept (k₀.inv hi) hpush)).inv hi
    -- `GC_push_all_stacks` moves no mark, so `GC_start_world` clears every one
    obtain ⟨s', hstart, hn⟩ := resumeFold_clears (a := a) _ st.table hi.nodup
      (fun p hp => by rw [(hm p).2.1, (hm p).2.2]; exact hw₀ p (by rw [← (hm p).1]; exact hp))
      fun q hq => by rw [(hm q).1]; exact (stopFold_rep_of_not_mem hq s).symm ▸ hs q
    have hsw : gcStartWorld H a self st.table = .ok s' := by
      rw [gcStartWorld, walkBuckets_range resumeIfSuspended_keepsLinks hi₂, hstart]
    simp only [except_ok_bind, hsw]
    exact ⟨fun _ he => (nomatch he), fun _ he => by cases he; exact hn⟩

end Collect

section Native

/-- What one step of the native process does to the table: nothing, a registration, a
deletion, or a collection computing what the `GC_PTHREADS` one computes. -/
inductive NativeTableStep (H : TableHash) (a : Bool) : ThreadTable → ThreadTable → Prop
  | keep (s : ThreadTable) : NativeTableStep H a s s
  | register {s s' : ThreadTable} {sb w : Nat} {dup : Option Nat} {alloc : Option Ptr} {me : Ptr}
      (ha : AllocAnswer s alloc) (hr : gcRegisterMyThreadInner H s sb w 0 dup alloc = .ok (s', me)) :
      NativeTableStep H a s s'
  | delete {s s' : ThreadTable} {w : Nat} (hr : gcDeleteThread H s w = .ok s') :
      NativeTableStep H a s s'
  | collect {s : ThreadTable} {os : OsView} {self sp : Nat} {c : QueryCache} {st : PushState}
      (hr : gcCollect H a os self sp s c = .ok st) : NativeTableStep H a s st.table

variable {H : TableHash} {a : Bool} {s s' : ThreadTable}

theorem gcRegisterMyThreadNative_tableStep {nl : Bool} {w sb : Nat} {dup : Option Nat}
    {alloc : Option Ptr} {st : RegisterStatus} (ha : AllocAnswer s alloc)
    (hr : gcRegisterMyThreadNative H nl s w sb dup alloc = .ok (s', st)) :
    NativeTableStep H a s s' := by
  unfold gcRegisterMyThreadNative at hr
  cases nl
  · cases hr
  cases hl : gcLookupThread H s w with
  | error e => simp [hl] at hr
  | ok r =>
    cases r with
    | none =>
      simp only [hl, Bool.not_true, Bool.false_eq_true, if_false, except_ok_bind] at hr
      obtain ⟨⟨s₁, me⟩, h₁, h₂⟩ := except_bind_eq_ok.mp hr
      cases h₂
      exact .register ha h₁
    | some p =>
      simp only [hl, Bool.not_true, Bool.false_eq_true, if_false, except_ok_bind] at hr
      cases hr
      exact .keep s

variable {sys sys' : NativeSystem}

/-- Every step of a native process that keeps the contract is one of these. -/
theorem nativeStep_tableStep {e : NativeEvent} (hi : sys.rt.Inv H)
    (hc : e.keepsContract H sys.rt = true) (h : nativeStep H a sys e = some (.ok sys')) :
    NativeTableStep H a sys.rt.table sys'.rt.table := by
  obtain ⟨B, hi⟩ := hi
  cases e with
  | thrInit dup =>
    obtain ⟨r, h₁, h₂⟩ := Option.map_eq_some'.mp h
    obtain ⟨rt', rfl, rfl⟩ := except_map_eq_ok.mp h₂
    simp only [gcThrInitNative, Option.bind_eq_bind, Option.bind_eq_some] at h₁
    obtain ⟨main, -, h₁⟩ := h₁
    split at h₁
    · cases h₁
    obtain ⟨⟨s₁, me⟩, hr, rfl⟩ := except_map_eq_ok.mp (Option.some.inj h₁)
    exact .register (show AllocAnswer _ none from trivial) hr
  | createThread parent w sb psi created =>
    obtain ⟨rt', h₁, h₂⟩ := Option.map_eq_some'.mp h
    cases h₂
    simp only [gcCreateThread, Option.bind_eq_bind, Option.bind_eq_some] at h₁
    obtain ⟨th, -, h₁⟩ := h₁
    split at h₁
    · cases h₁
    cases psi with
    | none => cases h₁; exact .keep _
    | some b =>
      simp only at h₁
      split at h₁
      · cases h₁
      split at h₁
      · cases h₁; exact .keep _
      split at h₁ <;> cases h₁
      exact .keep _
  | foreignCreate w sb =>
    obtain ⟨rt', h₁, h₂⟩ := Option.map_eq_some'.mp h
    cases h₂
    unfold nativeForeignCreate at h₁
    split at h₁ <;> cases h₁
    exact .keep _
  | startInner t dup alloc =>
    simp only [nativeStep] at h
    split at h
    · rename_i hok
      obtain ⟨r, h₁, h₂⟩ := Option.map_eq_some'.mp h
      obtain ⟨rt', rfl, rfl⟩ := except_map_eq_ok.mp h₂
      simp only [gcWin32StartInner, Option.bind_eq_bind, Option.bind_eq_some] at h₁
      obtain ⟨th, -, psi, -, h₁⟩ := h₁
      split at h₁
      · cases h₁
      obtain ⟨⟨s₁, st⟩, hr, rfl⟩ := except_map_eq_ok.mp (Option.some.inj h₁)
      exact gcRegisterMyThreadNative_tableStep (allocAnswer_of_allocOk hok) hr
    · cases h
  | startReturn t =>
    obtain ⟨r, h₁, h₂⟩ := Option.map_eq_some'.mp h
    obtain ⟨rt', rfl, rfl⟩ := except_map_eq_ok.mp h₂
    simp only [gcWin32StartReturn, Option.bind_eq_bind, Option.bind_eq_some] at h₁
    obtain ⟨th, -, h₁⟩ := h₁
    split at h₁
    · cases h₁
    obtain ⟨s₁, hr, rfl⟩ := except_map_eq_ok.mp (Option.some.inj h₁)
    exact .delete hr
  | exitThread t =>
    obtain ⟨r, h₁, h₂⟩ := Option.map_eq_some'.mp h
    obtain ⟨rt', rfl, rfl⟩ := except_map_eq_ok.mp h₂
    simp only [gcExitThread, Option.bind_eq_bind, Option.bind_eq_some] at h₁
    obtain ⟨th, -, h₁⟩ := h₁
    split at h₁
    · cases h₁
    obtain ⟨s₁, hr, rfl⟩ := except_map_eq_ok.mp (Option.some.inj h₁)
    exact .delete hr
  | register t dup alloc =>
    simp only [nativeStep, Option.bind_eq_bind, Option.bind_eq_some] at h
    obtain ⟨th, -, h⟩ := h
    split at h
    · cases h
    rename_i hok
    obtain ⟨⟨s₁, st⟩, hr, rfl⟩ := except_map_eq_ok.mp (Option.some.inj h)
    exact gcRegisterMyThreadNative_tableStep (allocAnswer_of_allocOk (by simpa using hok)) hr
  | unregister t =>
    simp only [nativeStep, Option.bind_eq_bind, Option.bind_eq_some] at h
    obtain ⟨th, -, h⟩ := h
    obtain ⟨s₁, hr, rfl⟩ := except_map_eq_ok.mp (Option.some.inj h)
    exact .delete hr
  | allowRegister t | terminate t =>
    simp only [nativeStep, Option.bind_eq_bind, Option.bind_eq_some] at h
    obtain ⟨th, -, h⟩ := h
    cases h
    exact .keep _
  | collect t approxSp os =>
    simp only [nativeStep, Option.bind_eq_bind, Option.bind_eq_some] at h
    obtain ⟨th, -, h⟩ := h
    split at h
    · cases h
    obtain ⟨st, hr, rfl⟩ := except_map_eq_ok.mp (Option.some.inj h)
    rw [gcCollectNative_eq hi.table (hi.exited_false hc)] at hr
    exact .collect hr

/-- No step of the native process leaves a record marked. -/
theorem NativeTableStep.noneSuspended {B : Nat → List Ptr} (hi : TableInv H s B)
    (hs : NoneSuspended s) (h : NativeTableStep H a s s') : NoneSuspended s' := by
  cases h with
  | keep => exact hs
  | @register _ _ _ _ _ me ha hr =>
    obtain ⟨-, -, ⟨_, -, -, hrep⟩, hother, -⟩ := gcRegisterMyThreadInner_spec hi ha hr
    intro q
    by_cases hq : q = me
    · subst hq
      rw [hrep]
      split <;> simp [ThreadRep.registered, ThreadRep.zero, hs firstThread]
    · rw [hother q hq]; exact hs q
  | delete hr => exact fun q => by rw [gcDeleteThread_rep hr]; exact hs q
  | collect hr => exact (gcCollect_restarts_world hi hs).2 _ hr

theorem NativeReachable.noneSuspended (hr : NativeReachable H a sys) :
    NoneSuspended sys.rt.table := by
  induction hr with
  | start main hs => exact fun _ => by rfl
  | step hr' hc h ih =>
    obtain ⟨B, hi⟩ := hr'.inv
    exact (nativeStep_tableStep ⟨B, hi⟩ hc h).noneSuspended hi.table ih

end Native

namespace NoneSuspended

variable {H : TableHash} {s s' : ThreadTable} {B : Nat → List Ptr}

theorem updateRep {f : ThreadRep → ThreadRep} (hs : NoneSuspended s) (p : Ptr)
    (hf : ∀ r, (f r).isSuspended = r.isSuspended) :
    NoneSuspended (Win32GcThreads.updateRep s p f) := fun q => by
  by_cases hq : q = p
  · subst hq; rw [updateRep_rep_self, hf]; exact hs q
  · rw [updateRep_rep_ne _ _ hq]; exact hs q

theorem of_rep (hs : NoneSuspended s) (h : s'.rep = s.rep) : NoneSuspended s' := fun q => by
  rw [h]; exact hs q

/-- A registration marks no record: the new one copies cleared memory or the unused
`first_thread`. -/
theorem register {alloc : Option Ptr} {sb w self : Nat} {dup : Option Nat} {me : Ptr}
    (hi : TableInv H s B) (ha : AllocAnswer s alloc) (hs : NoneSuspended s)
    (hr : gcRegisterMyThreadInner H s sb w self dup alloc = .ok (s', me)) : NoneSuspended s' := by
  obtain ⟨-, -, ⟨_, -, -, hrep⟩, hother, -⟩ := gcRegisterMyThreadInner_spec hi ha hr
  intro q
  by_cases hq : q = me
  · subst hq
    rw [hrep]
    split <;> simp [ThreadRep.registered, ThreadRep.zero, hs firstThread]
  · rw [hother q hq]; exact hs q

theorem freeIfFinished (hs : NoneSuspended s) {t : Ptr} (h : freeIfFinished H s t = .ok s') :
    NoneSuspended s' := by
  unfold Win32GcThreads.freeIfFinished at h
  split at h
  · obtain ⟨s₁, hr, rfl⟩ := except_map_eq_ok.mp h
    exact hs.of_rep (by simp [gcDeleteGcThreadNoFree_rep hr])
  · cases h; exact hs

end NoneSuspended

section Lifecycle

variable {H : TableHash} {rt rt' : Runtime} {B : Nat → List Ptr}

/-- No lifecycle routine marks a record `IS_SUSPENDED`. -/
theorem lifeStep_noneSuspended {e : LifeEvent} (hi : TableInv H rt.table B)
    (hs : NoneSuspended rt.table) (h : lifeStep H rt e = some (.ok rt')) :
    NoneSuspended rt'.table := by
  cases e with
  | thrInit dup =>
    simp only [lifeStep, gcThrInit, Option.bind_eq_bind, Option.bind_eq_some] at h
    obtain ⟨main, -, h⟩ := h
    split at h
    · cases h
    obtain ⟨⟨s₁, me⟩, hr, rfl⟩ := except_map_eq_ok.mp (Option.some.inj h)
    exact hs.register hi (show AllocAnswer _ none from trivial) hr
  | pthreadCreate parent w p sb d =>
    obtain ⟨rt₁, h₁, h₂⟩ := Option.map_eq_some'.mp h
    cases h₂
    simp only [gcPthreadCreate, Option.bind_eq_bind, Option.bind_eq_some] at h₁
    obtain ⟨th, -, h₁⟩ := h₁
    split at h₁ <;> cases h₁
    exact hs
  | foreignCreate w p sb =>
    obtain ⟨rt₁, h₁, h₂⟩ := Option.map_eq_some'.mp h
    cases h₂
    simp only [foreignCreate] at h₁
    split at h₁ <;> cases h₁
    exact hs
  | startInner t dup alloc =>
    simp only [lifeStep] at h
    split at h
    · rename_i hok
      simp only [gcPthreadStartInner, Option.bind_eq_bind, Option.bind_eq_some] at h
      obtain ⟨th, -, d, -, h⟩ := h
      split at h
      · cases h
      obtain ⟨⟨s₁, me⟩, hr, rfl⟩ := except_map_eq_ok.mp (Option.some.inj h)
      dsimp only [Runtime.setThread_table, Runtime.setTable_table]
      exact (hs.register hi (allocAnswer_of_allocOk hok) hr).updateRep _ fun _ => by rfl
    · cases h
  | exitProc t =>
    simp only [lifeStep, gcThreadExitProc, Option.bind_eq_bind, Option.bind_eq_some] at h
    obtain ⟨th, -, me, -, h⟩ := h
    split at h
    · cases h
    split at h
    · obtain ⟨s₁, hr, rfl⟩ := except_map_eq_ok.mp (Option.some.inj h)
      exact hs.of_rep (gcDeleteThread_rep hr)
    · cases h
      dsimp only [Runtime.setThread_table, Runtime.setTable_table]
      exact hs.updateRep _ fun _ => by rfl
  | register t sb dup alloc =>
    simp only [lifeStep] at h
    split at h
    · rename_i hok
      obtain ⟨r, h₁, h₂⟩ := Option.map_eq_some'.mp h
      obtain ⟨r', h₃, rfl⟩ := except_map_eq_ok.mp h₂
      have h₁ := h₁.trans (congrArg _ h₃)
      simp only [gcRegisterMyThread, Option.bind_eq_bind, Option.bind_eq_some] at h₁
      obtain ⟨th, -, h₁⟩ := h₁
      split at h₁
      · cases h₁
      split at h₁
      · cases h₁
      cases hl : gcLookupThread H rt.table th.win32Id with
      | error e => simp [hl] at h₁
      | ok me? =>
        cases me? with
        | none =>
          simp only [hl, except_ok_bind] at h₁
          obtain ⟨⟨s₁, me⟩, hr, h₁⟩ := except_bind_eq_ok.mp (Option.some.inj h₁)
          cases h₁
          dsimp only [Runtime.setThread_table, Runtime.setTable_table]
          exact (hs.register hi (allocAnswer_of_allocOk hok) hr).updateRep _ fun _ => by rfl
        | some me =>
          simp only [hl, except_ok_bind] at h₁
          split at h₁
          · obtain ⟨s₁, hsb, h₁⟩ := except_bind_eq_ok.mp (Option.some.inj h₁)
            cases h₁
            unfold gcRecordStackBase at hsb
            split at hsb
            · cases hsb
            · cases hsb
              dsimp only [Runtime.setThread_table, Runtime.setTable_table]
              exact (hs.updateRep _ fun _ => by rfl).updateRep _ fun _ => by rfl
          · cases h₁
            exact hs
    · cases h
  | unregister t =>
    simp only [lifeStep, gcUnregisterMyThread, Option.bind_eq_bind, Option.bind_eq_some] at h
    obtain ⟨th, -, h⟩ := h
    split at h
    · cases h
    obtain ⟨me?, -, h⟩ := except_bind_eq_ok.mp (Option.some.inj h)
    cases me? with
    | none => cases h
    | some me =>
      dsimp only at h
      split at h
      · cases h
        dsimp only [Runtime.setThread_table, Runtime.setTable_table]
        exact hs.updateRep _ fun _ => by rfl
      · obtain ⟨s₁, hr, rfl⟩ := except_map_eq_ok.mp h
        exact hs.of_rep (gcDeleteThread_rep hr)
  | allowRegister t | terminate t =>
    simp only [lifeStep, Option.bind_eq_some] at h
    obtain ⟨th, -, h⟩ := h
    split at h <;> cases h
    exact hs
  | joinLookup j target => exact (lookupLoop_table h).symm ▸ hs
  | joinDone j =>
    simp only [lifeStep, gcPthreadJoinDone, Option.bind_eq_bind, Option.bind_eq_some] at h
    obtain ⟨th, -, call, -, h⟩ := h
    cases call with
    | detach => cases h
    | join target t =>
      dsimp only at h
      split at h
      · cases h; exact hs
      · split at h
        · cases h; exact hs
        · split at h
          · cases h
          · obtain ⟨s₁, hr, rfl⟩ := except_map_eq_ok.mp (Option.some.inj h)
            exact hs.freeIfFinished hr
  | detachLookup j target => exact (lookupLoop_table h).symm ▸ hs
  | detachDone j =>
    simp only [lifeStep, gcPthreadDetachDone, Option.bind_eq_bind, Option.bind_eq_some] at h
    obtain ⟨th, -, call, -, h⟩ := h
    cases call with
    | join => cases h
    | detach target t =>
      dsimp only at h
      split at h
      · cases h; exact hs
      · split at h
        · cases h; exact hs
        · obtain ⟨s₁, hr, rfl⟩ := except_map_eq_ok.mp (Option.some.inj h)
          dsimp only [Runtime.setThread_table, Runtime.setTable_table]
          exact (hs.updateRep _ fun _ => by rfl).freeIfFinished hr
  | doBlocking t sp =>
    simp only [lifeStep, gcDoBlockingEnter, Option.bind_eq_bind, Option.bind_eq_some] at h
    obtain ⟨th, -, h⟩ := h
    split at h
    · cases h
    obtain ⟨me?, -, h⟩ := except_bind_eq_ok.mp (Option.some.inj h)
    cases me? with
    | none => cases h
    | some me =>
      cases h
      dsimp only [Runtime.setThread_table, Runtime.setTable_table]
      exact hs.updateRep _ fun _ => by rfl
  | doBlockingDone t =>
    simp only [lifeStep, gcDoBlockingLeave, Option.bind_eq_bind, Option.bind_eq_some] at h
    obtain ⟨th, -, me, -, h⟩ := h
    cases h
    dsimp only [Runtime.setThread_table, Runtime.setTable_table]
    exact hs.updateRep _ fun _ => by rfl
  | setStackbottom t sb =>
    simp only [lifeStep, gcSetStackbottom, Option.bind_eq_bind, Option.bind_eq_some] at h
    obtain ⟨th, -, h⟩ := h
    split at h
    · cases h
    split at h
    · cases h; exact hs
    obtain ⟨me?, -, h⟩ := except_bind_eq_ok.mp (Option.some.inj h)
    cases me? with
    | none => cases h
    | some me =>
      cases h
      dsimp only [Runtime.setThread_table, Runtime.setTable_table]
      exact hs.updateRep _ fun _ => by rfl

end Lifecycle

section System

variable {H : TableHash} {a : Bool} {sys : GcSystem}

/-- Between collections of the `GC_PTHREADS` build, no record is marked. -/
theorem SysReachable.noneSuspended (hr : SysReachable H a sys) : NoneSuspended sys.rt.table := by
  induction hr with
  | start => exact fun _ => rfl
  | @step sys sys' e hr he ih =>
    obtain ⟨B, hi⟩ := hr.tableInv
    cases e with
    | life e =>
      obtain ⟨rt', h₁, rfl⟩ := sysStep_life_ok he
      exact lifeStep_noneSuspended hi ih h₁
    | collect t sp os =>
      obtain ⟨th, -, hr'⟩ := sysStep_collect he
      obtain ⟨st, hc, rfl⟩ := except_map_eq_ok.mp hr'.symm
      exact (gcCollect_restarts_world hi ih).2 st hc

end System

section Results

variable {H : TableHash} {a : Bool} {sys : NativeSystem}

/-- In every native process reached under the contract no record is marked `IS_SUSPENDED`
between collections, so no thread stays suspended, and no collection fails the assertion of
`GC_start_world` at line 1333. -/
theorem native_world_restarted (hr : NativeReachable H a sys) :
    NoneSuspended sys.rt.table ∧ ∀ (t sp : Nat) (os : OsView),
      (NativeEvent.collect t sp os).keepsContract H sys.rt = true →
      nativeStep H a sys (.collect t sp os) ≠ some (.error (.assertFailed 1333)) := by
  obtain ⟨B, hi⟩ := hr.inv
  refine ⟨hr.noneSuspended, fun t sp os hc h => ?_⟩
  simp only [nativeStep, Option.bind_eq_bind, Option.bind_eq_some] at h
  obtain ⟨th, -, h⟩ := h
  split at h
  · cases h
  rw [gcCollectNative_eq hi.table (hi.exited_false hc)] at h
  exact (gcCollect_restarts_world hi.table hr.noneSuspended).1 _
    (except_map_eq_error.mp (Option.some.inj h)) rfl

set_option maxRecDepth 4000 in
/-- The main thread's collection in `nativeExitRun`, with assertions, while thread `1` runs. -/
theorem native_world_restarted_exitRun :
    ∃ sys, nativeRunContract lowByteHash true nativeStart (nativeExitRun.take 3) =
        some (.ok sys) ∧
      NoneSuspended sys.rt.table ∧ ∀ (t sp : Nat) (os : OsView),
        (NativeEvent.collect t sp os).keepsContract lowByteHash sys.rt = true →
        nativeStep lowByteHash true sys (.collect t sp os) ≠ some (.error (.assertFailed 1333)) :=
  have hr : NativeReachable lowByteHash true _ :=
    nativeRunContract_reachable (.start nativeMain rfl) (nativeExitRun.take 3) rfl
  ⟨_, rfl, native_world_restarted hr⟩

/-- In every process of the `GC_PTHREADS` build no record is marked `IS_SUSPENDED` between
collections, and no collection fails the assertion of `GC_start_world` at line 1333. -/
theorem process_world_restarted {sys : GcSystem} (hr : SysReachable H a sys) :
    NoneSuspended sys.rt.table ∧ ∀ (t sp : Nat) (os : OsView),
      sysStep H a sys (.collect t sp os) ≠ some (.error (.assertFailed 1333)) := by
  obtain ⟨B, hi⟩ := hr.tableInv
  refine ⟨hr.noneSuspended, fun t sp os h => ?_⟩
  obtain ⟨th, -, hc⟩ := sysStep_collect h
  exact (gcCollect_restarts_world hi hr.noneSuspended).1 _ (except_map_eq_error.mp hc.symm) rfl

set_option maxRecDepth 4000 in
/-- `scanJoinableRun` with assertions: the main thread's collection suspends and resumes the
running thread 1, which then exits and terminates. -/
theorem process_world_restarted_scanned :
    ∃ sys, sysRun lowByteHash true ⟨Runtime.start mainThread, .init, []⟩ scanJoinableRun =
        some (.ok sys) ∧
      NoneSuspended sys.rt.table ∧ ∀ (t sp : Nat) (os : OsView),
        sysStep lowByteHash true sys (.collect t sp os) ≠ some (.error (.assertFailed 1333)) :=
  ⟨_, rfl, process_world_restarted (sysRun_reachable (.start mainThread) scanJoinableRun rfl)⟩

end Results

end Win32GcThreads
