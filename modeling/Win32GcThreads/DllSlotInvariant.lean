import Win32GcThreads.DllThreadTable
import Mathlib.Logic.Relation

/-!
# Slot indices in discovery mode

Over every interleaving of discovery-mode registrations, deletions, `GC_do_blocking`,
thread creation and the collector's `GC_stop_world` / `GC_start_world`: every slot
index a thread or the collector holds is below `MAX_THREADS`, and from the moment a
registration leaves its `GC_max_thread_index` update loop, `GC_get_max_thread_index()`
is at least its slot index at every later point, despite the overshoot of the
concurrent `InterlockedIncrement`s and the plain clamp store.
-/

namespace Win32GcThreads

/-- The slot indices a thread holds are below `MAX_THREADS`. -/
def DllPc.InRange : DllPc → Prop
  | .claim i | .raiseCheck i | .raiseIncrement i | .clampCheck i | .clampStore i
  | .duplicate i | .recordStackBase i | .storeId i | .checkStop i | .storeAttached i
  | .running i | .deleting i _ => i < maxThreads
  | .blocked i j => i < maxThreads ∧ j < maxThreads
  | _ => True

/-- The slot of a registration past its `GC_max_thread_index` update loop. -/
def DllPc.leftLoop : DllPc → Option Nat
  | .clampCheck i | .clampStore i | .duplicate i | .recordStackBase i | .storeId i
  | .checkStop i | .storeAttached i | .running i | .blocked i _ => some i
  | _ => none

/-- The collector's loop index is at most its `my_max`, which is below `MAX_THREADS`. -/
def CollectorPc.InRange : CollectorPc → Prop
  | .testStackEnd i my | .testFlags i my | .testId i my | .exitCode i my | .suspend i my
  | .deleting _ i my | .readFlags _ i my | .writeFlags _ i my _ | .testSuspended i my
  | .resume i my => i ≤ my ∧ my < maxThreads
  | _ => True

/-- The states some interleaving reaches. -/
inductive DllReachable : DllState → Prop
  | init : DllReachable DllState.init
  | step {s s' : DllState} (e : DllEvent) : DllReachable s → dllStep s e = some s' →
      DllReachable s'

/-- `s'` follows `s` after some events. -/
def DllSteps : DllState → DllState → Prop :=
  Relation.ReflTransGen fun s s' => ∃ e, dllStep s e = some s'

/-- `GC_get_max_thread_index()` is a slot index of `dll_thread_table`. -/
theorem getMaxThreadIndex_lt (s : DllState) : getMaxThreadIndex s < maxThreads := by
  unfold getMaxThreadIndex maxThreads; split <;> omega

/-- A slot the id lookup finds lies inside `dll_thread_table`. -/
theorem dllLookupThread_lt {s : DllState} {id j : Nat} (h : dllLookupThread s id = some j) :
    j < maxThreads :=
  Nat.lt_of_lt_of_le (List.mem_range.mp (List.mem_of_find?_eq_some h))
    (getMaxThreadIndex_lt s)

section Setters

variable (s : DllState)

/-! Each writer of `DllState` changes its own field; the lemmas below say what it leaves. -/
@[simp] theorem DllState.setPc_pc (t : Nat) (p : DllPc) (u : Nat) :
    (s.setPc t p).pc u = if u = t then p else s.pc u := by
  simp [DllState.setPc, Function.update_apply]

@[simp] theorem DllState.setPc_cpc (t : Nat) (p : DllPc) : (s.setPc t p).cpc = s.cpc := rfl
@[simp] theorem DllState.setPc_maxIndex (t : Nat) (p : DllPc) :
    (s.setPc t p).maxIndex = s.maxIndex := rfl
@[simp] theorem DllState.setPc_leftMax (t : Nat) (p : DllPc) :
    (s.setPc t p).leftMax = s.leftMax := rfl
@[simp] theorem DllState.setSlot_pc (i : Nat) (e : DllSlot) : (s.setSlot i e).pc = s.pc := rfl
@[simp] theorem DllState.setSlot_cpc (i : Nat) (e : DllSlot) : (s.setSlot i e).cpc = s.cpc := rfl
@[simp] theorem DllState.setSlot_maxIndex (i : Nat) (e : DllSlot) :
    (s.setSlot i e).maxIndex = s.maxIndex := rfl
@[simp] theorem DllState.setSlot_leftMax (i : Nat) (e : DllSlot) :
    (s.setSlot i e).leftMax = s.leftMax := rfl
@[simp] theorem DllState.setCpc_pc (p : CollectorPc) : (s.setCpc p).pc = s.pc := rfl
@[simp] theorem DllState.setCpc_cpc (p : CollectorPc) : (s.setCpc p).cpc = p := rfl
@[simp] theorem DllState.setCpc_maxIndex (p : CollectorPc) : (s.setCpc p).maxIndex = s.maxIndex := rfl
@[simp] theorem DllState.setCpc_leftMax (p : CollectorPc) : (s.setCpc p).leftMax = s.leftMax := rfl
@[simp] theorem DllState.setHandle_pc (h : Nat) (v : Option Nat) : (s.setHandle h v).pc = s.pc := rfl
@[simp] theorem DllState.setHandle_cpc (h : Nat) (v : Option Nat) :
    (s.setHandle h v).cpc = s.cpc := rfl
@[simp] theorem DllState.setHandle_maxIndex (h : Nat) (v : Option Nat) :
    (s.setHandle h v).maxIndex = s.maxIndex := rfl
@[simp] theorem DllState.setHandle_leftMax (h : Nat) (v : Option Nat) :
    (s.setHandle h v).leftMax = s.leftMax := rfl
@[simp] theorem DllState.setSuspendCount_pc (x n : Nat) : (s.setSuspendCount x n).pc = s.pc := rfl
@[simp] theorem DllState.setSuspendCount_cpc (x n : Nat) :
    (s.setSuspendCount x n).cpc = s.cpc := rfl
@[simp] theorem DllState.setSuspendCount_maxIndex (x n : Nat) :
    (s.setSuspendCount x n).maxIndex = s.maxIndex := rfl
@[simp] theorem DllState.setSuspendCount_leftMax (x n : Nat) :
    (s.setSuspendCount x n).leftMax = s.leftMax := rfl

/-- A store of `GC_delete_gc_thread_no_free` touches neither the places nor the
index variables. -/
theorem deleteAccess_frame (i : Nat) (d : DeleteStep) :
    (deleteAccess s i d).pc = s.pc ∧ (deleteAccess s i d).cpc = s.cpc ∧
      (deleteAccess s i d).maxIndex = s.maxIndex ∧ (deleteAccess s i d).leftMax = s.leftMax := by
  cases d <;> exact ⟨rfl, rfl, rfl, rfl⟩

end Setters

/-- The invariant: every held slot index is in range, and `GC_get_max_thread_index()`
covers every registration past its update loop (through the ghost `leftMax`). -/
structure DllIndexInv (s : DllState) : Prop where
  pc_inRange : ∀ t, (s.pc t).InRange
  cpc_inRange : s.cpc.InRange
  left_le : ∀ t i, (s.pc t).leftLoop = some i → i ≤ s.leftMax
  leftMax_le : s.leftMax ≤ getMaxThreadIndex s

/-- The state before `GC_thr_init` keeps the index invariant. -/
theorem dllIndexInv_init : DllIndexInv DllState.init := by
  refine ⟨fun t => ?_, trivial, fun t i h => ?_, Nat.zero_le _⟩ <;>
    by_cases ht : t = 0 <;> simp_all [DllState.init, DllPc.InRange, DllPc.leftLoop]

section Step

variable {s s' : DllState}

/-- `GC_get_max_thread_index()` reads `GC_max_thread_index` only. -/
theorem getMaxThreadIndex_congr (h : s'.maxIndex = s.maxIndex) :
    getMaxThreadIndex s' = getMaxThreadIndex s := by
  simp only [getMaxThreadIndex, h]

/-- A step that changes none of the places and index variables keeps the invariant. -/
theorem DllIndexInv.of_frame (hi : DllIndexInv s) (hp : s'.pc = s.pc) (hc : s'.cpc = s.cpc)
    (hm : s'.maxIndex = s.maxIndex) (hl : s'.leftMax = s.leftMax) : DllIndexInv s' :=
  ⟨hp ▸ hi.pc_inRange, hc ▸ hi.cpc_inRange, hp ▸ hl ▸ hi.left_le,
    by rw [hl, getMaxThreadIndex_congr hm]; exact hi.leftMax_le⟩

/-- Writing a slot keeps the index invariant. -/
theorem DllIndexInv.setSlot (hi : DllIndexInv s) (i : Nat) (e : DllSlot) :
    DllIndexInv (s.setSlot i e) :=
  hi.of_frame rfl rfl rfl rfl

/-- Opening or closing a handle keeps the index invariant. -/
theorem DllIndexInv.setHandle (hi : DllIndexInv s) (h : Nat) (v : Option Nat) :
    DllIndexInv (s.setHandle h v) :=
  hi.of_frame rfl rfl rfl rfl

/-- Moving thread `t` to a place in range that leaves the loop only with a covered
slot keeps the invariant. -/
theorem DllIndexInv.setPc (hi : DllIndexInv s) {t : Nat} {p : DllPc} (hp : p.InRange)
    (hl : ∀ i, p.leftLoop = some i → i ≤ s.leftMax) : DllIndexInv (s.setPc t p) := by
  refine ⟨fun u => ?_, hi.cpc_inRange, fun u i => ?_, hi.leftMax_le⟩ <;> by_cases hu : u = t
  · simpa [hu] using hp
  · simpa [hu] using hi.pc_inRange u
  · simpa [hu] using hl i
  · simpa [hu] using hi.left_le u i

/-- The stop loop's next step addresses a slot below `MAX_THREADS`, or leaves the loop. -/
theorem nextStop_inRange {i my : Nat} (h : my < maxThreads) : (nextStop i my).InRange := by
  unfold nextStop; split <;> simp_all [CollectorPc.InRange]

/-- The start loop's next step addresses a slot below `MAX_THREADS`, or leaves the loop. -/
theorem nextStart_inRange {i my : Nat} (h : my < maxThreads) : (nextStart i my).InRange := by
  unfold nextStart; split <;> simp_all [CollectorPc.InRange]

/-- The collector touches no thread's place and neither index variable. -/
theorem dllCollectorStep_frame (h : dllCollectorStep s = some s') :
    s'.pc = s.pc ∧ s'.maxIndex = s.maxIndex ∧ s'.leftMax = s.leftMax := by
  unfold dllCollectorStep at h
  split at h <;> (try split at h) <;> simp only [Option.some.injEq, reduceCtorEq] at h <;>
    subst h <;> simp [deleteAccess_frame]

/-- The collector's loop stays in range. -/
theorem dllCollectorStep_inRange (hi : s.cpc.InRange) (h : dllCollectorStep s = some s') :
    s'.cpc.InRange := by
  unfold dllCollectorStep at h
  split at h <;> rename_i hc <;> rw [hc] at hi <;> (try split at h) <;>
    simp only [Option.some.injEq, reduceCtorEq] at h <;> subst h <;> (try split) <;>
    first
    | exact nextStop_inRange hi.2
    | exact nextStart_inRange hi.2
    | simp_all [CollectorPc.InRange, deleteAccess_frame, getMaxThreadIndex_lt]

/-- The exit of the update loop raises the ghost `leftMax` to a covered slot. -/
theorem DllIndexInv.raiseLeftMax (hi : DllIndexInv s) {i : Nat} (h : i ≤ getMaxThreadIndex s) :
    DllIndexInv { s with leftMax := Nat.max s.leftMax i } :=
  ⟨hi.pc_inRange, hi.cpc_inRange, fun t j hj => Nat.le_trans (hi.left_le t j hj) (Nat.le_max_left _ _),
    Nat.max_le.mpr ⟨hi.leftMax_le, h⟩⟩

/-- `InterlockedIncrement(&GC_max_thread_index)` keeps the invariant. -/
theorem DllIndexInv.increment (hi : DllIndexInv s) :
    DllIndexInv { s with maxIndex := s.maxIndex + 1 } := by
  refine ⟨hi.pc_inRange, hi.cpc_inRange, hi.left_le, Nat.le_trans hi.leftMax_le ?_⟩
  unfold getMaxThreadIndex maxThreads; dsimp only; split <;> split <;> omega

/-- The clamp store `GC_max_thread_index = MAX_THREADS - 1` keeps the invariant. -/
theorem DllIndexInv.clamp (hi : DllIndexInv s) :
    DllIndexInv { s with maxIndex := maxThreads - 1 } := by
  have h1 : getMaxThreadIndex { s with maxIndex := maxThreads - 1 } = maxThreads - 1 := by
    simp [getMaxThreadIndex, maxThreads]
  have h2 := getMaxThreadIndex_lt s
  exact ⟨hi.pc_inRange, hi.cpc_inRange, hi.left_le, h1 ▸ Nat.le_pred_of_lt
    (Nat.lt_of_le_of_lt hi.leftMax_le h2)⟩

/-- A thread's next access in `GC_DllMain` keeps the invariant. -/
theorem dllThreadStep_inv (hi : DllIndexInv s) {t : Nat} (h : dllThreadStep s t = some s') :
    DllIndexInv s' := by
  have hr := hi.pc_inRange t
  have hl := hi.left_le t
  unfold dllThreadStep at h
  split at h <;> rename_i hpc <;> (try rw [hpc] at hr hl) <;> (try simp only [DllPc.InRange] at hr)
  · cases h; exact hi.setPc (by simp [DllPc.InRange, maxThreads]) (by simp [DllPc.leftLoop])
  · rename_i i
    have hs := hi.setSlot i { s.slots i with inUse := true }
    split_ifs at h <;> cases h
    · exact hs.setPc hr (by simp [DllPc.leftLoop])
    · exact hs.of_frame rfl rfl rfl rfl
    · exact hs.setPc (by simp only [DllPc.InRange, maxThreads] at *; omega)
        (by simp [DllPc.leftLoop])
  · rename_i i
    split_ifs at h with hm <;> cases h
    · exact hi.setPc hr (by simp [DllPc.leftLoop])
    · refine (hi.raiseLeftMax ?_).setPc hr (by simp [DllPc.leftLoop, Nat.le_max_right])
      unfold getMaxThreadIndex; simp only [maxThreads] at hr ⊢; split <;> omega
  · cases h; exact hi.increment.setPc hr (by simp [DllPc.leftLoop])
  · cases h; split <;> exact hi.setPc hr (by simpa [DllPc.leftLoop] using hl)
  · cases h; exact hi.clamp.setPc hr (by simpa [DllPc.leftLoop] using hl)
  · cases h; exact (hi.setSlot _ _).setPc hr (by simpa [DllPc.leftLoop] using hl)
  · cases h; exact (hi.setSlot _ _).setPc hr (by simpa [DllPc.leftLoop] using hl)
  · cases h; split <;> exact hi.setPc hr (by simpa [DllPc.leftLoop] using hl)
  · cases h
    have hs : DllIndexInv { s with attached := true } := hi.of_frame rfl rfl rfl rfl
    exact hs.setPc hr (by simpa [DllPc.leftLoop] using hl)
  · split at h <;> cases h
    · exact hi.setPc (dllLookupThread_lt ‹_›) (by simp [DllPc.leftLoop])
    · exact hi.setPc trivial (by simp [DllPc.leftLoop])
  · rename_i j d
    obtain ⟨h1, h2, h3, h4⟩ := deleteAccess_frame s j d
    cases h; split <;> exact (hi.of_frame h1 h2 h3 h4).setPc (by simp_all [DllPc.InRange])
      (by simp [DllPc.leftLoop])
  · cases h

/-- Every event keeps the invariant. -/
theorem dllStep_inv (hi : DllIndexInv s) {e : DllEvent} (h : dllStep s e = some s') :
    DllIndexInv s' := by
  cases e with
  | thread t =>
    simp only [dllStep] at h; split_ifs at h
    exact dllThreadStep_inv hi h
  | duplicate t hv =>
    simp only [dllStep] at h; split at h <;> rename_i i hpc
    · split_ifs at h; cases h
      have hr := hi.pc_inRange t; have hl := hi.left_le t; rw [hpc] at hr hl
      exact ((hi.setHandle _ _).setSlot _ _).setPc hr (by simpa [DllPc.leftLoop] using hl)
    · cases h
  | block t =>
    simp only [dllStep] at h; split at h <;> rename_i i hpc
    · have hr := hi.pc_inRange t; have hl := hi.left_le t; rw [hpc] at hr hl
      split_ifs at h; split at h <;> cases h
      · exact (hi.setSlot _ _).setPc ⟨hr, dllLookupThread_lt ‹_›⟩ (by simpa [DllPc.leftLoop] using hl)
      · exact hi.of_frame rfl rfl rfl rfl
    · cases h
  | unblock t =>
    simp only [dllStep] at h; split at h
    next i j hpc =>
      have hr := hi.pc_inRange t; have hl := hi.left_le t; rw [hpc] at hr hl
      split_ifs at h; cases h
      exact (hi.setSlot _ _).setPc hr.1 (by simpa [DllPc.leftLoop] using hl)
    next => cases h
  | create c t hv =>
    simp only [dllStep] at h; split_ifs at h; cases h
    exact (hi.setHandle _ _).setPc trivial (by simp [DllPc.leftLoop])
  | collector =>
    simp only [dllStep] at h; split_ifs at h
    obtain ⟨h1, h2, h3⟩ := dllCollectorStep_frame h
    exact ⟨h1 ▸ hi.pc_inRange, dllCollectorStep_inRange hi.cpc_inRange h, h1 ▸ h3 ▸ hi.left_le,
      by rw [h3, getMaxThreadIndex_congr h2]; exact hi.leftMax_le⟩
  | consume =>
    simp only [dllStep] at h; split_ifs at h; cases h
    exact hi.of_frame rfl rfl rfl rfl

/-- Every reachable state keeps the index invariant. -/
theorem DllReachable.inv {s : DllState} (hr : DllReachable s) : DllIndexInv s := by
  induction hr with
  | init => exact dllIndexInv_init
  | step _ _ h ih => exact dllStep_inv ih h

/-- No thread step lowers the largest index that left the update loop. -/
theorem dllThreadStep_leftMax_le {t : Nat} (h : dllThreadStep s t = some s') :
    s.leftMax ≤ s'.leftMax := by
  unfold dllThreadStep at h
  split at h <;> (try split_ifs at h) <;> (try split at h) <;> cases h <;>
    simp [deleteAccess_frame, Nat.le_max_left]

/-- The ghost `leftMax` never decreases. -/
theorem dllStep_leftMax_le {e : DllEvent} (h : dllStep s e = some s') : s.leftMax ≤ s'.leftMax := by
  cases e with
  | thread t => simp only [dllStep] at h; split_ifs at h; exact dllThreadStep_leftMax_le h
  | collector =>
    simp only [dllStep] at h; split_ifs at h
    exact Nat.le_of_eq (dllCollectorStep_frame h).2.2.symm
  | _ =>
    simp only [dllStep] at h
    (try split at h) <;> (try split_ifs at h) <;> (try split at h) <;> cases h <;>
      exact Nat.le_refl _

end Step

section Runs

/-- A run from a reachable state ends in a reachable state. -/
theorem dllRun_reachable {s s' : DllState} (hs : DllReachable s) :
    ∀ (es : List DllEvent), dllRun s es = some s' → DllReachable s'
  | [], h => by cases h; exact hs
  | e :: es, h => by
    obtain ⟨s₁, h₁, h₂⟩ := Option.bind_eq_some.mp h
    exact dllRun_reachable (.step e hs h₁) es h₂

/-- A run is a sequence of steps. -/
theorem dllRun_steps {s s' : DllState} : ∀ (es : List DllEvent), dllRun s es = some s' →
    DllSteps s s'
  | [], h => by cases h; exact .refl
  | e :: es, h => by
    obtain ⟨s₁, h₁, h₂⟩ := Option.bind_eq_some.mp h
    exact .head ⟨e, h₁⟩ (dllRun_steps es h₂)

/-- Along any events the state stays reachable and the ghost `leftMax` grows. -/
theorem DllSteps.reachable_leftMax {s s' : DllState} (hs : DllSteps s s') (hr : DllReachable s) :
    DllReachable s' ∧ s.leftMax ≤ s'.leftMax := by
  induction hs with
  | refl => exact ⟨hr, Nat.le_refl _⟩
  | tail _ h ih =>
    obtain ⟨e, he⟩ := h
    exact ⟨.step e ih.1 he, Nat.le_trans ih.2 (dllStep_leftMax_le he)⟩

end Runs

/-- Every slot index a thread or the collector holds is below `MAX_THREADS`; since
each access of `dll_thread_table` is to the slot its place names, or to a slot of a
lookup up to `GC_get_max_thread_index()`, no access is out of bounds. -/
theorem dllThreadTable_index_lt {s : DllState} (hr : DllReachable s) :
    (∀ t, (s.pc t).InRange) ∧ s.cpc.InRange :=
  ⟨hr.inv.pc_inRange, hr.inv.cpc_inRange⟩

/-- In the middle of `closedHandleRun`'s `GC_stop_world`. -/
theorem dllThreadTable_index_lt_closedHandle :
    ∃ s, dllRun DllState.init closedHandleRun = some s ∧
      (∀ t, (s.pc t).InRange) ∧ s.cpc.InRange :=
  ⟨_, rfl, dllThreadTable_index_lt (dllRun_reachable .init closedHandleRun rfl)⟩

/-- Once a registration has left its update loop with slot `i`,
`GC_get_max_thread_index()` is at least `i` in every later state. -/
theorem getMaxThreadIndex_covers_slot {s s' : DllState} (hr : DllReachable s) {t i : Nat}
    (hl : (s.pc t).leftLoop = some i) (hs : DllSteps s s') : i ≤ getMaxThreadIndex s' := by
  obtain ⟨hr', hle⟩ := hs.reachable_leftMax hr
  calc i ≤ s.leftMax := hr.inv.left_le t i hl
    _ ≤ s'.leftMax := hle
    _ ≤ getMaxThreadIndex s' := hr'.inv.leftMax_le

/-- Thread `1` has left the loop with slot `1` when the collector starts; slot `1` is
in the range of every later state of the run. -/
theorem getMaxThreadIndex_covers_slot_closedHandle :
    ∃ s s', dllRun DllState.init (mainRegisters ++ [.create 0 1 20] ++ threadSteps 1 7) = some s ∧
      dllRun s ([.duplicate 1 11] ++ threadSteps 1 3 ++ collectorSteps 10 ++ threadSteps 1 2) =
        some s' ∧ (s.pc 1).leftLoop = some 1 ∧ 1 ≤ getMaxThreadIndex s' :=
  ⟨_, _, rfl, rfl, rfl, @getMaxThreadIndex_covers_slot _ _
    (dllRun_reachable .init (mainRegisters ++ [DllEvent.create 0 1 20] ++ threadSteps 1 7) rfl) 1 1 rfl
    (dllRun_steps ([DllEvent.duplicate 1 11] ++ threadSteps 1 3 ++ collectorSteps 10 ++
      threadSteps 1 2) rfl)⟩

end Win32GcThreads
