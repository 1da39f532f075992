import Mathlib.Data.List.Basic

/-!
# Starting the marker threads

`GC_thr_init` sets `available_markers_m1` and creates the three events of the Win32 mark lock
(`mark_mutex_event`, `builder_cv`, `mark_cv`). `GC_start_mark_threads_inner` (the Win32-event
version) then creates one manual-reset event per marker and starts the markers with
`_beginthreadex`, stopping at the first failure. It closes the events of the markers it could
not start, and all three lock events when it started none. `GC_parallel` is taken as
`GC_markers_m1 != 0`, as the comments of `fork_child_proc` and of the pthread version read it.

`START_MARK_THREADS()` in the thread-creation routines calls `GC_start_mark_threads()` whenever
`GC_parallel` is off and `available_markers_m1 > 0`. That routine is not in this file; it takes
the allocation lock around `GC_start_mark_threads_inner`. Nothing resets `available_markers_m1`,
so after a start that created no marker, the next thread creation runs the start again. It then
either creates a marker thread, which uses the closed lock events, or passes the three closed
handles to `CloseHandle` once more.
-/

namespace Win32GcThreads

/-- The handles of Win32-event parallel marking. -/
inductive MarkHandle where
  | markMutexEvent
  | builderCv
  | markCv
  /-- `GC_marker_cv[i]`. -/
  | markerCv (i : Nat)
  deriving DecidableEq, Repr

/-- A Win32 call of the marker start-up. -/
inductive StartCall where
  /-- `CreateEvent`, returning the handle stored in `h`. -/
  | createEvent (h : MarkHandle)
  /-- `_beginthreadex(..., GC_mark_thread, (void *)i, ...)`, and whether it succeeded. -/
  | beginThread (i : Nat) (ok : Bool)
  /-- `CloseHandle(h)`. -/
  | closeHandle (h : MarkHandle)
  deriving DecidableEq, Repr

/-- The state of the marker start-up, with the Win32 calls made so far, oldest first. -/
structure MarkStartState where
  /-- `available_markers_m1`. -/
  availableM1 : Int
  /-- `GC_markers_m1`. -/
  markersM1 : Nat
  /-- The Win32 calls made so far. -/
  calls : List StartCall
  deriving DecidableEq, Repr

namespace MarkStartState

/-- The statics before `GC_thr_init`. -/
def init : MarkStartState := ⟨0, 0, []⟩

/-- `GC_parallel`. -/
def parallel (s : MarkStartState) : Bool := s.markersM1 != 0

end MarkStartState

/-- The marker part of `GC_thr_init`: `available_markers_m1 = markers - 1`, then parallel
marking off in DLL mode or with no helper, and the three lock events created otherwise. -/
def gcThrInitMarkers (s : MarkStartState) (markers : Int) (dll : Bool) : MarkStartState :=
  let s := { s with availableM1 := markers - 1 }
  if dll || s.availableM1 ≤ 0 then { s with markersM1 := 0 }
  else
    { s with
      calls := s.calls ++ [.createEvent .markMutexEvent, .createEvent .builderCv, .createEvent .markCv] }

/-- The calls of `GC_start_mark_threads_inner` past its guard, with `m` markers wanted and
the first `started` calls of `_beginthreadex` succeeding: the `CreateEvent` loop; the
`_beginthreadex` loop up to its first failure; the `CloseHandle` loop from
`GC_marker_cv[m - 1]` down to the first marker not started; and the three lock events when
none started. -/
def startCalls (m started : Nat) : List StartCall :=
  let i := Nat.min started m
  (List.range m).map (fun j => .createEvent (.markerCv j)) ++
    (List.range i).map (fun j => .beginThread j true) ++
    (if i < m then [.beginThread i false] else []) ++
    (List.range (m - i)).map (fun j => .closeHandle (.markerCv (m - 1 - j))) ++
    (if i = 0 then [.closeHandle .markCv, .closeHandle .builderCv, .closeHandle .markMutexEvent]
      else [])

/-- `GC_start_mark_threads_inner`, the Win32-event version, with the first `started` calls of
`_beginthreadex` succeeding. `GC_wait_for_gc_completion` and `GC_wait_for_markers_init` are
outside this file. -/
def gcStartMarkThreadsInner (s : MarkStartState) (started : Nat) : MarkStartState :=
  if s.availableM1 ≤ 0 || s.parallel then s
  else
    { s with
      markersM1 := Nat.min started s.availableM1.toNat
      calls := s.calls ++ startCalls s.availableM1.toNat started }

/-- `START_MARK_THREADS()`: `GC_start_mark_threads()` unless `GC_parallel` is on or no helper
is available. -/
def startMarkThreads (s : MarkStartState) (started : Nat) : MarkStartState :=
  if s.parallel || s.availableM1 ≤ 0 then s else gcStartMarkThreadsInner s started

/-- What the process does to the marker start-up state. -/
inductive MarkStartEvent where
  /-- `GC_thr_init`, with `markers` markers wanted, in DLL mode or not. -/
  | thrInit (markers : Int) (dll : Bool)
  /-- `GC_CreateThread`, `GC_beginthreadex` or `GC_pthread_create` in explicit mode:
  `START_MARK_THREADS()`, with `started` successful `_beginthreadex` calls. -/
  | createThread (started : Nat)
  /-- `GC_allow_register_threads`: `GC_start_mark_threads()`. -/
  | allowRegister (started : Nat)
  /-- `fork_child_proc`: `GC_parallel = FALSE`. -/
  | forkChild
  /-- A collection, `fork_prepare_proc` or `fork_parent_proc`: neither count changes. -/
  | other

/-- One event. -/
def markStartStep (s : MarkStartState) : MarkStartEvent → MarkStartState
  | .thrInit markers dll => gcThrInitMarkers s markers dll
  | .createThread started => startMarkThreads s started
  | .allowRegister started => gcStartMarkThreadsInner s started
  | .forkChild => if s.parallel then { s with markersM1 := 0 } else s
  | .other => s

/-- Run events in order. -/
def markStartRun (s : MarkStartState) (es : List MarkStartEvent) : MarkStartState :=
  es.foldl markStartStep s

/-- Every step only appends to the log of Win32 calls. -/
theorem markStartStep_calls (s : MarkStartState) (e : MarkStartEvent) :
    ∃ rest, (markStartStep s e).calls = s.calls ++ rest := by
  have hi : ∀ started, ∃ rest, (gcStartMarkThreadsInner s started).calls = s.calls ++ rest :=
    fun started => by
      unfold gcStartMarkThreadsInner
      split_ifs
      exacts [⟨[], by simp⟩, ⟨_, rfl⟩]
  cases e with
  | thrInit markers dll =>
    simp only [markStartStep, gcThrInitMarkers]
    split_ifs
    exacts [⟨[], by simp⟩, ⟨_, rfl⟩]
  | createThread started =>
    simp only [markStartStep, startMarkThreads]
    split_ifs
    exacts [⟨[], by simp⟩, hi started]
  | allowRegister started => exact hi started
  | forkChild =>
    simp only [markStartStep]
    split_ifs
    exacts [⟨[], by simp⟩, ⟨[], by simp⟩]
  | other => exact ⟨[], by simp [markStartStep]⟩

theorem markStartRun_calls (s : MarkStartState) (es : List MarkStartEvent) :
    ∃ rest, (markStartRun s es).calls = s.calls ++ rest := by
  induction es generalizing s with
  | nil => exact ⟨[], by simp [markStartRun]⟩
  | cons e es ih =>
    obtain ⟨r₁, h₁⟩ := markStartStep_calls s e
    obtain ⟨r₂, h₂⟩ := ih (markStartStep s e)
    refine ⟨r₁ ++ r₂, ?_⟩
    simp only [markStartRun, List.foldl_cons] at h₂ ⊢
    rw [h₂, h₁, List.append_assoc]

/-- After a start that left `GC_markers_m1 == 0`, with a helper still available,
`GC_start_mark_threads_inner` runs again: it creates marker 0 when `_beginthreadex`
succeeds, and closes the three lock events once more when it fails. -/
theorem gcStartMarkThreadsInner_after_failure {s : MarkStartState} (hm : s.markersM1 = 0)
    (ha : 0 < s.availableM1) (started : Nat) :
    (gcStartMarkThreadsInner s started).calls = s.calls ++ startCalls s.availableM1.toNat started ∧
      (0 < started → StartCall.beginThread 0 true ∈ startCalls s.availableM1.toNat started ∧
        0 < (gcStartMarkThreadsInner s started).markersM1) ∧
      (started = 0 → StartCall.closeHandle .markCv ∈ startCalls s.availableM1.toNat started ∧
        StartCall.closeHandle .builderCv ∈ startCalls s.availableM1.toNat started ∧
        StartCall.closeHandle .markMutexEvent ∈ startCalls s.availableM1.toNat started) := by
  have hp : s.parallel = false := by simp [MarkStartState.parallel, hm]
  have hg : ¬ s.availableM1 ≤ 0 := by omega
  have he : gcStartMarkThreadsInner s started = { s with
      markersM1 := Nat.min started s.availableM1.toNat
      calls := s.calls ++ startCalls s.availableM1.toNat started } := by
    simp [gcStartMarkThreadsInner, hp, hg]
  have hmin : 0 < started → 0 < Nat.min started s.availableM1.toNat := fun h => by
    simp only [Nat.min_def]; split <;> omega
  refine ⟨by rw [he], fun h => ⟨?_, by rw [he]; exact hmin h⟩, fun h => ?_⟩
  · simp only [startCalls, List.mem_append, List.mem_map, List.mem_range]
    exact .inl (.inl (.inl (.inr ⟨0, hmin h, rfl⟩)))
  · subst h
    simp [startCalls]

/-- From the state a failed start leaves, every later run of thread creations, collections and
fork handlers that creates a thread either creates marker 0 again or passes the three closed
lock events to `CloseHandle` again. -/
theorem markStartRun_restarts {s : MarkStartState} (hm : s.markersM1 = 0) (ha : 0 < s.availableM1)
    {es : List MarkStartEvent} (hes : ∀ e ∈ es, ∀ m d, e ≠ .thrInit m d)
    (hc : ∃ started, .createThread started ∈ es) :
    ∃ rest, (markStartRun s es).calls = s.calls ++ rest ∧
      (StartCall.beginThread 0 true ∈ rest ∨
        (StartCall.closeHandle .markCv ∈ rest ∧ StartCall.closeHandle .builderCv ∈ rest ∧
          StartCall.closeHandle .markMutexEvent ∈ rest)) := by
  induction es with
  | nil => obtain ⟨_, h⟩ := hc; cases h
  | cons e es ih =>
    have hp : s.parallel = false := by simp [MarkStartState.parallel, hm]
    have hg : ¬ s.availableM1 ≤ 0 := by omega
    -- the first start in the run finds the state a failed start left
    have restart : ∀ started, ∃ rest, (markStartRun (gcStartMarkThreadsInner s started) es).calls =
        s.calls ++ rest ∧ (StartCall.beginThread 0 true ∈ rest ∨
          (StartCall.closeHandle .markCv ∈ rest ∧ StartCall.closeHandle .builderCv ∈ rest ∧
            StartCall.closeHandle .markMutexEvent ∈ rest)) := fun started => by
      obtain ⟨h₁, h₂, h₃⟩ := gcStartMarkThreadsInner_after_failure hm ha started
      obtain ⟨r, hr⟩ := markStartRun_calls (gcStartMarkThreadsInner s started) es
      refine ⟨startCalls s.availableM1.toNat started ++ r, by rw [hr, h₁, List.append_assoc], ?_⟩
      rcases Nat.eq_zero_or_pos started with h | h
      · obtain ⟨a, b, c⟩ := h₃ h
        exact .inr ⟨List.mem_append_left _ a, List.mem_append_left _ b, List.mem_append_left _ c⟩
      · exact .inl (List.mem_append_left _ (h₂ h).1)
    cases e with
    | thrInit m d => exact absurd rfl (hes _ (List.mem_cons_self _ _) m d)
    | createThread started =>
      simpa [markStartRun, markStartStep, startMarkThreads, hp, hg] using restart started
    | allowRegister started => simpa [markStartRun, markStartStep] using restart started
    | forkChild =>
      obtain ⟨started, h⟩ := hc
      simpa [markStartRun, markStartStep, hp] using
        ih (fun e he => hes e (List.mem_cons_of_mem _ he)) ⟨started, by simpa using h⟩
    | other =>
      obtain ⟨started, h⟩ := hc
      simpa [markStartRun, markStartStep] using
        ih (fun e he => hes e (List.mem_cons_of_mem _ he)) ⟨started, by simpa using h⟩

/-- `GC_thr_init` with two markers wanted, then two thread creations whose
`_beginthreadex` fails, or a second one whose `_beginthreadex` succeeds; and, whatever run of
thread creations, collections and fork handlers follows the first failure, each that creates a
thread starts marker 0 again or closes the three lock events again. -/
theorem markerStart_restarts_after_failure :
    (markStartRun .init [.thrInit 2 false, .createThread 0]).markersM1 = 0 ∧
    (markStartRun .init [.thrInit 2 false, .createThread 0]).calls =
      [.createEvent .markMutexEvent, .createEvent .builderCv, .createEvent .markCv,
        .createEvent (.markerCv 0), .beginThread 0 false, .closeHandle (.markerCv 0),
        .closeHandle .markCv, .closeHandle .builderCv, .closeHandle .markMutexEvent] ∧
    (markStartRun .init [.thrInit 2 false, .createThread 0, .createThread 0]).calls =
      (markStartRun .init [.thrInit 2 false, .createThread 0]).calls ++
        [.createEvent (.markerCv 0), .beginThread 0 false, .closeHandle (.markerCv 0),
          .closeHandle .markCv, .closeHandle .builderCv, .closeHandle .markMutexEvent] ∧
    (markStartRun .init [.thrInit 2 false, .createThread 0, .createThread 1]).calls =
      (markStartRun .init [.thrInit 2 false, .createThread 0]).calls ++
        [.createEvent (.markerCv 0), .beginThread 0 true] ∧
    (markStartRun .init [.thrInit 2 false, .createThread 0, .createThread 1]).markersM1 = 1 ∧
    ∀ es : List MarkStartEvent, (∀ e ∈ es, ∀ m d, e ≠ .thrInit m d) →
      (∃ started, .createThread started ∈ es) →
      ∃ rest, (markStartRun .init ([.thrInit 2 false, .createThread 0] ++ es)).calls =
          (markStartRun .init [.thrInit 2 false, .createThread 0]).calls ++ rest ∧
        (StartCall.beginThread 0 true ∈ rest ∨
          (StartCall.closeHandle .markCv ∈ rest ∧ StartCall.closeHandle .builderCv ∈ rest ∧
            StartCall.closeHandle .markMutexEvent ∈ rest)) := by
  refine ⟨by decide, by decide, by decide, by decide, by decide, fun es hes hc => ?_⟩
  rw [markStartRun, List.foldl_append]
  exact markStartRun_restarts (by decide) (by decide) hes hc

end Win32GcThreads
