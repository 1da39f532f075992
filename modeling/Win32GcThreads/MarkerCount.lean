import Win32GcThreads.ThreadHashTable
import Win32GcThreads.MarkerStart
import Mathlib.Data.BitVec

/-!
# The number of markers

`GC_thr_init` takes the marker count from `GC_MARKERS` when it is set, clamping an invalid or
too large value to `MAX_MARKERS`; otherwise from `GC_set_markers_count`, which already clamps;
otherwise from the number of processors in the process affinity mask, counted by clearing the
lowest set bit until none is left, and clamped to `MAX_MARKERS`. Whatever the inputs,
`available_markers_m1` lies in `[-1, MAX_MARKERS - 1]`, and the start-up that follows never
uses a marker index past the `MAX_MARKERS - 1` entries of `marker_sp`,
`marker_last_stack_min`, `GC_marker_cv` and `GC_marker_Id`.

`MSWINCE` (the processor count of `GC_sysinfo`) and `GC_MIN_MARKERS` are not modelled.
-/

namespace Win32GcThreads

/-- `MAX_MARKERS`. -/
def maxMarkers : Nat := 16

/-- `GC_set_markers_count(markers)`: the new `required_markers_cnt`. -/
def gcSetMarkersCount (markers : Nat) : Nat := if markers < maxMarkers then markers else maxMarkers

/-- `required_markers_cnt` after the calls of `GC_set_markers_count` made so far. -/
def requiredMarkersCnt (calls : List Nat) : Nat :=
  calls.foldl (fun _ markers => gcSetMarkersCount markers) 0

/-- `do { ncpu++; } while ((procMask &= procMask - 1) != 0);` on a `w`-bit `DWORD_PTR`,
with at most `fuel` passes. -/
def countProcMask {w : Nat} : Nat → BitVec w → Nat → Except Fault Nat
  | 0, _, _ => .error .diverged
  | fuel + 1, procMask, ncpu =>
    let procMask := procMask &&& (procMask - 1)
    if procMask ≠ 0 then countProcMask fuel procMask (ncpu + 1) else .ok (ncpu + 1)

/-- `ncpu` of `GC_thr_init`: the processors in the mask of a successful
`GetProcessAffinityMask`, `none` when it fails; an empty mask is not counted. -/
def affinityNcpu {w : Nat} (affinity : Option (BitVec w)) : Except Fault Nat :=
  match affinity with
  | some procMask => if procMask ≠ 0 then countProcMask w procMask 0 else pure 0
  | none => pure 0

/-- The marker count of `GC_thr_init` on `w`-bit words: `env` is `atoi(GETENV("GC_MARKERS"))`
when the variable is set, `required` is `required_markers_cnt`, and `affinity` as for
`affinityNcpu`. The loop gets one pass per bit of the mask. -/
def gcThrInitMarkersCount {w : Nat} (env : Option Int) (required : Nat)
    (affinity : Option (BitVec w)) : Except Fault Int := do
  match env with
  | some markers => return if markers ≤ 0 ∨ markers > maxMarkers then maxMarkers else markers
  | none =>
    if required = 0 then
      let markers : Int := ← affinityNcpu affinity
      return if markers > maxMarkers then maxMarkers else markers
    else return required

/-- `popcount`: the set bits among the low `w` bits of `m`. -/
def bitCount : Nat → Nat → Nat
  | 0, _ => 0
  | w + 1, m => m % 2 + bitCount w (m / 2)

section BitCount

@[simp] theorem bitCount_zero (w : Nat) : bitCount w 0 = 0 := by
  induction w with
  | zero => rfl
  | succ w ih => simp [bitCount, ih]

theorem bitCount_le (w m : Nat) : bitCount w m ≤ w := by
  induction w generalizing m with
  | zero => exact Nat.le_refl 0
  | succ w ih => have := ih (m / 2); simp only [bitCount]; omega

/-- One of `m` and `m - 1` is even. -/
private theorem and_sub_one_mod_two (m : Nat) : (m &&& (m - 1)) % 2 = 0 := by
  rw [Nat.mod_two_eq_zero_iff_testBit_zero, Nat.testBit_and, Nat.testBit_zero, Nat.testBit_zero]
  rcases (by omega : m % 2 = 0 ∨ (m - 1) % 2 = 0) with h | h <;> simp [h]

/-- Clearing the lowest set bit of a nonzero `w`-bit value removes one set bit. -/
theorem bitCount_and_sub_one {w m : Nat} (hm : 0 < m) (hw : m < 2 ^ w) :
    bitCount w (m &&& (m - 1)) + 1 = bitCount w m := by
  induction w generalizing m with
  | zero => simp at hw; omega
  | succ w ih =>
    rw [bitCount, bitCount, and_sub_one_mod_two, Nat.and_div_two]
    rw [Nat.pow_succ] at hw
    rcases Nat.mod_two_eq_zero_or_one m with h | h
    · -- even: the lowest set bit is one of `m / 2`
      have hsub : (m - 1) / 2 = m / 2 - 1 := by omega
      have := ih (m := m / 2) (by omega) (by omega)
      rw [hsub]
      omega
    · -- odd: `m - 1` clears bit 0 and keeps the others
      have hsub : (m - 1) / 2 = m / 2 := by omega
      rw [hsub, Nat.and_self]
      omega

/-- `procMask & (procMask - 1)` of a nonzero mask does not wrap. -/
theorem toNat_and_sub_one {w : Nat} {x : BitVec w} (hx : x ≠ 0) :
    (x &&& (x - 1)).toNat = x.toNat &&& (x.toNat - 1) := by
  have hpos : 0 < x.toNat := Nat.pos_of_ne_zero fun h => hx (BitVec.eq_of_toNat_eq (by simp [h]))
  have hone : (1 : BitVec w).toNat = 1 := by
    have := x.isLt
    simp only [BitVec.ofNat_eq_ofNat, BitVec.toNat_ofNat]
    exact Nat.mod_eq_of_lt (by omega)
  rw [BitVec.toNat_and, BitVec.toNat_sub_of_le (by rw [BitVec.le_def, hone]; omega), hone]

/-- One pass of the loop clears one set bit of a nonzero mask. -/
theorem bitCount_clear {w : Nat} {procMask : BitVec w} (hm : procMask ≠ 0) :
    bitCount w (procMask &&& (procMask - 1)).toNat + 1 = bitCount w procMask.toNat := by
  rw [toNat_and_sub_one hm]
  exact bitCount_and_sub_one
    (Nat.pos_of_ne_zero fun h => hm (BitVec.eq_of_toNat_eq (by simp [h]))) procMask.isLt

/-- The loop counts the set bits of a nonzero mask, given one pass per set bit. -/
theorem countProcMask_eq {w : Nat} {fuel : Nat} {procMask : BitVec w} (hm : procMask ≠ 0)
    (hfuel : bitCount w procMask.toNat ≤ fuel) (ncpu : Nat) :
    countProcMask fuel procMask ncpu = .ok (ncpu + bitCount w procMask.toNat) := by
  induction fuel generalizing procMask ncpu with
  | zero => have := bitCount_clear hm; omega
  | succ fuel ih =>
    have hclear := bitCount_clear hm
    simp only [countProcMask]
    by_cases h : procMask &&& (procMask - 1) = 0
    · rw [h] at hclear
      simp only [BitVec.ofNat_eq_ofNat, BitVec.toNat_ofNat, Nat.zero_mod, bitCount_zero] at hclear
      rw [if_neg (not_not_intro h), ← hclear]
    · rw [if_pos h, ih h (by omega)]
      congr 1
      omega

end BitCount

section Count

theorem requiredMarkersCnt_le (calls : List Nat) : requiredMarkersCnt calls ≤ maxMarkers := by
  suffices ∀ a ≤ maxMarkers, calls.foldl (fun _ markers => gcSetMarkersCount markers) a ≤ maxMarkers
    from this 0 (Nat.zero_le _)
  induction calls with
  | nil => exact fun _ h => h
  | cons m calls ih =>
    refine fun _ _ => ih _ ?_
    simp only [gcSetMarkersCount]
    split <;> omega

/-- With neither `GC_MARKERS` nor `GC_set_markers_count`, the count is the number of
processors in the affinity mask, at most `MAX_MARKERS`; a failed `GetProcessAffinityMask`
counts as an empty mask. -/
theorem gcThrInitMarkersCount_auto {w : Nat} (affinity : Option (BitVec w)) :
    gcThrInitMarkersCount none 0 affinity =
      .ok (Nat.min (bitCount w (affinity.getD 0).toNat) maxMarkers) := by
  have hncpu : affinityNcpu affinity = .ok (bitCount w (affinity.getD 0).toNat) := by
    rcases affinity with _ | procMask
    · simp [affinityNcpu, pure, Except.pure]
    · by_cases h : procMask = 0
      · simp [affinityNcpu, h, pure, Except.pure]
      · simp only [affinityNcpu, if_pos h, Option.getD_some]
        simpa using countProcMask_eq h (bitCount_le w _) 0
  simp only [gcThrInitMarkersCount, if_true, hncpu, except_ok_bind, pure, Except.pure,
    Except.ok.injEq, Nat.min_def]
  split_ifs <;> omega

/-- Every count `GC_thr_init` computes lies in `[0, MAX_MARKERS]`. -/
theorem gcThrInitMarkersCount_range {w : Nat} (env : Option Int) (calls : List Nat)
    (affinity : Option (BitVec w)) :
    ∃ markers, gcThrInitMarkersCount env (requiredMarkersCnt calls) affinity = .ok markers ∧
      0 ≤ markers ∧ markers ≤ maxMarkers := by
  have hreq := requiredMarkersCnt_le calls
  rcases env with _ | markers
  · by_cases h : requiredMarkersCnt calls = 0
    · rw [h, gcThrInitMarkersCount_auto]
      exact ⟨_, rfl, by omega, by simp only [Nat.min_def]; split <;> omega⟩
    · exact ⟨requiredMarkersCnt calls, by simp [gcThrInitMarkersCount, h, pure, Except.pure],
        by omega, by omega⟩
  · refine ⟨_, rfl, ?_, ?_⟩ <;> split_ifs <;> simp only [maxMarkers] at * <;> omega

end Count

/-- The index into `GC_marker_cv` of a start-up call, or for `_beginthreadex` the `id` that
`GC_mark_thread` uses on `marker_sp` and `marker_last_stack_min`. -/
def StartCall.markerIndex : StartCall → Option Nat
  | .createEvent (.markerCv i) => some i
  | .beginThread i _ => some i
  | .closeHandle (.markerCv i) => some i
  | _ => none

/-- The marker counts in range: `available_markers_m1` in `[-1, MAX_MARKERS - 1]`,
`GC_markers_m1` at most `MAX_MARKERS - 1`, and every marker index used so far below
`MAX_MARKERS - 1`. -/
structure MarkersInRange (s : MarkStartState) : Prop where
  availableM1_ge : -1 ≤ s.availableM1
  availableM1_le : s.availableM1 ≤ maxMarkers - 1
  markersM1_le : s.markersM1 ≤ maxMarkers - 1
  index_lt : ∀ c ∈ s.calls, ∀ i, c.markerIndex = some i → i < maxMarkers - 1

section Run

variable {s : MarkStartState}

theorem markersInRange_init : MarkersInRange .init :=
  ⟨by decide, by decide, by decide, fun _ h => by cases h⟩

/-- `GC_start_mark_threads_inner` uses marker indices below the count it was given. -/
theorem startCalls_index_lt (m started : Nat) :
    ∀ c ∈ startCalls m started, ∀ i, c.markerIndex = some i → i < m := by
  have hmin : Nat.min started m ≤ m := by simp only [Nat.min_def]; split <;> omega
  intro c hc i hi
  simp only [startCalls, List.mem_append, List.mem_map, List.mem_range, List.mem_ite_nil_right,
    List.mem_cons, List.mem_singleton, List.not_mem_nil, or_false] at hc
  -- the `CreateEvent` loop, the started markers, the failed `_beginthreadex`, the
  -- `CloseHandle` loop, and the three lock events, which use no marker index
  rcases hc with (((⟨j, hj, rfl⟩ | ⟨j, hj, rfl⟩) | ⟨hlt, rfl⟩) | ⟨j, hj, rfl⟩) | ⟨-, rfl | rfl | rfl⟩ <;>
    simp only [StartCall.markerIndex, Option.some.injEq, reduceCtorEq] at hi <;> omega

theorem MarkersInRange.appendCalls (hs : MarkersInRange s) {cs : List StartCall}
    (hcs : ∀ c ∈ cs, ∀ i, c.markerIndex = some i → i < maxMarkers - 1) :
    ∀ c ∈ s.calls ++ cs, ∀ i, c.markerIndex = some i → i < maxMarkers - 1 := by
  intro c hc
  rcases List.mem_append.mp hc with hc | hc
  exacts [hs.index_lt c hc, hcs c hc]

theorem MarkersInRange.gcStartMarkThreadsInner (hs : MarkersInRange s) (started : Nat) :
    MarkersInRange (gcStartMarkThreadsInner s started) := by
  unfold Win32GcThreads.gcStartMarkThreadsInner
  split_ifs with h
  · exact hs
  · have hm : s.availableM1.toNat ≤ maxMarkers - 1 := by have := hs.availableM1_le; omega
    refine ⟨hs.availableM1_ge, hs.availableM1_le, ?_, hs.appendCalls fun c hc i hi => ?_⟩
    · simp only [Nat.min_def]; split <;> omega
    · exact Nat.lt_of_lt_of_le (startCalls_index_lt _ _ c hc i hi) hm

/-- One event keeps the counts in range, a `GC_thr_init` given a count in `[0, MAX_MARKERS]`. -/
theorem MarkersInRange.step (hs : MarkersInRange s) {e : MarkStartEvent}
    (he : ∀ markers dll, e = .thrInit markers dll → 0 ≤ markers ∧ markers ≤ maxMarkers) :
    MarkersInRange (markStartStep s e) := by
  cases e with
  | thrInit markers dll =>
    obtain ⟨h₀, h₁⟩ := he markers dll rfl
    simp only [markStartStep, gcThrInitMarkers]
    have hge : -1 ≤ markers - 1 := by omega
    have hle : markers - 1 ≤ maxMarkers - 1 := by omega
    split_ifs
    · exact ⟨hge, hle, Nat.zero_le _, hs.index_lt⟩
    · refine ⟨hge, hle, hs.markersM1_le, hs.appendCalls ?_⟩
      simp [StartCall.markerIndex]
  | createThread started =>
    simp only [markStartStep, startMarkThreads]
    split_ifs
    exacts [hs, hs.gcStartMarkThreadsInner started]
  | allowRegister started => exact hs.gcStartMarkThreadsInner started
  | forkChild =>
    simp only [markStartStep]
    split_ifs
    exacts [⟨hs.availableM1_ge, hs.availableM1_le, Nat.zero_le _, hs.index_lt⟩, hs]
  | other => exact hs

theorem MarkersInRange.run (hs : MarkersInRange s) {es : List MarkStartEvent}
    (hes : ∀ e ∈ es, ∀ markers dll, e = .thrInit markers dll → 0 ≤ markers ∧ markers ≤ maxMarkers) :
    MarkersInRange (markStartRun s es) := by
  induction es generalizing s with
  | nil => exact hs
  | cons e es ih =>
    exact ih (hs.step (hes e (List.mem_cons_self _ _)))
      fun e' he' => hes e' (List.mem_cons_of_mem _ he')

end Run

/-- For every `GC_MARKERS` value, every sequence of `GC_set_markers_count` calls and every
affinity mask of any word width, `GC_thr_init` computes a marker count, and
`available_markers_m1` lies in `[-1, MAX_MARKERS - 1]`; with neither of the first two set, the
count is `min(popcount(procMask), MAX_MARKERS)`. Every marker start-up run from that
`GC_thr_init` keeps `GC_markers_m1` at most `MAX_MARKERS - 1` and uses marker indices below
`MAX_MARKERS - 1` only. -/
theorem gcThrInit_markers_in_range {w : Nat} (env : Option Int) (setCalls : List Nat)
    (affinity : Option (BitVec w)) :
    ∃ markers, gcThrInitMarkersCount env (requiredMarkersCnt setCalls) affinity = .ok markers ∧
      -1 ≤ markers - 1 ∧ markers - 1 ≤ maxMarkers - 1 ∧
      (env = none → requiredMarkersCnt setCalls = 0 →
        markers = Nat.min (bitCount w (affinity.getD 0).toNat) maxMarkers) ∧
      ∀ es, (∀ e ∈ es, ∀ m dll, e = .thrInit m dll → m = markers) →
        MarkersInRange (markStartRun .init es) := by
  obtain ⟨markers, hc, h₀, h₁⟩ := gcThrInitMarkersCount_range env setCalls affinity
  refine ⟨markers, hc, by omega, by omega, fun he hr => ?_, fun es hes => ?_⟩
  · subst he
    rw [hr, gcThrInitMarkersCount_auto] at hc
    exact (Except.ok.inj hc).symm
  · exact markersInRange_init.run fun e he m dll hm => hes e he m dll hm ▸ ⟨h₀, h₁⟩

/-- With neither `GC_MARKERS` nor `GC_set_markers_count`, an 8-bit affinity mask `0b1011`
gives three markers, and a start-up run from that `GC_thr_init` stays in range. -/
theorem gcThrInit_markers_threeProcessors :
    gcThrInitMarkersCount none (requiredMarkersCnt []) (some (0b1011 : BitVec 8)) = .ok 3 ∧
    MarkersInRange (markStartRun .init [.thrInit 3 false, .createThread 2]) := by
  obtain ⟨m, hm, -, -, hauto, hrun⟩ :=
    gcThrInit_markers_in_range none [] (some (0b1011 : BitVec 8))
  obtain rfl : m = 3 := by rw [hauto rfl rfl]; decide
  exact ⟨hm, hrun _ fun e he m dll hed => by simp_all⟩

end Win32GcThreads
