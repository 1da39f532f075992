import Mathlib.Data.BitVec

/-!
# Nested finalizer invocations

`GC_check_finalizer_nested` lets a thread that already runs finalizers start a nested
`GC_invoke_finalizers` only on every `2 ^ k`-th call at nesting level `k`, counting the
skipped calls in the 16-bit `finalizer_skipped`. `GC_reset_finalizer_nested`, and the caller
once it is done with the byte it was returned, set the 8-bit `finalizer_nested` back to zero.

The 16-bit skip counter wraps before it reaches `1 << 16`, so a check at level 16 or more
never enters a new level. From a fresh record the level therefore stays at most 16: the
shift `1U << nesting_level` is by fewer than 32 bits, and the store
`(unsigned char)(nesting_level + 1)` never wraps.
-/

namespace Win32GcThreads

/-- The two finalizer fields of a thread's `GC_Thread_Rep`: `finalizer_nested`, an
`unsigned char`, and `finalizer_skipped`, an `unsigned short`. -/
structure FinalizerCounters where
  /-- `finalizer_nested`: the nesting level of `GC_invoke_finalizers`. -/
  nested : BitVec 8
  /-- `finalizer_skipped`: the nested invocations skipped at the current level. -/
  skipped : BitVec 16
  deriving DecidableEq, Repr

/-- A fresh record: `first_thread` is static, and the other records come cleared from
`GC_INTERNAL_MALLOC`. -/
def FinalizerCounters.zero : FinalizerCounters := ⟨0, 0⟩

/-- `GC_check_finalizer_nested()` on the caller's record: the updated counters, and `true`
when it returns `&me->finalizer_nested` rather than NULL. `1U << nesting_level` is the shift
of `Nat`, equal to the C value at every level below 32. -/
def gcCheckFinalizerNested (me : FinalizerCounters) : FinalizerCounters × Bool :=
  let nestingLevel := me.nested.toNat
  if nestingLevel ≠ 0 then
    let skipped := me.skipped + 1
    if skipped.toNat < 1 <<< nestingLevel then (⟨me.nested, skipped⟩, false)
    else (⟨BitVec.ofNat 8 (nestingLevel + 1), 0⟩, true)
  else (⟨BitVec.ofNat 8 (nestingLevel + 1), me.skipped⟩, true)

/-- `GC_reset_finalizer_nested()`; the caller of `GC_check_finalizer_nested` zeroing the byte
it was returned has the same effect. -/
def gcResetFinalizerNested (me : FinalizerCounters) : FinalizerCounters := { me with nested := 0 }

/-- The calls one thread makes on its own record. -/
inductive FinalizerCall where
  | check
  | reset
  deriving DecidableEq, Repr

def finalizerStep (me : FinalizerCounters) : FinalizerCall → FinalizerCounters
  | .check => (gcCheckFinalizerNested me).1
  | .reset => gcResetFinalizerNested me

def finalizerRun (me : FinalizerCounters) (calls : List FinalizerCall) : FinalizerCounters :=
  calls.foldl finalizerStep me

/-- A check either returns NULL and keeps the level, or returns the byte from a level below
16 and stores the next level without wrapping. -/
theorem gcCheckFinalizerNested_spec (me : FinalizerCounters) :
    ((gcCheckFinalizerNested me).2 = false ∧ (gcCheckFinalizerNested me).1.nested = me.nested) ∨
    ((gcCheckFinalizerNested me).2 = true ∧ me.nested.toNat < 16 ∧
      (gcCheckFinalizerNested me).1.nested.toNat = me.nested.toNat + 1) := by
  have hwrap := (me.skipped + 1).isLt
  dsimp only [gcCheckFinalizerNested]
  split_ifs with h0 hlt
  · exact .inl ⟨rfl, rfl⟩
  · -- the 16-bit counter reached `1 << nesting_level`, so the level is below 16
    have hlow : me.nested.toNat < 16 := by
      rw [Nat.one_shiftLeft] at hlt
      exact (Nat.pow_lt_pow_iff_right (show 1 < 2 by decide)).mp (by omega)
    refine .inr ⟨rfl, hlow, ?_⟩
    simp only [BitVec.toNat_ofNat]
    omega
  · simp only [ne_eq, Decidable.not_not] at h0
    simp [h0]

theorem finalizerStep_le_sixteen {me : FinalizerCounters} (hme : me.nested.toNat ≤ 16) :
    ∀ call, (finalizerStep me call).nested.toNat ≤ 16
  | .check => by
    rcases gcCheckFinalizerNested_spec me with ⟨-, h⟩ | ⟨-, hlt, h⟩
    · simpa [finalizerStep, h] using hme
    · simp only [finalizerStep, h]
      omega
  | .reset => by simp [finalizerStep, gcResetFinalizerNested]

theorem finalizerRun_le_sixteen {me : FinalizerCounters} (hme : me.nested.toNat ≤ 16)
    (calls : List FinalizerCall) : (finalizerRun me calls).nested.toNat ≤ 16 := by
  induction calls generalizing me with
  | nil => exact hme
  | cons call calls ih => exact ih (finalizerStep_le_sixteen hme call)

/-- The first check enters level 1; at level 1 every second check enters level 2. -/
example : finalizerRun .zero [.check, .check, .check, .check] = ⟨2, 1⟩ := by decide

/-- Over every sequence of checks and resets on a fresh record, `finalizer_nested` stays at
most 16, so the next check shifts by fewer than 32 bits, and it returns the byte only from a
level below 16, storing the next level without wrapping to 0. -/
theorem finalizerNested_le_sixteen (calls : List FinalizerCall) :
    (finalizerRun .zero calls).nested.toNat ≤ 16 ∧
    (finalizerRun .zero calls).nested.toNat < 32 ∧
    ((gcCheckFinalizerNested (finalizerRun .zero calls)).2 = true →
      (finalizerRun .zero calls).nested.toNat < 16 ∧
      (gcCheckFinalizerNested (finalizerRun .zero calls)).1.nested.toNat =
        (finalizerRun .zero calls).nested.toNat + 1) := by
  have hle := finalizerRun_le_sixteen (show FinalizerCounters.zero.nested.toNat ≤ 16 by decide) calls
  refine ⟨hle, by omega, fun hret => ?_⟩
  rcases gcCheckFinalizerNested_spec (finalizerRun .zero calls) with ⟨h, -⟩ | ⟨-, h⟩
  · simp [h] at hret
  · exact h

end Win32GcThreads
