import Win32GcThreads.WorldStopInvariant

/-!
# The cached stack minimum stays at or below the stack

`GC_push_stack_for` stores in `last_stack_min` a base address that `VirtualQuery`
reported for an address at or below `stack_end`, or the stack pointer when it lies below
`stack_end`; the `VirtualQuery` cache never reports a base above the address it was asked
for (`QueryCache.Sound`). Every lifecycle routine keeps each minimum with the stack it was
read from or resets it, except the re-registration on a `FINISHED` record (lines 663-665),
which moves `stack_end` to the new thread's stack and keeps the old minimum. Over every
run that avoids that branch, every record's minimum is `ADDR_LIMIT`, at or below its
`stack_end`, or the record has no stack.
-/

namespace Win32GcThreads

/-- `last_info` describes a region that starts at or below `last_address`, inside the user
address space. -/
def QueryCache.Sound (c : QueryCache) : Prop :=
  c.lastInfo.baseAddress ≤ c.lastAddress ∧ c.lastInfo.baseAddress ≤ maxAppAddress

/-- Below a positive address `bottom - 1` lies lower, wrapped or not. -/
theorem ptrPred_lt {p : Nat} (hp : 0 < p) : ptrPred p < p := by
  unfold ptrPred addrLimit
  omega

/-- `bottom - 1` does not wrap above 0. -/
theorem ptrPred_of_pos {p : Nat} (hp : 0 < p) (h : p ≤ maxAppAddress + 1) : ptrPred p = p - 1 := by
  unfold ptrPred addrLimit
  unfold maxAppAddress at h
  omega

@[simp] theorem ptrPred_zero : ptrPred 0 = addrLimit := rfl

/-- `ADDR_LIMIT` lies above the user address space. -/
theorem maxAppAddress_lt_addrLimit : maxAppAddress < addrLimit := by decide

section Query

variable {mem : List MemRegion} {c c' : QueryCache} {s m : Nat}

/-- `VirtualQuery` reports a region starting at or below the address. -/
theorem virtualQuery_base_le (mem : List MemRegion) (a : Nat) :
    (virtualQuery mem a).baseAddress ≤ a := by
  unfold virtualQuery
  split
  · next r hr =>
    have := List.find?_some hr
    simp only [Bool.and_eq_true, decide_eq_true_eq] at this
    exact this.1
  · exact le_rfl

@[simp] theorem QueryCache.load_lastAddress (c : QueryCache) (mem : List MemRegion) (s : Nat) :
    (c.load mem s).lastAddress = s := rfl

/-- A query at a user address reads the map. -/
theorem QueryCache.load_of_le (c : QueryCache) (h : s ≤ maxAppAddress) :
    c.load mem s = ⟨s, virtualQuery mem s⟩ := by
  simp [QueryCache.load, h]

/-- A refill keeps the cache's base at or below its address. -/
theorem QueryCache.load_sound (hc : c.Sound) (mem : List MemRegion) (s : Nat) :
    (c.load mem s).Sound := by
  unfold QueryCache.load QueryCache.Sound at *
  have := virtualQuery_base_le mem s
  split_ifs with h <;> dsimp only <;> omega

/-- The step of the loop of `GC_get_stack_min` never moves the base up: it reads a region
below `bottom`, or the failed query at `ADDR_LIMIT` leaves `last_info` as it was. -/
theorem QueryCache.load_pred_base_le (c : QueryCache) (mem : List MemRegion) :
    (c.load mem (ptrPred c.lastInfo.baseAddress)).lastInfo.baseAddress ≤ c.lastInfo.baseAddress := by
  unfold QueryCache.load
  split_ifs with h
  · rcases Nat.eq_zero_or_pos c.lastInfo.baseAddress with h₀ | h₀
    · rw [h₀] at h; exact absurd h (by decide)
    · exact (virtualQuery_base_le mem _).trans (ptrPred_lt h₀).le
  · exact le_rfl

/-- A query keeps the cache's base at or below its address, and leaves it on the queried address. -/
theorem QueryCache.query_sound (hc : c.Sound) (mem : List MemRegion) (s : Nat) :
    (c.query mem s).Sound ∧ (c.query mem s).lastAddress = s := by
  unfold QueryCache.query
  split
  · exact ⟨c.load_sound hc mem s, rfl⟩
  · next h => exact ⟨hc, (not_not.mp h).symm⟩

/-- The loop of `GC_get_stack_min` only walks down from the base it starts at. -/
theorem stackMinLoop_le : ∀ (n : Nat) (c : QueryCache) {m : Nat} {c' : QueryCache}, c.Sound →
    stackMinLoop mem n c = .ok (m, c') → m ≤ c.lastInfo.baseAddress ∧ c'.Sound
  | 0, _, _, _, _, h => by cases h
  | n + 1, c, m, c', hc, h => by
    simp only [stackMinLoop] at h
    have hle := c.load_pred_base_le mem
    split at h
    · have ⟨hm, hc'⟩ := stackMinLoop_le n _ (c.load_sound hc mem _) h
      exact ⟨hm.trans hle, hc'⟩
    · cases h
      exact ⟨le_rfl, c.load_sound hc mem _⟩

/-- `GC_get_stack_min(s)` returns an address at or below `s`. -/
theorem gcGetStackMin_le (hc : c.Sound) (h : gcGetStackMin mem s c = .ok (m, c')) :
    m ≤ s ∧ c'.Sound :=
  let ⟨hq, ha⟩ := c.query_sound hc mem s
  let ⟨hm, hc'⟩ := stackMinLoop_le _ _ hq h
  ⟨hm.trans (le_of_le_of_eq hq.1 ha), hc'⟩

end Query

section Push

variable {a : Bool} {os : OsView} {self approxSp sp m lsm : Nat} {isSelf : Bool}
  {mem : List MemRegion} {c c' : QueryCache} {t : ThreadRep} {st st' : PushState} {p : Ptr}

/-- A minimum `GC_push_stack_for` takes from `GC_get_stack_min(s)` lies at or below `s`. -/
theorem stackMin_of_getStackMin {s : Nat} (hc : c.Sound)
    (h : (do let y ← gcGetStackMin mem s c; pure (y.1, y.1, y.2)) = Except.ok (m, lsm, c')) :
    lsm ≤ s ∧ c'.Sound := by
  obtain ⟨⟨m₁, c₁⟩, hg, h⟩ := except_bind_eq_ok.mp h
  cases h
  exact gcGetStackMin_le hc hg

/-- Lines 1589-1635 of `GC_push_stack_for` store a minimum that keeps the record
bounded, and leave the cache sound. -/
theorem stackMinFor_stackMinOk (hc : c.Sound) (ht : StackMinOk t)
    (h : stackMinFor mem t sp isSelf c = .ok (m, lsm, c')) :
    StackMinOk { t with lastStackMin := lsm } ∧ c'.Sound := by
  obtain ⟨htr, hb⟩ := ht
  unfold stackMinFor mayBeInStack at h
  simp only [htr, ne_eq, not_true_eq_false, decide_False, Bool.false_and, Bool.false_eq_true,
    ↓reduceIte] at h
  by_cases hne : t.lastStackMin = addrLimit
  · rw [if_pos hne] at h
    have ⟨hle, hc'⟩ := stackMin_of_getStackMin hc h
    exact ⟨⟨htr, .inr (.inl hle)⟩, hc'⟩
  rw [if_neg hne] at h
  split at h
  · cases h; exact ⟨⟨htr, hb⟩, hc⟩
  generalize (if (isSelf && decide (sp < t.lastStackMin)) = true then sp else t.lastStackMin) = q at h
  have hq := (c.query_sound hc mem q).1
  split at h
  · split at h
    · -- the page at the probe is readable but `sp` is outside it: restart from the old minimum
      have ⟨hle, hc'⟩ := stackMin_of_getStackMin hq h
      exact ⟨⟨htr, .inr ((hb.resolve_left hne).imp_left hle.trans)⟩, hc'⟩
    · -- `sp` lies in the readable region: its base is the new minimum
      next hin =>
      cases h
      simp only [Bool.or_eq_true, decide_eq_true_eq, not_or, not_lt, ge_iff_le, not_le] at hin
      exact ⟨⟨htr, .inr (.inl (hin.1.trans hin.2.le))⟩, hq⟩
  · have ⟨hle, hc'⟩ := stackMin_of_getStackMin hq h
    exact ⟨⟨htr, .inr (.inl hle)⟩, hc'⟩

/-- The stack minimum check keeps the cache sound. -/
theorem checkStackMin_sound (hc : c.Sound) (h : checkStackMin a mem t sp m c = .ok c') :
    c'.Sound := by
  unfold checkStackMin at h
  split at h
  · cases h; exact hc
  obtain ⟨⟨m₁, c₁⟩, hg, h⟩ := except_bind_eq_ok.mp h
  have hc₁ := (gcGetStackMin_le hc hg).2
  dsimp only at h
  split at h
  · cases h; exact hc₁
  split at h
  · obtain ⟨⟨m₂, c₂⟩, hg₂, h⟩ := except_bind_eq_ok.mp h
    dsimp only at h
    split at h
    · cases h; exact (gcGetStackMin_le hc₁ hg₂).2
    · cases h
  · cases h

/-- One call of `GC_push_stack_for` keeps every record bounded and the cache sound. -/
theorem gcPushStackFor_stackMin (hb : StackMinBounded st.table) (hc : st.cache.Sound)
    (h : gcPushStackFor a os self approxSp st p = .ok st') :
    StackMinBounded st'.table ∧ st'.cache.Sound := by
  unfold gcPushStackFor at h
  obtain ⟨⟨sp, isSelf⟩, -, h⟩ := except_bind_eq_ok.mp h
  obtain ⟨⟨m, lsm, c₁⟩, h₁, h⟩ := except_bind_eq_ok.mp h
  obtain ⟨c₂, h₂, h⟩ := except_bind_eq_ok.mp h
  cases h
  have ⟨ht, hc₁⟩ := stackMinFor_stackMinOk hc (hb p) h₁
  exact ⟨hb.setRep p ht, checkStackMin_sound hc₁ h₂⟩

/-- One iteration of the push loop keeps every known minimum bounded and the cache sound. -/
theorem pushIfWanted_stackMin (hb : StackMinBounded st.table) (hc : st.cache.Sound)
    (h : pushIfWanted a os self approxSp st p = .ok st') :
    StackMinBounded st'.table ∧ st'.cache.Sound := by
  unfold pushIfWanted at h
  split at h
  · exact gcPushStackFor_stackMin hb hc h
  · cases h; exact ⟨hb, hc⟩

end Push

section Walk

variable {σ : Type} {tbl : σ → ThreadTable} {body : σ → Ptr → Except Fault σ} {P : σ → Prop}

/-- A walk whose body keeps `P` keeps it. -/
theorem walkChain_preserves (hb : ∀ st p st', P st → body st p = .ok st' → P st') :
    ∀ (n : Nat) (st : σ) (x : Option Ptr) {st' : σ}, P st → walkChain tbl body n st x = .ok st' →
      P st'
  | _, _, none, _, hP, h => by simp only [walkChain] at h; cases h; exact hP
  | 0, _, some _, _, _, h => by cases h
  | n + 1, st, some p, st', hP, h => by
    simp only [walkChain] at h
    obtain ⟨st₁, h₁, h₂⟩ := except_bind_eq_ok.mp h
    exact walkChain_preserves hb n st₁ _ (hb _ _ _ hP h₁) h₂

/-- A walk over the buckets keeps what every visit keeps. -/
theorem walkBuckets_preserves (hb : ∀ st p st', P st → body st p = .ok st' → P st') :
    ∀ (hvs : List Nat) (st : σ) {st' : σ}, P st → walkBuckets tbl body hvs st = .ok st' → P st'
  | [], _, _, hP, h => by cases h; exact hP
  | hv :: hvs, st, st', hP, h => by
    obtain ⟨st₁, h₁, h₂⟩ := except_bind_eq_ok.mp h
    exact walkBuckets_preserves hb hvs st₁ (walkChain_preserves hb _ _ _ hP h₁) h₂

end Walk

section Collect

variable {H : TableHash} {a : Bool} {os : OsView} {self approxSp : Nat} {s s' : ThreadTable}
  {c : QueryCache} {st st' : PushState} {p : Ptr}

/-- `GC_suspend` clears `stack_end` of an exited thread or marks the record suspended. -/
theorem suspendIfWanted_stackMin (hb : StackMinBounded s) :
    StackMinBounded (suspendIfWanted os self s p) := by
  unfold suspendIfWanted gcSuspend
  split
  · split
    · exact hb.updateRep p fun _ h => ⟨h.1, .inr (.inr rfl)⟩
    · exact hb.updateRep p fun _ => id
  · exact hb

/-- `GC_stop_world` keeps every known minimum bounded. -/
theorem gcStopWorld_stackMin (hb : StackMinBounded s) (h : gcStopWorld H os self s = .ok s') :
    StackMinBounded s' :=
  walkBuckets_preserves (fun _ _ _ hP h => by cases h; exact suspendIfWanted_stackMin hP) _ _ hb h

/-- `GC_push_all_stacks` keeps every known minimum bounded and the cache sound. -/
theorem gcPushAllStacks_stackMin {itc : Bool} (hb : StackMinBounded st.table)
    (hc : st.cache.Sound) (h : gcPushAllStacks H a os self approxSp itc st = .ok st') :
    StackMinBounded st'.table ∧ st'.cache.Sound := by
  obtain ⟨st₁, h₁, h⟩ := except_bind_eq_ok.mp h
  have hP := walkBuckets_preserves (fun st _ _ (hP : StackMinBounded st.table ∧ st.cache.Sound) h =>
    pushIfWanted_stackMin hP.1 hP.2 h) _ _ ⟨hb, hc⟩ h₁
  split at h
  · cases h
  · cases h; exact hP

/-- One iteration of the restart loop keeps every known minimum bounded. -/
theorem resumeIfSuspended_stackMin (hb : StackMinBounded s)
    (h : resumeIfSuspended a self s p = .ok s') : StackMinBounded s' := by
  unfold resumeIfSuspended at h
  split at h
  · split at h
    · cases h
    · cases h; exact hb.updateRep p fun _ => id
  · cases h; exact hb

/-- `GC_start_world` keeps every known minimum bounded. -/
theorem gcStartWorld_stackMin (hb : StackMinBounded s) (h : gcStartWorld H a self s = .ok s') :
    StackMinBounded s' :=
  walkBuckets_preserves (fun _ _ _ hP h => resumeIfSuspended_stackMin hP h) _ _ hb h

/-- A collection keeps every record bounded and the cache sound. -/
theorem gcCollect_stackMin (hb : StackMinBounded s) (hc : c.Sound)
    (h : gcCollect H a os self approxSp s c = .ok st) : StackMinBounded st.table ∧ st.cache.Sound := by
  obtain ⟨s₁, h₁, h⟩ := except_bind_eq_ok.mp h
  obtain ⟨st₂, h₂, h⟩ := except_bind_eq_ok.mp h
  obtain ⟨s₃, h₃, h⟩ := except_bind_eq_ok.mp h
  cases h
  have ⟨hb₂, hc₂⟩ := gcPushAllStacks_stackMin (gcStopWorld_stackMin hb h₁) hc h₂
  exact ⟨gcStartWorld_stackMin hb₂ h₃, hc₂⟩

end Collect

/-- Whether the event is a registration that takes over a `FINISHED` record. -/
def SysEvent.reusesFinished (H : TableHash) (rt : Runtime) : SysEvent → Bool
  | .life e => e.reusesFinished H rt
  | .collect .. => false

section Run

variable (H : TableHash) (assertions : Bool)

/-- `sysRun`, stopping with `none` at the first registration that would take over a
`FINISHED` record. -/
def sysRunReuseFree (sys : GcSystem) : List SysEvent → Option (Except Fault GcSystem)
  | [] => some (.ok sys)
  | e :: es =>
    if e.reusesFinished H sys.rt then none
    else
      match sysStep H assertions sys e with
      | some (.ok sys') => sysRunReuseFree sys' es
      | r => r

/-- What a run without a take-over of a `FINISHED` record keeps: a well-formed table,
bounded minima and a sound `VirtualQuery` cache. -/
structure StackMinInv (sys : GcSystem) : Prop where
  table : ∃ B, TableInv H sys.rt.table B
  bounded : StackMinBounded sys.rt.table
  cache : sys.cache.Sound

end Run

namespace StackMinInv

variable {H : TableHash} {a : Bool} {sys sys' : GcSystem}

/-- A fresh system keeps the invariant. -/
theorem start (main : OsThread) : StackMinInv H ⟨Runtime.start main, .init, []⟩ :=
  ⟨⟨_, tableInv_init⟩, fun _ => ⟨rfl, .inr (.inl le_rfl)⟩, le_rfl, Nat.zero_le _⟩

/-- Every step that takes over no `FINISHED` record keeps the invariant. -/
theorem step {e : SysEvent} (hi : StackMinInv H sys) (hn : e.reusesFinished H sys.rt = false)
    (h : sysStep H a sys e = some (.ok sys')) : StackMinInv H sys' := by
  obtain ⟨⟨B, ht⟩, hb, hc⟩ := hi
  suffices StackMinBounded sys'.rt.table ∧ sys'.cache.Sound from
    ⟨sysStep_tableInv ht h, this.1, this.2⟩
  cases e with
  | life e =>
    obtain ⟨rt', h₁, rfl⟩ := sysStep_life_ok h
    exact ⟨lifeStep_stackMin h₁ hn ht hb, hc⟩
  | collect t approxSp os =>
    obtain ⟨th, -, hr⟩ := sysStep_collect h
    obtain ⟨st, hcl, rfl⟩ := except_map_eq_ok.mp hr.symm
    exact gcCollect_stackMin hb hc hcl

/-- Every run without such a take-over keeps the invariant. -/
theorem run (hi : StackMinInv H sys) (es : List SysEvent)
    (h : sysRunReuseFree H a sys es = some (.ok sys')) : StackMinInv H sys' := by
  induction es generalizing sys with
  | nil => cases h; exact hi
  | cons e es ih =>
    simp only [sysRunReuseFree] at h
    split at h
    · cases h
    · next hn =>
      split at h
      · exact ih (hi.step (by simpa using hn) ‹_›) h
      · next hne => exact (hne _ h).elim

end StackMinInv

section Bound

variable {H : TableHash} {a : Bool} {sys : GcSystem}

/-- Over every run from a fresh process in which no registration takes over a
`FINISHED` record, every record's `last_stack_min` is `ADDR_LIMIT`, at or below its
`stack_end`, or the record has no stack. -/
theorem reuseFree_stackMin_belowEnd (main : OsThread) (es : List SysEvent)
    (h : sysRunReuseFree H a ⟨Runtime.start main, .init, []⟩ es = some (.ok sys)) (p : Ptr) :
    (sys.rt.table.rep p).lastStackMin = addrLimit ∨
      (sys.rt.table.rep p).lastStackMin ≤ (sys.rt.table.rep p).stackEnd ∨
      (sys.rt.table.rep p).stackEnd = 0 :=
  (((StackMinInv.start main).run es h).bounded p).2

set_option maxRecDepth 4000 in
/-- After `scanJoinableRun`: thread 1's record, scanned with minimum `0x3F000` and then
`FINISHED`, is still bounded by its stack. -/
theorem reuseFree_stackMin_belowEnd_scanned :
    ∃ sys, sysRunReuseFree lowByteHash false ⟨Runtime.start mainThread, .init, []⟩
        scanJoinableRun = some (.ok sys) ∧
      ((sys.rt.table.rep 2).lastStackMin = addrLimit ∨
        (sys.rt.table.rep 2).lastStackMin ≤ (sys.rt.table.rep 2).stackEnd ∨
        (sys.rt.table.rep 2).stackEnd = 0) :=
  ⟨_, rfl, reuseFree_stackMin_belowEnd mainThread _
    (rfl : sysRunReuseFree lowByteHash false _ scanJoinableRun = _) 2⟩

end Bound

end Win32GcThreads
