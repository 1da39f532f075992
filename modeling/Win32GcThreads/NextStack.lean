import Win32GcThreads.StackScan

/-!
# The next stack above an address

`GC_get_next_stack(start, limit, &lo, &hi)` (lines 1739-1844) looks for the stack with the
least end above `start`: in DLL mode among the entries of `dll_thread_table` up to
`GC_get_max_thread_index()`, otherwise among every record linked in `GC_threads`, `FINISHED`
ones included, then the first `GC_markers_m1` markers. `*lo` is `ADDR_LIMIT` when no stack is
found or the page at `limit` is not readable; otherwise `GC_get_stack_min` finds it, from the
cached minimum or the stack's end, and the result becomes the cached minimum. From any sane
`VirtualQuery` cache, in the release build, the call returns the least candidate end as `*hi`
and, as `*lo`, `ADDR_LIMIT` or an address at or below the stack's lowest one, and a caller
restarting from each `*hi` stops. The callers are outside the source; `restartFromHi` is the
loop the specification describes.
-/

namespace Win32GcThreads

section Model

/-- What `plast_stack_min` points at. -/
inductive MinSlot where
  /-- `&p->last_stack_min` for a record `p` of `GC_threads`. -/
  | record (p : Ptr)
  /-- `&dll_thread_table[i].last_stack_min`. -/
  | dllSlot (i : Nat)
  /-- `&marker_last_stack_min[i]`. -/
  | marker (i : Nat)
  deriving DecidableEq, Repr

/-- The data `GC_get_next_stack` reads and writes. -/
structure NextStackState where
  /-- `GC_win32_dll_threads`. -/
  dll : Bool
  /-- `GC_threads` and its records. -/
  table : ThreadTable
  /-- `dll_thread_table[i].stack_end`. -/
  dllStackEnd : Nat → Nat
  /-- `dll_thread_table[i].last_stack_min`. -/
  dllLastStackMin : Nat → Nat
  /-- What `GC_get_max_thread_index()` returns. -/
  dllMax : Nat
  /-- `GC_markers_m1`. -/
  markersM1 : Nat
  /-- `marker_sp[i]`. -/
  markerSp : Nat → Nat
  /-- `marker_last_stack_min[i]`. -/
  markerLastStackMin : Nat → Nat
  /-- `last_address` and `last_info`. -/
  cache : QueryCache

namespace NextStackState

/-- The `stack_end` (or `marker_sp`) the loops read for a slot. -/
def stackEnd (s : NextStackState) : MinSlot → Nat
  | .record p => (s.table.rep p).stackEnd
  | .dllSlot i => s.dllStackEnd i
  | .marker i => s.markerSp i

/-- `*plast_stack_min`. -/
def lastStackMin (s : NextStackState) : MinSlot → Nat
  | .record p => (s.table.rep p).lastStackMin
  | .dllSlot i => s.dllLastStackMin i
  | .marker i => s.markerLastStackMin i

/-- `*plast_stack_min = v`. -/
def setLastStackMin (s : NextStackState) (v : Nat) : MinSlot → NextStackState
  | .record p => { s with table := updateRep s.table p fun r => { r with lastStackMin := v } }
  | .dllSlot i => { s with dllLastStackMin := Function.update s.dllLastStackMin i v }
  | .marker i => { s with markerLastStackMin := Function.update s.markerLastStackMin i v }

variable (s : NextStackState) (v : Nat) (l l' : MinSlot)

@[simp] theorem setLastStackMin_dll : (s.setLastStackMin v l).dll = s.dll := by cases l <;> rfl
@[simp] theorem setLastStackMin_dllMax : (s.setLastStackMin v l).dllMax = s.dllMax := by
  cases l <;> rfl
@[simp] theorem setLastStackMin_markersM1 : (s.setLastStackMin v l).markersM1 = s.markersM1 := by
  cases l <;> rfl
@[simp] theorem setLastStackMin_cache : (s.setLastStackMin v l).cache = s.cache := by
  cases l <;> rfl

@[simp] theorem stackEnd_setLastStackMin : (s.setLastStackMin v l).stackEnd l' = s.stackEnd l' := by
  cases l <;> cases l' <;> simp [setLastStackMin, stackEnd, updateRep, ThreadTable.setRep,
    Function.update_apply, apply_ite]
  rintro rfl
  rfl

@[simp] theorem lastStackMin_setLastStackMin_self : (s.setLastStackMin v l).lastStackMin l = v := by
  cases l <;> simp [setLastStackMin, lastStackMin]

/-- Writing one slot's cached minimum leaves the others. -/
theorem lastStackMin_setLastStackMin_ne (h : l' ≠ l) :
    (s.setLastStackMin v l).lastStackMin l' = s.lastStackMin l' := by
  cases l <;> cases l' <;> simp_all [setLastStackMin, lastStackMin, updateRep_rep_ne]

/-- The write-back changes no link of the table. -/
theorem linksKept_setLastStackMin : LinksKept s.table (s.setLastStackMin v l).table := by
  cases l
  · exact LinksKept.updateRep _ _ (f := fun r => { r with lastStackMin := v }) fun _ => rfl
  all_goals exact .refl _

end NextStackState

/-- The slots the loops of `GC_get_next_stack` read, in loop order: in DLL mode the entries
up to `GC_get_max_thread_index()`; otherwise every record linked in `GC_threads`, bucket by
bucket and `FINISHED` ones included, then the first `GC_markers_m1` markers. -/
def nextStackSlots (H : TableHash) (B : Nat → List Ptr) (s : NextStackState) : List MinSlot :=
  if s.dll then (List.range (s.dllMax + 1)).map .dllSlot
  else (tableRecords H B).map .record ++ (List.range s.markersM1).map .marker

@[simp] theorem nextStackSlots_setLastStackMin (H : TableHash) (B : Nat → List Ptr)
    (s : NextStackState) (v : Nat) (l : MinSlot) :
    nextStackSlots H B (s.setLastStackMin v l) = nextStackSlots H B s := by
  simp [nextStackSlots]

/-- `if ((word)s > (word)start && (word)s < (word)current_min)`, then `plast_stack_min`
moves to the slot and `current_min = s`. -/
def considerStack (s : NextStackState) (start : Nat) (acc : Nat × Option MinSlot)
    (l : MinSlot) : Nat × Option MinSlot :=
  if start < s.stackEnd l ∧ s.stackEnd l < acc.1 then (s.stackEnd l, some l) else acc

/-- One pass of the marker loop, which asserts `marker_last_stack_min[i] != NULL`
(line 1796) before it takes the marker. -/
def considerMarker (assertions : Bool) (s : NextStackState) (start : Nat)
    (acc : Nat × Option MinSlot) (i : Nat) : Except Fault (Nat × Option MinSlot) :=
  if start < s.markerSp i ∧ s.markerSp i < acc.1 then
    if assertions && s.markerLastStackMin i == 0 then .error (.assertFailed 1796)
    else .ok (s.markerSp i, some (.marker i))
  else .ok acc

/-- "First set current_min, ignoring limit": `current_min` and `plast_stack_min` after the
loops, from `ADDR_LIMIT` and NULL. -/
def nextStackMin (H : TableHash) (assertions : Bool) (s : NextStackState) (start : Nat) :
    Except Fault (Nat × Option MinSlot) :=
  if s.dll then
    .ok ((List.range (s.dllMax + 1)).foldl (fun acc i => considerStack s start acc (.dllSlot i))
      (addrLimit, none))
  else do
    let acc ← walkBuckets (fun _ => s.table)
      (fun acc p => .ok (considerStack s start acc (.record p))) (List.range H.size)
      (addrLimit, none)
    (List.range s.markersM1).foldlM (considerMarker assertions s start) acc

/-- `GC_get_next_stack(start, limit, &lo, &hi)`: `(*lo, *hi)` and the data after the call.
A `may_be_in_stack` that `&&` or `||` skips is not called. -/
def gcGetNextStack (H : TableHash) (assertions : Bool) (mem : List MemRegion)
    (s : NextStackState) (start limit : Nat) : Except Fault (Nat × Nat × NextStackState) := do
  let (currentMin, plast) ← nextStackMin H assertions s start
  if currentMin = addrLimit then return (addrLimit, addrLimit, s)
  if assertions && !(decide (start < currentMin) && plast.isSome) then
    throw (.assertFailed 1811)
  let some l := plast | throw .nullDeref
  -- `(word)current_min > (word)limit && !may_be_in_stack(limit)`
  let (inStack, c) :=
    if limit < currentMin then mayBeInStack mem limit s.cache else (true, s.cache)
  if !inStack then return (addrLimit, currentMin, { s with cache := c })
  -- `*plast_stack_min == ADDR_LIMIT || !may_be_in_stack(*plast_stack_min)`
  let lsm := s.lastStackMin l
  let (lsmInStack, c) := if lsm = addrLimit then (false, c) else mayBeInStack mem lsm c
  let (lo, c) ← gcGetStackMin mem (if lsmInStack then lsm else currentMin) c
  return (lo, currentMin, ({ s with cache := c }).setLastStackMin lo l)

end Model

section Selection

variable {H : TableHash} {B : Nat → List Ptr} {s : NextStackState} {a : Bool} {start : Nat}

/-- What the loops leave, from `acc` over the slots `ls`: at most `acc`, at most every end
above `start`, and either `acc` itself or a slot with its end, above `start` and below
`acc`. -/
structure LeastAbove (s : NextStackState) (start : Nat) (ls : List MinSlot)
    (acc r : Nat × Option MinSlot) : Prop where
  le_init : r.1 ≤ acc.1
  le : ∀ l ∈ ls, start < s.stackEnd l → r.1 ≤ s.stackEnd l
  found : r = acc ∨ ∃ l ∈ ls, r = (s.stackEnd l, some l) ∧ start < s.stackEnd l ∧
    s.stackEnd l < acc.1

/-- The search over a list of slots ends on its start value or on a slot whose end lies above
`start`, at most that start value and every end above `start`. -/
theorem foldl_considerStack (s : NextStackState) (start : Nat) :
    ∀ (ls : List MinSlot) (acc : Nat × Option MinSlot),
      LeastAbove s start ls acc (ls.foldl (considerStack s start) acc)
  | [], _ => ⟨le_rfl, nofun, .inl rfl⟩
  | l :: ls, acc => by
    rw [List.foldl_cons]
    by_cases h : start < s.stackEnd l ∧ s.stackEnd l < acc.1
    · have ih := foldl_considerStack s start ls (s.stackEnd l, some l)
      rw [show considerStack s start acc l = _ from if_pos h]
      refine ⟨ih.le_init.trans h.2.le, List.forall_mem_cons.mpr ⟨fun _ => ih.le_init, ih.le⟩, ?_⟩
      obtain he | ⟨l', hl', he, hs, hlt⟩ := ih.found
      · exact .inr ⟨l, List.mem_cons_self _ _, he, h⟩
      · exact .inr ⟨l', List.mem_cons_of_mem _ hl', he, hs, hlt.trans h.2⟩
    · have ih := foldl_considerStack s start ls acc
      rw [show considerStack s start acc l = _ from if_neg h]
      refine ⟨ih.le_init, List.forall_mem_cons.mpr
        ⟨fun hs => ih.le_init.trans (Nat.le_of_not_lt fun h' => h ⟨hs, h'⟩), ih.le⟩, ?_⟩
      obtain he | ⟨l', hl', he, hs, hlt⟩ := ih.found
      · exact .inl he
      · exact .inr ⟨l', List.mem_cons_of_mem _ hl', he, hs, hlt⟩

/-- The marker loop is the same search as the others when no marker it takes has a NULL
cached minimum. -/
theorem foldlM_considerMarker {b : Nat} :
    ∀ (is : List Nat), (∀ i ∈ is, a = true → start < s.markerSp i → s.markerSp i < b →
      s.markerLastStackMin i ≠ 0) → ∀ acc : Nat × Option MinSlot, acc.1 ≤ b →
      is.foldlM (considerMarker a s start) acc =
        .ok ((is.map MinSlot.marker).foldl (considerStack s start) acc)
  | [], _, _, _ => rfl
  | i :: is, hm, acc, hb => by
    have hc : considerMarker a s start acc i = .ok (considerStack s start acc (.marker i)) := by
      simp only [considerMarker, considerStack, NextStackState.stackEnd]
      split_ifs with h₁ h₂
      · simp only [Bool.and_eq_true, beq_iff_eq] at h₂
        exact absurd h₂.2 (hm i (List.mem_cons_self _ _) h₂.1 h₁.1 (h₁.2.trans_le hb))
      all_goals rfl
    simp only [List.foldlM_cons, hc, except_ok_bind, List.map_cons, List.foldl_cons]
    exact foldlM_considerMarker is (fun j hj => hm j (List.mem_cons_of_mem _ hj)) _
      ((foldl_considerStack s start [.marker i] acc).le_init.trans hb)

/-- The loops of `GC_get_next_stack` are one search over `nextStackSlots`. -/
theorem nextStackMin_eq (hT : s.dll = false → TableInv H s.table B)
    (hm : ∀ i, .marker i ∈ nextStackSlots H B s → a = true → start < s.markerSp i →
      s.markerSp i < addrLimit → s.markerLastStackMin i ≠ 0) :
    nextStackMin H a s start =
      .ok ((nextStackSlots H B s).foldl (considerStack s start) (addrLimit, none)) := by
  have hm' : s.dll = false → ∀ i ∈ List.range s.markersM1, a = true → start < s.markerSp i →
      s.markerSp i < addrLimit → s.markerLastStackMin i ≠ 0 := fun hd i hi =>
    hm i (by simp only [nextStackSlots, hd]; exact List.mem_append_right _ (List.mem_map_of_mem _ hi))
  unfold nextStackMin nextStackSlots
  cases hd : s.dll
  · have hw : walkBuckets (fun _ => s.table)
        (fun acc p => .ok (considerStack s start acc (.record p))) (List.range H.size)
        (addrLimit, none) = .ok (((tableRecords H B).map MinSlot.record).foldl
          (considerStack s start) (addrLimit, none)) := by
      rw [walkBuckets_range (fun _ _ _ _ => LinksKept.refl s.table) (hT hd),
        foldlM_ok (fun acc p => considerStack s start acc (.record p)), List.foldl_map]
    simp only [Bool.false_eq_true, ↓reduceIte, List.foldl_append, hw, except_ok_bind]
    exact foldlM_considerMarker _ (hm' hd) _ (foldl_considerStack s start _ _).le_init
  · simp [List.foldl_map]

end Selection

section Call

variable {H : TableHash} {B : Nat → List Ptr} {mem : List MemRegion} {s : NextStackState}
  {a : Bool} {start lo hi : Nat} {l : MinSlot}

/-- What `GC_get_next_stack` needs of its data: a well-formed table in explicit mode, a sane
`VirtualQuery` cache, as every run leaves it, and every candidate stack above `start` a
readable run whose cached minimum is unknown or at most its end. -/
structure NextStackInv (H : TableHash) (B : Nat → List Ptr) (mem : List MemRegion) (start : Nat)
    (s : NextStackState) : Prop where
  table : s.dll = false → TableInv H s.table B
  sane : s.cache.Sane
  fits : ∀ l ∈ nextStackSlots H B s, start < s.stackEnd l → s.stackEnd l < addrLimit →
    ∃ lo, StackRun mem lo (s.stackEnd l) ∧
      (s.lastStackMin l = addrLimit ∨ s.lastStackMin l ≤ s.stackEnd l)

/-- A later start needs less of the candidates. -/
theorem NextStackInv.mono {start' : Nat} (hI : NextStackInv H B mem start s) (h : start ≤ start') :
    NextStackInv H B mem start' s :=
  ⟨hI.table, hI.sane, fun l hl hs => hI.fits l hl (Nat.lt_of_le_of_lt h hs)⟩

/-- The invariant survives a new sane cache. -/
theorem NextStackInv.setCache (hI : NextStackInv H B mem start s) {c : QueryCache}
    (hc : c.Sane) : NextStackInv H B mem start { s with cache := c } :=
  ⟨hI.table, hc, hI.fits⟩

/-- The invariant survives writing back, as a stack's cached minimum, an address at or below
its lowest one. -/
theorem NextStackInv.writeBack (hI : NextStackInv H B mem start s) {m : Nat}
    (hr : StackRun mem lo (s.stackEnd l)) (hm : m ≤ lo) :
    NextStackInv H B mem start (s.setLastStackMin m l) := by
  refine ⟨fun hd => (s.linksKept_setLastStackMin m l).inv (hI.table (by simpa using hd)),
    by simpa using hI.sane, fun l' hl' hs hlt => ?_⟩
  simp only [nextStackSlots_setLastStackMin, NextStackState.stackEnd_setLastStackMin] at hl' hs hlt ⊢
  by_cases he : l' = l
  · subst he
    rw [NextStackState.lastStackMin_setLastStackMin_self]
    exact ⟨lo, hr, .inr (hm.trans hr.lt.le)⟩
  · rw [s.lastStackMin_setLastStackMin_ne m l l' he]
    exact hI.fits l' hl' hs hlt

/-- Once the loops found a stack, the call ends with `ADDR_LIMIT`, or with an address at or
below the stack's lowest one, which it writes back; either way the cache stays sane. -/
theorem gcGetNextStack_found (limit : Nat) (hz : ZeroUnreadable mem) (hc : s.cache.Sane)
    (hn : nextStackMin H a s start = .ok (hi, some l)) (hs : start < hi) (ha : hi ≠ addrLimit)
    (hr : StackRun mem lo hi) (hl : s.lastStackMin l = addrLimit ∨ s.lastStackMin l ≤ hi) :
    ∃ c : QueryCache, c.Sane ∧
      (gcGetNextStack H a mem s start limit = .ok (addrLimit, hi, { s with cache := c }) ∨
        ∃ m ≤ lo, gcGetNextStack H a mem s start limit =
          .ok (m, hi, ({ s with cache := c }).setLastStackMin m l)) := by
  have hq : ∀ {c : QueryCache}, c.Sane → ∀ x, (c.query mem x).Sane :=
    fun hc x => query_kept (loadKept_sane hz) hc x
  obtain ⟨b₁, c₁, hc₁, hp⟩ : ∃ b₁ c₁, QueryCache.Sane c₁ ∧
      (if limit < hi then mayBeInStack mem limit s.cache else (true, s.cache)) = (b₁, c₁) := by
    split
    exacts [⟨_, _, hq hc limit, rfl⟩, ⟨_, _, hc, rfl⟩]
  simp only [gcGetNextStack, hn, except_ok_bind, if_neg ha, decide_eq_true hs, Option.isSome_some,
    Bool.and_true, Bool.not_true, Bool.and_false, Bool.false_eq_true, ↓reduceIte, hp]
  cases b₁
  · exact ⟨c₁, hc₁, .inl rfl⟩
  obtain ⟨b₂, c₂, hc₂, hp₂, hb⟩ : ∃ b₂ c₂, QueryCache.Sane c₂ ∧
      (if s.lastStackMin l = addrLimit then (false, c₁)
        else mayBeInStack mem (s.lastStackMin l) c₁) = (b₂, c₂) ∧
      (if b₂ = true then s.lastStackMin l else hi) ≤ hi := by
    by_cases h : s.lastStackMin l = addrLimit
    · exact ⟨false, c₁, hc₁, if_pos h, le_rfl⟩
    · rw [if_neg h]
      refine ⟨_, _, hq hc₁ _, rfl, ?_⟩
      split
      exacts [hl.resolve_left h, le_rfl]
  obtain ⟨m, c₃, hm, hle, hc₃⟩ := gcGetStackMin_sane hz hr hc₂ hb
  simp only [Bool.not_true, Bool.false_eq_true, ↓reduceIte, hp₂, hm, except_ok_bind]
  exact ⟨c₃, hc₃, .inr ⟨m, hle, rfl⟩⟩

/-- One call from data satisfying the invariant, no marker it may take having a NULL cached
minimum in the `GC_ASSERTIONS` build: `*hi` is the least candidate end above `start` or
`ADDR_LIMIT`; `*lo` is `ADDR_LIMIT` when no stack was found, and otherwise `ADDR_LIMIT` or an
address at or below the stack's lowest one. The call changes no candidate's end and keeps the
invariant. -/
theorem gcGetNextStack_spec (limit : Nat) (hz : ZeroUnreadable mem)
    (hI : NextStackInv H B mem start s)
    (hm : ∀ i, .marker i ∈ nextStackSlots H B s → a = true → start < s.markerSp i →
      s.markerSp i < addrLimit → s.markerLastStackMin i ≠ 0) :
    ∃ lo hi s', gcGetNextStack H a mem s start limit = .ok (lo, hi, s') ∧
      (hi = addrLimit ∨ ∃ l ∈ nextStackSlots H B s, s.stackEnd l = hi ∧ start < hi) ∧
      (∀ l ∈ nextStackSlots H B s, start < s.stackEnd l → hi ≤ s.stackEnd l) ∧
      (hi = addrLimit → lo = addrLimit) ∧
      (lo ≠ addrLimit → ∃ lo₀, StackRun mem lo₀ hi ∧ lo ≤ lo₀) ∧
      nextStackSlots H B s' = nextStackSlots H B s ∧ s'.stackEnd = s.stackEnd ∧
      NextStackInv H B mem start s' := by
  have hn := nextStackMin_eq (a := a) hI.table hm
  obtain ⟨-, hle, hf⟩ := foldl_considerStack s start (nextStackSlots H B s) (addrLimit, none)
  generalize (nextStackSlots H B s).foldl (considerStack s start) (addrLimit, none) = r at hn hle hf
  obtain rfl | ⟨l, hl, rfl, hs, hlt⟩ := hf
  · -- no candidate above `start`
    exact ⟨_, _, _, by simp only [gcGetNextStack, hn, except_ok_bind]; rfl, .inl rfl, hle,
      fun _ => rfl, fun h => absurd rfl h, rfl, rfl, hI⟩
  obtain ⟨lo, hr, hfit⟩ := hI.fits l hl hs hlt
  obtain ⟨c, hc, he | ⟨m, hml, he⟩⟩ := gcGetNextStack_found limit hz hI.sane hn hs hlt.ne hr hfit
  · exact ⟨_, _, _, he, .inr ⟨l, hl, rfl, hs⟩, hle, fun _ => rfl, fun h => absurd rfl h, rfl, rfl,
      hI.setCache hc⟩
  · refine ⟨_, _, _, he, .inr ⟨l, hl, rfl, hs⟩, hle, fun h => absurd h hlt.ne, fun _ => ⟨lo, hr, hml⟩,
      ?_, funext fun l' => NextStackState.stackEnd_setLastStackMin _ _ _ _,
      (hI.setCache hc).writeBack hr hml⟩
    rw [nextStackSlots_setLastStackMin]
    rfl

end Call

section Restart

variable {H : TableHash} {B : Nat → List Ptr} {mem : List MemRegion} {limit : Nat}

/-- A caller that calls `GC_get_next_stack` again from each `*hi` until it reports
`ADDR_LIMIT`, collecting the `(*lo, *hi)` pairs, with at most `n` calls. -/
def restartFromHi (H : TableHash) (assertions : Bool) (mem : List MemRegion) (limit : Nat) :
    Nat → NextStackState → Nat → Except Fault (List (Nat × Nat))
  | 0, _, _ => .error .diverged
  | n + 1, s, start => do
    let (lo, hi, s) ← gcGetNextStack H assertions mem s start limit
    if hi = addrLimit then return [(lo, hi)]
    let rs ← restartFromHi H assertions mem limit n s hi
    return (lo, hi) :: rs

/-- Restarting from a candidate's end leaves fewer candidates above the start. -/
theorem length_filter_stackEnd_lt (s : NextStackState) {ls : List MinSlot} {start : Nat}
    {l : MinSlot} (hl : l ∈ ls) (hs : start < s.stackEnd l) :
    (ls.filter (s.stackEnd l < s.stackEnd ·)).length < (ls.filter (start < s.stackEnd ·)).length := by
  have hsub : ls.filter (s.stackEnd l < s.stackEnd ·) =
      (ls.filter (start < s.stackEnd ·)).filter (s.stackEnd l < s.stackEnd ·) := by
    rw [List.filter_filter]
    refine List.filter_congr fun x _ => ?_
    by_cases h : s.stackEnd l < s.stackEnd x
    · simp only [h, decide_True, Bool.true_and]
      exact (decide_eq_true (by omega)).symm
    · simp [h]
  rw [hsub]
  exact List.length_filter_lt_length_iff_exists.mpr
    ⟨l, List.mem_filter.mpr ⟨hl, decide_eq_true hs⟩, by simp⟩

/-- In the release build, with one call more than there are candidates above `start`, the
restarting caller stops, and every range it reports other than `ADDR_LIMIT` ends at a
candidate's end and starts at or below that stack's lowest address. -/
theorem restartFromHi_ok (hz : ZeroUnreadable mem) :
    ∀ (n : Nat) {s : NextStackState} {start : Nat}, NextStackInv H B mem start s →
      ((nextStackSlots H B s).filter (start < s.stackEnd ·)).length < n →
      ∃ rs, restartFromHi H false mem limit n s start = .ok rs ∧ ∀ r ∈ rs, r.1 ≠ addrLimit →
        (∃ lo₀, StackRun mem lo₀ r.2 ∧ r.1 ≤ lo₀) ∧ ∃ l ∈ nextStackSlots H B s, s.stackEnd l = r.2
  | 0, _, _, _, hn => absurd hn (Nat.not_lt_zero _)
  | n + 1, s, start, hI, hn => by
    obtain ⟨lo, hi, s', he, hhi, -, hlo, hrun, hsl, hse, hI'⟩ :=
      gcGetNextStack_spec limit hz hI fun _ _ h => absurd h Bool.false_ne_true
    simp only [restartFromHi, he, except_ok_bind]
    by_cases ha : hi = addrLimit
    · refine ⟨[(lo, hi)], by simp [ha, pure, Except.pure], ?_⟩
      simp only [List.mem_singleton]
      rintro r rfl h
      exact absurd (hlo ha) h
    obtain ⟨l, hl, rfl, hs⟩ := hhi.resolve_left ha
    have hlt := length_filter_stackEnd_lt s hl hs
    obtain ⟨rs, hrs, hall⟩ := restartFromHi_ok hz n (hI'.mono hs.le)
      (by rw [hsl, hse]; omega)
    refine ⟨(lo, s.stackEnd l) :: rs, by simp [ha, hrs, pure, Except.pure], ?_⟩
    simp only [List.mem_cons]
    rintro r (rfl | hr) h
    · exact ⟨hrun h, l, hl, rfl⟩
    · obtain ⟨hr', l', hl', he'⟩ := hall r hr h
      exact ⟨hr', l', hsl ▸ hl', hse ▸ he'⟩

/-- From every sane cache, in the release build, `GC_get_next_stack` returns the least
candidate end above `start` as `*hi`, and as `*lo` either `ADDR_LIMIT` or an address at or
below the stack's lowest one, leaving the cache sane; a caller restarting from each `*hi`
stops, and every range it reports covers the stack of a candidate. -/
theorem getNextStack_least (hz : ZeroUnreadable mem) {s : NextStackState} {start : Nat}
    (hI : NextStackInv H B mem start s) :
    (∃ lo hi s', gcGetNextStack H false mem s start limit = .ok (lo, hi, s') ∧
      (hi = addrLimit ∨ ∃ l ∈ nextStackSlots H B s, s.stackEnd l = hi ∧ start < hi) ∧
      (∀ l ∈ nextStackSlots H B s, start < s.stackEnd l → hi ≤ s.stackEnd l) ∧
      (hi = addrLimit → lo = addrLimit) ∧
      (lo ≠ addrLimit → ∃ lo₀, StackRun mem lo₀ hi ∧ lo ≤ lo₀) ∧ s'.cache.Sane) ∧
    ∀ n, ((nextStackSlots H B s).filter (start < s.stackEnd ·)).length < n →
      ∃ rs, restartFromHi H false mem limit n s start = .ok rs ∧ ∀ r ∈ rs, r.1 ≠ addrLimit →
        (∃ lo₀, StackRun mem lo₀ r.2 ∧ r.1 ≤ lo₀) ∧
        ∃ l ∈ nextStackSlots H B s, s.stackEnd l = r.2 := by
  obtain ⟨lo, hi, s', he, hhi, hle, hlo, hrun, -, -, hI'⟩ :=
    gcGetNextStack_spec limit hz hI fun _ _ h => absurd h Bool.false_ne_true
  exact ⟨⟨lo, hi, s', he, hhi, hle, hlo, hrun, hI'.sane⟩, fun n => restartFromHi_ok hz n hI⟩

end Restart

section Runs

/-- A record on a stack ending at `stackEnd`, with an unknown minimum. -/
def stackRecord (id stackEnd : Nat) (finished : Bool) : ThreadRep :=
  { ThreadRep.zero with
    id := id, stackEnd := stackEnd, lastStackMin := addrLimit, finished := finished }

/-- Record 5 (id 2, bucket 0) is `FINISHED` and its stack `[0x8000, 0x10000)` is still mapped;
record 6 (id 3, bucket 1) is live on `[0x20000, 0x30000)`. -/
def finishedStackTable : ThreadTable :=
  ⟨fun h => if h = 0 then some 5 else if h = 1 then some 6 else none, fun _ => none,
    fun p => if p = 5 then stackRecord 2 0x10000 true else stackRecord 3 0x30000 false,
    false, [5, 6], [], []⟩

/-- The buckets of `finishedStackTable`. -/
def finishedStackBuckets (h : Nat) : List Ptr := if h = 0 then [5] else if h = 1 then [6] else []

/-- Explicit mode without markers, and the zero-initialised `VirtualQuery` cache. -/
def finishedStackState : NextStackState :=
  ⟨false, finishedStackTable, fun _ => 0, fun _ => addrLimit, 0, 0, fun _ => 0,
    fun _ => addrLimit, .init⟩

/-- `finishedStackState` satisfies the invariant from address 0. -/
theorem finishedStackState_inv :
    NextStackInv twoBucketHash finishedStackBuckets twoStacks 0 finishedStackState := by
  refine ⟨fun _ => ⟨fun h hh => ?_, by decide, by decide⟩, QueryCache.init_sane, fun l hl _ _ => ?_⟩
  · obtain rfl | rfl : h = 0 ∨ h = 1 := by simp [twoBucketHash] at hh; omega
    all_goals exact .cons .nil
  · obtain rfl | rfl : l = .record 5 ∨ l = .record 6 := by
      simpa [nextStackSlots, finishedStackState, tableRecords, twoBucketHash,
        finishedStackBuckets, List.range_succ] using hl
    · exact ⟨0x8000, StackRun.of_region twoStacks_memMap (r := ⟨0x8000, 0x10000, true⟩)
        (by decide) rfl (by decide) le_rfl (by decide) rfl, .inl rfl⟩
    · exact ⟨0x20000, StackRun.of_region twoStacks_memMap (r := ⟨0x20000, 0x30000, true⟩)
        (by decide) rfl (by decide) le_rfl (by decide) rfl, .inl rfl⟩

/-- The release build's call on `finishedStackState` from the zero-initialised cache, and a
caller restarting from each `*hi`. -/
theorem getNextStack_least_finished :
    ZeroUnreadable twoStacks ∧
    NextStackInv twoBucketHash finishedStackBuckets twoStacks 0 finishedStackState ∧
    (∃ lo hi s', gcGetNextStack twoBucketHash false twoStacks finishedStackState 0 0x40000 =
        .ok (lo, hi, s') ∧
      (hi = addrLimit ∨ ∃ l ∈ nextStackSlots twoBucketHash finishedStackBuckets finishedStackState,
        finishedStackState.stackEnd l = hi ∧ 0 < hi) ∧
      (∀ l ∈ nextStackSlots twoBucketHash finishedStackBuckets finishedStackState,
        0 < finishedStackState.stackEnd l → hi ≤ finishedStackState.stackEnd l) ∧
      (hi = addrLimit → lo = addrLimit) ∧
      (lo ≠ addrLimit → ∃ lo₀, StackRun twoStacks lo₀ hi ∧ lo ≤ lo₀) ∧ s'.cache.Sane) ∧
    ∀ n, ((nextStackSlots twoBucketHash finishedStackBuckets finishedStackState).filter
        (0 < finishedStackState.stackEnd ·)).length < n →
      ∃ rs, restartFromHi twoBucketHash false twoStacks 0x40000 n finishedStackState 0 = .ok rs ∧
        ∀ r ∈ rs, r.1 ≠ addrLimit → (∃ lo₀, StackRun twoStacks lo₀ r.2 ∧ r.1 ≤ lo₀) ∧
          ∃ l ∈ nextStackSlots twoBucketHash finishedStackBuckets finishedStackState,
            finishedStackState.stackEnd l = r.2 :=
  have hz : ZeroUnreadable twoStacks := zeroUnreadable_of twoStacks_memMap (by decide)
  ⟨hz, finishedStackState_inv, getNextStack_least hz finishedStackState_inv⟩

/-- The stack of the `FINISHED` record 5 is the one found: `*hi` is its end `0x10000`, below
the end `0x30000` of the only live record, and `[0x8000, 0x10000)` is reported as a stack. -/
theorem getNextStack_finished_first :
    ∃ s', gcGetNextStack twoBucketHash true twoStacks finishedStackState 0 0x40000 =
        .ok (0x8000, 0x10000, s') ∧
      (finishedStackTable.rep 5).finished = true ∧ (finishedStackTable.rep 5).stackEnd = 0x10000 ∧
      (finishedStackTable.rep 6).finished = false ∧ (finishedStackTable.rep 6).stackEnd = 0x30000 :=
  ⟨_, rfl, rfl, rfl, rfl, rfl⟩

end Runs

end Win32GcThreads
