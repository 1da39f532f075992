import Win32GcThreads.StackMinInvariant

/-!
# The range `GC_push_stack_for` scans

`GC_get_stack_min` walks down the readable regions below an address, and
`GC_push_stack_for` combines that walk with the cached `last_stack_min` (lines
1589-1635) to choose the lower end of the pushed range. Over a map in which the thread's
stack is the readable run `[lo, stack_end)`, a walk that starts from a base in
`[lo, stack_end]` returns `lo`. The `VirtualQuery` cache is never reset, so a collection
may start from an answer about an earlier map; from any sane cache, which every run whose
maps leave address 0 unmapped keeps, the walk returns at or below `lo`. Without
`GC_ASSERTIONS`, two successive calls with a stack pointer in the stack then push
`[sp, stack_end)` twice, and the second reads no memory. A stale answer can also leave
`last_stack_min` below the stack and push memory below it (`staleCacheRun`).
-/

namespace Win32GcThreads

section MemoryMap

/-- Two regions share no address. -/
def MemRegion.Disjoint (r r' : MemRegion) : Prop := r.limit ≤ r'.base ∨ r'.limit ≤ r.base

/-- An address space: regions that pairwise share no address. -/
def MemMap (mem : List MemRegion) : Prop := mem.Pairwise MemRegion.Disjoint

/-- `last_info` is an answer `VirtualQuery` gives for the map at a user address, and it is
the answer for `last_address` whenever that is a user address. -/
structure QueryCache.Fresh (c : QueryCache) (mem : List MemRegion) : Prop where
  answer : ∃ y ≤ maxAppAddress, c.lastInfo = virtualQuery mem y
  current : c.lastAddress ≤ maxAppAddress → c.lastInfo = virtualQuery mem c.lastAddress

/-- The thread's stack `[lo, hi)` is the run of readable regions that holds `hi - 1`:
every address of it lies in a readable region starting at or above `lo`, and the address
below `lo` is not readable. `hi` is a user address. -/
structure StackRun (mem : List MemRegion) (lo hi : Nat) : Prop where
  lt : lo < hi
  inside : ∀ a, lo ≤ a → a < hi →
    (virtualQuery mem a).readWrite = true ∧ lo ≤ (virtualQuery mem a).baseAddress
  below : (virtualQuery mem (lo - 1)).readWrite = false
  le_limit : hi ≤ maxAppAddress

variable {mem : List MemRegion} {c : QueryCache} {lo hi a s : Nat}

/-- In a map, `VirtualQuery` reports the region that holds the address. -/
theorem virtualQuery_of_mem (hd : MemMap mem) {r : MemRegion} (hr : r ∈ mem) (ha : r.base ≤ a)
    (ha' : a < r.limit) : virtualQuery mem a = ⟨r.base, r.readWrite⟩ := by
  induction mem with
  | nil => cases hr
  | cons r₀ rs ih =>
    obtain ⟨hd₀, hds⟩ := List.pairwise_cons.mp hd
    unfold virtualQuery at ih ⊢
    by_cases h₀ : r₀.base ≤ a ∧ a < r₀.limit
    · rw [List.find?_cons_of_pos _ (by simpa using h₀)]
      rcases List.mem_cons.mp hr with rfl | hr
      · rfl
      · rcases hd₀ r hr with h | h <;> omega
    · rw [List.find?_cons_of_neg _ (by simpa using h₀)]
      rcases List.mem_cons.mp hr with rfl | hr
      · exact absurd ⟨ha, ha'⟩ h₀
      · exact ih hds hr

/-- A readable answer comes from a region of the map. -/
theorem virtualQuery_readWrite (h : (virtualQuery mem a).readWrite = true) :
    ∃ r ∈ mem, r.base = (virtualQuery mem a).baseAddress := by
  unfold virtualQuery at h ⊢
  split at h
  · next r hr => exact ⟨r, List.mem_of_find?_eq_some hr, rfl⟩
  · cases h

/-- A readable answer comes from the region of the map that holds the address. -/
theorem virtualQuery_region (h : (virtualQuery mem a).readWrite = true) :
    ∃ r ∈ mem, r.base ≤ a ∧ a < r.limit ∧ virtualQuery mem a = ⟨r.base, r.readWrite⟩ := by
  unfold virtualQuery at h ⊢
  split at h
  · next r hr =>
    have hin := List.find?_some hr
    simp only [Bool.and_eq_true, decide_eq_true_eq] at hin
    exact ⟨r, List.mem_of_find?_eq_some hr, hin.1, hin.2, rfl⟩
  · cases h

/-- A readable region below a positive base `b` starts below `b`, so fewer regions of the
map start below it: the measure of the loop of `GC_get_stack_min`. -/
theorem filter_base_lt_length {b : Nat} (hb : 0 < b)
    (hrw : (virtualQuery mem (b - 1)).readWrite = true) :
    (mem.filter (·.base < (virtualQuery mem (b - 1)).baseAddress)).length <
      (mem.filter (·.base < b)).length := by
  obtain ⟨r, hrm, hrb⟩ := virtualQuery_readWrite hrw
  have hle := virtualQuery_base_le mem (b - 1)
  have hsub : (mem.filter (·.base < (virtualQuery mem (b - 1)).baseAddress)).Sublist
      (mem.filter (·.base < b)) :=
    List.monotone_filter_right _ fun r h => by simp only [decide_eq_true_eq] at h ⊢; omega
  refine lt_of_le_of_ne hsub.length_le fun heq => ?_
  have hin : r ∈ mem.filter (·.base < b) := List.mem_filter.mpr ⟨hrm, by simp; omega⟩
  rw [← hsub.eq_of_length heq] at hin
  simp [hrb] at hin

namespace StackRun

/-- The page below a stack's lowest address is unreadable, so no stack starts at 0. -/
theorem pos (hr : StackRun mem lo hi) : 0 < lo := by
  refine Nat.pos_of_ne_zero fun h => ?_
  subst h
  have := (hr.inside 0 le_rfl hr.lt).1
  simp_all [hr.below]

/-- A stack held by one readable region of a map, with an unreadable address below it. -/
theorem of_region (hd : MemMap mem) {r : MemRegion} (hr : r ∈ mem) (hrw : r.readWrite = true)
    (hlt : r.base < hi) (hhi : hi ≤ r.limit) (hle : hi ≤ maxAppAddress)
    (hbelow : (virtualQuery mem (r.base - 1)).readWrite = false) : StackRun mem r.base hi :=
  ⟨hlt, fun a h₁ h₂ => by rw [virtualQuery_of_mem hd hr h₁ (by omega)]; exact ⟨hrw, le_rfl⟩,
    hbelow, hle⟩

end StackRun

/-- The loop of `GC_get_stack_min`, started from a base in `[lo, hi]`, stops at `lo`. Each
step moves to a region of the map with a lower base, so the regions below the current
base bound the steps. -/
theorem stackMinLoop_run (hr : StackRun mem lo hi) :
    ∀ (n : Nat) (c : QueryCache), lo ≤ c.lastInfo.baseAddress → c.lastInfo.baseAddress ≤ hi →
      (mem.filter (·.base < c.lastInfo.baseAddress)).length < n →
      stackMinLoop mem n c = .ok (lo, ⟨lo - 1, virtualQuery mem (lo - 1)⟩)
  | 0, _, _, _, hn => absurd hn (Nat.not_lt_zero _)
  | n + 1, c, h₁, h₂, hn => by
    have := hr.pos
    have := hr.le_limit
    simp only [stackMinLoop]
    generalize c.lastInfo.baseAddress = b at h₁ h₂ hn
    rw [ptrPred_of_pos (by omega) (by omega), c.load_of_le (by omega)]
    dsimp only
    rcases h₁.lt_or_eq with hlt | rfl
    · have ⟨hrw, hlo⟩ := hr.inside (b - 1) (by omega) (by omega)
      have hle := virtualQuery_base_le mem (b - 1)
      rw [if_pos hrw]
      exact stackMinLoop_run hr n _ hlo (by dsimp only; omega)
        (Nat.lt_of_lt_of_le (filter_base_lt_length (by omega) hrw) (Nat.le_of_lt_succ hn))
    · rw [if_neg (by simp [hr.below])]

namespace QueryCache

@[simp] theorem query_lastAddress (c : QueryCache) (mem : List MemRegion) (s : Nat) :
    (c.query mem s).lastAddress = s := by
  unfold QueryCache.query
  split
  · rfl
  · next h => exact (not_not.mp h).symm

namespace Fresh

/-- A refill keeps a cache that describes the map. -/
theorem load (hc : c.Fresh mem) (s : Nat) : (c.load mem s).Fresh mem := by
  unfold QueryCache.load
  split_ifs with h
  · exact ⟨⟨s, h, rfl⟩, fun _ => rfl⟩
  · exact ⟨hc.answer, fun h' => absurd h' h⟩

/-- A query keeps a cache that describes the map. -/
theorem query (hc : c.Fresh mem) (s : Nat) : (c.query mem s).Fresh mem := by
  unfold QueryCache.query
  split
  · exact hc.load s
  · exact hc

/-- Over a cache that describes the map, a query at a user address reads the map there. -/
theorem lastInfo_query (hc : c.Fresh mem) (hs : s ≤ maxAppAddress) :
    (c.query mem s).lastInfo = virtualQuery mem s := by
  unfold QueryCache.query
  split
  · rw [c.load_of_le hs]
  · next h => rw [hc.current (not_not.mp h ▸ hs), not_not.mp h]

end Fresh

end QueryCache

/-- Over a cache that describes the map, `may_be_in_stack(x)` reads the map at `x`. -/
theorem mayBeInStack_fresh (hc : c.Fresh mem) {x : Nat} (hx : x ≤ maxAppAddress) :
    mayBeInStack mem x c = ((virtualQuery mem x).readWrite, c.query mem x) := by
  rw [mayBeInStack, hc.lastInfo_query hx]

end MemoryMap

section Kept

/-- A property of the cache that every `VirtualQuery` call over the map keeps. -/
def LoadKept (mem : List MemRegion) (P : QueryCache → Prop) : Prop :=
  ∀ c s, P c → P (c.load mem s)

variable {mem : List MemRegion} {P : QueryCache → Prop} {c c' : QueryCache} {a : Bool}
  {t : ThreadRep} {s sp m lsm : Nat} {isSelf : Bool}

/-- A query keeps what every refill keeps. -/
theorem query_kept (hP : LoadKept mem P) (hc : P c) (s : Nat) : P (c.query mem s) := by
  unfold QueryCache.query
  split
  exacts [hP c s hc, hc]

/-- The walk of `GC_get_stack_min` keeps what every refill keeps. -/
theorem stackMinLoop_kept (hP : LoadKept mem P) :
    ∀ (n : Nat) (c : QueryCache) {m : Nat} {c' : QueryCache}, P c →
      stackMinLoop mem n c = .ok (m, c') → P c'
  | 0, _, _, _, _, h => by cases h
  | n + 1, c, _, _, hc, h => by
    simp only [stackMinLoop] at h
    split at h
    · exact stackMinLoop_kept hP n _ (hP c _ hc) h
    · cases h; exact hP c _ hc

/-- `GC_get_stack_min` keeps what every refill keeps. -/
theorem gcGetStackMin_kept (hP : LoadKept mem P) (hc : P c)
    (h : gcGetStackMin mem s c = .ok (m, c')) : P c' :=
  stackMinLoop_kept hP _ _ (query_kept hP hc s) h

/-- Choosing a thread's stack minimum keeps what every refill keeps. -/
theorem stackMinFor_kept (hP : LoadKept mem P) (hc : P c)
    (h : stackMinFor mem t sp isSelf c = .ok (m, lsm, c')) : P c' := by
  unfold stackMinFor mayBeInStack at h
  dsimp only at h
  split at h
  · obtain ⟨⟨_, _⟩, hg, h⟩ := except_bind_eq_ok.mp h
    cases h
    exact gcGetStackMin_kept hP hc hg
  generalize (if (decide (t.tracedStackSect ≠ 0) && _) = true then _ else _) = l at h
  split at h
  · cases h; exact hc
  -- one probe of the page at `sp` or at the minimum, then possibly `GC_get_stack_min`
  generalize hq : c.query mem _ = c₁ at h
  have hc₁ : P c₁ := hq ▸ query_kept hP hc _
  split at h
  · split at h
    · obtain ⟨⟨_, _⟩, hg, h⟩ := except_bind_eq_ok.mp h
      cases h
      exact gcGetStackMin_kept hP hc₁ hg
    · cases h; exact hc₁
  · obtain ⟨⟨_, _⟩, hg, h⟩ := except_bind_eq_ok.mp h
    cases h
    exact gcGetStackMin_kept hP hc₁ hg

/-- The stack minimum check keeps what every refill keeps. -/
theorem checkStackMin_kept (hP : LoadKept mem P) (hc : P c)
    (h : checkStackMin a mem t sp m c = .ok c') : P c' := by
  unfold checkStackMin at h
  split at h
  · cases h; exact hc
  obtain ⟨⟨m₁, c₁⟩, hg, h⟩ := except_bind_eq_ok.mp h
  have hc₁ := gcGetStackMin_kept hP hc hg
  dsimp only at h
  split at h
  · cases h; exact hc₁
  split at h
  · obtain ⟨⟨m₂, c₂⟩, hg₂, h⟩ := except_bind_eq_ok.mp h
    dsimp only at h
    split at h
    · cases h; exact gcGetStackMin_kept hP hc₁ hg₂
    · cases h
  · cases h

variable {H : TableHash} {os : OsView} {self approxSp : Nat} {st st' : PushState} {p : Ptr}
  {tbl : ThreadTable} {sys sys' : GcSystem}

/-- `GC_push_stack_for` keeps what every refill over the collection's map keeps. -/
theorem gcPushStackFor_kept (hP : LoadKept os.mem P) (hc : P st.cache)
    (h : gcPushStackFor a os self approxSp st p = .ok st') : P st'.cache := by
  unfold gcPushStackFor at h
  obtain ⟨⟨sp, isSelf⟩, -, h⟩ := except_bind_eq_ok.mp h
  obtain ⟨⟨m, lsm, c₁⟩, h₁, h⟩ := except_bind_eq_ok.mp h
  obtain ⟨c₂, h₂, h⟩ := except_bind_eq_ok.mp h
  cases h
  exact checkStackMin_kept hP (stackMinFor_kept hP hc h₁) h₂

/-- A collection keeps every property of the cache that its map's queries keep. -/
theorem gcCollect_kept (hP : LoadKept os.mem P) (hc : P c)
    (h : gcCollect H a os self approxSp tbl c = .ok st) : P st.cache := by
  obtain ⟨s₁, -, h⟩ := except_bind_eq_ok.mp h
  obtain ⟨st₂, h₂, h⟩ := except_bind_eq_ok.mp h
  obtain ⟨s₃, -, h⟩ := except_bind_eq_ok.mp h
  cases h
  obtain ⟨st₁, h₁, h₂⟩ := except_bind_eq_ok.mp h₂
  have hP₁ := walkBuckets_preserves (P := fun st : PushState => P st.cache) (fun st q st' hs h => by
    unfold pushIfWanted at h
    split at h
    · exact gcPushStackFor_kept hP hs h
    · cases h; exact hs) _ _ hc h₁
  split at h₂
  · cases h₂
  · cases h₂; exact hP₁

/-- Over a run whose collections each see a map whose queries keep a property of the cache,
the cache keeps it. -/
theorem sysRun_kept (hP : ∀ t sp os, SysEvent.collect t sp os ∈ es → LoadKept os.mem P)
    (hc : P sys.cache) (h : sysRun H a sys es = some (.ok sys')) : P sys'.cache := by
  induction es generalizing sys with
  | nil => cases h; exact hc
  | cons e es ih =>
    simp only [sysRun] at h
    split at h
    · next sys₁ h₁ =>
      refine ih (fun t sp os h => hP t sp os (List.mem_cons_of_mem _ h)) ?_ h
      cases e with
      | life e =>
        obtain ⟨rt', -, rfl⟩ := sysStep_life_ok h₁
        exact hc
      | collect t sp os =>
        obtain ⟨th, -, hr⟩ := sysStep_collect h₁
        obtain ⟨st, hcl, rfl⟩ := except_map_eq_ok.mp hr.symm
        exact gcCollect_kept (hP t sp os (List.mem_cons_self _ _)) hc hcl
    · next hne => exact (hne _ h).elim

end Kept

section Sane

/-- No answer of the map reports a readable region at address 0: Windows never maps the first
pages of a process. -/
def ZeroUnreadable (mem : List MemRegion) : Prop :=
  ∀ a, (virtualQuery mem a).baseAddress = 0 → (virtualQuery mem a).readWrite = false

/-- A cache whose `last_info` starts at or below `last_address`, inside the user address
space, and is not a readable region at address 0: the loop of `GC_get_stack_min` ends from
it, whatever map it was read from. -/
def QueryCache.Sane (c : QueryCache) : Prop :=
  c.Sound ∧ (c.lastInfo.baseAddress = 0 → c.lastInfo.readWrite = false)

variable {mem : List MemRegion} {c : QueryCache} {lo hi s : Nat}

/-- A map of disjoint regions whose region at address 0 is unreadable answers no query with a
readable region at 0. -/
theorem zeroUnreadable_of (hd : MemMap mem) (h0 : (virtualQuery mem 0).readWrite = false) :
    ZeroUnreadable mem := fun a ha => by
  by_contra hrw
  obtain ⟨r, hrm, -, ha', hq⟩ := virtualQuery_region (Bool.not_eq_false _ ▸ hrw)
  rw [hq] at ha hrw
  rw [virtualQuery_of_mem hd hrm (a := 0) (Nat.le_of_eq ha) (by omega)] at h0
  exact hrw h0

/-- The zero-initialised cache is sane. -/
theorem QueryCache.init_sane : QueryCache.init.Sane := ⟨⟨le_rfl, Nat.zero_le _⟩, fun _ => rfl⟩

/-- Every query over a map that never reports a readable region at 0 keeps a cache sane. -/
theorem loadKept_sane (hz : ZeroUnreadable mem) : LoadKept mem QueryCache.Sane := fun c s hc => by
  refine ⟨c.load_sound hc.1 mem s, ?_⟩
  unfold QueryCache.load
  split_ifs
  exacts [hz s, hc.2]

/-- From a sane cache the loop of `GC_get_stack_min` returns within one pass more than there
are regions below its base, at or below that base, and leaves a sane cache. -/
theorem stackMinLoop_sane (hz : ZeroUnreadable mem) :
    ∀ (n : Nat) (c : QueryCache), c.Sane → (mem.filter (·.base < c.lastInfo.baseAddress)).length < n →
      ∃ m c', stackMinLoop mem n c = .ok (m, c') ∧ m ≤ c.lastInfo.baseAddress ∧ c'.Sane
  | 0, _, _, hn => absurd hn (Nat.not_lt_zero _)
  | n + 1, c, hc, hn => by
    have hc₁ := loadKept_sane hz c (ptrPred c.lastInfo.baseAddress) hc
    simp only [stackMinLoop]
    split
    · next hrw =>
      -- at base 0 the query of `ADDR_LIMIT` fails and keeps the unreadable `last_info`
      have hb : 0 < c.lastInfo.baseAddress := Nat.pos_of_ne_zero fun h => by
        rw [QueryCache.load, h, ptrPred_zero, if_neg (by decide)] at hrw
        exact Bool.false_ne_true ((hc.2 h).symm.trans hrw)
      have hm := hc.1.2
      rw [ptrPred_of_pos hb (by omega), c.load_of_le (by omega)] at hrw hc₁ ⊢
      obtain ⟨m, c', h, hle, hc'⟩ := stackMinLoop_sane hz n _ hc₁
        (Nat.lt_of_lt_of_le (filter_base_lt_length hb hrw) (Nat.le_of_lt_succ hn))
      exact ⟨m, c', h, hle.trans ((virtualQuery_base_le mem _).trans (Nat.sub_le _ _)), hc'⟩
    · exact ⟨_, _, rfl, le_rfl, hc₁⟩

/-- From a sane cache, `GC_get_stack_min(s)` for `s` at or below the end of a stack `[lo, hi)`
returns at or below `lo`: `lo` itself when the walk starts inside the stack, lower when a stale
`last_info` starts it below. -/
theorem gcGetStackMin_sane (hz : ZeroUnreadable mem) (hr : StackRun mem lo hi) (hc : c.Sane)
    (hs : s ≤ hi) : ∃ m c', gcGetStackMin mem s c = .ok (m, c') ∧ m ≤ lo ∧ c'.Sane := by
  have hq := query_kept (loadKept_sane hz) hc s
  have hb : (c.query mem s).lastInfo.baseAddress ≤ hi :=
    (hq.1.1.trans_eq (c.query_lastAddress mem s)).trans hs
  have hn := Nat.lt_succ_of_le (List.filter_sublist (p := (·.base < (c.query mem s).lastInfo.baseAddress))
    (l := mem)).length_le
  by_cases hlo : lo ≤ (c.query mem s).lastInfo.baseAddress
  · have := hr.pos
    have := hr.le_limit
    refine ⟨lo, _, stackMinLoop_run hr _ _ hlo hb hn, le_rfl, ?_⟩
    exact ⟨⟨virtualQuery_base_le _ _, (virtualQuery_base_le _ _).trans (by omega)⟩, hz _⟩
  · obtain ⟨m, c', h, hm, hc'⟩ := stackMinLoop_sane hz _ _ hq hn
    exact ⟨m, c', h, by omega, hc'⟩

/-- Every run from the zero-initialised statics whose collections see maps that never report
a readable region at address 0 keeps the `VirtualQuery` cache sane. -/
theorem sysRun_sane {H : TableHash} {a : Bool} {sys sys' : GcSystem} {es : List SysEvent}
    (hz : ∀ t sp os, SysEvent.collect t sp os ∈ es → ZeroUnreadable os.mem) (hc : sys.cache.Sane)
    (h : sysRun H a sys es = some (.ok sys')) : sys'.cache.Sane :=
  sysRun_kept (fun t sp os he => loadKept_sane (hz t sp os he)) hc h

end Sane

section PushStack

/-- The record's cached minimum is unknown or lies in `[lo, stack_end]`, and its traced
section is NULL or lies in `[lo, stack_end)`. -/
structure StackFits (t : ThreadRep) (lo : Nat) : Prop where
  lastStackMin : t.lastStackMin = addrLimit ∨ (lo ≤ t.lastStackMin ∧ t.lastStackMin ≤ t.stackEnd)
  traced : t.tracedStackSect = 0 ∨ (lo ≤ t.tracedStackSect ∧ t.tracedStackSect < t.stackEnd)

variable {mem : List MemRegion} {c : QueryCache} {lo sp : Nat} {t : ThreadRep} {isSelf : Bool}

/-- Lines 1589-1635 of `GC_push_stack_for` from a sane cache, for a stack pointer in the stack
`[lo, stack_end)`: they return a minimum at or below `sp` and store one at or below `sp` and
at or below the traced section. A stale cache may make both lower than `lo`. -/
theorem stackMinFor_sane (hz : ZeroUnreadable mem) (hr : StackRun mem lo t.stackEnd)
    (hf : StackFits t lo) (hc : c.Sane) (h₁ : lo ≤ sp) (h₂ : sp < t.stackEnd) :
    ∃ m lsm c', stackMinFor mem t sp isSelf c = .ok (m, lsm, c') ∧ m ≤ sp ∧ lsm ≤ sp ∧
      (t.tracedStackSect ≠ 0 → lsm ≤ t.tracedStackSect) := by
  have htr : t.tracedStackSect ≠ 0 → lo ≤ t.tracedStackSect := fun h => (hf.traced.resolve_left h).1
  -- a minimum `GC_get_stack_min` reads at or below `stack_end` lies at or below `lo`
  have hmin : ∀ {s : Nat} {c : QueryCache}, c.Sane → s ≤ t.stackEnd →
      ∃ m c', gcGetStackMin mem s c = .ok (m, c') ∧ m ≤ sp ∧ m ≤ sp ∧
        (t.tracedStackSect ≠ 0 → m ≤ t.tracedStackSect) := fun hc hs => by
    obtain ⟨m, c', h, hm, -⟩ := gcGetStackMin_sane hz hr hc hs
    exact ⟨m, c', h, by omega, by omega, fun h => hm.trans (htr h)⟩
  unfold stackMinFor mayBeInStack
  by_cases hne : t.lastStackMin = addrLimit
  · rw [if_pos hne]
    obtain ⟨m, c', hg, hm⟩ := hmin hc (s := if t.tracedStackSect ≠ 0 then t.tracedStackSect
      else t.stackEnd) (by split_ifs with h; exacts [(hf.traced.resolve_left h).2.le, le_rfl])
    rw [hg]
    exact ⟨m, m, c', rfl, hm⟩
  rw [if_neg hne]
  have ⟨hm₁, hm₂⟩ := hf.lastStackMin.resolve_left hne
  dsimp only
  generalize hl : (if (decide (t.tracedStackSect ≠ 0) && decide (t.lastStackMin > t.tracedStackSect)) = true
    then t.tracedStackSect else t.lastStackMin) = lsm
  have ⟨hl₁, hl₂, hl₃⟩ : lo ≤ lsm ∧ lsm ≤ t.stackEnd ∧
      (t.tracedStackSect ≠ 0 → lsm ≤ t.tracedStackSect) := by
    subst hl
    split_ifs with h
    · simp only [Bool.and_eq_true, decide_eq_true_eq] at h
      have := hf.traced.resolve_left h.1
      exact ⟨this.1, this.2.le, fun _ => le_rfl⟩
    · simp only [Bool.and_eq_true, decide_eq_true_eq, not_and, not_lt] at h
      exact ⟨hm₁, hm₂, h⟩
  clear hl
  by_cases hfast : sp < t.stackEnd ∧ lsm ≤ sp
  · -- `sp` lies between the cached minimum and `stack_end`: no probe
    rw [if_pos (by simpa using hfast)]
    exact ⟨sp, lsm, c, rfl, le_rfl, hfast.2, hl₃⟩
  rw [if_neg (by simpa using hfast)]
  generalize hq : (if (isSelf && decide (sp < lsm)) = true then sp else lsm) = q
  have hq₁ : q ≤ lsm := by subst hq; split_ifs <;> omega
  have hc₁ := query_kept (loadKept_sane hz) hc q
  have hb : (c.query mem q).lastInfo.baseAddress ≤ q :=
    hc₁.1.1.trans_eq (c.query_lastAddress mem q)
  by_cases hin : (c.query mem q).lastInfo.readWrite = true
  · rw [if_pos hin]
    by_cases hout : sp < (c.query mem q).lastInfo.baseAddress ∨ t.stackEnd ≤ sp
    · -- `sp` is outside the probed region: walk down from the cached minimum
      rw [if_pos (by simpa using hout)]
      obtain ⟨m, c', hg, hm⟩ := hmin hc₁ hl₂
      rw [hg]
      exact ⟨m, m, c', rfl, hm⟩
    · -- `sp` lies in the probed region: its base is the minimum
      rw [if_neg (by simpa using hout)]
      push_neg at hout
      exact ⟨_, _, _, rfl, hout.1, hout.1, fun h => by have := hl₃ h; omega⟩
  · -- the probed page is not a stack page: walk down from `stack_end`
    rw [if_neg hin]
    obtain ⟨m, c', hg, hm⟩ := hmin hc₁ le_rfl
    rw [hg]
    exact ⟨m, m, c', rfl, hm⟩

/-- `GC_push_stack_for` assembled from its three parts. -/
theorem gcPushStackFor_of {a : Bool} {os : OsView} {self approxSp : Nat} {st : PushState} {p : Ptr}
    {m lsm : Nat} {c₁ c₂ : QueryCache} (ht : st.table.rep p = t)
    (h₁ : stackPointerFor a os self approxSp t = .ok (sp, isSelf))
    (h₂ : stackMinFor os.mem t sp isSelf st.cache = .ok (m, lsm, c₁))
    (h₃ : checkStackMin a os.mem t sp m c₁ = .ok c₂) :
    gcPushStackFor a os self approxSp st p =
      .ok ⟨st.table.setRep p { t with lastStackMin := lsm }, c₂, st.foundMe || isSelf,
        st.pushed ++ [rangeFor { t with lastStackMin := lsm } sp m]⟩ := by
  subst ht
  simp only [gcPushStackFor, h₁, h₂, h₃, bind, Except.bind]
  rfl

/-- The cache hit of lines 1615-1617: a known minimum at or below `sp`, and at or below
the traced section, with `sp` below `stack_end`, is kept and nothing is probed, whatever
the memory and the cache. -/
theorem stackMinFor_cached (hne : t.lastStackMin ≠ addrLimit)
    (htr : t.tracedStackSect ≠ 0 → t.lastStackMin ≤ t.tracedStackSect) (h₁ : t.lastStackMin ≤ sp)
    (h₂ : sp < t.stackEnd) (mem : List MemRegion) (c : QueryCache) :
    stackMinFor mem t sp isSelf c = .ok (sp, t.lastStackMin, c) := by
  have hl : (if (decide (t.tracedStackSect ≠ 0) && decide (t.lastStackMin > t.tracedStackSect)) = true
      then t.tracedStackSect else t.lastStackMin) = t.lastStackMin := if_neg (by simpa using htr)
  unfold stackMinFor
  rw [if_neg hne]
  dsimp only
  rw [hl, if_pos (by simp [h₁, h₂])]

/-- Without `GC_ASSERTIONS`, `GC_push_stack_for` called twice in succession, from any sane
cache, on a record with the same stack pointer `sp` inside its stack `[lo, stack_end)`: both
calls push `[sp, stack_end)` with the traced sections and return the same count. The first
leaves `last_stack_min` at or below `sp`, so in the second lines 1589-1635 take the cache hit,
and the whole call reads no memory. -/
theorem pushStackFor_repeat {os : OsView} {self approxSp : Nat} {st : PushState} {p : Ptr}
    (hz : ZeroUnreadable os.mem) (hr : StackRun os.mem lo (st.table.rep p).stackEnd)
    (hf : StackFits (st.table.rep p) lo) (hc : st.cache.Sane)
    (hsp : stackPointerFor false os self approxSp (st.table.rep p) = .ok (sp, isSelf))
    (h₁ : lo ≤ sp) (h₂ : sp < (st.table.rep p).stackEnd) :
    ∃ st₁ st₂ n, gcPushStackForCount false os self approxSp st p = .ok (st₁, n) ∧
      gcPushStackForCount false os self approxSp st₁ p = .ok (st₂, n) ∧
      st₁.pushed = st.pushed ++
        [.sections sp (st.table.rep p).stackEnd (st.table.rep p).tracedStackSect] ∧
      st₂.pushed = st₁.pushed ++
        [.sections sp (st.table.rep p).stackEnd (st.table.rep p).tracedStackSect] ∧
      (st₁.table.rep p).lastStackMin ≤ sp ∧
      (∀ mem c, stackMinFor mem (st₁.table.rep p) sp isSelf c =
        .ok (sp, (st₁.table.rep p).lastStackMin, c)) ∧
      ∀ mem, gcPushStackFor false { os with mem := mem } self approxSp st₁ p = .ok st₂ := by
  obtain ⟨m, lsm, c₁, hm, hms, hls, hlt⟩ :
      ∃ m lsm c₁, stackMinFor os.mem (st.table.rep p) sp isSelf st.cache = .ok (m, lsm, c₁) ∧ _ :=
    stackMinFor_sane hz hr hf hc h₁ h₂
  -- the record after the first call, and its cache hit
  obtain ⟨t₁, ht₁⟩ : ∃ t₁, t₁ = { st.table.rep p with lastStackMin := lsm } := ⟨_, rfl⟩
  have hE : t₁.stackEnd = (st.table.rep p).stackEnd := by rw [ht₁]
  have hsp₁ : stackPointerFor false os self approxSp t₁ = .ok (sp, isSelf) := ht₁ ▸ hsp
  have hcache : ∀ mem c, stackMinFor mem t₁ sp isSelf c = .ok (sp, lsm, c) := fun mem c => by
    have := hr.le_limit
    have := maxAppAddress_lt_addrLimit
    have : stackMinFor mem t₁ sp isSelf c = .ok (sp, t₁.lastStackMin, c) :=
      stackMinFor_cached (by rw [ht₁]; dsimp only; omega) (by rw [ht₁]; exact hlt)
        (by rw [ht₁]; exact hls) (hE ▸ h₂) mem c
    rwa [ht₁] at this ⊢
  have e₁ := gcPushStackFor_of rfl hsp hm (rfl : checkStackMin false os.mem _ sp m c₁ = .ok c₁)
  rw [← ht₁] at e₁
  have hrep : (st.table.setRep p t₁).rep p = t₁ := by simp [ThreadTable.setRep]
  -- the second call from any map
  have e₂ : ∀ mem, gcPushStackFor false { os with mem := mem } self approxSp
      ⟨st.table.setRep p t₁, c₁, st.foundMe || isSelf, st.pushed ++ [rangeFor t₁ sp m]⟩ p = _ :=
    fun mem => gcPushStackFor_of hrep hsp₁ (hcache mem c₁) rfl
  refine ⟨_, _, _, by simp only [gcPushStackForCount, hsp, e₁, bind, Except.bind]; rfl,
    by simp only [gcPushStackForCount, hrep, hsp₁, e₂ os.mem, bind, Except.bind, pure, Except.pure,
      Except.ok.injEq, Prod.mk.injEq]; exact ⟨trivial, by rw [hE]⟩,
    by simp [rangeFor, ht₁, hms, h₂], by simp [rangeFor, ht₁, h₂], by simpa [hrep, ht₁] using hls,
    fun mem c => by simpa [hrep, ht₁] using hcache mem c, fun mem => e₂ mem⟩

/-- With the observed `sp` above `stack_end`, the count `GC_push_stack_for` returns is
`stack_end - sp` wrapped around, `2^64 - (sp - stack_end)`: larger than `stack_end`, while
the range pushed is `[stack_min, stack_end)`. -/
theorem gcPushStackForCount_above_end {a : Bool} {os : OsView} {self approxSp : Nat}
    {st st' : PushState} {p : Ptr} {n : BitVec 64}
    (hsp : stackPointerFor a os self approxSp (st.table.rep p) = .ok (sp, isSelf))
    (hE : (st.table.rep p).stackEnd < sp) (hs : sp ≤ addrLimit)
    (h : gcPushStackForCount a os self approxSp st p = .ok (st', n)) :
    n.toNat = (st.table.rep p).stackEnd + (addrLimit + 1 - sp) ∧
      (st.table.rep p).stackEnd < n.toNat := by
  simp only [gcPushStackForCount, hsp, bind, Except.bind] at h
  split at h
  · cases h
  · cases h
    unfold addrLimit at hs ⊢
    rw [BitVec.toNat_sub, BitVec.toNat_ofNat, BitVec.toNat_ofNat, Nat.mod_eq_of_lt (a := sp) (by omega),
      Nat.mod_eq_of_lt (a := (st.table.rep p).stackEnd) (by omega)]
    constructor <;> omega

end PushStack

section Runs

/-- Two stacks, `[0x8000, 0x10000)` and `[0x20000, 0x30000)`, in otherwise free memory. -/
def twoStacks : List MemRegion := [⟨0x8000, 0x10000, true⟩, ⟨0x20000, 0x30000, true⟩]

/-- `twoStacks` is a map of disjoint regions. -/
theorem twoStacks_memMap : MemMap twoStacks := by
  unfold MemMap MemRegion.Disjoint twoStacks
  decide

/-- A suspended record with an unknown minimum. -/
def suspendedRecord (id handle stackEnd : Nat) : ThreadRep :=
  { ThreadRep.zero with
    id := id, handle := handle, stackEnd := stackEnd, lastStackMin := addrLimit, isSuspended := true }

/-- Record 5 (id 2, handle 20) runs on `[0x8000, 0x10000)` and record 6 (id 3, handle 30)
on `[0x20000, 0x30000)`, in buckets 0 and 1 of two. -/
def scanTable : ThreadTable :=
  ⟨fun h => if h = 0 then some 5 else if h = 1 then some 6 else none, fun _ => none,
    fun p => if p = 5 then suspendedRecord 2 20 0x10000 else suspendedRecord 3 30 0x30000,
    false, [5, 6], [], []⟩

/-- `GetThreadContext` reads `sp = 0x9000` for handle 20 and a stale `sp = 0x30100`, above
the stack, for handle 30. -/
def scanOs : OsView :=
  ⟨fun _ => false, fun h => if h = 30 then some 0x30100 else some 0x9000, twoStacks⟩

/-- The scan before any call, with the zero-initialised `VirtualQuery` cache. -/
def scanState : PushState := ⟨scanTable, .init, false, []⟩

/-- In a `GC_ASSERTIONS` build the second call still reads the memory map: the assertion of
line 1637 calls `GC_get_stack_min(stack_end)`, and on a map whose stack started above the
cached minimum the same second call fails it. -/
theorem pushStackFor_repeat_assertion_probes :
    ∃ st₁ st₂, gcPushStackFor true scanOs 1 0 scanState 5 = .ok st₁ ∧
      gcPushStackFor true scanOs 1 0 st₁ 5 = .ok st₂ ∧
      gcPushStackFor true { scanOs with mem := [⟨0xA000, 0x10000, true⟩] } 1 0 st₁ 5 =
        .error (.assertFailed 1637) :=
  ⟨_, _, rfl, rfl, rfl⟩

/-- A collection by thread 2 at `sp = 0x9000` while `GetThreadContext` reports a stale
`sp = 0x30100` for thread 3: `GC_push_stack_for` pushes `[0x20000, 0x30000)` for it but
returns `0x30000 - 0x30100` as a word, `2^64 - 0x100`, far above the `0x10000` bytes
pushed, and `total_size` wraps around to `0x6F00`, below the `0x7000` of thread 2 alone. -/
theorem pushAllStacks_total_wraps :
    ∃ st n st' total, gcPushStackForCount false scanOs 2 0x9000 scanState 6 = .ok (st, n) ∧
      st.pushed = [.all 0x20000 0x30000] ∧ n.toNat = 0xFFFFFFFFFFFFFF00 ∧
      0x30000 - Nat.min 0x30100 0x20000 < n.toNat ∧
      gcPushAllStacksTotal twoBucketHash false scanOs 2 0x9000 false scanState = .ok (st', total) ∧
      st'.pushed = [.sections 0x9000 0x10000 0, .all 0x20000 0x30000] ∧ total.toNat = 0x6F00 := by
  obtain ⟨st, n, h, hp⟩ : ∃ st n, gcPushStackForCount false scanOs 2 0x9000 scanState 6 =
      .ok (st, n) ∧ st.pushed = [.all 0x20000 0x30000] := ⟨_, _, rfl, rfl⟩
  have hsp : stackPointerFor false scanOs 2 0x9000 (scanState.table.rep 6) = .ok (0x30100, false) :=
    rfl
  have hn := (gcPushStackForCount_above_end hsp (by decide) (by decide) h).1
  exact ⟨st, n, _, _, h, hp, by rw [hn]; rfl, by rw [hn]; decide, rfl, rfl, rfl⟩

/-- The OS at the second collection: thread 1's stack has grown down to `0x3C000` and its
stack pointer is `0x3D000`. -/
def grownStackOs : OsView :=
  ⟨fun _ => false, fun h => if h = 12 then some 0x3D000 else none,
    [⟨0xF000, 0x10000, true⟩, ⟨0x3C000, 0x40000, true⟩]⟩

/-- The map once thread 1's stack is freed: thread 2's stack `[0x3E000, 0x3F000)` lies above a
guard page. -/
def reusedStackMem : List MemRegion :=
  [⟨0xF000, 0x10000, true⟩, ⟨0x3D000, 0x3E000, false⟩, ⟨0x3E000, 0x3F000, true⟩]

/-- The OS once thread 1's stack is freed, with thread 2 at `sp`. -/
def reusedStackOs (sp : Nat) : OsView :=
  ⟨fun _ => false, fun h => if h = 13 then some sp else none, reusedStackMem⟩

/-- The main thread creates the detached thread 1 and collects twice; in the second
collection thread 1's stack has grown below its cached minimum `0x3F000`, so
`may_be_in_stack(0x3F000)` caches the region from `0x3C000`. Thread 1 exits, and thread 2
starts on a new stack whose `stack_end` is `0x3F000`. -/
def staleCacheRun : List SysEvent :=
  [.life (.thrInit (some 11)), .life (.pthreadCreate 0 2 101 0x40000 true),
    .life (.startInner 1 (some 12) (some 2)), .collect 0 0xF800 firstScanOs,
    .collect 0 0xF800 grownStackOs, .life (.exitProc 1), .life (.terminate 1),
    .life (.pthreadCreate 0 3 102 0x3F000 true), .life (.startInner 2 (some 13) (some 3))]

/-- `reusedStackMem` is a map of disjoint regions. -/
theorem reusedStackMem_memMap : MemMap reusedStackMem := by
  unfold MemMap MemRegion.Disjoint reusedStackMem
  decide

/-- In `reusedStackMem` the stack of the new thread is the readable run `[0x3E000, 0x3F000)`. -/
theorem reusedStackMem_stackRun : StackRun reusedStackMem 0x3E000 0x3F000 :=
  StackRun.of_region reusedStackMem_memMap (r := ⟨0x3E000, 0x3F000, true⟩) (by decide) rfl
    (by decide) le_rfl (by decide) rfl

/-- Every map of `staleCacheRun` leaves address 0 unmapped. -/
theorem staleCacheRun_zeroUnreadable :
    ∀ t sp os, SysEvent.collect t sp os ∈ staleCacheRun → ZeroUnreadable os.mem := by
  intro t sp os h
  simp only [staleCacheRun, List.mem_cons, List.mem_nil_iff, SysEvent.collect.injEq, reduceCtorEq,
    false_or, or_false] at h
  rcases h with ⟨-, -, rfl⟩ | ⟨-, -, rfl⟩
  · exact zeroUnreadable_of (by unfold MemMap MemRegion.Disjoint firstScanOs; decide) rfl
  · exact zeroUnreadable_of (by unfold MemMap MemRegion.Disjoint grownStackOs; decide) rfl

set_option maxRecDepth 8000 in
/-- The same stale but sane cache for two calls on thread 2's record at `sp = 0x3E800`: both
push `[0x3E800, 0x3F000)`. -/
theorem pushStackFor_repeat_staleCache :
    ∃ sys, sysRun lowByteHash false ⟨Runtime.start mainThread, .init, []⟩ staleCacheRun =
        some (.ok sys) ∧
      ∃ st₁ st₂ n, gcPushStackForCount false (reusedStackOs 0x3E800) 1 0xF800
          ⟨sys.rt.table, sys.cache, false, []⟩ 3 = .ok (st₁, n) ∧
        gcPushStackForCount false (reusedStackOs 0x3E800) 1 0xF800 st₁ 3 = .ok (st₂, n) ∧
        st₁.pushed = [] ++ [.sections 0x3E800 0x3F000 0] ∧
        st₂.pushed = st₁.pushed ++ [.sections 0x3E800 0x3F000 0] ∧
        (st₁.table.rep 3).lastStackMin ≤ 0x3E800 ∧
        (∀ mem c, stackMinFor mem (st₁.table.rep 3) 0x3E800 false c =
          .ok (0x3E800, (st₁.table.rep 3).lastStackMin, c)) ∧
        ∀ mem, gcPushStackFor false { reusedStackOs 0x3E800 with mem := mem } 1 0xF800 st₁ 3 =
          .ok st₂ := by
  obtain ⟨sys, hrun, hE, hT, hL, hsp⟩ : ∃ sys, sysRun lowByteHash false
      ⟨Runtime.start mainThread, .init, []⟩ staleCacheRun = some (.ok sys) ∧
      (sys.rt.table.rep 3).stackEnd = 0x3F000 ∧ (sys.rt.table.rep 3).tracedStackSect = 0 ∧
      (sys.rt.table.rep 3).lastStackMin = addrLimit ∧
      stackPointerFor false (reusedStackOs 0x3E800) 1 0xF800 (sys.rt.table.rep 3) =
        .ok (0x3E800, false) := ⟨_, rfl, rfl, rfl, rfl, rfl⟩
  have hr : StackRun (reusedStackOs 0x3E800).mem 0x3E000
      ((⟨sys.rt.table, sys.cache, false, []⟩ : PushState).table.rep 3).stackEnd :=
    hE ▸ reusedStackMem_stackRun
  have hz : ZeroUnreadable (reusedStackOs 0x3E800).mem := zeroUnreadable_of reusedStackMem_memMap rfl
  have h := pushStackFor_repeat hz hr
    ⟨.inl hL, .inl hT⟩ (sysRun_sane staleCacheRun_zeroUnreadable QueryCache.init_sane hrun) hsp
    (by decide) (by dsimp only; rw [hE]; decide)
  dsimp only at h
  rw [hE, hT] at h
  exact ⟨sys, hrun, h⟩

end Runs

end Win32GcThreads
