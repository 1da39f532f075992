import Win32GcThreads.NextStack

/-!
# The walk of `GC_get_stack_min` and the shared `VirtualQuery` cache

`GC_get_stack_min(s)` reads the region of `s`, then steps to the region just below the base
it holds for as long as that region is readable and unguarded, and returns the last base.
Over a memory map of disjoint regions whose region at address 0 is not readable, the bases it
visits strictly decrease and the walk ends at an address at or below `s`. Every base after the
first is positive, since a readable region holding an address below a base cannot start at 0;
the first base is 0 exactly when `s` lies in the region at address 0. There `bottom - 1`
wraps to `ADDR_LIMIT`, where `VirtualQuery` fails, and the call returns 0 with `last_info`
still describing region 0.

`GC_get_stack_min` and `may_be_in_stack` share the cache `last_address`, `last_info`. Every
sequence of their calls from the zero-initialised statics keeps `last_info` an answer of the
map, equal to `VirtualQuery(last_address)` whenever that is a user address, so
`may_be_in_stack(s)` answers what a fresh `VirtualQuery(s)` reports at every user address.
-/

namespace Win32GcThreads

/-- The bases the loop of `GC_get_stack_min` visits from base `b`: `b`, then, while the
region of `b - 1` is readable and unguarded, the walk from that region's base. -/
inductive BaseWalk (mem : List MemRegion) : Nat → List Nat → Prop
  | stop {b : Nat} : (virtualQuery mem (b - 1)).readWrite = false → BaseWalk mem b [b]
  | step {b : Nat} {bs : List Nat} : (virtualQuery mem (b - 1)).readWrite = true →
      BaseWalk mem (virtualQuery mem (b - 1)).baseAddress bs → BaseWalk mem b (b :: bs)

section Walk

variable {mem : List MemRegion} {b : Nat} {bs : List Nat}

/-- With the region of address 0 unreadable, the region below a base is readable only above 0. -/
theorem pos_of_readWrite_below (h0 : (virtualQuery mem 0).readWrite = false)
    (hrw : (virtualQuery mem (b - 1)).readWrite = true) : 0 < b :=
  Nat.pos_of_ne_zero fun hb => by simp [hb, h0] at hrw

/-- In a map whose region at address 0 is unreadable, no readable region starts at 0: it
would hold address 0. -/
theorem base_pos_of_readWrite (hd : MemMap mem) (h0 : (virtualQuery mem 0).readWrite = false)
    {a : Nat} (hrw : (virtualQuery mem a).readWrite = true) : 0 < (virtualQuery mem a).baseAddress := by
  obtain ⟨r, hrm, -, ha, hq⟩ := virtualQuery_region hrw
  rw [hq] at hrw ⊢
  refine Nat.pos_of_ne_zero fun hr => ?_
  rw [virtualQuery_of_mem hd hrm (Nat.le_of_eq hr) (by omega)] at h0
  exact Bool.false_ne_true (h0.symm.trans hrw)

/-- Every base of a walk lies at or below its first one. -/
theorem BaseWalk.le_head (hw : BaseWalk mem b bs) : ∀ x ∈ bs, x ≤ b := by
  induction hw with
  | stop => simp
  | @step b bs _ _ ih =>
    have := virtualQuery_base_le mem (b - 1)
    simp only [List.mem_cons, forall_eq_or_imp, le_refl, true_and]
    exact fun x hx => (ih x hx).trans (by omega)

/-- The bases strictly decrease. -/
theorem BaseWalk.decreasing (h0 : (virtualQuery mem 0).readWrite = false)
    (hw : BaseWalk mem b bs) : bs.Pairwise (· > ·) := by
  induction hw with
  | stop => exact List.pairwise_singleton _ _
  | @step b bs hrw hw ih =>
    have hb := pos_of_readWrite_below h0 hrw
    have := virtualQuery_base_le mem (b - 1)
    exact List.pairwise_cons.mpr ⟨fun x hx => by have := hw.le_head x hx; omega, ih⟩

/-- From a positive base, every base of the walk is positive: `bottom - 1` never wraps. -/
theorem BaseWalk.pos (hd : MemMap mem) (h0 : (virtualQuery mem 0).readWrite = false)
    (hw : BaseWalk mem b bs) (hb : 0 < b) : ∀ x ∈ bs, 0 < x := by
  induction hw with
  | stop => simpa using hb
  | step hrw _ ih =>
    simp only [List.mem_cons, forall_eq_or_imp]
    exact ⟨hb, ih (base_pos_of_readWrite hd h0 hrw)⟩

/-- In a map, an answer with base 0 is the answer for address 0. -/
theorem virtualQuery_eq_zero (hd : MemMap mem) {y : Nat} (h : (virtualQuery mem y).baseAddress = 0) :
    virtualQuery mem y = virtualQuery mem 0 := by
  unfold virtualQuery at h
  split at h
  · next r hr =>
    have hin := List.find?_some hr
    simp only [Bool.and_eq_true, decide_eq_true_eq] at hin
    rw [virtualQuery_of_mem hd (List.mem_of_find?_eq_some hr) hin.1 hin.2,
      virtualQuery_of_mem hd (List.mem_of_find?_eq_some hr) (Nat.le_of_eq h) (by omega)]
  · dsimp only at h
    rw [h]

/-- The loop of `GC_get_stack_min` from a cache holding an answer of the map follows the walk
from its base and returns its last base `m`, given more passes than regions below that base.
It leaves the query of `m - 1`; for `m = 0` that is the failed query of `ADDR_LIMIT`, which
keeps the answer for region 0. -/
theorem stackMinLoop_walk (hd : MemMap mem) (h0 : (virtualQuery mem 0).readWrite = false) :
    ∀ (n : Nat) (c : QueryCache) (y : Nat), y ≤ maxAppAddress → c.lastInfo = virtualQuery mem y →
      (mem.filter (·.base < c.lastInfo.baseAddress)).length < n →
      ∃ bs m, BaseWalk mem c.lastInfo.baseAddress bs ∧ bs.getLast? = some m ∧
        stackMinLoop mem n c = .ok (m, ⟨ptrPred m, virtualQuery mem (m - 1)⟩)
  | 0, _, _, _, _, hn => absurd hn (Nat.not_lt_zero _)
  | n + 1, c, y, hy, hc, hn => by
    have hby : c.lastInfo.baseAddress ≤ y := hc ▸ virtualQuery_base_le mem y
    simp only [stackMinLoop]
    rcases Nat.eq_zero_or_pos c.lastInfo.baseAddress with hb | hb
    · -- `bottom - 1` wraps: the query of `ADDR_LIMIT` fails and keeps region 0
      have hc0 : c.lastInfo = virtualQuery mem 0 := hc.trans (virtualQuery_eq_zero hd (hc ▸ hb))
      rw [QueryCache.load, hb, ptrPred_zero, if_neg (show ¬addrLimit ≤ maxAppAddress by decide)]
      simp only [hc0, h0, Bool.false_eq_true, ↓reduceIte]
      exact ⟨[0], 0, .stop h0, rfl, rfl⟩
    generalize hbb : c.lastInfo.baseAddress = b at hb hby hn ⊢
    rw [ptrPred_of_pos hb (by omega), c.load_of_le (by omega)]
    dsimp only
    by_cases hrw : (virtualQuery mem (b - 1)).readWrite = true
    · obtain ⟨bs, m, hw, hm, hl⟩ := stackMinLoop_walk hd h0 n ⟨b - 1, virtualQuery mem (b - 1)⟩
        (b - 1) (by omega) rfl
        (Nat.lt_of_lt_of_le (filter_base_lt_length hb hrw) (Nat.le_of_lt_succ hn))
      have hne : bs ≠ [] := by rintro rfl; cases hm
      refine ⟨b :: bs, m, .step hrw hw, ?_, by rw [if_pos hrw, hl]⟩
      rwa [List.getLast?_cons, List.getLast?_eq_getLast bs hne, Option.getD_some,
        ← List.getLast?_eq_getLast bs hne]
    · rw [Bool.not_eq_true] at hrw
      exact ⟨[b], b, .stop hrw, rfl, by rw [if_neg (by simp [hrw]), ptrPred_of_pos hb (by omega)]⟩

end Walk

/-- A call that reads or refreshes the `VirtualQuery` cache. -/
inductive ProbeCall where
  /-- `GC_get_stack_min(s)`. -/
  | getStackMin (s : Nat)
  /-- `may_be_in_stack(s)`. -/
  | mayBeInStack (s : Nat)
  deriving DecidableEq, Repr

/-- The cache after one call. -/
def probeStep (mem : List MemRegion) (c : QueryCache) : ProbeCall → Except Fault QueryCache
  | .getStackMin s => return (← gcGetStackMin mem s c).2
  | .mayBeInStack s => return (mayBeInStack mem s c).2

/-- The cache after calls in order. -/
def probeRun (mem : List MemRegion) (c : QueryCache) (calls : List ProbeCall) :
    Except Fault QueryCache :=
  calls.foldlM (probeStep mem) c

section Probe

variable {mem : List MemRegion} {c : QueryCache}

/-- The zero-initialised statics describe a map whose region at address 0 is unreadable. -/
theorem QueryCache.init_fresh (h0 : (virtualQuery mem 0).readWrite = false) :
    QueryCache.init.Fresh mem := by
  have hb := virtualQuery_base_le mem 0
  have he : (⟨0, false⟩ : MemInfo) = virtualQuery mem 0 := by
    cases h : virtualQuery mem 0
    rw [h] at hb h0
    simp only [Nat.le_zero] at hb h0
    rw [hb, h0]
  exact ⟨⟨0, Nat.zero_le _, he⟩, fun _ => he⟩

/-- The cache `GC_get_stack_min` leaves after returning a base `m` of the user address space
describes the map. -/
theorem QueryCache.fresh_below {m : Nat} (hm : m ≤ maxAppAddress) :
    QueryCache.Fresh ⟨ptrPred m, virtualQuery mem (m - 1)⟩ mem := by
  refine ⟨⟨m - 1, by omega, rfl⟩, fun h => ?_⟩
  rcases Nat.eq_zero_or_pos m with rfl | hm₀
  · dsimp only at h
    exact absurd h (show ¬addrLimit ≤ maxAppAddress by decide)
  · dsimp only
    rw [ptrPred_of_pos hm₀ (by omega)]

/-- A cache that describes the map has its base at or below its address. -/
theorem QueryCache.Fresh.sound (hc : c.Fresh mem) : c.Sound := by
  obtain ⟨y, hy, he⟩ := hc.answer
  have hb : c.lastInfo.baseAddress ≤ maxAppAddress := he ▸ (virtualQuery_base_le mem y).trans hy
  refine ⟨?_, hb⟩
  by_cases ha : c.lastAddress ≤ maxAppAddress
  · rw [hc.current ha]
    exact virtualQuery_base_le mem _
  · omega

/-- From a cache that describes the map, `GC_get_stack_min(s)` follows the walk from the base
it queries for `s`, returns its last base and leaves the query below that base. -/
theorem gcGetStackMin_fresh (hd : MemMap mem) (h0 : (virtualQuery mem 0).readWrite = false)
    (hc : c.Fresh mem) (s : Nat) :
    ∃ bs m, BaseWalk mem (c.query mem s).lastInfo.baseAddress bs ∧ bs.getLast? = some m ∧
      gcGetStackMin mem s c = .ok (m, ⟨ptrPred m, virtualQuery mem (m - 1)⟩) := by
  obtain ⟨y, hy, he⟩ := (hc.query s).answer
  exact stackMinLoop_walk hd h0 _ _ y hy he (Nat.lt_succ_of_le (List.filter_sublist _).length_le)

/-- One call keeps the cache describing the map. -/
theorem probeStep_fresh (hd : MemMap mem) (h0 : (virtualQuery mem 0).readWrite = false)
    (hc : c.Fresh mem) : ∀ call, ∃ c', probeStep mem c call = .ok c' ∧ c'.Fresh mem
  | .getStackMin s => by
    obtain ⟨bs, m, hw, hm, hl⟩ := gcGetStackMin_fresh hd h0 hc s
    have hle : m ≤ maxAppAddress :=
      (hw.le_head m (List.mem_of_getLast?_eq_some hm)).trans (hc.query s).sound.2
    exact ⟨_, by simp [probeStep, hl, pure, Except.pure], QueryCache.fresh_below hle⟩
  | .mayBeInStack s => ⟨_, rfl, hc.query s⟩

/-- Every sequence of probes keeps a cache that describes the map. -/
theorem probeRun_fresh (hd : MemMap mem) (h0 : (virtualQuery mem 0).readWrite = false)
    (hc : c.Fresh mem) (calls : List ProbeCall) : ∃ c', probeRun mem c calls = .ok c' ∧ c'.Fresh mem := by
  induction calls generalizing c with
  | nil => exact ⟨c, rfl, hc⟩
  | cons call calls ih =>
    obtain ⟨c₁, h₁, hc₁⟩ := probeStep_fresh hd h0 hc call
    obtain ⟨c₂, h₂, hc₂⟩ := ih hc₁
    exact ⟨c₂, by simp only [probeRun, List.foldlM_cons, h₁, except_ok_bind]; exact h₂, hc₂⟩

/-- Over a map of disjoint regions whose region at address 0 is not readable, every sequence
of `GC_get_stack_min` and `may_be_in_stack` calls from the zero-initialised statics returns
and leaves a cache that describes the map. From there, at every user address `s`,
`may_be_in_stack(s)` answers what `VirtualQuery(s)` reports, and `GC_get_stack_min(s)` returns
the last base of the walk from the base of the region of `s`, at or below `s`. The bases
strictly decrease. When the first one is positive they all are, so `bottom - 1` never wraps;
when it is 0, `bottom - 1` wraps to `ADDR_LIMIT` and the call returns 0. -/
theorem gcGetStackMin_walk_cache (hd : MemMap mem) (h0 : (virtualQuery mem 0).readWrite = false)
    (calls : List ProbeCall) :
    ∃ c, probeRun mem .init calls = .ok c ∧ c.Fresh mem ∧
      (∀ s ≤ maxAppAddress, (mayBeInStack mem s c).1 = (virtualQuery mem s).readWrite) ∧
      ∀ s ≤ maxAppAddress, ∃ bs m, BaseWalk mem (virtualQuery mem s).baseAddress bs ∧
        bs.getLast? = some m ∧
        gcGetStackMin mem s c = .ok (m, ⟨ptrPred m, virtualQuery mem (m - 1)⟩) ∧ m ≤ s ∧
        bs.Pairwise (· > ·) ∧
        (0 < (virtualQuery mem s).baseAddress → ∀ b ∈ bs, 0 < b ∧ ptrPred b = b - 1) ∧
        ((virtualQuery mem s).baseAddress = 0 → bs = [0] ∧ m = 0 ∧ ptrPred m = addrLimit) := by
  obtain ⟨c, hrun, hc⟩ := probeRun_fresh hd h0 (QueryCache.init_fresh h0) calls
  refine ⟨c, hrun, hc, fun s hs => by rw [mayBeInStack_fresh hc hs], fun s hs => ?_⟩
  obtain ⟨bs, m, hw, hm, hl⟩ := gcGetStackMin_fresh hd h0 hc s
  rw [hc.lastInfo_query hs] at hw
  have hhead := hw.le_head
  have hbs := virtualQuery_base_le mem s
  refine ⟨bs, m, hw, hm, hl, (hhead m (List.mem_of_getLast?_eq_some hm)).trans hbs, hw.decreasing h0,
    fun hb b hb' => ⟨hw.pos hd h0 hb b hb', ptrPred_of_pos (hw.pos hd h0 hb b hb')
      (by have := hhead b hb'; omega)⟩, fun hb => ?_⟩
  rw [hb] at hw hhead
  have hbs0 : bs = [0] := by
    cases hw with
    | stop _ => rfl
    | step hrw _ => exact absurd (pos_of_readWrite_below h0 hrw) (Nat.lt_irrefl 0)
  subst hbs0
  cases hm
  exact ⟨rfl, rfl, rfl⟩

/-- A map whose region at address 0 is a 64 KiB region that is not readable. -/
def zeroPageMap : List MemRegion := [⟨0, 0x10000, false⟩]

/-- For `s` in the region at address 0, the first base `GC_get_stack_min(s)` reads is 0, so
its loop computes `bottom - 1` at `bottom == 0`, which wraps to `ADDR_LIMIT`. `VirtualQuery`
fails there, and the call returns 0 with `last_address = ADDR_LIMIT` and `last_info` still
describing region 0. -/
theorem gcGetStackMin_zeroRegion_wraps :
    MemMap zeroPageMap ∧ (virtualQuery zeroPageMap 0).readWrite = false ∧
    (QueryCache.init.query zeroPageMap 0x100).lastInfo.baseAddress = 0 ∧ ptrPred 0 = addrLimit ∧
    maxAppAddress < addrLimit ∧
    gcGetStackMin zeroPageMap 0x100 .init = .ok (0, ⟨addrLimit, virtualQuery zeroPageMap 0⟩) :=
  ⟨List.pairwise_singleton _ _, rfl, rfl, rfl, by decide, rfl⟩

/-- A stack of two adjacent readable regions `[0x8000, 0x9000)` and `[0x9000, 0x10000)` above
free memory. -/
def splitStack : List MemRegion := [⟨0x8000, 0x9000, true⟩, ⟨0x9000, 0x10000, true⟩]

/-- `splitStack` is a map of disjoint regions. -/
theorem splitStack_memMap : MemMap splitStack := by
  unfold MemMap MemRegion.Disjoint splitStack
  decide

/-- `may_be_in_stack(0x9800)` and then `GC_get_stack_min(0x9800)` on `splitStack`: the walk
starts from the base `0x9000` of the upper region. -/
theorem gcGetStackMin_walk_splitStack :
    ∃ c, probeRun splitStack .init [.mayBeInStack 0x9800, .getStackMin 0x9800] = .ok c ∧
      c.Fresh splitStack ∧ (mayBeInStack splitStack 0x9800 c).1 = true ∧
      ∃ bs m, BaseWalk splitStack 0x9000 bs ∧ bs.getLast? = some m ∧
        gcGetStackMin splitStack 0x9800 c = .ok (m, ⟨ptrPred m, virtualQuery splitStack (m - 1)⟩) := by
  obtain ⟨c, hrun, hc, hmay, hmin⟩ :=
    gcGetStackMin_walk_cache splitStack_memMap rfl [.mayBeInStack 0x9800, .getStackMin 0x9800]
  obtain ⟨bs, m, hw, hm, hl, -⟩ := hmin 0x9800 (by decide)
  exact ⟨c, hrun, hc, (hmay _ (by decide)).trans rfl, bs, m, hw, hm, hl⟩

end Probe

end Win32GcThreads
