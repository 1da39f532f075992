import Win32GcThreads.NativeReclaim

/-!
# The start routine of the native build

`GC_win32_start_inner` registers the thread `GC_CreateThread` created, and the `__finally`
around the start routine unregisters it. Either call can fault: `GC_register_my_thread` aborts
with "Threads explicit registering is not previously enabled" while `GC_need_to_lock` is unset,
and `GC_delete_thread` walks off the end of its bucket when the thread has no record, as after a
start routine that called `GC_unregister_my_thread` itself.

Under the contract of the leak-freedom results, and when no thread calls
`GC_unregister_my_thread` inside its start routine, neither happens. `GC_CreateThread` sets
`GC_need_to_lock` before the thread exists and nothing clears it; no record carries the id of a
thread that has not started; and a thread inside its start routine keeps its record, since every
other deletion removes the record of another running thread, whose id differs. So
`GC_win32_start_inner` links a fresh record whenever `DuplicateHandle` and the allocator succeed
and the OS gave the thread a stack base, and the `__finally` deletes exactly the thread's own
record.
-/

namespace Win32GcThreads

/-- `GC_lookup_thread(w)` finds a record. -/
def IdRegistered (H : TableHash) (s : ThreadTable) (w : Nat) : Prop :=
  ∃ p, gcLookupThread H s w = .ok (some p)

section Frames

variable {H : TableHash} {s s' : ThreadTable} {B : Nat → List Ptr}

/-- A lookup reads the links and the ids only. -/
theorem LinksKept.gcLookupThread_eq (h : LinksKept s s') (w : Nat) :
    gcLookupThread H s' w = gcLookupThread H s w := by
  have hf : (fun p => (s'.rep p).id == w) = fun p => (s.rep p).id == w :=
    funext fun p => by rw [h.id]
  simp only [gcLookupThread, ThreadTable.fuel, hf, h.heads, h.next, h.allocated]

/-- The id of every linked record is registered. -/
theorem idRegistered_of_mem (hi : TableInv H s B) {p : Ptr} (hp : p ∈ tableRecords H B) :
    IdRegistered H s (s.rep p).id := by
  obtain ⟨h, hh, hm⟩ := mem_tableRecords.mp hp
  rw [IdRegistered, gcLookupThread_eq hi, hi.hashed h hh p hm]
  obtain ⟨q, hq⟩ := Option.isSome_iff_exists.mp
    (List.find?_isSome.mpr ⟨p, hm, by simp⟩ : ((B h).find? fun q => (s.rep q).id == (s.rep p).id).isSome)
  exact ⟨q, by rw [hq]⟩

/-- `GC_register_my_thread_inner` registers its id and keeps every id registered. -/
theorem gcRegisterMyThreadInner_registered {alloc : Option Ptr} {sb w self : Nat}
    {dup : Option Nat} {me : Ptr} (hi : TableInv H s B) (ha : AllocAnswer s alloc)
    (hr : gcRegisterMyThreadInner H s sb w self dup alloc = .ok (s', me)) :
    IdRegistered H s' w ∧ ∀ v, IdRegistered H s v → IdRegistered H s' v := by
  obtain ⟨hme, hinv, ⟨hd, -, -, hrep⟩, hother, -⟩ := gcRegisterMyThreadInner_spec hi ha hr
  have hmem := fun q => mem_tableRecords_linkFront_iff (B := B) (r := me) (q := q) (H.index_lt w)
  refine ⟨?_, fun v ⟨p, hp⟩ => ?_⟩
  · have := idRegistered_of_mem hinv ((hmem me).mpr (.inl rfl))
    rwa [hrep, ThreadRep.registered_id] at this
  · obtain ⟨hpm, rfl⟩ := gcLookupThread_mem hi hp
    have hpme : p ≠ me := fun e => hme (e ▸ hpm)
    have := idRegistered_of_mem hinv ((hmem p).mpr (.inr hpm))
    rwa [hother p hpme] at this

/-- So does `GC_register_my_thread`, whichever way it answers. -/
theorem gcRegisterMyThreadNative_registered {nl : Bool} {alloc : Option Ptr} {sb w : Nat}
    {dup : Option Nat} {st : RegisterStatus} (hi : TableInv H s B) (ha : AllocAnswer s alloc)
    (hr : gcRegisterMyThreadNative H nl s w sb dup alloc = .ok (s', st)) :
    IdRegistered H s' w ∧ ∀ v, IdRegistered H s v → IdRegistered H s' v := by
  unfold gcRegisterMyThreadNative at hr
  cases nl
  · cases hr
  cases hl : gcLookupThread H s w with
  | error e => simp [hl] at hr
  | ok r =>
    cases r with
    | none =>
      simp only [hl, Bool.not_true, Bool.false_eq_true, if_false, except_ok_bind] at hr
      obtain ⟨⟨s₁, me⟩, h₁, h₂⟩ := except_bind_eq_ok.mp hr
      cases h₂
      exact gcRegisterMyThreadInner_registered hi ha h₁
    | some p =>
      simp only [hl, Bool.not_true, Bool.false_eq_true, if_false, except_ok_bind] at hr
      cases hr
      exact ⟨⟨p, hl⟩, fun _ h => h⟩

/-- `GC_delete_thread(w)` keeps every other id registered. -/
theorem gcDeleteThread_registered (hi : TableInv H s B) {w : Nat}
    (hr : gcDeleteThread H s w = .ok s') {v : Nat} (hne : v ≠ w) (hv : IdRegistered H s v) :
    IdRegistered H s' v := by
  obtain ⟨p, hp⟩ := hv
  obtain ⟨hpm, rfl⟩ := gcLookupThread_mem hi hp
  obtain ⟨pre, q, post, hB, hfind, rfl⟩ := gcDeleteThread_found hi hr
  have hqw : (s.rep q).id = w := by simpa using List.find?_some hfind
  have hpq : p ≠ q := fun e => hne (e ▸ hqw)
  have := idRegistered_of_mem (gcDeleteThread_inv hi hB)
    ((mem_tableRecords_unlink_iff hi (H.index_lt w) hB).mpr ⟨hpm, hpq⟩)
  rwa [deleteFound_rep] at this

end Frames

section StartContract

variable (H : TableHash) (assertions : Bool)

/-- The event keeps the contract, and a thread inside the start routine `GC_win32_start_inner`
called does not call `GC_unregister_my_thread`: the `__finally` does. -/
def NativeEvent.keepsStartContract (rt : NativeRuntime) (e : NativeEvent) : Bool :=
  e.keepsContract H rt && match e with
    | .unregister t => (rt.thread? t).any fun th => !th.inStart
    | _ => true

/-- The native processes reached from a fresh one, whose main thread runs no start routine, by
events that keep this contract. -/
inductive NativeStartReachable : NativeSystem → Prop
  | start (main : NativeThread) (hs : main.startInfo = none) (hi : main.inStart = false) :
      NativeStartReachable ⟨NativeRuntime.start main, .init, []⟩
  | step {sys sys' : NativeSystem} {e : NativeEvent} : NativeStartReachable sys →
      e.keepsStartContract H sys.rt = true → nativeStep H assertions sys e = some (.ok sys') →
      NativeStartReachable sys'

/-- `nativeRun`, stopping with `none` at the first event that breaks this contract. -/
def nativeRunStartContract (sys : NativeSystem) :
    List NativeEvent → Option (Except Fault NativeSystem)
  | [] => some (.ok sys)
  | e :: es =>
    if e.keepsStartContract H sys.rt then
      match nativeStep H assertions sys e with
      | some (.ok sys') => nativeRunStartContract sys' es
      | r => r
    else none

/-- What the start routine relies on. -/
structure NativeStartInv (rt : NativeRuntime) : Prop where
  /-- A thread inside its start routine is running and registered. -/
  inStart : ∀ (t : Nat) (th : NativeThread), rt.thread? t = some th → th.inStart = true →
    th.alive = true ∧ IdRegistered H rt.table th.win32Id
  /-- `GC_CreateThread` sets `GC_need_to_lock` before the thread it creates exists. -/
  needToLock : ∀ (t : Nat) (th : NativeThread), rt.thread? t = some th →
    th.startInfo.isSome = true → rt.needToLock = true

end StartContract

section StartSteps

variable {H : TableHash} {rt rt' : NativeRuntime}

theorem NativeEvent.keepsContract_of_keepsStartContract {e : NativeEvent} {rt : NativeRuntime}
    (hc : e.keepsStartContract H rt = true) : e.keepsContract H rt = true := by
  simp only [NativeEvent.keepsStartContract, Bool.and_eq_true] at hc
  exact hc.1

namespace NativeStartInv

/-- The threads stay, `GC_need_to_lock` stays set, and every thread inside its start routine
stays registered. -/
theorem of_frame (hs : NativeStartInv H rt) (hth : rt'.threads = rt.threads)
    (hnl : rt.needToLock = true → rt'.needToLock = true)
    (hk : ∀ (t : Nat) (th : NativeThread), rt.thread? t = some th → th.inStart = true →
      IdRegistered H rt.table th.win32Id → IdRegistered H rt'.table th.win32Id) :
    NativeStartInv H rt' := by
  refine ⟨fun t th h hin => ?_, fun t th h hsi => hnl (hs.needToLock t th ?_ hsi)⟩
  · have h' : rt.thread? t = some th := by rwa [NativeRuntime.thread?, ← hth]
    obtain ⟨ha, hr⟩ := hs.inStart t th h' hin
    exact ⟨ha, hk t th h' hin hr⟩
  · rwa [NativeRuntime.thread?, ← hth]

/-- Thread `t` becomes `x`. -/
theorem of_setThread {t : Nat} {x : NativeThread} (hs : NativeStartInv H rt)
    (hth : rt'.threads = rt.threads.set t x) (hnl : rt'.needToLock = rt.needToLock)
    (hk : ∀ (j : Nat) (y : NativeThread), j ≠ t → rt.thread? j = some y → y.inStart = true →
      IdRegistered H rt.table y.win32Id → IdRegistered H rt'.table y.win32Id)
    (hx : x.inStart = true → x.alive = true ∧ IdRegistered H rt'.table x.win32Id)
    (hxs : x.startInfo.isSome = true → rt.needToLock = true) :
    NativeStartInv H rt' := by
  refine ⟨fun j y h hin => ?_, fun j y h hsi => ?_⟩
  · rw [NativeRuntime.thread?, hth] at h
    rcases getElem?_set_cases h with ⟨-, rfl⟩ | ⟨hjt, hy⟩
    · exact hx hin
    · obtain ⟨ha, hr⟩ := hs.inStart j y hy hin
      exact ⟨ha, hk j y hjt hy hin hr⟩
  · rw [NativeRuntime.thread?, hth] at h
    rw [hnl]
    rcases getElem?_set_cases h with ⟨-, rfl⟩ | ⟨-, hy⟩
    · exact hxs hsi
    · exact hs.needToLock j y hy hsi

/-- A new thread, outside any start routine. -/
theorem of_append {x : NativeThread} (hs : NativeStartInv H rt)
    (hth : rt'.threads = rt.threads ++ [x]) (htab : rt'.table = rt.table)
    (hnl : rt.needToLock = true → rt'.needToLock = true) (hx : x.inStart = false)
    (hxs : x.startInfo.isSome = true → rt'.needToLock = true) :
    NativeStartInv H rt' := by
  refine ⟨fun j y h hin => ?_, fun j y h hsi => ?_⟩ <;>
    rw [NativeRuntime.thread?, hth] at h <;>
    rcases getElem?_concat_cases h with hy | ⟨-, rfl⟩
  · rw [htab]; exact hs.inStart j y hy hin
  · simp [hx] at hin
  · exact hnl (hs.needToLock j y hy hsi)
  · exact hxs hsi

theorem start {main : NativeThread} (hs : main.startInfo = none) (hi : main.inStart = false) :
    NativeStartInv H (NativeRuntime.start main) := by
  have one : ∀ {t : Nat} {th : NativeThread}, (NativeRuntime.start main).thread? t = some th →
      th = main := by
    intro t th h
    cases t <;> simp [NativeRuntime.start, NativeRuntime.thread?] at h
    exact h.symm
  exact ⟨fun t th h hin => by simp [one h, hi] at hin, fun t th h hsi => by simp [one h, hs] at hsi⟩

/-- The thread `t` unregisters and ends: the `__finally` of `GC_win32_start_inner`, or
`GC_ExitThread`. -/
theorem of_unregisterEnd {B : Nat → List Ptr} {s' : ThreadTable} {t : Nat} {th : NativeThread}
    (hs : NativeStartInv H rt)
    (hi : NativeInv H rt.table rt.threads rt.startInfos rt.initialized B)
    (hth : rt.thread? t = some th) (ha : th.alive = true)
    (hr : gcUnregisterMyThreadNative H rt.table th.win32Id = .ok s') :
    NativeStartInv H ((rt.setTable s').setThread t { th with alive := false, inStart := false }) :=
  hs.of_setThread rfl rfl (fun j y hjt hy hin hreg => gcDeleteThread_registered hi.table hr
    (fun e => hjt (hi.threads j t y th hy hth (hs.inStart j y hy hin).1 ha e)) hreg) (by simp)
    fun hsi => hs.needToLock t th hth hsi

variable {a : Bool} {sys sys' : NativeSystem}

/-- Every step that keeps the contract keeps what the start routine relies on. -/
theorem step {e : NativeEvent} (hi : sys.rt.Inv H) (hs : NativeStartInv H sys.rt)
    (hc : e.keepsStartContract H sys.rt = true) (h : nativeStep H a sys e = some (.ok sys')) :
    NativeStartInv H sys'.rt := by
  obtain ⟨B, hi⟩ := hi
  cases e with
  | thrInit dup =>
    obtain ⟨r, h₁, h₂⟩ := Option.map_eq_some'.mp h
    obtain ⟨rt', rfl, rfl⟩ := except_map_eq_ok.mp h₂
    simp only [gcThrInitNative, Option.bind_eq_bind, Option.bind_eq_some] at h₁
    obtain ⟨main, -, h₁⟩ := h₁
    split at h₁
    · cases h₁
    obtain ⟨⟨s₁, me⟩, hr, rfl⟩ := except_map_eq_ok.mp (Option.some.inj h₁)
    have hk := (gcRegisterMyThreadInner_registered hi.table
      (show AllocAnswer _ none from trivial) hr).2
    exact hs.of_frame rfl id fun _ _ _ _ => hk _
  | createThread parent w sb psi created =>
    obtain ⟨rt', h₁, h₂⟩ := Option.map_eq_some'.mp h
    cases h₂
    simp only [gcCreateThread, Option.bind_eq_bind, Option.bind_eq_some] at h₁
    obtain ⟨th, -, h₁⟩ := h₁
    split at h₁
    · cases h₁
    cases psi with
    | none => cases h₁; exact hs
    | some b =>
      simp only at h₁
      split at h₁
      · cases h₁
      split at h₁
      · cases h₁
        exact hs.of_frame rfl (fun _ => rfl) fun _ _ _ _ h => h
      split at h₁
      · cases h₁
        exact hs.of_append rfl rfl (fun _ => rfl) rfl fun _ => rfl
      · cases h₁
  | foreignCreate w sb =>
    obtain ⟨rt', h₁, h₂⟩ := Option.map_eq_some'.mp h
    cases h₂
    unfold nativeForeignCreate at h₁
    split at h₁
    · cases h₁
      exact hs.of_append rfl rfl id rfl (by simp)
    · cases h₁
  | startInner t dup alloc =>
    simp only [nativeStep] at h
    split at h
    · rename_i hok
      obtain ⟨r, h₁, h₂⟩ := Option.map_eq_some'.mp h
      obtain ⟨rt', rfl, rfl⟩ := except_map_eq_ok.mp h₂
      simp only [gcWin32StartInner, Option.bind_eq_bind, Option.bind_eq_some] at h₁
      obtain ⟨th, hth, psi, hpsi, h₁⟩ := h₁
      split at h₁
      · cases h₁
      rename_i halive
      obtain ⟨⟨s₁, st⟩, hr, rfl⟩ := except_map_eq_ok.mp (Option.some.inj h₁)
      obtain ⟨hself, hk⟩ :=
        gcRegisterMyThreadNative_registered hi.table (allocAnswer_of_allocOk hok) hr
      exact hs.of_setThread rfl rfl (fun _ _ _ _ _ => hk _)
        (fun _ => ⟨by simpa using halive, hself⟩) (by simp)
    · cases h
  | startReturn t =>
    obtain ⟨r, h₁, h₂⟩ := Option.map_eq_some'.mp h
    obtain ⟨rt', rfl, rfl⟩ := except_map_eq_ok.mp h₂
    simp only [gcWin32StartReturn, Option.bind_eq_bind, Option.bind_eq_some] at h₁
    obtain ⟨th, hth, h₁⟩ := h₁
    split at h₁
    · cases h₁
    rename_i hg
    obtain ⟨s₁, hr, rfl⟩ := except_map_eq_ok.mp (Option.some.inj h₁)
    exact hs.of_unregisterEnd hi hth (by revert hg; cases th.alive <;> simp) hr
  | exitThread t =>
    obtain ⟨r, h₁, h₂⟩ := Option.map_eq_some'.mp h
    obtain ⟨rt', rfl, rfl⟩ := except_map_eq_ok.mp h₂
    simp only [gcExitThread, Option.bind_eq_bind, Option.bind_eq_some] at h₁
    obtain ⟨th, hth, h₁⟩ := h₁
    split at h₁
    · cases h₁
    rename_i hg
    obtain ⟨s₁, hr, rfl⟩ := except_map_eq_ok.mp (Option.some.inj h₁)
    exact hs.of_unregisterEnd hi hth (by revert hg; cases th.alive <;> simp) hr
  | register t dup alloc =>
    simp only [nativeStep, Option.bind_eq_bind, Option.bind_eq_some] at h
    obtain ⟨th, -, h⟩ := h
    split at h
    · cases h
    rename_i hok
    obtain ⟨⟨s₁, st⟩, hr, rfl⟩ := except_map_eq_ok.mp (Option.some.inj h)
    have hk := (gcRegisterMyThreadNative_registered hi.table
      (allocAnswer_of_allocOk (by simpa using hok)) hr).2
    exact hs.of_frame rfl id fun _ _ _ _ => hk _
  | unregister t =>
    simp only [nativeStep, Option.bind_eq_bind, Option.bind_eq_some] at h
    obtain ⟨th, hth, h⟩ := h
    obtain ⟨hth, ha, -⟩ := NativeRuntime.running_eq_some hth
    obtain ⟨s₁, hr, rfl⟩ := except_map_eq_ok.mp (Option.some.inj h)
    -- the contract: the unregistering thread is outside its start routine
    have hout : th.inStart = false := by
      simp only [NativeEvent.keepsStartContract, hth, Option.any_some, Bool.and_eq_true,
        Bool.not_eq_true'] at hc
      exact hc.2
    refine hs.of_frame rfl id fun j y hy hin hreg => gcDeleteThread_registered hi.table hr
      (fun e => ?_) hreg
    obtain rfl := hi.threads j t y th hy hth (hs.inStart j y hy hin).1 ha e
    obtain rfl := Option.some.inj (hy.symm.trans hth)
    simp [hout] at hin
  | allowRegister t =>
    simp only [nativeStep, Option.bind_eq_bind, Option.bind_eq_some] at h
    obtain ⟨th, -, h⟩ := h
    cases h
    exact hs.of_frame rfl (fun _ => rfl) fun _ _ _ _ h => h
  | terminate t =>
    simp only [nativeStep, Option.bind_eq_bind, Option.bind_eq_some] at h
    obtain ⟨th, hth, h⟩ := h
    cases h
    obtain ⟨hth, -, -⟩ := NativeRuntime.running_eq_some hth
    exact hs.of_setThread rfl rfl (fun _ _ _ _ _ h => h) (by simp)
      fun hsi => hs.needToLock t th hth hsi
  | collect t approxSp os =>
    simp only [nativeStep, Option.bind_eq_bind, Option.bind_eq_some] at h
    obtain ⟨th, -, h⟩ := h
    split at h
    · cases h
    obtain ⟨st, hr, rfl⟩ := except_map_eq_ok.mp (Option.some.inj h)
    have hh := hi.exited_false (NativeEvent.keepsContract_of_keepsStartContract hc)
    rw [gcCollectNative_eq hi.table hh] at hr
    have hk := (gcCollect_stacksKept hi.table hh hr).links
    exact hs.of_frame rfl id fun _ _ _ _ h => by
      simpa only [IdRegistered, NativeRuntime.setTable_table, hk.gcLookupThread_eq] using h

end NativeStartInv

variable {a : Bool} {sys : NativeSystem}

theorem NativeStartReachable.inv (hr : NativeStartReachable H a sys) :
    NativeReachable H a sys ∧ NativeStartInv H sys.rt := by
  induction hr with
  | start main hs hi => exact ⟨.start main hs, .start hs hi⟩
  | step _ hc h ih =>
    exact ⟨.step ih.1 (NativeEvent.keepsContract_of_keepsStartContract hc) h, ih.2.step ih.1.inv hc h⟩

theorem nativeRunStartContract_reachable {sys' : NativeSystem} (hr : NativeStartReachable H a sys)
    (es : List NativeEvent) (h : nativeRunStartContract H a sys es = some (.ok sys')) :
    NativeStartReachable H a sys' := by
  induction es generalizing sys with
  | nil => cases h; exact hr
  | cons e es ih =>
    simp only [nativeRunStartContract] at h
    split at h
    · split at h
      · exact ih (.step hr ‹_› ‹_›) h
      · next hne => exact absurd h (hne _)
    · cases h

end StartSteps

section Results

variable {H : TableHash} {a : Bool} {sys : NativeSystem}

/-- Under the contract, with no thread unregistering inside its start routine: in a thread
`GC_CreateThread` made, `GC_win32_start_inner` links a fresh record for the thread whenever
`DuplicateHandle` and the allocator succeed and the thread has a stack base, since
`GC_need_to_lock` is set and no record carries the thread's id yet. When the start routine of a
thread returns, the thread has a record of its own, which the `GC_unregister_my_thread` of the
`__finally` deletes and frees, leaving none under the thread's id. -/
theorem nativeStartRoutine_safe (hr : NativeStartReachable H a sys) :
    (∀ (t : Nat) (th : NativeThread) (hd : Nat) (b : Ptr), sys.rt.thread? t = some th →
      th.startInfo.isSome = true → th.stackBase ≠ 0 → allocOk sys.rt.table (some b) = true →
      ∃ sys', nativeStep H a sys (.startInner t (some hd) (some b)) = some (.ok sys') ∧
        gcLookupThread H sys'.rt.table th.win32Id = .ok (some b)) ∧
    (∀ (t : Nat) (th : NativeThread), sys.rt.thread? t = some th → th.inStart = true →
      ∃ p sys', gcLookupThread H sys.rt.table th.win32Id = .ok (some p) ∧
        (sys.rt.table.rep p).NativeOwnedBy th ∧
        nativeStep H a sys (.startReturn t) = some (.ok sys') ∧
        gcLookupThread H sys'.rt.table th.win32Id = .ok none ∧
        (p ≠ firstThread → p ∈ sys'.rt.table.freed ∧ p ∉ sys'.rt.table.allocated)) := by
  obtain ⟨hn, hs⟩ := hr.inv
  obtain ⟨B, hi⟩ := hn.inv
  refine ⟨fun t th hd b hth hsi hsb hb => ?_, fun t th hth hin => ?_⟩
  · obtain ⟨psi, hpsi⟩ := Option.isSome_iff_exists.mp hsi
    have ha := (hi.unstarted t th hth hsi).1
    -- only `GC_CreateThread` after `GC_thr_init` hands a thread a start info
    have hinit : sys.rt.initialized = true := by
      cases hn' : sys.rt.initialized
      · simp [(hi.uninit hn').2 t th hth] at hsi
      · rfl
    have hl := gcLookupThread_none_of hi.table (hi.no_record_of_unstarted hth hsi)
    obtain ⟨s', hr'⟩ : ∃ s', gcRegisterMyThreadInner H sys.rt.table th.stackBase th.win32Id 0
        (some hd) (some b) = .ok (s', b) :=
      ⟨_, by simp [gcRegisterMyThreadInner, gcNewThread, takeRecord, hi.used hinit, hsb]; rfl⟩
    obtain ⟨-, hinv, ⟨_, -, -, hrep⟩, -⟩ :=
      gcRegisterMyThreadInner_spec hi.table (allocAnswer_of_allocOk hb) hr'
    have hreg : gcRegisterMyThreadNative H sys.rt.needToLock sys.rt.table th.win32Id th.stackBase
        (some hd) (some b) = .ok (s', .success) := by
      simp [gcRegisterMyThreadNative, hs.needToLock t th hth hsi, hl, hr']
    refine ⟨{ sys with rt := { ((sys.rt.setTable s').setThread t
      { th with startInfo := none, inStart := true }) with
        startInfos := sys.rt.startInfos.erase psi } }, ?_, ?_⟩
    · simp only [NativeRuntime.thread?] at hth
      simp [nativeStep, hb, gcWin32StartInner, NativeRuntime.thread?, hth, hpsi, ha, hreg]
    · simp [gcLookupThread_eq hinv, hrep]
  · obtain ⟨ha, p, hp⟩ := hs.inStart t th hth hin
    obtain ⟨hpm, hpid⟩ := gcLookupThread_mem hi.table hp
    obtain ⟨pre, post, hB, hdel⟩ := gcDeleteThread_of_lookup hi.table hp
    obtain ⟨B', hi', hnone⟩ := hi.of_delete hdel
    refine ⟨p, { sys with rt := ((sys.rt.setTable
      (deleteFound sys.rt.table (H.index th.win32Id) pre.getLast? p)).setThread t
      { th with alive := false, inStart := false }) }, hp, hi.owner_of_id hpm hth ha hpid, ?_,
      gcLookupThread_none_of hi'.table hnone, fun hpf => ?_⟩
    · simp only [NativeRuntime.thread?] at hth
      simp [nativeStep, gcWin32StartReturn, NativeRuntime.thread?, hth, ha, hin,
        gcUnregisterMyThreadNative, hdel]
    · refine ⟨by simp [deleteFound, hpf], ?_⟩
      simpa [deleteFound_allocated hi.heap] using hi.nodup.not_mem_erase

/-- The main thread creates thread `1` (Win32 id `2`) and thread `2` (Win32 id `3`, stack base
`0x50000`, start info `501`); thread `1` runs `GC_win32_start_inner` with record `2`, thread `2`
has not started yet. -/
def nativeTwoStartRun : List NativeEvent :=
  [.thrInit (some 11), .createThread 0 2 0x40000 (some 500) true, .startInner 1 (some 12) (some 2),
    .createThread 0 3 0x50000 (some 501) true]

set_option maxRecDepth 4000 in
/-- After `nativeTwoStartRun`, thread `2` registers with record `3`, and when thread `1`'s start
routine returns its record `2` is deleted and freed. -/
theorem nativeStartRoutine_safe_twoStarts :
    ∃ sys, nativeRunStartContract lowByteHash false nativeStart nativeTwoStartRun =
        some (.ok sys) ∧
      (∃ sys', nativeStep lowByteHash false sys (.startInner 2 (some 13) (some 3)) =
          some (.ok sys') ∧ gcLookupThread lowByteHash sys'.rt.table 3 = .ok (some 3)) ∧
      ∃ p sys', gcLookupThread lowByteHash sys.rt.table 2 = .ok (some p) ∧
        (sys.rt.table.rep p).NativeOwnedBy ⟨2, 0x40000, true, none, true⟩ ∧
        nativeStep lowByteHash false sys (.startReturn 1) = some (.ok sys') ∧
        gcLookupThread lowByteHash sys'.rt.table 2 = .ok none ∧
        (p ≠ firstThread → p ∈ sys'.rt.table.freed ∧ p ∉ sys'.rt.table.allocated) :=
  have hr : NativeStartReachable lowByteHash false _ :=
    nativeRunStartContract_reachable (.start nativeMain rfl rfl) nativeTwoStartRun rfl
  ⟨_, rfl, (nativeStartRoutine_safe hr).1 2 _ 13 3 rfl rfl (by decide) rfl,
    (nativeStartRoutine_safe hr).2 1 _ rfl rfl⟩

end Results

end Win32GcThreads
