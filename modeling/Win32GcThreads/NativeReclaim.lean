import Win32GcThreads.NativeLifecycle
import Win32GcThreads.ProcessReclaim

/-!
# Records of the native build: ownership and leak freedom

In a build without `GC_PTHREADS` a record leaves `GC_threads` only through
`GC_unregister_my_thread`, which `GC_win32_start_inner` calls when the start routine returns
and `GC_ExitThread` calls before the thread ends; and through `GC_suspend`, which unlinks the
record of a thread whose handle reports an exit code and never frees it.

The client keeps the rules of the thread API when `GC_thr_init` runs in the running main thread,
`GC_register_my_thread` runs after it, and a thread that has a record does not end without the
collector (through a plain `ExitThread`, or by a thread procedure that returns without
`GC_win32_start_inner`). The OS answers a collection truthfully when `GetExitCodeThread` reports
no exit code for the handle of a running thread's record. Then the exit branch of `GC_suspend`
is never taken, and a collection computes what the `GC_PTHREADS` collection computes; every live
heap record belongs to a running thread, carries its id and describes its stack, so that every
collection pushes it; `GC_win32_start_inner` never gets `GC_DUPLICATE`; and once every thread has
ended the table is empty and every record and every `win32_start_info` block is freed.
-/

namespace Win32GcThreads

section Congr

variable {σ : Type} {tbl : σ → ThreadTable} {body body' : σ → Ptr → Except Fault σ}
  {Q : σ → Prop} {H : TableHash} {B : Nat → List Ptr}

/-- Two walks along a chain agree when their bodies agree on the chain's records in the states
the second one reaches, and the second one keeps the links. -/
theorem walkChain_congr (hb' : KeepsLinks tbl body')
    (hQ : ∀ st p st', Q st → body' st p = .ok st' → Q st') {next : Ptr → Option Ptr}
    {x : Option Ptr} {l : List Ptr} (hc : Chain next x l)
    (hag : ∀ st p, Q st → p ∈ l → body st p = body' st p) {st : σ} {n : Nat}
    (hst : (tbl st).next = next) (hq : Q st) :
    walkChain tbl body n st x = walkChain tbl body' n st x := by
  induction hc generalizing st n with
  | nil => cases n <;> rfl
  | @cons p l _ ih =>
    cases n with
    | zero => rfl
    | succ n =>
      simp only [walkChain]
      rw [hag st p hq (List.mem_cons_self _ _)]
      cases h : body' st p with
      | error e => rfl
      | ok st' =>
        have hst' := (hb' _ _ _ h).next.trans hst
        simp only [except_ok_bind, hst']
        exact ih (fun st q hq hql => hag st q hq (List.mem_cons_of_mem _ hql)) hst' (hQ _ _ _ hq h)

/-- So do the bucket loops over a well-formed table. -/
theorem walkBuckets_congr (hb' : KeepsLinks tbl body')
    (hQ : ∀ st p st', Q st → body' st p = .ok st' → Q st')
    (hag : ∀ st p, Q st → p ∈ tableRecords H B → body st p = body' st p) :
    ∀ (hvs : List Nat) {st : σ}, TableInv H (tbl st) B → (∀ h ∈ hvs, h < H.size) → Q st →
      walkBuckets tbl body hvs st = walkBuckets tbl body' hvs st
  | [], _, _, _, _ => rfl
  | hv :: hvs, st, hi, hh, hq => by
    have hlt := hh hv (List.mem_cons_self _ _)
    simp only [walkBuckets]
    rw [walkChain_congr hb' hQ (hi.chain hv hlt)
      (fun st p hq hp => hag st p hq (mem_tableRecords.mpr ⟨hv, hlt, hp⟩)) rfl hq]
    cases h : walkChain tbl body' (tbl st).fuel st ((tbl st).heads hv) with
    | error e => rfl
    | ok st' =>
      have hk : LinksKept (tbl st) (tbl st') := by
        rw [walkChain_eq hb' (hi.chain hv hlt) rfl (hi.length_lt_fuel hlt).le] at h
        exact foldlM_linksKept hb' h
      exact walkBuckets_congr hb' hQ hag hvs (hk.inv hi)
        (fun k hk => hh k (List.mem_cons_of_mem _ hk)) (walkChain_preserves hQ _ _ _ hq h)

end Congr

/-- What a collection keeps of a table when no linked record's thread has exited: the links,
and each record's id, `stack_end`, handle and `FINISHED`. -/
structure StacksKept (s s' : ThreadTable) : Prop where
  links : LinksKept s s'
  stackEnd : ∀ p, (s'.rep p).stackEnd = (s.rep p).stackEnd
  handle : ∀ p, (s'.rep p).handle = (s.rep p).handle
  finished : ∀ p, (s'.rep p).finished = (s.rep p).finished

namespace StacksKept

variable {s t u : ThreadTable}

theorem refl (s : ThreadTable) : StacksKept s s :=
  ⟨.refl s, fun _ => rfl, fun _ => rfl, fun _ => rfl⟩

theorem trans (h₁ : StacksKept s t) (h₂ : StacksKept t u) : StacksKept s u :=
  ⟨h₁.links.trans h₂.links, fun p => (h₂.stackEnd p).trans (h₁.stackEnd p),
    fun p => (h₂.handle p).trans (h₁.handle p), fun p => (h₂.finished p).trans (h₁.finished p)⟩

/-- A field update that keeps ids, stack ends, handles and `FINISHED` keeps the stacks. -/
theorem updateRep {q : Ptr} {f : ThreadRep → ThreadRep}
    (hf : ∀ r, (f r).id = r.id ∧ (f r).stackEnd = r.stackEnd ∧ (f r).handle = r.handle ∧
      (f r).finished = r.finished) :
    StacksKept s (Win32GcThreads.updateRep s q f) := by
  have hrep : ∀ p, (Win32GcThreads.updateRep s q f).rep p = s.rep p ∨
      (Win32GcThreads.updateRep s q f).rep p = f (s.rep p) := fun p => by
    by_cases hp : p = q
    · subst hp; exact .inr (updateRep_rep_self _ _ _)
    · exact .inl (updateRep_rep_ne _ _ hp)
  refine ⟨.updateRep _ _ fun r => (hf r).1, fun p => ?_, fun p => ?_, fun p => ?_⟩ <;>
    rcases hrep p with h | h <;> simp [h, hf]

end StacksKept

section Collect

variable {H : TableHash} {a : Bool} {os : OsView} {self approxSp : Nat} {s s' : ThreadTable}
  {c : QueryCache} {st st' : PushState} {p : Ptr} {B : Nat → List Ptr}

/-- Suspending a thread that has not exited keeps every stack. -/
theorem suspendIfWanted_stacksKept (h : os.exited (s.rep p).handle = false) :
    StacksKept s (suspendIfWanted os self s p) := by
  unfold suspendIfWanted gcSuspend
  split
  · rw [if_neg (by simp [h])]
    exact .updateRep fun _ => ⟨rfl, rfl, rfl, rfl⟩
  · exact .refl _

/-- The suspension loop of `GC_stop_world` keeps every stack when none of its threads has exited. -/
theorem stopFold_stacksKept :
    ∀ (l : List Ptr) (s : ThreadTable), (∀ p ∈ l, os.exited (s.rep p).handle = false) →
      StacksKept s (l.foldl (suspendIfWanted os self) s)
  | [], s, _ => .refl s
  | p :: l, s, h => by
    have k : StacksKept s (suspendIfWanted os self s p) :=
      suspendIfWanted_stacksKept (h p (List.mem_cons_self _ _))
    exact k.trans (stopFold_stacksKept l _ fun q hq => by
      rw [k.handle q]; exact h q (List.mem_cons_of_mem _ hq))

/-- `GC_push_all_stacks` changes no stack of the table. -/
theorem gcPushAllStacks_stacksKept {itc : Bool}
    (h : gcPushAllStacks H a os self approxSp itc st = .ok st') : StacksKept st.table st'.table := by
  obtain ⟨st₁, h₁, h⟩ := except_bind_eq_ok.mp h
  have hk := walkBuckets_preserves
    (P := fun st₂ : PushState => StacksKept st.table st₂.table) (fun st₂ q st₃ hP h => by
      unfold pushIfWanted at h
      split at h
      · obtain ⟨⟨lsm, ht⟩, -⟩ := gcPushStackFor_ok h
        rw [ht]
        exact hP.trans (StacksKept.updateRep (f := fun r => { r with lastStackMin := lsm })
          fun _ => ⟨rfl, rfl, rfl, rfl⟩)
      · cases h; exact hP) _ _ (.refl _) h₁
  split at h
  · cases h
  · cases h; exact hk

/-- `GC_start_world` changes no stack of the table. -/
theorem gcStartWorld_stacksKept (h : gcStartWorld H a self s = .ok s') : StacksKept s s' :=
  walkBuckets_preserves (P := StacksKept s) (fun s₁ q s₂ hP h => by
    unfold resumeIfSuspended at h
    split at h
    · split at h
      · cases h
      · cases h; exact hP.trans (.updateRep fun _ => ⟨rfl, rfl, rfl, rfl⟩)
    · cases h; exact hP) _ _ (.refl _) h

/-- A collection in which no linked record's handle reports an exit code keeps every link,
id, `stack_end`, handle and `FINISHED` flag. -/
theorem gcCollect_stacksKept (hi : TableInv H s B)
    (hh : ∀ p ∈ tableRecords H B, os.exited (s.rep p).handle = false)
    (h : gcCollect H a os self approxSp s c = .ok st) : StacksKept s st.table := by
  simp only [gcCollect, gcStopWorld_eq hi, except_ok_bind] at h
  obtain ⟨st₂, h₂, h⟩ := except_bind_eq_ok.mp h
  obtain ⟨s₃, h₃, h⟩ := except_bind_eq_ok.mp h
  cases h
  exact (stopFold_stacksKept _ s hh).trans
    ((gcPushAllStacks_stacksKept h₂).trans (gcStartWorld_stacksKept h₃))

/-- Suspending a thread, or passing over it, leaves every record's handle as it was. -/
theorem suspendIfWanted_handle (q : Ptr) :
    ((suspendIfWanted os self s p).rep q).handle = (s.rep q).handle := by
  unfold suspendIfWanted gcSuspend
  split
  · by_cases hq : q = p
    · subst hq; split <;> simp
    · split <;> simp [updateRep_rep_ne _ _ hq]
  · rfl

/-- With an OS that reports no exit code for the handle of a linked record, the stop loop of the
native build is the stop loop of the `GC_PTHREADS` build. -/
theorem gcStopWorldNative_eq (hi : TableInv H s B)
    (hh : ∀ p ∈ tableRecords H B, os.exited (s.rep p).handle = false) :
    gcStopWorldNative H a os self s = gcStopWorld H os self s :=
  walkBuckets_congr (Q := fun s₁ => ∀ q, (s₁.rep q).handle = (s.rep q).handle)
    (fun _ _ _ h => by cases h; exact suspendIfWanted_linksKept)
    (fun s₁ q s₂ hq h => by cases h; exact fun r => (suspendIfWanted_handle r).trans (hq r))
    (fun s₁ q hq hm => by
      unfold suspendIfWantedNative suspendIfWanted gcSuspendNative gcSuspend
      rw [hq q, hh q hm]
      split <;> simp)
    _ hi (fun _ hk => List.mem_range.mp hk) fun _ => rfl

/-- The native build and the `GC_PTHREADS` build differ in a collection only when a linked
record's handle reports an exit code: otherwise both compute the same table, cache, `found_me`
and pushed ranges, or fail with the same fault. -/
theorem gcCollectNative_eq (hi : TableInv H s B)
    (hh : ∀ p ∈ tableRecords H B, os.exited (s.rep p).handle = false) :
    gcCollectNative H a os self approxSp s c = gcCollect H a os self approxSp s c := by
  simp only [gcCollectNative, gcCollect, gcStopWorldNative_eq hi hh]

end Collect

/-- Thread `th` owns a record with fields `r`: the thread is running its own code, and the
record carries its Win32 id and the base of its stack. -/
structure ThreadRep.NativeOwnedBy (r : ThreadRep) (th : NativeThread) : Prop where
  id : r.id = th.win32Id
  stack : r.stackEnd = th.stackBase
  stack_ne : th.stackBase ≠ 0
  alive : th.alive = true
  started : th.startInfo = none

section Invariant

variable (H : TableHash)

/-- What every run that keeps the contract keeps, for the table `s`, the threads `ts`, the live
start-info blocks `infos`, whether `GC_thr_init` has run, and the view `B` of the buckets. -/
structure NativeInv (s : ThreadTable) (ts : List NativeThread) (infos : List Ptr) (init : Bool)
    (B : Nat → List Ptr) : Prop where
  table : TableInv H s B
  /-- Every linked record is owned by a thread. -/
  owner : ∀ p ∈ tableRecords H B, ∃ (t : Nat) (th : NativeThread), ts[t]? = some th ∧
    (s.rep p).NativeOwnedBy th
  /-- No two linked records carry the same id. -/
  ids : ∀ p ∈ tableRecords H B, ∀ q ∈ tableRecords H B, (s.rep p).id = (s.rep q).id → p = q
  /-- No two running threads have the same Win32 id. -/
  threads : ∀ (i j : Nat) (thi thj : NativeThread), ts[i]? = some thi → ts[j]? = some thj →
    thi.alive = true → thj.alive = true → thi.win32Id = thj.win32Id → i = j
  /-- Every live heap record is linked. -/
  allocated : ∀ p ∈ s.allocated, p ∈ tableRecords H B
  nodup : s.allocated.Nodup
  heap : firstThread ∉ s.allocated
  /-- No record is `FINISHED` in this build. -/
  unfinished : ∀ p, (s.rep p).finished = false
  /-- The live start-info blocks are those of the threads not yet started, one each. -/
  infoThreads : ∀ b, b ∈ infos ↔ ∃ (t : Nat) (th : NativeThread), ts[t]? = some th ∧ th.startInfo = some b
  infoNodup : infos.Nodup
  infoOwner : ∀ (i j : Nat) (thi thj : NativeThread) (b : Ptr), ts[i]? = some thi →
    ts[j]? = some thj → thi.startInfo = some b → thj.startInfo = some b → i = j
  /-- A thread not yet started is running, and not inside its start routine. -/
  unstarted : ∀ (t : Nat) (th : NativeThread), ts[t]? = some th → th.startInfo.isSome = true →
    th.alive = true ∧ th.inStart = false
  used : init = true → s.firstThreadUsed = true
  /-- Before `GC_thr_init` the table is empty and `GC_CreateThread` created no thread. -/
  uninit : init = false → s = ThreadTable.init ∧
    ∀ (t : Nat) (th : NativeThread), ts[t]? = some th → th.startInfo = none

/-- The event keeps the contract: `GC_thr_init` in the running main thread, registration after
it, no end of a thread that has a record but through the collector, and a collection whose OS
reports no exit code for the handle of a running thread's record. -/
def NativeEvent.keepsContract (rt : NativeRuntime) : NativeEvent → Bool
  | .thrInit _ => (rt.thread? 0).any (·.alive)
  | .register .. => rt.initialized
  | .terminate t => (rt.thread? t).any fun th =>
      match gcLookupThread H rt.table th.win32Id with
      | .ok none => true
      | _ => false
  | .collect _ _ os => rt.threads.all fun th => !th.alive ||
      match gcLookupThread H rt.table th.win32Id with
      | .ok (some p) => !os.exited (rt.table.rep p).handle
      | _ => true
  | _ => true

variable (assertions : Bool)

/-- The native processes reached from a fresh one by events that keep the contract. -/
inductive NativeReachable : NativeSystem → Prop
  | start (main : NativeThread) (hs : main.startInfo = none) :
      NativeReachable ⟨NativeRuntime.start main, .init, []⟩
  | step {sys sys' : NativeSystem} {e : NativeEvent} : NativeReachable sys →
      e.keepsContract H sys.rt = true → nativeStep H assertions sys e = some (.ok sys') →
      NativeReachable sys'

/-- `nativeRun`, stopping with `none` at the first event that breaks the contract. -/
def nativeRunContract (sys : NativeSystem) : List NativeEvent → Option (Except Fault NativeSystem)
  | [] => some (.ok sys)
  | e :: es =>
    if e.keepsContract H sys.rt then
      match nativeStep H assertions sys e with
      | some (.ok sys') => nativeRunContract sys' es
      | r => r
    else none

end Invariant

section Preservation

variable {H : TableHash} {s s' : ThreadTable} {ts : List NativeThread} {infos : List Ptr}
  {init : Bool} {B : Nat → List Ptr}

namespace NativeInv

/-- A linked record means that `GC_thr_init` has run. -/
theorem initialized_of_mem (hi : NativeInv H s ts infos init B) {p : Ptr}
    (hp : p ∈ tableRecords H B) : init = true := by
  cases hinit : init with
  | true => rfl
  | false =>
    have ht := hi.table
    rw [(hi.uninit hinit).1] at ht
    simp [tableRecords_init ht] at hp

/-- A linked record carrying the id of a running thread is that thread's. -/
theorem owner_of_id (hi : NativeInv H s ts infos init B) {p : Ptr} (hp : p ∈ tableRecords H B)
    {t : Nat} {th : NativeThread} (hth : ts[t]? = some th) (ha : th.alive = true)
    (hid : (s.rep p).id = th.win32Id) : (s.rep p).NativeOwnedBy th := by
  obtain ⟨j, y, hy, ho⟩ := hi.owner p hp
  obtain rfl := hi.threads j t y th hy hth ho.alive ha (ho.id.symm.trans hid)
  obtain rfl := Option.some.inj (hy.symm.trans hth)
  exact ho

/-- A thread `GC_CreateThread` made that has not started has no record under its id. -/
theorem no_record_of_unstarted (hi : NativeInv H s ts infos init B) {t : Nat} {th : NativeThread}
    (hth : ts[t]? = some th) (hs : th.startInfo.isSome = true) :
    ∀ p ∈ tableRecords H B, (s.rep p).id ≠ th.win32Id := fun p hp hid => by
  have := (hi.owner_of_id hp hth (hi.unstarted t th hth hs).1 hid).started
  simp [this] at hs

/-- `GC_lookup_thread` finds every linked record by its id. -/
theorem lookup_of_mem (hi : NativeInv H s ts infos init B) {p : Ptr} (hp : p ∈ tableRecords H B) :
    gcLookupThread H s (s.rep p).id = .ok (some p) := by
  obtain ⟨h, hh, hm⟩ := mem_tableRecords.mp hp
  have hb : H.index (s.rep p).id = h := hi.table.hashed h hh p hm
  rw [gcLookupThread_eq hi.table, hb]
  obtain ⟨q, hq⟩ := Option.isSome_iff_exists.mp
    (List.find?_isSome.mpr ⟨p, hm, by simp⟩ : ((B h).find? fun q => (s.rep q).id == (s.rep p).id).isSome)
  have hqp : (s.rep q).id = (s.rep p).id := by simpa using List.find?_some hq
  rw [hq, hi.ids q (mem_tableRecords.mpr ⟨h, hh, List.mem_of_find?_eq_some hq⟩) p hp hqp]

/-- Thread `t` becomes `x`, with the same id and stack: it may end once no record carries its id,
and it may drop its start info, which is then freed. -/
theorem of_setThread {t : Nat} {th x : NativeThread} {infos' : List Ptr}
    (hi : NativeInv H s ts infos init B) (hth : ts[t]? = some th) (hid : x.win32Id = th.win32Id)
    (hsb : x.stackBase = th.stackBase) (halive : x.alive = true → th.alive = true)
    (hkeep : ∀ p ∈ tableRecords H B, (s.rep p).id = th.win32Id → th.alive = true →
      x.alive = true ∧ x.startInfo = none)
    (hinfo : (x.startInfo = th.startInfo ∧ infos' = infos) ∨
      ∃ b, th.startInfo = some b ∧ x.startInfo = none ∧ infos' = infos.erase b)
    (hun : x.startInfo.isSome = true → x.alive = true ∧ x.inStart = false) :
    NativeInv H s (ts.set t x) infos' init B := by
  -- a thread of the new list is `x` at `t`, or a thread of the old list elsewhere
  have back := fun {j : Nat} {y : NativeThread} (hy : (ts.set t x)[j]? = some y) =>
    getElem?_set_cases hy
  have hxt : (ts.set t x)[t]? = some x := getElem?_set_of_getElem? hth
  -- the start info of `x`, if any, is `th`'s
  have hxs : ∀ b, x.startInfo = some b → th.startInfo = some b := fun b hb => by
    rcases hinfo with ⟨he, -⟩ | ⟨_, -, hn, -⟩
    · rwa [← he]
    · simp [hn] at hb
  refine ⟨hi.table, fun p hp => ?_, hi.ids, fun i j yi yj hyi hyj hai haj he => ?_, hi.allocated,
    hi.nodup, hi.heap, hi.unfinished, fun b => ?_, ?_, fun i j yi yj b hyi hyj hbi hbj => ?_,
    fun j y hy hs => ?_, hi.used, fun h => ⟨(hi.uninit h).1, fun j y hy => ?_⟩⟩
  · -- owner
    obtain ⟨j, y, hy, ho⟩ := hi.owner p hp
    by_cases hjt : j = t
    · subst hjt
      obtain rfl := Option.some.inj (hy.symm.trans hth)
      obtain ⟨hxa, hxs⟩ := hkeep p hp ho.id ho.alive
      exact ⟨j, x, hxt, ⟨ho.id.trans hid.symm, ho.stack.trans hsb.symm, hsb ▸ ho.stack_ne, hxa, hxs⟩⟩
    · exact ⟨j, y, by rwa [List.getElem?_set_ne (Ne.symm hjt)], ho⟩
  · -- threads
    have lift : ∀ {k : Nat} {z : NativeThread}, (ts.set t x)[k]? = some z → z.alive = true →
        ∃ w : NativeThread, ts[k]? = some w ∧ w.alive = true ∧ w.win32Id = z.win32Id :=
      fun hz hza => (back hz).elim (fun ⟨hk, hz⟩ => ⟨th, hk ▸ hth, halive (hz ▸ hza), hz ▸ hid.symm⟩)
        fun ⟨_, hz⟩ => ⟨_, hz, hza, rfl⟩
    obtain ⟨wi, hwi, hwai, hidi⟩ := lift hyi hai
    obtain ⟨wj, hwj, hwaj, hidj⟩ := lift hyj haj
    exact hi.threads i j wi wj hwi hwj hwai hwaj (by rw [hidi, hidj, he])
  · -- the start-info blocks
    rcases hinfo with ⟨he, rfl⟩ | ⟨b₀, hb₀, hxn, rfl⟩
    · rw [hi.infoThreads]
      constructor
      · rintro ⟨j, y, hy, hb⟩
        by_cases hjt : j = t
        · subst hjt
          obtain rfl := Option.some.inj (hy.symm.trans hth)
          exact ⟨j, x, hxt, he.trans hb⟩
        · exact ⟨j, y, by rwa [List.getElem?_set_ne (Ne.symm hjt)], hb⟩
      · rintro ⟨j, y, hy, hb⟩
        rcases back hy with ⟨rfl, rfl⟩ | ⟨-, hy⟩
        · exact ⟨j, th, hth, he ▸ hb⟩
        · exact ⟨j, y, hy, hb⟩
    · rw [hi.infoNodup.mem_erase_iff, hi.infoThreads]
      constructor
      · rintro ⟨hne, j, y, hy, hb⟩
        by_cases hjt : j = t
        · subst hjt
          obtain rfl := Option.some.inj (hy.symm.trans hth)
          exact absurd (Option.some.inj (hb.symm.trans hb₀)) hne
        · exact ⟨j, y, by rwa [List.getElem?_set_ne (Ne.symm hjt)], hb⟩
      · rintro ⟨j, y, hy, hb⟩
        rcases back hy with ⟨rfl, rfl⟩ | ⟨hjt, hy⟩
        · simp [hxn] at hb
        · refine ⟨fun e => hjt (hi.infoOwner j t y th b hy hth hb (e ▸ hb₀)), j, y, hy, hb⟩
  · rcases hinfo with ⟨-, rfl⟩ | ⟨b₀, -, -, rfl⟩
    · exact hi.infoNodup
    · exact hi.infoNodup.erase b₀
  · -- one thread per start-info block
    have lift : ∀ {k : Nat} {z : NativeThread}, (ts.set t x)[k]? = some z → z.startInfo = some b →
        ∃ w : NativeThread, ts[k]? = some w ∧ w.startInfo = some b :=
      fun hz hzb => (back hz).elim (fun ⟨hk, hz⟩ => ⟨th, hk ▸ hth, hxs b (hz ▸ hzb)⟩)
        fun ⟨_, hz⟩ => ⟨_, hz, hzb⟩
    obtain ⟨wi, hwi, hbi'⟩ := lift hyi hbi
    obtain ⟨wj, hwj, hbj'⟩ := lift hyj hbj
    exact hi.infoOwner i j wi wj b hwi hwj hbi' hbj'
  · -- unstarted
    rcases back hy with ⟨-, rfl⟩ | ⟨-, hy⟩
    · exact hun hs
    · exact hi.unstarted j y hy hs
  · -- uninit
    rcases back hy with ⟨-, rfl⟩ | ⟨-, hy⟩
    · rcases hinfo with ⟨he, -⟩ | ⟨-, -, hn, -⟩
      · rw [he]; exact (hi.uninit h).2 t th hth
      · exact hn
    · exact (hi.uninit h).2 j y hy

/-- A new thread with a free Win32 id, started by `GC_CreateThread` with a fresh start-info
block, or by the OS. -/
theorem of_append {x : NativeThread} {infos' : List Ptr} (hi : NativeInv H s ts infos init B)
    (hfresh : x.alive = true → ∀ (j : Nat) (y : NativeThread), ts[j]? = some y → y.alive = true →
      y.win32Id ≠ x.win32Id)
    (hinfo : (x.startInfo = none ∧ infos' = infos) ∨
      ∃ b, x.startInfo = some b ∧ b ∉ infos ∧ infos' = infos ++ [b] ∧ init = true)
    (hun : x.startInfo.isSome = true → x.alive = true ∧ x.inStart = false) :
    NativeInv H s (ts ++ [x]) infos' init B := by
  have back := fun {j : Nat} {y : NativeThread} (hy : (ts ++ [x])[j]? = some y) =>
    getElem?_concat_cases hy
  refine ⟨hi.table, fun p hp => ?_, hi.ids, fun i j yi yj hyi hyj hai haj he => ?_, hi.allocated,
    hi.nodup, hi.heap, hi.unfinished, fun b => ?_, ?_, fun i j yi yj b hyi hyj hbi hbj => ?_,
    fun j y hy hs => ?_, hi.used, fun h => ⟨(hi.uninit h).1, fun j y hy => ?_⟩⟩
  · obtain ⟨j, y, hy, ho⟩ := hi.owner p hp
    exact ⟨j, y, getElem?_append_of_getElem? hy, ho⟩
  · rcases back hyi with hi' | ⟨hil, rfl⟩ <;> rcases back hyj with hj' | ⟨hjl, hx⟩
    · exact hi.threads i j yi yj hi' hj' hai haj he
    · exact absurd he (hx ▸ hfresh (hx ▸ haj) i yi hi' hai)
    · exact absurd he.symm (hfresh hai j yj hj' haj)
    · omega
  · rcases hinfo with ⟨hn, rfl⟩ | ⟨b₀, hb₀, -, rfl, -⟩
    · rw [hi.infoThreads]
      constructor
      · rintro ⟨j, y, hy, hb⟩; exact ⟨j, y, getElem?_append_of_getElem? hy, hb⟩
      · rintro ⟨j, y, hy, hb⟩
        rcases back hy with hy | ⟨-, rfl⟩
        · exact ⟨j, y, hy, hb⟩
        · simp [hn] at hb
    · rw [List.mem_append, hi.infoThreads, List.mem_singleton]
      constructor
      · rintro (⟨j, y, hy, hb⟩ | rfl)
        · exact ⟨j, y, getElem?_append_of_getElem? hy, hb⟩
        · exact ⟨ts.length, x, List.getElem?_concat_length _ _, hb₀⟩
      · rintro ⟨j, y, hy, hb⟩
        rcases back hy with hy | ⟨-, rfl⟩
        · exact .inl ⟨j, y, hy, hb⟩
        · exact .inr (Option.some.inj (hb.symm.trans hb₀))
  · rcases hinfo with ⟨-, rfl⟩ | ⟨b₀, -, hnot, rfl, -⟩
    · exact hi.infoNodup
    · exact hi.infoNodup.append (List.nodup_singleton b₀) (List.disjoint_singleton.mpr hnot)
  · -- a block of an old thread is in `infos`, and `x`'s is not
    have hold : ∀ {k : Nat} {z : NativeThread}, ts[k]? = some z → z.startInfo = some b →
        x.startInfo ≠ some b := fun hz hzb hxb => by
      rcases hinfo with ⟨hn, -⟩ | ⟨b₀, hb₀, hnot, -⟩
      · simp [hn] at hxb
      · exact hnot (Option.some.inj (hb₀.symm.trans hxb) ▸ (hi.infoThreads b).mpr ⟨_, _, hz, hzb⟩)
    rcases back hyi with hi' | ⟨hil, rfl⟩ <;> rcases back hyj with hj' | ⟨hjl, hx⟩
    · exact hi.infoOwner i j yi yj b hi' hj' hbi hbj
    · exact absurd (hx ▸ hbj) (hold hi' hbi)
    · exact absurd hbi (hold hj' hbj)
    · omega
  · rcases back hy with hy | ⟨-, rfl⟩
    · exact hi.unstarted j y hy hs
    · exact hun hs
  · rcases back hy with hy | ⟨-, rfl⟩
    · exact (hi.uninit h).2 j y hy
    · rcases hinfo with ⟨hn, -⟩ | ⟨-, -, -, -, hinit⟩
      · exact hn
      · exact absurd (hinit.symm.trans h) (by simp)

/-- `GC_delete_thread(w)` that returns removes the record of `w`; afterwards no linked record
carries `w`. -/
theorem of_delete {w : Nat} (hi : NativeInv H s ts infos init B)
    (hdel : gcDeleteThread H s w = .ok s') :
    ∃ B', NativeInv H s' ts infos init B' ∧ ∀ p ∈ tableRecords H B', (s'.rep p).id ≠ w := by
  obtain ⟨pre, p, post, hB, hfind, rfl⟩ := gcDeleteThread_found hi.table hdel
  have hh := H.index_lt w
  have hmem := fun q => mem_tableRecords_unlink_iff hi.table hh hB (q := q)
  have hp : p ∈ tableRecords H B := mem_tableRecords.mpr ⟨_, hh, by simp [hB]⟩
  have hpw : (s.rep p).id = w := by simpa using List.find?_some hfind
  have hinit := hi.initialized_of_mem hp
  have hA := deleteFound_allocated hi.heap (H.index w) pre.getLast? p
  refine ⟨_, ⟨gcDeleteThread_inv hi.table hB, fun q hq => ?_, fun q hq r hr he => ?_, hi.threads,
    fun q hq => ?_, hA ▸ hi.nodup.erase p, fun hm => hi.heap (List.mem_of_mem_erase (hA ▸ hm)),
    fun q => by simp [hi.unfinished q], hi.infoThreads, hi.infoNodup, hi.infoOwner, hi.unstarted,
    fun _ => by rw [deleteFound_firstThreadUsed]; exact hi.used hinit,
    fun h => absurd (hinit.symm.trans h) (by simp)⟩, fun q hq he => ?_⟩
  · simpa using hi.owner q ((hmem q).mp hq).1
  · simp only [deleteFound_rep] at he
    exact hi.ids q ((hmem q).mp hq).1 r ((hmem r).mp hr).1 he
  · rw [hA, hi.nodup.mem_erase_iff] at hq
    exact (hmem q).mpr ⟨hi.allocated q hq.2, hq.1⟩
  · simp only [deleteFound_rep] at he
    exact ((hmem q).mp hq).2 (hi.ids q ((hmem q).mp hq).1 p hp (he.trans hpw.symm))

/-- `GC_register_my_thread_inner` for the running, started thread `t`, whose id no linked
record carries. -/
theorem of_register {w sb : Nat} {dup : Option Nat} {alloc : Option Ptr} {me : Ptr} {t : Nat}
    {th : NativeThread} (hi : NativeInv H s ts infos init B) (ha : AllocAnswer s alloc)
    (hl : ∀ p ∈ tableRecords H B, (s.rep p).id ≠ w)
    (hr : gcRegisterMyThreadInner H s sb w 0 dup alloc = .ok (s', me))
    (hth : ts[t]? = some th) (hid : th.win32Id = w) (hsb : th.stackBase = sb)
    (halive : th.alive = true) (hs : th.startInfo = none) :
    NativeInv H s' ts infos true (Function.update B (H.index w) (me :: B (H.index w))) := by
  obtain ⟨hme, hinv, ⟨hd, -, hsb0, hrep⟩, hother, -, -, hU⟩ := gcRegisterMyThreadInner_spec hi.table ha hr
  have hmem := fun q => mem_tableRecords_linkFront_iff (B := B) (r := me) (q := q) (H.index_lt w)
  have hne : ∀ q ∈ tableRecords H B, q ≠ me := fun q hq e => hme (e ▸ hq)
  have hmeid : (s'.rep me).id = w := by rw [hrep]; rfl
  refine ⟨hinv, fun q hq => ?_, fun q hq r hr he => ?_, hi.threads, fun q hq => ?_, ?_, ?_,
    fun q => ?_, hi.infoThreads, hi.infoNodup, hi.infoOwner, hi.unstarted, fun _ => hU,
    fun h => absurd h (by simp)⟩
  · rcases (hmem q).mp hq with rfl | hq
    · refine ⟨t, th, hth, hmeid.trans hid.symm, ?_, hsb ▸ hsb0, halive, hs⟩
      rw [hrep, ← hsb]; rfl
    · obtain ⟨j, y, hy, ho⟩ := hi.owner q hq
      exact ⟨j, y, hy, by rwa [hother q (hne q hq)]⟩
  · rcases (hmem q).mp hq with rfl | hq' <;> rcases (hmem r).mp hr with rfl | hr'
    · rfl
    · rw [hmeid, hother r (hne r hr')] at he; exact absurd he.symm (hl r hr')
    · rw [hmeid, hother q (hne q hq')] at he; exact absurd he (hl q hq')
    · rw [hother q (hne q hq'), hother r (hne r hr')] at he; exact hi.ids q hq' r hr' he
  · rcases gcRegisterMyThreadInner_allocated hr q hq with hq | rfl
    · exact (hmem q).mpr (.inr (hi.allocated q hq))
    · exact (hmem q).mpr (.inl rfl)
  · rcases gcRegisterMyThreadInner_takes hr with ⟨rfl, hA⟩ | ⟨-, -, hA⟩
    · rw [hA]; exact hi.nodup.append (List.nodup_singleton _)
        (List.disjoint_singleton.mpr ha.1)
    · rw [hA]; exact hi.nodup
  · rcases gcRegisterMyThreadInner_takes hr with ⟨rfl, hA⟩ | ⟨-, -, hA⟩
    · rw [hA]; simpa [hi.heap] using Ne.symm ha.2
    · rw [hA]; exact hi.heap
  · by_cases hq : q = me
    · subst hq; rw [hrep]
      split <;> simp [ThreadRep.registered, ThreadRep.zero, hi.unfinished]
    · rw [hother q hq]; exact hi.unfinished q

/-- A collection that keeps every record's id, stack and flags. -/
theorem of_stacksKept (hi : NativeInv H s ts infos init B) (hk : StacksKept s s')
    (hinit : init = true) : NativeInv H s' ts infos init B :=
  ⟨hk.links.inv hi.table, fun p hp => by
    obtain ⟨t, th, hth, ho⟩ := hi.owner p hp
    exact ⟨t, th, hth, (hk.links.id p).trans ho.id, (hk.stackEnd p).trans ho.stack, ho.stack_ne,
      ho.alive, ho.started⟩,
    fun p hp q hq he => hi.ids p hp q hq (by rwa [hk.links.id, hk.links.id] at he), hi.threads,
    fun p hp => hi.allocated p (hk.links.allocated ▸ hp), hk.links.allocated ▸ hi.nodup,
    hk.links.allocated ▸ hi.heap, fun p => (hk.finished p).trans (hi.unfinished p),
    hi.infoThreads, hi.infoNodup, hi.infoOwner, hi.unstarted,
    fun h => hk.links.firstThreadUsed.trans (hi.used h), fun h => absurd (hinit.symm.trans h) (by simp)⟩

/-- An OS that reports no exit code for the handle of a running thread's record reports none
for any linked record. -/
theorem exited_false (hi : NativeInv H s ts infos init B) {os : OsView}
    (hc : (ts.all fun th => !th.alive || match gcLookupThread H s th.win32Id with
      | .ok (some p) => !os.exited (s.rep p).handle
      | _ => true) = true) :
    ∀ p ∈ tableRecords H B, os.exited (s.rep p).handle = false := fun p hp => by
  obtain ⟨t, th, hth, ho⟩ := hi.owner p hp
  have := List.all_eq_true.mp hc th (List.getElem?_mem hth)
  rw [ho.alive, ← ho.id, hi.lookup_of_mem hp] at this
  simpa using this

end NativeInv

end Preservation

/-- The invariant of a native process, over some bucket lists. -/
def NativeRuntime.Inv (H : TableHash) (rt : NativeRuntime) : Prop :=
  ∃ B, NativeInv H rt.table rt.threads rt.startInfos rt.initialized B

section Steps

variable {H : TableHash} {s s' : ThreadTable} {ts : List NativeThread} {infos : List Ptr}
  {init : Bool} {B : Nat → List Ptr} {rt rt' : NativeRuntime}

/-- When no linked record has the id `w`, `GC_lookup_thread` returns null. -/
theorem gcLookupThread_none_of (hi : TableInv H s B) {w : Nat}
    (hl : ∀ p ∈ tableRecords H B, (s.rep p).id ≠ w) : gcLookupThread H s w = .ok none := by
  rw [gcLookupThread_eq hi, List.find?_eq_none.mpr]
  intro q hq
  simpa using hl q (mem_tableRecords.mpr ⟨_, H.index_lt w, hq⟩)

/-- A running thread is present, alive, and has no start-info block pending. -/
theorem NativeRuntime.running_eq_some {t : Nat} {th : NativeThread} (h : rt.running t = some th) :
    rt.thread? t = some th ∧ th.alive = true ∧ th.startInfo = none := by
  unfold NativeRuntime.running at h
  cases hth : rt.thread? t with
  | none => simp [hth] at h
  | some y =>
    simp only [hth, Option.filter, Bool.and_eq_true, Option.isNone_iff_eq_none] at h
    split at h
    · cases h; exact ⟨rfl, ‹_ ∧ _›⟩
    · cases h

/-- The invariant holds at start: an empty table, the main thread alone, no start-info block, and
`GC_thr_init` not yet run. -/
theorem NativeInv.start {main : NativeThread} (hs : main.startInfo = none) :
    NativeInv H ThreadTable.init [main] [] false fun _ => [] := by
  have one : ∀ {t : Nat} {th : NativeThread}, [main][t]? = some th → t = 0 ∧ th = main := by
    intro t th h
    cases t <;> simp at h ⊢
    exact h.symm
  have hnil := tableRecords_init (tableInv_init (H := H))
  refine { table := tableInv_init, owner := by simp [hnil], ids := by simp [hnil],
           threads := fun i j _ _ hi hj _ _ _ => (one hi).1.trans (one hj).1.symm,
           allocated := by simp [ThreadTable.init], nodup := by simp [ThreadTable.init],
           heap := by simp [ThreadTable.init], unfinished := fun _ => rfl,
           infoThreads := fun b => ?_, infoNodup := List.nodup_nil,
           infoOwner := fun i j _ _ _ hi hj _ _ => (one hi).1.trans (one hj).1.symm,
           unstarted := fun t th h hs' => ?_, used := nofun,
           uninit := fun _ => ⟨rfl, fun t th h => (one h).2 ▸ hs⟩ }
  · simp only [List.not_mem_nil, false_iff, not_exists, not_and]
    intro t th h
    simp [(one h).2, hs]
  · simp [(one h).2, hs] at hs'

/-- `GC_register_my_thread` in a running started thread after `GC_thr_init`. -/
theorem NativeInv.of_registerNative {nl : Bool} {dup : Option Nat} {alloc : Option Ptr}
    {st : RegisterStatus} {t : Nat} {th : NativeThread} (hi : NativeInv H s ts infos init B)
    (hinit : init = true) (ha : AllocAnswer s alloc) (hth : ts[t]? = some th)
    (halive : th.alive = true) (hs : th.startInfo = none)
    (hr : gcRegisterMyThreadNative H nl s th.win32Id th.stackBase dup alloc = .ok (s', st)) :
    ∃ B', NativeInv H s' ts infos init B' := by
  subst hinit
  unfold gcRegisterMyThreadNative at hr
  cases nl
  · cases hr
  cases hl : gcLookupThread H s th.win32Id with
  | error e => simp [hl] at hr
  | ok r =>
    cases r with
    | none =>
      simp only [hl, Bool.not_true, Bool.false_eq_true, if_false, except_ok_bind] at hr
      obtain ⟨⟨s₁, me⟩, h₁, h₂⟩ := except_bind_eq_ok.mp hr
      cases h₂
      exact ⟨_, hi.of_register ha (gcLookupThread_none hi.table hl) h₁ hth rfl rfl halive hs⟩
    | some p =>
      simp only [hl, Bool.not_true, Bool.false_eq_true, if_false, except_ok_bind] at hr
      cases hr
      exact ⟨B, hi⟩

namespace NativeRuntime.Inv

/-! ### One lemma per operation of the native lifecycle: each keeps the invariant -/

theorem of_thrInit {dup : Option Nat} (hi : rt.Inv H) (hc : (rt.thread? 0).any (·.alive) = true)
    (h : gcThrInitNative H rt dup = some (.ok rt')) : rt'.Inv H := by
  obtain ⟨B, hi⟩ := hi
  simp only [gcThrInitNative, Option.bind_eq_bind, Option.bind_eq_some] at h
  obtain ⟨main, hm, h⟩ := h
  split at h
  · cases h
  rename_i hinit
  obtain ⟨⟨s₁, me⟩, hr, rfl⟩ := except_map_eq_ok.mp (Option.some.inj h)
  have hu := hi.uninit (by simpa using hinit)
  -- before `GC_thr_init` the table is empty
  have hl : ∀ p ∈ tableRecords H B, (rt.table.rep p).id ≠ main.win32Id := by
    simp [tableRecords_init (hu.1 ▸ hi.table)]
  exact ⟨_, hi.of_register (show AllocAnswer _ none from trivial) hl hr hm rfl rfl (by simpa [hm] using hc) (hu.2 0 main hm)⟩

theorem of_createThread {parent w sb : Nat} {psi : Option Ptr} {created : Bool} (hi : rt.Inv H)
    (h : gcCreateThread H rt parent w sb psi created = some rt') : rt'.Inv H := by
  obtain ⟨B, hi⟩ := hi
  simp only [gcCreateThread, Option.bind_eq_bind, Option.bind_eq_some] at h
  obtain ⟨th, -, h⟩ := h
  split at h
  · cases h
  rename_i hg
  have hinit : rt.initialized = true := by revert hg; cases rt.initialized <;> simp
  cases psi with
  | none => cases h; exact ⟨B, hi⟩
  | some b =>
    simp only at h
    split at h
    · cases h
    rename_i hb
    split at h
    · cases h; exact ⟨B, hi⟩
    split at h
    · cases h
      rename_i hfree
      exact ⟨B, hi.of_append (fun _ _ y hy => NativeRuntime.win32IdFree_running hfree
        (List.getElem?_mem hy)) (.inr ⟨b, rfl, by simpa using hb, rfl, hinit⟩) fun _ => ⟨rfl, rfl⟩⟩
    · cases h

theorem of_foreignCreate {w sb : Nat} (hi : rt.Inv H) (h : nativeForeignCreate H rt w sb = some rt') :
    rt'.Inv H := by
  obtain ⟨B, hi⟩ := hi
  unfold nativeForeignCreate at h
  split at h
  · cases h
    rename_i hfree
    exact ⟨B, hi.of_append (fun _ _ y hy => NativeRuntime.win32IdFree_running hfree
      (List.getElem?_mem hy)) (.inl ⟨rfl, rfl⟩) (by simp)⟩
  · cases h

theorem of_startInner {t : Nat} {dup : Option Nat} {alloc : Option Ptr} (hi : rt.Inv H)
    (ha : AllocAnswer rt.table alloc) (h : gcWin32StartInner H rt t dup alloc = some (.ok rt')) :
    rt'.Inv H := by
  obtain ⟨B, hi⟩ := hi
  simp only [gcWin32StartInner, Option.bind_eq_bind, Option.bind_eq_some] at h
  obtain ⟨th, hth, psi, hpsi, h⟩ := h
  split at h
  · cases h
  rename_i halive
  obtain ⟨⟨s₁, st⟩, hr, rfl⟩ := except_map_eq_ok.mp (Option.some.inj h)
  have hta : th.alive = true := by simpa using halive
  -- `GC_CreateThread` runs after `GC_thr_init` only
  have hinit : rt.initialized = true := by
    cases hn : rt.initialized
    · simp [(hi.uninit hn).2 t th hth] at hpsi
    · rfl
  -- the thread drops its start info, which is freed, then registers
  have h₁ := hi.of_setThread (x := { th with startInfo := none, inStart := true }) hth rfl rfl
    (fun _ => hta) (fun _ _ _ _ => ⟨hta, rfl⟩) (.inr ⟨psi, hpsi, rfl, rfl⟩) (by simp)
  exact h₁.of_registerNative hinit ha (getElem?_set_of_getElem? hth) hta rfl hr

/-- The thread `t` unregisters and ends: `GC_win32_start_inner`'s `__finally`, or
`GC_ExitThread`. -/
theorem of_unregisterEnd {t : Nat} {th : NativeThread} (hi : rt.Inv H) (hth : rt.thread? t = some th)
    (hs : th.startInfo.isSome = false) (hr : gcUnregisterMyThreadNative H rt.table th.win32Id = .ok s') :
    ((rt.setTable s').setThread t { th with alive := false, inStart := false }).Inv H := by
  obtain ⟨B, hi⟩ := hi
  obtain ⟨B', hi', hl⟩ := hi.of_delete hr
  exact ⟨B', hi'.of_setThread hth rfl rfl (by simp) (fun p hp hid _ => absurd hid (hl p hp))
    (.inl ⟨rfl, rfl⟩) (by simp [hs])⟩

theorem of_startReturn {t : Nat} (hi : rt.Inv H) (h : gcWin32StartReturn H rt t = some (.ok rt')) :
    rt'.Inv H := by
  simp only [gcWin32StartReturn, Option.bind_eq_bind, Option.bind_eq_some] at h
  obtain ⟨th, hth, h⟩ := h
  split at h
  · cases h
  rename_i hg
  obtain ⟨s₁, hr, rfl⟩ := except_map_eq_ok.mp (Option.some.inj h)
  -- a thread inside its start routine has dropped its start info
  have hs : th.startInfo.isSome = false := by
    obtain ⟨B, hi⟩ := hi
    cases hb : th.startInfo.isSome
    · rfl
    · have := (hi.unstarted t th hth hb).2
      simp [this] at hg
  exact hi.of_unregisterEnd hth hs hr

theorem of_exitThread {t : Nat} (hi : rt.Inv H) (h : gcExitThread H rt t = some (.ok rt')) :
    rt'.Inv H := by
  simp only [gcExitThread, Option.bind_eq_bind, Option.bind_eq_some] at h
  obtain ⟨th, hth, h⟩ := h
  split at h
  · cases h
  rename_i hg
  obtain ⟨s₁, hr, rfl⟩ := except_map_eq_ok.mp (Option.some.inj h)
  exact hi.of_unregisterEnd hth (by revert hg; cases th.startInfo.isSome <;> simp) hr

variable {a : Bool} {sys sys' : NativeSystem}

/-- Every step that keeps the contract keeps the invariant. -/
theorem step {e : NativeEvent} (hi : sys.rt.Inv H) (hc : e.keepsContract H sys.rt = true)
    (h : nativeStep H a sys e = some (.ok sys')) : sys'.rt.Inv H := by
  cases e with
  | thrInit dup =>
    obtain ⟨r, h₁, h₂⟩ := Option.map_eq_some'.mp h
    obtain ⟨rt', rfl, rfl⟩ := except_map_eq_ok.mp h₂
    exact hi.of_thrInit hc h₁
  | createThread parent w sb psi created =>
    obtain ⟨rt', h₁, h₂⟩ := Option.map_eq_some'.mp h
    cases h₂
    exact hi.of_createThread h₁
  | foreignCreate w sb =>
    obtain ⟨rt', h₁, h₂⟩ := Option.map_eq_some'.mp h
    cases h₂
    exact hi.of_foreignCreate h₁
  | startInner t dup alloc =>
    simp only [nativeStep] at h
    split at h
    · obtain ⟨r, h₁, h₂⟩ := Option.map_eq_some'.mp h
      obtain ⟨rt', rfl, rfl⟩ := except_map_eq_ok.mp h₂
      exact hi.of_startInner (allocAnswer_of_allocOk ‹_›) h₁
    · cases h
  | startReturn t =>
    obtain ⟨r, h₁, h₂⟩ := Option.map_eq_some'.mp h
    obtain ⟨rt', rfl, rfl⟩ := except_map_eq_ok.mp h₂
    exact hi.of_startReturn h₁
  | exitThread t =>
    obtain ⟨r, h₁, h₂⟩ := Option.map_eq_some'.mp h
    obtain ⟨rt', rfl, rfl⟩ := except_map_eq_ok.mp h₂
    exact hi.of_exitThread h₁
  | register t dup alloc =>
    obtain ⟨B, hi⟩ := hi
    simp only [nativeStep, Option.bind_eq_bind, Option.bind_eq_some] at h
    obtain ⟨th, hth, h⟩ := h
    obtain ⟨hth, ha, hs⟩ := NativeRuntime.running_eq_some hth
    split at h
    · cases h
    rename_i hok
    obtain ⟨⟨s₁, st⟩, hr, rfl⟩ := except_map_eq_ok.mp (Option.some.inj h)
    exact hi.of_registerNative hc (allocAnswer_of_allocOk (by simpa using hok)) hth ha hs hr
  | unregister t =>
    obtain ⟨B, hi⟩ := hi
    simp only [nativeStep, Option.bind_eq_bind, Option.bind_eq_some] at h
    obtain ⟨th, -, h⟩ := h
    obtain ⟨s₁, hr, rfl⟩ := except_map_eq_ok.mp (Option.some.inj h)
    obtain ⟨B', hi', -⟩ := hi.of_delete hr
    exact ⟨B', hi'⟩
  | allowRegister t =>
    simp only [nativeStep, Option.bind_eq_bind, Option.bind_eq_some] at h
    obtain ⟨th, -, h⟩ := h
    cases h
    exact hi
  | terminate t =>
    obtain ⟨B, hi⟩ := hi
    simp only [nativeStep, Option.bind_eq_bind, Option.bind_eq_some] at h
    obtain ⟨th, hth, h⟩ := h
    cases h
    obtain ⟨hth, ha, hs⟩ := NativeRuntime.running_eq_some hth
    -- the contract: the ending thread has no record
    have hl : gcLookupThread H sys.rt.table th.win32Id = .ok none := by
      simp only [NativeEvent.keepsContract, hth, Option.any_some] at hc
      split at hc
      · assumption
      · cases hc
    exact ⟨B, hi.of_setThread hth rfl rfl (by simp) (fun p hp hid _ =>
      absurd hid (gcLookupThread_none hi.table hl p hp)) (.inl ⟨rfl, rfl⟩) (by simp [hs])⟩
  | collect t approxSp os =>
    obtain ⟨B, hi⟩ := hi
    simp only [nativeStep, Option.bind_eq_bind, Option.bind_eq_some] at h
    obtain ⟨th, -, h⟩ := h
    split at h
    · cases h
    rename_i hinit
    obtain ⟨st, hr, rfl⟩ := except_map_eq_ok.mp (Option.some.inj h)
    -- an honest OS: the collection is the `GC_PTHREADS` one, which keeps every stack
    have hh := hi.exited_false hc
    rw [gcCollectNative_eq hi.table hh] at hr
    exact ⟨B, hi.of_stacksKept (gcCollect_stacksKept hi.table hh hr) (by simpa using hinit)⟩

end NativeRuntime.Inv

variable {a : Bool} {sys : NativeSystem}

/-- Every reachable system of the native lifecycle satisfies the invariant. -/
theorem NativeReachable.inv (hr : NativeReachable H a sys) : sys.rt.Inv H := by
  induction hr with
  | start main hs => exact ⟨_, NativeInv.start hs⟩
  | step _ hc h ih => exact ih.step hc h

/-- A run that succeeds from a reachable system ends in a reachable system. -/
theorem nativeRunContract_reachable {sys' : NativeSystem} (hr : NativeReachable H a sys)
    (es : List NativeEvent) (h : nativeRunContract H a sys es = some (.ok sys')) :
    NativeReachable H a sys' := by
  induction es generalizing sys with
  | nil => cases h; exact hr
  | cons e es ih =>
    simp only [nativeRunContract] at h
    split at h
    · split at h
      · exact ih (.step hr ‹_› ‹_›) h
      · next hne => exact absurd h (hne _)
    · cases h

end Steps

section Results

variable {H : TableHash} {a : Bool} {sys : NativeSystem}

/-- In a native process run under the contract, every live heap record is linked, and every
record `GC_lookup_thread` can find belongs to a running thread past its start: it carries the
thread's Win32 id and the stack base the thread registered. A thread that `GC_CreateThread` made
and that has not started has no record, so `GC_win32_start_inner` never gets `GC_DUPLICATE`.
Once every thread has ended, `GC_threads` is empty and every record and every `win32_start_info`
block has been freed. -/
theorem native_records_reclaimed (hr : NativeReachable H a sys) :
    (∀ p ∈ sys.rt.table.allocated,
      gcLookupThread H sys.rt.table (sys.rt.table.rep p).id = .ok (some p)) ∧
    (∀ w p, gcLookupThread H sys.rt.table w = .ok (some p) → ∃ t th, sys.rt.thread? t = some th ∧
      th.alive = true ∧ th.startInfo = none ∧ th.win32Id = w ∧
      (sys.rt.table.rep p).stackEnd = th.stackBase) ∧
    (∀ t th, sys.rt.thread? t = some th → th.startInfo.isSome = true →
      gcLookupThread H sys.rt.table th.win32Id = .ok none) ∧
    ((∀ th ∈ sys.rt.threads, th.alive = false) →
      sys.rt.table.allocated = [] ∧ (∀ h < H.size, sys.rt.table.heads h = none) ∧
      sys.rt.startInfos = []) := by
  obtain ⟨B, hi⟩ := hr.inv
  refine ⟨fun p hp => hi.lookup_of_mem (hi.allocated p hp), fun w p hl => ?_,
    fun t th hth hs => gcLookupThread_none_of hi.table (hi.no_record_of_unstarted hth hs),
    fun hdead => ?_⟩
  · obtain ⟨hp, rfl⟩ := gcLookupThread_mem hi.table hl
    obtain ⟨t, th, hth, ho⟩ := hi.owner p hp
    exact ⟨t, th, hth, ho.alive, ho.started, ho.id.symm, ho.stack⟩
  -- a linked record, or a start-info block, would belong to a running thread
  have hnil : ∀ p ∈ tableRecords H B, False := fun p hp => by
    obtain ⟨t, th, hth, ho⟩ := hi.owner p hp
    simpa [hdead th (List.getElem?_mem hth)] using ho.alive
  refine ⟨List.eq_nil_iff_forall_not_mem.mpr fun p hp => hnil p (hi.allocated p hp),
    hi.table.heads_none hnil, List.eq_nil_iff_forall_not_mem.mpr fun b hb => ?_⟩
  obtain ⟨t, th, hth, hb⟩ := (hi.infoThreads b).mp hb
  simpa [hdead th (List.getElem?_mem hth)] using (hi.unstarted t th hth (by simp [hb])).1

set_option maxRecDepth 4000 in
/-- In `nativeExitRun` thread `1` unregisters when its start routine returns and the main thread
leaves through `GC_ExitThread`: at the end no thread runs, the table is empty and record `2`
and start info `500` are freed. -/
theorem native_records_reclaimed_exitRun :
    ∃ sys, nativeRunContract lowByteHash false nativeStart nativeExitRun = some (.ok sys) ∧
      (∀ th ∈ sys.rt.threads, th.alive = false) ∧ sys.rt.table.freed = [2] ∧
      (∀ p ∈ sys.rt.table.allocated,
        gcLookupThread lowByteHash sys.rt.table (sys.rt.table.rep p).id = .ok (some p)) ∧
      (∀ w p, gcLookupThread lowByteHash sys.rt.table w = .ok (some p) → ∃ t th,
        sys.rt.thread? t = some th ∧ th.alive = true ∧ th.startInfo = none ∧ th.win32Id = w ∧
        (sys.rt.table.rep p).stackEnd = th.stackBase) ∧
      (∀ t th, sys.rt.thread? t = some th → th.startInfo.isSome = true →
        gcLookupThread lowByteHash sys.rt.table th.win32Id = .ok none) ∧
      ((∀ th ∈ sys.rt.threads, th.alive = false) →
        sys.rt.table.allocated = [] ∧ (∀ h < lowByteHash.size, sys.rt.table.heads h = none) ∧
        sys.rt.startInfos = []) :=
  have hr : NativeReachable lowByteHash false _ :=
    nativeRunContract_reachable (.start nativeMain rfl) nativeExitRun rfl
  ⟨_, rfl, by decide, rfl, native_records_reclaimed hr⟩

/-- Under the contract, a collection of the native build computes what the `GC_PTHREADS`
collection computes, on the table, the `VirtualQuery` cache and the pushed ranges alike: no
record's handle reports an exit code, so the exit branch of `GC_suspend` is never taken. -/
theorem gcCollectNative_eq_gcCollect {t sp : Nat} {os : OsView} (hr : NativeReachable H a sys)
    (hc : (NativeEvent.collect t sp os).keepsContract H sys.rt = true) (self : Nat)
    (c : QueryCache) :
    gcCollectNative H a os self sp sys.rt.table c = gcCollect H a os self sp sys.rt.table c := by
  obtain ⟨B, hi⟩ := hr.inv
  exact gcCollectNative_eq hi.table (hi.exited_false hc)

set_option maxRecDepth 4000 in
/-- The main thread's collection in `nativeExitRun`, while thread `1` runs. -/
theorem gcCollectNative_eq_gcCollect_exitRun :
    ∃ sys, nativeRunContract lowByteHash false nativeStart (nativeExitRun.take 3) =
        some (.ok sys) ∧
      (NativeEvent.collect 0 0xF800 firstScanOs).keepsContract lowByteHash sys.rt = true ∧
      gcCollectNative lowByteHash false firstScanOs 1 0xF800 sys.rt.table .init =
        gcCollect lowByteHash false firstScanOs 1 0xF800 sys.rt.table .init :=
  have hr : NativeReachable lowByteHash false _ :=
    nativeRunContract_reachable (.start nativeMain rfl) (nativeExitRun.take 3) rfl
  ⟨_, rfl, rfl, gcCollectNative_eq_gcCollect (t := 0) hr (by rfl) 1 .init⟩

/-- What the loop of `GC_stop_world` of the native build without assertions keeps on its way
from `s`, with the view `B` of its buckets, to `st`: the heap, every handle, and every link but
those to records whose handle reports an exit code. -/
structure ExitedUnlinked (H : TableHash) (os : OsView) (s : ThreadTable) (B : Nat → List Ptr)
    (st : ThreadTable) : Prop where
  allocated : st.allocated = s.allocated
  freed : st.freed = s.freed
  firstThreadUsed : st.firstThreadUsed = s.firstThreadUsed
  handle : ∀ q, (st.rep q).handle = (s.rep q).handle
  links : ∃ B', TableInv H st B' ∧ (∀ q ∈ tableRecords H B', q ∈ tableRecords H B) ∧
    ∀ q ∈ tableRecords H B, q ∉ tableRecords H B' → os.exited (s.rep q).handle = true

namespace ExitedUnlinked

variable {os : OsView} {s t u : ThreadTable} {B : Nat → List Ptr}

theorem refl (hi : TableInv H s B) : ExitedUnlinked H os s B s :=
  ⟨rfl, rfl, rfl, fun _ => rfl, B, hi, fun _ => id, fun _ hq hq' => absurd hq hq'⟩

theorem trans (h₁ : ExitedUnlinked H os s B t)
    (h₂ : ∀ {B₁}, TableInv H t B₁ → ExitedUnlinked H os t B₁ u) : ExitedUnlinked H os s B u := by
  obtain ⟨B₁, hi₁, hsub, hex⟩ := h₁.links
  have h₂ := h₂ hi₁
  obtain ⟨B₂, hi₂, hsub', hex'⟩ := h₂.links
  refine ⟨h₂.allocated.trans h₁.allocated, h₂.freed.trans h₁.freed,
    h₂.firstThreadUsed.trans h₁.firstThreadUsed, fun q => (h₂.handle q).trans (h₁.handle q),
    B₂, hi₂, fun q hq => hsub q (hsub' q hq), fun q hq hq' => ?_⟩
  by_cases hq₁ : q ∈ tableRecords H B₁
  · rw [← h₁.handle q]; exact hex' q hq₁ hq'
  · exact hex q hq hq₁

end ExitedUnlinked

/-- One iteration of the loop of `GC_stop_world` of the native build without assertions unlinks
at most the record it visits, only when that record's handle reports an exit code. -/
theorem suspendIfWantedNative_unlinks {os : OsView} {self : Nat} {p : Ptr} {s s' : ThreadTable}
    {B : Nat → List Ptr} (hi : TableInv H s B) (h : suspendIfWantedNative H false os self s p = .ok s') :
    ExitedUnlinked H os s B s' := by
  simp only [suspendIfWantedNative, gcSuspendNative, Bool.false_eq_true, if_false] at h
  split at h
  · split at h
    · next hx =>
      obtain ⟨pre, post, hB, rfl⟩ := gcDeleteGcThreadNoFree_found hi h
      have hh := H.index_lt (s.rep p).id
      have hm := fun q => mem_tableRecords_unlink_iff (q := q) hi hh hB
      refine ⟨by simp, by simp, by simp, by simp, _, (hi.closeHandle _).unlink hh hB,
        fun q hq => ((hm q).mp hq).1, fun q hq hq' => ?_⟩
      obtain rfl : q = p := by_contra fun hne => hq' ((hm q).mpr ⟨hq, hne⟩)
      exact hx
    · cases h
      refine ⟨rfl, rfl, rfl, fun q => ?_, B, hi.updateRep fun _ => rfl, fun _ => id,
        fun _ hq hq' => absurd hq hq'⟩
      by_cases hq : q = p
      · subst hq; simp
      · rw [updateRep_rep_ne _ _ hq]
  · cases h
    exact .refl hi

/-- Without assertions, `GC_stop_world` of the native build leaks the record of every thread
whose handle reports an exit code: `GC_delete_gc_thread_no_free` unlinks it, so that no bucket
of `GC_threads` reaches it any more, and nothing frees it, so that it stays allocated (or
`first_thread` stays in use). No other record is unlinked, and no record is freed. -/
theorem gcStopWorldNative_leaks (os : OsView) (self : Nat) {s s' : ThreadTable}
    {B : Nat → List Ptr} (hi : TableInv H s B) (h : gcStopWorldNative H false os self s = .ok s') :
    s'.allocated = s.allocated ∧ s'.freed = s.freed ∧ ∃ B', TableInv H s' B' ∧
      (∀ q ∈ tableRecords H B', q ∈ tableRecords H B) ∧
      ∀ q ∈ tableRecords H B, q ∉ tableRecords H B' → os.exited (s.rep q).handle = true ∧
        ((q ∈ s'.allocated ∧ q ≠ firstThread) ∨ (q = firstThread ∧ s'.firstThreadUsed = true)) := by
  have hu : ExitedUnlinked H os s B s' := walkBuckets_preserves
    (fun _ _ _ hP hb => hP.trans fun hi₁ => suspendIfWantedNative_unlinks hi₁ hb) _ s (.refl hi) h
  obtain ⟨B', hi', hsub, hex⟩ := hu.links
  refine ⟨hu.allocated, hu.freed, B', hi', hsub, fun q hq hq' => ⟨hex q hq hq', ?_⟩⟩
  obtain ⟨k, hk, hqk⟩ := mem_tableRecords.mp hq
  rw [hu.allocated, hu.firstThreadUsed]
  exact hi.owned k hk q hqk

set_option maxRecDepth 4000 in
/-- In `nativeRawExitRun` thread `1` ends with a plain `ExitThread` while registered. The main
thread's collection then fails `GC_ASSERT(GC_win32_dll_threads)` with assertions; without them,
its `GC_stop_world` unlinks record `2` of the exited thread, which `GC_lookup_thread` found
before, and leaves it allocated. -/
theorem nativeRawExit_unlinks_unfreed :
    nativeRun lowByteHash true nativeStart nativeRawExitRun = some (.error (.assertFailed 1204)) ∧
    ∃ sys s' B, nativeRun lowByteHash false nativeStart (nativeRawExitRun.take 4) = some (.ok sys) ∧
      TableInv lowByteHash sys.rt.table B ∧
      gcStopWorldNative lowByteHash false exitedOs 1 sys.rt.table = .ok s' ∧
      gcLookupThread lowByteHash sys.rt.table 2 = .ok (some 2) ∧
      gcLookupThread lowByteHash s' 2 = .ok none ∧ sys.rt.table.allocated = [2] ∧
      s'.allocated = sys.rt.table.allocated ∧ s'.freed = sys.rt.table.freed ∧
      ∃ B', TableInv lowByteHash s' B' ∧
        (∀ q ∈ tableRecords lowByteHash B', q ∈ tableRecords lowByteHash B) ∧
        ∀ q ∈ tableRecords lowByteHash B, q ∉ tableRecords lowByteHash B' →
          exitedOs.exited (sys.rt.table.rep q).handle = true ∧
          ((q ∈ s'.allocated ∧ q ≠ firstThread) ∨ (q = firstThread ∧ s'.firstThreadUsed = true)) := by
  have hr : NativeReachable lowByteHash false _ :=
    nativeRunContract_reachable (.start nativeMain rfl) (nativeRawExitRun.take 3) rfl
  obtain ⟨B, hi⟩ := hr.inv
  exact ⟨rfl, _, _, B, rfl, hi.table, rfl, rfl, rfl, rfl, gcStopWorldNative_leaks exitedOs 1 hi.table (by rfl)⟩

end Results

end Win32GcThreads
