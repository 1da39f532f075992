import Win32GcThreads.OwnRecord

/-!
# Every record is reclaimed once its thread is done

In explicit mode a record leaves `GC_threads` in two ways: `GC_thread_exit_proc` or
`GC_unregister_my_thread` deletes a `DETACHED` record at once, and `GC_pthread_join` or
`GC_pthread_detach` frees a `FINISHED` one. Under the rules of the thread API (`keepsContract`)
every reachable process keeps `OwnerInv`: each linked record belongs to one thread by its
`pthread_t`, is `DETACHED` exactly when that thread can no longer be joined, and is `FINISHED`
once it has terminated. So once every thread has terminated and been joined or detached, the
table is empty and every heap record is freed. The takeover of another thread's `FINISHED`
record, which the register rule excludes, leaks that record.
-/

namespace Win32GcThreads

section Contract

variable (H : TableHash)

/-- The record `GC_lookup_by_pthread` finds for `th`, if any, is `FINISHED`. -/
def Runtime.recordFinished (rt : Runtime) (th : OsThread) : Bool :=
  match gcLookupByPthread H rt.table rt.pthreadMapCache th.pthread with
  | .ok none => true
  | .ok (some p) => (rt.table.rep p).finished
  | .error _ => false

/-- The event keeps the rules of the thread API listed above. -/
def LifeEvent.keepsContract (rt : Runtime) : LifeEvent → Bool
  | .thrInit _ => (rt.thread? 0).any (·.alive)
  | .register t _ _ _ => rt.initialized && (rt.thread? t).any fun th =>
      th.startInfo.isNone &&
        match gcLookupThread H rt.table th.win32Id with
        | .ok none => !th.joinable
        | .ok (some p) => (rt.table.rep p).pthreadId == th.pthread
        | .error _ => false
  | .unregister t => (rt.thread? t).any (·.me.isNone)
  | .terminate t => (rt.thread? t).any (rt.recordFinished H)
  | _ => true

/-- The processes reached from a fresh one, whose main thread can be joined, by lifecycle steps
that keep the contract. -/
inductive ContractReachable : Runtime → Prop
  | start (main : OsThread) (hm : main.me = none) (hs : main.startInfo = none)
      (hj : main.joinable = true) (hp : main.pending = none) (hb : main.blocking = none) :
      ContractReachable (Runtime.start main)
  | step {rt rt' : Runtime} {e : LifeEvent} : ContractReachable rt → e.keepsContract H rt = true →
      lifeStep H rt e = some (.ok rt') → ContractReachable rt'

/-- `runLife`, stopping with `none` at the first event that breaks the contract. -/
def runLifeContract (rt : Runtime) : List LifeEvent → Option (Except Fault Runtime)
  | [] => some (.ok rt)
  | e :: es =>
    if e.keepsContract H rt then
      match lifeStep H rt e with
      | some (.ok rt') => runLifeContract rt' es
      | r => r
    else none

end Contract

/-- The `pthread_t` a pending join or detach is for. -/
def PendingCall.target : PendingCall → Nat
  | .join target _ | .detach target _ => target

/-- The record the lookup loop of a pending join or detach found. -/
def PendingCall.record : PendingCall → Ptr
  | .join _ t | .detach _ t => t

/-- Thread `th` owns a record with fields `r`: the record carries its `pthread_t` and Win32
id, the thread has started, the record is `DETACHED` exactly when the thread can no longer be
joined, a `FINISHED` record is not `DETACHED`, and the record of a terminated thread is
`FINISHED`. -/
structure ThreadRep.OwnedBy (r : ThreadRep) (th : OsThread) : Prop where
  pthread : r.pthreadId = th.pthread
  id : r.id = th.win32Id
  started : th.startInfo = none
  detached : r.detached = !th.joinable
  finished : r.finished = true → r.detached = false
  done : th.alive = true ∨ r.finished = true

section Invariant

variable (H : TableHash)

/-- A pending join or detach is for an existing thread, and while that thread can be joined
the record its lookup loop found is linked and carries the thread's `pthread_t`. -/
def PendingOk (s : ThreadTable) (ts : List OsThread) (B : Nat → List Ptr) (c : PendingCall) :
    Prop :=
  ∃ (i : Nat) (tg : OsThread), ts[i]? = some tg ∧ tg.pthread = c.target ∧
    (tg.joinable = true → c.record ∈ tableRecords H B ∧ (s.rep c.record).pthreadId = c.target)

/-- A linked record that carries the Win32 id of a running thread carries that thread's
`pthread_t`: a thread registers records under its own id, and the OS hands an id out again
only once no linked record holds a handle of its old thread. -/
def RunningIds (s : ThreadTable) (ts : List OsThread) (B : Nat → List Ptr) : Prop :=
  ∀ p ∈ tableRecords H B, ∀ (t : Nat) (th : OsThread), ts[t]? = some th → th.alive = true →
    (s.rep p).id = th.win32Id → (s.rep p).pthreadId = th.pthread

/-- What a run that keeps the contract keeps, for the table `s`, the threads `ts`, whether
`GC_thr_init` has run, and the view `B` of the buckets. -/
structure OwnerInv (s : ThreadTable) (ts : List OsThread) (initialized : Bool)
    (B : Nat → List Ptr) : Prop where
  table : TableInv H s B
  /-- Every linked record is owned by a thread. -/
  owner : ∀ p ∈ tableRecords H B, ∃ (t : Nat) (th : OsThread), ts[t]? = some th ∧ (s.rep p).OwnedBy th
  /-- No two linked records carry the same `pthread_t`. -/
  pthreadIds : ∀ p ∈ tableRecords H B, ∀ q ∈ tableRecords H B,
    (s.rep p).pthreadId = (s.rep q).pthreadId → p = q
  /-- No two threads have the same `pthread_t`. -/
  pthreads : ∀ (i j : Nat) (thi thj : OsThread), ts[i]? = some thi → ts[j]? = some thj → thi.pthread = thj.pthread →
    i = j
  runningIds : RunningIds H s ts B
  /-- Every live heap record is linked. -/
  allocated : ∀ p ∈ s.allocated, p ∈ tableRecords H B
  nodup : s.allocated.Nodup
  heap : firstThread ∉ s.allocated
  /-- A thread `GC_pthread_create` made can be joined unless it was created detached. -/
  unstarted : ∀ (t : Nat) (th : OsThread) (d : Bool), ts[t]? = some th → th.startInfo = some d → th.joinable = !d
  /-- A started thread that can be joined has a linked record. -/
  joinable : initialized = true → ∀ (t : Nat) (th : OsThread), ts[t]? = some th → th.joinable = true →
    th.startInfo = none → ∃ p ∈ tableRecords H B, (s.rep p).pthreadId = th.pthread
  pending : ∀ (j : Nat) (th : OsThread) (c : PendingCall), ts[j]? = some th → th.pending = some c → PendingOk H s ts B c
  used : initialized = true → s.firstThreadUsed = true
  /-- Before `GC_thr_init` the table is empty, only the main thread can be joined, and no
  thread is inside a join, a detach or `GC_do_blocking`. -/
  uninit : initialized = false → s = ThreadTable.init ∧
    (∃ main : OsThread, ts[0]? = some main ∧ main.joinable = true) ∧
    ∀ (j : Nat) (th : OsThread), ts[j]? = some th → th.pending = none ∧ th.blocking = none ∧ (th.joinable = true → j = 0)

/-- What a thread may change in place: it keeps its identity, start argument and
joinability, it terminates only once its records are `FINISHED`, and a pending call it
starts is one the invariant accepts. -/
structure ThreadSucceeds (s : ThreadTable) (ts : List OsThread) (B : Nat → List Ptr)
    (x th : OsThread) : Prop where
  pthread : x.pthread = th.pthread
  win32Id : x.win32Id = th.win32Id
  startInfo : x.startInfo = th.startInfo
  joinable : x.joinable = th.joinable
  alive : x.alive = th.alive ∨ x.alive = false ∧
    ∀ p ∈ tableRecords H B, (s.rep p).pthreadId = th.pthread → (s.rep p).finished = true
  pending : x.pending = th.pending ∨ ∀ c, x.pending = some c → PendingOk H s ts B c

end Invariant

section Lists

variable {ts : List OsThread} {t j : Nat} {th x y : OsThread}

/-- Replacing a thread by one with the same `pthread_t` keeps `pthread_t`s distinct. -/
theorem pthreads_set (hp : ∀ (i j : Nat) (thi thj : OsThread), ts[i]? = some thi → ts[j]? = some thj →
      thi.pthread = thj.pthread → i = j) (hth : ts[t]? = some th) (hx : x.pthread = th.pthread) :
    ∀ (i j : Nat) (thi thj : OsThread), (ts.set t x)[i]? = some thi → (ts.set t x)[j]? = some thj →
      thi.pthread = thj.pthread → i = j := by
  have back : ∀ {k : Nat} {z : OsThread}, (ts.set t x)[k]? = some z → ∃ w : OsThread, ts[k]? = some w ∧ w.pthread = z.pthread :=
    fun hz => (getElem?_set_cases hz).elim (fun ⟨hk, hz⟩ => ⟨th, hk ▸ hth, hz ▸ hx.symm⟩)
      fun ⟨_, hz⟩ => ⟨_, hz, rfl⟩
  intro i j thi thj hi hj he
  obtain ⟨wi, hwi, hpi⟩ := back hi
  obtain ⟨wj, hwj, hpj⟩ := back hj
  exact hp i j wi wj hwi hwj (by rw [hpi, hpj, he])

/-- Appending a thread with a fresh `pthread_t` keeps `pthread_t`s distinct. -/
theorem pthreads_append (hp : ∀ (i j : Nat) (thi thj : OsThread), ts[i]? = some thi → ts[j]? = some thj →
      thi.pthread = thj.pthread → i = j) (hx : ∀ (j : Nat) (th : OsThread), ts[j]? = some th → th.pthread ≠ x.pthread) :
    ∀ (i j : Nat) (thi thj : OsThread), (ts ++ [x])[i]? = some thi → (ts ++ [x])[j]? = some thj →
      thi.pthread = thj.pthread → i = j := by
  intro i j thi thj hi hj he
  rcases getElem?_concat_cases hi with hi | ⟨hil, rfl⟩ <;>
    rcases getElem?_concat_cases hj with hj | ⟨hjl, hjx⟩
  · exact hp i j thi thj hi hj he
  · exact absurd (hjx ▸ he) (hx i thi hi)
  · exact absurd he.symm (hx j thj hj)
  · omega

end Lists

section Owner

variable {r r' : ThreadRep} {th x : OsThread}

/-- Ownership reads the `pthread_t`, the id and two flags of the record. -/
theorem ThreadRep.OwnedBy.of_rep (h : r.OwnedBy th) (hp : r'.pthreadId = r.pthreadId)
    (hi : r'.id = r.id) (hd : r'.detached = r.detached) (hf : r'.finished = r.finished) :
    r'.OwnedBy th :=
  ⟨hp.trans h.pthread, hi.trans h.id, h.started, hd.trans h.detached,
    fun h' => hd.trans (h.finished (hf ▸ h')), hf ▸ h.done⟩

/-- Ownership passes to a thread with the same identity, start argument and joinability,
running or owning a `FINISHED` record. -/
theorem ThreadRep.OwnedBy.of_thread (h : r.OwnedBy th) (hp : x.pthread = th.pthread)
    (hw : x.win32Id = th.win32Id) (hs : x.startInfo = th.startInfo) (hj : x.joinable = th.joinable)
    (ha : x.alive = true ∨ r.finished = true) : r.OwnedBy x :=
  ⟨h.pthread.trans hp.symm, h.id.trans hw.symm, hs.trans h.started, by rw [hj]; exact h.detached,
    h.finished, ha⟩

end Owner

section Table

variable {H : TableHash} {s s' : ThreadTable} {B : Nat → List Ptr}

/-- The initial table links no record. -/
theorem tableRecords_init (hi : TableInv H ThreadTable.init B) : tableRecords H B = [] := by
  refine List.eq_nil_iff_forall_not_mem.mpr fun p hp => ?_
  obtain ⟨h, hh, hm⟩ := mem_tableRecords.mp hp
  have hc := hi.chain h hh
  rw [show ThreadTable.init.heads h = none from rfl, Chain.none_iff] at hc
  simp [hc] at hm

/-- Every answer of `GC_lookup_by_pthread(P)` under the invariant: NULL when no linked record
carries `P`, else a linked record carrying `P`. -/
theorem gcLookupByPthread_cases (hi : TableInv H s B) (c : Nat → Nat) (P : Nat) :
    (gcLookupByPthread H s c P = .ok none ∧ ∀ p ∈ tableRecords H B, (s.rep p).pthreadId ≠ P) ∨
      ∃ q, gcLookupByPthread H s c P = .ok (some q) ∧ q ∈ tableRecords H B ∧
        (s.rep q).pthreadId = P := by
  rw [gcLookupByPthread_eq hi]
  have hsub : B (H.index (c (pthreadMapIndex P))) ⊆ tableRecords H B := fun _ hp =>
    mem_tableRecords.mpr ⟨_, H.index_lt _, hp⟩
  cases hL : (tableRecords H B).find? fun p => (s.rep p).pthreadId == P with
  | none =>
    have hn := List.find?_eq_none.mp hL
    refine .inl ⟨?_, fun p hp => by simpa using hn p hp⟩
    rw [List.find?_eq_none.mpr fun p hp => hn p (hsub hp)]
    rfl
  | some q =>
    refine .inr ?_
    cases hl : (B (H.index (c (pthreadMapIndex P)))).find? fun p => (s.rep p).pthreadId == P with
    | none => exact ⟨q, rfl, List.mem_of_find?_eq_some hL, by simpa using List.find?_some hL⟩
    | some q' =>
      exact ⟨q', rfl, hsub (List.mem_of_find?_eq_some hl), by simpa using List.find?_some hl⟩

/-- A lookup by id that finds nothing: no linked record carries the id. -/
theorem gcLookupThread_none (hi : TableInv H s B) {w : Nat} (hl : gcLookupThread H s w = .ok none) :
    ∀ p ∈ tableRecords H B, (s.rep p).id ≠ w := by
  intro p hp he
  obtain ⟨h, hh, hm⟩ := mem_tableRecords.mp hp
  have hh' : h = H.index w := by rw [← hi.hashed h hh p hm, he]
  rw [gcLookupThread_eq hi] at hl
  subst hh'
  exact absurd (he ▸ (List.find?_eq_none.mp (Except.ok.inj hl) p hm)) (by simp)

/-- Linking `r` at the front of a bucket adds exactly `r` to the linked records. -/
theorem mem_tableRecords_linkFront_iff {k : Nat} {r q : Ptr} (hk : k < H.size) :
    q ∈ tableRecords H (Function.update B k (r :: B k)) ↔ q = r ∨ q ∈ tableRecords H B := by
  refine ⟨mem_tableRecords_linkFront, fun hq => mem_tableRecords.mpr ?_⟩
  rcases hq with rfl | hq
  · exact ⟨k, hk, by simp⟩
  · obtain ⟨j, hj, hm⟩ := mem_tableRecords.mp hq
    refine ⟨j, hj, ?_⟩
    by_cases hjk : j = k
    · subst hjk; simp [hm]
    · rwa [Function.update_noteq hjk]

/-- Deleting a found record takes it out of the allocated list, `first_thread` being never
allocated. -/
theorem deleteFound_allocated (hf : firstThread ∉ s.allocated) (hv : Nat) (prev : Option Ptr)
    (p : Ptr) : (deleteFound s hv prev p).allocated = s.allocated.erase p := by
  unfold deleteFound
  split
  · simp
  · next hp => simp [of_not_not hp ▸ List.erase_of_not_mem hf]

end Table

section Preservation

variable {H : TableHash} {s s' : ThreadTable} {ts : List OsThread} {init : Bool}
  {B B' : Nat → List Ptr} {c : PendingCall}

/-- A pending call stays valid when a thread is replaced by one with the same `pthread_t` and
joinability. -/
theorem PendingOk.set {t : Nat} {th x : OsThread} (h : PendingOk H s ts B c) (hth : ts[t]? = some th)
    (hp : x.pthread = th.pthread) (hj : x.joinable = th.joinable) : PendingOk H s (ts.set t x) B c := by
  obtain ⟨i, tg, hi, hpt, hjr⟩ := h
  by_cases hit : i = t
  · subst hit
    obtain rfl := Option.some.inj (hi.symm.trans hth)
    exact ⟨i, x, getElem?_set_of_getElem? hi, hp.trans hpt, fun h => hjr (hj ▸ h)⟩
  · exact ⟨i, tg, by rwa [List.getElem?_set_ne (Ne.symm hit)], hpt, hjr⟩

/-- Every record linked in `B'` was linked in `B` with the same id and `pthread_t`, and every
running thread of `ts'` ran in `ts` under the same id and `pthread_t`. -/
theorem RunningIds.mono {ts' : List OsThread} (h : RunningIds H s ts B)
    (hrec : ∀ p ∈ tableRecords H B', p ∈ tableRecords H B ∧ (s'.rep p).id = (s.rep p).id ∧
      (s'.rep p).pthreadId = (s.rep p).pthreadId)
    (hts : ∀ (j : Nat) (y : OsThread), ts'[j]? = some y → y.alive = true → ∃ x : OsThread,
      ts[j]? = some x ∧ x.alive = true ∧ x.win32Id = y.win32Id ∧ x.pthread = y.pthread) :
    RunningIds H s' ts' B' := fun p hp j y hy ha he => by
  obtain ⟨hp, hid, hpt⟩ := hrec p hp
  obtain ⟨x, hx, hxa, hxi, hxp⟩ := hts j y hy ha
  rw [hpt, ← hxp]
  exact h p hp j x hx hxa (by rw [← hid, he, hxi])

/-- A thread replaced by one with the same id and `pthread_t`, running only if it was. -/
theorem RunningIds.set {t : Nat} {th x : OsThread} (h : RunningIds H s ts B) (hth : ts[t]? = some th)
    (hid : x.win32Id = th.win32Id) (hp : x.pthread = th.pthread) (ha : x.alive = true → th.alive = true) :
    RunningIds H s (ts.set t x) B :=
  h.mono (fun p hp => ⟨hp, rfl, rfl⟩) fun j y hy hya => by
    rcases getElem?_set_cases hy with ⟨rfl, rfl⟩ | ⟨-, hy⟩
    exacts [⟨th, hth, ha hya, hid.symm, hp.symm⟩, ⟨y, hy, hya, rfl, rfl⟩]

namespace OwnerInv

/-- A linked record means that `GC_thr_init` has run. -/
theorem initialized_of_mem (hi : OwnerInv H s ts init B) {p : Ptr} (hp : p ∈ tableRecords H B) :
    init = true := by
  cases hinit : init with
  | true => rfl
  | false =>
    have ht := hi.table
    rw [(hi.uninit hinit).1] at ht
    simp [tableRecords_init ht] at hp

/-- The owner of a linked record carrying the `pthread_t` of thread `t` is thread `t`. -/
theorem owner_eq (hi : OwnerInv H s ts init B) {p : Ptr} (hp : p ∈ tableRecords H B) {t : Nat}
    {th : OsThread} (hth : ts[t]? = some th) (hpt : (s.rep p).pthreadId = th.pthread) :
    (s.rep p).OwnedBy th := by
  obtain ⟨j, thj, hj, ho⟩ := hi.owner p hp
  obtain rfl := hi.pthreads j t thj th hj hth (ho.pthread.symm.trans hpt)
  obtain rfl := Option.some.inj (hj.symm.trans hth)
  exact ho

/-- A thread changed in place as `ThreadSucceeds` allows. -/
theorem of_setThread {t : Nat} {th x : OsThread} (hi : OwnerInv H s ts init B)
    (hth : ts[t]? = some th) (hx : ThreadSucceeds H s ts B x th)
    (hu : init = false → x.pending = none ∧ x.blocking = none) :
    OwnerInv H s (ts.set t x) init B where
  table := hi.table
  owner p hp := by
    obtain ⟨j, thj, hj, ho⟩ := hi.owner p hp
    by_cases hjt : j = t
    · subst hjt
      obtain rfl := Option.some.inj (hj.symm.trans hth)
      exact ⟨j, x, getElem?_set_of_getElem? hj, ho.of_thread hx.pthread hx.win32Id hx.startInfo
        hx.joinable (hx.alive.elim (fun e => ho.done.imp_left e.trans) fun h => .inr (h.2 p hp ho.pthread))⟩
    · exact ⟨j, thj, by rwa [List.getElem?_set_ne (Ne.symm hjt)], ho⟩
  pthreadIds := hi.pthreadIds
  pthreads := pthreads_set hi.pthreads hth hx.pthread
  runningIds := hi.runningIds.set hth hx.win32Id hx.pthread fun ha =>
    hx.alive.elim (fun e => e.symm.trans ha) fun h => absurd (h.1.symm.trans ha) Bool.false_ne_true
  allocated := hi.allocated
  nodup := hi.nodup
  heap := hi.heap
  unstarted j y d hy hd := by
    rcases getElem?_set_cases hy with ⟨-, rfl⟩ | ⟨-, hy⟩
    · rw [hx.joinable]; exact hi.unstarted _ th d hth (hx.startInfo ▸ hd)
    · exact hi.unstarted j y d hy hd
  joinable hinit j y hy hj hs := by
    rcases getElem?_set_cases hy with ⟨-, rfl⟩ | ⟨-, hy⟩
    · rw [hx.pthread]; exact hi.joinable hinit _ th hth (hx.joinable ▸ hj) (hx.startInfo ▸ hs)
    · exact hi.joinable hinit j y hy hj hs
  pending j y c hy hc := by
    rcases getElem?_set_cases hy with ⟨-, rfl⟩ | ⟨-, hy⟩
    · rcases hx.pending with he | h
      · exact (hi.pending _ th c hth (he ▸ hc)).set hth hx.pthread hx.joinable
      · exact (h c hc).set hth hx.pthread hx.joinable
    · exact (hi.pending j y c hy hc).set hth hx.pthread hx.joinable
  used := hi.used
  uninit hinit := by
    obtain ⟨hs, ⟨main, hm, hmj⟩, hall⟩ := hi.uninit hinit
    refine ⟨hs, ?_, fun j y hy => ?_⟩
    · by_cases h0 : t = 0
      · subst h0
        obtain rfl := Option.some.inj (hm.symm.trans hth)
        exact ⟨x, getElem?_set_of_getElem? hm, hx.joinable.trans hmj⟩
      · exact ⟨main, by rwa [List.getElem?_set_ne h0], hmj⟩
    · rcases getElem?_set_cases hy with ⟨rfl, rfl⟩ | ⟨-, hy⟩
      · exact ⟨(hu hinit).1, (hu hinit).2, fun hj => (hall _ th hth).2.2 (hx.joinable ▸ hj)⟩
      · exact hall j y hy

/-- A new thread with a fresh `pthread_t`: one `GC_pthread_create` made, or a foreign one. -/
theorem of_append {x : OsThread} (hi : OwnerInv H s ts init B)
    (hfresh : ∀ (j : Nat) (th : OsThread), ts[j]? = some th → th.pthread ≠ x.pthread)
    (hid : ∀ p ∈ tableRecords H B, (s.rep p).id ≠ x.win32Id)
    (hp : x.pending = none) (hb : x.blocking = none) (hs : ∀ d, x.startInfo = some d → x.joinable = !d)
    (hj : x.joinable = true → x.startInfo ≠ none ∧ init = true) :
    OwnerInv H s (ts ++ [x]) init B where
  table := hi.table
  owner p hp' :=
    let ⟨j, th, hth, ho⟩ := hi.owner p hp'
    ⟨j, th, getElem?_append_of_getElem? hth, ho⟩
  pthreadIds := hi.pthreadIds
  pthreads := pthreads_append hi.pthreads hfresh
  runningIds q hq j y hy ha he := by
    rcases getElem?_concat_cases hy with hy | ⟨-, rfl⟩
    exacts [hi.runningIds q hq j y hy ha he, absurd he (hid q hq)]
  allocated := hi.allocated
  nodup := hi.nodup
  heap := hi.heap
  unstarted j y d hy hd := by
    rcases getElem?_concat_cases hy with hy | ⟨-, rfl⟩
    exacts [hi.unstarted j y d hy hd, hs d hd]
  joinable hinit j y hy hjy hsy := by
    rcases getElem?_concat_cases hy with hy | ⟨-, rfl⟩
    exacts [hi.joinable hinit j y hy hjy hsy, absurd hsy (hj hjy).1]
  pending j y c hy hc := by
    rcases getElem?_concat_cases hy with hy | ⟨-, rfl⟩
    · obtain ⟨i, tg, hti, hpt, hjr⟩ := hi.pending j y c hy hc
      exact ⟨i, tg, getElem?_append_of_getElem? hti, hpt, hjr⟩
    · simp [hp] at hc
  used := hi.used
  uninit hinit := by
    obtain ⟨hs', ⟨main, hm, hmj⟩, hall⟩ := hi.uninit hinit
    refine ⟨hs', ⟨main, getElem?_append_of_getElem? hm, hmj⟩, fun j y hy => ?_⟩
    rcases getElem?_concat_cases hy with hy | ⟨-, rfl⟩
    · exact hall j y hy
    · exact ⟨hp, hb, fun hjy => by simp [(hj hjy).2] at hinit⟩

/-- An in-place write to record `q` after `GC_thr_init` that keeps its id and `pthread_t`,
and leaves `q`, if linked, owned by the thread that owned it. -/
theorem of_updateRep {q : Ptr} {f : ThreadRep → ThreadRep} (hi : OwnerInv H s ts init B)
    (hinit : init = true) (hid : ∀ r, (f r).id = r.id) (hpid : ∀ r, (f r).pthreadId = r.pthreadId)
    (ho : q ∈ tableRecords H B → ∀ (j : Nat) (th : OsThread), ts[j]? = some th →
      (s.rep q).OwnedBy th → (f (s.rep q)).OwnedBy th) :
    OwnerInv H (updateRep s q f) ts init B := by
  have hP : ∀ p, ((updateRep s q f).rep p).pthreadId = (s.rep p).pthreadId := fun p => by
    by_cases hpq : p = q
    · subst hpq; simp [hpid]
    · rw [updateRep_rep_ne _ _ hpq]
  have hI : ∀ p, ((updateRep s q f).rep p).id = (s.rep p).id := fun p => by
    by_cases hpq : p = q
    · subst hpq; simp [hid]
    · rw [updateRep_rep_ne _ _ hpq]
  refine ⟨hi.table.updateRep hid, fun p hp => ?_, fun p hp p' hp' he => hi.pthreadIds p hp p' hp'
    (by rwa [hP, hP] at he), hi.pthreads,
    hi.runningIds.mono (fun p hp => ⟨hp, hI p, hP p⟩) fun j y hy ha => ⟨y, hy, ha, rfl, rfl⟩, hi.allocated, hi.nodup, hi.heap, hi.unstarted,
    fun h t th hth hj hs => ?_, fun j th c hj hc => ?_, fun _ => hi.used hinit,
    fun h => Bool.noConfusion (hinit.symm.trans h)⟩
  · obtain ⟨j, th, hj, hob⟩ := hi.owner p hp
    refine ⟨j, th, hj, ?_⟩
    by_cases hpq : p = q
    · subst hpq; simpa using ho hp j th hj hob
    · rwa [updateRep_rep_ne _ _ hpq]
  · obtain ⟨p, hp, hpt⟩ := hi.joinable h t th hth hj hs
    exact ⟨p, hp, (hP p).trans hpt⟩
  · obtain ⟨i, tg, hti, hpt, hjr⟩ := hi.pending j th c hj hc
    exact ⟨i, tg, hti, hpt, fun h => ⟨(hjr h).1, (hP _).trans (hjr h).2⟩⟩

/-- An in-place write after `GC_thr_init` of fields ownership does not read. -/
theorem of_updateFlags {q : Ptr} {f : ThreadRep → ThreadRep} (hi : OwnerInv H s ts init B)
    (hinit : init = true) (hf : ∀ r, (f r).id = r.id ∧ (f r).pthreadId = r.pthreadId ∧
      (f r).detached = r.detached ∧ (f r).finished = r.finished) :
    OwnerInv H (updateRep s q f) ts init B :=
  OwnerInv.of_updateRep hi hinit (fun r => (hf r).1) (fun r => (hf r).2.1) fun _ _ _ _ h =>
    h.of_rep (hf _).2.1 (hf _).1 (hf _).2.2.1 (hf _).2.2.2

/-- Linking a fresh record `me` in front of bucket `k`, owned by thread `t` as it becomes `x`:
the registration in `GC_thr_init`, in `GC_pthread_start_inner` and in `GC_register_my_thread`. -/
theorem of_link {k : Nat} {me : Ptr} {t : Nat} {th x : OsThread} (hi : OwnerInv H s ts init B)
    (hinit : init = true ∨ ∀ (j : Nat) (y : OsThread), ts[j]? = some y → y.joinable = true → j = t)
    (hk : k < H.size) (hs' : TableInv H s' (Function.update B k (me :: B k)))
    (hme : me ∉ tableRecords H B) (hrep : ∀ q ≠ me, s'.rep q = s.rep q)
    (hA : s'.allocated = s.allocated ∨
      s'.allocated = s.allocated ++ [me] ∧ me ∉ s.allocated ∧ me ≠ firstThread)
    (hU : s'.firstThreadUsed = true) (hth : ts[t]? = some th) (hown : (s'.rep me).OwnedBy x)
    (hx : x.pthread = th.pthread ∧ x.win32Id = th.win32Id ∧ x.joinable = th.joinable ∧
      x.pending = th.pending ∧ x.alive = th.alive)
    (hfree : ∀ p ∈ tableRecords H B, (s.rep p).pthreadId ≠ th.pthread)
    (hids : ∀ (j : Nat) (y : OsThread), ts[j]? = some y → y.alive = true → y.win32Id = th.win32Id → j = t) :
    OwnerInv H s' (ts.set t x) true (Function.update B k (me :: B k)) := by
  obtain ⟨hxp, hxi, hxj, hxq, hxa⟩ := hx
  have hmem : ∀ q, q ∈ tableRecords H (Function.update B k (me :: B k)) ↔
      q = me ∨ q ∈ tableRecords H B := fun q => mem_tableRecords_linkFront_iff hk
  have hne : ∀ q ∈ tableRecords H B, q ≠ me := fun q hq e => hme (e ▸ hq)
  -- the records linked before belong to threads other than `t`
  have hother : ∀ q ∈ tableRecords H B, ∀ (j : Nat) (y : OsThread), ts[j]? = some y →
      (s.rep q).OwnedBy y → j ≠ t := by
    rintro q hq j y hy ho rfl
    obtain rfl := Option.some.inj (hy.symm.trans hth)
    exact hfree q hq ho.pthread
  have hold : ∀ {c : PendingCall}, PendingOk H s ts B c →
      PendingOk H s' (ts.set t x) (Function.update B k (me :: B k)) c := fun hc => by
    obtain ⟨i, tg, hti, hpt, hjr⟩ := hc.set hth hxp hxj
    exact ⟨i, tg, hti, hpt, fun h => ⟨(hmem _).mpr (.inr (hjr h).1),
      by rw [hrep _ (hne _ (hjr h).1)]; exact (hjr h).2⟩⟩
  refine ⟨hs', fun q hq => ?_, fun p hp q hq he => ?_, pthreads_set hi.pthreads hth hxp,
    fun q hq j y hy hya he => ?_, fun p hp => ?_, ?_, ?_, fun j y d hy hd => ?_,
    fun _ j y hy hj hs => ?_, fun j y c hy hc => ?_, fun _ => hU, fun h => absurd h (by simp)⟩
  · -- owner
    rcases (hmem q).mp hq with rfl | hq
    · exact ⟨t, x, getElem?_set_of_getElem? hth, hown⟩
    · obtain ⟨j, y, hy, ho⟩ := hi.owner q hq
      exact ⟨j, y, by rwa [List.getElem?_set_ne (Ne.symm (hother q hq j y hy ho))],
        by rw [hrep q (hne q hq)]; exact ho⟩
  · -- pthreadIds: the new record carries the `pthread_t` no other record carries
    have hcase : ∀ q ∈ tableRecords H (Function.update B k (me :: B k)),
        q = me ∨ q ∈ tableRecords H B ∧ (s'.rep q).pthreadId ≠ th.pthread := fun q hq =>
      ((hmem q).mp hq).imp_right fun hq => ⟨hq, by rw [hrep q (hne q hq)]; exact hfree q hq⟩
    have hme' : (s'.rep me).pthreadId = th.pthread := hown.pthread.trans hxp
    rcases hcase p hp with rfl | ⟨hp, hpn⟩ <;> rcases hcase q hq with rfl | ⟨hq, hqn⟩
    · rfl
    · exact absurd (he.symm.trans hme') hqn
    · exact absurd (he.trans hme') hpn
    · exact hi.pthreadIds p hp q hq (by rwa [hrep p (hne p hp), hrep q (hne q hq)] at he)
  · -- runningIds: only the registering thread runs under the new record's id
    rcases (hmem q).mp hq with rfl | hq
    · rcases getElem?_set_cases hy with ⟨-, rfl⟩ | ⟨hjt, hy⟩
      · exact hown.pthread
      · exact absurd (hids j y hy hya (he.symm.trans (hown.id.trans hxi))) hjt
    · rw [hrep q (hne q hq)] at he ⊢
      exact hi.runningIds.set hth hxi hxp (hxa ▸ id) q hq j y hy hya he
  · -- allocated
    rcases hA with hA | ⟨hA, -⟩
    · exact (hmem p).mpr (.inr (hi.allocated p (hA ▸ hp)))
    · rw [hA, List.mem_append, List.mem_singleton] at hp
      exact (hmem p).mpr (hp.elim (fun h => .inr (hi.allocated p h)) .inl)
  · rcases hA with hA | ⟨hA, hm, -⟩
    · exact hA ▸ hi.nodup
    · rw [hA]; exact hi.nodup.append (List.nodup_singleton me) (List.disjoint_singleton.mpr hm)
  · rcases hA with hA | ⟨hA, -, hf⟩
    · exact hA ▸ hi.heap
    · rw [hA]; simp [hi.heap, Ne.symm hf]
  · -- unstarted
    rcases getElem?_set_cases hy with ⟨-, rfl⟩ | ⟨-, hy⟩
    · simp [hown.started] at hd
    · exact hi.unstarted j y d hy hd
  · -- joinable
    rcases getElem?_set_cases hy with ⟨-, rfl⟩ | ⟨hjt, hy⟩
    · exact ⟨me, (hmem me).mpr (.inl rfl), hown.pthread⟩
    · rcases hinit with hinit | hall
      · obtain ⟨p, hp, hpt⟩ := hi.joinable hinit j y hy hj hs
        exact ⟨p, (hmem p).mpr (.inr hp), by rw [hrep p (hne p hp)]; exact hpt⟩
      · exact absurd (hall j y hy hj) hjt
  · -- pending
    rcases getElem?_set_cases hy with ⟨-, rfl⟩ | ⟨-, hy⟩
    · exact hold (hi.pending _ th c hth (hxq ▸ hc))
    · exact hold (hi.pending j y c hy hc)

/-- Thread `i` can no longer be joined, and its record `t` is unlinked, or stays linked with
fields its owner accepts: the tails of `GC_pthread_join` and `GC_pthread_detach`, and the
deletion of a `DETACHED` record. -/
theorem of_release {t : Ptr} {i : Nat} {tg : OsThread} (hi : OwnerInv H s ts init B)
    (hti : ts[i]? = some tg) (ht : t ∈ tableRecords H B) (hpt : (s.rep t).pthreadId = tg.pthread)
    (hs' : TableInv H s' B') (hsub : ∀ q ∈ tableRecords H B', q ∈ tableRecords H B)
    (hkeep : ∀ q ∈ tableRecords H B, q ≠ t → q ∈ tableRecords H B')
    (hrep : ∀ q ≠ t, s'.rep q = s.rep q)
    (hown : t ∈ tableRecords H B' → (s'.rep t).OwnedBy { tg with joinable := false })
    (hA : ∀ p ∈ s'.allocated, p ∈ tableRecords H B') (hnd : s'.allocated.Nodup)
    (hheap : firstThread ∉ s'.allocated) (hU : s'.firstThreadUsed = s.firstThreadUsed) :
    OwnerInv H s' (ts.set i { tg with joinable := false }) init B' := by
  have hinit := hi.initialized_of_mem ht
  have hstart := (hi.owner_eq ht hti hpt).started
  -- another thread with a record, or a pending call on another thread, is about another record
  have hne : ∀ q ∈ tableRecords H B, ∀ (j : Nat) (y : OsThread), ts[j]? = some y →
      (s.rep q).pthreadId = y.pthread → j ≠ i → q ≠ t := fun q hq j y hy he hji e =>
    hji (hi.pthreads j i y tg hy hti (by rw [← he, e, hpt]))
  have hP : ∀ q ∈ tableRecords H B', (s'.rep q).pthreadId = (s.rep q).pthreadId := fun q hq => by
    by_cases hqt : q = t
    · subst hqt; rw [(hown hq).pthread, hpt]
    · rw [hrep q hqt]
  have hI : ∀ q ∈ tableRecords H B', (s'.rep q).id = (s.rep q).id := fun q hq => by
    by_cases hqt : q = t
    · subst hqt; rw [(hown hq).id, (hi.owner_eq ht hti hpt).id]
    · rw [hrep q hqt]
  refine ⟨hs', fun q hq => ?_, fun p hp q hq he => hi.pthreadIds p (hsub p hp) q (hsub q hq)
    (by rwa [hP p hp, hP q hq] at he), pthreads_set hi.pthreads hti rfl,
    (hi.runningIds.set (x := { tg with joinable := false }) hti rfl rfl id).mono (fun q hq => ⟨hsub q hq, hI q hq, hP q hq⟩)
      fun j y hy ha => ⟨y, hy, ha, rfl, rfl⟩, hA, hnd, hheap,
    fun j y d hy hd => ?_, fun _ j y hy hj hs => ?_, fun j y c hy hc => ?_,
    fun _ => hU ▸ hi.used hinit, fun h => Bool.noConfusion (hinit.symm.trans h)⟩
  · -- owner
    by_cases hqt : q = t
    · subst hqt; exact ⟨i, _, getElem?_set_of_getElem? hti, hown hq⟩
    · obtain ⟨j, y, hy, ho⟩ := hi.owner q (hsub q hq)
      have hji : j ≠ i := by
        rintro rfl
        obtain rfl := Option.some.inj (hy.symm.trans hti)
        exact hqt (hi.pthreadIds q (hsub q hq) t ht (ho.pthread.trans hpt.symm))
      exact ⟨j, y, by rwa [List.getElem?_set_ne (Ne.symm hji)], by rw [hrep q hqt]; exact ho⟩
  · -- unstarted
    rcases getElem?_set_cases hy with ⟨-, rfl⟩ | ⟨-, hy⟩
    · simp [hstart] at hd
    · exact hi.unstarted j y d hy hd
  · -- joinable
    rcases getElem?_set_cases hy with ⟨-, rfl⟩ | ⟨hji, hy⟩
    · simp at hj
    · obtain ⟨p, hp, hpy⟩ := hi.joinable hinit j y hy hj hs
      have hpt' := hne p hp j y hy hpy hji
      exact ⟨p, hkeep p hp hpt', by rw [hrep p hpt']; exact hpy⟩
  · -- pending: a call on thread `i` no longer needs its record
    have hold : ∃ y₀ : OsThread, ts[j]? = some y₀ ∧ y₀.pending = some c := by
      rcases getElem?_set_cases hy with ⟨rfl, rfl⟩ | ⟨-, hy⟩
      exacts [⟨tg, hti, hc⟩, ⟨y, hy, hc⟩]
    obtain ⟨y₀, hy₀, hc₀⟩ := hold
    obtain ⟨i', tg', hti', hpt', hjr⟩ := hi.pending j y₀ c hy₀ hc₀
    by_cases hii : i' = i
    · subst hii
      obtain rfl := Option.some.inj (hti'.symm.trans hti)
      exact ⟨i', _, getElem?_set_of_getElem? hti', hpt', fun h => absurd h (by simp)⟩
    · refine ⟨i', tg', by rwa [List.getElem?_set_ne (Ne.symm hii)], hpt', fun h => ?_⟩
      have hct := hne _ (hjr h).1 i' tg' hti' ((hjr h).2.trans hpt'.symm) hii
      exact ⟨hkeep _ (hjr h).1 hct, by rw [hrep _ hct]; exact (hjr h).2⟩

/-- Record `t`, found after `pre` in bucket `h`, is unlinked and freed unless it is
`first_thread`, and its owner, thread `i`, can no longer be joined. -/
theorem of_unlink {h : Nat} {pre post : List Ptr} {t : Ptr} {i : Nat} {tg : OsThread}
    (hi : OwnerInv H s ts init B) (hh : h < H.size) (hB : B h = pre ++ t :: post)
    (hti : ts[i]? = some tg) (hpt : (s.rep t).pthreadId = tg.pthread)
    (hs' : TableInv H s' (Function.update B h (pre ++ post))) (hrep : ∀ q ≠ t, s'.rep q = s.rep q)
    (hA : s'.allocated = s.allocated.erase t) (hU : s'.firstThreadUsed = s.firstThreadUsed) :
    OwnerInv H s' (ts.set i { tg with joinable := false }) init
      (Function.update B h (pre ++ post)) := by
  have ht : t ∈ tableRecords H B := mem_tableRecords.mpr ⟨h, hh, by simp [hB]⟩
  have hmem := fun q => mem_tableRecords_unlink_iff hi.table hh hB (q := q)
  refine OwnerInv.of_release hi hti ht hpt hs' (fun q hq => ((hmem q).mp hq).1)
    (fun q hq hqt => (hmem q).mpr ⟨hq, hqt⟩) hrep (fun hm => absurd rfl ((hmem t).mp hm).2)
    (fun p hp => ?_) (hA ▸ hi.nodup.erase t) (fun hm => hi.heap (List.mem_of_mem_erase (hA ▸ hm))) hU
  rw [hA, hi.nodup.mem_erase_iff] at hp
  exact (hmem p).mpr ⟨hi.allocated p hp.2, hp.1⟩

/-- `GC_thread_exit_proc` or `GC_unregister_my_thread` marks a linked record that is not
`DETACHED` as `FINISHED`. -/
theorem of_finish {q : Ptr} (hi : OwnerInv H s ts init B) (hq : q ∈ tableRecords H B)
    (hd : (s.rep q).detached = false) :
    OwnerInv H (updateRep s q fun r => { r with finished := true }) ts init B :=
  OwnerInv.of_updateRep hi (hi.initialized_of_mem hq) (fun _ => rfl) (fun _ => rfl)
    fun _ _ _ _ ho => ⟨ho.pthread, ho.id, ho.started, ho.detached, fun _ => hd, .inr rfl⟩

/-- `GC_thread_exit_proc` or `GC_unregister_my_thread` deletes the `DETACHED` record the lookup
of the caller's id finds. -/
theorem of_deleteThread {w : Nat} {q : Ptr} (hi : OwnerInv H s ts init B)
    (hl : gcLookupThread H s w = .ok (some q)) (hd : (s.rep q).detached = true)
    (hdel : gcDeleteThread H s w = .ok s') : ∃ B', OwnerInv H s' ts init B' := by
  obtain ⟨pre, post, hB, hdel'⟩ := gcDeleteThread_of_lookup hi.table hl
  obtain rfl := Except.ok.inj (hdel.symm.trans hdel')
  obtain ⟨j, y, hy, ho⟩ := hi.owner q (gcLookupThread_mem hi.table hl).1
  -- a `DETACHED` record belongs to a thread that can no longer be joined
  have hyj : { y with joinable := false } = y := by
    have := ho.detached
    cases y; simp_all
  have hr := OwnerInv.of_unlink hi (H.index_lt w) hB hy ho.pthread (gcDeleteThread_inv hi.table hB)
    (fun _ _ => by simp) (deleteFound_allocated hi.heap _ _ _) (by simp)
  rw [hyj, set_of_getElem? hy] at hr
  exact ⟨_, hr⟩

end OwnerInv

end Preservation

section Events

variable {H : TableHash} {s' : ThreadTable} {rt rt' : Runtime} {B : Nat → List Ptr}

/-- `freeIfFinished` on a linked `FINISHED` record unlinks it and frees it. -/
theorem freeIfFinished_finished {s : ThreadTable} {t : Ptr} (hi : TableInv H s B)
    (ht : t ∈ tableRecords H B) (hf : (s.rep t).finished = true)
    (hr : freeIfFinished H s t = .ok s') :
    ∃ h pre post, h < H.size ∧ B h = pre ++ t :: post ∧
      TableInv H s' (Function.update B h (pre ++ post)) ∧ s'.rep = s.rep ∧
      s'.allocated = s.allocated.erase t ∧ s'.firstThreadUsed = s.firstThreadUsed := by
  obtain ⟨h, hh, hm⟩ := mem_tableRecords.mp ht
  obtain ⟨pre, post, hB⟩ := List.append_of_mem hm
  unfold freeIfFinished at hr
  rw [if_pos (show (s.rep t).knownFinished = true from hf)] at hr
  obtain ⟨s₁, hs₁, rfl⟩ := except_map_eq_ok.mp hr
  rw [gcDeleteGcThreadNoFree_spec hi hh hB] at hs₁
  cases hs₁
  exact ⟨h, pre, post, hh, hB, ((hi.closeHandle _).unlink hh hB).internalFree (hi.not_mem_unlink hh hB),
    by simp, by simp, by simp⟩

namespace OwnerInv

/-! ### One lemma per operation: each keeps the owner invariant -/

theorem of_thrInit {dup : Option Nat} (hi : OwnerInv H rt.table rt.threads rt.initialized B)
    (ho : OwnInv H rt) (hc : (rt.thread? 0).any (·.alive) = true)
    (h : gcThrInit H rt dup = some (.ok rt')) :
    ∃ B', OwnerInv H rt'.table rt'.threads rt'.initialized B' := by
  simp only [gcThrInit, Option.bind_eq_bind, Option.bind_eq_some] at h
  obtain ⟨main, hmain, h⟩ := h
  split at h
  · cases h
  rename_i hinit
  obtain ⟨⟨s₁, me⟩, hr, rfl⟩ := except_map_eq_ok.mp (Option.some.inj h)
  have hinit : rt.initialized = false := by simpa using hinit
  obtain ⟨hs, ⟨m, hm, hmj⟩, hall⟩ := hi.uninit hinit
  obtain rfl := Option.some.inj (hm.symm.trans hmain)
  have hrec : tableRecords H B = [] := tableRecords_init (hs ▸ hi.table)
  obtain ⟨hme, hs₁, ⟨_, -, -, hrep⟩, hother, -, -, hU⟩ :=
    gcRegisterMyThreadInner_spec hi.table (show AllocAnswer _ none from trivial) hr
  have hA : s₁.allocated = rt.table.allocated := by
    rcases gcRegisterMyThreadInner_takes hr with ⟨h, -⟩ | ⟨-, -, hA⟩
    exacts [absurd h (by simp), hA]
  have hma : m.alive = true := by simpa [hmain] using hc
  -- the running, joinable main thread owns the record `GC_thr_init` registers
  have hown : (s₁.rep me).OwnedBy m := by
    rw [hrep, hs]
    exact ⟨rfl, rfl, (ho.uninit hinit 0 m hmain).2,
      by simp [hmj, ThreadTable.init, ThreadRep.registered, ThreadRep.zero],
      by simp [ThreadTable.init, ThreadRep.registered, ThreadRep.zero], .inl hma⟩
  have hl := OwnerInv.of_link hi (.inr fun j y hy hj => (hall j y hy).2.2 hj) (H.index_lt _) hs₁
    hme hother (.inl hA) hU hm hown ⟨rfl, rfl, rfl, rfl, rfl⟩ (by simp [hrec])
    fun j y hy hya he => ho.ids j 0 y m hy hmain hya hma he
  rw [set_of_getElem? hm] at hl
  exact ⟨_, hl⟩

theorem of_pthreadCreate {parent w p sb : Nat} {d : Bool}
    (hi : OwnerInv H rt.table rt.threads rt.initialized B)
    (h : gcPthreadCreate H rt parent w p sb d = some rt') :
    OwnerInv H rt'.table rt'.threads rt'.initialized B := by
  simp only [gcPthreadCreate, Option.bind_eq_bind, Option.bind_eq_some] at h
  obtain ⟨th, -, h⟩ := h
  split at h
  · rename_i hc
    cases h
    simp only [Bool.and_eq_true] at hc
    have hf : ∀ y ∈ rt.threads, y.pthread ≠ p := by simpa [Runtime.pthreadFresh] using hc.2
    exact OwnerInv.of_append hi (fun j y hy => hf y (List.getElem?_mem hy))
      (gcLookupThread_none hi.table (Runtime.win32IdFree_lookup hc.1.2)) rfl rfl
      (fun _ h => by cases h; rfl) fun _ => ⟨by simp, hc.1.1.2⟩
  · cases h

theorem of_foreignCreate {w p sb : Nat} (hi : OwnerInv H rt.table rt.threads rt.initialized B)
    (h : foreignCreate H rt w p sb = some rt') :
    OwnerInv H rt'.table rt'.threads rt'.initialized B := by
  simp only [foreignCreate] at h
  split at h
  · rename_i hc
    cases h
    simp only [Bool.and_eq_true] at hc
    have hf : ∀ y ∈ rt.threads, y.pthread ≠ p := by simpa [Runtime.pthreadFresh] using hc.2
    exact OwnerInv.of_append hi (fun j y hy => hf y (List.getElem?_mem hy))
      (gcLookupThread_none hi.table (Runtime.win32IdFree_lookup hc.1)) rfl rfl
      (fun _ h => by cases h) fun h => by cases h
  · cases h

theorem of_startInner {t : Nat} {dup : Option Nat} {alloc : Option Ptr}
    (hi : OwnerInv H rt.table rt.threads rt.initialized B) (ho : OwnInv H rt)
    (ha : allocOk rt.table alloc = true) (h : gcPthreadStartInner H rt t dup alloc = some (.ok rt')) :
    ∃ B', OwnerInv H rt'.table rt'.threads rt'.initialized B' := by
  simp only [gcPthreadStartInner, Option.bind_eq_bind, Option.bind_eq_some] at h
  obtain ⟨th, hth, d, hd, h⟩ := h
  split at h
  · cases h
  rename_i halive
  obtain ⟨⟨s₁, me⟩, hr, rfl⟩ := except_map_eq_ok.mp (Option.some.inj h)
  -- only `GC_pthread_create` after `GC_thr_init` gives a thread a start argument
  have hinit : rt.initialized = true := by
    cases hinit : rt.initialized
    · simp [(ho.uninit hinit t th hth).2] at hd
    · rfl
  have haa := allocAnswer_of_allocOk ha
  obtain ⟨hme, hs₁, ⟨_, -, -, hrep⟩, hother, -, -, hU⟩ := gcRegisterMyThreadInner_spec hi.table haa hr
  rcases gcRegisterMyThreadInner_takes hr with ⟨rfl, hA⟩ | ⟨hu, -, -⟩
  swap
  · simp [hi.used hinit] at hu
  -- the new record carries the thread's `pthread_t` and is `DETACHED` as it was created
  have hown : ((updateRep s₁ me fun r => { r with pthreadId := th.pthread, detached := r.detached || d }).rep
      me).OwnedBy { th with startInfo := none, me := some me } := by
    rw [updateRep_rep_self, hrep, if_pos (hi.used hinit)]
    exact ⟨rfl, rfl, rfl, by simp [ThreadRep.registered, ThreadRep.zero, hi.unstarted t th d hth hd],
      fun h => by simp [ThreadRep.registered, ThreadRep.zero] at h, .inl (by simpa using halive)⟩
  have hs' : TableInv H (updateRep s₁ me fun r =>
      { r with pthreadId := th.pthread, detached := r.detached || d }) _ := hs₁.updateRep fun _ => rfl
  have hl := OwnerInv.of_link hi (.inl hinit) (H.index_lt _) hs' hme
    (fun q hq => by rw [updateRep_rep_ne _ _ hq, hother q hq]) (.inr ⟨hA, haa.1, haa.2⟩) hU hth hown
    ⟨rfl, rfl, rfl, rfl, rfl⟩ (fun p hp he => by simp [(hi.owner_eq hp hth he).started] at hd)
    fun j y hy hya he => ho.ids j t y th hy hth hya (by simpa using halive) he
  show ∃ B', OwnerInv H _ _ rt.initialized B'
  rw [hinit]
  exact ⟨_, hl⟩

theorem of_exitProc {t : Nat} (hi : OwnerInv H rt.table rt.threads rt.initialized B)
    (ho : OwnInv H rt) (h : gcThreadExitProc H rt t = some (.ok rt')) :
    ∃ B', OwnerInv H rt'.table rt'.threads rt'.initialized B' := by
  simp only [gcThreadExitProc, Option.bind_eq_bind, Option.bind_eq_some] at h
  obtain ⟨th, hth, me, hme, h⟩ := h
  split at h
  · cases h
  rename_i halive
  have hown := ho.own t th me hth (by simpa using halive) hme
  have hmem := (hown.mem hi.table).1
  have hinit := hi.initialized_of_mem hmem
  -- the thread gives up `me` first
  have h₁ : OwnerInv H rt.table (rt.threads.set t { th with me := none }) rt.initialized B :=
    OwnerInv.of_setThread hi hth ⟨rfl, rfl, rfl, rfl, .inl rfl, .inl rfl⟩
      fun h => Bool.noConfusion (hinit.symm.trans h)
  split at h
  · rename_i hd
    obtain ⟨s₁, hr, rfl⟩ := except_map_eq_ok.mp (Option.some.inj h)
    exact OwnerInv.of_deleteThread h₁ hown.1 (by simpa using hd) hr
  · rename_i hd
    cases h
    exact ⟨B, OwnerInv.of_finish h₁ hmem (by simpa using hd)⟩

theorem of_register {t sb : Nat} {dup : Option Nat} {alloc : Option Ptr} {r : Runtime × RegisterStatus}
    (hi : OwnerInv H rt.table rt.threads rt.initialized B) (ho : OwnInv H rt)
    (ha : allocOk rt.table alloc = true)
    (hc : (LifeEvent.register t sb dup alloc).keepsContract H rt = true)
    (h : gcRegisterMyThread H rt t sb dup alloc = some (.ok r)) :
    ∃ B', OwnerInv H r.1.table r.1.threads r.1.initialized B' := by
  simp only [gcRegisterMyThread, Option.bind_eq_bind, Option.bind_eq_some] at h
  obtain ⟨th, hth, h⟩ := h
  split at h
  · cases h
  rename_i halive
  have hta : th.alive = true := by simpa using halive
  split at h
  · cases h
  simp only [LifeEvent.keepsContract, hth, Option.any_some, Bool.and_eq_true] at hc
  obtain ⟨hinit, hs, hl⟩ := hc
  have hs : th.startInfo = none := by simpa using hs
  cases hlk : gcLookupThread H rt.table th.win32Id with
  | error e => simp [hlk] at h
  | ok me? =>
    rw [hlk] at hl
    cases me? with
    | none =>
      -- a thread that cannot be joined registers a `DETACHED` record
      have hj : th.joinable = false := by simpa using hl
      simp only [hlk, except_ok_bind] at h
      obtain ⟨⟨s₁, me⟩, hr, h⟩ := except_bind_eq_ok.mp (Option.some.inj h)
      cases h
      have haa := allocAnswer_of_allocOk ha
      obtain ⟨hme, hs₁, ⟨_, -, -, hrep⟩, hother, -, -, hU⟩ := gcRegisterMyThreadInner_spec hi.table haa hr
      rcases gcRegisterMyThreadInner_takes hr with ⟨rfl, hA⟩ | ⟨hu, -, -⟩
      swap
      · simp [hi.used hinit] at hu
      have hown : ((updateRep s₁ me fun r => { r with detached := true }).rep me).OwnedBy th := by
        rw [updateRep_rep_self, hrep, if_pos (hi.used hinit)]
        exact ⟨rfl, rfl, hs, by simp [hj], fun h => by simp [ThreadRep.registered, ThreadRep.zero] at h,
          .inl hta⟩
      have hs' : TableInv H (updateRep s₁ me fun r => { r with detached := true }) _ :=
        hs₁.updateRep fun _ => rfl
      have hl := OwnerInv.of_link hi (.inl hinit) (H.index_lt _) hs' hme
        (fun q hq => by rw [updateRep_rep_ne _ _ hq, hother q hq]) (.inr ⟨hA, haa.1, haa.2⟩) hU hth hown
        ⟨rfl, rfl, rfl, rfl, rfl⟩ (fun p hp he => gcLookupThread_none hi.table hlk p hp (hi.owner_eq hp hth he).id)
        fun j y hy hya he => ho.ids j t y th hy hth hya hta he
      rw [set_of_getElem? hth] at hl
      show ∃ B', OwnerInv H _ _ rt.initialized B'
      rw [hinit]
      exact ⟨_, hl⟩
    | some p =>
      have hpc : (rt.table.rep p).pthreadId = th.pthread := by simpa using hl
      simp only [hlk, except_ok_bind] at h
      split at h
      · -- the caller takes its own `FINISHED` record back
        obtain ⟨s₁, hs₁, h⟩ := except_bind_eq_ok.mp (Option.some.inj h)
        cases h
        unfold gcRecordStackBase at hs₁
        split at hs₁
        · cases hs₁
        cases hs₁
        have h₁ := OwnerInv.of_updateFlags hi hinit (q := p)
          (f := fun r => { r with stackEnd := sb }) fun _ => ⟨rfl, rfl, rfl, rfl⟩
        have h₂ : OwnerInv H (updateRep (updateRep rt.table p fun r => { r with stackEnd := sb })
            p fun r => { r with finished := false }) rt.threads rt.initialized B :=
          OwnerInv.of_updateRep h₁ hinit (fun _ => rfl) (fun _ => rfl) fun _ j y hy ho =>
            ⟨ho.pthread, ho.id, ho.started, ho.detached, fun h => absurd h (by simp), .inl (by
              obtain rfl : j = t := hi.pthreads j t y th hy hth (ho.pthread.symm.trans (by simpa using hpc))
              obtain rfl := Option.some.inj (hy.symm.trans hth)
              exact hta)⟩
        exact ⟨B, h₂⟩
      · cases h
        exact ⟨B, hi⟩

theorem of_unregister {t : Nat} (hi : OwnerInv H rt.table rt.threads rt.initialized B)
    (h : gcUnregisterMyThread H rt t = some (.ok rt')) :
    ∃ B', OwnerInv H rt'.table rt'.threads rt'.initialized B' := by
  simp only [gcUnregisterMyThread, Option.bind_eq_bind, Option.bind_eq_some] at h
  obtain ⟨th, -, h⟩ := h
  split at h
  · cases h
  obtain ⟨me?, hl, h⟩ := except_bind_eq_ok.mp (Option.some.inj h)
  cases me? with
  | none => cases h
  | some me =>
    dsimp only at h
    split at h
    · rename_i hd
      cases h
      exact ⟨B, OwnerInv.of_finish hi (gcLookupThread_mem hi.table hl).1 (by simpa using hd)⟩
    · rename_i hd
      obtain ⟨s₁, hr, rfl⟩ := except_map_eq_ok.mp h
      exact OwnerInv.of_deleteThread hi hl (by simpa using hd) hr

/-- A thread terminates once its record, if any, is `FINISHED`. -/
theorem of_terminate {t : Nat} {th : OsThread} (hi : OwnerInv H rt.table rt.threads rt.initialized B)
    (hth : rt.thread? t = some th) (hc : rt.recordFinished H th = true) :
    OwnerInv H rt.table (rt.threads.set t { th with alive := false, pending := none })
      rt.initialized B := by
  refine OwnerInv.of_setThread hi hth ⟨rfl, rfl, rfl, rfl, .inr ⟨rfl, fun p hp he => ?_⟩,
    .inr fun c h => by cases h⟩ fun h => ⟨rfl, ((hi.uninit h).2.2 t th hth).2.1⟩
  unfold Runtime.recordFinished at hc
  rcases gcLookupByPthread_cases hi.table rt.pthreadMapCache th.pthread with
    ⟨-, hall⟩ | ⟨q, hq, hqm, hqp⟩
  · exact absurd he (hall p hp)
  · rw [hq] at hc
    rwa [hi.pthreadIds p hp q hqm (he.trans hqp.symm)]

theorem of_lookupLoop {j target : Nat} {call : Nat → Ptr → PendingCall}
    (hi : OwnerInv H rt.table rt.threads rt.initialized B)
    (h : lookupLoop H rt j target call = some (.ok rt'))
    (hcall : ∀ a b, (call a b).target = a ∧ (call a b).record = b) :
    OwnerInv H rt'.table rt'.threads rt'.initialized B := by
  simp only [lookupLoop, Option.bind_eq_bind, Option.bind_eq_some] at h
  obtain ⟨th, hth, h⟩ := h
  split at h
  · cases h
  rcases gcLookupByPthread_cases hi.table rt.pthreadMapCache target with
    ⟨hn, -⟩ | ⟨p, hp, hpm, hpp⟩
  · rw [hn] at h; cases h
  · rw [hp] at h
    cases h
    -- the call records the record found, whose owner is the target
    obtain ⟨i, tg, hti, ho⟩ := hi.owner p hpm
    refine OwnerInv.of_setThread hi hth ⟨rfl, rfl, rfl, rfl, .inl rfl, .inr fun c hc => ?_⟩
      fun h => Bool.noConfusion ((hi.initialized_of_mem hpm).symm.trans h)
    obtain rfl := Option.some.inj hc
    obtain ⟨ht, hr⟩ := hcall target p
    exact ⟨i, tg, hti, by rw [ht]; exact ho.pthread.symm.trans hpp,
      fun _ => by rw [hr, ht]; exact ⟨hpm, hpp⟩⟩

/-- Thread `j` leaves its pending join or detach `c`. When the thread with the `pthread_t` of
`c` can still be joined, the record the lookup loop found is linked and is that thread's own. -/
theorem of_leavePending {j : Nat} {th : OsThread} {c : PendingCall}
    (hi : OwnerInv H rt.table rt.threads rt.initialized B) (hth : rt.thread? j = some th)
    (hc : th.pending = some c) :
    OwnerInv H rt.table (rt.threads.set j { th with pending := none }) rt.initialized B ∧
      ∀ {i : Nat} {tg : OsThread},
        (rt.setThread j { th with pending := none }).byPthread? c.target = some (i, tg) →
        tg.joinable = true → c.record ∈ tableRecords H B ∧ (rt.table.rep c.record).OwnedBy tg := by
  have hinit : rt.initialized = true := by
    cases hinit : rt.initialized
    · simp [((hi.uninit hinit).2.2 j th hth).1] at hc
    · rfl
  have h₁ := OwnerInv.of_setThread hi hth (x := { th with pending := none })
    ⟨rfl, rfl, rfl, rfl, .inl rfl, .inr fun c h => by cases h⟩ fun h => Bool.noConfusion (hinit.symm.trans h)
  refine ⟨h₁, fun {i tg} hbp hj => ?_⟩
  have hti := Runtime.byPthread?_thread? hbp
  have hpt : tg.pthread = c.target := by simpa using List.find?_some hbp
  obtain ⟨i', tg', hti', hpt', hjr⟩ :=
    (hi.pending j th c hth hc).set (x := { th with pending := none }) hth rfl rfl
  obtain rfl := h₁.pthreads i' i tg' tg hti' hti (hpt'.trans hpt.symm)
  obtain rfl := Option.some.inj (hti'.symm.trans hti)
  obtain ⟨hm, hp⟩ := hjr hj
  exact ⟨hm, h₁.owner_eq hm hti (hp.trans hpt.symm)⟩

theorem of_joinDone {j : Nat} (hi : OwnerInv H rt.table rt.threads rt.initialized B)
    (h : gcPthreadJoinDone H rt j = some (.ok rt')) :
    ∃ B', OwnerInv H rt'.table rt'.threads rt'.initialized B' := by
  simp only [gcPthreadJoinDone, Option.bind_eq_bind, Option.bind_eq_some] at h
  obtain ⟨th, hth, call, hcall, h⟩ := h
  cases call with
  | detach => cases h
  | join target t =>
    dsimp only at h
    obtain ⟨h₁, hown⟩ := OwnerInv.of_leavePending hi hth hcall
    split at h
    · cases h; exact ⟨B, h₁⟩
    · rename_i i tg hbp
      split at h
      · cases h; exact ⟨B, h₁⟩
      · split at h
        · cases h
        · rename_i hj hal
          obtain ⟨ht, ho⟩ := hown hbp (by simpa using hj)
          -- `pthread_join` returned, so the target has terminated and its record is `FINISHED`
          have hf := ho.done.resolve_left (by simpa using hal)
          obtain ⟨s₁, hr, rfl⟩ := except_map_eq_ok.mp (Option.some.inj h)
          obtain ⟨k, pre, post, hk, hB, hs₁, hrep, hA, hU⟩ := freeIfFinished_finished hi.table ht hf hr
          exact ⟨_, OwnerInv.of_unlink h₁ hk hB (Runtime.byPthread?_thread? hbp) ho.pthread hs₁
            (fun q _ => congrFun hrep q) hA hU⟩

theorem of_detachDone {j : Nat} (hi : OwnerInv H rt.table rt.threads rt.initialized B)
    (h : gcPthreadDetachDone H rt j = some (.ok rt')) :
    ∃ B', OwnerInv H rt'.table rt'.threads rt'.initialized B' := by
  simp only [gcPthreadDetachDone, Option.bind_eq_bind, Option.bind_eq_some] at h
  obtain ⟨th, hth, call, hcall, h⟩ := h
  cases call with
  | join => cases h
  | detach target t =>
    dsimp only at h
    obtain ⟨h₁, hown⟩ := OwnerInv.of_leavePending hi hth hcall
    split at h
    · cases h; exact ⟨B, h₁⟩
    · rename_i i tg hbp
      split at h
      · cases h; exact ⟨B, h₁⟩
      · rename_i hj
        obtain ⟨ht, ho⟩ := hown hbp (by simpa using hj)
        dsimp only [PendingCall.record] at ht ho
        have hti := Runtime.byPthread?_thread? hbp
        have hs₀ : TableInv H (updateRep rt.table t fun r => { r with detached := true }) B :=
          hi.table.updateRep fun _ => rfl
        obtain ⟨s₁, hr, rfl⟩ := except_map_eq_ok.mp (Option.some.inj h)
        by_cases hf : (rt.table.rep t).finished = true
        · -- a `FINISHED` record is freed at once
          obtain ⟨k, pre, post, hk, hB, hs₁, hrep, hA, hU⟩ :=
            freeIfFinished_finished hs₀ ht (by simpa using hf) hr
          exact ⟨_, OwnerInv.of_unlink h₁ hk hB hti ho.pthread hs₁
            (fun q hq => (congrFun hrep q).trans (updateRep_rep_ne _ _ hq)) hA hU⟩
        · -- otherwise it stays linked, `DETACHED`, for its running thread to delete
          unfold freeIfFinished at hr
          rw [if_neg (by simpa using hf)] at hr
          cases hr
          have hd : OwnerInv H (updateRep rt.table t fun r => { r with detached := true })
              ((rt.threads.set j { th with pending := none }).set i { tg with joinable := false })
              rt.initialized B :=
            OwnerInv.of_release h₁ hti ht ho.pthread hs₀ (fun q hq => hq) (fun q hq _ => hq)
              (fun q hq => updateRep_rep_ne _ _ hq)
              (fun _ => by
                rw [updateRep_rep_self]
                exact ⟨ho.pthread, ho.id, ho.started, rfl, fun h => absurd h hf,
                  .inl (ho.done.resolve_right hf)⟩)
              hi.allocated hi.nodup hi.heap rfl
          exact ⟨B, hd⟩

theorem of_doBlocking {t sp : Nat} (hi : OwnerInv H rt.table rt.threads rt.initialized B)
    (h : gcDoBlockingEnter H rt t sp = some (.ok rt')) :
    OwnerInv H rt'.table rt'.threads rt'.initialized B := by
  simp only [gcDoBlockingEnter, Option.bind_eq_bind, Option.bind_eq_some] at h
  obtain ⟨th, hth, h⟩ := h
  split at h
  · cases h
  obtain ⟨me?, hl, h⟩ := except_bind_eq_ok.mp (Option.some.inj h)
  cases me? with
  | none => cases h
  | some me =>
    cases h
    have hinit := hi.initialized_of_mem (gcLookupThread_mem hi.table hl).1
    have h₁ : OwnerInv H (updateRep rt.table me fun r => { r with stackPtr := sp, doBlocking := true })
        rt.threads rt.initialized B := OwnerInv.of_updateFlags hi hinit fun _ => ⟨rfl, rfl, rfl, rfl⟩
    exact OwnerInv.of_setThread h₁ hth ⟨rfl, rfl, rfl, rfl, .inl rfl, .inl rfl⟩
      fun h => Bool.noConfusion (hinit.symm.trans h)

theorem of_doBlockingDone {t : Nat} (hi : OwnerInv H rt.table rt.threads rt.initialized B)
    (h : gcDoBlockingLeave rt t = some (.ok rt')) :
    OwnerInv H rt'.table rt'.threads rt'.initialized B := by
  simp only [gcDoBlockingLeave, Option.bind_eq_bind, Option.bind_eq_some] at h
  obtain ⟨th, hth, me, hme, h⟩ := h
  cases h
  -- no thread is inside `GC_do_blocking` before `GC_thr_init`
  have hinit : rt.initialized = true := by
    cases hinit : rt.initialized
    · simp [((hi.uninit hinit).2.2 t th hth).2.1] at hme
    · rfl
  have h₁ : OwnerInv H (updateRep rt.table me fun r => { r with doBlocking := false })
      rt.threads rt.initialized B := OwnerInv.of_updateFlags hi hinit fun _ => ⟨rfl, rfl, rfl, rfl⟩
  exact OwnerInv.of_setThread h₁ hth ⟨rfl, rfl, rfl, rfl, .inl rfl, .inl rfl⟩
    fun h => Bool.noConfusion (hinit.symm.trans h)

theorem of_setStackbottom {t sb : Nat} (hi : OwnerInv H rt.table rt.threads rt.initialized B)
    (h : gcSetStackbottom H rt t sb = some (.ok rt')) :
    OwnerInv H rt'.table rt'.threads rt'.initialized B := by
  simp only [gcSetStackbottom, Option.bind_eq_bind, Option.bind_eq_some] at h
  obtain ⟨th, -, h⟩ := h
  split at h
  · cases h
  split at h
  · cases h; exact hi
  rename_i hinit
  obtain ⟨me?, -, h⟩ := except_bind_eq_ok.mp (Option.some.inj h)
  cases me? with
  | none => cases h
  | some me =>
    cases h
    have h₁ : OwnerInv H (updateRep rt.table me fun r => { r with stackEnd := sb, lastStackMin := addrLimit })
        rt.threads rt.initialized B :=
      OwnerInv.of_updateFlags hi (by simpa using hinit) fun _ => ⟨rfl, rfl, rfl, rfl⟩
    exact h₁

/-- One lifecycle step that keeps the contract keeps the invariant. -/
theorem step {e : LifeEvent} (hi : OwnerInv H rt.table rt.threads rt.initialized B)
    (ho : OwnInv H rt) (hc : e.keepsContract H rt = true) (h : lifeStep H rt e = some (.ok rt')) :
    ∃ B', OwnerInv H rt'.table rt'.threads rt'.initialized B' := by
  cases e with
  | thrInit dup => exact OwnerInv.of_thrInit hi ho hc h
  | pthreadCreate parent w p sb d =>
    obtain ⟨rt₁, h₁, h₂⟩ := Option.map_eq_some'.mp h
    cases h₂
    exact ⟨B, OwnerInv.of_pthreadCreate hi h₁⟩
  | foreignCreate w p sb =>
    obtain ⟨rt₁, h₁, h₂⟩ := Option.map_eq_some'.mp h
    cases h₂
    exact ⟨B, OwnerInv.of_foreignCreate hi h₁⟩
  | startInner t dup alloc =>
    simp only [lifeStep] at h
    split at h
    · exact OwnerInv.of_startInner hi ho ‹_› h
    · cases h
  | exitProc t => exact OwnerInv.of_exitProc hi ho h
  | register t sb dup alloc =>
    simp only [lifeStep] at h
    split at h
    · obtain ⟨r, h₁, h₂⟩ := Option.map_eq_some'.mp h
      obtain ⟨r', h₃, rfl⟩ := except_map_eq_ok.mp h₂
      exact OwnerInv.of_register hi ho ‹_› hc (h₁.trans (congrArg _ h₃))
    · cases h
  | unregister t => exact OwnerInv.of_unregister hi h
  | allowRegister t =>
    simp only [lifeStep, Option.bind_eq_some] at h
    obtain ⟨th, -, h⟩ := h
    split at h <;> cases h
    exact ⟨B, hi⟩
  | terminate t =>
    simp only [lifeStep, Option.bind_eq_some] at h
    obtain ⟨th, hth, h⟩ := h
    split at h <;> cases h
    simp only [LifeEvent.keepsContract, hth, Option.any_some] at hc
    exact ⟨B, OwnerInv.of_terminate hi hth hc⟩
  | joinLookup j target => exact ⟨B, OwnerInv.of_lookupLoop hi h fun _ _ => ⟨rfl, rfl⟩⟩
  | joinDone j => exact OwnerInv.of_joinDone hi h
  | detachLookup j target => exact ⟨B, OwnerInv.of_lookupLoop hi h fun _ _ => ⟨rfl, rfl⟩⟩
  | detachDone j => exact OwnerInv.of_detachDone hi h
  | doBlocking t sp => exact ⟨B, OwnerInv.of_doBlocking hi h⟩
  | doBlockingDone t => exact ⟨B, OwnerInv.of_doBlockingDone hi h⟩
  | setStackbottom t sb => exact ⟨B, OwnerInv.of_setStackbottom hi h⟩

/-- The invariant holds at start: an empty table, and one joinable main thread with no start-info
block, no pending call and no blocking section, before `GC_thr_init`. -/
theorem start {main : OsThread} (hs : main.startInfo = none) (hj : main.joinable = true)
    (hp : main.pending = none) (hb : main.blocking = none) :
    OwnerInv H ThreadTable.init [main] false fun _ => [] where
  table := tableInv_init
  owner p hp' := by simp [tableRecords] at hp'
  pthreadIds p hp' := by simp [tableRecords] at hp'
  pthreads i j thi thj hi hj' _ := (getElem?_singleton_eq hi).1.trans (getElem?_singleton_eq hj').1.symm
  runningIds p hp' := by simp [tableRecords] at hp'
  allocated p hp' := by simp [ThreadTable.init] at hp'
  nodup := List.nodup_nil
  heap := List.not_mem_nil _
  unstarted t th d h hd := by
    obtain ⟨-, rfl⟩ := getElem?_singleton_eq h
    simp [hs] at hd
  joinable h := absurd h (by simp)
  pending j th c h hc := by
    obtain ⟨-, rfl⟩ := getElem?_singleton_eq h
    simp [hp] at hc
  used h := absurd h (by simp)
  uninit _ := ⟨rfl, ⟨main, rfl, hj⟩, fun j th h => by
    obtain ⟨rfl, rfl⟩ := getElem?_singleton_eq h
    exact ⟨hp, hb, fun _ => rfl⟩⟩

end OwnerInv

end Events

section Runs

variable {H : TableHash} {rt rt' : Runtime}

/-- An event that keeps the contract never unregisters a thread that its start routine registered.
-/
theorem LifeEvent.unregistersStarted_of_keepsContract {e : LifeEvent}
    (h : e.keepsContract H rt = true) : e.unregistersStarted rt = false := by
  cases e with
  | unregister t =>
    simp only [LifeEvent.keepsContract] at h
    simp only [LifeEvent.unregistersStarted]
    cases ht : rt.thread? t with
    | none => rfl
    | some th => simp_all
  | _ => rfl

/-- A runtime reachable under the contract is reachable from a started main thread. -/
theorem ContractReachable.started (hr : ContractReachable H rt) : StartedReachable H rt := by
  induction hr with
  | start main hm hs => exact .start main hm hs
  | step _ hc h ih => exact .step ih (LifeEvent.unregistersStarted_of_keepsContract hc) h

/-- Every runtime reachable under the contract satisfies the owner invariant. -/
theorem ContractReachable.ownerInv (hr : ContractReachable H rt) :
    ∃ B, OwnerInv H rt.table rt.threads rt.initialized B := by
  induction hr with
  | start main _ hs hj hp hb => exact ⟨_, .start hs hj hp hb⟩
  | step hr' hc h ih =>
    obtain ⟨B, hi⟩ := ih
    exact hi.step hr'.started.ownInv hc h

/-- A run that succeeds under the contract from a reachable runtime ends in a reachable runtime. -/
theorem runLifeContract_reachable (hr : ContractReachable H rt) (es : List LifeEvent)
    (h : runLifeContract H rt es = some (.ok rt')) : ContractReachable H rt' := by
  induction es generalizing rt with
  | nil => cases h; exact hr
  | cons e es ih =>
    simp only [runLifeContract] at h
    split at h
    · rename_i hc
      split at h
      · exact ih (.step hr hc ‹_›) h
      · next hne => exact (hne _ h).elim
    · cases h

/-- The owner of a linked record is running, or can still be joined. -/
theorem ThreadRep.OwnedBy.alive_or_joinable {r : ThreadRep} {th : OsThread} (h : r.OwnedBy th) :
    th.alive = true ∨ th.joinable = true :=
  h.done.imp_right fun hf => by simpa [h.finished hf] using h.detached.symm

/-- Under the contract, every live heap record is linked in `GC_threads`, every linked record
carries the `pthread_t` of a thread that is running or can still be joined, and
`GC_lookup_by_pthread` finds, for every started thread that can still be joined, a record the
thread owns: so `pthread_join` and `pthread_detach` always find the record they have to free. -/
theorem contract_records_owned (hr : ContractReachable H rt) :
    ∃ B, TableInv H rt.table B ∧ (∀ p ∈ rt.table.allocated, p ∈ tableRecords H B) ∧
      (∀ p ∈ tableRecords H B, ∃ t th, rt.thread? t = some th ∧
        (rt.table.rep p).pthreadId = th.pthread ∧ (th.alive = true ∨ th.joinable = true)) ∧
      ∀ t th, rt.thread? t = some th → rt.initialized = true → th.joinable = true →
        th.startInfo = none → ∃ p, gcLookupByPthread H rt.table rt.pthreadMapCache th.pthread =
          .ok (some p) ∧ (rt.table.rep p).OwnedBy th := by
  obtain ⟨B, hi⟩ := hr.ownerInv
  refine ⟨B, hi.table, hi.allocated, fun p hp => ?_, fun t th hth hinit hj hs => ?_⟩
  · obtain ⟨t, th, hth, ho⟩ := hi.owner p hp
    exact ⟨t, th, hth, ho.pthread, ho.alive_or_joinable⟩
  · obtain ⟨p, hp, hpt⟩ := hi.joinable hinit t th hth hj hs
    rcases gcLookupByPthread_cases hi.table rt.pthreadMapCache th.pthread with
      ⟨-, hall⟩ | ⟨q, hq, hqm, hqp⟩
    · exact absurd hpt (hall p hp)
    · exact ⟨q, hq, hi.owner_eq hqm hth hqp⟩

/-- Under the contract, once every thread has terminated and none can be joined any more (each
was joined, detached, or never joinable), no bucket of `GC_threads` holds a record and every
record `GC_INTERNAL_MALLOC` returned has been freed. -/
theorem contract_done_frees_all (hr : ContractReachable H rt)
    (hdone : ∀ th ∈ rt.threads, th.alive = false ∧ th.joinable = false) :
    rt.table.allocated = [] ∧ ∀ h < H.size, rt.table.heads h = none := by
  obtain ⟨B, hi⟩ := hr.ownerInv
  -- a linked record would belong to a running or joinable thread
  have hnil : ∀ p ∈ tableRecords H B, False := fun p hp => by
    obtain ⟨t, th, hth, ho⟩ := hi.owner p hp
    obtain ⟨ha, hj⟩ := hdone th (List.getElem?_mem hth)
    rcases ho.alive_or_joinable with h | h <;> simp_all
  refine ⟨List.eq_nil_iff_forall_not_mem.mpr fun p hp => hnil p (hi.allocated p hp), fun h hh => ?_⟩
  have hc := hi.table.chain h hh
  cases hx : rt.table.heads h with
  | none => rfl
  | some q =>
    rw [hx, Chain.some_iff] at hc
    obtain ⟨l, hl, -⟩ := hc
    exact (hnil q (mem_tableRecords.mpr ⟨h, hh, by simp [hl]⟩)).elim

/-- The main thread creates a joinable thread `1` (Win32 id `2`, `pthread_t` `101`), which
starts with record `2`, returns from its start routine and terminates. -/
def joinableExitRun : List LifeEvent :=
  [.thrInit (some 11), .pthreadCreate 0 2 101 0x20000 false, .startInner 1 (some 12) (some 2),
    .exitProc 1, .terminate 1]

/-- Then the main thread joins thread `1`, unregisters, detaches itself and terminates. -/
def joinDetachTail : List LifeEvent :=
  [.joinLookup 0 101, .joinDone 0, .unregister 0, .detachLookup 0 100, .detachDone 0, .terminate 0]

/-- After `joinableExitRun` the terminated thread `1`, not yet joined, still owns its `FINISHED`
record, which the lookup of its `pthread_t` finds. -/
theorem contract_records_owned_joinableExit :
    ∃ rt, runLifeContract lowByteHash (Runtime.start mainThread) joinableExitRun = some (.ok rt) ∧
      ∃ B, TableInv lowByteHash rt.table B ∧ (∀ p ∈ rt.table.allocated, p ∈ tableRecords lowByteHash B) ∧
        (∀ p ∈ tableRecords lowByteHash B, ∃ t th, rt.thread? t = some th ∧
          (rt.table.rep p).pthreadId = th.pthread ∧ (th.alive = true ∨ th.joinable = true)) ∧
        ∀ t th, rt.thread? t = some th → rt.initialized = true → th.joinable = true →
          th.startInfo = none → ∃ p, gcLookupByPthread lowByteHash rt.table rt.pthreadMapCache
            th.pthread = .ok (some p) ∧ (rt.table.rep p).OwnedBy th :=
  have hr : ContractReachable lowByteHash _ :=
    runLifeContract_reachable (.start mainThread rfl rfl rfl rfl rfl) joinableExitRun rfl
  ⟨_, rfl, contract_records_owned hr⟩

set_option maxRecDepth 4000 in
/-- At the end of `joinableExitRun ++ joinDetachTail` both threads have terminated and neither
can be joined: the table is empty and record `2` is freed. -/
theorem contract_done_frees_all_joinDetach :
    ∃ rt, runLifeContract lowByteHash (Runtime.start mainThread) (joinableExitRun ++ joinDetachTail) =
        some (.ok rt) ∧ (∀ th ∈ rt.threads, th.alive = false ∧ th.joinable = false) ∧
      rt.table.allocated = [] ∧ ∀ h < lowByteHash.size, rt.table.heads h = none :=
  have hr : ContractReachable lowByteHash _ :=
    runLifeContract_reachable (.start mainThread rfl rfl rfl rfl rfl) (joinableExitRun ++ joinDetachTail) rfl
  ⟨_, rfl, by decide, contract_done_frees_all hr (by decide)⟩

end Runs

end Win32GcThreads
