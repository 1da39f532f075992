import Win32GcThreads.FreeDiscipline
import Mathlib.Data.List.Enum

/-!
# A started thread finds its own record

`GC_pthread_start_inner` registers the new thread and hands its record to
`GC_thread_exit_proc` as `me`. In between, the thread's own routines find their record by
`GC_lookup_thread(GetCurrentThreadId())`, and `GC_thread_exit_proc` tests the `DETACHED` flag
of `me` but deletes by `GC_delete_thread(GetCurrentThreadId())`. Over every run in which no
such thread calls `GC_unregister_my_thread`, the two agree: while a started thread runs, the
lookup by its id finds `me`, which is not `FINISHED` (`OwnInv`). The Win32 ids of running
threads are distinct, a registration pushes its record in front of its bucket, and every
record another routine deletes, frees or marks `FINISHED` carries another id or is `FINISHED`
already.

So `GC_thread_is_registered` returns TRUE in such a thread, `GC_get_my_stackbottom` returns
`me` and its `stack_end`, and the exit procedure deletes exactly `me`.
-/

namespace Win32GcThreads

section Routines

variable (H : TableHash)

/-- `GC_thread_is_registered()` in thread `t`. -/
def gcThreadIsRegistered (rt : Runtime) (t : Nat) : Option (Except Fault Bool) := do
  let th ← rt.thread? t
  if !th.alive then none else
  pure ((gcLookupThread H rt.table th.win32Id).map Option.isSome)

/-- `GC_get_my_stackbottom(sb)` in thread `t`: the `mem_base` it stores in `sb`, and the
record it returns as the thread's handle. -/
def gcGetMyStackbottom (rt : Runtime) (t : Nat) : Option (Except Fault (Nat × Ptr)) := do
  let th ← rt.thread? t
  if !th.alive then none else
  pure do
    match ← gcLookupThread H rt.table th.win32Id with
    | none => .error .nullDeref
    | some me => pure ((rt.table.rep me).stackEnd, me)

/-- `GC_lookup_thread(w)` finds `p`, which is not `FINISHED`. -/
def OwnsRecord (s : ThreadTable) (w : Nat) (p : Ptr) : Prop :=
  gcLookupThread H s w = .ok (some p) ∧ (s.rep p).finished = false

end Routines

section Lists

variable {α : Type} {l : List α} {t j : Nat} {x y z : α}

theorem getElem?_set_cases (hy : (l.set t x)[j]? = some y) :
    (j = t ∧ y = x) ∨ (j ≠ t ∧ l[j]? = some y) := by
  rw [List.getElem?_set] at hy
  split_ifs at hy with h₁
  · exact .inl ⟨h₁.symm, (Option.some.inj hy).symm⟩
  · exact .inr ⟨Ne.symm h₁, hy⟩

theorem getElem?_set_of_getElem? (hz : l[t]? = some z) : (l.set t x)[t]? = some x :=
  List.getElem?_set_self (List.getElem?_eq_some_iff.mp hz).1

theorem set_of_getElem? (hz : l[t]? = some z) : l.set t z = l :=
  List.ext_getElem? fun j => by
    rw [List.getElem?_set]
    split_ifs with h₁ h₂
    · rw [← h₁, hz]
    · exact absurd (List.getElem?_eq_some_iff.mp hz).1 (h₁ ▸ h₂)
    · rfl

theorem getElem?_concat_cases (h : (l ++ [x])[j]? = some y) :
    l[j]? = some y ∨ (j = l.length ∧ y = x) := by
  rw [List.getElem?_append] at h
  split at h
  · exact .inl h
  · match hk : j - l.length, h with
    | 0, h => exact .inr ⟨by omega, (Option.some.inj h).symm⟩
    | k + 1, h => simp at h

theorem getElem?_append_of_getElem? (h : l[j]? = some y) : (l ++ [x])[j]? = some y := by
  rw [List.getElem?_append_left (List.getElem?_eq_some_iff.mp h).1, h]

theorem getElem?_singleton_eq (h : [x][j]? = some y) : j = 0 ∧ y = x :=
  match j, h with
  | 0, h => ⟨rfl, (Option.some.inj h).symm⟩
  | _ + 1, h => by simp at h

theorem find?_congr_mem {α : Type} {f g : α → Bool} :
    ∀ {l : List α}, (∀ x ∈ l, f x = g x) → l.find? f = l.find? g
  | [], _ => rfl
  | a :: l, h => by
    simp only [List.find?_cons, h a (List.mem_cons_self a l),
      find?_congr_mem fun x hx => h x (List.mem_cons_of_mem a hx)]

/-- Removing a record other than the first match keeps the first match. -/
theorem find?_erase_middle {P : Ptr → Bool} {pre post : List Ptr} {r p : Ptr}
    (h : (pre ++ r :: post).find? P = some p) (hr : r ≠ p) : (pre ++ post).find? P = some p := by
  rw [List.find?_append] at h ⊢
  cases hpre : pre.find? P with
  | some x => simpa [hpre] using h
  | none =>
    rw [hpre, Option.none_or] at h
    rw [Option.none_or]
    by_cases hP : P r
    · rw [List.find?_cons_of_pos _ hP] at h; exact absurd (Option.some.inj h) hr
    · rwa [List.find?_cons_of_neg _ hP] at h

end Lists

section Table

variable {H : TableHash} {s s' : ThreadTable} {B : Nat → List Ptr} {w : Nat} {p : Ptr}

/-- Under the table invariant, `GC_lookup_thread` returns the first record of the bucket of `w`
whose id is `w`. -/
theorem gcLookupThread_eq (hi : TableInv H s B) (w : Nat) :
    gcLookupThread H s w = .ok ((B (H.index w)).find? fun q => (s.rep q).id == w) := by
  rw [gcLookupThread, findFirst_chain (hi.chain _ (H.index_lt w)) (hi.length_lt_fuel (H.index_lt w)).le]

/-- A lookup reads ids only. -/
theorem gcLookupThread_setRep {q : Ptr} {r : ThreadRep} (hr : r.id = (s.rep q).id) (w : Nat) :
    gcLookupThread H (s.setRep q r) w = gcLookupThread H s w := by
  have : (fun p => ((s.setRep q r).rep p).id == w) = fun p => (s.rep p).id == w := by
    funext p
    by_cases hp : p = q
    · subst hp; simp [hr]
    · simp [Function.update_noteq hp]
  simp only [gcLookupThread, ThreadTable.setRep_heads, ThreadTable.setRep_next, this]
  rfl

namespace OwnsRecord

/-- An owned record is linked in the table and carries its owner's Win32 id. -/
theorem mem (hi : TableInv H s B) (h : OwnsRecord H s w p) : p ∈ tableRecords H B ∧ (s.rep p).id = w :=
  gcLookupThread_mem hi h.1

/-- An in-place write that keeps ids, and keeps the flag of `p`. -/
theorem updateRep {q : Ptr} {f : ThreadRep → ThreadRep} (h : OwnsRecord H s w p)
    (hid : ∀ r, (f r).id = r.id) (hf : q = p → ∀ r, (f r).finished = r.finished) :
    OwnsRecord H (updateRep s q f) w p := by
  refine ⟨by rw [Win32GcThreads.updateRep, gcLookupThread_setRep (hid _)]; exact h.1, ?_⟩
  by_cases hq : q = p
  · subst hq; simp [hf rfl, h.2]
  · rw [updateRep_rep_ne _ _ (Ne.symm hq)]; exact h.2

/-- A registration under another id leaves the lookup of `w` alone. -/
theorem register (hi : TableInv H s B) (h : OwnsRecord H s w p) {alloc : Option Ptr}
    (ha : AllocAnswer s alloc) {sb id self : Nat} {dup : Option Nat} {me : Ptr}
    (hr : gcRegisterMyThreadInner H s sb id self dup alloc = .ok (s', me)) (hw : id ≠ w) :
    OwnsRecord H s' w p := by
  obtain ⟨hnot, hi', ⟨hd, -, -, hme⟩, hother, -⟩ := gcRegisterMyThreadInner_spec hi ha hr
  have hpme : p ≠ me := fun e => hnot (e ▸ (h.mem hi).1)
  have hfind : (B (H.index w)).find? (fun q => (s'.rep q).id == w) = some p := by
    rw [find?_congr_mem fun q hq => by
      rw [hother q fun e => hnot (e ▸ mem_tableRecords.mpr ⟨_, H.index_lt w, hq⟩)]]
    exact Except.ok.inj ((gcLookupThread_eq hi w).symm.trans h.1)
  refine ⟨?_, by rw [hother p hpme]; exact h.2⟩
  rw [gcLookupThread_eq hi']
  by_cases hk : H.index w = H.index id
  · rw [hk, Function.update_same, List.find?_cons_of_neg _ (by simp [hme, hw]), ← hk, hfind]
  · rw [Function.update_noteq hk, hfind]

/-- The record a registration takes is found by its id, and is not `FINISHED` when an unused
`first_thread` is not. -/
theorem of_register (hi : TableInv H s B) {alloc : Option Ptr} (ha : AllocAnswer s alloc)
    {sb id self : Nat} {dup : Option Nat} {me : Ptr}
    (hr : gcRegisterMyThreadInner H s sb id self dup alloc = .ok (s', me))
    (hf : s.firstThreadUsed = false → (s.rep firstThread).finished = false) :
    OwnsRecord H s' id me := by
  obtain ⟨-, hi', ⟨hd, -, -, hme⟩, -⟩ := gcRegisterMyThreadInner_spec hi ha hr
  refine ⟨by rw [gcLookupThread_eq hi']; simp [hme], ?_⟩
  rw [hme]
  split
  · rfl
  · exact hf (Bool.eq_false_iff.mpr ‹_›)

/-- Unlinking (and maybe freeing) a record other than `p`, with the records unchanged. -/
theorem unlink {h : Nat} {pre post : List Ptr} {r : Ptr} (hi : TableInv H s B)
    (hi' : TableInv H s' (Function.update B h (pre ++ post))) (hB : B h = pre ++ r :: post)
    (hrep : s'.rep = s.rep) (ho : OwnsRecord H s w p) (hrp : r ≠ p) : OwnsRecord H s' w p := by
  refine ⟨?_, hrep ▸ ho.2⟩
  have hfind := Except.ok.inj ((gcLookupThread_eq hi w).symm.trans ho.1)
  rw [gcLookupThread_eq hi', hrep]
  by_cases hk : H.index w = h
  · subst hk; rw [hB] at hfind; rw [Function.update_same, find?_erase_middle hfind hrp]
  · rw [Function.update_noteq hk, hfind]

end OwnsRecord

/-- `GC_delete_thread(id)` deletes the record that `GC_lookup_thread(id)` finds. -/
theorem gcDeleteThread_of_lookup (hi : TableInv H s B) {id : Nat} {me : Ptr}
    (hl : gcLookupThread H s id = .ok (some me)) :
    ∃ pre post, B (H.index id) = pre ++ me :: post ∧
      gcDeleteThread H s id = .ok (deleteFound s (H.index id) pre.getLast? me) := by
  rw [gcLookupThread_eq hi] at hl
  obtain ⟨hp, pre, post, hB, hpre⟩ := List.find?_eq_some.mp (Except.ok.inj hl)
  exact ⟨pre, post, hB, gcDeleteThread_spec hi hB (by simpa using hp) fun q hq => by simpa using hpre q hq⟩

/-- `GC_delete_thread(id)` unlinks the record the lookup of `id` finds. -/
theorem gcDeleteThread_found_lookup (hi : TableInv H s B) {id : Nat} {me : Ptr}
    (hl : gcLookupThread H s id = .ok (some me)) (hr : gcDeleteThread H s id = .ok s') :
    ∃ pre post, B (H.index id) = pre ++ me :: post ∧ s' = deleteFound s (H.index id) pre.getLast? me :=
  let ⟨pre, post, hB, hd⟩ := gcDeleteThread_of_lookup hi hl
  ⟨pre, post, hB, (Except.ok.inj (hr.symm.trans hd))⟩

/-- Unlinking `t` from its bucket removes `t` and nothing else from the linked records. -/
theorem mem_tableRecords_unlink_iff (hi : TableInv H s B) {h : Nat} (hh : h < H.size)
    {pre post : List Ptr} {t q : Ptr} (hB : B h = pre ++ t :: post) :
    q ∈ tableRecords H (Function.update B h (pre ++ post)) ↔ q ∈ tableRecords H B ∧ q ≠ t := by
  refine ⟨fun hq => ⟨mem_tableRecords_unlink hB hq, fun e => hi.not_mem_unlink hh hB (e ▸ hq)⟩,
    fun ⟨hq, hne⟩ => ?_⟩
  obtain ⟨k, hk, hm⟩ := mem_tableRecords.mp hq
  refine mem_tableRecords.mpr ⟨k, hk, ?_⟩
  by_cases hkh : k = h
  · subst hkh
    rw [hB] at hm
    simpa [hne] using hm
  · rwa [Function.update_noteq hkh]

/-- What `freeIfFinished` did: nothing, or it unlinked and freed the `FINISHED` record `t`. -/
theorem freeIfFinished_cases (hi : TableInv H s B) {t : Ptr} (hr : freeIfFinished H s t = .ok s') :
    s' = s ∨ ((s.rep t).finished = true ∧ ∃ pre post, B (H.index (s.rep t).id) = pre ++ t :: post ∧
      s' = ((s.closeHandle (s.rep t).handle).unlink (H.index (s.rep t).id) pre.getLast? t).internalFree t) := by
  unfold freeIfFinished at hr
  split at hr
  · obtain ⟨s₁, h₁, rfl⟩ := except_map_eq_ok.mp hr
    obtain ⟨pre, post, hB, rfl⟩ := gcDeleteGcThreadNoFree_found hi h₁
    exact .inr ⟨‹_›, pre, post, hB, rfl⟩
  · cases hr; exact .inl rfl

/-- Changing the fields of a record other than its id keeps the table invariant. -/
theorem TableInv.updateRep {q : Ptr} {f : ThreadRep → ThreadRep} (hi : TableInv H s B)
    (hid : ∀ r, (f r).id = r.id) : TableInv H (updateRep s q f) B :=
  hi.setRep (hid _)

/-- A linked `first_thread` record has been marked used. -/
theorem TableInv.used_of_mem (hi : TableInv H s B) (hp : p ∈ tableRecords H B) (he : p = firstThread) :
    s.firstThreadUsed = true := by
  obtain ⟨k, hk, hpk⟩ := mem_tableRecords.mp hp
  rcases hi.owned k hk p hpk with ⟨-, hne⟩ | ⟨-, hu⟩
  exacts [absurd he hne, hu]

/-- An unused `first_thread` stays not `FINISHED` across an in-place write to a record that is
not it, or that keeps the flag. -/
theorem firstFresh_updateRep {q : Ptr} {f : ThreadRep → ThreadRep}
    (hf : s.firstThreadUsed = false → (s.rep firstThread).finished = false)
    (hq : q = firstThread → s.firstThreadUsed = true ∨ ∀ r, (f r).finished = r.finished) :
    (updateRep s q f).firstThreadUsed = false → ((updateRep s q f).rep firstThread).finished = false := by
  intro hu
  rw [updateRep_firstThreadUsed] at hu
  by_cases hqf : q = firstThread
  · subst hqf
    rcases hq rfl with h | h
    · simp [h] at hu
    · simp [h, hf hu]
  · rw [updateRep_rep_ne _ _ (Ne.symm hqf)]; exact hf hu

@[simp] theorem deleteFound_firstThreadUsed (s : ThreadTable) (hv : Nat) (prev : Option Ptr) (p : Ptr) :
    (deleteFound s hv prev p).firstThreadUsed = s.firstThreadUsed := by
  unfold deleteFound; split <;> simp

end Table

section Threads

/-- The fields of an OS thread that the invariant below reads, as a lifecycle step may change
them: the same Win32 id and start argument, running only if it was, and the same record to
exit with, or none. -/
def OsThread.Follows (x th : OsThread) : Prop :=
  x.win32Id = th.win32Id ∧ (x.alive = true → th.alive = true) ∧ (x.me = th.me ∨ x.me = none) ∧
    x.startInfo = th.startInfo

/-- The same Win32 id, and running only if it was. -/
def OsThread.KeepsId (x th : OsThread) : Prop :=
  x.win32Id = th.win32Id ∧ (x.alive = true → th.alive = true)

/-- Every thread of `ts'` stands in `R` to the thread of `ts` at its index. -/
def Corresp (R : OsThread → OsThread → Prop) (ts ts' : List OsThread) : Prop :=
  ∀ (j : Nat) x, ts'[j]? = some x → ∃ th, ts[j]? = some th ∧ R x th

variable {R : OsThread → OsThread → Prop} {ts ts₁ ts' : List OsThread}

theorem OsThread.Follows.refl (x : OsThread) : x.Follows x := ⟨rfl, id, .inl rfl, rfl⟩

theorem OsThread.Follows.trans {x y z : OsThread} (h₁ : x.Follows y) (h₂ : y.Follows z) : x.Follows z := by
  refine ⟨h₁.1.trans h₂.1, h₂.2.1 ∘ h₁.2.1, ?_, h₁.2.2.2.trans h₂.2.2.2⟩
  rcases h₁.2.2.1 with h | h
  · exact h ▸ h₂.2.2.1
  · exact .inr h

theorem OsThread.Follows.keepsId {x th : OsThread} (h : x.Follows th) : x.KeepsId th := ⟨h.1, h.2.1⟩

namespace Corresp

theorem refl (hR : ∀ x, R x x) (ts : List OsThread) : Corresp R ts ts := fun _ x hx => ⟨x, hx, hR x⟩

theorem set {t : Nat} {th y : OsThread} (hR : ∀ x, R x x) (hth : ts[t]? = some th) (hy : R y th) :
    Corresp R ts (ts.set t y) := by
  intro j x hx
  rw [List.getElem?_set'] at hx
  split at hx
  · subst ‹t = j›
    rw [hth] at hx
    cases hx
    exact ⟨th, hth, hy⟩
  · exact ⟨x, hx, hR x⟩

theorem trans (h₁ : Corresp R ts ts₁) (h₂ : Corresp R ts₁ ts') (hR : ∀ x y z, R x y → R y z → R x z) :
    Corresp R ts ts' := by
  intro j x hx
  obtain ⟨y, hy, hxy⟩ := h₂ j x hx
  obtain ⟨th, hth, hyth⟩ := h₁ j y hy
  exact ⟨th, hth, hR _ _ _ hxy hyth⟩

theorem mono {R' : OsThread → OsThread → Prop} (h : Corresp R ts ts') (hR : ∀ x th, R x th → R' x th) :
    Corresp R' ts ts' := fun j x hx =>
  let ⟨th, hth, hr⟩ := h j x hx
  ⟨th, hth, hR x th hr⟩

end Corresp

/-- The thread found by its `pthread_t` stands at the index the lookup returns. -/
theorem Runtime.byPthread?_thread? {rt : Runtime} {p i : Nat} {tg : OsThread}
    (h : rt.byPthread? p = some (i, tg)) : rt.thread? i = some tg :=
  List.mk_mem_enum_iff_getElem?.mp (List.mem_of_find?_eq_some h)

end Threads

section Invariant

variable (H : TableHash)

/-- `GC_unregister_my_thread` in a thread that `GC_pthread_start_inner` registered, before its
`GC_thread_exit_proc`. -/
def LifeEvent.unregistersStarted (rt : Runtime) : LifeEvent → Bool
  | .unregister t => (rt.thread? t).any fun th => th.me.isSome
  | _ => false

/-- What a run without an unregister in a started thread keeps. -/
structure OwnInv (rt : Runtime) : Prop where
  table : ∃ B, TableInv H rt.table B
  /-- Running threads have distinct Win32 ids. -/
  ids : ∀ i j thi thj, rt.thread? i = some thi → rt.thread? j = some thj →
    thi.alive = true → thj.alive = true → thi.win32Id = thj.win32Id → i = j
  /-- Before `GC_thr_init` no thread was created by `GC_pthread_create`. -/
  uninit : rt.initialized = false → ∀ j th, rt.thread? j = some th → th.me = none ∧ th.startInfo = none
  /-- An unused `first_thread` is not `FINISHED`. -/
  firstFresh : rt.table.firstThreadUsed = false → (rt.table.rep firstThread).finished = false
  /-- A running thread between `GC_pthread_start_inner` and `GC_thread_exit_proc` finds its
  own record by its id. -/
  own : ∀ t th p, rt.thread? t = some th → th.alive = true → th.me = some p →
    OwnsRecord H rt.table th.win32Id p

/-- The processes reached from one whose main thread was not created by `GC_pthread_create`,
by lifecycle steps none of which unregisters a started thread. -/
inductive StartedReachable : Runtime → Prop
  | start (main : OsThread) (hm : main.me = none) (hs : main.startInfo = none) :
      StartedReachable (Runtime.start main)
  | step {rt rt' : Runtime} {e : LifeEvent} : StartedReachable rt → e.unregistersStarted rt = false →
      lifeStep H rt e = some (.ok rt') → StartedReachable rt'

/-- `runLife`, stopping with `none` at an unregister in a started thread. -/
def runLifeStarted (rt : Runtime) : List LifeEvent → Option (Except Fault Runtime)
  | [] => some (.ok rt)
  | e :: es =>
    if e.unregistersStarted rt then none
    else
      match lifeStep H rt e with
      | some (.ok rt') => runLifeStarted rt' es
      | r => r

end Invariant

section Steps

variable {H : TableHash} {rt rt' : Runtime}

namespace OwnInv

/-- The invariant holds in the initial runtime, whose only thread is the unregistered main thread.
-/
theorem start {main : OsThread} (hm : main.me = none) (hs : main.startInfo = none) :
    OwnInv H (Runtime.start main) := by
  refine ⟨⟨_, tableInv_init⟩, fun i j thi thj hi hj _ _ _ => ?_, fun _ j th hj => ?_, fun _ => rfl,
    fun t th p ht _ hp => ?_⟩
  · exact (getElem?_singleton_eq hi).1.trans (getElem?_singleton_eq hj).1.symm
  · obtain ⟨-, rfl⟩ := getElem?_singleton_eq hj; exact ⟨hm, hs⟩
  · obtain ⟨-, rfl⟩ := getElem?_singleton_eq ht; simp [hm] at hp

/-- A step that keeps each thread's Win32 id, and runs only threads that ran, keeps the Win32 ids of
running threads distinct. -/
theorem ids_of (hi : OwnInv H rt) (hk : Corresp OsThread.KeepsId rt.threads rt'.threads) :
    ∀ i j thi thj, rt'.thread? i = some thi → rt'.thread? j = some thj →
      thi.alive = true → thj.alive = true → thi.win32Id = thj.win32Id → i = j := by
  intro i j xi xj hxi hxj hai haj hid
  obtain ⟨thi, hthi, fi⟩ := hk i xi hxi
  obtain ⟨thj, hthj, fj⟩ := hk j xj hxj
  exact hi.ids i j thi thj hthi hthj (fi.2 hai) (fj.2 haj) (fi.1.symm.trans (hid.trans fj.1))

/-- A step whose threads follow the old ones keeps the invariant once the table keeps it and
each thread still between its start and its exit keeps its record. -/
theorem follow (hi : OwnInv H rt) (hk : Corresp OsThread.Follows rt.threads rt'.threads)
    (hinit : rt'.initialized = false → rt.initialized = false) (ht : ∃ B, TableInv H rt'.table B)
    (hf : rt'.table.firstThreadUsed = false → (rt'.table.rep firstThread).finished = false)
    (ho : ∀ t th p, rt.thread? t = some th → th.alive = true → th.me = some p →
      (∃ x, rt'.thread? t = some x ∧ x.alive = true ∧ x.me = some p) →
      OwnsRecord H rt'.table th.win32Id p) : OwnInv H rt' := by
  refine ⟨ht, hi.ids_of (hk.mono fun _ _ => OsThread.Follows.keepsId), fun hu j x hx => ?_, hf,
    fun t x p hx ha hm => ?_⟩
  · obtain ⟨th, hth, f⟩ := hk j x hx
    obtain ⟨hme, hs⟩ := hi.uninit (hinit hu) j th hth
    exact ⟨f.2.2.1.elim (·.trans hme) id, f.2.2.2.trans hs⟩
  · obtain ⟨th, hth, f⟩ := hk t x hx
    have hme : th.me = some p := f.2.2.1.elim (fun h => h.symm.trans hm) fun h => by rw [h] at hm; cases hm
    rw [f.1]
    exact ho t th p hth (f.2.1 ha) hme ⟨x, hx, ha, hm⟩

/-- A step that changes threads only as `Follows` allows and leaves the table alone. -/
theorem of_threads (hi : OwnInv H rt) (hk : Corresp OsThread.Follows rt.threads rt'.threads)
    (ht : rt'.table = rt.table) (hinit : rt'.initialized = rt.initialized) : OwnInv H rt' :=
  hi.follow hk (hinit ▸ id) (ht ▸ hi.table) (ht ▸ hi.firstFresh)
    fun t th p hth ha hm _ => ht ▸ hi.own t th p hth ha hm

/-- A step that changes the table only. -/
theorem of_table {s₀ s : ThreadTable} (hi : OwnInv H (rt.setTable s₀))
    (ht : ∃ B, TableInv H s B)
    (hf : s.firstThreadUsed = false → (s.rep firstThread).finished = false)
    (ho : ∀ t th p, rt.thread? t = some th → th.alive = true → th.me = some p →
      OwnsRecord H s th.win32Id p) : OwnInv H (rt.setTable s) :=
  hi.follow (.refl OsThread.Follows.refl _) id ht hf fun t th p hth ha hm _ => ho t th p hth ha hm

/-- A write to fields of one record other than its id and `FINISHED` flag. -/
theorem of_updateRep {q : Ptr} {f : ThreadRep → ThreadRep} (hi : OwnInv H rt)
    (hid : ∀ r, (f r).id = r.id) (hfin : ∀ r, (f r).finished = r.finished) :
    OwnInv H (rt.setTable (updateRep rt.table q f)) :=
  let ⟨B, hB⟩ := hi.table
  hi.of_table ⟨B, hB.updateRep hid⟩ (firstFresh_updateRep hi.firstFresh fun _ => .inr hfin)
    fun t th p hth ha hm => (hi.own t th p hth ha hm).updateRep hid fun _ => hfin

/-- A write to a record that no running started thread holds, and that is in use if it is
`first_thread`: its `FINISHED` flag may change. -/
theorem of_updateRep_unheld {s : ThreadTable} {q : Ptr} {f : ThreadRep → ThreadRep}
    (hi : OwnInv H (rt.setTable s)) (hid : ∀ r, (f r).id = r.id)
    (hq : ∀ t th p, rt.thread? t = some th → th.alive = true → th.me = some p → q ≠ p)
    (hu : q = firstThread → s.firstThreadUsed = true) :
    OwnInv H (rt.setTable (updateRep s q f)) := by
  obtain ⟨B, hB⟩ : ∃ B, TableInv H s B := hi.table
  exact hi.of_table ⟨B, hB.updateRep hid⟩ (firstFresh_updateRep hi.firstFresh fun he => .inl (hu he))
    fun t th p hth ha hm => (hi.own t th p hth ha hm).updateRep hid fun e => absurd e (hq t th p hth ha hm)

/-- The locked tail of `GC_pthread_join` and `GC_pthread_detach`: the record it frees is
`FINISHED`, so no running started thread holds it. -/
theorem of_freeIfFinished {s₀ s : ThreadTable} {t : Ptr} (hi : OwnInv H (rt.setTable s₀))
    (hr : freeIfFinished H s₀ t = .ok s) : OwnInv H (rt.setTable s) := by
  obtain ⟨B, hB⟩ : ∃ B, TableInv H s₀ B := hi.table
  rcases freeIfFinished_cases hB hr with rfl | ⟨hfin, pre, post, hBd, rfl⟩
  · exact hi
  · have hi' := ((hB.closeHandle (s₀.rep t).handle).unlink (H.index_lt _) hBd).internalFree
      (hB.not_mem_unlink (H.index_lt _) hBd)
    refine hi.of_table ⟨_, hi'⟩ (by simpa using hi.firstFresh) fun j thj p hj hja hjm => ?_
    have hp : OwnsRecord H s₀ thj.win32Id p := hi.own j thj p hj hja hjm
    exact hp.unlink hB hi' hBd (by simp) fun e => by rw [e, hp.2] at hfin; cases hfin

/-- A write to one thread's state that `Follows` allows. -/
theorem of_setThread {t : Nat} {th x : OsThread} (hi : OwnInv H rt) (hth : rt.thread? t = some th)
    (hx : x.Follows th) : OwnInv H (rt.setThread t x) :=
  hi.of_threads (.set OsThread.Follows.refl hth hx) rfl rfl

/-- A thread created with a Win32 id no running thread has, and no record to exit with. -/
theorem of_append {x : OsThread} (hi : OwnInv H rt) (hrt : rt'.threads = rt.threads ++ [x])
    (htab : rt'.table = rt.table) (hinit : rt'.initialized = rt.initialized)
    (hfree : rt.win32IdFree H x.win32Id = true) (hme : x.me = none)
    (hs : rt.initialized = false → x.startInfo = none) : OwnInv H rt' := by
  have hold : ∀ j y, rt'.thread? j = some y → rt.thread? j = some y ∨ (j = rt.threads.length ∧ y = x) :=
    fun j y hy => getElem?_concat_cases (hrt ▸ hy)
  have hnot : ∀ j th, rt.thread? j = some th → th.alive = true → th.win32Id ≠ x.win32Id :=
    fun _ _ hth => Runtime.win32IdFree_running hfree (List.getElem?_mem hth)
  refine ⟨htab ▸ hi.table, fun i j xi xj hxi hxj hai haj hid => ?_, fun hu j y hy => ?_,
    htab ▸ hi.firstFresh, fun t y p hy ha hm => ?_⟩
  · rcases hold i xi hxi with hi' | ⟨rfl, rfl⟩ <;> rcases hold j xj hxj with hj' | ⟨rfl, rfl⟩
    · exact hi.ids i j xi xj hi' hj' hai haj hid
    · exact absurd hid (hnot i xi hi' hai)
    · exact absurd hid.symm (hnot j xj hj' haj)
    · rfl
  · rcases hold j y hy with hj | ⟨-, rfl⟩
    · exact hi.uninit (hinit ▸ hu) j y hj
    · exact ⟨hme, hs (hinit ▸ hu)⟩
  · rcases hold t y hy with ht | ⟨-, rfl⟩
    · exact htab ▸ hi.own t y p ht ha hm
    · simp [hme] at hm

/-! ### One lemma per operation: each keeps the invariant -/

theorem of_thrInit (hi : OwnInv H rt) {dup : Option Nat} (h : gcThrInit H rt dup = some (.ok rt')) :
    OwnInv H rt' := by
  simp only [gcThrInit, Option.bind_eq_bind, Option.bind_eq_some] at h
  obtain ⟨main, -, h⟩ := h
  split at h
  · cases h
  rename_i hinit
  obtain ⟨⟨s₁, me⟩, hr, rfl⟩ := except_map_eq_ok.mp (Option.some.inj h)
  obtain ⟨B, hB⟩ := hi.table
  obtain ⟨-, hi', -, -, -, -, hu⟩ := gcRegisterMyThreadInner_spec hB (show AllocAnswer _ none from trivial) hr
  -- before `GC_thr_init` no thread holds a record to exit with
  refine hi.follow (.refl OsThread.Follows.refl _) (fun h => by simp at h) ⟨_, hi'⟩
    (fun h => by simp [hu] at h) fun t th p hth _ hm _ => ?_
  simp [(hi.uninit (by simpa using hinit) t th hth).1] at hm

theorem of_startInner (hi : OwnInv H rt) {t : Nat} {dup : Option Nat} {alloc : Option Ptr}
    (ha : AllocAnswer rt.table alloc) (h : gcPthreadStartInner H rt t dup alloc = some (.ok rt')) :
    OwnInv H rt' := by
  simp only [gcPthreadStartInner, Option.bind_eq_bind, Option.bind_eq_some] at h
  obtain ⟨th, hth, d, hd, h⟩ := h
  split at h
  · cases h
  rename_i halive
  obtain ⟨⟨s₁, me⟩, hr, rfl⟩ := except_map_eq_ok.mp (Option.some.inj h)
  obtain ⟨B, hB⟩ := hi.table
  obtain ⟨-, hi', -, -, -, -, hu⟩ := gcRegisterMyThreadInner_spec hB ha hr
  have hta : th.alive = true := by simpa using halive
  -- only `GC_pthread_create` after `GC_thr_init` gives a thread a start argument
  have hinit : rt.initialized = true := by
    by_contra hn
    have := (hi.uninit (by simpa using hn) t th hth).2
    rw [hd] at this
    cases this
  have hS : TableInv H (updateRep s₁ me fun r => { r with pthreadId := th.pthread, detached := r.detached || d })
      _ := hi'.updateRep fun _ => rfl
  refine ⟨⟨_, hS⟩, hi.ids_of (.set (fun _ => ⟨rfl, id⟩) hth ⟨rfl, id⟩),
    fun hn => by simp [Runtime.setThread, Runtime.setTable, hinit] at hn, fun h => by simp [hu] at h,
    fun j x p hx hxa hxm => ?_⟩
  change (rt.threads.set t _)[j]? = some x at hx
  rw [List.getElem?_set'] at hx
  split at hx
  · -- the starting thread: the new record heads the bucket of its id
    subst ‹t = j›
    rw [show rt.threads[t]? = some th from hth] at hx
    cases hx
    cases hxm
    exact (OwnsRecord.of_register hB ha hr hi.firstFresh).updateRep (fun _ => rfl) fun _ _ => rfl
  · have hw : th.win32Id ≠ x.win32Id := fun he => ‹¬t = j› (hi.ids t j th x hth hx hta hxa he)
    exact ((hi.own j x p hx hxa hxm).register hB ha hr hw).updateRep (fun _ => rfl) fun _ _ => rfl

/-- Two running threads hold different records: their ids differ. -/
theorem me_ne (hi : OwnInv H rt) {t j : Nat} {th thj : OsThread} {me p : Ptr}
    (hth : rt.thread? t = some th) (hta : th.alive = true) (hown : ∃ B, TableInv H rt.table B ∧
      me ∈ tableRecords H B ∧ (rt.table.rep me).id = th.win32Id)
    (hj : rt.thread? j = some thj) (hja : thj.alive = true) (hjm : thj.me = some p) (hjt : j ≠ t) :
    me ≠ p := by
  rintro rfl
  obtain ⟨B, hB, -, hid⟩ := hown
  exact hjt (hi.ids j t thj th hj hth hja hta (((hi.own j thj me hj hja hjm).mem hB).2.symm.trans hid))

theorem of_exitProc (hi : OwnInv H rt) {t : Nat} (h : gcThreadExitProc H rt t = some (.ok rt')) :
    OwnInv H rt' := by
  simp only [gcThreadExitProc, Option.bind_eq_bind, Option.bind_eq_some] at h
  obtain ⟨th, hth, me, hme, h⟩ := h
  split at h
  · cases h
  rename_i halive
  have hta : th.alive = true := by simpa using halive
  obtain ⟨B, hB⟩ := hi.table
  have hown := hi.own t th me hth hta hme
  -- the thread gives up `me` first
  have h₁ : OwnInv H (rt.setThread t { th with me := none }) := hi.of_setThread hth ⟨rfl, id, .inr rfl, rfl⟩
  -- every running started thread now holds a record other than `me`
  have hne : ∀ j thj p, (rt.setThread t { th with me := none }).thread? j = some thj →
      thj.alive = true → thj.me = some p → me ≠ p := by
    intro j thj p hj hja hjm
    change (rt.threads.set t _)[j]? = some thj at hj
    rw [List.getElem?_set'] at hj
    split at hj
    · subst ‹t = j›
      rw [show rt.threads[t]? = some th from hth] at hj
      cases hj
      cases hjm
    · exact hi.me_ne hth hta ⟨B, hB, hown.mem hB⟩ hj hja hjm (Ne.symm ‹_›)
  split at h
  · obtain ⟨s₁, hr, rfl⟩ := except_map_eq_ok.mp (Option.some.inj h)
    obtain ⟨pre, post, hBd, rfl⟩ := gcDeleteThread_found_lookup hB hown.1 hr
    have hi' := gcDeleteThread_inv hB hBd
    exact OwnInv.of_table h₁ ⟨_, hi'⟩ (by simpa using hi.firstFresh) fun j thj p hj hja hjm =>
      (h₁.own j thj p hj hja hjm).unlink hB hi' hBd (deleteFound_rep ..) (hne j thj p hj hja hjm)
  · cases h
    exact OwnInv.of_updateRep_unheld h₁ (fun _ => rfl) hne (hB.used_of_mem (hown.mem hB).1)

theorem of_register (hi : OwnInv H rt) {t sb : Nat} {dup : Option Nat} {alloc : Option Ptr}
    {r : Runtime × RegisterStatus} (ha : AllocAnswer rt.table alloc)
    (h : gcRegisterMyThread H rt t sb dup alloc = some (.ok r)) : OwnInv H r.1 := by
  simp only [gcRegisterMyThread, Option.bind_eq_bind, Option.bind_eq_some] at h
  obtain ⟨th, hth, h⟩ := h
  split at h
  · cases h
  split at h
  · cases h
  obtain ⟨B, hB⟩ := hi.table
  cases hl : gcLookupThread H rt.table th.win32Id with
  | error e => simp [hl] at h
  | ok me? =>
    cases me? with
    | none =>
      -- a new record under the caller's id, which no running started thread has
      simp only [hl, except_ok_bind] at h
      obtain ⟨⟨s₁, me⟩, hr, h⟩ := except_bind_eq_ok.mp (Option.some.inj h)
      cases h
      obtain ⟨-, hi', -, -, -, -, hu⟩ := gcRegisterMyThreadInner_spec hB ha hr
      show OwnInv H (rt.setTable _)
      refine hi.of_table ⟨_, hi'.updateRep fun _ => rfl⟩ (fun h => by simp [hu] at h)
        fun j thj p hj hja hjm => ?_
      have hw : th.win32Id ≠ thj.win32Id := fun he => by
        have := (hi.own j thj p hj hja hjm).1
        rw [← he, hl] at this
        cases this
      exact ((hi.own j thj p hj hja hjm).register hB ha hr hw).updateRep (fun _ => rfl) fun _ _ => rfl
    | some me =>
      simp only [hl, except_ok_bind] at h
      split at h
      · -- the take-over of a `FINISHED` record, which no running started thread holds
        rename_i hfin
        obtain ⟨s₁, hs, h⟩ := except_bind_eq_ok.mp (Option.some.inj h)
        cases h
        unfold gcRecordStackBase at hs
        split at hs
        · cases hs
        cases hs
        have hmeB := (gcLookupThread_mem hB hl).1
        show OwnInv H (rt.setTable _)
        refine OwnInv.of_updateRep_unheld (hi.of_updateRep (fun _ => rfl) fun _ => rfl) (fun _ => rfl)
          (fun j thj p hj hja hjm e => ?_) fun he => by simpa using hB.used_of_mem hmeB he
        rw [e, ThreadRep.knownFinished, (hi.own j thj p hj hja hjm).2] at hfin
        cases hfin
      · cases h
        exact hi

theorem of_unregister (hi : OwnInv H rt) {t : Nat}
    (hg : (LifeEvent.unregister t).unregistersStarted rt = false)
    (h : gcUnregisterMyThread H rt t = some (.ok rt')) : OwnInv H rt' := by
  simp only [gcUnregisterMyThread, Option.bind_eq_bind, Option.bind_eq_some] at h
  obtain ⟨th, hth, h⟩ := h
  split at h
  · cases h
  rename_i halive
  have hta : th.alive = true := by simpa using halive
  have hnm : th.me = none := by simpa [LifeEvent.unregistersStarted, hth] using hg
  obtain ⟨me?, hl, h⟩ := except_bind_eq_ok.mp (Option.some.inj h)
  cases me? with
  | none => cases h
  | some me =>
    obtain ⟨B, hB⟩ := hi.table
    have hmeB := gcLookupThread_mem hB hl
    -- the caller holds no record to exit with, so every running started thread holds another
    have hne : ∀ j thj p, rt.thread? j = some thj → thj.alive = true → thj.me = some p → me ≠ p := by
      intro j thj p hj hja hjm
      refine hi.me_ne hth hta ⟨B, hB, hmeB⟩ hj hja hjm fun hjt => ?_
      subst hjt
      cases hj.symm.trans hth
      simp [hnm] at hjm
    dsimp only at h
    split at h
    · cases h
      exact hi.of_updateRep_unheld (fun _ => rfl) hne (hB.used_of_mem hmeB.1)
    · obtain ⟨s₁, hr, rfl⟩ := except_map_eq_ok.mp h
      obtain ⟨pre, post, hBd, rfl⟩ := gcDeleteThread_found_lookup hB hl hr
      have hi' := gcDeleteThread_inv hB hBd
      exact hi.of_table ⟨_, hi'⟩ (by simpa using hi.firstFresh) fun j thj p hj hja hjm =>
        (hi.own j thj p hj hja hjm).unlink hB hi' hBd (deleteFound_rep ..) (hne j thj p hj hja hjm)

theorem of_lookupLoop (hi : OwnInv H rt) {j target : Nat} {call : Nat → Ptr → PendingCall}
    (h : lookupLoop H rt j target call = some (.ok rt')) : OwnInv H rt' := by
  simp only [lookupLoop, Option.bind_eq_bind, Option.bind_eq_some] at h
  obtain ⟨th, hth, h⟩ := h
  split at h
  · cases h
  split at h <;> cases h
  exact hi.of_setThread hth ⟨rfl, id, .inl rfl, rfl⟩

/-- The thread `j` leaves its pending call, and the target thread `i` becomes unjoinable. -/
theorem of_joinDetach {j i target : Nat} {th tg : OsThread} (hi : OwnInv H rt)
    (hth : rt.thread? j = some th) (htg : (rt.setThread j { th with pending := none }).byPthread? target = some (i, tg)) :
    OwnInv H ((rt.setThread j { th with pending := none }).setThread i { tg with joinable := false }) :=
  OwnInv.of_setThread (hi.of_setThread hth ⟨rfl, id, .inl rfl, rfl⟩) (Runtime.byPthread?_thread? htg)
    ⟨rfl, id, .inl rfl, rfl⟩

theorem of_joinDone (hi : OwnInv H rt) {j : Nat} (h : gcPthreadJoinDone H rt j = some (.ok rt')) :
    OwnInv H rt' := by
  simp only [gcPthreadJoinDone, Option.bind_eq_bind, Option.bind_eq_some] at h
  obtain ⟨th, hth, call, -, h⟩ := h
  cases call with
  | detach => cases h
  | join target t =>
    dsimp only at h
    have h₁ : OwnInv H (rt.setThread j { th with pending := none }) :=
      hi.of_threads (.set OsThread.Follows.refl hth ⟨rfl, id, .inl rfl, rfl⟩) rfl rfl
    split at h
    · cases h; exact h₁
    · rename_i i tg hbp
      split at h
      · cases h; exact h₁
      · split at h
        · cases h
        · obtain ⟨s₁, hr, rfl⟩ := except_map_eq_ok.mp (Option.some.inj h)
          exact OwnInv.of_freeIfFinished (hi.of_joinDetach hth hbp) hr

theorem of_detachDone (hi : OwnInv H rt) {j : Nat} (h : gcPthreadDetachDone H rt j = some (.ok rt')) :
    OwnInv H rt' := by
  simp only [gcPthreadDetachDone, Option.bind_eq_bind, Option.bind_eq_some] at h
  obtain ⟨th, hth, call, -, h⟩ := h
  cases call with
  | join => cases h
  | detach target t =>
    dsimp only at h
    have h₁ : OwnInv H (rt.setThread j { th with pending := none }) :=
      hi.of_threads (.set OsThread.Follows.refl hth ⟨rfl, id, .inl rfl, rfl⟩) rfl rfl
    split at h
    · cases h; exact h₁
    · rename_i i tg hbp
      split at h
      · cases h; exact h₁
      · obtain ⟨s₁, hr, rfl⟩ := except_map_eq_ok.mp (Option.some.inj h)
        -- `DETACHED` is set first, then the locked tail runs
        refine OwnInv.of_freeIfFinished ?_ hr
        exact (hi.of_joinDetach hth hbp).of_updateRep (fun _ => rfl) fun _ => rfl

theorem of_doBlockingEnter (hi : OwnInv H rt) {t sp : Nat} (h : gcDoBlockingEnter H rt t sp = some (.ok rt')) :
    OwnInv H rt' := by
  simp only [gcDoBlockingEnter, Option.bind_eq_bind, Option.bind_eq_some] at h
  obtain ⟨th, hth, h⟩ := h
  split at h
  · cases h
  obtain ⟨me?, -, h⟩ := except_bind_eq_ok.mp (Option.some.inj h)
  cases me? with
  | none => cases h
  | some me =>
    cases h
    exact OwnInv.of_setThread (hi.of_updateRep (fun _ => rfl) fun _ => rfl) hth ⟨rfl, id, .inl rfl, rfl⟩

theorem of_doBlockingLeave (hi : OwnInv H rt) {t : Nat} (h : gcDoBlockingLeave rt t = some (.ok rt')) :
    OwnInv H rt' := by
  simp only [gcDoBlockingLeave, Option.bind_eq_bind, Option.bind_eq_some] at h
  obtain ⟨th, hth, me, -, h⟩ := h
  cases h
  exact OwnInv.of_setThread (hi.of_updateRep (fun _ => rfl) fun _ => rfl) hth ⟨rfl, id, .inl rfl, rfl⟩

theorem of_setStackbottom (hi : OwnInv H rt) {t sb : Nat} (h : gcSetStackbottom H rt t sb = some (.ok rt')) :
    OwnInv H rt' := by
  simp only [gcSetStackbottom, Option.bind_eq_bind, Option.bind_eq_some] at h
  obtain ⟨th, -, h⟩ := h
  split at h
  · cases h
  split at h
  · cases h; exact hi
  obtain ⟨me?, -, h⟩ := except_bind_eq_ok.mp (Option.some.inj h)
  cases me? with
  | none => cases h
  | some me =>
    cases h
    exact hi.of_updateRep (fun _ => rfl) fun _ => rfl

/-- One lifecycle step, other than `GC_unregister_my_thread` in a started thread, keeps the
invariant. -/
theorem step {e : LifeEvent} (hi : OwnInv H rt) (hg : e.unregistersStarted rt = false)
    (h : lifeStep H rt e = some (.ok rt')) : OwnInv H rt' := by
  cases e with
  | thrInit dup => exact hi.of_thrInit h
  | pthreadCreate parent w p sb d =>
    obtain ⟨rt₁, h₁, h₂⟩ := Option.map_eq_some'.mp h
    cases h₂
    simp only [gcPthreadCreate, Option.bind_eq_bind, Option.bind_eq_some] at h₁
    obtain ⟨th, -, h₁⟩ := h₁
    split at h₁
    · rename_i hc
      cases h₁
      simp only [Bool.and_eq_true] at hc
      exact hi.of_append rfl rfl rfl hc.1.2 rfl fun h => by simp [hc.1.1.2] at h
    · cases h₁
  | foreignCreate w p sb =>
    obtain ⟨rt₁, h₁, h₂⟩ := Option.map_eq_some'.mp h
    cases h₂
    simp only [foreignCreate] at h₁
    split at h₁
    · rename_i hc
      cases h₁
      exact hi.of_append rfl rfl rfl (Bool.and_eq_true _ _ ▸ hc).1 rfl fun _ => rfl
    · cases h₁
  | startInner t dup alloc =>
    simp only [lifeStep] at h
    split at h
    · exact hi.of_startInner (allocAnswer_of_allocOk ‹_›) h
    · cases h
  | exitProc t => exact hi.of_exitProc h
  | register t sb dup alloc =>
    simp only [lifeStep] at h
    split at h
    · obtain ⟨r, h₁, h₂⟩ := Option.map_eq_some'.mp h
      obtain ⟨r', h₃, rfl⟩ := except_map_eq_ok.mp h₂
      exact hi.of_register (allocAnswer_of_allocOk ‹_›) (h₁.trans (congrArg _ h₃))
    · cases h
  | unregister t => exact hi.of_unregister hg h
  | allowRegister t =>
    simp only [lifeStep, Option.bind_eq_some] at h
    obtain ⟨th, -, h⟩ := h
    split at h <;> cases h
    exact hi.of_threads (.refl OsThread.Follows.refl _) rfl rfl
  | terminate t =>
    simp only [lifeStep, Option.bind_eq_some] at h
    obtain ⟨th, hth, h⟩ := h
    split at h <;> cases h
    exact hi.of_setThread hth ⟨rfl, fun h => absurd h Bool.false_ne_true, .inl rfl, rfl⟩
  | joinLookup j target => exact hi.of_lookupLoop h
  | joinDone j => exact hi.of_joinDone h
  | detachLookup j target => exact hi.of_lookupLoop h
  | detachDone j => exact hi.of_detachDone h
  | doBlocking t sp => exact hi.of_doBlockingEnter h
  | doBlockingDone t => exact hi.of_doBlockingLeave h
  | setStackbottom t sb => exact hi.of_setStackbottom h

end OwnInv

/-- Every runtime reachable from a started main thread satisfies the invariant. -/
theorem StartedReachable.ownInv (hr : StartedReachable H rt) : OwnInv H rt := by
  induction hr with
  | start main hm hs => exact .start hm hs
  | step _ hg h ih => exact ih.step hg h

/-- A run of events that succeeds from a reachable runtime ends in a reachable runtime. -/
theorem runLifeStarted_reachable (hr : StartedReachable H rt) (es : List LifeEvent)
    (h : runLifeStarted H rt es = some (.ok rt')) : StartedReachable H rt' := by
  induction es generalizing rt with
  | nil => cases h; exact hr
  | cons e es ih =>
    simp only [runLifeStarted] at h
    split at h
    · cases h
    · rename_i hg
      split at h
      · exact ih (.step hr (Bool.eq_false_iff.mpr hg) ‹_›) h
      · next hne => exact (hne _ h).elim

/-- The main thread creates a detached thread `1` (Win32 id `2`, `pthread_t` `101`), which
starts with record `2`. -/
def detachedStartRun : List LifeEvent :=
  [.thrInit (some 11), .pthreadCreate 0 2 101 0x20000 true, .startInner 1 (some 12) (some 2)]

/-- A thread started by `GC_pthread_create` that has not yet run `GC_thread_exit_proc` finds
by its Win32 id the record `me` it was started with, and `me` is not `FINISHED`; so
`GC_thread_is_registered` answers `TRUE` and `GC_get_my_stackbottom` returns the stack base
of `me`, whatever other threads were created, registered, joined, detached or exited in
between. -/
theorem startedThread_finds_own_record (hr : StartedReachable H rt) {t : Nat} {th : OsThread}
    {p : Ptr} (hth : rt.thread? t = some th) (ha : th.alive = true) (hm : th.me = some p) :
    gcLookupThread H rt.table th.win32Id = .ok (some p) ∧ (rt.table.rep p).finished = false ∧
      gcThreadIsRegistered H rt t = some (.ok true) ∧
      gcGetMyStackbottom H rt t = some (.ok ((rt.table.rep p).stackEnd, p)) := by
  have ho := hr.ownInv.own t th p hth ha hm
  refine ⟨ho.1, ho.2, ?_, ?_⟩ <;>
    simp [gcThreadIsRegistered, gcGetMyStackbottom, show rt.thread? t = some th from hth, ha, ho.1,
      Except.map, pure, Except.pure]

/-- Thread `1` of `detachedStartRun` finds record `2`. -/
theorem startedThread_finds_own_record_detachedStart :
    ∃ rt th, runLifeStarted lowByteHash (Runtime.start mainThread) detachedStartRun = some (.ok rt) ∧
      rt.thread? 1 = some th ∧ th.alive = true ∧ th.me = some 2 ∧
      gcLookupThread lowByteHash rt.table th.win32Id = .ok (some 2) ∧
      (rt.table.rep 2).finished = false ∧ gcThreadIsRegistered lowByteHash rt 1 = some (.ok true) ∧
      gcGetMyStackbottom lowByteHash rt 1 = some (.ok ((rt.table.rep 2).stackEnd, 2)) :=
  have hr : StartedReachable lowByteHash _ :=
    runLifeStarted_reachable (.start mainThread rfl rfl) detachedStartRun rfl
  ⟨_, _, rfl, rfl, rfl, rfl, startedThread_finds_own_record hr rfl rfl rfl⟩

/-- `GC_thread_exit_proc` in a started thread never faults. When `me` is `DETACHED`, the
`GC_delete_thread` it calls by Win32 id deletes exactly `me`: `me` is unlinked, every other
record stays linked, and `me` is passed to `GC_INTERNAL_FREE` unless it is `first_thread`.
Otherwise `me` is only marked `FINISHED`, for the join to free, and the links stay. -/
theorem threadExitProc_deletes_me (hr : StartedReachable H rt) {t : Nat} {th : OsThread}
    {p : Ptr} (hth : rt.thread? t = some th) (ha : th.alive = true) (hm : th.me = some p) :
    ∃ rt' B B', gcThreadExitProc H rt t = some (.ok rt') ∧ TableInv H rt.table B ∧
      TableInv H rt'.table B' ∧
      if (rt.table.rep p).detached then
        (∀ q, q ∈ tableRecords H B' ↔ q ∈ tableRecords H B ∧ q ≠ p) ∧
          rt'.table.freed = if p = firstThread then rt.table.freed else rt.table.freed ++ [p]
      else B' = B ∧ (rt'.table.rep p).finished = true ∧ ∀ q ≠ p, rt'.table.rep q = rt.table.rep q := by
  have hi := hr.ownInv
  obtain ⟨B, hB⟩ := hi.table
  have ho := hi.own t th p hth ha hm
  have hth' : rt.thread? t = some th := hth
  by_cases hd : (rt.table.rep p).detached
  · obtain ⟨pre, post, hBd, hdel⟩ := gcDeleteThread_of_lookup hB ho.1
    refine ⟨_, B, _, by simp [gcThreadExitProc, hth', hm, ha, hd, hdel]; rfl, hB,
      gcDeleteThread_inv hB hBd, ?_⟩
    rw [if_pos hd]
    refine ⟨fun q => mem_tableRecords_unlink_iff hB (H.index_lt _) hBd, ?_⟩
    by_cases hp : p = firstThread <;> simp [deleteFound, hp]
  · refine ⟨_, B, B, by simp [gcThreadExitProc, hth', hm, ha, hd]; rfl, hB,
      hB.updateRep (q := p) (f := fun r => { r with finished := true }) fun _ => rfl, ?_⟩
    rw [if_neg hd]
    exact ⟨rfl, by simp, fun q hq => by simp [updateRep_rep_ne _ _ hq]⟩


/-- Thread `1` of `detachedStartRun` exits: record `2`, `DETACHED`, is unlinked and freed. -/
theorem threadExitProc_deletes_me_detachedStart :
    ∃ rt th, runLifeStarted lowByteHash (Runtime.start mainThread) detachedStartRun = some (.ok rt) ∧
      rt.thread? 1 = some th ∧ th.alive = true ∧ th.me = some 2 ∧
      ∃ rt' B B', gcThreadExitProc lowByteHash rt 1 = some (.ok rt') ∧
        TableInv lowByteHash rt.table B ∧ TableInv lowByteHash rt'.table B' ∧
        if (rt.table.rep 2).detached then
          (∀ q, q ∈ tableRecords lowByteHash B' ↔ q ∈ tableRecords lowByteHash B ∧ q ≠ 2) ∧
            rt'.table.freed = if 2 = firstThread then rt.table.freed else rt.table.freed ++ [2]
        else B' = B ∧ (rt'.table.rep 2).finished = true ∧
          ∀ q ≠ 2, rt'.table.rep q = rt.table.rep q :=
  have hr : StartedReachable lowByteHash _ :=
    runLifeStarted_reachable (.start mainThread rfl rfl) detachedStartRun rfl
  ⟨_, _, rfl, rfl, rfl, rfl, threadExitProc_deletes_me hr rfl rfl rfl⟩

end Steps

end Win32GcThreads
