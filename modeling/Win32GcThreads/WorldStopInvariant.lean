import Win32GcThreads.WorldStop
import Win32GcThreads.LifecycleInvariant

/-!
# The stop and scan loops agree

Every loop of a collection walks the buckets of `GC_threads` and changes record fields
other than `id` only (`LinksKept`), so over a well-formed table it visits each linked
record once, in `tableRecords` order, and leaves the table well formed. The stop loop
leaves every record the scan loop will push stopped: the caller's, blocked, or
suspended. `FaultsIn` tracks what a computation can fail with; the scan loop then never
fails the assertion at line 1524, and sets `found_me` whenever the caller has a record
to push. The last section follows a re-registration on a `FINISHED` record through
the collections after it.
-/

namespace Win32GcThreads

/-- `s'` differs from `s` in record fields other than `id` only. -/
structure LinksKept (s s' : ThreadTable) : Prop where
  heads : s'.heads = s.heads
  next : s'.next = s.next
  id : ∀ p, (s'.rep p).id = (s.rep p).id
  allocated : s'.allocated = s.allocated
  firstThreadUsed : s'.firstThreadUsed = s.firstThreadUsed

namespace LinksKept

variable {H : TableHash} {s t u : ThreadTable} {B : Nat → List Ptr}

/-- A table keeps its own links. -/
theorem refl (s : ThreadTable) : LinksKept s s := ⟨rfl, rfl, fun _ => rfl, rfl, rfl⟩

/-- Keeping the links composes. -/
theorem trans (h₁ : LinksKept s t) (h₂ : LinksKept t u) : LinksKept s u :=
  ⟨h₂.heads.trans h₁.heads, h₂.next.trans h₁.next, fun p => (h₂.id p).trans (h₁.id p),
    h₂.allocated.trans h₁.allocated, h₂.firstThreadUsed.trans h₁.firstThreadUsed⟩

/-- Rewriting a record with its own id keeps the links. -/
theorem setRep {p : Ptr} {r : ThreadRep} (hr : r.id = (s.rep p).id) : LinksKept s (s.setRep p r) :=
  ⟨rfl, rfl, fun q => by
    by_cases hq : q = p
    · subst hq; simpa using hr
    · simp [Function.update_noteq hq], rfl, rfl⟩

/-- An in-place update that keeps ids keeps the links. -/
theorem updateRep (s : ThreadTable) (p : Ptr) {f : ThreadRep → ThreadRep}
    (hf : ∀ r, (f r).id = r.id) : LinksKept s (updateRep s p f) :=
  setRep (hf _)

/-- A table with the links, ids and allocation of a well-formed table is well formed. -/
theorem inv (h : LinksKept s t) (hi : TableInv H s B) : TableInv H t B :=
  hi.congr h.heads h.next (fun p _ => h.id p) (fun _ _ hp => h.allocated ▸ hp)
    (fun hf => h.firstThreadUsed ▸ hf)

end LinksKept

section Walk

variable {σ : Type} {tbl : σ → ThreadTable} {body : σ → Ptr → Except Fault σ}
  {H : TableHash} {B : Nat → List Ptr}

/-- A loop body that changes record fields other than `id` only. -/
def KeepsLinks (tbl : σ → ThreadTable) (body : σ → Ptr → Except Fault σ) : Prop :=
  ∀ st p st', body st p = .ok st' → LinksKept (tbl st) (tbl st')

/-- A fold whose body keeps the links keeps the links. -/
theorem foldlM_linksKept (hb : KeepsLinks tbl body) {l : List Ptr} {st st' : σ}
    (h : l.foldlM body st = .ok st') : LinksKept (tbl st) (tbl st') := by
  induction l generalizing st with
  | nil => cases h; exact .refl _
  | cons p l ih =>
    obtain ⟨st₁, h₁, h₂⟩ := except_bind_eq_ok.mp h
    exact (hb _ _ _ h₁).trans (ih h₂)

/-- A walk along a chain that the body leaves linked visits the chain's records. -/
theorem walkChain_eq (hb : KeepsLinks tbl body) {next : Ptr → Option Ptr} {x : Option Ptr}
    {l : List Ptr} (hc : Chain next x l) {st : σ} {n : Nat} (hst : (tbl st).next = next)
    (hn : l.length ≤ n) : walkChain tbl body n st x = l.foldlM body st := by
  induction hc generalizing st n with
  | nil => cases n <;> rfl
  | @cons p l _ ih =>
    obtain ⟨m, rfl⟩ : ∃ m, n = m + 1 := ⟨n - 1, by simp at hn; omega⟩
    simp only [walkChain, List.foldlM_cons]
    cases h : body st p with
    | error e => rfl
    | ok st' =>
      have hst' := (hb _ _ _ h).next.trans hst
      simp only [except_ok_bind, hst']
      exact ih hst' (by simpa using hn)

/-- The bucket loop over a well-formed table visits the linked records, bucket by
bucket. -/
theorem walkBuckets_eq (hb : KeepsLinks tbl body) :
    ∀ (hvs : List Nat) {st : σ}, TableInv H (tbl st) B → (∀ h ∈ hvs, h < H.size) →
      walkBuckets tbl body hvs st = (hvs.flatMap B).foldlM body st
  | [], _, _, _ => rfl
  | hv :: hvs, st, hi, hh => by
    have hlt := hh hv (List.mem_cons_self _ _)
    simp only [walkBuckets, List.flatMap_cons, List.foldlM_append,
      walkChain_eq hb (hi.chain hv hlt) rfl (hi.length_lt_fuel hlt).le]
    cases h : (B hv).foldlM body st with
    | error e => rfl
    | ok st' =>
      exact walkBuckets_eq hb hvs ((foldlM_linksKept hb h).inv hi)
        fun k hk => hh k (List.mem_cons_of_mem _ hk)

/-- Walking every bucket of a well-formed table visits its records in bucket order. -/
theorem walkBuckets_range (hb : KeepsLinks tbl body) {st : σ} (hi : TableInv H (tbl st) B) :
    walkBuckets tbl body (List.range H.size) st = (tableRecords H B).foldlM body st :=
  walkBuckets_eq hb _ hi fun _ hk => List.mem_range.mp hk

end Walk

/-- A fold whose body never faults is a plain fold. -/
theorem foldlM_ok {α : Type} (f : α → Ptr → α) (l : List Ptr) (a : α) :
    l.foldlM (fun a p => (.ok (f a p) : Except Fault α)) a = .ok (l.foldl f a) := by
  induction l generalizing a with
  | nil => rfl
  | cons p l ih => exact ih (f a p)

/-- Every fault the computation `r` can end with satisfies `P`. -/
def FaultsIn {α : Type} (P : Fault → Prop) (r : Except Fault α) : Prop :=
  ∀ e, r = .error e → P e

namespace FaultsIn

variable {α β : Type} {P Q : Fault → Prop}

/-- A value has no fault. -/
theorem ok (a : α) : FaultsIn P (.ok a) := fun _ h => by cases h

/-- A fault satisfying `P`. -/
theorem error {e : Fault} (h : P e) : FaultsIn P (.error e : Except Fault α) :=
  fun _ h' => by cases h'; exact h

/-- The faults of a bind are those of its stages. -/
theorem bind {r : Except Fault α} {f : α → Except Fault β} (h : FaultsIn P r)
    (hf : ∀ a, r = .ok a → FaultsIn P (f a)) : FaultsIn P (r >>= f) := by
  cases r with
  | error e => exact error (h e rfl)
  | ok a => exact hf a rfl

/-- Faults in `P` are faults in any weaker `Q`. -/
theorem mono {r : Except Fault α} (h : FaultsIn P r) (hPQ : ∀ e, P e → Q e) : FaultsIn Q r :=
  fun e he => hPQ e (h e he)

/-- A fold faults only as its body does. -/
theorem foldlM {body : α → Ptr → Except Fault α} (hb : ∀ st p, FaultsIn P (body st p)) :
    ∀ (l : List Ptr) (st : α), FaultsIn P (l.foldlM body st)
  | [], _ => ok _
  | p :: l, st => (hb st p).bind fun st' _ => foldlM hb l st'

end FaultsIn

section Stop

variable {os : OsView} {self : Nat} {s : ThreadTable} {p q : Ptr} {H : TableHash}
  {B : Nat → List Ptr}

/-- A record the scan loop would push is the caller's, blocked in `GC_do_blocking`, or
suspended. -/
def Stopped (self : Nat) (r : ThreadRep) : Prop :=
  pushWanted r = true → r.id = self ∨ r.doBlocking = true ∨ r.isSuspended = true

/-- One iteration of the stop loop keeps the links. -/
theorem suspendIfWanted_linksKept : LinksKept s (suspendIfWanted os self s p) := by
  unfold suspendIfWanted gcSuspend
  split
  · split <;> exact .updateRep _ _ fun _ => rfl
  · exact .refl _

/-- One iteration of the stop loop changes only the visited record. -/
theorem suspendIfWanted_rep_ne (h : q ≠ p) : (suspendIfWanted os self s p).rep q = s.rep q := by
  unfold suspendIfWanted gcSuspend
  split
  · split <;> exact updateRep_rep_ne _ _ h
  · rfl

/-- One iteration of the stop loop leaves its record stopped. -/
theorem suspendIfWanted_stopped : Stopped self ((suspendIfWanted os self s p).rep p) := by
  unfold suspendIfWanted gcSuspend Stopped
  split
  · split <;> simp [pushWanted]
  · next hw =>
    intro hp
    by_cases hid : (s.rep p).id = self
    · exact .inl hid
    · simp_all [suspendWanted, pushWanted, ThreadRep.knownFinished]

/-- The stop loop does not touch the caller's own records. -/
theorem suspendIfWanted_of_id (h : (s.rep p).id = self) : suspendIfWanted os self s p = s := by
  simp [suspendIfWanted, suspendWanted, h]

/-- The stop loop keeps the links. -/
theorem stopFold_linksKept (l : List Ptr) (s : ThreadTable) :
    LinksKept s (l.foldl (suspendIfWanted os self) s) := by
  induction l generalizing s with
  | nil => exact .refl _
  | cons p l ih => exact suspendIfWanted_linksKept.trans (ih _)

/-- The stop loop leaves the records it does not visit. -/
theorem stopFold_rep_of_not_mem {l : List Ptr} (hq : q ∉ l) (s : ThreadTable) :
    (l.foldl (suspendIfWanted os self) s).rep q = s.rep q := by
  induction l generalizing s with
  | nil => rfl
  | cons p l ih =>
    simp only [List.mem_cons, not_or] at hq
    rw [List.foldl_cons, ih hq.2, suspendIfWanted_rep_ne hq.1]

/-- The stop loop leaves the caller's record. -/
theorem stopFold_rep_of_id (l : List Ptr) {s : ThreadTable} (h : (s.rep q).id = self) :
    (l.foldl (suspendIfWanted os self) s).rep q = s.rep q := by
  induction l generalizing s with
  | nil => rfl
  | cons p l ih =>
    rw [List.foldl_cons]
    by_cases hpq : q = p
    · subst hpq; rw [suspendIfWanted_of_id h]; exact ih h
    · rw [ih (by rwa [suspendIfWanted_rep_ne hpq]), suspendIfWanted_rep_ne hpq]

/-- After the stop loop every record it visited is stopped. -/
theorem stopFold_stopped {l : List Ptr} (hl : l.Nodup) (s : ThreadTable) :
    ∀ p ∈ l, Stopped self ((l.foldl (suspendIfWanted os self) s).rep p) := by
  induction l generalizing s with
  | nil => intro _ h; cases h
  | cons p l ih =>
    obtain ⟨hp, hl⟩ := List.nodup_cons.mp hl
    intro q hq
    rw [List.foldl_cons]
    rcases List.mem_cons.mp hq with rfl | hq
    · rw [stopFold_rep_of_not_mem hp]; exact suspendIfWanted_stopped
    · exact ih hl _ q hq

/-- `GC_stop_world` over a well-formed table runs the stop loop once over every
linked record. -/
theorem gcStopWorld_eq (hi : TableInv H s B) :
    gcStopWorld H os self s = .ok ((tableRecords H B).foldl (suspendIfWanted os self) s) := by
  rw [gcStopWorld, walkBuckets_range (fun _ _ _ h => by cases h; exact suspendIfWanted_linksKept) hi,
    foldlM_ok]

end Stop

section Push

variable {a : Bool} {os : OsView} {self approxSp : Nat} {mem : List MemRegion} {c : QueryCache}
  {t : ThreadRep} {st st' : PushState} {p q : Ptr}

/-- The walk of `GC_get_stack_min` can only run out of fuel. -/
theorem stackMinLoop_faults (n : Nat) (c : QueryCache) :
    FaultsIn (· = .diverged) (stackMinLoop mem n c) := by
  induction n generalizing c with
  | zero => exact .error rfl
  | succ n ih =>
    simp only [stackMinLoop]
    split
    · exact ih _
    · exact .ok _

/-- `GC_get_stack_min` can only run out of fuel. -/
theorem gcGetStackMin_faults (s : Nat) (c : QueryCache) :
    FaultsIn (· = .diverged) (gcGetStackMin mem s c) :=
  stackMinLoop_faults _ _

/-- Computing a thread's stack minimum can only run out of fuel. -/
theorem stackMinFor_faults (sp : Nat) (isSelf : Bool) :
    FaultsIn (· = .diverged) (stackMinFor mem t sp isSelf c) := by
  have hg : ∀ s c, FaultsIn (· = .diverged)
      (do let y ← gcGetStackMin mem s c; pure (y.1, y.1, y.2) : Except Fault (Nat × Nat × QueryCache)) :=
    fun s c => (gcGetStackMin_faults s c).bind fun _ _ => .ok _
  unfold stackMinFor mayBeInStack
  dsimp only
  by_cases hl : t.lastStackMin = addrLimit
  · rw [if_pos hl]; exact hg _ _
  rw [if_neg hl]
  generalize (if (decide (t.tracedStackSect ≠ 0) && decide (t.lastStackMin > t.tracedStackSect)) = true
    then t.tracedStackSect else t.lastStackMin) = lsm
  split
  · exact .ok _
  generalize c.query mem _ = c
  split
  · split
    · exact hg _ _
    · exact .ok _
  · exact hg _ _

/-- The stack minimum check fails only by running out of fuel or at the assertion of line 1637. -/
theorem checkStackMin_faults (sp stackMin : Nat) :
    FaultsIn (fun e => e = .diverged ∨ e = .assertFailed 1637)
      (checkStackMin a mem t sp stackMin c) := by
  unfold checkStackMin
  split
  · exact .ok _
  refine ((gcGetStackMin_faults _ _).mono fun _ => .inl).bind fun ⟨_, _⟩ _ => ?_
  dsimp only
  split
  · exact .ok _
  split
  · refine ((gcGetStackMin_faults _ _).mono fun _ => .inl).bind fun ⟨_, _⟩ _ => ?_
    dsimp only
    split
    · exact .ok _
    · exact .error (.inr rfl)
  · exact .error (.inr rfl)

/-- The `GC_ASSERT` at line 1524 fails only on a running thread's record. -/
theorem stackPointerFor_faults :
    FaultsIn (fun e => e = .assertFailed 1480 ∨ e = .abort "GetThreadContext failed" ∨
      (e = .assertFailed 1524 ∧ t.id ≠ self ∧ t.doBlocking = false ∧ t.isSuspended = false))
      (stackPointerFor a os self approxSp t) := by
  unfold stackPointerFor
  split
  · split
    · exact .error (.inl rfl)
    · exact .ok _
  · split
    · exact .ok _
    · split
      · exact .error (.inr (.inl rfl))
      · split
        · next hid hb _ _ _ hs => exact .error (.inr (.inr ⟨rfl, hid, by simpa using hb, by simp_all⟩))
        · exact .ok _

/-- The stack pointer is the caller's own exactly when the record's id is the caller's. -/
theorem stackPointerFor_ok {sp : Nat} {isSelf : Bool}
    (h : stackPointerFor a os self approxSp t = .ok (sp, isSelf)) : isSelf = decide (t.id = self) := by
  unfold stackPointerFor at h
  split at h
  · next hid => split at h <;> cases h; simp [hid]
  · next hid =>
    split at h
    · cases h; simp [hid]
    · split at h
      · cases h
      · split at h <;> cases h; simp [hid]

/-- What `GC_push_stack_for` can end with. -/
def PushFault (self : Nat) (t : ThreadRep) (e : Fault) : Prop :=
  e = .assertFailed 1480 ∨ e = .abort "GetThreadContext failed" ∨
    (e = .assertFailed 1524 ∧ t.id ≠ self ∧ t.doBlocking = false ∧ t.isSuspended = false) ∨
    e = .diverged ∨ e = .assertFailed 1637

/-- `GC_push_stack_for` ends only with the faults `PushFault` lists. -/
theorem gcPushStackFor_faults :
    FaultsIn (PushFault self (st.table.rep p)) (gcPushStackFor a os self approxSp st p) := by
  unfold gcPushStackFor PushFault
  refine (stackPointerFor_faults.mono fun e he => ?_).bind fun _ _ => ?_
  · rcases he with h | h | h
    · exact .inl h
    · exact .inr (.inl h)
    · exact .inr (.inr (.inl h))
  refine ((stackMinFor_faults _ _).mono fun e he => .inr (.inr (.inr (.inl he)))).bind fun _ _ => ?_
  refine ((checkStackMin_faults _ _).mono fun e he => ?_).bind fun _ _ => .ok _
  rcases he with h | h
  · exact .inr (.inr (.inr (.inl h)))
  · exact .inr (.inr (.inr (.inr h)))

/-- One call of `GC_push_stack_for` changes `last_stack_min` of its record only, and
sets `found_me` exactly when the record carries the caller's id. -/
theorem gcPushStackFor_ok (h : gcPushStackFor a os self approxSp st p = .ok st') :
    (∃ lsm, st'.table = st.table.setRep p { st.table.rep p with lastStackMin := lsm }) ∧
      st'.foundMe = (st.foundMe || decide ((st.table.rep p).id = self)) := by
  unfold gcPushStackFor at h
  obtain ⟨⟨sp, isSelf⟩, h₁, h⟩ := except_bind_eq_ok.mp h
  obtain ⟨⟨m, lsm, c⟩, -, h⟩ := except_bind_eq_ok.mp h
  obtain ⟨c', -, h⟩ := except_bind_eq_ok.mp h
  cases h
  exact ⟨⟨lsm, rfl⟩, by rw [stackPointerFor_ok h₁]⟩

/-- One iteration of the scan loop changes `last_stack_min` of its record only, keeps
`found_me`, and sets it on a record of the caller that it pushes. -/
theorem pushIfWanted_ok (h : pushIfWanted a os self approxSp st p = .ok st') :
    LinksKept st.table st'.table ∧ (∀ q ≠ p, st'.table.rep q = st.table.rep q) ∧
      (st.foundMe = true → st'.foundMe = true) ∧
      ((st.table.rep p).id = self → pushWanted (st.table.rep p) = true → st'.foundMe = true) := by
  unfold pushIfWanted at h
  split at h
  · obtain ⟨⟨lsm, ht⟩, hf⟩ := gcPushStackFor_ok h
    rw [ht, hf]
    exact ⟨.setRep rfl, fun q hq => by simp [Function.update_noteq hq], by simp_all, by simp_all⟩
  · next hw => cases h; exact ⟨.refl _, fun _ _ => rfl, id, fun _ h => absurd h hw⟩

/-- The body of the push loop keeps the links. -/
theorem pushIfWanted_keepsLinks : KeepsLinks PushState.table (pushIfWanted a os self approxSp) :=
  fun _ _ _ h => (pushIfWanted_ok h).1

/-- A fault of `GC_push_stack_for` on a stopped record it is handed is neither the
failed assertion at line 1524 nor the unknown-thread abort. -/
theorem PushFault.of_stopped (hs : Stopped self t) (hw : pushWanted t = true)
    {e : Fault} (he : PushFault self t e) :
    e ≠ .assertFailed 1524 ∧ e ≠ .abort "Collecting from unknown thread" := by
  rcases he with rfl | rfl | ⟨rfl, hid, hb, hsus⟩ | rfl | rfl
  · simp
  · simp
  · rcases hs hw with h | h | h <;> simp_all
  · simp
  · simp

/-- Over stopped records, the push loop never fails the assertion of line 1524 and never aborts with
"Collecting from unknown thread". -/
theorem pushFold_faults : ∀ {l : List Ptr} {st : PushState}, l.Nodup →
    (∀ q ∈ l, Stopped self (st.table.rep q)) →
    FaultsIn (fun e => e ≠ .assertFailed 1524 ∧ e ≠ .abort "Collecting from unknown thread")
      (l.foldlM (pushIfWanted a os self approxSp) st)
  | [], _, _, _ => .ok _
  | p :: l, st, hl, hs => by
    obtain ⟨hp, hl⟩ := List.nodup_cons.mp hl
    refine FaultsIn.bind ?_ fun st' h => pushFold_faults hl fun q hq => ?_
    · unfold pushIfWanted
      split
      · next hw =>
        exact gcPushStackFor_faults.mono fun _ => PushFault.of_stopped (hs p (List.mem_cons_self _ _)) hw
      · exact .ok _
    · rw [(pushIfWanted_ok h).2.1 q (by rintro rfl; exact hp hq)]
      exact hs q (List.mem_cons_of_mem _ hq)

/-- The scan loop sets `found_me` once it has pushed a record of the caller. -/
theorem pushFold_foundMe : ∀ {l : List Ptr} {st st' : PushState}, l.Nodup →
    l.foldlM (pushIfWanted a os self approxSp) st = .ok st' →
    (st.foundMe = true ∨ ∃ q ∈ l, (st.table.rep q).id = self ∧ pushWanted (st.table.rep q) = true) →
    st'.foundMe = true
  | [], _, _, _, h, hq => by cases h; simpa using hq
  | p :: l, st, st', hl, h, hq => by
    obtain ⟨hp, hl⟩ := List.nodup_cons.mp hl
    obtain ⟨st₁, h₁, h⟩ := except_bind_eq_ok.mp h
    obtain ⟨-, hne, hmono, hself⟩ := pushIfWanted_ok h₁
    refine pushFold_foundMe hl h ?_
    rcases hq with hf | ⟨q, hq, hid, hw⟩
    · exact .inl (hmono hf)
    · rcases List.mem_cons.mp hq with rfl | hql
      · exact .inl (hself hid hw)
      · rw [← hne q (by rintro rfl; exact hp hql)] at hid hw
        exact .inr ⟨q, hql, hid, hw⟩

/-- `GC_push_all_stacks` keeps the links. -/
theorem gcPushAllStacks_linksKept {H : TableHash} {B : Nat → List Ptr} {itc : Bool}
    (hi : TableInv H st.table B) (h : gcPushAllStacks H a os self approxSp itc st = .ok st') :
    LinksKept st.table st'.table := by
  rw [gcPushAllStacks, walkBuckets_range pushIfWanted_keepsLinks hi] at h
  obtain ⟨st₁, h₁, h⟩ := except_bind_eq_ok.mp h
  split at h
  · cases h
  · cases h; exact foldlM_linksKept pushIfWanted_keepsLinks h₁

end Push

section Start

variable {a : Bool} {self : Nat} {s s' : ThreadTable} {p : Ptr} {H : TableHash}
  {B : Nat → List Ptr}

/-- One iteration of the restart loop keeps the links. -/
theorem resumeIfSuspended_linksKept (h : resumeIfSuspended a self s p = .ok s') : LinksKept s s' := by
  unfold resumeIfSuspended at h
  split at h
  · split at h
    · cases h
    · cases h; exact .updateRep _ _ fun _ => rfl
  · cases h; exact .refl _

/-- The body of the restart loop keeps the links. -/
theorem resumeIfSuspended_keepsLinks : KeepsLinks id (resumeIfSuspended a self) :=
  fun _ _ _ h => resumeIfSuspended_linksKept h

/-- One iteration of the restart loop fails only at the assertion of line 1333. -/
theorem resumeIfSuspended_faults : FaultsIn (· = .assertFailed 1333) (resumeIfSuspended a self s p) := by
  unfold resumeIfSuspended
  repeat' first | exact .ok _ | exact .error rfl | split

/-- `GC_start_world` over a well-formed table can fail only its assertion. -/
theorem gcStartWorld_faults (hi : TableInv H s B) :
    FaultsIn (· = .assertFailed 1333) (gcStartWorld H a self s) := by
  rw [gcStartWorld, walkBuckets_range resumeIfSuspended_keepsLinks hi]
  exact .foldlM (fun _ _ => resumeIfSuspended_faults) _ _

/-- `GC_start_world` keeps the links. -/
theorem gcStartWorld_linksKept (hi : TableInv H s B) (h : gcStartWorld H a self s = .ok s') :
    LinksKept s s' := by
  rw [gcStartWorld, walkBuckets_range resumeIfSuspended_keepsLinks hi] at h
  exact foldlM_linksKept resumeIfSuspended_keepsLinks h

end Start

section Collect

variable {a : Bool} {os : OsView} {self approxSp : Nat} {s : ThreadTable} {c : QueryCache}
  {st : PushState} {H : TableHash} {B : Nat → List Ptr}

/-- A collection keeps the links. -/
theorem gcCollect_linksKept (hi : TableInv H s B)
    (h : gcCollect H a os self approxSp s c = .ok st) : LinksKept s st.table := by
  simp only [gcCollect, gcStopWorld_eq hi, except_ok_bind] at h
  have k₀ : LinksKept s ((tableRecords H B).foldl (suspendIfWanted os self) s) :=
    stopFold_linksKept _ _
  obtain ⟨st₁, h₁, h⟩ := except_bind_eq_ok.mp h
  obtain ⟨s₂, h₂, h⟩ := except_bind_eq_ok.mp h
  cases h
  have k₁ := gcPushAllStacks_linksKept (k₀.inv hi) h₁
  exact k₀.trans (k₁.trans (gcStartWorld_linksKept ((k₀.trans k₁).inv hi) h₂))

/-- A collection never fails the assertion at line 1524, and one by a caller that has a
pushable record never aborts with "Collecting from unknown thread". -/
theorem gcCollect_faults (hi : TableInv H s B) :
    FaultsIn (fun e => e ≠ .assertFailed 1524 ∧
      ((∃ p ∈ tableRecords H B, (s.rep p).id = self ∧ pushWanted (s.rep p) = true) →
        e ≠ .abort "Collecting from unknown thread"))
      (gcCollect H a os self approxSp s c) := by
  have k₀ : LinksKept s ((tableRecords H B).foldl (suspendIfWanted os self) s) :=
    stopFold_linksKept _ _
  have hstop : ∀ p ∈ tableRecords H B,
      Stopped self (((tableRecords H B).foldl (suspendIfWanted os self) s).rep p) :=
    stopFold_stopped hi.nodup s
  simp only [gcCollect, gcStopWorld_eq hi, except_ok_bind]
  refine FaultsIn.bind ?_ fun st hst => FaultsIn.bind
    ((gcStartWorld_faults ((k₀.trans (gcPushAllStacks_linksKept (k₀.inv hi) hst)).inv hi)).mono
      fun e he => by subst he; simp) fun _ _ => .ok _
  rw [gcPushAllStacks, walkBuckets_range pushIfWanted_keepsLinks (k₀.inv hi)]
  refine FaultsIn.bind ((pushFold_faults hi.nodup hstop).mono fun e he => ⟨he.1, fun _ => he.2⟩)
    fun st₂ h₂ => ?_
  split
  · next hnf =>
    refine .error ⟨by simp, fun ⟨p, hp, hid, hw⟩ => absurd (pushFold_foundMe hi.nodup h₂ (.inr ?_)) ?_⟩
    · exact ⟨p, hp, by rwa [stopFold_rep_of_id _ hid], by rwa [stopFold_rep_of_id _ hid]⟩
    · simp_all
  · exact .ok _

end Collect

section System

variable {H : TableHash} {a : Bool} {sys sys' : GcSystem} {B : Nat → List Ptr}

/-- A lifecycle event that happens runs the lifecycle step on the runtime. -/
theorem sysStep_life_ok {e : LifeEvent} (h : sysStep H a sys (.life e) = some (.ok sys')) :
    ∃ rt', lifeStep H sys.rt e = some (.ok rt') ∧ sys' = { sys with rt := rt' } := by
  obtain ⟨r, h₁, h₂⟩ := Option.map_eq_some'.mp h
  obtain ⟨rt', rfl, rfl⟩ := except_map_eq_ok.mp h₂
  exact ⟨rt', h₁, rfl⟩

/-- A collection that happens is `GC_collect` in the event's thread, on the table and the
`VirtualQuery` cache, with what it pushed appended. -/
theorem sysStep_collect {t approxSp : Nat} {os : OsView} {r : Except Fault GcSystem}
    (h : sysStep H a sys (.collect t approxSp os) = some r) :
    ∃ th, sys.rt.thread? t = some th ∧
      r = (gcCollect H a os th.win32Id approxSp sys.rt.table sys.cache).map fun st =>
        ⟨sys.rt.setTable st.table, st.cache, sys.pushed ++ st.pushed⟩ := by
  simp only [sysStep, Option.bind_eq_bind, Option.bind_eq_some] at h
  obtain ⟨th, hth, h⟩ := h
  split at h
  · cases h
  · exact ⟨th, hth, (Option.some.inj h).symm⟩

/-- Every step of the system keeps the table well formed. -/
theorem sysStep_tableInv {e : SysEvent} (hi : TableInv H sys.rt.table B)
    (h : sysStep H a sys e = some (.ok sys')) : ∃ B', TableInv H sys'.rt.table B' := by
  cases e with
  | life e =>
    obtain ⟨rt', h₁, rfl⟩ := sysStep_life_ok h
    exact (lifeStep_tableSteps h₁).inv hi
  | collect t approxSp os =>
    obtain ⟨th, -, hr⟩ := sysStep_collect h
    obtain ⟨st, hc, rfl⟩ := except_map_eq_ok.mp hr.symm
    exact ⟨B, (gcCollect_linksKept hi hc).inv hi⟩

/-- Every table reached by lifecycle calls and collections is well formed. -/
theorem SysReachable.tableInv (hr : SysReachable H a sys) : ∃ B, TableInv H sys.rt.table B := by
  induction hr with
  | start => exact ⟨_, tableInv_init⟩
  | step _ he ih =>
    obtain ⟨B, hi⟩ := ih
    exact sysStep_tableInv hi he

/-- A run from a reachable system ends in a reachable system. -/
theorem sysRun_reachable (hr : SysReachable H a sys) (es : List SysEvent)
    (h : sysRun H a sys es = some (.ok sys')) : SysReachable H a sys' := by
  induction es generalizing sys with
  | nil => cases h; exact hr
  | cons e es ih =>
    simp only [sysRun] at h
    split at h
    · exact ih (hr.step ‹_›) h
    · next hne => exact (hne _ h).elim

end System

section Agreement

variable (H : TableHash) (assertions : Bool) in
/-- The skip tests of `GC_stop_world` and `GC_push_all_stacks` agree on the table `s`:
after the stop loop, every linked record the scan loop pushes (not `FINISHED`,
`stack_end` set) carries the caller's id, has `DO_BLOCKING`, or has `IS_SUSPENDED`, so
the collection never fails the `GC_ASSERT` at line 1524; and when the caller has such a
record, `found_me` is set and the collection never aborts with "Collecting from
unknown thread". -/
def SkipTestsAgree (s : ThreadTable) (c : QueryCache) : Prop :=
  ∃ B, TableInv H s B ∧ ∀ (os : OsView) (self approxSp : Nat),
    (∃ s₁, gcStopWorld H os self s = .ok s₁ ∧
      ∀ p ∈ tableRecords H B, pushWanted (s₁.rep p) = true →
        (s₁.rep p).id = self ∨ (s₁.rep p).doBlocking = true ∨ (s₁.rep p).isSuspended = true) ∧
    gcCollect H assertions os self approxSp s c ≠ .error (.assertFailed 1524) ∧
    ((∃ p ∈ tableRecords H B, (s.rep p).id = self ∧ pushWanted (s.rep p) = true) →
      gcCollect H assertions os self approxSp s c ≠ .error (.abort "Collecting from unknown thread"))

/-- In every state reached by lifecycle calls and collections, the stop and scan
loops agree. -/
theorem stopWorld_pushAllStacks_agree {sys : GcSystem} (hr : SysReachable H a sys) :
    SkipTestsAgree H a sys.rt.table sys.cache := by
  obtain ⟨B, hi⟩ := hr.tableInv
  refine ⟨B, hi, fun os self approxSp => ⟨⟨_, gcStopWorld_eq hi, stopFold_stopped hi.nodup _⟩,
    fun he => ?_, fun hq he => ?_⟩⟩
  · exact (gcCollect_faults hi _ he).1 rfl
  · exact (gcCollect_faults hi _ he).2 hq rfl

end Agreement

section Runs

/-- The OS at the first collection: no thread has exited; the main thread's stack lies
below `0x10000` and thread 1's below `0x40000`. -/
def firstScanOs : OsView :=
  ⟨fun _ => false, fun h => if h = 12 then some 0x3F800 else none,
    [⟨0xF000, 0x10000, true⟩, ⟨0x3F000, 0x40000, true⟩]⟩

/-- The main thread creates the joinable thread 1 (Win32 id 2, `pthread_t` 101, stack below
`0x40000`) and collects while it runs; thread 1 returns from its start routine and
terminates unjoined, so its record stays linked and `FINISHED`. -/
def scanJoinableRun : List SysEvent :=
  [.life (.thrInit (some 11)), .life (.pthreadCreate 0 2 101 0x40000 false),
    .life (.startInner 1 (some 12) (some 2)), .collect 0 0xF800 firstScanOs,
    .life (.exitProc 1), .life (.terminate 1)]

set_option maxRecDepth 4000 in
/-- After `scanJoinableRun`, whose table holds a `FINISHED` record. -/
theorem stopWorld_pushAllStacks_agree_finished :
    ∃ sys, sysRun lowByteHash false ⟨Runtime.start mainThread, .init, []⟩ scanJoinableRun =
      some (.ok sys) ∧ SkipTestsAgree lowByteHash false sys.rt.table sys.cache :=
  ⟨_, rfl, stopWorld_pushAllStacks_agree (sysRun_reachable (.start mainThread) scanJoinableRun rfl)⟩

/-- The main thread allows registrations and collects, which caches the minimum `0xF000`
of its stack; it unregisters, so its record is `FINISHED`, and registers again with the
base `0x30000` of another stack. -/
def staleMinRun : List SysEvent :=
  [.life (.thrInit (some 11)), .life (.allowRegister 0), .collect 0 0xF800 firstScanOs,
    .life (.unregister 0), .life (.register 0 0x30000 none none)]

set_option maxRecDepth 4000 in
/-- Re-registration through the `FINISHED` branch keeps `last_stack_min`: the main thread's
record, found by its id and no longer `FINISHED`, has `stack_end = 0x30000` but still the
minimum `0xF000` of the stack it left. -/
theorem finishedReuse_keeps_stale_stackMin (a : Bool) :
    ∃ sys, sysRun lowByteHash a ⟨Runtime.start mainThread, .init, []⟩ staleMinRun =
        some (.ok sys) ∧
      gcLookupThread lowByteHash sys.rt.table 1 = .ok (some firstThread) ∧
      (sys.rt.table.rep firstThread).finished = false ∧
      (sys.rt.table.rep firstThread).stackEnd = 0x30000 ∧
      (sys.rt.table.rep firstThread).lastStackMin = 0xF000 := by
  cases a <;> exact ⟨_, rfl, rfl, rfl, rfl, rfl⟩

end Runs

end Win32GcThreads
