import Win32GcThreads.ThreadHashTable

/-!
# Blocking brackets of one thread

`GC_do_blocking_inner` marks the caller's record `DO_BLOCKING` and saves an approximate
stack pointer around its call of `fn`; `GC_call_with_gc_active`, called from such an `fn`,
clears the flag and links its `struct GC_traced_stack_sect_s` into `traced_stack_sect`. A
step is the part of one routine before or after its call of `fn`, and a `BlockCall` is a
call with the calls of its `fn`. Over the well-nested runs that enter `GC_do_blocking_inner`
without `DO_BLOCKING`, every call returns with the flag and the section of its entry; its
`stack_ptr` is restored when it linked a section, is its `d` for `GC_do_blocking_inner`, and
is otherwise what the calls of its `fn` left. The sections form a chain towards `stack_end`
while the frames lie below it.
-/

namespace Win32GcThreads

section Routines

/-- `GC_do_blocking_inner` up to its call of `fn`, on the caller's record, with its
argument `d` at address `d`. -/
def gcDoBlockingInnerEnter (me : ThreadRep) (d : Nat) : Except Fault ThreadRep :=
  if me.doBlocking then .error (.assertFailed 776)
  else .ok { me with stackPtr := d, doBlocking := true }

/-- The rest of `GC_do_blocking_inner` once `fn` returned. -/
def gcDoBlockingInnerLeave (me : ThreadRep) : ThreadRep := { me with doBlocking := false }

/-- `GC_call_with_gc_active` up to its call of `fn`, with `stacksect` at address `a`: the
record, and `stacksect.saved_stack_ptr` and `stacksect.prev` when it linked a section. -/
def gcCallWithGcActiveEnter (me : ThreadRep) (a : Nat) :
    Except Fault (ThreadRep × Option (Nat × Nat)) :=
  if me.stackEnd = 0 then .error (.assertFailed 807) else
  let me := if me.stackEnd < a then { me with stackEnd := a } else me
  if !me.doBlocking then .ok (me, none)
  else .ok ({ me with doBlocking := false, tracedStackSect := a },
    some (me.stackPtr, me.tracedStackSect))

/-- The rest of `GC_call_with_gc_active` once `fn` returned. -/
def gcCallWithGcActiveLeave (me : ThreadRep) (a : Nat) :
    Option (Nat × Nat) → Except Fault ThreadRep
  | none => .ok me
  | some (saved, prev) =>
    if me.doBlocking then .error (.assertFailed 839)
    else if me.tracedStackSect ≠ a then .error (.assertFailed 840)
    else .ok { me with tracedStackSect := prev, doBlocking := true, stackPtr := saved }

end Routines

section Brackets

/-- An open call of the thread. `entry` is the record when the call began: the code keeps no
copy of it, and it is here to state what the call restores. -/
inductive BlockFrame where
  /-- `GC_do_blocking_inner`, its `d` at address `d`. -/
  | blocking (d : Nat) (entry : ThreadRep)
  /-- `GC_call_with_gc_active`, its `stacksect` at address `a`, holding `saved_stack_ptr` and
  `prev` when the call linked it. -/
  | active (a : Nat) (sect : Option (Nat × Nat)) (entry : ThreadRep)
  deriving DecidableEq, Repr

/-- The address of a frame. -/
def BlockFrame.addr : BlockFrame → Nat
  | .blocking d _ => d
  | .active a _ _ => a

/-- The record when the call began. -/
def BlockFrame.entry : BlockFrame → ThreadRep
  | .blocking _ e => e
  | .active _ _ e => e

/-- The thread's record and its open calls. -/
structure BlockState where
  /-- The thread's record. -/
  me : ThreadRep
  /-- The open calls, innermost first. -/
  frames : List BlockFrame
  /-- The frame of the code that makes the outermost call. -/
  base : Nat
  deriving DecidableEq, Repr

/-- The frame the next call is made from. -/
def callerOf (base : Nat) : List BlockFrame → Nat
  | [] => base
  | f :: _ => f.addr

/-- The stack memory holding the linked `stacksect`s, as the collector reads it. -/
def sectAt : List BlockFrame → Nat → Option (Nat × Nat)
  | [], _ => none
  | .active a (some v) _ :: fs, x => if x = a then some v else sectAt fs x
  | _ :: fs, x => sectAt fs x

/-- The sections from `p` on, as the collector follows `prev` from `traced_stack_sect`: each
lies below its `saved_stack_ptr`, which lies at or below the next section, or at or below
`stack_end` for the last. -/
inductive SectChain (mem : Nat → Option (Nat × Nat)) (stackEnd : Nat) : Nat → Prop
  | null : SectChain mem stackEnd 0
  | cons {a saved prev : Nat} : mem a = some (saved, prev) → a < saved →
      saved ≤ (if prev = 0 then stackEnd else prev) → SectChain mem stackEnd prev →
      SectChain mem stackEnd a

/-- The part of one routine before or after its call of `fn`. -/
inductive BlockEvent where
  /-- `GC_do_blocking_inner`, its `d` at address `d`. -/
  | enterBlocking (d : Nat)
  /-- `fn` returned to the innermost `GC_do_blocking_inner`. -/
  | leaveBlocking
  /-- `GC_call_with_gc_active`, its `stacksect` at address `a`. -/
  | enterActive (a : Nat)
  /-- `fn` returned to the innermost `GC_call_with_gc_active`. -/
  | leaveActive
  deriving DecidableEq, Repr

/-- One step; `none` for an event that does not nest: a return to a call that is not the
innermost, or a frame not below its caller's. -/
def blockStep (s : BlockState) : BlockEvent → Option (Except Fault BlockState)
  | .enterBlocking d =>
    if d < callerOf s.base s.frames then
      some ((gcDoBlockingInnerEnter s.me d).map fun me =>
        { s with me := me, frames := .blocking d s.me :: s.frames })
    else none
  | .leaveBlocking =>
    match s.frames with
    | .blocking _ _ :: fs => some (.ok { s with me := gcDoBlockingInnerLeave s.me, frames := fs })
    | _ => none
  | .enterActive a =>
    if a < callerOf s.base s.frames then
      some ((gcCallWithGcActiveEnter s.me a).map fun r =>
        { s with me := r.1, frames := .active a r.2 s.me :: s.frames })
    else none
  | .leaveActive =>
    match s.frames with
    | .active a sect _ :: fs =>
      some ((gcCallWithGcActiveLeave s.me a sect).map fun me => { s with me := me, frames := fs })
    | _ => none

/-- Run events in order, stopping at the first fault. -/
def blockRun (s : BlockState) : List BlockEvent → Option (Except Fault BlockState)
  | [] => some (.ok s)
  | e :: es =>
    match blockStep s e with
    | some (.ok s') => blockRun s' es
    | r => r

/-- A registered thread outside every bracket: `DO_BLOCKING` clear, no traced section, and
`stack_end` set. -/
structure BlockStart (me : ThreadRep) : Prop where
  flag : me.doBlocking = false
  traced : me.tracedStackSect = 0
  stackEnd : me.stackEnd ≠ 0

/-- The states of the well-nested runs that enter `GC_do_blocking_inner` only without
`DO_BLOCKING`: every step returns. -/
inductive BlockReachable : BlockState → Prop
  | start {me : ThreadRep} (base : Nat) : BlockStart me → BlockReachable ⟨me, [], base⟩
  | step {s s' : BlockState} {e : BlockEvent} : BlockReachable s → blockStep s e = some (.ok s') →
      BlockReachable s'

/-- A run from a reachable state ends in a reachable state. -/
theorem blockRun_reachable {s s' : BlockState} (hs : BlockReachable s) :
    ∀ (es : List BlockEvent), blockRun s es = some (.ok s') → BlockReachable s'
  | [], h => by cases h; exact hs
  | e :: es, h => by
    cases he : blockStep s e with
    | none => simp [blockRun, he] at h
    | some r =>
      cases r with
      | error f => simp [blockRun, he] at h
      | ok s₁ =>
        simp only [blockRun, he] at h
        exact blockRun_reachable (.step hs he) es h

end Brackets

section Invariant

/-- `DO_BLOCKING` as the open calls leave it: set inside `GC_do_blocking_inner` only. -/
def topFlag : List BlockFrame → Bool
  | .blocking _ _ :: _ => true
  | _ => false

/-- `traced_stack_sect` as the open calls leave it: the innermost linked section. -/
def innerSect : List BlockFrame → Nat
  | [] => 0
  | .active a (some _) _ :: _ => a
  | _ :: fs => innerSect fs

/-- The open calls as the routines leave them. Each frame lies below its caller's, and each
call began with the flag and the section that the calls below it leave. `GC_do_blocking_inner`,
and a `GC_call_with_gc_active` that linked nothing, were entered without `DO_BLOCKING`. A linked
section sits right inside a `GC_do_blocking_inner`, whose `d` it saved with the previous
section. -/
inductive FramesOk (base : Nat) : List BlockFrame → Prop
  | nil : FramesOk base []
  | blocking {d : Nat} {e : ThreadRep} {fs : List BlockFrame} : d < callerOf base fs →
      e.doBlocking = false → topFlag fs = false → e.tracedStackSect = innerSect fs →
      FramesOk base fs → FramesOk base (.blocking d e :: fs)
  | unlinked {a : Nat} {e : ThreadRep} {fs : List BlockFrame} : a < callerOf base fs →
      e.doBlocking = false → topFlag fs = false → e.tracedStackSect = innerSect fs →
      FramesOk base fs → FramesOk base (.active a none e :: fs)
  | linked {a d : Nat} {e e' : ThreadRep} {fs : List BlockFrame} : a < d → e.doBlocking = true →
      e.stackPtr = d → e.tracedStackSect = innerSect fs → FramesOk base (.blocking d e' :: fs) →
      FramesOk base (.active a (some (d, innerSect fs)) e :: .blocking d e' :: fs)

/-- The invariant of the well-nested runs. -/
structure BlockInv (s : BlockState) : Prop where
  flag : s.me.doBlocking = topFlag s.frames
  traced : s.me.tracedStackSect = innerSect s.frames
  /-- Inside `GC_do_blocking_inner`, `stack_ptr` is its `d`. -/
  ptr : ∀ d e fs, s.frames = .blocking d e :: fs → s.me.stackPtr = d
  stackEnd : s.me.stackEnd ≠ 0
  frames : FramesOk s.base s.frames

/-- A record as the thread starts keeps the invariant with no call open. -/
theorem BlockInv.start {me : ThreadRep} (h : BlockStart me) (base : Nat) :
    BlockInv ⟨me, [], base⟩ :=
  ⟨h.flag, h.traced, (fun _ _ _ h => nomatch h), h.stackEnd, .nil⟩

/-- `DO_BLOCKING` is set only inside a `GC_do_blocking_inner` that is the innermost open call. -/
theorem topFlag_eq_true {fs : List BlockFrame} (h : topFlag fs = true) :
    ∃ d e fs', fs = .blocking d e :: fs' := by
  rcases fs with _ | ⟨_ | _, fs'⟩
  · cases h
  · exact ⟨_, _, _, rfl⟩
  · cases h

/-- `GC_call_with_gc_active` before `fn`, on a record with `stack_end` set: `stack_end` raised
to `a` at most, and a section linked exactly when `DO_BLOCKING` is set. -/
theorem gcCallWithGcActiveEnter_ok {me : ThreadRep} {a : Nat} (h : me.stackEnd ≠ 0) :
    gcCallWithGcActiveEnter me a = .ok
      (if me.doBlocking then
        ({ me with stackEnd := Nat.max me.stackEnd a, doBlocking := false, tracedStackSect := a },
          some (me.stackPtr, me.tracedStackSect))
      else ({ me with stackEnd := Nat.max me.stackEnd a }, none)) := by
  unfold gcCallWithGcActiveEnter
  rw [if_neg h]
  obtain ⟨_, _, _, stackEnd, _, _, _, _, _, _, doBlocking, _⟩ := me
  by_cases hlt : stackEnd < a
  · cases doBlocking <;> simp [hlt, Nat.max_def, Nat.le_of_lt hlt]
  · cases doBlocking <;> simp [hlt, Nat.max_def, Nat.not_lt.mp hlt]

variable {s s' : BlockState}

/-- One step keeps the invariant. -/
theorem BlockInv.step (hi : BlockInv s) {e : BlockEvent} (h : blockStep s e = some (.ok s')) :
    BlockInv s' := by
  cases e with
  | enterBlocking d =>
    simp only [blockStep] at h
    split at h <;> rename_i hd
    · cases hb : s.me.doBlocking <;> simp only [gcDoBlockingInnerEnter, hb] at h
      · cases h
        exact ⟨rfl, hi.traced, fun _ _ _ h => by cases h; rfl, hi.stackEnd,
          .blocking hd hb (hi.flag ▸ hb) hi.traced hi.frames⟩
      · cases h
    · cases h
  | leaveBlocking =>
    simp only [blockStep] at h
    split at h
    · rename_i d e fs hfs
      cases h
      have hf := hi.frames
      rw [hfs] at hf
      cases hf with
      | blocking _ _ htop htr hfs' =>
        refine ⟨htop.symm, hi.traced.trans (by rw [hfs]; rfl), fun _ _ _ h => ?_, hi.stackEnd, hfs'⟩
        simp only at h
        simp [h, topFlag] at htop
    · cases h
  | enterActive a =>
    simp only [blockStep] at h
    split at h <;> rename_i ha
    · rw [gcCallWithGcActiveEnter_ok hi.stackEnd] at h
      have hE : Nat.max s.me.stackEnd a ≠ 0 := by have := hi.stackEnd; simp only [Nat.max_def]; split <;> omega
      cases hb : s.me.doBlocking <;> simp only [hb, Bool.false_eq_true, ↓reduceIte, Except.map] at h <;>
        cases h
      · exact ⟨rfl, hi.traced, (fun _ _ _ h => nomatch h), hE,
          .unlinked ha hb (hi.flag ▸ hb) hi.traced hi.frames⟩
      · obtain ⟨d, e', fs, hfs⟩ := topFlag_eq_true (hi.flag.symm.trans hb)
        have hp := hi.ptr d e' fs hfs
        have htr : s.me.tracedStackSect = innerSect fs := hi.traced.trans (by rw [hfs]; rfl)
        have hfr := hi.frames
        rw [hfs] at hfr ha ⊢
        rw [hp, htr]
        exact ⟨rfl, rfl, (fun _ _ _ h => nomatch h), hE, .linked ha hb hp htr hfr⟩
    · cases h
  | leaveActive =>
    simp only [blockStep] at h
    split at h
    · rename_i a sect e fs hfs
      have hf := hi.frames
      rw [hfs] at hf
      cases hf with
      | unlinked _ _ htop htr hfs' =>
        cases h
        refine ⟨hi.flag.trans (by rw [hfs, htop]; rfl), hi.traced.trans (by rw [hfs]; rfl),
          fun _ _ _ h => ?_, hi.stackEnd, hfs'⟩
        simp only at h
        simp [h, topFlag] at htop
      | linked _ _ _ _ hfs' =>
        have hb : s.me.doBlocking = false := hi.flag.trans (by rw [hfs]; rfl)
        have ht : s.me.tracedStackSect = a := hi.traced.trans (by rw [hfs]; rfl)
        simp only [gcCallWithGcActiveLeave, hb, ht, Except.map, Bool.false_eq_true, if_false,
          ne_eq, not_true_eq_false] at h
        cases h
        exact ⟨rfl, rfl, fun _ _ _ h => by cases h; rfl, hi.stackEnd, hfs'⟩
    · cases h


/-- Each `GC_do_blocking_inner` returns with `DO_BLOCKING` and `traced_stack_sect` as at its
entry. -/
theorem BlockInv.leaveBlocking (hi : BlockInv s) {d : Nat} {en : ThreadRep} {fs : List BlockFrame}
    (hfs : s.frames = .blocking d en :: fs) :
    ∃ s', blockStep s .leaveBlocking = some (.ok s') ∧ s'.frames = fs ∧
      s'.me.doBlocking = en.doBlocking ∧ s'.me.tracedStackSect = en.tracedStackSect := by
  have hf := hi.frames
  rw [hfs] at hf
  cases hf with
  | blocking _ he _ htr _ =>
    exact ⟨{ s with me := gcDoBlockingInnerLeave s.me, frames := fs }, by simp [blockStep, hfs], rfl,
      he.symm, hi.traced.trans (by rw [hfs]; exact htr.symm)⟩

/-- Each `GC_call_with_gc_active` returns with `DO_BLOCKING` and `traced_stack_sect` as at its
entry, and `stack_ptr` too when it was entered with `DO_BLOCKING` set. -/
theorem BlockInv.leaveActive (hi : BlockInv s) {a : Nat} {sect : Option (Nat × Nat)}
    {en : ThreadRep} {fs : List BlockFrame} (hfs : s.frames = .active a sect en :: fs) :
    ∃ s', blockStep s .leaveActive = some (.ok s') ∧ s'.frames = fs ∧
      s'.me.doBlocking = en.doBlocking ∧ s'.me.tracedStackSect = en.tracedStackSect ∧
      (en.doBlocking = true → s'.me.stackPtr = en.stackPtr) := by
  have hf := hi.frames
  rw [hfs] at hf
  cases hf with
  | unlinked _ he _ htr _ =>
    exact ⟨{ s with frames := fs }, by simp [blockStep, hfs, gcCallWithGcActiveLeave, Except.map], rfl,
      hi.flag.trans (by rw [hfs]; exact he.symm), hi.traced.trans (by rw [hfs]; exact htr.symm),
      by simp [he]⟩
  | @linked _ d _ _ fs' _ he hp htr _ =>
    have hb : s.me.doBlocking = false := hi.flag.trans (by rw [hfs]; rfl)
    have ht : s.me.tracedStackSect = a := hi.traced.trans (by rw [hfs]; rfl)
    refine ⟨⟨{ s.me with tracedStackSect := innerSect fs', doBlocking := true, stackPtr := d },
      _, s.base⟩, ?_, rfl, he.symm, htr.symm, fun _ => hp.symm⟩
    simp [blockStep, hfs, gcCallWithGcActiveLeave, hb, ht, Except.map]

/-- In a well-nested run the only assertion that can fail is that of `GC_do_blocking_inner`,
entered with `DO_BLOCKING` set. -/
theorem BlockInv.fault (hi : BlockInv s) {e : BlockEvent} {f : Fault}
    (h : blockStep s e = some (.error f)) : f = .assertFailed 776 ∧ s.me.doBlocking = true := by
  cases e with
  | enterBlocking d =>
    simp only [blockStep] at h
    split at h
    · cases hb : s.me.doBlocking <;> simp [gcDoBlockingInnerEnter, hb, Except.map] at h
      exact ⟨h.symm, rfl⟩
    · cases h
  | leaveBlocking =>
    simp only [blockStep] at h
    split at h <;> cases h
  | enterActive a =>
    simp only [blockStep, gcCallWithGcActiveEnter_ok hi.stackEnd, Except.map] at h
    split at h <;> cases h
  | leaveActive =>
    cases hfs : s.frames with
    | nil => simp [blockStep, hfs] at h
    | cons fr fs =>
      cases fr with
      | blocking d en => simp [blockStep, hfs] at h
      | active a sect en =>
        obtain ⟨s', h', -⟩ := hi.leaveActive hfs
        rw [h'] at h
        cases h

/-- A chain over a memory that agrees from `lb` up, with its first section from `lb` up, is a
chain over that memory. -/
theorem SectChain.mono {mem mem' : Nat → Option (Nat × Nat)} {E l p : Nat}
    (h : SectChain mem E p) (hm : ∀ x, l ≤ x → mem' x = mem x) (hp : p = 0 ∨ l ≤ p) :
    SectChain mem' E p := by
  induction h with
  | null => exact .null
  | @cons a saved prev hma hlt hle _ ih =>
    rcases hp with rfl | hp
    · exact .null
    refine .cons ((hm a hp).trans hma) hlt hle (ih ?_)
    by_cases h0 : prev = 0
    · exact .inl h0
    · rw [if_neg h0] at hle; exact .inr (by omega)

/-- The `saved_stack_ptr` of a traced section lies at or below the next section, or `stack_end` for
the last. -/
theorem SectChain.saved_le {mem : Nat → Option (Nat × Nat)} {E a saved prev : Nat}
    (h : SectChain mem E a) (ha : a ≠ 0) (hm : mem a = some (saved, prev)) :
    saved ≤ if prev = 0 then E else prev := by
  cases h with
  | null => exact absurd rfl ha
  | cons hm' _ hle _ =>
    rw [hm] at hm'
    cases hm'
    exact hle

/-- Every open call's frame lies below the outermost caller's. -/
theorem FramesOk.caller_le {base : Nat} {fs : List BlockFrame} (h : FramesOk base fs) :
    callerOf base fs ≤ base := by
  induction h with
  | nil => exact le_rfl
  | blocking hd _ _ _ _ ih => exact (Nat.lt_of_lt_of_le hd ih).le
  | unlinked ha _ _ _ _ ih => exact (Nat.lt_of_lt_of_le ha ih).le
  | linked ha _ _ _ _ ih => exact (Nat.lt_of_lt_of_le ha ih).le

/-- The innermost linked section lies at or above the innermost frame. -/
theorem FramesOk.caller_le_innerSect {base : Nat} {fs : List BlockFrame} (h : FramesOk base fs)
    (hs : innerSect fs ≠ 0) : callerOf base fs ≤ innerSect fs := by
  induction h with
  | nil => exact absurd rfl hs
  | blocking hd _ _ _ _ ih => exact (Nat.lt_of_lt_of_le hd (ih hs)).le
  | unlinked ha _ _ _ _ ih => exact (Nat.lt_of_lt_of_le ha (ih hs)).le
  | linked => exact le_rfl

/-- With the outermost caller's frame at or below `stack_end`, the linked sections form a chain
towards `stack_end`. -/
theorem FramesOk.chain {base E : Nat} {fs : List BlockFrame} (h : FramesOk base fs)
    (hE : base ≤ E) : SectChain (sectAt fs) E (innerSect fs) := by
  induction h with
  | nil => exact .null
  | blocking _ _ _ _ _ ih => exact ih
  | unlinked _ _ _ _ _ ih => exact ih
  | @linked a d e e' fs ha _ _ _ hfs ih =>
    change SectChain _ E (innerSect fs) at ih
    by_cases ha0 : a = 0
    · subst ha0; exact .null
    have hd : d ≤ if innerSect fs = 0 then E else innerSect fs := by
      split_ifs with h0
      · exact hfs.caller_le.trans hE
      · exact hfs.caller_le_innerSect h0
    refine .cons (by simp [sectAt, innerSect]) ha hd (ih.mono (l := a + 1) (fun x hx => ?_) ?_)
    · simp [sectAt, show x ≠ a by omega]
    · by_cases h0 : innerSect fs = 0
      · exact .inl h0
      · rw [if_neg h0] at hd; exact .inr (by omega)

/-- Every reachable state keeps the invariant. -/
theorem BlockReachable.inv {s : BlockState} (hr : BlockReachable s) : BlockInv s := by
  induction hr with
  | start base h => exact .start h base
  | step _ h ih => exact ih.step h

end Invariant

section Calls

/-- A call of `GC_do_blocking_inner` or `GC_call_with_gc_active` with the calls its `fn` makes,
in order: a well-nested run of the thread as a tree. -/
inductive BlockCall where
  /-- `GC_do_blocking_inner`, its `d` at address `d`. -/
  | blocking (d : Nat) (body : List BlockCall)
  /-- `GC_call_with_gc_active`, its `stacksect` at address `a`. -/
  | active (a : Nat) (body : List BlockCall)

mutual
/-- The events of a call: its part before `fn`, the calls of `fn`, its part after. -/
def BlockCall.events : BlockCall → List BlockEvent
  | .blocking d body => .enterBlocking d :: BlockCall.eventsAll body ++ [.leaveBlocking]
  | .active a body => .enterActive a :: BlockCall.eventsAll body ++ [.leaveActive]

/-- The events of calls made one after the other. -/
def BlockCall.eventsAll : List BlockCall → List BlockEvent
  | [] => []
  | c :: cs => c.events ++ BlockCall.eventsAll cs
end

mutual
/-- The `stack_ptr` a call made without `DO_BLOCKING` returns with, from `p` at its entry:
`GC_do_blocking_inner` returns with its `d`, and `GC_call_with_gc_active` with what the calls of
its `fn` leave. -/
def BlockCall.ptrAfter : BlockCall → Nat → Nat
  | .blocking d _, _ => d
  | .active _ body, p => BlockCall.ptrAfterAll body p

/-- The `stack_ptr` calls made one after the other without `DO_BLOCKING` leave: that of the
last `GC_do_blocking_inner` among them or inside their `GC_call_with_gc_active`s, and `p`
when none ran. -/
def BlockCall.ptrAfterAll : List BlockCall → Nat → Nat
  | [], p => p
  | c :: cs, p => BlockCall.ptrAfterAll cs (c.ptrAfter p)
end

variable {s s' : BlockState}

/-- A run that returns starts with a step that returns. -/
theorem blockRun_cons_ok {e : BlockEvent} {es : List BlockEvent}
    (h : blockRun s (e :: es) = some (.ok s')) :
    ∃ s₁, blockStep s e = some (.ok s₁) ∧ blockRun s₁ es = some (.ok s') := by
  simp only [blockRun] at h
  split at h
  · exact ⟨_, ‹_›, h⟩
  · next hne => exact (hne _ h).elim

/-- A run of two parts that returns runs each part to a return. -/
theorem blockRun_append_ok {es₁ es₂ : List BlockEvent} (h : blockRun s (es₁ ++ es₂) = some (.ok s')) :
    ∃ s₁, blockRun s es₁ = some (.ok s₁) ∧ blockRun s₁ es₂ = some (.ok s') := by
  induction es₁ generalizing s with
  | nil => exact ⟨s, rfl, h⟩
  | cons e es ih =>
    obtain ⟨s₁, h₁, h₂⟩ := blockRun_cons_ok h
    obtain ⟨s₂, h₃, h₄⟩ := ih h₂
    exact ⟨s₂, by simp only [blockRun, h₁]; exact h₃, h₄⟩

/-- Every run that returns keeps the invariant. -/
theorem BlockInv.run (hi : BlockInv s) {es : List BlockEvent} (h : blockRun s es = some (.ok s')) :
    BlockInv s' := by
  induction es generalizing s with
  | nil => cases h; exact hi
  | cons e es ih =>
    obtain ⟨_, h₁, h₂⟩ := blockRun_cons_ok h
    exact ih (hi.step h₁) h₂

/-- The frames, flag and section a call returns with. -/
structure Returns (s s' : BlockState) : Prop where
  frames : s'.frames = s.frames
  flag : s'.me.doBlocking = s.me.doBlocking
  traced : s'.me.tracedStackSect = s.me.tracedStackSect

mutual
/-- A call that returns from a state of the invariant returns with the frames, `DO_BLOCKING`
and `traced_stack_sect` of its entry. Made with `DO_BLOCKING` set it is a
`GC_call_with_gc_active` and restores `stack_ptr`; made without, it returns with `ptrAfter`. -/
theorem blockRun_call : ∀ (c : BlockCall) {s s' : BlockState}, BlockInv s →
    blockRun s c.events = some (.ok s') → Returns s s' ∧
      s'.me.stackPtr = if s.me.doBlocking then s.me.stackPtr else c.ptrAfter s.me.stackPtr
  | .blocking d body, s, s', hi, h => by
    obtain ⟨s₁, h₁, h⟩ := blockRun_cons_ok h
    obtain ⟨s₂, h₂, h₃⟩ := blockRun_append_ok h
    -- the entry check passed: `DO_BLOCKING` was clear
    have hb : s.me.doBlocking = false := by
      cases hb : s.me.doBlocking
      · rfl
      · simp only [blockStep, gcDoBlockingInnerEnter, hb] at h₁
        split at h₁ <;> cases h₁
    have hs₁ : s₁ = ⟨{ s.me with stackPtr := d, doBlocking := true }, .blocking d s.me :: s.frames,
        s.base⟩ := by
      simp only [blockStep, gcDoBlockingInnerEnter, hb] at h₁
      split at h₁ <;> cases h₁
      rfl
    subst hs₁
    have hi₁ := hi.step h₁
    obtain ⟨⟨hf₂, -, -⟩, -⟩ := blockRun_calls body hi₁ h₂
    have hi₂ := hi₁.run h₂
    obtain ⟨s₃, h₄, hf₃, hb₃, ht₃⟩ := hi₂.leaveBlocking hf₂
    obtain rfl : s₃ = s' := by
      obtain ⟨_, h₅, h₆⟩ := blockRun_cons_ok h₃
      rw [h₄] at h₅
      cases h₅
      cases h₆
      rfl
    refine ⟨⟨hf₃, hb₃, ht₃⟩, ?_⟩
    -- `stack_ptr` holds `d` while the call is innermost, and its return keeps it
    obtain rfl : s₃ = { s₂ with me := gcDoBlockingInnerLeave s₂.me, frames := s.frames } := by
      simp only [blockStep, hf₂] at h₄
      cases h₄
      rfl
    simp only [hb, gcDoBlockingInnerLeave, Bool.false_eq_true, ↓reduceIte, BlockCall.ptrAfter]
    exact hi₂.ptr d s.me s.frames hf₂
  | .active a body, s, s', hi, h => by
    obtain ⟨s₁, h₁, h⟩ := blockRun_cons_ok h
    obtain ⟨s₂, h₂, h₃⟩ := blockRun_append_ok h
    have hi₁ := hi.step h₁
    simp only [blockStep] at h₁
    split at h₁
    · rw [gcCallWithGcActiveEnter_ok hi.stackEnd] at h₁
      obtain ⟨⟨hf₂, hb₂, -⟩, hp₂⟩ := blockRun_calls body hi₁ h₂
      have hi₂ := hi₁.run h₂
      obtain ⟨s₃, h₄, hf₃, hb₃, ht₃, hp₃⟩ := hi₂.leaveActive (hf₂.trans (by cases h₁; rfl))
      obtain rfl : s₃ = s' := by
        obtain ⟨_, h₅, h₆⟩ := blockRun_cons_ok h₃
        rw [h₄] at h₅
        cases h₅
        cases h₆
        rfl
      refine ⟨⟨hf₃, hb₃, ht₃⟩, ?_⟩
      cases hb : s.me.doBlocking
      · -- nothing linked: the return keeps what the calls of `fn` left
        simp only [hb, Bool.false_eq_true, ↓reduceIte, Except.map] at h₁
        cases h₁
        have hf : s₂.frames = .active a none s.me :: s.frames := hf₂
        simp only [blockStep, hf, gcCallWithGcActiveLeave, Except.map] at h₄
        cases h₄
        simpa [BlockCall.ptrAfter] using hp₂
      · exact (hp₃ hb).trans (by simp)
    · cases h₁

/-- Calls made one after the other return, from a state of the invariant, with its frames,
`DO_BLOCKING` and `traced_stack_sect`, and with `stack_ptr` as `ptrAfterAll` says when made
without `DO_BLOCKING`. -/
theorem blockRun_calls : ∀ (cs : List BlockCall) {s s' : BlockState}, BlockInv s →
    blockRun s (BlockCall.eventsAll cs) = some (.ok s') → Returns s s' ∧
      (s.me.doBlocking = false → s'.me.stackPtr = BlockCall.ptrAfterAll cs s.me.stackPtr)
  | [], s, s', _, h => by
    cases h
    exact ⟨⟨rfl, rfl, rfl⟩, fun _ => rfl⟩
  | c :: cs, s, s', hi, h => by
    obtain ⟨s₁, h₁, h₂⟩ := blockRun_append_ok h
    obtain ⟨⟨hf₁, hb₁, ht₁⟩, hp₁⟩ := blockRun_call c hi h₁
    obtain ⟨⟨hf₂, hb₂, ht₂⟩, hp₂⟩ := blockRun_calls cs (hi.run h₁) h₂
    refine ⟨⟨hf₂.trans hf₁, hb₂.trans hb₁, ht₂.trans ht₁⟩, fun hb => ?_⟩
    rw [hp₂ (hb₁.trans hb), hp₁, hb]
    rfl
end

end Calls

/-- Over the well-nested runs of one thread that enter `GC_do_blocking_inner` only without
`DO_BLOCKING`: no other assertion fails; each `GC_call_with_gc_active` returns with
`DO_BLOCKING` and `traced_stack_sect` as at its entry, and `stack_ptr` too when it was entered
with `DO_BLOCKING` set; each `GC_do_blocking_inner` returns with `DO_BLOCKING` and
`traced_stack_sect` as at its entry. Every call that returns does so with the flag and the
section of its entry, and with the `stack_ptr` of its entry if made with `DO_BLOCKING` set, and
otherwise with `ptrAfter`: its `d` for `GC_do_blocking_inner`, and for `GC_call_with_gc_active`
the `d` of the last `GC_do_blocking_inner` its `fn` ran outside other `GC_do_blocking_inner`s.
While the outermost caller's frame lies at or below `stack_end`, the linked sections form a
chain towards `stack_end`. -/
theorem blockingBrackets_restore {s : BlockState} (hr : BlockReachable s) :
    (∀ e f, blockStep s e = some (.error f) → f = .assertFailed 776 ∧ s.me.doBlocking = true) ∧
    (∀ a sect en fs, s.frames = .active a sect en :: fs →
      ∃ s', blockStep s .leaveActive = some (.ok s') ∧ s'.frames = fs ∧
        s'.me.doBlocking = en.doBlocking ∧ s'.me.tracedStackSect = en.tracedStackSect ∧
        (en.doBlocking = true → s'.me.stackPtr = en.stackPtr)) ∧
    (∀ d en fs, s.frames = .blocking d en :: fs →
      ∃ s', blockStep s .leaveBlocking = some (.ok s') ∧ s'.frames = fs ∧
        s'.me.doBlocking = en.doBlocking ∧ s'.me.tracedStackSect = en.tracedStackSect) ∧
    (∀ (c : BlockCall) s', blockRun s c.events = some (.ok s') → Returns s s' ∧
      s'.me.stackPtr = if s.me.doBlocking then s.me.stackPtr else c.ptrAfter s.me.stackPtr) ∧
    (s.base ≤ s.me.stackEnd → SectChain (sectAt s.frames) s.me.stackEnd s.me.tracedStackSect) := by
  have hi := hr.inv
  exact ⟨fun _ _ => hi.fault, fun _ _ _ _ => hi.leaveActive, fun _ _ _ => hi.leaveBlocking,
    fun c _ => blockRun_call c hi, fun hE => hi.traced ▸ hi.frames.chain hE⟩

/-- A registered thread's record with stack base `stackEnd`. -/
def blockRecord (stackEnd : Nat) : ThreadRep := { ThreadRep.zero with stackEnd := stackEnd }

theorem blockingBrackets_restore_linked :
    ∃ s, blockRun ⟨blockRecord 0x10000, [], 0x9000⟩ [.enterBlocking 0x8000, .enterActive 0x7000] =
        some (.ok s) ∧ SectChain (sectAt s.frames) s.me.stackEnd s.me.tracedStackSect ∧
      ∃ s', blockStep s .leaveActive = some (.ok s') ∧ s'.me.doBlocking = true ∧
        s'.me.stackPtr = 0x8000 := by
  have hr := blockRun_reachable (BlockReachable.start 0x9000 ⟨rfl, rfl, by decide⟩ :
    BlockReachable ⟨blockRecord 0x10000, [], 0x9000⟩) [.enterBlocking 0x8000, .enterActive 0x7000] rfl
  obtain ⟨-, hA, -, -, hC⟩ := blockingBrackets_restore hr
  obtain ⟨s', h', -, hb, -, hp⟩ := hA _ _ _ _ rfl
  exact ⟨_, rfl, hC (by decide), s', h', hb, hp rfl⟩

/-- A `GC_call_with_gc_active` entered without `DO_BLOCKING` that runs a
`GC_do_blocking_inner` returns with that call's `stack_ptr`. With `stack_end` below the frames,
`GC_call_with_gc_active` inside a `GC_do_blocking_inner` raises `stack_end` to its own section,
below the `stack_ptr` the section saves. -/
theorem blockingBrackets_stackPtr_changed :
    BlockStart (blockRecord 0x10000) ∧
    (∃ s s', blockRun ⟨blockRecord 0x10000, [], 0x9000⟩
        [.enterActive 0x8000, .enterBlocking 0x7000, .leaveBlocking] = some (.ok s) ∧
      s.frames = [.active 0x8000 none (blockRecord 0x10000)] ∧
      blockStep s .leaveActive = some (.ok s') ∧ s'.me.stackPtr = 0x7000 ∧
      s'.me.stackPtr ≠ (blockRecord 0x10000).stackPtr) ∧
    BlockStart (blockRecord 0x1000) ∧
    (∃ s, blockRun ⟨blockRecord 0x1000, [], 0x9000⟩ [.enterBlocking 0x8000, .enterActive 0x7000] =
        some (.ok s) ∧ s.me.stackEnd = 0x7000 ∧ s.me.tracedStackSect = 0x7000 ∧
      sectAt s.frames 0x7000 = some (0x8000, 0) ∧
      ¬ SectChain (sectAt s.frames) s.me.stackEnd s.me.tracedStackSect) := by
  have key : ∀ s : BlockState, s.me.stackEnd = 0x7000 → s.me.tracedStackSect = 0x7000 →
      sectAt s.frames 0x7000 = some (0x8000, 0) →
      ¬ SectChain (sectAt s.frames) s.me.stackEnd s.me.tracedStackSect := fun s hE ht hm hc => by
    rw [hE, ht] at hc
    exact absurd (hc.saved_le (by decide) hm) (by decide)
  exact ⟨⟨rfl, rfl, by decide⟩, ⟨_, _, rfl, rfl, rfl, rfl, by decide⟩, ⟨rfl, rfl, by decide⟩,
    ⟨_, rfl, rfl, rfl, rfl, key _ rfl rfl rfl⟩⟩

end Win32GcThreads
