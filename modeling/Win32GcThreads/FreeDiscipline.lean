import Win32GcThreads.LifecycleInvariant

/-!
# Every `GC_INTERNAL_FREE` frees live memory

The explicit-mode routines free a thread record in two ways: `GC_delete_thread` frees the
record it unlinks unless it is `first_thread`, and the tails of `GC_pthread_join` and
`GC_pthread_detach` free the record `GC_delete_gc_thread_no_free` unlinked, `first_thread`
included. `Freeable s p` says that `GC_INTERNAL_FREE(p)` frees memory not freed since it was
obtained: `p` is a block `GC_INTERNAL_MALLOC` returned that is still allocated, or the static
`first_thread` never passed to it before.

`FreeInv` is what the table keeps for this: the live blocks are distinct, every record linked
in `GC_threads` is freeable (no bucket holds freed memory), and `first_thread` is not freed
while `GC_new_thread` can still hand it out. Each table step keeps it and is a `FreeCall`: it
frees at most one record, a freeable one that is not freeable afterwards, and a record
becomes freeable only as the block `GC_INTERNAL_MALLOC` returns. Every lifecycle step is a
sequence of such calls, so over every run no block is freed twice without being allocated
in between, and `first_thread` is freed at most once.
-/

namespace Win32GcThreads

/-- `GC_INTERNAL_FREE(p)` frees memory not yet freed: a heap record still allocated, or
`first_thread` never freed. -/
def Freeable (s : ThreadTable) (p : Ptr) : Prop :=
  (p ∈ s.allocated ∧ p ≠ firstThread) ∨ (p = firstThread ∧ firstThread ∉ s.freed)

instance (s : ThreadTable) (p : Ptr) : Decidable (Freeable s p) :=
  inferInstanceAs (Decidable (_ ∨ _))

/-- One change of the table as the allocator sees it: at most one `GC_INTERNAL_FREE`, of a
freeable record that is not freeable afterwards; and a record not freeable before is
freeable after only as the block a `GC_INTERNAL_MALLOC` returned. -/
structure FreeCall (s s' : ThreadTable) : Prop where
  frees : s'.freed = s.freed ∨ ∃ p, s'.freed = s.freed ++ [p] ∧ Freeable s p ∧ ¬Freeable s' p
  fresh : ∀ p, Freeable s' p → Freeable s p ∨ s'.allocated = s.allocated ++ [p]

section Invariant

variable (H : TableHash)

/-- The allocator's side of the table invariant. -/
structure FreeInv (s : ThreadTable) (B : Nat → List Ptr) : Prop where
  /-- No live block is listed twice. -/
  nodup : s.allocated.Nodup
  /-- No bucket links freed memory. -/
  linked : ∀ p ∈ tableRecords H B, Freeable s p
  /-- `first_thread` is not freed while `GC_new_thread` can still take it. -/
  unused : s.firstThreadUsed = false → firstThread ∉ s.freed

end Invariant

variable {H : TableHash} {s s' s₁ : ThreadTable} {B B' : Nat → List Ptr} {p : Ptr}

theorem freeable_congr (ha : s'.allocated = s.allocated) (hf : s'.freed = s.freed) :
    Freeable s' p ↔ Freeable s p := by
  unfold Freeable; rw [ha, hf]

namespace FreeCall

/-- A change that neither allocates nor frees. -/
theorem of_eq (ha : s'.allocated = s.allocated) (hf : s'.freed = s.freed) : FreeCall s s' :=
  ⟨.inl hf, fun _ hp => .inl ((freeable_congr ha hf).mp hp)⟩

/-- `GC_INTERNAL_FREE(p)` of a freeable `p`, after changes that kept the allocator's lists. -/
theorem internalFree (hn : s.allocated.Nodup) (hp : Freeable s p)
    (ha : s₁.allocated = s.allocated) (hf : s₁.freed = s.freed) : FreeCall s (s₁.internalFree p) := by
  refine ⟨.inr ⟨p, by simp [hf], hp, ?_⟩, fun q hq => .inl ?_⟩
  · rintro (⟨hm, -⟩ | ⟨rfl, hm⟩)
    · exact (ha ▸ hn).not_mem_erase (by simpa using hm)
    · exact hm (by simp)
  · simp only [Freeable, ThreadTable.internalFree_allocated, ThreadTable.internalFree_freed, ha,
      hf, List.mem_append, List.mem_singleton, not_or] at hq
    rcases hq with ⟨hm, hne⟩ | ⟨rfl, hm, -⟩
    · exact .inl ⟨List.mem_of_mem_erase hm, hne⟩
    · exact .inr ⟨rfl, hm⟩

end FreeCall

/-- `GC_INTERNAL_FREE` can only add `first_thread` to the freed list while it is unfreed. -/
theorem FreeCall.count_firstThread (h : FreeCall s s') (hc : s.freed.count firstThread ≤ 1) :
    s'.freed.count firstThread ≤ 1 := by
  rcases h.frees with he | ⟨p, he, hp, -⟩
  · rwa [he]
  rw [he, List.count_append]
  rcases hp with ⟨-, hne⟩ | ⟨rfl, hm⟩
  · simp [List.count_singleton, Ne.symm hne, hc]
  · simp [List.count_eq_zero_of_not_mem hm]

theorem freeCalls_count_firstThread (h : Relation.ReflTransGen FreeCall s s')
    (hc : s.freed.count firstThread ≤ 1) : s'.freed.count firstThread ≤ 1 := by
  induction h with
  | refl => exact hc
  | tail _ hst ih => exact hst.count_firstThread ih

section Records

theorem mem_tableRecords_unlink {h : Nat} {pre post : List Ptr} {t q : Ptr}
    (hB : B h = pre ++ t :: post) (hq : q ∈ tableRecords H (Function.update B h (pre ++ post))) :
    q ∈ tableRecords H B := by
  obtain ⟨k, hk, hm⟩ := mem_tableRecords.mp hq
  refine mem_tableRecords.mpr ⟨k, hk, ?_⟩
  by_cases hkh : k = h
  · subst hkh; simp only [Function.update_same] at hm; simp [hB]; aesop
  · rwa [Function.update_noteq hkh] at hm

theorem mem_tableRecords_linkFront {k : Nat} {r q : Ptr}
    (hq : q ∈ tableRecords H (Function.update B k (r :: B k))) : q = r ∨ q ∈ tableRecords H B := by
  obtain ⟨j, hj, hm⟩ := mem_tableRecords.mp hq
  by_cases hjk : j = k
  · subst hjk
    simp only [Function.update_same, List.mem_cons] at hm
    exact hm.imp_right fun hm => mem_tableRecords.mpr ⟨j, hj, hm⟩
  · rw [Function.update_noteq hjk] at hm
    exact .inr (mem_tableRecords.mpr ⟨j, hj, hm⟩)

end Records

namespace FreeInv

theorem init : FreeInv H ThreadTable.init fun _ => [] :=
  ⟨List.nodup_nil, by simp [tableRecords], fun _ => List.not_mem_nil _⟩

/-- A change that keeps the allocator's lists and links no new record. -/
theorem of_subset (hf : FreeInv H s B) (hsub : ∀ q ∈ tableRecords H B', q ∈ tableRecords H B)
    (ha : s'.allocated = s.allocated) (hfr : s'.freed = s.freed)
    (hu : s'.firstThreadUsed = s.firstThreadUsed) : FreeInv H s' B' :=
  ⟨ha ▸ hf.nodup, fun q hq => (freeable_congr ha hfr).mpr (hf.linked q (hsub q hq)),
    fun h => hfr ▸ hf.unused (hu ▸ h)⟩

/-- `GC_INTERNAL_FREE(p)` of an unlinked record, `first_thread` only once it is used. -/
theorem internalFree (hf : FreeInv H s B) (hp : p ∉ tableRecords H B)
    (hu : p = firstThread → s.firstThreadUsed = true) : FreeInv H (s.internalFree p) B := by
  refine ⟨hf.nodup.erase p, fun q hq => ?_, fun h hm => ?_⟩
  · have hqp : q ≠ p := by rintro rfl; exact hp hq
    rcases hf.linked q hq with ⟨hm, hne⟩ | ⟨rfl, hm⟩
    · exact .inl ⟨(List.mem_erase_of_ne hqp).mpr hm, hne⟩
    · exact .inr ⟨rfl, by simp [hm, hqp]⟩
  · simp only [ThreadTable.internalFree_freed, List.mem_append, List.mem_singleton] at hm
    rcases hm with hm | rfl
    · exact hf.unused h hm
    · simp [hu rfl] at h

end FreeInv

section Routines

/-- The record `GC_new_thread` takes: the block the allocator returned, appended to the
live blocks, or `first_thread` while unused. -/
theorem takeRecord_allocated {alloc : Option Ptr} {r : Ptr} (ht : takeRecord s alloc = some (s₁, r)) :
    (alloc = some r ∧ s₁.allocated = s.allocated ++ [r]) ∨
      (s.firstThreadUsed = false ∧ r = firstThread ∧ s₁.allocated = s.allocated) := by
  unfold takeRecord at ht
  split at ht
  · cases alloc with
    | none => cases ht
    | some a =>
      obtain ⟨rfl, rfl⟩ := Prod.mk.inj (Option.some.inj ht)
      exact .inl ⟨rfl, rfl⟩
  · cases ht
    exact .inr ⟨Bool.eq_false_iff.mpr ‹_›, rfl, rfl⟩

/-- The allocator's side of `GC_register_my_thread_inner`. -/
theorem gcRegisterMyThreadInner_takes {sb id self : Nat} {dup : Option Nat}
    {alloc : Option Ptr} {me : Ptr} (hr : gcRegisterMyThreadInner H s sb id self dup alloc = .ok (s', me)) :
    (alloc = some me ∧ s'.allocated = s.allocated ++ [me]) ∨
      (s.firstThreadUsed = false ∧ me = firstThread ∧ s'.allocated = s.allocated) := by
  unfold gcRegisterMyThreadInner gcNewThread at hr
  cases ht : takeRecord s alloc with
  | none => simp [ht] at hr
  | some r =>
    obtain ⟨s₁, r⟩ := r
    simp only [ht, Option.map_some'] at hr
    split at hr
    · cases hr
    · split at hr
      · cases hr
      · cases hr
        simpa using takeRecord_allocated ht

/-- `GC_delete_thread(id)` that returns found a record of the id's bucket. -/
theorem gcDeleteThread_found (hi : TableInv H s B) {id : Nat}
    (hr : gcDeleteThread H s id = .ok s') :
    ∃ pre p post, B (H.index id) = pre ++ p :: post ∧
      (B (H.index id)).find? (fun q => (s.rep q).id == id) = some p ∧
      s' = deleteFound s (H.index id) pre.getLast? p := by
  cases hfd : (B (H.index id)).find? fun q => (s.rep q).id == id with
  | none =>
    have hlen := hi.length_lt_fuel (H.index_lt id)
    simp [gcDeleteThread, findPrevBy_chain_none
      (fun q => (s.rep q).id == id) (hi.chain _ (H.index_lt id))
      (fun q hq => by simpa using List.find?_eq_none.mp hfd q hq) hlen] at hr
  | some p =>
    obtain ⟨hp, pre, post, hB, hpre⟩ := List.find?_eq_some.mp hfd
    rw [gcDeleteThread_spec hi hB (by simpa using hp) (fun q hq => by simpa using hpre q hq)] at hr
    exact ⟨pre, p, post, hB, rfl, (Except.ok.inj hr).symm⟩

/-- `GC_delete_gc_thread_no_free(t)` that returns found `t` in the bucket of its id. -/
theorem gcDeleteGcThreadNoFree_found (hi : TableInv H s B) {t : Ptr}
    (hr : gcDeleteGcThreadNoFree H s t = .ok s') :
    ∃ pre post, B (H.index (s.rep t).id) = pre ++ t :: post ∧
      s' = (s.closeHandle (s.rep t).handle).unlink (H.index (s.rep t).id) pre.getLast? t := by
  by_cases ht : t ∈ B (H.index (s.rep t).id)
  · obtain ⟨pre, post, hB⟩ := List.append_of_mem ht
    rw [gcDeleteGcThreadNoFree_spec hi (H.index_lt _) hB] at hr
    exact ⟨pre, post, hB, (Except.ok.inj hr).symm⟩
  · rw [gcDeleteGcThreadNoFree_unlinked hi ht] at hr
    cases hr

end Routines

section Steps

variable {A : TableWrite → Bool}

/-- Unlinking the record found after `pre` in bucket `h`, and freeing it unless it is
`first_thread` (`deleteFound`) or whatever it is (`GC_pthread_join`, `GC_pthread_detach`),
is one freeing call that keeps the invariant. -/
theorem unlinkFree_freeCall (hi : TableInv H s B) (hf : FreeInv H s B) {h : Nat} {pre post : List Ptr}
    {t : Ptr} (hB : B h = pre ++ t :: post) (hh : h < H.size) (c : Nat) :
    FreeCall s (((s.closeHandle c).unlink h pre.getLast? t).internalFree t) ∧
      FreeInv H (((s.closeHandle c).unlink h pre.getLast? t).internalFree t)
        (Function.update B h (pre ++ post)) := by
  have ht : t ∈ tableRecords H B := mem_tableRecords.mpr ⟨h, hh, by simp [hB]⟩
  refine ⟨.internalFree hf.nodup (hf.linked t ht) (by simp) (by simp), ?_⟩
  refine (hf.of_subset (fun q => mem_tableRecords_unlink hB) (by simp) (by simp) (by simp)).internalFree
    (hi.not_mem_unlink hh hB) fun hte => ?_
  obtain ⟨k, hk, hmk⟩ := mem_tableRecords.mp ht
  rcases hi.owned k hk t hmk with ⟨-, hne⟩ | ⟨-, hu⟩
  · exact absurd hte hne
  · simpa using hu

/-- What a table step does to the allocator, from a table that keeps both invariants. -/
theorem TableStep.free (h : TableStep H A s s') (hi : TableInv H s B) (hf : FreeInv H s B) :
    FreeCall s s' ∧ ∃ B', TableInv H s' B' ∧ FreeInv H s' B' := by
  cases h with
  | register ha hr =>
    obtain ⟨-, hi', -, -, hfr, -, hu⟩ := gcRegisterMyThreadInner_spec hi ha hr
    refine ⟨⟨.inl hfr, fun q hq => ?_⟩, _, hi', ?_⟩
    · rcases gcRegisterMyThreadInner_takes hr with ⟨-, hal⟩ | ⟨-, -, hal⟩
      · rcases hq with ⟨hm, hne⟩ | hq
        · rw [hal, List.mem_append, List.mem_singleton] at hm
          rcases hm with hm | rfl
          · exact .inl (.inl ⟨hm, hne⟩)
          · exact .inr hal
        · exact .inl (.inr (hfr ▸ hq))
      · exact .inl ((freeable_congr hal hfr).mp hq)
    rcases gcRegisterMyThreadInner_takes hr with ⟨rfl, hal⟩ | ⟨hun, rfl, hal⟩
    · obtain ⟨hna, hne⟩ := ha
      refine ⟨hal ▸ hf.nodup.append (List.nodup_singleton _) (by simpa using hna),
        fun q hq => ?_, fun h => by simp [hu] at h⟩
      rcases mem_tableRecords_linkFront hq with rfl | hq
      · exact .inl ⟨by simp [hal], hne⟩
      · rcases hf.linked q hq with ⟨hm, hne⟩ | ⟨rfl, hm⟩
        · exact .inl ⟨by simp [hal, hm], hne⟩
        · exact .inr ⟨rfl, hfr ▸ hm⟩
    · refine ⟨hal ▸ hf.nodup, fun q hq => ?_, fun h => by simp [hu] at h⟩
      rcases mem_tableRecords_linkFront hq with rfl | hq
      · exact .inr ⟨rfl, hfr ▸ hf.unused hun⟩
      · exact (freeable_congr hal hfr).mpr (hf.linked q hq)
  | update p hf' =>
    exact ⟨.of_eq rfl rfl, B, hi.setRep (hf' _).1, hf.of_subset (fun _ => id) rfl rfl rfl⟩
  | setStackbottom =>
    exact ⟨.of_eq rfl rfl, B, hi.setRep rfl, hf.of_subset (fun _ => id) rfl rfl rfl⟩
  | recordStackBase _ hr =>
    unfold gcRecordStackBase at hr
    split at hr
    · cases hr
    · cases hr
      exact ⟨.of_eq rfl rfl, B, hi.setRep rfl, hf.of_subset (fun _ => id) rfl rfl rfl⟩
  | delete _ hr =>
    obtain ⟨pre, p, post, hB, -, rfl⟩ := gcDeleteThread_found hi hr
    refine ⟨?_, _, gcDeleteThread_inv hi hB, ?_⟩ <;> unfold deleteFound <;> split
    · exact (unlinkFree_freeCall hi hf hB (H.index_lt _) _).1
    · exact .of_eq (by simp) (by simp)
    · exact (unlinkFree_freeCall hi hf hB (H.index_lt _) _).2
    · exact hf.of_subset (fun q => mem_tableRecords_unlink hB) (by simp) (by simp) (by simp)
  | deleteFree _ hr =>
    obtain ⟨pre, post, hB, rfl⟩ := gcDeleteGcThreadNoFree_found hi hr
    obtain ⟨hc, hf'⟩ := unlinkFree_freeCall hi hf hB (H.index_lt _) ((s.rep _).handle)
    exact ⟨hc, _, ((hi.closeHandle _).unlink (H.index_lt _) hB).internalFree
      (hi.not_mem_unlink (H.index_lt _) hB), hf'⟩

theorem TableSteps.free (h : TableSteps H A s s') (hi : TableInv H s B) (hf : FreeInv H s B) :
    Relation.ReflTransGen FreeCall s s' ∧ ∃ B', TableInv H s' B' ∧ FreeInv H s' B' := by
  induction h with
  | refl => exact ⟨.refl, B, hi, hf⟩
  | tail _ hst ih =>
    obtain ⟨hc, B', hi', hf'⟩ := ih
    obtain ⟨hc', hB'⟩ := hst.free hi' hf'
    exact ⟨hc.tail hc', hB'⟩

end Steps

section Runs

variable {rt rt' : Runtime}

theorem LifeReachable.freeInv (hr : LifeReachable H rt) :
    ∃ B, TableInv H rt.table B ∧ FreeInv H rt.table B ∧ rt.table.freed.count firstThread ≤ 1 := by
  induction hr with
  | start => exact ⟨_, tableInv_init, .init, by simp [Runtime.start, ThreadTable.init]⟩
  | step _ he ih =>
    obtain ⟨B, hi, hf, hc⟩ := ih
    obtain ⟨hcs, B', hi', hf'⟩ := (lifeStep_tableSteps he).free hi hf
    exact ⟨B', hi', hf', freeCalls_count_firstThread hcs hc⟩

/-- Every table a lifecycle run reaches links only freeable records, so no bucket holds
freed memory; its live blocks are distinct; and `first_thread` has been freed at most
once. -/
theorem lifecycle_linkedRecords_freeable (hr : LifeReachable H rt) :
    rt.table.freed.count firstThread ≤ 1 ∧ rt.table.allocated.Nodup ∧
      ∃ B, TableInv H rt.table B ∧ ∀ p ∈ tableRecords H B, Freeable rt.table p :=
  let ⟨B, hi, hf, hc⟩ := hr.freeInv
  ⟨hc, hf.nodup, B, hi, hf.linked⟩

set_option maxRecDepth 4000 in
/-- After `collisionRun`, which leaves records `3` and `first_thread` linked and has freed
record `2`. -/
theorem lifecycle_linkedRecords_freeable_collision :
    ∃ rt, runLife lowByteHash (Runtime.start mainThread) collisionRun = some (.ok rt) ∧
      rt.table.heads 1 = some 3 ∧ rt.table.freed = [2] ∧
      rt.table.freed.count firstThread ≤ 1 ∧ rt.table.allocated.Nodup ∧
      ∃ B, TableInv lowByteHash rt.table B ∧ ∀ p ∈ tableRecords lowByteHash B, Freeable rt.table p :=
  ⟨_, rfl, rfl, rfl,
    lifecycle_linkedRecords_freeable (runLife_reachable (.start mainThread) collisionRun rfl)⟩

end Runs

end Win32GcThreads
