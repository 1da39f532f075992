import Win32GcThreads.ThreadHashTable
import Mathlib.Data.List.Nodup

/-!
# The invariant of `GC_threads`

`TableInv H s B` says that bucket `h` of `s` is the finite chain `B h`, that every
record sits in the bucket of its own id, and that every linked record is live
(allocated, or the used `first_thread`). No record is then linked twice, and every
walk ends within its fuel. Each table routine is given one spec lemma stating the
new pure view; `TableReachable` closes the invariant over every sequence of table
operations.
-/

namespace Win32GcThreads

section Invariant

variable (H : TableHash)

/-- The linked records, bucket 0 first, each bucket in chain order. -/
def tableRecords (B : Nat → List Ptr) : List Ptr := (List.range H.size).flatMap B

/-- The invariant of the explicit-mode table, with pure view `B`. -/
structure TableInv (s : ThreadTable) (B : Nat → List Ptr) : Prop where
  /-- Bucket `h` is a finite chain ending in NULL. -/
  chain : ∀ h < H.size, Chain s.next (s.heads h) (B h)
  /-- `THREAD_TABLE_INDEX(r.id) = h` for every record `r` of bucket `h`. -/
  hashed : ∀ h < H.size, ∀ p ∈ B h, H.index (s.rep p).id = h
  /-- Linked records are heap records still allocated, or the used `first_thread`. -/
  owned : ∀ h < H.size, ∀ p ∈ B h,
    (p ∈ s.allocated ∧ p ≠ firstThread) ∨ (p = firstThread ∧ s.firstThreadUsed = true)

/-- `GC_INTERNAL_MALLOC` answers NULL or a block that is not in use. -/
def AllocAnswer (s : ThreadTable) : Option Ptr → Prop
  | none => True
  | some p => p ∉ s.allocated ∧ p ≠ firstThread

end Invariant

variable {H : TableHash} {s t : ThreadTable} {B : Nat → List Ptr}

/-- A record is linked when it lies in one of the buckets. -/
theorem mem_tableRecords {p : Ptr} : p ∈ tableRecords H B ↔ ∃ h < H.size, p ∈ B h := by
  simp [tableRecords]

namespace TableInv

/-- A record lies in one bucket only: the bucket of its id. -/
theorem bucket_eq (hi : TableInv H s B) {h₁ h₂ : Nat} (h₁s : h₁ < H.size) (h₂s : h₂ < H.size)
    {p : Ptr} (hp₁ : p ∈ B h₁) (hp₂ : p ∈ B h₂) : h₁ = h₂ := by
  rw [← hi.hashed h₁ h₁s p hp₁, hi.hashed h₂ h₂s p hp₂]

/-- No record is linked twice, within a bucket or across buckets. -/
theorem nodup (hi : TableInv H s B) : (tableRecords H B).Nodup := by
  rw [tableRecords, List.nodup_flatMap]
  refine ⟨fun h hh => (hi.chain h (List.mem_range.mp hh)).nodup,
    (List.nodup_range _).pairwise_of_forall_ne fun a ha b hb hab p hpa hpb => hab ?_⟩
  exact hi.bucket_eq (List.mem_range.mp ha) (List.mem_range.mp hb) hpa hpb

/-- A bucket links only `first_thread` and allocated records. -/
theorem bucket_subset (hi : TableInv H s B) {h : Nat} (hh : h < H.size) :
    B h ⊆ firstThread :: s.allocated := fun p hp => by
  rcases hi.owned h hh p hp with ⟨ha, _⟩ | ⟨rfl, _⟩
  · exact List.mem_cons_of_mem _ ha
  · exact List.mem_cons_self _ _

/-- Every linked record is `first_thread` or an allocated record. -/
theorem records_subset (hi : TableInv H s B) : tableRecords H B ⊆ firstThread :: s.allocated :=
  fun _ hp =>
    let ⟨_, hk, hpk⟩ := mem_tableRecords.mp hp
    hi.bucket_subset hk hpk

/-- Every bucket is shorter than the walk fuel. -/
theorem length_lt_fuel (hi : TableInv H s B) {h : Nat} (hh : h < H.size) :
    (B h).length < s.fuel := by
  have := ((hi.chain h hh).nodup.subperm (hi.bucket_subset hh)).length_le
  simp only [List.length_cons] at this
  simp only [ThreadTable.fuel]
  omega

/-- The invariant only reads the links, the ids, the live set and `first_thread_used`. -/
theorem congr (hi : TableInv H s B) (hh : t.heads = s.heads) (hn : t.next = s.next)
    (hid : ∀ p ∈ tableRecords H B, (t.rep p).id = (s.rep p).id)
    (ha : ∀ p ∈ tableRecords H B, p ∈ s.allocated → p ∈ t.allocated)
    (hf : s.firstThreadUsed = true → t.firstThreadUsed = true) : TableInv H t B where
  chain h hs := hh ▸ hn ▸ hi.chain h hs
  hashed h hs p hp := by
    rw [hid p (mem_tableRecords.mpr ⟨h, hs, hp⟩)]; exact hi.hashed h hs p hp
  owned h hs p hp := by
    rcases hi.owned h hs p hp with ⟨ha', hne⟩ | ⟨rfl, hu⟩
    · exact .inl ⟨ha p (mem_tableRecords.mpr ⟨h, hs, hp⟩) ha', hne⟩
    · exact .inr ⟨rfl, hf hu⟩

/-- Closing a handle keeps the table invariant. -/
theorem closeHandle (hi : TableInv H s B) (h : Nat) : TableInv H (s.closeHandle h) B :=
  hi.congr rfl rfl (fun _ _ => rfl) (fun _ _ hp => hp) id

/-- Freeing a record that is not linked keeps the invariant. -/
theorem internalFree (hi : TableInv H s B) {p : Ptr} (hp : p ∉ tableRecords H B) :
    TableInv H (s.internalFree p) B :=
  hi.congr rfl rfl (fun _ _ => rfl)
    (fun q hq ha => (List.mem_erase_of_ne (by rintro rfl; exact hp hq)).mpr ha) id

/-- Storing a record that keeps its id keeps the invariant. -/
theorem setRep (hi : TableInv H s B) {p : Ptr} {r : ThreadRep} (hr : r.id = (s.rep p).id) :
    TableInv H (s.setRep p r) B :=
  hi.congr rfl rfl (fun q _ => by
    by_cases hq : q = p
    · subst hq; simpa [ThreadTable.setRep] using hr
    · simp [ThreadTable.setRep, Function.update_noteq hq]) (fun _ _ hp => hp) id

/-- Unlinking the record `t` found after the prefix `pre` of bucket `h` removes
exactly `t` from the view. -/
theorem unlink (hi : TableInv H s B) {h : Nat} (hh : h < H.size) {pre post : List Ptr}
    {t : Ptr} (hB : B h = pre ++ t :: post) :
    TableInv H (s.unlink h pre.getLast? t) (Function.update B h (pre ++ post)) := by
  have hch := hi.chain h hh
  rw [hB] at hch
  have hsub : ∀ k, Function.update B h (pre ++ post) k ⊆ B k := fun k p hp => by
    by_cases hk : k = h
    · subst hk; simp only [Function.update_same] at hp; simp [hB]; aesop
    · rwa [Function.update_noteq hk] at hp
  refine ⟨fun k hk => ?_, fun k hk p hp => by simpa using hi.hashed k hk p (hsub k hp),
    fun k hk p hp => by simpa using hi.owned k hk p (hsub k hp)⟩
  cases hq : pre.getLast? with
  | none =>
    obtain rfl : pre = [] := List.getLast?_eq_none_iff.mp hq
    by_cases hkh : k = h
    · subst hkh; simpa [ThreadTable.unlink] using (Chain.cons_inv hch).2
    · simpa [ThreadTable.unlink, Function.update_noteq hkh] using hi.chain k hk
  | some q =>
    by_cases hkh : k = h
    · subst hkh; simpa [ThreadTable.unlink] using hch.bypass hch.nodup hq
    · have hqk : q ∉ B k := fun hm => hkh (hi.bucket_eq hk hh hm
        (by rw [hB]; exact List.mem_append_left _ (List.mem_of_getLast?_eq_some hq)))
      simpa [ThreadTable.unlink, Function.update_noteq hkh] using
        (hi.chain k hk).update_of_not_mem hqk _

/-- Pushing an unlinked live record `r` in front of the bucket of the id it is
then given. -/
theorem linkFront_setRep (hi : TableInv H s B) {r : Ptr} (hr : r ∉ tableRecords H B)
    (hown : (r ∈ s.allocated ∧ r ≠ firstThread) ∨ (r = firstThread ∧ s.firstThreadUsed = true))
    (rec : ThreadRep) :
    TableInv H ((s.linkFront (H.index rec.id) r).setRep r rec)
      (Function.update B (H.index rec.id) (r :: B (H.index rec.id))) := by
  have hrk : ∀ k < H.size, r ∉ B k := fun k hk hm => hr (mem_tableRecords.mpr ⟨k, hk, hm⟩)
  refine ⟨fun k hk => ?_, fun k hk p hp => ?_, fun k hk p hp => ?_⟩
  · by_cases hkh : k = H.index rec.id
    · subst hkh
      simp only [ThreadTable.setRep_heads, ThreadTable.setRep_next, ThreadTable.linkFront,
        Function.update_same]
      exact .cons (by rw [Function.update_same]; exact (hi.chain _ hk).update_of_not_mem (hrk _ hk) _)
    · simp only [ThreadTable.setRep_heads, ThreadTable.setRep_next, ThreadTable.linkFront,
        Function.update_noteq hkh]
      exact (hi.chain k hk).update_of_not_mem (hrk k hk) _
  · by_cases hpr : p = r
    · subst hpr
      have : k = H.index rec.id := by
        by_contra hkh; rw [Function.update_noteq hkh] at hp; exact hrk k hk hp
      simp [this]
    · have hpk : p ∈ B k := by
        by_cases hkh : k = H.index rec.id
        · subst hkh; simpa [hpr] using hp
        · rwa [Function.update_noteq hkh] at hp
      simpa [Function.update_noteq hpr] using hi.hashed k hk p hpk
  · by_cases hpr : p = r
    · subst hpr; simpa using hown
    · have hpk : p ∈ B k := by
        by_cases hkh : k = H.index rec.id
        · subst hkh; simpa [hpr] using hp
        · rwa [Function.update_noteq hkh] at hp
      simpa using hi.owned k hk p hpk

end TableInv

/-- The record `GC_new_thread` takes is unlinked and live; taking it changes no
linked record. -/
theorem takeRecord_spec (hi : TableInv H s B) {alloc : Option Ptr} (ha : AllocAnswer s alloc)
    {s₁ : ThreadTable} {r : Ptr} (ht : takeRecord s alloc = some (s₁, r)) :
    TableInv H s₁ B ∧ r ∉ tableRecords H B ∧
      ((r ∈ s₁.allocated ∧ r ≠ firstThread) ∨ (r = firstThread ∧ s₁.firstThreadUsed = true)) ∧
      s₁.freed = s.freed ∧ s₁.closed = s.closed ∧
      s₁.rep r = (if s.firstThreadUsed then ThreadRep.zero else s.rep firstThread) ∧
      (∀ q ≠ r, s₁.rep q = s.rep q) ∧ s₁.firstThreadUsed = true := by
  unfold takeRecord at ht
  split at ht
  · rename_i hu
    cases alloc with
    | none => simp at ht
    | some p =>
      simp only [Option.map_some', Option.some.injEq, Prod.mk.injEq] at ht
      obtain ⟨rfl, rfl⟩ := ht
      obtain ⟨hpa, hpf⟩ := ha
      have hnot : p ∉ tableRecords H B := fun hm => by
        obtain ⟨k, hk, hpk⟩ := mem_tableRecords.mp hm
        rcases hi.owned k hk p hpk with ⟨h, _⟩ | ⟨h, _⟩
        exacts [hpa h, hpf h]
      have hid : ∀ q ∈ tableRecords H B, ((s.allocate p).rep q).id = (s.rep q).id := fun q hq => by
        simp [ThreadTable.allocate, Function.update_noteq (fun e : q = p => hnot (e ▸ hq))]
      exact ⟨hi.congr rfl rfl hid (fun q _ h => by simp [ThreadTable.allocate, h]) id, hnot,
        .inl ⟨by simp [ThreadTable.allocate], hpf⟩, rfl, rfl, by simp [ThreadTable.allocate, hu],
        fun q hq => by simp [ThreadTable.allocate, hq], hu⟩
  · rename_i hu
    simp only [Option.some.injEq, Prod.mk.injEq] at ht
    obtain ⟨rfl, rfl⟩ := ht
    have hnot : firstThread ∉ tableRecords H B := fun hm => by
      obtain ⟨k, hk, hpk⟩ := mem_tableRecords.mp hm
      rcases hi.owned k hk _ hpk with ⟨_, h⟩ | ⟨_, h⟩
      exacts [h rfl, hu h]
    exact ⟨hi.congr rfl rfl (fun _ _ => rfl) (fun _ _ h => h) (fun _ => rfl), hnot,
      .inr ⟨rfl, rfl⟩, rfl, rfl, by simp [hu], fun _ _ => rfl, rfl⟩

section Specs

variable {pre post : List Ptr} {h : Nat}

/-- `GC_register_my_thread_inner` (explicit branch), when it returns: the record
`me` was not linked, now heads the bucket of `id`, and carries `id`,
`pthread_self()`, the duplicated handle, the stack base and an unknown minimum;
no other record changes. -/
theorem gcRegisterMyThreadInner_spec (hi : TableInv H s B) {alloc : Option Ptr}
    (ha : AllocAnswer s alloc) {sb id self : Nat} {dup : Option Nat} {s' : ThreadTable}
    {me : Ptr} (hr : gcRegisterMyThreadInner H s sb id self dup alloc = .ok (s', me)) :
    me ∉ tableRecords H B ∧
      TableInv H s' (Function.update B (H.index id) (me :: B (H.index id))) ∧
      (∃ hd, dup = some hd ∧ sb ≠ 0 ∧
        s'.rep me = (if s.firstThreadUsed then ThreadRep.zero else s.rep firstThread).registered
          sb id self hd) ∧
      (∀ q ≠ me, s'.rep q = s.rep q) ∧ s'.freed = s.freed ∧ s'.closed = s.closed ∧
      s'.firstThreadUsed = true := by
  unfold gcRegisterMyThreadInner gcNewThread at hr
  cases ht : takeRecord s alloc with
  | none => simp [ht] at hr
  | some p =>
    obtain ⟨s₁, r⟩ := p
    obtain ⟨hi₁, hnot, hown, hfr, hcl, hrep, hother, hused⟩ := takeRecord_spec hi ha ht
    cases dup with
    | none => simp [ht] at hr
    | some hd =>
      by_cases hsb : sb = 0
      · simp [ht, hsb] at hr
      simp only [ht, Option.map_some', hsb, ↓reduceIte, Except.ok.injEq, Prod.mk.injEq] at hr
      obtain ⟨rfl, rfl⟩ := hr
      have hinv := hi₁.linkFront_setRep hnot (by simpa using hown)
        ((s₁.rep r).registered sb id self hd)
      simp only [ThreadRep.registered_id] at hinv
      refine ⟨hnot, hinv, ⟨hd, rfl, hsb, by simp [hrep]⟩, fun q hq => ?_, by simp [hfr],
        by simp [hcl], by simpa using hused⟩
      simp [Function.update_noteq hq, hother q hq]

/-- `GC_lookup_thread(id)` returns a linked record carrying `id`. -/
theorem gcLookupThread_mem (hi : TableInv H s B) {id p : Nat}
    (h : gcLookupThread H s id = .ok (some p)) : p ∈ tableRecords H B ∧ (s.rep p).id = id := by
  have hlt := H.index_lt id
  rw [gcLookupThread, findFirst_chain (hi.chain _ hlt) (hi.length_lt_fuel hlt).le] at h
  have hf := Except.ok.inj h
  exact ⟨mem_tableRecords.mpr ⟨_, hlt, List.mem_of_find?_eq_some hf⟩, by simpa using List.find?_some hf⟩

/-- `GC_delete_gc_thread_no_free(t)` on a linked record: the unlink loop reaches
`t` without dereferencing NULL and removes exactly `t`; its handle is closed and
nothing is freed. -/
theorem gcDeleteGcThreadNoFree_spec (hi : TableInv H s B) (hh : h < H.size) {t : Ptr}
    (hB : B h = pre ++ t :: post) :
    gcDeleteGcThreadNoFree H s t
      = .ok ((s.closeHandle (s.rep t).handle).unlink h pre.getLast? t) := by
  have hid : H.index (s.rep t).id = h := hi.hashed h hh t (by simp [hB])
  have hch := hi.chain h hh
  have hlen := hi.length_lt_fuel hh
  rw [hB] at hch hlen
  have ht : t ∉ pre := (List.nodup_middle.mp hch.nodup |> List.nodup_cons.mp).1 ∘
    List.mem_append_left post
  simp only [gcDeleteGcThreadNoFree, ThreadTable.closeHandle_rep, ThreadTable.closeHandle_heads,
    ThreadTable.closeHandle_next, ThreadTable.fuel_closeHandle, hid]
  rw [findPrevBy_chain hch (fun q hq => beq_false_of_ne (by rintro rfl; exact ht hq))
    (by simp) (by simp at hlen; omega)]
  simp [Option.or_none]

/-- `GC_delete_thread(id)` where `p` is the first record of the bucket carrying
`id`: it removes exactly `p`, closes its handle and frees it unless it is
`first_thread`. -/
theorem gcDeleteThread_spec (hi : TableInv H s B) {id p : Nat}
    (hB : B (H.index id) = pre ++ p :: post) (hp : (s.rep p).id = id)
    (hpre : ∀ q ∈ pre, (s.rep q).id ≠ id) :
    gcDeleteThread H s id = .ok (deleteFound s (H.index id) pre.getLast? p) := by
  have hlen := hi.length_lt_fuel (H.index_lt id)
  rw [hB] at hlen
  simp only [gcDeleteThread]
  rw [findPrevBy_chain (hB ▸ hi.chain _ (H.index_lt id)) (fun q hq => by simpa using hpre q hq)
    (by simpa using hp) (by simp at hlen; omega)]
  simp [Option.or_none]

/-- The view after `GC_delete_thread` keeps the invariant: the freed record is no
longer linked. -/
theorem gcDeleteThread_inv (hi : TableInv H s B) {id p : Nat}
    (hB : B (H.index id) = pre ++ p :: post) :
    TableInv H (deleteFound s (H.index id) pre.getLast? p)
      (Function.update B (H.index id) (pre ++ post)) := by
  have hu := (hi.closeHandle (s.rep p).handle).unlink (H.index_lt id) hB
  unfold deleteFound
  split
  · refine hu.internalFree fun hm => ?_
    obtain ⟨k, hk, hpk⟩ := mem_tableRecords.mp hm
    have hnd := hi.nodup
    by_cases hkh : k = H.index id
    · subst hkh
      have := (hi.chain _ hk).nodup
      rw [hB] at this
      simp only [Function.update_same] at hpk
      exact (List.nodup_middle.mp this |> List.nodup_cons.mp).1 hpk
    · rw [Function.update_noteq hkh] at hpk
      exact hkh (hi.bucket_eq hk (H.index_lt id) hpk (by simp [hB]))
  · exact hu

end Specs

section ForkChild

variable {self : Nat} {s s₁ s' : ThreadTable} {m : Option Ptr} {L L' : List Ptr}

/-- The records the fork-child loop frees, given the record `me` it keeps. -/
def freedByFork (me : Option Ptr) (L : List Ptr) : List Ptr :=
  L.filter fun p => me != some p && p != firstThread

theorem freedByFork_append (me : Option Ptr) (L L' : List Ptr) :
    freedByFork me (L ++ L') = freedByFork me L ++ freedByFork me L' :=
  List.filter_append L L'

theorem freedByFork_congr {me me' : Option Ptr} {L : List Ptr}
    (h : ∀ p ∈ L, me = some p ↔ me' = some p) : freedByFork me L = freedByFork me' L :=
  List.filter_congr fun p hp => by rw [Bool.eq_iff_iff]; simp [h p hp]

/-- What the fork-child loop has done to `s` once it has walked the records `L`, keeping
`m`: every record of `L` but `m` and `first_thread` is freed, in order, the link of `m`
is cut if `m` was walked, no other link is cut, and no record changes. -/
structure ForkSweep (s s' : ThreadTable) (m : Option Ptr) (L : List Ptr) : Prop where
  rep : s'.rep = s.rep
  firstThreadUsed : s'.firstThreadUsed = s.firstThreadUsed
  closed : s'.closed = s.closed
  freed : s'.freed = s.freed ++ freedByFork m L
  allocated : ∀ q ∈ s.allocated, q ∉ freedByFork m L → q ∈ s'.allocated
  next : ∀ q ∉ L, s'.next q = s.next q
  cut : ∀ f ∈ m, f ∈ L → s'.next f = none

namespace ForkSweep

theorem nil (s : ThreadTable) (m : Option Ptr) : ForkSweep s s m [] :=
  ⟨rfl, rfl, rfl, by simp [freedByFork], fun _ hq _ => hq, fun _ _ => rfl, fun _ _ h => nomatch h⟩

/-- Sweeps over two disjoint consecutive runs of records compose. -/
theorem append (h₁ : ForkSweep s s₁ m L) (h₂ : ForkSweep s₁ s' m L') (hd : L.Disjoint L') :
    ForkSweep s s' m (L ++ L') where
  rep := h₂.rep.trans h₁.rep
  firstThreadUsed := h₂.firstThreadUsed.trans h₁.firstThreadUsed
  closed := h₂.closed.trans h₁.closed
  freed := by rw [h₂.freed, h₁.freed, freedByFork_append, List.append_assoc]
  allocated q hq hqf := by
    rw [freedByFork_append, List.mem_append, not_or] at hqf
    exact h₂.allocated q (h₁.allocated q hq hqf.1) hqf.2
  next q hq := by
    rw [List.mem_append, not_or] at hq
    rw [h₂.next q hq.2, h₁.next q hq.1]
  cut f hf hfL := by
    rcases List.mem_append.mp hfL with hfL | hfL
    · rw [h₂.next f (hd hfL)]; exact h₁.cut f hf hfL
    · exact h₂.cut f hf hfL

theorem congr (h : ForkSweep s s' m L) {m' : Option Ptr}
    (hm : ∀ p ∈ L, m = some p ↔ m' = some p) : ForkSweep s s' m' L := by
  obtain ⟨hr, hf, hc, hfr, hal, hn, hcut⟩ := h
  rw [freedByFork_congr hm] at hfr hal
  exact ⟨hr, hf, hc, hfr, hal, hn, fun f hf hfL => hcut f ((hm f hfL).mpr hf) hfL⟩

/-- Clearing a head is no step of the sweep. -/
theorem of_heads {hd : Nat → Option Ptr} (h : ForkSweep { s with heads := hd } s' m L) :
    ForkSweep s s' m L :=
  ⟨h.rep, h.firstThreadUsed, h.closed, h.freed, h.allocated, h.next, h.cut⟩

/-- A chain through none of the walked records is left as it was. -/
theorem chain (h : ForkSweep s s' m L) {x : Option Ptr} {L' : List Ptr} (hc : Chain s.next x L')
    (hd : L'.Disjoint L) : Chain s'.next x L' :=
  hc.congr_next fun q hq => h.next q (hd hq)

/-- The record kept: its link is cut. -/
theorem keep (s : ThreadTable) (p : Ptr) :
    ForkSweep s { s with next := Function.update s.next p none } (some p) [p] :=
  ⟨rfl, rfl, rfl, by simp [freedByFork], fun _ hq _ => hq,
    fun _ hq => Function.update_noteq (List.ne_of_not_mem_cons hq) _ _,
    fun _ hf _ => Option.some.inj hf ▸ Function.update_same _ _ _⟩

/-- A record passed over: freed unless it is `first_thread`. -/
theorem free (s : ThreadTable) {p : Ptr} (hm : m ≠ some p) :
    ForkSweep s (if firstThread ≠ p then s.internalFree p else s) m [p] := by
  have hcut : ∀ f ∈ m, f ∈ [p] → False := fun f hf hfp =>
    hm (List.mem_singleton.mp hfp ▸ hf)
  by_cases hp : firstThread = p
  · subst hp
    simp only [ne_eq, not_true_eq_false, ↓reduceIte]
    exact ⟨rfl, rfl, rfl, by simp [freedByFork], fun _ hq _ => hq, fun _ _ => rfl,
      fun f hf hfp => (hcut f hf hfp).elim⟩
  · have hfr : freedByFork m [p] = [p] := by simp [freedByFork, hm, Ne.symm hp]
    rw [if_pos hp]
    refine ⟨rfl, rfl, rfl, by rw [hfr]; rfl, fun q hq hqf => ?_, fun _ _ => rfl,
      fun f hf hfp => (hcut f hf hfp).elim⟩
    rw [hfr, List.mem_singleton] at hqf
    exact (List.mem_erase_of_ne hqf).mpr hq

end ForkSweep

/-- One bucket of the fork-child loop over the chain `L`: the first record of `L`
whose `pthread_id` is `self` becomes `me` unless an earlier bucket supplied one,
its link is cut, and every other record of `L` is freed unless it is
`first_thread`. -/
theorem removeChain_spec (self : Nat) (s : ThreadTable) (me : Option Ptr) {n : Nat}
    {x : Option Ptr} {L : List Ptr}
    (hc : Chain s.next x L) (hn : L.length ≤ n) (hme : ∀ m ∈ me, m ∉ L) :
    ∃ s', removeChain self n s me x
        = .ok (s', me.or (L.find? fun p => (s.rep p).pthreadId == self)) ∧
      s'.heads = s.heads ∧ ForkSweep s s' (me.or (L.find? fun p => (s.rep p).pthreadId == self)) L := by
  induction L generalizing x s me n with
  | nil =>
    cases hc
    exact ⟨s, by cases n <;> simp [removeChain], rfl, .nil s _⟩
  | cons p L ih =>
    obtain ⟨rfl, hL⟩ := Chain.cons_inv hc
    obtain ⟨n, rfl⟩ : ∃ m, n = m + 1 := ⟨n - 1, by simp at hn; omega⟩
    have hpL : p ∉ L := (List.nodup_cons.mp hc.nodup).1
    by_cases hsel : (s.rep p).pthreadId = self ∧ me = none
    · obtain ⟨hps, rfl⟩ := hsel
      obtain ⟨s', hr, hh, hs'⟩ :=
        ih { s with next := Function.update s.next p none } (some p)
          (by simpa using hL.update_of_not_mem hpL none) (by simpa using hn) (by simpa using hpL)
      have hfp : ((p :: L).find? fun q => (s.rep q).pthreadId == self) = some p := by simp [hps]
      rw [hfp, Option.none_or]
      exact ⟨s', by simp [removeChain, hps, hr], hh,
        (ForkSweep.keep s p).append hs' (List.singleton_disjoint.mpr hpL)⟩
    · have hme' : me.or ((p :: L).find? fun q => (s.rep q).pthreadId == self)
          = me.or (L.find? fun q => (s.rep q).pthreadId == self) := by
        cases me with
        | some m => rfl
        | none => simp [List.find?_cons, show (s.rep p).pthreadId ≠ self from fun hp => hsel ⟨hp, rfl⟩]
      have hfind : me.or (L.find? fun q => (s.rep q).pthreadId == self) ≠ some p := by
        intro he
        cases me with
        | some m => exact hme m rfl (by simp at he; simp [he])
        | none => exact hpL (List.mem_of_find?_eq_some (by simpa using he))
      obtain ⟨s', hr, hh, hs'⟩ :=
        ih (if firstThread ≠ p then s.internalFree p else s) me
          (by split <;> simpa using hL) (by simpa using hn)
          (fun m hm hmL => hme m hm (List.mem_cons_of_mem p hmL))
      have hrep₀ : (if firstThread ≠ p then s.internalFree p else s).rep = s.rep := by split <;> rfl
      rw [hrep₀] at hr hs'
      rw [hme']
      refine ⟨s', ?_, by rw [hh]; split <;> rfl,
        (ForkSweep.free s hfind).append hs' (List.singleton_disjoint.mpr hpL)⟩
      simp only [removeChain, hsel, ↓reduceIte]; exact hr

/-- The bucket loop of the fork child over the buckets `hs`: the kept record is the
first record with `pthread_id == self` over the buckets in order, every other
record is freed unless it is `first_thread`, and every processed head is cleared. -/
theorem removeBuckets_spec (self fuel : Nat) (hs : List Nat) (s : ThreadTable)
    (me : Option Ptr) {B : Nat → List Ptr} (hc : ∀ k ∈ hs, Chain s.next (s.heads k) (B k) ∧ (B k).length ≤ fuel)
    (hhs : hs.Nodup) (hnd : (hs.flatMap B).Nodup) (hme : ∀ m ∈ me, m ∉ hs.flatMap B) :
    ∃ s', removeBuckets self fuel hs s me
        = .ok (s', me.or ((hs.flatMap B).find? fun p => (s.rep p).pthreadId == self)) ∧
      (∀ k, s'.heads k = if k ∈ hs then none else s.heads k) ∧
      ForkSweep s s' (me.or ((hs.flatMap B).find? fun p => (s.rep p).pthreadId == self))
        (hs.flatMap B) := by
  induction hs generalizing s me with
  | nil => exact ⟨s, by simp [removeBuckets], by simp, .nil s _⟩
  | cons k hs ih =>
    simp only [List.flatMap_cons, List.nodup_append] at hnd hme ⊢
    obtain ⟨-, hndr, hdis⟩ := hnd
    obtain ⟨hkhs, hhs⟩ := List.nodup_cons.mp hhs
    obtain ⟨s₁, hr₁, hh₁, hs₁⟩ :=
      removeChain_spec self s me (hc k (List.mem_cons_self k hs)).1
        (hc k (List.mem_cons_self k hs)).2 (fun m hm hmk => hme m hm (List.mem_append_left _ hmk))
    set me₁ := me.or ((B k).find? fun p => (s.rep p).pthreadId == self) with hme₁
    have hme₁r : ∀ m ∈ me₁, m ∉ hs.flatMap B := by
      cases me with
      | some m' => simpa [hme₁] using fun hmr => hme m' rfl (List.mem_append_right _ hmr)
      | none => exact fun m hm => hdis (List.mem_of_find?_eq_some (by simpa [hme₁] using hm))
    obtain ⟨s', hr, hh, hs'⟩ :=
      ih { s₁ with heads := Function.update s₁.heads k none } me₁
        (fun k' hk' => ⟨by
          simp only [Function.update_noteq (fun e => hkhs (e ▸ hk') : k' ≠ k), hh₁]
          exact hs₁.chain (hc k' (List.mem_cons_of_mem k hk')).1
            fun q hq hqk => hdis hqk (List.mem_flatMap.mpr ⟨k', hk', hq⟩),
          (hc k' (List.mem_cons_of_mem k hk')).2⟩)
        hhs hndr hme₁r
    replace hs' := hs'.of_heads
    simp only [hs₁.rep] at hs'
    have hor : me.or ((B k ++ hs.flatMap B).find? fun p => (s.rep p).pthreadId == self)
        = me₁.or ((hs.flatMap B).find? fun p => (s.rep p).pthreadId == self) := by
      rw [List.find?_append, hme₁, Option.or_assoc]
    rw [hor]
    refine ⟨s', ?_, fun k' => ?_, (hs₁.congr fun p hp => ?_).append hs' hdis⟩
    · simp only [removeBuckets, hr₁, bind, Except.bind]
      rw [hr]
      simp [hs₁.rep]
    · rw [hh]
      by_cases hk : k' = k
      · subst hk; simp [hkhs]
      · by_cases hk' : k' ∈ hs <;> simp [hk, hk', Function.update_noteq hk, hh₁]
    · cases hm : me₁ with
      | some m => rfl
      | none =>
        simp only [Option.none_or, false_iff, reduceCtorEq]
        exact fun he => hdis hp (List.mem_of_find?_eq_some he)

/-- `GC_remove_all_threads_but_me` returns only once the bucket loop kept a record and
`DuplicateHandle` succeeded. -/
theorem gcRemoveAllThreadsButMe_found (hi : TableInv H s B) {selfId : Nat} {dup : Option Nat}
    (h : gcRemoveAllThreadsButMe H s self selfId dup = .ok s') :
    ∃ me hd, (tableRecords H B).find? (fun p => (s.rep p).pthreadId == self) = some me ∧
      dup = some hd := by
  obtain ⟨s₁, hr, -⟩ :=
    removeBuckets_spec self s.fuel (List.range H.size) s none
      (fun k hk => ⟨hi.chain k (List.mem_range.mp hk), (hi.length_lt_fuel
        (List.mem_range.mp hk)).le⟩) (List.nodup_range _) hi.nodup (by simp)
  simp only [gcRemoveAllThreadsButMe, hr, Option.none_or, bind, Except.bind] at h
  split at h
  · cases h
  · split at h
    · cases h
    · exact ⟨_, _, ‹_›, rfl⟩

/-- `GC_remove_all_threads_but_me` on a well-formed table in which `me` is the
first record, in bucket order, whose `pthread_id` is `self`: `me` alone remains,
in the bucket of the child's id `selfId` and under that id, and every other record
except `first_thread` is freed, once. -/
theorem gcRemoveAllThreadsButMe_spec (hi : TableInv H s B) (selfId hd : Nat) {me : Ptr}
    (hme : (tableRecords H B).find? (fun p => (s.rep p).pthreadId == self) = some me) :
    ∃ s', gcRemoveAllThreadsButMe H s self selfId (some hd) = .ok s' ∧
      TableInv H s' (fun k => if k = H.index selfId then [me] else []) ∧
      s'.freed = s.freed ++ freedByFork (some me) (tableRecords H B) ∧
      s'.rep = Function.update s.rep me { (s.rep me) with id := selfId, handle := hd } ∧
      s'.closed = s.closed := by
  obtain ⟨s₁, hr, hh, hs₁⟩ :=
    removeBuckets_spec self s.fuel (List.range H.size) s none
      (fun k hk => ⟨hi.chain k (List.mem_range.mp hk), (hi.length_lt_fuel
        (List.mem_range.mp hk)).le⟩) (List.nodup_range _) hi.nodup (by simp)
  change (tableRecords H B).find? _ = _ at hme
  simp only [tableRecords] at hme hs₁ ⊢
  rw [hme, Option.none_or] at hr hs₁
  have hmeL : me ∈ (List.range H.size).flatMap B := List.mem_of_find?_eq_some hme
  obtain ⟨k₀, hk₀, hmek₀⟩ := mem_tableRecords.mp hmeL
  refine ⟨_, by simp [gcRemoveAllThreadsButMe, hr]; rfl, ⟨fun k hk => ?_, fun k hk p hp => ?_,
    fun k hk p hp => ?_⟩, by simp [hs₁.freed], by simp [hs₁.rep, ThreadTable.setRep],
    by simp [hs₁.closed]⟩
  · by_cases hks : k = H.index selfId
    · subst hks
      simp only [ThreadTable.setRep_heads, ThreadTable.setRep_next, Function.update_same,
        ↓reduceIte]
      exact .cons (by rw [hs₁.cut me rfl hmeL]; exact .nil)
    · simp [hks, Function.update_noteq hks, hh, List.mem_range.mpr hk, Chain.nil]
  · by_cases hks : k = H.index selfId
    · subst hks; simp at hp; subst hp; simp
    · simp [hks] at hp
  · by_cases hks : k = H.index selfId
    · subst hks; simp at hp; subst hp
      rcases hi.owned k₀ hk₀ p hmek₀ with ⟨ha, hne⟩ | ⟨rfl, hu⟩
      · refine .inl ⟨hs₁.allocated p ha fun hf => ?_, hne⟩
        simp [freedByFork] at hf
      · exact .inr ⟨rfl, by simpa [hs₁.firstThreadUsed] using hu⟩
    · simp [hks] at hp

/-- The record kept is the first `pthread_id` match in bucket order, `FINISHED` or not
(the `me == NULL` test skips only later matches). When that match is a dead record, it is
the only record left, still `FINISHED`, and every record that is not `FINISHED`, the
caller's own included, has been freed. -/
theorem forkChild_keeps_finished_record (hi : TableInv H s B) (selfId hd : Nat) {me live : Ptr}
    (hme : (tableRecords H B).find? (fun p => (s.rep p).pthreadId == self) = some me)
    (hfin : (s.rep me).finished = true) (hlive : live ∈ tableRecords H B)
    (hl : (s.rep live).finished = false) (hlf : live ≠ firstThread) :
    ∃ s', gcRemoveAllThreadsButMe H s self selfId (some hd) = .ok s' ∧
      TableInv H s' (fun k => if k = H.index selfId then [me] else []) ∧
      (s'.rep me).finished = true ∧ live ∈ s'.freed := by
  obtain ⟨s', he, hinv, hfr, hrep, -⟩ := gcRemoveAllThreadsButMe_spec hi selfId hd hme
  have hne : me ≠ live := fun h => by simp [h, hl] at hfin
  refine ⟨s', he, hinv, by simp [hrep, hfin], ?_⟩
  rw [hfr]
  exact List.mem_append_right _ (List.mem_filter.mpr ⟨hlive, by simp [hne, hlf]⟩)

/-- Two buckets, `THREAD_TABLE_INDEX(id) = id % 2`. -/
def twoBucketHash : TableHash := ⟨2, fun id => id % 2, fun _ => Nat.mod_lt _ (by decide)⟩

/-- Before the fork: record 5 (id 2, bucket 0) is a `FINISHED` thread whose
`pthread_t` 100 was reused by the live thread of record 6 (id 3, bucket 1). -/
def finishedBeforeLiveTable : ThreadTable :=
  ⟨fun h => if h = 0 then some 5 else if h = 1 then some 6 else none, fun _ => none,
    fun p => if p = 5 then { ThreadRep.zero with id := 2, pthreadId := 100, finished := true }
      else if p = 6 then { ThreadRep.zero with id := 3, pthreadId := 100 } else ThreadRep.zero,
    false, [5, 6], [], []⟩

/-- Bucket `0` links record `5` and bucket `1` record `6`. -/
theorem finishedBeforeLiveTable_inv : TableInv twoBucketHash finishedBeforeLiveTable
    (fun h => if h = 0 then [5] else if h = 1 then [6] else []) := by
  refine ⟨fun h hh => ?_, by decide, by decide⟩
  obtain rfl | rfl : h = 0 ∨ h = 1 := by simp [twoBucketHash] at hh; omega
  all_goals exact .cons .nil

theorem forkChild_keeps_finished_record_twoBuckets :
    ∃ s', gcRemoveAllThreadsButMe twoBucketHash finishedBeforeLiveTable 100 7 (some 70) = .ok s' ∧
      TableInv twoBucketHash s' (fun k => if k = twoBucketHash.index 7 then [5] else []) ∧
      (s'.rep 5).finished = true ∧ 6 ∈ s'.freed :=
  forkChild_keeps_finished_record finishedBeforeLiveTable_inv 7 70 rfl rfl (by decide) rfl
    (by decide)

end ForkChild

section Runs

/-- A search for a record that is not on the chain runs off its end. -/
theorem findPrevBy_chain_none (test : Ptr → Bool) {next : Ptr → Option Ptr} {x prev : Option Ptr}
    {L : List Ptr} (h : Chain next x L) (hL : ∀ q ∈ L, test q = false) {n : Nat}
    (hn : L.length < n) : findPrevBy next test n prev x = .error .nullDeref := by
  induction h generalizing prev n with
  | nil => cases n <;> rfl
  | @cons p L _ ih =>
    obtain ⟨n, rfl⟩ : ∃ m, n = m + 1 := ⟨n - 1, by simp at hn; omega⟩
    simp only [findPrevBy, hL p (List.mem_cons_self p L), Bool.false_eq_true, ↓reduceIte]
    exact ih (fun q hq => hL q (List.mem_cons_of_mem p hq)) (by simpa using hn)

/-- After unlinking `t`, no bucket holds it. -/
theorem TableInv.not_mem_unlink (hi : TableInv H s B) {h : Nat} (hh : h < H.size)
    {pre post : List Ptr} {t : Ptr} (hB : B h = pre ++ t :: post) :
    t ∉ tableRecords H (Function.update B h (pre ++ post)) := by
  rw [mem_tableRecords]
  rintro ⟨k, hk, hm⟩
  by_cases hkh : k = h
  · subst hkh
    have hn := (hi.chain k hk).nodup
    rw [hB, List.nodup_middle] at hn
    exact (List.nodup_cons.mp hn).1 (by simpa using hm)
  · rw [Function.update_noteq hkh] at hm
    exact hkh (hi.bucket_eq hk hh hm (by rw [hB]; simp))

/-- `GC_delete_gc_thread_no_free(t)` on a record that the bucket of its id does not link
runs off the end of the chain and dereferences NULL. -/
theorem gcDeleteGcThreadNoFree_unlinked (hi : TableInv H s B) {t : Ptr}
    (ht : t ∉ B (H.index (s.rep t).id)) : gcDeleteGcThreadNoFree H s t = .error .nullDeref := by
  have hh := H.index_lt (s.rep t).id
  simp only [gcDeleteGcThreadNoFree, ThreadTable.closeHandle_rep, ThreadTable.closeHandle_heads,
    ThreadTable.closeHandle_next, ThreadTable.fuel_closeHandle]
  rw [findPrevBy_chain_none _ (hi.chain _ hh)
    (fun q hq => beq_false_of_ne (by rintro rfl; exact ht hq)) (hi.length_lt_fuel hh)]
  rfl

/-- A `GC_delete_gc_thread_no_free(t)` that returns keeps the invariant and leaves
`t` unlinked. -/
theorem TableInv.of_deleteNoFree (hi : TableInv H s B) {t : Ptr} {s' : ThreadTable}
    (hr : gcDeleteGcThreadNoFree H s t = .ok s') :
    ∃ B', TableInv H s' B' ∧ t ∉ tableRecords H B' := by
  by_cases ht : t ∈ B (H.index (s.rep t).id)
  · obtain ⟨pre, post, hB⟩ := List.append_of_mem ht
    rw [gcDeleteGcThreadNoFree_spec hi (H.index_lt _) hB] at hr
    cases hr
    exact ⟨_, (hi.closeHandle _).unlink (H.index_lt _) hB, hi.not_mem_unlink (H.index_lt _) hB⟩
  · rw [gcDeleteGcThreadNoFree_unlinked hi ht] at hr
    cases hr

/-- A `GC_delete_thread(id)` that returns keeps the invariant. -/
theorem TableInv.of_deleteThread (hi : TableInv H s B) {id : Nat} {s' : ThreadTable}
    (hr : gcDeleteThread H s id = .ok s') : ∃ B', TableInv H s' B' := by
  cases hfd : (B (H.index id)).find? fun q => (s.rep q).id == id with
  | none =>
    have hlen := hi.length_lt_fuel (H.index_lt id)
    simp [gcDeleteThread, findPrevBy_chain_none
      (fun q => (s.rep q).id == id) (hi.chain _ (H.index_lt id))
      (fun q hq => by simpa using List.find?_eq_none.mp hfd q hq) hlen] at hr
  | some p =>
    obtain ⟨hp, pre, post, hB, hpre⟩ := List.find?_eq_some.mp hfd
    rw [gcDeleteThread_spec hi hB (by simpa using hp) (fun q hq => by simpa using hpre q hq)] at hr
    cases hr
    exact ⟨_, gcDeleteThread_inv hi hB⟩

variable (H)

/-- One explicit-mode table operation, with the answers of `DuplicateHandle` and
of the allocator it receives. -/
inductive TableOp where
  /-- `GC_register_my_thread_inner`, hence `GC_new_thread`. -/
  | registerInner (sb id self : Nat) (dup : Option Nat) (alloc : Option Ptr)
  /-- `GC_delete_thread`. -/
  | deleteThread (id : Nat)
  /-- `GC_delete_gc_thread_no_free`. -/
  | deleteGcThreadNoFree (t : Ptr)
  /-- `GC_remove_all_threads_but_me`. -/
  | removeAllThreadsButMe (self selfId : Nat) (dup : Option Nat)

/-- Run one table operation. -/
def applyTableOp (s : ThreadTable) : TableOp → Except Fault ThreadTable
  | .registerInner sb id self dup alloc =>
    (gcRegisterMyThreadInner H s sb id self dup alloc).map Prod.fst
  | .deleteThread id => gcDeleteThread H s id
  | .deleteGcThreadNoFree t => gcDeleteGcThreadNoFree H s t
  | .removeAllThreadsButMe self selfId dup => gcRemoveAllThreadsButMe H s self selfId dup

/-- The allocator answer an operation carries is one `GC_INTERNAL_MALLOC` can give. -/
def TableOp.Feasible (s : ThreadTable) : TableOp → Prop
  | .registerInner _ _ _ _ alloc => AllocAnswer s alloc
  | _ => True

instance TableOp.decidableFeasible (s : ThreadTable) : (op : TableOp) → Decidable (op.Feasible s)
  | .registerInner _ _ _ _ none => isTrue trivial
  | .registerInner _ _ _ _ (some p) =>
    inferInstanceAs (Decidable (p ∉ s.allocated ∧ p ≠ firstThread))
  | .deleteThread _ | .deleteGcThreadNoFree _ | .removeAllThreadsButMe .. => isTrue trivial

/-- The tables reached from the initial one by table operations that return. -/
inductive TableReachable : ThreadTable → Prop
  | init : TableReachable ThreadTable.init
  | step {s s' : ThreadTable} {op : TableOp} : TableReachable s → op.Feasible s →
      applyTableOp H s op = .ok s' → TableReachable s'

/-- Run table operations in order: `none` at the first allocator answer `GC_INTERNAL_MALLOC`
cannot give, the fault if one faults. -/
def runTableOps (s : ThreadTable) : List TableOp → Option (Except Fault ThreadTable)
  | [] => some (.ok s)
  | op :: ops =>
    if op.Feasible s then
      match applyTableOp H s op with
      | .ok s' => runTableOps s' ops
      | .error e => some (.error e)
    else none

variable {H}

/-- The initial table, every bucket empty, satisfies the invariant. -/
theorem tableInv_init : TableInv H ThreadTable.init fun _ => [] :=
  ⟨fun _ _ => .nil, by simp, by simp⟩

/-- Every table operation that returns keeps the invariant. -/
theorem TableInv.applyTableOp (hi : TableInv H s B) {op : TableOp} (hf : op.Feasible s)
    {s' : ThreadTable} (hr : applyTableOp H s op = .ok s') : ∃ B', TableInv H s' B' := by
  cases op with
  | registerInner sb id self dup alloc =>
    obtain ⟨⟨_, _⟩, he, rfl⟩ := except_map_eq_ok.mp hr
    exact ⟨_, (gcRegisterMyThreadInner_spec hi hf he).2.1⟩
  | deleteThread id => exact hi.of_deleteThread hr
  | deleteGcThreadNoFree t => exact (hi.of_deleteNoFree hr).imp fun _ => And.left
  | removeAllThreadsButMe self selfId dup =>
    obtain ⟨me, hd, hme, rfl⟩ := gcRemoveAllThreadsButMe_found hi hr
    obtain ⟨s'', he, hinv, -⟩ := gcRemoveAllThreadsButMe_spec hi selfId hd hme
    rw [Win32GcThreads.applyTableOp, he] at hr
    cases hr
    exact ⟨_, hinv⟩

/-- Every reachable table satisfies the invariant for some view of its buckets. -/
theorem TableReachable.inv {s : ThreadTable} (hr : TableReachable H s) : ∃ B, TableInv H s B := by
  induction hr with
  | init => exact ⟨_, tableInv_init⟩
  | step _ hf he ih => obtain ⟨B, hi⟩ := ih; exact hi.applyTableOp hf he

/-- A run of table operations that succeeds from a reachable table ends in a reachable table. -/
theorem TableReachable.run {s s' : ThreadTable} (hr : TableReachable H s) (ops : List TableOp)
    (h : runTableOps H s ops = some (.ok s')) : TableReachable H s' := by
  induction ops generalizing s with
  | nil => cases h; exact hr
  | cons op ops ih =>
    simp only [runTableOps] at h
    split at h
    · split at h
      · exact ih (hr.step ‹_› ‹_›) h
      · cases h
    · cases h

end Runs

section Main

theorem erase_middle {pre post : List Ptr} {t : Ptr} (ht : t ∉ pre) :
    (pre ++ t :: post).erase t = pre ++ post := by
  rw [List.erase_append_right _ ht, List.erase_cons_head]

variable (H) in
/-- Every bucket of `GC_threads` is a finite acyclic chain, no record is linked
twice, and every record sits in the bucket of its id (`TableInv` over bucket lists
`B`). Consequently the unlink loop of `GC_delete_gc_thread_no_free` reaches any
linked record without dereferencing NULL and removes exactly it, and
`GC_delete_thread` of a present id removes exactly the first record of its bucket
carrying the id, freeing it unless it is `first_thread`; every other record keeps its
bucket and its place in the chain. -/
def TableWellFormed (s : ThreadTable) : Prop :=
  ∃ B, TableInv H s B ∧ (tableRecords H B).Nodup ∧
    (∀ h < H.size, ∀ t ∈ B h, ∃ s', gcDeleteGcThreadNoFree H s t = .ok s' ∧
      TableInv H s' (Function.update B h ((B h).erase t)) ∧ s'.freed = s.freed) ∧
    (∀ id p, (B (H.index id)).find? (fun q => (s.rep q).id == id) = some p →
      ∃ s', gcDeleteThread H s id = .ok s' ∧
        TableInv H s' (Function.update B (H.index id) ((B (H.index id)).erase p)) ∧
        s'.freed = s.freed ++ (if p = firstThread then [] else [p]))

/-- Every table satisfying the invariant is well formed. -/
theorem TableInv.wellFormed (hi : TableInv H s B) : TableWellFormed H s := by
  refine ⟨B, hi, hi.nodup, fun h hh t ht => ?_, fun id p hfd => ?_⟩
  · obtain ⟨pre, post, hB⟩ := List.append_of_mem ht
    have htp : t ∉ pre := by
      have := (hi.chain h hh).nodup; rw [hB] at this
      exact fun hm => (List.nodup_middle.mp this |> List.nodup_cons.mp).1 (List.mem_append_left _ hm)
    refine ⟨_, gcDeleteGcThreadNoFree_spec hi hh hB, ?_, by simp⟩
    rw [hB, erase_middle htp]
    exact (hi.closeHandle _).unlink hh hB
  · obtain ⟨hp, pre, post, hB, hpre⟩ := List.find?_eq_some.mp hfd
    have hpp : p ∉ pre := fun hm => by simpa [hp] using hpre p hm
    refine ⟨_, gcDeleteThread_spec hi hB (by simpa using hp) (fun q hq => by simpa using hpre q hq),
      by rw [hB, erase_middle hpp]; exact gcDeleteThread_inv hi hB, ?_⟩
    unfold deleteFound
    split <;> simp_all

/-- Over every sequence of explicit-mode table operations the table is well formed. -/
theorem threadTable_wellFormed {s : ThreadTable} (hr : TableReachable H s) :
    TableWellFormed H s :=
  let ⟨_, hi⟩ := hr.inv
  hi.wellFormed

/-- Ids `1`, `257` and `513` share bucket `1` of `lowByteHash`: the main thread registers
with `first_thread`, two threads with the heap records `2` and `3`, each pushed in front of the
bucket, and `GC_delete_thread(257)` unlinks record `2` from between the other two. -/
def collisionOps : List TableOp :=
  [.registerInner 0x10000 1 100 (some 11) none, .registerInner 0x20000 257 101 (some 12) (some 2),
    .registerInner 0x30000 513 102 (some 13) (some 3), .deleteThread 257]

/-- After `collisionOps` bucket `1` links record `3` and then `first_thread`, record `2` is
freed, and the table is well formed. -/
theorem threadTable_wellFormed_collision :
    ∃ s, runTableOps lowByteHash ThreadTable.init collisionOps = some (.ok s) ∧
      s.heads 1 = some 3 ∧ s.next 3 = some firstThread ∧ s.next firstThread = none ∧
      s.freed = [2] ∧ TableWellFormed lowByteHash s :=
  ⟨_, rfl, rfl, rfl, rfl, rfl, threadTable_wellFormed (TableReachable.init.run collisionOps rfl)⟩

end Main

end Win32GcThreads
