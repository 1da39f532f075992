import Win32GcThreads.ThreadRep
import Mathlib.Data.List.Perm.Subperm

/-!
# Pointer chains through `tm.next`

A bucket of `GC_threads` is a chain of records linked by `tm.next`. `Chain next x l`
says that following `next` from `x` visits exactly the records `l` and then reaches
NULL; a chain is therefore finite, and it is acyclic by `Chain.nodup`. The lemmas
here are the list surgery the table routines perform: pushing a record in front,
bypassing one record, and updating a link outside the chain.
-/

namespace Win32GcThreads

/-- Following `next` from `x` visits the records `l`, in order, and then NULL. -/
inductive Chain (next : Ptr → Option Ptr) : Option Ptr → List Ptr → Prop
  | nil : Chain next none []
  | cons {p : Ptr} {l : List Ptr} : Chain next (next p) l → Chain next (some p) (p :: l)

namespace Chain

variable {next : Ptr → Option Ptr}

theorem none_iff {l : List Ptr} : Chain next none l ↔ l = [] :=
  ⟨fun h => by cases h; rfl, fun h => h ▸ .nil⟩

theorem some_iff {p : Ptr} {l : List Ptr} :
    Chain next (some p) l ↔ ∃ l', l = p :: l' ∧ Chain next (next p) l' :=
  ⟨fun h => by cases h with | cons h => exact ⟨_, rfl, h⟩,
    fun ⟨_, he, h⟩ => he ▸ .cons h⟩

/-- A chain is determined by its start. -/
theorem unique {x : Option Ptr} {l₁ l₂ : List Ptr} (h₁ : Chain next x l₁)
    (h₂ : Chain next x l₂) : l₁ = l₂ := by
  induction h₁ generalizing l₂ with
  | nil => exact (none_iff.mp h₂).symm
  | cons _ ih =>
    obtain ⟨l', rfl, h'⟩ := some_iff.mp h₂
    rw [ih h']

theorem cons_inv {x : Option Ptr} {p : Ptr} {l : List Ptr} (h : Chain next x (p :: l)) :
    x = some p ∧ Chain next (next p) l := by
  cases h with | cons h => exact ⟨rfl, h⟩

/-- The part of a chain from a visited record on is the chain from that record. -/
theorem suffix {x : Option Ptr} {pre post : List Ptr} {p : Ptr}
    (h : Chain next x (pre ++ p :: post)) : Chain next (some p) (p :: post) := by
  induction pre generalizing x with
  | nil => obtain ⟨rfl, _⟩ := cons_inv h; exact h
  | cons q pre ih => exact ih (cons_inv h).2

/-- A chain that reaches NULL never revisits a record. -/
theorem nodup {x : Option Ptr} {l : List Ptr} (h : Chain next x l) : l.Nodup := by
  induction h with
  | nil => exact List.nodup_nil
  | @cons p l h ih =>
    refine List.nodup_cons.mpr ⟨fun hp => ?_, ih⟩
    obtain ⟨pre, post, rfl⟩ := List.append_of_mem hp
    have hl := congrArg List.length (unique (suffix h) (.cons h))
    simp at hl
    omega

/-- Changing the link of a record outside the chain leaves the chain. -/
theorem update_of_not_mem {x : Option Ptr} {l : List Ptr} (h : Chain next x l) {q : Ptr}
    (hq : q ∉ l) (v : Option Ptr) : Chain (Function.update next q v) x l := by
  induction h with
  | nil => exact .nil
  | @cons p l _ ih =>
    have hpq : p ≠ q := fun e => hq (e ▸ List.mem_cons_self p l)
    refine .cons ?_
    rw [Function.update_noteq hpq]
    exact ih fun hm => hq (List.mem_cons_of_mem p hm)

/-- A chain only reads the links of its own records. -/
theorem congr_next {x : Option Ptr} {l : List Ptr} (h : Chain next x l) {next' : Ptr → Option Ptr}
    (he : ∀ q ∈ l, next' q = next q) : Chain next' x l := by
  induction h with
  | nil => exact .nil
  | @cons p l _ ih =>
    refine .cons ?_
    rw [he p (List.mem_cons_self p l)]
    exact ih fun q hq => he q (List.mem_cons_of_mem p hq)

/-- Bypassing the record after a non-empty prefix, `prev->tm.next = p->tm.next`,
removes exactly that record. -/
theorem bypass {x : Option Ptr} {pre post : List Ptr} {t q : Ptr}
    (h : Chain next x (pre ++ t :: post)) (hn : (pre ++ t :: post).Nodup)
    (hq : pre.getLast? = some q) :
    Chain (Function.update next q (next t)) x (pre ++ post) := by
  induction pre generalizing x with
  | nil => simp at hq
  | cons a rest ih =>
    obtain ⟨rfl, h'⟩ := cons_inv h
    have hna : a ∉ rest ++ t :: post := (List.nodup_cons.mp hn).1
    refine .cons ?_
    cases rest with
    | nil =>
      obtain rfl : a = q := by simpa using hq
      obtain ⟨ht, hpost⟩ := cons_inv h'
      rw [Function.update_same]
      exact hpost.update_of_not_mem (fun hm => hna (by simp [hm])) _
    | cons b rest =>
      have hq' : (b :: rest).getLast? = some q := by
        simpa [List.getLast?_cons_cons] using hq
      have hqa : a ≠ q := fun e => hna (e ▸ List.mem_append_left _ (List.mem_of_getLast?_eq_some hq'))
      rw [Function.update_noteq hqa]
      exact ih h' (List.nodup_cons.mp hn).2 hq'

end Chain

end Win32GcThreads
