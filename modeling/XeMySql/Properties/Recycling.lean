import XeMySql.CPool
import XeMySql.Lib.Ledger
import Mathlib.Order.Bounds.Basic

/-!
# The life of a `CPool`

What holds after any sequence of calls on a pool, whatever the memory held that it was constructed
in.

* `alloc_fresh` — an object is in the free list or held, never both, never twice
* `created_isLeast_iff` — how many objects are created, and when that is what `nCount` asks for
* `deleted_once_iff` — when `Purge` and the destructor delete every object once
-/

namespace XeMySql

open Ledger

/-- A call on a pool: what `Alloc` returned, what `Free` was given, what `Purge` deleted. -/
inductive CPoolCall where
  | alloc (k : Nat)
  | free (k : Nat)
  | step
  | purge (deleted : List Nat)

namespace CPool

/--
A pool constructed in memory that held `garbage`, after the calls `cs`, the latest first. The objects
`held` have been returned by `Alloc` and not been given back; `Free` is only given one of these.
-/
inductive Used (garbage nCount : Nat) : List CPoolCall → CPool → List Nat → Prop
  | new : Used garbage nCount [] (new garbage nCount) []
  | alloc {cs p held k p'} (h : Used garbage nCount cs p held) (ha : p.alloc = some (k, p')) :
    Used garbage nCount (.alloc k :: cs) p' (k :: held)
  | free {cs p held k} (h : Used garbage nCount cs p held) (hk : k ∈ held) :
    Used garbage nCount (.free k :: cs) (p.free k) (held.erase k)
  | step {cs p held} (h : Used garbage nCount cs p held) :
    Used garbage nCount (.step :: cs) p.step held
  | purge {cs p held} (h : Used garbage nCount cs p held) :
    Used garbage nCount (.purge p.purge.1 :: cs) p.purge.2 held

variable {garbage nCount : Nat} {cs : List CPoolCall} {p : CPool} {held : List Nat}

/-! ## One holder -/

/-- Every object is in the free list or held. -/
structure Accounted (p : CPool) (held : List Nat) : Prop where
  perm : (p.m_FreeList ++ held).Perm (List.range p.created)
  step_pos : 0 < p.m_nStepCount

theorem range_append_range' (m n : Nat) :
    List.range m ++ List.range' m n = List.range (m + n) := by
  have h := List.range'_append_1 (s := 0) (m := m) (n := n)
  rwa [Nat.zero_add, ← List.range_eq_range', ← List.range_eq_range'] at h

/-- New objects are in the free list. -/
theorem Accounted.pushNew (h : Accounted p held) (n : Nat) : Accounted (pushNew n p) held := by
  rw [pushNew_eq]
  refine ⟨?_, h.step_pos⟩
  calc p.m_FreeList ++ List.range' p.created n ++ held
    _ = p.m_FreeList ++ (List.range' p.created n ++ held) := List.append_assoc ..
    List.Perm _ (p.m_FreeList ++ (held ++ List.range' p.created n)) :=
      List.perm_append_comm.append_left _
    _ = p.m_FreeList ++ held ++ List.range' p.created n := (List.append_assoc ..).symm
    List.Perm _ (List.range p.created ++ List.range' p.created n) := h.perm.append_right _
    _ = List.range (p.created + n) := range_append_range' ..

/-- The front of the free list comes to be held. -/
theorem Accounted.pop {k : Nat} {rest : List Nat} (h : Accounted p held)
    (hl : p.m_FreeList = k :: rest) : Accounted { p with m_FreeList := rest } (k :: held) := by
  refine ⟨?_, h.step_pos⟩
  calc rest ++ k :: held
    List.Perm _ (k :: (rest ++ held)) := List.perm_middle
    _ = p.m_FreeList ++ held := by rw [hl, List.cons_append]
    List.Perm _ (List.range p.created) := h.perm

theorem Accounted.alloc {p' : CPool} {k : Nat} (h : Accounted p held)
    (ha : p.alloc = some (k, p')) : Accounted p' (k :: held) := by
  rcases alloc_cases ha with ⟨rest, hl, rfl⟩ | ⟨hl, rfl, n, hn, rfl⟩
  · exact h.pop hl
  · -- the list has run out: the step first, then its first object
    have hstep := h.pushNew (n + 1)
    rw [pushNew_eq, hl, List.nil_append] at hstep
    exact hstep.pop List.range'_succ

theorem Accounted.free {k : Nat} (h : Accounted p held) (hk : k ∈ held) :
    Accounted (p.free k) (held.erase k) := by
  refine ⟨?_, h.step_pos⟩
  calc p.m_FreeList ++ [k] ++ held.erase k
    _ = p.m_FreeList ++ (k :: held.erase k) := by rw [List.append_assoc, List.singleton_append]
    List.Perm _ (p.m_FreeList ++ held) := (List.perm_cons_erase hk).symm.append_left _
    List.Perm _ (List.range p.created) := h.perm

/-- **Every object is in the free list or held**, after any calls. -/
theorem Used.accounted (h : Used garbage nCount cs p held) : Accounted p held := by
  induction h with
  | new => exact ⟨by simp, (wellFormed_new garbage nCount).step_pos⟩
  | alloc h ha ih => exact ih.alloc ha
  | free h hk ih => exact ih.free hk
  | step h ih => exact ih.pushNew _
  | purge h ih => exact ih

theorem Accounted.nodup (h : Accounted p held) : (p.m_FreeList ++ held).Nodup :=
  h.perm.nodup_iff.mpr List.nodup_range

theorem Accounted.wellFormed (h : Accounted p held) : p.WellFormed := by
  refine ⟨h.nodup.of_append_left, fun k hk => ?_, h.step_pos⟩
  have hr : k ∈ List.range p.created := h.perm.mem_iff.mp (List.mem_append_left _ hk)
  exact List.mem_range.mp hr

/-- What `Alloc` returns is not held. -/
theorem Accounted.alloc_not_mem {p' : CPool} {k : Nat} (h : Accounted p held)
    (ha : p.alloc = some (k, p')) : k ∉ held := by
  have hnd := (h.alloc ha).nodup.of_append_right
  exact (List.nodup_cons.mp hnd).1

/-- **Each object has one holder.** After any calls, `Alloc` does not take the front of an empty list
and does not return an object that is held, and the free list with the held objects is all that has
been created, each object once. -/
theorem alloc_fresh (h : Used garbage nCount cs p held) :
    (∃ k p', p.alloc = some (k, p') ∧ k ∉ held) ∧
      (p.m_FreeList ++ held).Nodup ∧ ∀ k, k ∈ p.m_FreeList ++ held ↔ k < p.created := by
  have hacc := h.accounted
  refine ⟨?_, hacc.nodup, fun k => ?_⟩
  · obtain ⟨⟨k, p'⟩, ha⟩ := Option.isSome_iff_exists.mp hacc.wellFormed.alloc_isSome
    exact ⟨k, p', ha, hacc.alloc_not_mem ha⟩
  · rw [hacc.perm.mem_iff, List.mem_range]

/-- A pool whose only object is held. -/
theorem alloc_fresh_used_up :
    (∃ k p', (⟨[], 1, 1, 1⟩ : CPool).alloc = some (k, p') ∧ k ∉ [0]) ∧
      ([] ++ [0]).Nodup ∧ ∀ k, k ∈ [] ++ [0] ↔ k < 1 :=
  alloc_fresh (.alloc .new rfl : Used 0 1 [.alloc 0] ⟨[], 1, 1, 1⟩ [0])

/-! ## How many objects -/

/-- Only calls of `Alloc` and `Free`. -/
def AllocFree : List CPoolCall → Prop
  | [] => True
  | .alloc _ :: cs => AllocFree cs
  | .free _ :: cs => AllocFree cs
  | _ :: _ => False

/-- How many objects are held after the calls. -/
def holding : List CPoolCall → Nat
  | [] => 0
  | .alloc _ :: cs => holding cs + 1
  | .free _ :: cs => holding cs - 1
  | _ :: cs => holding cs

/-- How many objects have been held at most. -/
def peak : List CPoolCall → Nat
  | [] => 0
  | c :: cs => max (holding (c :: cs)) (peak cs)

/-- `d` rounded up to a multiple of `s`. -/
def roundUp (s d : Nat) : Nat := (d + s - 1) / s * s

theorem Used.length_held (h : Used garbage nCount cs p held) : held.length = holding cs := by
  induction h with
  | new => rfl
  | alloc h ha ih => exact congrArg (· + 1) ih
  | free h hk ih =>
    rw [List.length_erase_of_mem hk, ih]
    rfl
  | step h ih => exact ih
  | purge h ih => exact ih

theorem Accounted.created_eq (h : Accounted p held) :
    p.created = p.m_FreeList.length + held.length := by
  have hlen := h.perm.length_eq
  rw [List.length_append, List.length_range] at hlen
  exact hlen.symm

/-- A pool that has grown by steps of `s`, and no further than the peak made it grow. -/
structure Grown (s nCount peak : Nat) (p : CPool) : Prop where
  step_eq : p.m_nStepCount = s
  size : ∃ k, p.created = nCount + k * s
  enough : peak ≤ p.created
  needed : p.created = nCount ∨ p.created < peak + s

/-- The peak may rise within what has been created, whatever is free. -/
theorem Grown.raise {s m m' : Nat} (h : Grown s nCount m p) (hm : m ≤ m') (hc : m' ≤ p.created)
    (free : List Nat) : Grown s nCount m' { p with m_FreeList := free } := by
  refine ⟨h.step_eq, h.size, hc, h.needed.imp_right fun hlt => ?_⟩
  show p.created < m' + s
  omega

theorem Grown.alloc {s : Nat} {p' : CPool} {k m : Nat} (h : Grown s nCount m p)
    (hacc : Accounted p held) (ha : p.alloc = some (k, p')) :
    Grown s nCount (max (held.length + 1) m) p' := by
  have hlen := hacc.created_eq
  have henough := h.enough
  rcases alloc_cases ha with ⟨rest, hl, rfl⟩ | ⟨hl, rfl, n, hn, rfl⟩
  · rw [hl, List.length_cons] at hlen
    exact h.raise (Nat.le_max_right ..) (by omega) rest
  · -- all objects are held, so the new one makes a peak
    rw [hl, List.length_nil, Nat.zero_add] at hlen
    have hs : n + 1 = s := hn.symm.trans h.step_eq
    obtain ⟨j, hj⟩ := h.size
    refine ⟨h.step_eq, ⟨j + 1, ?_⟩, ?_, Or.inr ?_⟩
    · show p.created + (n + 1) = nCount + (j + 1) * s
      rw [hs, hj, Nat.add_mul, Nat.one_mul, Nat.add_assoc]
    · show max (held.length + 1) m ≤ p.created + (n + 1)
      omega
    · show p.created + (n + 1) < max (held.length + 1) m + s
      omega

/-- **How a pool grows.** The step it grows by comes from the memory it was constructed in. -/
theorem Used.grown (h : Used garbage nCount cs p held) (hcs : AllocFree cs) :
    Grown (max 1 (garbage / 10)) nCount (peak cs) p := by
  induction h with
  | new =>
    refine ⟨?_, ⟨0, by simp⟩, Nat.zero_le _, Or.inl (new_created ..)⟩
    rw [CPool.new, create, pushNew_eq]
  | @alloc cs p held k p' h ha ih =>
    have hg := (ih hcs).alloc h.accounted ha
    rwa [h.length_held] at hg
  | @free cs p held k h hk ih =>
    have hg := ih hcs
    have hle : holding (.free k :: cs) ≤ p.created := by
      have := h.accounted.created_eq
      rw [h.length_held] at this
      show holding cs - 1 ≤ p.created
      omega
    exact hg.raise (Nat.le_max_right ..) (Nat.max_le.mpr ⟨hle, hg.enough⟩) _
  | step h ih => exact hcs.elim
  | purge h ih => exact hcs.elim

/-- The sizes a pool of `n` objects can have that grows by `s`, as long as they are enough for `m`. -/
def sizes (s n m : Nat) : Set Nat := {x | (∃ k, x = n + k * s) ∧ m ≤ x}

theorem Grown.isLeast {s m : Nat} (h : Grown s nCount m p) :
    IsLeast (sizes s nCount m) p.created := by
  refine ⟨⟨h.size, h.enough⟩, ?_⟩
  rintro x ⟨⟨j, rfl⟩, hx⟩
  obtain ⟨k, hk⟩ := h.size
  rcases h.needed with hn | hn
  · omega
  · have hlt : k * s < (j + 1) * s := by
      rw [Nat.add_mul]
      omega
    have hle : k * s ≤ j * s :=
      Nat.mul_le_mul_right s (Nat.le_of_lt_succ (Nat.lt_of_mul_lt_mul_right hlt))
    omega

theorem roundUp_spec {s : Nat} (hs : 0 < s) (d : Nat) : d ≤ roundUp s d ∧ roundUp s d < d + s := by
  have hdm := Nat.div_add_mod (d + s - 1) s
  have hlt := Nat.mod_lt (d + s - 1) hs
  rw [Nat.mul_comm] at hdm
  unfold roundUp
  omega

theorem isLeast_sizes {s : Nat} (hs : 0 < s) (n m : Nat) :
    IsLeast (sizes s n m) (n + roundUp s (m - n)) := by
  obtain ⟨h1, h2⟩ := roundUp_spec hs (m - n)
  refine ⟨⟨⟨_, rfl⟩, by omega⟩, ?_⟩
  rintro x ⟨⟨j, rfl⟩, hx⟩
  have hlt : (m - n + s - 1) / s * s < (j + 1) * s := by
    rw [Nat.add_mul]
    unfold roundUp at h2
    omega
  have hle : roundUp s (m - n) ≤ j * s :=
    Nat.mul_le_mul_right s (Nat.le_of_lt_succ (Nat.lt_of_mul_lt_mul_right hlt))
  omega

/-- **How many objects are created**, as a closed formula. -/
theorem Used.created_eq (h : Used garbage nCount cs p held) (hcs : AllocFree cs) :
    p.created = nCount + roundUp (max 1 (garbage / 10)) (peak cs - nCount) := by
  have hs : 0 < max 1 (garbage / 10) := Nat.le_max_left ..
  exact (h.grown hcs).isLeast.unique (isLeast_sizes hs ..)

/-- **When the pool grows as `nCount` asks for**: the objects it lacks at its peak come to the same
number in steps of `garbage / 10` and in steps of `nCount / 10`. -/
theorem created_isLeast_iff (h : Used garbage nCount cs p held) (hcs : AllocFree cs) :
    IsLeast (sizes (max 1 (nCount / 10)) nCount (peak cs)) p.created ↔
      roundUp (max 1 (garbage / 10)) (peak cs - nCount) =
        roundUp (max 1 (nCount / 10)) (peak cs - nCount) := by
  have hleast := isLeast_sizes (Nat.le_max_left 1 (nCount / 10)) nCount (peak cs)
  have hcreated := h.created_eq hcs
  constructor
  · intro hl
    have := hl.unique hleast
    omega
  · intro he
    rwa [← he, ← hcreated] at hleast

/-- Three of three objects are held. The pool has grown by two at once, and two are what it lacked. -/
theorem created_isLeast_grown :
    ∃ p held, Used 20 1 [.alloc 0, .alloc 2, .free 0, .alloc 1, .alloc 0] p held ∧ p.created = 3 ∧
      (IsLeast (sizes (max 1 (1 / 10)) 1 (peak [.alloc 0, .alloc 2, .free 0, .alloc 1, .alloc 0]))
          p.created ↔
        roundUp (max 1 (20 / 10)) (peak [.alloc 0, .alloc 2, .free 0, .alloc 1, .alloc 0] - 1) =
          roundUp (max 1 (1 / 10)) (peak [.alloc 0, .alloc 2, .free 0, .alloc 1, .alloc 0] - 1)) := by
  have hgrown : Used 20 1 [.alloc 1, .alloc 0] ⟨[2], 1, 2, 3⟩ [1, 0] :=
    .alloc (p := ⟨[], 1, 2, 1⟩) (.alloc .new rfl) rfl
  have hfree : Used 20 1 [.free 0, .alloc 1, .alloc 0] ⟨[2, 0], 1, 2, 3⟩ [1] :=
    .free hgrown (by decide)
  have hused : Used 20 1 [.alloc 0, .alloc 2, .free 0, .alloc 1, .alloc 0] ⟨[], 1, 2, 3⟩ [0, 2, 1] :=
    .alloc (p := ⟨[0], 1, 2, 3⟩) (.alloc hfree rfl) rfl
  exact ⟨_, _, hused, rfl, created_isLeast_iff hused trivial⟩

/-- Two objects are held, and three have been created. -/
theorem created_not_isLeast :
    ∃ garbage cs p held, Used garbage 1 cs p held ∧ AllocFree cs ∧
      ¬ IsLeast (sizes (max 1 (1 / 10)) 1 (peak cs)) p.created := by
  refine ⟨20, [.alloc 1, .alloc 0], ⟨[2], 1, 2, 3⟩, [1, 0], ?_, trivial, ?_⟩
  · exact .alloc (p := ⟨[], 1, 2, 1⟩) (.alloc .new rfl) rfl
  · intro hl
    have h2 : (2 : Nat) ∈ sizes (max 1 (1 / 10)) 1 (peak [.alloc 1, .alloc 0]) := ⟨⟨1, rfl⟩, by decide⟩
    exact absurd (hl.2 h2) (by decide)

/-! ## Deleting -/

/-- What the calls do with objects after their construction: `Alloc` hands them out, `Purge` deletes
them. -/
def books : List CPoolCall → List (Deal Nat)
  | [] => []
  | .alloc k :: cs => .use k :: books cs
  | .purge deleted :: cs => deleted.map .release ++ books cs
  | _ :: cs => books cs

theorem released_map_release (objs : List Nat) (l : List (Deal Nat)) :
    released (objs.map .release ++ l) = objs ++ released l := by
  induction objs with
  | nil => rfl
  | cons k objs ih => exact congrArg (k :: ·) ih

theorem clean_map_release (objs : List Nat) (l : List (Deal Nat)) :
    Clean (objs.map .release ++ l) ↔ objs.Nodup ∧ (∀ k ∈ objs, k ∉ released l) ∧ Clean l := by
  induction objs with
  | nil => simp
  | cons k objs ih =>
    show (k ∉ released (objs.map .release ++ l) ∧ Clean (objs.map .release ++ l)) ↔ _
    rw [ih, released_map_release, List.mem_append, List.nodup_cons, List.forall_mem_cons]
    tauto

/-- As long as nothing is deleted twice or handed out after that, what has been deleted is in the free
list. -/
theorem Used.released_subset (h : Used garbage nCount cs p held) (hc : Clean (books cs)) :
    released (books cs) ⊆ p.m_FreeList := by
  induction h with
  | new => exact List.nil_subset _
  | @alloc cs p held k p' h ha ih =>
    intro j hj
    have hne : j ≠ k := fun he => hc.1 (he ▸ hj)
    exact ((h.accounted.wellFormed.alloc_spec ha).2.2.2.2.2 j hne).mpr (Or.inl (ih hc.2 hj))
  | free h hk ih => exact List.subset_append_of_subset_left _ (ih hc)
  | @step cs p held h ih =>
    show released (books cs) ⊆ p.step.m_FreeList
    rw [CPool.step, pushNew_eq]
    exact List.subset_append_of_subset_left _ (ih hc)
  | @purge cs p held h ih =>
    show released (p.m_FreeList.map .release ++ books cs) ⊆ p.m_FreeList
    rw [released_map_release]
    exact List.append_subset.mpr ⟨List.Subset.refl _, ih ((clean_map_release _ _).mp hc).2.2⟩

/-- What has been purged has been deleted. -/
theorem mem_released_of_purge {objs : List Nat} {k : Nat} (h : .purge objs ∈ cs) (hk : k ∈ objs) :
    k ∈ released (books cs) := by
  induction cs with
  | nil => cases h
  | cons c cs ih =>
    rcases List.mem_cons.mp h with rfl | hm
    · show k ∈ released (objs.map .release ++ books cs)
      rw [released_map_release]
      exact List.mem_append_left _ hk
    · cases c with
      | purge deleted =>
        show k ∈ released (deleted.map .release ++ books cs)
        rw [released_map_release]
        exact List.mem_append_right _ (ih hm)
      | _ => exact ih hm

/-- Where no `Purge` finds anything, nothing is deleted. -/
theorem released_of_empty (h : ∀ objs, .purge objs ∈ cs → objs = []) :
    released (books cs) = [] ∧ Clean (books cs) := by
  induction cs with
  | nil => exact ⟨rfl, trivial⟩
  | cons c cs ih =>
    obtain ⟨hr, hc⟩ := ih fun objs hm => h objs (List.mem_cons_of_mem _ hm)
    cases c with
    | alloc k => exact ⟨hr, hr ▸ List.not_mem_nil, hc⟩
    | purge deleted =>
      obtain rfl := h deleted List.mem_cons_self
      exact ⟨hr, hc⟩
    | _ => exact ⟨hr, hc⟩

/-- **When every object is deleted once and none is handed out afterwards**: every `Purge` before the
one of the destructor finds the free list empty. -/
theorem deleted_once_iff (h : Used garbage nCount cs p held) :
    Clean (books (.purge p.purge.1 :: cs)) ↔ ∀ objs, .purge objs ∈ cs → objs = [] := by
  show Clean (p.m_FreeList.map .release ++ books cs) ↔ _
  rw [clean_map_release]
  constructor
  · rintro ⟨-, hnew, hc⟩ objs hm
    refine List.eq_nil_iff_forall_not_mem.mpr fun k hk => ?_
    have hr := mem_released_of_purge hm hk
    exact hnew k (h.released_subset hc hr) hr
  · intro he
    obtain ⟨hr, hc⟩ := released_of_empty he
    exact ⟨h.accounted.nodup.of_append_left, fun k _ => hr ▸ List.not_mem_nil, hc⟩

/-- The only object is held when the pool is purged, and comes back before it is destroyed. -/
theorem deleted_once_held :
    Clean (books [.purge [0], .free 0, .purge [], .alloc 0]) ↔
      ∀ objs : List Nat, .purge objs ∈ ([.free 0, .purge [], .alloc 0] : List CPoolCall) → objs = [] := by
  have halloc : Used 0 1 [.alloc 0] ⟨[], 1, 1, 1⟩ [0] := .alloc .new rfl
  have hfree : Used 0 1 [.free 0, .purge [], .alloc 0] ⟨[0], 1, 1, 1⟩ [] :=
    halloc.purge.free (List.mem_singleton.mpr rfl)
  exact deleted_once_iff hfree

/-- A pool of one object that is purged before it is destroyed. -/
theorem deleted_twice :
    ∃ cs p held, Used 0 1 cs p held ∧ ¬ Clean (books (.purge p.purge.1 :: cs)) := by
  refine ⟨[.purge [0]], new 0 1, [], .purge .new, ?_⟩
  rintro ⟨h, -⟩
  exact h (List.mem_singleton.mpr rfl)

end CPool

end XeMySql
