import Mathlib.Data.List.Nodup

/-!
# `CPool` (`CPool.h`)

A list of recycled objects that grows when it runs out. Objects are numbered in the order in which
`new T` made them. Every method but `Purge` takes the lock `m_cs` in its first line and keeps it to
its end, so a method is one step of a run, and `Alloc` calls `Step` under a lock it has already
entered.

* `CPool.alloc_cases` — what `Alloc` does to the free list
* `CPool.WellFormed` — the free list names created objects, each at most once
-/

namespace XeMySql

/-- `template<class T> class CPool`; the objects are numbers. -/
structure CPool where
  m_FreeList : List Nat
  m_nCount : Nat
  m_nStepCount : Nat
  /-- how many objects `new T` has made for this pool -/
  created : Nat
deriving DecidableEq

namespace CPool

/-- `n` times `new T` and `m_FreeList.push_back`, the loop of `Create` and `Step`. -/
def pushNew : Nat → CPool → CPool
  | 0, p => p
  | n + 1, p =>
    pushNew n { p with m_FreeList := p.m_FreeList ++ [p.created], created := p.created + 1 }

/-- `CPool::Create` -/
def create (p : CPool) : CPool := pushNew p.m_nCount p

/-- `CPool::Step` -/
def step (p : CPool) : CPool := pushNew p.m_nStepCount p

/--
`CPool::CPool(nCount)`. The step is computed from `m_nStepCount` itself, before anything has been
stored in it: `garbage` is what the memory held.
-/
def new (garbage nCount : Nat) : CPool :=
  create ⟨[], nCount, max 1 (garbage / 10), 0⟩

/-- `CPool::Alloc`; `none` is `front()` of an empty list. -/
def alloc (p : CPool) : Option (Nat × CPool) :=
  let p := if p.m_FreeList.isEmpty then p.step else p
  match p.m_FreeList with
  | [] => none
  | data :: rest => some (data, { p with m_FreeList := rest })

/-- `CPool::Free` -/
def free (data : Nat) (p : CPool) : CPool := { p with m_FreeList := p.m_FreeList ++ [data] }

/-- `CPool::Purge`: the objects it deletes, and the pool afterwards. What is deleted and set to NULL
is a copy of each pointer of the list. -/
def purge (p : CPool) : List Nat × CPool := (p.m_FreeList, p)

/-! ## Growing -/

theorem pushNew_eq (n : Nat) (p : CPool) :
    pushNew n p = { p with
      m_FreeList := p.m_FreeList ++ List.range' p.created n, created := p.created + n } := by
  induction n generalizing p with
  | zero => simp [pushNew]
  | succ n ih =>
    rw [pushNew, ih]
    simp [List.range'_succ, Nat.add_assoc, Nat.add_comm 1 n]

/-- The free list names created objects, each at most once, and a step makes at least one more. -/
structure WellFormed (p : CPool) : Prop where
  nodup : p.m_FreeList.Nodup
  created : ∀ k ∈ p.m_FreeList, k < p.created
  step_pos : 0 < p.m_nStepCount

theorem WellFormed.pushNew {p : CPool} (h : p.WellFormed) (n : Nat) :
    (pushNew n p).WellFormed := by
  rw [pushNew_eq]
  refine ⟨?_, ?_, h.step_pos⟩
  · refine List.nodup_append.mpr ⟨h.nodup, List.nodup_range', ?_⟩
    intro a ha b hb he
    have h1 := h.created a ha
    have h2 := (List.mem_range'_1.mp hb).1
    omega
  · intro k hk
    rcases List.mem_append.mp hk with hk | hk
    · exact Nat.lt_add_right n (h.created k hk)
    · exact (List.mem_range'_1.mp hk).2

/-- A new pool is well formed, whatever the memory held before. -/
theorem wellFormed_new (garbage nCount : Nat) : (new garbage nCount).WellFormed :=
  WellFormed.pushNew ⟨List.nodup_nil, by simp, Nat.le_max_left 1 _⟩ nCount

@[simp] theorem new_freeList (garbage nCount : Nat) :
    (new garbage nCount).m_FreeList = List.range nCount := by
  simp [new, create, pushNew_eq, List.range_eq_range']

@[simp] theorem new_created (garbage nCount : Nat) : (new garbage nCount).created = nCount := by
  simp [new, create, pushNew_eq]

/-! ## `Alloc` and `Free` -/

/-- What `Alloc` returns: the front of the free list, or, when that is empty, the first of the
objects it makes. -/
theorem alloc_cases {p p' : CPool} {k : Nat} (h : p.alloc = some (k, p')) :
    (∃ rest, p.m_FreeList = k :: rest ∧ p' = { p with m_FreeList := rest }) ∨
      (p.m_FreeList = [] ∧ k = p.created ∧ ∃ n, p.m_nStepCount = n + 1 ∧
        p' = { p with m_FreeList := List.range' (p.created + 1) n,
                      created := p.created + (n + 1) }) := by
  unfold alloc at h
  cases hl : p.m_FreeList with
  | cons j rest =>
    simp only [hl, List.isEmpty_cons, Bool.false_eq_true, if_false, Option.some.injEq,
      Prod.mk.injEq] at h
    obtain ⟨rfl, rfl⟩ := h
    exact Or.inl ⟨rest, rfl, rfl⟩
  | nil =>
    simp only [hl, List.isEmpty_nil, if_true, step, pushNew_eq, List.nil_append] at h
    cases hn : p.m_nStepCount with
    | zero => simp [hn] at h
    | succ n =>
      simp only [hn, List.range'_succ, Option.some.injEq, Prod.mk.injEq] at h
      obtain ⟨rfl, rfl⟩ := h
      exact Or.inr ⟨rfl, rfl, n, rfl, rfl⟩

/-- `Alloc` never takes the front of an empty list. -/
theorem WellFormed.alloc_isSome {p : CPool} (h : p.WellFormed) : p.alloc.isSome = true := by
  unfold alloc
  cases hl : p.m_FreeList with
  | cons j rest => simp [hl]
  | nil =>
    obtain ⟨n, hn⟩ : ∃ n, p.m_nStepCount = n + 1 := ⟨_, (Nat.succ_pred_eq_of_pos h.step_pos).symm⟩
    simp [step, pushNew_eq, hl, hn, List.range'_succ]

/-- The object `Alloc` returns was in the free list or is new; the others stay as they are. -/
theorem WellFormed.alloc_spec {p p' : CPool} {k : Nat} (h : p.WellFormed)
    (ha : p.alloc = some (k, p')) :
    p'.WellFormed ∧ k < p'.created ∧ k ∉ p'.m_FreeList ∧ p.created ≤ p'.created ∧
      (k ∈ p.m_FreeList ∨ p.created ≤ k) ∧
      ∀ j, j ≠ k → (j ∈ p'.m_FreeList ↔ j ∈ p.m_FreeList ∨ p.created ≤ j ∧ j < p'.created) := by
  rcases alloc_cases ha with ⟨rest, hl, rfl⟩ | ⟨hl, rfl, n, hn, rfl⟩
  · have hnd := h.nodup
    rw [hl] at hnd
    have hcr : ∀ j ∈ k :: rest, j < p.created := hl ▸ h.created
    refine ⟨⟨(List.nodup_cons.mp hnd).2, fun j hj => hcr j (by simp [hj]), h.step_pos⟩,
      hcr k (by simp), (List.nodup_cons.mp hnd).1, Nat.le_refl _, Or.inl (by simp [hl]), ?_⟩
    intro j hj
    simp only [hl, List.mem_cons, hj, false_or]
    constructor
    · exact Or.inl
    · rintro (hm | ⟨h1, h2⟩)
      · exact hm
      · omega
  · refine ⟨⟨List.nodup_range', ?_, h.step_pos⟩, by simp, ?_,
      Nat.le_add_right _ _, Or.inr (Nat.le_refl _), ?_⟩
    · intro j hj
      have := List.mem_range'_1.mp hj
      show j < p.created + (n + 1)
      omega
    · intro hm
      have := (List.mem_range'_1.mp hm).1
      omega
    · intro j hj
      simp only [List.mem_range'_1, hl, List.not_mem_nil, false_or]
      omega

@[simp] theorem mem_free {p : CPool} {j k : Nat} :
    j ∈ (p.free k).m_FreeList ↔ j ∈ p.m_FreeList ∨ j = k := by
  simp [free]

end CPool

end XeMySql
