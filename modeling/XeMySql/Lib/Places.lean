import Mathlib.Data.List.Nodup
import Mathlib.Data.List.Range

/-!
# Objects that circulate

Objects `0, 1, …` wander between a pool of free ones, a queue, and the hands of threads. A location
map says where each of those created so far is, and so that it is nowhere else; `Located` says that
the pool, the queue and the hands are what the map says. Every move changes the map at one object.

* `Located.take`, `Located.give` — between the pool and a thread
* `Located.push`, `Located.pop` — between a thread and the queue
* `Located.grow` — new objects enter the pool

Where objects can also get lost, what is left is that none is in two slots at once.

* `Separate.put`, `Separate.clear`, `Separate.move` — slots are filled and emptied
-/

namespace Interact

/-- Where an object is. -/
inductive Place (ι : Type) where
  | pool
  | queue
  | hands (t : ι)
deriving DecidableEq

/-- Of the objects below `created`, the pool is `free`, the queue is `queue`, and thread `t` holds
`hold t`, each just as `loc` says. -/
structure Located {ι : Type} (loc : Nat → Place ι) (created : Nat) (free queue : List Nat)
    (hold : ι → Option Nat) : Prop where
  pool : ∀ k, k ∈ free ↔ k < created ∧ loc k = .pool
  queued : ∀ k, k ∈ queue ↔ k < created ∧ loc k = .queue
  hands : ∀ t k, hold t = some k ↔ k < created ∧ loc k = .hands t
  pool_nodup : free.Nodup
  queue_nodup : queue.Nodup

namespace Located

variable {ι : Type} {loc : Nat → Place ι} {created k : Nat} {free queue : List Nat}
  {hold : ι → Option Nat} {t : ι}

/-- All objects are in the pool. -/
theorem init (created : Nat) {free : List Nat} (hf : free.Nodup)
    (hm : ∀ k, k ∈ free ↔ k < created) :
    Located (fun _ => .pool) created free [] fun _ : ι => none where
  pool k := by simp [hm]
  queued k := by simp
  hands t k := by simp
  pool_nodup := hf
  queue_nodup := List.nodup_nil

/-- A list that `k` does not enter and was not in. -/
theorem list_of_ne {l : List Nat} {p q : Place ι} (hl : ∀ j, j ∈ l ↔ j < created ∧ loc j = p)
    (hk : loc k ≠ p) (hq : q ≠ p) (j : Nat) :
    j ∈ l ↔ j < created ∧ Function.update loc k q j = p := by
  by_cases hj : j = k
  · subst hj
    rw [Function.update_self, hl]
    simp [hk, hq]
  · rw [Function.update_of_ne hj]
    exact hl j

/-- `k` leaves a list by its front. -/
theorem tail_of_cons {l : List Nat} {p q : Place ι}
    (hl : ∀ j, j ∈ k :: l ↔ j < created ∧ loc j = p) (hn : (k :: l).Nodup) (hq : q ≠ p) (j : Nat) :
    j ∈ l ↔ j < created ∧ Function.update loc k q j = p := by
  by_cases hj : j = k
  · subst hj
    rw [Function.update_self]
    simp [(List.nodup_cons.mp hn).1, hq]
  · rw [Function.update_of_ne hj, ← hl j]
    simp [hj]

/-- `k` enters a list at its end. -/
theorem append_single {l : List Nat} {p : Place ι} (hl : ∀ j, j ∈ l ↔ j < created ∧ loc j = p)
    (hk : k < created) (j : Nat) :
    j ∈ l ++ [k] ↔ j < created ∧ Function.update loc k p j = p := by
  by_cases hj : j = k
  · subst hj
    rw [Function.update_self]
    simp [hk]
  · rw [Function.update_of_ne hj, ← hl j]
    simp [hj]

/-- `n` new objects enter the pool. -/
theorem grow (h : Located loc created free queue hold) (n : Nat) :
    Located (fun k => if k < created then loc k else .pool) (created + n)
      (free ++ List.range' created n) queue hold where
  pool k := by
    by_cases hk : k < created
    · have h1 : k < created + n := by omega
      have h2 : ¬ created ≤ k := by omega
      simp [List.mem_range'_1, h.pool, hk, h1, h2]
    · have hf : k ∉ free := fun hm => hk ((h.pool k).mp hm).1
      simp only [List.mem_append, List.mem_range'_1, hf, hk, if_false, false_or, and_true]
      omega
  queued k := by
    by_cases hk : k < created
    · simp only [h.queued, hk, if_true, true_and]
      have : k < created + n := by omega
      simp [this]
    · simp [h.queued, hk]
  hands t k := by
    by_cases hk : k < created
    · simp only [h.hands, hk, if_true, true_and]
      have : k < created + n := by omega
      simp [this]
    · simp [h.hands, hk]
  pool_nodup := by
    refine List.nodup_append.mpr ⟨h.pool_nodup, List.nodup_range', ?_⟩
    intro a ha b hb he
    have h1 := ((h.pool a).mp ha).1
    have h2 := (List.mem_range'_1.mp hb).1
    omega
  queue_nodup := h.queue_nodup

variable [DecidableEq ι]

/-- What a thread holds changes from nothing to `k`, and nobody else held `k`. -/
theorem hands_move (h : Located loc created free queue hold) (hk : k < created)
    (ht : hold t = none) (hl : ∀ u, loc k ≠ .hands u) (u : ι) (j : Nat) :
    Function.update hold t (some k) u = some j ↔
      j < created ∧ Function.update loc k (.hands t) j = .hands u := by
  by_cases hj : j = k
  · subst hj
    rw [Function.update_self]
    by_cases hu : u = t
    · subst hu
      simp [hk]
    · rw [Function.update_of_ne hu, h.hands u j]
      simp [hl u, Ne.symm hu]
  · rw [Function.update_of_ne hj]
    by_cases hu : u = t
    · subst hu
      rw [Function.update_self, ← h.hands u j, ht]
      simp [Ne.symm hj]
    · rw [Function.update_of_ne hu]
      exact h.hands u j

/-- A thread lets go of `k`. -/
theorem hands_drop (h : Located loc created free queue hold) (ht : hold t = some k)
    {p : Place ι} (hp : ∀ u, p ≠ .hands u) (u : ι) (j : Nat) :
    Function.update hold t none u = some j ↔
      j < created ∧ Function.update loc k p j = .hands u := by
  have hk := (h.hands t k).mp ht
  by_cases hj : j = k
  · subst hj
    rw [Function.update_self]
    by_cases hu : u = t
    · subst hu
      simp [hp u]
    · rw [Function.update_of_ne hu, h.hands u j, hk.2]
      simp [hp u, Ne.symm hu]
  · rw [Function.update_of_ne hj]
    by_cases hu : u = t
    · subst hu
      rw [Function.update_self, ← h.hands u j, ht]
      simp [Ne.symm hj]
    · rw [Function.update_of_ne hu]
      exact h.hands u j

/-- A new object comes into a thread's hands at once. -/
theorem hatch (h : Located loc created free queue hold) (ht : hold t = none) :
    Located (Function.update loc created (.hands t)) (created + 1) free queue
      (Function.update hold t (some created)) := by
  have hlist : ∀ {l : List Nat} {p : Place ι}, (∀ k, k ∈ l ↔ k < created ∧ loc k = p) →
      (∀ u, p ≠ .hands u) → ∀ k, k ∈ l ↔
        k < created + 1 ∧ Function.update loc created (.hands t) k = p := by
    intro l p hl hp k
    by_cases hk : k = created
    · subst hk
      rw [Function.update_self, hl]
      simp [Ne.symm (hp t)]
    · rw [Function.update_of_ne hk, hl]
      have : k < created + 1 ↔ k < created := by omega
      rw [this]
  refine ⟨hlist h.pool (by simp), hlist h.queued (by simp), ?_, h.pool_nodup, h.queue_nodup⟩
  intro u k
  by_cases hk : k = created
  · subst hk
    rw [Function.update_self]
    by_cases hu : u = t
    · subst hu
      simp
    · rw [Function.update_of_ne hu, h.hands u k]
      simp [Ne.symm hu]
  · rw [Function.update_of_ne hk]
    by_cases hu : u = t
    · subst hu
      have h1 := h.hands u k
      rw [ht] at h1
      rw [Function.update_self]
      have h2 : k < created + 1 ↔ k < created := by omega
      rw [h2, ← h1]
      simp [Ne.symm hk]
    · rw [Function.update_of_ne hu, h.hands u k]
      have : k < created + 1 ↔ k < created := by omega
      rw [this]

/-- A thread takes the front of the pool. -/
theorem take (h : Located loc created (k :: free) queue hold) (ht : hold t = none) :
    Located (Function.update loc k (.hands t)) created free queue
      (Function.update hold t (some k)) := by
  have hk := (h.pool k).mp List.mem_cons_self
  refine ⟨?_, ?_, ?_, (List.nodup_cons.mp h.pool_nodup).2, h.queue_nodup⟩
  · exact tail_of_cons h.pool h.pool_nodup (by simp)
  · exact list_of_ne h.queued (by simp [hk.2]) (by simp)
  · exact h.hands_move hk.1 ht (by simp [hk.2])

/-- A thread gives `k` back to the pool. -/
theorem give (h : Located loc created free queue hold) (ht : hold t = some k) :
    Located (Function.update loc k .pool) created (free ++ [k]) queue
      (Function.update hold t none) := by
  have hk := (h.hands t k).mp ht
  refine ⟨?_, ?_, ?_, ?_, h.queue_nodup⟩
  · exact append_single h.pool hk.1
  · exact list_of_ne h.queued (by simp [hk.2]) (by simp)
  · exact h.hands_drop ht (by simp)
  · refine List.nodup_append.mpr ⟨h.pool_nodup, by simp, ?_⟩
    intro a ha b hb he
    rw [List.mem_singleton.mp hb] at he
    rw [he] at ha
    have := ((h.pool k).mp ha).2
    rw [hk.2] at this
    cases this

/-- A thread puts `k` at the end of the queue. -/
theorem push (h : Located loc created free queue hold) (ht : hold t = some k) :
    Located (Function.update loc k .queue) created free (queue ++ [k])
      (Function.update hold t none) := by
  have hk := (h.hands t k).mp ht
  refine ⟨?_, ?_, ?_, h.pool_nodup, ?_⟩
  · exact list_of_ne h.pool (by simp [hk.2]) (by simp)
  · exact append_single h.queued hk.1
  · exact h.hands_drop ht (by simp)
  · refine List.nodup_append.mpr ⟨h.queue_nodup, by simp, ?_⟩
    intro a ha b hb he
    rw [List.mem_singleton.mp hb] at he
    rw [he] at ha
    have := ((h.queued k).mp ha).2
    rw [hk.2] at this
    cases this

/-- A thread takes the front of the queue. -/
theorem pop (h : Located loc created free (k :: queue) hold) (ht : hold t = none) :
    Located (Function.update loc k (.hands t)) created free queue
      (Function.update hold t (some k)) := by
  have hk := (h.queued k).mp List.mem_cons_self
  refine ⟨?_, ?_, ?_, h.pool_nodup, (List.nodup_cons.mp h.queue_nodup).2⟩
  · exact list_of_ne h.pool (by simp [hk.2]) (by simp)
  · exact tail_of_cons h.queued h.queue_nodup (by simp)
  · exact h.hands_move hk.1 ht (by simp [hk.2])

end Located

/-! ## Slots -/

section

variable {κ ρ : Type}

/-- No object is in two slots. -/
def Separate (slot : κ → Option ρ) : Prop :=
  ∀ k k' x, slot k = some x → slot k' = some x → k = k'

variable [DecidableEq κ] {slot : κ → Option ρ}

/-- A slot is filled with what is nowhere else, or with nothing. -/
theorem Separate.put (h : Separate slot) (k : κ) {o : Option ρ}
    (ho : ∀ x, o = some x → ∀ j, j ≠ k → slot j ≠ some x) : Separate (Function.update slot k o) := by
  intro i j x hi hj
  by_cases hik : i = k <;> by_cases hjk : j = k
  · rw [hik, hjk]
  · rw [hik, Function.update_self] at hi
    rw [Function.update_of_ne hjk] at hj
    exact absurd hj (ho x hi j hjk)
  · rw [hjk, Function.update_self] at hj
    rw [Function.update_of_ne hik] at hi
    exact absurd hi (ho x hj i hik)
  · rw [Function.update_of_ne hik] at hi
    rw [Function.update_of_ne hjk] at hj
    exact h i j x hi hj

/-- A slot is emptied. -/
theorem Separate.clear (h : Separate slot) (k : κ) : Separate (Function.update slot k none) :=
  h.put k (by simp)

/-- What is in slot `k` goes into slot `k'`. -/
theorem Separate.move (h : Separate slot) (k k' : κ) :
    Separate (Function.update (Function.update slot k none) k' (slot k)) := by
  refine (h.clear k).put k' fun x hx j _ hj => ?_
  by_cases hjk : j = k
  · rw [hjk, Function.update_self] at hj
    cases hj
  · rw [Function.update_of_ne hjk] at hj
    exact hjk (h j k x hj hx)

end

end Interact
