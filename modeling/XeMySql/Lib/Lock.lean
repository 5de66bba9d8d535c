import Mathlib.Logic.Function.Basic

/-!
# Re-entrant locks with an owner

A lock is free, or held by one thread that has entered it `n + 1` times and leaves it as often.
Only the owner can enter a held lock, and only the owner can leave it.
-/

namespace Interact

/-- A re-entrant lock. `held t n`: thread `t` has entered it `n + 1` times. -/
inductive Lock (ι : Type) where
  | free
  | held (t : ι) (n : Nat)
deriving DecidableEq

namespace Lock

variable {ι : Type} {t : ι}

/-- The thread that has entered the lock. -/
def owner : Lock ι → Option ι
  | free => none
  | held t _ => some t

@[simp] theorem owner_free : (free : Lock ι).owner = none := rfl

@[simp] theorem owner_held (n : Nat) : (held t n).owner = some t := rfl

variable [DecidableEq ι]

/-- Thread `t` tries to enter: `none` when another thread is inside. -/
def tryEnter (t : ι) : Lock ι → Option (Lock ι)
  | free => some (held t 0)
  | held u n => if u = t then some (held t (n + 1)) else none

/-- Thread `t` leaves: `none` when it is not inside. -/
def leave (t : ι) : Lock ι → Option (Lock ι)
  | free => none
  | held u 0 => if u = t then some free else none
  | held u (n + 1) => if u = t then some (held t n) else none

variable {l l' : Lock ι}

@[simp] theorem tryEnter_free : (free : Lock ι).tryEnter t = some (held t 0) := rfl

/-- Entering succeeds unless another thread is inside. -/
theorem tryEnter_eq_some (h : l.tryEnter t = some l') :
    (l = free ∧ l' = held t 0) ∨ ∃ n, l = held t n ∧ l' = held t (n + 1) := by
  cases l with
  | free =>
    cases h
    exact Or.inl ⟨rfl, rfl⟩
  | held u n =>
    simp only [tryEnter, Option.ite_none_right_eq_some, Option.some.injEq] at h
    obtain ⟨rfl, rfl⟩ := h
    exact Or.inr ⟨n, rfl, rfl⟩

/-- Who has entered a lock is its owner. -/
theorem owner_of_tryEnter (h : l.tryEnter t = some l') : l'.owner = some t := by
  rcases tryEnter_eq_some h with ⟨-, rfl⟩ | ⟨n, -, rfl⟩
  · exact owner_held 0
  · exact owner_held (n + 1)

@[simp] theorem leave_held_zero : (held t 0).leave t = some free := by
  simp [leave]

/-- Who leaves a lock is the owner of what it leaves, if anybody is. -/
theorem owner_of_leave (h : l.leave t = some l') : l'.owner = none ∨ l'.owner = some t := by
  cases l with
  | free => cases h
  | held u n =>
    cases n with
    | zero =>
      simp only [leave, Option.ite_none_right_eq_some, Option.some.injEq] at h
      obtain ⟨-, rfl⟩ := h
      exact Or.inl owner_free
    | succ n =>
      simp only [leave, Option.ite_none_right_eq_some, Option.some.injEq] at h
      obtain ⟨rfl, rfl⟩ := h
      exact Or.inr (owner_held n)

/-! ## Threads inside -/

/-- The lock is held, and only once, by just the thread that is `inside`. -/
structure Guards (l : Lock ι) (inside : ι → Bool) : Prop where
  inside_iff : ∀ t, inside t = true ↔ l = held t 0
  once : ∀ t n, l = held t n → n = 0

namespace Guards

variable {inside : ι → Bool}

omit [DecidableEq ι]

theorem init : Guards (free : Lock ι) fun _ => false :=
  ⟨by simp, nofun⟩

/-- **Mutual exclusion.** -/
theorem unique (h : Guards l inside) {u : ι} (ht : inside t = true) (hu : inside u = true) :
    t = u := by
  have hl := (h.inside_iff t).mp ht
  rw [(h.inside_iff u).mp hu] at hl
  cases hl
  rfl

/-- Nobody is inside a free lock. -/
theorem not_inside (h : Guards free inside) (t : ι) : inside t = false := by
  rw [Bool.eq_false_iff]
  intro ht
  cases (h.inside_iff t).mp ht

variable [DecidableEq ι]

/-- A thread that is not inside can only enter a free lock. -/
theorem enter (h : Guards l inside) (ht : inside t = false) (hl : l.tryEnter t = some l') :
    l = free ∧ Guards l' (Function.update inside t true) := by
  rcases tryEnter_eq_some hl with ⟨rfl, rfl⟩ | ⟨n, rfl, rfl⟩
  · refine ⟨rfl, fun u => ?_, fun u n hn => ?_⟩
    · by_cases hu : u = t
      · subst hu
        simp
      · rw [Function.update_of_ne hu, h.not_inside u]
        simp [Ne.symm hu]
    · cases hn
      rfl
  · have hn := h.once t n rfl
    subst hn
    rw [(h.inside_iff t).mpr rfl] at ht
    cases ht

/-- The thread that is inside leaves a free lock behind. -/
theorem leave (h : Guards l inside) (hl : l.leave t = some l') :
    l' = free ∧ Guards l' (Function.update inside t false) := by
  cases l with
  | free => cases hl
  | held u n =>
    have hn := h.once u n rfl
    subst hn
    simp only [Lock.leave, Option.ite_none_right_eq_some, Option.some.injEq] at hl
    obtain ⟨rfl, rfl⟩ := hl
    refine ⟨rfl, fun v => ?_, nofun⟩
    by_cases hv : v = u
    · subst hv
      simp
    · rw [Function.update_of_ne hv, h.inside_iff v]
      simp [Ne.symm hv]

/-- A thread stays where it is. -/
theorem stay (h : Guards l inside) {b : Bool} (hb : b = inside t) :
    Guards l (Function.update inside t b) := by
  rw [hb, Function.update_eq_self]
  exact h

end Guards

end Lock

end Interact
