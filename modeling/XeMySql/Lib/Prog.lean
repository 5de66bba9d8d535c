import Mathlib.Logic.Basic

/-!
# Programs that make requests

A thread's code is a tree: it returns, or it makes a request and goes on with the answer.
The requests (`E`) and the types of their answers (`R`) are parameters, and so is everything
about the state the requests work on; that is the business of `Lib/Machine.lean`.

* `Prog.Follows` — the code keeps to a discipline, whatever the answers are
* `Prog.follows_bind` — the rule of sequential composition
* `Prog.Only.follows` — code whose requests mean nothing to a discipline keeps to it
-/

namespace Interact

/-- Code that makes requests in `E`; request `e` is answered by an element of `R e`. -/
inductive Prog (E : Type) (R : E → Type) (α : Type) : Type where
  | ret (a : α)
  | op (e : E) (k : R e → Prog E R α)

namespace Prog

variable {E : Type} {R : E → Type} {α β L : Type}

/-- Run `p`, then `f` on its result. -/
def bind : Prog E R α → (α → Prog E R β) → Prog E R β
  | ret a, f => f a
  | op e k, f => op e fun r => (k r).bind f

instance : Monad (Prog E R) where
  pure := ret
  bind := bind

/-- The code that makes one request and returns the answer. -/
def ask (e : E) : Prog E R (R e) := op e ret

@[simp] theorem pure_eq (a : α) : (pure a : Prog E R α) = ret a := rfl

@[simp] theorem bind_ret (a : α) (f : α → Prog E R β) : (ret a : Prog E R α).bind f = f a := rfl

@[simp] theorem ret_bind (a : α) (f : α → Prog E R β) : (ret a >>= f) = f a := rfl

@[simp] theorem op_bind (e : E) (k : R e → Prog E R α) (f : α → Prog E R β) :
    (op e k >>= f) = op e fun r => k r >>= f := rfl

@[simp] theorem ask_bind (e : E) (f : R e → Prog E R β) : (ask e >>= f) = op e f := rfl

instance : LawfulMonad (Prog E R) :=
  LawfulMonad.mk' (Prog E R)
    (by
      intro α p
      induction p with
      | ret a => rfl
      | op e k ih => exact congrArg (op e) (funext ih))
    (fun _ _ => rfl)
    (by
      intro α β γ p f g
      induction p with
      | ret a => rfl
      | op e k ih => exact congrArg (op e) (funext ih))

/-! ## Code in a larger set of requests -/

/-- The same code over the requests `E'`: `e` is asked as `inj e`, and `back` reads the answer. -/
def lift {E' : Type} {R' : E' → Type} (inj : E → E') (back : ∀ e, R' (inj e) → R e) :
    Prog E R α → Prog E' R' α
  | ret a => ret a
  | op e k => op (inj e) fun r => (k (back e r)).lift inj back

theorem lift_bind {E' : Type} {R' : E' → Type} {inj : E → E'} {back : ∀ e, R' (inj e) → R e}
    (p : Prog E R α) (f : α → Prog E R β) :
    (p >>= f).lift inj back = p.lift inj back >>= fun a => (f a).lift inj back := by
  induction p with
  | ret a => rfl
  | op e k ih => exact congrArg (op (inj e)) (funext fun r => ih (back e r))

end Prog

/-! ## Disciplines -/

/--
A discipline on the requests of one thread.

`L` is what the thread knows at a point of its code. `may l e` says that a thread knowing `l`
is entitled to ask `e`, `can l e r` that it may rely on the answer being such an `r`, and
`next l e r` is what it knows afterwards.
-/
structure Discipline (E : Type) (R : E → Type) (L : Type) where
  may : L → E → Prop
  can : (l : L) → (e : E) → R e → Prop
  next : (l : L) → (e : E) → R e → L

namespace Prog

variable {E : Type} {R : E → Type} {α β L : Type}

/-- From `l`, the code asks only what `D` entitles it to, and returns with `Q`. -/
def Follows (D : Discipline E R L) : Prog E R α → L → (α → L → Prop) → Prop
  | ret a, l, Q => Q a l
  | op e k, l, Q => D.may l e ∧ ∀ r, D.can l e r → (k r).Follows D (D.next l e r) Q

variable {D : Discipline E R L}

@[simp] theorem follows_ret {a : α} {l : L} {Q : α → L → Prop} :
    (ret a : Prog E R α).Follows D l Q ↔ Q a l := Iff.rfl

@[simp] theorem follows_op {e : E} {k : R e → Prog E R α} {l : L} {Q : α → L → Prop} :
    (op e k).Follows D l Q
      ↔ D.may l e ∧ ∀ r, D.can l e r → (k r).Follows D (D.next l e r) Q := Iff.rfl

/-- The postcondition can be weakened. -/
theorem Follows.mono {p : Prog E R α} {l : L} {Q Q' : α → L → Prop}
    (h : p.Follows D l Q) (hQ : ∀ a l', Q a l' → Q' a l') : p.Follows D l Q' := by
  induction p generalizing l with
  | ret a => exact hQ a l h
  | op e k ih => exact ⟨h.1, fun r hr => ih r (h.2 r hr)⟩

/-- Two postconditions at once. -/
theorem Follows.and {p : Prog E R α} {l : L} {Q Q' : α → L → Prop} (h : p.Follows D l Q)
    (h' : p.Follows D l Q') : p.Follows D l fun a l' => Q a l' ∧ Q' a l' := by
  induction p generalizing l with
  | ret a => exact ⟨h, h'⟩
  | op e k ih => exact ⟨h.1, fun r hr => ih r (h.2 r hr) (h'.2 r hr)⟩

/-- **Sequential composition.** -/
theorem follows_bind {p : Prog E R α} {f : α → Prog E R β} {l : L} {Q : β → L → Prop} :
    (p >>= f).Follows D l Q ↔ p.Follows D l fun a l' => (f a).Follows D l' Q := by
  induction p generalizing l with
  | ret a => exact Iff.rfl
  | op e k ih =>
    constructor
    · exact fun h => ⟨h.1, fun r hr => (ih r).mp (h.2 r hr)⟩
    · exact fun h => ⟨h.1, fun r hr => (ih r).mpr (h.2 r hr)⟩

/-- Composition in the direction a proof about `p >>= f` takes. -/
theorem Follows.bind {p : Prog E R α} {f : α → Prog E R β} {l : L} {P : α → L → Prop}
    {Q : β → L → Prop} (hp : p.Follows D l P) (hf : ∀ a l', P a l' → (f a).Follows D l' Q) :
    (p >>= f).Follows D l Q :=
  follows_bind.mpr (hp.mono hf)

/-! ## Code a discipline does not see -/

/-- All requests of the code are in `P`. -/
def Only (P : E → Prop) : Prog E R α → Prop
  | ret _ => True
  | op e k => P e ∧ ∀ r, (k r).Only P

@[simp] theorem only_ret {P : E → Prop} {a : α} : (ret a : Prog E R α).Only P ↔ True := Iff.rfl

@[simp] theorem only_op {P : E → Prop} {e : E} {k : R e → Prog E R α} :
    (op e k).Only P ↔ P e ∧ ∀ r, (k r).Only P := Iff.rfl

theorem Only.mono {P P' : E → Prop} {p : Prog E R α} (h : p.Only P) (hP : ∀ e, P e → P' e) :
    p.Only P' := by
  induction p with
  | ret a => trivial
  | op e k ih => exact ⟨hP e h.1, fun r => ih r (h.2 r)⟩

theorem only_true (p : Prog E R α) : p.Only fun _ => True := by
  induction p with
  | ret a => trivial
  | op e k ih => exact ⟨trivial, ih⟩

theorem only_bind {P : E → Prop} {p : Prog E R α} {f : α → Prog E R β} (hp : p.Only P)
    (hf : ∀ a, (f a).Only P) : (p >>= f).Only P := by
  induction p with
  | ret a => exact hf a
  | op e k ih => exact ⟨hp.1, fun r => ih r (hp.2 r)⟩

theorem Only.lift {E' : Type} {R' : E' → Type} {inj : E → E'} {back : ∀ e, R' (inj e) → R e}
    {P : E → Prop} {P' : E' → Prop} {p : Prog E R α} (h : p.Only P) (hP : ∀ e, P e → P' (inj e)) :
    (p.lift inj back).Only P' := by
  induction p with
  | ret a => trivial
  | op e k ih => exact ⟨hP e h.1, fun r => ih (back e r) (h.2 _)⟩

/-- Lifted code makes only lifted requests. -/
theorem only_lift {E' : Type} {R' : E' → Type} {inj : E → E'} {back : ∀ e, R' (inj e) → R e}
    {P : E' → Prop} (hP : ∀ e, P (inj e)) (p : Prog E R α) : (p.lift inj back).Only P :=
  p.only_true.lift fun e _ => hP e

/--
Requests that `D` allows at `l` and that leave `l` as it is: code that makes no others follows
`D` from `l` and is still at `l` when it returns.
-/
theorem Only.follows {P : E → Prop} {p : Prog E R α} (h : p.Only P) {l : L}
    (hmay : ∀ e, P e → D.may l e) (hnext : ∀ e, P e → ∀ r, D.next l e r = l) :
    p.Follows D l fun _ l' => l' = l := by
  induction p with
  | ret a => exact rfl
  | op e k ih =>
    refine ⟨hmay e h.1, fun r _ => ?_⟩
    rw [hnext e h.1 r]
    exact ih r (h.2 r)

end Prog

end Interact
