import XeMySql.Lib.Sequence

/-!
# Code that works on the fields of an object

The requests of a method are accesses to the fields of its object and requests to the world around
it. Where nobody else touches the object meanwhile, the method is a function of it: it is given the
object and returns it, and only its requests to the world are left.

* `Prog.passing` — the code with its object passed through
* `Prog.Runs.passing` — it runs as the method does
-/

namespace Interact

/-- A request of a method: to a field of its object, or to the world. -/
inductive ObjectOp (F E : Type) where
  | field (f : F)
  | world (e : E)

/-- The answers. -/
abbrev ObjectOp.Reply {F E : Type} (RF : F → Type) (R : E → Type) : ObjectOp F E → Type
  | field f => RF f
  | world e => R e

section

variable {F E : Type} {RF : F → Type} {R : E → Type} {X σ O α β : Type}

/-- Carry out a request: `fields` says what an access does to the object, `exec` what a request does
to the world. -/
def ObjectOp.exec (fields : (f : F) → X → X × RF f)
    (exec : (e : E) → O → σ → Option (σ × Option (R e))) :
    (e : ObjectOp F E) → O → X × σ → Option ((X × σ) × Option (ObjectOp.Reply RF R e))
  | .field f, _, (x, s) => some (((fields f x).1, s), some (fields f x).2)
  | .world e, o, (x, s) => (exec e o s).map fun (s', r) => ((x, s'), r)

/-- What the world has answered. -/
def worldAnswers (l : List (Answer (ObjectOp F E) (ObjectOp.Reply RF R))) : List (Answer E R) :=
  l.filterMap fun
    | ⟨.world e, r⟩ => some ⟨e, r⟩
    | ⟨.field _, _⟩ => none

namespace Prog

/-- The code of a method with its object passed through. -/
def passing (fields : (f : F) → X → X × RF f) :
    Prog (ObjectOp F E) (ObjectOp.Reply RF R) α → X → Prog E R (α × X)
  | .ret a, x => .ret (a, x)
  | .op (.field f) k, x => (k (fields f x).2).passing fields (fields f x).1
  | .op (.world e) k, x => .op e fun r => (k r).passing fields x

variable {fields : (f : F) → X → X × RF f} {exec : (e : E) → O → σ → Option (σ × Option (R e))}
  {p : Prog (ObjectOp F E) (ObjectOp.Reply RF R) α} {x x' : X} {s s' : σ}

/-- **Sequential composition.** -/
theorem passing_bind (f : α → Prog (ObjectOp F E) (ObjectOp.Reply RF R) β) :
    (p >>= f).passing fields x
      = p.passing fields x >>= fun (a, x') => (f a).passing fields x' := by
  induction p generalizing x with
  | ret a => rfl
  | op e k ih =>
    cases e with
    | field g => exact ih _
    | world e => exact congrArg (op e) (funext fun r => ih r)

/-- **The method runs as its code with the object passed through does.** -/
theorem Runs.passing {a : α} {l l' : List (Answer (ObjectOp F E) (ObjectOp.Reply RF R))}
    (h : p.Runs (ObjectOp.exec fields exec) (x, s) l a (x', s') l') :
    (p.passing fields x).Runs exec s (worldAnswers l) (a, x') s' (worldAnswers l') := by
  generalize hxs : (x, s) = xs at h
  generalize hxs' : (x', s') = xs' at h
  induction h generalizing x s with
  | ret =>
    subst hxs
    cases hxs'
    exact .ret
  | @reply e k _ l a _ l' o s₁ r he _ ih =>
    subst hxs
    cases e with
    | field f =>
      cases he
      exact ih rfl hxs'
    | world e =>
      simp only [ObjectOp.exec, Option.map_eq_some_iff] at he
      obtain ⟨⟨s₂, r'⟩, he, hr⟩ := he
      cases hr
      exact .reply o he (ih rfl hxs')
  | @wait e k _ l a _ l' o s₁ he _ ih =>
    subst hxs
    cases e with
    | field f => cases he
    | world e =>
      simp only [ObjectOp.exec, Option.map_eq_some_iff] at he
      obtain ⟨⟨s₂, r'⟩, he, hr⟩ := he
      cases hr
      exact .wait o he (ih rfl hxs')

end Prog

end

end Interact
