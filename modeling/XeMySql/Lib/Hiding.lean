import XeMySql.Lib.Sequence

/-!
# Code of which some requests are hidden

Two pieces of code that make the same requests: those of the second are among those of the first, and
the others of the first are hidden. A `View` says which answers of the first are seen, and as what.

* `Prog.Shows.bind`, `Prog.Shows.first`, `Prog.Shows.map` — the rules of sequential composition
* `Prog.Shows.runs` — every run of the first is a run of the second
-/

namespace Interact

/-- How requests in `E'` are found among those in `E`. -/
structure View {E E' : Type} (R : E → Type) (R' : E' → Type) where
  inj : E' → E
  back : ∀ e, R (inj e) → R' e
  seen : Answer E R → Option (Answer E' R')
  seen_inj : ∀ e r, seen ⟨inj e, r⟩ = some ⟨e, back e r⟩

variable {E E' : Type} {R : E → Type} {R' : E' → Type} {α α' β β' : Type}

/-- A request that is not seen, whatever the answer is. -/
def View.Hidden (V : View R R') (e : E) : Prop := ∀ r, V.seen ⟨e, r⟩ = none

/-- What is seen of a trace. -/
def View.trace (V : View R R') (l : List (Answer E R)) : List (Answer E' R') := l.filterMap V.seen

theorem View.trace_hidden (V : View R R') {e : E} (he : V.Hidden e) (r : R e)
    (l : List (Answer E R)) : V.trace (⟨e, r⟩ :: l) = V.trace l :=
  List.filterMap_cons_none (he r)

theorem View.trace_seen (V : View R R') (e : E') (r : R (V.inj e)) (l : List (Answer E R)) :
    V.trace (⟨V.inj e, r⟩ :: l) = ⟨e, V.back e r⟩ :: V.trace l :=
  List.filterMap_cons_some (V.seen_inj e r)

namespace Prog

/-- What is seen of the first code is the second, and the results are as `Q` says. -/
inductive Shows (V : View R R') (Q : α → β → Prop) : Prog E R α → Prog E' R' β → Prop
  | ret {a b} (h : Q a b) : Shows V Q (ret a) (ret b)
  | hide {e k q} (he : V.Hidden e) (h : ∀ r, Shows V Q (k r) q) : Shows V Q (op e k) q
  | ask {e k k'} (h : ∀ r, Shows V Q (k r) (k' (V.back e r))) :
    Shows V Q (op (V.inj e) k) (op e k')

variable {V : View R R'} {Q : α → β → Prop} {Q' : α' → β' → Prop} {p : Prog E R α}
  {q : Prog E' R' β}

/-- **Sequential composition.** -/
theorem Shows.bind {f : α → Prog E R α'} {g : β → Prog E' R' β'} (h : p.Shows V Q q)
    (hf : ∀ a b, Q a b → (f a).Shows V Q' (g b)) : (p >>= f).Shows V Q' (q >>= g) := by
  induction h with
  | ret h => exact hf _ _ h
  | hide he _ ih => exact .hide he ih
  | ask _ ih => exact .ask ih

/-- The first code begins with something of which nothing is seen. -/
theorem Shows.first {f : α → Prog E R α'} {b : β} {q' : Prog E' R' β'} (h : p.Shows V Q (.ret b))
    (hf : ∀ a, Q a b → (f a).Shows V Q' q') : (p >>= f).Shows V Q' q' := by
  generalize hq : (Prog.ret b : Prog E' R' β) = q at h
  induction h with
  | ret h =>
    cases hq
    exact hf _ h
  | hide he _ ih => exact .hide he fun r => ih r hq
  | ask _ _ => cases hq

/-- The first code ends with a step that asks nothing. -/
theorem Shows.map {f : α → α'} {S : α' → β → Prop} (h : p.Shows V Q q)
    (hf : ∀ a b, Q a b → S (f a) b) : (p >>= fun a => pure (f a)).Shows V S q := by
  induction h with
  | ret h => exact .ret (hf _ _ h)
  | hide he _ ih => exact .hide he ih
  | ask _ ih => exact .ask ih

/-- **Every run of the first code is a run of the second**, when `f` is what is seen of a state, hidden
requests leave that as it is, and requests that are seen can be answered so. -/
theorem Shows.runs {σ σ' O O' : Type} {exec : (e : E) → O → σ → Option (σ × Option (R e))}
    {exec' : (e : E') → O' → σ' → Option (σ' × Option (R' e))} {f : σ → σ'}
    (hhide : ∀ e o s s₁ r, V.Hidden e → exec e o s = some (s₁, r) → f s₁ = f s)
    (hask : ∀ e o s s₁ r, exec (V.inj e) o s = some (s₁, some r) →
      ∃ o', exec' e o' (f s) = some (f s₁, some (V.back e r)))
    (hwait : ∀ e o s s₁, exec e o s ≠ some (s₁, none)) (h : p.Shows V Q q) {s s' : σ} {a : α}
    {l l' : List (Answer E R)} (hr : p.Runs exec s l a s' l') :
    ∃ b, Q a b ∧ q.Runs exec' (f s) (V.trace l) b (f s') (V.trace l') := by
  induction h generalizing s l with
  | ret h =>
    cases hr
    exact ⟨_, h, .ret⟩
  | @hide e k q he _ ih =>
    cases hr with
    | wait o ho _ => exact absurd ho (hwait _ o _ _)
    | reply o ho hk =>
      obtain ⟨b, hb, hrun⟩ := ih _ hk
      -- the second code stays where it is
      rw [hhide _ o _ _ _ he ho, V.trace_hidden he] at hrun
      exact ⟨b, hb, hrun⟩
  | @ask e k k' _ ih =>
    cases hr with
    | wait o ho _ => exact absurd ho (hwait _ o _ _)
    | reply o ho hk =>
      obtain ⟨b, hb, hrun⟩ := ih _ hk
      obtain ⟨o', ho'⟩ := hask e o _ _ _ ho
      rw [V.trace_seen] at hrun
      exact ⟨b, hb, .reply o' ho' hrun⟩

end Prog

end Interact
