import XeMySql.Lib.Trace

/-!
# Code that runs by itself

A thread that nobody disturbs runs its code to the end, and the answers it gets are added to a trace,
the latest first. `Always` says what holds then, whatever the answers are.

* `Prog.Always.bind` — the rule of sequential composition
* `Prog.always_op` — the rule of one request
* `Prog.runs_of_eval` — runs that are computed
* `Prog.Ends` — ends of code that may be given any answers
* `Prog.Runs.follows` — what holds of code however it is answered holds of its runs
* `Prog.Comes` — runs that need not come to an end, and `Prog.Comes.follows` for them
* `Prog.Asks` — the requests the code comes to make, whether they are ever answered or not
-/

namespace Interact

namespace Prog

variable {E : Type} {R : E → Type} {σ O α β : Type}

/-- From `s` and the trace `l`, the code runs to its end and returns `a`, in `s'` and with `l'`. -/
inductive Runs (exec : (e : E) → O → σ → Option (σ × Option (R e))) :
    Prog E R α → σ → List (Answer E R) → α → σ → List (Answer E R) → Prop
  | ret {a s l} : Runs exec (ret a) s l a s l
  | reply {e k s l a s' l'} (o : O) {s₁ r} (he : exec e o s = some (s₁, some r))
    (h : Runs exec (k r) s₁ (⟨e, r⟩ :: l) a s' l') : Runs exec (op e k) s l a s' l'
  | wait {e k s l a s' l'} (o : O) {s₁} (he : exec e o s = some (s₁, none))
    (h : Runs exec (op e k) s₁ l a s' l') : Runs exec (op e k) s l a s' l'

/-- From `s` and the trace `l`, the code comes to `s'` and `l'`, wherever in it that is. -/
inductive Comes (exec : (e : E) → O → σ → Option (σ × Option (R e))) :
    Prog E R α → σ → List (Answer E R) → σ → List (Answer E R) → Prop
  | here {p s l} : Comes exec p s l s l
  | reply {e k s l s' l'} (o : O) {s₁ r} (he : exec e o s = some (s₁, some r))
    (h : Comes exec (k r) s₁ (⟨e, r⟩ :: l) s' l') : Comes exec (op e k) s l s' l'
  | wait {e k s l s' l'} (o : O) {s₁} (he : exec e o s = some (s₁, none))
    (h : Comes exec (op e k) s₁ l s' l') : Comes exec (op e k) s l s' l'

/-- However the code runs to its end, `Q` holds there. -/
def Always (exec : (e : E) → O → σ → Option (σ × Option (R e))) (p : Prog E R α) (s : σ)
    (l : List (Answer E R)) (Q : α → σ → List (Answer E R) → Prop) : Prop :=
  ∀ a s' l', p.Runs exec s l a s' l' → Q a s' l'

variable {exec : (e : E) → O → σ → Option (σ × Option (R e))} {p : Prog E R α} {s : σ}
  {l : List (Answer E R)}

theorem always_ret {a : α} {Q : α → σ → List (Answer E R) → Prop} (h : Q a s l) :
    (ret a : Prog E R α).Always exec s l Q := by
  rintro _ _ _ ⟨⟩
  exact h

/-- A request that keeps nobody waiting. -/
theorem always_op {e : E} {k : R e → Prog E R α} {Q : α → σ → List (Answer E R) → Prop}
    (hwait : ∀ o s₁, exec e o s ≠ some (s₁, none))
    (h : ∀ o s₁ r, exec e o s = some (s₁, some r) →
      (k r).Always exec s₁ (⟨e, r⟩ :: l) Q) : (op e k).Always exec s l Q := by
  intro a s' l' hr
  cases hr with
  | reply o he hk => exact h o _ _ he a s' l' hk
  | wait o he _ => exact absurd he (hwait o _)

theorem Always.mono {Q Q' : α → σ → List (Answer E R) → Prop} (h : p.Always exec s l Q)
    (hQ : ∀ a s' l', Q a s' l' → Q' a s' l') : p.Always exec s l Q' :=
  fun a s' l' hr => hQ a s' l' (h a s' l' hr)

/-- A run only adds to the trace. -/
theorem Runs.suffix {a : α} {s' : σ} {l' : List (Answer E R)} (h : p.Runs exec s l a s' l') :
    l <:+ l' := by
  induction h with
  | ret => exact List.suffix_refl _
  | reply o he h ih => exact (List.suffix_cons _ _).trans ih
  | wait o he h ih => exact ih

/-- **What holds of code however it is answered holds at the end of a run**, when with `I` the answers
to what it may ask are such as `can` says, and `I` stays. -/
theorem Runs.follows {I : σ → List (Answer E R) → Prop} {may : List (Answer E R) → E → Prop}
    {can : List (Answer E R) → (e : E) → R e → Prop} {Q : α → List (Answer E R) → Prop}
    (hreply : ∀ l e o s s₁ r, may l e → I s l → exec e o s = some (s₁, some r) →
      can l e r ∧ I s₁ (⟨e, r⟩ :: l))
    (hwait : ∀ l e o s s₁, may l e → I s l → exec e o s = some (s₁, none) → I s₁ l)
    {a : α} {s' : σ} {l' : List (Answer E R)} (h : p.Runs exec s l a s' l') (hs : I s l)
    (hp : p.Follows (.recording may can) l Q) : Q a l' ∧ I s' l' := by
  induction h with
  | ret => exact ⟨hp, hs⟩
  | reply o he _ ih =>
    obtain ⟨hcan, hs₁⟩ := hreply _ _ o _ _ _ hp.1 hs he
    exact ih hs₁ (hp.2 _ hcan)
  | wait o he _ ih => exact ih (hwait _ _ o _ _ hp.1 hs he) hp

/-- The same for a run whose answers are all in `P`. -/
theorem Runs.follows_among {I : σ → List (Answer E R) → Prop} {P : Answer E R → Prop}
    {may : List (Answer E R) → E → Prop} {can : List (Answer E R) → (e : E) → R e → Prop}
    {Q : α → List (Answer E R) → Prop}
    (hreply : ∀ l e o s s₁ r, may l e → I s l → exec e o s = some (s₁, some r) → P ⟨e, r⟩ →
      can l e r ∧ I s₁ (⟨e, r⟩ :: l))
    (hwait : ∀ l e o s s₁, may l e → I s l → exec e o s = some (s₁, none) → I s₁ l)
    {a : α} {s' : σ} {l' : List (Answer E R)} (h : p.Runs exec s l a s' l') (hP : ∀ x ∈ l', P x)
    (hs : I s l) (hp : p.Follows (.recording may can) l Q) : Q a l' ∧ I s' l' := by
  induction h with
  | ret => exact ⟨hp, hs⟩
  | reply o he h ih =>
    have hmem := hP _ (h.suffix.subset List.mem_cons_self)
    obtain ⟨hcan, hs₁⟩ := hreply _ _ o _ _ _ hp.1 hs he hmem
    exact ih hP hs₁ (hp.2 _ hcan)
  | wait o he _ ih => exact ih hP (hwait _ _ o _ _ hp.1 hs he) hp

theorem Comes.suffix {s' : σ} {l' : List (Answer E R)} (h : p.Comes exec s l s' l') : l <:+ l' := by
  induction h with
  | here => exact List.suffix_refl _
  | reply o he h ih => exact (List.suffix_cons _ _).trans ih
  | wait o he h ih => exact ih

/-- A run comes to its end. -/
theorem Runs.comes {a : α} {s' : σ} {l' : List (Answer E R)} (h : p.Runs exec s l a s' l') :
    p.Comes exec s l s' l' := by
  induction h with
  | ret => exact .here
  | reply o he h ih => exact .reply o he ih
  | wait o he h ih => exact .wait o he ih

/-- **What code may ask for keeps `S` true, wherever it comes to**, when the answers are all in `P`. -/
theorem Comes.follows {I : σ → List (Answer E R) → Prop} {P : Answer E R → Prop}
    {S : List (Answer E R) → Prop} {may : List (Answer E R) → E → Prop}
    {can : List (Answer E R) → (e : E) → R e → Prop} {Q : α → List (Answer E R) → Prop}
    (hreply : ∀ l e o s s₁ r, may l e → I s l → exec e o s = some (s₁, some r) → P ⟨e, r⟩ →
      can l e r ∧ I s₁ (⟨e, r⟩ :: l))
    (hwait : ∀ l e o s s₁, may l e → I s l → exec e o s = some (s₁, none) → I s₁ l)
    (hS : ∀ l e r, may l e → S l → S (⟨e, r⟩ :: l)) {s' : σ} {l' : List (Answer E R)}
    (h : p.Comes exec s l s' l') (hP : ∀ x ∈ l', P x) (hs : I s l) (hl : S l)
    (hp : p.Follows (.recording may can) l Q) : S l' := by
  induction h with
  | here => exact hl
  | reply o he h ih =>
    have hmem := hP _ (h.suffix.subset List.mem_cons_self)
    obtain ⟨hcan, hs₁⟩ := hreply _ _ o _ _ _ hp.1 hs he hmem
    exact ih hP hs₁ (hS _ _ _ hp.1 hl) (hp.2 _ hcan)
  | wait o he _ ih => exact ih hP (hwait _ _ o _ _ hp.1 hs he) hl hp

/-- The same without anything about the states. -/
theorem Runs.answered {can : List (Answer E R) → (e : E) → R e → Prop}
    {Q : α → List (Answer E R) → Prop}
    (hcan : ∀ l e o s s₁ r, exec e o s = some (s₁, some r) → can l e r) {a : α} {s' : σ}
    {l' : List (Answer E R)} (h : p.Runs exec s l a s' l')
    (hp : p.Follows (.recording (fun _ _ => True) can) l Q) : Q a l' := by
  have hreply : ∀ l e o s s₁ r, True → True → exec e o s = some (s₁, some r) →
      can l e r ∧ True :=
    fun l e o s s₁ r _ _ he => ⟨hcan l e o s s₁ r he, trivial⟩
  exact (h.follows (I := fun _ _ => True) hreply (fun _ _ _ _ _ _ _ _ => trivial) trivial hp).1

/-- A run of two pieces of code goes through the end of the first. -/
theorem Runs.split {f : α → Prog E R β} {b : β} {s' : σ} {l' : List (Answer E R)}
    (h : (p >>= f).Runs exec s l b s' l') :
    ∃ a s₁ l₁, p.Runs exec s l a s₁ l₁ ∧ (f a).Runs exec s₁ l₁ b s' l' := by
  generalize hq : (p >>= f) = q at h
  induction h generalizing p with
  | ret =>
    cases p with
    | ret a =>
      refine ⟨a, _, _, .ret, ?_⟩
      rw [ret_bind] at hq
      rw [hq]
      exact .ret
    | op e k => cases hq
  | reply o he h ih =>
    cases p with
    | ret a =>
      refine ⟨a, _, _, .ret, ?_⟩
      rw [ret_bind] at hq
      rw [hq]
      exact .reply o he h
    | op e k =>
      cases hq
      obtain ⟨a, s₁, l₁, h₁, h₂⟩ := ih rfl
      exact ⟨a, s₁, l₁, .reply o he h₁, h₂⟩
  | wait o he h ih =>
    cases p with
    | ret a =>
      refine ⟨a, _, _, .ret, ?_⟩
      rw [ret_bind] at hq
      rw [hq]
      exact .wait o he h
    | op e k =>
      cases hq
      obtain ⟨a, s₁, l₁, h₁, h₂⟩ := ih (p := op _ k) rfl
      exact ⟨a, s₁, l₁, .wait o he h₁, h₂⟩

/-- Two runs one after the other. -/
theorem Runs.bind {f : α → Prog E R β} {a : α} {b : β} {s₁ s' : σ} {l₁ l' : List (Answer E R)}
    (h : p.Runs exec s l a s₁ l₁) (hf : (f a).Runs exec s₁ l₁ b s' l') :
    (p >>= f).Runs exec s l b s' l' := by
  induction h with
  | ret => exact hf
  | reply o he _ ih => exact .reply o he (ih hf)
  | wait o he _ ih => exact .wait o he (ih hf)

/-- The run with the outcomes `os`, when these are as many as it takes. -/
def eval (exec : (e : E) → O → σ → Option (σ × Option (R e))) :
    List O → Prog E R α → σ → List (Answer E R) → Option (α × σ × List (Answer E R))
  | _, ret a, s, l => some (a, s, l)
  | [], op _ _, _, _ => none
  | o :: os, op e k, s, l =>
    match exec e o s with
    | none => none
    | some (s₁, none) => eval exec os (op e k) s₁ l
    | some (s₁, some r) => eval exec os (k r) s₁ (⟨e, r⟩ :: l)

/-- It is a run. -/
theorem runs_of_eval {os : List O} {a : α} {s' : σ} {l' : List (Answer E R)}
    (h : p.eval exec os s l = some (a, s', l')) : p.Runs exec s l a s' l' := by
  induction os generalizing p s l with
  | nil =>
    cases p with
    | ret b =>
      cases h
      exact .ret
    | op e k => cases h
  | cons o os ih =>
    cases p with
    | ret b =>
      cases h
      exact .ret
    | op e k =>
      unfold eval at h
      split at h
      · cases h
      · next he => exact .wait o he (ih h)
      · next he => exact .reply o he (ih h)

/-- **Sequential composition.** -/
theorem Always.bind {f : α → Prog E R β} {P : α → σ → List (Answer E R) → Prop}
    {Q : β → σ → List (Answer E R) → Prop} (hp : p.Always exec s l P)
    (hf : ∀ a s' l', P a s' l' → (f a).Always exec s' l' Q) : (p >>= f).Always exec s l Q := by
  intro b s' l' hr
  obtain ⟨a, s₁, l₁, h₁, h₂⟩ := hr.split
  exact hf a s₁ l₁ (hp a s₁ l₁ h₁) b s' l' h₂

/-- With the answers that `l'` adds to `l`, whoever gives them, the code ends and returns `a`. -/
inductive Ends : Prog E R α → List (Answer E R) → α → List (Answer E R) → Prop
  | ret {a l} : Ends (ret a) l a l
  | op {e k l a l'} (r : R e) (h : Ends (k r) (⟨e, r⟩ :: l) a l') : Ends (op e k) l a l'

/-- An end only adds to the trace. -/
theorem Ends.subset {a : α} {l' : List (Answer E R)} (h : p.Ends l a l') : l ⊆ l' := by
  induction h with
  | ret => exact List.Subset.refl _
  | op r _ ih => exact List.Subset.trans (List.subset_cons_self _ _) ih

/-- What holds of code however it is answered, the answers being such as `can` says, holds at its
end. -/
theorem Ends.follows {can : (e : E) → R e → Prop} {Q : α → List (Answer E R) → Prop} {a : α}
    {l' : List (Answer E R)} (h : p.Ends l a l') (hl : ∀ x ∈ l', can x.1 x.2)
    (hp : p.Follows (.recording (fun _ _ => True) fun _ => can) l Q) : Q a l' := by
  induction h with
  | ret => exact hp
  | @op e k l a l' r h ih =>
    exact ih hl (hp.2 r (hl _ (h.subset (List.mem_cons_self ..))))

/-- From `s`, the code comes to make the request `e`. -/
inductive Asks (exec : (e : E) → O → σ → Option (σ × Option (R e))) (e : E) :
    Prog E R α → σ → Prop
  | now {k s} : Asks exec e (op e k) s
  | reply {e' k s} (o : O) {s₁ r} (he : exec e' o s = some (s₁, some r))
    (h : Asks exec e (k r) s₁) : Asks exec e (op e' k) s
  | wait {e' k s} (o : O) {s₁} (he : exec e' o s = some (s₁, none))
    (h : Asks exec e (op e' k) s₁) : Asks exec e (op e' k) s

/-- What the requests in `P` keep, code that makes no others keeps. -/
theorem Only.keeps {P : E → Prop} {I : σ → Prop} (hp : p.Only P)
    (hI : ∀ e o s s₁ r, P e → I s → exec e o s = some (s₁, r) → I s₁) {a : α} {s' : σ}
    {l' : List (Answer E R)} (h : p.Runs exec s l a s' l') (hs : I s) : I s' := by
  induction h with
  | ret => exact hs
  | reply o he _ ih => exact ih (hp.2 _) (hI _ o _ _ _ hp.1 hs he)
  | wait o he _ ih => exact ih hp (hI _ o _ _ _ hp.1 hs he)

theorem Only.asks {P : E → Prop} {e : E} (hp : p.Only P) (h : p.Asks exec e s) : P e := by
  induction h with
  | now => exact hp.1
  | reply o _ _ ih => exact ih (hp.2 _)
  | wait o _ _ ih => exact ih hp

end Prog

end Interact
