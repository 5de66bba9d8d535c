import XeMySql.Lib.Machine

/-!
# Runs, step by step

The steps of a run, each with the state it was taken in, the newest first. Where every step does to
a part of the state what one event of an abstract model would do to it, or nothing, the part is at
any time what the events so far make of it.

* `Machine.Path` — runs as lists of steps
* `Machine.Path.always_iff` — what holds in every state of a run, and of which steps that is so
* `Machine.Path.replay` — the events of a run, applied one after the other
* `Replay.last` — of events that overwrite each other only the newest matters
-/

namespace Interact

/-- A step of a run: the state it was taken in, and the scheduler's choice. -/
abbrev StepOf (ι C E : Type) (R : E → Type) (A σ O : Type) : Type :=
  Machine.Sys ι C E R A σ × Label ι C O

namespace Machine

variable {ι C E : Type} {R : E → Type} {A σ O : Type} [DecidableEq ι]

/-- The run from `s₀` to a state by the steps of the list, when threads begin only the calls in
`ok`. -/
inductive Path (M : Machine ι C E R A σ O) (ok : ι → C → Prop) (s₀ : σ) :
    List (StepOf ι C E R A σ O) → Sys ι C E R A σ → Prop
  | init : Path M ok s₀ [] (.init s₀)
  | step {s s' l path} (h : Path M ok s₀ path s) (hl : ∀ t c, l = .call t c → ok t c)
    (hs : M.step l s = some s') : Path M ok s₀ ((s, l) :: path) s'

variable {M : Machine ι C E R A σ O} {ok : ι → C → Prop} {s₀ : σ} {s : Sys ι C E R A σ}
  {path : List (StepOf ι C E R A σ O)}

theorem Path.reach (h : M.Path ok s₀ path s) : M.Reach ok s₀ s := by
  induction h with
  | init => exact .init
  | step _ hl hs ih => exact ih.step hl hs

variable (M) in
/-- The steps of the run with the labels `ls`, put before those of `path`. -/
def trail : List (Label ι C O) → Sys ι C E R A σ → List (StepOf ι C E R A σ O) →
    List (StepOf ι C E R A σ O)
  | [], _, path => path
  | l :: ls, s, path =>
    match M.step l s with
    | some s' => trail ls s' ((s, l) :: path)
    | none => path

/-- A run goes on. -/
theorem Path.run (h : M.Path ok s₀ path s) {s' : Sys ι C E R A σ} {ls : List (Label ι C O)}
    (hl : Allowed ok ls) (hr : M.run ls s = some s') : M.Path ok s₀ (M.trail ls s path) s' := by
  induction ls generalizing s path with
  | nil =>
    simp only [Machine.run, Option.some.injEq] at hr
    exact hr ▸ h
  | cons l ls ih =>
    simp only [Machine.run, Option.bind_eq_some_iff] at hr
    obtain ⟨s₁, h₁, h₂⟩ := hr
    simp only [trail, h₁]
    exact ih (h.step (hl l (by simp)) h₁) (fun l' hl' => hl l' (by simp [hl'])) h₂

/-- The last step of a run. -/
theorem Path.uncons {x : StepOf ι C E R A σ O} (h : M.Path ok s₀ (x :: path) s) :
    M.Path ok s₀ path x.1 ∧ M.step x.2 x.1 = some s := by
  cases h with
  | step h _ hs => exact ⟨h, hs⟩

/-- The first steps of a run are a run. -/
theorem Path.of_suffix (h : M.Path ok s₀ path s) {path' : List (StepOf ι C E R A σ O)}
    (hp : path' <:+ path) : ∃ s', M.Path ok s₀ path' s' := by
  induction h with
  | init =>
    rw [List.suffix_nil.mp hp]
    exact ⟨_, .init⟩
  | step h hl hs ih =>
    rcases List.suffix_cons_iff.mp hp with rfl | hp
    · exact ⟨_, h.step hl hs⟩
    · exact ih hp

/-- **A property of all states of a run.** When a step keeps `P` exactly if `Q` holds of it, `P` holds
in all states of a run exactly if `Q` holds of all its steps. -/
theorem Path.always_iff {P : List (StepOf ι C E R A σ O) → Sys ι C E R A σ → Prop}
    {Q : StepOf ι C E R A σ O → List (StepOf ι C E R A σ O) → Prop} (h₀ : P [] (.init s₀))
    (hstep : ∀ x path s, M.Path ok s₀ (x :: path) s → P path x.1 → (P (x :: path) s ↔ Q x path))
    (h : M.Path ok s₀ path s) :
    (∀ path' s', path' <:+ path → M.Path ok s₀ path' s' → P path' s') ↔
      ∀ x path', x :: path' <:+ path → Q x path' := by
  constructor
  · intro hall x path' hx
    obtain ⟨s', hs'⟩ := h.of_suffix hx
    have hsuf : path' <:+ path := (List.suffix_cons x path').trans hx
    exact (hstep x path' s' hs' (hall path' x.1 hsuf hs'.uncons.1)).mp (hall _ s' hx hs')
  · intro hall path' s' hsuf hs'
    induction path' generalizing s' with
    | nil =>
      cases hs'
      exact h₀
    | cons x path' ih =>
      have hsuf' : path' <:+ path := (List.suffix_cons x path').trans hsuf
      exact (hstep x path' s' hs' (ih x.1 hsuf' hs'.uncons.1)).mpr (hall x path' hsuf)

/-- **A view that follows events.** `v` is changed by every step as by its event, and not at all
by a step without one. -/
theorem Path.replay {β ε : Type} {v : σ → β} {event : StepOf ι C E R A σ O → Option ε}
    {apply : ε → β → β}
    (hstep : ∀ s l s', M.Reach ok s₀ s → M.step l s = some s' →
      v s'.shared = (event (s, l)).elim (v s.shared) (apply · (v s.shared)))
    (h : M.Path ok s₀ path s) :
    v s.shared = (path.filterMap event).foldr apply (v s₀) := by
  induction h with
  | init => rfl
  | @step s s' l path h hl hs ih =>
    rw [hstep s l s' h.reach hs, List.filterMap_cons]
    cases event (s, l) with
    | none => exact ih
    | some e => exact congrArg (apply e) ih

end Machine

namespace Replay

variable {ι γ ε : Type} {sets : ε → Option γ}

/-- The value that the newest event which sets one has set, `v` before there was any. -/
def last (sets : ε → Option γ) (v : γ) : List ε → γ
  | [] => v
  | e :: es => (sets e).getD (last sets v es)

/-- One more step, with its event. -/
theorem last_filterMap_cons (f : ι → Option ε) (v : γ) (x : ι) (xs : List ι) :
    last sets v ((x :: xs).filterMap f) = ((f x).bind sets).getD (last sets v (xs.filterMap f)) := by
  rw [List.filterMap_cons]
  cases f x <;> rfl

end Replay

end Interact
