import XeMySql.Lib.Machine

/-!
# Traces of calls

What a thread has been answered since its present call began, the newest answer first. A discipline
that records it knows all there is to know; what it allows and relies on is still free.

* `Discipline.view_recording` — what such a discipline knows is the trace
* `Prog.Follows.grows` — a trace only grows
* `Prog.Only.follows_recording` — which requests are in the trace of code that makes few
* `Machine.Reach.answered` — what holds of code however it is answered holds in every run
-/

namespace Interact

/-- A request with its answer. -/
abbrev Answer (E : Type) (R : E → Type) : Type := Σ e : E, R e

section

variable {ι C E : Type} {R : E → Type} {A : Type} [DecidableEq ι]

/-- The answers thread `t` has had in its present call. -/
def callTrace (t : ι) : List (Event ι C E R A) → List (Answer E R)
  | [] => []
  | .call u _ :: h => if u = t then [] else callTrace t h
  | .reply u e r :: h => if u = t then ⟨e, r⟩ :: callTrace t h else callTrace t h
  | .done u _ _ :: h => if u = t then [] else callTrace t h

/-- The call thread `t` is in. -/
def presentCall (t : ι) : List (Event ι C E R A) → Option C
  | [] => none
  | .call u c :: h => if u = t then some c else presentCall t h
  | .reply _ _ _ :: h => presentCall t h
  | .done u _ _ :: h => if u = t then none else presentCall t h

variable {t u : ι} {h : List (Event ι C E R A)}

@[simp] theorem callTrace_nil : callTrace t ([] : List (Event ι C E R A)) = [] := rfl

@[simp] theorem callTrace_call {c : C} :
    callTrace t (.call u c :: h) = if u = t then [] else callTrace t h := rfl

@[simp] theorem callTrace_reply {e : E} {r : R e} :
    callTrace t (.reply u e r :: h) = if u = t then ⟨e, r⟩ :: callTrace t h else callTrace t h :=
  rfl

@[simp] theorem callTrace_done {c : C} {a : A} :
    callTrace t (.done u c a :: h) = if u = t then [] else callTrace t h := rfl

/-- What is read off a history, each event adding to it, only grows. -/
theorem suffix_of_suffix {α β : Type} {f : List α → List β} (hf : ∀ a l, f l <:+ f (a :: l))
    {l l' : List α} (h : l' <:+ l) : f l' <:+ f l := by
  obtain ⟨later, rfl⟩ := h
  induction later with
  | nil => exact List.suffix_refl _
  | cons a later ih => exact ih.trans (hf a _)

section

variable {σ O : Type} {M : Machine ι C E R A σ O} {ok : ι → C → Prop} {s₀ : σ}
  {s : Machine.Sys ι C E R A σ} {c : C}

/-- A thread is in the call that the history says. -/
theorem Machine.Reach.presentCall_eq (hr : M.Reach ok s₀ s) (t : ι) :
    presentCall t s.hist = (s.thread t).call := by
  induction hr with
  | init => rfl
  | @step s s' l _ hl hs ih =>
    have hself : ∀ {th c}, th.call = c → c = (Function.update s.thread t th t).call := by
      rintro th c rfl
      rw [Function.update_self]
    -- the calls of the other threads stay as they are
    have hother : ∀ {u th}, u ≠ t →
        presentCall t s.hist = (Function.update s.thread u th t).call := by
      intro u th hut
      rw [Function.update_of_ne (Ne.symm hut)]
      exact ih
    cases Machine.step_cases hs with
    | @call u d hu hd =>
      by_cases hut : u = t
      · subst hut
        exact (if_pos rfl).trans (hself rfl)
      · exact (if_neg hut).trans (hother hut)
    | wait hu he => exact ih
    | @reply u o d e k sh r hu he =>
      by_cases hut : u = t
      · subst hut
        rw [hu] at ih
        exact ih.trans (hself rfl)
      · exact hother hut
    | @done u o d a hu =>
      by_cases hut : u = t
      · subst hut
        refine (if_pos rfl).trans (hself ?_)
        split <;> rfl
      · exact (if_neg hut).trans (hother hut)

/-- A thread in call `c` of the history is running it. -/
theorem Machine.Reach.running (hr : M.Reach ok s₀ s) (hc : presentCall t s.hist = some c) :
    ∃ p, s.thread t = .running c p :=
  Thread.call_eq_some ((hr.presentCall_eq t).symm.trans hc)

/-- A thread that runs a call is in it, by the history. -/
theorem Machine.Reach.present (hr : M.Reach ok s₀ s) {p : Prog E R A}
    (ht : s.thread t = .running c p) : presentCall t s.hist = some c := by
  rw [hr.presentCall_eq, ht]
  rfl

end

/-- The discipline that records every answer. -/
def Discipline.recording (may : List (Answer E R) → E → Prop)
    (can : List (Answer E R) → (e : E) → R e → Prop) : Discipline E R (List (Answer E R)) :=
  ⟨may, can, fun l e r => ⟨e, r⟩ :: l⟩

variable {may : List (Answer E R) → E → Prop} {can : List (Answer E R) → (e : E) → R e → Prop}

@[simp] theorem Discipline.recording_next (l : List (Answer E R)) (e : E) (r : R e) :
    (Discipline.recording may can).next l e r = ⟨e, r⟩ :: l := rfl

theorem Discipline.view_recording (h : List (Event ι C E R A)) (t : ι) :
    (Discipline.recording may can).view [] (fun _ _ => []) h t = callTrace t h := by
  induction h with
  | nil => rfl
  | cons ev h ih =>
    cases ev with
    | call u c =>
      simp only [Discipline.view, callTrace, ih, eq_comm (a := t)]
    | reply u e r =>
      simp only [Discipline.view, callTrace, ih, eq_comm (a := t)]
      rfl
    | done u c a =>
      simp only [Discipline.view, callTrace, ih, eq_comm (a := t)]

end

namespace Prog

variable {E : Type} {R : E → Type} {α : Type} {may : List (Answer E R) → E → Prop}
  {can : List (Answer E R) → (e : E) → R e → Prop} {p : Prog E R α} {l : List (Answer E R)}

/-- Nothing recorded is ever lost. -/
theorem Follows.grows {Q : α → List (Answer E R) → Prop}
    (h : p.Follows (.recording may can) l Q) :
    p.Follows (.recording may can) l fun a l' => Q a l' ∧ l <:+ l' := by
  induction p generalizing l with
  | ret a => exact ⟨h, List.suffix_refl l⟩
  | op e k ih =>
    refine ⟨h.1, fun r hr => ?_⟩
    exact (ih r (h.2 r hr)).mono fun a l' hq => ⟨hq.1, (List.suffix_cons _ l).trans hq.2⟩

/-- Code that makes only requests in `P`, all of them allowed, adds only such to the trace. -/
theorem Only.follows_recording {P : E → Prop} (h : p.Only P) (hmay : ∀ l e, P e → may l e) :
    p.Follows (.recording may can) l fun _ l' => ∀ x ∈ l', x ∈ l ∨ P x.1 := by
  induction p generalizing l with
  | ret a => exact fun x hx => Or.inl hx
  | op e k ih =>
    refine ⟨hmay l e h.1, fun r _ => (ih r (h.2 r)).mono fun a l' hl x hx => ?_⟩
    rcases hl x hx with hm | hm
    · rcases List.mem_cons.mp hm with rfl | hm
      · exact Or.inr h.1
      · exact Or.inl hm
    · exact Or.inr hm

/-- What is picked from a trace stays the same while only requests in `P` are made, and nothing is
picked from these. -/
theorem Only.follows_filterMap {β : Type} {f : Answer E R → Option β} {P : E → Prop} (h : p.Only P)
    (hmay : ∀ l e, P e → may l e) (hf : ∀ e r, P e → f ⟨e, r⟩ = none) :
    p.Follows (.recording may can) l fun _ l' => l'.filterMap f = l.filterMap f := by
  induction p generalizing l with
  | ret a => exact rfl
  | op e k ih =>
    refine ⟨hmay l e h.1, fun r _ => (ih r (h.2 r)).mono fun _ l' hl => ?_⟩
    rw [hl, Discipline.recording_next, List.filterMap_cons_none (hf e r h.1)]

/-- Nothing is asked of code that may do what it likes. -/
theorem follows_true (hmay : ∀ l e, may l e) :
    p.Follows (.recording may can) l fun _ _ => True := by
  induction p generalizing l with
  | ret a => trivial
  | op e k ih => exact ⟨hmay l e, fun r _ => ih r⟩

end Prog

/-- **However code is answered**: what holds at its end, when answers can only be such as `can` says,
holds when it returns in a run. -/
theorem Machine.Reach.answered {ι C E : Type} {R : E → Type} {A σ O : Type} [DecidableEq ι]
    {M : Machine ι C E R A σ O} {ok : ι → C → Prop} {s₀ : σ} {s : Machine.Sys ι C E R A σ}
    {can : List (Answer E R) → (e : E) → R e → Prop} {c : C} {Q : A → List (Answer E R) → Prop}
    (hcan : ∀ t l e o sh sh' r, M.exec t e o sh = some (sh', some r) → can l e r)
    (hcode : ∀ t, (M.code t c).Follows (.recording (fun _ _ => True) can) [] Q)
    (h : M.Reach ok s₀ s) {t : ι} {a : A} (ht : s.thread t = .running c (.ret a)) :
    Q a (callTrace t s.hist) := by
  have H : M.Kept ok s₀ (.recording (fun _ _ => True) can) [] (fun _ _ => [])
      (fun d a l => d = c → Q a l) fun _ _ => True := by
    refine ⟨fun u d _ => ?_, trivial, fun _ _ _ _ _ _ _ _ => trivial, fun _ _ _ _ _ _ _ _ _ => trivial,
      fun _ _ u e o _ r _ _ he => ⟨hcan u _ e o _ _ r he, trivial⟩, fun _ _ _ _ _ _ _ => trivial⟩
    by_cases hd : d = c
    · subst hd
      exact (hcode u).mono fun _ _ hq _ => hq
    · exact (Prog.follows_true fun _ _ => trivial).mono fun _ _ _ hd' => absurd hd' hd
  have hq := H.atReturn h ht rfl
  rwa [Discipline.view_recording] at hq

end Interact
