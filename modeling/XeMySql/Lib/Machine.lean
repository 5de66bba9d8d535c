import XeMySql.Lib.Prog
import Mathlib.Logic.Function.Basic

/-!
# Threads that share a state

A `Machine` runs the code of many threads over one shared state. A thread is idle, or inside a
call, or has ended for good; at each step the scheduler picks one thread, which begins a call,
carries out its next request, or returns. What the environment decides (whether a network call
succeeds, say) is part of the scheduler's choice, so a run is a list of labels.

Every call, answered request and return is recorded in the history, newest first. The properties
of whole runs are stated about it.

* `Machine.step_cases` — everything a step can do
* `Machine.Reach.invariant` — an invariant of single steps holds in every reachable state
* `Machine.Kept.holds` — threads that follow a discipline, and the invariant this buys
* `Machine.Kept.and` — invariants in layers
-/

namespace Interact

/-- What is recorded of a run. -/
inductive Event (ι C E : Type) (R : E → Type) (A : Type) where
  | call (t : ι) (c : C)
  | reply (t : ι) (e : E) (r : R e)
  | done (t : ι) (c : C) (a : A)

/-- The return with which a history ends. -/
def lastReturn {ι C E : Type} {R : E → Type} {A : Type} : List (Event ι C E R A) → Option (ι × C × A)
  | .done t c a :: _ => some (t, c, a)
  | _ => none

theorem lastReturn_eq_some {ι C E : Type} {R : E → Type} {A : Type} {h : List (Event ι C E R A)}
    {t : ι} {c : C} {a : A} (hl : lastReturn h = some (t, c, a)) : ∃ h', h = .done t c a :: h' := by
  cases h with
  | nil => cases hl
  | cons ev h =>
    cases ev with
    | done t' c' a' =>
      cases hl
      exact ⟨h, rfl⟩
    | _ => cases hl

/-- Where a thread is. -/
inductive Thread (C E : Type) (R : E → Type) (A : Type) where
  | idle
  | running (c : C) (p : Prog E R A)
  | stopped

/-- What a thread is about to return from which call. -/
def Thread.returning {C E : Type} {R : E → Type} {A : Type} : Thread C E R A → Option (C × A)
  | .running c (.ret a) => some (c, a)
  | _ => none

theorem Thread.returning_eq_some {C E : Type} {R : E → Type} {A : Type} {th : Thread C E R A}
    {c : C} {a : A} (h : th.returning = some (c, a)) : th = .running c (.ret a) := by
  cases th with
  | running c' p =>
    cases p with
    | ret a' =>
      cases h
      rfl
    | op e k => cases h
  | _ => cases h

/-- What a thread is about to ask in which call. -/
def Thread.asking {C E : Type} {R : E → Type} {A : Type} : Thread C E R A → Option (C × E)
  | .running c (.op e _) => some (c, e)
  | _ => none

theorem Thread.asking_eq_some {C E : Type} {R : E → Type} {A : Type} {th : Thread C E R A}
    {c : C} {e : E} (h : th.asking = some (c, e)) : ∃ k, th = .running c (.op e k) := by
  cases th with
  | running c' p =>
    cases p with
    | op e' k =>
      cases h
      exact ⟨k, rfl⟩
    | ret a => cases h
  | _ => cases h

/-- The call a thread is in. -/
def Thread.call {C E : Type} {R : E → Type} {A : Type} : Thread C E R A → Option C
  | .running c _ => some c
  | _ => none

theorem Thread.call_eq_some {C E : Type} {R : E → Type} {A : Type} {th : Thread C E R A} {c : C}
    (h : th.call = some c) : ∃ p, th = .running c p := by
  cases th with
  | running c' p =>
    cases h
    exact ⟨p, rfl⟩
  | _ => cases h

/-- The scheduler's choice: a thread begins a call, or goes on with the environment's `o`. -/
inductive Label (ι C O : Type) where
  | call (t : ι) (c : C)
  | act (t : ι) (o : O)

/-- The thread that moves. -/
def Label.thread {ι C O : Type} : Label ι C O → ι
  | .call t _ => t
  | .act t _ => t

/--
Threads `ι` that make calls `C` returning `A`, by requests `E` on a shared state `σ`.

`exec t e o s` carries out request `e` of thread `t`: `none` when it cannot (the thread is stuck
there), otherwise the new state, with the answer or with none while the thread goes on waiting.
`enabled` says which calls a thread can begin, `ends` which returns end the thread.
-/
structure Machine (ι C E : Type) (R : E → Type) (A σ O : Type) where
  code : ι → C → Prog E R A
  exec : ι → (e : E) → O → σ → Option (σ × Option (R e))
  enabled : ι → C → σ → Bool
  ends : ι → C → A → Bool

namespace Machine

variable {ι C E : Type} {R : E → Type} {A σ O : Type} [DecidableEq ι]

/-- The state of a run: the shared state, the threads, and what has happened. -/
structure Sys (ι C E : Type) (R : E → Type) (A σ : Type) where
  shared : σ
  thread : ι → Thread C E R A
  hist : List (Event ι C E R A)

/-- All threads idle, nothing has happened. -/
def Sys.init (s : σ) : Sys ι C E R A σ := ⟨s, fun _ => .idle, []⟩

variable (M : Machine ι C E R A σ O)

/-- One step of a run. -/
def step : Label ι C O → Sys ι C E R A σ → Option (Sys ι C E R A σ)
  | .call t c, s =>
    match s.thread t with
    | .idle =>
      if M.enabled t c s.shared then
        some ⟨s.shared, Function.update s.thread t (.running c (M.code t c)), .call t c :: s.hist⟩
      else none
    | _ => none
  | .act t o, s =>
    match s.thread t with
    | .running c (.ret a) =>
      some ⟨s.shared, Function.update s.thread t (if M.ends t c a then .stopped else .idle),
        .done t c a :: s.hist⟩
    | .running c (.op e k) =>
      match M.exec t e o s.shared with
      | none => none
      | some (sh, none) => some ⟨sh, s.thread, s.hist⟩
      | some (sh, some r) =>
        some ⟨sh, Function.update s.thread t (.running c (k r)), .reply t e r :: s.hist⟩
    | _ => none

/-- A whole run. -/
def run : List (Label ι C O) → Sys ι C E R A σ → Option (Sys ι C E R A σ)
  | [], s => some s
  | l :: ls, s => (M.step l s).bind (run ls)

/-- Everything a step can do. -/
inductive Steps (s : Sys ι C E R A σ) : Label ι C O → Sys ι C E R A σ → Prop
  | call {t c} (ht : s.thread t = .idle) (hc : M.enabled t c s.shared = true) :
    Steps s (.call t c)
      ⟨s.shared, Function.update s.thread t (.running c (M.code t c)), .call t c :: s.hist⟩
  | wait {t o c e k sh} (ht : s.thread t = .running c (.op e k))
    (he : M.exec t e o s.shared = some (sh, none)) :
    Steps s (.act t o) ⟨sh, s.thread, s.hist⟩
  | reply {t o c e k sh r} (ht : s.thread t = .running c (.op e k))
    (he : M.exec t e o s.shared = some (sh, some r)) :
    Steps s (.act t o)
      ⟨sh, Function.update s.thread t (.running c (k r)), .reply t e r :: s.hist⟩
  | done {t o c a} (ht : s.thread t = .running c (.ret a)) :
    Steps s (.act t o)
      ⟨s.shared, Function.update s.thread t (if M.ends t c a then .stopped else .idle),
        .done t c a :: s.hist⟩

variable {M}

theorem step_cases {l : Label ι C O} {s s' : Sys ι C E R A σ} (h : M.step l s = some s') :
    M.Steps s l s' := by
  cases l with
  | call t c =>
    simp only [step] at h
    cases ht : s.thread t with
    | idle =>
      rw [ht] at h
      simp only [Option.ite_none_right_eq_some, Option.some.injEq] at h
      obtain ⟨hc, rfl⟩ := h
      exact .call ht hc
    | running c p => rw [ht] at h; simp at h
    | stopped => rw [ht] at h; simp at h
  | act t o =>
    simp only [step] at h
    cases ht : s.thread t with
    | idle => rw [ht] at h; simp at h
    | stopped => rw [ht] at h; simp at h
    | running c p =>
      rw [ht] at h
      cases p with
      | ret a =>
        simp only [Option.some.injEq] at h
        subst h
        exact .done ht
      | op e k =>
        simp only at h
        split at h
        · simp at h
        · next sh he =>
          cases h
          exact .wait ht he
        · next sh r he =>
          cases h
          exact .reply ht he

theorem Steps.step {l : Label ι C O} {s s' : Sys ι C E R A σ} (h : M.Steps s l s') :
    M.step l s = some s' := by
  cases h with
  | call ht hc => simp only [Machine.step, ht, hc, if_true]
  | wait ht he => simp only [Machine.step, ht, he]
  | reply ht he => simp only [Machine.step, ht, he]
  | done ht => simp only [Machine.step, ht]

/-- The other threads stay where they are. -/
theorem Steps.thread_of_ne {l : Label ι C O} {s s' : Sys ι C E R A σ} (h : M.Steps s l s') {t : ι}
    (ht : l.thread ≠ t) : s'.thread t = s.thread t := by
  cases h with
  | wait _ _ => rfl
  | _ => exact Function.update_of_ne (Ne.symm ht) ..

/-- A thread that is in a call has begun it in this step, or was in it before. -/
theorem Steps.running {l : Label ι C O} {s s' : Sys ι C E R A σ} (h : M.Steps s l s') {t : ι} {c : C}
    {p : Prog E R A} (ht : s'.thread t = .running c p) :
    (l = .call t c ∧ M.enabled t c s.shared = true) ∨ ∃ q, s.thread t = .running c q := by
  by_cases hl : l.thread = t
  · cases h with
    | call hu hc =>
      obtain rfl := hl
      simp only [Label.thread, Function.update_self, Thread.running.injEq] at ht
      obtain ⟨rfl, -⟩ := ht
      exact Or.inl ⟨rfl, hc⟩
    | wait hu he => exact Or.inr ⟨p, ht⟩
    | reply hu he =>
      obtain rfl := hl
      simp only [Label.thread, Function.update_self, Thread.running.injEq] at ht
      obtain ⟨rfl, -⟩ := ht
      exact Or.inr ⟨_, hu⟩
    | done hu =>
      obtain rfl := hl
      simp only [Label.thread, Function.update_self] at ht
      split at ht <;> cases ht
  · rw [h.thread_of_ne hl] at ht
    exact Or.inr ⟨p, ht⟩

/-- The shared state changes by a request of the thread that moves. -/
theorem Steps.shared {l : Label ι C O} {s s' : Sys ι C E R A σ} (h : M.Steps s l s') :
    s'.shared = s.shared ∨ ∃ e o r, M.exec l.thread e o s.shared = some (s'.shared, r) := by
  cases h with
  | call _ _ => exact Or.inl rfl
  | wait _ he => exact Or.inr ⟨_, _, _, he⟩
  | reply _ he => exact Or.inr ⟨_, _, _, he⟩
  | done _ => exact Or.inl rfl

/-! ## Reachable states -/

variable (M) in
/-- The states reached from `s₀` when threads begin only the calls in `ok`. -/
inductive Reach (ok : ι → C → Prop) (s₀ : σ) : Sys ι C E R A σ → Prop
  | init : Reach ok s₀ (.init s₀)
  | step {s s' l} (h : Reach ok s₀ s) (hl : ∀ t c, l = .call t c → ok t c)
    (hs : M.step l s = some s') : Reach ok s₀ s'

variable {ok : ι → C → Prop} {s₀ : σ} {s : Sys ι C E R A σ}

/-- Calls in `ok` only. -/
def Allowed (ok : ι → C → Prop) (ls : List (Label ι C O)) : Prop :=
  ∀ l ∈ ls, ∀ t c, l = .call t c → ok t c

theorem Reach.run {s' : Sys ι C E R A σ} {ls : List (Label ι C O)} (h : M.Reach ok s₀ s)
    (hl : Allowed ok ls) (hr : M.run ls s = some s') : M.Reach ok s₀ s' := by
  induction ls generalizing s with
  | nil =>
    simp only [Machine.run, Option.some.injEq] at hr
    exact hr ▸ h
  | cons l ls ih =>
    simp only [Machine.run, Option.bind_eq_some_iff] at hr
    obtain ⟨s₁, h₁, h₂⟩ := hr
    exact ih (h.step (hl l (by simp)) h₁) (fun l' hl' => hl l' (by simp [hl'])) h₂

/-- A run adds to the history, and the calls it adds are those of its labels. -/
theorem run_hist {s' : Sys ι C E R A σ} {ls : List (Label ι C O)} (hr : M.run ls s = some s') :
    ∃ later, s'.hist = later ++ s.hist ∧ ∀ t c, .call t c ∈ later ↔ .call t c ∈ ls := by
  induction ls generalizing s with
  | nil =>
    simp only [Machine.run, Option.some.injEq] at hr
    exact ⟨[], by rw [hr]; rfl, by simp⟩
  | cons l ls ih =>
    simp only [Machine.run, Option.bind_eq_some_iff] at hr
    obtain ⟨s₁, h₁, h₂⟩ := hr
    obtain ⟨later, hh, hc⟩ := ih h₂
    cases step_cases h₁ with
    | @call t c ht hen =>
      refine ⟨later ++ [.call t c], by rw [hh, List.append_assoc]; rfl, fun u d => ?_⟩
      rw [List.mem_append, hc, List.mem_singleton, List.mem_cons, or_comm]
      simp
    | wait ht he => exact ⟨later, hh, fun u d => by rw [hc]; simp⟩
    | @reply t o c e k sh r ht he =>
      exact ⟨later ++ [.reply t e r], by rw [hh, List.append_assoc]; rfl,
        fun u d => by simp [hc]⟩
    | @done t o c a ht =>
      exact ⟨later ++ [.done t c a], by rw [hh, List.append_assoc]; rfl,
        fun u d => by simp [hc]⟩

/-- What a history ends with was the history of an earlier state. -/
theorem Reach.of_hist (h : M.Reach ok s₀ s) {earlier : List (Event ι C E R A)}
    (hs : earlier <:+ s.hist) : ∃ s', M.Reach ok s₀ s' ∧ s'.hist = earlier := by
  induction h with
  | init => exact ⟨_, .init, (List.suffix_nil.mp hs).symm⟩
  | @step s s' l h hl hstep ih =>
    have hcons : ∀ {ev}, s'.hist = ev :: s.hist →
        ∃ s'', M.Reach ok s₀ s'' ∧ s''.hist = earlier := by
      intro ev hev
      rw [hev] at hs
      rcases List.suffix_cons_iff.mp hs with rfl | hs
      · exact ⟨s', h.step hl hstep, hev⟩
      · exact ih hs
    cases step_cases hstep with
    | call _ _ => exact hcons rfl
    | wait _ _ => exact ih hs
    | reply _ _ => exact hcons rfl
    | done _ => exact hcons rfl

/-- Fewer calls reach fewer states. -/
theorem Reach.mono {ok' : ι → C → Prop} (hok : ∀ t c, ok t c → ok' t c) (h : M.Reach ok s₀ s) :
    M.Reach ok' s₀ s := by
  induction h with
  | init => exact .init
  | step _ hl hs ih => exact ih.step (fun t c e => hok t c (hl t c e)) hs

/-- A thread is in a call that it was allowed and able to begin. -/
theorem Reach.began (h : M.Reach ok s₀ s) {t : ι} {c : C} {p : Prog E R A}
    (ht : s.thread t = .running c p) : ok t c ∧ ∃ sh, M.enabled t c sh = true := by
  induction h generalizing p with
  | init => cases ht
  | step _ hl hs ih =>
    rcases (step_cases hs).running ht with ⟨rfl, hc⟩ | ⟨q, hq⟩
    · exact ⟨hl t c rfl, _, hc⟩
    · exact ih hq

/-- What holds at the start and is kept by every step holds in every reachable state. -/
theorem Reach.invariant {I : Sys ι C E R A σ → Prop} (h : M.Reach ok s₀ s) (h0 : I (.init s₀))
    (hstep : ∀ s l s', I s → (∀ t c, l = .call t c → ok t c) → M.Steps s l s' → I s') : I s := by
  induction h with
  | init => exact h0
  | step _ hl hs ih => exact hstep _ _ _ ih hl (step_cases hs)

end Machine

/-! ## What a thread knows, read off the history -/

namespace Discipline

variable {ι C E : Type} {R : E → Type} {A L : Type} [DecidableEq ι]

/--
What thread `u` knows after `h`: `idle` outside of calls, `start t c` at the beginning of call
`c`, and `D.next` after each answer since.
-/
def view (D : Discipline E R L) (idle : L) (start : ι → C → L) :
    List (Event ι C E R A) → ι → L
  | [], _ => idle
  | .call t c :: h, u => if u = t then start t c else D.view idle start h u
  | .reply t e r :: h, u =>
    if u = t then D.next (D.view idle start h u) e r else D.view idle start h u
  | .done t _ _ :: h, u => if u = t then idle else D.view idle start h u

variable {D : Discipline E R L} {idle : L} {start : ι → C → L} {h : List (Event ι C E R A)} {t : ι}

@[simp] theorem view_nil : D.view idle start ([] : List (Event ι C E R A)) = fun _ => idle := rfl

@[simp] theorem view_call {c : C} : D.view idle start (.call t c :: h)
    = Function.update (D.view idle start h) t (start t c) := by
  funext u
  by_cases hu : u = t <;> simp [view, hu]

@[simp] theorem view_reply {e : E} {r : R e} : D.view idle start (.reply t e r :: h)
    = Function.update (D.view idle start h) t (D.next (D.view idle start h t) e r) := by
  funext u
  by_cases hu : u = t
  · subst hu
    simp [view]
  · simp [view, hu]

@[simp] theorem view_done {c : C} {a : A} : D.view idle start (.done t c a :: h)
    = Function.update (D.view idle start h) t idle := by
  funext u
  by_cases hu : u = t <;> simp [view, hu]

end Discipline

namespace Machine

variable {ι C E : Type} {R : E → Type} {A σ O L : Type} [DecidableEq ι]

/-- Thread `th` knows `v`, and its remaining code follows `D` from there. -/
def ThreadOk (D : Discipline E R L) (idle : L) (final : C → A → L → Prop)
    (th : Thread C E R A) (v : L) : Prop :=
  match th with
  | .idle => v = idle
  | .stopped => v = idle
  | .running c p => p.Follows D v (final c)

/--
What has to be shown of a discipline `D` and an invariant `I` of the shared state and the history:
the code of every call follows `D`, and `I` is kept when a thread does what `D` entitles it to.
-/
structure Kept (M : Machine ι C E R A σ O) (ok : ι → C → Prop) (s₀ : σ)
    (D : Discipline E R L) (idle : L) (start : ι → C → L) (final : C → A → L → Prop)
    (I : σ → List (Event ι C E R A) → Prop) : Prop where
  code : ∀ t c, ok t c → (M.code t c).Follows D (start t c) (final c)
  init : I s₀ []
  call : ∀ s h t c, I s h → ok t c → M.enabled t c s = true → D.view idle start h t = idle →
    I s (.call t c :: h)
  wait : ∀ s h t e o s', I s h → D.may (D.view idle start h t) e →
    M.exec t e o s = some (s', none) → I s' h
  reply : ∀ s h t e o s' r, I s h → D.may (D.view idle start h t) e →
    M.exec t e o s = some (s', some r) →
    D.can (D.view idle start h t) e r ∧ I s' (.reply t e r :: h)
  done : ∀ s h t c a, I s h → final c a (D.view idle start h t) → I s (.done t c a :: h)

variable {M : Machine ι C E R A σ O} {ok : ι → C → Prop} {s₀ : σ} {s : Sys ι C E R A σ}
  {D : Discipline E R L} {idle : L} {start : ι → C → L} {final : C → A → L → Prop}
  {I : σ → List (Event ι C E R A) → Prop}

/-- **Run lemma of disciplines.** The invariant holds in every reachable state, and the remaining
code of every thread follows the discipline from what the thread knows. -/
theorem Kept.holds (H : M.Kept ok s₀ D idle start final I) (h : M.Reach ok s₀ s) :
    I s.shared s.hist ∧
      ∀ t, ThreadOk D idle final (s.thread t) (D.view idle start s.hist t) := by
  refine h.invariant (I := fun s => I s.shared s.hist ∧
    ∀ t, ThreadOk D idle final (s.thread t) (D.view idle start s.hist t)) ⟨H.init, fun _ => rfl⟩ ?_
  rintro s l s' ⟨hI, hT⟩ hl hs
  cases hs with
  | @call t c ht hc =>
    have hv := hT t
    rw [ht] at hv
    refine ⟨H.call _ _ t c hI (hl t c rfl) hc hv, fun u => ?_⟩
    by_cases hu : u = t
    · subst hu
      simp only [Function.update_self, Discipline.view, if_true]
      exact H.code u c (hl u c rfl)
    · simp only [Function.update_of_ne hu, Discipline.view, if_neg hu]
      exact hT u
  | @wait t o c e k sh ht he =>
    have hv := hT t
    rw [ht] at hv
    exact ⟨H.wait _ _ t e o sh hI hv.1 he, hT⟩
  | @reply t o c e k sh r ht he =>
    have hv := hT t
    rw [ht] at hv
    obtain ⟨hcan, hI'⟩ := H.reply _ _ t e o sh r hI hv.1 he
    refine ⟨hI', fun u => ?_⟩
    by_cases hu : u = t
    · subst hu
      simp only [Function.update_self, Discipline.view, if_true]
      exact hv.2 r hcan
    · simp only [Function.update_of_ne hu, Discipline.view, if_neg hu]
      exact hT u
  | @done t o c a ht =>
    have hv := hT t
    rw [ht] at hv
    refine ⟨H.done _ _ t c a hI hv, fun u => ?_⟩
    by_cases hu : u = t
    · subst hu
      simp only [Function.update_self, Discipline.view, if_true]
      split <;> simp_all [ThreadOk]
    · simp only [Function.update_of_ne hu, Discipline.view, if_neg hu]
      exact hT u

/-- A second invariant `J` may rely on the first. -/
theorem Kept.and {J : σ → List (Event ι C E R A) → Prop}
    (H : M.Kept ok s₀ D idle start final I) (init : J s₀ [])
    (call : ∀ s h t c, I s h → J s h → ok t c → M.enabled t c s = true →
      D.view idle start h t = idle → J s (.call t c :: h))
    (wait : ∀ s h t e o s', I s h → J s h → D.may (D.view idle start h t) e →
      M.exec t e o s = some (s', none) → J s' h)
    (reply : ∀ s h t e o s' r, I s h → J s h → D.may (D.view idle start h t) e →
      M.exec t e o s = some (s', some r) → J s' (.reply t e r :: h))
    (done : ∀ s h t c a, I s h → J s h → final c a (D.view idle start h t) →
      J s (.done t c a :: h)) :
    M.Kept ok s₀ D idle start final fun s h => I s h ∧ J s h where
  code := H.code
  init := ⟨H.init, init⟩
  call s h t c hi hc he hv := ⟨H.call s h t c hi.1 hc he hv, call s h t c hi.1 hi.2 hc he hv⟩
  wait s h t e o s' hi hm he :=
    ⟨H.wait s h t e o s' hi.1 hm he, wait s h t e o s' hi.1 hi.2 hm he⟩
  reply s h t e o s' r hi hm he :=
    let hr := H.reply s h t e o s' r hi.1 hm he
    ⟨hr.1, hr.2, reply s h t e o s' r hi.1 hi.2 hm he⟩
  done s h t c a hi hf := ⟨H.done s h t c a hi.1 hf, done s h t c a hi.1 hi.2 hf⟩

/-- A thread about to make a request is entitled to it. -/
theorem Kept.may (H : M.Kept ok s₀ D idle start final I) (h : M.Reach ok s₀ s) {t : ι} {c : C}
    {e : E} {k : R e → Prog E R A} (ht : s.thread t = .running c (.op e k)) :
    D.may (D.view idle start s.hist t) e := by
  have hv := (H.holds h).2 t
  rw [ht] at hv
  exact hv.1

/-- A thread about to return knows what a call ends with. -/
theorem Kept.atReturn (H : M.Kept ok s₀ D idle start final I) (h : M.Reach ok s₀ s) {t : ι} {c : C}
    {a : A} (ht : s.thread t = .running c (.ret a)) : final c a (D.view idle start s.hist t) := by
  have hv := (H.holds h).2 t
  rw [ht] at hv
  exact hv

/-- A thread outside of calls knows nothing. -/
theorem Kept.view_idle (H : M.Kept ok s₀ D idle start final I) (h : M.Reach ok s₀ s) {t : ι}
    (ht : ∀ c p, s.thread t ≠ .running c p) : D.view idle start s.hist t = idle := by
  have hv := (H.holds h).2 t
  cases hs : s.thread t with
  | running c p => exact absurd hs (ht c p)
  | _ =>
    rw [hs] at hv
    exact hv

end Machine

end Interact
