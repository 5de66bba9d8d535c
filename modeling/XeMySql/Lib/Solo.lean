import XeMySql.Lib.Machine

/-!
# Runs of one thread

A thread can be left alone until its call is about to return. What it can come to then, with an
environment that helps, is a property of its code and of the shared state alone.

* `Prog.canRun_bind` — the rule of sequential composition
* `Prog.CanRun.lift` — code runs in a larger set of requests as it does in its own
* `Machine.Reach.alone` — what code can run to is reached, and nothing else has happened
* `Machine.Leads.all` — what each thread can come to, one after the other, all can
-/

namespace Interact

namespace Prog

variable {E : Type} {R : E → Type} {σ O α β : Type}

/-- Some answers take the code from `s` to its end, where `Q` holds of its result. -/
def CanRun (exec : (e : E) → O → σ → Option (σ × Option (R e))) :
    Prog E R α → σ → (α → σ → Prop) → Prop
  | ret a, s, Q => Q a s
  | op e k, s, Q => ∃ o s' r, exec e o s = some (s', some r) ∧ (k r).CanRun exec s' Q

variable {exec : (e : E) → O → σ → Option (σ × Option (R e))} {p : Prog E R α} {s : σ}

theorem CanRun.mono {Q Q' : α → σ → Prop} (h : p.CanRun exec s Q) (hQ : ∀ a s', Q a s' → Q' a s') :
    p.CanRun exec s Q' := by
  induction p generalizing s with
  | ret a => exact hQ a s h
  | op e k ih =>
    obtain ⟨o, s', r, he, hk⟩ := h
    exact ⟨o, s', r, he, ih r hk⟩

/-- **Sequential composition.** -/
theorem canRun_bind {f : α → Prog E R β} {Q : β → σ → Prop} :
    (p >>= f).CanRun exec s Q ↔ p.CanRun exec s fun a s' => (f a).CanRun exec s' Q := by
  induction p generalizing s with
  | ret a => exact Iff.rfl
  | op e k ih =>
    constructor
    · rintro ⟨o, s', r, he, hk⟩
      exact ⟨o, s', r, he, (ih r).mp hk⟩
    · rintro ⟨o, s', r, he, hk⟩
      exact ⟨o, s', r, he, (ih r).mpr hk⟩

theorem CanRun.bind {f : α → Prog E R β} {P : α → σ → Prop} {Q : β → σ → Prop}
    (hp : p.CanRun exec s P) (hf : ∀ a s', P a s' → (f a).CanRun exec s' Q) :
    (p >>= f).CanRun exec s Q :=
  canRun_bind.mpr (hp.mono hf)

/-- Code runs in a larger set of requests as it does in its own. -/
theorem CanRun.lift {E' : Type} {R' : E' → Type} {inj : E → E'} {back : ∀ e, R' (inj e) → R e}
    {exec' : (e : E') → O → σ → Option (σ × Option (R' e))}
    (hexec : ∀ e o s s' r, exec e o s = some (s', some r) →
      ∃ r', exec' (inj e) o s = some (s', some r') ∧ back e r' = r)
    {Q : α → σ → Prop} (h : p.CanRun exec s Q) : (p.lift inj back).CanRun exec' s Q := by
  induction p generalizing s with
  | ret a => exact h
  | op e k ih =>
    obtain ⟨o, s', r, he, hk⟩ := h
    obtain ⟨r', he', rfl⟩ := hexec e o s s' r he
    exact ⟨o, s', r', he', ih _ hk⟩

end Prog

namespace Machine

variable {ι C E : Type} {R : E → Type} {A σ O : Type} [DecidableEq ι]
  {M : Machine ι C E R A σ O} {ok : ι → C → Prop} {s₀ : σ} {s : Sys ι C E R A σ}

/-- A thread begins a call. -/
theorem Reach.call (h : M.Reach ok s₀ s) {t : ι} {c : C} (ht : s.thread t = .idle) (hok : ok t c)
    (hc : M.enabled t c s.shared = true) :
    ∃ s', M.Reach ok s₀ s' ∧ s'.shared = s.shared ∧ s'.thread t = .running c (M.code t c) ∧
      (∀ u, u ≠ t → s'.thread u = s.thread u) ∧ s'.hist = .call t c :: s.hist := by
  refine ⟨⟨s.shared, Function.update s.thread t _, _⟩, h.step (l := .call t c) ?_ ?_, rfl,
    Function.update_self .., fun u hu => Function.update_of_ne hu .., rfl⟩
  · rintro _ _ ⟨⟩
    exact hok
  · simp only [Machine.step, ht, hc, if_true]

/-- A thread is answered. -/
theorem Reach.reply (h : M.Reach ok s₀ s) {t : ι} {c : C} {e : E} {k : R e → Prog E R A} {o : O}
    {sh : σ} {r : R e} (ht : s.thread t = .running c (.op e k))
    (he : M.exec t e o s.shared = some (sh, some r)) :
    ∃ s', M.Reach ok s₀ s' ∧ s'.shared = sh ∧ s'.thread t = .running c (k r) ∧
      (∀ u, u ≠ t → s'.thread u = s.thread u) ∧ s'.hist = .reply t e r :: s.hist := by
  refine ⟨⟨sh, Function.update s.thread t _, _⟩,
    h.step (l := .act t o) (fun _ _ hl => nomatch hl) ?_, rfl, Function.update_self ..,
    fun u hu => Function.update_of_ne hu .., rfl⟩
  simp only [Machine.step, ht, he]

/-- A thread returns from its call. -/
theorem Reach.done (h : M.Reach ok s₀ s) {t : ι} {c : C} {a : A}
    (ht : s.thread t = .running c (.ret a)) (o : O) :
    ∃ s', M.Reach ok s₀ s' ∧ s'.shared = s.shared ∧
      s'.thread t = (if M.ends t c a then .stopped else .idle) ∧
      (∀ u, u ≠ t → s'.thread u = s.thread u) ∧ s'.hist = .done t c a :: s.hist := by
  refine ⟨⟨s.shared, Function.update s.thread t _, _⟩,
    h.step (l := .act t o) (fun _ _ hl => nomatch hl) ?_, rfl, Function.update_self ..,
    fun u hu => Function.update_of_ne hu .., rfl⟩
  simp only [Machine.step, ht]

/-- What thread `t` can run to is reached: it has only made requests of its code in between, and the
other threads have not moved. -/
theorem Reach.alone {α : Type} {P : E → Prop} (h : M.Reach ok s₀ s) {t : ι} {c : C}
    {p : Prog E R α} {f : α → Prog E R A} {Q : α → σ → Prop}
    (ht : s.thread t = .running c (p >>= f)) (hp : p.CanRun (M.exec t) s.shared Q)
    (hP : p.Only P) :
    ∃ s' a, M.Reach ok s₀ s' ∧ s'.thread t = .running c (f a) ∧ Q a s'.shared ∧
      (∀ u, u ≠ t → s'.thread u = s.thread u) ∧
      ∃ evs, s'.hist = evs ++ s.hist ∧ ∀ ev ∈ evs, ∃ e r, P e ∧ ev = .reply t e r := by
  induction p generalizing s with
  | ret a => exact ⟨s, a, h, ht, hp, fun _ _ => rfl, [], rfl, by simp⟩
  | op e k ih =>
    obtain ⟨o, sh, r, he, hk⟩ := hp
    rw [Prog.op_bind] at ht
    obtain ⟨s₁, h₁, rfl, ht₁, hother₁, hhist₁⟩ := h.reply ht he
    obtain ⟨s', a, h', ht', hQ, hother, evs, hev, hevs⟩ := ih r h₁ ht₁ hk (hP.2 r)
    refine ⟨s', a, h', ht', hQ, fun u hu => (hother u hu).trans (hother₁ u hu),
      evs ++ [.reply t e r], ?_, ?_⟩
    · rw [hev, hhist₁, List.append_assoc]
      rfl
    · intro ev hm
      rcases List.mem_append.mp hm with hm | hm
      · exact hevs ev hm
      · exact ⟨e, r, hP.1, List.mem_singleton.mp hm⟩

/-! ## What a state can lead to -/

variable (M) in
/-- From `s` the threads can come to `s'` without beginning a call. -/
def Leads (s s' : Sys ι C E R A σ) : Prop :=
  ∃ ls : List (Label ι C O), (∀ l ∈ ls, ∃ t o, l = .act t o) ∧ M.run ls s = some s'

theorem Leads.refl (s : Sys ι C E R A σ) : M.Leads s s := ⟨[], by simp, rfl⟩

theorem run_append {s' : Sys ι C E R A σ} {ls ls' : List (Label ι C O)}
    (h : M.run ls s = some s') : M.run (ls ++ ls') s = M.run ls' s' := by
  induction ls generalizing s with
  | nil =>
    cases h
    rfl
  | cons l ls ih =>
    simp only [Machine.run, Option.bind_eq_some_iff] at h
    obtain ⟨s₁, h₁, h₂⟩ := h
    simp only [List.cons_append, Machine.run, h₁, Option.bind_some]
    exact ih h₂

theorem Leads.trans {s' s'' : Sys ι C E R A σ} (h : M.Leads s s') (h' : M.Leads s' s'') :
    M.Leads s s'' := by
  obtain ⟨ls, hls, hr⟩ := h
  obtain ⟨ls', hls', hr'⟩ := h'
  refine ⟨ls ++ ls', ?_, (run_append hr).trans hr'⟩
  intro l hl
  rcases List.mem_append.mp hl with hl | hl
  · exact hls l hl
  · exact hls' l hl

/-- One step of a thread in a call. -/
theorem Leads.act {s' : Sys ι C E R A σ} {t : ι} {o : O} (h : M.step (.act t o) s = some s') :
    M.Leads s s' := by
  refine ⟨[.act t o], ?_, ?_⟩
  · intro l hl
    exact ⟨t, o, List.mem_singleton.mp hl⟩
  · simp only [Machine.run, h, Option.bind_some]

theorem Leads.reach {s' : Sys ι C E R A σ} (h : M.Leads s s') (hr : M.Reach ok s₀ s) :
    M.Reach ok s₀ s' := by
  obtain ⟨ls, hls, hrun⟩ := h
  refine hr.run ?_ hrun
  intro l hl t c he
  obtain ⟨u, o, rfl⟩ := hls l hl
  cases he

/-- Who is outside of calls stays there. -/
theorem Leads.thread_eq {s' : Sys ι C E R A σ} (h : M.Leads s s') {t : ι}
    (ht : ∀ c p, s.thread t ≠ .running c p) : s'.thread t = s.thread t := by
  obtain ⟨ls, hls, hrun⟩ := h
  induction ls generalizing s with
  | nil =>
    cases hrun
    rfl
  | cons l ls ih =>
    simp only [Machine.run, Option.bind_eq_some_iff] at hrun
    obtain ⟨s₁, h₁, h₂⟩ := hrun
    obtain ⟨u, o, rfl⟩ := hls l (by simp)
    have hut : u ≠ t := by
      rintro rfl
      simp only [Machine.step] at h₁
      split at h₁
      · next hu => exact ht _ _ hu
      · next hu => exact ht _ _ hu
      · cases h₁
    have hsame := (step_cases h₁).thread_of_ne (t := t) hut
    rw [ih (hsame ▸ ht) (fun l' hl' => hls l' (by simp [hl'])) h₂, hsame]

variable (M) in
/-- From `s` thread `t` can come to `s'` within its call, while the others stay where they are. -/
def Alone (t : ι) (s s' : Sys ι C E R A σ) : Prop :=
  ∃ ls : List (Label ι C O), (∀ l ∈ ls, ∃ o, l = .act t o) ∧ M.run ls s = some s'

theorem Alone.refl (t : ι) (s : Sys ι C E R A σ) : M.Alone t s s := ⟨[], by simp, rfl⟩

theorem Alone.act {s' s'' : Sys ι C E R A σ} {t : ι} {o : O}
    (h : M.step (.act t o) s = some s') (h' : M.Alone t s' s'') : M.Alone t s s'' := by
  obtain ⟨ls, hls, hrun⟩ := h'
  refine ⟨.act t o :: ls, List.forall_mem_cons.mpr ⟨⟨o, rfl⟩, hls⟩, ?_⟩
  simp only [Machine.run, h, Option.bind_some]
  exact hrun

theorem Alone.leads {s' : Sys ι C E R A σ} {t : ι} (h : M.Alone t s s') : M.Leads s s' := by
  obtain ⟨ls, hls, hrun⟩ := h
  refine ⟨ls, fun l hl => ?_, hrun⟩
  obtain ⟨o, rfl⟩ := hls l hl
  exact ⟨t, o, rfl⟩

/-- What each step of the thread keeps. -/
theorem Alone.invariant {s' : Sys ι C E R A σ} {t : ι} {I : Sys ι C E R A σ → Prop}
    (h : M.Alone t s s') (hs : I s)
    (hstep : ∀ s o s', I s → M.Steps s (.act t o) s' → I s') : I s' := by
  obtain ⟨ls, hls, hrun⟩ := h
  induction ls generalizing s with
  | nil =>
    cases hrun
    exact hs
  | cons l ls ih =>
    simp only [Machine.run, Option.bind_eq_some_iff] at hrun
    obtain ⟨s₁, h₁, h₂⟩ := hrun
    obtain ⟨o, rfl⟩ := hls l (by simp)
    exact ih (hstep s o s₁ hs (step_cases h₁)) (fun l' hl' => hls l' (by simp [hl'])) h₂

theorem Alone.thread_of_ne {s' : Sys ι C E R A σ} {t u : ι} (h : M.Alone t s s') (hu : u ≠ t) :
    s'.thread u = s.thread u :=
  h.invariant (I := fun s' => s'.thread u = s.thread u) rfl fun _ _ _ he hs =>
    (hs.thread_of_ne (Ne.symm hu)).trans he

/-- Nor do the others learn anything. -/
theorem Alone.view_of_ne {L : Type} {D : Discipline E R L} {idle : L} {start : ι → C → L}
    {s' : Sys ι C E R A σ} {t u : ι} (h : M.Alone t s s') (hu : u ≠ t) :
    D.view idle start s'.hist u = D.view idle start s.hist u := by
  refine h.invariant (I := fun s' => D.view idle start s'.hist u = D.view idle start s.hist u) rfl ?_
  intro s₁ o s₂ he hs
  cases hs with
  | wait _ _ => exact he
  | reply _ _ =>
    rw [Discipline.view_reply, Function.update_of_ne hu]
    exact he
  | done _ =>
    rw [Discipline.view_done, Function.update_of_ne hu]
    exact he

variable (M) in
/-- From `s` the threads can come to `s'` with calls in `ok` only. -/
def LeadsWith (ok : ι → C → Prop) (s s' : Sys ι C E R A σ) : Prop :=
  ∃ ls, Allowed ok ls ∧ M.run ls s = some s'

theorem Leads.leadsWith {s' : Sys ι C E R A σ} (h : M.Leads s s') : M.LeadsWith ok s s' := by
  obtain ⟨ls, hls, hrun⟩ := h
  refine ⟨ls, ?_, hrun⟩
  intro l hl t c he
  obtain ⟨u, o, rfl⟩ := hls l hl
  cases he

theorem LeadsWith.trans {s' s'' : Sys ι C E R A σ} (h : M.LeadsWith ok s s')
    (h' : M.LeadsWith ok s' s'') : M.LeadsWith ok s s'' := by
  obtain ⟨ls, hls, hr⟩ := h
  obtain ⟨ls', hls', hr'⟩ := h'
  refine ⟨ls ++ ls', ?_, (run_append hr).trans hr'⟩
  intro l hl
  rcases List.mem_append.mp hl with hl | hl
  · exact hls l hl
  · exact hls' l hl

/-- A thread begins a call. -/
theorem Steps.leadsWith {s' : Sys ι C E R A σ} {t : ι} {c : C} (h : M.Steps s (.call t c) s')
    (hok : ok t c) : M.LeadsWith ok s s' := by
  refine ⟨[.call t c], ?_, ?_⟩
  · intro l hl u d he
    rw [List.mem_singleton.mp hl] at he
    cases he
    exact hok
  · simp only [Machine.run, h.step, Option.bind_some]

/-- Only finitely many threads have done anything. -/
theorem Reach.moved (h : M.Reach ok s₀ s) : ∃ ts : List ι, ∀ t, t ∉ ts → s.thread t = .idle := by
  induction h with
  | init => exact ⟨[], fun _ _ => rfl⟩
  | @step s s' l _ _ hs ih =>
    obtain ⟨ts, hts⟩ := ih
    refine ⟨l.thread :: ts, fun t ht => ?_⟩
    rw [List.mem_cons, not_or] at ht
    rw [(step_cases hs).thread_of_ne (Ne.symm ht.1), hts t ht.2]

/-- What thread `t` can run to, while the others stay where they are. -/
theorem leads_alone {α : Type} {t : ι} {c : C} {p : Prog E R α} {f : α → Prog E R A}
    {Q : α → σ → Prop} (ht : s.thread t = .running c (p >>= f))
    (hp : p.CanRun (M.exec t) s.shared Q) :
    ∃ s' a, M.Leads s s' ∧ s'.thread t = .running c (f a) ∧ Q a s'.shared ∧
      ∀ u, u ≠ t → s'.thread u = s.thread u := by
  induction p generalizing s with
  | ret a => exact ⟨s, a, .refl s, ht, hp, fun _ _ => rfl⟩
  | op e k ih =>
    obtain ⟨o, sh, r, he, hk⟩ := hp
    rw [Prog.op_bind] at ht
    have hstep : M.step (.act t o) s = some _ := (Steps.reply ht he).step
    obtain ⟨s', a, hl, ht', hQ, hother⟩ := ih r (s := ⟨sh, Function.update s.thread t _, _⟩)
      (Function.update_self ..) hk
    exact ⟨s', a, (Leads.act hstep).trans hl, ht', hQ,
      fun u hu => (hother u hu).trans (Function.update_of_ne hu ..)⟩

/-- A thread returns. -/
theorem leads_done {t : ι} {c : C} {a : A} (ht : s.thread t = .running c (.ret a)) (o : O) :
    ∃ s', M.Leads s s' ∧ s'.shared = s.shared ∧
      s'.thread t = (if M.ends t c a then .stopped else .idle) ∧
      ∀ u, u ≠ t → s'.thread u = s.thread u :=
  ⟨_, Leads.act (o := o) (Steps.done ht).step, rfl, Function.update_self ..,
    fun _ hu => Function.update_of_ne hu ..⟩

/-- **One thread after the other.** When each thread in a call can be led out of it from wherever `P`
holds, all of a list can. -/
theorem Leads.all {P : Sys ι C E R A σ → Prop} {ts : List ι}
    (h : ∀ s t, t ∈ ts → P s → ∃ s', M.Leads s s' ∧ P s' ∧ ∀ c p, s'.thread t ≠ .running c p)
    (hs : P s) : ∃ s', M.Leads s s' ∧ P s' ∧ ∀ t ∈ ts, ∀ c p, s'.thread t ≠ .running c p := by
  induction ts generalizing s with
  | nil => exact ⟨s, .refl s, hs, by simp⟩
  | cons t ts ih =>
    obtain ⟨s₁, hl₁, hP₁, ht⟩ := h s t (by simp) hs
    obtain ⟨s₂, hl₂, hP₂, hts⟩ := ih (fun s u hu => h s u (by simp [hu])) hP₁
    refine ⟨s₂, hl₁.trans hl₂, hP₂, ?_⟩
    intro u hu
    rcases List.mem_cons.mp hu with rfl | hu
    · rw [hl₂.thread_eq ht]
      exact ht
    · exact hts u hu

end Machine

end Interact
