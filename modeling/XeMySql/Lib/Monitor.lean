import XeMySql.Lib.Solo
import XeMySql.Lib.Sequence
import XeMySql.Lib.Lock

/-!
# Monitors

An object whose methods all hold one re-entrant lock from their first line to their last, and may
call each other. Threads take turns at single accesses to it. Seen from outside, by its calls and
returns, it is an object each of whose methods is one step.

* `Prog.drive` — how far code comes with a list of outcomes
* `Prog.Nested` — code that leaves a lock it has entered as often as it enters it
* `Monitor.refines_atomic` — the history of calls and returns is one of the atomic object
* `Monitor.Serial` — the calls one after the other, and the state they lead to
* `Monitor.returns` — nobody waits for ever
-/

namespace Interact

/-! ## Code with a list of outcomes -/

namespace Prog

variable {E : Type} {R : E → Type} {σ O α β : Type}

/-- Where the outcomes `os` take code: what is left of it, and the state. -/
def drive (exec : (e : E) → O → σ → Option (σ × Option (R e))) :
    List O → Prog E R α → σ → Option (Prog E R α × σ)
  | [], p, s => some (p, s)
  | _ :: _, ret _, _ => none
  | o :: os, op e k, s =>
    match exec e o s with
    | none => none
    | some (s₁, none) => drive exec os (op e k) s₁
    | some (s₁, some r) => drive exec os (k r) s₁

variable {exec : (e : E) → O → σ → Option (σ × Option (R e))} {p q : Prog E R α} {s s' : σ}
  {os : List O}

/-- One outcome after the other. -/
theorem drive_append {os' : List O} (h : p.drive exec os s = some (q, s')) :
    p.drive exec (os ++ os') s = q.drive exec os' s' := by
  induction os generalizing p s with
  | nil =>
    cases h
    rfl
  | cons o os ih =>
    cases p with
    | ret a => cases h
    | op e k =>
      simp only [drive, List.cons_append] at h ⊢
      split at h
      · cases h
      · exact ih h
      · exact ih h

theorem drive_wait {e : E} {k : R e → Prog E R α} {o : O} {s₁ : σ}
    (h : p.drive exec os s = some (op e k, s')) (he : exec e o s' = some (s₁, none)) :
    p.drive exec (os ++ [o]) s = some (op e k, s₁) := by
  rw [drive_append h]
  simp only [drive, he]

theorem drive_reply {e : E} {k : R e → Prog E R α} {o : O} {s₁ : σ} {r : R e}
    (h : p.drive exec os s = some (op e k, s')) (he : exec e o s' = some (s₁, some r)) :
    p.drive exec (os ++ [o]) s = some (k r, s₁) := by
  rw [drive_append h]
  simp only [drive, he]

/-- Code that has come to its end has run. -/
theorem runs_of_drive {a : α} (h : p.drive exec os s = some (ret a, s'))
    (l : List (Answer E R)) : ∃ l', p.Runs exec s l a s' l' := by
  induction os generalizing p s l with
  | nil =>
    cases h
    exact ⟨l, .ret⟩
  | cons o os ih =>
    cases p with
    | ret b => cases h
    | op e k =>
      simp only [drive] at h
      split at h
      · cases h
      · next he =>
        obtain ⟨l', hr⟩ := ih h l
        exact ⟨l', .wait o he hr⟩
      · next he =>
        obtain ⟨l', hr⟩ := ih h _
        exact ⟨l', .reply o he hr⟩

/-- And a run gives the outcomes it has had. -/
theorem Runs.drive {a : α} {l l' : List (Answer E R)} (h : p.Runs exec s l a s' l') :
    ∃ os, p.drive exec os s = some (Prog.ret a, s') := by
  induction h with
  | ret => exact ⟨[], rfl⟩
  | reply o he _ ih =>
    obtain ⟨os, hd⟩ := ih
    refine ⟨o :: os, ?_⟩
    simp only [Prog.drive, he, hd]
  | wait o he _ ih =>
    obtain ⟨os, hd⟩ := ih
    refine ⟨o :: os, ?_⟩
    simp only [Prog.drive, he, hd]

/-- Where outcomes do not matter, code that could run to its end still can, wherever it has come. -/
theorem CanRun.drive {Q : α → σ → Prop} (h : p.CanRun exec s Q)
    (hexec : ∀ e o o' s, exec e o s = exec e o' s)
    (hd : p.drive exec os s = some (q, s')) : q.CanRun exec s' Q := by
  induction os generalizing p s with
  | nil =>
    cases hd
    exact h
  | cons o os ih =>
    cases p with
    | ret b => cases hd
    | op e k =>
      obtain ⟨o', s₁, r, he, hk⟩ := h
      simp only [Prog.drive, hexec e o o' s, he] at hd
      exact ih hk hd

end Prog

/-! ## Code that holds a lock -/

/-- A request of a method: to the lock, or to the object behind it. -/
inductive MonitorOp (E : Type) where
  | enter
  | leave
  | access (e : E)

/-- The answers. -/
abbrev MonitorOp.Reply {E : Type} (R : E → Type) : MonitorOp E → Type
  | enter => Unit
  | leave => Unit
  | access e => R e

/-- Code of methods. -/
abbrev MonitorCode (E : Type) (R : E → Type) (α : Type) : Type :=
  Prog (MonitorOp E) (MonitorOp.Reply R) α

section

variable {E : Type} {R : E → Type} {α β : Type}

namespace Prog

/-- The code without the lock. -/
def erase : MonitorCode E R α → Prog E R α
  | .ret a => .ret a
  | .op .enter k => (k ()).erase
  | .op .leave k => (k ()).erase
  | .op (.access e) k => .op e fun r => (k r).erase

/-- Entered `n` times more than left, the code leaves the lock as often, and no more, before it
returns. -/
def Nested : MonitorCode E R α → Nat → Prop
  | .ret _, n => n = 0
  | .op .enter k, n => (k ()).Nested (n + 1)
  | .op .leave k, n => ∃ m, n = m + 1 ∧ (k ()).Nested m
  | .op (.access _) k, n => ∀ r, (k r).Nested n

@[simp] theorem erase_ret (a : α) : (ret a : MonitorCode E R α).erase = .ret a := rfl

@[simp] theorem erase_access (e : E) (k : R e → MonitorCode E R α) :
    (op (.access e) k : MonitorCode E R α).erase = .op e fun r => (k r).erase := rfl

@[simp] theorem nested_ret {a : α} {n : Nat} : (ret a : MonitorCode E R α).Nested n ↔ n = 0 :=
  Iff.rfl

@[simp] theorem nested_access {e : E} {k : R e → MonitorCode E R α} {n : Nat} :
    (op (.access e) k : MonitorCode E R α).Nested n ↔ ∀ r, (k r).Nested n := Iff.rfl

theorem erase_bind (p : MonitorCode E R α) (f : α → MonitorCode E R β) :
    (p >>= f).erase = p.erase >>= fun a => (f a).erase := by
  induction p with
  | ret a => rfl
  | op e k ih =>
    cases e with
    | enter => exact ih ()
    | leave => exact ih ()
    | access e => exact congrArg (op e) (funext ih)

/-- **Sequential composition.** -/
theorem Nested.bind {p : MonitorCode E R α} {f : α → MonitorCode E R β} {m n : Nat}
    (hp : p.Nested n) (hf : ∀ a, (f a).Nested m) : (p >>= f).Nested (n + m) := by
  induction p generalizing n with
  | ret a =>
    rw [nested_ret.mp hp, Nat.zero_add]
    exact hf a
  | op e k ih =>
    cases e with
    | enter =>
      have h := ih () (n := n + 1) hp
      rwa [Nat.add_right_comm] at h
    | leave =>
      obtain ⟨i, rfl, hk⟩ := hp
      exact ⟨i + m, Nat.add_right_comm i 1 m, ih () hk⟩
    | access e => exact fun r => ih r (hp r)

end Prog

namespace MonitorCode

/-- An access to the object. -/
def access (e : E) : MonitorCode E R (R e) := Prog.op (.access e) .ret

/-- What is left to do at the end of a method. -/
def finish (a : α) : MonitorCode E R α := Prog.op .leave fun _ => .ret a

/-- A method: `p` under the lock. -/
def locked (p : MonitorCode E R α) : MonitorCode E R α := Prog.op .enter fun _ => p >>= finish

@[simp] theorem access_bind (e : E) (f : R e → MonitorCode E R α) :
    (access e >>= f) = Prog.op (.access e) f := rfl

/-- Nobody sees the lock from inside. -/
@[simp] theorem erase_locked (p : MonitorCode E R α) : (locked p).erase = p.erase := by
  refine (Prog.erase_bind p finish).trans ?_
  exact bind_pure p.erase

/-- A method may be called by another. -/
theorem nested_locked {p : MonitorCode E R α} (hp : p.Nested 0) : (locked p).Nested 0 :=
  hp.bind (m := 1) fun _ => ⟨0, rfl, rfl⟩

/-- Code that does not touch the lock. -/
def inside (p : Prog E R α) : MonitorCode E R α := p.lift .access fun _ r => r

@[simp] theorem erase_inside (p : Prog E R α) : (inside p).erase = p := by
  induction p with
  | ret a => rfl
  | op e k ih => exact congrArg (Prog.op e) (funext ih)

theorem nested_inside (p : Prog E R α) : (inside p).Nested 0 := by
  induction p with
  | ret a => exact rfl
  | op e k ih => exact ih

end MonitorCode

end

/-! ## Monitors -/

/-- What a caller sees of a run. -/
inductive Observed (ι C A : Type) where
  | call (t : ι) (c : C)
  | done (t : ι) (c : C) (a : A)
deriving DecidableEq

/-- The calls and returns of a history. -/
def observed {ι C E : Type} {R : E → Type} {A : Type} (h : List (Event ι C E R A)) :
    List (Observed ι C A) :=
  h.filterMap fun
    | .call t c => some (.call t c)
    | .done t c a => some (.done t c a)
    | .reply _ _ _ => none

section

variable {ι C E : Type} {R : E → Type} {A : Type} {h : List (Event ι C E R A)} {t : ι}

@[simp] theorem observed_call {c : C} : observed (.call t c :: h) = .call t c :: observed h := rfl

@[simp] theorem observed_done {c : C} {a : A} :
    observed (.done t c a :: h) = .done t c a :: observed h := rfl

@[simp] theorem observed_reply {e : E} {r : R e} : observed (.reply t e r :: h) = observed h := rfl

end

/-- An object `σ` with methods `C` that return `A`: what each does under the lock, and what its
accesses `E` do. -/
structure Monitor (ι C E : Type) (R : E → Type) (A σ O : Type) where
  body : ι → C → MonitorCode E R A
  nested : ∀ t c, (body t c).Nested 0
  exec : ι → (e : E) → O → σ → Option (σ × Option (R e))

namespace Monitor

variable {ι C E : Type} {R : E → Type} {A σ O : Type} [DecidableEq ι]

/-- Carry out a request of thread `t`; who cannot enter waits. -/
def execAt (M : Monitor ι C E R A σ O) (t : ι) :
    (e : MonitorOp E) → O → Lock ι × σ → Option ((Lock ι × σ) × Option (MonitorOp.Reply R e))
  | .enter, _, (l, s) =>
    match l.tryEnter t with
    | some l' => some ((l', s), some ())
    | none => some ((l, s), none)
  | .leave, _, (l, s) => (l.leave t).map fun l' => ((l', s), some ())
  | .access e, o, (l, s) => (M.exec t e o s).map fun (s', r) => ((l, s'), r)

/-- The object as it is: threads that take turns at its accesses. -/
def machine (M : Monitor ι C E R A σ O) :
    Machine ι C (MonitorOp E) (MonitorOp.Reply R) A (Lock ι × σ) O where
  code t c := MonitorCode.locked (M.body t c)
  exec := M.execAt
  enabled _ _ _ := true
  ends _ _ _ := false

/-- An object each of whose methods is the one step `spec`. -/
def atomic {O' : Type} (spec : ι → C → O' → σ → Option (σ × A)) :
    Machine ι C C (fun _ => A) A σ O' where
  code _ c := Prog.ask c
  exec t c o s := (spec t c o s).map fun (s', a) => (s', some a)
  enabled _ _ _ := true
  ends _ _ _ := false

/-- A method that runs to its end has done what `spec` says. -/
def Implements {O' : Type} (M : Monitor ι C E R A σ O)
    (spec : ι → C → O' → σ → Option (σ × A)) : Prop :=
  ∀ t c os s a s', (M.body t c).erase.drive (M.exec t) os s = some (.ret a, s') →
    ∃ o, spec t c o s = some (s', a)

variable {M : Monitor ι C E R A σ O} {O' : Type} {spec : ι → C → O' → σ → Option (σ × A)}

open MonitorCode

omit [DecidableEq ι] in
/-- However a method runs to its end, it has done what `spec` says. -/
theorem implements_of_always (h : ∀ t c s, (M.body t c).erase.Always (M.exec t) s []
    fun a s' _ => ∃ o, spec t c o s = some (s', a)) : M.Implements spec := by
  intro t c os s a s' hd
  obtain ⟨l', hr⟩ := Prog.runs_of_drive hd []
  exact h t c s a s' l' hr

/-- Where a thread is, and where it is in the atomic object, which is at `s₁` when the object is at
`s`: a thread in a method has come from `s₁` to `s`. -/
inductive ThreadSim (M : Monitor ι C E R A σ O) (t : ι) (l : Lock ι) (s₁ s : σ) :
    Thread C (MonitorOp E) (MonitorOp.Reply R) A → Thread C C (fun _ => A) A → Prop
  | idle (hl : l.owner ≠ some t) : ThreadSim M t l s₁ s .idle .idle
  | before {c} (hl : l.owner ≠ some t) :
    ThreadSim M t l s₁ s (.running c (locked (M.body t c))) (.running c (.op c .ret))
  | inside {c n q os} (hl : l = .held t n) (hq : q.Nested n)
    (hd : (M.body t c).erase.drive (M.exec t) os s₁ = some (q.erase, s)) :
    ThreadSim M t l s₁ s (.running c (q >>= finish)) (.running c (.op c .ret))
  | after {c a} (hl : l.owner ≠ some t) :
    ThreadSim M t l s₁ s (.running c (.ret a)) (.running c (.ret a))

/-- A run of the object, and one of the atomic object that callers cannot tell from it. -/
structure Sim (M : Monitor ι C E R A σ O)
    (s : Machine.Sys ι C (MonitorOp E) (MonitorOp.Reply R) A (Lock ι × σ))
    (s₁ : Machine.Sys ι C C (fun _ => A) A σ) : Prop where
  observed : observed s₁.hist = observed s.hist
  free : s.shared.1 = .free → s₁.shared = s.shared.2
  thread : ∀ t, ThreadSim M t s.shared.1 s₁.shared s.shared.2 (s.thread t) (s₁.thread t)

omit [DecidableEq ι] in
/-- A thread outside does not see what happens inside. -/
theorem ThreadSim.outside {t : ι} {l l' : Lock ι} {s₁ s s₁' s' : σ}
    {th : Thread C (MonitorOp E) (MonitorOp.Reply R) A} {th₁ : Thread C C (fun _ => A) A}
    (h : ThreadSim M t l s₁ s th th₁) (hl : l.owner ≠ some t) (hl' : l'.owner ≠ some t) :
    ThreadSim M t l' s₁' s' th th₁ := by
  cases h with
  | idle _ => exact .idle hl'
  | before _ => exact .before hl'
  | inside hl₁ _ _ =>
    subst hl₁
    exact absurd rfl hl
  | after _ => exact .after hl'

variable {ok : ι → C → Prop} {s₀ : σ}

/-! ## One call after the other -/

/-- The calls a history of the atomic object has served, the latest first, with what they return. -/
def served {ι C A : Type} (h : List (Event ι C C (fun _ => A) A)) : List (ι × C × A) :=
  h.filterMap fun
    | .reply t c a => some (t, c, a)
    | _ => none

omit [DecidableEq ι] in
/-- The calls of the list, the latest first, one after the other from `s₀`. -/
inductive Serial (spec : ι → C → O' → σ → Option (σ × A)) (s₀ : σ) : List (ι × C × A) → σ → Prop
  | init : Serial spec s₀ [] s₀
  | step {l s t c o s' a} (h : Serial spec s₀ l s) (hs : spec t c o s = some (s', a)) :
    Serial spec s₀ ((t, c, a) :: l) s'

/-- The state of the atomic object is what the calls it has served make of it. -/
theorem atomic_serial {s : Machine.Sys ι C C (fun _ => A) A σ}
    (h : (atomic spec).Reach ok s₀ s) : Serial spec s₀ (served s.hist) s.shared := by
  refine h.invariant (I := fun s => Serial spec s₀ (served s.hist) s.shared) .init ?_
  intro s l s' hI _ hs
  cases hs with
  | call ht hc => exact hI
  | @wait t o c e k sh ht he =>
    simp only [atomic, Option.map_eq_some_iff] at he
    obtain ⟨_, _, he⟩ := he
    cases he
  | @reply t o c e k sh r ht he =>
    simp only [atomic, Option.map_eq_some_iff] at he
    obtain ⟨⟨s', a⟩, he, hr⟩ := he
    cases hr
    exact hI.step he
  | done ht => exact hI

omit [DecidableEq ι] in
/-- What every call keeps holds after any number of them. -/
theorem Serial.invariant {I : σ → Prop} {l : List (ι × C × A)} {s : σ}
    (h : Serial spec s₀ l s) (h₀ : I s₀)
    (hI : ∀ t c o s s' a, I s → spec t c o s = some (s', a) → I s') : I s := by
  induction h with
  | init => exact h₀
  | step _ hs ih => exact hI _ _ _ _ _ _ ih hs

/-- The calls thread `t` has returned from, the latest first, with what they have returned. -/
def returned (t : ι) (h : List (Observed ι C A)) : List (C × A) :=
  h.filterMap fun
    | .done u c a => if u = t then some (c, a) else none
    | .call _ _ => none

/-- The calls of thread `t` in a list of calls. -/
def callsOf (t : ι) (l : List (ι × C × A)) : List (C × A) :=
  l.filterMap fun (u, c, a) => if u = t then some (c, a) else none

/-- What a thread is about to return. -/
def pending {E : Type} {R : E → Type} : Thread C E R A → List (C × A)
  | .running c (.ret a) => [(c, a)]
  | _ => []

/-- **Each call is served once,** in the order of its thread: what has been served for a thread it
has returned, but for what it is about to return. -/
theorem atomic_returned {s : Machine.Sys ι C C (fun _ => A) A σ}
    (h : (atomic spec).Reach ok s₀ s) (t : ι) :
    callsOf t (served s.hist) = pending (s.thread t) ++ returned t (Interact.observed s.hist) ∧
      ∀ c p, s.thread t = .running c p → p = Prog.ask c ∨ ∃ a, p = .ret a := by
  refine h.invariant (I := fun s => callsOf t (served s.hist)
    = pending (s.thread t) ++ returned t (Interact.observed s.hist) ∧
      ∀ c p, s.thread t = .running c p → p = Prog.ask c ∨ ∃ a, p = .ret a) ⟨rfl, nofun⟩ ?_
  intro s l s' hI _ hs
  have hother : ∀ {u th}, u ≠ t → Function.update s.thread u th t = s.thread t :=
    fun hu => Function.update_of_ne (Ne.symm hu) ..
  cases hs with
  | @call u c hu hc =>
    by_cases hut : u = t
    · subst hut
      refine ⟨?_, ?_⟩
      · dsimp only
        rw [Function.update_self]
        rw [hu] at hI
        exact hI.1
      · intro c' p hp
        dsimp only at hp
        rw [Function.update_self] at hp
        cases hp
        exact Or.inl rfl
    · dsimp only
      rw [hother hut]
      exact hI
  | @wait u o c e k sh hu he =>
    simp only [atomic, Option.map_eq_some_iff] at he
    obtain ⟨_, _, he⟩ := he
    cases he
  | @reply u o c e k sh r hu he =>
    by_cases hut : u = t
    · subst hut
      rw [hu] at hI
      obtain ⟨hI, hp⟩ := hI
      rcases hp c _ rfl with hk | ⟨a, hk⟩
      · cases hk
        refine ⟨?_, ?_⟩
        · dsimp only
          rw [Function.update_self]
          simp only [served, callsOf, List.filterMap_cons, if_true, pending, observed_reply]
          exact congrArg (_ :: ·) hI
        · intro c' p hp'
          dsimp only at hp'
          rw [Function.update_self] at hp'
          cases hp'
          exact Or.inr ⟨_, rfl⟩
      · cases hk
    · dsimp only
      rw [hother hut]
      simp only [served, callsOf, List.filterMap_cons, if_neg hut, observed_reply]
      exact hI
  | @done u o c a hu =>
    by_cases hut : u = t
    · subst hut
      rw [hu] at hI
      refine ⟨?_, ?_⟩
      · dsimp only
        rw [Function.update_self]
        simp only [atomic, returned, pending, observed_done, List.filterMap_cons, if_true,
          Bool.false_eq_true, if_false]
        exact hI.1
      · intro c' p hp
        dsimp only at hp
        rw [Function.update_self] at hp
        cases hp
    · dsimp only
      rw [hother hut]
      simp only [returned, observed_done, List.filterMap_cons, if_neg hut]
      exact hI

/-! ## A thread inside -/

section

variable {t : ι} {c : C} {n : Nat} {s₁ s : σ} {e : MonitorOp E}
  {k : MonitorOp.Reply R e → MonitorCode E R A} {os : List O} {o : O} {sh : Lock ι × σ}

/-- A thread inside is answered: it is still inside, and one outcome further. -/
theorem inside_reply (hq : (Prog.op e k).Nested n)
    (hd : (M.body t c).erase.drive (M.exec t) os s₁ = some ((Prog.op e k).erase, s))
    {r : MonitorOp.Reply R e} (he : M.execAt t e o (.held t n, s) = some (sh, some r)) :
    ∃ n' os', sh.1 = .held t n' ∧ (k r).Nested n' ∧
      (M.body t c).erase.drive (M.exec t) os' s₁ = some ((k r).erase, sh.2) := by
  cases e with
  | enter =>
    simp only [execAt, Lock.tryEnter, if_true, Option.some.injEq, Prod.mk.injEq] at he
    obtain ⟨rfl, -⟩ := he
    exact ⟨n + 1, os, rfl, hq, hd⟩
  | leave =>
    obtain ⟨m, rfl, hq⟩ := hq
    simp only [execAt, Lock.leave, if_true, Option.map_some, Option.some.injEq,
      Prod.mk.injEq] at he
    obtain ⟨rfl, -⟩ := he
    exact ⟨m, os, rfl, hq, hd⟩
  | access e =>
    simp only [execAt, Option.map_eq_some_iff] at he
    obtain ⟨⟨s', r'⟩, he, hr⟩ := he
    cases hr
    exact ⟨n, os ++ [o], rfl, hq r, Prog.drive_reply hd he⟩

/-- A thread inside only waits for the object. -/
theorem inside_wait
    (hd : (M.body t c).erase.drive (M.exec t) os s₁ = some ((Prog.op e k).erase, s))
    (he : M.execAt t e o (.held t n, s) = some (sh, none)) :
    sh.1 = .held t n ∧
      ∃ os', (M.body t c).erase.drive (M.exec t) os' s₁ = some ((Prog.op e k).erase, sh.2) := by
  cases e with
  | enter =>
    simp only [execAt, Lock.tryEnter, if_true, Option.some.injEq, Prod.mk.injEq] at he
    cases he.2
  | leave =>
    simp only [execAt, Option.map_eq_some_iff] at he
    obtain ⟨_, _, he⟩ := he
    cases he
  | access e =>
    simp only [execAt, Option.map_eq_some_iff] at he
    obtain ⟨⟨s', r⟩, he, hr⟩ := he
    cases hr
    exact ⟨rfl, os ++ [o], Prog.drive_wait hd he⟩

end

/-! ## The simulation -/

/-- One thread has moved, and nobody else could see it. -/
theorem Sim.move {s s' : Machine.Sys ι C (MonitorOp E) (MonitorOp.Reply R) A (Lock ι × σ)}
    {s₁ s₁' : Machine.Sys ι C C (fun _ => A) A σ} (h : Sim M s s₁) (t : ι)
    (hobs : Interact.observed s₁'.hist = Interact.observed s'.hist)
    (hfree : s'.shared.1 = .free → s₁'.shared = s'.shared.2)
    (hself : ThreadSim M t s'.shared.1 s₁'.shared s'.shared.2 (s'.thread t) (s₁'.thread t))
    (hother : ∀ u, u ≠ t → s'.thread u = s.thread u ∧ s₁'.thread u = s₁.thread u)
    (hout : (s'.shared = s.shared ∧ s₁'.shared = s₁.shared) ∨
      ∀ u, u ≠ t → s.shared.1.owner ≠ some u ∧ s'.shared.1.owner ≠ some u) : Sim M s' s₁' := by
  refine ⟨hobs, hfree, fun u => ?_⟩
  by_cases hu : u = t
  · exact hu ▸ hself
  · obtain ⟨h1, h2⟩ := hother u hu
    rw [h1, h2]
    rcases hout with ⟨h3, h4⟩ | hout
    · rw [h3, h4]
      exact h.thread u
    · exact (h.thread u).outside (hout u hu).1 (hout u hu).2

omit [DecidableEq ι] in
theorem held_ne {l : Lock ι} {t u : ι} {n : Nat} (h : l = .held t n) (hu : u ≠ t) :
    l.owner ≠ some u := by
  intro he
  rw [h, Lock.owner_held] at he
  exact hu (Option.some.inj he).symm

omit [DecidableEq ι] in
theorem held_ne_free {l : Lock ι} {t : ι} {n : Nat} (h : l = .held t n) : l ≠ .free := by
  intro hf
  cases h.symm.trans hf

omit [DecidableEq ι] in
theorem free_owner_ne (u : ι) : (Lock.free : Lock ι).owner ≠ some u := by
  intro h
  cases h

variable [Inhabited O']

/-- **Step lemma.** What a thread does next, the atomic object does too, or nothing. -/
theorem Sim.step (H : M.Implements spec)
    {s s' : Machine.Sys ι C (MonitorOp E) (MonitorOp.Reply R) A (Lock ι × σ)}
    {s₁ : Machine.Sys ι C C (fun _ => A) A σ} {l : Label ι C O} (h : Sim M s s₁)
    (h₁ : (atomic spec).Reach ok s₀ s₁) (hl : ∀ t c, l = .call t c → ok t c)
    (hs : M.machine.Steps s l s') : ∃ s₁', (atomic spec).Reach ok s₀ s₁' ∧ Sim M s' s₁' := by
  obtain ⟨⟨lock, obj⟩, threads, hist⟩ := s
  cases hs with
  | @call t c ht _ =>
    have hsim := h.thread t
    rw [ht] at hsim
    generalize hth : s₁.thread t = th at hsim
    cases hsim with
    | idle howner =>
      obtain ⟨s₁', hr, hsh, ht', hother, hhist⟩ := h₁.call hth (hl t c rfl) rfl
      refine ⟨s₁', hr, h.move t ?_ (fun hf => hsh.trans (h.free hf)) ?_ ?_ (Or.inl ⟨rfl, hsh⟩)⟩
      · rw [hhist, observed_call, observed_call, h.observed]
      · dsimp only
        rw [ht', Function.update_self]
        exact .before howner
      · exact fun u hu => ⟨Function.update_of_ne hu .., hother u hu⟩
  | @wait t o c e k sh ht he =>
    have hsim := h.thread t
    rw [ht] at hsim
    generalize hth : s₁.thread t = th at hsim
    generalize hp : Prog.op e k = p at hsim
    refine ⟨s₁, h₁, ?_⟩
    cases hsim with
    | before howner =>
      cases hp
      simp only [machine, execAt] at he
      split at he
      · cases he
      · cases he
        exact h.move t h.observed h.free (h.thread t) (fun u _ => ⟨rfl, rfl⟩) (Or.inl ⟨rfl, rfl⟩)
    | @inside c n q os hlock hq hd =>
      dsimp only at hlock
      subst hlock
      cases q with
      | ret a =>
        cases hp
        simp [machine, execAt] at he
      | op e k' =>
        cases hp
        obtain ⟨hlock, os', hd'⟩ := inside_wait hd he
        refine h.move t h.observed (fun hf => absurd hf (held_ne_free hlock)) ?_
          (fun u _ => ⟨rfl, rfl⟩)
          (Or.inr fun u hu => ⟨held_ne rfl hu, held_ne hlock hu⟩)
        dsimp only at ht ⊢
        rw [ht, hth]
        exact .inside hlock hq hd'
    | after howner => cases hp
  | @reply t o c e k sh r ht he =>
    have hsim := h.thread t
    rw [ht] at hsim
    generalize hth : s₁.thread t = th at hsim
    generalize hp : Prog.op e k = p at hsim
    cases hsim with
    | before howner =>
      cases hp
      simp only [machine, execAt] at he
      split at he
      · next l' hl' =>
        cases he
        rcases Lock.tryEnter_eq_some hl' with ⟨rfl, rfl⟩ | ⟨n, rfl, rfl⟩
        · refine ⟨s₁, h₁, h.move t h.observed (fun hf => absurd hf (held_ne_free rfl)) ?_ ?_
            (Or.inr fun u hu => ⟨free_owner_ne u, held_ne rfl hu⟩)⟩
          · dsimp only
            rw [hth, Function.update_self, h.free rfl]
            have hdrive : (M.body t c).erase.drive (M.exec t) [] obj =
                some ((M.body t c).erase, obj) := rfl
            exact .inside rfl (M.nested t c) hdrive
          · exact fun u hu => ⟨Function.update_of_ne hu .., rfl⟩
        · exact absurd rfl howner
      · cases he
    | @inside c n q os hlock hq hd =>
      dsimp only at hlock
      subst hlock
      cases q with
      | ret a =>
        -- the last line of the method: here the atomic object takes its step
        cases hp
        obtain rfl := Prog.nested_ret.mp hq
        simp only [machine, execAt, Lock.leave_held_zero, Option.map_some, Option.some.injEq,
          Prod.mk.injEq] at he
        obtain ⟨rfl, -⟩ := he
        obtain ⟨o', hspec⟩ := H t c os _ _ _ hd
        have hexec : (atomic spec).exec t c o' s₁.shared = some (obj, some a) := by
          simp only [atomic, hspec, Option.map_some]
        obtain ⟨s₁', hr₁, hsh, ht', hother, hhist⟩ := h₁.reply hth hexec
        refine ⟨s₁', hr₁, h.move t ?_ (fun _ => hsh) ?_ ?_
          (Or.inr fun u hu => ⟨held_ne rfl hu, free_owner_ne u⟩)⟩
        · rw [hhist, observed_reply, observed_reply, h.observed]
        · dsimp only
          rw [ht', Function.update_self]
          exact .after (free_owner_ne t)
        · exact fun u hu => ⟨Function.update_of_ne hu .., hother u hu⟩
      | op e k' =>
        cases hp
        obtain ⟨n', os', hlock, hq', hd'⟩ := inside_reply hq hd he
        refine ⟨s₁, h₁, h.move t h.observed (fun hf => absurd hf (held_ne_free hlock)) ?_ ?_
          (Or.inr fun u hu => ⟨held_ne rfl hu, held_ne hlock hu⟩)⟩
        · dsimp only
          rw [hth, Function.update_self]
          exact .inside hlock hq' hd'
        · exact fun u hu => ⟨Function.update_of_ne hu .., rfl⟩
    | after howner => cases hp
  | @done t o c a ht =>
    have hsim := h.thread t
    rw [ht] at hsim
    generalize hth : s₁.thread t = th at hsim
    generalize hp : Prog.ret a = p at hsim
    cases hsim with
    | before howner => cases hp
    | @inside c n q os hlock hq hd =>
      cases q with
      | ret b => cases hp
      | op d k => cases hp
    | after howner =>
      cases hp
      obtain ⟨s₁', hr, hsh, ht', hother, hhist⟩ := h₁.done hth default
      refine ⟨s₁', hr, h.move t ?_ (fun hf => hsh.trans (h.free hf)) ?_ ?_ (Or.inl ⟨rfl, hsh⟩)⟩
      · rw [hhist, observed_done, observed_done, h.observed]
      · dsimp only
        rw [ht', Function.update_self]
        exact .idle howner
      · exact fun u hu => ⟨Function.update_of_ne hu .., hother u hu⟩

theorem reach_sim (H : M.Implements spec)
    {s : Machine.Sys ι C (MonitorOp E) (MonitorOp.Reply R) A (Lock ι × σ)}
    (h : M.machine.Reach ok (.free, s₀) s) :
    ∃ s₁, (atomic spec).Reach ok s₀ s₁ ∧ Sim M s s₁ := by
  induction h with
  | init => exact ⟨_, .init, rfl, fun _ => rfl, fun t => .idle nofun⟩
  | step _ hl hs ih =>
    obtain ⟨s₁, h₁, hsim⟩ := ih
    exact hsim.step H h₁ hl (Machine.step_cases hs)

/-- **Linearizability.** Whatever callers see of the object they could see of the atomic object, and
between two methods it is in the same state. -/
theorem refines_atomic (H : M.Implements spec)
    {s : Machine.Sys ι C (MonitorOp E) (MonitorOp.Reply R) A (Lock ι × σ)}
    (h : M.machine.Reach ok (.free, s₀) s) :
    ∃ s₁, (atomic spec).Reach ok s₀ s₁ ∧ Interact.observed s₁.hist = Interact.observed s.hist ∧
      (s.shared.1 = .free → s₁.shared = s.shared.2) ∧
      ∀ t, s.thread t = .idle → s₁.thread t = .idle := by
  obtain ⟨s₁, h₁, hsim⟩ := reach_sim H h
  refine ⟨s₁, h₁, hsim.observed, hsim.free, fun t ht => ?_⟩
  have hthread := hsim.thread t
  rw [ht] at hthread
  generalize s₁.thread t = th at hthread ⊢
  cases hthread with
  | idle _ => rfl

/-! ## Nobody waits for ever -/

/-- The methods as they are, each in one step. -/
def atOnce (M : Monitor ι C E R A σ O) (t : ι) (c : C) (os : List O) (s : σ) : Option (σ × A) :=
  match (M.body t c).erase.drive (M.exec t) os s with
  | some (.ret a, s') => some (s', a)
  | _ => none

/-- Wherever `I` holds a method can be run, and wherever it has come to it can run on, to its end,
where `I` holds again. -/
structure Live (M : Monitor ι C E R A σ O) (I : σ → Prop) : Prop where
  canRun : ∀ t c os s q s', I s → (M.body t c).erase.drive (M.exec t) os s = some (q, s') →
    q.CanRun (M.exec t) s' fun _ _ => True
  keeps : ∀ t c os s a s', I s →
    (M.body t c).erase.drive (M.exec t) os s = some (.ret a, s') → I s'

omit [Inhabited O'] [DecidableEq ι] in
theorem implements_atOnce : M.Implements M.atOnce := by
  intro t c os s a s' h
  refine ⟨os, ?_⟩
  simp only [atOnce, h]

section

variable [Inhabited O]

/-- Inside, code runs as it does without the lock, which the thread holds once in the end. -/
theorem canRun_nested {t : ι} {α : Type} {q : MonitorCode E R α} {n : Nat} {s : σ}
    {Q : α → σ → Prop} (hq : q.Nested n) (h : q.erase.CanRun (M.exec t) s Q) :
    q.CanRun (M.execAt t) (.held t n, s) fun a sh => sh.1 = .held t 0 ∧ Q a sh.2 := by
  induction q generalizing n s with
  | ret a =>
    obtain rfl := Prog.nested_ret.mp hq
    exact ⟨rfl, h⟩
  | op e k ih =>
    cases e with
    | enter =>
      refine ⟨default, (.held t (n + 1), s), (), ?_, ih () hq h⟩
      simp only [execAt, Lock.tryEnter, if_true]
    | leave =>
      obtain ⟨m, rfl, hq⟩ := hq
      refine ⟨default, (.held t m, s), (), ?_, ih () hq h⟩
      simp only [execAt, Lock.leave, if_true, Option.map_some]
    | access e =>
      obtain ⟨o, s', r, he, hk⟩ := h
      refine ⟨o, (.held t n, s'), r, ?_, ih r (hq r) hk⟩
      simp only [execAt, he, Option.map_some]

/-- A thread inside leaves a free lock behind. -/
theorem canRun_finish {t : ι} {α : Type} {q : MonitorCode E R α} {n : Nat} {s : σ}
    (hq : q.Nested n) (h : q.erase.CanRun (M.exec t) s fun _ _ => True) :
    (q >>= finish).CanRun (M.execAt t) (.held t n, s) fun _ sh => sh.1 = .free := by
  refine (canRun_nested hq h).bind ?_
  rintro a ⟨l, s'⟩ ⟨hl, -⟩
  dsimp only at hl
  subst hl
  refine ⟨default, (.free, s'), (), ?_, rfl⟩
  simp only [execAt, Lock.leave_held_zero, Option.map_some]

/-- A thread in a method that can run to its end. -/
theorem leads_finish {s : Machine.Sys ι C (MonitorOp E) (MonitorOp.Reply R) A (Lock ι × σ)} {t : ι}
    {c : C} {p : MonitorCode E R A} (ht : s.thread t = .running c p)
    (h : p.CanRun (M.execAt t) s.shared fun _ sh => sh.1 = .free) :
    ∃ s', M.machine.Leads s s' ∧ s'.shared.1 = .free ∧ s'.thread t = .idle ∧
      ∀ u, u ≠ t → s'.thread u = s.thread u := by
  have hp : p = p >>= pure := (bind_pure p).symm
  obtain ⟨s₁, a, hl₁, ht₁, hfree, hother₁⟩ :=
    Machine.leads_alone (M := M.machine) (ht.trans (congrArg _ hp)) h
  obtain ⟨s₂, hl₂, hsh, ht₂, hother₂⟩ := Machine.leads_done (M := M.machine) ht₁ default
  exact ⟨s₂, hl₁.trans hl₂, hsh ▸ hfree, ht₂, fun u hu => (hother₂ u hu).trans (hother₁ u hu)⟩

/-- **Nobody waits for ever.** From every reachable state, the calls that threads are in can all be
brought to an end. -/
theorem returns {I : σ → Prop} (H : M.Live I) (h₀ : I s₀)
    {s : Machine.Sys ι C (MonitorOp E) (MonitorOp.Reply R) A (Lock ι × σ)}
    (h : M.machine.Reach ok (.free, s₀) s) (ts : List ι) :
    ∃ s', M.machine.Leads s s' ∧ ∀ t ∈ ts, s'.thread t = .idle := by
  have hsim : ∀ {s}, M.machine.Reach ok (.free, s₀) s → ∃ s₁, I s₁.shared ∧ Sim M s s₁ := by
    intro s h
    obtain ⟨s₁, h₁, hsim⟩ := reach_sim implements_atOnce h
    refine ⟨s₁, (atomic_serial h₁).invariant h₀ ?_, hsim⟩
    intro t c os s s' a hI hs
    simp only [atOnce] at hs
    split at hs
    · next hd =>
      cases hs
      exact H.keeps t c os s _ _ hI hd
    · cases hs
  -- whoever is inside is let out first
  have hfree : ∀ {s}, M.machine.Reach ok (.free, s₀) s →
      ∃ s', M.machine.Leads s s' ∧ s'.shared.1 = .free := by
    intro s h
    obtain ⟨s₁, hI, hsim⟩ := hsim h
    obtain ⟨⟨lock, obj⟩, threads, hist⟩ := s
    cases lock with
    | free => exact ⟨_, .refl _, rfl⟩
    | held u n =>
      have hu : ThreadSim M u (.held u n) s₁.shared obj (threads u) (s₁.thread u) := hsim.thread u
      generalize hth : threads u = th at hu
      generalize s₁.thread u = th₁ at hu
      cases hu with
      | inside hlock hq hd =>
        cases hlock
        obtain ⟨s', hl, hf, -⟩ := leads_finish (s := ⟨(.held u n, obj), threads, hist⟩) hth
          (canRun_finish hq (H.canRun u _ _ _ _ _ hI hd))
        exact ⟨s', hl, hf⟩
      | _ hl => exact absurd rfl hl
  have hone : ∀ s t, t ∈ ts → M.machine.Reach ok (.free, s₀) s →
      ∃ s', M.machine.Leads s s' ∧ M.machine.Reach ok (.free, s₀) s' ∧
        ∀ c p, s'.thread t ≠ .running c p := by
    intro s t _ h
    obtain ⟨s₁, hl₁, hf⟩ := hfree h
    have h₁ := hl₁.reach h
    obtain ⟨s₂, hI, hsim⟩ := hsim h₁
    obtain ⟨⟨lock, obj⟩, threads, hist⟩ := s₁
    dsimp only at hf
    subst hf
    have ht : ThreadSim M t .free s₂.shared obj (threads t) (s₂.thread t) := hsim.thread t
    generalize hth : threads t = th at ht
    generalize s₂.thread t = th₂ at ht
    cases ht with
    | idle _ => exact ⟨_, hl₁, h₁, fun c p hc => nomatch hth.symm.trans hc⟩
    | @before c _ =>
      have hrun : (locked (M.body t c)).CanRun (M.execAt t) (.free, obj)
          fun _ sh => sh.1 = .free := by
        refine ⟨default, (.held t 0, obj), (), rfl, ?_⟩
        refine canRun_finish (M.nested t c) (H.canRun t c [] s₂.shared _ _ hI ?_)
        rw [hsim.free rfl]
        rfl
      obtain ⟨s₃, hl₃, -, ht₃, -⟩ := leads_finish (s := ⟨(.free, obj), threads, hist⟩) hth hrun
      exact ⟨s₃, hl₁.trans hl₃, (hl₁.trans hl₃).reach h, fun c p hc => nomatch ht₃.symm.trans hc⟩
    | inside hlock _ _ => cases hlock
    | after _ =>
      obtain ⟨s₃, hl₃, -, ht₃, -⟩ := Machine.leads_done (M := M.machine)
        (s := ⟨(.free, obj), threads, hist⟩) hth default
      exact ⟨s₃, hl₁.trans hl₃, (hl₁.trans hl₃).reach h, fun c p hc => nomatch ht₃.symm.trans hc⟩
  obtain ⟨s', hl, h', hts⟩ := Machine.Leads.all hone h
  refine ⟨s', hl, fun t ht => ?_⟩
  obtain ⟨s₁, -, hsim⟩ := hsim h'
  have hidle := hsim.thread t
  generalize hth : s'.thread t = th at hidle
  generalize s₁.thread t = th₁ at hidle
  cases hidle with
  | idle _ => rfl
  | _ => exact absurd hth (hts t ht _ _)

end

end Monitor

end Interact
