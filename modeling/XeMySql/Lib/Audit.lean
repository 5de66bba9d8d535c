import XeMySql.Lib.Trace
import Mathlib.Data.List.Count
import Mathlib.Data.List.Perm.Basic

/-!
# Accounts of requests

Two things that code can keep to, whatever it is answered, and what this says of the history of a
run: requests come in pairs, or there are only so many of them.

* `Pairing.balance` — each thread has closed what it has opened, in this order
* `Pairing.perm` — while nobody is in a call, so have all of them together
* `Budget.within` — no call has spent more than it has been granted
-/

namespace Interact

variable {ι C E : Type} {R : E → Type} {A σ O : Type} {β : Type}

/-! ## Pairs -/

/-- Requests that come in pairs: what one of them opens, and what one of them closes, when it is
answered `r`. -/
structure Pairing (E : Type) (R : E → Type) (β : Type) where
  opens : (e : E) → R e → Option β
  closes : (e : E) → R e → Option β

namespace Pairing

variable (P : Pairing E R β)

/-- Nothing is opened before what is open has been closed, and nothing else is closed. -/
def discipline : Discipline E R (Option β) where
  may l e := ∀ r b, (P.opens e r = some b → l = none) ∧ (P.closes e r = some b → l = some b)
  can _ _ _ := True
  next l e r := if (P.closes e r).isSome then none else (P.opens e r).or l

/-- A request that neither opens nor closes. -/
def Apart (e : E) : Prop := ∀ r, P.opens e r = none ∧ P.closes e r = none

/-- What thread `t` has opened, the newest first. -/
def opened [DecidableEq ι] (t : ι) (h : List (Event ι C E R A)) : List β :=
  h.filterMap fun
    | .reply u e r => if u = t then P.opens e r else none
    | _ => none

/-- What thread `t` has closed. -/
def closed [DecidableEq ι] (t : ι) (h : List (Event ι C E R A)) : List β :=
  h.filterMap fun
    | .reply u e r => if u = t then P.closes e r else none
    | _ => none

variable {P}

@[simp] theorem discipline_next (l : Option β) (e : E) (r : R e) :
    P.discipline.next l e r = if (P.closes e r).isSome then none else (P.opens e r).or l := rfl

theorem next_apart {l : Option β} {e : E} {r : R e} (h : P.Apart e) :
    P.discipline.next l e r = l := by
  simp [(h r).1, (h r).2]

theorem may_apart {l : Option β} {e : E} (h : P.Apart e) : P.discipline.may l e := by
  intro r b
  rw [(h r).1, (h r).2]
  exact ⟨nofun, nofun⟩

/-- Code that does neither. -/
theorem follows_apart {α : Type} {p : Prog E R α} {l : Option β} (h : p.Only P.Apart) :
    p.Follows P.discipline l fun _ l' => l' = l :=
  h.follows (fun _ => may_apart) fun _ he _ => next_apart he

/-- A request that does neither comes first. -/
theorem follows_op_apart {α : Type} {e : E} {k : R e → Prog E R α} {l : Option β}
    {Q : α → Option β → Prop} (h : P.Apart e) (hk : ∀ r, (k r).Follows P.discipline l Q) :
    (Prog.op e k).Follows P.discipline l Q := by
  refine ⟨may_apart h, fun r _ => ?_⟩
  rw [next_apart h]
  exact hk r

/-- A request that may open something comes first. -/
theorem follows_op_opens {α : Type} {e : E} {k : R e → Prog E R α} {Q : α → Option β → Prop}
    (h : ∀ r, P.closes e r = none) (hk : ∀ r, (k r).Follows P.discipline (P.opens e r) Q) :
    (Prog.op e k).Follows P.discipline none Q := by
  refine ⟨fun r b => ⟨fun _ => rfl, fun hb => ?_⟩, fun r _ => ?_⟩
  · rw [h r] at hb
    cases hb
  · have hnext : P.discipline.next none e r = P.opens e r := by simp [h r]
    rw [hnext]
    exact hk r

/-- A request that closes what is open comes first. -/
theorem follows_op_closes {α : Type} {e : E} {k : R e → Prog E R α} {b : β}
    {Q : α → Option β → Prop} (ho : ∀ r, P.opens e r = none) (hc : ∀ r, P.closes e r = some b)
    (hk : ∀ r, (k r).Follows P.discipline none Q) :
    (Prog.op e k).Follows P.discipline (some b) Q := by
  refine ⟨fun r b' => ⟨fun hb => ?_, fun hb => ?_⟩, fun r _ => ?_⟩
  · rw [ho r] at hb
    cases hb
  · rw [hc r] at hb
    exact hb
  · have hnext : P.discipline.next (some b) e r = none := by simp [hc r]
    rw [hnext]
    exact hk r

section

variable [DecidableEq ι] {M : Machine ι C E R A σ O} {ok : ι → C → Prop} {s₀ : σ}
  {s : Machine.Sys ι C E R A σ}

/-- What the threads have open, by the history. -/
abbrev view (P : Pairing E R β) (h : List (Event ι C E R A)) : ι → Option β :=
  P.discipline.view none (fun _ _ => none) h

/-- What has been opened is what has been closed, and what is open. -/
def Balanced (P : Pairing E R β) (h : List (Event ι C E R A)) : Prop :=
  ∀ t, P.opened t h = (P.view h t).toList ++ P.closed t h

/-- **Step lemma.** -/
theorem Balanced.reply {h : List (Event ι C E R A)} {t : ι} {e : E} {r : R e} (hb : P.Balanced h)
    (hm : P.discipline.may (P.view h t) e) : P.Balanced (.reply t e r :: h) := by
  intro u
  have hu := hb u
  rw [view, Discipline.view_reply]
  by_cases hut : t = u
  · subst hut
    simp only [Function.update_self]
    cases hc : P.closes e r with
    | some b =>
      -- only what is open is closed
      have hopen : P.view h t = some b := (hm r b).2 hc
      have ho : P.opens e r = none := by
        rw [Option.eq_none_iff_forall_not_mem]
        intro b' hb'
        have hnone := (hm r b').1 hb'
        rw [hopen] at hnone
        cases hnone
      rw [hopen] at hu
      simpa [opened, closed, ho, hc] using hu
    | none =>
      cases ho : P.opens e r with
      | none => simpa [opened, closed, ho, hc] using hu
      | some b =>
        have hnone : P.view h t = none := (hm r b).1 ho
        rw [hnone] at hu
        simpa [opened, closed, ho, hc] using hu
  · rw [Function.update_of_ne (Ne.symm hut)]
    simpa [opened, closed, hut] using hu

/-- Calls begin and end with nothing open. -/
theorem Balanced.other {h : List (Event ι C E R A)} {t : ι} (hb : P.Balanced h)
    (ht : P.view h t = none) {ev : Event ι C E R A}
    (hview : P.view (ev :: h) = Function.update (P.view h) t none)
    (hev : ∀ u e r, ev ≠ .reply u e r) : P.Balanced (ev :: h) := by
  intro u
  have hsame : P.view (ev :: h) u = P.view h u := by
    rw [hview, ← ht, Function.update_eq_self]
  have hu := hb u
  rw [hsame]
  cases ev with
  | reply u e r => exact absurd rfl (hev u e r)
  | _ => exact hu

/-- Calls that close what they open. -/
def Closing (P : Pairing E R β) (M : Machine ι C E R A σ O) (ok : ι → C → Prop) : Prop :=
  ∀ t c, ok t c → (M.code t c).Follows P.discipline none fun _ l => l = none

theorem kept (hcode : P.Closing M ok) (s₀ : σ) :
    M.Kept ok s₀ P.discipline none (fun _ _ => none) (fun _ _ l => l = none)
      fun _ h => P.Balanced h where
  code := hcode
  init _ := rfl
  call _ _ _ _ hb _ _ hv := hb.other hv Discipline.view_call nofun
  wait _ _ _ _ _ _ hb _ _ := hb
  reply _ _ _ _ _ _ _ hb hm _ := ⟨trivial, hb.reply hm⟩
  done _ _ _ _ _ hb hf := hb.other hf Discipline.view_done nofun

/-- **Each thread has closed what it has opened**, in this order, but for at most one thing, which a
thread outside of calls has not. -/
theorem balance (hcode : P.Closing M ok) (h : M.Reach ok s₀ s) (t : ι) :
    ∃ l : Option β, P.opened t s.hist = l.toList ++ P.closed t s.hist ∧
      ((∀ c p, s.thread t ≠ .running c p) → l = none) :=
  ⟨P.view s.hist t, ((kept hcode s₀).holds h).1 t, (kept hcode s₀).view_idle h⟩

end

/-! ### All threads together -/

/-- What all threads have opened. -/
def allOpened (P : Pairing E R β) (h : List (Event ι C E R A)) : List (ι × β) :=
  h.filterMap fun
    | .reply u e r => (P.opens e r).map (u, ·)
    | _ => none

/-- What all threads have closed. -/
def allClosed (P : Pairing E R β) (h : List (Event ι C E R A)) : List (ι × β) :=
  h.filterMap fun
    | .reply u e r => (P.closes e r).map (u, ·)
    | _ => none

/-- A list that is tagged with threads contains for each thread what is its own. -/
theorem count_tagged [DecidableEq ι] [DecidableEq β] (f : (e : E) → R e → Option β)
    (h : List (Event ι C E R A)) (t : ι) (b : β) :
    (h.filterMap fun | .reply u e r => (f e r).map (u, ·) | _ => none).count (t, b) =
      (h.filterMap fun | .reply u e r => if u = t then f e r else none | _ => none).count b := by
  induction h with
  | nil => rfl
  | cons ev h ih =>
    cases ev with
    | reply u e r =>
      cases hf : f e r with
      | none =>
        by_cases hu : u = t <;> simpa [List.filterMap_cons, hf, hu] using ih
      | some b' =>
        by_cases hu : u = t
        · simpa [List.filterMap_cons, hf, hu, List.count_cons] using ih
        · simpa [List.filterMap_cons, hf, hu, List.count_cons] using ih
    | _ => exact ih

/-- **While nobody is in a call, what has been opened has been closed.** -/
theorem perm [DecidableEq ι] [DecidableEq β] {M : Machine ι C E R A σ O} {ok : ι → C → Prop}
    {s₀ : σ} {s : Machine.Sys ι C E R A σ} (hcode : P.Closing M ok) (h : M.Reach ok s₀ s)
    (hidle : ∀ t c p, s.thread t ≠ .running c p) :
    (P.allOpened s.hist).Perm (P.allClosed s.hist) := by
  rw [List.perm_iff_count]
  rintro ⟨t, b⟩
  obtain ⟨l, hl, hnone⟩ := balance hcode h t
  obtain rfl := hnone (hidle t)
  have hboth : (P.opened t s.hist).count b = (P.closed t s.hist).count b := by rw [hl]; rfl
  exact (count_tagged P.opens s.hist t b).trans (hboth.trans (count_tagged P.closes s.hist t b).symm)

end Pairing

/-! ## Budgets -/

/-- What requests cost, and what is granted at the beginning of a call and with an answer. -/
structure Budget (C E : Type) (R : E → Type) where
  cost : E → Nat
  atCall : C → Nat
  grants : (e : E) → R e → Nat

namespace Budget

variable (B : Budget C E R)

/-- A thread spends what it has. -/
def discipline : Discipline E R Nat where
  may l e := B.cost e ≤ l
  can _ _ _ := True
  next l e r := l - B.cost e + B.grants e r

variable {B} in
@[simp] theorem discipline_next (l : Nat) (e : E) (r : R e) :
    B.discipline.next l e r = l - B.cost e + B.grants e r := rfl

/-- What has been spent with these answers. -/
def spent (l : List (Answer E R)) : Nat := l.foldr (fun x n => B.cost x.1 + n) 0

/-- What has been granted with them. -/
def granted (l : List (Answer E R)) : Nat := l.foldr (fun x n => B.grants x.1 x.2 + n) 0

variable {B}

/-- Code whose requests cost nothing and grant nothing. -/
theorem follows_free {α : Type} {p : Prog E R α} {l : Nat}
    (h : p.Only fun e => B.cost e = 0 ∧ ∀ r, B.grants e r = 0) :
    p.Follows B.discipline l fun _ l' => l' = l := by
  refine h.follows (fun e he => ?_) fun e he r => ?_
  · show B.cost e ≤ l
    rw [he.1]
    exact Nat.zero_le l
  · simp [he.1, he.2]

variable [DecidableEq ι] {M : Machine ι C E R A σ O} {ok : ι → C → Prop} {s₀ : σ}
  {s : Machine.Sys ι C E R A σ}

/-- What is left of what has been granted. -/
abbrev view (B : Budget C E R) (h : List (Event ι C E R A)) : ι → Nat :=
  B.discipline.view 0 (fun _ c => B.atCall c) h

/-- In each call, what has been spent and what is left is what has been granted. -/
def Settled (B : Budget C E R) (h : List (Event ι C E R A)) : Prop :=
  ∀ t c, presentCall t h = some c →
    B.spent (callTrace t h) + B.view h t = B.atCall c + B.granted (callTrace t h)

/-- Calls that spend no more than they are granted. -/
def Thrifty (B : Budget C E R) (M : Machine ι C E R A σ O) (ok : ι → C → Prop) : Prop :=
  ∀ t c, ok t c → (M.code t c).Follows B.discipline (B.atCall c) fun _ _ => True

theorem kept (hcode : B.Thrifty M ok) (s₀ : σ) :
    M.Kept ok s₀ B.discipline 0 (fun _ c => B.atCall c) (fun _ _ _ => True)
      fun _ h => B.Settled h where
  code := hcode
  init := by
    intro t c hc
    cases hc
  call _ h t c hb _ _ _ u d hd := by
    rw [view, Discipline.view_call, callTrace_call]
    by_cases hut : t = u
    · subst hut
      simp only [presentCall, if_true, Option.some.injEq] at hd
      subst hd
      simp [spent, granted]
    · simp only [presentCall, if_neg hut] at hd
      rw [if_neg hut, Function.update_of_ne (Ne.symm hut)]
      exact hb u d hd
  wait _ _ _ _ _ _ hb _ _ := hb
  reply _ h t e _ _ r hb hm _ := by
    refine ⟨trivial, fun u d hd => ?_⟩
    have hu := hb u d hd
    have hm' : B.cost e ≤ B.discipline.view 0 (fun _ c => B.atCall c) h t := hm
    rw [view, Discipline.view_reply, callTrace_reply]
    by_cases hut : t = u
    · subst hut
      simp only [spent, granted, view] at hu
      simp only [spent, granted, Function.update_self, if_true, List.foldr_cons, discipline_next]
      omega
    · rw [if_neg hut, Function.update_of_ne (Ne.symm hut)]
      exact hu
  done _ h t c a hb _ u d hd := by
    rw [view, Discipline.view_done, callTrace_done]
    by_cases hut : t = u
    · simp [presentCall, hut] at hd
    · simp only [presentCall, if_neg hut] at hd
      rw [if_neg hut, Function.update_of_ne (Ne.symm hut)]
      exact hb u d hd

/-- **No call has spent more than it has been granted.** -/
theorem within (hcode : B.Thrifty M ok) (h : M.Reach ok s₀ s) {t : ι} {c : C} {p : Prog E R A}
    (ht : s.thread t = .running c p) :
    B.spent (callTrace t s.hist) ≤ B.atCall c + B.granted (callTrace t s.hist) := by
  have hsettled := ((kept hcode s₀).holds h).1 t c (h.present ht)
  exact hsettled ▸ Nat.le_add_right _ _

end Budget

end Interact
