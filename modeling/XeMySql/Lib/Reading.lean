import XeMySql.Lib.Prog

/-!
# Code that reads a memory

A memory answers some requests and has no answer to others, those outside of every object. Of code
that does nothing but read: what it reads, in order, and what it returns. At a read without an
answer it ends.

* `Prog.reads_bind`, `Prog.value_bind` — sequential composition
* `Prog.within_iff` — code within bounds that returns
* `Prog.Leads` — what is left of code after some reads
-/

namespace Interact.Prog

variable {E : Type} {R : E → Type} {α β : Type} (mem : (e : E) → Option (R e))

/-- What the code reads. -/
def reads : Prog E R α → List E
  | ret _ => []
  | op e k => e :: (mem e).elim [] fun r => (k r).reads

/-- What it returns. -/
def value : Prog E R α → Option α
  | ret a => some a
  | op e k => (mem e).bind fun r => (k r).value

@[simp] theorem reads_ret (a : α) : (ret a : Prog E R α).reads mem = [] := rfl

@[simp] theorem value_ret (a : α) : (ret a : Prog E R α).value mem = some a := rfl

variable {mem}

theorem reads_op {e : E} {k : R e → Prog E R α} {r : R e} (h : mem e = some r) :
    (op e k).reads mem = e :: (k r).reads mem := by
  rw [reads, h]
  rfl

theorem value_op {e : E} {k : R e → Prog E R α} {r : R e} (h : mem e = some r) :
    (op e k).value mem = (k r).value mem := by
  rw [value, h]
  rfl

/-- The first read is made whatever the memory holds. -/
theorem mem_reads_op (e : E) (k : R e → Prog E R α) : e ∈ (op e k).reads mem := by
  unfold reads
  exact List.mem_cons_self ..

/-- Code that returns after its read. -/
theorem reads_last (e : E) (g : R e → α) : (op e fun r => ret (g r)).reads mem = [e] := by
  rw [reads]
  cases mem e <;> rfl

/-- **Sequential composition.** -/
theorem reads_bind (p : Prog E R α) (f : α → Prog E R β) :
    (p >>= f).reads mem = p.reads mem ++ (p.value mem).elim [] fun a => (f a).reads mem := by
  induction p with
  | ret a => rfl
  | op e k ih =>
    cases h : mem e with
    | none => simp [reads, value, h]
    | some r =>
      rw [op_bind, reads_op h, reads_op h, value_op h, ih r]
      rfl

theorem value_bind (p : Prog E R α) (f : α → Prog E R β) :
    (p >>= f).value mem = (p.value mem).bind fun a => (f a).value mem := by
  induction p with
  | ret a => rfl
  | op e k ih =>
    cases h : mem e with
    | none => simp [value, h]
    | some r =>
      rw [op_bind, value_op h, value_op h]
      exact ih r

/-- Code that makes only requests in `P` reads only what is in it. -/
theorem Only.reads {P : E → Prop} {p : Prog E R α} (h : p.Only P) : ∀ e ∈ p.reads mem, P e := by
  induction p with
  | ret a => simp
  | op e k ih =>
    intro e' he'
    unfold Prog.reads at he'
    rcases List.mem_cons.mp he' with rfl | he'
    · exact h.1
    · cases hm : mem e with
      | none =>
        rw [hm] at he'
        cases he'
      | some r =>
        rw [hm] at he'
        exact ih r (h.2 r) e' he'

/-- What the first part reads is read. -/
theorem reads_subset_bind (p : Prog E R α) (f : α → Prog E R β) :
    p.reads mem ⊆ (p >>= f).reads mem := by
  rw [reads_bind]
  exact List.subset_append_left _ _

/-! ## Bounds -/

/-- The code reads only what is in `P` and finds it there, and what it returns is in `Q`. -/
def Within (mem : (e : E) → Option (R e)) (P : E → Prop) : Prog E R α → (α → Prop) → Prop
  | ret a, Q => Q a
  | op e k, Q => P e ∧ ∃ r, mem e = some r ∧ (k r).Within mem P Q

variable {P : E → Prop}

/-- **The rule of one read.** -/
theorem within_ask {e : E} {f : R e → Prog E R β} {Q : β → Prop} {r : R e} (hP : P e)
    (hr : mem e = some r) (hf : (f r).Within mem P Q) : (ask e >>= f).Within mem P Q :=
  ⟨hP, r, hr, hf⟩

/-- **In bounds means**: all reads are in them, and the code returns. -/
theorem within_iff {p : Prog E R α} {Q : α → Prop} :
    p.Within mem P Q ↔ (∀ e ∈ p.reads mem, P e) ∧ ∃ a, p.value mem = some a ∧ Q a := by
  induction p with
  | ret a => simp [Within]
  | op e k ih =>
    cases h : mem e with
    | none => simp [Within, value, h]
    | some r => simp [Within, reads_op h, value_op h, h, ih, and_assoc]

theorem Within.mono {p : Prog E R α} {Q Q' : α → Prop} (h : p.Within mem P Q)
    (hQ : ∀ a, Q a → Q' a) : p.Within mem P Q' := by
  induction p with
  | ret a => exact hQ a h
  | op e k ih =>
    obtain ⟨hP, r, hr, hk⟩ := h
    exact ⟨hP, r, hr, ih r hk⟩

/-! ## What is left of code -/

/-- After some reads, all of them in `P` and found there, `q` is what is left of the code. -/
inductive Leads (mem : (e : E) → Option (R e)) (P : E → Prop) : Prog E R α → Prog E R α → Prop
  | refl {p : Prog E R α} : Leads mem P p p
  | read {e : E} {k : R e → Prog E R α} {q : Prog E R α} {r : R e} (hP : P e) (hr : mem e = some r)
    (h : Leads mem P (k r) q) : Leads mem P (op e k) q

namespace Leads

variable {p q q' : Prog E R α}

theorem trans (h : Leads mem P p q) (h' : Leads mem P q q') : Leads mem P p q' := by
  induction h with
  | refl => exact h'
  | read hP hr _ ih => exact .read hP hr (ih h')

theorem ask {e : E} {f : R e → Prog E R β} {q : Prog E R β} {r : R e} (hP : P e)
    (hr : mem e = some r) (h : Leads mem P (f r) q) : Leads mem P (Prog.ask e >>= f) q :=
  .read hP hr h

/-- What is left decides what is returned. -/
theorem value (h : Leads mem P p q) : p.value mem = q.value mem := by
  induction h with
  | refl => rfl
  | read _ hr _ ih => rw [value_op hr, ih]

/-- What is left is read. -/
theorem reads_subset (h : Leads mem P p q) : q.reads mem ⊆ p.reads mem := by
  induction h with
  | refl => exact List.Subset.refl _
  | read _ hr _ ih =>
    rw [reads_op hr]
    exact List.Subset.trans ih (List.subset_cons_self _ _)

theorem within {Q : α → Prop} (h : Leads mem P p q) (hq : q.Within mem P Q) :
    p.Within mem P Q := by
  induction h with
  | refl => exact hq
  | read hP hr _ ih => exact ⟨hP, _, hr, ih hq⟩

theorem bind {f : α → Prog E R β} (h : Leads mem P p q) : Leads mem P (p >>= f) (q >>= f) := by
  induction h with
  | refl => exact .refl
  | read hP hr _ ih => exact .read hP hr ih

end Leads

/-- Code within bounds goes on with what it returns. -/
theorem Within.leads {p : Prog E R α} {Q : α → Prop} (h : p.Within mem P Q)
    (f : α → Prog E R β) : ∃ a, Q a ∧ Leads mem P (p >>= f) (f a) := by
  induction p with
  | ret a => exact ⟨a, h, .refl⟩
  | op e k ih =>
    obtain ⟨hP, r, hr, hk⟩ := h
    obtain ⟨a, hQ, hl⟩ := ih r hk
    exact ⟨a, hQ, .read hP hr hl⟩

end Interact.Prog
