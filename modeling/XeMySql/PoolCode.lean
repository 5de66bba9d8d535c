import XeMySql.CPool
import XeMySql.Lib.Monitor

/-!
# The methods of `CPool`, line by line (`CPool.h`, `lock.h`)

`CPool.lean` has each method as one step. Here they are as they are written: under a `CAutoLock` on
`m_cs`, with one request for every access to the list and every `new T`, and `Alloc` calls `Step`
under the lock that it holds.

* `CPool.monitor` — the methods, for any threads
* `CPool.implements` — run to its end, each does what its step does
-/

namespace XeMySql

open Interact MonitorCode

/-- Accesses to the fields of a pool, and `new T`. -/
inductive CPoolOp where
  | empty
  | front
  | pop_front
  | push_back (pData : Nat)
  | new
  | m_nCount
  | m_nStepCount
deriving DecidableEq

/-- The answers. -/
abbrev CPoolOp.Reply : CPoolOp → Type
  | empty => Bool
  | pop_front => Unit
  | push_back _ => Unit
  | _ => Nat

/-- Carry out an access; the front of an empty list must not be touched. -/
def CPoolOp.exec : (e : CPoolOp) → CPool → Option (CPool × Option e.Reply)
  | .empty, p => some (p, some p.m_FreeList.isEmpty)
  | .front, p => p.m_FreeList.head?.map fun pData => (p, some pData)
  | .pop_front, p =>
    match p.m_FreeList with
    | [] => none
    | _ :: rest => some ({ p with m_FreeList := rest }, some ())
  | .push_back pData, p => some ({ p with m_FreeList := p.m_FreeList ++ [pData] }, some ())
  | .new, p => some ({ p with created := p.created + 1 }, some p.created)
  | .m_nCount, p => some (p, some p.m_nCount)
  | .m_nStepCount, p => some (p, some p.m_nStepCount)

/-- The methods that threads call; `Create` is called by the constructor too. -/
inductive CPoolMethod where
  | alloc
  | free (data : Nat)
  | create
  | step
deriving DecidableEq

namespace CPool

/-- Code of methods. -/
abbrev PoolCode (α : Type) : Type := MonitorCode CPoolOp CPoolOp.Reply α

/-- An access to the pool. -/
def acc (e : CPoolOp) : PoolCode e.Reply := access e

/-- The loop of `Create` and `Step`. The count is read once: nothing but the constructor changes
it. -/
def pushNewCode : Nat → PoolCode Unit
  | 0 => pure ()
  | n + 1 => do
    let pData ← acc .new
    acc (.push_back pData)
    pushNewCode n

/-- `CPool::Create` -/
def createCode : PoolCode Unit := do
  let n ← acc .m_nCount
  pushNewCode n

/-- `CPool::Step` -/
def stepCode : PoolCode Unit := do
  let n ← acc .m_nStepCount
  pushNewCode n

/-- The end of `Alloc`: the front of the list is taken. -/
def takeFront : PoolCode Nat := do
  let pData ← acc .front
  acc .pop_front
  pure pData

/-- `CPool::Alloc`, which calls `Step` as any other caller does. -/
def allocCode : PoolCode Nat := do
  if ← acc .empty then
    locked stepCode
  takeFront

/-- `CPool::Free` -/
def freeCode (data : Nat) : PoolCode Unit := acc (.push_back data)

/-- What a method does under the lock; only `Alloc` returns something. -/
def body : CPoolMethod → PoolCode (Option Nat)
  | .alloc => do
    let pData ← allocCode
    pure (some pData)
  | .free data => do
    freeCode data
    pure none
  | .create => do
    createCode
    pure none
  | .step => do
    stepCode
    pure none

/-- What a method does in one step. -/
def apply : CPoolMethod → CPool → Option (CPool × Option Nat)
  | .alloc, p => p.alloc.map fun (pData, p') => (p', some pData)
  | .free data, p => some (p.free data, none)
  | .create, p => some (p.create, none)
  | .step, p => some (p.step, none)

/-! ## The lock -/

theorem nested_pushNewCode (n : Nat) : (pushNewCode n).Nested 0 := by
  induction n with
  | zero => exact rfl
  | succ n ih => exact fun _ _ => ih

theorem nested_stepCode : stepCode.Nested 0 := fun n => nested_pushNewCode n

theorem nested_takeFront : takeFront.Nested 0 := fun _ _ => rfl

theorem nested_allocCode : allocCode.Nested 0 := by
  intro b
  cases b with
  | true => exact (nested_locked nested_stepCode).bind fun _ => nested_takeFront
  | false => exact nested_takeFront

theorem nested_body (c : CPoolMethod) : (body c).Nested 0 := by
  have hret : ∀ k : Option Nat, (Prog.ret k : PoolCode (Option Nat)).Nested 0 := fun _ => rfl
  cases c with
  | alloc => exact nested_allocCode.bind fun pData => hret (some pData)
  | free data => exact fun _ => rfl
  | create => exact Prog.Nested.bind (p := createCode) nested_pushNewCode fun _ => hret none
  | step => exact nested_stepCode.bind fun _ => hret none

/-- The pool and its lock `m_cs`, for threads `ι`. -/
def monitor (ι : Type) : Monitor ι CPoolMethod CPoolOp CPoolOp.Reply (Option Nat) CPool Unit where
  body _ := body
  nested _ := nested_body
  exec _ e _ p := e.exec p

/-! ## Run to the end -/

/-- An access of a thread: who it is does not matter. -/
abbrev access1 (e : CPoolOp) (_ : Unit) (p : CPool) : Option (CPool × Option e.Reply) := e.exec p

section

variable {α : Type} {p : CPool} {l : List (Answer CPoolOp CPoolOp.Reply)}
  {Q : α → CPool → List (Answer CPoolOp CPoolOp.Reply) → Prop}

/-- Nobody waits for an access. -/
theorem always_acc {e : CPoolOp} {k : e.Reply → Prog CPoolOp CPoolOp.Reply α}
    (h : ∀ p₁ r, e.exec p = some (p₁, some r) → (k r).Always access1 p₁ (⟨e, r⟩ :: l) Q) :
    (Prog.op e k).Always access1 p l Q := by
  refine Prog.always_op ?_ fun _ => h
  intro _ p₁ he
  cases e with
  | front =>
    simp only [access1, CPoolOp.exec, Option.map_eq_some_iff] at he
    obtain ⟨_, _, he⟩ := he
    cases he
  | pop_front =>
    simp only [access1, CPoolOp.exec] at he
    split at he <;> cases he
  | _ => cases he

end

section

variable {p : CPool} {l : List (Answer CPoolOp CPoolOp.Reply)}

/-- The loop makes `n` objects. -/
theorem always_pushNewCode (n : Nat) :
    (pushNewCode n).erase.Always access1 p l fun _ p' _ => p' = pushNew n p := by
  induction n generalizing p l with
  | zero => exact Prog.always_ret rfl
  | succ n ih =>
    refine always_acc fun p₁ pData h₁ => ?_
    cases h₁
    refine always_acc fun p₂ _ h₂ => ?_
    cases h₂
    exact ih

theorem always_createCode :
    createCode.erase.Always access1 p l fun _ p' _ => p' = p.create := by
  refine always_acc fun p₁ n h₁ => ?_
  cases h₁
  exact always_pushNewCode p.m_nCount

theorem always_stepCode : stepCode.erase.Always access1 p l fun _ p' _ => p' = p.step := by
  refine always_acc fun p₁ n h₁ => ?_
  cases h₁
  exact always_pushNewCode p.m_nStepCount

theorem always_takeFront :
    takeFront.erase.Always access1 p l fun k p' _ =>
      ∃ rest, p.m_FreeList = k :: rest ∧ p' = { p with m_FreeList := rest } := by
  refine always_acc fun p₁ pData h₁ => ?_
  simp only [CPoolOp.exec, Option.map_eq_some_iff] at h₁
  obtain ⟨k, hk, h₁⟩ := h₁
  cases h₁
  obtain ⟨rest, hl⟩ := List.head?_eq_some_iff.mp hk
  refine always_acc fun p₂ _ h₂ => ?_
  simp only [CPoolOp.exec, hl] at h₂
  cases h₂
  exact Prog.always_ret ⟨rest, hl, rfl⟩

/-- `Alloc` does what its one step does, the nested `Step` included. -/
theorem always_allocCode :
    allocCode.erase.Always access1 p l fun k p' _ => p.alloc = some (k, p') := by
  refine always_acc fun p₁ b h₁ => ?_
  cases h₁
  cases hl : p.m_FreeList with
  | nil =>
    have hstep : (locked stepCode).erase.Always access1 p
        (⟨.empty, true⟩ :: l) fun _ p' _ => p' = p.step := by
      rw [erase_locked]
      exact always_stepCode
    refine (Prog.erase_bind (locked stepCode) _ ▸ hstep.bind ?_)
    rintro _ p' l' rfl
    refine always_takeFront.mono ?_
    rintro k p'' - ⟨rest, hr, rfl⟩
    simp only [alloc, hl, List.isEmpty_nil, if_true, hr]
  | cons j rest =>
    refine always_takeFront.mono ?_
    rintro k p' - ⟨rest', hr, rfl⟩
    simp only [alloc, hr, List.isEmpty_cons, Bool.false_eq_true, if_false]

/-- **Run to its end, a method does what its step does.** -/
theorem implements (ι : Type) : (monitor ι).Implements fun _ c (_ : Unit) p => apply c p := by
  refine Monitor.implements_of_always fun t c p => ?_
  cases c with
  | alloc =>
    refine Prog.erase_bind allocCode _ ▸ always_allocCode.bind ?_
    intro k p' l' ha
    exact Prog.always_ret ⟨(), by simp only [apply, ha, Option.map_some]⟩
  | free data =>
    refine always_acc fun p₁ _ h₁ => ?_
    cases h₁
    exact Prog.always_ret ⟨(), rfl⟩
  | create =>
    refine Prog.erase_bind createCode _ ▸ always_createCode.bind ?_
    rintro _ p' l' rfl
    exact Prog.always_ret ⟨(), rfl⟩
  | step =>
    refine Prog.erase_bind stepCode _ ▸ always_stepCode.bind ?_
    rintro _ p' l' rfl
    exact Prog.always_ret ⟨(), rfl⟩

/-! ## Running on -/

theorem canRun_pushNewCode (n : Nat) :
    (pushNewCode n).erase.CanRun access1 p fun _ p' => p' = pushNew n p := by
  induction n generalizing p with
  | zero => exact rfl
  | succ n ih => exact ⟨(), _, _, rfl, (), _, (), rfl, ih⟩

theorem canRun_stepCode : stepCode.erase.CanRun access1 p fun _ p' => p' = p.step :=
  ⟨(), p, p.m_nStepCount, rfl, canRun_pushNewCode p.m_nStepCount⟩

theorem canRun_takeFront {k : Nat} {rest : List Nat} (hl : p.m_FreeList = k :: rest) :
    takeFront.erase.CanRun access1 p fun _ _ => True := by
  refine ⟨(), p, k, ?_, (), { p with m_FreeList := rest }, (), ?_, trivial⟩
  · simp only [access1, CPoolOp.exec, hl, List.head?_cons, Option.map_some]
  · simp only [access1, CPoolOp.exec, hl]

theorem canRun_allocCode (h : 0 < p.m_nStepCount) :
    allocCode.erase.CanRun access1 p fun _ _ => True := by
  refine ⟨(), p, p.m_FreeList.isEmpty, rfl, ?_⟩
  cases hl : p.m_FreeList with
  | cons j rest => exact canRun_takeFront hl
  | nil =>
    have hstep : (locked stepCode).erase.CanRun access1 p fun _ p' => p' = p.step := by
      rw [erase_locked]
      exact canRun_stepCode
    show ((locked stepCode) >>= fun _ => takeFront).erase.CanRun access1 p fun _ _ => True
    rw [Prog.erase_bind]
    refine hstep.bind ?_
    rintro _ p' rfl
    obtain ⟨n, hn⟩ : ∃ n, p.m_nStepCount = n + 1 := ⟨_, (Nat.succ_pred_eq_of_pos h).symm⟩
    have hl' : p.step.m_FreeList = p.created :: List.range' (p.created + 1) n := by
      simp only [step, pushNew_eq, hl, hn, List.nil_append, List.range'_succ]
    exact canRun_takeFront hl'

/-- A method of a pool that can grow can be run to its end. -/
theorem canRun_body (c : CPoolMethod) (h : 0 < p.m_nStepCount) :
    (body c).erase.CanRun access1 p fun _ _ => True := by
  cases c with
  | alloc =>
    exact Prog.erase_bind allocCode _ ▸ (canRun_allocCode h).bind fun _ _ _ => trivial
  | free data => exact ⟨(), _, (), rfl, trivial⟩
  | create =>
    have hcreate : createCode.erase.CanRun access1 p fun _ p' => p' = p.create :=
      ⟨(), p, p.m_nCount, rfl, canRun_pushNewCode p.m_nCount⟩
    exact Prog.erase_bind createCode _ ▸ hcreate.bind fun _ _ _ => trivial
  | step => exact Prog.erase_bind stepCode _ ▸ canRun_stepCode.bind fun _ _ _ => trivial

end

end CPool

end XeMySql
