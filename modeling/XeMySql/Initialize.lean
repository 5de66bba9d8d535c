import XeMySql.Query

/-!
# `CXEMySql::Initialize` (`xeMySql.cpp`)

The loop that makes and connects the pooled connections, with the objects it makes by `new`. A
round of the loop connects to the database; when that fails it connects to the database `test`,
creates the database with `ExecuteSQL`, and connects once more.
-/

namespace XeMySql

open Interact

/-- The program before and while it is initialised: its state, how many objects `new` has made, and
the task pool and the worker if they exist. -/
structure Startup where
  base : State
  objects : Nat
  m_pMySqlTaskPool : Option Nat := none
  m_pWorker : Option Nat := none

/-- The requests of `Initialize`: those of other code, and what is done with new objects. -/
inductive InitOp where
  | op (e : Op)
  | newCon
  | pushBack (c : Nat)
  | deleteCon (c : Nat)
  | newTaskPool (nCount : Nat)
  | newWorker
deriving DecidableEq

/-- The answers. -/
abbrev InitOp.Reply : InitOp → Type
  | op e => e.Reply
  | newCon => Nat
  | _ => Unit

namespace Startup

/-- The vector `m_VectorCon` becomes `v`. -/
def withVector (s : Startup) (v : List Nat) : Startup :=
  { s with base := { s.base with cons := { s.base.cons with m_VectorCon := v } } }

/-- Carry out a request. A new task pool computes its step from the memory it is made in, and its
tasks are constructed. -/
def exec (rt : Runtime) (t : Tid) :
    (e : InitOp) → Outcome → Startup → Option (Startup × Option e.Reply)
  | .op e, o, s => (XeMySql.exec rt t e o s.base).map fun (x, r) => ({ s with base := x }, r)
  | .newCon, _, s =>
    some ({ s with
      objects := s.objects + 1
      base := { s.base with cons := s.base.cons.withCon s.objects {} } }, some s.objects)
  | .pushBack c, _, s => some (s.withVector (s.base.cons.m_VectorCon ++ [c]), some ())
  | .deleteCon _, _, s => some (s, some ())
  | .newTaskPool n, o, s =>
    some ({ s with
      objects := s.objects + 1
      m_pMySqlTaskPool := some s.objects
      base := { s.base with
        jobs := { s.base.jobs with pool := .new o.number n, task := fun _ => .init } } }, some ())
  | .newWorker, _, s =>
    some ({ s with objects := s.objects + 1, m_pWorker := some s.objects }, some ())

theorem exec_op {rt : Runtime} {t : Tid} {e : Op} {o : Outcome} {s s' : Startup}
    {r : Option e.Reply} (h : s.exec rt t (.op e) o = some (s', r)) :
    ∃ x, XeMySql.exec rt t e o s.base = some (x, r) ∧ s' = { s with base := x } := by
  unfold exec at h
  obtain ⟨⟨x, r'⟩, he, hr⟩ := Option.map_eq_some_iff.mp h
  cases hr
  exact ⟨x, he, rfl⟩

end Startup

/-- Code of `Initialize`. -/
abbrev InitCode (α : Type) : Type := Prog InitOp InitOp.Reply α

/-- Make a request of `Initialize`. -/
def ireq (e : InitOp) : InitCode e.Reply := Prog.ask e

/-- Other code of the program, in `Initialize`. -/
def during {α : Type} (p : Code α) : InitCode α := p.lift .op fun _ r => r

theorem during_bind {α β : Type} (p : Code α) (f : α → Code β) :
    during (p >>= f) = during p >>= fun a => during (f a) :=
  Prog.lift_bind p f

/-- `"test"` -/
def testDatabase : Bytes := CString.ascii "test"

/-- The default of the parameter `port` of `CXEMySqlCon::Connect`. -/
def defaultPort : Nat := 3306

/-- `"CREATE DATABASE %s character set utf8"` -/
def createDatabase : Bytes := CString.ascii "CREATE DATABASE %s character set utf8"

namespace CXEMySql

/-- A round of the loop: `none` when `Initialize` returns `false`, otherwise `pCon` and `bRet`. -/
def connectOne (p : ConnParams) : InitCode (Option (Nat × Bool)) := do
  let pCon ← ireq .newCon
  if ← during (CXEMySqlCon.connect pCon p) then pure (some (pCon, true))
  else do
    if ← during (CXEMySqlCon.connect pCon { p with db := testDatabase, port := defaultPort }) then do
      let m_pMySql ← ireq (.op (.con (.getMySql pCon)))
      if ← during (executeSQL m_pMySql createDatabase [.str p.db]) then do
        let _ ← during (CXEMySqlCon.close pCon)
        let bRet ← during (CXEMySqlCon.connect pCon p)
        pure (some (pCon, bRet))
      else pure none
    else pure none

/-- The loop, when `n` rounds are left; `false` when `Initialize` returns in it. -/
def connectAll (p : ConnParams) : Nat → InitCode Bool
  | 0 => pure true
  | n + 1 => do
    match ← connectOne p with
    | none => pure false
    | some (pCon, true) => do
      ireq (.pushBack pCon)
      connectAll p n
    | some (pCon, false) => do
      -- `SAFE_DELETE`, with the destructor
      let _ ← during (CXEMySqlCon.close pCon)
      ireq (.deleteCon pCon)
      connectAll p n

/-- `CXEMySql::Initialize`; in lower case the name is a keyword. -/
def Initialize (p : ConnParams) (connectionCount jobCount : Nat) : InitCode Bool := do
  if ← connectAll p connectionCount then do
    ireq (.newTaskPool jobCount)
    ireq .newWorker
    pure true
  else pure false

end CXEMySql

end XeMySql
