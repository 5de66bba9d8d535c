import XeMySql.Initialize
import XeMySql.System

/-!
# The start of the program (`xe_mysql.cpp`)

`_tmain` up to its first query: the object is constructed and initialised, and the thread pool is
started. The threads that `Start` creates find an empty port until `_tmain` goes on, so nothing is
said here of what they do meanwhile.
-/

namespace XeMySql

open Interact

/-- The program before `Initialize`: the constructors of `CXEMySql` and `CThreadPool` have run. -/
def Startup.new : Startup where
  base :=
    { tp :=
        { m_arrayCs := .free
          m_ThreadList := []
          m_hWorkerIoPort := 0
          ports := 0
          port := fun _ => {}
          threads := 0
          info := fun _ => ⟨0, 0⟩
          ended := fun _ => false }
      jobs := { pool := .new 0 0, task := fun _ => .init, blob := fun _ => none }
      cons := { m_VectorCon := [], con := fun _ => {}, i := fun _ => 0 }
      lib := {}
      results := {}
      heap := 0 }
  objects := 0

/-- `CXEMySql::Start` on a machine with `processNum` processors. -/
def CXEMySql.start (processNum : Nat) : Code Unit := inPool (ThreadPool.start processNum)

/-- The first lines of `_tmain`, for any arguments of `Initialize`. -/
def tmainStart (p : ConnParams) (connectionCount jobCount processNum : Nat) : InitCode Bool := do
  let bRet ← CXEMySql.Initialize p connectionCount jobCount
  if bRet then do
    during (CXEMySql.start processNum)
    pure true
  else pure false

/-- The first lines of `_tmain`. -/
def tmain (processNum : Nat) : InitCode Bool :=
  tmainStart
    { host := CString.ascii "127.0.0.1"
      user := CString.ascii "root"
      passwd := CString.ascii "123456"
      db := CString.ascii "ioslz_chardata"
      port := 3306 } 5 1000 processNum

end XeMySql
