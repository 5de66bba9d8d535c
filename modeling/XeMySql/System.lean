import XeMySql.Query

/-!
# The whole program

Client threads call the public functions of `CXEMySql`, `CXEMySqlCon` and `CXEMySqlResult`; the
threads of the pool run `WorkerProc`, one round of its loop after another.
-/

namespace XeMySql

open Interact

namespace CXEMySql

/-- `CXEMySql::GetFreeJob` -/
def getFreeJob (query : Option Bytes) : Code (Option Nat) := do
  match query with
  | none => pure none
  | some q => do
    let pTask ← req (.task .alloc)
    req (.task (.strncpy pTask q q.length))
    pure (some pTask)

/-- `CXEMySql::ReleaseJob`, on a task that is not NULL. -/
def releaseJob (job : Nat) : Code Unit := do
  req (.task (.init job))
  req (.task (.free job))

/-- Code of the thread pool as code of the program. -/
def inPool {α : Type} (p : ThreadPool.Code Nat α) : Code α := p.lift .tp fun _ r => r

/-- `CXEMySql::ExecuteQueryNoRet`; `m_pWorker` is not NULL after `Initialize`. -/
def executeQueryNoRet (query : Option Bytes) : Code Unit := do
  let pTask ← getFreeJob query
  inPool (ThreadPool.processJob pTask true)

end CXEMySql

/-- `CXEMySqlWorker::ProcessTask` -/
def CXEMySqlWorker.processTask (pTask : Option Nat) : Code Unit := do
  match pTask with
  | none => pure ()
  | some k => do
    match ← req (.task (.getData k)) with
    | none => do
      let szQuery ← req (.task (.getQuery k))
      let _ ← CXEMySql.query szQuery []
    | some p => do
      let szQuery ← req (.task (.getQuery k))
      let d ← req (.task (.deref p))
      let _ ← CXEMySql.queryBlob szQuery (some d)
    CXEMySql.releaseJob k

/-- The destructor of `CXEMySqlResult`. -/
def CXEMySqlResult.destroy (x : Nat) : Code Unit := do
  match ← req (.res (.getRecords x)) with
  | some r => req (.lib (.freeResult r))
  | none => pure ()
  req (.res (.destroy x))

/-- The calls threads make. -/
inductive Call where
  | executeQueryNoRet (query : Option Bytes)
  | selectDB (db : Bytes)
  | query (cmd : Bytes) (args : List Printf.Arg)
  | queryData (cmd : Bytes) (data : Option Nat) (args : List Printf.Arg)
  | queryBlob (cmd : Bytes) (pData : Option DB_BLOB)
  | newResult
  | deleteResult (x : Nat)
  | connect (c : Nat) (p : ConnParams)
  | close (c : Nat)
  | reconnect (c : Nat)
  | start (nMax : Nat)
  | stop
  | workerProc
deriving DecidableEq

/-- The code of a call. Functions without a result return `true`, and so does a round of
`WorkerProc` that is not the last. -/
def Call.code : Call → Code Bool
  | executeQueryNoRet q => do
    CXEMySql.executeQueryNoRet q
    pure true
  | selectDB db => CXEMySql.selectDB db
  | query cmd args => CXEMySql.query cmd args
  | queryData cmd data args => CXEMySql.queryData cmd data args
  | queryBlob cmd d => CXEMySql.queryBlob cmd d
  | newResult => do
    let _ ← req (.res .construct)
    pure true
  | deleteResult x => do
    CXEMySqlResult.destroy x
    pure true
  | connect c p => CXEMySqlCon.connect c p
  | close c => CXEMySqlCon.close c
  | reconnect c => CXEMySqlCon.reconnect c
  | start n => do
    CXEMySql.inPool (ThreadPool.start n)
    pure true
  | stop => do
    CXEMySql.inPool ThreadPool.stop
    pure true
  | workerProc => ThreadPool.workerProc CXEMySql.inPool CXEMySqlWorker.processTask

/-- Workers that have been created run `WorkerProc`, all other threads call everything else. -/
def Call.enabled (t : Tid) (c : Call) (s : State) : Bool :=
  match t with
  | .client _ => c != .workerProc
  | .worker i => c == .workerProc && decide (i < s.tp.threads)

/-- A worker that has left its loop has ended. -/
def Call.ends (t : Tid) (_ : Call) (a : Bool) : Bool :=
  match t with
  | .client _ => false
  | .worker _ => !a

/-- The program. -/
def machine (rt : Runtime) : Machine Tid Call Op Op.Reply Bool State Outcome where
  code _ c := c.code
  exec := exec rt
  enabled := Call.enabled
  ends := Call.ends

/-- A state of a run of the program. -/
abbrev Sys := Machine.Sys Tid Call Op Op.Reply Bool State

/-- What is recorded of a run. -/
abbrev Ev := Event Tid Call Op Op.Reply Bool

/-! ## The beginning of a run -/

/--
The state after `Initialize`, when every `Connect` to `p` has succeeded at once, and `Start (nMax)`:
`nCon` connections and `nJob` tasks. The memory of the task pool held `garbage`.
-/
def State.started (nCon nJob garbage nMax : Nat) (p : ConnParams) : State where
  tp :=
    { m_arrayCs := .free
      m_ThreadList := (List.range nMax).map fun i => ⟨i + 1, i⟩
      m_hWorkerIoPort := 0
      ports := 1
      port := fun q => { opened := q = 0 }
      threads := nMax
      info := fun i => ⟨i + 1, i⟩
      ended := fun _ => false }
  jobs := { pool := .new garbage nJob, task := fun _ => .init, blob := fun _ => none }
  cons :=
    { m_VectorCon := List.range nCon
      con := fun c => if c < nCon then { m_pMySql := some c, params := p } else {}
      i := fun _ => 0 }
  lib :=
    { handles := nCon
      mysql := fun _ =>
        { server := some p, db := p.db, charset := some utf8, reconnect := true } }
  results := {}
  heap := 0

/-- The same with `nCon` connections and `nMax` workers, and no tasks made in advance. -/
abbrev State.small (nCon nMax : Nat) : State := .started nCon 0 0 nMax ⟨[], [], [], [], 3306⟩

/-- A runtime that keeps `n - 1` characters, as the standard says, and knows the conversion `%s`. -/
def Runtime.standard : Runtime where
  conv :=
    { render := fun spec c args =>
        match args with
        | .str s :: rest => if spec = [] ∧ c = 115 then some (s, rest) else none
        | _ => none
      render_nil := fun _ _ => rfl }
  keeps n := n - 1
  pred_le_keeps _ := Nat.le_refl _
  keeps_le n := Nat.sub_le n 1

end XeMySql
