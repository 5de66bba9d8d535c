import XeMySql.Connection

/-!
# Queries (`xeMySql.cpp`)

`SelectDB` and the three overloads of `CXEMySql::Query`, with `HandleError` and the prepared
statement `CXEMySqlStmt` they use. The field `pCon->m_pMySql` is read once in each function: while
the connection is locked nobody else writes it.
-/

namespace XeMySql

open Interact

/-! ## `CXEMySqlStmt` -/

/-- `class CXEMySqlStmt`, on a connection that is not NULL; `m_pParams` is an array of the heap
with its elements. -/
structure CXEMySqlStmt where
  m_pCon : Nat
  m_pStmt : Option Nat := none
  m_dwParamCount : Nat := 0
  m_pParams : Option (Nat × List MYSQL_BIND) := none
deriving DecidableEq

/-- `MYSQL_TYPE_BLOB` -/
def mysqlTypeBlob : Nat := 252

namespace CXEMySqlStmt

/-- What is logged when a call on the handle has failed: `"errno:%d error:%s"`. -/
def logError (h : Nat) : Code Unit := do
  let n ← req (.lib (.errno h))
  let e ← req (.lib (.error h))
  req (.rt (.outPutDBError "errno:%d error:%s".toUTF8.toList [.int n, .str e]))

/-- `CXEMySqlStmt::Reset`, and the destructor. -/
def reset (s : CXEMySqlStmt) : Code (CXEMySqlStmt × Bool) := do
  match s.m_pStmt with
  | some st => do
    if ← req (.lib (.stmtClose st)) then
      match s.m_pParams with
      | some (a, _) => req (.rt (.deleteBinds a))
      | none => pure ()
      pure ({ s with m_pStmt := none, m_pParams := none, m_dwParamCount := 0 }, true)
    else do
      match ← req (.con (.getMySql s.m_pCon)) with
      | some h => logError h
      | none => pure ()
      pure (s, false)
  | none => do
    match s.m_pParams with
    | some (a, _) => req (.rt (.deleteBinds a))
    | none => pure ()
    pure ({ s with m_pParams := none, m_dwParamCount := 0 }, true)

/-- `CXEMySqlStmt::SetSQL` -/
def setSQL (s : CXEMySqlStmt) (szSQL : Bytes) : Code CXEMySqlStmt := do
  match ← req (.con (.getMySql s.m_pCon)) with
  | none => pure s
  | some h => do
    let (s, ok) ← reset s
    if ok then
      match ← req (.lib (.stmtInit h)) with
      | none => do
        logError h
        pure { s with m_pStmt := none }
      | some st => do
        if ← req (.lib (.stmtPrepare st szSQL)) then do
          let n ← req (.lib (.stmtParamCount st))
          if 0 < n then do
            let a ← req (.rt (.newBinds n))
            pure { s with
              m_pStmt := some st, m_dwParamCount := n, m_pParams := some (a, List.replicate n {}) }
          else pure { s with m_pStmt := some st, m_dwParamCount := n }
        else do
          let n ← req (.lib (.errno h))
          let e ← req (.lib (.error h))
          req (.rt (.outPutDBError "cmd:%s,errno:%d error:%s".toUTF8.toList
            [.str szSQL, .int n, .str e]))
          pure { s with m_pStmt := some st }
    else pure s

/-- The `MYSQL_BIND` that `SetParam` fills in. -/
def bindOf (p : BlobParam) : MYSQL_BIND where
  bufferType := some mysqlTypeBlob
  buffer := some p.pData
  bufferLength := some p.dwLen
  length := some p.pLen
  isNull := some (if p.pData != 0 then 0 else 1)
  isUnsigned := some false

/-- `CXEMySqlStmt::SetParam` -/
def setParam (s : CXEMySqlStmt) (index : Nat) (p : BlobParam) : Code CXEMySqlStmt := do
  match s.m_pStmt, ← req (.con (.getMySql s.m_pCon)) with
  | some _, some _ =>
    if index < s.m_dwParamCount then
      pure { s with m_pParams := s.m_pParams.map fun (a, l) => (a, l.set index (bindOf p)) }
    else pure s
  | _, _ => pure s

/-- The loop of `CXEMySql::Query` over the parameters of the blob, from `index` on. -/
def setParams (s : CXEMySqlStmt) (index : Nat) : DB_BLOB → Code CXEMySqlStmt
  | [] => pure s
  | p :: ps => do
    let s ← setParam s index p
    setParams s (index + 1) ps

/-- `CXEMySqlStmt::BindParams` -/
def bindParams (s : CXEMySqlStmt) : Code Bool := do
  match s.m_pStmt, ← req (.con (.getMySql s.m_pCon)) with
  | some st, some h => do
    if ← req (.lib (.stmtBindParam st ((s.m_pParams.map (·.2)).getD []))) then pure true
    else do
      logError h
      pure false
  | _, _ => pure false

/-- `CXEMySqlStmt::Execute` -/
def execute (s : CXEMySqlStmt) : Code Bool := do
  match s.m_pStmt, ← req (.con (.getMySql s.m_pCon)) with
  | some st, some h => do
    if ← req (.lib (.stmtExecute st)) then pure true
    else do
      logError h
      pure false
  | _, _ => pure false

/-- What `BindParams` and `Execute` have in common: `call` is made on the statement, and a failure is
logged. -/
def attempt (s : CXEMySqlStmt) (call : Nat → Code Bool) : Code Bool := do
  match s.m_pStmt, ← req (.con (.getMySql s.m_pCon)) with
  | some st, some h => do
    if ← call st then pure true
    else do
      logError h
      pure false
  | _, _ => pure false

theorem bindParams_eq (s : CXEMySqlStmt) : s.bindParams =
    s.attempt fun st => req (.lib (.stmtBindParam st ((s.m_pParams.map (·.2)).getD []))) := rfl

theorem execute_eq (s : CXEMySqlStmt) :
    s.execute = s.attempt fun st => req (.lib (.stmtExecute st)) := rfl

end CXEMySqlStmt

/-! ## `CXEMySql` -/

namespace CXEMySql

/-- The error numbers for which `HandleError` reconnects. -/
def isLost (errorNumber : Nat) : Bool := errorNumber ∈ [2006, 2008, 2013, 2055]

/-- `CXEMySql::HandleError`, on a connection that is not NULL. -/
def handleError (c : Nat) (errorNumber : Nat) : Code Bool :=
  if isLost errorNumber then CXEMySqlCon.reconnect c else pure false

/-- `CXEMySql::SelectDB` -/
def selectDB (db : Bytes) : Code Bool := do
  match ← req (.con .getFreeCon) with
  | none => pure false
  | some c => do
    match ← req (.con (.getMySql c)) with
    | some h => do
      if ← req (.lib (.selectDb h db)) then do
        req (.con (.unLock c))
        pure true
      else do
        req (.con (.unLock c))
        pure false
    | none => do
      req (.con (.unLock c))
      pure false

/-- The command text: `vsnprintf (szQuery, 1023, cmd, ap)`, read as a C string. -/
def formatQuery (cmd : Bytes) (args : List Printf.Arg) : Code Bytes := do
  let szQuery ← req (.rt (.vsnprintf 1023 cmd args))
  pure (CString.cstr szQuery)

/-- The error branch of the text overloads: log, then `HandleError`. -/
def queryFailed (c h : Nat) (szQuery : Bytes) : Code Bool := do
  let n ← req (.lib (.errno h))
  let e ← req (.lib (.error h))
  req (.rt (.outPutDBError "cmd:%s errorno:%d,error:%s\n".toUTF8.toList
    [.str szQuery, .int n, .str e]))
  let n ← req (.lib (.errno h))
  handleError c n

/-- `CXEMySql::Query (cmd, MYSQL_RES *res, ...)` on the handle of the locked connection. -/
def queryOn (c h : Nat) (cmd : Bytes) (args : List Printf.Arg) : Code Bool := do
  let szQuery ← formatQuery cmd args
  if ← req (.lib (.realQuery h szQuery)) then do
    req (.rt (.outPutDBStr szQuery))
    -- assigned to the parameter `res`, which ends with the call
    let _ ← req (.lib (.storeResult h))
    pure true
  else queryFailed c h szQuery

/-- `CXEMySql::Query (cmd, MYSQL_RES *res, ...)` -/
def query (cmd : Bytes) (args : List Printf.Arg) : Code Bool := do
  match ← req (.con .getFreeCon) with
  | none => pure false
  | some c => do
    let bRet ← (do
      match ← req (.con (.getMySql c)) with
      | some h => queryOn c h cmd args
      | none => pure false)
    req (.con (.unLock c))
    pure bRet

/-- `CXEMySql::Query (cmd, CXEMySqlResult *data, ...)` on the handle of the locked connection. -/
def queryDataOn (c h : Nat) (cmd : Bytes) (data : Option Nat) (args : List Printf.Arg) :
    Code Bool := do
  let szQuery ← formatQuery cmd args
  if ← req (.lib (.realQuery h szQuery)) then do
    req (.rt (.outPutDBStr szQuery))
    let nLength ← req (.lib (.fieldCount h))
    if 0 < nLength then do
      let res ← req (.lib (.storeResult h))
      match data with
      | some x => req (.res (.setRes x nLength res))
      | none => pure ()
    else pure ()
    -- `bRet = false` stands behind the branch that has set it
    pure false
  else queryFailed c h szQuery

/-- `CXEMySql::Query (cmd, CXEMySqlResult *data, ...)` -/
def queryData (cmd : Bytes) (data : Option Nat) (args : List Printf.Arg) : Code Bool := do
  match ← req (.con .getFreeCon) with
  | none => pure false
  | some c => do
    let bRet ← (do
      match ← req (.con (.getMySql c)) with
      | some h => queryDataOn c h cmd data args
      | none => pure false)
    req (.con (.unLock c))
    pure bRet

/-- The statement of `CXEMySql::Query (cmd, DB_BLOB *pData)`, from its construction to its
destruction. -/
def queryBlobOn (c : Nat) (cmd : Bytes) (pData : DB_BLOB) : Code Bool := do
  let stmt ← CXEMySqlStmt.setSQL { m_pCon := c } cmd
  let stmt ← stmt.setParams 0 pData
  let bRet ← stmt.bindParams
  let bRet ← (if bRet then stmt.execute else pure bRet)
  let _ ← stmt.reset
  pure bRet

/-- `CXEMySql::Query (cmd, DB_BLOB *pData)` -/
def queryBlob (cmd : Bytes) (pData : Option DB_BLOB) : Code Bool :=
  match pData with
  | none => query cmd []
  | some d => do
    match ← req (.con .getFreeCon) with
    | none => pure false
    | some c => do
      let bRet ← (do
        match ← req (.con (.getMySql c)) with
        | some _ => queryBlobOn c cmd d
        | none => pure false)
      req (.con (.unLock c))
      pure bRet

/-- What the three overloads have in common: `body` runs on a locked connection with a handle. -/
def locked (body : Nat → Nat → Code Bool) : Code Bool := do
  match ← req (.con .getFreeCon) with
  | none => pure false
  | some c => do
    let bRet ← (do
      match ← req (.con (.getMySql c)) with
      | some h => body c h
      | none => pure false)
    req (.con (.unLock c))
    pure bRet

theorem query_eq (cmd : Bytes) (args : List Printf.Arg) :
    query cmd args = locked fun c h => queryOn c h cmd args := rfl

theorem queryData_eq (cmd : Bytes) (data : Option Nat) (args : List Printf.Arg) :
    queryData cmd data args = locked fun c h => queryDataOn c h cmd data args := rfl

theorem queryBlob_eq (cmd : Bytes) (d : DB_BLOB) :
    queryBlob cmd (some d) = locked fun c _ => queryBlobOn c cmd d := rfl

/-- What the overload for a `CXEMySqlResult` does once the command has been accepted and logged. -/
def storeData (h : Nat) (data : Option Nat) : Code Bool := do
  let nLength ← req (.lib (.fieldCount h))
  if 0 < nLength then do
    let res ← req (.lib (.storeResult h))
    match data with
    | some x => req (.res (.setRes x nLength res))
    | none => pure ()
  else pure ()
  pure false

theorem queryDataOn_eq (c h : Nat) (cmd : Bytes) (data : Option Nat) (args : List Printf.Arg) :
    queryDataOn c h cmd data args = (do
      let szQuery ← formatQuery cmd args
      if ← req (.lib (.realQuery h szQuery)) then do
        req (.rt (.outPutDBStr szQuery))
        storeData h data
      else queryFailed c h szQuery) := rfl

theorem storeData_only {P : Op → Prop} {h : Nat} {data : Option Nat}
    (hcount : P (.lib (.fieldCount h))) (hstore : P (.lib (.storeResult h)))
    (hres : ∀ x n r, data = some x → P (.res (.setRes x n r))) : (storeData h data).Only P := by
  refine ⟨hcount, fun nLength => ?_⟩
  by_cases hn : 0 < nLength
  · simp only [Prog.bind_ret, hn, if_true]
    refine ⟨hstore, fun res => ?_⟩
    cases data with
    | none => trivial
    | some x => exact ⟨hres x _ _ rfl, fun _ => trivial⟩
  · simp only [Prog.bind_ret, hn, if_false]
    trivial

/-- **The rule of the lock.** `P c` holds of what is done on connection `c` inside the lock. -/
theorem follows_locked {L : Type} {D : Discipline Op Op.Reply L} {l : L} {P : Nat → Bool → L → Prop}
    {Q : Bool → L → Prop} {body : Nat → Nat → Code Bool} (hfind : D.may l (.con .getFreeCon))
    (hnone : Q false (D.next l (.con .getFreeCon) none))
    (hhandle : ∀ c, D.may (D.next l (.con .getFreeCon) (some c)) (.con (.getMySql c)))
    (hbody : ∀ c (m : Option Nat),
      (match m with
        | some h => body c h
        | none => pure false : Code Bool).Follows D
        (D.next (D.next l (.con .getFreeCon) (some c)) (.con (.getMySql c)) m) (P c))
    (hleave : ∀ c a l', P c a l' →
      D.may l' (.con (.unLock c)) ∧ ∀ r, Q a (D.next l' (.con (.unLock c)) r)) :
    (locked body).Follows D l Q := by
  refine ⟨hfind, fun c _ => ?_⟩
  cases c with
  | none => exact hnone
  | some c =>
    refine Prog.Follows.bind (P := P c) ⟨hhandle c, fun m _ => ?_⟩ fun a l' h => ?_
    · cases m with
      | none => exact hbody c none
      | some h => exact hbody c (some h)
    · exact ⟨(hleave c a l' h).1, fun r _ => (hleave c a l' h).2 r⟩

/-- Code with a lock makes only the requests of what it does inside, and those on connections. -/
theorem only_locked {P : Op → Prop} {body : Nat → Nat → Code Bool} (hcon : ∀ e, P (.con e))
    (hbody : ∀ c h, (body c h).Only P) : (locked body).Only P := by
  refine ⟨hcon _, fun c => ?_⟩
  cases c with
  | none => trivial
  | some c =>
    simp only [Prog.bind_ret]
    refine Prog.only_bind ⟨hcon _, fun m => ?_⟩ fun _ => ⟨hcon _, fun _ => trivial⟩
    cases m with
    | none => trivial
    | some h => exact hbody c h

/-- `CXEMySql::ExecuteSQL` -/
def executeSQL (pMySql : Option Nat) (cmd : Bytes) (args : List Printf.Arg) : Code Bool := do
  match pMySql with
  | none => pure false
  | some h => do
    let szQuery ← formatQuery cmd args
    if ← req (.lib (.realQuery h szQuery)) then do
      req (.rt (.outPutDBStr szQuery))
      pure true
    else do
      let n ← req (.lib (.errno h))
      let e ← req (.lib (.error h))
      req (.rt (.outPutDBError "cmd:%s errorno:%d,error:%s\n".toUTF8.toList
        [.str szQuery, .int n, .str e]))
      pure false

end CXEMySql

end XeMySql
