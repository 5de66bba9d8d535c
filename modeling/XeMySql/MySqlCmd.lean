import XeMySql.MysqlDB

/-!
# `MySqlCmd` (`test/MysqlDB.h`, `test/MySqlCmd.cpp`)

A prepared statement on a `MySqlDB`: its statement handle, and the nodes and the row its result columns
are bound to. The parameters of a statement are left out, and so is what is reported.
-/

namespace XeMySql

open Interact

/-- `MySqlCmd::ValueNode`; `m_pData` is an address, and NULL is 0. -/
structure ValueNode where
  m_pData : Nat := 0
  m_dwBufferLen : Nat := 0
  m_dwLen : Nat := 0
  m_bIsNull : Bool := false
  m_bError : Bool := false
deriving DecidableEq

/-- The types of `mysql.h` that columns are bound with. -/
inductive FieldType where
  | tiny
  | short
  | long
  | float
  | double
  | varString
  | blob
  | datetime
deriving DecidableEq

/-- The `MYSQL_BIND` of a result column. Its cells are in nodes of `m_pValues`, and known here by the
index of the node. -/
structure RltBind where
  bufferType : Option FieldType := none
  buffer : Nat := 0
  bufferLength : Nat := 0
  length : Option Nat := none
  isNull : Option Nat := none
  error : Option Nat := none
  isUnsigned : Bool := false
deriving DecidableEq

/-- `class MySqlCmd`; the constructor leaves `m_dwFieldCnt` as it is. -/
structure MySqlCmd where
  m_pStmt : Option Nat := none
  m_pRow : Option (List RltBind) := none
  m_pMetaRlt : Option Nat := none
  m_pValues : List ValueNode := []
  m_dwFieldCnt : Nat
deriving DecidableEq

namespace MySqlCmd

/-- The first lines of `MySqlCmd::Reset`. -/
def closeStmt (cmd : MySqlCmd) : DbCode Bool :=
  match cmd.m_pStmt with
  | none => pure true
  | some st => DbOp.req (.stmtClose st)

/-- The last lines of `MySqlCmd::Reset`. -/
def freeMeta (cmd : MySqlCmd) : DbCode Unit :=
  match cmd.m_pMetaRlt with
  | none => pure ()
  | some r => DbOp.req (.freeResult r)

/-- `MySqlCmd::Reset` -/
def reset (cmd : MySqlCmd) : DbCode (Bool × MySqlCmd) := do
  if ← cmd.closeStmt then do
    cmd.freeMeta
    pure (true, { m_dwFieldCnt := cmd.m_dwFieldCnt })
  else pure (false, cmd)

/-- `MySqlCmd::SetCmd` from the successful `mysql_stmt_prepare` on. -/
def setFields (cmd : MySqlCmd) (st : Nat) : DbCode (Bool × MySqlCmd) := do
  let _ ← DbOp.req (.stmtParamCount st)
  let n ← DbOp.req (.stmtFieldCount st)
  let cmd := { cmd with m_dwFieldCnt := n }
  if 0 < n then do
    match ← DbOp.req (.stmtResultMetadata st) with
    | none => pure (false, cmd)
    | some r =>
      pure (true, { cmd with
        m_pMetaRlt := some r
        m_pRow := some (List.replicate n {})
        m_pValues := List.replicate n {} })
  else pure (true, cmd)

/-- `MySqlCmd::SetCmd` on its `m_pDB`; `szCMD` is the statement with its arguments. -/
def setCmd (cmd : MySqlCmd) (db : MySqlDB) (szCMD : Bytes) : DbCode (Bool × MySqlCmd) :=
  match db.m_pMySql with
  | none => pure (false, cmd)
  | some h => do
    let (bReset, cmd) ← cmd.reset
    if bReset then do
      match ← DbOp.req (.stmtInit h) with
      | none => pure (false, { cmd with m_pStmt := none })
      | some st => do
        let cmd := { cmd with m_pStmt := some st }
        if ← DbOp.req (.stmtPrepare st szCMD) then cmd.setFields st else pure (false, cmd)
    else pure (false, cmd)

/-- `MySqlCmd::Execut` on its `m_pDB`. -/
def execut (cmd : MySqlCmd) (db : MySqlDB) : DbCode (Bool × MySqlDB) :=
  match db.m_pMySql, cmd.m_pStmt with
  | some _, some st => db.sendAgain fun _ => DbOp.req (.stmtExecute st)
  | _, _ => pure (false, db)

end MySqlCmd

end XeMySql
