import XeMySql.RltField

/-!
# The old library with its memory (`test/MysqlDB.h`, `test/*.cpp`)

`MySqlDB`, `MySqlQuery` and `MySqlCmd` once more, now with the strings and arrays they allocate, what
they report, and any number of objects in one program. Blocks of memory, handles, statements and result
sets are numbered in the order in which they are handed out. Memory does not run out.

Left out are the local arrays that texts are formatted into, what libmysql reads and writes through the
addresses in a `MYSQL_BIND`, and that a result set of `mysql_use_result` needs its connection. What the
accessors make of a cell is in `MySqlQuery.lean` and `RltField.lean`.
-/

namespace XeMySql.Memory

open Interact

/-- A `char*`: the block it points into, if that is one of the library's, and what is there. -/
structure CStr where
  p : Option Nat := none
  chars : Chars
deriving DecidableEq

/-- A string that `strdup` has made. -/
structure Str where
  p : Nat
  chars : Chars
deriving DecidableEq

/-- The pointer to it. -/
def Str.cstr (s : Str) : CStr := ⟨some s.p, s.chars⟩

/-- A pointer to memory that is not the library's. -/
def CStr.ofText (s : Bytes) : CStr := { chars := .text s }

/-- The pointer after `free (m_sz)`. -/
def CStr.afterFree (m_sz : Option Str) (s : CStr) : CStr :=
  if s.p.isSome ∧ s.p = m_sz.map (·.p) then { s with chars := .freed } else s

/-- The `MYSQL_BIND` that `SetParam` fills; addresses are numbers, and NULL is 0. -/
structure ParamBind where
  bufferType : Option FieldType
  buffer : Nat
  bufferLength : Nat
  length : Nat
  isNull : Nat
  isUnsigned : Bool
deriving DecidableEq

/-- What the classes ask of libmysql, of the heap, and of the function behind `m_pErrorDump`. A pointer
is NULL where it is `none`. -/
inductive MemOp where
  /-- a call that `MysqlDB.lean` knows -/
  | db (e : DbOp)
  | fieldCount (h : Option Nat)
  | storeResult (h : Option Nat)
  | useResult (h : Option Nat)
  | fetchFields (r : Nat)
  | fetchRow (r : Option Nat)
  | fetchLengths (r : Nat)
  | numRows (r : Nat)
  /-- `m_pFields[i].name` -/
  | fieldName (r i : Nat)
  | stmtBindParam (st : Nat) (a : Option Nat)
  | stmtBindResult (st : Nat) (a : Option Nat)
  | stmtStoreResult (st : Nat)
  | stmtNumRows (st : Nat)
  | stmtFetch (st : Nat)
  | stmtError (st : Nat)
  /-- libmysql or `sprintf` reads a string -/
  | read (s : CStr)
  | strdup (s : CStr)
  | free (p : Nat)
  | newArray (n : Nat)
  | memset (p n : Nat)
  /-- an access to element `i` of the array at `p` -/
  | touch (p i : Nat)
  /-- `m_pParams[i] = b` -/
  | setParam (p i : Nat) (b : ParamBind)
  | deleteArray (p : Nat)
  /-- `m_pErrorDump` is told `mysql_errno` and `mysql_error` -/
  | errorDump (h : Option Nat)
  /-- `m_pErrorDump` is told a message, printed with a string -/
  | errorDumpSimple (szMsg : Bytes) (arg : Option CStr)
  /-- an object that is not there is used, or NULL is followed -/
  | undefined

namespace MemOp

/-- The answers. -/
abbrev Reply : MemOp → Type
  | db e => e.Reply
  | fieldCount _ => Nat
  | storeResult _ => Option Nat
  | useResult _ => Option Nat
  | fetchRow _ => Bool
  | numRows _ => Nat
  | fieldName _ _ => Bytes
  | stmtBindParam _ _ => Bool
  | stmtBindResult _ _ => Bool
  | stmtStoreResult _ => Bool
  | stmtNumRows _ => Nat
  | stmtFetch _ => Bool
  | stmtError _ => Bytes
  | strdup _ => Nat
  | newArray _ => Nat
  | undefined => Empty
  | _ => Unit

/-- Make a request. -/
def req (e : MemOp) : Prog MemOp Reply e.Reply := Prog.ask e

end MemOp

/-- Code of the classes. -/
abbrev MemCode (α : Type) : Type := Prog MemOp MemOp.Reply α

/-- The answers such code has had. -/
abbrev MemTrace : Type := List (Answer MemOp MemOp.Reply)

/-- What cannot go on. -/
def undefined {α : Type} : MemCode α := do
  let x ← MemOp.req .undefined
  x.elim

/-- What has been handed out. -/
structure MemEnv where
  db : DbEnv := {}
  results : Nat := 0
  blocks : Nat := 0

/-- A result set, if the call succeeds. -/
def MemEnv.newResult (s : MemEnv) (o : Outcome) : MemEnv × Option Nat :=
  if o.ok then ({ s with results := s.results + 1 }, some s.results) else (s, none)

/-- A block of memory. -/
def MemEnv.newBlock (s : MemEnv) : MemEnv × Nat := ({ s with blocks := s.blocks + 1 }, s.blocks)

/-- A call of libmysql that `MysqlDB.lean` knows; a result set gets a number of its own. -/
def dbExec : (e : DbOp) → Outcome → MemEnv → Option (MemEnv × Option e.Reply)
  | .query none _, _, _ => none
  | .realQuery none _, _, _ => none
  | .stmtResultMetadata _, o, s => some ((s.newResult o).1, some (s.newResult o).2)
  | e, o, s => (e.exec o s.db).map fun x => ({ s with db := x.1 }, x.2)

/-- Carry out a request. Other than `mysql_errno`, the calls of libmysql do not return when they are
given NULL for the handle or the result set. -/
def MemOp.exec : (e : MemOp) → Outcome → MemEnv → Option (MemEnv × Option e.Reply)
  | db e, o, s => dbExec e o s
  | fieldCount none, _, _ => none
  | fieldCount (some _), o, s => some (s, some o.number)
  | storeResult none, _, _ => none
  | storeResult (some _), o, s => some ((s.newResult o).1, some (s.newResult o).2)
  | useResult none, _, _ => none
  | useResult (some _), o, s => some ((s.newResult o).1, some (s.newResult o).2)
  | fetchFields _, _, s => some (s, some ())
  | fetchRow none, _, _ => none
  | fetchRow (some _), o, s => some (s, some o.ok)
  | fetchLengths _, _, s => some (s, some ())
  | numRows _, o, s => some (s, some o.number)
  | fieldName _ _, o, s => some (s, some o.text)
  | stmtBindParam _ _, o, s => some (s, some o.ok)
  | stmtBindResult _ _, o, s => some (s, some o.ok)
  | stmtStoreResult _, o, s => some (s, some o.ok)
  | stmtNumRows _, o, s => some (s, some o.number)
  | stmtFetch _, o, s => some (s, some o.ok)
  | stmtError _, o, s => some (s, some o.text)
  | read _, _, s => some (s, some ())
  | strdup _, _, s => some (s.newBlock.1, some s.newBlock.2)
  | free _, _, s => some (s, some ())
  | newArray _, _, s => some (s.newBlock.1, some s.newBlock.2)
  | memset _ _, _, s => some (s, some ())
  | touch _ _, _, s => some (s, some ())
  | setParam _ _ _, _, s => some (s, some ())
  | deleteArray _, _, s => some (s, some ())
  | errorDump _, _, s => some (s, some ())
  | errorDumpSimple _ _, _, s => some (s, some ())
  | undefined, _, _ => none

/-- `if (sz != NULL) free (sz)` -/
def freeString : Option Str → MemCode Unit
  | none => pure ()
  | some s => MemOp.req (.free s.p)

/-- `if (sz != NULL) m_sz = strdup (sz)`, for the member `m_sz`. -/
def storeString (m_sz : Option Str) : Option CStr → MemCode (Option Str)
  | none => pure m_sz
  | some sz => do
    let p ← MemOp.req (.strdup sz)
    pure (some ⟨p, sz.chars⟩)

/-- A parameter of `mysql_real_connect` is read, unless it is NULL. -/
def readString : Option CStr → MemCode Unit
  | none => pure ()
  | some sz => MemOp.req (.read sz)

/-- `mysql_real_connect`, which reads its parameters. -/
def realConnect (h : Nat) (a : ConnectArgs CStr) : MemCode Bool := do
  readString a.szServer
  readString a.szDB
  readString a.szUser
  readString a.szPWD
  MemOp.req (.db (.realConnect h (a.bind fun sz => some sz.chars)))

/-- `if (p != NULL) delete[] p` -/
def deleteArray : Option Nat → MemCode Unit
  | none => pure ()
  | some p => MemOp.req (.deleteArray p)

/-- `if (r != NULL) mysql_free_result (r)` -/
def freeResult : Option Nat → MemCode Unit
  | none => pure ()
  | some r => MemOp.req (.db (.freeResult r))

/-! ## `MySqlDB` -/

/-- `class MySqlDB`; of `m_pErrorDump` it matters whether it is set. -/
structure MySqlDB where
  m_pMySql : Option Nat := none
  m_szServer : Option Str := none
  m_szDB : Option Str := none
  m_szUser : Option Str := none
  m_szPWD : Option Str := none
  m_nPort : Nat := 0
  m_pErrorDump : Bool := false
  m_bConnected : Bool
deriving DecidableEq

namespace MySqlDB

/-- `MySqlDB::_ErrorDump` -/
def errorDump (db : MySqlDB) : MemCode Unit :=
  if db.m_pErrorDump then MemOp.req (.errorDump db.m_pMySql) else pure ()

/-- `MySqlDB::_ErrorDumpSimple` -/
def errorDumpSimple (db : MySqlDB) (szMsg : Bytes) (arg : Option CStr) : MemCode Unit :=
  if db.m_pErrorDump then MemOp.req (.errorDumpSimple szMsg arg) else pure ()

/-- The parameters with which `_Reconnect` connects. -/
def stored (db : MySqlDB) : ConnectArgs CStr :=
  ⟨db.m_szServer.map Str.cstr, db.m_szDB.map Str.cstr, db.m_szUser.map Str.cstr,
    db.m_szPWD.map Str.cstr, db.m_nPort⟩

/-- Close the handle, if there is one. -/
def closeHandle : Option Nat → MemCode Unit
  | none => pure ()
  | some h => MemOp.req (.db (.close h))

/-- `MySqlDB::Close` -/
def close (db : MySqlDB) : MemCode MySqlDB := do
  closeHandle db.m_pMySql
  freeString db.m_szServer
  freeString db.m_szDB
  freeString db.m_szUser
  freeString db.m_szPWD
  pure { m_pErrorDump := db.m_pErrorDump, m_bConnected := false }

/-- `MySqlDB::Connect` -/
def connect (db : MySqlDB) (a : ConnectArgs CStr) : MemCode (Bool × MySqlDB) := do
  -- what `Close` frees may be what `GetDBName` has returned
  let a := a.bind fun sz => some (sz.afterFree db.m_szDB)
  let db ← db.close
  match ← MemOp.req (.db .init) with
  | none => do
    db.errorDumpSimple (CString.ascii "mysql_init() failed,insufficient memory") none
    pure (false, { db with m_pMySql := none })
  | some h => do
    let db := { db with m_pMySql := some h }
    if ← realConnect h a then do
      let m_szServer ← storeString db.m_szServer a.szServer
      let m_szDB ← storeString db.m_szDB a.szDB
      let m_szUser ← storeString db.m_szUser a.szUser
      let m_szPWD ← storeString db.m_szPWD a.szPWD
      let _ ← MemOp.req (.db (.query (some h) XeMySql.MySqlDB.setNames))
      pure (true, { db with
        m_szServer := m_szServer
        m_szDB := m_szDB
        m_szUser := m_szUser
        m_szPWD := m_szPWD
        m_nPort := a.nPort
        m_bConnected := true })
    else do
      db.errorDump
      pure (false, db)

/-- What `MySqlDB::_Reconnect` does first. -/
def discard (db : MySqlDB) : MemCode MySqlDB :=
  match db.m_pMySql with
  | none => pure db
  | some h => do
    MemOp.req (.db (.close h))
    pure { db with m_pMySql := none, m_bConnected := false }

/-- `MySqlDB::_Reconnect` -/
def reconnect (db : MySqlDB) : MemCode (Bool × MySqlDB) := do
  let db ← db.discard
  match ← MemOp.req (.db .init) with
  | none => do
    db.errorDumpSimple (CString.ascii "mysql_init() failed,insufficient memory") none
    pure (false, { db with m_pMySql := none })
  | some h => do
    let db := { db with m_pMySql := some h }
    if ← realConnect h db.stored then do
      let _ ← MemOp.req (.db (.query (some h) XeMySql.MySqlDB.setNames))
      let db := { db with m_bConnected := true }
      db.errorDumpSimple (CString.ascii "reconnect to MySQL successful.") none
      pure (true, db)
    else do
      db.errorDump
      db.errorDumpSimple (CString.ascii "reconnect to MySQL failed.") none
      pure (false, db)

/-- `MySqlDB::Connected` -/
def connected (db : MySqlDB) : MemCode (Bool × MySqlDB) :=
  match db.m_pMySql with
  | none => pure (false, db)
  | some h => do
    if ← MemOp.req (.db (.ping h)) then pure (true, db)
    else do
      db.errorDump
      db.reconnect

/-- `MySqlDB::UseDB` -/
def useDB (db : MySqlDB) (szDB : CStr) : MemCode (Bool × MySqlDB) := do
  MemOp.req (.read szDB)
  if ← MemOp.req (.db (.query db.m_pMySql (szDB.chars.prepend (CString.ascii "use ")))) then do
    freeString db.m_szDB
    let szDB := szDB.afterFree db.m_szDB
    let p ← MemOp.req (.strdup szDB)
    let db := { db with m_szDB := some ⟨p, szDB.chars⟩ }
    db.errorDumpSimple (CString.ascii "UseDB %s successful.") (some szDB)
    pure (true, db)
  else pure (false, db)

/-- `MySqlDB::GetDBName` -/
def getDBName (db : MySqlDB) : Option CStr := db.m_szDB.map Str.cstr

/-- The pointer that is passed. -/
def argument (db : MySqlDB) : StrArg → Option CStr
  | .text s => some (.ofText s)
  | .getDBName => db.getDBName

/-- `MySqlDB::~MySqlDB`; it leaves the members as they are when there is no handle. -/
def destroy (db : MySqlDB) : MemCode MySqlDB :=
  match db.m_pMySql with
  | none => pure db
  | some _ => db.close

end MySqlDB

/-! ## `MySqlQuery` -/

/-- `class MySqlQuery`, without what only the accessors read; of the `MySqlDB` that `m_pDB` points to
there is the number. -/
structure MySqlQuery where
  m_pDB : Option Nat
  m_pRecords : Option Nat := none
  m_dwFieldCnt : Nat := 0
  m_szSQL : Option Str := none
deriving DecidableEq

namespace MySqlQuery

/-- The rest of `MySqlQuery::ExecuteSQL` when `mysql_real_query` has failed. -/
def executeAgain (db : MySqlDB) (szCMD : Bytes) : MemCode (Bool × MySqlDB) := do
  db.errorDumpSimple (CString.ascii "%s") (some (.ofText szCMD))
  let nError ← MemOp.req (.db (.errno db.m_pMySql))
  if XeMySql.MySqlDB.lost nError then do
    let (bConnected, db) ← db.connected
    if bConnected then do
      if ← MemOp.req (.db (.realQuery db.m_pMySql szCMD)) then pure (true, db)
      else do
        db.errorDump
        db.errorDump
        pure (false, db)
    else do
      db.errorDump
      pure (false, db)
  else do
    db.errorDump
    pure (false, db)

/-- `MySqlQuery::ExecuteSQL`; `szCMD` is the statement with its arguments. -/
def executeSQL (q : MySqlQuery) (db : MySqlDB) (szCMD : Bytes) :
    MemCode (Bool × MySqlQuery × MySqlDB) := do
  freeString q.m_szSQL
  let p ← MemOp.req (.strdup (.ofText szCMD))
  let q := { q with m_szSQL := some ⟨p, .text szCMD⟩ }
  if ← MemOp.req (.db (.realQuery db.m_pMySql szCMD)) then pure (true, q, db)
  else do
    let (bRet, db) ← executeAgain db szCMD
    pure (bRet, q, db)

/-- The last lines of `MySqlQuery::FetchRecords`, with the result set that it has got. -/
def keepRecords (q : MySqlQuery) (db : MySqlDB) : Option Nat → MemCode (Bool × MySqlQuery)
  | none => do
    db.errorDump
    pure (false, q)
  | some r => do
    MemOp.req (.fetchFields r)
    pure (true, { q with m_pRecords := some r })

/-- `MySqlQuery::FetchRecords` -/
def fetchRecords (q : MySqlQuery) (db : MySqlDB) (blAll : Bool) : MemCode (Bool × MySqlQuery) := do
  freeResult q.m_pRecords
  let n ← MemOp.req (.fieldCount db.m_pMySql)
  let q := { q with m_pRecords := none, m_dwFieldCnt := n }
  if n = 0 then pure (false, q)
  else do
    let m_pRecords ←
      (if blAll then MemOp.req (.storeResult db.m_pMySql) else MemOp.req (.useResult db.m_pMySql))
    q.keepRecords db m_pRecords

/-- `MySqlQuery::GetRecordsCnt` -/
def getRecordsCnt (q : MySqlQuery) : MemCode Nat :=
  match q.m_pRecords with
  | none => pure (2 ^ 32 - 1)
  | some r => do
    let n ← MemOp.req (.numRows r)
    pure (n % 2 ^ 32)

/-- What `MySqlQuery::FetchRow` does with the result set `r`. -/
def fetchRowOf (q : MySqlQuery) (db : MySqlDB) (r : Nat) : MemCode Bool := do
  if ← MemOp.req (.fetchRow (some r)) then do
    MemOp.req (.fetchLengths r)
    pure true
  else do
    let nError ← MemOp.req (.db (.errno db.m_pMySql))
    if nError = CR_SERVER_LOST then do
      db.errorDumpSimple (CString.ascii "%s") (q.m_szSQL.map Str.cstr)
      db.errorDump
      pure false
    else pure false

/-- `MySqlQuery::FetchRow` -/
def fetchRow (q : MySqlQuery) (db : MySqlDB) : MemCode Bool :=
  match q.m_pRecords with
  | none => MemOp.req (.fetchRow none)
  | some r => q.fetchRowOf db r

/-- `MySqlQuery::~MySqlQuery` -/
def destroy (q : MySqlQuery) : MemCode Unit := do
  freeString q.m_szSQL
  freeResult q.m_pRecords

end MySqlQuery

/-! ## `MySqlCmd` -/

/-- `class MySqlCmd`; the constructor leaves `m_dwFieldCnt` as it is. Of the nodes of `m_pValues` there
is what `m_pData` points to, and of `m_pFields` the result set that it belongs to. -/
structure MySqlCmd where
  m_pDB : Option Nat
  m_pStmt : Option Nat := none
  m_pParams : Option Nat := none
  m_pRow : Option Nat := none
  m_pMetaRlt : Option Nat := none
  m_pFields : Option Nat := none
  m_dwParamCnt : Nat := 0
  m_dwFieldCnt : Nat
  m_pblIsNull : Option Nat := none
  m_pblError : Option Nat := none
  m_pValues : Option Nat := none
  nodes : List (Option Nat) := []
deriving DecidableEq

namespace MySqlCmd

/-- `MySqlCmd::_ErrorDump`; the message of libmysql is the format. -/
def errorDump (cmd : MySqlCmd) (db : MySqlDB) : MemCode Unit :=
  match cmd.m_pStmt with
  | none => pure ()
  | some st => do
    let szError ← MemOp.req (.stmtError st)
    db.errorDumpSimple szError none

/-- The destructors of nodes. -/
def deleteNodes : List (Option Nat) → MemCode Unit
  | [] => pure ()
  | node :: nodes => do
    deleteArray node
    deleteNodes nodes

/-- `if (m_pValues != NULL) delete[] m_pValues`: the nodes from the last one on, and then the array. -/
def deleteValues (cmd : MySqlCmd) : MemCode Unit :=
  match cmd.m_pValues with
  | none => pure ()
  | some p => do
    deleteNodes cmd.nodes.reverse
    MemOp.req (.deleteArray p)

/-- `MySqlCmd::Reset` behind its `mysql_stmt_close`. -/
def discard (cmd : MySqlCmd) : MemCode MySqlCmd := do
  deleteArray cmd.m_pParams
  deleteArray cmd.m_pRow
  cmd.deleteValues
  deleteArray cmd.m_pblIsNull
  deleteArray cmd.m_pblError
  freeResult cmd.m_pMetaRlt
  pure { m_pDB := cmd.m_pDB, m_dwFieldCnt := cmd.m_dwFieldCnt }

/-- `MySqlCmd::Reset`; `errorDump` is `m_pDB->_ErrorDump`. -/
def reset (cmd : MySqlCmd) (errorDump : MemCode Unit) : MemCode (Bool × MySqlCmd) :=
  match cmd.m_pStmt with
  | none => do
    let cmd ← cmd.discard
    pure (true, cmd)
  | some st => do
    if ← MemOp.req (.db (.stmtClose st)) then do
      let cmd ← cmd.discard
      pure (true, cmd)
    else do
      errorDump
      pure (false, cmd)

/-- The array of parameters that `SetCmd` allocates, when there are any. -/
def newParams (n : Nat) : MemCode (Option Nat) :=
  if 0 < n then do
    let p ← MemOp.req (.newArray n)
    MemOp.req (.memset p n)
    pure (some p)
  else pure none

/-- The arrays for the columns that `SetCmd` allocates. -/
def newColumns (cmd : MySqlCmd) : MemCode MySqlCmd := do
  let n := cmd.m_dwFieldCnt
  let m_pRow ← MemOp.req (.newArray n)
  MemOp.req (.memset m_pRow n)
  let m_pblIsNull ← MemOp.req (.newArray n)
  MemOp.req (.memset m_pblIsNull n)
  let m_pblError ← MemOp.req (.newArray n)
  MemOp.req (.memset m_pblError n)
  let m_pValues ← MemOp.req (.newArray n)
  pure { cmd with
    m_pRow := some m_pRow
    m_pblIsNull := some m_pblIsNull
    m_pblError := some m_pblError
    m_pValues := some m_pValues
    nodes := List.replicate n none }

/-- `MySqlCmd::SetCmd` from the successful `mysql_stmt_prepare` on. -/
def setFields (cmd : MySqlCmd) (db : MySqlDB) (st : Nat) : MemCode (Bool × MySqlCmd) := do
  let nParams ← MemOp.req (.db (.stmtParamCount st))
  let m_pParams ← newParams nParams
  let n ← MemOp.req (.db (.stmtFieldCount st))
  let cmd := { cmd with m_pParams := m_pParams, m_dwParamCnt := nParams, m_dwFieldCnt := n }
  if 0 < n then do
    match ← MemOp.req (.db (.stmtResultMetadata st)) with
    | none => do
      cmd.errorDump db
      pure (false, cmd)
    | some r => do
      MemOp.req (.fetchFields r)
      let cmd ← ({ cmd with m_pMetaRlt := some r, m_pFields := some r } : MySqlCmd).newColumns
      pure (true, cmd)
  else pure (true, cmd)

/-- `MySqlCmd::SetCmd`; `szCMD` is the statement with its arguments. -/
def setCmd (cmd : MySqlCmd) (db : MySqlDB) (szCMD : Bytes) : MemCode (Bool × MySqlCmd) :=
  match db.m_pMySql with
  | none => pure (false, cmd)
  | some h => do
    let (bReset, cmd) ← cmd.reset db.errorDump
    if bReset then do
      match ← MemOp.req (.db (.stmtInit h)) with
      | none => do
        db.errorDump
        pure (false, { cmd with m_pStmt := none })
      | some st => do
        let cmd := { cmd with m_pStmt := some st }
        if ← MemOp.req (.db (.stmtPrepare st szCMD)) then cmd.setFields db st
        else do
          cmd.errorDump db
          pure (false, cmd)
    else pure (false, cmd)

/-- The first line of most functions: `act` needs a connection and a statement. -/
def onStmt {α : Type} (cmd : MySqlCmd) (db : MySqlDB) (otherwise : α) (act : Nat → MemCode α) :
    MemCode α :=
  match db.m_pMySql, cmd.m_pStmt with
  | some _, some st => act st
  | _, _ => pure otherwise

/-- Report a call that has failed, and return its result. -/
def reporting (cmd : MySqlCmd) (db : MySqlDB) (call : MemCode Bool) : MemCode Bool := do
  if ← call then pure true
  else do
    cmd.errorDump db
    pure false

/-- `MySqlCmd::SetParam`; what `bSQLType` holds when no case sets it is up to the caller of this. -/
def setParam (cmd : MySqlCmd) (db : MySqlDB) (index : Int) (bType : UInt8) (pValue dwBufferLen
    pDataLen : Nat) (bSQLType : Option FieldType) : MemCode Unit :=
  cmd.onStmt db () fun _ => do
    -- the index is converted for the comparison
    let i := (index % 2 ^ 32).toNat
    match cmd.m_pParams with
    | none => db.errorDumpSimple (CString.ascii "Error: invalid param index.") none
    | some p =>
      if cmd.m_dwParamCnt ≤ i then
        db.errorDumpSimple (CString.ascii "Error: invalid param index.") none
      else
        let (bufferType, _, blsigned) := sqlTypeOf bType dwBufferLen bSQLType
        MemOp.req (.setParam p i {
          bufferType := bufferType
          buffer := pValue
          bufferLength := dwBufferLen
          length := pDataLen
          -- not a pointer to a flag, but the flag itself
          isNull := if pValue = 0 then 1 else 0
          isUnsigned := blsigned })

/-- `MySqlCmd::BindParams` -/
def bindParams (cmd : MySqlCmd) (db : MySqlDB) : MemCode Bool :=
  cmd.onStmt db false fun st => cmd.reporting db (MemOp.req (.stmtBindParam st cmd.m_pParams))

/-- `MySqlCmd::BindRltFields` -/
def bindRltFields (cmd : MySqlCmd) (db : MySqlDB) : MemCode Bool :=
  cmd.onStmt db false fun st => cmd.reporting db (MemOp.req (.stmtBindResult st cmd.m_pRow))

/-- `MySqlCmd::FetchRecords` -/
def fetchRecords (cmd : MySqlCmd) (db : MySqlDB) : MemCode Bool :=
  cmd.onStmt db false fun st => cmd.reporting db (MemOp.req (.stmtStoreResult st))

/-- The rest of `MySqlCmd::Execut` when `mysql_stmt_execute` has failed. -/
def executAgain (cmd : MySqlCmd) (db : MySqlDB) (st : Nat) : MemCode (Bool × MySqlDB) := do
  let nError ← MemOp.req (.db (.errno db.m_pMySql))
  if XeMySql.MySqlDB.lost nError then do
    let (bConnected, db) ← db.connected
    if bConnected then do
      if ← MemOp.req (.db (.stmtExecute st)) then pure (true, db)
      else do
        cmd.errorDump db
        cmd.errorDump db
        pure (false, db)
    else do
      cmd.errorDump db
      pure (false, db)
  else do
    cmd.errorDump db
    pure (false, db)

/-- `MySqlCmd::Execut` -/
def execut (cmd : MySqlCmd) (db : MySqlDB) : MemCode (Bool × MySqlDB) :=
  cmd.onStmt db (false, db) fun st => do
    if ← MemOp.req (.db (.stmtExecute st)) then pure (true, db) else cmd.executAgain db st

/-- `MySqlCmd::GetRecordsCnt` -/
def getRecordsCnt (cmd : MySqlCmd) (db : MySqlDB) : MemCode Nat :=
  cmd.onStmt db 0 fun st =>
    match cmd.m_pFields with
    | none => pure 0
    | some _ => do
      let n ← MemOp.req (.stmtNumRows st)
      pure (n % 2 ^ 32)

/-- `MySqlCmd::FetchRow` -/
def fetchRow (cmd : MySqlCmd) (db : MySqlDB) : MemCode Bool :=
  cmd.onStmt db false fun st =>
    match cmd.m_pFields with
    | none => pure false
    | some _ => MemOp.req (.stmtFetch st)

/-- `m_pValues->SetLen` -/
def setLen (cmd : MySqlCmd) (p dwLen : Nat) : MemCode MySqlCmd := do
  MemOp.req (.touch p 0)
  deleteArray (cmd.nodes.headD none)
  let m_pData ← MemOp.req (.newArray dwLen)
  pure { cmd with nodes := cmd.nodes.set 0 (some m_pData) }

/-- `MySqlCmd::SetRltField` -/
def setRltField (cmd : MySqlCmd) (db : MySqlDB) (index : Int) (bType : UInt8) (dwBufferLen : Nat) :
    MemCode MySqlCmd :=
  cmd.onStmt db cmd fun _ => do
    let i := (index % 2 ^ 32).toNat
    match cmd.m_pRow with
    | none => do
      db.errorDumpSimple (CString.ascii "Error: invalid param index.") none
      pure cmd
    | some row =>
      if cmd.m_dwFieldCnt ≤ i then do
        db.errorDumpSimple (CString.ascii "Error: invalid param index.") none
        pure cmd
      else
        match cmd.m_pValues with
        | none => undefined
        | some values => do
          let cmd ← cmd.setLen values (sqlTypeOf bType dwBufferLen none).2.1
          MemOp.req (.touch values i)
          MemOp.req (.touch row i)
          pure cmd

/-- The loop of `_GetFieldIndex` from column `i` on, when `left` columns are left. -/
def searchFrom (r : Nat) (szField : Bytes) : Nat → Nat → MemCode (Option Nat)
  | 0, _ => pure none
  | left + 1, i => do
    let name ← MemOp.req (.fieldName r i)
    if stricmp szField name = 0 then pure (some i) else searchFrom r szField left (i + 1)

/-- `MySqlCmd::_GetFieldIndex`; `none` is -1. -/
def getFieldIndex (cmd : MySqlCmd) (szField : Bytes) : MemCode (Option Nat) :=
  match cmd.m_pRow, cmd.m_pFields with
  | some _, some r => searchFrom r szField cmd.m_dwFieldCnt 0
  | _, _ => pure none

/-- What the accessors have in common: they look at the node of a column, when there is one. -/
def lookAt (cmd : MySqlCmd) (szField : Bytes) : MemCode Unit := do
  match ← cmd.getFieldIndex szField with
  | none => pure ()
  | some i =>
    match cmd.m_pValues with
    | none => undefined
    | some p => MemOp.req (.touch p i)

end MySqlCmd

/-! ## Programs -/

/-- An object with its members, also when it has been destroyed. -/
structure Slot (α : Type) where
  obj : α
  alive : Bool := true

/-- The objects a program has made. -/
structure World where
  dbs : List (Slot MySqlDB) := []
  queries : List (Slot MySqlQuery) := []
  cmds : List (Slot MySqlCmd) := []

/-- The functions of `MySqlDB`. -/
inductive DbCall where
  | connect (a : ConnectArgs StrArg)
  | close
  | connected
  | useDB (szDB : StrArg)
  | setCallBackFunc (pFunc : Bool)

/-- The functions of `MySqlQuery`. -/
inductive QueryCall where
  | executeSQL (szCMD : Bytes)
  | fetchRecords (blAll : Bool)
  | getRecordsCnt
  | fetchRow

/-- The functions of `MySqlCmd`; `lookAt` stands for the accessors, other than `GetDouble` and `GetTime`,
which go on to what `m_pData` points to. -/
inductive CmdCall where
  | setCmd (szCMD : Bytes)
  | reset
  | setParam (index : Int) (bType : UInt8) (pValue dwBufferLen pDataLen : Nat)
      (bSQLType : Option FieldType)
  | bindParams
  | execut
  | setRltField (index : Int) (bType : UInt8) (dwBufferLen : Nat)
  | bindRltFields
  | fetchRecords
  | getRecordsCnt
  | fetchRow
  | lookAt (szField : Bytes)

/-- What a program does with objects. -/
inductive Call where
  | newDB (m_bConnected : Bool)
  | newQuery (m_pDB : Option Nat)
  | newCmd (m_pDB : Option Nat) (m_dwFieldCnt : Nat)
  | db (d : Nat) (call : DbCall)
  | query (i : Nat) (call : QueryCall)
  | cmd (i : Nat) (call : CmdCall)
  | deleteDB (d : Nat)
  | deleteQuery (i : Nat)
  | deleteCmd (i : Nat)

/-- The code of a function of `MySqlDB`; it returns what has become of the object. -/
def DbCall.code (db : MySqlDB) : DbCall → MemCode MySqlDB
  | connect a => do
    let (_, db) ← db.connect (a.bind db.argument)
    pure db
  | close => db.close
  | connected => do
    let (_, db) ← db.connected
    pure db
  | useDB szDB =>
    match db.argument szDB with
    | none => undefined
    | some szDB => do
      let (_, db) ← db.useDB szDB
      pure db
  | setCallBackFunc pFunc => pure { db with m_pErrorDump := pFunc }

/-- The code of a function of `MySqlQuery`, with its `MySqlDB`. -/
def QueryCall.code (q : MySqlQuery) (db : MySqlDB) : QueryCall → MemCode (MySqlQuery × MySqlDB)
  | executeSQL szCMD => do
    let (_, q, db) ← q.executeSQL db szCMD
    pure (q, db)
  | fetchRecords blAll => do
    let (_, q) ← q.fetchRecords db blAll
    pure (q, db)
  | getRecordsCnt => do
    let _ ← q.getRecordsCnt
    pure (q, db)
  | fetchRow => do
    let _ ← q.fetchRow db
    pure (q, db)

/-- The code of a function of `MySqlCmd`, with its `MySqlDB`. -/
def CmdCall.code (cmd : MySqlCmd) (db : MySqlDB) : CmdCall → MemCode (MySqlCmd × MySqlDB)
  | setCmd szCMD => do
    let (_, cmd) ← cmd.setCmd db szCMD
    pure (cmd, db)
  | reset => do
    let (_, cmd) ← cmd.reset db.errorDump
    pure (cmd, db)
  | setParam index bType pValue dwBufferLen pDataLen bSQLType => do
    cmd.setParam db index bType pValue dwBufferLen pDataLen bSQLType
    pure (cmd, db)
  | bindParams => do
    let _ ← cmd.bindParams db
    pure (cmd, db)
  | execut => do
    let (_, db) ← cmd.execut db
    pure (cmd, db)
  | setRltField index bType dwBufferLen => do
    let cmd ← cmd.setRltField db index bType dwBufferLen
    pure (cmd, db)
  | bindRltFields => do
    let _ ← cmd.bindRltFields db
    pure (cmd, db)
  | fetchRecords => do
    let _ ← cmd.fetchRecords db
    pure (cmd, db)
  | getRecordsCnt => do
    let _ ← cmd.getRecordsCnt db
    pure (cmd, db)
  | fetchRow => do
    let _ ← cmd.fetchRow db
    pure (cmd, db)
  | lookAt szField => do
    cmd.lookAt szField
    pure (cmd, db)

/-- The object in a slot, while it exists. -/
def living {α : Type} (slots : List (Slot α)) (i : Nat) : Option α :=
  match slots[i]? with
  | some ⟨x, true⟩ => some x
  | _ => none

namespace World

/-- Run `act` with the `MySqlDB` that `m_pDB` points to. Functions called with a NULL `m_pDB` return at
once, and with one that is gone they are not called. -/
def withDB (w : World) (m_pDB : Option Nat) (act : Nat → MySqlDB → MemCode World) : MemCode World :=
  match m_pDB with
  | none => pure w
  | some d =>
    match living w.dbs d with
    | none => undefined
    | some db => act d db

/-- `m_pDB->_ErrorDump` -/
def errorDump (w : World) (m_pDB : Option Nat) : MemCode Unit :=
  match m_pDB with
  | none => undefined
  | some d =>
    match living w.dbs d with
    | none => undefined
    | some db => db.errorDump

/-- Carry out a call. -/
def call (w : World) : Call → MemCode World
  | .newDB m_bConnected => pure { w with dbs := w.dbs ++ [⟨{ m_bConnected := m_bConnected }, true⟩] }
  | .newQuery m_pDB => pure { w with queries := w.queries ++ [⟨{ m_pDB := m_pDB }, true⟩] }
  | .newCmd m_pDB m_dwFieldCnt =>
    pure { w with cmds := w.cmds ++ [⟨{ m_pDB := m_pDB, m_dwFieldCnt := m_dwFieldCnt }, true⟩] }
  | .db d c =>
    match living w.dbs d with
    | none => undefined
    | some db => do
      let db ← c.code db
      pure { w with dbs := w.dbs.set d ⟨db, true⟩ }
  | .query i c =>
    match living w.queries i with
    | none => undefined
    | some q =>
      w.withDB q.m_pDB fun d db => do
        let (q, db) ← c.code q db
        pure { w with queries := w.queries.set i ⟨q, true⟩, dbs := w.dbs.set d ⟨db, true⟩ }
  | .cmd i c =>
    match living w.cmds i with
    | none => undefined
    | some x =>
      w.withDB x.m_pDB fun d db => do
        let (x, db) ← c.code x db
        pure { w with cmds := w.cmds.set i ⟨x, true⟩, dbs := w.dbs.set d ⟨db, true⟩ }
  | .deleteDB d =>
    match living w.dbs d with
    | none => undefined
    | some db => do
      let db ← db.destroy
      pure { w with dbs := w.dbs.set d ⟨db, false⟩ }
  | .deleteQuery i =>
    match living w.queries i with
    | none => undefined
    | some q => do
      q.destroy
      pure { w with queries := w.queries.set i ⟨{ m_pDB := q.m_pDB }, false⟩ }
  | .deleteCmd i =>
    match living w.cmds i with
    | none => undefined
    | some x => do
      -- the `MySqlDB` may be gone, unless `mysql_stmt_close` fails
      let (_, x) ← x.reset (w.errorDump x.m_pDB)
      pure { w with cmds := w.cmds.set i ⟨x, false⟩ }

/-- One call after the other. -/
def run (w : World) : List Call → MemCode World
  | [] => pure w
  | c :: calls => do
    let w ← w.call c
    w.run calls

/-- All objects have been destroyed. -/
def Ended (w : World) : Prop :=
  (∀ s ∈ w.dbs, s.alive = false) ∧ (∀ s ∈ w.queries, s.alive = false) ∧
    ∀ s ∈ w.cmds, s.alive = false

instance (w : World) : Decidable w.Ended :=
  inferInstanceAs (Decidable ((∀ s ∈ w.dbs, s.alive = false) ∧ (∀ s ∈ w.queries, s.alive = false) ∧
    ∀ s ∈ w.cmds, s.alive = false))

end World

end XeMySql.Memory
