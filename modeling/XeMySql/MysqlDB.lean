import XeMySql.MySqlQuery
import XeMySql.Lib.Sequence

/-!
# `MySqlDB` (`test/MysqlDB.h`, `test/MysqlDB.cpp`)

The connection of the old library, and `MySqlQuery::ExecuteSQL`, which tries a statement again on it.
Handles and statements are numbered in the order in which libmysql hands them out; whether a call
succeeds, and with what error number it fails, is up to the environment. Of a string there is what its
pointer points to, which is no text any more once the memory has been freed. What is reported through
`m_pErrorDump` is left out.
-/

namespace XeMySql

open Interact

/-- What a `char*` points to: a text, or memory that has been freed, and copies of that. -/
inductive Chars where
  | text (s : Bytes)
  | freed
deriving DecidableEq

/-- A text before it. -/
def Chars.prepend (s : Bytes) : Chars → Chars
  | text t => text (s ++ t)
  | freed => freed

/-- A string that is passed to a function of a `MySqlDB`: one of the caller's own, or what `GetDBName` of
the same object returns. -/
inductive StrArg where
  | text (s : Bytes)
  | getDBName
deriving DecidableEq

namespace StrArg

/-- What it points to, when `m_szDB` is this; `none` is NULL. -/
def chars (m_szDB : Option Chars) : StrArg → Option Chars
  | text s => some (.text s)
  | getDBName => m_szDB

/-- What it points to after `free (m_szDB)`. -/
def afterFree (m_szDB : Option Chars) : StrArg → Option Chars
  | text s => some (.text s)
  | getDBName => m_szDB.map fun _ => .freed

end StrArg

/-- The parameters of a connection, as the arguments of `MySqlDB::Connect` or as what they point to;
`none` is NULL. -/
@[ext]
structure ConnectArgs (α : Type) where
  szServer : Option α
  szDB : Option α
  szUser : Option α
  szPWD : Option α
  nPort : Nat
deriving DecidableEq

/-- The same of each string. -/
def ConnectArgs.bind {α β : Type} (a : ConnectArgs α) (f : α → Option β) : ConnectArgs β :=
  ⟨a.szServer.bind f, a.szDB.bind f, a.szUser.bind f, a.szPWD.bind f, a.nPort⟩

/-- The calls of libmysql; a handle that may be NULL is an `Option`. -/
inductive DbOp where
  | init
  | realConnect (h : Nat) (a : ConnectArgs Chars)
  | query (h : Option Nat) (q : Chars)
  | realQuery (h : Option Nat) (q : Bytes)
  | errno (h : Option Nat)
  | ping (h : Nat)
  | close (h : Nat)
  | stmtInit (h : Nat)
  | stmtPrepare (st : Nat) (q : Bytes)
  | stmtParamCount (st : Nat)
  | stmtFieldCount (st : Nat)
  | stmtResultMetadata (st : Nat)
  | stmtExecute (st : Nat)
  | stmtClose (st : Nat)
  | freeResult (r : Nat)
deriving DecidableEq

namespace DbOp

/-- The answers: pointers are `none` for NULL, status codes are `true` for success. -/
abbrev Reply : DbOp → Type
  | init => Option Nat
  | errno _ => Nat
  | close _ => Unit
  | stmtInit _ => Option Nat
  | stmtParamCount _ => Nat
  | stmtFieldCount _ => Nat
  | stmtResultMetadata _ => Option Nat
  | freeResult _ => Unit
  | _ => Bool

/-- Make a request. -/
def req (e : DbOp) : Prog DbOp Reply e.Reply := Prog.ask e

end DbOp

/-- Code that calls libmysql. -/
abbrev DbCode (α : Type) : Type := Prog DbOp DbOp.Reply α

/-- The answers such code has had. -/
abbrev DbTrace : Type := List (Answer DbOp DbOp.Reply)

/-- The call fails with this error number. -/
def Outcome.failure (number : Nat) : Outcome := { ok := false, number := number }

/-- How many handles and statements libmysql has handed out. -/
structure DbEnv where
  handles : Nat := 0
  stmts : Nat := 0

/-- One call of libmysql. -/
def DbOp.exec : (e : DbOp) → Outcome → DbEnv → Option (DbEnv × Option e.Reply)
  | init, o, s =>
    if o.ok then some ({ s with handles := s.handles + 1 }, some (some s.handles))
    else some (s, some none)
  | stmtInit _, o, s =>
    if o.ok then some ({ s with stmts := s.stmts + 1 }, some (some s.stmts))
    else some (s, some none)
  | errno _, o, s => some (s, some o.number)
  | close _, _, s => some (s, some ())
  | stmtParamCount _, o, s => some (s, some o.number)
  | stmtFieldCount _, o, s => some (s, some o.number)
  | stmtResultMetadata _, o, s => some (s, some (if o.ok then some o.number else none))
  | freeResult _, _, s => some (s, some ())
  | realConnect _ _, o, s => some (s, some o.ok)
  | query _ _, o, s => some (s, some o.ok)
  | realQuery _ _, o, s => some (s, some o.ok)
  | ping _, o, s => some (s, some o.ok)
  | stmtPrepare _ _, o, s => some (s, some o.ok)
  | stmtExecute _, o, s => some (s, some o.ok)
  | stmtClose _, o, s => some (s, some o.ok)

/-- `CR_SERVER_GONE_ERROR` -/
def CR_SERVER_GONE_ERROR : Nat := 2006

/-- `CR_SERVER_LOST` -/
def CR_SERVER_LOST : Nat := 2013

/-- `class MySqlDB`; the constructor leaves `m_bConnected` as it is. -/
structure MySqlDB where
  m_pMySql : Option Nat := none
  m_szServer : Option Chars := none
  m_szDB : Option Chars := none
  m_szUser : Option Chars := none
  m_szPWD : Option Chars := none
  m_nPort : Nat := 0
  m_bConnected : Bool
deriving DecidableEq

namespace MySqlDB

/-- The parameters with which `_Reconnect` connects. -/
def stored (db : MySqlDB) : ConnectArgs Chars :=
  ⟨db.m_szServer, db.m_szDB, db.m_szUser, db.m_szPWD, db.m_nPort⟩

/-- The statement after a connection has been made, with `SET_NAMES_GBK`. -/
def setNames : Chars := .text (CString.ascii "set names 'gbk'")

/-- `MySqlDB::Close` -/
def close (db : MySqlDB) : DbCode MySqlDB :=
  match db.m_pMySql with
  | none => pure { m_bConnected := false }
  | some h => do
    DbOp.req (.close h)
    pure { m_bConnected := false }

/-- `MySqlDB::Connect` -/
def connect (db : MySqlDB) (a : ConnectArgs StrArg) : DbCode (Bool × MySqlDB) := do
  -- `Close` frees what `GetDBName` has returned
  let a := a.bind (StrArg.afterFree db.m_szDB)
  let db ← db.close
  match ← DbOp.req .init with
  | none => pure (false, { db with m_pMySql := none })
  | some h => do
    let db := { db with m_pMySql := some h }
    if ← DbOp.req (.realConnect h a) then do
      let _ ← DbOp.req (.query (some h) setNames)
      pure (true, { db with
        m_szServer := a.szServer.or db.m_szServer
        m_szDB := a.szDB.or db.m_szDB
        m_szUser := a.szUser.or db.m_szUser
        m_szPWD := a.szPWD.or db.m_szPWD
        m_nPort := a.nPort
        m_bConnected := true })
    else pure (false, db)

/-- What `MySqlDB::_Reconnect` does first. -/
def discard (db : MySqlDB) : DbCode MySqlDB :=
  match db.m_pMySql with
  | none => pure db
  | some h => do
    DbOp.req (.close h)
    pure { db with m_pMySql := none, m_bConnected := false }

/-- `MySqlDB::_Reconnect` -/
def reconnect (db : MySqlDB) : DbCode (Bool × MySqlDB) := do
  let db ← db.discard
  match ← DbOp.req .init with
  | none => pure (false, { db with m_pMySql := none })
  | some h => do
    let db := { db with m_pMySql := some h }
    if ← DbOp.req (.realConnect h db.stored) then do
      let _ ← DbOp.req (.query (some h) setNames)
      pure (true, { db with m_bConnected := true })
    else pure (false, db)

/-- `MySqlDB::Connected` -/
def connected (db : MySqlDB) : DbCode (Bool × MySqlDB) :=
  match db.m_pMySql with
  | none => pure (false, db)
  | some h => do
    if ← DbOp.req (.ping h) then pure (true, db) else db.reconnect

/-- `MySqlDB::UseDB`; nobody passes it NULL. -/
def useDB (db : MySqlDB) (szDB : StrArg) : DbCode (Bool × MySqlDB) :=
  match szDB.chars db.m_szDB with
  | none => pure (false, db)
  | some sz => do
    if ← DbOp.req (.query db.m_pMySql (sz.prepend (CString.ascii "use "))) then
      -- `free (m_szDB)` comes before `strdup (szDB)`
      pure (true, { db with m_szDB := szDB.afterFree db.m_szDB })
    else pure (false, db)

/-- With this error number the connection is gone. -/
def lost (nError : Nat) : Bool := nError == CR_SERVER_GONE_ERROR || nError == CR_SERVER_LOST

/-- What `MySqlQuery::ExecuteSQL` and `MySqlCmd::Execut` have in common: `send`, and when the connection
is gone and `Connected` has brought it back, `send` again. -/
def sendAgain (db : MySqlDB) (send : MySqlDB → DbCode Bool) : DbCode (Bool × MySqlDB) := do
  if ← send db then pure (true, db)
  else do
    let nError ← DbOp.req (.errno db.m_pMySql)
    if lost nError then do
      let (bConnected, db) ← db.connected
      if bConnected then do
        let bSent ← send db
        pure (bSent, db)
      else pure (false, db)
    else pure (false, db)

end MySqlDB

namespace MySqlQuery

/-- `MySqlQuery::ExecuteSQL` on its `m_pDB`; `szCMD` is the statement with its arguments. -/
def executeOn (db : MySqlDB) (szCMD : Bytes) : DbCode (Bool × MySqlDB) :=
  db.sendAgain fun db => DbOp.req (.realQuery db.m_pMySql szCMD)

/-- `MySqlQuery::ExecuteSQL` -/
def executeSQL (m_pDB : Option MySqlDB) (szCMD : Bytes) : DbCode (Bool × Option MySqlDB) :=
  match m_pDB with
  | none => pure (false, none)
  | some db => do
    let (bRet, db) ← executeOn db szCMD
    pure (bRet, some db)

end MySqlQuery

end XeMySql
