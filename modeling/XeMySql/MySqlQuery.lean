import XeMySql.Result

/-!
# `MySqlQuery` (`test/MySqlQuery.cpp`)

The class that `CXEMySqlResult` was made from. It asks libmysql for the result set itself, all of its
rows at once or one by one, and frees it; its accessors return NULL where the others return the empty
string. What is written to the log is left out.
-/

namespace XeMySql

open Interact

/-- `BLOB_FLAG` -/
def BLOB_FLAG : Nat := 16

/-- `MySqlQuery`. Of `m_pDB` it only matters here whether it is NULL. -/
structure MySqlQuery where
  m_pRecords : Option Nat := none
  m_pRow : Option RowPtr := none
  m_pFields : Option Nat := none
  m_pFieldsLens : Option RowPtr := none
  m_pDB : Bool := true
  m_dwFieldCnt : Nat := 0

namespace MySqlQuery

/-- The loop of `_GetFieldIndex` from column `i` on, when `left` columns are left. -/
def searchFrom (q : MySqlQuery) (szField : Bytes) : Nat → Nat → Reading Int
  | 0, _ => pure (-1)
  | left + 1, i => do
    let field ← look (.field q.m_pFields i)
    if stricmp szField field.name = 0 then pure i else searchFrom q szField left (i + 1)

/-- `MySqlQuery::_GetFieldIndex`, which needs a name. -/
def getFieldIndex (q : MySqlQuery) (szField : Bytes) : Reading Int :=
  if q.m_pDB = false ∨ q.m_pRecords = none ∨ q.m_pRow = none then pure (-1)
  else searchFrom q szField q.m_dwFieldCnt 0

/-- What the accessors by name have in common: find the column, and convert its cell. -/
def byName {α : Type} (q : MySqlQuery) (szField : Bytes) (default : α) (convert : Bytes → α) :
    Reading α := do
  let i ← getFieldIndex q szField
  if i < 0 then pure default
  else do
    let cell ← look (.cell q.m_pRow i)
    pure (cell.elim default convert)

/-- `MySqlQuery::GetStr` -/
def getStr (q : MySqlQuery) (szField : Bytes) : Reading Bytes := byName q szField [] id

/-- `MySqlQuery::GetWORD` -/
def getWORD (q : MySqlQuery) (szField : Bytes) : Reading Nat :=
  byName q szField 0 fun c => (atoi c % 2 ^ 16).toNat

/-- `MySqlQuery::GetDWORD` -/
def getDWORD (q : MySqlQuery) (szField : Bytes) : Reading Nat :=
  byName q szField 0 fun c => (atoi c % 2 ^ 32).toNat

/-- `MySqlQuery::GetInt` -/
def getInt (q : MySqlQuery) (szField : Bytes) : Reading Int := byName q szField 0 atoi

/-- `MySqlQuery::GetBLOB`, which needs a `pnLen`: the cell, and what is stored there. -/
def getBLOB (q : MySqlQuery) (szField : Bytes) : Reading (Option Bytes × Option Int) := do
  let i ← getFieldIndex q szField
  if i < 0 then pure (none, none)
  else
    match ← look (.cell q.m_pRow i) with
    | none => pure (none, none)
    | some cell => do
      let n ← look (.length q.m_pFieldsLens i)
      pure (some cell, some (CXEMySqlResult.toInt32 n))

/-- `MySqlQuery::GetFieldName` -/
def getFieldName (q : MySqlQuery) (nIndex : Int) : Reading (Option Bytes) :=
  if nIndex < 0 ∨ nIndex ≥ q.m_dwFieldCnt then pure none
  else do
    let field ← look (.field q.m_pFields nIndex)
    pure (some field.name)

/-- `MySqlQuery::GetFieldValue`; `pnLen` says that the pointer is not NULL. -/
def getFieldValue (q : MySqlQuery) (nIndex : Int) (pnLen : Bool) :
    Reading (Option Bytes × Option Int) :=
  if nIndex < 0 ∨ nIndex ≥ q.m_dwFieldCnt then pure (none, none)
  else do
    let len ← (if pnLen then do
        let n ← look (.length q.m_pFieldsLens nIndex)
        pure (some (CXEMySqlResult.toInt32 n))
      else pure none)
    let cell ← look (.cell q.m_pRow nIndex)
    pure (cell, len)

/-- `MySqlQuery::IsBLOBField` -/
def isBLOBField (q : MySqlQuery) (nIndex : Int) : Reading Bool :=
  if nIndex < 0 ∨ nIndex ≥ q.m_dwFieldCnt then pure false
  else do
    let field ← look (.field q.m_pFields nIndex)
    pure (field.flags &&& BLOB_FLAG != 0)

end MySqlQuery

/-! ## Fetching -/

/-- An object, and what libmysql knows of the result sets: how many rows have been delivered, and
whether all of them have been stored. -/
structure QueryReader where
  obj : MySqlQuery := {}
  delivered : Nat → Nat := fun _ => 0
  stored : Nat → Bool := fun _ => false

namespace QueryReader

/-- `mysql_num_rows`: the rows that libmysql has seen, which are all of them if it stores them. -/
def mysqlNumRows (sets : ResultSets) (t : QueryReader) (r : Nat) : Nat :=
  if t.stored r then (sets r).rows.length else t.delivered r

/-- `MySqlQuery::GetRecordsCnt` -/
def getRecordsCnt (sets : ResultSets) (t : QueryReader) : Nat :=
  match t.obj.m_pDB, t.obj.m_pRecords with
  | true, some r => t.mysqlNumRows sets r % 2 ^ 32
  | _, _ => 2 ^ 32 - 1

/-- `MySqlQuery::FetchRecords`, with the answers of `mysql_field_count` and of `mysql_store_result` or
`mysql_use_result`. -/
def fetchRecords (t : QueryReader) (blAll : Bool) (fieldCount : Nat) (result : Option Nat) :
    QueryReader × Bool :=
  if t.obj.m_pDB = false then (t, false)
  else
    let t := { t with obj := { t.obj with m_pRecords := none, m_dwFieldCnt := fieldCount } }
    if fieldCount = 0 then (t, false)
    else
      match result with
      | none => (t, false)
      | some r =>
        ({ t with
            obj := { t.obj with m_pRecords := some r, m_pFields := some r }
            stored := Function.update t.stored r blAll }, true)

/-- `MySqlQuery::FetchRow`; libmysql needs a result set, so without one there is nothing to say. -/
def fetchRow (sets : ResultSets) (t : QueryReader) : Option (QueryReader × Bool) :=
  if t.obj.m_pDB = false then some (t, false)
  else
    t.obj.m_pRecords.map fun r =>
      let (s, m_pRow) := Reader.mysqlFetchRow sets ⟨{}, t.delivered⟩ r
      let t := { t with obj := { t.obj with m_pRow := m_pRow }, delivered := s.delivered }
      if m_pRow = none then (t, false)
      else ({ t with obj := { t.obj with m_pFieldsLens := s.mysqlFetchLengths r } }, true)

end QueryReader

end XeMySql
