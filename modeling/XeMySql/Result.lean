import XeMySql.State
import XeMySql.Lib.Reading

/-!
# `CXEMySqlResult` (`xeMySql.cpp`)

Result sets as libmysql stores them, and the object through which they are read. `SetRes`,
`FetchRecords` and `FetchRow` change the object; the accessors only read the arrays it points to,
each at an index: `m_pFields`, `m_pRow` and `m_pLengths`.
-/

namespace XeMySql

open Interact

/-! ## Result sets -/

/-- `MYSQL_FIELD` -/
structure MYSQL_FIELD where
  name : Bytes
  flags : Nat := 0
deriving DecidableEq

/-- `MYSQL_RES`: the columns, and the rows that have been stored. A cell that is NULL is `none`. -/
structure MYSQL_RES where
  fields : List MYSQL_FIELD
  rows : List (List (Option Bytes))
  width : ∀ row ∈ rows, row.length = fields.length

/-- The result sets that libmysql has handed out, by their numbers. -/
abbrev ResultSets : Type := Nat → MYSQL_RES

/-- The element of an array at an index of type `int`. -/
def elementAt {α : Type} (l : List α) (i : Int) : Option α :=
  if 0 ≤ i then l[i.toNat]? else none

theorem elementAt_isSome {α : Type} {l : List α} {i : Int} (h0 : 0 ≤ i) (hi : i < l.length) :
    (elementAt l i).isSome := by
  unfold elementAt
  rw [if_pos h0, List.getElem?_eq_getElem (by omega)]
  rfl

/-! ## The arrays -/

/-- Reading an element of one of the three arrays. -/
inductive Read where
  | field (m_pFields : Option Nat) (i : Int)
  | cell (m_pRow : Option RowPtr) (i : Int)
  | length (m_pLengths : Option RowPtr) (i : Int)
deriving DecidableEq

/-- What is read. -/
abbrev Read.Reply : Read → Type
  | field _ _ => MYSQL_FIELD
  | cell _ _ => Option Bytes
  | length _ _ => Nat

/-- The row a pointer points to. -/
def ResultSets.row (sets : ResultSets) (p : RowPtr) : Option (List (Option Bytes)) :=
  (sets p.res).rows[p.row]?

/-- What there is to read; nothing behind NULL, and nothing beyond the ends of an array. -/
def ResultSets.read (sets : ResultSets) : (e : Read) → Option e.Reply
  | .field p i => p.bind fun r => elementAt (sets r).fields i
  | .cell p i => (p.bind sets.row).bind fun row => elementAt row i
  | .length p i =>
    (p.bind sets.row).bind fun row => elementAt (row.map fun c => (c.map List.length).getD 0) i

/-- Code of the accessors. -/
abbrev Reading (α : Type) : Type := Prog Read Read.Reply α

/-- Read an element. -/
def look (e : Read) : Reading e.Reply := Prog.ask e

/-! ## The C library -/

/-- `tolower` -/
def toLower (b : UInt8) : UInt8 := if 65 ≤ b ∧ b ≤ 90 then b + 32 else b

/-- `stricmp` -/
def stricmp : Bytes → Bytes → Int
  | [], [] => 0
  | [], _ :: _ => -1
  | _ :: _, [] => 1
  | a :: s, b :: t =>
    if toLower a = toLower b then stricmp s t
    else if toLower a < toLower b then -1 else 1

theorem stricmp_eq_zero_iff (s t : Bytes) : stricmp s t = 0 ↔ s.map toLower = t.map toLower := by
  induction s generalizing t with
  | nil => cases t <;> simp [stricmp]
  | cons a s ih =>
    cases t with
    | nil => simp [stricmp]
    | cons b t =>
      unfold stricmp
      by_cases hab : toLower a = toLower b
      · rw [if_pos hab, ih]
        simp [hab]
      · rw [if_neg hab]
        simp only [List.map_cons, List.cons.injEq, hab, false_and, iff_false]
        split <;> omega

/-- `isspace` -/
def isSpace (b : UInt8) : Bool := b = 32 || 9 ≤ b && b ≤ 13

/-- `isdigit` -/
def isDigit (b : UInt8) : Bool := 48 ≤ b && b ≤ 57

/-- The number that a text begins with. -/
def digits (s : Bytes) : Nat :=
  (s.takeWhile isDigit).foldl (fun n b => 10 * n + (b.toNat - 48)) 0

/-- The number, or the nearest one of 32 bits. -/
def saturate (n : Int) : Int := max (-2 ^ 31) (min n (2 ^ 31 - 1))

/-- `atoi` -/
def atoi (s : Bytes) : Int :=
  match s.dropWhile isSpace with
  | 45 :: s => saturate (-digits s)
  | 43 :: s => saturate (digits s)
  | s => saturate (digits s)

/-! ## `CXEMySqlResult` -/

namespace CXEMySqlResult

/-- The loop of `_GetFieldIndex` from column `i` on, when `left` columns are left. -/
def searchFrom (x : CXEMySqlResult) (szField : Bytes) : Nat → Int → Reading Int
  | 0, _ => pure (-1)
  | left + 1, i => do
    let field ← look (.field x.m_pFields i)
    if stricmp field.name szField = 0 then pure i else searchFrom x szField left (i + 1)

/-- `CXEMySqlResult::_GetFieldIndex` -/
def getFieldIndex (x : CXEMySqlResult) (szField : Option Bytes) : Reading Int :=
  match x.m_pRes, x.m_pRow, szField with
  | some _, some _, some f => searchFrom x f x.m_dwFieldCnt.toNat 0
  | _, _, _ => pure (-1)

/-- `CXEMySqlResult::GetFieldName`; libmysql gives every column a name. -/
def getFieldName (x : CXEMySqlResult) (nIndex : Int) : Reading Bytes :=
  if x.m_pRes = none ∨ x.m_pRow = none ∨ nIndex < 0 ∨ nIndex ≥ x.m_dwFieldCnt then pure []
  else do
    let field ← look (.field x.m_pFields nIndex)
    pure field.name

/-- `CXEMySqlResult::GetRecordsCnt` -/
def getRecordsCnt (x : CXEMySqlResult) : Nat := (x.m_dwFieldCnt % 2 ^ 32).toNat

/-- What the accessors by name have in common: find the column, and convert its cell. -/
def byName {α : Type} (x : CXEMySqlResult) (szField : Option Bytes) (default : α)
    (convert : Bytes → α) : Reading α := do
  let index ← getFieldIndex x szField
  if index < 0 then pure default
  else do
    let cell ← look (.cell x.m_pRow index)
    pure (cell.elim default convert)

/-- `CXEMySqlResult::GetStr` -/
def getStr (x : CXEMySqlResult) (szField : Option Bytes) : Reading Bytes :=
  byName x szField [] id

/-- `CXEMySqlResult::GetWORD` -/
def getWORD (x : CXEMySqlResult) (szField : Option Bytes) : Reading Nat :=
  byName x szField 0 fun c => (atoi c % 2 ^ 16).toNat

/-- `CXEMySqlResult::GetInt` -/
def getInt (x : CXEMySqlResult) (szField : Option Bytes) : Reading Int :=
  byName x szField 0 atoi

/-- `CXEMySqlResult::GetDWORD` -/
def getDWORD (x : CXEMySqlResult) (szField : Option Bytes) : Reading Nat :=
  byName x szField 0 fun c => (atoi c % 2 ^ 32).toNat

/-- `CXEMySqlResult::GetDouble`, with the numbers and the `atof` of the C library. -/
def getDouble {δ : Type} [Zero δ] (atof : Bytes → δ) (x : CXEMySqlResult)
    (szField : Option Bytes) : Reading δ :=
  byName x szField 0 atof

/-- A length as `int`. -/
def toInt32 (n : Nat) : Int := (BitVec.ofNat 32 n).toInt

/-- The end of `GetFieldValue` and of `GetBLOB`: the length if it is asked for, and the cell. -/
def valueAt (x : CXEMySqlResult) (nIndex : Int) (pnLen : Bool) : Reading (Bytes × Option Int) := do
  let len ← (if pnLen then do
      let n ← look (.length x.m_pLengths nIndex)
      pure (some (toInt32 n))
    else pure none)
  let cell ← look (.cell x.m_pRow nIndex)
  pure (cell.getD [], len)

/-- `CXEMySqlResult::GetFieldValue`; `pnLen` says that the pointer is not NULL, and the answer is
the text with what is stored there. -/
def getFieldValue (x : CXEMySqlResult) (nIndex : Int) (pnLen : Bool) :
    Reading (Bytes × Option Int) :=
  if nIndex < 0 ∨ nIndex ≥ x.m_dwFieldCnt then pure ([], none) else valueAt x nIndex pnLen

/-- `CXEMySqlResult::IsBLOBField`; the condition `flags && BLOB_FLAG` asks for any flag. -/
def isBLOBField (x : CXEMySqlResult) (nIndex : Int) : Reading Bool :=
  if nIndex < 0 ∨ nIndex ≥ x.m_dwFieldCnt then pure false
  else do
    let field ← look (.field x.m_pFields nIndex)
    pure (field.flags != 0)

/-- `CXEMySqlResult::GetBLOB` -/
def getBLOB (x : CXEMySqlResult) (szField : Option Bytes) (pnLen : Bool) :
    Reading (Bytes × Option Int) := do
  let nIndex ← getFieldIndex x szField
  if nIndex < 0 then pure ([], none) else valueAt x nIndex pnLen

/-! ## Fetching -/

end CXEMySqlResult

/-- A result object, and how many rows `mysql_fetch_row` has delivered of each result set. -/
structure Reader where
  obj : CXEMySqlResult := {}
  delivered : Nat → Nat := fun _ => 0

namespace Reader

/-- `mysql_fetch_row` -/
def mysqlFetchRow (sets : ResultSets) (s : Reader) (r : Nat) : Reader × Option RowPtr :=
  if s.delivered r < (sets r).rows.length then
    ({ s with delivered := Function.update s.delivered r (s.delivered r + 1) },
      some ⟨r, s.delivered r⟩)
  else (s, none)

/-- `mysql_fetch_lengths`, of the row that has been delivered last. -/
def mysqlFetchLengths (s : Reader) (r : Nat) : Option RowPtr :=
  if s.delivered r = 0 then none else some ⟨r, s.delivered r - 1⟩

/-- `CXEMySqlResult::SetRes` -/
def setRes (s : Reader) (nCount : Int) (pRes : Option Nat) : Reader :=
  { s with obj := s.obj.setRes nCount pRes }

/-- `CXEMySqlResult::FetchRecords` -/
def fetchRecords (s : Reader) : Reader × Bool :=
  match s.obj.m_pRes with
  | none => (s, false)
  | some r =>
    if s.obj.m_dwFieldCnt ≤ 0 then (s, false)
    else ({ s with obj := { s.obj with m_pFields := some r } }, true)

/-- `CXEMySqlResult::FetchRow` -/
def fetchRow (sets : ResultSets) (s : Reader) : Reader × Bool :=
  match s.obj.m_pRes with
  | none => (s, false)
  | some r =>
    if s.obj.m_dwFieldCnt ≤ 0 then (s, false)
    else
      let (s, m_pRow) := s.mysqlFetchRow sets r
      let s := { s with obj := { s.obj with m_pRow := m_pRow } }
      if m_pRow = none then (s, false)
      else ({ s with obj := { s.obj with m_pLengths := s.mysqlFetchLengths r } }, true)

/-- Everything `FetchRecords` can do to a reader. -/
theorem fetchRecords_cases (s : Reader) :
    s.fetchRecords = (s, false) ∨ ∃ r, s.obj.m_pRes = some r ∧
      s.fetchRecords = ({ s with obj := { s.obj with m_pFields := some r } }, true) := by
  unfold fetchRecords
  cases hr : s.obj.m_pRes with
  | none => exact Or.inl rfl
  | some r =>
    dsimp only
    by_cases hn : s.obj.m_dwFieldCnt ≤ 0
    · rw [if_pos hn]
      exact Or.inl rfl
    · rw [if_neg hn]
      exact Or.inr ⟨r, rfl, rfl⟩

/-- Everything `FetchRow` can do to a reader. -/
theorem fetchRow_cases (sets : ResultSets) (s : Reader) :
    s.fetchRow sets = (s, false) ∨ ∃ r, s.obj.m_pRes = some r ∧
      (s.fetchRow sets = ({ s with obj := { s.obj with m_pRow := none } }, false) ∨
        s.delivered r < (sets r).rows.length ∧ s.fetchRow sets =
          ({ obj := { s.obj with
                m_pRow := some ⟨r, s.delivered r⟩, m_pLengths := some ⟨r, s.delivered r⟩ }
             delivered := Function.update s.delivered r (s.delivered r + 1) }, true)) := by
  unfold fetchRow
  cases hr : s.obj.m_pRes with
  | none => exact Or.inl rfl
  | some r =>
    dsimp only
    by_cases hn : s.obj.m_dwFieldCnt ≤ 0
    · rw [if_pos hn]
      exact Or.inl rfl
    · rw [if_neg hn]
      refine Or.inr ⟨r, rfl, ?_⟩
      unfold mysqlFetchRow
      by_cases hlt : s.delivered r < (sets r).rows.length
      · simp [hlt, mysqlFetchLengths]
      · simp [hlt]

end Reader

end XeMySql
