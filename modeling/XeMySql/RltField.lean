import XeMySql.Blob
import XeMySql.MySqlCmd
import XeMySql.Result

/-!
# Result columns of a prepared statement (`test/MysqlDB.h`, `test/MySqlCmd.cpp`)

`MySqlCmd::SetRltField` allocates a buffer and binds a column to it, and the accessors read what
`mysql_stmt_fetch` has stored. The buffers are arrays of bytes on the heap.

`mysql_stmt_fetch` itself is not part of the source. `StoresRow` is what the accessors rely on.
-/

namespace XeMySql

open Interact

/-- The enumerators `DATA_TYPE_*`. -/
inductive DataType where
  | byte
  | short
  | word
  | int
  | dword
  | float
  | double
  | string
  | blob
  | datetime
deriving DecidableEq

/-- The enumerator of a value, in the order of the `enum`. -/
def DataType.ofByte (bType : UInt8) : Option DataType :=
  [byte, short, word, int, dword, float, double, string, blob, datetime][bType.toNat]?

/-- `sizeof (MYSQL_TIME)` -/
def sizeofMysqlTime : Nat := 36

/-- What the `switch` of `SetRltField` makes of a type: the type for libmysql, the length of the
buffer, and whether it is `unsigned`. -/
def DataType.sqlType (dwBufferLen : Nat) : DataType → FieldType × Nat × Bool
  | byte => (.tiny, 1, false)
  | short => (.short, 2, false)
  | word => (.short, 2, true)
  | int => (.long, 4, false)
  | dword => (.long, 4, true)
  | float => (.float, 4, false)
  | double => (.double, 8, false)
  | string => (.varString, (dwBufferLen + 1) % 2 ^ 32, false)
  | blob => (.blob, (dwBufferLen + 1) % 2 ^ 32, false)
  | datetime => (.datetime, sizeofMysqlTime, false)

/-- The `switch` of `SetRltField`. Other values than the enumerators leave `bSQLType` as it is, which
has not been initialised: there it is `bSQLType`. -/
def sqlTypeOf (bType : UInt8) (dwBufferLen : Nat) (bSQLType : Option FieldType) :
    Option FieldType × Nat × Bool :=
  match DataType.ofByte bType with
  | some t =>
    let (fieldType, len, blsigned) := t.sqlType dwBufferLen
    (some fieldType, len, blsigned)
  | none => (bSQLType, dwBufferLen, false)

/-- `ValueNode::SetLen` -/
def ValueNode.setLen (node : ValueNode) (dwLen : Nat) : HeapCode ValueNode := do
  if node.m_pData = 0 then pure () else HeapOp.req (.deleteArray node.m_pData)
  let p ← HeapOp.req (.newArray dwLen)
  pure ⟨p, dwLen, 0, false, false⟩

namespace MySqlCmd

/-- `m_pValues[i]` -/
def value (cmd : MySqlCmd) (i : Nat) : ValueNode := cmd.m_pValues.getD i {}

/-- `MySqlCmd::SetRltField` on its `m_pDB`. -/
def setRltField (cmd : MySqlCmd) (db : MySqlDB) (index : Int) (bType : UInt8) (dwBufferLen : Nat)
    (bSQLType : Option FieldType) : HeapCode MySqlCmd :=
  match db.m_pMySql, cmd.m_pStmt, cmd.m_pRow with
  | some _, some _, some row =>
    -- the index is converted for the comparison
    let i := (index % 2 ^ 32).toNat
    if cmd.m_dwFieldCnt ≤ i then pure cmd
    else do
      let (bufferType, len, blsigned) := sqlTypeOf bType dwBufferLen bSQLType
      -- `m_pValues->SetLen`: it is the first node whatever the index is, and so is `length` below
      let node ← (cmd.value 0).setLen len
      let cmd := { cmd with m_pValues := cmd.m_pValues.set 0 node }
      let bind : RltBind := {
        bufferType := bufferType
        buffer := (cmd.value i).m_pData
        bufferLength := len
        length := some 0
        isNull := some i
        error := some i
        isUnsigned := blsigned }
      pure { cmd with m_pRow := some (row.set i bind) }
  | _, _, _ => pure cmd

/-! ## Accessors -/

/-- `MySqlCmd::_GetFieldIndex`, for the names in `m_pFields`; `none` is -1. -/
def getFieldIndex (cmd : MySqlCmd) (m_pFields : List Bytes) (szField : Bytes) : Option Nat :=
  if cmd.m_pRow = none ∨ cmd.m_pMetaRlt = none then none
  else (m_pFields.take cmd.m_dwFieldCnt).findIdx? fun name => stricmp szField name = 0

/-- What the accessors have in common: find the column, and convert the pointer of its node. -/
def byName {α : Type} (cmd : MySqlCmd) (m_pFields : List Bytes) (szField : Bytes) (default : α)
    (convert : Nat → α) : α :=
  match cmd.getFieldIndex m_pFields szField with
  | none => default
  | some i => if (cmd.value i).m_bIsNull then default else convert (cmd.value i).m_pData

/-- `MySqlCmd::GetShort`: the pointer itself is converted. -/
def getShort (cmd : MySqlCmd) (m_pFields : List Bytes) (szField : Bytes) : Int16 :=
  cmd.byName m_pFields szField 0 Int16.ofNat

/-- `MySqlCmd::GetWORD` -/
def getWORD (cmd : MySqlCmd) (m_pFields : List Bytes) (szField : Bytes) : UInt16 :=
  cmd.byName m_pFields szField 0 UInt16.ofNat

/-- `MySqlCmd::GetInt` -/
def getInt (cmd : MySqlCmd) (m_pFields : List Bytes) (szField : Bytes) : Int32 :=
  cmd.byName m_pFields szField 0 Int32.ofNat

/-- `MySqlCmd::GetDWORD` -/
def getDWORD (cmd : MySqlCmd) (m_pFields : List Bytes) (szField : Bytes) : UInt32 :=
  cmd.byName m_pFields szField 0 UInt32.ofNat

/-- `MySqlCmd::GetDouble`; a `double` is given by its bytes. -/
def getDouble (cmd : MySqlCmd) (m_pFields : List Bytes) (s : Heap) (szField : Bytes) : Bytes :=
  cmd.byName m_pFields szField (List.replicate 8 0) fun p => (s.bytes p).take 8

/-- The string that `MySqlCmd::GetStr` returns; `none` when it goes on behind its buffer. -/
def getStr (cmd : MySqlCmd) (m_pFields : List Bytes) (s : Heap) (szField : Bytes) : Option Bytes :=
  cmd.byName m_pFields szField (some []) fun p =>
    if 0 ∈ s.bytes p then some (CString.cstr (s.bytes p)) else none

end MySqlCmd

/-! ## `mysql_stmt_fetch` -/

/-- How many bytes a value of this type has. -/
def FieldType.size : FieldType → Option Nat
  | tiny => some 1
  | short => some 2
  | long => some 4
  | float => some 4
  | double => some 8
  | _ => none

/-- A buffer of `n` bytes after the value `v` has been stored there: what does not fit is cut off, and
there is a NUL behind a string if there is room. -/
structure BufferHolds (n : Nat) (isString : Prop) (v bytes : Bytes) : Prop where
  length : bytes.length = n
  head : v.take n <+: bytes
  terminated : isString → v.length < n → v ++ [0] <+: bytes

/-- `mysql_stmt_fetch` stores a row where `m_pRow` says, a NULL being `none`. -/
structure StoresRow (cmd : MySqlCmd) (row : List (Option Bytes)) (cmd' : MySqlCmd) (s' : Heap) :
    Prop where
  members : cmd' = { cmd with m_pValues := cmd'.m_pValues }
  data : ∀ i, (cmd'.value i).m_pData = (cmd.value i).m_pData
  isNull : ∀ binds (i : Nat) (b : RltBind) (v : Option Bytes) j, cmd.m_pRow = some binds → binds[i]? = some b →
    row[i]? = some v → b.isNull = some j → (cmd'.value j).m_bIsNull = v.isNone
  bytes : ∀ binds (i : Nat) (b : RltBind) v, cmd.m_pRow = some binds → binds[i]? = some b →
    row[i]? = some (some v) → b.buffer ≠ 0 →
    BufferHolds b.bufferLength (b.bufferType = some .varString) v (s'.bytes b.buffer)
  size : ∀ binds (i : Nat) (b : RltBind) (v : Bytes) t n, cmd.m_pRow = some binds → binds[i]? = some b →
    row[i]? = some (some v) → b.bufferType = some t → t.size = some n → v.length = n

/-- The number that bytes stand for, the least significant one first. -/
def littleEndian : Bytes → Nat
  | [] => 0
  | b :: bs => b.toNat + 256 * littleEndian bs

/-- The accessor for the type `t`, asked for a column, returns its value `v`. Of the other types there
is nothing to say. -/
def DataType.Returns (t : DataType) (cmd : MySqlCmd) (m_pFields : List Bytes) (s : Heap)
    (szField v : Bytes) : Prop :=
  match t with
  | short => cmd.getShort m_pFields szField = Int16.ofNat (littleEndian v)
  | word => cmd.getWORD m_pFields szField = UInt16.ofNat (littleEndian v)
  | int => cmd.getInt m_pFields szField = Int32.ofNat (littleEndian v)
  | dword => cmd.getDWORD m_pFields szField = UInt32.ofNat (littleEndian v)
  | double => cmd.getDouble m_pFields s szField = v
  | string => cmd.getStr m_pFields s szField = some v
  | _ => True

end XeMySql
