import XeMySql.RltField
import XeMySql.Properties.Told

/-!
# Binding result columns

`SetRltField` allocates the buffer of the first column, whatever the column it is called for, and four
accessors return the pointer to the buffer in place of what is in it. So it is only for a statement
whose first column is the only one that is bound that all is well, and not for all types.

* `setCmd_prepared` — a statement before the first call
* `setRltField_always` — what one call does
* `undisturbed_iff`, `RltEntry.Done.returns_iff` — the bindings, and the accessors
* `columns_iff` — when the columns are bound without interference and the accessors return the values
* `columns_dangle` — two columns of type `INT`
-/

namespace XeMySql

open Interact

/-! ## Runs -/

/-- The size of the array at `p`, if it is live. -/
def liveSize (p : Nat) : HeapTrace → Option Nat
  | [] => none
  | ⟨.newArray n, q⟩ :: l => if q = p then some n else liveSize p l
  | ⟨.deleteArray q, _⟩ :: l => if q = p then none else liveSize p l
  | _ :: l => liveSize p l

/-- A call of `SetRltField`, for a column. -/
structure RltCall where
  index : Nat
  bType : UInt8
  dwBufferLen : Nat

/-- A call, with the statement and the trace of the heap behind it. -/
structure RltEntry where
  call : RltCall
  cmd : MySqlCmd
  trace : HeapTrace

/-- A statement that `SetCmd` has prepared, with `n` result columns, none of which is bound. -/
structure MySqlCmd.Prepared (cmd : MySqlCmd) (n : Nat) : Prop where
  stmt : cmd.m_pStmt ≠ none
  meta_ : cmd.m_pMetaRlt ≠ none
  row : cmd.m_pRow = some (List.replicate n {})
  values : cmd.m_pValues = List.replicate n {}
  fieldCnt : cmd.m_dwFieldCnt = n
  /-- `m_dwFieldCnt` is a `DWORD` -/
  dword : n < 2 ^ 32

/-- Calls of `SetRltField` for columns among `n`, one after the other, the latest first. -/
inductive RltRun (n : Nat) (cmd₀ : MySqlCmd) :
    List RltEntry → MySqlCmd → Heap → HeapTrace → Prop
  | nil (s : Heap) : RltRun n cmd₀ [] cmd₀ s []
  | cons {es cmd s l cmd' s' l'} (h : RltRun n cmd₀ es cmd s l) (db : MySqlDB) (c : RltCall)
    (bSQLType : Option FieldType) (hdb : db.m_pMySql ≠ none) (hc : c.index < n)
    (hr : (cmd.setRltField db c.index c.bType c.dwBufferLen bSQLType).Runs HeapOp.exec s l
      cmd' s' l') : RltRun n cmd₀ (⟨c, cmd', l'⟩ :: es) cmd' s' l'

/-- Column `i` is bound to a live buffer that is long enough and belongs to the node `i`, and its cells
are those of this node. -/
def MySqlCmd.BoundTo (cmd : MySqlCmd) (l : HeapTrace) (i : Nat) : Prop :=
  ∃ row b size, cmd.m_pRow = some row ∧ row[i]? = some b ∧ b.buffer = (cmd.value i).m_pData ∧
    b.buffer ≠ 0 ∧ liveSize b.buffer l = some size ∧ b.bufferLength ≤ size ∧
    b.length = some i ∧ b.isNull = some i ∧ b.error = some i

/-- Whatever has been set is bound, and different columns have different buffers. -/
def MySqlCmd.Undisturbed (cmd : MySqlCmd) (l : HeapTrace) (set : List Nat) : Prop :=
  (∀ i ∈ set, cmd.BoundTo l i) ∧
    ∀ i ∈ set, ∀ j ∈ set, i ≠ j → (cmd.value i).m_pData ≠ (cmd.value j).m_pData

/-- After each call, that holds of the columns set so far. -/
def UndisturbedThroughout : List RltEntry → Prop
  | [] => True
  | e :: es =>
    e.cmd.Undisturbed e.trace ((e :: es).map (·.call.index)) ∧ UndisturbedThroughout es

/-- The type that column `i` has been bound with, if it is one of the enumerators. -/
def boundType (es : List RltEntry) (i : Nat) : Option DataType :=
  (es.find? fun e => e.call.index == i).bind fun e => DataType.ofByte e.call.bType

/-- The accessors return the values of the columns that have been set. -/
def AllReturned (es : List RltEntry) (cmd : MySqlCmd) (m_pFields : List Bytes) (s : Heap)
    (row : List (Option Bytes)) : Prop :=
  ∀ i t name v, boundType es i = some t → m_pFields[i]? = some name → row[i]? = some (some v) →
    t.Returns cmd m_pFields s name v

/-- What `SetRltField (0, ..)` is good for: the value is the address of the buffer, as far as it goes; or
it is a string that fits. -/
def RltCall.Suits (c : RltCall) (address : Nat) (v : Bytes) : Prop :=
  match DataType.ofByte c.bType with
  | some .short => address % 2 ^ 16 = littleEndian v
  | some .word => address % 2 ^ 16 = littleEndian v
  | some .int => address % 2 ^ 32 = littleEndian v
  | some .dword => address % 2 ^ 32 = littleEndian v
  | some .string => CString.NulFree v ∧ v.length < (c.dwBufferLen + 1) % 2 ^ 32
  | _ => True

/-- The last call suits the value of the first column. -/
def LastSuits (es : List RltEntry) (cmd : MySqlCmd) (row : List (Option Bytes)) : Prop :=
  ∀ e v, es.head? = some e → row[0]? = some (some v) → e.call.Suits (cmd.value 0).m_pData v

/-! ## One call -/

/-- The entry of a call that has been made: the first node has a new buffer, the column is bound to its
own node, and its length is told to the first one. -/
structure RltEntry.Done (e : RltEntry) (p : Nat) (binds : List RltBind) (b : RltBind)
    (bSQLType : Option FieldType) : Prop where
  row : e.cmd.m_pRow = some binds
  bind : binds[e.call.index]? = some b
  new : p ≠ 0
  value : e.cmd.value 0 =
    ⟨p, (sqlTypeOf e.call.bType e.call.dwBufferLen bSQLType).2.1, 0, false, false⟩
  live : liveSize p e.trace = some (sqlTypeOf e.call.bType e.call.dwBufferLen bSQLType).2.1
  buffer : b.buffer = (e.cmd.value e.call.index).m_pData
  bufferLength : b.bufferLength = (sqlTypeOf e.call.bType e.call.dwBufferLen bSQLType).2.1
  bufferType : b.bufferType = (sqlTypeOf e.call.bType e.call.dwBufferLen bSQLType).1
  length : b.length = some 0
  isNull : b.isNull = some e.call.index
  error : b.error = some e.call.index

/-- A statement that stays prepared while its columns are bound. -/
structure MySqlCmd.Binding (cmd : MySqlCmd) (n : Nat) : Prop where
  stmt : cmd.m_pStmt ≠ none
  meta_ : cmd.m_pMetaRlt ≠ none
  row : ∃ row, cmd.m_pRow = some row ∧ row.length = n
  values : cmd.m_pValues.length = n
  fieldCnt : cmd.m_dwFieldCnt = n

theorem MySqlCmd.Prepared.binding {cmd : MySqlCmd} {n : Nat} (h : cmd.Prepared n) :
    cmd.Binding n where
  stmt := h.stmt
  meta_ := h.meta_
  row := ⟨_, h.row, List.length_replicate⟩
  values := by rw [h.values, List.length_replicate]
  fieldCnt := h.fieldCnt

/-- **`SetCmd`** leaves such a statement, if it has any result columns. -/
theorem setCmd_prepared (cmd : MySqlCmd) (db : MySqlDB) (szCMD : Bytes) {l : DbTrace} :
    (cmd.setCmd db szCMD).Follows AnyDb l fun x _ => x.1 = true → 0 < x.2.m_dwFieldCnt →
      x.2.m_dwFieldCnt < 2 ^ 32 → x.2.Prepared x.2.m_dwFieldCnt := by
  unfold MySqlCmd.setCmd
  cases db.m_pMySql with
  | none => exact nofun
  | some h =>
    refine (Prog.follows_true fun _ _ => trivial).bind ?_
    rintro ⟨bReset, cmd⟩ l₁ -
    cases bReset with
    | false => exact nofun
    | true =>
      refine ⟨trivial, fun st _ => ?_⟩
      cases st with
      | none => exact nofun
      | some st =>
        refine ⟨trivial, fun ok _ => ?_⟩
        cases ok with
        | false => exact nofun
        | true =>
          refine ⟨trivial, fun _ _ => ⟨trivial, fun n _ => ?_⟩⟩
          simp only [Prog.bind_ret]
          split
          · refine ⟨trivial, fun r _ => ?_⟩
            cases r with
            | none => exact nofun
            | some r =>
              exact fun _ _ hn => ⟨Option.some_ne_none _, Option.some_ne_none _, rfl, rfl, rfl, hn⟩
          · next hn => exact fun _ hpos => absurd hpos hn

section

variable {cmd : MySqlCmd} {n : Nat} {s : Heap} {l : HeapTrace}

theorem setLen_always (node : ValueNode) (dwLen : Nat) :
    (node.setLen dwLen).Always HeapOp.exec s l fun node' _ l' => ∃ p, p ≠ 0 ∧
      node' = ⟨p, dwLen, 0, false, false⟩ ∧ liveSize p l' = some dwLen := by
  have hnew : ∀ s l, (do
      let p ← HeapOp.req (.newArray dwLen)
      pure ⟨p, dwLen, 0, false, false⟩ : HeapCode ValueNode).Always HeapOp.exec s l
        fun node' _ l' => ∃ p, p ≠ 0 ∧ node' = ⟨p, dwLen, 0, false, false⟩ ∧
          liveSize p l' = some dwLen := by
    intro s l
    refine always_heap fun o s₁ p he => ?_
    simp only [HeapOp.exec] at he
    split at he
    · next ho =>
      cases he
      exact Prog.always_ret ⟨o, ho.1, rfl, if_pos rfl⟩
    · cases he
  unfold ValueNode.setLen
  split
  · exact hnew s l
  · refine always_heap fun o s₁ _ he => ?_
    exact hnew s₁ _

/-- **`SetRltField`** for a column of the statement. -/
theorem setRltField_always (hb : cmd.Binding n) (hn : n < 2 ^ 32) {db : MySqlDB}
    (hdb : db.m_pMySql ≠ none) (c : RltCall) (hc : c.index < n) (bSQLType : Option FieldType) :
    (cmd.setRltField db c.index c.bType c.dwBufferLen bSQLType).Always HeapOp.exec s l
      fun cmd' _ l' => cmd'.Binding n ∧ ∃ p binds b, RltEntry.Done ⟨c, cmd', l'⟩ p binds b bSQLType := by
  obtain ⟨h, hh⟩ := Option.ne_none_iff_exists'.mp hdb
  obtain ⟨st, hst⟩ := Option.ne_none_iff_exists'.mp hb.stmt
  obtain ⟨row, hrow, hlen⟩ := hb.row
  have hindex : ((c.index : Int) % 2 ^ 32).toNat = c.index := by omega
  have hlt : ¬ cmd.m_dwFieldCnt ≤ c.index := by
    rw [hb.fieldCnt]
    omega
  unfold MySqlCmd.setRltField
  rw [hh, hst, hrow]
  simp only [hindex, if_neg hlt]
  refine (setLen_always (cmd.value 0) _).bind ?_
  rintro node s₁ l₁ ⟨p, hp, rfl, hlive⟩
  have hpos : 0 < cmd.m_pValues.length := by
    rw [hb.values]
    omega
  have hvalue : ∀ node : ValueNode, (cmd.m_pValues.set 0 node).getD 0 {} = node := by
    intro node
    rw [List.getD_eq_getElem?_getD, List.getElem?_set_self hpos, Option.getD_some]
  refine Prog.always_ret ⟨⟨Option.some_ne_none st, hb.meta_, ⟨_, rfl, ?_⟩, ?_, hb.fieldCnt⟩, ?_⟩
  · rw [List.length_set, hlen]
  · rw [List.length_set, hb.values]
  · exact ⟨p, _, _, rfl, List.getElem?_set_self (by omega), hp, hvalue _, hlive, rfl, rfl, rfl,
      rfl, rfl, rfl⟩

end

/-! ## Bindings -/

namespace RltEntry.Done

variable {e : RltEntry} {p : Nat} {binds : List RltBind} {b : RltBind} {u : Option FieldType}

/-- The first column is bound to its node. -/
theorem boundTo (h : e.Done p binds b u) (h0 : e.call.index = 0) : e.cmd.BoundTo e.trace 0 := by
  have hbuffer : b.buffer = p := by
    rw [h.buffer, h0, h.value]
  refine ⟨binds, b, _, h.row, h0 ▸ h.bind, ?_, ?_, ?_, h.bufferLength.le, h.length, ?_, ?_⟩
  · rw [hbuffer, h.value]
  · rw [hbuffer]
    exact h.new
  · rw [hbuffer]
    exact h.live
  · rw [h.isNull, h0]
  · rw [h.error, h0]

/-- No other column is, because of its length. -/
theorem index_eq_zero (h : e.Done p binds b u) (hb : e.cmd.BoundTo e.trace e.call.index) :
    e.call.index = 0 := by
  obtain ⟨binds', b', size, hrow, hbind, -, -, -, -, hlength, -⟩ := hb
  obtain rfl : binds = binds' := Option.some.inj (h.row.symm.trans hrow)
  obtain rfl : b = b' := Option.some.inj (h.bind.symm.trans hbind)
  exact (Option.some.inj (h.length.symm.trans hlength)).symm

end RltEntry.Done

/-- **The columns are undisturbed just as long as only the first is bound.** -/
theorem undisturbed_iff {es : List RltEntry} (hes : ∀ e ∈ es, ∃ p binds b u, e.Done p binds b u) :
    UndisturbedThroughout es ↔ ∀ e ∈ es, e.call.index = 0 := by
  induction es with
  | nil => simp [UndisturbedThroughout]
  | cons e es ih =>
    obtain ⟨⟨p, binds, b, u, hdone⟩, hrest⟩ := List.forall_mem_cons.mp hes
    rw [UndisturbedThroughout, ih hrest, List.forall_mem_cons]
    constructor
    · rintro ⟨⟨hbound, -⟩, hzero⟩
      exact ⟨hdone.index_eq_zero (hbound e.call.index List.mem_cons_self), hzero⟩
    · rintro ⟨h0, hzero⟩
      have hset : ∀ i ∈ (e :: es).map (·.call.index), i = 0 := by
        intro i hi
        obtain ⟨e', he', rfl⟩ := List.mem_map.mp hi
        rcases List.mem_cons.mp he' with rfl | he'
        · exact h0
        · exact hzero e' he'
      refine ⟨⟨?_, ?_⟩, hzero⟩
      · intro i hi
        rw [hset i hi]
        exact hdone.boundTo h0
      · intro i hi j hj hij
        rw [hset i hi, hset j hj] at hij
        exact absurd rfl hij

/-- **Run lemma.** What the calls have left behind. -/
theorem RltRun.done {n : Nat} {cmd₀ cmd : MySqlCmd} {es : List RltEntry} {s : Heap} {l : HeapTrace}
    (h : RltRun n cmd₀ es cmd s l) (hp : cmd₀.Prepared n) :
    cmd.Binding n ∧ (∀ e ∈ es, ∃ p binds b u, e.Done p binds b u) ∧
      ∀ e, es.head? = some e → e.cmd = cmd ∧ e.call.index < n := by
  induction h with
  | nil s => exact ⟨hp.binding, by simp, by simp⟩
  | @cons es cmd s l cmd' s' l' h db c u hdb hc hr ih =>
    obtain ⟨hbinding, hdone, -⟩ := ih
    obtain ⟨hbinding', p, binds, b, hnew⟩ :=
      setRltField_always hbinding hp.dword hdb c hc u _ _ _ hr
    refine ⟨hbinding', List.forall_mem_cons.mpr ⟨⟨p, binds, b, u, hnew⟩, hdone⟩, ?_⟩
    intro e he
    cases he
    exact ⟨rfl, hc⟩

/-! ## Values -/

theorem Int16.ofNat_eq_iff (a b : Nat) :
    Int16.ofNat a = Int16.ofNat b ↔ a % 2 ^ 16 = b % 2 ^ 16 := by
  rw [← Int16.toBitVec_inj, Int16.toBitVec_ofNat', Int16.toBitVec_ofNat', ← BitVec.toNat_inj,
    BitVec.toNat_ofNat, BitVec.toNat_ofNat]

theorem Int32.ofNat_eq_iff (a b : Nat) :
    Int32.ofNat a = Int32.ofNat b ↔ a % 2 ^ 32 = b % 2 ^ 32 := by
  rw [← Int32.toBitVec_inj, Int32.toBitVec_ofNat', Int32.toBitVec_ofNat', ← BitVec.toNat_inj,
    BitVec.toNat_ofNat, BitVec.toNat_ofNat]

theorem UInt16.ofNat_eq_iff (a b : Nat) :
    UInt16.ofNat a = UInt16.ofNat b ↔ a % 2 ^ 16 = b % 2 ^ 16 := by
  rw [UInt16.ofNat_eq_iff_mod_eq_toNat, UInt16.toNat_ofNat']

theorem UInt32.ofNat_eq_iff (a b : Nat) :
    UInt32.ofNat a = UInt32.ofNat b ↔ a % 2 ^ 32 = b % 2 ^ 32 := by
  rw [UInt32.ofNat_eq_iff_mod_eq_toNat, UInt32.toNat_ofNat']

theorem littleEndian_lt (v : Bytes) : littleEndian v < 256 ^ v.length := by
  induction v with
  | nil => exact Nat.one_pos
  | cons b v ih =>
    have hb : b.toNat < 256 := b.toNat_lt
    rw [littleEndian, List.length_cons, Nat.pow_succ]
    omega

/-- A string is found in its buffer when it has an end there. -/
theorem BufferHolds.cstr_iff {n : Nat} {v bytes : Bytes} (h : BufferHolds n True v bytes) :
    (if 0 ∈ bytes then some (CString.cstr bytes) else none) = some v ↔
      CString.NulFree v ∧ v.length < n := by
  constructor
  · intro heq
    split at heq
    · next hmem =>
      cases heq
      refine ⟨CString.nulFree_cstr bytes, ?_⟩
      rw [← h.length]
      refine Nat.lt_of_le_of_ne (CString.length_cstr_le bytes) ?_
      intro hlen
      have hall : CString.cstr bytes = bytes := (List.takeWhile_prefix _).eq_of_length hlen
      refine CString.nulFree_cstr bytes 0 ?_ rfl
      rw [hall]
      exact hmem
    · cases heq
  · rintro ⟨hfree, hlt⟩
    obtain ⟨rest, hrest⟩ := h.terminated trivial hlt
    rw [List.append_assoc, List.singleton_append] at hrest
    rw [← hrest, CString.cstr_append_zero hfree, if_pos (by simp)]

/-- What a fetch leaves of the first column, which is bound to `len` bytes at `p`: the value `v`. -/
structure Fetched (cmd : MySqlCmd) (s : Heap) (p : Nat) (fieldType : FieldType) (len : Nat)
    (v : Bytes) : Prop where
  row : cmd.m_pRow ≠ none
  meta_ : cmd.m_pMetaRlt ≠ none
  fieldCnt : 0 < cmd.m_dwFieldCnt
  isNull : (cmd.value 0).m_bIsNull = false
  data : (cmd.value 0).m_pData = p
  bytes : BufferHolds len (fieldType = .varString) v (s.bytes p)
  size : ∀ k, fieldType.size = some k → v.length = k

namespace Fetched

variable {cmd : MySqlCmd} {s : Heap} {p len : Nat} {fieldType : FieldType} {v : Bytes}

/-- The accessors find the column by its name. -/
theorem byName_eq (h : Fetched cmd s p fieldType len v) {m_pFields : List Bytes} {name : Bytes}
    (hname : m_pFields[0]? = some name) {α : Type} (default : α) (convert : Nat → α) :
    cmd.byName m_pFields name default convert = convert p := by
  have hfind : cmd.getFieldIndex m_pFields name = some 0 := by
    obtain ⟨rest, rfl⟩ : ∃ rest, m_pFields = name :: rest := by
      cases m_pFields with
      | nil => cases hname
      | cons f rest =>
        cases hname
        exact ⟨rest, rfl⟩
    obtain ⟨m, hm⟩ : ∃ m, cmd.m_dwFieldCnt = m + 1 :=
      ⟨_, (Nat.succ_pred_eq_of_pos h.fieldCnt).symm⟩
    have hsame : stricmp name name = 0 := (stricmp_eq_zero_iff name name).mpr rfl
    unfold MySqlCmd.getFieldIndex
    rw [if_neg (not_or.mpr ⟨h.row, h.meta_⟩), hm, List.take_succ_cons, List.findIdx?_cons,
      if_pos (by simpa using hsame)]
  rw [MySqlCmd.byName, hfind, ← h.data]
  simp only [h.isNull, Bool.false_eq_true, if_false]

/-- A number has as many bytes as its type. -/
theorem littleEndian_lt (h : Fetched cmd s p fieldType len v) {k : Nat}
    (hk : fieldType.size = some k) : littleEndian v < 256 ^ k := by
  rw [← h.size k hk]
  exact XeMySql.littleEndian_lt v

/-- Eight bytes are all of a `double`. -/
theorem take_bytes (h : Fetched cmd s p .double 8 v) : (s.bytes p).take 8 = v := by
  have hv : v.length = 8 := h.size 8 rfl
  have hhead : v <+: s.bytes p := by
    rw [← List.take_of_length_le hv.le]
    exact h.bytes.head
  rw [← hhead.eq_of_length (hv.trans h.bytes.length.symm), List.take_of_length_le hv.le]

end Fetched

section

variable {n : Nat} {cmd cmd' : MySqlCmd} {e : RltEntry} {p : Nat} {binds : List RltBind}
  {b : RltBind} {u : Option FieldType} {s' : Heap} {row : List (Option Bytes)}
  {m_pFields : List Bytes} {name v : Bytes}

/-- A row is fetched when the first column has been bound by the call `e`. -/
theorem RltEntry.Done.fetched {t : DataType} (h : e.Done p binds b u) (h0 : e.call.index = 0)
    (hb : e.cmd.Binding n) (hn : 0 < n) (hf : StoresRow e.cmd row cmd' s')
    (ht : DataType.ofByte e.call.bType = some t) (hv : row[0]? = some (some v)) :
    Fetched cmd' s' p (t.sqlType e.call.dwBufferLen).1 (t.sqlType e.call.dwBufferLen).2.1 v := by
  have hbind : binds[0]? = some b := h0 ▸ h.bind
  have hbuffer : b.buffer = p := by
    rw [h.buffer, h0, h.value]
  have htype : b.bufferType = some (t.sqlType e.call.dwBufferLen).1 := by
    rw [h.bufferType, sqlTypeOf, ht]
  have hlen : b.bufferLength = (t.sqlType e.call.dwBufferLen).2.1 := by
    rw [h.bufferLength, sqlTypeOf, ht]
  have hbytes := hf.bytes binds 0 b v h.row hbind hv (by rw [hbuffer]; exact h.new)
  rw [hbuffer, hlen, htype] at hbytes
  refine ⟨?_, ?_, ?_, ?_, ?_, ?_, fun k hk => hf.size binds 0 b v _ k h.row hbind hv htype hk⟩
  · rw [hf.members]
    exact Option.ne_none_iff_exists'.mpr ⟨binds, h.row⟩
  · rw [hf.members]
    exact hb.meta_
  · rw [hf.members]
    exact hb.fieldCnt.symm ▸ hn
  · exact hf.isNull binds 0 b (some v) 0 h.row hbind hv (h0 ▸ h.isNull)
  · rw [hf.data, h.value]
  · exact ⟨hbytes.length, hbytes.head, fun hs => hbytes.terminated (congrArg some hs)⟩

/-- **What the accessors return of the first column**, bound by the call `e`. -/
theorem RltEntry.Done.returns_iff {t : DataType} (h : e.Done p binds b u)
    (h0 : e.call.index = 0) (hb : e.cmd.Binding n) (hn : 0 < n)
    (hf : StoresRow e.cmd row cmd' s') (ht : DataType.ofByte e.call.bType = some t)
    (hname : m_pFields[0]? = some name) (hv : row[0]? = some (some v)) :
    t.Returns cmd' m_pFields s' name v ↔ e.call.Suits p v := by
  have hfetched := h.fetched h0 hb hn hf ht hv
  unfold RltCall.Suits
  rw [ht]
  cases t with
  | short =>
    have hlt : littleEndian v < 2 ^ 16 := hfetched.littleEndian_lt rfl
    show cmd'.getShort m_pFields name = _ ↔ _
    rw [MySqlCmd.getShort, hfetched.byName_eq hname, Int16.ofNat_eq_iff, Nat.mod_eq_of_lt hlt]
  | word =>
    have hlt : littleEndian v < 2 ^ 16 := hfetched.littleEndian_lt rfl
    show cmd'.getWORD m_pFields name = _ ↔ _
    rw [MySqlCmd.getWORD, hfetched.byName_eq hname, UInt16.ofNat_eq_iff, Nat.mod_eq_of_lt hlt]
  | int =>
    have hlt : littleEndian v < 2 ^ 32 := hfetched.littleEndian_lt rfl
    show cmd'.getInt m_pFields name = _ ↔ _
    rw [MySqlCmd.getInt, hfetched.byName_eq hname, Int32.ofNat_eq_iff, Nat.mod_eq_of_lt hlt]
  | dword =>
    have hlt : littleEndian v < 2 ^ 32 := hfetched.littleEndian_lt rfl
    show cmd'.getDWORD m_pFields name = _ ↔ _
    rw [MySqlCmd.getDWORD, hfetched.byName_eq hname, UInt32.ofNat_eq_iff, Nat.mod_eq_of_lt hlt]
  | double =>
    refine iff_of_true ?_ trivial
    show cmd'.getDouble m_pFields s' name = v
    rw [MySqlCmd.getDouble, hfetched.byName_eq hname]
    exact hfetched.take_bytes
  | string =>
    show cmd'.getStr m_pFields s' name = some v ↔ _
    rw [MySqlCmd.getStr, hfetched.byName_eq hname]
    have hstring : BufferHolds ((e.call.dwBufferLen + 1) % 2 ^ 32) True v (s'.bytes p) :=
      ⟨hfetched.bytes.length, hfetched.bytes.head, fun _ => hfetched.bytes.terminated rfl⟩
    exact hstring.cstr_iff
  | _ => exact iff_of_true trivial trivial

/-- The first column has the type of the last call, if that is for it. -/
theorem boundType_cons {es : List RltEntry} (h0 : e.call.index = 0) :
    boundType (e :: es) 0 = DataType.ofByte e.call.bType := by
  rw [boundType, List.find?_cons, h0]
  rfl

/-- No column but those of the calls has one. -/
theorem index_of_boundType {es : List RltEntry} {i : Nat} {t : DataType}
    (h : boundType es i = some t) : ∃ e ∈ es, e.call.index = i := by
  obtain ⟨e, hfind, -⟩ := Option.bind_eq_some_iff.mp h
  have hbeq := List.find?_some hfind
  exact ⟨e, List.mem_of_find?_eq_some hfind, beq_iff_eq.mp hbeq⟩

/-- **When the columns are bound without interference**, and the accessors return what has been
stored. -/
theorem columns_iff {cmd₀ : MySqlCmd} {es : List RltEntry} {s : Heap} {l : HeapTrace}
    (hp : cmd₀.Prepared n) (hr : RltRun n cmd₀ es cmd s l) (hf : StoresRow cmd row cmd' s')
    (hnames : m_pFields.length = n) :
    (UndisturbedThroughout es ∧ AllReturned es cmd' m_pFields s' row) ↔
      (∀ e ∈ es, e.call.index = 0) ∧ LastSuits es cmd row := by
  obtain ⟨hbinding, hdone, hhead⟩ := hr.done hp
  rw [undisturbed_iff hdone]
  refine and_congr_right fun hzero => ?_
  cases es with
  | nil =>
    refine iff_of_true ?_ ?_
    · intro i t name v ht
      cases ht
    · intro e v he
      cases he
  | cons e es =>
    obtain ⟨rfl, hlt⟩ := hhead e rfl
    obtain ⟨p, binds, b, u, hnew⟩ := hdone e List.mem_cons_self
    have hn : 0 < n := Nat.lt_of_le_of_lt (Nat.zero_le _) hlt
    have h0 : e.call.index = 0 := hzero e List.mem_cons_self
    have hvalue : (e.cmd.value 0).m_pData = p := by
      rw [hnew.value]
    have hiff : ∀ {t name v}, DataType.ofByte e.call.bType = some t → m_pFields[0]? = some name →
        row[0]? = some (some v) → (t.Returns cmd' m_pFields s' name v ↔ e.call.Suits p v) :=
      fun ht hname hv => hnew.returns_iff h0 hbinding hn hf ht hname hv
    constructor
    · intro hall e' v he' hv
      cases he'
      rw [hvalue]
      cases ht : DataType.ofByte e.call.bType with
      | none =>
        unfold RltCall.Suits
        rw [ht]
        trivial
      | some t =>
        obtain ⟨name, hname⟩ : ∃ name, m_pFields[0]? = some name :=
          ⟨m_pFields[0], List.getElem?_eq_getElem (hnames ▸ hn)⟩
        refine (hiff ht hname hv).mp (hall 0 t name v ?_ hname hv)
        exact (boundType_cons h0).trans ht
    · intro hlast i t name v hbound hname hv
      obtain ⟨e', he', rfl⟩ := index_of_boundType hbound
      rw [hzero e' he'] at hbound hname hv
      have ht := (boundType_cons h0).symm.trans hbound
      have hsuits := hlast e v rfl hv
      rw [hvalue] at hsuits
      exact (hiff ht hname hv).mpr hsuits

end

/-- A statement with `n` result columns, as `SetCmd` leaves it. -/
def preparedWith (n : Nat) : MySqlCmd where
  m_pStmt := some 0
  m_pRow := some (List.replicate n {})
  m_pMetaRlt := some 0
  m_pValues := List.replicate n {}
  m_dwFieldCnt := n

theorem prepared_with {n : Nat} (hn : n < 2 ^ 32) : (preparedWith n).Prepared n :=
  ⟨Option.some_ne_none _, Option.some_ne_none _, rfl, rfl, rfl, hn⟩

/-- What is behind a call for column `i`, with the type for libmysql and the length of the buffer. -/
def boundWith (cmd : MySqlCmd) (i : Nat) (fieldType : FieldType) (len address : Nat) : MySqlCmd :=
  let m_pValues := cmd.m_pValues.set 0 ⟨address, len, 0, false, false⟩
  { cmd with
    m_pValues := m_pValues
    m_pRow := cmd.m_pRow.map fun row => row.set i
      ⟨some fieldType, (m_pValues.getD i {}).m_pData, len, some 0, some i, some i, false⟩ }

/-- A connected object. -/
def connectedDb : MySqlDB := { m_pMySql := some 0, m_bConnected := true }

/-- A call that is answered with `address`, where the first node has no buffer yet. -/
theorem firstCall {n : Nat} {c : RltCall} {cmd' : MySqlCmd} {s s' : Heap} {l' : HeapTrace}
    (address : Nat) (hc : c.index < n)
    (h : ((preparedWith n).setRltField connectedDb c.index c.bType c.dwBufferLen none).eval
      HeapOp.exec [address] s [] = some (cmd', s', l')) :
    RltRun n (preparedWith n) [⟨c, cmd', l'⟩] cmd' s' l' :=
  .cons (.nil s) connectedDb c none (Option.some_ne_none 0) hc (Prog.runs_of_eval h)

/-- A statement with two columns: the first is bound as an `INT` and then as a `double`, the second never
and NULL. -/
theorem columns_iff_rebound : ∃ es cmd s l cmd' s',
    RltRun 2 (preparedWith 2) es cmd s l ∧ es.map (·.call) = [⟨0, 6, 0⟩, ⟨0, 3, 0⟩] ∧
    ((UndisturbedThroughout es ∧
        AllReturned es cmd' [[97], [98]] s' [some (List.replicate 8 1), none]) ↔
      (∀ e ∈ es, e.call.index = 0) ∧ LastSuits es cmd [some (List.replicate 8 1), none]) := by
  let int := boundWith (preparedWith 2) 0 .long 4 16
  let l : HeapTrace := [⟨.newArray 4, 16⟩]
  let cmd := boundWith int 0 .double 8 32
  let l' : HeapTrace := ⟨.newArray 8, 32⟩ :: ⟨.deleteArray 16, ()⟩ :: l
  have hrun : RltRun 2 (preparedWith 2) [⟨⟨0, 3, 0⟩, int, l⟩] int
      ⟨[16], fun _ _ => 0, fun _ => []⟩ l :=
    firstCall (s := ⟨[], fun _ _ => 0, fun _ => []⟩) 16 Nat.two_pos rfl
  have heval : (int.setRltField connectedDb 0 6 0 none).eval HeapOp.exec [0, 32]
      ⟨[16], fun _ _ => 0, fun _ => []⟩ l =
        some (cmd, ⟨[32], fun _ _ => 0, fun _ => []⟩, l') := rfl
  have hrun' := hrun.cons connectedDb ⟨0, 6, 0⟩ none (Option.some_ne_none 0) Nat.two_pos
    (Prog.runs_of_eval heval)
  have hstores : StoresRow cmd [some (List.replicate 8 1), none] cmd
      ⟨[32], fun _ _ => 0, fun _ => List.replicate 8 1⟩ := by
    refine ⟨rfl, fun _ => rfl, ?_, ?_, ?_⟩
    · intro binds i b v j hbinds hb hv hj
      rcases i with _ | _ | i
      · cases hbinds
        cases hb
        cases hv
        cases hj
        rfl
      · cases hbinds
        cases hb
        cases hj
      · cases hv
    · intro binds i b v hbinds hb hv hne
      rcases i with _ | _ | i
      · cases hbinds
        cases hb
        cases hv
        exact ⟨rfl, List.prefix_refl _, fun hstring => nomatch hstring⟩
      · cases hv
      · cases hv
    · intro binds i b v t k hbinds hb hv ht hk
      rcases i with _ | _ | i
      · cases hbinds
        cases hb
        cases hv
        cases ht
        cases hk
        rfl
      · cases hv
      · cases hv
  exact ⟨_, _, _, _, cmd, _, hrun', rfl,
    columns_iff (prepared_with (by decide)) hrun' hstores rfl⟩

/-- The statement with two columns of type `INT`: the second call deletes the buffer of the first
column, and allocates none for the second. -/
theorem columns_dangle : ∃ es cmd s l binds b c, RltRun 2 (preparedWith 2) es cmd s l ∧
    es.map (·.call.index) = [1, 0] ∧ cmd.m_pRow = some binds ∧ binds[0]? = some b ∧
    binds[1]? = some c ∧ liveSize b.buffer l = none ∧ c.buffer = 0 ∧
    ¬ UndisturbedThroughout es := by
  let cmd := boundWith (preparedWith 2) 0 .long 4 16
  let l : HeapTrace := [⟨.newArray 4, 16⟩]
  let cmd' := boundWith cmd 1 .long 4 32
  let l' : HeapTrace := ⟨.newArray 4, 32⟩ :: ⟨.deleteArray 16, ()⟩ :: l
  have hrun : RltRun 2 (preparedWith 2) [⟨⟨0, 3, 0⟩, cmd, l⟩] cmd
      ⟨[16], fun _ _ => 0, fun _ => []⟩ l :=
    firstCall (s := ⟨[], fun _ _ => 0, fun _ => []⟩) 16 Nat.two_pos rfl
  have heval : (cmd.setRltField connectedDb 1 3 0 none).eval HeapOp.exec [0, 32]
      ⟨[16], fun _ _ => 0, fun _ => []⟩ l =
        some (cmd', ⟨[32], fun _ _ => 0, fun _ => []⟩, l') := rfl
  have hrun' : RltRun 2 (preparedWith 2) [⟨⟨1, 3, 0⟩, cmd', l'⟩, ⟨⟨0, 3, 0⟩, cmd, l⟩] cmd'
      ⟨[32], fun _ _ => 0, fun _ => []⟩ l' :=
    hrun.cons connectedDb ⟨1, 3, 0⟩ none (Option.some_ne_none 0) Nat.one_lt_two
      (Prog.runs_of_eval heval)
  refine ⟨_, cmd', _, l', _, _, _, hrun', rfl, rfl, rfl, rfl, rfl, rfl, ?_⟩
  rw [undisturbed_iff (hrun'.done (prepared_with (by decide))).2.1]
  intro hzero
  exact absurd (hzero _ List.mem_cons_self) Nat.one_ne_zero

end XeMySql
