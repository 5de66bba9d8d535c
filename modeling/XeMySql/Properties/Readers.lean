import XeMySql.MySqlQuery
import XeMySql.Properties.Access

/-!
# The two readers

`CXEMySqlResult` and `MySqlQuery` at the same row of a result set. The accessors by name that convert a
cell are the same code; the others have drifted apart.

* `Alike.byName_eq` — the same code
* `same_cnt_iff`, `same_blob_iff`, `same_flags_iff` — where the two differ
* `readers_agree_iff` — when they give the same answers
-/

namespace XeMySql

open Interact

/-! ## At the same row -/

namespace QueryReader

/-- Calls of `FetchRow`, all of which return true. -/
def fetchRows (sets : ResultSets) : Nat → QueryReader → Option QueryReader
  | 0, t => some t
  | k + 1, t => ((t.fetchRow sets).bind succeeded).bind (fetchRows sets k)

/-- `FetchRecords`, for which the result set `r` is there, and calls of `FetchRow`, all of which return
true. -/
def readTo (sets : ResultSets) (t : QueryReader) (blAll : Bool) (r k : Nat) : Option QueryReader :=
  (succeeded (t.fetchRecords blAll (sets r).fields.length (some r))).bind (fetchRows sets k)

end QueryReader

/-- The query has the columns of the result set `r`, and knows of its rows what `blAll` says. -/
structure QueryColumns (sets : ResultSets) (t : QueryReader) (blAll : Bool) (r : Nat) : Prop where
  db : t.obj.m_pDB = true
  records : t.obj.m_pRecords = some r
  count : t.obj.m_dwFieldCnt = (sets r).fields.length
  fields : t.obj.m_pFields = some r
  stored : t.stored r = blAll

/-- It is at row `k`, the one that has been delivered last. -/
structure QueryPositioned (sets : ResultSets) (t : QueryReader) (blAll : Bool) (r k : Nat) : Prop
    extends QueryColumns sets t blAll r where
  atRow : t.obj.m_pRow = some ⟨r, k⟩
  atLengths : t.obj.m_pFieldsLens = some ⟨r, k⟩
  delivered : t.delivered r = k + 1

section

variable {sets : ResultSets} {t t' : QueryReader} {blAll : Bool} {r k : Nat}

/-- What `FetchRecords` establishes. -/
theorem fetchRecords_queryColumns
    (h : t.fetchRecords blAll (sets r).fields.length (some r) = (t', true)) :
    QueryColumns sets t' blAll r ∧ t'.delivered = t.delivered := by
  unfold QueryReader.fetchRecords at h
  split at h
  · cases h
  · next hdb =>
    dsimp only at h
    split at h
    · cases h
    · cases h
      exact ⟨⟨by simpa using hdb, rfl, rfl, rfl, by simp⟩, rfl⟩

/-- What `FetchRow` establishes: the next row. -/
theorem QueryColumns.fetchRow (ht : QueryColumns sets t blAll r)
    (h : t.fetchRow sets = some (t', true)) : QueryPositioned sets t' blAll r (t.delivered r) := by
  unfold QueryReader.fetchRow at h
  rw [if_neg (by simp [ht.db]), ht.records, Option.map_some, Option.some.injEq] at h
  unfold Reader.mysqlFetchRow at h
  by_cases hlt : t.delivered r < (sets r).rows.length
  · simp only [if_pos hlt, Reader.mysqlFetchLengths, Function.update_self] at h
    cases h
    exact ⟨⟨ht.db, ht.records, ht.count, ht.fields, ht.stored⟩, rfl, rfl, by simp⟩
  · simp [if_neg hlt] at h

/-- The same for some rows. -/
theorem QueryColumns.fetchRows (ht : QueryColumns sets t blAll r)
    (h : QueryReader.fetchRows sets (k + 1) t = some t') :
    QueryPositioned sets t' blAll r (t.delivered r + k) := by
  induction k generalizing t with
  | zero =>
    obtain ⟨t1, h1, h2⟩ := Option.bind_eq_some_iff.mp h
    obtain ⟨x, hx, hsucc⟩ := Option.bind_eq_some_iff.mp h1
    cases h2
    rw [succeeded_eq_some_iff.mp hsucc] at hx
    exact ht.fetchRow hx
  | succ k ih =>
    obtain ⟨t1, h1, h2⟩ := Option.bind_eq_some_iff.mp h
    obtain ⟨x, hx, hsucc⟩ := Option.bind_eq_some_iff.mp h1
    rw [succeeded_eq_some_iff.mp hsucc] at hx
    have hpos := ht.fetchRow hx
    have hrec := ih hpos.toQueryColumns h2
    rwa [hpos.delivered, show t.delivered r + 1 + k = t.delivered r + (k + 1) by omega] at hrec

/-- **What the protocol establishes.** -/
theorem readTo_queryPositioned (h : t.readTo sets blAll r (k + 1) = some t') :
    QueryPositioned sets t' blAll r (t.delivered r + k) := by
  obtain ⟨t1, h1, h2⟩ := Option.bind_eq_some_iff.mp h
  obtain ⟨hcols, hsame⟩ := fetchRecords_queryColumns (succeeded_eq_some_iff.mp h1)
  have hrow := hcols.fetchRows h2
  rwa [hsame] at hrow

end

/-! ## The same code -/

/-- The two objects have the same arrays. -/
structure Alike (x : CXEMySqlResult) (q : MySqlQuery) : Prop where
  res : x.m_pRes = q.m_pRecords
  res_isSome : x.m_pRes.isSome
  row : x.m_pRow = q.m_pRow
  row_isSome : x.m_pRow.isSome
  fields : x.m_pFields = q.m_pFields
  lengths : x.m_pLengths = q.m_pFieldsLens
  count : x.m_dwFieldCnt = q.m_dwFieldCnt
  db : q.m_pDB = true

theorem stricmp_comm_eq_zero (s t : Bytes) : stricmp s t = 0 ↔ stricmp t s = 0 := by
  rw [stricmp_eq_zero_iff, stricmp_eq_zero_iff, eq_comm]

namespace Alike

variable {x : CXEMySqlResult} {q : MySqlQuery} (h : Alike x q)
include h

/-- The loops make the same reads and come to the same index. -/
theorem searchFrom_eq (f : Bytes) (left i : Nat) :
    q.searchFrom f left i = x.searchFrom f left i := by
  induction left generalizing i with
  | zero => rfl
  | succ left ih =>
    unfold MySqlQuery.searchFrom CXEMySqlResult.searchFrom
    rw [h.fields]
    congr 1
    funext field
    have hrec := ih (i + 1)
    rw [Int.natCast_add] at hrec
    exact if_congr (stricmp_comm_eq_zero _ _) rfl hrec

theorem getFieldIndex_eq (f : Bytes) : q.getFieldIndex f = x.getFieldIndex (some f) := by
  obtain ⟨r, hr⟩ := Option.isSome_iff_exists.mp h.res_isSome
  obtain ⟨p, hp⟩ := Option.isSome_iff_exists.mp h.row_isSome
  unfold MySqlQuery.getFieldIndex CXEMySqlResult.getFieldIndex
  rw [if_neg (by simp [h.db, ← h.res, hr, ← h.row, hp]), hr, hp, h.count, Int.toNat_natCast]
  exact h.searchFrom_eq f q.m_dwFieldCnt 0

/-- **The accessors by name that convert a cell are the same.** -/
theorem byName_eq {α : Type} (f : Bytes) (d : α) (convert : Bytes → α) :
    q.byName f d convert = x.byName (some f) d convert := by
  unfold MySqlQuery.byName CXEMySqlResult.byName
  rw [h.getFieldIndex_eq, h.row]

end Alike

/-! ## Answers -/

/-- Both accessors return, and the answers correspond. -/
def Both {α β : Type} (sets : ResultSets) (p : Reading α) (q : Reading β) (g : β → α) : Prop :=
  ∃ b, q.value sets.read = some b ∧ p.value sets.read = some (g b)

/-- NULL as the empty string. -/
def orEmpty (b : Option Bytes × Option Int) : Bytes × Option Int := (b.1.getD [], b.2)

/-- The two readers give the same answers; for a pointer `pnLen`, what is stored there is part of the
answer. -/
structure SameAnswers (sets : ResultSets) (x : CXEMySqlResult) (t : QueryReader) : Prop where
  recordsCnt : x.getRecordsCnt = t.getRecordsCnt sets
  str : ∀ f, Both sets (x.getStr (some f)) (t.obj.getStr f) id
  word : ∀ f, Both sets (x.getWORD (some f)) (t.obj.getWORD f) id
  int : ∀ f, Both sets (x.getInt (some f)) (t.obj.getInt f) id
  dword : ∀ f, Both sets (x.getDWORD (some f)) (t.obj.getDWORD f) id
  blob : ∀ f, Both sets (x.getBLOB (some f) true) (t.obj.getBLOB f) orEmpty
  fieldName : ∀ i : Nat, i < x.m_dwFieldCnt →
    Both sets (x.getFieldName i) (t.obj.getFieldName i) fun name => name.getD []
  fieldValue : ∀ i : Nat, i < x.m_dwFieldCnt → ∀ pnLen,
    Both sets (x.getFieldValue i pnLen) (t.obj.getFieldValue i pnLen) orEmpty
  isBLOB : ∀ i : Nat, i < x.m_dwFieldCnt →
    Both sets (x.isBLOBField i) (t.obj.isBLOBField i) id

section

variable {sets : ResultSets} {x : CXEMySqlResult} {t : QueryReader} {blAll : Bool} {r k : Nat}
  {row : List (Option Bytes)} (hx : Positioned sets x r k row)
  (ht : QueryPositioned sets t blAll r k)
include hx ht

theorem alike : Alike x t.obj where
  res := hx.res.trans ht.records.symm
  res_isSome := hx.res ▸ rfl
  row := hx.atRow.trans ht.atRow.symm
  row_isSome := hx.atRow ▸ rfl
  fields := hx.fields.trans ht.fields.symm
  lengths := hx.atLengths.trans ht.atLengths.symm
  count := by rw [hx.count, ht.count]
  db := ht.db

/-- The accessors by name that convert a cell give the same. -/
theorem both_byName {α : Type} (f : Bytes) (d : α) (convert : Bytes → α) :
    Both sets (x.byName (some f) d convert) (t.obj.byName f d convert) id := by
  refine ⟨_, ?_, hx.value_byName f d convert⟩
  rw [(alike hx ht).byName_eq]
  exact hx.value_byName f d convert

/-- `GetRecordsCnt` is the number of columns here and of rows there. -/
theorem same_cnt_iff :
    x.getRecordsCnt = t.getRecordsCnt sets ↔
      (sets r).fields.length % 2 ^ 32 = (if blAll then (sets r).rows.length else k + 1) % 2 ^ 32 := by
  have hcols : x.getRecordsCnt = (sets r).fields.length % 2 ^ 32 := by
    unfold CXEMySqlResult.getRecordsCnt
    rw [hx.count]
    omega
  have hrows : t.getRecordsCnt sets
      = (if blAll then (sets r).rows.length else k + 1) % 2 ^ 32 := by
    unfold QueryReader.getRecordsCnt QueryReader.mysqlNumRows
    rw [ht.db, ht.records]
    dsimp only
    rw [ht.stored, ht.delivered]
  rw [hcols, hrows]

theorem both_fieldName {i : Nat} (hi : i < x.m_dwFieldCnt) :
    Both sets (x.getFieldName i) (t.obj.getFieldName i) fun name => name.getD [] := by
  have hlt : i < (sets r).fields.length := by
    rw [hx.count] at hi
    omega
  have hget : (sets r).fields[i]? = some (sets r).fields[i] := List.getElem?_eq_getElem hlt
  refine ⟨some (sets r).fields[i].name, ?_, hx.value_getFieldName hget⟩
  unfold MySqlQuery.getFieldName
  rw [← (alike hx ht).fields, ht.count, if_neg (by omega)]
  exact Prog.value_op ((hx.read_field i).trans hget)

theorem both_fieldValue {i : Nat} (hi : i < x.m_dwFieldCnt) (pnLen : Bool) :
    Both sets (x.getFieldValue i pnLen) (t.obj.getFieldValue i pnLen) orEmpty := by
  have hlt : i < row.length := by
    rw [hx.count, ← hx.width] at hi
    omega
  have hget : row[i]? = some row[i] := List.getElem?_eq_getElem hlt
  refine ⟨(row[i], if pnLen then
    some (CXEMySqlResult.toInt32 ((row[i].map List.length).getD 0)) else none), ?_,
    hx.value_getFieldValue hget pnLen⟩
  have hcell := (hx.read_cell i).trans hget
  have hlen := hx.read_length i
  rw [hget, Option.map_some] at hlen
  unfold MySqlQuery.getFieldValue
  rw [← (alike hx ht).row, ← (alike hx ht).lengths, ht.count, ← hx.width, if_neg (by omega)]
  cases pnLen with
  | false => exact Prog.value_op hcell
  | true => exact (Prog.value_op hlen).trans (Prog.value_op hcell)

/-- `IsBLOBField` asks for any flag here and for one flag there. -/
theorem same_flags_iff :
    (∀ i : Nat, i < x.m_dwFieldCnt → Both sets (x.isBLOBField i) (t.obj.isBLOBField i) id) ↔
      ∀ c ∈ (sets r).fields, c.flags ≠ 0 → c.flags &&& BLOB_FLAG ≠ 0 := by
  have hboth : ∀ (i : Nat) c, (sets r).fields[i]? = some c →
      (Both sets (x.isBLOBField i) (t.obj.isBLOBField i) id ↔
        (c.flags ≠ 0 → c.flags &&& BLOB_FLAG ≠ 0)) := by
    intro i c hget
    have hlt := (List.getElem?_eq_some_iff.mp hget).1
    have hx' : (x.isBLOBField i).value sets.read = some (c.flags != 0) := by
      unfold CXEMySqlResult.isBLOBField
      rw [hx.count, if_neg (by omega)]
      exact Prog.value_op ((hx.read_field i).trans hget)
    have ht' : (t.obj.isBLOBField i).value sets.read = some (c.flags &&& BLOB_FLAG != 0) := by
      unfold MySqlQuery.isBLOBField
      rw [← (alike hx ht).fields, ht.count, if_neg (by omega)]
      exact Prog.value_op ((hx.read_field i).trans hget)
    have hsame : Both sets (x.isBLOBField i) (t.obj.isBLOBField i) id ↔
        (c.flags != 0) = (c.flags &&& BLOB_FLAG != 0) := by
      unfold Both
      rw [hx', ht']
      simp
    rw [hsame, Bool.eq_iff_iff, bne_iff_ne, bne_iff_ne]
    refine ⟨fun h => h.mp, fun h => ⟨h, fun hblob hzero => hblob ?_⟩⟩
    rw [hzero, Nat.zero_and]
  constructor
  · intro h c hc
    obtain ⟨i, hi, rfl⟩ := List.getElem_of_mem hc
    exact (hboth i _ (List.getElem?_eq_getElem hi)).mp (h i (by rw [hx.count]; omega))
  · intro h i hi
    rw [hx.count] at hi
    have hlt : i < (sets r).fields.length := by omega
    exact (hboth i _ (List.getElem?_eq_getElem hlt)).mpr (h _ (List.getElem_mem hlt))

/-- `GetBLOB` stores a length for NULL here and does not there. -/
theorem same_blob_iff (f : Bytes) :
    Both sets (x.getBLOB (some f) true) (t.obj.getBLOB f) orEmpty ↔
      ∀ i, FirstColumn (sets r).fields f i → row[i]? ≠ some none := by
  unfold Both MySqlQuery.getBLOB
  rw [Prog.value_bind, (alike hx ht).getFieldIndex_eq, hx.value_getFieldIndex]
  cases hcol : columnOf (sets r).fields f with
  | none =>
    rw [hx.value_getBLOB_none hcol]
    refine iff_of_true ⟨_, rfl, rfl⟩ fun i hi => ?_
    rw [columnOf_eq_some_iff.mpr hi] at hcol
    cases hcol
  | some i =>
    have hlt : i < row.length := hx.width ▸ columnOf_lt hcol
    have hget : row[i]? = some row[i] := List.getElem?_eq_getElem hlt
    have hcell := (hx.read_cell i).trans hget
    have hlen := hx.read_length i
    rw [hget, Option.map_some] at hlen
    have hfirst : (∀ j, FirstColumn (sets r).fields f j → row[j]? ≠ some none) ↔ row[i] ≠ none := by
      constructor
      · intro h hnull
        exact h i (columnOf_eq_some_iff.mp hcol) (hget.trans (congrArg some hnull))
      · intro h j hj
        rw [columnOf_eq_some_iff.mpr hj] at hcol
        cases hcol
        rw [hget]
        intro hnull
        exact h (Option.some.inj hnull)
    rw [hfirst, hx.value_getBLOB hcol, hx.value_valueAt hget, Option.elim_some, Option.bind_some,
      if_neg (by omega), ← (alike hx ht).row, ← (alike hx ht).lengths]
    cases hc : row[i] with
    | none =>
      rw [hc] at hcell
      refine iff_of_false ?_ (by simp)
      rintro ⟨b, hb, hsame⟩
      have hnull : some (none, none) = some b := (Prog.value_op hcell).symm.trans hb
      cases hnull
      cases hsame
    | some cell =>
      rw [hc] at hcell hlen
      refine iff_of_true ⟨_, (Prog.value_op hcell).trans (Prog.value_op hlen), rfl⟩ (by simp)

end

/-- What the two readers are asked about shows no difference: there are as many columns as rows seen,
the flags are BLOB or nothing, and no cell found by name is NULL. -/
structure NoDifference (r : MYSQL_RES) (row : List (Option Bytes)) (seen : Nat) : Prop where
  counts : r.fields.length % 2 ^ 32 = seen % 2 ^ 32
  flags : ∀ c ∈ r.fields, c.flags ≠ 0 → c.flags &&& BLOB_FLAG ≠ 0
  cells : ∀ f i, FirstColumn r.fields f i → row[i]? ≠ some none

/-- **When the two readers agree.** -/
theorem readers_agree_iff {sets : ResultSets} {s s' : Reader} {t t' : QueryReader} {blAll : Bool}
    {r k l : Nat} (hs : s.readTo sets r (k + 1) = some s')
    (ht : t.readTo sets blAll r (l + 1) = some t') (hsame : s.delivered r + k = t.delivered r + l)
    {row : List (Option Bytes)} (hrow : (sets r).rows[s.delivered r + k]? = some row) :
    SameAnswers sets s'.obj t' ↔ NoDifference (sets r) row
      (if blAll then (sets r).rows.length else t.delivered r + l + 1) := by
  obtain ⟨row', hx⟩ := readTo_positioned hs
  obtain rfl : row = row' := Option.some.inj (hrow.symm.trans hx.stored)
  have hq := readTo_queryPositioned ht
  rw [← hsame] at hq ⊢
  constructor
  · intro h
    exact ⟨(same_cnt_iff hx hq).mp h.recordsCnt, (same_flags_iff hx hq).mp h.isBLOB,
      fun f => (same_blob_iff hx hq f).mp (h.blob f)⟩
  · intro h
    exact {
      recordsCnt := (same_cnt_iff hx hq).mpr h.counts
      str := fun f => both_byName hx hq f _ _
      word := fun f => both_byName hx hq f _ _
      int := fun f => both_byName hx hq f _ _
      dword := fun f => both_byName hx hq f _ _
      blob := fun f => (same_blob_iff hx hq f).mpr (h.cells f)
      fieldName := fun _ hi => both_fieldName hx hq hi
      fieldValue := fun _ hi pnLen => both_fieldValue hx hq hi pnLen
      isBLOB := (same_flags_iff hx hq).mpr h.flags }

/-- Two rows of a column `a` that is NOT NULL. -/
def twoRows : ResultSets := fun _ =>
  ⟨[{ name := [97], flags := 1 }], [[some [49]], [some [50]]], by decide⟩

/-- One column here and two rows there, and a column that is a BLOB here and is none there. -/
theorem readers_differ : ∃ s' t', Reader.readTo twoRows {} 0 1 = some s' ∧
    QueryReader.readTo twoRows {} true 0 1 = some t' ∧
    s'.obj.getRecordsCnt = 1 ∧ t'.getRecordsCnt twoRows = 2 ∧
    (s'.obj.isBLOBField 0).value twoRows.read = some true ∧
    (t'.obj.isBLOBField 0).value twoRows.read = some false ∧ ¬ SameAnswers twoRows s'.obj t' := by
  refine ⟨_, _, rfl, rfl, by decide, by decide, rfl, rfl, fun h => ?_⟩
  exact absurd h.recordsCnt (by decide)

theorem readers_oneCell : ∃ s' t', Reader.readTo oneCell {} 0 1 = some s' ∧
    QueryReader.readTo oneCell {} false 0 1 = some t' ∧
    (SameAnswers oneCell s'.obj t' ↔ NoDifference (oneCell 0) [some [49]] 1) :=
  ⟨_, _, rfl, rfl, readers_agree_iff (r := 0) (k := 0) (l := 0)
    (show Reader.readTo oneCell {} 0 1 = some _ from rfl)
    (show QueryReader.readTo oneCell {} false 0 1 = some _ from rfl) rfl rfl⟩

end XeMySql
