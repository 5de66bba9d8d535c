import XeMySql.Properties.Reading

/-!
# Access by name and by position

After `SetRes`, `FetchRecords` and `FetchRow`, the accessors by name find the first column whose name is
the one they are given, ignoring case, and give what the accessors by position give for it.

* `readTo_positioned` — what the protocol establishes
* `Positioned.value_byName`, `Positioned.value_valueAt` — what the accessors then return
* `named_agree` — the two ways of access
-/

namespace XeMySql

open Interact

/-! ## The protocol -/

/-- The state behind a call that has returned true. -/
def succeeded {σ : Type} (x : σ × Bool) : Option σ := if x.2 then some x.1 else none

/-- Calls of `FetchRow`, all of which return true. -/
def Reader.fetchRows (sets : ResultSets) : Nat → Reader → Option Reader
  | 0, s => some s
  | k + 1, s => (succeeded (s.fetchRow sets)).bind (fetchRows sets k)

/-- `SetRes` with the result set `r`, `FetchRecords`, and calls of `FetchRow`, all of which return
true. -/
def Reader.readTo (sets : ResultSets) (s : Reader) (r k : Nat) : Option Reader :=
  (succeeded (s.setRes (sets r).fields.length (some r)).fetchRecords).bind (fetchRows sets k)

/-- The object has the columns of the result set `r`. -/
structure HasColumns (sets : ResultSets) (x : CXEMySqlResult) (r : Nat) : Prop where
  res : x.m_pRes = some r
  count : x.m_dwFieldCnt = (sets r).fields.length
  fields : x.m_pFields = some r

/-- It has row `k` as well. -/
structure Positioned (sets : ResultSets) (x : CXEMySqlResult) (r k : Nat)
    (row : List (Option Bytes)) : Prop extends HasColumns sets x r where
  stored : (sets r).rows[k]? = some row
  atRow : x.m_pRow = some ⟨r, k⟩
  atLengths : x.m_pLengths = some ⟨r, k⟩

theorem succeeded_eq_some_iff {σ : Type} {x : σ × Bool} {s : σ} :
    succeeded x = some s ↔ x = (s, true) := by
  obtain ⟨s', b⟩ := x
  cases b <;> simp [succeeded]

section

variable {sets : ResultSets} {s s' : Reader} {r k : Nat} {row : List (Option Bytes)}

/-- What `FetchRecords` establishes. -/
theorem fetchRecords_hasColumns
    (h : (s.setRes (sets r).fields.length (some r)).fetchRecords = (s', true)) :
    HasColumns sets s'.obj r ∧ s'.delivered = s.delivered := by
  rcases (s.setRes (sets r).fields.length (some r)).fetchRecords_cases with hc | ⟨r', hr', hc⟩
  · rw [hc] at h
    cases h
  · rw [hc] at h
    cases h
    cases hr'
    exact ⟨⟨rfl, rfl, rfl⟩, rfl⟩

/-- What `FetchRow` establishes: the next row. -/
theorem HasColumns.fetchRow (hs : HasColumns sets s.obj r) (h : s.fetchRow sets = (s', true)) :
    s'.delivered r = s.delivered r + 1 ∧ ∃ row, Positioned sets s'.obj r (s.delivered r) row := by
  rcases s.fetchRow_cases sets with hc | ⟨r', hr', hc | ⟨hlt, hc⟩⟩
  · rw [hc] at h
    cases h
  · rw [hc] at h
    cases h
  · rw [hc] at h
    cases h
    rw [hs.res] at hr'
    cases hr'
    exact ⟨by simp, _, ⟨hs.res, hs.count, hs.fields⟩, List.getElem?_eq_getElem hlt, rfl, rfl⟩

/-- The same for some rows. -/
theorem HasColumns.fetchRows (hs : HasColumns sets s.obj r)
    (h : Reader.fetchRows sets (k + 1) s = some s') :
    ∃ row, Positioned sets s'.obj r (s.delivered r + k) row := by
  induction k generalizing s with
  | zero =>
    obtain ⟨s1, h1, h2⟩ := Option.bind_eq_some_iff.mp h
    cases h2
    exact (hs.fetchRow (succeeded_eq_some_iff.mp h1)).2
  | succ k ih =>
    obtain ⟨s1, h1, h2⟩ := Option.bind_eq_some_iff.mp h
    obtain ⟨hnext, row, hpos⟩ := hs.fetchRow (succeeded_eq_some_iff.mp h1)
    have hrec := ih hpos.toHasColumns h2
    rwa [hnext, show s.delivered r + 1 + k = s.delivered r + (k + 1) by omega] at hrec

/-- **What the protocol establishes.** -/
theorem readTo_positioned (h : s.readTo sets r (k + 1) = some s') :
    ∃ row, Positioned sets s'.obj r (s.delivered r + k) row := by
  obtain ⟨s1, h1, h2⟩ := Option.bind_eq_some_iff.mp h
  obtain ⟨hcols, hsame⟩ := fetchRecords_hasColumns (succeeded_eq_some_iff.mp h1)
  have hrow := hcols.fetchRows h2
  rwa [hsame] at hrow

end

/-! ## Columns -/

/-- The names are the same, ignoring case. -/
def SameName (s t : Bytes) : Prop := s.map toLower = t.map toLower

/-- The first column of a name. -/
def columnOf (fields : List MYSQL_FIELD) (f : Bytes) : Option Nat :=
  fields.findIdx? fun c => stricmp c.name f = 0

/-- `i` is the smallest column with the name `f`. -/
def FirstColumn (fields : List MYSQL_FIELD) (f : Bytes) (i : Nat) : Prop :=
  (∃ c, fields[i]? = some c ∧ SameName c.name f) ∧
    ∀ j c, j < i → fields[j]? = some c → ¬ SameName c.name f

theorem columnOf_eq_some_iff {fields : List MYSQL_FIELD} {f : Bytes} {i : Nat} :
    columnOf fields f = some i ↔ FirstColumn fields f i := by
  unfold columnOf FirstColumn SameName
  simp only [List.findIdx?_eq_some_iff_getElem, decide_eq_true_eq, stricmp_eq_zero_iff,
    List.getElem?_eq_some_iff]
  constructor
  · rintro ⟨hi, hname, hleast⟩
    refine ⟨⟨_, ⟨hi, rfl⟩, hname⟩, ?_⟩
    rintro j _ hj ⟨-, rfl⟩
    exact hleast j hj
  · rintro ⟨⟨_, ⟨hi, rfl⟩, hname⟩, hleast⟩
    exact ⟨hi, hname, fun j hj => hleast j _ hj ⟨_, rfl⟩⟩

theorem columnOf_eq_none_iff {fields : List MYSQL_FIELD} {f : Bytes} :
    columnOf fields f = none ↔ ∀ c ∈ fields, ¬ SameName c.name f := by
  simp [columnOf, SameName, stricmp_eq_zero_iff]

theorem columnOf_lt {fields : List MYSQL_FIELD} {f : Bytes} {i : Nat}
    (h : columnOf fields f = some i) : i < fields.length := by
  obtain ⟨⟨c, hc, -⟩, -⟩ := columnOf_eq_some_iff.mp h
  exact (List.getElem?_eq_some_iff.mp hc).1

/-- The cell that is found by name. -/
def cellOf (fields : List MYSQL_FIELD) (row : List (Option Bytes)) (f : Bytes) : Option Bytes :=
  (columnOf fields f).bind fun i => row[i]?.join

theorem elementAt_natCast {α : Type} (l : List α) (i : Nat) : elementAt l (i : Int) = l[i]? := by
  unfold elementAt
  rw [if_pos (Int.natCast_nonneg i), Int.toNat_natCast]

/-! ## What the accessors return -/

namespace Positioned

variable {sets : ResultSets} {x : CXEMySqlResult} {r k : Nat} {row : List (Option Bytes)}
  (h : Positioned sets x r k row)
include h

theorem width : row.length = (sets r).fields.length :=
  (sets r).width row (List.mem_of_getElem? h.stored)

theorem read_field (i : Nat) : sets.read (.field x.m_pFields i) = (sets r).fields[i]? := by
  rw [h.fields]
  exact elementAt_natCast _ i

theorem read_cell (i : Nat) : sets.read (.cell x.m_pRow i) = row[i]? := by
  rw [h.atRow]
  show ((sets r).rows[k]?.bind fun row => elementAt row i) = _
  rw [h.stored]
  exact elementAt_natCast row i

theorem read_length (i : Nat) :
    sets.read (.length x.m_pLengths i) = row[i]?.map fun c => (c.map List.length).getD 0 := by
  rw [h.atLengths]
  show ((sets r).rows[k]?.bind fun row =>
    elementAt (row.map fun c => (c.map List.length).getD 0) i) = _
  rw [h.stored]
  exact (elementAt_natCast _ i).trans List.getElem?_map

/-- `_GetFieldIndex` finds the first column of the name. -/
theorem value_getFieldIndex (f : Bytes) :
    (x.getFieldIndex (some f)).value sets.read
      = some ((columnOf (sets r).fields f).elim (-1) fun i => (i : Int)) := by
  have hsearch := CXEMySqlResult.value_searchFrom (f := f) h.fields (sets r).fields.length 0
    (Nat.zero_add _).symm
  rw [List.drop_zero] at hsearch
  simp only [Nat.zero_add] at hsearch
  unfold CXEMySqlResult.getFieldIndex
  rw [h.res, h.atRow, h.count, Int.toNat_natCast]
  exact hsearch

/-- **The accessors by name** convert the cell of the first column of the name. -/
theorem value_byName {α : Type} (f : Bytes) (d : α) (convert : Bytes → α) :
    (x.byName (some f) d convert).value sets.read
      = some ((cellOf (sets r).fields row f).elim d convert) := by
  unfold CXEMySqlResult.byName cellOf
  rw [Prog.value_bind, h.value_getFieldIndex]
  cases hcol : columnOf (sets r).fields f with
  | none => rfl
  | some i =>
    have hlt : i < row.length := h.width ▸ columnOf_lt hcol
    have hget : row[i]? = some row[i] := List.getElem?_eq_getElem hlt
    rw [Option.bind_some, Option.elim_some, if_neg (by omega), Option.bind_some, hget]
    refine (Prog.value_op ((h.read_cell i).trans hget)).trans ?_
    cases row[i] <;> rfl

/-- **The accessors by position** give the cell. -/
theorem value_valueAt {i : Nat} {c : Option Bytes} (hi : row[i]? = some c) (pnLen : Bool) :
    (x.valueAt i pnLen).value sets.read
      = some (c.getD [], if pnLen then some (CXEMySqlResult.toInt32 ((c.map List.length).getD 0))
          else none) := by
  have hcell := (h.read_cell i).trans hi
  have hlen := h.read_length i
  rw [hi, Option.map_some] at hlen
  cases pnLen with
  | false => exact Prog.value_op hcell
  | true => exact (Prog.value_op hlen).trans (Prog.value_op hcell)

theorem value_getFieldValue {i : Nat} {c : Option Bytes} (hi : row[i]? = some c) (pnLen : Bool) :
    (x.getFieldValue i pnLen).value sets.read
      = some (c.getD [], if pnLen then some (CXEMySqlResult.toInt32 ((c.map List.length).getD 0))
          else none) := by
  have hlt : i < (sets r).fields.length := h.width ▸ (List.getElem?_eq_some_iff.mp hi).1
  unfold CXEMySqlResult.getFieldValue
  rw [h.count, if_neg (by omega)]
  exact h.value_valueAt hi pnLen

theorem value_getFieldName {i : Nat} {c : MYSQL_FIELD} (hi : (sets r).fields[i]? = some c) :
    (x.getFieldName i).value sets.read = some c.name := by
  have hlt := (List.getElem?_eq_some_iff.mp hi).1
  have hguard : ¬ (x.m_pRes = none ∨ x.m_pRow = none ∨ (i : Int) < 0 ∨ (i : Int) ≥ x.m_dwFieldCnt) := by
    rw [h.res, h.atRow, h.count]
    simp
    omega
  unfold CXEMySqlResult.getFieldName
  rw [if_neg hguard]
  exact Prog.value_op ((h.read_field i).trans hi)

/-- `GetBLOB` gives what `GetFieldValue` gives. -/
theorem value_getBLOB {f : Bytes} {i : Nat} (hcol : columnOf (sets r).fields f = some i)
    (pnLen : Bool) :
    (x.getBLOB (some f) pnLen).value sets.read = (x.valueAt i pnLen).value sets.read := by
  unfold CXEMySqlResult.getBLOB
  rw [Prog.value_bind, h.value_getFieldIndex, hcol, Option.bind_some, Option.elim_some,
    if_neg (by omega)]

theorem value_getBLOB_none {f : Bytes} (hcol : columnOf (sets r).fields f = none) (pnLen : Bool) :
    (x.getBLOB (some f) pnLen).value sets.read = some ([], none) := by
  unfold CXEMySqlResult.getBLOB
  rw [Prog.value_bind, h.value_getFieldIndex, hcol]
  rfl

end Positioned

/-! ## The two ways of access -/

section

variable {δ : Type} [Zero δ] (atof : Bytes → δ) (sets : ResultSets) (x : CXEMySqlResult) (f : Bytes)

/-- By name the accessors give what column `i` gives, where the cell is `c`. -/
structure AgreesAt (i : Nat) (c : Option Bytes) : Prop where
  str : ∃ v, (x.getFieldValue i false).value sets.read = some (v, none) ∧
    (x.getStr (some f)).value sets.read = some v ∧ v = c.getD []
  blob : ∀ pnLen, ∃ v, (x.getFieldValue i pnLen).value sets.read = some v ∧
    (x.getBLOB (some f) pnLen).value sets.read = some v ∧ v.1 = c.getD []
  word : (x.getWORD (some f)).value sets.read = some (c.elim 0 fun t => (atoi t % 2 ^ 16).toNat)
  int : (x.getInt (some f)).value sets.read = some (c.elim 0 atoi)
  dword : (x.getDWORD (some f)).value sets.read = some (c.elim 0 fun t => (atoi t % 2 ^ 32).toNat)
  double : (x.getDouble atof (some f)).value sets.read = some (c.elim 0 atof)

/-- By name the accessors give the empty string and 0. -/
structure GivesDefaults : Prop where
  str : (x.getStr (some f)).value sets.read = some []
  blob : ∀ pnLen, ∃ len, (x.getBLOB (some f) pnLen).value sets.read = some ([], len)
  word : (x.getWORD (some f)).value sets.read = some 0
  int : (x.getInt (some f)).value sets.read = some 0
  dword : (x.getDWORD (some f)).value sets.read = some 0
  double : (x.getDouble atof (some f)).value sets.read = some 0

end

section

variable {δ : Type} [Zero δ] {atof : Bytes → δ} {sets : ResultSets} {x : CXEMySqlResult} {f : Bytes}
  {i : Nat} {c : Option Bytes} {r k : Nat} {row : List (Option Bytes)}

/-- A cell that is NULL gives the defaults. -/
theorem AgreesAt.givesDefaults (h : AgreesAt atof sets x f i none) :
    GivesDefaults atof sets x f where
  str := by
    obtain ⟨v, -, hv, rfl⟩ := h.str
    exact hv
  blob pnLen := by
    obtain ⟨⟨v, len⟩, -, hv, rfl⟩ := h.blob pnLen
    exact ⟨len, hv⟩
  word := h.word
  int := h.int
  dword := h.dword
  double := h.double

theorem Positioned.agreesAt (h : Positioned sets x r k row) (hi : columnOf (sets r).fields f = some i)
    (hc : row[i]? = some c) : AgreesAt atof sets x f i c := by
  have hcell : cellOf (sets r).fields row f = c := by
    unfold cellOf
    rw [hi, Option.bind_some, hc]
    rfl
  have hname : ∀ {α : Type} (d : α) (convert : Bytes → α),
      (x.byName (some f) d convert).value sets.read = some (c.elim d convert) := by
    intro α d convert
    rw [h.value_byName, hcell]
  refine ⟨⟨c.getD [], h.value_getFieldValue hc false, ?_, rfl⟩, fun pnLen => ?_, hname _ _, hname _ _,
    hname _ _, hname _ _⟩
  · refine (hname _ _).trans ?_
    cases c <;> rfl
  · exact ⟨_, h.value_getFieldValue hc pnLen, (h.value_getBLOB hi pnLen).trans (h.value_valueAt hc _),
      rfl⟩

theorem Positioned.givesDefaults (h : Positioned sets x r k row)
    (hnone : columnOf (sets r).fields f = none) : GivesDefaults atof sets x f := by
  have hcell : cellOf (sets r).fields row f = none := by
    unfold cellOf
    rw [hnone, Option.bind_none]
  have hname : ∀ {α : Type} (d : α) (convert : Bytes → α),
      (x.byName (some f) d convert).value sets.read = some d := by
    intro α d convert
    rw [h.value_byName, hcell, Option.elim_none]
  exact ⟨hname _ _, fun pnLen => ⟨none, h.value_getBLOB_none hnone pnLen⟩, hname _ _, hname _ _,
    hname _ _, hname _ _⟩

/-- The index of a name that a column has. -/
theorem Positioned.value_index_name (h : Positioned sets x r k row) (hi : i < (sets r).fields.length) :
    ∃ c j, (sets r).fields[i]? = some c ∧ FirstColumn (sets r).fields c.name j ∧
      (x.getFieldName i >>= fun name => x.getFieldIndex (some name)).value sets.read
        = some (j : Int) := by
  have hget : (sets r).fields[i]? = some (sets r).fields[i] := List.getElem?_eq_getElem hi
  obtain ⟨j, hj⟩ : ∃ j, columnOf (sets r).fields (sets r).fields[i].name = some j := by
    rw [← Option.ne_none_iff_exists']
    intro hnone
    exact columnOf_eq_none_iff.mp hnone _ (List.getElem_mem hi) rfl
  refine ⟨_, j, hget, columnOf_eq_some_iff.mp hj, ?_⟩
  rw [Prog.value_bind, h.value_getFieldName hget, Option.bind_some, h.value_getFieldIndex, hj]
  rfl

end

/-- **Access by name agrees with access by position.** -/
theorem named_agree {δ : Type} [Zero δ] (atof : Bytes → δ) {sets : ResultSets} {s s' : Reader}
    {r k : Nat} (h : s.readTo sets r (k + 1) = some s') (f : Bytes) :
    ∃ row, (sets r).rows[s.delivered r + k]? = some row ∧
      (∀ i c, FirstColumn (sets r).fields f i → row[i]? = some c →
        AgreesAt atof sets s'.obj f i c ∧ (c = none → GivesDefaults atof sets s'.obj f)) ∧
      (∀ i, FirstColumn (sets r).fields f i → ∃ c, row[i]? = some c) ∧
      ((∀ c ∈ (sets r).fields, ¬ SameName c.name f) → GivesDefaults atof sets s'.obj f) ∧
      ∀ i < (sets r).fields.length, ∃ c j, (sets r).fields[i]? = some c ∧
        FirstColumn (sets r).fields c.name j ∧
          (s'.obj.getFieldName i >>= fun name => s'.obj.getFieldIndex (some name)).value sets.read
            = some (j : Int) := by
  obtain ⟨row, hpos⟩ := readTo_positioned h
  refine ⟨row, hpos.stored, fun i c hi hc => ?_, fun i hi => ?_, fun hnone => ?_, fun i hi => ?_⟩
  · have hagree : AgreesAt atof sets s'.obj f i c :=
      hpos.agreesAt (columnOf_eq_some_iff.mpr hi) hc
    refine ⟨hagree, ?_⟩
    rintro rfl
    exact hagree.givesDefaults
  · have hlt := columnOf_lt (columnOf_eq_some_iff.mpr hi)
    exact ⟨_, List.getElem?_eq_getElem (hpos.width ▸ hlt)⟩
  · exact hpos.givesDefaults (columnOf_eq_none_iff.mpr hnone)
  · exact hpos.value_index_name hi

/-- Two columns that differ in case only, and one whose cell is NULL. -/
def caseVariants : ResultSets := fun _ =>
  ⟨[{ name := [97] }, { name := [65] }, { name := [98] }], [[some [49], some [50], none]], by decide⟩

theorem named_variants : ∃ s', Reader.readTo caseVariants {} 0 1 = some s' ∧
    ∃ row, (caseVariants 0).rows[0]? = some row ∧
      (∀ i c, FirstColumn (caseVariants 0).fields [65] i → row[i]? = some c →
        AgreesAt (fun _ => (0 : Int)) caseVariants s'.obj [65] i c ∧
          (c = none → GivesDefaults (fun _ => (0 : Int)) caseVariants s'.obj [65])) ∧
      (∀ i, FirstColumn (caseVariants 0).fields [65] i → ∃ c, row[i]? = some c) ∧
      ((∀ c ∈ (caseVariants 0).fields, ¬ SameName c.name [65]) →
        GivesDefaults (fun _ => (0 : Int)) caseVariants s'.obj [65]) ∧
      ∀ i < (caseVariants 0).fields.length, ∃ c j, (caseVariants 0).fields[i]? = some c ∧
        FirstColumn (caseVariants 0).fields c.name j ∧
          (s'.obj.getFieldName i >>= fun name => s'.obj.getFieldIndex (some name)).value
            caseVariants.read = some (j : Int) :=
  ⟨_, rfl, named_agree (r := 0) (k := 0) (fun _ => (0 : Int))
    (show Reader.readTo caseVariants {} 0 1 = some _ from rfl) [65]⟩

end XeMySql
