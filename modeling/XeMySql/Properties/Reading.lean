import XeMySql.Result

/-!
# Reading a result in any order

Nine accessors read three arrays, and check different ones of the fields these hang on. What an
accessor reads is safe when its array belongs to the current result set and the index is below the
column count.

* `reads_safe_iff` — when everything an accessor reads is safe
* `safe_iff` — the same for a whole sequence of calls
* `reads_null` — two orders in which it is not
-/

namespace XeMySql

open Interact

/-! ## Accessors -/

/-- A call of an accessor. The parameter of type `Bool` says that `pnLen` is not NULL. -/
inductive Accessor where
  | getStr (szField : Option Bytes)
  | getWORD (szField : Option Bytes)
  | getInt (szField : Option Bytes)
  | getDWORD (szField : Option Bytes)
  | getDouble (szField : Option Bytes)
  | getBLOB (szField : Option Bytes) (pnLen : Bool)
  | getFieldName (nIndex : Int)
  | getFieldValue (nIndex : Int) (pnLen : Bool)
  | isBLOBField (nIndex : Int)
deriving DecidableEq

namespace Accessor

variable {δ : Type}

/-- What it returns. -/
abbrev Answer (δ : Type) : Accessor → Type
  | getStr _ => Bytes
  | getWORD _ => Nat
  | getInt _ => Int
  | getDWORD _ => Nat
  | getDouble _ => δ
  | getBLOB _ _ => Bytes × Option Int
  | getFieldName _ => Bytes
  | getFieldValue _ _ => Bytes × Option Int
  | isBLOBField _ => Bool

/-- Its code. -/
def code [Zero δ] (atof : Bytes → δ) (x : CXEMySqlResult) : (a : Accessor) → Reading (a.Answer δ)
  | getStr f => x.getStr f
  | getWORD f => x.getWORD f
  | getInt f => x.getInt f
  | getDWORD f => x.getDWORD f
  | getDouble f => x.getDouble atof f
  | getBLOB f n => x.getBLOB f n
  | getFieldName i => x.getFieldName i
  | getFieldValue i n => x.getFieldValue i n
  | isBLOBField i => x.isBLOBField i

end Accessor

/-- Reading is safe: the array is one of the current result set, and the index is that of a
column. -/
def CXEMySqlResult.Safe (x : CXEMySqlResult) : Read → Prop
  | .field p i => p.isSome ∧ p = x.m_pRes ∧ 0 ≤ i ∧ i < x.m_dwFieldCnt
  | .cell p i => p.isSome ∧ p.map RowPtr.res = x.m_pRes ∧ 0 ≤ i ∧ i < x.m_dwFieldCnt
  | .length p i => p.isSome ∧ p.map RowPtr.res = x.m_pRes ∧ 0 ≤ i ∧ i < x.m_dwFieldCnt

/-! ## What the object may be asked -/

namespace CXEMySqlResult

/-- `FetchRecords` has fetched the columns of the current result set. -/
def FieldsFetched (x : CXEMySqlResult) : Prop := x.m_pRes.isSome ∧ x.m_pFields = x.m_pRes

/-- `FetchRow` has fetched a row of the current result set. -/
def RowFetched (x : CXEMySqlResult) : Prop :=
  x.m_pRow.isSome ∧ x.m_pRow.map RowPtr.res = x.m_pRes

/-- A column of the current result set has the name `f`. -/
def HasColumn (sets : ResultSets) (x : CXEMySqlResult) (f : Bytes) : Prop :=
  ∃ r, x.m_pRes = some r ∧ ∃ field ∈ (sets r).fields, stricmp field.name f = 0

/-- There is nothing for an accessor by name to search. -/
def NoSearch (x : CXEMySqlResult) (szField : Option Bytes) : Prop :=
  x.m_pRes = none ∨ x.m_pRow = none ∨ szField = none ∨ x.m_dwFieldCnt ≤ 0

/-- An accessor by name is in order: it searches nothing, or the columns are fetched, and so is a
row if there is such a column. -/
def NameInOrder (sets : ResultSets) (x : CXEMySqlResult) (szField : Option Bytes) : Prop :=
  x.NoSearch szField ∨
    x.FieldsFetched ∧ ∀ f, szField = some f → x.HasColumn sets f → x.RowFetched

end CXEMySqlResult

/-- The call is in order, as the object is. -/
def Accessor.InOrder (sets : ResultSets) (x : CXEMySqlResult) : Accessor → Prop
  | getStr f => x.NameInOrder sets f
  | getWORD f => x.NameInOrder sets f
  | getInt f => x.NameInOrder sets f
  | getDWORD f => x.NameInOrder sets f
  | getDouble f => x.NameInOrder sets f
  | getBLOB f _ => x.NameInOrder sets f
  | getFieldName i => x.m_pRes = none ∨ x.m_pRow = none ∨ i < 0 ∨ i ≥ x.m_dwFieldCnt ∨ x.FieldsFetched
  | getFieldValue i _ => i < 0 ∨ i ≥ x.m_dwFieldCnt ∨ x.RowFetched
  | isBLOBField i => i < 0 ∨ i ≥ x.m_dwFieldCnt ∨ x.FieldsFetched

/-! ## The state of an object -/

/-- What holds of an object however it is used: the column count is that of its result set, and
with a row come its lengths. -/
structure ResultOk (sets : ResultSets) (x : CXEMySqlResult) : Prop where
  width : ∀ r, x.m_pRes = some r → ((sets r).fields.length : Int) = x.m_dwFieldCnt
  row : ∀ p, x.m_pRow = some p → x.m_pLengths = some p
  lengths : ∀ p, x.m_pLengths = some p → p.row < (sets p.res).rows.length

/-! ## Searching -/

namespace CXEMySqlResult

variable {sets : ResultSets} {x : CXEMySqlResult} {f : Bytes} {r : Nat}

/-- The search reads columns only, from where it stands on. -/
theorem reads_searchFrom (left : Nat) (i : Int) :
    ∀ e ∈ (x.searchFrom f left i).reads sets.read,
      ∃ j, e = .field x.m_pFields j ∧ i ≤ j ∧ j < i + left := by
  induction left generalizing i with
  | zero => simp [searchFrom]
  | succ left ih =>
    intro e he
    unfold searchFrom look at he
    rw [Prog.ask_bind] at he
    cases hread : sets.read (.field x.m_pFields i) with
    | none =>
      rw [Prog.reads, hread] at he
      rw [List.mem_singleton.mp he]
      exact ⟨i, rfl, Int.le_refl i, by omega⟩
    | some field =>
      rw [Prog.reads_op hread, List.mem_cons] at he
      rcases he with rfl | he
      · exact ⟨i, rfl, Int.le_refl i, by omega⟩
      · split at he
        · cases he
        · obtain ⟨j, hj, h1, h2⟩ := ih (i + 1) e he
          exact ⟨j, hj, by omega, by omega⟩

/-- With the columns at hand, it finds the first one of the name. -/
theorem value_searchFrom (hp : x.m_pFields = some r) (left i : Nat)
    (hlen : (sets r).fields.length = i + left) :
    (x.searchFrom f left i).value sets.read = some
      ((((sets r).fields.drop i).findIdx? fun c => stricmp c.name f = 0).elim (-1)
        fun k => ((i + k : Nat) : Int)) := by
  induction left generalizing i with
  | zero =>
    rw [List.drop_of_length_le (by omega)]
    rfl
  | succ left ih =>
    have hlt : i < (sets r).fields.length := by omega
    have hread : sets.read (.field x.m_pFields i) = some (sets r).fields[i] := by
      rw [hp]
      show elementAt (sets r).fields i = _
      unfold elementAt
      rw [if_pos (by omega), Int.toNat_natCast, List.getElem?_eq_getElem hlt]
    unfold searchFrom look
    rw [Prog.ask_bind, Prog.value_op hread, List.drop_eq_getElem_cons hlt, List.findIdx?_cons]
    by_cases hf : stricmp (sets r).fields[i].name f = 0
    · simp [hf]
    · have hrec := ih (i + 1) (by omega)
      rw [if_neg hf]
      simp only [hf, decide_false, Bool.false_eq_true, if_false, Option.elim_map]
      rw [show ((i : Int) + 1) = ((i + 1 : Nat) : Int) by omega, hrec]
      congr 2
      funext k
      simp only [Function.comp]
      omega

theorem getFieldIndex_noSearch {szField : Option Bytes} (h : x.NoSearch szField) :
    x.getFieldIndex szField = pure (-1) := by
  unfold getFieldIndex
  split
  · next r p f hr hp =>
    rcases h with h | h | h | h
    · rw [hr] at h
      cases h
    · rw [hp] at h
      cases h
    · cases h
    · rw [Int.toNat_of_nonpos h]
      rfl
  · rfl

/-- There is something to search. -/
theorem search_of_not_noSearch {szField : Option Bytes} (h : ¬ x.NoSearch szField) :
    ∃ r p f n, x.m_pRes = some r ∧ x.m_pRow = some p ∧ szField = some f ∧
      x.m_dwFieldCnt = ((n + 1 : Nat) : Int) ∧
      x.getFieldIndex szField = x.searchFrom f (n + 1) 0 := by
  unfold NoSearch at h
  simp only [not_or, Int.not_le] at h
  obtain ⟨hr, hp, hf, hn⟩ := h
  obtain ⟨r, hr⟩ := Option.ne_none_iff_exists'.mp hr
  obtain ⟨p, hp⟩ := Option.ne_none_iff_exists'.mp hp
  obtain ⟨f, rfl⟩ := Option.ne_none_iff_exists'.mp hf
  have hcount : x.m_dwFieldCnt.toNat = x.m_dwFieldCnt.toNat - 1 + 1 := by omega
  refine ⟨r, p, f, x.m_dwFieldCnt.toNat - 1, hr, hp, rfl, by omega, ?_⟩
  unfold getFieldIndex
  rw [hr, hp]
  dsimp only
  rw [hcount]
  rfl

/-! ## Cells -/

variable {i : Int}

theorem safe_cell_iff (h0 : 0 ≤ i) (hi : i < x.m_dwFieldCnt) :
    x.Safe (.cell x.m_pRow i) ↔ x.RowFetched := by
  simp [Safe, RowFetched, h0, hi]

/-- A length that is read safely is there. -/
theorem read_length_isSome (h : ResultOk sets x) (hs : x.Safe (.length x.m_pLengths i)) :
    (sets.read (.length x.m_pLengths i)).isSome := by
  obtain ⟨hsome, hres, h0, hi⟩ := hs
  obtain ⟨p, hp⟩ := Option.isSome_iff_exists.mp hsome
  rw [hp] at hres ⊢
  have hlt := h.lengths p hp
  have hwidth := h.width p.res hres.symm
  have hrow : sets.row p = some (sets p.res).rows[p.row] := List.getElem?_eq_getElem hlt
  show (((sets.row p).bind fun row => elementAt (row.map fun c => (c.map List.length).getD 0) i)).isSome
  rw [hrow]
  refine elementAt_isSome h0 ?_
  rw [List.length_map, (sets p.res).width _ (List.getElem_mem hlt), hwidth]
  exact hi

/-- The end of an accessor is safe when a row is fetched. -/
theorem valueAt_safe_iff (h : ResultOk sets x) (h0 : 0 ≤ i) (hi : i < x.m_dwFieldCnt)
    (pnLen : Bool) :
    (∀ e ∈ (x.valueAt i pnLen).reads sets.read, x.Safe e) ↔ x.RowFetched := by
  have hcell := safe_cell_iff h0 hi
  cases pnLen with
  | false =>
    have hreads : (x.valueAt i false).reads sets.read = [.cell x.m_pRow i] := Prog.reads_last ..
    rw [hreads, List.forall_mem_singleton, hcell]
  | true =>
    constructor
    · intro hs
      -- the length is there, so the cell is read as well
      have hlength := read_length_isSome h (hs _ (Prog.mem_reads_op ..))
      obtain ⟨n, hn⟩ := Option.isSome_iff_exists.mp hlength
      have hreads : (x.valueAt i true).reads sets.read
          = [.length x.m_pLengths i, .cell x.m_pRow i] :=
        (Prog.reads_op hn).trans (congrArg _ (Prog.reads_last ..))
      rw [hreads] at hs
      exact hcell.mp (hs _ (by simp))
    · intro hrow e he
      obtain ⟨p, hp⟩ := Option.isSome_iff_exists.mp hrow.1
      have hlen : x.m_pLengths = x.m_pRow := by rw [h.row p hp, hp]
      have hsafe : x.Safe (.length x.m_pLengths i) := by
        rw [hlen]
        exact hcell.mpr hrow
      obtain ⟨n, hn⟩ := Option.isSome_iff_exists.mp (read_length_isSome h hsafe)
      have hreads : (x.valueAt i true).reads sets.read
          = [.length x.m_pLengths i, .cell x.m_pRow i] :=
        (Prog.reads_op hn).trans (congrArg _ (Prog.reads_last ..))
      rw [hreads] at he
      simp only [List.mem_cons, List.not_mem_nil, or_false] at he
      rcases he with rfl | rfl
      · exact hsafe
      · exact hcell.mpr hrow

/-- An accessor by name, whatever it does with the column it has found. -/
theorem name_safe_iff {α : Type} (h : ResultOk sets x) (szField : Option Bytes) {default : α}
    {tail : Int → Reading α} (htail : ∀ i, 0 ≤ i → i < x.m_dwFieldCnt →
      ((∀ e ∈ (tail i).reads sets.read, x.Safe e) ↔ x.RowFetched)) :
    (∀ e ∈ (x.getFieldIndex szField >>= fun index =>
        if index < 0 then pure default else tail index).reads sets.read, x.Safe e)
      ↔ x.NameInOrder sets szField := by
  by_cases hno : x.NoSearch szField
  · rw [getFieldIndex_noSearch hno]
    simp [NameInOrder, hno]
  obtain ⟨r, p, f, n, hr, hp, rfl, hcount, hindex⟩ := search_of_not_noSearch hno
  rw [hindex, Prog.reads_bind]
  have hlen : (sets r).fields.length = 0 + (n + 1) := by
    have hwidth := h.width r hr
    omega
  constructor
  · intro hs
    have hfields : x.FieldsFetched := by
      obtain ⟨hsome, hres, -⟩ := hs (.field x.m_pFields 0)
        (List.mem_append_left _ (Prog.mem_reads_op ..))
      exact ⟨hres ▸ hsome, hres⟩
    refine Or.inr ⟨hfields, fun f' hf' hcol => ?_⟩
    cases hf'
    obtain ⟨r', hr', field, hmem, hfield⟩ := hcol
    rw [hr] at hr'
    cases hr'
    have hvalue := value_searchFrom (f := f) (hfields.2.trans hr) (n + 1) 0 hlen
    obtain ⟨k, hk⟩ : ∃ k, (sets r).fields.findIdx? (fun c => stricmp c.name f = 0) = some k := by
      rw [← Option.isSome_iff_exists, List.findIdx?_isSome, List.any_eq_true]
      exact ⟨field, hmem, by simpa using hfield⟩
    have hlt := (List.findIdx?_eq_some_iff_findIdx_eq.mp hk).1
    rw [List.drop_zero, hk, Option.elim_some, Nat.zero_add] at hvalue
    refine (htail k (by omega) (by omega)).mp fun e he => hs e (List.mem_append_right _ ?_)
    rw [show (x.searchFrom f (n + 1) 0).value sets.read = some (k : Int) from hvalue,
      Option.elim_some, if_neg (by omega)]
    exact he
  · rintro (hno' | ⟨hfields, hrow⟩)
    · exact absurd hno' hno
    intro e he
    rcases List.mem_append.mp he with he | he
    · obtain ⟨j, rfl, h1, h2⟩ := reads_searchFrom (n + 1) 0 e he
      exact ⟨hfields.2 ▸ hfields.1, hfields.2, h1, by omega⟩
    · have hvalue := value_searchFrom (f := f) (hfields.2.trans hr) (n + 1) 0 hlen
      rw [show (x.searchFrom f (n + 1) 0).value sets.read = _ from hvalue, Option.elim_some] at he
      cases hk : ((sets r).fields.drop 0).findIdx? fun c => stricmp c.name f = 0 with
      | none =>
        rw [hk] at he
        simp at he
      | some k =>
        rw [hk, Option.elim_some, if_neg (by omega)] at he
        have hlt := (List.findIdx?_eq_some_iff_findIdx_eq.mp hk).1
        rw [List.drop_zero] at hlt
        obtain ⟨field, hmem, hfield⟩ : ∃ field ∈ (sets r).fields, stricmp field.name f = 0 := by
          have hany : (((sets r).fields.drop 0).findIdx? fun c => stricmp c.name f = 0).isSome := by
            rw [hk]
            rfl
          rw [List.findIdx?_isSome, List.drop_zero, List.any_eq_true] at hany
          simpa using hany
        exact (htail _ (by omega) (by omega)).mpr (hrow f rfl ⟨r, hr, field, hmem, hfield⟩) e he

theorem byName_safe_iff {α : Type} (h : ResultOk sets x) (szField : Option Bytes) (default : α)
    (convert : Bytes → α) :
    (∀ e ∈ (x.byName szField default convert).reads sets.read, x.Safe e)
      ↔ x.NameInOrder sets szField := by
  refine name_safe_iff h szField fun i h0 hi => ?_
  have hreads : (look (.cell x.m_pRow i) >>= fun cell =>
      pure (cell.elim default convert)).reads sets.read = [.cell x.m_pRow i] := Prog.reads_last ..
  rw [hreads, List.forall_mem_singleton]
  exact safe_cell_iff h0 hi

theorem safe_field_iff (h0 : 0 ≤ i) (hi : i < x.m_dwFieldCnt) :
    x.Safe (.field x.m_pFields i) ↔ x.FieldsFetched := by
  unfold Safe FieldsFetched
  constructor
  · rintro ⟨hsome, hres, -⟩
    exact ⟨hres ▸ hsome, hres⟩
  · rintro ⟨hsome, hres⟩
    exact ⟨hres ▸ hsome, hres, h0, hi⟩

/-- An accessor that looks at the description of a column. -/
theorem look_safe_iff {α : Type} (h0 : 0 ≤ i) (hi : i < x.m_dwFieldCnt) (g : MYSQL_FIELD → α) :
    (∀ e ∈ (look (.field x.m_pFields i) >>= fun field => pure (g field)).reads sets.read, x.Safe e)
      ↔ x.FieldsFetched := by
  have hreads : (look (.field x.m_pFields i) >>= fun field => pure (g field)).reads sets.read
      = [.field x.m_pFields i] := Prog.reads_last ..
  rw [hreads, List.forall_mem_singleton]
  exact safe_field_iff h0 hi

/-- An accessor that checks its arguments first. -/
theorem checked_safe_iff {α : Type} {g P : Prop} [Decidable g] {default : α} {tail : Reading α}
    (htail : ¬ g → ((∀ e ∈ tail.reads sets.read, x.Safe e) ↔ P)) :
    (∀ e ∈ (if g then pure default else tail : Reading α).reads sets.read, x.Safe e) ↔ g ∨ P := by
  by_cases hg : g
  · rw [if_pos hg]
    exact iff_of_true nofun (Or.inl hg)
  · rw [if_neg hg, htail hg]
    exact (or_iff_right hg).symm

end CXEMySqlResult

open CXEMySqlResult

/-- **When everything an accessor reads is safe**: when the call is in order. -/
theorem reads_safe_iff {δ : Type} [Zero δ] (atof : Bytes → δ) {sets : ResultSets}
    {x : CXEMySqlResult} (h : ResultOk sets x) (a : Accessor) :
    (∀ e ∈ (a.code atof x).reads sets.read, x.Safe e) ↔ a.InOrder sets x := by
  cases a with
  | getStr f => exact byName_safe_iff h f _ _
  | getWORD f => exact byName_safe_iff h f _ _
  | getInt f => exact byName_safe_iff h f _ _
  | getDWORD f => exact byName_safe_iff h f _ _
  | getDouble f => exact byName_safe_iff h f _ _
  | getBLOB f n => exact name_safe_iff h f fun i h0 hi => valueAt_safe_iff h h0 hi n
  | getFieldName i =>
    refine (checked_safe_iff fun hg => look_safe_iff (by omega) (by omega) _).trans ?_
    simp only [Accessor.InOrder, or_assoc]
  | getFieldValue i n =>
    refine (checked_safe_iff fun hg => valueAt_safe_iff h (by omega) (by omega) n).trans ?_
    simp only [Accessor.InOrder, or_assoc]
  | isBLOBField i =>
    refine (checked_safe_iff fun hg => look_safe_iff (by omega) (by omega) _).trans ?_
    simp only [Accessor.InOrder, or_assoc]

/-! ## Sequences of calls -/

/-- A call on a result object. -/
inductive ResultCall where
  | setRes (nCount : Int) (pRes : Option Nat)
  | fetchRecords
  | fetchRow
  | access (a : Accessor)
deriving DecidableEq

/-- `SetRes` is given a result set with the number of its columns, or NULL. -/
def ResultCall.Valid (sets : ResultSets) : ResultCall → Prop
  | setRes n (some r) => ((sets r).fields.length : Int) = n
  | _ => True

/-- What a call does to the reader; accessors change nothing. -/
def Reader.call (sets : ResultSets) (s : Reader) : ResultCall → Reader
  | .setRes n r => s.setRes n r
  | .fetchRecords => s.fetchRecords.1
  | .fetchRow => (s.fetchRow sets).1
  | .access _ => s

/-- What a sequence of calls does. -/
def Reader.calls (sets : ResultSets) (s : Reader) (cs : List ResultCall) : Reader :=
  cs.foldl (Reader.call sets) s

/-- **Step lemma.** Every valid call keeps the object consistent. -/
theorem ResultOk.call {sets : ResultSets} {s : Reader} (h : ResultOk sets s.obj) {c : ResultCall}
    (hc : c.Valid sets) : ResultOk sets (s.call sets c).obj := by
  cases c with
  | setRes n r =>
    refine ⟨fun r' hr => ?_, h.row, h.lengths⟩
    cases hr
    exact hc
  | fetchRecords =>
    show ResultOk sets s.fetchRecords.1.obj
    unfold Reader.fetchRecords
    split
    · exact h
    · split
      · exact h
      · exact ⟨h.width, h.row, h.lengths⟩
  | fetchRow =>
    show ResultOk sets (s.fetchRow sets).1.obj
    rcases s.fetchRow_cases sets with hs | ⟨r, -, hs | ⟨hlt, hs⟩⟩
    · rw [hs]
      exact h
    · rw [hs]
      exact ⟨h.width, nofun, h.lengths⟩
    · rw [hs]
      refine ⟨h.width, fun p hp => hp, fun p hp => ?_⟩
      cases hp
      exact hlt
  | access a => exact h

/-- **Run lemma.** -/
theorem ResultOk.calls {sets : ResultSets} {s : Reader} (h : ResultOk sets s.obj)
    {cs : List ResultCall} (hc : ∀ c ∈ cs, c.Valid sets) :
    ResultOk sets (s.calls sets cs).obj := by
  induction cs generalizing s with
  | nil => exact h
  | cons c cs ih =>
    rw [List.forall_mem_cons] at hc
    exact ih (h.call hc.1) hc.2

theorem resultOk_new (sets : ResultSets) : ResultOk sets {} := ⟨nofun, nofun, nofun⟩

/-- In a sequence of calls on a new object, everything the accessors read is safe. -/
def SafeCalls {δ : Type} [Zero δ] (atof : Bytes → δ) (sets : ResultSets) (delivered : Nat → Nat)
    (cs : List ResultCall) : Prop :=
  ∀ before a after, cs = before ++ .access a :: after →
    ∀ e ∈ (a.code atof (Reader.calls sets ⟨{}, delivered⟩ before).obj).reads sets.read,
      (Reader.calls sets ⟨{}, delivered⟩ before).obj.Safe e

/-- **When a sequence of calls reads safely**: when every accessor is called in order. -/
theorem safe_iff {δ : Type} [Zero δ] (atof : Bytes → δ) (sets : ResultSets) (delivered : Nat → Nat)
    {cs : List ResultCall} (hc : ∀ c ∈ cs, c.Valid sets) :
    SafeCalls atof sets delivered cs ↔ ∀ before a after, cs = before ++ .access a :: after →
      a.InOrder sets (Reader.calls sets ⟨{}, delivered⟩ before).obj := by
  have hok : ∀ before a after, cs = before ++ .access a :: after →
      ResultOk sets (Reader.calls sets ⟨{}, delivered⟩ before).obj := by
    rintro before a after rfl
    exact (resultOk_new sets).calls fun c hmem => hc c (List.mem_append_left _ hmem)
  constructor
  · intro hs before a after he
    exact (reads_safe_iff atof (hok before a after he) a).mp (hs before a after he)
  · intro hin before a after he
    exact (reads_safe_iff atof (hok before a after he) a).mpr (hin before a after he)

/-- Result sets of one cell, `1`, in a column `a`. -/
def oneCell : ResultSets := fun _ => ⟨[{ name := [97] }], [[some [49]]], by decide⟩

/-- All of the protocol: the columns, a row, a cell, and then a column that does not exist. -/
def inOrder : List ResultCall :=
  [.setRes 1 (some 0), .fetchRecords, .fetchRow, .access (.getStr (some [97])),
    .access (.getFieldValue 1 true)]

/-- What is said of it. -/
theorem safe_inOrder : inOrder.getLast? = some (.access (.getFieldValue 1 true)) ∧
    (SafeCalls (fun _ => (0 : Int)) oneCell (fun _ => 0) inOrder ↔
      ∀ before a after, inOrder = before ++ .access a :: after →
        a.InOrder oneCell (Reader.calls oneCell ⟨{}, fun _ => 0⟩ before).obj) :=
  ⟨rfl, safe_iff (fun _ => (0 : Int)) oneCell (fun _ => 0)
    (by simp [inOrder, ResultCall.Valid, oneCell])⟩

/-- Without `FetchRecords`, `GetStr` searches an array of columns that is NULL; and when `FetchRow`
has come to the end, `GetFieldValue` reads a row that is. -/
theorem reads_null :
    ¬ SafeCalls (fun _ => (0 : Int)) oneCell (fun _ => 0)
        [.setRes 1 (some 0), .fetchRow, .access (.getStr (some [97]))] ∧
      ¬ SafeCalls (fun _ => (0 : Int)) oneCell (fun _ => 0)
        [.setRes 1 (some 0), .fetchRecords, .fetchRow, .fetchRow,
          .access (.getFieldValue 0 false)] := by
  constructor
  · intro h
    have hs := h [.setRes 1 (some 0), .fetchRow] (.getStr (some [97])) [] rfl (.field none 0)
      (by decide)
    exact absurd hs.1 (by decide)
  · intro h
    have hs := h [.setRes 1 (some 0), .fetchRecords, .fetchRow, .fetchRow] (.getFieldValue 0 false)
      [] rfl (.cell none 0) (by decide)
    exact absurd hs.1 (by decide)

end XeMySql
