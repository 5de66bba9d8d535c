import XeMySql.Record
import XeMySql.Properties.Reading

/-!
# A result object that is used again

Calls of `Query` with one result object, and what is fetched in between. `SetRes` replaces two fields of
the object, and is called for statements with columns only: the columns, the row and the lengths that
have been fetched of an earlier result set stay in it.

* `queryData_stores` — what a call of `Query` stores, however it is answered
* `Current.shows` — an object that has nothing old shows nothing old
* `Current.step`, `careful_of_shows` — which calls leave nothing old
* `reuse_iff` — in which runs nothing old is ever shown
-/

namespace XeMySql

open Interact

/-! ## What `Query` stores -/

/-- An answer of `mysql_store_result`. -/
def storeOf : Answer Op Op.Reply → Option (Option Nat)
  | ⟨.lib (.storeResult _), r⟩ => some r
  | _ => none

/-- The arguments of a call of `SetRes` on object `x`. -/
def setResOf (x : Nat) : Answer Op Op.Reply → Option (Int × Option Nat)
  | ⟨.res (.setRes y n r), _⟩ => if y = x then some (n, r) else none
  | _ => none

theorem setResOf_self (x : Nat) (n : Int) (r : Option Nat) (u : Unit) :
    setResOf x ⟨.res (.setRes x n r), u⟩ = some (n, r) := if_pos rfl

/-- The result set that a call has produced. -/
def produced (l : Trace) : Option Nat := (l.filterMap storeOf).head?.join

/-- What the calls of `SetRes` in a trace make of object `x`. -/
def afterSetRes (x : Nat) (l : Trace) (y : CXEMySqlResult) : CXEMySqlResult :=
  (l.filterMap (setResOf x)).foldr (fun c y => y.setRes c.1 c.2) y

/-- The call has not asked for a result set; or it has, for a statement with columns, and has put the
answer into the object `x`. -/
def Stores (x : Nat) (l : Trace) : Prop :=
  (l.filterMap storeOf = [] ∧ l.filterMap (setResOf x) = []) ∨
    ∃ h h' r, ∃ n : Nat, 0 < n ∧ ⟨.lib (.fieldCount h), n⟩ ∈ l ∧ ⟨.lib (.storeResult h'), r⟩ ∈ l ∧
      l.filterMap storeOf = [r] ∧ l.filterMap (setResOf x) = [((n : Int), r)]

/-- Code with any answers. -/
abbrev Freely : Discipline Op Op.Reply Trace := .recording (fun _ _ => True) fun _ _ _ => True

theorem storeOf_session {e : Op} (he : OnSession e) (r : e.Reply) : storeOf ⟨e, r⟩ = none := by
  cases e with
  | lib e =>
    cases e with
    | storeResult h => exact he.elim
    | _ => rfl
  | _ => rfl

theorem setResOf_session {e : Op} (he : OnSession e) (x : Nat) (r : e.Reply) :
    setResOf x ⟨e, r⟩ = none := by
  cases e with
  | res e => exact he.elim
  | _ => rfl

/-- Code that stores nothing. -/
theorem session_stores {α : Type} {p : Code α} (hp : p.Only OnSession) {x : Nat} {l : Trace}
    (h1 : l.filterMap storeOf = []) (h2 : l.filterMap (setResOf x) = []) :
    p.Follows Freely l fun _ l' => Stores x l' := by
  refine (hp.follows_recording fun _ _ _ => trivial).mono fun _ l' hl => Or.inl ⟨?_, ?_⟩
  · rw [List.filterMap_eq_nil_iff] at h1 ⊢
    intro a ha
    exact (hl a ha).elim (h1 a) fun he => storeOf_session he a.2
  · rw [List.filterMap_eq_nil_iff] at h2 ⊢
    intro a ha
    exact (hl a ha).elim (h2 a) fun he => setResOf_session he x a.2

/-- What is done once the command has been accepted. -/
theorem storeData_stores (h x : Nat) {l : Trace} (h1 : l.filterMap storeOf = [])
    (h2 : l.filterMap (setResOf x) = []) :
    (CXEMySql.storeData h (some x)).Follows Freely l fun _ l' => Stores x l' := by
  refine ⟨trivial, fun n _ => ?_⟩
  by_cases hn : 0 < n
  · simp only [Prog.bind_ret, hn, if_true]
    refine ⟨trivial, fun r _ => ⟨trivial, fun _ _ => Or.inr ⟨h, h, r, n, hn, ?_, ?_, ?_, ?_⟩⟩⟩
    · simp
    · simp
    · show r :: l.filterMap storeOf = [r]
      rw [h1]
    · rw [Discipline.recording_next, List.filterMap_cons_some (setResOf_self x n r _)]
      show _ :: l.filterMap (setResOf x) = _
      rw [h2]
  · simp only [Prog.bind_ret, hn, if_false]
    exact Or.inl ⟨h1, h2⟩

theorem Stores.unLock {x c : Nat} {l : Trace} (h : Stores x l) (r : Unit) :
    Stores x (⟨.con (.unLock c), r⟩ :: l) := by
  rcases h with h | ⟨m, m', s, n, hn, h1, h2, h3⟩
  · exact Or.inl h
  · exact Or.inr ⟨m, m', s, n, hn, List.mem_cons_of_mem _ h1, List.mem_cons_of_mem _ h2, h3⟩

/-- **What a call of `Query` stores**, however it is answered. -/
theorem queryData_stores (x : Nat) (cmd : Bytes) (args : List Printf.Arg) :
    (CXEMySql.queryData cmd (some x) args).Follows Freely [] fun _ l => Stores x l := by
  rw [CXEMySql.queryData_eq]
  refine CXEMySql.follows_locked (P := fun _ _ l => Stores x l) trivial (Or.inl ⟨rfl, rfl⟩)
    (fun _ => trivial) (fun c m => ?_) fun c a l h => ⟨trivial, fun r => h.unLock r⟩
  cases m with
  | none => exact Or.inl ⟨rfl, rfl⟩
  | some h =>
    dsimp only
    rw [CXEMySql.queryDataOn_eq]
    refine ⟨trivial, fun q _ => ⟨trivial, fun ok _ => ?_⟩⟩
    cases ok with
    | false => exact session_stores (queryFailed_session c h _) rfl rfl
    | true => exact ⟨trivial, fun _ _ => storeData_stores h x rfl rfl⟩

/-! ## Runs -/

/-- The object with its reader, the result set that the last call of `Query` has produced, and the number
of result sets that libmysql has handed out. -/
structure Uses where
  reader : Reader := {}
  last : Option Nat := none
  results : Nat := 0

/-- What is done with the object; a call of `Query` with the answers it is given. -/
inductive Use where
  | query (l : Trace)
  | fetchRecords
  | fetchRow

/-- What libmysql keeps to: result sets are new, `mysql_field_count` is the number of their columns, and
fits an `int`. -/
structure LibAnswers (sets : ResultSets) (results : Nat) (l : Trace) : Prop where
  fresh : ∀ h r, ⟨.lib (.storeResult h), (some r : Option Nat)⟩ ∈ l → results ≤ r
  columns : ∀ h h' r, ∀ n : Nat, ⟨.lib (.fieldCount h), n⟩ ∈ l →
    ⟨.lib (.storeResult h'), (some r : Option Nat)⟩ ∈ l → (sets r).fields.length = n
  fits : ∀ h, ∀ n : Nat, ⟨.lib (.fieldCount h), n⟩ ∈ l → n < 2 ^ 31

namespace Uses

/-- One use of the object `x`. -/
inductive Step (sets : ResultSets) (x : Nat) : Uses → Use → Uses → Prop
  | query {u : Uses} {cmd : Bytes} {args : List Printf.Arg} {b : Bool} {l : Trace}
    (hl : (CXEMySql.queryData cmd (some x) args).Ends [] b l) (hsound : LibAnswers sets u.results l) :
    Step sets x u (.query l) {
      reader := { u.reader with obj := afterSetRes x l u.reader.obj }
      last := produced l
      results := (produced l).elim u.results (· + 1) }
  | fetchRecords (u : Uses) :
    Step sets x u .fetchRecords { u with reader := u.reader.fetchRecords.1 }
  | fetchRow (u : Uses) :
    Step sets x u .fetchRow { u with reader := (u.reader.fetchRow sets).1 }

/-- The uses of a new object, the newest first, each with the state it is made in. -/
inductive Run (sets : ResultSets) (x : Nat) : List (Uses × Use) → Uses → Prop
  | start : Run sets x [] {}
  | step {path : List (Uses × Use)} {u u' : Uses} {e : Use} (h : Run sets x path u)
    (hs : Step sets x u e u') : Run sets x ((u, e) :: path) u'

end Uses

/-- Everything a call of `Query` can do to the object: nothing; or `SetRes` with NULL, or with a new
result set. -/
theorem query_cases {sets : ResultSets} {x results : Nat} {cmd : Bytes} {args : List Printf.Arg}
    {b : Bool} {l : Trace} (hl : (CXEMySql.queryData cmd (some x) args).Ends [] b l)
    (hsound : LibAnswers sets results l) (y : CXEMySqlResult) :
    (produced l = none ∧ afterSetRes x l y = y ∧
        ∀ h, ⟨.lib (.storeResult h), (none : Option Nat)⟩ ∉ l) ∨
      (∃ n : Nat, 0 < n ∧ n < 2 ^ 31 ∧ produced l = none ∧ afterSetRes x l y = y.setRes n none ∧
        ∃ h, ⟨.lib (.storeResult h), (none : Option Nat)⟩ ∈ l) ∨
      ∃ n r : Nat, 0 < n ∧ n < 2 ^ 31 ∧ produced l = some r ∧ afterSetRes x l y = y.setRes n (some r) ∧
        results ≤ r ∧ (sets r).fields.length = n := by
  unfold produced afterSetRes
  rcases hl.follows (fun _ _ => trivial) (queryData_stores x cmd args) with ⟨h1, h2⟩ | ⟨h, h', r, n, hn, hc, hs, h1, h2⟩
  · refine Or.inl ⟨by rw [h1]; rfl, by rw [h2]; rfl, fun h hm => ?_⟩
    exact nomatch List.filterMap_eq_nil_iff.mp h1 _ hm
  · have hfits := hsound.fits h n hc
    rw [h1, h2]
    cases r with
    | none => exact Or.inr (Or.inl ⟨n, hn, hfits, rfl, rfl, h', hs⟩)
    | some r =>
      exact Or.inr (Or.inr ⟨n, r, hn, hfits, rfl, rfl, hsound.fresh h' r hs,
        hsound.columns h h' r n hc hs⟩)

/-! ## What the object shows -/

/-- The result set that an array belongs to. -/
def Read.source : Read → Option Nat
  | field p _ => p
  | cell p _ => p.map RowPtr.res
  | length p _ => p.map RowPtr.res

/-- Reading an array of the object. -/
def CXEMySqlResult.Own (x : CXEMySqlResult) : Read → Prop
  | .field p _ => p = x.m_pFields
  | .cell p _ => p = x.m_pRow
  | .length p _ => p = x.m_pLengths

/-- The object shows nothing but the result set `last`: the accessors read only arrays of it, what is
fetched is of it, and the number of columns is its own. -/
structure Shows {δ : Type} [Zero δ] (atof : Bytes → δ) (sets : ResultSets) (s : Reader)
    (last : Option Nat) : Prop where
  accessors : ∀ a : Accessor, ∀ e ∈ (a.code atof s.obj).reads sets.read, ∀ r, e.source = some r →
    last = some r
  columns : s.fetchRecords.2 = true → ∃ r, last = some r ∧ s.fetchRecords.1.obj.m_pFields = some r
  row : (s.fetchRow sets).2 = true → ∃ r k, last = some r ∧
    (s.fetchRow sets).1.obj.m_pRow = some ⟨r, k⟩ ∧ (s.fetchRow sets).1.obj.m_pLengths = some ⟨r, k⟩
  count : s.obj.getRecordsCnt = last.elim 0 fun r => (sets r).fields.length

/-- All that the object has is of the result set `last`. -/
structure Current (sets : ResultSets) (x : CXEMySqlResult) (last : Option Nat) : Prop where
  res : x.m_pRes = last
  fields : ∀ r, x.m_pFields = some r → last = some r
  row : ∀ p, x.m_pRow = some p → last = some p.res
  lengths : ∀ p, x.m_pLengths = some p → last = some p.res
  count : x.m_dwFieldCnt = last.elim 0 fun r => ((sets r).fields.length : Int)
  columns : ∀ r, last = some r → 0 < (sets r).fields.length ∧ (sets r).fields.length < 2 ^ 31

section

variable {δ : Type} [Zero δ] {atof : Bytes → δ} {sets : ResultSets} {x : CXEMySqlResult}

theorem searchFrom_own (f : Bytes) (left : Nat) (i : Int) : (x.searchFrom f left i).Only x.Own := by
  induction left generalizing i with
  | zero => trivial
  | succ left ih =>
    refine ⟨rfl, fun field => ?_⟩
    show Prog.Only x.Own (if stricmp field.name f = 0 then pure i else x.searchFrom f left (i + 1))
    split
    · trivial
    · exact ih (i + 1)

theorem getFieldIndex_own (szField : Option Bytes) : (x.getFieldIndex szField).Only x.Own := by
  unfold CXEMySqlResult.getFieldIndex
  split
  · exact searchFrom_own _ _ _
  · trivial

theorem byName_own {α : Type} (szField : Option Bytes) (d : α) (convert : Bytes → α) :
    (x.byName szField d convert).Only x.Own := by
  refine Prog.only_bind (getFieldIndex_own szField) fun i => ?_
  split
  · trivial
  · exact ⟨rfl, fun _ => trivial⟩

theorem valueAt_own (i : Int) (pnLen : Bool) : (x.valueAt i pnLen).Only x.Own := by
  cases pnLen with
  | false => exact ⟨rfl, fun _ => trivial⟩
  | true => exact ⟨rfl, fun _ => ⟨rfl, fun _ => trivial⟩⟩

/-- The accessors read the arrays of the object. -/
theorem code_own (a : Accessor) : (a.code atof x).Only x.Own := by
  cases a with
  | getStr f => exact byName_own f _ _
  | getWORD f => exact byName_own f _ _
  | getInt f => exact byName_own f _ _
  | getDWORD f => exact byName_own f _ _
  | getDouble f => exact byName_own f _ _
  | getBLOB f n =>
    refine Prog.only_bind (getFieldIndex_own f) fun i => ?_
    split
    · trivial
    · exact valueAt_own i n
  | getFieldName i =>
    show (x.getFieldName i).Only x.Own
    unfold CXEMySqlResult.getFieldName
    split
    · trivial
    · exact ⟨rfl, fun _ => trivial⟩
  | getFieldValue i n =>
    show (x.getFieldValue i n).Only x.Own
    unfold CXEMySqlResult.getFieldValue
    split
    · trivial
    · exact valueAt_own i n
  | isBLOBField i =>
    show (x.isBLOBField i).Only x.Own
    unfold CXEMySqlResult.isBLOBField
    split
    · trivial
    · exact ⟨rfl, fun _ => trivial⟩

/-- **An object that has nothing old shows nothing old.** -/
theorem Current.shows {s : Reader} {last : Option Nat} (h : Current sets s.obj last) :
    Shows atof sets s last where
  accessors a e he r hr := by
    have hcode : (a.code atof s.obj).Only s.obj.Own := code_own a
    have hown := hcode.reads e he
    cases e with
    | field p i => exact h.fields r (hown ▸ hr)
    | cell p i =>
      obtain ⟨q, hq, rfl⟩ := Option.map_eq_some_iff.mp hr
      exact h.row q (hown ▸ hq)
    | length p i =>
      obtain ⟨q, hq, rfl⟩ := Option.map_eq_some_iff.mp hr
      exact h.lengths q (hown ▸ hq)
  columns hs := by
    rcases s.fetchRecords_cases with hc | ⟨r, hr, hc⟩
    · rw [hc] at hs
      cases hs
    · rw [hc]
      exact ⟨r, h.res.symm.trans hr, rfl⟩
  row hs := by
    rcases s.fetchRow_cases sets with hc | ⟨r, hr, hc | ⟨-, hc⟩⟩
    · rw [hc] at hs
      cases hs
    · rw [hc] at hs
      cases hs
    · rw [hc]
      exact ⟨r, _, h.res.symm.trans hr, rfl, rfl⟩
  count := by
    have hcols := h.columns
    unfold CXEMySqlResult.getRecordsCnt
    rw [h.count]
    cases last with
    | none => rfl
    | some r =>
      have hr := hcols r rfl
      simp only [Option.elim_some]
      omega

end

/-! ## What leaves nothing old -/

/-- A call of `Query` that produces a result set must find an object into which nothing has been fetched;
one that produces none must find an object without columns, and not be one for which
`mysql_store_result` fails. -/
def CarefulUse : Uses × Use → Prop
  | (u, .query l) =>
    match produced l with
    | some _ => u.reader.obj.m_pFields = none ∧ u.reader.obj.m_pLengths = none
    | none => u.reader.obj.m_dwFieldCnt = 0 ∧
      ∀ h, ⟨.lib (.storeResult h), (none : Option Nat)⟩ ∉ l
  | _ => True

/-- What holds of the object in every run: what it has is of result sets that have been handed out, and
with a row come its lengths. -/
structure Known (u : Uses) : Prop where
  res : ∀ r, u.reader.obj.m_pRes = some r → r < u.results
  fields : ∀ r, u.reader.obj.m_pFields = some r → r < u.results
  row : ∀ p, u.reader.obj.m_pRow = some p → u.reader.obj.m_pLengths = some p
  lengths : ∀ p, u.reader.obj.m_pLengths = some p → p.res < u.results
  count : 0 ≤ u.reader.obj.m_dwFieldCnt ∧ u.reader.obj.m_dwFieldCnt < 2 ^ 31

section

variable {sets : ResultSets} {x : Nat} {u u' : Uses} {e : Use}

/-- **Step lemma.** -/
theorem Known.step (h : Known u) (hs : Uses.Step sets x u e u') : Known u' := by
  cases hs with
  | query hl hsound =>
    rcases query_cases hl hsound u.reader.obj with
      ⟨hp, hobj, -⟩ | ⟨n, hn, hfits, hp, hobj, -⟩ | ⟨n, r, hn, hfits, hp, hobj, hnew, -⟩
    · rw [hp, hobj]
      exact ⟨h.res, h.fields, h.row, h.lengths, h.count⟩
    · rw [hp, hobj]
      have hcount : (0 : Int) ≤ n ∧ (n : Int) < 2 ^ 31 := by omega
      exact ⟨nofun, h.fields, h.row, h.lengths, hcount⟩
    · rw [hp, hobj]
      have hcount : (0 : Int) ≤ n ∧ (n : Int) < 2 ^ 31 := by omega
      refine ⟨fun r' hr' => ?_, fun r' hr' => ?_, h.row, fun p hp' => ?_, hcount⟩
      · cases hr'
        exact Nat.lt_succ_self _
      · exact Nat.lt_succ_of_lt (Nat.lt_of_lt_of_le (h.fields r' hr') hnew)
      · exact Nat.lt_succ_of_lt (Nat.lt_of_lt_of_le (h.lengths p hp') hnew)
  | fetchRecords =>
    rcases u.reader.fetchRecords_cases with hc | ⟨r, hr, hc⟩
    · rw [hc]
      exact h
    · rw [hc]
      refine ⟨h.res, fun r' hr' => ?_, h.row, h.lengths, h.count⟩
      cases hr'
      exact h.res r hr
  | fetchRow =>
    rcases u.reader.fetchRow_cases sets with hc | ⟨r, hr, hc | ⟨-, hc⟩⟩
    · rw [hc]
      exact h
    · rw [hc]
      exact ⟨h.res, h.fields, nofun, h.lengths, h.count⟩
    · rw [hc]
      refine ⟨h.res, h.fields, fun p hp => hp, fun p hp => ?_, h.count⟩
      cases hp
      exact h.res r hr

/-- Without lengths there is no row. -/
theorem Known.row_none (h : Known u) (hl : u.reader.obj.m_pLengths = none) :
    u.reader.obj.m_pRow = none := by
  rw [Option.eq_none_iff_forall_not_mem]
  intro p hp
  have hlen := h.row p hp
  rw [hl] at hlen
  cases hlen

/-- An object without columns has no result set. -/
theorem Current.last_none {y : CXEMySqlResult} {last : Option Nat} (h : Current sets y last)
    (h0 : y.m_dwFieldCnt = 0) : last = none := by
  have hcount := h.count
  rw [h0] at hcount
  rw [Option.eq_none_iff_forall_not_mem]
  intro r hr
  have hpos := (h.columns r hr).1
  rw [Option.mem_def.mp hr, Option.elim_some] at hcount
  omega

/-- `SetRes` on an object into which nothing has been fetched. -/
theorem Current.of_setRes {y : CXEMySqlResult} {n r : Nat} (hfields : y.m_pFields = none)
    (hrow : y.m_pRow = none) (hlengths : y.m_pLengths = none) (hn : 0 < n) (hfits : n < 2 ^ 31)
    (hcols : (sets r).fields.length = n) : Current sets (y.setRes n (some r)) (some r) where
  res := rfl
  fields r' hr' := by
    rw [show y.m_pFields = some r' from hr'] at hfields
    cases hfields
  row p hp := by
    rw [show y.m_pRow = some p from hp] at hrow
    cases hrow
  lengths p hp := by
    rw [show y.m_pLengths = some p from hp] at hlengths
    cases hlengths
  count := by
    show (n : Int) = ((sets r).fields.length : Int)
    rw [hcols]
  columns r' hr' := by
    cases hr'
    omega

/-- **Step lemma.** After a careful step, all that the object has is of the last result set. -/
theorem Current.step (h : Current sets u.reader.obj u.last) (hk : Known u)
    (hs : Uses.Step sets x u e u') (hc : CarefulUse (u, e)) : Current sets u'.reader.obj u'.last := by
  cases hs with
  | query hl hsound =>
    unfold CarefulUse at hc
    dsimp only at hc
    rcases query_cases hl hsound u.reader.obj with
      ⟨hp, hobj, -⟩ | ⟨n, hn, hfits, hp, hobj, m, hm⟩ | ⟨n, r, hn, hfits, hp, hobj, hnew, hcols⟩
    · rw [hp] at hc
      rw [hp, hobj]
      have hlast := h.last_none hc.1
      rw [hlast] at h
      exact h
    · rw [hp] at hc
      exact absurd hm (hc.2 m)
    · rw [hp] at hc
      rw [hp, hobj]
      exact .of_setRes hc.1 (hk.row_none hc.2) hc.2 hn hfits hcols
  | fetchRecords =>
    rcases u.reader.fetchRecords_cases with hc | ⟨r, hr, hc⟩
    · rw [hc]
      exact h
    · rw [hc]
      refine ⟨h.res, fun r' hr' => ?_, h.row, h.lengths, h.count, h.columns⟩
      cases hr'
      exact h.res.symm.trans hr
  | fetchRow =>
    rcases u.reader.fetchRow_cases sets with hc | ⟨r, hr, hc | ⟨-, hc⟩⟩
    · rw [hc]
      exact h
    · rw [hc]
      exact ⟨h.res, h.fields, nofun, h.lengths, h.count, h.columns⟩
    · rw [hc]
      have hlast : u.last = some r := h.res.symm.trans hr
      refine ⟨h.res, h.fields, fun p hp => ?_, fun p hp => ?_, h.count, h.columns⟩
      · cases hp
        exact hlast
      · cases hp
        exact hlast

/-- **A step after which nothing old is shown was careful.** -/
theorem careful_of_shows {δ : Type} [Zero δ] {atof : Bytes → δ} (hk : Known u)
    (hs : Uses.Step sets x u e u') (h : Shows atof sets u'.reader u'.last) : CarefulUse (u, e) := by
  cases hs with
  | fetchRecords => trivial
  | fetchRow => trivial
  | query hl hsound =>
    unfold CarefulUse
    dsimp only
    rcases query_cases hl hsound u.reader.obj with
      ⟨hp, hobj, hnot⟩ | ⟨n, hn, hfits, hp, hobj, m, hm⟩ | ⟨n, r, hn, hfits, hp, hobj, hnew, hcols⟩
    · have hcount := h.count
      rw [hp, hobj] at hcount
      rw [hp]
      obtain ⟨h0, h1⟩ := hk.count
      simp only [CXEMySqlResult.getRecordsCnt, Option.elim_none] at hcount
      exact ⟨by omega, hnot⟩
    · -- the columns are counted, and there is no result set
      have hcount := h.count
      rw [hp, hobj] at hcount
      simp only [CXEMySqlResult.getRecordsCnt, CXEMySqlResult.setRes, Option.elim_none] at hcount
      omega
    · have hacc := h.accessors
      rw [hp, hobj] at hacc
      rw [hp]
      have hlt : ¬ ((0 : Int) < 0 ∨ (0 : Int) ≥ n) := by omega
      constructor
      · -- `IsBLOBField` reads the columns
        rw [Option.eq_none_iff_forall_not_mem]
        intro r' hr'
        have hread := hacc (.isBLOBField 0) (.field (some r') 0) (by
          show _ ∈ (CXEMySqlResult.isBLOBField _ 0).reads _
          unfold CXEMySqlResult.isBLOBField CXEMySqlResult.setRes
          rw [if_neg hlt, hr']
          exact Prog.mem_reads_op ..) r' rfl
        cases hread
        have hold := hk.fields r hr'
        omega
      · -- `GetFieldValue` reads the lengths first
        rw [Option.eq_none_iff_forall_not_mem]
        intro p hp'
        have hread := hacc (.getFieldValue 0 true) (.length (some p) 0) (by
          show _ ∈ (CXEMySqlResult.getFieldValue _ 0 true).reads _
          unfold CXEMySqlResult.getFieldValue CXEMySqlResult.setRes
          rw [if_neg hlt, ← Option.mem_def.mp hp']
          exact Prog.mem_reads_op ..) p.res rfl
        have hold := hk.lengths p hp'
        cases hread
        omega

/-- What holds in every run. -/
theorem Uses.Run.known {path : List (Uses × Use)} (h : Uses.Run sets x path u) : Known u := by
  induction h with
  | start => exact ⟨nofun, nofun, nofun, nofun, by decide, by decide⟩
  | step _ hs ih => exact ih.step hs

/-- **Run lemma.** -/
theorem Uses.Run.current {path : List (Uses × Use)} (h : Uses.Run sets x path u)
    (hc : ∀ p ∈ path, CarefulUse p) : Current sets u.reader.obj u.last := by
  induction h with
  | start => exact ⟨rfl, nofun, nofun, nofun, rfl, nofun⟩
  | step h hs ih =>
    rw [List.forall_mem_cons] at hc
    exact (ih hc.2).step h.known hs hc.1

end

/-- **In which runs nothing old is ever shown**: those with careful steps only. -/
theorem reuse_iff {δ : Type} [Zero δ] (atof : Bytes → δ) {sets : ResultSets} {x : Nat}
    {path : List (Uses × Use)} {u : Uses} (h : Uses.Run sets x path u) :
    ((∀ p ∈ path, Shows atof sets p.1.reader p.1.last) ∧ Shows atof sets u.reader u.last) ↔
      ∀ p ∈ path, CarefulUse p := by
  induction h with
  | start =>
    have hrun : Uses.Run sets x [] {} := .start
    have hstart := hrun.current (by simp)
    simpa using hstart.shows
  | step h hs ih =>
    rw [List.forall_mem_cons, List.forall_mem_cons, ← ih]
    constructor
    · rintro ⟨⟨hu, hpath⟩, hu'⟩
      exact ⟨careful_of_shows h.known hs hu', hpath, hu⟩
    · rintro ⟨hc, hpath, hu⟩
      have hcur := h.current (ih.mp ⟨hpath, hu⟩)
      exact ⟨⟨hu, hpath⟩, (hcur.step h.known hs hc).shows⟩

/-- The answers to a query that is accepted, with a result set of one column. -/
def acceptedTrace (r : Nat) : Trace :=
  [⟨.con (.unLock 0), ()⟩, ⟨.res (.setRes 0 1 (some r)), ()⟩, ⟨.lib (.storeResult 0), some r⟩,
    ⟨.lib (.fieldCount 0), (1 : Nat)⟩, ⟨.rt (.outPutDBStr [113]), ()⟩,
    ⟨.lib (.realQuery 0 [113]), true⟩, ⟨.rt (.vsnprintf 1023 [113] []), [113]⟩,
    ⟨.con (.getMySql 0), some 0⟩, ⟨.con .getFreeCon, some 0⟩]

theorem acceptedTrace_ends (r : Nat) :
    (CXEMySql.queryData [113] (some 0) []).Ends [] false (acceptedTrace r) :=
  .op (some 0) (.op (some 0) (.op [113] (.op true (.op () (.op (1 : Nat)
    (.op (some r) (.op () (.op () .ret))))))))

theorem acceptedTrace_answers {results r : Nat} (hnew : results ≤ r) :
    LibAnswers oneCell results (acceptedTrace r) where
  fresh := by
    intro h r' hr
    simp only [acceptedTrace, List.mem_cons, List.not_mem_nil, or_false] at hr
    rcases hr with hr | hr | hr | hr | hr | hr | hr | hr | hr <;> cases hr
    exact hnew
  columns := by
    intro h h' r n hn hr
    simp only [acceptedTrace, List.mem_cons, List.not_mem_nil, or_false] at hn
    rcases hn with hn | hn | hn | hn | hn | hn | hn | hn | hn <;> cases hn
    rfl
  fits := by
    intro h n hn
    simp only [acceptedTrace, List.mem_cons, List.not_mem_nil, or_false] at hn
    rcases hn with hn | hn | hn | hn | hn | hn | hn | hn | hn <;> cases hn
    decide

/-- The answers to a query with an error in it (1064). -/
def refusedTrace : Trace :=
  [⟨.con (.unLock 0), ()⟩, ⟨.lib (.errno 0), (1064 : Nat)⟩,
    ⟨.rt (.outPutDBError "cmd:%s errorno:%d,error:%s\n".toUTF8.toList
      [.str [113], .int 1064, .str []]), ()⟩,
    ⟨.lib (.error 0), []⟩, ⟨.lib (.errno 0), (1064 : Nat)⟩, ⟨.lib (.realQuery 0 [113]), false⟩,
    ⟨.rt (.vsnprintf 1023 [113] []), [113]⟩, ⟨.con (.getMySql 0), some 0⟩,
    ⟨.con .getFreeCon, some 0⟩]

theorem refusedTrace_ends :
    (CXEMySql.queryData [113] (some 0) []).Ends [] false refusedTrace :=
  .op (some 0) (.op (some 0) (.op [113] (.op false (.op (1064 : Nat) (.op []
    (.op () (.op (1064 : Nat) (.op () .ret))))))))

theorem refusedTrace_answers (results : Nat) : LibAnswers oneCell results refusedTrace where
  fresh := by
    intro h r hr
    simp only [refusedTrace, List.mem_cons, List.not_mem_nil, or_false] at hr
    rcases hr with hr | hr | hr | hr | hr | hr | hr | hr | hr <;> cases hr
  columns := by
    intro h h' r n hn hr
    simp only [refusedTrace, List.mem_cons, List.not_mem_nil, or_false] at hr
    rcases hr with hr | hr | hr | hr | hr | hr | hr | hr | hr <;> cases hr
  fits := by
    intro h n hn
    simp only [refusedTrace, List.mem_cons, List.not_mem_nil, or_false] at hn
    rcases hn with hn | hn | hn | hn | hn | hn | hn | hn | hn <;> cases hn

/-- A query is accepted, its row is fetched, and the next query fails: the row is still shown. -/
theorem shows_stale : ∃ path u, Uses.Run oneCell 0 path u ∧ u.last = none ∧
    (u.reader.obj.getFieldValue 0 false).value oneCell.read = some ([49], none) ∧
    ¬ Shows (fun _ => (0 : Int)) oneCell u.reader u.last := by
  have hrun := Uses.Run.start
    |>.step (.query (acceptedTrace_ends 0) (acceptedTrace_answers (Nat.le_refl 0)))
    |>.step (.fetchRecords _) |>.step (.fetchRow _)
    |>.step (.query refusedTrace_ends (refusedTrace_answers _))
  refine ⟨_, _, hrun, rfl, rfl, fun h => ?_⟩
  have hread := h.accessors (.getFieldValue 0 false) (.cell (some ⟨0, 0⟩) 0) (by decide) 0 rfl
  cases hread

/-- An object for three queries: one that fails, one whose row is never fetched, and one whose row is
shown. -/
theorem reuse_unfetched : ∃ path u, Uses.Run oneCell 0 path u ∧ path.length = 5 ∧ u.last = some 1 ∧
    u.reader.obj.m_pRow = some ⟨1, 0⟩ ∧
    (((∀ p ∈ path, Shows (fun _ => (0 : Int)) oneCell p.1.reader p.1.last) ∧
        Shows (fun _ => (0 : Int)) oneCell u.reader u.last) ↔ ∀ p ∈ path, CarefulUse p) := by
  have hrun := Uses.Run.start
    |>.step (.query refusedTrace_ends (refusedTrace_answers _))
    |>.step (.query (acceptedTrace_ends 0) (acceptedTrace_answers (Nat.le_refl 0)))
    |>.step (.query (acceptedTrace_ends 1) (acceptedTrace_answers (Nat.le_refl 1)))
    |>.step (.fetchRecords _) |>.step (.fetchRow _)
  exact ⟨_, _, hrun, rfl, rfl, rfl, reuse_iff (fun _ => (0 : Int)) hrun⟩

end XeMySql
