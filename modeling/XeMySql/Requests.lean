import XeMySql.System

/-!
# Which requests the functions make

* `query_text` — the text overloads work on a connection, libmysql and the runtime, and prepare no
  statement
* `queryBlob_database` — the blob overload works on these too
* `processTask_only` — and so does `ProcessTask`, besides its task
* `queryBlobOn_prepared` — just the requests of a statement
-/

namespace XeMySql

open Interact

/-- Requests on connections, libmysql and the runtime; no result set is freed, and no database is
selected. -/
def OnDatabase : Op → Prop
  | .con _ => True
  | .lib (.freeResult _) => False
  | .lib (.selectDb _ _) => False
  | .lib _ => True
  | .rt _ => True
  | _ => False

/-- Of these, the ones that are not on a statement, format no text, send none as a query and store no
result. -/
def OnSession : Op → Prop
  | .con _ => True
  | .lib (.realQuery _ _) => False
  | .lib (.storeResult _) => False
  | .lib (.freeResult _) => False
  | .lib (.selectDb _ _) => False
  | .lib e => e.onStmt = false
  | .rt (.vsnprintf _ _ _) => False
  | .rt _ => True
  | _ => False

/-- Requests of the text overloads: not on a statement. -/
def OnText : Op → Prop
  | .con _ => True
  | .lib (.freeResult _) => False
  | .lib (.selectDb _ _) => False
  | .lib e => e.onStmt = false
  | .rt _ => True
  | _ => False

/-- Requests of the prepared statement: no text is formatted, and no text is sent as a query. -/
def OnStatement : Op → Prop
  | .con _ => True
  | .lib (.realQuery _ _) => False
  | .lib (.freeResult _) => False
  | .lib (.selectDb _ _) => False
  | .lib _ => True
  | .rt (.vsnprintf _ _ _) => False
  | .rt _ => True
  | _ => False

/-- Of these, the ones that do not execute the statement. -/
def OnBinding : Op → Prop
  | .lib (.stmtExecute _) => False
  | e => OnStatement e

theorem OnBinding.onStatement (e : Op) (h : OnBinding e) : OnStatement e := by
  cases e with
  | lib e => cases e <;> first | exact h | trivial
  | _ => exact h

theorem OnSession.onText (e : Op) (h : OnSession e) : OnText e := by
  cases e with
  | lib e => cases e <;> trivial
  | rt e => trivial
  | _ => exact h

theorem OnSession.onStatement (e : Op) (h : OnSession e) : OnStatement e := by
  cases e with
  | lib e => cases e <;> trivial
  | rt e => cases e <;> trivial
  | _ => exact h

theorem OnStatement.onDatabase (e : Op) (h : OnStatement e) : OnDatabase e := by
  cases e with
  | lib e => cases e <;> trivial
  | _ => trivial

theorem OnText.onDatabase (e : Op) (h : OnText e) : OnDatabase e := by
  cases e with
  | lib e => cases e <;> trivial
  | _ => exact h

/-! ## Sessions -/

theorem reconnect_session (c : Nat) : (CXEMySqlCon.reconnect c).Only OnSession := by
  refine ⟨rfl, fun r => ?_⟩
  cases r with
  | none => exact ⟨trivial, fun r => nomatch r⟩
  | some temp =>
    refine ⟨trivial, fun p => ⟨rfl, fun ok => ?_⟩⟩
    cases ok with
    | false => exact ⟨rfl, fun _ => ⟨rfl, fun _ => trivial⟩⟩
    | true =>
      refine ⟨trivial, fun m => ?_⟩
      cases m with
      | none => exact ⟨trivial, fun _ => trivial⟩
      | some h => exact ⟨rfl, fun _ => ⟨trivial, fun _ => trivial⟩⟩

theorem queryFailed_session (c h : Nat) (szQuery : Bytes) :
    (CXEMySql.queryFailed c h szQuery).Only OnSession := by
  refine ⟨rfl, fun _ => ⟨rfl, fun _ => ⟨trivial, fun _ => ⟨rfl, fun n => ?_⟩⟩⟩⟩
  show (CXEMySql.handleError c n).Only OnSession
  unfold CXEMySql.handleError
  split
  · exact reconnect_session c
  · trivial

/-- `SelectDB` is the one function that selects a database. -/
theorem selectDB_only {P : Op → Prop} (hP : ∀ e, OnSession e → P e)
    (hselect : ∀ h db, P (.lib (.selectDb h db))) (db : Bytes) : (CXEMySql.selectDB db).Only P := by
  refine ⟨hP _ trivial, fun c => ?_⟩
  cases c with
  | none => trivial
  | some c =>
    refine ⟨hP _ trivial, fun m => ?_⟩
    cases m with
    | none => exact ⟨hP _ trivial, fun _ => trivial⟩
    | some h =>
      refine ⟨hselect h db, fun ok => ?_⟩
      cases ok <;> exact ⟨hP _ trivial, fun _ => trivial⟩

theorem close_session (c : Nat) : (CXEMySqlCon.close c).Only OnSession := by
  refine ⟨trivial, fun m => ?_⟩
  cases m with
  | none => trivial
  | some h => exact ⟨rfl, fun _ => trivial⟩

theorem connect_session (c : Nat) (p : ConnParams) : (CXEMySqlCon.connect c p).Only OnSession := by
  refine Prog.only_bind (close_session c) fun _ => ⟨trivial, fun _ => ⟨rfl, fun m => ?_⟩⟩
  refine ⟨trivial, fun _ => ?_⟩
  cases m with
  | none => trivial
  | some h =>
    refine ⟨rfl, fun ok => ?_⟩
    cases ok with
    | false => exact ⟨rfl, fun _ => trivial⟩
    | true =>
      refine ⟨rfl, fun ok => ?_⟩
      cases ok with
      | false => trivial
      | true =>
        refine ⟨rfl, fun ok => ?_⟩
        cases ok <;> trivial

/-! ## Text -/

theorem queryOn_text (c h : Nat) (cmd : Bytes) (args : List Printf.Arg) :
    (CXEMySql.queryOn c h cmd args).Only OnText := by
  refine ⟨trivial, fun szQuery => ⟨rfl, fun ok => ?_⟩⟩
  cases ok with
  | false => exact (queryFailed_session c h _).mono OnSession.onText
  | true => exact ⟨trivial, fun _ => ⟨rfl, fun _ => trivial⟩⟩

/-- `Query (cmd, MYSQL_RES *res, ...)` -/
theorem query_text (cmd : Bytes) (args : List Printf.Arg) :
    (CXEMySql.query cmd args).Only OnText :=
  CXEMySql.only_locked (fun _ => trivial) fun c h => queryOn_text c h cmd args

/-- `Query (cmd, CXEMySqlResult *data, ...)` also hands over the result. -/
theorem queryData_only {P : Op → Prop} (hP : ∀ e, OnText e → P e) (cmd : Bytes)
    {data : Option Nat} (hres : ∀ x n r, data = some x → P (.res (.setRes x n r)))
    (args : List Printf.Arg) : (CXEMySql.queryData cmd data args).Only P := by
  refine CXEMySql.only_locked (fun _ => hP _ trivial) fun c h => ?_
  rw [CXEMySql.queryDataOn_eq]
  refine ⟨hP _ trivial, fun szQuery => ⟨hP _ rfl, fun ok => ?_⟩⟩
  cases ok with
  | false => exact (queryFailed_session c h _).mono fun e he => hP e (OnSession.onText e he)
  | true => exact ⟨hP _ trivial, fun _ => CXEMySql.storeData_only (hP _ rfl) (hP _ rfl) hres⟩

/-! ## Statements -/

theorem logError_binding (h : Nat) : (CXEMySqlStmt.logError h).Only OnBinding :=
  ⟨trivial, fun _ => ⟨trivial, fun _ => ⟨trivial, fun _ => trivial⟩⟩⟩

theorem reset_binding (s : CXEMySqlStmt) : s.reset.Only OnBinding := by
  obtain ⟨con, st, n, ps⟩ := s
  unfold CXEMySqlStmt.reset
  cases st with
  | none => cases ps <;> first | trivial | exact ⟨trivial, fun _ => trivial⟩
  | some st =>
    refine ⟨trivial, fun ok => ?_⟩
    cases ok with
    | true => cases ps <;> first | trivial | exact ⟨trivial, fun _ => trivial⟩
    | false =>
      refine ⟨trivial, fun m => ?_⟩
      cases m with
      | none => trivial
      | some m =>
        simp only [Prog.bind_ret]
        exact Prog.only_bind (logError_binding m) fun _ => trivial

theorem setSQL_binding (s : CXEMySqlStmt) (szSQL : Bytes) :
    (s.setSQL szSQL).Only OnBinding := by
  refine ⟨trivial, fun m => ?_⟩
  cases m with
  | none => trivial
  | some m =>
    simp only [Prog.bind_ret]
    refine Prog.only_bind (reset_binding s) ?_
    rintro ⟨s, ok⟩
    cases ok with
    | false => trivial
    | true =>
      refine ⟨trivial, fun st => ?_⟩
      cases st with
      | none =>
        simp only [Prog.bind_ret]
        exact Prog.only_bind (logError_binding m) fun _ => trivial
      | some st =>
        refine ⟨trivial, fun ok => ?_⟩
        cases ok with
        | false => exact ⟨trivial, fun _ => ⟨trivial, fun _ => ⟨trivial, fun _ => trivial⟩⟩⟩
        | true =>
          refine ⟨trivial, fun n => ?_⟩
          by_cases hn : 0 < n
          · simp only [Prog.bind_ret, hn, if_true]
            exact ⟨trivial, fun _ => trivial⟩
          · simp only [Prog.bind_ret, hn, if_false]
            trivial

theorem setParams_binding (ps : DB_BLOB) (s : CXEMySqlStmt) (i : Nat) :
    (s.setParams i ps).Only OnBinding := by
  induction ps generalizing s i with
  | nil => trivial
  | cons p ps ih =>
    refine Prog.only_bind ⟨trivial, fun m => ?_⟩ fun s => ih s (i + 1)
    obtain ⟨con, st, n, bs⟩ := s
    cases st with
    | none => trivial
    | some st =>
      cases m with
      | none => trivial
      | some m =>
        by_cases hi : i < n
        · simp only [Prog.bind_ret, hi, if_true]
          trivial
        · simp only [Prog.bind_ret, hi, if_false]
          trivial

theorem attempt_only {P : Op → Prop} (hP : ∀ e, OnBinding e → P e) (s : CXEMySqlStmt)
    {call : Nat → Code Bool} (hcall : ∀ st, (call st).Only P) : (s.attempt call).Only P := by
  obtain ⟨con, st, n, bs⟩ := s
  refine ⟨hP _ trivial, fun m => ?_⟩
  rcases st with _ | st
  · trivial
  · rcases m with _ | m
    · trivial
    · simp only [Prog.bind_ret]
      refine Prog.only_bind (hcall st) fun ok => ?_
      cases ok with
      | true => trivial
      | false => exact Prog.only_bind ((logError_binding m).mono hP) fun _ => trivial

theorem bindParams_binding (s : CXEMySqlStmt) : s.bindParams.Only OnBinding :=
  attempt_only (fun _ h => h) s fun _ => ⟨trivial, fun _ => trivial⟩

theorem execute_statement (s : CXEMySqlStmt) : s.execute.Only OnStatement :=
  attempt_only OnBinding.onStatement s fun _ => ⟨trivial, fun _ => trivial⟩

theorem queryBlobOn_statement (c : Nat) (cmd : Bytes) (pData : DB_BLOB) :
    (CXEMySql.queryBlobOn c cmd pData).Only OnStatement := by
  refine Prog.only_bind ((setSQL_binding _ cmd).mono OnBinding.onStatement) fun s₁ => ?_
  refine Prog.only_bind ((setParams_binding pData s₁ 0).mono OnBinding.onStatement) fun s₂ => ?_
  refine Prog.only_bind ((bindParams_binding s₂).mono OnBinding.onStatement) fun ok => ?_
  have hreset := (reset_binding s₂).mono OnBinding.onStatement
  refine Prog.only_bind ?_ fun _ => Prog.only_bind hreset fun _ => trivial
  cases ok with
  | false => trivial
  | true => exact execute_statement s₂

/-- `Query (cmd, DB_BLOB *pData)` with a blob. -/
theorem queryBlob_statement (cmd : Bytes) (d : DB_BLOB) :
    (CXEMySql.queryBlob cmd (some d)).Only OnStatement :=
  CXEMySql.only_locked (fun _ => trivial) fun c _ => queryBlobOn_statement c cmd d

/-- `Query (cmd, DB_BLOB *pData)` -/
theorem queryBlob_database (cmd : Bytes) (pData : Option DB_BLOB) :
    (CXEMySql.queryBlob cmd pData).Only OnDatabase := by
  cases pData with
  | none => exact (query_text cmd []).mono OnText.onDatabase
  | some d => exact (queryBlob_statement cmd d).mono OnStatement.onDatabase

/-- `ProcessTask` accesses its task, and the database. -/
theorem processTask_only {P : Op → Prop} (htask : ∀ e, P (.task e)) (hdb : ∀ e, OnDatabase e → P e)
    (pTask : Option Nat) : (CXEMySqlWorker.processTask pTask).Only P := by
  rcases pTask with _ | k
  · trivial
  · have hrelease : (CXEMySql.releaseJob k).Only P := ⟨htask _, fun _ => ⟨htask _, fun _ => trivial⟩⟩
    refine ⟨htask _, fun d => ?_⟩
    rcases d with _ | p
    · refine ⟨htask _, fun szQuery => ?_⟩
      have hq := (query_text szQuery []).mono fun e he => hdb e (OnText.onDatabase e he)
      exact Prog.only_bind (p := CXEMySql.query szQuery []) hq fun _ => hrelease
    · refine ⟨htask _, fun szQuery => ⟨htask _, fun d => ?_⟩⟩
      have hq := (queryBlob_database szQuery (some d)).mono hdb
      exact Prog.only_bind (p := CXEMySql.queryBlob szQuery (some d)) hq fun _ => hrelease

/-! ## Nothing but the statement -/

/-- The format of what is logged of a query that the server has refused. -/
def refusedFormat : Bytes := "cmd:%s errorno:%d,error:%s\n".toUTF8.toList

/-- The requests of a statement on a connection that is locked already. What it logs has formats of
its own. -/
def OnPrepared : Op → Prop
  | .con (.getMySql _) => True
  | .lib (.errno _) => True
  | .lib (.error _) => True
  | .lib (.stmtInit _) => True
  | .lib (.stmtPrepare _ _) => True
  | .lib (.stmtParamCount _) => True
  | .lib (.stmtBindParam _ _) => True
  | .lib (.stmtExecute _) => True
  | .lib (.stmtClose _) => True
  | .rt (.newBinds _) => True
  | .rt (.deleteBinds _) => True
  | .rt (.outPutDBError fmt _) => fmt ≠ refusedFormat
  | _ => False

theorem statementFormat_ne : "errno:%d error:%s".toUTF8.toList ≠ refusedFormat := by
  decide +kernel

theorem prepareFormat_ne : "cmd:%s,errno:%d error:%s".toUTF8.toList ≠ refusedFormat := by
  decide +kernel

theorem logError_prepared (h : Nat) : (CXEMySqlStmt.logError h).Only OnPrepared :=
  ⟨trivial, fun _ => ⟨trivial, fun _ => ⟨statementFormat_ne, fun _ => trivial⟩⟩⟩

theorem reset_prepared (s : CXEMySqlStmt) : s.reset.Only OnPrepared := by
  obtain ⟨con, st, n, ps⟩ := s
  unfold CXEMySqlStmt.reset
  cases st with
  | none => cases ps <;> first | trivial | exact ⟨trivial, fun _ => trivial⟩
  | some st =>
    refine ⟨trivial, fun ok => ?_⟩
    cases ok with
    | true => cases ps <;> first | trivial | exact ⟨trivial, fun _ => trivial⟩
    | false =>
      refine ⟨trivial, fun m => ?_⟩
      cases m with
      | none => trivial
      | some m =>
        simp only [Prog.bind_ret]
        exact Prog.only_bind (logError_prepared m) fun _ => trivial

theorem setSQL_prepared (s : CXEMySqlStmt) (szSQL : Bytes) : (s.setSQL szSQL).Only OnPrepared := by
  refine ⟨trivial, fun m => ?_⟩
  cases m with
  | none => trivial
  | some m =>
    simp only [Prog.bind_ret]
    refine Prog.only_bind (reset_prepared s) ?_
    rintro ⟨s, ok⟩
    cases ok with
    | false => trivial
    | true =>
      refine ⟨trivial, fun st => ?_⟩
      cases st with
      | none =>
        simp only [Prog.bind_ret]
        exact Prog.only_bind (logError_prepared m) fun _ => trivial
      | some st =>
        refine ⟨trivial, fun ok => ?_⟩
        cases ok with
        | false =>
          exact ⟨trivial, fun _ => ⟨trivial, fun _ => ⟨prepareFormat_ne, fun _ => trivial⟩⟩⟩
        | true =>
          refine ⟨trivial, fun n => ?_⟩
          by_cases hn : 0 < n
          · simp only [Prog.bind_ret, hn, if_true]
            exact ⟨trivial, fun _ => trivial⟩
          · simp only [Prog.bind_ret, hn, if_false]
            trivial

theorem setParam_prepared (s : CXEMySqlStmt) (i : Nat) (p : BlobParam) :
    (s.setParam i p).Only OnPrepared := by
  obtain ⟨con, st, n, bs⟩ := s
  refine ⟨trivial, fun m => ?_⟩
  rcases st with _ | st
  · trivial
  · rcases m with _ | m
    · trivial
    · by_cases hi : i < n
      · simp only [Prog.bind_ret, hi, if_true]
        trivial
      · simp only [Prog.bind_ret, hi, if_false]
        trivial

theorem setParams_prepared (ps : DB_BLOB) (s : CXEMySqlStmt) (i : Nat) :
    (s.setParams i ps).Only OnPrepared := by
  induction ps generalizing s i with
  | nil => trivial
  | cons p ps ih => exact Prog.only_bind (setParam_prepared s i p) fun s => ih s (i + 1)

theorem attempt_prepared (s : CXEMySqlStmt) {call : Nat → Code Bool}
    (hcall : ∀ st, (call st).Only OnPrepared) : (s.attempt call).Only OnPrepared := by
  obtain ⟨con, st, n, bs⟩ := s
  refine ⟨trivial, fun m => ?_⟩
  rcases st with _ | st
  · trivial
  · rcases m with _ | m
    · trivial
    · simp only [Prog.bind_ret]
      refine Prog.only_bind (hcall st) fun ok => ?_
      cases ok with
      | true => trivial
      | false => exact Prog.only_bind (logError_prepared m) fun _ => trivial

theorem queryBlobOn_prepared (c : Nat) (cmd : Bytes) (pData : DB_BLOB) :
    (CXEMySql.queryBlobOn c cmd pData).Only OnPrepared := by
  refine Prog.only_bind (setSQL_prepared _ cmd) fun s₁ => ?_
  refine Prog.only_bind (setParams_prepared pData s₁ 0) fun s₂ => ?_
  refine Prog.only_bind (attempt_prepared s₂ fun _ => ⟨trivial, fun _ => trivial⟩) fun ok => ?_
  refine Prog.only_bind ?_ fun _ => Prog.only_bind (reset_prepared s₂) fun _ => trivial
  cases ok with
  | false => trivial
  | true => exact attempt_prepared s₂ fun _ => ⟨trivial, fun _ => trivial⟩

end XeMySql
