import XeMySql.Requests
import XeMySql.Lib.Audit

/-!
# What is sent, and what is handed to the log of it

Each query that `mysql_real_query` sends is handed to `OutPutDBStr` when the server has accepted it,
and to `OutPutDBError` when it has not. And no call sends a statement twice, not even over a
connection that `HandleError` has brought back.

* `queries_logged` — the log is handed the queries of each thread, in their order
* `sent_once` — a call of `Query` sends one statement at most, and so does a job
-/

namespace XeMySql

open Interact

/-! ## The log of queries -/

/-- A query is opened by its outcome, and closed by the call of the log that is told of it. What the
log makes of the text is its own affair: it formats it once more. -/
def queryLog : Pairing Op Op.Reply (Bool × Bytes) where
  opens
    | .lib (.realQuery _ q), r => some (r, q)
    | _, _ => none
  closes
    | .rt (.outPutDBStr s), _ => some (true, s)
    | .rt (.outPutDBError fmt (.str s :: _)), _ =>
      if fmt = refusedFormat then some (false, s) else none
    | _, _ => none

/-- Neither a query nor a report of one. -/
def Unaudited : Op → Prop
  | .lib (.realQuery _ _) => False
  | .rt (.outPutDBStr _) => False
  | .rt (.outPutDBError fmt _) => fmt ≠ refusedFormat
  | _ => True

theorem Unaudited.apart (e : Op) (h : Unaudited e) : queryLog.Apart e := by
  intro r
  cases e with
  | lib e => cases e <;> first | exact h.elim | exact ⟨rfl, rfl⟩
  | rt e =>
    cases e with
    | outPutDBStr s => exact h.elim
    | outPutDBError fmt args =>
      refine ⟨rfl, ?_⟩
      have hfmt : fmt ≠ refusedFormat := h
      rcases args with _ | ⟨a, args⟩
      · rfl
      · cases a <;> simp [queryLog, hfmt]
    | _ => exact ⟨rfl, rfl⟩
  | _ => exact ⟨rfl, rfl⟩

theorem OnPrepared.unaudited (e : Op) (h : OnPrepared e) : Unaudited e := by
  cases e with
  | con e => trivial
  | lib e => cases e <;> first | exact h.elim | trivial
  | rt e => cases e <;> first | exact h.elim | exact h
  | _ => exact h.elim

theorem unaudited_follows {α : Type} {p : Code α} (h : p.Only Unaudited)
    {l : Option (Bool × Bytes)} : p.Follows queryLog.discipline l fun _ l' => l' = l :=
  Pairing.follows_apart (h.mono Unaudited.apart)

theorem reconnect_unaudited (c : Nat) : (CXEMySqlCon.reconnect c).Only Unaudited := by
  refine ⟨trivial, fun r => ?_⟩
  cases r with
  | none => exact ⟨trivial, fun r => nomatch r⟩
  | some temp =>
    refine ⟨trivial, fun p => ⟨trivial, fun ok => ?_⟩⟩
    cases ok with
    | false => exact ⟨trivial, fun _ => ⟨trivial, fun _ => trivial⟩⟩
    | true =>
      refine ⟨trivial, fun m => ?_⟩
      cases m with
      | none => exact ⟨trivial, fun _ => trivial⟩
      | some h => exact ⟨trivial, fun _ => ⟨trivial, fun _ => trivial⟩⟩

theorem close_unaudited (c : Nat) : (CXEMySqlCon.close c).Only Unaudited := by
  refine ⟨trivial, fun m => ?_⟩
  cases m with
  | none => trivial
  | some h => exact ⟨trivial, fun _ => trivial⟩

theorem connect_unaudited (c : Nat) (p : ConnParams) :
    (CXEMySqlCon.connect c p).Only Unaudited := by
  refine Prog.only_bind (close_unaudited c) fun _ => ⟨trivial, fun _ => ⟨trivial, fun m => ?_⟩⟩
  refine ⟨trivial, fun _ => ?_⟩
  cases m with
  | none => trivial
  | some h =>
    refine ⟨trivial, fun ok => ?_⟩
    cases ok with
    | false => exact ⟨trivial, fun _ => trivial⟩
    | true =>
      refine ⟨trivial, fun ok => ?_⟩
      cases ok with
      | false => trivial
      | true =>
        refine ⟨trivial, fun ok => ?_⟩
        cases ok <;> trivial

theorem selectDB_unaudited (db : Bytes) : (CXEMySql.selectDB db).Only Unaudited := by
  refine ⟨trivial, fun c => ?_⟩
  cases c with
  | none => trivial
  | some c =>
    refine ⟨trivial, fun m => ?_⟩
    cases m with
    | none => exact ⟨trivial, fun _ => trivial⟩
    | some h =>
      refine ⟨trivial, fun ok => ?_⟩
      cases ok <;> exact ⟨trivial, fun _ => trivial⟩

/-- What is done when a query has been refused. -/
theorem queryFailed_logged (c h : Nat) (szQuery : Bytes) :
    (CXEMySql.queryFailed c h szQuery).Follows queryLog.discipline (some (false, szQuery))
      fun _ l => l = none := by
  refine Pairing.follows_op_apart (Unaudited.apart _ trivial) fun n => ?_
  refine Pairing.follows_op_apart (Unaudited.apart _ trivial) fun e => ?_
  refine Pairing.follows_op_closes (fun _ => rfl) (fun _ => if_pos rfl) fun _ => ?_
  refine Pairing.follows_op_apart (Unaudited.apart _ trivial) fun n => ?_
  show (CXEMySql.handleError c n).Follows queryLog.discipline none fun _ l => l = none
  unfold CXEMySql.handleError
  split
  · exact unaudited_follows (reconnect_unaudited c)
  · exact rfl

/-- A query, and what is done when it has been accepted and logged. -/
theorem sendQuery_logged {c h : Nat} {cmd : Bytes} {args : List Printf.Arg} {rest : Code Bool}
    (hrest : rest.Follows queryLog.discipline none fun _ l => l = none) :
    (do
      let szQuery ← CXEMySql.formatQuery cmd args
      if ← req (.lib (.realQuery h szQuery)) then do
        req (.rt (.outPutDBStr szQuery))
        rest
      else CXEMySql.queryFailed c h szQuery : Code Bool).Follows queryLog.discipline none
        fun _ l => l = none := by
  refine Pairing.follows_op_apart (Unaudited.apart _ trivial) fun szQuery => ?_
  refine Pairing.follows_op_opens (fun _ => rfl) fun ok => ?_
  cases ok with
  | false => exact queryFailed_logged c h _
  | true => exact Pairing.follows_op_closes (fun _ => rfl) (fun _ => rfl) fun _ => hrest

theorem locked_logged {body : Nat → Nat → Code Bool}
    (hbody : ∀ c h, (body c h).Follows queryLog.discipline none fun _ l => l = none) :
    (CXEMySql.locked body).Follows queryLog.discipline none fun _ l => l = none := by
  have hapart : ∀ e, queryLog.Apart (.con e) := fun e => Unaudited.apart (.con e) trivial
  refine CXEMySql.follows_locked (P := fun _ _ l => l = none) (Pairing.may_apart (hapart _)) ?_
    (fun c => Pairing.may_apart (hapart _)) (fun c m => ?_) ?_
  · exact Pairing.next_apart (hapart _)
  · rw [Pairing.next_apart (hapart _), Pairing.next_apart (hapart _)]
    cases m with
    | none => exact rfl
    | some h => exact hbody c h
  · rintro c a _ rfl
    exact ⟨Pairing.may_apart (hapart _), fun r => Pairing.next_apart (hapart _)⟩

theorem query_logged (cmd : Bytes) (args : List Printf.Arg) :
    (CXEMySql.query cmd args).Follows queryLog.discipline none fun _ l => l = none :=
  locked_logged fun _ h => sendQuery_logged (unaudited_follows (p := do
    let _ ← req (.lib (.storeResult h))
    pure true) ⟨trivial, fun _ => trivial⟩)

theorem queryData_logged (cmd : Bytes) (data : Option Nat) (args : List Printf.Arg) :
    (CXEMySql.queryData cmd data args).Follows queryLog.discipline none fun _ l => l = none := by
  refine locked_logged fun c h => ?_
  rw [CXEMySql.queryDataOn_eq]
  exact sendQuery_logged (unaudited_follows
    (CXEMySql.storeData_only trivial trivial fun _ _ _ _ => trivial))

theorem queryBlob_logged (cmd : Bytes) (pData : Option DB_BLOB) :
    (CXEMySql.queryBlob cmd pData).Follows queryLog.discipline none fun _ l => l = none := by
  cases pData with
  | none => exact query_logged cmd []
  | some d =>
    exact locked_logged fun c _ =>
      unaudited_follows ((queryBlobOn_prepared c cmd d).mono OnPrepared.unaudited)

theorem inPool_unaudited {α : Type} (p : ThreadPool.Code Nat α) :
    (CXEMySql.inPool p).Only Unaudited :=
  Prog.only_lift (fun _ => trivial) p

theorem processTask_logged (pTask : Option Nat) :
    (CXEMySqlWorker.processTask pTask).Follows queryLog.discipline none fun _ l => l = none := by
  cases pTask with
  | none => exact rfl
  | some k =>
    have hrelease : ∀ (_ : Bool) (l : Option (Bool × Bytes)), l = none →
        (CXEMySql.releaseJob k).Follows queryLog.discipline l fun _ l => l = none := by
      rintro _ _ rfl
      exact unaudited_follows (p := CXEMySql.releaseJob k)
        ⟨trivial, fun _ => ⟨trivial, fun _ => trivial⟩⟩
    have hapart : ∀ e, queryLog.Apart (.task e) := fun e => Unaudited.apart (.task e) trivial
    refine Pairing.follows_op_apart (hapart _) fun d => ?_
    cases d with
    | none =>
      refine Pairing.follows_op_apart (hapart _) fun szQuery => ?_
      exact (query_logged szQuery []).bind hrelease
    | some p =>
      refine Pairing.follows_op_apart (hapart _) fun szQuery => ?_
      refine Pairing.follows_op_apart (hapart _) fun d => ?_
      exact (queryBlob_logged szQuery (some d)).bind hrelease

/-- **Every call closes what it opens.** -/
theorem code_logged (rt : Runtime) (ok : Tid → Call → Prop) : queryLog.Closing (machine rt) ok := by
  intro t c _
  have hunaudited : ∀ {α : Type} {p : Code α} (a : Bool), p.Only Unaudited →
      (p >>= fun _ => pure a).Follows queryLog.discipline none fun _ l => l = none :=
    fun a hp => (unaudited_follows hp).bind fun _ _ hl => hl
  show c.code.Follows queryLog.discipline none fun _ l => l = none
  cases c with
  | executeQueryNoRet q =>
    refine hunaudited true (Prog.only_bind ?_ fun _ => inPool_unaudited _)
    cases q with
    | none => trivial
    | some q => exact ⟨trivial, fun _ => ⟨trivial, fun _ => trivial⟩⟩
  | selectDB db => exact unaudited_follows (selectDB_unaudited db)
  | query cmd args => exact query_logged cmd args
  | queryData cmd data args => exact queryData_logged cmd data args
  | queryBlob cmd d => exact queryBlob_logged cmd d
  | newResult => exact unaudited_follows (p := Call.code .newResult) ⟨trivial, fun _ => trivial⟩
  | deleteResult x =>
    refine unaudited_follows (p := Call.code (.deleteResult x)) ⟨trivial, fun r => ?_⟩
    cases r with
    | none => exact ⟨trivial, fun _ => trivial⟩
    | some r => exact ⟨trivial, fun _ => ⟨trivial, fun _ => trivial⟩⟩
  | connect c p => exact unaudited_follows (connect_unaudited c p)
  | close c => exact unaudited_follows (close_unaudited c)
  | reconnect c => exact unaudited_follows (reconnect_unaudited c)
  | start n => exact hunaudited true (inPool_unaudited _)
  | stop => exact hunaudited true (inPool_unaudited _)
  | workerProc =>
    refine (unaudited_follows (inPool_unaudited _)).bind ?_
    rintro r _ rfl
    rcases r with _ | ⟨pWorker, pTask⟩
    · exact rfl
    · cases pWorker with
      | false => exact rfl
      | true => exact (processTask_logged pTask).bind fun _ _ hl => hl

/--
**Every query is handed to the log, once and where it belongs.** In every run the queries that a
thread has handed to `OutPutDBStr` or, as refused, to `OutPutDBError` are those it has sent with
`mysql_real_query`, in the same order, with the same text and the outcome; only the last of them may
be missing, and that only inside a call. While nobody is in a call, what all threads have handed over
are all queries. A prepared statement that is executed is not among them.
-/
theorem queries_logged {rt : Runtime} {ok : Tid → Call → Prop} {s₀ : State} {s : Sys}
    (h : (machine rt).Reach ok s₀ s) :
    (∀ t, ∃ l : Option (Bool × Bytes),
      queryLog.opened t s.hist = l.toList ++ queryLog.closed t s.hist ∧
        ((∀ c p, s.thread t ≠ .running c p) → l = none)) ∧
      ((∀ t c p, s.thread t ≠ .running c p) →
        (queryLog.allOpened s.hist).Perm (queryLog.allClosed s.hist)) :=
  ⟨Pairing.balance (code_logged rt ok) h, Pairing.perm (code_logged rt ok) h⟩

/-- One query that the server accepts, and one that it refuses. -/
theorem queries_logged_two : ∃ s : Sys,
    queryLog.opened (.client 0) s.hist = [(false, [98]), (true, [97])] ∧
      queryLog.closed (.client 0) s.hist = [(false, [98]), (true, [97])] := by
  let next : Label Tid Call Outcome := .act (.client 0) {}
  have hrun : ((machine .standard).run
      ([.call (.client 0) (.query [97] [])] ++ List.replicate 8 next ++
        [.call (.client 0) (.query [98] [])] ++ List.replicate 3 next ++
        [.act (.client 0) { ok := false, number := 1064 }] ++ List.replicate 6 next)
      (.init (.small 1 0))).map (fun s => ((s.thread (.client 0)).call,
        queryLog.opened (.client 0) s.hist)) =
      some (none, [(false, [98]), (true, [97])]) := by
    decide +kernel
  obtain ⟨s, hs, hl⟩ := Option.map_eq_some_iff.mp hrun
  obtain ⟨hidle, hopened⟩ := Prod.mk.inj hl
  have hr : (machine .standard).Reach (fun _ _ => True) (.small 1 0) s :=
    Machine.Reach.init.run (fun _ _ _ _ _ => trivial) hs
  obtain ⟨l, hbalance, hnone⟩ := (queries_logged hr).1 (.client 0)
  have hout : ∀ c p, s.thread (.client 0) ≠ .running c p := by
    intro c p hp
    rw [hp] at hidle
    cases hidle
  rw [hnone hout] at hbalance
  exact ⟨s, hopened, hbalance.symm.trans hopened⟩

/-! ## One statement for each call -/

/-- Statements are sent to be executed by `mysql_real_query` and `mysql_stmt_execute`. A call of
`Query` may send one, and so may a worker for each job it takes. -/
def sending : Budget Call Op Op.Reply where
  cost
    | .lib (.realQuery _ _) => 1
    | .lib (.stmtExecute _) => 1
    | _ => 0
  atCall
    | .query _ _ => 1
    | .queryData _ _ _ => 1
    | .queryBlob _ _ => 1
    | _ => 0
  grants
    | .tp (.getQueued _), .packet _ (.job true (some _)) => 1
    | _, _ => 0

/-- Jobs are taken by `WorkerProc` only, one at most in a round of its loop. -/
def taking : Budget Call Op Op.Reply where
  cost
    | .tp (.getQueued _) => 1
    | _ => 0
  atCall
    | .workerProc => 1
    | _ => 0
  grants _ _ := 0

/-- Nothing is sent, and no job is taken. -/
def Sendless : Op → Prop
  | .lib (.realQuery _ _) => False
  | .lib (.stmtExecute _) => False
  | .tp (.getQueued _) => False
  | _ => True

theorem Sendless.free (e : Op) (h : Sendless e) :
    sending.cost e = 0 ∧ ∀ r, sending.grants e r = 0 := by
  cases e with
  | lib e => cases e <;> first | exact h.elim | exact ⟨rfl, fun _ => rfl⟩
  | tp e => cases e <;> first | exact h.elim | exact ⟨rfl, fun _ => rfl⟩
  | _ => exact ⟨rfl, fun _ => rfl⟩

theorem OnSession.sendless (e : Op) (h : OnSession e) : Sendless e := by
  cases e with
  | lib e => cases e <;> first | exact h.elim | trivial
  | tp e => exact h.elim
  | _ => trivial

theorem OnBinding.sendless (e : Op) (h : OnBinding e) : Sendless e := by
  cases e with
  | lib e => cases e <;> first | exact h.elim | trivial
  | tp e => exact h.elim
  | _ => trivial

theorem sendless_follows {α : Type} {p : Code α} (h : p.Only Sendless) {l : Nat} :
    p.Follows sending.discipline l fun _ l' => l' = l :=
  Budget.follows_free (h.mono Sendless.free)

/-- Such a request comes first. -/
theorem follows_op_sendless {α : Type} {e : Op} {k : e.Reply → Code α} {l : Nat}
    {Q : α → Nat → Prop} (h : Sendless e) (hk : ∀ r, (k r).Follows sending.discipline l Q) :
    (Prog.op e k : Code α).Follows sending.discipline l Q := by
  obtain ⟨hmay, hnext⟩ := sendless_follows (p := req e) (l := l) ⟨h, fun _ => trivial⟩
  refine ⟨hmay, fun r hr => ?_⟩
  have hsame : sending.discipline.next l e r = l := hnext r hr
  rw [hsame]
  exact hk r

theorem sendQuery_once {c h : Nat} {cmd : Bytes} {args : List Printf.Arg} {k : Code Bool}
    (hk : k.Only Sendless) :
    (do
      let szQuery ← CXEMySql.formatQuery cmd args
      if ← req (.lib (.realQuery h szQuery)) then do
        req (.rt (.outPutDBStr szQuery))
        k
      else CXEMySql.queryFailed c h szQuery : Code Bool).Follows sending.discipline 1
        fun _ _ => True := by
  refine follows_op_sendless trivial fun szQuery => ⟨Nat.le_refl 1, fun ok _ => ?_⟩
  cases ok with
  | false =>
    exact (sendless_follows ((queryFailed_session c h _).mono OnSession.sendless)).mono
      fun _ _ _ => trivial
  | true =>
    exact follows_op_sendless trivial fun _ => (sendless_follows hk).mono fun _ _ _ => trivial

theorem locked_once {body : Nat → Nat → Code Bool}
    (hbody : ∀ c h, (body c h).Follows sending.discipline 1 fun _ _ => True) :
    (CXEMySql.locked body).Follows sending.discipline 1 fun _ _ => True := by
  refine follows_op_sendless trivial fun c => ?_
  cases c with
  | none => trivial
  | some c =>
    refine follows_op_sendless trivial fun m => ?_
    refine Prog.Follows.bind (P := fun _ _ => True) ?_ fun _ _ _ =>
      follows_op_sendless trivial fun _ => trivial
    cases m with
    | none => trivial
    | some h => exact hbody c h

theorem query_once (cmd : Bytes) (args : List Printf.Arg) :
    (CXEMySql.query cmd args).Follows sending.discipline 1 fun _ _ => True :=
  locked_once fun _ h => sendQuery_once (k := do
    let _ ← req (.lib (.storeResult h))
    pure true) ⟨trivial, fun _ => trivial⟩

theorem queryData_once (cmd : Bytes) (data : Option Nat) (args : List Printf.Arg) :
    (CXEMySql.queryData cmd data args).Follows sending.discipline 1 fun _ _ => True := by
  refine locked_once fun c h => ?_
  rw [CXEMySql.queryDataOn_eq]
  exact sendQuery_once (CXEMySql.storeData_only trivial trivial fun _ _ _ _ => trivial)

/-- `Execute` sends the statement, and what comes before and after it does not. -/
theorem queryBlobOn_once (c : Nat) (cmd : Bytes) (pData : DB_BLOB) :
    (CXEMySql.queryBlobOn c cmd pData).Follows sending.discipline 1 fun _ _ => True := by
  have hfree : ∀ {α : Type} {p : Code α} {l : Nat}, p.Only OnBinding →
      p.Follows sending.discipline l fun _ l' => l' = l :=
    fun h => sendless_follows (h.mono OnBinding.sendless)
  refine (hfree (setSQL_binding _ cmd)).bind ?_
  rintro s₁ _ rfl
  refine (hfree (setParams_binding pData s₁ 0)).bind ?_
  rintro s₂ _ rfl
  refine (hfree (bindParams_binding s₂)).bind ?_
  rintro ok _ rfl
  refine Prog.Follows.bind (P := fun _ _ => True) ?_ fun _ l _ =>
    ((hfree (reset_binding s₂)).bind fun _ _ _ => trivial)
  cases ok with
  | false => trivial
  | true =>
    obtain ⟨con, st, n, bs⟩ := s₂
    refine follows_op_sendless trivial fun m => ?_
    rcases st with _ | st
    · trivial
    · rcases m with _ | m
      · trivial
      · refine ⟨Nat.le_refl 1, fun ok _ => ?_⟩
        cases ok with
        | true => trivial
        | false => exact (hfree (logError_binding m)).bind fun _ _ _ => trivial

theorem queryBlob_once (cmd : Bytes) (pData : Option DB_BLOB) :
    (CXEMySql.queryBlob cmd pData).Follows sending.discipline 1 fun _ _ => True := by
  cases pData with
  | none => exact query_once cmd []
  | some d => exact locked_once fun c _ => queryBlobOn_once c cmd d

theorem processTask_once (k : Nat) :
    (CXEMySqlWorker.processTask (some k)).Follows sending.discipline 1 fun _ _ => True := by
  have hrelease : ∀ (_ : Bool) (l : Nat), True →
      (CXEMySql.releaseJob k).Follows sending.discipline l fun _ _ => True :=
    fun _ _ _ => follows_op_sendless trivial fun _ => follows_op_sendless trivial fun _ => trivial
  refine follows_op_sendless trivial fun d => ?_
  cases d with
  | none =>
    refine follows_op_sendless trivial fun szQuery => ?_
    exact (query_once szQuery []).bind hrelease
  | some p =>
    refine follows_op_sendless trivial fun szQuery => follows_op_sendless trivial fun d => ?_
    exact (queryBlob_once szQuery (some d)).bind hrelease

theorem workerProc_once :
    (ThreadPool.workerProc CXEMySql.inPool CXEMySqlWorker.processTask).Follows sending.discipline 0
      fun _ _ => True := by
  refine follows_op_sendless trivial fun idx => follows_op_sendless trivial fun p => ?_
  refine ⟨Nat.zero_le _, fun r _ => ?_⟩
  have hleft : ∀ {α : Type} (a : α) (f : α → Code Bool) (l : Nat), f a = pure false →
      (CXEMySql.inPool (do
        ThreadPool.removeThread idx
        ThreadPool.req .endThread
        pure a) >>= f).Follows sending.discipline l fun _ _ => True := by
    intro α a f l hf
    refine follows_op_sendless trivial fun _ => follows_op_sendless trivial fun _ =>
      follows_op_sendless trivial fun _ => follows_op_sendless trivial fun _ => ?_
    show (f a).Follows sending.discipline l fun _ _ => True
    rw [hf]
    trivial
  cases r with
  | failed => exact hleft none _ _ rfl
  | packet n pkt =>
    cases pkt with
    | exit => exact hleft none _ _ rfl
    | job pWorker pTask =>
      cases pWorker with
      | false => trivial
      | true =>
        cases pTask with
        | none => trivial
        | some k => exact (processTask_once k).bind fun _ _ _ => trivial

theorem start_sendless (nMax : Nat) : (CXEMySql.inPool (ThreadPool.start nMax)).Only Sendless := by
  have hthreads : ∀ n, (CXEMySql.inPool (ThreadPool.startThreads n)).Only Sendless := by
    intro n
    induction n with
    | zero => trivial
    | succ n ih => exact ⟨trivial, fun _ => ⟨trivial, fun _ => ih⟩⟩
  refine ⟨trivial, fun _ => ⟨trivial, fun _ => ⟨trivial, fun _ => ?_⟩⟩⟩
  show (CXEMySql.inPool (ThreadPool.startThreads nMax >>= fun _ =>
    ThreadPool.req .unLock)).Only Sendless
  rw [CXEMySql.inPool, Prog.lift_bind]
  exact Prog.only_bind (hthreads nMax) fun _ => ⟨trivial, fun _ => trivial⟩

theorem stop_sendless : (CXEMySql.inPool ThreadPool.stop).Only Sendless := by
  have hexits : ∀ n, (CXEMySql.inPool (ThreadPool.postExits n)).Only Sendless := by
    intro n
    induction n with
    | zero => trivial
    | succ n ih => exact ⟨trivial, fun _ => ⟨trivial, fun _ => ih⟩⟩
  refine ⟨trivial, fun _ => ⟨trivial, fun nCount => ⟨trivial, fun pThread => ?_⟩⟩⟩
  show (CXEMySql.inPool (ThreadPool.postExits nCount >>= fun _ => do
    ThreadPool.req (.waitForMultipleObjects pThread)
    let p ← ThreadPool.req .getPort
    ThreadPool.req (.closeHandle p)
    ThreadPool.req .unLock)).Only Sendless
  rw [CXEMySql.inPool, Prog.lift_bind]
  exact Prog.only_bind (hexits nCount) fun _ =>
    ⟨trivial, fun _ => ⟨trivial, fun _ => ⟨trivial, fun _ => ⟨trivial, fun _ => trivial⟩⟩⟩⟩

/-- **Every call sends only what it may.** -/
theorem code_once (rt : Runtime) (ok : Tid → Call → Prop) : sending.Thrifty (machine rt) ok := by
  intro t c _
  have hsendless : ∀ {p : Code Bool}, p.Only Sendless →
      p.Follows sending.discipline 0 fun _ _ => True :=
    fun h => (sendless_follows h).mono fun _ _ _ => trivial
  have hsession : ∀ {p : Code Bool}, p.Only OnSession →
      p.Follows sending.discipline 0 fun _ _ => True :=
    fun h => hsendless (h.mono OnSession.sendless)
  show c.code.Follows sending.discipline (sending.atCall c) fun _ _ => True
  cases c with
  | executeQueryNoRet q =>
    cases q with
    | none => exact hsendless ⟨trivial, fun _ => ⟨trivial, fun _ => trivial⟩⟩
    | some q =>
      exact hsendless ⟨trivial, fun _ => ⟨trivial, fun _ => ⟨trivial, fun _ => ⟨trivial, fun _ =>
        trivial⟩⟩⟩⟩
  | selectDB db => exact hsendless (selectDB_only OnSession.sendless (fun _ _ => trivial) db)
  | query cmd args => exact query_once cmd args
  | queryData cmd data args => exact queryData_once cmd data args
  | queryBlob cmd d => exact queryBlob_once cmd d
  | newResult => exact hsendless ⟨trivial, fun _ => trivial⟩
  | deleteResult x =>
    refine hsendless ⟨trivial, fun r => ?_⟩
    cases r with
    | none => exact ⟨trivial, fun _ => trivial⟩
    | some r => exact ⟨trivial, fun _ => ⟨trivial, fun _ => trivial⟩⟩
  | connect c p => exact hsession (connect_session c p)
  | close c => exact hsession (close_session c)
  | reconnect c => exact hsession (reconnect_session c)
  | start n => exact hsendless (Prog.only_bind (start_sendless n) fun _ => trivial)
  | stop => exact hsendless (Prog.only_bind stop_sendless fun _ => trivial)
  | workerProc => exact workerProc_once

/-! ### Which calls take jobs -/

/-- No packet is asked for. -/
def Untaken (e : Op) : Prop := ∀ p, e ≠ .tp (.getQueued p)

theorem Untaken.free (e : Op) (h : Untaken e) :
    taking.cost e = 0 ∧ ∀ r, taking.grants e r = 0 := by
  refine ⟨?_, fun _ => rfl⟩
  cases e with
  | tp e =>
    cases e with
    | getQueued p => exact absurd rfl (h p)
    | _ => rfl
  | _ => rfl

theorem OnDatabase.untaken (e : Op) (h : OnDatabase e) : Untaken e := by
  rintro p rfl
  exact h

theorem Sendless.untaken (e : Op) (h : Sendless e) : Untaken e := by
  rintro p rfl
  exact h

theorem workerProc_takes :
    (ThreadPool.workerProc CXEMySql.inPool CXEMySqlWorker.processTask).Follows taking.discipline 1
      fun _ _ => True := by
  have hfree : ∀ {α : Type} {p : Code α} {l : Nat}, p.Only Untaken →
      p.Follows taking.discipline l fun _ _ => True :=
    fun h => (Budget.follows_free (h.mono Untaken.free)).mono fun _ _ _ => trivial
  refine ⟨Nat.zero_le 1, fun idx _ => ⟨Nat.zero_le 1, fun p _ => ⟨Nat.le_refl 1, fun r _ => ?_⟩⟩⟩
  refine hfree ?_
  rcases r with _ | ⟨n, _ | ⟨pWorker, pTask⟩⟩
  -- without a packet, or with an exit packet, the thread leaves the loop
  · exact ⟨nofun, fun _ => ⟨nofun, fun _ => ⟨nofun, fun _ => ⟨nofun, fun _ => trivial⟩⟩⟩⟩
  · exact ⟨nofun, fun _ => ⟨nofun, fun _ => ⟨nofun, fun _ => ⟨nofun, fun _ => trivial⟩⟩⟩⟩
  · cases pWorker with
    | false => trivial
    | true =>
      have hjob : (CXEMySqlWorker.processTask pTask >>= fun _ => pure true).Only Untaken :=
        Prog.only_bind (processTask_only (fun _ => nofun) OnDatabase.untaken pTask) fun _ => trivial
      exact hjob

/-- **Only `WorkerProc` takes a job.** -/
theorem code_takes (rt : Runtime) (ok : Tid → Call → Prop) : taking.Thrifty (machine rt) ok := by
  intro t c _
  have hfree : ∀ {p : Code Bool}, p.Only Untaken → p.Follows taking.discipline 0 fun _ _ => True :=
    fun h => (Budget.follows_free (h.mono Untaken.free)).mono fun _ _ _ => trivial
  have hdb : ∀ {p : Code Bool}, p.Only OnDatabase →
      p.Follows taking.discipline 0 fun _ _ => True :=
    fun h => hfree (h.mono OnDatabase.untaken)
  have hsession : ∀ e, OnSession e → OnDatabase e :=
    fun e he => OnText.onDatabase e (OnSession.onText e he)
  show c.code.Follows taking.discipline (taking.atCall c) fun _ _ => True
  cases c with
  | executeQueryNoRet q =>
    cases q with
    | none => exact hfree ⟨nofun, fun _ => ⟨nofun, fun _ => trivial⟩⟩
    | some q =>
      exact hfree ⟨nofun, fun _ => ⟨nofun, fun _ => ⟨nofun, fun _ => ⟨nofun, fun _ => trivial⟩⟩⟩⟩
  | selectDB db =>
    exact hfree (selectDB_only (fun e he => OnDatabase.untaken e (hsession e he)) (fun _ _ => nofun) db)
  | query cmd args => exact hdb ((query_text cmd args).mono OnText.onDatabase)
  | queryData cmd data args =>
    exact hfree (queryData_only (fun e he => OnDatabase.untaken e (OnText.onDatabase e he)) cmd
      (fun _ _ _ => nofun) args)
  | queryBlob cmd d => exact hdb (queryBlob_database cmd d)
  | newResult => exact hfree ⟨nofun, fun _ => trivial⟩
  | deleteResult x =>
    refine hfree ⟨nofun, fun r => ?_⟩
    cases r with
    | none => exact ⟨nofun, fun _ => trivial⟩
    | some r => exact ⟨nofun, fun _ => ⟨nofun, fun _ => trivial⟩⟩
  | connect c p => exact hdb ((connect_session c p).mono hsession)
  | close c => exact hdb ((close_session c).mono hsession)
  | reconnect c => exact hdb ((reconnect_session c).mono hsession)
  | start n =>
    exact hfree (Prog.only_bind ((start_sendless n).mono Sendless.untaken) fun _ => trivial)
  | stop => exact hfree (Prog.only_bind (stop_sendless.mono Sendless.untaken) fun _ => trivial)
  | workerProc => exact workerProc_takes

/-- A statement is granted by a packet, so by a request for one. -/
theorem granted_le_taken (l : List (Answer Op Op.Reply)) : sending.granted l ≤ taking.spent l := by
  induction l with
  | nil => exact Nat.le_refl 0
  | cons x l ih =>
    refine Nat.add_le_add ?_ ih
    obtain ⟨e, r⟩ := x
    cases e with
    | tp e =>
      cases e with
      | getQueued p =>
        rcases r with _ | ⟨n, _ | ⟨_ | _, _ | k⟩⟩ <;> first | exact Nat.zero_le 1 | exact Nat.le_refl 1
      | _ => exact Nat.le_refl 0
    | _ => exact Nat.le_refl 0

/--
**A statement is sent once.** In every run, a thread has sent one statement at most in its present
call of `Query`, whatever it has been answered and whether `HandleError` has brought its connection
back; and in its present round of `WorkerProc` no more statements than it has taken jobs, which is
one at most. Other calls take no job and send none.
-/
theorem sent_once {rt : Runtime} {ok : Tid → Call → Prop} {s₀ : State} {s : Sys}
    (h : (machine rt).Reach ok s₀ s) {t : Tid} {c : Call} {p : Code Bool}
    (ht : s.thread t = .running c p) :
    sending.spent (callTrace t s.hist) ≤ sending.atCall c + sending.granted (callTrace t s.hist) ∧
      sending.granted (callTrace t s.hist) ≤ taking.atCall c := by
  refine ⟨Budget.within (code_once rt ok) h ht, (granted_le_taken _).trans ?_⟩
  have htaken := Budget.within (code_takes rt ok) h ht
  have hnone : ∀ l : List (Answer Op Op.Reply), taking.granted l = 0 := by
    intro l
    induction l with
    | nil => rfl
    | cons x l ih => exact (Nat.zero_add _).trans ih
  rwa [hnone] at htaken

/-- A query over a connection that has been lost and brought back. -/
theorem sent_once_lost : ∃ s : Sys, (s.thread (.client 0)).asking =
      some (.query [97] [], .con (.unLock 0)) ∧
    sending.spent (callTrace (.client 0) s.hist) = 1 ∧
    sending.spent (callTrace (.client 0) s.hist) ≤
      1 + sending.granted (callTrace (.client 0) s.hist) ∧
    sending.granted (callTrace (.client 0) s.hist) ≤ 0 := by
  let next : Label Tid Call Outcome := .act (.client 0) {}
  have hrun : ((machine .standard).run
      ([.call (.client 0) (.query [97] []), next, next, next,
        .act (.client 0) { ok := false, number := 2013 }, next, next, next,
        .act (.client 0) { number := 2013 }] ++ List.replicate 6 next)
      (.init (.small 1 0))).map (fun s => ((s.thread (.client 0)).asking,
        sending.spent (callTrace (.client 0) s.hist))) =
      some (some (.query [97] [], .con (.unLock 0)), 1) := by
    decide +kernel
  obtain ⟨s, hs, hl⟩ := Option.map_eq_some_iff.mp hrun
  obtain ⟨hask, hspent⟩ := Prod.mk.inj hl
  have hr : (machine .standard).Reach (fun _ _ => True) (.small 1 0) s :=
    Machine.Reach.init.run (fun _ _ _ _ _ => trivial) hs
  obtain ⟨k, hk⟩ := Thread.asking_eq_some hask
  exact ⟨s, hask, hspent, sent_once hr hk⟩

end XeMySql
