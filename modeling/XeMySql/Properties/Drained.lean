import XeMySql.Pool
import XeMySql.Requests

/-!
# No result is left behind

Three ways of taking the result of a statement from its connection: always, when there are
columns, and by closing the prepared statement. Whichever it is, nothing is left when the
connection is unlocked.

* `code_drains` — the code of every call takes what its statements leave
* `drainedBy_reach` — a pending result belongs to a thread that has yet to take it
* `drained` — so no connection is given back with one, and no command is out of sync
-/

namespace XeMySql

open Interact Hold

/-- The calls that libmysql refuses while a result is pending. -/
def LibOp.isCommand : LibOp → Bool
  | selectDb _ _ => true
  | realQuery _ _ => true
  | stmtPrepare _ _ => true
  | stmtExecute _ => true
  | _ => false

theorem LibOp.onLocked_of_isCommand {e : LibOp} (h : e.isCommand = true) : e.onLocked = true := by
  cases e <;> first | rfl | cases h

/-- The call would be refused as out of sync. -/
def LibMySql.OutOfSync (y : LibMySql) (e : LibOp) : Prop :=
  e.isCommand = true ∧ ∃ h, y.target e = some h ∧ (y.mysql h).pending = true

/-! ## The discipline -/

/-- What a thread may have left on its connection: nothing, the result of a query that it has not
looked at, or that of a prepared statement. -/
inductive Drain where
  | clean
  | query
  | executed
deriving DecidableEq

namespace Drain

/-- With something left, a thread sends no command, and neither unlocks nor replaces the handle. -/
def may (l : Drain) : Op → Prop
  | .con (.unLock _) => l = clean
  | .con (.setMySql _ _) => l = clean
  | .lib e => e.isCommand = true → l = clean
  | _ => True

/-- What is left afterwards. -/
def next (l : Drain) : (e : Op) → e.Reply → Drain
  | .lib (.realQuery _ _), r => if r = true then query else l
  | .lib (.stmtExecute _), r => if r = true then executed else l
  | .lib (.storeResult _), _ => clean
  | .lib (.stmtClose _), _ => clean
  | .lib (.fieldCount _), r => if r = 0 ∧ l = query then clean else l
  | _, _ => l

/-- The discipline. -/
def discipline : Discipline Op Op.Reply Drain := ⟨may, fun _ _ _ => True, next⟩

/-- Requests that leave no result. -/
def Quiet : Op → Prop
  | .lib (.realQuery _ _) => False
  | .lib (.stmtExecute _) => False
  | _ => True

theorem Quiet.may {e : Op} (_ : Quiet e) : discipline.may clean e := by
  cases e with
  | con e => cases e <;> first | rfl | trivial
  | lib e => exact fun _ => rfl
  | _ => trivial

theorem Quiet.next {e : Op} (h : Quiet e) (r : e.Reply) : discipline.next clean e r = clean := by
  cases e with
  | lib e =>
    cases e with
    | realQuery m q => exact h.elim
    | stmtExecute st => exact h.elim
    | fieldCount m => exact if_neg (by simp)
    | _ => rfl
  | _ => rfl

theorem Quiet.of_session {e : Op} (h : OnSession e) : Quiet e := by
  cases e with
  | lib e => cases e <;> trivial
  | _ => trivial

theorem Quiet.of_binding {e : Op} (h : OnBinding e) : Quiet e := by
  cases e with
  | lib e => cases e <;> trivial
  | _ => trivial

/-- Code that makes only such requests. -/
theorem quiet_drains {α : Type} {p : Code α} (h : p.Only Quiet) :
    p.Follows discipline clean fun _ l => l = clean :=
  Prog.Only.follows h (fun _ he => he.may) fun _ he r => he.next r

/-- What a thread has left is what its handle has pending. -/
def Left (l : Drain) (m : MYSQL) : Prop :=
  match l with
  | clean => False
  | query => m.fieldCount ≠ 0
  | executed => True

end Drain

open Drain

/-! ## The functions -/

theorem queryFailed_drains (c m : Nat) (szQuery : Bytes) :
    (CXEMySql.queryFailed c m szQuery).Follows Drain.discipline .clean fun _ l => l = .clean :=
  quiet_drains ((queryFailed_session c m szQuery).mono fun _ h => .of_session h)

theorem binding_drains {α : Type} {p : Code α} (h : p.Only OnBinding) :
    p.Follows Drain.discipline .clean fun _ l => l = .clean :=
  quiet_drains (h.mono fun _ h => .of_binding h)

/-- The first overload stores every result. -/
theorem queryOn_drains (c m : Nat) (cmd : Bytes) (args : List Printf.Arg) :
    (CXEMySql.queryOn c m cmd args).Follows Drain.discipline .clean fun _ l => l = .clean := by
  refine ⟨trivial, fun szQuery _ => ⟨fun _ => rfl, fun ok _ => ?_⟩⟩
  cases ok with
  | false => exact queryFailed_drains c m _
  | true => exact ⟨trivial, fun _ _ => ⟨nofun, fun _ _ => rfl⟩⟩

/-- The second one stores it when there are columns, and otherwise there is none. -/
theorem queryDataOn_drains (c m : Nat) (cmd : Bytes) (data : Option Nat) (args : List Printf.Arg) :
    (CXEMySql.queryDataOn c m cmd data args).Follows Drain.discipline .clean
      fun _ l => l = .clean := by
  refine ⟨trivial, fun szQuery _ => ⟨fun _ => rfl, fun ok _ => ?_⟩⟩
  cases ok with
  | false => exact queryFailed_drains c m _
  | true =>
    refine ⟨trivial, fun _ _ => ⟨nofun, fun nLength _ => ?_⟩⟩
    by_cases hn : 0 < nLength
    · simp only [Prog.bind_ret, hn, if_true]
      refine ⟨nofun, fun res _ => ?_⟩
      cases data with
      | none => exact rfl
      | some x => exact ⟨trivial, fun _ _ => rfl⟩
    · simp only [Prog.bind_ret, hn, if_false]
      exact if_pos ⟨Nat.eq_zero_of_not_pos hn, rfl⟩

/-- `Execute` leaves something only if there is a statement. -/
theorem execute_drains (s : CXEMySqlStmt) :
    s.execute.Follows Drain.discipline .clean
      fun _ l => l = .clean ∨ l = .executed ∧ s.m_pStmt.isSome := by
  obtain ⟨con, st, n, ps⟩ := s
  refine ⟨trivial, fun m _ => ?_⟩
  rcases st with _ | st
  · exact Or.inl rfl
  · rcases m with _ | m
    · exact Or.inl rfl
    · refine ⟨fun _ => rfl, fun ok _ => ?_⟩
      cases ok with
      | true => exact Or.inr ⟨rfl, rfl⟩
      | false =>
        simp only [Prog.bind_ret]
        exact (binding_drains (logError_binding m)).bind fun _ l hl => Or.inl hl

/-- The destructor of a statement takes what executing it has left. -/
theorem reset_drains (s : CXEMySqlStmt) {l : Drain}
    (h : l = .clean ∨ l = .executed ∧ s.m_pStmt.isSome) :
    s.reset.Follows Drain.discipline l fun _ l => l = .clean := by
  rcases h with rfl | ⟨rfl, hs⟩
  · exact binding_drains (reset_binding s)
  · -- the first request closes the statement, and the rest does as it does after any other
    have hreset := reset_binding s
    obtain ⟨con, st, n, ps⟩ := s
    obtain ⟨st, rfl⟩ := Option.isSome_iff_exists.mp hs
    exact ⟨nofun, fun ok _ => binding_drains (hreset.2 ok)⟩

/-- The third overload closes its statement before the connection is unlocked. -/
theorem queryBlobOn_drains (c : Nat) (cmd : Bytes) (pData : DB_BLOB) :
    (CXEMySql.queryBlobOn c cmd pData).Follows Drain.discipline .clean fun _ l => l = .clean := by
  refine (binding_drains (setSQL_binding _ cmd)).bind fun s₁ l₁ h₁ => ?_
  subst h₁
  refine (binding_drains (setParams_binding pData s₁ 0)).bind fun s₂ l₂ h₂ => ?_
  subst h₂
  refine (binding_drains (bindParams_binding s₂)).bind fun ok l₃ h₃ => ?_
  subst h₃
  refine Prog.Follows.bind
    (P := fun _ l => l = .clean ∨ l = .executed ∧ s₂.m_pStmt.isSome) ?_ fun ok l₄ h₄ => ?_
  · cases ok with
    | true => exact execute_drains s₂
    | false => exact Or.inl rfl
  · exact (reset_drains s₂ h₄).bind fun _ _ h₅ => h₅

/-- What is done inside the lock must leave nothing. -/
theorem locked_drains {body : Nat → Nat → Code Bool}
    (hbody : ∀ c m, (body c m).Follows Drain.discipline .clean fun _ l => l = .clean) :
    (CXEMySql.locked body).Follows Drain.discipline .clean fun _ l => l = .clean := by
  refine CXEMySql.follows_locked (P := fun _ _ l => l = .clean) trivial rfl (fun _ => trivial)
    (fun c m => ?_) ?_
  · cases m with
    | none => exact rfl
    | some m => exact hbody c m
  · rintro c a l rfl
    exact ⟨rfl, fun _ => rfl⟩

theorem query_drains (cmd : Bytes) (args : List Printf.Arg) :
    (CXEMySql.query cmd args).Follows Drain.discipline .clean fun _ l => l = .clean :=
  locked_drains fun c m => queryOn_drains c m cmd args

theorem queryBlob_drains (cmd : Bytes) (pData : Option DB_BLOB) :
    (CXEMySql.queryBlob cmd pData).Follows Drain.discipline .clean fun _ l => l = .clean := by
  cases pData with
  | none => exact query_drains cmd []
  | some d =>
    exact locked_drains fun c _ => queryBlobOn_drains c cmd d

theorem processTask_drains (pTask : Option Nat) :
    (CXEMySqlWorker.processTask pTask).Follows Drain.discipline .clean fun _ l => l = .clean := by
  have hrelease : ∀ k l, l = Drain.clean →
      (CXEMySql.releaseJob k).Follows Drain.discipline l fun _ l => l = .clean :=
    fun k l hl => ⟨trivial, fun _ _ => ⟨trivial, fun _ _ => hl⟩⟩
  cases pTask with
  | none => exact rfl
  | some k =>
    refine ⟨trivial, fun d _ => ?_⟩
    cases d with
    | none =>
      refine ⟨trivial, fun szQuery _ => ?_⟩
      exact (query_drains szQuery []).bind fun _ l hl => hrelease k l hl
    | some p =>
      refine ⟨trivial, fun szQuery _ => ⟨trivial, fun d _ => ?_⟩⟩
      exact (queryBlob_drains szQuery (some d)).bind fun _ l hl => hrelease k l hl

/-- **Every call takes what its statements leave**, whatever the library answers. -/
theorem code_drains (c : Call) :
    c.code.Follows Drain.discipline .clean fun _ l => l = .clean := by
  have hpool : ∀ {α : Type} (p : ThreadPool.Code Nat α), (CXEMySql.inPool p).Only Quiet :=
    fun p => Prog.only_lift (fun _ => trivial) p
  cases c with
  | executeQueryNoRet q =>
    refine quiet_drains (Prog.only_bind ?_ fun _ => trivial)
    exact (executeQueryNoRet_apart q).mono fun e he => by
      cases e with
      | lib e => cases e <;> trivial
      | _ => trivial
  | selectDB db => exact quiet_drains (selectDB_only (fun _ h => .of_session h) (fun _ _ => trivial) db)
  | query cmd args => exact query_drains cmd args
  | queryData cmd data args =>
    exact locked_drains fun c m => queryDataOn_drains c m cmd data args
  | queryBlob cmd d => exact queryBlob_drains cmd d
  | newResult => exact ⟨trivial, fun _ _ => rfl⟩
  | deleteResult x =>
    refine ⟨trivial, fun r _ => ?_⟩
    cases r with
    | none => exact ⟨trivial, fun _ _ => rfl⟩
    | some r => exact ⟨nofun, fun _ _ => ⟨trivial, fun _ _ => rfl⟩⟩
  | connect c p => exact quiet_drains ((connect_session c p).mono fun _ h => .of_session h)
  | close c => exact quiet_drains ((close_session c).mono fun _ h => .of_session h)
  | reconnect c => exact quiet_drains ((reconnect_session c).mono fun _ h => .of_session h)
  | start n => exact quiet_drains (Prog.only_bind (hpool _) fun _ => trivial)
  | stop => exact quiet_drains (Prog.only_bind (hpool _) fun _ => trivial)
  | workerProc =>
    refine (quiet_drains (hpool _)).bind ?_
    rintro r l rfl
    rcases r with _ | ⟨pWorker, pTask⟩
    · exact rfl
    · cases pWorker with
      | false => exact rfl
      | true => exact (processTask_drains pTask).bind fun _ _ hl => hl

/-! ## What the library does meanwhile -/

/-- The calls that leave a result or take one, and the one that tells which. -/
def LibOp.onResult : LibOp → Bool
  | realQuery _ _ => true
  | storeResult _ => true
  | fieldCount _ => true
  | stmtExecute _ => true
  | stmtClose _ => true
  | _ => false

/-- Other calls do not change what a thread has left. -/
theorem Drain.next_lib {l : Drain} {e : LibOp} (he : e.onResult = false) (r : e.Reply) :
    l.next (.lib e) r = l := by
  cases e <;> first | rfl | cases he

theorem LibOp.onLocked_of_onResult {e : LibOp} (h : e.onResult = true) : e.onLocked = true := by
  cases e <;> first | rfl | cases h

namespace LibMySql

variable {y : LibMySql} {e : LibOp} {o : Outcome} {h : Nat}

/-- A command refused or failed leaves what was pending; one that succeeds, what it is said to. -/
theorem command_pending (y : LibMySql) (h : Nat) (o : Outcome) (done : MYSQL) :
    ((y.command h o done).2 = true ∧ (y.mysql h).pending = false ∧
        (y.command h o done).1.mysql h = { done with errno := 0 }) ∨
      (y.command h o done).2 = false ∧
        ((y.command h o done).1.mysql h).pending = (y.mysql h).pending ∧
        ((y.command h o done).1.mysql h).fieldCount = (y.mysql h).fieldCount := by
  unfold command
  cases hp : (y.mysql h).pending with
  | true =>
    refine Or.inr ⟨rfl, ?_, ?_⟩
    · rw [if_pos rfl, withMysql_self]
      exact hp
    · rw [if_pos rfl, withMysql_self]
  | false =>
    by_cases ho : o.ok = true
    · rw [if_neg nofun, if_pos ho]
      exact Or.inl ⟨rfl, rfl, withMysql_self ..⟩
    · rw [if_neg nofun, if_neg ho]
      refine Or.inr ⟨rfl, ?_, ?_⟩
      · rw [withMysql_self]
        exact hp
      · rw [withMysql_self]

/-- If something is pending after a command that was in order, then the command has left it. -/
theorem command_left {done : MYSQL} (hc : (y.mysql h).pending = false)
    (hp : ((y.command h o done).1.mysql h).pending = true) :
    (y.command h o done).2 = true ∧ (y.command h o done).1.mysql h = { done with errno := 0 } := by
  rcases y.command_pending h o done with ⟨hr, -, hd⟩ | ⟨-, hd, -⟩
  · exact ⟨hr, hd⟩
  · rw [hd, hc] at hp
    cases hp

/-- Calls that have nothing to do with results leave them where they are. -/
theorem exec_pending (he : e.onResult = false) (hlt : h < y.handles) :
    ((y.exec e o).1.mysql h).pending = (y.mysql h).pending ∧
      ((y.exec e o).1.mysql h).fieldCount = (y.mysql h).fieldCount := by
  by_cases ht : y.target e = some h
  · have hsame : ∀ m : MYSQL, m.pending = (y.mysql h).pending → m.fieldCount = (y.mysql h).fieldCount →
        ((y.withMysql h m).mysql h).pending = (y.mysql h).pending ∧
          ((y.withMysql h m).mysql h).fieldCount = (y.mysql h).fieldCount := by
      intro m hp hf
      rw [withMysql_self]
      exact ⟨hp, hf⟩
    have hcommand : ∀ m : MYSQL, m.pending = (y.mysql h).pending →
        m.fieldCount = (y.mysql h).fieldCount →
        ((y.command h o m).1.mysql h).pending = (y.mysql h).pending ∧
          ((y.command h o m).1.mysql h).fieldCount = (y.mysql h).fieldCount := by
      intro m hp hf
      rcases y.command_pending h o m with ⟨-, -, hd⟩ | ⟨-, hd⟩
      · rw [hd]
        exact ⟨hp, hf⟩
      · exact hd
    cases e with
    | realConnect m p =>
      cases ht
      simp only [exec]
      split <;> exact hsame _ rfl rfl
    | setCharsetName m n =>
      cases ht
      simp only [exec]
      split
      · exact hsame _ rfl rfl
      · exact ⟨rfl, rfl⟩
    | setReconnect m =>
      cases ht
      simp only [exec]
      split
      · exact hsame _ rfl rfl
      · exact ⟨rfl, rfl⟩
    | selectDb m db =>
      cases ht
      exact hcommand _ rfl rfl
    | stmtPrepare st q =>
      cases ht
      simp only [exec]
      split <;> exact hcommand _ rfl rfl
    | stmtInit m =>
      simp only [exec]
      split <;> exact ⟨rfl, rfl⟩
    | init => cases ht
    | freeResult r => cases ht
    | realQuery m q => cases he
    | storeResult m => cases he
    | fieldCount m => cases he
    | stmtExecute st => cases he
    | stmtClose st => cases he
    | _ => exact ⟨rfl, rfl⟩
  · rw [exec_of_ne ht hlt]
    exact ⟨rfl, rfl⟩

/-- **What a call leaves on its handle**, its thread knows it has left. -/
theorem exec_left {l : Drain} (ht : y.target e = some h) (hlt : h < y.handles)
    (hm : l.may (.lib e)) (hl : (y.mysql h).pending = true → l.Left (y.mysql h))
    (hp : ((y.exec e o).1.mysql h).pending = true) :
    (l.next (.lib e) (y.exec e o).2).Left ((y.exec e o).1.mysql h) := by
  have hclean : l = .clean → (y.mysql h).pending = false := by
    rintro rfl
    exact Bool.eq_false_iff.mpr fun h => hl h
  by_cases he : e.onResult = false
  · obtain ⟨hpend, hcount⟩ := exec_pending (o := o) he hlt
    rw [hpend] at hp
    have hleft := hl hp
    rw [Drain.next_lib he]
    unfold Drain.Left at hleft ⊢
    rwa [hcount]
  cases e with
  | realQuery m q =>
    cases ht
    obtain ⟨hr, hd⟩ := command_left (hclean (hm rfl)) hp
    simp only [exec, Drain.next, hr, if_true]
    simp only [exec, hd, bne_iff_ne] at hp ⊢
    exact hp
  | storeResult m =>
    cases ht
    simp only [exec] at hp
    split at hp
    · split at hp <;> simp at hp
    · next hn => exact absurd hp hn
  | fieldCount m =>
    cases ht
    have hleft := hl hp
    cases l with
    | clean => exact hleft.elim
    | query =>
      have hn : ¬ ((y.mysql h).fieldCount = 0 ∧ Drain.query = .query) := fun hz => hleft hz.1
      show (if (y.mysql h).fieldCount = 0 ∧ Drain.query = .query then Drain.clean else .query).Left _
      rw [if_neg hn]
      exact hleft
    | executed =>
      simp only [exec, Drain.next, reduceCtorEq, and_false, if_false]
      trivial
  | stmtExecute st =>
    cases ht
    simp only [exec] at hp ⊢
    split at hp
    · next hprep =>
      rw [if_pos hprep]
      obtain ⟨hr, -⟩ := command_left (hclean (hm rfl)) hp
      simp only [Drain.next, hr, if_true]
      trivial
    · rw [hclean (hm rfl)] at hp
      cases hp
  | stmtClose st =>
    cases ht
    simp [exec] at hp
  | _ => exact absurd rfl he

end LibMySql

/-! ## Runs -/

/-- What a thread has left after a history. -/
abbrev drainView (h : List Ev) : Tid → Drain :=
  Drain.discipline.view .clean (fun _ _ => .clean) h

/-- A pending result of a pooled connection was left by the thread that has locked it, and the new
handle of a `Reconnect` has none. -/
structure DrainedBy (x : Cons) (y : LibMySql) (v : Tid → Hold) (d : Tid → Drain) : Prop where
  pooled : ∀ c h, (x.con c).m_pMySql = some h → (y.mysql h).pending = true →
    ∃ t, (v t).con = some c ∧ (d t).Left (y.mysql h)
  temp : ∀ t h, (v t).temp = some h → (y.mysql h).pending = false

/-- No handle of the pool has a result pending. -/
def NothingPending (s : State) : Prop :=
  ∀ c h, (s.cons.con c).m_pMySql = some h → (s.lib.mysql h).pending = false

section

variable {x x' : Cons} {y : LibMySql} {v : Tid → Hold} {d : Tid → Drain} {t : Tid}

/-- What is left on a connection, only its own thread can have left. -/
theorem DrainedBy.clean (h : DrainedBy x y v d) (hI : Inv x y v) {c m : Nat}
    (ht : (v t).con = some c) (hm : (x.con c).m_pMySql = some m) (hd : d t = .clean) :
    (y.mysql m).pending = false := by
  by_contra hp
  obtain ⟨u, hu, hleft⟩ := h.pooled c m hm (Bool.not_eq_false _ ▸ hp)
  obtain rfl := hI.unique hu ht
  rw [hd] at hleft
  exact hleft

/-- A thread that has left nothing on its connection comes to hold another one, or none. -/
theorem DrainedBy.relock (h : DrainedBy x y v d) {l : Hold}
    (hd : ∀ c, (v t).con = some c → d t = .clean)
    (hx : ∀ c, (x'.con c).m_pMySql = (x.con c).m_pMySql) (hl : l.temp = none) :
    DrainedBy x' y (Function.update v t l) d where
  pooled c m hm hp := by
    rw [hx] at hm
    obtain ⟨u, hu, hleft⟩ := h.pooled c m hm hp
    have hne : u ≠ t := by
      rintro rfl
      rw [hd c hu] at hleft
      exact hleft
    exact ⟨u, by rwa [Function.update_of_ne hne], hleft⟩
  temp u m hm := by
    by_cases hu : u = t
    · subst hu
      rw [Function.update_self, hl] at hm
      cases hm
    · rw [Function.update_of_ne hu] at hm
      exact h.temp u m hm

/-- A thread learns something, of the same connection and the same new handle. -/
theorem DrainedBy.learn (h : DrainedBy x y v d) {l : Hold} (hcon : l.con = (v t).con)
    (htemp : l.temp = (v t).temp) : DrainedBy x y (Function.update v t l) d where
  pooled c m hm hp := by
    obtain ⟨u, hu, hleft⟩ := h.pooled c m hm hp
    refine ⟨u, ?_, hleft⟩
    by_cases he : u = t
    · rw [he, Function.update_self, hcon, ← he]
      exact hu
    · rwa [Function.update_of_ne he]
  temp u m hm := by
    by_cases he : u = t
    · rw [he, Function.update_self, htemp, ← he] at hm
      exact h.temp u m hm
    · rw [Function.update_of_ne he] at hm
      exact h.temp u m hm

/-- After a call of the library, the new handle is the old one, or was made by this call. -/
theorem Hold.next_temp {l : Hold} {e : LibOp} {o : Outcome} {m : Nat}
    (h : (l.next (.lib e) (y.exec e o).2).temp = some m) :
    l.temp = some m ∨ e = .init ∧ (y.exec e o).1.mysql m = {} := by
  cases e with
  | init =>
    simp only [next, LibMySql.exec] at h ⊢
    split at h
    · next ho =>
      cases h
      rw [if_pos ho]
      exact Or.inr ⟨trivial, LibMySql.withMysql_self ..⟩
    · cases h
  | realConnect m' p =>
    simp only [next] at h
    split at h <;> exact Or.inl h
  | close m' =>
    simp only [next] at h
    split at h
    · cases h
    · exact Or.inl h
  | _ => exact Or.inl h

/-- A call of the library. -/
theorem DrainedBy.lib (h : DrainedBy x y v d) (hI : Inv x y v) {e : LibOp} {o : Outcome}
    (hm : (v t).may (.lib e)) (hd : (d t).may (.lib e)) :
    DrainedBy x (y.exec e o).1
      (Function.update v t ((v t).next (.lib e) (y.exec e o).2))
      (Function.update d t ((d t).next (.lib e) (y.exec e o).2)) := by
  have onLocked : ¬ e.onResult = false → e.onLocked = true :=
    fun he => LibOp.onLocked_of_onResult (Bool.not_eq_false _ ▸ he)
  refine ⟨fun c m hc hp => ?_, fun u m hu => ?_⟩
  · have hlt := hI.fresh c m hc
    have hnext := (next_con (l := v t) (e := .lib e) (r := (y.exec e o).2) nofun nofun).1
    by_cases htarget : y.target e = some m
    · have hcon := hI.con_of_target hm htarget hc
      refine ⟨t, ?_, ?_⟩
      · rw [Function.update_self, hnext, hcon]
      · rw [Function.update_self]
        refine LibMySql.exec_left htarget hlt hd (fun hp => ?_) hp
        obtain ⟨u, hu, hleft⟩ := h.pooled c m hc hp
        rwa [hI.unique hcon hu]
    · rw [LibMySql.exec_of_ne htarget hlt] at hp ⊢
      obtain ⟨u, hu, hleft⟩ := h.pooled c m hc hp
      refine ⟨u, ?_⟩
      by_cases hut : u = t
      · subst hut
        have he : e.onResult = false := by
          by_contra he
          obtain ⟨c', m', hc', hm', hh⟩ := hI.works_on hm (onLocked he)
          rw [hu, Option.some.injEq] at hc'
          rw [← hc', hc, Option.some.injEq] at hh
          exact htarget (hh ▸ hm')
        rw [Function.update_self, Function.update_self, hnext, Drain.next_lib he]
        exact ⟨hu, hleft⟩
      · rw [Function.update_of_ne hut, Function.update_of_ne hut]
        exact ⟨hu, hleft⟩
  · have hold : (v u).temp = some m → ((y.exec e o).1.mysql m).pending = false := by
      intro hu
      obtain ⟨-, hlt, hne⟩ := (hI.knows u).temp m hu
      by_cases he : e.onResult = false
      · rw [(LibMySql.exec_pending he hlt).1]
        exact h.temp u m hu
      · -- a call on a result is not on the new handle
        obtain ⟨c, m', -, hm', hh⟩ := hI.works_on hm (onLocked he)
        have htarget : y.target e ≠ some m := by
          rw [hm', ne_eq, Option.some.injEq]
          rintro rfl
          exact hne c hh
        rw [LibMySql.exec_of_ne htarget hlt]
        exact h.temp u m hu
    by_cases hut : u = t
    · subst hut
      rw [Function.update_self] at hu
      rcases Hold.next_temp hu with hu | ⟨-, hu⟩
      · exact hold hu
      · rw [hu]
    · rw [Function.update_of_ne hut] at hu
      exact hold hu

/-- `Reconnect` puts the new handle in the place of the old one, on which nothing is left. -/
theorem DrainedBy.swap (h : DrainedBy x y v d) {c m : Nat}
    (hcon : (v t).con = some c) (htemp : (v t).temp = some m) {l : Hold} (hl : l.temp = none) :
    DrainedBy (x.withCon c { x.con c with m_pMySql := some m }) y (Function.update v t l) d where
  pooled c' m' hm hp := by
    by_cases hc : c' = c
    · subst hc
      rw [Cons.withCon_self] at hm
      cases hm
      rw [h.temp t m htemp] at hp
      cases hp
    · rw [Cons.withCon_of_ne hc] at hm
      obtain ⟨u, hu, hleft⟩ := h.pooled c' m' hm hp
      have hne : u ≠ t := by
        rintro rfl
        rw [hcon, Option.some.injEq] at hu
        exact hc hu.symm
      exact ⟨u, by rwa [Function.update_of_ne hne], hleft⟩
  temp u m' hm := by
    by_cases hu : u = t
    · subst hu
      rw [Function.update_self, hl] at hm
      cases hm
    · rw [Function.update_of_ne hu] at hm
      exact h.temp u m' hm

/-- A request on connections. -/
theorem DrainedBy.con (h : DrainedBy x y v d) (hI : Inv x y v) {e : ConOp} {r : e.Reply}
    (hm : (v t).may (.con e)) (hd : (d t).may (.con e)) (he : x.exec t e = some (x', some r)) :
    DrainedBy x' y (Function.update v t ((v t).next (.con e) r)) d := by
  cases e with
  | getFreeCon =>
    obtain ⟨hcon, -⟩ := hm
    refine h.relock (fun c hc => ?_) (fun _ => Cons.exec_mysql he nofun) ?_
    · rw [hcon] at hc
      cases hc
    · exact ((hI.knows t).nothing hcon).2.2.2
  | unLock c => exact h.relock (fun _ _ => hd) (fun _ => Cons.exec_mysql he nofun) rfl
  | getMySql c =>
    cases he
    exact h.learn rfl rfl
  | getParams c =>
    cases he
    exact h.learn rfl rfl
  | setMySql c m =>
    cases he
    obtain ⟨hcon, htemp, hsome, -⟩ := hm
    obtain ⟨m, rfl⟩ := Option.isSome_iff_exists.mp hsome
    exact h.swap hcon htemp rfl
  | setParams c p => exact hm.elim

/-- Who has no connection and has left nothing can forget both. -/
theorem DrainedBy.idle (h : DrainedBy x y v d) (hcon : (v t).con = none) (hclean : d t = .clean) :
    DrainedBy x y (Function.update v t {}) (Function.update d t .clean) := by
  rw [← hclean, Function.update_eq_self]
  refine h.relock (fun c hc => ?_) (fun _ => rfl) rfl
  rw [hcon] at hc
  cases hc

end

theorem drain_kept (rt : Runtime) (s₀ : State) :
    (machine rt).Kept okPool s₀ Drain.discipline .clean (fun _ _ => .clean)
      (fun _ _ l => l = .clean) fun _ _ => True where
  code _ c _ := code_drains c
  init := trivial
  call _ _ _ _ _ _ _ _ := trivial
  wait _ _ _ _ _ _ _ _ _ := trivial
  reply _ _ _ _ _ _ _ _ _ _ := ⟨trivial, trivial⟩
  done _ _ _ _ _ _ _ := trivial

section

variable {rt : Runtime} {s₀ : State} {s : Sys}

/-- **Who has left what.** In every reachable state, what is pending on a pooled connection was
left by the thread that has locked it, and that thread has yet to take it. -/
theorem drainedBy_reach (h₀ : PoolOk s₀) (hp : NothingPending s₀)
    (h : (machine rt).Reach okPool s₀ s) :
    DrainedBy s.shared.cons s.shared.lib (holdView s.hist) (drainView s.hist) := by
  induction h with
  | init =>
    refine ⟨fun c m hm hpend => ?_, fun _ _ hm => nomatch hm⟩
    have hnone : (s₀.lib.mysql m).pending = false := hp c m hm
    exact absurd hpend (Bool.eq_false_iff.mp hnone)
  | @step s s' l hr hl hs ih =>
    have H := hold_kept rt h₀
    have D := drain_kept rt s₀
    obtain ⟨hI, -⟩ := H.holds hr
    cases Machine.step_cases hs with
    | @call t c ht hc =>
      have hidle : ∀ c p, s.thread t ≠ .running c p := by simp [ht]
      have hv : holdView s.hist t = {} := H.view_idle hr hidle
      rw [holdView, drainView, Discipline.view_call, Discipline.view_call]
      exact ih.idle (by rw [hv]) (D.view_idle hr hidle)
    | @wait t o c e k sh ht he =>
      obtain ⟨i, rfl⟩ := exec_wait he
      exact ⟨ih.pooled, ih.temp⟩
    | @reply t o c e k sh r ht he =>
      have hm : (holdView s.hist t).may e := H.may hr ht
      have hd : (drainView s.hist t).may e := D.may hr ht
      have he : exec rt t e o s.shared = some (sh, some r) := he
      rw [holdView, drainView, Discipline.view_reply, Discipline.view_reply]
      have hother : (holdView s.hist t).next e r = holdView s.hist t →
          (drainView s.hist t).next e r = drainView s.hist t →
          DrainedBy s.shared.cons s.shared.lib
            (Function.update (holdView s.hist) t ((holdView s.hist t).next e r))
            (Function.update (drainView s.hist) t ((drainView s.hist t).next e r)) := by
        intro h1 h2
        rw [h1, h2, Function.update_eq_self, Function.update_eq_self]
        exact ih
      cases e with
      | lib e =>
        obtain ⟨rfl, hr⟩ := exec_lib he
        cases hr
        exact ih.lib hI hm hd
      | con e =>
        obtain ⟨x, hx, rfl⟩ := exec_con he
        show DrainedBy x _ _ (Function.update (drainView s.hist) t (drainView s.hist t))
        rw [Function.update_eq_self]
        exact ih.con hI hm hd hx
      | tp e =>
        obtain ⟨_, -, rfl⟩ := exec_tp he
        exact hother rfl rfl
      | task e =>
        obtain ⟨_, -, rfl⟩ := exec_task he
        exact hother rfl rfl
      | res e =>
        obtain ⟨_, -, rfl⟩ := exec_res he
        exact hother rfl rfl
      | rt e =>
        obtain ⟨_, -, rfl⟩ := exec_rt he
        exact hother rfl rfl
    | @done t o c a ht =>
      rw [holdView, drainView, Discipline.view_done, Discipline.view_done]
      exact ih.idle (H.atReturn hr ht) (D.atReturn hr ht)

/-- A connection is given back with nothing pending, and so it stays until it is locked again; and
no command is sent that the library would refuse as out of sync. -/
structure Drained (s : Sys) : Prop where
  unlocking : ∀ t call c h, (s.thread t).asking = some (call, .con (.unLock c)) →
    (s.shared.cons.con c).m_pMySql = some h → (s.shared.lib.mysql h).pending = false
  unlocked : ∀ c h, (s.shared.cons.con c).cs = .free →
    (s.shared.cons.con c).m_pMySql = some h → (s.shared.lib.mysql h).pending = false
  inSync : ∀ t call e, (s.thread t).asking = some (call, .lib e) → ¬ s.shared.lib.OutOfSync e

/-- **A released connection is ready for the next command**, in every run of a pool, whatever the
library answers. -/
theorem drained (h₀ : PoolOk s₀) (hp : NothingPending s₀) (h : (machine rt).Reach okPool s₀ s) :
    Drained s := by
  have H := hold_kept rt h₀
  have D := drain_kept rt s₀
  obtain ⟨hI, -⟩ := H.holds h
  have hdrain := drainedBy_reach h₀ hp h
  refine ⟨fun t call c m hask hm => ?_, fun c m hfree hm => ?_, ?_⟩
  · obtain ⟨k, ht⟩ := Thread.asking_eq_some hask
    exact hdrain.clean hI (H.may h ht).1 hm (D.may h ht)
  · by_contra hpend
    obtain ⟨t, ht, -⟩ := hdrain.pooled c m hm (Bool.not_eq_false _ ▸ hpend)
    rw [(hI.lock t c).mp ht] at hfree
    cases hfree
  · rintro t call e hask ⟨hcmd, m, htarget, hpend⟩
    obtain ⟨k, ht⟩ := Thread.asking_eq_some hask
    obtain ⟨c, m', hcon, htarget', hm⟩ := hI.works_on (H.may h ht)
      (LibOp.onLocked_of_isCommand hcmd)
    rw [htarget] at htarget'
    cases htarget'
    rw [hdrain.clean hI hcon hm (D.may h ht hcmd)] at hpend
    cases hpend

end

/-- A query with columns, up to where the connection is unlocked, and what is said of it. -/
theorem drained_after_query : ∃ s, (machine .standard).Reach okPool (.small 1 0) s ∧
    (s.thread (.client 0)).asking = some (.query [113] [], .con (.unLock 0)) ∧
    s.shared.lib.results = 1 ∧ Drained s := by
  obtain ⟨ls, hls⟩ : ∃ ls : List (Label Tid Call Outcome), ls =
      .call (.client 0) (.query [113] []) :: List.replicate 6
        (.act (.client 0) { ok := true, number := 2 }) := ⟨_, rfl⟩
  have hrun : ((machine .standard).run ls (.init (.small 1 0))).map
      (fun s => ((s.thread (.client 0)).asking, s.shared.lib.results))
      = some (some (.query [113] [], .con (.unLock 0)), 1) := by
    rw [hls]
    decide
  obtain ⟨s, hs, hask⟩ := Option.map_eq_some_iff.mp hrun
  obtain ⟨hask, hresults⟩ := Prod.mk.inj hask
  have hreach : (machine .standard).Reach okPool (.small 1 0) s :=
    Machine.Reach.init.run (by simp [hls, Machine.Allowed, Call.usesPool]) hs
  exact ⟨s, hreach, hask, hresults,
    drained (poolOk_started 1 0 0 0 _) (fun _ _ _ => rfl) hreach⟩

end XeMySql
