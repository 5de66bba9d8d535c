import XeMySql.System
import XeMySql.Lib.Sequence

/-!
# The three overloads of `Query`

The same command can be sent for a `MYSQL_RES`, for a `CXEMySqlResult` or with a blob. Whether this
makes a difference is seen by running all three from one state, when the server does the same.

* `Finds.unique` — all three find the same connection
* `query_served`, `queryData_served`, `queryBlob_served` — what they return, and whether they
  reconnect
* `overloads_agree_iff` — when there is no difference
* `accepted_differs` — a command that is accepted
-/

namespace XeMySql

open Interact

/-! ## What the server does -/

/-- A command is accepted, with a result of so many columns or none, or it is refused with an error: a
prepared statement then when it is prepared or when it is executed. `reconnects` says whether a new
connection can be made. -/
inductive Scenario where
  | accepted (columns : Nat)
  | refused (errorNumber : Nat) (atPrepare : Bool) (reconnects : Bool)
deriving DecidableEq

namespace Scenario

/-- The command is sent. -/
def command (o : Outcome) : Scenario → Outcome
  | accepted n => { o with ok := true, number := n }
  | refused e _ _ => { o with ok := false, number := e }

/-- The command, which has no parameters, is prepared. -/
def prepare (o : Outcome) : Scenario → Outcome
  | refused e true _ => { o with ok := false, number := e }
  | _ => { o with ok := true, number := 0 }

/-- A new connection can be made. -/
def reconnects : Scenario → Bool
  | accepted _ => false
  | refused _ _ r => r

/-- The outcome of a request. What is no business of the server succeeds. -/
def outcome (v : Scenario) (o : Outcome) : Op → Outcome
  | .lib (.realQuery _ _) => v.command o
  | .lib (.stmtPrepare _ _) => v.prepare o
  | .lib (.stmtExecute _) => v.command o
  | .lib (.realConnect _ _) => { o with ok := v.reconnects }
  | _ => { o with ok := true }

/-- Carry out a request of thread `t`. -/
def exec (v : Scenario) (rt : Runtime) (t : Tid) (e : Op) (o : Outcome) (s : State) :
    Option (State × Option e.Reply) := XeMySql.exec rt t e (v.outcome o e) s

/-- What a command comes to on handle `m`: while a result is unread it is refused as out of sync. -/
def on (v : Scenario) (m : MYSQL) : Scenario :=
  if m.pending then .refused LibMySql.outOfSync true v.reconnects else v

/-- The command is accepted. -/
def accepts : Scenario → Bool
  | accepted _ => true
  | refused _ _ _ => false

/-- The connection is lost and restored. -/
def restored : Scenario → Bool
  | accepted _ => false
  | refused e _ r => CXEMySql.isLost e && r

/-- What the overload for a `MYSQL_RES` returns, and whether it reconnects. -/
def text (v : Scenario) : Bool × Bool := (v.accepts || v.restored, v.restored)

/-- The overload for a `CXEMySqlResult`. -/
def data (v : Scenario) : Bool × Bool := (v.restored, v.restored)

/-- The overload with a blob. -/
def blob (v : Scenario) : Bool × Bool := (v.accepts, false)

/-- The three are the same when the command is refused for good. -/
theorem same_iff (v : Scenario) :
    v.text = v.data ∧ v.data = v.blob ↔ v.accepts = false ∧ v.restored = false := by
  unfold text data blob
  cases v.accepts <;> cases v.restored <;> decide

end Scenario

/-- An answer to the storing of a handle. -/
def Answer.stores : Answer Op Op.Reply → Bool
  | ⟨.con (.setMySql _ _), _⟩ => true
  | _ => false

/-- The connection has been given a new handle. -/
def reconnected (l : List (Answer Op Op.Reply)) : Bool := l.any Answer.stores

/-! ## The connection that is found -/

/-- `GetFreeCon` of thread `t`, round after round, ends with `r`. -/
inductive Finds (t : Tid) : Cons → Option Nat → Cons → Prop
  | now {x r x'} (h : x.exec t .getFreeCon = some (x', some r)) : Finds t x r x'
  | later {x x₁ r x'} (h : x.exec t .getFreeCon = some (x₁, none)) (hf : Finds t x₁ r x') :
    Finds t x r x'

/-- It finds one connection only. -/
theorem Finds.unique {t : Tid} {x x₁ x₂ : Cons} {r₁ r₂ : Option Nat} (h₁ : Finds t x r₁ x₁)
    (h₂ : Finds t x r₂ x₂) : r₁ = r₂ := by
  induction h₁ with
  | now h =>
    cases h₂ with
    | now h' =>
      rw [h] at h'
      cases h'
      rfl
    | later h' _ =>
      rw [h] at h'
      cases h'
  | later h _ ih =>
    cases h₂ with
    | now h' =>
      rw [h] at h'
      cases h'
    | later h' hf =>
      rw [h] at h'
      cases h'
      exact ih hf

/-- The handles stay where they are. -/
theorem Finds.mysql {t : Tid} {x x' : Cons} {r : Option Nat} (h : Finds t x r x') (c : Nat) :
    (x'.con c).m_pMySql = (x.con c).m_pMySql := by
  induction h with
  | now h => exact Cons.exec_mysql h nofun
  | later h _ ih => exact ih.trans (Cons.exec_mysql h nofun)

/-! ## Requests in a scenario -/

section

variable {v : Scenario} {rt : Runtime} {t : Tid} {s : State} {l : List (Answer Op Op.Reply)}
  {α : Type} {Q : α → State → List (Answer Op Op.Reply) → Prop}

/-- A call of the library. -/
theorem served_lib {e : LibOp} {k : e.Reply → Code α}
    (h : ∀ o y r, s.lib.exec e (v.outcome o (.lib e)) = (y, r) →
      (k r).Always (v.exec rt t) { s with lib := y } (⟨.lib e, r⟩ :: l) Q) :
    (Prog.op (.lib e) k : Code α).Always (v.exec rt t) s l Q := by
  refine Prog.always_op (fun o s₁ he => nomatch (exec_lib he).2) fun o s₁ r he => ?_
  obtain ⟨rfl, hr⟩ := exec_lib he
  cases hr
  exact h o _ _ rfl

/-- An access to a connection that is answered at once. -/
theorem served_con {e : ConOp} {k : e.Reply → Code α} {x : Cons} {r : e.Reply}
    (hx : s.cons.exec t e = some (x, some r))
    (h : (k r).Always (v.exec rt t) { s with cons := x } (⟨.con e, r⟩ :: l) Q) :
    (Prog.op (.con e) k : Code α).Always (v.exec rt t) s l Q := by
  refine Prog.always_op (fun o s₁ he => nomatch (exec_con_eq hx he).2) fun o s₁ r' he => ?_
  obtain ⟨rfl, hr⟩ := exec_con_eq hx he
  cases hr
  exact h

/-- A call of the runtime or the log. -/
theorem served_rt {e : RtOp} {k : e.Reply → Code α}
    (h : ∀ heap r, (k r).Always (v.exec rt t) { s with heap := heap } (⟨.rt e, r⟩ :: l) Q) :
    (Prog.op (.rt e) k : Code α).Always (v.exec rt t) s l Q := by
  refine Prog.always_op (fun o s₁ he => ?_) fun o s₁ r he => ?_
  · obtain ⟨heap, hx, -⟩ := exec_rt he
    exact RtOp.exec_answers hx
  · obtain ⟨heap, hx, rfl⟩ := exec_rt he
    exact h heap r

/-- A command on handle `h` is accepted or refused. -/
theorem served_command {y y' : LibMySql} {h : Nat} {o : Outcome} {m : MYSQL} {ok : Bool}
    (he : y.command h (v.command o) m = (y', ok)) :
    ok = (v.on (y.mysql h)).accepts ∧
      (ok = false → ∃ e b r, v.on (y.mysql h) = .refused e b r ∧ r = v.reconnects ∧
        (y'.mysql h).errno = e) := by
  unfold LibMySql.command at he
  unfold Scenario.on
  by_cases hp : (y.mysql h).pending = true
  · rw [if_pos hp] at he ⊢
    cases he
    exact ⟨rfl, fun _ => ⟨_, _, _, rfl, rfl, by simp⟩⟩
  · rw [if_neg hp] at he ⊢
    cases v with
    | accepted n =>
      cases he
      exact ⟨rfl, nofun⟩
    | refused e b r =>
      cases he
      exact ⟨rfl, fun _ => ⟨_, _, _, rfl, rfl, by simp [Scenario.command]⟩⟩

/-! ## The error branch -/

theorem reconnect_served (c : Nat) (hl : reconnected l = false) :
    (CXEMySqlCon.reconnect c).Always (v.exec rt t) s l fun a _ l' =>
      a = v.reconnects ∧ reconnected l' = v.reconnects := by
  refine served_lib fun o y m he => ?_
  cases he
  refine served_con rfl (served_lib fun o y ok he => ?_)
  have hok : ok = v.reconnects :=
    (congrArg Prod.snd he).symm.trans (LibMySql.exec_realConnect_snd ..)
  subst hok
  cases v.reconnects with
  | false =>
    refine served_lib fun o y m he => served_lib fun o y m he => ?_
    exact Prog.always_ret ⟨rfl, hl⟩
  | true =>
    refine served_con rfl ?_
    cases (s.cons.con c).m_pMySql with
    | none => exact served_con rfl (Prog.always_ret ⟨rfl, rfl⟩)
    | some h =>
      exact served_lib fun o y m he => served_con rfl (Prog.always_ret ⟨rfl, rfl⟩)

theorem queryFailed_served (c h : Nat) (szQuery : Bytes) (hl : reconnected l = false) :
    (CXEMySql.queryFailed c h szQuery).Always (v.exec rt t) s l fun a _ l' =>
      a = (CXEMySql.isLost (s.lib.mysql h).errno && v.reconnects) ∧ reconnected l' = a := by
  refine served_lib fun o y n he => ?_
  cases he
  refine served_lib fun o y e he => ?_
  cases he
  refine served_rt fun heap r => served_lib fun o y n he => ?_
  cases he
  show (CXEMySql.handleError c (s.lib.mysql h).errno).Always _ _ _ _
  unfold CXEMySql.handleError
  cases CXEMySql.isLost (s.lib.mysql h).errno with
  | false => exact Prog.always_ret ⟨rfl, hl⟩
  | true =>
    rw [if_pos rfl]
    refine Prog.Always.mono (reconnect_served c ?_) ?_
    · exact hl
    · rintro a _ l' ⟨rfl, hl'⟩
      exact ⟨(Bool.true_and _).symm, hl'⟩

/-! ## The overloads -/

/-- The answers of `p` on handle `h` come to `spec`. -/
abbrev Served (v : Scenario) (rt : Runtime) (t : Tid) (spec : Scenario → Bool × Bool) (p : Code Bool)
    (h : Nat) (s : State) (l : List (Answer Op Op.Reply)) : Prop :=
  p.Always (v.exec rt t) s l fun a _ l' => (a, reconnected l') = spec (v.on (s.lib.mysql h))

/-- A text is sent: it is accepted, and then what `accepted` does is left, or the error branch is. -/
theorem send_served (c h : Nat) (cmd : Bytes) (args : List Printf.Arg) (hl : reconnected l = false)
    {accepted : Bytes → Code Bool} {b : Bool} {spec : Scenario → Bool × Bool}
    (hacc : ∀ q s l, reconnected l = false → (accepted q).Always (v.exec rt t) s l fun a _ l' =>
      a = b ∧ reconnected l' = false)
    (hspec : ∀ n, spec (.accepted n) = (b, false))
    (href : ∀ e p r, spec (.refused e p r) = (CXEMySql.isLost e && r, CXEMySql.isLost e && r)) :
    Served v rt t spec (do
      let szQuery ← CXEMySql.formatQuery cmd args
      if ← req (.lib (.realQuery h szQuery)) then accepted szQuery
      else CXEMySql.queryFailed c h szQuery) h s l := by
  refine served_rt fun heap szQuery => served_lib fun o y ok he => ?_
  obtain ⟨hok, hfail⟩ := served_command he
  cases ok with
  | true =>
    obtain ⟨n, hn⟩ : ∃ n, v.on (s.lib.mysql h) = .accepted n := by
      cases hv : v.on (s.lib.mysql h) with
      | accepted n => exact ⟨n, rfl⟩
      | refused e p r =>
        rw [hv] at hok
        cases hok
    refine Prog.Always.mono (hacc _ _ _ ?_) ?_
    · exact hl
    · rintro a _ l' ⟨rfl, hl'⟩
      rw [hn, hspec, hl']
  | false =>
    obtain ⟨e, p, r, hv, hr, herrno⟩ := hfail rfl
    refine Prog.Always.mono (queryFailed_served c h _ ?_) ?_
    · exact hl
    · rintro a _ l' ⟨ha, hl'⟩
      rw [hv, href, hl', ha, herrno, hr]

theorem queryOn_served (c h : Nat) (cmd : Bytes) (args : List Printf.Arg)
    (hl : reconnected l = false) :
    Served v rt t Scenario.text (CXEMySql.queryOn c h cmd args) h s l := by
  refine send_served c h cmd args hl (fun q s l hl => ?_) (fun _ => rfl) fun _ _ _ => rfl
  refine served_rt fun heap r => served_lib fun o y m he => ?_
  exact Prog.always_ret ⟨rfl, hl⟩

theorem queryDataOn_served (c h : Nat) (cmd : Bytes) (data : Option Nat) (args : List Printf.Arg)
    (hl : reconnected l = false) :
    Served v rt t Scenario.data (CXEMySql.queryDataOn c h cmd data args) h s l := by
  refine send_served c h cmd args hl (fun q s l hl => ?_) (fun _ => rfl) fun _ _ _ => rfl
  refine served_rt fun heap r => served_lib fun o y nLength he => ?_
  by_cases hn : 0 < nLength
  · simp only [Prog.bind_ret, hn, if_true]
    refine served_lib fun o y res he => ?_
    cases data with
    | none => exact Prog.always_ret ⟨rfl, hl⟩
    | some x =>
      refine Prog.always_op (fun o s₁ he => ?_) fun o s₁ r he => Prog.always_ret ⟨rfl, hl⟩
      obtain ⟨z, hz, -⟩ := exec_res he
      exact Results.exec_answers hz
  · simp only [Prog.bind_ret, hn, if_false]
    exact Prog.always_ret ⟨rfl, hl⟩

/-! ## The blob -/

/-- Preparing a command on handle `h`. -/
theorem served_prepare {y y' : LibMySql} {st h : Nat} {o : Outcome} {q : Bytes} {ok : Bool}
    (hst : y.stmt st = { mysql := h })
    (he : y.exec (.stmtPrepare st q) (v.prepare o) = (y', ok)) :
    ((y'.stmt st).mysql = h ∧ (y'.stmt st).prepared = ok ∧ (y'.stmt st).paramCount = 0) ∧
      (ok = true → v.on (y'.mysql h) = v.on (y.mysql h)) ∧
      (ok = false → (v.on (y.mysql h)).accepts = false) := by
  simp only [LibMySql.exec, LibMySql.command, hst] at he
  by_cases hp : (y.mysql h).pending = true
  · simp only [hp, if_true] at he
    cases he
    exact ⟨by simp [LibMySql.withMysql, hst], Bool.noConfusion, fun _ => by simp [Scenario.on, hp, Scenario.accepts]⟩
  · have hon : v.on (y.mysql h) = v := if_neg hp
    have hok : ∀ o' : Outcome, o'.ok = true → o'.number = 0 → v.prepare o = o' →
        ((y'.stmt st).mysql = h ∧ (y'.stmt st).prepared = ok ∧ (y'.stmt st).paramCount = 0) ∧
        (ok = true → v.on (y'.mysql h) = v.on (y.mysql h)) ∧
        (ok = false → (v.on (y.mysql h)).accepts = false) := by
      intro o' h1 h2 ho
      simp only [ho, h1, h2, if_neg hp, if_true] at he
      cases he
      exact ⟨by simp, fun _ => by simp [Scenario.on], Bool.noConfusion⟩
    cases v with
    | accepted n => exact hok _ rfl rfl rfl
    | refused e p r =>
      cases p with
      | false => exact hok _ rfl rfl rfl
      | true =>
        simp only [Scenario.prepare, if_neg hp, Bool.false_eq_true, if_false] at he
        cases he
        exact ⟨by simp [LibMySql.withMysql, hst], Bool.noConfusion, fun _ => by rw [hon]; rfl⟩

theorem logError_served (h : Nat) :
    (CXEMySqlStmt.logError h).Always (v.exec rt t) s l fun _ s' l' =>
      s'.lib = s.lib ∧ s'.cons = s.cons ∧ reconnected l' = reconnected l := by
  refine served_lib fun o y n he => ?_
  cases he
  refine served_lib fun o y e he => ?_
  cases he
  exact served_rt fun heap r => Prog.always_ret ⟨rfl, rfl, rfl⟩

/-- A statement without parameters is closed. -/
theorem reset_served (c st n : Nat) :
    (CXEMySqlStmt.reset ⟨c, some st, n, none⟩).Always (v.exec rt t) s l fun _ _ l' =>
      reconnected l' = reconnected l := by
  refine served_lib fun o y ok he => ?_
  cases ok with
  | true => exact Prog.always_ret rfl
  | false =>
    refine served_con rfl ?_
    cases (s.cons.con c).m_pMySql with
    | none => exact Prog.always_ret rfl
    | some h =>
      refine (logError_served h).bind ?_
      rintro _ _ l' ⟨-, -, hl'⟩
      exact Prog.always_ret hl'

/-- The statement has been made on handle `h`. If it has been prepared, the command can still come to
what it could before; otherwise it has been refused. -/
theorem setSQL_served {c h : Nat} (hc : (s.cons.con c).m_pMySql = some h) (cmd : Bytes) :
    (CXEMySqlStmt.setSQL { m_pCon := c } cmd).Always (v.exec rt t) s l fun x s' l' =>
      s'.cons = s.cons ∧ reconnected l' = reconnected l ∧
      ∃ st, x = ⟨c, some st, 0, none⟩ ∧ (s'.lib.stmt st).mysql = h ∧
        ((s'.lib.stmt st).prepared = true → v.on (s'.lib.mysql h) = v.on (s.lib.mysql h)) ∧
        ((s'.lib.stmt st).prepared = false → (v.on (s.lib.mysql h)).accepts = false) := by
  refine served_con rfl ?_
  rw [hc]
  refine served_lib fun o y st he => ?_
  cases he
  refine served_lib fun o y ok he => ?_
  obtain ⟨⟨hst, hprep, hcount⟩, hon, href⟩ := served_prepare (Function.update_self ..) he
  rw [← hprep] at hon href
  cases ok with
  | true =>
    refine served_lib fun o y' n he' => ?_
    cases he'
    rw [hcount]
    exact Prog.always_ret ⟨rfl, rfl, s.lib.stmts, rfl, hst, hon, href⟩
  | false =>
    refine served_lib fun o y' n he' => ?_
    cases he'
    refine served_lib fun o y' e he' => ?_
    cases he'
    exact served_rt fun heap r => Prog.always_ret ⟨rfl, rfl, s.lib.stmts, rfl, hst, hon, href⟩

/-- A call on the statement; logging its failure changes nothing of what is observed. -/
theorem attempt_served {c h st : Nat} (hc : (s.cons.con c).m_pMySql = some h)
    {call : Nat → Code Bool} {P : Bool → LibMySql → Cons → Bool → Prop}
    (hcall : (call st).Always (v.exec rt t) s (⟨.con (.getMySql c), some h⟩ :: l) fun ok s' l' =>
      P ok s'.lib s'.cons (reconnected l')) :
    (CXEMySqlStmt.attempt ⟨c, some st, 0, none⟩ call).Always (v.exec rt t) s l fun ok s' l' =>
      P ok s'.lib s'.cons (reconnected l') := by
  refine served_con rfl ?_
  rw [hc]
  refine hcall.bind fun ok s₁ l₁ hP => ?_
  cases ok with
  | true => exact Prog.always_ret hP
  | false =>
    refine (logError_served h).bind ?_
    rintro _ s₂ l₂ ⟨hlib, hcons, hl₂⟩
    refine Prog.always_ret ?_
    rwa [hlib, hcons, hl₂]

/-- What has been prepared can be bound. -/
theorem bindParams_served {c h st : Nat} (hc : (s.cons.con c).m_pMySql = some h) :
    (CXEMySqlStmt.bindParams ⟨c, some st, 0, none⟩).Always (v.exec rt t) s l fun ok s' l' =>
      ok = (s.lib.stmt st).prepared ∧ s'.lib = s.lib ∧ s'.cons = s.cons ∧
        reconnected l' = reconnected l := by
  rw [CXEMySqlStmt.bindParams_eq]
  refine attempt_served (P := fun ok y x r => ok = (s.lib.stmt st).prepared ∧ y = s.lib ∧
    x = s.cons ∧ r = reconnected l) hc (served_lib fun o y ok he => ?_)
  cases he
  exact Prog.always_ret ⟨Bool.and_true _, rfl, rfl, rfl⟩

/-- What has been bound is executed like a query. -/
theorem execute_served {c h st : Nat} (hc : (s.cons.con c).m_pMySql = some h)
    (hst : (s.lib.stmt st).mysql = h) (hp : (s.lib.stmt st).prepared = true) :
    (CXEMySqlStmt.execute ⟨c, some st, 0, none⟩).Always (v.exec rt t) s l fun ok _ l' =>
      ok = (v.on (s.lib.mysql h)).accepts ∧ reconnected l' = reconnected l := by
  rw [CXEMySqlStmt.execute_eq]
  refine attempt_served (P := fun ok _ _ r => ok = (v.on (s.lib.mysql h)).accepts ∧
    r = reconnected l) hc (served_lib fun o y ok he => ?_)
  simp only [LibMySql.exec, hp, if_true, hst] at he
  exact Prog.always_ret ⟨(served_command he).1, rfl⟩

theorem queryBlobOn_served {c h : Nat} (hc : (s.cons.con c).m_pMySql = some h) (cmd : Bytes)
    (hl : reconnected l = false) :
    Served v rt t Scenario.blob (CXEMySql.queryBlobOn c cmd []) h s l := by
  unfold CXEMySql.queryBlobOn
  refine (setSQL_served hc cmd).bind ?_
  rintro _ s₁ l₁ ⟨hcons₁, hl₁, st, rfl, hst, hon, href⟩
  have hc₁ : (s₁.cons.con c).m_pMySql = some h := by rw [hcons₁, hc]
  refine (bindParams_served hc₁).bind ?_
  rintro ok s₂ l₂ ⟨hok, hlib₂, hcons₂, hl₂⟩
  cases ok with
  | false =>
    refine (reset_served c st 0).bind ?_
    intro _ s₃ l₃ hl₃
    refine Prog.always_ret ?_
    unfold Scenario.blob
    rw [hl₃, hl₂, hl₁, hl, href hok.symm]
  | true =>
    have hc₂ : (s₂.cons.con c).m_pMySql = some h := by rw [hcons₂, hc₁]
    refine (execute_served hc₂ (by rw [hlib₂, hst]) (by rw [hlib₂, ← hok])).bind ?_
    rintro ok s₃ l₃ ⟨hok₃, hl₃⟩
    refine (reset_served c st 0).bind ?_
    intro _ s₄ l₄ hl₄
    refine Prog.always_ret ?_
    unfold Scenario.blob
    rw [hl₄, hl₃, hl₂, hl₁, hl, hok₃, hlib₂, hon hok.symm]

/-! ## All of it -/

theorem getFreeCon_runs {k : Option Nat → Code α} {a : α} {s' : State}
    {l' : List (Answer Op Op.Reply)}
    (hrun : (Prog.op (.con .getFreeCon) k : Code α).Runs (v.exec rt t) s l a s' l') :
    ∃ r x, Finds t s.cons r x ∧
      (k r).Runs (v.exec rt t) { s with cons := x } (⟨.con .getFreeCon, r⟩ :: l) a s' l' := by
  generalize hp : (Prog.op (.con .getFreeCon) k : Code α) = p at hrun
  induction hrun with
  | ret => cases hp
  | reply o he hk _ =>
    cases hp
    obtain ⟨x, hx, rfl⟩ := exec_con he
    exact ⟨_, x, .now hx, hk⟩
  | wait o he _ ih =>
    cases hp
    obtain ⟨x, hx, rfl⟩ := exec_con he
    obtain ⟨r, x', hf, hk⟩ := ih rfl
    exact ⟨r, x', .later hx hf, hk⟩

/-- The handle of the connection that has been found. -/
def handleOf (x : Cons) (r : Option Nat) : Option Nat := r.bind fun c => (x.con c).m_pMySql

theorem locked_served {spec : Scenario → Bool × Bool} {body : Nat → Nat → Code Bool}
    (hbody : ∀ c h s l, (s.cons.con c).m_pMySql = some h → reconnected l = false →
      Served v rt t spec (body c h) h s l) {a : Bool} {s' : State} {l' : List (Answer Op Op.Reply)}
    (hrun : (CXEMySql.locked body).Runs (v.exec rt t) s [] a s' l') :
    ∃ r x, Finds t s.cons r x ∧ (a, reconnected l') =
      ((handleOf s.cons r).map fun h => spec (v.on (s.lib.mysql h))).getD (false, false) := by
  obtain ⟨r, x, hf, hk⟩ := getFreeCon_runs hrun
  refine ⟨r, x, hf, ?_⟩
  cases r with
  | none =>
    cases hk
    rfl
  | some c =>
    have hmysql : (x.con c).m_pMySql = handleOf s.cons (some c) := hf.mysql c
    generalize hR : ((handleOf s.cons (some c)).map fun h => spec (v.on (s.lib.mysql h))).getD
      (false, false) = R
    refine Prog.Always.bind (P := fun b _ l₁ => (b, reconnected l₁) = R)
      (Q := fun b _ l₁ => (b, reconnected l₁) = R) (served_con rfl ?_) ?_ a s' l' hk
    · rw [Prog.bind_ret]
      cases hm : handleOf s.cons (some c) with
      | none =>
        rw [hm] at hR hmysql
        simp only [hmysql]
        exact Prog.always_ret hR
      | some h =>
        rw [hm] at hR hmysql
        rw [← hR]
        simp only [hmysql]
        exact hbody c h _ _ hmysql rfl
    · intro b s₁ l₁ hb
      refine Prog.always_op (fun o s₂ he => ?_) fun o s₂ r he => Prog.always_ret hb
      obtain ⟨x, hx, -⟩ := exec_con he
      exact nomatch (Cons.exec_wait hx).1

/-- `Query (cmd, MYSQL_RES *res, ...)` -/
theorem query_served {cmd : Bytes} {args : List Printf.Arg} {a : Bool} {s' : State}
    {l' : List (Answer Op Op.Reply)}
    (hrun : (CXEMySql.query cmd args).Runs (v.exec rt t) s [] a s' l') :
    ∃ r x, Finds t s.cons r x ∧ (a, reconnected l') =
      ((handleOf s.cons r).map fun h => (v.on (s.lib.mysql h)).text).getD (false, false) := by
  rw [CXEMySql.query_eq] at hrun
  exact locked_served (fun c h s l _ hl => queryOn_served c h cmd args hl) hrun

/-- `Query (cmd, CXEMySqlResult *data, ...)` -/
theorem queryData_served {cmd : Bytes} {data : Option Nat} {args : List Printf.Arg} {a : Bool}
    {s' : State} {l' : List (Answer Op Op.Reply)}
    (hrun : (CXEMySql.queryData cmd data args).Runs (v.exec rt t) s [] a s' l') :
    ∃ r x, Finds t s.cons r x ∧ (a, reconnected l') =
      ((handleOf s.cons r).map fun h => (v.on (s.lib.mysql h)).data).getD (false, false) := by
  rw [CXEMySql.queryData_eq] at hrun
  exact locked_served (fun c h s l _ hl => queryDataOn_served c h cmd data args hl) hrun

/-- `Query (cmd, DB_BLOB *pData)` with a blob that has no parameters. -/
theorem queryBlob_served {cmd : Bytes} {a : Bool} {s' : State} {l' : List (Answer Op Op.Reply)}
    (hrun : (CXEMySql.queryBlob cmd (some [])).Runs (v.exec rt t) s [] a s' l') :
    ∃ r x, Finds t s.cons r x ∧ (a, reconnected l') =
      ((handleOf s.cons r).map fun h => (v.on (s.lib.mysql h)).blob).getD (false, false) := by
  rw [CXEMySql.queryBlob_eq] at hrun
  exact locked_served (fun c h s l hc hl => queryBlobOn_served hc cmd hl) hrun

end

/-- **When the overloads agree.** Run from the same state, with the server doing the same, they return
the same and reconnect all or not at all, exactly when the connection they find has no handle, or the
command is refused on it for good. -/
theorem overloads_agree_iff {v : Scenario} {rt : Runtime} {t : Tid} {s s₁ s₂ s₃ : State} {cmd : Bytes}
    {args : List Printf.Arg} {x : Nat} {a₁ a₂ a₃ : Bool} {l₁ l₂ l₃ : List (Answer Op Op.Reply)}
    (h₁ : (CXEMySql.query cmd args).Runs (v.exec rt t) s [] a₁ s₁ l₁)
    (h₂ : (CXEMySql.queryData cmd (some x) args).Runs (v.exec rt t) s [] a₂ s₂ l₂)
    (h₃ : (CXEMySql.queryBlob cmd (some [])).Runs (v.exec rt t) s [] a₃ s₃ l₃) :
    (a₁ = a₂ ∧ a₂ = a₃) ∧ reconnected l₁ = reconnected l₂ ∧ reconnected l₂ = reconnected l₃ ↔
      ∀ r x h, Finds t s.cons r x → handleOf s.cons r = some h →
        (v.on (s.lib.mysql h)).accepts = false ∧ (v.on (s.lib.mysql h)).restored = false := by
  obtain ⟨r, x₁, hf, h₁⟩ := query_served h₁
  obtain ⟨r₂, x₂, hf₂, h₂⟩ := queryData_served h₂
  obtain ⟨r₃, x₃, hf₃, h₃⟩ := queryBlob_served h₃
  obtain rfl := hf.unique hf₂
  obtain rfl := hf.unique hf₃
  have hpairs : (a₁ = a₂ ∧ a₂ = a₃) ∧ reconnected l₁ = reconnected l₂ ∧
      reconnected l₂ = reconnected l₃ ↔
      (a₁, reconnected l₁) = (a₂, reconnected l₂) ∧ (a₂, reconnected l₂) = (a₃, reconnected l₃) := by
    simp only [Prod.mk.injEq]
    tauto
  rw [hpairs, h₁, h₂, h₃]
  cases hm : handleOf s.cons r with
  | none =>
    refine iff_of_true ⟨rfl, rfl⟩ fun r' x' h hf' hh => ?_
    rw [← hf.unique hf', hm] at hh
    cases hh
  | some h =>
    refine (v.on (s.lib.mysql h)).same_iff.trans ⟨fun hno r' x' h' hf' hh => ?_, fun hall => ?_⟩
    · rw [← hf.unique hf', hm] at hh
      cases hh
      exact hno
    · exact hall r x₁ h hf hm

/-- What a run that is computed returns, and whether it has reconnected. -/
theorem runs_of_result {v : Scenario} {rt : Runtime} {t : Tid} {s : State} {p : Code Bool} {n : Nat}
    {a r : Bool}
    (h : (p.eval (v.exec rt t) (List.replicate n .success) s []).map
      (fun x => (x.1, reconnected x.2.2)) = some (a, r)) :
    ∃ s' l', p.Runs (v.exec rt t) s [] a s' l' ∧ reconnected l' = r := by
  obtain ⟨⟨b, s', l'⟩, he, hr⟩ := Option.map_eq_some_iff.mp h
  obtain ⟨rfl, rfl⟩ := Prod.mk.inj hr
  exact ⟨s', l', Prog.runs_of_eval he, rfl⟩

/-- One connection, and a result object. -/
def State.oneCon : State := { State.small 1 0 with results := ⟨1, fun _ => some {}⟩ }

/-- A command with an error in it (1064). -/
theorem overloads_agree_syntax : ∃ (s₁ s₂ s₃ : State) (l₁ l₂ l₃ : List (Answer Op Op.Reply)),
    (CXEMySql.query [113] []).Runs ((Scenario.refused 1064 true true).exec .standard (.client 0))
      .oneCon [] false s₁ l₁ ∧
    (CXEMySql.queryData [113] (some 0) []).Runs
      ((Scenario.refused 1064 true true).exec .standard (.client 0)) .oneCon [] false s₂ l₂ ∧
    (CXEMySql.queryBlob [113] (some [])).Runs
      ((Scenario.refused 1064 true true).exec .standard (.client 0)) .oneCon [] false s₃ l₃ ∧
    ((false = false ∧ false = false) ∧ reconnected l₁ = reconnected l₂ ∧
        reconnected l₂ = reconnected l₃ ↔
      ∀ r x h, Finds (.client 0) State.oneCon.cons r x → handleOf State.oneCon.cons r = some h →
        ((Scenario.refused 1064 true true).on (State.oneCon.lib.mysql h)).accepts = false ∧
        ((Scenario.refused 1064 true true).on (State.oneCon.lib.mysql h)).restored = false) := by
  obtain ⟨s₁, l₁, h₁, -⟩ := @runs_of_result (.refused 1064 true true) .standard (.client 0) .oneCon
    (CXEMySql.query [113] []) 10 false false (by decide)
  obtain ⟨s₂, l₂, h₂, -⟩ := @runs_of_result (.refused 1064 true true) .standard (.client 0) .oneCon
    (CXEMySql.queryData [113] (some 0) []) 10 false false (by decide)
  obtain ⟨s₃, l₃, h₃, -⟩ := @runs_of_result (.refused 1064 true true) .standard (.client 0) .oneCon
    (CXEMySql.queryBlob [113] (some [])) 20 false false (by decide)
  exact ⟨s₁, s₂, s₃, l₁, l₂, l₃, h₁, h₂, h₃, overloads_agree_iff h₁ h₂ h₃⟩

/-- A command that is accepted, with a result of one column: for a `CXEMySqlResult` the answer is
`false`. A connection that is lost (2006) and could be restored: with a blob it stays lost. -/
theorem accepted_differs :
    (∃ s₁ s₂ l₁ l₂,
      (CXEMySql.query [113] []).Runs ((Scenario.accepted 1).exec .standard (.client 0)) .oneCon []
        true s₁ l₁ ∧
      (CXEMySql.queryData [113] (some 0) []).Runs ((Scenario.accepted 1).exec .standard (.client 0))
        .oneCon [] false s₂ l₂) ∧
    ∃ s₁ s₂ l₁ l₂,
      (CXEMySql.query [113] []).Runs ((Scenario.refused 2006 true true).exec .standard (.client 0))
        .oneCon [] true s₁ l₁ ∧
      (CXEMySql.queryBlob [113] (some [])).Runs
        ((Scenario.refused 2006 true true).exec .standard (.client 0)) .oneCon [] false s₂ l₂ ∧
      reconnected l₁ ≠ reconnected l₂ := by
  obtain ⟨s₁, l₁, h₁, -⟩ := @runs_of_result (.accepted 1) .standard (.client 0) .oneCon
    (CXEMySql.query [113] []) 10 true false (by decide)
  obtain ⟨s₂, l₂, h₂, -⟩ := @runs_of_result (.accepted 1) .standard (.client 0) .oneCon
    (CXEMySql.queryData [113] (some 0) []) 10 false false (by decide)
  obtain ⟨s₃, l₃, h₃, hr₃⟩ := @runs_of_result (.refused 2006 true true) .standard (.client 0) .oneCon
    (CXEMySql.query [113] []) 20 true true (by decide)
  obtain ⟨s₄, l₄, h₄, hr₄⟩ := @runs_of_result (.refused 2006 true true) .standard (.client 0) .oneCon
    (CXEMySql.queryBlob [113] (some [])) 20 false false (by decide)
  refine ⟨⟨s₁, s₂, l₁, l₂, h₁, h₂⟩, s₃, s₄, l₃, l₄, h₃, h₄, ?_⟩
  rw [hr₃, hr₄]
  decide

end XeMySql
