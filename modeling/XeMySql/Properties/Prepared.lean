import XeMySql.MySqlCmd

/-!
# The connection a statement was prepared on

The calls of `SetCmd` and `Execut` on one `MySqlCmd`, with any outcomes. `Execut` executes its statement
again after `Connected` has replaced the connection it was prepared on.

* `setCmd_follows`, `execut_follows` — what is known of the statement after each call
* `onCurrent_iff` — in which runs each executed statement was prepared on the present connection
-/

namespace XeMySql

open Interact

/-! ## What a trace tells -/

/-- The handle stored in `m_pMySql`, which was `m₀` at first. -/
def current (m₀ : Option Nat) : DbTrace → Option Nat
  | [] => m₀
  | ⟨.init, m⟩ :: _ => m
  | ⟨.close _, _⟩ :: _ => none
  | _ :: l => current m₀ l

/-- The handle the statement was made on. -/
def madeOn (st : Nat) : DbTrace → Option Nat
  | [] => none
  | ⟨.stmtInit h, r⟩ :: l => if (r : Option Nat) = some st then some h else madeOn st l
  | _ :: l => madeOn st l

/-- The statement has been prepared, and `mysql_stmt_close` has not been called with it, which releases it
also when it reports an error. -/
def prepared (st : Nat) : DbTrace → Bool
  | [] => false
  | ⟨.stmtPrepare st' _, ok⟩ :: l => if st' = st then ok else prepared st l
  | ⟨.stmtClose st', _⟩ :: l => if st' = st then false else prepared st l
  | _ :: l => prepared st l

/-- The statement was prepared on the handle that is now in `m_pMySql`. -/
def PreparedOn (m₀ : Option Nat) (st : Nat) (l : DbTrace) : Prop :=
  ∃ h, current m₀ l = some h ∧ madeOn st l = some h ∧ prepared st l = true

/-- **Prepared where it is executed**: each `mysql_stmt_execute` gets a statement that was prepared on the
handle in `m_pMySql`. -/
def OnCurrent (m₀ : Option Nat) : DbTrace → Prop
  | [] => True
  | ⟨.stmtExecute st, _⟩ :: l => PreparedOn m₀ st l ∧ OnCurrent m₀ l
  | _ :: l => OnCurrent m₀ l

/-- The last preparation has succeeded; no statement has been closed and no ping has failed since. -/
def ready : DbTrace → Bool
  | [] => false
  | ⟨.stmtPrepare _ _, ok⟩ :: _ => ok
  | ⟨.stmtClose _, _⟩ :: _ => false
  | ⟨.ping _, false⟩ :: _ => false
  | _ :: l => ready l

/-- That is so at each `mysql_stmt_execute`. -/
def ReadyOnly : DbTrace → Prop
  | [] => True
  | ⟨.stmtExecute _, _⟩ :: l => ready l = true ∧ ReadyOnly l
  | _ :: l => ReadyOnly l

/-- The handle that `mysql_init` has returned. -/
def newHandle : Answer DbOp DbOp.Reply → Option Nat
  | ⟨.init, m⟩ => m
  | _ => none

/-- All handles so far. -/
def handlesOf (m₀ : Option Nat) (l : DbTrace) : List Nat := l.filterMap newHandle ++ m₀.toList

/-! ## Runs -/

/-- One call after the other on a new `MySqlCmd`, whose `MySqlDB` had the handle `m₀` at first. -/
inductive CmdRun (m₀ : Option Nat) : MySqlCmd → MySqlDB → DbEnv → DbTrace → Prop
  | new {db env n} (hm : db.m_pMySql = m₀) (henv : ∀ h, m₀ = some h → h < env.handles) :
    CmdRun m₀ { m_dwFieldCnt := n } db env []
  | setCmd {cmd db env l a cmd' env' l'} (szCMD : Bytes) (h : CmdRun m₀ cmd db env l)
    (hr : (cmd.setCmd db szCMD).Runs DbOp.exec env l (a, cmd') env' l') : CmdRun m₀ cmd' db env' l'
  | execut {cmd db env l a db' env' l'} (h : CmdRun m₀ cmd db env l)
    (hr : (cmd.execut db).Runs DbOp.exec env l (a, db') env' l') : CmdRun m₀ cmd db' env' l'

/-- Code with any answers, but a new handle has not been there before. -/
abbrev NewHandles (m₀ : Option Nat) : Discipline DbOp DbOp.Reply DbTrace :=
  .recording (fun _ _ => True) fun l e r => ∀ h, newHandle ⟨e, r⟩ = some h → h ∉ handlesOf m₀ l

/-- What is known of a statement. -/
def KnownStmt (m₀ : Option Nat) (l : DbTrace) (st : Nat) : Prop :=
  ∃ h, madeOn st l = some h ∧ h ∈ handlesOf m₀ l ∧
    ((current m₀ l = some h ∧ prepared st l = true) ↔ ready l = true)

/-- What is known between the calls. -/
structure CmdInv (m₀ : Option Nat) (cmd : MySqlCmd) (db : MySqlDB) (l : DbTrace) : Prop where
  handle : current m₀ l = db.m_pMySql
  stmt : ∀ st, cmd.m_pStmt = some st → KnownStmt m₀ l st
  equal : OnCurrent m₀ l ↔ ReadyOnly l

section

variable {m₀ : Option Nat} {cmd : MySqlCmd} {db : MySqlDB} {l : DbTrace} {st : Nat}

theorem current_mem {h : Nat} (hl : current m₀ l = some h) : h ∈ handlesOf m₀ l := by
  unfold handlesOf
  induction l with
  | nil =>
    rw [current] at hl
    rw [hl]
    exact List.mem_singleton.mpr rfl
  | cons x l ih =>
    obtain ⟨e, r⟩ := x
    cases e with
    | init =>
      have hr : newHandle ⟨.init, r⟩ = some h := hl
      rw [List.filterMap_cons_some hr]
      exact List.mem_cons_self
    | close m => cases hl
    | _ => exact ih hl

/-- A statement that is executed. -/
theorem KnownStmt.execute (h : KnownStmt m₀ l st) {ok : Bool} (heq : OnCurrent m₀ l ↔ ReadyOnly l) :
    OnCurrent m₀ (⟨.stmtExecute st, ok⟩ :: l) ↔ ReadyOnly (⟨.stmtExecute st, ok⟩ :: l) := by
  obtain ⟨m, hmade, -, hiff⟩ := h
  refine and_congr ⟨?_, ?_⟩ heq
  · rintro ⟨m', hcur, hmade', hprep⟩
    obtain rfl : m = m' := Option.some.inj (hmade.symm.trans hmade')
    exact hiff.mp ⟨hcur, hprep⟩
  · intro hready
    obtain ⟨hcur, hprep⟩ := hiff.mpr hready
    exact ⟨m, hcur, hmade, hprep⟩

/-- The ping has failed and the connection is replaced. -/
theorem KnownStmt.replace {h : Nat} {m : Option Nat} (hk : KnownStmt m₀ l st)
    (hm : ∀ h, m = some h → h ∉ handlesOf m₀ l) :
    KnownStmt m₀ (⟨.init, m⟩ :: ⟨.close h, ()⟩ :: ⟨.ping h, false⟩ :: l) st := by
  obtain ⟨m', hmade, hmem, -⟩ := hk
  refine ⟨m', hmade, ?_, iff_of_false ?_ ?_⟩
  · unfold handlesOf at hmem ⊢
    cases m with
    | none => exact hmem
    | some h' => exact List.mem_cons_of_mem _ hmem
  · rintro ⟨hcur, -⟩
    exact hm m' hcur hmem
  · exact Bool.false_ne_true

/-- A statement that is closed. -/
theorem KnownStmt.close (h : KnownStmt m₀ l st) (ok : Bool) :
    KnownStmt m₀ (⟨.stmtClose st, ok⟩ :: l) st := by
  obtain ⟨m, hmade, hmem, -⟩ := h
  have hprep : prepared st (⟨.stmtClose st, ok⟩ :: l) = false := if_pos rfl
  refine ⟨m, hmade, hmem, iff_of_false ?_ Bool.false_ne_true⟩
  rw [hprep]
  exact fun hx => Bool.false_ne_true hx.2

/-! ## The calls -/

/-- **`Connected`** keeps what is known. -/
theorem CmdInv.connected (h : CmdInv m₀ cmd db l) : db.connected.Follows (NewHandles m₀) l
    fun x l' => CmdInv m₀ cmd x.2 l' := by
  unfold MySqlDB.connected
  split
  · exact h
  · next m hm =>
    refine ⟨trivial, fun ok _ => ?_⟩
    cases ok with
    | true => exact ⟨h.handle, h.stmt, h.equal⟩
    | false =>
      have hdiscard : db.discard = .op (.close m) fun _ =>
          .ret { db with m_pMySql := none, m_bConnected := false } := by
        unfold MySqlDB.discard
        rw [hm]
        rfl
      simp only [Prog.bind_ret, Bool.false_eq_true, if_false, MySqlDB.reconnect, hdiscard]
      refine ⟨trivial, fun _ _ => ⟨trivial, fun r hr => ?_⟩⟩
      have hstmt : ∀ st, cmd.m_pStmt = some st →
          KnownStmt m₀ (⟨.init, r⟩ :: ⟨.close m, ()⟩ :: ⟨.ping m, false⟩ :: l) st :=
        fun st hst => (h.stmt st hst).replace hr
      cases r with
      | none => exact ⟨rfl, hstmt, h.equal⟩
      | some m' =>
        refine ⟨trivial, fun ok _ => ?_⟩
        cases ok with
        | false => exact ⟨rfl, hstmt, h.equal⟩
        | true => exact ⟨trivial, fun _ _ => ⟨rfl, hstmt, h.equal⟩⟩

/-- **`Execut`** -/
theorem CmdInv.execut (h : CmdInv m₀ cmd db l) : (cmd.execut db).Follows (NewHandles m₀) l
    fun x l' => CmdInv m₀ cmd x.2 l' := by
  unfold MySqlCmd.execut
  split
  · next st hm hst =>
    have hexecute : ∀ {db' : MySqlDB} {l' : DbTrace} (ok : Bool), CmdInv m₀ cmd db' l' →
        CmdInv m₀ cmd db' (⟨.stmtExecute st, ok⟩ :: l') := fun ok h' =>
      ⟨h'.handle, h'.stmt, (h'.stmt st hst).execute h'.equal⟩
    refine ⟨trivial, fun ok _ => ?_⟩
    have h₁ := hexecute ok h
    cases ok with
    | true => exact h₁
    | false =>
      refine ⟨trivial, fun n _ => ?_⟩
      have h₂ : CmdInv m₀ cmd db (⟨.errno db.m_pMySql, n⟩ :: ⟨.stmtExecute st, false⟩ :: l) :=
        ⟨h₁.handle, h₁.stmt, h₁.equal⟩
      simp only [Prog.bind_ret]
      split
      · refine h₂.connected.bind ?_
        rintro ⟨ok, db'⟩ l₃ h₃
        cases ok with
        | false => exact h₃
        | true => exact ⟨trivial, fun ok _ => hexecute ok h₃⟩
      · exact h₂
  · exact h

/-- `Reset` -/
theorem CmdInv.reset (h : CmdInv m₀ cmd db l) : cmd.reset.Follows (NewHandles m₀) l
    fun x l' => CmdInv m₀ x.2 db l' ∧ (x.1 = true → x.2.m_pStmt = none) := by
  have hclose : cmd.closeStmt.Follows (NewHandles m₀) l fun _ l' => CmdInv m₀ cmd db l' := by
    unfold MySqlCmd.closeStmt
    split
    · exact h
    · next st hst =>
      refine ⟨trivial, fun ok _ => ⟨h.handle, fun st' hst' => ?_, h.equal⟩⟩
      obtain rfl : st = st' := Option.some.inj (hst.symm.trans hst')
      exact (h.stmt st hst).close ok
  have hfree : ∀ l₁, CmdInv m₀ cmd db l₁ →
      cmd.freeMeta.Follows (NewHandles m₀) l₁ fun _ l' => CmdInv m₀ cmd db l' := by
    intro l₁ h₁
    unfold MySqlCmd.freeMeta
    split
    · exact h₁
    · exact ⟨trivial, fun _ _ => ⟨h₁.handle, h₁.stmt, h₁.equal⟩⟩
  refine hclose.bind fun ok l₁ h₁ => ?_
  cases ok with
  | false => exact ⟨h₁, fun hx => (nomatch hx)⟩
  | true =>
    refine (hfree l₁ h₁).bind fun _ l₂ h₂ => ?_
    exact ⟨⟨h₂.handle, fun st hst => (nomatch hst), h₂.equal⟩, fun _ => rfl⟩

theorem setFields_follows (h : CmdInv m₀ cmd db l) (st : Nat) :
    (cmd.setFields st).Follows (NewHandles m₀) l fun x l' => CmdInv m₀ x.2 db l' := by
  refine ⟨trivial, fun _ _ => ⟨trivial, fun n _ => ?_⟩⟩
  simp only [Prog.bind_ret]
  split
  · refine ⟨trivial, fun r _ => ?_⟩
    cases r with
    | none => exact ⟨h.handle, h.stmt, h.equal⟩
    | some r => exact ⟨h.handle, h.stmt, h.equal⟩
  · exact ⟨h.handle, h.stmt, h.equal⟩

/-- **`SetCmd`** -/
theorem CmdInv.setCmd (h : CmdInv m₀ cmd db l) (szCMD : Bytes) :
    (cmd.setCmd db szCMD).Follows (NewHandles m₀) l fun x l' => CmdInv m₀ x.2 db l' := by
  unfold MySqlCmd.setCmd
  split
  · exact h
  · next m hm =>
    refine h.reset.bind ?_
    rintro ⟨ok, cmd₁⟩ l₁ ⟨h₁, hnone⟩
    cases ok with
    | false => exact h₁
    | true =>
      refine ⟨trivial, fun r _ => ?_⟩
      cases r with
      | none => exact ⟨h₁.handle, fun st hst => (nomatch hst), h₁.equal⟩
      | some st =>
        refine ⟨trivial, fun ok _ => ?_⟩
        have hcur : current m₀ l₁ = some m := h₁.handle.trans hm
        have hprepare : CmdInv m₀ { cmd₁ with m_pStmt := some st } db
            (⟨.stmtPrepare st szCMD, ok⟩ :: ⟨.stmtInit m, some st⟩ :: l₁) := by
          refine ⟨h₁.handle, ?_, h₁.equal⟩
          rintro _ ⟨⟩
          have hmade : madeOn st (⟨.stmtPrepare st szCMD, ok⟩ :: ⟨.stmtInit m, some st⟩ :: l₁) = some m :=
            if_pos rfl
          have hprep : prepared st (⟨.stmtPrepare st szCMD, ok⟩ :: ⟨.stmtInit m, some st⟩ :: l₁) = ok :=
            if_pos rfl
          refine ⟨m, hmade, current_mem hcur, ?_⟩
          rw [hprep]
          exact ⟨fun hx => hx.2, fun hx => ⟨hcur, hx⟩⟩
        cases ok with
        | false => exact hprepare
        | true => exact setFields_follows hprepare st

/-! ## Every run -/

/-- Handles are new in a run. -/
theorem runs_newHandles {α : Type} {p : DbCode α} {x : α} {env env' : DbEnv} {l' : DbTrace}
    {Q : α → DbTrace → Prop} (hr : p.Runs DbOp.exec env l x env' l')
    (hs : ∀ h ∈ handlesOf m₀ l, h < env.handles) (hp : p.Follows (NewHandles m₀) l Q) :
    Q x l' ∧ ∀ h ∈ handlesOf m₀ l', h < env'.handles := by
  refine hr.follows (I := fun s l => ∀ h ∈ handlesOf m₀ l, h < s.handles) ?_ ?_ hs hp
  · intro l e o s s₁ r _ hI he
    cases e with
    | init =>
      simp only [DbOp.exec] at he
      split at he
      · cases he
        refine ⟨?_, fun h hm => ?_⟩
        · rintro _ ⟨⟩ hm
          exact Nat.lt_irrefl _ (hI _ hm)
        · rcases List.mem_cons.mp hm with rfl | hm
          · exact Nat.lt_succ_self _
          · exact Nat.lt_succ_of_lt (hI h hm)
      · cases he
        exact ⟨fun h hm => (nomatch hm), hI⟩
    | stmtInit m =>
      simp only [DbOp.exec] at he
      split at he <;> cases he <;> exact ⟨fun h hm => (nomatch hm), hI⟩
    | _ =>
      cases he
      exact ⟨fun h hm => (nomatch hm), hI⟩
  · intro l e o s s₁ _ _ he
    cases e with
    | init =>
      simp only [DbOp.exec] at he
      split at he <;> cases he
    | stmtInit m =>
      simp only [DbOp.exec] at he
      split at he <;> cases he
    | _ => cases he

/-- What is known after any calls. -/
theorem CmdRun.inv {env : DbEnv} (h : CmdRun m₀ cmd db env l) :
    CmdInv m₀ cmd db l ∧ ∀ h ∈ handlesOf m₀ l, h < env.handles := by
  induction h with
  | new hm henv =>
    refine ⟨⟨hm.symm, fun st hst => (nomatch hst), Iff.rfl⟩, fun h hmem => ?_⟩
    exact henv h (Option.mem_toList.mp hmem)
  | setCmd szCMD h hr ih =>
    exact runs_newHandles (Q := fun x l' => CmdInv m₀ x.2 _ l') hr ih.2 (ih.1.setCmd szCMD)
  | execut h hr ih =>
    exact runs_newHandles (Q := fun x l' => CmdInv m₀ _ x.2 l') hr ih.2 ih.1.execut

/-- **When every executed statement was prepared on the present connection**: at each
`mysql_stmt_execute` the last preparation has succeeded, and since then no statement has been closed and
no ping has failed. -/
theorem onCurrent_iff {env : DbEnv} (h : CmdRun m₀ cmd db env l) : OnCurrent m₀ l ↔ ReadyOnly l :=
  h.inv.1.equal

/-- A statement without result columns is prepared and executed. -/
theorem onCurrent_iff_once :
    let l : DbTrace := [⟨.stmtExecute 0, true⟩, ⟨.stmtFieldCount 0, 0⟩, ⟨.stmtParamCount 0, 0⟩,
      ⟨.stmtPrepare 0 [], true⟩, ⟨.stmtInit 0, some 0⟩]
    OnCurrent (some 0) l ↔ ReadyOnly l := by
  intro l
  let db : MySqlDB := { m_pMySql := some 0, m_bConnected := true }
  have hnew : CmdRun (some 0) { m_dwFieldCnt := 0 } db { handles := 1 } [] :=
    .new rfl (by rintro _ ⟨⟩; decide)
  have h₁ : (MySqlCmd.setCmd { m_dwFieldCnt := 0 } db []).eval DbOp.exec
      [.success, .success, .success, .success] { handles := 1 } [] =
        some ((true, { m_pStmt := some 0, m_dwFieldCnt := 0 }), { handles := 1, stmts := 1 },
          l.tail) := rfl
  have h₂ : (MySqlCmd.execut { m_pStmt := some 0, m_dwFieldCnt := 0 } db).eval DbOp.exec [.success]
      { handles := 1, stmts := 1 } l.tail = some ((true, db), { handles := 1, stmts := 1 }, l) := rfl
  exact onCurrent_iff ((hnew.setCmd [] (Prog.runs_of_eval h₁)).execut (Prog.runs_of_eval h₂))

/-- The server is restarted: `Connected` connects again, and the statement of the closed connection is
executed. -/
theorem not_onCurrent_restarted :
    ∃ cmd db env l, CmdRun (some 0) cmd db env l ∧ ¬ OnCurrent (some 0) l := by
  let l : DbTrace := [⟨.stmtFieldCount 0, 0⟩, ⟨.stmtParamCount 0, 0⟩, ⟨.stmtPrepare 0 [], true⟩,
    ⟨.stmtInit 0, some 0⟩]
  let db : MySqlDB := { m_pMySql := some 0, m_bConnected := true }
  have hnew : CmdRun (some 0) { m_dwFieldCnt := 0 } db { handles := 1 } [] :=
    .new rfl (by rintro _ ⟨⟩; decide)
  have h₁ : (MySqlCmd.setCmd { m_dwFieldCnt := 0 } db []).eval DbOp.exec
      [.success, .success, .success, .success] { handles := 1 } [] =
        some ((true, { m_pStmt := some 0, m_dwFieldCnt := 0 }), { handles := 1, stmts := 1 }, l) := rfl
  have h₂ : (MySqlCmd.execut { m_pStmt := some 0, m_dwFieldCnt := 0 } db).eval DbOp.exec
      [.failure 0, .failure 2013, .failure 0, .success, .success, .success, .success, .failure 0]
      { handles := 1, stmts := 1 } l =
        some ((false, { m_pMySql := some 1, m_bConnected := true }), { handles := 2, stmts := 1 }, _) :=
    rfl
  refine ⟨_, _, _, _, (hnew.setCmd [] (Prog.runs_of_eval h₁)).execut (Prog.runs_of_eval h₂), ?_⟩
  rintro ⟨⟨h, hcur, hmade, -⟩, -⟩
  obtain rfl : 1 = h := Option.some.inj hcur
  exact absurd hmade (by decide)

end

end XeMySql
