import XeMySql.Properties.Lifetimes
import XeMySql.Lib.Hiding

/-!
# The calls of libmysql with and without memory

`MysqlDB.lean` and `MySqlCmd.lean` leave out the strings, the arrays and the reports of the old library.
With these hidden, the code of `Memory.lean` makes the same calls of libmysql, and leaves the same
values.

* `connect_shows`, `executeSQL_shows`, `setCmd_shows`, `execut_shows`, … — each function
* `SharedCall.shows` — one call
* `same_calls` — every program with one object of each class
-/

namespace XeMySql.Memory

open Interact

/-- The calls of libmysql that `MysqlDB.lean` knows; all else is hidden. -/
def libCalls : View MemOp.Reply DbOp.Reply where
  inj := .db
  back := fun _ r => r
  seen
    | ⟨.db e, r⟩ => some ⟨e, r⟩
    | _ => none
  seen_inj := fun _ _ => rfl

/-- The values of its members. -/
def MySqlDB.values (db : MySqlDB) : XeMySql.MySqlDB where
  m_pMySql := db.m_pMySql
  m_szServer := db.m_szServer.map (·.chars)
  m_szDB := db.m_szDB.map (·.chars)
  m_szUser := db.m_szUser.map (·.chars)
  m_szPWD := db.m_szPWD.map (·.chars)
  m_nPort := db.m_nPort
  m_bConnected := db.m_bConnected

/-- The same statement, and arrays of the same columns. -/
structure MySqlCmd.Like (cmd : MySqlCmd) (v : XeMySql.MySqlCmd) : Prop where
  stmt : v.m_pStmt = cmd.m_pStmt
  metaRlt : v.m_pMetaRlt = cmd.m_pMetaRlt
  count : v.m_dwFieldCnt = cmd.m_dwFieldCnt
  row : v.m_pRow.isSome = cmd.m_pRow.isSome
  nodes : v.m_pValues.length = cmd.nodes.length

/-- The same result, and a `MySqlDB` with the same values. -/
def SameDB (x : Bool × MySqlDB) (y : Bool × XeMySql.MySqlDB) : Prop := y = (x.1, x.2.values)

/-! ## What is hidden -/

/-- Code that is hidden and whose result says nothing. -/
abbrev Hides {α : Type} (p : MemCode α) : Prop := p.Shows libCalls (fun _ _ => True) (.ret ())

theorem errorDump_hides (db : MySqlDB) : Hides db.errorDump := by
  unfold MySqlDB.errorDump
  split
  · exact .hide (fun _ => rfl) fun _ => .ret trivial
  · exact .ret trivial

theorem message_hides (db : MySqlDB) (szMsg : Bytes) (arg : Option CStr) :
    Hides (db.errorDumpSimple szMsg arg) := by
  unfold MySqlDB.errorDumpSimple
  split
  · exact .hide (fun _ => rfl) fun _ => .ret trivial
  · exact .ret trivial

theorem freeString_hides (s : Option Str) : Hides (freeString s) := by
  cases s with
  | none => exact .ret trivial
  | some s => exact .hide (fun _ => rfl) fun _ => .ret trivial

theorem deleteArray_hides (p : Option Nat) : Hides (deleteArray p) := by
  cases p with
  | none => exact .ret trivial
  | some p => exact .hide (fun _ => rfl) fun _ => .ret trivial

theorem readString_hides (sz : Option CStr) : Hides (readString sz) := by
  cases sz with
  | none => exact .ret trivial
  | some sz => exact .hide (fun _ => rfl) fun _ => .ret trivial

theorem undefined_shows {α β : Type} {Q : α → β → Prop} {q : DbCode β} :
    (undefined : MemCode α).Shows libCalls Q q :=
  .hide (fun x => x.elim) fun x => x.elim

/-- A member is replaced by a copy of a string, if there is one. -/
theorem storeString_shows (m_sz : Option Str) (sz : Option CStr) :
    (storeString m_sz sz).Shows libCalls (fun s v => v = s.map (·.chars))
      (.ret ((sz.map (·.chars)).or (m_sz.map (·.chars)))) := by
  cases sz with
  | none => exact .ret rfl
  | some sz => exact .hide (fun _ => rfl) fun _ => .ret rfl

/-- What is seen of the parameters of a connection. -/
def shown (a : ConnectArgs CStr) : ConnectArgs Chars := a.bind fun sz => some sz.chars

theorem realConnect_shows (h : Nat) (a : ConnectArgs CStr) :
    (realConnect h a).Shows libCalls Eq (DbOp.req (.realConnect h (shown a))) := by
  refine (readString_hides _).first fun _ _ => (readString_hides _).first fun _ _ => ?_
  refine (readString_hides _).first fun _ _ => (readString_hides _).first fun _ _ => ?_
  exact .ask fun _ => .ret rfl

/-! ## `MySqlDB` -/

namespace MySqlDB

variable (db : MySqlDB)

/-- Nothing is seen of the strings that are freed. -/
theorem close_shows : db.close.Shows libCalls (fun x v => v = x.values) db.values.close := by
  have hfree : ∀ x : MySqlDB, x.values = { m_bConnected := false } →
      (freeString db.m_szServer >>= fun _ => freeString db.m_szDB >>= fun _ =>
        freeString db.m_szUser >>= fun _ => freeString db.m_szPWD >>= fun _ => pure x).Shows libCalls
          (fun x v => v = x.values) (.ret { m_bConnected := false }) := by
    intro x hx
    refine (freeString_hides _).first fun _ _ => (freeString_hides _).first fun _ _ => ?_
    exact (freeString_hides _).first fun _ _ => (freeString_hides _).first fun _ _ => .ret hx.symm
  obtain ⟨m_pMySql⟩ := db
  -- only the handle makes a difference to what is seen
  cases m_pMySql with
  | none => exact hfree _ rfl
  | some h => exact .ask fun _ => hfree _ rfl

/-- What a pointer shows once `m_szDB` has been freed. -/
theorem argument_afterFree (x : StrArg) :
    ((db.argument x).map fun sz => (sz.afterFree db.m_szDB).chars) = x.afterFree db.values.m_szDB := by
  cases x with
  | text s => rfl
  | getDBName =>
    obtain ⟨m_pMySql, m_szServer, m_szDB⟩ := db
    cases m_szDB with
    | none => rfl
    | some sz => simp [argument, getDBName, CStr.afterFree, Str.cstr, StrArg.afterFree, values]

theorem arguments_afterFree (a : ConnectArgs StrArg) :
    shown ((a.bind db.argument).bind fun sz => some (sz.afterFree db.m_szDB)) =
      a.bind (StrArg.afterFree db.values.m_szDB) := by
  have hone : ∀ x : Option StrArg, ((x.bind db.argument).bind fun sz =>
      some (sz.afterFree db.m_szDB)).bind (fun sz => some sz.chars) =
        x.bind (StrArg.afterFree db.values.m_szDB) := by
    intro x
    cases x with
    | none => rfl
    | some x =>
      refine Eq.trans ?_ (db.argument_afterFree x)
      rw [Option.bind_some]
      cases db.argument x <;> rfl
  exact ConnectArgs.ext (hone _) (hone _) (hone _) (hone _) rfl

/-- **`Connect`**, wherever its arguments are. -/
theorem connect_shows (a : ConnectArgs StrArg) :
    (db.connect (a.bind db.argument)).Shows libCalls SameDB (db.values.connect a) := by
  unfold connect XeMySql.MySqlDB.connect
  dsimp only
  rw [← db.arguments_afterFree a]
  generalize (a.bind db.argument).bind (fun sz => some (sz.afterFree db.m_szDB)) = a
  refine db.close_shows.bind ?_
  rintro db _ rfl
  refine .ask fun r => ?_
  cases r with
  | none => exact (message_hides _ _ _).first fun _ _ => .ret rfl
  | some h =>
    refine (realConnect_shows h a).bind ?_
    rintro ok _ rfl
    cases ok with
    | false => exact (errorDump_hides _).first fun _ _ => .ret rfl
    | true =>
      refine (storeString_shows _ _).first fun m_szServer hServer => ?_
      refine (storeString_shows _ _).first fun m_szDB hDB => ?_
      refine (storeString_shows _ _).first fun m_szUser hUser => ?_
      refine (storeString_shows _ _).first fun m_szPWD hPWD => ?_
      refine .ask fun _ => .ret ?_
      simp only [SameDB, values] at hServer hDB hUser hPWD ⊢
      rw [← hServer, ← hDB, ← hUser, ← hPWD]
      simp only [shown, ConnectArgs.bind, Option.map_eq_bind]
      rfl

theorem discard_shows : db.discard.Shows libCalls (fun x v => v = x.values) db.values.discard := by
  obtain ⟨m_pMySql⟩ := db
  cases m_pMySql with
  | none => exact .ret rfl
  | some h => exact .ask fun _ => .ret rfl

/-- The connection with the stored parameters. -/
theorem stored_shows (h : Nat) (db : MySqlDB) :
    (realConnect h db.stored).Shows libCalls Eq
      (DbOp.req (.realConnect h db.values.stored)) := by
  have hshown : shown db.stored = db.values.stored := by
    have hone : ∀ sz : Option Str, (sz.map Str.cstr).bind (fun sz => some sz.chars) =
        sz.map (·.chars) := by
      intro sz
      cases sz <;> rfl
    exact ConnectArgs.ext (hone _) (hone _) (hone _) (hone _) rfl
  rw [← hshown]
  exact realConnect_shows h db.stored

/-- **`_Reconnect`** -/
theorem reconnect_shows : db.reconnect.Shows libCalls SameDB db.values.reconnect := by
  refine db.discard_shows.bind ?_
  rintro db _ rfl
  refine .ask fun r => ?_
  cases r with
  | none => exact (message_hides _ _ _).first fun _ _ => .ret rfl
  | some h =>
    refine (stored_shows h _).bind ?_
    rintro ok _ rfl
    cases ok with
    | false =>
      refine (errorDump_hides _).first fun _ _ => ?_
      exact (message_hides _ _ _).first fun _ _ => .ret rfl
    | true => exact .ask fun _ => (message_hides _ _ _).first fun _ _ => .ret rfl

/-- **`Connected`** -/
theorem connected_shows : db.connected.Shows libCalls SameDB db.values.connected := by
  obtain ⟨m_pMySql⟩ := db
  cases m_pMySql with
  | none => exact .ret rfl
  | some h =>
    refine .ask fun ok => ?_
    cases ok with
    | true => exact .ret rfl
    | false => exact (errorDump_hides _).first fun _ _ => reconnect_shows _

/-- **`UseDB`**, wherever its argument is. -/
theorem useDB_shows (x : StrArg) {szDB : CStr} (hsz : db.argument x = some szDB) :
    (db.useDB szDB).Shows libCalls SameDB (db.values.useDB x) := by
  have hchars : x.chars db.values.m_szDB = some szDB.chars := by
    cases x with
    | text s =>
      cases hsz
      rfl
    | getDBName =>
      obtain ⟨sz, hm, rfl⟩ := Option.map_eq_some_iff.mp hsz
      simp [StrArg.chars, values, hm, Str.cstr]
  have hafter := db.argument_afterFree x
  rw [hsz, Option.map_some] at hafter
  unfold XeMySql.MySqlDB.useDB
  rw [hchars, ← hafter]
  refine .hide (fun _ => rfl) fun _ => .ask fun ok => ?_
  cases ok with
  | false => exact .ret rfl
  | true =>
    -- what is copied is what is there after `free`
    refine (freeString_hides _).first fun _ _ => .hide (fun _ => rfl) fun p => ?_
    exact (message_hides _ _ _).first fun _ _ => .ret rfl

end MySqlDB

/-! ## `ExecuteSQL` and `Execut` -/

/-- What the two do when libmysql has refused a statement: report it, and send it again when it was the
connection and that is back. -/
def retry (report : MySqlDB → MemCode Unit) (send : MySqlDB → MemCode Bool) (db : MySqlDB) :
    MemCode (Bool × MySqlDB) := do
  let nError ← MemOp.req (.db (.errno db.m_pMySql))
  if XeMySql.MySqlDB.lost nError then do
    let (bConnected, db) ← db.connected
    if bConnected then do
      if ← send db then pure (true, db)
      else do
        report db
        report db
        pure (false, db)
    else do
      report db
      pure (false, db)
  else do
    report db
    pure (false, db)

/-- Sending a statement, and `retry` after that. -/
theorem sendAgain_shows (send : MySqlDB → MemCode Bool) (send' : XeMySql.MySqlDB → DbCode Bool)
    (hsend : ∀ db, (send db).Shows libCalls Eq (send' db.values)) {report : MySqlDB → MemCode Unit}
    (hreport : ∀ db, Hides (report db)) {first : MemCode Unit} (hfirst : Hides first) (db : MySqlDB) :
    (send db >>= fun ok => if ok then pure (true, db) else first >>= fun _ =>
      retry report send db).Shows libCalls SameDB (db.values.sendAgain send') := by
  have hfailed : ∀ db : MySqlDB, (report db >>= fun _ => pure (false, db)).Shows libCalls SameDB
      (.ret (false, db.values)) :=
    fun db => (hreport db).first fun _ _ => .ret rfl
  refine (hsend db).bind ?_
  rintro ok _ rfl
  cases ok with
  | true => exact .ret rfl
  | false =>
    refine hfirst.first fun _ _ => .ask fun (nError : Nat) => ?_
    simp only [Prog.bind_ret]
    have hback : libCalls.back (.errno db.m_pMySql) nError = nError := rfl
    rw [hback]
    by_cases hlost : XeMySql.MySqlDB.lost nError = true
    · rw [if_pos hlost, if_pos hlost]
      refine db.connected_shows.bind ?_
      rintro ⟨bConnected, db⟩ _ rfl
      cases bConnected with
      | false => exact hfailed db
      | true =>
        refine (hsend db).bind ?_
        rintro ok _ rfl
        cases ok with
        | true => exact .ret rfl
        -- reported twice
        | false => exact (hreport db).first fun _ _ => hfailed db
    · rw [if_neg hlost, if_neg hlost]
      exact hfailed db

/-- **`ExecuteSQL`** -/
theorem MySqlQuery.executeSQL_shows (q : MySqlQuery) (db : MySqlDB) (szCMD : Bytes) :
    (q.executeSQL db szCMD).Shows libCalls (fun x y => SameDB (x.1, x.2.2) y ∧ x.2.1.m_pDB = q.m_pDB)
      (XeMySql.MySqlQuery.executeOn db.values szCMD) := by
  refine (freeString_hides _).first fun _ _ => .hide (fun _ => rfl) fun p => ?_
  have hshows := sendAgain_shows (fun db => MemOp.req (.db (.realQuery db.m_pMySql szCMD)))
    (fun db => DbOp.req (.realQuery db.m_pMySql szCMD)) (fun _ => .ask fun _ => .ret rfl)
    errorDump_hides (message_hides db (CString.ascii "%s") (some (.ofText szCMD))) db
  have hmap := hshows.map (S := fun x y => SameDB (x.1, x.2.2) y ∧ x.2.1.m_pDB = q.m_pDB)
    (f := fun x => (x.1, { q with m_szSQL := some ⟨p, .text szCMD⟩ }, x.2)) fun x y h => ⟨h, rfl⟩
  unfold XeMySql.MySqlQuery.executeOn
  -- the two differ in where `q` is put back
  convert hmap using 1
  rw [bind_assoc]
  refine congrArg (Prog.op (MemOp.db (.realQuery db.m_pMySql szCMD))) (funext fun (ok : Bool) => ?_)
  cases ok <;> rfl

/-! ## `MySqlCmd` -/

namespace MySqlCmd

variable (cmd : MySqlCmd) (db : MySqlDB)

theorem errorDump_hides : Hides (cmd.errorDump db) := by
  unfold MySqlCmd.errorDump
  split
  · exact .ret trivial
  · exact .hide (fun _ => rfl) fun _ => message_hides _ _ _

/-- **`Execut`** -/
theorem execut_shows {v : XeMySql.MySqlCmd} (hv : cmd.Like v) :
    (cmd.execut db).Shows libCalls SameDB (v.execut db.values) := by
  obtain ⟨m_pMySql⟩ := db
  cases m_pMySql with
  | none => exact .ret rfl
  | some h =>
    unfold execut XeMySql.MySqlCmd.execut onStmt
    rw [hv.stmt]
    cases cmd.m_pStmt with
    | none => exact .ret rfl
    | some st =>
      have hfirst : Hides (pure () : MemCode Unit) := .ret trivial
      exact sendAgain_shows (fun _ => MemOp.req (.db (.stmtExecute st)))
        (fun _ => DbOp.req (.stmtExecute st)) (fun _ => .ask fun _ => .ret rfl)
        cmd.errorDump_hides hfirst _

/-- The same result, a `MySqlCmd` that is like the other, and still the `MySqlDB` `d`. -/
def Same (d : Option Nat) (x : Bool × MySqlCmd) (y : Bool × XeMySql.MySqlCmd) : Prop :=
  y.1 = x.1 ∧ x.2.Like y.2 ∧ x.2.m_pDB = d

theorem deleteNodes_hides (nodes : List (Option Nat)) : Hides (deleteNodes nodes) := by
  induction nodes with
  | nil => exact .ret trivial
  | cons node nodes ih => exact (deleteArray_hides node).first fun _ _ => ih

theorem deleteValues_hides : Hides cmd.deleteValues := by
  unfold deleteValues
  split
  · exact .ret trivial
  · refine (deleteNodes_hides _).first fun _ _ => ?_
    exact .hide (fun _ => rfl) fun _ => .ret trivial

/-- Of what `Reset` frees there is only the result set to be seen. -/
theorem discard_shows {v : XeMySql.MySqlCmd} (hv : cmd.Like v) :
    (cmd.discard >>= fun cmd => pure (true, cmd)).Shows libCalls (Same cmd.m_pDB)
      (v.freeMeta >>= fun _ => pure (true, { m_dwFieldCnt := v.m_dwFieldCnt })) := by
  have hend : Same cmd.m_pDB (true, { m_pDB := cmd.m_pDB, m_dwFieldCnt := cmd.m_dwFieldCnt })
      (true, { m_dwFieldCnt := v.m_dwFieldCnt }) :=
    ⟨rfl, ⟨rfl, rfl, hv.count, rfl, rfl⟩, rfl⟩
  unfold discard XeMySql.MySqlCmd.freeMeta
  rw [hv.metaRlt]
  simp only [bind_assoc]
  refine (deleteArray_hides _).first fun _ _ => (deleteArray_hides _).first fun _ _ => ?_
  refine cmd.deleteValues_hides.first fun _ _ => (deleteArray_hides _).first fun _ _ => ?_
  refine (deleteArray_hides _).first fun _ _ => ?_
  cases cmd.m_pMetaRlt with
  | none => exact .ret hend
  | some r => exact .ask fun _ => .ret hend

/-- **`Reset`** -/
theorem reset_shows {v : XeMySql.MySqlCmd} (hv : cmd.Like v) :
    (cmd.reset db.errorDump).Shows libCalls (Same cmd.m_pDB) v.reset := by
  unfold reset XeMySql.MySqlCmd.reset XeMySql.MySqlCmd.closeStmt
  rw [hv.stmt]
  cases hst : cmd.m_pStmt with
  | none => exact cmd.discard_shows hv
  | some st =>
    refine .ask fun ok => ?_
    cases ok with
    | true => exact cmd.discard_shows hv
    | false => exact (Memory.errorDump_hides db).first fun _ _ => .ret ⟨rfl, hv, rfl⟩

theorem newParams_hides (n : Nat) : Hides (newParams n) := by
  unfold newParams
  split
  · exact .hide (fun _ => rfl) fun _ => .hide (fun _ => rfl) fun _ => .ret trivial
  · exact .ret trivial

/-- **`SetCmd`** from the successful `mysql_stmt_prepare` on. -/
theorem setFields_shows {v : XeMySql.MySqlCmd} (hv : cmd.Like v) (st : Nat) :
    (cmd.setFields db st).Shows libCalls (Same cmd.m_pDB) (v.setFields st) := by
  refine .ask fun nParams => (newParams_hides _).first fun m_pParams _ => .ask fun (n : Nat) => ?_
  simp only [Prog.bind_ret]
  have hback : libCalls.back (.stmtFieldCount st) n = n := rfl
  rw [hback]
  by_cases hn : 0 < n
  · rw [if_pos hn, if_pos hn]
    refine .ask fun r => ?_
    cases r with
    | none =>
      refine (errorDump_hides _ db).first fun _ _ => .ret ⟨rfl, ?_, rfl⟩
      exact ⟨hv.stmt, hv.metaRlt, rfl, hv.row, hv.nodes⟩
    | some r =>
      -- the result set is stored, and the arrays are allocated
      refine .hide (fun _ => rfl) fun _ => .hide (fun _ => rfl) fun _ => ?_
      refine .hide (fun _ => rfl) fun _ => .hide (fun _ => rfl) fun _ => ?_
      refine .hide (fun _ => rfl) fun _ => .hide (fun _ => rfl) fun _ => ?_
      refine .hide (fun _ => rfl) fun _ => .hide (fun _ => rfl) fun _ => .ret ⟨rfl, ?_, rfl⟩
      exact ⟨hv.stmt, rfl, rfl, rfl, by simp⟩
  · rw [if_neg hn, if_neg hn]
    exact .ret ⟨rfl, ⟨hv.stmt, hv.metaRlt, rfl, hv.row, hv.nodes⟩, rfl⟩

/-- **`SetCmd`** -/
theorem setCmd_shows {v : XeMySql.MySqlCmd} (hv : cmd.Like v) (szCMD : Bytes) :
    (cmd.setCmd db szCMD).Shows libCalls (Same cmd.m_pDB) (v.setCmd db.values szCMD) := by
  unfold setCmd XeMySql.MySqlCmd.setCmd
  have hm : db.values.m_pMySql = db.m_pMySql := rfl
  rw [hm]
  cases db.m_pMySql with
  | none => exact .ret ⟨rfl, hv, rfl⟩
  | some h =>
    refine (cmd.reset_shows db hv).bind ?_
    rintro ⟨bReset, x⟩ ⟨bReset', v⟩ ⟨hb, hv, hd⟩
    obtain rfl : bReset' = bReset := hb
    cases bReset' with
    | false => exact .ret ⟨rfl, hv, hd⟩
    | true =>
      refine .ask fun st => ?_
      cases st with
      | none =>
        -- `m_pStmt` is NULL in both
        refine (Memory.errorDump_hides db).first fun _ _ => .ret ⟨rfl, ?_, hd⟩
        exact ⟨rfl, hv.metaRlt, hv.count, hv.row, hv.nodes⟩
      | some st =>
        have hv' : ({ x with m_pStmt := some st } : MySqlCmd).Like { v with m_pStmt := some st } :=
          ⟨rfl, hv.metaRlt, hv.count, hv.row, hv.nodes⟩
        refine .ask fun ok => ?_
        cases ok with
        | false => exact (errorDump_hides _ db).first fun _ _ => .ret ⟨rfl, hv', hd⟩
        | true =>
          have hshows := setFields_shows _ db hv' st
          rw [← hd]
          exact hshows

/-! ### Functions of which nothing is seen -/

/-- Code that needs a connection and a statement, and otherwise does nothing. -/
theorem onStmt_hides {α : Type} {Q : α → Unit → Prop} {otherwise : α} {act : Nat → MemCode α}
    (hnone : Q otherwise ()) (hact : ∀ st, (act st).Shows libCalls Q (.ret ())) :
    (cmd.onStmt db otherwise act).Shows libCalls Q (.ret ()) := by
  unfold onStmt
  split
  · exact hact _
  · exact .ret hnone

/-- A call that is reported when it fails. -/
theorem reporting_hides {call : Nat → MemCode Bool} (hcall : ∀ st, Hides (call st)) :
    Hides (cmd.onStmt db false fun st => cmd.reporting db (call st)) := by
  refine cmd.onStmt_hides db trivial fun st => (hcall st).first fun ok _ => ?_
  cases ok with
  | true => exact .ret trivial
  | false => exact (cmd.errorDump_hides db).first fun _ _ => .ret trivial

theorem setParam_hides (index : Int) (bType : UInt8) (pValue dwBufferLen pDataLen : Nat)
    (bSQLType : Option FieldType) :
    Hides (cmd.setParam db index bType pValue dwBufferLen pDataLen bSQLType) := by
  refine cmd.onStmt_hides db trivial fun _ => ?_
  cases cmd.m_pParams with
  | none => exact message_hides _ _ _
  | some p =>
    dsimp only
    split
    · exact message_hides _ _ _
    · exact .hide (fun _ => rfl) fun _ => .ret trivial

/-- `SetLen` only replaces the array of a node. -/
theorem setLen_shows {v : XeMySql.MySqlCmd} (hv : cmd.Like v) (p dwLen : Nat) :
    (cmd.setLen p dwLen).Shows libCalls (fun x _ => x.Like v ∧ x.m_pDB = cmd.m_pDB) (.ret ()) := by
  refine .hide (fun _ => rfl) fun _ => (deleteArray_hides _).first fun _ _ => ?_
  refine .hide (fun _ => rfl) fun _ => .ret ⟨⟨hv.stmt, hv.metaRlt, hv.count, hv.row, ?_⟩, rfl⟩
  rw [hv.nodes, List.length_set]

theorem setRltField_shows {v : XeMySql.MySqlCmd} (hv : cmd.Like v) (index : Int) (bType : UInt8)
    (dwBufferLen : Nat) :
    (cmd.setRltField db index bType dwBufferLen).Shows libCalls
      (fun x _ => x.Like v ∧ x.m_pDB = cmd.m_pDB) (.ret ()) := by
  have hmessage : (db.errorDumpSimple (CString.ascii "Error: invalid param index.") none >>=
      fun _ => pure cmd).Shows libCalls (fun x _ => x.Like v ∧ x.m_pDB = cmd.m_pDB) (.ret ()) :=
    (message_hides _ _ _).first fun _ _ => .ret ⟨hv, rfl⟩
  refine cmd.onStmt_hides db ⟨hv, rfl⟩ fun _ => ?_
  dsimp only
  split
  · exact hmessage
  · split
    · exact hmessage
    · split
      · exact undefined_shows
      · refine (cmd.setLen_shows hv _ _).first fun x hx => ?_
        exact .hide (fun _ => rfl) fun _ => .hide (fun _ => rfl) fun _ => .ret hx

theorem searchFrom_hides (r : Nat) (szField : Bytes) (left i : Nat) :
    Hides (searchFrom r szField left i) := by
  induction left generalizing i with
  | zero => exact .ret trivial
  | succ left ih =>
    refine .hide (fun _ => rfl) fun name => ?_
    simp only [Prog.bind_ret]
    split
    · exact .ret trivial
    · exact ih _

theorem lookAt_hides (szField : Bytes) : Hides (cmd.lookAt szField) := by
  have hindex : Hides (cmd.getFieldIndex szField) := by
    unfold getFieldIndex
    split
    · exact searchFrom_hides _ _ _ _
    · exact .ret trivial
  refine hindex.first fun o _ => ?_
  split
  · exact .ret trivial
  · split
    · exact undefined_shows
    · exact .hide (fun _ => rfl) fun _ => .ret trivial

end MySqlCmd

/-! ## Programs -/

/-- A call of a function of `MySqlDB`, without memory. -/
def DbCall.values (db : XeMySql.MySqlDB) : DbCall → DbCode XeMySql.MySqlDB
  | connect a => do
    let (_, db) ← db.connect a
    pure db
  | close => db.close
  | connected => do
    let (_, db) ← db.connected
    pure db
  | useDB szDB => do
    let (_, db) ← db.useDB szDB
    pure db
  | setCallBackFunc _ => pure db

/-- A call of a function of `MySqlCmd`, without memory. -/
def CmdCall.values (cmd : XeMySql.MySqlCmd) (db : XeMySql.MySqlDB) :
    CmdCall → DbCode (XeMySql.MySqlCmd × XeMySql.MySqlDB)
  | setCmd szCMD => do
    let (_, cmd) ← cmd.setCmd db szCMD
    pure (cmd, db)
  | reset => do
    let (_, cmd) ← cmd.reset
    pure (cmd, db)
  | execut => do
    let (_, db) ← cmd.execut db
    pure (cmd, db)
  | _ => pure (cmd, db)

/-- What a program does with its `MySqlDB`, its `MySqlQuery` and its `MySqlCmd`. -/
inductive Step where
  | db (call : DbCall)
  | executeSQL (szCMD : Bytes)
  | cmd (call : CmdCall)

/-- It is a call on the first objects. -/
def Step.call : Step → Call
  | db call => .db 0 call
  | executeSQL szCMD => .query 0 (.executeSQL szCMD)
  | cmd call => .cmd 0 call

/-- A program that makes one object of each class. -/
def single (m_bConnected : Bool) (m_dwFieldCnt : Nat) (steps : List Step) : List Call :=
  .newDB m_bConnected :: .newQuery (some 0) :: .newCmd (some 0) m_dwFieldCnt :: steps.map Step.call

/-- Its objects without memory. -/
structure Values where
  db : XeMySql.MySqlDB
  cmd : XeMySql.MySqlCmd

namespace Values

/-- A step. -/
def step (v : Values) : Step → DbCode Values
  | .db call => do
    let db ← call.values v.db
    pure { v with db := db }
  | .executeSQL szCMD => do
    let (_, db) ← XeMySql.MySqlQuery.executeOn v.db szCMD
    pure { v with db := db }
  | .cmd call => do
    let (cmd, db) ← call.values v.cmd v.db
    pure ⟨db, cmd⟩

/-- One step after the other. -/
def run (v : Values) : List Step → DbCode Values
  | [] => pure v
  | x :: steps => do
    let v ← v.step x
    v.run steps

end Values

/-- The objects of the program, with and without memory. -/
def Single (w : World) (v : Values) : Prop :=
  ∃ db q cmd, w = ⟨[⟨db, true⟩], [⟨q, true⟩], [⟨cmd, true⟩]⟩ ∧ q.m_pDB = some 0 ∧
    cmd.m_pDB = some 0 ∧ v.db = db.values ∧ cmd.Like v.cmd

/-- **One call of a function of `MySqlDB`.** -/
theorem DbCall.shows (db : MySqlDB) (c : DbCall) :
    (c.code db).Shows libCalls (fun x v => v = x.values) (c.values db.values) := by
  have hdrop : ∀ {p : MemCode (Bool × MySqlDB)} {q : DbCode (Bool × XeMySql.MySqlDB)},
      p.Shows libCalls SameDB q → (p >>= fun x => pure x.2).Shows libCalls (fun x v => v = x.values)
        (q >>= fun y => pure y.2) := by
    intro p q h
    refine h.bind ?_
    rintro x _ rfl
    exact .ret rfl
  cases c with
  | connect a => exact hdrop (db.connect_shows a)
  | close => exact db.close_shows
  | connected => exact hdrop db.connected_shows
  | useDB szDB =>
    unfold code
    dsimp only
    cases hsz : db.argument szDB with
    | none => exact undefined_shows
    | some sz => exact hdrop (db.useDB_shows szDB hsz)
  | setCallBackFunc pFunc => exact .ret rfl

/-- **One call of a function of `MySqlCmd`.** -/
theorem CmdCall.shows {cmd : MySqlCmd} {v : XeMySql.MySqlCmd} (hv : cmd.Like v) (db : MySqlDB)
    (c : CmdCall) : (c.code cmd db).Shows libCalls
      (fun x y => y.2 = x.2.values ∧ x.1.Like y.1 ∧ x.1.m_pDB = cmd.m_pDB)
      (c.values v db.values) := by
  have hkeep : ∀ {α : Type} {p : MemCode α}, Hides p → (p >>= fun _ => pure (cmd, db)).Shows libCalls
      (fun x y => y.2 = x.2.values ∧ x.1.Like y.1 ∧ x.1.m_pDB = cmd.m_pDB)
      (.ret (v, db.values)) :=
    fun h => h.first fun _ _ => .ret ⟨rfl, hv, rfl⟩
  cases c with
  | setCmd szCMD => exact (cmd.setCmd_shows db hv szCMD).bind fun _ _ h => .ret ⟨rfl, h.2⟩
  | reset => exact (cmd.reset_shows db hv).bind fun _ _ h => .ret ⟨rfl, h.2⟩
  | setParam index bType pValue dwBufferLen pDataLen bSQLType =>
    exact hkeep (cmd.setParam_hides db index bType pValue dwBufferLen pDataLen bSQLType)
  | bindParams =>
    exact hkeep (cmd.reporting_hides db fun _ => .hide (fun _ => rfl) fun _ => .ret trivial)
  | execut =>
    refine (cmd.execut_shows db hv).bind ?_
    rintro x _ rfl
    exact .ret ⟨rfl, hv, rfl⟩
  | setRltField index bType dwBufferLen =>
    exact (cmd.setRltField_shows db hv index bType dwBufferLen).first fun _ h => .ret ⟨rfl, h⟩
  | bindRltFields =>
    exact hkeep (cmd.reporting_hides db fun _ => .hide (fun _ => rfl) fun _ => .ret trivial)
  | fetchRecords =>
    exact hkeep (cmd.reporting_hides db fun _ => .hide (fun _ => rfl) fun _ => .ret trivial)
  | getRecordsCnt =>
    refine hkeep (cmd.onStmt_hides db trivial fun st => ?_)
    cases cmd.m_pFields with
    | none => exact .ret trivial
    | some r => exact .hide (fun _ => rfl) fun _ => .ret trivial
  | fetchRow =>
    refine hkeep (cmd.onStmt_hides db trivial fun st => ?_)
    cases cmd.m_pFields with
    | none => exact .ret trivial
    | some r => exact .hide (fun _ => rfl) fun _ => .ret trivial
  | lookAt szField => exact hkeep (cmd.lookAt_hides szField)

section

variable {w : World} {v : Values}

/-- **One step of the program.** -/
theorem Single.step (h : Single w v) (x : Step) :
    (w.call x.call).Shows libCalls Single (v.step x) := by
  obtain ⟨db, q, cmd, rfl, hq, hc, hdb, hv⟩ := h
  obtain ⟨vdb, vcmd⟩ := v
  obtain rfl : vdb = db.values := hdb
  cases x with
  | db call =>
    refine (call.shows db).bind ?_
    rintro db _ rfl
    exact .ret ⟨db, q, cmd, rfl, hq, hc, rfl, hv⟩
  | executeSQL szCMD =>
    have hcode : (QueryCall.code q db (.executeSQL szCMD)).Shows libCalls
        (fun x y => y.2 = x.2.values ∧ x.1.m_pDB = q.m_pDB)
        (XeMySql.MySqlQuery.executeOn db.values szCMD) := by
      refine (q.executeSQL_shows db szCMD).map (f := fun x => x.2) ?_
      rintro x _ ⟨rfl, hd⟩
      exact ⟨rfl, hd⟩
    obtain ⟨m_pDB, m_pRecords, m_dwFieldCnt, m_szSQL⟩ := q
    obtain rfl : m_pDB = some 0 := hq
    refine hcode.bind ?_
    rintro ⟨q, db⟩ ⟨b, _⟩ ⟨rfl, hd⟩
    exact .ret ⟨db, q, cmd, rfl, hd, hc, rfl, hv⟩
  | cmd call =>
    have hcode := call.shows hv db
    obtain ⟨m_pDB⟩ := cmd
    obtain rfl : m_pDB = some 0 := hc
    refine hcode.bind ?_
    rintro ⟨cmd, db⟩ ⟨vcmd, _⟩ ⟨rfl, hv, hd⟩
    exact .ret ⟨db, q, cmd, rfl, hq, hd, rfl, hv⟩

theorem Single.run (h : Single w v) (steps : List Step) :
    (w.run (steps.map Step.call)).Shows libCalls Single (v.run steps) := by
  induction steps generalizing w v with
  | nil => exact .ret h
  | cons x steps ih => exact (h.step x).bind fun _ _ h => ih h

theorem newResult_db (s : MemEnv) (o : Outcome) : (s.newResult o).1.db = s.db := by
  unfold MemEnv.newResult
  split <;> rfl

/-- An answer to a call that is seen is one that libmysql can give without memory. A result set has a
number of its own. -/
theorem exec_seen {e : DbOp} {o : Outcome} {s s₁ : MemEnv} {r : e.Reply}
    (he : MemOp.exec (.db e) o s = some (s₁, some r)) :
    ∃ o', e.exec o' s.db = some (s₁.db, some r) := by
  have hmap : (e.exec o s.db).map (fun x => (({ s with db := x.1 } : MemEnv), x.2)) =
      some (s₁, some r) → ∃ o', e.exec o' s.db = some (s₁.db, some r) := by
    intro h
    obtain ⟨⟨env, reply⟩, hx, heq⟩ := Option.map_eq_some_iff.mp h
    cases heq
    exact ⟨o, hx⟩
  cases e with
  | stmtResultMetadata st =>
    cases he
    refine ⟨{ o with number := s.results }, ?_⟩
    rw [newResult_db]
    by_cases ho : o.ok = true <;> simp [DbOp.exec, MemEnv.newResult, ho]
  | query h q =>
    cases h with
    | none => cases he
    | some h => exact hmap he
  | realQuery h q =>
    cases h with
    | none => cases he
    | some h => exact hmap he
  | _ => exact hmap he

/-- Hidden requests hand out no handle and no statement. -/
theorem exec_hidden {e : MemOp} {o : Outcome} {s s₁ : MemEnv} {r : Option e.Reply}
    (hidden : libCalls.Hidden e) (he : e.exec o s = some (s₁, r)) : s₁.db = s.db := by
  cases e with
  | db e =>
    cases r with
    | none => exact absurd he (never_waits _ o s s₁)
    | some r => cases hidden r
  | storeResult h =>
    cases h with
    | none => cases he
    | some h =>
      cases he
      exact newResult_db s o
  | useResult h =>
    cases h with
    | none => cases he
    | some h =>
      cases he
      exact newResult_db s o
  | fieldCount h =>
    cases h with
    | none => cases he
    | some h =>
      cases he
      rfl
  | fetchRow p =>
    cases p with
    | none => cases he
    | some p =>
      cases he
      rfl
  | undefined => cases he
  | _ =>
    cases he
    rfl

/-- The server is lost before a statement, and then a prepared statement is executed. -/
def lostOnce : List Step :=
  [.db (.connect ⟨some (.text [104]), none, none, none, 3306⟩), .executeSQL [113], .cmd (.setCmd [113]),
    .cmd .execut]

end

end XeMySql.Memory
