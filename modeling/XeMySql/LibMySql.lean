import XeMySql.ThreadPool

/-!
# The client library (`mysql.h`)

What the program uses of libmysql: handles, statements and result sets, numbered in the order in
which the library hands them out. Whether a call succeeds is the environment's choice. The state
kept of a handle is what its calls change: the server it is connected to, the current database and
the options, the error number, and whether a result is still unread. A command on a handle with an
unread result is refused as out of sync, and a statement that has not been prepared can neither be
bound nor executed.

The library does not check its handles. A call on a closed one has an effect here like on any
other; that such calls are made shows in the history of a run.
-/

namespace XeMySql

open Interact

/-- The parameters of `mysql_real_connect` that the program chooses. -/
structure ConnParams where
  host : Bytes
  user : Bytes
  passwd : Bytes
  db : Bytes
  port : Nat
deriving DecidableEq

/-- `MYSQL` -/
structure MYSQL where
  server : Option ConnParams := none
  db : Bytes := []
  charset : Option Bytes := none
  reconnect : Bool := false
  errno : Nat := 0
  fieldCount : Nat := 0
  /-- a result has neither been stored nor discarded -/
  pending : Bool := false
deriving DecidableEq

/-- `MYSQL_STMT` -/
structure MYSQL_STMT where
  mysql : Nat
  prepared : Bool := false
  paramCount : Nat := 0
deriving DecidableEq

/-- `MYSQL_BIND`; a field that has not been assigned is `none`. -/
structure MYSQL_BIND where
  bufferType : Option Nat := none
  buffer : Option Nat := none
  bufferLength : Option Nat := none
  length : Option Nat := none
  isNull : Option Nat := none
  isUnsigned : Option Bool := none
deriving DecidableEq

/-- The library's handles, statements and result sets. -/
structure LibMySql where
  handles : Nat := 0
  mysql : Nat → MYSQL := fun _ => {}
  stmts : Nat := 0
  stmt : Nat → MYSQL_STMT := fun _ => { mysql := 0 }
  results : Nat := 0

/-- The calls of the library. Handles, statements and result sets are numbers. -/
inductive LibOp where
  | init
  | realConnect (h : Nat) (p : ConnParams)
  | setCharsetName (h : Nat) (name : Bytes)
  | setReconnect (h : Nat)
  | close (h : Nat)
  | errno (h : Nat)
  | error (h : Nat)
  | selectDb (h : Nat) (db : Bytes)
  | realQuery (h : Nat) (q : Bytes)
  | storeResult (h : Nat)
  | fieldCount (h : Nat)
  | freeResult (r : Nat)
  | stmtInit (h : Nat)
  | stmtPrepare (st : Nat) (q : Bytes)
  | stmtParamCount (st : Nat)
  | stmtBindParam (st : Nat) (binds : List MYSQL_BIND)
  | stmtExecute (st : Nat)
  | stmtClose (st : Nat)
deriving DecidableEq

namespace LibOp

/-- The answers: pointers are `none` for NULL, status codes are `true` for success. -/
abbrev Reply : LibOp → Type
  | init => Option Nat
  | realConnect _ _ => Bool
  | setCharsetName _ _ => Bool
  | setReconnect _ => Bool
  | close _ => Unit
  | errno _ => Nat
  | error _ => Bytes
  | selectDb _ _ => Bool
  | realQuery _ _ => Bool
  | storeResult _ => Option Nat
  | fieldCount _ => Nat
  | freeResult _ => Unit
  | stmtInit _ => Option Nat
  | stmtPrepare _ _ => Bool
  | stmtParamCount _ => Nat
  | stmtBindParam _ _ => Bool
  | stmtExecute _ => Bool
  | stmtClose _ => Bool

/-- The handle the call is given. -/
def handle : LibOp → Option Nat
  | realConnect h _ => some h
  | setCharsetName h _ => some h
  | setReconnect h => some h
  | close h => some h
  | errno h => some h
  | error h => some h
  | selectDb h _ => some h
  | realQuery h _ => some h
  | storeResult h => some h
  | fieldCount h => some h
  | stmtInit h => some h
  | _ => none

/-- The calls that send a statement to the server. -/
def sends : LibOp → Bool
  | realQuery _ _ => true
  | stmtPrepare _ _ => true
  | stmtExecute _ => true
  | _ => false

/-- A libmysql call on a statement. -/
def onStmt : LibOp → Bool
  | .stmtInit _ => true
  | .stmtPrepare _ _ => true
  | .stmtParamCount _ => true
  | .stmtBindParam _ _ => true
  | .stmtExecute _ => true
  | .stmtClose _ => true
  | _ => false

end LibOp

namespace LibMySql

/-- `CR_COMMANDS_OUT_OF_SYNC` -/
def outOfSync : Nat := 2014

/-- Handle `h` becomes `m`. -/
def withMysql (s : LibMySql) (h : Nat) (m : MYSQL) : LibMySql :=
  { s with mysql := Function.update s.mysql h m }

/-- A command sent on handle `h`: refused while a result is unread, otherwise the environment
decides between failing with an error number and `done`. -/
def command (s : LibMySql) (h : Nat) (o : Outcome) (done : MYSQL) : LibMySql × Bool :=
  if (s.mysql h).pending then (s.withMysql h { s.mysql h with errno := outOfSync }, false)
  else if o.ok then (s.withMysql h { done with errno := 0 }, true)
  else (s.withMysql h { s.mysql h with errno := o.number }, false)

/-- One call of the library. -/
def exec : (e : LibOp) → Outcome → LibMySql → LibMySql × e.Reply
  | .init, o, s =>
    if o.ok then ({ s.withMysql s.handles {} with handles := s.handles + 1 }, some s.handles)
    else (s, none)
  | .realConnect h p, o, s =>
    if o.ok then (s.withMysql h { s.mysql h with server := some p, db := p.db }, true)
    else (s.withMysql h { s.mysql h with errno := o.number }, false)
  | .setCharsetName h name, o, s =>
    if o.ok then (s.withMysql h { s.mysql h with charset := some name }, true) else (s, false)
  | .setReconnect h, o, s =>
    if o.ok then (s.withMysql h { s.mysql h with reconnect := true }, true) else (s, false)
  | .close _, _, s => (s, ())
  | .errno h, _, s => (s, (s.mysql h).errno)
  | .error _, o, s => (s, o.text)
  | .selectDb h db, o, s => s.command h o { s.mysql h with db := db }
  | .realQuery h _, o, s =>
    -- a statement may itself select a database (`USE`); one with columns leaves a result
    s.command h o { s.mysql h with
      db := o.useDb.getD (s.mysql h).db, fieldCount := o.number, pending := o.number != 0 }
  | .storeResult h, o, s =>
    if (s.mysql h).pending then
      let s' := s.withMysql h { s.mysql h with pending := false }
      if o.ok then ({ s' with results := s.results + 1 }, some s.results) else (s', none)
    else (s, none)
  | .fieldCount h, _, s => (s, (s.mysql h).fieldCount)
  | .freeResult _, _, s => (s, ())
  | .stmtInit h, o, s =>
    if o.ok then
      ({ s with stmts := s.stmts + 1, stmt := Function.update s.stmt s.stmts { mysql := h } },
        some s.stmts)
    else (s, none)
  | .stmtPrepare st _, o, s =>
    let (s', ok) := s.command (s.stmt st).mysql o (s.mysql (s.stmt st).mysql)
    if ok then
      ({ s' with
          stmt := Function.update s.stmt st
            { s.stmt st with prepared := true, paramCount := o.number } }, true)
    else (s', false)
  | .stmtParamCount st, _, s => (s, (s.stmt st).paramCount)
  | .stmtBindParam st _, o, s => (s, (s.stmt st).prepared && o.ok)
  | .stmtExecute st, o, s =>
    let h := (s.stmt st).mysql
    if (s.stmt st).prepared then
      s.command h o { s.mysql h with db := o.useDb.getD (s.mysql h).db, pending := o.number != 0 }
    else (s, false)
  | .stmtClose st, o, s =>
    let h := (s.stmt st).mysql
    (s.withMysql h { s.mysql h with pending := false }, o.ok)

/-- The handle a call works on, its own or that of its statement. -/
def target (y : LibMySql) : LibOp → Option Nat
  | .init => none
  | .freeResult _ => none
  | .realConnect h _ => some h
  | .setCharsetName h _ => some h
  | .setReconnect h => some h
  | .close h => some h
  | .errno h => some h
  | .error h => some h
  | .selectDb h _ => some h
  | .realQuery h _ => some h
  | .storeResult h => some h
  | .fieldCount h => some h
  | .stmtInit h => some h
  | .stmtPrepare st _ => some (y.stmt st).mysql
  | .stmtParamCount st => some (y.stmt st).mysql
  | .stmtBindParam st _ => some (y.stmt st).mysql
  | .stmtExecute st => some (y.stmt st).mysql
  | .stmtClose st => some (y.stmt st).mysql

/-! ## What calls leave as it is -/

variable {y : LibMySql} {e : LibOp} {o : Outcome}

theorem command_same (y : LibMySql) (h : Nat) (o : Outcome) (m : MYSQL) :
    (y.command h o m).1.handles = y.handles ∧ (y.command h o m).1.stmts = y.stmts ∧
      (y.command h o m).1.stmt = y.stmt := by
  unfold command
  split
  · exact ⟨rfl, rfl, rfl⟩
  · split <;> exact ⟨rfl, rfl, rfl⟩

/-- Whether a connection can be made is up to the environment. -/
theorem exec_realConnect_snd (h : Nat) (p : ConnParams) : (y.exec (.realConnect h p) o).2 = o.ok := by
  simp only [exec]
  cases o.ok <;> rfl

/-- Only `mysql_init`, `mysql_stmt_init` and `mysql_stmt_prepare` change what there is besides the
contents of the handles. -/
theorem exec_same (h1 : e ≠ .init) (h2 : ∀ h, e ≠ .stmtInit h) (h3 : ∀ st q, e ≠ .stmtPrepare st q) :
    (y.exec e o).1.handles = y.handles ∧ (y.exec e o).1.stmts = y.stmts ∧
      (y.exec e o).1.stmt = y.stmt := by
  cases e with
  | init => exact absurd rfl h1
  | stmtInit h => exact absurd rfl (h2 h)
  | stmtPrepare st q => exact absurd rfl (h3 st q)
  | selectDb h db => exact y.command_same h o _
  | realQuery h q => exact y.command_same h o _
  | stmtExecute st =>
    simp only [exec]
    split
    · exact y.command_same _ o _
    · exact ⟨rfl, rfl, rfl⟩
  | storeResult h =>
    simp only [exec]
    split
    · split <;> exact ⟨rfl, rfl, rfl⟩
    · exact ⟨rfl, rfl, rfl⟩
  | realConnect h p =>
    simp only [exec]
    split <;> exact ⟨rfl, rfl, rfl⟩
  | setCharsetName h n =>
    simp only [exec]
    split <;> exact ⟨rfl, rfl, rfl⟩
  | setReconnect h =>
    simp only [exec]
    split <;> exact ⟨rfl, rfl, rfl⟩
  | _ => exact ⟨rfl, rfl, rfl⟩

/-- What `mysql_stmt_prepare` does to the statements. -/
theorem exec_stmtPrepare (y : LibMySql) (o : Outcome) (st : Nat) (q : Bytes) :
    (y.exec (.stmtPrepare st q) o).1.handles = y.handles ∧
      (y.exec (.stmtPrepare st q) o).1.stmts = y.stmts ∧
      ((y.exec (.stmtPrepare st q) o).2 = true ∧ (y.exec (.stmtPrepare st q) o).1.stmt
          = Function.update y.stmt st { y.stmt st with prepared := true, paramCount := o.number } ∨
        (y.exec (.stmtPrepare st q) o).2 = false ∧
          (y.exec (.stmtPrepare st q) o).1.stmt = y.stmt) := by
  obtain ⟨h1, h2, h3⟩ := y.command_same (y.stmt st).mysql o (y.mysql (y.stmt st).mysql)
  simp only [exec]
  split
  · exact ⟨h1, h2, Or.inl ⟨rfl, rfl⟩⟩
  · exact ⟨h1, h2, Or.inr ⟨rfl, h3⟩⟩

/-- Only `mysql_store_result` hands out result sets. -/
theorem exec_results (he : ∀ h, e ≠ .storeResult h) : (y.exec e o).1.results = y.results := by
  have hcommand : ∀ h m, (y.command h o m).1.results = y.results := by
    intro h m
    unfold command
    split
    · rfl
    · split <;> rfl
  cases e with
  | storeResult h => exact absurd rfl (he h)
  | selectDb h db => exact hcommand h _
  | realQuery h q => exact hcommand h _
  | stmtPrepare st q =>
    simp only [exec]
    split <;> exact hcommand _ _
  | stmtExecute st =>
    simp only [exec]
    split
    · exact hcommand _ _
    · rfl
  | init =>
    simp only [exec]
    split <;> rfl
  | realConnect h p =>
    simp only [exec]
    split <;> rfl
  | setCharsetName h n =>
    simp only [exec]
    split <;> rfl
  | setReconnect h =>
    simp only [exec]
    split <;> rfl
  | stmtInit h =>
    simp only [exec]
    split <;> rfl
  | _ => rfl

/-- What `mysql_store_result` does to them. -/
theorem exec_storeResult (y : LibMySql) (h : Nat) (o : Outcome) :
    (y.exec (.storeResult h) o).2 = none ∧ (y.exec (.storeResult h) o).1.results = y.results ∨
      (y.exec (.storeResult h) o).2 = some y.results ∧
        (y.exec (.storeResult h) o).1.results = y.results + 1 := by
  simp only [exec]
  split
  · split
    · exact Or.inr ⟨rfl, rfl⟩
    · exact Or.inl ⟨rfl, rfl⟩
  · exact Or.inl ⟨rfl, rfl⟩

theorem withMysql_of_ne (y : LibMySql) {h x : Nat} (hx : x ≠ h) (m : MYSQL) :
    (y.withMysql h m).mysql x = y.mysql x :=
  Function.update_of_ne hx ..

@[simp] theorem withMysql_self (y : LibMySql) (h : Nat) (m : MYSQL) :
    (y.withMysql h m).mysql h = m :=
  Function.update_self ..

theorem command_of_ne (y : LibMySql) {h x : Nat} (hx : x ≠ h) (o : Outcome) (m : MYSQL) :
    (y.command h o m).1.mysql x = y.mysql x := by
  unfold command
  split
  · exact y.withMysql_of_ne hx _
  · split <;> exact y.withMysql_of_ne hx _

/-- Only `mysql_init` hands out handles. -/
theorem exec_handles (he : e ≠ .init) : (y.exec e o).1.handles = y.handles := by
  cases e with
  | init => exact absurd rfl he
  | stmtInit h =>
    simp only [exec]
    split <;> rfl
  | stmtPrepare st q => exact (y.exec_stmtPrepare o st q).1
  | _ => exact (exec_same (by simp) (by simp) (by simp)).1

/-- Only `mysql_stmt_init` hands out statements. -/
theorem exec_stmts (he : ∀ h, e ≠ .stmtInit h) : (y.exec e o).1.stmts = y.stmts := by
  cases e with
  | init =>
    simp only [exec]
    split <;> rfl
  | stmtInit h => exact absurd rfl (he h)
  | stmtPrepare st q => exact (y.exec_stmtPrepare o st q).2.1
  | _ => exact (exec_same (by simp) (by simp) (by simp)).2.1

/-- A call changes no handle but the one it works on, and the one it may create. -/
theorem exec_of_ne {x : Nat} (hx : y.target e ≠ some x) (hlt : x < y.handles) :
    (y.exec e o).1.mysql x = y.mysql x := by
  have hne : ∀ {h}, some h ≠ some x → x ≠ h := fun h he => h (congrArg some he.symm)
  cases e with
  | init =>
    simp only [exec]
    split
    · exact y.withMysql_of_ne (Nat.ne_of_lt hlt) _
    · rfl
  | realConnect h p =>
    simp only [exec]
    split <;> exact y.withMysql_of_ne (hne hx) _
  | setCharsetName h n =>
    simp only [exec]
    split
    · exact y.withMysql_of_ne (hne hx) _
    · rfl
  | setReconnect h =>
    simp only [exec]
    split
    · exact y.withMysql_of_ne (hne hx) _
    · rfl
  | selectDb h db => exact y.command_of_ne (hne hx) o _
  | realQuery h q => exact y.command_of_ne (hne hx) o _
  | storeResult h =>
    simp only [exec]
    split
    · split <;> exact y.withMysql_of_ne (hne hx) _
    · rfl
  | stmtInit h =>
    simp only [exec]
    split <;> rfl
  | stmtPrepare st q =>
    simp only [exec]
    split <;> exact y.command_of_ne (hne hx) o _
  | stmtExecute st =>
    simp only [exec]
    split
    · exact y.command_of_ne (hne hx) o _
    · rfl
  | stmtClose st => exact y.withMysql_of_ne (hne hx) _
  | _ => rfl

/-- Handles and statements stay what they are; there may be more of them. -/
structure Grows (y y' : LibMySql) : Prop where
  handles : y.handles ≤ y'.handles
  stmts : y.stmts ≤ y'.stmts
  stmt : ∀ st < y.stmts, (y'.stmt st).mysql = (y.stmt st).mysql

theorem Grows.of_eq {y' : LibMySql} (hh : y'.handles = y.handles) (hs : y'.stmts = y.stmts)
    (hst : y'.stmt = y.stmt) : y.Grows y' :=
  ⟨by omega, by omega, fun st _ => by rw [hst]⟩

/-- **Every call of the library lets it grow.** -/
theorem exec_grows (y : LibMySql) (e : LibOp) (o : Outcome) : y.Grows (y.exec e o).1 := by
  by_cases h1 : e = .init
  · subst h1
    simp only [exec]
    split
    · exact ⟨Nat.le_succ _, Nat.le_refl _, fun _ _ => rfl⟩
    · exact .of_eq rfl rfl rfl
  by_cases h2 : ∃ h, e = .stmtInit h
  · obtain ⟨h, rfl⟩ := h2
    simp only [exec]
    split
    · refine ⟨Nat.le_refl _, Nat.le_succ _, fun st hst => ?_⟩
      show (Function.update y.stmt y.stmts _ st).mysql = _
      rw [Function.update_of_ne (by omega)]
    · exact .of_eq rfl rfl rfl
  by_cases h3 : ∃ st q, e = .stmtPrepare st q
  · obtain ⟨st, q, rfl⟩ := h3
    obtain ⟨hh, hs, ⟨-, hst⟩ | ⟨-, hst⟩⟩ := y.exec_stmtPrepare o st q
    · refine ⟨by omega, by omega, fun st' _ => ?_⟩
      rw [hst]
      by_cases he : st' = st
      · subst he
        rw [Function.update_self]
      · rw [Function.update_of_ne he]
    · exact .of_eq hh hs hst
  · obtain ⟨hh, hs, hst⟩ := exec_same (y := y) (o := o) h1 (fun h he => h2 ⟨h, he⟩)
      fun st q he => h3 ⟨st, q, he⟩
    exact .of_eq hh hs hst

end LibMySql

end XeMySql
