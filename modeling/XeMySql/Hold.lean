import XeMySql.System

/-!
# What a call knows of the connection it holds

The discipline of the functions that work on a pooled connection: lock one with `GetFreeCon`, use
no other handle than that connection's (or the new one `Reconnect` puts in its place), unlock it,
and lock no other.

* `reconnect_follows`, `queryOn_follows`, `queryBlobOn_follows` — the code inside the lock
* `code_follows` — every call that is not `Connect`, `Close` or `Reconnect` itself
-/

namespace XeMySql

open Interact

/--
What a thread knows of its connection during a call.

`con` is the connection it has locked, `left` the one it has unlocked, `mysql` the handle it has
read from the locked one. `temp` is the new handle of `Reconnect`, `params` what it has read of the
connection's parameters, `connected` what `temp` has been connected with. `stmt` is the statement.
-/
structure Hold where
  con : Option Nat := none
  left : Option Nat := none
  mysql : Option Nat := none
  temp : Option Nat := none
  params : Option ConnParams := none
  connected : Option ConnParams := none
  stmt : Option Nat := none
deriving DecidableEq

namespace Hold

/-- The handle is the connection's, or the new one. -/
def Owns (l : Hold) (h : Nat) : Prop := l.mysql = some h ∨ l.temp = some h

/-- What a thread may ask. -/
def may (l : Hold) : Op → Prop
  | .con .getFreeCon => l.con = none ∧ l.left = none
  | .con (.unLock c) => l.con = some c ∧ l.temp = none ∧ l.stmt = none
  | .con (.getMySql c) => l.con = some c
  | .con (.setMySql c h) =>
    l.con = some c ∧ l.temp = h ∧ h.isSome ∧ l.stmt = none
      ∧ l.params.isSome ∧ l.connected = l.params
  | .con (.getParams c) => l.con = some c
  | .con (.setParams _ _) => False
  | .lib .init => l.con.isSome ∧ l.temp = none ∧ l.connected = none
  | .lib (.realConnect h p) => l.con.isSome ∧ l.temp = some h ∧ l.params = some p
  | .lib (.setCharsetName _ _) => False
  | .lib (.setReconnect _) => False
  | .lib (.close h) => l.con.isSome ∧ l.Owns h
  | .lib (.errno h) => l.con.isSome ∧ l.Owns h
  | .lib (.error h) => l.con.isSome ∧ l.Owns h
  | .lib (.selectDb h _) => l.con.isSome ∧ l.mysql = some h
  | .lib (.realQuery h _) => l.con.isSome ∧ l.mysql = some h
  | .lib (.storeResult h) => l.con.isSome ∧ l.mysql = some h
  | .lib (.fieldCount h) => l.con.isSome ∧ l.mysql = some h
  | .lib (.stmtInit h) => l.con.isSome ∧ l.mysql = some h ∧ l.stmt = none
  | .lib (.stmtPrepare st _) => l.con.isSome ∧ l.stmt = some st
  | .lib (.stmtParamCount st) => l.con.isSome ∧ l.stmt = some st
  | .lib (.stmtBindParam st _) => l.con.isSome ∧ l.stmt = some st
  | .lib (.stmtExecute st) => l.con.isSome ∧ l.stmt = some st
  | .lib (.stmtClose st) => l.con.isSome ∧ l.stmt = some st
  | _ => True

/-- What it may rely on: the connection's handle is never the new one. -/
def can (l : Hold) : (e : Op) → e.Reply → Prop
  | .con (.getMySql _), r => ∀ h, r = some h → l.temp ≠ some h
  | _, _ => True

/-- What it knows afterwards. -/
def next (l : Hold) : (e : Op) → e.Reply → Hold
  | .con .getFreeCon, r => { l with con := r }
  | .con (.unLock c), _ => { left := some c }
  | .con (.getMySql _), r => { l with mysql := r }
  | .con (.getParams _), r => { l with params := some r }
  | .con (.setMySql _ h), _ =>
    { l with mysql := h, temp := none, params := none, connected := none }
  | .lib .init, r => { l with temp := r }
  | .lib (.realConnect _ p), r => if r = true then { l with connected := some p } else l
  | .lib (.close h), _ => if l.temp = some h then { l with temp := none, connected := none } else l
  | .lib (.stmtInit _), r => { l with stmt := r }
  | .lib (.stmtClose _), _ => { l with stmt := none }
  | _, _ => l

/-- The handle it calls the library with is the connection's, or that of its statement, or the new one,
which is being connected, asked for an error or closed. -/
theorem may_target {l : Hold} {y : LibMySql} {e : LibOp} {m : Nat} (hm : l.may (.lib e))
    (ht : y.target e = some m) :
    l.mysql = some m ∨ (∃ st, l.stmt = some st ∧ (y.stmt st).mysql = m) ∨ l.temp = some m ∧
      ((∃ p, e = .realConnect m p) ∨ e = .close m ∨ e = .errno m ∨ e = .error m) := by
  cases e with
  | init => cases ht
  | freeResult r => cases ht
  | setCharsetName m n => exact hm.elim
  | setReconnect m => exact hm.elim
  | realConnect m p =>
    cases ht
    exact Or.inr (Or.inr ⟨hm.2.1, Or.inl ⟨p, rfl⟩⟩)
  | close m =>
    cases ht
    exact hm.2.imp_right fun htemp => Or.inr ⟨htemp, by simp⟩
  | errno m =>
    cases ht
    exact hm.2.imp_right fun htemp => Or.inr ⟨htemp, by simp⟩
  | error m =>
    cases ht
    exact hm.2.imp_right fun htemp => Or.inr ⟨htemp, by simp⟩
  | selectDb m db =>
    cases ht
    exact Or.inl hm.2
  | realQuery m q =>
    cases ht
    exact Or.inl hm.2
  | storeResult m =>
    cases ht
    exact Or.inl hm.2
  | fieldCount m =>
    cases ht
    exact Or.inl hm.2
  | stmtInit m =>
    cases ht
    exact Or.inl hm.2.1
  | _ =>
    cases ht
    exact Or.inr (Or.inl ⟨_, hm.2, rfl⟩)

/-- Only locking and unlocking changes which connection a thread holds. -/
theorem next_con {l : Hold} {e : Op} {r : e.Reply} (h1 : e ≠ .con .getFreeCon)
    (h2 : ∀ c, e ≠ .con (.unLock c)) :
    (l.next e r).con = l.con ∧ (l.next e r).left = l.left := by
  cases e with
  | con e =>
    cases e with
    | getFreeCon => exact absurd rfl h1
    | unLock c => exact absurd rfl (h2 c)
    | _ => exact ⟨rfl, rfl⟩
  | lib e =>
    cases e with
    | realConnect h p => cases r <;> exact ⟨rfl, rfl⟩
    | close h => by_cases ht : l.temp = some h <;> simp [next, ht]
    | _ => exact ⟨rfl, rfl⟩
  | _ => exact ⟨rfl, rfl⟩

/-- The discipline. -/
def discipline : Discipline Op Op.Reply Hold := ⟨may, can, next⟩

@[simp] theorem discipline_may (l : Hold) (e : Op) : discipline.may l e = l.may e := rfl

@[simp] theorem discipline_can (l : Hold) (e : Op) (r : e.Reply) :
    discipline.can l e r = l.can e r := rfl

@[simp] theorem discipline_next (l : Hold) (e : Op) (r : e.Reply) :
    discipline.next l e r = l.next e r := rfl

/-- The thread holds connection `c`, has the statement `st` open, and is not reconnecting. -/
structure Holding (c : Nat) (st : Option Nat) (l : Hold) : Prop where
  con : l.con = some c
  left : l.left = none
  temp : l.temp = none
  connected : l.connected = none
  stmt : l.stmt = st

end Hold

open Hold

/-! ## Inside the lock -/

/-- `Reconnect` of the connection that is held. -/
theorem reconnect_follows {c : Nat} {l : Hold} (h : Holding c none l) :
    (CXEMySqlCon.reconnect c).Follows discipline l fun _ l' => Holding c none l' := by
  obtain ⟨hc, hl, ht, hcn, hs⟩ := h
  refine ⟨⟨by simp [hc], ht, hcn⟩, fun r _ => ?_⟩
  cases r with
  | none => exact ⟨trivial, fun r => nomatch r⟩
  | some temp =>
    refine ⟨hc, fun p _ => ⟨⟨by simp [next, hc], rfl, rfl⟩, fun ok _ => ?_⟩⟩
    cases ok with
    | false =>
      refine ⟨⟨by simp [next, hc], Or.inr rfl⟩, fun e _ =>
        ⟨⟨by simp [next, hc], Or.inr rfl⟩, fun _ _ => ?_⟩⟩
      exact ⟨by simp [next, hc], by simp [next, hl], by simp [next], by simp [next],
        by simp [next, hs]⟩
    | true =>
      refine ⟨by simp [may, next, hc], fun m hm => ?_⟩
      cases m with
      | none =>
        refine ⟨⟨by simp [next, hc], rfl, rfl, by simp [next, hs], rfl, rfl⟩, fun _ _ => ?_⟩
        exact ⟨by simp [next, hc], by simp [next, hl], rfl, rfl, by simp [next, hs]⟩
      | some old =>
        -- the old handle is not the new one, so closing it leaves the new one to be stored
        have hne : temp ≠ old := by
          intro he
          exact hm old rfl (by simp [next, he])
        refine ⟨⟨by simp [next, hc], Or.inl rfl⟩, fun _ _ => ?_⟩
        refine ⟨⟨by simp [next, hc, hne], by simp [next, hne], rfl, by simp [next, hs, hne],
          by simp [next, hne], by simp [next, hne]⟩, fun _ _ => ?_⟩
        exact ⟨by simp [next, hc, hne], by simp [next, hl, hne], rfl, rfl,
          by simp [next, hs, hne]⟩

theorem handleError_follows {c n : Nat} {l : Hold} (h : Holding c none l) :
    (CXEMySql.handleError c n).Follows discipline l fun _ l' => Holding c none l' := by
  unfold CXEMySql.handleError
  split
  · exact reconnect_follows h
  · exact h

theorem queryFailed_follows {c m : Nat} {l : Hold} (h : Holding c none l) (hm : l.mysql = some m)
    (szQuery : Bytes) :
    (CXEMySql.queryFailed c m szQuery).Follows discipline l fun _ l' => Holding c none l' := by
  have hmay : l.con.isSome ∧ l.Owns m := ⟨by simp [h.con], Or.inl hm⟩
  exact ⟨hmay, fun _ _ => ⟨hmay, fun _ _ => ⟨trivial, fun _ _ => ⟨hmay, fun n _ =>
    handleError_follows h⟩⟩⟩⟩

theorem queryOn_follows {c m : Nat} {l : Hold} (h : Holding c none l) (hm : l.mysql = some m)
    (cmd : Bytes) (args : List Printf.Arg) :
    (CXEMySql.queryOn c m cmd args).Follows discipline l fun _ l' => Holding c none l' := by
  have hmay : l.con.isSome ∧ l.mysql = some m := ⟨by simp [h.con], hm⟩
  refine ⟨trivial, fun szQuery _ => ⟨hmay, fun ok _ => ?_⟩⟩
  cases ok with
  | false => exact queryFailed_follows h hm _
  | true => exact ⟨trivial, fun _ _ => ⟨hmay, fun _ _ => h⟩⟩

theorem queryDataOn_follows {c m : Nat} {l : Hold} (h : Holding c none l) (hm : l.mysql = some m)
    (cmd : Bytes) (data : Option Nat) (args : List Printf.Arg) :
    (CXEMySql.queryDataOn c m cmd data args).Follows discipline l
      fun _ l' => Holding c none l' := by
  have hmay : l.con.isSome ∧ l.mysql = some m := ⟨by simp [h.con], hm⟩
  refine ⟨trivial, fun szQuery _ => ⟨hmay, fun ok _ => ?_⟩⟩
  cases ok with
  | false => exact queryFailed_follows h hm _
  | true =>
    refine ⟨trivial, fun _ _ => ⟨hmay, fun nLength _ => ?_⟩⟩
    by_cases hn : 0 < nLength
    · simp only [Prog.bind_ret, hn, if_true]
      refine ⟨hmay, fun res _ => ?_⟩
      cases data with
      | none => exact h
      | some x => exact ⟨trivial, fun _ _ => h⟩
    · simp only [Prog.bind_ret, hn, if_false]
      exact h

/-! ## The prepared statement -/

theorem logError_follows {l : Hold} {m : Nat} (hc : l.con.isSome) (hm : l.mysql = some m) :
    (CXEMySqlStmt.logError m).Follows discipline l fun _ l' => l' = l :=
  ⟨⟨hc, Or.inl hm⟩, fun _ _ => ⟨⟨hc, Or.inl hm⟩, fun _ _ => ⟨trivial, fun _ _ => rfl⟩⟩⟩

/-- After reading the handle a thread holds what it held. -/
theorem Hold.Holding.getMySql {c : Nat} {st : Option Nat} {l : Hold} (h : Holding c st l)
    (r : Option Nat) : Holding c st { l with mysql := r } :=
  ⟨h.con, h.left, h.temp, h.connected, h.stmt⟩

/-- Whatever `Reset` returns, the statement is closed afterwards. -/
theorem reset_follows {c : Nat} {s : CXEMySqlStmt} {l : Hold} (h : Holding c s.m_pStmt l)
    (hs : s.m_pCon = c) :
    s.reset.Follows discipline l fun x l' => Holding c none l' ∧ x.1.m_pCon = c ∧
      (x.2 = true → x.1.m_pStmt = none) ∧ (x.2 = true → l'.mysql = l.mysql) := by
  obtain ⟨con, st, n, ps⟩ := s
  obtain rfl : con = c := hs
  unfold CXEMySqlStmt.reset
  cases st with
  | none =>
    cases ps with
    | none => exact ⟨h, rfl, fun _ => rfl, fun _ => rfl⟩
    | some a => exact ⟨trivial, fun _ _ => ⟨h, rfl, fun _ => rfl, fun _ => rfl⟩⟩
  | some st =>
    have hl : Holding con none { l with stmt := none } := ⟨h.con, h.left, h.temp, h.connected, rfl⟩
    refine ⟨⟨by simp [h.con], h.stmt⟩, fun ok _ => ?_⟩
    cases ok with
    | true =>
      cases ps with
      | none => exact ⟨hl, rfl, fun _ => rfl, fun _ => rfl⟩
      | some a => exact ⟨trivial, fun _ _ => ⟨hl, rfl, fun _ => rfl, fun _ => rfl⟩⟩
    | false =>
      refine ⟨h.con, fun m _ => ?_⟩
      cases m with
      | none => exact ⟨hl.getMySql none, rfl, by simp, by simp⟩
      | some m =>
        refine (logError_follows (by simp [next, h.con]) rfl).bind fun _ l' he => ?_
        subst he
        exact ⟨hl.getMySql (some m), rfl, by simp, by simp⟩

/-- `SetSQL` of a statement that has just been constructed. -/
theorem setSQL_follows {c : Nat} {l : Hold} (h : Holding c none l) (szSQL : Bytes) :
    (CXEMySqlStmt.setSQL { m_pCon := c } szSQL).Follows discipline l
      fun s l' => Holding c s.m_pStmt l' ∧ s.m_pCon = c := by
  refine ⟨h.con, fun m _ => ?_⟩
  cases m with
  | none => exact ⟨h.getMySql none, rfl⟩
  | some m =>
    have hc : l.con.isSome = true := by simp [h.con]
    refine ⟨⟨hc, rfl, h.stmt⟩, fun st _ => ?_⟩
    have hl : Holding c st { l with mysql := some m, stmt := st } :=
      ⟨h.con, h.left, h.temp, h.connected, rfl⟩
    cases st with
    | none =>
      simp only [Prog.bind_ret]
      refine (logError_follows (l := { l with mysql := some m, stmt := none }) hc rfl).bind
        fun _ l' he => ?_
      subst he
      exact ⟨hl, rfl⟩
    | some st =>
      refine ⟨⟨hc, rfl⟩, fun ok _ => ?_⟩
      cases ok with
      | true =>
        refine ⟨⟨hc, rfl⟩, fun n _ => ?_⟩
        by_cases hn : 0 < n
        · simp only [Prog.bind_ret, hn, if_true]
          exact ⟨trivial, fun _ _ => ⟨hl, rfl⟩⟩
        · simp only [Prog.bind_ret, hn, if_false]
          exact ⟨hl, rfl⟩
      | false =>
        have hown : l.con.isSome = true ∧ Owns { l with mysql := some m, stmt := some st } m :=
          ⟨hc, Or.inl rfl⟩
        exact ⟨hown, fun _ _ => ⟨hown, fun _ _ => ⟨trivial, fun _ _ => ⟨hl, rfl⟩⟩⟩⟩

theorem setParam_follows {c : Nat} {s : CXEMySqlStmt} {l : Hold} (h : Holding c s.m_pStmt l)
    (hs : s.m_pCon = c) (i : Nat) (p : BlobParam) :
    (s.setParam i p).Follows discipline l
      fun s' l' => Holding c s'.m_pStmt l' ∧ s'.m_pCon = c := by
  obtain ⟨con, st, n, ps⟩ := s
  obtain rfl : con = c := hs
  refine ⟨h.con, fun m _ => ?_⟩
  have hl := h.getMySql m
  cases st with
  | none => exact ⟨hl, rfl⟩
  | some st =>
    cases m with
    | none => exact ⟨hl, rfl⟩
    | some m =>
      by_cases hi : i < n
      · simp only [Prog.bind_ret, hi, if_true]
        exact ⟨hl, rfl⟩
      · simp only [Prog.bind_ret, hi, if_false]
        exact ⟨hl, rfl⟩

theorem setParams_follows {c : Nat} (ps : DB_BLOB) {s : CXEMySqlStmt} {l : Hold}
    (h : Holding c s.m_pStmt l) (hs : s.m_pCon = c) (i : Nat) :
    (s.setParams i ps).Follows discipline l
      fun s' l' => Holding c s'.m_pStmt l' ∧ s'.m_pCon = c := by
  induction ps generalizing s l i with
  | nil => exact ⟨h, hs⟩
  | cons p ps ih =>
    exact (setParam_follows h hs i p).bind fun s' l' h' => ih h'.1 h'.2 (i + 1)

theorem attempt_follows {c : Nat} {s : CXEMySqlStmt} {l : Hold} (h : Holding c s.m_pStmt l)
    (hs : s.m_pCon = c) {call : Nat → Code Bool}
    (hcall : ∀ st l, l.con.isSome = true → l.stmt = some st →
      (call st).Follows discipline l fun _ l' => l' = l) :
    (s.attempt call).Follows discipline l fun _ l' => Holding c s.m_pStmt l' := by
  obtain ⟨con, st, n, ps⟩ := s
  obtain rfl : con = c := hs
  refine ⟨h.con, fun m _ => ?_⟩
  have hl := h.getMySql m
  have hc : l.con.isSome = true := by simp [h.con]
  cases st with
  | none => exact hl
  | some st =>
    cases m with
    | none => exact hl
    | some m =>
      simp only [Prog.bind_ret]
      refine (hcall st { l with mysql := some m } hc h.stmt).bind fun ok l₁ h₁ => ?_
      subst h₁
      cases ok with
      | true => exact hl
      | false =>
        refine (logError_follows (l := { l with mysql := some m }) hc rfl).bind fun _ l' he => ?_
        subst he
        exact hl

theorem bindParams_follows {c : Nat} {s : CXEMySqlStmt} {l : Hold} (h : Holding c s.m_pStmt l)
    (hs : s.m_pCon = c) :
    s.bindParams.Follows discipline l fun _ l' => Holding c s.m_pStmt l' :=
  attempt_follows h hs fun _ _ hc hst => ⟨⟨hc, hst⟩, fun _ _ => rfl⟩

theorem execute_follows {c : Nat} {s : CXEMySqlStmt} {l : Hold} (h : Holding c s.m_pStmt l)
    (hs : s.m_pCon = c) :
    s.execute.Follows discipline l fun _ l' => Holding c s.m_pStmt l' :=
  attempt_follows h hs fun _ _ hc hst => ⟨⟨hc, hst⟩, fun _ _ => rfl⟩

theorem queryBlobOn_follows {c : Nat} {l : Hold} (h : Holding c none l) (cmd : Bytes)
    (pData : DB_BLOB) :
    (CXEMySql.queryBlobOn c cmd pData).Follows discipline l fun _ l' => Holding c none l' := by
  unfold CXEMySql.queryBlobOn
  refine (setSQL_follows h cmd).bind fun s₁ l₁ h₁ => ?_
  refine (setParams_follows pData h₁.1 h₁.2 0).bind fun s₂ l₂ h₂ => ?_
  refine (bindParams_follows h₂.1 h₂.2).bind fun ok l₃ h₃ => ?_
  refine Prog.Follows.bind (P := fun _ l' => Holding c s₂.m_pStmt l') ?_ fun ok l₄ h₄ => ?_
  · cases ok with
    | true => exact execute_follows h₃ h₂.2
    | false => exact h₃
  · exact (reset_follows h₄ h₂.2).bind fun _ _ h₅ => h₅.1

/-! ## Whole calls -/

/-- The connection is unlocked. -/
def Released (l : Hold) : Prop := l.con = none

/-- What is done inside the lock gives the statement back. -/
theorem locked_follows {body : Nat → Nat → Code Bool}
    (hbody : ∀ c m l, Holding c none l → l.mysql = some m →
      (body c m).Follows discipline l fun _ l' => Holding c none l') :
    (CXEMySql.locked body).Follows discipline {} fun _ l' => Released l' := by
  have hl : ∀ c, Holding c none { con := some c } := fun _ => ⟨rfl, rfl, rfl, rfl, rfl⟩
  refine CXEMySql.follows_locked (P := fun c _ l' => Holding c none l') ⟨rfl, rfl⟩ rfl (fun _ => rfl)
    (fun c m => ?_) fun c a l' h => ⟨⟨h.con, h.temp, h.stmt⟩, fun _ => rfl⟩
  cases m with
  | none => exact (hl c).getMySql none
  | some m => exact hbody c m _ ((hl c).getMySql (some m)) rfl

theorem selectDB_follows (db : Bytes) :
    (CXEMySql.selectDB db).Follows discipline {} fun _ l' => Released l' := by
  refine ⟨⟨rfl, rfl⟩, fun c _ => ?_⟩
  cases c with
  | none => exact rfl
  | some c =>
    refine ⟨rfl, fun m _ => ?_⟩
    cases m with
    | none => exact ⟨⟨rfl, rfl, rfl⟩, fun _ _ => rfl⟩
    | some m =>
      refine ⟨⟨rfl, rfl⟩, fun ok _ => ?_⟩
      cases ok <;> exact ⟨⟨rfl, rfl, rfl⟩, fun _ _ => rfl⟩

theorem query_follows (cmd : Bytes) (args : List Printf.Arg) :
    (CXEMySql.query cmd args).Follows discipline {} fun _ l' => Released l' :=
  locked_follows fun _ _ _ h hm => queryOn_follows h hm cmd args

theorem queryData_follows (cmd : Bytes) (data : Option Nat) (args : List Printf.Arg) :
    (CXEMySql.queryData cmd data args).Follows discipline {} fun _ l' => Released l' :=
  locked_follows fun _ _ _ h hm => queryDataOn_follows h hm cmd data args

theorem queryBlob_follows (cmd : Bytes) (pData : Option DB_BLOB) :
    (CXEMySql.queryBlob cmd pData).Follows discipline {} fun _ l' => Released l' := by
  cases pData with
  | none => exact query_follows cmd []
  | some d =>
    exact locked_follows fun _ _ _ h _ => queryBlobOn_follows h cmd d

/-- Requests that have nothing to do with connections. -/
def Apart : Op → Prop
  | .tp _ => True
  | .task _ => True
  | .res _ => True
  | .rt _ => True
  | .lib (.freeResult _) => True
  | _ => False

/-- Code that makes only such requests knows afterwards what it knew before. -/
theorem apart_follows {α : Type} {p : Code α} (h : p.Only Apart) (l : Hold) :
    p.Follows discipline l fun _ l' => l' = l := by
  refine h.follows (fun e he => ?_) (fun e he r => ?_)
  · cases e with
    | con e => exact he.elim
    | lib e => cases e <;> first | exact he.elim | trivial
    | _ => trivial
  · cases e with
    | con e => exact he.elim
    | lib e => cases e <;> first | exact he.elim | rfl
    | _ => rfl

theorem inPool_apart {α : Type} (p : ThreadPool.Code Nat α) : (CXEMySql.inPool p).Only Apart :=
  Prog.only_lift (fun _ => trivial) p

theorem executeQueryNoRet_apart (q : Option Bytes) : (CXEMySql.executeQueryNoRet q).Only Apart := by
  refine Prog.only_bind ?_ fun _ => inPool_apart _
  cases q with
  | none => trivial
  | some q => exact ⟨trivial, fun _ => ⟨trivial, fun _ => trivial⟩⟩

theorem processTask_follows (k : Option Nat) :
    (CXEMySqlWorker.processTask k).Follows discipline {} fun _ l' => Released l' := by
  cases k with
  | none => exact rfl
  | some k =>
    have hrel : ∀ l, Released l → (CXEMySql.releaseJob k).Follows discipline l
        fun _ l' => Released l' :=
      fun l hl => ⟨trivial, fun _ _ => ⟨trivial, fun _ _ => hl⟩⟩
    refine ⟨trivial, fun d _ => ?_⟩
    cases d with
    | none =>
      refine ⟨trivial, fun szQuery _ => ?_⟩
      exact (query_follows szQuery []).bind fun _ l' hl => hrel l' hl
    | some p =>
      refine ⟨trivial, fun szQuery _ => ⟨trivial, fun d _ => ?_⟩⟩
      exact (queryBlob_follows szQuery (some d)).bind fun _ l' hl => hrel l' hl

theorem workerProc_follows :
    (ThreadPool.workerProc CXEMySql.inPool CXEMySqlWorker.processTask).Follows discipline {}
      fun _ l' => Released l' := by
  refine (apart_follows (inPool_apart _) {}).bind ?_
  rintro r l rfl
  rcases r with _ | ⟨pWorker, pTask⟩
  · exact rfl
  · cases pWorker with
    | false => exact rfl
    | true => exact (processTask_follows pTask).bind fun _ _ hl => hl

/-- Calls that use connections only through the pool. -/
def Call.usesPool : Call → Prop
  | connect _ _ => False
  | close _ => False
  | reconnect _ => False
  | _ => True

/-- **Every such call follows the discipline**, and has unlocked its connection at the end. -/
theorem code_follows (c : Call) (hc : c.usesPool) :
    c.code.Follows discipline {} fun _ l' => Released l' := by
  have hapart : ∀ {α : Type} {p : Code α} (a : Bool), p.Only Apart →
      (p >>= fun _ => pure a).Follows discipline {} fun _ l' => Released l' := by
    intro α p a hp
    refine (apart_follows hp {}).bind ?_
    rintro _ l rfl
    exact rfl
  cases c with
  | executeQueryNoRet q => exact hapart true (executeQueryNoRet_apart q)
  | selectDB db => exact selectDB_follows db
  | query cmd args => exact query_follows cmd args
  | queryData cmd data args => exact queryData_follows cmd data args
  | queryBlob cmd d => exact queryBlob_follows cmd d
  | newResult => exact ⟨trivial, fun _ _ => rfl⟩
  | deleteResult x =>
    refine ⟨trivial, fun r _ => ?_⟩
    cases r with
    | none => exact ⟨trivial, fun _ _ => rfl⟩
    | some r => exact ⟨trivial, fun _ _ => ⟨trivial, fun _ _ => rfl⟩⟩
  | connect c p => exact hc.elim
  | close c => exact hc.elim
  | reconnect c => exact hc.elim
  | start n => exact hapart true (inPool_apart _)
  | stop => exact hapart true (inPool_apart _)
  | workerProc => exact workerProc_follows

end XeMySql
