import XeMySql.MySqlCmd

/-!
# The server a `MySqlDB` was told to use

The calls on a `MySqlDB`, in any order and with any outcomes, and the parameters with which it connects
again. `Connect` stores its arguments only when it has succeeded, and a string that `GetDBName` has
returned has been freed by the time it is copied.

* `reconnect_stored` — `_Reconnect` uses the stored parameters
* `DbRun.matches_told` — what is stored after any calls
* `told_iff` — in which runs they are what the object was told
-/

namespace XeMySql

open Interact

/-- A call on a `MySqlDB`, of its own functions or of those that work on it. -/
inductive DbCall where
  | connect (a : ConnectArgs StrArg)
  | close
  | useDB (szDB : StrArg)
  | connected
  | executeSQL (szCMD : Bytes)
  | execut (cmd : MySqlCmd)

/-- Its code. -/
def DbCall.code (db : MySqlDB) : DbCall → DbCode (Bool × MySqlDB)
  | connect a => db.connect a
  | close => do
    let db ← db.close
    pure (true, db)
  | useDB szDB => db.useDB szDB
  | connected => db.connected
  | executeSQL szCMD => MySqlQuery.executeOn db szCMD
  | execut cmd => cmd.execut db

/-- A call, what `GetDBName` returned before it, what the call has returned, and the answers it had. -/
structure DbEntry where
  call : DbCall
  name : Option Chars
  result : Bool
  trace : DbTrace

/-- One call after the other on a new `MySqlDB`, the latest first. -/
inductive DbRun (b : Bool) : List DbEntry → DbEnv → MySqlDB → Prop
  | new {env} : DbRun b [] env { m_bConnected := b }
  | call {cs env db c a db' env' l} (h : DbRun b cs env db)
    (hr : (DbCall.code db c).Runs DbOp.exec env [] (a, db') env' l) :
    DbRun b (⟨c, db.m_szDB, a, l⟩ :: cs) env' db'

/-! ## What the object was told -/

/-- The last `UseDB` that has succeeded: its argument, and what `GetDBName` returned before. -/
structure Used where
  szDB : StrArg
  name : Option Chars

/-- The last `Connect`: its arguments, what `GetDBName` returned before, whether it has succeeded, and
the `UseDB` since. -/
structure Told where
  args : ConnectArgs StrArg
  name : Option Chars
  ok : Bool
  used : Option Used

/-- What the calls have told the object. -/
def told : List DbEntry → Option Told
  | [] => none
  | ⟨.connect a, name, ok, _⟩ :: _ => some ⟨a, name, ok, none⟩
  | ⟨.useDB szDB, name, true, _⟩ :: cs => (told cs).map fun t => { t with used := some ⟨szDB, name⟩ }
  | _ :: cs => told cs

/-- The parameters it is to use: what the arguments pointed to. -/
def Told.expected (t : Told) : ConnectArgs Chars :=
  let a := t.args.bind (StrArg.chars t.name)
  match t.used with
  | some u => { a with szDB := u.szDB.chars u.name }
  | none => a

/-- The parameters it has stored. -/
def Told.kept (t : Told) : ConnectArgs Chars :=
  let a := if t.ok then t.args.bind (StrArg.afterFree t.name) else ⟨none, none, none, none, 0⟩
  match t.used with
  | some u => { a with szDB := u.szDB.afterFree u.name }
  | none => a

/-- No string is a copy of memory that had been freed. -/
structure ConnectArgs.Sound (a : ConnectArgs Chars) : Prop where
  szServer : a.szServer ≠ some .freed
  szDB : a.szDB ≠ some .freed
  szUser : a.szUser ≠ some .freed
  szPWD : a.szPWD ≠ some .freed

/-- An argument that still is what it was after `free (m_szDB)`: not what `GetDBName` has returned,
unless this was NULL. -/
def StrArg.Outlives (name : Option Chars) (a : StrArg) : Prop := a = .getDBName → name = none

/-- An argument of the last `Connect` is not missing now: this has succeeded and has copied it, or it was
given NULL. -/
def Told.Keeps (t : Told) (o : Option StrArg) : Prop :=
  ∀ a, o = some a → if t.ok then a.Outlives t.name else a.chars t.name = none

/--
The last `Connect` has succeeded, and none of its strings was what `GetDBName` has returned; or it has
failed, but was given nothing that is missing now. The database may be that of a `UseDB` since, and then
this must not have been passed what `GetDBName` has returned.
-/
structure Told.Safe (t : Told) : Prop where
  server : t.Keeps t.args.szServer
  user : t.Keeps t.args.szUser
  pwd : t.Keeps t.args.szPWD
  port : t.ok = false → t.args.nPort = 0
  unused : t.used = none → t.Keeps t.args.szDB
  used : ∀ u, t.used = some u → u.szDB.Outlives u.name

/-- A string that is copied after `free (m_szDB)` is what it was before, and a text. -/
theorem StrArg.afterFree_iff (name : Option Chars) (a : StrArg) :
    a.afterFree name = a.chars name ∧ a.afterFree name ≠ some .freed ↔ a.Outlives name := by
  cases a with
  | text s => simp [afterFree, chars, Outlives]
  | getDBName => cases name <;> simp [afterFree, chars, Outlives]

/-- The same of an argument of the last `Connect`. -/
theorem Told.keeps_iff (t : Told) (o : Option StrArg) :
    (if t.ok then o.bind (StrArg.afterFree t.name) else none) = o.bind (StrArg.chars t.name) ∧
        (if t.ok then o.bind (StrArg.afterFree t.name) else none) ≠ some .freed ↔ t.Keeps o := by
  unfold Keeps
  cases o with
  | none => cases t.ok <;> simp
  | some a =>
    cases t.ok with
    | true => simpa using a.afterFree_iff t.name
    | false => simp [eq_comm]

/-- What is stored of the arguments of the last `Connect`. -/
theorem Told.kept_eq (t : Told) :
    t.kept.szServer = (if t.ok then t.args.szServer.bind (StrArg.afterFree t.name) else none) ∧
      t.kept.szUser = (if t.ok then t.args.szUser.bind (StrArg.afterFree t.name) else none) ∧
      t.kept.szPWD = (if t.ok then t.args.szPWD.bind (StrArg.afterFree t.name) else none) ∧
      t.kept.nPort = if t.ok then t.args.nPort else 0 := by
  unfold kept
  cases t.used <;> cases t.ok <;> exact ⟨rfl, rfl, rfl, rfl⟩

/-- What was expected of them. -/
theorem Told.expected_eq (t : Told) :
    t.expected.szServer = t.args.szServer.bind (StrArg.chars t.name) ∧
      t.expected.szUser = t.args.szUser.bind (StrArg.chars t.name) ∧
      t.expected.szPWD = t.args.szPWD.bind (StrArg.chars t.name) ∧
      t.expected.nPort = t.args.nPort := by
  unfold expected
  cases t.used <;> exact ⟨rfl, rfl, rfl, rfl⟩

/-- The database. -/
theorem Told.keepsDB_iff (t : Told) :
    t.kept.szDB = t.expected.szDB ∧ t.kept.szDB ≠ some .freed ↔
      (t.used = none → t.Keeps t.args.szDB) ∧ ∀ u, t.used = some u → u.szDB.Outlives u.name := by
  cases hu : t.used with
  | none =>
    have hkept : t.kept.szDB = if t.ok then t.args.szDB.bind (StrArg.afterFree t.name) else none := by
      unfold kept
      rw [hu]
      cases t.ok <;> rfl
    have hexp : t.expected.szDB = t.args.szDB.bind (StrArg.chars t.name) := by
      unfold expected
      rw [hu]
      rfl
    rw [hkept, hexp, t.keeps_iff]
    simp
  | some u =>
    have hkept : t.kept.szDB = u.szDB.afterFree u.name := by
      unfold kept
      rw [hu]
    have hexp : t.expected.szDB = u.szDB.chars u.name := by
      unfold expected
      rw [hu]
    rw [hkept, hexp, StrArg.afterFree_iff]
    simp

/-- **When the stored parameters are those the object was told to use**, and texts. -/
theorem Told.kept_eq_iff (t : Told) : t.kept = t.expected ∧ t.kept.Sound ↔ t.Safe := by
  obtain ⟨k1, k2, k3, k4⟩ := t.kept_eq
  obtain ⟨e1, e2, e3, e4⟩ := t.expected_eq
  have hserver := t.keeps_iff t.args.szServer
  have huser := t.keeps_iff t.args.szUser
  have hpwd := t.keeps_iff t.args.szPWD
  rw [← k1, ← e1] at hserver
  rw [← k2, ← e2] at huser
  rw [← k3, ← e3] at hpwd
  have hport : t.kept.nPort = t.expected.nPort ↔ (t.ok = false → t.args.nPort = 0) := by
    rw [k4, e4]
    cases t.ok <;> simp [eq_comm]
  constructor
  · rintro ⟨heq, hsound⟩
    have hdb := t.keepsDB_iff.mp ⟨congrArg _ heq, hsound.szDB⟩
    exact ⟨hserver.mp ⟨congrArg _ heq, hsound.szServer⟩, huser.mp ⟨congrArg _ heq, hsound.szUser⟩,
      hpwd.mp ⟨congrArg _ heq, hsound.szPWD⟩, hport.mp (congrArg _ heq), hdb.1, hdb.2⟩
  · intro h
    have hdb := t.keepsDB_iff.mpr ⟨h.unused, h.used⟩
    have hs := hserver.mpr h.server
    have hu := huser.mpr h.user
    have hp := hpwd.mpr h.pwd
    exact ⟨ConnectArgs.ext hs.1 hdb.1 hu.1 hp.1 (hport.mpr h.port), ⟨hs.2, hdb.2, hu.2, hp.2⟩⟩

/-- The parameters of a `mysql_real_connect`. -/
def connectArgs : Answer DbOp DbOp.Reply → Option (ConnectArgs Chars)
  | ⟨.realConnect _ a, _⟩ => some a
  | _ => none

/-- The parameters of the `mysql_real_connect`s in a trace. -/
def connects (l : DbTrace) : List (ConnectArgs Chars) := l.filterMap connectArgs

/-- **Told**: each connection that a call other than `Connect` makes is made with the parameters the
object was told to use, and not with a copy of memory that had been freed. -/
def ToldOnly : List DbEntry → Prop
  | [] => True
  | ⟨.connect _, _, _, _⟩ :: cs => ToldOnly cs
  | ⟨_, _, _, l⟩ :: cs =>
    (∀ a ∈ connects l, a.Sound ∧ ∃ t, told cs = some t ∧ a = t.expected) ∧ ToldOnly cs

/-- Whenever a call other than `Connect` comes to connect, this is safe. -/
def SafeOnly : List DbEntry → Prop
  | [] => True
  | ⟨.connect _, _, _, _⟩ :: cs => SafeOnly cs
  | ⟨_, _, _, l⟩ :: cs => (connects l ≠ [] → ∃ t, told cs = some t ∧ t.Safe) ∧ SafeOnly cs

/-! ## The calls -/

/-- Code that may be given any answers. -/
abbrev AnyDb : Discipline DbOp DbOp.Reply DbTrace := .recording (fun _ _ => True) fun _ _ _ => True

section

variable {db : MySqlDB} {l : DbTrace}

namespace MySqlDB

theorem close_none : db.close.Follows AnyDb l fun db' l' =>
    db'.m_pMySql = none ∧ db'.stored = ⟨none, none, none, none, 0⟩ ∧ connects l' = connects l := by
  unfold close
  split
  · exact ⟨rfl, rfl, rfl⟩
  · exact ⟨trivial, fun _ _ => ⟨rfl, rfl, rfl⟩⟩

/-- `Connect` stores what its arguments point to when it has succeeded, and then the name of the
database has been freed. -/
theorem connect_stored (a : ConnectArgs StrArg) : (db.connect a).Follows AnyDb l fun x _ =>
    x.2.m_pMySql ≠ none → x.2.stored =
      if x.1 then a.bind (StrArg.afterFree db.m_szDB) else ⟨none, none, none, none, 0⟩ := by
  refine close_none.bind ?_
  rintro db₁ l₁ ⟨hnone, hstored, -⟩
  obtain ⟨m, server, name, user, pwd, port, b⟩ := db₁
  cases hstored
  refine ⟨trivial, fun h _ => ?_⟩
  cases h with
  | none => exact fun hne => absurd rfl hne
  | some h =>
    refine ⟨trivial, fun ok _ => ?_⟩
    cases ok with
    | false => exact fun _ => rfl
    | true =>
      refine ⟨trivial, fun _ _ _ => ?_⟩
      simp [stored]

/-- **`_Reconnect`** uses what is stored, and leaves it. -/
theorem reconnect_stored : db.reconnect.Follows AnyDb l fun x l' =>
    x.2.stored = db.stored ∧ ∀ a ∈ connects l', a ∈ connects l ∨ a = db.stored := by
  have hdiscard : db.discard.Follows AnyDb l fun db' l' =>
      db'.stored = db.stored ∧ connects l' = connects l := by
    unfold discard
    split
    · exact ⟨rfl, rfl⟩
    · exact ⟨trivial, fun _ _ => ⟨rfl, rfl⟩⟩
  refine hdiscard.bind ?_
  rintro db₁ l₁ ⟨hstored, hl⟩
  refine ⟨trivial, fun h _ => ?_⟩
  cases h with
  | none => exact ⟨hstored, fun a ha => Or.inl (hl ▸ ha)⟩
  | some h =>
    refine ⟨trivial, fun ok _ => ?_⟩
    have hargs : ∀ a, a ∈ db₁.stored :: connects l₁ → a ∈ connects l ∨ a = db.stored := by
      intro a ha
      rw [hl, hstored] at ha
      exact (List.mem_cons.mp ha).symm
    cases ok with
    | false => exact ⟨hstored, hargs⟩
    | true => exact ⟨trivial, fun _ _ => ⟨hstored, hargs⟩⟩

/-- What the calls that may lead to `_Reconnect` do with the parameters. -/
def KeepsStored (db : MySqlDB) (l : DbTrace) (x : Bool × MySqlDB) (l' : DbTrace) : Prop :=
  x.2.stored = db.stored ∧ (db.m_pMySql = none → x.2.m_pMySql = none ∧ connects l' = connects l) ∧
    ∀ a ∈ connects l', a ∈ connects l ∨ a = db.stored

theorem connected_keeps : db.connected.Follows AnyDb l (db.KeepsStored l) := by
  unfold connected
  split
  · next hm => exact ⟨rfl, fun _ => ⟨hm, rfl⟩, fun _ => Or.inl⟩
  · next h hm =>
    refine ⟨trivial, fun ok _ => ?_⟩
    have hne : db.m_pMySql = none → False := fun hn => by rw [hm] at hn; cases hn
    cases ok with
    | true => exact ⟨rfl, fun hn => (hne hn).elim, fun _ => Or.inl⟩
    | false =>
      refine reconnect_stored.mono ?_
      rintro x l' ⟨hs, ha⟩
      exact ⟨hs, fun hn => (hne hn).elim, ha⟩

/-- Sending, and sending again. -/
theorem sendAgain_keeps {send : MySqlDB → DbCode Bool}
    (hsend : ∀ db l, (send db).Follows AnyDb l fun _ l' => connects l' = connects l) :
    (db.sendAgain send).Follows AnyDb l (db.KeepsStored l) := by
  have hsame : ∀ {l' : DbTrace} {ok : Bool}, connects l' = connects l →
      db.KeepsStored l (ok, db) l' := by
    intro l' ok hl
    exact ⟨rfl, fun hn => ⟨hn, hl⟩, fun a ha => Or.inl (hl ▸ ha)⟩
  refine (hsend db l).bind fun ok l₁ hl₁ => ?_
  cases ok with
  | true => exact hsame hl₁
  | false =>
    refine ⟨trivial, fun n _ => ?_⟩
    have hl₂ : connects (AnyDb.next l₁ (.errno db.m_pMySql) n) = connects l := hl₁
    simp only [Prog.bind_ret]
    split
    · refine connected_keeps.bind ?_
      rintro ⟨ok, db₁⟩ l₃ ⟨hs, hnone, ha⟩
      rw [hl₂] at ha hnone
      cases ok with
      | false => exact ⟨hs, hnone, ha⟩
      | true =>
        refine (hsend db₁ l₃).bind fun ok l₄ hl₄ => ?_
        exact ⟨hs, fun hm => ⟨(hnone hm).1, hl₄.trans (hnone hm).2⟩, fun a hm => ha a (hl₄ ▸ hm)⟩
    · exact hsame hl₂

/-- `UseDB` stores what its argument points to when the name of the database has been freed. -/
theorem useDB_stored (szDB : StrArg) : (db.useDB szDB).Follows AnyDb l fun x l' =>
    x.2.m_pMySql = db.m_pMySql ∧ connects l' = connects l ∧
      x.2.stored = if x.1 then { db.stored with szDB := szDB.afterFree db.m_szDB } else db.stored := by
  unfold useDB
  cases szDB.chars db.m_szDB with
  | none => exact ⟨rfl, rfl, rfl⟩
  | some sz =>
    refine ⟨trivial, fun ok _ => ?_⟩
    cases ok with
    | true => exact ⟨rfl, rfl, rfl⟩
    | false => exact ⟨rfl, rfl, rfl⟩

end MySqlDB

end

/-! ## Runs -/

/-- As long as there is a handle, the parameters of the last `Connect` are stored, or none are. -/
def Matches (cs : List DbEntry) (db : MySqlDB) : Prop :=
  db.m_pMySql ≠ none → ∃ t, told cs = some t ∧ db.stored = t.kept

/-- The connections made with the trace `l` are made with the parameters stored after the calls `cs`. -/
def UsesKept (cs : List DbEntry) (l : DbTrace) : Prop :=
  ∀ a ∈ connects l, ∃ t, told cs = some t ∧ a = t.kept

section

variable {cs : List DbEntry} {db db' : MySqlDB} {l : DbTrace} {a : Bool} {env env' : DbEnv}

theorem usesKept_of_none (hl : connects l = []) : UsesKept cs l := by
  intro a ha
  rw [hl] at ha
  cases ha

/-- A call that may lead to `_Reconnect`. -/
theorem Matches.keeps (h : Matches cs db) (hx : db.KeepsStored [] (a, db') l) :
    Matches cs db' ∧ UsesKept cs l := by
  obtain ⟨hstored, hnone, hargs⟩ := hx
  cases hm : db.m_pMySql with
  | none =>
    obtain ⟨hm', hl⟩ := hnone hm
    exact ⟨fun hne => absurd hm' hne, usesKept_of_none hl⟩
  | some m =>
    obtain ⟨t, ht, hkept⟩ := h (by rw [hm]; exact Option.some_ne_none m)
    refine ⟨fun _ => ⟨t, ht, hstored.trans hkept⟩, fun a ha => ⟨t, ht, ?_⟩⟩
    rcases hargs a ha with hn | ha
    · cases hn
    · exact ha.trans hkept

/-- What holds of code with any answers holds of its runs. -/
theorem runs_any {α : Type} {p : DbCode α} {x : α} {Q : α → DbTrace → Prop}
    (hr : p.Runs DbOp.exec env [] x env' l) (hp : p.Follows AnyDb [] Q) : Q x l :=
  hr.answered (fun _ _ _ _ _ _ _ => trivial) hp

theorem execut_keeps (cmd : MySqlCmd) : (cmd.execut db).Follows AnyDb [] (db.KeepsStored []) := by
  unfold MySqlCmd.execut
  split
  · refine MySqlDB.sendAgain_keeps fun db l => ⟨trivial, fun _ _ => rfl⟩
  · exact ⟨rfl, fun hn => ⟨hn, rfl⟩, fun _ => Or.inl⟩

/-- **What a call does**: what is stored still matches, and what has been used was stored. -/
theorem Matches.call {c : DbCall} (h : Matches cs db)
    (hr : (c.code db).Runs DbOp.exec env [] (a, db') env' l) :
    Matches (⟨c, db.m_szDB, a, l⟩ :: cs) db' ∧ ((∃ args, c = .connect args) ∨ UsesKept cs l) := by
  cases c with
  | connect args =>
    refine ⟨fun hne => ⟨⟨args, db.m_szDB, a, none⟩, rfl, ?_⟩, Or.inl ⟨args, rfl⟩⟩
    exact runs_any hr (MySqlDB.connect_stored args) hne
  | close =>
    have hclose : (DbCall.code db .close).Follows AnyDb [] fun x l' =>
        x.2.m_pMySql = none ∧ connects l' = [] :=
      MySqlDB.close_none.bind fun _ _ hq => ⟨hq.1, hq.2.2⟩
    obtain ⟨hnone, hl⟩ := runs_any hr hclose
    exact ⟨fun hne => absurd hnone hne, Or.inr (usesKept_of_none hl)⟩
  | useDB szDB =>
    obtain ⟨hm, hl, hstored⟩ := runs_any hr (MySqlDB.useDB_stored szDB)
    refine ⟨fun hne => ?_, Or.inr (usesKept_of_none hl)⟩
    obtain ⟨t, ht, hkept⟩ := h (hm ▸ hne)
    cases a with
    | false => exact ⟨t, ht, hstored.trans hkept⟩
    | true =>
      refine ⟨{ t with used := some ⟨szDB, db.m_szDB⟩ }, ?_, ?_⟩
      · show (told cs).map _ = _
        rw [ht, Option.map_some]
      · refine hstored.trans ?_
        rw [hkept]
        obtain ⟨args, name, ok, used⟩ := t
        cases used <;> cases ok <;> rfl
  | connected =>
    obtain ⟨hm, hu⟩ := h.keeps (runs_any hr MySqlDB.connected_keeps)
    exact ⟨hm, Or.inr hu⟩
  | executeSQL szCMD =>
    have hp : (MySqlQuery.executeOn db szCMD).Follows AnyDb [] (db.KeepsStored []) :=
      MySqlDB.sendAgain_keeps fun db l => ⟨trivial, fun _ _ => rfl⟩
    obtain ⟨hm, hu⟩ := h.keeps (runs_any hr hp)
    exact ⟨hm, Or.inr hu⟩
  | execut cmd =>
    obtain ⟨hm, hu⟩ := h.keeps (runs_any hr (execut_keeps cmd))
    exact ⟨hm, Or.inr hu⟩

/-- What is stored after any calls. -/
theorem DbRun.matches_told {b : Bool} (h : DbRun b cs env db) : Matches cs db := by
  induction h with
  | new => exact fun hne => absurd rfl hne
  | call h hr ih => exact (ih.call hr).1

/-- Where the stored parameters are used, they are the expected ones just if that is safe. -/
theorem usesKept_iff (h : UsesKept cs l) :
    (∀ a ∈ connects l, a.Sound ∧ ∃ t, told cs = some t ∧ a = t.expected) ↔
      (connects l ≠ [] → ∃ t, told cs = some t ∧ t.Safe) := by
  constructor
  · intro hall hne
    obtain ⟨a, ha⟩ := List.exists_mem_of_ne_nil _ hne
    obtain ⟨t, ht, hkept⟩ := h a ha
    obtain ⟨hsound, t', ht', hexp⟩ := hall a ha
    obtain rfl : t = t' := Option.some.inj (ht.symm.trans ht')
    exact ⟨t, ht, t.kept_eq_iff.mp ⟨hkept.symm.trans hexp, hkept ▸ hsound⟩⟩
  · intro hsafe a ha
    obtain ⟨t, ht, hkept⟩ := h a ha
    obtain ⟨t', ht', hs⟩ := hsafe (List.ne_nil_of_mem ha)
    obtain rfl : t = t' := Option.some.inj (ht.symm.trans ht')
    obtain ⟨heq, hsound⟩ := t.kept_eq_iff.mpr hs
    exact ⟨hkept ▸ hsound, t, ht, hkept.trans heq⟩

/-- **When a `MySqlDB` only connects where it was told to**: each time it comes to connect again, the
last `Connect` has succeeded, or nothing that it was given is missing; and neither this nor the last
`UseDB` has been passed what `GetDBName` had returned. -/
theorem told_iff {b : Bool} (h : DbRun b cs env db) : ToldOnly cs ↔ SafeOnly cs := by
  induction h with
  | new => exact Iff.rfl
  | @call cs env db c a db' env' l h hr ih =>
    rcases (h.matches_told.call hr).2 with ⟨args, rfl⟩ | hu
    · exact ih
    · cases c with
      | connect args => exact ih
      | _ => exact and_congr (usesKept_iff hu) ih

/-- The arguments of a `Connect`. -/
def someServer : ConnectArgs StrArg :=
  ⟨some (.text (CString.ascii "db1")), some (.text (CString.ascii "game")),
    some (.text (CString.ascii "root")), some (.text (CString.ascii "pwd")), 3306⟩

/-- What they point to. -/
def someParams : ConnectArgs Chars := someServer.bind (StrArg.chars none)

/-- Another database is used, the connection is lost, and made again with the parameters of the
`Connect` that has made it, and with this database. -/
theorem told_iff_again :
    let log : Chars := .text (CString.ascii "log")
    let l₂ : DbTrace := [⟨.query (some 1) MySqlDB.setNames, true⟩,
      ⟨.realConnect 1 { someParams with szDB := some log }, true⟩,
      ⟨.init, some 1⟩, ⟨.close 0, ()⟩, ⟨.ping 0, false⟩]
    let l₁ : DbTrace := [⟨.query (some 0) (log.prepend (CString.ascii "use ")), true⟩]
    let l₀ : DbTrace := [⟨.query (some 0) MySqlDB.setNames, true⟩, ⟨.realConnect 0 someParams, true⟩,
      ⟨.init, some 0⟩]
    let cs : List DbEntry := [⟨.connected, some log, true, l₂⟩,
      ⟨.useDB (.text (CString.ascii "log")), someParams.szDB, true, l₁⟩,
      ⟨.connect someServer, none, true, l₀⟩]
    ToldOnly cs ↔ SafeOnly cs := by
  intro log l₂ l₁ l₀ cs
  have h₀ : (DbCall.code { m_bConnected := false } (.connect someServer)).eval DbOp.exec
      [.success, .success, .success] {} [] = some ((true, _), { handles := 1 }, l₀) := rfl
  have hrun := DbRun.call (.new (b := false)) (Prog.runs_of_eval h₀)
  have h₁ : (DbCall.code ⟨some 0, someParams.szServer, someParams.szDB, someParams.szUser,
      someParams.szPWD, 3306, true⟩ (.useDB (.text (CString.ascii "log")))).eval DbOp.exec
      [.success] { handles := 1 } [] = some ((true, _), { handles := 1 }, l₁) := rfl
  have hrun := hrun.call (Prog.runs_of_eval h₁)
  have h₂ : (DbCall.code ⟨some 0, someParams.szServer, some log, someParams.szUser,
      someParams.szPWD, 3306, true⟩ .connected).eval DbOp.exec
      [.failure 0, .success, .success, .success, .success] { handles := 1 } [] =
        some ((true, _), { handles := 2 }, l₂) := rfl
  exact told_iff (hrun.call (Prog.runs_of_eval h₂))

/-- The server refuses the connection, and the next call connects without any parameters. -/
theorem not_told_refused : ∃ cs env db, DbRun false cs env db ∧ ¬ ToldOnly cs := by
  have h₀ : (DbCall.code { m_bConnected := false } (.connect someServer)).eval DbOp.exec
      [.success, .failure 2003] {} [] = some ((false, _), { handles := 1 }, _) := rfl
  have hrun := DbRun.call (.new (b := false)) (Prog.runs_of_eval h₀)
  have h : (DbCall.code { m_pMySql := some 0, m_bConnected := false } .connected).eval DbOp.exec
      [.failure 0, .success, .success, .success, .success] { handles := 1 } [] =
        some ((true, _), { handles := 2 }, _) := rfl
  refine ⟨_, _, _, hrun.call (Prog.runs_of_eval h), fun htold => ?_⟩
  obtain ⟨-, t, ht, hargs⟩ := htold.1 ⟨none, none, none, none, 0⟩ (List.mem_cons_self ..)
  obtain rfl : _ = t := Option.some.inj ht
  exact absurd hargs (by decide)

end

end XeMySql
