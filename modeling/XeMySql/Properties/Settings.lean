import XeMySql.Session

/-!
# What becomes of the settings of a connection

`Connect` sets the character set and the automatic reconnect, `SelectDB` the database. Whether they
are still set later is a question of what has happened to the session since: `Reconnect` opens a new
one with the parameters of `Connect` and sets nothing.

* `connected_of_connect` — what `Connect` establishes
* `Intact.apply_iff` — which events leave that as it is
* `settings_iff` — in which runs it is never lost
-/

namespace XeMySql

open Interact

/-! ## What `Connect` establishes -/

/-- `Connect` has been called with `p` on connection `c`, and has returned `true`. -/
def State.Connected (s : State) (c : Nat) (p : ConnParams) : Prop :=
  s.sessionOf c = { server := some p, db := p.db, charset := some utf8, reconnect := true }

section

variable {y y' : LibMySql} {o : Outcome} {h : Nat} {s : State} {c : Nat} {p : ConnParams}

/-- `mysql_init` -/
theorem LibMySql.init_session (he : y.exec .init o = (y', some h)) :
    (y'.mysql h).session = {} := by
  simp only [exec] at he
  split at he <;> cases he
  rw [withMysql_self]
  rfl

/-- `mysql_real_connect` -/
theorem LibMySql.realConnect_session (he : y.exec (.realConnect h p) o = (y', true)) :
    (y'.mysql h).session = { (y.mysql h).session with server := some p, db := p.db } := by
  simp only [exec] at he
  split at he <;> cases he
  rw [withMysql_self]
  rfl

/-- `mysql_options` with `MYSQL_SET_CHARSET_NAME` -/
theorem LibMySql.setCharsetName_session {n : Bytes}
    (he : y.exec (.setCharsetName h n) o = (y', true)) :
    (y'.mysql h).session = { (y.mysql h).session with charset := some n } := by
  simp only [exec] at he
  split at he <;> cases he
  rw [withMysql_self]
  rfl

/-- `mysql_options` with `MYSQL_OPT_RECONNECT` -/
theorem LibMySql.setReconnect_session (he : y.exec (.setReconnect h) o = (y', true)) :
    (y'.mysql h).session = { (y.mysql h).session with reconnect := true } := by
  simp only [exec] at he
  split at he <;> cases he
  rw [withMysql_self]
  rfl

theorem sessionOf_withCon {m : Nat} {x : CXEMySqlCon} (hx : x.m_pMySql = some m) :
    ({ s with cons := s.cons.withCon c x, lib := y } : State).sessionOf c = (y.mysql m).session := by
  simp only [State.sessionOf, Cons.withCon_self, hx]

/-- **What `Connect` establishes.** -/
theorem connected_of_connect (rt : Runtime) (t : Tid) (s : State) (l : List (Answer Op Op.Reply)) :
    (CXEMySqlCon.connect c p).Always (exec rt t) s l fun a s' _ => a = true → s'.Connected c p := by
  refine Prog.Always.bind (P := fun _ _ _ => True) (fun _ _ _ _ => trivial) fun _ s l _ => ?_
  refine always_con rfl (always_lib fun o y m hinit => always_con rfl ?_)
  rcases m with _ | m
  · exact Prog.always_ret (by simp)
  · refine always_lib fun o y ok hcon => ?_
    cases ok with
    | false => exact always_lib fun o y e _ => Prog.always_ret (by simp)
    | true =>
      refine always_lib fun o y ok hset => ?_
      cases ok with
      | false => exact Prog.always_ret (by simp)
      | true =>
        refine always_lib fun o y ok hrec => ?_
        cases ok with
        | false => exact Prog.always_ret (by simp)
        | true =>
          refine Prog.always_ret fun _ => ?_
          unfold State.Connected
          refine (sessionOf_withCon rfl).trans ?_
          rw [LibMySql.setReconnect_session hrec, LibMySql.setCharsetName_session hset,
            LibMySql.realConnect_session hcon, LibMySql.init_session hinit]

end

/-! ## What stays of it -/

/-- The session has the options and the server of `Connect`, and `db` as its database. -/
structure Intact (p : ConnParams) (db : Bytes) (x : Session) : Prop where
  charset : x.charset = some utf8
  reconnect : x.reconnect = true
  server : ∃ q, x.server = some q ∧ q.host = p.host ∧ q.user = p.user ∧ q.port = p.port
  db : x.db = db

/-- The event neither replaces the session nor moves it from database `db`, unless by `SelectDB`. -/
def SessionEv.Harmless (db : Bytes) : SessionEv → Prop
  | select _ => True
  | use d => d = db
  | reconnect _ => False

section

variable {p : ConnParams} {db : Bytes} {x : Session}

/-- **Which events leave a session intact**: the harmless ones, and no others. -/
theorem Intact.apply_iff (h : Intact p db x) (e : SessionEv) :
    Intact p (e.selected.getD db) (e.apply x) ↔ e.Harmless db := by
  cases e with
  | select d => exact iff_of_true ⟨h.charset, h.reconnect, h.server, rfl⟩ trivial
  | use d =>
    constructor
    · exact fun h' => h'.db
    · rintro rfl
      exact ⟨h.charset, h.reconnect, h.server, rfl⟩
  | reconnect q =>
    refine iff_of_false (fun h' => ?_) id
    have hc := h'.charset
    cases hc

variable {rt : Runtime} {s₀ : State} {s : Sys} {c : Nat} {path : Steps}

/-- The database last selected on connection `c`: by `SelectDB`, or else, by `Connect`, `db`. -/
def lastSelected (c : Nat) (db : Bytes) (path : Steps) : Bytes :=
  Replay.last SessionEv.selected db (sessionEvents c path)

/-- A step of a run and the database last selected. -/
theorem lastSelected_cons (x : StepOf Tid Call Op Op.Reply Bool State Outcome) :
    lastSelected c db (x :: path)
      = ((eventOf c x).bind SessionEv.selected).getD (lastSelected c db path) :=
  Replay.last_filterMap_cons (eventOf c) db x path

/-- One step of a run. -/
theorem Intact.step_iff (h₀ : PoolOk s₀) {x : StepOf Tid Call Op Op.Reply Bool State Outcome}
    (hp : PathOf rt s₀ (x :: path) s)
    (h : Intact p (lastSelected c db path) (x.1.shared.sessionOf c)) :
    Intact p (lastSelected c db (x :: path)) (s.shared.sessionOf c) ↔
      ∀ e, eventOf c x = some e → e.Harmless (lastSelected c db path) := by
  obtain ⟨hbefore, hs⟩ := hp.uncons
  rw [sessionOf_step h₀ hbefore.reach hs, lastSelected_cons]
  cases he : eventOf c x with
  | none => exact iff_of_true h fun _ hn => nomatch hn
  | some e =>
    refine (h.apply_iff e).trans ?_
    simp

/-- **In which runs the settings of a connection are never lost**: those without a successful
`Reconnect` of it, and without a `USE` that leaves the selected database. -/
theorem settings_iff (h₀ : PoolOk s₀) (hc : s₀.Connected c p) (h : PathOf rt s₀ path s) :
    (∀ path' s', path' <:+ path → PathOf rt s₀ path' s' →
        Intact p (lastSelected c p.db path') (s'.shared.sessionOf c)) ↔
      ∀ x path', x :: path' <:+ path →
        ∀ e, eventOf c x = some e → e.Harmless (lastSelected c p.db path') := by
  refine h.always_iff
    (P := fun path s => Intact p (lastSelected c p.db path) (s.shared.sessionOf c)) ?_ ?_
  · show Intact p p.db (s₀.sessionOf c)
    rw [hc]
    exact ⟨rfl, rfl, ⟨p, rfl, rfl, rfl, rfl⟩, rfl⟩
  · exact fun x path' s' hs' h' => Intact.step_iff h₀ hs' h'

end

/-- A client that selects a database and sends a query while `os` is what the environment answers. -/
def selectAndQuery (db cmd : Bytes) (os : List Outcome) : List (Label Tid Call Outcome) :=
  .call (.client 0) (.selectDB db) :: List.replicate 5 (.act (.client 0) .success) ++
    .call (.client 0) (.query cmd []) :: os.map (.act (.client 0))

theorem allowed_selectAndQuery (db cmd : Bytes) (os : List Outcome) :
    Machine.Allowed okPool (selectAndQuery db cmd os) := by
  simp [Machine.Allowed, selectAndQuery, Call.usesPool]

/-- A run in which no connection is lost, and what is said of it. -/
theorem settings_of_query : ∃ path s,
    PathOf .standard (.small 1 0) path s ∧
    s.shared.sessionOf 0
      = { server := some ⟨[], [], [], [], 3306⟩, db := [100], charset := some utf8,
          reconnect := true } ∧
    ((∀ path' s', path' <:+ path → PathOf .standard (.small 1 0) path' s' →
        Intact ⟨[], [], [], [], 3306⟩ (lastSelected 0 [] path') (s'.shared.sessionOf 0)) ↔
      ∀ x path', x :: path' <:+ path →
        ∀ e, eventOf 0 x = some e → e.Harmless (lastSelected 0 [] path')) := by
  have hrun : ((machine .standard).run
      (selectAndQuery [100] [113] (List.replicate 8 .success)) (.init (.small 1 0))).map
      (fun s => s.shared.sessionOf 0)
      = some { server := some ⟨[], [], [], [], 3306⟩, db := [100], charset := some utf8,
               reconnect := true } := by
    decide
  obtain ⟨s, hs, hsession⟩ := Option.map_eq_some_iff.mp hrun
  have hp := Machine.Path.init.run (allowed_selectAndQuery [100] [113] _) hs
  exact ⟨_, s, hp, hsession, settings_iff (poolOk_started 1 0 0 0 _) (by rfl) hp⟩

/-- The server goes away (2006) after `SelectDB` has succeeded, and `Reconnect` succeeds: the new
session has no options, and the database is again that of `Connect`. -/
theorem settings_lost : ∃ path s,
    PathOf .standard (.small 1 0) path s ∧
    (State.small 1 0).Connected 0 ⟨[], [], [], [], 3306⟩ ∧
    lastSelected 0 [] path = [100] ∧ (s.shared.cons.con 0).cs = .free ∧
    s.shared.sessionOf 0 = { server := some ⟨[], [], [], [], 3306⟩ } ∧
    ¬ Intact ⟨[], [], [], [], 3306⟩ (lastSelected 0 [] path) (s.shared.sessionOf 0) := by
  obtain ⟨os, hos⟩ : ∃ os : List Outcome, os =
      List.replicate 3 .success ++ { ok := false, number := 2006 } :: List.replicate 12 .success :=
    ⟨_, rfl⟩
  have hrun : ((machine .standard).run (selectAndQuery [100] [113] os) (.init (.small 1 0))).map
      (fun s => ((s.shared.cons.con 0).cs, s.shared.sessionOf 0))
      = some (.free, { server := some ⟨[], [], [], [], 3306⟩ }) := by
    rw [hos]
    decide
  obtain ⟨s, hs, hend⟩ := Option.map_eq_some_iff.mp hrun
  obtain ⟨hfree, hsession⟩ := Prod.mk.inj hend
  refine ⟨_, s, Machine.Path.init.run (allowed_selectAndQuery [100] [113] os) hs, by rfl, ?_,
    hfree, hsession, fun h => ?_⟩
  · rw [hos]
    decide
  · have hc := h.charset
    rw [hsession] at hc
    cases hc

end XeMySql
