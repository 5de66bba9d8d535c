import XeMySql.Pool
import XeMySql.Lib.Replay

/-!
# The session of a connection

What the server knows of a pooled connection: who is connected, the current database, the options.
Three things happen to it: `SelectDB` and `USE` change the database, and `Reconnect` puts a new
session in its place.

* `sessionOf_step` — every step of the program is one of these, or leaves the session as it is
* `sessionOf_path` — the session of a connection after a run
-/

namespace XeMySql

open Interact Hold

/-! ## Sessions -/

/-- What a session is set to. -/
structure Session where
  server : Option ConnParams := none
  db : Bytes := []
  charset : Option Bytes := none
  reconnect : Bool := false
deriving DecidableEq

/-- A session that `mysql_real_connect` has opened with `p`, or nobody has opened yet. -/
def Session.opened : Option ConnParams → Session
  | some p => { server := some p, db := p.db }
  | none => {}

/-- What happens to a session. -/
inductive SessionEv where
  | select (db : Bytes)
  | use (db : Bytes)
  | reconnect (p : ConnParams)
deriving DecidableEq

namespace SessionEv

/-- What becomes of the session. -/
def apply : SessionEv → Session → Session
  | select db, x => { x with db := db }
  | use db, x => { x with db := db }
  | reconnect p, _ => .opened (some p)

/-- The database that is current afterwards. -/
def db : SessionEv → Bytes
  | select db => db
  | use db => db
  | reconnect p => p.db

/-- The database that has been selected by `SelectDB`. -/
def selected : SessionEv → Option Bytes
  | select db => some db
  | _ => none

theorem db_apply (e : SessionEv) (x : Session) : (e.apply x).db = (some e.db).getD x.db := by
  cases e <;> rfl

end SessionEv

/-- The session of a handle. -/
def MYSQL.session (m : MYSQL) : Session := ⟨m.server, m.db, m.charset, m.reconnect⟩

/-- The session of connection `c`; without a handle there is none, and nothing is set. -/
def State.sessionOf (s : State) (c : Nat) : Session :=
  match (s.cons.con c).m_pMySql with
  | some h => (s.lib.mysql h).session
  | none => {}

/-! ## What a call does to the session of its handle -/

namespace LibMySql

/-- What a call that works on a session does to it. -/
def event (y : LibMySql) (o : Outcome) : LibOp → Option SessionEv
  | .selectDb h db => if (y.exec (.selectDb h db) o).2 then some (.select db) else none
  | .realQuery h q => if (y.exec (.realQuery h q) o).2 then o.useDb.map .use else none
  | .stmtExecute st => if (y.exec (.stmtExecute st) o).2 then o.useDb.map .use else none
  | _ => none

variable {y : LibMySql} {e : LibOp} {o : Outcome} {h : Nat}

/-- A command that is accepted leaves `done`, another one leaves the session as it was. -/
theorem command_session (y : LibMySql) (h : Nat) (o : Outcome) (done : MYSQL) :
    ((y.command h o done).1.mysql h).session
      = if (y.command h o done).2 then done.session else (y.mysql h).session := by
  unfold command
  split
  · rw [withMysql_self]
    rfl
  · split
    · rw [withMysql_self]
      rfl
    · rw [withMysql_self]
      rfl

/-- **What a call does to the session of its handle**, when it neither connects it nor sets
options. -/
theorem exec_session (ht : y.target e = some h) (h1 : ∀ p, e ≠ .realConnect h p)
    (h2 : ∀ n, e ≠ .setCharsetName h n) (h3 : e ≠ .setReconnect h) :
    ((y.exec e o).1.mysql h).session
      = (y.event o e).elim (y.mysql h).session (·.apply (y.mysql h).session) := by
  cases e with
  | init => cases ht
  | freeResult r => cases ht
  | realConnect m p =>
    cases ht
    exact absurd rfl (h1 p)
  | setCharsetName m n =>
    cases ht
    exact absurd rfl (h2 n)
  | setReconnect m =>
    cases ht
    exact absurd rfl h3
  | selectDb m db =>
    cases ht
    refine (y.command_session h o _).trans ?_
    show _ = (if (y.command h o _).2 then some (SessionEv.select db) else none).elim _ _
    split <;> rfl
  | realQuery m q =>
    cases ht
    refine (y.command_session h o _).trans ?_
    show _ = (if (y.command h o _).2 then o.useDb.map SessionEv.use else none).elim _ _
    split
    · cases o.useDb <;> rfl
    · rfl
  | stmtExecute st =>
    cases ht
    simp only [event, exec]
    split
    · rw [command_session]
      split
      · cases o.useDb <;> rfl
      · rfl
    · rfl
  | stmtPrepare st q =>
    cases ht
    show ((y.exec (.stmtPrepare st q) o).1.mysql _).session = _
    simp only [event, exec]
    split <;> rw [command_session] <;> split <;> rfl
  | storeResult m =>
    cases ht
    simp only [event, exec]
    split
    · split <;> (show ((y.withMysql h _).mysql h).session = _; rw [withMysql_self]; rfl)
    · rfl
  | stmtInit m =>
    cases ht
    simp only [event, exec]
    split <;> rfl
  | stmtClose st =>
    cases ht
    show ((y.withMysql (y.stmt st).mysql _).mysql _).session = _
    rw [withMysql_self]
    rfl
  | _ => rfl

end LibMySql

/-! ## The new handle of `Reconnect` -/

/-- The session of every new handle is what it has been connected with. -/
def Temps (y : LibMySql) (v : Tid → Hold) : Prop :=
  ∀ t h, (v t).temp = some h → (y.mysql h).session = .opened (v t).connected

section

variable {x x' : Cons} {y : LibMySql} {v : Tid → Hold} {t : Tid} {o : Outcome}

/-- Other threads do not work on the new handle of a thread, and it is not changed when a thread
comes to know `l`. -/
theorem Temps.learn (h : Temps y v) {y' : LibMySql} {l : Hold}
    (hother : ∀ u, u ≠ t → ∀ m, (v u).temp = some m → y'.mysql m = y.mysql m)
    (hself : ∀ m, l.temp = some m → (y'.mysql m).session = .opened l.connected) :
    Temps y' (Function.update v t l) := by
  intro u m hm
  by_cases hu : u = t
  · subst hu
    rw [Function.update_self] at hm ⊢
    exact hself m hm
  · rw [Function.update_of_ne hu] at hm ⊢
    rw [hother u hu m hm]
    exact h u m hm

/-- What a thread calls the library with is not the new handle of another thread, and if it is its
own, it is being connected, asked for an error or closed. -/
theorem Inv.target_temp (hI : Inv x y v) {e : LibOp} (hm : (v t).may (.lib e)) {u : Tid} {m : Nat}
    (hu : (v u).temp = some m) (ht : y.target e = some m) :
    u = t ∧ ((∃ p, e = .realConnect m p) ∨ e = .close m ∨ e = .errno m ∨ e = .error m) := by
  have hk := hI.knows t
  have hother := ((hI.knows u).temp m hu).2.2
  rcases Hold.may_target hm ht with hmysql | ⟨st, hst, rfl⟩ | ⟨htemp, he⟩
  · obtain ⟨c, -, hc⟩ := hk.mysql m hmysql
    exact absurd hc (hother c)
  · obtain ⟨-, c, -, hc⟩ := hk.stmt st hst
    exact absurd hc (hother c)
  · exact ⟨hI.temps u t m hu htemp, he⟩

/-- A call of the library. -/
theorem Temps.lib (h : Temps y v) (hI : Inv x y v) {e : LibOp} (hm : (v t).may (.lib e)) :
    Temps (y.exec e o).1 (Function.update v t ((v t).next (.lib e) (y.exec e o).2)) := by
  refine h.learn ?_ ?_
  · intro u hu m hum
    refine LibMySql.exec_of_ne (fun ht => hu ?_) ((hI.knows u).temp m hum).2.1
    exact (hI.target_temp hm hum ht).1
  · intro m hlm
    -- a call that is not on the new handle leaves it as it is
    have hkeep : ((v t).next (.lib e) (y.exec e o).2).temp = (v t).temp →
        ((v t).next (.lib e) (y.exec e o).2).connected = (v t).connected →
        y.target e ≠ some m →
        ((y.exec e o).1.mysql m).session
          = .opened ((v t).next (.lib e) (y.exec e o).2).connected := by
      intro htemp hcon hne
      rw [htemp] at hlm
      rw [hcon, LibMySql.exec_of_ne hne ((hI.knows t).temp m hlm).2.1]
      exact h t m hlm
    have hnot : ((v t).next (.lib e) (y.exec e o).2).temp = (v t).temp →
        (∀ p, e ≠ .realConnect m p) → e ≠ .close m → e ≠ .errno m → e ≠ .error m →
        y.target e ≠ some m := by
      intro htemp h1 h2 h3 h4 ht
      rw [htemp] at hlm
      rcases (hI.target_temp hm hlm ht).2 with ⟨p, he⟩ | he | he | he
      · exact h1 p he
      · exact h2 he
      · exact h3 he
      · exact h4 he
    cases e with
    | init =>
      simp only [next, LibMySql.exec] at hlm ⊢
      split at hlm
      · next ho =>
        cases hlm
        simp only [ho, if_true]
        show ((y.withMysql _ _).mysql _).session = _
        rw [LibMySql.withMysql_self, hm.2.2]
        rfl
      · cases hlm
    | realConnect n p =>
      obtain ⟨-, htemp, -⟩ := hm
      have hn : n = m := by
        simp only [next] at hlm
        split at hlm
        · exact Option.some.inj (htemp.symm.trans hlm)
        · exact Option.some.inj (htemp.symm.trans hlm)
      subst hn
      have hs := h t n htemp
      by_cases ho : o.ok = true
      · simp only [next, LibMySql.exec, ho, if_true, LibMySql.withMysql_self]
        -- an opened session has no options, so connecting it again only changes the server
        cases hc : (v t).connected <;> rw [hc] at hs <;>
          simp only [MYSQL.session, Session.opened, Session.mk.injEq] at hs ⊢ <;> simp [hs]
      · simp only [next, LibMySql.exec, ho]
        exact (congrArg MYSQL.session (y.withMysql_self n _)).trans hs
    | close n =>
      simp only [next] at hlm ⊢
      by_cases ht : (v t).temp = some n
      · simp [ht] at hlm
      · simp only [ht, if_false] at hlm ⊢
        exact h t m hlm
    | errno n => exact h t m hlm
    | error n => exact h t m hlm
    | _ => exact hkeep rfl rfl (hnot rfl (by simp) (by simp) (by simp) (by simp))

/-- A thread that calls no library has the new handle it had, or none. -/
theorem Temps.keep (h : Temps y v) {l : Hold}
    (hl : l.temp = none ∨ l.temp = (v t).temp ∧ l.connected = (v t).connected) :
    Temps y (Function.update v t l) := by
  refine h.learn (fun _ _ _ _ => rfl) fun m hm => ?_
  rcases hl with hl | ⟨ht, hc⟩
  · rw [hl] at hm
    cases hm
  · rw [ht] at hm
    rw [hc]
    exact h t m hm

end

/-- Every step keeps this. -/
theorem temps_kept (rt : Runtime) {s₀ : State} (h₀ : PoolOk s₀) :
    (machine rt).Kept okPool s₀ Hold.discipline {} (fun _ _ => {}) holdFinal
      fun s h => Inv s.cons s.lib (holdView h) ∧ Temps s.lib (holdView h) := by
  refine (hold_kept rt h₀).and ?_ ?_ ?_ ?_ ?_
  · exact fun _ _ hm => nomatch hm
  · intro s h t c _ hT _ _ _
    rw [holdView, Discipline.view_call]
    exact hT.keep (Or.inl rfl)
  · intro s h t e o s' _ hT _ he
    obtain ⟨i, rfl⟩ := exec_wait he
    exact hT
  · intro s h t e o s' r hI hT hm he
    have he : exec rt t e o s = some (s', some r) := he
    rw [holdView, Discipline.view_reply]
    cases e with
    | lib e =>
      obtain ⟨rfl, hr⟩ := exec_lib he
      cases hr
      exact hT.lib hI hm
    | con e =>
      obtain ⟨x, -, rfl⟩ := exec_con he
      cases e with
      | unLock c => exact hT.keep (Or.inl rfl)
      | setMySql c m => exact hT.keep (Or.inl rfl)
      | setParams c p => exact hm.elim
      | _ => exact hT.keep (Or.inr ⟨rfl, rfl⟩)
    | tp e =>
      obtain ⟨_, -, rfl⟩ := exec_tp he
      exact hT.keep (Or.inr ⟨rfl, rfl⟩)
    | task e =>
      obtain ⟨_, -, rfl⟩ := exec_task he
      exact hT.keep (Or.inr ⟨rfl, rfl⟩)
    | res e =>
      obtain ⟨_, -, rfl⟩ := exec_res he
      exact hT.keep (Or.inr ⟨rfl, rfl⟩)
    | rt e =>
      obtain ⟨_, -, rfl⟩ := exec_rt he
      exact hT.keep (Or.inr ⟨rfl, rfl⟩)
  · intro s h t c a _ hT _
    rw [holdView, Discipline.view_done]
    exact hT.keep (Or.inl rfl)

/-! ## What a step does to the session of a connection -/

/-- What a request of thread `t` does to the session of connection `c`. -/
def State.event (s : State) (t : Tid) (o : Outcome) (c : Nat) : Op → Option SessionEv
  | .lib e => if (s.cons.con c).cs = .held t 0 then s.lib.event o e else none
  | .con (.setMySql d _) => if d = c then some (.reconnect (s.cons.con c).params) else none
  | _ => none

/-- A request that has to wait does nothing to a session. -/
theorem event_wait {rt : Runtime} {s s' : State} {t : Tid} {o : Outcome} {c : Nat} {e : Op}
    (he : exec rt t e o s = some (s', none)) : s.event t o c e = none := by
  cases e with
  | lib e => exact nomatch (exec_lib he).2
  | con e =>
    obtain ⟨x, hx, -⟩ := exec_con he
    obtain ⟨rfl, -⟩ := Cons.exec_wait hx
    rfl
  | _ => rfl

/-- What a step of a run does to it. -/
def eventOf (c : Nat) : StepOf Tid Call Op Op.Reply Bool State Outcome → Option SessionEv
  | (_, .call _ _) => none
  | (s, .act t o) =>
    match s.thread t with
    | .running _ (.op e _) => s.shared.event t o c e
    | _ => none

section

variable {rt : Runtime} {t : Tid} {o : Outcome} {s s' : State} {v : Tid → Hold} {c : Nat}

/-- Accesses to connections change the handle of one only where `Reconnect` stores it. -/
theorem sessionOf_con {e : ConOp} {x : Cons} {r : Option e.Reply}
    (hx : s.cons.exec t e = some (x, r)) (he : ∀ d m, e ≠ .setMySql d m) :
    ({ s with cons := x } : State).sessionOf c = s.sessionOf c := by
  simp only [State.sessionOf, Cons.exec_mysql hx he]

/-- A call of the library that does something to a session is made on the handle of the connection
the thread has locked. -/
theorem Inv.target_of_event (hI : Inv s.cons s.lib v) {e : LibOp} (hm : (v t).may (.lib e))
    (hc : (v t).con = some c) {ev : SessionEv} (he : s.lib.event o e = some ev) :
    ∃ m, s.lib.target e = some m ∧ (s.cons.con c).m_pMySql = some m := by
  have hlocked : e.onLocked = true := by
    cases e <;> first | rfl | cases he
  obtain ⟨d, m, hd, ht, hh⟩ := hI.works_on hm hlocked
  rw [hc] at hd
  cases hd
  exact ⟨m, ht, hh⟩

/-- A call of the library. -/
theorem sessionOf_lib (hI : Inv s.cons s.lib v) {e : LibOp} (hm : (v t).may (.lib e)) :
    ({ s with lib := (s.lib.exec e o).1 } : State).sessionOf c
      = (s.event t o c (.lib e)).elim (s.sessionOf c) (·.apply (s.sessionOf c)) := by
  -- a call that is not on the handle of `c` means nothing to it
  have hnone : (∀ m, (s.cons.con c).m_pMySql = some m → s.lib.target e ≠ some m) →
      s.event t o c (.lib e) = none := by
    intro hne
    rw [Option.eq_none_iff_forall_not_mem]
    intro ev hev
    simp only [State.event, Option.mem_def] at hev
    split at hev
    · next hcs =>
      obtain ⟨m, ht, hh⟩ := hI.target_of_event hm ((hI.lock t c).mpr hcs) hev
      exact hne m hh ht
    · cases hev
  cases hh : (s.cons.con c).m_pMySql with
  | none =>
    rw [hnone (by simp [hh])]
    simp only [State.sessionOf, hh, Option.elim_none]
  | some m =>
    have hs : ∀ y, ({ s with lib := y } : State).sessionOf c = (y.mysql m).session := by
      intro y
      simp only [State.sessionOf, hh]
    have hs₀ : s.sessionOf c = (s.lib.mysql m).session := hs s.lib
    rw [hs, hs₀]
    by_cases ht : s.lib.target e = some m
    · have hcon := hI.con_of_target hm ht hh
      have htemp : (v t).temp ≠ some m := fun h => ((hI.knows t).temp m h).2.2 c hh
      rw [State.event, if_pos ((hI.lock t c).mp hcon)]
      refine LibMySql.exec_session ht ?_ ?_ ?_
      · rintro p rfl
        exact htemp hm.2.1
      · rintro n rfl
        exact hm
      · rintro rfl
        exact hm
    · rw [hnone (by rw [hh]; rintro _ ⟨⟩; exact ht),
        LibMySql.exec_of_ne ht (hI.fresh c m hh)]
      rfl

/-- **What a request does to the session of a connection.** -/
theorem sessionOf_reply {e : Op} {r : e.Reply} (hI : Inv s.cons s.lib v) (hT : Temps s.lib v)
    (hm : (v t).may e) (he : exec rt t e o s = some (s', some r)) :
    s'.sessionOf c = (s.event t o c e).elim (s.sessionOf c) (·.apply (s.sessionOf c)) := by
  cases e with
  | lib e =>
    obtain ⟨rfl, -⟩ := exec_lib he
    exact sessionOf_lib hI hm
  | con e =>
    obtain ⟨x, hx, rfl⟩ := exec_con he
    by_cases hset : ∃ d m, e = .setMySql d m
    · obtain ⟨d, m, rfl⟩ := hset
      obtain ⟨hcon, htemp, hsome, -, hparams, hconnected⟩ := hm
      obtain ⟨m, rfl⟩ := Option.isSome_iff_exists.mp hsome
      obtain ⟨p, hp⟩ := Option.isSome_iff_exists.mp hparams
      obtain ⟨d', hd', hpd⟩ := (hI.knows t).params p hp
      rw [hcon] at hd'
      cases hd'
      cases hx
      by_cases hd : d = c
      · subst hd
        have hs := hT t m htemp
        rw [hconnected, hp, ← hpd] at hs
        simpa [State.sessionOf, State.event, Cons.withCon_self, SessionEv.apply] using hs
      · simp [State.sessionOf, State.event, hd, Cons.withCon, Function.update_of_ne (Ne.symm hd)]
    · rw [sessionOf_con hx fun d m h => hset ⟨d, m, h⟩]
      cases e with
      | setMySql d m => exact absurd ⟨d, m, rfl⟩ hset
      | _ => rfl
  | tp e =>
    obtain ⟨_, -, rfl⟩ := exec_tp he
    rfl
  | task e =>
    obtain ⟨_, -, rfl⟩ := exec_task he
    rfl
  | res e =>
    obtain ⟨_, -, rfl⟩ := exec_res he
    rfl
  | rt e =>
    obtain ⟨_, -, rfl⟩ := exec_rt he
    rfl

end

/-! ## Runs -/

section

variable {rt : Runtime} {s₀ : State} {s s' : Sys} {c : Nat}

/-- **Step lemma.** Every step of the program does to the session of a connection what its event
says. -/
theorem sessionOf_step (h₀ : PoolOk s₀) {l : Label Tid Call Outcome}
    (h : (machine rt).Reach okPool s₀ s) (hs : (machine rt).step l s = some s') :
    s'.shared.sessionOf c
      = (eventOf c (s, l)).elim (s.shared.sessionOf c) (·.apply (s.shared.sessionOf c)) := by
  have H := temps_kept rt h₀
  obtain ⟨hI, hT⟩ := (H.holds h).1
  cases Machine.step_cases hs with
  | call ht hc => rfl
  | @wait t o d e k sh ht he =>
    have he : exec rt t e o s.shared = some (sh, none) := he
    have hnone := event_wait (c := c) he
    obtain ⟨i, rfl⟩ := exec_wait he
    simp only [eventOf, ht, hnone]
    rfl
  | @reply t o d e k sh r ht he =>
    simp only [eventOf, ht]
    exact sessionOf_reply hI hT (H.may h ht) he
  | @done t o d a ht =>
    simp only [eventOf, ht]
    rfl

/-- A run of the program, with its steps. -/
abbrev PathOf (rt : Runtime) (s₀ : State) :=
  (machine rt).Path okPool s₀

/-- A list of steps. -/
abbrev Steps := List (StepOf Tid Call Op Op.Reply Bool State Outcome)

/-- What has happened to the session of connection `c` in a run, the latest first. -/
def sessionEvents (c : Nat) (path : Steps) : List SessionEv := path.filterMap (eventOf c)

/-- **The session of a connection is what the events of the run have made of it.** -/
theorem sessionOf_path (h₀ : PoolOk s₀) {path : Steps} (h : PathOf rt s₀ path s) (c : Nat) :
    s.shared.sessionOf c
      = (sessionEvents c path).foldr SessionEv.apply (s₀.sessionOf c) :=
  h.replay (v := fun s => s.sessionOf c) fun _ _ _ hr hs => sessionOf_step h₀ hr hs

end

end XeMySql
