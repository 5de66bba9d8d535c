import XeMySql.Session
import XeMySql.Properties.Exclusive
import XeMySql.Requests

/-!
# In which database statements run

`SelectDB` changes the database of the one connection that `GetFreeCon` gives it. Statements run in
the database that was set last on the connection that `GetFreeCon` gives them.

* `selecting_kept` — from `mysql_select_db` to its return, a `SelectDB` only unlocks its connection
* `selectDB_locks` — a `SelectDB` that has returned `true` has locked one connection
* `recent_path` — what the calls of a run have set on a connection
* `db_of_sends` — in which database a statement runs
* `governs_iff` — when a successful `SelectDB` has selected it
* `other_connection` — two connections are enough for another one
-/

namespace XeMySql

open Interact Hold

/-! ## The way of `SelectDB` -/

/-- Where a thread is in a call of `SelectDB (db)`: `before` it calls `mysql_select_db`, this has
`accepted` or `refused` the database, or the connection is `given` back; `elsewhere` in other
calls. -/
inductive Selecting where
  | elsewhere
  | before (db : Bytes)
  | accepted (db : Bytes)
  | refused (db : Bytes)
  | given (db : Bytes) (c : Nat) (b : Bool)
deriving DecidableEq

namespace Selecting

/-- What a thread may ask. -/
def may : Selecting → Op → Prop
  | elsewhere, .lib (.selectDb _ _) => False
  | elsewhere, _ => True
  | before _, .con .getFreeCon => True
  | before _, .con (.getMySql _) => True
  | before db, .lib (.selectDb _ d) => d = db
  | before _, .con (.unLock _) => True
  | accepted _, .con (.unLock _) => True
  | refused _, .con (.unLock _) => True
  | _, _ => False

/-- Where it is afterwards. -/
def next (l : Selecting) : (e : Op) → e.Reply → Selecting
  | .lib (.selectDb _ d), r => if r = true then accepted d else refused d
  | .con (.unLock c), _ =>
    match l with
    | before db => given db c false
    | accepted db => given db c true
    | refused db => given db c false
    | l => l
  | _, _ => l

/-- The discipline. -/
def discipline : Discipline Op Op.Reply Selecting := ⟨may, fun _ _ _ => True, next⟩

/-- At the beginning of a call. -/
def start (_ : Tid) : Call → Selecting
  | .selectDB db => before db
  | _ => elsewhere

/-- At its end. -/
def final (c : Call) (a : Bool) (l : Selecting) : Prop :=
  match c with
  | .selectDB db => l = before db ∧ a = false ∨ ∃ c, l = given db c a
  | _ => l = elsewhere

end Selecting

/-- Requests other than `mysql_select_db`. -/
def NoSelect : Op → Prop
  | .lib (.selectDb _ _) => False
  | _ => True

theorem noSelect_of_onDatabase (e : Op) (he : OnDatabase e) : NoSelect e := by
  cases e with
  | lib e => cases e <;> first | exact he.elim | trivial
  | _ => trivial

theorem noSelect_follows {α : Type} {p : Code α} (h : p.Only NoSelect) :
    p.Follows Selecting.discipline .elsewhere fun _ l => l = .elsewhere := by
  refine h.follows (fun e he => ?_) (fun e he r => ?_)
  · cases e with
    | lib e => cases e <;> first | exact he.elim | trivial
    | _ => trivial
  · cases e with
    | lib e => cases e <;> first | exact he.elim | rfl
    | con e => cases e <;> rfl
    | _ => rfl

theorem selectDB_selecting (db : Bytes) :
    (CXEMySql.selectDB db).Follows Selecting.discipline (.before db)
      (Selecting.final (.selectDB db)) := by
  refine ⟨trivial, fun c _ => ?_⟩
  cases c with
  | none => exact Or.inl ⟨rfl, rfl⟩
  | some c =>
    refine ⟨trivial, fun m _ => ?_⟩
    cases m with
    | none => exact ⟨trivial, fun _ _ => Or.inr ⟨c, rfl⟩⟩
    | some h =>
      refine ⟨rfl, fun ok _ => ?_⟩
      cases ok <;> exact ⟨trivial, fun _ _ => Or.inr ⟨c, rfl⟩⟩

/-- **Every call keeps to the way of `SelectDB`**, or selects nothing. -/
theorem code_selecting (t : Tid) (c : Call) :
    c.code.Follows Selecting.discipline (Selecting.start t c) (Selecting.final c) := by
  have hdb : ∀ e, OnDatabase e → NoSelect e := noSelect_of_onDatabase
  have htext : ∀ e, OnText e → NoSelect e := fun e he => hdb e (OnText.onDatabase e he)
  have hsession : ∀ e, OnSession e → NoSelect e := fun e he => htext e (OnSession.onText e he)
  have hpool : ∀ {α : Type} (p : ThreadPool.Code Nat α), (CXEMySql.inPool p).Only NoSelect :=
    fun p => Prog.only_lift (fun _ => trivial) p
  cases c with
  | executeQueryNoRet q =>
    refine noSelect_follows (Prog.only_bind (Prog.only_bind ?_ fun _ => hpool _) fun _ => trivial)
    rcases q with _ | q
    · trivial
    · exact ⟨trivial, fun _ => ⟨trivial, fun _ => trivial⟩⟩
  | selectDB db => exact selectDB_selecting db
  | query cmd args => exact noSelect_follows ((query_text cmd args).mono htext)
  | queryData cmd data args =>
    exact noSelect_follows (queryData_only htext cmd (fun _ _ _ _ => trivial) args)
  | queryBlob cmd d => exact noSelect_follows ((queryBlob_database cmd d).mono hdb)
  | newResult => exact ⟨trivial, fun _ _ => rfl⟩
  | deleteResult x =>
    refine ⟨trivial, fun r _ => ?_⟩
    cases r with
    | none => exact ⟨trivial, fun _ _ => rfl⟩
    | some r => exact ⟨trivial, fun _ _ => ⟨trivial, fun _ _ => rfl⟩⟩
  | connect c p => exact noSelect_follows ((connect_session c p).mono hsession)
  | close c => exact noSelect_follows ((close_session c).mono hsession)
  | reconnect c => exact noSelect_follows ((reconnect_session c).mono hsession)
  | start n => exact noSelect_follows (Prog.only_bind (hpool _) fun _ => trivial)
  | stop => exact noSelect_follows (Prog.only_bind (hpool _) fun _ => trivial)
  | workerProc =>
    refine noSelect_follows (Prog.only_bind (hpool _) fun r => ?_)
    rcases r with _ | ⟨w, k⟩
    · trivial
    · cases w with
      | false => trivial
      | true => exact Prog.only_bind (processTask_only (fun _ => trivial) hdb k) fun _ => trivial

/-- Where the threads are after a history. -/
abbrev selectView (h : List Ev) : Tid → Selecting :=
  Selecting.discipline.view .elsewhere Selecting.start h

section

variable {h : List Ev} {t u : Tid} {e : Op} {r : e.Reply}

/-- A connection is given back by unlocking it. -/
theorem Selecting.given_of_next {l : Selecting} {db : Bytes} {c : Nat} {b : Bool} (hm : l.may e)
    (hl : l.next e r = .given db c b) : e = .con (.unLock c) := by
  cases e with
  | lib e =>
    cases e with
    | selectDb m d =>
      simp only [Selecting.next] at hl
      split at hl <;> cases hl
    | _ =>
      rw [show l = _ from hl] at hm
      exact hm.elim
  | con e =>
    cases e with
    | unLock d => cases l <;> cases hl <;> first | rfl | exact hm.elim
    | _ =>
      rw [show l = _ from hl] at hm
      exact hm.elim
  | _ =>
    rw [show l = _ from hl] at hm
    exact hm.elim

end

/-- Every call of every run keeps to the way of `SelectDB`; what it has given back, it has unlocked. -/
theorem selecting_kept (rt : Runtime) (s₀ : State) :
    (machine rt).Kept okPool s₀ Selecting.discipline .elsewhere Selecting.start Selecting.final
      fun _ h => ∀ t db c b, selectView h t = .given db c b → c ∈ unlockedIn t h where
  code t c _ := code_selecting t c
  init := nofun
  call s h t c hI _ _ _ u db d b hu := by
    rw [selectView, Discipline.view_call] at hu
    by_cases hut : u = t
    · subst hut
      rw [Function.update_self] at hu
      cases c <;> cases hu
    · rw [Function.update_of_ne hut] at hu
      have hin := hI u db d b hu
      rwa [unlockedIn, callTrace_call, if_neg (Ne.symm hut)]
  wait s h t e o s' hI _ _ := hI
  reply s h t e o s' r hI hm _ := by
    refine ⟨trivial, fun u db d b hu => ?_⟩
    rw [selectView, Discipline.view_reply] at hu
    rw [unlockedIn_reply]
    by_cases hut : u = t
    · subst hut
      rw [Function.update_self] at hu
      obtain rfl := Selecting.given_of_next hm hu
      rw [if_pos rfl]
      exact List.mem_cons_self
    · rw [Function.update_of_ne hut] at hu
      rw [if_neg (Ne.symm hut)]
      exact hI u db d b hu
  done s h t c a hI _ u db d b hu := by
    rw [selectView, Discipline.view_done] at hu
    by_cases hut : u = t
    · subst hut
      rw [Function.update_self] at hu
      cases hu
    · rw [Function.update_of_ne hut] at hu
      have hin := hI u db d b hu
      rwa [unlockedIn, callTrace_done, if_neg (Ne.symm hut)]

/-- **A `SelectDB` that has returned `true` has locked one connection.** -/
theorem selectDB_locks {rt : Runtime} {s₀ : State} (h₀ : PoolOk s₀) {s : Sys}
    (h : (machine rt).Reach okPool s₀ s) {t : Tid} {db : Bytes} {earlier : List Ev}
    (hd : .done t (.selectDB db) true :: earlier <:+ s.hist) : ∃ c, lockedIn t earlier = [c] := by
  induction h with
  | init => exact absurd (List.suffix_nil.mp hd) (by simp)
  | @step s s' l h hl hs ih =>
    cases Machine.step_cases hs with
    | wait _ _ => exact ih hd
    | call _ _ =>
      rcases List.suffix_cons_iff.mp hd with he | hd
      · cases he
      · exact ih hd
    | reply _ _ =>
      rcases List.suffix_cons_iff.mp hd with he | hd
      · cases he
      · exact ih hd
    | @done u o d a ht =>
      rcases List.suffix_cons_iff.mp hd with he | hd
      · cases he
        obtain ⟨-, hb⟩ := ((balance_kept rt h₀).holds h).1
        have hgiven := ((selecting_kept rt s₀).holds h).1
        have hrel : (holdView s.hist t).con = none := (balance_kept rt h₀).atReturn h ht
        rcases (selecting_kept rt s₀).atReturn h ht with ⟨-, hfalse⟩ | ⟨c, hc⟩
        · cases hfalse
        · -- what it has unlocked is all it has locked
          have hin := hgiven t db c true hc
          rw [(hb t).unlocked] at hin
          refine ⟨c, ?_⟩
          rw [(hb t).locked, hrel, Option.none_or, Option.mem_toList.mp hin]
          rfl
      · exact ih hd

/-! ## What calls set a connection to -/

/-- What a step of a run sets the database of connection `c` to: a `SelectDB` that is about to return
`true` gives `c` back, a `Reconnect` stores its new handle in `c`, or a statement executed on `c` is a
`USE`. -/
def settingOf (c : Nat) : StepOf Tid Call Op Op.Reply Bool State Outcome → Option SessionEv
  | (_, .call _ _) => none
  | (s, .act t o) =>
    match s.thread t with
    | .running (.selectDB db) (.op (.con (.unLock d)) next) =>
      match next () with
      | .ret true => if d = c then some (.select db) else none
      | _ => none
    | .running _ (.op (.lib (.selectDb _ _)) _) => none
    | .running _ (.op e _) => s.shared.event t o c e
    | _ => none

/-- The database set last on connection `c` in a run from `s₀`: by a `SelectDB` that returns `true`,
by `Reconnect`, which sets that of `Connect`, or by `USE`. -/
def lastSet (s₀ : State) (c : Nat) (path : Steps) : Bytes :=
  Replay.last (fun e : SessionEv => some e.db) (s₀.sessionOf c).db (path.filterMap (settingOf c))

/-- In a `SelectDB`, the library has accepted `db` on connection `c`, which the thread holds. -/
def Selects (h : List Ev) (c : Nat) (t : Tid) (db : Bytes) : Prop :=
  selectView h t = .accepted db ∧ (holdView h t).con = some c

/-- The session of `c` is in the database that calls have set last, or a `SelectDB` that holds `c` has
just selected another. -/
def Recent (s₀ : State) (c : Nat) (path : Steps) (s : Sys) : Prop :=
  ((s.shared.sessionOf c).db = lastSet s₀ c path ∧ ∀ t db, ¬ Selects s.hist c t db) ∨
    ∃ t db, Selects s.hist c t db ∧ (s.shared.sessionOf c).db = db

section

variable {rt : Runtime} {s₀ : State} {s s' : Sys} {path : Steps} {c : Nat}
  {l : Label Tid Call Outcome}

theorem lastSet_cons (x : StepOf Tid Call Op Op.Reply Bool State Outcome) :
    lastSet s₀ c (x :: path) = ((settingOf c x).map SessionEv.db).getD (lastSet s₀ c path) := by
  rw [Option.map_eq_bind]
  exact Replay.last_filterMap_cons (settingOf c) _ x path

/-- The database of a session after an event. -/
theorem db_elim (ev : Option SessionEv) (x : Session) :
    (ev.elim x (·.apply x)).db = (ev.map SessionEv.db).getD x.db := by
  cases ev with
  | none => rfl
  | some ev => exact SessionEv.db_apply ev x

/-- A step with the same event on both sides, while nobody has just selected a database on `c` if
there is an event. -/
theorem Recent.same (hr : Recent s₀ c path s)
    (hdb : (s'.shared.sessionOf c).db
      = ((eventOf c (s, l)).map SessionEv.db).getD (s.shared.sessionOf c).db)
    (hset : settingOf c (s, l) = eventOf c (s, l))
    (hsel : ∀ t db, Selects s'.hist c t db ↔ Selects s.hist c t db)
    (hnone : eventOf c (s, l) ≠ none → ∀ t db, ¬ Selects s.hist c t db) :
    Recent s₀ c ((s, l) :: path) s' := by
  rcases hr with ⟨heq, hno⟩ | ⟨t, db, hs, heq⟩
  · refine Or.inl ⟨?_, fun t db hs => hno t db ((hsel t db).mp hs)⟩
    rw [hdb, lastSet_cons, hset, heq]
  · refine Or.inr ⟨t, db, (hsel t db).mpr hs, ?_⟩
    have hev : eventOf c (s, l) = none := by
      by_contra hev
      exact hnone hev t db hs
    rw [hdb, hev]
    exact heq

end

section

variable {rt : Runtime} {s₀ : State} {s s' : Sys} {path : Steps} {c : Nat} {t : Tid} {o : Outcome}
  {call : Call} {e : Op} {k : e.Reply → Code Bool}

/-- Other requests than `UnLock` and `mysql_select_db` set what they do to the session. -/
theorem settingOf_eq (ht : s.thread t = .running call (.op e k)) (h1 : ∀ d, e ≠ .con (.unLock d))
    (h2 : NoSelect e) : settingOf c (s, .act t o) = s.shared.event t o c e := by
  simp only [settingOf, ht]
  cases e with
  | con e =>
    cases e with
    | unLock d => exact absurd rfl (h1 d)
    | _ => cases call <;> rfl
  | lib e =>
    cases e with
    | selectDb m db => exact h2.elim
    | _ => cases call <;> rfl
  | _ => cases call <;> rfl

/-- After `UnLock`, a `SelectDB` returns what the library has said of its database, and asks for
nothing more. -/
theorem unLock_next (h : (machine rt).Reach okPool s₀ s) {d : Nat} {k : Unit → Code Bool}
    (ht : s.thread t = .running call (.op (.con (.unLock d)) k)) (db : Bytes) :
    (call = .selectDB db ∧ k () = .ret true) ↔ selectView s.hist t = .accepted db := by
  have hok := ((selecting_kept rt s₀).holds h).2 t
  rw [ht] at hok
  obtain ⟨hmay, hnext⟩ := hok
  have hk := hnext () trivial
  have hmay : (selectView s.hist t).may (.con (.unLock d)) := hmay
  have hk : (k ()).Follows Selecting.discipline
      ((selectView s.hist t).next (.con (.unLock d)) ()) (Selecting.final call) := hk
  constructor
  · rintro ⟨rfl, hp⟩
    rw [hp] at hk
    rcases hk with ⟨-, hfalse⟩ | ⟨c, hc⟩
    · cases hfalse
    · cases hv : selectView s.hist t with
      | given db' c' b =>
        rw [hv] at hmay
        exact hmay.elim
      | _ =>
        rw [hv] at hc
        cases hc <;> rfl
  · intro hv
    rw [hv] at hk
    cases hp : k () with
    | op e' k' =>
      rw [hp] at hk
      exact absurd hk.1 (by cases e' <;> exact id)
    | ret a =>
      rw [hp] at hk
      cases call with
      | selectDB db' =>
        rcases hk with ⟨hb, -⟩ | ⟨c, hc⟩
        · cases hb
        · cases hc
          exact ⟨rfl, rfl⟩
      | _ => cases hk

/-- The `UnLock` of a `SelectDB` sets what the library has accepted. -/
theorem settingOf_unLock (h : (machine rt).Reach okPool s₀ s) {d : Nat} {k : Unit → Code Bool}
    (ht : s.thread t = .running call (.op (.con (.unLock d)) k)) {ev : SessionEv} :
    settingOf c (s, .act t o) = some ev ↔
      ∃ db, selectView s.hist t = .accepted db ∧ d = c ∧ ev = .select db := by
  have hnext := unLock_next h ht
  simp only [settingOf, ht]
  constructor
  · intro hs
    cases call with
    | selectDB db =>
      refine ⟨db, ?_⟩
      cases hp : k () with
      | op e' k' => simp [hp] at hs
      | ret a =>
        cases a with
        | false => simp [hp] at hs
        | true =>
          simp only [hp] at hs
          split at hs
          · next hd => exact ⟨(hnext db).mp ⟨rfl, hp⟩, hd, (Option.some.inj hs).symm⟩
          · cases hs
    | _ => cases hs
  · rintro ⟨db, hv, rfl, rfl⟩
    obtain ⟨rfl, hp⟩ := (hnext db).mpr hv
    simp [hp]

/-- A thread that has not just selected a database, and has not afterwards, changes nothing. -/
theorem selects_congr {h h' : List Ev}
    (hother : ∀ u, u ≠ t → selectView h' u = selectView h u ∧ holdView h' u = holdView h u)
    (hbefore : ∀ db, selectView h t ≠ .accepted db) (hafter : ∀ db, selectView h' t ≠ .accepted db)
    (u : Tid) (db : Bytes) : Selects h' c u db ↔ Selects h c u db := by
  by_cases hu : u = t
  · subst hu
    exact iff_of_false (fun hs => hafter db hs.1) fun hs => hbefore db hs.1
  · rw [Selects, Selects, (hother u hu).1, (hother u hu).2]

end

section

variable {rt : Runtime} {s₀ : State} {s s' : Sys} {path : Steps} {c d : Nat} {t : Tid} {o : Outcome}
  {call : Call} {e : Op} {k : e.Reply → Code Bool} {r : e.Reply}

/-- Where a thread is after an answer. -/
theorem selectView_answer (hs' : s'.hist = .reply t e r :: s.hist) :
    selectView s'.hist t = (selectView s.hist t).next e r := by
  rw [hs', selectView, Discipline.view_reply, Function.update_self]
  rfl

/-- An answer to another thread is nothing to it. -/
theorem views_of_ne (hs' : s'.hist = .reply t e r :: s.hist) (u : Tid) (hu : u ≠ t) :
    selectView s'.hist u = selectView s.hist u ∧ holdView s'.hist u = holdView s.hist u := by
  rw [hs', selectView, Discipline.view_reply, holdView, Discipline.view_reply,
    Function.update_of_ne hu, Function.update_of_ne hu]
  exact ⟨rfl, rfl⟩

/-- `UnLock`: if `SelectDB` gives `c` back, the database it has selected is the one set last. -/
theorem Recent.unLock {k : Unit → Code Bool} (h₀ : PoolOk s₀) (h : (machine rt).Reach okPool s₀ s)
    (ht : s.thread t = .running call (.op (.con (.unLock d)) k))
    (hs' : s'.hist = .reply t (.con (.unLock d)) () :: s.hist)
    (hdb : (s'.shared.sessionOf c).db = (s.shared.sessionOf c).db) (hr : Recent s₀ c path s) :
    Recent s₀ c ((s, .act t o) :: path) s' := by
  have hI := ((hold_kept rt h₀).holds h).1
  have hhold : (holdView s.hist t).con = some d := ((hold_kept rt h₀).may h ht).1
  have hmay : (selectView s.hist t).may (.con (.unLock d)) := (selecting_kept rt s₀).may h ht
  have hnone : eventOf c (s, .act t o) = none := by
    simp only [eventOf, ht]
    rfl
  have hset : ∀ ev, settingOf c (s, .act t o) = some ev ↔
      ∃ db, selectView s.hist t = .accepted db ∧ d = c ∧ ev = .select db :=
    fun ev => settingOf_unLock h ht
  have hgiven : ∀ db, selectView s'.hist t ≠ .accepted db := by
    intro db hv
    rw [selectView_answer hs'] at hv
    cases hw : selectView s.hist t <;> rw [hw] at hv <;> cases hv
  by_cases hacc : d = c ∧ ∃ db, selectView s.hist t = .accepted db
  · obtain ⟨rfl, db, hv⟩ := hacc
    have hholder : ∀ u db, Selects s.hist d u db → u = t := fun u db hs => hI.unique hs.2 hhold
    refine Or.inl ⟨?_, fun u db' hs => ?_⟩
    · rw [lastSet_cons, (hset _).mpr ⟨db, hv, rfl, rfl⟩, hdb]
      rcases hr with ⟨-, hno⟩ | ⟨u, db', hs, heq⟩
      · exact absurd ⟨hv, hhold⟩ (hno t db)
      · obtain rfl := hholder u db' hs
        rw [hs.1] at hv
        cases hv
        exact heq
    · by_cases hu : u = t
      · subst hu
        exact hgiven db' hs.1
      · obtain ⟨h1, h2⟩ := views_of_ne hs' u hu
        exact hu (hholder u db' ⟨h1 ▸ hs.1, h2 ▸ hs.2⟩)
  · have hunset : settingOf c (s, .act t o) = none := by
      rw [Option.eq_none_iff_forall_ne_some]
      intro ev hev
      obtain ⟨db, hv, hd, -⟩ := (hset ev).mp hev
      exact hacc ⟨hd, db, hv⟩
    refine hr.same (by rw [hnone]; exact hdb) (hunset.trans hnone.symm) (fun u db => ?_)
      fun hne => absurd hnone hne
    by_cases hu : u = t
    · subst hu
      refine iff_of_false (fun hs => hgiven db hs.1) fun hs => ?_
      exact hacc ⟨Option.some.inj (hhold.symm.trans hs.2), db, hs.1⟩
    · obtain ⟨h1, h2⟩ := views_of_ne hs' u hu
      rw [Selects, Selects, h1, h2]

/-- `mysql_select_db`: from now on the `SelectDB` has just selected a database, if that is accepted. -/
theorem Recent.selectDb {m : Nat} {db : Bytes} {k : Bool → Code Bool} {ok : Bool} (h₀ : PoolOk s₀)
    (h : (machine rt).Reach okPool s₀ s)
    (ht : s.thread t = .running call (.op (.lib (.selectDb m db)) k))
    (hs' : s'.hist = .reply t (.lib (.selectDb m db)) ok :: s.hist)
    (hok : ok = (s.shared.lib.exec (.selectDb m db) o).2)
    (hdb : (s'.shared.sessionOf c).db
      = ((eventOf c (s, .act t o)).map SessionEv.db).getD (s.shared.sessionOf c).db)
    (hr : Recent s₀ c path s) : Recent s₀ c ((s, .act t o) :: path) s' := by
  have hI := ((hold_kept rt h₀).holds h).1
  have hmay : (selectView s.hist t).may (.lib (.selectDb m db)) := (selecting_kept rt s₀).may h ht
  have hnot : ∀ db, selectView s.hist t ≠ .accepted db := by
    intro db' hv
    rw [hv] at hmay
    exact hmay
  have hview : selectView s'.hist t = if ok = true then .accepted db else .refused db :=
    selectView_answer hs'
  have hhold : (holdView s'.hist t).con = (holdView s.hist t).con := by
    rw [hs', holdView, Discipline.view_reply, Function.update_self]
    rfl
  have hset : settingOf c (s, .act t o) = none := by
    simp only [settingOf, ht]
  have hev : eventOf c (s, .act t o) = if (s.shared.cons.con c).cs = .held t 0 then
      if ok = true then some (.select db) else none else none := by
    simp only [eventOf, ht, hok]
    rfl
  by_cases hsel : ok = true ∧ (s.shared.cons.con c).cs = .held t 0
  · obtain ⟨rfl, hcs⟩ := hsel
    refine Or.inr ⟨t, db, ⟨hview, hhold.trans ((hI.lock t c).mpr hcs)⟩, ?_⟩
    rw [hdb, hev, if_pos hcs]
    rfl
  · have hnone : eventOf c (s, .act t o) = none := by
      rw [hev]
      split
      · next hcs => exact if_neg fun ho => hsel ⟨ho, hcs⟩
      · rfl
    refine hr.same hdb (hset.trans hnone.symm) (fun u db' => ?_) fun hne => absurd hnone hne
    by_cases hu : u = t
    · subst hu
      refine iff_of_false (fun hs => hsel ?_) fun hs => hnot db' hs.1
      rw [Selects, hview, hhold] at hs
      refine ⟨?_, (hI.lock u c).mp hs.2⟩
      by_contra ho
      simp [ho] at hs
    · obtain ⟨h1, h2⟩ := views_of_ne hs' u hu
      rw [Selects, Selects, h1, h2]

/-- Other answers set what they do to the session. -/
theorem Recent.other (h₀ : PoolOk s₀) (h : (machine rt).Reach okPool s₀ s)
    (ht : s.thread t = .running call (.op e k)) (hs' : s'.hist = .reply t e r :: s.hist)
    (hunlock : ∀ d, e ≠ .con (.unLock d)) (hselect : NoSelect e)
    (hdb : (s'.shared.sessionOf c).db
      = ((eventOf c (s, .act t o)).map SessionEv.db).getD (s.shared.sessionOf c).db)
    (hr : Recent s₀ c path s) : Recent s₀ c ((s, .act t o) :: path) s' := by
  have hI := ((hold_kept rt h₀).holds h).1
  have hhold : (holdView s.hist t).may e := (hold_kept rt h₀).may h ht
  have hmay : (selectView s.hist t).may e := (selecting_kept rt s₀).may h ht
  have hev : eventOf c (s, .act t o) = s.shared.event t o c e := by
    simp only [eventOf, ht]
  have hnot : ∀ db, selectView s.hist t ≠ .accepted db := by
    intro db hv
    rw [hv] at hmay
    cases e with
    | con e =>
      cases e with
      | unLock d => exact hunlock d rfl
      | _ => exact hmay
    | _ => exact hmay
  have hview : selectView s'.hist t = selectView s.hist t := by
    rw [selectView_answer hs']
    cases e with
    | lib e => cases e <;> first | exact hselect.elim | rfl
    | con e =>
      cases e with
      | unLock d => exact absurd rfl (hunlock d)
      | _ => rfl
    | _ => rfl
  refine hr.same hdb ((settingOf_eq ht hunlock hselect).trans hev.symm)
    (selects_congr (views_of_ne hs') hnot (by rwa [hview])) ?_
  intro hne u db hs
  rw [hev] at hne
  -- who does something to the session of `c` holds it
  have hcon : (holdView s.hist t).con = some c := by
    cases e with
    | con e =>
      cases e with
      | setMySql d m =>
        by_cases hd : d = c
        · exact hd ▸ hhold.1
        · exact absurd (if_neg hd) hne
      | _ => exact absurd rfl hne
    | lib e =>
      by_cases hcs : (s.shared.cons.con c).cs = .held t 0
      · exact (hI.lock t c).mpr hcs
      · exact absurd (if_neg hcs) hne
    | _ => exact absurd rfl hne
  obtain rfl := hI.unique hs.2 hcon
  exact hnot db hs.1

end

section

variable {rt : Runtime} {s₀ : State} {s s' : Sys} {path : Steps} {c : Nat} {t : Tid}
  {l : Label Tid Call Outcome}

/-- A call begins or ends. -/
theorem Recent.boundary (hr : Recent s₀ c path s)
    (hdb : (s'.shared.sessionOf c).db
      = ((eventOf c (s, l)).map SessionEv.db).getD (s.shared.sessionOf c).db)
    (hset : settingOf c (s, l) = none) (hev : eventOf c (s, l) = none)
    (hother : ∀ u, u ≠ t → selectView s'.hist u = selectView s.hist u ∧
      holdView s'.hist u = holdView s.hist u)
    (hbefore : ∀ db, selectView s.hist t ≠ .accepted db)
    (hafter : ∀ db, selectView s'.hist t ≠ .accepted db) : Recent s₀ c ((s, l) :: path) s' :=
  hr.same hdb (hset.trans hev.symm) (selects_congr hother hbefore hafter) fun hne => absurd hev hne

/-- **Step lemma.** Every step keeps the session of a connection in the database that calls have set
last, or in the one that the `SelectDB` holding it has just selected. -/
theorem recent_step (h₀ : PoolOk s₀) (h : (machine rt).Reach okPool s₀ s)
    (hs : (machine rt).step l s = some s') (hr : Recent s₀ c path s) :
    Recent s₀ c ((s, l) :: path) s' := by
  have H := selecting_kept rt s₀
  have hdb : (s'.shared.sessionOf c).db
      = ((eventOf c (s, l)).map SessionEv.db).getD (s.shared.sessionOf c).db := by
    rw [sessionOf_step (c := c) h₀ h hs, db_elim]
  cases Machine.step_cases hs with
  | @call t call ht hc =>
    have hidle : selectView s.hist t = .elsewhere := H.view_idle h (by simp [ht])
    refine hr.boundary (t := t) hdb rfl rfl (fun u hu => ?_) (by simp [hidle]) fun db hv => ?_
    · rw [selectView, Discipline.view_call, holdView, Discipline.view_call,
        Function.update_of_ne hu, Function.update_of_ne hu]
      exact ⟨rfl, rfl⟩
    · rw [selectView, Discipline.view_call, Function.update_self] at hv
      cases call <;> cases hv
  | @wait t o call e k sh ht he =>
    have he : exec rt t e o s.shared = some (sh, none) := he
    have hnone := event_wait (c := c) he
    have hev : eventOf c (s, .act t o) = none := by
      simp only [eventOf, ht, hnone]
    have hset : settingOf c (s, .act t o) = none := by
      refine (settingOf_eq ht (fun d hd => ?_) ?_).trans hnone
      · subst hd
        obtain ⟨x, hx, -⟩ := exec_con he
        obtain ⟨hask, -⟩ := Cons.exec_wait hx
        cases hask
      · cases e with
        | lib e =>
          obtain ⟨-, hanswer⟩ := exec_lib he
          cases hanswer
        | _ => trivial
    exact hr.same hdb (hset.trans hev.symm) (fun _ _ => Iff.rfl) fun hne => absurd hev hne
  | @reply t o call e k sh r ht he =>
    have he : exec rt t e o s.shared = some (sh, some r) := he
    by_cases hunlock : ∃ d, e = .con (.unLock d)
    · obtain ⟨d, rfl⟩ := hunlock
      have hev : eventOf c (s, .act t o) = none := by
        simp only [eventOf, ht]
        rfl
      rw [hev] at hdb
      exact Recent.unLock h₀ h ht rfl hdb hr
    by_cases hselect : ∃ m db, e = .lib (.selectDb m db)
    · obtain ⟨m, db, rfl⟩ := hselect
      obtain ⟨-, hr'⟩ := exec_lib he
      exact Recent.selectDb h₀ h ht rfl (Option.some.inj hr') hdb hr
    · refine Recent.other h₀ h ht rfl (fun d hd => hunlock ⟨d, hd⟩) ?_ hdb hr
      cases e with
      | lib e =>
        cases e with
        | selectDb m db => exact hselect ⟨m, db, rfl⟩
        | _ => trivial
      | _ => trivial
  | @done t o call a ht =>
    have hfinal : Selecting.final call a (selectView s.hist t) := H.atReturn h ht
    refine hr.boundary (t := t) hdb (by simp only [settingOf, ht]) (by simp only [eventOf, ht])
      (fun u hu => ?_) (fun db hv => ?_) fun db hv => ?_
    · rw [selectView, Discipline.view_done, holdView, Discipline.view_done,
        Function.update_of_ne hu, Function.update_of_ne hu]
      exact ⟨rfl, rfl⟩
    · rw [hv] at hfinal
      cases call <;> simp [Selecting.final] at hfinal
    · rw [selectView, Discipline.view_done, Function.update_self] at hv
      cases hv

/-- **What the calls of a run have set on a connection.** -/
theorem recent_path (h₀ : PoolOk s₀) (h : PathOf rt s₀ path s) (c : Nat) : Recent s₀ c path s := by
  induction h with
  | init => exact Or.inl ⟨rfl, fun t db hs => nomatch hs.1⟩
  | step h _ hs ih => exact recent_step h₀ h.reach hs ih

end

/-! ## Which database statements run in -/

/-- The overloads of `Query`. -/
def Call.isQuery : Call → Bool
  | query _ _ => true
  | queryData _ _ _ => true
  | queryBlob _ _ => true
  | _ => false

/-- In `s`, thread `u` is about to make the call `e`, by which a query that it has begun in `later`
sends a statement. -/
structure AboutToSend (s : Sys) (later : List Ev) (u : Tid) (e : LibOp) : Prop where
  here : ∃ call k, s.thread u = .running call (.op (.lib e) k) ∧ call.isQuery = true
  began : ∃ call, .call u call ∈ later
  sends : e.sends = true

/-- `SelectDB (db)` has returned `true`, `later` is what has happened since, and no other `SelectDB`
has started in it. -/
structure LastSelect (db : Bytes) (later h : List Ev) : Prop where
  returned : ∃ t earlier, h = later ++ .done t (.selectDB db) true :: earlier
  last : ∀ t d, .call t (.selectDB d) ∉ later

/-- Statements of queries begun after the last `SelectDB` run in the database it has selected. -/
def Governs (s : Sys) : Prop :=
  ∀ db later, LastSelect db later s.hist → ∀ u e h, AboutToSend s later u e →
    s.shared.lib.target e = some h → (s.shared.lib.mysql h).db = db

section

variable {rt : Runtime} {s₀ : State} {s : Sys} {path : Steps}

/-- **In which database a statement runs**: in the one set last on the connection that `GetFreeCon`
has given to its call. -/
theorem db_of_sends (h₀ : PoolOk s₀) (h : PathOf rt s₀ path s) {u : Tid} {call : Call} {e : LibOp}
    {k : e.Reply → Code Bool} (hu : s.thread u = .running call (.op (.lib e) k))
    (hs : e.sends = true) :
    ∃ c m, lockedIn u s.hist = [c] ∧ s.shared.lib.target e = some m ∧
      (s.shared.lib.mysql m).db = lastSet s₀ c path := by
  have H := balance_kept rt h₀
  obtain ⟨hI, hb⟩ := (H.holds h.reach).1
  obtain ⟨c, m, hc, ht, hh⟩ := hI.works_on (H.may h.reach hu) (LibOp.onLocked_of_sends hs)
  refine ⟨c, m, ?_, ht, ?_⟩
  · rw [(hb u).locked, hc]
    rfl
  · have hdb : (s.shared.sessionOf c).db = lastSet s₀ c path := by
      rcases recent_path h₀ h c with ⟨hdb, -⟩ | ⟨t, db, hsel, -⟩
      · exact hdb
      · -- the thread that holds `c` sends a statement, so it has not just selected a database
        obtain rfl := hI.unique hsel.2 hc
        have hmay : (selectView s.hist t).may (.lib e) := (selecting_kept rt s₀).may h.reach hu
        rw [hsel.1] at hmay
        exact hmay.elim
    simp only [State.sessionOf, hh] at hdb
    exact hdb

/-- **When `SelectDB` governs the later queries.** One that has returned `true` has locked one
connection; it governs when, on every connection that later queries lock, the database set last is
the one that it has selected. -/
theorem governs_iff (h₀ : PoolOk s₀) (h : PathOf rt s₀ path s) :
    (∀ t db earlier, .done t (.selectDB db) true :: earlier <:+ s.hist →
      ∃ c, lockedIn t earlier = [c]) ∧
    (Governs s ↔ ∀ db later, LastSelect db later s.hist → ∀ u e c, AboutToSend s later u e →
      c ∈ lockedIn u s.hist → lastSet s₀ c path = db) := by
  refine ⟨fun t db earlier hd => selectDB_locks h₀ h.reach hd, ?_, ?_⟩
  · intro hg db later hl u e c ha hc
    obtain ⟨call, k, hu, -⟩ := ha.here
    obtain ⟨c', m, hlock, ht, hdb⟩ := db_of_sends h₀ h hu ha.sends
    rw [hlock, List.mem_singleton] at hc
    rw [hc, ← hdb]
    exact hg db later hl u e m ha ht
  · intro hset db later hl u e m ha ht
    obtain ⟨call, k, hu, -⟩ := ha.here
    obtain ⟨c, m', hlock, ht', hdb⟩ := db_of_sends h₀ h hu ha.sends
    rw [ht] at ht'
    cases ht'
    rw [hdb]
    exact hset db later hl u e c ha (by rw [hlock]; exact List.mem_singleton_self c)

end

/-! ## One connection, and two -/

/-- A client selects database `db`. -/
def selecting (db : Bytes) : List (Label Tid Call Outcome) :=
  .call (.client 0) (.selectDB db) :: List.replicate 5 (.act (.client 0) .success)

/-- With one connection, the next query gets the one that `SelectDB` has got; what is said of it. -/
theorem governs_one : ∃ path s, PathOf .standard (.small 1 0) path s ∧
    (s.thread (.client 1)).asking = some (.query [113] [], .lib (.realQuery 0 [113])) ∧
    lastSet (.small 1 0) 0 path = [100] ∧
    (∀ t db earlier, .done t (.selectDB db) true :: earlier <:+ s.hist →
      ∃ c, lockedIn t earlier = [c]) ∧
    (Governs s ↔ ∀ db later, LastSelect db later s.hist → ∀ u e c, AboutToSend s later u e →
      c ∈ lockedIn u s.hist → lastSet (.small 1 0) c path = db) := by
  obtain ⟨ls, hls⟩ : ∃ ls, ls = selecting [100] ++
      .call (.client 1) (.query [113] []) :: List.replicate 3 (.act (.client 1) .success) := ⟨_, rfl⟩
  have hrun : ((machine .standard).run ls (.init (.small 1 0))).map
      (fun s => (s.thread (.client 1)).asking)
      = some (some (.query [113] [], .lib (.realQuery 0 [113]))) := by
    rw [hls]
    decide
  obtain ⟨s, hs, hask⟩ := Option.map_eq_some_iff.mp hrun
  have hp : PathOf .standard (.small 1 0) _ s :=
    Machine.Path.init.run (by simp [hls, Machine.Allowed, selecting, Call.usesPool]) hs
  refine ⟨_, s, hp, hask, ?_, governs_iff (poolOk_started 1 0 0 0 _) hp⟩
  rw [hls]
  decide

/-- Two clients begin a query, and the second gets to `mysql_real_query`. -/
def twoQueries (cmd : Bytes) : List (Label Tid Call Outcome) :=
  [.call (.client 1) (.query cmd []), .act (.client 1) .success, .call (.client 2) (.query cmd []),
    .act (.client 2) .success, .act (.client 2) .success, .act (.client 2) .success,
    .act (.client 2) .success]

/-- `SelectDB` has selected a database on connection 0. While a query has locked this one, another
query gets connection 1, which is still in the database of `Connect`. -/
theorem other_connection : ∃ s, (machine .standard).Reach okPool (.small 2 0) s ∧ ¬ Governs s := by
  have hrun : ((machine .standard).run (selecting [100]) (.init (.small 2 0))).bind (fun s =>
      ((machine .standard).run (twoQueries [113]) s).map fun s' =>
        (lastReturn s.hist, (s'.thread (.client 2)).asking, (s'.shared.lib.mysql 1).db))
      = some (some (.client 0, .selectDB [100], true),
          some (.query [113] [], .lib (.realQuery 1 [113])), []) := by
    decide
  obtain ⟨s₁, h₁, hrun⟩ := Option.bind_eq_some_iff.mp hrun
  obtain ⟨s, h₂, hs⟩ := Option.map_eq_some_iff.mp hrun
  obtain ⟨hret, hs⟩ := Prod.mk.inj hs
  obtain ⟨hask, hdb⟩ := Prod.mk.inj hs
  have hreach : (machine .standard).Reach okPool (.small 2 0) s :=
    (Machine.Reach.init.run (by simp [Machine.Allowed, selecting, Call.usesPool]) h₁).run
      (by simp [Machine.Allowed, twoQueries, Call.usesPool]) h₂
  obtain ⟨earlier, hearlier⟩ := lastReturn_eq_some hret
  obtain ⟨k, hk⟩ := Thread.asking_eq_some hask
  obtain ⟨later, hlater, hcalls⟩ := Machine.run_hist h₂
  refine ⟨s, hreach, fun hg => ?_⟩
  have hlast : LastSelect [100] later s.hist :=
    ⟨⟨_, earlier, by rw [hlater, hearlier]⟩, fun t d h => by simp [hcalls, twoQueries] at h⟩
  have hsend : AboutToSend s later (.client 2) (.realQuery 1 [113]) :=
    ⟨⟨_, k, hk, rfl⟩, ⟨.query [113] [], by simp [hcalls, twoQueries]⟩, rfl⟩
  have h := hg [100] later hlast (.client 2) _ 1 hsend rfl
  rw [hdb] at h
  cases h

end XeMySql
