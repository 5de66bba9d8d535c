import XeMySql.Pool
import XeMySql.Delivery
import XeMySql.Lib.Solo

/-!
# Calls come to an end

A thread that has locked a connection makes no request that could keep it waiting before it has
unlocked it. So a waiting thread waits for one that can go on.

* `answered` — what may keep a thread waiting, and that nothing else does
* `Running.lead_end` — a thread that has asked for a connection can go on to the end of its call
* `calls_end` — whatever has happened so far, the calls of all clients can still come to their ends
-/

namespace XeMySql

open Interact Hold

/-- Requests that may keep a thread waiting. -/
def MayWait : Op → Prop
  | .con .getFreeCon => True
  | .tp .lock => True
  | .tp (.getQueued _) => True
  | .tp (.waitForMultipleObjects _) => True
  | _ => False

/-- Where a thread is in its call: it has asked for a connection, and its last `mysql_init` has
failed. -/
structure Phase where
  entered : Bool := false
  failed : Bool := false
deriving DecidableEq

namespace Phase

/-- A thread crashes where its last `mysql_init` has failed, does not wait once it has asked for a
connection, and hands its results to objects that existed at the start. -/
def may (s₀ : State) (l : Phase) (e : Op) : Prop :=
  (l.failed = true ↔ e = .rt .crash) ∧ (l.entered = true → ¬ MayWait e) ∧
    ∀ r, e = .res r → ∃ x n p, r = .setRes x n p ∧ (s₀.results.obj x).isSome = true

/-- Where it is afterwards. -/
def next (l : Phase) : (e : Op) → e.Reply → Phase
  | .con .getFreeCon, _ => { l with entered := true }
  | .con (.unLock _), _ => { l with entered := true }
  | .lib .init, r => { l with failed := r.isNone }
  | _, _ => l

/-- The discipline. -/
def discipline (s₀ : State) : Discipline Op Op.Reply Phase := ⟨may s₀, fun _ _ _ => True, next⟩

/-- A thread at work on its connection. -/
abbrev inside : Phase := { entered := true }

end Phase

/-- The calls of a program at work: queries that fit into a task, and result objects that exist at the
start; none is destroyed. -/
def okServing (s₀ : State) (_ : Tid) : Call → Prop
  | .executeQueryNoRet (some q) => Short q
  | .selectDB _ => True
  | .query _ _ => True
  | .queryData _ none _ => True
  | .queryData _ (some x) _ => (s₀.results.obj x).isSome = true
  | .queryBlob _ _ => True
  | .workerProc => True
  | _ => False

variable {s₀ : State}

/-! ## The code -/

/-- Requests that leave a thread at work where it is. -/
def Calm (s₀ : State) : Op → Prop
  | .con .getFreeCon => False
  | .con _ => True
  | .lib .init => False
  | .lib _ => True
  | .rt .crash => False
  | .rt _ => True
  | .task _ => True
  | .res (.setRes x _ _) => (s₀.results.obj x).isSome = true
  | _ => False

theorem calm_phase {α : Type} {p : Code α} (h : p.Only (Calm s₀)) :
    p.Follows (Phase.discipline s₀) .inside fun _ l => l = .inside := by
  refine h.follows (fun e he => ?_) (fun e he r => ?_)
  · refine ⟨⟨nofun, ?_⟩, fun _ hw => ?_, ?_⟩
    · rintro rfl
      exact he.elim
    · cases e with
      | con e => cases e <;> first | exact he.elim | exact hw.elim
      | tp e => exact he.elim
      | _ => exact hw.elim
    · rintro r rfl
      cases r with
      | setRes x n p => exact ⟨x, n, p, rfl, he⟩
      | _ => exact he.elim
  · cases e with
    | con e => cases e <;> first | exact he.elim | rfl
    | lib e => cases e <;> first | exact he.elim | rfl
    | _ => rfl

theorem OnPrepared.calm (e : Op) (h : OnPrepared e) : Calm s₀ e := by
  cases e with
  | con e => cases e <;> first | exact h.elim | trivial
  | lib e => cases e <;> first | exact h.elim | trivial
  | rt e => cases e <;> first | exact h.elim | trivial
  | _ => exact h.elim

theorem reconnect_phase (c : Nat) :
    (CXEMySqlCon.reconnect c).Follows (Phase.discipline s₀) .inside fun _ l => l = .inside := by
  refine ⟨⟨⟨nofun, nofun⟩, fun _ => id, nofun⟩, fun r _ => ?_⟩
  cases r with
  | none => exact ⟨⟨⟨fun _ => rfl, fun _ => rfl⟩, fun _ => id, nofun⟩, fun r => nomatch r⟩
  | some temp =>
    refine calm_phase ⟨trivial, fun p => ⟨trivial, fun ok => ?_⟩⟩
    cases ok with
    | false => exact ⟨trivial, fun _ => ⟨trivial, fun _ => trivial⟩⟩
    | true =>
      refine ⟨trivial, fun m => ?_⟩
      cases m with
      | none => exact ⟨trivial, fun _ => trivial⟩
      | some h => exact ⟨trivial, fun _ => ⟨trivial, fun _ => trivial⟩⟩

/-- A quiet request first. -/
theorem op_phase {α : Type} {e : Op} {k : e.Reply → Code α} {l' : Phase} (he : Calm s₀ e)
    (hk : ∀ r, (k r).Follows (Phase.discipline s₀) .inside fun _ l => l = l') :
    (Prog.op e k : Code α).Follows (Phase.discipline s₀) .inside fun _ l => l = l' := by
  obtain ⟨hmay, hnext⟩ := calm_phase (p := req e) ⟨he, fun _ => trivial⟩
  refine ⟨hmay, fun r hr => ?_⟩
  have hsame : (Phase.discipline s₀).next .inside e r = .inside := hnext r hr
  rw [hsame]
  exact hk r

theorem queryFailed_phase (c h : Nat) (szQuery : Bytes) :
    (CXEMySql.queryFailed c h szQuery).Follows (Phase.discipline s₀) .inside
      fun _ l => l = .inside := by
  refine op_phase trivial fun _ => op_phase trivial fun _ => op_phase trivial fun _ =>
    op_phase trivial fun n => ?_
  show (CXEMySql.handleError c n).Follows (Phase.discipline s₀) .inside fun _ l => l = .inside
  unfold CXEMySql.handleError
  split
  · exact reconnect_phase c
  · exact rfl

theorem queryOn_phase (c h : Nat) (cmd : Bytes) (args : List Printf.Arg) :
    (CXEMySql.queryOn c h cmd args).Follows (Phase.discipline s₀) .inside fun _ l => l = .inside := by
  refine op_phase trivial fun szQuery => op_phase trivial fun ok => ?_
  cases ok with
  | false => exact queryFailed_phase c h _
  | true => exact op_phase trivial fun _ => op_phase trivial fun _ => rfl

theorem queryDataOn_phase (c h : Nat) (cmd : Bytes) {data : Option Nat} (args : List Printf.Arg)
    (hdata : ∀ x, data = some x → (s₀.results.obj x).isSome = true) :
    (CXEMySql.queryDataOn c h cmd data args).Follows (Phase.discipline s₀) .inside
      fun _ l => l = .inside := by
  rw [CXEMySql.queryDataOn_eq]
  refine op_phase trivial fun szQuery => op_phase trivial fun ok => ?_
  cases ok with
  | false => exact queryFailed_phase c h _
  | true =>
    refine op_phase trivial fun _ => ?_
    simp only [Prog.bind_ret]
    refine calm_phase (CXEMySql.storeData_only trivial trivial ?_)
    exact fun x n r hx => hdata x hx

/-! ## Calls -/

/-- Before a thread has asked for a connection it may ask anything but for the result of a query,
and it has not crashed. -/
theorem outside_phase {α : Type} {e : Op} {k : e.Reply → Code α} {Q : α → Phase → Prop}
    (he : e ≠ .rt .crash) (hres : ∀ r, e ≠ .res r)
    (hk : ∀ r, (k r).Follows (Phase.discipline s₀) (Phase.next {} e r) Q) :
    (Prog.op e k : Code α).Follows (Phase.discipline s₀) {} Q :=
  ⟨⟨⟨nofun, fun h => absurd h he⟩, nofun, fun r hr => absurd hr (hres r)⟩, fun r _ => hk r⟩

theorem locked_phase {body : Nat → Nat → Code Bool} (hbody : ∀ c h,
    (body c h).Follows (Phase.discipline s₀) .inside fun _ l => l = .inside) :
    (CXEMySql.locked body).Follows (Phase.discipline s₀) {} fun _ l => l = .inside := by
  refine outside_phase nofun nofun fun c => ?_
  cases c with
  | none => exact rfl
  | some c =>
    refine op_phase trivial fun m => ?_
    refine Prog.Follows.bind (P := fun _ l => l = .inside) ?_ ?_
    · cases m with
      | none => exact rfl
      | some h => exact hbody c h
    · rintro _ _ rfl
      exact op_phase trivial fun _ => rfl

theorem queryBlob_phase (cmd : Bytes) (pData : Option DB_BLOB) :
    (CXEMySql.queryBlob cmd pData).Follows (Phase.discipline s₀) {} fun _ l => l = .inside := by
  cases pData with
  | none => exact locked_phase fun c h => queryOn_phase c h cmd []
  | some d => exact locked_phase fun c _ =>
      calm_phase ((queryBlobOn_prepared c cmd d).mono OnPrepared.calm)

theorem selectDB_phase (db : Bytes) :
    (CXEMySql.selectDB db).Follows (Phase.discipline s₀) {} fun _ l => l = .inside := by
  refine outside_phase nofun nofun fun c => ?_
  cases c with
  | none => exact rfl
  | some c =>
    refine op_phase trivial fun m => ?_
    cases m with
    | none => exact op_phase trivial fun _ => rfl
    | some h =>
      refine op_phase trivial fun ok => ?_
      cases ok <;> exact op_phase trivial fun _ => rfl

/-- Code of the thread pool, outside of calls on connections. -/
theorem inPool_phase {α : Type} (p : ThreadPool.Code Nat α) :
    (CXEMySql.inPool p).Follows (Phase.discipline s₀) {} fun _ l => l = {} := by
  induction p with
  | ret a => exact rfl
  | op e k ih => exact outside_phase nofun nofun fun r => ih r

theorem releaseJob_calm (k : Nat) : (CXEMySql.releaseJob k).Only (Calm s₀) :=
  ⟨trivial, fun _ => ⟨trivial, fun _ => trivial⟩⟩

theorem processTask_phase (pTask : Option Nat) :
    (CXEMySqlWorker.processTask pTask).Follows (Phase.discipline s₀) {} fun _ l => l.failed = false := by
  cases pTask with
  | none => exact rfl
  | some k =>
    have hrelease : ∀ (ok : Bool) (l : Phase), l = .inside →
        (CXEMySql.releaseJob k).Follows (Phase.discipline s₀) l fun _ l => l.failed = false := by
      rintro _ _ rfl
      exact (calm_phase (releaseJob_calm k)).mono fun _ l hl => hl ▸ rfl
    refine outside_phase nofun nofun fun d => ?_
    cases d with
    | none =>
      refine outside_phase nofun nofun fun szQuery => ?_
      exact (locked_phase fun c h => queryOn_phase c h szQuery []).bind hrelease
    | some p =>
      refine outside_phase nofun nofun fun szQuery => outside_phase nofun nofun fun d => ?_
      exact (queryBlob_phase szQuery (some d)).bind hrelease

/-- **Every call keeps to the discipline.** -/
theorem code_phase (t : Tid) (c : Call) (hc : okServing s₀ t c) :
    c.code.Follows (Phase.discipline s₀) {} fun _ l => l.failed = false := by
  have hdb : ∀ {p : Code Bool}, (p.Follows (Phase.discipline s₀) {} fun _ l => l = .inside) →
      p.Follows (Phase.discipline s₀) {} fun _ l => l.failed = false :=
    fun h => h.mono fun _ l hl => hl ▸ rfl
  cases c with
  | executeQueryNoRet q =>
    cases q with
    | none => exact hc.elim
    | some q =>
      refine outside_phase nofun nofun fun k => outside_phase nofun nofun fun _ => ?_
      refine Prog.Follows.bind (inPool_phase (ThreadPool.processJob (some k) true)) ?_
      rintro _ _ rfl
      exact rfl
  | selectDB db => exact hdb (selectDB_phase db)
  | query cmd args => exact hdb (locked_phase fun c h => queryOn_phase c h cmd args)
  | queryData cmd data args =>
    refine hdb (locked_phase fun c h => queryDataOn_phase c h cmd args ?_)
    rintro x rfl
    exact hc
  | queryBlob cmd d => exact hdb (queryBlob_phase cmd d)
  | workerProc =>
    refine Prog.Follows.bind (inPool_phase _) ?_
    rintro r _ rfl
    rcases r with _ | ⟨pWorker, pTask⟩
    · exact rfl
    · cases pWorker with
      | false => exact rfl
      | true => exact (processTask_phase pTask).bind fun _ _ hl => hl
  | _ => exact hc.elim

/-! ## Runs -/

theorem okPool_of_serving (t : Tid) (c : Call) (h : okServing s₀ t c) : okPool t c := by
  cases c <;> first | exact h.elim | trivial

theorem okJobs_of_serving (t : Tid) (c : Call) (h : okServing s₀ t c) : okJobs t c := by
  cases c with
  | executeQueryNoRet q =>
    cases q with
    | none => exact h.elim
    | some q => exact h
  | _ => first | exact h.elim | trivial

/-- What a history says of where the threads are. -/
abbrev phaseView (s₀ : State) (h : List Ev) : Tid → Phase := (Phase.discipline s₀).view {} (fun _ _ => {}) h

/-- The result objects of the start are still there. -/
def ObjectsStay (s₀ s : State) : Prop :=
  ∀ x, (s₀.results.obj x).isSome = true → (s.results.obj x).isSome = true

theorem ObjectsStay.exec {rt : Runtime} {s s' : State} {t : Tid} {e : Op} {o : Outcome}
    {r : Option e.Reply} {l : Phase} (h : ObjectsStay s₀ s) (hm : l.may s₀ e)
    (he : exec rt t e o s = some (s', r)) : ObjectsStay s₀ s' := by
  cases e with
  | con e =>
    obtain ⟨x, -, rfl⟩ := exec_con he
    exact h
  | lib e =>
    obtain ⟨rfl, -⟩ := exec_lib he
    exact h
  | rt e =>
    obtain ⟨x, -, rfl⟩ := exec_rt he
    exact h
  | task e =>
    obtain ⟨x, -, rfl⟩ := exec_task he
    exact h
  | tp e =>
    obtain ⟨x, -, rfl⟩ := exec_tp he
    exact h
  | res e =>
    obtain ⟨x, n, p, rfl, -⟩ := hm.2.2 e rfl
    obtain ⟨y, hy, rfl⟩ := exec_res he
    obtain ⟨z, -, hz⟩ := Option.map_eq_some_iff.mp hy
    cases hz
    intro i hi
    show (Function.update s.results.obj x _ i).isSome = true
    by_cases hix : i = x
    · rw [hix, Function.update_self]
      rfl
    · rw [Function.update_of_ne hix]
      exact h i hi

theorem stage_kept (rt : Runtime) (s₀ : State) :
    (machine rt).Kept (okServing s₀) s₀ (Phase.discipline s₀) {} (fun _ _ => {})
      (fun _ _ l => l.failed = false) fun s _ => ObjectsStay s₀ s where
  code := code_phase
  init _ hx := hx
  call _ _ _ _ hI _ _ _ := hI
  wait _ _ _ _ _ _ hI hm he := hI.exec hm he
  reply _ _ _ _ _ _ _ hI hm he := ⟨trivial, hI.exec hm he⟩
  done _ _ _ _ _ hI _ := hI

theorem Phase.next_entered {l : Phase} {e : Op} {r : e.Reply} (h1 : e ≠ .con .getFreeCon) :
    l.entered = true → (l.next e r).entered = true := by
  intro h
  cases e with
  | con e => cases e <;> first | exact absurd rfl h1 | exact h | rfl
  | lib e => cases e <;> exact h
  | _ => exact h

/-- Who has locked a connection has asked for one. -/
theorem entered_of_con (h : List Ev) (t : Tid) (hc : (holdView h t).con ≠ none) :
    (phaseView s₀ h t).entered = true := by
  induction h with
  | nil => exact absurd rfl hc
  | cons ev h ih =>
    cases ev with
    | call u c =>
      by_cases hu : t = u
      · subst hu
        simp [holdView, Discipline.view] at hc
      · simp only [holdView, phaseView, Discipline.view, if_neg hu] at hc ⊢
        exact ih hc
    | done u c a =>
      by_cases hu : t = u
      · subst hu
        simp [holdView, Discipline.view] at hc
      · simp only [holdView, phaseView, Discipline.view, if_neg hu] at hc ⊢
        exact ih hc
    | reply u e r =>
      by_cases hu : t = u
      · subst hu
        simp only [holdView, phaseView, Discipline.view, if_true] at hc ⊢
        by_cases h1 : e = .con .getFreeCon
        · subst h1
          rfl
        · by_cases h2 : ∃ c, e = .con (.unLock c)
          · obtain ⟨c, rfl⟩ := h2
            exact absurd rfl hc
          · have hsame := (Hold.next_con (l := holdView h t) (r := r) h1 fun c he => h2 ⟨c, he⟩).1
            refine Phase.next_entered h1 (ih ?_)
            rwa [← hsame]
      · simp only [holdView, phaseView, Discipline.view, if_neg hu] at hc ⊢
        exact ih hc

/-! ## One request -/

/-- The connections are the same, and only thread `t` has entered locks. -/
structure OnlyEntered (t : Tid) (x x' : Cons) : Prop where
  vector : x'.m_VectorCon = x.m_VectorCon
  locks : ∀ d u n, (x'.con d).cs = .held u n → u = t ∨ (x.con d).cs = .held u n

theorem OnlyEntered.refl (t : Tid) (x : Cons) : OnlyEntered t x x := ⟨rfl, fun _ _ _ h => Or.inr h⟩

theorem OnlyEntered.trans {t : Tid} {x x' x'' : Cons} (h : OnlyEntered t x x')
    (h' : OnlyEntered t x' x'') : OnlyEntered t x x'' := by
  refine ⟨h'.vector.trans h.vector, fun d u n hd => ?_⟩
  rcases h'.locks d u n hd with hu | hd
  · exact Or.inl hu
  · exact h.locks d u n hd

theorem OnlyEntered.withCon {t : Tid} (x : Cons) (c : Nat) {y : CXEMySqlCon}
    (hy : ∀ u n, y.cs = .held u n → u = t ∨ (x.con c).cs = .held u n) :
    OnlyEntered t x (x.withCon c y) := by
  refine ⟨rfl, fun d u n hd => ?_⟩
  by_cases hc : d = c
  · subst hc
    rw [Cons.withCon_self] at hd
    exact hy u n hd
  · rw [Cons.withCon_of_ne hc] at hd
    exact Or.inr hd

theorem onlyEntered_exec {rt : Runtime} {t : Tid} {e : Op} {o : Outcome} {s s' : State}
    {r : Option e.Reply} (h : exec rt t e o s = some (s', r)) : OnlyEntered t s.cons s'.cons := by
  rcases exec_cons h with hsame | ⟨e, q, rfl, hx⟩
  · rw [hsame]
    exact .refl t _
  · cases e with
    | getFreeCon =>
      rcases Cons.getFreeCon_cases hx with ⟨-, hx, -⟩ | ⟨c, l, -, hl, -, hx⟩ | ⟨c, -, -, -, hx⟩
      · rw [hx]
        exact .refl t _
      · rw [hx]
        have hy := OnlyEntered.withCon (t := t) s.cons c (y := { s.cons.con c with cs := l })
          fun u n hu => by
            have howner := Lock.owner_of_tryEnter hl
            rw [show l = _ from hu] at howner
            exact Or.inl (Option.some.inj howner)
        exact ⟨hy.vector, hy.locks⟩
      · rw [hx]
        exact ⟨rfl, fun _ _ _ h => Or.inr h⟩
    | unLock c =>
      obtain ⟨l, hl, hx⟩ := Option.map_eq_some_iff.mp hx
      rw [← (Prod.mk.inj hx).1]
      refine .withCon _ c fun u n hu => ?_
      rcases Lock.owner_of_leave hl with ho | ho
      · rw [show l = _ from hu] at ho
        cases ho
      · rw [show l = _ from hu] at ho
        exact Or.inl (Option.some.inj ho)
    | setMySql c m =>
      rw [← (Prod.mk.inj (Option.some.inj hx)).1]
      exact .withCon _ c fun u n hu => Or.inr hu
    | setParams c p =>
      rw [← (Prod.mk.inj (Option.some.inj hx)).1]
      exact .withCon _ c fun u n hu => Or.inr hu
    | _ =>
      rw [← (Prod.mk.inj (Option.some.inj hx)).1]
      exact .refl t _

section

variable (rt : Runtime) {t : Tid} {s : State} {v : Tid → Hold} {w : Tid → Job} {p₀ : Nat}
  {sub : List (Nat × Bytes)}

/-- **Nothing but these four requests keeps a thread waiting**: everything else a call may ask is
answered, and calls of the library can be answered so that they succeed. -/
theorem answered {e : Op} (hI : Inv s.cons s.lib v) (hJ : JobInv p₀ s.tp s.jobs w sub)
    (hm : (v t).may e) (hq : (w t).may p₀ e) (hwait : ¬ MayWait e) (hcrash : e ≠ .rt .crash)
    (hres : ∀ r, e = .res r → ∃ x n p, r = .setRes x n p ∧ (s.results.obj x).isSome = true) :
    ∃ o s' r, exec rt t e o s = some (s', some r) ∧
      ∀ l : Phase, l.failed = false → (l.next e r).failed = false := by
  cases e with
  | res e =>
    obtain ⟨x, n, p, rfl, hx⟩ := hres e rfl
    obtain ⟨y, hy⟩ := Option.isSome_iff_exists.mp hx
    have hstep : ∃ s', exec rt t (.res (.setRes x n p)) .success s = some (s', some ()) := by
      simp only [exec, Results.exec, hy, Option.map_some]
      exact ⟨_, rfl⟩
    obtain ⟨s', hs'⟩ := hstep
    exact ⟨.success, s', (), hs', fun l hl => hl⟩
  | lib e =>
    refine ⟨.success, _, _, rfl, fun l hl => ?_⟩
    cases e <;> first | exact hl | rfl
  | con e =>
    cases e with
    | getFreeCon => exact absurd trivial hwait
    | unLock c =>
      refine ⟨.success, { s with cons := s.cons.withCon c { s.cons.con c with cs := .free } }, (),
        ?_, fun l hl => hl⟩
      simp only [exec, Cons.exec, (hI.lock t c).mp hm.1, Lock.leave_held_zero, Option.map_some]
    | _ => exact ⟨.success, _, _, rfl, fun l hl => hl⟩
  | rt e =>
    cases e with
    | crash => exact absurd rfl hcrash
    | vsnprintf n fmt args =>
      cases hf : Printf.format rt.conv fmt args with
      | none =>
        refine ⟨.success, s, [], ?_, fun l hl => hl⟩
        simp only [exec, RtOp.exec, hf, Option.map_some, Outcome.success]
      | some text =>
        refine ⟨.success, s, text.take (rt.keeps n), ?_, fun l hl => hl⟩
        simp only [exec, RtOp.exec, hf, Option.map_some]
    | _ => exact ⟨.success, _, _, rfl, fun l hl => hl⟩
  | task e =>
    cases e with
    | deref p => exact hq.elim
    | alloc =>
      obtain ⟨loc, hloc⟩ := hJ.located
      have hpool : s.jobs.pool.alloc.isSome = true :=
        CPool.WellFormed.alloc_isSome
          ⟨hloc.pool_nodup, fun k hk => ((hloc.pool k).mp hk).1, hJ.step_pos⟩
      obtain ⟨⟨k, pool⟩, hk⟩ := Option.isSome_iff_exists.mp hpool
      have hstep : ∃ s', exec rt t (.task .alloc) .success s = some (s', some k) := by
        simp only [exec, Jobs.exec, Jobs.alloc, hk, Option.map_some]
        exact ⟨_, rfl⟩
      obtain ⟨s', hs'⟩ := hstep
      exact ⟨.success, s', k, hs', fun l hl => hl⟩
    | _ => exact ⟨.success, _, _, rfl, fun l hl => hl⟩
  | tp e =>
    cases e with
    | getPort => exact ⟨.success, _, _, rfl, fun l hl => hl⟩
    | currentThreadId => cases t <;> exact ⟨.success, _, _, rfl, fun l hl => hl⟩
    | post p pkt =>
      obtain ⟨rfl, -⟩ := hq
      have hstep : ∃ s' r, exec rt t (.tp (.post p pkt)) .success s = some (s', some r) := by
        simp only [exec, ThreadPool.exec, hJ.opened, if_true, Option.map_some]
        exact ⟨_, _, rfl⟩
      obtain ⟨s', r, hs'⟩ := hstep
      exact ⟨.success, s', r, hs', fun l hl => hl⟩
    | getQueued p => exact absurd trivial hwait
    | _ => exact hq.elim

/-- `GetFreeCon` finds a connection at once when all are free. -/
theorem getFreeCon_found (t : Tid) (hfree : ∀ d ∈ s.cons.m_VectorCon, (s.cons.con d).cs = .free) :
    ∃ s' r, exec rt t (.con .getFreeCon) .success s = some (s', some r) := by
  by_cases hnil : s.cons.m_VectorCon.length = 0
  · exact ⟨s, none, by simp only [exec, Cons.exec, hnil, if_true, Option.map_some]⟩
  · have hlt : s.cons.i t % s.cons.m_VectorCon.length < s.cons.m_VectorCon.length :=
      Nat.mod_lt _ (Nat.pos_of_ne_zero hnil)
    have hc := List.getElem?_eq_getElem hlt
    have hcs := hfree _ (List.getElem_mem hlt)
    simp only [exec, Cons.exec, hnil, if_false, Cons.probe, hc, hcs, Lock.tryEnter_free,
      Option.map_some]
    exact ⟨_, _, rfl⟩

end

/-! ## The queue -/

/-- Whether a thread waits for a job, as a number. -/
def Job.waits : Job → Nat
  | waiting => 1
  | _ => 0

theorem Job.waits_eq_one {l : Job} (h : l = waiting) : l.waits = 1 := by
  rw [h]
  rfl

theorem Job.waits_eq_zero {l : Job} (h : l ≠ waiting) : l.waits = 0 := by
  cases l <;> first | rfl | exact absurd rfl h

/-- **The queue gets shorter by one when a thread stops waiting for a job**, and stays as it is
unless a job is submitted. -/
theorem queue_step {rt : Runtime} {p₀ : Nat} {s s' : State} {t : Tid} {e : Op} {o : Outcome}
    {r : e.Reply} {l : Job} (hopen : (s.tp.port p₀).opened = true) (hm : l.may p₀ e)
    (hc : l.can p₀ e r) (hl : ∀ q k, l ≠ .filled q k) (he : exec rt t e o s = some (s', some r)) :
    (s'.tp.port p₀).queue.length + l.waits = (s.tp.port p₀).queue.length + (l.next e r).waits := by
  cases e with
  | con e =>
    obtain ⟨x, -, rfl⟩ := exec_con he
    rfl
  | lib e =>
    obtain ⟨rfl, -⟩ := exec_lib he
    rfl
  | res e =>
    obtain ⟨x, -, rfl⟩ := exec_res he
    rfl
  | rt e =>
    obtain ⟨x, -, rfl⟩ := exec_rt he
    rfl
  | task e =>
    obtain ⟨x, -, rfl⟩ := exec_task he
    cases e with
    | alloc =>
      obtain ⟨q, rfl⟩ := hm
      rfl
    | strncpy k src n =>
      obtain ⟨rfl, -⟩ := hm
      rfl
    | getQuery k =>
      obtain ⟨n, rfl⟩ := hm
      rfl
    | init k =>
      obtain ⟨n, rfl⟩ := hm
      rfl
    | free k =>
      obtain ⟨n, rfl⟩ := hm
      rfl
    | _ => rfl
  | tp e =>
    obtain ⟨x, hx, rfl⟩ := exec_tp he
    cases e with
    | getPort =>
      cases hx
      rfl
    | currentThreadId => cases t <;> cases hx <;> rfl
    | post p pkt =>
      obtain ⟨-, q, k, hf, -⟩ := hm
      exact absurd hf (hl q k)
    | getQueued p =>
      obtain ⟨rfl, rfl⟩ := hm
      obtain ⟨n, k, rfl⟩ := hc
      simp only [ThreadPool.exec, hopen, if_true] at hx
      split at hx
      · cases hx
      · next n pkt rest hq =>
        cases hx
        show ((s.tp.withPort p _).port p).queue.length + 1 = _
        rw [ThreadPool.port_withPort, Port.pop_eq hq, hq]
        rfl
    | _ => exact hm.elim

/-! ## Whole calls -/

/-- No thread has come to a crash. -/
def Alive (s : Sys) : Prop := ∀ t c, (s.thread t).asking ≠ some (c, .rt .crash)

section

variable {rt : Runtime} {s₀ : State} {s : Sys} {t : Tid}

/-- A state of a run that has not crashed. -/
structure Running (rt : Runtime) (s₀ : State) (s : Sys) : Prop where
  reach : (machine rt).Reach (okServing s₀) s₀ s
  alive : ∀ t, (phaseView s₀ s.hist t).failed = false

theorem Running.of_alive (h : (machine rt).Reach (okServing s₀) s₀ s) (halive : Alive s) :
    Running rt s₀ s := by
  refine ⟨h, fun t => ?_⟩
  have hphase := ((stage_kept rt s₀).holds h).2 t
  cases ht : s.thread t with
  | idle =>
    rw [ht] at hphase
    rw [show phaseView s₀ s.hist t = {} from hphase]
  | stopped =>
    rw [ht] at hphase
    rw [show phaseView s₀ s.hist t = {} from hphase]
  | running c p =>
    cases p with
    | ret a => exact (stage_kept rt s₀).atReturn h ht
    | op e k =>
      have hmay := (stage_kept rt s₀).may h ht
      by_contra hfailed
      obtain rfl : e = .rt .crash := hmay.1.mp (by simpa using hfailed)
      exact halive t c (by rw [ht]; rfl)

variable (hpool : PoolOk s₀) (hjobs : JobsReady s₀)

include hpool in
/-- A connection is free, or locked once by a thread that has asked for it. -/
theorem Running.lock (h : Running rt s₀ s) (d : Nat) :
    (s.shared.cons.con d).cs = .free ∨ ∃ u c p, (s.shared.cons.con d).cs = .held u 0 ∧
      s.thread u = .running c p ∧ (phaseView s₀ s.hist u).entered = true := by
  have hreach := h.reach.mono okPool_of_serving
  have hI := ((hold_kept rt hpool).holds hreach).1
  rcases hI.entered d with hfree | ⟨u, hu⟩
  · exact Or.inl hfree
  · have hcon := (hI.lock u d).mpr hu
    refine Or.inr ⟨u, ?_⟩
    cases ht : s.thread u with
    | running c p => exact ⟨c, p, hu, rfl, entered_of_con s.hist u (by rw [hcon]; nofun)⟩
    | _ =>
      have hidle := (hold_kept rt hpool).view_idle hreach (t := u) (by simp [ht])
      rw [holdView, hidle] at hcon
      cases hcon

include hpool in
/-- Who is outside of calls has locked nothing. -/
theorem Running.not_locked (h : Running rt s₀ s) (ht : ∀ c p, s.thread t ≠ .running c p)
    (d n : Nat) : (s.shared.cons.con d).cs ≠ .held t n := by
  intro hd
  rcases h.lock hpool d with hfree | ⟨u, c, p, hu, hrun, -⟩
  · rw [hfree] at hd
    cases hd
  · rw [hu] at hd
    cases hd
    exact ht c p hrun

/-- A thread in a call moves, and its last `mysql_init` has not failed. -/
theorem Running.act {s' : Sys} {o : Outcome} (h : Running rt s₀ s)
    (hs : (machine rt).Steps s (.act t o) s') (ht : (phaseView s₀ s'.hist t).failed = false) :
    Running rt s₀ s' := by
  refine ⟨h.reach.step (l := .act t o) nofun hs.step, fun u => ?_⟩
  by_cases hu : u = t
  · rw [hu]
    exact ht
  · cases hs with
    | wait _ _ => exact h.alive u
    | reply _ _ =>
      rw [phaseView, Discipline.view_reply, Function.update_of_ne hu]
      exact h.alive u
    | done _ =>
      rw [phaseView, Discipline.view_done, Function.update_of_ne hu]
      exact h.alive u

/-- A thread can go on on its own: it has asked for a connection, or all connections are free, and
the queue is not empty where it waits for a job. -/
def CanGoOn (s₀ : State) (s : Sys) (t : Tid) : Prop :=
  (phaseView s₀ s.hist t).entered = true ∨
    (jobView s₀.tp.m_hWorkerIoPort s.hist t = .waiting →
      (s.shared.tp.port s₀.tp.m_hWorkerIoPort).queue ≠ []) ∧
      ∀ d ∈ s.shared.cons.m_VectorCon, (s.shared.cons.con d).cs = .free

include hpool hjobs in
/-- The next request of such a thread is answered. -/
theorem Running.answer (h : Running rt s₀ s) {c : Call} {e : Op} {k : e.Reply → Code Bool}
    (ht : s.thread t = .running c (.op e k)) (hgo : CanGoOn s₀ s t) :
    ∃ o sh r, exec rt t e o s.shared = some (sh, some r) ∧
      ((phaseView s₀ s.hist t).next e r).failed = false := by
  have hJobs := h.reach.mono okJobs_of_serving
  have hPool := h.reach.mono okPool_of_serving
  have hJ := ((delivery_kept rt hjobs).holds hJobs).1
  have hphase := (stage_kept rt s₀).may h.reach ht
  have hjob := (delivery_kept rt hjobs).may hJobs ht
  by_cases hwait : MayWait e
  · rcases hgo with hentered | ⟨hqueue, hfree⟩
    · exact absurd hwait (hphase.2.1 hentered)
    · cases e with
      | con e =>
        cases e with
        | getFreeCon =>
          obtain ⟨sh, r, hr⟩ := getFreeCon_found rt t hfree
          exact ⟨.success, sh, r, hr, h.alive t⟩
        | _ => exact hwait.elim
      | tp e =>
        cases e with
        | getQueued p =>
          obtain ⟨rfl, hl⟩ := hjob
          obtain ⟨⟨n, pkt⟩, rest, hq⟩ := List.exists_cons_of_ne_nil (hqueue hl)
          have hstep : ∃ sh, exec rt t (.tp (.getQueued s₀.tp.m_hWorkerIoPort)) .success s.shared =
              some (sh, some (.packet n pkt)) := by
            simp only [exec, ThreadPool.exec, hJ.1.opened, if_true, hq, Option.map_some]
            exact ⟨_, rfl⟩
          obtain ⟨sh, hr⟩ := hstep
          exact ⟨.success, sh, _, hr, h.alive t⟩
        | lock => exact hjob.elim
        | waitForMultipleObjects hs => exact hjob.elim
        | _ => exact hwait.elim
      | _ => exact hwait.elim
  · have hI := ((hold_kept rt hpool).holds hPool).1
    have hcrash : e ≠ .rt .crash := by
      intro he
      have hfailed := hphase.1.mpr he
      rw [h.alive t] at hfailed
      cases hfailed
    have hobjs := ((stage_kept rt s₀).holds h.reach).1
    have hres : ∀ r, e = .res r → ∃ x n p, r = .setRes x n p ∧
        (s.shared.results.obj x).isSome = true := by
      intro r hr
      obtain ⟨x, n, p, hx, hobj⟩ := hphase.2.2 r hr
      exact ⟨x, n, p, hx, hobjs x hobj⟩
    obtain ⟨o, sh, r, hr, hl⟩ := answered rt hI hJ.1 ((hold_kept rt hpool).may hPool ht) hjob hwait
      hcrash hres
    exact ⟨o, sh, r, hr, hl _ (h.alive t)⟩

include hjobs in
/-- A thread that is about to wait for a job still finds one. -/
theorem Running.queue_kept (h : Running rt s₀ s) {c : Call} {e : Op} {k : e.Reply → Code Bool}
    {o : Outcome} {sh : State} {r : e.Reply} (ht : s.thread t = .running c (.op e k))
    (he : exec rt t e o s.shared = some (sh, some r))
    (hqueue : jobView s₀.tp.m_hWorkerIoPort s.hist t = .waiting →
      (s.shared.tp.port s₀.tp.m_hWorkerIoPort).queue ≠ []) :
    jobView s₀.tp.m_hWorkerIoPort (.reply t e r :: s.hist) t = .waiting →
      (sh.tp.port s₀.tp.m_hWorkerIoPort).queue ≠ [] := by
  intro hwaiting
  have hJobs := h.reach.mono okJobs_of_serving
  obtain ⟨hI, hin⟩ := ((delivery_kept rt hjobs).holds hJobs).1
  have hm : (jobView s₀.tp.m_hWorkerIoPort s.hist t).may s₀.tp.m_hWorkerIoPort e :=
    (delivery_kept rt hjobs).may hJobs ht
  have hc := (job_reply hI hin hm he).1
  have hnext : (jobView s₀.tp.m_hWorkerIoPort s.hist t).next e r = .waiting := by
    rwa [jobView, Discipline.view_reply, Function.update_self] at hwaiting
  have hfilled : ∀ q k, jobView s₀.tp.m_hWorkerIoPort s.hist t ≠ .filled q k := by
    intro q k hl
    have hcall := Job.next_call hm hc
    rw [hnext, hl] at hcall
    cases hcall
  have hstep := queue_step hI.opened hm hc hfilled he
  intro hnil
  rw [hnext, hnil] at hstep
  by_cases hl : jobView s₀.tp.m_hWorkerIoPort s.hist t = .waiting
  · have hlen := List.length_pos_iff.mpr (hqueue hl)
    rw [Job.waits_eq_one hl] at hstep
    simp only [Job.waits, List.length_nil] at hstep
    omega
  · rw [Job.waits_eq_zero hl] at hstep
    simp only [Job.waits, List.length_nil] at hstep
    omega

include hpool hjobs in
/-- **It goes on to the end of its call**, and nobody else has to move. -/
theorem Running.lead_end (h : Running rt s₀ s) {c : Call} {p : Code Bool}
    (ht : s.thread t = .running c p) (hgo : CanGoOn s₀ s t) :
    ∃ s', (machine rt).Alone t s s' ∧ Running rt s₀ s' ∧
      OnlyEntered t s.shared.cons s'.shared.cons ∧ ∀ c p, s'.thread t ≠ .running c p := by
  induction p generalizing s with
  | ret a =>
    have hs := Machine.Steps.done (M := machine rt) (o := .success) ht
    refine ⟨_, .act hs.step (.refl t _), h.act hs ?_, .refl t _, fun c' p' => ?_⟩
    · rw [phaseView, Discipline.view_done, Function.update_self]
    · show Function.update s.thread t _ t ≠ _
      rw [Function.update_self]
      split <;> nofun
  | op e k ih =>
    obtain ⟨o, sh, r, hr, hfailed⟩ := h.answer hpool hjobs ht hgo
    have hs := Machine.Steps.reply (M := machine rt) ht hr
    have hview : phaseView s₀ (.reply t e r :: s.hist) t = (phaseView s₀ s.hist t).next e r := by
      rw [phaseView, Discipline.view_reply, Function.update_self]
      rfl
    have h₁ := h.act hs (by rw [hview]; exact hfailed)
    have honly := onlyEntered_exec hr
    have hgo₁ : CanGoOn s₀ ⟨sh, Function.update s.thread t (.running c (k r)),
        .reply t e r :: s.hist⟩ t := by
      rcases hgo with hentered | ⟨hqueue, hfree⟩
      · by_cases hfind : e = .con .getFreeCon
        · subst hfind
          exact Or.inl (by rw [hview]; rfl)
        · exact Or.inl (by rw [hview]; exact Phase.next_entered hfind hentered)
      · refine or_iff_not_imp_left.mpr fun hout =>
          ⟨h.queue_kept hjobs ht hr hqueue, fun d hd => ?_⟩
        -- who locks a connection has asked for it
        rcases h₁.lock hpool d with hfree' | ⟨u, -, -, hu, -, hentered⟩
        · exact hfree'
        · rcases honly.locks d u 0 hu with rfl | hheld
          · exact absurd hentered hout
          · rw [hfree d (honly.vector ▸ hd)] at hheld
            cases hheld
    obtain ⟨s', hlead, hrun, honly', hend⟩ := ih r h₁ (Function.update_self ..) hgo₁
    exact ⟨s', .act hs.step hlead, hrun, honly.trans honly', hend⟩

/-- What is free when a thread has come to its end. -/
theorem Running.free_of_end {s' : Sys} (h' : Running rt s₀ s')
    (honly : OnlyEntered t s.shared.cons s'.shared.cons) (hpool : PoolOk s₀)
    (hend : ∀ c p, s'.thread t ≠ .running c p) {d : Nat}
    (hd : ∀ u n, (s.shared.cons.con d).cs = .held u n → u = t) :
    (s'.shared.cons.con d).cs = .free := by
  rcases h'.lock hpool d with hfree | ⟨u, c, p, hu, -, -⟩
  · exact hfree
  · rcases honly.locks d u 0 hu with rfl | hheld
    · exact absurd hu (h'.not_locked hpool hend d 0)
    · obtain rfl := hd u 0 hheld
      exact absurd hu (h'.not_locked hpool hend d 0)

include hpool hjobs in
/-- The threads that have locked connections go on to the ends of their calls. -/
theorem Running.lead_free (h : Running rt s₀ s) (ds : List Nat) :
    ∃ s', (machine rt).Leads s s' ∧ Running rt s₀ s' ∧
      s'.shared.cons.m_VectorCon = s.shared.cons.m_VectorCon ∧
      ∀ d ∈ ds, (s'.shared.cons.con d).cs = .free := by
  induction ds with
  | nil => exact ⟨s, .refl s, h, rfl, by simp⟩
  | cons d ds ih =>
    obtain ⟨s₁, hlead, h₁, hvector, hfree⟩ := ih
    rcases h₁.lock hpool d with hd | ⟨t, c, p, hd, ht, hentered⟩
    · exact ⟨s₁, hlead, h₁, hvector, List.forall_mem_cons.mpr ⟨hd, hfree⟩⟩
    · obtain ⟨s₂, hlead₂, h₂, honly, hend⟩ := h₁.lead_end hpool hjobs ht (Or.inl hentered)
      refine ⟨s₂, hlead.trans hlead₂.leads, h₂, honly.vector.trans hvector,
        List.forall_mem_cons.mpr ⟨?_, fun d' hd' => ?_⟩⟩
      · refine h₂.free_of_end honly hpool hend fun u n hu => ?_
        rw [hd] at hu
        cases hu
        rfl
      · refine h₂.free_of_end honly hpool hend fun u n hu => ?_
        rw [hfree d' hd'] at hu
        cases hu

end

/-- In `s'` the connections that the pool had in `s` are free. -/
structure AllFree (rt : Runtime) (s₀ : State) (s s' : Sys) : Prop where
  running : Running rt s₀ s'
  vector : s'.shared.cons.m_VectorCon = s.shared.cons.m_VectorCon
  free : ∀ d ∈ s.shared.cons.m_VectorCon, (s'.shared.cons.con d).cs = .free

/-- With the connections free, a thread goes on that does not wait for a job in vain. -/
theorem AllFree.go {rt : Runtime} {s₀ : State} {s₁ s : Sys} {t : Tid} {c : Call} {p : Code Bool}
    (h : AllFree rt s₀ s₁ s) (hpool : PoolOk s₀) (hjobs : JobsReady s₀)
    (ht : s.thread t = .running c p)
    (hqueue : jobView s₀.tp.m_hWorkerIoPort s.hist t = .waiting →
      (s.shared.tp.port s₀.tp.m_hWorkerIoPort).queue ≠ []) :
    ∃ s', (machine rt).Alone t s s' ∧ AllFree rt s₀ s₁ s' ∧ ∀ c p, s'.thread t ≠ .running c p := by
  obtain ⟨s', hlead, h', honly, hend⟩ :=
    h.running.lead_end hpool hjobs ht (Or.inr ⟨hqueue, h.vector ▸ h.free⟩)
  refine ⟨s', hlead, ⟨h', honly.vector.trans h.vector, fun d hd => ?_⟩, hend⟩
  refine h'.free_of_end honly hpool hend fun u n hu => ?_
  rw [h.free d hd] at hu
  cases hu

/-- First the threads go on that have locked connections, then each client in turn. -/
theorem Running.clients_end {rt : Runtime} {s₀ : State} (hpool : PoolOk s₀) (hjobs : JobsReady s₀)
    {s : Sys} (h : Running rt s₀ s) (clients : List Nat) :
    ∃ s', (machine rt).Leads s s' ∧ AllFree rt s₀ s s' ∧
      ∀ i ∈ clients, ∀ c p, s'.thread (.client i) ≠ .running c p := by
  have hstep : ∀ s' t, t ∈ clients.map Tid.client → AllFree rt s₀ s s' →
      ∃ s'', (machine rt).Leads s' s'' ∧ AllFree rt s₀ s s'' ∧
        ∀ c p, s''.thread t ≠ .running c p := by
    intro s' t ht hP
    obtain ⟨i, -, rfl⟩ := List.mem_map.mp ht
    by_cases hrun : ∃ c p, s'.thread (.client i) = .running c p
    · obtain ⟨c, p, hcp⟩ := hrun
      -- only workers wait for jobs
      have hwaiting : jobView s₀.tp.m_hWorkerIoPort s'.hist (.client i) ≠ .waiting := by
        intro hl
        obtain ⟨-, sh, hen⟩ := hP.running.reach.began hcp
        have hin := ((delivery_kept rt hjobs).holds (hP.running.reach.mono okJobs_of_serving)).1.2
        have hcall := hin (.client i) .workerProc (by rw [hl]; rfl)
        rw [hP.running.reach.present hcp] at hcall
        cases hcall
        cases hen
      obtain ⟨s'', hlead, h'', hend⟩ := hP.go hpool hjobs hcp fun hl => absurd hl hwaiting
      exact ⟨s'', hlead.leads, h'', hend⟩
    · exact ⟨s', .refl s', hP, fun c p hcp => hrun ⟨c, p, hcp⟩⟩
  obtain ⟨s₁, hlead₁, h₁, hvector₁, hfree₁⟩ := h.lead_free hpool hjobs s.shared.cons.m_VectorCon
  obtain ⟨s₂, hlead₂, h₂, hend⟩ := Machine.Leads.all hstep ⟨h₁, hvector₁, hfree₁⟩
  exact ⟨s₂, hlead₁.trans hlead₂, h₂, fun i hi => hend _ (List.mem_map_of_mem hi)⟩

/--
**The connections of the pool are never in a deadlock.** However the threads of a program at work
have been interleaved, and as long as none has crashed: the calls of any number of clients can still
come to their ends, one after the other, and all connections are free then.
-/
theorem calls_end {rt : Runtime} {s₀ : State} (hpool : PoolOk s₀) (hjobs : JobsReady s₀) {s : Sys}
    (h : (machine rt).Reach (okServing s₀) s₀ s) (halive : Alive s) (clients : List Nat) :
    ∃ s', (machine rt).Leads s s' ∧ (∀ i ∈ clients, ∀ c p, s'.thread (.client i) ≠ .running c p) ∧
      ∀ d ∈ s.shared.cons.m_VectorCon, (s'.shared.cons.con d).cs = .free := by
  obtain ⟨s', hlead, h', hend⟩ := (Running.of_alive h halive).clients_end hpool hjobs clients
  exact ⟨s', hlead, hend, h'.free⟩

/-- Client 0 has locked the only connection, and client 1 has tried it twice. -/
theorem calls_end_waiting : ∃ s, (machine .standard).Reach (okServing (.small 1 0)) (.small 1 0) s ∧
    (s.thread (.client 0)).asking = some (.query [113] [], .con (.getMySql 0)) ∧
    (s.thread (.client 1)).asking = some (.selectDB [100], .con .getFreeCon) ∧
    ∃ s', (machine .standard).Leads s s' ∧
      (∀ i ∈ [0, 1], ∀ c p, s'.thread (.client i) ≠ .running c p) ∧
      ∀ d ∈ s.shared.cons.m_VectorCon, (s'.shared.cons.con d).cs = .free := by
  have hrun : ((machine .standard).run
      [.call (.client 0) (.query [113] []), .act (.client 0) {},
        .call (.client 1) (.selectDB [100]), .act (.client 1) {}, .act (.client 1) {}]
      (.init (.small 1 0))).map
      (fun s => ((s.thread (.client 0)).asking, (s.thread (.client 1)).asking)) =
      some (some (.query [113] [], .con (.getMySql 0)),
        some (.selectDB [100], .con .getFreeCon)) := by
    decide
  obtain ⟨s, hs, hl⟩ := Option.map_eq_some_iff.mp hrun
  obtain ⟨h0, h1⟩ := Prod.mk.inj hl
  have hr : (machine .standard).Reach
      (fun t c => (t = .client 0 ∨ t = .client 1) ∧ okServing (.small 1 0) t c) (.small 1 0) s :=
    Machine.Reach.init.run (by simp [Machine.Allowed, okServing]) hs
  have hserving := hr.mono fun t c h => h.2
  have halive : Alive s := by
    intro t c hc
    obtain ⟨k, hk⟩ := Thread.asking_eq_some hc
    rcases (hr.began hk).1.1 with rfl | rfl
    · rw [h0] at hc
      cases hc
    · rw [h1] at hc
      cases hc
  exact ⟨s, hserving, h0, h1,
    calls_end (poolOk_started _ _ _ _ _) (jobsReady_started _ _ _ _ _) hserving halive [0, 1]⟩

end XeMySql
