import XeMySql.Requests
import XeMySql.Lib.Trace

/-!
# What the answers of a call say about each other

The traces of calls, and two facts about the answers in them: what `vsnprintf` returns is the
formatted text, and the parameters of a statement can only be bound after the same call has
prepared it. The second one holds because a call works on no statement but its own.

* `code_recorded` — every call works on its own statements only
* `record_kept` — what the recorded answers can be relied on for
-/

namespace XeMySql

open Interact

/-- The answers a call has had. -/
abbrev Trace := List (Answer Op Op.Reply)

/-- The call has got statement `st` from the library. -/
def Owned (st : Nat) (l : Trace) : Prop := ∃ h, ⟨.lib (.stmtInit h), some st⟩ ∈ l

theorem Owned.mono {st : Nat} {l l' : Trace} (h : Owned st l) (hl : l ⊆ l') : Owned st l' :=
  let ⟨m, hm⟩ := h
  ⟨m, hl hm⟩

theorem not_owned_nil (st : Nat) : ¬ Owned st [] := by
  rintro ⟨m, hm⟩
  cases hm

/-- The server has accepted `q` as the text of statement `st`. -/
def Prepared (st : Nat) (q : Bytes) (l : Trace) : Prop := ⟨.lib (.stmtPrepare st q), true⟩ ∈ l

/-- The server has executed statement `st`. -/
def Executed (st : Nat) (l : Trace) : Prop := ⟨.lib (.stmtExecute st), true⟩ ∈ l

namespace Record

/-- A call works on its own statements. -/
def may (l : Trace) : Op → Prop
  | .lib (.stmtPrepare st _) => Owned st l
  | .lib (.stmtParamCount st) => Owned st l
  | .lib (.stmtBindParam st _) => Owned st l
  | .lib (.stmtExecute st) => Owned st l
  | .lib (.stmtClose st) => Owned st l
  | _ => True

/-- What it may rely on. -/
def can (rt : Runtime) (l : Trace) : (e : Op) → e.Reply → Prop
  | .rt (.vsnprintf n fmt args), r =>
    ∀ text, Printf.format rt.conv fmt args = some text → r = text.take (rt.keeps n)
  | .lib (.stmtBindParam st _), r => r = true → ∃ q, Prepared st q l
  | _, _ => True

/-- The discipline. -/
abbrev discipline (rt : Runtime) : Discipline Op Op.Reply Trace := .recording may (can rt)

/-- The request is not on a statement. -/
def NoStmt : Op → Prop
  | .lib e => e.onStmt = false
  | _ => True

theorem may_of_noStmt (l : Trace) (e : Op) (he : NoStmt e) : may l e := by
  cases e with
  | lib e => cases e <;> trivial
  | _ => trivial

theorem noStmt_of_onText (e : Op) (he : OnText e) : NoStmt e := by
  cases e with
  | lib e => cases e <;> first | exact he | exact he.elim
  | _ => trivial

/-- The texts of all statements are `cmd`. -/
def Texts (cmd : Bytes) (l : Trace) : Prop :=
  ∀ st q r, ⟨.lib (.stmtPrepare st q), r⟩ ∈ l → q = cmd

theorem Texts.cons {cmd : Bytes} {l : Trace} {e : Op} {r : e.Reply} (h : Texts cmd l)
    (he : ∀ st q, e = .lib (.stmtPrepare st q) → q = cmd) : Texts cmd (⟨e, r⟩ :: l) := by
  intro st q r' hm
  rcases List.mem_cons.mp hm with heq | hm
  · cases heq
    exact he st q rfl
  · exact h st q r' hm

end Record

open Record

variable {rt : Runtime} {l : Trace} {cmd : Bytes}

/-- Code that makes no request on a statement. -/
theorem noStmt_recorded {α : Type} {p : Code α} (hp : p.Only NoStmt) (l : Trace) :
    p.Follows (discipline rt) l fun _ l' => l ⊆ l' ∧ ∀ cmd, Texts cmd l → Texts cmd l' := by
  refine (hp.follows_recording (l := l) may_of_noStmt).grows.mono fun _ l' h => ⟨h.2.subset, ?_⟩
  intro cmd ht st q r hm
  rcases h.1 _ hm with hl | hn
  · exact ht st q r hl
  · cases hn

/-! ## Statements -/

theorem logError_recorded (m : Nat) (ht : Texts cmd l) :
    (CXEMySqlStmt.logError m).Follows (discipline rt) l fun _ l' => l ⊆ l' ∧ Texts cmd l' :=
  (noStmt_recorded (p := CXEMySqlStmt.logError m)
    ⟨rfl, fun _ => ⟨rfl, fun _ => ⟨trivial, fun _ => trivial⟩⟩⟩ l).mono
    fun _ _ h => ⟨h.1, h.2 cmd ht⟩

/-- The statement object names a statement of this call. -/
def StmtOk (s : CXEMySqlStmt) (l : Trace) : Prop := ∀ st, s.m_pStmt = some st → Owned st l

theorem StmtOk.mono {s : CXEMySqlStmt} {l' : Trace} (h : StmtOk s l) (hl : l ⊆ l') : StmtOk s l' :=
  fun st hst => (h st hst).mono hl

theorem setSQL_recorded (c : Nat) (ht : Texts cmd l) :
    (CXEMySqlStmt.setSQL { m_pCon := c } cmd).Follows (discipline rt) l
      fun s l' => StmtOk s l' ∧ Texts cmd l' := by
  refine ⟨trivial, fun m _ => ?_⟩
  have ht := ht.cons (e := .con (.getMySql c)) (r := m) (by simp)
  cases m with
  | none => exact ⟨by simp [StmtOk], ht⟩
  | some m =>
    refine ⟨trivial, fun st _ => ?_⟩
    have ht := ht.cons (e := .lib (.stmtInit m)) (r := st) (by simp)
    cases st with
    | none =>
      simp only [Prog.bind_ret]
      exact (logError_recorded m ht).bind fun _ _ h => ⟨by simp [StmtOk], h.2⟩
    | some st =>
      have ho : ∀ l', (⟨.lib (.stmtInit m), some st⟩ : Answer Op Op.Reply) ∈ l' → ∀ n ps,
          StmtOk ⟨c, some st, n, ps⟩ l' := by
        rintro l' hm n ps _ ⟨⟩
        exact ⟨m, hm⟩
      refine ⟨⟨m, by simp⟩, fun ok _ => ?_⟩
      have ht := ht.cons (e := .lib (.stmtPrepare st cmd)) (r := ok) (by simp)
      cases ok with
      | true =>
        refine ⟨⟨m, by simp⟩, fun n _ => ?_⟩
        have ht := ht.cons (e := .lib (.stmtParamCount st)) (r := n) (by simp)
        by_cases hn : 0 < n
        · simp only [Prog.bind_ret, hn, if_true]
          exact ⟨trivial, fun a _ => ⟨ho _ (by simp) _ _, ht.cons (by simp)⟩⟩
        · simp only [Prog.bind_ret, hn, if_false]
          exact ⟨ho _ (by simp) _ _, ht⟩
      | false =>
        refine ⟨trivial, fun _ _ => ⟨trivial, fun _ _ => ⟨trivial, fun _ _ => ?_⟩⟩⟩
        exact ⟨ho _ (by simp) _ _, ((ht.cons (by simp)).cons (by simp)).cons (by simp)⟩

theorem setParams_recorded (ps : DB_BLOB) {s : CXEMySqlStmt} (hs : StmtOk s l) (ht : Texts cmd l)
    (i : Nat) :
    (s.setParams i ps).Follows (discipline rt) l fun s' l' => StmtOk s' l' ∧ Texts cmd l' := by
  induction ps generalizing s l i with
  | nil => exact ⟨hs, ht⟩
  | cons p ps ih =>
    obtain ⟨con, st, n, bs⟩ := s
    refine ⟨trivial, fun m _ => ?_⟩
    have ht := ht.cons (e := .con (.getMySql con)) (r := m) (by simp)
    have hs : ∀ n bs, StmtOk ⟨con, st, n, bs⟩ (⟨.con (.getMySql con), m⟩ :: l) :=
      fun _ _ st' hst => (hs st' hst).mono (List.subset_cons_self _ _)
    rcases st with _ | st
    · exact ih (hs _ _) ht (i + 1)
    · rcases m with _ | m
      · exact ih (hs _ _) ht (i + 1)
      · by_cases hi : i < n
        · simp only [Prog.bind_ret, hi, if_true]
          exact ih (hs _ _) ht (i + 1)
        · simp only [Prog.bind_ret, hi, if_false]
          exact ih (hs _ _) ht (i + 1)

/-- A statement whose parameters could be bound has been prepared. -/
theorem bindParams_recorded {s : CXEMySqlStmt} (hs : StmtOk s l) (ht : Texts cmd l) :
    s.bindParams.Follows (discipline rt) l fun ok l' =>
      StmtOk s l' ∧ (ok = true → ∃ st, s.m_pStmt = some st ∧ Prepared st cmd l') := by
  obtain ⟨con, st, n, bs⟩ := s
  refine ⟨trivial, fun m _ => ?_⟩
  have ht := ht.cons (e := .con (.getMySql con)) (r := m) (by simp)
  have hs : StmtOk ⟨con, st, n, bs⟩ (⟨.con (.getMySql con), m⟩ :: l) :=
    hs.mono (List.subset_cons_self _ _)
  rcases st with _ | st
  · exact ⟨hs, by simp⟩
  · rcases m with _ | m
    · exact ⟨hs, by simp⟩
    · refine ⟨hs st rfl, fun ok hok => ?_⟩
      have hs' := hs.mono
        (List.subset_cons_self (⟨.lib (.stmtBindParam st _), ok⟩ : Answer Op Op.Reply) _)
      cases ok with
      | true =>
        refine ⟨hs', fun _ => ⟨st, rfl, ?_⟩⟩
        obtain ⟨q, hq⟩ := hok rfl
        exact ht st q true hq ▸ List.mem_cons_of_mem _ hq
      | false =>
        simp only [Prog.bind_ret]
        exact (logError_recorded m (ht.cons (by simp))).bind fun _ l' h => ⟨hs'.mono h.1, by simp⟩

/-- A statement that `Execute` reports as executed has been. -/
theorem execute_recorded {s : CXEMySqlStmt} (hs : StmtOk s l) :
    s.execute.Follows (discipline rt) l fun ok l' =>
      StmtOk s l' ∧ (ok = true → ∀ st, s.m_pStmt = some st → Executed st l') := by
  obtain ⟨con, st, n, bs⟩ := s
  refine ⟨trivial, fun m _ => ?_⟩
  have hs : StmtOk ⟨con, st, n, bs⟩ (⟨.con (.getMySql con), m⟩ :: l) :=
    hs.mono (List.subset_cons_self _ _)
  rcases st with _ | st
  · exact ⟨hs, by simp⟩
  · rcases m with _ | m
    · exact ⟨hs, by simp⟩
    · refine ⟨hs st rfl, fun ok _ => ?_⟩
      have hs' := hs.mono
        (List.subset_cons_self (⟨.lib (.stmtExecute st), ok⟩ : Answer Op Op.Reply) _)
      cases ok with
      | true =>
        refine ⟨hs', ?_⟩
        rintro _ _ ⟨⟩
        exact List.mem_cons_self
      | false =>
        simp only [Prog.bind_ret]
        refine (noStmt_recorded (p := CXEMySqlStmt.logError m)
          ⟨rfl, fun _ => ⟨rfl, fun _ => ⟨trivial, fun _ => trivial⟩⟩⟩ _).bind
          fun _ l' h => ⟨hs'.mono h.1, by simp⟩

theorem reset_recorded {s : CXEMySqlStmt} (hs : StmtOk s l) :
    s.reset.Follows (discipline rt) l fun _ l' => l ⊆ l' := by
  refine (Prog.Follows.grows (Q := fun _ _ => True) ?_).mono fun _ _ h => h.2.subset
  obtain ⟨con, st, n, ps⟩ := s
  unfold CXEMySqlStmt.reset
  rcases st with _ | st
  · cases ps <;> first | trivial | exact ⟨trivial, fun _ _ => trivial⟩
  · refine ⟨hs st rfl, fun ok _ => ?_⟩
    cases ok with
    | true => cases ps <;> first | trivial | exact ⟨trivial, fun _ _ => trivial⟩
    | false =>
      refine ⟨trivial, fun m _ => ?_⟩
      rcases m with _ | m
      · trivial
      · exact ⟨trivial, fun _ _ => ⟨trivial, fun _ _ => ⟨trivial, fun _ _ => trivial⟩⟩⟩

/-- **What the blob overload reports as executed has been prepared and executed.** -/
theorem queryBlobOn_recorded (c : Nat) (ht : Texts cmd l) (pData : DB_BLOB) :
    (CXEMySql.queryBlobOn c cmd pData).Follows (discipline rt) l fun ok l' =>
      ok = true → ∃ st, Prepared st cmd l' ∧ Executed st l' := by
  unfold CXEMySql.queryBlobOn
  refine (setSQL_recorded c ht).bind fun s₁ l₁ h₁ => ?_
  refine (setParams_recorded pData h₁.1 h₁.2 0).bind fun s₂ l₂ h₂ => ?_
  refine (bindParams_recorded h₂.1 h₂.2).bind fun ok l₃ h₃ => ?_
  cases ok with
  | false =>
    refine (reset_recorded h₃.1).bind fun _ _ _ => ?_
    rintro ⟨⟩
  | true =>
    obtain ⟨st, hst, hp⟩ := h₃.2 rfl
    refine (execute_recorded h₃.1).grows.bind fun ok l₄ h₄ => ?_
    refine (reset_recorded h₄.1.1).bind fun _ l₅ h₅ => ?_
    rintro rfl
    exact ⟨st, h₅ (h₄.2.subset hp), h₅ (h₄.1.2 rfl st hst)⟩

/-- `Query (cmd, DB_BLOB *pData)` with a blob. -/
theorem queryBlob_recorded (ht : Texts cmd l) (d : DB_BLOB) :
    (CXEMySql.queryBlob cmd (some d)).Follows (discipline rt) l fun ok l' =>
      ok = true → ∃ st, Prepared st cmd l' ∧ Executed st l' := by
  refine ⟨trivial, fun c _ => ?_⟩
  rcases c with _ | c
  · rintro ⟨⟩
  · simp only [Prog.bind_ret]
    refine Prog.Follows.bind (P := fun ok l' => ok = true →
      ∃ st, Prepared st cmd l' ∧ Executed st l') ?_ ?_
    · refine ⟨trivial, fun m _ => ?_⟩
      rcases m with _ | m
      · rintro ⟨⟩
      · exact queryBlobOn_recorded c ((ht.cons (by simp)).cons (by simp)) d
    · refine fun ok l' h => ⟨trivial, fun _ _ hok => ?_⟩
      obtain ⟨st, hp, he⟩ := h hok
      exact ⟨st, List.mem_cons_of_mem _ hp, List.mem_cons_of_mem _ he⟩

/-! ## Every call -/

/-- Code of the thread pool, of tasks and of results is not on statements. -/
theorem inPool_noStmt {α : Type} (p : ThreadPool.Code Nat α) : (CXEMySql.inPool p).Only NoStmt :=
  Prog.only_lift (fun _ => trivial) p

theorem query_noStmt (cmd : Bytes) (args : List Printf.Arg) :
    (CXEMySql.query cmd args).Only NoStmt := (query_text cmd args).mono noStmt_of_onText

theorem processTask_recorded (k : Option Nat) (hl : ∀ q, Texts q l) :
    (CXEMySqlWorker.processTask k).Follows (discipline rt) l fun _ _ => True := by
  rcases k with _ | k
  · trivial
  · refine ⟨trivial, fun d _ => ?_⟩
    rcases d with _ | p
    · refine ⟨trivial, fun szQuery _ => ?_⟩
      refine (noStmt_recorded (query_noStmt szQuery []) _).bind fun _ l' _ => ?_
      exact ⟨trivial, fun _ _ => ⟨trivial, fun _ _ => trivial⟩⟩
    · refine ⟨trivial, fun szQuery _ => ⟨trivial, fun d _ => ?_⟩⟩
      have ht := (((hl szQuery).cons (e := .task (.getData k)) (r := some p) (by simp)).cons
        (e := .task (.getQuery k)) (r := szQuery) (by simp)).cons
        (e := .task (.deref p)) (r := d) (by simp)
      refine (queryBlob_recorded ht d).bind fun _ l' _ => ?_
      exact ⟨trivial, fun _ _ => ⟨trivial, fun _ _ => trivial⟩⟩

theorem texts_nil (cmd : Bytes) : Texts cmd [] := by
  intro st q r hm
  cases hm

/-- **Every call works on its own statements only.** -/
theorem code_recorded (rt : Runtime) (c : Call) :
    c.code.Follows (discipline rt) [] fun _ _ => True := by
  have hno : ∀ {p : Code Bool}, p.Only NoStmt → p.Follows (discipline rt) [] fun _ _ => True :=
    fun hp => (noStmt_recorded hp []).mono fun _ _ _ => trivial
  have htext : ∀ {p : Code Bool}, p.Only OnText → p.Follows (discipline rt) [] fun _ _ => True :=
    fun hp => hno (hp.mono noStmt_of_onText)
  cases c with
  | executeQueryNoRet q =>
    refine hno (Prog.only_bind (Prog.only_bind ?_ fun _ => inPool_noStmt _) fun _ => trivial)
    rcases q with _ | q
    · trivial
    · exact ⟨trivial, fun _ => ⟨trivial, fun _ => trivial⟩⟩
  | selectDB db => exact hno (selectDB_only
      (fun e he => noStmt_of_onText e (OnSession.onText e he)) (fun _ _ => rfl) db)
  | query cmd args => exact htext (query_text cmd args)
  | queryData cmd data args =>
    exact hno (queryData_only noStmt_of_onText cmd (fun _ _ _ _ => trivial) args)
  | queryBlob cmd d =>
    rcases d with _ | d
    · exact htext (query_text cmd [])
    · exact (queryBlob_recorded (texts_nil cmd) d).mono fun _ _ _ => trivial
  | newResult => exact ⟨trivial, fun _ _ => trivial⟩
  | deleteResult x =>
    refine hno (Prog.only_bind ⟨trivial, fun r => ?_⟩ fun _ => trivial)
    rcases r with _ | r
    · exact ⟨trivial, fun _ => trivial⟩
    · exact ⟨rfl, fun _ => ⟨trivial, fun _ => trivial⟩⟩
  | connect c p => exact htext ((connect_session c p).mono OnSession.onText)
  | close c => exact htext ((close_session c).mono OnSession.onText)
  | reconnect c => exact htext ((reconnect_session c).mono OnSession.onText)
  | start n => exact hno (Prog.only_bind (inPool_noStmt _) fun _ => trivial)
  | stop => exact hno (Prog.only_bind (inPool_noStmt _) fun _ => trivial)
  | workerProc =>
    refine (noStmt_recorded (inPool_noStmt _) []).bind fun r l h => ?_
    rcases r with _ | ⟨pWorker, pTask⟩
    · trivial
    · cases pWorker with
      | false => trivial
      | true =>
        exact (processTask_recorded pTask fun q => h.2 q (texts_nil q)).bind fun _ _ _ => trivial

/-! ## What the library knows of the statements -/

/--
The statements of the library `y`, when the calls have had the answers `v`: calls own different
statements, all of them handed out already, and one that has been prepared has been by its call.
-/
structure Stmts (y : LibMySql) (v : Tid → Trace) : Prop where
  lt : ∀ t st, Owned st (v t) → st < y.stmts
  one : ∀ t u st, Owned st (v t) → Owned st (v u) → t = u
  prepared : ∀ t st, Owned st (v t) → (y.stmt st).prepared = true → ∃ q, Prepared st q (v t)

theorem owned_cons {st : Nat} {e : Op} {r : e.Reply} (he : ∀ h, e ≠ .lib (.stmtInit h)) :
    Owned st (⟨e, r⟩ :: l) ↔ Owned st l := by
  constructor
  · rintro ⟨h, hm⟩
    rcases List.mem_cons.mp hm with heq | hm
    · cases heq
      exact absurd rfl (he h)
    · exact ⟨h, hm⟩
  · exact fun h => h.mono (List.subset_cons_self _ _)

/-- An answer more takes none away. -/
theorem mem_update_cons {v : Tid → Trace} {t u : Tid} {x y : Answer Op Op.Reply} (h : x ∈ v u) :
    x ∈ Function.update v t (y :: v t) u := by
  by_cases hut : u = t
  · subst hut
    rw [Function.update_self]
    exact List.mem_cons_of_mem _ h
  · rw [Function.update_of_ne hut]
    exact h

/-- An answer that says nothing about statements. -/
theorem Stmts.skip {y y' : LibMySql} {v : Tid → Trace} {t : Tid} {e : Op} {r : e.Reply}
    (h : Stmts y v) (he : ∀ m, e ≠ .lib (.stmtInit m)) (hs : y'.stmts = y.stmts)
    (hp : ∀ u st, Owned st (v u) → (y'.stmt st).prepared = true → (y.stmt st).prepared = true ∨
      u = t ∧ ∃ q, Prepared st q [⟨e, r⟩]) :
    Stmts y' (Function.update v t (⟨e, r⟩ :: v t)) := by
  have ho : ∀ u st, Owned st (Function.update v t (⟨e, r⟩ :: v t) u) ↔ Owned st (v u) := by
    intro u st
    by_cases hu : u = t
    · subst hu
      rw [Function.update_self]
      exact owned_cons he
    · rw [Function.update_of_ne hu]
  refine ⟨?_, ?_, ?_⟩
  · intro u st hu
    rw [hs]
    exact h.lt u st ((ho u st).mp hu)
  · intro u u' st hu hu'
    exact h.one u u' st ((ho u st).mp hu) ((ho u' st).mp hu')
  · intro u st hu hpr
    have hu := (ho u st).mp hu
    rcases hp u st hu hpr with hpr | ⟨rfl, q, hq⟩
    · obtain ⟨q, hq⟩ := h.prepared u st hu hpr
      exact ⟨q, mem_update_cons hq⟩
    · refine ⟨q, ?_⟩
      rw [Function.update_self]
      exact List.mem_cons.mpr (Or.inl (List.mem_singleton.mp hq))

/-- A new statement belongs to nobody else, and has not been prepared. -/
theorem Stmts.stmtInit {y : LibMySql} {v : Tid → Trace} {t : Tid} {m : Nat} {o : Outcome}
    (h : Stmts y v) : Stmts (y.exec (.stmtInit m) o).1
      (Function.update v t (⟨.lib (.stmtInit m), (y.exec (.stmtInit m) o).2⟩ :: v t)) := by
  have howned : ∀ u st, Owned st (Function.update v t
      (⟨.lib (.stmtInit m), (y.exec (.stmtInit m) o).2⟩ :: v t) u) →
      Owned st (v u) ∨ u = t ∧ st = y.stmts ∧ o.ok = true := by
    intro u st hu
    by_cases hut : u = t
    · subst hut
      rw [Function.update_self] at hu
      obtain ⟨m', hm⟩ := hu
      rcases List.mem_cons.mp hm with heq | hm
      · by_cases ho : o.ok = true
        · simp only [LibMySql.exec, ho, if_true, Sigma.mk.injEq, Op.lib.injEq,
            LibOp.stmtInit.injEq] at heq
          obtain ⟨rfl, heq⟩ := heq
          cases heq
          exact Or.inr ⟨rfl, rfl, ho⟩
        · simp [LibMySql.exec, ho] at heq
      · exact Or.inl ⟨m', hm⟩
    · rw [Function.update_of_ne hut] at hu
      exact Or.inl hu
  have hlt : y.stmts ≤ (y.exec (.stmtInit m) o).1.stmts := (y.exec_grows _ o).stmts
  refine ⟨?_, ?_, ?_⟩
  · intro u st hu
    rcases howned u st hu with hu | ⟨-, rfl, ho⟩
    · exact Nat.lt_of_lt_of_le (h.lt u st hu) hlt
    · simp [LibMySql.exec, ho]
  · intro u u' st hu hu'
    rcases howned u st hu with h1 | ⟨rfl, rfl, -⟩ <;> rcases howned u' _ hu' with h2 | ⟨rfl, h2, -⟩
    · exact h.one u u' st h1 h2
    · exact absurd (h.lt u st h1) (by omega)
    · exact absurd (h.lt u' _ h2) (by omega)
    · rfl
  · intro u st hu hpr
    rcases howned u st hu with h1 | ⟨rfl, rfl, ho⟩
    · have hst : ((y.exec (.stmtInit m) o).1.stmt st).prepared = (y.stmt st).prepared := by
        have hne : st ≠ y.stmts := by
          have := h.lt u st h1
          omega
        simp only [LibMySql.exec]
        split
        · show (Function.update y.stmt y.stmts _ st).prepared = _
          rw [Function.update_of_ne hne]
        · rfl
      rw [hst] at hpr
      obtain ⟨q, hq⟩ := h.prepared u st h1 hpr
      exact ⟨q, mem_update_cons hq⟩
    · simp [LibMySql.exec, ho] at hpr

/-- A call of the library keeps this. -/
theorem Stmts.lib {y : LibMySql} {v : Tid → Trace} {t : Tid} {e : LibOp} {o : Outcome}
    (h : Stmts y v) (hm : may (v t) (.lib e)) :
    Stmts (y.exec e o).1 (Function.update v t (⟨.lib e, (y.exec e o).2⟩ :: v t)) := by
  by_cases h2 : ∃ m, e = .stmtInit m
  · obtain ⟨m, rfl⟩ := h2
    exact h.stmtInit
  by_cases h3 : ∃ st q, e = .stmtPrepare st q
  · obtain ⟨st, q, rfl⟩ := h3
    obtain ⟨-, hs, hst⟩ := y.exec_stmtPrepare o st q
    refine h.skip (by simp) hs fun u st' hu hpr => ?_
    rcases hst with ⟨hr, hst⟩ | ⟨-, hst⟩
    · rw [hst] at hpr
      by_cases he : st' = st
      · subst he
        refine Or.inr ⟨h.one u t st' hu hm, q, ?_⟩
        rw [hr]
        exact List.mem_singleton_self _
      · rw [Function.update_of_ne he] at hpr
        exact Or.inl hpr
    · rw [hst] at hpr
      exact Or.inl hpr
  · have hne : ∀ m, (Op.lib e) ≠ .lib (.stmtInit m) := by
      rintro m ⟨⟩
      exact h2 ⟨m, rfl⟩
    by_cases h1 : e = .init
    · subst h1
      refine h.skip hne ?_ ?_
      · simp only [LibMySql.exec]
        split <;> rfl
      · intro u st hu hpr
        simp only [LibMySql.exec] at hpr
        split at hpr <;> exact Or.inl hpr
    · obtain ⟨-, hs, hst⟩ := y.exec_same (o := o) h1 (fun m he => h2 ⟨m, he⟩)
        fun st q he => h3 ⟨st, q, he⟩
      exact h.skip hne hs fun u st hu hpr => Or.inl (by rwa [hst] at hpr)

/-- A call begins or ends. -/
theorem Stmts.restart {y : LibMySql} {v : Tid → Trace} (h : Stmts y v) (t : Tid) :
    Stmts y (Function.update v t []) := by
  have howned : ∀ u st, Owned st (Function.update v t [] u) → Owned st (v u) ∧ u ≠ t := by
    intro u st hu
    by_cases hut : u = t
    · rw [hut, Function.update_self] at hu
      exact absurd hu (not_owned_nil st)
    · rw [Function.update_of_ne hut] at hu
      exact ⟨hu, hut⟩
  refine ⟨?_, ?_, ?_⟩
  · exact fun u st hu => h.lt u st (howned u st hu).1
  · exact fun u u' st hu hu' => h.one u u' st (howned u st hu).1 (howned u' st hu').1
  · intro u st hu hpr
    obtain ⟨hu, hut⟩ := howned u st hu
    rw [Function.update_of_ne hut]
    exact h.prepared u st hu hpr

/-- The answers recorded of each thread. -/
abbrev recordView (rt : Runtime) (h : List Ev) : Tid → Trace :=
  (discipline rt).view [] (fun _ _ => []) h

/-- **Whatever calls are made, the recorded answers can be relied on.** -/
theorem record_kept (rt : Runtime) (s₀ : State) {final : Call → Bool → Trace → Prop}
    (hcode : ∀ c : Call, c.code.Follows (discipline rt) [] (final c)) :
    (machine rt).Kept (fun _ _ => True) s₀ (discipline rt) [] (fun _ _ => []) final
      fun s h => Stmts s.lib (recordView rt h) where
  code _ c _ := hcode c
  init := by
    exact ⟨fun _ st ho => absurd ho (not_owned_nil st), fun _ _ st ho => absurd ho (not_owned_nil st),
      fun _ st ho => absurd ho (not_owned_nil st)⟩
  call s h t c hI _ _ _ := by
    rw [recordView, Discipline.view_call]
    exact hI.restart t
  wait s h t e o s' hI _ he := by
    obtain ⟨i, rfl⟩ := exec_wait he
    exact hI
  reply s h t e o s' r hI hm he := by
    rw [recordView, Discipline.view_reply]
    have he : exec rt t e o s = some (s', some r) := he
    have hskip : ∀ {e : Op} {r : e.Reply}, (∀ m, e ≠ .lib m) → s'.lib = s.lib →
        Stmts s'.lib (Function.update (recordView rt h) t (⟨e, r⟩ :: recordView rt h t)) :=
      fun he hs => hI.skip (fun m => he _) (by rw [hs]) fun _ _ _ hp => Or.inl (by rwa [hs] at hp)
    cases e with
    | lib e =>
      obtain ⟨rfl, hr⟩ := exec_lib he
      cases hr
      refine ⟨?_, hI.lib hm⟩
      cases e with
      | stmtBindParam st binds =>
        intro hok
        simp only [LibMySql.exec, Bool.and_eq_true] at hok
        exact hI.prepared t st hm hok.1
      | _ => trivial
    | rt e =>
      obtain ⟨x, hx, rfl⟩ := exec_rt he
      refine ⟨?_, hskip (by simp) rfl⟩
      cases e with
      | vsnprintf n fmt args =>
        intro text ht
        simp only [RtOp.exec, ht] at hx
        cases hx
        rfl
      | _ => trivial
    | tp e =>
      obtain ⟨x, hx, rfl⟩ := exec_tp he
      exact ⟨trivial, hskip (by simp) rfl⟩
    | task e =>
      obtain ⟨x, hx, rfl⟩ := exec_task he
      exact ⟨trivial, hskip (by simp) rfl⟩
    | con e =>
      obtain ⟨x, hx, rfl⟩ := exec_con he
      exact ⟨trivial, hskip (by simp) rfl⟩
    | res e =>
      obtain ⟨x, hx, rfl⟩ := exec_res he
      exact ⟨trivial, hskip (by simp) rfl⟩
  done s h t c a hI _ := by
    rw [recordView, Discipline.view_done]
    exact hI.restart t

end XeMySql
