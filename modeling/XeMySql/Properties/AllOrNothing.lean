import XeMySql.Initialize
import XeMySql.System

/-!
# All or nothing

`Initialize` returns `true` with all of its connections in the pool, or `false` with nothing
changed: this is so for some patterns of success and failure, and not for others.

* `rounds` — the pattern, read off the answers of the library
* `Run.connect`, `Run.executeSQL`, `Run.close` — what the parts of a round do to the connection they
  work on, and that they touch no other
* `allOrNothing_iff` — for which patterns it is so
* `half_done` — a round that fails after one that has succeeded
-/

namespace XeMySql

open Interact

/-- The answers in a run of `Initialize`, the latest first. -/
abbrev InitTrace : Type := List (Answer InitOp InitOp.Reply)

/-! ## Patterns -/

/-- A `Connect`: `mysql_real_connect` has succeeded, and all of it has. -/
structure Try where
  opened : Bool := false
  ok : Bool := false
deriving DecidableEq

/-- A round of the loop: its calls of `Connect`, the latest first, and `CREATE DATABASE`. -/
structure Round where
  tries : List Try := []
  created : Option Bool := none
deriving DecidableEq

namespace Round

/-- The latest `Connect`. -/
def onTry (f : Try → Try) (r : Round) : Round :=
  { r with tries := match r.tries with
    | [] => []
    | x :: xs => f x :: xs }

/-- A `Connect` begins. -/
def begin (r : Round) : Round := { r with tries := {} :: r.tries }

/-- What an answer says of the round it is given in. -/
def note (r : Round) : Answer InitOp InitOp.Reply → Round
  | ⟨.op (.con (.setParams _ _)), _⟩ => r.begin
  | ⟨.op (.lib (.realConnect _ _)), ok⟩ => r.onTry fun x => { x with opened := ok }
  | ⟨.op (.lib (.setReconnect _)), ok⟩ => r.onTry fun x => { x with ok := ok }
  | ⟨.op (.lib (.realQuery _ _)), ok⟩ => { r with created := some ok }
  | _ => r

/-- The round has put its connection into the pool. -/
def Kept (r : Round) : Prop := r.created ≠ some false ∧ r.tries.head?.map (·.ok) = some true

/-- The database `test` could not be reached, and nothing has been left open. -/
def Unreached (r : Round) : Prop :=
  r.created = none ∧ r.tries.length = 2 ∧ r.tries.head? = some { opened := false, ok := false }

end Round

/-- The rounds of a run, the latest first. -/
def rounds : InitTrace → List Round
  | [] => []
  | ⟨.newCon, _⟩ :: l => {} :: rounds l
  | x :: l =>
    match rounds l with
    | [] => []
    | r :: rs => r.note x :: rs

theorem rounds_op {e : Op} {x : e.Reply} {l : InitTrace} {r : Round} {rs : List Round}
    (h : rounds l = r :: rs) : rounds (⟨.op e, x⟩ :: l) = r.note ⟨.op e, x⟩ :: rs := by
  simp [rounds, h]

/-- The handles that have been connected and not been closed. -/
def connected : InitTrace → List Nat
  | [] => []
  | ⟨.op (.lib (.realConnect h _)), ok⟩ :: l => if ok = true then h :: connected l else connected l
  | ⟨.op (.lib (.close h)), _⟩ :: l => (connected l).filter (· ≠ h)
  | _ :: l => connected l

/-! ## What is claimed -/

/-- `n` connections to `p` are new in the pool, and there are a task pool and a worker. -/
structure Complete (p : ConnParams) (n : Nat) (s s' : Startup) (l : InitTrace) : Prop where
  vector : ∃ cs, s'.base.cons.m_VectorCon = s.base.cons.m_VectorCon ++ cs ∧ cs.length = n ∧
    ∀ c ∈ cs, ∃ h, (s'.base.cons.con c).m_pMySql = some h ∧ h ∈ connected l ∧
      (s'.base.lib.mysql h).server = some p ∧ (s'.base.lib.mysql h).db = p.db
  pool : s'.m_pMySqlTaskPool.isSome
  worker : s'.m_pWorker.isSome

/-- Pool, task pool and worker are as they were, and what was opened is closed. -/
structure Undone (s s' : Startup) (l : InitTrace) : Prop where
  vector : s'.base.cons.m_VectorCon = s.base.cons.m_VectorCon
  pool : s'.m_pMySqlTaskPool = s.m_pMySqlTaskPool
  worker : s'.m_pWorker = s.m_pWorker
  closed : connected l = []

/-- `Initialize` has done everything and returned `true`, or nothing and returned `false`. -/
def AllOrNothing (p : ConnParams) (n : Nat) (s : Startup) (a : Bool) (s' : Startup)
    (l : InitTrace) : Prop :=
  (a = true → Complete p n s s' l) ∧ (a = false → Undone s s' l)

/-! ## Requests -/

section

variable {rt : Runtime} {t : Tid} {s : Startup} {l : InitTrace} {α : Type}
  {Q : α → Startup → InitTrace → Prop}

theorem always_initLib {e : LibOp} {k : e.Reply → InitCode α}
    (h : ∀ o y r, s.base.lib.exec e o = (y, r) →
      (k r).Always (Startup.exec rt t) { s with base := { s.base with lib := y } }
        (⟨.op (.lib e), r⟩ :: l) Q) :
    (Prog.op (.op (.lib e)) k : InitCode α).Always (Startup.exec rt t) s l Q := by
  refine Prog.always_op (fun o s₁ he => ?_) fun o s₁ r he => ?_
  · obtain ⟨x, hx, -⟩ := Startup.exec_op he
    exact nomatch (exec_lib hx).2
  · obtain ⟨x, hx, rfl⟩ := Startup.exec_op he
    obtain ⟨rfl, hr⟩ := exec_lib hx
    cases hr
    exact h o _ _ rfl

theorem always_initCon {e : ConOp} {k : e.Reply → InitCode α} {x : Cons} {r : e.Reply}
    (hx : s.base.cons.exec t e = some (x, some r))
    (h : (k r).Always (Startup.exec rt t) { s with base := { s.base with cons := x } }
      (⟨.op (.con e), r⟩ :: l) Q) :
    (Prog.op (.op (.con e)) k : InitCode α).Always (Startup.exec rt t) s l Q := by
  refine Prog.always_op (fun o s₁ he => ?_) fun o s₁ r' he => ?_
  · obtain ⟨y, hy, -⟩ := Startup.exec_op he
    exact nomatch (exec_con_eq hx hy).2
  · obtain ⟨y, hy, rfl⟩ := Startup.exec_op he
    obtain ⟨rfl, hr⟩ := exec_con_eq hx hy
    cases hr
    exact h

theorem always_initRt {e : RtOp} {k : e.Reply → InitCode α}
    (h : ∀ heap r, (k r).Always (Startup.exec rt t) { s with base := { s.base with heap := heap } }
      (⟨.op (.rt e), r⟩ :: l) Q) :
    (Prog.op (.op (.rt e)) k : InitCode α).Always (Startup.exec rt t) s l Q := by
  refine Prog.always_op (fun o s₁ he => ?_) fun o s₁ r he => ?_
  · obtain ⟨y, hy, -⟩ := Startup.exec_op he
    obtain ⟨heap, hheap, -⟩ := exec_rt hy
    exact RtOp.exec_answers hheap
  · obtain ⟨y, hy, rfl⟩ := Startup.exec_op he
    obtain ⟨heap, -, rfl⟩ := exec_rt hy
    exact h heap r

end

/-! ## A round -/

/--
A round that has begun in `s` with the trace `l` has got to `s₁` and `l₁`. It has gone as `r` says,
it works on connection `c`, and `own` is the connection it has opened and not closed.

It works on new handles only, and touches nothing else.
-/
structure Round.Run (c : Nat) (s : Startup) (l : InitTrace) (r : Round) (own : Option Nat)
    (s₁ : Startup) (l₁ : InitTrace) : Prop where
  rounds : rounds l₁ = r :: rounds l
  connected : connected l₁ = own.toList ++ connected l
  own : own = none ∨ own = (s₁.base.cons.con c).m_pMySql
  fresh : ∀ h, (s₁.base.cons.con c).m_pMySql = some h →
    s.base.lib.handles ≤ h ∧ h < s₁.base.lib.handles
  handles : s.base.lib.handles ≤ s₁.base.lib.handles
  mysql : ∀ h < s.base.lib.handles, s₁.base.lib.mysql h = s.base.lib.mysql h
  cons : ∀ d, d ≠ c → s₁.base.cons.con d = s.base.cons.con d
  vector : s₁.base.cons.m_VectorCon = s.base.cons.m_VectorCon
  objects : s₁.objects = s.objects + 1
  pool : s₁.m_pMySqlTaskPool = s.m_pMySqlTaskPool
  worker : s₁.m_pWorker = s.m_pWorker

namespace Round.Run

variable {rt : Runtime} {t : Tid} {c : Nat} {s s₁ : Startup} {l l₁ : InitTrace} {r r' : Round}
  {own own' : Option Nat}

/-- A call of the library, on a new handle if any. -/
theorem lib (h : Run c s l r own s₁ l₁) {e : LibOp} {o : Outcome} {y : LibMySql} {x : e.Reply}
    (he : s₁.base.lib.exec e o = (y, x))
    (ht : ∀ m, s₁.base.lib.target e = some m → (s₁.base.cons.con c).m_pMySql = some m)
    (hr : r.note ⟨.op (.lib e), x⟩ = r')
    (hc : XeMySql.connected (⟨.op (.lib e), x⟩ :: l₁) = own'.toList ++ XeMySql.connected l)
    (hown : own' = none ∨ own' = (s₁.base.cons.con c).m_pMySql) :
    Run c s l r' own' { s₁ with base := { s₁.base with lib := y } } (⟨.op (.lib e), x⟩ :: l₁) := by
  have hgrow := (s₁.base.lib.exec_grows e o).handles
  have hmysql : ∀ m < s.base.lib.handles, y.mysql m = s₁.base.lib.mysql m := by
    intro m hm
    have hne : s₁.base.lib.target e ≠ some m := by
      intro htm
      have hge := (h.fresh m (ht m htm)).1
      omega
    have hsame := s₁.base.lib.exec_of_ne (o := o) hne (Nat.lt_of_lt_of_le hm h.handles)
    rwa [he] at hsame
  rw [he] at hgrow
  refine ⟨?_, hc, hown, ?_, Nat.le_trans h.handles hgrow, ?_, h.cons, h.vector, h.objects, h.pool,
    h.worker⟩
  · rw [rounds_op h.rounds, hr]
  · exact fun m hm => ⟨(h.fresh m hm).1, Nat.lt_of_lt_of_le (h.fresh m hm).2 hgrow⟩
  · exact fun m hm => (hmysql m hm).trans (h.mysql m hm)

/-- A request that stores something in the connection. -/
theorem withCon (h : Run c s l r own s₁ l₁) (e : ConOp) (a : e.Reply) (z : CXEMySqlCon)
    (hm : ∀ m, z.m_pMySql = some m → s.base.lib.handles ≤ m ∧ m < s₁.base.lib.handles)
    (hr : r.note ⟨.op (.con e), a⟩ = r') (hown : own = none ∨ own = z.m_pMySql) :
    Run c s l r' own { s₁ with base := { s₁.base with cons := s₁.base.cons.withCon c z } }
      (⟨.op (.con e), a⟩ :: l₁) := by
  have hself : (s₁.base.cons.withCon c z).con c = z := Cons.withCon_self ..
  refine ⟨?_, h.connected, ?_, ?_, h.handles, h.mysql, ?_, h.vector, h.objects, h.pool, h.worker⟩
  · rw [rounds_op h.rounds, hr]
  · rw [hself]
    exact hown
  · rw [hself]
    exact hm
  · exact fun d hd => (Function.update_of_ne hd ..).trans (h.cons d hd)

/-- Reading the handle. -/
theorem getMySql (h : Run c s l r own s₁ l₁) :
    Run c s l r own s₁ (⟨.op (.con (.getMySql c)), (s₁.base.cons.con c).m_pMySql⟩ :: l₁) :=
  ⟨(rounds_op h.rounds).trans rfl, h.connected, h.own, h.fresh, h.handles, h.mysql, h.cons,
    h.vector, h.objects, h.pool, h.worker⟩

/-- The runtime and the log touch nothing. -/
theorem runtime (h : Run c s l r own s₁ l₁) (e : RtOp) (heap : Nat) (a : e.Reply) :
    Run c s l r own { s₁ with base := { s₁.base with heap := heap } } (⟨.op (.rt e), a⟩ :: l₁) :=
  ⟨(rounds_op h.rounds).trans rfl, h.connected, h.own, h.fresh, h.handles, h.mysql, h.cons,
    h.vector, h.objects, h.pool, h.worker⟩

/-- `Close` -/
theorem close (h : Run c s l r own s₁ l₁) (hl : ∀ m ∈ XeMySql.connected l, m < s.base.lib.handles) :
    (during (CXEMySqlCon.close c)).Always (Startup.exec rt t) s₁ l₁
      fun _ s₂ l₂ => Run c s l r none s₂ l₂ ∧ s₂ = s₁ := by
  refine always_initCon rfl ?_
  have h := h.getMySql
  cases hm : (s₁.base.cons.con c).m_pMySql with
  | none =>
    have hnone : own = none := h.own.elim id fun ho => ho.trans hm
    subst hnone
    rw [hm] at h
    exact Prog.always_ret ⟨h, rfl⟩
  | some m =>
    rw [hm] at h
    refine always_initLib fun o y x he => ?_
    cases he
    refine Prog.always_ret ⟨h.lib (o := .success) rfl (fun _ ht => by cases ht; exact hm) rfl ?_
      (Or.inl rfl), rfl⟩
    -- the handle is new, so it was not open before the round
    have hnew : m ∉ XeMySql.connected l := fun hmem => by
      have hlt := hl m hmem
      have hge := (h.fresh m hm).1
      omega
    have hold : (XeMySql.connected l).filter (· ≠ m) = XeMySql.connected l :=
      List.filter_eq_self.mpr fun z hz => by
        simpa using fun he : z = m => hnew (he ▸ hz)
    show (XeMySql.connected (_ :: l₁)).filter (· ≠ m) = _
    rw [h.connected, List.filter_append, hold]
    rcases h.own with rfl | ho
    · rfl
    · rw [ho, hm]
      simp

/-- What `mysql_init` has returned is the newest handle. -/
theorem newest (h : Run c s l r own s₁ l₁) {o : Outcome} {y : LibMySql} {m : Option Nat}
    (he : s₁.base.lib.exec .init o = (y, m)) :
    ∀ m', m = some m' → s.base.lib.handles ≤ m' ∧ m' < y.handles := by
  rintro m' rfl
  have hle := h.handles
  simp only [LibMySql.exec] at he
  split at he
  · cases he
    exact ⟨hle, Nat.lt_succ_self _⟩
  · cases he

/-- What a try has to come to: if it has succeeded, a connection with the parameters `p` is open. -/
def Tried (p : ConnParams) (c : Nat) (s : Startup) (l : InitTrace) (r : Round) (ok : Bool)
    (s₁ : Startup) (l₁ : InitTrace) : Prop :=
  ∃ own, Run c s l { r with tries := ⟨own.isSome, ok⟩ :: r.tries } own s₁ l₁ ∧
    (ok = true → ∃ m, own = some m ∧ (s₁.base.lib.mysql m).server = some p ∧
      (s₁.base.lib.mysql m).db = p.db)

/-- `Connect` from `mysql_real_connect` on. -/
theorem opening {m : Nat} {p : ConnParams} (h : Run c s l r.begin none s₁ l₁)
    (hm : (s₁.base.cons.con c).m_pMySql = some m) :
    (during (do
      if ← req (.lib (.realConnect m p)) then
        if ← req (.lib (.setCharsetName m utf8)) then
          if ← req (.lib (.setReconnect m)) then pure true else pure false
        else pure false
      else do
        let _ ← req (.lib (.error m))
        pure false)).Always (Startup.exec rt t) s₁ l₁ fun ok s₂ l₂ =>
          Tried p c s l r ok s₂ l₂ := by
  refine always_initLib fun o y ok he => ?_
  cases ok with
  | false =>
    have h := h.lib he (fun _ ht => hm.trans ht) rfl h.connected (Or.inl rfl)
    refine always_initLib fun o y _ he => Prog.always_ret ?_
    exact ⟨none, h.lib he (fun _ ht => hm.trans ht) rfl h.connected (Or.inl rfl), nofun⟩
  | true =>
    have hserver : (y.mysql m).server = some p ∧ (y.mysql m).db = p.db := by
      simp only [LibMySql.exec] at he
      split at he <;> cases he
      simp
    have h₁ : Run c s l _ (some m) _ _ := h.lib he (fun _ ht => hm.trans ht) rfl
      (congrArg (m :: ·) h.connected) (Or.inr hm.symm)
    refine always_initLib fun o y₁ ok he₁ => ?_
    have h₂ : Run c s l _ (some m) _ _ := h₁.lib he₁ (fun _ ht => hm.trans ht) rfl h₁.connected
      (Or.inr hm.symm)
    cases ok with
    | false => exact Prog.always_ret ⟨some m, h₂, nofun⟩
    | true =>
      refine always_initLib fun o y₂ ok he₂ => ?_
      have h₃ : Run c s l _ (some m) _ _ := h₂.lib he₂ (fun _ ht => hm.trans ht) rfl h₂.connected
        (Or.inr hm.symm)
      cases ok with
      | false => exact Prog.always_ret ⟨some m, h₃, nofun⟩
      | true =>
        refine Prog.always_ret ⟨some m, h₃, fun _ => ⟨m, rfl, ?_⟩⟩
        -- the options leave the server and the database
        simp only [LibMySql.exec] at he₁ he₂
        split at he₁ <;> cases he₁
        split at he₂ <;> cases he₂
        simpa using hserver

/-- `Connect` adds a try to the round. -/
theorem connect (h : Run c s l r own s₁ l₁) (hl : ∀ m ∈ XeMySql.connected l, m < s.base.lib.handles)
    (p : ConnParams) :
    (during (CXEMySqlCon.connect c p)).Always (Startup.exec rt t) s₁ l₁
      fun ok s₂ l₂ => Tried p c s l r ok s₂ l₂ := by
  unfold CXEMySqlCon.connect
  rw [during_bind]
  refine (h.close hl).bind ?_
  rintro _ s₁ l₁ ⟨h, -⟩
  refine always_initCon rfl ?_
  have h := h.withCon (.setParams c p) () { s₁.base.cons.con c with params := p } h.fresh rfl
    (Or.inl rfl)
  refine always_initLib fun o y m he => ?_
  have hm := h.newest he
  have h := h.lib he (fun _ ht => nomatch ht) rfl h.connected (Or.inl rfl)
  refine always_initCon rfl ?_
  have h := h.withCon (.setMySql c m) ()
    { (s₁.base.cons.withCon c { s₁.base.cons.con c with params := p }).con c with m_pMySql := m }
    hm rfl (Or.inl rfl)
  cases m with
  | none => exact Prog.always_ret ⟨none, h, nofun⟩
  | some m => exact h.opening (by rw [Cons.withCon_self])

/-- `ExecuteSQL` on the handle of the connection says whether the database has been created. -/
theorem executeSQL (h : Run c s l r own s₁ l₁) {m : Nat}
    (hm : (s₁.base.cons.con c).m_pMySql = some m) (cmd : Bytes) (args : List Printf.Arg) :
    (during (CXEMySql.executeSQL (some m) cmd args)).Always (Startup.exec rt t) s₁ l₁
      fun ok s₂ l₂ => Run c s l { r with created := some ok } own s₂ l₂ := by
  refine always_initRt fun heap szQuery => ?_
  have h := h.runtime (.vsnprintf 1023 cmd args) heap szQuery
  refine always_initLib fun o y ok he => ?_
  have h := h.lib he (fun _ ht => hm.trans ht) rfl h.connected h.own
  cases ok with
  | true =>
    refine always_initRt fun heap _ => Prog.always_ret ?_
    exact h.runtime _ heap _
  | false =>
    refine always_initLib fun o y n he => ?_
    have h := h.lib he (fun _ ht => hm.trans ht) rfl h.connected h.own
    refine always_initLib fun o y e he => ?_
    have h := h.lib he (fun _ ht => hm.trans ht) rfl h.connected h.own
    refine always_initRt fun heap _ => Prog.always_ret ?_
    exact h.runtime _ heap _

end Round.Run

open Round

/-- How a round can end. -/
inductive RoundEnd (p : ConnParams) (s : Startup) (l : InitTrace) :
    Option (Nat × Bool) → Startup → InitTrace → Prop
  | kept {r m s₁ l₁} (h : Run s.objects s l r (some m) s₁ l₁) (hr : r.Kept)
    (hserver : (s₁.base.lib.mysql m).server = some p) (hdb : (s₁.base.lib.mysql m).db = p.db) :
    RoundEnd p s l (some (s.objects, true)) s₁ l₁
  | skipped {r own s₁ l₁} (h : Run s.objects s l r own s₁ l₁) (hk : ¬ r.Kept)
    (hu : ¬ r.Unreached) : RoundEnd p s l (some (s.objects, false)) s₁ l₁
  | failed {r own s₁ l₁} (h : Run s.objects s l r own s₁ l₁) (hk : ¬ r.Kept)
    (hu : r.Unreached ↔ own = none) : RoundEnd p s l none s₁ l₁

section

variable {rt : Runtime} {t : Tid} {p : ConnParams} {s : Startup} {l : InitTrace}

/-- A round begins with a connection that has no handle. -/
theorem run_newCon (s : Startup) (l : InitTrace) :
    Run s.objects s l {} none
      { s with
        objects := s.objects + 1
        base := { s.base with cons := s.base.cons.withCon s.objects {} } }
      (⟨.newCon, s.objects⟩ :: l) := by
  refine ⟨rfl, rfl, Or.inl rfl, ?_, Nat.le_refl _, fun _ _ => rfl, ?_, rfl, rfl, rfl, rfl⟩
  · intro h hh
    rw [Cons.withCon_self] at hh
    cases hh
  · exact fun d hd => Cons.withCon_of_ne hd ..

/-- **How a round goes.** -/
theorem connectOne_always (hl : ∀ m ∈ connected l, m < s.base.lib.handles) :
    (CXEMySql.connectOne p).Always (Startup.exec rt t) s l fun x s₁ l₁ => RoundEnd p s l x s₁ l₁ := by
  refine Prog.always_op (fun _ _ he => nomatch he) fun o s₁ c he => ?_
  cases he
  refine ((run_newCon s l).connect hl p).bind ?_
  rintro ok s₁ l₁ ⟨own, h, hok⟩
  cases ok with
  | true =>
    obtain ⟨m, rfl, hserver, hdb⟩ := hok rfl
    exact Prog.always_ret (.kept h ⟨nofun, rfl⟩ hserver hdb)
  | false =>
    refine (h.connect hl _).bind ?_
    rintro ok s₂ l₂ ⟨own₂, h₂, hok₂⟩
    cases ok with
    | false =>
      -- `test` cannot be connected to
      refine Prog.always_ret (.failed h₂ (fun hk => by cases hk.2) ⟨fun hu => ?_, ?_⟩)
      · have hopened := congrArg (Option.map Try.opened) hu.2.2
        simpa using hopened
      · rintro rfl
        exact ⟨rfl, rfl, rfl⟩
    | true =>
      obtain ⟨m, rfl, -⟩ := hok₂ rfl
      have hm : (s₂.base.cons.con s.objects).m_pMySql = some m :=
        (h₂.own.resolve_left nofun).symm
      refine always_initCon rfl ?_
      have h₂ := h₂.getMySql
      rw [hm] at h₂
      show Prog.Always _ (during (CXEMySql.executeSQL (s₂.base.cons.con s.objects).m_pMySql
        createDatabase [.str p.db]) >>= _) _ _ _
      rw [hm]
      refine (h₂.executeSQL hm createDatabase [.str p.db]).bind fun created s₃ l₃ h₃ => ?_
      cases created with
      | false =>
        -- the connection to `test` stays open
        exact Prog.always_ret (.failed h₃ (fun hk => hk.1 rfl) ⟨fun hu => (nomatch hu.1), nofun⟩)
      | true =>
        refine (h₃.close hl).bind ?_
        rintro _ s₄ l₄ ⟨h₄, -⟩
        refine (h₄.connect hl p).bind ?_
        rintro ok s₅ l₅ ⟨own₅, h₅, hok₅⟩
        cases ok with
        | true =>
          obtain ⟨m', rfl, hserver, hdb⟩ := hok₅ rfl
          exact Prog.always_ret (.kept h₅ ⟨nofun, rfl⟩ hserver hdb)
        | false =>
          exact Prog.always_ret (.skipped h₅ (fun hk => by cases hk.2) fun hu => nomatch hu.1)

/-! ## The loop -/

/-- The rounds that begin in `s₀` have come to `s` and `l`: the connections `cs` are new in the pool,
one for each round that has kept its own, and nothing else has been left open. -/
structure Built (p : ConnParams) (s₀ s : Startup) (l : InitTrace) (cs : List Nat) : Prop where
  vector : s.base.cons.m_VectorCon = s₀.base.cons.m_VectorCon ++ cs
  each : ∀ c ∈ cs, c < s.objects ∧ ∃ h, (s.base.cons.con c).m_pMySql = some h ∧ h ∈ connected l ∧
    (s.base.lib.mysql h).server = some p ∧ (s.base.lib.mysql h).db = p.db
  bound : ∀ h ∈ connected l, h < s.base.lib.handles
  only : cs = [] → connected l = []
  allKept : cs.length = (rounds l).length ↔ ∀ r ∈ rounds l, r.Kept
  noneKept : cs = [] ↔ ∀ r ∈ rounds l, ¬ r.Kept
  le : cs.length ≤ (rounds l).length
  reached : ∀ r ∈ rounds l, ¬ r.Unreached
  pool : s.m_pMySqlTaskPool = s₀.m_pMySqlTaskPool
  worker : s.m_pWorker = s₀.m_pWorker

namespace Built

variable {s₀ s₁ s₂ : Startup} {l₁ l₂ : InitTrace} {cs : List Nat} {r : Round} {m : Nat}

/-- A round touches nothing that has been built. -/
theorem frame (h : Built p s₀ s l cs) {own : Option Nat} (hr : Run s.objects s l r own s₁ l₁) :
    (∀ c ∈ cs, c < s₁.objects ∧ ∃ h, (s₁.base.cons.con c).m_pMySql = some h ∧ h ∈ connected l₁ ∧
      (s₁.base.lib.mysql h).server = some p ∧ (s₁.base.lib.mysql h).db = p.db) ∧
    ∀ h ∈ connected l₁, h < s₁.base.lib.handles := by
  constructor
  · intro c hc
    obtain ⟨hlt, m, hm, hopen, hmy⟩ := h.each c hc
    refine ⟨by rw [hr.objects]; omega, m, ?_, ?_, ?_⟩
    · rw [hr.cons c (by omega)]
      exact hm
    · rw [hr.connected]
      exact List.mem_append_right _ hopen
    · rw [hr.mysql m (h.bound m hopen)]
      exact hmy
  · intro m hm
    rw [hr.connected] at hm
    rcases List.mem_append.mp hm with hm | hm
    · rcases hr.own with rfl | hown
      · cases hm
      · rw [Option.mem_toList, hown] at hm
        exact (hr.fresh m hm).2
    · exact Nat.lt_of_lt_of_le (h.bound m hm) hr.handles

/-- A round that keeps its connection. -/
theorem kept (h : Built p s₀ s l cs) (hr : Run s.objects s l r (some m) s₁ l₁) (hk : r.Kept)
    (hserver : (s₁.base.lib.mysql m).server = some p) (hdb : (s₁.base.lib.mysql m).db = p.db) :
    Built p s₀ (s₁.withVector (s₁.base.cons.m_VectorCon ++ [s.objects]))
      (⟨.pushBack s.objects, ()⟩ :: l₁) (cs ++ [s.objects]) := by
  obtain ⟨heach, hbound⟩ := h.frame hr
  have hrounds : rounds (⟨.pushBack s.objects, ()⟩ :: l₁) = r :: rounds l := by
    simp [rounds, hr.rounds, Round.note]
  have hm := (hr.own.resolve_left nofun).symm
  refine ⟨?_, ?_, hbound, by simp, ?_, ?_, ?_, ?_, hr.pool.trans h.pool, hr.worker.trans h.worker⟩
  · show s₁.base.cons.m_VectorCon ++ [s.objects] = _
    rw [hr.vector, h.vector, List.append_assoc]
  · intro c hc
    rcases List.mem_append.mp hc with hc | hc
    · exact heach c hc
    · rw [List.mem_singleton] at hc
      subst hc
      refine ⟨?_, m, hm, ?_, hserver, hdb⟩
      · show s.objects < s₁.objects
        rw [hr.objects]
        omega
      · show m ∈ connected l₁
        rw [hr.connected]
        exact List.mem_cons_self
  · rw [hrounds, List.forall_mem_cons, List.length_append, List.length_singleton, List.length_cons,
      Nat.add_right_cancel_iff, h.allKept]
    exact ⟨fun hall => ⟨hk, hall⟩, fun hall => hall.2⟩
  · rw [hrounds, List.forall_mem_cons]
    exact ⟨fun hnil => by simp at hnil, fun hall => absurd hk hall.1⟩
  · have hle := h.le
    rw [hrounds, List.length_append, List.length_singleton, List.length_cons]
    omega
  · rw [hrounds, List.forall_mem_cons]
    refine ⟨fun hu => ?_, h.reached⟩
    have hok := hk.2
    rw [hu.2.2] at hok
    cases hok

/-- A round that gives its connection up. -/
theorem skipped (h : Built p s₀ s l cs) (hr : Run s.objects s l r none s₁ l₁) (hk : ¬ r.Kept)
    (hu : ¬ r.Unreached) : Built p s₀ s₁ (⟨.deleteCon s.objects, ()⟩ :: l₁) cs := by
  obtain ⟨heach, hbound⟩ := h.frame hr
  have hrounds : rounds (⟨.deleteCon s.objects, ()⟩ :: l₁) = r :: rounds l := by
    simp [rounds, hr.rounds, Round.note]
  refine ⟨hr.vector.trans h.vector, heach, hbound, fun hcs => hr.connected.trans (h.only hcs), ?_, ?_,
    ?_, ?_, hr.pool.trans h.pool, hr.worker.trans h.worker⟩
  · have hle := h.le
    rw [hrounds, List.forall_mem_cons, List.length_cons]
    exact ⟨fun he => by omega, fun hall => absurd hall.1 hk⟩
  · rw [hrounds, List.forall_mem_cons, h.noneKept]
    exact ⟨fun hnone => ⟨hk, hnone⟩, fun hnone => hnone.2⟩
  · have hle := h.le
    rw [hrounds, List.length_cons]
    omega
  · rw [hrounds, List.forall_mem_cons]
    exact ⟨hu, h.reached⟩

end Built

/-- How the loop ends: all of its rounds have been built, or the last one has failed. -/
def LoopEnd (p : ConnParams) (n : Nat) (s₀ : Startup) (a : Bool) (s : Startup) (l : InitTrace) :
    Prop :=
  (a = true ∧ ∃ cs, Built p s₀ s l cs ∧ (rounds l).length = n) ∨
    (a = false ∧ ∃ s₁ l₁ cs c r own, Built p s₀ s₁ l₁ cs ∧ Run c s₁ l₁ r own s l ∧ ¬ r.Kept ∧
      (r.Unreached ↔ own = none))

/-- **Run lemma.** The rounds that are left, one after the other. -/
theorem connectAll_always {s₀ : Startup} {cs : List Nat} {n k : Nat} (h : Built p s₀ s l cs)
    (hn : (rounds l).length + k = n) :
    (CXEMySql.connectAll p k).Always (Startup.exec rt t) s l
      fun a s₁ l₁ => LoopEnd p n s₀ a s₁ l₁ := by
  induction k generalizing s l cs with
  | zero => exact Prog.always_ret (Or.inl ⟨rfl, cs, h, hn⟩)
  | succ k ih =>
    refine (connectOne_always h.bound).bind fun x s₁ l₁ hend => ?_
    cases hend with
    | @kept r m _ _ hr hk hserver hdb =>
      refine Prog.always_op (fun _ _ he => nomatch he) fun o s₂ _ he => ?_
      cases he
      have hb := h.kept hr hk hserver hdb
      refine ih hb ?_
      simp only [rounds, hr.rounds, List.length_cons]
      omega
    | @skipped r own _ _ hr hk hu =>
      refine (hr.close h.bound).bind ?_
      rintro _ s₂ l₂ ⟨hr, -⟩
      refine Prog.always_op (fun _ _ he => nomatch he) fun o s₃ _ he => ?_
      cases he
      refine ih (h.skipped hr hk hu) ?_
      simp only [rounds, hr.rounds, List.length_cons]
      omega
    | @failed r own _ _ hr hk hu =>
      exact Prog.always_ret (Or.inr ⟨rfl, s, l, cs, s.objects, r, own, h, hr, hk, hu⟩)

/-! ## The whole -/

/-- The patterns for which it is so: every round keeps its connection; or none does, and the last
one ends at the database `test`, which cannot be connected to. -/
def CleanPattern (rs : List Round) : Prop :=
  (∀ r ∈ rs, r.Kept) ∨ ∃ r rs', rs = r :: rs' ∧ r.Unreached ∧ ∀ r' ∈ rs', ¬ r'.Kept

/-- Rounds that have all been built. -/
theorem Built.complete_iff {s₀ s' : Startup} {cs : List Nat} {n : Nat} (h : Built p s₀ s l cs)
    (hn : (rounds l).length = n) (hcons : s'.base.cons = s.base.cons) (hlib : s'.base.lib = s.base.lib)
    {l' : InitTrace} (hl : connected l' = connected l) (hpool : s'.m_pMySqlTaskPool.isSome)
    (hworker : s'.m_pWorker.isSome) : Complete p n s₀ s' l' ↔ CleanPattern (rounds l) := by
  constructor
  · rintro ⟨⟨cs', hv, hlen, -⟩, -, -⟩
    rw [hcons, h.vector, List.append_cancel_left_eq] at hv
    subst hv
    exact Or.inl (h.allKept.mp (hlen.trans hn.symm))
  · rintro (hall | ⟨r, rs', hrs, hu, -⟩)
    · refine ⟨⟨cs, by rw [hcons, h.vector], (h.allKept.mpr hall).trans hn, fun c hc => ?_⟩, hpool,
        hworker⟩
      rw [hcons, hlib, hl]
      exact (h.each c hc).2
    · exact absurd hu (h.reached r (by rw [hrs]; exact List.mem_cons_self))

/-- A round that has failed. -/
theorem Built.undone_iff {s₀ s₁ : Startup} {l₁ : InitTrace} {cs : List Nat} {c : Nat} {r : Round}
    {own : Option Nat} (h : Built p s₀ s l cs) (hr : Run c s l r own s₁ l₁) (hk : ¬ r.Kept)
    (hu : r.Unreached ↔ own = none) : Undone s₀ s₁ l₁ ↔ CleanPattern (rounds l₁) := by
  unfold CleanPattern
  rw [hr.rounds]
  constructor
  · rintro ⟨hv, -, -, hclosed⟩
    rw [hr.vector, h.vector, List.append_right_eq_self] at hv
    rw [hr.connected, List.append_eq_nil_iff, Option.toList_eq_nil_iff] at hclosed
    exact Or.inr ⟨r, rounds l, rfl, hu.mpr hclosed.1, h.noneKept.mp hv⟩
  · rintro (hall | ⟨r', rs', hrs, hu', hnone⟩)
    · exact absurd (hall r List.mem_cons_self) hk
    · cases hrs
      have hcs := h.noneKept.mpr hnone
      refine ⟨?_, hr.pool.trans h.pool, hr.worker.trans h.worker, ?_⟩
      · rw [hr.vector, h.vector, hcs, List.append_nil]
      · rw [hr.connected, hu.mp hu', h.only hcs]
        rfl

end

/-- **When `Initialize` is all or nothing**, for every number of connections and whatever the library
answers. -/
theorem allOrNothing_iff {rt : Runtime} {t : Tid} {p : ConnParams} {n jobCount : Nat}
    {s s' : Startup} {a : Bool} {l : InitTrace}
    (h : (CXEMySql.Initialize p n jobCount).Runs (Startup.exec rt t) s [] a s' l) :
    AllOrNothing p n s a s' l ↔ CleanPattern (rounds l) := by
  have hstart : Built p s s [] [] :=
    ⟨(List.append_nil _).symm, by simp, by simp [connected], fun _ => rfl, by simp [rounds],
      by simp [rounds], Nat.le_refl _, by simp [rounds], rfl, rfl⟩
  obtain ⟨ok, s₁, l₁, hloop, hrest⟩ := h.split
  unfold AllOrNothing
  rcases connectAll_always hstart (Nat.zero_add n) _ _ _ hloop with
    ⟨rfl, cs, hb, hn⟩ | ⟨rfl, s₂, l₂, cs, c, r, own, hb, hr, hk, hu⟩
  · -- the task pool and the worker
    cases hrest with
    | wait _ he => cases he
    | reply _ he hrest =>
      cases he
      cases hrest with
      | wait _ he => cases he
      | reply _ he hrest =>
        cases he
        cases hrest
        have hrounds : rounds (⟨.newWorker, ()⟩ :: ⟨.newTaskPool jobCount, ()⟩ :: l₁) = rounds l₁ := by
          cases hl : rounds l₁ <;> simp [rounds, hl, Round.note]
        rw [hrounds]
        simp only [forall_const, reduceCtorEq, false_implies, and_true]
        exact hb.complete_iff hn (by rfl) (by rfl) (by rfl) (by rfl) (by rfl)
  · cases hrest
    rw [← hb.undone_iff hr hk hu]
    simp

/-- The program before `Initialize`: no connections, and nothing has been made. -/
def Startup.fresh : Startup := { base := .small 0 0, objects := 0 }

/-- A run in which the only connection is made at once, and what is said of it. -/
theorem allOrNothing_one : ∃ s' l,
    (CXEMySql.Initialize ⟨[], [], [], [100], 3306⟩ 1 10).Runs (Startup.exec .standard (.client 0))
      .fresh [] true s' l ∧
    rounds l = [{ tries := [{ opened := true, ok := true }] }] ∧
    (AllOrNothing ⟨[], [], [], [100], 3306⟩ 1 .fresh true s' l ↔ CleanPattern (rounds l)) := by
  obtain ⟨s', l, hl, h⟩ : ∃ s' l, rounds l = [{ tries := [{ opened := true, ok := true }] }] ∧
      (CXEMySql.Initialize ⟨[], [], [], [100], 3306⟩ 1 10).Runs
        (Startup.exec .standard (.client 0)) .fresh [] true s' l :=
    ⟨_, _, rfl, .reply .success rfl
      -- `Connect`
      (.reply .success rfl (.reply .success rfl (.reply .success rfl (.reply .success rfl
        (.reply .success rfl (.reply .success rfl (.reply .success rfl
      (.reply .success rfl (.reply .success rfl (.reply .success rfl .ret))))))))))⟩
  exact ⟨s', l, h, hl, allOrNothing_iff h⟩

/-- Two connections are wanted. The first is made, and then the server is gone: `Initialize` returns
`false`, and the first connection is in the pool. -/
theorem half_done : ∃ s' l,
    (CXEMySql.Initialize ⟨[], [], [], [100], 3306⟩ 2 10).Runs (Startup.exec .standard (.client 0))
      .fresh [] false s' l ∧
    ¬ AllOrNothing ⟨[], [], [], [100], 3306⟩ 2 .fresh false s' l := by
  refine ⟨_, _, .reply .success rfl
    (.reply .success rfl (.reply .success rfl (.reply .success rfl (.reply .success rfl
      (.reply .success rfl (.reply .success rfl (.reply .success rfl
    (.reply .success rfl (.reply .success rfl
    -- the second `Connect` fails in `mysql_real_connect`, and so does the one to `test`
    (.reply .success rfl (.reply .success rfl (.reply .success rfl (.reply .success rfl
      (.reply { ok := false } rfl (.reply .success rfl
    (.reply .success rfl (.reply .success rfl (.reply .success rfl (.reply .success rfl
      (.reply .success rfl (.reply { ok := false } rfl (.reply .success rfl
        .ret)))))))))))))))))))))), fun h => ?_⟩
  exact absurd (h.2 rfl).vector (by decide)

end XeMySql
