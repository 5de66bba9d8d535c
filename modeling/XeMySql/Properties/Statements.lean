import XeMySql.Record
import XeMySql.Lib.Ledger
import XeMySql.Lib.Sequence

/-!
# The life of a prepared statement

The functions of one `CXEMySqlStmt` in any order and with any outcomes, and the destructor at the end.
`mysql_stmt_close` ends the statement even when it reports an error, but then `Reset` returns at once:
`m_pStmt` keeps the statement, and `m_pParams` the array.

* `reset_books` — the two ways in which `Reset` ends
* `Fair.code`, `Spoilt.code` — what one call leaves behind
* `statements_settled_iff` — which lives end with every statement closed once and every array freed once
* `closed_again` — a statement whose `mysql_stmt_close` has failed
-/

namespace XeMySql

open Interact Ledger

/-! ## Lives -/

/-- The public functions of `CXEMySqlStmt`; `SetSQL` may be given NULL. -/
inductive StmtCall where
  | setSQL (szSQL : Option Bytes)
  | setParam (index : Nat) (p : BlobParam)
  | bindParams
  | execute
  | reset

/-- Their code, on the object `x`; it returns what has become of it. -/
def StmtCall.code (x : CXEMySqlStmt) : StmtCall → Code CXEMySqlStmt
  | setSQL none => pure x
  | setSQL (some szSQL) => x.setSQL szSQL
  | setParam index p => x.setParam index p
  | bindParams => do
    let _ ← x.bindParams
    pure x
  | execute => do
    let _ ← x.execute
    pure x
  | reset => do
    let (x, _) ← x.reset
    pure x

/-- One call after the other. In between other code may run: it does with connections what it likes,
and what it gets from libmysql and from the heap is its own. -/
inductive StmtCalls (rt : Runtime) (t : Tid) : CXEMySqlStmt → State → Trace → List StmtCall →
    CXEMySqlStmt → State → Trace → Prop
  | nil {x s l} : StmtCalls rt t x s l [] x s l
  | cons {x s l x₁ s₁ l₁ calls x' s' l'} (call : StmtCall)
    (h : (call.code x).Runs (exec rt t) s l x₁ s₁ l₁)
    (hs : StmtCalls rt t x₁ s₁ l₁ calls x' s' l') : StmtCalls rt t x s l (call :: calls) x' s' l'
  | other {x s l s₁ calls x' s' l'} (hstmts : s.lib.stmts ≤ s₁.lib.stmts) (hheap : s.heap ≤ s₁.heap)
    (hs : StmtCalls rt t x s₁ l calls x' s' l') : StmtCalls rt t x s l calls x' s' l'

/-! ## The books of an object -/

/-- What an object owns: statements, and the arrays of their parameters. -/
inductive Resource where
  | stmt (st : Nat)
  | params (a : Nat)
deriving DecidableEq

/-- What an answer says of statements and arrays. `mysql_stmt_close` ends the statement, whatever it
answers. -/
def resourceDeal : Answer Op Op.Reply → Option (Deal Resource)
  | ⟨.lib (.stmtInit _), r⟩ => (r : Option Nat).map fun st => .acquire (.stmt st)
  | ⟨.lib (.stmtPrepare st _), _⟩ => some (.use (.stmt st))
  | ⟨.lib (.stmtParamCount st), _⟩ => some (.use (.stmt st))
  | ⟨.lib (.stmtBindParam st _), _⟩ => some (.use (.stmt st))
  | ⟨.lib (.stmtExecute st), _⟩ => some (.use (.stmt st))
  | ⟨.lib (.stmtClose st), _⟩ => some (.release (.stmt st))
  | ⟨.rt (.newBinds _), a⟩ => some (.acquire (.params a))
  | ⟨.rt (.deleteBinds a), _⟩ => some (.release (.params a))
  | _ => none

/-- The dealings with statements and arrays in a trace. -/
def resourceDeals (l : Trace) : List (Deal Resource) := l.filterMap resourceDeal

def failedClose : Answer Op Op.Reply → Option Nat
  | ⟨.lib (.stmtClose st), false⟩ => some st
  | _ => none

/-- The statements for which `mysql_stmt_close` has reported an error. -/
def failedCloses (l : Trace) : List Nat := l.filterMap failedClose

/-- The array that `m_pParams` points to. -/
def CXEMySqlStmt.array (x : CXEMySqlStmt) : List Resource :=
  (x.m_pParams.map fun p => Resource.params p.1).toList

/-- What the members of the object point to. -/
def CXEMySqlStmt.owned (x : CXEMySqlStmt) : List Resource :=
  (x.m_pStmt.map Resource.stmt).toList ++ x.array

/-- After the trace `l` just `live` is owned, and closing the statements `failed` has failed. -/
structure Books (failed : List Nat) (live : List Resource) (l : Trace) : Prop where
  ledger : Open (resourceDeals l) live
  closes : failedCloses l = failed

/-- Code with any answers, but what is new has not been there before. -/
abbrev Fresh : Discipline Op Op.Reply Trace :=
  .recording (fun _ _ => True) fun l e r =>
    ∀ x, resourceDeal ⟨e, r⟩ = some (.acquire x) → x ∉ acquired (resourceDeals l)

/-- A request that has nothing to do with the books. -/
def Unlisted (e : Op) : Prop := ∀ r, resourceDeal ⟨e, r⟩ = none ∧ failedClose ⟨e, r⟩ = none

section

variable {failed : List Nat} {live : List Resource} {l : Trace} {x : CXEMySqlStmt} {st : Nat}
  {α : Type}

/-- Code that has nothing to do with the books leaves them as they are. -/
theorem unlisted_books {p : Code α} (hp : p.Only Unlisted) : p.Follows Fresh l fun _ l' =>
    resourceDeals l' = resourceDeals l ∧ failedCloses l' = failedCloses l :=
  (hp.follows_filterMap (fun _ _ _ => trivial) fun _ r he => (he r).1).and
    (hp.follows_filterMap (fun _ _ _ => trivial) fun _ r he => (he r).2)

theorem Books.congr (h : Books failed live l) {l' : Trace}
    (hl : resourceDeals l' = resourceDeals l ∧ failedCloses l' = failedCloses l) :
    Books failed live l' :=
  ⟨by rw [hl.1]; exact h.ledger, by rw [hl.2]; exact h.closes⟩

theorem logError_unlisted (m : Nat) : (CXEMySqlStmt.logError m).Only Unlisted :=
  ⟨fun _ => ⟨rfl, rfl⟩, fun _ => ⟨fun _ => ⟨rfl, rfl⟩, fun _ => ⟨fun _ => ⟨rfl, rfl⟩, fun _ => trivial⟩⟩⟩

/-- **`Reset`** leaves nothing, or it stops at a `mysql_stmt_close` that fails. -/
theorem reset_books (h : Books failed x.owned l) : x.reset.Follows Fresh l fun y l' =>
    (y = ({ m_pCon := x.m_pCon }, true) ∧ Books failed [] l') ∨
      y = (x, false) ∧ ∃ st, x.m_pStmt = some st ∧ Books (st :: failed) x.array l' ∧
        .stmt st ∈ released (resourceDeals l') := by
  obtain ⟨con, st, n, ps⟩ := x
  cases st with
  | none =>
    rcases ps with _ | ⟨a, bs⟩
    · exact Or.inl ⟨rfl, h⟩
    · exact ⟨trivial, fun _ _ => Or.inl ⟨rfl, h.ledger.release, h.closes⟩⟩
  | some st =>
    refine ⟨trivial, fun ok _ => ?_⟩
    have hledger : Open (resourceDeals (⟨.lib (.stmtClose st), ok⟩ :: l))
      (CXEMySqlStmt.array ⟨con, some st, n, ps⟩) := h.ledger.release
    cases ok with
    | true =>
      rcases ps with _ | ⟨a, bs⟩
      · exact Or.inl ⟨rfl, hledger, h.closes⟩
      · exact ⟨trivial, fun _ _ => Or.inl ⟨rfl, hledger.release, h.closes⟩⟩
    | false =>
      have hbooks : Books (st :: failed) (CXEMySqlStmt.array ⟨con, some st, n, ps⟩)
        (⟨.lib (.stmtClose st), false⟩ :: l) := ⟨hledger, congrArg (st :: ·) h.closes⟩
      have hrel : .stmt st ∈ released (resourceDeals (⟨.lib (.stmtClose st), false⟩ :: l)) :=
        List.mem_cons_self
      -- nothing but the log comes after it
      refine ⟨trivial, fun m _ => ?_⟩
      cases m with
      | none => exact Or.inr ⟨rfl, st, rfl, hbooks.congr ⟨rfl, rfl⟩, hrel⟩
      | some m =>
        simp only [Prog.bind_ret]
        refine (unlisted_books (logError_unlisted m)).bind fun _ l' hl' => Or.inr ⟨rfl, st, rfl, ?_⟩
        exact ⟨(hbooks.congr ⟨rfl, rfl⟩).congr hl', by rw [hl'.1]; exact hrel⟩

namespace CXEMySqlStmt

/-! ## Before a `mysql_stmt_close` fails -/

/-- None has failed, and just what the members point to is owned. -/
def Fair (x : CXEMySqlStmt) (l : Trace) : Prop := Books [] x.owned l

/-- One has failed, and the statement has been touched again. -/
structure Broken (l : Trace) : Prop where
  failed : failedCloses l ≠ []
  unclean : ¬ Clean (resourceDeals l)

/-- One has failed, and `m_pStmt` still points to the statement if this has not been touched again. -/
def Spoilt (x : CXEMySqlStmt) (l : Trace) : Prop :=
  Broken l ∨ failedCloses l ≠ [] ∧ ∃ st, x.m_pStmt = some st ∧ .stmt st ∈ released (resourceDeals l)

/-- Closing the statement has failed, and `m_pStmt` still points to it. -/
theorem Spoilt.of_failed {failed : List Nat} (hst : x.m_pStmt = some st)
    (h : Books (st :: failed) live l) (hrel : .stmt st ∈ released (resourceDeals l)) : x.Spoilt l := by
  refine Or.inr ⟨?_, st, hst, hrel⟩
  rw [h.closes]
  exact List.cons_ne_nil _ _

theorem Fair.setSQL (h : x.Fair l) (szSQL : Bytes) :
    (x.setSQL szSQL).Follows Fresh l fun y l' => y.Fair l' ∨ y.Spoilt l' := by
  refine ⟨trivial, fun m _ => ?_⟩
  cases m with
  | none => exact Or.inl (h.congr ⟨rfl, rfl⟩)
  | some m =>
    have h : Books [] x.owned (⟨.con (.getMySql x.m_pCon), some m⟩ :: l) := h.congr ⟨rfl, rfl⟩
    simp only [Prog.bind_ret]
    refine (reset_books h).bind ?_
    rintro ⟨y, ok⟩ l (⟨hy, h⟩ | ⟨hy, st, hst, h, hrel⟩)
    · cases hy
      refine ⟨trivial, fun st hst => ?_⟩
      cases st with
      | none =>
        simp only [Prog.bind_ret]
        refine (unlisted_books (logError_unlisted m)).bind fun _ l' hl' => Or.inl ?_
        exact (h.congr ⟨rfl, rfl⟩).congr hl'
      | some st =>
        have h : Books [] [.stmt st] (⟨.lib (.stmtInit m), some st⟩ :: l) :=
          ⟨h.ledger.acquire (hst _ rfl), h.closes⟩
        refine ⟨trivial, fun ok _ => ?_⟩
        have h : Books [] [.stmt st] (⟨.lib (.stmtPrepare st szSQL), ok⟩ :: _) :=
          ⟨h.ledger.use List.mem_cons_self, h.closes⟩
        cases ok with
        | false =>
          exact ⟨trivial, fun _ _ => ⟨trivial, fun _ _ => ⟨trivial, fun _ _ =>
            Or.inl (h.congr ⟨rfl, rfl⟩)⟩⟩⟩
        | true =>
          refine ⟨trivial, fun n _ => ?_⟩
          have h : Books [] [.stmt st] (⟨.lib (.stmtParamCount st), n⟩ :: _) :=
            ⟨h.ledger.use List.mem_cons_self, h.closes⟩
          by_cases hn : 0 < n
          · simp only [Prog.bind_ret, hn, if_true]
            refine ⟨trivial, fun a ha => Or.inl ⟨?_, h.closes⟩⟩
            exact (h.ledger.acquire (ha _ rfl)).of_perm (List.Perm.swap _ _ [])
          · simp only [Prog.bind_ret, hn, if_false]
            exact Or.inl h
    · cases hy
      exact Or.inr (.of_failed hst h hrel)

theorem setParam_owned (x : CXEMySqlStmt) (index : Nat) (p : BlobParam) :
    (x.setParam index p).Follows Fresh l fun y l' => y.m_pStmt = x.m_pStmt ∧ y.owned = x.owned ∧
      resourceDeals l' = resourceDeals l ∧ failedCloses l' = failedCloses l := by
  obtain ⟨con, st, n, ps⟩ := x
  refine ⟨trivial, fun m _ => ?_⟩
  rcases st with _ | st
  · exact ⟨rfl, rfl, rfl, rfl⟩
  · rcases m with _ | m
    · exact ⟨rfl, rfl, rfl, rfl⟩
    · by_cases hi : index < n
      · simp only [Prog.bind_ret, hi, if_true]
        refine ⟨rfl, ?_, rfl, rfl⟩
        cases ps <;> rfl
      · simp only [Prog.bind_ret, hi, if_false]
        exact ⟨rfl, rfl, rfl, rfl⟩

theorem Fair.attempt (h : x.Fair l) {call : Nat → Code Bool}
    (hcall : ∀ st l, Books [] x.owned l → .stmt st ∈ x.owned →
      (call st).Follows Fresh l fun _ l' => Books [] x.owned l') :
    (x.attempt call).Follows Fresh l fun _ l' => x.Fair l' := by
  obtain ⟨con, st, n, ps⟩ := x
  refine ⟨trivial, fun m _ => ?_⟩
  rcases st with _ | st
  · exact h.congr ⟨rfl, rfl⟩
  · rcases m with _ | m
    · exact h.congr ⟨rfl, rfl⟩
    · have h : Fair ⟨con, some st, n, ps⟩ (⟨.con (.getMySql con), some m⟩ :: l) :=
        h.congr ⟨rfl, rfl⟩
      simp only [Prog.bind_ret]
      refine (hcall st _ h List.mem_cons_self).bind fun ok l h => ?_
      cases ok with
      | true => exact h
      | false => exact (unlisted_books (logError_unlisted m)).bind fun _ l' hl' => h.congr hl'

theorem Fair.bindParams (h : x.Fair l) : x.bindParams.Follows Fresh l fun _ l' => x.Fair l' := by
  rw [bindParams_eq]
  refine h.attempt fun st l h hst => ?_
  exact ⟨trivial, fun _ _ => ⟨h.ledger.use hst, h.closes⟩⟩

theorem Fair.execute (h : x.Fair l) : x.execute.Follows Fresh l fun _ l' => x.Fair l' := by
  rw [execute_eq]
  refine h.attempt fun st l h hst => ?_
  exact ⟨trivial, fun _ _ => ⟨h.ledger.use hst, h.closes⟩⟩

/-- **One call** on an object that is fair. -/
theorem Fair.code (h : x.Fair l) (call : StmtCall) :
    (call.code x).Follows Fresh l fun y l' => y.Fair l' ∨ y.Spoilt l' := by
  cases call with
  | setSQL szSQL =>
    cases szSQL with
    | none => exact Or.inl h
    | some szSQL => exact h.setSQL szSQL
  | setParam index p =>
    refine (setParam_owned x index p).mono ?_
    rintro y l' ⟨-, hy, hl'⟩
    refine Or.inl ?_
    unfold Fair
    rw [hy]
    exact h.congr hl'
  | bindParams => exact h.bindParams.bind fun _ _ h => Or.inl h
  | execute => exact h.execute.bind fun _ _ h => Or.inl h
  | reset =>
    refine (reset_books h).bind ?_
    rintro ⟨y, ok⟩ l' (⟨hy, h⟩ | ⟨hy, st, hst, h, hrel⟩)
    · cases hy
      exact Or.inl h
    · cases hy
      exact Or.inr (.of_failed hst h hrel)

/-! ## After a `mysql_stmt_close` has failed -/

theorem Spoilt.congr (h : x.Spoilt l) {y : CXEMySqlStmt} {l' : Trace} (hy : y.m_pStmt = x.m_pStmt)
    (hl : resourceDeals l' = resourceDeals l ∧ failedCloses l' = failedCloses l) : y.Spoilt l' := by
  rcases h with h | ⟨hf, st, hst, hrel⟩
  · exact Or.inl ⟨by rw [hl.2]; exact h.failed, by rw [hl.1]; exact h.unclean⟩
  · refine Or.inr ⟨by rw [hl.2]; exact hf, st, hy.trans hst, ?_⟩
    rw [hl.1]
    exact hrel

/-- What has been done wrong stays in the trace. -/
theorem Broken.follows (h : Broken l) (p : Code α) : p.Follows Fresh l fun _ l' => Broken l' := by
  refine (Prog.follows_true fun _ _ => trivial).grows.mono fun _ l' hl' => ?_
  constructor
  · intro hnil
    have hsub : failedCloses l <:+ failedCloses l' := hl'.2.filterMap _
    rw [hnil] at hsub
    exact h.failed (List.suffix_nil.mp hsub)
  · intro hc
    exact h.unclean (hc.of_suffix hl'.2)

/-- The statement is touched again. -/
theorem broken_of_touch {e : Op} {k : e.Reply → Code α} (hf : failedCloses l ≠ [])
    (hrel : .stmt st ∈ released (resourceDeals l))
    (hd : ∀ r, resourceDeal ⟨e, r⟩ = some (.use (.stmt st)) ∨
      resourceDeal ⟨e, r⟩ = some (.release (.stmt st))) :
    (Prog.op e k : Code α).Follows Fresh l fun _ l' => Broken l' := by
  refine ⟨trivial, fun r _ => Broken.follows ⟨fun hnil => ?_, fun hc => ?_⟩ _⟩
  · have hsub : failedCloses l <:+ failedCloses (⟨e, r⟩ :: l) :=
      (List.suffix_cons _ l).filterMap _
    have hnil : failedCloses (⟨e, r⟩ :: l) = [] := hnil
    rw [hnil] at hsub
    exact hf (List.suffix_nil.mp hsub)
  · rw [Discipline.recording_next, resourceDeals] at hc
    rcases hd r with hd | hd <;> rw [List.filterMap_cons, hd] at hc <;> exact hc.1 hrel

/-- **`Reset`** closes it once more. -/
theorem Spoilt.reset (h : x.Spoilt l) : x.reset.Follows Fresh l fun _ l' => Broken l' := by
  rcases h with h | ⟨hf, st, hst, hrel⟩
  · exact h.follows _
  · unfold CXEMySqlStmt.reset
    rw [hst]
    exact broken_of_touch hf hrel fun _ => Or.inr rfl

theorem Spoilt.attempt (h : x.Spoilt l) {call : Nat → Code Bool}
    (hcall : ∀ st l, failedCloses l ≠ [] → .stmt st ∈ released (resourceDeals l) →
      (call st).Follows Fresh l fun _ l' => Broken l') :
    (x.attempt call).Follows Fresh l fun _ l' => x.Spoilt l' := by
  rcases h with h | ⟨hf, st, hst, hrel⟩
  · exact (h.follows _).mono fun _ _ h => Or.inl h
  · obtain ⟨con, _, n, ps⟩ := x
    cases hst
    refine ⟨trivial, fun m _ => ?_⟩
    cases m with
    | none => exact Or.inr ⟨hf, st, rfl, hrel⟩
    | some m =>
      have hl : failedCloses (⟨.con (.getMySql con), some m⟩ :: l) ≠ [] := hf
      simp only [Prog.bind_ret]
      exact (hcall st _ hl hrel).bind fun _ _ h => (h.follows _).mono fun _ _ h => Or.inl h

/-- **One call** on an object that is not. -/
theorem Spoilt.code (h : x.Spoilt l) (call : StmtCall) :
    (call.code x).Follows Fresh l fun y l' => y.Spoilt l' := by
  cases call with
  | setSQL szSQL =>
    cases szSQL with
    | none => exact h
    | some szSQL =>
      refine ⟨trivial, fun m _ => ?_⟩
      cases m with
      | none => exact h.congr rfl ⟨rfl, rfl⟩
      | some m =>
        have h : x.Spoilt (⟨.con (.getMySql x.m_pCon), some m⟩ :: l) := h.congr rfl ⟨rfl, rfl⟩
        simp only [Prog.bind_ret]
        refine h.reset.bind fun _ _ h => ?_
        exact (h.follows _).mono fun _ _ h => Or.inl h
  | setParam index p =>
    refine (setParam_owned x index p).mono ?_
    rintro y l' ⟨hy, -, hl'⟩
    exact h.congr hy hl'
  | bindParams =>
    refine Prog.Follows.bind (P := fun _ l' => x.Spoilt l') ?_ fun _ _ h => h
    rw [bindParams_eq]
    refine h.attempt fun st l hf hrel => ?_
    exact broken_of_touch hf hrel fun _ => Or.inl rfl
  | execute =>
    refine Prog.Follows.bind (P := fun _ l' => x.Spoilt l') ?_ fun _ _ h => h
    rw [execute_eq]
    refine h.attempt fun st l hf hrel => ?_
    exact broken_of_touch hf hrel fun _ => Or.inl rfl
  | reset => exact h.reset.bind fun _ _ h => Or.inl h

end CXEMySqlStmt

end

/-! ## Runs -/

/-- It has been handed out by libmysql or the heap of `s`. -/
def Resource.Known (s : State) : Resource → Prop
  | stmt st => st < s.lib.stmts
  | params a => a < s.heap

def AllKnown (s : State) (l : Trace) : Prop := ∀ x ∈ acquired (resourceDeals l), x.Known s

section

variable {rt : Runtime} {t : Tid} {o : Outcome} {s s₁ s' : State} {l l' : Trace} {α : Type}

theorem Resource.Known.mono {x : Resource} (h : x.Known s) (hstmts : s.lib.stmts ≤ s₁.lib.stmts)
    (hheap : s.heap ≤ s₁.heap) : x.Known s₁ := by
  cases x with
  | stmt st => exact Nat.lt_of_lt_of_le h hstmts
  | params a => exact Nat.lt_of_lt_of_le h hheap

/-- What has been handed out stays so. -/
theorem exec_counts {e : Op} {r : Option e.Reply} (he : exec rt t e o s = some (s₁, r)) :
    s.lib.stmts ≤ s₁.lib.stmts ∧ s.heap ≤ s₁.heap := by
  cases e with
  | lib e =>
    obtain ⟨rfl, -⟩ := exec_lib he
    exact ⟨(s.lib.exec_grows e o).stmts, Nat.le_refl _⟩
  | rt e =>
    obtain ⟨heap, hheap, rfl⟩ := exec_rt he
    refine ⟨Nat.le_refl _, ?_⟩
    show s.heap ≤ heap
    cases e with
    | vsnprintf n fmt args =>
      simp only [RtOp.exec] at hheap
      split at hheap <;> cases hheap <;> exact Nat.le_refl _
    | newBinds n =>
      cases hheap
      exact Nat.le_succ _
    | crash => cases hheap
    | _ =>
      cases hheap
      exact Nat.le_refl _
  | tp e =>
    obtain ⟨x, -, rfl⟩ := exec_tp he
    exact ⟨Nat.le_refl _, Nat.le_refl _⟩
  | task e =>
    obtain ⟨x, -, rfl⟩ := exec_task he
    exact ⟨Nat.le_refl _, Nat.le_refl _⟩
  | con e =>
    obtain ⟨x, -, rfl⟩ := exec_con he
    exact ⟨Nat.le_refl _, Nat.le_refl _⟩
  | res e =>
    obtain ⟨x, -, rfl⟩ := exec_res he
    exact ⟨Nat.le_refl _, Nat.le_refl _⟩

/-- What is handed out is new. -/
theorem exec_acquires {e : Op} {r : e.Reply} (he : exec rt t e o s = some (s₁, some r)) {x : Resource}
    (hx : resourceDeal ⟨e, r⟩ = some (.acquire x)) : ¬ x.Known s ∧ x.Known s₁ := by
  cases e with
  | lib e =>
    obtain ⟨rfl, hr⟩ := exec_lib he
    cases e with
    | stmtInit h =>
      cases hr
      by_cases ho : o.ok = true
      · simp only [LibMySql.exec, ho, if_true] at hx ⊢
        cases hx
        exact ⟨Nat.lt_irrefl _, Nat.lt_succ_self _⟩
      · simp only [LibMySql.exec, ho] at hx
        cases hx
    | _ => cases hx
  | rt e =>
    obtain ⟨heap, hheap, rfl⟩ := exec_rt he
    cases e with
    | newBinds n =>
      cases hheap
      cases hx
      exact ⟨Nat.lt_irrefl _, Nat.lt_succ_self _⟩
    | _ => cases hx
  | _ => cases hx

/-- **What holds of code with fresh answers holds of its runs.** -/
theorem AllKnown.runs {p : Code α} {a : α} {Q : α → Trace → Prop} (hs : AllKnown s l)
    (hp : p.Follows Fresh l Q) (h : p.Runs (exec rt t) s l a s' l') : Q a l' ∧ AllKnown s' l' := by
  refine h.follows (I := AllKnown) ?_ ?_ hs hp
  · intro l e o s s₁ r _ hs he
    have hstay : AllKnown s₁ l := by
      intro x hx
      exact (hs x hx).mono (exec_counts he).1 (exec_counts he).2
    refine ⟨fun x hx hmem => (exec_acquires he hx).1 (hs x hmem), ?_⟩
    cases hd : resourceDeal ⟨e, r⟩ with
    | none =>
      intro x hx
      rw [resourceDeals, List.filterMap_cons_none hd] at hx
      exact hstay x hx
    | some d =>
      intro x hx
      rw [resourceDeals, List.filterMap_cons_some hd] at hx
      cases d with
      | acquire y =>
        rcases List.mem_cons.mp hx with rfl | hx
        · exact (exec_acquires he hd).2
        · exact hstay x hx
      | use y => exact hstay x hx
      | release y => exact hstay x hx
  · intro l e o s s₁ _ hs he x hx
    exact (hs x hx).mono (exec_counts he).1 (exec_counts he).2

open CXEMySqlStmt

/-- **Whole lives**, up to the destructor. -/
theorem StmtCalls.fair_or_spoilt {x x' : CXEMySqlStmt} {calls : List StmtCall}
    (hcalls : StmtCalls rt t x s l calls x' s' l') (hs : AllKnown s l)
    (h : x.Fair l ∨ x.Spoilt l) : (x'.Fair l' ∨ x'.Spoilt l') ∧ AllKnown s' l' := by
  induction hcalls with
  | nil => exact ⟨h, hs⟩
  | @cons x _ l _ _ _ _ _ _ _ call hrun _ ih =>
    have hcode : (call.code x).Follows Fresh l fun y l' => y.Fair l' ∨ y.Spoilt l' := by
      rcases h with h | h
      · exact h.code call
      · exact (h.code call).mono fun _ _ h => Or.inr h
    obtain ⟨h₁, hs₁⟩ := hs.runs hcode hrun
    exact ih hs₁ h₁
  | other hstmts hheap _ ih =>
    refine ih ?_ h
    intro x hx
    exact (hs x hx).mono hstmts hheap

end

/-- **Every statement is closed exactly once and not used afterwards, and every array is freed exactly
once, exactly when no `mysql_stmt_close` fails before the destructor, and the one in the destructor
does not either unless there is no array.** -/
theorem statements_settled_iff {rt : Runtime} {t : Tid} {c : Nat} {s s₁ s₂ : State}
    {x₁ : CXEMySqlStmt} {y : CXEMySqlStmt × Bool} {calls : List StmtCall} {l₁ l₂ : Trace}
    (hcalls : StmtCalls rt t { m_pCon := c } s [] calls x₁ s₁ l₁)
    (hend : x₁.reset.Runs (exec rt t) s₁ l₁ y s₂ l₂) :
    Settled (resourceDeals l₂) ↔
      failedCloses l₁ = [] ∧ (failedCloses l₂ = [] ∨ x₁.m_pParams = none) := by
  have hnew : CXEMySqlStmt.Fair { m_pCon := c } [] := ⟨Open.nil, rfl⟩
  obtain ⟨h | h, hs⟩ := hcalls.fair_or_spoilt (fun x hx => by cases hx) (Or.inl hnew)
  · obtain ⟨⟨-, h₂⟩ | ⟨-, st, -, h₂, -⟩, -⟩ := hs.runs (reset_books h) hend
    · exact iff_of_true h₂.ledger.settled ⟨h.closes, Or.inl h₂.closes⟩
    · rw [h₂.ledger.settled_iff_nil, h.closes, h₂.closes]
      simp [CXEMySqlStmt.array]
  · obtain ⟨hbroken, -⟩ := hs.runs h.reset hend
    refine iff_of_false ?_ ?_
    · intro hsettled
      exact hbroken.unclean hsettled.1
    · intro hc
      rcases h with h | ⟨hf, -⟩
      · exact h.failed hc.1
      · exact hf hc.1

/-- The destructor runs to its end. -/
theorem reset_runs (rt : Runtime) (t : Tid) (c st n a : Nat) (binds : List MYSQL_BIND) (s : State)
    (l : Trace) : ∃ y s' l',
      (CXEMySqlStmt.reset ⟨c, some st, n, some (a, binds)⟩).Runs (exec rt t) s l y s' l' :=
  ⟨_, _, _, .reply .success rfl (.reply .success rfl .ret)⟩

/-- A statement with a placeholder that is set and destroyed. -/
theorem settled_of_setSQL : ∃ y s₁ s₂ l₁ l₂,
    StmtCalls .standard (.client 0) { m_pCon := 0 } (.small 1 0) [] [.setSQL (some [113])]
      ⟨0, some 0, 1, some (0, [{}])⟩ s₁ l₁ ∧
    (CXEMySqlStmt.reset ⟨0, some 0, 1, some (0, [{}])⟩).Runs (exec .standard (.client 0)) s₁ l₁
      y s₂ l₂ ∧
    (Settled (resourceDeals l₂) ↔ failedCloses l₁ = [] ∧ (failedCloses l₂ = [] ∨
      (⟨0, some 0, 1, some (0, [{}])⟩ : CXEMySqlStmt).m_pParams = none)) := by
  obtain ⟨s₁, l₁, hcalls⟩ : ∃ s₁ l₁, StmtCalls .standard (.client 0) { m_pCon := 0 } (.small 1 0) []
      [.setSQL (some [113])] ⟨0, some 0, 1, some (0, [{}])⟩ s₁ l₁ :=
    ⟨_, _, .cons (.setSQL _) (.reply .success rfl (.reply .success rfl (.reply { number := 1 } rfl
      (.reply .success rfl (.reply .success rfl .ret))))) .nil⟩
  obtain ⟨y, s₂, l₂, hend⟩ := reset_runs .standard (.client 0) 0 0 1 0 [{}] s₁ l₁
  exact ⟨y, s₁, s₂, l₁, l₂, hcalls, hend, statements_settled_iff hcalls hend⟩

/-- `mysql_stmt_close` fails in `Reset`. The destructor closes the statement once more. -/
theorem closed_again : ∃ y s₁ s₂ l₁ l₂,
    StmtCalls .standard (.client 0) { m_pCon := 0 } (.small 1 0) [] [.setSQL (some [113]), .reset]
      ⟨0, some 0, 1, some (0, [{}])⟩ s₁ l₁ ∧
    (CXEMySqlStmt.reset ⟨0, some 0, 1, some (0, [{}])⟩).Runs (exec .standard (.client 0)) s₁ l₁
      y s₂ l₂ ∧ ¬ Settled (resourceDeals l₂) := by
  obtain ⟨s₁, l₁, hcalls, hfailed⟩ : ∃ s₁ l₁, StmtCalls .standard (.client 0) { m_pCon := 0 }
      (.small 1 0) [] [.setSQL (some [113]), .reset] ⟨0, some 0, 1, some (0, [{}])⟩ s₁ l₁ ∧
      failedCloses l₁ = [0] :=
    ⟨_, _, .cons (.setSQL _) (.reply .success rfl (.reply .success rfl (.reply { number := 1 } rfl
        (.reply .success rfl (.reply .success rfl .ret)))))
      -- `mysql_stmt_close` fails, and this is logged
      (.cons .reset (.reply { ok := false } rfl (.reply .success rfl (.reply .success rfl
        (.reply .success rfl (.reply .success rfl .ret))))) .nil), by rfl⟩
  obtain ⟨y, s₂, l₂, hend⟩ := reset_runs .standard (.client 0) 0 0 1 0 [{}] s₁ l₁
  refine ⟨y, s₁, s₂, l₁, l₂, hcalls, hend, fun hsettled => ?_⟩
  have hnew : CXEMySqlStmt.Fair { m_pCon := 0 } [] := ⟨Open.nil, rfl⟩
  obtain ⟨h | h, hs⟩ := hcalls.fair_or_spoilt (fun x hx => by cases hx) (Or.inl hnew)
  · have hnone := h.closes
    rw [hfailed] at hnone
    cases hnone
  · exact (hs.runs h.reset hend).1.unclean hsettled.1

end XeMySql
