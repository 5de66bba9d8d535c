import XeMySql.Record
import XeMySql.Lib.Sequence

/-!
# What a prepared statement is executed with

`CXEMySql::Query (cmd, DB_BLOB *pData)` takes the number of placeholders from libmysql and the number of
parameters from the blob, and never compares the two. `SetParam` ignores a parameter for which there is
no placeholder, and a placeholder without a parameter keeps what the heap has left in its `MYSQL_BIND`.

* `setAll_replicate` — what the loop over the parameters leaves in the array
* `queryBlobOn_binds` — how a call ends, however it is answered
* `binds_iff` — when every placeholder is bound
-/

namespace XeMySql

open Interact

/-! ## Statements in a trace -/

/-- What a call does with a prepared statement. -/
inductive StmtEvent where
  | count (st p : Nat)
  | bind (st : Nat) (binds : List MYSQL_BIND) (ok : Bool)
  | execute (st : Nat) (ok : Bool)
deriving DecidableEq

def stmtEvent : Answer Op Op.Reply → Option StmtEvent
  | ⟨.lib (.stmtParamCount st), p⟩ => some (.count st p)
  | ⟨.lib (.stmtBindParam st binds), ok⟩ => some (.bind st binds ok)
  | ⟨.lib (.stmtExecute st), ok⟩ => some (.execute st ok)
  | _ => none

/-- What has been done with prepared statements, the latest first. -/
def stmtEvents (l : Trace) : List StmtEvent := l.filterMap stmtEvent

/-- What is bound to the statement `st`: the array of the latest `mysql_stmt_bind_param` that has
succeeded. -/
def boundTo (st : Nat) : List StmtEvent → Option (List MYSQL_BIND)
  | [] => none
  | .bind st' binds true :: events => if st' = st then some binds else boundTo st events
  | _ :: events => boundTo st events

/-- The `MYSQL_BIND` has the address and the length of the parameter, and no field of it is
indeterminate. -/
structure Filled (q : MYSQL_BIND) (b : BlobParam) : Prop where
  buffer : q.buffer = some b.pData
  bufferLength : q.bufferLength = some b.dwLen
  length : q.length = some b.pLen
  bufferType : q.bufferType ≠ none
  isNull : q.isNull ≠ none
  isUnsigned : q.isUnsigned ≠ none

/-- When the statement with `p` placeholders is executed, there are as many parameters, and to every
placeholder its parameter is bound. -/
def BoundWhenExecuted (d : DB_BLOB) (st p : Nat) (events : List StmtEvent) : Prop :=
  ∀ ok earlier, .execute st ok :: earlier <:+ events → p = d.length ∧
    ∃ binds, boundTo st earlier = some binds ∧
      ∀ i < p, ∃ b q, d[i]? = some b ∧ binds[i]? = some q ∧ Filled q b

/-- What should hold of a call for which a statement with `p` placeholders has been prepared, when it
returns `a`. -/
structure BindsAll (d : DB_BLOB) (st p : Nat) (a : Bool) (events : List StmtEvent) : Prop where
  executed : BoundWhenExecuted d st p events
  differs : p ≠ d.length → a = false ∧ ∀ ok, .execute st ok ∉ events

/-! ## The array -/

/-- The parameters `d` are written into the array, from index `i` on. -/
def setAll (bs : List MYSQL_BIND) (i : Nat) : DB_BLOB → List MYSQL_BIND
  | [] => bs
  | p :: ps => setAll (bs.set i (CXEMySqlStmt.bindOf p)) (i + 1) ps

/-- With as many parameters as there are places left, these are all filled in. -/
theorem setAll_eq {bs : List MYSQL_BIND} {i : Nat} {d : DB_BLOB} (h : bs.length = i + d.length) :
    setAll bs i d = bs.take i ++ d.map CXEMySqlStmt.bindOf := by
  induction d generalizing bs i with
  | nil =>
    rw [List.length_nil, Nat.add_zero] at h
    rw [setAll, List.map_nil, List.append_nil, List.take_of_length_le (by omega)]
  | cons p ps ih =>
    rw [List.length_cons] at h
    have hlt : i < bs.length := by omega
    have hrec : setAll (bs.set i (CXEMySqlStmt.bindOf p)) (i + 1) ps =
        (bs.set i (CXEMySqlStmt.bindOf p)).take (i + 1) ++ ps.map CXEMySqlStmt.bindOf := by
      apply ih
      rw [List.length_set]
      omega
    unfold setAll
    rw [hrec, List.take_add_one, List.getElem?_set_self hlt, List.take_set_of_le (Nat.le_refl i),
      List.append_assoc]
    rfl

theorem setAll_replicate (d : DB_BLOB) :
    setAll (List.replicate d.length {}) 0 d = d.map CXEMySqlStmt.bindOf := by
  rw [setAll_eq (by simp), List.take_zero, List.nil_append]

theorem filled_bindOf (b : BlobParam) : Filled (CXEMySqlStmt.bindOf b) b :=
  ⟨rfl, rfl, rfl, nofun, nofun, nofun⟩

/-! ## How a call ends -/

/-- While its connection is locked, a call always finds the same handle. -/
def steady (handle : Nat → Option Nat) : (e : Op) → e.Reply → Prop
  | .con (.getMySql c), m => m = handle c
  | _, _ => True

/-- A request that leaves every connection its handle. -/
def Leaves : Op → Prop
  | .con (.setMySql _ _) => False
  | _ => True

/-- Code that leaves the handles as they are, with any answers. -/
abbrev Steady (handle : Nat → Option Nat) : Discipline Op Op.Reply Trace :=
  .recording (fun _ => Leaves) fun _ => steady handle

/-- After such a request nothing else has been done with statements either. -/
def Aside (e : Op) : Prop := Leaves e ∧ ∀ r, stmtEvent ⟨e, r⟩ = none

section

variable {handle : Nat → Option Nat} {l : Trace} {s : CXEMySqlStmt} {c h : Nat}

theorem aside_events {α : Type} {p : Code α} (hp : p.Only Aside) :
    p.Follows (Steady handle) l fun _ l' => stmtEvents l' = stmtEvents l :=
  hp.follows_filterMap (fun _ _ he => he.1) fun _ r he => he.2 r

theorem logError_aside (m : Nat) : (CXEMySqlStmt.logError m).Only Aside :=
  ⟨⟨trivial, fun _ => rfl⟩, fun _ => ⟨⟨trivial, fun _ => rfl⟩, fun _ =>
    ⟨⟨trivial, fun _ => rfl⟩, fun _ => trivial⟩⟩⟩

theorem reset_aside (s : CXEMySqlStmt) : s.reset.Only Aside := by
  obtain ⟨con, st, n, ps⟩ := s
  unfold CXEMySqlStmt.reset
  cases st with
  | none => cases ps <;> first | trivial | exact ⟨⟨trivial, fun _ => rfl⟩, fun _ => trivial⟩
  | some st =>
    refine ⟨⟨trivial, fun _ => rfl⟩, fun ok => ?_⟩
    cases ok with
    | true => cases ps <;> first | trivial | exact ⟨⟨trivial, fun _ => rfl⟩, fun _ => trivial⟩
    | false =>
      refine ⟨⟨trivial, fun _ => rfl⟩, fun m => ?_⟩
      cases m with
      | none => trivial
      | some m =>
        simp only [Prog.bind_ret]
        exact Prog.only_bind (logError_aside m) fun _ => trivial

theorem setParams_aside (d : DB_BLOB) (s : CXEMySqlStmt) (i : Nat) :
    (s.setParams i d).Only Aside := by
  induction d generalizing s i with
  | nil => trivial
  | cons p ps ih =>
    refine Prog.only_bind ⟨⟨trivial, fun _ => rfl⟩, fun m => ?_⟩ fun s => ih s (i + 1)
    obtain ⟨con, st, n, bs⟩ := s
    rcases st with _ | st
    · trivial
    · rcases m with _ | m
      · trivial
      · by_cases hi : i < n
        · simp only [Prog.bind_ret, hi, if_true]
          trivial
        · simp only [Prog.bind_ret, hi, if_false]
          trivial

/-- **`SetSQL`** on a new object: a statement with so many placeholders, an array of that size, and
nothing in it; or no statement that could be executed. -/
theorem setSQL_binds (cmd : Bytes) (hl : stmtEvents l = []) :
    (CXEMySqlStmt.setSQL { m_pCon := c } cmd).Follows (Steady handle) l fun s l' =>
      stmtEvents l' = [] ∨ ∃ h st p a, handle c = some h ∧ stmtEvents l' = [.count st p] ∧
        s = ⟨c, some st, p, if 0 < p then some (a, List.replicate p {}) else none⟩ := by
  refine ⟨trivial, fun m hm => ?_⟩
  cases m with
  | none => exact Or.inl hl
  | some m =>
    refine ⟨trivial, fun st _ => ?_⟩
    cases st with
    | none =>
      simp only [Prog.bind_ret]
      exact (aside_events (logError_aside m)).bind fun _ l' h => Or.inl (h.trans hl)
    | some st =>
      refine ⟨trivial, fun ok _ => ?_⟩
      cases ok with
      | false =>
        exact ⟨trivial, fun _ _ => ⟨trivial, fun _ _ => ⟨trivial, fun _ _ => Or.inl hl⟩⟩⟩
      | true =>
        refine ⟨trivial, fun p _ => ?_⟩
        have hcount : ∀ l', stmtEvents l' = [] →
            stmtEvents (⟨.lib (.stmtParamCount st), p⟩ :: l') = [.count st p] := by
          intro l' hl'
          show StmtEvent.count st p :: stmtEvents l' = _
          rw [hl']
        by_cases hp : 0 < p
        · simp only [Prog.bind_ret, hp, if_true]
          refine ⟨trivial, fun a _ => Or.inr ⟨m, st, p, a, hm.symm, hcount _ hl, ?_⟩⟩
          rw [if_pos hp]
        · simp only [Prog.bind_ret, hp, if_false]
          refine Or.inr ⟨m, st, p, 0, hm.symm, hcount _ hl, ?_⟩
          rw [if_neg hp]

/-- **The loop over the parameters** writes them into the array. -/
theorem setParams_binds {st n : Nat} {ps : Option (Nat × List MYSQL_BIND)} (d : DB_BLOB)
    (hh : handle c = some h) (hn : ∀ x ∈ ps, x.2.length = n) (i : Nat) :
    (CXEMySqlStmt.setParams ⟨c, some st, n, ps⟩ i d).Follows (Steady handle) l
      fun s _ => s = ⟨c, some st, n, ps.map fun x => (x.1, setAll x.2 i d)⟩ := by
  induction d generalizing l ps i with
  | nil =>
    have hsame : (ps.map fun x => (x.1, setAll x.2 i [])) = ps := by
      cases ps <;> rfl
    rw [hsame]
    exact rfl
  | cons p d ih =>
    refine ⟨trivial, fun m hm => ?_⟩
    obtain rfl : m = some h := hm.trans hh
    by_cases hi : i < n
    · simp only [Prog.bind_ret, hi, if_true]
      refine (ih (fun x hx => ?_) (i + 1)).mono fun s _ hs => ?_
      · obtain ⟨y, hy, rfl⟩ := Option.map_eq_some_iff.mp hx
        rw [List.length_set]
        exact hn y hy
      · rw [hs, Option.map_map]
        rfl
    · simp only [Prog.bind_ret, hi, if_false]
      refine (ih hn (i + 1)).mono fun s _ hs => ?_
      rw [hs]
      congr 1
      refine Option.map_congr fun x hx => ?_
      have hlen := hn x hx
      have hout : x.2.set i (CXEMySqlStmt.bindOf p) = x.2 :=
        List.set_eq_of_length_le (by omega)
      show (x.1, setAll x.2 (i + 1) d) = (x.1, setAll (x.2.set i _) (i + 1) d)
      rw [hout]

/-- `BindParams` and `Execute` make their call, if there is a statement and a handle. -/
theorem attempt_binds {call : Nat → Code Bool} (event : Nat → Bool → StmtEvent)
    (hcall : ∀ st l, (call st).Follows (Steady handle) l fun ok l' =>
      stmtEvents l' = event st ok :: stmtEvents l) (s : CXEMySqlStmt) :
    (s.attempt call).Follows (Steady handle) l fun ok l' =>
      (stmtEvents l' = stmtEvents l ∧ (s.m_pStmt = none ∨ handle s.m_pCon = none)) ∨
        ∃ st, s.m_pStmt = some st ∧ stmtEvents l' = event st ok :: stmtEvents l := by
  obtain ⟨con, st, n, bs⟩ := s
  refine ⟨trivial, fun m hm => ?_⟩
  cases st with
  | none => exact Or.inl ⟨rfl, Or.inl rfl⟩
  | some st =>
    cases m with
    | none => exact Or.inl ⟨rfl, Or.inr hm.symm⟩
    | some m =>
      simp only [Prog.bind_ret]
      refine (hcall st _).bind fun ok l' h => ?_
      cases ok with
      | true => exact Or.inr ⟨st, rfl, h⟩
      | false =>
        refine (aside_events (logError_aside m)).bind fun _ l'' h' => ?_
        exact Or.inr ⟨st, rfl, h'.trans h⟩

theorem bindParams_binds (s : CXEMySqlStmt) :
    s.bindParams.Follows (Steady handle) l fun ok l' =>
      (stmtEvents l' = stmtEvents l ∧ (s.m_pStmt = none ∨ handle s.m_pCon = none)) ∨
        ∃ st, s.m_pStmt = some st ∧
          stmtEvents l' = .bind st ((s.m_pParams.map (·.2)).getD []) ok :: stmtEvents l := by
  rw [CXEMySqlStmt.bindParams_eq]
  refine attempt_binds (fun st => .bind st ((s.m_pParams.map (·.2)).getD [])) (fun st l => ?_) s
  exact ⟨trivial, fun _ _ => rfl⟩

theorem execute_binds (s : CXEMySqlStmt) :
    s.execute.Follows (Steady handle) l fun ok l' =>
      (stmtEvents l' = stmtEvents l ∧ (s.m_pStmt = none ∨ handle s.m_pCon = none)) ∨
        ∃ st, s.m_pStmt = some st ∧ stmtEvents l' = .execute st ok :: stmtEvents l := by
  rw [CXEMySqlStmt.execute_eq]
  refine attempt_binds .execute (fun st l => ?_) s
  exact ⟨trivial, fun _ _ => rfl⟩

/-- How a call ends: no statement has been prepared, or one with `p` placeholders; for that one, binding
the parameters has failed, or it has been executed. -/
def BlobEnd (d : DB_BLOB) (a : Bool) (events : List StmtEvent) : Prop :=
  (∀ st p, .count st p ∉ events) ∨
    ∃ st p binds, (p = d.length → binds = d.map CXEMySqlStmt.bindOf) ∧
      (a = false ∧ events = [.bind st binds false, .count st p] ∨
        events = [.execute st a, .bind st binds true, .count st p])

/-- What `Query` does after the loop over the parameters. -/
def bound (s : CXEMySqlStmt) : Code Bool := do
  let bRet ← s.bindParams
  let bRet ← (if bRet then s.execute else pure bRet)
  let _ ← s.reset
  pure bRet

theorem queryBlobOn_eq (c : Nat) (cmd : Bytes) (pData : DB_BLOB) :
    CXEMySql.queryBlobOn c cmd pData = (do
      let stmt ← CXEMySqlStmt.setSQL { m_pCon := c } cmd
      let stmt ← stmt.setParams 0 pData
      bound stmt) := rfl

/-- No statement has been prepared, and none is. -/
theorem bound_unprepared (hl : ∀ st p, .count st p ∉ stmtEvents l) :
    (bound s).Follows (Steady handle) l fun _ l' => ∀ st p, .count st p ∉ stmtEvents l' := by
  refine (bindParams_binds s).bind fun ok l hb => ?_
  have hbind : ∀ st p, .count st p ∉ stmtEvents l := by
    intro st p hm
    rcases hb with ⟨hb, -⟩ | ⟨st', -, hb⟩ <;> rw [hb] at hm
    · exact hl st p hm
    · exact hl st p (by simpa using hm)
  refine Prog.Follows.bind (P := fun _ l' => ∀ st p, .count st p ∉ stmtEvents l') ?_ ?_
  · cases ok with
    | false => exact hbind
    | true =>
      refine (execute_binds s).mono fun ok' l' he st p hm => ?_
      rcases he with ⟨he, -⟩ | ⟨st', -, he⟩ <;> rw [he] at hm
      · exact hbind st p hm
      · exact hbind st p (by simpa using hm)
  · intro a l' hn
    refine (aside_events (reset_aside s)).bind fun _ l'' hr st p => ?_
    rw [hr]
    exact hn st p

/-- A statement with `p` placeholders has been prepared, and the handle is there. -/
theorem bound_prepared {st p : Nat} {d : DB_BLOB} (hst : s.m_pStmt = some st)
    (hh : handle s.m_pCon = some h) (hl : stmtEvents l = [.count st p])
    (hps : p = d.length → (s.m_pParams.map (·.2)).getD [] = d.map CXEMySqlStmt.bindOf) :
    (bound s).Follows (Steady handle) l fun a l' => BlobEnd d a (stmtEvents l') := by
  refine (bindParams_binds s).bind fun ok l hb => ?_
  rcases hb with ⟨-, hn | hn⟩ | ⟨st', hst', hb⟩
  · rw [hst] at hn
    cases hn
  · rw [hh] at hn
    cases hn
  obtain rfl : st = st' := Option.some.inj (hst.symm.trans hst')
  rw [hl] at hb
  refine Prog.Follows.bind (P := fun a l' => BlobEnd d a (stmtEvents l')) ?_ ?_
  · cases ok with
    | false => exact Or.inr ⟨st, p, _, hps, Or.inl ⟨rfl, hb⟩⟩
    | true =>
      refine (execute_binds s).mono fun ok' l' he => ?_
      rcases he with ⟨-, hn | hn⟩ | ⟨st', hst', he⟩
      · rw [hst] at hn
        cases hn
      · rw [hh] at hn
        cases hn
      · obtain rfl : st = st' := Option.some.inj (hst.symm.trans hst')
        rw [hb] at he
        exact Or.inr ⟨st, p, _, hps, Or.inr he⟩
  · intro a l' hend
    refine (aside_events (reset_aside s)).bind fun _ l'' hr => ?_
    show BlobEnd d a (stmtEvents l'')
    rw [hr]
    exact hend

/-- **The call on the locked connection**, however it is answered. -/
theorem queryBlobOn_binds (cmd : Bytes) (d : DB_BLOB) (hl : stmtEvents l = []) :
    (CXEMySql.queryBlobOn c cmd d).Follows (Steady handle) l
      fun a l' => BlobEnd d a (stmtEvents l') := by
  rw [queryBlobOn_eq]
  refine (setSQL_binds cmd hl).bind fun s l hs => ?_
  rcases hs with hl | ⟨h, st, p, a, hh, hl, rfl⟩
  · refine (aside_events (setParams_aside d s 0)).bind fun s l' hl' => ?_
    refine (bound_unprepared fun st p => ?_).mono fun _ _ hn => Or.inl hn
    rw [hl', hl]
    exact List.not_mem_nil
  · generalize hps : (if 0 < p then some (a, List.replicate p ({} : MYSQL_BIND)) else none) = ps
    have hlen : ∀ x ∈ ps, x.2.length = p := by
      intro x hx
      by_cases hp : 0 < p
      · rw [if_pos hp] at hps
        cases hps.trans hx
        exact List.length_replicate ..
      · rw [if_neg hp] at hps
        cases hps.trans hx
    refine ((setParams_binds d hh hlen 0).and (aside_events (setParams_aside d _ 0))).bind ?_
    rintro s l' ⟨rfl, hl'⟩
    refine bound_prepared rfl hh (hl'.trans hl) fun hp => ?_
    subst hp hps
    by_cases hp : 0 < d.length
    · rw [if_pos hp]
      exact setAll_replicate d
    · rw [if_neg hp, List.length_eq_zero_iff.mp (Nat.eq_zero_of_not_pos hp)]
      rfl

/-- **The call**, however it is answered. -/
theorem queryBlob_binds (cmd : Bytes) (d : DB_BLOB) :
    (CXEMySql.queryBlob cmd (some d)).Follows (Steady handle) []
      fun a l' => BlobEnd d a (stmtEvents l') := by
  rw [CXEMySql.queryBlob_eq]
  refine CXEMySql.follows_locked (P := fun _ a l' => BlobEnd d a (stmtEvents l')) trivial
    (Or.inl fun _ _ => List.not_mem_nil) (fun _ => trivial) (fun c m => ?_)
    fun c a l' h => ⟨trivial, fun _ => h⟩
  cases m with
  | none => exact Or.inl fun _ _ => List.not_mem_nil
  | some m => exact queryBlobOn_binds cmd d rfl

end

/-- A request that leaves the handles as they are finds them so. -/
theorem exec_steady {rt : Runtime} {t : Tid} {handle : Nat → Option Nat} {e : Op} {o : Outcome}
    {s s₁ : State} {r : e.Reply} (hs : ∀ c, (s.cons.con c).m_pMySql = handle c)
    (he : exec rt t e o s = some (s₁, some r)) : steady handle e r := by
  cases e with
  | con e =>
    cases e with
    | getMySql c =>
      obtain ⟨x, hx, -⟩ := exec_con he
      cases hx
      exact hs c
    | _ => trivial
  | _ => trivial

/-- **How a run of the call ends.** -/
theorem BlobEnd.of_runs {rt : Runtime} {t : Tid} {cmd : Bytes} {d : DB_BLOB} {s s' : State} {a : Bool}
    {l : Trace} (h : (CXEMySql.queryBlob cmd (some d)).Runs (exec rt t) s [] a s' l) :
    BlobEnd d a (stmtEvents l) := by
  have hkept : ∀ {e o s₁ s₂ r}, Leaves e →
      (∀ c, (s₁.cons.con c).m_pMySql = (s.cons.con c).m_pMySql) →
      exec rt t e o s₁ = some (s₂, r) →
      ∀ c, (s₂.cons.con c).m_pMySql = (s.cons.con c).m_pMySql := by
    intro e o s₁ s₂ r hle hs he c
    rw [← hs c]
    refine exec_keeps_mysql he ?_ c
    rintro d m rfl
    exact hle
  have hsteady : (CXEMySql.queryBlob cmd (some d)).Follows (Steady fun c => (s.cons.con c).m_pMySql)
      [] fun a l' => BlobEnd d a (stmtEvents l') := queryBlob_binds cmd d
  refine (h.follows (I := fun s₁ _ => ∀ c, (s₁.cons.con c).m_pMySql = (s.cons.con c).m_pMySql)
    ?_ ?_ (fun _ => rfl) hsteady).1
  · intro _ e _ s₁ s₂ r hle hs he
    exact ⟨exec_steady hs he, hkept hle hs he⟩
  · intro _ e _ s₁ s₂ hle hs he
    exact hkept hle hs he

/-! ## What is bound -/

section

variable {d : DB_BLOB} {st st' p : Nat} {a ok : Bool} {binds : List MYSQL_BIND}
  {earlier : List StmtEvent}

theorem execute_suffix (h : .execute st ok :: earlier <:+
      [.execute st' a, .bind st' binds true, .count st' p]) :
    st = st' ∧ earlier = [.bind st' binds true, .count st' p] := by
  rcases List.suffix_cons_iff.mp h with h | h
  · cases h
    exact ⟨rfl, rfl⟩
  · have hm := h.subset (List.mem_cons_self ..)
    simp at hm

/-- A statement that is executed with as many parameters as placeholders has them all. -/
theorem bound_of_eq (hp : p = d.length) : BoundWhenExecuted d st p
    [.execute st a, .bind st (d.map CXEMySqlStmt.bindOf) true, .count st p] := by
  intro ok earlier he
  obtain ⟨-, rfl⟩ := execute_suffix he
  refine ⟨hp, _, by rw [boundTo, if_pos rfl], fun i hi => ?_⟩
  have hlt : i < d.length := by omega
  refine ⟨d[i], _, List.getElem?_eq_getElem hlt, ?_, filled_bindOf _⟩
  rw [List.getElem?_map, List.getElem?_eq_getElem hlt, Option.map_some]

/-- Nothing is executed when binding the parameters has failed. -/
theorem bindsAll_of_failed :
    BindsAll d st p false [.bind st' binds false, .count st' p] := by
  have hnone : ∀ ok, StmtEvent.execute st ok ∉ [.bind st' binds false, .count st' p] := by
    intro ok hm
    simp at hm
  constructor
  · intro ok earlier he
    exact absurd (he.subset (List.mem_cons_self ..)) (hnone ok)
  · intro _
    exact ⟨rfl, hnone⟩

end

/-- **Every placeholder is bound to its parameter, and nothing is executed when there are more or fewer
of these, exactly when there are as many or binding them fails.** -/
theorem binds_iff {rt : Runtime} {t : Tid} {cmd : Bytes} {d : DB_BLOB} {s s' : State} {a : Bool}
    {l : Trace} {st p : Nat} (h : (CXEMySql.queryBlob cmd (some d)).Runs (exec rt t) s [] a s' l)
    (hp : .count st p ∈ stmtEvents l) :
    BindsAll d st p a (stmtEvents l) ↔
      p = d.length ∨ ∀ binds, .bind st binds true ∉ stmtEvents l := by
  obtain hn | ⟨st', p', binds, hbinds, ⟨rfl, hl⟩ | hl⟩ := BlobEnd.of_runs h
  · exact absurd hp (hn st p)
  · rw [hl] at hp ⊢
    obtain ⟨rfl, rfl⟩ : st = st' ∧ p = p' := by simpa using hp
    refine iff_of_true bindsAll_of_failed (Or.inr fun binds' hm => ?_)
    simp at hm
  · rw [hl] at hp ⊢
    obtain ⟨rfl, rfl⟩ : st = st' ∧ p = p' := by simpa using hp
    constructor
    · intro hall
      exact Or.inl (hall.executed a _ (List.suffix_refl _)).1
    · rintro (hd | hnone)
      · rw [hbinds hd]
        exact ⟨bound_of_eq hd, fun hne => absurd hd hne⟩
      · exact absurd (by simp) (hnone binds)

/-- The call of a run that is computed, for a statement with one placeholder. -/
theorem runs_of_events {d : DB_BLOB} {a : Bool} {events : List StmtEvent}
    (h : ((CXEMySql.queryBlob [113] (some d)).eval (exec .standard (.client 0))
      (List.replicate 20 { number := 1 }) (.small 1 0) []).map
        (fun x => (x.1, stmtEvents x.2.2)) = some (a, events)) :
    ∃ s' l, (CXEMySql.queryBlob [113] (some d)).Runs (exec .standard (.client 0)) (.small 1 0) []
      a s' l ∧ stmtEvents l = events := by
  obtain ⟨⟨b, s', l⟩, he, hr⟩ := Option.map_eq_some_iff.mp h
  obtain ⟨rfl, rfl⟩ := Prod.mk.inj hr
  exact ⟨s', l, Prog.runs_of_eval he, rfl⟩

/-- One placeholder and one parameter. -/
theorem binds_one : ∃ s' l,
    (CXEMySql.queryBlob [113] (some [⟨4096, 3, 8192⟩])).Runs (exec .standard (.client 0))
      (.small 1 0) [] true s' l ∧
    .count 0 1 ∈ stmtEvents l ∧
    (BindsAll [⟨4096, 3, 8192⟩] 0 1 true (stmtEvents l) ↔
      1 = [(⟨4096, 3, 8192⟩ : BlobParam)].length ∨ ∀ binds, .bind 0 binds true ∉ stmtEvents l) := by
  obtain ⟨s', l, h, hl⟩ := @runs_of_events [⟨4096, 3, 8192⟩] true
    [.execute 0 true, .bind 0 [CXEMySqlStmt.bindOf ⟨4096, 3, 8192⟩] true, .count 0 1] (by decide)
  have hp : .count 0 1 ∈ stmtEvents l := by
    rw [hl]
    decide
  exact ⟨s', l, h, hp, binds_iff h hp⟩

/-- One placeholder and two parameters: the second is ignored, and the statement is executed. -/
theorem executes_with_surplus : ∃ s' l,
    (CXEMySql.queryBlob [113] (some [⟨4096, 3, 8192⟩, ⟨4100, 3, 8196⟩])).Runs
      (exec .standard (.client 0)) (.small 1 0) [] true s' l ∧
    .count 0 1 ∈ stmtEvents l ∧
    ¬ BindsAll [⟨4096, 3, 8192⟩, ⟨4100, 3, 8196⟩] 0 1 true (stmtEvents l) := by
  obtain ⟨s', l, h, hl⟩ := @runs_of_events [⟨4096, 3, 8192⟩, ⟨4100, 3, 8196⟩] true
    [.execute 0 true, .bind 0 [CXEMySqlStmt.bindOf ⟨4096, 3, 8192⟩] true, .count 0 1] (by decide)
  refine ⟨s', l, h, by rw [hl]; decide, fun hall => ?_⟩
  obtain ⟨hfalse, -⟩ := hall.differs (by decide)
  cases hfalse

end XeMySql
