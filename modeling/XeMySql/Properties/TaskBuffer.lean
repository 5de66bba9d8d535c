import XeMySql.Requests
import XeMySql.Lib.Sequence

/-!
# The buffer of a task

`GetFreeJob` copies as many bytes as the query has into the 256 of `szQuery`. What does not fit goes
into `m_pData`, which `ProcessTask` takes for a `DB_BLOB`.

* `m_pData_copied`, `terminated_copied` — 257 bytes make a pointer, 256 leave no terminator
* `asks_deref_iff` — which pointers `ProcessTask` follows
* `contained_iff` — the queries that leave the task as it should be
* `pointer_of_query` — a query whose bytes are followed as a pointer
-/

namespace XeMySql

open Interact

/-! ## What is copied -/

namespace CXEMySqlTask

variable {q : Bytes}

/-- The query, as far as there is memory for it, and then zeros. -/
theorem copyQuery_bytes (q : Bytes) :
    (init.copyQuery q q.length).bytes = q.take 260 ++ List.replicate (260 - q.length) 0 :=
  CString.strncpy_replicate q 260

/-- A low byte that is not 0 makes a pointer. -/
theorem m_pData_ne_none {t : CXEMySqlTask} {b : UInt8} {rest : Bytes}
    (ht : t.bytes.drop 256 = b :: rest) (hb : b ≠ 0) : t.m_pData ≠ none := by
  have hbyte : b.toNat ≠ 0 := fun h => hb (UInt8.toNat_inj.mp h)
  unfold m_pData
  rw [ht, List.foldr_cons]
  simp only [ne_eq, ite_eq_left_iff, reduceCtorEq, imp_false, Decidable.not_not]
  omega

/-- `m_pData` is NULL unless the query is longer than `szQuery`. -/
theorem m_pData_copied (hq : CString.NulFree q) :
    (init.copyQuery q q.length).m_pData = none ↔ q.length ≤ 256 := by
  constructor
  · intro hnone
    by_contra hlen
    -- the low byte of the pointer is a byte of the query
    obtain ⟨b, rest, hrest⟩ : ∃ b rest, q.drop 256 = b :: rest := by
      refine List.exists_cons_of_length_pos ?_
      rw [List.length_drop]
      omega
    have hb : b ≠ 0 := by
      refine hq b (List.mem_of_mem_drop (i := 256) ?_)
      rw [hrest]
      exact List.mem_cons_self
    have hdrop : (init.copyQuery q q.length).bytes.drop 256 =
        b :: (rest.take 3 ++ List.replicate (260 - q.length) 0) := by
      have hle : 256 ≤ (q.take 260).length := by
        rw [List.length_take]
        omega
      rw [copyQuery_bytes, List.drop_append_of_le_length hle, List.drop_take, hrest]
      rfl
    exact m_pData_ne_none hdrop hb hnone
  · intro hlen
    rw [copyQuery_init (by omega)]
    exact m_pData_holding hlen

/-- There is a terminator in `szQuery` unless the query fills it. -/
theorem terminated_copied (hq : CString.NulFree q) :
    0 ∈ (init.copyQuery q q.length).bytes.take 256 ↔ q.length ≤ 255 := by
  rw [copyQuery_bytes]
  constructor
  · intro hmem
    by_contra hlen
    have hle : 256 ≤ (q.take 260).length := by
      rw [List.length_take]
      omega
    rw [List.take_append_of_le_length hle] at hmem
    exact hq 0 (List.mem_of_mem_take (List.mem_of_mem_take hmem)) rfl
  · intro hlen
    have htake : q.take 260 = q := List.take_of_length_le (by omega)
    rw [htake, List.take_append, List.take_replicate]
    refine List.mem_append_right _ (List.mem_replicate.mpr ⟨?_, rfl⟩)
    omega

end CXEMySqlTask

/-! ## What `GetFreeJob` leaves -/

section

variable {rt : Runtime} {t : Tid} {s : State} {l : List (Answer Op Op.Reply)} {k : Nat} {q : Bytes}

/-- The tasks of the pool are cleared. -/
def Jobs.Cleared (s : Jobs) : Prop := ∀ k ∈ s.pool.m_FreeList, s.task k = .init

/-- Then the task that is taken from it is, even if it has to be made first. -/
theorem Jobs.Cleared.alloc {s s' : Jobs} (h : s.Cleared) (ha : s.alloc = some (s', k)) :
    s'.task k = .init := by
  obtain ⟨⟨j, pool⟩, hp, he⟩ := Option.map_eq_some_iff.mp ha
  obtain ⟨rfl, rfl⟩ := Prod.mk.inj he
  rcases CPool.alloc_cases hp with ⟨rest, hf, rfl⟩ | ⟨-, rfl, n, -, rfl⟩
  · have hj : s.task j = .init := h j (by rw [hf]; exact List.mem_cons_self)
    have hnew : ¬ (s.pool.created ≤ j ∧ j < s.pool.created) := by omega
    exact (if_neg hnew).trans hj
  · exact if_pos ⟨Nat.le_refl _, by show s.pool.created < s.pool.created + (n + 1); omega⟩

/-- `GetFreeJob` hands out a task with the query copied into it. -/
theorem getFreeJob_always (hs : s.jobs.Cleared) (q : Bytes) :
    (CXEMySql.getFreeJob (some q)).Always (exec rt t) s l fun j s' _ =>
      ∃ k, j = some k ∧ s'.jobs.task k = CXEMySqlTask.init.copyQuery q q.length := by
  refine Prog.always_op (fun o s₁ he => ?_) fun o s₁ k he => ?_
  · obtain ⟨x, hx, -⟩ := exec_task he
    exact Jobs.exec_answers hx
  · obtain ⟨x, hx, rfl⟩ := exec_task he
    obtain ⟨⟨y, j⟩, ha, hy⟩ := Option.map_eq_some_iff.mp hx
    obtain ⟨rfl, hj⟩ := Prod.mk.inj hy
    cases hj
    refine Prog.always_op (fun o s₂ he => nomatch he) fun o s₂ r he => ?_
    cases he
    refine Prog.always_ret ⟨k, rfl, ?_⟩
    show Function.update y.task k _ k = _
    rw [Function.update_self, hs.alloc ha]

/-! ## Which pointers are followed -/

/-- No pointer is followed. -/
def NoDeref (e : Op) : Prop := ∀ p, e ≠ .task (.deref p)

theorem noDeref_of_onDatabase (e : Op) (h : OnDatabase e) : NoDeref e := by
  rintro p rfl
  exact h

/-- `ProcessTask` follows the pointer in its task, and no other. -/
theorem asks_deref_iff {p : Nat} :
    (CXEMySqlWorker.processTask (some k)).Asks (exec rt t) (.task (.deref p)) s ↔
      (s.jobs.task k).m_pData = some p := by
  have hrelease : (CXEMySql.releaseJob k).Only NoDeref :=
    ⟨nofun, fun _ => ⟨nofun, fun _ => trivial⟩⟩
  have hquery : ∀ q, (CXEMySql.query q [] >>= fun _ => CXEMySql.releaseJob k).Only NoDeref :=
    fun q => Prog.only_bind ((query_text q []).mono fun e he =>
      noDeref_of_onDatabase e (OnText.onDatabase e he)) fun _ => hrelease
  have hblob : ∀ q d, (CXEMySql.queryBlob q (some d) >>= fun _ => CXEMySql.releaseJob k).Only NoDeref :=
    fun q d => Prog.only_bind ((queryBlob_database q (some d)).mono noDeref_of_onDatabase)
      fun _ => hrelease
  constructor
  · intro h
    cases h with
    | wait o he _ => cases he
    | reply o he h =>
      obtain ⟨x, hx, rfl⟩ := exec_task he
      cases hx
      cases hp : (s.jobs.task k).m_pData with
      | none =>
        rw [hp] at h
        refine absurd rfl (Prog.Only.asks (P := NoDeref) ?_ h p)
        exact ⟨nofun, hquery⟩
      | some p' =>
        rw [hp] at h
        cases h with
        | wait o he _ => cases he
        | reply o he h =>
          cases h with
          | now => rfl
          | wait o he _ =>
            obtain ⟨x, hx, -⟩ := exec_task he
            exact absurd hx Jobs.exec_answers
          | reply o he h => exact absurd rfl ((hblob _ _).asks h p)
  · intro hp
    refine .reply .success rfl ?_
    rw [hp]
    exact .reply .success rfl .now

/-! ## What a task should be like -/

/-- `m_pData` of task `k` is NULL, `szQuery` has a terminator, and no pointer is followed when the task
is processed. -/
structure Contained (rt : Runtime) (s : State) (k : Nat) : Prop where
  null : (s.jobs.task k).m_pData = none
  terminated : 0 ∈ (s.jobs.task k).bytes.take 256
  text : ∀ (u : Tid) (s₁ : State) (p : Nat), s₁.jobs.task k = s.jobs.task k →
    ¬ (CXEMySqlWorker.processTask (some k)).Asks (exec rt u) (.task (.deref p)) s₁

/-- **When a task is as it should be**: `GetFreeJob` leaves it so exactly when the query has at most 255
characters. -/
theorem contained_iff (hs : s.jobs.Cleared) (hq : CString.NulFree q) {j : Option Nat} {s' : State}
    {l' : List (Answer Op Op.Reply)}
    (hrun : (CXEMySql.getFreeJob (some q)).Runs (exec rt t) s l j s' l') :
    ∃ k, j = some k ∧ (Contained rt s' k ↔ q.length ≤ 255) := by
  obtain ⟨k, rfl, hk⟩ := getFreeJob_always hs q j s' l' hrun
  refine ⟨k, rfl, fun h => ?_, fun hlen => ?_⟩
  · have hterminated := h.terminated
    rw [hk] at hterminated
    exact (CXEMySqlTask.terminated_copied hq).mp hterminated
  · have hnull : (s'.jobs.task k).m_pData = none := by
      rw [hk]
      exact (CXEMySqlTask.m_pData_copied hq).mpr (by omega)
    refine ⟨hnull, ?_, ?_⟩
    · rw [hk]
      exact (CXEMySqlTask.terminated_copied hq).mpr hlen
    · intro u s₁ p htask hasks
      have hp := asks_deref_iff.mp hasks
      rw [htask, hnull] at hp
      cases hp

end

/-- A short query. -/
theorem contained_short : ∃ s' l',
    (CXEMySql.getFreeJob (some [113])).Runs (exec .standard (.client 0)) (.small 1 1) [] (some 0) s' l' ∧
    ∃ k, some 0 = some k ∧ (Contained .standard s' k ↔ [(113 : UInt8)].length ≤ 255) := by
  have heval : ((CXEMySql.getFreeJob (some [113])).eval (exec .standard (.client 0))
      [.success, .success] (.small 1 1) []).map (·.1) = some (some 0) := by
    decide
  obtain ⟨⟨j, s', l'⟩, he, hj⟩ := Option.map_eq_some_iff.mp heval
  obtain rfl : j = some 0 := hj
  have hrun := Prog.runs_of_eval he
  exact ⟨s', l', hrun, contained_iff (fun _ _ => rfl) (by simp [CString.NulFree]) hrun⟩

/-- 257 letters `a`: the last one becomes the pointer that `ProcessTask` follows. -/
theorem pointer_of_query : ∃ s' l',
    (CXEMySql.getFreeJob (some (List.replicate 257 97))).Runs (exec .standard (.client 0)) (.small 1 1)
      [] (some 0) s' l' ∧
    ¬ Contained .standard s' 0 ∧
    (CXEMySqlWorker.processTask (some 0)).Asks (exec .standard (.worker 0)) (.task (.deref 97)) s' := by
  have heval : ((CXEMySql.getFreeJob (some (List.replicate 257 97))).eval (exec .standard (.client 0))
      [.success, .success] (.small 1 1) []).map (fun x => (x.1, (x.2.1.jobs.task 0).m_pData))
      = some (some 0, some 97) := by
    decide +kernel
  obtain ⟨⟨j, s', l'⟩, he, hx⟩ := Option.map_eq_some_iff.mp heval
  obtain ⟨rfl, hp⟩ := Prod.mk.inj hx
  refine ⟨s', l', Prog.runs_of_eval he, fun h => ?_, asks_deref_iff.mpr hp⟩
  have hnull := h.null
  rw [hp] at hnull
  cases hnull

end XeMySql
