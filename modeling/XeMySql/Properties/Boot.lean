import XeMySql.Main
import XeMySql.Delivery
import XeMySql.Properties.AllOrNothing
import XeMySql.Properties.Drained

/-!
# From the start of the program to its runs

`Connect` closes the handle that its connection still names, also when `Close` has just done so. A
round of `Initialize` that has created the database therefore closes the handle it has created it
with twice. Apart from that every handle is accounted for.

* `Working.connect`, `Working.close`, `Working.executeSQL` — a round at work on its connection
* `initialize_handles` — how often each handle is closed by `Initialize`
* `tmain_ready` — what is said of runs of the program holds of those that begin after `Start`
-/

namespace XeMySql

open Interact

/-! ## Counting -/

/-- How often handle `m` has been closed. -/
def closings (m : Nat) : InitTrace → Nat
  | [] => 0
  | ⟨.op (.lib (.close h)), _⟩ :: l => closings m l + if h = m then 1 else 0
  | _ :: l => closings m l

/-- How many statements the server has accepted on handle `m`. -/
def accepted (m : Nat) : InitTrace → Nat
  | [] => 0
  | ⟨.op (.lib (.realQuery h _)), ok⟩ :: l => accepted m l + if h = m ∧ ok = true then 1 else 0
  | _ :: l => accepted m l

/-- Nothing is counted but what concerns the handle. -/
theorem counts_of_ne {y : LibMySql} {e : LibOp} {r : e.Reply} {m : Nat} (he : y.target e ≠ some m)
    (l : InitTrace) : closings m (⟨.op (.lib e), r⟩ :: l) = closings m l ∧
      accepted m (⟨.op (.lib e), r⟩ :: l) = accepted m l := by
  have hne : ∀ {h}, some h ≠ some m → h ≠ m := fun h he => h (congrArg some he)
  cases e with
  | close h => simp [closings, accepted, hne he]
  | realQuery h q => simp [closings, accepted, hne he]
  | _ => exact ⟨rfl, rfl⟩

/-! ## A round -/

/-- A handle as `Connect` leaves it when it succeeds. -/
def opened (p : ConnParams) : MYSQL :=
  { server := some p, db := p.db, charset := some utf8, reconnect := true }

/--
The connections and handles in the course of `Initialize`, those of `m_VectorCon` being in the pool.
What is said of handles is not said of `own`, which the round that is under way works on.
-/
structure Arranged (p : ConnParams) (own : Option Nat) (s : Startup) (l : InitTrace) : Prop where
  free : ∀ d, (s.base.cons.con d).cs = .free
  bound : ∀ d m, (s.base.cons.con d).m_pMySql = some m → m < s.base.lib.handles
  distinct : ∀ d d' m, (s.base.cons.con d).m_pMySql = some m →
    (s.base.cons.con d').m_pMySql = some m → d = d'
  vector : s.base.cons.m_VectorCon.Nodup
  pooled : ∀ d ∈ s.base.cons.m_VectorCon, d < s.objects ∧
    ∃ m, (s.base.cons.con d).m_pMySql = some m ∧ own ≠ some m ∧ closings m l = 0 ∧
      accepted m l = 0 ∧ s.base.lib.mysql m = opened p
  idle : ∀ d m, (s.base.cons.con d).m_pMySql = some m → own ≠ some m →
    (s.base.lib.mysql m).pending = false
  rest : ∀ m < s.base.lib.handles, own ≠ some m →
    (∃ d ∈ s.base.cons.m_VectorCon, (s.base.cons.con d).m_pMySql = some m) ∨
      closings m l = 1 + accepted m l ∧ accepted m l ≤ 1
  unmade : ∀ m, s.base.lib.handles ≤ m → closings m l = 0 ∧ accepted m l = 0

namespace Arranged

variable {p : ConnParams} {own : Option Nat} {s s' : Startup} {l l' : InitTrace}

/-- Nothing has happened to pool, locks and handles. -/
theorem same (h : Arranged p own s l)
    (hm : ∀ d, (s'.base.cons.con d).m_pMySql = (s.base.cons.con d).m_pMySql)
    (hcs : ∀ d, (s'.base.cons.con d).cs = (s.base.cons.con d).cs)
    (hvec : s'.base.cons.m_VectorCon = s.base.cons.m_VectorCon) (hlib : s'.base.lib = s.base.lib)
    (hobjects : s.objects ≤ s'.objects)
    (hl : ∀ m, closings m l' = closings m l ∧ accepted m l' = accepted m l) :
    Arranged p own s' l' := by
  refine ⟨fun d => (hcs d).trans (h.free d), ?_, ?_, hvec ▸ h.vector, fun d hd => ?_, ?_, ?_,
    fun m hlt => ?_⟩
  · simpa only [hm, hlib] using h.bound
  · simpa only [hm] using h.distinct
  · rw [hvec] at hd
    obtain ⟨hlt, m, hdm, hown, hopen, hnone, hmy⟩ := h.pooled d hd
    exact ⟨Nat.lt_of_lt_of_le hlt hobjects, m, (hm d).trans hdm, hown, (hl m).1.trans hopen,
      (hl m).2.trans hnone, hlib ▸ hmy⟩
  · simpa only [hm, hlib] using h.idle
  · simpa only [hm, hvec, hlib, fun m => (hl m).1, fun m => (hl m).2] using h.rest
  · rw [(hl m).1, (hl m).2]
    exact h.unmade m (hlib ▸ hlt)

/-- A call of the library on `own`. -/
theorem lib (h : Arranged p own s l) {e : LibOp} {o : Outcome} {y : LibMySql} {r : e.Reply} {m : Nat}
    (he : s.base.lib.exec e o = (y, r)) (hown : own = some m) (ht : s.base.lib.target e = some m)
    (hm : m < s.base.lib.handles) :
    Arranged p own { s with base := { s.base with lib := y } } (⟨.op (.lib e), r⟩ :: l) := by
  subst hown
  have hinit : e ≠ .init := by
    rintro rfl
    cases ht
  have hhandles : y.handles = s.base.lib.handles := by
    have hsame := LibMySql.exec_handles (y := s.base.lib) (o := o) hinit
    rwa [he] at hsame
  have hcounts : ∀ k, some m ≠ some k → closings k (⟨.op (.lib e), r⟩ :: l) = closings k l ∧
      accepted k (⟨.op (.lib e), r⟩ :: l) = accepted k l :=
    fun k hk => counts_of_ne (by rwa [ht]) l
  have hmysql : ∀ k < s.base.lib.handles, some m ≠ some k → y.mysql k = s.base.lib.mysql k := by
    intro k hlt hk
    have hsame := s.base.lib.exec_of_ne (o := o) (by rwa [ht]) hlt
    rwa [he] at hsame
  refine ⟨h.free, fun d k hk => ?_, h.distinct, h.vector, fun d hd => ?_, fun d k hk hne => ?_,
    fun k hk hne => ?_, fun k hk => ?_⟩
  · show k < y.handles
    rw [hhandles]
    exact h.bound d k hk
  · obtain ⟨hlt, k, hk, hne, hopen, hnone, hmy⟩ := h.pooled d hd
    refine ⟨hlt, k, hk, hne, (hcounts k hne).1.trans hopen, (hcounts k hne).2.trans hnone, ?_⟩
    exact (hmysql k (h.bound d k hk) hne).trans hmy
  · show (y.mysql k).pending = false
    rw [hmysql k (h.bound d k hk) hne]
    exact h.idle d k hk hne
  · rw [(hcounts k hne).1, (hcounts k hne).2]
    exact h.rest k (hhandles ▸ hk) hne
  · have hle : s.base.lib.handles ≤ k := hhandles ▸ hk
    have hne : some m ≠ some k := fun hmk => by
      cases hmk
      omega
    rw [(hcounts k hne).1, (hcounts k hne).2]
    exact h.unmade k hle

/-- `mysql_init` has answered, and the connection that had `own` gets the answer instead. -/
theorem replace {c : Nat} (h : Arranged p own s l) (hc : c ∉ s.base.cons.m_VectorCon)
    (hown : (s.base.cons.con c).m_pMySql = own)
    (hclosed : ∀ m, own = some m → closings m l = 1 + accepted m l ∧ accepted m l ≤ 1)
    {o : Outcome} {y : LibMySql} {r : Option Nat} (he : s.base.lib.exec .init o = (y, r)) :
    Arranged p r
        { s with
          base := { s.base with
            lib := y
            cons := s.base.cons.withCon c { s.base.cons.con c with m_pMySql := r } } }
        (⟨.op (.con (.setMySql c r)), ()⟩ :: ⟨.op (.lib .init), r⟩ :: l) ∧
      ∀ m, r = some m → m < y.handles ∧ closings m l = 0 ∧ accepted m l = 0 ∧ y.mysql m = {} := by
  -- the new handle is the next number, and all others are as they were
  obtain ⟨hr, hhandles, hmysql⟩ : 
      (∀ m, r = some m → m = s.base.lib.handles ∧ m < y.handles ∧ y.mysql m = {}) ∧
      (∀ m, m < y.handles ∧ r ≠ some m ↔ m < s.base.lib.handles) ∧
      ∀ m < s.base.lib.handles, y.mysql m = s.base.lib.mysql m := by
    simp only [LibMySql.exec] at he
    split at he
    · cases he
      refine ⟨fun m hm => ?_, fun m => ?_, fun m hm => LibMySql.withMysql_of_ne _ (by omega) _⟩
      · cases hm
        exact ⟨rfl, Nat.lt_succ_self _, LibMySql.withMysql_self ..⟩
      · simp only [ne_eq, Option.some.injEq]
        omega
    · cases he
      exact ⟨(by simp), by simp, fun _ _ => rfl⟩
  have hnames : ∀ d m, ((s.base.cons.withCon c
      { s.base.cons.con c with m_pMySql := r }).con d).m_pMySql = some m →
      d = c ∧ r = some m ∨ d ≠ c ∧ (s.base.cons.con d).m_pMySql = some m := by
    intro d m hm
    by_cases hd : d = c
    · subst hd
      rw [Cons.withCon_self] at hm
      exact Or.inl ⟨rfl, hm⟩
    · rw [Cons.withCon_of_ne hd] at hm
      exact Or.inr ⟨hd, hm⟩
  have hne : ∀ d m, (s.base.cons.con d).m_pMySql = some m → m < y.handles ∧ r ≠ some m :=
    fun d m hm => (hhandles m).mpr (h.bound d m hm)
  refine ⟨⟨fun d => ?_, fun d m hm => ?_, fun d d' m hm hm' => ?_, h.vector, fun d hd => ?_,
    fun d m hm hrm => ?_, fun m hm hrm => ?_, fun m hm => ?_⟩, fun m hm => ?_⟩
  · by_cases hd : d = c
    · subst hd
      exact (congrArg CXEMySqlCon.cs (Cons.withCon_self ..)).trans (h.free d)
    · exact (congrArg CXEMySqlCon.cs (Cons.withCon_of_ne hd ..)).trans (h.free d)
  · rcases hnames d m hm with ⟨-, hrm⟩ | ⟨-, hm⟩
    · exact (hr m hrm).2.1
    · exact (hne d m hm).1
  · rcases hnames d m hm with ⟨rfl, hrm⟩ | ⟨-, hdm⟩ <;>
      rcases hnames d' m hm' with ⟨rfl, hrm'⟩ | ⟨-, hdm'⟩
    · rfl
    · exact absurd hrm (hne _ _ hdm').2
    · exact absurd hrm' (hne _ _ hdm).2
    · exact h.distinct d d' m hdm hdm'
  · have hdc : d ≠ c := fun hdc => hc (hdc ▸ hd)
    obtain ⟨hlt, m, hm, -, hopen, hnone, hmy⟩ := h.pooled d hd
    refine ⟨hlt, m, ?_, (hne d m hm).2, hopen, hnone, ?_⟩
    · exact (congrArg CXEMySqlCon.m_pMySql (Cons.withCon_of_ne hdc ..)).trans hm
    · exact (hmysql m (h.bound d m hm)).trans hmy
  · rcases hnames d m hm with ⟨-, hrm'⟩ | ⟨hdc, hm⟩
    · exact absurd hrm' hrm
    · show (y.mysql m).pending = false
      rw [hmysql m (h.bound d m hm)]
      refine h.idle d m hm fun ho => hdc (h.distinct d c m hm (hown.trans ho))
  · have hlt := (hhandles m).mp ⟨hm, hrm⟩
    by_cases ho : own = some m
    · exact Or.inr (hclosed m ho)
    · refine (h.rest m hlt ho).imp_left ?_
      rintro ⟨d, hd, hdm⟩
      have hdc : d ≠ c := fun hdc => hc (hdc ▸ hd)
      exact ⟨d, hd, (congrArg CXEMySqlCon.m_pMySql (Cons.withCon_of_ne hdc ..)).trans hdm⟩
  · refine h.unmade m ?_
    by_contra hlt
    exact absurd ((hhandles m).mpr (Nat.lt_of_not_le hlt)).1 (Nat.not_lt.mpr hm)
  · obtain ⟨rfl, hlt, hmy⟩ := hr m hm
    exact ⟨hlt, (h.unmade _ (Nat.le_refl _)).1, (h.unmade _ (Nat.le_refl _)).2, hmy⟩

end Arranged

/--
A round is at work on connection `c`, which is not in the pool. If it has a handle, that has been
closed `x` times, the server has accepted `y` statements on it, and it is as `v` says.
-/
structure Working (p : ConnParams) (c x y : Nat) (v : MYSQL) (s : Startup) (l : InitTrace) :
    Prop where
  settled : Arranged p (s.base.cons.con c).m_pMySql s l
  made : c < s.objects
  outside : c ∉ s.base.cons.m_VectorCon
  mine : ∀ m, (s.base.cons.con c).m_pMySql = some m →
    closings m l = x ∧ accepted m l = y ∧ s.base.lib.mysql m = v

namespace Working

variable {rt : Runtime} {t : Tid} {p : ConnParams} {c x y m : Nat} {v : MYSQL} {s s' : Startup}
  {l l' : InitTrace}

/-- Nothing has happened to pool, locks and handles. -/
theorem same (h : Working p c x y v s l)
    (hm : ∀ d, (s'.base.cons.con d).m_pMySql = (s.base.cons.con d).m_pMySql)
    (hcs : ∀ d, (s'.base.cons.con d).cs = (s.base.cons.con d).cs)
    (hvec : s'.base.cons.m_VectorCon = s.base.cons.m_VectorCon) (hlib : s'.base.lib = s.base.lib)
    (hobjects : s.objects ≤ s'.objects)
    (hl : ∀ m, closings m l' = closings m l ∧ accepted m l' = accepted m l) :
    Working p c x y v s' l' := by
  refine ⟨?_, Nat.lt_of_lt_of_le h.made hobjects, hvec ▸ h.outside, fun m hc => ?_⟩
  · rw [hm]
    exact h.settled.same hm hcs hvec hlib hobjects hl
  · rw [hlib, (hl m).1, (hl m).2]
    exact h.mine m ((hm c).symm.trans hc)

/-- A call of the library on the handle of the connection. -/
theorem lib (h : Working p c x y v s l) (hm : (s.base.cons.con c).m_pMySql = some m) {e : LibOp}
    {o : Outcome} {z : LibMySql} {r : e.Reply} (he : s.base.lib.exec e o = (z, r))
    (ht : s.base.lib.target e = some m) :
    Working p c (closings m (⟨.op (.lib e), r⟩ :: l)) (accepted m (⟨.op (.lib e), r⟩ :: l))
      (z.mysql m) { s with base := { s.base with lib := z } } (⟨.op (.lib e), r⟩ :: l) := by
  refine ⟨h.settled.lib he hm ht (h.settled.bound c m hm), h.made, h.outside, fun k hk => ?_⟩
  obtain rfl : m = k := Option.some.inj (hm.symm.trans hk)
  exact ⟨rfl, rfl, rfl⟩

/-- The handle is read. -/
theorem getMySql (h : Working p c x y v s l) :
    Working p c x y v s (⟨.op (.con (.getMySql c)), (s.base.cons.con c).m_pMySql⟩ :: l) :=
  h.same (fun _ => rfl) (fun _ => rfl) rfl rfl (Nat.le_refl _) fun _ => ⟨rfl, rfl⟩

/-- The parameters are stored. -/
theorem setParams (h : Working p c x y v s l) (q : ConnParams) :
    Working p c x y v
      { s with
        base := { s.base with
          cons := s.base.cons.withCon c { s.base.cons.con c with params := q } } }
      (⟨.op (.con (.setParams c q)), ()⟩ :: l) :=
  h.same (fun d => by by_cases hd : d = c <;> simp [hd, Cons.withCon_of_ne])
    (fun d => by by_cases hd : d = c <;> simp [hd, Cons.withCon_of_ne]) rfl rfl (Nat.le_refl _)
    fun _ => ⟨rfl, rfl⟩

/-- The runtime and the log touch nothing. -/
theorem runtime (h : Working p c x y v s l) (e : RtOp) (heap : Nat) (r : e.Reply) :
    Working p c x y v { s with base := { s.base with heap := heap } } (⟨.op (.rt e), r⟩ :: l) :=
  h.same (fun _ => rfl) (fun _ => rfl) rfl rfl (Nat.le_refl _) fun _ => ⟨rfl, rfl⟩

/-- `Close` -/
theorem close (h : Working p c x y v s l) :
    (during (CXEMySqlCon.close c)).Always (Startup.exec rt t) s l
      fun _ s₁ l₁ => Working p c (x + 1) y v s₁ l₁ ∧ s₁ = s := by
  refine always_initCon rfl ?_
  have h₁ := h.getMySql
  cases hm : (s.base.cons.con c).m_pMySql with
  | none =>
    rw [hm] at h₁
    refine Prog.always_ret ⟨⟨h₁.settled, h₁.made, h₁.outside, fun m hm' => ?_⟩, rfl⟩
    rw [hm] at hm'
    cases hm'
  | some m =>
    rw [hm] at h₁
    obtain ⟨hx, hy, hv⟩ := h.mine m hm
    refine always_initLib fun o z r he => ?_
    have h₂ := h₁.lib hm he rfl
    cases he
    refine Prog.always_ret ⟨?_, rfl⟩
    simpa only [closings, accepted, if_true, hx, hy, hv] using h₂

theorem value (h : Working p c x y v s l) (w : MYSQL) (hv : v = w) : Working p c x y w s l :=
  hv ▸ h

/-- A call that neither closes the handle nor sends a statement. -/
theorem call (h : Working p c x y v s l) (hm : (s.base.cons.con c).m_pMySql = some m) {e : LibOp}
    {o : Outcome} {z : LibMySql} {r : e.Reply} (he : s.base.lib.exec e o = (z, r))
    (ht : s.base.lib.target e = some m) (h1 : ∀ k, e ≠ .close k) (h2 : ∀ k q, e ≠ .realQuery k q) :
    Working p c x y (z.mysql m) { s with base := { s.base with lib := z } }
      (⟨.op (.lib e), r⟩ :: l) := by
  obtain ⟨hx, hy, -⟩ := h.mine m hm
  have hcounts : closings m (⟨.op (.lib e), r⟩ :: l) = closings m l ∧
      accepted m (⟨.op (.lib e), r⟩ :: l) = accepted m l := by
    cases e with
    | close k => exact absurd rfl (h1 k)
    | realQuery k q => exact absurd rfl (h2 k q)
    | _ => exact ⟨rfl, rfl⟩
  have h' := h.lib hm he ht
  rwa [hcounts.1, hcounts.2, hx, hy] at h'

/-- A statement, which is counted if the server accepts it. -/
theorem query (h : Working p c x y v s l) (hm : (s.base.cons.con c).m_pMySql = some m) {q : Bytes}
    {o : Outcome} {z : LibMySql} {r : Bool} (he : s.base.lib.exec (.realQuery m q) o = (z, r)) :
    Working p c x (y + if r = true then 1 else 0) (z.mysql m)
      { s with base := { s.base with lib := z } } (⟨.op (.lib (.realQuery m q)), r⟩ :: l) := by
  obtain ⟨hx, hy, -⟩ := h.mine m hm
  have h' := h.lib hm he rfl
  simpa only [closings, accepted, hx, hy, true_and] using h'

/-- `Connect` from `mysql_real_connect` on. -/
theorem opening {q : ConnParams} (h : Working p c 0 0 {} s l)
    (hm : (s.base.cons.con c).m_pMySql = some m) :
    (during (do
      if ← req (.lib (.realConnect m q)) then
        if ← req (.lib (.setCharsetName m utf8)) then
          if ← req (.lib (.setReconnect m)) then pure true else pure false
        else pure false
      else do
        let _ ← req (.lib (.error m))
        pure false)).Always (Startup.exec rt t) s l fun ok s₁ l₁ =>
          ∃ v, Working p c 0 0 v s₁ l₁ ∧ v.pending = false ∧ (ok = true → v = opened q) ∧
            (s₁.base.cons.con c).m_pMySql = some m := by
  have hv := (h.mine m hm).2.2
  refine always_initLib fun o z ok he => ?_
  have h₁ := h.call hm he rfl (by simp) (by simp)
  cases ho : o.ok with
  | true =>
    simp only [LibMySql.exec, ho, if_true] at he
    cases he
    have h₁ := h₁.value { server := some q, db := q.db } (by simp [hv])
    refine always_initLib fun o z ok he => ?_
    have h₂ := h₁.call hm he rfl (by simp) (by simp)
    cases ho : o.ok with
    | true =>
      simp only [LibMySql.exec, ho, if_true] at he
      cases he
      have h₂ := h₂.value { server := some q, db := q.db, charset := some utf8 } (by simp [hv])
      refine always_initLib fun o z ok he => ?_
      have h₃ := h₂.call hm he rfl (by simp) (by simp)
      cases ho : o.ok with
      | true =>
        simp only [LibMySql.exec, ho, if_true] at he
        cases he
        exact Prog.always_ret ⟨_, h₃.value (opened q) (by simp [hv, opened]), rfl, fun _ => rfl, hm⟩
      | false =>
        simp only [LibMySql.exec, ho, Bool.false_eq_true, if_false] at he
        cases he
        exact Prog.always_ret ⟨_, h₃, by simp [hv], (by simp), hm⟩
    | false =>
      simp only [LibMySql.exec, ho, Bool.false_eq_true, if_false] at he
      cases he
      exact Prog.always_ret ⟨_, h₂, by simp [hv], (by simp), hm⟩
  | false =>
    simp only [LibMySql.exec, ho, Bool.false_eq_true, if_false] at he
    cases he
    refine always_initLib fun o z _ he => Prog.always_ret ?_
    have h₂ := h₁.call hm he rfl (by simp) (by simp)
    cases he
    exact ⟨_, h₂, by simp [hv], (by simp), hm⟩

/-- The connection gets the answer of `mysql_init` for a handle that has been closed. -/
theorem replace (h : Working p c x y v s l)
    (hxy : (s.base.cons.con c).m_pMySql ≠ none → x = 1 + y ∧ y ≤ 1) {o : Outcome} {z : LibMySql}
    {r : Option Nat} (he : s.base.lib.exec .init o = (z, r)) :
    Working p c 0 0 {}
      { s with
        base := { s.base with
          lib := z
          cons := s.base.cons.withCon c { s.base.cons.con c with m_pMySql := r } } }
      (⟨.op (.con (.setMySql c r)), ()⟩ :: ⟨.op (.lib .init), r⟩ :: l) := by
  have hr : ((s.base.cons.withCon c { s.base.cons.con c with m_pMySql := r }).con c).m_pMySql = r :=
    congrArg CXEMySqlCon.m_pMySql (Cons.withCon_self ..)
  have hclosed : ∀ m, (s.base.cons.con c).m_pMySql = some m →
      closings m l = 1 + accepted m l ∧ accepted m l ≤ 1 := by
    intro m hm
    obtain ⟨hx, hy, -⟩ := h.mine m hm
    rw [hx, hy]
    exact hxy (by simp [hm])
  obtain ⟨hsettled, hnew⟩ := h.settled.replace h.outside rfl hclosed he
  refine ⟨?_, h.made, h.outside, fun m hm => (hnew m (hr.symm.trans hm)).2⟩
  show Arranged p ((s.base.cons.withCon c { s.base.cons.con c with m_pMySql := r }).con c).m_pMySql
    _ _
  rw [hr]
  exact hsettled

/-- **`Connect`** closes what the connection has, however often that has been closed, and gives it a
new handle. -/
theorem connect (h : Working p c x y v s l)
    (hxy : (s.base.cons.con c).m_pMySql ≠ none → x = y ∧ y ≤ 1) (q : ConnParams) :
    (during (CXEMySqlCon.connect c q)).Always (Startup.exec rt t) s l fun ok s₁ l₁ =>
      ∃ v, Working p c 0 0 v s₁ l₁ ∧ v.pending = false ∧
        (ok = true → v = opened q ∧ (s₁.base.cons.con c).m_pMySql ≠ none) := by
  unfold CXEMySqlCon.connect
  rw [during_bind]
  refine h.close.bind ?_
  rintro _ s₁ l₁ ⟨h₁, he⟩
  rw [← he] at hxy
  refine always_initCon rfl ?_
  have h₂ := h₁.setParams q
  refine always_initLib fun o z r he => ?_
  refine always_initCon rfl ?_
  have h₃ := h₂.replace (fun hm => by
    obtain ⟨rfl, hy⟩ := hxy (by simpa using hm)
    exact ⟨Nat.add_comm _ _, hy⟩) he
  cases r with
  | none => exact Prog.always_ret ⟨_, h₃, rfl, nofun⟩
  | some m =>
    refine (h₃.opening (congrArg CXEMySqlCon.m_pMySql (Cons.withCon_self ..))).mono ?_
    rintro ok s₄ l₄ ⟨v, h₄, hp, hok, hm⟩
    exact ⟨v, h₄, hp, fun he => ⟨hok he, by simp [hm]⟩⟩

/-- `ExecuteSQL` on the handle of the connection, which then counts one statement more if the server has
accepted it. -/
theorem executeSQL (h : Working p c 0 0 v s l) (hm : (s.base.cons.con c).m_pMySql = some m)
    (cmd : Bytes) (args : List Printf.Arg) :
    (during (CXEMySql.executeSQL (some m) cmd args)).Always (Startup.exec rt t) s l
      fun ok s₁ l₁ => ∃ v, Working p c 0 (if ok then 1 else 0) v s₁ l₁ := by
  refine always_initRt fun heap szQuery => ?_
  have h₁ := h.runtime (.vsnprintf 1023 cmd args) heap szQuery
  refine always_initLib fun o z ok he => ?_
  have h₂ := h₁.query hm he
  cases ok with
  | true =>
    refine always_initRt fun heap _ => Prog.always_ret ⟨z.mysql m, ?_⟩
    exact h₂.runtime _ heap _
  | false =>
    refine always_initLib fun o z n he => ?_
    have h₃ := h₂.call hm he rfl (by simp) (by simp)
    refine always_initLib fun o z e he => ?_
    have h₄ := h₃.call hm he rfl (by simp) (by simp)
    refine always_initRt fun heap _ => Prog.always_ret ⟨z.mysql m, ?_⟩
    exact h₄.runtime _ heap _

end Working

/-- How a round ends: with a new connection, with a new handle that is no good, or with one that nobody
knows of any more. -/
inductive RoundEnds (p : ConnParams) (s : Startup) :
    Option (Nat × Bool) → Startup → InitTrace → Prop
  | kept {s₁ l₁} (h : Working p s.objects 0 0 (opened p) s₁ l₁)
    (hm : (s₁.base.cons.con s.objects).m_pMySql ≠ none) :
    RoundEnds p s (some (s.objects, true)) s₁ l₁
  | skipped {v s₁ l₁} (h : Working p s.objects 0 0 v s₁ l₁) (hp : v.pending = false) :
    RoundEnds p s (some (s.objects, false)) s₁ l₁
  | failed {v s₁ l₁} (h : Working p s.objects 0 0 v s₁ l₁) : RoundEnds p s none s₁ l₁

section

variable {rt : Runtime} {t : Tid} {p : ConnParams} {s s' : Startup} {l l' : InitTrace}

/-- A round begins with a connection that has no handle. -/
theorem Arranged.working (h : Arranged p none s l) :
    Working p s.objects 0 0 {}
      { s with
        objects := s.objects + 1
        base := { s.base with cons := s.base.cons.withCon s.objects {} } }
      (⟨.newCon, s.objects⟩ :: l) := by
  have hself : (s.base.cons.withCon s.objects {}).con s.objects = {} := Cons.withCon_self ..
  have hnames : ∀ d m, ((s.base.cons.withCon s.objects {}).con d).m_pMySql = some m →
      (s.base.cons.con d).m_pMySql = some m := by
    intro d m hm
    by_cases hd : d = s.objects
    · subst hd
      rw [hself] at hm
      cases hm
    · rwa [Cons.withCon_of_ne hd] at hm
  have hold : ∀ d ∈ s.base.cons.m_VectorCon,
      (s.base.cons.withCon s.objects {}).con d = s.base.cons.con d :=
    fun d hd => Cons.withCon_of_ne (Nat.ne_of_lt (h.pooled d hd).1) ..
  have hnone : ((s.base.cons.withCon s.objects {}).con s.objects).m_pMySql = none :=
    congrArg CXEMySqlCon.m_pMySql hself
  refine ⟨?_, Nat.lt_succ_self _, fun hc => Nat.lt_irrefl _ (h.pooled _ hc).1, fun m hm => ?_⟩
  · show Arranged p ((s.base.cons.withCon s.objects {}).con s.objects).m_pMySql _ _
    rw [hnone]
    refine ⟨fun d => ?_, fun d m hm => h.bound d m (hnames d m hm), fun d d' m hm hm' =>
      h.distinct d d' m (hnames d m hm) (hnames d' m hm'), h.vector, fun d hd => ?_,
      fun d m hm => h.idle d m (hnames d m hm), fun m hm hne => ?_, h.unmade⟩
    · by_cases hd : d = s.objects
      · subst hd
        exact congrArg CXEMySqlCon.cs hself
      · exact (congrArg CXEMySqlCon.cs (Cons.withCon_of_ne hd ..)).trans (h.free d)
    · obtain ⟨hlt, m, hm, hrest⟩ := h.pooled d hd
      exact ⟨Nat.lt_succ_of_lt hlt, m, (congrArg CXEMySqlCon.m_pMySql (hold d hd)).trans hm, hrest⟩
    · refine (h.rest m hm hne).imp_left ?_
      rintro ⟨d, hd, hdm⟩
      exact ⟨d, hd, (congrArg CXEMySqlCon.m_pMySql (hold d hd)).trans hdm⟩
  · cases hnone.symm.trans hm

/-- A round that keeps its connection. -/
theorem Working.kept {c : Nat} (h : Working p c 0 0 (opened p) s l)
    (hm : (s.base.cons.con c).m_pMySql ≠ none) :
    Arranged p none (s.withVector (s.base.cons.m_VectorCon ++ [c])) (⟨.pushBack c, ()⟩ :: l) := by
  obtain ⟨m, hm⟩ := Option.ne_none_iff_exists'.mp hm
  obtain ⟨hx, hy, hv⟩ := h.mine m hm
  refine ⟨h.settled.free, h.settled.bound, h.settled.distinct, ?_, fun d hd => ?_,
    fun d k hk _ => ?_, fun k hk _ => ?_, h.settled.unmade⟩
  · refine List.nodup_append.mpr ⟨h.settled.vector, List.nodup_singleton c, ?_⟩
    rintro a ha b hb rfl
    exact h.outside (List.mem_singleton.mp hb ▸ ha)
  · rcases List.mem_append.mp hd with hd | hd
    · obtain ⟨hlt, k, hk, -, hrest⟩ := h.settled.pooled d hd
      exact ⟨hlt, k, hk, nofun, hrest⟩
    · rw [List.mem_singleton.mp hd]
      exact ⟨h.made, m, hm, nofun, hx, hy, hv⟩
  · by_cases hmk : m = k
    · subst hmk
      show (s.base.lib.mysql m).pending = false
      rw [hv]
      rfl
    · exact h.settled.idle d k hk (by simpa [hm] using hmk)
  · by_cases hmk : m = k
    · subst hmk
      exact Or.inl ⟨c, List.mem_append_right _ List.mem_cons_self, hm⟩
    · refine (h.settled.rest k hk (by simpa [hm] using hmk)).imp_left ?_
      rintro ⟨d, hd, hdk⟩
      exact ⟨d, List.mem_append_left _ hd, hdk⟩

/-- A round that gives its connection up, which the destructor has closed. -/
theorem Working.skipped {c : Nat} {v : MYSQL} (h : Working p c 1 0 v s l) (hp : v.pending = false) :
    Arranged p none s (⟨.deleteCon c, ()⟩ :: l) := by
  refine ⟨h.settled.free, h.settled.bound, h.settled.distinct, h.settled.vector, fun d hd => ?_,
    fun d k hk _ => ?_, fun k hk _ => ?_, h.settled.unmade⟩
  · obtain ⟨hlt, k, hk, -, hrest⟩ := h.settled.pooled d hd
    exact ⟨hlt, k, hk, nofun, hrest⟩
  · by_cases hmk : (s.base.cons.con c).m_pMySql = some k
    · rw [(h.mine k hmk).2.2]
      exact hp
    · exact h.settled.idle d k hk hmk
  · by_cases hmk : (s.base.cons.con c).m_pMySql = some k
    · obtain ⟨hx, hy, -⟩ := h.mine k hmk
      exact Or.inr ⟨hx.trans (congrArg (1 + ·) hy).symm, hy.trans_le (Nat.zero_le 1)⟩
    · exact h.settled.rest k hk hmk

/-- **A round**, however it goes. -/
theorem Arranged.connectOne (h : Arranged p none s l) :
    (CXEMySql.connectOne p).Always (Startup.exec rt t) s l fun x s₁ l₁ => RoundEnds p s x s₁ l₁ := by
  refine Prog.always_op (fun _ _ he => nomatch he) fun o s₁ c he => ?_
  cases he
  refine (h.working.connect (by simp) p).bind ?_
  rintro ok s₁ l₁ ⟨v, h₁, hp, hok⟩
  cases ok with
  | true =>
    obtain ⟨rfl, hm⟩ := hok rfl
    exact Prog.always_ret (.kept h₁ hm)
  | false =>
    refine (h₁.connect (fun _ => ⟨rfl, Nat.zero_le 1⟩) _).bind ?_
    rintro ok s₂ l₂ ⟨v, h₂, hp, hok⟩
    cases ok with
    | false => exact Prog.always_ret (.failed h₂)
    | true =>
      obtain ⟨m, hm⟩ := Option.ne_none_iff_exists'.mp (hok rfl).2
      refine always_initCon rfl ?_
      have h₂ := h₂.getMySql
      show Prog.Always _ (during (CXEMySql.executeSQL (s₂.base.cons.con s.objects).m_pMySql
        createDatabase [.str p.db]) >>= _) _ _ _
      rw [hm] at h₂ ⊢
      refine (h₂.executeSQL hm createDatabase [.str p.db]).bind ?_
      rintro created s₃ l₃ ⟨v, h₃⟩
      cases created with
      | false => exact Prog.always_ret (.failed h₃)
      | true =>
        -- `Connect` closes once more what `Close` has closed
        refine h₃.close.bind ?_
        rintro _ s₄ l₄ ⟨h₄, -⟩
        refine (h₄.connect (fun _ => ⟨rfl, Nat.le_refl 1⟩) p).bind ?_
        rintro ok s₅ l₅ ⟨v, h₅, hp, hok⟩
        cases ok with
        | true =>
          obtain ⟨rfl, hm⟩ := hok rfl
          exact Prog.always_ret (.kept h₅ hm)
        | false => exact Prog.always_ret (.skipped h₅ hp)

/-- How the loop ends. -/
def LoopEnds (p : ConnParams) (a : Bool) (s : Startup) (l : InitTrace) : Prop :=
  a = true ∧ Arranged p none s l ∨ a = false ∧ ∃ c v, Working p c 0 0 v s l

/-- **Run lemma.** The rounds one after the other. -/
theorem Arranged.connectAll (h : Arranged p none s l) (n : Nat) :
    (CXEMySql.connectAll p n).Always (Startup.exec rt t) s l fun a s₁ l₁ => LoopEnds p a s₁ l₁ := by
  induction n generalizing s l with
  | zero => exact Prog.always_ret (Or.inl ⟨rfl, h⟩)
  | succ n ih =>
    refine h.connectOne.bind fun x s₁ l₁ hend => ?_
    cases hend with
    | kept hw hm =>
      refine Prog.always_op (fun _ _ he => nomatch he) fun o s₂ _ he => ?_
      cases he
      exact ih (hw.kept hm)
    | skipped hw hp =>
      refine hw.close.bind ?_
      rintro _ s₂ l₂ ⟨hw, -⟩
      refine Prog.always_op (fun _ _ he => nomatch he) fun o s₃ _ he => ?_
      cases he
      exact ih (hw.skipped hp)
    | failed hw => exact Prog.always_ret (Or.inr ⟨rfl, _, _, hw⟩)

/-- Before `Initialize` there is nothing to settle. -/
theorem arranged_new : Arranged p none .new [] where
  free _ := rfl
  bound _ _ hm := nomatch hm
  distinct _ _ _ hm := nomatch hm
  vector := List.nodup_nil
  pooled _ hd := nomatch hd
  idle _ _ hm := nomatch hm
  rest _ hm := absurd hm (Nat.not_lt_zero _)
  unmade _ _ := ⟨rfl, rfl⟩

end

/-! ## `Initialize` -/

/--
What has become of the handles when `Initialize` returns. Connections of the pool have one each,
which is open. Of all others one at most is still open, and lost. On none of these the database has
been created. The rest has been closed, once, or twice when it has been created on the handle.
-/
structure HandlesSettled (s : Startup) (l : InitTrace) (leaked : Option Nat) : Prop where
  vector : s.base.cons.m_VectorCon.Nodup
  pooled : ∀ c ∈ s.base.cons.m_VectorCon, ∃ m < s.base.lib.handles,
    (s.base.cons.con c).m_pMySql = some m ∧ closings m l = 0 ∧ accepted m l = 0 ∧
      ∀ d, (s.base.cons.con d).m_pMySql = some m → d = c
  lost : ∀ m, leaked = some m → m < s.base.lib.handles ∧ closings m l = 0 ∧ accepted m l = 0 ∧
    ∀ c ∈ s.base.cons.m_VectorCon, (s.base.cons.con c).m_pMySql ≠ some m
  rest : ∀ m < s.base.lib.handles, leaked ≠ some m →
    (∀ c ∈ s.base.cons.m_VectorCon, (s.base.cons.con c).m_pMySql ≠ some m) →
      closings m l = 1 + accepted m l ∧ accepted m l ≤ 1
  once : (∀ m, closings m l ≤ 1) ↔ ∀ m, accepted m l = 0

section

variable {rt : Runtime} {t : Tid} {p : ConnParams} {s s' : Startup} {l l' : InitTrace}

/-- The handles of a settled state, but for one that nothing has been done with. -/
theorem Arranged.handlesSettled {lost : Option Nat} (h : Arranged p lost s l)
    (hlost : ∀ m, lost = some m → m < s.base.lib.handles ∧ closings m l = 0 ∧ accepted m l = 0 ∧
      ∀ c ∈ s.base.cons.m_VectorCon, (s.base.cons.con c).m_pMySql ≠ some m) :
    HandlesSettled s l lost := by
  have hrest : ∀ m < s.base.lib.handles, lost ≠ some m →
      (∀ c ∈ s.base.cons.m_VectorCon, (s.base.cons.con c).m_pMySql ≠ some m) →
        closings m l = 1 + accepted m l ∧ accepted m l ≤ 1 := by
    intro m hm hl hc
    refine (h.rest m hm hl).resolve_left ?_
    rintro ⟨c, hmem, hcm⟩
    exact hc c hmem hcm
  -- what is open has had no statement
  have hopen : ∀ m, closings m l = 0 ∧ accepted m l = 0 ∨ closings m l = 1 + accepted m l := by
    intro m
    by_cases hm : m < s.base.lib.handles
    · by_cases hl : lost = some m
      · exact Or.inl ⟨(hlost m hl).2.1, (hlost m hl).2.2.1⟩
      · rcases h.rest m hm hl with ⟨c, hc, hcm⟩ | hr
        · obtain ⟨-, k, hk, -, h0, h1, -⟩ := h.pooled c hc
          obtain rfl : k = m := Option.some.inj (hk.symm.trans hcm)
          exact Or.inl ⟨h0, h1⟩
        · exact Or.inr hr.1
    · exact Or.inl (h.unmade m (Nat.le_of_not_lt hm))
  refine ⟨h.vector, fun c hc => ?_, fun m hm => ?_, hrest, fun hle m => ?_, fun hnone m => ?_⟩
  · obtain ⟨-, m, hm, -, h0, h1, -⟩ := h.pooled c hc
    exact ⟨m, h.bound c m hm, hm, h0, h1, fun d hd => h.distinct d c m hd hm⟩
  · exact hlost m hm
  · have hm := hle m
    rcases hopen m with hr | hr
    · exact hr.2
    · omega
  · have hm := hnone m
    rcases hopen m with hr | hr
    · omega
    · omega

/-- Requests that have nothing to do with the thread pool. -/
def NoThreads : Op → Prop
  | .tp _ => False
  | _ => True

theorem close_only (c : Nat) : (CXEMySqlCon.close c).Only NoThreads := by
  refine ⟨trivial, fun m => ?_⟩
  cases m with
  | none => trivial
  | some m => exact ⟨trivial, fun _ => trivial⟩

theorem connect_only (c : Nat) (q : ConnParams) : (CXEMySqlCon.connect c q).Only NoThreads := by
  refine Prog.only_bind (close_only c) fun _ => ⟨trivial, fun _ => ⟨trivial, fun m => ⟨trivial,
    fun _ => ?_⟩⟩⟩
  cases m with
  | none => trivial
  | some m =>
    refine ⟨trivial, fun ok => ?_⟩
    cases ok with
    | false => exact ⟨trivial, fun _ => trivial⟩
    | true =>
      refine ⟨trivial, fun ok => ?_⟩
      cases ok with
      | false => trivial
      | true => exact ⟨trivial, fun ok => by cases ok <;> trivial⟩

theorem executeSQL_only (m : Option Nat) (cmd : Bytes) (args : List Printf.Arg) :
    (CXEMySql.executeSQL m cmd args).Only NoThreads := by
  cases m with
  | none => trivial
  | some m =>
    refine ⟨trivial, fun _ => ⟨trivial, fun ok => ?_⟩⟩
    cases ok with
    | true => exact ⟨trivial, fun _ => trivial⟩
    | false => exact ⟨trivial, fun _ => ⟨trivial, fun _ => ⟨trivial, fun _ => trivial⟩⟩⟩

/-- The same for requests of `Initialize`. -/
def InitNoThreads : InitOp → Prop
  | .op e => NoThreads e
  | _ => True

theorem during_only {α : Type} {q : Code α} (h : q.Only NoThreads) :
    (during q).Only InitNoThreads :=
  h.lift fun _ => id

theorem connectOne_only (p : ConnParams) : (CXEMySql.connectOne p).Only InitNoThreads := by
  have hask : ∀ e, InitNoThreads e → (ireq e).Only InitNoThreads :=
    fun e he => ⟨he, fun _ => trivial⟩
  refine Prog.only_bind (hask .newCon trivial) fun c => ?_
  refine Prog.only_bind (during_only (connect_only c p)) fun ok => ?_
  cases ok with
  | true => trivial
  | false =>
    refine Prog.only_bind (during_only (connect_only c _)) fun ok => ?_
    cases ok with
    | false => trivial
    | true =>
      refine Prog.only_bind (hask (.op (.con (.getMySql c))) trivial) fun m => ?_
      refine Prog.only_bind (during_only (executeSQL_only m _ _)) fun ok => ?_
      cases ok with
      | false => trivial
      | true =>
        exact Prog.only_bind (during_only (close_only c)) fun _ =>
          Prog.only_bind (during_only (connect_only c p)) fun _ => trivial

/-- The loop has nothing to do with the thread pool. -/
theorem connectAll_only (p : ConnParams) (n : Nat) :
    (CXEMySql.connectAll p n).Only InitNoThreads := by
  induction n with
  | zero => trivial
  | succ n ih =>
    refine Prog.only_bind (connectOne_only p) fun x => ?_
    match x with
    | none => trivial
    | some (c, true) => exact ⟨trivial, fun _ => ih⟩
    | some (c, false) =>
      exact Prog.only_bind (during_only (close_only c)) fun _ => ⟨trivial, fun _ => ih⟩

/-- Nor does it touch it. -/
theorem connectAll_tp {n : Nat} {a : Bool}
    (h : (CXEMySql.connectAll p n).Runs (Startup.exec rt t) s l a s' l') :
    s'.base.tp = s.base.tp := by
  refine (connectAll_only p n).keeps (I := fun x => x.base.tp = s.base.tp) ?_ h rfl
  intro e o s₁ s₂ r he hs hex
  rw [← hs]
  cases e with
  | op e =>
    obtain ⟨x, hx, rfl⟩ := Startup.exec_op hex
    cases e with
    | tp e => exact he.elim
    | task e =>
      obtain ⟨y, -, rfl⟩ := exec_task hx
      rfl
    | con e =>
      obtain ⟨y, -, rfl⟩ := exec_con hx
      rfl
    | lib e =>
      obtain ⟨rfl, -⟩ := exec_lib hx
      rfl
    | res e =>
      obtain ⟨y, -, rfl⟩ := exec_res hx
      rfl
    | rt e =>
      obtain ⟨y, -, rfl⟩ := exec_rt hx
      rfl
  | _ =>
    cases hex
    rfl

/-- How `Initialize` ends: it has failed in the loop, or made the task pool and the worker after it. -/
theorem initialize_ends {n jobCount : Nat} {a : Bool}
    (h : (CXEMySql.Initialize p n jobCount).Runs (Startup.exec rt t) .new [] a s' l') :
    a = false ∧ (∃ c v, Working p c 0 0 v s' l') ∨
      a = true ∧ Arranged p none s' l' ∧ s'.base.cons.m_VectorCon.length ≤ n ∧
        s'.base.tp = Startup.new.base.tp ∧ (∃ garbage, s'.base.jobs.pool = .new garbage jobCount) ∧
        ∀ k, s'.base.jobs.task k = .init := by
  have hstart : Built p .new .new [] [] :=
    ⟨rfl, by simp, by simp [connected], fun _ => rfl, by simp [rounds], by simp [rounds],
      Nat.le_refl _, by simp [rounds], rfl, rfl⟩
  obtain ⟨ok, s₁, l₁, hloop, hrest⟩ := h.split
  have hbuilt := connectAll_always hstart (Nat.zero_add n) _ _ _ hloop
  rcases arranged_new.connectAll n _ _ _ hloop with ⟨rfl, hs⟩ | ⟨rfl, hw⟩
  · obtain ⟨cs, hb, hn⟩ := (hbuilt.resolve_right (by simp)).2
    -- the task pool and the worker
    cases hrest with
    | wait _ he => cases he
    | reply o he hrest =>
      cases he
      cases hrest with
      | wait _ he => cases he
      | reply _ he hrest =>
        cases he
        cases hrest
        have htp := connectAll_tp hloop
        refine Or.inr ⟨rfl, ?_, ?_, htp, ⟨o.number, rfl⟩, fun _ => rfl⟩
        · exact hs.same (fun _ => rfl) (fun _ => rfl) rfl rfl (Nat.le_add_right _ 2)
            fun _ => ⟨rfl, rfl⟩
        · have hle := hb.le
          rw [hn] at hle
          rw [show s₁.base.cons.m_VectorCon = cs from hb.vector]
          exact hle
  · cases hrest
    exact Or.inl ⟨rfl, hw⟩

/--
**The handles of `Initialize`.** However it is answered, each handle it makes is that of a connection
of the pool and open, or it has been closed, but for one at most, and that one only when `Initialize`
returns `false`. None is closed twice if and only if no database has been created.
-/
theorem initialize_handles {n jobCount : Nat} {a : Bool}
    (h : (CXEMySql.Initialize p n jobCount).Runs (Startup.exec rt t) .new [] a s' l') :
    ∃ leaked, (a = true → leaked = none) ∧ HandlesSettled s' l' leaked := by
  rcases initialize_ends h with ⟨rfl, c, v, hw⟩ | ⟨rfl, hs, -⟩
  · refine ⟨_, nofun, hw.settled.handlesSettled fun m hm => ?_⟩
    obtain ⟨hx, hy, -⟩ := hw.mine m hm
    refine ⟨hw.settled.bound c m hm, hx, hy, fun d hd hdm => ?_⟩
    exact hw.outside (hw.settled.distinct c d m hm hdm ▸ hd)
  · exact ⟨none, fun _ => rfl, hs.handlesSettled nofun⟩

end

/-- A run in which the database is created on handle 1, which is closed twice. -/
theorem initialize_handles_created : ∃ s' l,
    (CXEMySql.Initialize ⟨[], [], [], [100], 3306⟩ 1 10).Runs (Startup.exec .standard (.client 0))
      .new [] true s' l ∧ closings 1 l = 2 ∧
    ∃ leaked, (true = true → leaked = none) ∧ HandlesSettled s' l leaked := by
  have hrun : ((CXEMySql.Initialize ⟨[], [], [], [100], 3306⟩ 1 10).eval
      (Startup.exec .standard (.client 0))
      (List.replicate 5 .success ++ { ok := false } :: List.replicate 26 .success) .new []).map
      (fun x => (x.1, closings 1 x.2.2)) = some (true, 2) := by
    decide +kernel
  obtain ⟨⟨a, s', l⟩, heval, he⟩ := Option.map_eq_some_iff.mp hrun
  obtain ⟨rfl, htwice⟩ := Prod.mk.inj he
  have h := Prog.runs_of_eval heval
  exact ⟨s', l, h, htwice, initialize_handles h⟩

/-! ## `Start` -/

/-- The thread pool has `n` workers, all running, and lists them in the order of their creation. -/
structure ThreadPool.Staffed (s : ThreadPool Nat) (n : Nat) : Prop where
  threads : s.threads = n
  list : s.m_ThreadList = (List.range n).map s.info
  handle : ∀ i < n, (s.info i).m_hThread = i
  ids : ∀ i < n, ∀ j < n, (s.info i).m_dwThreadIdx = (s.info j).m_dwThreadIdx → i = j
  running : ∀ i < n, s.ended i = false

section

variable {rt : Runtime} {t : Tid} {p : ConnParams} {s s' : Startup} {l l' : InitTrace} {α : Type}
  {Q : α → Startup → InitTrace → Prop}

theorem always_initTp {e : TPOp Nat} {k : e.Reply → InitCode α}
    (hwait : ∀ o x, s.base.tp.exec t e o ≠ some (x, none))
    (h : ∀ o x r, s.base.tp.exec t e o = some (x, some r) →
      (k r).Always (Startup.exec rt t) { s with base := { s.base with tp := x } }
        (⟨.op (.tp e), r⟩ :: l) Q) :
    (Prog.op (.op (.tp e)) k : InitCode α).Always (Startup.exec rt t) s l Q := by
  refine Prog.always_op (fun o s₁ he => ?_) fun o s₁ r he => ?_
  · obtain ⟨x, hx, -⟩ := Startup.exec_op he
    obtain ⟨y, hy, -⟩ := exec_tp hx
    exact hwait o y hy
  · obtain ⟨x, hx, rfl⟩ := Startup.exec_op he
    obtain ⟨y, hy, rfl⟩ := exec_tp hx
    exact h o y r hy

/-- A thread more, which gets an id that no other has. -/
theorem ThreadPool.Staffed.createThread {x y : ThreadPool Nat} {n : Nat} {o : Outcome}
    {info : ThreadInfo} (h : x.Staffed n) (he : x.exec t .createThread o = some (y, some info)) :
    ThreadPool.Staffed { y with m_ThreadList := y.m_ThreadList ++ [info] } (n + 1) ∧
      y.port = x.port ∧ y.m_hWorkerIoPort = x.m_hWorkerIoPort ∧ y.m_arrayCs = x.m_arrayCs := by
  obtain rfl := h.threads
  simp only [ThreadPool.exec] at he
  split at he
  · cases he
  next hid =>
    cases he
    have hold : ∀ i < x.threads,
        Function.update x.info x.threads ⟨o.number, x.threads⟩ i = x.info i :=
      fun i hi => Function.update_of_ne (Nat.ne_of_lt hi) ..
    have hnew : Function.update x.info x.threads ⟨o.number, x.threads⟩ x.threads
        = ⟨o.number, x.threads⟩ := Function.update_self ..
    have hfresh : ∀ i < x.threads, (x.info i).m_dwThreadIdx ≠ o.number := by
      intro i hi hn
      refine hid (List.any_eq_true.mpr ⟨i, List.mem_range.mpr hi, ?_⟩)
      simp [hn, h.running i hi]
    refine ⟨⟨rfl, ?_, fun i hi => ?_, fun i hi j hj hij => ?_, fun i hi => ?_⟩, rfl, rfl, rfl⟩
    · show x.m_ThreadList ++ [⟨o.number, x.threads⟩] = (List.range (x.threads + 1)).map
        (Function.update x.info x.threads ⟨o.number, x.threads⟩)
      rw [List.range_succ, List.map_append, List.map_singleton, hnew, h.list]
      congr 1
      exact List.map_congr_left fun i hi => (hold i (List.mem_range.mp hi)).symm
    · rcases Nat.lt_succ_iff_lt_or_eq.mp hi with hi | rfl
      · exact (congrArg ThreadInfo.m_hThread (hold i hi)).trans (h.handle i hi)
      · exact congrArg ThreadInfo.m_hThread hnew
    · have hij' : (Function.update x.info x.threads ⟨o.number, x.threads⟩ i).m_dwThreadIdx =
          (Function.update x.info x.threads ⟨o.number, x.threads⟩ j).m_dwThreadIdx := hij
      rcases Nat.lt_succ_iff_lt_or_eq.mp hi with hi | hi <;>
        rcases Nat.lt_succ_iff_lt_or_eq.mp hj with hj | hj
      · rw [hold i hi, hold j hj] at hij'
        exact h.ids i hi j hj hij'
      · rw [hold i hi, hj, hnew] at hij'
        exact absurd hij' (hfresh i hi)
      · rw [hi, hold j hj, hnew] at hij'
        exact absurd hij'.symm (hfresh j hj)
      · exact hi.trans hj.symm
    · show Function.update x.ended x.threads false i = false
      rcases Nat.lt_succ_iff_lt_or_eq.mp hi with hi | hi
      · rw [Function.update_of_ne (Nat.ne_of_lt hi)]
        exact h.running i hi
      · rw [hi, Function.update_self]

/-- **Run lemma.** The loop of `Start`. -/
theorem startThreads_always {k : Nat} (n : Nat) (h : s.base.tp.Staffed k) :
    (during (CXEMySql.inPool (ThreadPool.startThreads n))).Always (Startup.exec rt t) s l
      fun _ s₁ _ => ∃ x, s₁ = { s with base := { s.base with tp := x } } ∧ x.Staffed (k + n) ∧
        x.port = s.base.tp.port ∧ x.m_hWorkerIoPort = s.base.tp.m_hWorkerIoPort ∧
        x.m_arrayCs = s.base.tp.m_arrayCs := by
  induction n generalizing s l k with
  | zero => exact Prog.always_ret ⟨s.base.tp, rfl, h, rfl, rfl, rfl⟩
  | succ n ih =>
    refine always_initTp (fun o x hx => ?_) fun o x info hx => ?_
    · simp only [ThreadPool.exec] at hx
      split at hx <;> cases hx
    · obtain ⟨h₁, hport, hio, hcs⟩ := h.createThread hx
      refine always_initTp (by simp [ThreadPool.exec]) fun o y _ hy => ?_
      cases hy
      refine (ih h₁).mono ?_
      rintro _ s₁ _ ⟨z, rfl, hz, hp, hi, hc⟩
      refine ⟨z, rfl, ?_, hp.trans hport, hi.trans hio, hc.trans hcs⟩
      rw [show k + (n + 1) = k + 1 + n by omega]
      exact hz

/-- `Start` from its loop on. -/
theorem startLoop_always {n : Nat} (h : s.base.tp.Staffed 0) {q : Port Nat}
    (hport : s.base.tp.port s.base.tp.m_hWorkerIoPort = q) (hcs : s.base.tp.m_arrayCs = .held t 0) :
    (during (CXEMySql.inPool (ThreadPool.startThreads n >>= fun _ => ThreadPool.req .unLock))).Always
      (Startup.exec rt t) s l fun _ s₁ _ =>
        ∃ x, s₁ = { s with base := { s.base with tp := x } } ∧ x.Staffed n ∧
          x.port x.m_hWorkerIoPort = q ∧ x.m_arrayCs = .free := by
  rw [CXEMySql.inPool, Prog.lift_bind, during_bind]
  refine (startThreads_always n h).bind ?_
  rintro _ s₁ l₁ ⟨x, rfl, hx, hp, hio, hc⟩
  have hleave : x.m_arrayCs.leave t = some .free := by
    rw [hc, hcs]
    exact if_pos rfl
  refine always_initTp (fun o y hy => ?_) fun o y _ hy => ?_
  · simp [ThreadPool.exec, hleave] at hy
  · simp only [ThreadPool.exec, hleave, Option.map_some, Option.some.injEq] at hy
    cases hy
    refine Prog.always_ret ⟨_, rfl, ?_, ?_, rfl⟩
    · rw [Nat.zero_add] at hx
      exact ⟨hx.threads, hx.list, hx.handle, hx.ids, hx.running⟩
    · show x.port x.m_hWorkerIoPort = q
      rw [hp, hio, hport]

/-- `Start` of a pool that is not in use. -/
theorem start_always {n : Nat} (h : s.base.tp.Staffed 0) (hfree : s.base.tp.m_arrayCs = .free) :
    (during (CXEMySql.start n)).Always (Startup.exec rt t) s l fun _ s₁ _ =>
      ∃ x, s₁ = { s with base := { s.base with tp := x } } ∧ x.Staffed n ∧
        x.port x.m_hWorkerIoPort = { opened := true } ∧ x.m_arrayCs = .free := by
  refine always_initTp (fun o x hx => ?_) fun o x _ hx => ?_
  · simp [ThreadPool.exec, hfree, Lock.tryEnter] at hx
  · simp only [ThreadPool.exec, hfree, Lock.tryEnter] at hx
    cases hx
    refine always_initTp (by simp [ThreadPool.exec]) fun o x port hx => ?_
    cases hx
    refine always_initTp (by simp [ThreadPool.exec]) fun o x _ hx => ?_
    cases hx
    refine startLoop_always ?_ ?_ rfl
    · exact ⟨h.threads, h.list, h.handle, h.ids, h.running⟩
    · exact ThreadPool.port_withPort ..

/--
What the program is when `_tmain` goes on after `Start`: nobody holds a connection, each of the pool has
a handle of its own, set up as `Connect` does it, and no result is waiting on any. All tasks are in
the free list, empty, and the workers wait at an open port with nothing in it.
-/
structure Ready (p : ConnParams) (connectionCount jobCount processNum : Nat) (s : State) : Prop where
  pool : PoolOk s
  drained : NothingPending s
  vector : s.cons.m_VectorCon.Nodup ∧ s.cons.m_VectorCon.length ≤ connectionCount
  connections : ∀ c ∈ s.cons.m_VectorCon, ∃ m, (s.cons.con c).m_pMySql = some m ∧
    s.lib.mysql m = opened p
  jobs : JobsReady s
  tasks : s.jobs.pool.m_FreeList = List.range jobCount
  workers : s.tp.Staffed processNum
  unlocked : s.tp.m_arrayCs = .free

/--
**The program is ready.** However `Initialize` is answered, if it returns `true` then what is said
of runs of the program holds of those that begin after `Start`.
-/
theorem tmain_ready {connectionCount jobCount processNum : Nat}
    (h : (tmainStart p connectionCount jobCount processNum).Runs (Startup.exec rt t) .new [] true s'
      l') : Ready p connectionCount jobCount processNum s'.base := by
  obtain ⟨bRet, s₁, l₁, hinit, hrest⟩ := h.split
  rcases initialize_ends hinit with ⟨rfl, -⟩ | ⟨rfl, hs, hlen, htp, ⟨garbage, hpool⟩, htask⟩
  · cases hrest
  · obtain ⟨_, s₂, l₂, hstart, hret⟩ := hrest.split
    have hstaff : s₁.base.tp.Staffed 0 := by
      rw [htp]
      exact ⟨rfl, rfl, nofun, nofun, nofun⟩
    obtain ⟨x, rfl, hx, hport, hfree⟩ := start_always hstaff (by rw [htp]; rfl) _ _ _ hstart
    cases hret
    refine ⟨⟨hs.free, hs.bound, hs.distinct⟩, fun c m hm => hs.idle c m hm nofun, ⟨hs.vector, hlen⟩,
      fun c hc => ?_, ⟨hport, ?_, fun k => ?_, htask⟩, ?_, hx, hfree⟩
    · obtain ⟨-, m, hm, -, -, -, hmy⟩ := hs.pooled c hc
      exact ⟨m, hm, hmy⟩
    · rw [show s₁.base.jobs.pool = _ from hpool]
      exact CPool.wellFormed_new garbage jobCount
    · rw [show s₁.base.jobs.pool = _ from hpool]
      simp
    · rw [show s₁.base.jobs.pool = _ from hpool]
      exact CPool.new_freeList garbage jobCount

end

/-- A start with one connection, one task and two workers. -/
theorem tmain_ready_two : ∃ s' l,
    (tmainStart ⟨[], [], [], [100], 3306⟩ 1 1 2).Runs (Startup.exec .standard (.client 0)) .new []
      true s' l ∧ s'.base.tp.m_ThreadList = [⟨1, 0⟩, ⟨2, 1⟩] ∧
    Ready ⟨[], [], [], [100], 3306⟩ 1 1 2 s'.base := by
  have hrun : ((tmainStart ⟨[], [], [], [100], 3306⟩ 1 1 2).eval
      (Startup.exec .standard (.client 0))
      (List.replicate 14 .success ++ [{ number := 1 }, .success, { number := 2 }, .success,
        .success]) .new []).map
      (fun x => (x.1, x.2.1.base.tp.m_ThreadList)) = some (true, [⟨1, 0⟩, ⟨2, 1⟩]) := by
    decide +kernel
  obtain ⟨⟨a, s', l⟩, heval, he⟩ := Option.map_eq_some_iff.mp hrun
  obtain ⟨rfl, hlist⟩ := Prod.mk.inj he
  have h := Prog.runs_of_eval heval
  exact ⟨s', l, h, hlist, tmain_ready h⟩

end XeMySql
