import XeMySql.Hold

/-!
# The pool of connections

What holds of the pooled connections in every reachable state of a program whose threads use them
only through the pool.

* `Inv` — who has locked which connection, and whose the handles are
* `hold_kept` — threads that follow the discipline of `Hold.lean` keep it
-/

namespace XeMySql

open Interact Hold

/-! ## The invariant -/

/-- What a thread knows after a history. -/
abbrev holdView (h : List Ev) : Tid → Hold := Hold.discipline.view {} (fun _ _ => {}) h

/--
What a thread knows is so: `mysql` is the handle of its connection, `params` are the parameters of
its connection, `stmt` is a statement of that handle, and `temp` is no connection's handle.
-/
structure Knows (x : Cons) (y : LibMySql) (l : Hold) : Prop where
  mysql : ∀ h, l.mysql = some h → ∃ c, l.con = some c ∧ (x.con c).m_pMySql = some h
  params : ∀ p, l.params = some p → ∃ c, l.con = some c ∧ (x.con c).params = p
  stmt : ∀ st, l.stmt = some st →
    st < y.stmts ∧ ∃ c, l.con = some c ∧ (x.con c).m_pMySql = some (y.stmt st).mysql
  temp : ∀ h, l.temp = some h → l.con.isSome ∧ h < y.handles ∧ ∀ c, (x.con c).m_pMySql ≠ some h

/--
The connections `x` and the library `y`, when thread `t` knows `v t`.

`lock` and `entered`: a connection is locked by the one thread that knows it as its own, and once.
`fresh` and `distinct`: no two connections share a handle. `temps`: no two threads share the new
handle of a `Reconnect`.
-/
structure Inv (x : Cons) (y : LibMySql) (v : Tid → Hold) : Prop where
  lock : ∀ t c, (v t).con = some c ↔ (x.con c).cs = .held t 0
  entered : ∀ c, (x.con c).cs = .free ∨ ∃ t, (x.con c).cs = .held t 0
  knows : ∀ t, Knows x y (v t)
  fresh : ∀ c h, (x.con c).m_pMySql = some h → h < y.handles
  distinct : ∀ c c' h, (x.con c).m_pMySql = some h → (x.con c').m_pMySql = some h → c = c'
  temps : ∀ t u h, (v t).temp = some h → (v u).temp = some h → t = u

section

variable {x x' : Cons} {y y' : LibMySql} {v : Tid → Hold} {t : Tid} {l : Hold} {c : Nat}

/-- What a thread knows stays true while its own connection is left alone, and nobody takes its new
handle. -/
theorem Knows.congr (hk : Knows x y l) (hx : ∀ d, l.con = some d → x'.con d = x.con d)
    (htemp : ∀ m d, l.temp = some m → (x'.con d).m_pMySql ≠ some m) : Knows x' y l := by
  refine ⟨?_, ?_, ?_, ?_⟩
  · intro m hm
    obtain ⟨d, hv, hd⟩ := hk.mysql m hm
    exact ⟨d, hv, by rw [hx d hv, hd]⟩
  · intro p hp
    obtain ⟨d, hv, hd⟩ := hk.params p hp
    exact ⟨d, hv, by rw [hx d hv, hd]⟩
  · intro st hst
    obtain ⟨hlt, d, hv, hd⟩ := hk.stmt st hst
    exact ⟨hlt, d, hv, by rw [hx d hv, hd]⟩
  · intro m hm
    obtain ⟨hv, hlt, -⟩ := hk.temp m hm
    exact ⟨hv, hlt, fun d => htemp m d hm⟩

/-- A thread that has locked no connection knows nothing. -/
theorem Knows.nothing (h : Knows x y l) (hl : l.con = none) :
    l.mysql = none ∧ l.params = none ∧ l.stmt = none ∧ l.temp = none := by
  refine ⟨?_, ?_, ?_, ?_⟩ <;> rw [Option.eq_none_iff_forall_not_mem] <;> intro a ha
  · obtain ⟨c, hc, -⟩ := h.mysql a ha
    simp [hl] at hc
  · obtain ⟨c, hc, -⟩ := h.params a ha
    simp [hl] at hc
  · obtain ⟨-, c, hc, -⟩ := h.stmt a ha
    simp [hl] at hc
  · simpa [hl] using (h.temp a ha).1

/-- Who knows nothing is never wrong. -/
theorem Knows.of_nothing
    (h : l.mysql = none ∧ l.params = none ∧ l.stmt = none ∧ l.temp = none) : Knows x y l := by
  obtain ⟨h1, h2, h3, h4⟩ := h
  exact ⟨by simp [h1], by simp [h2], by simp [h3], by simp [h4]⟩

/-- What is known of the library stays so when it grows. -/
theorem Knows.grows (h : Knows x y l) (hy : y.Grows y') : Knows x y' l where
  mysql := h.mysql
  params := h.params
  stmt st hst := by
    obtain ⟨hlt, hc⟩ := h.stmt st hst
    rw [hy.stmt st hlt]
    exact ⟨Nat.lt_of_lt_of_le hlt hy.stmts, hc⟩
  temp m hm :=
    let ⟨hc, hlt, hne⟩ := h.temp m hm
    ⟨hc, Nat.lt_of_lt_of_le hlt hy.handles, hne⟩

/-- A thread does not know the locks, so it does not notice their changes. -/
theorem Knows.locks (h : Knows x y l)
    (hx : ∀ c, (x'.con c).m_pMySql = (x.con c).m_pMySql ∧ (x'.con c).params = (x.con c).params) :
    Knows x' y l where
  mysql m hm := by simpa only [hx] using h.mysql m hm
  params p hp := by simpa only [hx] using h.params p hp
  stmt st hst := by simpa only [hx] using h.stmt st hst
  temp m hm := by simpa only [hx] using h.temp m hm

namespace Inv

/-- A connection has one owner. -/
theorem unique (h : Inv x y v) {u : Tid} (ht : (v t).con = some c) (hu : (v u).con = some c) :
    t = u := by
  have h1 := (h.lock t c).mp ht
  rw [(h.lock u c).mp hu] at h1
  cases h1
  rfl

/-- A thread comes to know `l`, of the connection it knew before. -/
theorem learn (h : Inv x y v) (hy : y.Grows y') (hcon : l.con = (v t).con) (hk : Knows x y' l)
    (htemp : ∀ m, l.temp = some m → ∀ u, u ≠ t → (v u).temp ≠ some m) :
    Inv x y' (Function.update v t l) where
  lock u d := by
    by_cases hu : u = t
    · subst hu
      rw [Function.update_self, hcon]
      exact h.lock u d
    · rw [Function.update_of_ne hu]
      exact h.lock u d
  entered := h.entered
  knows u := by
    by_cases hu : u = t
    · subst hu
      rwa [Function.update_self]
    · rw [Function.update_of_ne hu]
      exact (h.knows u).grows hy
  fresh d m hm := Nat.lt_of_lt_of_le (h.fresh d m hm) hy.handles
  distinct := h.distinct
  temps u u' m hm hm' := by
    by_cases hu : u = t <;> by_cases hu' : u' = t
    · rw [hu, hu']
    · subst hu
      rw [Function.update_self] at hm
      rw [Function.update_of_ne hu'] at hm'
      exact absurd hm' (htemp m hm u' hu')
    · subst hu'
      rw [Function.update_self] at hm'
      rw [Function.update_of_ne hu] at hm
      exact absurd hm (htemp m hm' u hu)
    · rw [Function.update_of_ne hu] at hm
      rw [Function.update_of_ne hu'] at hm'
      exact h.temps u u' m hm hm'

/-- No other thread has the new handle that a thread has. -/
theorem temp_ne (h : Inv x y v) {m : Nat} (hm : (v t).temp = some m) :
    ∀ u, u ≠ t → (v u).temp ≠ some m :=
  fun u hu hm' => hu (h.temps u t m hm' hm)

/-- A thread without a new handle shares none. -/
theorem temps_update (h : Inv x y v) (hl : l.temp = none) (u u' : Tid) (m : Nat)
    (hm : (Function.update v t l u).temp = some m) (hm' : (Function.update v t l u').temp = some m) :
    u = u' := by
  have hne : ∀ u, (Function.update v t l u).temp = some m → u ≠ t := by
    rintro u hm rfl
    rw [Function.update_self, hl] at hm
    cases hm
  rw [Function.update_of_ne (hne u hm)] at hm
  rw [Function.update_of_ne (hne u' hm')] at hm'
  exact h.temps u u' m hm hm'

/-- A thread forgets some of what it knew. -/
theorem forget (h : Inv x y v) (hy : y.Grows y') (hcon : l.con = (v t).con)
    (hmysql : l.mysql = (v t).mysql) (hparams : l.params = (v t).params)
    (htemp : ∀ m, l.temp = some m → (v t).temp = some m)
    (hstmt : ∀ st, l.stmt = some st → (v t).stmt = some st) :
    Inv x y' (Function.update v t l) := by
  have hk := (h.knows t).grows hy
  refine h.learn hy hcon ⟨?_, ?_, ?_, ?_⟩ fun m hm => h.temp_ne (htemp m hm)
  · rw [hmysql, hcon]
    exact hk.mysql
  · rw [hparams, hcon]
    exact hk.params
  · intro st hst
    rw [hcon]
    exact hk.stmt st (hstmt st hst)
  · intro m hm
    rw [hcon]
    exact hk.temp m (htemp m hm)

/-- A thread enters or leaves a lock, and knows nothing else. -/
theorem relock (h : Inv x y v)
    (hlock : ∀ u c, (Function.update v t l u).con = some c ↔ (x'.con c).cs = .held u 0)
    (hent : ∀ c, (x'.con c).cs = .free ∨ ∃ u, (x'.con c).cs = .held u 0)
    (hx : ∀ c, (x'.con c).m_pMySql = (x.con c).m_pMySql ∧ (x'.con c).params = (x.con c).params)
    (hl : l.mysql = none ∧ l.params = none ∧ l.stmt = none ∧ l.temp = none) :
    Inv x' y (Function.update v t l) where
  lock := hlock
  entered := hent
  knows u := by
    by_cases hu : u = t
    · subst hu
      rw [Function.update_self]
      exact .of_nothing hl
    · rw [Function.update_of_ne hu]
      exact (h.knows u).locks hx
  fresh d m hm := h.fresh d m ((hx d).1 ▸ hm)
  distinct d d' m hm hm' := h.distinct d d' m ((hx d).1 ▸ hm) ((hx d').1 ▸ hm')
  temps := h.temps_update hl.2.2.2

/-- `AttemptLock` of a free connection. -/
theorem enter (h : Inv x y v) {j : Tid → Nat} (ht : (v t).con = none)
    (hf : (x.con c).cs = .free) :
    Inv { x.withCon c { x.con c with cs := .held t 0 } with i := j } y
      (Function.update v t { v t with con := some c }) := by
  refine h.relock ?_ ?_ ?_ ((h.knows t).nothing ht)
  · intro u d
    have hd := h.lock u d
    by_cases hu : u = t <;> by_cases hc : d = c
    · subst hu hc
      simp [Cons.withCon]
    · subst hu
      rw [ht] at hd
      simpa [Cons.withCon, hc, Ne.symm hc] using hd
    · subst hc
      rw [hf] at hd
      simpa [Cons.withCon, hu, Ne.symm hu] using hd
    · simpa [Cons.withCon, hu, hc] using hd
  · intro d
    by_cases hc : d = c
    · exact Or.inr ⟨t, by simp [Cons.withCon, hc]⟩
    · simpa [Cons.withCon, hc] using h.entered d
  · intro d
    by_cases hc : d = c
    · subst hc
      simp [Cons.withCon]
    · simp [Cons.withCon, hc]

/-- `UnLock` of the connection that is held. -/
theorem leave (h : Inv x y v) (ht : (v t).con = some c) :
    Inv (x.withCon c { x.con c with cs := .free }) y
      (Function.update v t { left := some c }) := by
  refine h.relock ?_ ?_ ?_ ⟨rfl, rfl, rfl, rfl⟩
  · intro u d
    have hd := h.lock u d
    by_cases hu : u = t <;> by_cases hc : d = c
    · subst hu hc
      simp [Cons.withCon]
    · subst hu
      rw [ht] at hd
      simpa [Cons.withCon, hc, Ne.symm hc] using hd
    · subst hc
      have hne : (v u).con ≠ some d := fun hv => hu (h.unique hv ht)
      simpa [Cons.withCon, hu] using hne
    · simpa [Cons.withCon, hu, hc] using hd
  · intro d
    by_cases hc : d = c
    · exact Or.inl (by simp [Cons.withCon, hc])
    · simpa [Cons.withCon, hc] using h.entered d
  · intro d
    by_cases hc : d = c
    · subst hc
      simp [Cons.withCon]
    · simp [Cons.withCon, hc]

/-- `Reconnect` puts the new handle in the place of the old one. -/
theorem swap (h : Inv x y v) {m : Nat} (hcon : (v t).con = some c) (htemp : (v t).temp = some m)
    (hstmt : (v t).stmt = none) :
    Inv (x.withCon c { x.con c with m_pMySql := some m }) y
      (Function.update v t
        { v t with mysql := some m, temp := none, params := none, connected := none }) := by
  obtain ⟨-, hlt, hnew⟩ := (h.knows t).temp m htemp
  have hcs : ∀ d, ((x.withCon c { x.con c with m_pMySql := some m }).con d).cs = (x.con d).cs := by
    intro d
    by_cases hd : d = c
    · rw [hd, Cons.withCon_self]
    · rw [Cons.withCon_of_ne hd]
  refine ⟨?_, ?_, ?_, ?_, ?_, h.temps_update rfl⟩
  · intro u d
    rw [hcs]
    by_cases hu : u = t
    · subst hu
      rw [Function.update_self]
      exact h.lock u d
    · rw [Function.update_of_ne hu]
      exact h.lock u d
  · intro d
    rw [hcs]
    exact h.entered d
  · intro u
    by_cases hu : u = t
    · subst hu
      rw [Function.update_self]
      refine ⟨?_, by simp, by simp [hstmt], by simp⟩
      intro m' hm'
      cases hm'
      exact ⟨c, hcon, by rw [Cons.withCon_self]⟩
    · -- another thread holds another connection
      rw [Function.update_of_ne hu]
      refine (h.knows u).congr (fun d hv => Cons.withCon_of_ne ?_ ..) fun m' d hm' => ?_
      · rintro rfl
        exact hu (h.unique hv hcon)
      · by_cases hd : d = c
        · rw [hd, Cons.withCon_self]
          rintro ⟨⟩
          exact h.temp_ne htemp u hu hm'
        · rw [Cons.withCon_of_ne hd]
          exact ((h.knows u).temp m' hm').2.2 d
  · intro d m' hm'
    by_cases hd : d = c
    · rw [hd, Cons.withCon_self] at hm'
      cases hm'
      exact hlt
    · rw [Cons.withCon_of_ne hd] at hm'
      exact h.fresh d m' hm'
  · intro d d' m' hm' hm''
    by_cases hd : d = c <;> by_cases hd' : d' = c
    · rw [hd, hd']
    · rw [hd, Cons.withCon_self] at hm'
      cases hm'
      rw [Cons.withCon_of_ne hd'] at hm''
      exact absurd hm'' (hnew d')
    · rw [hd', Cons.withCon_self] at hm''
      cases hm''
      rw [Cons.withCon_of_ne hd] at hm'
      exact absurd hm' (hnew d)
    · rw [Cons.withCon_of_ne hd] at hm'
      rw [Cons.withCon_of_ne hd'] at hm''
      exact h.distinct d d' m' hm' hm''

end Inv

end

/-! ## Whose handle a call works on -/

/-- The handle a thread may call the library with is its connection's. -/
theorem Inv.con_of_target {x : Cons} {y : LibMySql} {v : Tid → Hold} {t : Tid} {e : LibOp}
    {c h : Nat} (hI : Inv x y v) (hm : (v t).may (.lib e)) (ht : y.target e = some h)
    (hc : (x.con c).m_pMySql = some h) : (v t).con = some c := by
  have hk := hI.knows t
  rcases Hold.may_target hm ht with hmysql | ⟨st, hst, rfl⟩ | ⟨htemp, -⟩
  · obtain ⟨d, hd, hd'⟩ := hk.mysql h hmysql
    rw [hd, hI.distinct d c h hd' hc]
  · obtain ⟨-, d, hd, hd'⟩ := hk.stmt st hst
    rw [hd, hI.distinct d c _ hd' hc]
  · exact absurd hc ((hk.temp h htemp).2.2 c)

/-- The calls a thread makes on no other handle than that of the connection it has locked. -/
def LibOp.onLocked : LibOp → Bool
  | selectDb _ _ => true
  | realQuery _ _ => true
  | storeResult _ => true
  | fieldCount _ => true
  | e => e.onStmt

theorem LibOp.onLocked_of_sends {e : LibOp} (h : e.sends = true) : e.onLocked = true := by
  cases e <;> first | rfl | cases h

/-- Such a call works on the handle of that connection. -/
theorem Inv.works_on {x : Cons} {y : LibMySql} {v : Tid → Hold} {t : Tid} {e : LibOp}
    (hI : Inv x y v) (hm : (v t).may (.lib e)) (he : e.onLocked = true) :
    ∃ c h, (v t).con = some c ∧ y.target e = some h ∧ (x.con c).m_pMySql = some h := by
  have hk := hI.knows t
  have hmysql : ∀ {h}, (v t).mysql = some h →
      ∃ c h', (v t).con = some c ∧ some h = some h' ∧ (x.con c).m_pMySql = some h' := by
    intro h hh
    obtain ⟨c, hc, hh⟩ := hk.mysql h hh
    exact ⟨c, h, hc, rfl, hh⟩
  have hstmt : ∀ {st}, (v t).stmt = some st → ∃ c h', (v t).con = some c ∧
      some (y.stmt st).mysql = some h' ∧ (x.con c).m_pMySql = some h' := by
    intro st hst
    obtain ⟨-, c, hc, hh⟩ := hk.stmt st hst
    exact ⟨c, _, hc, rfl, hh⟩
  cases e with
  | selectDb h db => exact hmysql hm.2
  | realQuery h q => exact hmysql hm.2
  | storeResult h => exact hmysql hm.2
  | fieldCount h => exact hmysql hm.2
  | stmtInit h => exact hmysql hm.2.1
  | stmtPrepare st q => exact hstmt hm.2
  | stmtParamCount st => exact hstmt hm.2
  | stmtBindParam st b => exact hstmt hm.2
  | stmtExecute st => exact hstmt hm.2
  | stmtClose st => exact hstmt hm.2
  | _ => cases he

/-! ## Every request keeps it -/

section

variable {rt : Runtime} {t : Tid} {o : Outcome} {s s' : State} {v : Tid → Hold}

/-- A request to the library. -/
theorem inv_lib (h : Inv s.cons s.lib v) {e : LibOp} (hm : (v t).may (.lib e)) :
    Inv s.cons (s.lib.exec e o).1
      (Function.update v t ((v t).next (.lib e) (s.lib.exec e o).2)) := by
  have hy := s.lib.exec_grows e o
  have hsame : Inv s.cons (s.lib.exec e o).1 (Function.update v t (v t)) :=
    h.forget hy rfl rfl rfl (fun _ hm => hm) (fun _ hm => hm)
  have hk := (h.knows t).grows hy
  cases e with
  | init =>
    obtain ⟨hc, ht, -⟩ := hm
    by_cases ho : o.ok = true
    · simp only [next, LibMySql.exec, ho, if_true] at hk hy ⊢
      refine h.learn hy rfl ⟨hk.mysql, hk.params, hk.stmt, ?_⟩ ?_
      · rintro m ⟨⟩
        refine ⟨hc, Nat.lt_succ_self _, fun d hd => ?_⟩
        exact absurd (h.fresh d _ hd) (Nat.lt_irrefl _)
      · rintro m ⟨⟩ u - hu
        exact absurd ((h.knows u).temp _ hu).2.1 (Nat.lt_irrefl _)
    · simp only [next, LibMySql.exec, ho] at hk hy ⊢
      exact h.forget hy rfl rfl rfl (by simp) (fun _ hm => hm)
  | stmtInit m =>
    obtain ⟨hc, hmy, -⟩ := hm
    by_cases ho : o.ok = true
    · simp only [next, LibMySql.exec, ho, if_true] at hk hy ⊢
      refine h.learn hy rfl ⟨hk.mysql, hk.params, ?_, hk.temp⟩ fun m hm => h.temp_ne hm
      rintro st ⟨⟩
      obtain ⟨c, hcon, hh⟩ := (h.knows t).mysql m hmy
      refine ⟨Nat.lt_succ_self _, c, hcon, ?_⟩
      show _ = some (Function.update s.lib.stmt s.lib.stmts _ s.lib.stmts).mysql
      rw [Function.update_self]
      exact hh
    · simp only [next, LibMySql.exec, ho] at hk hy ⊢
      exact h.forget hy rfl rfl rfl (fun _ hm => hm) (by simp)
  | realConnect m p =>
    simp only [next]
    split
    · exact h.forget hy rfl rfl rfl (fun _ hm => hm) (fun _ hm => hm)
    · exact hsame
  | close m =>
    simp only [next]
    split
    · exact h.forget hy rfl rfl rfl (by simp) (fun _ hm => hm)
    · exact hsame
  | stmtClose st => exact h.forget hy rfl rfl rfl (fun _ hm => hm) (by simp [next])
  | setCharsetName m n => exact hm.elim
  | setReconnect m => exact hm.elim
  | _ => exact hsame

/-- A request on connections that is answered. -/
theorem inv_con (h : Inv s.cons s.lib v) {e : ConOp} {x : Cons} {r : e.Reply}
    (hm : (v t).may (.con e)) (he : s.cons.exec t e = some (x, some r)) :
    (v t).can (.con e) r ∧ Inv x s.lib (Function.update v t ((v t).next (.con e) r)) := by
  have hy : s.lib.Grows s.lib := .of_eq rfl rfl rfl
  have hk := h.knows t
  cases e with
  | getFreeCon =>
    refine ⟨trivial, ?_⟩
    obtain ⟨hcon, -⟩ := hm
    rcases Cons.getFreeCon_cases he with ⟨-, rfl, hr⟩ | ⟨c, l, -, hl, hr, rfl⟩ | ⟨c, -, -, hr, -⟩
    · cases hr
      exact h.forget hy (by simp [next, hcon]) rfl rfl (fun _ hm => hm) (fun _ hm => hm)
    · cases hr
      -- a lock this thread has already entered would be known to it
      rcases Lock.tryEnter_eq_some hl with ⟨hf, rfl⟩ | ⟨n, hh, rfl⟩
      · exact h.enter hcon hf
      · rcases h.entered c with hf | ⟨u, hu⟩
        · simp [hf] at hh
        · rw [hu] at hh
          cases hh
          rw [(h.lock t c).mpr hu] at hcon
          cases hcon
    · cases hr
  | unLock c =>
    obtain ⟨hcon, -, -⟩ := hm
    simp only [Cons.exec, (h.lock t c).mp hcon, Lock.leave_held_zero, Option.map_some,
      Option.some.injEq, Prod.mk.injEq] at he
    obtain ⟨rfl, -⟩ := he
    exact ⟨trivial, h.leave hcon⟩
  | getMySql c =>
    cases he
    refine ⟨fun m hm' ht => (hk.temp m ht).2.2 c hm', ?_⟩
    refine h.learn hy rfl ⟨?_, hk.params, hk.stmt, hk.temp⟩ fun m hm => h.temp_ne hm
    exact fun m hm' => ⟨c, hm, hm'⟩
  | getParams c =>
    cases he
    refine ⟨trivial, h.learn hy rfl ⟨hk.mysql, ?_, hk.stmt, hk.temp⟩ fun m hm => h.temp_ne hm⟩
    rintro p ⟨⟩
    exact ⟨c, hm, rfl⟩
  | setMySql c m =>
    cases he
    obtain ⟨hcon, htemp, hsome, hstmt, -⟩ := hm
    obtain ⟨m, rfl⟩ := Option.isSome_iff_exists.mp hsome
    exact ⟨trivial, h.swap hcon htemp hstmt⟩
  | setParams c p => exact hm.elim

/-- **Step lemma.** A request that is answered keeps the invariant. -/
theorem inv_reply {e : Op} {r : e.Reply} (h : Inv s.cons s.lib v) (hm : (v t).may e)
    (he : exec rt t e o s = some (s', some r)) :
    (v t).can e r ∧ Inv s'.cons s'.lib (Function.update v t ((v t).next e r)) := by
  have hsame : Inv s.cons s.lib (Function.update v t (v t)) := by
    rwa [Function.update_eq_self]
  cases e with
  | con e =>
    obtain ⟨x, hx, rfl⟩ := exec_con he
    exact inv_con h hm hx
  | lib e =>
    obtain ⟨rfl, he⟩ := exec_lib he
    cases he
    exact ⟨trivial, inv_lib h hm⟩
  | tp e =>
    obtain ⟨_, _, rfl⟩ := exec_tp he
    exact ⟨trivial, hsame⟩
  | task e =>
    obtain ⟨_, _, rfl⟩ := exec_task he
    exact ⟨trivial, hsame⟩
  | res e =>
    obtain ⟨_, _, rfl⟩ := exec_res he
    exact ⟨trivial, hsame⟩
  | rt e =>
    obtain ⟨_, _, rfl⟩ := exec_rt he
    exact ⟨trivial, hsame⟩

/-- The invariant looks at the connections only, not at the variables of `GetFreeCon`. -/
theorem Inv.congr {x x' : Cons} {y : LibMySql} (h : Inv x y v) (hx : x'.con = x.con) :
    Inv x' y v := by
  obtain ⟨vc, con, i⟩ := x
  obtain ⟨vc', con', i'⟩ := x'
  cases hx
  exact ⟨h.lock, h.entered, fun t => (h.knows t).locks fun _ => ⟨rfl, rfl⟩, h.fresh, h.distinct,
    h.temps⟩

end

/-! ## Runs -/

/-- A pool before its first use: all connections are free, and a handle is that of one at most. -/
structure PoolOk (s : State) : Prop where
  free : ∀ c, (s.cons.con c).cs = .free
  fresh : ∀ c h, (s.cons.con c).m_pMySql = some h → h < s.lib.handles
  distinct : ∀ c c' h, (s.cons.con c).m_pMySql = some h → (s.cons.con c').m_pMySql = some h → c = c'

theorem poolOk_started (nCon nJob garbage nMax : Nat) (p : ConnParams) :
    PoolOk (State.started nCon nJob garbage nMax p) := by
  have hcon : ∀ c h, ((State.started nCon nJob garbage nMax p).cons.con c).m_pMySql = some h →
      c < nCon ∧ c = h := by
    intro c h hc
    by_cases hlt : c < nCon
    · simp only [State.started, hlt, if_true, Option.some.injEq] at hc
      exact ⟨hlt, hc⟩
    · simp [State.started, hlt] at hc
  refine ⟨fun c => ?_, fun c h hc => ?_, fun c c' h hc hc' => ?_⟩
  · by_cases hlt : c < nCon <;> simp [State.started, hlt]
  · obtain ⟨hlt, rfl⟩ := hcon c h hc
    exact hlt
  · rw [(hcon c h hc).2, (hcon c' h hc').2]

/-- The calls of a program that uses connections only through the pool. -/
abbrev okPool (_ : Tid) (c : Call) : Prop := c.usesPool

/-- What is known at the end of a call. -/
abbrev holdFinal (_ : Call) (_ : Bool) (l : Hold) : Prop := Released l

/-- **The discipline keeps the invariant.** -/
theorem hold_kept (rt : Runtime) {s₀ : State} (h₀ : PoolOk s₀) :
    (machine rt).Kept okPool s₀ Hold.discipline {} (fun _ _ => {}) holdFinal
      fun s h => Inv s.cons s.lib (holdView h) where
  code _ c hc := code_follows c hc
  init :=
    { lock := by simp [h₀.free]
      entered := fun c => Or.inl (h₀.free c)
      knows := fun _ => .of_nothing ⟨rfl, rfl, rfl, rfl⟩
      fresh := h₀.fresh
      distinct := h₀.distinct
      temps := by simp }
  call s h t c hI _ _ hv := by
    rw [holdView, Discipline.view_call]
    exact hI.forget (.of_eq rfl rfl rfl) (by rw [holdView, hv]) (by rw [holdView, hv])
      (by rw [holdView, hv]) (by simp) (by simp)
  wait s h t e o s' hI _ he := by
    obtain ⟨i, rfl⟩ := exec_wait he
    exact hI.congr rfl
  reply s h t e o s' r hI hm he := by
    rw [holdView, Discipline.view_reply]
    exact inv_reply hI hm he
  done s h t c a hI hf := by
    have hn := (hI.knows t).nothing hf
    rw [holdView, Discipline.view_done]
    exact hI.forget (.of_eq rfl rfl rfl) hf.symm hn.1.symm hn.2.1.symm (by simp) (by simp)

end XeMySql
