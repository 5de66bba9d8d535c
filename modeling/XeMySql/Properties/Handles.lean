import XeMySql.System
import XeMySql.Lib.Ledger

/-!
# The life of a MYSQL handle

`Connect`, `Close` and `Reconnect` of one connection, in any order and with any outcomes, and the
destructor at the end. `Close` leaves the handle it has closed in `m_pMySql`, so that whatever comes
next closes it again.

* `Fine.connect`, `Fine.reconnect` — two of the three leave just `m_pMySql` open
* `Spoilt.close` — what `Close` has spoilt stays so
* `settled_iff` — which lives end with every handle closed once
* `initialize_closes_twice` — the calls of `Initialize` when its first `Connect` fails
-/

namespace XeMySql

open Interact Ledger

/-! ## Lives -/

/-- The public functions of `CXEMySqlCon`. -/
inductive ConCall where
  | connect (p : ConnParams)
  | close
  | reconnect
deriving DecidableEq

/-- Their code, on connection `c`. -/
def ConCall.code (c : Nat) : ConCall → Code Bool
  | connect p => CXEMySqlCon.connect c p
  | close => CXEMySqlCon.close c
  | reconnect => CXEMySqlCon.reconnect c

/-- One call after the other on connection `c`; each is listed with the `m_pMySql` it has found. -/
inductive Calls (rt : Runtime) (t : Tid) (c : Nat) : State → List (Answer Op Op.Reply) →
    List (ConCall × Option Nat) → State → List (Answer Op Op.Reply) → Prop
  | nil {s l} : Calls rt t c s l [] s l
  | cons {s l s₁ l₁ calls s' l'} (call : ConCall) (a : Bool)
    (h : (call.code c).Runs (exec rt t) s l a s₁ l₁) (hs : Calls rt t c s₁ l₁ calls s' l') :
    Calls rt t c s l ((call, (s.cons.con c).m_pMySql) :: calls) s' l'

/-- What an answer says of handles: `mysql_init` returns one, `mysql_close` ends it, and every other
call uses the one it is given. -/
def handleDeal : Answer Op Op.Reply → Option (Deal Nat)
  | ⟨.lib .init, r⟩ => (r : Option Nat).map .acquire
  | ⟨.lib (.close h), _⟩ => some (.release h)
  | ⟨.lib e, _⟩ => e.handle.map .use
  | _ => none

/-- The dealings with handles in a trace. -/
def handleDeals (l : List (Answer Op Op.Reply)) : List (Deal Nat) := l.filterMap handleDeal

/-! ## The books of a connection -/

/-- After the trace `l`, just the handles `live` are open, and all are known to the library `y`. -/
structure Live (live : List Nat) (y : LibMySql) (l : List (Answer Op Op.Reply)) : Prop where
  books : Open (handleDeals l) live
  fresh : ∀ x ∈ acquired (handleDeals l), x < y.handles

section

variable {live : List Nat} {y : LibMySql} {l : List (Answer Op Op.Reply)} {x : Nat}

namespace Live

/-- An answer that has nothing to do with handles. -/
theorem con (h : Live live y l) (e : ConOp) (r : e.Reply) : Live live y (⟨.con e, r⟩ :: l) :=
  ⟨h.books, h.fresh⟩

theorem of_perm {live' : List Nat} (h : Live live y l) (hp : live.Perm live') : Live live' y l :=
  ⟨h.books.of_perm hp, h.fresh⟩

/-- `mysql_init` -/
theorem init (h : Live live y l) {o : Outcome} {y' : LibMySql} {r : Option Nat}
    (he : y.exec .init o = (y', r)) : Live (r.toList ++ live) y' (⟨.lib .init, r⟩ :: l) := by
  simp only [LibMySql.exec] at he
  split at he
  · cases he
    refine ⟨h.books.acquire fun hx => ?_, ?_⟩
    · exact absurd (h.fresh _ hx) (Nat.lt_irrefl _)
    · intro x hx
      rcases List.mem_cons.mp hx with rfl | hx
      · exact Nat.lt_succ_self _
      · exact Nat.lt_succ_of_lt (h.fresh x hx)
  · cases he
    exact ⟨h.books, h.fresh⟩

/-- `mysql_close` -/
theorem close (h : Live (x :: live) y l) {o : Outcome} {y' : LibMySql} {r : Unit}
    (he : y.exec (.close x) o = (y', r)) : Live live y' (⟨.lib (.close x), r⟩ :: l) := by
  cases he
  exact ⟨h.books.release, h.fresh⟩

/-- A call that uses an open handle. -/
theorem use (h : Live live y l) (hx : x ∈ live) {e : LibOp} {o : Outcome} {y' : LibMySql}
    {r : e.Reply} (he : y.exec e o = (y', r)) (hd : handleDeal ⟨.lib e, r⟩ = some (.use x)) :
    Live live y' (⟨.lib e, r⟩ :: l) := by
  have hds : handleDeals (⟨.lib e, r⟩ :: l) = .use x :: handleDeals l := by
    unfold handleDeals
    rw [List.filterMap_cons, hd]
  refine ⟨by rw [hds]; exact h.books.use hx, ?_⟩
  rw [hds]
  have hgrow := (y.exec_grows e o).handles
  rw [he] at hgrow
  intro z hz
  exact Nat.lt_of_lt_of_le (h.fresh z hz) hgrow

end Live

variable {rt : Runtime} {t : Tid} {c : Nat} {s : State} {m : Option Nat}

/-- `Close` closes what it finds, and leaves it there. -/
theorem close_always {Q : Bool → State → List (Answer Op Op.Reply) → Prop}
    (hnone : (s.cons.con c).m_pMySql = none → Q true s (⟨.con (.getMySql c), none⟩ :: l))
    (hsome : ∀ h, (s.cons.con c).m_pMySql = some h →
      Q true s (⟨.lib (.close h), ()⟩ :: ⟨.con (.getMySql c), some h⟩ :: l)) :
    (CXEMySqlCon.close c).Always (exec rt t) s l Q := by
  refine always_con rfl ?_
  cases hm : (s.cons.con c).m_pMySql with
  | none => exact Prog.always_ret (hnone hm)
  | some h =>
    refine always_lib fun o y r he => ?_
    cases he
    exact Prog.always_ret (hsome h hm)

/-! ## Without `Close` -/

/-- Just the handle of connection `c` is open. -/
def Fine (c : Nat) (s : State) (l : List (Answer Op Op.Reply)) : Prop :=
  Live (s.cons.con c).m_pMySql.toList s.lib l

/-- At the end of its life it is closed. -/
theorem Fine.destroy (h : Fine c s l) : (CXEMySqlCon.close c).Always (exec rt t) s l
    fun _ s' l' => s' = s ∧ Live [] s.lib l' := by
  refine close_always (fun hm => ⟨rfl, ?_⟩) fun m hm => ⟨rfl, ?_⟩
  · unfold Fine at h
    rw [hm] at h
    exact h.con _ _
  · unfold Fine at h
    rw [hm] at h
    exact (h.con _ _).close (o := .success) rfl

theorem Fine.connect (h : Fine c s l) (p : ConnParams) :
    (CXEMySqlCon.connect c p).Always (exec rt t) s l fun _ s' l' => Fine c s' l' := by
  refine h.destroy.bind ?_
  rintro _ s l ⟨rfl, h⟩
  refine always_con rfl (always_lib fun o y r he => ?_)
  have h := ((h.con (.setParams c p) ()).init he).con (.setMySql c r) ()
  rw [List.append_nil] at h
  refine always_con rfl ?_
  rcases r with _ | m
  · refine Prog.always_ret ?_
    simpa only [Fine, Cons.withCon_self] using h
  · refine always_lib fun o y ok he => ?_
    have h := h.use (by simp) he rfl
    cases ok with
    | false =>
      refine always_lib fun o y e he => Prog.always_ret ?_
      simpa only [Fine, Cons.withCon_self] using h.use (by simp) he rfl
    | true =>
      refine always_lib fun o y ok he => ?_
      have h := h.use (by simp) he rfl
      cases ok with
      | false =>
        refine Prog.always_ret ?_
        simpa only [Fine, Cons.withCon_self] using h
      | true =>
        refine always_lib fun o y ok he => ?_
        have h := h.use (by simp) he rfl
        cases ok <;> refine Prog.always_ret ?_ <;> simpa only [Fine, Cons.withCon_self] using h

theorem Fine.reconnect (h : Fine c s l) :
    (CXEMySqlCon.reconnect c).Always (exec rt t) s l fun _ s' l' => Fine c s' l' := by
  refine always_lib fun o y r he => ?_
  have h := h.init he
  rcases r with _ | temp
  · exact always_crash
  · refine always_con rfl (always_lib fun o y ok he => ?_)
    have h := (h.con (.getParams c) (s.cons.con c).params).use (by simp) he rfl
    cases ok with
    | false =>
      refine always_lib fun o y e he => always_lib fun o y r he' => Prog.always_ret ?_
      exact (h.use (by simp) he rfl).close he'
    | true =>
      refine always_con rfl ?_
      cases hm : (s.cons.con c).m_pMySql with
      | none =>
        refine always_con rfl (Prog.always_ret ?_)
        simp only [Fine, Cons.withCon_self]
        rw [hm] at h
        exact (h.con (.getMySql c) _).con (.setMySql c (some temp)) ()
      | some old =>
        refine always_lib fun o y r he => always_con rfl (Prog.always_ret ?_)
        simp only [Fine, Cons.withCon_self]
        rw [hm] at h
        -- the new handle stays when the old one is closed
        have h := (h.con (.getMySql c) (some old)).of_perm (List.Perm.swap old temp [])
        exact (h.close he).con (.setMySql c (some temp)) ()

/-- `Close` finds nothing. -/
theorem Fine.close (h : Fine c s l) (hm : (s.cons.con c).m_pMySql = none) :
    (CXEMySqlCon.close c).Always (exec rt t) s l fun _ s' l' => Fine c s' l' := by
  refine close_always (fun _ => h.con _ _) fun m hm' => ?_
  rw [hm] at hm'
  cases hm'

/-! ## After `Close` -/

/-- Handles have been used after their end, or the handle of connection `c` has been closed. -/
def Spoilt (c : Nat) (s : State) (l : List (Answer Op Op.Reply)) : Prop :=
  ¬ Clean (handleDeals l) ∨
    ∃ m, (s.cons.con c).m_pMySql = some m ∧ m ∈ released (handleDeals l)

/-- What has been done wrong stays in the trace. -/
theorem unclean_always {α : Type} (p : Code α) (h : ¬ Clean (handleDeals l)) :
    p.Always (exec rt t) s l fun _ _ l' => ¬ Clean (handleDeals l') := by
  intro a s' l' hr hc
  exact h (hc.of_suffix hr.suffix)

/-- Closing a closed handle. -/
theorem Spoilt.destroy (h : Spoilt c s l) : (CXEMySqlCon.close c).Always (exec rt t) s l
    fun _ _ l' => ¬ Clean (handleDeals l') := by
  rcases h with h | ⟨m, hm, hr⟩
  · exact unclean_always _ h
  · refine close_always (fun hm' => ?_) fun m' hm' hc => ?_
    · rw [hm] at hm'
      cases hm'
    · rw [hm] at hm'
      cases hm'
      exact hc.1 hr

theorem Spoilt.connect (h : Spoilt c s l) (p : ConnParams) :
    (CXEMySqlCon.connect c p).Always (exec rt t) s l fun _ s' l' => Spoilt c s' l' := by
  refine h.destroy.bind fun _ s l h => ?_
  exact (unclean_always _ h).mono fun _ _ _ h => Or.inl h

theorem Spoilt.reconnect (h : Spoilt c s l) :
    (CXEMySqlCon.reconnect c).Always (exec rt t) s l fun _ s' l' => Spoilt c s' l' := by
  rcases h with h | ⟨m, hm, hr⟩
  · exact (unclean_always _ h).mono fun _ _ _ h => Or.inl h
  · refine always_lib fun o y r he => ?_
    rcases r with _ | temp
    · exact always_crash
    · refine always_con rfl (always_lib fun o y ok he => ?_)
      cases ok with
      | false =>
        refine always_lib fun o y e he => always_lib fun o y r he' => Prog.always_ret ?_
        exact Or.inr ⟨m, hm, List.mem_cons_of_mem _ hr⟩
      | true =>
        refine always_con rfl ?_
        rw [show ({ s with lib := y } : State).cons = s.cons from rfl, hm]
        refine always_lib fun o y r he => always_con rfl (Prog.always_ret (Or.inl ?_))
        intro hc
        exact hc.1 hr

/-- `Close` on an open handle spoils it. -/
theorem close_spoils {m : Nat} (hm : (s.cons.con c).m_pMySql = some m) :
    (CXEMySqlCon.close c).Always (exec rt t) s l fun _ s' l' => Spoilt c s' l' := by
  refine close_always (fun hm' => ?_) fun m' hm' => Or.inr ⟨m', hm', List.mem_cons_self⟩
  rw [hm] at hm'
  cases hm'

/-! ## Whole lives -/

/-- A life in which no open handle is given to `Close`. -/
theorem Fine.calls {calls : List (ConCall × Option Nat)} {s' : State}
    {l' : List (Answer Op Op.Reply)} (h : Fine c s l) (hcalls : Calls rt t c s l calls s' l')
    (hclose : ∀ x ∈ calls, x.1 = .close → x.2 = none) : Fine c s' l' := by
  induction hcalls with
  | nil => exact h
  | cons call a hrun _ ih =>
    refine ih ?_ fun x hx => hclose x (List.mem_cons_of_mem _ hx)
    cases call with
    | connect p => exact h.connect p _ _ _ hrun
    | reconnect => exact h.reconnect _ _ _ hrun
    | close => exact h.close (hclose _ List.mem_cons_self rfl) _ _ _ hrun

/-- A spoilt life stays spoilt. -/
theorem Spoilt.calls {calls : List (ConCall × Option Nat)} {s' : State}
    {l' : List (Answer Op Op.Reply)} (h : Spoilt c s l) (hcalls : Calls rt t c s l calls s' l') :
    Spoilt c s' l' := by
  induction hcalls with
  | nil => exact h
  | cons call a hrun _ ih =>
    refine ih ?_
    cases call with
    | connect p => exact h.connect p _ _ _ hrun
    | reconnect => exact h.reconnect _ _ _ hrun
    | close => exact Or.inl (h.destroy _ _ _ hrun)

/-- A life in which an open handle is given to `Close`. -/
theorem spoilt_of_close {calls : List (ConCall × Option Nat)} {s' : State}
    {l' : List (Answer Op Op.Reply)} (hcalls : Calls rt t c s l calls s' l')
    (hclose : ∃ x ∈ calls, x.1 = .close ∧ x.2 ≠ none) : Spoilt c s' l' := by
  induction hcalls with
  | nil =>
    obtain ⟨x, hx, -⟩ := hclose
    cases hx
  | cons call a hrun hrest ih =>
    obtain ⟨x, hx, hcl, hm⟩ := hclose
    rcases List.mem_cons.mp hx with rfl | hx
    · obtain rfl : call = .close := hcl
      obtain ⟨m, hm⟩ := Option.ne_none_iff_exists'.mp hm
      exact Spoilt.calls (close_spoils hm _ _ _ hrun) hrest
    · exact ih ⟨x, hx, hcl, hm⟩

end

/-- **Every handle is closed exactly once, and not used afterwards, exactly when `Close` has never
found a handle.** -/
theorem settled_iff {rt : Runtime} {t : Tid} {c : Nat} {s s₁ s₂ : State} {a : Bool}
    {calls : List (ConCall × Option Nat)} {l₁ l₂ : List (Answer Op Op.Reply)}
    (hnew : (s.cons.con c).m_pMySql = none) (hcalls : Calls rt t c s [] calls s₁ l₁)
    (hend : (CXEMySqlCon.close c).Runs (exec rt t) s₁ l₁ a s₂ l₂) :
    Settled (handleDeals l₂) ↔ ∀ x ∈ calls, x.1 = .close → x.2 = none := by
  constructor
  · intro h x hx hcl
    by_contra hm
    exact (spoilt_of_close hcalls ⟨x, hx, hcl, hm⟩).destroy _ _ _ hend h.1
  · intro hclose
    have hfine : Fine c s [] := by
      unfold Fine
      rw [hnew]
      exact ⟨Open.nil, by simp [handleDeals, acquired]⟩
    exact ((hfine.calls hcalls hclose).destroy _ _ _ hend).2.books.settled

/-- The destructor runs to its end. -/
theorem close_runs (rt : Runtime) (t : Tid) (c : Nat) (s : State) (l : List (Answer Op Op.Reply)) :
    ∃ s' l', (CXEMySqlCon.close c).Runs (exec rt t) s l true s' l' := by
  cases hm : (s.cons.con c).m_pMySql with
  | none => exact ⟨_, _, .reply .success rfl (by rw [hm]; exact .ret)⟩
  | some h =>
    exact ⟨_, _, .reply .success rfl (by rw [hm]; exact .reply .success rfl .ret)⟩

/-- A connection that is connected and destroyed, and what is said of it. -/
theorem settled_of_connect : ∃ s₁ s₂ l₁ l₂,
    ((State.small 1 0).cons.con 1).m_pMySql = none ∧
    Calls .standard (.client 0) 1 (.small 1 0) [] [(.connect ⟨[], [], [], [], 3306⟩, none)] s₁ l₁ ∧
    (CXEMySqlCon.close 1).Runs (exec .standard (.client 0)) s₁ l₁ true s₂ l₂ ∧
    (Settled (handleDeals l₂) ↔
      ∀ x ∈ [(ConCall.connect ⟨[], [], [], [], 3306⟩, (none : Option Nat))],
        x.1 = .close → x.2 = none) := by
  obtain ⟨s₁, l₁, hrun⟩ : ∃ s₁ l₁, ((ConCall.connect ⟨[], [], [], [], 3306⟩).code 1).Runs
      (exec .standard (.client 0)) (.small 1 0) [] true s₁ l₁ :=
    ⟨_, _, .reply .success rfl (.reply .success rfl (.reply .success rfl (.reply .success rfl
      (.reply .success rfl (.reply .success rfl (.reply .success rfl .ret))))))⟩
  obtain ⟨s₂, l₂, hend⟩ := close_runs .standard (.client 0) 1 s₁ l₁
  have hcalls : Calls .standard (.client 0) 1 (.small 1 0) []
      [(.connect ⟨[], [], [], [], 3306⟩, none)] s₁ l₁ := .cons (.connect _) true hrun .nil
  exact ⟨s₁, s₂, l₁, l₂, rfl, hcalls, hend, settled_iff rfl hcalls hend⟩

/-- The database does not exist: `Connect` fails, `Connect` to `test` succeeds, and after `Close` the
database can be connected to. The handle of the second `Connect` is closed twice. -/
theorem initialize_closes_twice : ∃ calls s₁ s₂ l₁ l₂,
    calls.map Prod.fst = [.connect ⟨[], [], [], [100], 3306⟩,
      .connect ⟨[], [], [], [116, 101, 115, 116], 3306⟩, .close,
      .connect ⟨[], [], [], [100], 3306⟩] ∧
    Calls .standard (.client 0) 1 (.small 1 0) [] calls s₁ l₁ ∧
    (CXEMySqlCon.close 1).Runs (exec .standard (.client 0)) s₁ l₁ true s₂ l₂ ∧
    ¬ Settled (handleDeals l₂) := by
  obtain ⟨s₁, l₁, hcalls⟩ : ∃ s₁ l₁, Calls .standard (.client 0) 1 (.small 1 0) []
      [(.connect ⟨[], [], [], [100], 3306⟩, none),
        (.connect ⟨[], [], [], [116, 101, 115, 116], 3306⟩, some 1), (.close, some 2),
        (.connect ⟨[], [], [], [100], 3306⟩, some 2)] s₁ l₁ :=
    ⟨_, _, .cons (.connect _) false
      -- `mysql_real_connect` fails
      (.reply .success rfl (.reply .success rfl (.reply .success rfl (.reply .success rfl
        (.reply { ok := false } rfl (.reply .success rfl .ret))))))
      (.cons (.connect _) true
        (.reply .success rfl (.reply .success rfl (.reply .success rfl (.reply .success rfl
          (.reply .success rfl (.reply .success rfl (.reply .success rfl (.reply .success rfl
            .ret))))))))
        (.cons .close true (.reply .success rfl (.reply .success rfl .ret))
          (.cons (.connect _) true
            (.reply .success rfl (.reply .success rfl (.reply .success rfl (.reply .success rfl
              (.reply .success rfl (.reply .success rfl (.reply .success rfl (.reply .success rfl
                .ret)))))))) .nil)))⟩
  obtain ⟨s₂, l₂, hend⟩ := close_runs .standard (.client 0) 1 s₁ l₁
  refine ⟨_, s₁, s₂, l₁, l₂, rfl, hcalls, hend, fun h => ?_⟩
  exact (spoilt_of_close hcalls ⟨(.close, some 2), by simp, rfl, by simp⟩).destroy _ _ _ hend h.1

end XeMySql
