import XeMySql.Pool
import XeMySql.Lib.Wrap

/-!
# The scan for a free connection

`GetFreeCon` tries the connections at `i % nCount` for `i = 0, 1, ..` until it can lock one. Its loop has
no other end, and `i` wraps around after 2^32 - 1.

* `Cons.exec_aside` — what the requests of other threads leave to a thread in the loop
* `InLoop.probe` — one probe
* `InLoop.of_reach` — how a thread comes into the loop
* `scan_finds` — a scan among any steps of the other threads
-/

namespace XeMySql

open Interact

/-! ## Other threads -/

/-- What other threads do not change for a thread: which connections there are, its variable `i`, and what
it has locked. -/
structure Cons.Aside (t : Tid) (x x' : Cons) : Prop where
  vector : x'.m_VectorCon = x.m_VectorCon
  i : x'.i t = x.i t
  owner : ∀ c, (x'.con c).cs.owner = some t → (x.con c).cs.owner = some t

theorem Cons.Aside.refl (t : Tid) (x : Cons) : x.Aside t x := ⟨rfl, rfl, fun _ h => h⟩

/-- A connection whose lock another thread has entered or left, or whose lock stays as it is. -/
theorem Cons.Aside.withCon {t : Tid} {x : Cons} {c : Nat} {y : CXEMySqlCon}
    (h : y.cs.owner = some t → (x.con c).cs.owner = some t) : x.Aside t (x.withCon c y) := by
  refine ⟨rfl, rfl, fun d hd => ?_⟩
  by_cases hdc : d = c
  · subst hdc
    rw [Cons.withCon_self] at hd
    exact h hd
  · rwa [Cons.withCon_of_ne hdc] at hd

/-- **A request of another thread.** -/
theorem Cons.exec_aside {t u : Tid} (hu : u ≠ t) {x x' : Cons} {e : ConOp} {r : Option e.Reply}
    (h : x.exec u e = some (x', r)) : x.Aside t x' := by
  have hne : ∀ l : Lock Tid, l.owner = some u → l.owner ≠ some t := by
    intro l hl ht
    exact hu (Option.some.inj (hl.symm.trans ht))
  cases e with
  | getFreeCon =>
    have hi : ∀ n, Function.update x.i u n t = x.i t := fun _ => Function.update_of_ne (Ne.symm hu) ..
    rcases Cons.getFreeCon_cases h with ⟨-, rfl, -⟩ | ⟨c, l, -, hl, -, rfl⟩ | ⟨c, -, -, -, rfl⟩
    · exact .refl t x'
    · have hcon := Aside.withCon (x := x) (c := c) (y := { x.con c with cs := l }) fun ho =>
        absurd ho (hne l (Lock.owner_of_tryEnter hl))
      exact ⟨rfl, hi 0, hcon.owner⟩
    · exact ⟨rfl, hi _, fun _ ho => ho⟩
  | unLock c =>
    simp only [Cons.exec, Option.map_eq_some_iff] at h
    obtain ⟨l, hl, h⟩ := h
    cases h
    refine .withCon fun ho => ?_
    rcases Lock.owner_of_leave hl with hnone | hsome
    · rw [hnone] at ho
      cases ho
    · exact absurd ho (hne l hsome)
  | setMySql c m =>
    cases h
    exact .withCon fun ho => ho
  | setParams c p =>
    cases h
    exact .withCon fun ho => ho
  | _ =>
    cases h
    exact .refl t x

/-- A step changes the connections by a request of the thread that moves. -/
theorem steps_cons {rt : Runtime} {l : Label Tid Call Outcome} {s s' : Sys}
    (h : (machine rt).Steps s l s') :
    s'.shared.cons = s.shared.cons ∨
      ∃ (e : ConOp) (r : Option e.Reply), s.shared.cons.exec l.thread e = some (s'.shared.cons, r) := by
  rcases h.shared with heq | ⟨e, o, r, he⟩
  · exact Or.inl (congrArg State.cons heq)
  · rcases exec_cons he with hsame | ⟨e, r, -, hx⟩
    · exact Or.inl hsame
    · exact Or.inr ⟨e, r, hx⟩

/-! ## The loop -/

/-- Thread `t` is in the loop of `GetFreeCon` and holds no connection, and `d` is a connection that is
free. -/
structure InLoop (t : Tid) (d : Nat) (s : Sys) : Prop where
  asking : ∃ call k, s.thread t = .running call (.op (.con .getFreeCon) k)
  counter : s.shared.cons.i t < 2 ^ 32
  count : s.shared.cons.m_VectorCon.length < 2 ^ 32
  holdsNone : ∀ c, (s.shared.cons.con c).cs.owner ≠ some t
  mem : d ∈ s.shared.cons.m_VectorCon
  free : (s.shared.cons.con d).cs = .free

/-- A probe of a connection that is busy: the thread is still in the loop, and no connection has been
changed. -/
structure Missed (t : Tid) (s s' : Sys) : Prop where
  thread : s'.thread t = s.thread t
  con : s'.shared.cons.con = s.shared.cons.con

/-- A probe that has locked the connection `c`, which was free, and changed nothing of the others:
`GetFreeCon` has returned with it. -/
structure Found (t : Tid) (c : Nat) (s s' : Sys) : Prop where
  returned : ∃ call k, s.thread t = .running call (.op (.con .getFreeCon) k) ∧
    s'.thread t = .running call (k (some c))
  mem : c ∈ s.shared.cons.m_VectorCon
  free : (s.shared.cons.con c).cs = .free
  locked : s'.shared.cons.con c = { s.shared.cons.con c with cs := .held t 0 }
  others : ∀ d, d ≠ c → s'.shared.cons.con d = s.shared.cons.con d

theorem Missed.not_found {t : Tid} {c : Nat} {s s' : Sys} (h : Missed t s s') :
    ¬ Found t c s s' := by
  intro hf
  have hlocked := hf.locked
  rw [h.con] at hlocked
  have hcs := (congrArg CXEMySqlCon.cs hlocked).symm.trans hf.free
  cases hcs

/-- Thread `t` has missed `m` times. Between its probes other threads do what they like, but for the
lock of `d`. -/
inductive Probes (rt : Runtime) (t : Tid) (d : Nat) : Nat → Sys → Sys → Prop
  | start (s : Sys) : Probes rt t d 0 s s
  | missed {m s s₁ s₂ o} (h : Probes rt t d m s s₁)
    (hs : (machine rt).step (.act t o) s₁ = some s₂) (hm : Missed t s₁ s₂) :
    Probes rt t d (m + 1) s s₂
  | other {m s s₁ s₂ l} (h : Probes rt t d m s s₁) (hl : l.thread ≠ t)
    (hs : (machine rt).step l s₁ = some s₂) (hfree : (s₂.shared.cons.con d).cs = .free) :
    Probes rt t d m s s₂

/-- How many probes are left until that of the `j`-th connection. -/
def probesTo (t : Tid) (j : Nat) (s : Sys) : Nat :=
  Wrap.rounds (2 ^ 32) s.shared.cons.m_VectorCon.length (s.shared.cons.i t) j

/-- The connection that is tried is free, or the thread has it already. -/
theorem Cons.exec_hit {t : Tid} {x : Cons} {c : Nat} {l : Lock Tid}
    (hc : x.m_VectorCon[x.i t % x.m_VectorCon.length]? = some c)
    (hl : (x.con c).cs.tryEnter t = some l) :
    x.exec t .getFreeCon = some ({ x.withCon c { x.con c with cs := l } with
      i := Function.update x.i t 0 }, some (some c)) := by
  have hpos : x.m_VectorCon.length ≠ 0 := by
    intro hnil
    rw [List.length_eq_zero_iff.mp hnil] at hc
    cases hc
  simp only [Cons.exec, if_neg hpos, Cons.probe, hc, Option.map_some, hl]

/-- It is another thread's. -/
theorem Cons.exec_miss {t : Tid} {x : Cons} {c : Nat}
    (hc : x.m_VectorCon[x.i t % x.m_VectorCon.length]? = some c)
    (hl : (x.con c).cs.tryEnter t = none) :
    x.exec t .getFreeCon =
      some ({ x with i := Function.update x.i t ((x.i t + 1) % 2 ^ 32) }, none) := by
  have hpos : x.m_VectorCon.length ≠ 0 := by
    intro hnil
    rw [List.length_eq_zero_iff.mp hnil] at hc
    cases hc
  simp only [Cons.exec, if_neg hpos, Cons.probe, hc, Option.map_some, hl, Option.map_none]

theorem exec_getFreeCon {t : Tid} {s : State} {x : Cons} {r : Option (Option Nat)} (rt : Runtime)
    (o : Outcome) (h : s.cons.exec t .getFreeCon = some (x, r)) :
    exec rt t (.con .getFreeCon) o s = some ({ s with cons := x }, r) :=
  congrArg (Option.map _) h

namespace InLoop

variable {t : Tid} {d j : Nat} {s s' : Sys}

/-- The index of a probe is inside the vector. -/
theorem index_lt (h : InLoop t d s) :
    s.shared.cons.i t % s.shared.cons.m_VectorCon.length < s.shared.cons.m_VectorCon.length :=
  Nat.mod_lt _ (List.length_pos_of_mem h.mem)

/-- **Step lemma.** A probe returns with a free connection, or is one nearer to the `j`-th. -/
theorem probe (rt : Runtime) (h : InLoop t d s) (hj : s.shared.cons.m_VectorCon[j]? = some d)
    (o : Outcome) :
    ∃ s', (machine rt).step (.act t o) s = some s' ∧
      ((∃ c, Found t c s s') ∨ Missed t s s' ∧ InLoop t d s' ∧
        s'.shared.cons.m_VectorCon = s.shared.cons.m_VectorCon ∧
        probesTo t j s' + 1 = probesTo t j s) := by
  obtain ⟨call, k, ht⟩ := h.asking
  obtain ⟨c, hc⟩ : ∃ c, s.shared.cons.m_VectorCon[s.shared.cons.i t %
      s.shared.cons.m_VectorCon.length]? = some c :=
    ⟨_, List.getElem?_eq_getElem h.index_lt⟩
  cases hl : (s.shared.cons.con c).cs.tryEnter t with
  | some l =>
    have hfree : (s.shared.cons.con c).cs = .free ∧ l = .held t 0 := by
      rcases Lock.tryEnter_eq_some hl with hl | ⟨n, hheld, -⟩
      · exact hl
      · exact absurd (congrArg Lock.owner hheld) (h.holdsNone c)
    obtain ⟨hfree, rfl⟩ := hfree
    have he := exec_getFreeCon rt o (Cons.exec_hit hc hl)
    have hstep := (Machine.Steps.reply (M := machine rt) (o := o) ht he).step
    refine ⟨_, hstep, Or.inl ⟨c, ⟨call, k, ht, ?_⟩, ?_, hfree, ?_, ?_⟩⟩
    · exact Function.update_self ..
    · exact List.mem_of_getElem? hc
    · exact Cons.withCon_self ..
    · exact fun e he => Cons.withCon_of_ne he ..
  | none =>
    have he := exec_getFreeCon rt o (Cons.exec_miss hc hl)
    have hne : s.shared.cons.i t % s.shared.cons.m_VectorCon.length ≠ j := by
      rintro rfl
      obtain rfl : c = d := Option.some.inj (hc.symm.trans hj)
      rw [h.free] at hl
      cases hl
    have hi : (Function.update s.shared.cons.i t ((s.shared.cons.i t + 1) % 2 ^ 32)) t =
        Wrap.next (2 ^ 32) (s.shared.cons.i t) := Function.update_self ..
    have hstep := (Machine.Steps.wait (M := machine rt) (o := o) ht he).step
    refine ⟨_, hstep, Or.inr ⟨⟨rfl, rfl⟩, ?_, rfl, ?_⟩⟩
    · refine ⟨⟨call, k, ht⟩, ?_, h.count, h.holdsNone, h.mem, h.free⟩
      exact hi.trans_lt (Nat.mod_lt _ (Nat.two_pow_pos 32))
    · obtain ⟨hlt, -⟩ := List.getElem?_eq_some_iff.mp hj
      have hnext := Wrap.rounds_next hlt h.count.le h.counter hne
      rw [← hi] at hnext
      exact hnext

/-- Other threads leave it in the loop, no nearer and no further, if they leave `d` free. -/
theorem other {rt : Runtime} (h : InLoop t d s) {l : Label Tid Call Outcome} (hl : l.thread ≠ t)
    (hs : (machine rt).step l s = some s') (hfree : (s'.shared.cons.con d).cs = .free) :
    InLoop t d s' ∧ s'.shared.cons.m_VectorCon = s.shared.cons.m_VectorCon ∧
      probesTo t j s' = probesTo t j s := by
  have hsteps := Machine.step_cases hs
  have haside : s.shared.cons.Aside t s'.shared.cons := by
    rcases steps_cons hsteps with heq | ⟨e, r, he⟩
    · rw [heq]
      exact .refl t _
    · exact Cons.exec_aside hl he
  refine ⟨⟨?_, ?_, ?_, fun c hc => h.holdsNone c (haside.owner c hc), ?_, hfree⟩, haside.vector, ?_⟩
  · rw [hsteps.thread_of_ne hl]
    exact h.asking
  · rw [haside.i]
    exact h.counter
  · rw [haside.vector]
    exact h.count
  · rw [haside.vector]
    exact h.mem
  · rw [probesTo, probesTo, haside.vector, haside.i]

end InLoop

/-! ## Reachable states -/

/-- The counters and the number of connections have 32 bits. -/
structure Cons.Bounded (x : Cons) : Prop where
  i : ∀ t, x.i t < 2 ^ 32
  count : x.m_VectorCon.length < 2 ^ 32

theorem Cons.Bounded.update {x : Cons} (h : x.Bounded) {n : Nat} (hn : n < 2 ^ 32) (u t : Tid) :
    Function.update x.i u n t < 2 ^ 32 := by
  by_cases htu : t = u
  · subst htu
    rwa [Function.update_self]
  · rw [Function.update_of_ne htu]
    exact h.i t

theorem Cons.exec_bounded {u : Tid} {x x' : Cons} {e : ConOp} {r : Option e.Reply}
    (hx : x.Bounded) (h : x.exec u e = some (x', r)) : x'.Bounded := by
  cases e with
  | getFreeCon =>
    rcases Cons.getFreeCon_cases h with ⟨-, rfl, -⟩ | ⟨c, l, -, -, -, rfl⟩ | ⟨c, -, -, -, rfl⟩
    · exact hx
    · exact ⟨hx.update (Nat.two_pow_pos 32) u, hx.count⟩
    · exact ⟨hx.update (Nat.mod_lt _ (Nat.two_pow_pos 32)) u, hx.count⟩
  | unLock c =>
    simp only [Cons.exec, Option.map_eq_some_iff] at h
    obtain ⟨l, -, h⟩ := h
    cases h
    exact ⟨hx.i, hx.count⟩
  | _ =>
    cases h
    exact ⟨hx.i, hx.count⟩

theorem reach_bounded {rt : Runtime} {s₀ : State} {s : Sys} (h₀ : s₀.cons.Bounded)
    (h : (machine rt).Reach okPool s₀ s) : s.shared.cons.Bounded := by
  refine h.invariant (I := fun s => s.shared.cons.Bounded) h₀ fun s l s' hs _ hsteps => ?_
  rcases steps_cons hsteps with heq | ⟨e, r, he⟩
  · rw [heq]
    exact hs
  · exact Cons.exec_bounded hs he

/-- **In every run** a thread that comes to `GetFreeCon` holds no connection; so it is in the loop, as
soon as a connection is free. -/
theorem InLoop.of_reach {rt : Runtime} {s₀ : State} (h₀ : PoolOk s₀) (hb : s₀.cons.Bounded)
    {s : Sys} (h : (machine rt).Reach okPool s₀ s) {t : Tid} {call : Call}
    {k : Option Nat → Code Bool} (ht : s.thread t = .running call (.op (.con .getFreeCon) k)) {d : Nat}
    (hd : d ∈ s.shared.cons.m_VectorCon) (hfree : (s.shared.cons.con d).cs = .free) :
    InLoop t d s := by
  have H := hold_kept rt h₀
  have hI := (H.holds h).1
  have hbounded := reach_bounded hb h
  obtain ⟨hnone, -⟩ : (holdView s.hist t).con = none ∧ _ := H.may h ht
  refine ⟨⟨call, k, ht⟩, hbounded.i t, hbounded.count, ?_, hd, hfree⟩
  intro c hc
  rcases hI.entered c with hf | ⟨u, hu⟩
  · rw [hf] at hc
    cases hc
  · obtain rfl : u = t := Option.some.inj ((congrArg Lock.owner hu).symm.trans hc)
    have hcon := (hI.lock u c).mpr hu
    rw [hnone] at hcon
    cases hcon

/-! ## The scan -/

section

variable {rt : Runtime} {t : Tid} {d : Nat} {s s₁ : Sys} {m : Nat}

/-- **Run lemma.** Each miss has brought the thread one probe nearer to the free connection. -/
theorem Probes.inLoop (hscan : Probes rt t d m s s₁) (h : InLoop t d s) {j : Nat}
    (hj : s.shared.cons.m_VectorCon[j]? = some d) :
    InLoop t d s₁ ∧ s₁.shared.cons.m_VectorCon = s.shared.cons.m_VectorCon ∧
      probesTo t j s₁ + m = probesTo t j s := by
  induction hscan with
  | start s => exact ⟨h, rfl, rfl⟩
  | @missed m s s₁ s₂ o _ hs hm ih =>
    obtain ⟨h₁, hvector, hleft⟩ := ih h hj
    obtain ⟨s', hs', hprobe⟩ := h₁.probe rt (hvector ▸ hj) o
    obtain rfl : s₂ = s' := Option.some.inj (hs.symm.trans hs')
    rcases hprobe with ⟨c, hfound⟩ | ⟨-, h₂, hvector', hleft'⟩
    · exact absurd hfound hm.not_found
    · refine ⟨h₂, hvector'.trans hvector, ?_⟩
      omega
  | other _ hl hs hfree ih =>
    obtain ⟨h₁, hvector, hleft⟩ := ih h hj
    obtain ⟨h₂, hvector', hleft'⟩ := h₁.other (j := j) hl hs hfree
    exact ⟨h₂, hvector'.trans hvector, hleft' ▸ hleft⟩

/-- Left alone, the thread returns. -/
theorem InLoop.returns {s₀ : Sys} {j : Nat} (h : InLoop t d s)
    (hj : s.shared.cons.m_VectorCon[j]? = some d) (hscan : Probes rt t d m s₀ s) :
    ∃ m s₁ s₂ o c, Probes rt t d m s₀ s₁ ∧ (machine rt).step (.act t o) s₁ = some s₂ ∧
      Found t c s₁ s₂ := by
  induction hleft : probesTo t j s generalizing m s with
  | zero =>
    obtain ⟨s₂, hs₂, hfound | ⟨-, -, -, hnext⟩⟩ := h.probe rt hj .success
    · obtain ⟨c, hfound⟩ := hfound
      exact ⟨m, s, s₂, .success, c, hscan, hs₂, hfound⟩
    · rw [hleft] at hnext
      cases hnext
  | succ n ih =>
    obtain ⟨s₂, hs₂, hfound | ⟨hmissed, h₂, hvector, hnext⟩⟩ := h.probe rt hj .success
    · obtain ⟨c, hfound⟩ := hfound
      exact ⟨m, s, s₂, .success, c, hscan, hs₂, hfound⟩
    · refine ih h₂ (hvector ▸ hj) (hscan.missed hs₂ hmissed) ?_
      omega

/-- **The scan finds a free connection.** However the steps of other threads come between its probes, as
long as one connection stays free, each probe is of a connection in the vector, and it returns with one
that was free, having changed no other, or misses and changes none; it misses less than `2 * n` times; and
it does return. -/
theorem scan_finds (h : InLoop t d s) :
    (∀ m s₁, Probes rt t d m s s₁ →
      m < 2 * s.shared.cons.m_VectorCon.length ∧
      s₁.shared.cons.i t % s₁.shared.cons.m_VectorCon.length < s₁.shared.cons.m_VectorCon.length ∧
      ∀ o, ∃ s₂, (machine rt).step (.act t o) s₁ = some s₂ ∧
        ((∃ c, Found t c s₁ s₂) ∨ Missed t s₁ s₂)) ∧
    ∃ m s₁ s₂ o c, Probes rt t d m s s₁ ∧ (machine rt).step (.act t o) s₁ = some s₂ ∧
      Found t c s₁ s₂ := by
  obtain ⟨j, hj⟩ := List.mem_iff_getElem?.mp h.mem
  obtain ⟨hlt, -⟩ := List.getElem?_eq_some_iff.mp hj
  constructor
  · intro m s₁ hscan
    obtain ⟨h₁, hvector, hleft⟩ := hscan.inLoop h hj
    have hbound : probesTo t j s < 2 * s.shared.cons.m_VectorCon.length := Wrap.rounds_lt hlt _
    refine ⟨by omega, h₁.index_lt, fun o => ?_⟩
    obtain ⟨s₂, hs₂, hprobe⟩ := h₁.probe rt (hvector ▸ hj) o
    exact ⟨s₂, hs₂, hprobe.imp_right fun hmissed => hmissed.1⟩
  · exact h.returns hj (.start s)

end

/-- One thread holds the connections 0 and 1; another is in its loop, at its 2^32-nd probe. -/
def Sys.atWrap : Sys where
  shared :=
    { State.small 3 0 with
      cons :=
        { m_VectorCon := [0, 1, 2]
          con := fun c => if c < 2 then { cs := .held (.client 1) 0 } else {}
          i := fun _ => 2 ^ 32 - 1 } }
  thread t := if t = .client 0 then .running (.selectDB []) (Call.code (.selectDB [])) else .idle
  hist := []

/-- The index is 0 at the last value of the counter, and 0 again at the next: 3 does not divide 2^32.
Still it comes to the connection 2. -/
theorem scan_finds_atWrap :
    ¬ 3 ∣ 2 ^ 32 ∧ (∀ m s, Probes .standard (.client 0) 2 m Sys.atWrap s → m < 6) ∧
    ∃ m s₁ s₂ o c, Probes .standard (.client 0) 2 m Sys.atWrap s₁ ∧
      (machine .standard).step (.act (.client 0) o) s₁ = some s₂ ∧ Found (.client 0) c s₁ s₂ := by
  have hloop : InLoop (.client 0) 2 Sys.atWrap := by
    refine ⟨⟨_, _, rfl⟩, by decide, by decide, fun c => ?_, by decide, rfl⟩
    show (if c < 2 then ({ cs := .held (.client 1) 0 } : CXEMySqlCon) else {}).cs.owner ≠ _
    split <;> decide
  obtain ⟨hscans, hfound⟩ := @scan_finds .standard _ _ _ hloop
  exact ⟨by decide, fun m s hm => (hscans m s hm).1, hfound⟩

end XeMySql
