import XeMySql.PoolCode
import XeMySql.Properties.Recycling

/-!
# A `CPool` that threads share

Any threads call the methods of a pool, and the scheduler may change from one to another at every
access to the list.

* `linearizable` — what they see is what the one-step methods of `CPool.lean` can do
* `calls_return` — no call waits for ever
* `one_holder` — an object that `Alloc` has returned is nobody else's until it is given to `Free`
-/

namespace XeMySql

open Interact

namespace CPool

variable {ι : Type} [DecidableEq ι] {ok : ι → CPoolMethod → Prop}

/-- The state of a run, line by line. -/
abbrev PoolSys (ι : Type) : Type :=
  Machine.Sys ι CPoolMethod (MonitorOp CPoolOp) (MonitorOp.Reply CPoolOp.Reply) (Option Nat)
    (Lock ι × CPool)

/-- The pool whose methods are the steps of `CPool.lean`. -/
abbrev steps (ι : Type) [DecidableEq ι] :
    Machine ι CPoolMethod CPoolMethod (fun _ => Option Nat) (Option Nat) CPool Unit :=
  Monitor.atomic fun _ c _ p => apply c p

/-- **Each method is one step.** The calls and returns of any run are those of a run of the methods
of `CPool.lean`, and while nobody holds `m_cs` the pool is in the same state. -/
theorem linearizable {p₀ : CPool} {s : PoolSys ι}
    (h : (monitor ι).machine.Reach ok (.free, p₀) s) :
    ∃ s₁, (steps ι).Reach ok p₀ s₁ ∧ observed s₁.hist = observed s.hist ∧
      (s.shared.1 = .free → s₁.shared = s.shared.2) ∧
      ∀ t, s.thread t = .idle → s₁.thread t = .idle :=
  Monitor.refines_atomic (implements ι) h

/-- Two threads call `Alloc` of a pool of one object; the second waits for the first and makes a step
of its own. -/
theorem twoAllocs : ∃ s : PoolSys Bool, (monitor Bool).machine.Reach (fun _ _ => True)
    (.free, new 0 1) s ∧ s.shared = (.free, ⟨[], 1, 1, 2⟩) ∧
      observed s.hist = [.done false .alloc (some 1), .done true .alloc (some 0),
        .call false .alloc, .call true .alloc] := by
  let first : Label Bool CPoolMethod Unit := .act true ()
  let second : Label Bool CPoolMethod Unit := .act false ()
  let acts : List (Label Bool CPoolMethod Unit) :=
    [.call true .alloc, .call false .alloc, first, second, first, first, second, first, first, first]
      ++ List.replicate 11 second
  have hrun : ((monitor Bool).machine.run acts (.init (.free, new 0 1))).map
      (fun s => (s.shared, observed s.hist)) = some ((.free, ⟨[], 1, 1, 2⟩),
        [.done false .alloc (some 1), .done true .alloc (some 0), .call false .alloc,
          .call true .alloc]) := rfl
  obtain ⟨s, hs, hl⟩ := Option.map_eq_some_iff.mp hrun
  exact ⟨s, Machine.Reach.init.run (fun _ _ _ _ _ => trivial) hs, congrArg Prod.fst hl,
    congrArg Prod.snd hl⟩

theorem linearizable_twoAllocs : ∃ s₁ : Machine.Sys Bool CPoolMethod CPoolMethod
    (fun _ => Option Nat) (Option Nat) CPool, s₁.shared = ⟨[], 1, 1, 2⟩ ∧
      observed s₁.hist = [.done false .alloc (some 1), .done true .alloc (some 0),
        .call false .alloc, .call true .alloc] := by
  obtain ⟨s, hr, hsh, hobs⟩ := twoAllocs
  obtain ⟨s₁, -, h₁, hfree, -⟩ := linearizable hr
  refine ⟨s₁, ?_, h₁.trans hobs⟩
  rw [hfree (congrArg Prod.fst hsh), hsh]

/-! ## Nobody waits for ever -/

theorem apply_step {p p' : CPool} {c : CPoolMethod} {a : Option Nat}
    (h : apply c p = some (p', a)) : p'.m_nStepCount = p.m_nStepCount := by
  cases c with
  | alloc =>
    simp only [apply, Option.map_eq_some_iff] at h
    obtain ⟨⟨k, p''⟩, ha, hr⟩ := h
    cases hr
    rcases alloc_cases ha with ⟨rest, -, rfl⟩ | ⟨-, -, n, -, rfl⟩ <;> rfl
  | free data =>
    cases h
    rfl
  | create =>
    cases h
    rw [create, pushNew_eq]
  | step =>
    cases h
    rw [step, pushNew_eq]

omit [DecidableEq ι] in
theorem monitor_live : (monitor ι).Live fun p => 0 < p.m_nStepCount where
  canRun _ c _ _ _ _ hp hd := (canRun_body c hp).drive (fun _ _ _ _ => rfl) hd
  keeps t c os p a p' hp hd := by
    obtain ⟨_, ha⟩ := implements ι t c os p a p' hd
    exact (apply_step ha).symm ▸ hp

/-- **No call waits for ever.** Wherever the threads of a pool are, their calls can all be brought to an
end, whatever they free and whatever the memory held that the pool was constructed in. -/
theorem calls_return (garbage nCount : Nat) {s : PoolSys ι}
    (h : (monitor ι).machine.Reach ok (.free, new garbage nCount) s) (ts : List ι) :
    ∃ s', (monitor ι).machine.Leads s s' ∧ ∀ t ∈ ts, s'.thread t = .idle :=
  Monitor.returns monitor_live (wellFormed_new garbage nCount).step_pos h ts

theorem calls_return_two : ∃ s s' : PoolSys Bool, (s.thread true).call = some .alloc ∧
    (s.thread false).call = some (.free 0) ∧ (monitor Bool).machine.Leads s s' ∧
      s'.thread true = .idle ∧ s'.thread false = .idle := by
  have hrun : ((monitor Bool).machine.run [.call true .alloc, .call false (.free 0), .act true ()]
      (.init (.free, new 0 1))).map (fun s => ((s.thread true).call, (s.thread false).call))
        = some (some .alloc, some (.free 0)) := rfl
  obtain ⟨s, hs, hl⟩ := Option.map_eq_some_iff.mp hrun
  have hr : (monitor Bool).machine.Reach (fun _ _ => True) (.free, new 0 1) s :=
    Machine.Reach.init.run (fun _ _ _ _ _ => trivial) hs
  obtain ⟨s', hlead, hidle⟩ := calls_return 0 1 hr [true, false]
  exact ⟨s, s', congrArg Prod.fst hl, congrArg Prod.snd hl, hlead, hidle true (by simp),
    hidle false (by simp)⟩

/-! ## One holder -/

/-- The objects that threads have been given and not begun to give back. -/
def out : List (Observed ι CPoolMethod (Option Nat)) → List Nat
  | [] => []
  | .done _ .alloc (some k) :: h => k :: out h
  | .call _ (.free k) :: h => (out h).erase k
  | _ :: h => out h

/-- Only such objects have been given to `Free`. -/
def Orderly : List (Observed ι CPoolMethod (Option Nat)) → Prop
  | [] => True
  | .call _ (.free k) :: h => k ∈ out h ∧ Orderly h
  | _ :: h => Orderly h

/-- The objects that the pool has given out, from the step of `Alloc` to that of `Free`. -/
def givenOut : List (Event ι CPoolMethod CPoolMethod (fun _ => Option Nat) (Option Nat)) → List Nat
  | [] => []
  | .reply _ .alloc (some k) :: h => k :: givenOut h
  | .reply _ (.free k) _ :: h => (givenOut h).erase k
  | _ :: h => givenOut h

/-- The object that a thread has on its way, out of `Alloc` or into `Free`. -/
def carries : Thread CPoolMethod CPoolMethod (fun _ => Option Nat) (Option Nat) → Option Nat
  | .running .alloc (.ret a) => a
  | .running (.free k) (.op _ _) => some k
  | _ => none

/-- The state of a run of the steps. -/
abbrev StepSys (ι : Type) : Type :=
  Machine.Sys ι CPoolMethod CPoolMethod (fun _ => Option Nat) (Option Nat) CPool

/-- What has been given out is with threads or on its way, each object once. -/
structure Sorted (s : StepSys ι) : Prop where
  accounted : Accounted s.shared (givenOut s.hist)
  out_mem : ∀ k ∈ out (observed s.hist), k ∈ givenOut s.hist
  nodup : (out (observed s.hist)).Nodup
  carried : ∀ t k, carries (s.thread t) = some k →
    k ∈ givenOut s.hist ∧ k ∉ out (observed s.hist)
  alone : ∀ t u k, carries (s.thread t) = some k → carries (s.thread u) = some k → t = u

omit [DecidableEq ι] in
theorem Orderly.tail {e : Observed ι CPoolMethod (Option Nat)}
    {h : List (Observed ι CPoolMethod (Option Nat))} (ho : Orderly (e :: h)) : Orderly h := by
  cases e with
  | call t c =>
    cases c with
    | free k => exact ho.2
    | _ => exact ho
  | done t c a => exact ho

section

variable {s s' : StepSys ι} {t : ι} {c : CPoolMethod}

omit [DecidableEq ι] in
/-- Only thread `t` has moved. -/
theorem Sorted.moved (h : Sorted s) (hthread : ∀ u, u ≠ t → s'.thread u = s.thread u)
    (hacc : Accounted s'.shared (givenOut s'.hist))
    (hout : ∀ k ∈ out (observed s'.hist), k ∈ givenOut s'.hist)
    (hnodup : (out (observed s'.hist)).Nodup)
    (hself : ∀ k, carries (s'.thread t) = some k → (k ∈ givenOut s'.hist ∧
      k ∉ out (observed s'.hist)) ∧ ∀ u, u ≠ t → carries (s.thread u) ≠ some k)
    (hother : ∀ u k, u ≠ t → carries (s.thread u) = some k →
      k ∈ givenOut s'.hist ∧ k ∉ out (observed s'.hist)) : Sorted s' := by
  refine ⟨hacc, hout, hnodup, fun u k hk => ?_, fun u v k hu hv => ?_⟩
  · by_cases hut : u = t
    · subst hut
      exact (hself k hk).1
    · exact hother u k hut (hthread u hut ▸ hk)
  · by_cases hut : u = t <;> by_cases hvt : v = t
    · exact hut.trans hvt.symm
    · subst hut
      exact absurd (hthread v hvt ▸ hv) ((hself k hu).2 v hvt)
    · subst hvt
      exact absurd (hthread u hut ▸ hu) ((hself k hv).2 u hut)
    · exact h.alone u v k (hthread u hut ▸ hu) (hthread v hvt ▸ hv)

/-- A call begins: an object given to `Free` is on its way from now on. -/
theorem Sorted.call (h : Sorted s) (ho : Orderly (.call t c :: observed s.hist)) :
    Sorted ⟨s.shared, Function.update s.thread t (.running c (.op c .ret)), .call t c :: s.hist⟩ := by
  have hthread : ∀ u, u ≠ t → Function.update s.thread t (.running c (.op c .ret)) u = s.thread u :=
    fun u hu => Function.update_of_ne hu ..
  cases c with
  | free k =>
    refine h.moved hthread h.accounted (fun j hj => h.out_mem j (List.mem_of_mem_erase hj))
      (h.nodup.erase k) (fun j hj => ?_) (fun u j _ hj => ?_)
    · dsimp only at hj
      rw [Function.update_self] at hj
      cases hj
      exact ⟨⟨h.out_mem k ho.1, h.nodup.not_mem_erase⟩,
        fun u _ hu => (h.carried u k hu).2 ho.1⟩
    · obtain ⟨h1, h2⟩ := h.carried u j hj
      exact ⟨h1, fun hm => h2 (List.mem_of_mem_erase hm)⟩
  | _ =>
    refine h.moved hthread h.accounted h.out_mem h.nodup (fun j hj => ?_)
      (fun u j _ hj => h.carried u j hj)
    dsimp only at hj
    rw [Function.update_self] at hj
    cases hj

/-- A method takes its step. -/
theorem Sorted.reply (h : Sorted s) {p : CPool} {a : Option Nat}
    (ht : s.thread t = .running c (.op c .ret)) (ha : apply c s.shared = some (p, a)) :
    Sorted ⟨p, Function.update s.thread t (.running c (.ret a)), .reply t c a :: s.hist⟩ := by
  have hthread : ∀ u, u ≠ t → Function.update s.thread t (.running c (.ret a)) u = s.thread u :=
    fun u hu => Function.update_of_ne hu ..
  cases c with
  | alloc =>
    simp only [apply, Option.map_eq_some_iff] at ha
    obtain ⟨⟨k, p'⟩, ha, hr⟩ := ha
    cases hr
    have hfresh := h.accounted.alloc_not_mem ha
    refine h.moved hthread (h.accounted.alloc ha)
      (fun j hj => List.mem_cons_of_mem _ (h.out_mem j hj)) h.nodup (fun j hj => ?_)
      (fun u j _ hj => ?_)
    · dsimp only at hj
      rw [Function.update_self] at hj
      cases hj
      exact ⟨⟨List.mem_cons_self .., fun hm => hfresh (h.out_mem k hm)⟩,
        fun u _ hu => hfresh (h.carried u k hu).1⟩
    · obtain ⟨h1, h2⟩ := h.carried u j hj
      exact ⟨List.mem_cons_of_mem _ h1, h2⟩
  | free k =>
    cases ha
    have hk : carries (s.thread t) = some k := by rw [ht]; rfl
    obtain ⟨hmem, hnot⟩ := h.carried t k hk
    have hkeep : ∀ j, j ≠ k → j ∈ givenOut s.hist → j ∈ (givenOut s.hist).erase k :=
      fun j hj hm => (List.mem_erase_of_ne hj).mpr hm
    refine h.moved hthread (h.accounted.free hmem) (fun j hj => ?_) h.nodup (fun j hj => ?_)
      (fun u j hu hj => ?_)
    · refine hkeep j ?_ (h.out_mem j hj)
      rintro rfl
      exact hnot hj
    · dsimp only at hj
      rw [Function.update_self] at hj
      cases hj
    · obtain ⟨h1, h2⟩ := h.carried u j hj
      refine ⟨hkeep j ?_ h1, h2⟩
      rintro rfl
      exact hu (h.alone u t j hj hk)
  | create =>
    cases ha
    refine h.moved hthread (h.accounted.pushNew _) h.out_mem h.nodup (fun j hj => ?_)
      (fun u j _ hj => h.carried u j hj)
    dsimp only at hj
    rw [Function.update_self] at hj
    cases hj
  | step =>
    cases ha
    refine h.moved hthread (h.accounted.pushNew _) h.out_mem h.nodup (fun j hj => ?_)
      (fun u j _ hj => h.carried u j hj)
    dsimp only at hj
    rw [Function.update_self] at hj
    cases hj

/-- A call returns: an object of `Alloc` is its caller's. -/
theorem Sorted.done (h : Sorted s) {a : Option Nat} (ht : s.thread t = .running c (.ret a)) :
    Sorted ⟨s.shared, Function.update s.thread t .idle, .done t c a :: s.hist⟩ := by
  have hthread : ∀ u, u ≠ t → Function.update s.thread t .idle u = s.thread u :=
    fun u hu => Function.update_of_ne hu ..
  have hself : ∀ k, carries (Function.update s.thread t .idle t) ≠ some k := by
    intro k
    rw [Function.update_self]
    nofun
  have hsame : Sorted ⟨s.shared, Function.update s.thread t .idle, s.hist⟩ :=
    h.moved hthread h.accounted h.out_mem h.nodup (fun k hk => absurd hk (hself k))
      fun u k _ hk => h.carried u k hk
  cases c with
  | alloc =>
    cases a with
    | none => exact ⟨hsame.accounted, hsame.out_mem, hsame.nodup, hsame.carried, hsame.alone⟩
    | some k =>
      have hk : carries (s.thread t) = some k := by rw [ht]; rfl
      obtain ⟨hmem, hnot⟩ := h.carried t k hk
      refine h.moved hthread h.accounted (fun j hj => ?_) (List.nodup_cons.mpr ⟨hnot, h.nodup⟩)
        (fun j hj => absurd hj (hself j)) (fun u j hu hj => ?_)
      · rcases List.mem_cons.mp hj with rfl | hj
        · exact hmem
        · exact h.out_mem j hj
      · obtain ⟨h1, h2⟩ := h.carried u j hj
        refine ⟨h1, fun hm => ?_⟩
        rcases List.mem_cons.mp hm with rfl | hm
        · exact hu (h.alone u t j hj hk)
        · exact h2 hm
  | _ => exact ⟨hsame.accounted, hsame.out_mem, hsame.nodup, hsame.carried, hsame.alone⟩

/-- **Run lemma.** -/
theorem sorted {garbage nCount : Nat} (h : (steps ι).Reach ok (new garbage nCount) s)
    (ho : Orderly (observed s.hist)) : Sorted s := by
  induction h with
  | init =>
    refine ⟨⟨?_, (wellFormed_new garbage nCount).step_pos⟩, nofun, List.nodup_nil, nofun, nofun⟩
    simp [givenOut, Machine.Sys.init]
  | @step s s' l hr hl hs ih =>
    cases Machine.step_cases hs with
    | call ht hc => exact (ih ho.tail).call ho
    | wait ht he =>
      simp only [steps, Monitor.atomic, Option.map_eq_some_iff] at he
      obtain ⟨_, _, he⟩ := he
      cases he
    | @reply t o c e k sh r ht he =>
      rcases (Monitor.atomic_returned hr t).2 c _ ht with hk | ⟨a, hk⟩
      · cases hk
        simp only [steps, Monitor.atomic, Option.map_eq_some_iff] at he
        obtain ⟨⟨p, a⟩, he, hr⟩ := he
        cases hr
        exact (ih ho).reply ht he
      · cases hk
    | done ht => exact (ih ho.tail).done ht

end

/-- **One holder.** In every run of a new pool in which threads free only what has been given out, no
object is given out twice, and what is given out is not in the free list while nobody holds
`m_cs`. -/
theorem one_holder (garbage nCount : Nat) {s : PoolSys ι}
    (h : (monitor ι).machine.Reach ok (.free, new garbage nCount) s)
    (ho : Orderly (observed s.hist)) :
    (out (observed s.hist)).Nodup ∧ (s.shared.1 = .free →
      ∀ k ∈ out (observed s.hist), k ∉ s.shared.2.m_FreeList ∧ k < s.shared.2.created) := by
  obtain ⟨s₁, h₁, hobs, hfree, -⟩ := Monitor.refines_atomic (implements ι) h
  rw [← hobs] at ho ⊢
  have hsorted := sorted h₁ ho
  refine ⟨hsorted.nodup, fun hl k hk => ?_⟩
  have hmem := hsorted.out_mem k hk
  rw [← hfree hl]
  refine ⟨fun hf => ?_, ?_⟩
  · exact (List.nodup_append.mp hsorted.accounted.nodup).2.2 k hf k hmem rfl
  · have hr := hsorted.accounted.perm.mem_iff.mp (List.mem_append_right _ hmem)
    exact List.mem_range.mp hr

theorem one_holder_twoAllocs : ∃ s : PoolSys Bool, out (observed s.hist) = [1, 0] ∧
    (out (observed s.hist)).Nodup ∧ (s.shared.1 = .free →
      ∀ k ∈ out (observed s.hist), k ∉ s.shared.2.m_FreeList ∧ k < s.shared.2.created) := by
  obtain ⟨s, hr, -, hobs⟩ := twoAllocs
  exact ⟨s, by rw [hobs]; rfl, one_holder 0 1 hr (by rw [hobs]; trivial)⟩

end CPool

end XeMySql
