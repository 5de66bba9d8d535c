import XeMySql.Pool
import XeMySql.Lib.Trace

/-!
# Connection exclusivity and lock balance

Who is between the `AttemptLock` and the `UnLock` of which connection is read off the history here,
so that it can be compared with what the locks and the libmysql calls do.

* `Balance.reply` — every request keeps locking and unlocking in step
* `exclusive` — exclusivity and balance in every reachable state
-/

namespace XeMySql

open Interact Hold

/-! ## Windows -/

/-- Thread `t` is between its successful `AttemptLock` on `c` and its `UnLock`. -/
def InWindow (t : Tid) (c : Nat) : List Ev → Prop
  | [] => False
  | .reply u (.con .getFreeCon) r :: h => u = t ∧ r = some c ∨ InWindow t c h
  | .reply u (.con (.unLock d)) _ :: h => ¬ (u = t ∧ d = c) ∧ InWindow t c h
  | _ :: h => InWindow t c h

/-- The connection an answer has locked. -/
def Answer.locks : Answer Op Op.Reply → Option Nat
  | ⟨.con .getFreeCon, r⟩ => r
  | _ => none

/-- The connection an answer has unlocked. -/
def Answer.unlocks : Answer Op Op.Reply → Option Nat
  | ⟨.con (.unLock c), _⟩ => some c
  | _ => none

/-- The connections thread `t` has locked in its present call. -/
def lockedIn (t : Tid) (h : List Ev) : List Nat := (callTrace t h).filterMap Answer.locks

/-- The connections thread `t` has unlocked in its present call. -/
def unlockedIn (t : Tid) (h : List Ev) : List Nat := (callTrace t h).filterMap Answer.unlocks

section

variable {h : List Ev} {t u : Tid} {e : Op} {r : e.Reply}

theorem lockedIn_reply : lockedIn t (.reply u e r :: h)
    = if u = t then (Answer.locks ⟨e, r⟩).toList ++ lockedIn t h else lockedIn t h := by
  unfold lockedIn
  rw [callTrace_reply]
  split
  · rw [List.filterMap_cons]
    cases Answer.locks ⟨e, r⟩ <;> rfl
  · rfl

theorem unlockedIn_reply : unlockedIn t (.reply u e r :: h)
    = if u = t then (Answer.unlocks ⟨e, r⟩).toList ++ unlockedIn t h else unlockedIn t h := by
  unfold unlockedIn
  rw [callTrace_reply]
  split
  · rw [List.filterMap_cons]
    cases Answer.unlocks ⟨e, r⟩ <;> rfl
  · rfl

theorem locks_eq_none (he : e ≠ .con .getFreeCon) : Answer.locks ⟨e, r⟩ = none := by
  cases e with
  | con e =>
    cases e with
    | getFreeCon => exact absurd rfl he
    | _ => rfl
  | _ => rfl

theorem unlocks_eq_none (he : ∀ c, e ≠ .con (.unLock c)) : Answer.unlocks ⟨e, r⟩ = none := by
  cases e with
  | con e =>
    cases e with
    | unLock c => exact absurd rfl (he c)
    | _ => rfl
  | _ => rfl

end

/-- What thread `t` knows says what it has locked and unlocked. -/
structure Balance (h : List Ev) (t : Tid) : Prop where
  window : ∀ c, InWindow t c h ↔ (holdView h t).con = some c
  locked : lockedIn t h = ((holdView h t).con.or (holdView h t).left).toList
  unlocked : unlockedIn t h = (holdView h t).left.toList
  once : (holdView h t).con.isSome → (holdView h t).left = none

section

variable {h : List Ev} {t u : Tid} {e : Op} {r : e.Reply}

/-- What another thread does changes nothing. -/
theorem Balance.other (hb : Balance h u) (hu : u ≠ t) : Balance (.reply t e r :: h) u := by
  have hv : holdView (.reply t e r :: h) u = holdView h u := by
    rw [holdView, Discipline.view_reply, Function.update_of_ne hu]
  have hne : t ≠ u := Ne.symm hu
  constructor
  · intro c
    rw [hv, ← hb.window c]
    cases e with
    | con e => cases e <;> simp [InWindow, hne]
    | _ => exact Iff.rfl
  · rw [hv, ← hb.locked, lockedIn_reply, if_neg hne]
  · rw [hv, ← hb.unlocked, unlockedIn_reply, if_neg hne]
  · rw [hv]
    exact hb.once

/-- A request that neither locks nor unlocks. -/
theorem Balance.neither (hb : Balance h t) (h1 : e ≠ .con .getFreeCon)
    (h2 : ∀ c, e ≠ .con (.unLock c)) : Balance (.reply t e r :: h) t := by
  have hv : (holdView (.reply t e r :: h) t).con = (holdView h t).con ∧
      (holdView (.reply t e r :: h) t).left = (holdView h t).left := by
    rw [holdView, Discipline.view_reply, Function.update_self]
    exact next_con h1 h2
  constructor
  · intro c
    rw [hv.1, ← hb.window c]
    cases e with
    | con e =>
      cases e with
      | getFreeCon => exact absurd rfl h1
      | unLock c => exact absurd rfl (h2 c)
      | _ => exact Iff.rfl
    | _ => exact Iff.rfl
  · rw [hv.1, hv.2, ← hb.locked, lockedIn_reply, if_pos rfl, locks_eq_none h1]
    rfl
  · rw [hv.2, ← hb.unlocked, unlockedIn_reply, if_pos rfl, unlocks_eq_none h2]
    rfl
  · rw [hv.1, hv.2]
    exact hb.once

/-- A call begins or ends, with nothing locked. -/
theorem Balance.boundary {ev : Ev} (hb : ∀ u, Balance h u) (hc : (holdView h t).con = none)
    (hev : (∃ c, ev = .call t c) ∨ ∃ c a, ev = .done t c a) : ∀ u, Balance (ev :: h) u := by
  intro u
  have hbu := hb u
  by_cases hu : u = t
  · subst hu
    have hw := hbu.window
    rw [hc] at hw
    rcases hev with ⟨c, rfl⟩ | ⟨c, a, rfl⟩ <;>
      exact ⟨by simpa [InWindow] using hw, by simp [lockedIn], by simp [unlockedIn], by simp⟩
  · have hne : t ≠ u := Ne.symm hu
    rcases hev with ⟨c, rfl⟩ | ⟨c, a, rfl⟩ <;>
      exact ⟨by simpa [InWindow, hu] using hbu.window,
        by simpa [lockedIn, hu, hne] using hbu.locked,
        by simpa [unlockedIn, hu, hne] using hbu.unlocked, by simpa [hu] using hbu.once⟩

/-- **Every request keeps the balance.** -/
theorem Balance.reply (hb : ∀ u, Balance h u) (hm : (holdView h t).may e) :
    ∀ u, Balance (.reply t e r :: h) u := by
  intro u
  by_cases hu : u = t
  · subst hu
    have hbu := hb u
    by_cases h1 : e = .con .getFreeCon
    · subst h1
      obtain ⟨hc, hl⟩ := hm
      have hv : holdView (.reply u (.con .getFreeCon) r :: h) u = { holdView h u with con := r } := by
        rw [holdView, Discipline.view_reply, Function.update_self]
        rfl
      refine ⟨fun c => ?_, ?_, ?_, ?_⟩
      · have hw := hbu.window c
        rw [hc] at hw
        simp only [InWindow, true_and, hv, hw, reduceCtorEq, or_false]
      · rw [lockedIn_reply, if_pos rfl, hv, hbu.locked, hc, hl]
        simp [Answer.locks]
      · rw [unlockedIn_reply, if_pos rfl, hv, hbu.unlocked]
        rfl
      · simp [hv, hl]
    · by_cases h2 : ∃ c, e = .con (.unLock c)
      · obtain ⟨c, rfl⟩ := h2
        have hc : (holdView h u).con = some c := hm.1
        have hl := hbu.once (by simp [hc])
        have hv : holdView (.reply u (.con (.unLock c)) r :: h) u = { left := some c } := by
          rw [holdView, Discipline.view_reply, Function.update_self]
          rfl
        refine ⟨fun d => ?_, ?_, ?_, ?_⟩
        · have hw := hbu.window d
          rw [hc] at hw
          simp only [InWindow, true_and, hv, hw, reduceCtorEq, iff_false]
          rintro ⟨hne, he⟩
          exact hne (Option.some.inj he)
        · rw [lockedIn_reply, if_pos rfl, hv, hbu.locked, hc, hl]
          rfl
        · rw [unlockedIn_reply, if_pos rfl, hv, hbu.unlocked, hl]
          rfl
        · simp [hv]
      · exact hbu.neither h1 fun c he => h2 ⟨c, he⟩
  · exact (hb u).other hu

end

/-! ## Whole runs -/

/-- The request works on connection `c`: a libmysql call on its handle or on a statement of its
handle, an access to its fields, or the `UnLock`. -/
def Op.Touches (s : State) (c : Nat) : Op → Prop
  | .lib e => ∃ h, s.lib.target e = some h ∧ (s.cons.con c).m_pMySql = some h
  | .con (.unLock d) => d = c
  | .con (.getMySql d) => d = c
  | .con (.setMySql d _) => d = c
  | .con (.getParams d) => d = c
  | .con (.setParams d _) => d = c
  | _ => False

/--
Exclusivity and balance in one state: `one` thread at most is in the window of a connection, and
owns its lock; every request that works on a connection is made `inside` its window; a call that is
about to return has `balanced` its locking by its unlocking, of one connection at most; with all
threads at `rest`, every connection is free.
-/
structure Exclusive (s : Sys) : Prop where
  one : ∀ c t u, InWindow t c s.hist → InWindow u c s.hist → t = u
  owner : ∀ c t, InWindow t c s.hist ↔ (s.shared.cons.con c).cs = .held t 0
  inside : ∀ t call e k c, s.thread t = .running call (.op e k) → e.Touches s.shared c →
    InWindow t c s.hist
  balanced : ∀ t call a, s.thread t = .running call (.ret a) →
    unlockedIn t s.hist = lockedIn t s.hist ∧ (lockedIn t s.hist).length ≤ 1
  rest : (∀ t call p, s.thread t ≠ .running call p) → ∀ c, (s.shared.cons.con c).cs = .free

/-- A thread works on no connection but its own. -/
theorem Inv.con_of_touches {s : State} {v : Tid → Hold} {t : Tid} {e : Op} {c : Nat}
    (hI : Inv s.cons s.lib v) (hm : (v t).may e) (ht : e.Touches s c) : (v t).con = some c := by
  cases e with
  | lib e =>
    obtain ⟨h, he, hc⟩ := ht
    exact hI.con_of_target hm he hc
  | con e =>
    cases e with
    | getFreeCon => exact ht.elim
    | setParams d p => exact hm.elim
    | unLock d => exact (show d = c from ht) ▸ hm.1
    | getMySql d => exact (show d = c from ht) ▸ hm
    | setMySql d h => exact (show d = c from ht) ▸ hm.1
    | getParams d => exact (show d = c from ht) ▸ hm
  | _ => exact ht.elim

/-- Windows and locks stay in step in every run. -/
theorem balance_kept (rt : Runtime) {s₀ : State} (h₀ : PoolOk s₀) :
    (machine rt).Kept okPool s₀ Hold.discipline {} (fun _ _ => {}) holdFinal
      fun s h => Inv s.cons s.lib (holdView h) ∧ ∀ u, Balance h u := by
  refine (hold_kept rt h₀).and ?_ ?_ ?_ ?_ ?_
  · exact fun u => ⟨by simp [InWindow], rfl, rfl, by simp⟩
  · intro s h t c _ hb _ _ hv
    have hc : (holdView h t).con = none := by rw [show holdView h t = {} from hv]
    exact Balance.boundary hb hc (Or.inl ⟨c, rfl⟩)
  · exact fun _ _ _ _ _ _ _ hb _ _ => hb
  · exact fun _ _ _ _ _ _ _ _ hb hm _ => Balance.reply hb hm
  · exact fun _ _ _ c a _ hb hf => Balance.boundary hb hf (Or.inr ⟨c, a, rfl⟩)

/-- **Exclusivity and balance**, for every pool, any threads, all interleavings and whatever the
library does. -/
theorem exclusive (rt : Runtime) {s₀ : State} (h₀ : PoolOk s₀) {s : Sys}
    (h : (machine rt).Reach okPool s₀ s) : Exclusive s := by
  have H := balance_kept rt h₀
  obtain ⟨hI, hb⟩ := (H.holds h).1
  have howner : ∀ c t, InWindow t c s.hist ↔ (s.shared.cons.con c).cs = .held t 0 :=
    fun c t => ((hb t).window c).trans (hI.lock t c)
  refine ⟨?_, howner, ?_, ?_, ?_⟩
  · intro c t u ht hu
    exact hI.unique (((hb t).window c).mp ht) (((hb u).window c).mp hu)
  · intro t call e k c ht htouch
    exact ((hb t).window c).mpr (hI.con_of_touches (H.may h ht) htouch)
  · intro t call a ht
    have hrel : (holdView s.hist t).con = none := H.atReturn h ht
    rw [(hb t).locked, (hb t).unlocked, hrel, Option.none_or]
    refine ⟨rfl, ?_⟩
    cases (holdView s.hist t).left <;> simp
  · intro hidle c
    rcases hI.entered c with hf | ⟨t, ht⟩
    · exact hf
    · have hv : holdView s.hist t = {} := H.view_idle h (hidle t)
      have hc := (hI.lock t c).mpr ht
      rw [hv] at hc
      cases hc

/-- Two clients that hold two connections, and what is said of them. -/
theorem exclusive_two_clients : ∃ s, (machine .standard).Reach okPool
    (.small 2 0) s ∧
    lockedIn (.client 0) s.hist = [0] ∧ lockedIn (.client 1) s.hist = [1] ∧ Exclusive s := by
  have hrun : ((machine .standard).run
      [.call (.client 0) (.query [113] []), .act (.client 0) {}, .act (.client 0) {},
        .call (.client 1) (.selectDB [100]), .act (.client 1) {}, .act (.client 1) {}]
      (.init (.small 2 0))).map
      (fun s => (lockedIn (.client 0) s.hist, lockedIn (.client 1) s.hist)) = some ([0], [1]) := by
    decide
  obtain ⟨s, hs, hl⟩ := Option.map_eq_some_iff.mp hrun
  have hr : (machine .standard).Reach okPool (.small 2 0) s :=
    Machine.Reach.init.run (by simp [Machine.Allowed, Call.usesPool]) hs
  exact ⟨s, hr, congrArg Prod.fst hl, congrArg Prod.snd hl,
    exclusive .standard (poolOk_started _ _ _ _ _) hr⟩

end XeMySql
