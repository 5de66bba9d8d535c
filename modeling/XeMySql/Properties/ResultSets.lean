import XeMySql.Custody
import XeMySql.Lib.Replay

/-!
# The ledger of result sets

A result set is taken care of as long as a result object has it, or a query is about to store it in
one. Nothing is ever freed, so what nobody has is lost.

* `accounted_iff` — what has to be shown of the ledger
* `Accounted.step_iff` — which steps keep it
* `ledger_iff` — in which runs it is kept
* `result_lost` — a result object is used and destroyed
-/

namespace XeMySql

open Interact Ledger Custody

/-! ## Who has a result set -/

/-- In `s`, the result set `r` is held: by a result object, or by a query that is about to store it
in a result object that is there. -/
def Owner.Holds (s : Sys) (r : Nat) : Owner → Prop
  | object x => ∃ y, s.shared.results.obj x = some y ∧ y.m_pRes = some r
  | call t => ∃ c x n, (s.thread t).asking = some (c, .res (.setRes x n (some r))) ∧
      (s.shared.results.obj x).isSome

/-- Every result set that has been returned is held by exactly one owner or has been freed once, and
with all result objects destroyed, it has been freed. -/
structure Accounted (s : Sys) : Prop where
  owned : ∀ r ∈ acquired (resultDeals s.hist), (∃! k : Owner, k.Holds s r) ∨
    (released (resultDeals s.hist)).count r = 1
  settled : (∀ x, s.shared.results.obj x = none) → ∀ r ∈ acquired (resultDeals s.hist),
    (released (resultDeals s.hist)).count r = 1

/-- What the owner has is in a result object, or will be. -/
def Owner.Live (s : State) (v : Tid → Custody) : Owner → Prop
  | object _ => True
  | call t => ∃ x, (v t).data = some x ∧ (s.results.obj x).isSome

section

variable {rt : Runtime} {s₀ : State} {s s' : Sys}

/-- What a thread is about to store, it has in its hand, for the object of its call. -/
theorem hand_of_asking (h₀ : ∀ x, s₀.results.obj x = none)
    (h : (machine rt).Reach (fun _ _ => True) s₀ s) {t : Tid} {c : Call} {x r : Nat} {n : Int}
    (hask : (s.thread t).asking = some (c, .res (.setRes x n (some r)))) :
    (custodyView s.hist t).data = some x ∧ (custodyView s.hist t).hand = some r := by
  obtain ⟨k, ht⟩ := Thread.asking_eq_some hask
  exact (custody_kept rt h₀).may h ht

/-- A thread that has a result set in its hand is about to store it. -/
theorem hand_iff (h₀ : ∀ x, s₀.results.obj x = none)
    (h : (machine rt).Reach (fun _ _ => True) s₀ s) {t : Tid} {r : Nat} :
    (custodyView s.hist t).hand = some r ↔ ∃ c x n, (custodyView s.hist t).data = some x ∧
      (s.thread t).asking = some (c, .res (.setRes x n (some r))) := by
  have H := custody_kept rt h₀
  constructor
  · intro hhand
    have hno : (custodyView s.hist t).hand ≠ none := by simp [hhand]
    cases ht : s.thread t with
    | running c p =>
      cases p with
      | ret a => exact absurd (H.atReturn h ht) hno
      | op e k =>
        obtain ⟨x, n, rfl, hx⟩ := eq_setRes_of_hand (H.may h ht) hhand
        exact ⟨c, x, n, hx, rfl⟩
    | _ => exact absurd (congrArg Custody.hand (H.view_idle h (by simp [ht]))) hno
  · rintro ⟨c, x, n, -, hask⟩
    exact (hand_of_asking h₀ h hask).2

/-- A thread has nothing in its hand for object `x` as long as it is not about to store something
there. -/
theorem hand_eq_none_iff (h₀ : ∀ x, s₀.results.obj x = none)
    (h : (machine rt).Reach (fun _ _ => True) s₀ s) {t : Tid} {x : Nat} :
    ((custodyView s.hist t).data = some x → (custodyView s.hist t).hand = none) ↔
      ∀ c n r, (s.thread t).asking ≠ some (c, .res (.setRes x n (some r))) := by
  constructor
  · intro hnone c n r hask
    obtain ⟨hdata, hhand⟩ := hand_of_asking h₀ h hask
    rw [hnone hdata] at hhand
    cases hhand
  · intro hno hdata
    rw [Option.eq_none_iff_forall_not_mem]
    intro r hr
    obtain ⟨c, z, n, hz, hask⟩ := (hand_iff h₀ h).mp hr
    rw [hdata] at hz
    cases hz
    exact hno c n r hask

/-- The owners of a result set are those who have it and with whom it stays. -/
theorem holds_iff (h₀ : ∀ x, s₀.results.obj x = none)
    (h : (machine rt).Reach (fun _ _ => True) s₀ s) (k : Owner) (r : Nat) :
    k.Holds s r ↔ slots s.shared s.hist k = some r ∧ k.Live s.shared (custodyView s.hist) := by
  cases k with
  | object x => simp [Owner.Holds, slots, Owner.Live, Option.bind_eq_some_iff]
  | call t =>
    constructor
    · rintro ⟨c, x, n, hask, hx⟩
      obtain ⟨hdata, hhand⟩ := hand_of_asking h₀ h hask
      exact ⟨hhand, x, hdata, hx⟩
    · rintro ⟨hhand, x, hdata, hx⟩
      obtain ⟨c, z, n, hz, hask⟩ := (hand_iff h₀ h).mp hhand
      rw [hdata] at hz
      cases hz
      exact ⟨c, x, n, hask, hx⟩

/-- Somebody has the result set `r`. -/
def HasOwner (s : State) (h : List Ev) (r : Nat) : Prop :=
  ∃ k : Owner, slots s h k = some r ∧ k.Live s (custodyView h)

/-- **What has to be shown of the ledger**: every result set has an owner. It never has two, and none
is ever freed. -/
theorem accounted_iff (h₀ : ∀ x, s₀.results.obj x = none)
    (h : (machine rt).Reach (fun _ _ => True) s₀ s) :
    Accounted s ↔ ∀ r ∈ acquired (resultDeals s.hist), HasOwner s.shared s.hist r := by
  have hI := ((custody_kept rt h₀).holds h).1
  have hcount : ∀ r, (released (resultDeals s.hist)).count r ≠ 1 := by
    intro r
    rw [hI.unfreed]
    simp
  constructor
  · intro ha r hr
    obtain ⟨k, hk, -⟩ := (ha.owned r hr).resolve_right (hcount r)
    exact ⟨k, (holds_iff h₀ h k r).mp hk⟩
  · intro hall
    refine ⟨fun r hr => Or.inl ?_, fun hnone r hr => ?_⟩
    · obtain ⟨k, hk⟩ := hall r hr
      refine ⟨k, (holds_iff h₀ h k r).mpr hk, fun j hj => ?_⟩
      exact hI.separate j k r ((holds_iff h₀ h j r).mp hj).1 hk.1
    · obtain ⟨k, hk, hlive⟩ := hall r hr
      cases k with
      | object x => simp [slots, hnone x] at hk
      | call t =>
        obtain ⟨x, -, hx⟩ := hlive
        simp [hnone x] at hx

end

/-! ## Which steps keep the ledger -/

/-- What a thread must not do: have a result set returned to it that it does not store in a result
object, overwrite the result set of an object, or destroy an object that has a result set or is about
to get one. -/
def Careful : StepOf Tid Call Op Op.Reply Bool State Outcome → Prop
  | (_, .call _ _) => True
  | (s, .act t o) =>
    match (s.thread t).asking with
    | some (c, .lib (.storeResult h)) => (s.shared.lib.exec (.storeResult h) o).2.isSome →
        ∃ x, c.data = some x ∧ (s.shared.results.obj x).isSome
    | some (_, .res (.setRes x _ _)) => ∀ y, s.shared.results.obj x = some y → y.m_pRes = none
    | some (_, .res (.destroy x)) => (∀ y, s.shared.results.obj x = some y → y.m_pRes = none) ∧
        ∀ u c n r, (s.thread u).asking ≠ some (c, .res (.setRes x n (some r)))
    | _ => True

section

variable {rt : Runtime} {s₀ : State} {s s' : State} {h h' : List Ev} {t : Tid} {o : Outcome} {r : Nat}

/-- Everybody has what they had, and nothing has been destroyed. -/
theorem HasOwner.mono (ho : HasOwner s h r) (hslots : slots s' h' = slots s h)
    (hlive : ∀ k, slots s h k ≠ none → k.Live s (custodyView h) → k.Live s' (custodyView h')) :
    HasOwner s' h' r := by
  obtain ⟨k, hk, hl⟩ := ho
  exact ⟨k, by rw [hslots, hk], hlive k (by simp [hk]) hl⟩

/-- A thread's answer does not change which result object its call has been given. -/
theorem live_reply {e : Op} {a : e.Reply} (hobj : ∀ x, (s.results.obj x).isSome →
    (s'.results.obj x).isSome) {k : Owner} (hl : k.Live s (custodyView h)) :
    k.Live s' (custodyView (.reply t e a :: h)) := by
  cases k with
  | object x => trivial
  | call u =>
    obtain ⟨x, hx, hsome⟩ := hl
    refine ⟨x, ?_, hobj x hsome⟩
    rw [custodyView, Discipline.view_reply]
    by_cases hu : u = t
    · subst hu
      rw [Function.update_self]
      exact (next_data _ e a).trans hx
    · rwa [Function.update_of_ne hu]

/-- An answer after which everybody has what they had. -/
theorem HasOwner.quiet {e : Op} {a : e.Reply} (ho : HasOwner s h r) (hobj : s'.results = s.results)
    (hnext : ((custodyView h t).next e a).hand = (custodyView h t).hand) :
    HasOwner s' (.reply t e a :: h) r :=
  ho.mono (slots_quiet hobj hnext) fun _ _ hl => live_reply (fun _ hx => by rwa [hobj]) hl

/-- A call begins or ends. -/
theorem HasOwner.boundary {ev : Ev} {l : Custody} (ho : HasOwner s h r)
    (hview : custodyView (ev :: h) = Function.update (custodyView h) t l) (hl : l.hand = none)
    (ht : (custodyView h t).hand = none) : HasOwner s (ev :: h) r := by
  refine ho.mono (slots_boundary hview hl ht) fun k hk hlive => ?_
  cases k with
  | object x => trivial
  | call u =>
    obtain ⟨x, hx, hsome⟩ := hlive
    refine ⟨x, ?_, hsome⟩
    rw [hview]
    by_cases hu : u = t
    · subst hu
      exact absurd ht hk
    · rwa [Function.update_of_ne hu]

/-- `mysql_store_result` gives a thread something to hold. -/
theorem hasOwner_storeResult (hI : ResultsOk s h) {m : Nat} {y : LibMySql}
    (he : s.lib.exec (.storeResult m) o = (y, some r)) :
    HasOwner { s with lib := y } (.reply t (.lib (.storeResult m)) (some r) :: h) r ↔
      ∃ x, (custodyView h t).data = some x ∧ (s.results.obj x).isSome := by
  have hslots : slots { s with lib := y } (.reply t (.lib (.storeResult m)) (some r) :: h)
      = Function.update (slots s h) (.call t) ((custodyView h t).data.bind fun _ => some r) :=
    slots_reply rfl
  have hnew : r = s.lib.results := by
    rcases s.lib.exec_storeResult m o with ⟨hr, -⟩ | ⟨hr, -⟩ <;> rw [he] at hr <;> cases hr
    rfl
  have hdata : (custodyView (.reply t (.lib (.storeResult m)) (some r) :: h) t).data
      = (custodyView h t).data := by
    rw [custodyView, Discipline.view_reply, Function.update_self]
    rfl
  constructor
  · rintro ⟨k, hk, hlive⟩
    have hkt : k = .call t := by
      by_contra hne
      rw [hslots, Function.update_of_ne hne] at hk
      have hlt := hI.known r (hI.returned k r hk)
      omega
    subst hkt
    obtain ⟨x, hx, hsome⟩ := hlive
    exact ⟨x, hdata.symm.trans hx, hsome⟩
  · rintro ⟨x, hx, hsome⟩
    refine ⟨.call t, ?_, x, hdata.trans hx, hsome⟩
    rw [hslots, Function.update_self, hx]
    rfl

/-- It takes nothing away. -/
theorem HasOwner.storeResult (ho : HasOwner s h r) (hhand : (custodyView h t).hand = none) (m : Nat)
    (y : LibMySql) (a : Option Nat) :
    HasOwner { s with lib := y } (.reply t (.lib (.storeResult m)) a :: h) r := by
  obtain ⟨k, hk, hlive⟩ := ho
  have hkt : k ≠ .call t := by
    rintro rfl
    have hk : (custodyView h t).hand = some r := hk
    rw [hhand] at hk
    cases hk
  have hslots : slots { s with lib := y } (.reply t (.lib (.storeResult m)) a :: h)
      = Function.update (slots s h) (.call t) ((custodyView h t).data.bind fun _ => a) :=
    slots_reply rfl
  refine ⟨k, ?_, live_reply (fun _ hx => hx) hlive⟩
  rw [hslots, Function.update_of_ne hkt]
  exact hk

/-- What the answer of `mysql_store_result` adds to the ledger. -/
theorem mem_acquired_storeResult {m : Nat} {a : Option Nat} :
    r ∈ acquired (resultDeals (.reply t (.lib (.storeResult m)) a :: h)) ↔
      a = some r ∨ r ∈ acquired (resultDeals h) := by
  unfold resultDeals
  rw [List.filterMap_cons]
  cases a with
  | none => simp [resultDeal]
  | some r' => simp [resultDeal, acquired, eq_comm]

/-- `mysql_store_result` loses what it returns, unless the call has a result object for it. -/
theorem storeResult_iff (hI : ResultsOk s h) (hhand : (custodyView h t).hand = none) {m : Nat}
    (hall : ∀ r ∈ acquired (resultDeals h), HasOwner s h r) :
    (∀ r ∈ acquired (resultDeals
          (.reply t (.lib (.storeResult m)) (s.lib.exec (.storeResult m) o).2 :: h)),
        HasOwner { s with lib := (s.lib.exec (.storeResult m) o).1 }
          (.reply t (.lib (.storeResult m)) (s.lib.exec (.storeResult m) o).2 :: h) r) ↔
      ((s.lib.exec (.storeResult m) o).2.isSome →
        ∃ x, (custodyView h t).data = some x ∧ (s.results.obj x).isSome) := by
  cases ha : (s.lib.exec (.storeResult m) o).2 with
  | none =>
    refine iff_of_true (fun r hr => ?_) (by simp)
    rcases mem_acquired_storeResult.mp hr with hr | hr
    · cases hr
    · exact (hall r hr).storeResult hhand m _ none
  | some r =>
    have hown := hasOwner_storeResult (t := t) hI (Prod.ext rfl ha)
    refine Iff.trans ?_ (hown.trans (by simp))
    constructor
    · exact fun hafter => hafter r (mem_acquired_storeResult.mpr (.inl rfl))
    · intro hr r' hr'
      rcases mem_acquired_storeResult.mp hr' with hr' | hr'
      · cases hr'
        exact hr
      · exact (hall r' hr').storeResult hhand m _ _

/-- Who still has something after a place has been emptied had it before, in another place. -/
theorem update_none_eq_some {f : Owner → Option Nat} {j k : Owner} :
    Function.update f j none k = some r ↔ k ≠ j ∧ f k = some r := by
  by_cases hkj : k = j
  · simp [hkj]
  · rw [Function.update_of_ne hkj]
    exact (and_iff_right hkj).symm

/-- A new object takes nothing away. -/
theorem HasOwner.construct (hI : ResultsOk s h) (ho : HasOwner s h r) :
    HasOwner { s with results :=
        { objs := s.results.objs + 1
          obj := Function.update s.results.obj s.results.objs (some {}) } }
      (.reply t (.res .construct) s.results.objs :: h) r := by
  have hnew := hI.made _ (Nat.le_refl _)
  refine ho.mono ?_ fun k _ hl => live_reply (fun x hx => ?_) hl
  · have hhand : ((custodyView h t).next (.res .construct) s.results.objs).hand
        = slots s h (.call t) := rfl
    have hobj : (some ({} : CXEMySqlResult)).bind CXEMySqlResult.m_pRes
        = slots s h (.object s.results.objs) := by
      simp only [slots, hnew, Option.bind_none, Option.bind_some]
    rw [slots_object, hhand, Function.update_eq_self, hobj, Function.update_eq_self]
  · have hne : x ≠ s.results.objs := by
      rintro rfl
      rw [hnew] at hx
      cases hx
    show (Function.update s.results.obj s.results.objs (some {}) x).isSome
    rwa [Function.update_of_ne hne]

/-- `SetRes` passes a result set on, and loses the one that was in the object. -/
theorem setRes_iff (hI : ResultsOk s h) {x : Nat} {n : Int} {pRes : Option Nat} {y : CXEMySqlResult}
    (hm : (custodyView h t).may (.res (.setRes x n pRes))) (hy : s.results.obj x = some y)
    (hall : ∀ r ∈ acquired (resultDeals h), HasOwner s h r) :
    (∀ r ∈ acquired (resultDeals h), HasOwner { s with results :=
        { objs := s.results.objs
          obj := Function.update s.results.obj x (some (y.setRes n pRes)) } }
        (.reply t (.res (.setRes x n pRes)) () :: h) r) ↔ y.m_pRes = none := by
  have hslots : slots { s with results :=
        { objs := s.results.objs
          obj := Function.update s.results.obj x (some (y.setRes n pRes)) } }
        (.reply t (.res (.setRes x n pRes)) () :: h)
      = Function.update (Function.update (slots s h) (.call t) none) (.object x) pRes :=
    slots_object
  have hx : slots s h (.object x) = y.m_pRes := by simp only [slots, hy, Option.bind_some]
  have ht : slots s h (.call t) = pRes := hm.2
  have hlive : ∀ z, (s.results.obj z).isSome →
      (Function.update s.results.obj x (some (y.setRes n pRes)) z).isSome := by
    intro z hz
    by_cases hzx : z = x
    · rw [hzx, Function.update_self]
      rfl
    · rwa [Function.update_of_ne hzx]
  constructor
  · intro hafter
    rw [Option.eq_none_iff_forall_not_mem]
    intro r hr
    rw [← hx] at hr
    obtain ⟨k, hk, -⟩ := hafter r (hI.returned _ r hr)
    rw [hslots] at hk
    -- whoever has `r` now had it before, besides the object
    by_cases hkx : k = .object x
    · rw [hkx, Function.update_self] at hk
      have hk : pRes = some r := hk
      exact absurd (hI.separate _ _ r hr (ht.trans hk)) (by simp)
    · rw [Function.update_of_ne hkx, update_none_eq_some] at hk
      exact hkx (hI.separate _ _ r hk.2 hr)
  · intro hnone r hr
    obtain ⟨k, hk, hl⟩ := hall r hr
    have hkx : k ≠ .object x := by
      rintro rfl
      rw [hx, hnone] at hk
      cases hk
    by_cases hkt : k = .call t
    · refine ⟨.object x, ?_, trivial⟩
      rw [hslots, Function.update_self]
      exact ht.symm.trans (hkt ▸ hk)
    · refine ⟨k, ?_, live_reply hlive hl⟩
      rw [hslots, Function.update_of_ne hkx, Function.update_of_ne hkt]
      exact hk

/-- The destructor loses what the object has, and what would have been stored in it. -/
theorem destroy_iff (hI : ResultsOk s h) {x : Nat} {y : CXEMySqlResult}
    (hy : s.results.obj x = some y) (hall : ∀ r ∈ acquired (resultDeals h), HasOwner s h r) :
    (∀ r ∈ acquired (resultDeals h), HasOwner { s with results :=
        { objs := s.results.objs, obj := Function.update s.results.obj x none } }
        (.reply t (.res (.destroy x)) () :: h) r) ↔
      y.m_pRes = none ∧ ∀ u, (custodyView h u).data = some x → (custodyView h u).hand = none := by
  have hslots : slots { s with results :=
        { objs := s.results.objs, obj := Function.update s.results.obj x none } }
        (.reply t (.res (.destroy x)) () :: h) = Function.update (slots s h) (.object x) none := by
    rw [slots_object]
    refine congrArg (fun f : Owner → Option Nat => Function.update f (.object x) none) ?_
    exact Function.update_eq_self (.call t) (slots s h)
  have hx : slots s h (.object x) = y.m_pRes := by simp only [slots, hy, Option.bind_some]
  have hdata : ∀ u, (custodyView (.reply t (.res (.destroy x)) () :: h) u).data
      = (custodyView h u).data := by
    intro u
    rw [custodyView, Discipline.view_reply]
    by_cases hu : u = t
    · rw [hu, Function.update_self]
      rfl
    · rw [Function.update_of_ne hu]
  constructor
  · intro hafter
    constructor
    · rw [Option.eq_none_iff_forall_not_mem]
      intro r hr
      rw [← hx] at hr
      obtain ⟨k, hk, -⟩ := hafter r (hI.returned _ r hr)
      rw [hslots, update_none_eq_some] at hk
      exact hk.1 (hI.separate _ _ r hk.2 hr)
    · intro u hu
      rw [Option.eq_none_iff_forall_not_mem]
      intro r hr
      have hr : slots s h (.call u) = some r := hr
      obtain ⟨k, hk, hlive⟩ := hafter r (hI.returned _ r hr)
      rw [hslots, update_none_eq_some] at hk
      -- only the thread itself can have it, and the object it would be stored in is gone
      have hku := hI.separate _ _ r hk.2 hr
      subst hku
      obtain ⟨z, hz, hsome⟩ := hlive
      rw [hdata, hu] at hz
      cases hz
      simp at hsome
  · rintro ⟨hnone, hhands⟩ r hr
    obtain ⟨k, hk, hl⟩ := hall r hr
    have hkx : k ≠ .object x := by
      rintro rfl
      rw [hx, hnone] at hk
      cases hk
    refine ⟨k, hslots ▸ update_none_eq_some.mpr ⟨hkx, hk⟩, ?_⟩
    cases k with
    | object z => trivial
    | call u =>
      obtain ⟨z, hz, hsome⟩ := hl
      refine ⟨z, (hdata u).trans hz, ?_⟩
      have hzx : z ≠ x := by
        rintro rfl
        have hk : (custodyView h u).hand = some r := hk
        rw [hhands u hz] at hk
        cases hk
      show (Function.update s.results.obj x none z).isSome
      rwa [Function.update_of_ne hzx]

/-- Only three requests can be made carelessly. -/
theorem careful_of {s : Sys} {c : Call} {e : Op} (ht : (s.thread t).asking = some (c, e))
    (h1 : ∀ m, e ≠ .lib (.storeResult m)) (h2 : ∀ x n a, e ≠ .res (.setRes x n a))
    (h3 : ∀ x, e ≠ .res (.destroy x)) : Careful (s, .act t o) := by
  simp only [Careful, ht]
  cases e with
  | lib e =>
    cases e with
    | storeResult m => exact absurd rfl (h1 m)
    | _ => trivial
  | res e =>
    cases e with
    | setRes x n a => exact absurd rfl (h2 x n a)
    | destroy x => exact absurd rfl (h3 x)
    | _ => trivial
  | _ => trivial

end

section

variable {rt : Runtime} {s₀ : State} {s s' : Sys} {l : Label Tid Call Outcome}

/-- A call of the client library. -/
theorem lib_iff {s : Sys} {t : Tid} {o : Outcome} {c : Call} {e : LibOp}
    (hI : ResultsOk s.shared s.hist) (hask : (s.thread t).asking = some (c, .lib e))
    (hm : (custodyView s.hist t).may (.lib e)) (hdata : (custodyView s.hist t).data = c.data)
    (hall : ∀ r ∈ acquired (resultDeals s.hist), HasOwner s.shared s.hist r) :
    (∀ r ∈ acquired (resultDeals (.reply t (.lib e) (s.shared.lib.exec e o).2 :: s.hist)),
      HasOwner { s.shared with lib := (s.shared.lib.exec e o).1 }
        (.reply t (.lib e) (s.shared.lib.exec e o).2 :: s.hist) r) ↔ Careful (s, .act t o) := by
  by_cases h1 : ∃ m, e = .storeResult m
  · obtain ⟨m, rfl⟩ := h1
    simp only [Careful, hask, ← hdata]
    exact storeResult_iff hI hm hall
  · refine iff_of_true (fun r hr => ?_) (careful_of hask (by simpa using h1) (by simp) (by simp))
    rw [resultDeals_cons (resultDeal_reply _ (by simpa using h1) ?_)] at hr
    · refine (hall r hr).quiet rfl ?_
      cases e with
      | storeResult m => exact absurd ⟨m, rfl⟩ h1
      | _ => rfl
    · rintro m ⟨⟩
      exact hm

/-- A method of a result object. -/
theorem res_iff (h₀ : ∀ x, s₀.results.obj x = none)
    (h : (machine rt).Reach (fun _ _ => True) s₀ s) {t : Tid} {o : Outcome} {c : Call} {e : ResOp}
    (hask : (s.thread t).asking = some (c, .res e)) (hm : (custodyView s.hist t).may (.res e))
    {x : Results} {a : e.Reply} (hx : s.shared.results.exec e = some (x, some a))
    (hall : ∀ r ∈ acquired (resultDeals s.hist), HasOwner s.shared s.hist r) :
    (∀ r ∈ acquired (resultDeals s.hist), HasOwner { s.shared with results := x }
      (.reply t (.res e) a :: s.hist) r) ↔ Careful (s, .act t o) := by
  have hI := ((custody_kept rt h₀).holds h).1
  cases e with
  | construct =>
    cases hx
    exact iff_of_true (fun r hr => (hall r hr).construct hI)
      (careful_of hask (by simp) (by simp) (by simp))
  | getRecords z =>
    simp only [Results.exec, Option.map_eq_some_iff] at hx
    obtain ⟨y, hy, hx⟩ := hx
    cases hx
    exact iff_of_true (fun r hr => (hall r hr).quiet rfl rfl)
      (careful_of hask (by simp) (by simp) (by simp))
  | setRes z n pRes =>
    simp only [Results.exec, Option.map_eq_some_iff] at hx
    obtain ⟨y, hy, hx⟩ := hx
    cases hx
    refine (setRes_iff hI hm hy hall).trans ?_
    simp only [Careful, hask, hy, Option.some.injEq, forall_eq']
  | destroy z =>
    simp only [Results.exec, Option.map_eq_some_iff] at hx
    obtain ⟨y, hy, hx⟩ := hx
    cases hx
    refine (destroy_iff hI hy hall).trans ?_
    simp only [Careful, hask, hy, Option.some.injEq, forall_eq']
    exact and_congr_right fun _ => forall_congr' fun u => hand_eq_none_iff h₀ h

/-- A request of another part is always careful. -/
theorem other_iff {s : Sys} {t : Tid} {o : Outcome} {c : Call} {e : Op} {a : e.Reply} {x : State}
    (hask : (s.thread t).asking = some (c, e)) (hlib : ∀ d, e ≠ .lib d) (hres : ∀ d, e ≠ .res d)
    (hobj : x.results = s.shared.results)
    (hall : ∀ r ∈ acquired (resultDeals s.hist), HasOwner s.shared s.hist r) :
    (∀ r ∈ acquired (resultDeals (.reply t e a :: s.hist)), HasOwner x (.reply t e a :: s.hist) r) ↔
      Careful (s, .act t o) := by
  refine iff_of_true (fun r hr => ?_)
    (careful_of hask (fun _ => hlib _) (fun _ _ _ => hres _) fun _ => hres _)
  cases e with
  | lib d => exact absurd rfl (hlib d)
  | res d => exact absurd rfl (hres d)
  | _ => exact (hall r hr).quiet hobj rfl

/-- **One step keeps the ledger exactly if it is careful.** -/
theorem Accounted.step_iff (h₀ : ∀ x, s₀.results.obj x = none)
    (h : (machine rt).Reach (fun _ _ => True) s₀ s) (hs : (machine rt).step l s = some s')
    (ha : Accounted s) : Accounted s' ↔ Careful (s, l) := by
  have H := custody_kept rt h₀
  rw [accounted_iff h₀ (h.step (fun _ _ _ => trivial) hs)]
  have hall := (accounted_iff h₀ h).mp ha
  cases Machine.step_cases hs with
  | @call t c ht hc =>
    refine iff_of_true (fun r hr => (hall r hr).boundary Discipline.view_call rfl ?_) trivial
    have hv : custodyView s.hist t = {} := H.view_idle h (by simp [ht])
    rw [hv]
  | @done t o c a ht =>
    refine iff_of_true (fun r hr => (hall r hr).boundary Discipline.view_done rfl (H.atReturn h ht)) ?_
    simp only [Careful, ht, Thread.asking]
  | @wait t o c e k sh ht he =>
    have he : exec rt t e o s.shared = some (sh, none) := he
    have hask : (s.thread t).asking = some (c, e) := by rw [ht]; rfl
    obtain ⟨i, rfl⟩ := exec_wait he
    refine iff_of_true (fun r hr => (hall r hr).mono rfl fun _ _ hl => hl) (careful_of hask ?_ ?_ ?_)
    · rintro m rfl
      obtain ⟨-, hr⟩ := exec_lib he
      cases hr
    · rintro x n a rfl
      obtain ⟨y, hy, -⟩ := exec_res he
      simp [Results.exec] at hy
    · rintro x rfl
      obtain ⟨y, hy, -⟩ := exec_res he
      simp [Results.exec] at hy
  | @reply t o c e k sh r ht he =>
    have he : exec rt t e o s.shared = some (sh, some r) := he
    have hask : (s.thread t).asking = some (c, e) := by rw [ht]; rfl
    have hm : (custodyView s.hist t).may e := H.may h ht
    cases e with
    | lib e =>
      obtain ⟨rfl, hr⟩ := exec_lib he
      cases hr
      exact lib_iff (H.holds h).1 hask hm (data_of_running (h.mono fun _ _ => id) ht) hall
    | res e =>
      obtain ⟨x, hx, rfl⟩ := exec_res he
      exact res_iff h₀ h hask hm hx hall
    | tp e =>
      obtain ⟨x, -, rfl⟩ := exec_tp he
      exact other_iff hask (by simp) (by simp) rfl hall
    | task e =>
      obtain ⟨x, -, rfl⟩ := exec_task he
      exact other_iff hask (by simp) (by simp) rfl hall
    | con e =>
      obtain ⟨x, -, rfl⟩ := exec_con he
      exact other_iff hask (by simp) (by simp) rfl hall
    | rt e =>
      obtain ⟨x, -, rfl⟩ := exec_rt he
      exact other_iff hask (by simp) (by simp) rfl hall

/-- **In which runs the ledger is kept**: those in which all threads are careful. -/
theorem ledger_iff (h₀ : ∀ x, s₀.results.obj x = none)
    {path : List (StepOf Tid Call Op Op.Reply Bool State Outcome)}
    (h : (machine rt).Path (fun _ _ => True) s₀ path s) :
    (∀ path' s', path' <:+ path → (machine rt).Path (fun _ _ => True) s₀ path' s' → Accounted s') ↔
      ∀ x ∈ path, Careful x := by
  refine (h.always_iff (P := fun _ s => Accounted s) (Q := fun x _ => Careful x) ?_ ?_).trans ?_
  · have hinit : (machine rt).Reach (fun _ _ => True) s₀ (.init s₀) := .init
    rw [accounted_iff h₀ hinit]
    rintro r ⟨⟩
  · intro x path' s' hs' ha
    obtain ⟨hbefore, hs⟩ := hs'.uncons
    exact ha.step_iff h₀ hbefore.reach hs
  · constructor
    · intro hall x hx
      obtain ⟨later, earlier, rfl⟩ := List.append_of_mem hx
      exact hall x earlier (List.suffix_append later (x :: earlier))
    · exact fun hall x path' hp => hall x (hp.subset (List.mem_cons_self ..))

end

/-! ## An object is used once -/

/-- A client makes a result object, and a query stores a result set with one column in it. -/
def useResult : List (Label Tid Call Outcome) :=
  .call (.client 0) .newResult :: List.replicate 2 (.act (.client 0) .success) ++
    .call (.client 0) (.queryData [113] (some 0) []) ::
      List.replicate 10 (.act (.client 0) { number := 1 })

/-- The object has the result set, and what is said of the run. -/
theorem ledger_of_query : ∃ path s, (machine .standard).Path (fun _ _ => True) (.small 1 0) path s ∧
    acquired (resultDeals s.hist) = [0] ∧
    (s.shared.results.obj 0).map CXEMySqlResult.m_pRes = some (some 0) ∧
    ((∀ path' s', path' <:+ path →
        (machine .standard).Path (fun _ _ => True) (.small 1 0) path' s' → Accounted s') ↔
      ∀ x ∈ path, Careful x) := by
  have hrun : ((machine .standard).run useResult (.init (.small 1 0))).map (fun s =>
      (acquired (resultDeals s.hist), (s.shared.results.obj 0).map CXEMySqlResult.m_pRes))
      = some ([0], some (some 0)) := by
    decide
  obtain ⟨s, hs, hend⟩ := Option.map_eq_some_iff.mp hrun
  obtain ⟨hacq, hobj⟩ := Prod.mk.inj hend
  have hp : (machine .standard).Path (fun _ _ => True) (.small 1 0) _ s :=
    Machine.Path.init.run (fun _ _ _ _ _ => trivial) hs
  exact ⟨_, s, hp, hacq, hobj, ledger_iff (fun _ => rfl) hp⟩

/-- Then the object is destroyed. Nobody has the result set any more, and it has not been freed. -/
theorem result_lost : ∃ s, (machine .standard).Reach (fun _ _ => True) (.small 1 0) s ∧
    acquired (resultDeals s.hist) = [0] ∧ released (resultDeals s.hist) = [] ∧
    (∀ x, s.shared.results.obj x = none) ∧ ¬ Accounted s := by
  obtain ⟨ls, hls⟩ : ∃ ls, ls = useResult ++
      .call (.client 0) (.deleteResult 0) :: List.replicate 2 (.act (.client 0) .success) := ⟨_, rfl⟩
  have hrun : ((machine .standard).run ls (.init (.small 1 0))).map (fun s =>
      (acquired (resultDeals s.hist), released (resultDeals s.hist), s.shared.results.objs,
        s.shared.results.obj 0)) = some ([0], [], 1, none) := by
    rw [hls]
    decide
  obtain ⟨s, hs, hend⟩ := Option.map_eq_some_iff.mp hrun
  simp only [Prod.mk.injEq] at hend
  obtain ⟨hacq, hrel, hobjs, hobj⟩ := hend
  have hreach : (machine .standard).Reach (fun _ _ => True) (.small 1 0) s :=
    .run .init (fun _ _ _ _ _ => trivial) hs
  have hnone : ∀ x, s.shared.results.obj x = none := by
    intro x
    by_cases hx : x = 0
    · rw [hx, hobj]
    · refine ((custody_kept .standard fun _ => rfl).holds hreach).1.made x ?_
      omega
  refine ⟨s, hreach, hacq, hrel, hnone, fun ha => ?_⟩
  have hcount := ha.settled hnone 0 (by simp [hacq])
  rw [hrel] at hcount
  cases hcount

end XeMySql
