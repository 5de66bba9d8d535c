import XeMySql.Requests
import XeMySql.Lib.Ledger
import XeMySql.Lib.Places

/-!
# Who takes care of a result set

What a call does with the result set `mysql_store_result` has returned to it: `Query` with a result
object stores it there at once, and nobody else does anything with it. No result set is ever freed:
the destructor of a result object frees what `m_pRecords` points to, and nothing is stored there.

* `code_custody` — every call follows this discipline
* `custody_kept` — what holds of the result objects in every run
-/

namespace XeMySql

open Interact Ledger

/--
What a thread knows of result sets during a call: `data` is the result object its call has been
given, and `hand` the result set that it is about to store there.
-/
structure Custody where
  data : Option Nat := none
  hand : Option Nat := none
deriving DecidableEq

/-- The result object a call is given. -/
def Call.data : Call → Option Nat
  | queryData _ data _ => data
  | _ => none

namespace Custody

/-- A result set in hand is stored before anything else is done, and none is freed. -/
def may (l : Custody) : Op → Prop
  | .res (.setRes x _ r) => l.data = some x ∧ l.hand = r
  | .lib (.freeResult _) => False
  | _ => l.hand = none

/-- `m_pRecords` is NULL. -/
def can (_ : Custody) : (e : Op) → e.Reply → Prop
  | .res (.getRecords _), r => r = (none : Option Nat)
  | _, _ => True

/-- What it knows afterwards. -/
def next (l : Custody) : (e : Op) → e.Reply → Custody
  | .lib (.storeResult _), r => { l with hand := l.data.bind fun _ => r }
  | .res (.setRes _ _ _), _ => { l with hand := none }
  | _, _ => l

/-- The discipline. -/
def discipline : Discipline Op Op.Reply Custody := ⟨may, can, next⟩

/-- At the beginning of a call. -/
abbrev start (_ : Tid) (c : Call) : Custody := { data := c.data }

/-- At the end of one. -/
abbrev final (_ : Call) (_ : Bool) (l : Custody) : Prop := l.hand = none

/-- Requests other than those that store, or free, a result set. -/
def Careless : Op → Prop
  | .res (.setRes _ _ _) => False
  | .lib (.freeResult _) => False
  | _ => True

theorem careless_of_onDatabase (e : Op) (he : OnDatabase e) : Careless e := by
  cases e with
  | lib e => cases e <;> trivial
  | _ => trivial

theorem may_of_careless {l : Custody} (hl : l.hand = none) {e : Op} (he : Careless e) : l.may e := by
  cases e with
  | lib e => cases e <;> first | exact hl | exact he.elim
  | res e => cases e <;> first | exact hl | exact he.elim
  | _ => exact hl

/-- Of these requests only `mysql_store_result` can put a result set in a thread's hand, and only
when its call has been given a result object. -/
theorem next_of_careless {l : Custody} (hl : l.hand = none) {e : Op} (he : Careless e)
    (hd : l.data = none ∨ ∀ h, e ≠ .lib (.storeResult h)) (r : e.Reply) : l.next e r = l := by
  obtain ⟨data, hand⟩ := l
  cases hl
  cases e with
  | lib e =>
    cases e with
    | storeResult h =>
      rcases hd with hd | hd
      · cases hd
        rfl
      · exact absurd rfl (hd h)
    | _ => rfl
  | res e => cases e <;> trivial
  | _ => rfl

/-- A thread with a result set in its hand can only store it. -/
theorem eq_setRes_of_hand {l : Custody} {e : Op} {r : Nat} (hm : l.may e) (hr : l.hand = some r) :
    ∃ x n, e = .res (.setRes x n (some r)) ∧ l.data = some x := by
  have hno : l.hand ≠ none := by simp [hr]
  cases e with
  | lib e => cases e <;> first | exact absurd hm hno | exact hm.elim
  | res e =>
    cases e with
    | setRes x n r' =>
      obtain ⟨hdata, hhand⟩ := hm
      rw [hr] at hhand
      cases hhand
      exact ⟨x, n, rfl, hdata⟩
    | _ => exact absurd hm hno
  | _ => exact absurd hm hno

theorem next_data (l : Custody) (e : Op) (r : e.Reply) : (l.next e r).data = l.data := by
  cases e with
  | lib e => cases e <;> rfl
  | res e => cases e <;> rfl
  | _ => rfl

/-- A call that is given no result object does nothing about result sets. -/
theorem careless_custody {α : Type} {p : Code α} (hp : p.Only Careless) {l : Custody}
    (hd : l.data = none) (hl : l.hand = none) :
    p.Follows discipline l fun _ l' => l' = l :=
  hp.follows (fun _ he => may_of_careless hl he) fun _ he r => next_of_careless hl he (.inl hd) r

/-- Nor do functions that work on a session. -/
theorem session_custody {α : Type} {p : Code α} (hp : p.Only OnSession) {l : Custody}
    (hl : l.hand = none) : p.Follows discipline l fun _ l' => l' = l := by
  have hcareless : ∀ e, OnSession e → Careless e := fun e he =>
    careless_of_onDatabase e (OnText.onDatabase e (OnSession.onText e he))
  refine hp.follows (fun e he => may_of_careless hl (hcareless e he)) fun e he r =>
    next_of_careless hl (hcareless e he) (.inr ?_) r
  rintro h rfl
  exact he

end Custody

open Custody

/-! ## Calls -/

/-- `Query (cmd, CXEMySqlResult *data, ...)` with an object stores what it gets there. -/
theorem queryDataOn_custody (c h : Nat) (cmd : Bytes) (x : Nat) (args : List Printf.Arg) :
    (CXEMySql.queryDataOn c h cmd (some x) args).Follows discipline { data := some x }
      fun _ l => l = { data := some x } := by
  refine ⟨rfl, fun szQuery _ => ⟨rfl, fun ok _ => ?_⟩⟩
  cases ok with
  | false => exact session_custody (queryFailed_session c h _) rfl
  | true =>
    refine ⟨rfl, fun _ _ => ⟨rfl, fun nLength _ => ?_⟩⟩
    by_cases hn : 0 < nLength
    · simp only [Prog.bind_ret, hn, if_true]
      exact ⟨rfl, fun res _ => ⟨⟨rfl, rfl⟩, fun _ _ => rfl⟩⟩
    · simp only [Prog.bind_ret, hn, if_false]
      exact rfl

theorem queryData_custody (cmd : Bytes) (data : Option Nat) (args : List Printf.Arg) :
    (CXEMySql.queryData cmd data args).Follows discipline { data := data }
      fun _ l => l.hand = none := by
  cases data with
  | none =>
    have hcareless : ∀ e, OnText e → Careless e := fun e he =>
      careless_of_onDatabase e (OnText.onDatabase e he)
    refine (careless_custody (queryData_only hcareless cmd (by simp) args) rfl rfl).mono ?_
    rintro _ _ rfl
    rfl
  | some x =>
    refine ⟨rfl, fun c _ => ?_⟩
    cases c with
    | none => exact rfl
    | some c =>
      simp only [Prog.bind_ret]
      refine Prog.Follows.bind (P := fun _ l => l = { data := some x }) ⟨rfl, fun m _ => ?_⟩ ?_
      · cases m with
        | none => exact rfl
        | some h => exact queryDataOn_custody c h cmd x args
      · rintro bRet _ rfl
        exact ⟨rfl, fun _ _ => rfl⟩

/-- The destructor finds nothing in `m_pRecords`. -/
theorem destroy_custody (x : Nat) :
    (CXEMySqlResult.destroy x).Follows discipline {} fun _ l => l = {} := by
  refine ⟨rfl, fun r hr => ?_⟩
  have hr : r = none := hr
  subst hr
  exact ⟨rfl, fun _ _ => rfl⟩

/-- **Every call follows the discipline.** -/
theorem code_custody (c : Call) :
    c.code.Follows discipline { data := c.data } fun _ l => l.hand = none := by
  have hno : ∀ {p : Code Bool}, p.Only Careless →
      p.Follows discipline {} fun _ l => l.hand = none := by
    intro p hp
    refine (careless_custody hp rfl rfl).mono ?_
    rintro _ _ rfl
    rfl
  have hpool : ∀ {α : Type} (p : ThreadPool.Code Nat α), (CXEMySql.inPool p).Only Careless :=
    fun p => Prog.only_lift (fun _ => trivial) p
  have hdb : ∀ {p : Code Bool}, p.Only OnDatabase →
      p.Follows discipline {} fun _ l => l.hand = none :=
    fun hp => hno (hp.mono careless_of_onDatabase)
  have hsession : ∀ {p : Code Bool}, p.Only OnSession →
      p.Follows discipline {} fun _ l => l.hand = none :=
    fun hp => hdb (hp.mono fun e he => OnText.onDatabase e (OnSession.onText e he))
  cases c with
  | executeQueryNoRet q =>
    refine hno (Prog.only_bind (Prog.only_bind ?_ fun _ => hpool _) fun _ => trivial)
    rcases q with _ | q
    · trivial
    · exact ⟨trivial, fun _ => ⟨trivial, fun _ => trivial⟩⟩
  | selectDB db => exact hno (selectDB_only
      (fun e he => careless_of_onDatabase e (OnText.onDatabase e (OnSession.onText e he)))
      (fun _ _ => trivial) db)
  | query cmd args => exact hdb ((query_text cmd args).mono OnText.onDatabase)
  | queryData cmd data args => exact queryData_custody cmd data args
  | queryBlob cmd d => exact hdb (queryBlob_database cmd d)
  | newResult => exact ⟨rfl, fun _ _ => rfl⟩
  | deleteResult x =>
    refine (destroy_custody x).bind ?_
    rintro _ _ rfl
    rfl
  | connect c p => exact hsession (connect_session c p)
  | close c => exact hsession (close_session c)
  | reconnect c => exact hsession (reconnect_session c)
  | start n => exact hno (Prog.only_bind (hpool _) fun _ => trivial)
  | stop => exact hno (Prog.only_bind (hpool _) fun _ => trivial)
  | workerProc =>
    refine hno (Prog.only_bind (hpool _) fun r => ?_)
    rcases r with _ | ⟨pWorker, pTask⟩
    · trivial
    · cases pWorker with
      | false => trivial
      | true =>
        have hp := processTask_only (fun _ => trivial) careless_of_onDatabase pTask
        exact Prog.only_bind hp fun _ => trivial

/-! ## The result objects in a run -/

/-- What an event says of result sets: `mysql_store_result` returns one, `mysql_free_result` ends
it. -/
def resultDeal : Ev → Option (Deal Nat)
  | .reply _ (.lib (.storeResult _)) r => (r : Option Nat).map .acquire
  | .reply _ (.lib (.freeResult r)) _ => some (.release r)
  | _ => none

/-- The dealings with result sets in a history. -/
def resultDeals (h : List Ev) : List (Deal Nat) := h.filterMap resultDeal

/-- What a thread knows after a history. -/
abbrev custodyView (h : List Ev) : Tid → Custody := Custody.discipline.view {} start h

/-- Who can have a result set: a result object, or a thread that is about to store it in one. -/
inductive Owner where
  | object (x : Nat)
  | call (t : Tid)
deriving DecidableEq

/-- The result set somebody has. -/
def slots (s : State) (h : List Ev) : Owner → Option Nat
  | .object x => (s.results.obj x).bind CXEMySqlResult.m_pRes
  | .call t => (custodyView h t).hand

/--
Result objects have been made by `new` and hold nothing in `m_pRecords`; no result set has been
freed; every result set that has been returned is known to the library; and every one that somebody
has, has been returned, and nobody else has it.
-/
structure ResultsOk (s : State) (h : List Ev) : Prop where
  made : ∀ x, s.results.objs ≤ x → s.results.obj x = none
  records : ∀ x y, s.results.obj x = some y → y.m_pRecords = none
  unfreed : released (resultDeals h) = []
  known : ∀ r ∈ acquired (resultDeals h), r < s.lib.results
  returned : ∀ k r, slots s h k = some r → r ∈ acquired (resultDeals h)
  separate : Separate (slots s h)

section

variable {rt : Runtime} {s s' : State} {h : List Ev} {t : Tid} {o : Outcome} {ev : Ev}

theorem resultDeal_reply {e : Op} (r : e.Reply) (h1 : ∀ m, e ≠ .lib (.storeResult m))
    (h2 : ∀ m, e ≠ .lib (.freeResult m)) : resultDeal (.reply t e r) = none := by
  cases e with
  | lib e =>
    cases e with
    | storeResult m => exact absurd rfl (h1 m)
    | freeResult m => exact absurd rfl (h2 m)
    | _ => rfl
  | _ => rfl

theorem resultDeals_cons (hev : resultDeal ev = none) : resultDeals (ev :: h) = resultDeals h := by
  unfold resultDeals
  rw [List.filterMap_cons, hev]

/-- An event that is no dealing with a result set, and after which everybody has what they had. -/
theorem ResultsOk.skip (hI : ResultsOk s h) (hev : resultDeal ev = none)
    (hobj : s'.results = s.results) (hlib : s'.lib.results = s.lib.results)
    (hslots : slots s' (ev :: h) = slots s h) : ResultsOk s' (ev :: h) := by
  refine ⟨?_, ?_, ?_, ?_, ?_, ?_⟩
  · rw [hobj]
    exact hI.made
  · rw [hobj]
    exact hI.records
  · rw [resultDeals_cons hev]
    exact hI.unfreed
  · rw [resultDeals_cons hev, hlib]
    exact hI.known
  · rw [resultDeals_cons hev, hslots]
    exact hI.returned
  · rw [hslots]
    exact hI.separate

/-- After an answer to a thread, the others have what they had. -/
theorem slots_reply {e : Op} {r : e.Reply} (hobj : s'.results = s.results) :
    slots s' (.reply t e r :: h)
      = Function.update (slots s h) (.call t) ((custodyView h t).next e r).hand := by
  funext k
  cases k with
  | object x =>
    rw [Function.update_of_ne (by simp)]
    simp only [slots, hobj]
  | call u =>
    simp only [slots, custodyView, Discipline.view_reply]
    by_cases hu : u = t
    · subst hu
      rw [Function.update_self, Function.update_self]
      rfl
    · rw [Function.update_of_ne hu, Function.update_of_ne (by simpa using hu)]
      rfl

/-- A call begins or ends with nothing in hand. -/
theorem slots_boundary {l : Custody} (hview : custodyView (ev :: h) = Function.update (custodyView h) t l)
    (hl : l.hand = none) (ht : (custodyView h t).hand = none) : slots s (ev :: h) = slots s h := by
  funext k
  cases k with
  | object x => rfl
  | call u =>
    simp only [slots, hview]
    by_cases hu : u = t
    · subst hu
      rw [Function.update_self, hl, ht]
    · rw [Function.update_of_ne hu]

/-- A request after which the thread has what it had. -/
theorem slots_quiet {e : Op} {r : e.Reply} (hobj : s'.results = s.results)
    (hnext : ((custodyView h t).next e r).hand = (custodyView h t).hand) :
    slots s' (.reply t e r :: h) = slots s h := by
  rw [slots_reply hobj, hnext]
  exact Function.update_eq_self _ _

/-- Object `z` becomes `w`. -/
theorem slots_object {e : ResOp} {r : e.Reply} {n z : Nat} {w : Option CXEMySqlResult} :
    slots { s with results := { objs := n, obj := Function.update s.results.obj z w } }
        (.reply t (.res e) r :: h)
      = Function.update (Function.update (slots s h) (.call t)
          ((custodyView h t).next (.res e) r).hand) (.object z) (w.bind CXEMySqlResult.m_pRes) := by
  funext k
  cases k with
  | object x =>
    by_cases hx : x = z
    · subst hx
      rw [Function.update_self]
      simp only [slots, Function.update_self]
    · have hk : Owner.object x ≠ .object z := by simpa using hx
      rw [Function.update_of_ne hk, Function.update_of_ne (by simp)]
      simp only [slots, Function.update_of_ne hx]
  | call u =>
    have hr : slots s (.reply t (.res e) r :: h) = _ := slots_reply rfl
    rw [Function.update_of_ne (by simp), ← hr]
    rfl

/-- `mysql_store_result` -/
theorem ResultsOk.storeResult (hI : ResultsOk s h) (m : Nat) :
    ResultsOk { s with lib := (s.lib.exec (.storeResult m) o).1 }
      (.reply t (.lib (.storeResult m)) (s.lib.exec (.storeResult m) o).2 :: h) := by
  have hslots : slots { s with lib := (s.lib.exec (.storeResult m) o).1 }
      (.reply t (.lib (.storeResult m)) (s.lib.exec (.storeResult m) o).2 :: h)
      = Function.update (slots s h) (.call t)
          ((custodyView h t).data.bind fun _ => (s.lib.exec (.storeResult m) o).2) :=
    slots_reply rfl
  have hhand : ∀ {r : Nat} {a : Option Nat}, ((custodyView h t).data.bind fun _ => a) = some r → a = some r := by
    intro r a
    cases (custodyView h t).data <;> simp
  -- what the library knows by now
  have hlib : ∀ r, r ∈ acquired (resultDeals
      (.reply t (.lib (.storeResult m)) (s.lib.exec (.storeResult m) o).2 :: h)) ↔
      (s.lib.exec (.storeResult m) o).2 = some r ∨ r ∈ acquired (resultDeals h) := by
    intro r
    unfold resultDeals
    rw [List.filterMap_cons]
    cases hr : (s.lib.exec (.storeResult m) o).2 with
    | none => simp [resultDeal]
    | some r' => simp [resultDeal, acquired, eq_comm]
  have hnew : ∀ {r}, (s.lib.exec (.storeResult m) o).2 = some r → r = s.lib.results ∧
      (s.lib.exec (.storeResult m) o).1.results = s.lib.results + 1 := by
    intro r hr
    rcases s.lib.exec_storeResult m o with ⟨hn, -⟩ | ⟨hn, hres⟩
    · rw [hn] at hr
      cases hr
    · rw [hn] at hr
      cases hr
      exact ⟨rfl, hres⟩
  refine ⟨hI.made, hI.records, ?_, ?_, ?_, ?_⟩
  · have hd : released (resultDeals
        (.reply t (.lib (.storeResult m)) (s.lib.exec (.storeResult m) o).2 :: h))
        = released (resultDeals h) := by
      unfold resultDeals
      rw [List.filterMap_cons]
      cases hr : (s.lib.exec (.storeResult m) o).2 <;> rfl
    rw [hd]
    exact hI.unfreed
  · intro r hr
    show r < (s.lib.exec (.storeResult m) o).1.results
    rcases (hlib r).mp hr with hr | hr
    · obtain ⟨rfl, hres⟩ := hnew hr
      omega
    · have hlt := hI.known r hr
      rcases s.lib.exec_storeResult m o with ⟨-, hres⟩ | ⟨-, hres⟩ <;> omega
  · intro k r hk
    rw [hslots] at hk
    rw [hlib]
    by_cases hkt : k = .call t
    · rw [hkt, Function.update_self] at hk
      exact Or.inl (hhand hk)
    · rw [Function.update_of_ne hkt] at hk
      exact Or.inr (hI.returned k r hk)
  · rw [hslots]
    refine hI.separate.put _ fun r hr j _ hj => ?_
    obtain ⟨rfl, -⟩ := hnew (hhand hr)
    exact Nat.lt_irrefl _ (hI.known _ (hI.returned j _ hj))

/-- An object that is there has been made. -/
theorem ResultsOk.lt (hI : ResultsOk s h) {z : Nat} {y : CXEMySqlResult}
    (hy : s.results.obj z = some y) : z < s.results.objs := by
  by_contra hlt
  have hnone := hI.made z (Nat.le_of_not_lt hlt)
  rw [hy] at hnone
  cases hnone

/-- An object is made, changed or destroyed: it has no result set then, or the one that the thread
had. -/
theorem ResultsOk.object (hI : ResultsOk s h) {e : ResOp} {r : e.Reply} {n z : Nat}
    {w : Option CXEMySqlResult} (hn : s.results.objs ≤ n) (hz : w.isSome → z < n)
    (hrecords : ∀ y, w = some y → y.m_pRecords = none)
    (hmove : ((custodyView h t).next (.res e) r).hand = (custodyView h t).hand ∧
        w.bind CXEMySqlResult.m_pRes = none ∨
      ((custodyView h t).next (.res e) r).hand = none ∧
        w.bind CXEMySqlResult.m_pRes = (custodyView h t).hand) :
    ResultsOk { s with results := { objs := n, obj := Function.update s.results.obj z w } }
      (.reply t (.res e) r :: h) := by
  have hslots := slots_object (s := s) (h := h) (t := t) (e := e) (r := r) (n := n) (z := z)
    (w := w)
  have hhand : slots s h (.call t) = (custodyView h t).hand := rfl
  refine ⟨fun x hx => ?_, fun x y hx => ?_, hI.unfreed, hI.known, ?_, ?_⟩
  · by_cases hxz : x = z
    · subst hxz
      refine (Function.update_self ..).trans ?_
      cases w with
      | none => rfl
      | some y => exact absurd (hz rfl) (Nat.not_lt_of_le hx)
    · exact (Function.update_of_ne hxz ..).trans (hI.made x (Nat.le_trans hn hx))
  · have hx : Function.update s.results.obj z w x = some y := hx
    by_cases hxz : x = z
    · rw [hxz, Function.update_self] at hx
      exact hrecords y hx
    · rw [Function.update_of_ne hxz] at hx
      exact hI.records x y hx
  · intro k x hk
    rw [hslots] at hk
    rcases hmove with ⟨h1, h2⟩ | ⟨h1, h2⟩
    · rw [h1, h2, ← hhand, Function.update_eq_self] at hk
      by_cases hkz : k = .object z
      · rw [hkz, Function.update_self] at hk
        cases hk
      · rw [Function.update_of_ne hkz] at hk
        exact hI.returned k x hk
    · rw [h1, h2] at hk
      by_cases hkz : k = .object z
      · rw [hkz, Function.update_self] at hk
        exact hI.returned (.call t) x hk
      · rw [Function.update_of_ne hkz] at hk
        by_cases hkt : k = .call t
        · rw [hkt, Function.update_self] at hk
          cases hk
        · rw [Function.update_of_ne hkt] at hk
          exact hI.returned k x hk
  · rw [hslots]
    rcases hmove with ⟨h1, h2⟩ | ⟨h1, h2⟩
    · rw [h1, h2, ← hhand, Function.update_eq_self]
      exact hI.separate.clear _
    · rw [h1, h2, ← hhand]
      exact hI.separate.move _ _

/-- Result objects. -/
theorem ResultsOk.res (hI : ResultsOk s h) {e : ResOp} {x : Results} {r : e.Reply}
    (hm : (custodyView h t).may (.res e)) (hx : s.results.exec e = some (x, some r)) :
    (custodyView h t).can (.res e) r ∧
      ResultsOk { s with results := x } (.reply t (.res e) r :: h) := by
  cases e with
  | getRecords z =>
    simp only [Results.exec, Option.map_eq_some_iff] at hx
    obtain ⟨y, hy, hx⟩ := hx
    cases hx
    exact ⟨hI.records z y hy, hI.skip rfl rfl rfl (slots_quiet rfl rfl)⟩
  | construct =>
    cases hx
    refine ⟨trivial, hI.object (Nat.le_succ _) (fun _ => Nat.lt_succ_self _) ?_ (Or.inl ⟨rfl, rfl⟩)⟩
    rintro y ⟨⟩
    rfl
  | setRes z n pRes =>
    simp only [Results.exec, Option.map_eq_some_iff] at hx
    obtain ⟨y, hy, hx⟩ := hx
    cases hx
    refine ⟨trivial, hI.object (Nat.le_refl _) (fun _ => hI.lt hy) ?_ (Or.inr ⟨rfl, hm.2.symm⟩)⟩
    rintro y' ⟨⟩
    exact hI.records z y hy
  | destroy z =>
    simp only [Results.exec, Option.map_eq_some_iff] at hx
    obtain ⟨y, hy, hx⟩ := hx
    cases hx
    exact ⟨trivial, hI.object (Nat.le_refl _) (by simp) (by simp) (Or.inl ⟨rfl, rfl⟩)⟩

/-- A call of the client library. -/
theorem ResultsOk.lib (hI : ResultsOk s h) {e : LibOp} (hm : (custodyView h t).may (.lib e)) :
    ResultsOk { s with lib := (s.lib.exec e o).1 } (.reply t (.lib e) (s.lib.exec e o).2 :: h) := by
  by_cases h1 : ∃ m, e = .storeResult m
  · obtain ⟨m, rfl⟩ := h1
    exact hI.storeResult m
  · refine hI.skip (resultDeal_reply _ ?_ ?_) rfl (LibMySql.exec_results fun m he => h1 ⟨m, he⟩)
      (slots_quiet rfl ?_)
    · rintro m ⟨⟩
      exact h1 ⟨m, rfl⟩
    · rintro m ⟨⟩
      exact hm
    · cases e with
      | storeResult m => exact absurd ⟨m, rfl⟩ h1
      | _ => rfl

/-- Before anything has happened. -/
theorem ResultsOk.init (h₀ : ∀ x, s.results.obj x = none) : ResultsOk s [] := by
  have hslots : ∀ k, slots s [] k = none := by
    intro k
    cases k with
    | object x => simp only [slots, h₀ x, Option.bind_none]
    | call u => rfl
  refine ⟨fun x _ => h₀ x, ?_, rfl, ?_, ?_, ?_⟩
  · intro x y hx
    rw [h₀ x] at hx
    cases hx
  · intro r hr
    cases hr
  · intro k r hk
    rw [hslots k] at hk
    cases hk
  · intro k j r hk
    rw [hslots k] at hk
    cases hk

/-- **Whatever calls are made**, this holds of the result objects. -/
theorem custody_kept (rt : Runtime) {s₀ : State} (h₀ : ∀ x, s₀.results.obj x = none) :
    (machine rt).Kept (fun _ _ => True) s₀ Custody.discipline {} start final ResultsOk where
  code _ c _ := code_custody c
  init := .init h₀
  call s h t c hI _ _ hv := by
    have hv : custodyView h t = {} := hv
    refine hI.skip rfl rfl rfl (slots_boundary Discipline.view_call rfl ?_)
    rw [hv]
  wait s h t e o s' hI _ he := by
    obtain ⟨i, rfl⟩ := exec_wait he
    exact ⟨hI.made, hI.records, hI.unfreed, hI.known, hI.returned, hI.separate⟩
  reply s h t e o s' r hI hm he := by
    have he : exec rt t e o s = some (s', some r) := he
    have hm : (custodyView h t).may e := hm
    cases e with
    | lib e =>
      obtain ⟨rfl, hr⟩ := exec_lib he
      cases hr
      exact ⟨trivial, hI.lib hm⟩
    | res e =>
      obtain ⟨x, hx, rfl⟩ := exec_res he
      exact hI.res hm hx
    | tp e =>
      obtain ⟨x, -, rfl⟩ := exec_tp he
      exact ⟨trivial, hI.skip rfl rfl rfl (slots_quiet rfl rfl)⟩
    | task e =>
      obtain ⟨x, -, rfl⟩ := exec_task he
      exact ⟨trivial, hI.skip rfl rfl rfl (slots_quiet rfl rfl)⟩
    | con e =>
      obtain ⟨x, -, rfl⟩ := exec_con he
      exact ⟨trivial, hI.skip rfl rfl rfl (slots_quiet rfl rfl)⟩
    | rt e =>
      obtain ⟨x, -, rfl⟩ := exec_rt he
      exact ⟨trivial, hI.skip rfl rfl rfl (slots_quiet rfl rfl)⟩
  done s h t c a hI hf :=
    hI.skip rfl rfl rfl (slots_boundary Discipline.view_done rfl hf)

/-- A thread in a call knows which result object the call has been given. -/
theorem data_of_running {s₀ : State} {S : Sys} {ok : Tid → Call → Prop}
    (hr : (machine rt).Reach ok s₀ S) {c : Call} {p : Code Bool} (ht : S.thread t = .running c p) :
    (custodyView S.hist t).data = c.data := by
  refine hr.invariant (I := fun S => ∀ t c p, S.thread t = .running c p →
    (custodyView S.hist t).data = c.data) (fun _ _ _ hi => nomatch hi) ?_ t c p ht
  intro S l S' hI _ hs t c p ht
  cases hs with
  | @call u d hu hd =>
    rw [custodyView, Discipline.view_call]
    by_cases htu : t = u
    · subst htu
      simp only [Function.update_self] at ht ⊢
      cases ht
      rfl
    · simp only [Function.update_of_ne htu] at ht ⊢
      exact hI t c p ht
  | wait hu he => exact hI t c p ht
  | @reply u o d e k sh r hu he =>
    rw [custodyView, Discipline.view_reply]
    by_cases htu : t = u
    · subst htu
      simp only [Function.update_self] at ht ⊢
      cases ht
      exact (next_data _ e r).trans (hI t c _ hu)
    · simp only [Function.update_of_ne htu] at ht ⊢
      exact hI t c p ht
  | @done u o d a hu =>
    rw [custodyView, Discipline.view_done]
    by_cases htu : t = u
    · subst htu
      simp only [Function.update_self] at ht
      split at ht <;> cases ht
    · simp only [Function.update_of_ne htu] at ht ⊢
      exact hI t c p ht

end

end XeMySql
