import XeMySql.Pool
import XeMySql.Requests
import XeMySql.Lib.Places
import XeMySql.Lib.Trace

/-!
# Every handle has one owner

A `MYSQL` handle is that of a connection, or a `Reconnect` has made it and not yet stored it, or it
is closed. Between `mysql_close` and the store of the new handle the connection still names the old
one, and nobody sees it then.

* `code_replaces` — the order in which `Reconnect` replaces a handle
* `Owners.reply` — where the handles are after a request
* `handles_owned` — in every run no handle is used after it has been closed, none is closed twice,
  and none is lost
* `statements_owned` — nor is any statement
-/

namespace XeMySql

open Interact Hold

/-! ## The order of a replacement -/

/-- How far a thread is with the replacement of its connection's handle: it has `made` a new one,
`linked` it to the server and perhaps read the old one, and is `ready` to store it when the old one
is closed or there is none. -/
inductive Swap where
  | calm
  | made (temp : Nat)
  | linked (temp : Nat) (old : Option Nat)
  | ready
deriving DecidableEq

namespace Swap

/-- What a thread may ask. -/
def may (l : Swap) : Op → Prop
  | .con (.setMySql _ _) => l = ready
  | .con (.unLock _) => l = calm
  | .con .getFreeCon => l = calm
  | .lib .init => l = calm
  | .lib (.close h) => l = made h ∨ ∃ temp, l = linked temp (some h)
  | _ => l ≠ ready

/-- Where it is afterwards. -/
def next (l : Swap) : (e : Op) → e.Reply → Swap
  | .lib .init, r =>
    match (r : Option Nat) with
    | some temp => made temp
    | none => calm
  | .lib (.realConnect _ _), r =>
    match l with
    | made temp => if r = true then linked temp none else l
    | _ => l
  | .con (.getMySql _), r =>
    match l with
    | linked temp _ =>
      match (r : Option Nat) with
      | some h => linked temp (some h)
      | none => ready
    | _ => l
  | .lib (.close _), _ =>
    match l with
    | linked _ _ => ready
    | _ => calm
  | .con (.setMySql _ _), _ => calm
  | _, _ => l

/-- The discipline. -/
def discipline : Discipline Op Op.Reply Swap := ⟨may, fun _ _ _ => True, next⟩

/-- A thread that is ready to store a handle does not call the library. -/
theorem ne_ready {l : Swap} {e : LibOp} (h : l.may (.lib e)) : l ≠ ready := by
  rintro rfl
  cases e with
  | init => cases h
  | close h' =>
    rcases h with h | ⟨temp, h⟩
    · cases h
    · cases h
  | _ => exact h rfl

end Swap

/-- Requests that replace no handle. -/
def Lasting : Op → Prop
  | .con (.setMySql _ _) => False
  | .lib .init => False
  | .lib (.close _) => False
  | _ => True

theorem lasting_replaces {α : Type} {p : Code α} (h : p.Only Lasting) :
    p.Follows Swap.discipline .calm fun _ l => l = .calm := by
  refine h.follows (fun e he => ?_) (fun e he r => ?_)
  · cases e with
    | con e => cases e <;> first | exact he.elim | exact rfl | exact nofun
    | lib e => cases e <;> first | exact he.elim | exact nofun
    | _ => exact nofun
  · cases e with
    | con e => cases e <;> first | exact he.elim | rfl
    | lib e => cases e <;> first | exact he.elim | rfl
    | _ => rfl

/-- Such a request comes first. -/
theorem op_replaces {α : Type} {e : Op} {k : e.Reply → Code α} {Q : α → Swap → Prop}
    (he : Lasting e) (hk : ∀ r, (k r).Follows Swap.discipline .calm Q) :
    (Prog.op e k : Code α).Follows Swap.discipline .calm Q := by
  obtain ⟨hmay, hnext⟩ := lasting_replaces (p := req e) ⟨he, fun _ => trivial⟩
  refine ⟨hmay, fun r hr => ?_⟩
  have hsame : Swap.discipline.next .calm e r = .calm := hnext r hr
  rw [hsame]
  exact hk r

theorem OnPrepared.lasting (e : Op) (h : OnPrepared e) : Lasting e := by
  cases e with
  | con e => cases e <;> first | exact h.elim | trivial
  | lib e => cases e <;> first | exact h.elim | trivial
  | _ => trivial

/-- `Reconnect` closes the new handle when it cannot be connected, and otherwise the old one before
it stores the new. -/
theorem reconnect_replaces (c : Nat) :
    (CXEMySqlCon.reconnect c).Follows Swap.discipline .calm fun _ l => l = .calm := by
  refine ⟨rfl, fun r _ => ?_⟩
  cases r with
  | none => exact ⟨nofun, fun r => nomatch r⟩
  | some temp =>
    refine ⟨nofun, fun p _ => ⟨nofun, fun ok _ => ?_⟩⟩
    cases ok with
    | false => exact ⟨nofun, fun _ _ => ⟨Or.inl rfl, fun _ _ => rfl⟩⟩
    | true =>
      refine ⟨nofun, fun m _ => ?_⟩
      cases m with
      | none => exact ⟨rfl, fun _ _ => rfl⟩
      | some old => exact ⟨Or.inr ⟨temp, rfl⟩, fun _ _ => ⟨rfl, fun _ _ => rfl⟩⟩

theorem queryFailed_replaces (c h : Nat) (szQuery : Bytes) :
    (CXEMySql.queryFailed c h szQuery).Follows Swap.discipline .calm fun _ l => l = .calm := by
  refine op_replaces trivial fun _ => op_replaces trivial fun _ => op_replaces trivial fun _ =>
    op_replaces trivial fun n => ?_
  show (CXEMySql.handleError c n).Follows Swap.discipline .calm fun _ l => l = .calm
  unfold CXEMySql.handleError
  split
  · exact reconnect_replaces c
  · exact rfl

theorem queryOn_replaces (c h : Nat) (cmd : Bytes) (args : List Printf.Arg) :
    (CXEMySql.queryOn c h cmd args).Follows Swap.discipline .calm fun _ l => l = .calm := by
  refine op_replaces trivial fun szQuery => op_replaces trivial fun ok => ?_
  cases ok with
  | false => exact queryFailed_replaces c h _
  | true => exact op_replaces trivial fun _ => op_replaces trivial fun _ => rfl

theorem queryDataOn_replaces (c h : Nat) (cmd : Bytes) (data : Option Nat)
    (args : List Printf.Arg) :
    (CXEMySql.queryDataOn c h cmd data args).Follows Swap.discipline .calm
      fun _ l => l = .calm := by
  rw [CXEMySql.queryDataOn_eq]
  refine op_replaces trivial fun szQuery => op_replaces trivial fun ok => ?_
  cases ok with
  | false => exact queryFailed_replaces c h _
  | true =>
    refine op_replaces trivial fun _ => ?_
    simp only [Prog.bind_ret]
    exact lasting_replaces (CXEMySql.storeData_only trivial trivial fun _ _ _ _ => trivial)

theorem locked_replaces {body : Nat → Nat → Code Bool}
    (hbody : ∀ c h, (body c h).Follows Swap.discipline .calm fun _ l => l = .calm) :
    (CXEMySql.locked body).Follows Swap.discipline .calm fun _ l => l = .calm := by
  refine op_replaces trivial fun c => ?_
  cases c with
  | none => exact rfl
  | some c =>
    refine op_replaces trivial fun m => ?_
    refine Prog.Follows.bind (P := fun _ l => l = .calm) ?_ ?_
    · cases m with
      | none => exact rfl
      | some h => exact hbody c h
    · rintro _ _ rfl
      exact op_replaces trivial fun _ => rfl

theorem queryBlob_replaces (cmd : Bytes) (pData : Option DB_BLOB) :
    (CXEMySql.queryBlob cmd pData).Follows Swap.discipline .calm fun _ l => l = .calm := by
  cases pData with
  | none => exact locked_replaces fun c h => queryOn_replaces c h cmd []
  | some d => exact locked_replaces fun c _ =>
      lasting_replaces ((queryBlobOn_prepared c cmd d).mono OnPrepared.lasting)

theorem selectDB_replaces (db : Bytes) :
    (CXEMySql.selectDB db).Follows Swap.discipline .calm fun _ l => l = .calm := by
  refine lasting_replaces ⟨trivial, fun c => ?_⟩
  cases c with
  | none => trivial
  | some c =>
    refine ⟨trivial, fun m => ?_⟩
    cases m with
    | none => exact ⟨trivial, fun _ => trivial⟩
    | some h =>
      refine ⟨trivial, fun ok => ?_⟩
      cases ok <;> exact ⟨trivial, fun _ => trivial⟩

theorem processTask_replaces (pTask : Option Nat) :
    (CXEMySqlWorker.processTask pTask).Follows Swap.discipline .calm fun _ l => l = .calm := by
  cases pTask with
  | none => exact rfl
  | some k =>
    have hrelease : ∀ (ok : Bool) (l : Swap), l = .calm →
        (CXEMySql.releaseJob k).Follows Swap.discipline l fun _ l => l = .calm := by
      rintro _ _ rfl
      exact lasting_replaces ⟨trivial, fun _ => ⟨trivial, fun _ => trivial⟩⟩
    refine op_replaces trivial fun d => ?_
    cases d with
    | none =>
      refine op_replaces trivial fun szQuery => ?_
      exact (locked_replaces fun c h => queryOn_replaces c h szQuery []).bind hrelease
    | some p =>
      refine op_replaces trivial fun szQuery => op_replaces trivial fun d => ?_
      exact (queryBlob_replaces szQuery (some d)).bind hrelease

theorem inPool_lasting {α : Type} (p : ThreadPool.Code Nat α) :
    (CXEMySql.inPool p).Only Lasting :=
  Prog.only_lift (fun _ => trivial) p

/-- **Every call through the pool keeps to the order.** -/
theorem code_replaces (c : Call) (hc : c.usesPool) :
    c.code.Follows Swap.discipline .calm fun _ l => l = .calm := by
  cases c with
  | executeQueryNoRet q =>
    refine lasting_replaces (Prog.only_bind (Prog.only_bind ?_ fun _ => inPool_lasting _)
      fun _ => trivial)
    cases q with
    | none => trivial
    | some q => exact ⟨trivial, fun _ => ⟨trivial, fun _ => trivial⟩⟩
  | selectDB db => exact selectDB_replaces db
  | query cmd args => exact locked_replaces fun c h => queryOn_replaces c h cmd args
  | queryData cmd data args => exact locked_replaces fun c h => queryDataOn_replaces c h cmd data args
  | queryBlob cmd d => exact queryBlob_replaces cmd d
  | newResult => exact lasting_replaces ⟨trivial, fun _ => trivial⟩
  | deleteResult x =>
    refine lasting_replaces ⟨trivial, fun r => ?_⟩
    cases r with
    | none => exact ⟨trivial, fun _ => trivial⟩
    | some r => exact ⟨trivial, fun _ => ⟨trivial, fun _ => trivial⟩⟩
  | connect c p => exact hc.elim
  | close c => exact hc.elim
  | reconnect c => exact hc.elim
  | start n => exact lasting_replaces (Prog.only_bind (inPool_lasting _) fun _ => trivial)
  | stop => exact lasting_replaces (Prog.only_bind (inPool_lasting _) fun _ => trivial)
  | workerProc =>
    refine (lasting_replaces (inPool_lasting _)).bind ?_
    rintro r _ rfl
    rcases r with _ | ⟨pWorker, pTask⟩
    · exact rfl
    · cases pWorker with
      | false => exact rfl
      | true => exact (processTask_replaces pTask).bind fun _ _ hl => hl

/-! ## Where the handles are -/

/-- The handles that have been closed, the latest first. -/
def closedHandles : List Ev → List Nat
  | [] => []
  | .reply _ (.lib (.close h)) _ :: hist => h :: closedHandles hist
  | _ :: hist => closedHandles hist

/-- Who has a handle: connection `c` the one it names, unless that is closed, and thread `t` the one
that it has made. -/
def owner (x : Cons) (closed : List Nat) (v : Tid → Hold) : Nat ⊕ Tid → Option Nat
  | .inl c => (x.con c).m_pMySql.filter fun h => h ∉ closed
  | .inr t => (v t).temp

/-- What a history says of how far the threads are. -/
abbrev swapView (h : List Ev) : Tid → Swap := Swap.discipline.view .calm (fun _ _ => .calm) h

/--
The handles, when thread `t` knows `v t` and is `w t` far with a replacement. `located`: each is
closed or has one owner. `named`: a connection names a closed handle only while a thread is about to
store another. `made`, `linked` and `ready`: what a thread is about to close or to store is what it
knows.
-/
structure Owners (x : Cons) (y : LibMySql) (gone closed : List Nat) (v : Tid → Hold)
    (w : Tid → Swap) : Prop where
  located : ∃ loc, Located loc y.handles (gone ++ closed.reverse) [] (owner x (gone ++ closed) v)
  named : ∀ c h, (x.con c).m_pMySql = some h → h ∈ gone ++ closed →
    ∃ t, w t = .ready ∧ (v t).con = some c
  made : ∀ t m, w t = .made m → (v t).temp = some m
  linked : ∀ t m old, w t = .linked m old → (v t).temp = some m ∧
    ∀ h, old = some h → (v t).mysql = some h
  ready : ∀ t c, w t = .ready → (v t).con = some c → owner x (gone ++ closed) v (.inl c) = none

section

variable {x x' : Cons} {y : LibMySql} {gone closed : List Nat} {v : Tid → Hold} {w : Tid → Swap}
  {t : Tid} {l : Hold} {k : Swap} {c m : Nat}

/-- The handles and their owners stay as they are. -/
theorem owner_congr (hx : ∀ c, (x'.con c).m_pMySql = (x.con c).m_pMySql)
    (htemp : l.temp = (v t).temp) :
    owner x' closed (Function.update v t l) = owner x closed v := by
  funext k
  cases k with
  | inl c => simp only [owner, hx]
  | inr u =>
    by_cases hu : u = t
    · subst hu
      simp only [owner, Function.update_self, htemp]
    · simp only [owner, Function.update_of_ne hu]

/-- What a thread knows changes as it moves, what the others know does not. -/
theorem Owners.move {y' : LibMySql} {closed' : List Nat} (h : Owners x y gone closed v w)
    (hlocated : ∃ loc, Located loc y'.handles (gone ++ closed'.reverse) []
      (owner x' (gone ++ closed') (Function.update v t l)))
    (hnamed : ∀ c m, (x'.con c).m_pMySql = some m → m ∈ gone ++ closed' →
      k = .ready ∧ l.con = some c ∨ ∃ u, u ≠ t ∧ w u = .ready ∧ (v u).con = some c)
    (hmade : ∀ m, k = .made m → l.temp = some m)
    (hlinked : ∀ m old, k = .linked m old → l.temp = some m ∧ ∀ h, old = some h → l.mysql = some h)
    (hready : ∀ c, k = .ready → l.con = some c →
      owner x' (gone ++ closed') (Function.update v t l) (.inl c) = none)
    (hothers : ∀ u c, u ≠ t → w u = .ready → (v u).con = some c →
      owner x' (gone ++ closed') (Function.update v t l) (.inl c) = none) :
    Owners x' y' gone closed' (Function.update v t l) (Function.update w t k) := by
  refine ⟨hlocated, fun c m hc hm => ?_, fun u m hu => ?_, fun u m old hu => ?_, fun u c hu hc => ?_⟩
  · rcases hnamed c m hc hm with ⟨hk, hl⟩ | ⟨u, hut, hu, hv⟩
    · exact ⟨t, by rw [Function.update_self, hk], by rw [Function.update_self, hl]⟩
    · exact ⟨u, by rw [Function.update_of_ne hut, hu], by rw [Function.update_of_ne hut, hv]⟩
  · by_cases hut : u = t
    · subst hut
      rw [Function.update_self] at hu ⊢
      exact hmade m hu
    · rw [Function.update_of_ne hut] at hu ⊢
      exact h.made u m hu
  · by_cases hut : u = t
    · subst hut
      rw [Function.update_self] at hu ⊢
      exact hlinked m old hu
    · rw [Function.update_of_ne hut] at hu ⊢
      exact h.linked u m old hu
  · by_cases hut : u = t
    · subst hut
      rw [Function.update_self] at hu hc
      exact hready c hu hc
    · rw [Function.update_of_ne hut] at hu hc
      exact hothers u c hut hu hc

/-- The names of closed handles are those of other threads. -/
theorem Owners.named_by (h : Owners x y gone closed v w) (ht : w t ≠ .ready) {h' : Nat}
    (hc : (x.con c).m_pMySql = some h') (hm : h' ∈ gone ++ closed) :
    ∃ u, u ≠ t ∧ w u = .ready ∧ (v u).con = some c := by
  obtain ⟨u, hu, hv⟩ := h.named c h' hc hm
  refine ⟨u, ?_, hu, hv⟩
  rintro rfl
  exact ht hu

/-- A thread learns something, and no handle changes hands. -/
theorem Owners.learn {y' : LibMySql} (h : Owners x y gone closed v w) (ht : w t ≠ .ready)
    (hx : ∀ c, (x'.con c).m_pMySql = (x.con c).m_pMySql) (hy : y'.handles = y.handles)
    (htemp : l.temp = (v t).temp)
    (hmade : ∀ m, k = .made m → l.temp = some m)
    (hlinked : ∀ m old, k = .linked m old → l.temp = some m ∧ ∀ h, old = some h → l.mysql = some h)
    (hready : ∀ c, k = .ready → l.con = some c → (x.con c).m_pMySql = none) :
    Owners x' y' gone closed (Function.update v t l) (Function.update w t k) := by
  have hsame : owner x' (gone ++ closed) (Function.update v t l) = owner x (gone ++ closed) v :=
    owner_congr hx htemp
  refine h.move ?_ (fun c m hc hm => Or.inr (h.named_by ht (hx c ▸ hc) hm)) hmade hlinked
    (fun c hk hc => ?_) fun u c _ hu hc => ?_
  · rw [hsame, hy]
    exact h.located
  · simp only [owner, hx, hready c hk hc, Option.filter_none]
  · rw [hsame]
    exact h.ready u c hu hc

/-- It learns nothing about handles. -/
theorem Owners.same {y' : LibMySql} (h : Owners x y gone closed v w) (ht : w t ≠ .ready)
    (hx : ∀ c, (x'.con c).m_pMySql = (x.con c).m_pMySql) (hy : y'.handles = y.handles)
    (htemp : l.temp = (v t).temp) (hmysql : l.mysql = (v t).mysql) :
    Owners x' y' gone closed (Function.update v t l) (Function.update w t (w t)) := by
  refine h.learn ht hx hy htemp (fun m hm => ?_) (fun m old hm => ?_) fun _ hk => absurd hk ht
  · rw [htemp]
    exact h.made t m hm
  · rw [htemp, hmysql]
    exact h.linked t m old hm

/-- An owner's handle is not closed. -/
theorem Owners.not_closed (h : Owners x y gone closed v w) {k : Nat ⊕ Tid}
    (hk : owner x (gone ++ closed) v k = some m) : m < y.handles ∧ m ∉ gone ++ closed := by
  obtain ⟨loc, hloc⟩ := h.located
  obtain ⟨hlt, hat⟩ := (hloc.hands k m).mp hk
  refine ⟨hlt, fun hm => ?_⟩
  have hmem : m ∈ gone ++ closed.reverse := by simpa using hm
  have hpool := ((hloc.pool m).mp hmem).2
  rw [hat] at hpool
  cases hpool

theorem owner_inl_eq (hc : (x.con c).m_pMySql = some m) :
    owner x closed v (.inl c) = if m ∈ closed then none else some m := by
  rw [owner, hc]
  by_cases hm : m ∈ closed <;> simp [hm]

/-- `mysql_init` returns a handle. -/
theorem Owners.init {y' : LibMySql} (h : Owners x y gone closed v w) (ht : w t ≠ .ready)
    (htemp : (v t).temp = none) (hy : y'.handles = y.handles + 1) :
    Owners x y' gone closed (Function.update v t { v t with temp := some y.handles })
      (Function.update w t (.made y.handles)) := by
  have hsame : owner x (gone ++ closed)
      (Function.update v t { v t with temp := some y.handles }) =
      Function.update (owner x (gone ++ closed) v) (.inr t) (some y.handles) := by
    funext k
    cases k with
    | inl c => rw [Function.update_of_ne (by simp)]; rfl
    | inr u =>
      by_cases hu : u = t
      · subst hu
        simp only [owner, Function.update_self]
      · rw [Function.update_of_ne (by simpa using hu)]
        simp only [owner, Function.update_of_ne hu]
  obtain ⟨loc, hloc⟩ := h.located
  refine h.move ?_ (fun c m hc hm => Or.inr (h.named_by ht hc hm)) (fun m hm => ?_) nofun nofun
    fun u c _ hu hc => ?_
  · rw [hsame, hy]
    exact ⟨_, hloc.hatch htemp⟩
  · cases hm
    rfl
  · rw [hsame, Function.update_of_ne (by simp)]
    exact h.ready u c hu hc

/-- A handle that some owner has is closed, and it has no owner then. -/
theorem Owners.shut {k : Nat ⊕ Tid} (h : Owners x y gone closed v w)
    (hk : owner x (gone ++ closed) v k = some m)
    (hsame : owner x (gone ++ m :: closed) (Function.update v t l) =
      Function.update (owner x (gone ++ closed) v) k none) :
    ∃ loc, Located loc y.handles (gone ++ (m :: closed).reverse) []
      (owner x (gone ++ m :: closed) (Function.update v t l)) := by
  obtain ⟨loc, hloc⟩ := h.located
  rw [hsame, List.reverse_cons, ← List.append_assoc]
  exact ⟨_, hloc.give hk⟩

/-- No other owner has it. -/
theorem Owners.unique (h : Owners x y gone closed v w) {k k' : Nat ⊕ Tid}
    (hk : owner x (gone ++ closed) v k = some m) (hk' : owner x (gone ++ closed) v k' = some m) :
    k = k' := by
  obtain ⟨loc, hloc⟩ := h.located
  have h1 := ((hloc.hands k m).mp hk).2
  rw [((hloc.hands k' m).mp hk').2] at h1
  cases h1
  rfl

/-- Closing a handle takes it from its owner, and from nobody else. -/
theorem Owners.shut_eq (h : Owners x y gone closed v w) {k : Nat ⊕ Tid}
    (hk : owner x (gone ++ closed) v k = some m)
    (htemp : l.temp = if (v t).temp = some m then none else (v t).temp) (hkt : ∀ u, k = .inr u → u = t) :
    owner x (gone ++ m :: closed) (Function.update v t l) =
      Function.update (owner x (gone ++ closed) v) k none := by
  funext k'
  have hmem : ∀ n, n ∈ gone ++ m :: closed ↔ n = m ∨ n ∈ gone ++ closed := by
    intro n
    simp only [List.mem_append, List.mem_cons]
    tauto
  by_cases hkk : k' = k
  · subst hkk
    rw [Function.update_self]
    cases k' with
    | inl c =>
      have hc : (x.con c).m_pMySql = some m := by
        rw [owner, Option.filter_eq_some_iff] at hk
        exact hk.1
      rw [owner_inl_eq hc, if_pos ((hmem m).mpr (Or.inl rfl))]
    | inr u =>
      obtain rfl := hkt u rfl
      simp only [owner] at hk ⊢
      rw [Function.update_self, htemp, if_pos hk]
  · rw [Function.update_of_ne hkk]
    cases k' with
    | inl c =>
      cases hc : (x.con c).m_pMySql with
      | none => simp only [owner, hc, Option.filter_none]
      | some n =>
        have hn : n ∈ gone ++ closed ∨ n ≠ m := by
          by_contra hcon
          rw [not_or, not_not] at hcon
          obtain ⟨hin, rfl⟩ := hcon
          exact hkk (h.unique ((owner_inl_eq hc).trans (if_neg hin)) hk)
        rw [owner_inl_eq hc, owner_inl_eq hc]
        simp only [hmem]
        rcases hn with hn | hn <;> simp [hn]
    | inr u =>
      by_cases hu : u = t
      · subst hu
        have hne : (v u).temp ≠ some m := fun ht => hkk (h.unique ht hk)
        simp only [owner, Function.update_self, htemp, if_neg hne]
      · simp only [owner, Function.update_of_ne hu]

/-- A thread that is not about to replace it has the handle of its connection. -/
theorem Owners.own (h : Owners x y gone closed v w) (hI : Inv x y v) (ht : w t ≠ .ready)
    (hcon : (v t).con = some c) (hc : (x.con c).m_pMySql = some m) :
    owner x (gone ++ closed) v (.inl c) = some m := by
  refine (owner_inl_eq hc).trans (if_neg fun hm => ?_)
  obtain ⟨u, hu, -, hv⟩ := h.named_by ht hc hm
  exact hu (hI.unique hv hcon)

/-- `mysql_close` of the new handle, which cannot be connected. -/
theorem Owners.close_made (h : Owners x y gone closed v w) (hI : Inv x y v) (ht : w t = .made m) :
    Owners x y gone (m :: closed) (Function.update v t ((v t).next (.lib (.close m)) ()))
      (Function.update w t .calm) := by
  have htemp := h.made t m ht
  have hnext : ((v t).next (.lib (.close m)) ()).temp =
      if (v t).temp = some m then none else (v t).temp := by
    simp only [next, if_pos htemp]
  have hsame := h.shut_eq (k := .inr t) htemp hnext (by simp)
  refine h.move (h.shut (k := .inr t) htemp hsame) (fun c n hc hn => Or.inr ?_) (by simp) (by simp)
    (by simp) fun u c _ hu hc => ?_
  · have hne : n ≠ m := by
      rintro rfl
      exact ((hI.knows t).temp n htemp).2.2 c hc
    refine h.named_by (by simp [ht]) hc ?_
    simpa [hne] using hn
  · rw [hsame, Function.update_of_ne (by simp)]
    exact h.ready u c hu hc

/-- `mysql_close` of the old handle. -/
theorem Owners.close_old {temp : Nat} (h : Owners x y gone closed v w) (hI : Inv x y v)
    (ht : w t = .linked temp (some m)) :
    Owners x y gone (m :: closed) (Function.update v t ((v t).next (.lib (.close m)) ()))
      (Function.update w t .ready) := by
  obtain ⟨htemp, hmysql⟩ := h.linked t temp (some m) ht
  obtain ⟨c, hcon, hc⟩ := (hI.knows t).mysql m (hmysql m rfl)
  have hne : (v t).temp ≠ some m := fun hm => ((hI.knows t).temp m hm).2.2 c hc
  have hnext : (v t).next (.lib (.close m)) () = v t := by simp only [next, if_neg hne]
  have hk := h.own hI (by simp [ht]) hcon hc
  have hsame := h.shut_eq (l := v t) hk (by rw [if_neg hne]) (by simp)
  rw [hnext]
  refine h.move (h.shut hk hsame) (fun d n hd hn => ?_) (by simp) (by simp) (fun d _ hd => ?_)
    fun u d hut hu hd => ?_
  · by_cases hnm : n = m
    · subst hnm
      obtain rfl := hI.distinct d c n hd hc
      exact Or.inl ⟨rfl, hcon⟩
    · refine Or.inr (h.named_by (by simp [ht]) hd ?_)
      simpa [hnm] using hn
  · obtain rfl : c = d := by simpa [hcon] using hd
    rw [hsame, Function.update_self]
  · have hdc : d ≠ c := by
      rintro rfl
      exact hut (hI.unique hd hcon)
    rw [hsame, Function.update_of_ne (by simpa using hdc)]
    exact h.ready u d hu hd

/-- The new handle is stored. -/
theorem Owners.store (h : Owners x y gone closed v w) (hI : Inv x y v) (ht : w t = .ready)
    (hcon : (v t).con = some c) (htemp : (v t).temp = some m) (hl : l.temp = none) :
    Owners (x.withCon c { x.con c with m_pMySql := some m }) y gone closed (Function.update v t l)
      (Function.update w t .calm) := by
  have hhold : owner x (gone ++ closed) v (.inr t) = some m := htemp
  have hopen := (h.not_closed hhold).2
  have hsame : owner (x.withCon c { x.con c with m_pMySql := some m }) (gone ++ closed)
      (Function.update v t l) = Function.update
        (Function.update (owner x (gone ++ closed) v) (.inr t) none) (.inl c) (some m) := by
    funext k
    cases k with
    | inl d =>
      by_cases hd : d = c
      · subst hd
        rw [Function.update_self, owner_inl_eq (m := m) (by rw [Cons.withCon_self]), if_neg hopen]
      · rw [Function.update_of_ne (by simpa using hd), Function.update_of_ne (by simp)]
        simp only [owner, Cons.withCon_of_ne hd]
    | inr u =>
      rw [Function.update_of_ne (by simp)]
      by_cases hu : u = t
      · subst hu
        rw [Function.update_self]
        simp only [owner, Function.update_self, hl]
      · rw [Function.update_of_ne (by simpa using hu)]
        simp only [owner, Function.update_of_ne hu]
  have hothers : ∀ {u d}, u ≠ t → (v u).con = some d → d ≠ c := by
    rintro u d hu hd rfl
    exact hu (hI.unique hd hcon)
  refine h.move ?_ (fun d n hd hn => Or.inr ?_) nofun nofun nofun fun u d hut hu hd => ?_
  · obtain ⟨loc, hloc⟩ := h.located
    rw [hsame]
    refine ⟨_, (hloc.push hhold).pop ?_⟩
    rw [Function.update_of_ne (by simp)]
    exact h.ready t c ht hcon
  · have hdc : d ≠ c := by
      rintro rfl
      rw [Cons.withCon_self] at hd
      cases hd
      exact hopen hn
    rw [Cons.withCon_of_ne hdc] at hd
    obtain ⟨u, hu, hv⟩ := h.named d n hd hn
    refine ⟨u, ?_, hu, hv⟩
    rintro rfl
    exact hdc (Option.some.inj (hv.symm.trans hcon))
  · rw [hsame, Function.update_of_ne (by simpa using hothers hut hd),
      Function.update_of_ne (by simp)]
    exact h.ready u d hu hd

end

/-! ## One request -/

section

variable {rt : Runtime} {t : Tid} {o : Outcome} {s s' : State} {gone : List Nat} {hist : List Ev}
  {v : Tid → Hold} {w : Tid → Swap}

/-- A request on connections. -/
theorem Owners.con (h : Owners s.cons s.lib gone (closedHandles hist) v w)
    (hI : Inv s.cons s.lib v) {e : ConOp} {x : Cons} {r : e.Reply} (hm : (v t).may (.con e))
    (hw : (w t).may (.con e)) (he : s.cons.exec t e = some (x, some r)) :
    Owners x s.lib gone (closedHandles hist) (Function.update v t ((v t).next (.con e) r))
      (Function.update w t ((w t).next (.con e) r)) := by
  cases e with
  | getFreeCon =>
    have hx := fun c => Cons.exec_mysql (c := c) he (by simp)
    refine h.same ?_ hx rfl rfl rfl
    rw [show w t = .calm from hw]
    nofun
  | unLock c =>
    have hx := fun c => Cons.exec_mysql (c := c) he (by simp)
    have hcalm : w t = .calm := hw
    refine h.learn (by rw [hcalm]; nofun) hx rfl hm.2.1.symm ?_ ?_ ?_
    all_goals
      simp [Swap.next, hcalm]
  | getMySql c =>
    cases he
    cases hk : w t with
    | ready => exact absurd hk hw
    | calm => exact h.learn (by rw [hk]; nofun) (fun _ => rfl) rfl rfl nofun nofun nofun
    | made m =>
      refine h.learn hw (fun _ => rfl) rfl rfl (fun m' hm' => ?_) nofun nofun
      cases hm'
      exact h.made t m hk
    | linked m old =>
      have htemp := (h.linked t m old hk).1
      cases hread : (s.cons.con c).m_pMySql with
      | none =>
        refine h.learn hw (fun _ => rfl) rfl rfl ?_ ?_ fun d _ hd => ?_
        · simp [Swap.next]
        · simp [Swap.next]
        · obtain rfl : c = d := Option.some.inj ((show (v t).con = some c from hm).symm.trans hd)
          exact hread
      | some old' =>
        refine h.learn hw (fun _ => rfl) rfl rfl ?_ (fun m' old'' hm' => ?_) ?_
        · simp [Swap.next]
        · cases hm'
          exact ⟨htemp, fun _ hold => hold⟩
        · simp [Swap.next]
  | getParams c =>
    cases he
    exact h.same hw (fun _ => rfl) rfl rfl rfl
  | setMySql c m =>
    cases he
    obtain ⟨hcon, htemp, hsome, -⟩ := hm
    obtain ⟨m, rfl⟩ := Option.isSome_iff_exists.mp hsome
    exact h.store hI hw hcon htemp rfl
  | setParams c p => exact hm.elim

/-- A call of the library. -/
theorem Owners.lib (h : Owners s.cons s.lib gone (closedHandles hist) v w)
    (hI : Inv s.cons s.lib v) {e : LibOp} (hm : (v t).may (.lib e)) (hw : (w t).may (.lib e)) :
    Owners s.cons (s.lib.exec e o).1 gone
      (closedHandles (.reply t (.lib e) (s.lib.exec e o).2 :: hist))
      (Function.update v t ((v t).next (.lib e) (s.lib.exec e o).2))
      (Function.update w t ((w t).next (.lib e) (s.lib.exec e o).2)) := by
  have hsame : ∀ l : Hold, e ≠ .init → w t ≠ .ready → l.temp = (v t).temp →
      l.mysql = (v t).mysql → Owners s.cons (s.lib.exec e o).1 gone (closedHandles hist)
        (Function.update v t l) (Function.update w t (w t)) := fun l hinit hready htemp hmysql =>
    h.same hready (fun _ => rfl) (LibMySql.exec_handles hinit) htemp hmysql
  cases e with
  | init =>
    have hcalm : w t = .calm := hw
    have hready : w t ≠ .ready := by simp [hcalm]
    by_cases ho : o.ok = true
    · simp only [next, Swap.next, LibMySql.exec, ho, if_true]
      exact h.init hready hm.2.1 rfl
    · simp only [next, Swap.next, LibMySql.exec, ho]
      exact h.learn hready (fun _ => rfl) rfl hm.2.1.symm (by simp) (by simp) (by simp)
  | realConnect m p =>
    have hhandles := LibMySql.exec_handles (y := s.lib) (o := o) (e := .realConnect m p) (by simp)
    generalize s.lib.exec (.realConnect m p) o = y at hhandles ⊢
    obtain ⟨y, ok⟩ := y
    have htemp : ((v t).next (.lib (.realConnect m p)) ok).temp = (v t).temp ∧
        ((v t).next (.lib (.realConnect m p)) ok).mysql = (v t).mysql := by
      cases ok <;> exact ⟨rfl, rfl⟩
    cases hk : w t with
    | made m' =>
      have hmade := h.made t m' hk
      refine h.learn hw (fun _ => rfl) hhandles htemp.1 (fun n hn => ?_) (fun n old hn => ?_) ?_
      · cases ok with
        | true => cases hn
        | false =>
          cases hn
          exact hmade
      · cases ok with
        | true =>
          cases hn
          exact ⟨htemp.1.trans hmade, by simp⟩
        | false => cases hn
      · cases ok <;> simp [Swap.next]
    | _ =>
      have hkeep := h.same hw (fun _ => rfl) hhandles htemp.1 htemp.2
      rw [hk] at hkeep
      exact hkeep
  | close m =>
    rcases hw with hk | ⟨temp, hk⟩
    · have hclose := h.close_made hI hk
      rw [hk]
      exact hclose
    · have hclose := h.close_old hI hk
      rw [hk]
      exact hclose
  | setCharsetName m n => exact hm.elim
  | setReconnect m => exact hm.elim
  | _ => exact hsame _ (by simp) hw rfl rfl

/-- **Step lemma.** -/
theorem Owners.reply (h : Owners s.cons s.lib gone (closedHandles hist) v w)
    (hI : Inv s.cons s.lib v) {e : Op} {r : e.Reply} (hm : (v t).may e) (hw : (w t).may e)
    (he : exec rt t e o s = some (s', some r)) :
    Owners s'.cons s'.lib gone (closedHandles (.reply t e r :: hist))
      (Function.update v t ((v t).next e r)) (Function.update w t ((w t).next e r)) := by
  cases e with
  | con e =>
    obtain ⟨x, hx, rfl⟩ := exec_con he
    exact h.con hI hm hw hx
  | lib e =>
    obtain ⟨rfl, hr⟩ := exec_lib he
    cases hr
    exact h.lib hI hm hw
  | tp e =>
    obtain ⟨x, -, rfl⟩ := exec_tp he
    exact h.same hw (fun _ => rfl) rfl rfl rfl
  | task e =>
    obtain ⟨x, -, rfl⟩ := exec_task he
    exact h.same hw (fun _ => rfl) rfl rfl rfl
  | res e =>
    obtain ⟨x, -, rfl⟩ := exec_res he
    exact h.same hw (fun _ => rfl) rfl rfl rfl
  | rt e =>
    obtain ⟨x, -, rfl⟩ := exec_rt he
    exact h.same hw (fun _ => rfl) rfl rfl rfl

end

/-- Only `mysql_init` gives a thread a new handle. -/
theorem temp_next {l : Hold} {e : Op} {r : e.Reply} {m : Nat} (he : e ≠ .lib .init)
    (hm : (discipline.next l e r).temp = some m) : l.temp = some m := by
  cases e with
  | con e => cases e <;> first | exact hm | cases hm
  | lib e =>
    cases e with
    | init => exact absurd rfl he
    | realConnect h p => cases r <;> exact hm
    | close h =>
      by_cases ht : l.temp = some h
      · simp [next, ht] at hm
      · simpa [next, ht] using hm
    | _ => exact hm
  | _ => exact hm

/-! ## Runs -/

theorem swap_kept (rt : Runtime) (s₀ : State) :
    (machine rt).Kept okPool s₀ Swap.discipline .calm (fun _ _ => .calm) (fun _ _ l => l = .calm)
      fun _ _ => True where
  code _ c hc := code_replaces c hc
  init := trivial
  call _ _ _ _ _ _ _ _ := trivial
  wait _ _ _ _ _ _ _ _ _ := trivial
  reply _ _ _ _ _ _ _ _ _ _ := ⟨trivial, trivial⟩
  done _ _ _ _ _ _ _ := trivial

/-- The handles that no connection has before the run are `gone`. -/
def Gone (s₀ : State) (gone : List Nat) : Prop :=
  gone.Nodup ∧
    ∀ h, h ∈ gone ↔ h < s₀.lib.handles ∧ ∀ c, (s₀.cons.con c).m_pMySql ≠ some h

section

variable {rt : Runtime} {s₀ : State} {s : Sys} {gone : List Nat}

theorem owners_init (hpool : PoolOk s₀) (hgone : Gone s₀ gone) :
    Owners s₀.cons s₀.lib gone [] (fun _ => {}) fun _ => .calm := by
  obtain ⟨hnodup, hmem⟩ := hgone
  have hopen : ∀ {c h}, (s₀.cons.con c).m_pMySql = some h → h ∉ gone ++ [] := by
    intro c h hc hm
    rw [List.append_nil] at hm
    exact ((hmem h).mp hm).2 c hc
  classical
  let loc : Nat → Place (Nat ⊕ Tid) := fun h =>
    if hc : ∃ c, (s₀.cons.con c).m_pMySql = some h then .hands (.inl hc.choose) else .pool
  refine ⟨⟨loc, ?_, ?_, ?_, ?_, List.nodup_nil⟩, ?_, nofun, nofun, nofun⟩
  · intro h
    have hloc : loc h = .pool ↔ ∀ c, (s₀.cons.con c).m_pMySql ≠ some h := by
      by_cases hc : ∃ c, (s₀.cons.con c).m_pMySql = some h
      · simp only [loc, dif_pos hc, reduceCtorEq, false_iff, not_forall, not_not]
        exact hc
      · simp only [loc, dif_neg hc, true_iff]
        exact not_exists.mp hc
    rw [hloc, List.reverse_nil, List.append_nil]
    exact hmem h
  · intro h
    by_cases hc : ∃ c, (s₀.cons.con c).m_pMySql = some h <;> simp [loc, hc]
  · rintro (c | t) h
    · constructor
      · intro hh
        have hc : (s₀.cons.con c).m_pMySql = some h := by
          rw [owner, Option.filter_eq_some_iff] at hh
          exact hh.1
        refine ⟨hpool.fresh c h hc, ?_⟩
        have hex : ∃ c, (s₀.cons.con c).m_pMySql = some h := ⟨c, hc⟩
        simp only [loc, dif_pos hex, Place.hands.injEq, Sum.inl.injEq]
        exact hpool.distinct _ _ h hex.choose_spec hc
      · rintro ⟨-, hh⟩
        by_cases hex : ∃ c, (s₀.cons.con c).m_pMySql = some h
        · simp only [loc, dif_pos hex, Place.hands.injEq, Sum.inl.injEq] at hh
          have hc := hex.choose_spec
          rw [hh] at hc
          rw [owner_inl_eq hc, if_neg (hopen hc)]
        · simp [loc, hex] at hh
    · by_cases hc : ∃ c, (s₀.cons.con c).m_pMySql = some h <;> simp [loc, hc, owner]
  · simpa using hnodup
  · intro c h hc hm
    exact absurd hm (hopen hc)

theorem owners_reach (hpool : PoolOk s₀) (hgone : Gone s₀ gone)
    (hr : (machine rt).Reach okPool s₀ s) :
    Owners s.shared.cons s.shared.lib gone (closedHandles s.hist) (holdView s.hist)
      (swapView s.hist) := by
  induction hr with
  | init => exact owners_init hpool hgone
  | @step s s' l hr hl hs ih =>
    have hI := ((hold_kept rt hpool).holds hr).1
    cases Machine.step_cases hs with
    | @call t c ht _ =>
      have hnotrun : ∀ c p, s.thread t ≠ .running c p := by simp [ht]
      have hv := (hold_kept rt hpool).view_idle hr hnotrun
      have hw := (swap_kept rt s₀).view_idle hr hnotrun
      rw [holdView, Discipline.view_call, swapView, Discipline.view_call]
      exact ih.learn (by simp [swapView, hw]) (fun _ => rfl) rfl (by rw [holdView, hv]) (by simp)
        (by simp) (by simp)
    | wait _ he =>
      obtain ⟨i, hi⟩ := exec_wait he
      subst hi
      exact ⟨ih.located, ih.named, ih.made, ih.linked, ih.ready⟩
    | reply ht he =>
      have hm := (hold_kept rt hpool).may hr ht
      have hw := (swap_kept rt s₀).may hr ht
      rw [holdView, Discipline.view_reply, swapView, Discipline.view_reply]
      exact ih.reply hI hm hw he
    | @done t _ c a ht =>
      have hfinal := (hold_kept rt hpool).atReturn hr ht
      have hw := (swap_kept rt s₀).atReturn hr ht
      have hnothing := (hI.knows t).nothing hfinal
      rw [holdView, Discipline.view_done, swapView, Discipline.view_done]
      exact ih.learn (by simp [swapView, hw]) (fun _ => rfl) rfl hnothing.2.2.2.symm (by simp)
        (by simp) (by simp)

/-- A connection that has a handle is never left without one, and none is added to the pool. -/
theorem handles_stay (hpool : PoolOk s₀) (hr : (machine rt).Reach okPool s₀ s) :
    s.shared.cons.m_VectorCon = s₀.cons.m_VectorCon ∧
      ∀ c, (s₀.cons.con c).m_pMySql.isSome = true → (s.shared.cons.con c).m_pMySql.isSome = true := by
  induction hr with
  | init => exact ⟨rfl, fun _ hc => hc⟩
  | @step s s' l hr hl hs ih =>
    obtain ⟨hvector, hsome⟩ := ih
    cases Machine.step_cases hs with
    | call _ _ => exact ⟨hvector, hsome⟩
    | wait _ he =>
      obtain ⟨i, hi⟩ := exec_wait he
      subst hi
      exact ⟨hvector, hsome⟩
    | @reply t o c e k sh r ht he =>
      have hm : (holdView s.hist t).may e := (hold_kept rt hpool).may hr ht
      have he : exec rt t e o s.shared = some (sh, some r) := he
      rcases exec_cons he with hsame | ⟨d, q, rfl, hx⟩
      · rw [hsame]
        exact ⟨hvector, hsome⟩
      · refine ⟨(Cons.exec_vector hx).trans hvector, fun i hi => ?_⟩
        by_cases hset : ∃ d' m, d = .setMySql d' m
        · obtain ⟨d', m, rfl⟩ := hset
          rw [← (Prod.mk.inj (Option.some.inj hx)).1]
          by_cases hid : i = d'
          · -- `Reconnect` stores the handle it has made
            subst hid
            rw [Cons.withCon_self]
            exact hm.2.2.1
          · rw [Cons.withCon_of_ne hid]
            exact hsome i hi
        · rw [Cons.exec_mysql hx fun d' m hd => hset ⟨d', m, hd⟩]
          exact hsome i hi
    | done _ => exact ⟨hvector, hsome⟩

/-- What a thread has not known from the start, it has learnt from an answer of its present call. -/
theorem learnt_in_call {f : Hold → Option Nat} {P : (e : Op) → e.Reply → Prop} {k : Nat}
    (h0 : f {} ≠ some k)
    (hnext : ∀ (l : Hold) (e : Op) (r : e.Reply), f (l.next e r) = some k →
      f l = some k ∨ P e r) (h : List Ev) (t : Tid) (hk : f (holdView h t) = some k) :
    ∃ e r, (⟨e, r⟩ : Answer Op Op.Reply) ∈ callTrace t h ∧ P e r := by
  induction h with
  | nil => exact absurd hk h0
  | cons ev h ih =>
    cases ev with
    | call u c =>
      by_cases hu : t = u
      · subst hu
        simp only [holdView, Discipline.view, if_true] at hk
        exact absurd hk h0
      · rw [callTrace_call, if_neg (Ne.symm hu)]
        simp only [holdView, Discipline.view, if_neg hu] at hk
        exact ih hk
    | done u c a =>
      by_cases hu : t = u
      · subst hu
        simp only [holdView, Discipline.view, if_true] at hk
        exact absurd hk h0
      · rw [callTrace_done, if_neg (Ne.symm hu)]
        simp only [holdView, Discipline.view, if_neg hu] at hk
        exact ih hk
    | reply u e r =>
      by_cases hu : t = u
      · subst hu
        rw [callTrace_reply, if_pos rfl]
        simp only [holdView, Discipline.view, if_true] at hk
        rcases hnext _ e r hk with hbefore | hnow
        · obtain ⟨e', r', hmem, hP⟩ := ih hbefore
          exact ⟨e', r', List.mem_cons_of_mem _ hmem, hP⟩
        · exact ⟨e, r, List.mem_cons_self, hnow⟩
      · rw [callTrace_reply, if_neg (Ne.symm hu)]
        simp only [holdView, Discipline.view, if_neg hu] at hk
        exact ih hk

/-- A handle that a thread has made and not stored yet, it has made in its present call. -/
theorem temp_made (h : List Ev) (t : Tid) {m : Nat} (hm : (holdView h t).temp = some m) :
    (⟨.lib .init, some m⟩ : Answer Op Op.Reply) ∈ callTrace t h := by
  have hnext : ∀ (l : Hold) (e : Op) (r : e.Reply), (l.next e r).temp = some m →
      l.temp = some m ∨ (⟨e, r⟩ : Answer Op Op.Reply) = ⟨.lib .init, some m⟩ := by
    intro l e r hr
    by_cases hinit : e = .lib .init
    · subst hinit
      exact Or.inr (by rw [show r = some m from hr])
    · exact Or.inl (temp_next hinit hr)
  obtain ⟨e, r, hmem, he⟩ := learnt_in_call (by simp) hnext h t hm
  exact he ▸ hmem

/-- The handle that a thread calls the library with has an owner. -/
theorem owner_of_target (hpool : PoolOk s₀) (hgone : Gone s₀ gone)
    (hr : (machine rt).Reach okPool s₀ s) {t : Tid} {e : LibOp} {m : Nat}
    (hm : (holdView s.hist t).may (.lib e)) (hw : swapView s.hist t ≠ .ready)
    (ht : s.shared.lib.target e = some m) :
    ∃ k, owner s.shared.cons (gone ++ closedHandles s.hist) (holdView s.hist) k = some m := by
  have hI := ((hold_kept rt hpool).holds hr).1
  have hO := owners_reach hpool hgone hr
  have hk := hI.knows t
  rcases Hold.may_target hm ht with hmysql | ⟨st, hst, rfl⟩ | ⟨htemp, -⟩
  · obtain ⟨c, hcon, hc⟩ := hk.mysql m hmysql
    exact ⟨_, hO.own hI hw hcon hc⟩
  · obtain ⟨-, c, hcon, hc⟩ := hk.stmt st hst
    exact ⟨_, hO.own hI hw hcon hc⟩
  · exact ⟨.inr t, htemp⟩

end

/--
The handles in a state of a run. `once`: none has been closed twice. `used`: no thread calls the
library with a handle that is closed or has never been handed out, be it through a statement.
`stored`: an unlocked connection of the pool has a handle, which is open and that of no other.
`kept`: a handle that is open is that of a connection, or a thread has made it in its present call.
-/
structure HandlesOwned (gone : List Nat) (s : Sys) : Prop where
  once : (gone ++ (closedHandles s.hist).reverse).Nodup
  used : ∀ t c e h, (s.thread t).asking = some (c, .lib e) → s.shared.lib.target e = some h →
    h < s.shared.lib.handles ∧ h ∉ gone ++ closedHandles s.hist
  stored : ∀ c ∈ s.shared.cons.m_VectorCon, (s.shared.cons.con c).cs = .free →
    ∃ h < s.shared.lib.handles, (s.shared.cons.con c).m_pMySql = some h ∧
      h ∉ gone ++ closedHandles s.hist ∧ ∀ d, (s.shared.cons.con d).m_pMySql = some h → d = c
  kept : ∀ h < s.shared.lib.handles, h ∉ gone ++ closedHandles s.hist →
    (∃ c, (s.shared.cons.con c).m_pMySql = some h) ∨
      ∃ t, (⟨.lib .init, some h⟩ : Answer Op Op.Reply) ∈ callTrace t s.hist

/--
**Every handle has one owner.** For any number of connections, each of which has a handle at the
start, any clients and workers, in all interleavings, and whatever the server answers: no `MYSQL`
handle is used after it has been closed, none is closed twice, none is lost, and no unlocked
connection of the pool is without one.
-/
theorem handles_owned {rt : Runtime} {s₀ : State} (hpool : PoolOk s₀)
    (hmysql : ∀ c ∈ s₀.cons.m_VectorCon, (s₀.cons.con c).m_pMySql.isSome = true) {gone : List Nat}
    (hgone : Gone s₀ gone) {s : Sys} (hr : (machine rt).Reach okPool s₀ s) :
    HandlesOwned gone s := by
  have hI := ((hold_kept rt hpool).holds hr).1
  have hO := owners_reach hpool hgone hr
  obtain ⟨loc, hloc⟩ := hO.located
  refine ⟨hloc.pool_nodup, fun t c e h hask ht => ?_, fun c hin hfree => ?_, fun h hlt hopen => ?_⟩
  · obtain ⟨k, hrun⟩ := Thread.asking_eq_some hask
    have hm := (hold_kept rt hpool).may hr hrun
    have hw : (swapView s.hist t).may (.lib e) := (swap_kept rt s₀).may hr hrun
    obtain ⟨k, hk⟩ := owner_of_target hpool hgone hr hm (Swap.ne_ready hw) ht
    exact hO.not_closed hk
  · obtain ⟨hvector, hsome⟩ := handles_stay hpool hr
    rw [hvector] at hin
    obtain ⟨h, hc⟩ := Option.isSome_iff_exists.mp (hsome c (hmysql c hin))
    refine ⟨h, hI.fresh c h hc, hc, fun hm => ?_, fun d hd => hI.distinct d c h hd hc⟩
    -- only while a thread replaces it, which has locked the connection, the handle is closed
    obtain ⟨u, -, hu⟩ := hO.named c h hc hm
    rw [(hI.lock u c).mp hu] at hfree
    cases hfree
  · cases hat : loc h with
    | pool =>
      have hm := (hloc.pool h).mpr ⟨hlt, hat⟩
      exact absurd (by simpa using hm) hopen
    | queue => exact absurd ((hloc.queued h).mpr ⟨hlt, hat⟩) List.not_mem_nil
    | hands k =>
      have hk := (hloc.hands k h).mpr ⟨hlt, hat⟩
      cases k with
      | inl c =>
        rw [owner, Option.filter_eq_some_iff] at hk
        exact Or.inl ⟨c, hk.1⟩
      | inr t => exact Or.inr ⟨t, temp_made s.hist t hk⟩

/-- With one connection, connected, no handle is gone. -/
theorem gone_small : Gone (.small 1 0) [] := by
  refine ⟨List.nodup_nil, fun h => ?_⟩
  simp only [List.not_mem_nil, false_iff, not_and, not_forall, not_not]
  intro hlt
  obtain rfl : h = 0 := Nat.lt_one_iff.mp hlt
  exact ⟨0, rfl⟩

/-- A connection that has been lost and brought back: handle 0 is closed, and handle 1 is its own. -/
theorem handles_owned_lost : ∃ s : Sys, closedHandles s.hist = [0] ∧
    (s.shared.cons.con 0).m_pMySql = some 1 ∧ HandlesOwned [] s := by
  let next : Label Tid Call Outcome := .act (.client 0) {}
  have hrun : ((machine .standard).run
      ([.call (.client 0) (.query [97] []), next, next, next,
        .act (.client 0) { ok := false, number := 2013 }, next, next, next,
        .act (.client 0) { number := 2013 }] ++ List.replicate 6 next)
      (.init (.small 1 0))).map (fun s => (closedHandles s.hist,
        (s.shared.cons.con 0).m_pMySql)) = some ([0], some 1) := by
    decide +kernel
  obtain ⟨s, hs, hl⟩ := Option.map_eq_some_iff.mp hrun
  obtain ⟨hclosed, hmysql⟩ := Prod.mk.inj hl
  have hr : (machine .standard).Reach okPool (.small 1 0) s := by
    refine Machine.Reach.init.run ?_ hs
    simp [Machine.Allowed, next, Call.usesPool]
  refine ⟨s, hclosed, hmysql, handles_owned (poolOk_started _ _ _ _ _) (by decide) gone_small hr⟩

/-! ## Statements -/

/-- The statements that have been closed, the latest first. -/
def closedStmts : List Ev → List Nat
  | [] => []
  | .reply _ (.lib (.stmtClose st)) _ :: hist => st :: closedStmts hist
  | _ :: hist => closedStmts hist

theorem closedStmts_reply {t : Tid} {e : Op} {r : e.Reply} {hist : List Ev}
    (he : ∀ st, e ≠ .lib (.stmtClose st)) :
    closedStmts (.reply t e r :: hist) = closedStmts hist := by
  cases e with
  | lib e => cases e <;> first | exact absurd rfl (he _) | rfl
  | _ => rfl

/-- The statement a call works on. -/
def LibOp.statement : LibOp → Option Nat
  | stmtPrepare st _ => some st
  | stmtParamCount st => some st
  | stmtBindParam st _ => some st
  | stmtExecute st => some st
  | stmtClose st => some st
  | _ => none

/-- It is the thread's own. -/
theorem stmt_of_statement {l : Hold} {e : LibOp} {st : Nat} (hm : l.may (.lib e))
    (he : e.statement = some st) : l.stmt = some st := by
  cases e <;> cases he <;> exact hm.2

/-- Of the other requests none changes the statement a thread has. -/
theorem stmt_next {l : Hold} {e : Op} {r : e.Reply} (hm : l.may e)
    (h1 : ∀ h, e ≠ .lib (.stmtInit h)) (h2 : ∀ st, e ≠ .lib (.stmtClose st)) :
    (l.next e r).stmt = l.stmt := by
  cases e with
  | con e =>
    cases e with
    | unLock c => exact hm.2.2.symm
    | _ => rfl
  | lib e =>
    cases e with
    | stmtInit h => exact absurd rfl (h1 h)
    | stmtClose st => exact absurd rfl (h2 st)
    | realConnect h p => cases r <;> rfl
    | close h => by_cases ht : l.temp = some h <;> simp [next, ht]
    | _ => rfl
  | _ => rfl

/-- Each statement is closed, or a thread has it; those before the run are `old`. -/
def StmtsAt (y : LibMySql) (old : Nat) (closed : List Nat) (v : Tid → Hold) : Prop :=
  ∃ loc, Located loc y.stmts (List.range old ++ closed.reverse) [] fun t => (v t).stmt

theorem stmt_update (v : Tid → Hold) (t : Tid) (l : Hold) :
    (fun u => (Function.update v t l u).stmt) = Function.update (fun u => (v u).stmt) t l.stmt := by
  funext u
  by_cases hu : u = t
  · subst hu
    rw [Function.update_self, Function.update_self]
  · rw [Function.update_of_ne hu, Function.update_of_ne hu]

theorem StmtsAt.same {y y' : LibMySql} {old : Nat} {closed : List Nat} {v : Tid → Hold} {t : Tid}
    {l : Hold} (h : StmtsAt y old closed v) (hy : y'.stmts = y.stmts) (hl : l.stmt = (v t).stmt) :
    StmtsAt y' old closed (Function.update v t l) := by
  obtain ⟨loc, hloc⟩ := h
  refine ⟨loc, ?_⟩
  rw [stmt_update, hl, hy]
  rwa [show Function.update (fun u => (v u).stmt) t (v t).stmt = fun u => (v u).stmt from
    Function.update_eq_self t _]

section

variable {rt : Runtime} {t : Tid} {o : Outcome} {s s' : State} {old : Nat} {hist : List Ev}
  {v : Tid → Hold}

/-- **Step lemma.** -/
theorem StmtsAt.reply (h : StmtsAt s.lib old (closedStmts hist) v) {e : Op} {r : e.Reply}
    (hm : (v t).may e) (he : exec rt t e o s = some (s', some r)) :
    StmtsAt s'.lib old (closedStmts (.reply t e r :: hist))
      (Function.update v t ((v t).next e r)) := by
  by_cases hinit : ∃ h, e = .lib (.stmtInit h)
  · obtain ⟨m, rfl⟩ := hinit
    obtain ⟨rfl, hr⟩ := exec_lib he
    cases hr
    obtain ⟨loc, hloc⟩ := h
    unfold StmtsAt
    rw [stmt_update, closedStmts_reply (by simp)]
    by_cases ho : o.ok = true
    · simp only [next, LibMySql.exec, ho, if_true]
      exact ⟨_, hloc.hatch hm.2.2⟩
    · simp only [next, LibMySql.exec, ho, Bool.false_eq_true, if_false]
      have hnone : (fun u => (v u).stmt) = Function.update (fun u => (v u).stmt) t none :=
        (Function.update_eq_self_iff.mpr hm.2.2.symm).symm
      rw [hnone] at hloc
      exact ⟨loc, hloc⟩
  · by_cases hclose : ∃ st, e = .lib (.stmtClose st)
    · obtain ⟨st, rfl⟩ := hclose
      obtain ⟨rfl, hr⟩ := exec_lib he
      cases hr
      obtain ⟨loc, hloc⟩ := h
      unfold StmtsAt
      rw [stmt_update, LibMySql.exec_stmts (by simp)]
      show ∃ loc, Located loc s.lib.stmts (List.range old ++ (st :: closedStmts hist).reverse) []
        (Function.update (fun u => (v u).stmt) t none)
      rw [List.reverse_cons, ← List.append_assoc]
      exact ⟨_, hloc.give hm.2⟩
    · have h1 : ∀ m, e ≠ .lib (.stmtInit m) := fun m hm => hinit ⟨m, hm⟩
      have h2 : ∀ st, e ≠ .lib (.stmtClose st) := fun st hst => hclose ⟨st, hst⟩
      rw [closedStmts_reply h2]
      refine h.same ?_ (stmt_next hm h1 h2)
      cases e with
      | lib e =>
        obtain ⟨rfl, -⟩ := exec_lib he
        exact LibMySql.exec_stmts fun m hm => h1 m (congrArg Op.lib hm)
      | con e =>
        obtain ⟨x, -, rfl⟩ := exec_con he
        rfl
      | tp e =>
        obtain ⟨x, -, rfl⟩ := exec_tp he
        rfl
      | task e =>
        obtain ⟨x, -, rfl⟩ := exec_task he
        rfl
      | res e =>
        obtain ⟨x, -, rfl⟩ := exec_res he
        rfl
      | rt e =>
        obtain ⟨x, -, rfl⟩ := exec_rt he
        rfl

end

section

variable {rt : Runtime} {s₀ : State} {s : Sys}

theorem stmtsAt_reach (hpool : PoolOk s₀) (hr : (machine rt).Reach okPool s₀ s) :
    StmtsAt s.shared.lib s₀.lib.stmts (closedStmts s.hist) (holdView s.hist) := by
  induction hr with
  | init =>
    have hinit := Located.init (ι := Tid) s₀.lib.stmts List.nodup_range
      fun k => List.mem_range (n := s₀.lib.stmts)
    exact ⟨_, (List.append_nil (List.range s₀.lib.stmts)).symm ▸ hinit⟩
  | @step s s' l hr hl hs ih =>
    have hI := ((hold_kept rt hpool).holds hr).1
    cases Machine.step_cases hs with
    | @call t c ht _ =>
      have hv := (hold_kept rt hpool).view_idle hr (t := t) (by simp [ht])
      rw [holdView, Discipline.view_call]
      exact ih.same rfl (by rw [holdView, hv])
    | wait _ he =>
      obtain ⟨i, hi⟩ := exec_wait he
      subst hi
      exact ih
    | reply ht he =>
      rw [holdView, Discipline.view_reply]
      exact ih.reply ((hold_kept rt hpool).may hr ht) he
    | done ht =>
      have hnothing := (hI.knows _).nothing ((hold_kept rt hpool).atReturn hr ht)
      rw [holdView, Discipline.view_done]
      exact ih.same rfl hnothing.2.2.1.symm

/-- A statement that a thread has open, it has made in its present call. -/
theorem stmt_made (h : List Ev) (t : Tid) {st : Nat} (hst : (holdView h t).stmt = some st) :
    ∃ m, (⟨.lib (.stmtInit m), some st⟩ : Answer Op Op.Reply) ∈ callTrace t h := by
  have hnext : ∀ (l : Hold) (e : Op) (r : e.Reply), (l.next e r).stmt = some st →
      l.stmt = some st ∨ ∃ m, (⟨e, r⟩ : Answer Op Op.Reply) = ⟨.lib (.stmtInit m), some st⟩ := by
    intro l e r hr
    cases e with
    | con e =>
      cases e with
      | unLock c => cases hr
      | _ => exact Or.inl hr
    | lib e =>
      cases e with
      | stmtInit m => exact Or.inr ⟨m, by rw [show r = some st from hr]⟩
      | stmtClose st => cases hr
      | realConnect h p => cases r <;> exact Or.inl hr
      | close h => exact Or.inl (by by_cases ht : l.temp = some h <;> simpa [next, ht] using hr)
      | _ => exact Or.inl hr
    | _ => exact Or.inl hr
  obtain ⟨e, r, hmem, m, he⟩ := learnt_in_call (by simp) hnext h t hst
  exact ⟨m, he ▸ hmem⟩

/-- A statement that a thread has open is not closed, and is one of the run's own. -/
theorem stmt_open (hpool : PoolOk s₀) (hr : (machine rt).Reach okPool s₀ s) {t : Tid} {st : Nat}
    (hst : (holdView s.hist t).stmt = some st) :
    s₀.lib.stmts ≤ st ∧ st < s.shared.lib.stmts ∧ st ∉ closedStmts s.hist := by
  obtain ⟨loc, hloc⟩ := stmtsAt_reach hpool hr
  obtain ⟨hlt, hat⟩ := (hloc.hands t st).mp hst
  have hclosed : st ∉ List.range s₀.lib.stmts ++ (closedStmts s.hist).reverse := by
    intro hm
    rw [hloc.pool, hat] at hm
    cases hm.2
  simp only [List.mem_append, List.mem_range, List.mem_reverse, not_or, not_lt] at hclosed
  exact ⟨hclosed.1, hlt, hclosed.2⟩

end

/--
The statements in a state of a run. `once`: none has been closed twice. `used`: a thread calls the
library only with a statement that is open, of the run's own, and on a handle that is open. `kept`:
a statement of the run that is not closed, a thread has made in its present call.
-/
structure StatementsOwned (old : Nat) (gone : List Nat) (s : Sys) : Prop where
  once : (closedStmts s.hist).Nodup
  used : ∀ t c e st, (s.thread t).asking = some (c, .lib e) → e.statement = some st →
    old ≤ st ∧ st < s.shared.lib.stmts ∧ st ∉ closedStmts s.hist ∧
      (s.shared.lib.stmt st).mysql ∉ gone ++ closedHandles s.hist
  kept : ∀ st, old ≤ st → st < s.shared.lib.stmts → st ∉ closedStmts s.hist →
    ∃ t m, (⟨.lib (.stmtInit m), some st⟩ : Answer Op Op.Reply) ∈ callTrace t s.hist

/--
**Every statement has one owner**, the call that made it: no `MYSQL_STMT` is used after it has been
closed or after its handle has been, none is closed twice, and none outlives its call.
-/
theorem statements_owned {rt : Runtime} {s₀ : State} (hpool : PoolOk s₀) {gone : List Nat}
    (hgone : Gone s₀ gone) {s : Sys} (hr : (machine rt).Reach okPool s₀ s) :
    StatementsOwned s₀.lib.stmts gone s := by
  have hI := ((hold_kept rt hpool).holds hr).1
  obtain ⟨loc, hloc⟩ := stmtsAt_reach hpool hr
  refine ⟨?_, fun t c e st hask he => ?_, fun st hold hlt hopen => ?_⟩
  · exact List.nodup_reverse.mp (List.nodup_append.mp hloc.pool_nodup).2.1
  · obtain ⟨k, hrun⟩ := Thread.asking_eq_some hask
    have hm := (hold_kept rt hpool).may hr hrun
    have hw : (swapView s.hist t).may (.lib e) := (swap_kept rt s₀).may hr hrun
    have hst := stmt_of_statement hm he
    obtain ⟨h1, h2, h3⟩ := stmt_open hpool hr hst
    have htarget : s.shared.lib.target e = some (s.shared.lib.stmt st).mysql := by
      cases e <;> cases he <;> rfl
    obtain ⟨j, hj⟩ := owner_of_target hpool hgone hr hm (Swap.ne_ready hw) htarget
    exact ⟨h1, h2, h3, ((owners_reach hpool hgone hr).not_closed hj).2⟩
  · cases hat : loc st with
    | pool =>
      have hm := (hloc.pool st).mpr ⟨hlt, hat⟩
      simp only [List.mem_append, List.mem_range, List.mem_reverse] at hm
      rcases hm with hm | hm
      · exact absurd hm (by omega)
      · exact absurd hm hopen
    | queue => exact absurd ((hloc.queued st).mpr ⟨hlt, hat⟩) List.not_mem_nil
    | hands t => exact ⟨t, stmt_made s.hist t ((hloc.hands t st).mpr ⟨hlt, hat⟩)⟩

/-- A statement that could not be prepared, about to be closed. -/
theorem statements_owned_unprepared : ∃ s : Sys, closedStmts s.hist = [] ∧
    (s.thread (.client 0)).asking.map Prod.snd = some (.lib (.stmtClose 0)) ∧
    StatementsOwned 0 [] s := by
  let next : Label Tid Call Outcome := .act (.client 0) {}
  have hrun : ((machine .standard).run
      ([.call (.client 0) (.queryBlob [97] (some [])), next, next, next, next,
        .act (.client 0) { ok := false, number := 1064 }] ++ List.replicate 8 next)
      (.init (.small 1 0))).map (fun s => (closedStmts s.hist,
        (s.thread (.client 0)).asking.map Prod.snd)) = some ([], some (.lib (.stmtClose 0))) := by
    decide +kernel
  obtain ⟨s, hs, hl⟩ := Option.map_eq_some_iff.mp hrun
  obtain ⟨hclosed, hask⟩ := Prod.mk.inj hl
  have hr : (machine .standard).Reach okPool (.small 1 0) s := by
    refine Machine.Reach.init.run ?_ hs
    simp [Machine.Allowed, next, Call.usesPool]
  refine ⟨s, hclosed, hask, statements_owned (poolOk_started _ _ _ _ _) gone_small hr⟩

end XeMySql
