import XeMySql.CPool
import XeMySql.LibMySql
import XeMySql.Lib.Printf
import XeMySql.Lib.Sequence

/-!
# The state of `CXEMySql` and the requests of its code

The program's objects (`xeMySql.h`): connections, tasks and results, and the thread pool. Its code
makes the requests `Op`, grouped by the part of the state they touch:

* `.tp` — the thread pool (`ThreadPool.lean`)
* `.task` — the task pool and the tasks
* `.con` — the pooled connections and their locks
* `.lib` — libmysql (`LibMySql.lean`)
* `.res` — result objects
* `.rt` — the C runtime and the log
-/

namespace XeMySql

open Interact

/-! ## Tasks -/

/-- `class DB_BLOB`: for each parameter the address of its bytes, their number, and the address
of that number. -/
structure BlobParam where
  pData : Nat
  dwLen : Nat
  pLen : Nat
deriving DecidableEq

/-- `class DB_BLOB`; `m_wParamcount` is the length of the list. -/
abbrev DB_BLOB := List BlobParam

/-- `class CXEMySqlTask`: the 256 bytes of `szQuery`, followed by the 4 bytes of `m_pData`. -/
structure CXEMySqlTask where
  bytes : Bytes
deriving DecidableEq

namespace CXEMySqlTask

/-- `CXEMySqlTask::Init`, and what the constructor leaves. -/
def init : CXEMySqlTask := ⟨List.replicate 260 0⟩

/-- The pointer `m_pData`, stored with its low byte first; `none` is NULL. -/
def m_pData (t : CXEMySqlTask) : Option Nat :=
  let p := (t.bytes.drop 256).foldr (fun b n => b.toNat + 256 * n) 0
  if p = 0 then none else some p

/-- `szQuery` read as a C string. Without a NUL in the task, reading goes on in the memory after
it. -/
def szQuery (t : CXEMySqlTask) (after : Bytes) : Bytes := CString.cstr (t.bytes ++ after)

/-- `strncpy (szQuery, src, n)` -/
def copyQuery (t : CXEMySqlTask) (src : Bytes) (n : Nat) : CXEMySqlTask :=
  ⟨CString.strncpy t.bytes src n⟩

/-- A cleared task into which `q` has been copied. -/
def holding (q : Bytes) : CXEMySqlTask := ⟨q ++ List.replicate (260 - q.length) 0⟩

theorem copyQuery_init {q : Bytes} (h : q.length ≤ 260) : init.copyQuery q q.length = holding q := by
  unfold copyQuery init holding
  rw [CString.strncpy_zeroed q h]

/-- It is read as `q`, and not beyond the task. -/
theorem szQuery_holding {q : Bytes} (hq : CString.NulFree q) (h : q.length < 260) (after : Bytes) :
    (holding q).szQuery after = q := by
  unfold szQuery holding
  exact CString.cstr_zeroed hq h after

/-- `m_pData` stays NULL. -/
theorem m_pData_holding {q : Bytes} (h : q.length ≤ 256) : (holding q).m_pData = none := by
  have hd : (holding q).bytes.drop 256 = List.replicate 4 0 := by
    unfold holding
    rw [List.drop_append, List.drop_of_length_le h, List.nil_append, List.drop_replicate]
    congr 1
    omega
  unfold m_pData
  rw [hd]
  rfl

end CXEMySqlTask

/-- The task pool, the tasks, and the `DB_BLOB` objects tasks can point to. -/
structure Jobs where
  pool : CPool
  task : Nat → CXEMySqlTask
  blob : Nat → Option DB_BLOB

/-- Accesses to the task pool and to tasks. -/
inductive TaskOp where
  | alloc
  | free (k : Nat)
  | init (k : Nat)
  | strncpy (k : Nat) (src : Bytes) (n : Nat)
  | getData (k : Nat)
  | getQuery (k : Nat)
  | deref (p : Nat)
deriving DecidableEq

/-- The answers. -/
abbrev TaskOp.Reply : TaskOp → Type
  | alloc => Nat
  | getData _ => Option Nat
  | getQuery _ => Bytes
  | deref _ => DB_BLOB
  | _ => Unit

namespace Jobs

/-- Task `k` becomes `t`. -/
def withTask (s : Jobs) (k : Nat) (t : CXEMySqlTask) : Jobs :=
  { s with task := Function.update s.task k t }

/-- `Alloc`: the tasks made by `new` are constructed, then the front of the list is taken. -/
def alloc (s : Jobs) : Option (Jobs × Nat) :=
  s.pool.alloc.map fun (k, pool) =>
    ({ s with
      pool := pool
      task := fun i => if s.pool.created ≤ i ∧ i < pool.created then .init else s.task i }, k)

/-- Carry out a request on tasks. -/
def exec : (e : TaskOp) → Outcome → Jobs → Option (Jobs × Option e.Reply)
  | .alloc, _, s => s.alloc.map fun (s', k) => (s', some k)
  | .free k, _, s => some ({ s with pool := s.pool.free k }, some ())
  | .init k, _, s => some (s.withTask k .init, some ())
  | .strncpy k src n, _, s => some (s.withTask k ((s.task k).copyQuery src n), some ())
  | .getData k, _, s => some (s, some (s.task k).m_pData)
  | .getQuery k, o, s => some (s, some ((s.task k).szQuery o.text))
  | .deref p, _, s => (s.blob p).map fun d => (s, some d)

end Jobs

/-! ## Connections -/

/-- `class CXEMySqlCon`; `params` are `m_szHostName`, `m_szUserName`, `m_szPassword`,
`m_szDatabaseName` and `m_nPort`. -/
structure CXEMySqlCon where
  m_pMySql : Option Nat := none
  cs : Lock Tid := .free
  params : ConnParams := ⟨[], [], [], [], 3306⟩

/-- The connections, and the variable `i` of every thread's `GetFreeCon`. -/
structure Cons where
  m_VectorCon : List Nat
  con : Nat → CXEMySqlCon
  i : Tid → Nat

/-- Accesses to connections. -/
inductive ConOp where
  | getFreeCon
  | unLock (c : Nat)
  | getMySql (c : Nat)
  | setMySql (c : Nat) (h : Option Nat)
  | getParams (c : Nat)
  | setParams (c : Nat) (p : ConnParams)
deriving DecidableEq

/-- The answers. -/
abbrev ConOp.Reply : ConOp → Type
  | getFreeCon => Option Nat
  | getMySql _ => Option Nat
  | getParams _ => ConnParams
  | _ => Unit

namespace Cons

/-- Connection `c` becomes `x`. -/
def withCon (s : Cons) (c : Nat) (x : CXEMySqlCon) : Cons :=
  { s with con := Function.update s.con c x }

@[simp] theorem withCon_self (s : Cons) (c : Nat) (x : CXEMySqlCon) : (s.withCon c x).con c = x :=
  Function.update_self ..

theorem withCon_of_ne {c d : Nat} (hd : d ≠ c) (s : Cons) (x : CXEMySqlCon) :
    (s.withCon c x).con d = s.con d :=
  Function.update_of_ne hd ..

/-- One round of the loop in `CXEMySql::GetFreeCon`: the connection at `i % nCount` is tried, and
`i`, of 32 bits, counted up when it is busy. `none` when `at` throws. -/
def probe (t : Tid) (s : Cons) : Option (Cons × Option Nat) :=
  s.m_VectorCon[s.i t % s.m_VectorCon.length]?.map fun c =>
    match (s.con c).cs.tryEnter t with
    | some l =>
      ({ s.withCon c { s.con c with cs := l } with i := Function.update s.i t 0 }, some c)
    | none => ({ s with i := Function.update s.i t ((s.i t + 1) % 2 ^ 32) }, none)

/-- Carry out a request of thread `t` on connections. `GetFreeCon` goes on until it has found a
free one. -/
def exec (t : Tid) : (e : ConOp) → Cons → Option (Cons × Option e.Reply)
  | .getFreeCon, s =>
    if s.m_VectorCon.length = 0 then some (s, some (none : Option Nat))
    else (s.probe t).map fun (s', c) => (s', c.map (some ·))
  | .unLock c, s =>
    ((s.con c).cs.leave t).map fun l => (s.withCon c { s.con c with cs := l }, some ())
  | .getMySql c, s => some (s, some (s.con c).m_pMySql)
  | .setMySql c h, s => some (s.withCon c { s.con c with m_pMySql := h }, some ())
  | .getParams c, s => some (s, some (s.con c).params)
  | .setParams c p, s => some (s.withCon c { s.con c with params := p }, some ())

end Cons

/-! ## Results -/

/-- A row that `mysql_fetch_row` has delivered: its result set and its number. -/
structure RowPtr where
  res : Nat
  row : Nat
deriving DecidableEq

/-- `class CXEMySqlResult`; the field array is named by its result set. -/
structure CXEMySqlResult where
  m_pRes : Option Nat := none
  m_pRecords : Option Nat := none
  m_pRow : Option RowPtr := none
  m_pFields : Option Nat := none
  m_pLengths : Option RowPtr := none
  m_dwFieldCnt : Int := 0
deriving DecidableEq

/-- `CXEMySqlResult::SetRes` -/
def CXEMySqlResult.setRes (nCount : Int) (pRes : Option Nat) (x : CXEMySqlResult) :
    CXEMySqlResult :=
  { x with m_dwFieldCnt := nCount, m_pRes := pRes }

/-- The result objects, numbered in the order of their construction; `none` has been destroyed. -/
structure Results where
  objs : Nat := 0
  obj : Nat → Option CXEMySqlResult := fun _ => none

/-- Accesses to result objects. -/
inductive ResOp where
  | construct
  | setRes (x : Nat) (nCount : Int) (pRes : Option Nat)
  | getRecords (x : Nat)
  | destroy (x : Nat)
deriving DecidableEq

/-- The answers. -/
abbrev ResOp.Reply : ResOp → Type
  | construct => Nat
  | getRecords _ => Option Nat
  | _ => Unit

/-- Carry out a request on result objects; a destroyed object must not be touched. -/
def Results.exec : (e : ResOp) → Results → Option (Results × Option e.Reply)
  | .construct, s =>
    some ({ objs := s.objs + 1, obj := Function.update s.obj s.objs (some {}) }, some s.objs)
  | .setRes x n r, s =>
    (s.obj x).map fun y => ({ s with obj := Function.update s.obj x (some (y.setRes n r)) }, some ())
  | .getRecords x, s => (s.obj x).map fun y => (s, some y.m_pRecords)
  | .destroy x, s =>
    (s.obj x).map fun _ => ({ s with obj := Function.update s.obj x none }, some ())

/-! ## The C runtime -/

/--
The C runtime: how conversions are rendered, and how many characters of a longer text
`vsnprintf` with count `n` keeps (`n - 1` in the standard, `n` in the Windows runtime of the time).
-/
structure Runtime where
  conv : Printf.Conversions
  keeps : Nat → Nat
  pred_le_keeps : ∀ n, n - 1 ≤ keeps n
  keeps_le : ∀ n, keeps n ≤ n

/-- Calls of the C runtime and of the log, and a crash. -/
inductive RtOp where
  | vsnprintf (n : Nat) (fmt : Bytes) (args : List Printf.Arg)
  | newBinds (n : Nat)
  | deleteBinds (a : Nat)
  | outPutDBStr (s : Bytes)
  | outPutDBError (fmt : Bytes) (args : List Printf.Arg)
  | crash
deriving DecidableEq

/-- The answers; a crash has none. -/
abbrev RtOp.Reply : RtOp → Type
  | vsnprintf _ _ _ => Bytes
  | newBinds _ => Nat
  | crash => Empty
  | _ => Unit

/-- Carry out a request to the runtime. Where printf is undefined, so is what the buffer holds;
the heap has handed out `heap` arrays so far. -/
def RtOp.exec (rt : Runtime) : (e : RtOp) → Outcome → Nat → Option (Nat × Option e.Reply)
  | .vsnprintf n fmt args, o, heap =>
    match Printf.format rt.conv fmt args with
    | some text => some (heap, some (text.take (rt.keeps n)))
    | none => some (heap, some o.text)
  | .newBinds _, _, heap => some (heap + 1, some heap)
  | .deleteBinds _, _, heap => some (heap, some ())
  | .outPutDBStr _, _, heap => some (heap, some ())
  | .outPutDBError _ _, _, heap => some (heap, some ())
  | .crash, _, _ => none

/-! ## All of it -/

/-- The requests of the program. -/
inductive Op where
  | tp (e : TPOp Nat)
  | task (e : TaskOp)
  | con (e : ConOp)
  | lib (e : LibOp)
  | res (e : ResOp)
  | rt (e : RtOp)
deriving DecidableEq

/-- The answers. -/
abbrev Op.Reply : Op → Type
  | tp e => e.Reply
  | task e => e.Reply
  | con e => e.Reply
  | lib e => e.Reply
  | res e => e.Reply
  | rt e => e.Reply

/-- The state of the program and of the libraries it uses. -/
structure State where
  tp : ThreadPool Nat
  jobs : Jobs
  cons : Cons
  lib : LibMySql
  results : Results
  heap : Nat

/-- Carry out a request of thread `t`. -/
def exec (rt : Runtime) (t : Tid) : (e : Op) → Outcome → State → Option (State × Option e.Reply)
  | .tp e, o, s => (s.tp.exec t e o).map fun (x, r) => ({ s with tp := x }, r)
  | .task e, o, s => (s.jobs.exec e o).map fun (x, r) => ({ s with jobs := x }, r)
  | .con e, _, s => (s.cons.exec t e).map fun (x, r) => ({ s with cons := x }, r)
  | .lib e, o, s =>
    let (x, r) := s.lib.exec e o
    some ({ s with lib := x }, some r)
  | .res e, _, s => (s.results.exec e).map fun (x, r) => ({ s with results := x }, r)
  | .rt e, o, s => (e.exec rt o s.heap).map fun (x, r) => ({ s with heap := x }, r)

/-! ## Each request touches its own part of the state -/

section

variable {rt : Runtime} {t : Tid} {o : Outcome} {s s' : State}

theorem exec_tp {e : TPOp Nat} {r : Option e.Reply} (h : exec rt t (.tp e) o s = some (s', r)) :
    ∃ x, s.tp.exec t e o = some (x, r) ∧ s' = { s with tp := x } := by
  obtain ⟨⟨x, r'⟩, he, hr⟩ := Option.map_eq_some_iff.mp h
  cases hr
  exact ⟨x, he, rfl⟩

theorem exec_task {e : TaskOp} {r : Option e.Reply} (h : exec rt t (.task e) o s = some (s', r)) :
    ∃ x, s.jobs.exec e o = some (x, r) ∧ s' = { s with jobs := x } := by
  obtain ⟨⟨x, r'⟩, he, hr⟩ := Option.map_eq_some_iff.mp h
  cases hr
  exact ⟨x, he, rfl⟩

theorem exec_con {e : ConOp} {r : Option e.Reply} (h : exec rt t (.con e) o s = some (s', r)) :
    ∃ x, s.cons.exec t e = some (x, r) ∧ s' = { s with cons := x } := by
  obtain ⟨⟨x, r'⟩, he, hr⟩ := Option.map_eq_some_iff.mp h
  cases hr
  exact ⟨x, he, rfl⟩

/-- An access to a connection that is answered at once. -/
theorem exec_con_eq {e : ConOp} {x : Cons} {r : e.Reply} {r' : Option e.Reply}
    (hx : s.cons.exec t e = some (x, some r)) (h : exec rt t (.con e) o s = some (s', r')) :
    s' = { s with cons := x } ∧ r' = some r := by
  obtain ⟨x', hx', rfl⟩ := exec_con h
  rw [hx] at hx'
  cases hx'
  exact ⟨rfl, rfl⟩

theorem exec_lib {e : LibOp} {r : Option e.Reply} (h : exec rt t (.lib e) o s = some (s', r)) :
    s' = { s with lib := (s.lib.exec e o).1 } ∧ r = some (s.lib.exec e o).2 := by
  simp only [exec, Option.some.injEq, Prod.mk.injEq] at h
  exact ⟨h.1.symm, h.2.symm⟩

theorem exec_res {e : ResOp} {r : Option e.Reply} (h : exec rt t (.res e) o s = some (s', r)) :
    ∃ x, s.results.exec e = some (x, r) ∧ s' = { s with results := x } := by
  obtain ⟨⟨x, r'⟩, he, hr⟩ := Option.map_eq_some_iff.mp h
  cases hr
  exact ⟨x, he, rfl⟩

theorem exec_rt {e : RtOp} {r : Option e.Reply} (h : exec rt t (.rt e) o s = some (s', r)) :
    ∃ x, e.exec rt o s.heap = some (x, r) ∧ s' = { s with heap := x } := by
  obtain ⟨⟨x, r'⟩, he, hr⟩ := Option.map_eq_some_iff.mp h
  cases hr
  exact ⟨x, he, rfl⟩

/-- Everything a round of `GetFreeCon` can do: there are no connections, or the one at `i` is locked, or it
is busy. -/
theorem Cons.getFreeCon_cases {x x' : Cons} {r : Option (Option Nat)}
    (h : x.exec t .getFreeCon = some (x', r)) :
    (x.m_VectorCon.length = 0 ∧ x' = x ∧ r = some none) ∨
    (∃ c l, x.m_VectorCon[x.i t % x.m_VectorCon.length]? = some c ∧
      (x.con c).cs.tryEnter t = some l ∧ r = some (some c) ∧
      x' = { x.withCon c { x.con c with cs := l } with i := Function.update x.i t 0 }) ∨
    (∃ c, x.m_VectorCon[x.i t % x.m_VectorCon.length]? = some c ∧
      (x.con c).cs.tryEnter t = none ∧ r = none ∧
      x' = { x with i := Function.update x.i t ((x.i t + 1) % 2 ^ 32) }) := by
  simp only [Cons.exec] at h
  split at h
  · next hnil =>
    cases h
    exact Or.inl ⟨hnil, rfl, rfl⟩
  · simp only [Cons.probe, Option.map_map, Option.map_eq_some_iff] at h
    obtain ⟨c, hc, h⟩ := h
    simp only [Function.comp] at h
    split at h
    · next l hl =>
      cases h
      exact Or.inr (Or.inl ⟨c, l, hc, hl, rfl, rfl⟩)
    · next hl =>
      cases h
      exact Or.inr (Or.inr ⟨c, hc, hl, rfl, rfl⟩)

/-- The handle of a connection changes only where `Connect` or `Reconnect` stores one. -/
theorem Cons.exec_mysql {x x' : Cons} {e : ConOp} {r : Option e.Reply}
    (hx : x.exec t e = some (x', r)) (he : ∀ d m, e ≠ .setMySql d m) {c : Nat} :
    (x'.con c).m_pMySql = (x.con c).m_pMySql := by
  have hwith : ∀ d y, y.m_pMySql = (x.con d).m_pMySql →
      ((x.withCon d y).con c).m_pMySql = (x.con c).m_pMySql := by
    intro d y hy
    by_cases hd : c = d
    · rw [hd, Cons.withCon_self, hy]
    · rw [Cons.withCon_of_ne hd]
  cases e with
  | setMySql d m => exact absurd rfl (he d m)
  | getFreeCon =>
    rcases Cons.getFreeCon_cases hx with ⟨-, rfl, -⟩ | ⟨d, l, -, -, -, rfl⟩ | ⟨d, -, -, -, rfl⟩
    · rfl
    · exact hwith d _ rfl
    · rfl
  | unLock d =>
    simp only [Cons.exec, Option.map_eq_some_iff] at hx
    obtain ⟨l, -, hx⟩ := hx
    cases hx
    exact hwith d _ rfl
  | setParams d p =>
    cases hx
    exact hwith d _ rfl
  | _ =>
    cases hx
    rfl

/-- No request adds a connection to the pool. -/
theorem Cons.exec_vector {x x' : Cons} {e : ConOp} {r : Option e.Reply}
    (hx : x.exec t e = some (x', r)) : x'.m_VectorCon = x.m_VectorCon := by
  cases e with
  | getFreeCon =>
    rcases Cons.getFreeCon_cases hx with ⟨-, rfl, -⟩ | ⟨d, l, -, -, -, rfl⟩ | ⟨d, -, -, -, rfl⟩ <;> rfl
  | unLock d =>
    simp only [Cons.exec, Option.map_eq_some_iff] at hx
    obtain ⟨l, -, hx⟩ := hx
    cases hx
    rfl
  | _ =>
    cases hx
    rfl

/-- Only requests on connections change the connections. -/
theorem exec_cons {e : Op} {r : Option e.Reply} (h : exec rt t e o s = some (s', r)) :
    s'.cons = s.cons ∨
      ∃ (d : ConOp) (q : Option d.Reply), e = .con d ∧ s.cons.exec t d = some (s'.cons, q) := by
  cases e with
  | con e =>
    obtain ⟨x, hx, rfl⟩ := exec_con h
    exact Or.inr ⟨e, r, rfl, hx⟩
  | lib e =>
    obtain ⟨rfl, -⟩ := exec_lib h
    exact Or.inl rfl
  | tp e =>
    obtain ⟨x, -, rfl⟩ := exec_tp h
    exact Or.inl rfl
  | task e =>
    obtain ⟨x, -, rfl⟩ := exec_task h
    exact Or.inl rfl
  | res e =>
    obtain ⟨x, -, rfl⟩ := exec_res h
    exact Or.inl rfl
  | rt e =>
    obtain ⟨x, -, rfl⟩ := exec_rt h
    exact Or.inl rfl

theorem exec_keeps_mysql {e : Op} {r : Option e.Reply} (h : exec rt t e o s = some (s', r))
    (he : ∀ d m, e ≠ .con (.setMySql d m)) (c : Nat) :
    (s'.cons.con c).m_pMySql = (s.cons.con c).m_pMySql := by
  rcases exec_cons h with hsame | ⟨e, r, rfl, hx⟩
  · rw [hsame]
  · exact Cons.exec_mysql hx fun d m hd => he d m (congrArg Op.con hd)

/-! ## Waiting -/

/-- Only `GetFreeCon` waits for a connection, and counts its rounds. -/
theorem Cons.exec_wait {x x' : Cons} {e : ConOp} (h : x.exec t e = some (x', none)) :
    e = .getFreeCon ∧ ∃ i, x' = { x with i := i } := by
  cases e with
  | getFreeCon =>
    rcases Cons.getFreeCon_cases h with ⟨-, -, hr⟩ | ⟨c, l, -, -, hr, -⟩ | ⟨c, -, -, -, rfl⟩
    · cases hr
    · cases hr
    · exact ⟨rfl, _, rfl⟩
  | unLock c =>
    simp only [Cons.exec, Option.map_eq_some_iff] at h
    obtain ⟨_, _, h⟩ := h
    cases h
  | _ => cases h

/-- Tasks, results and the runtime keep nobody waiting. -/
theorem Jobs.exec_answers {x x' : Jobs} {e : TaskOp} : x.exec e o ≠ some (x', none) := by
  intro h
  cases e with
  | alloc =>
    simp only [Jobs.exec, Option.map_eq_some_iff] at h
    obtain ⟨_, _, h⟩ := h
    cases h
  | deref p =>
    simp only [Jobs.exec, Option.map_eq_some_iff] at h
    obtain ⟨_, _, h⟩ := h
    cases h
  | _ => cases h

theorem Results.exec_answers {x x' : Results} {e : ResOp} : x.exec e ≠ some (x', none) := by
  intro h
  cases e with
  | construct => cases h
  | _ =>
    simp only [Results.exec, Option.map_eq_some_iff] at h
    obtain ⟨_, _, h⟩ := h
    cases h

theorem RtOp.exec_answers {e : RtOp} {heap heap' : Nat} :
    e.exec rt o heap ≠ some (heap', none) := by
  intro h
  cases e with
  | vsnprintf n fmt args =>
    simp only [RtOp.exec] at h
    split at h <;> cases h
  | _ => cases h

/-- While a thread waits, only the variables of `GetFreeCon` change. -/
theorem exec_wait {e : Op} (h : exec rt t e o s = some (s', none)) :
    ∃ i, s' = { s with cons := { s.cons with i := i } } := by
  cases e with
  | con e =>
    obtain ⟨x, hx, rfl⟩ := exec_con h
    obtain ⟨-, i, rfl⟩ := Cons.exec_wait hx
    exact ⟨i, rfl⟩
  | tp e =>
    obtain ⟨x, hx, rfl⟩ := exec_tp h
    obtain rfl := ThreadPool.exec_wait hx
    exact ⟨s.cons.i, rfl⟩
  | task e =>
    obtain ⟨x, hx, -⟩ := exec_task h
    exact absurd hx Jobs.exec_answers
  | lib e => exact nomatch (exec_lib h).2
  | res e =>
    obtain ⟨x, hx, -⟩ := exec_res h
    exact absurd hx Results.exec_answers
  | rt e =>
    obtain ⟨x, hx, -⟩ := exec_rt h
    exact absurd hx RtOp.exec_answers

end

/-- Code of the program. -/
abbrev Code (α : Type) : Type := Prog Op Op.Reply α

/-- Make a request. -/
def req (e : Op) : Code e.Reply := Prog.ask e

/-! ## Running alone -/

section

variable {rt : Runtime} {t : Tid} {s : State} {l : List (Answer Op Op.Reply)} {α : Type}
  {Q : α → State → List (Answer Op Op.Reply) → Prop}

/-- A call of the library. -/
theorem always_lib {e : LibOp} {k : e.Reply → Code α}
    (h : ∀ o y r, s.lib.exec e o = (y, r) →
      (k r).Always (exec rt t) { s with lib := y } (⟨.lib e, r⟩ :: l) Q) :
    (Prog.op (.lib e) k : Code α).Always (exec rt t) s l Q := by
  refine Prog.always_op (fun o s₁ he => nomatch (exec_lib he).2) fun o s₁ r he => ?_
  obtain ⟨rfl, hr⟩ := exec_lib he
  cases hr
  exact h o _ _ rfl

/-- An access to a connection that is answered at once. -/
theorem always_con {e : ConOp} {k : e.Reply → Code α} {x : Cons} {r : e.Reply}
    (hx : s.cons.exec t e = some (x, some r))
    (h : (k r).Always (exec rt t) { s with cons := x } (⟨.con e, r⟩ :: l) Q) :
    (Prog.op (.con e) k : Code α).Always (exec rt t) s l Q := by
  refine Prog.always_op (fun o s₁ he => nomatch (exec_con_eq hx he).2) fun o s₁ r' he => ?_
  obtain ⟨rfl, hr⟩ := exec_con_eq hx he
  cases hr
  exact h

/-- A crash is the end of everything. -/
theorem always_crash {k : Empty → Code α} :
    (Prog.op (.rt .crash) k : Code α).Always (exec rt t) s l Q :=
  Prog.always_op (fun _ _ he => nomatch he) fun _ _ r _ => nomatch r

end

end XeMySql
