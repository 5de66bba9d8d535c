import XeMySql.Requests
import XeMySql.Lib.Trace
import XeMySql.Lib.Places

/-!
# The way of a job

A client takes a task from the pool, writes its query into it and posts it; a worker dequeues it,
reads the query, and after `Query` clears the task and puts it back. `Job` is where on that way a
thread is.

* `code_delivers` — between `Start` and `Stop` every call keeps to that order
* `delivery_kept` — and every task is in one place, with the contents that belong there
-/

namespace XeMySql

open Interact

/-- What a thread has in its hands: task `k`, for the query `q` it has been called with, or from
packet `n` of the port; a worker that has not got a packet yet is `waiting`, and one that has looked
at the query of its task has `seen` it. -/
inductive Job where
  | idle
  | calling (q : Bytes)
  | fresh (q : Bytes) (k : Nat)
  | filled (q : Bytes) (k : Nat)
  | posted (q : Bytes) (k : Nat)
  | waiting
  | taken (n k : Nat)
  | seen (n k : Nat)
  | inited (n k : Nat)
  | freed (n k : Nat)
deriving DecidableEq

namespace Job

/-- The task a thread holds. -/
def held : Job → Option Nat
  | fresh _ k => some k
  | filled _ k => some k
  | taken _ k => some k
  | seen _ k => some k
  | inited _ k => some k
  | _ => none

/-- The call in which a thread is on its way. -/
def call : Job → Option Call
  | idle => none
  | calling q => some (.executeQueryNoRet (some q))
  | fresh q _ => some (.executeQueryNoRet (some q))
  | filled q _ => some (.executeQueryNoRet (some q))
  | posted q _ => some (.executeQueryNoRet (some q))
  | _ => some .workerProc

/-- What a thread may ask; `p₀` is the port. -/
def may (p₀ : Nat) (l : Job) : Op → Prop
  | .task .alloc => ∃ q, l = calling q
  | .task (.strncpy k src n) => l = fresh src k ∧ n = src.length
  | .task (.getData k) => ∃ n, l = taken n k
  | .task (.getQuery k) => ∃ n, l = taken n k
  | .task (.init k) => ∃ n, l = seen n k
  | .task (.free k) => ∃ n, l = inited n k
  | .task (.deref _) => False
  | .tp .getPort => True
  | .tp .currentThreadId => True
  | .tp (.post p pkt) => p = p₀ ∧ ∃ q k, l = filled q k ∧ pkt = .job true (some k)
  | .tp (.getQueued p) => p = p₀ ∧ l = waiting
  | .tp _ => False
  | _ => True

/-- What it may rely on. -/
def can (p₀ : Nat) (_ : Job) : (e : Op) → e.Reply → Prop
  | .tp .getPort, r => r = p₀
  | .tp (.post _ _), r => ∃ n : Nat, r = some n
  | .tp (.getQueued _), r => ∃ n k, r = .packet n (.job true (some k))
  | .task (.getData _), r => r = none
  | _, _ => True

/-- Where it is afterwards. -/
def next (l : Job) : (e : Op) → e.Reply → Job
  | .task .alloc, k =>
    match l with
    | calling q => fresh q k
    | _ => l
  | .task (.strncpy _ _ _), _ =>
    match l with
    | fresh q k => filled q k
    | _ => l
  | .tp (.post _ _), _ =>
    match l with
    | filled q k => posted q k
    | _ => l
  | .tp (.getQueued _), r =>
    match r with
    | .packet n (.job _ (some k)) => taken n k
    | _ => l
  | .task (.getQuery _), _ =>
    match l with
    | taken n k => seen n k
    | _ => l
  | .task (.init _), _ =>
    match l with
    | seen n k => inited n k
    | _ => l
  | .task (.free _), _ =>
    match l with
    | inited n k => freed n k
    | _ => l
  | _, _ => l

/-- The discipline. -/
def discipline (p₀ : Nat) : Discipline Op Op.Reply Job := ⟨may p₀, can p₀, next⟩

/-- At the beginning of a call. -/
def start (_ : Tid) : Call → Job
  | .executeQueryNoRet (some q) => calling q
  | .workerProc => waiting
  | _ => idle

/-- At its end. -/
def final (c : Call) (_ : Bool) (l : Job) : Prop :=
  match c with
  | .executeQueryNoRet query => ∃ q k, l = posted q k ∧ query = some q
  | .workerProc => ∃ n k, l = freed n k
  | _ => l = idle

end Job

/-- A query that fits into a task with its terminator. -/
def Short (q : Bytes) : Prop := CString.NulFree q ∧ q.length ≤ 255

/-- The calls between `Start` and `Stop`, with short queries. -/
def okJobs (_ : Tid) : Call → Prop
  | .executeQueryNoRet (some q) => Short q
  | .executeQueryNoRet none => False
  | .start _ => False
  | .stop => False
  | _ => True

/-- Requests that have nothing to do with jobs. -/
def NoJob : Op → Prop
  | .tp _ => False
  | .task _ => False
  | _ => True

theorem noJob_of_onDatabase (e : Op) (he : OnDatabase e) : NoJob e := by
  cases e <;> trivial

variable {p₀ : Nat}

theorem noJob_delivers {α : Type} {p : Code α} (h : p.Only NoJob) (l : Job) :
    p.Follows (Job.discipline p₀) l fun _ l' => l' = l := by
  refine h.follows (fun e he => ?_) (fun e he r => ?_)
  · cases e <;> first | exact he.elim | trivial
  · cases e <;> first | exact he.elim | rfl

theorem executeQueryNoRet_delivers (q : Bytes) :
    (CXEMySql.executeQueryNoRet (some q)).Follows (Job.discipline p₀) (.calling q)
      fun _ l => ∃ k, l = .posted q k := by
  refine ⟨⟨q, rfl⟩, fun k _ => ⟨⟨rfl, rfl⟩, fun _ _ => ⟨trivial, fun p hp => ?_⟩⟩⟩
  exact ⟨⟨hp, q, k, rfl, rfl⟩, fun _ _ => ⟨k, rfl⟩⟩

theorem processTask_delivers (n k : Nat) :
    (CXEMySqlWorker.processTask (some k)).Follows (Job.discipline p₀) (.taken n k)
      fun _ l => l = .freed n k := by
  refine ⟨⟨n, rfl⟩, fun d hd => ?_⟩
  obtain rfl : d = none := hd
  refine ⟨⟨n, rfl⟩, fun szQuery _ => ?_⟩
  have hq : (CXEMySql.query szQuery []).Only NoJob :=
    (query_text szQuery []).mono fun e he => noJob_of_onDatabase e (OnText.onDatabase e he)
  refine (noJob_delivers hq (.seen n k)).bind ?_
  rintro _ l rfl
  exact ⟨⟨n, rfl⟩, fun _ _ => ⟨⟨n, rfl⟩, fun _ _ => rfl⟩⟩

theorem workerProc_delivers :
    (ThreadPool.workerProc CXEMySql.inPool CXEMySqlWorker.processTask).Follows
      (Job.discipline p₀) .waiting fun a l => a = true ∧ ∃ n k, l = .freed n k := by
  refine ⟨trivial, fun _ _ => ⟨trivial, fun p hp => ⟨⟨hp, rfl⟩, fun r hr => ?_⟩⟩⟩
  obtain ⟨n, k, rfl⟩ := hr
  refine (processTask_delivers n k).bind ?_
  rintro _ l rfl
  exact ⟨rfl, n, k, rfl⟩

/-- **Every call keeps to the order.** -/
theorem code_delivers (t : Tid) (c : Call) (hc : okJobs t c) :
    c.code.Follows (Job.discipline p₀) (Job.start t c) (Job.final c) := by
  have hdb : ∀ {p : Code Bool}, p.Only NoJob →
      p.Follows (Job.discipline p₀) .idle fun _ l => l = .idle := fun h => noJob_delivers h _
  have htext : ∀ e, OnText e → NoJob e := fun e he => noJob_of_onDatabase e (OnText.onDatabase e he)
  have hsession : ∀ e, OnSession e → NoJob e := fun e he => htext e (OnSession.onText e he)
  cases c with
  | executeQueryNoRet q =>
    rcases q with _ | q
    · exact hc.elim
    · refine (executeQueryNoRet_delivers q).bind ?_
      rintro _ _ ⟨k, rfl⟩
      exact ⟨q, k, rfl, rfl⟩
  | selectDB db => exact hdb (selectDB_only hsession (fun _ _ => trivial) db)
  | query cmd args => exact hdb ((query_text cmd args).mono htext)
  | queryData cmd data args => exact hdb (queryData_only htext cmd (fun _ _ _ _ => trivial) args)
  | queryBlob cmd d => exact hdb ((queryBlob_database cmd d).mono noJob_of_onDatabase)
  | newResult => exact ⟨trivial, fun _ _ => rfl⟩
  | deleteResult x =>
    refine ⟨trivial, fun r _ => ?_⟩
    rcases r with _ | r
    · exact ⟨trivial, fun _ _ => rfl⟩
    · exact ⟨trivial, fun _ _ => ⟨trivial, fun _ _ => rfl⟩⟩
  | connect c p => exact hdb ((connect_session c p).mono hsession)
  | close c => exact hdb ((close_session c).mono hsession)
  | reconnect c => exact hdb ((reconnect_session c).mono hsession)
  | start n => exact hc.elim
  | stop => exact hc.elim
  | workerProc => exact workerProc_delivers.mono fun _ _ h => h.2

/-! ## Tasks and their contents -/

/-- The task in a packet. -/
def Packet.task : Packet Nat → Option Nat
  | .job _ pTask => pTask
  | .exit => none

/-- The tasks in a queue of packets. -/
def queueTasks (q : List (Nat × Packet Nat)) : List Nat := q.filterMap fun x => x.2.task

/-- What the task in a thread's hands contains; `sub` are the queries by packet number. -/
def Job.Content (task : Nat → CXEMySqlTask) (sub : List (Nat × Bytes)) : Job → Prop
  | calling q => Short q
  | fresh q k => Short q ∧ task k = .init
  | filled q k => Short q ∧ task k = .holding q
  | taken n k => ∃ q, (n, q) ∈ sub ∧ task k = .holding q
  | inited _ k => task k = .init
  | _ => True

/--
Pool, queue and tasks, when thread `t` is at `v t` on its way and the queries `sub` have been
submitted. `located`: a task is in one place. `free`, `queued` and `hands`: tasks of the pool are
cleared, the packets hold the queries submitted in them, and the tasks in a thread's hands are as
its way has left them.
-/
structure JobInv (p₀ : Nat) (tp : ThreadPool Nat) (jobs : Jobs) (v : Tid → Job)
    (sub : List (Nat × Bytes)) : Prop where
  port : tp.m_hWorkerIoPort = p₀
  opened : (tp.port p₀).opened = true
  step_pos : 0 < jobs.pool.m_nStepCount
  located : ∃ loc, Located loc jobs.pool.created jobs.pool.m_FreeList
    (queueTasks (tp.port p₀).queue) fun t => (v t).held
  free : ∀ k ∈ jobs.pool.m_FreeList, jobs.task k = .init
  queued : ∀ x ∈ (tp.port p₀).queue, ∃ k q, x.2 = .job true (some k) ∧ (x.1, q) ∈ sub ∧
    jobs.task k = .holding q
  hands : ∀ t, (v t).Content jobs.task sub
  short : ∀ x ∈ sub, Short x.2

section

variable {tp tp' : ThreadPool Nat} {jobs jobs' : Jobs} {v : Tid → Job} {t : Tid} {l : Job}
  {sub sub' : List (Nat × Bytes)} {k n : Nat} {q : Bytes}

/-- The contents matter of held tasks only. -/
theorem Job.Content.congr {task task' : Nat → CXEMySqlTask} (h : l.Content task sub)
    (ht : ∀ k, l.held = some k → task' k = task k) (hs : sub ⊆ sub') :
    l.Content task' sub' := by
  cases l with
  | fresh q k => exact ⟨h.1, (ht k rfl).trans h.2⟩
  | filled q k => exact ⟨h.1, (ht k rfl).trans h.2⟩
  | taken n k =>
    obtain ⟨q, hq, hk⟩ := h
    exact ⟨q, hs hq, (ht k rfl).trans hk⟩
  | inited n k => exact (ht k rfl).trans h
  | _ => exact h

theorem held_update (v : Tid → Job) (t : Tid) (l : Job) :
    (fun u => (Function.update v t l u).held)
      = Function.update (fun u => (v u).held) t l.held := by
  funext u
  by_cases hu : u = t
  · subst hu
    simp
  · simp [hu]

namespace JobInv

/-- A task in a thread's hands is in no packet and not in the pool. -/
theorem of_held (h : JobInv p₀ tp jobs v sub) (ht : (v t).held = some k) :
    k < jobs.pool.created ∧ k ∉ jobs.pool.m_FreeList ∧ k ∉ queueTasks (tp.port p₀).queue ∧
      ∀ u, (v u).held = some k → u = t := by
  obtain ⟨loc, hl⟩ := h.located
  obtain ⟨hlt, hk⟩ := (hl.hands t k).mp ht
  refine ⟨hlt, fun hm => ?_, fun hm => ?_, fun u hu => ?_⟩
  · have := ((hl.pool k).mp hm).2
    rw [hk] at this
    cases this
  · have := ((hl.queued k).mp hm).2
    rw [hk] at this
    cases this
  · have := ((hl.hands u k).mp hu).2
    rw [hk] at this
    cases this
    rfl

theorem mem_queueTasks {x : Nat × Packet Nat} {Q : List (Nat × Packet Nat)} {w : Bool}
    (hx : x ∈ Q) (hk : x.2 = .job w (some k)) : k ∈ queueTasks Q :=
  List.mem_filterMap.mpr ⟨x, hx, by rw [hk]; rfl⟩

/-- A thread works on the task in its hands. -/
theorem work (h : JobInv p₀ tp jobs v sub) (ht : (v t).held = some k) (hl : l.held = some k)
    {x : CXEMySqlTask} (hc : l.Content (jobs.withTask k x).task sub) :
    JobInv p₀ tp (jobs.withTask k x) (Function.update v t l) sub := by
  obtain ⟨-, hfree, hqueue, hother⟩ := h.of_held ht
  have hne : ∀ j, j ≠ k → (jobs.withTask k x).task j = jobs.task j :=
    fun j hj => Function.update_of_ne hj ..
  refine ⟨h.port, h.opened, h.step_pos, ?_, ?_, ?_, ?_, h.short⟩
  · rw [held_update, hl, ← ht, Function.update_eq_self]
    exact h.located
  · intro j hj
    rw [hne j fun he => hfree (he ▸ hj)]
    exact h.free j hj
  · intro y hy
    obtain ⟨j, q, hj, hq, hjq⟩ := h.queued y hy
    refine ⟨j, q, hj, hq, ?_⟩
    rw [hne j fun he => hqueue (he ▸ mem_queueTasks hy hj)]
    exact hjq
  · intro u
    by_cases hu : u = t
    · subst hu
      rwa [Function.update_self]
    · rw [Function.update_of_ne hu]
      exact (h.hands u).congr (fun j hj => hne j fun he => hu (hother u (he ▸ hj))) (fun _ hx => hx)

/-- `Step` makes `n` tasks. -/
theorem grow (h : JobInv p₀ tp jobs v sub) (n : Nat) :
    JobInv p₀ tp
      { jobs with
        pool := { jobs.pool with
          m_FreeList := jobs.pool.m_FreeList ++ List.range' jobs.pool.created n
          created := jobs.pool.created + n }
        task := fun i =>
          if jobs.pool.created ≤ i ∧ i < jobs.pool.created + n then .init else jobs.task i }
      v sub := by
  obtain ⟨loc, hl⟩ := h.located
  have hold : ∀ i, i < jobs.pool.created →
      (if jobs.pool.created ≤ i ∧ i < jobs.pool.created + n then .init else jobs.task i)
        = jobs.task i := fun i hi => if_neg (by omega)
  refine ⟨h.port, h.opened, h.step_pos, ⟨_, hl.grow n⟩, ?_, ?_, ?_, h.short⟩
  · intro k hk
    rcases List.mem_append.mp hk with hk | hk
    · have hlt := ((hl.pool k).mp hk).1
      exact (hold k hlt).trans (h.free k hk)
    · exact if_pos (List.mem_range'_1.mp hk)
  · intro x hx
    obtain ⟨k, q, hk, hq, hkq⟩ := h.queued x hx
    have hlt := ((hl.queued k).mp (mem_queueTasks hx hk)).1
    exact ⟨k, q, hk, hq, (hold k hlt).trans hkq⟩
  · intro t
    exact (h.hands t).congr (fun k hk => hold k ((hl.hands t k).mp hk).1) fun _ hx => hx

/-- A cleared task comes from the pool into a thread's hands. -/
theorem take (h : JobInv p₀ tp jobs v sub) {rest : List Nat}
    (hf : jobs.pool.m_FreeList = k :: rest) (ht : v t = .calling q) :
    JobInv p₀ tp { jobs with pool := { jobs.pool with m_FreeList := rest } }
      (Function.update v t (.fresh q k)) sub := by
  obtain ⟨loc, hl⟩ := h.located
  have hnone : (v t).held = none := by rw [ht]; rfl
  have hshort : Short q := by
    have hc := h.hands t
    rwa [ht] at hc
  rw [hf] at hl
  refine ⟨h.port, h.opened, h.step_pos, ?_, ?_, h.queued, ?_, h.short⟩
  · rw [held_update]
    exact ⟨_, hl.take hnone⟩
  · intro j hj
    exact h.free j (by rw [hf]; exact List.mem_cons_of_mem _ hj)
  · intro u
    by_cases hu : u = t
    · subst hu
      rw [Function.update_self]
      exact ⟨hshort, h.free k (by rw [hf]; exact List.mem_cons_self)⟩
    · rw [Function.update_of_ne hu]
      exact h.hands u

/-- `Alloc` -/
theorem alloc (h : JobInv p₀ tp jobs v sub) (ha : jobs.alloc = some (jobs', k))
    (ht : v t = .calling q) : JobInv p₀ tp jobs' (Function.update v t (.fresh q k)) sub := by
  obtain ⟨⟨j, pool⟩, hp, he⟩ := Option.map_eq_some_iff.mp ha
  obtain ⟨rfl, rfl⟩ := Prod.mk.inj he
  rcases CPool.alloc_cases hp with ⟨rest, hf, rfl⟩ | ⟨hf, rfl, n, -, rfl⟩
  · have htask : (fun i => if jobs.pool.created ≤ i ∧ i < jobs.pool.created then
        CXEMySqlTask.init else jobs.task i) = jobs.task := by
      funext i
      exact if_neg (by omega)
    simp only [htask]
    exact h.take hf ht
  · refine (h.grow (n + 1)).take ?_ ht
    show jobs.pool.m_FreeList ++ _ = _
    rw [hf, List.nil_append, List.range'_succ]

/-- `Free`: a cleared task goes back to the pool. -/
theorem give (h : JobInv p₀ tp jobs v sub) (ht : v t = .inited n k) :
    JobInv p₀ tp { jobs with pool := jobs.pool.free k }
      (Function.update v t (.freed n k)) sub := by
  obtain ⟨loc, hl⟩ := h.located
  have hheld : (v t).held = some k := by rw [ht]; rfl
  have hinit : jobs.task k = .init := by
    have hc := h.hands t
    rwa [ht] at hc
  refine ⟨h.port, h.opened, h.step_pos, ?_, ?_, h.queued, ?_, h.short⟩
  · rw [held_update]
    exact ⟨_, hl.give hheld⟩
  · intro j hj
    rcases CPool.mem_free.mp hj with hj | rfl
    · exact h.free j hj
    · exact hinit
  · intro u
    by_cases hu : u = t
    · subst hu
      rw [Function.update_self]
      trivial
    · rw [Function.update_of_ne hu]
      exact h.hands u

/-- `ProcessJob` posts a task. -/
theorem post (h : JobInv p₀ tp jobs v sub) (ht : v t = .filled q k) :
    JobInv p₀ (tp.withPort p₀ ((tp.port p₀).push (.job true (some k)))) jobs
      (Function.update v t (.posted q k)) (((tp.port p₀).sent, q) :: sub) := by
  obtain ⟨loc, hl⟩ := h.located
  have hheld : (v t).held = some k := by rw [ht]; rfl
  have hc : Short q ∧ jobs.task k = .holding q := by
    have hc := h.hands t
    rwa [ht] at hc
  refine ⟨h.port, ?_, h.step_pos, ?_, h.free, ?_, ?_, ?_⟩
  · rw [ThreadPool.port_withPort]
    exact h.opened
  · rw [held_update, ThreadPool.port_withPort]
    refine ⟨Function.update loc k .queue, ?_⟩
    have hq : queueTasks ((tp.port p₀).push (.job true (some k))).queue
        = queueTasks (tp.port p₀).queue ++ [k] := by
      simp [queueTasks, Port.push, Packet.task]
    rw [hq]
    exact hl.push hheld
  · rw [ThreadPool.port_withPort]
    intro x hx
    rcases List.mem_append.mp hx with hx | hx
    · obtain ⟨j, r, hj, hr, hjr⟩ := h.queued x hx
      exact ⟨j, r, hj, List.mem_cons_of_mem _ hr, hjr⟩
    · obtain rfl := List.mem_singleton.mp hx
      exact ⟨k, q, rfl, List.mem_cons_self, hc.2⟩
  · intro u
    by_cases hu : u = t
    · subst hu
      rw [Function.update_self]
      trivial
    · rw [Function.update_of_ne hu]
      exact (h.hands u).congr (fun _ _ => rfl) fun _ hx => List.mem_cons_of_mem _ hx
  · intro x hx
    rcases List.mem_cons.mp hx with rfl | hx
    · exact hc.1
    · exact h.short x hx

/-- A worker dequeues a packet. -/
theorem dequeue (h : JobInv p₀ tp jobs v sub) (ht : v t = .waiting) {pkt : Packet Nat}
    {rest : List (Nat × Packet Nat)} (hq : (tp.port p₀).queue = (n, pkt) :: rest) :
    ∃ k, pkt = .job true (some k) ∧
      JobInv p₀ (tp.withPort p₀ (tp.port p₀).pop) jobs (Function.update v t (.taken n k)) sub := by
  obtain ⟨loc, hl⟩ := h.located
  obtain ⟨k, q, hk, hs, hkq⟩ := h.queued (n, pkt) (by rw [hq]; exact List.mem_cons_self)
  obtain rfl : pkt = .job true (some k) := hk
  have hnone : (v t).held = none := by rw [ht]; rfl
  have hrest : (tp.port p₀).pop.queue = rest := by rw [Port.pop_eq hq]
  have hqt : queueTasks (tp.port p₀).queue = k :: queueTasks rest := by
    rw [hq]
    rfl
  rw [hqt] at hl
  refine ⟨k, rfl, h.port, ?_, h.step_pos, ?_, h.free, ?_, ?_, h.short⟩
  · rw [ThreadPool.port_withPort]
    exact h.opened
  · rw [held_update, ThreadPool.port_withPort, hrest]
    exact ⟨_, hl.pop hnone⟩
  · rw [ThreadPool.port_withPort, hrest]
    intro x hx
    exact h.queued x (by rw [hq]; exact List.mem_cons_of_mem _ hx)
  · intro u
    by_cases hu : u = t
    · subst hu
      rw [Function.update_self]
      exact ⟨q, hs, hkq⟩
    · rw [Function.update_of_ne hu]
      exact h.hands u

end JobInv

end

/-! ## What has been submitted -/

/-- Where the threads are after a history. -/
abbrev jobView (p₀ : Nat) (h : List Ev) : Tid → Job :=
  (Job.discipline p₀).view .idle Job.start h

/-- The queries submitted, with the numbers of their packets, the latest first. -/
def submitted : List Ev → List (Nat × Bytes)
  | [] => []
  | .reply t (.tp (.post _ _)) r :: h =>
    match (r : Option Nat), presentCall t h with
    | some n, some (.executeQueryNoRet (some q)) => (n, q) :: submitted h
    | _, _ => submitted h
  | _ :: h => submitted h

/-- The queries that thread `t` has submitted, with the numbers of their packets, the latest first. -/
def submittedBy (t : Tid) : List Ev → List (Nat × Bytes)
  | [] => []
  | .reply u (.tp (.post _ _)) r :: h =>
    match (r : Option Nat), presentCall u h with
    | some n, some (.executeQueryNoRet (some q)) =>
      if u = t then (n, q) :: submittedBy t h else submittedBy t h
    | _, _ => submittedBy t h
  | _ :: h => submittedBy t h

/-- Only posting submits. -/
theorem submitted_reply {t : Tid} {e : Op} {r : e.Reply} {h : List Ev}
    (he : ∀ p pkt, e ≠ .tp (.post p pkt)) : submitted (.reply t e r :: h) = submitted h := by
  cases e with
  | tp e =>
    cases e with
    | post p pkt => exact absurd rfl (he p pkt)
    | _ => rfl
  | _ => rfl

theorem submitted_post {t : Tid} {p n : Nat} {pkt : Packet Nat} {q : Bytes} {h : List Ev}
    (hc : presentCall t h = some (.executeQueryNoRet (some q))) :
    submitted (.reply t (.tp (.post p pkt)) (some n) :: h) = (n, q) :: submitted h := by
  simp [submitted, hc]

theorem submittedBy_reply {t u : Tid} {e : Op} {r : e.Reply} {h : List Ev}
    (he : ∀ p pkt, e ≠ .tp (.post p pkt)) :
    submittedBy t (.reply u e r :: h) = submittedBy t h := by
  cases e with
  | tp e =>
    cases e with
    | post p pkt => exact absurd rfl (he p pkt)
    | _ => rfl
  | _ => rfl

theorem submittedBy_post {t u : Tid} {p n : Nat} {pkt : Packet Nat} {q : Bytes} {h : List Ev}
    (hc : presentCall u h = some (.executeQueryNoRet (some q))) :
    submittedBy t (.reply u (.tp (.post p pkt)) (some n) :: h)
      = if u = t then (n, q) :: submittedBy t h else submittedBy t h := by
  simp [submittedBy, hc]

theorem submitted_post_none {t : Tid} {p n : Nat} {pkt : Packet Nat} {h : List Ev}
    (hc : presentCall t h = some (.executeQueryNoRet none)) :
    submitted (.reply t (.tp (.post p pkt)) (some n) :: h) = submitted h := by
  simp [submitted, hc]

/-- A thread on its way is in the call to which it belongs. -/
def InCall (v : Tid → Job) (h : List Ev) : Prop :=
  ∀ t c, (v t).call = some c → presentCall t h = some c

/-- No answer changes the call. -/
theorem Job.next_call {p₀ : Nat} {l : Job} {e : Op} {r : e.Reply} (hm : l.may p₀ e)
    (hc : l.can p₀ e r) : (l.next e r).call = l.call := by
  cases e with
  | tp e =>
    cases e with
    | post p pkt =>
      obtain ⟨-, q, k, rfl, -⟩ := hm
      rfl
    | getQueued p =>
      obtain ⟨-, rfl⟩ := hm
      obtain ⟨n, k, rfl⟩ := hc
      rfl
    | _ => rfl
  | task e =>
    cases e with
    | alloc =>
      obtain ⟨q, rfl⟩ := hm
      rfl
    | strncpy k src n =>
      obtain ⟨rfl, -⟩ := hm
      rfl
    | getQuery k =>
      obtain ⟨n, rfl⟩ := hm
      rfl
    | init k =>
      obtain ⟨n, rfl⟩ := hm
      rfl
    | free k =>
      obtain ⟨n, rfl⟩ := hm
      rfl
    | _ => rfl
  | _ => rfl

section

variable {rt : Runtime} {t : Tid} {o : Outcome} {s s' : State} {v : Tid → Job} {h : List Ev}
  {e : Op} {r : e.Reply}

/-- An access to tasks keeps the invariant. -/
theorem job_task {x : Jobs} {e : TaskOp} {r : e.Reply} (hI : JobInv p₀ s.tp s.jobs v (submitted h))
    (hm : (v t).may p₀ (.task e)) (hx : s.jobs.exec e o = some (x, some r)) :
    (v t).can p₀ (.task e) r ∧
      JobInv p₀ s.tp x (Function.update v t ((v t).next (.task e) r)) (submitted h) := by
  have hsame : JobInv p₀ s.tp s.jobs (Function.update v t (v t)) (submitted h) := by
    rwa [Function.update_eq_self]
  have hcon := hI.hands t
  cases e with
  | alloc =>
    obtain ⟨q, hq⟩ := hm
    obtain ⟨⟨j, k⟩, ha, hr⟩ := Option.map_eq_some_iff.mp hx
    cases hr
    refine ⟨trivial, ?_⟩
    rw [hq]
    exact hI.alloc ha hq
  | strncpy k src n =>
    obtain ⟨hl, rfl⟩ := hm
    cases hx
    refine ⟨trivial, ?_⟩
    rw [hl] at hcon ⊢
    refine hI.work (by rw [hl]; rfl) rfl ⟨hcon.1, ?_⟩
    show Function.update s.jobs.task k _ k = _
    rw [Function.update_self, hcon.2]
    exact CXEMySqlTask.copyQuery_init (Nat.le_trans hcon.1.2 (by decide))
  | getData k =>
    cases hx
    obtain ⟨n, hl⟩ := hm
    refine ⟨?_, hsame⟩
    rw [hl] at hcon
    obtain ⟨q, hq, hk⟩ := hcon
    show (s.jobs.task k).m_pData = none
    rw [hk]
    exact CXEMySqlTask.m_pData_holding (Nat.le_trans (hI.short _ hq).2 (by decide))
  | getQuery k =>
    obtain ⟨n, hl⟩ := hm
    cases hx
    refine ⟨trivial, ?_⟩
    rw [hl]
    have hwork := hI.work (l := .seen n k) (x := s.jobs.task k) (by rw [hl]; rfl) rfl trivial
    rwa [Jobs.withTask, Function.update_eq_self] at hwork
  | init k =>
    obtain ⟨n, hl⟩ := hm
    cases hx
    refine ⟨trivial, ?_⟩
    rw [hl]
    refine hI.work (by rw [hl]; rfl) rfl ?_
    show Function.update s.jobs.task k _ k = _
    rw [Function.update_self]
  | free k =>
    obtain ⟨n, hl⟩ := hm
    cases hx
    refine ⟨trivial, ?_⟩
    rw [hl]
    exact hI.give hl
  | deref p => exact hm.elim

/-- So does a request of the thread pool. -/
theorem job_tp {x : ThreadPool Nat} {e : TPOp Nat} {r : e.Reply}
    (hI : JobInv p₀ s.tp s.jobs v (submitted h)) (hc : InCall v h) (hm : (v t).may p₀ (.tp e))
    (hx : s.tp.exec t e o = some (x, some r)) :
    (v t).can p₀ (.tp e) r ∧ JobInv p₀ x s.jobs (Function.update v t ((v t).next (.tp e) r))
      (submitted (.reply t (.tp e) r :: h)) := by
  have hsame : JobInv p₀ s.tp s.jobs (Function.update v t (v t)) (submitted h) := by
    rwa [Function.update_eq_self]
  cases e with
  | getPort =>
    cases hx
    exact ⟨hI.port, hsame⟩
  | currentThreadId =>
    refine ⟨trivial, ?_⟩
    cases t <;> cases hx <;> exact hsame
  | post p pkt =>
    obtain ⟨rfl, q, k, hl, rfl⟩ := hm
    simp only [ThreadPool.exec, hI.opened, if_true, Option.some.injEq, Prod.mk.injEq] at hx
    obtain ⟨rfl, hr⟩ := hx
    subst hr
    refine ⟨⟨_, rfl⟩, ?_⟩
    rw [submitted_post (hc t _ (by rw [hl]; rfl)), hl]
    exact hI.post hl
  | getQueued p =>
    obtain ⟨rfl, hl⟩ := hm
    rw [submitted_reply (by simp)]
    simp only [ThreadPool.exec, hI.opened, if_true] at hx
    split at hx
    · cases hx
    · next n pkt rest hq =>
      cases hx
      obtain ⟨k, rfl, hI'⟩ := hI.dequeue hl hq
      exact ⟨⟨n, k, rfl⟩, hI'⟩
  | _ => exact hm.elim

/-- **Step lemma.** Every answer keeps the invariant. -/
theorem job_reply (hI : JobInv p₀ s.tp s.jobs v (submitted h)) (hc : InCall v h)
    (hm : (v t).may p₀ e) (he : exec rt t e o s = some (s', some r)) :
    (v t).can p₀ e r ∧ JobInv p₀ s'.tp s'.jobs (Function.update v t ((v t).next e r))
      (submitted (.reply t e r :: h)) := by
  have hsame : JobInv p₀ s.tp s.jobs (Function.update v t (v t)) (submitted h) := by
    rwa [Function.update_eq_self]
  cases e with
  | con e =>
    obtain ⟨x, hx, rfl⟩ := exec_con he
    exact ⟨trivial, hsame⟩
  | lib e =>
    obtain ⟨rfl, -⟩ := exec_lib he
    exact ⟨trivial, hsame⟩
  | res e =>
    obtain ⟨x, hx, rfl⟩ := exec_res he
    exact ⟨trivial, hsame⟩
  | rt e =>
    obtain ⟨x, hx, rfl⟩ := exec_rt he
    exact ⟨trivial, hsame⟩
  | task e =>
    obtain ⟨x, hx, rfl⟩ := exec_task he
    rw [submitted_reply (by simp)]
    exact job_task (s := s) hI hm hx
  | tp e =>
    obtain ⟨x, hx, rfl⟩ := exec_tp he
    exact job_tp (s := s) hI hc hm hx

end

/-! ## Runs -/

/-- The state after `Start`: the port is open and empty, and all tasks are in the pool, cleared. -/
structure JobsReady (s : State) : Prop where
  port : s.tp.port s.tp.m_hWorkerIoPort = { opened := true }
  pool : s.jobs.pool.WellFormed
  all : ∀ k, k ∈ s.jobs.pool.m_FreeList ↔ k < s.jobs.pool.created
  cleared : ∀ k, s.jobs.task k = .init

theorem jobsReady_started (nCon nJob garbage nMax : Nat) (p : ConnParams) :
    JobsReady (.started nCon nJob garbage nMax p) :=
  ⟨rfl, CPool.wellFormed_new _ _, fun k => by simp [State.started], fun _ => rfl⟩

/-- The invariant of the jobs on states and histories. -/
abbrev jobInvariant (p₀ : Nat) (s : State) (h : List Ev) : Prop :=
  JobInv p₀ s.tp s.jobs (jobView p₀ h) (submitted h) ∧ InCall (jobView p₀ h) h

/-- A thread begins or ends a call with empty hands. -/
theorem JobInv.restart {tp : ThreadPool Nat} {jobs : Jobs} {v : Tid → Job} {t : Tid} {l : Job}
    {sub : List (Nat × Bytes)} (h : JobInv p₀ tp jobs v sub) (hv : (v t).held = none)
    (hl : l.held = none) (hc : ∀ q, l = .calling q → Short q) :
    JobInv p₀ tp jobs (Function.update v t l) sub := by
  refine ⟨h.port, h.opened, h.step_pos, ?_, h.free, h.queued, ?_, h.short⟩
  · rw [held_update, hl]
    obtain ⟨loc, hloc⟩ := h.located
    have hup : Function.update (fun u => (v u).held) t none = fun u => (v u).held := by
      rw [← hv, Function.update_eq_self]
    rw [hup]
    exact ⟨loc, hloc⟩
  · intro u
    by_cases hu : u = t
    · subst hu
      rw [Function.update_self]
      cases l <;> first | exact hc _ rfl | trivial
    · rw [Function.update_of_ne hu]
      exact h.hands u

/-- A call begins or ends, and the thread starts at `l`. -/
theorem InCall.restart {v : Tid → Job} {h : List Ev} {t : Tid} {l : Job} (hv : InCall v h)
    {ev : Ev} (hev : ∀ u, u ≠ t → presentCall u (ev :: h) = presentCall u h)
    (hl : ∀ c, l.call = some c → presentCall t (ev :: h) = some c) :
    InCall (Function.update v t l) (ev :: h) := by
  intro u c hc
  by_cases hu : u = t
  · subst hu
    rw [Function.update_self] at hc
    exact hl c hc
  · rw [Function.update_of_ne hu] at hc
    rw [hev u hu]
    exact hv u c hc

/-- Where a thread is at the beginning of a call. -/
theorem Job.start_spec {t : Tid} {c : Call} (hc : okJobs t c) :
    (Job.start t c).held = none ∧ (∀ q, Job.start t c = .calling q → Short q) ∧
      ∀ d, (Job.start t c).call = some d → c = d := by
  cases c with
  | executeQueryNoRet q =>
    cases q with
    | none => exact hc.elim
    | some q =>
      refine ⟨rfl, ?_, fun d hd => Option.some.inj hd⟩
      rintro _ ⟨⟩
      exact hc
  | workerProc => exact ⟨rfl, by rintro _ ⟨⟩, fun d hd => Option.some.inj hd⟩
  | _ => exact ⟨rfl, by rintro _ ⟨⟩, by rintro _ ⟨⟩⟩

/-- At the end of a call its hands are empty. -/
theorem Job.held_of_final {c : Call} {a : Bool} {l : Job} (h : Job.final c a l) : l.held = none := by
  cases c with
  | executeQueryNoRet q =>
    obtain ⟨q, k, rfl, -⟩ := h
    rfl
  | workerProc =>
    obtain ⟨n, k, rfl⟩ := h
    rfl
  | _ =>
    rw [show l = _ from h]
    rfl

/-- **Between `Start` and `Stop` the invariant of the jobs holds in every run.** -/
theorem delivery_kept (rt : Runtime) {s₀ : State} (h₀ : JobsReady s₀) :
    (machine rt).Kept okJobs s₀ (Job.discipline s₀.tp.m_hWorkerIoPort) .idle Job.start Job.final
      (jobInvariant s₀.tp.m_hWorkerIoPort) where
  code := code_delivers
  init := by
    have hq : (s₀.tp.port s₀.tp.m_hWorkerIoPort).queue = [] := by rw [h₀.port]
    refine ⟨⟨rfl, by rw [h₀.port], h₀.pool.step_pos, ?_, fun k _ => h₀.cleared k, ?_,
      fun _ => trivial, by simp [submitted]⟩, ?_⟩
    · rw [hq]
      exact ⟨_, Located.init _ h₀.pool.nodup h₀.all⟩
    · rw [hq]
      simp
    · intro t q hq
      cases hq
  call s h t c hI hok _ hv := by
    obtain ⟨hI, hc⟩ := hI
    obtain ⟨hheld, hshort, hcall⟩ := Job.start_spec hok
    have hidle : jobView s₀.tp.m_hWorkerIoPort h t = .idle := hv
    refine ⟨?_, ?_⟩
    · rw [jobView, Discipline.view_call]
      exact hI.restart (by rw [hidle]; rfl) hheld hshort
    · rw [jobView, Discipline.view_call]
      refine hc.restart (fun u hu => if_neg (Ne.symm hu)) fun d hd => ?_
      simp [presentCall, hcall d hd]
  wait s h t e o s' hI _ he := by
    obtain ⟨i, rfl⟩ := exec_wait he
    exact hI
  reply s h t e o s' r hI hm he := by
    obtain ⟨hI, hc⟩ := hI
    obtain ⟨hcan, hI'⟩ := job_reply hI hc hm he
    refine ⟨hcan, ?_, ?_⟩
    · rw [jobView, Discipline.view_reply]
      exact hI'
    · rw [jobView, Discipline.view_reply]
      exact hc.restart (fun _ _ => rfl) fun d hd =>
        hc t d ((Job.next_call hm hcan).symm.trans hd)
  done s h t c a hI hf := by
    obtain ⟨hI, hc⟩ := hI
    refine ⟨?_, ?_⟩
    · rw [jobView, Discipline.view_done]
      exact hI.restart (Job.held_of_final hf) rfl (by rintro _ ⟨⟩)
    · rw [jobView, Discipline.view_done]
      exact hc.restart (fun u hu => if_neg (Ne.symm hu)) nofun

end XeMySql
