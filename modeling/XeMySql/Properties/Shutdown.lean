import XeMySql.ThreadPool
import XeMySql.Lib.Solo

/-!
# Stopping the thread pool

A pool of threads by itself: the main thread calls `Start`, posts jobs and calls `Stop`, and the
workers run `WorkerProc`, for any `ProcessTask`. `Stop` hands the wait an array that it has never
filled. It may find values there that are no handles, and then it does not wait at all.

* `stop_at_once` — whatever has been posted, `Stop` can return before any worker has done anything
* `stuck_reachable` — with handles in the array, `Stop` and a worker can wait for each other
* `graceful_iff` — shutting down is safe only if there is nothing to shut down
-/

namespace XeMySql

open Interact

namespace ThreadPool

variable {T : Type}

/-! ## The program -/

/-- The requests of the pool's code, and the virtual call of `ProcessTask`. -/
inductive PoolOp (T : Type) where
  | tp (e : TPOp T)
  | processTask (pTask : Option T)

/-- The answers. -/
abbrev PoolOp.Reply : PoolOp T → Type
  | tp e => e.Reply
  | processTask _ => Unit

/-- `Start (nMax)`, `ProcessJob` for each of `jobs`, and `Stop`; or a round of `WorkerProc`. -/
inductive PoolCall (T : Type) where
  | main (nMax : Nat) (jobs : List T)
  | workerProc

/-- `ProcessJob` for one job after the other. -/
def processJobs : List T → Code T Unit
  | [] => pure ()
  | job :: jobs => do
    processJob (some job) true
    processJobs jobs

/-- The main thread's use of the pool. -/
def useOf (nMax : Nat) (jobs : List T) : Code T Unit := do
  start nMax
  processJobs jobs
  stop

/-- Code of the pool among all requests. -/
def asPool {α : Type} (p : Code T α) : Prog (PoolOp T) PoolOp.Reply α := p.lift .tp fun _ r => r

/-- The code of a call. -/
def PoolCall.code : PoolCall T → Prog (PoolOp T) PoolOp.Reply Bool
  | main nMax jobs => do
    asPool (useOf nMax jobs)
    pure true
  | workerProc => ThreadPool.workerProc asPool fun pTask => Prog.ask (PoolOp.processTask pTask)

/-- Carry out a request; what `ProcessTask` does is not the pool's business. -/
def poolExec (t : Tid) : (e : PoolOp T) → Outcome → ThreadPool T →
    Option (ThreadPool T × Option e.Reply)
  | .tp e, o, s => s.exec t e o
  | .processTask _, _, s => some (s, some ())

/-- The main thread is a client, and ends when `Stop` has returned. -/
def poolMachine (T : Type) :
    Machine Tid (PoolCall T) (PoolOp T) PoolOp.Reply Bool (ThreadPool T) Outcome where
  code _ c := c.code
  exec := poolExec
  enabled t c s :=
    match t, c with
    | .client i, .main _ _ => i == 0
    | .worker i, .workerProc => decide (i < s.threads)
    | _, _ => false
  ends t _ a :=
    match t with
    | .client _ => true
    | .worker _ => !a

/-- A state of a run of the pool. -/
abbrev PoolSys (T : Type) :=
  Machine.Sys Tid (PoolCall T) (PoolOp T) PoolOp.Reply Bool (ThreadPool T)

/-- What is recorded of it. -/
abbrev PoolEv (T : Type) := Event Tid (PoolCall T) (PoolOp T) PoolOp.Reply Bool

/-- What the constructor leaves. -/
def new (T : Type) : ThreadPool T where
  m_arrayCs := .free
  m_ThreadList := []
  m_hWorkerIoPort := 0
  ports := 0
  port := fun _ => {}
  threads := 0
  info := fun _ => ⟨0, 0⟩
  ended := fun _ => false

/-- The main thread uses the pool with `nMax` workers and `jobs`. -/
def okUse (nMax : Nat) (jobs : List T) (_ : Tid) : PoolCall T → Prop
  | .main n js => n = nMax ∧ js = jobs
  | .workerProc => True

/-! ## What the main thread can do alone -/

/-- The packets for a list of jobs. -/
def packets (jobs : List T) : List (Packet T) := jobs.map fun k => .job true (some k)

/-- A pool whose port is open and holds the packets `pkts`, and whose `n` threads have been created
in order and run. -/
structure Calm (s : ThreadPool T) (n : Nat) (pkts : List (Packet T)) : Prop where
  opened : (s.port s.m_hWorkerIoPort).opened = true
  queue : (s.port s.m_hWorkerIoPort).queue.map Prod.snd = pkts
  threads : s.threads = n
  size : s.m_ThreadList.length = n
  info : ∀ i < n, s.info i = ⟨i + 1, i⟩
  alive : ∀ i, s.ended i = false

section

variable {s : ThreadPool T} {n : Nat} {t : Tid} {pkts : List (Packet T)}

namespace Calm

theorem fresh_id (h : s.Calm n pkts) : s.idInUse (n + 1) = false := by
  unfold idInUse
  rw [List.any_eq_false]
  intro i hi
  rw [h.threads, List.mem_range] at hi
  rw [h.info i hi]
  simp only [Bool.and_eq_true, beq_iff_eq, Bool.not_eq_true']
  omega

/-- Handle `i` is that of thread `i`. -/
theorem liveHandle_iff (h : s.Calm n pkts) (i : Nat) : s.liveHandle i = true ↔ i < n := by
  unfold liveHandle
  rw [List.any_eq_true]
  constructor
  · rintro ⟨j, hj, hi⟩
    rw [h.threads, List.mem_range] at hj
    rw [h.info j hj, beq_iff_eq] at hi
    exact hi ▸ hj
  · intro hi
    refine ⟨i, ?_, ?_⟩
    · rwa [h.threads, List.mem_range]
    · rw [h.info i hi, beq_iff_eq]

/-- Values that belong to no thread keep nobody waiting. -/
theorem not_waits (h : s.Calm n pkts) : s.waits (List.replicate n n) = false := by
  cases n with
  | zero => rfl
  | succ n =>
    have hlive : s.liveHandle (n + 1) = false := by
      rw [Bool.eq_false_iff, ne_eq, h.liveHandle_iff]
      exact Nat.lt_irrefl _
    unfold waits
    rw [List.replicate_succ, List.all_cons, hlive]
    simp

/-- The handles of the threads would make their reader wait. -/
theorem waits (h : s.Calm n pkts) (hn : 0 < n) (hmax : n ≤ maximumWaitObjects) :
    s.waits (List.range n) = true := by
  have hlive : (List.range n).all s.liveHandle = true := by
    rw [List.all_eq_true]
    exact fun i hi => (h.liveHandle_iff i).mpr (List.mem_range.mp hi)
  have hsig : (List.range n).all s.signaled = false := by
    rw [List.all_eq_false]
    refine ⟨0, List.mem_range.mpr hn, ?_⟩
    unfold signaled
    simp [h.alive]
  have hne : (List.range n).isEmpty = false := by
    rw [List.isEmpty_eq_false_iff, ne_eq, List.range_eq_nil]
    omega
  unfold ThreadPool.waits
  rw [hlive, hsig, hne, List.length_range, decide_eq_true hmax]
  rfl

theorem locked (h : s.Calm n pkts) (l : Lock Tid) : Calm { s with m_arrayCs := l } n pkts :=
  ⟨h.opened, h.queue, h.threads, h.size, h.info, h.alive⟩

/-- The port has changed. -/
theorem withPort (h : s.Calm n pkts) {q : Port T} {pkts' : List (Packet T)} (ho : q.opened = true)
    (hq : q.queue.map Prod.snd = pkts') : Calm (s.withPort s.m_hWorkerIoPort q) n pkts' := by
  refine ⟨?_, ?_, h.threads, h.size, h.info, h.alive⟩
  · show ((s.withPort s.m_hWorkerIoPort q).port s.m_hWorkerIoPort).opened = true
    rw [port_withPort, ho]
  · show ((s.withPort s.m_hWorkerIoPort q).port s.m_hWorkerIoPort).queue.map Prod.snd = pkts'
    rw [port_withPort, hq]

/-- Posting leaves a pool calm. -/
theorem post (h : s.Calm n pkts) (pkt : Packet T) :
    Calm (s.withPort s.m_hWorkerIoPort ((s.port s.m_hWorkerIoPort).push pkt)) n (pkts ++ [pkt]) := by
  refine h.withPort h.opened ?_
  rw [← h.queue]
  simp [Port.push]

end Calm

theorem unLock_canRun (hl : s.m_arrayCs = .held t 0) :
    (req .unLock : Code T Unit).CanRun (exec t) s fun _ s' => s' = { s with m_arrayCs := .free } :=
  ⟨.success, { s with m_arrayCs := .free }, (), by simp [exec, hl], rfl⟩

theorem startThreads_canRun (m : Nat) (h : s.Calm n pkts) (hl : s.m_arrayCs = .held t 0) :
    (startThreads m).CanRun (exec t) s
      fun _ s' => s'.Calm (n + m) pkts ∧ s'.m_arrayCs = .held t 0 := by
  induction m generalizing s n with
  | zero => exact ⟨h, hl⟩
  | succ m ih =>
    refine ⟨{ number := n + 1 }, _, _, by simp only [exec, h.fresh_id]; rfl, ?_⟩
    refine ⟨.success, _, _, rfl, ?_⟩
    rw [Nat.add_comm m 1, ← Nat.add_assoc]
    refine ih ⟨h.opened, h.queue, ?_, ?_, ?_, ?_⟩ hl
    · show s.threads + 1 = n + 1
      rw [h.threads]
    · simp [h.size]
    · intro i hi
      show Function.update s.info s.threads _ i = _
      rw [h.threads]
      by_cases hin : i = n
      · subst hin
        rw [Function.update_self]
      · rw [Function.update_of_ne hin]
        exact h.info i (by omega)
    · intro i
      show Function.update s.ended s.threads false i = false
      by_cases hin : i = s.threads
      · rw [hin, Function.update_self]
      · rw [Function.update_of_ne hin]
        exact h.alive i

theorem start_canRun (nMax : Nat) :
    (start nMax).CanRun (exec t) (new T) fun _ s => s.Calm nMax [] ∧ s.m_arrayCs = .free := by
  refine ⟨.success, _, _, rfl, .success, _, _, rfl, .success, _, _, rfl, ?_⟩
  refine (startThreads_canRun (n := 0) nMax ⟨rfl, rfl, rfl, rfl, by simp, fun _ => rfl⟩ rfl).bind ?_
  rintro _ s ⟨h, hl⟩
  rw [Nat.zero_add] at h
  refine (unLock_canRun hl).mono ?_
  rintro _ _ rfl
  exact ⟨h.locked _, rfl⟩

theorem processJobs_canRun (jobs : List T) (h : s.Calm n pkts) (hl : s.m_arrayCs = .free) :
    (processJobs jobs).CanRun (exec t) s
      fun _ s' => s'.Calm n (pkts ++ packets jobs) ∧ s'.m_arrayCs = .free := by
  induction jobs generalizing s pkts with
  | nil => exact ⟨by simpa [packets] using h, hl⟩
  | cons job jobs ih =>
    have hrest := ih (h.post (.job true (some job))) hl
    rw [List.append_assoc] at hrest
    exact ⟨.success, _, _, rfl, .success, _, _, by simp only [exec, h.opened]; rfl, hrest⟩

theorem postExits_canRun (m : Nat) (h : s.Calm n pkts) (hl : s.m_arrayCs = .held t 0) :
    (postExits m).CanRun (exec t) s
      fun _ s' => s'.Calm n (pkts ++ List.replicate m .exit) ∧ s'.m_arrayCs = .held t 0 := by
  induction m generalizing s pkts with
  | zero => exact ⟨by simpa using h, hl⟩
  | succ m ih =>
    have hrest := ih (h.post .exit) hl
    rw [List.append_assoc] at hrest
    exact ⟨.success, _, _, rfl, .success, _, _, by simp only [exec, h.opened]; rfl, hrest⟩

/-- The use of the pool up to the wait in `Stop`, with the array for it. -/
def untilWait (nMax : Nat) (jobs : List T) : Code T (List Nat) := do
  start nMax
  processJobs jobs
  req .lock
  let nCount ← req .size
  let pThread ← req (.newHandles nCount)
  postExits nCount
  pure pThread

/-- The rest of `Stop`. -/
def closeDown (pThread : List Nat) : Code T Unit := do
  req (.waitForMultipleObjects pThread)
  let p ← req .getPort
  req (.closeHandle p)
  req .unLock

theorem useOf_eq (nMax : Nat) (jobs : List T) :
    useOf nMax jobs = untilWait nMax jobs >>= closeDown := by
  simp [useOf, untilWait, stop, closeDown, req]

/-- **Whatever has been posted, and whatever the array holds**, the main thread comes to the wait. -/
theorem untilWait_canRun (nMax : Nat) (jobs : List T) {hs : List Nat} (hlen : hs.length = nMax) :
    (untilWait nMax jobs).CanRun (exec t) (new T) fun a s => a = hs ∧
      s.Calm nMax (packets jobs ++ List.replicate nMax .exit) ∧ s.m_arrayCs = .held t 0 := by
  refine (start_canRun nMax).bind ?_
  rintro _ s ⟨h, hl⟩
  refine (processJobs_canRun jobs h hl).bind ?_
  rintro _ s ⟨h, hl⟩
  refine ⟨.success, { s with m_arrayCs := .held t 0 }, (), by simp [exec, hl], ?_⟩
  refine ⟨.success, _, _, rfl, { values := hs }, { s with m_arrayCs := .held t 0 }, hs, ?_, ?_⟩
  · simp [exec, h.size, hlen]
  · refine (postExits_canRun s.m_ThreadList.length (h.locked _) rfl).bind ?_
    rw [h.size]
    rintro _ s' ⟨h', hl'⟩
    exact ⟨rfl, h', hl'⟩

/-- With no handles in the array, `Stop` returns. -/
theorem closeDown_canRun (h : s.Calm n pkts) (hl : s.m_arrayCs = .held t 0) :
    (closeDown (List.replicate n n) : Code T Unit).CanRun (exec t) s fun _ _ => True := by
  refine ⟨.success, s, (), by simp [exec, h.not_waits], .success, _, _, rfl, .success, _, _, rfl, ?_⟩
  exact (unLock_canRun (s := s.withPort _ _) hl).mono fun _ _ _ => trivial

/-- What the pool's code can do, it can do among all requests. -/
theorem asPool_canRun {α : Type} {p : Code T α} {Q : α → ThreadPool T → Prop}
    (h : p.CanRun (exec t) s Q) : (asPool p).CanRun (poolExec t) s Q := by
  unfold asPool
  refine Prog.CanRun.lift ?_ h
  exact fun _ _ _ _ r he => ⟨r, he, rfl⟩

end

/-! ## Graceful shutdown -/

/-- The tasks that have been given to `ProcessTask`. -/
def given : List (PoolEv T) → List T
  | [] => []
  | .reply _ (.processTask (some k)) _ :: h => k :: given h
  | _ :: h => given h

/-- `Stop` has returned. -/
def Stopped (s : PoolSys T) : Prop := s.thread (.client 0) = .stopped

/-- `Stop` owns the lock and waits for worker `i`, which waits for the lock in `RemoveThread`. -/
def Stuck (s : PoolSys T) (i : Nat) : Prop :=
  (∃ hs c k, s.thread (.client 0) = .running c (.op (.tp (.waitForMultipleObjects hs)) k) ∧
    s.shared.waits hs = true ∧ (s.shared.info i).m_hThread ∈ hs) ∧
  s.shared.m_arrayCs.owner = some (.client 0) ∧
  (∃ c k, s.thread (.worker i) = .running c (.op (.tp .lock) k))

/-- The claim on `nMax` workers and `jobs`: when `Stop` has returned, all jobs have been given to
`ProcessTask` and all workers have left their loops; and `Stop` and a worker never wait for each
other. -/
def Graceful (nMax : Nat) (jobs : List T) : Prop :=
  ∀ s, (poolMachine T).Reach (okUse nMax jobs) (new T) s →
    (Stopped s → (∀ k ∈ jobs, k ∈ given s.hist) ∧
      ∀ i < nMax, s.thread (.worker i) = .stopped) ∧
    ∀ i, ¬ Stuck s i

/-- No request of the pool's code is `ProcessTask`. -/
def Own : PoolOp T → Prop
  | .tp _ => True
  | .processTask _ => False

theorem given_of_own {h evs : List (PoolEv T)} {t : Tid}
    (hevs : ∀ ev ∈ evs, ∃ e r, Own e ∧ ev = .reply t e r) : given (evs ++ h) = given h := by
  induction evs with
  | nil => rfl
  | cons ev evs ih =>
    obtain ⟨e, r, he, rfl⟩ := hevs ev List.mem_cons_self
    have hrest := ih fun ev hm => hevs ev (List.mem_cons_of_mem _ hm)
    cases e with
    | tp e => exact hrest
    | processTask k => exact he.elim

/-- The main thread has come to the wait, with any array, and nobody else has done anything. -/
theorem reach_wait (nMax : Nat) (jobs : List T) (hs : List Nat) (hlen : hs.length = nMax) :
    ∃ s, (poolMachine T).Reach (okUse nMax jobs) (new T) s ∧
      s.thread (.client 0) = .running (.main nMax jobs)
        (asPool (closeDown hs) >>= fun _ => pure true) ∧
      s.shared.Calm nMax (packets jobs ++ List.replicate nMax .exit) ∧
      s.shared.m_arrayCs = .held (.client 0) 0 ∧ given s.hist = [] ∧
      ∀ i, s.thread (.worker i) = .idle := by
  have h₀ : (poolMachine T).Reach (okUse nMax jobs) (new T) (.init (new T)) := .init
  obtain ⟨s₁, h₁, hs₁, ht₁, hother₁, hhist₁⟩ :=
    h₀.call (t := .client 0) (c := .main nMax jobs) rfl ⟨rfl, rfl⟩ rfl
  have hcode : (PoolCall.main nMax jobs).code =
      asPool (untilWait nMax jobs) >>= fun hs => asPool (closeDown hs) >>= fun _ => pure true := by
    show asPool (useOf nMax jobs) >>= _ = _
    rw [useOf_eq, asPool, Prog.lift_bind, bind_assoc]
    rfl
  have hrun := asPool_canRun (t := .client 0) (untilWait_canRun nMax jobs hlen)
  have hnew : s₁.shared = new T := hs₁
  rw [← hnew] at hrun
  obtain ⟨s, a, h₂, ht, ⟨rfl, hcalm, hl⟩, hother, evs, hhist, hevs⟩ :=
    h₁.alone (P := Own) (ht₁.trans (congrArg _ hcode)) hrun (Prog.only_lift (fun _ => trivial) _)
  refine ⟨s, h₂, ht, hcalm, hl, ?_, fun i => ?_⟩
  · rw [hhist, given_of_own hevs, hhist₁]
    rfl
  · rw [hother _ (by simp), hother₁ _ (by simp)]
    rfl

/-- **The scheduler can leave the workers out until `Stop` has returned.** -/
theorem stop_at_once (nMax : Nat) (jobs : List T) :
    ∃ s, (poolMachine T).Reach (okUse nMax jobs) (new T) s ∧ Stopped s ∧ given s.hist = [] ∧
      ∀ i, s.thread (.worker i) = .idle := by
  obtain ⟨s, h, ht, hcalm, hl, hgiven, hidle⟩ :=
    reach_wait nMax jobs (List.replicate nMax nMax) (List.length_replicate ..)
  obtain ⟨s', a, h', ht', -, hother, evs, hhist, hevs⟩ :=
    h.alone (P := Own) ht (asPool_canRun (closeDown_canRun hcalm hl))
      (Prog.only_lift (fun _ => trivial) _)
  obtain ⟨s'', h'', -, ht'', hother', hhist'⟩ := h'.done ht' .success
  refine ⟨s'', h'', ht'', ?_, fun i => ?_⟩
  · rw [hhist']
    show given s'.hist = []
    rw [hhist, given_of_own hevs, hgiven]
  · rw [hother' _ (by simp), hother _ (by simp)]
    exact hidle i

/-! ## What the workers can do meanwhile -/

section

variable {s : PoolSys T} {nMax n : Nat} {jobs js : List T} {pkts : List (Packet T)} {l : Lock Tid}

/-- The front packet of a calm pool is taken. -/
theorem Calm.getQueued {s : ThreadPool T} {pkt : Packet T} (h : s.Calm n (pkt :: pkts)) (t : Tid)
    (o : Outcome) : ∃ m s', s.exec t (.getQueued s.m_hWorkerIoPort) o
        = some (s', some (.packet m pkt)) ∧ s'.Calm n pkts ∧ s'.m_arrayCs = s.m_arrayCs := by
  have hq := h.queue
  cases hqueue : (s.port s.m_hWorkerIoPort).queue with
  | nil =>
    rw [hqueue] at hq
    cases hq
  | cons x rest =>
    obtain ⟨m, p⟩ := x
    rw [hqueue, List.map_cons, List.cons.injEq] at hq
    obtain ⟨rfl, rfl⟩ := hq
    refine ⟨m, s.withPort s.m_hWorkerIoPort (s.port s.m_hWorkerIoPort).pop, ?_, ?_, rfl⟩
    · simp only [exec, h.opened, hqueue, if_true]
    · refine h.withPort h.opened ?_
      show (s.port s.m_hWorkerIoPort).queue.tail.map Prod.snd = _
      rw [hqueue, List.tail_cons]

/-- A round of `WorkerProc` with a job. -/
theorem round_canRun {s : ThreadPool T} {i : Nat} {k : T}
    (h : s.Calm n (.job true (some k) :: pkts)) (hl : s.m_arrayCs = l) :
    (PoolCall.workerProc : PoolCall T).code.CanRun (poolExec (.worker i)) s
      fun a s' => a = true ∧ s'.Calm n pkts ∧ s'.m_arrayCs = l := by
  obtain ⟨m, s', he, h', hl'⟩ := h.getQueued (.worker i) .success
  exact ⟨.success, _, _, rfl, .success, _, _, rfl, .success, s', _, he, .success, _, _, rfl, rfl, h',
    hl'.trans hl⟩

/-- Worker 0 works off the jobs in the queue while the other threads stand still. -/
theorem drain (h : (poolMachine T).Reach (okUse nMax jobs) (new T) s)
    (hw : s.thread (.worker 0) = .idle) (hn : 0 < n) (hc : s.shared.Calm n (packets js ++ pkts))
    (hl : s.shared.m_arrayCs = l) :
    ∃ s', (poolMachine T).Reach (okUse nMax jobs) (new T) s' ∧ s'.shared.Calm n pkts ∧
      s'.shared.m_arrayCs = l ∧ s'.thread (.worker 0) = .idle ∧
      s'.thread (.client 0) = s.thread (.client 0) := by
  induction js generalizing s with
  | nil => exact ⟨s, h, hc, hl, hw, rfl⟩
  | cons k js ih =>
    have henabled : (poolMachine T).enabled (.worker 0) .workerProc s.shared = true :=
      decide_eq_true (hc.threads.symm ▸ hn)
    obtain ⟨s₁, h₁, hs₁, ht₁, hother₁, -⟩ := h.call (c := .workerProc) hw trivial henabled
    obtain ⟨s₂, a, h₂, ht₂, ⟨rfl, hc₂, hl₂⟩, hother₂, -⟩ :=
      h₁.alone (P := fun _ => True) (f := pure) (ht₁.trans (congrArg _ (bind_pure _).symm))
        (round_canRun (hs₁ ▸ hc) (hs₁ ▸ hl)) (Prog.only_true _)
    obtain ⟨s₃, h₃, hs₃, ht₃, hother₃, -⟩ := h₂.done ht₂ .success
    obtain ⟨s', h', hc', hl', hw', hmain⟩ := ih h₃ ht₃ (hs₃ ▸ hc₂) (hs₃ ▸ hl₂)
    refine ⟨s', h', hc', hl', hw', hmain.trans ?_⟩
    rw [hother₃ _ (by simp), hother₂ _ (by simp), hother₁ _ (by simp)]

/-- **If the array held the handles**, `Stop` could wait for a worker that waits for `Stop`. -/
theorem stuck_reachable (hn : 0 < nMax) (hmax : nMax ≤ maximumWaitObjects) (jobs : List T) :
    ∃ s, (poolMachine T).Reach (okUse nMax jobs) (new T) s ∧ Stuck s 0 := by
  obtain ⟨s₀, h₀, hmain, hc₀, hl₀, -, hidle⟩ := reach_wait nMax jobs (List.range nMax)
    List.length_range
  obtain ⟨s, h, hc, hl, hw, hm⟩ := drain h₀ (hidle 0) hn hc₀ hl₀
  -- the worker takes its exit packet and goes on to `RemoveThread`
  have henabled : (poolMachine T).enabled (.worker 0) .workerProc s.shared = true :=
    decide_eq_true (hc.threads.symm ▸ hn)
  obtain ⟨m, rfl⟩ : ∃ m, nMax = m + 1 := ⟨nMax - 1, by omega⟩
  rw [List.replicate_succ] at hc
  obtain ⟨num, sh, he, hc', hl'⟩ := hc.getQueued (.worker 0) .success
  obtain ⟨s₁, h₁, hs₁, ht₁, ho₁, -⟩ := h.call (c := .workerProc) hw trivial henabled
  obtain ⟨s₂, h₂, hs₂, ht₂, ho₂, -⟩ := h₁.reply (o := .success) ht₁ rfl
  obtain ⟨s₃, h₃, hs₃, ht₃, ho₃, -⟩ := h₂.reply (o := .success) ht₂ rfl
  have he₃ : (poolMachine T).exec (.worker 0) (.tp (.getQueued s₂.shared.m_hWorkerIoPort)) .success
      s₃.shared = some (sh, some (.packet num .exit)) := by
    rw [hs₃, hs₂, hs₁]
    exact he
  obtain ⟨s₄, h₄, rfl, ht₄, ho₄, -⟩ := h₃.reply ht₃ he₃
  have hwait : s₄.thread (.client 0) = .running (.main (m + 1) jobs)
      (asPool (closeDown (List.range (m + 1))) >>= fun _ => pure true) := by
    rw [ho₄ _ (by simp), ho₃ _ (by simp), ho₂ _ (by simp), ho₁ _ (by simp), hm, hmain]
  refine ⟨s₄, h₄, ⟨List.range (m + 1), _, _, hwait, hc'.waits hn hmax, ?_⟩, ?_, _, _, ht₄⟩
  · rw [hc'.info 0 hn, List.mem_range]
    exact hn
  · rw [hl', hl]
    rfl

end

/-! ## Nothing to shut down -/

/-- Requests that create no thread. -/
def NoThread : PoolOp T → Prop
  | .tp .createThread => False
  | _ => True

theorem exec_threads {t : Tid} {e : TPOp T} {o : Outcome} {s s' : ThreadPool T}
    {r : Option e.Reply} (he : e ≠ .createThread) (h : s.exec t e o = some (s', r)) :
    s'.threads = s.threads := by
  refine ((exec_frame h).threads ?_).1
  cases e with
  | createThread => exact absurd rfl he
  | _ => rfl

theorem postExits_noThread (n : Nat) :
    (postExits n : Code T Unit).Only (NoThread ∘ .tp) := by
  induction n with
  | zero => trivial
  | succ n ih => exact ⟨trivial, fun _ => ⟨trivial, fun _ => ih⟩⟩

theorem processJobs_noThread (jobs : List T) : (processJobs jobs).Only (NoThread ∘ .tp) := by
  induction jobs with
  | nil => trivial
  | cons job jobs ih => exact ⟨trivial, fun _ => ⟨trivial, fun _ => ih⟩⟩

theorem useOf_noThread (jobs : List T) : (useOf 0 jobs).Only (NoThread ∘ .tp) := by
  refine ⟨trivial, fun _ => ⟨trivial, fun _ => ⟨trivial, fun _ => ⟨trivial, fun _ => ?_⟩⟩⟩⟩
  simp only [Prog.bind_ret]
  refine Prog.only_bind (processJobs_noThread jobs) fun _ => ?_
  refine ⟨trivial, fun _ => ⟨trivial, fun n => ⟨trivial, fun hs => ?_⟩⟩⟩
  simp only [Prog.bind_ret]
  refine Prog.only_bind (postExits_noThread n) fun _ => ?_
  exact ⟨trivial, fun _ => ⟨trivial, fun _ => ⟨trivial, fun _ => ⟨trivial, fun _ => trivial⟩⟩⟩⟩

/-- Without workers, no thread is ever created, and none runs. -/
structure Lonely (s : PoolSys T) : Prop where
  threads : s.shared.threads = 0
  workers : ∀ i, s.thread (.worker i) = .idle
  code : ∀ t c p, s.thread t = .running c p → p.Only NoThread

/-- A client takes a step. -/
theorem Lonely.move {s : PoolSys T} (hI : Lonely s) {sh : ThreadPool T} (hsh : sh.threads = 0)
    (i : Nat) {th : Thread (PoolCall T) (PoolOp T) PoolOp.Reply Bool}
    (hth : ∀ c p, th = .running c p → p.Only NoThread) (h : List (PoolEv T)) :
    Lonely ⟨sh, Function.update s.thread (.client i) th, h⟩ := by
  refine ⟨hsh, fun u => ?_, fun u c p hu => ?_⟩
  · show Function.update s.thread (.client i) th (.worker u) = _
    rw [Function.update_of_ne (by simp)]
    exact hI.workers u
  · have hu : Function.update s.thread (.client i) th u = .running c p := hu
    by_cases hui : u = .client i
    · subst hui
      rw [Function.update_self] at hu
      exact hth c p hu
    · rw [Function.update_of_ne hui] at hu
      exact hI.code u c p hu

theorem lonely {jobs : List T} {s : PoolSys T}
    (h : (poolMachine T).Reach (okUse 0 jobs) (new T) s) : Lonely s := by
  refine h.invariant ⟨rfl, fun _ => rfl, fun _ _ _ ht => nomatch ht⟩ ?_
  intro s l s' hI hl hs
  -- whoever runs is a client
  have hclient : ∀ t, s.thread t ≠ .idle → ∃ i, t = .client i := by
    rintro (i | i) ht
    · exact ⟨i, rfl⟩
    · exact absurd (hI.workers i) ht
  cases hs with
  | @call t c ht hc =>
    cases t with
    | worker i =>
      cases c with
      | main n js => cases hc
      | workerProc =>
        have hlt : i < s.shared.threads := of_decide_eq_true hc
        rw [hI.threads] at hlt
        exact absurd hlt (Nat.not_lt_zero i)
    | client i =>
      cases c with
      | workerProc => cases hc
      | main n js =>
        obtain ⟨rfl, -⟩ := hl _ _ rfl
        refine hI.move hI.threads i ?_ _
        rintro _ _ ⟨⟩
        exact Prog.only_bind ((useOf_noThread js).lift fun _ he => he) fun _ => trivial
  | @wait t o c e k sh ht he =>
    refine ⟨?_, hI.workers, hI.code⟩
    cases e with
    | tp e =>
      refine (exec_threads ?_ he).trans hI.threads
      rintro rfl
      exact (hI.code t c _ ht).1
    | processTask k => cases he
  | @reply t o c e k sh r ht he =>
    obtain ⟨i, rfl⟩ := hclient t (by rw [ht]; simp)
    have honly := hI.code _ c _ ht
    refine hI.move ?_ i ?_ _
    · cases e with
      | tp e =>
        refine (exec_threads ?_ he).trans hI.threads
        rintro rfl
        exact honly.1
      | processTask k =>
        cases he
        exact hI.threads
    · rintro _ _ ⟨⟩
      exact honly.2 r
  | @done t o c a ht =>
    obtain ⟨i, rfl⟩ := hclient t (by rw [ht]; simp)
    refine hI.move hI.threads i (fun c' p hp => ?_) _
    split at hp <;> cases hp

/-- **Shutting down is graceful only if there is nothing to shut down**: no worker and no job. -/
theorem graceful_iff (nMax : Nat) (jobs : List T) : Graceful nMax jobs ↔ nMax = 0 ∧ jobs = [] := by
  constructor
  · intro h
    obtain ⟨s, hs, hstop, hgiven, hidle⟩ := stop_at_once nMax jobs
    obtain ⟨hjobs, hleft⟩ := (h s hs).1 hstop
    refine ⟨?_, List.eq_nil_iff_forall_not_mem.mpr fun k hk => ?_⟩
    · by_contra hn
      have := hleft 0 (Nat.pos_of_ne_zero hn)
      rw [hidle] at this
      cases this
    · have := hjobs k hk
      rw [hgiven] at this
      cases this
  · rintro ⟨rfl, rfl⟩ s hs
    refine ⟨fun _ => ⟨by simp, by simp⟩, ?_⟩
    rintro i ⟨-, -, c, k, hw⟩
    rw [(lonely hs).workers i] at hw
    cases hw

/-- One worker, one job: `Stop` has returned, the job has been given to nobody, and the worker is
still in its loop. -/
theorem lost_at_shutdown : ∃ s, (poolMachine Unit).Reach (okUse 1 [()]) (new Unit) s ∧ Stopped s ∧
    () ∉ given s.hist ∧ s.thread (.worker 0) = .idle := by
  obtain ⟨s, hs, hstop, hgiven, hidle⟩ := stop_at_once 1 [()]
  exact ⟨s, hs, hstop, by simp [hgiven], hidle 0⟩

end ThreadPool

end XeMySql
