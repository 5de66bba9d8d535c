import XeMySql.Lib.Machine
import XeMySql.Lib.Lock
import XeMySql.Lib.CString

/-!
# `CThreadPool` (`ThreadPool.h`, `ThreadPool.cpp`)

The thread pool knows its tasks as `ITask*` only, so they are a parameter `T` here. Its code makes
the requests `TPOp`: the calls it makes to Windows, and its accesses to its own fields. Completion
ports and threads are numbered in the order of their creation.

The thread list is only read and written by a thread inside `m_arrayCs`, so a loop over it (the
search in `RemoveThread`) is one request.
-/

namespace XeMySql

open Interact

/-- The threads of the program: those `CThreadPool::Start` creates, and all others. -/
inductive Tid where
  | client (i : Nat)
  | worker (i : Nat)
deriving DecidableEq

/--
What the environment decides about one request: whether a call succeeds, and what it delivers.
Each request looks at the fields that concern it.
-/
structure Outcome where
  ok : Bool := true
  number : Nat := 0
  text : Bytes := []
  useDb : Option Bytes := none
  values : List Nat := []

/-- The call succeeds. -/
def Outcome.success : Outcome := {}

/-- A packet of a completion port: the exit packet of `Stop`, or a task with its worker (the flag
says that `pWorker` is not NULL). -/
inductive Packet (T : Type) where
  | exit
  | job (pWorker : Bool) (pTask : Option T)
deriving DecidableEq

/-- What `GetQueuedCompletionStatus` delivers. Packets carry their number in the port. -/
inductive Dequeued (T : Type) where
  | failed
  | packet (n : Nat) (p : Packet T)
deriving DecidableEq

/-- A completion port: a FIFO queue that can be closed. -/
structure Port (T : Type) where
  opened : Bool := false
  queue : List (Nat × Packet T) := []
  sent : Nat := 0

/-- `PostQueuedCompletionStatus` -/
def Port.push {T : Type} (q : Port T) (pkt : Packet T) : Port T :=
  { q with queue := q.queue ++ [(q.sent, pkt)], sent := q.sent + 1 }

/-- The front packet has been taken. -/
def Port.pop {T : Type} (q : Port T) : Port T := { q with queue := q.queue.tail }

theorem Port.pop_eq {T : Type} {q : Port T} {x : Nat × Packet T} {rest : List (Nat × Packet T)}
    (hq : q.queue = x :: rest) : q.pop = { q with queue := rest } := by
  rw [Port.pop, hq, List.tail_cons]

/-- `struct ThreadInfo` -/
structure ThreadInfo where
  m_dwThreadIdx : Nat
  m_hThread : Nat
deriving DecidableEq

/-- `class CThreadPool`, and the system objects it uses. -/
structure ThreadPool (T : Type) where
  m_arrayCs : Lock Tid
  m_ThreadList : List ThreadInfo
  m_hWorkerIoPort : Nat
  /-- completion ports created so far -/
  ports : Nat
  port : Nat → Port T
  /-- threads created so far, what the system knows them by, and which have ended -/
  threads : Nat
  info : Nat → ThreadInfo
  ended : Nat → Bool

/-- The requests of the thread pool's code. -/
inductive TPOp (T : Type) where
  | lock
  | unLock
  | createPort
  | setPort (p : Nat)
  | getPort
  | createThread
  | pushBack (info : ThreadInfo)
  | size
  | newHandles (n : Nat)
  | post (p : Nat) (pkt : Packet T)
  | getQueued (p : Nat)
  | waitForMultipleObjects (hs : List Nat)
  | closeHandle (p : Nat)
  | currentThreadId
  | remove (threadId : Nat)
  | endThread
deriving DecidableEq

namespace TPOp

variable {T : Type}

/-- The answers to the requests. -/
abbrev Reply : TPOp T → Type
  | createPort => Nat
  | getPort => Nat
  | createThread => ThreadInfo
  | size => Nat
  | newHandles _ => List Nat
  | post _ _ => Option Nat
  | getQueued _ => Dequeued T
  | currentThreadId => Nat
  | _ => Unit

end TPOp

namespace ThreadPool

variable {T : Type}

/-- Thread handle `h` belongs to a created thread. -/
def liveHandle (s : ThreadPool T) (h : Nat) : Bool :=
  (List.range s.threads).any fun i => (s.info i).m_hThread == h

/-- The thread of handle `h` has ended. -/
def signaled (s : ThreadPool T) (h : Nat) : Bool :=
  (List.range s.threads).any fun i => (s.info i).m_hThread == h && s.ended i

/-- `MAXIMUM_WAIT_OBJECTS` -/
def maximumWaitObjects : Nat := 64

/--
`WaitForMultipleObjects(.., TRUE, INFINITE)` keeps its caller waiting: all values are handles of
threads, and some of them has not ended. It fails at once for an empty array, for one that is too
long, and for a value that is no handle.
-/
def waits (s : ThreadPool T) (hs : List Nat) : Bool :=
  !hs.isEmpty && decide (hs.length ≤ maximumWaitObjects) && hs.all s.liveHandle &&
    !hs.all s.signaled

/-- The system thread id `id` belongs to a thread that has not ended. -/
def idInUse (s : ThreadPool T) (id : Nat) : Bool :=
  (List.range s.threads).any fun i => (s.info i).m_dwThreadIdx == id && !s.ended i

/-- Port `p` becomes `q`. -/
def withPort (s : ThreadPool T) (p : Nat) (q : Port T) : ThreadPool T :=
  { s with port := Function.update s.port p q }

@[simp] theorem port_withPort (s : ThreadPool T) (p : Nat) (q : Port T) :
    (s.withPort p q).port p = q :=
  Function.update_self ..

/--
Carry out a request of thread `t`.

`CreateThread` gives the new thread an id that no running thread has; the memory that
`new HANDLE[n]` returns holds whatever values the environment likes.
-/
def exec (t : Tid) : (e : TPOp T) → Outcome → ThreadPool T →
    Option (ThreadPool T × Option e.Reply)
  | .lock, _, s =>
    match s.m_arrayCs.tryEnter t with
    | some l => some ({ s with m_arrayCs := l }, some ())
    | none => some (s, none)
  | .unLock, _, s => (s.m_arrayCs.leave t).map fun l => ({ s with m_arrayCs := l }, some ())
  | .createPort, _, s =>
    some ({ s.withPort s.ports { opened := true } with ports := s.ports + 1 }, some s.ports)
  | .setPort p, _, s => some ({ s with m_hWorkerIoPort := p }, some ())
  | .getPort, _, s => some (s, some s.m_hWorkerIoPort)
  | .createThread, o, s =>
    if s.idInUse o.number then none
    else
      some ({ s with
          threads := s.threads + 1
          info := Function.update s.info s.threads ⟨o.number, s.threads⟩
          ended := Function.update s.ended s.threads false },
        some ⟨o.number, s.threads⟩)
  | .pushBack info, _, s => some ({ s with m_ThreadList := s.m_ThreadList ++ [info] }, some ())
  | .size, _, s => some (s, some s.m_ThreadList.length)
  | .newHandles n, o, s => if o.values.length = n then some (s, some o.values) else none
  | .post p pkt, _, s =>
    if (s.port p).opened then some (s.withPort p ((s.port p).push pkt), some (some (s.port p).sent))
    else some (s, some none)
  | .getQueued p, _, s =>
    if (s.port p).opened then
      match (s.port p).queue with
      | [] => some (s, none)
      | (n, pkt) :: _ => some (s.withPort p (s.port p).pop, some (.packet n pkt))
    else some (s, some .failed)
  | .waitForMultipleObjects hs, _, s => if s.waits hs then some (s, none) else some (s, some ())
  | .closeHandle p, _, s =>
    some (s.withPort p { s.port p with opened := false }, some ())
  | .currentThreadId, _, s =>
    match t with
    | .client _ => some (s, some (0 : Nat))
    | .worker i => some (s, some (s.info i).m_dwThreadIdx)
  | .remove threadId, _, s =>
    some ({ s with m_ThreadList := s.m_ThreadList.eraseP (·.m_dwThreadIdx == threadId) }, some ())
  | .endThread, _, s =>
    match t with
    | .client _ => some (s, some ())
    | .worker i => some ({ s with ended := Function.update s.ended i true }, some ())

/-! ## What a request leaves as it was -/

/-- The parts of a pool that requests change, besides the queues of the ports. -/
inductive Part where
  | lock
  | list
  | threads
  | ended
  | port

/-- The parts a request changes. -/
def changes : TPOp T → Part → Bool
  | .lock, .lock => true
  | .unLock, .lock => true
  | .createPort, .port => true
  | .setPort _, .port => true
  | .closeHandle _, .port => true
  | .createThread, .threads => true
  | .createThread, .ended => true
  | .endThread, .ended => true
  | .pushBack _, .list => true
  | .remove _, .list => true
  | _, _ => false

/-- Nothing but the parts `w` differs, and the queues. -/
structure Frame (w : Part → Bool) (s s' : ThreadPool T) : Prop where
  lock : w .lock = false → s'.m_arrayCs = s.m_arrayCs
  list : w .list = false → s'.m_ThreadList = s.m_ThreadList
  threads : w .threads = false → s'.threads = s.threads ∧ s'.info = s.info
  ended : w .ended = false → s'.ended = s.ended
  port : w .port = false →
    s'.m_hWorkerIoPort = s.m_hWorkerIoPort ∧ ∀ p, (s'.port p).opened = (s.port p).opened

theorem Frame.refl (w : Part → Bool) (s : ThreadPool T) : Frame w s s :=
  ⟨fun _ => rfl, fun _ => rfl, fun _ => ⟨rfl, rfl⟩, fun _ => rfl, fun _ => ⟨rfl, fun _ => rfl⟩⟩

/-- The queue of a port has changed. -/
theorem Frame.queue (w : Part → Bool) (s : ThreadPool T) {p : Nat} {q : Port T}
    (hq : q.opened = (s.port p).opened) : Frame w s (s.withPort p q) := by
  refine ⟨fun _ => rfl, fun _ => rfl, fun _ => ⟨rfl, rfl⟩, fun _ => rfl,
    fun _ => ⟨rfl, fun p' => ?_⟩⟩
  show (Function.update s.port p q p').opened = _
  by_cases hp : p' = p
  · subst hp
    rw [Function.update_self, hq]
  · rw [Function.update_of_ne hp]

theorem Frame.ofLock {w : Part → Bool} (s : ThreadPool T) (l : Lock Tid) (hw : w .lock = true) :
    Frame w s { s with m_arrayCs := l } :=
  ⟨by simp [hw], fun _ => rfl, fun _ => ⟨rfl, rfl⟩, fun _ => rfl, fun _ => ⟨rfl, fun _ => rfl⟩⟩

theorem Frame.ofList {w : Part → Bool} (s : ThreadPool T) (l : List ThreadInfo)
    (hw : w .list = true) : Frame w s { s with m_ThreadList := l } :=
  ⟨fun _ => rfl, by simp [hw], fun _ => ⟨rfl, rfl⟩, fun _ => rfl, fun _ => ⟨rfl, fun _ => rfl⟩⟩

theorem Frame.ofPort {w : Part → Bool} (s : ThreadPool T) (m_hWorkerIoPort ports : Nat)
    (port : Nat → Port T) (hw : w .port = true) :
    Frame w s { s with m_hWorkerIoPort := m_hWorkerIoPort, ports := ports, port := port } :=
  ⟨fun _ => rfl, fun _ => rfl, fun _ => ⟨rfl, rfl⟩, fun _ => rfl, by simp [hw]⟩

section

variable {t : Tid} {e : TPOp T} {o : Outcome} {s s' : ThreadPool T}

theorem exec_frame {r : Option e.Reply} (h : s.exec t e o = some (s', r)) :
    Frame (changes e) s s' := by
  cases e with
  | lock =>
    simp only [exec] at h
    split at h <;> cases h
    · exact .ofLock s _ rfl
    · exact .refl _ s
  | unLock =>
    obtain ⟨l, -, hl⟩ := Option.map_eq_some_iff.mp h
    cases hl
    exact .ofLock s l rfl
  | createPort =>
    cases h
    exact .ofPort s _ _ _ rfl
  | setPort p =>
    cases h
    exact .ofPort s _ _ _ rfl
  | closeHandle p =>
    cases h
    exact .ofPort s _ _ _ rfl
  | createThread =>
    simp only [exec] at h
    split at h <;> cases h
    exact ⟨fun _ => rfl, fun _ => rfl, nofun, nofun, fun _ => ⟨rfl, fun _ => rfl⟩⟩
  | pushBack info =>
    cases h
    exact .ofList s _ rfl
  | remove id =>
    cases h
    exact .ofList s _ rfl
  | post p pkt =>
    simp only [exec] at h
    split at h <;> cases h
    · exact .queue _ s rfl
    · exact .refl _ s
  | getQueued p =>
    simp only [exec] at h
    split at h
    · split at h <;> cases h
      · exact .refl _ s
      · exact .queue _ s rfl
    · cases h
      exact .refl _ s
  | newHandles n =>
    simp only [exec] at h
    split at h <;> cases h
    exact .refl _ s
  | waitForMultipleObjects hs =>
    simp only [exec] at h
    split at h <;> cases h <;> exact .refl _ s
  | endThread =>
    cases t with
    | client i =>
      cases h
      exact .refl _ s
    | worker i =>
      cases h
      exact ⟨fun _ => rfl, fun _ => rfl, fun _ => ⟨rfl, rfl⟩, nofun, fun _ => ⟨rfl, fun _ => rfl⟩⟩
  | currentThreadId => cases t <;> cases h <;> exact .refl _ s
  | _ =>
    cases h
    exact .refl _ s

/-- Nothing changes while a thread waits. -/
theorem exec_wait (h : s.exec t e o = some (s', none)) : s' = s := by
  cases e with
  | lock =>
    simp only [exec] at h
    split at h <;> cases h
    rfl
  | getQueued p =>
    simp only [exec] at h
    split at h
    · split at h <;> cases h
      rfl
    · cases h
  | waitForMultipleObjects hs =>
    simp only [exec] at h
    split at h <;> cases h
    rfl
  | unLock =>
    simp only [exec, Option.map_eq_some_iff] at h
    obtain ⟨_, _, h⟩ := h
    cases h
  | createThread =>
    simp only [exec] at h
    split at h <;> cases h
  | newHandles n =>
    simp only [exec] at h
    split at h <;> cases h
  | post p pkt =>
    simp only [exec] at h
    split at h <;> cases h
  | currentThreadId => cases t <;> cases h
  | endThread => cases t <;> cases h
  | _ => cases h

end

/-! ## The code -/

/-- Code of the thread pool. -/
abbrev Code (T α : Type) : Type := Prog (TPOp T) TPOp.Reply α

/-- Make a request. -/
def req (e : TPOp T) : Code T e.Reply := Prog.ask e

/-- The loop of `CThreadPool::Start`. -/
def startThreads : Nat → Code T Unit
  | 0 => pure ()
  | n + 1 => do
    let info ← req .createThread
    req (.pushBack info)
    startThreads n

/-- `CThreadPool::Start` -/
def start (nMax : Nat) : Code T Unit := do
  req .lock
  let p ← req .createPort
  req (.setPort p)
  startThreads nMax
  req .unLock

/-- The loop of `CThreadPool::Stop`: an exit packet for each entry of the thread list. -/
def postExits : Nat → Code T Unit
  | 0 => pure ()
  | n + 1 => do
    let p ← req .getPort
    let _ ← req (.post p .exit)
    postExits n

/-- `CThreadPool::Stop` -/
def stop : Code T Unit := do
  req .lock
  let nCount ← req .size
  -- the array is handed to the wait as `new` returned it
  let pThread ← req (.newHandles nCount)
  postExits nCount
  req (.waitForMultipleObjects pThread)
  let p ← req .getPort
  req (.closeHandle p)
  req .unLock

/-- `CThreadPool::ProcessJob` -/
def processJob (pJob : Option T) (pWorker : Bool) : Code T Unit := do
  let p ← req .getPort
  let _ ← req (.post p (.job pWorker pJob))
  pure ()

/-- `CThreadPool::RemoveThread` -/
def removeThread (threadId : Nat) : Code T Unit := do
  req .lock
  req (.remove threadId)
  req .unLock

/--
One round of the loop in `CThreadPool::WorkerProc`, up to the call of `ProcessTask`: the task to
be processed, or `none` when the thread has left the loop and ended.
-/
def dequeue : Code T (Option (Bool × Option T)) := do
  let dwThreadIdx ← req .currentThreadId
  let p ← req .getPort
  match ← req (.getQueued p) with
  | .failed => do
    removeThread dwThreadIdx
    req .endThread
    pure none
  | .packet _ .exit => do
    removeThread dwThreadIdx
    req .endThread
    pure none
  | .packet _ (.job pWorker pTask) => pure (some (pWorker, pTask))

/--
One round of the loop in `CThreadPool::WorkerProc`, with the `ProcessTask` of the worker; `false`
when it was the last.
-/
def workerProc {E : Type} {R : E → Type}
    (lift : Code T (Option (Bool × Option T)) → Prog E R (Option (Bool × Option T)))
    (processTask : Option T → Prog E R Unit) : Prog E R Bool := do
  match ← lift dequeue with
  | none => pure false
  | some (pWorker, pTask) => do
    if pWorker then processTask pTask else pure ()
    pure true

end ThreadPool

end XeMySql
