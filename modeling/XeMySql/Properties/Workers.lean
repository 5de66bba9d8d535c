import XeMySql.Properties.Shutdown
import XeMySql.Lib.Trace

/-!
# The workers of a thread pool

Clients call `Start`, `Stop` and `ProcessJob` as often as they like, in any order and at the same time,
while the workers run `WorkerProc`. A worker runs before `Start` has put it on the list, and takes
itself off it; the id of a thread that has ended can be given to a new one.

What a thread knows is where it is in its call (`Point`). From that:

* `ListCall.follows` — the code keeps to these points
* `Guarded.reply` — only one thread at a time is inside `m_arrayCs`
* `Staff.reply` — which workers there are, what they are known by, and which of them have gone
-/

namespace XeMySql

open Interact

namespace ThreadPool

variable {T : Type}

/-! ## The program -/

/-- The calls of the clients, and a round of `WorkerProc`. -/
inductive ListCall (T : Type) where
  | start (nMax : Nat)
  | stop
  | processJob (pJob : Option T) (pWorker : Bool)
  | workerProc

/-- Their code; `false` from the last round. -/
def ListCall.code : ListCall T → Prog (PoolOp T) PoolOp.Reply Bool
  | start nMax => do
    asPool (ThreadPool.start nMax)
    pure true
  | stop => do
    asPool ThreadPool.stop
    pure true
  | processJob pJob pWorker => do
    asPool (ThreadPool.processJob pJob pWorker)
    pure true
  | workerProc => ThreadPool.workerProc asPool fun pTask => Prog.ask (PoolOp.processTask pTask)

/-- A worker runs from its creation to its end. -/
def listMachine (T : Type) :
    Machine Tid (ListCall T) (PoolOp T) PoolOp.Reply Bool (ThreadPool T) Outcome where
  code _ c := c.code
  exec := poolExec
  enabled t c s :=
    match t, c with
    | .client _, .workerProc => false
    | .client _, _ => true
    | .worker i, .workerProc => decide (i < s.threads) && !s.ended i
    | .worker _, _ => false
  ends t _ a :=
    match t with
    | .client _ => false
    | .worker _ => !a

/-- A state of a run. -/
abbrev ListSys (T : Type) :=
  Machine.Sys Tid (ListCall T) (PoolOp T) PoolOp.Reply Bool (ThreadPool T)

/-- What is recorded of it. -/
abbrev ListEv (T : Type) := Event Tid (ListCall T) (PoolOp T) PoolOp.Reply Bool

/-- Worker `i` has removed itself from the list. -/
def removed (h : List (ListEv T)) (i : Nat) : Bool :=
  h.any fun
    | .reply (.worker j) (.tp (.remove _)) _ => j == i
    | _ => false

/-- Worker `i` has finished `RemoveThread`, where alone a worker leaves the lock. -/
def finished (h : List (ListEv T)) (i : Nat) : Bool :=
  h.any fun
    | .reply (.worker j) (.tp .unLock) _ => j == i
    | _ => false

/-- The answer to the post of an exit packet, with the port. -/
def exitPost : Answer (PoolOp T) PoolOp.Reply → Option (Nat × Option Nat)
  | ⟨.tp (.post p .exit), r⟩ => some (p, r)
  | _ => none

/-- The exit packets that thread `t` has posted in its present call. -/
def exitPosts (t : Tid) (h : List (ListEv T)) : List (Nat × Option Nat) :=
  (callTrace t h).filterMap exitPost

/-! ## Where a thread is -/

/-- What a client knows inside `m_arrayCs`: whether it is in `Stop`, the thread it has created and not
yet put on the list, the port, how long the list is, how many exit packets it has posted, and whether it
has closed the port. -/
structure Inside where
  stopping : Bool := false
  pending : Option ThreadInfo := none
  port : Option Nat := none
  size : Option Nat := none
  posted : Nat := 0
  closed : Bool := false

/-- Where a thread is. A client: before the lock, of `Stop` or not, inside it, behind it; a worker: in its
loop, in `RemoveThread`, and at its end. -/
inductive Point where
  | idle
  | outside (stopping : Bool)
  | inside (i : Inside)
  | left
  | worker (id : Option Nat)
  | removing (id : Nat)
  | removed
  | unlocked
  | ended

namespace Point

/-- Inside `m_arrayCs`. -/
def locked : Point → Bool
  | inside _ => true
  | removing _ => true
  | removed => true
  | _ => false

/-- In the code of a worker. -/
def working : Point → Bool
  | worker _ => true
  | removing _ => true
  | removed => true
  | unlocked => true
  | ended => true
  | _ => false

/-- A worker that is off the list. -/
def gone : Point → Bool
  | removed => true
  | unlocked => true
  | ended => true
  | _ => false

/-- A worker behind `RemoveThread`. -/
def behind : Point → Bool
  | unlocked => true
  | ended => true
  | _ => false

/-- In the code of `Stop`. -/
def stops : Point → Bool
  | outside stopping => stopping
  | inside i => i.stopping
  | left => true
  | _ => false

/-- The thread that is to be put on the list. -/
def pending : Point → Option ThreadInfo
  | inside i => i.pending
  | _ => none

/-- What a thread may ask. -/
def may : Point → PoolOp T → Prop
  | outside _, .tp .lock => True
  | outside _, .tp .getPort => True
  | outside _, .tp (.post _ (.job _ _)) => True
  | inside i, .tp .createPort => i.size = none
  | inside i, .tp (.setPort _) => i.size = none
  | inside i, .tp .getPort => i.closed = false
  | inside i, .tp .createThread => i.size = none ∧ i.pending = none
  | inside i, .tp (.pushBack info) => i.size = none ∧ i.pending = some info
  | inside i, .tp .size => i.size = none ∧ i.pending = none
  | inside _, .tp (.newHandles _) => True
  | inside i, .tp (.post p .exit) => i.size.isSome ∧ i.port = some p ∧ i.closed = false
  | inside i, .tp (.waitForMultipleObjects _) => i.size = some i.posted ∧ i.closed = false
  | inside i, .tp (.closeHandle _) => i.size.isSome
  | inside i, .tp .unLock => i.pending = none ∧ (i.stopping = true → i.size = some i.posted)
  | worker none, .tp .currentThreadId => True
  | worker _, .tp .getPort => True
  | worker _, .tp (.getQueued _) => True
  | worker _, .processTask _ => True
  | worker (some _), .tp .lock => True
  | removing id, .tp (.remove threadId) => threadId = id
  | removed, .tp .unLock => True
  | unlocked, .tp .endThread => True
  | _, _ => False

/-- Where it is afterwards. -/
def next : Point → (e : PoolOp T) → e.Reply → Point
  | outside stopping, .tp .lock, _ => inside { stopping := stopping }
  | inside i, .tp (.setPort _), _ => inside { i with port := none }
  | inside i, .tp .getPort, p => inside { i with port := some p }
  | inside i, .tp .createThread, info => inside { i with pending := some info }
  | inside i, .tp (.pushBack _), _ => inside { i with pending := none }
  | inside i, .tp .size, n => inside { i with size := some n }
  | inside i, .tp (.post _ .exit), _ => inside { i with posted := i.posted + 1 }
  | inside i, .tp (.closeHandle _), _ => inside { i with closed := true }
  | inside _, .tp .unLock, _ => left
  | worker none, .tp .currentThreadId, id => worker (some id)
  | worker (some id), .tp .lock, _ => removing id
  | removing _, .tp (.remove _), _ => removed
  | removed, .tp .unLock, _ => unlocked
  | unlocked, .tp .endThread, _ => ended
  | l, _, _ => l

/-- The discipline. -/
def discipline : Discipline (PoolOp T) PoolOp.Reply Point := ⟨may, fun _ _ _ => True, next⟩

/-- Where a call begins. -/
def start (_ : Tid) : ListCall T → Point
  | .stop => outside true
  | .workerProc => worker none
  | _ => outside false

/-- Where it ends. -/
def final : ListCall T → Bool → Point → Prop
  | .workerProc, true, l => ∃ id, l = worker id
  | .workerProc, false, l => l = ended
  | .processJob _ _, _, l => l = outside false
  | _, _, l => l = left

end Point

open Point

/-! ## The code -/

theorem startThreads_follows (n : Nat) {i : Inside} (hs : i.size = none) (hp : i.pending = none) :
    (asPool (startThreads n : Code T Unit)).Follows discipline (.inside i) fun _ l =>
      ∃ j, l = .inside j ∧ j.stopping = i.stopping ∧ j.pending = none := by
  induction n generalizing i with
  | zero => exact ⟨i, rfl, rfl, hp⟩
  | succ n ih =>
    exact ⟨⟨hs, hp⟩, fun info _ => ⟨⟨hs, rfl⟩, fun _ _ =>
      ih (i := { i with pending := none }) hs rfl⟩⟩

theorem postExits_follows (n : Nat) {i : Inside} (hs : i.size.isSome) (hp : i.pending = none)
    (hc : i.closed = false) :
    (asPool (postExits n : Code T Unit)).Follows discipline (.inside i) fun _ l =>
      ∃ j, l = .inside j ∧ j.size = i.size ∧ j.pending = none ∧ j.closed = false ∧
        j.posted = i.posted + n := by
  induction n generalizing i with
  | zero => exact ⟨i, rfl, rfl, hp, hc, rfl⟩
  | succ n ih =>
    refine ⟨hc, fun p _ => ⟨⟨hs, rfl, hc⟩, fun _ _ => ?_⟩⟩
    refine (ih (i := { i with port := some p, posted := i.posted + 1 }) hs hp hc).mono ?_
    rintro _ _ ⟨j, rfl, hj, hpj, hcj, hpost⟩
    exact ⟨j, rfl, hj, hpj, hcj, by rw [hpost, Nat.add_assoc, Nat.add_comm 1]⟩

theorem start_follows (nMax : Nat) : (asPool (ThreadPool.start nMax : Code T Unit)).Follows
    discipline (.outside false) fun _ l => l = .left := by
  refine ⟨trivial, fun _ _ => ⟨rfl, fun p _ => ⟨rfl, fun _ _ => ?_⟩⟩⟩
  show (asPool (startThreads nMax >>= fun _ => req .unLock : Code T Unit)).Follows _ _ _
  rw [asPool, Prog.lift_bind]
  refine (startThreads_follows nMax rfl rfl).bind ?_
  rintro _ _ ⟨i, rfl, hstart, hp⟩
  exact ⟨⟨hp, fun hstop => absurd (hstart.symm.trans hstop) Bool.false_ne_true⟩, fun _ _ => rfl⟩

theorem stop_follows : (asPool (ThreadPool.stop : Code T Unit)).Follows
    discipline (.outside true) fun _ l => l = .left := by
  refine ⟨trivial, fun _ _ => ⟨⟨rfl, rfl⟩, fun n _ => ⟨trivial, fun hs _ => ?_⟩⟩⟩
  show (asPool (postExits n >>= fun _ => closeDown hs : Code T Unit)).Follows _ _ _
  rw [asPool, Prog.lift_bind]
  refine (postExits_follows n rfl rfl rfl).bind ?_
  rintro _ _ ⟨j, rfl, hsize, hp, hc, hpost⟩
  have hsize : j.size = some j.posted := by
    rw [hsize, hpost]
    exact congrArg some (Nat.zero_add n).symm
  refine ⟨⟨hsize, hc⟩, fun _ _ => ⟨hc, fun p _ => ⟨?_, fun _ _ => ⟨⟨hp, fun _ => hsize⟩,
    fun _ _ => rfl⟩⟩⟩⟩
  exact Option.isSome_of_mem hsize

theorem removeThread_follows (id : Nat) : (asPool (do removeThread id; req .endThread; pure none :
    Code T (Option (Bool × Option T)))).Follows discipline (.worker (some id))
      fun a l => a = none ∧ l = .ended :=
  ⟨trivial, fun _ _ => ⟨rfl, fun _ _ => ⟨trivial, fun _ _ => ⟨trivial, fun _ _ => ⟨rfl, rfl⟩⟩⟩⟩⟩

theorem dequeue_follows : (asPool (dequeue : Code T _)).Follows discipline (.worker none)
    fun a l => (a = none → l = .ended) ∧ (a ≠ none → ∃ id, l = .worker id) := by
  refine ⟨trivial, fun id _ => ⟨trivial, fun p _ => ⟨trivial, fun d _ => ?_⟩⟩⟩
  have hremove : (asPool (do removeThread id; req .endThread; pure none :
      Code T (Option (Bool × Option T)))).Follows discipline (.worker (some id))
        fun a l => (a = none → l = .ended) ∧ (a ≠ none → ∃ id, l = .worker id) := by
    refine (removeThread_follows id).mono ?_
    rintro a l ⟨ha, hl⟩
    exact ⟨fun _ => hl, fun hne => absurd ha hne⟩
  cases d with
  | failed => exact hremove
  | packet m pkt =>
    cases pkt with
    | exit => exact hremove
    | job pWorker pTask => exact ⟨nofun, fun _ => ⟨some id, rfl⟩⟩

theorem ListCall.follows (c : ListCall T) (t : Tid) :
    c.code.Follows discipline (Point.start t c) (final c) := by
  cases c with
  | start nMax =>
    refine (start_follows nMax).bind ?_
    rintro _ _ rfl
    exact rfl
  | stop =>
    refine stop_follows.bind ?_
    rintro _ _ rfl
    exact rfl
  | processJob pJob pWorker => exact ⟨trivial, fun p _ => ⟨trivial, fun _ _ => rfl⟩⟩
  | workerProc =>
    refine dequeue_follows.bind ?_
    rintro a l ⟨hnone, hsome⟩
    cases a with
    | none => exact hnone rfl
    | some a =>
      obtain ⟨id, rfl⟩ := hsome (Option.some_ne_none a)
      obtain ⟨pWorker, pTask⟩ := a
      cases pWorker with
      | false => exact ⟨id, rfl⟩
      | true => cases id <;> exact ⟨trivial, fun _ _ => ⟨_, rfl⟩⟩

/-! ## What a request can do -/

/-- What the requests change. -/
def PoolOp.changes : PoolOp T → Part → Bool
  | .tp e => ThreadPool.changes e
  | .processTask _ => fun _ => false

section

variable {l : Point} {e : PoolOp T}

/-- How a request moves a thread. -/
inductive Moves (e : PoolOp T) : Point → Point → Prop
  | stay (l : Point) : Moves e l l
  | enter (b : Bool) (he : e = .tp .lock) : Moves e (.outside b) (.inside { stopping := b })
  | work {i j : Inside} (hs : j.stopping = i.stopping)
    (hp : j.pending = i.pending ∨ e.changes .list = true ∨ e.changes .threads = true) :
    Moves e (.inside i) (.inside j)
  | leave (i : Inside) (he : e = .tp .unLock) : Moves e (.inside i) .left
  | known (id : Nat) (he : e = .tp .currentThreadId) : Moves e (.worker none) (.worker (some id))
  | lock (id : Nat) (he : e = .tp .lock) : Moves e (.worker (some id)) (.removing id)
  | remove (id : Nat) {threadId : Nat} (he : e = .tp (.remove threadId)) :
    Moves e (.removing id) .removed
  | unLock (he : e = .tp .unLock) : Moves e .removed .unlocked
  | endThread (he : e = .tp .endThread) : Moves e .unlocked .ended

theorem next_moves (l : Point) (r : e.Reply) : Moves e l (l.next e r) := by
  unfold next
  split
  · exact .enter _ rfl
  · exact .work rfl (Or.inl rfl)
  · exact .work rfl (Or.inl rfl)
  · exact .work rfl (Or.inr (Or.inr rfl))
  · exact .work rfl (Or.inr (Or.inl rfl))
  · exact .work rfl (Or.inl rfl)
  · exact .work rfl (Or.inl rfl)
  · exact .work rfl (Or.inl rfl)
  · exact .leave _ rfl
  · exact .known _ rfl
  · exact .lock _ rfl
  · exact .remove _ rfl
  · exact .unLock rfl
  · exact .endThread rfl
  · exact .stay _

namespace Moves

variable {l' : Point}

theorem working (h : Moves e l l') : l'.working = l.working := by cases h <;> rfl

theorem locked (h : Moves e l l') (hlock : e.changes .lock = false) : l'.locked = l.locked := by
  cases h with
  | enter b he | leave i he | lock id he | unLock he =>
    subst he
    cases hlock
  | _ => rfl

theorem gone (h : Moves e l l') (hremove : ∀ id, e ≠ .tp (.remove id)) : l'.gone = l.gone := by
  cases h with
  | remove id he => exact absurd he (hremove _)
  | _ => rfl

theorem behind (h : Moves e l l') (hunlock : e ≠ .tp .unLock) : l'.behind = l.behind := by
  cases h with
  | unLock he => exact absurd he hunlock
  | _ => rfl

theorem knows {id : Nat} (h : Moves e l l') (hcurrent : e ≠ .tp .currentThreadId)
    (hn : l' = .worker (some id) ∨ l' = .removing id) : l = .worker (some id) ∨ l = .removing id := by
  cases h with
  | stay l => exact hn
  | known id he => exact absurd he hcurrent
  | lock id' he =>
    rcases hn with hn | hn
    · cases hn
    · cases hn
      exact Or.inl rfl
  | _ => simp at hn

theorem ended (h : Moves e l l') (hend : e ≠ .tp .endThread) (hn : l' = .ended) : l = .ended := by
  cases h with
  | stay l => exact hn
  | endThread he => exact absurd he hend
  | _ => cases hn

theorem outside {b : Bool} (h : Moves e l l') (hn : l' = .outside b) : l = .outside b := by
  cases h with
  | stay l => exact hn
  | _ => cases hn

theorem inside {j : Inside} (h : Moves e l l') (hn : l' = .inside j) :
    (∃ i, l = .inside i) ∨ ∃ b, l = .outside b ∧ e = .tp .lock ∧ j = { stopping := b } := by
  cases h with
  | stay l => exact Or.inl ⟨j, hn⟩
  | enter b he =>
    cases hn
    exact Or.inr ⟨b, rfl, he, rfl⟩
  | work hs hp => exact Or.inl ⟨_, rfl⟩
  | _ => cases hn

/-- `Stop` goes on. -/
theorem stops (h : Moves e l l') (hl : l.stops = true) : l'.stops = true := by
  cases h with
  | work hs hp => exact hs.trans hl
  | leave i he => rfl
  | stay l => exact hl
  | enter b he => exact hl
  | _ => cases hl

theorem pending (h : Moves e l l') (hlock : e.changes .lock = false) (hlist : e.changes .list = false)
    (hthreads : e.changes .threads = false) : l'.pending = l.pending := by
  cases h with
  | leave i he =>
    subst he
    cases hlock
  | work hs hp =>
    rcases hp with hp | hp | hp
    · exact hp
    · exact absurd (hlist.symm.trans hp) Bool.false_ne_true
    · exact absurd (hthreads.symm.trans hp) Bool.false_ne_true
  | _ => rfl

end Moves

theorem poolExec_frame {t : Tid} {o : Outcome} {s s' : ThreadPool T} {r : Option e.Reply}
    (he : poolExec t e o s = some (s', r)) : Frame e.changes s s' := by
  cases e with
  | tp e => exact exec_frame he
  | processTask k =>
    cases he
    exact .refl _ s

theorem changes_lock (h : e.changes .lock = true) : e = .tp .lock ∨ e = .tp .unLock := by
  cases e with
  | processTask k => cases h
  | tp e =>
    cases e with
    | lock => exact Or.inl rfl
    | unLock => exact Or.inr rfl
    | _ => cases h

theorem changes_list (h : e.changes .list = true) :
    (∃ info, e = .tp (.pushBack info)) ∨ ∃ id, e = .tp (.remove id) := by
  cases e with
  | processTask k => cases h
  | tp e =>
    cases e with
    | pushBack info => exact Or.inl ⟨info, rfl⟩
    | remove id => exact Or.inr ⟨id, rfl⟩
    | _ => cases h

theorem changes_threads (h : e.changes .threads = true) : e = .tp .createThread := by
  cases e with
  | processTask k => cases h
  | tp e =>
    cases e with
    | createThread => rfl
    | _ => cases h

theorem changes_ended (h : e.changes .ended = true) :
    e = .tp .createThread ∨ e = .tp .endThread := by
  cases e with
  | processTask k => cases h
  | tp e =>
    cases e with
    | createThread => exact Or.inl rfl
    | endThread => exact Or.inr rfl
    | _ => cases h

/-- A new thread has an id that no running thread has. -/
theorem createThread_spec {t : Tid} {o : Outcome} {s s' : ThreadPool T} {info : ThreadInfo}
    (he : poolExec t (.tp .createThread) o s = some (s', some info)) :
    (∀ k < s.threads, s.ended k = false → (s.info k).m_dwThreadIdx ≠ info.m_dwThreadIdx) ∧
      s' = { s with
        threads := s.threads + 1
        info := Function.update s.info s.threads info
        ended := Function.update s.ended s.threads false } := by
  have he : s.exec t .createThread o = some (s', some info) := he
  simp only [exec] at he
  split at he
  · cases he
  · next huse =>
    cases he
    refine ⟨fun k hk hek hnum => huse (List.any_eq_true.mpr ⟨k, List.mem_range.mpr hk, ?_⟩), rfl⟩
    simp [hnum, hek]

/-- Who waits changes nothing. -/
theorem poolExec_wait {t : Tid} {o : Outcome} {s s' : ThreadPool T}
    (he : poolExec t e o s = some (s', none)) : s' = s := by
  cases e with
  | tp e => exact exec_wait he
  | processTask k => cases he

end

/-! ## The lock -/

/-- Where the threads are. -/
abbrev points (h : List (ListEv T)) : Tid → Point := Point.discipline.view .idle Point.start h

/-- Only one thread at a time is inside `m_arrayCs`. -/
def Guarded (s : ThreadPool T) (h : List (ListEv T)) : Prop :=
  s.m_arrayCs.Guards (locked ∘ points h)

section

variable {s s' : ThreadPool T} {h : List (ListEv T)} {t : Tid} {e : PoolOp T} {o : Outcome}
  {r : e.Reply}

theorem points_reply : points (.reply t e r :: h)
    = Function.update (points h) t ((points h t).next e r) :=
  Discipline.view_reply

theorem points_call {c : ListCall T} :
    points (.call t c :: h) = Function.update (points h) t (Point.start t c) :=
  Discipline.view_call

theorem points_done {c : ListCall T} {a : Bool} :
    points (.done t c a :: h) = Function.update (points h) t .idle :=
  Discipline.view_done

theorem may_lock {l : Point} (hmay : l.may (.tp .lock : PoolOp T)) : l.locked = false ∧
    (l.next (.tp .lock : PoolOp T) ()).locked = true ∧ l.pending = none ∧
      (l.next (.tp .lock : PoolOp T) ()).pending = none := by
  cases l with
  | outside => exact ⟨rfl, rfl, rfl, rfl⟩
  | worker id =>
    cases id with
    | none => exact hmay.elim
    | some id => exact ⟨rfl, rfl, rfl, rfl⟩
  | _ => exact hmay.elim

theorem may_unLock {l : Point} (hmay : l.may (.tp .unLock : PoolOp T)) : l.locked = true ∧
    (l.next (.tp .unLock : PoolOp T) ()).locked = false ∧ l.pending = none := by
  cases l with
  | inside i => exact ⟨rfl, rfl, hmay.1⟩
  | removed => exact ⟨rfl, rfl, rfl⟩
  | worker id => cases id <;> exact hmay.elim
  | _ => exact hmay.elim

/-- Only a free lock is entered. -/
theorem Guarded.lock (hg : Guarded s h) (hmay : (points h t).may (.tp .lock : PoolOp T))
    (he : poolExec t (.tp .lock) o s = some (s', some ())) : s.m_arrayCs = .free ∧
      s'.m_arrayCs.Guards (Function.update (locked ∘ points h) t true) := by
  have he : s.exec t .lock o = some (s', some ()) := he
  simp only [exec] at he
  split at he
  · next l hl =>
    cases he
    exact hg.enter (may_lock hmay).1 hl
  · cases he

/-- Whoever leaves it leaves it free. -/
theorem Guarded.unLock (hg : Guarded s h) (he : poolExec t (.tp .unLock) o s = some (s', some ())) :
    s'.m_arrayCs = .free ∧ s'.m_arrayCs.Guards (Function.update (locked ∘ points h) t false) := by
  obtain ⟨l, hl, heq⟩ := Option.map_eq_some_iff.mp he
  cases heq
  exact hg.leave hl

/-- **Step lemma of the lock.** -/
theorem Guarded.reply (hg : Guarded s h) (hmay : (points h t).may e)
    (he : poolExec t e o s = some (s', some r)) : Guarded s' (.reply t e r :: h) := by
  unfold Guarded at hg ⊢
  rw [points_reply, Function.comp_update]
  cases hl : e.changes .lock with
  | false =>
    rw [(poolExec_frame he).lock hl]
    exact hg.stay ((next_moves _ r).locked hl)
  | true =>
    obtain rfl | rfl := changes_lock hl
    · rw [(may_lock hmay).2.1]
      exact (Guarded.lock hg hmay he).2
    · rw [(may_unLock hmay).2.1]
      exact (Guarded.unLock hg he).2

end

/-! ## The workers -/

/-- The workers: who is in the code of a worker has been created; what a worker takes for its id is its
id; and the list, `RemoveThread` and the system know the same of it. -/
structure Staff (s : ThreadPool T) (h : List (ListEv T)) : Prop where
  created : ∀ t, (points h t).working = true → ∃ i, t = .worker i ∧ i < s.threads
  working : ∀ i, points h (.worker i) ≠ .idle → (points h (.worker i)).working = true
  known : ∀ i id, points h (.worker i) = .worker (some id) ∨ points h (.worker i) = .removing id →
    id = (s.info i).m_dwThreadIdx
  removed_iff : ∀ i, ThreadPool.removed h i = true ↔
    (points h (.worker i)).gone = true ∨ s.ended i = true
  finished_iff : ∀ i, finished h i = true ↔
    (points h (.worker i)).behind = true ∨ s.ended i = true
  ended : ∀ i, s.ended i = true → i < s.threads ∧
    (points h (.worker i) = .ended ∨ points h (.worker i) = .idle)
  atEnd : ∀ i, points h (.worker i) = .ended → s.ended i = true
  /-- a running thread shares its id with no other -/
  ids : ∀ i j, i < s.threads → j < s.threads → s.ended i = false → s.ended j = false →
    (s.info i).m_dwThreadIdx = (s.info j).m_dwThreadIdx → i = j

theorem gone_working {l : Point} (h : l.gone = true) : l.working = true := by
  cases l with
  | removed => rfl
  | unlocked => rfl
  | ended => rfl
  | _ => cases h

theorem behind_gone {l : Point} (h : l.behind = true) : l.gone = true := by
  cases l with
  | unlocked => rfl
  | ended => rfl
  | _ => cases h

/-- A call that takes its worker off the list is its last. -/
theorem final_gone {c : ListCall T} {a : Bool} {l : Point} (hf : final c a l) (h : l.gone = true) :
    l = .ended := by
  cases c with
  | workerProc =>
    cases a with
    | true =>
      obtain ⟨id, rfl⟩ := hf
      cases h
    | false => exact hf
  | _ =>
    cases hf
    cases h

/-- Where a thread may be outside of its calls, and at the beginning of one. -/
structure Resting (s : ThreadPool T) (t : Tid) (l : Point) : Prop where
  gone : l.gone = false
  known : ∀ id, l ≠ .worker (some id) ∧ l ≠ .removing id
  created : l.working = true → ∃ i, t = .worker i ∧ i < s.threads ∧ s.ended i = false
  working : ∀ i, t = .worker i → l ≠ .idle → l.working = true

namespace Resting

variable {s : ThreadPool T} {t : Tid} {l : Point}

theorem idle (s : ThreadPool T) (t : Tid) : Resting s t .idle :=
  ⟨rfl, fun _ => ⟨nofun, nofun⟩, nofun, fun _ _ h => absurd rfl h⟩

/-- Where it is when its thread may make the call `c`. -/
theorem start {c : ListCall T} (h : (listMachine T).enabled t c s = true) :
    Resting s t (Point.start t c) := by
  cases t with
  | client i =>
    cases c with
    | workerProc => cases h
    | _ => exact ⟨rfl, fun _ => ⟨nofun, nofun⟩, nofun, nofun⟩
  | worker i =>
    cases c with
    | workerProc =>
      obtain ⟨hlt, hend⟩ := (Bool.and_eq_true _ _).mp h
      refine ⟨rfl, fun _ => ⟨nofun, nofun⟩, fun _ => ⟨i, rfl, of_decide_eq_true hlt, ?_⟩,
        fun _ _ _ => rfl⟩
      exact Bool.not_eq_true' _ ▸ hend
    | _ => cases h

theorem behind (h : Resting s t l) : l.behind = false := by
  rw [Bool.eq_false_iff]
  intro hb
  exact Bool.eq_false_iff.mp h.gone (behind_gone hb)

theorem idle_of_ended {i : Nat} (h : Resting s (.worker i) l) (hi : s.ended i = true) :
    l = .idle := by
  by_contra hne
  obtain ⟨j, hj, -, hend⟩ := h.created (h.working i rfl hne)
  cases hj
  rw [hi] at hend
  cases hend

end Resting

theorem removed_reply (t : Tid) (e : PoolOp T) (r : e.Reply) (h : List (ListEv T)) (i : Nat) :
    removed (.reply t e r :: h) i = true ↔
      (t = .worker i ∧ ∃ id, e = .tp (.remove id)) ∨ removed h i = true := by
  rw [removed, List.any_cons, Bool.or_eq_true]
  refine or_congr_left ?_
  constructor
  · intro hr
    split at hr
    · next j id _ heq =>
      cases heq
      rw [beq_iff_eq] at hr
      exact ⟨congrArg _ hr, id, rfl⟩
    · cases hr
  · rintro ⟨rfl, id, rfl⟩
    exact beq_self_eq_true i

theorem finished_reply (t : Tid) (e : PoolOp T) (r : e.Reply) (h : List (ListEv T)) (i : Nat) :
    finished (.reply t e r :: h) i = true ↔
      (t = .worker i ∧ e = .tp .unLock) ∨ finished h i = true := by
  rw [finished, List.any_cons, Bool.or_eq_true]
  refine or_congr_left ?_
  constructor
  · intro hr
    split at hr
    · next j _ heq =>
      cases heq
      rw [beq_iff_eq] at hr
      exact ⟨congrArg _ hr, rfl⟩
    · cases hr
  · rintro ⟨rfl, rfl⟩
    exact beq_self_eq_true i

section

variable {s s' : ThreadPool T} {h : List (ListEv T)} {t : Tid} {e : PoolOp T} {o : Outcome}
  {r : e.Reply}

theorem Staff.init : Staff (new T) [] where
  created _ ht := nomatch ht
  working _ hp := absurd rfl hp
  known _ _ hp := by rcases hp with hp | hp <;> cases hp
  removed_iff i := by simp [ThreadPool.removed, new, gone]
  finished_iff i := by simp [finished, new, behind]
  ended _ hi := nomatch hi
  atEnd _ hp := nomatch hp
  ids _ _ hi := absurd hi (Nat.not_lt_zero _)

/-- Other threads stay where they are. -/
theorem points_reply_of_ne {u : Tid} (hu : u ≠ t) : points (.reply t e r :: h) u = points h u := by
  rw [points_reply, Function.update_of_ne hu]

theorem points_reply_self : points (.reply t e r :: h) t = (points h t).next e r := by
  rw [points_reply, Function.update_self]

/-- Created threads keep what they are known by. -/
theorem poolExec_info (he : poolExec t e o s = some (s', some r)) :
    s.threads ≤ s'.threads ∧ ∀ i < s.threads, s'.info i = s.info i := by
  cases hw : e.changes .threads with
  | false =>
    obtain ⟨hthreads, hinfo⟩ := (poolExec_frame he).threads hw
    exact ⟨hthreads.ge, fun i _ => congrFun hinfo i⟩
  | true =>
    obtain rfl := changes_threads hw
    obtain ⟨-, rfl⟩ := createThread_spec he
    exact ⟨Nat.le_succ _, fun i hi => Function.update_of_ne (Nat.ne_of_lt hi) ..⟩

/-- Threads end by `endThread`. -/
theorem poolExec_ended (he : poolExec t e o s = some (s', some r))
    (hst : ∀ i, s.ended i = true → i < s.threads) (i : Nat) :
    s'.ended i = true ↔ (t = .worker i ∧ e = .tp .endThread) ∨ s.ended i = true := by
  cases hw : e.changes .ended with
  | false =>
    rw [(poolExec_frame he).ended hw]
    have hne : e ≠ .tp .endThread := by
      rintro rfl
      cases hw
    simp [hne]
  | true =>
    obtain rfl | rfl := changes_ended hw
    · obtain ⟨-, rfl⟩ := createThread_spec he
      show Function.update s.ended s.threads false i = true ↔ _
      by_cases hi : i = s.threads
      · rw [hi, Function.update_self]
        have hfalse : s.ended s.threads ≠ true := fun hend => Nat.lt_irrefl _ (hst _ hend)
        simp [hfalse]
      · rw [Function.update_of_ne hi]
        simp
    · cases t with
      | client j =>
        cases he
        simp
      | worker j =>
        cases he
        show Function.update s.ended j true i = true ↔ _
        by_cases hi : i = j
        · subst hi
          simp
        · rw [Function.update_of_ne hi]
          simp [Ne.symm hi]

/-- In front of the lock no exit packet is posted. -/
theorem may_outside_exitPost {b : Bool} (hmay : (Point.outside b).may e) : exitPost ⟨e, r⟩ = none := by
  cases e with
  | processTask k => rfl
  | tp e =>
    cases e with
    | post p pkt =>
      cases pkt with
      | exit => exact hmay.elim
      | job pWorker pTask => rfl
    | _ => rfl

/-- Outside of the lock nobody touches the list, nor the port. -/
theorem may_outside {l : Point} (hmay : l.may e) (hl : l.locked = false) :
    e.changes .list = false ∧ e.changes .port = false := by
  revert hmay
  unfold may
  split <;> first | exact fun _ => ⟨rfl, rfl⟩ | exact fun h => h.elim | exact absurd hl (by simp [locked])

theorem may_currentThreadId {l : Point} (hmay : l.may (.tp .currentThreadId : PoolOp T)) :
    l = .worker none := by
  cases l with
  | worker id =>
    cases id with
    | none => rfl
    | some id => exact hmay.elim
  | _ => exact hmay.elim

theorem may_unLock_working {l : Point} (hmay : l.may (.tp .unLock : PoolOp T))
    (hw : l.working = true) : l = .removed := by
  cases l with
  | removed => rfl
  | inside i => cases hw
  | worker id => cases id <;> exact hmay.elim
  | _ => exact hmay.elim

/-- A worker in its last request. -/
theorem may_endThread {l : Point} (hmay : l.may (.tp .endThread : PoolOp T)) : l = .unlocked := by
  cases l with
  | unlocked => rfl
  | worker id => cases id <;> exact hmay.elim
  | _ => exact hmay.elim

theorem may_remove {l : Point} {id : Nat} (hmay : l.may (.tp (.remove id) : PoolOp T)) :
    l = .removing id := by
  cases l with
  | removing id' => exact congrArg _ (Eq.symm hmay)
  | worker id => cases id <;> exact hmay.elim
  | _ => exact hmay.elim

namespace Staff

/-- A thread that makes a request is not outside of all calls, and has not ended. -/
theorem not_idle (hmay : (points h t).may e) : points h t ≠ .idle ∧ points h t ≠ .ended := by
  constructor
  · intro hp
    rw [hp] at hmay
    exact hmay
  · intro hp
    rw [hp] at hmay
    exact hmay

theorem reply_working (u : Tid) : (points (.reply t e r :: h) u).working = (points h u).working := by
  by_cases hu : u = t
  · rw [hu, points_reply_self, (next_moves _ r).working]
  · rw [points_reply_of_ne hu]

/-- A worker that runs has been created. -/
theorem lt_threads (hst : Staff s h) {i : Nat} (hw : (points h (.worker i)).working = true) :
    i < s.threads := by
  obtain ⟨j, hj, hlt⟩ := hst.created (.worker i) hw
  cases hj
  exact hlt

theorem reply_known (hst : Staff s h) (hmay : (points h t).may e)
    (he : poolExec t e o s = some (s', some r)) (i id : Nat)
    (hp : points (.reply t e r :: h) (.worker i) = .worker (some id) ∨
      points (.reply t e r :: h) (.worker i) = .removing id) :
    id = (s'.info i).m_dwThreadIdx := by
  have hw : (points (.reply t e r :: h) (.worker i)).working = true := by
    rcases hp with hp | hp <;> rw [hp] <;> rfl
  rw [(poolExec_info he).2 i (hst.lt_threads (reply_working (.worker i) ▸ hw))]
  by_cases hu : .worker i = t
  · subst hu
    rw [points_reply_self] at hp
    by_cases hcur : e = .tp .currentThreadId
    · subst hcur
      cases he
      rw [may_currentThreadId hmay] at hp
      rcases hp with hp | hp
      · cases hp
        rfl
      · cases hp
    · exact hst.known i id ((next_moves _ r).knows hcur hp)
  · rw [points_reply_of_ne hu] at hp
    exact hst.known i id hp

theorem reply_removed_iff (hst : Staff s h) (hmay : (points h t).may e)
    (he : poolExec t e o s = some (s', some r)) (i : Nat) :
    ThreadPool.removed (.reply t e r :: h) i = true ↔
      (points (.reply t e r :: h) (.worker i)).gone = true ∨ s'.ended i = true := by
  rw [removed_reply, poolExec_ended he fun i hi => (hst.ended i hi).1, hst.removed_iff]
  by_cases hu : .worker i = t
  · subst hu
    rw [points_reply_self]
    by_cases hrem : ∃ id, e = .tp (.remove id)
    · obtain ⟨id, rfl⟩ := hrem
      rw [may_remove hmay]
      simp [next, gone]
    · rw [(next_moves _ r).gone fun id hid => hrem ⟨id, hid⟩]
      by_cases hend : e = .tp .endThread
      · subst hend
        rw [may_endThread hmay]
        simp [gone]
      · simp [hrem, hend]
  · rw [points_reply_of_ne hu]
    simp [Ne.symm hu]

theorem reply_finished_iff (hst : Staff s h) (hmay : (points h t).may e)
    (he : poolExec t e o s = some (s', some r)) (i : Nat) :
    finished (.reply t e r :: h) i = true ↔
      (points (.reply t e r :: h) (.worker i)).behind = true ∨ s'.ended i = true := by
  rw [finished_reply, poolExec_ended he fun i hi => (hst.ended i hi).1, hst.finished_iff]
  by_cases hu : .worker i = t
  · subst hu
    rw [points_reply_self]
    by_cases hun : e = .tp .unLock
    · subst hun
      -- a worker is not in the code of a client
      rw [may_unLock_working hmay (hst.working i (not_idle hmay).1)]
      simp [next, behind]
    · rw [(next_moves _ r).behind hun]
      by_cases hend : e = .tp .endThread
      · subst hend
        rw [may_endThread hmay]
        simp [behind]
      · simp [hun, hend]
  · rw [points_reply_of_ne hu]
    simp [Ne.symm hu]

theorem reply_ended (hst : Staff s h) (hmay : (points h t).may e)
    (he : poolExec t e o s = some (s', some r)) (i : Nat) (hi : s'.ended i = true) :
    i < s'.threads ∧ (points (.reply t e r :: h) (.worker i) = .ended ∨
      points (.reply t e r :: h) (.worker i) = .idle) := by
  have hgrow := (poolExec_info he).1
  rcases (poolExec_ended he (fun i hi => (hst.ended i hi).1) i).mp hi with ⟨rfl, rfl⟩ | hi
  · have hl := may_endThread hmay
    refine ⟨Nat.lt_of_lt_of_le (hst.lt_threads (by rw [hl]; rfl)) hgrow, Or.inl ?_⟩
    rw [points_reply_self, hl]
    rfl
  · obtain ⟨hlt, hp⟩ := hst.ended i hi
    refine ⟨Nat.lt_of_lt_of_le hlt hgrow, ?_⟩
    by_cases hu : .worker i = t
    · subst hu
      exact absurd hp (not_or.mpr (not_idle hmay).symm)
    · rw [points_reply_of_ne hu]
      exact hp

theorem reply_atEnd (hst : Staff s h) (he : poolExec t e o s = some (s', some r)) (i : Nat)
    (hp : points (.reply t e r :: h) (.worker i) = .ended) : s'.ended i = true := by
  rw [poolExec_ended he fun i hi => (hst.ended i hi).1]
  by_cases hu : .worker i = t
  · subst hu
    rw [points_reply_self] at hp
    by_cases hend : e = .tp .endThread
    · exact Or.inl ⟨rfl, hend⟩
    · exact Or.inr (hst.atEnd i ((next_moves _ r).ended hend hp))
  · rw [points_reply_of_ne hu] at hp
    exact Or.inr (hst.atEnd i hp)

/-- A new thread gets an id that no running thread has. -/
theorem reply_ids (hst : Staff s h) (he : poolExec t e o s = some (s', some r)) (i j : Nat)
    (hi : i < s'.threads) (hj : j < s'.threads) (hei : s'.ended i = false)
    (hej : s'.ended j = false) (hid : (s'.info i).m_dwThreadIdx = (s'.info j).m_dwThreadIdx) :
    i = j := by
  have hended := poolExec_ended he fun i hi => (hst.ended i hi).1
  have hbefore : ∀ i, s'.ended i = false → s.ended i = false := by
    intro i hei
    rw [Bool.eq_false_iff] at hei ⊢
    exact fun hend => hei ((hended i).mpr (Or.inr hend))
  cases hw : e.changes .threads with
  | false =>
    obtain ⟨hthreads, hinfo⟩ := (poolExec_frame he).threads hw
    rw [hthreads] at hi hj
    rw [hinfo] at hid
    exact hst.ids i j hi hj (hbefore i hei) (hbefore j hej) hid
  | true =>
    obtain rfl := changes_threads hw
    obtain ⟨hfresh, rfl⟩ := createThread_spec he
    have hi : i < s.threads + 1 := hi
    have hj : j < s.threads + 1 := hj
    simp only at hid
    by_cases hin : i = s.threads <;> by_cases hjn : j = s.threads
    · rw [hin, hjn]
    · rw [hin, Function.update_self, Function.update_of_ne hjn] at hid
      exact absurd hid.symm (hfresh j (by omega) (hbefore j hej))
    · rw [hjn, Function.update_self, Function.update_of_ne hin] at hid
      exact absurd hid (hfresh i (by omega) (hbefore i hei))
    · rw [Function.update_of_ne hin, Function.update_of_ne hjn] at hid
      exact hst.ids i j (by omega) (by omega) (hbefore i hei) (hbefore j hej) hid

/-- **Step lemma of the workers.** -/
theorem reply (hst : Staff s h) (hmay : (points h t).may e)
    (he : poolExec t e o s = some (s', some r)) : Staff s' (.reply t e r :: h) where
  created u hu := by
    obtain ⟨i, hi, hlt⟩ := hst.created u (reply_working u ▸ hu)
    exact ⟨i, hi, Nat.lt_of_lt_of_le hlt (poolExec_info he).1⟩
  working i hne := by
    rw [reply_working]
    by_cases hu : .worker i = t
    · exact hst.working i (hu ▸ (not_idle hmay).1)
    · rw [points_reply_of_ne hu] at hne
      exact hst.working i hne
  known := hst.reply_known hmay he
  removed_iff := hst.reply_removed_iff hmay he
  finished_iff := hst.reply_finished_iff hmay he
  ended := hst.reply_ended hmay he
  atEnd := hst.reply_atEnd he
  ids := hst.reply_ids he

/-- A thread begins a call, or ends one. -/
theorem move {h' : List (ListEv T)} (hst : Staff s h) {l : Point} (hl : Resting s t l)
    (hp : points h' = Function.update (points h) t l)
    (hremoved : ∀ i, ThreadPool.removed h' i = ThreadPool.removed h i)
    (hfinished : ∀ i, finished h' i = finished h i)
    (hgone : ∀ i, t = .worker i → (points h t).gone = true → s.ended i = true) : Staff s h' := by
  have hself : points h' t = l := by rw [hp, Function.update_self]
  have hother : ∀ u, u ≠ t → points h' u = points h u := by
    intro u hu
    rw [hp, Function.update_of_ne hu]
  refine ⟨?_, ?_, ?_, ?_, ?_, ?_, ?_, hst.ids⟩
  · intro u hu
    by_cases hut : u = t
    · subst hut
      obtain ⟨i, hi, hlt, -⟩ := hl.created (hself ▸ hu)
      exact ⟨i, hi, hlt⟩
    · exact hst.created u (hother u hut ▸ hu)
  · intro i hne
    by_cases hut : .worker i = t
    · subst hut
      rw [hself] at hne ⊢
      exact hl.working i rfl hne
    · rw [hother _ hut] at hne ⊢
      exact hst.working i hne
  · intro i id hpi
    by_cases hut : .worker i = t
    · subst hut
      rw [hself] at hpi
      exact absurd hpi (not_or.mpr (hl.known id))
    · rw [hother _ hut] at hpi
      exact hst.known i id hpi
  · intro i
    rw [hremoved, hst.removed_iff]
    by_cases hut : .worker i = t
    · subst hut
      rw [hself, hl.gone]
      simp only [Bool.false_eq_true, false_or, or_iff_right_iff_imp]
      exact hgone i rfl
    · rw [hother _ hut]
  · intro i
    rw [hfinished, hst.finished_iff]
    by_cases hut : .worker i = t
    · subst hut
      rw [hself, hl.behind]
      simp only [Bool.false_eq_true, false_or, or_iff_right_iff_imp]
      exact fun hb => hgone i rfl (behind_gone hb)
    · rw [hother _ hut]
  · intro i hi
    obtain ⟨hlt, hpi⟩ := hst.ended i hi
    refine ⟨hlt, ?_⟩
    by_cases hut : .worker i = t
    · subst hut
      rw [hself]
      exact Or.inr (hl.idle_of_ended hi)
    · rw [hother _ hut]
      exact hpi
  · intro i hpi
    by_cases hut : .worker i = t
    · subst hut
      rw [hself] at hpi
      exact absurd hl.gone (by simp [hpi, gone])
    · rw [hother _ hut] at hpi
      exact hst.atEnd i hpi

theorem call {c : ListCall T} (hst : Staff s h) (hen : (listMachine T).enabled t c s = true)
    (hidle : points h t = .idle) : Staff s (.call t c :: h) := by
  refine hst.move (.start hen) points_call (fun _ => rfl) (fun _ => rfl) ?_
  intro i _ hg
  rw [hidle] at hg
  cases hg

theorem done {c : ListCall T} {a : Bool} (hst : Staff s h) (hf : final c a (points h t)) :
    Staff s (.done t c a :: h) := by
  refine hst.move (.idle s t) points_done (fun _ => rfl) (fun _ => rfl) ?_
  rintro i rfl hg
  exact hst.atEnd i (final_gone hf hg)

/-- Who has removed itself was created. -/
theorem lt_of_removed (hst : Staff s h) {i : Nat} (hi : ThreadPool.removed h i = true) :
    i < s.threads := by
  rcases (hst.removed_iff i).mp hi with hg | hend
  · exact hst.lt_threads (gone_working hg)
  · exact (hst.ended i hend).1

/-- Who has not removed itself still runs. -/
theorem not_ended (hst : Staff s h) {i : Nat} (hi : ThreadPool.removed h i = false) :
    s.ended i = false := by
  rw [Bool.eq_false_iff] at hi ⊢
  exact fun hend => hi ((hst.removed_iff i).mpr (Or.inr hend))

end Staff

end

end ThreadPool

end XeMySql
