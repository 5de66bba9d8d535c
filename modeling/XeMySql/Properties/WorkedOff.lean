import XeMySql.Properties.Progress
import XeMySql.Properties.Delivered

/-!
# No job is stranded

A worker that begins a round while the queue holds a packet comes to the end of the round, and the
queue is one packet shorter then. So one worker is enough to work off the queue, and no job is left
in the hands of a thread that cannot go on.

* `AllFree.round` — what a round does to the queue
* `Serving.drain` — worker 0 empties the queue
* `worked_off` — from every state of a run, all jobs submitted so far can still be finished
-/

namespace XeMySql

open Interact Hold

/-! ## The workers stay -/

section

variable {rt : Runtime} {s₀ : State} {s : Sys}

/-- Between `Start` and `Stop` no thread is created. -/
theorem threads_exec {p₀ : Nat} {l : Job} {t : Tid} {e : Op} {o : Outcome} {x x' : State}
    {r : Option e.Reply} (hm : l.may p₀ e) (he : exec rt t e o x = some (x', r)) :
    x'.tp.threads = x.tp.threads := by
  cases e with
  | con e =>
    obtain ⟨y, -, rfl⟩ := exec_con he
    rfl
  | lib e =>
    obtain ⟨rfl, -⟩ := exec_lib he
    rfl
  | res e =>
    obtain ⟨y, -, rfl⟩ := exec_res he
    rfl
  | rt e =>
    obtain ⟨y, -, rfl⟩ := exec_rt he
    rfl
  | task e =>
    obtain ⟨y, -, rfl⟩ := exec_task he
    rfl
  | tp e =>
    obtain ⟨y, hy, rfl⟩ := exec_tp he
    cases e with
    | createThread => exact hm.elim
    | _ => exact ((ThreadPool.exec_frame hy).threads rfl).1

theorem threads_eq (h₀ : JobsReady s₀) (h : (machine rt).Reach okJobs s₀ s) :
    s.shared.tp.threads = s₀.tp.threads := by
  induction h with
  | init => rfl
  | step h _ hs ih =>
    cases Machine.step_cases hs with
    | wait ht he => exact (threads_exec ((delivery_kept rt h₀).may h ht) he).trans ih
    | reply ht he => exact (threads_exec ((delivery_kept rt h₀).may h ht) he).trans ih
    | _ => exact ih

/-- The rounds of the workers are never their last. -/
theorem rounds_kept (rt : Runtime) (h₀ : JobsReady s₀) :
    (machine rt).Kept okJobs s₀ (Job.discipline s₀.tp.m_hWorkerIoPort) .idle Job.start
      (fun c a l => Job.final c a l ∧ (c = .workerProc → a = true))
      (jobInvariant s₀.tp.m_hWorkerIoPort) where
  code t c hc := by
    by_cases hw : c = .workerProc
    · subst hw
      exact workerProc_delivers.mono fun _ _ h => ⟨h.2, fun _ => h.1⟩
    · exact (code_delivers t c hc).mono fun _ _ h => ⟨h, fun he => absurd he hw⟩
  init := (delivery_kept rt h₀).init
  call := (delivery_kept rt h₀).call
  wait := (delivery_kept rt h₀).wait
  reply := (delivery_kept rt h₀).reply
  done s h t c a hI hf := (delivery_kept rt h₀).done s h t c a hI hf.1

theorem worker_stays (h₀ : JobsReady s₀) (h : (machine rt).Reach okJobs s₀ s) (i : Nat) :
    s.thread (.worker i) ≠ .stopped := by
  induction h with
  | init => simp [Machine.Sys.init]
  | @step s s' l h hl hs ih =>
    by_cases hi : l.thread = .worker i
    · cases Machine.step_cases hs with
      | call _ _ =>
        obtain rfl := hi
        simp
      | wait _ _ => exact ih
      | reply _ _ =>
        obtain rfl := hi
        simp
      | @done t _ c a ht =>
        obtain rfl := hi
        have hcall : c = .workerProc := by
          obtain ⟨-, sh, hen⟩ := h.began ht
          simp only [machine, Call.enabled, Bool.and_eq_true, beq_iff_eq] at hen
          exact hen.1
        have ha := ((rounds_kept rt h₀).atReturn h ht).2 hcall
        simp [machine, Call.ends, ha]
    · rw [(Machine.step_cases hs).thread_of_ne hi]
      exact ih

end

/-! ## A round -/

theorem Job.waits_of_final {c : Call} {a : Bool} {l : Job} (h : Job.final c a l) : l.waits = 0 := by
  cases c with
  | executeQueryNoRet q =>
    obtain ⟨q, k, rfl, -⟩ := h
    rfl
  | workerProc =>
    obtain ⟨n, k, rfl⟩ := h
    rfl
  | _ =>
    obtain rfl := h
    rfl

section

variable {rt : Runtime} {s₀ : State} {s s' s₁ : Sys} {i : Nat}

/-- The packets that wait in the queue of port `p₀`. -/
abbrev queueLength (p₀ : Nat) (s : Sys) : Nat := (s.shared.tp.port p₀).queue.length

/-- A worker alone takes a packet from the queue when it stops waiting for one, and otherwise leaves
the queue alone. -/
theorem alone_queue (h₀ : JobsReady s₀) (h : (machine rt).Reach okJobs s₀ s)
    (halone : (machine rt).Alone (.worker i) s s') :
    queueLength s₀.tp.m_hWorkerIoPort s' + (jobView s₀.tp.m_hWorkerIoPort s.hist (.worker i)).waits =
      queueLength s₀.tp.m_hWorkerIoPort s +
        (jobView s₀.tp.m_hWorkerIoPort s'.hist (.worker i)).waits := by
  refine (halone.invariant (I := fun s' => (machine rt).Reach okJobs s₀ s' ∧
    queueLength s₀.tp.m_hWorkerIoPort s' +
      (jobView s₀.tp.m_hWorkerIoPort s.hist (.worker i)).waits =
      queueLength s₀.tp.m_hWorkerIoPort s +
        (jobView s₀.tp.m_hWorkerIoPort s'.hist (.worker i)).waits) ⟨h, rfl⟩ ?_).2
  rintro x o x' ⟨hr, hq⟩ hs
  refine ⟨hr.step (l := .act (.worker i) o) nofun hs.step, ?_⟩
  obtain ⟨hI, hin⟩ := ((delivery_kept rt h₀).holds hr).1
  cases hs with
  | wait ht he =>
    obtain ⟨j, rfl⟩ := exec_wait he
    exact hq
  | @reply _ _ c e k sh r ht he =>
    have hm : (jobView s₀.tp.m_hWorkerIoPort x.hist (.worker i)).may s₀.tp.m_hWorkerIoPort e :=
      (delivery_kept rt h₀).may hr ht
    have hfilled : ∀ q k, jobView s₀.tp.m_hWorkerIoPort x.hist (.worker i) ≠ .filled q k := by
      intro q k hl
      have hcall := hin (.worker i) (.executeQueryNoRet (some q)) (by rw [hl]; rfl)
      rw [hr.present ht] at hcall
      obtain ⟨-, sh, hen⟩ := hr.began ht
      rw [Option.some.inj hcall] at hen
      cases hen
    have hstep := queue_step hI.opened hm (job_reply hI hin hm he).1 hfilled he
    have hview : jobView s₀.tp.m_hWorkerIoPort (.reply (.worker i) e r :: x.hist) (.worker i) =
        (jobView s₀.tp.m_hWorkerIoPort x.hist (.worker i)).next e r := by
      rw [jobView, Discipline.view_reply, Function.update_self]
      rfl
    rw [hview]
    simp only [queueLength] at hq ⊢
    omega
  | @done _ _ c a ht =>
    have hfinal : (jobView s₀.tp.m_hWorkerIoPort x.hist (.worker i)).waits = 0 :=
      Job.waits_of_final ((delivery_kept rt h₀).atReturn hr ht)
    have hview : jobView s₀.tp.m_hWorkerIoPort (.done (.worker i) c a :: x.hist) (.worker i) =
        .idle := by
      rw [jobView, Discipline.view_done, Function.update_self]
    rw [hfinal] at hq
    rw [hview]
    exact hq

/-- **A round of a worker** that waits for no job in vain comes to its end. -/
theorem AllFree.round (h : AllFree rt s₀ s₁ s) (hpool : PoolOk s₀) (hjobs : JobsReady s₀) {c : Call}
    {p : Code Bool} (ht : s.thread (.worker i) = .running c p)
    (hqueue : jobView s₀.tp.m_hWorkerIoPort s.hist (.worker i) = .waiting →
      (s.shared.tp.port s₀.tp.m_hWorkerIoPort).queue ≠ []) :
    ∃ s', (machine rt).Alone (.worker i) s s' ∧ AllFree rt s₀ s₁ s' ∧
      s'.thread (.worker i) = .idle ∧
      queueLength s₀.tp.m_hWorkerIoPort s' +
        (jobView s₀.tp.m_hWorkerIoPort s.hist (.worker i)).waits =
        queueLength s₀.tp.m_hWorkerIoPort s := by
  obtain ⟨s', halone, h', hend⟩ := h.go hpool hjobs ht hqueue
  have hreach := h'.running.reach.mono okJobs_of_serving
  refine ⟨s', halone, h', ?_, ?_⟩
  · cases hs : s'.thread (.worker i) with
    | idle => rfl
    | running c p => exact absurd hs (hend c p)
    | stopped => exact absurd hs (worker_stays hjobs hreach i)
  · have hq := alone_queue hjobs (h.running.reach.mono okJobs_of_serving) halone
    have hidle : jobView s₀.tp.m_hWorkerIoPort s'.hist (.worker i) = .idle :=
      (delivery_kept rt hjobs).view_idle hreach hend
    rw [hidle] at hq
    exact hq

end

/-! ## The clients have come to their ends -/

/-- The connections are free, and no client is in a call. -/
structure Serving (rt : Runtime) (s₀ : State) (s₁ s : Sys) : Prop extends AllFree rt s₀ s₁ s where
  clients : ∀ i c p, s.thread (.client i) ≠ .running c p

/-- The call with which a worker goes on. -/
def okRound (_ : Tid) (c : Call) : Prop := c = .workerProc

section

variable {rt : Runtime} {s₀ : State} {s s' s₁ : Sys} {i : Nat}

theorem Serving.of_alone (h : Serving rt s₀ s₁ s) (halone : (machine rt).Alone (.worker i) s s')
    (h' : AllFree rt s₀ s₁ s') : Serving rt s₀ s₁ s' := by
  refine ⟨h', fun j c p => ?_⟩
  rw [halone.thread_of_ne (u := .client j) (by simp)]
  exact h.clients j c p

variable (hpool : PoolOk s₀) (hjobs : JobsReady s₀)

/-- Worker 0 begins a round. -/
theorem Serving.begin (h : Serving rt s₀ s₁ s) (ht : s.thread (.worker 0) = .idle)
    (hworkers : 0 < s.shared.tp.threads) :
    ∃ s', (machine rt).LeadsWith okRound s s' ∧ Serving rt s₀ s₁ s' ∧
      s'.thread (.worker 0) = .running .workerProc Call.workerProc.code ∧ s'.shared = s.shared ∧
      jobView s₀.tp.m_hWorkerIoPort s'.hist (.worker 0) = .waiting := by
  have hs : (machine rt).Steps s (.call (.worker 0) .workerProc) _ :=
    .call ht (by simp [machine, Call.enabled, hworkers])
  refine ⟨_, hs.leadsWith rfl, ⟨⟨⟨?_, fun t => ?_⟩, h.vector, h.free⟩, fun j c p => ?_⟩,
    ?_, rfl, ?_⟩
  · refine h.running.reach.step (l := .call (.worker 0) .workerProc) ?_ hs.step
    intro t c he
    cases he
    trivial
  · rw [phaseView, Discipline.view_call]
    by_cases ht : t = .worker 0
    · rw [ht, Function.update_self]
    · rw [Function.update_of_ne ht]
      exact h.running.alive t
  · rw [hs.thread_of_ne (t := .client j) (by simp [Label.thread])]
    exact h.clients j c p
  · show Function.update s.thread (.worker 0) _ (.worker 0) = _
    rw [Function.update_self]
    rfl
  · rw [jobView, Discipline.view_call, Function.update_self]
    rfl

include hpool hjobs in
/-- Worker 0 takes one packet. -/
theorem Serving.serve (h : Serving rt s₀ s₁ s) (ht : s.thread (.worker 0) = .idle)
    (hworkers : 0 < s₀.tp.threads) (hqueue : queueLength s₀.tp.m_hWorkerIoPort s ≠ 0) :
    ∃ s', (machine rt).LeadsWith okRound s s' ∧ Serving rt s₀ s₁ s' ∧
      queueLength s₀.tp.m_hWorkerIoPort s' < queueLength s₀.tp.m_hWorkerIoPort s := by
  have hthreads := threads_eq hjobs (h.running.reach.mono okJobs_of_serving)
  obtain ⟨x, hlead, hx, hp, hshared, hwaiting⟩ := h.begin ht (hthreads ▸ hworkers)
  have hlen : queueLength s₀.tp.m_hWorkerIoPort x = queueLength s₀.tp.m_hWorkerIoPort s := by
    simp only [queueLength, hshared]
  obtain ⟨s', halone, h', -, hq⟩ := hx.round hpool hjobs hp fun _ hnil => by
    rw [← hlen, queueLength, hnil] at hqueue
    exact hqueue rfl
  rw [Job.waits_eq_one hwaiting, hlen] at hq
  exact ⟨s', hlead.trans halone.leads.leadsWith, hx.of_alone halone h', by omega⟩

include hpool hjobs in
/-- Worker 0 empties the queue. -/
theorem Serving.drain (h : Serving rt s₀ s₁ s) (hworkers : 0 < s₀.tp.threads) :
    ∃ s', (machine rt).LeadsWith okRound s s' ∧ Serving rt s₀ s₁ s' ∧
      queueLength s₀.tp.m_hWorkerIoPort s' = 0 := by
  induction hn : queueLength s₀.tp.m_hWorkerIoPort s using Nat.strong_induction_on generalizing s with
  | _ n ih =>
    by_cases hzero : n = 0
    · exact ⟨s, (Machine.Leads.refl s).leadsWith, h, hn.trans hzero⟩
    have hnil : (s.shared.tp.port s₀.tp.m_hWorkerIoPort).queue ≠ [] := by
      rintro he
      rw [queueLength, he] at hn
      exact hzero hn.symm
    have hnext : ∃ x, (machine rt).LeadsWith okRound s x ∧ Serving rt s₀ s₁ x ∧
        queueLength s₀.tp.m_hWorkerIoPort x < n := by
      cases ht : s.thread (.worker 0) with
      | idle => exact hn ▸ h.serve hpool hjobs ht hworkers (by omega)
      | stopped =>
        exact absurd ht (worker_stays hjobs (h.running.reach.mono okJobs_of_serving) 0)
      | running c p =>
        -- it ends its round, and begins another if this one has taken no packet
        obtain ⟨x, halone, hx, hidle, hq⟩ := h.round hpool hjobs ht fun _ => hnil
        have hx := h.of_alone halone hx
        by_cases hlt : queueLength s₀.tp.m_hWorkerIoPort x < n
        · exact ⟨x, halone.leads.leadsWith, hx, hlt⟩
        · obtain ⟨y, hlead, hy, hless⟩ := hx.serve hpool hjobs hidle hworkers (by omega)
          exact ⟨y, halone.leads.leadsWith.trans hlead, hy, by omega⟩
    obtain ⟨x, hlead, hx, hlt⟩ := hnext
    obtain ⟨s', hlead', h', hempty⟩ := ih _ hlt hx rfl
    exact ⟨s', hlead.trans hlead', h', hempty⟩

/-- A thread that is outside of calls, or waits for a job. -/
def AtRest (l : Job) : Prop := l = .idle ∨ l = .waiting

include hpool hjobs in
/-- The workers that are still busy then come to rest. -/
theorem Serving.rest (h : Serving rt s₀ s₁ s) (hempty : queueLength s₀.tp.m_hWorkerIoPort s = 0)
    (workers : List Nat) :
    ∃ s', (machine rt).Leads s s' ∧ Serving rt s₀ s₁ s' ∧
      queueLength s₀.tp.m_hWorkerIoPort s' = 0 ∧
      ∀ i ∈ workers, AtRest (jobView s₀.tp.m_hWorkerIoPort s'.hist (.worker i)) := by
  induction workers with
  | nil => exact ⟨s, .refl s, h, hempty, by simp⟩
  | cons i workers ih =>
    obtain ⟨x, hlead, hx, hxempty, hrest⟩ := ih
    have hreach := hx.running.reach.mono okJobs_of_serving
    by_cases hwaiting : jobView s₀.tp.m_hWorkerIoPort x.hist (.worker i) = .waiting
    · exact ⟨x, hlead, hx, hxempty, List.forall_mem_cons.mpr ⟨Or.inr hwaiting, hrest⟩⟩
    by_cases hrun : ∃ c p, x.thread (.worker i) = .running c p
    · obtain ⟨c, p, hcp⟩ := hrun
      obtain ⟨y, halone, hy, hidle, hq⟩ := hx.round hpool hjobs hcp fun hl => absurd hl hwaiting
      have hyreach := hy.running.reach.mono okJobs_of_serving
      have hyidle := (delivery_kept rt hjobs).view_idle hyreach (t := .worker i) (by simp [hidle])
      refine ⟨y, hlead.trans halone.leads, hx.of_alone halone hy, by omega, ?_⟩
      intro j hj
      by_cases hji : j = i
      · subst hji
        exact Or.inl hyidle
      · rw [jobView, halone.view_of_ne (u := .worker j) (by simpa using hji)]
        exact hrest j ((List.mem_cons.mp hj).resolve_left hji)
    · have hxidle := (delivery_kept rt hjobs).view_idle hreach (t := .worker i)
        fun c p hcp => hrun ⟨c, p, hcp⟩
      exact ⟨x, hlead, hx, hxempty, List.forall_mem_cons.mpr ⟨Or.inl hxidle, hrest⟩⟩

end

/-! ## All jobs are finished -/

/-- The number of a client. -/
def Tid.asClient : Tid → Option Nat
  | client i => some i
  | worker _ => none

/-- The number of a worker. -/
def Tid.asWorker : Tid → Option Nat
  | client _ => none
  | worker i => some i

/-- All jobs are finished: the queue is empty, `ProcessTask` has returned once for each packet that
has been submitted, all tasks are back in their pool, and the connections are free. -/
structure WorkedOff (s : Sys) : Prop where
  queue : (s.shared.tp.port s.shared.tp.m_hWorkerIoPort).queue = []
  finished : (finished s.hist).Perm ((submitted s.hist).map Prod.fst)
  tasks : ∀ k < s.shared.jobs.pool.created, k ∈ s.shared.jobs.pool.m_FreeList
  connections : ∀ d ∈ s.shared.cons.m_VectorCon, (s.shared.cons.con d).cs = .free

theorem submitted_suffix (ev : Ev) (h : List Ev) : submitted h <:+ submitted (ev :: h) := by
  cases ev with
  | reply t e r =>
    by_cases hpost : ∃ p pkt, e = .tp (.post p pkt)
    · obtain ⟨p, pkt, rfl⟩ := hpost
      simp only [submitted]
      split
      · exact List.suffix_cons ..
      · exact List.suffix_refl _
    · have hsame := submitted_reply (t := t) (r := r) (h := h) fun p pkt he => hpost ⟨p, pkt, he⟩
      exact hsame ▸ List.suffix_refl _
  | _ => exact List.suffix_refl _

/-- With the queue empty and all threads at rest, all jobs are finished. -/
theorem Serving.workedOff {rt : Runtime} {s₀ : State} {s₁ s : Sys} (h : Serving rt s₀ s₁ s)
    (hjobs : JobsReady s₀) (hempty : queueLength s₀.tp.m_hWorkerIoPort s = 0)
    (hrest : ∀ t, AtRest (jobView s₀.tp.m_hWorkerIoPort s.hist t)) : WorkedOff s := by
  obtain ⟨⟨hI, -⟩, -, hn, -⟩ := ((track_kept rt hjobs).holds (h.running.reach.mono okJobs_of_serving)).1
  have hnil := List.length_eq_zero_iff.mp hempty
  have hheld : ∀ t, (jobView s₀.tp.m_hWorkerIoPort s.hist t).held = none := by
    intro t
    rcases hrest t with hl | hl <;> rw [hl] <;> rfl
  have hpacket : ∀ t, (jobView s₀.tp.m_hWorkerIoPort s.hist t).packet = none := by
    intro t
    rcases hrest t with hl | hl <;> rw [hl] <;> rfl
  refine ⟨by rw [hI.port, hnil], ?_, ?_, h.vector ▸ h.free⟩
  · have hfifo := hn.fifo
    rw [hnil] at hfifo
    rw [hfifo]
    exact hn.finished_perm hpacket
  · intro k hk
    obtain ⟨loc, hloc⟩ := hI.located
    refine (hloc.pool k).mpr ⟨hk, ?_⟩
    cases hp : loc k with
    | pool => rfl
    | queue =>
      have hmem := (hloc.queued k).mpr ⟨hk, hp⟩
      rw [hnil] at hmem
      cases hmem
    | hands t =>
      have hhand := (hloc.hands t k).mpr ⟨hk, hp⟩
      rw [hheld t] at hhand
      cases hhand

/--
**No job is stranded.** However the threads of a program at work have been interleaved, and as long
as none has crashed: without any further call of a client, the calls that have begun and rounds of
the workers can finish every job, also those that a client was about to submit.
-/
theorem worked_off {rt : Runtime} {s₀ : State} (hpool : PoolOk s₀) (hjobs : JobsReady s₀)
    (hworkers : 0 < s₀.tp.threads) {s : Sys} (h : (machine rt).Reach (okServing s₀) s₀ s)
    (halive : Alive s) :
    ∃ s', (machine rt).LeadsWith okRound s s' ∧ WorkedOff s' ∧
      ∀ x ∈ submitted s.hist, x.1 ∈ finished s'.hist := by
  obtain ⟨ts, hts⟩ := h.moved
  obtain ⟨s₁, hlead₁, h₁, hend⟩ := (Running.of_alive h halive).clients_end hpool hjobs
    (ts.filterMap Tid.asClient)
  have hserving : Serving rt s₀ s s₁ := by
    refine ⟨h₁, fun i => ?_⟩
    by_cases hi : .client i ∈ ts
    · exact hend i (List.mem_filterMap.mpr ⟨.client i, hi, rfl⟩)
    · have hidle := hts _ hi
      rw [hlead₁.thread_eq (t := .client i) (by simp [hidle]), hidle]
      simp
  obtain ⟨s₂, hlead₂, h₂, hempty₂⟩ := hserving.drain hpool hjobs hworkers
  obtain ⟨ts', hts'⟩ := h₂.running.reach.moved
  obtain ⟨s₃, hlead₃, h₃, hempty₃, hrest⟩ := h₂.rest hpool hjobs hempty₂
    (ts'.filterMap Tid.asWorker)
  have hreach₃ := h₃.running.reach.mono okJobs_of_serving
  have hall : ∀ t, AtRest (jobView s₀.tp.m_hWorkerIoPort s₃.hist t) := by
    intro t
    by_cases ht : t ∈ ts'
    · cases t with
      | client i => exact Or.inl ((delivery_kept rt hjobs).view_idle hreach₃ (h₃.clients i))
      | worker i => exact hrest i (List.mem_filterMap.mpr ⟨.worker i, ht, rfl⟩)
    · have hidle := hts' _ ht
      refine Or.inl ((delivery_kept rt hjobs).view_idle hreach₃ ?_)
      rw [hlead₃.thread_eq (by simp [hidle]), hidle]
      simp
  have hworked := h₃.workedOff hjobs hempty₃ hall
  have hlead := (hlead₁.leadsWith.trans hlead₂).trans hlead₃.leadsWith
  refine ⟨s₃, hlead, hworked, fun x hx => ?_⟩
  -- what has been submitted stays submitted
  obtain ⟨ls, -, hrun⟩ := hlead
  obtain ⟨later, hlater, -⟩ := Machine.run_hist hrun
  have hsub : submitted s.hist <:+ submitted s₃.hist :=
    suffix_of_suffix submitted_suffix ⟨later, hlater.symm⟩
  exact hworked.finished.mem_iff.mpr (List.mem_map_of_mem (hsub.subset hx))

/-- A job is in the queue, and client 1 is about to submit another. -/
theorem worked_off_two : ∃ s, (machine .standard).Reach (okServing (.small 1 1)) (.small 1 1) s ∧
    submitted s.hist = [(0, [113])] ∧
    (s.thread (.client 1)).asking = some (.executeQueryNoRet (some [114]), .tp .getPort) ∧
    ∃ s', (machine .standard).LeadsWith okRound s s' ∧ WorkedOff s' ∧
      ∀ x ∈ submitted s.hist, x.1 ∈ finished s'.hist := by
  have hrun : ((machine .standard).run
      (.call (.client 0) (.executeQueryNoRet (some [113])) ::
        List.replicate 5 (.act (.client 0) .success) ++
        .call (.client 1) (.executeQueryNoRet (some [114])) ::
          List.replicate 2 (.act (.client 1) .success))
      (.init (.small 1 1))).map
      (fun s => (submitted s.hist, (s.thread (.client 0)).asking, (s.thread (.client 1)).asking)) =
      some ([(0, [113])], none, some (.executeQueryNoRet (some [114]), .tp .getPort)) := by
    decide +kernel
  obtain ⟨s, hs, hl⟩ := Option.map_eq_some_iff.mp hrun
  obtain ⟨hsub, hl⟩ := Prod.mk.inj hl
  obtain ⟨h0, h1⟩ := Prod.mk.inj hl
  have hr : (machine .standard).Reach
      (fun t c => (t = .client 0 ∨ t = .client 1) ∧ okServing (.small 1 1) t c) (.small 1 1) s := by
    refine Machine.Reach.init.run ?_ hs
    intro l hl t c hc
    subst hc
    simp only [List.cons_append, List.mem_cons, List.mem_append, List.mem_replicate, reduceCtorEq,
      and_false, false_or, or_false, Label.call.injEq] at hl
    rcases hl with ⟨rfl, rfl⟩ | ⟨rfl, rfl⟩
    · exact ⟨Or.inl rfl, by simp [CString.NulFree], by decide⟩
    · exact ⟨Or.inr rfl, by simp [CString.NulFree], by decide⟩
  have hserving := hr.mono fun t c h => h.2
  have halive : Alive s := by
    intro t c hc
    obtain ⟨k, hk⟩ := Thread.asking_eq_some hc
    rcases (hr.began hk).1.1 with rfl | rfl
    · rw [h0] at hc
      cases hc
    · rw [h1] at hc
      cases hc
  exact ⟨s, hserving, hsub, h1, worked_off (poolOk_started _ _ _ _ _) (jobsReady_started _ _ _ _ _)
    Nat.one_pos hserving halive⟩

end XeMySql
