import XeMySql.Delivery

/-!
# No lost, duplicated or corrupted job

Where the tasks are, which packets have been handed to `ProcessTask`, what it has read, and which
rounds of the workers are finished: all read off the state and the history.

* `Numbered` — packets are handed over in the order in which they were submitted
* `delivered` — the claim about whole runs
-/

namespace XeMySql

open Interact

/-! ## Reading the history -/

/-- The task an answer brings into the hands of its thread. -/
def Answer.acquires : Answer Op Op.Reply → Option Nat
  | ⟨.task .alloc, k⟩ => some k
  | ⟨.tp (.getQueued _), .packet _ (.job _ (some k))⟩ => some k
  | _ => none

/-- The task that leaves them. -/
def Answer.releases : Answer Op Op.Reply → Option Nat
  | ⟨.tp (.post _ (.job _ (some k))), _⟩ => some k
  | ⟨.task (.free k), _⟩ => some k
  | _ => none

/-- The packet that is handed to `ProcessTask`: one with a worker and a task. -/
def Answer.hands : Answer Op Op.Reply → Option Nat
  | ⟨.tp (.getQueued _), .packet n (.job true (some _))⟩ => some n
  | _ => none

/-- The tasks thread `t` has got in its present call. -/
def acquiredIn (t : Tid) (h : List Ev) : List Nat := (callTrace t h).filterMap Answer.acquires

/-- The tasks it has given away. -/
def releasedIn (t : Tid) (h : List Ev) : List Nat := (callTrace t h).filterMap Answer.releases

/-- The packet that thread `t` is processing. -/
def presentPacket (t : Tid) (h : List Ev) : Option Nat := (callTrace t h).findSome? Answer.hands

/-- The packets handed to `ProcessTask`, the latest first. -/
def handed : List Ev → List Nat
  | [] => []
  | .reply _ e r :: h => (Answer.hands ⟨e, r⟩).toList ++ handed h
  | _ :: h => handed h

/-- What `ProcessTask` has read as the query, with the number of its packet. -/
def reads : List Ev → List (Nat × Bytes)
  | [] => []
  | .reply t (.task (.getQuery _)) text :: h =>
    match presentPacket t h with
    | some n => (n, text) :: reads h
    | none => reads h
  | _ :: h => reads h

/-- The packets whose `ProcessTask` has returned, the latest first. -/
def finished : List Ev → List Nat
  | [] => []
  | .done t .workerProc _ :: h => (presentPacket t h).toList ++ finished h
  | _ :: h => finished h

/-- The queries for which a call of `ExecuteQueryNoRet` by thread `t` has returned, the latest first. -/
def returnedBy (t : Tid) : List Ev → List Bytes
  | [] => []
  | .done u (.executeQueryNoRet (some q)) _ :: h =>
    if u = t then q :: returnedBy t h else returnedBy t h
  | _ :: h => returnedBy t h

/-! ## What threads know of it -/

namespace Job

/-- The tasks a thread has got. -/
def acquired : Job → List Nat
  | fresh _ k => [k]
  | filled _ k => [k]
  | posted _ k => [k]
  | taken _ k => [k]
  | seen _ k => [k]
  | inited _ k => [k]
  | freed _ k => [k]
  | _ => []

/-- The tasks it has given away. -/
def released : Job → List Nat
  | posted _ k => [k]
  | freed _ k => [k]
  | _ => []

/-- The packet it is processing. -/
def packet : Job → Option Nat
  | taken n _ => some n
  | seen n _ => some n
  | inited n _ => some n
  | freed n _ => some n
  | _ => none

/-- The packet whose query it has read. -/
def read : Job → Option Nat
  | seen n _ => some n
  | inited n _ => some n
  | freed n _ => some n
  | _ => none

/-- The query it has submitted. -/
def submitted : Job → List Bytes
  | posted q _ => [q]
  | _ => []

end Job

/-- What a thread knows is what the history says. -/
structure Tracked (p₀ : Nat) (h : List Ev) (t : Tid) : Prop where
  acquired : acquiredIn t h = (jobView p₀ h t).acquired
  released : releasedIn t h = (jobView p₀ h t).released
  packet : presentPacket t h = (jobView p₀ h t).packet
  submitted : (submittedBy t h).map Prod.snd = (jobView p₀ h t).submitted ++ returnedBy t h

section

variable {p₀ : Nat} {h : List Ev} {t u : Tid} {e : Op} {r : e.Reply}

/-- What one more answer does to the lists of a thread's present call. -/
theorem filterMap_reply (f : Answer Op Op.Reply → Option Nat) :
    (callTrace t (.reply t e r :: h)).filterMap f
      = (f ⟨e, r⟩).toList ++ (callTrace t h).filterMap f := by
  rw [callTrace_reply, if_pos rfl, List.filterMap_cons]
  cases f ⟨e, r⟩ <;> rfl

theorem presentPacket_reply :
    presentPacket t (.reply t e r :: h) = (Answer.hands ⟨e, r⟩).or (presentPacket t h) := by
  unfold presentPacket
  rw [callTrace_reply, if_pos rfl, List.findSome?_cons]
  cases Answer.hands ⟨e, r⟩ <;> rfl

/-- How an answer changes what a thread holds, in lists and in its job. -/
theorem job_lists {l : Job} (hm : l.may p₀ e) (hc : l.can p₀ e r) :
    (l.next e r).acquired = (Answer.acquires ⟨e, r⟩).toList ++ l.acquired ∧
      (l.next e r).released = (Answer.releases ⟨e, r⟩).toList ++ l.released ∧
      (l.next e r).packet = (Answer.hands ⟨e, r⟩).or l.packet := by
  cases e with
  | tp e =>
    cases e with
    | post p pkt =>
      obtain ⟨-, q, k, rfl, rfl⟩ := hm
      exact ⟨rfl, rfl, rfl⟩
    | getQueued p =>
      obtain ⟨-, rfl⟩ := hm
      obtain ⟨n, k, rfl⟩ := hc
      exact ⟨rfl, rfl, rfl⟩
    | _ => exact ⟨rfl, rfl, rfl⟩
  | task e =>
    cases e with
    | alloc =>
      obtain ⟨q, rfl⟩ := hm
      exact ⟨rfl, rfl, rfl⟩
    | strncpy k src n =>
      obtain ⟨rfl, -⟩ := hm
      exact ⟨rfl, rfl, rfl⟩
    | getQuery k =>
      obtain ⟨n, rfl⟩ := hm
      exact ⟨rfl, rfl, rfl⟩
    | init k =>
      obtain ⟨n, rfl⟩ := hm
      exact ⟨rfl, rfl, rfl⟩
    | free k =>
      obtain ⟨n, rfl⟩ := hm
      exact ⟨rfl, rfl, rfl⟩
    | _ => exact ⟨rfl, rfl, rfl⟩
  | _ => exact ⟨rfl, rfl, rfl⟩

/-- What has been submitted, after an answer. -/
theorem submittedBy_next (hin : InCall (jobView p₀ h) h) (hm : (jobView p₀ h t).may p₀ e)
    (hc : (jobView p₀ h t).can p₀ e r)
    (hb : (submittedBy t h).map Prod.snd = (jobView p₀ h t).submitted ++ returnedBy t h) :
    (submittedBy t (.reply t e r :: h)).map Prod.snd
      = ((jobView p₀ h t).next e r).submitted ++ returnedBy t h := by
  have hsame : (∀ p pkt, e ≠ .tp (.post p pkt)) →
      ((jobView p₀ h t).next e r).submitted = (jobView p₀ h t).submitted →
      (submittedBy t (.reply t e r :: h)).map Prod.snd
        = ((jobView p₀ h t).next e r).submitted ++ returnedBy t h := by
    intro he hl
    rw [submittedBy_reply he, hl]
    exact hb
  cases e with
  | tp e =>
    cases e with
    | post p pkt =>
      obtain ⟨-, q, k, hl, -⟩ := hm
      obtain ⟨n, rfl⟩ := hc
      rw [submittedBy_post (hin t _ (by rw [hl]; rfl)), if_pos rfl, List.map_cons, hb, hl]
      rfl
    | getQueued p =>
      obtain ⟨-, hl⟩ := hm
      obtain ⟨n, k, rfl⟩ := hc
      exact hsame (by simp) (by rw [hl]; rfl)
    | _ => exact hsame (by simp) rfl
  | task e =>
    refine hsame (by simp) ?_
    cases e with
    | alloc =>
      obtain ⟨q, hl⟩ := hm
      rw [hl]
      rfl
    | strncpy k src n =>
      rw [hm.1]
      rfl
    | getQuery k =>
      obtain ⟨n, hl⟩ := hm
      rw [hl]
      rfl
    | init k =>
      obtain ⟨n, hl⟩ := hm
      rw [hl]
      rfl
    | free k =>
      obtain ⟨n, hl⟩ := hm
      rw [hl]
      rfl
    | _ => rfl
  | _ => exact hsame (by simp) rfl

/-- No other thread has submitted anything then. -/
theorem submittedBy_of_ne (hu : u ≠ t) : submittedBy u (.reply t e r :: h) = submittedBy u h := by
  by_cases he : ∃ p pkt, e = .tp (.post p pkt)
  · obtain ⟨p, pkt, rfl⟩ := he
    simp only [submittedBy]
    split
    · exact if_neg (Ne.symm hu)
    · rfl
  · exact submittedBy_reply fun p pkt hp => he ⟨p, pkt, hp⟩

theorem Tracked.reply (hb : ∀ u, Tracked p₀ h u) (hin : InCall (jobView p₀ h) h)
    (hm : (jobView p₀ h t).may p₀ e) (hc : (jobView p₀ h t).can p₀ e r) :
    ∀ u, Tracked p₀ (.reply t e r :: h) u := by
  intro u
  have hbu := hb u
  by_cases hu : u = t
  · subst hu
    obtain ⟨h1, h2, h3⟩ := job_lists hm hc
    have hv : jobView p₀ (.reply u e r :: h) u = (jobView p₀ h u).next e r := by
      rw [jobView, Discipline.view_reply, Function.update_self]
      rfl
    refine ⟨?_, ?_, ?_, ?_⟩
    · rw [hv, h1, ← hbu.acquired]
      exact filterMap_reply _
    · rw [hv, h2, ← hbu.released]
      exact filterMap_reply _
    · rw [hv, h3, ← hbu.packet]
      exact presentPacket_reply
    · rw [hv]
      exact submittedBy_next hin hm hc hbu.submitted
  · have hv : jobView p₀ (.reply t e r :: h) u = jobView p₀ h u := by
      rw [jobView, Discipline.view_reply, Function.update_of_ne hu]
    have ht : callTrace u (.reply t e r :: h) = callTrace u h := by
      rw [callTrace_reply, if_neg (Ne.symm hu)]
    refine ⟨?_, ?_, ?_, ?_⟩
    · rw [hv, acquiredIn, ht]
      exact hbu.acquired
    · rw [hv, releasedIn, ht]
      exact hbu.released
    · rw [hv, presentPacket, ht]
      exact hbu.packet
    · rw [hv, submittedBy_of_ne hu]
      exact hbu.submitted

end

/-! ## Packets in order -/

/--
The numbers of the packets: `numbers`, they are counted up as queries are submitted; `fifo`, what
has not been handed over is in the queue; `located`, what has been handed over is finished or in one
worker's hands. `read`: what has been read has been submitted.
-/
structure Numbered (p₀ : Nat) (s : State) (h : List Ev) : Prop where
  numbers : (submitted h).map Prod.fst = (List.range (s.tp.port p₀).sent).reverse
  fifo : (submitted h).map Prod.fst = ((s.tp.port p₀).queue.map Prod.fst).reverse ++ handed h
  located : ∃ loc, Located loc (handed h).length (finished h).reverse []
    fun t => (jobView p₀ h t).packet
  read : ∀ x ∈ reads h, x ∈ submitted h

/-- The end of a list that counts down counts down to the same number. -/
theorem suffix_range_reverse {a b : List Nat} {n : Nat} (h : (List.range n).reverse = a ++ b) :
    b = (List.range b.length).reverse := by
  have h1 : List.range n = b.reverse ++ a.reverse := by
    rw [← List.reverse_append, ← h, List.reverse_reverse]
  have hlen : b.length ≤ n := by
    have := congrArg List.length h1
    simp only [List.length_range, List.length_append, List.length_reverse] at this
    omega
  have h2 : (List.range n).take b.length = b.reverse := by
    rw [h1, List.take_left' (List.length_reverse ..)]
  rw [List.take_range, Nat.min_eq_left hlen] at h2
  rw [h2, List.reverse_reverse]

theorem Numbered.handed_eq {p₀ : Nat} {s : State} {h : List Ev} (hn : Numbered p₀ s h) :
    handed h = (List.range (handed h).length).reverse :=
  suffix_range_reverse (hn.numbers.symm.trans hn.fifo)

theorem packet_update (v : Tid → Job) (t : Tid) (l : Job) :
    (fun u => (Function.update v t l u).packet)
      = Function.update (fun u => (v u).packet) t l.packet := by
  funext u
  by_cases hu : u = t
  · subst hu
    simp
  · simp [hu]

section

variable {rt : Runtime} {p₀ : Nat} {s s' : State} {h : List Ev} {t : Tid} {e : Op} {r : e.Reply}
  {o : Outcome}

/-- An answer that neither submits a query nor hands one over, nor reads one. -/
theorem Numbered.skip (hn : Numbered p₀ s h) (hm : (jobView p₀ h t).may p₀ e)
    (hc : (jobView p₀ h t).can p₀ e r) (h1 : ∀ p pkt, e ≠ .tp (.post p pkt))
    (h2 : ∀ p, e ≠ .tp (.getQueued p)) (h3 : ∀ k, e ≠ .task (.getQuery k))
    (hp : s'.tp.port p₀ = s.tp.port p₀) : Numbered p₀ s' (.reply t e r :: h) := by
  have hhands : Answer.hands ⟨e, r⟩ = none := by
    cases e with
    | tp e =>
      cases e with
      | getQueued p => exact absurd rfl (h2 p)
      | _ => rfl
    | _ => rfl
  have hhanded : handed (.reply t e r :: h) = handed h := by
    rw [handed, hhands]
    rfl
  have hreads : reads (.reply t e r :: h) = reads h := by
    cases e with
    | task e =>
      cases e with
      | getQuery k => exact absurd rfl (h3 k)
      | _ => rfl
    | _ => rfl
  refine ⟨?_, ?_, ?_, ?_⟩
  · rw [submitted_reply h1, hp]
    exact hn.numbers
  · rw [submitted_reply h1, hp, hhanded]
    exact hn.fifo
  · rw [hhanded]
    obtain ⟨loc, hl⟩ := hn.located
    refine ⟨loc, ?_⟩
    have hpk := (job_lists hm hc).2.2
    rw [hhands, Option.none_or] at hpk
    rw [jobView, Discipline.view_reply, packet_update]
    show Located loc _ _ _ (Function.update _ t ((jobView p₀ h t).next e r).packet)
    rw [hpk, Function.update_eq_self]
    exact hl
  · rw [hreads, submitted_reply h1]
    exact hn.read

/-- Reading the query of a task. -/
theorem Numbered.getQuery (hn : Numbered p₀ s h)
    (hI : JobInv p₀ s.tp s.jobs (jobView p₀ h) (submitted h)) (htr : Tracked p₀ h t) {k : Nat}
    {after : Bytes} (hm : (jobView p₀ h t).may p₀ (.task (.getQuery k))) :
    Numbered p₀ s (.reply t (.task (.getQuery k)) ((s.jobs.task k).szQuery after) :: h) := by
  obtain ⟨n, hl⟩ := hm
  have hcon := hI.hands t
  rw [hl] at hcon
  obtain ⟨q, hq, hk⟩ := hcon
  have hshort := hI.short _ hq
  have hpk : presentPacket t h = some n := by
    rw [htr.packet, hl]
    rfl
  have htext : (s.jobs.task k).szQuery after = q := by
    rw [hk]
    exact CXEMySqlTask.szQuery_holding hshort.1 (Nat.lt_of_le_of_lt hshort.2 (by decide)) after
  refine ⟨hn.numbers, hn.fifo, ?_, ?_⟩
  · obtain ⟨loc, hloc⟩ := hn.located
    refine ⟨loc, ?_⟩
    have hsame : ((Job.discipline p₀).next (jobView p₀ h t) (.task (.getQuery k))
        ((s.jobs.task k).szQuery after)).packet = (jobView p₀ h t).packet := by
      rw [hl]
      rfl
    rw [jobView, Discipline.view_reply, packet_update, hsame, Function.update_eq_self]
    exact hloc
  · intro x hx
    simp only [reads, hpk] at hx
    rcases List.mem_cons.mp hx with rfl | hx
    · rw [htext]
      exact hq
    · exact hn.read x hx

/-- Submitting a query. -/
theorem Numbered.post (hn : Numbered p₀ s h) (hin : InCall (jobView p₀ h) h) {q : Bytes} {k : Nat}
    (hl : jobView p₀ h t = .filled q k) :
    Numbered p₀
      { s with tp := s.tp.withPort p₀ ((s.tp.port p₀).push (.job true (some k))) }
      (.reply t (.tp (.post p₀ (.job true (some k)))) (some (s.tp.port p₀).sent) :: h) := by
  have hsub : submitted
      (.reply t (.tp (.post p₀ (.job true (some k)))) (some (s.tp.port p₀).sent) :: h)
      = ((s.tp.port p₀).sent, q) :: submitted h := submitted_post (hin t _ (by rw [hl]; rfl))
  have hnum : (((s.tp.port p₀).sent, q) :: submitted h).map Prod.fst
      = (List.range ((s.tp.port p₀).sent + 1)).reverse := by
    rw [List.range_succ, List.reverse_append, List.map_cons, hn.numbers]
    rfl
  refine ⟨?_, ?_, ?_, ?_⟩
  · rw [ThreadPool.port_withPort, hsub]
    exact hnum
  · rw [ThreadPool.port_withPort, hsub, List.map_cons, hn.fifo]
    show _ = (((s.tp.port p₀).queue ++ [_]).map Prod.fst).reverse ++ handed h
    rw [List.map_append, List.reverse_append]
    rfl
  · obtain ⟨loc, hloc⟩ := hn.located
    refine ⟨loc, ?_⟩
    rw [jobView, Discipline.view_reply, packet_update]
    have hpk : ((Job.discipline p₀).next (jobView p₀ h t)
        (.tp (.post p₀ (.job true (some k)))) (some (s.tp.port p₀).sent)).packet
        = (jobView p₀ h t).packet := by
      rw [hl]
      rfl
    rw [hpk, Function.update_eq_self]
    exact hloc
  · rw [hsub]
    exact fun x hx => List.mem_cons_of_mem _ (hn.read x hx)

/-- Handing a packet over. -/
theorem Numbered.getQueued (hn : Numbered p₀ s h) (hl : jobView p₀ h t = .waiting) {n k : Nat}
    {rest : List (Nat × Packet Nat)}
    (hq : (s.tp.port p₀).queue = (n, .job true (some k)) :: rest) :
    Numbered p₀ { s with tp := s.tp.withPort p₀ (s.tp.port p₀).pop }
      (.reply t (.tp (.getQueued p₀)) (.packet n (.job true (some k))) :: h) := by
  have hfifo : (submitted h).map Prod.fst = (rest.map Prod.fst).reverse ++ (n :: handed h) := by
    rw [hn.fifo, hq, List.map_cons, List.reverse_cons, List.append_assoc]
    rfl
  -- the packets handed over so far are those before this one
  have hnum : n = (handed h).length := by
    have h1 := suffix_range_reverse (hn.numbers.symm.trans hfifo)
    rw [List.length_cons, List.range_succ, List.reverse_append] at h1
    exact (List.cons.inj h1).1
  refine ⟨?_, ?_, ?_, hn.read⟩
  · rw [ThreadPool.port_withPort]
    exact hn.numbers
  · rw [ThreadPool.port_withPort, Port.pop_eq hq]
    exact hfifo
  · obtain ⟨loc, hloc⟩ := hn.located
    refine ⟨Function.update loc (handed h).length (.hands t), ?_⟩
    rw [jobView, Discipline.view_reply, packet_update]
    have hhatch := hloc.hatch (t := t) (by
      show (jobView p₀ h t).packet = none
      rw [hl]
      rfl)
    show Located _ ((handed h).length + 1) _ _ (Function.update _ t (some n))
    rw [hnum]
    exact hhatch

/-- **Step lemma.** Every answer keeps the packets in order. -/
theorem Numbered.reply (hn : Numbered p₀ s h) (hI : JobInv p₀ s.tp s.jobs (jobView p₀ h) (submitted h))
    (hin : InCall (jobView p₀ h) h) (htr : Tracked p₀ h t) (hm : (jobView p₀ h t).may p₀ e)
    (hc : (jobView p₀ h t).can p₀ e r) (he : exec rt t e o s = some (s', some r)) :
    Numbered p₀ s' (.reply t e r :: h) := by
  cases e with
  | con e =>
    obtain ⟨x, hx, rfl⟩ := exec_con he
    exact hn.skip hm hc (by simp) (by simp) (by simp) rfl
  | lib e =>
    obtain ⟨rfl, -⟩ := exec_lib he
    exact hn.skip hm hc (by simp) (by simp) (by simp) rfl
  | res e =>
    obtain ⟨x, hx, rfl⟩ := exec_res he
    exact hn.skip hm hc (by simp) (by simp) (by simp) rfl
  | rt e =>
    obtain ⟨x, hx, rfl⟩ := exec_rt he
    exact hn.skip hm hc (by simp) (by simp) (by simp) rfl
  | task e =>
    obtain ⟨x, hx, rfl⟩ := exec_task he
    by_cases hq : ∃ k, e = .getQuery k
    · obtain ⟨k, rfl⟩ := hq
      cases hx
      exact hn.getQuery hI htr hm
    · exact hn.skip hm hc (by simp) (by simp) (fun k hk => hq ⟨k, Op.task.inj hk⟩) rfl
  | tp e =>
    obtain ⟨x, hx, rfl⟩ := exec_tp he
    cases e with
    | getPort =>
      cases hx
      exact hn.skip hm hc (by simp) (by simp) (by simp) rfl
    | currentThreadId =>
      cases t <;> cases hx <;> exact hn.skip hm hc (by simp) (by simp) (by simp) rfl
    | post p pkt =>
      obtain ⟨rfl, q, k, hl, rfl⟩ := hm
      simp only [ThreadPool.exec, hI.opened, if_true, Option.some.injEq, Prod.mk.injEq] at hx
      obtain ⟨rfl, hr⟩ := hx
      subst hr
      exact hn.post hin hl
    | getQueued p =>
      obtain ⟨rfl, hl⟩ := hm
      obtain ⟨n, k, rfl⟩ := hc
      simp only [ThreadPool.exec, hI.opened, if_true] at hx
      split at hx
      · cases hx
      · next n' pkt rest hq =>
        cases hx
        exact hn.getQueued hl hq
    | _ => exact hm.elim

end

/-! ## Whole runs -/

/-- Whoever has gone on with a packet has read its query. -/
structure Looked (p₀ : Nat) (h : List Ev) : Prop where
  hands : ∀ t n, (jobView p₀ h t).read = some n → n ∈ (reads h).map Prod.fst
  finished : ∀ n ∈ finished h, n ∈ (reads h).map Prod.fst

/-- The layer of the history above the invariant of the jobs. -/
abbrev trackInvariant (p₀ : Nat) (s : State) (h : List Ev) : Prop :=
  (∀ t, Tracked p₀ h t) ∧ Numbered p₀ s h ∧ Looked p₀ h

/-- A call begins or ends with empty hands: nothing is tracked of it. -/
theorem Tracked.restart {p₀ : Nat} {h : List Ev} {t : Tid} {ev : Ev} {l : Job}
    (hb : ∀ u, Tracked p₀ h u) (hev : callTrace t (ev :: h) = [])
    (hother : ∀ u, u ≠ t → callTrace u (ev :: h) = callTrace u h)
    (hv : jobView p₀ (ev :: h) = Function.update (jobView p₀ h) t l)
    (hl : l.acquired = [] ∧ l.released = [] ∧ l.packet = none ∧ l.submitted = [] ∧ l.read = none)
    (hsub : ∀ u, submittedBy u (ev :: h) = submittedBy u h)
    (hret : returnedBy t (ev :: h) = (jobView p₀ h t).submitted ++ returnedBy t h)
    (hretother : ∀ u, u ≠ t → returnedBy u (ev :: h) = returnedBy u h) :
    ∀ u, Tracked p₀ (ev :: h) u := by
  intro u
  by_cases hu : u = t
  · subst hu
    refine ⟨?_, ?_, ?_, ?_⟩
    · rw [hv, Function.update_self, acquiredIn, hev, hl.1]
      rfl
    · rw [hv, Function.update_self, releasedIn, hev, hl.2.1]
      rfl
    · rw [hv, Function.update_self, presentPacket, hev, hl.2.2.1]
      rfl
    · rw [hv, Function.update_self, hl.2.2.2.1, hsub, hret]
      exact (hb u).submitted
  · have hbu := hb u
    refine ⟨?_, ?_, ?_, ?_⟩
    · rw [hv, Function.update_of_ne hu, acquiredIn, hother u hu]
      exact hbu.acquired
    · rw [hv, Function.update_of_ne hu, releasedIn, hother u hu]
      exact hbu.released
    · rw [hv, Function.update_of_ne hu, presentPacket, hother u hu]
      exact hbu.packet
    · rw [hv, Function.update_of_ne hu, hsub, hretother u hu]
      exact hbu.submitted

theorem Job.start_empty (t : Tid) (c : Call) :
    (Job.start t c).acquired = [] ∧ (Job.start t c).released = [] ∧
      (Job.start t c).packet = none ∧ (Job.start t c).submitted = [] ∧
      (Job.start t c).read = none := by
  cases c with
  | executeQueryNoRet q => cases q <;> exact ⟨rfl, rfl, rfl, rfl, rfl⟩
  | _ => exact ⟨rfl, rfl, rfl, rfl, rfl⟩

/-- At its end a call of `ExecuteQueryNoRet` has submitted the query it was called with. -/
theorem returnedBy_done {p₀ : Nat} {h : List Ev} {t : Tid} {c : Call} {a : Bool}
    (hf : Job.final c a (jobView p₀ h t)) :
    returnedBy t (.done t c a :: h) = (jobView p₀ h t).submitted ++ returnedBy t h := by
  cases c with
  | executeQueryNoRet query =>
    obtain ⟨q, k, hl, rfl⟩ := hf
    rw [hl, returnedBy, if_pos rfl]
    rfl
  | workerProc =>
    obtain ⟨n, k, hl⟩ := hf
    rw [hl]
    rfl
  | _ =>
    rw [show jobView p₀ h t = .idle from hf]
    rfl

theorem returnedBy_of_ne {h : List Ev} {t u : Tid} {c : Call} {a : Bool} (hu : u ≠ t) :
    returnedBy u (.done t c a :: h) = returnedBy u h := by
  cases c with
  | executeQueryNoRet query =>
    cases query with
    | none => rfl
    | some q => exact if_neg (Ne.symm hu)
  | _ => rfl

/-- What has been read stays so. -/
theorem reads_suffix {h : List Ev} (ev : Ev) : reads h <:+ reads (ev :: h) := by
  cases ev with
  | reply t e r =>
    cases e with
    | task e =>
      cases e with
      | getQuery k =>
        simp only [reads]
        split
        · exact List.suffix_cons _ _
        · exact List.suffix_refl _
      | _ => exact List.suffix_refl _
    | _ => exact List.suffix_refl _
  | _ => exact List.suffix_refl _

theorem mem_reads_cons {h : List Ev} {n : Nat} (ev : Ev) (hn : n ∈ (reads h).map Prod.fst) :
    n ∈ (reads (ev :: h)).map Prod.fst :=
  ((reads_suffix ev).map Prod.fst).subset hn

/-- A call begins or ends, and the thread starts at `l`. -/
theorem Looked.restart {p₀ : Nat} {h : List Ev} {t : Tid} {ev : Ev} {l : Job} (hL : Looked p₀ h)
    (hv : jobView p₀ (ev :: h) = Function.update (jobView p₀ h) t l) (hl : l.read = none)
    (hfin : ∀ n ∈ XeMySql.finished (ev :: h),
      n ∈ XeMySql.finished h ∨ (jobView p₀ h t).read = some n) : Looked p₀ (ev :: h) := by
  refine ⟨fun u n hn => mem_reads_cons ev ?_, fun n hn => mem_reads_cons ev ?_⟩
  · rw [hv] at hn
    by_cases hu : u = t
    · subst hu
      rw [Function.update_self, hl] at hn
      cases hn
    · rw [Function.update_of_ne hu] at hn
      exact hL.hands u n hn
  · rcases hfin n hn with hn | hn
    · exact hL.finished n hn
    · exact hL.hands t n hn

/-- **Step lemma.** Only `getQuery` makes a packet one that has been read. -/
theorem Looked.reply {p₀ : Nat} {h : List Ev} {t : Tid} {e : Op} {r : e.Reply} (hL : Looked p₀ h)
    (htr : Tracked p₀ h t) (hm : (jobView p₀ h t).may p₀ e) (hc : (jobView p₀ h t).can p₀ e r) :
    Looked p₀ (.reply t e r :: h) := by
  refine ⟨fun u n hn => ?_, fun n hn => mem_reads_cons _ (hL.finished n hn)⟩
  rw [jobView, Discipline.view_reply] at hn
  by_cases hu : u = t
  · subst hu
    rw [Function.update_self] at hn
    have hsame : ((jobView p₀ h u).next e r).read = (jobView p₀ h u).read →
        n ∈ (reads (.reply u e r :: h)).map Prod.fst := by
      intro heq
      exact mem_reads_cons _ (hL.hands u n (heq.symm.trans hn))
    cases e with
    | tp e =>
      cases e with
      | post p pkt =>
        obtain ⟨-, q, k, hl, -⟩ := hm
        exact hsame (by rw [hl]; rfl)
      | getQueued p =>
        obtain ⟨-, hl⟩ := hm
        obtain ⟨n, k, rfl⟩ := hc
        exact hsame (by rw [hl]; rfl)
      | _ => exact hsame rfl
    | task e =>
      cases e with
      | alloc =>
        obtain ⟨q, hl⟩ := hm
        exact hsame (by rw [hl]; rfl)
      | strncpy k src n => exact hsame (by rw [hm.1]; rfl)
      | getQuery k =>
        obtain ⟨m, hl⟩ := hm
        have hpk : presentPacket u h = some m := by
          rw [htr.packet, hl]
          rfl
        have hn : some m = some n := by
          rw [← hn, show (Job.discipline p₀).view .idle Job.start h u = _ from hl]
          rfl
        cases hn
        simp only [reads, hpk]
        exact List.mem_cons_self
      | init k =>
        obtain ⟨m, hl⟩ := hm
        exact hsame (by rw [hl]; rfl)
      | free k =>
        obtain ⟨m, hl⟩ := hm
        exact hsame (by rw [hl]; rfl)
      | _ => exact hsame rfl
    | _ => exact hsame rfl
  · rw [Function.update_of_ne hu] at hn
    exact mem_reads_cons _ (hL.hands u n hn)

/-- The end of a call finishes the packet in the thread's hands, if there is one. -/
theorem finished_done {p₀ : Nat} {h : List Ev} {t : Tid} {c : Call} {a : Bool}
    (htr : Tracked p₀ h t) (hf : Job.final c a (jobView p₀ h t)) :
    finished (.done t c a :: h) = (jobView p₀ h t).packet.toList ++ finished h := by
  cases c with
  | workerProc => rw [finished, htr.packet]
  | executeQueryNoRet query =>
    obtain ⟨q, k, hl, -⟩ := hf
    rw [hl]
    rfl
  | _ =>
    rw [show jobView p₀ h t = .idle from hf]
    rfl

/-- A packet that is finished now has been read. -/
theorem read_of_finished {p₀ : Nat} {h : List Ev} {t : Tid} {c : Call} {a : Bool} {n : Nat}
    (htr : Tracked p₀ h t) (hf : Job.final c a (jobView p₀ h t))
    (hn : n ∈ finished (.done t c a :: h)) :
    n ∈ finished h ∨ (jobView p₀ h t).read = some n := by
  rw [finished_done htr hf] at hn
  rcases List.mem_append.mp hn with hn | hn
  · refine Or.inr ?_
    cases c with
    | workerProc =>
      obtain ⟨m, k, hl⟩ := hf
      rw [hl] at hn ⊢
      exact congrArg some (List.mem_singleton.mp hn).symm
    | executeQueryNoRet query =>
      obtain ⟨q, k, hl, -⟩ := hf
      rw [hl] at hn
      cases hn
    | _ =>
      rw [show jobView p₀ h t = .idle from hf] at hn
      cases hn
  · exact Or.inl hn

/-- Then it is in the list of those that are. -/
theorem Numbered.located_done {p₀ : Nat} {s : State} {h : List Ev} {t : Tid} {c : Call} {a : Bool}
    (hn : Numbered p₀ s h) (htr : Tracked p₀ h t) (hf : Job.final c a (jobView p₀ h t)) :
    ∃ loc, Located loc (handed h).length (finished (.done t c a :: h)).reverse []
      (Function.update (fun u => (jobView p₀ h u).packet) t none) := by
  obtain ⟨loc, hloc⟩ := hn.located
  rw [finished_done htr hf]
  cases hpk : (jobView p₀ h t).packet with
  | none =>
    refine ⟨loc, ?_⟩
    rw [← hpk, Function.update_eq_self, hpk]
    exact hloc
  | some n =>
    refine ⟨Function.update loc n .pool, ?_⟩
    rw [Option.toList_some, List.singleton_append, List.reverse_cons]
    exact hloc.give hpk

/-- **Tasks and packets are tracked in every run.** -/
theorem track_kept (rt : Runtime) {s₀ : State} (h₀ : JobsReady s₀) :
    (machine rt).Kept okJobs s₀ (Job.discipline s₀.tp.m_hWorkerIoPort) .idle Job.start Job.final
      fun s h => jobInvariant s₀.tp.m_hWorkerIoPort s h ∧
        trackInvariant s₀.tp.m_hWorkerIoPort s h := by
  refine (delivery_kept rt h₀).and ?_ ?_ ?_ ?_ ?_
  · refine ⟨fun t => ⟨rfl, rfl, rfl, rfl⟩, ⟨?_, ?_, ?_, by simp [reads]⟩, ?_⟩
    · rw [h₀.port]
      rfl
    · rw [h₀.port]
      rfl
    · exact ⟨_, Located.init 0 List.nodup_nil (by simp [finished])⟩
    · exact ⟨fun t n hn => (nomatch hn), fun n hn => (nomatch hn)⟩
  · intro s h t c _ hJ _ _ hv
    obtain ⟨htr, hn, hL⟩ := hJ
    have hview : jobView s₀.tp.m_hWorkerIoPort (.call t c :: h)
        = Function.update (jobView s₀.tp.m_hWorkerIoPort h) t (Job.start t c) := by
      rw [jobView, Discipline.view_call]
    have hidle : jobView s₀.tp.m_hWorkerIoPort h t = .idle := hv
    have hempty := Job.start_empty t c
    refine ⟨Tracked.restart htr (by simp) (fun u hu => by simp [Ne.symm hu]) hview hempty
      (fun _ => rfl) (by rw [hidle]; rfl) (fun _ _ => rfl), ⟨hn.numbers, hn.fifo, ?_, hn.read⟩,
      hL.restart hview hempty.2.2.2.2 fun n hm => Or.inl hm⟩
    obtain ⟨loc, hloc⟩ := hn.located
    refine ⟨loc, ?_⟩
    have hnone : (jobView s₀.tp.m_hWorkerIoPort h t).packet = none := by
      rw [hidle]
      rfl
    rw [hview, packet_update, hempty.2.2.1, ← hnone, Function.update_eq_self]
    exact hloc
  · intro s h t e o s' _ hJ _ he
    obtain ⟨i, rfl⟩ := exec_wait he
    obtain ⟨htr, hn, hL⟩ := hJ
    exact ⟨htr, ⟨hn.numbers, hn.fifo, hn.located, hn.read⟩, hL⟩
  · intro s h t e o s' r hI hJ hm he
    have hcan := (job_reply hI.1 hI.2 hm he).1
    obtain ⟨htr, hn, hL⟩ := hJ
    exact ⟨Tracked.reply htr hI.2 hm hcan, hn.reply hI.1 hI.2 (htr t) hm hcan he,
      hL.reply (htr t) hm hcan⟩
  · intro s h t c a _ hJ hf
    obtain ⟨htr, hn, hL⟩ := hJ
    have hview : jobView s₀.tp.m_hWorkerIoPort (.done t c a :: h)
        = Function.update (jobView s₀.tp.m_hWorkerIoPort h) t .idle := by
      rw [jobView, Discipline.view_done]
    refine ⟨Tracked.restart htr (by simp) (fun u hu => by simp [Ne.symm hu]) hview
      ⟨rfl, rfl, rfl, rfl, rfl⟩ (fun _ => rfl) (returnedBy_done hf) (fun u hu => returnedBy_of_ne hu),
      ⟨hn.numbers, hn.fifo, ?_, hn.read⟩, hL.restart hview rfl fun n hm => read_of_finished (htr t) hf hm⟩
    rw [hview, packet_update]
    exact hn.located_done (htr t) hf

/-- Task `k` is at a place: in the pool, in a packet of the queue, or in the hands of a thread that
has got it in its present call and not given it away. -/
def At (s : Sys) (k : Nat) : Place Tid → Prop
  | .pool => k ∈ s.shared.jobs.pool.m_FreeList
  | .queue => k ∈ queueTasks (s.shared.tp.port s.shared.tp.m_hWorkerIoPort).queue
  | .hands t => k ∈ acquiredIn t s.hist ∧ k ∉ releasedIn t s.hist

/-- A thread that is outside of calls, or waits in `GetQueuedCompletionStatus`. -/
def Idle (s : Sys) (t : Tid) : Prop :=
  ∀ c p, s.thread t = .running c p → ∃ port next, p = .op (.tp (.getQueued port)) next

/--
No lost, duplicated or corrupted job, in one state. `place`: every task is in exactly one place, and
`pool` and `queue` name it once. `returned`: the queries a thread has submitted are those of its
calls of `ExecuteQueryNoRet` that have returned, one for each and in their order, and then at most
that of the call it is in. `once`: packets are numbered differently, each is handed to `ProcessTask`
at most once, and it has been submitted. `all`: with the queue empty and the workers idle, every
submitted query has been handed over and its `ProcessTask` has returned, once. `text`: what
`ProcessTask` reads is the query submitted in its packet; `looked`, and it reads it. `back`: a round
of a worker that is about to end has got one task, in one packet, and has put it back once.
-/
structure Delivered (s : Sys) : Prop where
  place : ∀ k < s.shared.jobs.pool.created, ∃! p, At s k p
  pool : s.shared.jobs.pool.m_FreeList.Nodup
  queue : (queueTasks (s.shared.tp.port s.shared.tp.m_hWorkerIoPort).queue).Nodup
  returned : ∀ t, (submittedBy t s.hist).Sublist (submitted s.hist) ∧
    ∃ now, (submittedBy t s.hist).map Prod.snd = now ++ returnedBy t s.hist ∧
      (now = [] ∨ ∃ q p, now = [q] ∧ s.thread t = .running (.executeQueryNoRet (some q)) p)
  once : ((submitted s.hist).map Prod.fst).Nodup ∧ (handed s.hist).Nodup ∧
    ∀ n ∈ handed s.hist, n ∈ (submitted s.hist).map Prod.fst
  all : (s.shared.tp.port s.shared.tp.m_hWorkerIoPort).queue = [] →
    (∀ i, Idle s (.worker i)) →
    (submitted s.hist).map Prod.fst = handed s.hist ∧ (finished s.hist).Perm (handed s.hist)
  text : ∀ x ∈ reads s.hist, x ∈ submitted s.hist
  looked : ∀ n ∈ finished s.hist, n ∈ (reads s.hist).map Prod.fst
  back : ∀ t a, s.thread t = .running .workerProc (.ret a) →
    ∃ n k, presentPacket t s.hist = some n ∧ acquiredIn t s.hist = [k] ∧ releasedIn t s.hist = [k]

theorem mem_acquired_iff {l : Job} {k : Nat} :
    k ∈ l.acquired ∧ k ∉ l.released ↔ l.held = some k := by
  cases l <;> simp [Job.acquired, Job.released, Job.held, eq_comm]

theorem nodup_range_reverse (n : Nat) : (List.range n).reverse.Nodup :=
  List.nodup_reverse.mpr List.nodup_range

/-- A thread that processes a packet is a worker in a round of `WorkerProc`. -/
theorem packet_worker {rt : Runtime} {s₀ : State} {s : Sys} {p₀ n : Nat} {t : Tid}
    (h : (machine rt).Reach okJobs s₀ s) (hin : InCall (jobView p₀ s.hist) s.hist)
    (hp : (jobView p₀ s.hist t).packet = some n) :
    ∃ i p, t = .worker i ∧ s.thread t = .running .workerProc p := by
  have hcall : (jobView p₀ s.hist t).call = some .workerProc := by
    cases hj : jobView p₀ s.hist t <;> rw [hj] at hp <;> first | rfl | cases hp
  obtain ⟨p, hp⟩ := h.running (hin t _ hcall)
  obtain ⟨-, sh, hen⟩ := h.began hp
  cases t with
  | client i => cases hen
  | worker i => exact ⟨i, p, rfl, hp⟩

/-- The place of a task, read off the state and the history. -/
theorem at_iff {s : Sys} {p₀ k : Nat} {loc : Nat → Place Tid} (hport : s.shared.tp.m_hWorkerIoPort = p₀)
    (htr : ∀ t, Tracked p₀ s.hist t)
    (hl : Located loc s.shared.jobs.pool.created s.shared.jobs.pool.m_FreeList
      (queueTasks (s.shared.tp.port p₀).queue) fun t => (jobView p₀ s.hist t).held)
    (hk : k < s.shared.jobs.pool.created) (p : Place Tid) : At s k p ↔ loc k = p := by
  cases p with
  | pool => exact (hl.pool k).trans (and_iff_right hk)
  | queue =>
    show k ∈ queueTasks (s.shared.tp.port s.shared.tp.m_hWorkerIoPort).queue ↔ _
    rw [hport]
    exact (hl.queued k).trans (and_iff_right hk)
  | hands t =>
    show (k ∈ acquiredIn t s.hist ∧ k ∉ releasedIn t s.hist) ↔ _
    rw [(htr t).acquired, (htr t).released, mem_acquired_iff]
    exact (hl.hands t k).trans (and_iff_right hk)

/-- What has been handed over and is in no worker's hands any more is finished. -/
theorem Numbered.finished_perm {p₀ : Nat} {s : State} {h : List Ev} (hn : Numbered p₀ s h)
    (hnone : ∀ t, (jobView p₀ h t).packet = none) : (finished h).Perm (handed h) := by
  obtain ⟨loc, hl⟩ := hn.located
  have hmem : ∀ n, n ∈ finished h ↔ n ∈ handed h := by
    intro n
    have hpool := hl.pool n
    rw [List.mem_reverse] at hpool
    rw [hpool, hn.handed_eq, List.mem_reverse, List.mem_range, List.length_reverse,
      List.length_range]
    refine ⟨And.left, fun hlt => ⟨hlt, ?_⟩⟩
    cases hloc : loc n with
    | pool => rfl
    | queue => exact absurd ((hl.queued n).mpr ⟨hlt, hloc⟩) List.not_mem_nil
    | hands t =>
      have hhold := (hl.hands t n).mpr ⟨hlt, hloc⟩
      rw [hnone t] at hhold
      cases hhold
  refine (List.perm_ext_iff_of_nodup ?_ ?_).mpr hmem
  · exact List.nodup_reverse.mp hl.pool_nodup
  · rw [hn.handed_eq]
    exact nodup_range_reverse _

/-- What one thread has submitted is part of what all have. -/
theorem submittedBy_sublist (t : Tid) (h : List Ev) : (submittedBy t h).Sublist (submitted h) := by
  induction h with
  | nil => exact List.Sublist.refl _
  | cons ev h ih =>
    by_cases hev : ∃ u p pkt r, ev = .reply u (.tp (.post p pkt)) r
    · obtain ⟨u, p, pkt, r, rfl⟩ := hev
      simp only [submittedBy, submitted]
      split
      · split
        · exact ih.cons_cons _
        · exact ih.cons _
      · exact ih
    · cases ev with
      | reply u e r =>
        have he : ∀ p pkt, e ≠ .tp (.post p pkt) := by
          rintro p pkt rfl
          exact hev ⟨u, p, pkt, r, rfl⟩
        rw [submittedBy_reply he, submitted_reply he]
        exact ih
      | _ => exact ih

/-- A worker that is idle has no packet in its hands. -/
theorem packet_of_idle {rt : Runtime} {s₀ : State} {s : Sys} (h₀ : JobsReady s₀)
    (h : (machine rt).Reach okJobs s₀ s) (hidle : ∀ i, Idle s (.worker i)) (t : Tid) :
    (jobView s₀.tp.m_hWorkerIoPort s.hist t).packet = none := by
  have H := delivery_kept rt h₀
  obtain ⟨⟨-, hin⟩, -⟩ := H.holds h
  cases hp : (jobView s₀.tp.m_hWorkerIoPort s.hist t).packet with
  | none => rfl
  | some n =>
    -- it is in a round, in which it may only ask for a packet before it has got one
    obtain ⟨i, p, rfl, hrun⟩ := packet_worker h hin hp
    obtain ⟨port, next, rfl⟩ := hidle i _ p hrun
    have hmay : (jobView s₀.tp.m_hWorkerIoPort s.hist (.worker i)).may s₀.tp.m_hWorkerIoPort
        (.tp (.getQueued port)) := H.may h hrun
    rw [hmay.2] at hp
    cases hp

/-- What a thread has submitted is what its calls have returned from, and what the present one has
been called with. -/
theorem returned_of_tracked {rt : Runtime} {s₀ : State} {s : Sys} {p₀ : Nat} {t : Tid}
    (h : (machine rt).Reach okJobs s₀ s) (hin : InCall (jobView p₀ s.hist) s.hist)
    (htr : Tracked p₀ s.hist t) :
    ∃ now, (submittedBy t s.hist).map Prod.snd = now ++ returnedBy t s.hist ∧
      (now = [] ∨ ∃ q p, now = [q] ∧ s.thread t = .running (.executeQueryNoRet (some q)) p) := by
  refine ⟨_, htr.submitted, ?_⟩
  by_cases hl : ∃ q k, jobView p₀ s.hist t = .posted q k
  · obtain ⟨q, k, hl⟩ := hl
    obtain ⟨p, hp⟩ := h.running (hin t (.executeQueryNoRet (some q)) (by rw [hl]; rfl))
    exact Or.inr ⟨q, p, by rw [hl]; rfl, hp⟩
  · refine Or.inl ?_
    cases hv : jobView p₀ s.hist t with
    | posted q k => exact absurd ⟨q, k, hv⟩ hl
    | _ => rfl

/-- **No lost, duplicated or corrupted job**, for any number of workers and tasks, any clients, all
interleavings, and whatever `Query` does. -/
theorem delivered (rt : Runtime) {s₀ : State} (h₀ : JobsReady s₀) {s : Sys}
    (h : (machine rt).Reach okJobs s₀ s) : Delivered s := by
  have H := track_kept rt h₀
  obtain ⟨⟨hI, hin⟩, htr, hn, hL⟩ := (H.holds h).1
  obtain ⟨loc, hl⟩ := hI.located
  have hport := hI.port
  have hat : ∀ k < s.shared.jobs.pool.created, ∀ p, At s k p ↔ loc k = p := fun k hk =>
    at_iff hport htr hl hk
  have hnumbers := hn.numbers
  have hfifo := hn.fifo
  refine ⟨?_, hl.pool_nodup, by rw [hport]; exact hl.queue_nodup, ?_, ⟨?_, ?_, ?_⟩, ?_, hn.read,
    hL.finished, ?_⟩
  · intro k hk
    refine ⟨loc k, (hat k hk _).mpr rfl, fun p hp => ((hat k hk p).mp hp).symm⟩
  · intro t
    exact ⟨submittedBy_sublist t s.hist, returned_of_tracked h hin (htr t)⟩
  · rw [hnumbers]
    exact nodup_range_reverse _
  · rw [hn.handed_eq]
    exact nodup_range_reverse _
  · intro n hm
    rw [hfifo]
    exact List.mem_append_right _ hm
  · intro hempty hidle
    rw [hport] at hempty
    rw [hempty] at hfifo
    exact ⟨hfifo, hn.finished_perm (packet_of_idle h₀ h hidle)⟩
  · intro t a ht
    obtain ⟨n, k, hf⟩ := H.atReturn h ht
    have hv : jobView s₀.tp.m_hWorkerIoPort s.hist t = .freed n k := hf
    exact ⟨n, k, by rw [(htr t).packet, hv]; rfl, by rw [(htr t).acquired, hv]; rfl,
      by rw [(htr t).released, hv]; rfl⟩

/-- A client submits `q`, and then the worker goes through a whole round. -/
def oneJob (q : Bytes) : List (Label Tid Call Outcome) :=
  .call (.client 0) (.executeQueryNoRet (some q)) ::
    List.replicate 5 (.act (.client 0) .success) ++
    .call (.worker 0) .workerProc :: List.replicate 15 (.act (.worker 0) .success)

theorem allowed_oneJob {q : Bytes} (hq : Short q) : Machine.Allowed okJobs (oneJob q) := by
  intro l hl t c hc
  subst hc
  simp only [oneJob, List.cons_append, List.mem_cons, List.mem_append, List.mem_replicate,
    reduceCtorEq, and_false, or_false, false_or, Label.call.injEq] at hl
  rcases hl with ⟨rfl, rfl⟩ | ⟨rfl, rfl⟩
  · exact hq
  · trivial

/-- One call has returned, its query has been submitted, handed over, read and finished, and what is
said of the run. -/
theorem delivered_one : ∃ s, (machine .standard).Reach okJobs (.small 1 1) s ∧
    returnedBy (.client 0) s.hist = [[113]] ∧ submitted s.hist = [(0, [113])] ∧
    reads s.hist = [(0, [113])] ∧ finished s.hist = [0] ∧ Delivered s := by
  let s := ((machine .standard).run (oneJob [113]) (.init (.small 1 1))).get (by decide +kernel)
  have hr : (machine .standard).Reach okJobs (.small 1 1) s :=
    Machine.Reach.init.run (allowed_oneJob ⟨by simp [CString.NulFree], by decide⟩)
      (Option.some_get _).symm
  exact ⟨s, hr, by decide +kernel, by decide +kernel, by decide +kernel, by decide +kernel,
    delivered .standard (jobsReady_started _ _ _ _ _) hr⟩

end XeMySql
