import XeMySql.Properties.Delivered

/-!
# In which order queued queries arrive

The port hands over packets in the order in which they were posted. From there to the server every
worker takes its own time.

* `turns_kept` — which packets have been handed over, and to whom
* `ordered` — in which order the server receives them
* `overtaken` — two workers are enough for another one
-/

namespace XeMySql

open Interact

/-! ## Turns -/

/-- Where a thread is on the way of a packet: submitting a query, or in a round of `WorkerProc`, with
the packet it has got there. -/
inductive Turn where
  | other
  | submitting (q : Option Bytes)
  | round (packet : Option Nat)

namespace Turn

/-- The packet that is being processed. -/
def packet : Turn → Option Nat
  | round n => n
  | _ => none

/-- The call a thread is in. -/
def call : Turn → Option Call
  | submitting q => some (.executeQueryNoRet q)
  | round _ => some .workerProc
  | other => none

/-- What a thread may ask; `p₀` is the port. -/
def may (p₀ : Nat) (l : Turn) : Op → Prop
  | .tp .getPort => True
  | .tp .currentThreadId => True
  | .tp (.post p pkt) =>
    p = p₀ ∧ ∃ q k, l = submitting q ∧ pkt = .job true k ∧ (q.isSome → k.isSome)
  | .tp (.getQueued p) => p = p₀ ∧ l = round none
  | .tp _ => False
  | _ => True

/-- What it may rely on. -/
def can (p₀ : Nat) (_ : Turn) : (e : Op) → e.Reply → Prop
  | .tp .getPort, r => r = p₀
  | .tp (.getQueued _), r => ∃ n k, r = .packet n (.job true k)
  | _, _ => True

/-- Where it is afterwards. -/
def next (l : Turn) (e : Op) (r : e.Reply) : Turn :=
  match Answer.hands ⟨e, r⟩ with
  | some n => round (some n)
  | none => l

/-- The discipline. -/
def discipline (p₀ : Nat) : Discipline Op Op.Reply Turn := ⟨may p₀, can p₀, next⟩

/-- At the beginning of a call. -/
def start (_ : Tid) : Call → Turn
  | .executeQueryNoRet q => submitting q
  | .workerProc => round none
  | _ => other

/-- At its end. -/
def final (c : Call) (_ : Bool) (l : Turn) : Prop := c = .workerProc ∨ l.packet = none

end Turn

/-- The calls between `Start` and `Stop`. -/
def okPort (_ : Tid) : Call → Prop
  | .start _ => False
  | .stop => False
  | _ => True

/-- Requests that have nothing to do with the port. -/
def NoPort : Op → Prop
  | .tp _ => False
  | _ => True

theorem noPort_of_onDatabase (e : Op) (he : OnDatabase e) : NoPort e := by
  cases e <;> trivial

variable {p₀ : Nat}

theorem noPort_turns {α : Type} {p : Code α} (h : p.Only NoPort) (l : Turn) :
    p.Follows (Turn.discipline p₀) l fun _ l' => l' = l := by
  refine h.follows (fun e he => ?_) (fun e he r => ?_)
  · cases e <;> first | exact he.elim | trivial
  · cases e <;> first | exact he.elim | rfl

theorem executeQueryNoRet_turns (q : Option Bytes) :
    (CXEMySql.executeQueryNoRet q).Follows (Turn.discipline p₀) (.submitting q)
      fun _ l => l = .submitting q := by
  cases q with
  | none => exact ⟨trivial, fun p hp => ⟨⟨hp, none, none, rfl, rfl, by simp⟩, fun _ _ => rfl⟩⟩
  | some q =>
    refine ⟨trivial, fun k _ => ⟨trivial, fun _ _ => ⟨trivial, fun p hp => ?_⟩⟩⟩
    exact ⟨⟨hp, some q, some k, rfl, rfl, by simp⟩, fun _ _ => rfl⟩

theorem workerProc_turns :
    (ThreadPool.workerProc CXEMySql.inPool CXEMySqlWorker.processTask).Follows
      (Turn.discipline p₀) (.round none) fun _ _ => True := by
  refine ⟨trivial, fun _ _ => ⟨trivial, fun p hp => ⟨⟨hp, rfl⟩, fun r hr => ?_⟩⟩⟩
  obtain ⟨n, k, rfl⟩ := hr
  exact (noPort_turns (processTask_only (fun _ => trivial) noPort_of_onDatabase k) _).bind fun _ _ _ => trivial

/-- **Every call takes its turn.** -/
theorem code_turns (t : Tid) (c : Call) (hc : okPort t c) :
    c.code.Follows (Turn.discipline p₀) (Turn.start t c) (Turn.final c) := by
  have hno : ∀ {p : Code Bool} {c : Call}, p.Only NoPort →
      p.Follows (Turn.discipline p₀) .other (Turn.final c) := by
    intro p c h
    refine (noPort_turns h _).mono ?_
    rintro _ _ rfl
    exact Or.inr rfl
  have htext : ∀ e, OnText e → NoPort e := fun e he => noPort_of_onDatabase e (OnText.onDatabase e he)
  have hsession : ∀ e, OnSession e → NoPort e := fun e he => htext e (OnSession.onText e he)
  cases c with
  | executeQueryNoRet q =>
    refine (executeQueryNoRet_turns q).bind ?_
    rintro _ _ rfl
    exact Or.inr rfl
  | selectDB db => exact hno (selectDB_only hsession (fun _ _ => trivial) db)
  | query cmd args => exact hno ((query_text cmd args).mono htext)
  | queryData cmd data args => exact hno (queryData_only htext cmd (fun _ _ _ _ => trivial) args)
  | queryBlob cmd d => exact hno ((queryBlob_database cmd d).mono noPort_of_onDatabase)
  | newResult => exact ⟨trivial, fun _ _ => Or.inr rfl⟩
  | deleteResult x =>
    refine ⟨trivial, fun r _ => ?_⟩
    rcases r with _ | r
    · exact ⟨trivial, fun _ _ => Or.inr rfl⟩
    · exact ⟨trivial, fun _ _ => ⟨trivial, fun _ _ => Or.inr rfl⟩⟩
  | connect c p => exact hno ((connect_session c p).mono hsession)
  | close c => exact hno ((close_session c).mono hsession)
  | reconnect c => exact hno ((reconnect_session c).mono hsession)
  | start n => exact hc.elim
  | stop => exact hc.elim
  | workerProc => exact workerProc_turns.mono fun _ _ _ => Or.inl rfl

/-! ## What has been handed over, and to whom -/

/-- Where the threads are after a history. -/
abbrev turnView (p₀ : Nat) (h : List Ev) : Tid → Turn :=
  (Turn.discipline p₀).view .other Turn.start h

/--
The port after a history. `fifo` and `numbers`: packets are numbered as they are posted, and those
with a query are handed over in that order. `all`: a query that has been submitted is still in the
queue or has been handed over. `ended`, `settled` and `hands`: the packets that have been handed over
are those whose `ProcessTask` has returned, and those that a thread is processing.
-/
structure Turns (p₀ : Nat) (s : State) (h : List Ev) : Prop where
  port : s.tp.m_hWorkerIoPort = p₀
  opened : (s.tp.port p₀).opened = true
  jobs : ∀ x ∈ (s.tp.port p₀).queue, ∃ k, x.2 = .job true k
  fifo : ((s.tp.port p₀).sent :: (((s.tp.port p₀).queue.map Prod.fst).reverse ++ handed h)).Pairwise
    (· > ·)
  numbers : ((s.tp.port p₀).sent :: (submitted h).map Prod.fst).Pairwise (· > ·)
  all : ∀ x ∈ submitted h, x.1 ∈ handed h ∨ ∃ k, (x.1, .job true (some k)) ∈ (s.tp.port p₀).queue
  ended : ∀ n ∈ finished h, n ∈ handed h
  settled : ∀ n ∈ handed h, n ∈ finished h ∨ ∃ t, presentPacket t h = some n
  hands : ∀ t n, presentPacket t h = some n → n ∈ handed h ∧ n ∉ finished h
  separate : Separate fun t => presentPacket t h

/-- What a thread knows is what the history says. -/
structure InTurn (p₀ : Nat) (h : List Ev) (t : Tid) : Prop where
  packet : presentPacket t h = (turnView p₀ h t).packet
  call : ∀ c, (turnView p₀ h t).call = some c → presentCall t h = some c

section

variable {s s' : State} {h : List Ev} {t u : Tid} {e : Op} {r : e.Reply} {ev : Ev} {n : Nat}

/-- Packets are handed over by the port. -/
theorem getQueued_of_hands (hh : Answer.hands ⟨e, r⟩ = some n) : ∃ p, e = .tp (.getQueued p) := by
  cases e with
  | tp e =>
    cases e with
    | getQueued p => exact ⟨p, rfl⟩
    | _ => cases hh
  | _ => cases hh

theorem Turn.next_packet (l : Turn) : (l.next e r).packet = (Answer.hands ⟨e, r⟩).or l.packet := by
  unfold next
  cases Answer.hands ⟨e, r⟩ <;> rfl

theorem Turn.next_call {l : Turn} (hm : l.may p₀ e) : (l.next e r).call = l.call := by
  unfold next
  cases hh : Answer.hands ⟨e, r⟩ with
  | none => rfl
  | some n =>
    obtain ⟨p, rfl⟩ := getQueued_of_hands hh
    obtain ⟨-, rfl⟩ := hm
    rfl

theorem presentPacket_skip (hh : Answer.hands ⟨e, r⟩ = none) :
    presentPacket u (.reply t e r :: h) = presentPacket u h := by
  by_cases hu : u = t
  · rw [hu, presentPacket_reply, hh, Option.none_or]
  · unfold presentPacket
    rw [callTrace_reply, if_neg (Ne.symm hu)]

theorem presentPacket_hands (hh : Answer.hands ⟨e, r⟩ = some n) :
    (fun u => presentPacket u (.reply t e r :: h))
      = Function.update (fun u => presentPacket u h) t (some n) := by
  funext u
  by_cases hu : u = t
  · rw [hu, Function.update_self, presentPacket_reply, hh, Option.some_or]
  · rw [Function.update_of_ne hu]
    unfold presentPacket
    rw [callTrace_reply, if_neg (Ne.symm hu)]

theorem presentPacket_boundary (ht : callTrace t (ev :: h) = [])
    (hother : ∀ u, u ≠ t → callTrace u (ev :: h) = callTrace u h) :
    (fun u => presentPacket u (ev :: h)) = Function.update (fun u => presentPacket u h) t none := by
  funext u
  unfold presentPacket
  by_cases hu : u = t
  · rw [hu, Function.update_self, ht]
    rfl
  · rw [Function.update_of_ne hu, hother u hu]

theorem InTurn.reply (hb : ∀ u, InTurn p₀ h u) (hm : (turnView p₀ h t).may p₀ e) :
    ∀ u, InTurn p₀ (.reply t e r :: h) u := by
  intro u
  have hbu := hb u
  by_cases hu : u = t
  · subst hu
    have hv : turnView p₀ (.reply u e r :: h) u = (turnView p₀ h u).next e r := by
      rw [turnView, Discipline.view_reply, Function.update_self]
      rfl
    refine ⟨?_, fun c hc => ?_⟩
    · rw [hv, Turn.next_packet, ← hbu.packet]
      exact presentPacket_reply
    · rw [hv, Turn.next_call hm] at hc
      exact hbu.call c hc
  · have hv : turnView p₀ (.reply t e r :: h) u = turnView p₀ h u := by
      rw [turnView, Discipline.view_reply, Function.update_of_ne hu]
    refine ⟨?_, fun c hc => ?_⟩
    · rw [hv, ← hbu.packet, presentPacket, callTrace_reply, if_neg (Ne.symm hu)]
      rfl
    · rw [hv] at hc
      exact hbu.call c hc

/-- A call begins or ends. -/
theorem InTurn.restart (hb : ∀ u, InTurn p₀ h u) {l : Turn} (ht : callTrace t (ev :: h) = [])
    (hother : ∀ u, u ≠ t → callTrace u (ev :: h) = callTrace u h ∧
      presentCall u (ev :: h) = presentCall u h)
    (hv : turnView p₀ (ev :: h) = Function.update (turnView p₀ h) t l) (hl : l.packet = none)
    (hcall : ∀ c, l.call = some c → presentCall t (ev :: h) = some c) :
    ∀ u, InTurn p₀ (ev :: h) u := by
  intro u
  by_cases hu : u = t
  · subst hu
    refine ⟨?_, fun c hc => ?_⟩
    · rw [hv, Function.update_self, hl, presentPacket, ht]
      rfl
    · rw [hv, Function.update_self] at hc
      exact hcall c hc
  · obtain ⟨h1, h2⟩ := hother u hu
    refine ⟨?_, fun c hc => ?_⟩
    · rw [hv, Function.update_of_ne hu, ← (hb u).packet, presentPacket, h1]
      rfl
    · rw [hv, Function.update_of_ne hu] at hc
      rw [h2]
      exact (hb u).call c hc

/-- An event that neither posts a packet nor hands one over, nor ends a round. -/
theorem Turns.skip (hT : Turns p₀ s h) (hport : s'.tp.m_hWorkerIoPort = s.tp.m_hWorkerIoPort)
    (hp : s'.tp.port p₀ = s.tp.port p₀) (h1 : submitted (ev :: h) = submitted h)
    (h2 : handed (ev :: h) = handed h) (h3 : finished (ev :: h) = finished h)
    (h4 : ∀ u, presentPacket u (ev :: h) = presentPacket u h) : Turns p₀ s' (ev :: h) := by
  refine ⟨hport.trans hT.port, ?_, ?_, ?_, ?_, ?_, ?_, ?_, ?_, ?_⟩
  · rw [hp]
    exact hT.opened
  · rw [hp]
    exact hT.jobs
  · rw [hp, h2]
    exact hT.fifo
  · rw [hp, h1]
    exact hT.numbers
  · rw [hp, h1, h2]
    exact hT.all
  · rw [h2, h3]
    exact hT.ended
  · simp only [h2, h3, h4]
    exact hT.settled
  · simp only [h2, h3, h4]
    exact hT.hands
  · simp only [h4]
    exact hT.separate

/-- A call begins or ends in which there is no packet. -/
theorem Turns.boundary (hT : Turns p₀ s h) (hnone : presentPacket t h = none)
    (ht : callTrace t (ev :: h) = []) (hother : ∀ u, u ≠ t → callTrace u (ev :: h) = callTrace u h)
    (h1 : submitted (ev :: h) = submitted h) (h2 : handed (ev :: h) = handed h)
    (h3 : finished (ev :: h) = finished h) : Turns p₀ s (ev :: h) := by
  refine hT.skip rfl rfl h1 h2 h3 fun u => ?_
  refine (congrFun (presentPacket_boundary ht hother) u).trans ?_
  rw [← hnone, Function.update_eq_self]

/-- One more number. -/
theorem pairwise_succ {l : List Nat} (hl : (n :: l).Pairwise (· > ·)) :
    ((n + 1) :: n :: l).Pairwise (· > ·) := by
  refine List.pairwise_cons.mpr ⟨fun m hm => ?_, hl⟩
  rcases List.mem_cons.mp hm with rfl | hm
  · exact Nat.lt_succ_self m
  · exact Nat.lt_succ_of_lt ((List.pairwise_cons.mp hl).1 m hm)

/-- `ProcessJob` posts a packet. -/
theorem Turns.post (hT : Turns p₀ s h) {q : Option Bytes} {k : Option Nat}
    (hcall : presentCall t h = some (.executeQueryNoRet q)) (hk : q.isSome → k.isSome) :
    Turns p₀ { s with tp := s.tp.withPort p₀ ((s.tp.port p₀).push (.job true k)) }
      (.reply t (.tp (.post p₀ (.job true k))) (some (s.tp.port p₀).sent) :: h) := by
  have hhands : Answer.hands ⟨.tp (.post p₀ (.job true k)), some (s.tp.port p₀).sent⟩ = none := rfl
  refine ⟨hT.port, ?_, ?_, ?_, ?_, ?_, hT.ended, ?_, ?_, ?_⟩
  · rw [ThreadPool.port_withPort]
    exact hT.opened
  · rw [ThreadPool.port_withPort]
    intro x hx
    rcases List.mem_append.mp hx with hx | hx
    · exact hT.jobs x hx
    · rw [List.mem_singleton.mp hx]
      exact ⟨k, rfl⟩
  · rw [ThreadPool.port_withPort]
    show (((s.tp.port p₀).sent + 1) :: ((((s.tp.port p₀).queue ++ [_]).map Prod.fst).reverse ++ _)).Pairwise _
    rw [List.map_append, List.reverse_append]
    exact pairwise_succ hT.fifo
  · rw [ThreadPool.port_withPort]
    cases q with
    | none =>
      rw [submitted_post_none hcall]
      exact (List.pairwise_cons.mp (pairwise_succ hT.numbers)).elim fun h1 h2 =>
        List.pairwise_cons.mpr ⟨fun m hm => h1 m (List.mem_cons_of_mem _ hm),
          (List.pairwise_cons.mp h2).2⟩
    | some q =>
      rw [submitted_post hcall]
      exact pairwise_succ hT.numbers
  · rw [ThreadPool.port_withPort]
    intro x hx
    have hold : x ∈ submitted h → x.1 ∈ handed h ∨
        ∃ k', (x.1, .job true (some k')) ∈ (s.tp.port p₀).queue ++ [((s.tp.port p₀).sent, .job true k)] := by
      intro hx
      rcases hT.all x hx with hx | ⟨k', hx⟩
      · exact Or.inl hx
      · exact Or.inr ⟨k', List.mem_append_left _ hx⟩
    cases q with
    | none =>
      rw [submitted_post_none hcall] at hx
      exact hold hx
    | some q =>
      rw [submitted_post hcall] at hx
      rcases List.mem_cons.mp hx with rfl | hx
      · obtain ⟨k', hk'⟩ := Option.isSome_iff_exists.mp (hk rfl)
        refine Or.inr ⟨k', ?_⟩
        rw [hk']
        exact List.mem_append_right _ (List.mem_singleton_self _)
      · exact hold hx
  · simp only [presentPacket_skip hhands]
    exact hT.settled
  · simp only [presentPacket_skip hhands]
    exact hT.hands
  · simp only [presentPacket_skip hhands]
    exact hT.separate

/-- A worker gets a packet without a task. -/
theorem Turns.getNothing (hT : Turns p₀ s h) {rest : List (Nat × Packet Nat)}
    (hq : (s.tp.port p₀).queue = (n, .job true none) :: rest) :
    Turns p₀ { s with tp := s.tp.withPort p₀ (s.tp.port p₀).pop }
      (.reply t (.tp (.getQueued p₀)) (.packet n (.job true none)) :: h) := by
  have hport : (s.tp.withPort p₀ (s.tp.port p₀).pop).port p₀
      = { s.tp.port p₀ with queue := rest } := by
    rw [ThreadPool.port_withPort, Port.pop_eq hq]
  have hhands : Answer.hands ⟨.tp (.getQueued p₀), .packet n (.job true none)⟩ = none := rfl
  have hjobs := hT.jobs
  have hfifo := hT.fifo
  have hall := hT.all
  rw [hq] at hjobs hfifo hall
  refine ⟨hT.port, ?_, ?_, ?_, ?_, ?_, hT.ended, ?_, ?_, ?_⟩
  · rw [hport]
    exact hT.opened
  · rw [hport]
    exact fun x hx => hjobs x (List.mem_cons_of_mem _ hx)
  · rw [hport]
    refine hfifo.sublist (List.Sublist.cons_cons _ ?_)
    rw [List.map_cons, List.reverse_cons]
    exact (List.sublist_append_left ..).append (List.Sublist.refl _)
  · rw [hport]
    exact hT.numbers
  · rw [hport]
    intro x hx
    rcases hall x hx with hx | ⟨k, hx⟩
    · exact Or.inl hx
    · rcases List.mem_cons.mp hx with hx | hx
      · cases hx
      · exact Or.inr ⟨k, hx⟩
  · simp only [presentPacket_skip hhands]
    exact hT.settled
  · simp only [presentPacket_skip hhands]
    exact hT.hands
  · simp only [presentPacket_skip hhands]
    exact hT.separate

/-- A packet is handed over. -/
theorem Turns.getQueued (hT : Turns p₀ s h) {k : Nat} {rest : List (Nat × Packet Nat)}
    (ht : presentPacket t h = none) (hq : (s.tp.port p₀).queue = (n, .job true (some k)) :: rest) :
    Turns p₀ { s with tp := s.tp.withPort p₀ (s.tp.port p₀).pop }
      (.reply t (.tp (.getQueued p₀)) (.packet n (.job true (some k))) :: h) := by
  have hport : (s.tp.withPort p₀ (s.tp.port p₀).pop).port p₀
      = { s.tp.port p₀ with queue := rest } := by
    rw [ThreadPool.port_withPort, Port.pop_eq hq]
  have hpresent : (fun u => presentPacket u
      (.reply t (.tp (.getQueued p₀)) (.packet n (.job true (some k))) :: h))
      = Function.update (fun u => presentPacket u h) t (some n) := presentPacket_hands rfl
  have hother : ∀ u, u ≠ t → presentPacket u
      (.reply t (.tp (.getQueued p₀)) (.packet n (.job true (some k))) :: h) = presentPacket u h :=
    fun u hu => (congrFun hpresent u).trans (Function.update_of_ne hu ..)
  have hself : presentPacket t
      (.reply t (.tp (.getQueued p₀)) (.packet n (.job true (some k))) :: h) = some n :=
    (congrFun hpresent t).trans (Function.update_self ..)
  have hjobs := hT.jobs
  have hfifo := hT.fifo
  have hall := hT.all
  rw [hq] at hjobs hfifo hall
  rw [List.map_cons, List.reverse_cons, List.append_assoc] at hfifo
  have hnew : n ∉ handed h := by
    intro hn
    have h1 := (List.pairwise_append.mp (List.pairwise_cons.mp hfifo).2).2.1
    exact Nat.lt_irrefl n ((List.pairwise_cons.mp h1).1 n hn)
  refine ⟨hT.port, ?_, ?_, ?_, ?_, ?_, ?_, ?_, ?_, ?_⟩
  · rw [hport]
    exact hT.opened
  · rw [hport]
    exact fun x hx => hjobs x (List.mem_cons_of_mem _ hx)
  · rw [hport]
    exact hfifo
  · rw [hport]
    exact hT.numbers
  · rw [hport]
    intro x hx
    rcases hall x hx with hx | ⟨k', hx⟩
    · exact Or.inl (List.mem_cons_of_mem _ hx)
    · rcases List.mem_cons.mp hx with hx | hx
      · cases hx
        exact Or.inl (List.mem_cons_self ..)
      · exact Or.inr ⟨k', hx⟩
  · exact fun m hm => List.mem_cons_of_mem _ (hT.ended m hm)
  · intro m hm
    rcases List.mem_cons.mp hm with rfl | hm
    · exact Or.inr ⟨t, hself⟩
    · refine (hT.settled m hm).imp id ?_
      rintro ⟨u, hu⟩
      refine ⟨u, (hother u ?_).trans hu⟩
      rintro rfl
      rw [ht] at hu
      cases hu
  · intro u m hm
    by_cases hu : u = t
    · rw [hu, hself] at hm
      cases hm
      exact ⟨List.mem_cons_self .., fun hn => hnew (hT.ended n hn)⟩
    · rw [hother u hu] at hm
      obtain ⟨h1, h2⟩ := hT.hands u m hm
      exact ⟨List.mem_cons_of_mem _ h1, h2⟩
  · rw [hpresent]
    refine hT.separate.put t fun m hm j _ hj => ?_
    cases hm
    exact hnew (hT.hands j n hj).1

/-- An answer that has nothing to do with packets. -/
theorem Turns.quiet (hT : Turns p₀ s h) (h1 : ∀ p pkt, e ≠ .tp (.post p pkt))
    (h2 : ∀ p, e ≠ .tp (.getQueued p)) (hport : s'.tp.m_hWorkerIoPort = s.tp.m_hWorkerIoPort)
    (hp : s'.tp.port p₀ = s.tp.port p₀) : Turns p₀ s' (.reply t e r :: h) := by
  have hhands : Answer.hands ⟨e, r⟩ = none := by
    cases hh : Answer.hands ⟨e, r⟩ with
    | none => rfl
    | some n =>
      obtain ⟨p, he⟩ := getQueued_of_hands hh
      exact absurd he (h2 p)
  refine hT.skip hport hp (submitted_reply h1) ?_ rfl fun u => presentPacket_skip hhands
  rw [handed, hhands]
  rfl

/-- **Step lemma.** Every answer keeps the packets in their turns. -/
theorem Turns.reply {rt : Runtime} {o : Outcome} (hT : Turns p₀ s h) (hin : InTurn p₀ h t)
    (hm : (turnView p₀ h t).may p₀ e) (he : exec rt t e o s = some (s', some r)) :
    (turnView p₀ h t).can p₀ e r ∧ Turns p₀ s' (.reply t e r :: h) := by
  cases e with
  | con e =>
    obtain ⟨x, hx, rfl⟩ := exec_con he
    exact ⟨trivial, hT.quiet (by simp) (by simp) rfl rfl⟩
  | lib e =>
    obtain ⟨rfl, -⟩ := exec_lib he
    exact ⟨trivial, hT.quiet (by simp) (by simp) rfl rfl⟩
  | res e =>
    obtain ⟨x, hx, rfl⟩ := exec_res he
    exact ⟨trivial, hT.quiet (by simp) (by simp) rfl rfl⟩
  | rt e =>
    obtain ⟨x, hx, rfl⟩ := exec_rt he
    exact ⟨trivial, hT.quiet (by simp) (by simp) rfl rfl⟩
  | task e =>
    obtain ⟨x, hx, rfl⟩ := exec_task he
    exact ⟨trivial, hT.quiet (by simp) (by simp) rfl rfl⟩
  | tp e =>
    obtain ⟨x, hx, rfl⟩ := exec_tp he
    cases e with
    | getPort =>
      cases hx
      exact ⟨hT.port, hT.quiet (by simp) (by simp) rfl rfl⟩
    | currentThreadId =>
      refine ⟨trivial, ?_⟩
      cases t <;> cases hx <;> exact hT.quiet (by simp) (by simp) rfl rfl
    | post p pkt =>
      obtain ⟨rfl, q, k, hl, rfl, hk⟩ := hm
      simp only [ThreadPool.exec, hT.opened, if_true, Option.some.injEq, Prod.mk.injEq] at hx
      obtain ⟨rfl, hr⟩ := hx
      subst hr
      exact ⟨trivial, hT.post (hin.call _ (by rw [hl]; rfl)) hk⟩
    | getQueued p =>
      obtain ⟨rfl, hl⟩ := hm
      have ht : presentPacket t h = none := by
        rw [hin.packet, hl]
        rfl
      simp only [ThreadPool.exec, hT.opened, if_true] at hx
      split at hx
      · cases hx
      · next n pkt rest hq =>
        cases hx
        obtain ⟨k, rfl⟩ : ∃ k, pkt = .job true k :=
          hT.jobs (n, pkt) (by rw [hq]; exact List.mem_cons_self ..)
        refine ⟨⟨n, k, rfl⟩, ?_⟩
        cases k with
        | none => exact hT.getNothing hq
        | some k => exact hT.getQueued ht hq
    | _ => exact hm.elim

/-- A round of a worker ends. -/
theorem Turns.finish {a : Bool} (hT : Turns p₀ s h) : Turns p₀ s (.done t .workerProc a :: h) := by
  have hpresent : (fun u => presentPacket u (.done t .workerProc a :: h))
      = Function.update (fun u => presentPacket u h) t none :=
    presentPacket_boundary (by simp) fun u hu => by simp [Ne.symm hu]
  have hother : ∀ u m, presentPacket u (.done t .workerProc a :: h) = some m ↔
      u ≠ t ∧ presentPacket u h = some m := by
    intro u m
    have hu := congrFun hpresent u
    by_cases hut : u = t
    · rw [hut, Function.update_self] at hu
      simp [hut, hu]
    · rw [Function.update_of_ne hut] at hu
      simp [hut, hu]
  refine ⟨hT.port, hT.opened, hT.jobs, hT.fifo, hT.numbers, hT.all, ?_, ?_, ?_, ?_⟩
  · intro n hn
    rcases List.mem_append.mp hn with hn | hn
    · exact (hT.hands t n (Option.mem_toList.mp hn)).1
    · exact hT.ended n hn
  · intro n hn
    rcases hT.settled n hn with hf | ⟨u, hu⟩
    · exact Or.inl (List.mem_append_right _ hf)
    · by_cases hut : u = t
      · subst hut
        exact Or.inl (List.mem_append_left _ (Option.mem_toList.mpr hu))
      · exact Or.inr ⟨u, (hother u n).mpr ⟨hut, hu⟩⟩
  · intro u n hn
    obtain ⟨hut, hu⟩ := (hother u n).mp hn
    obtain ⟨h1, h2⟩ := hT.hands u n hu
    refine ⟨h1, fun hf => ?_⟩
    rcases List.mem_append.mp hf with hf | hf
    · exact hut (hT.separate u t n hu (Option.mem_toList.mp hf))
    · exact h2 hf
  · rw [hpresent]
    exact hT.separate.clear t

end

/-! ## Runs -/

/-- **Between `Start` and `Stop` packets keep their turns**, whatever else is called. -/
theorem turns_kept (rt : Runtime) {s₀ : State} (h₀ : JobsReady s₀) :
    (machine rt).Kept okPort s₀ (Turn.discipline s₀.tp.m_hWorkerIoPort) .other Turn.start Turn.final
      fun s h => Turns s₀.tp.m_hWorkerIoPort s h ∧ ∀ t, InTurn s₀.tp.m_hWorkerIoPort h t where
  code := code_turns
  init := by
    refine ⟨⟨rfl, ?_, ?_, ?_, ?_, ?_, ?_, ?_, ?_, ?_⟩, fun t => ⟨rfl, by rintro c ⟨⟩⟩⟩
    · rw [h₀.port]
    · rw [h₀.port]
      simp
    · rw [h₀.port]
      simp [handed]
    · simp [submitted]
    · simp [submitted]
    · simp [finished]
    · simp [handed]
    · rintro t n ⟨⟩
    · rintro t u n ⟨⟩
  call s h t c hI _ _ hv := by
    obtain ⟨hT, hin⟩ := hI
    have hnone : presentPacket t h = none := by
      rw [(hin t).packet, show turnView s₀.tp.m_hWorkerIoPort h t = .other from hv]
      rfl
    refine ⟨hT.boundary hnone (by simp) (fun u hu => by simp [Ne.symm hu]) rfl rfl rfl, ?_⟩
    refine InTurn.restart hin (by simp) (fun u hu => ?_) Discipline.view_call ?_ ?_
    · simp [presentCall, Ne.symm hu]
    · cases c <;> rfl
    · intro d hd
      cases c <;> cases hd <;> simp [presentCall]
  wait s h t e o s' hI _ he := by
    obtain ⟨i, rfl⟩ := exec_wait he
    exact ⟨⟨hI.1.port, hI.1.opened, hI.1.jobs, hI.1.fifo, hI.1.numbers, hI.1.all, hI.1.ended,
      hI.1.settled, hI.1.hands, hI.1.separate⟩, hI.2⟩
  reply s h t e o s' r hI hm he := by
    obtain ⟨hcan, hT⟩ := hI.1.reply (hI.2 t) hm he
    exact ⟨hcan, hT, InTurn.reply hI.2 hm⟩
  done s h t c a hI hf := by
    obtain ⟨hT, hin⟩ := hI
    refine ⟨?_, InTurn.restart hin (by simp) (fun u hu => ?_) Discipline.view_done rfl (by rintro d ⟨⟩)⟩
    · by_cases hc : c = .workerProc
      · rw [hc]
        exact hT.finish
      · have hnone : presentPacket t h = none := by
          rw [(hin t).packet]
          exact hf.resolve_left hc
        refine hT.boundary hnone (by simp) (fun u hu => by simp [Ne.symm hu]) rfl rfl ?_
        cases c with
        | workerProc => exact absurd rfl hc
        | _ => rfl
    · simp [presentCall, Ne.symm hu]

/-! ## What the server receives -/

/-- The packets whose statements have been sent to the server, the latest first. -/
def received : List Ev → List Nat
  | [] => []
  | .reply t (.lib e) _ :: h =>
    if e.sends then (presentPacket t h).toList ++ received h else received h
  | _ :: h => received h

/-- A thread has submitted `x₁`, and after that `ExecuteQueryNoRet` had returned, it has submitted
`x₂` by a new one. -/
def InSequence (h : List Ev) (x₁ x₂ : Nat × Bytes) : Prop :=
  ∃ t a mid earlier, .call t (.executeQueryNoRet (some x₂.2)) :: mid <:+ h ∧
    .done t (.executeQueryNoRet (some x₁.2)) a :: earlier <:+ mid ∧ x₁ ∈ submittedBy t earlier ∧
    x₂ ∈ submittedBy t h ∧ x₂ ∉ submittedBy t mid

/-- The server receives queries that have been submitted in sequence in this order. -/
def InOrder (h : List Ev) : Prop :=
  ∀ x₁ x₂, InSequence h x₁ x₂ → x₂.1 ∈ received h → [x₂.1, x₁.1].Sublist (received h)

/-- When the server received packet `n₂`, another thread was processing packet `n₁`. -/
def Overtaken (h : List Ev) (n₁ n₂ : Nat) : Prop :=
  ∃ t u e r earlier, .reply t (.lib e) r :: earlier <:+ h ∧ e.sends = true ∧
    presentPacket t earlier = some n₂ ∧ u ≠ t ∧ presentPacket u earlier = some n₁

section

variable {h h' : List Ev} {t : Tid} {n n₁ n₂ : Nat} {x₁ x₂ : Nat × Bytes}

theorem submittedBy_suffix (hs : h' <:+ h) : submittedBy t h' <:+ submittedBy t h := by
  refine suffix_of_suffix (fun ev l => ?_) hs
  cases ev with
  | reply u e r =>
    cases e with
    | tp e =>
      cases e with
      | post p pkt =>
        simp only [submittedBy]
        split
        · split
          · exact List.suffix_cons _ _
          · exact List.suffix_refl _
        · exact List.suffix_refl _
      | _ => exact List.suffix_refl _
    | _ => exact List.suffix_refl _
  | _ => exact List.suffix_refl _

theorem finished_suffix (hs : h' <:+ h) : finished h' <:+ finished h := by
  refine suffix_of_suffix (fun ev l => ?_) hs
  cases ev with
  | done t c a =>
    cases c with
    | workerProc => exact List.suffix_append _ _
    | _ => exact List.suffix_refl _
  | _ => exact List.suffix_refl _

theorem handed_suffix (hs : h' <:+ h) : handed h' <:+ handed h := by
  refine suffix_of_suffix (fun ev l => ?_) hs
  cases ev with
  | reply t e r => exact List.suffix_append _ _
  | _ => exact List.suffix_refl _

/-- A packet has been received when a thread that processes it has sent a statement. -/
theorem sublist_received {l : List Nat} (hl : (n :: l).Sublist (received h)) :
    ∃ t e r earlier, .reply t (.lib e) r :: earlier <:+ h ∧ e.sends = true ∧
      presentPacket t earlier = some n ∧ l.Sublist (received earlier) := by
  fun_induction received h with
  | case1 => cases hl
  | case2 t e r h hs ih =>
    cases hp : presentPacket t h with
    | none =>
      rw [hp] at hl
      obtain ⟨u, e', r', earlier, h1, h2⟩ := ih hl
      exact ⟨u, e', r', earlier, h1.trans (List.suffix_cons _ _), h2⟩
    | some m =>
      rw [hp] at hl
      rcases List.sublist_cons_iff.mp hl with hl | ⟨l', hl', hsub⟩
      · obtain ⟨u, e', r', earlier, h1, h2⟩ := ih hl
        exact ⟨u, e', r', earlier, h1.trans (List.suffix_cons _ _), h2⟩
      · cases hl'
        exact ⟨t, e, r, h, List.suffix_refl _, hs, hp, hsub⟩
  | case3 t e r h hs ih =>
    obtain ⟨u, e', r', earlier, h1, h2⟩ := ih hl
    exact ⟨u, e', r', earlier, h1.trans (List.suffix_cons _ _), h2⟩
  | case4 ev h hne ih =>
    obtain ⟨u, e', r', earlier, h1, h2⟩ := ih hl
    exact ⟨u, e', r', earlier, h1.trans (List.suffix_cons _ _), h2⟩

/-- Packets are numbered in the order of submission. -/
theorem Turns.lt_of_inSequence {p₀ : Nat} {s : State} (hT : Turns p₀ s h)
    (hx : InSequence h x₁ x₂) : x₁.1 < x₂.1 ∧ x₁ ∈ submitted h := by
  obtain ⟨t, a, mid, earlier, hcall, hdone, h1, h2, hmid⟩ := hx
  have hsuf : mid <:+ h := (List.suffix_cons _ _).trans hcall
  have hearlier : earlier <:+ mid := (List.suffix_cons _ _).trans hdone
  have h1 : x₁ ∈ submittedBy t mid := (submittedBy_suffix hearlier).subset h1
  obtain ⟨new, hnew⟩ := submittedBy_suffix (t := t) hsuf
  have h2 : x₂ ∈ new := by
    rw [← hnew] at h2
    exact (List.mem_append.mp h2).resolve_right hmid
  have hsub := submittedBy_sublist t h
  rw [← hnew] at hsub
  have hnumbers := (List.pairwise_cons.mp hT.numbers).2.sublist (hsub.map Prod.fst)
  rw [List.map_append] at hnumbers
  refine ⟨?_, hsub.subset (List.mem_append_right _ h1)⟩
  exact (List.pairwise_append.mp hnumbers).2.2 x₂.1 (List.mem_map_of_mem h2) x₁.1
    (List.mem_map_of_mem h1)

/-- When a query has been handed over, so have those submitted before. -/
theorem Turns.handed_of_lt {p₀ : Nat} {s : State} (hT : Turns p₀ s h) {x : Nat × Bytes}
    (hx : x ∈ submitted h) (hlt : x.1 < n) (hn : n ∈ handed h) : x.1 ∈ handed h := by
  refine (hT.all x hx).resolve_right ?_
  rintro ⟨k, hq⟩
  -- the queue holds only later packets than those handed over
  have hfifo := (List.pairwise_append.mp (List.pairwise_cons.mp hT.fifo).2).2.2
  have hlt' := hfifo x.1 (List.mem_reverse.mpr (List.mem_map_of_mem hq)) n hn
  omega

/-- And when it was handed over, they had been. -/
theorem Turns.handed_earlier {p₀ m : Nat} {s : State} (hT : Turns p₀ s h) (hs : h' <:+ h)
    (hm : m ∈ handed h) (hlt : m < n) (hn : n ∈ handed h') : m ∈ handed h' := by
  obtain ⟨new, hnew⟩ := handed_suffix hs
  have hfifo := (List.pairwise_append.mp (List.pairwise_cons.mp hT.fifo).2).2.1
  rw [← hnew] at hm hfifo
  refine (List.mem_append.mp hm).resolve_left fun hm => ?_
  have hgt := (List.pairwise_append.mp hfifo).2.2 m hm n hn
  omega

end

section

variable {rt : Runtime} {s₀ : State} {s : Sys} {t u : Tid} {n m : Nat} {x₁ x₂ : Nat × Bytes}

/-- The port at any time of a run. -/
theorem turns_of_suffix (h₀ : JobsReady s₀) (h : (machine rt).Reach okPort s₀ s)
    {earlier : List Ev} (hs : earlier <:+ s.hist) :
    ∃ s', (machine rt).Reach okPort s₀ s' ∧ s'.hist = earlier ∧
      Turns s₀.tp.m_hWorkerIoPort s'.shared earlier := by
  obtain ⟨s', hr, rfl⟩ := h.of_hist hs
  exact ⟨s', hr, rfl, ((turns_kept rt h₀).holds hr).1.1⟩

/-- **How a packet is received too late**: while another thread was processing it, the server
received a later one. -/
theorem overtaken_of_sublist (h₀ : JobsReady s₀) (h : (machine rt).Reach okPort s₀ s) (hlt : m < n)
    (hr : [m, n].Sublist (received s.hist)) : Overtaken s.hist m n := by
  obtain ⟨t₁, e₁, r₁, h₁, hs₁, -, hp₁, hr⟩ := sublist_received hr
  obtain ⟨t₂, e₂, r₂, h₂, hs₂, hsends, hp₂, -⟩ := sublist_received hr
  have hs₁ : h₁ <:+ s.hist := (List.suffix_cons _ _).trans hs₁
  have hs : h₂ <:+ h₁ := (List.suffix_cons _ _).trans hs₂
  obtain ⟨s₁, hreach, rfl, hT₁⟩ := turns_of_suffix h₀ h hs₁
  obtain ⟨s₂, -, rfl, hT₂⟩ := turns_of_suffix h₀ hreach hs
  obtain ⟨hm, hopen⟩ := hT₁.hands t₁ m hp₁
  have hm := hT₁.handed_earlier hs hm hlt (hT₂.hands t₂ n hp₂).1
  rcases hT₂.settled m hm with hf | ⟨u, hu⟩
  · exact absurd ((finished_suffix hs).subset hf) hopen
  · refine ⟨t₂, u, e₂, r₂, s₂.hist, hs₂.trans hs₁, hsends, hp₂, ?_, hu⟩
    rintro rfl
    rw [hp₂] at hu
    cases hu
    exact Nat.lt_irrefl _ hlt

/-- No thread is created between `Start` and `Stop`. -/
theorem exec_threads {p₀ : Nat} {l : Turn} {e : Op} {o : Outcome} {x x' : State}
    {r : Option e.Reply} (hm : l.may p₀ e) (he : exec rt t e o x = some (x', r)) :
    x'.tp.threads = x.tp.threads := by
  cases e with
  | tp e =>
    obtain ⟨y, hy, rfl⟩ := exec_tp he
    cases e with
    | getPort =>
      cases hy
      rfl
    | currentThreadId => cases t <;> cases hy <;> rfl
    | post p pkt =>
      simp only [ThreadPool.exec] at hy
      split at hy <;> cases hy <;> rfl
    | getQueued p =>
      simp only [ThreadPool.exec] at hy
      split at hy
      · split at hy <;> cases hy <;> rfl
      · cases hy
        rfl
    | _ => exact hm.elim
  | task e =>
    obtain ⟨y, -, rfl⟩ := exec_task he
    rfl
  | con e =>
    obtain ⟨y, -, rfl⟩ := exec_con he
    rfl
  | lib e =>
    obtain ⟨rfl, -⟩ := exec_lib he
    rfl
  | res e =>
    obtain ⟨y, -, rfl⟩ := exec_res he
    rfl
  | rt e =>
    obtain ⟨y, -, rfl⟩ := exec_rt he
    rfl

/-- The workers of a run are those that `Start` has created. -/
theorem worker_lt (h₀ : JobsReady s₀) (h : (machine rt).Reach okPort s₀ s) :
    s.shared.tp.threads = s₀.tp.threads ∧
      ∀ i c p, s.thread (.worker i) = .running c p → i < s₀.tp.threads := by
  have H := turns_kept rt h₀
  induction h with
  | init => exact ⟨rfl, fun _ _ _ hi => nomatch hi⟩
  | @step s s' l h hl hs ih =>
    obtain ⟨hthreads, hlt⟩ := ih
    have hsteps := Machine.step_cases hs
    constructor
    · cases hsteps with
      | call _ _ => exact hthreads
      | wait hu he => exact (exec_threads (H.may h hu) he).trans hthreads
      | reply hu he => exact (exec_threads (H.may h hu) he).trans hthreads
      | done _ => exact hthreads
    · intro i c p hi
      rcases hsteps.running hi with ⟨-, hc⟩ | ⟨q, hq⟩
      · have hc : (c == .workerProc && decide (i < s.shared.tp.threads)) = true := hc
        simp only [Bool.and_eq_true, decide_eq_true_eq] at hc
        omega
      · exact hlt i c q hq

/-- Packets are processed by workers. -/
theorem worker_of_packet (h₀ : JobsReady s₀) (h : (machine rt).Reach okPort s₀ s)
    (hp : presentPacket t s.hist = some n) : ∃ i, t = .worker i ∧ i < s₀.tp.threads := by
  have hin := ((turns_kept rt h₀).holds h).1.2 t
  have hcall : (turnView s₀.tp.m_hWorkerIoPort s.hist t).call = some .workerProc := by
    rw [hin.packet] at hp
    cases hv : turnView s₀.tp.m_hWorkerIoPort s.hist t with
    | round k => rfl
    | _ =>
      rw [hv] at hp
      cases hp
  obtain ⟨p, hrun⟩ := h.running (hin.call _ hcall)
  obtain ⟨-, sh, hen⟩ := h.began hrun
  cases t with
  | client i => cases hen
  | worker i => exact ⟨i, rfl, (worker_lt h₀ h).2 i _ p hrun⟩

/-- A single worker overtakes nobody. -/
theorem not_overtaken (h₀ : JobsReady s₀) (h : (machine rt).Reach okPort s₀ s)
    (hone : s₀.tp.threads = 1) : ¬ Overtaken s.hist m n := by
  rintro ⟨t, u, e, r, earlier, hs, -, ht, hne, hu⟩
  obtain ⟨s₁, hreach, rfl, -⟩ := turns_of_suffix h₀ h ((List.suffix_cons _ _).trans hs)
  obtain ⟨i, rfl, hi⟩ := worker_of_packet h₀ hreach ht
  obtain ⟨j, rfl, hj⟩ := worker_of_packet h₀ hreach hu
  exact hne (congrArg Tid.worker (by omega))

/-- **In which order queries that have been submitted in sequence arrive**: they are handed over in
this order. The server receives the first after the second only if another worker was still
processing the first when it received the second, so never from a single worker. -/
theorem ordered (h₀ : JobsReady s₀) (h : (machine rt).Reach okPort s₀ s)
    (hx : InSequence s.hist x₁ x₂) :
    (x₂.1 ∈ handed s.hist → x₁.1 ∈ handed s.hist) ∧
    ([x₁.1, x₂.1].Sublist (received s.hist) → Overtaken s.hist x₁.1 x₂.1) ∧
    (s₀.tp.threads = 1 → ¬ [x₁.1, x₂.1].Sublist (received s.hist)) := by
  have hT := ((turns_kept rt h₀).holds h).1.1
  obtain ⟨hlt, hsub⟩ := hT.lt_of_inSequence hx
  have hlate := overtaken_of_sublist h₀ h hlt
  exact ⟨hT.handed_of_lt hsub hlt, hlate, fun hone hr => not_overtaken h₀ h hone (hlate hr)⟩

end

/-! ## One worker, and two -/

/-- A client submits `q`. -/
def submit (q : Bytes) : List (Label Tid Call Outcome) :=
  .call (.client 0) (.executeQueryNoRet (some q)) :: List.replicate 5 (.act (.client 0) .success)

/-- Worker `i` begins a round and makes `n` steps. -/
def work (i n : Nat) : List (Label Tid Call Outcome) :=
  .call (.worker i) .workerProc :: List.replicate n (.act (.worker i) .success)

/-- A call has returned, and the thread begins another one. -/
theorem inSequence_of_run {rt : Runtime} {s s' : Sys} {t : Tid} {x₁ x₂ : Nat × Bytes} {a : Bool}
    {ls : List (Label Tid Call Outcome)}
    (hret : lastReturn s.hist = some (t, .executeQueryNoRet (some x₁.2), a))
    (hrun : (machine rt).run (.call t (.executeQueryNoRet (some x₂.2)) :: ls) s = some s')
    (h1 : submittedBy t s.hist = [x₁]) (h2 : x₂ ∈ submittedBy t s'.hist) (hne : x₂ ≠ x₁) :
    InSequence s'.hist x₁ x₂ := by
  obtain ⟨earlier, hearlier⟩ := lastReturn_eq_some hret
  obtain ⟨s₁, hcall, hrun⟩ := Option.bind_eq_some_iff.mp hrun
  obtain ⟨later, hlater, -⟩ := Machine.run_hist hrun
  have hhist : s₁.hist = .call t (.executeQueryNoRet (some x₂.2)) :: s.hist := by
    cases Machine.step_cases hcall with
    | call _ _ => rfl
  refine ⟨t, a, s.hist, earlier, ⟨later, by rw [hlater, hhist]⟩, ⟨[], hearlier.symm⟩, ?_, h2, ?_⟩
  · rw [hearlier] at h1
    have h1 : submittedBy t earlier = [x₁] := h1
    rw [h1]
    exact List.mem_singleton_self x₁
  · rw [h1]
    simpa using hne

theorem allowed_submit (q : Bytes) : Machine.Allowed okPort (submit q) := by
  simp [Machine.Allowed, submit, okPort]

theorem allowed_append {ls ls' : List (Label Tid Call Outcome)} (h : Machine.Allowed okPort ls)
    (h' : Machine.Allowed okPort ls') : Machine.Allowed okPort (ls ++ ls') := by
  intro l hl t c hc
  rcases List.mem_append.mp hl with hl | hl
  · exact h l hl t c hc
  · exact h' l hl t c hc

theorem allowed_work (i n : Nat) : Machine.Allowed okPort (work i n) := by
  simp [Machine.Allowed, work, okPort]

/-- A single worker sends both queries in their order, and what is said of the run. -/
theorem ordered_one_worker : ∃ s, (machine .standard).Reach okPort (.small 1 1) s ∧
    received s.hist = [1, 0] ∧
    ((1 ∈ handed s.hist → 0 ∈ handed s.hist) ∧
      ([0, 1].Sublist (received s.hist) → Overtaken s.hist 0 1) ∧
      ((State.small 1 1).tp.threads = 1 → ¬ [0, 1].Sublist (received s.hist))) := by
  obtain ⟨ls, hls⟩ : ∃ ls, ls = submit [114] ++ (work 0 15 ++ work 0 15) := ⟨_, rfl⟩
  have hfirst : ((machine .standard).run (submit [113]) (.init (.small 1 1))).map (fun s =>
      (lastReturn s.hist, submittedBy (.client 0) s.hist))
      = some (some (.client 0, .executeQueryNoRet (some [113]), true), [(0, [113])]) := by
    decide
  have hrun : ((machine .standard).run (submit [113]) (.init (.small 1 1))).bind (fun s =>
      ((machine .standard).run ls s).map fun s' =>
        (submittedBy (.client 0) s'.hist, received s'.hist))
      = some ([(1, [114]), (0, [113])], [1, 0]) := by
    rw [hls]
    decide +kernel
  obtain ⟨s₁, h₁, hs₁⟩ := Option.map_eq_some_iff.mp hfirst
  obtain ⟨hret, hsub₁⟩ := Prod.mk.inj hs₁
  rw [h₁, Option.bind_some] at hrun
  obtain ⟨s, h₂, hs⟩ := Option.map_eq_some_iff.mp hrun
  obtain ⟨hsub, hrec⟩ := Prod.mk.inj hs
  have hallowed : Machine.Allowed okPort ls := by
    rw [hls]
    exact allowed_append (allowed_submit _) (allowed_append (allowed_work 0 15) (allowed_work 0 15))
  have hreach : (machine .standard).Reach okPort (.small 1 1) s :=
    (Machine.Reach.init.run (allowed_submit _) h₁).run hallowed h₂
  rw [hls] at h₂
  have hseq : InSequence s.hist (0, [113]) (1, [114]) :=
    inSequence_of_run hret h₂ hsub₁ (by simp [hsub]) (by simp)
  exact ⟨s, hreach, hrec, ordered (jobsReady_started _ _ _ _ _) hreach hseq⟩

/-- Worker 0 gets the first query and worker 1 the second, and worker 1 sends its query first: the
first is received after the second. -/
theorem overtaken : ∃ s, (machine .standard).Reach okPort (.small 1 2) s ∧
    InSequence s.hist (0, [113]) (1, [114]) ∧ received s.hist = [0, 1] ∧ ¬ InOrder s.hist := by
  obtain ⟨ls, hls⟩ : ∃ ls, ls = submit [114] ++
      (work 0 3 ++ (work 1 15 ++ List.replicate 12 (.act (.worker 0) .success))) := ⟨_, rfl⟩
  have hfirst : ((machine .standard).run (submit [113]) (.init (.small 1 2))).map (fun s =>
      (lastReturn s.hist, submittedBy (.client 0) s.hist))
      = some (some (.client 0, .executeQueryNoRet (some [113]), true), [(0, [113])]) := by
    decide
  have hrun : ((machine .standard).run (submit [113]) (.init (.small 1 2))).bind (fun s =>
      ((machine .standard).run ls s).map fun s' =>
        (submittedBy (.client 0) s'.hist, received s'.hist))
      = some ([(1, [114]), (0, [113])], [0, 1]) := by
    rw [hls]
    decide +kernel
  obtain ⟨s₁, h₁, hs₁⟩ := Option.map_eq_some_iff.mp hfirst
  obtain ⟨hret, hsub₁⟩ := Prod.mk.inj hs₁
  rw [h₁, Option.bind_some] at hrun
  obtain ⟨s, h₂, hs⟩ := Option.map_eq_some_iff.mp hrun
  obtain ⟨hsub, hrec⟩ := Prod.mk.inj hs
  have hallowed : Machine.Allowed okPort ls := by
    rw [hls]
    refine allowed_append (allowed_submit _) (allowed_append (allowed_work 0 3)
      (allowed_append (allowed_work 1 15) ?_))
    simp [Machine.Allowed]
  have hreach : (machine .standard).Reach okPort (.small 1 2) s :=
    (Machine.Reach.init.run (allowed_submit _) h₁).run hallowed h₂
  rw [hls] at h₂
  have hseq : InSequence s.hist (0, [113]) (1, [114]) :=
    inSequence_of_run hret h₂ hsub₁ (by simp [hsub]) (by simp)
  refine ⟨s, hreach, hseq, hrec, fun hord => ?_⟩
  have hsub := hord _ _ hseq (by simp [hrec])
  rw [hrec] at hsub
  exact absurd hsub (by decide)

end XeMySql
