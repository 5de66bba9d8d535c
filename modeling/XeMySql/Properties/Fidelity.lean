import XeMySql.Properties.Delivered

/-!
# What becomes of the text of a queued query

`ProcessTask` hands the query it has read to `Query` as a format without arguments. So the server is
sent what `vsnprintf` makes of it, and that is the query only if it has no `%`.

* `sending_kept` — what a worker sends is what `vsnprintf` has made of what it has read
* `fidelity_iff` — which queries arrive as they have been submitted
* `percent_halved` — a run in which one does not
-/

namespace XeMySql

open Interact

/-- The texts that have been passed to `mysql_real_query`, with the number of the packet that was
being processed, the latest first. -/
def passed : List Ev → List (Nat × Bytes)
  | [] => []
  | .reply t (.lib (.realQuery _ text)) _ :: h =>
    match presentPacket t h with
    | some n => (n, text) :: passed h
    | none => passed h
  | _ :: h => passed h

theorem passed_reply {t : Tid} {e : Op} {r : e.Reply} {h : List Ev}
    (he : ∀ m text, e ≠ .lib (.realQuery m text)) : passed (.reply t e r :: h) = passed h := by
  cases e with
  | lib e =>
    cases e with
    | realQuery m text => exact absurd rfl (he m text)
    | _ => rfl
  | _ => rfl

/-- The text of the packet a worker has got, on its way to the server: not read yet, read as `q`, and
left in the buffer of `Query` as `r`. -/
inductive Sending where
  | idle
  | taken (n : Nat)
  | read (n : Nat) (q : Bytes)
  | rendered (n : Nat) (q r : Bytes)

namespace Sending

/-- The packet whose text it is. -/
def packet : Sending → Option Nat
  | idle => none
  | taken n => some n
  | read n _ => some n
  | rendered n _ _ => some n

/-- A worker formats what it has read, without arguments, and sends what is in the buffer. -/
def may (l : Sending) : Op → Prop
  | .tp (.getQueued _) => l = idle
  | .task (.getQuery _) => ∃ n, l = taken n
  | .rt (.vsnprintf size fmt args) => l = idle ∨ ∃ n, l = read n fmt ∧ size = 1023 ∧ args = []
  | .lib (.realQuery _ text) => l = idle ∨ ∃ n q r, l = rendered n q r ∧ text = CString.cstr r
  | _ => True

/-- How far it is afterwards. -/
def next (l : Sending) : (e : Op) → e.Reply → Sending
  | .tp (.getQueued _), r =>
    match r with
    | .packet n (.job true (some _)) => taken n
    | _ => l
  | .task (.getQuery _), q =>
    match l with
    | taken n => read n q
    | _ => l
  | .rt (.vsnprintf _ _ _), r =>
    match l with
    | read n q => rendered n q r
    | _ => l
  | _, _ => l

/-- The discipline. -/
def discipline : Discipline Op Op.Reply Sending := ⟨may, fun _ _ _ => True, next⟩

end Sending

/-! ## The code -/

/-- Requests that have nothing to do with packets. -/
def NoPacket : Op → Prop
  | .tp (.getQueued _) => False
  | .task (.getQuery _) => False
  | _ => True

theorem noPacket_of_onDatabase (e : Op) (he : OnDatabase e) : NoPacket e := by
  cases e <;> trivial

/-- A thread that has no packet formats and sends what it likes. -/
theorem noPacket_sending {α : Type} {p : Code α} (h : p.Only NoPacket) :
    p.Follows Sending.discipline .idle fun _ l => l = .idle := by
  refine h.follows (fun e he => ?_) (fun e he r => ?_)
  · cases e with
    | tp e => cases e <;> first | exact he.elim | trivial
    | task e => cases e <;> first | exact he.elim | trivial
    | lib e => cases e <;> first | exact Or.inl rfl | trivial
    | rt e => cases e <;> first | exact Or.inl rfl | trivial
    | _ => trivial
  · cases e with
    | tp e => cases e <;> first | exact he.elim | rfl
    | task e => cases e <;> first | exact he.elim | rfl
    | rt e => cases e <;> rfl
    | _ => rfl

/-- Code that neither formats nor sends a text can run at any point. -/
theorem statement_sending {α : Type} {p : Code α} (h : p.Only OnStatement) (l : Sending) :
    p.Follows Sending.discipline l fun _ l' => l' = l := by
  refine h.follows (fun e he => ?_) (fun e he r => ?_)
  · cases e with
    | lib e => cases e <;> first | exact he.elim | trivial
    | rt e => cases e <;> first | exact he.elim | trivial
    | con e => trivial
    | _ => exact he.elim
  · cases e with
    | rt e => cases e <;> first | exact he.elim | rfl
    | con e => rfl
    | lib e => rfl
    | _ => exact he.elim

/-- `Query` with what the worker has read as its format. -/
theorem query_sending (n : Nat) (q : Bytes) :
    (CXEMySql.query q []).Follows Sending.discipline (.read n q) fun _ _ => True := by
  refine ⟨trivial, fun c _ => ?_⟩
  rcases c with _ | c
  · trivial
  · simp only [Prog.bind_ret]
    refine Prog.Follows.bind (P := fun _ _ => True) ⟨trivial, fun m _ => ?_⟩
      fun _ _ _ => ⟨trivial, fun _ _ => trivial⟩
    rcases m with _ | m
    · trivial
    · refine ⟨Or.inr ⟨n, rfl, rfl, rfl⟩, fun r _ => ⟨Or.inr ⟨n, q, r, rfl, rfl⟩, fun ok _ => ?_⟩⟩
      cases ok with
      | true => exact ⟨trivial, fun _ _ => ⟨trivial, fun _ _ => trivial⟩⟩
      | false =>
        exact (statement_sending ((queryFailed_session c m _).mono OnSession.onStatement) _).mono
          fun _ _ _ => trivial

/-- `Query` with a blob. -/
theorem queryBlob_sending (l : Sending) (cmd : Bytes) (d : DB_BLOB) :
    (CXEMySql.queryBlob cmd (some d)).Follows Sending.discipline l fun _ _ => True :=
  (statement_sending (queryBlob_statement cmd d) l).mono fun _ _ _ => trivial

theorem processTask_sending (n k : Nat) :
    (CXEMySqlWorker.processTask (some k)).Follows Sending.discipline (.taken n)
      fun _ _ => True := by
  refine ⟨trivial, fun d _ => ?_⟩
  rcases d with _ | p
  · refine ⟨⟨n, rfl⟩, fun q _ => (query_sending n q).bind fun _ _ _ => ?_⟩
    exact ⟨trivial, fun _ _ => ⟨trivial, fun _ _ => trivial⟩⟩
  · refine ⟨⟨n, rfl⟩, fun q _ => ⟨trivial, fun d _ => ?_⟩⟩
    refine (queryBlob_sending _ q d).bind fun _ _ _ => ?_
    exact ⟨trivial, fun _ _ => ⟨trivial, fun _ _ => trivial⟩⟩

theorem workerProc_sending :
    (ThreadPool.workerProc CXEMySql.inPool CXEMySqlWorker.processTask).Follows Sending.discipline
      .idle fun _ _ => True := by
  refine ⟨trivial, fun _ _ => ⟨trivial, fun _ _ => ⟨rfl, fun r _ => ?_⟩⟩⟩
  rcases r with _ | ⟨n, _ | ⟨w, k⟩⟩
  -- without a packet, or with an exit packet, the thread leaves the loop
  · exact ⟨trivial, fun _ _ => ⟨trivial, fun _ _ => ⟨trivial, fun _ _ => ⟨trivial, fun _ _ =>
      trivial⟩⟩⟩⟩
  · exact ⟨trivial, fun _ _ => ⟨trivial, fun _ _ => ⟨trivial, fun _ _ => ⟨trivial, fun _ _ =>
      trivial⟩⟩⟩⟩
  · cases w with
    | false => trivial
    | true =>
      rcases k with _ | k
      · trivial
      · exact (processTask_sending n k).bind fun _ _ _ => trivial

/-- **Every call between `Start` and `Stop`** sends only what it has formatted. -/
theorem code_sending (t : Tid) (c : Call) (hc : okJobs t c) :
    c.code.Follows Sending.discipline .idle fun _ _ => True := by
  have hno : ∀ {p : Code Bool}, p.Only NoPacket →
      p.Follows Sending.discipline .idle fun _ _ => True :=
    fun h => (noPacket_sending h).mono fun _ _ _ => trivial
  have hdb : ∀ {p : Code Bool}, p.Only OnDatabase →
      p.Follows Sending.discipline .idle fun _ _ => True :=
    fun h => hno (h.mono noPacket_of_onDatabase)
  have htext : ∀ e, OnText e → NoPacket e :=
    fun e he => noPacket_of_onDatabase e (OnText.onDatabase e he)
  have hsession : ∀ {p : Code Bool}, p.Only OnSession →
      p.Follows Sending.discipline .idle fun _ _ => True :=
    fun h => hno (h.mono fun e he => htext e (OnSession.onText e he))
  cases c with
  | executeQueryNoRet q =>
    rcases q with _ | q
    · exact hc.elim
    · exact hno ⟨trivial, fun _ => ⟨trivial, fun _ => ⟨trivial, fun _ => ⟨trivial, fun _ =>
        trivial⟩⟩⟩⟩
  | selectDB db => exact hno (selectDB_only
      (fun e he => htext e (OnSession.onText e he)) (fun _ _ => trivial) db)
  | query cmd args => exact hno ((query_text cmd args).mono htext)
  | queryData cmd data args => exact hno (queryData_only htext cmd (fun _ _ _ _ => trivial) args)
  | queryBlob cmd d => exact hdb (queryBlob_database cmd d)
  | newResult => exact ⟨trivial, fun _ _ => trivial⟩
  | deleteResult x =>
    refine ⟨trivial, fun r _ => ?_⟩
    rcases r with _ | r
    · exact ⟨trivial, fun _ _ => trivial⟩
    · exact ⟨trivial, fun _ _ => ⟨trivial, fun _ _ => trivial⟩⟩
  | connect c p => exact hsession (connect_session c p)
  | close c => exact hsession (close_session c)
  | reconnect c => exact hsession (reconnect_session c)
  | start n => exact hc.elim
  | stop => exact hc.elim
  | workerProc => exact workerProc_sending

/-! ## What is sent -/

/-- The buffer of `Query` holds what `vsnprintf` makes of the format `q`. -/
def Rendered (rt : Runtime) (q r : Bytes) : Prop :=
  ∀ text, Printf.format rt.conv q [] = some text → r = text.take (rt.keeps 1023)

/-- How far the threads are after a history. -/
abbrev sendingView (h : List Ev) : Tid → Sending :=
  Sending.discipline.view .idle (fun _ _ => .idle) h

/-- What is on its way has been read from its packet, and rendered. -/
def Sending.Carries (rt : Runtime) (rd : List (Nat × Bytes)) : Sending → Prop
  | idle => True
  | taken _ => True
  | read n q => (n, q) ∈ rd
  | rendered n q r => (n, q) ∈ rd ∧ Rendered rt q r

theorem Sending.Carries.mono {rt : Runtime} {rd rd' : List (Nat × Bytes)} {l : Sending}
    (h : l.Carries rt rd) (hs : rd ⊆ rd') : l.Carries rt rd' := by
  cases l with
  | read n q => exact hs h
  | rendered n q r => exact ⟨hs h.1, h.2⟩
  | _ => trivial

/-- What has been sent for a packet is what `vsnprintf` has made of what was read from it. -/
structure Sent (rt : Runtime) (h : List Ev) : Prop where
  packet : ∀ t, presentPacket t h = (sendingView h t).packet
  carries : ∀ t, (sendingView h t).Carries rt (reads h)
  passed : ∀ x ∈ passed h, ∃ q r, (x.1, q) ∈ reads h ∧ Rendered rt q r ∧ x.2 = CString.cstr r

section

variable {rt : Runtime} {h : List Ev} {t : Tid} {e : Op} {r : e.Reply}

/-- How an answer changes the packet and what is read. -/
theorem Sending.next_packet (l : Sending) :
    (l.next e r).packet = (Answer.hands ⟨e, r⟩).or l.packet := by
  cases e with
  | tp e =>
    cases e with
    | getQueued p =>
      rcases r with _ | ⟨n, _ | ⟨w, k⟩⟩
      · rfl
      · rfl
      · cases w <;> cases k <;> rfl
    | _ => rfl
  | task e => cases e <;> cases l <;> rfl
  | rt e => cases e <;> cases l <;> rfl
  | _ => rfl

theorem reads_subset : reads h ⊆ reads (.reply t e r :: h) := by
  cases e with
  | task e =>
    cases e with
    | getQuery k =>
      simp only [reads]
      split
      · exact List.subset_cons_self _ _
      · exact List.Subset.refl _
    | _ => exact List.Subset.refl _
  | _ => exact List.Subset.refl _

/-- A call begins or ends without a packet. -/
theorem Sent.restart {ev : Ev} (hs : Sent rt h) (hev : callTrace t (ev :: h) = [])
    (hother : ∀ u, u ≠ t → callTrace u (ev :: h) = callTrace u h)
    (hv : sendingView (ev :: h) = Function.update (sendingView h) t .idle)
    (hr : reads (ev :: h) = reads h) (hp : XeMySql.passed (ev :: h) = XeMySql.passed h) :
    Sent rt (ev :: h) := by
  refine ⟨fun u => ?_, fun u => ?_, ?_⟩
  · by_cases hu : u = t
    · subst hu
      rw [presentPacket, hev, hv, Function.update_self]
      rfl
    · rw [presentPacket, hother u hu, hv, Function.update_of_ne hu]
      exact hs.packet u
  · by_cases hu : u = t
    · subst hu
      rw [hv, Function.update_self]
      trivial
    · rw [hv, Function.update_of_ne hu, hr]
      exact hs.carries u
  · rw [hp, hr]
    exact hs.passed

/-- What an answer brings on its way. -/
theorem Sent.step {o : Outcome} {s s' : State} (hs : Sent rt h)
    (hm : (sendingView h t).may e) (he : exec rt t e o s = some (s', some r)) :
    ((sendingView h t).next e r).Carries rt (reads (.reply t e r :: h)) := by
  have hsame : (sendingView h t).Carries rt (reads (.reply t e r :: h)) :=
    (hs.carries t).mono reads_subset
  cases e with
  | tp e =>
    cases e with
    | getQueued p =>
      have hl : sendingView h t = .idle := hm
      rw [hl]
      rcases r with _ | ⟨n, _ | ⟨w, k⟩⟩
      · trivial
      · trivial
      · cases w <;> cases k <;> trivial
    | _ => exact hsame
  | task e =>
    cases e with
    | getQuery k =>
      obtain ⟨n, hl⟩ := hm
      have hp : presentPacket t h = some n := by
        rw [hs.packet t, hl]
        rfl
      rw [hl]
      show (n, r) ∈ reads (.reply t (.task (.getQuery k)) r :: h)
      simp only [reads, hp]
      exact List.mem_cons_self
    | _ => exact hsame
  | rt e =>
    cases e with
    | vsnprintf size fmt args =>
      rcases hm with hl | ⟨n, hl, rfl, rfl⟩
      · rw [hl]
        trivial
      · rw [hl] at hsame ⊢
        refine ⟨hsame, fun text ht => ?_⟩
        obtain ⟨x, hx, -⟩ := exec_rt he
        simp only [RtOp.exec, ht] at hx
        cases hx
        rfl
    | _ => exact hsame
  | _ => exact hsame

/-- **Step lemma.** Every answer keeps it. -/
theorem Sent.reply {o : Outcome} {s s' : State} (hs : Sent rt h)
    (hm : (sendingView h t).may e) (he : exec rt t e o s = some (s', some r)) :
    Sent rt (.reply t e r :: h) := by
  have hv : sendingView (.reply t e r :: h)
      = Function.update (sendingView h) t ((sendingView h t).next e r) := by
    rw [sendingView, Discipline.view_reply]
    rfl
  refine ⟨fun u => ?_, fun u => ?_, ?_⟩
  · by_cases hu : u = t
    · subst hu
      rw [presentPacket_reply, hv, Function.update_self, Sending.next_packet, hs.packet u]
    · rw [hv, Function.update_of_ne hu, presentPacket, callTrace_reply, if_neg (Ne.symm hu)]
      exact hs.packet u
  · rw [hv]
    by_cases hu : u = t
    · subst hu
      rw [Function.update_self]
      exact hs.step hm he
    · rw [Function.update_of_ne hu]
      exact (hs.carries u).mono reads_subset
  · have hold : ∀ x ∈ XeMySql.passed h, ∃ q r', (x.1, q) ∈ reads (.reply t e r :: h) ∧
        Rendered rt q r' ∧ x.2 = CString.cstr r' := by
      intro x hx
      obtain ⟨q, r', hq, hr⟩ := hs.passed x hx
      exact ⟨q, r', reads_subset hq, hr⟩
    by_cases hq : ∃ m text, e = .lib (.realQuery m text)
    · obtain ⟨m, text, rfl⟩ := hq
      intro x hx
      cases hp : presentPacket t h with
      | none =>
        simp only [XeMySql.passed, hp] at hx
        exact hold x hx
      | some n =>
        simp only [XeMySql.passed, hp] at hx
        rcases List.mem_cons.mp hx with rfl | hx
        · rw [hs.packet t] at hp
          have hc := hs.carries t
          rcases hm with hl | ⟨n', q, r', hl, rfl⟩
          · rw [hl] at hp
            cases hp
          · rw [hl] at hp hc
            cases hp
            exact ⟨q, r', hc.1, hc.2, rfl⟩
        · exact hold x hx
    · rw [passed_reply fun m text hm => hq ⟨m, text, hm⟩]
      exact hold

end

/-- **In every run, workers send what `vsnprintf` makes of what they have read.** -/
theorem sending_kept (rt : Runtime) (s₀ : State) :
    (machine rt).Kept okJobs s₀ Sending.discipline .idle (fun _ _ => .idle) (fun _ _ _ => True)
      fun _ h => Sent rt h where
  code := code_sending
  init := ⟨fun _ => rfl, fun _ => trivial, by simp [passed]⟩
  call s h t c hI _ _ _ := by
    refine hI.restart (t := t) (by simp) (fun u hu => by simp [Ne.symm hu]) ?_ rfl rfl
    rw [sendingView, Discipline.view_call]
  wait s h t e o s' hI _ _ := hI
  reply s h t e o s' r hI hm he := ⟨trivial, hI.reply hm he⟩
  done s h t c a hI _ := by
    refine hI.restart (t := t) (by simp) (fun u hu => by simp [Ne.symm hu]) ?_ rfl rfl
    rw [sendingView, Discipline.view_done]

/-! ## Whole runs -/

/-- Packets are numbered differently, so one of them carries one query. -/
theorem eq_of_mem_of_nodup {l : List (Nat × Bytes)} (h : (l.map Prod.fst).Nodup) {n : Nat}
    {q q' : Bytes} (hq : (n, q) ∈ l) (hq' : (n, q') ∈ l) : q = q' := by
  have := List.inj_on_of_nodup_map h hq hq' rfl
  exact (Prod.mk.inj this).2

/-- The buffer holds the whole of a short query exactly when it has no `%`. -/
theorem Rendered.cstr_eq_iff {rt : Runtime} {q r : Bytes} (h : Rendered rt q r) (hq : Short q) :
    CString.cstr r = q ∧ (Printf.format rt.conv q []).isSome ↔ Printf.percent ∉ q := by
  have hfits : q.length ≤ rt.keeps 1023 := by
    have h1 := rt.pred_le_keeps 1023
    have h2 := hq.2
    omega
  constructor
  · rintro ⟨hr, hs⟩ hp
    obtain ⟨text, ht⟩ := Option.isSome_iff_exists.mp hs
    exact Printf.cstr_take_ne hp ht _ (h text ht ▸ hr)
  · intro hp
    have hf : Printf.format rt.conv q [] = some q := Printf.format_of_no_percent hp []
    rw [h q hf, hf, List.take_of_length_le hfits]
    exact ⟨CString.cstr_of_nulFree hq.1, rfl⟩

/-- **What is sent for a packet is the query submitted in it, and printf is defined on it, exactly
when the query has no `%`**, in every run between `Start` and `Stop`. -/
theorem fidelity_iff (rt : Runtime) {s₀ : State} (h₀ : JobsReady s₀) {s : Sys}
    (h : (machine rt).Reach okJobs s₀ s) {n : Nat} {q text : Bytes}
    (hq : (n, q) ∈ submitted s.hist) (ht : (n, text) ∈ passed s.hist) :
    text = q ∧ (Printf.format rt.conv q []).isSome ↔ Printf.percent ∉ q := by
  obtain ⟨⟨hI, -⟩, -, hn, -⟩ := ((track_kept rt h₀).holds h).1
  obtain ⟨q', r, hread, hr, hc⟩ := ((sending_kept rt s₀).holds h).1.passed _ ht
  obtain rfl : text = CString.cstr r := hc
  have hnodup : ((submitted s.hist).map Prod.fst).Nodup := by
    rw [hn.numbers]
    exact nodup_range_reverse _
  obtain rfl : q = q' := eq_of_mem_of_nodup hnodup hq (hn.read _ hread)
  exact hr.cstr_eq_iff (hI.short _ hq)

/-- A query without `%` that has been sent, and what is said of it. -/
theorem fidelity_of_plain : ∃ s, (machine .standard).Reach okJobs (.small 1 1) s ∧
    (0, [113]) ∈ submitted s.hist ∧ (0, [113]) ∈ passed s.hist ∧
    (([113] : Bytes) = [113] ∧ (Printf.format Runtime.standard.conv [113] []).isSome ↔
      Printf.percent ∉ ([113] : Bytes)) := by
  have hrun : ((machine .standard).run (oneJob [113]) (.init (.small 1 1))).map
      (fun s => (submitted s.hist, passed s.hist)) = some ([(0, [113])], [(0, [113])]) := by
    decide +kernel
  obtain ⟨s, hs, hl⟩ := Option.map_eq_some_iff.mp hrun
  obtain ⟨h1, h2⟩ := Prod.mk.inj hl
  have hr : (machine .standard).Reach okJobs (.small 1 1) s :=
    Machine.Reach.init.run (allowed_oneJob ⟨by simp [CString.NulFree], by decide⟩) hs
  have hq : (0, [113]) ∈ submitted s.hist := by rw [h1]; exact List.mem_cons_self
  have ht : (0, [113]) ∈ passed s.hist := by rw [h2]; exact List.mem_cons_self
  exact ⟨s, hr, hq, ht, fidelity_iff .standard (jobsReady_started _ _ _ _ _) hr hq ht⟩

/-- The query `a%%b` is submitted, and the server is sent `a%b`. -/
theorem percent_halved : ∃ s text, (machine .standard).Reach okJobs (.small 1 1) s ∧
    Short [97, 37, 37, 98] ∧ (0, [97, 37, 37, 98]) ∈ submitted s.hist ∧
    (0, text) ∈ passed s.hist ∧ text ≠ [97, 37, 37, 98] := by
  have hrun : ((machine .standard).run (oneJob [97, 37, 37, 98]) (.init (.small 1 1))).map
      (fun s => (submitted s.hist, passed s.hist))
      = some ([(0, [97, 37, 37, 98])], [(0, [97, 37, 98])]) := by
    decide +kernel
  obtain ⟨s, hs, hl⟩ := Option.map_eq_some_iff.mp hrun
  obtain ⟨h1, h2⟩ := Prod.mk.inj hl
  have hshort : Short [97, 37, 37, 98] := ⟨by simp [CString.NulFree], by decide⟩
  refine ⟨s, [97, 37, 98], Machine.Reach.init.run (allowed_oneJob hshort) hs, hshort, ?_, ?_,
    by decide⟩
  · rw [h1]
    exact List.mem_cons_self
  · rw [h2]
    exact List.mem_cons_self

end XeMySql
