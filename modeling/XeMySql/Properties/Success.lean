import XeMySql.Record

/-!
# What `true` means

When `Query` returns `true`, the server should have accepted the command. The text overloads also
return what `HandleError` returns, and so report a lost connection as a success once `Reconnect`
has worked.

* `success_iff` — when a call that returns `true` has had its command accepted
* `lost_and_restored` — a run in which it has not
-/

namespace XeMySql

open Interact Record

/-- The server has accepted the query `q`. -/
def Accepted (q : Bytes) (l : Trace) : Prop := ∃ h, ⟨.lib (.realQuery h q), true⟩ ∈ l

/-- A query has failed, with one of the errors for which `HandleError` reconnects, and connecting
again has succeeded. -/
def LostAndRestored (l : Trace) : Prop :=
  (∃ h q, ⟨.lib (.realQuery h q), false⟩ ∈ l) ∧
    (∃ h n, CXEMySql.isLost n = true ∧ ⟨.lib (.errno h), n⟩ ∈ l) ∧
    ∃ h p, ⟨.lib (.realConnect h p), true⟩ ∈ l

/-- The server has accepted the command of the call. The text of the variadic overloads is what
printf makes of it; a command that is no format is its own text. -/
def Call.CommandAccepted (rt : Runtime) (l : Trace) : Call → Prop
  | query cmd args => ∃ q, Printf.format rt.conv cmd args = some q ∧ Accepted q l
  | queryData cmd _ args => ∃ q, Printf.format rt.conv cmd args = some q ∧ Accepted q l
  | queryBlob cmd none => (Printf.format rt.conv cmd []).isSome ∧ Accepted cmd l
  | queryBlob cmd (some _) => ∃ st, Prepared st cmd l ∧ Executed st l
  | _ => True

/-- The text fits into the buffer of `Query`. -/
def FitsBuffer (rt : Runtime) (q : Bytes) : Prop :=
  CString.NulFree q ∧ q.length ≤ rt.keeps 1023

/-- The condition under which `true` is right: no lost connection has been restored, and a text that
the server has accepted is the whole command. -/
def Call.Sound (rt : Runtime) (l : Trace) : Call → Prop
  | query cmd args => ¬ LostAndRestored l ∧ ((∃ q, Accepted q l) →
      ∃ q, Printf.format rt.conv cmd args = some q ∧ FitsBuffer rt q)
  | queryData _ _ _ => ¬ LostAndRestored l
  | queryBlob cmd none => ¬ LostAndRestored l ∧ ((∃ q, Accepted q l) →
      Printf.percent ∉ cmd ∧ FitsBuffer rt cmd)
  | _ => True

section

variable {rt : Runtime}

/-- What a buffer of `Query` holds is the whole text when the text fits. -/
theorem cstr_take_eq_iff {q : Bytes} : CString.cstr (q.take (rt.keeps 1023)) = q ↔ FitsBuffer rt q := by
  constructor
  · intro h
    refine ⟨?_, ?_⟩
    · rw [← h]
      exact CString.nulFree_cstr _
    · have h1 := CString.length_cstr_le (q.take (rt.keeps 1023))
      rw [h, List.length_take] at h1
      omega
  · rintro ⟨h1, h2⟩
    rw [List.take_of_length_le h2]
    exact CString.cstr_of_nulFree h1

/-- Neither a query nor an attempt to connect has been made. -/
structure Quiet (l : Trace) : Prop where
  query : ∀ h q b, ⟨.lib (.realQuery h q), b⟩ ∉ l
  connect : ∀ h p, ⟨.lib (.realConnect h p), true⟩ ∉ l

/--
What a text overload ends with. Either the server has accepted what `vsnprintf` has left in the
buffer, and `ok` is returned; or it has accepted nothing, and what is returned is whether a lost
connection has been restored.
-/
def TextPost (rt : Runtime) (cmd : Bytes) (args : List Printf.Arg) (ok : Bool) (a : Bool)
    (l : Trace) : Prop :=
  (∃ r : Bytes,
      (∀ text, Printf.format rt.conv cmd args = some text → r = text.take (rt.keeps 1023)) ∧
      a = ok ∧ (∀ q, Accepted q l ↔ q = CString.cstr r) ∧ ¬ LostAndRestored l) ∨
    ((∀ q, ¬ Accepted q l) ∧ (a = true ↔ LostAndRestored l))

theorem accepted_cons {q : Bytes} {l : Trace} {e : Op} {r : e.Reply}
    (he : ∀ h q, e ≠ .lib (.realQuery h q)) : Accepted q (⟨e, r⟩ :: l) ↔ Accepted q l := by
  constructor
  · rintro ⟨h, hm⟩
    rcases List.mem_cons.mp hm with heq | hm
    · cases heq
      exact absurd rfl (he h q)
    · exact ⟨h, hm⟩
  · rintro ⟨h, hm⟩
    exact ⟨h, List.mem_cons_of_mem _ hm⟩

theorem lostAndRestored_cons {l : Trace} {e : Op} {r : e.Reply}
    (h1 : ∀ h q, e ≠ .lib (.realQuery h q)) (h2 : ∀ h, e ≠ .lib (.errno h))
    (h3 : ∀ h p, e ≠ .lib (.realConnect h p)) :
    LostAndRestored (⟨e, r⟩ :: l) ↔ LostAndRestored l := by
  have hskip : ∀ {e' : Op} {r' : e'.Reply}, e ≠ e' →
      ((⟨e', r'⟩ : Answer Op Op.Reply) ∈ (⟨e, r⟩ : Answer Op Op.Reply) :: l ↔
        (⟨e', r'⟩ : Answer Op Op.Reply) ∈ l) := by
    intro e' r' hne
    rw [List.mem_cons, or_iff_right]
    rintro ⟨⟩
    exact hne rfl
  simp only [LostAndRestored, hskip (h1 _ _), hskip (h2 _), hskip (h3 _ _)]

/-- Further answers that say nothing of queries. -/
theorem TextPost.cons {cmd : Bytes} {args : List Printf.Arg} {ok a : Bool} {l : Trace} {e : Op}
    {r : e.Reply} (h : TextPost rt cmd args ok a l) (h1 : ∀ h q, e ≠ .lib (.realQuery h q))
    (h2 : ∀ h, e ≠ .lib (.errno h)) (h3 : ∀ h p, e ≠ .lib (.realConnect h p)) :
    TextPost rt cmd args ok a (⟨e, r⟩ :: l) := by
  simpa only [TextPost, accepted_cons h1, lostAndRestored_cons h1 h2 h3] using h

/-- A query that has not been made. -/
theorem TextPost.quiet {cmd : Bytes} {args : List Printf.Arg} {ok : Bool} {l : Trace}
    (h : Quiet l) : TextPost rt cmd args ok false l := by
  refine Or.inr ⟨?_, ?_⟩
  · rintro q ⟨m, hm⟩
    exact h.query m q true hm
  · simp only [Bool.false_eq_true, false_iff]
    rintro ⟨⟨m, q, hm⟩, -⟩
    exact h.query m q false hm

/-- After a failed query: whether a lost connection has been restored. -/
theorem queryFailed_success {c m : Nat} {szQuery q : Bytes} {l : Trace} (h : Quiet l) :
    (CXEMySql.queryFailed c m szQuery).Follows (discipline rt)
      (⟨.lib (.realQuery m q), false⟩ :: l)
      fun a l' => (∀ q, ¬ Accepted q l') ∧ (a = true ↔ LostAndRestored l') := by
  have hq := h.query
  have hc := h.connect
  refine ⟨trivial, fun n _ => ⟨trivial, fun e _ => ⟨trivial, fun _ _ => ⟨trivial, fun n _ => ?_⟩⟩⟩⟩
  show (CXEMySql.handleError c n).Follows _ _ _
  unfold CXEMySql.handleError
  by_cases hn : CXEMySql.isLost n = true
  · rw [if_pos hn]
    refine ⟨trivial, fun temp _ => ?_⟩
    rcases temp with _ | temp
    · exact ⟨trivial, fun r => nomatch r⟩
    · refine ⟨trivial, fun p _ => ⟨trivial, fun ok _ => ?_⟩⟩
      cases ok with
      | false =>
        refine ⟨trivial, fun _ _ => ⟨trivial, fun _ _ => ?_⟩⟩
        simp [Accepted, LostAndRestored, hq, hc]
      | true =>
        refine ⟨trivial, fun old _ => ?_⟩
        rcases old with _ | old
        · refine ⟨trivial, fun _ _ => ⟨by simp [Accepted, hq], iff_of_true rfl ⟨⟨m, q, ?_⟩, ?_⟩⟩⟩
          · simp
          · exact ⟨⟨m, n, hn, by simp⟩, temp, p, by simp⟩
        · refine ⟨trivial, fun _ _ => ⟨trivial, fun _ _ =>
            ⟨by simp [Accepted, hq], iff_of_true rfl ⟨⟨m, q, ?_⟩, ?_⟩⟩⟩⟩
          · simp
          · exact ⟨⟨m, n, hn, by simp⟩, temp, p, by simp⟩
  · rw [if_neg hn]
    simp [Accepted, LostAndRestored, hq, hc]

theorem Quiet.cons {l : Trace} {e : Op} {r : e.Reply} (h : Quiet l)
    (h1 : ∀ m q, e ≠ .lib (.realQuery m q)) (h2 : ∀ m p, e ≠ .lib (.realConnect m p)) :
    Quiet (⟨e, r⟩ :: l) := by
  constructor
  · intro m q b hm
    rcases List.mem_cons.mp hm with heq | hm
    · cases heq
      exact h1 m q rfl
    · exact h.query m q b hm
  · intro m p hm
    rcases List.mem_cons.mp hm with heq | hm
    · cases heq
      exact h2 m p rfl
    · exact h.connect m p hm

theorem queryOn_success {c m : Nat} {cmd : Bytes} {args : List Printf.Arg} {l : Trace}
    (h : Quiet l) :
    (CXEMySql.queryOn c m cmd args).Follows (discipline rt) l
      fun a l' => TextPost rt cmd args true a l' := by
  refine ⟨trivial, fun r hr => ⟨trivial, fun ok _ => ?_⟩⟩
  have hq := h.cons (e := .rt (.vsnprintf 1023 cmd args)) (r := r) (by simp) (by simp)
  cases ok with
  | false => exact (queryFailed_success hq).mono fun _ _ hp => Or.inr hp
  | true =>
    refine ⟨trivial, fun _ _ => ⟨trivial, fun _ _ => Or.inl ⟨r, hr, rfl, ?_, ?_⟩⟩⟩
    · intro q
      simp [Accepted, h.query, eq_comm]
    · rintro ⟨⟨m', q', hm⟩, -⟩
      simp [h.query] at hm

theorem queryDataOn_success {c m : Nat} {cmd : Bytes} {data : Option Nat}
    {args : List Printf.Arg} {l : Trace} (h : Quiet l) :
    (CXEMySql.queryDataOn c m cmd data args).Follows (discipline rt) l
      fun a l' => TextPost rt cmd args false a l' := by
  refine ⟨trivial, fun r hr => ⟨trivial, fun ok _ => ?_⟩⟩
  have hq := h.cons (e := .rt (.vsnprintf 1023 cmd args)) (r := r) (by simp) (by simp)
  cases ok with
  | false => exact (queryFailed_success hq).mono fun _ _ hp => Or.inr hp
  | true =>
    have hpost : TextPost rt cmd args false false
        (⟨.lib (.realQuery m (CString.cstr r)), true⟩ ::
          ⟨.rt (.vsnprintf 1023 cmd args), r⟩ :: l) := by
      refine Or.inl ⟨r, hr, rfl, ?_, ?_⟩
      · intro q
        simp [Accepted, h.query, eq_comm]
      · rintro ⟨⟨m', q', hm⟩, -⟩
        simp [h.query] at hm
    have hpost := hpost.cons (e := .rt (.outPutDBStr (CString.cstr r))) (r := ())
      (by simp) (by simp) (by simp)
    refine ⟨trivial, fun _ _ => ⟨trivial, fun nLength _ => ?_⟩⟩
    have hpost := hpost.cons (e := .lib (.fieldCount m)) (r := nLength)
      (by simp) (by simp) (by simp)
    by_cases hn : 0 < nLength
    · simp only [Prog.bind_ret, hn, if_true]
      refine ⟨trivial, fun res _ => ?_⟩
      have hpost := hpost.cons (e := .lib (.storeResult m)) (r := res)
        (by simp) (by simp) (by simp)
      rcases data with _ | x
      · exact hpost
      · exact ⟨trivial, fun _ _ => hpost.cons (by simp) (by simp) (by simp)⟩
    · simp only [Prog.bind_ret, hn, if_false]
      exact hpost

/-- Locking and unlocking say nothing of queries. -/
theorem locked_success {body : Nat → Nat → Code Bool} {cmd : Bytes} {args : List Printf.Arg}
    {ok : Bool} (hbody : ∀ c m l, Quiet l →
      (body c m).Follows (discipline rt) l fun a l' => TextPost rt cmd args ok a l') :
    (CXEMySql.locked body).Follows (discipline rt) [] fun a l' => TextPost rt cmd args ok a l' := by
  have hnil : Quiet [] := ⟨by simp, by simp⟩
  have hfound : ∀ c, Quiet [⟨.con .getFreeCon, c⟩] := fun c => hnil.cons (by simp) (by simp)
  refine CXEMySql.follows_locked (P := fun _ a l' => TextPost rt cmd args ok a l') trivial
    (.quiet (hfound none)) (fun _ => trivial) (fun c m => ?_)
    fun c a l' h => ⟨trivial, fun _ => h.cons (by simp) (by simp) (by simp)⟩
  have hhandle : Quiet [⟨.con (.getMySql c), m⟩, ⟨.con .getFreeCon, some c⟩] :=
    (hfound (some c)).cons (by simp) (by simp)
  cases m with
  | none => exact .quiet hhandle
  | some m => exact hbody c m _ hhandle

theorem query_success (cmd : Bytes) (args : List Printf.Arg) :
    (CXEMySql.query cmd args).Follows (discipline rt) []
      fun a l => TextPost rt cmd args true a l :=
  locked_success fun _ _ _ h => queryOn_success h

theorem queryData_success (cmd : Bytes) (data : Option Nat) (args : List Printf.Arg) :
    (CXEMySql.queryData cmd data args).Follows (discipline rt) []
      fun a l => TextPost rt cmd args false a l :=
  locked_success fun _ _ _ h => queryDataOn_success h

/-! ## What the posts say of success -/

/-- `true` is right exactly when no lost connection has been restored, and what has been accepted is
`text`. -/
theorem TextPost.iff {cmd : Bytes} {args : List Printf.Arg} {a : Bool} {l : Trace}
    {text : Option Bytes} {fits : Prop} (h : TextPost rt cmd args true a l)
    (hfits : ∀ r : Bytes,
      (∀ q, Printf.format rt.conv cmd args = some q → r = q.take (rt.keeps 1023)) →
      (text = some (CString.cstr r) ↔ fits)) :
    (a = true → ∃ q, text = some q ∧ Accepted q l) ↔
      ¬ LostAndRestored l ∧ ((∃ q, Accepted q l) → fits) := by
  rcases h with ⟨r, hr, rfl, hacc, hlost⟩ | ⟨hacc, ha⟩
  · have hex : ∃ q, Accepted q l := ⟨_, (hacc _).mpr rfl⟩
    constructor
    · intro h
      obtain ⟨q, hq, hm⟩ := h rfl
      rw [(hacc q).mp hm] at hq
      exact ⟨hlost, fun _ => (hfits r hr).mp hq⟩
    · rintro ⟨-, h⟩ -
      exact ⟨_, (hfits r hr).mpr (h hex), (hacc _).mpr rfl⟩
  · rw [ha]
    constructor
    · intro h
      refine ⟨fun hl => ?_, fun ⟨q, hq⟩ => absurd hq (hacc q)⟩
      obtain ⟨q, -, hq⟩ := h hl
      exact hacc q hq
    · rintro ⟨h, -⟩ hl
      exact absurd hl h

/-- The text of a format is what the buffer holds, if it fits. -/
theorem format_eq_cstr_iff {cmd : Bytes} {args : List Printf.Arg} {r : Bytes}
    (hr : ∀ q, Printf.format rt.conv cmd args = some q → r = q.take (rt.keeps 1023)) :
    Printf.format rt.conv cmd args = some (CString.cstr r) ↔
      ∃ q, Printf.format rt.conv cmd args = some q ∧ FitsBuffer rt q := by
  cases hf : Printf.format rt.conv cmd args with
  | none => simp
  | some q =>
    rw [hr q hf]
    simp only [Option.some.injEq, exists_eq_left', ← cstr_take_eq_iff, eq_comm]

/-- A command that goes through printf without arguments arrives as it is, if it has no `%` and
fits. -/
theorem verbatim_eq_cstr_iff {cmd r : Bytes}
    (hr : ∀ q, Printf.format rt.conv cmd [] = some q → r = q.take (rt.keeps 1023)) :
    (Printf.format rt.conv cmd []).map (fun _ => cmd) = some (CString.cstr r) ↔
      Printf.percent ∉ cmd ∧ FitsBuffer rt cmd := by
  by_cases hp : Printf.percent ∈ cmd
  · refine iff_of_false ?_ fun h => h.1 hp
    intro h
    obtain ⟨q, hq, hc⟩ := Option.map_eq_some_iff.mp h
    exact Printf.cstr_take_ne hp hq _ (hr q hq ▸ hc.symm)
  · have hf : Printf.format rt.conv cmd [] = some cmd := Printf.format_of_no_percent hp []
    rw [hf, hr cmd hf, ← cstr_take_eq_iff]
    simp [hp, eq_comm]

/-- What a call ends with. -/
abbrev successFinal (rt : Runtime) (c : Call) (a : Bool) (l : Trace) : Prop :=
  (a = true → c.CommandAccepted rt l) ↔ c.Sound rt l

theorem code_success (rt : Runtime) (c : Call) :
    c.code.Follows (discipline rt) [] (successFinal rt c) := by
  cases c with
  | query cmd args =>
    exact (query_success cmd args).mono fun a l h => h.iff fun r hr => format_eq_cstr_iff hr
  | queryData cmd data args =>
    refine (queryData_success cmd data args).mono fun a l h => ?_
    rcases h with ⟨r, -, rfl, -, hlost⟩ | ⟨hacc, ha⟩
    · exact iff_of_true (by simp) hlost
    · rw [successFinal, ha]
      constructor
      · intro h hl
        obtain ⟨q, -, hq⟩ := h hl
        exact hacc q hq
      · exact fun h hl => absurd hl h
  | queryBlob cmd d =>
    rcases d with _ | d
    · refine (query_success cmd []).mono fun a l h => ?_
      rw [successFinal, Call.Sound, ← h.iff (fun r hr => verbatim_eq_cstr_iff hr)]
      simp only [Call.CommandAccepted, Option.map_eq_some_iff, Option.isSome_iff_exists]
      refine imp_congr_right fun _ => ⟨?_, ?_⟩
      · rintro ⟨⟨q, hq⟩, hm⟩
        exact ⟨cmd, ⟨q, hq, rfl⟩, hm⟩
      · rintro ⟨_, ⟨q, hq, rfl⟩, hm⟩
        exact ⟨⟨q, hq⟩, hm⟩
    · refine (queryBlob_recorded (texts_nil cmd) d).mono fun a l h => ?_
      exact iff_of_true h trivial
  | _ => exact (code_recorded rt _).mono fun _ _ _ => iff_of_true (fun _ => trivial) trivial

end

/-! ## Whole runs -/

/-- **What `true` means**: in every run, a call that returns `true` has had its command accepted
exactly when it is sound to say so. -/
theorem success_iff (rt : Runtime) {s₀ : State} {s : Sys}
    (h : (machine rt).Reach (fun _ _ => True) s₀ s) {t : Tid} {c : Call} {a : Bool}
    (ht : s.thread t = .running c (.ret a)) :
    (a = true → c.CommandAccepted rt (callTrace t s.hist)) ↔ c.Sound rt (callTrace t s.hist) := by
  have hf := (record_kept rt s₀ (code_success rt)).atReturn h ht
  rwa [Discipline.view_recording] at hf

/-- A client makes one call, and this is what the environment answers. -/
def oneCall (c : Call) (os : List Outcome) : List (Label Tid Call Outcome) :=
  .call (.client 0) c :: os.map (.act (.client 0))

theorem allowed_oneCall (c : Call) (os : List Outcome) :
    Machine.Allowed (fun _ _ => True) (oneCall c os) := fun _ _ _ _ _ => trivial

/-- A query that succeeds, and what is said of it. -/
theorem success_of_query : ∃ s : Sys,
    (machine .standard).Reach (fun _ _ => True) (.small 1 0) s ∧
    s.thread (.client 0) = .running (.query [113] []) (.ret true) ∧
    ((true = true → (Call.query [113] []).CommandAccepted .standard
        (callTrace (.client 0) s.hist)) ↔
      (Call.query [113] []).Sound .standard (callTrace (.client 0) s.hist)) := by
  have hrun : ((machine .standard).run (oneCall (.query [113] []) (List.replicate 7 .success))
      (.init (.small 1 0))).map
      (fun s => (s.thread (.client 0)).returning) = some (some (.query [113] [], true)) := by
    decide
  obtain ⟨s, hs, hr⟩ := Option.map_eq_some_iff.mp hrun
  have hreach : (machine .standard).Reach (fun _ _ => True)
      (.small 1 0) s :=
    Machine.Reach.init.run (allowed_oneCall _ _) hs
  have ht := Thread.returning_eq_some hr
  exact ⟨s, hreach, ht, success_iff .standard hreach ht⟩

/-- The query an answer has accepted. -/
def Answer.accepts : Answer Op Op.Reply → Option Bytes
  | ⟨.lib (.realQuery _ q), true⟩ => some q
  | _ => none

theorem Accepted.mem {q : Bytes} {l : Trace} (h : Accepted q l) :
    q ∈ l.filterMap Answer.accepts :=
  let ⟨_, hm⟩ := h
  List.mem_filterMap.mpr ⟨_, hm, rfl⟩

/-- The server has gone away (2006), and a connection to it can be made again: the query returns
`true`, and the server has never seen it. -/
theorem lost_and_restored : ∃ s : Sys,
    (machine .standard).Reach (fun _ _ => True) (.small 1 0) s ∧
    s.thread (.client 0) = .running (.query [113] []) (.ret true) ∧
    ¬ (Call.query [113] []).CommandAccepted .standard (callTrace (.client 0) s.hist) := by
  have hrun : ((machine .standard).run
      (oneCall (.query [113] [])
        (List.replicate 3 .success ++ { ok := false, number := 2006 } :: List.replicate 11 .success))
      (.init (.small 1 0))).map
      (fun s => ((s.thread (.client 0)).returning,
        (callTrace (.client 0) s.hist).filterMap Answer.accepts))
      = some (some (.query [113] [], true), []) := by
    decide
  obtain ⟨s, hs, hr⟩ := Option.map_eq_some_iff.mp hrun
  obtain ⟨hret, hnone⟩ := Prod.mk.inj hr
  refine ⟨s, Machine.Reach.init.run (allowed_oneCall _ _) hs, Thread.returning_eq_some hret, ?_⟩
  rintro ⟨q, -, hq⟩
  have hm := hq.mem
  rw [hnone] at hm
  cases hm

end XeMySql
