import XeMySql.LogCode

/-!
# A `CLogFile` that threads share

Any threads call the functions of a log file, and the scheduler may change from one to another at
every request and every access to a field.

* `serialized` — what happens is what would happen if they called one after the other
* `lines_whole` — a call of `OutPutString` is one line, and lines are not mixed
-/

namespace XeMySql

open Interact

namespace CLogFile

variable {rt : Runtime} {x x' : CLogFile} {s s' : Stdio} {l l' : LogTrace}

/-! ## One call after the other -/

/-- One call more. -/
theorem Calls.snoc {calls : List (Call × CLogFile × Stdio)} {x₁ : CLogFile} {s₁ : Stdio} {l₁ : LogTrace}
    (h : Calls rt x s l calls x₁ s₁ l₁) {c : Call}
    (hc : (c.code x₁).Runs (LogOp.exec rt) s₁ l₁ x' s' l') :
    Calls rt x s l (calls ++ [(c, x₁, s₁)]) x' s' l' := by
  induction h with
  | nil => exact .cons c hc .nil
  | cons d hd _ ih => exact .cons d hd (ih hc)

/-- A function in one step. -/
def atOnce (rt : Runtime) {ι : Type} (_ : ι) (c : Call) (os : List LogOutcome)
    (xs : CLogFile × Stdio) : Option ((CLogFile × Stdio) × Option Bool) :=
  match (c.codeWith xs.1).drive (LogOp.exec rt) os xs.2 with
  | some (.ret (a, x'), s') => some ((x', s'), a)
  | _ => none

theorem runs_of_atOnce {ι : Type} {t : ι} {c : Call} {os : List LogOutcome} {a : Option Bool}
    (h : atOnce rt t c os (x, s) = some ((x', s'), a)) (l : LogTrace) :
    ∃ l', (c.code x).Runs (LogOp.exec rt) s l x' s' l' := by
  simp only [atOnce] at h
  split at h
  · next hd =>
    cases h
    obtain ⟨l', hr⟩ := Prog.runs_of_drive hd l
    rw [Call.codeWith_code]
    exact ⟨l', hr.bind .ret⟩
  · cases h

/-- **Run to its end, a function does what `Log.lean` says.** -/
theorem implements (rt : Runtime) (ι : Type) : (monitor rt ι).Implements (atOnce rt) := by
  rintro t c os ⟨x, s⟩ a ⟨x', s'⟩ hd
  have herase : ((monitor rt ι).body t c).erase = body c := MonitorCode.erase_inside _
  rw [herase] at hd
  obtain ⟨l', hr⟩ := Prog.runs_of_drive hd []
  have hthrough : (through (body c) x).Runs (LogOp.exec rt) s [] (a, x') s' (worldAnswers l') :=
    hr.passing
  rw [through_body] at hthrough
  obtain ⟨os', hd'⟩ := hthrough.drive
  exact ⟨os', by simp only [atOnce, hd']⟩

theorem calls_of_serial {ι : Type} {order : List (ι × Call × Option Bool)} {xs xs' : CLogFile × Stdio}
    (h : Monitor.Serial (atOnce rt) xs order xs') :
    ∃ calls l, Calls rt xs.1 xs.2 [] calls xs'.1 xs'.2 l ∧
      calls.map Prod.fst = order.reverse.map fun (_, c, _) => c := by
  induction h with
  | init => exact ⟨[], [], .nil, rfl⟩
  | @step order xs₁ t c os xs' a _ hs ih =>
    obtain ⟨calls, l, hcalls, hmap⟩ := ih
    obtain ⟨l', hr⟩ := runs_of_atOnce hs l
    refine ⟨calls ++ [(c, xs₁)], l', hcalls.snoc hr, ?_⟩
    rw [List.map_append, hmap, List.reverse_cons, List.map_append]
    rfl

/-- The state of a run, line by line. -/
abbrev FileSys (ι : Type) : Type :=
  Machine.Sys ι Call (MonitorOp FileOp) (MonitorOp.Reply FileOp.Reply) (Option Bool)
    (Lock ι × CLogFile × Stdio)

section

variable {ι : Type} [DecidableEq ι] {ok : ι → Call → Prop}

/-- **Calls are serialized.** The calls and returns of any run are those of a run in which each call is
one step. These steps are a sequence of calls as `Log.lean` has them, with what each thread has
returned in its order, and while nobody holds `m_cs` it has led to the same object and files. -/
theorem serialized {s : FileSys ι} (h : (monitor rt ι).machine.Reach ok (.free, x, s') s) :
    ∃ s₁, (Monitor.atomic (atOnce rt)).Reach ok (x, s') s₁ ∧ observed s₁.hist = observed s.hist ∧
      (s.shared.1 = .free → s₁.shared = s.shared.2) ∧
      (∃ calls l, Calls rt x s' [] calls s₁.shared.1 s₁.shared.2 l ∧
        calls.map Prod.fst = (Monitor.served s₁.hist).reverse.map fun (_, c, _) => c) ∧
      ∀ t, s.thread t = .idle →
        Monitor.callsOf t (Monitor.served s₁.hist) = Monitor.returned t (observed s.hist) := by
  obtain ⟨s₁, h₁, hobs, hfree, hidle⟩ := Monitor.refines_atomic (implements rt ι) h
  refine ⟨s₁, h₁, hobs, hfree, calls_of_serial (Monitor.atomic_serial h₁), fun t ht => ?_⟩
  have hret := (Monitor.atomic_returned h₁ t).1
  rw [hidle t ht, hobs] at hret
  exact hret

end

/-- Two threads write a line each; the second waits for the first. -/
theorem twoLines : ∃ s : FileSys Bool, (monitor .printing Bool).machine.Reach (fun _ _ => True)
    (.free, { m_pFile := some 0 }, {}) s ∧ s.shared.1 = .free ∧
      s.shared.2.2.written.map Prod.snd = [logLine {} [98], logLine {} [97]] := by
  let first : Label Bool Call LogOutcome := .act true {}
  let second : Label Bool Call LogOutcome := .act false {}
  let acts : List (Label Bool Call LogOutcome) :=
    [.call true (.outPutString [97] []), .call false (.outPutString [98] []), first, second]
      ++ List.replicate 12 first ++ List.replicate 13 second
  have hrun : ((monitor .printing Bool).machine.run acts
      (.init (.free, { m_pFile := some 0 }, {}))).map
        (fun s => (s.shared.1, s.shared.2.2.written.map Prod.snd))
      = some (.free, [logLine {} [98], logLine {} [97]]) := by
    decide +kernel
  obtain ⟨s, hs, hl⟩ := Option.map_eq_some_iff.mp hrun
  exact ⟨s, Machine.Reach.init.run (fun _ _ _ _ _ => trivial) hs, congrArg Prod.fst hl,
    congrArg Prod.snd hl⟩

theorem serialized_twoLines : ∃ calls x s l,
    Calls .printing { m_pFile := some 0 } {} [] calls x s l ∧
      s.written.map Prod.snd = [logLine {} [98], logLine {} [97]] := by
  obtain ⟨s, hr, hfree, hw⟩ := twoLines
  obtain ⟨s₁, -, -, hsh, ⟨calls, l, hcalls, -⟩, -⟩ := serialized hr
  rw [hsh hfree] at hcalls
  exact ⟨calls, _, _, l, hcalls, hw⟩

/-! ## Lines -/

/-- There is a file, and it is open: `Close` leaves one that it has closed. -/
def hasFile (x : CLogFile) (s : Stdio) : Bool := x.m_pFile.any fun f => !s.closed f

/-- The calls of `OutPutString` that have found a file open, with what they have been given. -/
def outputs (calls : List (Call × CLogFile × Stdio)) : List (Bytes × List Printf.Arg) :=
  calls.filterMap fun
    | (.outPutString str args, x, s) => if x.hasFile s then some (str, args) else none
    | _ => none

/-- A line with a time and the message that `vsnprintf` makes of the arguments. -/
def LineOf (rt : Runtime) (line : Bytes × Bytes) (call : Bytes × List Printf.Arg) : Prop :=
  ∃ t szMsg, (∃ o s, (LogOp.vsnprintf 4096 call.1 call.2).exec rt o s = some (s, some szMsg)) ∧
    line.2 = logLine t szMsg

/-- No request to print to a file. -/
def Silent : LogOp → Prop
  | .fprintf _ _ _ => False
  | _ => True

/-- Code that prints nothing to a file leaves what is written as it is. -/
theorem written_eq {α : Type} {p : LogCode α} {a : α}
    (hp : p.Only Silent) (h : p.Runs (LogOp.exec rt) s l a s' l') : s'.written = s.written := by
  induction h with
  | ret => rfl
  | @reply e k s l a s' l' o s₁ r he h ih =>
    refine (ih (hp.2 r)).trans ?_
    cases e with
    | fprintf f fmt args => exact hp.1.elim
    | vsnprintf n fmt args =>
      simp only [LogOp.exec] at he
      split at he <;> cases he <;> rfl
    | sprintf n fmt args =>
      simp only [LogOp.exec] at he
      split at he
      · split at he <;> cases he
        rfl
      · cases he
        rfl
    | fopen path =>
      simp only [LogOp.exec] at he
      split at he <;> cases he <;> rfl
    | _ =>
      cases he
      rfl
  | wait o he h ih => exact absurd he LogOp.exec_ne_wait

theorem only_logReq {e : LogOp} (he : Silent e) : (logReq e).Only Silent := ⟨he, fun _ => trivial⟩

theorem only_fopenByDate (name : Bytes) (t : SYSTEMTIME) : (fopenByDate name t).Only Silent :=
  ⟨trivial, fun _ => ⟨trivial, fun _ => trivial⟩⟩

theorem only_openFile (x : CLogFile) : x.openFile.Only Silent := by
  refine Prog.only_bind (only_fopenByDate _ _) fun m => ?_
  cases m with
  | none => trivial
  | some f => exact ⟨trivial, fun _ => trivial⟩

theorem only_open (x : CLogFile) (szFile : Bytes) : (x.Open szFile).Only Silent := by
  have hclose : x.closeOld.Only Silent := by
    unfold closeOld
    cases x.m_pFile with
    | none => trivial
    | some f => exact ⟨trivial, fun _ => trivial⟩
  have hmake : makeDirectory.Only Silent := by
    refine ⟨trivial, fun b => ?_⟩
    cases b with
    | true => trivial
    | false => exact ⟨trivial, fun _ => trivial⟩
  exact Prog.only_bind hclose fun _ => Prog.only_bind (only_logReq trivial) fun _ =>
    Prog.only_bind hmake fun _ => only_openFile _

theorem only_dump (x : CLogFile) (szMsg : Bytes) : (x.dump szMsg).Only Silent := by
  unfold dump
  cases x.m_pDumpFunc with
  | none => trivial
  | some func => exact ⟨trivial, fun _ => trivial⟩

theorem only_fFlush (x : CLogFile) : x.fFlush.Only Silent := by
  unfold fFlush
  cases x.m_pFile with
  | none => trivial
  | some f => exact ⟨trivial, fun _ => ⟨trivial, fun _ => trivial⟩⟩

theorem only_close (x : CLogFile) : x.close.Only Silent := by
  unfold close
  cases x.m_pFile with
  | none => trivial
  | some f => exact ⟨trivial, fun _ => ⟨trivial, fun _ => trivial⟩⟩

/-- `OutPutString` without a file. -/
theorem only_outPutString (hf : x.m_pFile = none) (str : Bytes) (args : List Printf.Arg) :
    (x.outPutString str args).Only Silent := by
  refine Prog.only_bind (only_logReq trivial) fun szMsg => Prog.only_bind (only_dump x szMsg)
    fun _ => Prog.only_bind (only_logReq trivial) fun xSys => ?_
  rw [hf]
  trivial

/-- A line for a FILE that has been closed is not written. -/
theorem writeLine_closed {f : Nat} (hclosed : s.closed f = true) (szMsg : Bytes) (t : SYSTEMTIME) :
    (x.writeLine f szMsg t).Always (LogOp.exec rt) s l fun _ s' _ => s'.written = s.written := by
  refine always_log fun o s₁ _ he => ?_
  simp only [LogOp.exec, hclosed, if_true] at he
  cases he
  rw [Prog.bind_ret]
  refine fun _ _ _ hr => written_eq ?_ hr
  split
  · exact Prog.only_bind (only_logReq trivial) fun _ => Prog.only_bind (only_fopenByDate _ _) fun _ =>
      ⟨trivial, fun _ => trivial⟩
  · refine Prog.only_bind (only_logReq trivial) fun tick => ?_
    split
    · exact ⟨trivial, fun _ => ⟨trivial, fun _ => trivial⟩⟩
    · trivial

theorem outPutString_closed {f : Nat} (hf : x.m_pFile = some f) (hclosed : s.closed f = true)
    (str : Bytes) (args : List Printf.Arg) : (x.outPutString str args).Always (LogOp.exec rt) s l
      fun _ s' _ => s'.written = s.written := by
  refine always_log fun o s₁ szMsg he => ?_
  obtain rfl : s₁ = s := by
    simp only [LogOp.exec] at he
    split at he <;> cases he <;> rfl
  refine (dump_always x szMsg).bind ?_
  rintro _ _ l₁ ⟨rfl, -⟩
  refine always_log fun o' s₂ t he' => ?_
  cases he'
  rw [Prog.bind_ret, hf]
  exact writeLine_closed hclosed szMsg o'.time

/-- A call that finds no file open writes no line. -/
theorem no_line {c : Call} (h : outputs [(c, x, s)] = [])
    (hc : (c.code x).Runs (LogOp.exec rt) s l x' s' l') : s'.written = s.written := by
  cases c with
  | Open szFile =>
    have honly : (Call.code x (.Open szFile)).Only Silent :=
      Prog.only_bind (only_open x szFile) fun _ => trivial
    exact written_eq honly hc
  | outPutString str args =>
    cases hf : x.m_pFile with
    | none => exact written_eq (only_outPutString hf str args) hc
    | some f =>
      have hclosed : s.closed f = true := by simpa [outputs, hasFile, hf] using h
      exact outPutString_closed hf hclosed str args _ _ _ hc
  | fFlush => exact written_eq (only_fFlush x) hc
  | close => exact written_eq (only_close x) hc

/-- **One line for each call**, in the order of the calls. -/
theorem Calls.lines (hrt : rt.PrintsLog) {calls : List (Call × CLogFile × Stdio)}
    (h : Calls rt x s l calls x' s' l') :
    ∃ lines, s'.written = lines ++ s.written ∧
      List.Forall₂ (LineOf rt) lines (outputs calls).reverse := by
  induction h with
  | nil => exact ⟨[], rfl, .nil⟩
  | @cons x s l x₁ s₁ l₁ calls x' s' l' c hc hs ih =>
    obtain ⟨lines, hw, hlines⟩ := ih
    have hsplit : outputs ((c, x, s) :: calls) = outputs [(c, x, s)] ++ outputs calls :=
      List.filterMap_append (l := [(c, x, s)])
    rw [hsplit, List.reverse_append]
    by_cases hout : outputs [(c, x, s)] = []
    · rw [hout, List.reverse_nil, List.append_nil]
      exact ⟨lines, by rw [hw, no_line hout hc], hlines⟩
    · cases c with
      | outPutString str args =>
        cases hf : x.m_pFile with
        | none => simp [outputs, hasFile, hf] at hout
        | some f =>
          have hopen : s.closed f = false := by simpa [outputs, hasFile, hf] using hout
          obtain ⟨t, szMsg, ⟨o, he⟩, -, hw₁, -⟩ :=
            outPutString_always hrt hf hopen str args x₁ s₁ l₁ hc
          refine ⟨lines ++ [(s.path f, logLine t szMsg)], ?_, ?_⟩
          · rw [hw, hw₁, List.append_assoc, List.singleton_append]
          · have hone : outputs [(.outPutString str args, x, s)] = [(str, args)] := by
              simp [outputs, hasFile, hf, hopen]
            rw [hone]
            exact List.rel_append hlines (.cons ⟨t, szMsg, ⟨o, s, he⟩, rfl⟩ .nil)
      | _ => exact absurd rfl hout

/-- **Lines are whole.** While nobody holds `m_cs`, the files have one line for each call of
`OutPutString` that has found a file open, of that call and of no other, in the order in which the
calls have been served. (A FILE that `Close` has closed is not open.) -/
theorem lines_whole (hrt : rt.PrintsLog) {ι : Type} [DecidableEq ι] {ok : ι → Call → Prop}
    {sys : FileSys ι} (h : (monitor rt ι).machine.Reach ok (.free, x, s) sys)
    (hfree : sys.shared.1 = .free) :
    ∃ order calls lines, (calls.map Prod.fst = order.reverse.map fun (_, c, _) => c) ∧
      sys.shared.2.2.written = lines ++ s.written ∧
      List.Forall₂ (LineOf rt) lines (outputs calls).reverse ∧
      ∀ t, sys.thread t = .idle →
        Monitor.callsOf t order = Monitor.returned t (observed sys.hist) := by
  obtain ⟨s₁, h₁, hobs, hsh, ⟨calls, l, hcalls, hmap⟩, hreturned⟩ := serialized h
  obtain ⟨lines, hw, hlines⟩ := hcalls.lines hrt
  refine ⟨Monitor.served s₁.hist, calls, lines, hmap, ?_, hlines, hreturned⟩
  rw [← hsh hfree]
  exact hw

theorem lines_whole_twoLines : ∃ calls lines,
    lines.map Prod.snd = [logLine {} [98], logLine {} [97]] ∧
      List.Forall₂ (LineOf .printing) lines (outputs calls).reverse := by
  obtain ⟨s, hr, hfree, hw⟩ := twoLines
  obtain ⟨order, calls, lines, -, hlines, hall, -⟩ := lines_whole printsLog_printing hr hfree
  rw [hlines, List.append_nil] at hw
  exact ⟨calls, lines, hw, hall⟩

end CLogFile

end XeMySql
