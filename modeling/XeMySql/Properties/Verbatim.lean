import XeMySql.Log
import XeMySql.Requests

/-!
# Messages in the log

`oLog` formats a message, and `CLogFile::OutPutString` takes the text for a format once more. A text
that is given to `OutPutDBStr` as it is, is formatted twice.

* `outPut_appends`, `outPut_runs` — what is written is the text formatted without arguments
* `verbatim_iff` — when a message stands in the log as it has been formatted, and an SQL text as it
  has been sent
* `percent_lost` — the pattern of a `LIKE`
-/

namespace XeMySql

open Interact Printf

section

variable {rt : Runtime} {st : Stdio} {l : LogTrace} {fmt text : Bytes} {args : List Arg}

/-- A text that fits into the buffer. -/
theorem exec_vsnprintf {n : Nat} (htext : format rt.conv fmt args = some text)
    (hlen : text.length < n) (o : LogOutcome) :
    (LogOp.vsnprintf n fmt args).exec rt o st = some (st, some (CString.cstr text)) := by
  have hkeeps : text.take (rt.keeps n) = text := by
    have hle := rt.pred_le_keeps n
    exact List.take_of_length_le (by omega)
  simp only [LogOp.exec, htext, Runtime.buffered, hkeeps, hlen, if_true]

/-- A text that is printed without arguments may get shorter, and does with a `%`. -/
theorem exec_vsnprintf_nil (rt : Runtime) (st : Stdio) {s : Bytes} (hlen : s.length < 4096) :
    ∃ o m, (LogOp.vsnprintf 4096 s []).exec rt o st = some (st, some m) ∧ m.length ≤ s.length ∧
      (percent ∈ s → m.length < s.length) := by
  cases htext : format rt.conv s [] with
  | none =>
    refine ⟨{}, [], by simp [LogOp.exec, htext, CString.cstr], Nat.zero_le _, fun hp => ?_⟩
    exact List.length_pos_of_mem hp
  | some text =>
    have hle : text.length ≤ s.length := formatFrom_nil_length htext
    have hcstr := CString.length_cstr_le text
    refine ⟨{}, _, exec_vsnprintf htext (by omega) _, by omega, fun hp => ?_⟩
    have hlt := format_nil_length_lt hp htext
    omega

/-- The request that writes a line. -/
def lineOp (f : Nat) (t : SYSTEMTIME) (szMsg : Bytes) : LogOp :=
  .fprintf f lineFormat [.int t.wYear, .int t.wMonth, .int t.wDay, .int t.wHour, .int t.wMinute,
    .int t.wSecond, .str szMsg]

theorem exec_lineOp (hrt : rt.PrintsLog) {f : Nat} (hopen : st.closed f = false) (t : SYSTEMTIME)
    (szMsg : Bytes) (o : LogOutcome) : (lineOp f t szMsg).exec rt o st
      = some ({ st with written := (st.path f, logLine t szMsg) :: st.written }, some ()) := by
  refine (LogOp.exec_fprintf hopen _ _ _).trans ?_
  rw [format_line hrt]
  rfl

/-- A line that is written on the day of `Open`, when it is not yet time to flush. -/
theorem CLogFile.writeLine_runs (hrt : rt.PrintsLog) (cf : CLogFile) {f : Nat}
    (hopen : st.closed f = false) (szMsg : Bytes) : (cf.writeLine f szMsg cf.m_xDate).Runs (LogOp.exec rt) st l cf
      { st with written := (st.path f, logLine cf.m_xDate szMsg) :: st.written }
      (⟨.getTickCount, cf.m_dwLastTime⟩ :: ⟨lineOp f cf.m_xDate szMsg, ()⟩ :: l) := by
  refine .reply {} (exec_lineOp hrt hopen cf.m_xDate szMsg _) ?_
  rw [if_neg (by simp)]
  refine .reply { tick := cf.m_dwLastTime } rfl ?_
  rw [Prog.bind_ret, if_neg (by simp)]
  exact .ret

theorem CLogFile.dump_runs (rt : Runtime) (st : Stdio) (l : LogTrace) (cf : CLogFile)
    (szMsg : Bytes) : ∃ l₁, (cf.dump szMsg).Runs (LogOp.exec rt) st l () st l₁ ∧ times l₁ = times l := by
  unfold dump
  cases cf.m_pDumpFunc with
  | none => exact ⟨l, .ret, rfl⟩
  | some func => exact ⟨_, .reply {} rfl .ret, rfl⟩

namespace oLog

variable {x : oLog} {i : oLog.Field} {cf : CLogFile} {f : Nat}

/-- However the code runs, it appends the line of `s` to the file at `path`, and nothing else. -/
def Appends (rt : Runtime) (p : LogCode oLog) (st : Stdio) (l : LogTrace) (path s : Bytes) : Prop :=
  p.Always (LogOp.exec rt) st l fun _ st' l' =>
    ∃ t, times l' = t :: times l ∧ st'.written = (path, logLine t s) :: st.written

/-- A message without `%` is written as it is. -/
theorem outPut_appends (hrt : rt.PrintsLog) (hfile : x.file i = some cf) (hf : cf.m_pFile = some f)
    (hopen : st.closed f = false) (htext : format rt.conv fmt args = some text) (hlen : text.length < 4096)
    (hp : percent ∉ CString.cstr text) :
    Appends rt (x.outPut i fmt args) st l (st.path f) (CString.cstr text) := by
  refine always_log fun o s₁ szMsg he => ?_
  rw [exec_vsnprintf htext hlen] at he
  cases he
  rw [Prog.bind_ret, hfile]
  refine (CLogFile.outPutString_always hrt hf hopen _ []).bind ?_
  rintro x' s' l' ⟨t, szMsg, ⟨o', he'⟩, hl', hw', -⟩
  have hlen' : (CString.cstr text).length < 4096 :=
    Nat.lt_of_le_of_lt (CString.length_cstr_le text) hlen
  rw [exec_vsnprintf (format_of_no_percent hp []) hlen',
    CString.cstr_of_nulFree (CString.nulFree_cstr text)] at he'
  cases he'
  exact Prog.always_ret ⟨t, hl', hw'⟩

/-- A run that writes what the second formatting makes of the text `m`. -/
theorem outPut_runs (hrt : rt.PrintsLog) (hfile : x.file i = some cf) (hf : cf.m_pFile = some f)
    (hopen : st.closed f = false) {m m' : Bytes} {o o' : LogOutcome}
    (he : (LogOp.vsnprintf 4096 fmt args).exec rt o st = some (st, some m))
    (he' : (LogOp.vsnprintf 4096 m []).exec rt o' st = some (st, some m')) :
    ∃ x' st' l', (x.outPut i fmt args).Runs (LogOp.exec rt) st l x' st' l' ∧
      ∃ t, times l' = t :: times l ∧ st'.written = (st.path f, logLine t m') :: st.written := by
  obtain ⟨l₁, hdump, hl₁⟩ := CLogFile.dump_runs rt st
    (⟨.vsnprintf 4096 m [], m'⟩ :: ⟨.vsnprintf 4096 fmt args, m⟩ :: l) cf m'
  have hstring : (cf.outPutString m []).Runs (LogOp.exec rt) st (⟨.vsnprintf 4096 fmt args, m⟩ :: l) cf
      { st with written := (st.path f, logLine cf.m_xDate m') :: st.written }
      (⟨.getTickCount, cf.m_dwLastTime⟩ :: ⟨lineOp f cf.m_xDate m', ()⟩ ::
        ⟨.getSystemTime, cf.m_xDate⟩ :: l₁) := by
    refine .reply o' he' (hdump.bind (.reply { time := cf.m_xDate } rfl ?_))
    rw [Prog.bind_ret, hf]
    exact cf.writeLine_runs hrt hopen m'
  have hrun : (x.outPut i fmt args).Runs (LogOp.exec rt) st l ⟨Function.update x.file i (some cf)⟩
      { st with written := (st.path f, logLine cf.m_xDate m') :: st.written }
      (⟨.getTickCount, cf.m_dwLastTime⟩ :: ⟨lineOp f cf.m_xDate m', ()⟩ ::
        ⟨.getSystemTime, cf.m_xDate⟩ :: l₁) := by
    refine .reply o he ?_
    rw [Prog.bind_ret, hfile]
    exact hstring.bind .ret
  exact ⟨_, _, _, hrun, cf.m_xDate, congrArg (cf.m_xDate :: ·) hl₁, rfl⟩

/-- Only one message is written. -/
theorem Appends.eq_of_runs {p : LogCode oLog} {path m s : Bytes} (h : Appends rt p st l path s)
    {x' : oLog} {st' : Stdio} {l' : LogTrace} (hrun : p.Runs (LogOp.exec rt) st l x' st' l')
    {t : SYSTEMTIME} (hl' : times l' = t :: times l)
    (hw' : st'.written = (path, logLine t m) :: st.written) : s = m := by
  obtain ⟨t', hl, hw⟩ := h _ _ _ hrun
  rw [hl'] at hl
  rw [hw'] at hw
  obtain rfl : t = t' := (List.cons.inj hl).1
  have hline : logLine t m = logLine t s := (Prod.mk.inj (List.cons.inj hw).1).2
  unfold logLine at hline
  exact (List.append_cancel_left (List.append_cancel_right hline)).symm

/-- **When a message stands in the log as it has been formatted.** -/
theorem outPut_appends_iff (hrt : rt.PrintsLog) (hfile : x.file i = some cf)
    (hf : cf.m_pFile = some f) (hopen : st.closed f = false)
    (htext : format rt.conv fmt args = some text) (hlen : text.length < 4096) :
    Appends rt (x.outPut i fmt args) st l (st.path f) (CString.cstr text) ↔
      percent ∉ CString.cstr text := by
  constructor
  · intro h hp
    have hlen' : (CString.cstr text).length < 4096 :=
      Nat.lt_of_le_of_lt (CString.length_cstr_le text) hlen
    obtain ⟨o, m, he, -, hlt⟩ := exec_vsnprintf_nil rt st hlen'
    obtain ⟨x', st', l', hrun, t, hl', hw'⟩ :=
      outPut_runs (l := l) hrt hfile hf hopen (exec_vsnprintf htext hlen {}) he
    have hlt := hlt hp
    rw [h.eq_of_runs hrun hl' hw'] at hlt
    exact Nat.lt_irrefl _ hlt
  · exact outPut_appends hrt hfile hf hopen htext hlen

/-- **When a text that is a message itself stands in the log as it is.** -/
theorem outPut_nil_appends_iff (hrt : rt.PrintsLog) (hfile : x.file i = some cf)
    (hf : cf.m_pFile = some f) (hopen : st.closed f = false) {q : Bytes} (hq : CString.NulFree q) (hlen : q.length < 4096) :
    Appends rt (x.outPut i q []) st l (st.path f) q ↔ percent ∉ q := by
  constructor
  · intro h hp
    obtain ⟨o, m, he, -, hlt⟩ := exec_vsnprintf_nil rt st hlen
    have hlt := hlt hp
    obtain ⟨o', m', he', hle, -⟩ := exec_vsnprintf_nil rt st (s := m) (by omega)
    obtain ⟨x', st', l', hrun, t, hl', hw'⟩ := outPut_runs (l := l) hrt hfile hf hopen he he'
    rw [h.eq_of_runs hrun hl' hw'] at hlt
    omega
  · intro hp
    have hcstr := CString.cstr_of_nulFree hq
    have h : Appends rt (x.outPut i q []) st l (st.path f) (CString.cstr q) :=
      outPut_appends hrt hfile hf hopen (format_of_no_percent hp []) hlen (by rwa [hcstr])
    rwa [hcstr] at h

end oLog

end

/-! ## Which texts are logged -/

/-- What is known are the texts that have been accepted as queries; no other text is logged. -/
def Logging : Discipline Op Op.Reply (List Bytes) where
  may l e := ∀ q, e = .rt (.outPutDBStr q) → q ∈ l
  can _ _ _ := True
  next l e r :=
    match e, r with
    | .lib (.realQuery _ q), true => q :: l
    | _, _ => l

/-- Requests that neither send nor log a text. -/
def Unlogged : Op → Prop
  | .lib (.realQuery _ _) => False
  | .rt (.outPutDBStr _) => False
  | _ => True

theorem Unlogged.may {e : Op} (h : Unlogged e) (l : List Bytes) : Logging.may l e := by
  rintro q rfl
  exact h.elim

theorem Unlogged.next {e : Op} (h : Unlogged e) (l : List Bytes) (r : e.Reply) :
    Logging.next l e r = l := by
  cases e with
  | lib e => cases e <;> first | exact h.elim | rfl
  | _ => rfl

/-- Code that makes no other requests. -/
theorem unlogged_logging {α : Type} {p : Code α} (h : p.Only Unlogged) (l : List Bytes) :
    p.Follows Logging l fun _ _ => True :=
  (h.follows (fun _ he => he.may l) fun _ he r => he.next l r).mono fun _ _ _ => trivial

theorem reconnect_unlogged (c : Nat) : (CXEMySqlCon.reconnect c).Only Unlogged := by
  refine ⟨trivial, fun r => ?_⟩
  cases r with
  | none => exact ⟨trivial, fun r => nomatch r⟩
  | some temp =>
    refine ⟨trivial, fun p => ⟨trivial, fun ok => ?_⟩⟩
    cases ok with
    | false => exact ⟨trivial, fun _ => ⟨trivial, fun _ => trivial⟩⟩
    | true =>
      refine ⟨trivial, fun m => ?_⟩
      cases m with
      | none => exact ⟨trivial, fun _ => trivial⟩
      | some h => exact ⟨trivial, fun _ => ⟨trivial, fun _ => trivial⟩⟩

theorem queryFailed_unlogged (c h : Nat) (szQuery : Bytes) :
    (CXEMySql.queryFailed c h szQuery).Only Unlogged := by
  refine ⟨trivial, fun _ => ⟨trivial, fun _ => ⟨trivial, fun _ => ⟨trivial, fun n => ?_⟩⟩⟩⟩
  show (CXEMySql.handleError c n).Only Unlogged
  unfold CXEMySql.handleError
  split
  · exact reconnect_unlogged c
  · trivial

/-- A text is sent, and logged when it has been accepted. -/
theorem sent_logging {α : Type} (cmd : Bytes) (args : List Arg) (h : Nat) (l : List Bytes)
    {accepted refused : Bytes → Code α} (hacc : ∀ q, (accepted q).Only Unlogged)
    (href : ∀ q, (refused q).Only Unlogged) :
    (do
      let szQuery ← CXEMySql.formatQuery cmd args
      if ← req (.lib (.realQuery h szQuery)) then do
        req (.rt (.outPutDBStr szQuery))
        accepted szQuery
      else refused szQuery : Code α).Follows Logging l fun _ _ => True := by
  refine ⟨nofun, fun szQuery _ => ⟨nofun, fun ok _ => ?_⟩⟩
  cases ok with
  | false => exact unlogged_logging (href _) _
  | true =>
    refine ⟨fun q hq => ?_, fun _ _ => unlogged_logging (hacc _) _⟩
    cases hq
    exact List.mem_cons_self

theorem queryOn_logging (c h : Nat) (cmd : Bytes) (args : List Arg) (l : List Bytes) :
    (CXEMySql.queryOn c h cmd args).Follows Logging l fun _ _ => True :=
  sent_logging cmd args h l (fun _ => ⟨trivial, fun _ => trivial⟩) fun q => queryFailed_unlogged c h q

theorem queryDataOn_logging (c h : Nat) (cmd : Bytes) (data : Option Nat) (args : List Arg)
    (l : List Bytes) : (CXEMySql.queryDataOn c h cmd data args).Follows Logging l fun _ _ => True := by
  rw [CXEMySql.queryDataOn_eq]
  refine sent_logging cmd args h l (fun _ => ?_) fun q => queryFailed_unlogged c h q
  exact CXEMySql.storeData_only trivial trivial fun _ _ _ _ => trivial

theorem locked_logging {body : Nat → Nat → Code Bool}
    (hbody : ∀ c h l, (body c h).Follows Logging l fun _ _ => True) (l : List Bytes) :
    (CXEMySql.locked body).Follows Logging l fun _ _ => True := by
  refine CXEMySql.follows_locked (P := fun _ _ _ => True) nofun trivial (fun _ => nofun)
    (fun c m => ?_) fun _ _ _ _ => ⟨nofun, fun _ => trivial⟩
  cases m with
  | none => trivial
  | some h => exact hbody c h _

/-- The functions that log the text they have sent. -/
inductive LogsText : Code Bool → Prop
  | query (cmd : Bytes) (args : List Arg) : LogsText (CXEMySql.query cmd args)
  | queryData (cmd : Bytes) (data : Option Nat) (args : List Arg) :
    LogsText (CXEMySql.queryData cmd data args)
  | executeSQL (pMySql : Option Nat) (cmd : Bytes) (args : List Arg) :
    LogsText (CXEMySql.executeSQL pMySql cmd args)

/-- They log no other texts. -/
theorem LogsText.logging {p : Code Bool} (h : LogsText p) (l : List Bytes) :
    p.Follows Logging l fun _ _ => True := by
  cases h with
  | query cmd args =>
    rw [CXEMySql.query_eq]
    exact locked_logging (fun c h => queryOn_logging c h cmd args) l
  | queryData cmd data args =>
    rw [CXEMySql.queryData_eq]
    exact locked_logging (fun c h => queryDataOn_logging c h cmd data args) l
  | executeSQL pMySql cmd args =>
    cases pMySql with
    | none => trivial
    | some h =>
      exact sent_logging cmd args h l (fun _ => trivial)
        fun _ => ⟨trivial, fun _ => ⟨trivial, fun _ => ⟨trivial, fun _ => trivial⟩⟩⟩

/-! ## The whole -/

/-- The file of a pointer is open. -/
def oLog.Writes (x : oLog) (st : Stdio) (i : oLog.Field) (f : Nat) : Prop :=
  ∃ cf, x.file i = some cf ∧ cf.m_pFile = some f ∧ st.closed f = false

/-- **When messages stand in the log as they have been formatted**, for each of the four functions;
and when a text that has been sent as a query, and only such texts are logged, stands in the log of
the database as it is. -/
theorem verbatim_iff {rt : Runtime} (hrt : rt.PrintsLog) {x : oLog} {st : Stdio} {l : LogTrace} :
    (∀ i f fmt args text, x.Writes st i f → format rt.conv fmt args = some text → text.length < 4096 →
      (oLog.Appends rt (x.call i fmt args) st l (st.path f) (CString.cstr text) ↔
        percent ∉ CString.cstr text)) ∧
    (∀ p, LogsText p → p.Follows Logging [] fun _ _ => True) ∧
    ∀ f q, x.Writes st .m_pDBLogFile f → CString.NulFree q → q.length < 4096 →
      (oLog.Appends rt (x.request (.outPutDBStr q)) st l (st.path f) q ↔ percent ∉ q) := by
  refine ⟨fun i f fmt args text hx htext hlen => ?_, fun p hp => hp.logging [], ?_⟩
  · obtain ⟨cf, hfile, hf, hopen⟩ := hx
    rw [oLog.call_eq]
    exact oLog.outPut_appends_iff hrt hfile hf hopen htext hlen
  · rintro f q ⟨cf, hfile, hf, hopen⟩ hq hlen
    exact oLog.outPut_nil_appends_iff hrt hfile hf hopen hq hlen

/-- A log with one file, which is open. -/
def openLog : oLog := ⟨fun _ => some { m_pFile := some 0 }⟩

/-- A greeting. -/
theorem verbatim_plain :
    (oLog.Appends .printing (openLog.call .m_pErrorFile (CString.ascii "%s") [.str (CString.ascii "hi")])
      {} [] [] (CString.cstr (CString.ascii "hi")) ↔ percent ∉ CString.cstr (CString.ascii "hi")) ∧
    (oLog.Appends .printing (openLog.request (.outPutDBStr (CString.ascii "SELECT 1"))) {} [] []
      (CString.ascii "SELECT 1") ↔ percent ∉ CString.ascii "SELECT 1") := by
  obtain ⟨hformat, -, hsql⟩ := verbatim_iff printsLog_printing (x := openLog) (l := [])
  exact ⟨hformat .m_pErrorFile 0 _ _ _ ⟨_, rfl, rfl, rfl⟩ (by decide +kernel) (by decide),
    hsql 0 _ ⟨_, rfl, rfl, rfl⟩ (by decide) (by decide)⟩

/-- A percentage, and the pattern of a `LIKE`: neither is written as it is. -/
theorem percent_lost :
    format Runtime.printing.conv (CString.ascii "%s") [.str (CString.ascii "5%%")]
      = some (CString.ascii "5%%") ∧
    ¬ oLog.Appends .printing (openLog.outPutStr (CString.ascii "%s") [.str (CString.ascii "5%%")])
      {} [] [] (CString.ascii "5%%") ∧
    ¬ oLog.Appends .printing (openLog.request (.outPutDBStr (CString.ascii "LIKE 'a%'"))) {} [] []
      (CString.ascii "LIKE 'a%'") := by
  have htext : format Runtime.printing.conv (CString.ascii "%s") [.str (CString.ascii "5%%")]
      = some (CString.ascii "5%%") := by decide +kernel
  have hsql := @oLog.outPut_nil_appends_iff .printing {} [] openLog .m_pDBLogFile { m_pFile := some 0 } 0
    printsLog_printing rfl rfl rfl (CString.ascii "LIKE 'a%'") (by decide)
    (by decide)
  refine ⟨htext, fun h => ?_, fun h => ?_⟩
  · have hplain := (@oLog.outPut_appends_iff .printing {} [] _ _ _ openLog .m_pLogFile
      { m_pFile := some 0 } 0 printsLog_printing rfl rfl rfl htext (by decide)).mp h
    exact hplain (by decide +kernel)
  · exact hsql.mp h (by decide)

end XeMySql
