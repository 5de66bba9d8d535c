import XeMySql.Log

/-!
# Lines and dates

A log file is opened, and lines are written to it at various times. The date that a line is compared
with is the one of `Open`, and the file is changed behind the line.

* `outPutString_step` — a line goes to the file that is open, which stays open on its own day
* `routed_iff` — when every line stands in the file of its date
* `wrong_day` — the first line of the next day
-/

namespace XeMySql

open Interact

namespace CLogFile

variable {rt : Runtime} {x : CLogFile} {s : Stdio} {l : LogTrace}

/-- The file of the day of `Open` is open. -/
structure OpenOn (x : CLogFile) (s : Stdio) : Prop where
  name : CString.NulFree x.m_szFileName
  file : ∃ f, x.m_pFile = some f ∧ s.path f = logPath x.m_szFileName x.m_xDate ∧ s.closed f = false

theorem closeOld_always (x : CLogFile) : x.closeOld.Always (LogOp.exec rt) s l
    fun _ s' l' => s'.written = s.written ∧ times l' = times l := by
  unfold closeOld
  cases x.m_pFile with
  | none => exact Prog.always_ret ⟨rfl, rfl⟩
  | some f =>
    refine always_log fun o s₁ _ he => ?_
    cases he
    exact Prog.always_ret ⟨rfl, rfl⟩

theorem makeDirectory_always : makeDirectory.Always (LogOp.exec rt) s l
    fun _ s' l' => s' = s ∧ times l' = times l := by
  refine always_log fun o s₁ there he => ?_
  cases he
  rw [Prog.bind_ret]
  split
  · exact Prog.always_ret ⟨rfl, rfl⟩
  · refine always_log fun o s₁ _ he => ?_
    cases he
    exact Prog.always_ret ⟨rfl, rfl⟩

/-- **Step lemma.** A line goes to the file of the day of `Open`, which stays open on this day. -/
theorem outPutString_step (hrt : rt.PrintsLog) (h : OpenOn x s) (str : Bytes)
    (args : List Printf.Arg) :
    (x.outPutString str args).Always (LogOp.exec rt) s l fun x' s' l' => ∃ t szMsg,
      times l' = t :: times l ∧
        s'.written = (logPath x.m_szFileName x.m_xDate, logLine t szMsg) :: s.written ∧
        x'.m_szFileName = x.m_szFileName ∧ x'.m_xDate = x.m_xDate ∧
        (t.SameDate x.m_xDate → OpenOn x' s') := by
  obtain ⟨f, hf, hpath, hopen⟩ := h.file
  refine (outPutString_always hrt hf hopen str args).mono ?_
  rintro x' s' l' ⟨t, szMsg, -, hl', hw', hname', hdate', hsame⟩
  refine ⟨t, szMsg, hl', by rw [hw', hpath], hname', hdate', fun hsd => ?_⟩
  obtain ⟨hf', hp', hc'⟩ := hsame hsd.2.2
  exact ⟨by rw [hname']; exact h.name, f, hf', by rw [hp', hname', hdate', hpath], by rw [hc', hopen]⟩

/-- `Open`, when it succeeds. -/
theorem open_always (hrt : rt.PrintsLog) (szFile : Bytes) :
    (x.Open szFile).Always (LogOp.exec rt) s l fun a s' l' => s'.written = s.written ∧
      a.1.m_szFileName = CString.cstr szFile ∧ times l' = a.1.m_xDate :: times l ∧
      (a.2 = true → OpenOn a.1 s') := by
  refine (closeOld_always x).bind ?_
  rintro _ s₀ l₁ ⟨hw₀, hl₁⟩
  refine always_log fun o s₁ date he => ?_
  cases he
  refine makeDirectory_always.bind ?_
  rintro _ _ l₂ ⟨rfl, hl₂⟩
  have hl₂ : times l₂ = o.time :: times l := hl₂.trans (congrArg _ hl₁)
  refine (fopenByDate_always hrt (CString.cstr szFile) o.time).bind ?_
  rintro m s₁ l₃ ⟨hl₃, hw₁, hpath⟩
  have hw : s₁.written = s.written := hw₁.trans hw₀
  cases m with
  | none => exact Prog.always_ret ⟨hw, rfl, hl₃.trans hl₂, nofun⟩
  | some f =>
    refine always_log fun o s₂ tick he => ?_
    cases he
    exact Prog.always_ret ⟨hw, rfl, hl₃.trans hl₂,
      fun _ => ⟨CString.nulFree_cstr szFile, f, rfl, hpath (CString.nulFree_cstr szFile) f rfl⟩⟩

/-- A line stands in the file of its own date. -/
def Routed (name : Bytes) (w : Bytes × Bytes) : Prop :=
  ∃ t szMsg, w.2 = logLine t szMsg ∧ w.1 = logPath name t

/-- In the file of the day of `t₀`, these are the lines of this day. -/
theorem routed_line_iff {name szMsg : Bytes} {t₀ t : SYSTEMTIME} :
    Routed name (logPath name t₀, logLine t szMsg) ↔ t.SameDate t₀ := by
  constructor
  · rintro ⟨t', szMsg', hline, hpath⟩
    exact (logLine_inj hline).trans (logPath_inj hpath).symm
  · exact fun h => ⟨t, szMsg, rfl, h.symm.logPath_eq⟩

/-- **Run lemma.** The lines that follow on `Open`. -/
theorem calls_routed (hrt : rt.PrintsLog) {calls : List (Call × CLogFile × Stdio)} {x' : CLogFile}
    {s' : Stdio} {l' : LogTrace} (h : OpenOn x s) (hc : Calls rt x s l calls x' s' l')
    (hout : ∀ c ∈ calls, ∃ str args, c.1 = .outPutString str args) :
    ∃ ws ts, s'.written = ws ++ s.written ∧ times l' = ts ++ times l ∧
      ((∀ w ∈ ws, Routed x.m_szFileName w) ↔ ∀ t ∈ ts, t.SameDate x.m_xDate) := by
  induction hc with
  | nil => exact ⟨[], [], rfl, rfl, by simp⟩
  | @cons x s l x₁ s₁ l₁ calls x' s' l' call hcall hs ih =>
    obtain ⟨⟨str, args, rfl⟩, hrest⟩ := List.forall_mem_cons.mp hout
    obtain ⟨t, szMsg, hl, hw, hname, hdate, hstays⟩ := outPutString_step hrt h str args _ _ _ hcall
    by_cases hsd : t.SameDate x.m_xDate
    · obtain ⟨ws, ts, hws, hts, hiff⟩ := ih (hstays hsd) hrest
      rw [hname, hdate] at hiff
      refine ⟨ws ++ [(logPath x.m_szFileName x.m_xDate, logLine t szMsg)], ts ++ [t],
        by simp [hws, hw], by simp [hts, hl], ?_⟩
      simp only [List.forall_mem_append, List.forall_mem_singleton, routed_line_iff, hiff]
    · -- this line is in the wrong file, and nothing takes it back
      obtain ⟨⟨ws, hws⟩, ⟨ls, hls⟩⟩ := hs.suffix
      refine ⟨ws ++ [(logPath x.m_szFileName x.m_xDate, logLine t szMsg)], times ls ++ [t],
        by simp [← hws, hw], ?_, ?_⟩
      · rw [← hls, List.append_assoc, List.singleton_append, ← hl]
        exact List.filterMap_append
      · simp only [List.forall_mem_append, List.forall_mem_singleton, routed_line_iff, hsd,
          and_false]

/-- **When every line stands in the file of its date**: a log file is opened at the time `t₀`, and lines
are written to it at the times `ts`. -/
theorem routed_iff (hrt : rt.PrintsLog) {szFile : Bytes} {x₁ x₂ : CLogFile} {s₁ s₂ : Stdio}
    {l₁ l₂ : LogTrace} {calls : List (Call × CLogFile × Stdio)}
    (hopen : (x.Open szFile).Runs (LogOp.exec rt) s l (x₁, true) s₁ l₁)
    (hcalls : Calls rt x₁ s₁ l₁ calls x₂ s₂ l₂)
    (hout : ∀ c ∈ calls, ∃ str args, c.1 = .outPutString str args) :
    ∃ ws ts t₀, s₂.written = ws ++ s.written ∧ times l₂ = ts ++ t₀ :: times l ∧
      ((∀ w ∈ ws, Routed (CString.cstr szFile) w) ↔ ∀ t ∈ ts, t.SameDate t₀) := by
  obtain ⟨hw, hname, hl, hopenOn⟩ := open_always hrt szFile _ _ _ hopen
  obtain ⟨ws, ts, hws, hts, hiff⟩ := calls_routed hrt (hopenOn rfl) hcalls hout
  refine ⟨ws, ts, x₁.m_xDate, by rw [hws, hw], by rw [hts, hl], ?_⟩
  rwa [← hname]

/-- The last day of January, and the first one of February. -/
def lastOfJanuary : SYSTEMTIME := { wYear := 2024, wMonth := 1, wDay := 31, wHour := 23 }

def firstOfFebruary : SYSTEMTIME := { wYear := 2024, wMonth := 2, wDay := 1 }

/-- The log file `L`, opened on the last day of January. -/
def openedInJanuary : CLogFile :=
  { m_szFileName := [76], m_xDate := lastOfJanuary, m_pFile := some 0 }

theorem open_runs : ∃ s₁ l₁, (CLogFile.Open {} [76]).Runs (LogOp.exec .printing) {} []
      (openedInJanuary, true) s₁ l₁ ∧ s₁.written = [] ∧ s₁.closed = (fun _ => false) ∧
      times l₁ = [lastOfJanuary] := by
  refine ⟨_, _, .reply { time := lastOfJanuary } rfl (.reply {} rfl
    (.reply {} (exec_path printsLog_printing (by decide +kernel) _ _) (.reply {} rfl
      (.reply {} rfl .ret)))), rfl, ?_, rfl⟩
  exact Function.update_eq_self 0 _

/-- A line of the first day of February. -/
theorem february_runs {s : Stdio} (hopen : s.closed 0 = false) (l : LogTrace) : ∃ x' s' l',
    (openedInJanuary.outPutString [104] []).Runs (LogOp.exec .printing) s l x' s' l' ∧
      times l' = firstOfFebruary :: times l := by
  have hpath := @exec_path .printing printsLog_printing [76] firstOfFebruary (by decide +kernel)
  exact ⟨_, _, _, .reply {} rfl (.reply { time := firstOfFebruary } rfl
    (.reply {} (LogOp.exec_fprintf hopen _ _ _) (.reply {} rfl (.reply {} (hpath _ _) (.reply {} rfl
      (.reply {} rfl .ret)))))), rfl⟩

/-- A line on the same day. -/
theorem routed_sameDay : ∃ s₁ l₁ x₂ s₂ l₂ calls,
    Calls .printing openedInJanuary s₁ l₁ calls x₂ s₂ l₂ ∧ calls.length = 1 ∧
    ∃ ws ts t₀, s₂.written = ws ++ [] ∧ times l₂ = ts ++ t₀ :: times [] ∧
      ((∀ w ∈ ws, Routed (CString.cstr [76]) w) ↔ ∀ t ∈ ts, t.SameDate t₀) := by
  obtain ⟨s₁, l₁, hopen, -, hclosed, -⟩ := open_runs
  have hcalls : ∃ x₂ s₂ l₂, Calls .printing openedInJanuary s₁ l₁
      [(.outPutString [104] [], openedInJanuary, s₁)] x₂ s₂ l₂ :=
    ⟨_, _, _, .cons _ (.reply {} rfl (.reply { time := lastOfJanuary } rfl
      (.reply {} (LogOp.exec_fprintf (congrFun hclosed 0) _ _ _) (.reply {} rfl .ret)))) .nil⟩
  obtain ⟨x₂, s₂, l₂, hc⟩ := hcalls
  exact ⟨s₁, l₁, x₂, s₂, l₂, _, hc, rfl, routed_iff printsLog_printing hopen hc (by simp)⟩

/-- The next line is one of the next day, and of the next month. It stands in the file of January. -/
theorem wrong_day : ∃ s₁ l₁ x₂ s₂ l₂ calls,
    (CLogFile.Open {} [76]).Runs (LogOp.exec .printing) {} [] (openedInJanuary, true) s₁ l₁ ∧
    Calls .printing openedInJanuary s₁ l₁ calls x₂ s₂ l₂ ∧
    (∀ c ∈ calls, ∃ str args, c.1 = .outPutString str args) ∧
    times l₂ = [firstOfFebruary, lastOfJanuary] ∧
    ¬ ∀ w ∈ s₂.written, Routed (CString.cstr [76]) w := by
  obtain ⟨s₁, l₁, hopen, hw, hclosed, hl⟩ := open_runs
  obtain ⟨x₂, s₂, l₂, hline, hl₂⟩ := february_runs (congrFun hclosed 0) l₁
  have hc : Calls .printing openedInJanuary s₁ l₁ [(.outPutString [104] [], openedInJanuary, s₁)]
      x₂ s₂ l₂ := .cons _ hline .nil
  rw [hl] at hl₂
  refine ⟨s₁, l₁, x₂, s₂, l₂, _, hopen, hc, by simp, hl₂, fun hall => ?_⟩
  obtain ⟨-, -, -, hopenOn⟩ := open_always printsLog_printing [76] _ _ _ hopen
  obtain ⟨ws, ts, hws, hts, hiff⟩ := calls_routed printsLog_printing (hopenOn rfl) hc (by simp)
  rw [hw, List.append_nil] at hws
  rw [hl, hl₂] at hts
  change [firstOfFebruary] ++ [lastOfJanuary] = ts ++ [lastOfJanuary] at hts
  obtain rfl := List.append_cancel_right hts
  have hsame := hiff.mp (by rw [← hws]; exact hall) firstOfFebruary (List.mem_singleton_self _)
  exact absurd hsame.2.1 (by decide)

end CLogFile

end XeMySql
