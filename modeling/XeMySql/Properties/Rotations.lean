import XeMySql.Properties.Dated

/-!
# Rotations of a log file

A file is changed when the day of the month is not the one of `Open`, whose date stays in `m_xDate`.
So each line of such a day changes the file, and a line of the same day of another month does not.

* `outPutString_rotates` — one line, and when it changes the file
* `calls_rotations` — the changes in a row of lines
* `rotations_eq_changes_iff` — when there are as many of them as there are changes of the date
* `rotated_twice` — two lines of the first day of February
-/

namespace XeMySql

open Interact

/-! ## What is counted -/

section

variable {α : Type}

/-- How many entries of `as`, the latest first, are in the relation `p` with the one before; before the
first comes `a₀`. -/
def countSteps (p : α → α → Bool) (a₀ : α) : List α → Nat
  | [] => 0
  | a :: as => countSteps p a₀ as + if p (as.headD a₀) a then 1 else 0

/-- What the entry before has no part in is counted one by one. -/
theorem countSteps_const (q : α → Bool) (a₀ : α) (as : List α) :
    countSteps (fun _ a => q a) a₀ as = as.countP q := by
  induction as with
  | nil => rfl
  | cons a as ih => rw [countSteps, ih, List.countP_cons]

/-- Two counts differ by what only one of them counts. -/
theorem countSteps_add (p q : α → α → Bool) (a₀ : α) (as : List α) :
    countSteps p a₀ as + countSteps (fun b a => q b a && !p b a) a₀ as =
      countSteps q a₀ as + countSteps (fun b a => p b a && !q b a) a₀ as := by
  induction as with
  | nil => rfl
  | cons a as ih =>
    have hsplit : ∀ c d : Bool,
        (if c then 1 else 0) + (if (d && !c) then 1 else 0) =
          (if d then 1 else 0) + if (c && !d) then 1 else 0 := by
      decide
    have h := hsplit (p (as.headD a₀) a) (q (as.headD a₀) a)
    simp only [countSteps]
    omega

theorem countSteps_eq_iff (p q : α → α → Bool) (a₀ : α) (as : List α) :
    countSteps p a₀ as = countSteps q a₀ as ↔
      countSteps (fun b a => p b a && !q b a) a₀ as =
        countSteps (fun b a => q b a && !p b a) a₀ as := by
  have hadd := countSteps_add p q a₀ as
  omega

end

instance (t t' : SYSTEMTIME) : Decidable (t.SameDate t') :=
  inferInstanceAs (Decidable (_ ∧ _))

/-- How many files have been opened in a run. -/
def opens (l : LogTrace) : Nat :=
  (l.filter fun | ⟨.fopen _, _⟩ => true | _ => false).length

/-- How many have been closed. -/
def closes (l : LogTrace) : Nat :=
  (l.filter fun | ⟨.fclose _, _⟩ => true | _ => false).length

/-- How many could not be opened. -/
def failedOpens (l : LogTrace) : Nat :=
  (l.filter fun | ⟨.fopen _, none⟩ => true | _ => false).length

theorem opens_append (l l' : LogTrace) : opens (l ++ l') = opens l + opens l' := by
  unfold opens
  rw [List.filter_append, List.length_append]

theorem closes_append (l l' : LogTrace) : closes (l ++ l') = closes l + closes l' := by
  unfold closes
  rw [List.filter_append, List.length_append]

theorem failedOpens_append (l l' : LogTrace) :
    failedOpens (l ++ l') = failedOpens l + failedOpens l' := by
  unfold failedOpens
  rw [List.filter_append, List.length_append]

theorem failedOpens_mono {l l' : LogTrace} (h : l <:+ l') : failedOpens l ≤ failedOpens l' := by
  obtain ⟨more, rfl⟩ := h
  rw [failedOpens_append]
  exact Nat.le_add_left _ _

/-- The calls whose date is not the one of the call before. -/
def dateChanges (t₀ : SYSTEMTIME) (ts : List SYSTEMTIME) : Nat :=
  countSteps (fun t t' => !decide (t.SameDate t')) t₀ ts

/-- The calls on the date of the call before whose day of the month is not the one of `t₀`. -/
def staleDays (t₀ : SYSTEMTIME) (ts : List SYSTEMTIME) : Nat :=
  countSteps (fun t t' => t'.wDay != t₀.wDay && decide (t.SameDate t')) t₀ ts

/-- The calls on another date than the call before, with the day of the month of `t₀`. -/
def hiddenDates (t₀ : SYSTEMTIME) (ts : List SYSTEMTIME) : Nat :=
  countSteps (fun t t' => !decide (t.SameDate t') && t'.wDay == t₀.wDay) t₀ ts

/-- There are as many changes of the date as there are days other than the one of `t₀` when the two
mistakes balance. -/
theorem otherDays_eq_dateChanges_iff (t₀ : SYSTEMTIME) (ts : List SYSTEMTIME) :
    ts.countP (fun t => t.wDay != t₀.wDay) = dateChanges t₀ ts ↔
      staleDays t₀ ts = hiddenDates t₀ ts := by
  have hdays := countSteps_const (fun t : SYSTEMTIME => t.wDay != t₀.wDay) t₀ ts
  have hiff := countSteps_eq_iff (fun _ t' : SYSTEMTIME => t'.wDay != t₀.wDay)
    (fun t t' => !decide (t.SameDate t')) t₀ ts
  simp only [Bool.not_not] at hiff
  rw [← hdays, dateChanges, staleDays, hiddenDates, hiff]
  simp only [bne, Bool.not_not]

/-- Every file could be opened. -/
theorem failedOpens_eq_zero_iff {l : LogTrace} :
    failedOpens l = 0 ↔ ∀ path, (⟨.fopen path, none⟩ : Answer LogOp LogOp.Reply) ∉ l := by
  rw [failedOpens, List.length_eq_zero_iff, List.filter_eq_nil_iff]
  constructor
  · exact fun h path hmem => h _ hmem rfl
  · rintro h ⟨e, r⟩ hmem hf
    cases e with
    | fopen path =>
      cases r with
      | none => exact h path hmem
      | some f => cases hf
    | _ => cases hf

/-! ## One call -/

namespace CLogFile

variable {rt : Runtime} {x : CLogFile} {s : Stdio} {l : LogTrace}

/-- Code of the log that may be given any answers. -/
abbrev AnyLog : Discipline LogOp LogOp.Reply LogTrace :=
  .recording (fun _ _ => True) fun _ _ _ => True

/-- Files are neither opened nor closed. -/
def SameFiles (l l' : LogTrace) : Prop :=
  opens l' = opens l ∧ closes l' = closes l ∧ failedOpens l' = failedOpens l

theorem fopenByDate_opens (name : Bytes) (t : SYSTEMTIME) :
    (fopenByDate name t).Follows AnyLog l fun m l' => times l' = times l ∧
      opens l' = opens l + 1 ∧ closes l' = closes l ∧
        failedOpens l' = failedOpens l + if m = none then 1 else 0 := by
  refine ⟨trivial, fun _ _ => ⟨trivial, fun m _ => ?_⟩⟩
  cases m with
  | none => exact ⟨rfl, rfl, rfl, rfl⟩
  | some f => exact ⟨rfl, rfl, rfl, rfl⟩

theorem dump_sameFiles (szMsg : Bytes) : (x.dump szMsg).Follows AnyLog l fun _ l' =>
    times l' = times l ∧ SameFiles l l' := by
  unfold dump
  split
  · exact ⟨trivial, fun _ _ => ⟨rfl, rfl, rfl, rfl⟩⟩
  · exact ⟨rfl, rfl, rfl, rfl⟩

/-- A line at the time `t` closes the file and opens one when the day of the month is not the one of
`Open`. -/
def Rotates (x : CLogFile) (t : SYSTEMTIME) (l : LogTrace) (x' : CLogFile) (l' : LogTrace) : Prop :=
  x'.m_bCutByDate = x.m_bCutByDate ∧ x'.m_xDate = x.m_xDate ∧
    opens l' = opens l + (if t.wDay != x.m_xDate.wDay then 1 else 0) ∧
    closes l' = closes l + (if t.wDay != x.m_xDate.wDay then 1 else 0) ∧
    (failedOpens l' = failedOpens l → x'.m_pFile ≠ none)

theorem writeLine_rotates (hcut : x.m_bCutByDate = true) {f : Nat} (hf : x.m_pFile = some f)
    (szMsg : Bytes) (t : SYSTEMTIME) : (x.writeLine f szMsg t).Follows AnyLog l fun x' l' =>
      times l' = times l ∧ Rotates x t l x' l' := by
  have hne : x.m_pFile ≠ none := by
    rw [hf]
    exact Option.some_ne_none f
  refine ⟨trivial, fun _ _ => ?_⟩
  simp only [Prog.bind_ret, hcut, Bool.true_and]
  rw [bne_comm]
  cases hday : t.wDay != x.m_xDate.wDay with
  | true =>
    refine ⟨trivial, fun _ _ => ?_⟩
    refine (fopenByDate_opens x.m_szFileName t).bind ?_
    rintro m l₁ ⟨htimes, hopens, hcloses, hfailed⟩
    refine ⟨trivial, fun tick _ => ⟨htimes, hcut.symm, rfl, ?_, ?_, fun hl => ?_⟩⟩
    · rw [hday]
      exact hopens
    · rw [hday]
      exact hcloses
    · rintro rfl
      exact absurd (hfailed.symm.trans hl) (Nat.succ_ne_self _)
  | false =>
    refine ⟨trivial, fun tick _ => ?_⟩
    have hsame : ∀ x' l', x'.m_bCutByDate = x.m_bCutByDate → x'.m_xDate = x.m_xDate →
        x'.m_pFile = x.m_pFile → times l' = times l → SameFiles l l' →
        times l' = times l ∧ Rotates x t l x' l' := by
      rintro x' l' hc hd hp ht ⟨hopens, hcloses, -⟩
      refine ⟨ht, hc, hd, ?_, ?_, fun _ => hp ▸ hne⟩
      · rw [hday, hopens]
        rfl
      · rw [hday, hcloses]
        rfl
    simp only [Prog.bind_ret]
    split
    · exact ⟨trivial, fun _ _ => ⟨trivial, fun _ _ =>
        hsame _ _ hcut.symm rfl rfl rfl ⟨rfl, rfl, rfl⟩⟩⟩
    · exact hsame _ _ rfl rfl rfl rfl ⟨rfl, rfl, rfl⟩

/-- **Step lemma.** The time of a line decides whether the file is changed. -/
theorem outPutString_rotates (hcut : x.m_bCutByDate = true) (hfile : x.m_pFile ≠ none) (str : Bytes)
    (args : List Printf.Arg) : (x.outPutString str args).Follows AnyLog l fun x' l' =>
      ∃ t, times l' = t :: times l ∧ Rotates x t l x' l' := by
  obtain ⟨f, hf⟩ := Option.ne_none_iff_exists'.mp hfile
  refine ⟨trivial, fun szMsg _ => ?_⟩
  refine (dump_sameFiles szMsg).bind ?_
  rintro _ l₁ ⟨ht₁, hopens, hcloses, hfailed⟩
  refine ⟨trivial, fun t _ => ?_⟩
  simp only [Prog.bind_ret, hf]
  refine (writeLine_rotates hcut hf szMsg t).mono ?_
  rintro x' l' ⟨ht', hc, hd, hopens', hcloses', hfile'⟩
  refine ⟨t, ht'.trans (congrArg _ ht₁), hc, hd, ?_, ?_, fun hl => hfile' ?_⟩
  · exact hopens'.trans (congrArg (· + _) hopens)
  · exact hcloses'.trans (congrArg (· + _) hcloses)
  · exact hl.trans hfailed.symm

/-- `Open`, when it succeeds. -/
theorem open_keeps (szFile : Bytes) : (x.Open szFile).Follows AnyLog l fun a l' =>
    times l' = a.1.m_xDate :: times l ∧ a.1.m_bCutByDate = x.m_bCutByDate ∧
      (a.2 = true → a.1.m_pFile ≠ none) := by
  have hclose : x.closeOld.Follows AnyLog l fun _ l' => times l' = times l := by
    unfold closeOld
    split
    · exact ⟨trivial, fun _ _ => rfl⟩
    · exact rfl
  have hmake : ∀ l : LogTrace, makeDirectory.Follows AnyLog l fun _ l' => times l' = times l := by
    refine fun l => ⟨trivial, fun there _ => ?_⟩
    cases there with
    | true => exact rfl
    | false => exact ⟨trivial, fun _ _ => rfl⟩
  refine hclose.bind fun _ l₁ hl₁ => ⟨trivial, fun date _ => ?_⟩
  refine (hmake _).bind fun _ l₂ hl₂ => ?_
  have hl₂ : times l₂ = date :: times l := hl₂.trans (congrArg _ hl₁)
  refine (fopenByDate_opens (CString.cstr szFile) date).bind ?_
  rintro m l₃ ⟨hl₃, -⟩
  cases m with
  | none => exact ⟨hl₃.trans hl₂, rfl, nofun⟩
  | some f => exact ⟨trivial, fun _ _ => ⟨hl₃.trans hl₂, rfl, fun _ => Option.some_ne_none f⟩⟩

/-! ## A row of lines -/

/-- **Run lemma.** The lines of another day than the one of `Open` change the file, and no others. -/
theorem calls_rotations {calls : List (Call × CLogFile × Stdio)} {x' : CLogFile} {s' : Stdio}
    {l' : LogTrace} (hc : Calls rt x s l calls x' s' l')
    (hout : ∀ c ∈ calls, ∃ str args, c.1 = .outPutString str args)
    (hcut : x.m_bCutByDate = true) (hfile : x.m_pFile ≠ none)
    (hopened : failedOpens l' = failedOpens l) :
    ∃ ts, times l' = ts ++ times l ∧ ts.length = calls.length ∧
      opens l' = opens l + ts.countP (fun t => t.wDay != x.m_xDate.wDay) ∧
      closes l' = closes l + ts.countP (fun t => t.wDay != x.m_xDate.wDay) := by
  induction hc with
  | nil => exact ⟨[], rfl, rfl, rfl, rfl⟩
  | @cons x s l x₁ s₁ l₁ calls x' s' l' call hcall hs ih =>
    obtain ⟨⟨str, args, rfl⟩, hrest⟩ := List.forall_mem_cons.mp hout
    obtain ⟨t, ht, hc₁, hd₁, hopens, hcloses, hfile₁⟩ :=
      hcall.answered (fun _ _ _ _ _ _ _ => trivial) (outPutString_rotates hcut hfile str args)
    -- no attempt to open a file has failed in this call, and none in those after it
    have hle : failedOpens l ≤ failedOpens l₁ := failedOpens_mono hcall.suffix
    have hle₁ : failedOpens l₁ ≤ failedOpens l' := failedOpens_mono hs.suffix.2
    obtain ⟨ts, hts, hlen, hopens', hcloses'⟩ :=
      ih hrest (hc₁.trans hcut) (hfile₁ (by omega)) (by omega)
    rw [hd₁] at hopens' hcloses'
    have hcount : (ts ++ [t]).countP (fun t => t.wDay != x.m_xDate.wDay) =
        ts.countP (fun t => t.wDay != x.m_xDate.wDay) +
          if t.wDay != x.m_xDate.wDay then 1 else 0 := by
      rw [List.countP_append, List.countP_singleton]
    refine ⟨ts ++ [t], by rw [hts, ht, List.append_assoc, List.singleton_append], ?_, ?_, ?_⟩
    · rw [List.length_append, hlen]
      rfl
    · omega
    · omega

/-- **When the file is changed as often as the date**: it is opened at the time `t₀`, and lines are
written to it at the times `ts`. -/
theorem rotations_eq_changes_iff {szFile : Bytes} {x₁ x₂ : CLogFile} {s₁ s₂ : Stdio}
    {l₁ later : LogTrace} {calls : List (Call × CLogFile × Stdio)} (hcut : x.m_bCutByDate = true)
    (hopen : (x.Open szFile).Runs (LogOp.exec rt) s l (x₁, true) s₁ l₁)
    (hcalls : Calls rt x₁ s₁ l₁ calls x₂ s₂ (later ++ l₁))
    (hout : ∀ c ∈ calls, ∃ str args, c.1 = .outPutString str args)
    (hopened : ∀ path, (⟨.fopen path, none⟩ : Answer LogOp LogOp.Reply) ∉ later) :
    ∃ ts t₀, times (later ++ l₁) = ts ++ t₀ :: times l ∧ ts.length = calls.length ∧
      opens later = closes later ∧
      (opens later = dateChanges t₀ ts ↔ staleDays t₀ ts = hiddenDates t₀ ts) := by
  obtain ⟨htimes, hcut₁, hfile⟩ :=
    hopen.answered (fun _ _ _ _ _ _ _ => trivial) (open_keeps szFile)
  have hfailed : failedOpens (later ++ l₁) = failedOpens l₁ := by
    rw [failedOpens_append, failedOpens_eq_zero_iff.mpr hopened, Nat.zero_add]
  obtain ⟨ts, hts, hlen, hopens, hcloses⟩ :=
    calls_rotations hcalls hout (hcut₁.trans hcut) (hfile rfl) hfailed
  rw [opens_append, Nat.add_comm, Nat.add_left_cancel_iff] at hopens
  rw [closes_append, Nat.add_comm, Nat.add_left_cancel_iff] at hcloses
  refine ⟨ts, x₁.m_xDate, by rw [hts, htimes], hlen, hopens.trans hcloses.symm, ?_⟩
  rw [hopens]
  exact otherDays_eq_dateChanges_iff x₁.m_xDate ts

/-- The log file `L` of the last day of January, with the FILE `f`. -/
def january (f : Nat) : CLogFile := { openedInJanuary with m_pFile := some f }

/-- A line of another day of the month. -/
theorem january_rotates {f : Nat} {s : Stdio} (hopen : s.closed f = false) (l : LogTrace)
    {t : SYSTEMTIME} (hday : lastOfJanuary.wDay ≠ t.wDay) (hlen : (logPath [76] t).length < 256) :
    ∃ later s', ((january f).outPutString [104] []).Runs (LogOp.exec .printing) s l (january s.files) s'
        (later ++ l) ∧
      s'.closed s.files = false ∧ times later = [t] ∧ opens later = 1 ∧
      ∀ path, (⟨.fopen path, none⟩ : Answer LogOp LogOp.Reply) ∉ later := by
  have hpath := exec_path printsLog_printing hlen
  have hcut : ((january f).m_bCutByDate && (january f).m_xDate.wDay != t.wDay) = true := by
    simpa [january, openedInJanuary] using hday
  obtain ⟨szMsg, hmsg⟩ : ∃ szMsg, (LogOp.vsnprintf 4096 [104] []).exec .printing {} s =
      some (s, some szMsg) := ⟨_, rfl⟩
  let line : LogOp := .fprintf f lineFormat [.int t.wYear, .int t.wMonth, .int t.wDay, .int t.wHour,
    .int t.wMinute, .int t.wSecond, .str szMsg]
  obtain ⟨s₁, hprint, hfiles⟩ : ∃ s₁, line.exec .printing {} s = some (s₁, some ()) ∧
      s₁.files = s.files := ⟨_, LogOp.exec_fprintf hopen _ _ _, rfl⟩
  -- the file is changed behind the line
  have hrotate : ∀ l₁, ∃ szFileWhole s', (do
      logReq (.fclose f)
      let m_pFile ← fopenByDate [76] t
      let tick ← logReq .getTickCount
      pure { january f with m_pFile := m_pFile, m_dwLastTime := tick } : LogCode CLogFile).Runs
        (LogOp.exec .printing) s₁ l₁ (january s.files) s' ([⟨.getTickCount, 0⟩,
          ⟨.fopen szFileWhole, some s.files⟩, ⟨.sprintf 256 pathFormat [.str [76], .int t.wYear,
            .int t.wMonth, .int t.wDay], szFileWhole⟩, ⟨.fclose f, ()⟩] ++ l₁) ∧
      s'.closed s.files = false := by
    intro l₁
    rw [← hfiles]
    exact ⟨_, _, .reply {} rfl (.reply {} (hpath _ _) (.reply {} rfl (.reply {} rfl .ret))),
      Function.update_self ..⟩
  have hline : ∀ l₁, ∃ szFileWhole s', ((january f).writeLine f szMsg t).Runs (LogOp.exec .printing) s
      l₁ (january s.files) s' ([⟨.getTickCount, 0⟩, ⟨.fopen szFileWhole, some s.files⟩,
        ⟨.sprintf 256 pathFormat [.str [76], .int t.wYear, .int t.wMonth, .int t.wDay], szFileWhole⟩,
        ⟨.fclose f, ()⟩, ⟨line, ()⟩] ++ l₁) ∧ s'.closed s.files = false := by
    intro l₁
    obtain ⟨szFileWhole, s', hrun, hclosed⟩ := hrotate (⟨line, ()⟩ :: l₁)
    refine ⟨szFileWhole, s', .reply {} hprint ?_, hclosed⟩
    rw [Prog.bind_ret, if_pos hcut]
    exact hrun
  obtain ⟨szFileWhole, s', hrun, hclosed⟩ :=
    hline (⟨.getSystemTime, t⟩ :: ⟨.vsnprintf 4096 [104] [], szMsg⟩ :: l)
  exact ⟨[⟨.getTickCount, 0⟩, ⟨.fopen szFileWhole, some s.files⟩, ⟨.sprintf 256 pathFormat [.str [76],
      .int t.wYear, .int t.wMonth, .int t.wDay], szFileWhole⟩, ⟨.fclose f, ()⟩, ⟨line, ()⟩,
      ⟨.getSystemTime, t⟩, ⟨.vsnprintf 4096 [104] [], szMsg⟩], s',
    .reply {} hmsg (.reply { time := t } rfl hrun), hclosed, rfl, rfl,
    by intro path hmem; simp [line] at hmem⟩

/-- Two lines of two other days of the month change the file twice. -/
theorem january_rotates_twice {t u : SYSTEMTIME} (hday : lastOfJanuary.wDay ≠ t.wDay)
    (hlen : (logPath [76] t).length < 256) (hday' : lastOfJanuary.wDay ≠ u.wDay)
    (hlen' : (logPath [76] u).length < 256) : ∃ s₁ l₁ later x₂ s₂ calls,
    (CLogFile.Open {} [76]).Runs (LogOp.exec .printing) {} [] (openedInJanuary, true) s₁ l₁ ∧
    Calls .printing openedInJanuary s₁ l₁ calls x₂ s₂ (later ++ l₁) ∧
    (∀ c ∈ calls, ∃ str args, c.1 = .outPutString str args) ∧
    (∀ path, (⟨.fopen path, none⟩ : Answer LogOp LogOp.Reply) ∉ later) ∧
    times (later ++ l₁) = [u, t] ++ [lastOfJanuary] ∧ opens later = 2 := by
  obtain ⟨s₁, l₁, hopen, -, hclosed, hl₁⟩ := open_runs
  obtain ⟨later, s₂, hline, hclosed', htimes, hopens, hopened⟩ :=
    january_rotates (congrFun hclosed 0) l₁ hday hlen
  obtain ⟨later', s₃, hline', -, htimes', hopens', hopened'⟩ :=
    january_rotates hclosed' (later ++ l₁) hday' hlen'
  have hc := Calls.cons (.outPutString [104] []) hline (.cons (.outPutString [104] []) hline' .nil)
  rw [← List.append_assoc] at hc
  have hall : times (later' ++ later ++ l₁) = times later' ++ times later ++ times l₁ := by
    unfold times
    rw [List.filterMap_append, List.filterMap_append]
  refine ⟨s₁, l₁, later' ++ later, _, s₃, _, hopen, hc, by simp, ?_, ?_, ?_⟩
  · intro path hmem
    rcases List.mem_append.mp hmem with hmem | hmem
    · exact hopened' path hmem
    · exact hopened path hmem
  · rw [hall, htimes, htimes', hl₁]
    rfl
  · rw [opens_append, hopens, hopens']

/-- A line of the first day of February and one of the second: two changes of the date, and two of the
file. -/
theorem rotations_eq_changes_twice : ∃ s₁ l₁ later x₂ s₂ calls,
    Calls .printing openedInJanuary s₁ l₁ calls x₂ s₂ (later ++ l₁) ∧ opens later = 2 ∧
    dateChanges lastOfJanuary [{ firstOfFebruary with wDay := 2 }, firstOfFebruary] = 2 ∧
    ∃ ts t₀, times (later ++ l₁) = ts ++ t₀ :: times [] ∧ ts.length = calls.length ∧
      opens later = closes later ∧
      (opens later = dateChanges t₀ ts ↔ staleDays t₀ ts = hiddenDates t₀ ts) := by
  obtain ⟨s₁, l₁, later, x₂, s₂, calls, hopen, hc, hout, hopened, -, htwo⟩ :=
    january_rotates_twice (t := firstOfFebruary) (u := { firstOfFebruary with wDay := 2 }) (by decide)
      (by decide +kernel) (by decide) (by decide +kernel)
  exact ⟨s₁, l₁, later, x₂, s₂, calls, hc, htwo, by decide,
    rotations_eq_changes_iff rfl hopen hc hout hopened⟩

/-- Two lines of the first day of February change the file twice. -/
theorem rotated_twice : ∃ s₁ l₁ later x₂ s₂ calls ts t₀,
    (CLogFile.Open {} [76]).Runs (LogOp.exec .printing) {} [] (openedInJanuary, true) s₁ l₁ ∧
    Calls .printing openedInJanuary s₁ l₁ calls x₂ s₂ (later ++ l₁) ∧
    (∀ c ∈ calls, ∃ str args, c.1 = .outPutString str args) ∧
    (∀ path, (⟨.fopen path, none⟩ : Answer LogOp LogOp.Reply) ∉ later) ∧
    times (later ++ l₁) = ts ++ [t₀] ∧ ts = [firstOfFebruary, firstOfFebruary] ∧
    t₀ = lastOfJanuary ∧ opens later = 2 ∧ dateChanges t₀ ts = 1 := by
  obtain ⟨s₁, l₁, later, x₂, s₂, calls, hopen, hc, hout, hopened, htimes, htwo⟩ :=
    january_rotates_twice (t := firstOfFebruary) (u := firstOfFebruary) (by decide) (by decide +kernel)
      (by decide) (by decide +kernel)
  exact ⟨s₁, l₁, later, x₂, s₂, calls, _, _, hopen, hc, hout, hopened, htimes, rfl, rfl, htwo,
    by decide⟩

end CLogFile

end XeMySql
