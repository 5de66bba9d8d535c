import XeMySql.State
import XeMySql.Lib.Decimal

/-!
# The log (`Log.h`, `Log.cpp`)

A `CLogFile` appends lines to a file whose name carries a date, and `oLog` has four of them. Each
function of `CLogFile` holds the lock of the object from its beginning to its end, so that it is given
the object and returns it. What it asks of the C runtime and of Windows are the requests `LogOp`.
Messages to the console are left out.
-/

namespace XeMySql

open Interact

/-- `SYSTEMTIME` -/
structure SYSTEMTIME where
  wYear : Nat := 0
  wMonth : Nat := 0
  wDay : Nat := 0
  wHour : Nat := 0
  wMinute : Nat := 0
  wSecond : Nat := 0
deriving DecidableEq

/-- `class CLogFile`; a FILE is named by a number, and so is the function `m_pDumpFunc`. -/
structure CLogFile where
  m_pDumpFunc : Option Nat := none
  m_szFileName : Bytes := []
  m_xDate : SYSTEMTIME := {}
  m_pFile : Option Nat := none
  m_bCutByDate : Bool := true
  m_dwLastTime : UInt32 := 0
  m_dwInterval : UInt32 := 60000
deriving DecidableEq

/-! ## Requests -/

/-- What the log asks of the C runtime and of Windows. `vsnprintf` and `sprintf` print into a zeroed
buffer of `n` characters; files are opened for appending. -/
inductive LogOp where
  | vsnprintf (n : Nat) (fmt : Bytes) (args : List Printf.Arg)
  | sprintf (n : Nat) (fmt : Bytes) (args : List Printf.Arg)
  | dump (func : Nat) (szMsg : Bytes)
  | access (path : Bytes)
  | mkdir (path : Bytes)
  | getSystemTime
  | getTickCount
  | fopen (path : Bytes)
  | fprintf (f : Nat) (fmt : Bytes) (args : List Printf.Arg)
  | fflush (f : Nat)
  | fclose (f : Nat)
deriving DecidableEq

/-- The answers; of a buffer, the string in it. -/
abbrev LogOp.Reply : LogOp → Type
  | vsnprintf _ _ _ => Bytes
  | sprintf _ _ _ => Bytes
  | access _ => Bool
  | getSystemTime => SYSTEMTIME
  | getTickCount => UInt32
  | fopen _ => Option Nat
  | _ => Unit

/-- The environment's part in a request: success, the clocks, and what stands in memory where a
buffer has no end. -/
structure LogOutcome where
  ok : Bool := true
  time : SYSTEMTIME := {}
  tick : UInt32 := 0
  text : Bytes := []

/-- The FILEs opened so far, with the paths they have been opened at, those that have been closed, and
what has been appended to which path, the latest first. -/
structure Stdio where
  files : Nat := 0
  path : Nat → Bytes := fun _ => []
  closed : Nat → Bool := fun _ => false
  written : List (Bytes × Bytes) := []

/-- The string in a zeroed buffer of `n` characters after `vsnprintf`: without a NUL in the buffer,
it goes on in the memory behind. -/
def Runtime.buffered (rt : Runtime) (n : Nat) (text after : Bytes) : Bytes :=
  if (text.take (rt.keeps n)).length < n then CString.cstr (text.take (rt.keeps n))
  else CString.cstr (text.take (rt.keeps n) ++ after)

/-- Carry out a request of the log. A `FILE` is not checked; what is printed to one that has been closed
is not written anywhere. `sprintf` must not overflow its buffer. Where printf is undefined, so is what
it prints. -/
def LogOp.exec (rt : Runtime) : (e : LogOp) → LogOutcome → Stdio → Option (Stdio × Option e.Reply)
  | .vsnprintf n fmt args, o, s =>
    match Printf.format rt.conv fmt args with
    | some text => some (s, some (rt.buffered n text o.text))
    | none => some (s, some (CString.cstr o.text))
  | .sprintf n fmt args, o, s =>
    match Printf.format rt.conv fmt args with
    | some text => if text.length < n then some (s, some (CString.cstr text)) else none
    | none => some (s, some (CString.cstr o.text))
  | .dump _ _, _, s => some (s, some ())
  | .access _, o, s => some (s, some o.ok)
  | .mkdir _, _, s => some (s, some ())
  | .getSystemTime, o, s => some (s, some o.time)
  | .getTickCount, o, s => some (s, some o.tick)
  | .fopen path, o, s =>
    if o.ok then
      some ({ s with
          files := s.files + 1
          path := Function.update s.path s.files path
          closed := Function.update s.closed s.files false },
        some (some s.files))
    else some (s, some (none : Option Nat))
  | .fprintf f fmt args, o, s =>
    let text := (Printf.format rt.conv fmt args).getD o.text
    if s.closed f then some (s, some ())
    else some ({ s with written := (s.path f, text) :: s.written }, some ())
  | .fflush _, _, s => some (s, some ())
  | .fclose f, _, s => some ({ s with closed := Function.update s.closed f true }, some ())

/-- A FILE that is open. -/
theorem LogOp.exec_fprintf {rt : Runtime} {s : Stdio} {f : Nat} (hopen : s.closed f = false)
    (fmt : Bytes) (args : List Printf.Arg) (o : LogOutcome) :
    (LogOp.fprintf f fmt args).exec rt o s =
      some ({ s with written := (s.path f, (Printf.format rt.conv fmt args).getD o.text) :: s.written },
        some ()) := by
  simp only [LogOp.exec, hopen, Bool.false_eq_true, if_false]

/-- Code of the log. -/
abbrev LogCode (α : Type) : Type := Prog LogOp LogOp.Reply α

/-- Make a request of the log. -/
def logReq (e : LogOp) : LogCode e.Reply := Prog.ask e

/-- The answers in a run of the log, the latest first. -/
abbrev LogTrace : Type := List (Answer LogOp LogOp.Reply)

/-- The times the log has been given, the latest first. -/
def times (l : LogTrace) : List SYSTEMTIME :=
  l.filterMap fun
    | ⟨.getSystemTime, t⟩ => some t
    | _ => none

/-- Nobody waits in the log. -/
theorem LogOp.exec_ne_wait {rt : Runtime} {e : LogOp} {o : LogOutcome} {s s' : Stdio} :
    e.exec rt o s ≠ some (s', none) := by
  intro he
  cases e with
  | vsnprintf n fmt args =>
    simp only [LogOp.exec] at he
    split at he <;> cases he
  | sprintf n fmt args =>
    simp only [LogOp.exec] at he
    split at he
    · split at he <;> cases he
    · cases he
  | fopen path =>
    simp only [LogOp.exec] at he
    split at he <;> cases he
  | fprintf f fmt args =>
    simp only [LogOp.exec] at he
    split at he <;> cases he
  | _ => cases he

/-- A request of the log. -/
theorem always_log {rt : Runtime} {e : LogOp} {α : Type} {k : e.Reply → LogCode α} {s : Stdio}
    {l : LogTrace} {Q : α → Stdio → LogTrace → Prop}
    (h : ∀ o s₁ r, e.exec rt o s = some (s₁, some r) →
      (k r).Always (LogOp.exec rt) s₁ (⟨e, r⟩ :: l) Q) :
    (Prog.op e k : LogCode α).Always (LogOp.exec rt) s l Q :=
  Prog.always_op (fun _ _ => LogOp.exec_ne_wait) h

/-- Nothing is taken back from a file. -/
theorem LogOp.written_suffix {rt : Runtime} {α : Type} {p : LogCode α} {s s' : Stdio}
    {l l' : LogTrace} {a : α} (h : p.Runs (LogOp.exec rt) s l a s' l') :
    s.written <:+ s'.written := by
  induction h with
  | ret => exact List.suffix_refl _
  | @reply e k s l a s' l' o s₁ r he h ih =>
    refine List.IsSuffix.trans ?_ ih
    cases e with
    | fprintf f fmt args =>
      simp only [LogOp.exec] at he
      split at he <;> cases he
      · exact List.suffix_refl _
      · exact List.suffix_cons _ _
    | vsnprintf n fmt args =>
      simp only [LogOp.exec] at he
      split at he <;> cases he <;> exact List.suffix_refl _
    | sprintf n fmt args =>
      simp only [LogOp.exec] at he
      split at he
      · split at he <;> cases he
        exact List.suffix_refl _
      · cases he
        exact List.suffix_refl _
    | fopen path =>
      simp only [LogOp.exec] at he
      split at he <;> cases he <;> exact List.suffix_refl _
    | _ =>
      cases he
      exact List.suffix_refl _
  | wait o he h ih => exact absurd he LogOp.exec_ne_wait

/-! ## `CLogFile` -/

/-- `"log"` -/
def logDirectory : Bytes := CString.ascii "log"

/-- `"log\\%s_%04d_%02d_%02d.txt"` -/
def pathFormat : Bytes := CString.ascii "log\\%s_%04d_%02d_%02d.txt"

/-- `"%04d/%02d/%02d %02d:%02d:%02d %s\n"` -/
def lineFormat : Bytes := CString.ascii "%04d/%02d/%02d %02d:%02d:%02d %s\n"

namespace CLogFile

/-- Open the file with the date of `t` in its name: `sprintf` into `szFileWhole`, then `fopen`. -/
def fopenByDate (m_szFileName : Bytes) (t : SYSTEMTIME) : LogCode (Option Nat) := do
  let szFileWhole ← logReq (.sprintf 256 pathFormat
    [.str m_szFileName, .int t.wYear, .int t.wMonth, .int t.wDay])
  logReq (.fopen szFileWhole)

/-- The beginning of `Open`: a file that is open is closed. -/
def closeOld (x : CLogFile) : LogCode Unit :=
  match x.m_pFile with
  | some f => logReq (.fclose f)
  | none => pure ()

/-- The directory of the log files is made if it does not exist. -/
def makeDirectory : LogCode Unit := do
  if ← logReq (.access logDirectory) then pure () else logReq (.mkdir logDirectory)

/-- The end of `Open`: the file of the day of `m_xDate` is opened. -/
def openFile (x : CLogFile) : LogCode (CLogFile × Bool) := do
  match ← fopenByDate x.m_szFileName x.m_xDate with
  | none => pure (x, false)
  | some f => do
    let tick ← logReq .getTickCount
    pure ({ x with m_pFile := some f, m_dwLastTime := tick }, true)

/-- `CLogFile::Open`; in lower case the name is a keyword. -/
def Open (x : CLogFile) (szFile : Bytes) : LogCode (CLogFile × Bool) := do
  x.closeOld
  let date ← logReq .getSystemTime
  makeDirectory
  -- assigned to `m_szFileName`, the name ends at its NUL
  openFile { x with m_szFileName := CString.cstr szFile, m_xDate := date, m_pFile := none }

/-- `CLogFile::Close`, and the destructor. The FILE that has been closed stays in `m_pFile`. -/
def close (x : CLogFile) : LogCode CLogFile := do
  match x.m_pFile with
  | some f => do
    logReq (.fflush f)
    logReq (.fclose f)
    pure x
  | none => pure x

/-- `CLogFile::FFlush` -/
def fFlush (x : CLogFile) : LogCode CLogFile := do
  match x.m_pFile with
  | some f => do
    logReq (.fflush f)
    let tick ← logReq .getTickCount
    pure { x with m_dwLastTime := tick }
  | none => pure x

/-- What `OutPutString` does with an open file, when the message has been printed into `szMsg`. -/
def writeLine (x : CLogFile) (f : Nat) (szMsg : Bytes) (xSys : SYSTEMTIME) : LogCode CLogFile := do
  logReq (.fprintf f lineFormat [.int xSys.wYear, .int xSys.wMonth, .int xSys.wDay,
    .int xSys.wHour, .int xSys.wMinute, .int xSys.wSecond, .str szMsg])
  if x.m_bCutByDate && x.m_xDate.wDay != xSys.wDay then do
    -- only the days of the month are compared, and `m_xDate` stays as it is
    logReq (.fclose f)
    let m_pFile ← fopenByDate x.m_szFileName xSys
    let tick ← logReq .getTickCount
    pure { x with m_pFile := m_pFile, m_dwLastTime := tick }
  else do
    let tick ← logReq .getTickCount
    if tick - x.m_dwLastTime > x.m_dwInterval then do
      logReq (.fflush f)
      let tick ← logReq .getTickCount
      pure { x with m_dwLastTime := tick }
    else pure x

/-- The message is given to `m_pDumpFunc` if there is one. -/
def dump (x : CLogFile) (szMsg : Bytes) : LogCode Unit :=
  match x.m_pDumpFunc with
  | some func => logReq (.dump func szMsg)
  | none => pure ()

/-- `CLogFile::OutPutString` -/
def outPutString (x : CLogFile) (str : Bytes) (args : List Printf.Arg) : LogCode CLogFile := do
  let szMsg ← logReq (.vsnprintf 4096 str args)
  x.dump szMsg
  let xSys ← logReq .getSystemTime
  match x.m_pFile with
  | some f => x.writeLine f szMsg xSys
  | none => pure x

/-- The public functions of `CLogFile`. -/
inductive Call where
  | Open (szFile : Bytes)
  | outPutString (str : Bytes) (args : List Printf.Arg)
  | fFlush
  | close
deriving DecidableEq

/-- Their code. -/
def Call.code (x : CLogFile) : Call → LogCode CLogFile
  | Open szFile => do
    let (x, _) ← x.Open szFile
    pure x
  | outPutString str args => x.outPutString str args
  | fFlush => x.fFlush
  | close => x.close

/-- One call after the other; each is listed with the object and the FILEs it has found. -/
inductive Calls (rt : Runtime) : CLogFile → Stdio → LogTrace → List (Call × CLogFile × Stdio) →
    CLogFile → Stdio → LogTrace → Prop
  | nil {x s l} : Calls rt x s l [] x s l
  | cons {x s l x₁ s₁ l₁ calls x' s' l'} (call : Call)
    (h : (call.code x).Runs (LogOp.exec rt) s l x₁ s₁ l₁)
    (hs : Calls rt x₁ s₁ l₁ calls x' s' l') : Calls rt x s l ((call, x, s) :: calls) x' s' l'

/-- Calls only add to the files and to the trace. -/
theorem Calls.suffix {rt : Runtime} {x x' : CLogFile} {s s' : Stdio} {l l' : LogTrace}
    {calls : List (Call × CLogFile × Stdio)} (h : Calls rt x s l calls x' s' l') :
    s.written <:+ s'.written ∧ l <:+ l' := by
  induction h with
  | nil => exact ⟨List.suffix_refl _, List.suffix_refl _⟩
  | cons call h hs ih => exact ⟨(LogOp.written_suffix h).trans ih.1, h.suffix.trans ih.2⟩

end CLogFile

/-! ## What is printed -/

/-- A date with its parts separated by `sep`. -/
def SYSTEMTIME.dated (t : SYSTEMTIME) (sep : UInt8) : Bytes :=
  Decimal.padded 4 t.wYear ++ sep :: (Decimal.padded 2 t.wMonth ++ sep :: Decimal.padded 2 t.wDay)

/-- The path of the log file `name` of the day of `t`. -/
def logPath (name : Bytes) (t : SYSTEMTIME) : Bytes :=
  CString.ascii "log\\" ++ name ++ CString.ascii "_" ++ t.dated 95 ++ CString.ascii ".txt"

/-- The time stamp of a line, with the space behind it. -/
def SYSTEMTIME.stamp (t : SYSTEMTIME) : Bytes :=
  t.dated 47 ++ CString.ascii " " ++ Decimal.padded 2 t.wHour ++ CString.ascii ":" ++
    Decimal.padded 2 t.wMinute ++ CString.ascii ":" ++ Decimal.padded 2 t.wSecond ++
    CString.ascii " "

/-- The line of the message `szMsg`. -/
def logLine (t : SYSTEMTIME) (szMsg : Bytes) : Bytes := t.stamp ++ szMsg ++ CString.ascii "\n"

/-- Two times are on the same day. -/
def SYSTEMTIME.SameDate (t t' : SYSTEMTIME) : Prop :=
  t.wYear = t'.wYear ∧ t.wMonth = t'.wMonth ∧ t.wDay = t'.wDay

theorem SYSTEMTIME.SameDate.symm {t t' : SYSTEMTIME} (h : t.SameDate t') : t'.SameDate t :=
  ⟨h.1.symm, h.2.1.symm, h.2.2.symm⟩

theorem SYSTEMTIME.SameDate.trans {t t' t'' : SYSTEMTIME} (h : t.SameDate t')
    (h' : t'.SameDate t'') : t.SameDate t'' :=
  ⟨h.1.trans h'.1, h.2.1.trans h'.2.1, h.2.2.trans h'.2.2⟩

/-- What the log prints with: `%s` and `%0wd`. -/
structure Runtime.PrintsLog (rt : Runtime) : Prop where
  strings : rt.conv.PrintsStrings
  numbers : rt.conv.PrintsNumbers

section

variable {rt : Runtime}

open Printf

theorem format_path (hrt : rt.PrintsLog) (name : Bytes) (t : SYSTEMTIME) :
    format rt.conv pathFormat [.str name, .int t.wYear, .int t.wMonth, .int t.wDay]
      = some (logPath name t) := by
  have hpieces : pathFormat = [Piece.str (CString.ascii "log\\") name,
      Piece.num (CString.ascii "_") 4 t.wYear, Piece.num (CString.ascii "_") 2 t.wMonth,
      Piece.num (CString.ascii "_") 2 t.wDay].flatMap Piece.fmt ++ CString.ascii ".txt" := by
    rfl
  rw [hpieces]
  refine (format_pieces ?_ (by decide +kernel)).trans ?_
  · simp only [List.forall_mem_cons]
    exact ⟨hrt.strings.prints (by decide +kernel) _,
      hrt.numbers.prints (by decide +kernel) (by decide) (by decide) _,
      hrt.numbers.prints (by decide +kernel) (by decide) (by decide) _,
      hrt.numbers.prints (by decide +kernel) (by decide) (by decide) _, by simp⟩
  · simp [Piece.str, Piece.num, Piece.text, logPath, SYSTEMTIME.dated, CString.ascii]

theorem format_line (hrt : rt.PrintsLog) (t : SYSTEMTIME) (szMsg : Bytes) :
    format rt.conv lineFormat [.int t.wYear, .int t.wMonth, .int t.wDay, .int t.wHour,
      .int t.wMinute, .int t.wSecond, .str szMsg] = some (logLine t szMsg) := by
  have hpieces : lineFormat = [Piece.num [] 4 t.wYear, Piece.num (CString.ascii "/") 2 t.wMonth,
      Piece.num (CString.ascii "/") 2 t.wDay, Piece.num (CString.ascii " ") 2 t.wHour,
      Piece.num (CString.ascii ":") 2 t.wMinute, Piece.num (CString.ascii ":") 2 t.wSecond,
      Piece.str (CString.ascii " ") szMsg].flatMap Piece.fmt ++ CString.ascii "\n" := by
    rfl
  rw [hpieces]
  refine (format_pieces ?_ (by decide +kernel)).trans ?_
  · simp only [List.forall_mem_cons]
    exact ⟨hrt.numbers.prints (by decide +kernel) (by decide) (by decide) _,
      hrt.numbers.prints (by decide +kernel) (by decide) (by decide) _,
      hrt.numbers.prints (by decide +kernel) (by decide) (by decide) _,
      hrt.numbers.prints (by decide +kernel) (by decide) (by decide) _,
      hrt.numbers.prints (by decide +kernel) (by decide) (by decide) _,
      hrt.numbers.prints (by decide +kernel) (by decide) (by decide) _,
      hrt.strings.prints (by decide +kernel) _, by simp⟩
  · simp [Piece.str, Piece.num, Piece.text, logLine, SYSTEMTIME.stamp, SYSTEMTIME.dated,
      CString.ascii]

end

/-- A date can be read off what is printed, whatever stands behind it. -/
theorem SYSTEMTIME.dated_inj {t t' : SYSTEMTIME} {sep b : UInt8} {r r' : Bytes}
    (hsep : Decimal.isDigit sep = false) (hb : Decimal.isDigit b = false)
    (h : t.dated sep ++ b :: r = t'.dated sep ++ b :: r') : t.SameDate t' := by
  have hdigits : ∀ w n, ∀ x ∈ Decimal.padded w n, Decimal.isDigit x = true :=
    fun _ _ _ => Decimal.isDigit_padded
  unfold dated at h
  rw [List.append_assoc, List.append_assoc, List.cons_append, List.cons_append, List.append_assoc,
    List.append_assoc, List.cons_append, List.cons_append] at h
  obtain ⟨hyear, h⟩ := Decimal.append_inj (hdigits _ _) (hdigits _ _) hsep hsep h
  obtain ⟨hmonth, h⟩ := Decimal.append_inj (hdigits _ _) (hdigits _ _) hsep hsep (List.cons.inj h).2
  obtain ⟨hday, -⟩ := Decimal.append_inj (hdigits _ _) (hdigits _ _) hb hb (List.cons.inj h).2
  exact ⟨Decimal.padded_inj hyear, Decimal.padded_inj hmonth, Decimal.padded_inj hday⟩

/-- The path tells the date. -/
theorem logPath_inj {name : Bytes} {t t' : SYSTEMTIME} (h : logPath name t = logPath name t') :
    t.SameDate t' := by
  unfold logPath at h
  simp only [List.append_assoc, List.append_cancel_left_eq] at h
  exact SYSTEMTIME.dated_inj (r := CString.ascii "txt") (by decide) (by decide) h

/-- So does the line. -/
theorem logLine_inj {t t' : SYSTEMTIME} {m m' : Bytes} (h : logLine t m = logLine t' m') :
    t.SameDate t' := by
  unfold logLine SYSTEMTIME.stamp at h
  simp only [List.append_assoc] at h
  exact SYSTEMTIME.dated_inj (by decide) (by decide) h

/-- The path of the day of `t` depends on nothing else. -/
theorem SYSTEMTIME.SameDate.logPath_eq {name : Bytes} {t t' : SYSTEMTIME} (h : t.SameDate t') :
    logPath name t = logPath name t' := by
  unfold logPath SYSTEMTIME.dated
  rw [h.1, h.2.1, h.2.2]

theorem nulFree_logPath {name : Bytes} (hname : CString.NulFree name) (t : SYSTEMTIME) :
    CString.NulFree (logPath name t) := by
  have hpadded : ∀ w n, CString.NulFree (Decimal.padded w n) := by
    rintro w n _ hb rfl
    exact absurd (Decimal.isDigit_padded hb) (by decide)
  unfold logPath SYSTEMTIME.dated
  simp only [CString.nulFree_append, CString.nulFree_cons]
  exact ⟨⟨⟨⟨by decide, hname⟩, by decide⟩,
    hpadded _ _, by decide, hpadded _ _, by decide, hpadded _ _⟩, by decide⟩

/-! ## Lines -/

namespace CLogFile

section

variable {rt : Runtime} {x : CLogFile} {s : Stdio} {l : LogTrace}

/-- What `sprintf` prints is the path of the file. -/
theorem fopenByDate_always (hrt : rt.PrintsLog) (name : Bytes) (t : SYSTEMTIME) :
    (fopenByDate name t).Always (LogOp.exec rt) s l fun m s' l' =>
      times l' = times l ∧ s'.written = s.written ∧
        (CString.NulFree name → ∀ f, m = some f → s'.path f = logPath name t ∧ s'.closed f = false) := by
  refine always_log fun o s₁ r he => ?_
  simp only [LogOp.exec, format_path hrt] at he
  split at he <;> cases he
  refine always_log fun o s₂ r he => ?_
  simp only [LogOp.exec] at he
  split at he <;> cases he
  · refine Prog.always_ret ⟨rfl, rfl, fun hname f hf => ?_⟩
    cases hf
    exact ⟨(Function.update_self ..).trans (CString.cstr_of_nulFree (nulFree_logPath hname t)),
      Function.update_self ..⟩
  · exact Prog.always_ret ⟨rfl, rfl, fun _ => nofun⟩

theorem dump_always (x : CLogFile) (szMsg : Bytes) : (x.dump szMsg).Always (LogOp.exec rt) s l
    fun _ s' l' => s' = s ∧ times l' = times l := by
  unfold dump
  cases x.m_pDumpFunc with
  | none => exact Prog.always_ret ⟨rfl, rfl⟩
  | some func =>
    refine always_log fun o s₁ _ he => ?_
    cases he
    exact Prog.always_ret ⟨rfl, rfl⟩

/-- A line goes to the file that is open. On the day of `Open` the file stays open. -/
theorem writeLine_always (hrt : rt.PrintsLog) {f : Nat} (hf : x.m_pFile = some f)
    (hopen : s.closed f = false) (szMsg : Bytes) (t : SYSTEMTIME) :
    (x.writeLine f szMsg t).Always (LogOp.exec rt) s l fun x' s' l' =>
      times l' = times l ∧ s'.written = (s.path f, logLine t szMsg) :: s.written ∧
        x'.m_szFileName = x.m_szFileName ∧ x'.m_xDate = x.m_xDate ∧
        (t.wDay = x.m_xDate.wDay → x'.m_pFile = some f ∧ s'.path = s.path ∧ s'.closed = s.closed) := by
  refine always_log fun o s₁ _ he => ?_
  rw [LogOp.exec_fprintf hopen, format_line hrt] at he
  cases he
  split
  · next hday =>
    have hne : t.wDay ≠ x.m_xDate.wDay := by
      simp only [Bool.and_eq_true, bne_iff_ne] at hday
      exact Ne.symm hday.2
    refine always_log fun o s₁ _ he => ?_
    cases he
    refine (fopenByDate_always hrt _ t).bind ?_
    rintro m s₁ l₁ ⟨hl₁, hw₁, -⟩
    refine always_log fun o s₂ tick he => ?_
    cases he
    exact Prog.always_ret ⟨hl₁, hw₁, rfl, rfl, fun hd => absurd hd hne⟩
  · refine always_log fun o s₁ tick he => ?_
    cases he
    rw [Prog.bind_ret]
    split
    · refine always_log fun o s₁ _ he => always_log fun o' s₂ tick' he' => ?_
      cases he
      cases he'
      exact Prog.always_ret ⟨rfl, rfl, rfl, rfl, fun _ => ⟨hf, rfl, rfl⟩⟩
    · exact Prog.always_ret ⟨rfl, rfl, rfl, rfl, fun _ => ⟨hf, rfl, rfl⟩⟩

/-- **`OutPutString`** prints a message and appends its line to the file that is open. -/
theorem outPutString_always (hrt : rt.PrintsLog) {f : Nat} (hf : x.m_pFile = some f)
    (hopen : s.closed f = false) (str : Bytes) (args : List Printf.Arg) :
    (x.outPutString str args).Always (LogOp.exec rt) s l fun x' s' l' => ∃ t szMsg,
      (∃ o, (LogOp.vsnprintf 4096 str args).exec rt o s = some (s, some szMsg)) ∧
        times l' = t :: times l ∧ s'.written = (s.path f, logLine t szMsg) :: s.written ∧
        x'.m_szFileName = x.m_szFileName ∧ x'.m_xDate = x.m_xDate ∧
        (t.wDay = x.m_xDate.wDay → x'.m_pFile = some f ∧ s'.path = s.path ∧ s'.closed = s.closed) := by
  refine always_log fun o s₁ szMsg he => ?_
  obtain rfl : s₁ = s := by
    simp only [LogOp.exec] at he
    split at he <;> cases he <;> rfl
  refine (dump_always x szMsg).bind ?_
  rintro _ _ l₁ ⟨rfl, hl₁⟩
  refine always_log fun o' s₂ t he' => ?_
  cases he'
  rw [Prog.bind_ret, hf]
  refine (writeLine_always hrt hf hopen szMsg o'.time).mono ?_
  rintro x' s' l' ⟨hl', hw', hrest⟩
  exact ⟨o'.time, szMsg, ⟨o, he⟩, hl'.trans (congrArg _ hl₁), hw', hrest⟩

end

end CLogFile

/-- A runtime that knows the conversions `%s` and `%0wd`. -/
def Runtime.printing : Runtime where
  conv :=
    { render := fun spec c args =>
        match args with
        | .str s :: rest => if spec = [] ∧ c = 115 then some (s, rest) else none
        | .int n :: rest =>
          match spec with
          | [48, b] => if c = 100 then some (Decimal.padded (b.toNat - 48) n.toNat, rest) else none
          | _ => none
        | _ => none
      render_nil := fun _ _ => rfl }
  keeps n := n - 1
  pred_le_keeps n := Nat.pred_le_pred (Nat.le_refl n)
  keeps_le := Nat.pred_le

theorem printsLog_printing : Runtime.printing.PrintsLog := by
  refine ⟨fun _ _ => rfl, fun w n rest _ hlt => ?_⟩
  show some (Decimal.padded ((Decimal.digitChar w).toNat - 48) (n : Int).toNat, rest) = _
  rw [Decimal.toNat_digitChar hlt, Nat.add_sub_cancel_left, Int.toNat_natCast]

/-- What `sprintf` does with a path that fits. -/
theorem exec_path {rt : Runtime} (hrt : rt.PrintsLog) {name : Bytes} {t : SYSTEMTIME}
    (h : (logPath name t).length < 256) (o : LogOutcome) (s : Stdio) :
    (LogOp.sprintf 256 pathFormat [.str name, .int t.wYear, .int t.wMonth, .int t.wDay]).exec rt o s
      = some (s, some (CString.cstr (logPath name t))) := by
  simp only [LogOp.exec, format_path hrt, h, if_true]

/-! ## `oLog` -/

/-- The pointers of `oLog`. -/
inductive oLog.Field where
  | m_pLogFile
  | m_pDBLogFile
  | m_pDBErrorFile
  | m_pErrorFile
deriving DecidableEq

/-- `class oLog`, with the objects its pointers point to. -/
structure oLog where
  file : oLog.Field → Option CLogFile

namespace oLog

/-- What the four functions do with their file. -/
def outPut (x : oLog) (field : Field) (szStr : Bytes) (args : List Printf.Arg) : LogCode oLog := do
  let szMsg ← logReq (.vsnprintf 4096 szStr args)
  match x.file field with
  | some f => do
    let f ← f.outPutString szMsg []
    pure ⟨Function.update x.file field (some f)⟩
  | none => pure x

/-- `oLog::OutPutStr` -/
def outPutStr (x : oLog) (szStr : Bytes) (args : List Printf.Arg) : LogCode oLog :=
  x.outPut .m_pLogFile szStr args

/-- `oLog::OutPutDBStr` -/
def outPutDBStr (x : oLog) (szStr : Bytes) (args : List Printf.Arg) : LogCode oLog :=
  x.outPut .m_pDBLogFile szStr args

/-- `oLog::OutPutDBError` -/
def outPutDBError (x : oLog) (szStr : Bytes) (args : List Printf.Arg) : LogCode oLog :=
  x.outPut .m_pDBErrorFile szStr args

/-- `oLog::OutPutError` -/
def outPutError (x : oLog) (szStr : Bytes) (args : List Printf.Arg) : LogCode oLog :=
  x.outPut .m_pErrorFile szStr args

/-- The function for each of the files. -/
def call (x : oLog) : Field → Bytes → List Printf.Arg → LogCode oLog
  | .m_pLogFile => x.outPutStr
  | .m_pDBLogFile => x.outPutDBStr
  | .m_pDBErrorFile => x.outPutDBError
  | .m_pErrorFile => x.outPutError

theorem call_eq (x : oLog) (field : Field) : x.call field = x.outPut field := by
  cases field <;> rfl

/-- What the requests of the other code to the log are. -/
def request (x : oLog) : RtOp → LogCode oLog
  | .outPutDBStr szStr => x.outPutDBStr szStr []
  | .outPutDBError szStr args => x.outPutDBError szStr args
  | _ => pure x

end oLog

end XeMySql
