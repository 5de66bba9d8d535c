import XeMySql.Log
import XeMySql.Lib.Monitor
import XeMySql.Lib.Object

/-!
# The functions of `CLogFile`, line by line (`Log.cpp`)

`Log.lean` gives a function the object and has it return it. Here they are as they are written: under
a `CAutoLock` on `m_cs`, with one request for every access to a field of the object, between the
requests to the C runtime and to Windows.

* `CLogFile.monitor` — the functions, for any threads
* `CLogFile.passing_body` — without the others, each is what `Log.lean` says
-/

namespace XeMySql

open Interact MonitorCode

namespace CLogFile

/-- An access to a field. -/
inductive Access where
  | m_pDumpFunc
  | m_szFileName
  | m_xDate
  | m_pFile
  | m_bCutByDate
  | m_dwLastTime
  | m_dwInterval
  | setFileName (szFile : Bytes)
  | setDate (t : SYSTEMTIME)
  | setFile (f : Option Nat)
  | setLastTime (tick : UInt32)
deriving DecidableEq

/-- The answers. -/
abbrev Access.Reply : Access → Type
  | m_pDumpFunc => Option Nat
  | m_szFileName => Bytes
  | m_xDate => SYSTEMTIME
  | m_pFile => Option Nat
  | m_bCutByDate => Bool
  | m_dwLastTime => UInt32
  | m_dwInterval => UInt32
  | _ => Unit

/-- What an access reads or writes. -/
def Access.exec : (e : Access) → CLogFile → CLogFile × e.Reply
  | .m_pDumpFunc, x => (x, x.m_pDumpFunc)
  | .m_szFileName, x => (x, x.m_szFileName)
  | .m_xDate, x => (x, x.m_xDate)
  | .m_pFile, x => (x, x.m_pFile)
  | .m_bCutByDate, x => (x, x.m_bCutByDate)
  | .m_dwLastTime, x => (x, x.m_dwLastTime)
  | .m_dwInterval, x => (x, x.m_dwInterval)
  | .setFileName szFile, x => ({ x with m_szFileName := szFile }, ())
  | .setDate t, x => ({ x with m_xDate := t }, ())
  | .setFile f, x => ({ x with m_pFile := f }, ())
  | .setLastTime tick, x => ({ x with m_dwLastTime := tick }, ())

/-- Requests of the functions. -/
abbrev FileOp : Type := ObjectOp Access LogOp

/-- The answers. -/
abbrev FileOp.Reply : FileOp → Type := ObjectOp.Reply Access.Reply LogOp.Reply

/-- Code of the functions. -/
abbrev FileCode (α : Type) : Type := Prog FileOp FileOp.Reply α

/-- An access to a field. -/
def this (e : Access) : FileCode e.Reply := Prog.ask (E := FileOp) (.field e)

/-- A request to the runtime or to Windows. -/
def sys (e : LogOp) : FileCode e.Reply := Prog.ask (E := FileOp) (.world e)

/-- `sprintf` into `szFileWhole`, then `fopen`. -/
def fopenCode (t : SYSTEMTIME) : FileCode (Option Nat) := do
  let m_szFileName ← this .m_szFileName
  let szFileWhole ← sys (.sprintf 256 pathFormat
    [.str m_szFileName, .int t.wYear, .int t.wMonth, .int t.wDay])
  sys (.fopen szFileWhole)

/-- The beginning of `Open`: a file that is open is closed. -/
def closeOldCode : FileCode Unit := do
  match ← this .m_pFile with
  | some f => sys (.fclose f)
  | none => pure ()

/-- The directory of the log files is made if it does not exist. -/
def makeDirectoryCode : FileCode Unit := do
  if ← sys (.access logDirectory) then pure () else sys (.mkdir logDirectory)

/-- `CLogFile::Open` -/
def openCode (szFile : Bytes) : FileCode Bool := do
  closeOldCode
  this (.setFile none)
  this (.setFileName (CString.cstr szFile))
  let date ← sys .getSystemTime
  this (.setDate date)
  makeDirectoryCode
  let m_xDate ← this .m_xDate
  let m_pFile ← fopenCode m_xDate
  this (.setFile m_pFile)
  match ← this .m_pFile with
  | none => pure false
  | some _ => do
    let tick ← sys .getTickCount
    this (.setLastTime tick)
    pure true

/-- `CLogFile::Close` -/
def closeCode : FileCode Unit := do
  match ← this .m_pFile with
  | some f => do
    sys (.fflush f)
    sys (.fclose f)
  | none => pure ()

/-- `CLogFile::FFlush` -/
def fFlushCode : FileCode Unit := do
  match ← this .m_pFile with
  | some f => do
    sys (.fflush f)
    let tick ← sys .getTickCount
    this (.setLastTime tick)
  | none => pure ()

/-- The message is given to `m_pDumpFunc` if there is one. -/
def dumpCode (szMsg : Bytes) : FileCode Unit := do
  match ← this .m_pDumpFunc with
  | some func => sys (.dump func szMsg)
  | none => pure ()

/-- The file is closed and the one with the date of `t` opened. -/
def rotateCode (f : Nat) (t : SYSTEMTIME) : FileCode Unit := do
  sys (.fclose f)
  let m_pFile ← fopenCode t
  this (.setFile m_pFile)
  let tick ← sys .getTickCount
  this (.setLastTime tick)

/-- The file is flushed when that is due. -/
def flushDueCode (f : Nat) : FileCode Unit := do
  let tick ← sys .getTickCount
  let m_dwLastTime ← this .m_dwLastTime
  let m_dwInterval ← this .m_dwInterval
  if tick - m_dwLastTime > m_dwInterval then do
    sys (.fflush f)
    let tick ← sys .getTickCount
    this (.setLastTime tick)
  else pure ()

/-- What `OutPutString` does with an open file. -/
def writeLineCode (f : Nat) (szMsg : Bytes) (xSys : SYSTEMTIME) : FileCode Unit := do
  sys (.fprintf f lineFormat [.int xSys.wYear, .int xSys.wMonth, .int xSys.wDay,
    .int xSys.wHour, .int xSys.wMinute, .int xSys.wSecond, .str szMsg])
  let m_bCutByDate ← this .m_bCutByDate
  let m_xDate ← this .m_xDate
  if m_bCutByDate && m_xDate.wDay != xSys.wDay then rotateCode f xSys else flushDueCode f

/-- `CLogFile::OutPutString` -/
def outPutStringCode (str : Bytes) (args : List Printf.Arg) : FileCode Unit := do
  let szMsg ← sys (.vsnprintf 4096 str args)
  dumpCode szMsg
  let xSys ← sys .getSystemTime
  match ← this .m_pFile with
  | some f => writeLineCode f szMsg xSys
  | none => pure ()

/-- What a function does under the lock; only `Open` returns something. -/
def body : Call → FileCode (Option Bool)
  | .Open szFile => do
    let b ← openCode szFile
    pure (some b)
  | .outPutString str args => do
    outPutStringCode str args
    pure none
  | .fFlush => do
    fFlushCode
    pure none
  | .close => do
    closeCode
    pure none

/-- The code of the functions as `Log.lean` has it, with what they return. -/
def Call.codeWith (x : CLogFile) : Call → LogCode (Option Bool × CLogFile)
  | Open szFile => do
    let (x, b) ← x.Open szFile
    pure (some b, x)
  | outPutString str args => do
    let x ← x.outPutString str args
    pure (none, x)
  | fFlush => do
    let x ← x.fFlush
    pure (none, x)
  | close => do
    let x ← x.close
    pure (none, x)

theorem Call.codeWith_code (x : CLogFile) (c : Call) :
    c.code x = c.codeWith x >>= fun (_, x') => pure x' := by
  cases c with
  | Open szFile =>
    simp only [Call.code, Call.codeWith, bind_assoc, pure_bind]
  | _ =>
    simp only [Call.code, Call.codeWith, bind_assoc, pure_bind, bind_pure]

/-- The object and its lock `m_cs`, for threads `ι`. -/
def monitor (rt : Runtime) (ι : Type) :
    Monitor ι Call FileOp FileOp.Reply (Option Bool) (CLogFile × Stdio) LogOutcome where
  body _ c := MonitorCode.inside (body c)
  nested _ c := nested_inside (body c)
  exec _ := ObjectOp.exec Access.exec (LogOp.exec rt)

/-! ## The object passed through -/

/-- Code with its object passed through. -/
abbrev through {α : Type} (p : FileCode α) (x : CLogFile) : LogCode (α × CLogFile) :=
  p.passing Access.exec x

section

variable {x : CLogFile}

theorem through_bind {α β : Type} (p : FileCode α) (f : α → FileCode β) :
    through (p >>= f) x = through p x >>= fun (a, x') => through (f a) x' :=
  Prog.passing_bind f

/-- Both branches go on in the same way. -/
theorem through_ite {α : Type} {c : Prop} [Decidable c] (p q : FileCode α) :
    through (if c then p else q) x = if c then through p x else through q x := by
  split <;> rfl

theorem through_makeDirectoryCode :
    through makeDirectoryCode x = (makeDirectory >>= fun _ => pure ((), x)) := by
  refine congrArg (Prog.op _) (funext fun b => ?_)
  cases b <;> rfl

theorem through_closeOldCode : through closeOldCode x = (x.closeOld >>= fun _ => pure ((), x)) := by
  obtain ⟨_, _, _, m_pFile, _, _, _⟩ := x
  cases m_pFile <;> rfl

theorem through_dumpCode (szMsg : Bytes) :
    through (dumpCode szMsg) x = (x.dump szMsg >>= fun _ => pure ((), x)) := by
  obtain ⟨m_pDumpFunc, _, _, _, _, _, _⟩ := x
  cases m_pDumpFunc <;> rfl

/-- The end of `Open`. -/
theorem through_openFile :
    through (do
      let m_xDate ← this .m_xDate
      let m_pFile ← fopenCode m_xDate
      this (.setFile m_pFile)
      match ← this .m_pFile with
      | none => pure false
      | some _ => do
        let tick ← sys .getTickCount
        this (.setLastTime tick)
        pure true) x
      = ({ x with m_pFile := none }.openFile >>= fun (x', b) => pure (b, x')) := by
  refine congrArg (Prog.op _) (funext fun szFileWhole => ?_)
  refine congrArg (Prog.op _) (funext fun m_pFile => ?_)
  cases m_pFile <;> rfl

theorem through_openCode (szFile : Bytes) :
    through (openCode szFile) x = (x.Open szFile >>= fun (x', b) => pure (b, x')) := by
  rw [openCode, through_bind, through_closeOldCode, Open, bind_assoc, bind_assoc]
  refine congrArg (_ >>= ·) (funext fun _ => ?_)
  refine congrArg (Prog.op _) (funext fun date => ?_)
  refine (through_bind makeDirectoryCode _).trans ?_
  rw [through_makeDirectoryCode, bind_assoc]
  exact Eq.trans (congrArg (_ >>= ·) (funext fun _ => through_openFile)) (bind_assoc ..).symm

theorem through_flushDueCode (f : Nat) :
    through (flushDueCode f) x = (do
      let tick ← logReq .getTickCount
      if tick - x.m_dwLastTime > x.m_dwInterval then do
        logReq (.fflush f)
        let tick ← logReq .getTickCount
        pure ((), { x with m_dwLastTime := tick })
      else pure ((), x) : LogCode (Unit × CLogFile)) := by
  refine congrArg (Prog.op _) (funext fun tick => ?_)
  exact through_ite _ _

theorem through_writeLineCode (f : Nat) (szMsg : Bytes) (xSys : SYSTEMTIME) :
    through (writeLineCode f szMsg xSys) x
      = (x.writeLine f szMsg xSys >>= fun x' => pure ((), x')) := by
  refine congrArg (Prog.op _) (funext fun _ => (through_ite _ _).trans ?_)
  cases hday : x.m_bCutByDate && x.m_xDate.wDay != xSys.wDay with
  | true =>
    simp only [Access.exec, Prog.bind_ret, hday, if_true]
    rfl
  | false =>
    simp only [Access.exec, Prog.bind_ret, hday, Bool.false_eq_true, if_false]
    rw [through_flushDueCode]
    refine congrArg (Prog.op _) (funext fun tick => ?_)
    simp only [Prog.bind_ret]
    split <;> rfl

theorem through_outPutStringCode (str : Bytes) (args : List Printf.Arg) :
    through (outPutStringCode str args) x
      = (x.outPutString str args >>= fun x' => pure ((), x')) := by
  refine congrArg (Prog.op _) (funext fun szMsg => ?_)
  refine (through_bind (dumpCode szMsg) _).trans ?_
  rw [through_dumpCode, bind_assoc]
  refine Eq.trans (congrArg (_ >>= ·) (funext fun _ => ?_)) (bind_assoc ..).symm
  refine congrArg (Prog.op _) (funext fun xSys => ?_)
  obtain ⟨_, _, _, m_pFile, _, _, _⟩ := x
  cases m_pFile with
  | none => rfl
  | some f => exact through_writeLineCode f szMsg xSys

theorem through_closeCode : through closeCode x = (x.close >>= fun x' => pure ((), x')) := by
  obtain ⟨_, _, _, m_pFile, _, _, _⟩ := x
  cases m_pFile <;> rfl

theorem through_fFlushCode : through fFlushCode x = (x.fFlush >>= fun x' => pure ((), x')) := by
  obtain ⟨_, _, _, m_pFile, _, _, _⟩ := x
  cases m_pFile <;> rfl

/-- **Line by line or with the object passed through: the same code.** -/
theorem through_body (c : Call) : through (body c) x = c.codeWith x := by
  cases c with
  | Open szFile =>
    refine (through_bind (openCode szFile) _).trans ?_
    rw [through_openCode, bind_assoc]
    rfl
  | outPutString str args =>
    refine (through_bind (outPutStringCode str args) _).trans ?_
    rw [through_outPutStringCode, bind_assoc]
    rfl
  | fFlush =>
    refine (through_bind fFlushCode _).trans ?_
    rw [through_fFlushCode, bind_assoc]
    rfl
  | close =>
    refine (through_bind closeCode _).trans ?_
    rw [through_closeCode, bind_assoc]
    rfl

end

end CLogFile

end XeMySql
