import XeMySql.Properties.Rotations
import XeMySql.Lib.Wrap

/-!
# How old what has not been flushed can be

`OutPutString` flushes the file when `GetTickCount` says that more than `m_dwInterval` ms have passed since
the last flush. The ticks have 32 bits, and start again from 0 every 50 days.

* `call_watched` — one call
* `Row.inTime` — a row of calls
* `flush_in_time` — at the return of each of them, the last flush is not too long ago
* `flushed_iff_due` — nor is there one too early
-/

namespace XeMySql

open Interact

/-! ## Calls in time -/

/-- A call at the real time `time`, in ms, with what it has been answered, the latest first. -/
structure TimedCall where
  call : CLogFile.Call
  time : Nat
  trace : LogTrace

/-- `GetTickCount` is the real time modulo 2^32. -/
def TimedCall.Ticks (e : TimedCall) : Prop :=
  ∀ tick, ⟨.getTickCount, tick⟩ ∈ e.trace → tick.toNat = e.time % 2 ^ 32

/-- The FILE `f` has been flushed, and nothing has been printed to it since. -/
def flushed (f : Nat) : LogTrace → Bool
  | [] => false
  | ⟨.fflush g, _⟩ :: l => g == f || flushed f l
  | ⟨.fprintf g _ _, _⟩ :: l => g != f && flushed f l
  | _ :: l => flushed f l

/-- The time of the last flush of `f` in calls, the latest first; without one, that of the first call. -/
def lastFlush (f : Nat) : List TimedCall → Nat
  | [] => 0
  | [e] => e.time
  | e :: e' :: es => if flushed f e.trace then e.time else lastFlush f (e' :: es)

theorem lastFlush_cons {f : Nat} {es : List TimedCall} (hes : es ≠ []) (e : TimedCall) :
    lastFlush f (e :: es) = if flushed f e.trace then e.time else lastFlush f es := by
  cases es with
  | nil => exact absurd rfl hes
  | cons e' es => rfl

/-- The times of the calls, the latest first, do not go back, and from each to the next it is less than
2^32 - `T`. -/
def InTurns (T : Nat) (es : List TimedCall) : Prop :=
  es.IsChain fun e e' => e'.time ≤ e.time ∧ e.time + T < e'.time + 2 ^ 32

namespace CLogFile

/-- `OutPutString` and `FFlush`. -/
def Call.inRow : Call → Prop
  | outPutString _ _ => True
  | fFlush => True
  | _ => False

/-- The file `x₀` is opened, and `OutPutString` and `FFlush` follow. -/
inductive Row (rt : Runtime) (x₀ : CLogFile) : List TimedCall → CLogFile → Stdio → Prop
  | opened {s x' s' szFile} (e : TimedCall) (hcall : e.call = .Open szFile)
    (h : (x₀.Open szFile).Runs (LogOp.exec rt) s [] (x', true) s' e.trace) (ht : e.Ticks) :
    Row rt x₀ [e] x' s'
  | called {es x s x' s'} (hrow : Row rt x₀ es x s) (e : TimedCall) (hcall : e.call.inRow)
    (h : (e.call.code x).Runs (LogOp.exec rt) s [] x' s' e.trace) (ht : e.Ticks) :
    Row rt x₀ (e :: es) x' s'

/-! ## One call -/

section

variable {rt : Runtime} {x x' : CLogFile} {f : Nat} {call : Call} {l : LogTrace}

/-- What a call does about flushing the FILE `f`: `OutPutString` flushes it when this is `due`, and
`m_dwLastTime` is the tick after a flush. -/
structure Watched (f : Nat) (call : Call) (x x' : CLogFile) (l : LogTrace) : Prop where
  file : x'.m_pFile = x.m_pFile
  cut : x'.m_bCutByDate = x.m_bCutByDate
  interval : x'.m_dwInterval = x.m_dwInterval
  due : ∃ tick, ⟨.getTickCount, tick⟩ ∈ l ∧
    (flushed f l = true ↔ call = .fFlush ∨ x.m_dwInterval < tick - x.m_dwLastTime)
  taken : flushed f l = true → ⟨.getTickCount, x'.m_dwLastTime⟩ ∈ l
  kept : flushed f l = false → x'.m_dwLastTime = x.m_dwLastTime

theorem writeLine_watched (hcut : x.m_bCutByDate = false) (hcall : call ≠ .fFlush) (szMsg : Bytes)
    (t : SYSTEMTIME) : (x.writeLine f szMsg t).Follows AnyLog l (Watched f call x) := by
  refine ⟨trivial, fun _ _ => ?_⟩
  simp only [Prog.bind_ret, hcut, Bool.false_and]
  refine ⟨trivial, fun tick _ => ?_⟩
  simp only [Prog.bind_ret]
  split
  · next hdue =>
    refine ⟨trivial, fun _ _ => ⟨trivial, fun tick' _ => ?_⟩⟩
    refine ⟨rfl, hcut.symm, rfl, ⟨tick, by simp, ?_⟩, fun _ => List.mem_cons_self, ?_⟩
    · simp [flushed, hdue]
    · simp [flushed]
  · next hdue =>
    refine ⟨rfl, rfl, rfl, ⟨tick, List.mem_cons_self, ?_⟩, ?_, fun _ => rfl⟩
    · simp [flushed, hdue, hcall]
    · simp [flushed]

/-- **Step lemma**: a call however it is answered. -/
theorem call_watched (hcut : x.m_bCutByDate = false) (hf : x.m_pFile = some f)
    (hcall : call.inRow) : (call.code x).Follows AnyLog l (Watched f call x) := by
  cases call with
  | outPutString str args =>
    refine ⟨trivial, fun szMsg _ => ?_⟩
    refine (dump_sameFiles szMsg).bind fun _ l₁ _ => ⟨trivial, fun t _ => ?_⟩
    simp only [Prog.bind_ret, hf]
    have hne : Call.outPutString str args ≠ .fFlush := nofun
    exact writeLine_watched hcut hne szMsg t
  | fFlush =>
    show (x.fFlush).Follows AnyLog l _
    unfold fFlush
    rw [hf]
    refine ⟨trivial, fun _ _ => ⟨trivial, fun tick _ => ?_⟩⟩
    refine ⟨hf.symm, rfl, rfl, ⟨tick, List.mem_cons_self, ?_⟩, fun _ => List.mem_cons_self, ?_⟩
    · simp [flushed]
    · simp [flushed]
  | Open szFile => exact hcall.elim
  | close => exact hcall.elim

/-- Whether the flush was due, by the ticks. -/
theorem Watched.flushed_iff {e : TimedCall} {es : List TimedCall}
    (h : Watched f e.call x x' e.trace) (ht : e.Ticks)
    (hlast : x.m_dwLastTime.toNat = lastFlush f es % 2 ^ 32) :
    flushed f e.trace = true ↔ e.call = .fFlush ∨
      x.m_dwInterval.toNat < Wrap.elapsed (2 ^ 32) (lastFlush f es) e.time := by
  obtain ⟨tick, htick, hdue⟩ := h.due
  have helapsed : (tick - x.m_dwLastTime).toNat = Wrap.elapsed (2 ^ 32) (lastFlush f es) e.time := by
    rw [UInt32.toNat_sub, ht tick htick, hlast]
    rfl
  rwa [UInt32.lt_iff_toNat_lt, helapsed] at hdue

/-- `m_dwLastTime` stays the tick of the last flush. -/
theorem Watched.last {e : TimedCall} {es : List TimedCall} (h : Watched f e.call x x' e.trace)
    (ht : e.Ticks) (hes : es ≠ []) (hlast : x.m_dwLastTime.toNat = lastFlush f es % 2 ^ 32) :
    x'.m_dwLastTime.toNat = lastFlush f (e :: es) % 2 ^ 32 := by
  rw [lastFlush_cons hes]
  cases hflushed : flushed f e.trace with
  | true => exact ht _ (h.taken hflushed)
  | false =>
    rw [h.kept hflushed]
    exact hlast

end

/-! ## A row of calls -/

section

variable {rt : Runtime} {x₀ x x' : CLogFile} {s : Stdio} {f : Nat} {es : List TimedCall}

/-- What holds of a file with the FILE `f` when a call returns: `m_dwLastTime` is the tick of the last
flush, and this is not too long ago. -/
structure InTime (x₀ : CLogFile) (f : Nat) (es : List TimedCall) (x : CLogFile) : Prop where
  file : x.m_pFile = some f
  cut : x.m_bCutByDate = false
  interval : x.m_dwInterval = x₀.m_dwInterval
  last : x.m_dwLastTime.toNat = lastFlush f es % 2 ^ 32
  fresh : ∃ e earlier, es = e :: earlier ∧ lastFlush f es ≤ e.time ∧
    e.time ≤ lastFlush f es + x₀.m_dwInterval.toNat

theorem open_inTime (szFile : Bytes) {x : CLogFile} {l : LogTrace} :
    (x.Open szFile).Follows AnyLog l fun a l' => a.1.m_bCutByDate = x.m_bCutByDate ∧
      a.1.m_dwInterval = x.m_dwInterval ∧ (a.2 = true → ∃ f, a.1.m_pFile = some f ∧
        ⟨.getTickCount, a.1.m_dwLastTime⟩ ∈ l') := by
  have hany : ∀ {α : Type} (p : LogCode α) (l : LogTrace), p.Follows AnyLog l fun _ _ => True :=
    fun _ _ => Prog.follows_true fun _ _ => trivial
  refine (hany x.closeOld l).bind fun _ l₁ _ => ⟨trivial, fun date _ => ?_⟩
  refine (hany makeDirectory _).bind fun _ l₂ _ => ?_
  refine (hany (fopenByDate (CString.cstr szFile) date) l₂).bind fun m l₃ _ => ?_
  cases m with
  | none => exact ⟨rfl, rfl, nofun⟩
  | some f => exact ⟨trivial, fun tick _ => ⟨rfl, rfl, fun _ => ⟨f, rfl, List.mem_cons_self⟩⟩⟩

/-- A call has flushed the FILE `f` neither too late nor too early. -/
structure Punctual (T f : Nat) (e : TimedCall) (earlier : List TimedCall) : Prop where
  notLate : e.time ≤ lastFlush f (e :: earlier) + T
  notEarly : earlier ≠ [] →
    (flushed f e.trace = true ↔ e.call = .fFlush ∨ lastFlush f earlier + T < e.time)

/-- One call more. -/
theorem InTime.call (h : InTime x₀ f es x) {e : TimedCall} (hw : Watched f e.call x x' e.trace)
    (ht : e.Ticks) (hturns : InTurns x₀.m_dwInterval.toNat (e :: es)) :
    InTime x₀ f (e :: es) x' ∧ Punctual x₀.m_dwInterval.toNat f e es := by
  obtain ⟨e', earlier, rfl, hle, hfresh⟩ := h.fresh
  have hes : e' :: earlier ≠ [] := List.cons_ne_nil _ _
  obtain ⟨⟨hforth, hgap⟩, -⟩ := List.isChain_cons_cons.mp hturns
  have hflushed := hw.flushed_iff ht h.last
  rw [h.interval, Wrap.due_iff hle hforth hfresh hgap] at hflushed
  have hnow : lastFlush f (e :: e' :: earlier) ≤ e.time ∧
      e.time ≤ lastFlush f (e :: e' :: earlier) + x₀.m_dwInterval.toNat := by
    rw [lastFlush_cons hes]
    split
    · exact ⟨Nat.le_refl _, Nat.le_add_right _ _⟩
    · next hnot =>
      rw [hflushed, not_or, Nat.not_lt] at hnot
      exact ⟨hle.trans hforth, hnot.2⟩
  exact ⟨⟨hw.file.trans h.file, hw.cut.trans h.cut, hw.interval.trans h.interval,
    hw.last ht hes h.last, e, e' :: earlier, rfl, hnow⟩, hnow.2, fun _ => hflushed⟩

/-- **Run lemma.** -/
theorem Row.inTime (h : Row rt x₀ es x s) (hcut : x₀.m_bCutByDate = false)
    (hturns : InTurns x₀.m_dwInterval.toNat es) : ∃ f, InTime x₀ f es x ∧
      ∀ e earlier, e :: earlier <:+ es → Punctual x₀.m_dwInterval.toNat f e earlier := by
  induction h with
  | opened e hcall h ht =>
    obtain ⟨hcut', hinterval, hfile⟩ :=
      h.answered (fun _ _ _ _ _ _ _ => trivial) (open_inTime _)
    obtain ⟨f, hf, htick⟩ := hfile rfl
    have hnow : e.time ≤ lastFlush f [e] + x₀.m_dwInterval.toNat := Nat.le_add_right _ _
    refine ⟨f, ⟨hf, hcut'.trans hcut, hinterval, ht _ htick, e, [], rfl, Nat.le_refl _, hnow⟩, ?_⟩
    intro e₁ earlier hsuffix
    rcases List.suffix_cons_iff.mp hsuffix with heq | hnil
    · cases heq
      exact ⟨hnow, fun hne => absurd rfl hne⟩
    · cases List.suffix_nil.mp hnil
  | called hrow e hcall h ht ih =>
    obtain ⟨f, hin, hall⟩ := ih (List.IsChain.of_cons hturns)
    have hw := h.answered (fun _ _ _ _ _ _ _ => trivial) (call_watched hin.cut hin.file hcall)
    obtain ⟨hin', hpunctual⟩ := hin.call hw ht hturns
    refine ⟨f, hin', ?_⟩
    intro e₁ earlier hsuffix
    rcases List.suffix_cons_iff.mp hsuffix with heq | hsuffix
    · cases heq
      exact hpunctual
    · exact hall e₁ earlier hsuffix

/-- `OutPutString` flushes the file when more than `m_dwInterval` has passed since the last flush, and not
before. -/
theorem flushed_iff_due (h : Row rt x₀ es x s) (hcut : x₀.m_bCutByDate = false)
    (hturns : InTurns x₀.m_dwInterval.toNat es) :
    ∃ f, x.m_pFile = some f ∧ ∀ e earlier, e :: earlier <:+ es → earlier ≠ [] →
      (flushed f e.trace = true ↔
        e.call = .fFlush ∨ lastFlush f earlier + x₀.m_dwInterval.toNat < e.time) := by
  obtain ⟨f, hin, hall⟩ := h.inTime hcut hturns
  exact ⟨f, hin.file, fun e earlier hsuffix => (hall e earlier hsuffix).notEarly⟩

/-- **A flush is never long ago.** The file is not cut by date, it is opened, and the calls follow each
other in less than 2^32 ms without `m_dwInterval`. At the return of each of them the file has just been
flushed, or its last flush, or `Open`, is not more than `m_dwInterval` ago. -/
theorem flush_in_time (h : Row rt x₀ es x s) (hcut : x₀.m_bCutByDate = false)
    (hturns : InTurns x₀.m_dwInterval.toNat es) :
    ∃ f, x.m_pFile = some f ∧ ∀ e earlier, e :: earlier <:+ es →
      flushed f e.trace = true ∨ e.time ≤ lastFlush f (e :: earlier) + x₀.m_dwInterval.toNat := by
  obtain ⟨f, hin, hall⟩ := h.inTime hcut hturns
  exact ⟨f, hin.file, fun e earlier hsuffix => Or.inr (hall e earlier hsuffix).notLate⟩

end

/-- A log file that is not cut by date, opened 10 s before the ticks wrap around. -/
def uncut : CLogFile :=
  { openedInJanuary with m_bCutByDate := false, m_dwLastTime := 4294957296 }

theorem uncut_opened : ∃ s l, (CLogFile.Open { m_bCutByDate := false } [76]).Runs
    (LogOp.exec .printing) {} [] (uncut, true) s l ∧
    (TimedCall.mk (.Open [76]) (2 ^ 32 - 10000) l).Ticks ∧ flushed 0 l = false ∧
      s.closed 0 = false := by
  refine ⟨_, _, .reply { time := lastOfJanuary } rfl (.reply {} rfl
    (.reply {} (exec_path printsLog_printing (by decide +kernel) _ _) (.reply {} rfl
      (.reply { tick := 4294957296 } rfl .ret)))), ?_, rfl, rfl⟩
  intro tick htick
  obtain rfl : tick = 4294957296 := by simpa using htick
  rfl

/-- After 50 s a line is left in the buffer. -/
theorem uncut_spared {s : Stdio} (hopen : s.closed 0 = false) : ∃ s' l',
    (uncut.outPutString [104] []).Runs (LogOp.exec .printing) s [] uncut s' l' ∧
    (TimedCall.mk (.outPutString [104] []) (2 ^ 32 + 40000) l').Ticks ∧ flushed 0 l' = false ∧
      s'.closed 0 = false := by
  refine ⟨_, _, .reply {} rfl (.reply { time := lastOfJanuary } rfl
    (.reply {} (LogOp.exec_fprintf hopen _ _ _) (.reply { tick := 40000 } rfl .ret))), ?_, rfl, hopen⟩
  intro tick htick
  obtain rfl : tick = 40000 := by simpa using htick
  rfl

/-- After 70 s a line is flushed. -/
theorem uncut_flushed {s : Stdio} (hopen : s.closed 0 = false) : ∃ x' s' l',
    (uncut.outPutString [104] []).Runs (LogOp.exec .printing) s [] x' s' l' ∧
    (TimedCall.mk (.outPutString [104] []) (2 ^ 32 + 60000) l').Ticks ∧ flushed 0 l' = true := by
  refine ⟨_, _, _, .reply {} rfl (.reply { time := lastOfJanuary } rfl
    (.reply {} (LogOp.exec_fprintf hopen _ _ _) (.reply { tick := 60000 } rfl (.reply {} rfl
      (.reply { tick := 60000 } rfl .ret))))), ?_, rfl⟩
  intro tick htick
  obtain rfl : tick = 60000 := by simpa using htick
  rfl

/-- The line after 50 s does not flush the file, the one after 70 s does. In between the ticks have wrapped
around. -/
theorem flush_in_time_over_wrap : ∃ es x s, Row .printing { m_bCutByDate := false } es x s ∧
    es.map TimedCall.time = [2 ^ 32 + 60000, 2 ^ 32 + 40000, 2 ^ 32 - 10000] ∧
    es.map (fun e => flushed 0 e.trace) = [true, false, false] ∧
    ∃ f, x.m_pFile = some f ∧ ∀ e earlier, e :: earlier <:+ es →
      flushed f e.trace = true ∨ e.time ≤ lastFlush f (e :: earlier) + 60000 := by
  obtain ⟨s₁, l₁, hopen, ht₁, hl₁, hc₁⟩ := uncut_opened
  obtain ⟨s₂, l₂, hspared, ht₂, hl₂, hc₂⟩ := uncut_spared hc₁
  obtain ⟨x₃, s₃, l₃, hflushed, ht₃, hl₃⟩ := uncut_flushed hc₂
  have hrow₁ : Row .printing { m_bCutByDate := false } [⟨.Open [76], 2 ^ 32 - 10000, l₁⟩] uncut s₁ :=
    .opened _ rfl hopen ht₁
  have hrow₂ := hrow₁.called ⟨.outPutString [104] [], 2 ^ 32 + 40000, l₂⟩ trivial hspared ht₂
  have hrow₃ := hrow₂.called ⟨.outPutString [104] [], 2 ^ 32 + 60000, l₃⟩ trivial hflushed ht₃
  have hinterval : (60000 : UInt32).toNat = 60000 := rfl
  refine ⟨_, _, _, hrow₃, rfl, ?_, flush_in_time hrow₃ rfl ?_⟩
  · simp only [List.map_cons, List.map_nil, hl₁, hl₂, hl₃]
  · refine .cons_cons ⟨?_, ?_⟩ (.cons_cons ⟨?_, ?_⟩ (.singleton _))
    all_goals dsimp only [hinterval]
    all_goals omega

end CLogFile

end XeMySql
