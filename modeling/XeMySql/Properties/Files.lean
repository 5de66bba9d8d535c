import XeMySql.Log
import XeMySql.Lib.Ledger

/-!
# The life of a log file

The functions of one `CLogFile` in any order, at any times and with any outcomes, and the destructor
at the end. `Close` leaves the FILE it has closed in `m_pFile`, so that whatever comes next uses it.

* `Fine.Open`, `Fine.outPutString`, `Fine.fFlush` — all but `Close` leave just `m_pFile` open
* `Spoilt.code` — what `Close` has spoilt stays so
* `files_settled_iff` — which lives end with every FILE closed once
* `closed_twice` — the console is closed, and then the program ends
-/

namespace XeMySql

open Interact Ledger

/-! ## The books of a log file -/

/-- What an answer says of FILEs. -/
def fileDeal : Answer LogOp LogOp.Reply → Option (Deal Nat)
  | ⟨.fopen _, f⟩ => (f : Option Nat).map .acquire
  | ⟨.fprintf f _ _, _⟩ => some (.use f)
  | ⟨.fflush f, _⟩ => some (.use f)
  | ⟨.fclose f, _⟩ => some (.release f)
  | _ => none

/-- The dealings with FILEs in a trace. -/
def fileDeals (l : LogTrace) : List (Deal Nat) := l.filterMap fileDeal

/-- The requests that have to do with FILEs. -/
def LogOp.onFile : LogOp → Bool
  | fopen _ => true
  | fprintf _ _ _ => true
  | fflush _ => true
  | fclose _ => true
  | _ => false

/-- After the trace `l`, just the FILEs `live` are open, and all have been opened by `s`. -/
structure LiveFiles (live : List Nat) (s : Stdio) (l : LogTrace) : Prop where
  books : Open (fileDeals l) live
  fresh : ∀ f ∈ acquired (fileDeals l), f < s.files

section

variable {rt : Runtime} {live : List Nat} {s s₁ : Stdio} {l : LogTrace} {f : Nat} {o : LogOutcome}

/-- Other requests change no books. -/
theorem fileDeals_other {e : LogOp} (he : e.onFile = false) (r : e.Reply) :
    fileDeals (⟨e, r⟩ :: l) = fileDeals l := by
  cases e with
  | fopen path => cases he
  | fprintf f fmt args => cases he
  | fflush f => cases he
  | fclose f => cases he
  | _ => rfl

/-- They open no FILEs. -/
theorem files_other {e : LogOp} (he : e.onFile = false) {r : e.Reply}
    (hx : e.exec rt o s = some (s₁, some r)) : s₁.files = s.files := by
  cases e with
  | vsnprintf n fmt args =>
    simp only [LogOp.exec] at hx
    split at hx <;> cases hx <;> rfl
  | sprintf n fmt args =>
    simp only [LogOp.exec] at hx
    split at hx
    · split at hx <;> cases hx
      rfl
    · cases hx
      rfl
  | fopen path => cases he
  | fprintf f fmt args => cases he
  | fflush f => cases he
  | fclose f => cases he
  | _ =>
    cases hx
    rfl

/-- Code that makes no other ones. -/
theorem other_always {α : Type} {p : LogCode α} (hp : p.Only fun e => e.onFile = false) :
    p.Always (LogOp.exec rt) s l
      fun _ s' l' => fileDeals l' = fileDeals l ∧ s'.files = s.files := by
  induction p generalizing s l with
  | ret a => exact Prog.always_ret ⟨rfl, rfl⟩
  | op e k ih =>
    refine always_log fun o s₁ r hx => (ih r (hp.2 r)).mono ?_
    rintro a s' l' ⟨hl, hs⟩
    exact ⟨hl.trans (fileDeals_other hp.1 r), hs.trans (files_other hp.1 hx)⟩

namespace LiveFiles

theorem congr (h : LiveFiles live s l) {s' : Stdio} {l' : LogTrace}
    (hl : fileDeals l' = fileDeals l) (hs : s'.files = s.files) : LiveFiles live s' l' :=
  ⟨by rw [hl]; exact h.books, by rw [hl, hs]; exact h.fresh⟩

/-- `fopen` -/
theorem fopen (h : LiveFiles live s l) {path : Bytes} {m : Option Nat}
    (hx : (LogOp.fopen path).exec rt o s = some (s₁, some m)) :
    LiveFiles (m.toList ++ live) s₁ (⟨.fopen path, m⟩ :: l) := by
  simp only [LogOp.exec] at hx
  split at hx <;> cases hx
  · refine ⟨h.books.acquire fun hx => absurd (h.fresh _ hx) (Nat.lt_irrefl _), fun g hg => ?_⟩
    rcases List.mem_cons.mp hg with rfl | hg
    · exact Nat.lt_succ_self _
    · exact Nat.lt_succ_of_lt (h.fresh g hg)
  · exact ⟨h.books, h.fresh⟩

/-- `fclose` -/
theorem fclose (h : LiveFiles (f :: live) s l) {r : Unit}
    (hx : (LogOp.fclose f).exec rt o s = some (s₁, some r)) :
    LiveFiles live s₁ (⟨.fclose f, r⟩ :: l) := by
  cases hx
  exact ⟨h.books.release, h.fresh⟩

/-- `fflush` -/
theorem fflush (h : LiveFiles live s l) (hf : f ∈ live) : LiveFiles live s (⟨.fflush f, ()⟩ :: l) :=
  ⟨h.books.use hf, h.fresh⟩

/-- `fprintf` -/
theorem fprintf (h : LiveFiles live s l) (hf : f ∈ live) {fmt : Bytes} {args : List Printf.Arg}
    {r : Unit} (hx : (LogOp.fprintf f fmt args).exec rt o s = some (s₁, some r)) :
    LiveFiles live s₁ (⟨.fprintf f fmt args, r⟩ :: l) := by
  refine ⟨h.books.use hf, ?_⟩
  simp only [LogOp.exec] at hx
  split at hx <;> cases hx <;> exact h.fresh

end LiveFiles

namespace CLogFile

variable {x : CLogFile}

theorem dump_only (x : CLogFile) (szMsg : Bytes) : (x.dump szMsg).Only fun e => e.onFile = false := by
  unfold dump
  cases x.m_pDumpFunc with
  | none => trivial
  | some func => exact ⟨rfl, fun _ => trivial⟩

theorem makeDirectory_only : makeDirectory.Only fun e => e.onFile = false := by
  refine ⟨rfl, fun there => ?_⟩
  cases there with
  | true => trivial
  | false => exact ⟨rfl, fun _ => trivial⟩

/-- The beginning of `OutPutString`. -/
theorem message_always (x : CLogFile) (str : Bytes) (args : List Printf.Arg) {α : Type}
    {k : Bytes → SYSTEMTIME → LogCode α} {Q : α → Stdio → LogTrace → Prop}
    (h : ∀ szMsg xSys s' l', fileDeals l' = fileDeals l → s'.files = s.files →
      (k szMsg xSys).Always (LogOp.exec rt) s' l' Q) :
    (do
      let szMsg ← logReq (.vsnprintf 4096 str args)
      x.dump szMsg
      let xSys ← logReq .getSystemTime
      k szMsg xSys).Always (LogOp.exec rt) s l Q := by
  refine always_log fun o s₁ szMsg hx => ?_
  refine (other_always (dump_only x szMsg)).bind ?_
  rintro _ s₂ l₂ ⟨hl, hs⟩
  refine always_log fun o s₃ xSys hx' => h szMsg xSys _ _ hl ?_
  exact (files_other rfl hx').trans (hs.trans (files_other rfl hx))

/-! ## Without `Close` -/

/-- Just the FILE of the log file is open. -/
def Fine (x : CLogFile) (s : Stdio) (l : LogTrace) : Prop := LiveFiles x.m_pFile.toList s l

theorem fopenByDate_files (h : LiveFiles [] s l) (name : Bytes) (t : SYSTEMTIME) :
    (fopenByDate name t).Always (LogOp.exec rt) s l fun m s' l' => LiveFiles m.toList s' l' := by
  refine always_log fun o s₁ szFileWhole hx => ?_
  have h := h.congr (fileDeals_other rfl szFileWhole) (files_other rfl hx)
  refine always_log fun o s₂ m hx => Prog.always_ret ?_
  have h := h.fopen hx
  rwa [List.append_nil] at h

theorem Fine.closeOld (h : Fine x s l) : x.closeOld.Always (LogOp.exec rt) s l
    fun _ s' l' => LiveFiles [] s' l' := by
  unfold Fine at h
  unfold CLogFile.closeOld
  cases hf : x.m_pFile with
  | none =>
    rw [hf] at h
    exact Prog.always_ret h
  | some f =>
    rw [hf] at h
    exact always_log fun o s₁ _ hx => Prog.always_ret (h.fclose hx)

theorem Fine.Open (h : Fine x s l) (szFile : Bytes) : (x.Open szFile).Always (LogOp.exec rt) s l
    fun a s' l' => Fine a.1 s' l' := by
  refine h.closeOld.bind fun _ s₁ l₁ h => ?_
  refine always_log fun o s₂ date hx => ?_
  have h := h.congr (fileDeals_other rfl date) (files_other rfl hx)
  refine (other_always makeDirectory_only).bind ?_
  rintro _ s₃ l₃ ⟨hl, hs⟩
  refine (fopenByDate_files (h.congr hl hs) _ _).bind fun m s₄ l₄ h => ?_
  cases m with
  | none => exact Prog.always_ret h
  | some f =>
    refine always_log fun o s₅ tick hx => Prog.always_ret ?_
    exact h.congr (fileDeals_other rfl tick) (files_other rfl hx)

/-- The FILE that is open after a line: the one that was, or one of another day. -/
theorem writeLine_files (h : LiveFiles [f] s l) (hf : x.m_pFile = some f) (szMsg : Bytes)
    (xSys : SYSTEMTIME) :
    (x.writeLine f szMsg xSys).Always (LogOp.exec rt) s l fun x' s' l' => Fine x' s' l' := by
  have hfine : ∀ {s l} {x' : CLogFile}, x'.m_pFile = x.m_pFile → LiveFiles [f] s l → Fine x' s l := by
    intro s l x' hx' h
    unfold Fine
    rw [hx', hf]
    exact h
  refine always_log fun o s₁ _ hx => ?_
  have h := h.fprintf List.mem_cons_self hx
  split
  · refine always_log fun o s₂ _ hx => ?_
    refine (fopenByDate_files (h.fclose hx) _ _).bind fun m s₃ l₃ h => ?_
    refine always_log fun o s₄ tick hx => Prog.always_ret ?_
    exact h.congr (fileDeals_other rfl tick) (files_other rfl hx)
  · refine always_log fun o s₂ tick hx => ?_
    have h := h.congr (fileDeals_other rfl tick) (files_other rfl hx)
    rw [Prog.bind_ret]
    split
    · refine always_log fun o s₃ _ hx => always_log fun o' s₄ tick hx' => Prog.always_ret ?_
      cases hx
      exact hfine rfl ((h.fflush List.mem_cons_self).congr (fileDeals_other rfl tick)
        (files_other rfl hx'))
    · exact Prog.always_ret (hfine rfl h)

theorem Fine.outPutString (h : Fine x s l) (str : Bytes) (args : List Printf.Arg) :
    (x.outPutString str args).Always (LogOp.exec rt) s l fun x' s' l' => Fine x' s' l' := by
  refine message_always x str args fun szMsg xSys s₁ l₁ hl hs => ?_
  have h : Fine x s₁ l₁ := h.congr hl hs
  cases hf : x.m_pFile with
  | none => exact Prog.always_ret h
  | some f =>
    unfold Fine at h
    rw [hf] at h
    exact writeLine_files h hf szMsg xSys

theorem Fine.fFlush (h : Fine x s l) :
    x.fFlush.Always (LogOp.exec rt) s l fun x' s' l' => Fine x' s' l' := by
  unfold CLogFile.fFlush
  cases hf : x.m_pFile with
  | none => exact Prog.always_ret h
  | some f =>
    unfold Fine at h
    rw [hf] at h
    refine always_log fun o s₁ _ hx => always_log fun o' s₂ tick hx' => Prog.always_ret ?_
    cases hx
    exact (h.fflush List.mem_cons_self).congr (fileDeals_other rfl tick) (files_other rfl hx')

/-- `Close` finds nothing. -/
theorem Fine.close (h : Fine x s l) (hf : x.m_pFile = none) :
    x.close.Always (LogOp.exec rt) s l fun x' s' l' => Fine x' s' l' := by
  unfold CLogFile.close
  rw [hf]
  exact Prog.always_ret h

/-- At the end of its life the FILE is closed. -/
theorem Fine.destroy (h : Fine x s l) : x.close.Always (LogOp.exec rt) s l
    fun _ s' l' => LiveFiles [] s' l' := by
  unfold Fine at h
  unfold CLogFile.close
  cases hf : x.m_pFile with
  | none =>
    rw [hf] at h
    exact Prog.always_ret h
  | some f =>
    rw [hf] at h
    refine always_log fun o s₁ _ hx => always_log fun o' s₂ _ hx' => Prog.always_ret ?_
    cases hx
    exact (h.fflush List.mem_cons_self).fclose hx'

/-! ## After `Close` -/

/-- FILEs have been used after their end, or the one of the log file has been closed. -/
def Spoilt (x : CLogFile) (l : LogTrace) : Prop :=
  ¬ Clean (fileDeals l) ∨ ∃ f, x.m_pFile = some f ∧ f ∈ released (fileDeals l)

/-- What has been done wrong stays in the trace. -/
theorem unclean_file {α : Type} (p : LogCode α) (h : ¬ Clean (fileDeals l)) :
    p.Always (LogOp.exec rt) s l fun _ _ l' => ¬ Clean (fileDeals l') := by
  intro a s' l' hr hc
  exact h (hc.of_suffix hr.suffix)

/-- A request that touches a FILE that has been closed. -/
theorem unclean_op {α : Type} {e : LogOp} {k : e.Reply → LogCode α}
    (hd : ∀ r, fileDeal ⟨e, r⟩ = some (.use f) ∨ fileDeal ⟨e, r⟩ = some (.release f))
    (hr : f ∈ released (fileDeals l)) :
    (Prog.op e k : LogCode α).Always (LogOp.exec rt) s l fun _ _ l' => ¬ Clean (fileDeals l') := by
  refine always_log fun o s₁ r hx => unclean_file _ ?_
  unfold fileDeals
  rcases hd r with hd | hd <;> rw [List.filterMap_cons, hd] <;> exact fun hc => hc.1 hr

/-- Every call but one that finds no FILE makes it worse. -/
theorem Spoilt.code (h : Spoilt x l) (call : Call) :
    (call.code x).Always (LogOp.exec rt) s l fun _ _ l' => ¬ Clean (fileDeals l') := by
  rcases h with h | ⟨f, hf, hr⟩
  · exact unclean_file _ h
  · cases call with
    | Open szFile =>
      simp only [Call.code, CLogFile.Open, closeOld, hf]
      exact unclean_op (fun _ => Or.inr rfl) hr
    | outPutString str args =>
      refine message_always x str args fun szMsg xSys s₁ l₁ hl _ => ?_
      rw [hf]
      exact unclean_op (fun _ => Or.inl rfl) (by rwa [hl])
    | fFlush =>
      simp only [Call.code, CLogFile.fFlush, hf]
      exact unclean_op (fun _ => Or.inl rfl) hr
    | close =>
      simp only [Call.code, CLogFile.close, hf]
      exact unclean_op (fun _ => Or.inl rfl) hr

/-- `Close` on an open FILE spoils it. -/
theorem close_spoils_file (hf : x.m_pFile = some f) :
    x.close.Always (LogOp.exec rt) s l fun x' _ l' => Spoilt x' l' := by
  unfold CLogFile.close
  rw [hf]
  refine always_log fun o s₁ _ _ => always_log fun o' s₂ _ _ => Prog.always_ret ?_
  exact Or.inr ⟨f, hf, List.mem_cons_self⟩

/-! ## Whole lives -/

variable {cs : List (Call × CLogFile × Stdio)} {x' : CLogFile} {s' : Stdio} {l' : LogTrace}

/-- A life in which no open FILE is given to `Close`. -/
theorem Fine.calls (h : Fine x s l) (hcalls : Calls rt x s l cs x' s' l')
    (hclose : ∀ c ∈ cs, c.1 = .close → c.2.1.m_pFile = none) : Fine x' s' l' := by
  induction hcalls with
  | nil => exact h
  | @cons x s l x₁ s₁ l₁ _ _ _ _ call hrun _ ih =>
    refine ih ?_ fun c hc => hclose c (List.mem_cons_of_mem _ hc)
    cases call with
    | Open szFile =>
      have hopen : (Call.code x (.Open szFile)).Always (LogOp.exec rt) s l fun x' s' l' => Fine x' s' l' :=
        (h.Open szFile).bind fun _ _ _ h => Prog.always_ret h
      exact hopen _ _ _ hrun
    | outPutString str args => exact h.outPutString str args _ _ _ hrun
    | fFlush => exact h.fFlush _ _ _ hrun
    | close => exact h.close (hclose _ List.mem_cons_self rfl) _ _ _ hrun

/-- A spoilt life stays spoilt. -/
theorem Spoilt.calls (h : Spoilt x l) (hcalls : Calls rt x s l cs x' s' l') : Spoilt x' l' := by
  induction hcalls with
  | nil => exact h
  | cons call hrun _ ih => exact ih (Or.inl (h.code call _ _ _ hrun))

/-- A life in which an open FILE is given to `Close`. -/
theorem spoilt_of_close_file (hcalls : Calls rt x s l cs x' s' l')
    (hclose : ∃ c ∈ cs, c.1 = .close ∧ c.2.1.m_pFile ≠ none) : Spoilt x' l' := by
  induction hcalls with
  | nil =>
    obtain ⟨c, hc, -⟩ := hclose
    cases hc
  | cons call hrun hrest ih =>
    obtain ⟨c, hc, hcl, hf⟩ := hclose
    rcases List.mem_cons.mp hc with rfl | hc
    · obtain rfl : call = .close := hcl
      obtain ⟨f, hf⟩ := Option.ne_none_iff_exists'.mp hf
      exact Spoilt.calls (close_spoils_file hf _ _ _ hrun) hrest
    · exact ih ⟨c, hc, hcl, hf⟩

end CLogFile

end

open CLogFile

/-- **Every FILE is closed exactly once, and not used afterwards, exactly when `Close` has never found
an open one.** -/
theorem files_settled_iff {rt : Runtime} {x x₁ x₂ : CLogFile} {s s₁ s₂ : Stdio} {l₁ l₂ : LogTrace}
    {calls : List (Call × CLogFile × Stdio)} (hnew : x.m_pFile = none)
    (hcalls : Calls rt x s [] calls x₁ s₁ l₁) (hend : x₁.close.Runs (LogOp.exec rt) s₁ l₁ x₂ s₂ l₂) :
    Settled (fileDeals l₂) ↔ ∀ c ∈ calls, c.1 = .close → c.2.1.m_pFile = none := by
  constructor
  · intro h c hc hcl
    by_contra hf
    exact (spoilt_of_close_file hcalls ⟨c, hc, hcl, hf⟩).code .close _ _ _ hend h.1
  · intro hclose
    have hfine : Fine x s [] := by
      unfold Fine
      rw [hnew]
      exact ⟨Open.nil, by simp [fileDeals, acquired]⟩
    exact ((hfine.calls hcalls hclose).destroy _ _ _ hend).books.settled

/-- A log file that is opened and destroyed. -/
theorem files_settled_of_open : ∃ x₁ x₂ s₁ s₂ l₁ l₂ calls,
    Calls .printing {} {} [] calls x₁ s₁ l₁ ∧
    x₁.close.Runs (LogOp.exec .printing) s₁ l₁ x₂ s₂ l₂ ∧ calls.length = 1 ∧
    (Settled (fileDeals l₂) ↔ ∀ c ∈ calls, c.1 = .close → c.2.1.m_pFile = none) := by
  have hpath := @exec_path .printing printsLog_printing [76] {} (by decide +kernel)
  obtain ⟨x₁, s₁, l₁, hf, hcalls⟩ : ∃ x₁ s₁ l₁, x₁.m_pFile = some 0 ∧
      Calls .printing {} {} [] [(.Open [76], {}, {})] x₁ s₁ l₁ :=
    ⟨_, _, _, by rfl, .cons (.Open [76]) (.reply {} rfl (.reply {} rfl (.reply {} (hpath _ _)
      (.reply {} rfl (.reply {} rfl .ret))))) .nil⟩
  obtain ⟨x₂, s₂, l₂, hend⟩ : ∃ x₂ s₂ l₂, x₁.close.Runs (LogOp.exec .printing) s₁ l₁ x₂ s₂ l₂ := by
    unfold CLogFile.close
    rw [hf]
    exact ⟨_, _, _, .reply {} rfl (.reply {} rfl .ret)⟩
  exact ⟨x₁, x₂, s₁, s₂, l₁, l₂, _, hcalls, hend, rfl, files_settled_iff rfl hcalls hend⟩

/-- The console is closed while the log is open. The next line is written to a FILE that has been
closed, and at the end of the program it is closed once more. -/
theorem closed_twice : ∃ x₁ x₂ s₁ s₂ l₁ l₂ calls,
    calls.map Prod.fst = [.Open [76], .close, .outPutString [104] []] ∧
    Calls .printing {} {} [] calls x₁ s₁ l₁ ∧
    x₁.close.Runs (LogOp.exec .printing) s₁ l₁ x₂ s₂ l₂ ∧ ¬ Settled (fileDeals l₂) := by
  have hpath := @exec_path .printing printsLog_printing [76] {} (by decide +kernel)
  obtain ⟨s, s', x₁, s₁, l₁, hf, hcalls⟩ : ∃ s s' x₁ s₁ l₁, x₁.m_pFile = some 0 ∧
      Calls .printing {} {} [] [(.Open [76], {}, {}),
        (.close, { m_szFileName := [76], m_pFile := some 0 }, s),
        (.outPutString [104] [], { m_szFileName := [76], m_pFile := some 0 }, s')] x₁ s₁ l₁ :=
    ⟨_, _, _, _, _, by rfl,
      .cons (.Open [76]) (.reply {} rfl (.reply {} rfl (.reply {} (hpath _ _) (.reply {} rfl
        (.reply {} rfl .ret)))))
      (.cons .close (.reply {} rfl (.reply {} rfl .ret))
      (.cons (.outPutString [104] []) (.reply {} rfl (.reply {} rfl (.reply {} rfl
        (.reply {} rfl .ret)))) .nil))⟩
  obtain ⟨x₂, s₂, l₂, hend⟩ : ∃ x₂ s₂ l₂, x₁.close.Runs (LogOp.exec .printing) s₁ l₁ x₂ s₂ l₂ := by
    unfold CLogFile.close
    rw [hf]
    exact ⟨_, _, _, .reply {} rfl (.reply {} rfl .ret)⟩
  refine ⟨x₁, x₂, s₁, s₂, l₁, l₂, _, rfl, hcalls, hend, fun h => ?_⟩
  exact (spoilt_of_close_file hcalls ⟨_, List.mem_cons_of_mem _ List.mem_cons_self, rfl,
    by simp⟩).code .close _ _ _ hend h.1

end XeMySql
