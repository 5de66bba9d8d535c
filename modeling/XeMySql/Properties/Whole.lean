import XeMySql.Properties.Success
import XeMySql.Lib.Sequence

/-!
# The whole command or nothing

The variadic functions format their command into 1024 bytes on the stack, do not look at what
`vsnprintf` returns, and send what the buffer holds up to its first NUL.

* `query_sends`, `queryData_sends`, `executeSQL_sends` — what they send, however they are answered
* `whole_iff` — when that is the whole command, or nothing
* `cut_off` — a `DELETE` that loses its last condition
-/

namespace XeMySql

open Interact

/-! ## What is sent -/

/-- The text an answer has sent as a query. -/
def Answer.sends : Answer Op Op.Reply → Option Bytes
  | ⟨.lib (.realQuery _ q), _⟩ => some q
  | _ => none

/-- The texts a call has sent, the latest first. -/
def sent (l : Trace) : List Bytes := l.filterMap Answer.sends

/-- The call has found a handle on its connection. -/
def Given (l : Trace) : Prop := ∃ c h, ⟨.con (.getMySql c), some h⟩ ∈ l

/-- What has been sent is the whole command; if nothing has been, `a` is `false`. -/
def Whole (rt : Runtime) (cmd : Bytes) (args : List Printf.Arg) (a : Bool) (l : Trace) : Prop :=
  (∀ q ∈ sent l, Printf.format rt.conv cmd args = some q) ∧ (sent l = [] → a = false)

/-- There is a formatted command, and it fits into the buffer. -/
def Fits (rt : Runtime) (cmd : Bytes) (args : List Printf.Arg) : Prop :=
  ∃ text, Printf.format rt.conv cmd args = some text ∧ FitsBuffer rt text

/-- The call formats `cmd` with `args`: it is one of the variadic overloads of `Query`. -/
inductive Call.Formats (cmd : Bytes) (args : List Printf.Arg) : Call → Prop
  | query : Formats cmd args (query cmd args)
  | queryData (data : Option Nat) : Formats cmd args (queryData cmd data args)

/-! ## However they are answered -/

/-- `vsnprintf` answers with what it keeps of the formatted text. -/
def formatted (rt : Runtime) (_ : Trace) : (e : Op) → e.Reply → Prop
  | .rt (.vsnprintf n fmt args), r =>
    ∀ text, Printf.format rt.conv fmt args = some text → r = text.take (rt.keeps n)
  | _, _ => True

section

variable {rt : Runtime} {cmd : Bytes} {args : List Printf.Arg} {l : Trace}

theorem exec_formatted (l : Trace) {t : Tid} {e : Op} {o : Outcome} {s s' : State} {r : e.Reply}
    (h : exec rt t e o s = some (s', some r)) : formatted rt l e r := by
  cases e with
  | rt e =>
    obtain ⟨heap, hx, -⟩ := exec_rt h
    cases e with
    | vsnprintf n fmt args =>
      intro text htext
      simp only [RtOp.exec, htext] at hx
      cases hx
      rfl
    | _ => trivial
  | _ => trivial

/-- Any answers are allowed, but formatted texts are what they are. -/
abbrev Formatting (rt : Runtime) : Discipline Op Op.Reply Trace :=
  .recording (fun _ _ => True) (formatted rt)

/-- Requests that send no text. -/
def Unsent : Op → Prop
  | .lib (.realQuery _ _) => False
  | _ => True

theorem Unsent.sends {e : Op} (h : Unsent e) (r : e.Reply) : Answer.sends ⟨e, r⟩ = none := by
  cases e with
  | lib e => cases e <;> first | exact h.elim | rfl
  | _ => rfl

theorem unsent_of_onSession (e : Op) (h : OnSession e) : Unsent e := by
  cases e with
  | lib e => cases e <;> first | exact h.elim | trivial
  | _ => trivial

/-- Code that makes no other requests. -/
theorem unsent_sent {α : Type} {p : Code α} (h : p.Only Unsent) :
    p.Follows (Formatting rt) l fun _ l' => sent l' = sent l :=
  h.follows_filterMap (fun _ _ _ => trivial) fun _ r he => he.sends r

/-- What the buffer holds has been sent. -/
def SentBuffer (rt : Runtime) (cmd : Bytes) (args : List Printf.Arg) (l : Trace) : Prop :=
  ∃ r : Bytes, (∀ text, Printf.format rt.conv cmd args = some text →
    r = text.take (rt.keeps 1023)) ∧ sent l = [CString.cstr r]

/-- A text is formatted and sent, and what is done then sends no other. -/
theorem send_buffer {α : Type} {h : Nat} {accepted refused : Bytes → Code α}
    (hl : sent l = []) (hacc : ∀ q, (accepted q).Only Unsent) (href : ∀ q, (refused q).Only Unsent) :
    (do
      let szQuery ← CXEMySql.formatQuery cmd args
      if ← req (.lib (.realQuery h szQuery)) then accepted szQuery
      else refused szQuery : Code α).Follows (Formatting rt) l fun _ l' =>
        SentBuffer rt cmd args l' := by
  refine ⟨trivial, fun r hr => ⟨trivial, fun ok _ => ?_⟩⟩
  have hsent : sent (⟨.lib (.realQuery h (CString.cstr r)), ok⟩ ::
      ⟨.rt (.vsnprintf 1023 cmd args), r⟩ :: l) = [CString.cstr r] := congrArg _ hl
  cases ok with
  | false => exact (unsent_sent (href _)).mono fun _ _ h' => ⟨r, hr, h'.trans hsent⟩
  | true => exact (unsent_sent (hacc _)).mono fun _ _ h' => ⟨r, hr, h'.trans hsent⟩

theorem queryOn_sends (c h : Nat) (hl : sent l = []) :
    (CXEMySql.queryOn c h cmd args).Follows (Formatting rt) l fun _ l' =>
      SentBuffer rt cmd args l' := by
  refine send_buffer hl (fun q => ⟨trivial, fun _ => ⟨trivial, fun _ => trivial⟩⟩) fun q => ?_
  exact (queryFailed_session c h q).mono unsent_of_onSession

theorem queryDataOn_sends (c h : Nat) (data : Option Nat) (hl : sent l = []) :
    (CXEMySql.queryDataOn c h cmd data args).Follows (Formatting rt) l fun _ l' =>
      SentBuffer rt cmd args l' := by
  rw [CXEMySql.queryDataOn_eq]
  refine send_buffer hl (fun q => ⟨trivial, fun _ => ?_⟩) fun q => ?_
  · exact CXEMySql.storeData_only trivial trivial fun _ _ _ _ => trivial
  · exact (queryFailed_session c h q).mono unsent_of_onSession

/-- What the functions end with: the text in the buffer has been sent on a handle, or there was no
handle and `false` is returned. -/
def SendPost (rt : Runtime) (cmd : Bytes) (args : List Printf.Arg) (a : Bool) (l : Trace) : Prop :=
  SentBuffer rt cmd args l ∧ Given l ∨ sent l = [] ∧ a = false ∧ ¬ Given l

theorem locked_sends {body : Nat → Nat → Code Bool}
    (hbody : ∀ c h l, sent l = [] → (body c h).Follows (Formatting rt) l fun _ l' =>
      SentBuffer rt cmd args l') :
    (CXEMySql.locked body).Follows (Formatting rt) [] (SendPost rt cmd args) := by
  refine CXEMySql.follows_locked (P := fun _ => SendPost rt cmd args) trivial
    (Or.inr ⟨rfl, rfl, by simp [Given]⟩) (fun _ => trivial) (fun c m => ?_) ?_
  · cases m with
    | none => exact Or.inr ⟨rfl, rfl, by simp [Given]⟩
    | some h =>
      refine (hbody c h _ rfl).grows.mono ?_
      rintro a l' ⟨hs, hl'⟩
      exact Or.inl ⟨hs, c, h, hl'.subset List.mem_cons_self⟩
  · rintro c a l' h
    refine ⟨trivial, fun _ => h.imp ?_ ?_⟩
    · rintro ⟨hs, c', m, hm⟩
      exact ⟨hs, c', m, List.mem_cons_of_mem _ hm⟩
    · rintro ⟨hs, ha, hno⟩
      refine ⟨hs, ha, ?_⟩
      rintro ⟨c', m, hm⟩
      rcases List.mem_cons.mp hm with heq | hm
      · cases heq
      · exact hno ⟨c', m, hm⟩

theorem query_sends (cmd : Bytes) (args : List Printf.Arg) :
    (CXEMySql.query cmd args).Follows (Formatting rt) [] (SendPost rt cmd args) := by
  rw [CXEMySql.query_eq]
  exact locked_sends fun c h _ hl => queryOn_sends c h hl

theorem queryData_sends (cmd : Bytes) (data : Option Nat) (args : List Printf.Arg) :
    (CXEMySql.queryData cmd data args).Follows (Formatting rt) [] (SendPost rt cmd args) := by
  rw [CXEMySql.queryData_eq]
  exact locked_sends fun c h _ hl => queryDataOn_sends c h data hl

theorem executeSQL_sends (pMySql : Option Nat) (cmd : Bytes) (args : List Printf.Arg) :
    (CXEMySql.executeSQL pMySql cmd args).Follows (Formatting rt) [] fun a l =>
      SentBuffer rt cmd args l ∧ pMySql.isSome ∨ sent l = [] ∧ a = false ∧ pMySql = none := by
  cases pMySql with
  | none => exact Or.inr ⟨rfl, rfl, rfl⟩
  | some h =>
    have hsend : (CXEMySql.executeSQL (some h) cmd args).Follows (Formatting rt) [] fun _ l =>
        SentBuffer rt cmd args l :=
      send_buffer rfl (fun _ => ⟨trivial, fun _ => trivial⟩)
        fun _ => ⟨trivial, fun _ => ⟨trivial, fun _ => ⟨trivial, fun _ => trivial⟩⟩⟩
    exact hsend.mono fun _ _ hs => Or.inl ⟨hs, rfl⟩

/-! ## When it is the whole command -/

/-- What the buffer holds is the whole command exactly when it fits. -/
theorem SentBuffer.whole_iff_fits (h : SentBuffer rt cmd args l) (a : Bool) :
    Whole rt cmd args a l ↔ Fits rt cmd args := by
  obtain ⟨r, hr, hs⟩ := h
  unfold Whole Fits
  rw [hs, ← format_eq_cstr_iff hr]
  simp

/-- Nothing is the whole of nothing. -/
theorem whole_nothing (hs : sent l = []) : Whole rt cmd args false l := by
  unfold Whole
  rw [hs]
  exact ⟨nofun, fun _ => rfl⟩

end

/-- **When the whole command is sent, or nothing.** In every run, a variadic overload of `Query` that
returns has sent the whole command, or nothing with the result `false`, exactly when there was no
handle on its connection or the command fits into the buffer; and so has `ExecuteSQL`. -/
theorem whole_iff (rt : Runtime) (cmd : Bytes) (args : List Printf.Arg) :
    (∀ (s₀ : State) (s : Sys) (t : Tid) (c : Call) (a : Bool),
      (machine rt).Reach (fun _ _ => True) s₀ s → c.Formats cmd args →
      s.thread t = .running c (.ret a) →
      (Whole rt cmd args a (callTrace t s.hist) ↔
        (Given (callTrace t s.hist) → Fits rt cmd args))) ∧
    ∀ (t : Tid) (s s' : State) (pMySql : Option Nat) (a : Bool) (l : Trace),
      (CXEMySql.executeSQL pMySql cmd args).Runs (exec rt t) s [] a s' l →
      (Whole rt cmd args a l ↔ (pMySql.isSome → Fits rt cmd args)) := by
  constructor
  · intro s₀ s t c a hreach hc ht
    have hcode : ∀ _ : Tid, c.code.Follows (Formatting rt) [] (SendPost rt cmd args) := by
      intro _
      cases hc with
      | query => exact query_sends cmd args
      | queryData data => exact queryData_sends cmd data args
    rcases hreach.answered (fun _ l _ _ _ _ _ he => exec_formatted l he) hcode ht with
      ⟨hs, hgiven⟩ | ⟨hs, rfl, hgiven⟩
    · exact (hs.whole_iff_fits a).trans ⟨fun h _ => h, fun h => h hgiven⟩
    · exact iff_of_true (whole_nothing hs) fun h => absurd h hgiven
  · intro t s s' pMySql a l hrun
    rcases hrun.answered (fun l _ _ _ _ _ he => exec_formatted l he)
      (executeSQL_sends pMySql cmd args) with ⟨hs, hgiven⟩ | ⟨hs, rfl, rfl⟩
    · exact (hs.whole_iff_fits a).trans ⟨fun h _ => h, fun h => h hgiven⟩
    · exact iff_of_true (whole_nothing hs) nofun

/-- A query that fits, and an `ExecuteSQL` without a handle. -/
theorem whole_of_query : ∃ s : Sys,
    (machine .standard).Reach (fun _ _ => True) (.small 1 0) s ∧
    s.thread (.client 0) = .running (.query [113] []) (.ret true) ∧
    (Whole .standard [113] [] true (callTrace (.client 0) s.hist) ↔
      (Given (callTrace (.client 0) s.hist) → Fits .standard [113] [])) ∧
    (Whole .standard [113] [] false [] ↔ ((none : Option Nat).isSome → Fits .standard [113] [])) := by
  have hrun : ((machine .standard).run (oneCall (.query [113] []) (List.replicate 7 .success))
      (.init (.small 1 0))).map
      (fun s => (s.thread (.client 0)).returning) = some (some (.query [113] [], true)) := by
    decide
  obtain ⟨s, hs, hr⟩ := Option.map_eq_some_iff.mp hrun
  have hreach : (machine .standard).Reach (fun _ _ => True) (.small 1 0) s :=
    Machine.Reach.init.run (allowed_oneCall _ _) hs
  have ht := Thread.returning_eq_some hr
  obtain ⟨hquery, hexecute⟩ := whole_iff .standard [113] []
  exact ⟨s, hreach, ht, hquery _ _ _ _ _ hreach .query ht,
    hexecute (.client 0) (.small 1 0) (.small 1 0) none false [] .ret⟩

/-- `DELETE FROM t WHERE a=` and a number of 1000 digits. -/
def deleteAll : Bytes := CString.ascii "DELETE FROM t WHERE a=" ++ List.replicate 1000 49

/-- With `AND b=2` behind it, the server gets just this, executes it, and `true` is returned. -/
theorem cut_off : ∃ s : Sys,
    (machine .standard).Reach (fun _ _ => True) (.small 1 0) s ∧
    s.thread (.client 0)
      = .running (.query (deleteAll ++ CString.ascii " AND b=2") []) (.ret true) ∧
    sent (callTrace (.client 0) s.hist) = [deleteAll] ∧
    ¬ Whole .standard (deleteAll ++ CString.ascii " AND b=2") [] true
      (callTrace (.client 0) s.hist) := by
  have hrun : ((machine .standard).run
      (oneCall (.query (deleteAll ++ CString.ascii " AND b=2") []) (List.replicate 7 .success))
      (.init (.small 1 0))).map
      (fun s => ((s.thread (.client 0)).returning, sent (callTrace (.client 0) s.hist)))
      = some (some (.query (deleteAll ++ CString.ascii " AND b=2") [], true), [deleteAll]) := by
    decide +kernel
  obtain ⟨s, hs, hr⟩ := Option.map_eq_some_iff.mp hrun
  obtain ⟨hret, hsent⟩ := Prod.mk.inj hr
  refine ⟨s, Machine.Reach.init.run (allowed_oneCall _ _) hs, Thread.returning_eq_some hret, hsent, ?_⟩
  rintro ⟨hwhole, -⟩
  rw [hsent] at hwhole
  have hformat := hwhole _ (List.mem_singleton_self _)
  rw [Printf.format_of_no_percent (by decide +kernel), Option.some.injEq] at hformat
  exact absurd hformat (by decide +kernel)

end XeMySql
