import XeMySql.Properties.AllOrNothing

/-!
# Where `Initialize` creates the database

A world of servers, each at a host and a port, up or down, with its databases. What `Initialize`
does in it is a small computation on the world (`World.all`), and the program does just that.

* `connectAll_world` — the loop in the world
* `onTarget_iff` — when only the server that was asked for is contacted and changed, and has the
  database if `true` is returned
* `wrong_server` — another port than 3306, and a database that does not exist yet
-/

namespace XeMySql

open Interact

/-! ## Worlds -/

/-- The place of a server: host and port. -/
abbrev Server : Type := Bytes × Nat

/-- The server a connection is made to. -/
def ConnParams.at (p : ConnParams) : Server := (p.host, p.port)

/-- Servers, by their places. -/
structure World where
  up : Server → Bool
  dbs : Server → List Bytes

namespace World

/-- Database `d` can be connected to on server `x`. -/
def has (w : World) (x : Server) (d : Bytes) : Bool := w.up x && decide (d ∈ w.dbs x)

/-- Server `x` has the database `d` as well. -/
def create (w : World) (x : Server) (d : Bytes) : World :=
  { w with dbs := Function.update w.dbs x (d :: w.dbs x) }

/--
The server and the database that a statement creates when it is sent on handle `h`. `creates q` is
the database that the server takes the text `q` to create; there must not be one of its name.
-/
def created (creates : Bytes → Option Bytes) (w : World) (y : LibMySql) (h : Nat) (q : Bytes) :
    Option (Server × Bytes) :=
  match (y.mysql h).server, creates q with
  | some p, some d => if w.up p.at && !decide (d ∈ w.dbs p.at) then some (p.at, d) else none
  | _, _ => none

/-- The outcome of a request in the world. What does not go to a server succeeds. -/
def outcome (creates : Bytes → Option Bytes) (w : World) (y : LibMySql) (o : Outcome) :
    InitOp → Outcome
  | .op (.lib (.realConnect _ p)) => { o with ok := w.has p.at p.db }
  | .op (.lib (.realQuery h q)) =>
    { o with ok := (w.created creates y h q).isSome, number := 0, useDb := none }
  | _ => { o with ok := true }

/-- The world after a request. -/
def after (creates : Bytes → Option Bytes) (w : World) (y : LibMySql) : InitOp → World
  | .op (.lib (.realQuery h q)) =>
    match w.created creates y h q with
    | some (x, d) => w.create x d
    | none => w
  | _ => w

/-- Carry out a request in the world. -/
def exec (creates : Bytes → Option Bytes) (rt : Runtime) (t : Tid) (e : InitOp) (o : Outcome)
    (s : Startup × World) : Option ((Startup × World) × Option e.Reply) :=
  (s.1.exec rt t e (s.2.outcome creates s.1.base.lib o e)).map fun (x, r) =>
    ((x, s.2.after creates s.1.base.lib e), r)

/-! ## What happens to the world -/

/-- A round of the loop, when the statement sent creates `d`: what becomes of the connection, the
world, and the servers that are contacted, the latest first. -/
def round (p : ConnParams) (d : Option Bytes) (w : World) : Option Bool × World × List Server :=
  if w.has p.at p.db then (some true, w, [p.at])
  else if w.has (p.host, defaultPort) testDatabase then
    match d with
    | some d =>
      if d ∈ w.dbs (p.host, defaultPort) then (none, w, [(p.host, defaultPort), p.at])
      else
        let w := w.create (p.host, defaultPort) d
        (some (w.has p.at p.db), w, [p.at, (p.host, defaultPort), p.at])
    | none => (none, w, [(p.host, defaultPort), p.at])
  else (none, w, [(p.host, defaultPort), p.at])

/-- The loop, with `n` rounds left. -/
def all (p : ConnParams) (d : Option Bytes) : Nat → World → Bool × World × List Server
  | 0, w => (true, w, [])
  | n + 1, w =>
    match w.round p d with
    | (none, w, xs) => (false, w, xs)
    | (some _, w, xs) =>
      let (a, w, ys) := all p d n w
      (a, w, ys ++ xs)

end World

/-- The servers contacted in a run, the latest first. -/
def contacted : InitTrace → List Server
  | [] => []
  | ⟨.op (.lib (.realConnect _ p)), _⟩ :: l => p.at :: contacted l
  | _ :: l => contacted l

/-- The statement that is sent to create `db`. -/
def createText (rt : Runtime) (db : Bytes) : Bytes :=
  CString.cstr ((CString.ascii "CREATE DATABASE " ++ db ++ CString.ascii " character set utf8").take
    (rt.keeps 1023))

/-! ## Requests in the world -/

section

variable {creates : Bytes → Option Bytes} {rt : Runtime} {t : Tid} {s : Startup} {w : World}
  {l : InitTrace} {α : Type} {Q : α → Startup × World → InitTrace → Prop}

/-- A request in the world. -/
theorem always_world {e : InitOp} {k : e.Reply → InitCode α}
    (hwait : ∀ o s₁, s.exec rt t e o ≠ some (s₁, none))
    (h : ∀ o s₁ r, s.exec rt t e (w.outcome creates s.base.lib o e) = some (s₁, some r) →
      (k r).Always (World.exec creates rt t) (s₁, w.after creates s.base.lib e) (⟨e, r⟩ :: l) Q) :
    (Prog.op e k : InitCode α).Always (World.exec creates rt t) (s, w) l Q := by
  refine Prog.always_op (fun o s₁ he => ?_) fun o s₁ r he => ?_
  · obtain ⟨⟨x, r⟩, hx, hr⟩ := Option.map_eq_some_iff.mp he
    cases hr
    exact hwait _ _ hx
  · obtain ⟨⟨x, r'⟩, hx, hr⟩ := Option.map_eq_some_iff.mp he
    cases hr
    exact h o x r hx

/-- A call of the library. -/
theorem always_worldLib {e : LibOp} {k : e.Reply → InitCode α}
    (h : ∀ o y r, s.base.lib.exec e (w.outcome creates s.base.lib o (.op (.lib e))) = (y, r) →
      (k r).Always (World.exec creates rt t) ({ s with base := { s.base with lib := y } },
        w.after creates s.base.lib (.op (.lib e))) (⟨.op (.lib e), r⟩ :: l) Q) :
    (Prog.op (.op (.lib e)) k : InitCode α).Always (World.exec creates rt t) (s, w) l Q := by
  refine always_world (fun o s₁ he => ?_) fun o s₁ r he => ?_
  · obtain ⟨y, hy, -⟩ := Startup.exec_op he
    exact nomatch (exec_lib hy).2
  · obtain ⟨y, hy, rfl⟩ := Startup.exec_op he
    obtain ⟨rfl, hr⟩ := exec_lib hy
    cases hr
    exact h o _ _ rfl

/-- An access to a connection. -/
theorem always_worldCon {e : ConOp} {k : e.Reply → InitCode α} {x : Cons} {r : e.Reply}
    (hx : s.base.cons.exec t e = some (x, some r))
    (h : (k r).Always (World.exec creates rt t) ({ s with base := { s.base with cons := x } }, w)
      (⟨.op (.con e), r⟩ :: l) Q) :
    (Prog.op (.op (.con e)) k : InitCode α).Always (World.exec creates rt t) (s, w) l Q := by
  refine always_world (fun o s₁ he => ?_) fun o s₁ r' he => ?_
  · obtain ⟨y, hy, -⟩ := Startup.exec_op he
    exact nomatch (exec_con_eq hx hy).2
  · obtain ⟨y, hy, rfl⟩ := Startup.exec_op he
    obtain ⟨rfl, hr⟩ := exec_con_eq hx hy
    cases hr
    exact h

/-- A call of the runtime or the log. -/
theorem always_worldRt {e : RtOp} {k : e.Reply → InitCode α}
    (h : ∀ o heap r, e.exec rt o s.base.heap = some (heap, some r) →
      (k r).Always (World.exec creates rt t) ({ s with base := { s.base with heap := heap } }, w)
        (⟨.op (.rt e), r⟩ :: l) Q) :
    (Prog.op (.op (.rt e)) k : InitCode α).Always (World.exec creates rt t) (s, w) l Q := by
  refine always_world (fun o s₁ he => ?_) fun o s₁ r he => ?_
  · obtain ⟨y, hy, -⟩ := Startup.exec_op he
    obtain ⟨heap, hheap, -⟩ := exec_rt hy
    exact RtOp.exec_answers hheap
  · obtain ⟨y, hy, rfl⟩ := Startup.exec_op he
    obtain ⟨heap, hheap, rfl⟩ := exec_rt hy
    exact h _ heap r hheap

/-! ## The functions in the world -/

variable {c : Nat} {p : ConnParams}

theorem close_world : (during (CXEMySqlCon.close c)).Always (World.exec creates rt t) (s, w) l
    fun _ x l₁ => x = (s, w) ∧ contacted l₁ = contacted l := by
  refine always_worldCon rfl ?_
  cases hm : (s.base.cons.con c).m_pMySql with
  | none => exact Prog.always_ret ⟨rfl, rfl⟩
  | some h =>
    refine always_worldLib fun o y r he => ?_
    cases he
    exact Prog.always_ret ⟨rfl, rfl⟩

/-- A handle that is connected with `p`, and has no result pending. -/
def ConnectedTo (p : ConnParams) (c : Nat) (s : Startup) : Prop :=
  ∃ h, (s.base.cons.con c).m_pMySql = some h ∧ (s.base.lib.mysql h).server = some p ∧
    (s.base.lib.mysql h).pending = false

/-- `Connect` succeeds when the server is up and has the database. -/
theorem connect_world : (during (CXEMySqlCon.connect c p)).Always (World.exec creates rt t) (s, w) l
    fun ok x l₁ => x.2 = w ∧ ok = w.has p.at p.db ∧ contacted l₁ = p.at :: contacted l ∧
      (ok = true → ConnectedTo p c x.1) := by
  unfold CXEMySqlCon.connect
  rw [during_bind]
  refine close_world.bind ?_
  rintro _ _ l₁ ⟨rfl, hl⟩
  refine always_worldCon rfl (always_worldLib fun o y m he => ?_)
  cases he
  refine always_worldCon rfl (always_worldLib fun o y ok he => ?_)
  have hl₂ : ∀ b, contacted (⟨.op (.lib (.realConnect s.base.lib.handles p)), b⟩ :: l₁)
      = p.at :: contacted l := fun _ => congrArg (p.at :: ·) hl
  change (if w.has p.at p.db = true then _ else _) = _ at he
  cases hhas : w.has p.at p.db with
  | false =>
    rw [hhas, if_neg Bool.false_ne_true] at he
    cases he
    exact always_worldLib fun o y r he => Prog.always_ret ⟨rfl, rfl, hl₂ false, nofun⟩
  | true =>
    rw [hhas, if_pos rfl] at he
    cases he
    refine always_worldLib fun o y ok he => ?_
    cases he
    refine always_worldLib fun o y ok he => ?_
    cases he
    refine Prog.always_ret ⟨rfl, rfl, hl₂ true, fun _ => ⟨s.base.lib.handles, ?_, ?_, ?_⟩⟩ <;> simp

/-- What is formatted. -/
theorem format_createDatabase (hrt : rt.conv.PrintsStrings) (db : Bytes) :
    Printf.format rt.conv createDatabase [.str db]
      = some (CString.ascii "CREATE DATABASE " ++ db ++ CString.ascii " character set utf8") := by
  have hpieces : createDatabase = [Printf.Piece.str (CString.ascii "CREATE DATABASE ") db].flatMap
      Printf.Piece.fmt ++ CString.ascii " character set utf8" := by
    rfl
  rw [hpieces]
  refine (Printf.format_pieces (fun q hq => ?_) (by decide +kernel)).trans ?_
  · rw [List.mem_singleton.mp hq]
    exact hrt.prints (by decide +kernel) db
  · simp [Printf.Piece.str, Printf.Piece.text]

/-- What becomes of a statement that is sent on a handle connected with `p`, to a server that is up. -/
theorem World.created_after {y : LibMySql} {h : Nat} {q : Bytes}
    (hserver : (y.mysql h).server = some p) (hup : w.up p.at = true) :
    ((w.created creates y h q).isSome, w.after creates y (.op (.lib (.realQuery h q)))) =
      match creates q with
      | some d => if d ∈ w.dbs p.at then (false, w) else (true, w.create p.at d)
      | none => (false, w) := by
  have hcreated : w.created creates y h q = (creates q).bind fun d =>
      if d ∈ w.dbs p.at then none else some (p.at, d) := by
    unfold World.created
    rw [hserver]
    cases creates q with
    | none => rfl
    | some d => by_cases hd : d ∈ w.dbs p.at <;> simp [hup, hd]
  simp only [World.after, hcreated]
  cases creates q with
  | none => rfl
  | some d => by_cases hd : d ∈ w.dbs p.at <;> simp [hd]

/-- `ExecuteSQL` with the statement that creates a database. -/
theorem executeSQL_world (hrt : rt.conv.PrintsStrings) {h : Nat} {db : Bytes}
    (hserver : (s.base.lib.mysql h).server = some p) (hup : w.up p.at = true)
    (hpending : (s.base.lib.mysql h).pending = false) :
    (during (CXEMySql.executeSQL (some h) createDatabase [.str db])).Always (World.exec creates rt t)
      (s, w) l fun ok x l₁ => contacted l₁ = contacted l ∧
        (ok, x.2) = match creates (createText rt db) with
          | some d => if d ∈ w.dbs p.at then (false, w) else (true, w.create p.at d)
          | none => (false, w) := by
  rw [← World.created_after (y := s.base.lib) (h := h) hserver hup]
  refine always_worldRt fun o heap r he => ?_
  simp only [RtOp.exec, format_createDatabase hrt] at he
  cases he
  refine always_worldLib fun o y ok he => ?_
  have hok : ok = (w.created creates s.base.lib h (createText rt db)).isSome := by
    change LibMySql.command _ h _ _ = _ at he
    unfold LibMySql.command at he
    rw [if_neg (by simpa using hpending)] at he
    change (if (w.created creates s.base.lib h (createText rt db)).isSome = true then _ else _)
      = _ at he
    split at he <;> cases he <;> simp_all
  rw [← hok]
  cases ok with
  | true =>
    refine always_worldRt fun o heap r he => ?_
    exact Prog.always_ret ⟨rfl, rfl⟩
  | false =>
    refine always_worldLib fun o y n he => always_worldLib fun o y e he => ?_
    refine always_worldRt fun o heap r he => ?_
    exact Prog.always_ret ⟨rfl, rfl⟩

/-- **A round of the loop in the world.** -/
theorem connectOne_world (hrt : rt.conv.PrintsStrings) :
    (CXEMySql.connectOne p).Always (World.exec creates rt t) (s, w) l fun x z l₁ =>
      (x.map (·.2), z.2) = ((w.round p (creates (createText rt p.db))).1,
        (w.round p (creates (createText rt p.db))).2.1) ∧
      contacted l₁ = (w.round p (creates (createText rt p.db))).2.2 ++ contacted l := by
  refine always_world (fun _ _ he => nomatch he) fun o s₁ c he => ?_
  cases he
  refine connect_world.bind ?_
  rintro ok ⟨s₁, w⟩ l₁ ⟨rfl, hok, hl₁, -⟩
  change ok = w.has p.at p.db at hok
  subst hok
  unfold World.round
  cases hhas : w.has p.at p.db with
  | true => exact Prog.always_ret ⟨rfl, hl₁⟩
  | false =>
    refine connect_world.bind ?_
    rintro ok ⟨s₂, w⟩ l₂ ⟨rfl, hok, hl₂, hto⟩
    change ok = w.has (p.host, defaultPort) testDatabase at hok
    subst hok
    have hl₂ : contacted l₂ = (p.host, defaultPort) :: p.at :: contacted l :=
      hl₂.trans (congrArg _ hl₁)
    cases htest : w.has (p.host, defaultPort) testDatabase with
    | false => exact Prog.always_ret ⟨rfl, hl₂⟩
    | true =>
      obtain ⟨m, hm, hserver, hpending⟩ := hto htest
      refine always_worldCon rfl ?_
      show Prog.Always _ (during (CXEMySql.executeSQL (s₂.base.cons.con s.objects).m_pMySql
        createDatabase [.str p.db]) >>= _) _ _ _
      rw [hm]
      refine (executeSQL_world hrt hserver (Bool.and_eq_true_iff.mp htest).1 hpending).bind ?_
      rintro ok ⟨s₃, w₃⟩ l₃ ⟨hl₃, hok⟩
      have hl₃ : contacted l₃ = (p.host, defaultPort) :: p.at :: contacted l := hl₃.trans hl₂
      cases hd : creates (createText rt p.db) with
      | none =>
        rw [hd] at hok
        cases hok
        exact Prog.always_ret ⟨rfl, hl₃⟩
      | some d =>
        rw [hd] at hok
        by_cases hmem : d ∈ w.dbs (p.host, defaultPort)
        · have hok : (ok, w₃) = (false, w) := hok.trans (if_pos hmem)
          obtain ⟨rfl, rfl⟩ := Prod.mk.inj hok
          refine Prog.always_ret ⟨?_, ?_⟩
          · show (none, w₃) = _
            simp [hmem]
          · show contacted l₃ = _
            simp [hmem, hl₃]
        · have hok : (ok, w₃) = (true, w.create (p.host, defaultPort) d) := hok.trans (if_neg hmem)
          obtain ⟨rfl, rfl⟩ := Prod.mk.inj hok
          refine close_world.bind ?_
          rintro _ _ l₄ ⟨rfl, hl₄⟩
          refine connect_world.bind ?_
          rintro ok ⟨s₅, w₅⟩ l₅ ⟨hw₅, hok₅, hl₅, -⟩
          refine Prog.always_ret ⟨?_, ?_⟩
          · show (some ok, w₅) = _
            obtain rfl : w₅ = _ := hw₅
            simp [hmem, hok₅]
          · show contacted l₅ = _
            simp [hmem, hl₅, hl₄, hl₃]

/-- **Run lemma.** The loop in the world. -/
theorem connectAll_world (hrt : rt.conv.PrintsStrings) (n : Nat) :
    (CXEMySql.connectAll p n).Always (World.exec creates rt t) (s, w) l fun a z l₁ =>
      (a, z.2) = ((w.all p (creates (createText rt p.db)) n).1,
        (w.all p (creates (createText rt p.db)) n).2.1) ∧
      contacted l₁ = (w.all p (creates (createText rt p.db)) n).2.2 ++ contacted l := by
  induction n generalizing s w l with
  | zero => exact Prog.always_ret ⟨rfl, rfl⟩
  | succ n ih =>
    refine (connectOne_world hrt).bind ?_
    rintro x ⟨s₁, w₁⟩ l₁ ⟨hx, hl₁⟩
    unfold World.all
    generalize w.round p (creates (createText rt p.db)) = y at hx hl₁ ⊢
    obtain ⟨b, w', xs⟩ := y
    change contacted l₁ = xs ++ contacted l at hl₁
    cases x with
    | none =>
      cases hx
      exact Prog.always_ret ⟨rfl, hl₁⟩
    | some x =>
      obtain ⟨c, ok⟩ := x
      cases hx
      cases ok with
      | true =>
        refine always_world (fun _ _ he => nomatch he) fun o s₂ _ he => ?_
        cases he
        refine ih.mono ?_
        rintro a z l₂ ⟨hz, hl₂⟩
        refine ⟨hz, hl₂.trans ?_⟩
        show _ ++ contacted l₁ = _ ++ xs ++ contacted l
        rw [hl₁, List.append_assoc]
        rfl
      | false =>
        refine close_world.bind ?_
        rintro _ _ l₂ ⟨rfl, hl₂⟩
        refine always_world (fun _ _ he => nomatch he) fun o s₂ _ he => ?_
        cases he
        refine ih.mono ?_
        rintro a z l₃ ⟨hz, hl₃⟩
        refine ⟨hz, hl₃.trans ?_⟩
        show _ ++ contacted l₂ = _ ++ xs ++ contacted l
        rw [hl₂, hl₁, List.append_assoc]
        rfl

/-- `Initialize` in the world. -/
theorem initialize_world (hrt : rt.conv.PrintsStrings) (n jobCount : Nat) :
    (CXEMySql.Initialize p n jobCount).Always (World.exec creates rt t) (s, w) l fun a z l₁ =>
      (a, z.2) = ((w.all p (creates (createText rt p.db)) n).1,
        (w.all p (creates (createText rt p.db)) n).2.1) ∧
      contacted l₁ = (w.all p (creates (createText rt p.db)) n).2.2 ++ contacted l := by
  refine (connectAll_world hrt n).bind ?_
  rintro ok ⟨s₁, w₁⟩ l₁ ⟨hz, hl₁⟩
  cases ok with
  | false => exact Prog.always_ret ⟨hz, hl₁⟩
  | true =>
    refine always_world (fun _ _ he => nomatch he) fun o s₂ _ he => ?_
    refine always_world (fun _ _ he => nomatch he) fun o s₃ _ he => ?_
    exact Prog.always_ret ⟨hz, hl₁⟩

end

/-! ## When it is the server that was asked for -/

/-- No server but the one that was asked for is contacted or changed, and it has the database if `a`
is `true`. -/
structure OnTarget (p : ConnParams) (a : Bool) (w w' : World) (xs : List Server) : Prop where
  contacted : ∀ x ∈ xs, x = p.at
  others : ∀ x, x ≠ p.at → w'.up x = w.up x ∧ w'.dbs x = w.dbs x
  created : a = true → p.db ∈ w'.dbs p.at

/-- The database can be connected to; or the port is the default one, and it is not the case that
only one connection is wanted and the statement creates another database. `d` is what the server
takes the statement to create. -/
def World.Serves (w : World) (p : ConnParams) (n : Nat) (d : Option Bytes) : Prop :=
  w.has p.at p.db = true ∨ p.port = defaultPort ∧
    ¬ (n = 1 ∧ w.has p.at testDatabase = true ∧ ∃ d', d = some d' ∧ d' ∉ w.dbs p.at ∧ d' ≠ p.db)

namespace World

variable {w : World} {p : ConnParams} {d : Option Bytes}

/-- With the database there, every round connects to it. -/
theorem all_of_has (h : w.has p.at p.db = true) (n : Nat) :
    w.all p d n = (true, w, List.replicate n p.at) := by
  induction n with
  | zero => rfl
  | succ n ih =>
    have hround : w.round p d = (some true, w, [p.at]) := if_pos h
    simp only [all, hround, ih, List.replicate_succ']

/-- What becomes of the first round otherwise. -/
theorem round_of_not_has (h : w.has p.at p.db = false) :
    w.round p d = (none, w, [(p.host, defaultPort), p.at]) ∧
        ¬ (w.has (p.host, defaultPort) testDatabase = true ∧
          ∃ d', d = some d' ∧ d' ∉ w.dbs (p.host, defaultPort)) ∨
      ∃ d', d = some d' ∧ w.has (p.host, defaultPort) testDatabase = true ∧
        d' ∉ w.dbs (p.host, defaultPort) ∧
        w.round p d = (some ((w.create (p.host, defaultPort) d').has p.at p.db),
          w.create (p.host, defaultPort) d', [p.at, (p.host, defaultPort), p.at]) := by
  unfold round
  rw [h]
  cases htest : w.has (p.host, defaultPort) testDatabase with
  | false => exact Or.inl ⟨rfl, by simp⟩
  | true =>
    cases d with
    | none => exact Or.inl ⟨rfl, by simp⟩
    | some d' =>
      by_cases hmem : d' ∈ w.dbs (p.host, defaultPort)
      · exact Or.inl ⟨by simp [hmem], by simp [hmem]⟩
      · exact Or.inr ⟨d', rfl, rfl, hmem, by simp [hmem]⟩

/-- A database is created, but not the one that is wanted. -/
theorem has_create (h : w.has p.at p.db = false) (hup : w.up p.at = true) (d' : Bytes) :
    (w.create p.at d').has p.at p.db = decide (p.db = d') := by
  unfold has at h ⊢
  rw [hup, Bool.true_and, decide_eq_false_iff_not] at h
  simp [create, hup, h]

/-- The second `Connect` of the first round goes to the default port. -/
theorem default_mem_all (h : w.has p.at p.db = false) (n : Nat) :
    (p.host, defaultPort) ∈ (w.all p d (n + 1)).2.2 := by
  rcases round_of_not_has (d := d) h with hround | ⟨d', -, -, -, hround⟩ <;> simp [all, hround]

/-- The loop, when its first round creates `d'` on the server that was asked for. -/
theorem all_created_iff {d' : Bytes} (hat : (p.host, defaultPort) = p.at)
    (h : w.has p.at p.db = false) (hup : w.up p.at = true)
    (hround : w.round p (some d') = (some ((w.create p.at d').has p.at p.db), w.create p.at d',
      [p.at, p.at, p.at])) (n : Nat) :
    OnTarget p (w.all p (some d') (n + 1)).1 w (w.all p (some d') (n + 1)).2.1
      (w.all p (some d') (n + 1)).2.2 ↔ ¬ (n = 0 ∧ d' ≠ p.db) := by
  have hothers : ∀ x, x ≠ p.at → (w.create p.at d').up x = w.up x ∧
      (w.create p.at d').dbs x = w.dbs x :=
    fun x hx => ⟨rfl, Function.update_of_ne hx ..⟩
  have hhas := has_create h hup d'
  by_cases hd : p.db = d'
  · -- the database that is wanted has been created
    rw [decide_eq_true hd] at hhas
    have hall : w.all p (some d') (n + 1) = (true, w.create p.at d',
        List.replicate n p.at ++ [p.at, p.at, p.at]) := by
      simp only [all, hround, all_of_has hhas]
    rw [hall]
    refine iff_of_true ⟨fun x hx => ?_, hothers, fun _ => ?_⟩ fun hn => hn.2 hd.symm
    · rcases List.mem_append.mp hx with hx | hx
      · exact List.eq_of_mem_replicate hx
      · simpa using hx
    · simpa using (Bool.and_eq_true_iff.mp hhas).2
  · rw [decide_eq_false hd] at hhas
    cases n with
    | zero =>
      -- the only connection is given up, and `true` is returned
      have hall : w.all p (some d') 1 = (true, w.create p.at d', [p.at, p.at, p.at]) := by
        simp only [all, hround, List.nil_append]
      rw [hall]
      refine iff_of_false (fun h => ?_) fun hn => hn ⟨rfl, Ne.symm hd⟩
      have hcreated := h.created rfl
      unfold has at hhas
      simp [show (w.create p.at d').up p.at = true from hup, hcreated] at hhas
    | succ n =>
      -- the second round cannot create the database again
      have hround₁ := round_of_not_has (d := some d') hhas
      rw [hat] at hround₁
      rcases hround₁ with ⟨hround₁, -⟩ | ⟨d'', hd'', -, hmem', -⟩
      · have hall : w.all p (some d') (n + 2)
            = (false, w.create p.at d', [p.at, p.at, p.at, p.at, p.at]) := by
          simp only [all, hround, hround₁, List.cons_append, List.nil_append]
        rw [hall]
        exact iff_of_true ⟨by simp, hothers, nofun⟩ (by simp)
      · cases hd''
        exact absurd (by simp [create]) hmem'

/-- **When the loop stays with its server.** -/
theorem all_onTarget_iff {n : Nat} (hn : 1 ≤ n) :
    OnTarget p (w.all p d n).1 w (w.all p d n).2.1 (w.all p d n).2.2 ↔ w.Serves p n d := by
  obtain ⟨n, rfl⟩ := Nat.exists_eq_add_of_le' hn
  unfold Serves
  cases hhas : w.has p.at p.db with
  | true =>
    rw [all_of_has hhas]
    refine iff_of_true ⟨fun x hx => List.eq_of_mem_replicate hx, fun _ _ => ⟨rfl, rfl⟩, fun _ => ?_⟩
      (Or.inl rfl)
    simpa using (Bool.and_eq_true_iff.mp hhas).2
  | false =>
    by_cases hport : p.port = defaultPort
    · have hat : (p.host, defaultPort) = p.at := by
        unfold ConnParams.at
        rw [hport]
      have hround := round_of_not_has (d := d) hhas
      rw [hat] at hround
      rcases hround with ⟨hround, hnone⟩ | ⟨d', rfl, htest, hmem, hround⟩
      · have hall : w.all p d (n + 1) = (false, w, [p.at, p.at]) := by simp only [all, hround]
        rw [hall]
        refine iff_of_true ⟨by simp, fun _ _ => ⟨rfl, rfl⟩, nofun⟩ (Or.inr ⟨hport, ?_⟩)
        rintro ⟨-, htest, d', hd, hmem, -⟩
        exact hnone ⟨htest, d', hd, hmem⟩
      · rw [all_created_iff hat hhas (Bool.and_eq_true_iff.mp htest).1 hround]
        simp [hport, htest, hmem]
    · refine iff_of_false (fun h => hport ?_) (by simp [hport])
      exact congrArg Prod.snd (h.contacted _ (default_mem_all hhas n)).symm

end World

/-- **When `Initialize` creates the database where it is wanted**, in every world, for every server,
database and number of connections. -/
theorem onTarget_iff {creates : Bytes → Option Bytes} {rt : Runtime} (hrt : rt.conv.PrintsStrings)
    {t : Tid} {p : ConnParams} {n jobCount : Nat} (hn : 1 ≤ n) {s s' : Startup} {w w' : World}
    {a : Bool} {l : InitTrace}
    (h : (CXEMySql.Initialize p n jobCount).Runs (World.exec creates rt t) (s, w) [] a (s', w') l) :
    OnTarget p a w w' (contacted l) ↔ w.Serves p n (creates (createText rt p.db)) := by
  obtain ⟨hz, hl⟩ := initialize_world hrt n jobCount _ _ _ h
  obtain ⟨rfl, hw⟩ := Prod.mk.inj hz
  change w' = _ at hw
  rw [hw, hl, show contacted [] = [] from rfl, List.append_nil]
  exact w.all_onTarget_iff hn

/-- Two servers on one host: the default one has the database `test`, the other one is empty. -/
def twoServers : World where
  up x := x.1 = []
  dbs x := if x = ([], defaultPort) then [testDatabase] else []

/-- The server knows one statement. -/
def createsD (q : Bytes) : Option Bytes :=
  if q = CString.ascii "CREATE DATABASE d character set utf8" then some [100] else none

theorem printsStrings_standard : Runtime.standard.conv.PrintsStrings := fun _ _ => rfl

/-- The database is created on the default server, and connected to. -/
theorem onTarget_default : ∃ s' w' l,
    (CXEMySql.Initialize ⟨[], [], [], [100], 3306⟩ 1 10).Runs
      (World.exec createsD .standard (.client 0)) (.fresh, twoServers) [] true (s', w') l ∧
    (OnTarget ⟨[], [], [], [100], 3306⟩ true twoServers w' (contacted l) ↔
      twoServers.Serves ⟨[], [], [], [100], 3306⟩ 1
        (createsD (createText .standard [100]))) := by
  obtain ⟨s', w', l, h⟩ : ∃ s' w' l,
      (CXEMySql.Initialize ⟨[], [], [], [100], 3306⟩ 1 10).Runs
        (World.exec createsD .standard (.client 0)) (.fresh, twoServers) [] true (s', w') l := by
    refine ⟨_, _, _, .reply .success rfl
      -- the database does not exist
      (.reply .success rfl (.reply .success rfl (.reply .success rfl (.reply .success rfl
        (.reply .success rfl (.reply .success rfl
      -- the database `test`
      (.reply .success rfl (.reply .success rfl (.reply .success rfl (.reply .success rfl
        (.reply .success rfl (.reply .success rfl (.reply .success rfl (.reply .success rfl
      -- `ExecuteSQL`
      (.reply .success rfl (.reply .success rfl (.reply .success rfl (.reply .success rfl
      (.reply .success rfl (.reply .success rfl
      -- the database that has been created
      (.reply .success rfl (.reply .success rfl (.reply .success rfl (.reply .success rfl
        (.reply .success rfl (.reply .success rfl (.reply .success rfl (.reply .success rfl
      (.reply .success rfl (.reply .success rfl (.reply .success rfl
        .ret)))))))))))))))))))))))))))))))⟩
  exact ⟨s', w', l, h, onTarget_iff printsStrings_standard (by decide) h⟩

/-- The database is wanted on the other server. It is created on the default one, and `Initialize`
returns `true` with no connection made. -/
theorem wrong_server : ∃ s' w' l,
    (CXEMySql.Initialize ⟨[], [], [], [100], 3307⟩ 1 10).Runs
      (World.exec createsD .standard (.client 0)) (.fresh, twoServers) [] true (s', w') l ∧
    ¬ OnTarget ⟨[], [], [], [100], 3307⟩ true twoServers w' (contacted l) := by
  refine ⟨_, _, _, .reply .success rfl
    -- the database does not exist
    (.reply .success rfl (.reply .success rfl (.reply .success rfl (.reply .success rfl
      (.reply .success rfl (.reply .success rfl
    -- the database `test`, on the default server
    (.reply .success rfl (.reply .success rfl (.reply .success rfl (.reply .success rfl
      (.reply .success rfl (.reply .success rfl (.reply .success rfl (.reply .success rfl
    -- `ExecuteSQL`
    (.reply .success rfl (.reply .success rfl (.reply .success rfl (.reply .success rfl
    (.reply .success rfl (.reply .success rfl
    -- the database still does not exist
    (.reply .success rfl (.reply .success rfl (.reply .success rfl (.reply .success rfl
      (.reply .success rfl (.reply .success rfl (.reply .success rfl
    (.reply .success rfl (.reply .success rfl (.reply .success rfl
    (.reply .success rfl (.reply .success rfl
      .ret)))))))))))))))))))))))))))))))), fun h => ?_⟩
  exact absurd (h.created rfl) (by decide)

end XeMySql
