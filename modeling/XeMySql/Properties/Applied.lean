import XeMySql.MysqlDB
import XeMySql.Lib.Trace

/-!
# A statement that is sent again

`MySqlQuery::ExecuteSQL` and the server, in any interleaving. The server receives the copies of the
statement that are sent, applies each or refuses it, and answers, at any time or never; for the client
the connection may be lost at any time.

* `applied_once_iff` — when a statement that has succeeded was applied once
-/

namespace XeMySql

open Interact

/-! ## The two parties -/

/-- The caller of `ExecuteSQL`, and the server. -/
inductive Party where
  | client
  | server
deriving DecidableEq

/-- What has become of a copy of the statement. -/
inductive Stage where
  | sent
  | received
  | applied
  | refused
  | answered (ok : Bool)
deriving DecidableEq

/-- The server has applied it. -/
def Stage.isApplied : Stage → Bool
  | applied => true
  | answered ok => ok
  | _ => false

/-- A step of the server, with one of the copies. -/
inductive Move where
  | receive (i : Nat)
  | apply (i : Nat)
  | refuse (i : Nat)
  | answer (i : Nat)
deriving DecidableEq

namespace Move

/-- The copy. -/
def copy : Move → Nat
  | receive i => i
  | apply i => i
  | refuse i => i
  | answer i => i

/-- What becomes of it. -/
def next : Move → Stage → Option Stage
  | receive _, .sent => some .received
  | apply _, .received => some .applied
  | refuse _, .received => some .refused
  | answer _, .applied => some (.answered true)
  | answer _, .refused => some (.answered false)
  | _, _ => none

end Move

/-- What is between the two: the copies that have been sent, in this order, whether the client waits
for the answer to the last of them, and what libmysql knows. -/
structure Wire where
  copies : List Stage := []
  asked : Bool := false
  errno : Nat := 0
  env : DbEnv := {}

namespace Wire

/-- `mysql_real_query`: it sends the statement and waits for the answer, unless the connection is gone
before or while it waits. -/
def ask (o : Outcome) (s : Wire) : Option (Wire × Option Bool) :=
  if s.asked then
    if o.ok then
      match s.copies.getLast? with
      | some (.answered ok) =>
        some ({ s with asked := false, errno := if ok then 0 else o.number }, some ok)
      | _ => some (s, none)
    else some ({ s with asked := false, errno := o.number }, some false)
  else if o.ok then some ({ s with copies := s.copies ++ [.sent], asked := true }, none)
  else some ({ s with errno := o.number }, some false)

/-- A step of the server. -/
def move (m : Move) (s : Wire) : Option Wire := do
  let stage ← s.copies[m.copy]?
  let stage ← m.next stage
  pure { s with copies := s.copies.set m.copy stage }

end Wire

/-- What the two do. -/
inductive WireOp where
  | db (e : DbOp)
  | serve (m : Move)

/-- The answers. -/
abbrev WireOp.Reply : WireOp → Type
  | db e => e.Reply
  | serve _ => Unit

/-- Carry it out. -/
def WireOp.exec : Party → (e : WireOp) → Outcome → Wire → Option (Wire × Option e.Reply)
  | .client, db (.realQuery _ _), o, s => s.ask o
  | .client, db (.errno _), _, s => some (s, some s.errno)
  | .client, db e, o, s => (e.exec o s.env).map fun x => ({ s with env := x.1 }, x.2)
  | .server, serve m, _, s => (s.move m).map fun s' => (s', some ())
  | _, _, _, _ => none

/-- A call of `ExecuteSQL` on a `MySqlDB`, or a step of the server. -/
inductive WireCall where
  | executeSQL (db : MySqlDB) (szCMD : Bytes)
  | serve (m : Move)

/-- The client's code among all requests. -/
def onWire {α : Type} (p : DbCode α) : Prog WireOp WireOp.Reply α := p.lift WireOp.db fun _ r => r

/-- The code. -/
def WireCall.code : WireCall → Prog WireOp WireOp.Reply Bool
  | executeSQL db szCMD => do
    let (bRet, _) ← onWire (MySqlQuery.executeOn db szCMD)
    pure bRet
  | serve m => do
    Prog.ask (WireOp.serve m)
    pure true

/-- The client calls `ExecuteSQL`; the server does what it likes. -/
def wire : Machine Party WireCall WireOp WireOp.Reply Bool Wire Outcome where
  code _ c := c.code
  exec := WireOp.exec
  enabled t c s :=
    match t, c with
    | .client, .executeSQL _ _ => s.copies.isEmpty && !s.asked
    | .server, .serve _ => true
    | _, _ => false
  ends _ _ _ := false

/-- A state of a run. -/
abbrev WireSys := Machine.Sys Party WireCall WireOp WireOp.Reply Bool Wire

/-- What is recorded of it. -/
abbrev WireEv := Event Party WireCall WireOp WireOp.Reply Bool

/-- The answers to requests. -/
abbrev WireTrace := List (Answer WireOp WireOp.Reply)

/-- The answer of a `mysql_real_query`. -/
def queryAnswer : Answer WireOp WireOp.Reply → Option Bool
  | ⟨.db (.realQuery _ _), r⟩ => some r
  | _ => none

/-- The answers of the `mysql_real_query`s in a trace. -/
def queries (l : WireTrace) : List Bool := l.filterMap queryAnswer

/-! ## The code -/

/-- After a `mysql_real_query` that has succeeded there is no other. -/
abbrev OneSuccess : Discipline WireOp WireOp.Reply WireTrace :=
  .recording (fun l e => ∀ h q, e = .db (.realQuery h q) → (queries l).head? ≠ some true)
    fun _ _ _ => True

/-- When `ExecuteSQL` returns true, its last `mysql_real_query` has succeeded, and it has made two at
most. -/
def SentOk : WireCall → Bool → WireTrace → Prop
  | .executeSQL _ _, a, l => a = true → (queries l).head? = some true ∧ (queries l).length ≤ 2
  | .serve _, _, _ => True

theorem connected_aside (db : MySqlDB) : db.connected.Only fun e => ∀ h q, e ≠ .realQuery h q := by
  have hreconnect : db.reconnect.Only fun e => ∀ h q, e ≠ .realQuery h q := by
    have hdiscard : db.discard.Only fun e => ∀ h q, e ≠ .realQuery h q := by
      unfold MySqlDB.discard
      split
      · trivial
      · exact ⟨fun _ _ => nofun, fun _ => trivial⟩
    refine Prog.only_bind hdiscard fun db => ⟨fun _ _ => nofun, fun m => ?_⟩
    cases m with
    | none => trivial
    | some m =>
      refine ⟨fun _ _ => nofun, fun ok => ?_⟩
      cases ok with
      | false => trivial
      | true => exact ⟨fun _ _ => nofun, fun _ => trivial⟩
  unfold MySqlDB.connected
  split
  · trivial
  · refine ⟨fun _ _ => nofun, fun ok => ?_⟩
    cases ok with
    | true => trivial
    | false => exact hreconnect

/-- `Connected` sends no statement. -/
theorem connected_queries {db : MySqlDB} {l : WireTrace} :
    (onWire db.connected).Follows OneSuccess l
      fun _ l' => queries l' = queries l := by
  have honly : (onWire db.connected).Only
      fun e => ∀ h q, e ≠ .db (.realQuery h q) := by
    refine (connected_aside db).lift fun e he h q heq => ?_
    cases heq
    exact he h q rfl
  refine honly.follows_filterMap (fun l e he h q heq => absurd heq (he h q)) fun e r he => ?_
  cases e with
  | db e =>
    cases e with
    | realQuery h q => exact absurd rfl (he h q)
    | _ => rfl
  | serve m => rfl

theorem wireCode_follows (t : Party) (c : WireCall) : (wire.code t c).Follows OneSuccess [] (SentOk c) := by
  cases c with
  | serve m => exact ⟨nofun, fun _ _ => trivial⟩
  | executeSQL db q =>
    show (WireCall.code (.executeSQL db q)).Follows OneSuccess [] _
    rw [WireCall.code, MySqlQuery.executeOn, MySqlDB.sendAgain, onWire]
    refine ⟨fun _ _ _ => by decide, fun ok _ => ?_⟩
    cases ok with
    | true => exact fun _ => ⟨rfl, Nat.le_succ 1⟩
    | false =>
      refine ⟨nofun, fun n _ => ?_⟩
      simp only [Prog.bind_ret]
      split
      · rw [Prog.lift_bind]
        refine Prog.Follows.bind (P := fun (x : Bool × MySqlDB) l' => x.1 = true →
          (queries l').head? = some true ∧ (queries l').length ≤ 2) ?_ fun x l' hx => hx
        refine connected_queries.bind ?_
        rintro ⟨ok, db'⟩ l' hl'
        have hfailed : queries l' = [false] := hl'
        cases ok with
        | false => exact nofun
        | true =>
          refine ⟨fun _ _ _ => ?_, fun ok _ => ?_⟩
          · rw [hfailed]
            decide
          · rintro rfl
            have hq : queries (OneSuccess.next l' (.db (.realQuery db'.m_pMySql q)) true)
                = true :: queries l' := rfl
            rw [hq, hfailed]
            exact ⟨rfl, Nat.le_refl 2⟩
      · exact nofun

/-! ## The wire -/

/-- What the client's present call knows of the copies on the wire. -/
structure OnWire (s : Wire) (l : WireTrace) : Prop where
  bound : s.copies.length ≤ (queries l).length + s.asked.toNat
  answered : (queries l).head? = some true →
    s.asked = false ∧ s.copies.getLast? = some (.answered true)

section

variable {s s' : Wire} {l : WireTrace} {o : Outcome}

/-- The client has sent the statement, or goes on waiting for the answer. -/
theorem OnWire.wait (h : OnWire s l) (hmay : (queries l).head? ≠ some true)
    (he : s.ask o = some (s', none)) : OnWire s' l := by
  refine ⟨?_, fun hq => absurd hq hmay⟩
  have hbound := h.bound
  unfold Wire.ask at he
  split at he
  · split at he
    · split at he <;> cases he
      exact hbound
    · cases he
  · next hasked =>
    split at he <;> cases he
    rw [Bool.eq_false_iff.mpr hasked] at hbound
    simp only [List.length_append, List.length_singleton, Bool.toNat_true]
    exact Nat.add_le_add_right hbound 1

/-- The client has its answer, or has lost the connection. -/
theorem OnWire.reply (h : OnWire s l) {q : Option Nat} {szCMD : Bytes} {ok : Bool}
    (he : s.ask o = some (s', some ok)) : OnWire s' (⟨.db (.realQuery q szCMD), ok⟩ :: l) := by
  have hbound := h.bound
  have hlen : (queries (⟨.db (.realQuery q szCMD), ok⟩ :: l)).length = (queries l).length + 1 := rfl
  have hask : s.asked.toNat ≤ 1 := Bool.toNat_le s.asked
  have hhead : (queries (⟨.db (.realQuery q szCMD), ok⟩ :: l)).head? = some true → ok = true :=
    Option.some.inj
  unfold Wire.ask at he
  split at he
  · split at he
    · split at he
      · next hlast =>
        cases he
        refine ⟨?_, fun hq => ⟨rfl, ?_⟩⟩
        · rw [hlen]
          exact Nat.le_trans hbound (Nat.add_le_add_left hask _)
        · rw [hlast, hhead hq]
      · cases he
    · cases he
      refine ⟨?_, fun hq => nomatch hhead hq⟩
      rw [hlen]
      exact Nat.le_trans hbound (Nat.add_le_add_left hask _)
  · split at he
    · cases he
    · cases he
      refine ⟨?_, fun hq => nomatch hhead hq⟩
      show s.copies.length ≤ _ + s.asked.toNat
      rw [hlen]
      exact Nat.le_trans hbound (Nat.add_le_add_right (Nat.le_succ _) _)

/-- The server goes on with a copy; one that has been answered stays so. -/
theorem OnWire.move (h : OnWire s l) {m : Move} (he : s.move m = some s') : OnWire s' l := by
  unfold Wire.move at he
  simp only [Option.bind_eq_bind, Option.bind_eq_some_iff, Option.pure_def, Option.some.injEq] at he
  obtain ⟨stage, hstage, next, hnext, rfl⟩ := he
  refine ⟨by rw [List.length_set]; exact h.bound, fun hq => ?_⟩
  obtain ⟨hasked, hlast⟩ := h.answered hq
  refine ⟨hasked, ?_⟩
  have hne : m.copy ≠ s.copies.length - 1 := by
    intro heq
    rw [List.getLast?_eq_getElem?, ← heq, hstage] at hlast
    obtain rfl := Option.some.inj hlast
    cases m <;> cases hnext
  rw [List.getLast?_eq_getElem?, List.length_set, List.getElem?_set_ne hne,
    ← List.getLast?_eq_getElem?]
  exact hlast

/-- Other requests of the client leave the copies alone. -/
theorem OnWire.other (h : OnWire s l) {e : DbOp} (hq : ∀ m q, e ≠ .realQuery m q) {r : e.Reply}
    (hs : s'.copies = s.copies ∧ s'.asked = s.asked) : OnWire s' (⟨.db e, r⟩ :: l) := by
  have hl : queries (⟨.db e, r⟩ :: l) = queries l := by
    cases e with
    | realQuery m q => exact absurd rfl (hq m q)
    | _ => rfl
  refine ⟨?_, ?_⟩
  · rw [hl, hs.1, hs.2]
    exact h.bound
  · rw [hl, hs.1, hs.2]
    exact h.answered

/-- What they do to the wire. -/
theorem exec_other {e : DbOp} (hq : ∀ m q, e ≠ .realQuery m q) {r : Option e.Reply}
    (he : WireOp.exec .client (.db e) o s = some (s', r)) :
    s'.copies = s.copies ∧ s'.asked = s.asked := by
  have hmap : (e.exec o s.env).map (fun x => ({ s with env := x.1 }, x.2)) = some (s', r) →
      s'.copies = s.copies ∧ s'.asked = s.asked := by
    intro hx
    obtain ⟨x, -, hx⟩ := Option.map_eq_some_iff.mp hx
    cases hx
    exact ⟨rfl, rfl⟩
  cases e with
  | realQuery m q => exact absurd rfl (hq m q)
  | errno m =>
    cases he
    exact ⟨rfl, rfl⟩
  | _ => exact hmap he

/-- The server goes on with a copy, and does not wait. -/
theorem exec_server {e : WireOp} {r : Option e.Reply}
    (he : WireOp.exec .server e o s = some (s', r)) : r ≠ none ∧ ∃ m, s.move m = some s' := by
  cases e with
  | db e => cases e <;> cases he
  | serve m =>
    obtain ⟨s₁, hmove, hs₁⟩ := Option.map_eq_some_iff.mp he
    cases hs₁
    exact ⟨Option.some_ne_none (), m, hmove⟩

end

/-! ## Every interleaving -/

/-- What holds of the wire while the client is in a call. -/
def WireInv (s : Wire) (h : List WireEv) : Prop :=
  presentCall .client h ≠ none → OnWire s (callTrace .client h)

theorem wire_kept (s₀ : Wire) : wire.Kept (fun _ _ => True) s₀ OneSuccess [] (fun _ _ => []) SentOk
    WireInv where
  code t c _ := wireCode_follows t c
  init := fun hc => absurd rfl hc
  call s h t c hI _ hen _ := by
    cases t with
    | server => exact hI
    | client =>
      intro _
      cases c with
      | serve m => cases hen
      | executeSQL db q =>
        simp only [wire, Bool.and_eq_true, List.isEmpty_iff, Bool.not_eq_true'] at hen
        refine ⟨?_, fun hq => nomatch hq⟩
        rw [hen.1, hen.2]
        exact Nat.le_refl 0
  wait s h t e o s' hI hmay he := by
    rw [Discipline.view_recording] at hmay
    intro hc
    cases t with
    | server => exact absurd rfl (exec_server he).1
    | client =>
      cases e with
      | serve m => cases he
      | db e =>
        by_cases hq : ∃ m q, e = .realQuery m q
        · obtain ⟨m, q, rfl⟩ := hq
          exact (hI hc).wait (hmay m q rfl) he
        · have hne : ∀ m q, e ≠ .realQuery m q := fun m q heq => hq ⟨m, q, heq⟩
          obtain ⟨hcopies, hasked⟩ := exec_other hne he
          refine ⟨?_, ?_⟩
          · rw [hcopies, hasked]
            exact (hI hc).bound
          · rw [hcopies, hasked]
            exact (hI hc).answered
  reply s h t e o s' r hI hmay he := by
    refine ⟨trivial, fun hc => ?_⟩
    cases t with
    | server =>
      obtain ⟨-, m, hmove⟩ := exec_server he
      exact (hI hc).move hmove
    | client =>
      rw [callTrace_reply, if_pos rfl]
      cases e with
      | serve m => cases he
      | db e =>
        by_cases hq : ∃ m q, e = .realQuery m q
        · obtain ⟨m, q, rfl⟩ := hq
          exact (hI hc).reply he
        · have hne : ∀ m q, e ≠ .realQuery m q := fun m q heq => hq ⟨m, q, heq⟩
          exact (hI hc).other hne (exec_other hne he)
  done s h t c a hI _ := by
    cases t with
    | server => exact hI
    | client => exact fun hc => absurd rfl hc

/-- **When a statement that has succeeded was applied once**: it was sent once, or the server has not
applied the first of the two copies. -/
theorem applied_once_iff {s₀ : Wire} {s : WireSys} (h : wire.Reach (fun _ _ => True) s₀ s)
    {db : MySqlDB} {szCMD : Bytes} (hs : s.thread .client = .running (.executeSQL db szCMD) (.ret true)) :
    s.shared.copies.countP Stage.isApplied = 1 ↔
      ∀ c c', s.shared.copies = [c, c'] → c.isApplied = false := by
  have hfinal := (wire_kept s₀).atReturn h hs
  rw [Discipline.view_recording] at hfinal
  obtain ⟨hq, htwo⟩ := hfinal rfl
  have hcall : presentCall .client s.hist ≠ none := by
    rw [h.present hs]
    exact Option.some_ne_none _
  have hwire := ((wire_kept s₀).holds h).1 hcall
  obtain ⟨hasked, hlast⟩ := hwire.answered hq
  have hbound := hwire.bound
  rw [hasked] at hbound
  rcases hcopies : s.shared.copies with _ | ⟨c, _ | ⟨c', _ | ⟨c'', rest⟩⟩⟩
  · rw [hcopies] at hlast
    cases hlast
  · rw [hcopies] at hlast
    cases hlast
    exact ⟨fun _ c c' hx => (nomatch hx), fun _ => rfl⟩
  · rw [hcopies] at hlast
    cases hlast
    constructor
    · rintro hcount _ _ ⟨⟩
      cases hc : c.isApplied with
      | false => rfl
      | true =>
        rw [List.countP_cons_of_pos hc] at hcount
        cases hcount
    · intro hfirst
      rw [List.countP_cons_of_neg (by rw [hfirst c _ rfl]; exact Bool.false_ne_true)]
      rfl
  · rw [hcopies] at hbound
    simp only [List.length_cons, Bool.toNat_false] at hbound
    omega

/-- A step of the server, from its beginning to its end. -/
def served (m : Move) : List (Label Party WireCall Outcome) :=
  [.call .server (.serve m), .act .server .success, .act .server .success]

/-- The call of `ExecuteSQL` on the handle 0, up to the sending of the statement. -/
def sendFirst : List (Label Party WireCall Outcome) :=
  [.call .client (.executeSQL { m_pMySql := some 0, m_bConnected := true } []), .act .client .success]

/-- What these runs are looked at for. -/
def WireSys.outcome (s : WireSys) : List Stage × Option (WireCall × Bool) :=
  (s.shared.copies, (s.thread .client).returning)

/-- The connection is lost before the server has applied the statement; it is made again, and the second
copy of the statement is applied. -/
theorem applied_once_iff_resent : ∃ s : WireSys, s.shared.copies = [.received, .answered true] ∧
    (s.shared.copies.countP Stage.isApplied = 1 ↔
      ∀ c c', s.shared.copies = [c, c'] → c.isApplied = false) := by
  have hrun : (wire.run (sendFirst ++ served (.receive 0) ++
      [.act .client (.failure CR_SERVER_LOST), .act .client .success, .act .client (.failure 0),
        .act .client .success, .act .client .success, .act .client .success, .act .client .success,
        .act .client .success] ++
      served (.receive 1) ++ served (.apply 1) ++ served (.answer 1) ++
      [.act .client .success]) (.init {})).map WireSys.outcome = some ([.received, .answered true],
        some (.executeSQL { m_pMySql := some 0, m_bConnected := true } [], true)) := rfl
  obtain ⟨s, hs, hl⟩ := Option.map_eq_some_iff.mp hrun
  have hr : wire.Reach (fun _ _ => True) {} s :=
    Machine.Reach.init.run (fun _ _ _ _ _ => trivial) hs
  have hreturning := Thread.returning_eq_some (congrArg Prod.snd hl)
  exact ⟨s, congrArg Prod.fst hl, applied_once_iff hr hreturning⟩

/-- The connection is lost after the server has applied the statement; it is made again, and the
statement is sent again. -/
theorem applied_twice : ∃ (s : WireSys) (c : WireCall), wire.Reach (fun _ _ => True) {} s ∧
    s.thread .client = .running c (.ret true) ∧ s.shared.copies.countP Stage.isApplied = 2 := by
  have hrun : (wire.run (sendFirst ++ served (.receive 0) ++ served (.apply 0) ++
      [.act .client (.failure CR_SERVER_LOST), .act .client .success, .act .client (.failure 0),
        .act .client .success, .act .client .success, .act .client .success, .act .client .success,
        .act .client .success] ++
      served (.receive 1) ++ served (.apply 1) ++ served (.answer 1) ++
      [.act .client .success]) (.init {})).map WireSys.outcome = some ([.applied, .answered true],
        some (.executeSQL { m_pMySql := some 0, m_bConnected := true } [], true)) := rfl
  obtain ⟨s, hs, hl⟩ := Option.map_eq_some_iff.mp hrun
  have hr : wire.Reach (fun _ _ => True) {} s :=
    Machine.Reach.init.run (fun _ _ _ _ _ => trivial) hs
  have hcopies : s.shared.copies = _ := congrArg Prod.fst hl
  refine ⟨s, _, hr, Thread.returning_eq_some (congrArg Prod.snd hl), ?_⟩
  rw [hcopies]
  rfl

end XeMySql
