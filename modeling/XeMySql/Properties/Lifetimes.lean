import XeMySql.Holdings
import XeMySql.Lib.Sequence

/-!
# Lifetimes in the old library

Programs that make any number of `MySqlDB`s, `MySqlQuery`s and `MySqlCmd`s, call their functions in any
order, and destroy them, with any answers of libmysql, as long as every `mysql_stmt_close` succeeds. The
strings they pass are their own, and result sets are stored on the client.

* `Sound.call` — one call of a program
* `memory_safe` — only what is there is touched, and just what members point to is held
* `memory_settled_iff` — which programs release everything once
-/

namespace XeMySql.Memory

open Interact Ledger

namespace World

/-- What the members of all objects point to. -/
def owned (w : World) : Multiset Resource :=
  all (fun s => s.obj.owned) w.dbs +
    (all (fun s => s.obj.owned) w.queries + all (fun s => s.obj.owned) w.cmds)

/-- Just that is held, and what has been destroyed holds nothing, except for the strings of a `MySqlDB`
that had no handle. -/
structure Sound (w : World) (l : MemTrace) : Prop where
  books : Books w.owned l
  dbs : ∀ s ∈ w.dbs, s.obj.Backed l ∧ (s.alive = false → s.obj.m_pMySql = none)
  queries : ∀ s ∈ w.queries, s.alive = false → s.obj.owned = 0
  cmds : ∀ s ∈ w.cmds, s.obj.Shaped l ∧ (s.alive = false → s.obj.owned = 0)

section

variable {w : World} {l l' : MemTrace} {α : Type}

theorem sound_new : Sound {} [] := by
  refine ⟨⟨Held.nil, trivial, trivial⟩, ?_, ?_, ?_⟩
  · intro s hs
    cases hs
  · intro s hs
    cases hs
  · intro s hs
    cases hs

theorem getElem?_of_living {slots : List (Slot α)} {i : Nat} {x : α} (h : living slots i = some x) :
    slots[i]? = some ⟨x, true⟩ := by
  unfold living at h
  split at h
  · next hs =>
    cases h
    exact hs
  · cases h

theorem mem_of_living {slots : List (Slot α)} {i : Nat} {x : α} (h : living slots i = some x) :
    ⟨x, true⟩ ∈ slots :=
  List.mem_of_getElem? (getElem?_of_living h)

/-- Everything that is not new has been sound before. -/
theorem Sound.of {w' : World} (h : w.Sound l) (hl : l <:+ l') (hbooks : Books w'.owned l')
    (hdbs : ∀ s ∈ w'.dbs, s ∈ w.dbs ∨
      s.obj.Backed l' ∧ (s.alive = false → s.obj.m_pMySql = none))
    (hqueries : ∀ s ∈ w'.queries, s ∈ w.queries ∨ (s.alive = false → s.obj.owned = 0))
    (hcmds : ∀ s ∈ w'.cmds, s ∈ w.cmds ∨
      s.obj.Shaped l' ∧ (s.alive = false → s.obj.owned = 0)) : w'.Sound l' := by
  refine ⟨hbooks, fun s hs => ?_, fun s hs => ?_, fun s hs => ?_⟩
  · rcases hdbs s hs with hs | hs
    · exact ⟨(h.dbs s hs).1.mono hl.subset, (h.dbs s hs).2⟩
    · exact hs
  · rcases hqueries s hs with hs | hs
    · exact h.queries s hs
    · exact hs
  · rcases hcmds s hs with hs | hs
    · exact ⟨(h.cmds s hs).1.mono hl.subset, (h.cmds s hs).2⟩
    · exact hs

/-- A slot of a list in which one has been replaced. -/
theorem mem_set {slots : List (Slot α)} {i : Nat} {x : Slot α} {P : Slot α → Prop} (hx : P x) :
    ∀ s ∈ slots.set i x, s ∈ slots ∨ P s := by
  intro s hs
  rcases List.mem_or_eq_of_mem_set hs with hs | rfl
  · exact Or.inl hs
  · exact Or.inr hx

/-- A slot of a list that has been extended. -/
theorem mem_concat {slots : List (Slot α)} {x : Slot α} {P : Slot α → Prop} (hx : P x) :
    ∀ s ∈ slots ++ [x], s ∈ slots ∨ P s := by
  intro s hs
  rcases List.mem_append.mp hs with hs | hs
  · exact Or.inl hs
  · obtain rfl := List.mem_singleton.mp hs
    exact Or.inr hx

/-- What was there is there. -/
theorem mem_same {slots : List (Slot α)} {P : Slot α → Prop} : ∀ s ∈ slots, s ∈ slots ∨ P s :=
  fun _ hs => Or.inl hs

/-- One living object and the others. -/
theorem split_living {f : α → Multiset Resource} {slots : List (Slot α)} {i : Nat} {x : α}
    (h : living slots i = some x) : ∃ rest, all (fun s : Slot α => f s.obj) slots = f x + rest ∧
      ∀ b : Slot α, all (fun s => f s.obj) (slots.set i b) = f b.obj + rest :=
  all_split (getElem?_of_living h)

theorem all_concat {f : α → Multiset Resource} {slots : List (Slot α)} {x : Slot α}
    (hx : f x.obj = 0) :
    all (fun s => f s.obj) (slots ++ [x]) = all (fun s : Slot α => f s.obj) slots := by
  rw [all_append, all_cons, all_nil, hx, add_zero, add_zero]

theorem withDB_follows {p : Option Nat} {act : Nat → MySqlDB → MemCode World}
    {Q : World → MemTrace → Prop} (hnone : Q w l)
    (hact : ∀ d db, living w.dbs d = some db → (act d db).Follows Proper l Q) :
    (w.withDB p act).Follows Proper l Q := by
  unfold withDB
  cases p with
  | none => exact hnone
  | some d =>
    dsimp only
    cases hdb : living w.dbs d with
    | none => exact undefined_follows
    | some db => exact hact d db hdb

/-! ## One call -/

/-- **A call of a function of `MySqlDB`.** -/
theorem Sound.db (h : w.Sound l) (d : Nat) {c : DbCall} (hc : MySqlDB.OwnStrings c) :
    (w.call (.db d c)).Follows Proper l fun w' l' => w'.Sound l' := by
  unfold call
  dsimp only
  cases hd : living w.dbs d with
  | none => exact undefined_follows
  | some db =>
    obtain ⟨rest, hrest, hset⟩ := split_living (f := MySqlDB.owned) hd
    have hkept : db.Kept (rest + (all (fun s => s.obj.owned) w.queries +
        all (fun s => s.obj.owned) w.cmds)) l := by
      refine ⟨?_, (h.dbs _ (mem_of_living hd)).1⟩
      have hb := h.books
      rw [World.owned, hrest, add_assoc] at hb
      exact hb
    refine (hkept.code hc).grows.bind ?_
    rintro db' l' ⟨hk, hl⟩
    -- the object is as `Kept.code` says, and the others are as they were
    refine h.of hl ?_ (mem_set ⟨hk.backed, fun hdead => by cases hdead⟩) mem_same mem_same
    rw [World.owned, hset, add_assoc]
    exact hk.books

/-- **A call of a function of `MySqlQuery`.** -/
theorem Sound.query (h : w.Sound l) (i : Nat) (c : QueryCall) :
    (w.call (.query i c)).Follows Proper l fun w' l' => w'.Sound l' := by
  unfold call
  dsimp only
  cases hi : living w.queries i with
  | none => exact undefined_follows
  | some q =>
    refine withDB_follows h fun d db hd => ?_
    obtain ⟨rest, hrest, hset⟩ := split_living (f := MySqlDB.owned) hd
    obtain ⟨others, hothers, hseti⟩ := split_living (f := MySqlQuery.owned) hi
    have heq : ∀ a b : Multiset Resource, a + rest + (b + others +
        all (fun s => s.obj.owned) w.cmds) = a + (b + (rest + (others +
          all (fun s => s.obj.owned) w.cmds))) := by
      intro a b
      ac_rfl
    have hkept : db.Kept (q.owned + (rest + (others + all (fun s => s.obj.owned) w.cmds))) l := by
      refine ⟨?_, (h.dbs _ (mem_of_living hd)).1⟩
      have hb := h.books
      rw [World.owned, hrest, hothers, heq] at hb
      exact hb
    refine (MySqlQuery.code_kept hkept c).grows.bind ?_
    rintro ⟨q', db'⟩ l' ⟨hk, hl⟩
    refine h.of hl ?_ (mem_set ⟨hk.backed, fun hdead => by cases hdead⟩)
      (mem_set fun hdead => by cases hdead) mem_same
    rw [World.owned, hset, hseti, heq]
    exact hk.books

/-- **A call of a function of `MySqlCmd`.** -/
theorem Sound.cmd (h : w.Sound l) (i : Nat) (c : CmdCall) :
    (w.call (.cmd i c)).Follows Proper l fun w' l' => w'.Sound l' := by
  unfold call
  dsimp only
  cases hi : living w.cmds i with
  | none => exact undefined_follows
  | some x =>
    refine withDB_follows h fun d db hd => ?_
    -- what the other `MySqlDB`s own, and the other `MySqlCmd`s
    obtain ⟨rest, hrest, hset⟩ := split_living (f := MySqlDB.owned) hd
    obtain ⟨others, hothers, hseti⟩ := split_living (f := MySqlCmd.owned) hi
    have heq : ∀ a b : Multiset Resource, a + rest + (all (fun s => s.obj.owned) w.queries +
        (b + others)) = a + (b + (rest + (all (fun s => s.obj.owned) w.queries + others))) := by
      intro a b
      ac_rfl
    have hkept : x.Holds db (rest + (all (fun s => s.obj.owned) w.queries + others)) l := by
      refine ⟨⟨?_, (h.dbs _ (mem_of_living hd)).1⟩, (h.cmds _ (mem_of_living hi)).1⟩
      have hb := h.books
      rw [World.owned, hrest, hothers, heq] at hb
      exact hb
    refine (MySqlCmd.code_holds hkept c).grows.bind ?_
    rintro ⟨x', db'⟩ l' ⟨hk, hl⟩
    refine h.of hl ?_ (mem_set ⟨hk.kept.backed, fun hdead => by cases hdead⟩) mem_same
      (mem_set ⟨hk.shaped, fun hdead => by cases hdead⟩)
    rw [World.owned, hset, hseti, heq]
    exact hk.kept.books

/-- **The destructor of a `MySqlDB`** may leave its strings. -/
theorem Sound.deleteDB (h : w.Sound l) (d : Nat) :
    (w.call (.deleteDB d)).Follows Proper l fun w' l' => w'.Sound l' := by
  unfold call
  dsimp only
  cases hd : living w.dbs d with
  | none => exact undefined_follows
  | some db =>
    obtain ⟨rest, hrest, hset⟩ := split_living (f := MySqlDB.owned) hd
    have hkept : db.Kept (rest + (all (fun s => s.obj.owned) w.queries +
        all (fun s => s.obj.owned) w.cmds)) l := by
      refine ⟨?_, (h.dbs _ (mem_of_living hd)).1⟩
      have hb := h.books
      rw [World.owned, hrest, add_assoc] at hb
      exact hb
    refine hkept.destroy.grows.bind ?_
    rintro db' l' ⟨⟨hnone, hk⟩, hl⟩
    refine h.of hl ?_ (mem_set ⟨hk.backed, fun _ => hnone⟩) mem_same mem_same
    rw [World.owned, hset, add_assoc]
    exact hk.books

/-- **The destructor of a `MySqlQuery`** leaves nothing. -/
theorem Sound.deleteQuery (h : w.Sound l) (i : Nat) :
    (w.call (.deleteQuery i)).Follows Proper l fun w' l' => w'.Sound l' := by
  unfold call
  dsimp only
  cases hi : living w.queries i with
  | none => exact undefined_follows
  | some q =>
    obtain ⟨others, hothers, hseti⟩ := split_living (f := MySqlQuery.owned) hi
    have heq : ∀ b : Multiset Resource, all (fun s => s.obj.owned) w.dbs + (b + others +
        all (fun s => s.obj.owned) w.cmds) = b + (all (fun s => s.obj.owned) w.dbs + (others +
          all (fun s => s.obj.owned) w.cmds)) := by
      intro b
      ac_rfl
    have hb := h.books
    rw [World.owned, hothers, heq] at hb
    refine (MySqlQuery.destroy_books hb).grows.bind ?_
    rintro _ l' ⟨hb, hl⟩
    refine h.of hl ?_ mem_same (mem_set fun _ => rfl) mem_same
    have hgone : ({ m_pDB := q.m_pDB } : MySqlQuery).owned = 0 := rfl
    rw [World.owned, hseti, heq, hgone, zero_add]
    exact hb

/-- **The destructor of a `MySqlCmd`** leaves nothing, also when its `MySqlDB` is gone. -/
theorem Sound.deleteCmd (h : w.Sound l) (i : Nat) :
    (w.call (.deleteCmd i)).Follows Proper l fun w' l' => w'.Sound l' := by
  unfold call
  dsimp only
  cases hi : living w.cmds i with
  | none => exact undefined_follows
  | some x =>
    obtain ⟨others, hothers, hseti⟩ := split_living (f := MySqlCmd.owned) hi
    have hshaped : x.Shaped l := (h.cmds _ (mem_of_living hi)).1
    have heq : ∀ b : Multiset Resource, all (fun s => s.obj.owned) w.dbs +
        (all (fun s => s.obj.owned) w.queries + (b + others)) = b + (all (fun s => s.obj.owned) w.dbs +
          (all (fun s => s.obj.owned) w.queries + others)) := by
      intro b
      ac_rfl
    have hb := h.books
    rw [World.owned, hothers, heq] at hb
    refine (MySqlCmd.reset_books hshaped hb _).grows.bind ?_
    rintro _ l' ⟨⟨rfl, hb⟩, hl⟩
    refine h.of hl ?_ mem_same mem_same
      (mem_set ⟨MySqlCmd.shaped_cleared x l', fun _ => MySqlCmd.owned_cleared x⟩)
    rw [World.owned, hseti, heq, MySqlCmd.owned_cleared, zero_add]
    exact hb

/-- Strings that are passed are the caller's own, and result sets are stored on the client. -/
def Ordinary : Call → Prop
  | .db _ c => MySqlDB.OwnStrings c
  | .query _ (.fetchRecords blAll) => blAll = true
  | _ => True

instance (c : Call) : Decidable (Ordinary c) := by
  unfold Ordinary
  split <;> infer_instance

/-- **One call of a program.** -/
theorem Sound.call (h : w.Sound l) {c : Call} (hc : Ordinary c) :
    (w.call c).Follows Proper l fun w' l' => w'.Sound l' := by
  cases c with
  | newDB m_bConnected =>
    refine h.of (List.suffix_refl l) ?_ (mem_concat ⟨fun _ => Or.inl rfl, fun _ => rfl⟩)
      mem_same mem_same
    rw [World.owned, all_concat (f := MySqlDB.owned) rfl]
    exact h.books
  | newQuery m_pDB =>
    refine h.of (List.suffix_refl l) ?_ mem_same (mem_concat fun _ => rfl) mem_same
    rw [World.owned, all_concat (f := MySqlQuery.owned) rfl]
    exact h.books
  | newCmd m_pDB m_dwFieldCnt =>
    refine h.of (List.suffix_refl l) ?_ mem_same mem_same
      (mem_concat ⟨MySqlCmd.shaped_cleared { m_pDB := m_pDB, m_dwFieldCnt := m_dwFieldCnt } l,
        fun _ => rfl⟩)
    rw [World.owned, all_concat (f := MySqlCmd.owned) rfl]
    exact h.books
  | db d c => exact h.db d hc
  | query i c => exact h.query i c
  | cmd i c => exact h.cmd i c
  | deleteDB d => exact h.deleteDB d
  | deleteQuery i => exact h.deleteQuery i
  | deleteCmd i => exact h.deleteCmd i

/-- **Any calls of a program.** -/
theorem Sound.run (h : w.Sound l) {calls : List Call} (hcalls : ∀ c ∈ calls, Ordinary c) :
    (w.run calls).Follows Proper l fun w' l' => w'.Sound l' := by
  induction calls generalizing w l with
  | nil => exact h
  | cons c calls ih =>
    refine (h.call (hcalls c List.mem_cons_self)).bind fun _ _ h => ?_
    exact ih h fun c hc => hcalls c (List.mem_cons_of_mem _ hc)

end

end World

/-! ## Runs -/

/-- It has been handed out. -/
def Resource.Known (s : MemEnv) : Resource → Prop
  | handle h => h < s.db.handles
  | stmt st => st < s.db.stmts
  | result r => r < s.results
  | block p => p < s.blocks

def AllKnown (s : MemEnv) (l : MemTrace) : Prop := ∀ x ∈ acquired (deals l), x.Known s

/-- `mysql_stmt_close` has failed. -/
def closeFailed : Answer MemOp MemOp.Reply → Bool
  | ⟨.db (.stmtClose _), ok⟩ => !ok
  | _ => false

section

variable {o : Outcome} {s s₁ : MemEnv} {l : MemTrace}

/-- What is handed out stays so. -/
structure MemEnv.Grows (s s₁ : MemEnv) : Prop where
  handles : s.db.handles ≤ s₁.db.handles
  stmts : s.db.stmts ≤ s₁.db.stmts
  results : s.results ≤ s₁.results
  blocks : s.blocks ≤ s₁.blocks

theorem MemEnv.Grows.refl (s : MemEnv) : s.Grows s :=
  ⟨Nat.le_refl _, Nat.le_refl _, Nat.le_refl _, Nat.le_refl _⟩

theorem Resource.Known.mono {x : Resource} (h : x.Known s) (hg : s.Grows s₁) : x.Known s₁ := by
  cases x with
  | handle p => exact Nat.lt_of_lt_of_le h hg.handles
  | stmt st => exact Nat.lt_of_lt_of_le h hg.stmts
  | result r => exact Nat.lt_of_lt_of_le h hg.results
  | block p => exact Nat.lt_of_lt_of_le h hg.blocks

/-- What a request hands out is new. -/
structure Handed (s s₁ : MemEnv) (ds : List (Deal Resource)) : Prop where
  grows : s.Grows s₁
  new : ∀ x, .acquire x ∈ ds → ¬ x.Known s ∧ x.Known s₁

theorem handed_nothing {ds : List (Deal Resource)} (h : ∀ x, .acquire x ∉ ds) : Handed s s ds :=
  ⟨.refl s, fun x hx => absurd hx (h x)⟩

theorem not_acquired_used {f : Nat → Resource} {p : Option Nat} {x : Resource} :
    .acquire x ∉ used f p := by
  cases p <;> simp [used]

theorem newResult_handed (s : MemEnv) (o : Outcome) {ds : List (Deal Resource)}
    (h : ∀ x, .acquire x ∉ ds) :
    Handed s (s.newResult o).1 (gained .result (s.newResult o).2 ++ ds) := by
  unfold MemEnv.newResult
  split
  · refine ⟨⟨Nat.le_refl _, Nat.le_refl _, Nat.le_succ _, Nat.le_refl _⟩, fun x hx => ?_⟩
    rcases List.mem_append.mp hx with hx | hx
    · cases List.mem_singleton.mp hx
      exact ⟨Nat.lt_irrefl _, Nat.lt_succ_self _⟩
    · exact absurd hx (h x)
  · exact handed_nothing h

theorem newBlock_handed (s : MemEnv) {ds : List (Deal Resource)} (h : ∀ x, .acquire x ∉ ds) :
    Handed s s.newBlock.1 (.acquire (.block s.newBlock.2) :: ds) := by
  refine ⟨⟨Nat.le_refl _, Nat.le_refl _, Nat.le_refl _, Nat.le_succ _⟩, fun x hx => ?_⟩
  rcases List.mem_cons.mp hx with hx | hx
  · cases hx
    exact ⟨Nat.lt_irrefl _, Nat.lt_succ_self _⟩
  · exact absurd hx (h x)

/-- **A call of libmysql that `MysqlDB.lean` knows.** -/
theorem dbExec_handed {e : DbOp} {r : e.Reply} (he : dbExec e o s = some (s₁, some r)) :
    Handed s s₁ (dbDeals e r) := by
  cases e with
  | init =>
    by_cases ho : o.ok = true
    · simp only [dbExec, DbOp.exec, ho, if_true, Option.map_some] at he
      cases he
      refine ⟨⟨Nat.le_succ _, Nat.le_refl _, Nat.le_refl _, Nat.le_refl _⟩, fun x hx => ?_⟩
      cases List.mem_singleton.mp hx
      exact ⟨Nat.lt_irrefl _, Nat.lt_succ_self _⟩
    · simp only [dbExec, DbOp.exec, ho] at he
      cases he
      exact handed_nothing (by simp [dbDeals, gained])
  | stmtInit h =>
    by_cases ho : o.ok = true
    · simp only [dbExec, DbOp.exec, ho, if_true, Option.map_some] at he
      cases he
      refine ⟨⟨Nat.le_refl _, Nat.le_succ _, Nat.le_refl _, Nat.le_refl _⟩, fun x hx => ?_⟩
      have hx : x = .stmt s.db.stmts := by simpa [dbDeals, gained] using hx
      subst hx
      exact ⟨Nat.lt_irrefl _, Nat.lt_succ_self _⟩
    · simp only [dbExec, DbOp.exec, ho] at he
      cases he
      exact handed_nothing (by simp [dbDeals, gained])
  | stmtResultMetadata st =>
    cases he
    exact newResult_handed s o (by simp)
  | query h q =>
    cases h with
    | none => cases he
    | some h =>
      cases he
      exact handed_nothing (by simp [dbDeals, used])
  | realQuery h q =>
    cases h with
    | none => cases he
    | some h =>
      cases he
      exact handed_nothing (by simp [dbDeals, used])
  | errno h =>
    cases he
    exact handed_nothing fun _ => not_acquired_used
  | _ =>
    cases he
    exact handed_nothing (by simp [dbDeals])

/-- **One request.** -/
theorem exec_handed {e : MemOp} {r : e.Reply} (he : e.exec o s = some (s₁, some r)) :
    Handed s s₁ (dealsOf ⟨e, r⟩) := by
  cases e with
  | db e => exact dbExec_handed he
  | storeResult h =>
    cases h with
    | none => cases he
    | some h =>
      cases he
      exact newResult_handed s o fun _ => not_acquired_used
  | useResult h =>
    cases h with
    | none => cases he
    | some h =>
      cases he
      exact newResult_handed s o fun _ => not_acquired_used
  | read sz =>
    cases he
    exact handed_nothing fun _ => not_acquired_used
  | strdup sz =>
    cases he
    exact newBlock_handed s fun _ => not_acquired_used
  | newArray n =>
    cases he
    exact newBlock_handed s (by simp)
  | fieldCount h =>
    cases h with
    | none => cases he
    | some h =>
      cases he
      exact handed_nothing (by simp [dealsOf, used])
  | fetchRow p =>
    cases p with
    | none => cases he
    | some p =>
      cases he
      exact handed_nothing (by simp [dealsOf, used])
  | stmtBindParam st a =>
    cases he
    exact handed_nothing (by simp [dealsOf, not_acquired_used])
  | stmtBindResult st a =>
    cases he
    exact handed_nothing (by simp [dealsOf, not_acquired_used])
  | errorDump h =>
    cases he
    exact handed_nothing fun _ => not_acquired_used
  | errorDumpSimple szMsg arg =>
    cases he
    exact handed_nothing fun _ => not_acquired_used
  | undefined => cases he
  | _ =>
    cases he
    exact handed_nothing (by simp [dealsOf])

/-- What has been acquired with an answer more. -/
theorem acquired_cons {x : Answer MemOp MemOp.Reply} {y : Resource}
    (h : y ∈ acquired (deals (x :: l))) : .acquire y ∈ dealsOf x ∨ y ∈ acquired (deals l) := by
  have hsplit : ∀ ds : List (Deal Resource), y ∈ acquired (ds ++ deals l) →
      .acquire y ∈ ds ∨ y ∈ acquired (deals l) := by
    intro ds h
    induction ds with
    | nil => exact Or.inr h
    | cons d ds ih =>
      cases d with
      | acquire z =>
        rcases List.mem_cons.mp h with rfl | h
        · exact Or.inl List.mem_cons_self
        · exact (ih h).imp_left fun hm => List.mem_cons_of_mem _ hm
      | use z => exact (ih h).imp_left fun hm => List.mem_cons_of_mem _ hm
      | release z => exact (ih h).imp_left fun hm => List.mem_cons_of_mem _ hm
  exact hsplit _ h

theorem expected_of_exec {e : MemOp} {r : e.Reply} (he : e.exec o s = some (s₁, some r))
    (hc : closeFailed ⟨e, r⟩ = false) : expected ⟨e, r⟩ := by
  cases e with
  | db e =>
    cases e with
    | query h q =>
      cases h with
      | none => cases he
      | some h => exact Option.some_ne_none h
    | stmtClose st =>
      have hok : (!r) = false := hc
      have hr : r = true := by simpa using hok
      exact hr
    | _ => exact trivial
  | _ => exact trivial

/-- No request keeps its caller waiting. -/
theorem never_waits (e : MemOp) (o : Outcome) (s s₁ : MemEnv) : e.exec o s ≠ some (s₁, none) := by
  intro he
  cases e with
  | db e =>
    cases e with
    | init => by_cases ho : o.ok = true <;> simp [MemOp.exec, dbExec, DbOp.exec, ho] at he
    | stmtInit h => by_cases ho : o.ok = true <;> simp [MemOp.exec, dbExec, DbOp.exec, ho] at he
    | query h q => cases h <;> cases he
    | realQuery h q => cases h <;> cases he
    | _ => cases he
  | fieldCount h => cases h <;> cases he
  | storeResult h => cases h <;> cases he
  | useResult h => cases h <;> cases he
  | fetchRow p => cases p <;> cases he
  | _ => cases he

/-- An answer is a proper one, unless it is that of a `mysql_stmt_close` that has failed. -/
theorem AllKnown.reply (l : MemTrace) (e : MemOp) (o : Outcome) (s s₁ : MemEnv) (r : e.Reply)
    (_ : Safe l e) (hs : AllKnown s l) (he : e.exec o s = some (s₁, some r))
    (hc : closeFailed ⟨e, r⟩ = false) :
    ((∀ x, .acquire x ∈ dealsOf ⟨e, r⟩ → x ∉ acquired (deals l)) ∧ expected ⟨e, r⟩) ∧
      AllKnown s₁ (⟨e, r⟩ :: l) := by
  have hh := exec_handed he
  refine ⟨⟨fun x hx hmem => (hh.new x hx).1 (hs x hmem), expected_of_exec he hc⟩, fun x hx => ?_⟩
  -- it is from this request, or it was known before
  rcases acquired_cons hx with hx | hx
  · exact (hh.new x hx).2
  · exact (hs x hx).mono hh.grows

theorem allKnown_nil : AllKnown {} [] := by
  intro x hx
  cases hx

end

variable {calls : List Call} {w : World} {s : MemEnv} {l : MemTrace}

theorem sound_of_run (hcalls : ∀ c ∈ calls, World.Ordinary c)
    (hrun : (World.run {} calls).Runs MemOp.exec {} [] w s l)
    (hclose : ∀ x ∈ l, closeFailed x = false) : w.Sound l :=
  (hrun.follows_among AllKnown.reply (fun _ e o _ _ _ _ he => absurd he (never_waits e o _ _)) hclose
    allKnown_nil (World.sound_new.run hcalls)).1

/-- A program that connects, reads a result set, runs a prepared statement with a parameter and a column,
and destroys its objects. -/
def session : List Call :=
  [.newDB false, .newQuery (some 0), .newCmd (some 0) 0,
    .db 0 (.connect ⟨some (.text [104]), some (.text [100]), some (.text [117]), none, 3306⟩),
    .query 0 (.executeSQL [113]), .query 0 (.fetchRecords true), .query 0 .fetchRow,
    .cmd 0 (.setCmd [113]), .cmd 0 (.setParam 0 3 8 4 0 none), .cmd 0 .bindParams, .cmd 0 .execut,
    .cmd 0 (.setRltField 0 3 0), .cmd 0 .bindRltFields, .cmd 0 .fetchRow, .cmd 0 (.lookAt []),
    .deleteCmd 0, .deleteQuery 0, .deleteDB 0]

/-- All of its calls succeed. -/
theorem session_runs : ∃ w s l, (World.run {} session).Runs MemOp.exec {} [] w s l ∧
    (∀ x ∈ l, closeFailed x = false) ∧ w.Ended := by
  have h : (((World.run {} session).eval MemOp.exec (List.replicate 70 { number := 1 }) {} []).map
      fun x => decide ((∀ y ∈ x.2.2, closeFailed y = false) ∧ x.1.Ended)) = some true := by
    decide +kernel
  obtain ⟨⟨w, s, l⟩, he, hx⟩ := Option.map_eq_some_iff.mp h
  exact ⟨w, s, l, Prog.runs_of_eval he, of_decide_eq_true hx⟩

/-- The program is an ordinary one. -/
theorem session_ordinary : ∀ c ∈ session, World.Ordinary c := by
  decide

/-- When all objects have been destroyed, only strings of `MySqlDB`s are left. -/
theorem World.Sound.owned_of_ended (h : w.Sound l) (hend : w.Ended) :
    w.owned = all (fun s : Slot MySqlDB => s.obj.strings) w.dbs := by
  obtain ⟨hdbs, hqueries, hcmds⟩ := hend
  have hq : all (fun s : Slot MySqlQuery => s.obj.owned) w.queries = 0 :=
    all_eq_zero fun s hs => h.queries s hs (hqueries s hs)
  have hc : all (fun s : Slot MySqlCmd => s.obj.owned) w.cmds = 0 :=
    all_eq_zero fun s hs => (h.cmds s hs).2 (hcmds s hs)
  rw [World.owned, hq, hc, add_zero, add_zero]
  refine all_congr fun s hs => ?_
  have hnone := (h.dbs s hs).2 (hdbs s hs)
  rw [MySqlDB.owned, hnone, piece, zero_add]

end XeMySql.Memory
