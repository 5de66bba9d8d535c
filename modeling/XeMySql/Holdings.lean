import XeMySql.Memory
import XeMySql.Lib.Ledger

/-!
# What the objects of the old library hold

The books of handles, statements, result sets and blocks of memory, and what each function leaves of
what its object points to, with any answers, as long as every `mysql_stmt_close` succeeds.

* `Safe` — a request that touches only what is there
* `Books` — just this is held, and every request has been safe
* `Kept`, `Holds` — just what an object and the others own is held
* `MySqlDB.Kept.code`, `MySqlQuery.code_kept`, `MySqlCmd.code_holds` — one call of a function
-/

namespace XeMySql.Memory

open Interact Ledger

/-! ## The books -/

/-- What the objects own. -/
inductive Resource where
  | handle (h : Nat)
  | stmt (st : Nat)
  | result (r : Nat)
  | block (p : Nat)
deriving DecidableEq

/-- An answer that may be a new resource. -/
def gained (f : Nat → Resource) : Option Nat → List (Deal Resource)
  | none => []
  | some x => [.acquire (f x)]

/-- The use of what a pointer points to. -/
def used (f : Nat → Resource) : Option Nat → List (Deal Resource)
  | none => []
  | some x => [.use (f x)]

/-- What a call of libmysql says of resources. -/
def dbDeals : (e : DbOp) → e.Reply → List (Deal Resource)
  | .init, r => gained .handle r
  | .realConnect h _, _ => [.use (.handle h)]
  | .query h _, _ => used .handle h
  | .realQuery h _, _ => used .handle h
  | .errno h, _ => used .handle h
  | .ping h, _ => [.use (.handle h)]
  | .close h, _ => [.release (.handle h)]
  | .stmtInit h, r => gained .stmt r ++ [.use (.handle h)]
  | .stmtPrepare st _, _ => [.use (.stmt st)]
  | .stmtParamCount st, _ => [.use (.stmt st)]
  | .stmtFieldCount st, _ => [.use (.stmt st)]
  | .stmtResultMetadata st, r => gained .result r ++ [.use (.stmt st)]
  | .stmtExecute st, _ => [.use (.stmt st)]
  | .stmtClose st, _ => [.release (.stmt st)]
  | .freeResult r, _ => [.release (.result r)]

/-- What an answer says of resources, the latest first. -/
def dealsOf : Answer MemOp MemOp.Reply → List (Deal Resource)
  | ⟨.db e, r⟩ => dbDeals e r
  | ⟨.fieldCount h, _⟩ => used .handle h
  | ⟨.storeResult h, r⟩ => gained .result r ++ used .handle h
  | ⟨.useResult h, r⟩ => gained .result r ++ used .handle h
  | ⟨.fetchFields r, _⟩ => [.use (.result r)]
  | ⟨.fetchRow r, _⟩ => used .result r
  | ⟨.fetchLengths r, _⟩ => [.use (.result r)]
  | ⟨.numRows r, _⟩ => [.use (.result r)]
  | ⟨.fieldName r _, _⟩ => [.use (.result r)]
  | ⟨.stmtBindParam st a, _⟩ => .use (.stmt st) :: used .block a
  | ⟨.stmtBindResult st a, _⟩ => .use (.stmt st) :: used .block a
  | ⟨.stmtStoreResult st, _⟩ => [.use (.stmt st)]
  | ⟨.stmtNumRows st, _⟩ => [.use (.stmt st)]
  | ⟨.stmtFetch st, _⟩ => [.use (.stmt st)]
  | ⟨.stmtError st, _⟩ => [.use (.stmt st)]
  | ⟨.read s, _⟩ => used .block s.p
  | ⟨.strdup s, r⟩ => .acquire (.block r) :: used .block s.p
  | ⟨.free p, _⟩ => [.release (.block p)]
  | ⟨.newArray _, r⟩ => [.acquire (.block r)]
  | ⟨.memset p _, _⟩ => [.use (.block p)]
  | ⟨.touch p _, _⟩ => [.use (.block p)]
  | ⟨.setParam p _ _, _⟩ => [.use (.block p)]
  | ⟨.deleteArray p, _⟩ => [.release (.block p)]
  | ⟨.errorDump h, _⟩ => used .handle h
  | ⟨.errorDumpSimple _ arg, _⟩ => used .block (arg.bind (·.p))
  | ⟨.undefined, _⟩ => []

/-- The dealings with resources in a trace. -/
def deals (l : MemTrace) : List (Deal Resource) := l.flatMap dealsOf

/-- Element `i` of the array at `p` exists. -/
def Element (l : MemTrace) (p i : Nat) : Prop := ∃ n : Nat, ⟨.newArray n, p⟩ ∈ l ∧ i < n

/-- A request does not go beyond the end of its array. -/
def InBounds (l : MemTrace) : MemOp → Prop
  | .memset p n => ⟨.newArray n, p⟩ ∈ l
  | .touch p i => Element l p i
  | .setParam p i _ => Element l p i
  | _ => True

/-- No request has gone beyond the end of an array. -/
def AllInBounds : MemTrace → Prop
  | [] => True
  | ⟨e, _⟩ :: l => InBounds l e ∧ AllInBounds l

/-- After the trace `l` just `m` is held, and every request has been safe. -/
structure Books (m : Multiset Resource) (l : MemTrace) : Prop where
  held : Held (deals l) m
  onHand : OnHand (deals l)
  inBounds : AllInBounds l

/-- `mysql_query` returns only when there is a handle, and `mysql_stmt_close` has succeeded. -/
def expected : Answer MemOp MemOp.Reply → Prop
  | ⟨.db (.query h _), _⟩ => h ≠ none
  | ⟨.db (.stmtClose _), ok⟩ => ok = true
  | _ => True

/-- A request that goes beyond no array and touches only what is there. -/
structure Safe (l : MemTrace) (e : MemOp) : Prop where
  inBounds : InBounds l e
  onHand : ∀ r, OnHand (deals (⟨e, r⟩ :: l))

/-- Code whose requests are safe with any answers, but what is new has not been there before, and
statements can be closed. -/
abbrev Proper : Discipline MemOp MemOp.Reply MemTrace :=
  .recording Safe fun l e r =>
    (∀ x, .acquire x ∈ dealsOf ⟨e, r⟩ → x ∉ acquired (deals l)) ∧ expected ⟨e, r⟩

/-- A request that has no bounds to keep. -/
def Plain : MemOp → Prop
  | .memset _ _ => False
  | .touch _ _ => False
  | .setParam _ _ _ => False
  | _ => True

section

variable {m : Multiset Resource} {l : MemTrace} {e : MemOp} {r : e.Reply} {x : Resource}

/-- A request that is answered. -/
theorem Books.answer {m' : Multiset Resource} (h : Books m l) (hin : InBounds l e)
    (hheld : Held (dealsOf ⟨e, r⟩ ++ deals l) m') (hon : OnHand (dealsOf ⟨e, r⟩ ++ deals l)) :
    Books m' (⟨e, r⟩ :: l) :=
  ⟨hheld, hon, hin, h.inBounds⟩

theorem Plain.inBounds (he : Plain e) : InBounds l e := by
  cases e <;> first | exact trivial | exact he.elim

/-- Something is only used. -/
theorem Books.use (h : Books m l) (he : Plain e) {u : List Resource}
    (hd : dealsOf ⟨e, r⟩ = u.map .use) (hx : ∀ x ∈ u, x ∈ m) : Books m (⟨e, r⟩ :: l) := by
  refine h.answer he.inBounds ?_ ?_
  · rw [hd]
    exact h.held.uses hx
  · rw [hd]
    exact h.held.onHand_uses hx h.onHand

/-- Something is released. -/
theorem Books.release (h : Books ({x} + m) l) (he : Plain e) (hd : dealsOf ⟨e, r⟩ = [.release x]) :
    Books m (⟨e, r⟩ :: l) := by
  refine h.answer he.inBounds ?_ ?_
  · rw [hd]
    exact h.held.release
  · rw [hd]
    exact ⟨h.held.onHand (by simp), h.onHand⟩

theorem Books.safeUse (h : Books m l) (he : Plain e) {u : List Resource}
    (hd : ∀ r, dealsOf ⟨e, r⟩ = u.map .use) (hx : ∀ x ∈ u, x ∈ m) : Safe l e :=
  ⟨he.inBounds, fun r => (h.use he (hd r) hx).onHand⟩

theorem Books.safeRelease (h : Books ({x} + m) l) (he : Plain e)
    (hd : ∀ r, dealsOf ⟨e, r⟩ = [.release x]) : Safe l e :=
  ⟨he.inBounds, fun r => (h.release he (hd r)).onHand⟩

/-- Whatever may be acquired, it is what is used that counts. -/
theorem Books.safeGain (h : Books m l) (he : Plain e) {u : List Resource}
    (hd : ∀ r, dealsOf ⟨e, r⟩ = u.map .use ∨ ∃ x, dealsOf ⟨e, r⟩ = .acquire x :: u.map .use)
    (hx : ∀ x ∈ u, x ∈ m) : Safe l e := by
  refine ⟨he.inBounds, fun r => ?_⟩
  have hon : OnHand (u.map .use ++ deals l) := h.held.onHand_uses hx h.onHand
  unfold deals
  rw [List.flatMap_cons]
  rcases hd r with hd | ⟨x, hd⟩
  · rw [hd]
    exact hon
  · rw [hd]
    exact hon

/-- Something is acquired, and something is used for it. -/
theorem Books.acquire (h : Books m l) (he : Plain e) {u : List Resource}
    (hd : dealsOf ⟨e, r⟩ = .acquire x :: u.map .use) (hx : ∀ x ∈ u, x ∈ m)
    (hnew : ∀ x, .acquire x ∈ dealsOf ⟨e, r⟩ → x ∉ acquired (deals l)) :
    Books ({x} + m) (⟨e, r⟩ :: l) := by
  have hx' : x ∉ acquired (deals l) := hnew x (by rw [hd]; exact List.mem_cons_self)
  refine h.answer he.inBounds ?_ (by rw [hd]; exact h.held.onHand_uses hx h.onHand)
  rw [hd]
  refine (h.held.uses hx).acquire ?_
  have hacq : acquired (u.map Deal.use ++ deals l) = acquired (deals l) := by
    clear hd hx hx'
    induction u with
    | nil => rfl
    | cons x u ih => exact ih
  rw [hacq]
  exact hx'

/-- Code that does not go on. -/
theorem undefined_follows {α : Type} {Q : α → MemTrace → Prop} :
    (undefined : MemCode α).Follows Proper l Q :=
  ⟨⟨trivial, fun x => x.elim⟩, fun x _ => x.elim⟩

/-! ## What members point to -/

/-- What a pointer points to. -/
def piece {α : Type} (f : α → Resource) : Option α → Multiset Resource
  | none => 0
  | some a => {f a}

theorem used_eq (f : Nat → Resource) (o : Option Nat) : used f o = (o.toList.map f).map .use := by
  cases o <;> rfl

/-- What a pointer that is used points to is held. -/
theorem mem_of_piece {f : Nat → Resource} {o : Option Nat} (h : piece f o ≤ m) :
    ∀ x ∈ o.toList.map f, x ∈ m := by
  intro x hx
  cases o with
  | none => cases hx
  | some a =>
    obtain rfl := List.mem_singleton.mp hx
    exact Multiset.singleton_le.mp h

/-- A pointer is used. -/
theorem Books.usePtr (h : Books m l) (he : Plain e) {f : Nat → Resource} {o : Option Nat}
    (hd : dealsOf ⟨e, r⟩ = used f o) (ho : piece f o ≤ m) : Books m (⟨e, r⟩ :: l) :=
  h.use he (hd.trans (used_eq f o)) (mem_of_piece ho)

/-- Where a string is. -/
abbrev ofStr : Option Str → Multiset Resource := piece fun s => .block s.p

section

variable {α : Type} {k : e.Reply → MemCode α} {Q : α → MemTrace → Prop}

/-! ## One request -/

/-- What is used when there is nothing. -/
theorem none_used : ∀ x ∈ ([] : List Resource), x ∈ m := by
  intro x hx
  cases hx

/-- A request that uses a resource, or none. -/
theorem Books.ask (h : Books m l) (he : Plain e) {u : List Resource}
    (hd : ∀ r, dealsOf ⟨e, r⟩ = u.map .use) (hx : ∀ x ∈ u, x ∈ m)
    (hk : ∀ r, expected ⟨e, r⟩ → Books m (⟨e, r⟩ :: l) → (k r).Follows Proper (⟨e, r⟩ :: l) Q) :
    (MemOp.req e >>= k).Follows Proper l Q :=
  ⟨h.safeUse he hd hx, fun r hr => hk r hr.2 (h.use he (hd r) hx)⟩

/-- A request that uses what a pointer points to. -/
theorem Books.askPtr (h : Books m l) (he : Plain e) {f : Nat → Resource} {o : Option Nat}
    (hd : ∀ r, dealsOf ⟨e, r⟩ = used f o) (ho : piece f o ≤ m)
    (hk : ∀ r, Books m (⟨e, r⟩ :: l) → (k r).Follows Proper (⟨e, r⟩ :: l) Q) :
    (MemOp.req e >>= k).Follows Proper l Q :=
  h.ask he (fun r => (hd r).trans (used_eq f o)) (mem_of_piece ho) fun r _ hb => hk r hb

/-- A request that releases something. -/
theorem Books.askRelease (h : Books ({x} + m) l) (he : Plain e)
    (hd : ∀ r, dealsOf ⟨e, r⟩ = [.release x])
    (hk : ∀ r, expected ⟨e, r⟩ → Books m (⟨e, r⟩ :: l) → (k r).Follows Proper (⟨e, r⟩ :: l) Q) :
    (MemOp.req e >>= k).Follows Proper l Q :=
  ⟨h.safeRelease he hd, fun r hr => hk r hr.2 (h.release he (hd r))⟩

/-- A request for memory. -/
theorem Books.askBlock (h : Books m l) (he : Plain e) {p : e.Reply → Nat}
    (hd : ∀ r, dealsOf ⟨e, r⟩ = [.acquire (.block (p r))])
    (hk : ∀ r, Books ({.block (p r)} + m) (⟨e, r⟩ :: l) → (k r).Follows Proper (⟨e, r⟩ :: l) Q) :
    (MemOp.req e >>= k).Follows Proper l Q := by
  refine ⟨h.safeGain (u := []) he (fun r => Or.inr ⟨_, hd r⟩) none_used, fun r hr => hk r ?_⟩
  exact h.acquire he (u := []) (hd r) none_used hr.1

/-- What is used when there is one thing. -/
theorem one_used {y : Resource} (hy : y ∈ m) : ∀ x ∈ [y], x ∈ m := by
  intro x hx
  obtain rfl := List.mem_singleton.mp hx
  exact hy

/-- A request that may be answered with something new, for which something is used. -/
theorem Books.askGain (h : Books m l) (he : Plain e) {f : Nat → Resource} {o : Option Nat}
    {g : Nat → Resource} {b : e.Reply → Option Nat}
    (hd : ∀ r, dealsOf ⟨e, r⟩ = gained g (b r) ++ used f o) (ho : piece f o ≤ m)
    (hk : ∀ r, Books (piece g (b r) + m) (⟨e, r⟩ :: l) →
      (k r).Follows Proper (⟨e, r⟩ :: l) Q) :
    (MemOp.req e >>= k).Follows Proper l Q := by
  have hsafe : Safe l e := by
    refine h.safeGain (u := o.toList.map f) he (fun r => ?_) (mem_of_piece ho)
    rw [hd r, used_eq]
    cases b r with
    | none => exact Or.inl rfl
    | some p => exact Or.inr ⟨g p, rfl⟩
  refine ⟨hsafe, fun r hr => hk r ?_⟩
  cases hb : b r with
  | none =>
    rw [piece, zero_add]
    refine h.usePtr he ?_ ho
    rw [hd r, hb]
    rfl
  | some p =>
    refine h.acquire he (u := o.toList.map f) ?_ (mem_of_piece ho) hr.1
    rw [hd r, hb, used_eq]
    rfl

theorem freeString_books {s : Option Str} (h : Books (ofStr s + m) l) :
    (freeString s).Follows Proper l fun _ l' => Books m l' := by
  cases s with
  | none =>
    have h : Books m l := by simpa [piece] using h
    exact h
  | some s => exact h.askRelease (k := pure) trivial (fun _ => rfl) fun _ _ h => h

/-- A string of the caller's is copied. -/
theorem storeString_books {m_sz : Option Str} (h : Books m l) (hnone : m_sz = none)
    {sz : Option CStr} (hsz : sz.bind (·.p) = none) :
    (storeString m_sz sz).Follows Proper l fun s l' => Books (ofStr s + m) l' := by
  subst hnone
  cases sz with
  | none =>
    have h : Books (0 + m) l := by simpa using h
    exact h
  | some sz =>
    have hd : ∀ p, dealsOf ⟨.strdup sz, p⟩ = [.acquire (.block p)] := by
      intro p
      have hp : sz.p = none := hsz
      simp [dealsOf, hp, used]
    unfold storeString
    exact h.askBlock trivial hd fun _ h => h

theorem readString_books {sz : Option CStr} (h : Books m l)
    (hsz : piece .block (sz.bind (·.p)) ≤ m) :
    (readString sz).Follows Proper l fun _ l' => Books m l' := by
  cases sz with
  | none => exact h
  | some sz => exact h.askPtr (k := pure) trivial (fun _ => rfl) hsz fun _ h => h

/-- Where the strings of a connection are. -/
def blocks (a : ConnectArgs CStr) : ConnectArgs Nat := a.bind (·.p)

/-- `mysql_real_connect` with strings that exist. -/
theorem realConnect_books {p : Nat} {a : ConnectArgs CStr} (h : Books m l) (hp : .handle p ∈ m)
    (hServer : piece .block (blocks a).szServer ≤ m) (hDB : piece .block (blocks a).szDB ≤ m)
    (hUser : piece .block (blocks a).szUser ≤ m) (hPWD : piece .block (blocks a).szPWD ≤ m) :
    (realConnect p a).Follows Proper l fun _ l' => Books m l' := by
  refine (readString_books h hServer).bind fun _ l h => ?_
  refine (readString_books h hDB).bind fun _ l h => ?_
  refine (readString_books h hUser).bind fun _ l h => ?_
  refine (readString_books h hPWD).bind fun _ l h => ?_
  exact h.ask (k := pure) trivial (fun _ => rfl) (one_used hp) fun _ _ h => h

theorem deleteArray_books {p : Option Nat} (h : Books (piece .block p + m) l) :
    (deleteArray p).Follows Proper l fun _ l' => Books m l' := by
  cases p with
  | none =>
    have h : Books m l := by simpa [piece] using h
    exact h
  | some p => exact h.askRelease (k := pure) trivial (fun _ => rfl) fun _ _ h => h

theorem freeResult_books {r : Option Nat} (h : Books (piece .result r + m) l) :
    (freeResult r).Follows Proper l fun _ l' => Books m l' := by
  cases r with
  | none =>
    have h : Books m l := by simpa [piece] using h
    exact h
  | some r => exact h.askRelease (k := pure) trivial (fun _ => rfl) fun _ _ h => h

/-! ## `MySqlDB` -/

namespace MySqlDB

variable {db : MySqlDB}

/-- The strings of its members. -/
def strings (db : MySqlDB) : Multiset Resource :=
  ofStr db.m_szServer + (ofStr db.m_szDB + (ofStr db.m_szUser + ofStr db.m_szPWD))

/-- What its members point to. -/
def owned (db : MySqlDB) : Multiset Resource := piece .handle db.m_pMySql + db.strings

/-- `mysql_init` has returned NULL. -/
def InitFailed (l : MemTrace) : Prop := ⟨.db .init, (none : Option Nat)⟩ ∈ l

/-- There are strings without a handle only when `mysql_init` has failed. -/
def Backed (db : MySqlDB) (l : MemTrace) : Prop :=
  db.m_pMySql = none → db.strings = 0 ∨ InitFailed l

theorem Backed.mono {l' : MemTrace} (h : db.Backed l) (hl : l ⊆ l') : db.Backed l' :=
  fun hnone => (h hnone).imp_right fun hi => hl hi

theorem handle_le (db : MySqlDB) (m : Multiset Resource) :
    piece .handle db.m_pMySql ≤ db.owned + m := by
  unfold owned
  rw [add_assoc]
  exact Multiset.le_add_right _ _

theorem errorDump_books (h : Books m l) (hh : piece .handle db.m_pMySql ≤ m) :
    db.errorDump.Follows Proper l fun _ l' => Books m l' := by
  unfold errorDump
  split
  · exact h.askPtr (k := pure) trivial (fun _ => rfl) hh fun _ h => h
  · exact h

theorem errorDumpSimple_books (h : Books m l) (szMsg : Bytes) {arg : Option CStr}
    (harg : piece .block (arg.bind (·.p)) ≤ m) :
    (db.errorDumpSimple szMsg arg).Follows Proper l fun _ l' => Books m l' := by
  unfold errorDumpSimple
  split
  · exact h.askPtr (k := pure) trivial (fun _ => rfl) harg fun _ h => h
  · exact h

/-- A message without an argument, or with one that is not the library's. -/
theorem message_books (h : Books m l) (szMsg : Bytes) {arg : Option CStr}
    (harg : arg.bind (·.p) = none) :
    (db.errorDumpSimple szMsg arg).Follows Proper l fun _ l' => Books m l' := by
  refine errorDumpSimple_books h szMsg ?_
  rw [harg]
  exact Multiset.zero_le m

theorem closeHandle_books {p : Option Nat} (h : Books (piece .handle p + m) l) :
    (closeHandle p).Follows Proper l fun _ l' => Books m l' := by
  cases p with
  | none =>
    have h : Books m l := by simpa [piece] using h
    exact h
  | some p => exact h.askRelease (k := pure) trivial (fun _ => rfl) fun _ _ h => h

/-- The members after `Close`. -/
def closed (db : MySqlDB) : MySqlDB := { m_pErrorDump := db.m_pErrorDump, m_bConnected := false }

@[simp] theorem owned_closed (db : MySqlDB) : db.closed.owned = 0 := rfl

/-- **`Close`** leaves nothing. -/
theorem close_books (h : Books (db.owned + m) l) :
    db.close.Follows Proper l fun db' l' => db' = db.closed ∧ Books m l' := by
  simp only [owned, strings, add_assoc] at h
  refine (closeHandle_books h).bind fun _ l h => ?_
  refine (freeString_books h).bind fun _ l h => ?_
  refine (freeString_books h).bind fun _ l h => ?_
  refine (freeString_books h).bind fun _ l h => ?_
  refine (freeString_books h).bind fun _ l h => ?_
  exact ⟨rfl, h⟩

/-- Just what the object and the others own is held. -/
structure Kept (db : MySqlDB) (m : Multiset Resource) (l : MemTrace) : Prop where
  books : Books (db.owned + m) l
  backed : db.Backed l

theorem backed_of_handle (h : db.m_pMySql ≠ none) : db.Backed l := fun hnone => absurd hnone h

/-- `mysql_init` -/
theorem init_books {k : Option Nat → MemCode α} {Q : α → MemTrace → Prop} (h : Books m l)
    (hnone : ∀ l', InitFailed l' → Books m l' → (k none).Follows Proper l' Q)
    (hsome : ∀ p l', Books ({.handle p} + m) l' → (k (some p)).Follows Proper l' Q) :
    (MemOp.req (.db .init) >>= k).Follows Proper l Q := by
  refine h.askGain (f := .handle) (o := none) (b := id) trivial
    (fun r => (List.append_nil _).symm) (Multiset.zero_le m) fun p h => ?_
  cases p with
  | none => exact hnone _ List.mem_cons_self (by simpa [piece] using h)
  | some p => exact hsome p _ h

/-- None of the strings of a connection is the library's. -/
def Foreign (a : ConnectArgs CStr) : Prop := blocks a = ⟨none, none, none, none, a.nPort⟩

@[simp] theorem afterFree_p (m_sz : Option Str) (sz : CStr) : (sz.afterFree m_sz).p = sz.p := by
  unfold CStr.afterFree
  split <;> rfl

/-- **`Connect`** with strings of the caller's. -/
theorem Kept.connect (h : db.Kept m l) {a : ConnectArgs CStr} (ha : Foreign a) :
    (db.connect a).Follows Proper l fun x l' => x.2.Kept m l' := by
  unfold MySqlDB.connect
  dsimp only
  -- freeing strings does not move the arguments
  have hblocks : blocks (a.bind fun sz => some (sz.afterFree db.m_szDB)) = blocks a := by
    simp [blocks, ConnectArgs.bind, Option.bind_assoc]
  generalize a.bind (fun sz => some (sz.afterFree db.m_szDB)) = a' at hblocks ⊢
  have ha : blocks a' = ⟨none, none, none, none, a.nPort⟩ := hblocks.trans ha
  obtain ⟨hServer, hDB, hUser, hPWD, -⟩ := ConnectArgs.mk.inj ha
  have hnone : ∀ {o : Option Nat} {x : Multiset Resource}, o = none → piece .block o ≤ x := by
    rintro _ x rfl
    exact Multiset.zero_le x
  refine (close_books h.books).bind ?_
  rintro _ l ⟨rfl, h⟩
  refine init_books h (fun l _ h => ?_) fun p l h => ?_
  · refine (message_books h _ rfl).bind fun _ l h => ?_
    exact ⟨by simpa [owned, piece, closed, strings] using h, fun _ => Or.inl rfl⟩
  · refine (realConnect_books h (by simp) (hnone hServer) (hnone hDB) (hnone hUser)
      (hnone hPWD)).bind fun ok l h => ?_
    cases ok with
    | true =>
      refine (storeString_books h rfl hServer).bind fun s₁ l h => ?_
      refine (storeString_books h rfl hDB).bind fun s₂ l h => ?_
      refine (storeString_books h rfl hUser).bind fun s₃ l h => ?_
      refine (storeString_books h rfl hPWD).bind fun s₄ l h => ?_
      refine h.ask trivial (fun _ => rfl) (one_used (by simp)) fun _ _ h => ?_
      refine ⟨?_, backed_of_handle (Option.some_ne_none p)⟩
      have heq : ofStr s₄ + (ofStr s₃ + (ofStr s₂ + (ofStr s₁ + ({.handle p} + m))))
          = owned ⟨some p, s₁, s₂, s₃, s₄, a'.nPort, db.m_pErrorDump, true⟩ + m := by
        simp only [owned, strings, piece]
        ac_rfl
      rw [heq] at h
      exact h
    | false =>
      refine (errorDump_books h (Multiset.le_add_right _ _)).bind fun _ l h => ?_
      exact ⟨by simpa [owned, piece, closed, strings] using h,
        backed_of_handle (Option.some_ne_none p)⟩

/-- What `_Reconnect` starts with. -/
theorem discard_books (h : Books (db.owned + m) l) :
    db.discard.Follows Proper l fun db' l' => db'.m_pMySql = none ∧ db'.strings = db.strings ∧
      Books (db.strings + m) l' := by
  unfold discard
  cases hp : db.m_pMySql with
  | none =>
    refine ⟨hp, rfl, ?_⟩
    simpa [owned, hp, piece] using h
  | some p =>
    have h : Books ({.handle p} + (db.strings + m)) l := by
      simpa [owned, hp, piece, add_assoc] using h
    exact h.askRelease trivial (fun _ => rfl) fun _ _ h => ⟨rfl, rfl, h⟩

/-- The connection with the stored parameters, whatever the handle is. -/
theorem stored_books {p : Nat} {b : Bool} (h : Books ({.handle p} + (db.strings + m)) l) :
    (realConnect p ({ db with m_pMySql := some p, m_bConnected := b } : MySqlDB).stored).Follows
      Proper l fun _ l' => Books ({.handle p} + (db.strings + m)) l' := by
  have hcstr : ∀ sz : Option Str, (sz.map Str.cstr).bind (·.p) = sz.map (·.p) := by
    intro sz
    cases sz <;> rfl
  have hpiece : ∀ sz : Option Str, piece .block (sz.map (·.p)) = ofStr sz := by
    intro sz
    cases sz <;> rfl
  have hle : ∀ (sz : Option Str) rest, db.strings = ofStr sz + rest →
      piece .block ((sz.map Str.cstr).bind (·.p)) ≤ {.handle p} + (db.strings + m) := by
    intro sz rest heq
    rw [hcstr, hpiece, heq, add_assoc, add_left_comm]
    exact Multiset.le_add_right _ _
  refine realConnect_books h (by simp) (hle db.m_szServer _ rfl) ?_ ?_ ?_
  · refine hle db.m_szDB (ofStr db.m_szServer + (ofStr db.m_szUser + ofStr db.m_szPWD)) ?_
    unfold strings
    ac_rfl
  · refine hle db.m_szUser (ofStr db.m_szServer + (ofStr db.m_szDB + ofStr db.m_szPWD)) ?_
    unfold strings
    ac_rfl
  · refine hle db.m_szPWD (ofStr db.m_szServer + (ofStr db.m_szDB + ofStr db.m_szUser)) ?_
    unfold strings
    ac_rfl

/-- **`_Reconnect`** -/
theorem Kept.reconnect (h : db.Kept m l) :
    db.reconnect.Follows Proper l fun x l' => x.2.Kept m l' := by
  refine (discard_books h.books).bind ?_
  rintro db' l ⟨-, hs, h⟩
  rw [← hs] at h
  refine init_books h (fun l hfail h => ?_) fun p l h => ?_
  · refine (message_books h _ rfl).grows.bind ?_
    rintro _ l' ⟨h, hl⟩
    -- the strings stay, and there is no handle
    refine ⟨?_, fun _ => Or.inr (hl.subset hfail)⟩
    simpa [owned, piece, strings] using h
  · have hkept : ∀ (b : Bool) l', Books ({.handle p} + (db'.strings + m)) l' →
        ({ db' with m_pMySql := some p, m_bConnected := b } : MySqlDB).Kept m l' := by
      intro b l' h
      refine ⟨?_, backed_of_handle (Option.some_ne_none p)⟩
      rw [← add_assoc] at h
      exact h
    refine (stored_books h).bind fun ok l h => ?_
    cases ok with
    | true =>
      refine h.ask trivial (fun _ => rfl) (one_used (by simp)) fun _ _ h => ?_
      refine (message_books h _ rfl).bind fun _ l h => ?_
      exact hkept true l h
    | false =>
      refine (errorDump_books h (Multiset.le_add_right _ _)).bind fun _ l h => ?_
      refine (message_books h _ rfl).bind fun _ l h => ?_
      exact hkept db'.m_bConnected l h

/-- **`Connected`** -/
theorem Kept.connected (h : db.Kept m l) :
    db.connected.Follows Proper l fun x l' => x.2.Kept m l' := by
  have hle : piece .handle db.m_pMySql ≤ db.owned + m := handle_le db m
  unfold MySqlDB.connected
  cases hp : db.m_pMySql with
  | none => exact h
  | some p =>
    rw [hp] at hle
    have hmem : .handle p ∈ db.owned + m := Multiset.singleton_le.mp hle
    refine h.books.ask trivial (fun _ => rfl) (one_used hmem) fun ok _ hb => ?_
    have h : db.Kept m (⟨.db (.ping p), ok⟩ :: l) :=
      ⟨hb, h.backed.mono (List.subset_cons_self _ _)⟩
    cases ok with
    | true => exact h
    | false =>
      refine (errorDump_books h.books (handle_le db m)).grows.bind ?_
      rintro _ l' ⟨hb, hl⟩
      exact Kept.reconnect ⟨hb, h.backed.mono hl.subset⟩

/-- **`UseDB`** with a string of the caller's. -/
theorem Kept.useDB (h : db.Kept m l) {szDB : CStr} (hsz : szDB.p = none) :
    (db.useDB szDB).Follows Proper l fun x l' => x.2.Kept m l' := by
  unfold MySqlDB.useDB
  have hread : ∀ r, dealsOf ⟨.read szDB, r⟩ = ([] : List Resource).map .use := by
    intro r
    simp [dealsOf, hsz, used]
  refine h.books.ask trivial hread none_used fun _ _ hb => ?_
  have hbacked := h.backed.mono (List.subset_cons_self ⟨.read szDB, ()⟩ l)
  refine hb.ask trivial (fun _ => used_eq _ _) (mem_of_piece (handle_le db m)) fun ok hr hb => ?_
  -- without a handle `mysql_query` does not return
  have hhandle : db.m_pMySql ≠ none := hr
  cases ok with
  | false => exact ⟨hb, hbacked.mono (List.subset_cons_self _ _)⟩
  | true =>
    have heq : db.owned + m = ofStr db.m_szDB + (piece .handle db.m_pMySql +
        (ofStr db.m_szServer + (ofStr db.m_szUser + ofStr db.m_szPWD)) + m) := by
      simp only [owned, strings]
      ac_rfl
    rw [heq] at hb
    refine (freeString_books hb).bind fun _ l hb => ?_
    dsimp only
    have hsz' : (szDB.afterFree db.m_szDB).p = none := (afterFree_p _ _).trans hsz
    generalize szDB.afterFree db.m_szDB = szDB' at hsz' ⊢
    refine hb.askBlock trivial (p := fun r => r) ?_ fun p hb => ?_
    · intro r
      simp [dealsOf, hsz', used]
    have harg : (some szDB').bind (·.p) = none := hsz'
    refine (message_books hb _ harg).bind fun _ l hb => ?_
    refine ⟨?_, backed_of_handle hhandle⟩
    have heq : {.block p} + (piece .handle db.m_pMySql +
        (ofStr db.m_szServer + (ofStr db.m_szUser + ofStr db.m_szPWD)) + m)
        = ({ db with m_szDB := some ⟨p, szDB'.chars⟩ } : MySqlDB).owned + m := by
      simp only [owned, strings, piece]
      ac_rfl
    rw [heq] at hb
    exact hb

/-- **The destructor** leaves no handle. -/
theorem Kept.destroy (h : db.Kept m l) :
    db.destroy.Follows Proper l fun x l' => x.m_pMySql = none ∧ x.Kept m l' := by
  unfold MySqlDB.destroy
  cases hp : db.m_pMySql with
  | none => exact ⟨hp, h⟩
  | some p =>
    refine (close_books h.books).mono ?_
    rintro _ l' ⟨rfl, hb⟩
    exact ⟨rfl, by simpa using hb, fun _ => Or.inl rfl⟩

/-- The strings that are passed are the caller's own. -/
def OwnStrings : DbCall → Prop
  | .connect a => ∀ x ∈ [a.szServer, a.szDB, a.szUser, a.szPWD], x ≠ some .getDBName
  | .useDB szDB => szDB ≠ .getDBName
  | _ => True

instance (call : DbCall) : Decidable (OwnStrings call) := by
  unfold OwnStrings
  split <;> infer_instance

theorem argument_p {x : StrArg} (hx : x ≠ .getDBName) : (db.argument x).bind (·.p) = none := by
  cases x with
  | text s => rfl
  | getDBName => exact absurd rfl hx

/-- **One call** of a function of `MySqlDB`. -/
theorem Kept.code (h : db.Kept m l) {call : DbCall} (hcall : OwnStrings call) :
    (call.code db).Follows Proper l fun x l' => x.Kept m l' := by
  cases call with
  | connect a =>
    have hnone : ∀ x ∈ [a.szServer, a.szDB, a.szUser, a.szPWD],
        (x.bind db.argument).bind (·.p) = none := by
      intro x hx
      cases x with
      | none => rfl
      | some x => exact argument_p fun heq => hcall _ hx (congrArg some heq)
    have hforeign : Foreign (a.bind db.argument) := by
      refine ConnectArgs.ext ?_ ?_ ?_ ?_ rfl
      all_goals exact hnone _ (by simp)
    exact (h.connect hforeign).bind fun _ _ h => h
  | close =>
    refine (close_books h.books).mono ?_
    rintro _ l' ⟨rfl, hb⟩
    exact ⟨by simpa using hb, fun _ => Or.inl rfl⟩
  | connected => exact h.connected.bind fun _ _ h => h
  | useDB szDB =>
    cases szDB with
    | text s =>
      have hsz : (CStr.ofText s).p = none := rfl
      exact (h.useDB hsz).bind fun _ _ h => h
    | getDBName => exact absurd rfl hcall
  | setCallBackFunc pFunc => exact ⟨h.books, h.backed⟩

/-! ## What is done beside the object -/

theorem Kept.mono {l' : MemTrace} (h : db.Kept m l) (hb : Books (db.owned + m) l') (hl : l <:+ l') :
    db.Kept m l' :=
  ⟨hb, h.backed.mono hl.subset⟩

/-- Code that lets go of `a`, when it does so beside anything else, and whose result says `R`. -/
theorem Kept.freeWith {p : MemCode α} {a : Multiset Resource} {R : α → Prop}
    (h : db.Kept (a + m) l)
    (hp : ∀ x, Books (a + x) l → p.Follows Proper l fun r l' => R r ∧ Books x l') :
    p.Follows Proper l fun r l' => R r ∧ db.Kept m l' := by
  have hb : Books (a + (db.owned + m)) l := by
    rw [add_left_comm]
    exact h.books
  exact (hp _ hb).grows.mono fun _ _ hx => ⟨hx.1.1, hx.1.2, h.backed.mono hx.2.subset⟩

/-- The same for code whose result says nothing. -/
theorem Kept.free {p : MemCode α} {a : Multiset Resource} (h : db.Kept (a + m) l)
    (hp : ∀ x, Books (a + x) l → p.Follows Proper l fun _ l' => Books x l') :
    p.Follows Proper l fun _ l' => db.Kept m l' := by
  have hwith := h.freeWith (R := fun _ => True) fun x hb =>
    (hp x hb).mono fun _ _ hx => ⟨trivial, hx⟩
  exact hwith.mono fun _ _ hx => hx.2

theorem Kept.errorDump (h : db.Kept m l) :
    db.errorDump.Follows Proper l fun _ l' => db.Kept m l' :=
  (errorDump_books h.books (handle_le db m)).grows.mono fun _ _ hx => h.mono hx.1 hx.2

theorem Kept.errorDumpSimple (h : db.Kept m l) (szMsg : Bytes) {arg : Option CStr}
    (harg : piece .block (arg.bind (·.p)) ≤ db.owned + m) :
    (db.errorDumpSimple szMsg arg).Follows Proper l fun _ l' => db.Kept m l' :=
  (errorDumpSimple_books h.books szMsg harg).grows.mono fun _ _ hx => h.mono hx.1 hx.2

theorem Kept.message (h : db.Kept m l) (szMsg : Bytes) {arg : Option CStr}
    (harg : arg.bind (·.p) = none) :
    (db.errorDumpSimple szMsg arg).Follows Proper l fun _ l' => db.Kept m l' := by
  refine h.errorDumpSimple szMsg ?_
  rw [harg]
  exact Multiset.zero_le _

/-- A request that uses a resource. -/
theorem Kept.ask (h : db.Kept m l) (he : Plain e) {u : List Resource}
    (hd : ∀ r, dealsOf ⟨e, r⟩ = u.map .use) (hx : ∀ x ∈ u, x ∈ m)
    (hk : ∀ r, db.Kept m (⟨e, r⟩ :: l) → (k r).Follows Proper (⟨e, r⟩ :: l) Q) :
    (MemOp.req e >>= k).Follows Proper l Q :=
  h.books.ask he hd (fun x hm => Multiset.mem_add.mpr (Or.inr (hx x hm)))
    fun r _ hb => hk r (h.mono hb (List.suffix_cons _ _))

/-- A request that uses the handle, if there is one. -/
theorem Kept.askHandle (h : db.Kept m l) (he : Plain e)
    (hd : ∀ r, dealsOf ⟨e, r⟩ = used .handle db.m_pMySql)
    (hk : ∀ r, db.Kept m (⟨e, r⟩ :: l) → (k r).Follows Proper (⟨e, r⟩ :: l) Q) :
    (MemOp.req e >>= k).Follows Proper l Q :=
  h.books.askPtr he hd (handle_le db m) fun r hb => hk r (h.mono hb (List.suffix_cons _ _))

/-- A request for a block of memory. -/
theorem Kept.askBlock (h : db.Kept m l) (he : Plain e) {p : e.Reply → Nat}
    (hd : ∀ r, dealsOf ⟨e, r⟩ = [.acquire (.block (p r))])
    (hk : ∀ r, db.Kept ({.block (p r)} + m) (⟨e, r⟩ :: l) →
      (k r).Follows Proper (⟨e, r⟩ :: l) Q) :
    (MemOp.req e >>= k).Follows Proper l Q := by
  refine h.books.askBlock he hd fun r hb => hk r ?_
  rw [add_left_comm] at hb
  exact ⟨hb, h.backed.mono (List.subset_cons_self _ _)⟩

/-- A request that may be answered with something new, for which something is used. -/
theorem Kept.askGain (h : db.Kept m l) (he : Plain e) {f : Nat → Resource} {o : Option Nat}
    {g : Nat → Resource} {b : e.Reply → Option Nat}
    (hd : ∀ r, dealsOf ⟨e, r⟩ = gained g (b r) ++ used f o) (ho : piece f o ≤ db.owned + m)
    (hk : ∀ r, db.Kept (piece g (b r) + m) (⟨e, r⟩ :: l) →
      (k r).Follows Proper (⟨e, r⟩ :: l) Q) :
    (MemOp.req e >>= k).Follows Proper l Q := by
  refine h.books.askGain he hd ho fun r hb => hk r ?_
  rw [add_left_comm] at hb
  exact ⟨hb, h.backed.mono (List.subset_cons_self _ _)⟩

/-- A last request. -/
theorem Kept.asks (h : db.Kept m l) (he : Plain e) {u : List Resource}
    (hd : ∀ r, dealsOf ⟨e, r⟩ = u.map .use) (hx : ∀ x ∈ u, x ∈ m) :
    (MemOp.req e).Follows Proper l fun _ l' => db.Kept m l' := by
  exact h.ask (k := pure) he hd hx fun _ h => h

/-- An access to an array, within its bounds. -/
theorem Kept.askArray (h : db.Kept m l) (hin : InBounds l e) {p : Nat}
    (hd : ∀ r, dealsOf ⟨e, r⟩ = [.use (.block p)]) (hp : .block p ∈ m)
    (hk : ∀ r, db.Kept m (⟨e, r⟩ :: l) → (k r).Follows Proper (⟨e, r⟩ :: l) Q) :
    (MemOp.req e >>= k).Follows Proper l Q := by
  have hb : ∀ r, Books (db.owned + m) (⟨e, r⟩ :: l) := by
    intro r
    have hp : .block p ∈ db.owned + m := Multiset.mem_add.mpr (Or.inr hp)
    refine h.books.answer hin ?_ ?_
    · rw [hd r]
      exact h.books.held.use hp
    · rw [hd r]
      exact ⟨h.books.held.onHand hp, h.books.onHand⟩
  exact ⟨⟨hin, fun r => (hb r).onHand⟩, fun r _ => hk r (h.mono (hb r) (List.suffix_cons _ _))⟩

end MySqlDB

/-! ## `MySqlQuery` -/

namespace MySqlQuery

open Memory.MySqlDB

variable {q : MySqlQuery} {db : MySqlDB}

/-- What its members point to. -/
def owned (q : MySqlQuery) : Multiset Resource := ofStr q.m_szSQL + piece .result q.m_pRecords

theorem executeAgain_kept (h : db.Kept m l) (szCMD : Bytes) :
    (executeAgain db szCMD).Follows Proper l fun x l' => x.2.Kept m l' := by
  refine (h.message _ rfl).bind fun _ l h => ?_
  refine h.askHandle trivial (fun _ => rfl) fun n h => ?_
  split
  · refine h.connected.bind ?_
    rintro ⟨ok, db⟩ l h
    cases ok with
    | true =>
      refine Kept.askHandle h trivial (fun _ => rfl) fun ok h => ?_
      cases ok with
      | true => exact h
      | false =>
        refine h.errorDump.bind fun _ l h => ?_
        exact h.errorDump.bind fun _ l h => h
    | false => exact h.errorDump.bind fun _ l h => h
  · exact h.errorDump.bind fun _ l h => h

/-- **`ExecuteSQL`** -/
theorem executeSQL_kept (h : db.Kept (q.owned + m) l) (szCMD : Bytes) :
    (q.executeSQL db szCMD).Follows Proper l fun x l' => x.2.2.Kept (x.2.1.owned + m) l' := by
  rw [owned, add_assoc] at h
  refine (h.free fun _ h => freeString_books h).bind fun _ l h => ?_
  refine h.askBlock trivial (fun _ => rfl) fun p h => ?_
  rw [← add_assoc] at h
  have h : db.Kept (({ q with m_szSQL := some ⟨p, .text szCMD⟩ } : MySqlQuery).owned + m)
    (⟨.strdup (.ofText szCMD), p⟩ :: l) := h
  refine h.askHandle trivial (fun _ => rfl) fun ok h => ?_
  cases ok with
  | true => exact h
  | false => exact (executeAgain_kept h szCMD).bind fun _ l h => h

theorem keepRecords_kept (hnone : q.m_pRecords = none) {r : Option Nat}
    (h : db.Kept (piece .result r + (ofStr q.m_szSQL + m)) l) :
    (q.keepRecords db r).Follows Proper l fun x l' => db.Kept (x.2.owned + m) l' := by
  cases r with
  | none =>
    have h : db.Kept (q.owned + m) l := by
      simpa [owned, hnone, piece] using h
    exact h.errorDump.bind fun _ l h => h
  | some r =>
    refine h.ask trivial (fun _ => rfl) (one_used (by simp [piece])) fun _ h => ?_
    rw [← add_assoc, add_comm (piece _ _)] at h
    exact h

/-- **`FetchRecords`** -/
theorem fetchRecords_kept (h : db.Kept (q.owned + m) l) (blAll : Bool) :
    (q.fetchRecords db blAll).Follows Proper l fun x l' => db.Kept (x.2.owned + m) l' := by
  rw [owned, add_comm (ofStr _), add_assoc] at h
  refine (h.free fun _ h => freeResult_books h).bind fun _ l h => ?_
  refine h.askHandle trivial (fun _ => rfl) fun n h => ?_
  split
  · have hq : ({ q with m_pRecords := none, m_dwFieldCnt := n } : MySqlQuery).owned
        = ofStr q.m_szSQL := by simp [owned, piece]
    rw [← hq] at h
    exact h
  · cases blAll with
    | true =>
      exact h.askGain (b := id) trivial (fun _ => rfl) (handle_le db _) fun r h =>
        keepRecords_kept rfl h
    | false =>
      exact h.askGain (b := id) trivial (fun _ => rfl) (handle_le db _) fun r h =>
        keepRecords_kept rfl h

/-- **`FetchRow`** -/
theorem fetchRow_kept (h : db.Kept (q.owned + m) l) :
    (q.fetchRow db).Follows Proper l fun _ l' => db.Kept (q.owned + m) l' := by
  unfold MySqlQuery.fetchRow
  cases hr : q.m_pRecords with
  | none =>
    exact h.ask (k := pure) (u := []) trivial (fun _ => rfl) none_used fun _ h => h
  | some r =>
    have hmem : .result r ∈ q.owned + m := by simp [owned, hr, piece]
    refine h.ask trivial (fun _ => rfl) (one_used hmem) fun ok h => ?_
    cases ok with
    | true => exact h.ask trivial (fun _ => rfl) (one_used hmem) fun _ h => h
    | false =>
      refine h.askHandle trivial (fun _ => rfl) fun n h => ?_
      -- the message prints `m_szSQL`
      have hle : piece .block ((q.m_szSQL.map Str.cstr).bind (·.p)) ≤ db.owned + (q.owned + m) := by
        have hs : piece .block ((q.m_szSQL.map Str.cstr).bind (·.p)) = ofStr q.m_szSQL := by
          cases q.m_szSQL <;> rfl
        rw [hs, owned, add_assoc, add_left_comm]
        exact Multiset.le_add_right _ _
      split
      · refine (h.errorDumpSimple _ hle).bind fun _ l h => ?_
        exact h.errorDump.bind fun _ l h => h
      · exact h

/-- **The destructor** leaves nothing. -/
theorem destroy_books (h : Books (q.owned + m) l) :
    q.destroy.Follows Proper l fun _ l' => Books m l' := by
  rw [owned, add_assoc] at h
  exact (freeString_books h).bind fun _ l h => freeResult_books h

/-- **One call** of a function of `MySqlQuery`. -/
theorem code_kept (h : db.Kept (q.owned + m) l) (call : QueryCall) :
    (call.code q db).Follows Proper l fun x l' => x.2.Kept (x.1.owned + m) l' := by
  cases call with
  | executeSQL szCMD => exact (executeSQL_kept h szCMD).bind fun _ _ h => h
  | fetchRecords blAll => exact (fetchRecords_kept h blAll).bind fun _ _ h => h
  | getRecordsCnt =>
    unfold QueryCall.code MySqlQuery.getRecordsCnt
    cases hr : q.m_pRecords with
    | none => exact h
    | some r =>
      have hmem : .result r ∈ q.owned + m := by simp [owned, hr, piece]
      exact h.ask trivial (fun _ => rfl) (one_used hmem) fun _ h => h
  | fetchRow => exact (fetchRow_kept h).bind fun _ _ h => h

end MySqlQuery

/-! ## `MySqlCmd` -/

namespace MySqlCmd

open Memory.MySqlDB

variable {cmd : MySqlCmd} {db : MySqlDB}

/-- The arrays of its members. -/
def arrays (cmd : MySqlCmd) : Multiset Resource :=
  piece .block cmd.m_pParams + (piece .block cmd.m_pRow + (all (piece .block) cmd.nodes +
    (piece .block cmd.m_pValues + (piece .block cmd.m_pblIsNull + piece .block cmd.m_pblError))))

/-- What its members point to. -/
def owned (cmd : MySqlCmd) : Multiset Resource :=
  piece .stmt cmd.m_pStmt + (cmd.arrays + piece .result cmd.m_pMetaRlt)

/-- Its arrays are as long as the counts say, and there are those for the columns together. -/
structure Shaped (cmd : MySqlCmd) (l : MemTrace) : Prop where
  params : ∀ p, cmd.m_pParams = some p → ⟨.newArray cmd.m_dwParamCnt, p⟩ ∈ l
  row : ∀ p, cmd.m_pRow = some p → ⟨.newArray cmd.m_dwFieldCnt, p⟩ ∈ l
  values : ∀ p, cmd.m_pValues = some p → ⟨.newArray cmd.m_dwFieldCnt, p⟩ ∈ l
  nodes : cmd.m_pValues = none → cmd.nodes = []
  count : ∀ p, cmd.m_pValues = some p → cmd.nodes.length = cmd.m_dwFieldCnt
  fields : cmd.m_pFields = cmd.m_pMetaRlt

theorem Shaped.mono {l' : MemTrace} (h : cmd.Shaped l) (hl : l ⊆ l') : cmd.Shaped l' :=
  ⟨fun p hp => hl (h.params p hp), fun p hp => hl (h.row p hp), fun p hp => hl (h.values p hp),
    h.nodes, h.count, h.fields⟩

theorem deleteNodes_books {nodes : List (Option Nat)} (h : Books (all (piece .block) nodes + m) l) :
    (deleteNodes nodes).Follows Proper l fun _ l' => Books m l' := by
  induction nodes generalizing l with
  | nil =>
    rw [all_nil, zero_add] at h
    exact h
  | cons node nodes ih =>
    rw [all_cons, add_assoc] at h
    exact (deleteArray_books h).bind fun _ l h => ih h

theorem deleteValues_books (hn : cmd.m_pValues = none → cmd.nodes = [])
    (h : Books (all (piece .block) cmd.nodes + (piece .block cmd.m_pValues + m)) l) :
    cmd.deleteValues.Follows Proper l fun _ l' => Books m l' := by
  unfold deleteValues
  cases hv : cmd.m_pValues with
  | none =>
    rw [hn hv, hv, all_nil, piece, zero_add, zero_add] at h
    exact h
  | some p =>
    -- the nodes are destroyed from the last one on
    rw [hv, ← all_reverse] at h
    refine (deleteNodes_books h).bind fun _ l h => ?_
    exact h.askRelease (k := pure) trivial (fun _ => rfl) fun _ _ h => h

/-- The members after `Reset`. -/
def cleared (cmd : MySqlCmd) : MySqlCmd := { m_pDB := cmd.m_pDB, m_dwFieldCnt := cmd.m_dwFieldCnt }

@[simp] theorem owned_cleared (cmd : MySqlCmd) : cmd.cleared.owned = 0 := rfl

theorem shaped_cleared (cmd : MySqlCmd) (l : MemTrace) : cmd.cleared.Shaped l := by
  constructor
  · intro p hp
    cases hp
  · intro p hp
    cases hp
  · intro p hp
    cases hp
  · exact fun _ => rfl
  · intro p hp
    cases hp
  · rfl

theorem discard_books (hn : cmd.m_pValues = none → cmd.nodes = [])
    (h : Books (cmd.arrays + piece .result cmd.m_pMetaRlt + m) l) :
    cmd.discard.Follows Proper l fun x l' => x = cmd.cleared ∧ Books m l' := by
  simp only [arrays, add_assoc] at h
  refine (deleteArray_books h).bind fun _ l h => ?_
  refine (deleteArray_books h).bind fun _ l h => ?_
  refine (deleteValues_books hn h).bind fun _ l h => ?_
  refine (deleteArray_books h).bind fun _ l h => ?_
  refine (deleteArray_books h).bind fun _ l h => ?_
  exact (freeResult_books h).bind fun _ l h => ⟨rfl, h⟩

/-- **`Reset`** leaves nothing. -/
theorem reset_books (hs : cmd.Shaped l) (h : Books (cmd.owned + m) l) (errorDump : MemCode Unit) :
    (cmd.reset errorDump).Follows Proper l fun x l' => x = (true, cmd.cleared) ∧ Books m l' := by
  unfold MySqlCmd.reset
  rw [owned] at h
  cases hst : cmd.m_pStmt with
  | none =>
    rw [hst, piece, zero_add] at h
    refine (discard_books hs.nodes h).bind ?_
    rintro _ l ⟨rfl, h⟩
    exact ⟨rfl, h⟩
  | some st =>
    rw [hst, add_assoc] at h
    refine h.askRelease trivial (fun _ => rfl) fun ok hok h => ?_
    -- the other answer is not `expected`
    have hok : ok = true := hok
    subst hok
    refine (discard_books hs.nodes h).bind ?_
    rintro _ l ⟨rfl, h⟩
    exact ⟨rfl, h⟩

/-! ### `SetCmd` -/

/-- A report needs the statement. -/
theorem errorDump_kept (h : db.Kept m l) (hst : piece .stmt cmd.m_pStmt ≤ m) :
    (cmd.errorDump db).Follows Proper l fun _ l' => db.Kept m l' := by
  unfold MySqlCmd.errorDump
  cases hs : cmd.m_pStmt with
  | none => exact h
  | some st =>
    rw [hs] at hst
    have hmem : .stmt st ∈ m := Multiset.singleton_le.mp hst
    exact h.ask trivial (fun _ => rfl) (one_used hmem) fun _ h => h.message _ rfl

theorem newParams_kept (h : db.Kept m l) (n : Nat) :
    (newParams n).Follows Proper l fun p l' => db.Kept (piece .block p + m) l' ∧
      ∀ x, p = some x → ⟨.newArray n, x⟩ ∈ l' := by
  unfold newParams
  split
  · refine h.askBlock trivial (fun _ => rfl) fun p h => ?_
    refine h.askArray List.mem_cons_self (fun _ => rfl) (by simp) fun _ h => ?_
    refine ⟨h, ?_⟩
    rintro x ⟨⟩
    exact List.mem_cons_of_mem _ List.mem_cons_self
  · refine ⟨?_, fun x hx => by cases hx⟩
    rw [piece, zero_add]
    exact h

theorem all_replicate_none (n : Nat) : all (piece Resource.block) (List.replicate n none) = 0 := by
  refine all_eq_zero ?_
  intro o ho
  obtain rfl := List.eq_of_mem_replicate ho
  rfl

/-- Just what the members of the command point to is held beside the rest. -/
structure Holds (cmd : MySqlCmd) (db : MySqlDB) (m : Multiset Resource) (l : MemTrace) : Prop where
  kept : db.Kept (cmd.owned + m) l
  shaped : cmd.Shaped l

/-- The command with a statement and nothing else. -/
def prepared (cmd : MySqlCmd) (st : Nat) : MySqlCmd := { cmd.cleared with m_pStmt := some st }

theorem newColumns_holds (hparams : ∀ p, cmd.m_pParams = some p →
      ⟨.newArray cmd.m_dwParamCnt, p⟩ ∈ l) (hfields : cmd.m_pFields = cmd.m_pMetaRlt)
    (h : db.Kept (piece .stmt cmd.m_pStmt + (piece .block cmd.m_pParams +
      piece .result cmd.m_pMetaRlt) + m) l) :
    cmd.newColumns.Follows Proper l fun x l' => x.Holds db m l' := by
  unfold newColumns
  refine h.askBlock trivial (fun _ => rfl) fun row h => ?_
  refine h.askArray List.mem_cons_self (fun _ => rfl) (by simp) fun _ h => ?_
  refine h.askBlock trivial (fun _ => rfl) fun isNull h => ?_
  refine h.askArray List.mem_cons_self (fun _ => rfl) (by simp) fun _ h => ?_
  refine h.askBlock trivial (fun _ => rfl) fun error h => ?_
  refine h.askArray List.mem_cons_self (fun _ => rfl) (by simp) fun _ h => ?_
  refine h.askBlock trivial (fun _ => rfl) fun values h => ?_
  have heq : {.block values} + ({.block error} + ({.block isNull} + ({.block row} +
      (piece .stmt cmd.m_pStmt + (piece .block cmd.m_pParams + piece .result cmd.m_pMetaRlt) + m))))
      = ({ cmd with
          m_pRow := some row
          m_pblIsNull := some isNull
          m_pblError := some error
          m_pValues := some values
          nodes := List.replicate cmd.m_dwFieldCnt none } : MySqlCmd).owned + m := by
    simp only [owned, arrays, all_replicate_none, piece, zero_add]
    ac_rfl
  refine ⟨?_, ?_⟩
  · rw [heq] at h
    exact h
  · constructor
    · intro p hp
      -- the parameters have been allocated before these seven requests
      iterate 7 refine List.mem_cons_of_mem _ ?_
      exact hparams p hp
    · rintro p ⟨⟩
      simp
    · rintro p ⟨⟩
      simp
    · intro hv
      cases hv
    · exact fun _ _ => List.length_replicate
    · exact hfields

theorem setFields_holds {st : Nat} (h : db.Kept ({.stmt st} + m) l) :
    ((cmd.prepared st).setFields db st).Follows Proper l fun x l' => x.2.Holds db m l' := by
  unfold setFields
  refine h.ask trivial (fun _ => rfl) (one_used (by simp)) fun nParams h => ?_
  refine (newParams_kept h nParams).bind ?_
  rintro params l ⟨h, hparams⟩
  have hmem : .stmt st ∈ piece .block params + ({.stmt st} + m) := by simp
  have heq : piece .block params + ({.stmt st} + m) = {.stmt st} + piece .block params + m := by
    ac_rfl
  refine h.ask trivial (fun _ => rfl) (one_used hmem) fun n h => ?_
  have hparams' : ∀ x, params = some x → ⟨.newArray nParams, x⟩ ∈
      (⟨.db (.stmtFieldCount st), n⟩ :: l : MemTrace) :=
    fun x hx => List.mem_cons_of_mem _ (hparams x hx)
  -- the command as it is without columns
  have hbare : ∀ l', (∀ x, params = some x → ⟨.newArray nParams, x⟩ ∈ l') →
      db.Kept (piece .block params + ({.stmt st} + m)) l' →
      ({ cmd.prepared st with m_pParams := params, m_dwParamCnt := nParams, m_dwFieldCnt := n } :
        MySqlCmd).Holds db m l' := by
    intro l' hp h
    rw [heq] at h
    refine ⟨?_, hp, ?_, ?_, fun _ => rfl, ?_, rfl⟩
    · simpa [owned, arrays, prepared, cleared, piece] using h
    · intro p hp
      cases hp
    · intro p hp
      cases hp
    · intro p hp
      cases hp
  split
  · refine h.askGain (f := .stmt) (o := some st) (b := id) trivial (fun _ => rfl) ?_ fun r h => ?_
    · exact Multiset.singleton_le.mpr (Multiset.mem_add.mpr (Or.inr hmem))
    cases r with
    | none =>
      rw [id_eq, piece, zero_add] at h
      refine (errorDump_kept h ?_).grows.bind ?_
      · exact Multiset.singleton_le.mpr hmem
      · rintro _ l' ⟨h, hl⟩
        exact hbare l' (fun x hx => hl.subset (List.mem_cons_of_mem _ (hparams' x hx))) h
    | some r =>
      refine h.ask trivial (fun _ => rfl) (one_used (by simp [piece])) fun _ h => ?_
      refine Prog.Follows.bind (newColumns_holds ?_ rfl ?_) fun _ _ h => h
      · exact fun x hx => List.mem_cons_of_mem _ (List.mem_cons_of_mem _ (hparams' x hx))
      · have hsum : piece .result (some r) + (piece .block params + ({.stmt st} + m))
            = piece .stmt (some st) + (piece .block params + piece .result (some r)) + m := by
          simp only [piece]
          ac_rfl
        rw [id_eq, hsum] at h
        exact h
  · exact hbare _ hparams' h

/-- **`SetCmd`** -/
theorem Holds.setCmd (h : cmd.Holds db m l) (szCMD : Bytes) :
    (cmd.setCmd db szCMD).Follows Proper l fun x l' => x.2.Holds db m l' := by
  unfold MySqlCmd.setCmd
  cases hp : db.m_pMySql with
  | none => exact h
  | some p =>
    refine (h.kept.freeWith fun _ hb => reset_books h.shaped hb _).bind ?_
    rintro _ l ⟨rfl, h⟩
    have hle : piece .handle (some p) ≤ db.owned + m := hp ▸ handle_le db m
    refine h.askGain (b := id) trivial (fun _ => rfl) hle fun st h => ?_
    cases st with
    | none =>
      have h : db.Kept (cmd.cleared.owned + m) _ := h
      exact h.errorDump.bind fun _ l h => ⟨h, shaped_cleared cmd l⟩
    | some st =>
      have h : db.Kept ({.stmt st} + m) _ := h
      refine h.ask trivial (fun _ => rfl) (one_used (by simp)) fun ok h => ?_
      cases ok with
      | true => exact setFields_holds h
      | false =>
        refine (errorDump_kept h (Multiset.le_add_right _ _)).bind fun _ l h => ?_
        refine ⟨by simpa [owned, arrays, prepared, cleared, piece] using h, ?_⟩
        have hs := shaped_cleared cmd l
        exact ⟨hs.params, hs.row, hs.values, hs.nodes, hs.count, hs.fields⟩

/-! ### The other functions -/

theorem Holds.mono {l' : MemTrace} (h : cmd.Holds db m l) (hk : db.Kept (cmd.owned + m) l')
    (hl : l <:+ l') : cmd.Holds db m l' :=
  ⟨hk, h.shaped.mono hl.subset⟩

theorem stmt_mem {st : Nat} (hst : cmd.m_pStmt = some st) : .stmt st ∈ cmd.owned + m := by
  simp [owned, hst, piece]

theorem stmt_le : piece .stmt cmd.m_pStmt ≤ cmd.owned + m := by
  rw [owned, add_assoc]
  exact Multiset.le_add_right _ _

theorem params_le : piece .block cmd.m_pParams ≤ cmd.owned + m := by
  simp only [owned, arrays, add_assoc]
  rw [add_left_comm]
  exact Multiset.le_add_right _ _

theorem row_le : piece .block cmd.m_pRow ≤ cmd.owned + m := by
  have heq : cmd.owned + m = piece .block cmd.m_pRow + (piece .stmt cmd.m_pStmt +
      (piece .block cmd.m_pParams + (all (piece .block) cmd.nodes + (piece .block cmd.m_pValues +
        (piece .block cmd.m_pblIsNull + piece .block cmd.m_pblError)))) +
      piece .result cmd.m_pMetaRlt + m) := by
    simp only [owned, arrays]
    ac_rfl
  rw [heq]
  exact Multiset.le_add_right _ _

theorem values_le : piece .block cmd.m_pValues ≤ cmd.owned + m := by
  have heq : cmd.owned + m = piece .block cmd.m_pValues + (piece .stmt cmd.m_pStmt +
      (piece .block cmd.m_pParams + (piece .block cmd.m_pRow + (all (piece .block) cmd.nodes +
        (piece .block cmd.m_pblIsNull + piece .block cmd.m_pblError)))) +
      piece .result cmd.m_pMetaRlt + m) := by
    simp only [owned, arrays]
    ac_rfl
  rw [heq]
  exact Multiset.le_add_right _ _

/-- Code that keeps to the members. -/
theorem Holds.of_kept {p : MemCode α} (h : cmd.Holds db m l)
    (hp : p.Follows Proper l fun _ l' => db.Kept (cmd.owned + m) l') :
    p.Follows Proper l fun _ l' => cmd.Holds db m l' :=
  hp.grows.mono fun _ _ hx => h.mono hx.1 hx.2

theorem onStmt_follows {act : Nat → MemCode α} {otherwise : α} {Q : α → MemTrace → Prop}
    (hnone : Q otherwise l) (hact : ∀ st, cmd.m_pStmt = some st → (act st).Follows Proper l Q) :
    (cmd.onStmt db otherwise act).Follows Proper l Q := by
  unfold onStmt
  split
  · next st _ hst => exact hact _ hst
  · exact hnone

theorem reporting_kept {call : MemCode Bool}
    (hcall : call.Follows Proper l fun _ l' => db.Kept (cmd.owned + m) l') :
    (cmd.reporting db call).Follows Proper l fun _ l' => db.Kept (cmd.owned + m) l' := by
  refine hcall.bind fun ok l h => ?_
  cases ok with
  | true => exact h
  | false => exact (errorDump_kept h stmt_le).bind fun _ l h => h

/-- What is used when libmysql is given the statement and an array. -/
theorem stmt_and {st : Nat} (hst : cmd.m_pStmt = some st) {o : Option Nat}
    (ho : piece .block o ≤ cmd.owned + m) :
    ∀ x ∈ Resource.stmt st :: o.toList.map Resource.block, x ∈ cmd.owned + m := by
  intro x hx
  rcases List.mem_cons.mp hx with rfl | hx
  · exact stmt_mem hst
  · exact mem_of_piece ho x hx

theorem bindParams_kept (h : db.Kept (cmd.owned + m) l) :
    (cmd.bindParams db).Follows Proper l fun _ l' => db.Kept (cmd.owned + m) l' := by
  refine onStmt_follows h fun st hst => reporting_kept ?_
  refine h.asks trivial (fun _ => ?_) (stmt_and hst params_le)
  simp only [dealsOf, used_eq, List.map_cons]

theorem bindRltFields_kept (h : db.Kept (cmd.owned + m) l) :
    (cmd.bindRltFields db).Follows Proper l fun _ l' => db.Kept (cmd.owned + m) l' := by
  refine onStmt_follows h fun st hst => reporting_kept ?_
  refine h.asks trivial (fun _ => ?_) (stmt_and hst row_le)
  simp only [dealsOf, used_eq, List.map_cons]

theorem fetchRecords_kept (h : db.Kept (cmd.owned + m) l) :
    (cmd.fetchRecords db).Follows Proper l fun _ l' => db.Kept (cmd.owned + m) l' :=
  onStmt_follows h fun _ hst => reporting_kept
    (h.asks trivial (fun _ => rfl) (one_used (stmt_mem hst)))

theorem getRecordsCnt_kept (h : db.Kept (cmd.owned + m) l) :
    (cmd.getRecordsCnt db).Follows Proper l fun _ l' => db.Kept (cmd.owned + m) l' := by
  refine onStmt_follows h fun st hst => ?_
  cases cmd.m_pFields with
  | none => exact h
  | some r => exact h.ask trivial (fun _ => rfl) (one_used (stmt_mem hst)) fun _ h => h

theorem fetchRow_kept (h : db.Kept (cmd.owned + m) l) :
    (cmd.fetchRow db).Follows Proper l fun _ l' => db.Kept (cmd.owned + m) l' := by
  refine onStmt_follows h fun st hst => ?_
  cases cmd.m_pFields with
  | none => exact h
  | some r => exact h.asks trivial (fun _ => rfl) (one_used (stmt_mem hst))

/-- **`Execut`** -/
theorem execut_kept (h : db.Kept (cmd.owned + m) l) :
    (cmd.execut db).Follows Proper l fun x l' => x.2.Kept (cmd.owned + m) l' := by
  have hreport : ∀ (db : MySqlDB) l, db.Kept (cmd.owned + m) l →
      (cmd.errorDump db).Follows Proper l fun _ l' => db.Kept (cmd.owned + m) l' :=
    fun db l h => errorDump_kept h stmt_le
  refine onStmt_follows h fun st hst => ?_
  refine h.ask trivial (fun _ => rfl) (one_used (stmt_mem hst)) fun ok h => ?_
  cases ok with
  | true => exact h
  | false =>
    refine h.askHandle trivial (fun _ => rfl) fun n h => ?_
    split
    · refine h.connected.bind ?_
      rintro ⟨bConnected, db⟩ l h
      cases bConnected with
      | true =>
        refine Kept.ask h trivial (fun _ => rfl) (one_used (stmt_mem hst)) fun ok h => ?_
        cases ok with
        | true => exact h
        | false =>
          refine (hreport db _ h).bind fun _ l h => ?_
          exact (hreport db _ h).bind fun _ l h => h
      | false => exact (hreport db _ h).bind fun _ l h => h
    · exact (hreport db _ h).bind fun _ l h => h

/-- **`SetParam`** keeps to the bounds of `m_pParams`. -/
theorem Holds.setParam (h : cmd.Holds db m l) (index : Int) (bType : UInt8) (pValue dwBufferLen
    pDataLen : Nat) (bSQLType : Option FieldType) :
    (cmd.setParam db index bType pValue dwBufferLen pDataLen bSQLType).Follows Proper l
      fun _ l' => cmd.Holds db m l' := by
  refine h.of_kept (onStmt_follows h.kept fun st hst => ?_)
  cases hp : cmd.m_pParams with
  | none => exact h.kept.message _ rfl
  | some p =>
    have hle : piece .block (some p) ≤ cmd.owned + m := hp ▸ params_le
    dsimp only
    split
    · exact h.kept.message _ rfl
    · next hi =>
      refine h.kept.askArray (k := pure) ⟨_, h.shaped.params p hp, Nat.lt_of_not_le hi⟩
        (fun _ => rfl) (Multiset.singleton_le.mp hle) fun _ h => h

/-- `SetLen` on the first node replaces its array. -/
theorem setLen_holds (h : cmd.Holds db m l) {p : Nat}
    (hp : cmd.m_pValues = some p) (hpos : 0 < cmd.m_dwFieldCnt) (dwLen : Nat) :
    (cmd.setLen p dwLen).Follows Proper l fun x l' => x.Holds db m l' ∧ x.m_pRow = cmd.m_pRow ∧
      x.m_pValues = cmd.m_pValues ∧ x.m_dwFieldCnt = cmd.m_dwFieldCnt := by
  have hle : piece .block (some p) ≤ cmd.owned + m := hp ▸ values_le
  refine h.kept.askArray ⟨_, h.shaped.values p hp, hpos⟩ (fun _ => rfl)
    (Multiset.singleton_le.mp hle) fun _ hk => ?_
  have h : cmd.Holds db m (⟨.touch p 0, ()⟩ :: l) := h.mono hk (List.suffix_cons _ _)
  cases hn : cmd.nodes with
  | nil =>
    have hlen := h.shaped.count p hp
    rw [hn] at hlen
    exact absurd hlen (Nat.ne_of_lt hpos)
  | cons node nodes =>
    -- what there is beside the array of the first node
    have hsplit : ∀ o, ({ cmd with nodes := o :: nodes } : MySqlCmd).owned + m = piece .block o +
        (piece .stmt cmd.m_pStmt + (piece .block cmd.m_pParams + (piece .block cmd.m_pRow +
          (all (piece .block) nodes + (piece .block cmd.m_pValues + (piece .block cmd.m_pblIsNull +
            piece .block cmd.m_pblError)))) + piece .result cmd.m_pMetaRlt) + m) := by
      intro o
      simp only [owned, arrays, all_cons]
      ac_rfl
    have hself : cmd = { cmd with nodes := node :: nodes } := by
      rw [← hn]
    have hk := h.kept
    rw [hself, hsplit node] at hk
    refine (hk.free fun _ hb => deleteArray_books hb).grows.bind ?_
    rintro _ l' ⟨hk, hl⟩
    refine hk.askBlock trivial (fun _ => rfl) fun q hk => ?_
    have hk : db.Kept (piece .block (some q) + _) _ := hk
    rw [← hsplit] at hk
    have hs := h.shaped.mono
      (List.Subset.trans hl.subset (List.subset_cons_self ⟨.newArray dwLen, q⟩ l'))
    refine ⟨⟨hk, hs.params, hs.row, hs.values, ?_, ?_, hs.fields⟩, rfl, rfl, rfl⟩
    · intro hv
      rw [hp] at hv
      cases hv
    · intro x hx
      have hlen := hs.count x hx
      rw [hn] at hlen
      exact hlen

/-- **`SetRltField`** keeps to the bounds of `m_pRow` and `m_pValues`. -/
theorem Holds.setRltField (h : cmd.Holds db m l) (index : Int) (bType : UInt8)
    (dwBufferLen : Nat) :
    (cmd.setRltField db index bType dwBufferLen).Follows Proper l
      fun x l' => x.Holds db m l' := by
  refine onStmt_follows h fun st hst => ?_
  have hmessage : (db.errorDumpSimple (CString.ascii "Error: invalid param index.") none >>=
      fun _ => pure cmd).Follows Proper l fun x l' => x.Holds db m l' :=
    (h.of_kept (h.kept.message _ rfl)).bind fun _ _ h => h
  dsimp only
  split
  · exact hmessage
  · next row hrow =>
    split
    · exact hmessage
    · next hi =>
      have hi := Nat.lt_of_not_le hi
      split
      · exact undefined_follows
      · next values hvalues =>
        refine (setLen_holds h hvalues (Nat.lt_of_le_of_lt (Nat.zero_le _) hi) _).bind ?_
        rintro x l ⟨h, hr, hv, hc⟩
        -- the array and the row are still those that the index was checked for
        rw [← hr] at hrow
        rw [← hv] at hvalues
        rw [← hc] at hi
        have hle : piece .block (some values) ≤ x.owned + m := hvalues ▸ values_le
        have hle' : piece .block (some row) ≤ x.owned + m := hrow ▸ row_le
        refine h.kept.askArray ⟨_, h.shaped.values _ hvalues, hi⟩ (fun _ => rfl)
          (Multiset.singleton_le.mp hle) fun _ hk => ?_
        have h := h.mono hk (List.suffix_cons _ _)
        refine h.kept.askArray ⟨_, h.shaped.row _ hrow, hi⟩ (fun _ => rfl)
          (Multiset.singleton_le.mp hle') fun _ hk => ?_
        exact h.mono hk (List.suffix_cons _ _)

theorem searchFrom_kept {r : Nat} (hr : .result r ∈ m) (szField : Bytes) (left i : Nat)
    (h : db.Kept m l) :
    (searchFrom r szField left i).Follows Proper l fun o l' => db.Kept m l' ∧
      ∀ j, o = some j → j < i + left := by
  induction left generalizing i l with
  | zero => exact ⟨h, fun j hj => by cases hj⟩
  | succ left ih =>
    refine h.ask trivial (fun _ => rfl) (one_used hr) fun name h => ?_
    split
    · refine ⟨h, ?_⟩
      rintro j ⟨⟩
      omega
    · refine (ih (i + 1) h).mono ?_
      rintro o l' ⟨h, hj⟩
      exact ⟨h, fun j ho => by have := hj j ho; omega⟩

/-- **The accessors** look at nodes of `m_pValues` only. -/
theorem Holds.lookAt (h : cmd.Holds db m l) (szField : Bytes) :
    (cmd.lookAt szField).Follows Proper l fun _ l' => cmd.Holds db m l' := by
  have hindex : (cmd.getFieldIndex szField).Follows Proper l fun o l' =>
      db.Kept (cmd.owned + m) l' ∧ ∀ j, o = some j → j < cmd.m_dwFieldCnt := by
    unfold getFieldIndex
    split
    · next r _ hr =>
      have hmeta : cmd.m_pMetaRlt = some r := h.shaped.fields.symm.trans hr
      have hmem : .result r ∈ cmd.owned + m := by simp [owned, hmeta, piece]
      refine (searchFrom_kept hmem szField cmd.m_dwFieldCnt 0 h.kept).mono ?_
      rintro o l' ⟨hk, hj⟩
      exact ⟨hk, fun j ho => by have := hj j ho; omega⟩
    · exact ⟨h.kept, fun j hj => by cases hj⟩
  refine hindex.grows.bind ?_
  rintro o l' ⟨⟨hk, hj⟩, hl⟩
  have h : cmd.Holds db m l' := h.mono hk hl
  split
  · exact h
  · next i =>
    split
    · exact undefined_follows
    · next p hp =>
      have hle : piece .block (some p) ≤ cmd.owned + m := hp ▸ values_le
      refine h.kept.askArray (k := pure) ⟨_, h.shaped.values p hp, hj i rfl⟩ (fun _ => rfl)
        (Multiset.singleton_le.mp hle) fun _ hk => ?_
      exact h.mono hk (List.suffix_cons _ _)

/-- **One call** of a function of `MySqlCmd`. -/
theorem code_holds (h : cmd.Holds db m l) (call : CmdCall) :
    (call.code cmd db).Follows Proper l fun x l' => x.1.Holds x.2 m l' := by
  cases call with
  | setCmd szCMD => exact (h.setCmd szCMD).bind fun _ _ h => h
  | reset =>
    refine (h.kept.freeWith fun _ hb => reset_books h.shaped hb _).bind ?_
    rintro _ l' ⟨rfl, hk⟩
    exact ⟨by simpa using hk, shaped_cleared cmd l'⟩
  | setParam index bType pValue dwBufferLen pDataLen bSQLType =>
    exact (h.setParam index bType pValue dwBufferLen pDataLen bSQLType).bind fun _ _ h => h
  | bindParams => exact (h.of_kept (bindParams_kept h.kept)).bind fun _ _ h => h
  | execut =>
    refine (execut_kept h.kept).grows.bind ?_
    rintro _ l' ⟨hk, hl⟩
    exact ⟨hk, h.shaped.mono hl.subset⟩
  | setRltField index bType dwBufferLen =>
    exact (h.setRltField index bType dwBufferLen).bind fun _ _ h => h
  | bindRltFields => exact (h.of_kept (bindRltFields_kept h.kept)).bind fun _ _ h => h
  | fetchRecords => exact (h.of_kept (fetchRecords_kept h.kept)).bind fun _ _ h => h
  | getRecordsCnt => exact (h.of_kept (getRecordsCnt_kept h.kept)).bind fun _ _ h => h
  | fetchRow => exact (h.of_kept (fetchRow_kept h.kept)).bind fun _ _ h => h
  | lookAt szField => exact (h.lookAt szField).bind fun _ _ h => h

end MySqlCmd

end

end

end XeMySql.Memory
