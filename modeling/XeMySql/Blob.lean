import XeMySql.Lib.Sequence
import XeMySql.Lib.CString

/-!
# `DB_BLOB` and the heap (`xeMySql.h`, `xeMySql.cpp`)

The constructor of `DB_BLOB`, `Reset` and the destructor, with the arrays they allocate and delete.
What `CXEMySql::Query` sees of such an object is the `DB_BLOB` of `State.lean`.

Addresses are numbers, and NULL is 0. An array is known by its address; `new` returns the address of
memory that nobody uses, which may be memory that has been in use before.
-/

namespace XeMySql

open Interact

/-- The memory that arrays are in. -/
structure Heap where
  /-- the addresses of memory in use -/
  inUse : List Nat
  /-- `p[i]`, for an array of pointers or lengths at `p` -/
  cell : Nat → Nat → Nat
  /-- the bytes at `p`, for an array of bytes -/
  bytes : Nat → Bytes

/-- What `DB_BLOB` does with memory. -/
inductive HeapOp where
  | newArray (n : Nat)
  | deleteArray (p : Nat)
  | get (p i : Nat)
  | set (p i v : Nat)
  | memcpy (dst src n : Nat)
  | memcpyLens (dst : Nat) (src : Nat → Nat) (n : Nat)

namespace HeapOp

/-- The answers. -/
abbrev Reply : HeapOp → Type
  | newArray _ => Nat
  | get _ _ => Nat
  | _ => Unit

/-- Carry out a request; `o` is the address that `new` returns. -/
def exec : (e : HeapOp) → Nat → Heap → Option (Heap × Option e.Reply)
  | newArray _, o, s =>
    if o ≠ 0 ∧ o ∉ s.inUse then some ({ s with inUse := o :: s.inUse }, some o) else none
  | deleteArray p, _, s => some ({ s with inUse := s.inUse.erase p }, some ())
  | get p i, _, s => some (s, some (s.cell p i))
  | set p i v, _, s =>
    some ({ s with cell := fun q j => if q = p ∧ j = i then v else s.cell q j }, some ())
  | memcpy dst src n, _, s =>
    some ({ s with bytes := Function.update s.bytes dst ((s.bytes src).take n) }, some ())
  | memcpyLens dst src n, _, s =>
    some ({ s with cell := fun q j => if q = dst ∧ j < n then src j else s.cell q j }, some ())

/-- Make a request. -/
def req (e : HeapOp) : Prog HeapOp Reply e.Reply := Prog.ask e

end HeapOp

/-- Code that works on the heap. -/
abbrev HeapCode (α : Type) : Type := Prog HeapOp HeapOp.Reply α

/-- The answers such code has had. -/
abbrev HeapTrace : Type := List (Answer HeapOp HeapOp.Reply)

/-- No request keeps its caller waiting. -/
theorem always_heap {α : Type} {s : Heap} {l : HeapTrace} {e : HeapOp} {f : e.Reply → HeapCode α}
    {Q : α → Heap → HeapTrace → Prop}
    (h : ∀ o s₁ r, e.exec o s = some (s₁, some r) →
      (f r).Always HeapOp.exec s₁ (⟨e, r⟩ :: l) Q) :
    (HeapOp.req e >>= f).Always HeapOp.exec s l Q := by
  rw [HeapOp.req, Prog.ask_bind]
  refine Prog.always_op (fun o s₁ he => ?_) h
  cases e with
  | newArray n =>
    simp only [HeapOp.exec] at he
    split at he <;> cases he
  | _ => cases he

/-- The members of a `DB_BLOB`. -/
structure BlobMembers where
  m_pData : Nat
  m_dwLen : Nat
  m_wParamcount : Nat
deriving DecidableEq

namespace BlobMembers

/-- `SAFE_DELETE_ARRAY (m_pData[i])` -/
def deleteParam (m_pData i : Nat) : HeapCode Unit := do
  let p ← HeapOp.req (.get m_pData i)
  if p = 0 then pure ()
  else do
    HeapOp.req (.deleteArray p)
    HeapOp.req (.set m_pData i 0)

/-- The loop of `DB_BLOB::Reset`, for `n` parameters from `i` on. -/
def deleteParams (m_pData : Nat) : Nat → Nat → HeapCode Unit
  | _, 0 => pure ()
  | i, n + 1 => do
    deleteParam m_pData i
    deleteParams m_pData (i + 1) n

/-- `DB_BLOB::Reset` -/
def reset (b : BlobMembers) : HeapCode BlobMembers := do
  if b.m_pData = 0 then pure ⟨0, 0, 0⟩
  else do
    deleteParams b.m_pData 0 b.m_wParamcount
    if b.m_dwLen = 0 then pure ⟨0, 0, 0⟩
    else do
      HeapOp.req (.deleteArray b.m_dwLen)
      pure ⟨0, 0, 0⟩

/-- The loop of the constructor, for `n` parameters from `i` on. -/
def copyParams (m_pData : Nat) (pData dwlen : Nat → Nat) : Nat → Nat → HeapCode Unit
  | _, 0 => pure ()
  | i, n + 1 => do
    let p ← HeapOp.req (.newArray (dwlen i))
    HeapOp.req (.set m_pData i p)
    HeapOp.req (.memcpy p (pData i) (dwlen i))
    copyParams m_pData pData dwlen (i + 1) n

/-- `DB_BLOB::DB_BLOB (pData, dwlen, dwParamCount)`, in memory that holds the members `b`. -/
def construct (b : BlobMembers) (pData dwlen : Nat → Nat) (dwParamCount : Nat) :
    HeapCode BlobMembers := do
  let _ ← b.reset
  let p ← HeapOp.req (.newArray dwParamCount)
  let len ← HeapOp.req (.newArray dwParamCount)
  copyParams p pData dwlen 0 dwParamCount
  HeapOp.req (.memcpyLens len dwlen dwParamCount)
  pure ⟨p, len, dwParamCount⟩

/-- `k` calls of `Reset`. -/
def resets : Nat → BlobMembers → HeapCode BlobMembers
  | 0, b => pure b
  | k + 1, b => do
    let b ← b.reset
    resets k b

/-- The life of a `DB_BLOB`: its construction, `k` calls of `Reset`, and the destructor. -/
def life (b : BlobMembers) (pData dwlen : Nat → Nat) (dwParamCount k : Nat) : HeapCode Unit := do
  let b ← b.construct pData dwlen dwParamCount
  let b ← resets k b
  let _ ← b.reset
  pure ()

end BlobMembers

end XeMySql
