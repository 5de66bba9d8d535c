import XeMySql.Blob
import XeMySql.Lib.Ledger

/-!
# The life of a `DB_BLOB`

The arrays that a `DB_BLOB` allocates and deletes, from its construction in any memory to its
destructor.

* `construct_always` — what the constructor allocates, and what it copies there
* `reset_always` — `Reset` deletes all of it but the array `m_pData`
* `never_settled` — so the books are never settled
-/

namespace XeMySql

open Interact Ledger

/-- What an answer says of arrays. -/
def heapDeal : Answer HeapOp HeapOp.Reply → Option (Deal Nat)
  | ⟨.newArray _, p⟩ => some (.acquire (p : Nat))
  | ⟨.deleteArray p, _⟩ => some (.release p)
  | _ => none

/-- The dealings with arrays in a trace. -/
def heapDeals (l : HeapTrace) : List (Deal Nat) := l.filterMap heapDeal

/-- After the trace `l`, just the arrays `live` have not been deleted, and nothing else has been. -/
structure Allocated (live : List Nat) (l : HeapTrace) : Prop where
  books : Open (heapDeals l) live
  own : Own (heapDeals l)

section

variable {s s₁ : Heap} {l : HeapTrace} {live : List Nat} {p : Nat}

theorem Allocated.nil (hl : heapDeals l = []) : Allocated [] l := by
  refine ⟨?_, ?_⟩
  · rw [hl]
    exact .nil
  · rw [hl]
    trivial

/-- `new` -/
theorem Allocated.newArray (h : Allocated live l) (n : Nat) (hp : p ∉ acquired (heapDeals l)) :
    Allocated (p :: live) (⟨.newArray n, p⟩ :: l) :=
  ⟨h.books.acquire hp, h.own⟩

/-- `delete` -/
theorem Allocated.deleteArray (h : Allocated (p :: live) l) :
    Allocated live (⟨.deleteArray p, ()⟩ :: l) := by
  refine ⟨h.books.release, ?_, h.own⟩
  exact h.books.perm.mem_iff.mpr List.mem_cons_self

/-- What does not concern arrays as a whole. -/
theorem Allocated.quiet (h : Allocated live l) {x : Answer HeapOp HeapOp.Reply}
    (hx : heapDeal x = none) : Allocated live (x :: l) := by
  have hl : heapDeals (x :: l) = heapDeals l := List.filterMap_cons_none hx
  exact ⟨by rw [hl]; exact h.books, by rw [hl]; exact h.own⟩

theorem Allocated.of_perm {live' : List Nat} (h : Allocated live l) (hp : live.Perm live') :
    Allocated live' l :=
  ⟨h.books.of_perm hp, h.own⟩

/-- Once something foreign has been deleted, that stays so. -/
theorem always_not_own {α : Type} {q : HeapCode α} (h : ¬ Own (heapDeals l)) :
    q.Always HeapOp.exec s l fun _ _ l' => ¬ Own (heapDeals l') :=
  fun _ _ _ hr hown => h (hown.of_suffix hr.suffix)

/-- Deleting anything while nothing is allocated. -/
theorem not_own_delete (hl : heapDeals l = []) (q : Nat) :
    ¬ Own (heapDeals (⟨.deleteArray q, ()⟩ :: l)) := by
  rintro ⟨hmem, -⟩
  change q ∈ acquired (heapDeals l) at hmem
  rw [hl] at hmem
  cases hmem

namespace BlobMembers

/-! ## `Reset` in memory that is not initialised -/

/-- While nothing is allocated: nothing has been done, or something foreign has been deleted. -/
def Untouched (s s' : Heap) (l' : HeapTrace) : Prop :=
  (heapDeals l' = [] ∧ s' = s) ∨ ¬ Own (heapDeals l')

theorem deleteParam_foreign (hl : heapDeals l = []) (m_pData i : Nat) :
    (deleteParam m_pData i).Always HeapOp.exec s l fun _ s' l' => Untouched s s' l' := by
  refine always_heap ?_
  rintro o s₁ r ⟨⟩
  split
  · exact Prog.always_ret (Or.inl ⟨hl, rfl⟩)
  · have hl₁ : heapDeals (⟨.get m_pData i, s.cell m_pData i⟩ :: l) = [] := hl
    refine always_heap ?_
    rintro o s₁ r ⟨⟩
    exact (always_not_own (not_own_delete hl₁ _)).mono fun _ _ _ => Or.inr

theorem deleteParams_foreign (hl : heapDeals l = []) (m_pData i n : Nat) :
    (deleteParams m_pData i n).Always HeapOp.exec s l fun _ s' l' => Untouched s s' l' := by
  induction n generalizing i l with
  | zero => exact Prog.always_ret (Or.inl ⟨hl, rfl⟩)
  | succ n ih =>
    refine (deleteParam_foreign hl m_pData i).bind ?_
    rintro _ s₁ l₁ (⟨hl₁, rfl⟩ | hfoul)
    · exact ih hl₁ (i + 1)
    · exact (always_not_own hfoul).mono fun _ _ _ => Or.inr

/-- `Reset` of members that nobody has set: nothing is done if `m_pData` happens to be NULL. -/
theorem reset_foreign (hl : heapDeals l = []) (b : BlobMembers) :
    b.reset.Always HeapOp.exec s l fun _ s' l' =>
      (heapDeals l' = [] ∧ s' = s) ∨ (b.m_pData ≠ 0 ∧ ¬ Own (heapDeals l')) := by
  unfold reset
  split
  · exact Prog.always_ret (Or.inl ⟨hl, rfl⟩)
  · next hb =>
    refine (deleteParams_foreign hl _ _ _).bind ?_
    rintro _ s₁ l₁ (⟨hl₁, rfl⟩ | hfoul)
    · split
      · exact Prog.always_ret (Or.inl ⟨hl₁, rfl⟩)
      · refine always_heap ?_
        rintro o s₂ r ⟨⟩
        exact Prog.always_ret (Or.inr ⟨hb, not_own_delete hl₁ _⟩)
    · exact (always_not_own hfoul).mono fun _ _ _ h => Or.inr ⟨hb, h⟩

/-! ## The constructor -/

/-- The array of pointers at `p` holds `bufs` from `i` on. -/
def Holds (s : Heap) (p i : Nat) (bufs : List Nat) : Prop :=
  ∀ j a, bufs[j]? = some a → s.cell p (i + j) = a

theorem Holds.head {i a : Nat} {bufs : List Nat} (h : Holds s p i (a :: bufs)) : s.cell p i = a :=
  h 0 a rfl

theorem Holds.tail {i a : Nat} {bufs : List Nat} (h : Holds s p i (a :: bufs)) :
    Holds s p (i + 1) bufs := by
  intro j b hb
  rw [Nat.add_right_comm]
  exact h (j + 1) b hb

theorem Holds.cons {i a : Nat} {bufs : List Nat} (ha : s.cell p i = a)
    (h : Holds s p (i + 1) bufs) : Holds s p i (a :: bufs) := by
  intro j b hb
  cases j with
  | zero =>
    cases hb
    exact ha
  | succ j =>
    have := h j b hb
    rwa [Nat.add_right_comm] at this

/-- Each buffer of `bufs` holds a copy of the parameter it is for, from the `i`-th on, in memory that
nobody used in `s₀`. -/
def Copies (s₀ s : Heap) (pData dwlen : Nat → Nat) (i : Nat) (bufs : List Nat) : Prop :=
  ∀ j a, bufs[j]? = some a → a ≠ 0 ∧ a ∉ s₀.inUse ∧
    (pData (i + j) ∈ s₀.inUse → s.bytes a = (s₀.bytes (pData (i + j))).take (dwlen (i + j)))

/-- What a part of the constructor leaves as it was. -/
structure Keeps (p i : Nat) (s s' : Heap) : Prop where
  inUse : s.inUse ⊆ s'.inUse
  bytes : ∀ x ∈ s.inUse, s'.bytes x = s.bytes x
  cell : ∀ q j, q ≠ p ∨ j < i → s'.cell q j = s.cell q j

/-- A round of the loop: a new buffer at `a`, which the array of pointers knows, holds the copy `v`. -/
def copied (s : Heap) (p i a : Nat) (v : Bytes) : Heap where
  inUse := a :: s.inUse
  cell q j := if q = p ∧ j = i then a else s.cell q j
  bytes := Function.update s.bytes a v

section

variable {s' : Heap} {i a : Nat} {v : Bytes} {bufs : List Nat}

/-- The rounds after it leave the rest as it was before. -/
theorem Keeps.of_copied (h : Keeps p (i + 1) (copied s p i a v) s') (ha : a ∉ s.inUse) :
    Keeps p i s s' := by
  refine ⟨fun x hx => h.inUse (List.mem_cons_of_mem _ hx), fun x hx => ?_, fun q j hq => ?_⟩
  · have hne : x ≠ a := fun he => ha (he ▸ hx)
    rw [h.bytes x (List.mem_cons_of_mem _ hx)]
    exact Function.update_of_ne hne ..
  · rw [h.cell q j (hq.imp_right fun hlt => Nat.lt_succ_of_lt hlt)]
    refine if_neg ?_
    rintro ⟨rfl, rfl⟩
    rcases hq with hq | hq
    · exact hq rfl
    · exact Nat.lt_irrefl _ hq

/-- They leave its pointer in the array. -/
theorem Holds.of_copied (h : Holds s' p (i + 1) bufs) (hk : Keeps p (i + 1) (copied s p i a v) s') :
    Holds s' p i (a :: bufs) := by
  refine h.cons ?_
  rw [hk.cell p i (Or.inr (Nat.lt_succ_self i))]
  exact if_pos ⟨rfl, rfl⟩

/-- They leave its copy, and take theirs from what the parameters were before. -/
theorem Copies.of_copied {pData dwlen : Nat → Nat} (h0 : a ≠ 0) (ha : a ∉ s.inUse)
    (hk : Keeps p (i + 1) (copied s p i a ((s.bytes (pData i)).take (dwlen i))) s')
    (h : Copies (copied s p i a ((s.bytes (pData i)).take (dwlen i))) s' pData dwlen (i + 1) bufs) :
    Copies s s' pData dwlen i (a :: bufs) := by
  intro j b hb
  cases j with
  | zero =>
    cases hb
    refine ⟨h0, ha, fun _ => ?_⟩
    rw [hk.bytes a List.mem_cons_self]
    exact Function.update_self ..
  | succ j =>
    obtain ⟨hb0, hold, hcopy⟩ := h j b hb
    refine ⟨hb0, fun hm => hold (List.mem_cons_of_mem _ hm), fun hm => ?_⟩
    have hidx : i + 1 + j = i + (j + 1) := Nat.add_right_comm ..
    rw [hidx] at hcopy
    rw [hcopy (List.mem_cons_of_mem _ hm)]
    have hne : pData (i + (j + 1)) ≠ a := fun he => ha (he ▸ hm)
    exact congrArg _ (Function.update_of_ne hne ..)

end

/-- **The loop of the constructor** allocates a buffer for each parameter. -/
theorem copyParams_always (pData dwlen : Nat → Nat) (i n : Nat) (h : Allocated live l)
    (hin : ∀ x ∈ acquired (heapDeals l), x ∈ s.inUse) :
    (copyParams p pData dwlen i n).Always HeapOp.exec s l fun _ s' l' =>
      ∃ bufs, bufs.length = n ∧ Allocated (bufs ++ live) l' ∧ Holds s' p i bufs ∧
        Copies s s' pData dwlen i bufs ∧ Keeps p i s s' := by
  induction n generalizing i s l live with
  | zero =>
    refine Prog.always_ret ⟨[], rfl, h, fun j a ha => ?_, fun j a ha => ?_,
      List.Subset.refl _, fun _ _ => rfl, fun _ _ _ => rfl⟩
    · cases ha
    · cases ha
  | succ n ih =>
    refine always_heap fun a s₁ r he => ?_
    simp only [HeapOp.exec] at he
    split at he
    · next hnew =>
      cases he
      refine always_heap ?_
      rintro o s₂ r ⟨⟩
      refine always_heap ?_
      rintro o s₃ r ⟨⟩
      have hacq : a ∉ acquired (heapDeals l) := fun ha => hnew.2 (hin a ha)
      refine (ih (s := copied s p i a ((s.bytes (pData i)).take (dwlen i))) (i + 1)
        (((h.newArray _ hacq).quiet rfl).quiet rfl) ?_).mono ?_
      · intro x hx
        rcases List.mem_cons.mp hx with rfl | hx
        · exact List.mem_cons_self
        · exact List.mem_cons_of_mem _ (hin x hx)
      · rintro _ s' l' ⟨bufs, hlen, hall, hholds, hcopies, hkeeps⟩
        exact ⟨a :: bufs, congrArg (· + 1) hlen, hall.of_perm List.perm_middle,
          hholds.of_copied hkeeps, hcopies.of_copied hnew.1 hnew.2 hkeeps, hkeeps.of_copied hnew.2⟩
    · cases he

/-- What the constructor leaves: the array of pointers, the array of lengths, and a copy of each
parameter in a buffer of its own. -/
structure Constructed (s₀ s : Heap) (pData dwlen : Nat → Nat) (b : BlobMembers) (bufs : List Nat)
    (l : HeapTrace) : Prop where
  count : bufs.length = b.m_wParamcount
  array : b.m_pData ≠ 0
  lens : b.m_dwLen ≠ 0
  arrays : Allocated (bufs ++ [b.m_dwLen, b.m_pData]) l
  holds : Holds s b.m_pData 0 bufs
  copies : Copies s₀ s pData dwlen 0 bufs
  lengths : ∀ i < b.m_wParamcount, s.cell b.m_dwLen i = dwlen i

/-- **The constructor**, in memory where its `Reset` finds nothing or deletes something foreign. -/
theorem construct_always (hl : heapDeals l = []) (b : BlobMembers) (pData dwlen : Nat → Nat)
    (n : Nat) : (b.construct pData dwlen n).Always HeapOp.exec s l fun b' s' l' =>
      (b'.m_wParamcount = n ∧ ∃ bufs, Constructed s s' pData dwlen b' bufs l') ∨
        (b.m_pData ≠ 0 ∧ ¬ Own (heapDeals l')) := by
  refine (reset_foreign hl b).bind ?_
  rintro _ s₁ l₁ (⟨hl₁, rfl⟩ | ⟨hb, hfoul⟩)
  · refine always_heap fun p s₂ r he => ?_
    simp only [HeapOp.exec] at he
    split at he
    · next hp =>
      cases he
      refine always_heap fun len s₂ r he => ?_
      simp only [HeapOp.exec] at he
      split at he
      · next hlen =>
        cases he
        have hnil : acquired (heapDeals l₁) = [] := by rw [hl₁, acquired]
        have hp₁ : p ∉ acquired (heapDeals l₁) := by
          rw [hnil]
          exact List.not_mem_nil
        have harr := (Allocated.nil hl₁).newArray n hp₁
        have hlen₁ : len ∉ acquired (heapDeals (⟨.newArray n, p⟩ :: l₁)) := by
          show len ∉ p :: acquired (heapDeals l₁)
          rw [hnil]
          exact fun hm => hlen.2 (List.mem_cons.mpr (Or.inl (List.mem_singleton.mp hm)))
        refine (copyParams_always pData dwlen 0 n (harr.newArray n hlen₁) ?_).bind ?_
        · intro x hx
          change x ∈ len :: p :: acquired (heapDeals l₁) at hx
          rw [hnil] at hx
          rcases List.mem_cons.mp hx with rfl | hx
          · exact List.mem_cons_self
          · obtain rfl := List.mem_singleton.mp hx
            exact List.mem_cons_of_mem _ List.mem_cons_self
        · rintro _ s' l' ⟨bufs, hcount, hall, hholds, hcopies, hkeeps⟩
          refine always_heap ?_
          rintro o s₃ r ⟨⟩
          have hne : p ≠ len := fun he => hlen.2 (he ▸ List.mem_cons_self)
          refine Prog.always_ret (Or.inl ⟨rfl, bufs, hcount, hp.1, hlen.1, hall.quiet rfl, ?_, ?_, ?_⟩)
          · intro j a ha
            rw [← hholds j a ha]
            exact if_neg fun he => hne he.1
          · intro j a ha
            obtain ⟨h0, hold, hcopy⟩ := hcopies j a ha
            exact ⟨h0, fun hm => hold (List.mem_cons_of_mem _ (List.mem_cons_of_mem _ hm)),
              fun hm => hcopy (List.mem_cons_of_mem _ (List.mem_cons_of_mem _ hm))⟩
          · exact fun i hi => if_pos ⟨rfl, hi⟩
      · cases he
    · cases he
  · exact (always_not_own hfoul).mono fun _ _ _ h => Or.inr ⟨hb, h⟩

/-- **Private copies**: in memory where `m_pData` happens to be NULL, each `m_pData[i]` is memory of its
own with the bytes of the parameter. -/
theorem construct_private (hl : heapDeals l = []) {b : BlobMembers} (hb : b.m_pData = 0)
    (pData dwlen : Nat → Nat) (n : Nat) (hin : ∀ i < n, pData i ∈ s.inUse) :
    (b.construct pData dwlen n).Always HeapOp.exec s l fun b' s' _ => ∀ i < n,
      s'.cell b'.m_pData i ∉ s.inUse ∧
      s'.bytes (s'.cell b'.m_pData i) = (s.bytes (pData i)).take (dwlen i) ∧
      s'.cell b'.m_dwLen i = dwlen i ∧
      ∀ j < n, s'.cell b'.m_pData j = s'.cell b'.m_pData i → j = i := by
  refine (construct_always hl b pData dwlen n).mono ?_
  rintro b' s' l' (⟨rfl, bufs, h⟩ | ⟨hne, -⟩)
  · intro i hi
    have hcell : ∀ j (hj : j < bufs.length), s'.cell b'.m_pData j = bufs[j] := by
      intro j hj
      have := h.holds j _ (List.getElem?_eq_getElem hj)
      rwa [Nat.zero_add] at this
    rw [← h.count] at hi
    obtain ⟨-, hold, hcopy⟩ := h.copies i _ (List.getElem?_eq_getElem hi)
    rw [Nat.zero_add] at hcopy
    rw [hcell i hi]
    refine ⟨hold, hcopy (hin i (h.count ▸ hi)), h.lengths i (h.count ▸ hi), fun j hj he => ?_⟩
    rw [← h.count] at hj
    rw [hcell j hj] at he
    have hnd : (bufs ++ [b'.m_dwLen, b'.m_pData] ++ released (heapDeals l')).Nodup :=
      h.arrays.books.perm.nodup_iff.mp h.arrays.books.nodup
    exact (List.Nodup.getElem_inj_iff hnd.of_append_left.of_append_left).mp he
  · exact absurd hb hne

/-! ## `Reset` and the destructor -/

/-- The loop of `Reset` deletes the buffers. -/
theorem deleteParams_always {i : Nat} {bufs : List Nat} (h : Allocated (bufs ++ live) l)
    (hholds : Holds s p i bufs) (hnull : ∀ a ∈ bufs, a ≠ 0) :
    (deleteParams p i bufs.length).Always HeapOp.exec s l fun _ _ l' => Allocated live l' := by
  induction bufs generalizing i s l with
  | nil => exact Prog.always_ret h
  | cons a bufs ih =>
    have hone : (deleteParam p i).Always HeapOp.exec s l fun _ s' l' =>
        Allocated (bufs ++ live) l' ∧ Holds s' p (i + 1) bufs := by
      refine always_heap ?_
      rintro o s₁ r ⟨⟩
      have ha : s.cell p i = a := hholds.head
      rw [ha, if_neg (hnull a List.mem_cons_self)]
      refine always_heap ?_
      rintro o s₁ r ⟨⟩
      have hdel : Allocated (bufs ++ live) (⟨.deleteArray a, ()⟩ :: ⟨.get p i, a⟩ :: l) :=
        (h.quiet rfl).deleteArray
      intro _ s' l' hr
      cases hr with
      | reply o he hk =>
        cases he
        cases hk
        refine ⟨hdel.quiet rfl, fun j b hb => ?_⟩
        rw [← hholds.tail j b hb]
        exact if_neg fun he => absurd he.2 (by omega)
      | wait o he _ => cases he
    refine hone.bind ?_
    rintro _ s' l' ⟨hall, hh⟩
    exact ih hall hh fun b hb => hnull b (List.mem_cons_of_mem _ hb)

variable {s₀ : Heap} {pData dwlen : Nat → Nat} {b : BlobMembers} {bufs : List Nat}

/-- **`Reset`** deletes the buffers and the lengths. -/
theorem Constructed.reset (h : Constructed s₀ s pData dwlen b bufs l) :
    b.reset.Always HeapOp.exec s l fun b' _ l' => b' = ⟨0, 0, 0⟩ ∧ Allocated [b.m_pData] l' := by
  unfold BlobMembers.reset
  rw [if_neg h.array, ← h.count]
  have hnull : ∀ a ∈ bufs, a ≠ 0 := by
    intro a ha
    obtain ⟨j, hj⟩ := List.mem_iff_getElem?.mp ha
    exact (h.copies j a hj).1
  refine (deleteParams_always h.arrays h.holds hnull).bind fun _ s₁ l₁ hall => ?_
  rw [if_neg h.lens]
  refine always_heap ?_
  rintro o s₂ r ⟨⟩
  exact Prog.always_ret ⟨rfl, hall.deleteArray⟩

/-- A second `Reset` finds nothing. -/
theorem resets_null (k : Nat) : resets k ⟨0, 0, 0⟩ = pure ⟨0, 0, 0⟩ := by
  induction k with
  | zero => rfl
  | succ k ih => exact ih

/-- Any number of `Reset`s, and the destructor. -/
theorem Constructed.destroy (h : Constructed s₀ s pData dwlen b bufs l) (k : Nat) :
    (resets k b >>= fun b => b.reset >>= fun _ => pure ()).Always HeapOp.exec s l
      fun _ _ l' => Allocated [b.m_pData] l' := by
  cases k with
  | zero => exact h.reset.bind fun _ _ _ hb => Prog.always_ret hb.2
  | succ k =>
    refine Prog.Always.bind (h.reset.bind ?_) ?_ (P := fun b' _ l' => b' = ⟨0, 0, 0⟩ ∧ Allocated [b.m_pData] l')
    · rintro _ s₁ l₁ ⟨rfl, hall⟩
      rw [resets_null]
      exact Prog.always_ret ⟨rfl, hall⟩
    · rintro _ s₁ l₁ ⟨rfl, hall⟩
      exact Prog.always_ret hall

/-- **How the books end**: just the array of pointers is left, unless `m_pData` was not NULL and
something foreign has been deleted. -/
theorem life_always (hl : heapDeals l = []) (b : BlobMembers) (pData dwlen : Nat → Nat) (n k : Nat) :
    (b.life pData dwlen n k).Always HeapOp.exec s l fun _ _ l' =>
      (∃ p, Allocated [p] l') ∨ (b.m_pData ≠ 0 ∧ ¬ Own (heapDeals l')) := by
  refine (construct_always hl b pData dwlen n).bind ?_
  rintro b' s₁ l₁ (⟨-, bufs, h⟩ | ⟨hb, hfoul⟩)
  · exact (h.destroy k).mono fun _ _ _ hall => Or.inl ⟨_, hall⟩
  · exact (always_not_own hfoul).mono fun _ _ _ h => Or.inr ⟨hb, h⟩

/-- **The books are never settled**, whatever the memory held that the object was constructed in. -/
theorem never_settled (b : BlobMembers) (pData dwlen : Nat → Nat) (n k : Nat) (s s' : Heap)
    (l : HeapTrace) (h : (b.life pData dwlen n k).Runs HeapOp.exec s [] () s' l) :
    ¬ (Own (heapDeals l) ∧ Settled (heapDeals l)) := by
  rintro ⟨hown, hsettled⟩
  rcases life_always rfl b pData dwlen n k _ _ _ h with ⟨p, hall⟩ | ⟨-, hfoul⟩
  · cases hall.books.settled_iff_nil.mp hsettled
  · exact hfoul hown

/-- Memory with four bytes at 9, and zeros everywhere else. -/
def zeroHeap : Heap := ⟨[9], fun _ _ => 0, Function.update (fun _ => []) 9 [1, 2, 3, 4]⟩

/-- An object with these four bytes for both of its parameters, constructed in memory full of zeros,
`Reset` and destroyed. -/
theorem never_settled_two :
    ∃ s l, ((⟨0, 0, 0⟩ : BlobMembers).life (fun _ => 9) (fun _ => 4) 2 1).Runs HeapOp.exec zeroHeap []
      () s l ∧ l.length = 16 ∧ ¬ (Own (heapDeals l) ∧ Settled (heapDeals l)) := by
  have h : ((⟨0, 0, 0⟩ : BlobMembers).life (fun _ => 9) (fun _ => 4) 2 1).eval HeapOp.exec
      ([1, 2, 3, 0, 0, 4] ++ List.replicate 10 0) zeroHeap [] = some ((), _, _) := rfl
  exact ⟨_, _, Prog.runs_of_eval h, rfl, never_settled _ _ _ _ _ _ _ _ (Prog.runs_of_eval h)⟩

/-- An object with these four bytes for its parameter: the array of pointers is left. -/
theorem not_settled_one :
    ∃ s l, ((⟨0, 0, 0⟩ : BlobMembers).life (fun _ => 9) (fun _ => 4) 1 0).Runs HeapOp.exec zeroHeap []
      () s l ∧ ¬ Settled (heapDeals l) := by
  have h : ((⟨0, 0, 0⟩ : BlobMembers).life (fun _ => 9) (fun _ => 4) 1 0).eval HeapOp.exec
      [1, 2, 3, 0, 0, 0, 0, 0, 0, 0] zeroHeap [] = some ((), _, _) := rfl
  refine ⟨_, _, Prog.runs_of_eval h, ?_⟩
  rintro ⟨-, hall⟩
  exact absurd (hall 1 (by decide)) (by decide)

end BlobMembers

end

end XeMySql
