import Mathlib.Data.List.Nodup
import Mathlib.Algebra.Order.Group.Multiset

/-!
# Ledgers of resources

What has been done with resources `ρ`, the latest first: each is acquired, used and released. The
books are clean when nothing is used or released after its release, and settled when everything
acquired has been released, once.

* `Open.acquire`, `Open.use`, `Open.release` — what keeps the books clean
* `Open.settled_iff_nil` — they are settled when nothing is left
* `Held` — the same with a multiset of what is live, for owners with several parts
* `OnHand` — whatever is touched is there
* `all_split` — what one of several owners has can be looked at alone
* `Clean.of_suffix`, `Own.of_suffix` — books that are not clean stay so
-/

namespace Ledger

/-- What is done with a resource. -/
inductive Deal (ρ : Type) where
  | acquire (x : ρ)
  | use (x : ρ)
  | release (x : ρ)

variable {ρ : Type}

/-- The resources that have been acquired. -/
def acquired : List (Deal ρ) → List ρ
  | [] => []
  | .acquire x :: l => x :: acquired l
  | _ :: l => acquired l

/-- The resources that have been released. -/
def released : List (Deal ρ) → List ρ
  | [] => []
  | .release x :: l => x :: released l
  | _ :: l => released l

/-- Nothing is used or released after it has been released. -/
def Clean : List (Deal ρ) → Prop
  | [] => True
  | .acquire _ :: l => Clean l
  | .use x :: l => x ∉ released l ∧ Clean l
  | .release x :: l => x ∉ released l ∧ Clean l

/-- Clean books, read off a record `l'`, have always been clean. -/
theorem Clean.of_suffix {α : Type} {f : α → Option (Deal ρ)} {l l' : List α}
    (h : Clean (l'.filterMap f)) (hl : l <:+ l') : Clean (l.filterMap f) := by
  obtain ⟨later, hbooks⟩ := hl.filterMap f
  rw [← hbooks] at h
  clear hbooks
  induction later with
  | nil => exact h
  | cons d later ih =>
    cases d with
    | acquire x => exact ih h
    | use x => exact ih h.2
    | release x => exact ih h.2

/-- Nothing is released that has not been acquired before. -/
def Own : List (Deal ρ) → Prop
  | [] => True
  | .release x :: l => x ∈ acquired l ∧ Own l
  | _ :: l => Own l

/-- When something has been released that had not been acquired, that stays so. -/
theorem Own.of_suffix {α : Type} {f : α → Option (Deal ρ)} {l l' : List α}
    (h : Own (l'.filterMap f)) (hl : l <:+ l') : Own (l.filterMap f) := by
  obtain ⟨later, hbooks⟩ := hl.filterMap f
  rw [← hbooks] at h
  clear hbooks
  induction later with
  | nil => exact h
  | cons d later ih =>
    cases d with
    | acquire x => exact ih h
    | use x => exact ih h
    | release x => exact ih h.2

/-- Whatever is used or released is on hand: it has been acquired, and not been released. -/
def OnHand : List (Deal ρ) → Prop
  | [] => True
  | .acquire _ :: l => OnHand l
  | .use x :: l => (x ∈ acquired l ∧ x ∉ released l) ∧ OnHand l
  | .release x :: l => (x ∈ acquired l ∧ x ∉ released l) ∧ OnHand l

/-- Everything acquired has been released exactly once, and nothing has been touched afterwards. -/
def Settled [DecidableEq ρ] (l : List (Deal ρ)) : Prop :=
  Clean l ∧ ∀ x ∈ acquired l, (released l).count x = 1

/-- Clean books, in which just `live` has been acquired and not released. -/
structure Open (l : List (Deal ρ)) (live : List ρ) : Prop where
  clean : Clean l
  nodup : (acquired l).Nodup
  perm : (acquired l).Perm (live ++ released l)

namespace Open

variable {l : List (Deal ρ)} {live : List ρ} {x : ρ}

theorem nil : Open ([] : List (Deal ρ)) [] := ⟨trivial, List.nodup_nil, List.Perm.refl _⟩

/-- What is live has not been released. -/
theorem not_released (h : Open l live) (hx : x ∈ live) : x ∉ released l := by
  have hd := List.disjoint_of_nodup_append (h.perm.nodup_iff.mp h.nodup)
  exact fun hr => hd hx hr

/-- The order of the live ones does not matter. -/
theorem of_perm {live' : List ρ} (h : Open l live) (hp : live.Perm live') : Open l live' :=
  ⟨h.clean, h.nodup, h.perm.trans (hp.append_right _)⟩

theorem acquire (h : Open l live) (hx : x ∉ acquired l) : Open (.acquire x :: l) (x :: live) :=
  ⟨h.clean, List.nodup_cons.mpr ⟨hx, h.nodup⟩, h.perm.cons x⟩

theorem use (h : Open l live) (hx : x ∈ live) : Open (.use x :: l) live :=
  ⟨⟨h.not_released hx, h.clean⟩, h.nodup, h.perm⟩

theorem release (h : Open l (x :: live)) : Open (.release x :: l) live :=
  ⟨⟨h.not_released List.mem_cons_self, h.clean⟩, h.nodup, h.perm.trans List.perm_middle.symm⟩

/-- With nothing left, the books are settled. -/
theorem settled [DecidableEq ρ] (h : Open l []) : Settled l := by
  refine ⟨h.clean, fun x hx => ?_⟩
  have hperm : (acquired l).Perm (released l) := h.perm
  rw [← hperm.count_eq, List.count_eq_one_of_mem h.nodup hx]

/-- With something left, they are not. -/
theorem settled_iff_nil [DecidableEq ρ] (h : Open l live) : Settled l ↔ live = [] := by
  constructor
  · intro hs
    cases live with
    | nil => rfl
    | cons x live =>
      have hx : x ∈ acquired l := h.perm.mem_iff.mpr List.mem_cons_self
      have hone : (released l).count x = 1 := hs.2 x hx
      rw [List.count_eq_zero_of_not_mem (h.not_released List.mem_cons_self)] at hone
      cases hone
  · rintro rfl
    exact h.settled

end Open

/-- Clean books, in which just `m` has been acquired and not released. -/
def Held (l : List (Deal ρ)) (m : Multiset ρ) : Prop := ∃ live : List ρ, live = m ∧ Open l live

namespace Held

variable {l : List (Deal ρ)} {m : Multiset ρ} {x : ρ}

theorem nil : Held ([] : List (Deal ρ)) 0 := ⟨[], rfl, Open.nil⟩

theorem clean (h : Held l m) : Clean l := by
  obtain ⟨_, -, h⟩ := h
  exact h.clean

/-- What is held is on hand. -/
theorem onHand (h : Held l m) (hx : x ∈ m) : x ∈ acquired l ∧ x ∉ released l := by
  obtain ⟨live, rfl, h⟩ := h
  have hx : x ∈ live := Multiset.mem_coe.mp hx
  exact ⟨h.perm.mem_iff.mpr (List.mem_append_left _ hx), h.not_released hx⟩

theorem acquire (h : Held l m) (hx : x ∉ acquired l) : Held (.acquire x :: l) ({x} + m) := by
  obtain ⟨live, rfl, h⟩ := h
  exact ⟨x :: live, rfl, h.acquire hx⟩

theorem use (h : Held l m) (hx : x ∈ m) : Held (.use x :: l) m := by
  obtain ⟨live, rfl, h⟩ := h
  exact ⟨live, rfl, h.use (Multiset.mem_coe.mp hx)⟩

theorem release (h : Held l ({x} + m)) : Held (.release x :: l) m := by
  obtain ⟨live, hlive, h⟩ := h
  induction m using Quotient.inductionOn with
  | h rest =>
    have hp : live.Perm (x :: rest) := Multiset.coe_eq_coe.mp hlive
    exact ⟨rest, rfl, (h.of_perm hp).release⟩

/-- Several uses at once. -/
theorem uses {xs : List ρ} (h : Held l m) (hx : ∀ x ∈ xs, x ∈ m) : Held (xs.map .use ++ l) m := by
  induction xs with
  | nil => exact h
  | cons x xs ih =>
    exact (ih fun y hy => hx y (List.mem_cons_of_mem _ hy)).use (hx x List.mem_cons_self)

theorem onHand_uses {xs : List ρ} (h : Held l m) (hx : ∀ x ∈ xs, x ∈ m) (hl : OnHand l) :
    OnHand (xs.map .use ++ l) := by
  induction xs with
  | nil => exact hl
  | cons x xs ih =>
    have hxs : ∀ y ∈ xs, y ∈ m := fun y hy => hx y (List.mem_cons_of_mem _ hy)
    exact ⟨(h.uses hxs).onHand (hx x List.mem_cons_self), ih hxs⟩

/-- With nothing left, the books are settled; with something left, they are not. -/
theorem settled_iff_zero [DecidableEq ρ] (h : Held l m) : Settled l ↔ m = 0 := by
  obtain ⟨live, rfl, h⟩ := h
  rw [h.settled_iff_nil, Multiset.coe_eq_zero]

end Held

/-! ## Several owners -/

/-- What the owners in a list have together. -/
def all {α : Type} (owned : α → Multiset ρ) : List α → Multiset ρ
  | [] => 0
  | a :: as => owned a + all owned as

section

variable {α : Type} {owned : α → Multiset ρ}

@[simp] theorem all_nil : all owned [] = 0 := rfl

@[simp] theorem all_cons (a : α) (as : List α) : all owned (a :: as) = owned a + all owned as := rfl

theorem all_append (as bs : List α) : all owned (as ++ bs) = all owned as + all owned bs := by
  induction as with
  | nil => rw [List.nil_append, all_nil, zero_add]
  | cons a as ih => rw [List.cons_append, all_cons, all_cons, ih, add_assoc]

theorem all_reverse (as : List α) : all owned as.reverse = all owned as := by
  induction as with
  | nil => rfl
  | cons a as ih =>
    rw [List.reverse_cons, all_append, ih, all_cons, all_cons, all_nil, add_zero, add_comm]

theorem all_congr {owned' : α → Multiset ρ} {as : List α} (h : ∀ a ∈ as, owned a = owned' a) :
    all owned as = all owned' as := by
  induction as with
  | nil => rfl
  | cons a as ih =>
    rw [all_cons, all_cons, h a List.mem_cons_self, ih fun b hb => h b (List.mem_cons_of_mem _ hb)]

/-- Owners that have nothing have nothing together. -/
theorem all_eq_zero {as : List α} (h : ∀ a ∈ as, owned a = 0) : all owned as = 0 := by
  induction as with
  | nil => rfl
  | cons a as ih =>
    rw [all_cons, h a List.mem_cons_self, ih fun b hb => h b (List.mem_cons_of_mem _ hb), add_zero]

theorem eq_zero_of_all {as : List α} (h : all owned as = 0) : ∀ a ∈ as, owned a = 0 := by
  induction as with
  | nil =>
    intro a ha
    cases ha
  | cons b as ih =>
    rw [all_cons, ← Multiset.card_eq_zero, Multiset.card_add, Nat.add_eq_zero_iff,
      Multiset.card_eq_zero, Multiset.card_eq_zero] at h
    intro a ha
    rcases List.mem_cons.mp ha with rfl | ha
    · exact h.1
    · exact ih h.2 a ha

/-- **One owner and the others**: when it is replaced, the others keep what they have. -/
theorem all_split {as : List α} {i : Nat} {a : α} (h : as[i]? = some a) :
    ∃ rest, all owned as = owned a + rest ∧ ∀ b, all owned (as.set i b) = owned b + rest := by
  induction as generalizing i with
  | nil => cases h
  | cons c as ih =>
    cases i with
    | zero =>
      cases h
      exact ⟨all owned as, rfl, fun b => rfl⟩
    | succ i =>
      obtain ⟨rest, hrest, hset⟩ := ih h
      refine ⟨owned c + rest, ?_, fun b => ?_⟩
      · rw [all_cons, hrest, add_left_comm]
      · rw [List.set_cons_succ, all_cons, hset, add_left_comm]

end

end Ledger
