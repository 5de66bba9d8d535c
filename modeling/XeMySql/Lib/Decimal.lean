import Mathlib.Data.Nat.Digits.Defs
import XeMySql.Lib.CString

/-!
# Decimal numbers

What `%0wd` prints: the digits of a number, with zeros in front up to the width `w`.

* `padded_inj` — a number can be read off its digits
* `foldl_padded` — how it is read off
* `append_inj` — digits end where something else begins
-/

namespace Decimal

/-- The character of a digit. -/
def digitChar (d : Nat) : UInt8 := UInt8.ofNat (48 + d)

/-- The characters `0` to `9`. -/
def isDigit (b : UInt8) : Bool := 48 ≤ b && b ≤ 57

theorem toNat_digitChar {d : Nat} (h : d < 10) : (digitChar d).toNat = 48 + d := by
  unfold digitChar
  rw [UInt8.toNat_ofNat']
  omega

theorem isDigit_digitChar {d : Nat} (h : d < 10) : isDigit (digitChar d) = true := by
  have hd := toNat_digitChar h
  simp only [isDigit, Bool.and_eq_true, decide_eq_true_eq, UInt8.le_iff_toNat_le]
  rw [hd]
  exact ⟨by simp, by simp; omega⟩

/-- The digits of `n`, the last one first, with zeros up to the width `w`. -/
def digits (w n : Nat) : List Nat :=
  Nat.digits 10 n ++ List.replicate (w - (Nat.digits 10 n).length) 0

/-- The number `n`, with zeros in front up to the width `w`; one digit at least, when `w` is not 0. -/
def padded (w n : Nat) : Bytes := ((digits w n).map digitChar).reverse

theorem digits_lt {w n d : Nat} (h : d ∈ digits w n) : d < 10 := by
  rcases List.mem_append.mp h with h | h
  · exact Nat.digits_lt_base (by omega) h
  · rw [List.eq_of_mem_replicate h]
    omega

theorem isDigit_padded {w n : Nat} {b : UInt8} (h : b ∈ padded w n) : isDigit b = true := by
  obtain ⟨d, hd, rfl⟩ := List.mem_map.mp (List.mem_reverse.mp h)
  exact isDigit_digitChar (digits_lt hd)

/-- **A number can be read off its digits.** -/
theorem padded_inj {w n m : Nat} (h : padded w n = padded w m) : n = m := by
  have hvalue : ∀ n, Nat.ofDigits 10 (digits w n) = n := fun n => by
    unfold digits
    rw [Nat.ofDigits_append_replicate_zero, Nat.ofDigits_digits]
  have hback : ∀ n, ((padded w n).reverse.map fun b => b.toNat - 48) = digits w n := fun n => by
    unfold padded
    rw [List.reverse_reverse, List.map_map]
    refine (List.map_congr_left fun d hd => ?_).trans (List.map_id _)
    simp [toNat_digitChar (digits_lt hd)]
  rw [← hvalue n, ← hback n, h, hback m, hvalue m]

theorem foldr_digitChar {ds : List Nat} (h : ∀ d ∈ ds, d < 10) :
    (ds.map digitChar).foldr (fun b m => 10 * m + (b.toNat - 48)) 0 = Nat.ofDigits 10 ds := by
  induction ds with
  | nil => rfl
  | cons d ds ih =>
    rw [List.forall_mem_cons] at h
    rw [List.map_cons, List.foldr_cons, ih h.2, toNat_digitChar h.1, Nat.add_sub_cancel_left,
      Nat.ofDigits_cons, Nat.add_comm]

/-- **Digit by digit, the first one first, comes the number.** -/
theorem foldl_padded (w n : Nat) :
    (padded w n).foldl (fun m b => 10 * m + (b.toNat - 48)) 0 = n := by
  unfold padded
  rw [List.foldl_reverse, foldr_digitChar fun d hd => digits_lt hd]
  unfold digits
  rw [Nat.ofDigits_append_replicate_zero, Nat.ofDigits_digits]

/-- There is a digit, if there is room for one. -/
theorem padded_ne_nil (w n : Nat) : padded (w + 1) n ≠ [] := by
  intro h
  have hlen := congrArg List.length h
  simp only [padded, digits, List.length_reverse, List.length_map, List.length_append,
    List.length_replicate, List.length_nil] at hlen
  omega

/-- Digits end where something else begins. -/
theorem append_inj {s s' r r' : Bytes} {b b' : UInt8} (hs : ∀ x ∈ s, isDigit x = true)
    (hs' : ∀ x ∈ s', isDigit x = true) (hb : isDigit b = false) (hb' : isDigit b' = false)
    (h : s ++ b :: r = s' ++ b' :: r') : s = s' ∧ b :: r = b' :: r' := by
  have htake : ∀ {s r : Bytes} {b : UInt8}, (∀ x ∈ s, isDigit x = true) → isDigit b = false →
      (s ++ b :: r).takeWhile isDigit = s := by
    intro s r b hs hb
    rw [List.takeWhile_append_of_pos hs, List.takeWhile_cons_of_neg (by simp [hb]), List.append_nil]
  have hsame : s = s' := by rw [← htake (r := r) hs hb, h, htake hs' hb']
  subst hsame
  exact ⟨rfl, List.append_cancel_left h⟩

end Decimal
