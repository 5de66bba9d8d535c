import Mathlib.Data.Nat.ModEq

/-!
# Counters that wrap around

A counter takes the values below `M`, and after `M - 1` comes 0.

* `rounds_next`, `rounds_lt` — `i % n` takes each value below `n`, and how soon, although the order is
  broken where `i` wraps around
* `elapsed_eq` — within one turn two readings of a clock tell the time between them
* `due_iff` — and so they do in any run, if the clock is looked at often enough
-/

namespace Wrap

variable {M n i j : Nat}

/-! ## A counter as an index -/

/-- Count up. -/
def next (M i : Nat) : Nat := (i + 1) % M

/-- How often `i` must be counted up until `i % n` is `j`, if it does not wrap around before. -/
def ahead (n i j : Nat) : Nat := if i % n ≤ j then j - i % n else n + j - i % n

/-- How often `i` must be counted up until `i % n` is `j`: where it wraps around before, those up to the
wrap, and then those from 0 on. -/
def rounds (M n i j : Nat) : Nat :=
  if i + ahead n i j < M then ahead n i j else M - i + j

theorem succ_mod (hn : 0 < n) (i : Nat) :
    (i + 1) % n = if i % n + 1 = n then 0 else i % n + 1 := by
  have hlt := Nat.mod_lt i hn
  rw [Nat.add_mod_eq_add_mod_right 1 (Nat.mod_mod i n).symm]
  split
  · next heq => rw [heq, Nat.mod_self]
  · exact Nat.mod_eq_of_lt (by omega)

theorem ahead_lt (hj : j < n) (i : Nat) : ahead n i j < n := by
  have hlt := Nat.mod_lt i (Nat.zero_lt_of_lt hj)
  unfold ahead
  split <;> omega

theorem ahead_zero (n j : Nat) : ahead n 0 j = j := by
  unfold ahead
  rw [Nat.zero_mod, if_pos (Nat.zero_le j), Nat.sub_zero]

theorem ahead_succ (hj : j < n) (hne : i % n ≠ j) : ahead n (i + 1) j + 1 = ahead n i j := by
  have hn := Nat.zero_lt_of_lt hj
  have hlt := Nat.mod_lt i hn
  unfold ahead
  rw [succ_mod hn]
  split <;> split <;> split <;> omega

/-- **Each time the counter is counted up** without having reached `j`, it is one round nearer. -/
theorem rounds_next (hj : j < n) (hn : n ≤ M) (hi : i < M) (hne : i % n ≠ j) :
    rounds M n (next M i) j + 1 = rounds M n i j := by
  have hahead := ahead_succ hj hne
  unfold next
  rcases Nat.lt_or_ge (i + 1) M with hlt | hge
  · rw [Nat.mod_eq_of_lt hlt]
    unfold rounds
    split <;> split <;> omega
  · -- here it wraps around, and `j` is still ahead
    obtain rfl : M = i + 1 := by omega
    rw [Nat.mod_self]
    unfold rounds
    rw [ahead_zero n j, if_pos (by omega), if_neg (by omega)]
    omega

/-- **Less than `2 * n` rounds** are needed: the wrap comes in the first `n`, or not before `j`. -/
theorem rounds_lt (hj : j < n) (i : Nat) : rounds M n i j < 2 * n := by
  have hahead := ahead_lt hj i
  unfold rounds
  split <;> omega

/-! ## A counter as a clock -/

/-- What two readings tell of the time between them. -/
def elapsed (M a b : Nat) : Nat := (M - a % M + b % M) % M

/-- Within one turn they tell the truth. -/
theorem elapsed_eq {a b : Nat} (hab : a ≤ b) (h : b < a + M) : elapsed M a b = b - a := by
  have hM : 0 < M := by omega
  have ha := Nat.mod_lt a hM
  have hsum : M - a % M + b = (b - a) + M * (a / M + 1) := by
    have hdiv := Nat.div_add_mod a M
    rw [Nat.mul_add, Nat.mul_one]
    omega
  unfold elapsed
  rw [Nat.add_mod_mod, hsum, Nat.add_mul_mod_self_left]
  exact Nat.mod_eq_of_lt (by omega)

/-- **Who looks often enough never takes one turn for another**: at most `T` had passed since `a` at the
time `b`, and from then to `c` it is less than a turn without `T`. Then the clock says rightly whether more
than `T` has passed. -/
theorem due_iff {T a b c : Nat} (hab : a ≤ b) (hbc : b ≤ c) (hfresh : b ≤ a + T)
    (hgap : c + T < b + M) : T < elapsed M a c ↔ a + T < c := by
  have helapsed : elapsed M a c = c - a := elapsed_eq (hab.trans hbc) (by omega)
  rw [helapsed]
  omega

end Wrap
