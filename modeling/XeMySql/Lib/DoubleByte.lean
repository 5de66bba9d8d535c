import Mathlib.Data.List.Infix

/-!
# Double-byte encodings

Text in which a character is a single byte, or a lead byte with the trail byte after it, whatever that
is. Which bytes are leads is a parameter. Only from the beginning of a text can be said where its
characters begin.

* `infix_iff` — characters in a row are bytes in a row from a boundary on
* `firstAt_eq_some_iff`, `firstAt_eq_none_iff` — searching from boundary to boundary
-/

namespace DoubleByte

variable {α : Type} (lead : α → Bool)

/-- Every lead has a trail. -/
def Complete : List α → Prop
  | [] => True
  | [a] => lead a = false
  | a :: b :: s => if lead a then Complete s else Complete (b :: s)

instance decidableComplete : (s : List α) → Decidable (Complete lead s)
  | [] => .isTrue trivial
  | [a] => inferInstanceAs (Decidable (lead a = false))
  | a :: b :: s =>
    have := decidableComplete s
    have := decidableComplete (b :: s)
    inferInstanceAs (Decidable (if lead a then Complete lead s else Complete lead (b :: s)))

/-- The characters of a text. A lead without a trail is one by itself. -/
def chars : List α → List (List α)
  | [] => []
  | [a] => [[a]]
  | a :: b :: s => if lead a then [a, b] :: chars s else [a] :: chars (b :: s)

/-- The positions before, between and after characters; behind a lead without a trail there is none. -/
inductive Boundary : List α → Nat → Prop
  | start (s : List α) : Boundary s 0
  | single {a : α} {s : List α} {i : Nat} (ha : lead a = false) (h : Boundary s i) :
    Boundary (a :: s) (i + 1)
  | double {a b : α} {s : List α} {i : Nat} (ha : lead a = true) (h : Boundary s i) :
    Boundary (a :: b :: s) (i + 2)

/-- The first boundary, before the end, from which on the text is in `P`. -/
def firstAt (P : List α → Bool) : List α → Option Nat
  | [] => none
  | [a] => if P [a] then some 0 else none
  | a :: b :: s =>
    if P (a :: b :: s) then some 0
    else if lead a then (firstAt P s).map (· + 2)
    else (firstAt P (b :: s)).map (· + 1)

variable {lead}

/-- Induction over characters. -/
@[elab_as_elim]
theorem charInduction (lead : α → Bool) {motive : List α → Prop} (nil : motive [])
    (lone : ∀ a, lead a = true → motive [a])
    (single : ∀ a s, lead a = false → motive s → motive (a :: s))
    (double : ∀ a b s, lead a = true → motive s → motive (a :: b :: s)) (s : List α) :
    motive s := by
  induction s using chars.induct lead with
  | case1 => exact nil
  | case2 a =>
    cases ha : lead a with
    | false => exact single a [] ha nil
    | true => exact lone a ha
  | case3 a b s ha ih => exact double a b s ha ih
  | case4 a b s ha ih => exact single a (b :: s) (by simpa using ha) ih

/-! ## A character in front -/

variable {a b : α} {s t : List α} {i : Nat} {P : List α → Bool}

theorem complete_single (ha : lead a = false) : Complete lead (a :: s) ↔ Complete lead s := by
  cases s <;> simp [Complete, ha]

theorem complete_double (ha : lead a = true) : Complete lead (a :: b :: s) ↔ Complete lead s := by
  simp [Complete, ha]

theorem chars_single (ha : lead a = false) : chars lead (a :: s) = [a] :: chars lead s := by
  cases s <;> simp [chars, ha]

theorem chars_double (ha : lead a = true) :
    chars lead (a :: b :: s) = [a, b] :: chars lead s := by
  simp [chars, ha]

theorem boundary_single (ha : lead a = false) :
    Boundary lead (a :: s) i ↔ i = 0 ∨ ∃ j, i = j + 1 ∧ Boundary lead s j := by
  constructor
  · intro h
    cases h with
    | start => exact Or.inl rfl
    | single _ h => exact Or.inr ⟨_, rfl, h⟩
    | double ha' _ =>
      rw [ha] at ha'
      cases ha'
  · rintro (rfl | ⟨j, rfl, h⟩)
    · exact .start _
    · exact .single ha h

theorem boundary_double (ha : lead a = true) :
    Boundary lead (a :: b :: s) i ↔ i = 0 ∨ ∃ j, i = j + 2 ∧ Boundary lead s j := by
  constructor
  · intro h
    cases h with
    | start => exact Or.inl rfl
    | single ha' _ =>
      rw [ha] at ha'
      cases ha'
    | double _ h => exact Or.inr ⟨_, rfl, h⟩
  · rintro (rfl | ⟨j, rfl, h⟩)
    · exact .start _
    · exact .double ha h

theorem boundary_lone (ha : lead a = true) : Boundary lead [a] i ↔ i = 0 := by
  constructor
  · intro h
    cases h with
    | start => rfl
    | single ha' _ =>
      rw [ha] at ha'
      cases ha'
  · rintro rfl
    exact .start _

theorem boundary_nil : Boundary lead [] i ↔ i = 0 := by
  constructor
  · rintro ⟨⟩
    rfl
  · rintro rfl
    exact .start _

/-- A text is complete when there is a boundary at its end. -/
theorem complete_iff_boundary : Complete lead s ↔ Boundary lead s s.length := by
  induction s using charInduction lead with
  | nil => simp [Complete, boundary_nil]
  | lone a ha => simp [Complete, boundary_lone ha, ha]
  | single a s ha ih => simp [complete_single ha, boundary_single ha, ih]
  | double a b s ha ih => simp [complete_double ha, boundary_double ha, ih]

/-- What follows a text does not change its boundaries. -/
theorem boundary_append (hi : i ≤ s.length) : Boundary lead (s ++ t) i ↔ Boundary lead s i := by
  induction s using charInduction lead generalizing i with
  | nil =>
    obtain rfl : i = 0 := by simpa using hi
    exact iff_of_true (.start _) (.start _)
  | lone a ha =>
    rw [List.singleton_append, boundary_lone ha]
    cases t with
    | nil => exact boundary_lone ha
    | cons b t =>
      rw [boundary_double ha, or_iff_left_iff_imp]
      rintro ⟨j, rfl, -⟩
      simp at hi
  | single a s ha ih =>
    rw [List.cons_append, boundary_single ha, boundary_single ha]
    refine or_congr_right (exists_congr fun j => and_congr_right ?_)
    rintro rfl
    exact ih (Nat.le_of_succ_le_succ hi)
  | double a b s ha ih =>
    rw [List.cons_append, List.cons_append, boundary_double ha, boundary_double ha]
    refine or_congr_right (exists_congr fun j => and_congr_right ?_)
    rintro rfl
    exact ih (by simpa using hi)

/-- No boundary is between a lead and its trail. -/
theorem Boundary.not_trail (h : Boundary lead s i) {c : α} (hc : s[i]? = some c)
    (hlead : lead c = true) : ¬ Boundary lead s (i + 1) := by
  induction h with
  | start s =>
    cases s with
    | nil => cases hc
    | cons a s =>
      cases hc
      rintro h
      cases h with
      | single ha _ =>
        rw [hlead] at ha
        cases ha
  | single ha _ ih =>
    rw [boundary_single ha]
    rintro (h | ⟨j, hj, h⟩)
    · cases h
    · obtain rfl : _ = j := Nat.succ.inj hj
      exact ih hc h
  | @double a b s i ha _ ih =>
    rw [boundary_double ha]
    rintro (h | ⟨j, hj, h⟩)
    · cases h
    · obtain rfl : i + 1 = j := by omega
      exact ih hc h

/-! ## Texts in texts -/

theorem flatten_chars (lead : α → Bool) (s : List α) : (chars lead s).flatten = s := by
  induction s using charInduction lead with
  | nil => rfl
  | lone a ha => rfl
  | single a s ha ih => rw [chars_single ha, List.flatten_cons, ih, List.singleton_append]
  | double a b s ha ih => rw [chars_double ha, List.flatten_cons, ih]; rfl

/-- A complete text does not take anything of what follows it. -/
theorem chars_append (hs : Complete lead s) (t : List α) :
    chars lead (s ++ t) = chars lead s ++ chars lead t := by
  induction s using charInduction lead with
  | nil => rfl
  | lone a ha => exact absurd hs (by simp [Complete, ha])
  | single a s ha ih =>
    rw [List.cons_append, chars_single ha, chars_single ha, ih ((complete_single ha).mp hs)]
    rfl
  | double a b s ha ih =>
    rw [List.cons_append, List.cons_append, chars_double ha, chars_double ha,
      ih ((complete_double ha).mp hs)]
    rfl

/-- A complete text begins another one, byte by byte or character by character. -/
theorem prefix_iff (hs : Complete lead s) : chars lead s <+: chars lead t ↔ s <+: t := by
  constructor
  · rintro ⟨r, hr⟩
    refine ⟨r.flatten, ?_⟩
    rw [← flatten_chars lead t, ← hr, List.flatten_append, flatten_chars]
  · rintro ⟨r, rfl⟩
    exact ⟨chars lead r, (chars_append hs r).symm⟩

/-- **The characters of a complete text stand in a row in another one** exactly when its bytes do, from
a boundary on. -/
theorem infix_iff (ht : Complete lead t) :
    chars lead t <:+: chars lead s ↔ ∃ i, Boundary lead s i ∧ t <+: s.drop i := by
  induction s using charInduction lead with
  | nil =>
    have hprefix : chars lead t <+: [] ↔ t <+: [] := prefix_iff (t := []) ht
    simp only [boundary_nil, exists_eq_left, List.drop_nil, ← hprefix, chars, List.infix_nil,
      List.prefix_nil]
  | lone a ha =>
    have hprefix : chars lead t <+: [[a]] ↔ t <+: [a] := prefix_iff (t := [a]) ht
    simp only [boundary_lone ha, exists_eq_left, List.drop_zero, ← hprefix, chars,
      List.infix_cons_iff, List.infix_nil, or_iff_left_iff_imp]
    exact fun h => h ▸ List.nil_prefix
  | single a s ha ih =>
    have hprefix := prefix_iff (t := a :: s) ht
    rw [chars_single ha] at hprefix ⊢
    rw [List.infix_cons_iff, hprefix, ih]
    simp [boundary_single ha, or_and_right, exists_or]
  | double a b s ha ih =>
    have hprefix := prefix_iff (t := a :: b :: s) ht
    rw [chars_double ha] at hprefix ⊢
    rw [List.infix_cons_iff, hprefix, ih]
    simp [boundary_double ha, or_and_right, exists_or]

/-! ## Searching -/

/-- `i` is the first boundary before the end from which on the text is in `P`. -/
structure IsFirst (lead : α → Bool) (P : List α → Prop) (s : List α) (i : Nat) : Prop where
  lt : i < s.length
  boundary : Boundary lead s i
  holds : P (s.drop i)
  least : ∀ j < i, Boundary lead s j → ¬ P (s.drop j)

theorem isFirst_zero {P : List α → Prop} (hs : 0 < s.length) (h : P s) :
    IsFirst lead P s i ↔ i = 0 := by
  constructor
  · intro hi
    by_contra hne
    exact hi.least 0 (Nat.pos_of_ne_zero hne) (.start s) h
  · rintro rfl
    exact ⟨hs, .start s, h, nofun⟩

theorem isFirst_single {P : List α → Prop} (ha : lead a = false) (h : ¬ P (a :: s)) :
    IsFirst lead P (a :: s) i ↔ ∃ j, IsFirst lead P s j ∧ j + 1 = i := by
  constructor
  · rintro ⟨hlt, hb, hP, hleast⟩
    rcases (boundary_single ha).mp hb with rfl | ⟨j, rfl, hb'⟩
    · exact absurd hP h
    · exact ⟨j, ⟨Nat.lt_of_succ_lt_succ hlt, hb', hP, fun k hk hbk =>
        hleast (k + 1) (Nat.succ_lt_succ hk) (.single ha hbk)⟩, rfl⟩
  · rintro ⟨j, ⟨hlt, hb, hP, hleast⟩, rfl⟩
    refine ⟨Nat.succ_lt_succ hlt, .single ha hb, hP, fun k hk hbk => ?_⟩
    rcases (boundary_single ha).mp hbk with rfl | ⟨k, rfl, hbk'⟩
    · exact h
    · exact hleast k (Nat.lt_of_succ_lt_succ hk) hbk'

theorem isFirst_double {P : List α → Prop} (ha : lead a = true) (h : ¬ P (a :: b :: s)) :
    IsFirst lead P (a :: b :: s) i ↔ ∃ j, IsFirst lead P s j ∧ j + 2 = i := by
  constructor
  · rintro ⟨hlt, hb, hP, hleast⟩
    rcases (boundary_double ha).mp hb with rfl | ⟨j, rfl, hb'⟩
    · exact absurd hP h
    · refine ⟨j, ⟨?_, hb', hP, fun k hk hbk => hleast (k + 2) (by omega) (.double ha hbk)⟩, rfl⟩
      simpa using hlt
  · rintro ⟨j, ⟨hlt, hb, hP, hleast⟩, rfl⟩
    refine ⟨by simpa using hlt, .double ha hb, hP, fun k hk hbk => ?_⟩
    rcases (boundary_double ha).mp hbk with rfl | ⟨k, rfl, hbk'⟩
    · exact h
    · exact hleast k (by omega) hbk'

theorem firstAt_lone (a : α) : firstAt lead P [a] = if P [a] then some 0 else none := rfl

theorem firstAt_single (ha : lead a = false) :
    firstAt lead P (a :: s)
      = if P (a :: s) then some 0 else (firstAt lead P s).map (· + 1) := by
  cases s <;> simp [firstAt, ha]

theorem firstAt_double (ha : lead a = true) :
    firstAt lead P (a :: b :: s)
      = if P (a :: b :: s) then some 0 else (firstAt lead P s).map (· + 2) := by
  simp [firstAt, ha]

/-- **What is found is the first boundary.** -/
theorem firstAt_eq_some_iff : firstAt lead P s = some i ↔ IsFirst lead (P · = true) s i := by
  induction s using charInduction lead generalizing i with
  | nil => exact iff_of_false nofun fun h => Nat.not_lt_zero _ h.lt
  | lone a ha =>
    rw [firstAt_lone]
    by_cases h : P [a] = true
    · rw [if_pos h, isFirst_zero (P := (P · = true)) (by simp) h, Option.some.injEq, eq_comm]
    · rw [if_neg h]
      refine iff_of_false nofun fun hi => h ?_
      obtain rfl := (boundary_lone ha).mp hi.boundary
      exact hi.holds
  | single a s ha ih =>
    rw [firstAt_single ha]
    by_cases h : P (a :: s) = true
    · rw [if_pos h, isFirst_zero (P := (P · = true)) (by simp) h, Option.some.injEq, eq_comm]
    · rw [if_neg h, isFirst_single ha h, Option.map_eq_some_iff]
      simp only [ih]
  | double a b s ha ih =>
    rw [firstAt_double ha]
    by_cases h : P (a :: b :: s) = true
    · rw [if_pos h, isFirst_zero (P := (P · = true)) (by simp) h, Option.some.injEq, eq_comm]
    · rw [if_neg h, isFirst_double ha h, Option.map_eq_some_iff]
      simp only [ih]

/-- **Nothing is found** when there is no such boundary. -/
theorem firstAt_eq_none_iff :
    firstAt lead P s = none ↔ ∀ i < s.length, Boundary lead s i → P (s.drop i) = false := by
  induction s using charInduction lead with
  | nil => exact iff_of_true rfl nofun
  | lone a ha => simp [firstAt_lone, boundary_lone ha]
  | single a s ha ih =>
    rw [firstAt_single ha]
    by_cases h : P (a :: s) = true
    · rw [if_pos h]
      exact iff_of_false nofun fun hall => by simpa [h] using hall 0 (by simp) (.start _)
    · rw [if_neg h, Option.map_eq_none_iff, ih]
      constructor
      · intro hall i hi hb
        rcases (boundary_single ha).mp hb with rfl | ⟨j, rfl, hb'⟩
        · exact Bool.eq_false_iff.mpr h
        · exact hall j (Nat.lt_of_succ_lt_succ hi) hb'
      · exact fun hall i hi hb => hall (i + 1) (Nat.succ_lt_succ hi) (.single ha hb)
  | double a b s ha ih =>
    rw [firstAt_double ha]
    by_cases h : P (a :: b :: s) = true
    · rw [if_pos h]
      exact iff_of_false nofun fun hall => by simpa [h] using hall 0 (by simp) (.start _)
    · rw [if_neg h, Option.map_eq_none_iff, ih]
      constructor
      · intro hall i hi hb
        rcases (boundary_double ha).mp hb with rfl | ⟨j, rfl, hb'⟩
        · exact Bool.eq_false_iff.mpr h
        · exact hall j (by simpa using hi) hb'
      · exact fun hall i hi hb => hall (i + 2) (by simpa using hi) (.double ha hb)

end DoubleByte
