import XeMySql.Lib.Decimal
import XeMySql.Properties.Access

/-!
# Integer columns

`GetDWORD`, `GetInt` and `GetWORD` read a cell with `atoi`, which knows the integers of 32 bits with
sign only. From `2 ^ 31` on, an unsigned number comes out as the greatest of these.

* `atoi_decimalText` — `atoi` of the decimal text of an integer
* `decodes_iff` — which integers are decoded
-/

namespace XeMySql

open Interact

/-! ## Decimal text -/

/-- The decimal text of an integer, with so many zeros in front of a single digit. -/
def decimalText (w : Nat) (n : Int) : Bytes :=
  if n < 0 then 45 :: Decimal.padded (w + 1) n.natAbs else Decimal.padded (w + 1) n.natAbs

theorem digits_padded (w n : Nat) : digits (Decimal.padded (w + 1) n) = n := by
  have hall : (Decimal.padded (w + 1) n).takeWhile isDigit = Decimal.padded (w + 1) n :=
    List.takeWhile_eq_self_iff.mpr fun b hb => Decimal.isDigit_padded hb
  unfold digits
  rw [hall]
  exact Decimal.foldl_padded (w + 1) n

/-- A digit is no white space and no sign. -/
theorem isDigit_ne {b : UInt8} (h : Decimal.isDigit b = true) :
    isSpace b = false ∧ b ≠ 45 ∧ b ≠ 43 := by
  refine ⟨?_, ?_, ?_⟩
  · unfold Decimal.isDigit at h
    unfold isSpace
    simp only [Bool.and_eq_true, decide_eq_true_eq, UInt8.le_iff_toNat_le] at h
    simp only [Bool.or_eq_false_iff, Bool.and_eq_false_iff, decide_eq_false_iff_not,
      UInt8.le_iff_toNat_le, ← UInt8.toNat_inj]
    have h1 := h.1
    simp at h1
    refine ⟨?_, Or.inr ?_⟩ <;> simp <;> omega
  · rintro rfl
    cases h
  · rintro rfl
    cases h

/-- **`atoi` of a decimal text** is the nearest integer of 32 bits. -/
theorem atoi_decimalText (w : Nat) (n : Int) : atoi (decimalText w n) = saturate n := by
  unfold decimalText
  by_cases hn : n < 0
  · rw [if_pos hn]
    show saturate (-(digits (Decimal.padded (w + 1) n.natAbs) : Int)) = _
    rw [digits_padded]
    congr 1
    omega
  · rw [if_neg hn]
    have hdigits := digits_padded w n.natAbs
    obtain ⟨b, t, ht⟩ := List.exists_cons_of_ne_nil (Decimal.padded_ne_nil w n.natAbs)
    have hb : Decimal.isDigit b = true :=
      Decimal.isDigit_padded (w := w + 1) (n := n.natAbs) (ht ▸ List.mem_cons_self ..)
    obtain ⟨hspace, hminus, hplus⟩ := isDigit_ne hb
    rw [ht] at hdigits ⊢
    unfold atoi
    rw [List.dropWhile_cons_of_neg (by simp [hspace])]
    split
    · next heq =>
      cases heq
      exact absurd rfl hminus
    · next heq =>
      cases heq
      exact absurd rfl hplus
    · rw [hdigits]
      congr 1
      omega

theorem saturate_of_fits {n : Int} (h1 : -2 ^ 31 ≤ n) (h2 : n < 2 ^ 31) : saturate n = n := by
  unfold saturate
  omega

theorem saturate_of_ge {n : Int} (h : 2 ^ 31 ≤ n) : saturate n = 2 ^ 31 - 1 := by
  unfold saturate
  omega

/-! ## Columns -/

/-- The accessors decode the integer `n`, each if it has room for it. -/
structure Decodes (sets : ResultSets) (x : CXEMySqlResult) (f : Bytes) (n : Int) : Prop where
  dword : 0 ≤ n → n < 2 ^ 32 → (x.getDWORD (some f)).value sets.read = some n.toNat
  int : -2 ^ 31 ≤ n → n < 2 ^ 31 → (x.getInt (some f)).value sets.read = some n
  word : 0 ≤ n → n < 2 ^ 16 → (x.getWORD (some f)).value sets.read = some n.toNat

/-- **Which integers are decoded**: all but those that need the 32nd bit. -/
theorem decodes_iff {sets : ResultSets} {s s' : Reader} {r k : Nat}
    (h : s.readTo sets r (k + 1) = some s') {row : List (Option Bytes)}
    (hrow : (sets r).rows[s.delivered r + k]? = some row) {f : Bytes} {i : Nat}
    (hi : FirstColumn (sets r).fields f i) {w : Nat} {n : Int}
    (hcell : row[i]? = some (some (decimalText w n))) :
    Decodes sets s'.obj f n ↔ ¬ (2 ^ 31 ≤ n ∧ n < 2 ^ 32) := by
  obtain ⟨row', hpos⟩ := readTo_positioned h
  obtain rfl : row = row' := Option.some.inj (hrow.symm.trans hpos.stored)
  have hagree : AgreesAt (fun _ => (0 : Int)) sets s'.obj f i (some (decimalText w n)) :=
    hpos.agreesAt (columnOf_eq_some_iff.mpr hi) hcell
  have hdword := hagree.dword
  have hint := hagree.int
  have hword := hagree.word
  rw [Option.elim_some, atoi_decimalText] at hdword hint hword
  constructor
  · rintro hdecodes ⟨hge, hlt⟩
    have hvalue := hdecodes.dword (by omega) hlt
    rw [hdword, saturate_of_ge hge] at hvalue
    simp only [Option.some.injEq] at hvalue
    omega
  · intro hfits
    refine ⟨fun h0 h1 => ?_, fun h0 h1 => ?_, fun h0 h1 => ?_⟩
    · rw [hdword, saturate_of_fits (by omega) (by omega), Int.emod_eq_of_lt h0 h1]
    · rw [hint, saturate_of_fits h0 h1]
    · rw [hword, saturate_of_fits (by omega) (by omega), Int.emod_eq_of_lt h0 h1]

/-- A result set of one cell, `2147483648`, in a column `a`. -/
def highBit : ResultSets := fun _ =>
  ⟨[{ name := [97] }], [[some (CString.ascii "2147483648")]], by decide⟩

/-- `2 ^ 31` is read as `2 ^ 31 - 1`. -/
theorem not_decodes : ∃ s', Reader.readTo highBit {} 0 1 = some s' ∧
    FirstColumn (highBit 0).fields [97] 0 ∧
    (highBit 0).rows[0]? = some [some (decimalText 0 (2 ^ 31))] ∧
    (s'.obj.getDWORD (some [97])).value highBit.read = some (2 ^ 31 - 1) ∧
    ¬ Decodes highBit s'.obj [97] (2 ^ 31) := by
  refine ⟨_, rfl, columnOf_eq_some_iff.mp rfl, by decide +kernel, by decide +kernel, fun h => ?_⟩
  have hvalue := h.dword (by decide) (by decide)
  exact absurd hvalue (by decide +kernel)

/-- `-7`, written with a zero in front. -/
def negative : ResultSets := fun _ =>
  ⟨[{ name := [97] }], [[some (CString.ascii "-07")]], by decide⟩

theorem decodes_negative : ∃ s', Reader.readTo negative {} 0 1 = some s' ∧
    (Decodes negative s'.obj [97] (-7) ↔ ¬ ((2 : Int) ^ 31 ≤ -7 ∧ (-7 : Int) < 2 ^ 32)) :=
  ⟨_, rfl, decodes_iff (r := 0) (k := 0) (w := 1) (n := -7)
    (show Reader.readTo negative {} 0 1 = some _ from rfl) rfl (columnOf_eq_some_iff.mp rfl)
    (by decide +kernel)⟩

end XeMySql
