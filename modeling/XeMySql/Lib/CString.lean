import Mathlib.Data.List.TakeWhile

/-!
# Strings of C

A buffer is the list of its bytes. The C string in it ends before the first NUL.
-/

/-- Bytes of memory, or the characters of a C string. -/
abbrev Bytes := List UInt8

namespace CString

/-- The characters of an ASCII text. -/
def ascii (s : String) : Bytes := s.toList.map fun c => UInt8.ofNat c.toNat

/-- The C string that starts at the head of the buffer (all of it when no NUL ends it). -/
def cstr (buf : Bytes) : Bytes := buf.takeWhile (· != 0)

/-- No character of the string is NUL. -/
def NulFree (s : Bytes) : Prop := ∀ b ∈ s, b ≠ 0

instance (s : Bytes) : Decidable (NulFree s) := List.decidableBAll (fun b => b ≠ 0) s

/-- Write `src` over the beginning of the buffer; what would fall beyond its end is dropped. -/
def overwrite (buf src : Bytes) : Bytes := src.take buf.length ++ buf.drop src.length

/--
What `strncpy (dest, src, n)` writes: the first `n` characters of `src`, filled up with NULs to
`n` when `src` is shorter. It writes no terminator when `src` is not.
-/
def strncpySrc (src : Bytes) (n : Nat) : Bytes := src.take n ++ List.replicate (n - src.length) 0

/-- `strncpy` into a buffer. -/
def strncpy (buf src : Bytes) (n : Nat) : Bytes := overwrite buf (strncpySrc src n)

theorem nulFree_cstr (buf : Bytes) : NulFree (cstr buf) := by
  intro b hb
  simpa using List.mem_takeWhile_imp hb

theorem length_cstr_le (buf : Bytes) : (cstr buf).length ≤ buf.length :=
  (List.takeWhile_sublist _).length_le

theorem nulFree_append {s r : Bytes} : NulFree (s ++ r) ↔ NulFree s ∧ NulFree r :=
  List.forall_mem_append

theorem nulFree_cons {b : UInt8} {s : Bytes} : NulFree (b :: s) ↔ b ≠ 0 ∧ NulFree s :=
  List.forall_mem_cons

/-- The string in a buffer that begins with `s` and a NUL is `s`. -/
theorem cstr_append_zero {s : Bytes} (h : NulFree s) (rest : Bytes) :
    cstr (s ++ 0 :: rest) = s := by
  have hs : ∀ b ∈ s, (b != 0) = true := fun b hb => by simpa using h b hb
  simp [cstr, List.takeWhile_append_of_pos hs]

/-- A NUL-free string is its own C string. -/
theorem cstr_of_nulFree {s : Bytes} (h : NulFree s) : cstr s = s :=
  List.takeWhile_eq_self_iff.mpr fun b hb => by simpa using h b hb

/-- Copying exactly the characters of a string writes just those. -/
theorem strncpySrc_length (src : Bytes) : strncpySrc src src.length = src := by
  simp [strncpySrc]

/-- A string copied by its length into zeroed memory: what is longer than the memory is cut off. -/
theorem strncpy_replicate (src : Bytes) (n : Nat) :
    strncpy (List.replicate n 0) src src.length
      = src.take n ++ List.replicate (n - src.length) 0 := by
  simp [strncpy, overwrite, strncpySrc_length]

/-- With room for all of it. -/
theorem strncpy_zeroed (src : Bytes) {n : Nat} (h : src.length ≤ n) :
    strncpy (List.replicate n 0) src src.length
      = src ++ List.replicate (n - src.length) 0 := by
  rw [strncpy_replicate, List.take_of_length_le h]

/-- It is read back as the string copied, whatever comes after the memory. -/
theorem cstr_zeroed {src : Bytes} {n : Nat} (hs : NulFree src) (h : src.length < n) (rest : Bytes) :
    cstr ((src ++ List.replicate (n - src.length) 0) ++ rest) = src := by
  obtain ⟨k, hk⟩ : ∃ k, n - src.length = k + 1 := ⟨n - src.length - 1, by omega⟩
  rw [hk, List.replicate_succ, List.append_assoc, List.cons_append]
  exact cstr_append_zero hs _

end CString
