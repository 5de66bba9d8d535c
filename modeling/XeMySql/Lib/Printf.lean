import XeMySql.Lib.Decimal

/-!
# The printf formatter

A format is read from left to right: `%%` prints one `%`, any other `%` starts a conversion
(flags, width, precision and length modifiers, then the conversion character), every other
character is printed as it is. How a conversion renders its arguments is a parameter; all that is
asked of it is that it takes at least one. Where the standard leaves the outcome undefined (no
argument is left, or the conversion is no valid one) the formatter has no result.

* `format_pieces` — a format is printed piece by piece
* `format_of_no_percent` — text without `%` is printed as it is
* `cstr_take_ne` — without arguments, other text is never read back from a buffer
-/

namespace Printf

/-- The character `%`. -/
def percent : UInt8 := 37

/-- An argument of a variadic call: an integer, a C string, or the bits of another value. -/
inductive Arg where
  | int (n : Int)
  | str (s : Bytes)
  | bits (n : Nat)
deriving DecidableEq

/--
How conversions are rendered. `render spec c args` is the text of the conversion with modifiers
`spec` and conversion character `c`, and the arguments it leaves; `none` when it is undefined.
-/
structure Conversions where
  render : Bytes → UInt8 → List Arg → Option (Bytes × List Arg)
  render_nil : ∀ spec c, render spec c [] = none

/-- The characters between `%` and the conversion character: the flags `-+ #`, the digits, `.` and
`*`, and the lengths `h l L q j z t`, with `I` and `w` of the Windows runtime. -/
def isModifier (b : UInt8) : Bool :=
  (48 ≤ b && b ≤ 57)
    || b ∈ [45, 43, 32, 35, 46, 42, 104, 108, 76, 113, 106, 122, 116, 73, 119]

/--
The formatter. The first argument is the conversion being read: `none` outside of conversions,
`some spec` after `%` and the modifiers `spec`.
-/
def formatFrom (cv : Conversions) : Option Bytes → Bytes → List Arg → Option Bytes
  | none, [], _ => some []
  | some _, [], _ => none
  | none, b :: fmt, args =>
    if b = percent then formatFrom cv (some []) fmt args
    else (formatFrom cv none fmt args).map (b :: ·)
  | some spec, b :: fmt, args =>
    if b = percent then
      -- the whole conversion has to be `%%`
      if spec = [] then (formatFrom cv none fmt args).map (percent :: ·) else none
    else if isModifier b then formatFrom cv (some (spec ++ [b])) fmt args
    else
      match cv.render spec b args with
      | none => none
      | some (text, rest) => (formatFrom cv none fmt rest).map (text ++ ·)

/-- The text `printf` prints for a format and its arguments. -/
def format (cv : Conversions) (fmt : Bytes) (args : List Arg) : Option Bytes :=
  formatFrom cv none fmt args

variable {cv : Conversions}

/-- Text without `%` in front of a format is printed in front. -/
theorem format_append {text : Bytes} (h : percent ∉ text) (fmt : Bytes) (args : List Arg) :
    format cv (text ++ fmt) args = (format cv fmt args).map (text ++ ·) := by
  unfold format
  induction text with
  | nil => simp
  | cons b text ih =>
    simp only [List.mem_cons, not_or] at h
    rw [List.cons_append, formatFrom, if_neg (Ne.symm h.1), ih h.2, Option.map_map]
    rfl

/-- The characters of a conversion are gathered up to its conversion character. -/
theorem formatFrom_gather {spec : Bytes} (hs : ∀ x ∈ spec, isModifier x = true) (read fmt : Bytes)
    (args : List Arg) :
    formatFrom cv (some read) (spec ++ fmt) args = formatFrom cv (some (read ++ spec)) fmt args := by
  induction spec generalizing read with
  | nil => simp
  | cons b spec ih =>
    have hb : isModifier b = true := hs b List.mem_cons_self
    have hne : b ≠ percent := by
      rintro rfl
      exact absurd hb (by decide)
    rw [List.cons_append, formatFrom, if_neg hne, if_pos hb,
      ih (fun x hx => hs x (List.mem_cons_of_mem b hx)), List.append_assoc, List.singleton_append]

/-- A conversion prints its arguments, and then the rest is printed. -/
theorem format_conversion {spec : Bytes} (hs : ∀ x ∈ spec, isModifier x = true) {b : UInt8}
    (hb : b ≠ percent) (hm : isModifier b = false) {fmt text : Bytes} {args rest : List Arg}
    (h : cv.render spec b args = some (text, rest)) :
    format cv (percent :: (spec ++ b :: fmt)) args = (format cv fmt rest).map (text ++ ·) := by
  unfold format
  rw [formatFrom, if_pos rfl, formatFrom_gather hs, List.nil_append, formatFrom, if_neg hb, hm,
    if_neg Bool.false_ne_true, h]

/-- Text without `%` is printed as it is. -/
theorem format_of_no_percent {fmt : Bytes} (h : percent ∉ fmt) (args : List Arg) :
    format cv fmt args = some fmt := by
  calc format cv fmt args = format cv (fmt ++ []) args := by rw [List.append_nil]
    _ = (format cv [] args).map (fmt ++ ·) := format_append h [] args
    _ = some fmt := by simp [format, formatFrom]

/-! ## Formats in pieces -/

/-- A piece of a format: text, and then a conversion with its argument and what it prints. -/
structure Piece where
  before : Bytes
  spec : Bytes
  conversion : UInt8
  arg : Arg
  printed : Bytes

namespace Piece

/-- The piece as it stands in the format. -/
def fmt (p : Piece) : Bytes := p.before ++ percent :: (p.spec ++ [p.conversion])

/-- The piece as it is printed. -/
def text (p : Piece) : Bytes := p.before ++ p.printed

/-- It is printed so. -/
structure Prints (cv : Conversions) (p : Piece) : Prop where
  before : percent ∉ p.before
  spec : ∀ x ∈ p.spec, isModifier x = true
  conversion : p.conversion ≠ percent ∧ isModifier p.conversion = false
  render : ∀ rest, cv.render p.spec p.conversion (p.arg :: rest) = some (p.printed, rest)

end Piece

/-- A conversion `%s`. -/
def Piece.str (before s : Bytes) : Piece := ⟨before, [], 115, .str s, s⟩

/-- A conversion `%0wd`. -/
def Piece.num (before : Bytes) (w n : Nat) : Piece :=
  ⟨before, [48, Decimal.digitChar w], 100, .int n, Decimal.padded w n⟩

/-- `%s` prints its argument. -/
def Conversions.PrintsStrings (cv : Conversions) : Prop :=
  ∀ s rest, cv.render [] 115 (.str s :: rest) = some (s, rest)

/-- `%0wd` prints a number with zeros in front, up to the width `w`. -/
def Conversions.PrintsNumbers (cv : Conversions) : Prop :=
  ∀ w (n : Nat) rest, 0 < w → w < 10 →
    cv.render [48, Decimal.digitChar w] 100 (.int n :: rest) = some (Decimal.padded w n, rest)

theorem Conversions.PrintsStrings.prints (h : cv.PrintsStrings) {before : Bytes}
    (hb : percent ∉ before) (s : Bytes) : (Piece.str before s).Prints cv :=
  ⟨hb, by simp [Piece.str], by simp [Piece.str, percent, isModifier], h s⟩

theorem Conversions.PrintsNumbers.prints (h : cv.PrintsNumbers) {before : Bytes}
    (hb : percent ∉ before) {w : Nat} (hw : 0 < w) (hlt : w < 10) (n : Nat) :
    (Piece.num before w n).Prints cv := by
  refine ⟨hb, fun x hx => ?_, by simp [Piece.num, percent, isModifier], fun rest => h w n rest hw hlt⟩
  have hx : x = 48 ∨ x = Decimal.digitChar w := by simpa [Piece.num] using hx
  have hdigit : Decimal.isDigit x = true := by
    rcases hx with rfl | rfl
    · rfl
    · exact Decimal.isDigit_digitChar hlt
  unfold isModifier
  rw [show (48 ≤ x && x ≤ 57) = true from hdigit, Bool.true_or]

/-- **A format is printed piece by piece**, and then the text at its end. -/
theorem format_pieces {ps : List Piece} (hps : ∀ p ∈ ps, p.Prints cv) {last : Bytes}
    (hlast : percent ∉ last) :
    format cv (ps.flatMap Piece.fmt ++ last) (ps.map Piece.arg)
      = some (ps.flatMap Piece.text ++ last) := by
  induction ps with
  | nil => exact format_of_no_percent hlast []
  | cons p ps ih =>
    obtain ⟨hbefore, hspec, ⟨hne, hmod⟩, hrender⟩ := hps p List.mem_cons_self
    have hfmt : (p :: ps).flatMap Piece.fmt ++ last
        = p.before ++ percent :: (p.spec ++ p.conversion :: (ps.flatMap Piece.fmt ++ last)) := by
      simp [Piece.fmt]
    rw [hfmt, format_append hbefore, List.map_cons, format_conversion hspec hne hmod (hrender _),
      ih fun q hq => hps q (List.mem_cons_of_mem p hq)]
    simp [Piece.text]

/-! ## Formats without arguments -/

/-- Without arguments, what is printed is never longer than the format; inside a conversion that
has been read up to its `%`, not longer than what is left of it. -/
theorem formatFrom_nil_length {fmt : Bytes} {spec : Option Bytes} {text : Bytes}
    (h : formatFrom cv spec fmt [] = some text) : text.length ≤ fmt.length := by
  induction fmt generalizing spec text with
  | nil => cases spec <;> simp_all [formatFrom]
  | cons b fmt ih =>
    cases spec with
    | none =>
      rw [formatFrom] at h
      split at h
      · exact Nat.le_succ_of_le (ih h)
      · obtain ⟨t, ht, rfl⟩ := Option.map_eq_some_iff.mp h
        simpa using ih ht
    | some spec =>
      rw [formatFrom] at h
      split at h
      · split at h
        · obtain ⟨t, ht, rfl⟩ := Option.map_eq_some_iff.mp h
          simpa using ih ht
        · cases h
      · split at h
        · exact Nat.le_succ_of_le (ih h)
        · rw [cv.render_nil] at h
          cases h

/-- Every `%` costs a character: with one in the format, the text is shorter. -/
theorem format_nil_length_lt {fmt text : Bytes} (hp : percent ∈ fmt)
    (h : format cv fmt [] = some text) : text.length < fmt.length := by
  unfold format at h
  induction fmt generalizing text with
  | nil => simp at hp
  | cons b fmt ih =>
    rw [formatFrom] at h
    split at h
    · exact Nat.lt_succ_of_le (formatFrom_nil_length h)
    · next hb =>
      obtain ⟨t, ht, rfl⟩ := Option.map_eq_some_iff.mp h
      have hp' : percent ∈ fmt := by
        rcases List.mem_cons.mp hp with he | hm
        · exact absurd he.symm hb
        · exact hm
      simpa using ih hp' ht

/-- **With a `%` in it, a text does not come back from a buffer it has been printed into**: what is
printed is shorter, and neither cutting it off nor reading it back makes it longer again. -/
theorem cstr_take_ne {fmt text : Bytes} (hp : percent ∈ fmt) (h : format cv fmt [] = some text)
    (k : Nat) : CString.cstr (text.take k) ≠ fmt := by
  intro heq
  have hlt := format_nil_length_lt hp h
  have hle := CString.length_cstr_le (text.take k)
  rw [heq, List.length_take] at hle
  omega

end Printf
