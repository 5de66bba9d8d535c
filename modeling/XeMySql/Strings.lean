import XeMySql.Lib.CString
import XeMySql.Lib.DoubleByte
import XeMySql.Lib.Reading

/-!
# `xe_strstr` and `xe_strchr` (`GlobalDefine.cpp`)

The string functions for GBK, with `char` signed, as code that reads two strings through pointers. A
loop is given a number of rounds, and ends with `none` when they do not suffice: each evaluation of its
condition is a round.

* `matchLoop_within` — how far the inner loop of `xe_strstr` comes
* `Scans.run` — the outer loops go from boundary to boundary
* `strstrLoop_scans`, `strchrLoop_scans` — where they stop
-/

namespace XeMySql

open Interact DoubleByte

/-! ## Pointers -/

/-- The strings that the functions are given. -/
inductive Str where
  | src
  | szFind
deriving DecidableEq

/-- A pointer into one of them. -/
structure Ptr where
  str : Str
  off : Nat
deriving DecidableEq

namespace Ptr

/-- The pointer `n` characters on. -/
def add (p : Ptr) (n : Nat) : Ptr := ⟨p.str, p.off + n⟩

@[simp] theorem add_zero (p : Ptr) : p.add 0 = p := rfl

@[simp] theorem add_add (p : Ptr) (m n : Nat) : (p.add m).add n = p.add (m + n) := by
  simp [add, Nat.add_assoc]

@[simp] theorem str_add (p : Ptr) (n : Nat) : (p.add n).str = p.str := rfl

@[simp] theorem off_add (p : Ptr) (n : Nat) : (p.add n).off = p.off + n := rfl

end Ptr

/-- Code that reads characters. -/
abbrev Scan (α : Type) : Type := Prog Ptr (fun _ => Int8) α

/-- `*p` -/
def deref (p : Ptr) : Scan Int8 := Prog.ask p

/-! ## The functions -/

/-- The inner loop of `xe_strstr`: the pointers `s1` and `s2` at its end. -/
def matchLoop : Nat → Ptr → Ptr → Scan (Option (Ptr × Ptr))
  | 0, _, _ => pure none
  | rounds + 1, s1, s2 => do
    let c1 ← deref s1
    if c1 = 0 then pure (some (s1, s2))
    else
      let c2 ← deref s2
      if c2 = 0 then pure (some (s1, s2))
      else
        let c1 ← deref s1
        let c2 ← deref s2
        if c1.toInt - c2.toInt = 0 then matchLoop rounds (s1.add 1) (s2.add 1)
        else pure (some (s1, s2))

/-- The outer loop of `xe_strstr`, from `cp` on. -/
def strstrLoop (inner : Nat) (szFind : Ptr) : Nat → Ptr → Scan (Option (Option Ptr))
  | 0, _ => pure none
  | rounds + 1, cp => do
    let c ← deref cp
    if c = 0 then pure (some none)
    else
      match ← matchLoop inner cp szFind with
      | none => pure none
      | some (s1, s2) =>
        let c2 ← deref s2
        if c2 = 0 then pure (some (some s1))
        else
          let c ← deref cp
          if c < 0 then strstrLoop inner szFind rounds (cp.add 2)
          else strstrLoop inner szFind rounds (cp.add 1)

/-- `xe_strstr`, with so many rounds for each loop. -/
def xeStrstr (rounds : Nat) : Option Ptr → Option Ptr → Scan (Option (Option Ptr))
  | some src, some szFind => do
    let c ← deref szFind
    if c = 0 then pure (some none) else strstrLoop rounds szFind rounds src
  | _, _ => pure (some none)

/-- The loop of `xe_strchr`, from `cp` on: the pointer at its end. -/
def strchrLoop (ch : Int8) : Nat → Ptr → Scan (Option Ptr)
  | 0, _ => pure none
  | rounds + 1, cp => do
    let c ← deref cp
    if c = 0 then pure (some cp)
    else
      let c ← deref cp
      if c = ch then pure (some cp)
      else
        let c ← deref cp
        if c < 0 then strchrLoop ch rounds (cp.add 2) else strchrLoop ch rounds (cp.add 1)

/-- `xe_strchr`; of `ch` only the lowest byte counts. -/
def xeStrchr (rounds : Nat) (src : Option Ptr) (ch : Int) : Scan (Option (Option Ptr)) :=
  match src with
  | none => pure (some none)
  | some src => do
    match ← strchrLoop (Int8.ofInt ch) rounds src with
    | none => pure none
    | some cp =>
      let c ← deref cp
      if c = Int8.ofInt ch then pure (some (some cp)) else pure (some none)

/-! ## GBK -/

/-- The first byte of a double-byte character: a `char` that is negative. -/
def isLead (b : UInt8) : Bool := 0x80 ≤ b

theorem toInt8_injective {b c : UInt8} (h : b.toInt8 = c.toInt8) : b = c := by
  simpa using congrArg Int8.toUInt8 h

theorem toInt8_eq_zero_iff {b : UInt8} : b.toInt8 = 0 ↔ b = 0 := by
  constructor
  · exact fun h => toInt8_injective h
  · rintro rfl
    rfl

theorem toInt8_lt_zero_iff (b : UInt8) : b.toInt8 < 0 ↔ isLead b = true := by
  unfold isLead
  rw [decide_eq_true_iff, Int8.lt_iff_toInt_lt, UInt8.le_iff_toNat_le]
  show b.toBitVec.toInt < 0 ↔ 128 ≤ b.toBitVec.toNat
  rw [BitVec.toInt_eq_toNat_cond]
  have hlt := b.toBitVec.isLt
  split <;> omega

theorem sub_toInt_eq_zero_iff (b c : UInt8) : b.toInt8.toInt - c.toInt8.toInt = 0 ↔ b = c := by
  rw [Int.sub_eq_zero, Int8.toInt_inj]
  constructor
  · exact toInt8_injective
  · exact congrArg _

/-! ## Memory -/

/-- From `p` on, the memory holds the characters of `s`. -/
def Holds (mem : Ptr → Option Int8) (p : Ptr) : Bytes → Prop
  | [] => True
  | b :: s => mem p = some b.toInt8 ∧ Holds mem (p.add 1) s

/-- `s` with its terminator and what follows it in memory, and the string searched for. -/
def memory (s rest szFind : Bytes) (p : Ptr) : Option Int8 :=
  match p.str with
  | .src => ((s ++ 0 :: rest)[p.off]?).map UInt8.toInt8
  | .szFind => ((szFind ++ [0])[p.off]?).map UInt8.toInt8

section

variable {mem : Ptr → Option Int8} {p : Ptr} {s : Bytes} {b : UInt8}

theorem Holds.drop (h : Holds mem p s) (i : Nat) : Holds mem (p.add i) (s.drop i) := by
  induction s generalizing p i with
  | nil =>
    rw [List.drop_nil]
    trivial
  | cons b s ih =>
    cases i with
    | zero => exact h
    | succ i =>
      have hrec := ih h.2 i
      rwa [Ptr.add_add, Nat.add_comm 1 i] at hrec

theorem Holds.get (h : Holds mem p s) {i : Nat} (hi : s[i]? = some b) :
    mem (p.add i) = some b.toInt8 := by
  have hd := h.drop i
  obtain ⟨hlt, rfl⟩ := List.getElem?_eq_some_iff.mp hi
  rw [List.drop_eq_getElem_cons hlt] at hd
  exact hd.1

theorem holds_of_getElem? (h : ∀ i < s.length, mem (p.add i) = (s[i]?).map UInt8.toInt8) :
    Holds mem p s := by
  induction s generalizing p with
  | nil => trivial
  | cons b s ih =>
    refine ⟨h 0 (by simp), ih fun i hi => ?_⟩
    rw [Ptr.add_add, Nat.add_comm]
    exact h (i + 1) (Nat.succ_lt_succ hi)

theorem memory_src (s rest szFind : Bytes) :
    Holds (memory s rest szFind) ⟨.src, 0⟩ (s ++ [0]) := by
  refine holds_of_getElem? fun i hi => ?_
  show ((s ++ 0 :: rest)[0 + i]?).map UInt8.toInt8 = _
  rw [Nat.zero_add, List.append_cons, List.getElem?_append_left hi]

theorem memory_szFind (s rest szFind : Bytes) :
    Holds (memory s rest szFind) ⟨.szFind, 0⟩ (szFind ++ [0]) := by
  refine holds_of_getElem? fun i hi => ?_
  show ((szFind ++ [0])[0 + i]?).map UInt8.toInt8 = _
  rw [Nat.zero_add]

end

/-! ## The inner loop -/

section

variable {mem : Ptr → Option Int8} {s1 s2 : Ptr} {t f : Bytes} {P : Ptr → Prop}

/-- **The inner loop** stops behind the characters that the two strings have in common: at the end of
`f` if that is a prefix of `t`, and nowhere else. -/
theorem matchLoop_within (ht : CString.NulFree t) (hf : CString.NulFree f)
    (h1 : Holds mem s1 (t ++ [0])) (h2 : Holds mem s2 (f ++ [0]))
    (hP1 : ∀ i ≤ t.length, P (s1.add i)) (hP2 : ∀ i ≤ f.length, P (s2.add i)) {rounds : Nat}
    (hr : t.length < rounds) :
    (matchLoop rounds s1 s2).Within mem P fun x =>
      ∃ k ≤ f.length, x = some (s1.add k, s2.add k) ∧ (k = f.length ↔ f <+: t) := by
  induction rounds generalizing t f s1 s2 with
  | zero => exact absurd hr (Nat.not_lt_zero _)
  | succ rounds ih =>
    have hs1 : P s1 := hP1 0 (Nat.zero_le _)
    have hs2 : P s2 := hP2 0 (Nat.zero_le _)
    unfold matchLoop
    cases t with
    | nil =>
      refine Prog.within_ask hs1 h1.1 ⟨0, Nat.zero_le _, rfl, ?_⟩
      rw [List.prefix_nil, eq_comm, List.length_eq_zero_iff]
    | cons a t =>
      obtain ⟨ha, ht⟩ := CString.nulFree_cons.mp ht
      have ha' : a.toInt8 ≠ 0 := fun h => ha (toInt8_eq_zero_iff.mp h)
      refine Prog.within_ask hs1 h1.1 ?_
      rw [if_neg ha']
      cases f with
      | nil => exact Prog.within_ask hs2 h2.1 ⟨0, Nat.le_refl _, rfl, iff_of_true rfl List.nil_prefix⟩
      | cons b f =>
        obtain ⟨hb, hf'⟩ := CString.nulFree_cons.mp hf
        have hb' : b.toInt8 ≠ 0 := fun h => hb (toInt8_eq_zero_iff.mp h)
        refine Prog.within_ask hs2 h2.1 ?_
        rw [if_neg hb']
        refine Prog.within_ask hs1 h1.1 (Prog.within_ask hs2 h2.1 ?_)
        by_cases hab : a = b
        · subst hab
          rw [if_pos ((sub_toInt_eq_zero_iff a a).mpr rfl)]
          refine (ih ht hf' h1.2 h2.2 (fun i hi => ?_) (fun i hi => ?_)
            (Nat.lt_of_succ_lt_succ hr)).mono ?_
          · rw [Ptr.add_add, Nat.add_comm]
            exact hP1 (i + 1) (Nat.succ_le_succ hi)
          · rw [Ptr.add_add, Nat.add_comm]
            exact hP2 (i + 1) (Nat.succ_le_succ hi)
          · rintro x ⟨k, hk, rfl, hiff⟩
            refine ⟨k + 1, Nat.succ_le_succ hk, ?_, ?_⟩
            · rw [Ptr.add_add, Ptr.add_add, Nat.add_comm]
            · rw [List.cons_prefix_cons, List.length_cons, Nat.succ_inj, hiff, eq_self, true_and]
        · rw [if_neg fun h => hab ((sub_toInt_eq_zero_iff a b).mp h)]
          refine ⟨0, Nat.zero_le _, rfl, iff_of_false (by simp) fun h => ?_⟩
          exact hab (List.cons_prefix_cons.mp h).1.symm

end

/-! ## The outer loops -/

/-- How far `cp` is moved over a character. -/
def width (b : UInt8) : Nat := if isLead b then 2 else 1

/-- A loop over the string `s` at `src`: at a boundary from which on the string is in `stop`, the
terminator included, it ends with `result`, and at others it goes on behind the character. -/
structure Scans {β : Type} (mem : Ptr → Option Int8) (P : Ptr → Prop) (src : Ptr) (s : Bytes)
    (stop : Bytes → Bool) (result : Nat → β) (loop : Nat → Ptr → Scan β) : Prop where
  atEnd : stop [0] = true
  halt : ∀ n i, i ≤ s.length → stop ((s ++ [0]).drop i) = true →
    (loop (n + 1) (src.add i)).Leads mem P (pure (result i))
  next : ∀ n i b, s[i]? = some b → stop ((s ++ [0]).drop i) = false →
    (loop (n + 1) (src.add i)).Leads mem P (loop n (src.add (i + width b)))

section

variable {β : Type} {mem : Ptr → Option Int8} {P : Ptr → Prop} {src : Ptr} {s u : Bytes}
  {stop : Bytes → Bool} {result : Nat → β} {loop : Nat → Ptr → Scan β} {i n : Nat}

/-- The string goes on at `i` with the character `b`, where the loop does not stop. -/
theorem Scans.step (h : Scans mem P src s stop result loop) {b : UInt8}
    (hu : (s ++ [0]).drop i = b :: u) (hi : i ≤ s.length) (hstop : stop (b :: u) = false) :
    i < s.length ∧ (loop (n + 1) (src.add i)).Leads mem P (loop n (src.add (i + width b))) := by
  -- at the terminator it stops
  have hlt : i < s.length := by
    by_contra hge
    obtain rfl : i = s.length := by omega
    rw [List.drop_left] at hu
    rw [← hu, h.atEnd] at hstop
    cases hstop
  have hget : (s ++ [0])[i]? = some b := by
    rw [← List.head?_drop, hu]
    rfl
  rw [List.getElem?_append_left hlt] at hget
  exact ⟨hlt, h.next n i b hget (hu ▸ hstop)⟩

/-- From position `i` with `n` rounds, the loop ends `k` bytes on when `first` is `some k`, and comes to
read behind the terminator when it is `none`. -/
structure ComesTo (mem : Ptr → Option Int8) (P : Ptr → Prop) (src : Ptr) (s : Bytes)
    (result : Nat → β) (loop : Nat → Ptr → Scan β) (n i : Nat) (first : Option Nat) : Prop where
  found : ∀ k, first = some k → (loop n (src.add i)).Leads mem P (pure (result (i + k)))
  missed : first = none →
    ∃ m, (loop n (src.add i)).Leads mem P (loop (m + 1) (src.add (s.length + 1)))

/-- It stops at once. -/
theorem Scans.stops (h : Scans mem P src s stop result loop) (hu : (s ++ [0]).drop i = u)
    (hi : i ≤ s.length) (hstop : stop u = true) :
    ComesTo mem P src s result loop (n + 1) i (some 0) := by
  refine ⟨fun k hk => ?_, nofun⟩
  cases hk
  exact h.halt n i hi (hu ▸ hstop)

/-- It goes on `w` bytes on. -/
theorem ComesTo.behind {first : Option Nat} {w : Nat}
    (h : ComesTo mem P src s result loop n (i + w) first)
    (hstep : (loop (n + 1) (src.add i)).Leads mem P (loop n (src.add (i + w)))) :
    ComesTo mem P src s result loop (n + 1) i (first.map (· + w)) := by
  constructor
  · intro k hk
    obtain ⟨j, hj, rfl⟩ := Option.map_eq_some_iff.mp hk
    rw [show i + (j + w) = i + w + j by omega]
    exact hstep.trans (h.found j hj)
  · intro hk
    obtain ⟨m, hm⟩ := h.missed (Option.map_eq_none_iff.mp hk)
    exact ⟨m, hstep.trans hm⟩

/-- **Run lemma.** It comes to the first boundary in `stop`; if there is none, it comes to read behind
the terminator. -/
theorem Scans.run (h : Scans mem P src s stop result loop) (hu : (s ++ [0]).drop i = u)
    (hi : i ≤ s.length + 1) (hn : 0 < n) (hin : s.length < n + i) :
    ComesTo mem P src s result loop n i (firstAt isLead stop u) := by
  have hlen : (s ++ [0]).length - i = u.length := by rw [← hu, List.length_drop]
  rw [List.length_append, List.length_singleton] at hlen
  obtain ⟨n, rfl⟩ : ∃ m, n = m + 1 := ⟨n - 1, by omega⟩
  induction u using charInduction isLead generalizing i n with
  | nil =>
    rw [List.length_nil] at hlen
    obtain rfl : i = s.length + 1 := by omega
    exact ⟨nofun, fun _ => ⟨n, .refl⟩⟩
  | lone a ha =>
    -- the last byte is the terminator, and no lead
    rw [List.length_singleton] at hlen
    obtain rfl : i = s.length := by omega
    rw [List.drop_left] at hu
    cases hu
    cases ha
  | single a u ha ih =>
    rw [List.length_cons] at hlen
    rw [firstAt_single ha]
    by_cases hstop : stop (a :: u) = true
    · rw [if_pos hstop]
      exact h.stops hu (by omega) hstop
    · rw [if_neg hstop]
      obtain ⟨hlt, hstep⟩ := h.step (n := n) hu (by omega) (Bool.eq_false_iff.mpr hstop)
      have hwidth : width a = 1 := by simp [width, ha]
      rw [hwidth] at hstep
      have hdrop : (s ++ [0]).drop (i + 1) = u := by
        rw [← List.tail_drop, hu, List.tail_cons]
      obtain ⟨n, rfl⟩ : ∃ m, n = m + 1 := ⟨n - 1, by omega⟩
      exact (ih hdrop (by omega) (by omega) n (by omega) (by omega)).behind hstep
  | double a b u ha ih =>
    rw [List.length_cons, List.length_cons] at hlen
    rw [firstAt_double ha]
    by_cases hstop : stop (a :: b :: u) = true
    · rw [if_pos hstop]
      exact h.stops hu (by omega) hstop
    · rw [if_neg hstop]
      obtain ⟨hlt, hstep⟩ := h.step (n := n) hu (by omega) (Bool.eq_false_iff.mpr hstop)
      have hwidth : width a = 2 := by simp [width, ha]
      rw [hwidth] at hstep
      have hdrop : (s ++ [0]).drop (i + 2) = u := by
        rw [← List.drop_drop, hu]
        rfl
      obtain ⟨n, rfl⟩ : ∃ m, n = m + 1 := ⟨n - 1, by omega⟩
      exact (ih hdrop (by omega) (by omega) n (by omega) (by omega)).behind hstep

end

/-- The text is at its end, or in `P`. -/
def orEnd (P : Bytes → Bool) (t : Bytes) : Bool := t.head? == some 0 || P t

section

variable {mem : Ptr → Option Int8} {src szFind : Ptr} {s f t : Bytes} {P : Ptr → Prop} {i : Nat}

/-- The string from position `i` on. -/
theorem drop_append_zero (hi : i ≤ s.length) : (s ++ [0]).drop i = s.drop i ++ [0] :=
  List.drop_append_of_le_length hi

/-- At the end of the string and nowhere else is the terminator. -/
theorem head?_drop_eq_zero_iff (hs : CString.NulFree s) (hi : i ≤ s.length) :
    ((s ++ [0]).drop i).head? = some 0 ↔ i = s.length := by
  rw [List.head?_drop]
  constructor
  · intro h
    by_contra hne
    have hlt : i < s.length := by omega
    rw [List.getElem?_append_left hlt] at h
    exact hs 0 (List.mem_of_getElem? h) rfl
  · rintro rfl
    simp

/-- The terminator is not part of a match. -/
theorem prefix_append_zero (hf : CString.NulFree f) : f <+: t ++ [0] ↔ f <+: t := by
  constructor
  · intro h
    rcases List.prefix_concat_iff.mp h with rfl | h
    · exact absurd rfl (hf 0 (by simp))
    · exact h
  · exact fun h => h.trans (List.prefix_append t [0])

/-- **One round of `xe_strstr`**, at a character. -/
theorem strstrLoop_round (hs : CString.NulFree s) (hf : CString.NulFree f)
    (h1 : Holds mem src (s ++ [0])) (h2 : Holds mem szFind (f ++ [0]))
    (hP1 : ∀ i ≤ s.length, P (src.add i)) (hP2 : ∀ i ≤ f.length, P (szFind.add i)) {inner : Nat}
    (hinner : s.length < inner) (n : Nat) {b : UInt8} (hb : s[i]? = some b) :
    (strstrLoop inner szFind (n + 1) (src.add i)).Leads mem P
      (if f <+: s.drop i then pure (some (some (src.add (i + f.length))))
      else strstrLoop inner szFind n (src.add (i + width b))) := by
  obtain ⟨hlt, rfl⟩ := List.getElem?_eq_some_iff.mp hb
  have hget : mem (src.add i) = some s[i].toInt8 :=
    h1.get (by rw [List.getElem?_append_left hlt, hb])
  have hnz : s[i].toInt8 ≠ 0 := fun h => hs _ (List.getElem_mem hlt) (toInt8_eq_zero_iff.mp h)
  have hdrop : Holds mem (src.add i) (s.drop i ++ [0]) := by
    rw [← drop_append_zero (Nat.le_of_lt hlt)]
    exact h1.drop i
  refine .ask (hP1 i (Nat.le_of_lt hlt)) hget ?_
  rw [if_neg hnz]
  have hPdrop : ∀ j ≤ (s.drop i).length, P ((src.add i).add j) := by
    intro j hj
    rw [List.length_drop] at hj
    rw [Ptr.add_add]
    exact hP1 (i + j) (by omega)
  have hrounds : (s.drop i).length < inner := by
    rw [List.length_drop]
    omega
  have hmatch := matchLoop_within (fun c hc => hs c (List.mem_of_mem_drop hc)) hf hdrop h2 hPdrop
    hP2 hrounds
  obtain ⟨_, ⟨k, hk, rfl, hiff⟩, hl⟩ := hmatch.leads _
  refine hl.trans ?_
  dsimp only
  by_cases hp : f <+: s.drop i
  · -- `s2` has come to the end of `szFind`
    obtain rfl := hiff.mpr hp
    have hend : mem (szFind.add f.length) = some (0 : UInt8).toInt8 := h2.get (by simp)
    refine .ask (hP2 _ (Nat.le_refl _)) hend ?_
    rw [if_pos (toInt8_eq_zero_iff.mpr rfl), if_pos hp, Ptr.add_add]
    exact .refl
  · have hkf : k < f.length := Nat.lt_of_le_of_ne hk fun h => hp (hiff.mp h)
    have hcur : mem (szFind.add k) = some f[k].toInt8 :=
      h2.get (by rw [List.getElem?_append_left hkf, List.getElem?_eq_getElem hkf])
    have hfz : f[k].toInt8 ≠ 0 := fun h => hf _ (List.getElem_mem hkf) (toInt8_eq_zero_iff.mp h)
    refine .ask (hP2 k hk) hcur ?_
    rw [if_neg hfz]
    refine .ask (hP1 i (Nat.le_of_lt hlt)) hget ?_
    rw [if_neg hp, Ptr.add_add, Ptr.add_add]
    unfold width
    by_cases hlead : isLead s[i] = true
    · rw [if_pos ((toInt8_lt_zero_iff _).mpr hlead), if_pos hlead]
      exact .refl
    · rw [if_neg fun h => hlead ((toInt8_lt_zero_iff _).mp h), if_neg hlead]
      exact .refl

/-- **The loop of `xe_strstr`** stops at the first boundary from which on the string begins with
`szFind`. -/
theorem strstrLoop_scans (hs : CString.NulFree s) (hf : CString.NulFree f) (hne : f ≠ [])
    (h1 : Holds mem src (s ++ [0])) (h2 : Holds mem szFind (f ++ [0]))
    (hP1 : ∀ i ≤ s.length, P (src.add i)) (hP2 : ∀ i ≤ f.length, P (szFind.add i)) {inner : Nat}
    (hinner : s.length < inner) :
    Scans mem P src s (orEnd f.isPrefixOf)
      (fun i => some (if f <+: s.drop i then some (src.add (i + f.length)) else none))
      (strstrLoop inner szFind) where
  atEnd := rfl
  halt n i hi hstop := by
    by_cases hlt : i = s.length
    · -- the terminator
      subst hlt
      have hget : mem (src.add s.length) = some (0 : UInt8).toInt8 := h1.get (by simp)
      refine .ask (hP1 _ (Nat.le_refl _)) hget ?_
      rw [if_pos (toInt8_eq_zero_iff.mpr rfl), List.drop_length, if_neg (by simpa using hne)]
      exact .refl
    · have hb : s[i]? = some s[i] := List.getElem?_eq_getElem (by omega)
      have hround := strstrLoop_round hs hf h1 h2 hP1 hP2 hinner n hb
      have hp : f <+: s.drop i := by
        rw [orEnd, Bool.or_eq_true, beq_iff_eq, head?_drop_eq_zero_iff hs hi] at hstop
        rw [← prefix_append_zero hf, ← drop_append_zero hi]
        exact List.isPrefixOf_iff_prefix.mp (hstop.resolve_left hlt)
      rw [if_pos hp] at hround ⊢
      exact hround
  next n i b hb hstop := by
    obtain ⟨hlt, -⟩ := List.getElem?_eq_some_iff.mp hb
    have hround := strstrLoop_round hs hf h1 h2 hP1 hP2 hinner n hb
    have hp : ¬ f <+: s.drop i := by
      intro hp
      rw [← prefix_append_zero hf, ← drop_append_zero (Nat.le_of_lt hlt)] at hp
      rw [orEnd, List.isPrefixOf_iff_prefix.mpr hp, Bool.or_true] at hstop
      cases hstop
    rwa [if_neg hp] at hround

/-- **One round of `xe_strchr`**, at a character. -/
theorem strchrLoop_round (hs : CString.NulFree s) (h1 : Holds mem src (s ++ [0]))
    (hP1 : ∀ i ≤ s.length, P (src.add i)) (ch : Int8) (n : Nat) {b : UInt8} (hb : s[i]? = some b) :
    (strchrLoop ch (n + 1) (src.add i)).Leads mem P
      (if b.toInt8 = ch then pure (some (src.add i))
      else strchrLoop ch n (src.add (i + width b))) := by
  obtain ⟨hlt, rfl⟩ := List.getElem?_eq_some_iff.mp hb
  have hi := Nat.le_of_lt hlt
  have hget : mem (src.add i) = some s[i].toInt8 :=
    h1.get (by rw [List.getElem?_append_left hlt, hb])
  have hnz : s[i].toInt8 ≠ 0 := fun h => hs _ (List.getElem_mem hlt) (toInt8_eq_zero_iff.mp h)
  refine .ask (hP1 i hi) hget ?_
  rw [if_neg hnz]
  refine .ask (hP1 i hi) hget ?_
  by_cases hch : s[i].toInt8 = ch
  · rw [if_pos hch, if_pos hch]
    exact .refl
  · rw [if_neg hch, if_neg hch]
    refine .ask (hP1 i hi) hget ?_
    rw [Ptr.add_add, Ptr.add_add]
    unfold width
    by_cases hlead : isLead s[i] = true
    · rw [if_pos ((toInt8_lt_zero_iff _).mpr hlead), if_pos hlead]
      exact .refl
    · rw [if_neg fun h => hlead ((toInt8_lt_zero_iff _).mp h), if_neg hlead]
      exact .refl

/-- The character `ch` stands at the beginning. -/
def beginsWith (ch : Int8) (t : Bytes) : Bool := t.head?.map UInt8.toInt8 == some ch

/-- **The loop of `xe_strchr`** stops at the first character that is `ch`. -/
theorem strchrLoop_scans (hs : CString.NulFree s) (h1 : Holds mem src (s ++ [0]))
    (hP1 : ∀ i ≤ s.length, P (src.add i)) (ch : Int8) :
    Scans mem P src s (orEnd (beginsWith ch)) (fun i => some (src.add i)) (strchrLoop ch) where
  atEnd := rfl
  halt n i hi hstop := by
    by_cases hlt : i = s.length
    · -- the terminator
      subst hlt
      have hget : mem (src.add s.length) = some (0 : UInt8).toInt8 := h1.get (by simp)
      refine .ask (hP1 _ (Nat.le_refl _)) hget ?_
      rw [if_pos (toInt8_eq_zero_iff.mpr rfl)]
      exact .refl
    · have hlt' : i < s.length := by omega
      have hb : s[i]? = some s[i] := List.getElem?_eq_getElem hlt'
      have hround := strchrLoop_round hs h1 hP1 ch n hb
      have hch : s[i].toInt8 = ch := by
        rw [orEnd, Bool.or_eq_true, beq_iff_eq, head?_drop_eq_zero_iff hs hi] at hstop
        have hhead := hstop.resolve_left hlt
        rw [beginsWith, List.head?_drop, List.getElem?_append_left hlt', hb] at hhead
        simpa using hhead
      rwa [if_pos hch] at hround
  next n i b hb hstop := by
    obtain ⟨hlt, -⟩ := List.getElem?_eq_some_iff.mp hb
    have hround := strchrLoop_round hs h1 hP1 ch n hb
    have hch : b.toInt8 ≠ ch := by
      rintro rfl
      rw [orEnd, beginsWith, List.head?_drop, List.getElem?_append_left hlt, hb, Option.map_some,
        BEq.rfl, Bool.or_true] at hstop
      cases hstop
    rwa [if_neg hch] at hround

end

end XeMySql
