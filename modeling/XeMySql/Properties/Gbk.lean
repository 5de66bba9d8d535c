import XeMySql.Strings

/-!
# Searching GBK text

Where `xe_strstr` and `xe_strchr` stop, for well-formed text and for other text. `xe_strstr` finds what
it should, and returns a pointer behind it.

* `strstr_returns` — what `xe_strstr` returns
* `points_iff`, `contains_iff` — what this says of a match
* `strchr_first` — the first character
* `inside_iff` — when nothing is read behind the terminator
-/

namespace XeMySql

open Interact DoubleByte

/-- The memory holds the string `s`, with its terminator, and `s` has no other. -/
structure IsString (mem : Ptr → Option Int8) (x : Str) (s : Bytes) : Prop where
  nulFree : CString.NulFree s
  holds : Holds mem ⟨x, 0⟩ (s ++ [0])

/-- A search in `s` returns `r`: its loops end when they are given more rounds than `s` has characters,
and then that is what it returns. -/
def Returns {α : Type} (mem : Ptr → Option Int8) (s : Bytes) (p : Nat → Scan (Option α)) (r : α) :
    Prop :=
  ∀ n, s.length < n → (p n).value mem = some (some r)

theorem Returns.unique {α : Type} {mem : Ptr → Option Int8} {s : Bytes} {p : Nat → Scan (Option α)}
    {r r' : α} (h : Returns mem s p r) (h' : Returns mem s p r') : r = r' := by
  have he := (h _ (Nat.lt_succ_self _)).symm.trans (h' _ (Nat.lt_succ_self _))
  simpa using he

/-- A search in `s` stays inside of it: with that many rounds the loops end, and nothing is read behind
the terminator. -/
def StaysInside {α : Type} (mem : Ptr → Option Int8) (s : Bytes) (p : Nat → Scan (Option α)) :
    Prop :=
  ∀ n, s.length < n →
    (p n).Within mem (fun e => e.str = .src → e.off ≤ s.length) fun x => x.isSome

/-- `xe_strstr (src, szFind)` -/
def searchText (n : Nat) : Scan (Option (Option Ptr)) :=
  xeStrstr n (some ⟨.src, 0⟩) (some ⟨.szFind, 0⟩)

/-- `xe_strchr (src, ch)` -/
def searchChar (ch : Int) (n : Nat) : Scan (Option (Option Ptr)) := xeStrchr n (some ⟨.src, 0⟩) ch

/-! ## Where a search stops -/

section

variable {s f : Bytes} {i : Nat} {Q : Bytes → Bool}

/-- A search stops at the first boundary in `Q`, or at the end. -/
theorem stops (hs : CString.NulFree s) (h : firstAt isLead (orEnd Q) (s ++ [0]) = some i) :
    i ≤ s.length ∧ Boundary isLead s i ∧ (i ≠ s.length → Q (s.drop i ++ [0]) = true) ∧
      ∀ j < i, Boundary isLead s j → Q (s.drop j ++ [0]) = false := by
  obtain ⟨hlt, hb, hQ, hleast⟩ := firstAt_eq_some_iff.mp h
  rw [List.length_append, List.length_singleton] at hlt
  have hi : i ≤ s.length := by omega
  refine ⟨hi, (boundary_append hi).mp hb, fun hne => ?_, fun j hj hbj => ?_⟩
  · rw [orEnd, Bool.or_eq_true, beq_iff_eq, head?_drop_eq_zero_iff hs hi, drop_append_zero hi] at hQ
    exact hQ.resolve_left hne
  · have hjle : j ≤ s.length := by omega
    have hno := hleast j hj ((boundary_append hjle).mpr hbj)
    rw [orEnd, drop_append_zero hjle, Bool.or_eq_true, not_or] at hno
    exact Bool.eq_false_iff.mpr hno.2

/-- **It goes past the terminator** when that is taken for the trail of a lead, and no boundary before
is in `Q`. -/
theorem stops_nowhere_iff (hs : CString.NulFree s) :
    firstAt isLead (orEnd Q) (s ++ [0]) = none ↔
      ¬ (Complete isLead s ∨ ∃ i < s.length, Boundary isLead s i ∧ Q (s.drop i ++ [0]) = true) := by
  rw [firstAt_eq_none_iff, complete_iff_boundary, List.length_append, List.length_singleton]
  constructor
  · rintro hall (hb | ⟨i, hi, hb, hQ⟩)
    · have hno := hall s.length (Nat.lt_succ_self _) ((boundary_append (Nat.le_refl _)).mpr hb)
      rw [List.drop_left] at hno
      cases hno
    · have hno := hall i (by omega) ((boundary_append (Nat.le_of_lt hi)).mpr hb)
      rw [orEnd, drop_append_zero (Nat.le_of_lt hi), hQ, Bool.or_true] at hno
      cases hno
  · intro hno i hi hb
    have hi' : i ≤ s.length := by omega
    have hb := (boundary_append hi').mp hb
    rw [Bool.eq_false_iff]
    intro hstop
    rw [orEnd, Bool.or_eq_true, beq_iff_eq, head?_drop_eq_zero_iff hs hi', drop_append_zero hi'] at hstop
    rcases hstop with rfl | hQ
    · exact hno (Or.inl hb)
    · by_cases hlt : i < s.length
      · exact hno (Or.inr ⟨i, hlt, hb, hQ⟩)
      · obtain rfl : i = s.length := by omega
        exact hno (Or.inl hb)

theorem isPrefixOf_append_zero (hf : CString.NulFree f) (t : Bytes) :
    f.isPrefixOf (t ++ [0]) = true ↔ f <+: t := by
  rw [List.isPrefixOf_iff_prefix, prefix_append_zero hf]

/-- A string that is not empty begins before the end. -/
theorem lt_of_prefix_drop (hne : f ≠ []) (h : f <+: s.drop i) : i < s.length := by
  by_contra hge
  rw [List.drop_of_length_le (Nat.le_of_not_lt hge), List.prefix_nil] at h
  exact hne h

end

section

variable {mem : Ptr → Option Int8} {s f : Bytes}

/-- The bounds within which a search should read. -/
theorem inside (i : Nat) (hi : i ≤ s.length) :
    (Ptr.add ⟨.src, 0⟩ i).str = .src → (Ptr.add ⟨.src, 0⟩ i).off ≤ s.length := by
  intro _
  rw [Ptr.off_add, Nat.zero_add]
  exact hi

/-- `xe_strstr` goes into its loop. -/
theorem searchText_leads (hf : IsString mem .szFind f) (hne : f ≠ []) (n : Nat) {P : Ptr → Prop}
    (hP : P ⟨.szFind, 0⟩) :
    (searchText n).Leads mem P (strstrLoop n ⟨.szFind, 0⟩ n ⟨.src, 0⟩) := by
  obtain ⟨b, f, rfl⟩ := List.exists_cons_of_ne_nil hne
  have hb : b.toInt8 ≠ 0 := fun h =>
    (CString.nulFree_cons.mp hf.nulFree).1 (toInt8_eq_zero_iff.mp h)
  refine .ask hP hf.holds.1 ?_
  rw [if_neg hb]
  exact .refl

/-- The loop of `xe_strstr` on the two strings. -/
theorem searchText_scans (hs : IsString mem .src s) (hf : IsString mem .szFind f) (hne : f ≠ [])
    {n : Nat} (hn : s.length < n) :
    Scans mem (fun e => e.str = .src → e.off ≤ s.length) ⟨.src, 0⟩ s (orEnd f.isPrefixOf)
      (fun i => some (if f <+: s.drop i then some ⟨.src, 0 + (i + f.length)⟩ else none))
      (strstrLoop n ⟨.szFind, 0⟩) :=
  strstrLoop_scans hs.nulFree hf.nulFree hne hs.holds hf.holds inside (fun _ _ => nofun) hn

/-- **What `xe_strstr` comes to**: the match at the boundary where it stops, or nothing. -/
theorem searchText_stops (hs : IsString mem .src s) (hf : IsString mem .szFind f) (hne : f ≠ [])
    {i : Nat} (hi : firstAt isLead (orEnd f.isPrefixOf) (s ++ [0]) = some i) {n : Nat}
    (hn : s.length < n) :
    (searchText n).Leads mem (fun e => e.str = .src → e.off ≤ s.length)
      (pure (some (if f <+: s.drop i then some ⟨.src, i + f.length⟩ else none))) := by
  have hrun := ((searchText_scans hs hf hne hn).run (i := 0) (n := n) rfl (Nat.zero_le _) (by omega)
    (by omega)).found i hi
  rw [Nat.zero_add, Nat.zero_add] at hrun
  exact (searchText_leads hf hne n nofun).trans hrun

/-- In a complete string, a search stops. -/
theorem stops_of_complete (hs : CString.NulFree s) (hc : Complete isLead s) (Q : Bytes → Bool) :
    ∃ i, firstAt isLead (orEnd Q) (s ++ [0]) = some i := by
  rw [← Option.ne_none_iff_exists']
  intro h
  exact (stops_nowhere_iff hs).mp h (Or.inl hc)

/-- **What `xe_strstr` returns** for a complete string: nothing, when it does not contain `szFind` from
a boundary on, and else a pointer behind the first match. -/
theorem strstr_returns (hs : IsString mem .src s) (hf : IsString mem .szFind f) (hne : f ≠ [])
    (hc : Complete isLead s) :
    ((∀ i, Boundary isLead s i → ¬ f <+: s.drop i) ∧ Returns mem s searchText none) ∨
      ∃ i, IsFirst isLead (f <+: ·) s i ∧ Returns mem s searchText (some ⟨.src, i + f.length⟩) := by
  obtain ⟨i, hi⟩ := stops_of_complete hs.nulFree hc f.isPrefixOf
  obtain ⟨hle, hb, hmatch, hleast⟩ := stops hs.nulFree hi
  have hret : Returns mem s searchText
      (if f <+: s.drop i then some ⟨.src, i + f.length⟩ else none) := fun n hn =>
    (searchText_stops hs hf hne hi hn).value
  have hno : ∀ j < i, Boundary isLead s j → ¬ f <+: s.drop j := by
    intro j hj hbj hp
    have hfalse := hleast j hj hbj
    rw [(isPrefixOf_append_zero hf.nulFree _).mpr hp] at hfalse
    cases hfalse
  by_cases hp : f <+: s.drop i
  · rw [if_pos hp] at hret
    exact Or.inr ⟨i, ⟨lt_of_prefix_drop hne hp, hb, hp, hno⟩, hret⟩
  · rw [if_neg hp] at hret
    refine Or.inl ⟨fun j hbj hpj => ?_, hret⟩
    -- the search has stopped at the end
    have hend : i = s.length := by
      by_contra hlt
      exact hp ((isPrefixOf_append_zero hf.nulFree _).mp (hmatch hlt))
    exact hno j (hend ▸ lt_of_prefix_drop hne hpj) hbj hpj

/-! ## Matches -/

/-- Whenever `xe_strstr` returns a pointer, it points at the first match at a boundary. -/
def PointsAtMatch (mem : Ptr → Option Int8) (s f : Bytes) : Prop :=
  ∀ p, Returns mem s searchText (some p) → ∃ i, p = ⟨.src, i⟩ ∧ IsFirst isLead (f <+: ·) s i

/-- **When `xe_strstr` points at the match**: when there is none. -/
theorem points_iff (hs : IsString mem .src s) (hf : IsString mem .szFind f) (hne : f ≠ [])
    (hcs : Complete isLead s) :
    PointsAtMatch mem s f ↔ ∀ i, Boundary isLead s i → ¬ f <+: s.drop i := by
  rcases strstr_returns hs hf hne hcs with ⟨hno, hret⟩ | ⟨i, hfirst, hret⟩
  · refine iff_of_true (fun p hp => ?_) hno
    cases hret.unique hp
  · refine iff_of_false (fun hpoints => ?_) fun hno => hno i hfirst.boundary hfirst.holds
    obtain ⟨j, hj, hfirst'⟩ := hpoints _ hret
    obtain rfl : i + f.length = j := by simpa using hj
    have hpos := List.length_pos_of_ne_nil hne
    exact hfirst'.least i (by omega) hfirst.boundary hfirst.holds

/-- `"ab"` and `"a"`: the match is at 0, and 1 is returned. -/
theorem points_behind :
    Complete isLead [97, 98] ∧ Complete isLead [97] ∧
      ¬ PointsAtMatch (memory [97, 98] [] [97]) [97, 98] [97] := by
  refine ⟨by decide, by decide, fun h => ?_⟩
  have hret : Returns (memory [97, 98] [] [97]) [97, 98] searchText (some ⟨.src, 1⟩) := by
    intro n hn
    obtain ⟨n, rfl⟩ : ∃ m, n = m + 3 := ⟨n - 3, by simp at hn; omega⟩
    rfl
  obtain ⟨i, hi, hfirst⟩ := h _ hret
  cases hi
  exact absurd hfirst.holds (by decide)

theorem isString_src {s rest f : Bytes} (hs : CString.NulFree s) :
    IsString (memory s rest f) .src s :=
  ⟨hs, memory_src s rest f⟩

theorem isString_szFind {s rest f : Bytes} (hf : CString.NulFree f) :
    IsString (memory s rest f) .szFind f :=
  ⟨hf, memory_szFind s rest f⟩

/-- A double-byte character with the trail `a`, which does not count, and `a`. -/
theorem points_trail :
    PointsAtMatch (memory [0xD6, 97, 98] [] [97]) [0xD6, 97, 98] [97] ↔
      ∀ i, Boundary isLead [0xD6, 97, 98] i → ¬ ([97] : Bytes) <+: [0xD6, 97, 98].drop i :=
  points_iff (s := [0xD6, 97, 98]) (f := [97]) (isString_src (by decide))
    (isString_szFind (by decide)) (by decide) (by decide)

/-- **`xe_strstr` decides whether the characters of `szFind` stand in a row in `src`.** -/
theorem contains_iff (hs : IsString mem .src s) (hf : IsString mem .szFind f) (hne : f ≠ [])
    (hcs : Complete isLead s) (hcf : Complete isLead f) :
    ∃ r, Returns mem s searchText r ∧ (r ≠ none ↔ chars isLead f <:+: chars isLead s) := by
  rcases strstr_returns hs hf hne hcs with ⟨hno, hret⟩ | ⟨i, hfirst, hret⟩
  · refine ⟨none, hret, iff_of_false (by simp) ?_⟩
    rw [infix_iff hcf]
    rintro ⟨i, hb, hp⟩
    exact hno i hb hp
  · refine ⟨_, hret, iff_of_true nofun ?_⟩
    rw [infix_iff hcf]
    exact ⟨i, hfirst.boundary, hfirst.holds⟩

theorem contains_second :
    ∃ r, Returns (memory [0xD6, 97, 97] [] [97]) [0xD6, 97, 97] searchText r ∧
      (r ≠ none ↔ chars isLead [97] <:+: chars isLead [0xD6, 97, 97]) :=
  contains_iff (isString_src (by decide)) (isString_szFind (by decide)) (by decide) (by decide)
    (by decide)

end

/-! ## Characters -/

section

variable {mem : Ptr → Option Int8} {s f : Bytes} {ch : Int}

/-- The `char` at a position; behind the last one is the terminator. -/
def charAt (s : Bytes) (i : Nat) : Int8 := ((s[i]?).getD 0).toInt8

/-- The byte at `i` is the trail of a double-byte character. -/
def TrailByte (s : Bytes) (i : Nat) : Prop :=
  ∃ j b, i = j + 1 ∧ Boundary isLead s j ∧ s[j]? = some b ∧ isLead b = true

theorem beginsWith_drop_iff {c : Int8} {i : Nat} (hi : i ≤ s.length) :
    beginsWith c (s.drop i ++ [0]) = true ↔ charAt s i = c := by
  rw [beginsWith, beq_iff_eq, ← drop_append_zero hi, List.head?_drop, charAt]
  by_cases hlt : i < s.length
  · rw [List.getElem?_append_left hlt, List.getElem?_eq_getElem hlt]
    simp
  · obtain rfl : i = s.length := by omega
    simp

/-- **What `xe_strchr` comes to**: the boundary where it stops, if the character there is `ch`. -/
theorem searchChar_stops (hs : IsString mem .src s) {i : Nat}
    (hi : firstAt isLead (orEnd (beginsWith (Int8.ofInt ch))) (s ++ [0]) = some i) {n : Nat}
    (hn : s.length < n) :
    (searchChar ch n).Leads mem (fun e => e.str = .src → e.off ≤ s.length)
      (pure (some (if charAt s i = Int8.ofInt ch then some ⟨.src, i⟩ else none))) := by
  have hscan := strchrLoop_scans (P := fun e => e.str = .src → e.off ≤ s.length) hs.nulFree hs.holds
    inside (Int8.ofInt ch)
  have hrun := (hscan.run (i := 0) (n := n) rfl (Nat.zero_le _) (by omega) (by omega)).found i hi
  obtain ⟨hle, -⟩ := stops hs.nulFree hi
  rw [Nat.zero_add] at hrun
  have hget : mem (Ptr.add ⟨.src, 0⟩ i) = some (charAt s i) := by
    refine hs.holds.get ?_
    by_cases hlt : i < s.length
    · rw [List.getElem?_append_left hlt, List.getElem?_eq_getElem hlt, Option.getD_some]
    · obtain rfl : i = s.length := by omega
      simp
  refine (hrun.bind (f := _)).trans (.ask (inside i hle) hget ?_)
  rw [show Ptr.add ⟨.src, 0⟩ i = ⟨.src, i⟩ by simp [Ptr.add]]
  split <;> exact .refl

/-- **`xe_strchr` returns the first character that is `ch`**, the terminator included, and nothing when
there is none. It never returns the trail of another character. -/
theorem strchr_first (hs : IsString mem .src s) (hc : Complete isLead s) (ch : Int) :
    ∃ r, Returns mem s (searchChar ch) r ∧
      (∀ p, r = some p → ∃ i ≤ s.length, p = ⟨.src, i⟩ ∧ Boundary isLead s i ∧
        charAt s i = Int8.ofInt ch ∧ (∀ j < i, Boundary isLead s j → charAt s j ≠ Int8.ofInt ch) ∧
        ¬ TrailByte s i) ∧
      (r = none → ∀ i ≤ s.length, Boundary isLead s i → charAt s i ≠ Int8.ofInt ch) := by
  obtain ⟨i, hi⟩ := stops_of_complete hs.nulFree hc (beginsWith (Int8.ofInt ch))
  obtain ⟨hle, hb, hmatch, hleast⟩ := stops hs.nulFree hi
  have hno : ∀ j < i, Boundary isLead s j → charAt s j ≠ Int8.ofInt ch := by
    intro j hj hbj hch
    have hfalse := hleast j hj hbj
    rw [(beginsWith_drop_iff (by omega)).mpr hch] at hfalse
    cases hfalse
  refine ⟨_, fun n hn => (searchChar_stops hs hi hn).value, fun p hp => ?_, fun hnone j hj hbj hch => ?_⟩
  · split at hp
    · next hch =>
      cases hp
      refine ⟨i, hle, rfl, hb, hch, hno, ?_⟩
      rintro ⟨j, b, rfl, hbj, hget, hlead⟩
      exact hbj.not_trail hget hlead hb
    · cases hp
  · have hi' : charAt s i ≠ Int8.ofInt ch := by
      intro h
      rw [if_pos h] at hnone
      cases hnone
    -- the search has stopped at the end
    have hend : i = s.length := by
      by_contra hlt
      exact hi' ((beginsWith_drop_iff hle).mp (hmatch hlt))
    rcases Nat.lt_or_ge j i with hlt | hge
    · exact hno j hlt hbj hch
    · obtain rfl : j = i := by omega
      exact hi' hch

/-- The terminator is found, behind a trail that is `a`. -/
theorem strchr_terminator :
    ∃ r, Returns (memory [0xD6, 97] [] []) [0xD6, 97] (searchChar 256) r ∧
      (∀ p, r = some p → ∃ i ≤ 2, p = ⟨.src, i⟩ ∧ Boundary isLead [0xD6, 97] i ∧
        charAt [0xD6, 97] i = Int8.ofInt 256 ∧
        (∀ j < i, Boundary isLead [0xD6, 97] j → charAt [0xD6, 97] j ≠ Int8.ofInt 256) ∧
        ¬ TrailByte [0xD6, 97] i) ∧
      (r = none → ∀ i ≤ 2, Boundary isLead [0xD6, 97] i →
        charAt [0xD6, 97] i ≠ Int8.ofInt 256) :=
  strchr_first (isString_src (by decide)) (by decide) 256

/-! ## Bounds -/

/-- The code reads within the string. -/
abbrev Bounded (s : Bytes) (e : Ptr) : Prop := e.str = .src → e.off ≤ s.length

/-- **A search stays inside** if and only if it stops: from where it does not stop it comes to read
behind the terminator. -/
theorem within_iff_stops {α : Type} {Q : Bytes → Bool} {p : Scan (Option α)}
    (hsome : ∀ i, firstAt isLead (orEnd Q) (s ++ [0]) = some i →
      ∃ r, p.Leads mem (Bounded s) (pure (some r)))
    (hnone : firstAt isLead (orEnd Q) (s ++ [0]) = none → Ptr.add ⟨.src, 0⟩ (s.length + 1) ∈ p.reads mem)
    (hs : CString.NulFree s) :
    p.Within mem (Bounded s) (fun x => x.isSome) ↔
      Complete isLead s ∨ ∃ i < s.length, Boundary isLead s i ∧ Q (s.drop i ++ [0]) = true := by
  constructor
  · intro hw
    by_contra hno
    have hbound := (Prog.within_iff.mp hw).1 _ (hnone ((stops_nowhere_iff hs).mpr hno)) rfl
    rw [Ptr.off_add] at hbound
    omega
  · intro hstop
    obtain ⟨i, hi⟩ := Option.ne_none_iff_exists'.mp fun h => (stops_nowhere_iff hs).mp h hstop
    obtain ⟨r, hr⟩ := hsome i hi
    exact hr.within rfl

/-- `xe_strstr` stays inside of a string that is complete, or contains `szFind`. -/
theorem searchText_inside_iff (hs : IsString mem .src s) (hf : IsString mem .szFind f) :
    StaysInside mem s searchText ↔
      Complete isLead s ∨ ∃ i, Boundary isLead s i ∧ f <+: s.drop i := by
  by_cases hne : f = []
  · -- nothing of `src` is read
    subst hne
    refine iff_of_true (fun n _ => ?_) (Or.inr ⟨0, .start _, List.nil_prefix⟩)
    refine Prog.within_ask nofun hf.holds.1 ?_
    rw [if_pos (toInt8_eq_zero_iff.mpr rfl)]
    rfl
  · have hwithin : ∀ n, s.length < n → ((searchText n).Within mem (Bounded s) (fun x => x.isSome) ↔
        Complete isLead s ∨
          ∃ i < s.length, Boundary isLead s i ∧ f.isPrefixOf (s.drop i ++ [0]) = true) := by
      intro n hn
      refine within_iff_stops (fun i hi => ⟨_, searchText_stops hs hf hne hi hn⟩) (fun hi => ?_)
        hs.nulFree
      have hrun := (searchText_scans hs hf hne hn).run (i := 0) (n := n) rfl (Nat.zero_le _)
        (by omega) (by omega)
      obtain ⟨m, hm⟩ := hrun.missed hi
      have hleads := (searchText_leads (P := Bounded s) hf hne n nofun).trans hm
      exact hleads.reads_subset (Prog.mem_reads_op ..)
    have hmatch : (∃ i < s.length, Boundary isLead s i ∧ f.isPrefixOf (s.drop i ++ [0]) = true) ↔
        ∃ i, Boundary isLead s i ∧ f <+: s.drop i := by
      refine exists_congr fun i => ?_
      rw [isPrefixOf_append_zero hf.nulFree]
      exact ⟨fun h => h.2, fun h => ⟨lt_of_prefix_drop hne h.2, h⟩⟩
    rw [← hmatch]
    exact ⟨fun h => (hwithin _ (Nat.lt_succ_self _)).mp (h _ (Nat.lt_succ_self _)),
      fun h n hn => (hwithin n hn).mpr h⟩

/-- `xe_strchr` stays inside of a string that is complete, or has the character. -/
theorem searchChar_inside_iff (hs : IsString mem .src s) (ch : Int) :
    StaysInside mem s (searchChar ch) ↔
      Complete isLead s ∨ ∃ i < s.length, Boundary isLead s i ∧ charAt s i = Int8.ofInt ch := by
  have hwithin : ∀ n, s.length < n →
      ((searchChar ch n).Within mem (Bounded s) (fun x => x.isSome) ↔ Complete isLead s ∨
        ∃ i < s.length, Boundary isLead s i ∧
          beginsWith (Int8.ofInt ch) (s.drop i ++ [0]) = true) := by
    intro n hn
    refine within_iff_stops (fun i hi => ⟨_, searchChar_stops hs hi hn⟩) (fun hi => ?_) hs.nulFree
    have hrun := (strchrLoop_scans (P := Bounded s) hs.nulFree hs.holds inside (Int8.ofInt ch)).run
      (i := 0) (n := n) rfl (Nat.zero_le _) (by omega) (by omega)
    obtain ⟨m, hm⟩ := hrun.missed hi
    exact Prog.reads_subset_bind _ _ (hm.reads_subset (Prog.mem_reads_op ..))
  have hmatch : (∃ i < s.length, Boundary isLead s i ∧
        beginsWith (Int8.ofInt ch) (s.drop i ++ [0]) = true) ↔
      ∃ i < s.length, Boundary isLead s i ∧ charAt s i = Int8.ofInt ch := by
    refine exists_congr fun i => and_congr_right fun hi => ?_
    rw [beginsWith_drop_iff (Nat.le_of_lt hi)]
  rw [← hmatch]
  exact ⟨fun h => (hwithin _ (Nat.lt_succ_self _)).mp (h _ (Nat.lt_succ_self _)),
    fun h n hn => (hwithin n hn).mpr h⟩

/-- **When the two searches stay inside of the string**: when its last character is complete, or both
stop before it. -/
theorem inside_iff (hs : IsString mem .src s) (hf : IsString mem .szFind f) (ch : Int) :
    StaysInside mem s searchText ∧ StaysInside mem s (searchChar ch) ↔
      Complete isLead s ∨ (∃ i, Boundary isLead s i ∧ f <+: s.drop i) ∧
        ∃ i < s.length, Boundary isLead s i ∧ charAt s i = Int8.ofInt ch := by
  rw [searchText_inside_iff hs hf, searchChar_inside_iff hs ch, ← or_and_left]

/-- A lone lead, with `a` behind the terminator. -/
theorem inside_lone :
    ¬ (StaysInside (memory [0x81] [97, 0] [97]) [0x81] searchText ∧
      StaysInside (memory [0x81] [97, 0] [97]) [0x81] (searchChar 97)) := by
  rintro ⟨h, -⟩
  have hbound := (Prog.within_iff.mp (h 2 (by decide))).1 ⟨.src, 2⟩ (by decide) rfl
  exact absurd hbound (by decide)

theorem inside_found :
    StaysInside (memory [97, 0x81] [97, 0] [97]) [97, 0x81] searchText ∧
        StaysInside (memory [97, 0x81] [97, 0] [97]) [97, 0x81] (searchChar 98) ↔
      Complete isLead [97, 0x81] ∨
        (∃ i, Boundary isLead [97, 0x81] i ∧ ([97] : Bytes) <+: [97, 0x81].drop i) ∧
          ∃ i < 2, Boundary isLead [97, 0x81] i ∧ charAt [97, 0x81] i = Int8.ofInt 98 :=
  inside_iff (s := [97, 0x81]) (f := [97]) (isString_src (by decide))
    (isString_szFind (by decide)) 98

end

end XeMySql
