import Mathlib.Data.Nat.Notation
import Mathlib.Data.List.Basic
import Mathlib.Data.List.Chain
import Mathlib.Tactic.Common

/-!
# UTF-16

Strings of code points, surrogates among them, and their code units. Two surrogates and the
character that they stand for have the same units; strings without surrogates are told apart.
-/

namespace Utf16

abbrev CodePoint : Type := Fin 0x110000

abbrev CodeUnit : Type := Fin 65536

/-- A string may hold any code points. -/
abbrev Str : Type := List CodePoint

def Surrogate (c : CodePoint) : Prop := 0xD800 ≤ c.val ∧ c.val ≤ 0xDFFF

instance : DecidablePred Surrogate := fun _ => inferInstanceAs (Decidable (_ ∧ _))

def NoSurrogates (s : Str) : Prop := ∀ c ∈ s, ¬Surrogate c

instance (s : Str) : Decidable (NoSurrogates s) :=
  inferInstanceAs (Decidable (∀ c ∈ s, ¬Surrogate c))

def encodePoint (c : CodePoint) : List CodeUnit :=
  if h : c.val < 0x10000 then [⟨c.val, h⟩]
  else [⟨0xD800 + (c.val - 0x10000) / 0x400, by omega⟩,
    ⟨0xDC00 + (c.val - 0x10000) % 0x400, by omega⟩]

def encode (s : Str) : List CodeUnit := s.flatMap encodePoint

/-- The code units of ASCII text. -/
def ascii (text : List Char) : List CodeUnit := text.map fun c => Fin.ofNat 65536 c.toNat

/-- Read one code point. -/
def readPoint : List CodeUnit → Option (ℕ × List CodeUnit)
  | [] => none
  | u :: us =>
    if 0xD800 ≤ u.val ∧ u.val < 0xDC00 then
      match us with
      | [] => none
      | v :: us => some (0x10000 + (u.val - 0xD800) * 0x400 + (v.val - 0xDC00), us)
    else some (u.val, us)

theorem readPoint_encodePoint {c : CodePoint} (hc : ¬Surrogate c) (us : List CodeUnit) :
    readPoint (encodePoint c ++ us) = some (c.val, us) := by
  obtain ⟨n, hn⟩ := c
  unfold Surrogate at hc
  unfold encodePoint
  split_ifs with h
  · have hhigh : ¬(0xD800 ≤ n ∧ n < 0xDC00) := by
      rintro ⟨hlow, hup⟩
      have hup' : n ≤ 0xDFFF := by omega
      exact hc ⟨hlow, hup'⟩
    exact if_neg hhigh
  · have hn' : 0x10000 ≤ n := Nat.le_of_not_lt h
    have hhigh : 0xD800 ≤ 0xD800 + (n - 0x10000) / 0x400 ∧
        0xD800 + (n - 0x10000) / 0x400 < 0xDC00 := by omega
    refine (if_pos hhigh).trans ?_
    have hvalue : 0x10000 + (0xD800 + (n - 0x10000) / 0x400 - 0xD800) * 0x400 +
        (0xDC00 + (n - 0x10000) % 0x400 - 0xDC00) = n := by omega
    exact congrArg (fun m => some (m, us)) hvalue

theorem encode_inj {s t : Str} (hs : NoSurrogates s) (ht : NoSurrogates t)
    (h : encode s = encode t) : s = t := by
  induction s generalizing t with
  | nil =>
    cases t with
    | nil => rfl
    | cons d t =>
      have hread := readPoint_encodePoint (ht d (by simp)) (encode t)
      rw [encode, ← List.flatMap_cons, ← encode, ← h] at hread
      cases hread
  | cons c s ih =>
    have hread := readPoint_encodePoint (hs c (by simp)) (encode s)
    rw [encode, ← List.flatMap_cons, ← encode, h] at hread
    cases t with
    | nil => cases hread
    | cons d t =>
      rw [encode, List.flatMap_cons, readPoint_encodePoint (ht d (by simp))] at hread
      obtain ⟨hpoint, hrest⟩ := Prod.mk.inj (Option.some.inj hread)
      obtain rfl := Fin.ext hpoint
      rw [ih (fun c hc => hs c (by simp [hc])) (fun c hc => ht c (by simp [hc])) hrest.symm]

/-! ## Joining surrogates -/

def High (c : CodePoint) : Prop := 0xD800 ≤ c.val ∧ c.val < 0xDC00

def Low (c : CodePoint) : Prop := 0xDC00 ≤ c.val ∧ c.val ≤ 0xDFFF

instance : DecidablePred High := fun _ => inferInstanceAs (Decidable (_ ∧ _))

instance : DecidablePred Low := fun _ => inferInstanceAs (Decidable (_ ∧ _))

def point (n : ℕ) : CodePoint := ⟨n % 0x110000, Nat.mod_lt n (by decide)⟩

/-- The character that two surrogates stand for. -/
def pair (c d : CodePoint) : CodePoint :=
  point (0x10000 + (c.val - 0xD800) * 0x400 + (d.val - 0xDC00))

/-- Two surrogates that follow each other become a character. -/
def join : Str → Str
  | [] => []
  | [c] => [c]
  | c :: d :: s => if High c ∧ Low d then pair c d :: join s else c :: join (d :: s)

/-- Code units as code points. -/
def units (us : List CodeUnit) : Str := us.map (Fin.castLE (by decide))

/-- No surrogates are joined. -/
def Unjoined (s : Str) : Prop := s.IsChain fun c d => ¬(High c ∧ Low d)

instance (s : Str) : Decidable (Unjoined s) := inferInstanceAs (Decidable (List.IsChain _ s))

theorem join_pair {c d : CodePoint} (hc : High c) (hd : Low d) (s : Str) :
    join (c :: d :: s) = pair c d :: join s :=
  if_pos ⟨hc, hd⟩

theorem join_of_not_low {c d : CodePoint} (h : ¬Low d) (s : Str) :
    join (c :: d :: s) = c :: join (d :: s) :=
  if_neg fun hjoined => h hjoined.2

theorem units_encodePoint (c : CodePoint) :
    units (encodePoint c) = [c] ∧ c.val < 0x10000 ∨
      ∃ h l, units (encodePoint c) = [h, l] ∧ High h ∧ Low l ∧ pair h l = c ∧ ¬High c ∧ ¬Low c := by
  obtain ⟨n, hn⟩ := c
  unfold encodePoint
  by_cases hsmall : n < 0x10000
  · rw [dif_pos hsmall]
    exact .inl ⟨rfl, hsmall⟩
  · rw [dif_neg hsmall]
    refine .inr ⟨_, _, rfl, ⟨?_, ?_⟩, ⟨?_, ?_⟩, Fin.ext ?_, fun h => ?_, fun h => ?_⟩
    · show 0xD800 ≤ 0xD800 + (n - 0x10000) / 0x400
      omega
    · show 0xD800 + (n - 0x10000) / 0x400 < 0xDC00
      omega
    · show 0xDC00 ≤ 0xDC00 + (n - 0x10000) % 0x400
      omega
    · show 0xDC00 + (n - 0x10000) % 0x400 ≤ 0xDFFF
      omega
    · show (0x10000 + (0xD800 + (n - 0x10000) / 0x400 - 0xD800) * 0x400 +
        (0xDC00 + (n - 0x10000) % 0x400 - 0xDC00)) % 0x110000 = n
      omega
    · have hlt : n < 0xDC00 := h.2
      omega
    · have hle : n ≤ 0xDFFF := h.2
      omega

/-- The units of a string are joined like the string itself. -/
theorem join_encode (s : Str) : join (units (encode s)) = join s := by
  have hcons : ∀ c s, units (encode (c :: s)) = units (encodePoint c) ++ units (encode s) := by
    intro c s
    rw [units, encode, List.flatMap_cons, List.map_append]
    rfl
  induction s using join.induct with
  | case1 => rfl
  | case2 c =>
    rw [hcons]
    rcases units_encodePoint c with ⟨hunits, -⟩ | ⟨h, l, hunits, hh, hl, hpair, -, -⟩
    · rw [hunits]
      rfl
    · rw [hunits, List.cons_append, List.cons_append, join_pair hh hl, hpair]
      rfl
  | case3 c d s hjoined ih =>
    have hself : ∀ e, High e ∨ Low e → units (encodePoint e) = [e] := by
      intro e he
      rcases units_encodePoint e with ⟨hunits, -⟩ | ⟨_, _, -, -, -, -, hhigh, hlow⟩
      · exact hunits
      · exact absurd he (not_or.mpr ⟨hhigh, hlow⟩)
    rw [hcons, hcons, hself c (.inl hjoined.1), hself d (.inr hjoined.2), List.cons_append,
      List.cons_append, List.nil_append, List.nil_append, join_pair hjoined.1 hjoined.2,
      join_pair hjoined.1 hjoined.2, ih]
  | case4 c d s hjoined ih =>
    have hright : join (c :: d :: s) = c :: join (d :: s) := if_neg hjoined
    rw [hcons, hright, ← ih]
    rcases units_encodePoint c with ⟨hunits, -⟩ | ⟨h, l, hunits, hh, hl, hpair, -, -⟩
    · rw [hunits, hcons d]
      -- the next unit is `d`, or begins a pair
      rcases units_encodePoint d with ⟨hnext, -⟩ | ⟨h, l, hnext, hh, -, -, -, -⟩
      · rw [hnext]
        exact if_neg hjoined
      · rw [hnext]
        exact join_of_not_low (fun hlow => absurd hh.2 (Nat.not_lt.mpr hlow.1)) _
    · rw [hunits, List.cons_append, List.cons_append, join_pair hh hl, hpair]
      rfl

theorem length_join_le (s : Str) : (join s).length ≤ s.length := by
  induction s using join.induct with
  | case1 => exact Nat.le_refl _
  | case2 c => exact Nat.le_refl _
  | case3 c d s hjoined ih =>
    rw [join_pair hjoined.1 hjoined.2]
    exact Nat.succ_le_succ (Nat.le_succ_of_le ih)
  | case4 c d s hjoined ih =>
    rw [join, if_neg hjoined]
    exact Nat.succ_le_succ ih

/-- Strings without a pair of surrogates stay as they are, and no others. -/
theorem join_eq_self_iff (s : Str) : join s = s ↔ Unjoined s := by
  unfold Unjoined
  induction s using join.induct with
  | case1 => exact iff_of_true rfl List.IsChain.nil
  | case2 c => exact iff_of_true rfl (List.IsChain.singleton c)
  | case3 c d s hjoined ih =>
    refine iff_of_false (fun heq => ?_) fun h => (List.isChain_cons_cons.mp h).1 hjoined
    rw [join_pair hjoined.1 hjoined.2] at heq
    have hlength := congrArg List.length heq
    have hle := length_join_le s
    simp only [List.length_cons] at hlength
    omega
  | case4 c d s hjoined ih =>
    rw [join, if_neg hjoined, List.isChain_cons_cons, ← ih, List.cons.injEq, and_iff_right rfl]
    exact (and_iff_right hjoined).symm

/-- A character that surrogates stand for is none. -/
theorem le_pair {c d : CodePoint} (hc : High c) (hd : Low d) : 0x10000 ≤ (pair c d).val := by
  obtain ⟨hlow, hhigh⟩ := hc
  obtain ⟨hlow', hhigh'⟩ := hd
  show 0x10000 ≤ (0x10000 + (c.val - 0xD800) * 0x400 + (d.val - 0xDC00)) % 0x110000
  omega

theorem head_join {c e : CodePoint} {s : Str} (h : e ∈ (join (c :: s)).head?) :
    e = c ∨ ¬Low e := by
  cases s with
  | nil => exact .inl (Option.some.inj h).symm
  | cons d s =>
    rw [join] at h
    split_ifs at h with hjoined
    · refine .inr fun hlow => ?_
      have hle := le_pair hjoined.1 hjoined.2
      have hle' : e.val ≤ 0xDFFF := hlow.2
      rw [← Option.some.inj h] at hle'
      omega
    · exact .inl (Option.some.inj h).symm

/-- Joining once joins all. -/
theorem unjoined_join (s : Str) : Unjoined (join s) := by
  unfold Unjoined
  induction s using join.induct with
  | case1 => exact List.IsChain.nil
  | case2 c => exact List.IsChain.singleton c
  | case3 c d s hjoined ih =>
    rw [join_pair hjoined.1 hjoined.2, List.isChain_cons]
    refine ⟨fun e _ h => ?_, ih⟩
    have hle := le_pair hjoined.1 hjoined.2
    have hlt : (pair c d).val < 0xDC00 := h.1.2
    omega
  | case4 c d s hjoined ih =>
    have hkeep : join (c :: d :: s) = c :: join (d :: s) := if_neg hjoined
    rw [hkeep, List.isChain_cons]
    refine ⟨fun e he h => ?_, ih⟩
    rcases head_join he with rfl | hlow
    · exact hjoined h
    · exact hlow h.2

/-- A pair of surrogates is written like the character it stands for. -/
example : encode [0xD800, 0xDC00] = encode [0x10000] := by decide

end Utf16
