import Mathlib.Computability.RegularExpressions

/-!
# Patterns

Classes of characters, `+`, `?` and lists with a separator over the regular expressions of Mathlib,
and the texts that they match.
-/

namespace Regex

open RegularExpression

variable {α : Type}

/-! ## Combinators -/

/-- One of some characters. -/
def oneOf (cs : List α) : RegularExpression α := (cs.map char).foldr (· + ·) 0

/-- `P?` -/
def opt (P : RegularExpression α) : RegularExpression α := 1 + P

/-- `P+` -/
def plus (P : RegularExpression α) : RegularExpression α := P * P.star

/-- `P(?:,P)*` -/
def sepBy (sep : α) (P : RegularExpression α) : RegularExpression α := P * (char sep * P).star

/-- `[a-b]` -/
def range (a b : Char) : List Char :=
  (List.range (b.toNat + 1 - a.toNat)).map fun i => Char.ofNat (a.toNat + i)

theorem mem_range {a b c : Char} (hb : b.toNat < 0xD800) : c ∈ range a b ↔ a ≤ c ∧ c ≤ b := by
  unfold range
  rw [List.mem_map]
  constructor
  · rintro ⟨i, hi, rfl⟩
    have hlt : a.toNat + i < 0xD800 := by
      have hi := List.mem_range.mp hi
      omega
    have hnat : (Char.ofNat (a.toNat + i)).toNat = a.toNat + i := by
      unfold Char.ofNat
      rw [dif_pos (.inl hlt)]
      rfl
    constructor
    · show a.toNat ≤ (Char.ofNat (a.toNat + i)).toNat
      omega
    · show (Char.ofNat (a.toNat + i)).toNat ≤ b.toNat
      have hi := List.mem_range.mp hi
      omega
  · rintro ⟨hac, hcb⟩
    have hac : a.toNat ≤ c.toNat := hac
    have hcb : c.toNat ≤ b.toNat := hcb
    refine ⟨c.toNat - a.toNat, List.mem_range.mpr (by omega), ?_⟩
    rw [Nat.add_sub_cancel' hac, Char.ofNat_toNat]

/-! ## Their texts -/

theorem mem_char {c : α} {w : List α} : w ∈ (char c).matches' ↔ w = [c] := by
  rw [matches'_char]
  exact Set.mem_singleton_iff

theorem mem_oneOf {cs : List α} {w : List α} :
    w ∈ (oneOf cs).matches' ↔ ∃ c ∈ cs, w = [c] := by
  induction cs with
  | nil =>
    constructor
    · exact False.elim
    · rintro ⟨c, hc, -⟩
      exact absurd hc List.not_mem_nil
  | cons c cs ih =>
    have hsum : oneOf (c :: cs) = char c + oneOf cs := rfl
    rw [hsum, matches'_add, Language.mem_add, mem_char, ih]
    simp

theorem mem_opt {P : RegularExpression α} {w : List α} :
    w ∈ (opt P).matches' ↔ w = [] ∨ w ∈ P.matches' := by
  rw [opt, matches'_add, Language.mem_add, matches'_epsilon, Language.mem_one]

/-- The texts of one or more characters of a class. -/
theorem mem_plus_oneOf {cs : List α} {w : List α} :
    w ∈ (plus (oneOf cs)).matches' ↔ w ≠ [] ∧ ∀ c ∈ w, c ∈ cs := by
  rw [plus, matches'_mul, Language.mem_mul, matches'_star]
  constructor
  · rintro ⟨a, ha, b, hb, rfl⟩
    obtain ⟨c, hc, rfl⟩ := mem_oneOf.mp ha
    obtain ⟨pieces, rfl, hpieces⟩ := Language.mem_kstar.mp hb
    refine ⟨List.cons_ne_nil _ _, ?_⟩
    intro d hd
    rcases List.mem_cons.mp hd with rfl | hd
    · exact hc
    · obtain ⟨piece, hpiece, hd⟩ := List.mem_flatten.mp hd
      obtain ⟨e, he, rfl⟩ := mem_oneOf.mp (hpieces piece hpiece)
      rw [List.mem_singleton.mp hd]
      exact he
  · rintro ⟨hne, hall⟩
    obtain ⟨c, w, rfl⟩ := List.exists_cons_of_ne_nil hne
    obtain ⟨hc, hw⟩ := List.forall_mem_cons.mp hall
    refine ⟨[c], mem_oneOf.mpr ⟨c, hc, rfl⟩, w, Language.mem_kstar.mpr ⟨w.map fun d => [d], ?_, ?_⟩,
      rfl⟩
    · exact (List.flatMap_singleton' w).symm
    · rintro piece hpiece
      obtain ⟨d, hd, rfl⟩ := List.mem_map.mp hpiece
      exact mem_oneOf.mpr ⟨d, hw d hd, rfl⟩

/-- The texts of a list: non-empty lists of texts, joined by the separator. -/
theorem mem_sepBy {sep : α} {P : RegularExpression α} {w : List α} :
    w ∈ (sepBy sep P).matches' ↔
      ∃ parts ≠ [], w = [sep].intercalate parts ∧ ∀ p ∈ parts, p ∈ P.matches' := by
  rw [sepBy, matches'_mul, Language.mem_mul, matches'_star]
  constructor
  · rintro ⟨a, ha, b, hb, rfl⟩
    obtain ⟨pieces, rfl, hpieces⟩ := Language.mem_kstar.mp hb
    clear hb
    induction pieces generalizing a with
    | nil => exact ⟨[a], List.cons_ne_nil _ _, by simp, by simpa using ha⟩
    | cons piece pieces ih =>
      obtain ⟨hpiece, hrest⟩ := List.forall_mem_cons.mp hpieces
      rw [matches'_mul, Language.mem_mul] at hpiece
      obtain ⟨s, hs, c, hc, rfl⟩ := hpiece
      obtain rfl := mem_char.mp hs
      obtain ⟨parts, hne, hjoin, hparts⟩ := ih c hc hrest
      refine ⟨a :: parts, List.cons_ne_nil _ _, ?_, List.forall_mem_cons.mpr ⟨ha, hparts⟩⟩
      obtain ⟨q, qs, rfl⟩ := List.exists_cons_of_ne_nil hne
      rw [List.intercalate_cons_cons, ← hjoin]
      simp
  · rintro ⟨parts, hne, rfl, hparts⟩
    induction parts with
    | nil => exact absurd rfl hne
    | cons p parts ih =>
      obtain ⟨hp, hparts⟩ := List.forall_mem_cons.mp hparts
      cases parts with
      | nil => exact ⟨p, hp, [], Language.mem_kstar.mpr ⟨[], rfl, by simp⟩, by simp⟩
      | cons q parts =>
        obtain ⟨a, ha, b, hb, hjoin⟩ := ih (List.cons_ne_nil _ _) hparts
        obtain ⟨pieces, rfl, hpieces⟩ := Language.mem_kstar.mp hb
        refine ⟨p, hp, [sep] ++ a ++ pieces.flatten,
          Language.mem_kstar.mpr ⟨([sep] ++ a) :: pieces, rfl, ?_⟩, ?_⟩
        · refine List.forall_mem_cons.mpr ⟨?_, hpieces⟩
          rw [matches'_mul, Language.mem_mul]
          exact ⟨[sep], mem_char.mpr rfl, a, ha, rfl⟩
        · rw [List.intercalate_cons_cons, ← hjoin]
          simp

end Regex
