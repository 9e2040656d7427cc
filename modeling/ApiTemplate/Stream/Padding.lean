import ApiTemplate.Stream.Numerals

/-!
# Digits of a fixed width

Numbers written with leading zeros. The texts of `n` digits and the numbers below `10 ^ n` are in
bijection: a number is read back from its text, and every text is that of its number.
-/

namespace Padding

open Numerals

/-- `text.zfill(width)`; the zeros stand behind a sign. -/
def zfill (text : List Char) (width : ℕ) : List Char :=
  let zeros := List.replicate (width - text.length) '0'
  match text with
  | [] => zeros
  | c :: rest => if c = '+' ∨ c = '-' then c :: (zeros ++ rest) else zeros ++ c :: rest

/-- `f"{k:0{width}d}"` -/
def pad (width k : ℕ) : List Char := zfill (decimal k) width

/-- The number of a text of digits. -/
def value (text : List Char) : ℕ := Nat.ofDigits 10 (text.reverse.map fun c => c.toNat - 48)

/-- A text of `n` digits of ASCII. -/
structure IsDigits (n : ℕ) (text : List Char) : Prop where
  length : text.length = n
  digit : ∀ c ∈ text, asciiDigit c = true

instance (n : ℕ) (text : List Char) : Decidable (IsDigits n text) :=
  decidable_of_iff (text.length = n ∧ text.all asciiDigit = true)
    ⟨fun h => ⟨h.1, List.all_eq_true.mp h.2⟩, fun h => ⟨h.length, List.all_eq_true.mpr h.digit⟩⟩

/-! ## Digits and characters -/

theorem asciiDigit_iff {c : Char} : asciiDigit c = true ↔ 48 ≤ c.toNat ∧ c.toNat ≤ 57 := by
  rw [asciiDigit, Bool.and_eq_true, decide_eq_true_eq, decide_eq_true_eq]

theorem digitChar_toNat_sub {c : Char} (h : asciiDigit c = true) :
    digitChar (c.toNat - 48) = c := by
  obtain ⟨hlow, hhigh⟩ := asciiDigit_iff.mp h
  rw [← toNat_eq_iff, digitChar_toNat (by omega)]
  omega

theorem asciiDigit_digitChar {d : ℕ} (h : d < 10) : asciiDigit (digitChar d) = true := by
  rw [asciiDigit_iff, digitChar_toNat h]
  omega

/-- The characters of digits, the last first. -/
def render (digits : List ℕ) : List Char := (digits.map digitChar).reverse

theorem isDigits_render {digits : List ℕ} (h : ∀ d ∈ digits, d < 10) :
    IsDigits digits.length (render digits) where
  length := by rw [render, List.length_reverse, List.length_map]
  digit c hc := by
    obtain ⟨d, hd, rfl⟩ := List.mem_map.mp (List.mem_reverse.mp hc)
    exact asciiDigit_digitChar (h d hd)

/-! ## Padded numbers -/

theorem zfill_of_asciiDigit {text : List Char} (h : ∀ c ∈ text, asciiDigit c = true) (width : ℕ) :
    zfill text width = List.replicate (width - text.length) '0' ++ text := by
  cases text with
  | nil => exact (List.append_nil _).symm
  | cons c rest =>
    have hc := asciiDigit_iff.mp (h c List.mem_cons_self)
    refine if_neg ?_
    rintro (rfl | rfl)
    · exact absurd hc.1 (by decide)
    · exact absurd hc.1 (by decide)

theorem pad_eq (width k : ℕ) :
    pad width k = List.replicate (width - (decimal k).length) '0' ++ decimal k :=
  zfill_of_asciiDigit (fun _ hc => asciiDigit_of_mem_decimal hc) width

/-- The digits of a padded number, zero included. -/
theorem pad_eq_render {width : ℕ} (hwidth : 0 < width) (k : ℕ) :
    pad width k = render (Nat.digitsAppend 10 width k) := by
  rw [pad_eq]
  unfold decimal render Nat.digitsAppend
  by_cases hk : k = 0
  · obtain ⟨w, rfl⟩ := Nat.exists_eq_succ_of_ne_zero hwidth.ne'
    rw [if_pos hk, hk, Nat.digits_zero, List.nil_append, List.map_replicate, List.reverse_replicate]
    exact List.replicate_succ'.symm
  · rw [if_neg hk, List.map_append, List.reverse_append, List.map_replicate, List.reverse_replicate,
      List.length_reverse, List.length_map]
    rfl

theorem isDigits_pad {width k : ℕ} (hwidth : 0 < width) (hk : k < 10 ^ width) :
    IsDigits width (pad width k) := by
  have hdigits := isDigits_render fun d hd =>
    Nat.lt_of_mem_digitsAppend (n := k) (by decide : 1 < 10) width d hd
  rw [Nat.length_digitsAppend (by decide) width hk] at hdigits
  rw [pad_eq_render hwidth]
  exact hdigits

theorem asciiDigit_of_mem_pad {width k : ℕ} {c : Char} (h : c ∈ pad width k) :
    asciiDigit c = true := by
  rw [pad_eq, List.mem_append] at h
  rcases h with hzero | hdigit
  · rw [(List.mem_replicate.mp hzero).2]
    rfl
  · exact asciiDigit_of_mem_decimal hdigit

theorem pad_ne_nil (width k : ℕ) : pad width k ≠ [] := by
  rw [pad_eq]
  exact List.append_ne_nil_of_right_ne_nil _ (decimal_ne_nil k)

/-! ## Texts of digits -/

section

variable {n : ℕ} {text : List Char}

/-- The digits of a text, the last first. -/
theorem IsDigits.values (h : IsDigits n text) :
    (text.reverse.map fun c => c.toNat - 48) ∈ {L : List ℕ | L.length = n ∧ ∀ x ∈ L, x < 10} := by
  refine ⟨by rw [List.length_map, List.length_reverse, h.length], ?_⟩
  rw [List.forall_mem_map]
  intro c hc
  have hbounds := asciiDigit_iff.mp (h.digit c (List.mem_reverse.mp hc))
  omega

theorem IsDigits.value_lt (h : IsDigits n text) : value text < 10 ^ n :=
  Nat.mapsTo_ofDigits (by decide) n h.values

/-- Every text of digits is that of its number. -/
theorem IsDigits.pad_value (h : IsDigits n text) (hn : 0 < n) : pad n (value text) = text := by
  have hdigits : Nat.digitsAppend 10 n (value text) = text.reverse.map fun c => c.toNat - 48 :=
    (Nat.setInvOn_digitsAppend_ofDigits (by decide) n).1 h.values
  have hback : (text.reverse.map fun c => c.toNat - 48).map digitChar = text.reverse := by
    rw [List.map_map]
    refine (List.map_congr_left fun c hc => ?_).trans (List.map_id _)
    exact digitChar_toNat_sub (h.digit c (List.mem_reverse.mp hc))
  rw [pad_eq_render hn, hdigits, render, hback, List.reverse_reverse]

end

theorem value_append (text rest : List Char) :
    value (text ++ rest) = value text * 10 ^ rest.length + value rest := by
  unfold value
  rw [List.reverse_append, List.map_append, Nat.ofDigits_append, List.length_map,
    List.length_reverse, Nat.mul_comm, Nat.add_comm]

/-- Zeros are worth nothing. -/
theorem value_zeros (zeros : ℕ) : value (List.replicate zeros '0') = 0 := by
  induction zeros with
  | zero => rfl
  | succ zeros ih =>
    rw [List.replicate_succ', value_append, ih, Nat.zero_mul]
    rfl

/-- Leading zeros do not count. -/
theorem value_zeros_append (zeros : ℕ) (text : List Char) :
    value (List.replicate zeros '0' ++ text) = value text := by
  rw [value_append, value_zeros, Nat.zero_mul, Nat.zero_add]

theorem value_decimal (n : ℕ) : value (decimal n) = n := ofDigits_decimal n

/-- A number is read back. -/
theorem value_pad (width k : ℕ) : value (pad width k) = k := by
  rw [pad_eq, value_zeros_append, value_decimal]

end Padding
