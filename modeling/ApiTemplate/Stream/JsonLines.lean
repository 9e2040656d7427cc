import ApiTemplate.Stream.JsonText
import ApiTemplate.Stream.Lines

/-!
# JSON texts on lines

A JSON text in its shortest form holds no control character, so its UTF-8 octets hold no newline. A
file of such texts, each closed by a newline, is cut back into them however much of it has been read.
-/

namespace JsonText

/-! ## Texts without control characters -/

/-- No control character. -/
def Printable (text : List Char) : Prop := ∀ c ∈ text, 32 ≤ c.toNat

theorem Printable.append {s t : List Char} (hs : Printable s) (ht : Printable t) :
    Printable (s ++ t) := by
  intro c hc
  rcases List.mem_append.mp hc with hc | hc
  · exact hs c hc
  · exact ht c hc

theorem Printable.cons {c : Char} {s : List Char} (hc : 32 ≤ c.toNat) (hs : Printable s) :
    Printable (c :: s) := by
  intro d hd
  rcases List.mem_cons.mp hd with rfl | hd
  · exact hc
  · exact hs d hd

theorem printable_nil : Printable [] := fun _ hc => absurd hc List.not_mem_nil

theorem printable_of_all {text : List Char} (h : text.all (fun c => decide (32 ≤ c.toNat)) = true) :
    Printable text :=
  fun c hc => of_decide_eq_true (List.all_eq_true.mp h c hc)

theorem toNat_hexDigit : ∀ n < 16, 32 ≤ (hexDigit n).toNat := by decide

theorem printable_escape (c : Char) : Printable (escape c) := by
  unfold escape
  split_ifs with hquote hslash hcontrol
  · exact .cons (by decide) (.cons (by decide) printable_nil)
  · exact .cons (by decide) (.cons (by decide) printable_nil)
  · exact .cons (by decide) (.cons (by decide) printable_nil)
  · exact .cons (by decide) (.cons (by decide) printable_nil)
  · exact .cons (by decide) (.cons (by decide) printable_nil)
  · exact .cons (by decide) (.cons (by decide) printable_nil)
  · exact .cons (by decide) (.cons (by decide) printable_nil)
  · refine .cons (by decide) (.cons (by decide) (.cons (by decide) (.cons (by decide) ?_)))
    refine .cons (toNat_hexDigit _ (by omega)) (.cons (toNat_hexDigit _ (by omega)) printable_nil)
  · exact .cons (by omega) printable_nil

/-- A string literal holds no control character, whatever it stands for. -/
theorem printable_quote (s : List Char) : Printable (quote s) := by
  refine .cons (by decide) (.append (fun c hc => ?_) (.cons (by decide) printable_nil))
  obtain ⟨d, -, hd⟩ := List.mem_flatMap.mp hc
  exact printable_escape d c hd

theorem printable_intercalate {items : List (List Char)} (h : ∀ item ∈ items, Printable item) :
    Printable ([','].intercalate items) := by
  induction items with
  | nil => exact printable_nil
  | cons item items ih =>
    have hrest := ih fun x hx => h x (List.mem_cons_of_mem item hx)
    cases items with
    | nil => simpa [List.intercalate] using h item List.mem_cons_self
    | cons next items =>
      have hcons : [','].intercalate (item :: next :: items) =
          item ++ ',' :: [','].intercalate (next :: items) := by
        simp [List.intercalate]
      rw [hcons]
      exact (h item List.mem_cons_self).append (.cons (by decide) hrest)

theorem printable_array {items : List (List Char)} (h : ∀ item ∈ items, Printable item) :
    Printable (array items) :=
  .cons (by decide) ((printable_intercalate h).append (.cons (by decide) printable_nil))

theorem printable_member {key value : List Char} (hkey : Printable key) (hvalue : Printable value) :
    Printable (member key value) :=
  hkey.append (.cons (by decide) hvalue)

theorem printable_object {members : List (List Char)} (h : ∀ m ∈ members, Printable m) :
    Printable (object members) :=
  .cons (by decide) ((printable_intercalate h).append (.cons (by decide) printable_nil))

/-! ## Their octets -/

/-- The UTF-8 octets of a text. -/
def octets (text : List Char) : List UInt8 := text.flatMap String.utf8EncodeChar

/-- An object begins and ends with a brace. -/
theorem octets_object (members : List (List Char)) :
    octets (object members) = 123 :: (octets ([','].intercalate members) ++ [125]) := by
  unfold octets object
  rw [List.flatMap_cons, List.flatMap_append]
  rfl

/-- An octet below 128 stands for itself. -/
theorem toNat_of_mem_utf8EncodeChar {b : UInt8} {c : Char} (h : b ∈ String.utf8EncodeChar c)
    (hb : b.toNat < 128) : c.toNat = b.toNat := by
  have hc : c.val.toNat = c.toNat := rfl
  unfold String.utf8EncodeChar at h
  dsimp only at h
  rw [hc] at h
  split_ifs at h
  · rw [List.mem_singleton] at h
    rw [h, UInt8.toNat_ofNat']
    omega
  all_goals
    simp only [List.mem_cons, List.not_mem_nil, or_false] at h
    exfalso
    rcases h with rfl | rfl | rfl | rfl
  all_goals
    rw [UInt8.toNat_ofNat'] at hb
    omega

/-- A text without control characters has none among its octets. -/
theorem Printable.octets {text : List Char} (h : Printable text) {b : UInt8}
    (hb : b ∈ octets text) : 32 ≤ b.toNat := by
  obtain ⟨c, hc, hbc⟩ := List.mem_flatMap.mp hb
  by_cases hlt : b.toNat < 128
  · rw [← toNat_of_mem_utf8EncodeChar hbc hlt]
    exact h c hc
  · omega

end JsonText

namespace Lines

variable {α : Type} [DecidableEq α] {sep : α}

/-- Records that do not hold the separator are read back. -/
theorem complete_join {ls : List (List α)} (h : ∀ l ∈ ls, sep ∉ l) (r : List α) :
    complete sep (join sep ls ++ r) = ls ++ complete sep r := by
  induction ls with
  | nil => rfl
  | cons l ls ih =>
    have hsplit : join sep (l :: ls) ++ r = (l ++ [sep]) ++ (join sep ls ++ r) := by
      simp [join]
    have hline : (l ++ [sep]).splitOn sep = [l] ++ [[]] := by
      rw [splitOn_append_sep, splitOn_of_not_mem sep (h l List.mem_cons_self)]
      rfl
    obtain ⟨hcomplete, hrest⟩ := eq_of_splitOn_eq sep [l] [] hline
    rw [hsplit, complete_append, hcomplete, hrest, List.nil_append,
      ih fun m hm => h m (List.mem_cons_of_mem l hm)]
    rfl

/-- **However much of the stream has been read, the records that are complete are the first of those
that were written.** -/
theorem complete_of_prefix {ls : List (List α)} (h : ∀ l ∈ ls, sep ∉ l) {xs : List α}
    (hxs : xs <+: join sep ls) : complete sep xs <+: ls := by
  obtain ⟨ys, hys⟩ := hxs
  have hall := complete_join h []
  rw [List.append_nil, complete_nil, List.append_nil, ← hys, complete_append] at hall
  exact ⟨_, hall⟩

end Lines
