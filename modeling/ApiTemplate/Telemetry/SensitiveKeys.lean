import ApiTemplate.Telemetry.TextSecrets
import Mathlib.Data.Bool.AllAny

/-!
# Keys of a text

A key and its value in a text: the structured masker searches for a word anywhere in the key, the
masker of texts needs one next to the separator.
-/

namespace ApiTemplate.Telemetry

open Substitution

/-- The key ends in a word of the text pattern. -/
def EndsInWord (key : List Char) : Prop := ∃ front w, key = front ++ w ∧ IsWord w

/-- A separator between a key and a value: `=`, or `:` and a blank. -/
def IsPairSeparator (sep : List Char) : Prop := sep = ['='] ∨ sep = [':', ' ']

theorem endsInWord_cons {c : Char} {key : List Char} :
    EndsInWord (c :: key) ↔ IsWord (c :: key) ∨ EndsInWord key := by
  constructor
  · rintro ⟨front, w, hkey, hw⟩
    rcases front with _ | ⟨d, front⟩
    · exact .inl (hkey ▸ hw)
    · exact .inr ⟨front, w, (List.cons.inj hkey).2, hw⟩
  · rintro (hw | ⟨front, w, rfl, hw⟩)
    · exact ⟨[], c :: key, rfl, hw⟩
    · exact ⟨c :: front, w, rfl, hw⟩

theorem not_endsInWord_nil : ¬ EndsInWord [] := by
  rintro ⟨front, w, h, hw⟩
  exact hw.ne_nil (List.append_eq_nil_iff.mp h.symm).2

/-- What joins a key and a value has no character of a key. -/
theorem IsJoint.not_isKeyChar {joint : List Char} (h : IsJoint joint) :
    ∀ c ∈ joint, ¬ IsKeyChar c := by
  obtain ⟨quote, gap, sep, gap', quote', rfl, hquote, hgap, hsep, hgap', hquote'⟩ := h
  have hno : ∀ c, ¬ IsSeparator c ∧ isSecretChar c = false → ¬ IsKeyChar c := fun c hc hkey =>
    Bool.false_ne_true (hc.2.symm.trans hkey.1)
  intro c hc
  rcases List.mem_append.mp hc with hc | hc
  · exact hno c (hquote.not_isSeparator c hc)
  rcases List.mem_append.mp hc with hc | hc
  · exact hno c (not_isSeparator_of_isSpace (hgap c hc))
  rcases List.mem_cons.mp hc with rfl | hc
  · exact fun hkey => hkey.2 hsep
  rcases List.mem_append.mp hc with hc | hc
  · exact hno c (not_isSeparator_of_isSpace (hgap' c hc))
  · exact hno c (hquote'.not_isSeparator c hc)

theorem IsJoint.exists_cons {joint : List Char} (h : IsJoint joint) :
    ∃ c rest, joint = c :: rest ∧ ¬ IsKeyChar c := by
  have hne : joint ≠ [] := by
    obtain ⟨quote, gap, sep, gap', quote', rfl, -⟩ := h
    simp
  obtain ⟨c, rest, rfl⟩ := List.exists_cons_of_ne_nil hne
  exact ⟨c, rest, rfl, h.not_isKeyChar c List.mem_cons_self⟩

/-- A match at the start of a key, with something else behind the key, has the key for its word. -/
theorem isWord_of_find {key text : List Char} (hkey : ∀ c ∈ key, IsKeyChar c)
    (htext : ∀ c ∈ text.head?, ¬ IsKeyChar c)
    (h : secretRule.find (key ++ text) ≠ none) : IsWord key := by
  obtain ⟨⟨g, rest⟩, hfind⟩ := Option.ne_none_iff_exists'.mp h
  obtain ⟨secret, hsplit, ⟨w, joint, rfl, hw, hjoint⟩, -⟩ := secretAt_eq_some.mp hfind
  obtain ⟨c, behind, rfl, hc⟩ := hjoint.exists_cons
  rw [List.append_assoc] at hsplit
  have heq := append_inj_of_not (P := IsKeyChar) hsplit hkey
    (fun d hd => (isKeyChar_of_mem_word hw hd).1) htext (by rintro d ⟨⟩; exact hc)
  rw [heq]
  exact hw

/-- No match begins with what is no character of a key. -/
theorem find_of_not_isKeyChar {c : Char} {text : List Char} (hc : ¬ IsKeyChar c) :
    secretRule.find (c :: text) = none := by
  by_contra h
  obtain ⟨⟨g, rest⟩, hfind⟩ := Option.ne_none_iff_exists'.mp h
  obtain ⟨secret, hsplit, hg, -⟩ := secretAt_eq_some.mp hfind
  obtain ⟨d, g, rfl, hd⟩ := hg.exists_cons
  obtain ⟨rfl, -⟩ := List.cons.inj hsplit
  exact hc hd

/-- Without a word at its end, a key is left as it is. -/
theorem sub_key_of_not {key text : List Char} (hkey : ∀ c ∈ key, IsKeyChar c)
    (htext : ∀ c ∈ text.head?, ¬ IsKeyChar c) (h : ¬ EndsInWord key) :
    secretRule.sub (key ++ text) = key ++ secretRule.sub text := by
  induction key with
  | nil => rfl
  | cons c key ih =>
    rw [endsInWord_cons, not_or] at h
    have hfind : secretRule.find (c :: (key ++ text)) = none := by
      by_contra hsome
      exact h.1 (isWord_of_find hkey htext hsome)
    rw [List.cons_append, Rule.sub_keep hfind, ih (List.forall_mem_cons.mp hkey).2 h.2]
    rfl

/-- The first word at the end of a key makes a group with what joins it. -/
theorem sub_key_of_endsInWord {key joint secret rest : List Char}
    (hkey : ∀ c ∈ key, IsKeyChar c) (hjoint : IsJoint joint) (hne : secret ≠ [])
    (hsecret : ∀ c ∈ secret, isSecretChar c = true)
    (hrest : ∀ c ∈ rest.head?, isSecretChar c = false) (h : EndsInWord key) :
    secretRule.sub (key ++ (joint ++ (secret ++ rest))) =
      key ++ (joint ++ (REDACTED.toList ++ secretRule.sub rest)) := by
  induction key with
  | nil => exact absurd h not_endsInWord_nil
  | cons c key ih =>
    by_cases hw : IsWord (c :: key)
    · have hfind : secretRule.find (c :: key ++ (joint ++ (secret ++ rest))) =
          some (c :: key ++ joint, rest) :=
        secretAt_eq_some.mpr ⟨secret, by simp only [List.append_assoc],
          ⟨c :: key, joint, rfl, hw, hjoint⟩, hne, hsecret, hrest⟩
      rw [Rule.sub_replace hfind, List.append_assoc]
      rfl
    · obtain ⟨d, behind, rfl, hd⟩ := hjoint.exists_cons
      have hfind : secretRule.find (c :: (key ++ (d :: behind ++ (secret ++ rest)))) = none := by
        by_contra hsome
        refine hw (isWord_of_find hkey ?_ hsome)
        rintro e ⟨⟩
        exact hd
      rw [List.cons_append, Rule.sub_keep hfind, ih (List.forall_mem_cons.mp hkey).2
        ((endsInWord_cons.mp h).resolve_left hw)]
      rfl

theorem IsPairSeparator.isJoint {sep : List Char} (h : IsPairSeparator sep) : IsJoint sep := by
  rcases h with rfl | rfl
  · exact ⟨[], [], '=', [], [], rfl, .inl rfl, by simp, .inl rfl, by simp, .inl rfl⟩
  · refine ⟨[], [], ':', [' '], [], rfl, .inl rfl, by simp, .inr rfl, fun c hc => ?_, .inl rfl⟩
    obtain rfl := List.mem_singleton.mp hc
    decide

theorem sub_pairSeparator {sep : List Char} (h : IsPairSeparator sep) (text : List Char) :
    secretRule.sub (sep ++ text) = sep ++ secretRule.sub text := by
  rcases h with rfl | rfl
  · exact Rule.sub_keep (find_of_not_isKeyChar (by decide))
  · refine (Rule.sub_keep (find_of_not_isKeyChar (by decide))).trans (congrArg _ ?_)
    exact Rule.sub_keep (find_of_not_isKeyChar (by decide))

/-- Nothing but asterisks comes from nothing but asterisks. -/
theorem eq_of_sub_stars {text : List Char} (h : ∀ c ∈ secretRule.sub text, c = '*') :
    secretRule.sub text = text := by
  induction text using Rule.scan_induction (R := secretRule) with
  | nil => rfl
  | keep c text hfind ih =>
    rw [Rule.sub_keep hfind] at h ⊢
    rw [ih (List.forall_mem_cons.mp h).2]
  | replace group run rest hfind ih =>
    have hgroup := isGroup_of_find hfind
    obtain ⟨c, g, rfl, -⟩ := hgroup.exists_cons
    rw [Rule.sub_replace hfind] at h
    obtain rfl := h c List.mem_cons_self
    exact absurd List.mem_cons_self hgroup.star_not_mem

theorem sub_redacted : secretRule.sub REDACTED.toList = REDACTED.toList := by rfl

/-- A pair of a key and a value is hidden if and only if the key ends in a word of the text pattern,
or the value is the mark. -/
theorem maskText_pair_iff (k sep v : String) (hk : ∀ c ∈ k.toList, IsKeyChar c)
    (hsep : IsPairSeparator sep.toList) (hne : v ≠ "")
    (hv : ∀ c ∈ v.toList, isSecretChar c = true) :
    maskText (k ++ sep ++ v) = k ++ sep ++ REDACTED ↔ EndsInWord k.toList ∨ v = REDACTED := by
  have hne' : v.toList ≠ [] := fun h => hne (String.toList_inj.mp h)
  rw [← String.toList_inj, toList_maskText, ← String.toList_inj]
  simp only [String.toList_append, List.append_assoc]
  by_cases hword : EndsInWord k.toList
  · have hnil : ∀ c ∈ ([] : List Char).head?, isSecretChar c = false := by simp
    have hsub := sub_key_of_endsInWord hk hsep.isJoint hne' hv hnil hword
    rw [List.append_nil, Rule.sub_nil, List.append_nil] at hsub
    exact iff_of_true hsub (.inl hword)
  · have hhead : ∀ c ∈ (sep.toList ++ v.toList).head?, ¬ IsKeyChar c := by
      obtain ⟨c, behind, hcons, hc⟩ := hsep.isJoint.exists_cons
      rw [hcons]
      rintro d ⟨⟩
      exact hc
    rw [sub_key_of_not hk hhead hword, sub_pairSeparator hsep, List.append_cancel_left_eq,
      List.append_cancel_left_eq, or_iff_right hword]
    constructor
    · intro h
      have hstars : ∀ c ∈ secretRule.sub v.toList, c = '*' := fun c hc => eq_star_of_mem (h ▸ hc)
      rw [← eq_of_sub_stars hstars, h]
    · rintro h
      rw [h]
      exact sub_redacted

theorem maskText_token : maskText "x_token: abc" = "x_token: ***" :=
  (maskText_pair_iff "x_token" ": " "abc" (List.all_iff_forall_prop.mp (by decide)) (.inr rfl)
    (by decide) (List.all_iff_forall_prop.mp (by decide))).mpr
    (.inl ⟨"x_".toList, "token".toList, rfl, "token", by decide, by decide⟩)

/-- The Kelvin sign is a `k` in another case. -/
example : maskText "to\u212aen=abc" = "to\u212aen=***" := by decide +kernel

/-- The number of a card is under a sensitive key, but not hidden. -/
theorem not_maskText_card : isSensitiveKey (.str "card") = true ∧
    maskText ("card" ++ "=" ++ "4111") ≠ "card" ++ "=" ++ REDACTED := by
  constructor
  · decide
  · decide

end ApiTemplate.Telemetry
