import ApiTemplate.Stream.Ascii
import ApiTemplate.Stream.Substitution
import ApiTemplate.Telemetry.Masking
import Mathlib.Data.List.TakeWhile

/-!
# Secrets of a text

The matches of `_TEXT_SECRET_RE`: a group, that is a word, a separator and what may stand around it,
and the run of characters behind it. In a masked text every group has the mark behind it, so a
second pass changes nothing.
-/

namespace ApiTemplate.Telemetry

open Substitution

/-! ## Groups -/

/-- A word of the pattern, in any case. -/
def IsWord (w : List Char) : Prop := ∃ word ∈ textWords, w.map foldCase = word.toList

/-- `["']?` -/
def IsQuote (q : List Char) : Prop := q = [] ∨ q = ['"'] ∨ q = ['\'']

/-- `[=:]` -/
def IsSeparator (c : Char) : Prop := c = '=' ∨ c = ':'

instance : DecidablePred IsSeparator := fun _ => inferInstanceAs (Decidable (_ ∨ _))

/-- What the first group matches behind its word. -/
def IsJoint (joint : List Char) : Prop :=
  ∃ quote gap sep gap' quote', joint = quote ++ (gap ++ sep :: (gap' ++ quote')) ∧
    IsQuote quote ∧ (∀ c ∈ gap, isSpace c = true) ∧ IsSeparator sep ∧
    (∀ c ∈ gap', isSpace c = true) ∧ IsQuote quote'

/-- What the first group matches. -/
def IsGroup (g : List Char) : Prop := ∃ word joint, g = word ++ joint ∧ IsWord word ∧ IsJoint joint

theorem afterWord_eq_some {word text rest : List Char} :
    afterWord word text = some rest ↔ ∃ w, text = w ++ rest ∧ w.map foldCase = word := by
  induction word generalizing text with
  | nil => simp [afterWord, eq_comm]
  | cons c word ih =>
    simp only [List.map_eq_cons_iff]
    cases text with
    | nil => simp [afterWord]
    | cons d text =>
      rw [afterWord]
      split_ifs with hfold
      · rw [ih]
        constructor
        · rintro ⟨w, rfl, rfl⟩
          exact ⟨d :: w, rfl, d, w, rfl, hfold, rfl⟩
        · rintro ⟨_, htext, d, w, rfl, -, rfl⟩
          exact ⟨w, (List.cons.inj htext).2, rfl⟩
      · refine iff_of_false id ?_
        rintro ⟨_, htext, d', w, rfl, hd, -⟩
        obtain rfl := (List.cons.inj htext).1
        exact hfold hd

/-- No word of the pattern begins with another. -/
theorem textWords_prefix_free :
    ∀ a ∈ textWords, ∀ b ∈ textWords, a.toList <+: b.toList → a = b := by
  decide

theorem exists_isWord_of_afterSome {text rest : List Char}
    (h : afterSome textWords text = some rest) : ∃ w, IsWord w ∧ text = w ++ rest := by
  obtain ⟨word, hword, hafter⟩ := List.exists_of_findSome?_eq_some h
  obtain ⟨w, htext, hmap⟩ := afterWord_eq_some.mp hafter
  exact ⟨w, ⟨word, hword, hmap⟩, htext⟩

/-- A text begins with one word of the pattern at most. -/
theorem IsWord.eq_of_prefix {v w : List Char} (hv : IsWord v) (hw : IsWord w) (h : v <+: w) :
    v = w := by
  obtain ⟨a, ha, hva⟩ := hv
  obtain ⟨b, hb, hwb⟩ := hw
  have hab := textWords_prefix_free a ha b hb (hva ▸ hwb ▸ h.map foldCase)
  have hlength := congrArg List.length (hva.trans ((congrArg String.toList hab).trans hwb.symm))
  rw [List.length_map, List.length_map] at hlength
  exact h.eq_of_length hlength

theorem IsWord.eq_of_append {v w rest rest' : List Char} (hv : IsWord v) (hw : IsWord w)
    (h : v ++ rest = w ++ rest') : v = w := by
  rcases List.prefix_or_prefix_of_prefix (List.prefix_append v rest)
    (h ▸ List.prefix_append w rest') with hpre | hpre
  · exact hv.eq_of_prefix hw hpre
  · exact (hw.eq_of_prefix hv hpre).symm

theorem afterSome_append {w : List Char} (h : IsWord w) (rest : List Char) :
    afterSome textWords (w ++ rest) = some rest := by
  obtain ⟨word, hword, hmap⟩ := h
  have hsome : (afterSome textWords (w ++ rest)).isSome := by
    rw [afterSome, List.findSome?_isSome_iff]
    exact ⟨word, hword, by rw [afterWord_eq_some.mpr ⟨w, rfl, hmap⟩]; rfl⟩
  obtain ⟨rest', hrest'⟩ := Option.isSome_iff_exists.mp hsome
  obtain ⟨w', hw', hsplit⟩ := exists_isWord_of_afterSome hrest'
  obtain rfl := IsWord.eq_of_append ⟨word, hword, hmap⟩ hw' hsplit
  rw [hrest', List.append_cancel_left hsplit]

theorem skipQuote_split (text : List Char) : ∃ q, IsQuote q ∧ text = q ++ skipQuote text := by
  rcases text with _ | ⟨c, text⟩
  · exact ⟨[], .inl rfl, rfl⟩
  · by_cases hc : c = '"' ∨ c = '\''
    · refine ⟨[c], ?_, by rw [skipQuote, if_pos hc]; rfl⟩
      rcases hc with rfl | rfl
      · exact .inr (.inl rfl)
      · exact .inr (.inr rfl)
    · exact ⟨[], .inl rfl, by rw [skipQuote, if_neg hc]; rfl⟩

theorem skipQuote_append {q rest : List Char} (hq : IsQuote q)
    (h : ∀ c ∈ rest.head?, c ≠ '"' ∧ c ≠ '\'') : skipQuote (q ++ rest) = rest := by
  rcases hq with rfl | rfl | rfl
  · rcases rest with _ | ⟨c, rest⟩
    · rfl
    · exact if_neg (not_or.mpr (h c rfl))
  · rfl
  · rfl

theorem dropWhile_isSpace_append {gap rest : List Char} (hgap : ∀ c ∈ gap, isSpace c = true)
    (h : ∀ c ∈ rest.head?, isSpace c = false) : (gap ++ rest).dropWhile isSpace = rest := by
  rw [List.dropWhile_append_of_pos hgap]
  rcases rest with _ | ⟨c, rest⟩
  · rfl
  · rw [List.dropWhile_cons_of_neg]
    rw [h c rfl]
    exact Bool.false_ne_true

theorem ne_quote_of_isSpace {c : Char} (h : isSpace c = true) : c ≠ '"' ∧ c ≠ '\'' := by
  constructor <;> rintro rfl <;> exact absurd h (by decide)

theorem isSecretChar_of_isSpace {c : Char} (h : isSpace c = true) : isSecretChar c = false := by
  simp [isSecretChar, h]

theorem not_isSpace_of_isSeparator {c : Char} (h : IsSeparator c) :
    isSpace c = false ∧ c ≠ '"' ∧ c ≠ '\'' := by
  rcases h with rfl | rfl <;> decide

/-- White space separates nothing, and is in no secret. -/
theorem not_isSeparator_of_isSpace {c : Char} (h : isSpace c = true) :
    ¬ IsSeparator c ∧ isSecretChar c = false := by
  refine ⟨fun hsep => ?_, isSecretChar_of_isSpace h⟩
  rw [(not_isSpace_of_isSeparator hsep).1] at h
  cases h

/-- A quote separates nothing either, and is in no secret. -/
theorem IsQuote.not_isSeparator {q : List Char} (hq : IsQuote q) :
    ∀ c ∈ q, ¬ IsSeparator c ∧ isSecretChar c = false := by
  intro c hc
  rcases hq with rfl | rfl | rfl
  · cases hc
  · obtain rfl := List.mem_singleton.mp hc
    decide
  · obtain rfl := List.mem_singleton.mp hc
    decide

theorem not_isSpace_of_isSecretChar {c : Char} (h : isSecretChar c = true) :
    isSpace c = false ∧ c ≠ '"' ∧ c ≠ '\'' := by
  simp only [isSecretChar, Bool.and_eq_true, Bool.not_eq_true', decide_eq_true_eq] at h
  exact ⟨h.1.1.1.1.1, h.1.1.2, h.1.2⟩

section

variable {secret rest : List Char} (hsecret : ∀ c ∈ secret, isSecretChar c = true)
  (hrest : ∀ c ∈ rest.head?, isSecretChar c = false)

include hsecret hrest

theorem takeWhile_append_run : (secret ++ rest).takeWhile isSecretChar = secret := by
  rw [List.takeWhile_append_of_pos hsecret]
  rcases rest with _ | ⟨c, rest⟩
  · exact List.append_nil secret
  · rw [List.takeWhile_cons_of_neg (by rw [hrest c rfl]; exact Bool.false_ne_true),
      List.append_nil]

theorem dropWhile_append_run : (secret ++ rest).dropWhile isSecretChar = rest := by
  rw [List.dropWhile_append_of_pos hsecret]
  rcases rest with _ | ⟨c, rest⟩
  · rfl
  · exact List.dropWhile_cons_of_neg (by rw [hrest c rfl]; exact Bool.false_ne_true)

end

/-! ## Matches -/

/-- The match behind a word. -/
theorem secretAt_of_word {w : List Char} (hw : IsWord w) (text : List Char) :
    secretAt (w ++ text) =
      match (skipQuote text).dropWhile isSpace with
      | [] => none
      | c :: afterSeparator =>
        if c = '=' ∨ c = ':' then
          let secret := skipQuote (afterSeparator.dropWhile isSpace)
          if secret.takeWhile isSecretChar = [] then none
          else some ((w ++ text).take ((w ++ text).length - secret.length),
            secret.dropWhile isSecretChar)
        else none := by
  rw [secretAt, afterSome_append hw]
  rfl

/-- What a match has found. -/
theorem exists_of_secretAt {text g rest : List Char} (h : secretAt text = some (g, rest)) :
    ∃ secret, text = g ++ (secret ++ rest) ∧ IsGroup g ∧ secret ≠ [] ∧
      (∀ c ∈ secret, isSecretChar c = true) ∧ ∀ c ∈ rest.head?, isSecretChar c = false := by
  obtain ⟨behind, hword, -⟩ := Option.bind_eq_some_iff.mp h
  obtain ⟨w, hw, rfl⟩ := exists_isWord_of_afterSome hword
  rw [secretAt_of_word hw] at h
  obtain ⟨quote, hquote, hbehind⟩ := skipQuote_split behind
  have hgap := List.takeWhile_append_dropWhile (p := isSpace) (l := skipQuote behind)
  rcases hjoint : (skipQuote behind).dropWhile isSpace with _ | ⟨sep, tail⟩
  · rw [hjoint] at h
    cases h
  simp only [hjoint] at h
  split_ifs at h with hsep hsecret
  obtain ⟨quote', hquote', htail⟩ := skipQuote_split (tail.dropWhile isSpace)
  have hgap' := List.takeWhile_append_dropWhile (p := isSpace) (l := tail)
  have hrun := List.takeWhile_append_dropWhile (p := isSecretChar)
    (l := skipQuote (tail.dropWhile isSpace))
  obtain ⟨hg, rfl⟩ := Prod.mk.inj (Option.some.inj h)
  generalize skipQuote (tail.dropWhile isSpace) = found at *
  -- the pieces of the match, from the left
  have htext : w ++ behind = (w ++ (quote ++ ((skipQuote behind).takeWhile isSpace ++
      sep :: (tail.takeWhile isSpace ++ quote')))) ++ found := by
    rw [hjoint] at hgap
    rw [htail] at hgap'
    calc w ++ behind
      _ = w ++ (quote ++ ((skipQuote behind).takeWhile isSpace ++ sep :: tail)) := by
        rw [hgap, ← hbehind]
      _ = _ := by
        conv_lhs => rw [← hgap']
        simp only [List.append_assoc, List.cons_append]
  rw [htext, List.length_append, Nat.add_sub_cancel, List.take_left] at hg
  refine ⟨found.takeWhile isSecretChar, ?_, ?_, hsecret, ?_, ?_⟩
  · rw [hrun, ← hg, htext]
  · rw [← hg]
    exact ⟨w, _, rfl, hw, quote, _, sep, _, quote', rfl, hquote,
      fun c hc => List.mem_takeWhile_imp hc, hsep, fun c hc => List.mem_takeWhile_imp hc, hquote'⟩
  · exact fun c hc => List.mem_takeWhile_imp hc
  · intro c hc
    have hnot := List.head?_dropWhile_not isSecretChar found
    rw [hc] at hnot
    exact hnot

/-- A group and a secret behind it are a match. -/
theorem secretAt_of_group {g secret rest : List Char} (hg : IsGroup g) (hne : secret ≠ [])
    (hsecret : ∀ c ∈ secret, isSecretChar c = true)
    (hrest : ∀ c ∈ rest.head?, isSecretChar c = false) :
    secretAt (g ++ (secret ++ rest)) = some (g, rest) := by
  obtain ⟨w, joint, rfl, hw, quote, gap, sep, gap', quote', rfl, hquote, hgap, hsep, hgap',
    hquote'⟩ := hg
  have hhead : ∀ c ∈ (secret ++ rest).head?, isSecretChar c = true := by
    obtain ⟨x, secret, rfl⟩ := List.exists_cons_of_ne_nil hne
    rintro c ⟨⟩
    exact hsecret x List.mem_cons_self
  have hgapHead : ∀ c ∈ (gap ++ sep :: (gap' ++ (quote' ++ (secret ++ rest)))).head?,
      c ≠ '"' ∧ c ≠ '\'' := by
    rcases gap with _ | ⟨d, gap⟩
    · rintro c ⟨⟩
      exact (not_isSpace_of_isSeparator hsep).2
    · rintro c ⟨⟩
      exact ne_quote_of_isSpace (hgap d List.mem_cons_self)
  have hsepHead : ∀ c ∈ (sep :: (gap' ++ (quote' ++ (secret ++ rest)))).head?,
      isSpace c = false := by
    rintro c ⟨⟩
    exact (not_isSpace_of_isSeparator hsep).1
  have hquoteHead : ∀ c ∈ (quote' ++ (secret ++ rest)).head?, isSpace c = false := by
    rcases hquote' with rfl | rfl | rfl
    · exact fun c hc => (not_isSpace_of_isSecretChar (hhead c hc)).1
    · rintro c ⟨⟩
      decide
    · rintro c ⟨⟩
      decide
  have hsecretHead : ∀ c ∈ (secret ++ rest).head?, c ≠ '"' ∧ c ≠ '\'' :=
    fun c hc => (not_isSpace_of_isSecretChar (hhead c hc)).2
  have hgroup : w ++ (quote ++ (gap ++ sep :: (gap' ++ (quote' ++ (secret ++ rest))))) =
      (w ++ (quote ++ (gap ++ sep :: (gap' ++ quote')))) ++ (secret ++ rest) := by
    simp only [List.append_assoc, List.cons_append]
  simp only [List.append_assoc, List.cons_append]
  rw [secretAt_of_word hw, skipQuote_append hquote hgapHead,
    dropWhile_isSpace_append hgap hsepHead]
  simp only [dropWhile_isSpace_append hgap' hquoteHead, skipQuote_append hquote' hsecretHead,
    takeWhile_append_run hsecret hrest, dropWhile_append_run hsecret hrest, if_neg hne]
  refine (if_pos hsep).trans ?_
  rw [hgroup, List.length_append, Nat.add_sub_cancel, List.take_left]

theorem secretAt_eq_some {text g rest : List Char} :
    secretAt text = some (g, rest) ↔ ∃ secret, text = g ++ (secret ++ rest) ∧ IsGroup g ∧
      secret ≠ [] ∧ (∀ c ∈ secret, isSecretChar c = true) ∧
      ∀ c ∈ rest.head?, isSecretChar c = false := by
  constructor
  · exact exists_of_secretAt
  · rintro ⟨secret, rfl, hg, hne, hsecret, hrest⟩
    exact secretAt_of_group hg hne hsecret hrest

/-- A group with a character of a secret behind it is a match. -/
theorem secretAt_isSome {g text : List Char} (hg : IsGroup g)
    (h : ∃ c ∈ text.head?, isSecretChar c = true) : (secretAt (g ++ text)).isSome := by
  obtain ⟨c, hc, hsecret⟩ := h
  have hne : text.takeWhile isSecretChar ≠ [] := by
    rcases text with _ | ⟨d, text⟩
    · cases hc
    · obtain rfl : d = c := Option.some.inj hc
      rw [List.takeWhile_cons_of_pos hsecret]
      exact List.cons_ne_nil _ _
  have hmatch : secretAt (g ++ text) = some (g, text.dropWhile isSecretChar) := by
    refine secretAt_eq_some.mpr ⟨_, by rw [List.takeWhile_append_dropWhile], hg, hne,
      fun c hc => List.mem_takeWhile_imp hc, fun c hc => ?_⟩
    have hnot := List.head?_dropWhile_not isSecretChar text
    rw [hc] at hnot
    exact hnot
  rw [hmatch]
  rfl

/-! ## The substitution -/

/-- `_TEXT_SECRET_RE`, with its replacement -/
def secretRule : Rule Char where
  inRun := isSecretChar
  mark := REDACTED.toList
  find := secretAt
  find_split h := by
    obtain ⟨secret, htext, -, hne, hsecret, hrest⟩ := secretAt_eq_some.mp h
    exact ⟨secret, htext, hne, hsecret, hrest⟩

theorem isGroup_of_find {text g rest : List Char}
    (h : secretRule.find text = some (g, rest)) : IsGroup g := by
  obtain ⟨-, -, hg, -⟩ := secretAt_eq_some.mp h
  exact hg

theorem subSecrets_eq (fuel : ℕ) (text : List Char) :
    subSecrets fuel text = secretRule.subFuel fuel text := by
  induction fuel generalizing text with
  | zero => rfl
  | succ fuel ih =>
    rcases text with _ | ⟨c, text⟩
    · rfl
    have hfind : secretRule.find (c :: text) = secretAt (c :: text) := rfl
    rw [subSecrets, Rule.subFuel, hfind]
    rcases secretAt (c :: text) with _ | ⟨group, rest⟩
    · exact congrArg (c :: ·) (ih text)
    · simp only [ih, List.append_assoc]
      rfl

theorem maskText_eq (text : String) :
    maskText text = String.ofList (secretRule.sub text.toList) := by
  rw [maskText, subSecrets_eq]
  rfl

theorem toList_maskText (text : String) : (maskText text).toList = secretRule.sub text.toList := by
  rw [maskText_eq, String.toList_ofList]

/-! ## The characters of a group -/

/-- A character of a secret that separates nothing. -/
def IsKeyChar (c : Char) : Prop := isSecretChar c = true ∧ ¬ IsSeparator c

instance : DecidablePred IsKeyChar := fun _ => inferInstanceAs (Decidable (_ ∧ _))

theorem isSpace_of_isLetter {c : Char} (h : Ascii.isLetter c = true) : isSpace c = false := by
  rw [Ascii.isLetter_iff] at h
  rw [Bool.eq_false_iff]
  intro hspace
  simp only [isSpace, Bool.or_eq_true, Bool.and_eq_true, decide_eq_true_eq,
    UInt32.le_iff_toNat_le, ← UInt32.toNat_inj, UInt32.reduceToNat] at hspace
  have hval : c.toNat = c.val.toNat := rfl
  omega

theorem isKeyChar_of_isLetter {c : Char} (h : Ascii.isLetter c = true) : IsKeyChar c := by
  have hspace := isSpace_of_isLetter h
  have hne : ∀ d, Ascii.isLetter d = false → c ≠ d := by
    rintro d hd rfl
    rw [h] at hd
    cases hd
  refine ⟨?_, fun hsep => hsep.elim (hne _ (by decide)) (hne _ (by decide))⟩
  simp [isSecretChar, hspace, hne ',' (by decide), hne ';' (by decide), hne '"' (by decide),
    hne '\'' (by decide), hne '&' (by decide)]

theorem textWords_chars : ∀ word ∈ textWords, word.toList ≠ [] ∧
    (word.toList.all fun c => Ascii.isLetter c || c = '_' || c = '-') = true := by
  decide

theorem isKeyChar_of_mem_word {w : List Char} (hw : IsWord w) {c : Char} (hc : c ∈ w) :
    IsKeyChar c ∧ c ≠ '*' := by
  obtain ⟨word, hword, hmap⟩ := hw
  have hfold := List.all_eq_true.mp (textWords_chars word hword).2 (foldCase c)
    (hmap ▸ List.mem_map_of_mem hc)
  rw [Bool.or_eq_true, Bool.or_eq_true, decide_eq_true_eq, decide_eq_true_eq] at hfold
  unfold foldCase at hfold
  by_cases hs : c = 'ſ'
  · subst hs
    decide
  by_cases hk : c = '\u212a'
  · subst hk
    decide
  by_cases hi : c = 'İ' ∨ c = 'ı'
  · rcases hi with rfl | rfl <;> decide
  rw [if_neg hs, if_neg hk, if_neg hi, Ascii.isLetter_toLower,
    Ascii.toLower_eq_iff (by decide), Ascii.toLower_eq_iff (by decide)] at hfold
  rcases hfold with (hletter | rfl) | rfl
  · refine ⟨isKeyChar_of_isLetter hletter, ?_⟩
    rintro rfl
    exact absurd hletter (by decide)
  · decide
  · decide

theorem IsWord.ne_nil {w : List Char} (hw : IsWord w) : w ≠ [] := by
  rintro rfl
  obtain ⟨word, hword, hmap⟩ := hw
  exact (textWords_chars word hword).1 hmap.symm

/-- In a group there is one separator, with no asterisk in front of it and no secret behind it. -/
theorem IsGroup.split {g : List Char} (hg : IsGroup g) :
    ∃ front sep tail, g = front ++ sep :: tail ∧ IsSeparator sep ∧
      (∀ c ∈ front, ¬ IsSeparator c ∧ c ≠ '*') ∧ ∀ c ∈ tail, isSecretChar c = false := by
  obtain ⟨w, _, rfl, hw, quote, gap, sep, gap', quote', rfl, hquote, hgap, hsep, hgap', hquote'⟩ :=
    hg
  have hstar : ∀ c, isSecretChar c = false → c ≠ '*' := by
    rintro c hc rfl
    exact absurd hc (by decide)
  refine ⟨w ++ (quote ++ gap), sep, gap' ++ quote', by simp only [List.append_assoc], hsep,
    fun c hc => ?_, fun c hc => ?_⟩
  · rcases List.mem_append.mp hc with hc | hc
    · exact ⟨(isKeyChar_of_mem_word hw hc).1.2, (isKeyChar_of_mem_word hw hc).2⟩
    rcases List.mem_append.mp hc with hc | hc
    · exact (hquote.not_isSeparator c hc).imp_right (hstar c)
    · exact (not_isSeparator_of_isSpace (hgap c hc)).imp_right (hstar c)
  · rcases List.mem_append.mp hc with hc | hc
    · exact (not_isSeparator_of_isSpace (hgap' c hc)).2
    · exact (hquote'.not_isSeparator c hc).2

theorem IsGroup.star_not_mem {g : List Char} (hg : IsGroup g) : '*' ∉ g := by
  obtain ⟨front, sep, tail, rfl, hsep, hfront, htail⟩ := hg.split
  rw [List.mem_append, List.mem_cons]
  rintro (hc | rfl | hc)
  · exact (hfront _ hc).2 rfl
  · exact absurd hsep (by decide)
  · exact absurd (htail _ hc) (by decide)

theorem IsGroup.exists_cons {g : List Char} (hg : IsGroup g) :
    ∃ c g', g = c :: g' ∧ IsKeyChar c := by
  obtain ⟨w, joint, rfl, hw, -⟩ := hg
  obtain ⟨c, w, rfl⟩ := List.exists_cons_of_ne_nil hw.ne_nil
  exact ⟨c, w ++ joint, rfl, (isKeyChar_of_mem_word hw List.mem_cons_self).1⟩

theorem mem_tail_of_append_eq {front behind q tail : List Char} {sep c : Char}
    (h : behind ++ c :: q = front ++ sep :: tail) (hc : IsSeparator c)
    (hfront : ∀ d ∈ front, ¬ IsSeparator d) : ∀ x ∈ q, x ∈ tail := by
  intro x hx
  rcases List.append_eq_append_iff.mp h with ⟨as, hfront', has⟩ | ⟨bs, -, hbs⟩
  · rcases as with _ | ⟨d, as⟩
    · obtain ⟨-, rfl⟩ := List.cons.inj has
      exact hx
    · obtain ⟨rfl, -⟩ := List.cons.inj has
      exact absurd hc (hfront _ (by simp [hfront']))
  · rcases bs with _ | ⟨d, bs⟩
    · obtain ⟨-, rfl⟩ := List.cons.inj hbs
      exact hx
    · obtain ⟨-, rfl⟩ := List.cons.inj hbs
      simp [hx]

/-- A group inside of a group has no secret behind it. -/
theorem IsGroup.not_isSecretChar {a g m : List Char} {x : Char} (h : IsGroup (a ++ (g ++ x :: m)))
    (hg : IsGroup g) : isSecretChar x = false := by
  obtain ⟨front, sep, tail, heq, -, hfront, htail⟩ := h.split
  obtain ⟨front', sep', tail', rfl, hsep', -, -⟩ := hg.split
  have hsplit : (a ++ front') ++ sep' :: (tail' ++ x :: m) = front ++ sep :: tail := by
    rw [← heq]
    simp only [List.append_assoc, List.cons_append]
  exact htail x (mem_tail_of_append_eq hsplit hsep' (fun c hc => (hfront c hc).1) x (by simp))

/-! ## Masked texts -/

/-- Every group has the mark behind it, and no more of a secret. -/
def IsMasked (text : List Char) : Prop :=
  ∀ a g x t, text = a ++ (g ++ x :: t) → IsGroup g → isSecretChar x = true →
    ∃ rest, x :: t = REDACTED.toList ++ rest ∧ ∀ c ∈ rest.head?, isSecretChar c = false

theorem secretRule_find : secretRule.find = secretAt := rfl

theorem eq_star_of_mem {c : Char} (h : c ∈ REDACTED.toList) : c = '*' :=
  List.eq_of_mem_replicate (n := 3) h

theorem secretRule_mark : secretRule.mark = '*' :: ['*', '*'] := rfl

/-- In front of the first mark, the result is the text. -/
theorem exists_of_sub_eq {text : List Char} : ∀ {g t : List Char} {x : Char},
    secretRule.sub text = g ++ x :: t → '*' ∉ g → isSecretChar x = true →
      ∃ y t', text = g ++ y :: t' ∧ isSecretChar y = true := by
  induction text using Rule.scan_induction (R := secretRule) with
  | nil =>
    intro g t x h
    exact absurd h.symm (by simp)
  | keep c text hfind ih =>
    intro g t x h hstar hx
    rw [Rule.sub_keep hfind] at h
    rcases g with _ | ⟨d, g⟩
    · obtain ⟨rfl, -⟩ := List.cons.inj h
      exact ⟨c, text, rfl, hx⟩
    · obtain ⟨rfl, h'⟩ := List.cons.inj h
      obtain ⟨y, t', rfl, hy⟩ := ih h' (List.not_mem_of_not_mem_cons hstar) hx
      exact ⟨y, t', rfl, hy⟩
  | replace group run rest hfind ih =>
    intro g t x h hstar hx
    obtain ⟨hne, hrun, -⟩ := Rule.find_run hfind
    obtain ⟨y, run, rfl⟩ := List.exists_cons_of_ne_nil hne
    have hy : isSecretChar y = true := hrun y List.mem_cons_self
    rw [Rule.sub_replace hfind, secretRule_mark] at h
    rcases List.append_eq_append_iff.mp h with ⟨as, rfl, has⟩ | ⟨bs, rfl, hbs⟩
    · rcases as with _ | ⟨d, as⟩
      · exact ⟨y, run ++ rest, by simp, hy⟩
      · obtain ⟨rfl, -⟩ := List.cons.inj has
        exact absurd (by simp) hstar
    · rcases bs with _ | ⟨d, bs⟩
      · exact ⟨y, run ++ rest, by simp, hy⟩
      · obtain ⟨rfl, -⟩ := List.cons.inj hbs
        exact ⟨x, bs ++ (y :: run ++ rest), by simp, hx⟩

theorem IsMasked.replace {group out : List Char} (hgroup : IsGroup group) (hout : IsMasked out)
    (hhead : ∀ c ∈ out.head?, isSecretChar c = false) :
    IsMasked (group ++ (REDACTED.toList ++ out)) := by
  intro a g x t h hg hx
  have hstar := hg.star_not_mem
  rcases List.append_eq_append_iff.mp h with ⟨as, rfl, has⟩ | ⟨bs, rfl, hbs⟩
  · -- the group is behind the one of the match
    rcases List.append_eq_append_iff.mp has with ⟨bs, rfl, hbs⟩ | ⟨bs, hbs, hg'⟩
    · exact hout bs g x t hbs hg hx
    · rcases bs with _ | ⟨d, bs⟩
      · exact hout [] g x t hg'.symm hg hx
      · have hd : d ∈ REDACTED.toList := by rw [hbs]; simp
        obtain rfl := eq_star_of_mem hd
        obtain ⟨c, g, rfl, -⟩ := hg.exists_cons
        obtain ⟨rfl, -⟩ := List.cons.inj hg'
        exact absurd List.mem_cons_self hstar
  · -- it begins inside of the group of the match
    rcases List.append_eq_append_iff.mp hbs with ⟨cs, rfl, hcs⟩ | ⟨cs, rfl, hcs⟩
    · rcases cs with _ | ⟨d, cs⟩
      · exact ⟨out, hcs, hhead⟩
      · obtain ⟨rfl, -⟩ := List.cons.inj hcs
        rw [hgroup.not_isSecretChar hg] at hx
        cases hx
    · rcases cs with _ | ⟨d, cs⟩
      · exact ⟨out, hcs.symm, hhead⟩
      · obtain ⟨rfl, -⟩ := List.cons.inj hcs
        exact absurd (List.mem_append_right _ List.mem_cons_self) hstar

theorem isMasked_sub (text : List Char) : IsMasked (secretRule.sub text) := by
  induction text using Rule.scan_induction (R := secretRule) with
  | nil =>
    intro a g x t h
    exact absurd h.symm (by simp)
  | keep c text hfind ih =>
    intro a g x t h hg hx
    rcases a with _ | ⟨d, a⟩
    · -- the group would have been found
      obtain ⟨y, t', htext, hy⟩ := exists_of_sub_eq h hg.star_not_mem hx
      have hsome : (secretAt (g ++ y :: t')).isSome := secretAt_isSome hg ⟨y, rfl, hy⟩
      rw [← htext, ← secretRule_find, hfind] at hsome
      cases hsome
    · rw [Rule.sub_keep hfind] at h
      exact ih a g x t (List.cons.inj h).2 hg hx
  | replace group run rest hfind ih =>
    intro a g x t h hg hx
    have hrest : ∀ c ∈ (secretRule.sub rest).head?, isSecretChar c = false := by
      have hhead := (Rule.reach_sub (R := secretRule) rest).head (u := [])
      rw [List.append_nil, List.append_nil] at hhead
      exact hhead (Rule.find_run hfind).2.2
    rw [Rule.sub_replace hfind] at h
    exact ih.replace (isGroup_of_find hfind) hrest a g x t h hg hx

theorem IsMasked.of_append {a text : List Char} (h : IsMasked (a ++ text)) : IsMasked text := by
  intro b g x t htext
  refine h (a ++ b) g x t ?_
  rw [htext, List.append_assoc]

theorem sub_of_isMasked {text : List Char} (h : IsMasked text) : secretRule.sub text = text := by
  induction text using Rule.scan_induction (R := secretRule) with
  | nil => rfl
  | keep c text hfind ih => rw [Rule.sub_keep hfind, ih (h.of_append (a := [c]))]
  | replace group run rest hfind ih =>
    obtain ⟨hne, hrun, hrest⟩ := Rule.find_run hfind
    have hgroup := isGroup_of_find hfind
    have hmark : run = REDACTED.toList := by
      obtain ⟨y, run, rfl⟩ := List.exists_cons_of_ne_nil hne
      obtain ⟨rest', hsplit, hrest'⟩ :=
        h [] group y (run ++ rest) rfl hgroup (hrun y List.mem_cons_self)
      have hstars : ∀ c ∈ REDACTED.toList, isSecretChar c = true := by
        intro c hc
        obtain rfl := eq_star_of_mem hc
        decide
      calc y :: run
        _ = (y :: run ++ rest).takeWhile isSecretChar := (takeWhile_append_run hrun hrest).symm
        _ = (REDACTED.toList ++ rest').takeWhile isSecretChar := by rw [← hsplit]; rfl
        _ = REDACTED.toList := takeWhile_append_run hstars hrest'
    rw [Rule.sub_replace hfind, ih (by rw [← List.append_assoc] at h; exact h.of_append), hmark]
    rfl

/-- A text that masking leaves as it is. -/
theorem maskText_eq_self_iff (text : String) : maskText text = text ↔ IsMasked text.toList := by
  rw [← String.toList_inj, toList_maskText]
  exact ⟨fun h => h ▸ isMasked_sub text.toList, sub_of_isMasked⟩

theorem maskText_maskText (text : String) : maskText (maskText text) = maskText text := by
  rw [maskText_eq_self_iff, toList_maskText]
  exact isMasked_sub text.toList

end ApiTemplate.Telemetry
