import ApiTemplate.Stream.Ascii
import Mathlib.Data.Bool.AllAny
import Mathlib.Data.List.Infix
import Mathlib.Data.Set.List

/-!
# LIKE patterns

The patterns of SQL: `%` stands for any text, `_` for any character, and a backslash makes the next
character stand for itself. `ILIKE` folds the case of the pattern and of the text first. The pattern
made of a text and a final `%` describes the texts that start with it if and only if the text has
none of the three characters.
-/

namespace Like

/-! ## Matching -/

/-- The characters with a meaning of their own. -/
def metacharacters : List Char := ['%', '_', '\\']

inductive Token
  | any
  | one
  | lit (c : Char)
  deriving DecidableEq

/-- The tokens of a pattern, unless it ends with a bare backslash. -/
def tokens : List Char → Option (List Token)
  | [] => some []
  | '%' :: p => (tokens p).map (.any :: ·)
  | '_' :: p => (tokens p).map (.one :: ·)
  | '\\' :: [] => none
  | '\\' :: c :: p => (tokens p).map (.lit c :: ·)
  | c :: p => (tokens p).map (.lit c :: ·)

def matchTokens : List Token → List Char → Bool
  | [], text => text.isEmpty
  | .any :: ts, text => text.tails.any (matchTokens ts)
  | .one :: ts, text =>
    match text with
    | [] => false
    | _ :: text => matchTokens ts text
  | .lit a :: ts, text =>
    match text with
    | [] => false
    | c :: text => c = a && matchTokens ts text

/-- `text LIKE pattern`; `none` is an error. -/
def like (pattern text : List Char) : Option Bool :=
  (tokens pattern).map fun ts => matchTokens ts text

/-- A folding of case, which leaves the metacharacters alone. -/
structure CaseFold where
  lower : Char → Char
  lower_iff : ∀ m ∈ metacharacters, ∀ c, lower c = m ↔ c = m

/-- `text ILIKE pattern` -/
def ilike (F : CaseFold) (pattern text : List Char) : Option Bool :=
  like (pattern.map F.lower) (text.map F.lower)

/-- The text starts with `s`, up to case. -/
def StartsWith (F : CaseFold) (s text : List Char) : Prop :=
  s.map F.lower <+: text.map F.lower

instance (F : CaseFold) (s text : List Char) : Decidable (StartsWith F s text) :=
  inferInstanceAs (Decidable (_ <+: _))

/-! ## Tokens -/

theorem tokens_cons {c : Char} (hc : c ∉ metacharacters) (p : List Char) :
    tokens (c :: p) = (tokens p).map (.lit c :: ·) := by
  simp only [metacharacters, List.mem_cons, List.not_mem_nil, or_false, not_or] at hc
  obtain ⟨hany, hone, hescape⟩ := hc
  rw [tokens]
  · exact hany
  · exact hone
  · exact fun h _ => hescape h
  · exact fun _ _ h _ => hescape h

theorem tokens_plain {s : List Char} (hs : ∀ c ∈ s, c ∉ metacharacters) (p : List Char) :
    tokens (s ++ p) = (tokens p).map (s.map .lit ++ ·) := by
  induction s with
  | nil => simp
  | cons c s ih =>
    have hrest := ih fun d hd => hs d (List.mem_cons_of_mem c hd)
    rw [List.cons_append, tokens_cons (hs c List.mem_cons_self), hrest, Option.map_map]
    rfl

@[simp] theorem matchTokens_any_nil (text : List Char) : matchTokens [.any] text = true := by
  rw [matchTokens, List.any_eq_true]
  exact ⟨[], (List.mem_tails _ _).mpr List.nil_suffix, rfl⟩

theorem matchTokens_lits_append (s : List Char) (ts : List Token) (text : List Char) :
    matchTokens (s.map .lit ++ ts) text = true ↔
      ∃ rest, text = s ++ rest ∧ matchTokens ts rest = true := by
  induction s generalizing text with
  | nil => simp
  | cons c s ih =>
    cases text with
    | nil => simp [matchTokens]
    | cons d text =>
      simp only [List.map_cons, List.cons_append, matchTokens, Bool.and_eq_true,
        decide_eq_true_eq, ih, List.cons.injEq]
      constructor
      · rintro ⟨rfl, rest, rfl, hrest⟩
        exact ⟨rest, ⟨rfl, rfl⟩, hrest⟩
      · rintro ⟨rest, ⟨rfl, rfl⟩, hrest⟩
        exact ⟨rfl, rest, rfl, hrest⟩

/-- A text of plain characters followed by `%` describes the texts that it starts. -/
theorem like_prefix_of_plain {s : List Char} (hs : ∀ c ∈ s, c ∉ metacharacters)
    (text : List Char) : like (s ++ ['%']) text = some true ↔ s <+: text := by
  have htokens : tokens (s ++ ['%']) = some (s.map .lit ++ [.any]) := tokens_plain hs ['%']
  simp only [like, htokens, Option.map_some, Option.some.injEq, matchTokens_lits_append,
    matchTokens_any_nil, and_true]
  exact exists_congr fun rest => eq_comm

/-! ## Short matches -/

theorem like_of_any {p text : List Char} (h : like p text = some true) :
    like ('%' :: p) text = some true := by
  obtain ⟨ts, hts, hmatch⟩ := Option.map_eq_some_iff.mp h
  have htokens : tokens ('%' :: p) = some (.any :: ts) := by rw [tokens, hts]; rfl
  simp only [like, htokens, Option.map_some, Option.some.injEq, matchTokens, List.any_eq_true]
  exact ⟨text, (List.mem_tails _ _).mpr (List.suffix_refl text), hmatch⟩

theorem like_of_one {p text : List Char} (h : like p text = some true) (c : Char) :
    like ('_' :: p) (c :: text) = some true := by
  obtain ⟨ts, hts, hmatch⟩ := Option.map_eq_some_iff.mp h
  have htokens : tokens ('_' :: p) = some (.one :: ts) := by rw [tokens, hts]; rfl
  simp only [like, htokens, Option.map_some, matchTokens, hmatch]

theorem like_of_escape {p text : List Char} (h : like p text = some true) (c : Char) :
    like ('\\' :: c :: p) (c :: text) = some true := by
  obtain ⟨ts, hts, hmatch⟩ := Option.map_eq_some_iff.mp h
  have htokens : tokens ('\\' :: c :: p) = some (.lit c :: ts) := by rw [tokens, hts]; rfl
  simp [like, htokens, matchTokens, hmatch]

theorem like_of_lit {c : Char} (hc : c ∉ metacharacters) {p text : List Char}
    (h : like p text = some true) : like (c :: p) (c :: text) = some true := by
  obtain ⟨ts, hts, hmatch⟩ := Option.map_eq_some_iff.mp h
  simp [like, tokens_cons hc, hts, matchTokens, hmatch]

section

variable {P : Char → Prop} {a : Char}

/-- A text in front of a final `%` describes a text that is no longer than it, made of its
characters, of `%` and of some other character. -/
theorem exists_short_match (p : List Char) (hp : ∀ c ∈ p, P c) (hany : P '%') (ha : P a) :
    ∃ text : List Char, text.length ≤ p.length ∧ (∀ c ∈ text, P c) ∧
      like (p ++ ['%']) text = some true := by
  induction p using tokens.induct with
  | case1 => exact ⟨[], le_rfl, by simp, rfl⟩
  | case2 p ih =>
    obtain ⟨text, hlen, htext, hlike⟩ := ih (List.forall_mem_cons.mp hp).2
    exact ⟨text, Nat.le_succ_of_le hlen, htext, like_of_any hlike⟩
  | case3 p ih =>
    obtain ⟨text, hlen, htext, hlike⟩ := ih (List.forall_mem_cons.mp hp).2
    exact ⟨a :: text, Nat.succ_le_succ hlen, List.forall_mem_cons.mpr ⟨ha, htext⟩,
      like_of_one hlike a⟩
  | case4 => exact ⟨['%'], le_rfl, by simpa using hany, rfl⟩
  | case5 c p ih =>
    obtain ⟨hc, hrest⟩ := List.forall_mem_cons.mp (List.forall_mem_cons.mp hp).2
    obtain ⟨text, hlen, htext, hlike⟩ := ih hrest
    exact ⟨c :: text, Nat.succ_le_succ (Nat.le_succ_of_le hlen),
      List.forall_mem_cons.mpr ⟨hc, htext⟩, like_of_escape hlike c⟩
  | case6 c p hnany hnone hlast hescape ih =>
    obtain ⟨hc, hrest⟩ := List.forall_mem_cons.mp hp
    obtain ⟨text, hlen, htext, hlike⟩ := ih hrest
    have hplain : c ∉ metacharacters := by
      simp only [metacharacters, List.mem_cons, List.not_mem_nil, or_false, not_or]
      refine ⟨hnany, hnone, fun h => ?_⟩
      cases p with
      | nil => exact hlast h rfl
      | cons d p => exact hescape d p h rfl
    exact ⟨c :: text, Nat.succ_le_succ hlen, List.forall_mem_cons.mpr ⟨hc, htext⟩,
      like_of_lit hplain hlike⟩

/-- A metacharacter in the text makes its pattern describe a text that does not start with it. -/
theorem exists_match_not_prefix {s : List Char} (hs : ∃ m ∈ s, m ∈ metacharacters)
    (hP : ∀ c ∈ s, P c) (hany : P '%') (ha : P a) (hne : a ≠ '_') :
    ∃ text, (∀ c ∈ text, P c) ∧ like (s ++ ['%']) text = some true ∧ ¬ s <+: text := by
  induction s with
  | nil => simp at hs
  | cons c s ih =>
    obtain ⟨hc, hrest⟩ := List.forall_mem_cons.mp hP
    by_cases hmeta : c ∈ metacharacters
    · obtain ⟨text, hlen, htext, hlike⟩ := exists_short_match s hrest hany ha
      simp only [metacharacters, List.mem_cons, List.not_mem_nil, or_false] at hmeta
      rcases hmeta with rfl | rfl | rfl
      · refine ⟨text, htext, like_of_any hlike, fun hprefix => ?_⟩
        have hle := hprefix.length_le
        rw [List.length_cons] at hle
        omega
      · refine ⟨a :: text, List.forall_mem_cons.mpr ⟨ha, htext⟩, like_of_one hlike a, ?_⟩
        exact fun hprefix => hne (List.cons_prefix_cons.mp hprefix).1.symm
      · cases s with
        | nil => exact ⟨['%'], by simpa using hany, rfl, by decide⟩
        | cons d s =>
          obtain ⟨hd, hrest⟩ := List.forall_mem_cons.mp hrest
          obtain ⟨text, hlen, htext, hlike⟩ := exists_short_match s hrest hany ha
          refine ⟨d :: text, List.forall_mem_cons.mpr ⟨hd, htext⟩, like_of_escape hlike d, ?_⟩
          intro hprefix
          have hle := hprefix.length_le
          simp only [List.length_cons] at hle
          omega
    · obtain ⟨m, hm, hm'⟩ := hs
      have hin : m ∈ s := (List.mem_cons.mp hm).resolve_left fun h => hmeta (h ▸ hm')
      obtain ⟨text, htext, hlike, hno⟩ := ih ⟨m, hin, hm'⟩ hrest
      refine ⟨c :: text, List.forall_mem_cons.mpr ⟨hc, htext⟩, like_of_lit hmeta hlike, ?_⟩
      exact fun hprefix => hno (List.cons_prefix_cons.mp hprefix).2

end

/-! ## Up to case -/

section

variable (F : CaseFold)

theorem lower_mem_iff (c : Char) : F.lower c ∈ metacharacters ↔ c ∈ metacharacters := by
  constructor
  · intro h
    rwa [(F.lower_iff _ h c).mp rfl]
  · intro h
    rwa [(F.lower_iff c h c).mpr rfl]

/-- **The pattern of a text and a final `%` describes the texts that start with it, up to case, if
and only if no character of the text is a metacharacter.** -/
theorem ilike_prefix_iff (s : List Char) :
    (∀ text, ilike F (s ++ ['%']) text = some true ↔ StartsWith F s text) ↔
      ∀ c ∈ s, c ∉ metacharacters := by
  have hany : F.lower '%' = '%' := (F.lower_iff '%' (by decide) '%').mpr rfl
  have hlower : (s ++ ['%']).map F.lower = s.map F.lower ++ ['%'] := by simp [hany]
  unfold ilike StartsWith
  rw [hlower]
  constructor
  · intro h c hc hmeta
    have ha : F.lower 'a' ≠ '_' := fun heq =>
      absurd ((F.lower_iff '_' (by decide) 'a').mp heq) (by decide)
    obtain ⟨text, htext, hlike, hno⟩ := exists_match_not_prefix
      (P := (· ∈ Set.range F.lower)) (s := s.map F.lower)
      ⟨F.lower c, List.mem_map_of_mem hc, (lower_mem_iff F c).mpr hmeta⟩
      (by simp) ⟨'%', hany⟩ ⟨'a', rfl⟩ ha
    obtain ⟨raw, rfl⟩ : text ∈ Set.range (List.map F.lower) :=
      (Set.range_list_map F.lower).symm ▸ htext
    exact hno ((h raw).mp hlike)
  · intro hplain text
    refine like_prefix_of_plain (fun d hd => ?_) _
    obtain ⟨c, hc, rfl⟩ := List.mem_map.mp hd
    exact fun hmeta => hplain c hc ((lower_mem_iff F c).mp hmeta)

end

theorem isLetter_metacharacters : ∀ m ∈ metacharacters, Ascii.isLetter m = false :=
  List.all_iff_forall_prop.mp (by decide)

/-- The folding of ASCII letters. -/
def CaseFold.ascii : CaseFold where
  lower := Char.toLower
  lower_iff m hm := Ascii.toLower_eq_iff (isLetter_metacharacters m hm)

end Like
