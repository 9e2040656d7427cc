import ApiTemplate.Identity.Annotated
import Mathlib.Data.List.SplitBy

/-!
# Clusters of a name

NFKC treats a text cluster by cluster: every character together with those behind it that it may
combine with. `Unicode.Nfkc` states what the standard says of this normal form. From it follows what
`normalize_string` makes of a text: the normal forms of its clusters one after the other, between the
blank characters at its ends and without the zero-width characters. Such a text is normal when no two
clusters that a zero-width character has parted combine.
-/

namespace ApiTemplate.Identity

/-- NFKC, on lists of characters. -/
def Unicode.norm (U : Unicode) (s : List Char) : List Char := (U.nfkc (String.ofList s)).toList

/-- No two neighbours of these texts combine. -/
def Unicode.Apart (U : Unicode) (ks : List (List Char)) : Prop :=
  ks.IsChain fun k l => U.norm (k ++ l) = U.norm k ++ U.norm l

instance (U : Unicode) (ks : List (List Char)) : Decidable (U.Apart ks) :=
  inferInstanceAs (Decidable (ks.IsChain _))

/-- White space or a zero-width character. -/
def isBlank (c : Char) : Bool := isSpace c || isZeroWidth c

/-- The text begins with no white space, unless a mark stands on it. -/
def Fronted (U : Unicode) (s : List Char) : Prop :=
  ∃ c cs, s = c :: cs ∧
    (isSpace c = true → ∃ m ms, cs = m :: ms ∧ isSpace m = false ∧ U.isLetter m = false)

/-- The text ends with no white space. -/
def Backed (s : List Char) : Prop := ∃ cs c, s = cs ++ [c] ∧ isSpace c = false

/-- What the standard says of NFKC. -/
structure Unicode.Nfkc (U : Unicode) where
  /-- The character combines with none in front of it. -/
  isBoundary : Char → Bool
  boundary_of_blank : ∀ c, isBlank c = true → isBoundary c = true
  norm_append : ∀ s t, U.norm (U.norm s ++ U.norm t) = U.norm (s ++ t)
  norm_boundary : ∀ s c t, isBoundary c = true → U.norm (s ++ c :: t) = U.norm s ++ U.norm (c :: t)
  norm_zeroWidth : ∀ c t, isZeroWidth c = true → U.norm (c :: t) = c :: U.norm t
  norm_space : ∀ c t, isSpace c = true → ∃ d, isSpace d = true ∧ U.norm (c :: t) = d :: U.norm t
  /-- Zero-width characters are no part of a decomposition. -/
  noZeroWidth : ∀ s, (∀ c ∈ s, isZeroWidth c = false) → ∀ c ∈ U.norm s, isZeroWidth c = false
  fronted : ∀ c t, isBlank c = false → Fronted U (U.norm (c :: t))
  backed : ∀ s c, isBlank c = false → Backed (U.norm (s ++ [c]))
  /-- The parts of a normal text are normal. -/
  normal_parts : ∀ s t, U.norm (s ++ t) = s ++ t → U.norm s = s ∧ U.norm t = t
  /-- Letters and separators are starters: they are normal if each two neighbours are. -/
  normal_of_pairs : ∀ s, (∀ c ∈ s, U.isLetter c = true ∨ isNameSeparator c = true) →
    (∀ c ∈ s, U.norm [c] = [c]) → s.IsChain (fun c d => U.norm [c, d] = [c, d]) → U.norm s = s

/-! ## White space at the ends -/

/-- `str.strip()`, on lists of characters. -/
def stripChars (s : List Char) : List Char := (s.dropWhile isSpace).rdropWhile isSpace

theorem stripChars_append_spaces {s t : List Char} (ht : ∀ c ∈ t, isSpace c = true) :
    stripChars (s ++ t) = stripChars s := by
  have hback : ∀ x : List Char, (x ++ t).rdropWhile isSpace = x.rdropWhile isSpace := by
    intro x
    induction t using List.reverseRecOn with
    | nil => rw [List.append_nil]
    | append_singleton t c ih =>
      rw [← List.append_assoc, List.rdropWhile_concat_pos _ _ _ (ht c (by simp))]
      exact ih fun d hd => ht d (List.mem_append_left _ hd)
  unfold stripChars
  rw [List.dropWhile_append]
  split
  · rename_i hnil
    rw [List.isEmpty_iff.mp hnil, List.dropWhile_eq_nil_iff.mpr ht]
  · exact hback _

theorem stripChars_spaces_append {s t : List Char} (hs : ∀ c ∈ s, isSpace c = true) :
    stripChars (s ++ t) = stripChars t := by
  unfold stripChars
  rw [List.dropWhile_append, List.dropWhile_eq_nil_iff.mpr hs]
  rfl

theorem not_isZeroWidth_of_isSpace {c : Char} (hc : isSpace c = true) : isZeroWidth c = false := by
  simp only [isSpace, Bool.or_eq_true, Bool.and_eq_true, decide_eq_true_eq, beq_iff_eq] at hc
  simp only [isZeroWidth, Bool.or_eq_false_iff, Bool.and_eq_false_iff, decide_eq_false_iff_not,
    beq_eq_false_iff_ne, ne_eq]
  omega

theorem rdropWhile_of_backed {s : List Char} (h : Backed s) : s.rdropWhile isSpace = s := by
  obtain ⟨cs, c, rfl, hc⟩ := h
  exact List.rdropWhile_concat_neg _ _ _ (by simp [hc])

theorem Fronted.append_right {U : Unicode} {s : List Char} (h : Fronted U s) (t : List Char) :
    Fronted U (s ++ t) := by
  obtain ⟨c, cs, rfl, hmark⟩ := h
  refine ⟨c, cs ++ t, rfl, fun hspace => ?_⟩
  obtain ⟨m, ms, rfl, hm, hletter⟩ := hmark hspace
  exact ⟨m, ms ++ t, rfl, hm, hletter⟩

theorem Backed.append_left {t : List Char} (h : Backed t) (s : List Char) : Backed (s ++ t) := by
  obtain ⟨cs, c, rfl, hc⟩ := h
  exact ⟨s ++ cs, c, (List.append_assoc s cs [c]).symm, hc⟩

theorem Backed.tail {c d : Char} {s : List Char} (h : Backed (c :: d :: s)) : Backed (d :: s) := by
  obtain ⟨cs, e, hcs, he⟩ := h
  cases cs with
  | nil => cases hcs
  | cons b bs => exact ⟨bs, e, (List.cons.inj hcs).2, he⟩

/-- A text that stripping leaves with a letter in front, and with no white space behind it. -/
theorem stripChars_eq_self {U : Unicode} {s : List Char} (hfront : Fronted U s) (hback : Backed s)
    {c : Char} {cs : List Char} (hs : stripChars s = c :: cs) (hc : U.isLetter c = true) :
    stripChars s = s := by
  obtain ⟨d, ds, rfl, hmark⟩ := hfront
  cases hd : isSpace d with
  | false =>
    unfold stripChars
    rw [List.dropWhile_cons_of_neg (by simp [hd]), rdropWhile_of_backed hback]
  | true =>
    -- the strip would leave the mark in front
    obtain ⟨m, ms, rfl, hm, hletter⟩ := hmark hd
    unfold stripChars at hs
    rw [List.dropWhile_cons_of_pos hd, List.dropWhile_cons_of_neg (by simp [hm]),
      rdropWhile_of_backed hback.tail] at hs
    cases hs
    rw [hletter] at hc
    cases hc

/-! ## Normal forms -/

namespace Unicode.Nfkc

variable {U : Unicode} (N : U.Nfkc)

include N

theorem norm_nil : U.norm [] = [] := by
  have hcut := N.norm_boundary [] '\u200d' [] (N.boundary_of_blank _ (by decide))
  rw [List.nil_append, N.norm_zeroWidth _ _ (by decide)] at hcut
  have hlen := congrArg List.length hcut
  rw [List.length_append] at hlen
  exact List.eq_nil_of_length_eq_zero (by omega)

theorem norm_norm (s : List Char) : U.norm (U.norm s) = U.norm s := by
  have happend := N.norm_append s []
  rwa [N.norm_nil, List.append_nil, List.append_nil] at happend

theorem norm_ne_nil {s : List Char} (hs : s ≠ []) : U.norm s ≠ [] := by
  cases s with
  | nil => exact absurd rfl hs
  | cons c s =>
    cases hc : isBlank c with
    | false =>
      obtain ⟨d, ds, hd, -⟩ := N.fronted c s hc
      rw [hd]
      exact List.cons_ne_nil d ds
    | true =>
      rcases (Bool.or_eq_true _ _).mp hc with hspace | hzero
      · obtain ⟨d, -, hd⟩ := N.norm_space c s hspace
        rw [hd]
        exact List.cons_ne_nil d _
      · rw [N.norm_zeroWidth c s hzero]
        exact List.cons_ne_nil c _

/-- The two characters may combine, or some that stand between them. -/
def joins (c d : Char) : Bool := !N.isBoundary d && !isZeroWidth c

/-- A text may be cut between characters that do not join. -/
theorem norm_cut {c d : Char} (h : N.joins c d = false) (s t : List Char) :
    U.norm (s ++ [c] ++ d :: t) = U.norm (s ++ [c]) ++ U.norm (d :: t) := by
  cases hd : N.isBoundary d with
  | true => exact N.norm_boundary (s ++ [c]) d t hd
  | false =>
    have hc : isZeroWidth c = true := by simpa [joins, hd] using h
    have hb : N.isBoundary c = true := N.boundary_of_blank c (by simp [isBlank, hc])
    rw [List.append_assoc, List.singleton_append, N.norm_boundary s c (d :: t) hb,
      N.norm_zeroWidth c (d :: t) hc, N.norm_boundary s c [] hb, N.norm_zeroWidth c [] hc,
      N.norm_nil, List.append_assoc, List.singleton_append]

theorem norm_flatten {L : List (List Char)}
    (h : L.IsChain fun k l => ∃ hk hl, N.joins (k.getLast hk) (l.head hl) = false) :
    U.norm L.flatten = (L.map U.norm).flatten := by
  induction L with
  | nil => exact N.norm_nil
  | cons k L ih =>
    rw [List.flatten_cons, List.map_cons, List.flatten_cons]
    cases L with
    | nil => simp
    | cons l L =>
      obtain ⟨⟨hk, hl, hjoins⟩, hrest⟩ := List.isChain_cons_cons.mp h
      have hcut := N.norm_cut hjoins k.dropLast (l.tail ++ L.flatten)
      rw [List.dropLast_append_getLast, ← List.cons_append, List.cons_head_tail] at hcut
      rw [← ih hrest, List.flatten_cons, hcut]

/-! ## Clusters -/

/-- Every character with those behind it that it may combine with; zero-width characters part them
and are left out. -/
def clusters (s : List Char) : List (List Char) :=
  (s.splitBy N.joins).filter fun k => !k.any isZeroWidth

theorem not_zeroWidth_of_joins {c : Char} {s : List Char} (hc : isZeroWidth c = false)
    (h : (c :: s).IsChain fun c d => N.joins c d = true) : ∀ d ∈ c :: s, isZeroWidth d = false := by
  induction s generalizing c with
  | nil => simpa using hc
  | cons d s ih =>
    obtain ⟨hjoins, hrest⟩ := List.isChain_cons_cons.mp h
    have hd : isZeroWidth d = false := by
      cases hz : isZeroWidth d with
      | false => rfl
      | true =>
        have hb := N.boundary_of_blank d (by simp [isBlank, hz])
        simp [joins, hb] at hjoins
    exact List.forall_mem_cons.mpr ⟨hc, ih hd hrest⟩

/-- Zero-width characters stand alone. -/
theorem group_cases {s k : List Char} (hk : k ∈ s.splitBy N.joins) :
    (∃ c, k = [c] ∧ isZeroWidth c = true) ∨ ∀ c ∈ k, isZeroWidth c = false := by
  have hchain := List.isChain_of_mem_splitBy hk
  cases k with
  | nil => exact absurd rfl (List.ne_nil_of_mem_splitBy hk)
  | cons c k =>
    cases hc : isZeroWidth c with
    | false => exact Or.inr (N.not_zeroWidth_of_joins hc hchain)
    | true =>
      cases k with
      | nil => exact Or.inl ⟨c, rfl, hc⟩
      | cons d k =>
        have hjoins := (List.isChain_cons_cons.mp hchain).1
        simp [joins, hc] at hjoins

theorem filter_flatten_groups {L : List (List Char)}
    (hL : ∀ k ∈ L, (∃ c, k = [c] ∧ isZeroWidth c = true) ∨ ∀ c ∈ k, isZeroWidth c = false) :
    ((L.map U.norm).flatten.filter fun c => !isZeroWidth c) =
      ((L.filter fun k => !k.any isZeroWidth).map U.norm).flatten := by
  induction L with
  | nil => rfl
  | cons k L ih =>
    obtain ⟨hk, hrest⟩ := List.forall_mem_cons.mp hL
    rw [List.map_cons, List.flatten_cons, List.filter_append, ih hrest]
    rcases hk with ⟨c, rfl, hc⟩ | hk
    · rw [N.norm_zeroWidth c [] hc, N.norm_nil]
      simp [hc]
    · have hany : k.any isZeroWidth = false := by simpa using hk
      have hnorm := N.noZeroWidth k hk
      rw [List.filter_cons_of_pos (by simp [hany]), List.map_cons, List.flatten_cons,
        List.filter_eq_self.mpr fun c hc => by simp [hnorm c hc]]

/-- **Clusters.** Without its zero-width characters, the normal form of a text is made of those of
its clusters. -/
theorem filter_norm (s : List Char) : ((U.norm s).filter fun c => !isZeroWidth c) =
    ((N.clusters s).map U.norm).flatten := by
  have hflatten := N.norm_flatten (List.isChain_getLast_head_splitBy N.joins s)
  rw [List.flatten_splitBy] at hflatten
  rw [hflatten]
  exact N.filter_flatten_groups fun k hk => N.group_cases hk

/-! ## Blank ends -/

theorem strip_blanks_append {s t : List Char} (hs : ∀ c ∈ s, isBlank c = true) :
    stripChars ((U.norm (s ++ t)).filter fun c => !isZeroWidth c) =
      stripChars ((U.norm t).filter fun c => !isZeroWidth c) := by
  induction s with
  | nil => rfl
  | cons c s ih =>
    obtain ⟨hc, hrest⟩ := List.forall_mem_cons.mp hs
    rw [← ih hrest, List.cons_append]
    rcases (Bool.or_eq_true _ _).mp hc with hspace | hzero
    · obtain ⟨d, hd, hnorm⟩ := N.norm_space c (s ++ t) hspace
      rw [hnorm, List.filter_cons_of_pos (by simp [not_isZeroWidth_of_isSpace hd])]
      exact stripChars_spaces_append (s := [d]) (by simpa using hd)
    · rw [N.norm_zeroWidth c (s ++ t) hzero, List.filter_cons_of_neg (by simp [hzero])]

theorem isSpace_of_blanks {t : List Char} (ht : ∀ c ∈ t, isBlank c = true) :
    ∀ d ∈ (U.norm t).filter fun c => !isZeroWidth c, isSpace d = true := by
  induction t with
  | nil => simp [N.norm_nil]
  | cons c t ih =>
    obtain ⟨hc, hrest⟩ := List.forall_mem_cons.mp ht
    rcases (Bool.or_eq_true _ _).mp hc with hspace | hzero
    · obtain ⟨d, hd, hnorm⟩ := N.norm_space c t hspace
      rw [hnorm, List.filter_cons_of_pos (by simp [not_isZeroWidth_of_isSpace hd])]
      exact List.forall_mem_cons.mpr ⟨hd, ih hrest⟩
    · rw [N.norm_zeroWidth c t hzero, List.filter_cons_of_neg (by simp [hzero])]
      exact ih hrest

theorem strip_append_blanks {s t : List Char} (ht : ∀ c ∈ t, isBlank c = true) :
    stripChars ((U.norm (s ++ t)).filter fun c => !isZeroWidth c) =
      stripChars ((U.norm s).filter fun c => !isZeroWidth c) := by
  cases t with
  | nil => rw [List.append_nil]
  | cons c t =>
    have hc := N.boundary_of_blank c (ht c List.mem_cons_self)
    rw [N.norm_boundary s c t hc, List.filter_append]
    exact stripChars_append_spaces (N.isSpace_of_blanks ht)

/-- Blank characters at the ends of a text leave nothing. -/
theorem strip_ends {p : Char → Bool} (hp : ∀ c, p c = true → isBlank c = true) (s : List Char) :
    stripChars ((U.norm s).filter fun c => !isZeroWidth c) =
      stripChars ((U.norm ((s.dropWhile p).rdropWhile p)).filter fun c => !isZeroWidth c) := by
  have hfront := N.strip_blanks_append (s := s.takeWhile p) (t := s.dropWhile p)
    fun c hc => hp c (List.mem_takeWhile_imp hc)
  have hback := N.strip_append_blanks (s := (s.dropWhile p).rdropWhile p)
    (t := (s.dropWhile p).rtakeWhile p) fun c hc => hp c (List.mem_rtakeWhile_imp hc)
  rw [List.takeWhile_append_dropWhile] at hfront
  rw [List.rdropWhile_append_rtakeWhile] at hback
  rw [hfront, hback]

/-! ## What is left of a text -/

theorem group_kept {s k : List Char} {c : Char} (hk : k ∈ s.splitBy N.joins) (hc : c ∈ k)
    (hzero : isZeroWidth c = false) : k.any isZeroWidth = false := by
  rcases N.group_cases hk with ⟨z, rfl, hz⟩ | hk
  · rw [List.mem_singleton.mp hc, hz] at hzero
    cases hzero
  · simpa using hk

theorem fronted_clusters {c : Char} {s : List Char} (hc : isBlank c = false) :
    Fronted U ((N.clusters (c :: s)).map U.norm).flatten := by
  have hzero : isZeroWidth c = false := ((Bool.or_eq_false_iff).mp hc).2
  have hflatten := List.flatten_splitBy N.joins (c :: s)
  unfold clusters
  cases hgroups : (c :: s).splitBy N.joins with
  | nil =>
    rw [hgroups] at hflatten
    cases hflatten
  | cons k gs =>
    have hk : k ∈ (c :: s).splitBy N.joins := hgroups ▸ List.mem_cons_self
    rw [hgroups, List.flatten_cons] at hflatten
    obtain ⟨k, rfl⟩ : ∃ k', k = c :: k' := by
      cases k with
      | nil => exact absurd rfl (List.ne_nil_of_mem_splitBy hk)
      | cons b k => exact ⟨k, congrArg (· :: k) (List.cons.inj hflatten).1⟩
    have hany := N.group_kept hk List.mem_cons_self hzero
    rw [List.filter_cons_of_pos (by simp [hany]), List.map_cons, List.flatten_cons]
    exact (N.fronted c k hc).append_right _

theorem backed_clusters {c : Char} {s : List Char} (hc : isBlank c = false) :
    Backed ((N.clusters (s ++ [c])).map U.norm).flatten := by
  have hzero : isZeroWidth c = false := ((Bool.or_eq_false_iff).mp hc).2
  have hflatten := List.flatten_splitBy N.joins (s ++ [c])
  unfold clusters
  rcases List.eq_nil_or_concat ((s ++ [c]).splitBy N.joins) with hgroups | ⟨gs, k, hgroups⟩
  · rw [hgroups] at hflatten
    exact absurd hflatten.symm (by simp)
  · rw [List.concat_eq_append] at hgroups
    have hk : k ∈ (s ++ [c]).splitBy N.joins := by simp [hgroups]
    rw [hgroups, List.flatten_concat] at hflatten
    obtain ⟨k, rfl⟩ : ∃ k', k = k' ++ [c] := by
      rcases List.eq_nil_or_concat k with rfl | ⟨k, b, rfl⟩
      · exact absurd rfl (List.ne_nil_of_mem_splitBy hk)
      · rw [List.concat_eq_append, ← List.append_assoc] at hflatten
        exact ⟨k, by rw [List.concat_eq_append, (List.append_inj' hflatten rfl).2]⟩
    have hany := N.group_kept hk (List.mem_append_right k List.mem_cons_self) hzero
    rw [hgroups, List.filter_append, List.filter_cons_of_pos (by simp [hany]), List.filter_nil,
      List.map_append, List.flatten_append, List.map_singleton, List.flatten_singleton]
    exact (N.backed k c hc).append_left _

end Unicode.Nfkc

theorem isBlank_of_isWhiteSpace {c : Char} (hc : isWhiteSpace c = true) : isBlank c = true := by
  unfold isWhiteSpace at hc
  rw [isBlank, (Bool.and_eq_true_iff.mp hc).1, Bool.true_or]

/-- The text without the blank characters at its ends. -/
def core (s : List Char) : List Char := (s.dropWhile isBlank).rdropWhile isBlank

theorem isBlank_head_core {s t : List Char} {c : Char} (h : core s = c :: t) :
    isBlank c = false := by
  have hpre : core s <+: s.dropWhile isBlank := List.rdropWhile_prefix isBlank _
  rw [h] at hpre
  obtain ⟨u, hu⟩ := hpre
  have hnot := List.head?_dropWhile_not isBlank s
  rw [← hu] at hnot
  simpa using hnot

theorem isBlank_last_core {s t : List Char} {c : Char} (h : core s = t ++ [c]) :
    isBlank c = false := by
  have hne : core s ≠ [] := by simp [h]
  have hnot := List.rdropWhile_last_not isBlank _ hne
  simp only [show (s.dropWhile isBlank).rdropWhile isBlank = t ++ [c] from h,
    List.getLast_concat, Bool.not_eq_true] at hnot
  exact hnot

namespace Unicode.Nfkc

variable {U : Unicode} (N : U.Nfkc)

include N

/-- The normal forms of the clusters of a text, one after the other. -/
def text (s : List Char) : List Char := ((N.clusters (core s)).map U.norm).flatten

/-- **Names.** If `normalize_string` leaves a letter in front, it leaves the clusters. -/
theorem toList_normalizeString {raw : String} {c : Char} {cs : List Char}
    (h : (normalizeString U (String.ofList (trim raw.toList))).toList = c :: cs)
    (hc : U.isLetter c = true) : c :: cs = N.text raw.toList := by
  have htrim := N.strip_ends (p := isWhiteSpace)
    (fun d hd => isBlank_of_isWhiteSpace hd) raw.toList
  have hcore := N.strip_ends (p := isBlank) (fun d hd => hd) raw.toList
  have hname : (normalizeString U (String.ofList (trim raw.toList))).toList =
      stripChars (N.text raw.toList) := by
    unfold text
    rw [← N.filter_norm]
    refine Eq.trans ?_ (htrim.symm.trans hcore)
    unfold normalizeString strip
    simp only [String.toList_ofList]
    rfl
  rw [hname] at h
  have hne : core raw.toList ≠ [] := by
    intro hnil
    rw [text, hnil] at h
    cases h
  obtain ⟨d, t, hfront⟩ := List.exists_cons_of_ne_nil hne
  obtain ⟨t', d', hback⟩ : ∃ t' d', core raw.toList = t' ++ [d'] :=
    ⟨_, _, (List.dropLast_append_getLast hne).symm⟩
  rw [← h]
  refine stripChars_eq_self ?_ ?_ h hc
  · unfold text
    rw [hfront]
    exact N.fronted_clusters (isBlank_head_core hfront)
  · unfold text
    rw [hback]
    exact N.backed_clusters (isBlank_last_core hback)

/-! ## Normal texts -/

theorem normal_of_mem {s : List Char} (h : U.norm s = s) {c : Char} (hc : c ∈ s) :
    U.norm [c] = [c] := by
  obtain ⟨a, b, rfl⟩ := List.append_of_mem hc
  exact (N.normal_parts [c] b (N.normal_parts a (c :: b) h).2).1

/-- Neighbours in a normal text do not combine. -/
theorem isChain_of_normal {s : List Char} (h : U.norm s = s) :
    s.IsChain fun c d => U.norm [c, d] = [c, d] := by
  induction s with
  | nil => exact .nil
  | cons c s ih =>
    have htail := ih (N.normal_parts [c] s h).2
    cases s with
    | nil => exact .singleton c
    | cons d s => exact .cons_cons (N.normal_parts [c, d] s h).1 htail

theorem apart_of_normal {ks : List (List Char)}
    (h : U.norm (ks.map U.norm).flatten = (ks.map U.norm).flatten) : U.Apart ks := by
  induction ks with
  | nil => exact .nil
  | cons k ks ih =>
    have htail := ih (N.normal_parts (U.norm k) _ h).2
    cases ks with
    | nil => exact .singleton k
    | cons l ks =>
      rw [List.map_cons, List.map_cons, List.flatten_cons, List.flatten_cons,
        ← List.append_assoc] at h
      have hpair := (N.normal_parts _ _ h).1
      rw [N.norm_append] at hpair
      exact .cons_cons hpair htail

theorem normal_of_apart {ks : List (List Char)} (hne : [] ∉ ks) (h : U.Apart ks)
    (hletters : ∀ c ∈ (ks.map U.norm).flatten, U.isLetter c = true ∨ isNameSeparator c = true) :
    U.norm (ks.map U.norm).flatten = (ks.map U.norm).flatten := by
  refine N.normal_of_pairs _ hletters (fun c hc => ?_) ((List.isChain_flatten ?_).mpr ⟨?_, ?_⟩)
  · obtain ⟨l, hl, hc⟩ := List.mem_flatten.mp hc
    obtain ⟨k, -, rfl⟩ := List.mem_map.mp hl
    exact N.normal_of_mem (N.norm_norm k) hc
  · intro hnil
    obtain ⟨k, hk, hknil⟩ := List.mem_map.mp hnil
    exact N.norm_ne_nil (fun h => hne (h ▸ hk)) hknil
  · intro l hl
    obtain ⟨k, -, rfl⟩ := List.mem_map.mp hl
    exact N.isChain_of_normal (N.norm_norm k)
  · refine (List.isChain_map U.norm).mpr (h.imp fun k l hkl => ?_)
    have hnormal := N.isChain_of_normal (N.norm_norm (k ++ l))
    rw [hkl] at hnormal
    exact (List.isChain_append.mp hnormal).2.2

theorem text_normal_iff {s : List Char}
    (hletters : ∀ c ∈ N.text s, U.isLetter c = true ∨ isNameSeparator c = true) :
    U.norm (N.text s) = N.text s ↔ U.Apart (N.clusters (core s)) := by
  refine ⟨N.apart_of_normal, fun h => N.normal_of_apart ?_ h hletters⟩
  exact fun hnil => List.nil_notMem_splitBy _ _ (List.mem_filter.mp hnil).1

theorem not_zeroWidth_text (s : List Char) : ∀ c ∈ N.text s, isZeroWidth c = false := by
  intro c hc
  obtain ⟨l, hl, hc⟩ := List.mem_flatten.mp hc
  obtain ⟨k, hk, rfl⟩ := List.mem_map.mp hl
  have hany := (List.mem_filter.mp hk).2
  exact N.noZeroWidth k (by simpa using hany) c hc

end Unicode.Nfkc

end ApiTemplate.Identity
