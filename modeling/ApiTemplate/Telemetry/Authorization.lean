import ApiTemplate.Telemetry.SensitiveKeys

/-!
# Authorization headers

The header of a request in a text. The secret of its match is the scheme, so the credential behind
it stays, unless it hides itself or what is around it does.
-/

namespace ApiTemplate.Telemetry

open Substitution
open Substitution.Rule (prefix_append_cases mem_head?_mono)

/-! ## Where a credential is hidden -/

/-- The credential has a group of its own, with more than a part of the mark behind it. -/
def HidesItself (credential : List Char) : Prop :=
  ∃ a g secret, credential = a ++ (g ++ secret) ∧ IsGroup g ∧ secret ≠ [] ∧
    ¬ secret <+: REDACTED.toList

/-- The secret of a match in `p` reaches the header behind `p`. -/
def Swallowed (p text : List Char) : Prop :=
  ∃ before run, secretRule.Taken text before ∧ p = before ++ run ∧ ∀ c ∈ run, isSecretChar c = true

/-- The credential is a separator and a secret, more than a part of the mark. -/
def IsValue (credential : List Char) : Prop :=
  ∃ sep secret, credential = sep :: secret ∧ IsSeparator sep ∧ secret ≠ [] ∧
    ¬ secret <+: REDACTED.toList

/-- The credential is what stands in front of some secret, with a part of the mark. -/
def Copied (credential text : List Char) : Prop :=
  ∃ before b part, secretRule.Taken text before ∧ b <:+ before ∧ part <+: REDACTED.toList ∧
    part ≠ [] ∧ credential = b ++ part

/-! ## The scan of the header -/

/-- The name of the header, in any case. -/
def IsHeaderName (name : List Char) : Prop := name.map foldCase = "authorization".toList

instance : DecidablePred IsHeaderName := fun _ => inferInstanceAs (Decidable (_ = _))

theorem IsHeaderName.isWord {name : List Char} (h : IsHeaderName name) : IsWord name :=
  ⟨"authorization", by decide, h⟩

/-- No word ends in the name of the header but the name itself. -/
theorem IsHeaderName.eq_nil {p name : List Char} (h : IsHeaderName name) (hw : IsWord (p ++ name)) :
    p = [] := by
  obtain ⟨word, hword, hmap⟩ := hw
  have hsuffix : ∀ word ∈ textWords, "authorization".toList <:+ word.toList →
      word.toList.length = "authorization".toList.length := by decide
  have hlength := hsuffix word hword ⟨p.map foldCase, by rw [← hmap, List.map_append, h]⟩
  rw [← hmap, ← h, List.length_map, List.length_map, List.length_append] at hlength
  exact List.eq_nil_of_length_eq_zero (by omega)

section

variable {p name more : List Char}

theorem IsHeaderName.exists_cons (h : IsHeaderName name) :
    ∃ c cs, name = c :: cs ∧ IsKeyChar c := by
  obtain ⟨c, cs, rfl⟩ := List.exists_cons_of_ne_nil h.isWord.ne_nil
  exact ⟨c, cs, rfl, (isKeyChar_of_mem_word h.isWord List.mem_cons_self).1⟩

/-- The group of a match does not end inside of the header. -/
theorem IsHeaderName.eq_nil_of_group (hname : IsHeaderName name) {d tail : List Char}
    (hgroup : IsGroup (p ++ d)) (hne : d ≠ []) (h : d ++ tail = name ++ ':' :: more) : p = [] := by
  obtain ⟨w, joint, hsplit, hw, hjoint⟩ := hgroup
  rcases List.append_eq_append_iff.mp hsplit with ⟨w', rfl, rfl⟩ | ⟨p', rfl, rfl⟩
  · obtain ⟨c, behind, rfl, hc⟩ := hjoint.exists_cons
    have hkeys : ∀ x ∈ w', IsKeyChar x := fun x hx =>
      (isKeyChar_of_mem_word hw (List.mem_append_right p hx)).1
    rw [List.append_assoc] at h
    have heq := append_inj_of_not (P := IsKeyChar) h hkeys
      (fun x hx => (isKeyChar_of_mem_word hname.isWord hx).1) (by rintro x ⟨⟩; exact hc)
      (by rintro x ⟨⟩; decide)
    exact hname.eq_nil (heq ▸ hw)
  · -- the name begins with a character of a key
    obtain ⟨c, cs, rfl, hc⟩ := hname.exists_cons
    obtain ⟨x, d, rfl⟩ := List.exists_cons_of_ne_nil hne
    obtain ⟨rfl, -⟩ := List.cons.inj h
    exact absurd hc (hjoint.not_isKeyChar x (by simp))

/-- A secret that begins in front of the header ends at the blank behind its name. -/
theorem reach_of_secret (hname : IsHeaderName name) {group b as rest : List Char}
    (hfind : secretRule.find (group ++ ((b ++ as) ++ rest)) = some (group, rest))
    (h : name ++ ':' :: ' ' :: more = as ++ rest) :
    (∃ out, secretRule.Reach (' ' :: more) ((group ++ b) ++ (name ++ [':'])) out) ∧
      Swallowed (group ++ b) (group ++ ((b ++ as) ++ rest)) := by
  obtain ⟨-, hrun, hrest⟩ := Rule.find_run hfind
  have hparts : as ++ rest = (name ++ [':']) ++ ' ' :: more := by
    rw [← h]
    simp
  have hnameRun : ∀ c ∈ name ++ [':'], isSecretChar c = true := by
    intro c hc
    rcases List.mem_append.mp hc with hc | hc
    · exact (isKeyChar_of_mem_word hname.isWord hc).1.1
    · rw [List.mem_singleton.mp hc]
      decide
  have heq := append_inj_of_not (P := fun c => isSecretChar c = true) hparts
    (fun c hc => hrun c (List.mem_append_right b hc)) hnameRun
    (fun c hc hs => absurd (hs.symm.trans (hrest c hc)) (by decide)) (by rintro c ⟨⟩; decide)
  subst heq
  obtain rfl := List.append_cancel_left hparts
  refine ⟨⟨group ++ secretRule.mark, ?_⟩, group, b, .here hfind, rfl,
    fun c hc => hrun c (List.mem_append_left _ hc)⟩
  rw [List.append_assoc]
  exact Rule.reach_match hfind

/-- The scan reaches the header, or a secret that begins in front of it ends at the blank behind its
name. -/
theorem reach_header (hname : IsHeaderName name) {text : List Char} :
    ∀ {p : List Char}, text = p ++ (name ++ ':' :: ' ' :: more) →
      (∃ out, secretRule.Reach (name ++ ':' :: ' ' :: more) p out) ∨
      (∃ out, secretRule.Reach (' ' :: more) (p ++ (name ++ [':'])) out) ∧ Swallowed p text := by
  induction text using Rule.scan_induction (R := secretRule) with
  | nil =>
    intro p h
    exact absurd h.symm (by simp)
  | keep c text hfind ih =>
    intro p h
    rcases p with _ | ⟨d, p⟩
    · exact .inl ⟨[], .nil⟩
    obtain ⟨rfl, htext⟩ := List.cons.inj h
    have hblank : (p ++ (name ++ [':'])) ++ ' ' :: more = text := by rw [htext]; simp
    rcases ih htext with ⟨out, hreach⟩ | ⟨⟨out, hreach⟩, before, run, htaken, hp, hrun⟩
    · exact .inl ⟨c :: out, .keep (by rw [htext] at hfind; exact hfind) hreach⟩
    · refine .inr ⟨⟨c :: out, ?_⟩, c :: before, run, .keep hfind htaken, by rw [hp]; rfl, hrun⟩
      rw [List.cons_append]
      exact .keep (by rw [hblank]; exact hfind) hreach
  | replace group run rest hfind ih =>
    intro p h
    obtain ⟨hne, hrun, hrest⟩ := Rule.find_run hfind
    rw [← List.append_assoc] at h
    rcases List.append_eq_append_iff.mp h with ⟨as, rfl, has⟩ | ⟨as, has, hbehind⟩
    · -- the match ends in front of the header
      have hblank : (as ++ (name ++ [':'])) ++ ' ' :: more = rest := by rw [has]; simp
      rw [List.append_assoc]
      rcases ih has with ⟨out, hreach⟩ | ⟨⟨out, hreach⟩, before, run', htaken, rfl, hrun'⟩
      · refine .inl ⟨group ++ (secretRule.mark ++ out), .replace ?_ hreach⟩
        rw [← has]
        exact hfind
      · refine .inr ⟨⟨group ++ (secretRule.mark ++ out), ?_⟩, group ++ (run ++ before), run',
          .replace hfind htaken, by simp only [List.append_assoc], hrun'⟩
        rw [List.append_assoc, List.append_assoc]
        refine .replace ?_ hreach
        rw [hblank]
        exact hfind
    · by_cases hnil : as = []
      · rw [hnil, List.append_nil] at has
        rw [hnil, List.nil_append] at hbehind
        rw [← hbehind] at hfind
        exact .inl ⟨_, has ▸ Rule.reach_match hfind⟩
      rcases List.append_eq_append_iff.mp has with ⟨b, rfl, rfl⟩ | ⟨d, hgroup, hd⟩
      · exact .inr (reach_of_secret hname hfind hbehind)
      by_cases hnil' : d = []
      · rw [hnil', List.append_nil] at hgroup
        rw [hnil', List.nil_append] at hd
        subst hgroup
        subst hd
        have hsecret := reach_of_secret (b := []) hname hfind hbehind
        rw [List.append_nil] at hsecret
        exact .inr hsecret
      · rw [hd, List.append_assoc] at hbehind
        obtain rfl := hname.eq_nil_of_group (hgroup ▸ isGroup_of_find hfind) hnil' hbehind.symm
        exact .inl ⟨[], .nil⟩

theorem taken_ne_nil {text before : List Char} (h : secretRule.Taken text before) :
    before ≠ [] := by
  cases h with
  | here hfind =>
    obtain ⟨c, g, rfl, -⟩ := (isGroup_of_find hfind).exists_cons
    exact List.cons_ne_nil _ _
  | keep _ _ => exact List.cons_ne_nil _ _
  | replace hfind _ =>
    obtain ⟨c, g, rfl, -⟩ := (isGroup_of_find hfind).exists_cons
    exact List.cons_ne_nil _ _

/-- Where the scan reaches the header, no secret reaches it. -/
theorem not_swallowed_of_reach {rest out : List Char} (h : secretRule.Reach rest p out)
    (hrest : ∃ c ∈ rest.head?, isSecretChar c = true) : ¬ Swallowed p (p ++ rest) := by
  rintro ⟨before, run, htaken, hp, hrun⟩
  obtain ⟨d, hd, hsecret⟩ := hrest
  induction h generalizing before with
  | nil =>
    obtain ⟨rfl, rfl⟩ := List.append_eq_nil_iff.mp hp.symm
    exact taken_ne_nil htaken rfl
  | @keep c text out hfind _ ih =>
    obtain ⟨more, rfl, hmore⟩ := htaken.of_keep hfind
    exact ih more hmore (List.cons.inj hp).2
  | @replace group taken text out hfind _ ih =>
    rw [List.append_assoc, List.append_assoc] at htaken
    rcases htaken.of_replace hfind with rfl | ⟨more, rfl, hmore⟩
    · -- the secret ends before the header
      have hhead := (Rule.find_run hfind).2.2
      obtain rfl := List.append_cancel_left hp
      rcases text with _ | ⟨c, text⟩
      · exact absurd (hsecret.symm.trans (hhead d hd)) (by decide)
      · exact absurd ((hrun c (by simp)).symm.trans (hhead c rfl)) (by decide)
    · rw [List.append_assoc, List.append_assoc] at hp
      exact ih more hmore (List.append_cancel_left (List.append_cancel_left hp))

/-! ## The scan of the credential -/

/-- A credential that does not hide itself begins the result, if the scan reaches it. -/
theorem prefix_sub_of_not {credential q : List Char}
    (hcredential : ∀ c ∈ credential, isSecretChar c = true)
    (hq : ∀ c ∈ q.head?, isSecretChar c = false) (h : ¬ HidesItself credential) :
    credential <+: secretRule.sub (credential ++ q) := by
  induction credential with
  | nil => exact List.nil_prefix
  | cons c credential ih =>
    have htail : ¬ HidesItself credential := by
      rintro ⟨a, g, secret, rfl, hg⟩
      exact h ⟨c :: a, g, secret, rfl, hg⟩
    rcases hfind : secretRule.find (c :: (credential ++ q)) with _ | ⟨g, rest⟩
    · rw [List.cons_append, Rule.sub_keep hfind]
      exact List.cons_prefix_cons.mpr ⟨rfl, ih (List.forall_mem_cons.mp hcredential).2 htail⟩
    · obtain ⟨secret, hsplit, hg, hne, hsecret, hrest⟩ := secretAt_eq_some.mp hfind
      rw [List.cons_append, Rule.sub_replace hfind]
      rw [← List.cons_append] at hsplit
      rcases List.append_eq_append_iff.mp hsplit with ⟨as, rfl, -⟩ | ⟨as, has, hsecretRest⟩
      · exact (List.prefix_append _ _).trans (List.prefix_append _ _)
      rw [has] at hcredential h ⊢
      refine (List.prefix_append_right_inj g).mpr ?_
      by_cases hnil : as = []
      · rw [hnil]
        exact List.nil_prefix
      -- the secret is the rest of the credential
      have heq := append_inj_of_not (P := fun c => isSecretChar c = true) hsecretRest hsecret
        (fun d hd => hcredential d (List.mem_append_right g hd))
        (fun d hd hs => absurd (hs.symm.trans (hrest d hd)) (by decide))
        (fun d hd hs => absurd (hs.symm.trans (hq d hd)) (by decide))
      have hpart : as <+: REDACTED.toList := by
        by_contra hno
        exact h ⟨[], g, as, rfl, hg, hnil, hno⟩
      exact hpart.trans (List.prefix_append _ _)

/-- A credential that hides itself is in no masked text. -/
theorem HidesItself.not_infix {credential : List Char} (h : HidesItself credential)
    (hcredential : ∀ c ∈ credential, isSecretChar c = true) (text : List Char) :
    ¬ credential <:+: secretRule.sub text := by
  obtain ⟨a, g, secret, rfl, hg, hne, hpart⟩ := h
  rintro ⟨front, back, hsplit⟩
  obtain ⟨x, secret, rfl⟩ := List.exists_cons_of_ne_nil hne
  have hsecret : ∀ c ∈ x :: secret, isSecretChar c = true := fun c hc =>
    hcredential c (List.mem_append_right a (List.mem_append_right g hc))
  obtain ⟨rest, hmark, hrest⟩ := isMasked_sub text (front ++ a) g x (secret ++ back)
    (by rw [← hsplit]; simp only [List.append_assoc, List.cons_append]) hg
    (hsecret x List.mem_cons_self)
  -- the secret is not longer than the mark
  have hpre : x :: secret <+: REDACTED.toList ++ rest := by
    rw [← hmark, ← List.cons_append]
    exact List.prefix_append _ _
  rcases prefix_append_cases hpre with hin | ⟨z, hz, hsplit', hrest'⟩
  · exact hpart hin
  · obtain ⟨d, z, rfl⟩ := List.exists_cons_of_ne_nil hz
    have hd := hrest d (mem_head?_mono hrest' rfl)
    rw [hsecret d (by rw [hsplit']; simp)] at hd
    cases hd

/-- Behind a word and a blank, the credential is a part of a group only with a separator. -/
theorem separator_of_find {w g rest text : List Char} {c : Char} (hw : IsWord w)
    (hc : isSecretChar c = true) (h : secretRule.find (w ++ ' ' :: c :: text) = some (g, rest)) :
    IsSeparator c ∧ ∃ more, g = w ++ ' ' :: c :: more := by
  obtain ⟨secret, hsplit, ⟨w', joint, rfl, hw', hjoint⟩, -⟩ := secretAt_eq_some.mp h
  rw [List.append_assoc] at hsplit
  have heq : w = w' := by
    obtain ⟨d, behind, rfl, hd⟩ := hjoint.exists_cons
    exact append_inj_of_not (P := IsKeyChar) hsplit
      (fun x hx => (isKeyChar_of_mem_word hw hx).1) (fun x hx => (isKeyChar_of_mem_word hw' hx).1)
      (by rintro x ⟨⟩; decide) (by rintro x ⟨⟩; exact hd)
  subst heq
  have hblank := List.append_cancel_left hsplit
  obtain ⟨quote, gap, sep, gap', quote', rfl, hquote, hgap, hsep, -, -⟩ := hjoint
  rcases hquote with rfl | rfl | rfl
  · rcases gap with _ | ⟨d, gap⟩
    · obtain ⟨rfl, -⟩ := List.cons.inj hblank
      exact absurd hsep (by decide)
    obtain ⟨rfl, hbehind⟩ := List.cons.inj hblank
    rcases gap with _ | ⟨d, gap⟩
    · obtain ⟨rfl, -⟩ := List.cons.inj hbehind
      exact ⟨hsep, gap' ++ quote', rfl⟩
    · obtain ⟨rfl, -⟩ := List.cons.inj hbehind
      have hspace := hgap c (by simp)
      rw [(not_isSpace_of_isSecretChar hc).1] at hspace
      cases hspace
  · exact absurd (List.cons.inj hblank).1 (by decide)
  · exact absurd (List.cons.inj hblank).1 (by decide)

/-- A key is scanned without a match, or up to a word that makes one. -/
theorem reach_key {rest key : List Char} (hkey : ∀ c ∈ key, IsKeyChar c)
    (hrest : ∀ c ∈ rest.head?, ¬ IsKeyChar c) :
    (secretRule.Reach rest key key ∧
      ∀ a w, key = a ++ w → w ≠ [] → secretRule.find (w ++ rest) = none) ∨
    ∃ a w, key = a ++ w ∧ IsWord w ∧ secretRule.find (w ++ rest) ≠ none ∧
      secretRule.Reach (w ++ rest) a a := by
  induction key with
  | nil => exact .inl ⟨.nil, fun a w h hne => absurd (List.append_eq_nil_iff.mp h.symm).2 hne⟩
  | cons c key ih =>
    by_cases hfind : secretRule.find (c :: (key ++ rest)) = none
    · rcases ih (List.forall_mem_cons.mp hkey).2 with
        ⟨hreach, hnone⟩ | ⟨a, w, rfl, hw, hsome, hreach⟩
      · refine .inl ⟨.keep hfind hreach, fun a w h hne => ?_⟩
        rcases a with _ | ⟨d, a⟩
        · have hw : w = c :: key := h.symm
          rw [hw]
          exact hfind
        · exact hnone a w (List.cons.inj h).2 hne
      · refine .inr ⟨c :: a, w, rfl, hw, hsome, .keep ?_ hreach⟩
        rw [← List.append_assoc]
        exact hfind
    · exact .inr ⟨[], c :: key, rfl, isWord_of_find hkey hrest hfind, hfind, .nil⟩

/-- Behind a blank that the scan keeps, only the credential itself can hide it. -/
theorem infix_iff_of_blank {front credential q out : List Char}
    (hcredential : ∀ c ∈ credential, isSecretChar c = true)
    (hq : ∀ c ∈ q.head?, isSecretChar c = false)
    (h : secretRule.Reach (' ' :: (credential ++ q)) front out) :
    ¬ (credential <:+: secretRule.sub (front ++ ' ' :: (credential ++ q))) ↔
      HidesItself credential := by
  have hfind : secretRule.find (' ' :: (credential ++ q)) = none :=
    find_of_not_isKeyChar (by decide)
  constructor
  · intro hno
    by_contra hhides
    refine hno ?_
    rw [h.sub_eq, Rule.sub_keep hfind]
    exact ((prefix_sub_of_not hcredential hq hhides).isInfix.trans
      (List.suffix_cons _ _).isInfix).trans (List.suffix_append _ _).isInfix
  · exact fun hhides => hhides.not_infix hcredential _

/-- Behind a word and a blank, a separator and what follows it are a match. -/
theorem find_value {w secret q : List Char} {c : Char} (hw : IsWord w) (hc : IsSeparator c)
    (hne : secret ≠ []) (hsecret : ∀ d ∈ secret, isSecretChar d = true)
    (hq : ∀ d ∈ q.head?, isSecretChar d = false) :
    secretRule.find ((w ++ [' ', c]) ++ (secret ++ q)) = some (w ++ [' ', c], q) := by
  refine secretAt_eq_some.mpr ⟨secret, rfl, ⟨w, [' ', c], rfl, hw, ?_⟩, hne, hsecret, hq⟩
  refine ⟨[], [' '], c, [], [], rfl, .inl rfl, fun d hd => ?_, hc, by simp, .inl rfl⟩
  rw [List.mem_singleton.mp hd]
  decide

/-- What is in two texts with another element between them is in one of them. -/
theorem infix_of_not_mem {α : Type} {a b y : List α} {x : α} (hx : x ∉ y)
    (h : y <:+: a ++ x :: b) : y <:+: a ∨ y <:+: b := by
  have hpre : ∀ z, z <+: x :: b → x ∉ z → z = [] := by
    intro z hz hxz
    by_contra hne
    obtain ⟨d, z, rfl⟩ := List.exists_cons_of_ne_nil hne
    obtain ⟨rfl, -⟩ := List.cons_prefix_cons.mp hz
    exact hxz List.mem_cons_self
  rcases Rule.infix_append_cases h with ⟨a', ha', hy⟩ | hy
  · rcases prefix_append_cases hy with hin | ⟨z, hne, rfl, hz⟩
    · exact .inl (hin.isInfix.trans ha'.isInfix)
    · exact absurd (hpre z hz fun hxz => hx (List.mem_append_right a' hxz)) hne
  · rcases List.infix_cons_iff.mp hy with hy | hy
    · rw [hpre y hy hx]
      exact .inl (List.nil_infix)
    · exact .inr hy

/-- A copied credential is in the masked text. -/
theorem Copied.infix_sub {credential text : List Char} (h : Copied credential text)
    (hcredential : ∀ c ∈ credential, isSecretChar c = true) :
    credential <:+: secretRule.sub text := by
  obtain ⟨before, b, part, htaken, hb, hpart, -, rfl⟩ := h
  exact ((List.prefix_append_right_inj b).mpr hpart).isInfix.trans
    (htaken.infix_sub hb fun c hc => hcredential c (List.mem_append_left part hc))

theorem Copied.of_taken {credential text more : List Char} (front : List Char)
    (h : Copied credential more)
    (hfront : ∀ before, secretRule.Taken more before → secretRule.Taken text (front ++ before)) :
    Copied credential text := by
  obtain ⟨before, b, part, htaken, hb, hpart⟩ := h
  exact ⟨front ++ before, b, part, hfront before htaken, hb.trans (List.suffix_append _ _), hpart⟩

section

variable {front out w secret q : List Char} {c : Char} (hw : IsWord w) (hc : IsSeparator c)
  (hne : secret ≠ []) (hsecret : ∀ d ∈ secret, isSecretChar d = true)
  (hq : ∀ d ∈ q.head?, isSecretChar d = false)
  (h : secretRule.Reach ((w ++ [' ', c]) ++ (secret ++ q)) front out)

include hw hc hne hsecret hq h

theorem sub_value : secretRule.sub (front ++ ((w ++ [' ', c]) ++ (secret ++ q))) =
    (out ++ w) ++ ' ' :: c :: (REDACTED.toList ++ secretRule.sub q) := by
  rw [h.sub_eq, Rule.sub_replace (find_value hw hc hne hsecret hq)]
  simp only [List.append_assoc, List.cons_append, List.nil_append]
  rfl

/-- Where a value behind the word of its match is shown, the mark or another secret shows it. -/
theorem cases_of_infix_sub (hout : ¬ (c :: secret <:+: front ++ w))
    (hin : ¬ (c :: secret <:+: q))
    (hoccurs : c :: secret <:+: secretRule.sub (front ++ ((w ++ [' ', c]) ++ (secret ++ q)))) :
    secret <+: REDACTED.toList ∨
      Copied (c :: secret) (front ++ ((w ++ [' ', c]) ++ (secret ++ q))) := by
  have hcs : ∀ d ∈ c :: secret, isSecretChar d = true :=
    List.forall_mem_cons.mpr ⟨by rcases hc with rfl | rfl <;> decide, hsecret⟩
  have hstar : c ≠ '*' := by
    rintro rfl
    exact absurd hc (by decide)
  have hmark : ¬ (c :: secret <:+: REDACTED.toList) := fun hmark =>
    hstar (eq_star_of_mem (hmark.mem List.mem_cons_self))
  have hblank : ' ' ∉ c :: secret := fun hd => absurd (hcs ' ' hd) (by decide)
  rw [sub_value hw hc hne hsecret hq h] at hoccurs
  rcases infix_of_not_mem hblank hoccurs with hoccurs | hoccurs
  · -- in front of the blank
    have hword : w <+: (w ++ [' ', c]) ++ (secret ++ q) := by
      rw [List.append_assoc]
      exact List.prefix_append _ _
    rcases h.infix_cases hword hcs hoccurs with hin' | htaken | hmark'
    · exact absurd hin' hout
    · exact .inr htaken
    · exact absurd hmark' hmark
  rcases List.infix_cons_iff.mp hoccurs with hpre | hoccurs
  · -- at the mark
    rcases prefix_append_cases (List.cons_prefix_cons.mp hpre).2 with hpart | ⟨z, hne', rfl, hz⟩
    · exact .inl hpart
    · have hhead := (Rule.reach_sub (R := secretRule) q).head (u := [])
      rw [List.append_nil, List.append_nil] at hhead
      obtain ⟨d, z, rfl⟩ := List.exists_cons_of_ne_nil hne'
      have hd := hhead hq d (mem_head?_mono hz rfl)
      exact absurd ((hsecret d (by simp)).symm.trans hd) (by decide)
  -- behind the mark
  have hbehind : c :: secret <:+: secretRule.sub q ++ [] := by
    rw [List.append_nil]
    rcases Rule.infix_append_cases hoccurs with ⟨m, hm, hpre⟩ | hoccurs
    · rcases m with _ | ⟨d, m⟩
      · exact hpre.isInfix
      · obtain ⟨rfl, -⟩ := List.cons_prefix_cons.mp hpre
        exact absurd (eq_star_of_mem (hm.mem List.mem_cons_self)) hstar
    · exact hoccurs
  rcases (Rule.reach_sub q).infix_cases List.nil_prefix hcs hbehind with hin' | hcopied | hmark'
  · rw [List.append_nil] at hin'
    exact absurd hin' hin
  · rw [List.append_nil] at hcopied
    refine .inr (Copied.of_taken (front ++ ((w ++ [' ', c]) ++ secret)) hcopied ?_)
    intro before htaken
    have hbefore := h.taken (.replace (find_value hw hc hne hsecret hq) htaken)
    simpa only [List.append_assoc] using hbefore
  · exact absurd hmark' hmark

/-- A value behind the word of its match is hidden, unless the mark or another secret shows it. -/
theorem infix_iff_of_value (hout : ¬ (c :: secret <:+: front ++ w))
    (hin : ¬ (c :: secret <:+: q)) :
    ¬ (c :: secret <:+: secretRule.sub (front ++ ((w ++ [' ', c]) ++ (secret ++ q)))) ↔
      ¬ secret <+: REDACTED.toList ∧
        ¬ Copied (c :: secret) (front ++ ((w ++ [' ', c]) ++ (secret ++ q))) := by
  rw [← not_or, not_iff_not]
  constructor
  · exact cases_of_infix_sub hw hc hne hsecret hq h hout hin
  rintro (hpart | hcopied)
  · rw [sub_value hw hc hne hsecret hq h]
    have hpre : c :: secret <+: c :: (REDACTED.toList ++ secretRule.sub q) :=
      List.cons_prefix_cons.mpr ⟨rfl, hpart.trans (List.prefix_append _ _)⟩
    exact (hpre.isInfix.trans (List.suffix_cons _ _).isInfix).trans
      (List.suffix_append _ _).isInfix
  · refine hcopied.infix_sub (List.forall_mem_cons.mpr ⟨?_, hsecret⟩)
    rcases hc with rfl | rfl <;> decide

end

/-- A credential that occurs once is not in what is around it. -/
theorem not_infix_of_once {front credential q : List Char} (hne : credential ≠ [])
    (once : ∀ a b, front ++ (credential ++ q) = a ++ (credential ++ b) → a = front) :
    ¬ (credential <:+: front) ∧ ¬ (credential <:+: q) := by
  have hpos := List.length_pos_iff.mpr hne
  constructor
  · rintro ⟨a, b, rfl⟩
    have hlength := congrArg List.length (once a (b ++ (credential ++ q)) (by simp))
    rw [List.length_append, List.length_append] at hlength
    omega
  · rintro ⟨a, b, rfl⟩
    have hlength := congrArg List.length (once (front ++ (credential ++ a)) b (by simp))
    rw [List.length_append, List.length_append] at hlength
    omega

/-- A value as a credential, behind a word and a blank. -/
theorem infix_iff_of_find {front out w credential q : List Char} (hw : IsWord w)
    (hne : credential ≠ []) (hcredential : ∀ c ∈ credential, isSecretChar c = true)
    (hq : ∀ c ∈ q.head?, isSecretChar c = false)
    (h : secretRule.Reach (w ++ ' ' :: (credential ++ q)) front out)
    (hfind : secretRule.find (w ++ ' ' :: (credential ++ q)) ≠ none)
    (hout : ¬ (credential <:+: front ++ w)) (hin : ¬ (credential <:+: q)) :
    ¬ (credential <:+: secretRule.sub (front ++ (w ++ ' ' :: (credential ++ q)))) ↔
      HidesItself credential ∨
        IsValue credential ∧ ¬ Copied credential (front ++ (w ++ ' ' :: (credential ++ q))) := by
  obtain ⟨⟨g, rest⟩, hmatch⟩ := Option.ne_none_iff_exists'.mp hfind
  obtain ⟨c, secret, rfl⟩ := List.exists_cons_of_ne_nil hne
  obtain ⟨hc, more, rfl⟩ := separator_of_find hw (hcredential c List.mem_cons_self) hmatch
  by_cases hsecret : secret = []
  · -- the separator stays
    subst hsecret
    have hoccurs : [c] <:+: secretRule.sub (front ++ (w ++ ' ' :: ([c] ++ q))) := by
      rw [h.sub_eq]
      refine List.IsInfix.trans ?_ (List.suffix_append _ _).isInfix
      refine ⟨w ++ [' '], more ++ (secretRule.mark ++ secretRule.sub rest), ?_⟩
      rw [Rule.sub_replace hmatch]
      simp only [List.append_assoc, List.cons_append, List.nil_append]
    refine iff_of_false (fun hno => hno hoccurs) ?_
    rintro (hhides | ⟨⟨sep, secret, heq, -, hne', -⟩, -⟩)
    · exact hhides.not_infix hcredential _ hoccurs
    · exact hne' (List.cons.inj heq).2.symm
  · have htext : w ++ ' ' :: (c :: secret ++ q) = (w ++ [' ', c]) ++ (secret ++ q) := by simp
    have hiff := infix_iff_of_value hw hc hsecret (List.forall_mem_cons.mp hcredential).2 hq
      (htext ▸ h) hout hin
    rw [← htext] at hiff
    constructor
    · intro hno
      obtain ⟨hpart, hcopied⟩ := hiff.mp hno
      exact .inr ⟨⟨c, secret, rfl, hc, hsecret, hpart⟩, hcopied⟩
    · rintro (hhides | ⟨⟨sep, secret', heq, -, -, hpart⟩, hcopied⟩)
      · exact hhides.not_infix hcredential _
      · obtain ⟨rfl, rfl⟩ := List.cons.inj heq
        exact hiff.mpr ⟨hpart, hcopied⟩

/-- Where the scan reaches the scheme, the credential is hidden if it hides itself, or if it is a
value for the word at the end of the scheme. -/
theorem infix_iff_of_scheme {front scheme out credential q : List Char}
    (hscheme : ∀ c ∈ scheme, IsKeyChar c) (hne : credential ≠ [])
    (hcredential : ∀ c ∈ credential, isSecretChar c = true)
    (hq : ∀ c ∈ q.head?, isSecretChar c = false)
    (h : secretRule.Reach (scheme ++ ' ' :: (credential ++ q)) front out)
    (hout : ¬ (credential <:+: front ++ scheme)) (hin : ¬ (credential <:+: q)) :
    ¬ (credential <:+: secretRule.sub (front ++ (scheme ++ ' ' :: (credential ++ q)))) ↔
      HidesItself credential ∨ EndsInWord scheme ∧ IsValue credential ∧
        ¬ Copied credential (front ++ (scheme ++ ' ' :: (credential ++ q))) := by
  have hblank : ∀ c ∈ (' ' :: (credential ++ q)).head?, ¬ IsKeyChar c := by
    rintro c ⟨⟩
    decide
  rcases reach_key hscheme hblank with ⟨hreach, hnone⟩ | ⟨a, w, rfl, hw, hsome, hreach⟩
  · -- no match in the scheme
    have hcred := infix_iff_of_blank hcredential hq (h.append hreach)
    rw [List.append_assoc] at hcred
    rw [hcred, or_iff_left]
    rintro ⟨⟨a, w, rfl, hw⟩, ⟨sep, secret, rfl, hsep, hne', -⟩, -⟩
    have hvalue := find_value hw hsep hne' (List.forall_mem_cons.mp hcredential).2 hq
    rw [List.append_assoc] at hvalue
    exact absurd ((hnone a w rfl hw.ne_nil).symm.trans hvalue) (by simp)
  · have hends : EndsInWord (a ++ w) := ⟨a, w, rfl, hw⟩
    have htext : front ++ ((a ++ w) ++ ' ' :: (credential ++ q)) =
        (front ++ a) ++ (w ++ ' ' :: (credential ++ q)) := by simp only [List.append_assoc]
    rw [List.append_assoc] at h
    have hiff := infix_iff_of_find hw hne hcredential hq (h.append hreach) hsome
      (by rwa [List.append_assoc]) hin
    rw [htext, hiff, and_iff_right hends]

/-- The header takes its scheme for the secret. -/
theorem find_header (hname : IsHeaderName name) {scheme : List Char} (hne : scheme ≠ [])
    (hscheme : ∀ c ∈ scheme, IsKeyChar c) :
    secretRule.find ((name ++ [':', ' ']) ++ (scheme ++ ' ' :: more)) =
      some (name ++ [':', ' '], ' ' :: more) := by
  refine secretAt_eq_some.mpr ⟨scheme, rfl, ⟨name, [':', ' '], rfl, hname.isWord, ?_⟩, hne,
    fun c hc => (hscheme c hc).1, ?_⟩
  · exact IsPairSeparator.isJoint (.inr rfl)
  · rintro c ⟨⟩
    decide

end

/-! ## The credential -/

/-- The text of a request's header, with what is around it. -/
def headerText (p name scheme credential q : String) : String :=
  p ++ name ++ ": " ++ scheme ++ " " ++ credential ++ q

theorem toList_headerText (p name scheme credential q : String) :
    (headerText p name scheme credential q).toList = p.toList ++ (name.toList ++ ':' :: ' ' ::
      (scheme.toList ++ ' ' :: (credential.toList ++ q.toList))) := by
  simp [headerText]

/-- The credential of a header is hidden if and only if it hides itself, or a secret in front of the
header runs into it and the scheme ends in a word of the text pattern for which the credential is a
value, shown by no other secret. -/
theorem maskText_credential_iff (p name scheme credential q : String)
    (hname : IsHeaderName name.toList) (hne : scheme ≠ "")
    (hscheme : ∀ c ∈ scheme.toList, IsKeyChar c) (hne' : credential ≠ "")
    (hcredential : ∀ c ∈ credential.toList, isSecretChar c = true)
    (hq : ∀ c ∈ q.toList.head?, isSpace c = true)
    (once : ∀ a b, (headerText p name scheme credential q).toList = a ++ (credential.toList ++ b) →
      a = (p ++ name ++ ": " ++ scheme ++ " ").toList) :
    ¬ (credential.toList <:+: (maskText (headerText p name scheme credential q)).toList) ↔
      HidesItself credential.toList ∨
        Swallowed p.toList (headerText p name scheme credential q).toList ∧
          EndsInWord scheme.toList ∧ IsValue credential.toList ∧
            ¬ Copied credential.toList (headerText p name scheme credential q).toList := by
  have hnil : scheme.toList ≠ [] := fun h => hne (String.toList_inj.mp h)
  have hnil' : credential.toList ≠ [] := fun h => hne' (String.toList_inj.mp h)
  have hq' : ∀ c ∈ q.toList.head?, isSecretChar c = false := fun c hc =>
    isSecretChar_of_isSpace (hq c hc)
  have htext := toList_headerText p name scheme credential q
  have honce : ∀ a b, (p ++ name ++ ": " ++ scheme ++ " ").toList ++
      (credential.toList ++ q.toList) = a ++ (credential.toList ++ b) →
        a = (p ++ name ++ ": " ++ scheme ++ " ").toList :=
    fun a b h => once a b (by rw [← h, htext]; simp)
  obtain ⟨hout, hin⟩ := not_infix_of_once hnil' honce
  rw [toList_maskText, htext]
  rcases reach_header hname htext with ⟨out, hreach⟩ | ⟨⟨out, hreach⟩, hswallowed⟩
  · -- the header takes the scheme
    have hhead : ∃ c ∈ (name.toList ++ ':' :: ' ' :: (scheme.toList ++
        ' ' :: (credential.toList ++ q.toList))).head?, isSecretChar c = true := by
      obtain ⟨c, cs, hcons, hc⟩ := hname.exists_cons
      rw [hcons]
      exact ⟨c, rfl, hc.1⟩
    have hno := not_swallowed_of_reach hreach hhead
    have hsplit : name.toList ++ ':' :: ' ' :: (scheme.toList ++
        ' ' :: (credential.toList ++ q.toList)) = ((name.toList ++ [':', ' ']) ++ scheme.toList) ++
          ' ' :: (credential.toList ++ q.toList) := by simp
    rw [hsplit] at hreach hno ⊢
    have hiff := infix_iff_of_blank hcredential hq'
      (hreach.append (Rule.reach_match (find_header hname hnil hscheme)))
    rw [List.append_assoc] at hiff
    rw [hiff, or_iff_left fun h => hno h.1]
  · have hsplit : p.toList ++ (name.toList ++ ':' :: ' ' :: (scheme.toList ++
        ' ' :: (credential.toList ++ q.toList))) = (p.toList ++ (name.toList ++ [':']) ++ [' ']) ++
          (scheme.toList ++ ' ' :: (credential.toList ++ q.toList)) := by simp
    rw [htext] at hswallowed
    rw [hsplit] at hswallowed ⊢
    have hblank : secretRule.Reach (scheme.toList ++ ' ' :: (credential.toList ++ q.toList))
        [' '] [' '] := .keep (find_of_not_isKeyChar (by decide)) .nil
    rw [infix_iff_of_scheme hscheme hnil' hcredential hq' (hreach.append hblank)
      (fun h => hout (h.trans ⟨[], [' '], by simp⟩)) hin, and_iff_right hswallowed]

theorem eq_of_occurs_once {text credential front : List Char} (hfront : front <+: text)
    (h : ∀ n < text.length + 1, credential <+: text.drop n → n = front.length) {a b : List Char}
    (heq : text = a ++ (credential ++ b)) : a = front := by
  have hlength : a.length = front.length := by
    refine h a.length ?_ ?_
    · rw [heq, List.length_append]
      omega
    · rw [heq, List.drop_left]
      exact List.prefix_append _ _
  have ha : a <+: text := ⟨credential ++ b, heq.symm⟩
  exact List.IsPrefix.eq_of_length (List.prefix_of_prefix_length_le ha hfront hlength.le) hlength

theorem maskText_credential_token :
    ¬ ("token=abc".toList <:+:
      (maskText (headerText "" "Authorization" "Bearer" "token=abc" "")).toList) :=
  (maskText_credential_iff "" "Authorization" "Bearer" "token=abc" "" (by decide) (by decide)
    (List.all_iff_forall_prop.mp (by decide)) (by decide) (List.all_iff_forall_prop.mp (by decide))
    (by simp) fun _ _ => eq_of_occurs_once (by decide) (by decide)).mpr
    (.inl ⟨[], "token=".toList, "abc".toList, by decide,
      ⟨"token".toList, ['='], by decide, ⟨"token", by decide, by decide⟩,
        IsPairSeparator.isJoint (.inl rfl)⟩, by decide, by decide⟩)

/-- The credential of a request occurs once, and is in the masked text. -/
theorem not_masked_credential :
    (∀ a b, (headerText "" "Authorization" "Bearer" "xyz" "").toList = a ++ ("xyz".toList ++ b) →
      a = "Authorization: Bearer ".toList) ∧
    "xyz".toList <:+: (maskText (headerText "" "Authorization" "Bearer" "xyz" "")).toList := by
  constructor
  · exact fun _ _ => eq_of_occurs_once (by decide) (by decide)
  · decide

end ApiTemplate.Telemetry
