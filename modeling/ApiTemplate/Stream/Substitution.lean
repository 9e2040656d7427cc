import Mathlib.Data.List.Infix
import Mathlib.Tactic.Common

/-!
# Substitution of runs

A rule finds a group and, behind it, a run: as many elements of a kind as there are. The leftmost
matches that do not overlap are replaced, group and all, by the group and a mark. What is in the
result and not in the text overlaps a mark.
-/

namespace Substitution

variable {α : Type}

/-- Two texts of which the first elements without `P` are the same are split there alike. -/
theorem append_inj_of_not {P : α → Prop} {a b s t : List α} (h : a ++ s = b ++ t)
    (ha : ∀ c ∈ a, P c) (hb : ∀ c ∈ b, P c) (hs : ∀ c ∈ s.head?, ¬ P c)
    (ht : ∀ c ∈ t.head?, ¬ P c) : a = b := by
  rcases List.append_eq_append_iff.mp h with ⟨d, rfl, rfl⟩ | ⟨d, rfl, rfl⟩
  · rcases d with _ | ⟨x, d⟩
    · exact (List.append_nil a).symm
    · exact absurd (hb x (by simp)) (hs x rfl)
  · rcases d with _ | ⟨x, d⟩
    · exact List.append_nil b
    · exact absurd (ha x (by simp)) (ht x rfl)

/-- A pattern, by the group and the rest that it finds at the start of a text. -/
structure Rule (α : Type) where
  inRun : α → Bool
  mark : List α
  find : List α → Option (List α × List α)
  find_split : ∀ {text group rest : List α}, find text = some (group, rest) →
    ∃ run, text = group ++ (run ++ rest) ∧ run ≠ [] ∧ (∀ c ∈ run, inRun c = true) ∧
      ∀ c ∈ rest.head?, inRun c = false

namespace Rule

variable (R : Rule α)

/-- The substitution, with enough fuel for the text. -/
def subFuel : ℕ → List α → List α
  | 0, text => text
  | _ + 1, [] => []
  | fuel + 1, c :: text =>
    match R.find (c :: text) with
    | some (group, rest) => group ++ (R.mark ++ subFuel fuel rest)
    | none => c :: subFuel fuel text

def sub (text : List α) : List α := R.subFuel text.length text

/-- Scanned from its start, with `rest` behind it, the text is turned into `out`. -/
inductive Reach (rest : List α) : List α → List α → Prop
  | nil : Reach rest [] []
  | keep {c : α} {text out : List α} :
      R.find (c :: (text ++ rest)) = none → Reach rest text out → Reach rest (c :: text) (c :: out)
  | replace {group run text out : List α} :
      R.find (group ++ (run ++ (text ++ rest))) = some (group, text ++ rest) →
        Reach rest text out → Reach rest (group ++ (run ++ text)) (group ++ (R.mark ++ out))

/-- The scan of the text replaces the run behind `before`. -/
inductive Taken : List α → List α → Prop
  | here {text group rest : List α} : R.find text = some (group, rest) → Taken text group
  | keep {c : α} {text before : List α} :
      R.find (c :: text) = none → Taken text before → Taken (c :: text) (c :: before)
  | replace {group run rest before : List α} :
      R.find (group ++ (run ++ rest)) = some (group, rest) → Taken rest before →
        Taken (group ++ (run ++ rest)) (group ++ (run ++ before))

variable {R}

/-! ## The result -/

theorem find_run {group run rest : List α}
    (h : R.find (group ++ (run ++ rest)) = some (group, rest)) :
    run ≠ [] ∧ (∀ c ∈ run, R.inRun c = true) ∧ ∀ c ∈ rest.head?, R.inRun c = false := by
  obtain ⟨run', heq, hrun⟩ := R.find_split h
  rwa [List.append_cancel_right (List.append_cancel_left heq)]

theorem length_rest_lt {text group rest : List α} (h : R.find text = some (group, rest)) :
    rest.length < text.length := by
  obtain ⟨run, rfl, hrun, -⟩ := R.find_split h
  have hpos := List.length_pos_iff.mpr hrun
  simp only [List.length_append]
  omega

theorem subFuel_congr {fuel fuel' : ℕ} {text : List α} (h : text.length ≤ fuel)
    (h' : text.length ≤ fuel') : R.subFuel fuel text = R.subFuel fuel' text := by
  induction fuel generalizing fuel' text with
  | zero =>
    obtain rfl := List.eq_nil_of_length_eq_zero (Nat.le_zero.mp h)
    cases fuel' <;> rfl
  | succ fuel ih =>
    rcases text with _ | ⟨c, text⟩
    · cases fuel' <;> rfl
    obtain ⟨fuel', rfl⟩ : ∃ n, fuel' = n + 1 := Nat.exists_eq_add_one.mpr (Nat.zero_lt_of_lt h')
    rw [subFuel, subFuel]
    rcases hfind : R.find (c :: text) with _ | ⟨group, rest⟩
    · exact congrArg _ (ih (Nat.le_of_succ_le_succ h) (Nat.le_of_succ_le_succ h'))
    · have hlength := length_rest_lt hfind
      rw [List.length_cons] at h h' hlength
      exact congrArg (fun out => group ++ (R.mark ++ out)) (ih (by omega) (by omega))

theorem subFuel_eq_sub {fuel : ℕ} {text : List α} (h : text.length ≤ fuel) :
    R.subFuel fuel text = R.sub text :=
  subFuel_congr h le_rfl

/-- Induction along the scan. -/
theorem scan_induction {P : List α → Prop} (nil : P [])
    (keep : ∀ c text, R.find (c :: text) = none → P text → P (c :: text))
    (replace : ∀ group run rest, R.find (group ++ (run ++ rest)) = some (group, rest) → P rest →
      P (group ++ (run ++ rest))) (text : List α) : P text := by
  generalize hn : text.length = n
  induction n using Nat.strong_induction_on generalizing text with
  | _ n ih =>
    rcases text with _ | ⟨c, text⟩
    · exact nil
    rcases hfind : R.find (c :: text) with _ | ⟨group, rest⟩
    · exact keep c text hfind (ih text.length (by rw [← hn]; exact Nat.lt_succ_self _) text rfl)
    · have hrest := ih rest.length (hn ▸ length_rest_lt hfind) rest rfl
      obtain ⟨run, hsplit, -⟩ := R.find_split hfind
      rw [hsplit] at hfind ⊢
      exact replace group run rest hfind hrest

@[simp] theorem sub_nil : R.sub [] = [] := rfl

theorem sub_keep {c : α} {text : List α} (h : R.find (c :: text) = none) :
    R.sub (c :: text) = c :: R.sub text := by
  rw [sub, List.length_cons, subFuel, h]
  rfl

theorem sub_replace {text group rest : List α} (h : R.find text = some (group, rest)) :
    R.sub text = group ++ (R.mark ++ R.sub rest) := by
  have hlength := length_rest_lt h
  obtain ⟨c, cs, rfl⟩ := List.exists_cons_of_length_pos (Nat.zero_lt_of_lt hlength)
  rw [sub, List.length_cons, subFuel, h]
  rw [List.length_cons, Nat.lt_succ_iff] at hlength
  rw [← subFuel_eq_sub hlength]

/-! ## Scans -/

section

variable {rest text out : List α}

theorem reach_sub (text : List α) : R.Reach [] text (R.sub text) := by
  induction text using scan_induction (R := R) with
  | nil => exact .nil
  | keep c text hfind ih =>
    rw [sub_keep hfind]
    refine .keep ?_ ih
    rwa [List.append_nil]
  | replace group run rest hfind ih =>
    rw [sub_replace hfind]
    refine .replace ?_ ih
    rwa [List.append_nil]

/-- The substitution goes on behind what was scanned. -/
theorem Reach.sub_eq (h : R.Reach rest text out) : R.sub (text ++ rest) = out ++ R.sub rest := by
  induction h with
  | nil => rfl
  | keep hfind _ ih => rw [List.cons_append, sub_keep hfind, ih, List.cons_append]
  | replace hfind _ ih =>
    rw [List.append_assoc, List.append_assoc, sub_replace hfind, ih, List.append_assoc,
      List.append_assoc]

theorem reach_match {group run : List α}
    (h : R.find (group ++ (run ++ rest)) = some (group, rest)) :
    R.Reach rest (group ++ run) (group ++ R.mark) := by
  have hreach : R.Reach rest (group ++ (run ++ [])) (group ++ (R.mark ++ [])) := .replace h .nil
  rwa [List.append_nil, List.append_nil] at hreach

theorem Reach.append {more out' : List α} (h : R.Reach (more ++ rest) text out)
    (h' : R.Reach rest more out') : R.Reach rest (text ++ more) (out ++ out') := by
  induction h with
  | nil => exact h'
  | keep hfind _ ih =>
    rw [List.cons_append, List.cons_append]
    refine .keep ?_ ih
    rwa [List.append_assoc]
  | replace hfind _ ih =>
    rw [List.append_assoc, List.append_assoc, List.append_assoc, List.append_assoc]
    refine .replace ?_ ih
    rwa [List.append_assoc]

/-- A result does not begin with a run where the text does not. -/
theorem Reach.head {u : List α} (h : R.Reach rest text out)
    (hhead : ∀ c ∈ (text ++ u).head?, R.inRun c = false) :
    ∀ c ∈ (out ++ u).head?, R.inRun c = false := by
  cases h with
  | nil => exact hhead
  | keep hfind _ => exact hhead
  | @replace group run _ _ hfind _ =>
    rcases group with _ | ⟨c, group⟩
    · obtain ⟨hrun, hall, -⟩ := find_run hfind
      obtain ⟨c, run, rfl⟩ := List.exists_cons_of_ne_nil hrun
      have hc := hhead c rfl
      rw [hall c List.mem_cons_self] at hc
      cases hc
    · exact hhead

/-! ## What is new in a result -/

/-- The scan takes a run behind `before`, and the elements in front of it are its group's. -/
theorem Taken.split {before : List α} (h : R.Taken text before) :
    ∃ run rest, text = before ++ (run ++ rest) ∧ run ≠ [] ∧ ∀ c ∈ run, R.inRun c = true := by
  induction h with
  | here hfind =>
    obtain ⟨run, rfl, hne, hrun, -⟩ := R.find_split hfind
    exact ⟨run, _, rfl, hne, hrun⟩
  | keep _ _ ih =>
    obtain ⟨run, rest, rfl, hrun⟩ := ih
    exact ⟨run, rest, rfl, hrun⟩
  | @replace group taken _ before _ _ ih =>
    obtain ⟨run, rest, rfl, hrun⟩ := ih
    exact ⟨run, rest, by simp only [List.append_assoc], hrun⟩

theorem Taken.of_keep {c : α} {before : List α} (hfind : R.find (c :: text) = none)
    (h : R.Taken (c :: text) before) : ∃ more, before = c :: more ∧ R.Taken text more := by
  generalize htext : c :: text = whole at h
  cases h with
  | here h =>
    rw [← htext, hfind] at h
    cases h
  | keep _ h =>
    obtain ⟨rfl, rfl⟩ := List.cons.inj htext
    exact ⟨_, rfl, h⟩
  | replace h _ =>
    rw [← htext, hfind] at h
    cases h

theorem Taken.of_replace {group run before : List α}
    (hfind : R.find (group ++ (run ++ rest)) = some (group, rest))
    (h : R.Taken (group ++ (run ++ rest)) before) :
    before = group ∨ ∃ more, before = group ++ (run ++ more) ∧ R.Taken rest more := by
  generalize htext : group ++ (run ++ rest) = whole at h
  cases h with
  | here h =>
    rw [← htext, hfind, Option.some_inj, Prod.mk.injEq] at h
    exact .inl h.1.symm
  | keep h _ =>
    rw [← htext, hfind] at h
    cases h
  | @replace group' run' rest' more h htaken =>
    rw [← htext, hfind, Option.some_inj, Prod.mk.injEq] at h
    obtain ⟨rfl, rfl⟩ := h
    obtain rfl := List.append_cancel_right (List.append_cancel_left htext)
    exact .inr ⟨more, rfl, htaken⟩

/-- What the scan takes is taken in the longer text, too. -/
theorem Reach.taken {more before : List α} (h : R.Reach more text out)
    (hmore : R.Taken more before) : R.Taken (text ++ more) (text ++ before) := by
  induction h with
  | nil => exact hmore
  | keep hfind _ ih => exact .keep hfind ih
  | replace hfind _ ih =>
    simp only [List.append_assoc]
    exact .replace hfind ih

theorem prefix_append_cases {a b y : List α} (h : y <+: a ++ b) :
    y <+: a ∨ ∃ z, z ≠ [] ∧ y = a ++ z ∧ z <+: b := by
  obtain ⟨t, ht⟩ := h
  rcases List.append_eq_append_iff.mp ht with ⟨z, hz, -⟩ | ⟨z, hz, hb⟩
  · exact .inl ⟨z, hz.symm⟩
  · by_cases hne : z = []
    · subst hne
      exact .inl ⟨[], by rw [hz, List.append_nil, List.append_nil]⟩
    · exact .inr ⟨z, hne, hz, t, hb.symm⟩

theorem infix_append_cases {a b y : List α} (h : y <:+: a ++ b) :
    (∃ a', a' <:+ a ∧ y <+: a' ++ b) ∨ y <:+: b := by
  induction a with
  | nil => exact .inr h
  | cons c a ih =>
    rcases List.infix_cons_iff.mp h with hpre | hoccurs
    · exact .inl ⟨c :: a, List.suffix_rfl, hpre⟩
    · rcases ih hoccurs with ⟨a', ha', hpre⟩ | hb
      · exact .inl ⟨a', ha'.trans (List.suffix_cons _ _), hpre⟩
      · exact .inr hb

theorem mem_head?_mono {a b : List α} {c : α} (h : a <+: b) (hc : c ∈ a.head?) :
    c ∈ b.head? := by
  obtain ⟨t, rfl⟩ := h
  cases a with
  | nil => cases hc
  | cons d a => exact hc

/-- Behind a replaced run, the result does not go on with a run. -/
theorem Reach.eq_nil_of_prefix {group run u w : List α}
    (hfind : R.find (group ++ (run ++ (text ++ rest))) = some (group, text ++ rest))
    (h : R.Reach rest text out) (hu : u <+: rest) (hw : ∀ c ∈ w, R.inRun c = true)
    (hpre : w <+: out ++ u) : w = [] := by
  by_contra hne
  obtain ⟨d, w, rfl⟩ := List.exists_cons_of_ne_nil hne
  have hhead := h.head (u := u) (fun c hc => (find_run hfind).2.2 c
    (mem_head?_mono ((List.prefix_append_right_inj text).mpr hu) hc)) d
    (mem_head?_mono hpre rfl)
  rw [hw d List.mem_cons_self] at hhead
  cases hhead

/-- Elements of runs at the start of a result are in the text, or a part of the mark follows what
is in front of a taken run. -/
theorem Reach.prefix_cases {u y : List α} (h : R.Reach rest text out) (hu : u <+: rest)
    (hy : ∀ c ∈ y, R.inRun c = true) (hpre : y <+: out ++ u) :
    y <+: text ++ u ∨ ∃ before part, R.Taken (text ++ rest) before ∧ part <+: R.mark ∧ part ≠ [] ∧
      y = before ++ part := by
  induction h generalizing y with
  | nil => exact .inl hpre
  | @keep c text out hfind _ ih =>
    rcases y with _ | ⟨d, y⟩
    · exact .inl (List.nil_prefix)
    rw [List.cons_append, List.cons_prefix_cons] at hpre
    obtain ⟨rfl, hpre⟩ := hpre
    rw [List.forall_mem_cons] at hy
    rcases ih hy.2 hpre with hin | ⟨before, part, htaken, hpart, hne, rfl⟩
    · exact .inl (List.cons_prefix_cons.mpr ⟨rfl, hin⟩)
    · exact .inr ⟨d :: before, part, .keep hfind htaken, hpart, hne, rfl⟩
  | @replace group run text out hfind hreach ih =>
    rw [List.append_assoc, List.append_assoc] at hpre
    rcases prefix_append_cases hpre with hgroup | ⟨z, hne, rfl, hz⟩
    · refine .inl (hgroup.trans ?_)
      rw [List.append_assoc]
      exact List.prefix_append _ _
    rcases prefix_append_cases hz with hmark | ⟨w, hne', rfl, hw⟩
    · refine .inr ⟨group, z, ?_, hmark, hne, rfl⟩
      simp only [List.append_assoc]
      exact .here hfind
    · refine absurd (hreach.eq_nil_of_prefix hfind hu (fun c hc => hy c ?_) hw) hne'
      simp [hc]

/-- Elements of runs in a result are in the text, or a part of the mark follows elements in front of
a taken run, or they are in the mark. -/
theorem Reach.infix_cases {u y : List α} (h : R.Reach rest text out) (hu : u <+: rest)
    (hy : ∀ c ∈ y, R.inRun c = true) (hoccurs : y <:+: out ++ u) :
    y <:+: text ++ u ∨ (∃ before b part, R.Taken (text ++ rest) before ∧ b <:+ before ∧
      part <+: R.mark ∧ part ≠ [] ∧ y = b ++ part) ∨ y <:+: R.mark := by
  induction h with
  | nil => exact .inl hoccurs
  | @keep c text out hfind hreach ih =>
    rcases List.infix_cons_iff.mp hoccurs with hpre | hoccurs
    · rcases (Reach.keep hfind hreach).prefix_cases hu hy hpre with
        hin | ⟨before, part, htaken, hpart, hne, rfl⟩
      · exact .inl hin.isInfix
      · exact .inr (.inl ⟨before, before, part, htaken, List.suffix_rfl, hpart, hne, rfl⟩)
    · rcases ih hoccurs with hin | ⟨before, b, part, htaken, hb, hpart⟩ | hmark
      · exact .inl (hin.trans (List.suffix_cons _ _).isInfix)
      · exact .inr (.inl ⟨c :: before, b, part, .keep hfind htaken,
          hb.trans (List.suffix_cons _ _), hpart⟩)
      · exact .inr (.inr hmark)
  | @replace group run text out hfind hreach ih =>
    rw [List.append_assoc, List.append_assoc] at hoccurs
    have htext : group ++ (run ++ text) ++ u = group ++ (run ++ (text ++ u)) := by
      simp only [List.append_assoc]
    have hrest : group ++ (run ++ text) ++ rest = group ++ (run ++ (text ++ rest)) := by
      simp only [List.append_assoc]
    rw [htext, hrest]
    rcases infix_append_cases hoccurs with ⟨b, hb, hpre⟩ | hoccurs
    · rcases prefix_append_cases hpre with hin | ⟨z, hne, rfl, hz⟩
      · exact .inl ((hin.isInfix.trans hb.isInfix).trans (List.prefix_append _ _).isInfix)
      rcases prefix_append_cases hz with hmark | ⟨w, hne', rfl, hw⟩
      · exact .inr (.inl ⟨group, b, z, .here hfind, hb, hmark, hne, rfl⟩)
      · refine absurd (hreach.eq_nil_of_prefix hfind hu (fun c hc => hy c ?_) hw) hne'
        simp [hc]
    rcases infix_append_cases hoccurs with ⟨m, hm, hpre⟩ | hoccurs
    · rcases prefix_append_cases hpre with hmark | ⟨w, hne', rfl, hw⟩
      · exact .inr (.inr (hmark.isInfix.trans hm.isInfix))
      · refine absurd (hreach.eq_nil_of_prefix hfind hu (fun c hc => hy c ?_) hw) hne'
        simp [hc]
    rcases ih hoccurs with hin | ⟨before, b, part, htaken, hb, hpart⟩ | hmark
    · refine .inl (hin.trans ?_)
      rw [← List.append_assoc]
      exact (List.suffix_append _ _).isInfix
    · refine .inr (.inl ⟨group ++ (run ++ before), b, part, .replace hfind htaken, hb.trans ?_,
        hpart⟩)
      rw [← List.append_assoc]
      exact List.suffix_append _ _
    · exact .inr (.inr hmark)

/-- Behind a replaced run, no run is taken with nothing but elements of runs in front of it. -/
theorem Taken.exists_not_inRun {group run rest before : List α}
    (hfind : R.find (group ++ (run ++ rest)) = some (group, rest)) (h : R.Taken rest before) :
    ∃ c ∈ before, R.inRun c = false := by
  obtain ⟨taken, more, rfl, hne, htaken⟩ := h.split
  obtain ⟨d, taken, rfl⟩ := List.exists_cons_of_ne_nil hne
  have hhead := (find_run hfind).2.2
  rcases before with _ | ⟨c, before⟩
  · have hd := hhead d rfl
    rw [htaken d List.mem_cons_self] at hd
    cases hd
  · exact ⟨c, List.mem_cons_self, hhead c rfl⟩

theorem Taken.prefix_sub {before : List α} (h : R.Taken text before)
    (hrun : ∀ c ∈ before, R.inRun c = true) : before ++ R.mark <+: R.sub text := by
  induction h with
  | here hfind =>
    rw [sub_replace hfind, ← List.append_assoc]
    exact List.prefix_append _ _
  | keep hfind _ ih =>
    rw [List.forall_mem_cons] at hrun
    rw [sub_keep hfind]
    exact List.cons_prefix_cons.mpr ⟨rfl, ih hrun.2⟩
  | replace hfind htaken _ =>
    obtain ⟨c, hc, hno⟩ := htaken.exists_not_inRun hfind
    rw [hrun c (by simp [hc])] at hno
    cases hno

/-- What is in front of a taken run stands in front of a mark. -/
theorem Taken.infix_sub {before b : List α} (h : R.Taken text before) (hb : b <:+ before)
    (hrun : ∀ c ∈ b, R.inRun c = true) : b ++ R.mark <:+: R.sub text := by
  induction h with
  | @here text group rest hfind =>
    obtain ⟨front, rfl⟩ := hb
    rw [sub_replace hfind]
    exact ⟨front, R.sub rest, by simp only [List.append_assoc]⟩
  | @keep c text before hfind htaken ih =>
    rcases List.suffix_cons_iff.mp hb with rfl | hb
    · exact ((Taken.keep hfind htaken).prefix_sub hrun).isInfix
    · rw [sub_keep hfind]
      exact (ih hb).trans (List.suffix_cons _ _).isInfix
  | @replace group run rest before hfind htaken ih =>
    have hbefore : before <:+ group ++ (run ++ before) := by
      rw [← List.append_assoc]
      exact List.suffix_append _ _
    rcases List.suffix_or_suffix_of_suffix hb hbefore with hb | hb
    · rw [sub_replace hfind, ← List.append_assoc]
      exact (ih hb).trans (List.suffix_append _ _).isInfix
    · obtain ⟨c, hc, hno⟩ := htaken.exists_not_inRun hfind
      rw [hrun c (hb.mem hc)] at hno
      cases hno

/-! ## Marks that are runs -/

theorem sub_eq_nil (hne : R.mark ≠ []) (h : R.sub text = []) : text = [] := by
  induction text using scan_induction (R := R) with
  | nil => rfl
  | keep c text hfind _ =>
    rw [sub_keep hfind] at h
    cases h
  | replace group run rest hfind _ =>
    rw [sub_replace hfind] at h
    exact absurd (List.append_eq_nil_iff.mp (List.append_eq_nil_iff.mp h).2).1 hne

/-- What ends a result, and no run, ends the text. -/
theorem getLast?_of_sub (hne : R.mark ≠ []) (hmark : ∀ c ∈ R.mark, R.inRun c = true) {c : α}
    (hc : R.inRun c = false) (h : (R.sub text).getLast? = some c) : text.getLast? = some c := by
  induction text using scan_induction (R := R) with
  | nil => exact h
  | keep d text hfind ih =>
    rw [sub_keep hfind] at h
    by_cases htext : text = []
    · rw [htext] at h ⊢
      exact h
    · rw [List.getLast?_cons_of_ne_nil fun hnil => htext (sub_eq_nil hne hnil)] at h
      rw [List.getLast?_cons_of_ne_nil htext]
      exact ih h
  | replace group run rest hfind ih =>
    rw [sub_replace hfind, ← List.append_assoc] at h
    by_cases hrest : rest = []
    · rw [hrest, sub_nil, List.append_nil, List.getLast?_append_of_ne_nil _ hne] at h
      rw [hmark c (List.mem_of_getLast? h)] at hc
      cases hc
    · rw [List.getLast?_append_of_ne_nil _ fun hnil => hrest (sub_eq_nil hne hnil)] at h
      rw [← List.append_assoc, List.getLast?_append_of_ne_nil _ hrest]
      exact ih h

/-- A text that ends where its runs end, by its last element or by what follows it, is left as it
is, if the result can be read as the text. -/
theorem sub_eq_of_append (hmark : ∀ c ∈ R.mark, R.inRun c = true) {u v : List α}
    (hend : (∃ c ∈ text.getLast?, R.inRun c = false) ∨
      (∀ c ∈ u.head?, R.inRun c = false) ∧ ∀ c ∈ v.head?, R.inRun c = false)
    (h : R.sub text ++ u = text ++ v) : R.sub text = text := by
  induction text using scan_induction (R := R) with
  | nil => rfl
  | keep c text hfind ih =>
    rw [sub_keep hfind] at h ⊢
    by_cases htext : text = []
    · rw [htext]
      rfl
    · rw [List.getLast?_cons_of_ne_nil htext] at hend
      rw [ih hend (List.cons.inj h).2]
  | replace group run rest hfind ih =>
    obtain ⟨hne, hrun, hrest⟩ := find_run hfind
    rw [← List.append_assoc group run rest] at hend
    have hends : rest = [] →
        (∀ c ∈ u.head?, R.inRun c = false) ∧ ∀ c ∈ v.head?, R.inRun c = false := by
      rintro rfl
      refine hend.resolve_left ?_
      rintro ⟨c, hc, hno⟩
      rw [List.append_nil, List.getLast?_append_of_ne_nil _ hne] at hc
      rw [hrun c (List.mem_of_getLast? hc)] at hno
      cases hno
    have hhead : ∀ w : List α, (rest = [] → ∀ c ∈ w.head?, R.inRun c = false) →
        ∀ c ∈ (rest ++ w).head?, R.inRun c = false := by
      intro w hw
      cases rest with
      | nil => exact hw rfl
      | cons d rest => exact hrest
    rw [sub_replace hfind] at h ⊢
    simp only [List.append_assoc, List.append_cancel_left_eq] at h
    have heq := append_inj_of_not (P := fun c => R.inRun c = true) h hmark hrun
      (fun c hc => Bool.eq_false_iff.mp
        ((reach_sub rest).head (hhead u fun hnil => (hends hnil).1) c hc))
      (fun c hc => Bool.eq_false_iff.mp (hhead v (fun hnil => (hends hnil).2) c hc))
    rw [heq] at h ⊢
    by_cases hnil : rest = []
    · rw [hnil, sub_nil]
    · rw [List.getLast?_append_of_ne_nil _ hnil] at hend
      rw [ih hend (List.append_cancel_left h)]

end

end Rule

end Substitution
