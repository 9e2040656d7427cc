import Mathlib.Data.List.Nodup
import Mathlib.Tactic.Common

/-!
# Parameters

The parameters of a Python function, and the calls that bind to them: a number of positional
arguments and the names of the keyword arguments. Two lists of parameters that agree in names and
kinds are compared by a single call, the one with as few arguments as possible.
-/

namespace Calls

/-! ## Parameters -/

/-- `inspect._ParameterKind` -/
inductive ParameterKind
  | positionalOnly
  | positionalOrKeyword
  | varPositional
  | keywordOnly
  | varKeyword
  deriving DecidableEq

namespace ParameterKind

def rank : ParameterKind → ℕ
  | positionalOnly => 0
  | positionalOrKeyword => 1
  | varPositional => 2
  | keywordOnly => 3
  | varKeyword => 4

/-- `*args` and `**kwargs`. -/
def isVar : ParameterKind → Bool
  | varPositional => true
  | varKeyword => true
  | _ => false

/-- Filled by position. -/
def isPositional : ParameterKind → Bool
  | positionalOnly => true
  | positionalOrKeyword => true
  | _ => false

end ParameterKind

/-- `inspect.Parameter`, of whose default only its presence is told. -/
structure Parameter where
  name : String
  kind : ParameterKind
  hasDefault : Bool
  var : kind.isVar = true → hasDefault = false
  deriving DecidableEq

namespace Parameter

/-- A call need not fill the parameter. -/
def optional (p : Parameter) : Bool := p.hasDefault || p.kind.isVar

/-- A required parameter that is filled by position. -/
def isPosition (p : Parameter) : Bool := p.kind.isPositional && !p.hasDefault

/-- A required parameter that is filled by its name. -/
def isKeyword (p : Parameter) : Bool := p.kind = .keywordOnly && !p.hasDefault

/-- `p` may stand before `q` in a signature. -/
structure Precedes (p q : Parameter) : Prop where
  rank : p.kind.rank ≤ q.kind.rank
  once : p.kind.isVar = true → p.kind ≠ q.kind
  name : p.name ≠ q.name
  default : q.kind.isPositional = true → p.hasDefault = true → q.hasDefault = true

instance (p q : Parameter) : Decidable (p.Precedes q) :=
  decidable_of_iff ((p.kind.rank ≤ q.kind.rank ∧ (p.kind.isVar = true → p.kind ≠ q.kind)) ∧
      p.name ≠ q.name ∧ (q.kind.isPositional = true → p.hasDefault = true → q.hasDefault = true))
    ⟨fun ⟨⟨h₁, h₂⟩, h₃, h₄⟩ => ⟨h₁, h₂, h₃, h₄⟩, fun ⟨h₁, h₂, h₃, h₄⟩ => ⟨⟨h₁, h₂⟩, h₃, h₄⟩⟩

end Parameter

/-! ## Calls -/

/-- `Signature.bind`, with `n` positional arguments left, and the keyword arguments that no
parameter has taken yet. -/
def binds : List Parameter → ℕ → List String → Bool
  | [], n, names => decide (n = 0) && names.isEmpty
  | p :: ps, n, names =>
    match p.kind with
    | .positionalOnly =>
      match n with
      | 0 => p.hasDefault && binds ps 0 names
      | n + 1 => binds ps n names
    | .positionalOrKeyword =>
      match n with
      | 0 =>
        if p.name ∈ names then binds ps 0 (names.filter (· ≠ p.name))
        else p.hasDefault && binds ps 0 names
      -- a second value for the same parameter
      | n + 1 => decide (p.name ∉ names) && binds ps n names
    | .varPositional => binds ps 0 names
    | .keywordOnly =>
      if p.name ∈ names then binds ps n (names.filter (· ≠ p.name))
      else p.hasDefault && binds ps n names
    | .varKeyword => binds ps n []

/-- How many positional arguments a call must have. -/
def leastCount (ps : List Parameter) : ℕ := ps.countP Parameter.isPosition

/-- Which keyword arguments a call must have. -/
def leastNames (ps : List Parameter) : List String := (ps.filter Parameter.isKeyword).map (·.name)

/-! ## Matched lists -/

/-- Every parameter has its counterpart, of the same name and kind, and required if it is. -/
structure Matched (bs ts : List Parameter) : Prop where
  length : bs.length ≤ ts.length
  name : ∀ p ∈ bs.zip ts, p.1.name = p.2.name
  kind : ∀ p ∈ bs.zip ts, p.1.kind = p.2.kind
  required : ∀ p ∈ bs.zip ts, p.1.hasDefault = false → p.2.hasDefault = false

/-- A counterpart keeps the default, and no other parameter is required. -/
structure Kept (bs ts : List Parameter) : Prop where
  default : ∀ p ∈ bs.zip ts, p.1.hasDefault = true → p.2.hasDefault = true
  extra : ∀ t ∈ ts.drop bs.length, t.optional = true

theorem matched_cons {b t : Parameter} {bs ts : List Parameter} :
    Matched (b :: bs) (t :: ts) ↔ (b.name = t.name ∧ b.kind = t.kind ∧
      (b.hasDefault = false → t.hasDefault = false)) ∧ Matched bs ts := by
  constructor
  · rintro ⟨hlength, hname, hkind, hrequired⟩
    rw [List.zip_cons_cons, List.forall_mem_cons] at hname hkind hrequired
    exact ⟨⟨hname.1, hkind.1, hrequired.1⟩, Nat.le_of_succ_le_succ hlength, hname.2, hkind.2,
      hrequired.2⟩
  · rintro ⟨⟨hname, hkind, hrequired⟩, h⟩
    refine ⟨Nat.succ_le_succ h.length, ?_, ?_, ?_⟩
    · rw [List.zip_cons_cons, List.forall_mem_cons]
      exact ⟨hname, h.name⟩
    · rw [List.zip_cons_cons, List.forall_mem_cons]
      exact ⟨hkind, h.kind⟩
    · rw [List.zip_cons_cons, List.forall_mem_cons]
      exact ⟨hrequired, h.required⟩

theorem kept_cons {b t : Parameter} {bs ts : List Parameter} :
    Kept (b :: bs) (t :: ts) ↔ (b.hasDefault = true → t.hasDefault = true) ∧ Kept bs ts := by
  constructor
  · rintro ⟨hdefault, hextra⟩
    rw [List.zip_cons_cons, List.forall_mem_cons] at hdefault
    exact ⟨hdefault.1, hdefault.2, hextra⟩
  · rintro ⟨hdefault, h⟩
    refine ⟨?_, h.extra⟩
    rw [List.zip_cons_cons, List.forall_mem_cons]
    exact ⟨hdefault, h.default⟩

theorem kept_nil {ts : List Parameter} : Kept [] ts ↔ ∀ t ∈ ts, t.optional = true :=
  ⟨fun h => h.extra, fun h => ⟨fun _ hp => absurd hp List.not_mem_nil, h⟩⟩

theorem eq_of_mem_zip_self {ps : List Parameter} {p : Parameter × Parameter}
    (h : p ∈ ps.zip ps) : p.1 = p.2 := by
  induction ps with
  | nil => exact absurd h List.not_mem_nil
  | cons q ps ih =>
    rcases List.mem_cons.mp h with rfl | hps
    · rfl
    · exact ih hps

theorem Matched.refl (ps : List Parameter) : Matched ps ps where
  length := Nat.le_refl _
  name _ hp := congrArg Parameter.name (eq_of_mem_zip_self hp)
  kind _ hp := congrArg Parameter.kind (eq_of_mem_zip_self hp)
  required _ hp h := (congrArg Parameter.hasDefault (eq_of_mem_zip_self hp)).symm.trans h

theorem Kept.refl (ps : List Parameter) : Kept ps ps where
  default _ hp h := (congrArg Parameter.hasDefault (eq_of_mem_zip_self hp)).symm.trans h
  extra t ht := by
    rw [List.drop_length] at ht
    exact absurd ht List.not_mem_nil

/-- A call without arguments needs no more than optional parameters. -/
theorem binds_nothing_iff (ts : List Parameter) :
    binds ts 0 [] = true ↔ ∀ t ∈ ts, t.optional = true := by
  induction ts with
  | nil => simp [binds]
  | cons t ts ih =>
    rw [List.forall_mem_cons, ← ih, Parameter.optional]
    cases hkind : t.kind with
    | positionalOnly | positionalOrKeyword | keywordOnly =>
      simp [binds, hkind, ParameterKind.isVar]
    | varPositional | varKeyword => simp [binds, hkind, ParameterKind.isVar]

theorem Matched.exists_cons {b : Parameter} {bs ts : List Parameter} (h : Matched (b :: bs) ts) :
    ∃ t ts', ts = t :: ts' := by
  cases ts with
  | nil => exact absurd h.length (by simp)
  | cons t ts' => exact ⟨t, ts', rfl⟩

/-- A parameter before others: if theirs are kept, the calls with it are. -/
theorem binds_cons_mono {b t : Parameter} (hname : b.name = t.name) (hkind : b.kind = t.kind)
    (hdefault : b.hasDefault = true → t.hasDefault = true) {bs ts : List Parameter}
    (hrest : ∀ n names, binds bs n names = true → binds ts n names = true) (n : ℕ)
    (names : List String) (h : binds (b :: bs) n names = true) :
    binds (t :: ts) n names = true := by
  have hoptional : ∀ m names', (b.hasDefault && binds bs m names') = true →
      (t.hasDefault && binds ts m names') = true := by
    intro m names' hb
    rw [Bool.and_eq_true] at hb ⊢
    exact ⟨hdefault hb.1, hrest _ _ hb.2⟩
  unfold binds at h ⊢
  rw [← hkind, ← hname]
  cases hb : b.kind with
  | positionalOnly =>
    rw [hb] at h
    cases n with
    | zero => exact hoptional _ _ h
    | succ n => exact hrest _ _ h
  | positionalOrKeyword =>
    rw [hb] at h
    cases n with
    | zero =>
      dsimp only at h ⊢
      split at h
      · next hmem =>
        rw [if_pos hmem]
        exact hrest _ _ h
      · next hmem =>
        rw [if_neg hmem]
        exact hoptional _ _ h
    | succ n =>
      dsimp only at h ⊢
      rw [Bool.and_eq_true] at h ⊢
      exact ⟨h.1, hrest _ _ h.2⟩
  | varPositional | varKeyword =>
    rw [hb] at h
    exact hrest _ _ h
  | keywordOnly =>
    rw [hb] at h
    dsimp only at h ⊢
    split at h
    · next hmem =>
      rw [if_pos hmem]
      exact hrest _ _ h
    · next hmem =>
      rw [if_neg hmem]
      exact hoptional _ _ h

/-- What binds to the one binds to the other. -/
theorem binds_of_kept {bs ts : List Parameter} (hmatched : Matched bs ts) (hkept : Kept bs ts)
    (n : ℕ) (names : List String) (h : binds bs n names = true) : binds ts n names = true := by
  induction bs generalizing ts n names with
  | nil =>
    rw [binds, Bool.and_eq_true, decide_eq_true_eq, List.isEmpty_iff] at h
    rw [h.1, h.2, binds_nothing_iff]
    exact kept_nil.mp hkept
  | cons b bs ih =>
    obtain ⟨t, ts, rfl⟩ := hmatched.exists_cons
    obtain ⟨⟨hname, hkind, -⟩, hmatched⟩ := matched_cons.mp hmatched
    obtain ⟨hdefault, hkept⟩ := kept_cons.mp hkept
    exact binds_cons_mono hname hkind hdefault (ih hmatched hkept) n names h

/-! ## The least call -/

section Least

variable {b : Parameter} {bs : List Parameter} (h : ∀ p ∈ bs, b.Precedes p)
include h

theorem name_not_mem_leastNames : b.name ∉ leastNames bs := by
  intro hmem
  obtain ⟨p, hp, hname⟩ := List.mem_map.mp hmem
  exact (h p (List.mem_filter.mp hp).1).name hname.symm

theorem filter_leastNames :
    (leastNames bs).filter (fun name => !decide (name = b.name)) = leastNames bs := by
  refine List.filter_eq_self.mpr fun name hmem => ?_
  rw [Bool.not_eq_true', decide_eq_false_iff_not]
  rintro rfl
  exact name_not_mem_leastNames h hmem

/-- After a default, no position is required. -/
theorem leastCount_of_default (hdefault : b.hasDefault = true) : leastCount bs = 0 := by
  refine List.countP_eq_zero.mpr fun p hp => ?_
  rw [Parameter.isPosition, Bool.and_eq_true, Bool.not_eq_true']
  rintro ⟨hpositional, hrequired⟩
  rw [(h p hp).default hpositional hdefault] at hrequired
  cases hrequired

/-- After the positions there is none. -/
theorem leastCount_of_not_positional (hkind : b.kind.isPositional = false) :
    leastCount bs = 0 := by
  refine List.countP_eq_zero.mpr fun p hp => ?_
  have hrank := (h p hp).rank
  rw [Parameter.isPosition, Bool.and_eq_true]
  rintro ⟨hpositional, -⟩
  cases hb : b.kind <;> cases hp : p.kind <;>
    simp [hb, hp, ParameterKind.isPositional, ParameterKind.rank] at hkind hpositional hrank

/-- After `**kwargs` there is nothing. -/
theorem eq_nil_of_varKeyword (hkind : b.kind = .varKeyword) : bs = [] := by
  refine List.eq_nil_iff_forall_not_mem.mpr fun p hp => ?_
  obtain ⟨hrank, honce, -, -⟩ := h p hp
  rw [hkind] at hrank honce
  cases hp : p.kind <;> simp [hp, ParameterKind.rank, ParameterKind.isVar] at hrank honce

end Least

theorem leastCount_cons (b : Parameter) (bs : List Parameter) :
    leastCount (b :: bs) = leastCount bs + if b.isPosition then 1 else 0 :=
  List.countP_cons

theorem leastNames_cons (b : Parameter) (bs : List Parameter) :
    leastNames (b :: bs) = if b.isKeyword then b.name :: leastNames bs else leastNames bs := by
  unfold leastNames
  rw [List.filter_cons]
  split <;> rfl

/-- The least call of a list binds to its counterpart only if every default is kept, and nothing
else is required. -/
theorem binds_least_iff {bs ts : List Parameter} (hbs : bs.Pairwise Parameter.Precedes)
    (hmatched : Matched bs ts) :
    binds ts (leastCount bs) (leastNames bs) = true ↔ Kept bs ts := by
  induction bs generalizing ts with
  | nil => exact (binds_nothing_iff ts).trans kept_nil.symm
  | cons b bs ih =>
    obtain ⟨hb, hbs⟩ := List.pairwise_cons.mp hbs
    obtain ⟨t, ts, rfl⟩ := hmatched.exists_cons
    obtain ⟨⟨hname, hkind, hrequired⟩, hmatched⟩ := matched_cons.mp hmatched
    have hnot := name_not_mem_leastNames hb
    rw [kept_cons, ← ih hbs hmatched, leastCount_cons, leastNames_cons]
    conv_lhs => unfold binds
    rw [← hkind, ← hname]
    cases hk : b.kind with
    | positionalOnly | positionalOrKeyword =>
      cases hdefault : b.hasDefault with
      | false =>
        simp [Parameter.isPosition, Parameter.isKeyword, ParameterKind.isPositional, hk, hdefault,
          hnot]
      | true =>
        have hcount := leastCount_of_default hb hdefault
        simp [Parameter.isPosition, Parameter.isKeyword, ParameterKind.isPositional, hk, hdefault,
          hnot, hcount]
    | varPositional =>
      have hcount := leastCount_of_not_positional hb (by rw [hk]; rfl)
      have hdefault := b.var (by rw [hk]; rfl)
      simp [Parameter.isKeyword, hk, hdefault, hcount]
    | keywordOnly =>
      have hcount := leastCount_of_not_positional hb (by rw [hk]; rfl)
      cases hdefault : b.hasDefault with
      | false =>
        have hfilter := filter_leastNames hb
        simp [Parameter.isPosition, Parameter.isKeyword, ParameterKind.isPositional, hk, hdefault,
          hfilter]
      | true =>
        simp [Parameter.isPosition, Parameter.isKeyword, ParameterKind.isPositional, hk, hdefault,
          hnot]
    | varKeyword =>
      obtain rfl := eq_nil_of_varKeyword hb hk
      have hdefault := b.var (by rw [hk]; rfl)
      simp [Parameter.isPosition, ParameterKind.isPositional, hk, hdefault, leastCount, leastNames]

/-- Every call of the one is a call of the other exactly if every default is kept, and nothing
else is required. -/
theorem forall_binds_iff {bs ts : List Parameter} (hbs : bs.Pairwise Parameter.Precedes)
    (hmatched : Matched bs ts) :
    (∀ n names, binds bs n names = true → binds ts n names = true) ↔ Kept bs ts := by
  constructor
  · intro h
    have hself : binds bs (leastCount bs) (leastNames bs) = true :=
      (binds_least_iff hbs (Matched.refl bs)).mpr (Kept.refl bs)
    exact (binds_least_iff hbs hmatched).mp (h _ _ hself)
  · exact fun hkept => binds_of_kept hmatched hkept

end Calls
