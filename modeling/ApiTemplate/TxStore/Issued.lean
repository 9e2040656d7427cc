import ApiTemplate.TxStore.Program
import Mathlib.Data.List.Basic

/-!
# The statements of a run

`Program.issued` lists the statements that a run issues, each with what it was answered. A program
that `Issues` a plan issues it in order and raises only what a statement raised, which was its last.
-/

namespace TxStore

/-- A statement and its answer. -/
structure Issued (S : Type) (R : S → Type) (ε : Type) where
  statement : S
  answer : Except ε (R statement)

namespace Program

variable {S : Type} {R : S → Type} {ε α β γ κ W : Type}

/-- The statements of a run, in order. -/
def issued (exec : (s : S) → W → Except ε (R s) × W) : Program S R ε α → W → List (Issued S R ε)
  | .done _, _ => []
  | .step s k, w => ⟨s, (exec s w).1⟩ :: (k (exec s w).1).issued exec (exec s w).2

/-- Run the body for each element in turn. -/
def forEach (body : β → Program S R ε Unit) : List β → Program S R ε Unit
  | [] => pure ()
  | b :: bs => body b >>= fun _ => forEach body bs

theorem bind_assoc (p : Program S R ε α) (f : α → Program S R ε β) (g : β → Program S R ε γ) :
    p >>= f >>= g = p >>= fun a => f a >>= g := by
  induction p with
  | done r => cases r <;> rfl
  | step s k ih => exact congrArg (step s) (funext ih)

theorem forEach_append (body : β → Program S R ε Unit) (bs bs' : List β) :
    forEach body (bs ++ bs') = forEach body bs >>= fun _ => forEach body bs' := by
  induction bs with
  | nil => rfl
  | cons b bs ih =>
    rw [List.cons_append, forEach, forEach, ih, bind_assoc]

variable {exec : (s : S) → W → Except ε (R s) × W}

@[simp] theorem issued_pure (a : α) (w : W) :
    (pure a : Program S R ε α).issued exec w = [] := rfl

@[simp] theorem issued_lift (s : S) (w : W) :
    (lift s : Program S R ε (R s)).issued exec w = [⟨s, (exec s w).1⟩] := rfl

theorem issued_bind (p : Program S R ε α) (f : α → Program S R ε β) (w : W) :
    (p >>= f).issued exec w = p.issued exec w ++
      match p.run exec w with
      | (.ok a, w') => (f a).issued exec w'
      | (.error _, _) => [] := by
  induction p generalizing w with
  | done r => cases r <;> rfl
  | step s k ih => exact congrArg (_ :: ·) (ih _ _)

/-- It holds of no statements, and of statements followed by others if it holds of both. -/
structure Additive (P : List (Issued S R ε) → Prop) : Prop where
  nil : P []
  append : ∀ {l l'}, P l → P l' → P (l ++ l')

theorem additive_filterMap (f : Issued S R ε → Option κ) : Additive fun l => l.filterMap f = [] :=
  ⟨rfl, fun h h' => by rw [List.filterMap_append, h, h', List.append_nil]⟩

variable {P : List (Issued S R ε) → Prop}

theorem Additive.bind (hP : Additive P) {p : Program S R ε α} {f : α → Program S R ε β}
    (hp : ∀ w, P (p.issued exec w)) (hf : ∀ a w, P ((f a).issued exec w)) (w : W) :
    P ((p >>= f).issued exec w) := by
  rw [issued_bind]
  refine hP.append (hp w) ?_
  split
  · exact hf _ _
  · exact hP.nil

theorem Additive.forEach (hP : Additive P) {body : β → Program S R ε Unit}
    (h : ∀ b w, P ((body b).issued exec w)) (bs : List β) (w : W) :
    P ((forEach body bs).issued exec w) := by
  induction bs generalizing w with
  | nil => exact hP.nil
  | cons b bs ih => exact hP.bind (h b) (fun _ => ih) w

/-! ## What changes in a run -/

section Rel

variable {r : W → W → Prop}

theorem run_rel (hrefl : ∀ w, r w w) (htrans : ∀ {w w' w''}, r w w' → r w' w'' → r w w'')
    (h : ∀ s w, r w (exec s w).2) (p : Program S R ε α) (w : W) : r w (p.run exec w).2 :=
  run_invariant (P := r w) (fun s _ hw => htrans hw (h s _)) p (hrefl w)

theorem run_rel_bind (htrans : ∀ {w w' w''}, r w w' → r w' w'' → r w w'')
    {p : Program S R ε α} {f : α → Program S R ε β} (hp : ∀ w, r w (p.run exec w).2)
    (hf : ∀ a w, r w ((f a).run exec w).2) (w : W) : r w ((p >>= f).run exec w).2 := by
  have hfirst := hp w
  rw [run_bind]
  split
  next a w' hrun =>
    rw [hrun] at hfirst
    exact htrans hfirst (hf a w')
  next e w' hrun =>
    rw [hrun] at hfirst
    exact hfirst

theorem run_rel_forEach (hrefl : ∀ w, r w w) (htrans : ∀ {w w' w''}, r w w' → r w' w'' → r w w'')
    {body : β → Program S R ε Unit} (h : ∀ b w, r w ((body b).run exec w).2) (bs : List β)
    (w : W) : r w ((forEach body bs).run exec w).2 := by
  induction bs generalizing w with
  | nil => exact hrefl w
  | cons b bs ih =>
    rw [forEach]
    exact run_rel_bind (r := r) htrans (h b) (fun _ => ih) w

end Rel

/-- A run that ends in `G` began in `G` and returned, and `Q` holds between its two states. -/
def Within (exec : (s : S) → W → Except ε (R s) × W) (G : W → Prop) (p : Program S R ε Unit)
    (Q : W → W → Prop) : Prop :=
  ∀ w, G (p.run exec w).2 → G w ∧ (p.run exec w).1 = .ok () ∧ Q w (p.run exec w).2

variable {G : W → Prop} {Q Q' : W → W → Prop}

theorem Within.bind {p q : Program S R ε Unit} (hp : p.Within exec G Q) (hq : q.Within exec G Q') :
    (p >>= fun _ => q).Within exec G fun w w'' => ∃ w', Q w w' ∧ Q' w' w'' := by
  intro w h
  have hfirst := hp w
  rw [run_bind] at h ⊢
  generalize p.run exec w = o at hfirst h ⊢
  obtain ⟨e | a, w'⟩ := o
  · exact absurd (hfirst h).2.1 nofun
  · obtain ⟨hw', hok, hlast⟩ := hq w' h
    obtain ⟨hw, -, hstep⟩ := hfirst hw'
    exact ⟨hw, hok, w', hstep, hlast⟩

theorem Within.mono {p : Program S R ε Unit} (hp : p.Within exec G Q)
    (h : ∀ w w', Q w w' → Q' w w') : p.Within exec G Q' := fun w hw =>
  have hrun := hp w hw
  ⟨hrun.1, hrun.2.1, h _ _ hrun.2.2⟩

theorem Within.forEach {body : β → Program S R ε Unit} {Q : β → W → W → Prop}
    {T : List β → W → W → Prop} (hbody : ∀ b, (body b).Within exec G (Q b))
    (hnil : ∀ w, T [] w w)
    (hcons : ∀ b bs w w' w'', Q b w w' → T bs w' w'' → T (b :: bs) w w'') (bs : List β) :
    (Program.forEach body bs).Within exec G (T bs) := by
  induction bs with
  | nil => exact fun w h => ⟨h, rfl, hnil w⟩
  | cons b bs ih =>
    exact ((hbody b).bind ih).mono fun w w'' ⟨w', hfirst, hrest⟩ => hcons b bs w w' w'' hfirst hrest

/-! ## Plans -/

/-- As long as every statement is answered, the program issues the plan, given by the keys of the
statements; it passes on what a statement raises. -/
def Issues (key : S → Option κ) : Program S R ε α → List κ → Prop
  | .done r, plan => (∃ a, r = .ok a) ∧ plan = []
  | .step s k, plan => (∀ e, k (.error e) = .done (.error e)) ∧
      ∃ rest, plan = (key s).toList ++ rest ∧ ∀ a, (k (.ok a)).Issues key rest

variable {key : S → Option κ} {plan plan' : List κ}

theorem Issues.pure (a : α) : (Pure.pure a : Program S R ε α).Issues key [] := ⟨⟨a, rfl⟩, rfl⟩

theorem Issues.lift (s : S) : (Program.lift s : Program S R ε (R s)).Issues key (key s).toList :=
  ⟨fun _ => rfl, [], (List.append_nil _).symm, fun a => Issues.pure a⟩

theorem Issues.bind {p : Program S R ε α} {f : α → Program S R ε β} (hp : p.Issues key plan)
    (hf : ∀ a, (f a).Issues key plan') : (p >>= f).Issues key (plan ++ plan') := by
  induction p generalizing plan with
  | done r =>
    obtain ⟨⟨a, rfl⟩, rfl⟩ := hp
    exact hf a
  | step s k ih =>
    obtain ⟨hraise, rest, rfl, hrest⟩ := hp
    refine ⟨fun e => ?_, rest ++ plan', List.append_assoc _ _ _, fun a => ih _ (hrest a)⟩
    show (k (.error e) >>= f) = .done (.error e)
    rw [hraise e]
    rfl

theorem Issues.forEach {body : β → Program S R ε Unit} {plan : β → List κ}
    (h : ∀ b, (body b).Issues key (plan b)) (bs : List β) :
    (Program.forEach body bs).Issues key (bs.flatMap plan) := by
  induction bs with
  | nil => exact Issues.pure ()
  | cons b bs ih => exact (h b).bind fun _ => ih

theorem Issues.forEach_nil {body : β → Program S R ε Unit} (h : ∀ b, (body b).Issues key [])
    (bs : List β) : (Program.forEach body bs).Issues key [] := by
  have hall := Issues.forEach h bs
  rwa [List.flatMap_eq_nil_iff.mpr fun _ _ => rfl] at hall

/-- **Plan rule.** A run issues its whole plan and returns, every statement answered, or it issues
the start of the plan and raises what a statement raised. -/
theorem Issues.run {p : Program S R ε α} (h : p.Issues key plan) (w : W) :
    ((∃ a, (p.run exec w).1 = .ok a) ∧
        (p.issued exec w).filterMap (fun i => key i.statement) = plan ∧
        ∀ i ∈ p.issued exec w, ∃ a, i.answer = .ok a) ∨
      ((p.issued exec w).filterMap (fun i => key i.statement) <+: plan ∧
        ∃ e s, (p.run exec w).1 = .error e ∧ ⟨s, .error e⟩ ∈ p.issued exec w) := by
  induction p generalizing plan w with
  | done r =>
    obtain ⟨ha, rfl⟩ := h
    exact .inl ⟨ha, rfl, fun i hi => absurd hi List.not_mem_nil⟩
  | step s k ih =>
    obtain ⟨hraise, rest, rfl, hrest⟩ := h
    have hkey (l : List (Issued S R ε)) (r : Except ε (R s)) :
        ((⟨s, r⟩ :: l : List (Issued S R ε)).filterMap fun i => key i.statement) =
          (key s).toList ++ l.filterMap fun i => key i.statement := by
      rw [List.filterMap_cons]
      cases key s <;> rfl
    rw [run_step, issued, hkey]
    cases (exec s w).1 with
    | error e =>
      rw [hraise e]
      exact .inr ⟨(List.prefix_append_right_inj _).mpr List.nil_prefix, e, s, rfl,
        List.mem_cons_self⟩
    | ok a =>
      rcases ih (.ok a) (hrest a) (exec s w).2 with ⟨hok, hplan, hall⟩ | ⟨hplan, e, s', he, hmem⟩
      · exact .inl ⟨hok, congrArg _ hplan, List.forall_mem_cons.mpr ⟨⟨a, rfl⟩, hall⟩⟩
      · exact .inr ⟨(List.prefix_append_right_inj _).mpr hplan, e, s', he,
          List.mem_cons_of_mem _ hmem⟩

/-- A statement that raises is the last, and the run raises the same. -/
theorem Issues.raised {p : Program S R ε α} (h : p.Issues key plan) {w : W}
    {before after : List (Issued S R ε)} {i : Issued S R ε} {e : ε}
    (hsplit : p.issued exec w = before ++ i :: after) (hraise : i.answer = .error e) :
    after = [] ∧ (p.run exec w).1 = .error e := by
  induction p generalizing plan w before with
  | done r => exact absurd (congrArg List.length hsplit) (by simp [issued])
  | step s k ih =>
    obtain ⟨hpass, rest, rfl, hrest⟩ := h
    rw [issued] at hsplit
    rw [run_step]
    cases before with
    | nil =>
      obtain ⟨rfl, hafter⟩ := List.cons.inj hsplit
      rw [show (exec s w).1 = .error e from hraise, hpass e] at hafter ⊢
      exact ⟨hafter.symm, rfl⟩
    | cons b before =>
      obtain ⟨-, hsplit⟩ := List.cons.inj hsplit
      cases hanswer : (exec s w).1 with
      | error e' =>
        rw [hanswer, hpass e'] at hsplit
        exact absurd (congrArg List.length hsplit) (by simp [issued])
      | ok a =>
        rw [hanswer] at hsplit
        exact ih _ (hrest a) hsplit

end Program

end TxStore
