import ApiTemplate.Identity.PasswordRuns

/-!
# Serial orders of password changes

Concurrent runs of `ChangePasswordCommandHandler` and `ForgotPasswordStep3CommandHandler` on one
user. A `Ledger` collects the runs whose outcome is settled: resets that raise after they have
claimed their code come first, then the changes and the successful resets in an order that explains
the stored password, then the resets that are refused. Read in this order it is a serial execution.
-/

namespace ApiTemplate.Identity

open TxStore

/-- How a run ends. -/
abbrev Outcome : Type := Except Exn (ResultDetailed Unit)

/-- The runs whose outcome is settled. -/
structure Ledger (τ : Type) where
  early : List (τ × Outcome) := []
  mid : List (τ × Outcome) := []
  late : List (τ × Outcome) := []

namespace Ledger

variable {τ : Type}

def entries (g : Ledger τ) : List (τ × Outcome) := g.early ++ (g.mid ++ g.late)

/-- The settled runs, in the order of the ledger. -/
def order (g : Ledger τ) : List τ := g.entries.map Prod.fst

end Ledger

section

variable {b : Bcrypt} (a : Account b) {τ : Type} (runs : τ → PasswordRun)

/-- The code a run can claim. -/
def PasswordRun.claim : PasswordRun → Option Id
  | .change _ _ => none
  | .reset env otp _ => (PasswordRun.code a.user a.db env otp).toOption

/-- The codes that some runs claim. -/
def claims (l : List (τ × Outcome)) : List Id := l.filterMap fun e => (runs e.1).claim a

/-- A reset that raises once it has claimed its code. -/
def Raises (run : PasswordRun) (r : Outcome) : Prop :=
  ∃ env otp newPassword i e, run = .reset env otp newPassword ∧
    PasswordRun.code a.user a.db env otp = .ok i ∧ ¬CodeUsed a.db i ∧
    run.hash b = .error e ∧ r = .error e

/-- A reset that is refused when the codes in `used` are used. -/
def Refused (used : Id → Prop) (run : PasswordRun) (r : Outcome) : Prop :=
  ∃ env otp newPassword d, run = .reset env otp newPassword ∧ r = .ok (.error d) ∧
    (PasswordRun.code a.user a.db env otp = .error d ∨
      d = [invalidOtp] ∧ ∃ i, PasswordRun.code a.user a.db env otp = .ok i ∧ used i)

/-- A change, or a reset that can claim a code and hash its password. -/
def Takes (run : PasswordRun) : Prop :=
  ∀ env otp newPassword, run = .reset env otp newPassword →
    (∃ i, PasswordRun.code a.user a.db env otp = .ok i) ∧ ∃ z, run.hash b = .ok z

/-- The ledger explains the committed content. -/
structure Explains (g : Ledger τ) (base : Content) (p₀ p : Option String) : Prop where
  nodup : g.order.Nodup
  represents : Represents a base p
  history : History (fun t => (runs t).answer b) (fun t => (runs t).set b) p₀ g.mid p
  takes : ∀ e ∈ g.mid, Takes a (runs e.1)
  distinct : (claims a runs g.mid).Nodup
  fresh : ∀ i ∈ claims a runs g.mid, ¬CodeUsed a.db i
  used : ∀ i, CodeUsed base i ↔ CodeUsed a.db i ∨ i ∈ claims a runs g.mid
  early : ∀ e ∈ g.early, Raises a (runs e.1) e.2
  late : ∀ e ∈ g.late, Refused a (CodeUsed base) (runs e.1) e.2

/-! ## A ledger read as a serial execution -/

variable {a runs} {c : Content} {p : Option String}

theorem claim_reset {env : Env} {otp newPassword : String} {i : Id}
    (hcode : PasswordRun.code a.user a.db env otp = .ok i) :
    (PasswordRun.reset env otp newPassword).claim a = some i := by
  change (PasswordRun.code a.user a.db env otp).toOption = some i
  rw [hcode]
  rfl

/-- The programs of the runs. -/
abbrev programs (a : Account b) (runs : τ → PasswordRun) (t : τ) : Tx (ResultDetailed Unit) :=
  (runs t).program b a.user

theorem Raises.gives {run : PasswordRun} {r : Outcome} (h : Raises a run r) (hc : Represents a c p)
    (hu : ∀ i, CodeUsed c i ↔ CodeUsed a.db i) : Gives a c run r p fun _ => False := by
  obtain ⟨env, otp, newPassword, i, e, rfl, hcode, hfree, hhash, rfl⟩ := h
  exact hc.gives_reset_error hcode (fun hi => hfree ((hu i).mp hi)) hhash

theorem Refused.gives {used : Id → Prop} {run : PasswordRun} {r : Outcome}
    (h : Refused a used run r) (hc : Represents a c p) (hu : ∀ i, CodeUsed c i ↔ used i) :
    Gives a c run r p fun _ => False := by
  obtain ⟨env, otp, newPassword, d, rfl, rfl, hcode | ⟨rfl, i, hcode, hi⟩⟩ := h
  · exact hc.gives_reset_refused hcode
  · exact hc.gives_reset_used hcode ((hu i).mpr hi)

variable (runs) in
/-- Runs that leave everything as it is. -/
theorem serial_quiet {used : Id → Prop} {l : List (τ × Outcome)}
    (hl : ∀ e ∈ l, ∀ c, Represents a c p → (∀ i, CodeUsed c i ↔ used i) →
      Gives a c (runs e.1) e.2 p fun _ => False)
    (hc : Represents a c p) (hu : ∀ i, CodeUsed c i ↔ used i) :
    Db.serialResults (programs a runs) c (l.map Prod.fst) = l ∧
      Represents a (Db.serialAfter (programs a runs) c (l.map Prod.fst)) p ∧
      ∀ i, CodeUsed (Db.serialAfter (programs a runs) c (l.map Prod.fst)) i ↔ used i := by
  induction l generalizing c with
  | nil => exact ⟨rfl, hc, hu⟩
  | cons e l ih =>
    have hgives := hl e List.mem_cons_self c hc hu
    obtain ⟨hresults, hafter, hused⟩ := ih (fun e he => hl e (List.mem_cons_of_mem _ he))
      hgives.after fun i => by rw [hgives.used, or_false, hu]
    exact ⟨congrArg₂ List.cons (congrArg (Prod.mk e.1) hgives.result) hresults, hafter, hused⟩

/-- Runs that take effect, one after another. -/
theorem serial_history {used : Id → Prop} {l : List (τ × Outcome)} {p' : Option String}
    (h : History (fun t => (runs t).answer b) (fun t => (runs t).set b) p l p')
    (htakes : ∀ e ∈ l, Takes a (runs e.1)) (hdistinct : (claims a runs l).Nodup)
    (hfree : ∀ i ∈ claims a runs l, ¬CodeUsed c i) (hc : Represents a c p)
    (hu : ∀ i, CodeUsed c i ∨ i ∈ claims a runs l ↔ used i) :
    Db.serialResults (programs a runs) c (l.map Prod.fst) = l ∧
      Represents a (Db.serialAfter (programs a runs) c (l.map Prod.fst)) p' ∧
      ∀ i, CodeUsed (Db.serialAfter (programs a runs) c (l.map Prod.fst)) i ↔ used i := by
  have hserial := History.serial (programs a runs)
    (fun l c v => Represents a c v ∧ (∀ e ∈ l, Takes a (runs e.1)) ∧
      (claims a runs l).Nodup ∧ (∀ i ∈ claims a runs l, ¬CodeUsed c i) ∧
      ∀ i, CodeUsed c i ∨ i ∈ claims a runs l ↔ used i) ?_ h ⟨hc, htakes, hdistinct, hfree, hu⟩
  · obtain ⟨hresults, hafter, -, -, -, hused⟩ := hserial
    exact ⟨hresults, hafter, fun i => by rw [← hused]; simp [claims]⟩
  · rintro t l c v ⟨hc, htakes, hdistinct, hfree, hu⟩
    have htakes' : ∀ e ∈ l, Takes a (runs e.1) := fun e he => htakes e (List.mem_cons_of_mem _ he)
    have htake := htakes _ List.mem_cons_self
    dsimp only at htake
    unfold claims at hdistinct hfree hu
    rw [List.filterMap_cons] at hdistinct hfree hu
    unfold programs
    cases hrun : runs t with
    | change env message =>
      rw [hrun] at hdistinct hfree hu
      have hgives := hc.gives_change env message
      refine ⟨hgives.result, hgives.after, htakes', hdistinct, fun i hi => ?_, fun i => ?_⟩
      · rw [hgives.used, or_false]
        exact hfree i hi
      · rw [hgives.used, or_false]
        exact hu i
    | reset env otp newPassword =>
      obtain ⟨⟨i, hcode⟩, z, hhash⟩ := htake env otp newPassword hrun
      rw [hrun] at hhash hdistinct hfree hu
      rw [claim_reset hcode] at hdistinct hfree hu
      obtain ⟨hi, hnodup⟩ := List.nodup_cons.mp hdistinct
      have hgives := hc.gives_reset_free hcode (hfree i List.mem_cons_self) hhash
      refine ⟨hgives.result, hgives.after, htakes', hnodup, fun j hj => ?_, fun j => ?_⟩
      · rw [hgives.used, not_or]
        refine ⟨hfree j (List.mem_cons_of_mem _ hj), ?_⟩
        rintro rfl
        exact hi hj
      · rw [hgives.used, ← hu j, List.mem_cons, or_assoc]
        rfl

/-- **A ledger is a serial execution** of its runs, with their outcomes and the stored password. -/
theorem Explains.serial {g : Ledger τ} {p₀ : Option String} (h : Explains a runs g c p₀ p)
    (h₀ : Represents a a.db p₀) :
    Db.serialResults (programs a runs) a.db g.order = g.entries ∧
      Represents a (Db.serialAfter (programs a runs) a.db g.order) p := by
  obtain ⟨hresults₁, hafter₁, hused₁⟩ := serial_quiet runs
    (fun e he _ hc hu => (h.early e he).gives hc hu) h₀ fun _ => Iff.rfl
  obtain ⟨hresults₂, hafter₂, hused₂⟩ := serial_history h.history h.takes h.distinct
    (fun i hi => by rw [hused₁]; exact h.fresh i hi) hafter₁ (fun i => by rw [hused₁, ← h.used i])
  obtain ⟨hresults₃, hafter₃, -⟩ := serial_quiet runs
    (fun e he _ hc hu => (h.late e he).gives hc hu) hafter₂ hused₂
  unfold Ledger.order Ledger.entries
  rw [List.map_append, List.map_append, Db.serialResults_append, Db.serialResults_append,
    Db.serialAfter_append, Db.serialAfter_append, hresults₁, hresults₂, hresults₃]
  exact ⟨rfl, hafter₃⟩

/-! ## Successful changes from one password -/

variable (runs) in
/-- Programs one after another leave the password as it is, or as one of them sets it. -/
theorem Represents.serialAfter (hc : Represents a c p) (ts : List τ) :
    ∃ p', Represents a (Db.serialAfter (programs a runs) c ts) p' ∧
      (p' = p ∨ ∃ v ∈ ts, p' = some (runs v).newPassword) := by
  induction ts generalizing c p with
  | nil => exact ⟨p, hc, Or.inl rfl⟩
  | cons t ts ih =>
    obtain ⟨r, p₁, used, hgives, hp₁⟩ := hc.exists_gives (runs t)
    obtain ⟨p', hp', h | ⟨v, hv, h⟩⟩ := ih hgives.after
    · refine ⟨p', hp', ?_⟩
      rw [h]
      exact hp₁.imp_right fun h₁ => ⟨t, List.mem_cons_self, h₁⟩
    · exact ⟨p', hp', Or.inr ⟨v, List.mem_cons_of_mem t hv, h⟩⟩

/-- A change that succeeds alone has been given the stored password, and stores the new one. -/
theorem Represents.change_ok {t : τ} {q : String} (hc : Represents a c p)
    (hq : (runs t).checked = some q) (hr : c.result (programs a runs t) = .ok (.ok ())) :
    p = some q ∧ Represents a (c.after (programs a runs t)) (some (runs t).newPassword) := by
  unfold programs at hr ⊢
  cases hrun : runs t with
  | reset env otp newPassword =>
    rw [hrun] at hq
    cases hq
  | change env message =>
    rw [hrun] at hq hr
    cases hq
    have hgives := hc.gives_change env message
    obtain ⟨hp, hset⟩ := PasswordRun.eq_of_change_ok (hgives.result.symm.trans hr)
    have hafter := hgives.after
    rw [hset] at hafter
    exact ⟨hp, hafter⟩

/-- Of two changes from one old password that both succeed in some order, the first one or a run
between them sets that password again. -/
theorem exists_sets_again {order l₁ l₂ l₃ : List τ} {t w : τ} {q : String}
    {result : τ → Option Outcome} (hc : Represents a c p)
    (hresults : ∀ e ∈ Db.serialResults (programs a runs) c order, result e.1 = some e.2)
    (horder : order = l₁ ++ t :: (l₂ ++ w :: l₃)) (ht : (runs t).checked = some q)
    (hw : (runs w).checked = some q) (hrt : result t = some (.ok (.ok ())))
    (hrw : result w = some (.ok (.ok ()))) :
    ∃ v ∈ t :: l₂, (runs v).newPassword = q := by
  subst horder
  obtain ⟨p₁, hp₁, -⟩ := hc.serialAfter runs l₁
  rw [Db.serialResults_append] at hresults
  have ht₁ := hresults (t, _) (List.mem_append_right _ List.mem_cons_self)
  obtain ⟨-, hafter⟩ := hp₁.change_ok ht (Option.some.inj (ht₁.symm.trans hrt))
  obtain ⟨p₂, hp₂, hset⟩ := hafter.serialAfter runs l₂
  have hmem : ∀ e, e ∈ Db.serialResults (programs a runs)
      (Db.serialAfter (programs a runs) ((Db.serialAfter (programs a runs) c l₁).after
        (programs a runs t)) l₂) (w :: l₃) → result e.1 = some e.2 := by
    intro e he
    refine hresults e (List.mem_append_right _ (List.mem_cons_of_mem _ ?_))
    rw [Db.serialResults_append]
    exact List.mem_append_right _ he
  have hw₁ := hmem (w, _) List.mem_cons_self
  obtain ⟨rfl, -⟩ := hp₂.change_ok hw (Option.some.inj (hw₁.symm.trans hrw))
  rcases hset with h | ⟨v, hv, h⟩
  · exact ⟨t, List.mem_cons_self, (Option.some.inj h).symm⟩
  · exact ⟨v, List.mem_cons_of_mem t hv, (Option.some.inj h).symm⟩

/-! ## Growing ledgers -/

/-- The ledger `g'` keeps what `g` says, and may add something about `t` only. -/
structure Grows (b : Bcrypt) (runs : τ → PasswordRun) (p₀ : Option String) (t : τ)
    (g g' : Ledger τ) : Prop where
  mem : ∀ e ∈ g.entries, e ∈ g'.entries
  out : ∀ w, w ≠ t → w ∉ g.order → w ∉ g'.order
  visits : ∀ q, Visits (fun t => (runs t).set b) q p₀ g.mid →
    Visits (fun t => (runs t).set b) q p₀ g'.mid

variable {g g' : Ledger τ} {base base' : Content} {p₀ p' : Option String} {t : τ} {r : Outcome}

theorem Grows.rfl : Grows b runs p₀ t g g := ⟨fun _ he => he, fun _ _ hw => hw, fun _ hq => hq⟩

/-- A ledger with one more entry. -/
theorem grows_of_perm (hperm : g'.entries.Perm ((t, r) :: g.entries))
    (hvisits : ∀ q, Visits (fun t => (runs t).set b) q p₀ g.mid →
      Visits (fun t => (runs t).set b) q p₀ g'.mid) : Grows b runs p₀ t g g' where
  mem e he := hperm.mem_iff.mpr (List.mem_cons_of_mem _ he)
  out w hw hout := by
    unfold Ledger.order at hout ⊢
    rw [(hperm.map Prod.fst).mem_iff, List.map_cons, List.mem_cons, not_or]
    exact ⟨hw, hout⟩
  visits := hvisits

theorem nodup_of_perm (hperm : g'.entries.Perm ((t, r) :: g.entries)) (hg : g.order.Nodup)
    (hout : t ∉ g.order) : g'.order.Nodup := by
  unfold Ledger.order
  rw [(hperm.map Prod.fst).nodup_iff, List.map_cons]
  exact List.nodup_cons.mpr ⟨hout, hg⟩

theorem Refused.mono {used used' : Id → Prop} {run : PasswordRun} (h : Refused a used run r)
    (hu : ∀ i, used i → used' i) : Refused a used' run r := by
  obtain ⟨env, otp, newPassword, d, hrun, hr, hcode | ⟨hd, i, hcode, hi⟩⟩ := h
  · exact ⟨env, otp, newPassword, d, hrun, hr, Or.inl hcode⟩
  · exact ⟨env, otp, newPassword, d, hrun, hr, Or.inr ⟨hd, i, hcode, hu i hi⟩⟩

/-- A reset that raises comes first. -/
theorem Explains.raise (h : Explains a runs g base p₀ p) (hout : t ∉ g.order)
    (hr : Raises a (runs t) r) :
    ∃ g', Explains a runs g' base p₀ p ∧ Grows b runs p₀ t g g' ∧ (t, r) ∈ g'.entries := by
  have hperm : ({ g with early := (t, r) :: g.early } : Ledger τ).entries.Perm
      ((t, r) :: g.entries) := .refl _
  refine ⟨{ g with early := (t, r) :: g.early }, { h with
    nodup := nodup_of_perm hperm h.nodup hout
    early := fun e he => ?_ }, grows_of_perm hperm fun _ hq => hq, List.mem_cons_self⟩
  rcases List.mem_cons.mp he with rfl | he
  · exact hr
  · exact h.early e he

/-- A reset that is refused comes last. -/
theorem Explains.refuse (h : Explains a runs g base p₀ p) (hout : t ∉ g.order)
    (hr : Refused a (CodeUsed base) (runs t) r) :
    ∃ g', Explains a runs g' base p₀ p ∧ Grows b runs p₀ t g g' ∧ (t, r) ∈ g'.entries := by
  have hperm : ({ g with late := (t, r) :: g.late } : Ledger τ).entries.Perm
      ((t, r) :: g.entries) := by
    unfold Ledger.entries
    rw [← List.append_assoc, ← List.append_assoc]
    exact List.perm_middle
  refine ⟨{ g with late := (t, r) :: g.late }, { h with
    nodup := nodup_of_perm hperm h.nodup hout
    late := fun e he => ?_ }, grows_of_perm hperm fun _ hq => hq,
    hperm.mem_iff.mpr List.mem_cons_self⟩
  rcases List.mem_cons.mp he with rfl | he
  · exact hr
  · exact h.late e he

/-- A run that takes effect joins the others somewhere. -/
theorem Explains.take {mid : List (τ × Outcome)} (h : Explains a runs g base p₀ p)
    (hout : t ∉ g.order) (hperm : mid.Perm ((t, r) :: g.mid))
    (hhistory : History (fun t => (runs t).answer b) (fun t => (runs t).set b) p₀ mid p')
    (hvisits : ∀ q, Visits (fun t => (runs t).set b) q p₀ g.mid →
      Visits (fun t => (runs t).set b) q p₀ mid)
    (hbase : Represents a base' p') (htakes : Takes a (runs t))
    (hfree : ∀ i, (runs t).claim a = some i → ¬CodeUsed base i)
    (hused : ∀ i, CodeUsed base' i ↔ CodeUsed base i ∨ (runs t).claim a = some i) :
    ∃ g', Explains a runs g' base' p₀ p' ∧ Grows b runs p₀ t g g' ∧ (t, r) ∈ g'.entries := by
  have hentries : ({ g with mid := mid } : Ledger τ).entries.Perm ((t, r) :: g.entries) := by
    unfold Ledger.entries
    refine ((hperm.append_right g.late).append_left g.early).trans ?_
    exact List.perm_middle
  have hclaims : (claims a runs mid).Perm (claims a runs ((t, r) :: g.mid)) := hperm.filterMap _
  have hclaim : ∀ i, i ∈ claims a runs mid ↔
      (runs t).claim a = some i ∨ i ∈ claims a runs g.mid := by
    intro i
    rw [hclaims.mem_iff]
    unfold claims
    rw [List.mem_filterMap, List.mem_filterMap]
    simp only [List.mem_cons, exists_eq_or_imp]
  refine ⟨{ g with mid := mid }, ⟨nodup_of_perm hentries h.nodup hout, hbase, hhistory,
    fun e he => ?_, ?_, fun i hi => ?_, fun i => ?_, h.early, fun e he => ?_⟩,
    grows_of_perm hentries hvisits, hentries.mem_iff.mpr List.mem_cons_self⟩
  · rcases List.mem_cons.mp (hperm.mem_iff.mp he) with rfl | he
    · exact htakes
    · exact h.takes e he
  · rw [hclaims.nodup_iff]
    unfold claims
    rw [List.filterMap_cons]
    cases hc : (runs t).claim a with
    | none => exact h.distinct
    | some i =>
      refine List.nodup_cons.mpr ⟨fun hi => ?_, h.distinct⟩
      exact hfree i hc ((h.used i).mpr (Or.inr hi))
  · rcases (hclaim i).mp hi with hc | hi
    · exact fun hdb => hfree i hc ((h.used i).mpr (Or.inl hdb))
    · exact h.fresh i hi
  · rw [hused, h.used, hclaim, or_assoc, or_comm (a := (runs t).claim a = some i)]
  · exact (h.late e he).mono fun i hi => (hused i).mpr (Or.inl hi)

end

end ApiTemplate.Identity
