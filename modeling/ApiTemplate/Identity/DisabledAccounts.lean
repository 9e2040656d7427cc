import ApiTemplate.Identity.Footprints

/-!
# Disabled accounts

A run is a sequence of identity commands, one after another. An administrator disables a user with
the toggle; from then until the next toggle of this user nothing should make `is_active` true again.
Of all commands only a confirmation can, when it spends a code of the disabled user: the accounts
that are disabled along a run stay so exactly when no confirmation of the run finds such a code.
-/

namespace ApiTemplate.Identity

open TxStore

/-! ## Runs -/

/-- The user is there, with `is_active = false`. -/
def Inactive (db : Content) (id : Id) : Prop := ∃ u, user? db id = some u ∧ u.isActive = false

/-- The call toggles the status of the user. -/
def HandlerCall.Toggles (id : Id) (q : HandlerCall) : Prop := q.command = .userToggleStatus ⟨id⟩

/-- A toggle of the run has left the user inactive, and no toggle of his has come since. -/
def DisabledSince (d : Deployment) (db : Content) (id : Id) (run : List HandlerCall) : Prop :=
  ∃ pre toggle since, run = pre ++ toggle :: since ∧ toggle.Toggles id ∧
    Inactive (afterAll d db (pre ++ [toggle])) id ∧ ∀ q ∈ since, ¬q.Toggles id

/-- In every state of the run, whoever was disabled is inactive. -/
def StayDisabled (d : Deployment) (db : Content) (run : List HandlerCall) : Prop :=
  ∀ id pre post, run = pre ++ post → DisabledSince d db id pre → Inactive (afterAll d db pre) id

/-- No confirmation of the run finds a code that it can spend for a disabled user. -/
def NoCodeForDisabled (d : Deployment) (db : Content) (run : List HandlerCall) : Prop :=
  ∀ id pre env message post, run = pre ++ ⟨env, .confirmEmail message⟩ :: post →
    DisabledSince d db id pre →
    ∀ u, user? (afterAll d db pre) id = some u → u.email = message.email →
      spendable (afterAll d db pre) env message.otp id = none

variable {d : Deployment} {db : Content} {id : Id}

section

variable {run : List HandlerCall} {q : HandlerCall}

theorem DisabledSince.snoc (h : DisabledSince d db id run) (hq : ¬q.Toggles id) :
    DisabledSince d db id (run ++ [q]) := by
  obtain ⟨pre, toggle, since, rfl, htoggle, hinactive, hsince⟩ := h
  refine ⟨pre, toggle, since ++ [q], by simp, htoggle, hinactive, fun q' hq' => ?_⟩
  rcases List.mem_append.mp hq' with hq' | hq'
  · exact hsince q' hq'
  · obtain rfl := List.mem_singleton.mp hq'
    exact hq

/-- The last call of the run is the toggle, or the user was disabled before it. -/
theorem DisabledSince.of_snoc (h : DisabledSince d db id (run ++ [q])) :
    Inactive (afterAll d db (run ++ [q])) id ∨ ¬q.Toggles id ∧ DisabledSince d db id run := by
  obtain ⟨pre, toggle, since, hrun, htoggle, hinactive, hsince⟩ := h
  rcases List.eq_nil_or_concat since with rfl | ⟨since, q', rfl⟩
  · exact Or.inl (hrun ▸ hinactive)
  · rw [List.concat_eq_append, ← List.cons_append, ← List.append_assoc] at hrun
    obtain ⟨rfl, hq⟩ := List.append_inj' hrun rfl
    obtain rfl : q = q' := List.singleton_inj.mp hq
    refine Or.inr ⟨hsince q (by simp), pre, toggle, since, rfl, htoggle, hinactive, fun q' hq' => ?_⟩
    exact hsince q' (by simp [hq'])

end

/-! ## One call -/

/-- A call that cannot touch the flag leaves the user inactive. -/
theorem Inactive.after_other {q : HandlerCall} (h : Inactive db id)
    (hq : ¬q.command.TouchesActive id) : Inactive (q.after d db) id := by
  obtain ⟨u, hu, ha⟩ := h
  have hrow := user?_eq_some.mp hu
  have hid : u.id = id := id_of_row hrow
  obtain ⟨r, hr, hpart⟩ := Db.after_row_of_keeps (keepsActive_handler d q.env id hq) hrow
  rw [show activeAt id (.user u) = some u.isActive from if_pos hid] at hpart
  unfold activeAt at hpart
  rw [if_pos (id_of_row hr)] at hpart
  obtain ⟨v, hv, hactive⟩ := Option.map_eq_some_iff.mp hpart
  rw [Row.user?_eq_some.mp hv] at hr
  exact ⟨v, user?_eq_some.mpr hr, hactive.trans ha⟩

/-- So does a confirmation that finds no code to spend for him. -/
theorem Inactive.after_confirmEmail {env : Env} {message : ConfirmEmailCommand}
    (h : Inactive db id) (hcode : ∀ u, user? db id = some u → u.email = message.email →
      spendable db env message.otp id = none) :
    Inactive (db.after (ConfirmEmailCommandHandler.call env message)) id := by
  obtain ⟨u, hu, ha⟩ := h
  refine ⟨u, ?_, ha⟩
  have hrow := user?_eq_some.mp hu
  rw [user?_eq_some]
  rcases Identity.after_confirmEmail env message db with hsame | ⟨v, o, hv, hemail, hspend, hrows⟩
  · rw [hsame]
    exact hrow
  · rw [hrows, if_neg, if_neg]
    · exact hrow
    · -- the code that is spent is not the row of the user
      rintro rfl
      have ho := (newestCode_eq_some (spendable_eq_some.mp hspend).1).1
      rw [mem_otps.mp ho] at hrow
      cases hrow
    · rintro rfl
      rw [hcode v (user?_eq_some.mpr (mem_users.mp hv)) hemail] at hspend
      cases hspend

/-- A confirmation that finds one makes him active. -/
theorem not_inactive_after_confirmEmail {env : Env} {message : ConfirmEmailCommand} {u : UserRow}
    {o : OtpRow} (hdb : emailKey.Distinct db) (hu : user? db id = some u)
    (hemail : u.email = message.email) (hspend : spendable db env message.otp id = some o) :
    ¬Inactive (db.after (ConfirmEmailCommandHandler.call env message)) id := by
  rintro ⟨v, hv, ha⟩
  have hrow := user?_eq_some.mp hu
  obtain rfl : u.id = id := id_of_row hrow
  have hafter := after_confirmEmail_of_spendable hdb (mem_users.mpr hrow) hemail hspend
  rw [user?_eq_some.mpr hafter] at hv
  cases hv
  cases ha

/-! ## Every run -/

/-- **Disabled accounts.** With unique addresses, whoever is disabled along a run stays inactive in
every state until his next toggle if and only if no confirmation of the run finds, for a user who
is disabled then, a code that it can spend. -/
theorem stayDisabled_iff (hdb : emailKey.Distinct db) (run : List HandlerCall) :
    StayDisabled d db run ↔ NoCodeForDisabled d db run := by
  constructor
  · intro h id pre env message post hrun hdisabled u hu hemail
    by_contra hn
    obtain ⟨o, hspend⟩ := Option.ne_none_iff_exists'.mp hn
    have hnot : ¬HandlerCall.Toggles id ⟨env, .confirmEmail message⟩ := fun hc => by cases hc
    have hinactive := h id (pre ++ [⟨env, .confirmEmail message⟩]) post (by simp [hrun])
      (hdisabled.snoc hnot)
    rw [afterAll_snoc] at hinactive
    exact not_inactive_after_confirmEmail (distinct_afterAll hdb pre) hu hemail hspend hinactive
  · intro h id pre
    induction pre using List.reverseRecOn with
    | nil =>
      rintro post - ⟨pre, toggle, since, hnil, -⟩
      simp at hnil
    | append_singleton pre q ih =>
      intro post hrun hdisabled
      rcases hdisabled.of_snoc with hinactive | ⟨hq, hsince⟩
      · exact hinactive
      have hbefore := ih (q :: post) (by simp [hrun]) hsince
      rw [afterAll_snoc]
      by_cases htouch : q.command.TouchesActive id
      · rcases htouch.confirms_or_toggles with ⟨message, hc⟩ | hc
        · obtain ⟨env, command⟩ := q
          obtain rfl : command = .confirmEmail message := hc
          exact hbefore.after_confirmEmail (h id pre env message post (by simp [hrun]) hsince)
        · exact absurd hc hq
      · exact hbefore.after_other htouch

/-! ## Two runs -/

/-- Ann signs up. -/
def annSignsUp : HandlerCall where
  env := .at 0 0 "123456"
  command := .register
    { email := "ann@example.com", password := "secret", firstName := "Ann", lastName := "Lee" }

/-- The administrator toggles Ann, who is the first user. -/
def annToggled (t : Micros) : HandlerCall := ⟨.at t, .userToggleStatus ⟨0⟩⟩

/-- Ann confirms with the code that was mailed to her. -/
def annConfirms (t : Micros) : HandlerCall :=
  ⟨.at t, .confirmEmail { email := "ann@example.com", otp := "123456" }⟩

instance (db : Content) (id : Id) : Decidable (Inactive db id) :=
  inferInstanceAs (Decidable (∃ u ∈ user? db id, u.isActive = false))

/-- Ann confirms, is disabled, and presents her code again: it is spent. -/
theorem stayDisabled_confirmed :
    StayDisabled .plain Db.empty
      [annSignsUp, annConfirms 1000000, annToggled 2000000, annConfirms 3000000] := by
  refine (stayDisabled_iff emailKey.distinct_empty _).mpr ?_
  rintro id pre env message post hrun ⟨pre', toggle, since, rfl, htoggle, -, -⟩ u hu hemail
  rw [List.append_assoc, List.cons_append] at hrun
  rcases pre' with _ | ⟨a, _ | ⟨b, _ | ⟨c, pre'⟩⟩⟩ <;>
    simp only [List.nil_append, List.cons_append, List.cons.injEq] at hrun
  · rw [← hrun.1] at htoggle
    cases htoggle
  · rw [← hrun.2.1] at htoggle
    cases htoggle
  · -- the toggle is the third call, and the confirmation after it the last one
    obtain ⟨rfl, rfl, rfl, hlast⟩ := hrun
    cases htoggle
    rcases since with _ | ⟨e, since⟩
    · cases hlast
      rfl
    · simp at hlast
  · have hlength := congrArg List.length hrun.2.2.2
    simp at hlength
    omega

/-- Ann, enabled by an administrator and disabled again, enables herself. -/
theorem not_stayDisabled_confirm :
    ¬StayDisabled .plain Db.empty
      [annSignsUp, annToggled 1000000, annToggled 2000000, annConfirms 3000000] := by
  intro h
  refine absurd (h 0 _ [] (List.append_nil _).symm ?_) (by decide)
  refine ⟨[annSignsUp, annToggled 1000000], annToggled 2000000, [annConfirms 3000000], rfl, rfl,
    by decide, fun q hq => ?_⟩
  obtain rfl := List.mem_singleton.mp hq
  exact fun hc => by cases hc

end ApiTemplate.Identity
