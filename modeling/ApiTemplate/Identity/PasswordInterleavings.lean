import ApiTemplate.Identity.PasswordPhases

/-!
# Interleaved password changes

The steps of concurrent password runs, phase by phase: after each of them some ledger explains what
is committed, as long as no change commits after the password it has checked was replaced
(`ChecksStored`). A complete run under this condition is a serial execution; without it, two changes
from the same old password can both succeed.
-/

namespace ApiTemplate.Identity

open TxStore

section

variable {b : Bcrypt} {a : Account b} {τ : Type} {runs : τ → PasswordRun}
  {g g' : Ledger τ} {base base' : Content} {p₀ p p' : Option String} {t : τ} {r : Outcome}

/-! ## What a process sees -/

section

variable {st : Store schema τ} {x : Option Id} {i : Id}

theorem Holding.of_none (h : ∀ i r, st.pending i ≠ some (t, r)) : Holding st t none :=
  ⟨fun i r hr => absurd hr (h i r), fun _ hi => nomatch hi⟩

/-- The code a transaction has claimed is not used among the committed rows. -/
theorem Holding.not_codeUsed (h : Holding st t x) (hx : x = some i) : ¬CodeUsed st.base i := by
  rintro ⟨o, hrow, hused⟩
  obtain ⟨o', -, hrow', hused', -⟩ := h.row i hx
  rw [hrow] at hrow'
  cases hrow'
  exact hused hused'

/-- A transaction without uncommitted rows sees the committed ones. -/
theorem Holding.view_row [DecidableEq τ] (h : Holding st t none) :
    (st.view t).row = st.base.row := by
  ext1 i
  exact Store.visible_of_not_pending fun r hr => nomatch h.only i r hr

/-- The content a transaction sees that has claimed the code `x`. -/
theorem Holding.represents_view [DecidableEq τ] (h : Holding st t x)
    (hc : Represents a st.base p) : Represents a (st.view t) p := by
  refine ⟨fun i => ?_, ?_⟩
  · rw [← hc.alike i]
    rcases st.visible_cases t i with ⟨r, hr, hv⟩ | ⟨-, hv⟩
    · obtain ⟨o, o', hrow, -, hr', heq, -⟩ := h.row i (h.only i r hr)
      rw [hr] at hr'
      cases hr'
      rw [Store.view_row, hv, hrow]
      exact congrArg (fun o => some (Row.otp o)) heq
    · rw [Store.view_row, hv]
  · obtain ⟨y, hy, hs⟩ := hc.stored
    refine ⟨y, ?_, hs⟩
    rw [user?_eq_some] at hy ⊢
    rw [Store.view_row, Store.visible_of_not_pending, hy]
    intro r hr
    obtain ⟨o, o', hrow, -⟩ := h.row _ (h.only _ r hr)
    rw [hy] at hrow
    cases hrow

/-- The codes that are used in what such a transaction sees. -/
theorem Holding.codeUsed_view [DecidableEq τ] (h : Holding st t x) :
    CodeUsed (st.view t) i ↔ CodeUsed st.base i ∨ x = some i := by
  unfold CodeUsed
  rcases st.visible_cases t i with ⟨r, hr, hv⟩ | ⟨hr, hv⟩
  · obtain ⟨o, o', hrow, hused, hr', heq, hused'⟩ := h.row i (h.only i r hr)
    rw [hr] at hr'
    cases hr'
    rw [Store.view_row, hv]
    exact ⟨fun _ => Or.inr (h.only i _ hr), fun _ => ⟨o', rfl, hused'⟩⟩
  · rw [Store.view_row, hv]
    refine (or_iff_left ?_).symm
    intro hx
    obtain ⟨o, o', -, -, hr', -⟩ := h.row i hx
    exact hr _ hr'

end

/-- A transaction claims an unused code. -/
theorem Holding.claim (h : Holding st t none) {o : OtpRow} {e : ℤ}
    (hrow : st.base.row i = some (.otp o)) (hused : o.usedAt = none) :
    Holding (st.put t (schema.set (.consumeById i e) (.otp o))) t (some i) := by
  have hid : o.id = i := st.base.keyed i _ hrow
  have hpend : ∀ j, (st.put t (schema.set (.consumeById i e) (.otp o))).pending j =
      if j = i then some (t, .otp { o with usedAt := some e, verified := true })
      else st.pending j := by
    intro j
    rw [Store.put_pending, schema.rowId_set]
    subst hid
    rfl
  refine ⟨fun j r hr => ?_, fun j hj => ?_⟩
  · rw [hpend] at hr
    split at hr
    · rename_i hj
      rw [hj]
    · cases h.only j r hr
  · cases hj
    exact ⟨o, { o with usedAt := some e, verified := true }, hrow, hused,
      (hpend _).trans (if_pos rfl), rfl, Option.some_ne_none e⟩

/-- A code of the first content, up to its use. -/
theorem Alike.exists_otp {c c' : Content} {o : OtpRow} (h : Alike c c') (ho : o ∈ otps c') :
    ∃ o', c.row o.id = some (.otp o') ∧ unspent o' = unspent o := by
  have hsymm : Alike c' c := fun i => (h i).symm
  obtain ⟨r, hr, hbare⟩ := hsymm.exists_row (mem_otps.mp ho)
  cases r with
  | otp o' => exact ⟨o', hr, Row.otp.inj hbare⟩
  | user u => cases hbare
  | apiKey k => cases hbare
  | blob bl => cases hbare

theorem users_congr {c c' : Content} (h : c.row = c'.row) : users c = users c' :=
  congrArg (List.filterMap Row.user?) (Db.rows_congr h)

theorem newestCode_congr {c c' : Content} (h : c.row = c'.row) (env : Env) (otp : String) (id : Id)
    (kind : OtpKindEnum) : newestCode c env otp id kind = newestCode c' env otp id kind := by
  unfold newestCode otps
  rw [Db.rows_congr h]

/-! ## Ledgers that go on -/

theorem Explains.congr (h : Explains a runs g base p₀ p) (hrow : base'.row = base.row) :
    Explains a runs g base' p₀ p :=
  { h with
    represents := h.represents.congr hrow
    used := fun i => by rw [codeUsed_congr hrow, h.used]
    late := fun e he => (h.late e he).mono fun i hi => (codeUsed_congr hrow i).mpr hi }

/-- After a step of `t` some ledger still explains what is committed. -/
structure Continues (a : Account b) (runs : τ → PasswordRun) (p₀ : Option String) (g : Ledger τ)
    (t : τ) (st st' : Store schema τ) (pr : Proc schema (ResultDetailed Unit)) : Prop where
  explains : ∃ g' p', Explains a runs g' st'.base p₀ p' ∧ Grows b runs p₀ t g g' ∧
    Phase a runs p₀ g' st' t pr
  used : ∀ i, CodeUsed st.base i → CodeUsed st'.base i

section

variable {st st' : Store schema τ} {pr : Proc schema (ResultDetailed Unit)}
  {prog : Tx (ResultDetailed Unit)}

/-- A step that settles nothing. -/
theorem Explains.continues (h : Explains a runs g st.base p₀ p)
    (hrow : st'.base.row = st.base.row) (hphase : Phase a runs p₀ g st' t pr) :
    Continues a runs p₀ g t st st' pr :=
  ⟨⟨g, p, h.congr hrow, .rfl, hphase⟩, fun i hi => (codeUsed_congr hrow i).mpr hi⟩

/-- A step that settles the run. -/
theorem continues_settled (h : ∃ g', Explains a runs g' st'.base p₀ p' ∧ Grows b runs p₀ t g g' ∧
    (t, r) ∈ g'.entries) (hrest : Ending r prog) (hold : Holding st' t none)
    (hused : ∀ i, CodeUsed st.base i → CodeUsed st'.base i) :
    Continues a runs p₀ g t st st' { prog := prog } := by
  obtain ⟨g', hexp, hgrows, hmem⟩ := h
  exact ⟨⟨g', p', hexp, hgrows, .settled hmem hrest hold⟩, hused⟩

/-- A run that takes effect as the last one so far. -/
theorem Explains.concat (h : Explains a runs g base p₀ p) (hout : t ∉ g.order)
    (hanswer : (runs t).answer b p = r) (hbase : Represents a base' ((runs t).set b p))
    (htakes : Takes a (runs t)) (hfree : ∀ i, (runs t).claim a = some i → ¬CodeUsed base i)
    (hused : ∀ i, CodeUsed base' i ↔ CodeUsed base i ∨ (runs t).claim a = some i) :
    ∃ g', Explains a runs g' base' p₀ ((runs t).set b p) ∧ Grows b runs p₀ t g g' ∧
      (t, r) ∈ g'.entries := by
  subst hanswer
  exact h.take hout (List.perm_append_singleton _ _) h.history.concat (fun _ hq => hq.append) hbase
    htakes hfree hused

/-- A change that leaves the password as it is. -/
theorem Explains.quiet_change {env : Env} {message : ChangePasswordCommand}
    (h : Explains a runs g base p₀ p) (hout : t ∉ g.order) (hrun : runs t = .change env message)
    (hanswer : (PasswordRun.change env message).answer b p = r)
    (hset : (PasswordRun.change env message).set b p = p) :
    ∃ g', Explains a runs g' base p₀ p ∧ Grows b runs p₀ t g g' ∧ (t, r) ∈ g'.entries := by
  rw [← hrun] at hanswer hset
  have hrep : Represents a base ((runs t).set b p) := by
    rw [hset]
    exact h.represents
  have hconcat := h.concat hout hanswer hrep
    (fun env otp newPassword hc => by rw [hrun] at hc; cases hc)
    (fun i hc => by rw [hrun] at hc; cases hc)
    (fun i => by rw [hrun]; exact (or_iff_left nofun).symm)
  rwa [hset] at hconcat

/-! ### The commit of a password -/

section

variable {env : Env} {message : ChangePasswordCommand} {otp newPassword z : String}
  {x y q : Option String} {i : Id}

/-- What is stored once a run has written the password `z` over what it finds. -/
theorem Stores.column (hx : Stores b x q)
    (hz : Stores b (some z) p') (hy : Stores b y p) (heq : q = p' → p = p') :
    Stores b (UserPatch.column x (some z) y) p' := by
  unfold UserPatch.column
  split
  · rename_i hzx
    rw [← hzx] at hx
    rw [← heq (hx.unique hz)]
    exact hy
  · exact hz

/-- A change commits the password it has written, after a check that still holds. -/
theorem Explains.commit_change (hexp : Explains a runs g base p₀ p)
    (hrun : runs t = .change env message) (hout : t ∉ g.order) (hhash : (runs t).hash b = .ok z)
    (hx : Stores b x (some message.oldPassword)) (hy : Stores b y p) (hp : p = some message.oldPassword)
    (hrep : ∀ p', Stores b (UserPatch.column x (some z) y) p' → Represents a base' p')
    (hused : ∀ i, CodeUsed base' i ↔ CodeUsed base i ∨ (runs t).claim a = some i) :
    ∃ g' p', Explains a runs g' base' p₀ p' ∧ Grows b runs p₀ t g g' ∧
      (t, .ok (.ok ())) ∈ g'.entries := by
  subst hp
  rw [hrun] at hhash
  obtain ⟨hanswer, hset⟩ := PasswordRun.change_of_right hhash
  rw [← hrun] at hanswer hset
  have hstores : Stores b (UserPatch.column x (some z) y) (some message.newPassword) :=
    hx.column (.hashed hhash) hy id
  have hclaim : (runs t).claim a = none := by
    rw [hrun]
    rfl
  obtain ⟨g', hg'⟩ := hexp.concat hout hanswer (by rw [hset]; exact hrep _ hstores)
    (fun env otp newPassword hc => by rw [hrun] at hc; cases hc)
    (fun i hi => by rw [hclaim] at hi; cases hi) hused
  exact ⟨g', _, hg'⟩

/-- A reset commits the password it has written. If it has written nothing, because it had loaded
the same hash, it takes effect where that hash was stored. -/
theorem Explains.commit_reset (hexp : Explains a runs g base p₀ p)
    (hrun : runs t = .reset env otp newPassword) (hout : t ∉ g.order)
    (hhash : (runs t).hash b = .ok z) (hcode : PasswordRun.code a.user a.db env otp = .ok i)
    (hx : Stores b x q)
    (hvisits : Visits (fun t => (runs t).set b) q p₀ g.mid) (hy : Stores b y p)
    (hrep : ∀ p', Stores b (UserPatch.column x (some z) y) p' → Represents a base' p')
    (hfree : ∀ i, (runs t).claim a = some i → ¬CodeUsed base i)
    (hused : ∀ i, CodeUsed base' i ↔ CodeUsed base i ∨ (runs t).claim a = some i) :
    ∃ g' p', Explains a runs g' base' p₀ p' ∧ Grows b runs p₀ t g g' ∧
      (t, .ok (.ok ())) ∈ g'.entries := by
  have hset : ∀ v, (runs t).set b v = some newPassword := fun v => by rw [hrun]; rfl
  have hanswer : ∀ v, (runs t).answer b v = .ok (.ok ()) := fun v => by rw [hrun]; rfl
  have htakes : Takes a (runs t) := by
    intro env' otp' newPassword' hc
    rw [hrun] at hc
    cases hc
    exact ⟨⟨i, hcode⟩, z, hhash⟩
  have hz : Stores b (some z) (some newPassword) := by
    rw [hrun] at hhash
    exact .hashed hhash
  by_cases hsame : some z = x
  · rw [← hsame] at hx hrep
    obtain rfl := hx.unique hz
    obtain ⟨mid, hperm, hhistory, hkeeps⟩ := hexp.history.insert (t := t) hvisits (hset _)
    rw [hanswer] at hperm
    obtain ⟨g', hg'⟩ := hexp.take hout hperm hhistory hkeeps
      (hrep p (by rwa [show UserPatch.column (some z) (some z) y = y from if_pos rfl])) htakes
      hfree hused
    exact ⟨g', p, hg'⟩
  · have hstores : Stores b (UserPatch.column x (some z) y) (some newPassword) := by
      rwa [show UserPatch.column x (some z) y = some z from if_neg hsame]
    obtain ⟨g', hg'⟩ := hexp.concat hout (hanswer p) (by rw [hset]; exact hrep _ hstores) htakes
      hfree hused
    exact ⟨g', _, hg'⟩

end

end

/-! ## The steps, phase by phase -/

section

variable [DecidableEq τ] {s s' : Sys schema τ (ResultDetailed Unit)} {env : Env}
  {message : ChangePasswordCommand} {otp newPassword : String} {x q : Option String}

/-- A change reads the user. All but a change that is going to write is settled there. -/
theorem continues_change (hexp : Explains a runs g s.store.base p₀ p)
    (hrun : runs t = .change env message) (hold : Holding s.store t none) (hout : t ∉ g.order)
    (hpr : s.proc t = { prog := programs a runs t }) (hs : s.step (.exec t) = some s') :
    Continues a runs p₀ g t s.store s'.store (s'.proc t) := by
  obtain ⟨k, hprog, hk⟩ := program_change_step b env message a.user
  have hprog' : (s.proc t).prog = .step (.query (.users fun v => v.id == a.user.id)) k := by
    rw [hpr, ← hprog]
    unfold programs
    rw [hrun]
  obtain ⟨hstore, hproc⟩ := Sys.exec_query hprog' hs
  obtain ⟨x, hx, hstores⟩ := hexp.represents.stored
  have hrows : schema.answer (.users fun v => v.id == a.user.id) (s.store.view t).rows =
      [a.user.withPassword x] := by
    change (users (s.store.view t)).filter _ = _
    rw [users_congr hold.view_row, users_filter_id, hx]
    rfl
  rw [hrows, hk, hpr] at hproc
  rw [hproc, hstore]
  cases hstores with
  | absent =>
    exact continues_settled (hexp.quiet_change hout hrun PasswordRun.change_of_none.1
      PasswordRun.change_of_none.2) (ending_change_of_none a.user) hold fun _ hi => hi
  | @hashed q h salt hhash =>
    have hverify := PasswordService.verifyPassword_hashPassword b hhash message.oldPassword
    by_cases hold' : message.oldPassword = q
    · rw [decide_eq_true hold'] at hverify
      subst hold'
      cases hh : (PasswordRun.change env message).hash b with
      | error e =>
        exact continues_settled (hexp.quiet_change hout hrun (PasswordRun.change_of_error hh).1
          (PasswordRun.change_of_error hh).2) (ending_change_of_error a.user hverify hh) hold
          fun _ hi => hi
      | ok z =>
        obtain ⟨k', hk', hrest⟩ := writing_change a.user hverify hh
        rw [hk']
        refine hexp.continues rfl (.writing ⟨.hashed hhash, ?_⟩ (hrun ▸ hh) hrest ?_ hout)
        · rw [hrun]
        · rw [hrun]
          exact hold
    · rw [decide_eq_false hold'] at hverify
      exact continues_settled (hexp.quiet_change hout hrun (PasswordRun.change_of_wrong hold').1
        (PasswordRun.change_of_wrong hold').2) (ending_change_of_wrong a.user hverify) hold
        fun _ hi => hi

/-- A reset reads the user. -/
theorem continues_reset (hexp : Explains a runs g s.store.base p₀ p)
    (hrun : runs t = .reset env otp newPassword) (hold : Holding s.store t none)
    (hout : t ∉ g.order) (hpr : s.proc t = { prog := programs a runs t })
    (hs : s.step (.exec t) = some s') :
    Continues a runs p₀ g t s.store s'.store (s'.proc t) := by
  obtain ⟨k, hprog, hk⟩ := program_reset_step b env otp newPassword a.user
  have hprog' : (s.proc t).prog = .step (.query (.users fun v => v.email == a.user.email)) k := by
    rw [hpr, ← hprog]
    unfold programs
    rw [hrun]
  obtain ⟨hstore, hproc⟩ := Sys.exec_query hprog' hs
  obtain ⟨x, hx, hstores⟩ := hexp.represents.stored
  have hrows : schema.answer (.users fun v => v.email == a.user.email) (s.store.view t).rows =
      [a.user.withPassword x] := by
    change (users (s.store.view t)).filter _ = _
    rw [users_congr hold.view_row]
    exact hexp.represents.usersByEmail hx
  rw [hrows, hk, hpr] at hproc
  rw [hproc, hstore]
  exact hexp.continues rfl (.looking hrun hstores hexp.history.visits hold hout)

/-- A reset looks for its code. -/
theorem continues_looking (hexp : Explains a runs g s.store.base p₀ p)
    (hrun : runs t = .reset env otp newPassword) (hstores : Stores b x q)
    (hvisits : Visits (fun t => (runs t).set b) q p₀ g.mid) (hold : Holding s.store t none)
    (hout : t ∉ g.order)
    (hpr : s.proc t = { prog := resetUow (ForgotPasswordStep3CommandHandler.afterRead b env otp
      newPassword (some (.ofRow (a.user.withPassword x)))) })
    (hs : s.step (.exec t) = some s') : Continues a runs p₀ g t s.store s'.store (s'.proc t) := by
  obtain ⟨k, hprog, hk⟩ := afterRead_reset_step b env otp newPassword x a.user
  obtain ⟨hstore, hproc⟩ := Sys.exec_query ((congrArg Proc.prog hpr).trans hprog) hs
  have halike := hexp.represents.alike
  have hfound : newest env.tie (schema.answer
      (.otps (OtpOrmRepository.matchesCode otp a.user.id .forgotPassword .user))
      (s.store.view t).rows) = newestCode s.store.base env otp a.user.id .forgotPassword :=
    newestCode_congr hold.view_row env otp a.user.id .forgotPassword
  rw [hk, hfound, hpr] at hproc
  have hrefuse : ∀ d, PasswordRun.code a.user s.store.base env otp = .error d →
      ∃ g', Explains a runs g' s.store.base p₀ p ∧ Grows b runs p₀ t g g' ∧
        (t, .ok (.error d)) ∈ g'.entries := by
    intro d hd
    rw [halike.code] at hd
    exact hexp.refuse hout ⟨env, otp, newPassword, d, hrun, rfl, Or.inl hd⟩
  cases hnew : newestCode s.store.base env otp a.user.id .forgotPassword with
  | none =>
    rw [hproc, hstore, hnew]
    exact continues_settled (hrefuse _ (PasswordRun.code_of_none hnew)) (ending_reset_of_none _)
      hold fun _ hi => hi
  | some o =>
    rw [hnew] at hproc
    rw [hproc, hstore]
    by_cases hexpired : o.expiresAt < epoch (env.clock 0)
    · exact continues_settled (hrefuse _ (PasswordRun.code_of_expired hnew hexpired))
        (ending_reset_of_expired _ hexpired) hold fun _ hi => hi
    · -- the code is the one of the first content, up to its use
      have hmap := halike.map_newestCode env otp a.user.id .forgotPassword
      rw [hnew] at hmap
      obtain ⟨o', hnew', heq⟩ := Option.map_eq_some_iff.mp hmap.symm
      obtain ⟨hid, hexpires⟩ := eq_of_unspent heq
      obtain ⟨k', hk', hcont⟩ := claiming_reset (b := b) a otp newPassword x hexpired
      rw [Option.map_some, hk', ← hid]
      exact hexp.continues rfl (.claiming hrun hnew' (by rwa [hexpires]) hstores hvisits
        (hrun ▸ hcont) hold hout)

/-- A reset begins to claim its code. -/
theorem continues_claiming {o : OtpRow} {k : Except Exn ℕ → Tx (ResultDetailed Unit)}
    (hexp : Explains a runs g s.store.base p₀ p) (hrun : runs t = .reset env otp newPassword)
    (hnew : newestCode a.db env otp a.user.id .forgotPassword = some o)
    (hfresh : ¬o.expiresAt < epoch (env.clock 0)) (hstores : Stores b x q)
    (hvisits : Visits (fun t => (runs t).set b) q p₀ g.mid) (hcont : Claiming a (runs t) x k)
    (hold : Holding s.store t none) (hout : t ∉ g.order)
    (hpr : s.proc t = { prog := .step (.update (.consumeById o.id (epoch (env.clock 1)))) k })
    (hs : s.step (.exec t) = some s') : Continues a runs p₀ g t s.store s'.store (s'.proc t) := by
  obtain ⟨hstore, hproc⟩ := Sys.exec_begin (congrArg Proc.prog hpr) (congrArg Proc.cursor hpr) hs
  have hcode := PasswordRun.code_of_fresh hnew hfresh
  obtain ⟨o', hrow, heq⟩ := hexp.represents.alike.exists_otp (newestCode_eq_some hnew).1
  obtain ⟨hid, hexpires⟩ := eq_of_unspent heq
  have hmem : o' ∈ otps (s.store.view t) := by
    rw [mem_otps, hold.view_row, hid, hrow]
  have hmatching := matching_consumeById hmem (epoch (env.clock 1))
  rw [hid, hexpires] at hmatching
  rw [hmatching, hpr] at hproc
  rw [hproc, hstore]
  by_cases hlate : epoch (env.clock 1) ≤ o.expiresAt
  · rw [if_pos hlate] at hcode
    cases hused : o'.usedAt with
    | none =>
      rw [if_pos ⟨rfl, hlate⟩]
      exact hexp.continues rfl (.visiting hrun hcode hstores hvisits hcont hold hout)
    | some e =>
      rw [if_neg fun hc => nomatch hc.1]
      refine hexp.continues rfl (.refused ⟨env, otp, newPassword, _, hrun, rfl, Or.inr ⟨rfl, o.id,
        hcode, o', hrow, ?_⟩⟩ hcont.refused hold hout)
      rw [hused]
      exact nofun
  · rw [if_neg hlate] at hcode
    rw [if_neg fun hc => hlate hc.2]
    exact hexp.continues rfl (.refused ⟨env, otp, newPassword, _, hrun, rfl, Or.inl hcode⟩
      hcont.refused hold hout)

/-- A reset visits its code, once nobody else holds it. -/
theorem continues_visiting {i : Id} {k : Except Exn ℕ → Tx (ResultDetailed Unit)}
    (hexp : Explains a runs g s.store.base p₀ p) (hrun : runs t = .reset env otp newPassword)
    (hcode : PasswordRun.code a.user a.db env otp = .ok i) (hstores : Stores b x q)
    (hvisits : Visits (fun t => (runs t).set b) q p₀ g.mid) (hcont : Claiming a (runs t) x k)
    (hold : Holding s.store t none) (hout : t ∉ g.order)
    (hpr : s.proc t = { prog := .step (.update (.consumeById i (epoch (env.clock 1)))) k
                        cursor := some ([i], 0) })
    (hs : s.step (.exec t) = some s') : Continues a runs p₀ g t s.store s'.store (s'.proc t) := by
  obtain ⟨o, hnew, hid, -, hlate⟩ := hexp.represents.exists_code hcode
  have hrow : s.store.base.row i = some (.otp o) := hid ▸ mem_otps.mp (newestCode_eq_some hnew).1
  have hvisible : s.store.visible t i = some (.otp o) := (congrFun hold.view_row i).trans hrow
  have hguard : schema.guard (.consumeById i (epoch (env.clock 1))) (.otp o) =
      (o.usedAt == none) := by
    change (o.id == i && o.usedAt == none && decide (o.expiresAt ≥ epoch (env.clock 1))) = _
    rw [hid, beq_self_eq_true, Bool.true_and, decide_eq_true hlate, Bool.and_true]
  rcases Sys.exec_visit (congrArg Proc.prog hpr) (congrArg Proc.cursor hpr) hvisible hs with
    ⟨hg, hstore, hproc⟩ | ⟨hg, hstore, hproc⟩
  · rw [hguard, beq_iff_eq] at hg
    rw [hproc, hpr, hstore]
    exact hexp.continues rfl (.claimed hrun hcode hstores hvisits hcont (hold.claim hrow hg) hout)
  · rw [hguard] at hg
    rw [hproc, hpr, hstore]
    refine hexp.continues rfl (.refused ⟨env, otp, newPassword, _, hrun, rfl, Or.inr ⟨rfl, i, hcode,
      o, hrow, fun hused => ?_⟩⟩ hcont.refused hold hout)
    rw [hused] at hg
    cases hg

/-- A reset that has claimed its code goes on to hash its password. -/
theorem continues_claimed {u : Update} {i : Id} {k : Except Exn ℕ → Tx (ResultDetailed Unit)}
    (hexp : Explains a runs g s.store.base p₀ p) (hrun : runs t = .reset env otp newPassword)
    (hcode : PasswordRun.code a.user a.db env otp = .ok i) (hstores : Stores b x q)
    (hvisits : Visits (fun t => (runs t).set b) q p₀ g.mid) (hcont : Claiming a (runs t) x k)
    (hold : Holding s.store t (some i)) (hout : t ∉ g.order)
    (hpr : s.proc t = { prog := .step (.update u) k, cursor := some ([], 1) })
    (hs : s.step (.exec t) = some s') : Continues a runs p₀ g t s.store s'.store (s'.proc t) := by
  obtain ⟨hstore, hproc⟩ := Sys.exec_finish (congrArg Proc.prog hpr) (congrArg Proc.cursor hpr) hs
  have hclaim : (runs t).claim a = some i := hrun ▸ claim_reset hcode
  rw [← hclaim] at hold
  rw [hproc, hpr, hstore]
  cases hhash : (runs t).hash b with
  | ok z =>
    obtain ⟨k', hk', hrest⟩ := hcont.writing z hhash
    rw [hk']
    refine hexp.continues rfl (.writing ⟨hstores, ?_⟩ hhash hrest hold hout)
    rw [hrun]
    exact ⟨hvisits, i, hcode⟩
  | error e =>
    obtain ⟨k', hk', hrest⟩ := hcont.raising e hhash
    rw [hk']
    have hfree : ¬CodeUsed a.db i := fun hdb =>
      hold.not_codeUsed hclaim ((hexp.used i).mpr (Or.inl hdb))
    exact hexp.continues rfl (.raising ⟨env, otp, newPassword, i, e, hrun, hcode, hfree, hhash, rfl⟩
      hrest hold hout)

/-- A reset that could not claim its code is settled. -/
theorem continues_refused {u : Update} {k : Except Exn ℕ → Tx (ResultDetailed Unit)}
    (hexp : Explains a runs g s.store.base p₀ p)
    (hrefused : Refused a (CodeUsed s.store.base) (runs t) r) (hrest : Ending r (k (.ok 0)))
    (hold : Holding s.store t none) (hout : t ∉ g.order)
    (hpr : s.proc t = { prog := .step (.update u) k, cursor := some ([], 0) })
    (hs : s.step (.exec t) = some s') : Continues a runs p₀ g t s.store s'.store (s'.proc t) := by
  obtain ⟨hstore, hproc⟩ := Sys.exec_finish (congrArg Proc.prog hpr) (congrArg Proc.cursor hpr) hs
  rw [hproc, hpr, hstore]
  exact continues_settled (hexp.refuse hout hrefused) hrest hold fun _ hi => hi

/-- A reset that cannot hash its password gives its code back. -/
theorem continues_raising {k : Except Exn Unit → Tx (ResultDetailed Unit)}
    (hexp : Explains a runs g s.store.base p₀ p) (hraises : Raises a (runs t) r)
    (hrest : Ending r (k (.ok ()))) (hout : t ∉ g.order)
    (hpr : s.proc t = { prog := .step .rollback k }) (hs : s.step (.exec t) = some s') :
    Continues a runs p₀ g t s.store s'.store (s'.proc t) := by
  obtain ⟨hrow, hnone, hproc⟩ := Sys.exec_rollback (congrArg Proc.prog hpr) hs
  rw [hproc]
  exact continues_settled ((hexp.congr hrow).raise hout hraises) hrest (.of_none hnone)
    fun i hi => (codeUsed_congr hrow i).mpr hi

/-- A run puts the password into its session. -/
theorem continues_writing {z : String} {k : Except Exn Unit → Tx (ResultDetailed Unit)}
    (hexp : Explains a runs g s.store.base p₀ p) (hloaded : Loaded a runs p₀ g t x q)
    (hhash : (runs t).hash b = .ok z) (hrest : Committing (.ok (.ok ())) (k (.ok ())))
    (hold : Holding s.store t ((runs t).claim a)) (hout : t ∉ g.order)
    (hpr : s.proc t = { prog := .step (.assign (passwordPatch a.user x (some z))) k })
    (hs : s.step (.exec t) = some s') : Continues a runs p₀ g t s.store s'.store (s'.proc t) := by
  obtain ⟨hstore, hproc⟩ := Sys.exec_assign (congrArg Proc.prog hpr) hs
  rw [hproc, hpr, hstore]
  exact hexp.continues rfl (.committing hloaded hhash hrest hold hout)

/-- A settled run ends. -/
theorem continues_ending {prog : Tx (ResultDetailed Unit)}
    (hexp : Explains a runs g s.store.base p₀ p) (hmem : (t, r) ∈ g.entries)
    (hrest : Ending r prog) (hold : Holding s.store t none) (hpr : s.proc t = { prog := prog })
    (hs : s.step (.exec t) = some s') : Continues a runs p₀ g t s.store s'.store (s'.proc t) := by
  cases prog with
  | done r' =>
    rw [Sys.exec_done (congrArg Proc.prog hpr)] at hs
    cases hs
  | step c k =>
    cases c with
    | commit =>
      have hflush : (s.store.view t).flush (s.proc t).session = .ok (s.store.view t) := by
        rw [hpr]
        exact Db.flush_empty _
      obtain ⟨hrow, hnone, hproc⟩ := Sys.exec_commit (congrArg Proc.prog hpr) hflush hs
      rw [hproc]
      exact hexp.continues (hrow.trans hold.view_row) (.settled hmem hrest (.of_none hnone))
    | rollback =>
      obtain ⟨hrow, hnone, hproc⟩ := Sys.exec_rollback (congrArg Proc.prog hpr) hs
      rw [hproc]
      exact hexp.continues hrow (.settled hmem hrest (.of_none hnone))
    | _ => exact hrest.elim

/-! ### The check of a change -/

/-- The stored hash accepts the password `q`. -/
def accepts (b : Bcrypt) (c : Content) (id : Id) (q : String) : Bool :=
  ((user? c id).bind UserRow.password).any fun hash => PasswordService.verifyPassword b q hash

/-- The process `t` is about to commit a password. -/
def commitsPassword (s : Sys schema τ (ResultDetailed Unit)) (t : τ) : Bool :=
  match (s.proc t).prog with
  | .step .commit _ => !(s.proc t).session.patches.isEmpty
  | _ => false

/-- A change that is about to commit has checked the password that is stored now. -/
def ChecksStored (a : Account b) (runs : τ → PasswordRun)
    (s : Sys schema τ (ResultDetailed Unit)) (t : τ) : Prop :=
  ∀ q ∈ (runs t).checked, commitsPassword s t = true →
    accepts b s.store.base a.user.id q = true

theorem Represents.accepts_eq {c : Content} (hc : Represents a c p) (q : String) :
    accepts b c a.user.id q = decide (p = some q) := by
  obtain ⟨x, hx, hs⟩ := hc.stored
  unfold accepts
  rw [hx]
  cases hs with
  | absent => rfl
  | @hashed p h salt hash =>
    refine (PasswordService.verifyPassword_hashPassword b hash q).trans ?_
    rw [decide_eq_decide, Option.some.injEq, eq_comm]

/-- The flush of a run that has written a password and claimed the code `w`. -/
theorem Holding.flush_password {st : Store schema τ} {w : Option Id} (hold : Holding st t w)
    (hc : Represents a st.base p) (x z : Option String) :
    ∃ c' y, (st.view t).flush { patches := [passwordPatch a.user x z] } = .ok c' ∧ Stores b y p ∧
      (∀ p', Stores b (UserPatch.column x z y) p' → Represents a c' p') ∧
      ∀ i, CodeUsed c' i ↔ CodeUsed st.base i ∨ w = some i := by
  have hview := hold.represents_view hc
  obtain ⟨y, hy, hs⟩ := hview.stored
  obtain ⟨c', hw, hrow⟩ := hview.write hy x z
  exact ⟨c', y, (Db.flush_patch _ _).trans hw, hs, fun p' hs' => hview.of_write hrow hs',
    fun i => (hview.codeUsed_write hrow i).trans hold.codeUsed_view⟩

/-- A run announces the new password, or commits it. -/
theorem continues_committing {z : String} {prog : Tx (ResultDetailed Unit)}
    (hexp : Explains a runs g s.store.base p₀ p) (hloaded : Loaded a runs p₀ g t x q)
    (hhash : (runs t).hash b = .ok z) (hrest : Committing (.ok (.ok ())) prog)
    (hold : Holding s.store t ((runs t).claim a)) (hout : t ∉ g.order)
    (hpr : s.proc t =
      { prog := prog, session := { patches := [passwordPatch a.user x (some z)] } })
    (hcheck : ChecksStored a runs s t) (hs : s.step (.exec t) = some s') :
    Continues a runs p₀ g t s.store s'.store (s'.proc t) := by
  cases prog with
  | done r' => exact hrest.elim
  | step c k =>
    cases c with
    | emit n =>
      obtain ⟨hstore, hproc⟩ := Sys.exec_emit (congrArg Proc.prog hpr) hs
      rw [hproc, hpr, hstore]
      exact hexp.continues rfl (.committing hloaded hhash hrest hold hout)
    | commit =>
      obtain ⟨c', y, hflush, hy, hrep, hused⟩ :=
        hold.flush_password hexp.represents x (some z)
      obtain ⟨hrow, hnone, hproc⟩ := Sys.exec_commit (congrArg Proc.prog hpr)
        (by rw [hpr]; exact hflush) hs
      have hrep' : ∀ p', Stores b (UserPatch.column x (some z) y) p' →
          Represents a s'.store.base p' := fun p' hp' => (hrep p' hp').congr hrow
      have hused' : ∀ i, CodeUsed s'.store.base i ↔
          CodeUsed s.store.base i ∨ (runs t).claim a = some i :=
        fun i => (codeUsed_congr hrow i).trans (hused i)
      have hmono : ∀ i, CodeUsed s.store.base i → CodeUsed s'.store.base i :=
        fun i hi => (hused' i).mpr (Or.inl hi)
      rw [hproc]
      obtain ⟨hx, hq⟩ := hloaded
      cases hrun : runs t with
      | change env message =>
        rw [hrun] at hq
        subst hq
        have haccepts := hcheck message.oldPassword (by rw [hrun]; rfl)
          (by unfold commitsPassword; rw [hpr]; rfl)
        rw [hexp.represents.accepts_eq, decide_eq_true_iff] at haccepts
        obtain ⟨g', p', hg'⟩ := hexp.commit_change hrun hout hhash hx hy haccepts hrep' hused'
        exact continues_settled ⟨g', hg'⟩ hrest (.of_none hnone) hmono
      | reset env otp newPassword =>
        rw [hrun] at hq
        obtain ⟨hvisits, i, hcode⟩ := hq
        obtain ⟨g', p', hg'⟩ := hexp.commit_reset hrun hout hhash hcode hx hvisits hy hrep'
          (fun i hi => hold.not_codeUsed hi) hused'
        exact continues_settled ⟨g', hg'⟩ hrest (.of_none hnone) hmono
    | _ => exact hrest.elim

/-! ## Runs -/

/-- Some ledger explains what is committed, and says where the processes are. -/
def Explained (a : Account b) (runs : τ → PasswordRun) (p₀ : Option String)
    (s : Sys schema τ (ResultDetailed Unit)) : Prop :=
  ∃ g p, Explains a runs g s.store.base p₀ p ∧ ∀ t, Phase a runs p₀ g s.store t (s.proc t)

theorem Phase.continues {pr : Proc schema (ResultDetailed Unit)}
    (h : Phase a runs p₀ g s.store t pr) (hexp : Explains a runs g s.store.base p₀ p)
    (hpr : s.proc t = pr) (hcheck : ChecksStored a runs s t) (hs : s.step (.exec t) = some s') :
    Continues a runs p₀ g t s.store s'.store (s'.proc t) := by
  cases h with
  | start hold out =>
    cases hrun : runs t with
    | change env message => exact continues_change hexp hrun hold out hpr hs
    | reset env otp newPassword => exact continues_reset hexp hrun hold out hpr hs
  | looking run stores visits hold out =>
    exact continues_looking hexp run stores visits hold out hpr hs
  | claiming run code fresh stores visits cont hold out =>
    exact continues_claiming hexp run code fresh stores visits cont hold out hpr hs
  | visiting run code stores visits cont hold out =>
    exact continues_visiting hexp run code stores visits cont hold out hpr hs
  | claimed run code stores visits cont hold out =>
    exact continues_claimed hexp run code stores visits cont hold out hpr hs
  | refused refused rest hold out => exact continues_refused hexp refused rest hold out hpr hs
  | raising raises rest hold out => exact continues_raising hexp raises rest out hpr hs
  | writing loaded hash rest hold out =>
    exact continues_writing hexp loaded hash rest hold out hpr hs
  | committing loaded hash rest hold out =>
    exact continues_committing hexp loaded hash rest hold out hpr hcheck hs
  | settled mem rest hold => exact continues_ending hexp mem rest hold hpr hs

/-- **Step.** An executed statement keeps the runs explained, if the check of a change that commits
still holds. -/
theorem Explained.step (h : Explained a runs p₀ s) (hcheck : ChecksStored a runs s t)
    (hs : s.step (.exec t) = some s') : Explained a runs p₀ s' := by
  obtain ⟨g, p, hexp, hphase⟩ := h
  obtain ⟨⟨g', p', hexp', hgrows, hphase'⟩, hused⟩ :=
    (hphase t).continues hexp rfl hcheck hs
  have hstep : Sys.Step s t s' := Sys.step_cases hs
  refine ⟨g', p', hexp', fun w => ?_⟩
  by_cases hw : w = t
  · rw [hw]
    exact hphase'
  · rw [hstep.proc_of_ne hw]
    exact (hphase w).frame hw hgrows (hstep.pending_of_ne hw)
      (fun i r hr => hstep.base_of_pending hw hr) hused

omit [DecidableEq τ] in
theorem explained_start (h₀ : Represents a a.db p₀) :
    Explained a runs p₀ (.start a.db (programs a runs)) := by
  refine ⟨{}, p₀, ?_, fun t => .start (.of_none fun i r hr => nomatch hr) List.not_mem_nil⟩
  exact {
    nodup := List.nodup_nil
    represents := h₀
    history := rfl
    takes := nofun
    distinct := List.nodup_nil
    fresh := nofun
    used := fun i => (or_iff_left List.not_mem_nil).symm
    early := nofun
    late := nofun }

omit [DecidableEq τ] in
/-- A run that has ended is settled. -/
theorem Phase.settled_of_done {st : Store schema τ} {pr : Proc schema (ResultDetailed Unit)}
    (h : Phase a runs p₀ g st t pr) (hdone : pr.prog = .done r) : (t, r) ∈ g.entries := by
  cases h with
  | start hold out =>
    change (runs t).program b a.user = _ at hdone
    cases hrun : runs t with
    | change env message =>
      obtain ⟨k, hprog, -⟩ := program_change_step b env message a.user
      rw [hrun, hprog] at hdone
      cases hdone
    | reset env otp newPassword =>
      obtain ⟨k, hprog, -⟩ := program_reset_step b env otp newPassword a.user
      rw [hrun, hprog] at hdone
      cases hdone
  | @looking env otp newPassword x q run stores visits hold out =>
    obtain ⟨k, hprog, -⟩ := afterRead_reset_step b env otp newPassword x a.user
    rw [hprog] at hdone
    cases hdone
  | claiming | visiting | claimed | refused | raising | writing => cases hdone
  | committing loaded hash rest hold out =>
    subst hdone
    exact rest.elim
  | settled mem rest hold =>
    subst hdone
    exact (show r = _ from rest) ▸ mem

omit [DecidableEq τ] in
/-- **A complete run is a serial execution.** -/
theorem Explained.serialOrder (h : Explained a runs p₀ s) (h₀ : Represents a a.db p₀)
    (hdone : ∀ t, (s.result? t).isSome = true) :
    ∃ order, Sys.SerialOrder (fun c => accepts b c a.user.id) a.db (programs a runs) s order := by
  obtain ⟨g, p, hexp, hphase⟩ := h
  obtain ⟨hresults, hafter⟩ := hexp.serial h₀
  have hmem : ∀ t r, s.result? t = some r → (t, r) ∈ g.entries := by
    intro t r hr
    refine (hphase t).settled_of_done ?_
    unfold Sys.result? at hr
    split at hr
    · rename_i r' hprog
      cases hr
      exact hprog
    · cases hr
  refine ⟨g.order, hexp.nodup, fun t => ?_, fun e he => ?_, ?_⟩
  · obtain ⟨r, hr⟩ := Option.isSome_iff_exists.mp (hdone t)
    exact List.mem_map_of_mem (hmem t r hr)
  · rw [hresults] at he
    obtain ⟨r, hr⟩ := Option.isSome_iff_exists.mp (hdone e.1)
    have heq := List.inj_on_of_nodup_map hexp.nodup (hmem _ r hr) he rfl
    rw [hr, ← heq]
  · funext q
    rw [hafter.accepts_eq, hexp.represents.accepts_eq]

/-- Of two changes from one old password that both succeed, the first one or a run between them sets
that password again. -/
def SetsAgain (runs : τ → PasswordRun) (s : Sys schema τ (ResultDetailed Unit)) (order : List τ) :
    Prop :=
  ∀ l₁ t l₂ w l₃ q, order = l₁ ++ t :: (l₂ ++ w :: l₃) → (runs t).checked = some q →
    (runs w).checked = some q → s.result? t = some (.ok (.ok ())) →
    s.result? w = some (.ok (.ok ())) → ∃ v ∈ t :: l₂, (runs v).newPassword = q

omit [DecidableEq τ] in
theorem setsAgain_of_serialOrder {κ : Type} {observe : Content → κ} {order : List τ}
    (h : Sys.SerialOrder observe a.db (programs a runs) s order) : SetsAgain runs s order := by
  intro l₁ t l₂ w l₃ q horder ht hw hrt hrw
  obtain ⟨p₀, h₀⟩ := a.represents
  exact exists_sets_again h₀ h.results horder ht hw hrt hrw

/-- **Serializability.** If every change that commits has checked the password that is stored then,
a complete run gives the results and the stored password of a serial execution, in which two changes
from one old password do not both succeed unless it is set again. -/
theorem serializable_of_checksStored (a : Account b) (runs : τ → PasswordRun)
    (s : Sys schema τ (ResultDetailed Unit))
    (h : Reach Sys.step (fun s act => act.isExec = true ∧ ChecksStored a runs s act.proc)
      (.start a.db (programs a runs)) s)
    (hdone : ∀ t, (s.result? t).isSome = true) :
    ∃ order, Sys.SerialOrder (fun c => accepts b c a.user.id) a.db (programs a runs) s order ∧
      SetsAgain runs s order := by
  obtain ⟨p₀, h₀⟩ := a.represents
  have hexplained : Explained a runs p₀ s := by
    refine h.invariant (P := Explained a runs p₀) (explained_start h₀) ?_
    rintro s₁ act s₂ h₁ ⟨hexec, hcheck⟩ hs
    cases act with
    | exec t => exact h₁.step hcheck hs
    | fail t => cases hexec
  obtain ⟨order, horder⟩ := hexplained.serialOrder h₀ hdone
  exact ⟨order, horder, setsAgain_of_serialOrder horder⟩

instance (s : Sys schema τ (ResultDetailed Unit)) (t : τ) : Decidable (ChecksStored a runs s t) :=
  inferInstanceAs (Decidable (∀ q ∈ (runs t).checked, commitsPassword s t = true →
    accepts b s.store.base a.user.id q = true))

end

end

/-! ## Two changes at a time -/

/-- Ann's account. -/
def annsAccount : Account .plain where
  db := contentOf [.user ann]
  user := ann
  stored := rfl
  distinct := emailKey.distinct_empty.insert (r := .user ann) rfl
  hashed _ h := ⟨"secret", 0, congrArg Except.ok (Option.some.inj h)⟩

/-- Two changes of Ann's password. -/
def changes (message message' : ChangePasswordCommand) : Bool → PasswordRun
  | true => .change (.at 0) message
  | false => .change (.at 0) message'

/-- A complete run of two changes, whose second one reads what the first one has committed. -/
def oneByOne : Sys schema Bool (ResultDetailed Unit) :=
  (runActions Sys.step (fun s act => act.isExec = true ∧ ChecksStored annsAccount
    (changes ⟨"secret", "first"⟩ ⟨"first", "second"⟩) s act.proc)
    (.start annsAccount.db (programs annsAccount
      (changes ⟨"secret", "first"⟩ ⟨"first", "second"⟩)))
    ([true, true, true, false, false, true, false, false].map .exec)).get (by decide)

theorem serializable_oneByOne : ∃ order, Sys.SerialOrder
    (fun c => accepts .plain c annsAccount.user.id) annsAccount.db
    (programs annsAccount (changes ⟨"secret", "first"⟩ ⟨"first", "second"⟩)) oneByOne order ∧
      SetsAgain (changes ⟨"secret", "first"⟩ ⟨"first", "second"⟩) oneByOne order :=
  serializable_of_checksStored annsAccount _ _ (Reach.of_runActions (Option.some_get _).symm)
    fun t => by cases t <;> decide

/-- A complete run of two changes from one password, which both read it before either commits. -/
def bothChecked : Sys schema Bool (ResultDetailed Unit) :=
  (runActions Sys.step (fun _ act => act.isExec = true)
    (.start annsAccount.db (programs annsAccount
      (changes ⟨"secret", "first"⟩ ⟨"secret", "second"⟩)))
    ([true, false, true, false, true, false, true, false].map .exec)).get (by decide)

/-- **A lost update.** Both changes succeed, although no serial execution lets them. -/
theorem changes_both_succeed :
    Reach Sys.step (fun _ act => act.isExec = true)
        (.start annsAccount.db (programs annsAccount
          (changes ⟨"secret", "first"⟩ ⟨"secret", "second"⟩))) bothChecked ∧
      (∀ t, bothChecked.result? t = some (.ok (.ok ()))) ∧
      ¬Sys.Serializable (fun c => accepts .plain c annsAccount.user.id) annsAccount.db
        (programs annsAccount (changes ⟨"secret", "first"⟩ ⟨"secret", "second"⟩)) bothChecked := by
  have hsucceed : ∀ t, bothChecked.result? t = some (.ok (.ok ())) := fun t => by cases t <;> rfl
  refine ⟨Reach.of_runActions (Option.some_get _).symm, hsucceed, ?_⟩
  rintro ⟨order, horder⟩
  -- in a serial execution one of the two would have to set the old password again
  have hagain := setsAgain_of_serialOrder horder
  have hnever : ∀ v,
      (changes ⟨"secret", "first"⟩ ⟨"secret", "second"⟩ v).newPassword ≠ "secret" :=
    fun v => by cases v <;> decide
  obtain ⟨l, l', rfl⟩ := List.append_of_mem (horder.complete true)
  rcases List.mem_append.mp (horder.complete false) with hl | hl
  · obtain ⟨m, m', rfl⟩ := List.append_of_mem hl
    obtain ⟨v, -, hv⟩ := hagain m false m' true l' "secret" (List.append_assoc _ _ _) rfl rfl
      (hsucceed false) (hsucceed true)
    exact hnever v hv
  · obtain ⟨m, m', rfl⟩ := List.append_of_mem ((List.mem_cons.mp hl).resolve_left nofun)
    obtain ⟨v, -, hv⟩ := hagain l true m false m' "secret" rfl rfl rfl (hsucceed true)
      (hsucceed false)
    exact hnever v hv

end ApiTemplate.Identity
