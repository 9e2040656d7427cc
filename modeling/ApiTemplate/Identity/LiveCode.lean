import ApiTemplate.Identity.Runs
import ApiTemplate.TxStore.OneLive

/-!
# One live code at a time

`UserConfirmationService.issue` looks for a recent code, retires the unused ones and adds its own.
The caller owns the transaction, so the three statements of concurrent calls interleave, and calls
of one transaction see of each other only what was flushed. At most one code per owner and kind is
usable along the runs in which nobody begins to retire codes while another open transaction has
begun to, or while the own session holds one that is not flushed.
-/

namespace ApiTemplate.Identity

open TxStore

/-! ## Usable codes -/

/-- `used_at` is null and `expires_at >= now`. -/
def Usable (now : ℤ) (o : OtpRow) : Prop := o.usedAt = none ∧ now ≤ o.expiresAt

instance (now : ℤ) (o : OtpRow) : Decidable (Usable now o) := inferInstanceAs (Decidable (_ ∧ _))

/-- At no time two codes for the same `(content_id, content_type, kind)` are usable. -/
def AtMostOneUsable (db : Content) : Prop :=
  ∀ now, ∀ o ∈ otps db, ∀ o' ∈ otps db, Usable now o → Usable now o' →
    o.contentId = o'.contentId → o.contentType = o'.contentType → o.kind = o'.kind → o = o'

/-- A code that is not used is live under its owner and kind; `invalidate_pending` clears these. -/
def liveCodes : LiveRows schema (Id × ContentTypeEnum × OtpKindEnum) where
  key
    | .otp o => if o.usedAt = none then some (o.contentId, o.contentType, o.kind) else none
    | _ => none
  clears
    | .invalidatePending contentId contentType kind _ => some (contentId, contentType, kind)
    | _ => none
  guard_of_key u r k hu hk := by
    cases u with
    | invalidatePending contentId contentType kind nowEpoch =>
      cases r with
      | otp o =>
        cases hu
        dsimp only at hk
        split at hk
        · rename_i hused
          cases hk
          simp [Update.guard, hused]
        · cases hk
      | user u => cases hk
      | apiKey a => cases hk
      | blob b => cases hk
    | consumeById id nowEpoch => cases hu
    | toggleStatus id => cases hu
    | activate id => cases hu
  key_set_of_clears u r k hu hk := by
    cases u with
    | invalidatePending contentId contentType kind nowEpoch => cases r <;> cases hk
    | consumeById id nowEpoch => cases hu
    | toggleStatus id => cases hu
    | activate id => cases hu
  key_set u r k hk := by
    cases u with
    | invalidatePending contentId contentType kind nowEpoch => cases r <;> cases hk
    | consumeById id nowEpoch => cases r <;> cases hk
    | toggleStatus id => cases r <;> exact hk
    | activate id => cases r <;> exact hk
  key_patch p r k hk := by cases r <;> exact hk

theorem exists_of_key {r : Row} {k : Id × ContentTypeEnum × OtpKindEnum}
    (h : liveCodes.key r = some k) :
    ∃ o : OtpRow, r = .otp o ∧ o.usedAt = none ∧ (o.contentId, o.contentType, o.kind) = k := by
  cases r with
  | otp o =>
    have ho : (if o.usedAt = none then some (o.contentId, o.contentType, o.kind) else none) =
      some k := h
    split at ho
    · rename_i hused
      cases ho
      exact ⟨o, rfl, hused, rfl⟩
    · cases ho
  | user u => cases h
  | apiKey a => cases h
  | blob b => cases h

theorem mem_liveAt {db : Content} {o : OtpRow} (h : o ∈ otps db) (hused : o.usedAt = none) :
    o.id ∈ liveCodes.liveAt db.row (o.contentId, o.contentType, o.kind) :=
  ⟨_, mem_otps.mp h, if_pos hused⟩

/-- One live code per owner and kind is one usable code at any time. -/
theorem atMostOneUsable_iff {db : Content} :
    AtMostOneUsable db ↔ ∀ k, (liveCodes.liveAt db.row k).Subsingleton := by
  constructor
  · rintro h k i ⟨r, hr, hk⟩ j ⟨r', hr', hk'⟩
    obtain ⟨o, rfl, hused, rfl⟩ := exists_of_key hk
    obtain ⟨o', rfl, hused', hkey⟩ := exists_of_key hk'
    obtain rfl := id_of_row hr
    obtain rfl := id_of_row hr'
    obtain ⟨hid, hrest⟩ := Prod.mk.inj hkey
    obtain ⟨htype, hkind⟩ := Prod.mk.inj hrest
    -- both codes are usable before either expires
    have heq : o = o' := h (min o.expiresAt o'.expiresAt) o (mem_otps.mpr hr) o' (mem_otps.mpr hr')
      ⟨hused, min_le_left _ _⟩ ⟨hused', min_le_right _ _⟩ hid.symm htype.symm hkind.symm
    rw [heq]
  · intro h now o ho o' ho' hu hu' hid htype hkind
    have hlive := mem_liveAt ho hu.1
    have hlive' := mem_liveAt ho' hu'.1
    rw [← hid, ← htype, ← hkind] at hlive'
    have hrow := mem_otps.mp ho
    rw [h _ hlive hlive', mem_otps.mp ho'] at hrow
    cases hrow
    rfl

/-! ## Callers of `issue` -/

/-- A caller that owns its transaction: calls of `issue`, grouped by `flush`, `commit` and
`rollback` in any way; what comes next may depend on the answers. -/
inductive Caller
  | finish
  | issue (env : Env) (n : ℕ) (contentId : Id) (kind : OtpKindEnum) (targetValue : String)
      (next : ResultDetailed String → Caller)
  | flush (next : Caller)
  | commit (next : Caller)
  | rollback (next : Caller)

namespace Caller

/-- The statements of a caller, inside its unit of work. -/
def body : Caller → Tx Unit
  | finish => pure ()
  | issue env n contentId kind targetValue next => do
    let code ← UserConfirmationService.issue env n contentId kind targetValue
    (next code).body
  | flush next => do
    Identity.flush
    next.body
  | commit next => do
    Identity.commit
    next.body
  | rollback next => do
    Identity.rollback
    next.body

/-- The statements of a caller. -/
def program (c : Caller) : Tx Unit := withUow c.body

end Caller

/-- `issue` retires the codes of an owner and kind right before it adds one. -/
theorem disciplined_issue (cleared : Option (Id × ContentTypeEnum × OtpKindEnum)) (env : Env)
    (n : ℕ) (contentId : Id) (kind : OtpKindEnum) (targetValue : String) :
    liveCodes.Disciplined cleared
      (UserConfirmationService.issue env n contentId kind targetValue) := by
  refine ⟨trivial, fun r => ?_⟩
  cases r with
  | error e => trivial
  | ok rows =>
    change liveCodes.Disciplined none (if !rows.isEmpty then _ else _)
    split
    · trivial
    · refine ⟨trivial, fun r => ?_⟩
      cases r with
      | error e => trivial
      | ok rowcount =>
        refine ⟨fun i k hk => ?_, fun r => by cases r <;> trivial⟩
        obtain ⟨o, ho, -, rfl⟩ := exists_of_key hk
        cases ho
        rfl

theorem disciplined_body (cleared : Option (Id × ContentTypeEnum × OtpKindEnum)) (c : Caller) :
    liveCodes.Disciplined cleared c.body := by
  induction c generalizing cleared with
  | finish => trivial
  | issue env n contentId kind targetValue next ih =>
    exact (disciplined_issue cleared env n contentId kind targetValue).bind
      fun cleared code => ih code cleared
  | flush next ih => exact ⟨trivial, fun r => by cases r <;> first | exact ih _ | trivial⟩
  | commit next ih => exact ⟨trivial, fun r => by cases r <;> first | exact ih _ | trivial⟩
  | rollback next ih => exact ⟨trivial, fun r => by cases r <;> first | exact ih _ | trivial⟩

/-! ## Orderly runs -/

/-- **One live code.** From a content with at most one usable code per owner and kind, every orderly
run of any callers stays among such contents. -/
theorem atMostOneUsable_of_orderly {τ : Type} [DecidableEq τ] {db : Content} (callers : τ → Caller)
    {s : Sys schema τ Unit} (hdb : AtMostOneUsable db)
    (h : Reach Sys.step liveCodes.Orderly (.start db fun t => (callers t).program) s) :
    AtMostOneUsable s.store.base :=
  atMostOneUsable_iff.mpr fun k => LiveRows.subsingleton_of_reach (atMostOneUsable_iff.mp hdb)
    (fun t => (disciplined_body none (callers t)).withUow) h k

theorem atMostOneUsable_empty : AtMostOneUsable Db.empty := by
  intro now o ho
  cases ho

/-- A transaction that asks for one confirmation code for Ann. -/
def askOnce (now : Micros) (code : String) : Caller :=
  .issue (.at now 0 code) 0 0 .emailConfirmation "ann@example.com" fun _ => .finish

/-- Two requests, the second `gap` after the first. -/
def requests (gap : Micros) : Sys schema Bool Unit :=
  .start Db.empty fun t => (if t then askOnce 0 "000000" else askOnce gap "111111").program

/-- The second of two requests two minutes apart, each run to its end, retires the first code. -/
def resent : Sys schema Bool Unit :=
  (runActions Sys.step liveCodes.Orderly (requests 120000000)
    ((List.replicate 5 true ++ List.replicate 6 false).map .exec)).get (by decide)

theorem atMostOneUsable_resent :
    (otps resent.store.base).length = 2 ∧ AtMostOneUsable resent.store.base :=
  ⟨by decide, atMostOneUsable_of_orderly
    (fun t => if t then askOnce 0 "000000" else askOnce 120000000 "111111") atMostOneUsable_empty
    (Reach.of_runActions (Option.some_get _).symm)⟩

/-! ## Two live codes -/

/-- Two requests one second apart: the second looks for a recent code, and for codes to retire,
before the first commits. -/
def overlapped : Sys schema Bool Unit :=
  (runActions Sys.step (fun _ _ => True) (requests 1000000)
    ((List.replicate 4 true ++ List.replicate 4 false ++ [true, false]).map .exec)).get (by decide)

/-- A caller that issues two codes for Ann in one transaction. -/
def askTwice : Sys schema Unit Unit :=
  .start Db.empty fun _ => (Caller.issue (.at 0 0 "000000") 0 0 .emailConfirmation
    "ann@example.com" fun _ => askOnce 1000000 "111111").program

/-- Without a flush in between, the second call sees nothing of the first. -/
def batched : Sys schema Unit Unit :=
  (runActions Sys.step (fun _ _ => True) askTwice (List.replicate 9 (.exec ()))).get (by decide)

/-- Two rows for one owner and kind that are both usable. -/
theorem not_atMostOneUsable {db : Content} {o o' : OtpRow} (ho : o ∈ otps db) (ho' : o' ∈ otps db)
    (now : ℤ) (hu : Usable now o) (hu' : Usable now o') (hid : o.contentId = o'.contentId)
    (htype : o.contentType = o'.contentType) (hkind : o.kind = o'.kind) (hne : o.id ≠ o'.id) :
    ¬AtMostOneUsable db :=
  fun h => hne (congrArg OtpRow.id (h now o ho o' ho' hu hu' hid htype hkind))

/-- Both the overlap and the batch leave Ann with two usable codes. -/
theorem not_atMostOneUsable_overlapped_batched :
    (Reachable Sys.step (requests 1000000) overlapped ∧ ¬AtMostOneUsable overlapped.store.base) ∧
      Reachable Sys.step askTwice batched ∧ ¬AtMostOneUsable batched.store.base := by
  refine ⟨⟨Reach.of_runActions (Option.some_get _).symm, ?_⟩,
    Reach.of_runActions (Option.some_get _).symm, ?_⟩
  · exact not_atMostOneUsable (List.getElem_mem (n := 0) (by decide))
      (List.getElem_mem (n := 1) (by decide)) 0 (by decide) (by decide) rfl rfl rfl (by decide)
  · exact not_atMostOneUsable (List.getElem_mem (n := 0) (by decide))
      (List.getElem_mem (n := 1) (by decide)) 0 (by decide) (by decide) rfl rfl rfl (by decide)

end ApiTemplate.Identity
