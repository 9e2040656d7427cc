import ApiTemplate.Identity.HandlerRuns
import ApiTemplate.Identity.UserNames

/-!
# Edits of the own profile

`PATCH /users/me`: the body is read as a `UserUpdateMeCommand`, its handler builds
`UserUpdateParams` of it, and `UserAggregate.update` writes every field of these. What the body
omits has become none by then.
-/

namespace ApiTemplate.Identity

open TxStore

/-! ## The body -/

/-- A member of a JSON object. -/
inductive Sent (α : Type)
  | omitted
  | null
  | value (a : α)

/-- The body of `PATCH /users/me`, with the members of the types that the command reads. -/
structure UpdateMeBody where
  firstName : Sent String
  lastName : Sent String
  phone : Sent String := .omitted
  address : Sent String := .omitted
  description : Sent String := .omitted
  information : Sent String := .omitted
  avatarId : Sent Id := .omitted

/-- A field that has no default and is no `Optional`. -/
def Sent.required (type : String → Option String) : Sent String → Option String
  | .value raw => type raw
  | _ => none

/-- A field `Optional[...] = None`. -/
def Sent.optional {α : Type} (type : α → Option α) : Sent α → Option (Option α)
  | .omitted => some none
  | .null => some none
  | .value raw => (type raw).map some

section

variable (U : Unicode)

/-- The validation of a `UserUpdateMeCommand`. -/
def UserUpdateMeCommand.validate (body : UpdateMeBody) : Option UserUpdateMeCommand := do
  let firstName ← body.firstName.required (atUserName U)
  let lastName ← body.lastName.required (atUserName U)
  let phone ← body.phone.optional (atPhone U)
  let address ← body.address.optional atAddress
  let description ← body.description.optional some
  let information ← body.information.optional some
  let avatarId ← body.avatarId.optional some
  return { firstName, lastName, phone, address, description, information, avatarId }

/-- The validation of `UserUpdateParams`, from the fields of the command. -/
def UserUpdateParams.validate (message : UserUpdateMeCommand) : Option UserUpdateParams := do
  let firstName ← atUserName U message.firstName
  let lastName ← atUserName U message.lastName
  let phone ← optional (atPhone U) message.phone
  let address ← optional atAddress message.address
  let description ← optional atDescription message.description
  let information ← optional atInformation message.information
  return { firstName, lastName, phone, address, description, information,
           avatarId := message.avatarId }

/-- The constructor of `UserUpdateParams`. -/
def updateParams (message : UserUpdateMeCommand) : Except Exn UserUpdateParams :=
  match UserUpdateParams.validate U message with
  | some param => .ok param
  | none => .error .validationError

end

/-! ## What a patch should leave -/

/-- The value of a field: the one sent, or the one from before where none was sent. -/
def Sent.orKept {α β : Type} (field : Sent α) (sent kept : β) : β :=
  match field with
  | .omitted => kept
  | _ => sent

/-- The user with the values of the fields that the body contains, as the command has read them. -/
def UpdateMeBody.patched (body : UpdateMeBody) (message : UserUpdateMeCommand) (u : UserRow) :
    UserRow :=
  { u with
    firstName := message.firstName
    lastName := message.lastName
    phone := body.phone.orKept message.phone u.phone
    address := body.address.orKept message.address u.address
    description := body.description.orKept message.description u.description
    information := body.information.orKept message.information u.information
    avatarId := body.avatarId.orKept message.avatarId u.avatarId }

/-- The field was sent, or there is nothing to keep. -/
def Sent.OmitsNothing {α β : Type} (field : Sent α) (stored : Option β) : Prop :=
  match field with
  | .omitted => stored = none
  | _ => True

/-- No field with a value is omitted. -/
structure UpdateMeBody.OmitsNothing (body : UpdateMeBody) (u : UserRow) : Prop where
  phone : body.phone.OmitsNothing u.phone
  address : body.address.OmitsNothing u.address
  description : body.description.OmitsNothing u.description
  information : body.information.OmitsNothing u.information
  avatarId : body.avatarId.OmitsNothing u.avatarId

/-! ## The handler -/

section

variable {param : UserUpdateMeCommand → Except Exn UserUpdateParams} {db : Content} {userId : Id}
  {message : UserUpdateMeCommand}

/-- A handler that answers Ok has written the fields of the parameters to the user. -/
theorem userUpdateMe_ok
    (hok : db.result (UserUpdateMeCommandHandler.call param userId message) = .ok (.ok ())) :
    ∃ p u, param message = .ok p ∧ user? db userId = some u ∧
      user? (db.after (UserUpdateMeCommandHandler.call param userId message)) userId =
        some ((UserAggregate.ofRow u).update p).source := by
  cases hparam : param message with
  | error e =>
    unfold UserUpdateMeCommandHandler.call at hok
    rw [hparam] at hok
    cases hok
  | ok p =>
    have hparam' (f : UserUpdateParams → Tx (ResultDetailed Unit)) :
        (Program.ofExcept (.ok p) >>= f) = f p := rfl
    unfold UserUpdateMeCommandHandler.call at hok ⊢
    rw [hparam, hparam'] at hok ⊢
    have hget := run_getAggregateForUpdate (World.ofDb db) userId
    rw [show (World.ofDb db).view = db from rfl] at hget
    unfold Db.result Db.after at *
    rw [World.run_withUow, World.run, Program.run_bind_ok hget] at hok ⊢
    cases hu : user? db userId with
    | none =>
      rw [hu] at hok
      cases hok
    | some u =>
      rw [hu] at hok
      refine ⟨p, u, rfl, rfl, ?_⟩
      dsimp only [Option.map_some] at hok ⊢
      have hrun : Program.run World.exec (do
          UserOrmRepository.save (UserAggregate.ofRow u).source ((UserAggregate.ofRow u).update p)
          pure (.ok ())) (World.ofDb db) =
            ((.ok (.ok ()) : Except Exn (ResultDetailed Unit)), { World.ofDb db with
              session := { patches := [⟨u, ((UserAggregate.ofRow u).update p).source⟩] } }) := rfl
      rw [hrun] at hok ⊢
      dsimp only at hok ⊢
      rw [Db.flush_patch, show (World.ofDb db []).view = db from rfl] at hok ⊢
      cases hw : db.write ⟨u, ((UserAggregate.ofRow u).update p).source⟩ with
      | error e =>
        rw [hw] at hok
        cases hok
      | ok db' =>
        rw [user?_eq_some]
        have hwritten := write_row (c := ((UserAggregate.ofRow u).update p).source) hu rfl hw
          (i := userId)
        exact hwritten.trans (if_pos rfl)

end

/-! ## The two validations -/

section

variable {U : Unicode}

theorem text_of_plain {n : ℕ} {raw text : String}
    (h : StringConstraints.apply { maxLength := n } raw = some text) : text = raw := by
  unfold StringConstraints.apply StringConstraints.stripped StringConstraints.lowered at h
  simp only [Bool.false_eq_true, if_false, String.ofList_toList] at h
  split_ifs at h
  exact (Option.some.inj h).symm

theorem optional_self {type : String → Option String}
    (htype : ∀ raw text, type raw = some text → text = raw) {raw value : Option String}
    (h : optional type raw = some value) : value = raw := by
  cases raw with
  | none => exact (Option.some.inj h).symm
  | some raw =>
    obtain ⟨text, htext, rfl⟩ := Option.map_eq_some_iff.mp h
    exact congrArg some (htype raw text htext)

theorem optional_of_sent {type : String → Option String}
    (htype : ∀ raw text, type raw = some text → type text = some text)
    {field : Sent String} {value : Option String} (h : field.optional type = some value) :
    optional type value = some value := by
  cases field with
  | omitted | null =>
    obtain rfl := Option.some.inj h
    rfl
  | value raw =>
    obtain ⟨text, htext, rfl⟩ := Option.map_eq_some_iff.mp h
    rw [optional, htype raw text htext]
    rfl

/-- A field that is omitted is none in the command. -/
theorem orKept_eq_iff {α : Type} {type : α → Option α} {field : Sent α}
    {sent stored : Option α} (h : field.optional type = some sent) :
    sent = field.orKept sent stored ↔ field.OmitsNothing stored := by
  cases field with
  | omitted =>
    obtain rfl := Option.some.inj h
    exact eq_comm
  | null | value raw => exact iff_of_true rfl trivial

/-- The command of a body: its names have been validated, its other fields are what the types make
of what was sent. -/
structure ReadAs (U : Unicode) (body : UpdateMeBody) (message : UserUpdateMeCommand) : Prop where
  firstName : ∃ raw, atUserName U raw = some message.firstName
  lastName : ∃ raw, atUserName U raw = some message.lastName
  phone : body.phone.optional (atPhone U) = some message.phone
  address : body.address.optional atAddress = some message.address
  description : body.description.optional some = some message.description
  information : body.information.optional some = some message.information
  avatarId : body.avatarId.optional some = some message.avatarId

theorem atUserName_of_required {field : Sent String} {name : String}
    (h : field.required (atUserName U) = some name) : ∃ raw, atUserName U raw = some name := by
  cases field with
  | omitted | null => cases h
  | value raw => exact ⟨raw, h⟩

theorem readAs_of_validate {body : UpdateMeBody} {message : UserUpdateMeCommand}
    (h : UserUpdateMeCommand.validate U body = some message) : ReadAs U body message := by
  simp only [UserUpdateMeCommand.validate, Option.bind_eq_bind, Option.bind_eq_some_iff,
    Option.pure_def, Option.some.injEq] at h
  obtain ⟨firstName, hfirst, lastName, hlast, phone, hphone, address, haddress, description,
    hdescription, information, hinformation, avatarId, havatarId, rfl⟩ := h
  exact ⟨atUserName_of_required hfirst, atUserName_of_required hlast, hphone, haddress,
    hdescription, hinformation, havatarId⟩

/-- A name that is validated again is normalised again. -/
theorem atUserName_again {raw name again : String} (hname : atUserName U raw = some name)
    (hagain : atUserName U name = some again) : again = normalizeString U name := by
  have hmatch := (atUserName_eq_some.mp hname).2.2
  obtain ⟨htrim, -⟩ := trim_of_matchesUserName hmatch
  have hagain' := (atUserName_eq_some.mp hagain).2.1
  rwa [htrim, String.ofList_toList] at hagain'

/-- The parameters have the fields of the command, with the names normalised again. -/
theorem params_of_validate {body : UpdateMeBody} {message : UserUpdateMeCommand}
    {p : UserUpdateParams} (hread : ReadAs U body message)
    (h : UserUpdateParams.validate U message = some p) :
    p = { firstName := normalizeString U message.firstName
          lastName := normalizeString U message.lastName
          phone := message.phone
          address := message.address
          description := message.description
          information := message.information
          avatarId := message.avatarId } := by
  simp only [UserUpdateParams.validate, Option.bind_eq_bind, Option.bind_eq_some_iff,
    Option.pure_def, Option.some.injEq] at h
  obtain ⟨firstName, hfirst, lastName, hlast, phone, hphone, address, haddress, description,
    hdescription, information, hinformation, rfl⟩ := h
  obtain ⟨raw, hraw⟩ := hread.firstName
  obtain ⟨raw', hraw'⟩ := hread.lastName
  obtain rfl := atUserName_again hraw hfirst
  obtain rfl := atUserName_again hraw' hlast
  rw [optional_of_sent (fun _ _ => atPhone_idem) hread.phone] at hphone
  rw [optional_of_sent (fun _ _ => atAddress_idem) hread.address] at haddress
  obtain rfl := Option.some.inj hphone
  obtain rfl := Option.some.inj haddress
  obtain rfl := optional_self (fun _ _ => text_of_plain) hdescription
  obtain rfl := optional_self (fun _ _ => text_of_plain) hinformation
  rfl

end

/-! ## What a patch leaves -/

/-- **A patch leaves the fields that the body omits, and gives the others the values sent, exactly
when no field with a value is omitted and the names are in normal form.** -/
theorem patched_iff (U : Unicode) (db : Content) (userId : Id) (u : UserRow) (body : UpdateMeBody)
    (message : UserUpdateMeCommand) (hu : user? db userId = some u)
    (hread : UserUpdateMeCommand.validate U body = some message)
    (hok : db.result (UserUpdateMeCommandHandler.call (updateParams U) userId message) =
      .ok (.ok ())) :
    user? (db.after (UserUpdateMeCommandHandler.call (updateParams U) userId message)) userId =
        some (body.patched message u) ↔
      body.OmitsNothing u ∧ normalizeString U message.firstName = message.firstName ∧
        normalizeString U message.lastName = message.lastName := by
  obtain ⟨p, u', hparam, hu', hafter⟩ := userUpdateMe_ok hok
  obtain rfl := Option.some.inj (hu.symm.trans hu')
  have hvalidate : UserUpdateParams.validate U message = some p := by
    unfold updateParams at hparam
    cases hp : UserUpdateParams.validate U message with
    | none =>
      rw [hp] at hparam
      cases hparam
    | some p' =>
      rw [hp] at hparam
      exact congrArg some (Except.ok.inj hparam)
  have hread := readAs_of_validate hread
  rw [hafter, Option.some.injEq, params_of_validate hread hvalidate]
  unfold UserAggregate.update UpdateMeBody.patched
  simp only [UserAggregate.ofRow_source, UserRow.mk.injEq, true_and, and_true,
    orKept_eq_iff hread.phone, orKept_eq_iff hread.address, orKept_eq_iff hread.description,
    orKept_eq_iff hread.information, orKept_eq_iff hread.avatarId]
  constructor
  · rintro ⟨hphone, hfirst, hlast, haddress, hdescription, hinformation, havatarId⟩
    exact ⟨⟨hphone, haddress, hdescription, hinformation, havatarId⟩, hfirst, hlast⟩
  · rintro ⟨hkept, hfirst, hlast⟩
    exact ⟨hkept.phone, hfirst, hlast, hkept.address, hkept.description, hkept.information,
      hkept.avatarId⟩

/-! ## Ann changes her name -/

/-- A body with both names and nothing else. -/
def namesBody : UpdateMeBody where
  firstName := .value "Anna"
  lastName := .value "Lee"

/-- Ann, with a phone. -/
def annWithPhone : UserRow := { ann with phone := some "+998901234567" }

def namesCommand : UserUpdateMeCommand where
  firstName := "Anna"
  lastName := "Lee"

/-- A body with the names, a new phone and an address. -/
def phoneBody : UpdateMeBody :=
  { namesBody with phone := .value " +998907654321", address := .value " 1 Main Street " }

def phoneCommand : UserUpdateMeCommand :=
  { namesCommand with phone := some "+998907654321", address := some "1 Main Street" }

theorem patched_ann :
    user? ((contentOf [.user annWithPhone]).after
      (UserUpdateMeCommandHandler.call (updateParams ligatures) 0 phoneCommand)) 0 =
        some (phoneBody.patched phoneCommand annWithPhone) :=
  (patched_iff ligatures (contentOf [.user annWithPhone]) 0 annWithPhone phoneBody phoneCommand
    rfl rfl rfl).mpr ⟨⟨trivial, trivial, rfl, rfl, rfl⟩, by decide, by decide⟩

/-- The phone that the body omits is gone. -/
theorem not_patched_annWithPhone :
    user? (contentOf [.user annWithPhone]) 0 = some annWithPhone ∧
      UserUpdateMeCommand.validate ligatures namesBody = some namesCommand ∧
      (contentOf [.user annWithPhone]).result
        (UserUpdateMeCommandHandler.call (updateParams ligatures) 0 namesCommand) = .ok (.ok ()) ∧
      user? ((contentOf [.user annWithPhone]).after
        (UserUpdateMeCommandHandler.call (updateParams ligatures) 0 namesCommand)) 0 ≠
          some (namesBody.patched namesCommand annWithPhone) :=
  ⟨rfl, rfl, rfl, by decide⟩

end ApiTemplate.Identity
