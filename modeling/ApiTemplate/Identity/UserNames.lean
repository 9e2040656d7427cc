import ApiTemplate.Identity.Handlers
import ApiTemplate.Identity.NameClusters
import Mathlib.Algebra.GroupWithZero.Nat

/-!
# Names of users

`ATUserName` bounds the length of a name before it normalises it, and a name passes the type twice
on its way to the table. The name that the type returns fits the column and passes the second time
unchanged if and only if NFKC expands the clusters of the raw name to at most 50 characters and
combines no two of them.
-/

namespace ApiTemplate.Identity

/-! ## Validated messages -/

/-- An optional field. -/
def optional (type : String → Option String) : Option String → Option (Option String)
  | none => some none
  | some raw => (type raw).map some

variable (U : Unicode)

/-- The validation of a `RegisterCommand`. -/
def RegisterCommand.validate (raw : RegisterCommand) : Option RegisterCommand := do
  let email ← atUserEmail raw.email
  let password ← atPassword raw.password
  let firstName ← atUserName U raw.firstName
  let lastName ← atUserName U raw.lastName
  let phone ← optional (atPhone U) raw.phone
  let address ← optional atAddress raw.address
  return { email, password, firstName, lastName, phone, address }

/-- The validation of `UserCreateParams`. -/
def UserCreateParams.validate (raw : UserCreateParams) : Option UserCreateParams := do
  let email ← atUserEmail raw.email
  let firstName ← atUserName U raw.firstName
  let lastName ← atUserName U raw.lastName
  let phone ← optional (atPhone U) raw.phone
  let address ← optional atAddress raw.address
  let description ← optional atDescription raw.description
  let information ← optional atInformation raw.information
  return { email, firstName, lastName, phone, address, description, information,
           avatarId := raw.avatarId }

/-! ## Names that are kept -/

/-- The name fits its column and its pattern. -/
def NameFits (name : String) : Prop :=
  userNameMinLength ≤ name.length ∧ name.length ≤ userNameMaxLength ∧
    matchesUserName U name.toList = true

/-- NFKC expands the clusters of the raw name to at most 50 characters, and combines no two of
them. -/
def NameStable {U : Unicode} (N : U.Nfkc) (raw : String) : Prop :=
  ((N.clusters (core raw.toList)).map fun k => (U.norm k).length).sum ≤ userNameMaxLength ∧
    U.Apart (N.clusters (core raw.toList))

instance (name : String) : Decidable (NameFits U name) := inferInstanceAs (Decidable (_ ∧ _))

instance {U : Unicode} (N : U.Nfkc) (raw : String) : Decidable (NameStable N raw) :=
  inferInstanceAs (Decidable (_ ∧ _))

/-- The parameters of the new user can be built, with the names of the command, which fit their
columns. -/
def Builds (cmd : RegisterCommand) : Prop :=
  ∃ param, UserCreateParams.validate U cmd.params = some param ∧
    param.firstName = cmd.firstName ∧ param.lastName = cmd.lastName ∧
    param.firstName.length ≤ userNameMaxLength ∧ param.lastName.length ≤ userNameMaxLength

variable {U}

theorem atUserName_eq_some {raw name : String} : atUserName U raw = some name ↔
    nameConstraints.fits (trim raw.toList) = true ∧
      name = normalizeString U (String.ofList (trim raw.toList)) ∧
      matchesUserName U name.toList = true := by
  unfold atUserName StringConstraints.apply
  have hstripped : nameConstraints.stripped raw.toList = trim raw.toList := rfl
  have hlowered : ∀ s, nameConstraints.lowered s = s := fun _ => rfl
  simp only [hstripped, hlowered]
  split
  · rename_i hfits
    simp only [Option.bind_some, validateName, hfits, true_and]
    split
    · rename_i hmatch
      rw [Option.some.injEq]
      constructor
      · rintro rfl
        exact ⟨rfl, hmatch⟩
      · rintro ⟨rfl, -⟩
        rfl
    · rename_i hmatch
      refine iff_of_false nofun ?_
      rintro ⟨rfl, h⟩
      exact hmatch h
  · rename_i hfits
    simp [hfits]

/-! ## Letters at both ends -/

theorem isLetter_getLast_of_matchesNameRest (c : Char) (cs : List Char)
    (hc : U.isLetter c = true) (h : matchesNameRest U cs = true) :
    U.isLetter ((c :: cs).getLast (List.cons_ne_nil c cs)) = true := by
  induction cs using matchesNameRest.induct U generalizing c with
  | case1 => exact hc
  | case2 d => simpa [matchesNameRest] using h
  | case3 d e cs hd ih =>
    rw [matchesNameRest, if_pos hd] at h
    exact ih d hd h
  | case4 d e cs hd ih =>
    rw [matchesNameRest, if_neg hd, Bool.and_eq_true, Bool.and_eq_true] at h
    exact ih e h.1.2 h.2

theorem not_space_of_isLetter {c : Char} (hc : U.isLetter c = true) : isWhiteSpace c = false :=
  isWhiteSpace_of_not_isSpace (U.letter_not_space c hc)

theorem trim_of_matchesUserName {s : List Char} (h : matchesUserName U s = true) :
    trim s = s ∧ s ≠ [] := by
  cases s with
  | nil => cases h
  | cons c cs =>
    rw [matchesUserName, Bool.and_eq_true] at h
    have hlast := not_space_of_isLetter (isLetter_getLast_of_matchesNameRest c cs h.1 h.2)
    refine ⟨?_, List.cons_ne_nil c cs⟩
    rw [trim, List.dropWhile_cons_of_neg (by rw [not_space_of_isLetter h.1]; decide),
      List.rdropWhile_eq_self_iff]
    exact fun _ => by rw [hlast]; decide

/-- A name passes the type again, unchanged, if and only if it is short enough and normal. -/
theorem atUserName_self_iff {name : String} (h : matchesUserName U name.toList = true) :
    atUserName U name = some name ↔
      name.length ≤ userNameMaxLength ∧ normalizeString U name = name := by
  obtain ⟨htrim, hne⟩ := trim_of_matchesUserName h
  have hpos : 1 ≤ name.length := String.length_toList ▸ List.length_pos_iff.mpr hne
  rw [atUserName_eq_some, htrim, String.ofList_toList, and_iff_left h, eq_comm (a := name),
    StringConstraints.fits]
  simp only [nameConstraints, userNameMinLength, hpos, decide_true, Bool.true_and, Bool.and_true,
    decide_eq_true_eq, String.length_toList]

/-! ## The raw name -/

theorem isLetter_or_separator_of_matchesNameRest {s : List Char} (h : matchesNameRest U s = true) :
    ∀ c ∈ s, U.isLetter c = true ∨ isNameSeparator c = true := by
  induction s using matchesNameRest.induct U with
  | case1 => simp
  | case2 c => simpa [matchesNameRest] using Or.inl h
  | case3 c d cs hc ih =>
    rw [matchesNameRest, if_pos hc] at h
    exact List.forall_mem_cons.mpr ⟨Or.inl hc, ih h⟩
  | case4 c d cs hc ih =>
    rw [matchesNameRest, if_neg hc, Bool.and_eq_true, Bool.and_eq_true] at h
    exact List.forall_mem_cons.mpr ⟨Or.inr h.1.1, List.forall_mem_cons.mpr ⟨Or.inl h.1.2, ih h.2⟩⟩

/-- A name without zero-width characters is left as it is if and only if it is normal. -/
theorem normalizeString_eq_self_iff (N : U.Nfkc) {name : String}
    (hmatch : matchesUserName U name.toList = true)
    (hzero : ∀ c ∈ name.toList, isZeroWidth c = false) :
    normalizeString U name = name ↔ U.norm name.toList = name.toList := by
  have htext : (normalizeString U name).toList = stripChars (U.norm name.toList) := by
    unfold normalizeString strip Unicode.norm
    rw [String.toList_ofList, String.toList_ofList, String.ofList_toList,
      List.filter_eq_self.mpr fun c hc => by
        rw [N.noZeroWidth name.toList hzero c (by rwa [Unicode.norm, String.ofList_toList])]
        rfl]
    rfl
  rw [← String.toList_inj, htext]
  cases hname : name.toList with
  | nil =>
    rw [hname] at hmatch
    cases hmatch
  | cons c cs =>
    rw [hname] at hmatch hzero
    rw [matchesUserName, Bool.and_eq_true] at hmatch
    have hc : isSpace c = false := U.letter_not_space c hmatch.1
    have hlast := U.letter_not_space _ (isLetter_getLast_of_matchesNameRest c cs hmatch.1 hmatch.2)
    have hends := List.dropLast_append_getLast (List.cons_ne_nil c cs)
    constructor
    · intro hstrip
      have hback : Backed (U.norm (c :: cs)) := by
        rw [← hends]
        refine N.backed _ _ ?_
        rw [isBlank, hlast, hzero _ (List.getLast_mem _), Bool.or_self]
      have hfront := N.fronted c cs (by rw [isBlank, hc, hzero c List.mem_cons_self, Bool.or_self])
      exact (stripChars_eq_self hfront hback hstrip hmatch.1).symm.trans hstrip
    · intro hnormal
      rw [hnormal, stripChars, List.dropWhile_cons_of_neg (by simp [hc])]
      exact rdropWhile_of_backed ⟨_, _, hends.symm, hlast⟩

theorem kept_iff (N : U.Nfkc) {raw name : String} (h : atUserName U raw = some name) :
    atUserName U name = some name ↔ NameStable N raw := by
  obtain ⟨-, hname, hmatch⟩ := atUserName_eq_some.mp h
  have htext : name.toList = N.text raw.toList := by
    cases hcs : name.toList with
    | nil =>
      rw [hcs] at hmatch
      cases hmatch
    | cons c cs =>
      rw [hcs, matchesUserName, Bool.and_eq_true] at hmatch
      rw [hname] at hcs
      exact N.toList_normalizeString hcs hmatch.1
  have hletters : ∀ c ∈ N.text raw.toList, U.isLetter c = true ∨ isNameSeparator c = true := by
    rw [← htext]
    cases hcs : name.toList with
    | nil => simp
    | cons c cs =>
      rw [hcs, matchesUserName, Bool.and_eq_true] at hmatch
      exact List.forall_mem_cons.mpr
        ⟨Or.inl hmatch.1, isLetter_or_separator_of_matchesNameRest hmatch.2⟩
  have hlength : name.length =
      ((N.clusters (core raw.toList)).map fun k => (U.norm k).length).sum := by
    rw [← String.length_toList, htext, Unicode.Nfkc.text, List.length_flatten, List.map_map]
    rfl
  rw [atUserName_self_iff hmatch, hlength, normalizeString_eq_self_iff N hmatch
    (htext ▸ N.not_zeroWidth_text raw.toList), htext, N.text_normal_iff hletters]
  rfl

theorem nameFits_of_kept {name : String} (h : atUserName U name = some name) : NameFits U name := by
  have hmatch := (atUserName_eq_some.mp h).2.2
  obtain ⟨-, hne⟩ := trim_of_matchesUserName hmatch
  have hpos : 1 ≤ name.length := String.length_toList ▸ List.length_pos_iff.mpr hne
  exact ⟨hpos, ((atUserName_self_iff hmatch).mp h).1, hmatch⟩

/-! ## Commands -/

theorem optional_idem {type : String → Option String}
    (htype : ∀ raw text, type raw = some text → type text = some text)
    {raw value : Option String} (h : optional type raw = some value) :
    optional type value = some value := by
  cases raw with
  | none =>
    obtain rfl := Option.some.inj h
    rfl
  | some raw =>
    obtain ⟨text, htext, rfl⟩ := Option.map_eq_some_iff.mp h
    rw [optional, htype raw text htext]
    rfl

theorem validate_register_eq_some {raw cmd : RegisterCommand}
    (h : RegisterCommand.validate U raw = some cmd) :
    atUserName U raw.firstName = some cmd.firstName ∧
      atUserName U raw.lastName = some cmd.lastName ∧ atUserEmail cmd.email = some cmd.email ∧
      optional (atPhone U) cmd.phone = some cmd.phone ∧
      optional atAddress cmd.address = some cmd.address := by
  simp only [RegisterCommand.validate, Option.bind_eq_bind, Option.bind_eq_some_iff,
    Option.pure_def, Option.some.injEq] at h
  obtain ⟨email, hemail, password, -, firstName, hfirst, lastName, hlast, phone, hphone, address,
    haddress, rfl⟩ := h
  exact ⟨hfirst, hlast, atUserEmail_idem hemail,
    optional_idem (fun _ _ => atPhone_idem) hphone,
    optional_idem (fun _ _ => atAddress_idem) haddress⟩

/-- Of a validated command, only the names are validated to something new. -/
theorem validate_params {raw cmd : RegisterCommand} (h : RegisterCommand.validate U raw = some cmd) :
    UserCreateParams.validate U cmd.params =
      (atUserName U cmd.firstName).bind fun firstName =>
        (atUserName U cmd.lastName).bind fun lastName =>
          some { cmd.params with firstName, lastName } := by
  obtain ⟨-, -, hemail, hphone, haddress⟩ := validate_register_eq_some h
  have hnone : ∀ type, optional type none = some none := fun _ => rfl
  simp only [UserCreateParams.validate, RegisterCommand.params, hemail, hphone, haddress, hnone,
    Option.bind_eq_bind, Option.bind_some, Option.pure_def]

/-- So the parameters that the service builds are those of the second validation. -/
theorem ofCommand_of_validate {raw cmd : RegisterCommand}
    (h : RegisterCommand.validate U raw = some cmd) :
    UserCreateParams.ofCommand (atUserName U) cmd =
      (UserCreateParams.validate U cmd.params).elim (.error .validationError) .ok := by
  rw [validate_params h, UserCreateParams.ofCommand]
  cases atUserName U cmd.firstName with
  | none => rfl
  | some firstName => cases atUserName U cmd.lastName <;> rfl

theorem builds_iff {raw cmd : RegisterCommand} (h : RegisterCommand.validate U raw = some cmd) :
    Builds U cmd ↔ atUserName U cmd.firstName = some cmd.firstName ∧
      atUserName U cmd.lastName = some cmd.lastName := by
  unfold Builds
  rw [validate_params h]
  constructor
  · rintro ⟨param, hparam, hfirst, hlast, -⟩
    obtain ⟨firstName, hfirst', hparam⟩ := Option.bind_eq_some_iff.mp hparam
    obtain ⟨lastName, hlast', hparam⟩ := Option.bind_eq_some_iff.mp hparam
    obtain rfl := Option.some.inj hparam
    dsimp only at hfirst hlast
    rw [hfirst] at hfirst'
    rw [hlast] at hlast'
    exact ⟨hfirst', hlast'⟩
  · rintro ⟨hfirst, hlast⟩
    refine ⟨cmd.params, ?_, rfl, rfl, (nameFits_of_kept hfirst).2.1, (nameFits_of_kept hlast).2.1⟩
    rw [hfirst, hlast]
    rfl

/-- **The name that the type returns fits and passes again, unchanged, and the user of a validated
registration can be built with its names, if and only if NFKC expands the clusters of the raw names
to at most 50 characters and combines no two of them.** -/
theorem userNames_kept_iff (N : U.Nfkc) :
    (∀ raw name, atUserName U raw = some name →
      (NameFits U name ∧ atUserName U name = some name ↔ NameStable N raw)) ∧
    ∀ raw cmd, RegisterCommand.validate U raw = some cmd →
      (Builds U cmd ↔ NameStable N raw.firstName ∧ NameStable N raw.lastName) := by
  refine ⟨fun raw name h => ?_, fun raw cmd h => ?_⟩
  · rw [← kept_iff N h]
    exact ⟨And.right, fun hkept => ⟨nameFits_of_kept hkept, hkept⟩⟩
  · obtain ⟨hfirst, hlast, -⟩ := validate_register_eq_some h
    rw [builds_iff h, kept_iff N hfirst, kept_iff N hlast]

/-! ## A ligature -/

/-- The compatibility decomposition of the ligature `fi`. -/
def unligature (c : Char) : List Char := if c.toNat = 0xFB01 then ['f', 'i'] else [c]

/-- Unicode on ASCII and the ligature `fi`. -/
def ligatures : Unicode where
  nfkc s := String.ofList (s.toList.flatMap unligature)
  isLetter c := Ascii.isLetter c || c.toNat == 0xFB01
  isDigit := Ascii.isDigit
  letter_not_space c hc := by
    rcases (Bool.or_eq_true _ _).mp hc with hletter | hligature
    · exact isSpace_of_isLetter hletter
    · have hnat : c.toNat = 0xFB01 := by simpa using hligature
      simp [isSpace, hnat]

theorem norm_ligatures (s : List Char) : ligatures.norm s = s.flatMap unligature := by
  unfold Unicode.norm ligatures
  simp

theorem unligature_cases (c : Char) :
    unligature c = ['f', 'i'] ∧ c.toNat = 0xFB01 ∨ unligature c = [c] := by
  unfold unligature
  split
  · exact Or.inl ⟨rfl, ‹_›⟩
  · exact Or.inr rfl

theorem unligature_of_isBlank {c : Char} (hc : isBlank c = true) : unligature c = [c] := by
  rcases unligature_cases c with ⟨-, hnat⟩ | h
  · simp [isBlank, isSpace, isZeroWidth, hnat] at hc
  · exact h

theorem flatMap_unligature_eq_self {s : List Char} :
    s.flatMap unligature = s ↔ ∀ c ∈ s, unligature c = [c] := by
  induction s with
  | nil => simp
  | cons c s ih =>
    rw [List.flatMap_cons, List.forall_mem_cons, ← ih]
    rcases unligature_cases c with ⟨h, hnat⟩ | h
    · rw [h]
      refine iff_of_false (fun hcs => ?_) (by simp)
      rw [← (List.cons.inj hcs).1] at hnat
      exact absurd hnat (by decide)
    · rw [h]
      simp

/-- Every character is a cluster. -/
def ligatureClusters : ligatures.Nfkc where
  isBoundary _ := true
  boundary_of_blank _ _ := rfl
  norm_append s t := by
    have hidem : ∀ s : List Char, (s.flatMap unligature).flatMap unligature =
        s.flatMap unligature := by
      intro s
      refine flatMap_unligature_eq_self.mpr fun c hc => ?_
      obtain ⟨d, -, hd⟩ := List.mem_flatMap.mp hc
      rcases unligature_cases d with ⟨h, -⟩ | h
      · rw [h] at hd
        rcases (by simpa using hd : c = 'f' ∨ c = 'i') with rfl | rfl <;> rfl
      · rw [h, List.mem_singleton] at hd
        rw [hd, h]
    simp only [norm_ligatures, List.flatMap_append, hidem]
  norm_boundary s c t _ := by simp only [norm_ligatures, List.flatMap_append]
  norm_zeroWidth c t hc := by
    rw [norm_ligatures, norm_ligatures, List.flatMap_cons,
      unligature_of_isBlank (by rw [isBlank, hc, Bool.or_true]), List.singleton_append]
  norm_space c t hc := by
    refine ⟨c, hc, ?_⟩
    rw [norm_ligatures, norm_ligatures, List.flatMap_cons,
      unligature_of_isBlank (by rw [isBlank, hc, Bool.true_or]), List.singleton_append]
  noZeroWidth s hs c hc := by
    rw [norm_ligatures] at hc
    obtain ⟨d, hd, hc⟩ := List.mem_flatMap.mp hc
    rcases unligature_cases d with ⟨h, -⟩ | h
    · rw [h] at hc
      rcases (by simpa using hc : c = 'f' ∨ c = 'i') with rfl | rfl <;> rfl
    · rw [h, List.mem_singleton] at hc
      rw [hc]
      exact hs d hd
  fronted c t hc := by
    rw [norm_ligatures, List.flatMap_cons]
    have hspace := ((Bool.or_eq_false_iff).mp hc).1
    rcases unligature_cases c with ⟨h, -⟩ | h
    · rw [h]
      exact ⟨'f', _, rfl, fun h => by cases h⟩
    · rw [h]
      exact ⟨c, _, rfl, fun h => by rw [hspace] at h; cases h⟩
  backed s c hc := by
    rw [norm_ligatures, List.flatMap_append, List.flatMap_singleton]
    have hspace := ((Bool.or_eq_false_iff).mp hc).1
    refine Backed.append_left ?_ _
    rcases unligature_cases c with ⟨h, -⟩ | h
    · rw [h]
      exact ⟨['f'], 'i', rfl, rfl⟩
    · rw [h]
      exact ⟨[], c, rfl, hspace⟩
  normal_parts s t h := by
    simp only [norm_ligatures, flatMap_unligature_eq_self] at h ⊢
    exact List.forall_mem_append.mp h
  normal_of_pairs s _ h _ := by
    rw [norm_ligatures, flatMap_unligature_eq_self]
    intro c hc
    have hsingle := h c hc
    rwa [norm_ligatures, List.flatMap_singleton] at hsingle

/-- A signup, before and after its validation. -/
def annSignup : RegisterCommand × RegisterCommand :=
  ({ email := " Ann@Example.com", password := "s3cret-passphrase", firstName := " Ann ",
     lastName := "Lee" },
   { email := "ann@example.com", password := "s3cret-passphrase", firstName := "Ann",
     lastName := "Lee" })

/-- A ligature and a zero-width joiner in a name. -/
theorem names_josefine_kept :
    (NameFits ligatures "Josefine" ∧ atUserName ligatures "Josefine" = some "Josefine") ∧
      Builds ligatures annSignup.2 := by
  have hann : RegisterCommand.validate ligatures annSignup.1 = some annSignup.2 := rfl
  have hjosefine : atUserName ligatures " Jose\u200d\ufb01ne " = some "Josefine" := by
    decide +kernel
  exact ⟨((userNames_kept_iff ligatureClusters).1 _ _ hjosefine).mpr (by decide +kernel),
    ((userNames_kept_iff ligatureClusters).2 annSignup.1 annSignup.2 hann).mpr
      (by decide +kernel)⟩

/-- Twenty-six ligatures are accepted, and become a name of 52 letters that is refused. -/
theorem ligatures_too_long :
    atUserName ligatures (String.ofList (List.replicate 26 (Char.ofNat 0xFB01))) =
      some (String.ofList ((List.replicate 26 ['f', 'i']).flatten)) ∧
    ¬ (NameFits ligatures (String.ofList ((List.replicate 26 ['f', 'i']).flatten)) ∧
      atUserName ligatures (String.ofList ((List.replicate 26 ['f', 'i']).flatten)) =
        some (String.ofList ((List.replicate 26 ['f', 'i']).flatten))) := by
  decide +kernel

end ApiTemplate.Identity
