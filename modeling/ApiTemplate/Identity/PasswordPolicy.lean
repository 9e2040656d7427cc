import ApiTemplate.Identity.Annotated
import ApiTemplate.Identity.UserAggregate

/-!
# The password policy

`ATPassword` counts characters, the hash counts bytes. A password that the type admits can be stored
and verified if and only if its UTF-8 form has at most 72 bytes.
-/

namespace ApiTemplate.Identity

/-! ## Usable passwords -/

/-- The length of a `bcrypt` hash. -/
def bcryptHashLength : ℕ := 60

/-- The password can be set for any user: the hash fits the column, and verifies this password and
no other one. -/
def PasswordWorks (b : Bcrypt) (password : String) : Prop :=
  ∀ (a : UserAggregate) (salt : ℕ), ∃ (a' : UserAggregate) (stored : String),
    a.setPassword b password salt = .ok a' ∧ a'.source.password = some stored ∧
      stored.length ≤ userPasswordMaxLength ∧
      PasswordService.verifyPassword b password stored = true ∧
      ∀ q, q ≠ password → PasswordService.verifyPassword b q stored = false

variable (b : Bcrypt)

theorem toBytes_eq_ok {value : String} (h : (encodeUtf8 value).length ≤ bcryptMaxBytes) :
    PasswordService.toBytes value = .ok (encodeUtf8 value) := if_neg (Nat.not_lt.mpr h)

theorem toBytes_eq_error {value : String} (h : bcryptMaxBytes < (encodeUtf8 value).length) :
    PasswordService.toBytes value = .error .valueError := if_pos h

theorem usable_of_bytes
    (hlength : ∀ bytes salt, bytes.length ≤ bcryptMaxBytes →
      (b.hashpw bytes salt).length = bcryptHashLength) {password : String}
    (hbytes : (encodeUtf8 password).length ≤ bcryptMaxBytes) : PasswordWorks b password := by
  intro a salt
  have hhash : PasswordService.hashPassword b password salt =
      .ok (b.hashpw (encodeUtf8 password) salt) := by
    rw [PasswordService.hashPassword, toBytes_eq_ok hbytes]
    rfl
  have hverify := PasswordService.verifyPassword_hashPassword b hhash
  refine ⟨{ a with source := { a.source with
    password := some (b.hashpw (encodeUtf8 password) salt) } },
    b.hashpw (encodeUtf8 password) salt, ?_, rfl, ?_, ?_, ?_⟩
  · rw [UserAggregate.setPassword, hhash]
    rfl
  · rw [hlength _ salt hbytes]
    decide
  · rw [hverify]
    exact decide_eq_true rfl
  · intro q hq
    rw [hverify]
    exact decide_eq_false hq

theorem not_usable_of_bytes {password : String}
    (hbytes : bcryptMaxBytes < (encodeUtf8 password).length) (a : UserAggregate) :
    ¬ PasswordWorks b password := by
  intro h
  obtain ⟨a', stored, hset, -⟩ := h a 0
  rw [UserAggregate.setPassword, PasswordService.hashPassword, toBytes_eq_error hbytes] at hset
  cases hset

/-- An aggregate to set a password of. -/
def passwordOwner : UserAggregate :=
  UserAggregate.register { email := "ann@example.com", firstName := "Ann", lastName := "Lee" } 0

/-- **A password is usable if and only if it has at most 72 UTF-8 bytes,** whether the type admits
it or not. -/
theorem usable_iff
    (hlength : ∀ bytes salt, bytes.length ≤ bcryptMaxBytes →
      (b.hashpw bytes salt).length = bcryptHashLength) (password : String) :
    PasswordWorks b password ↔ (encodeUtf8 password).length ≤ bcryptMaxBytes := by
  constructor
  · intro h
    by_contra hbytes
    exact not_usable_of_bytes b (Nat.lt_of_not_le hbytes) passwordOwner h
  · exact usable_of_bytes b hlength

/-! ## A hash of sixty characters -/

namespace Bcrypt

/-- Two bytes to a character. -/
def packPairs : List UInt8 → List Char
  | [] => []
  | [a] => [Char.ofNat (0x10000 + a.toNat)]
  | a :: c :: bytes => Char.ofNat (0x10100 + a.toNat * 256 + c.toNat) :: packPairs bytes

theorem toNat_ofNat_of_lt {n : ℕ} (hlow : 0xDFFF < n) (hhigh : n < 0x110000) :
    (Char.ofNat n).toNat = n := by
  unfold Char.ofNat
  rw [dif_pos (.inr ⟨hlow, hhigh⟩)]
  rfl

theorem toNat_single (a : UInt8) :
    (Char.ofNat (0x10000 + a.toNat)).toNat = 0x10000 + a.toNat := by
  have ha := a.toNat_lt
  exact toNat_ofNat_of_lt (by omega) (by omega)

theorem toNat_pair (a c : UInt8) : (Char.ofNat (0x10100 + a.toNat * 256 + c.toNat)).toNat =
    0x10100 + a.toNat * 256 + c.toNat := by
  have ha := a.toNat_lt
  have hc := c.toNat_lt
  exact toNat_ofNat_of_lt (by omega) (by omega)

theorem le_toNat_of_mem_packPairs (bytes : List UInt8) :
    ∀ c ∈ packPairs bytes, 0x10000 ≤ c.toNat := by
  induction bytes using packPairs.induct with
  | case1 => simp [packPairs]
  | case2 a =>
    rw [packPairs, List.forall_mem_singleton, toNat_single]
    omega
  | case3 a c bytes ih =>
    rw [packPairs, List.forall_mem_cons, toNat_pair]
    exact ⟨by omega, ih⟩

theorem packPairs_injective : Function.Injective packPairs := by
  intro p q h
  induction p using packPairs.induct generalizing q with
  | case1 =>
    rcases q with _ | ⟨d, _ | ⟨e, q⟩⟩ <;> simp_all [packPairs]
  | case2 a =>
    have ha := a.toNat_lt
    rcases q with _ | ⟨d, _ | ⟨e, q⟩⟩
    · simp [packPairs] at h
    · have hnat := congrArg Char.toNat (List.cons.inj h).1
      rw [toNat_single, toNat_single] at hnat
      rw [UInt8.toNat_inj.mp (by omega : a.toNat = d.toNat)]
    · have hnat := congrArg Char.toNat (List.cons.inj h).1
      rw [toNat_single, toNat_pair] at hnat
      omega
  | case3 a c bytes ih =>
    have hc := c.toNat_lt
    rcases q with _ | ⟨d, _ | ⟨e, q⟩⟩
    · simp [packPairs] at h
    · have hd := d.toNat_lt
      have hnat := congrArg Char.toNat (List.cons.inj h).1
      rw [toNat_pair, toNat_single] at hnat
      omega
    · have he := e.toNat_lt
      have hnat := congrArg Char.toNat (List.cons.inj h).1
      rw [toNat_pair, toNat_pair] at hnat
      rw [UInt8.toNat_inj.mp (by omega : a.toNat = d.toNat),
        UInt8.toNat_inj.mp (by omega : c.toNat = e.toNat), ih (List.cons.inj h).2]

theorem length_packPairs (bytes : List UInt8) :
    (packPairs bytes).length = (bytes.length + 1) / 2 := by
  induction bytes using packPairs.induct with
  | case1 => rfl
  | case2 a => simp [packPairs]
  | case3 a c bytes ih =>
    rw [packPairs, List.length_cons, ih, List.length_cons, List.length_cons]
    omega

/-- The prefix, the first 72 bytes packed, and dots up to sixty characters. -/
def packedHashpw (p : List UInt8) (_salt : ℕ) : String :=
  String.ofList ("$2b$".toList ++ (packPairs (p.take bcryptMaxBytes) ++
    List.replicate (56 - (packPairs (p.take bcryptMaxBytes)).length) '.'))

/-- The check hashes again. -/
def packedCheckpw (p : List UInt8) (hash : String) : Option Bool :=
  some (decide (packedHashpw p 0 = hash))

theorem length_packedHashpw (p : List UInt8) (salt : ℕ) :
    (packedHashpw p salt).length = bcryptHashLength := by
  have hpairs : (packPairs (p.take bcryptMaxBytes)).length ≤ 56 := by
    rw [length_packPairs, List.length_take]
    simp only [bcryptMaxBytes]
    omega
  have hversion : "$2b$".toList.length = 4 := rfl
  unfold packedHashpw
  rw [String.length_ofList, List.length_append, List.length_append, List.length_replicate,
    hversion]
  simp only [bcryptHashLength]
  omega

theorem takeWhile_packed (bytes : List UInt8) (n : ℕ) :
    (packPairs bytes ++ List.replicate n '.').takeWhile (· ≠ '.') = packPairs bytes := by
  have hpairs : ∀ c ∈ packPairs bytes, decide (c ≠ '.') = true := by
    intro c hc
    have hle := le_toNat_of_mem_packPairs bytes c hc
    refine decide_eq_true ?_
    rintro rfl
    exact absurd hle (by decide)
  rw [List.takeWhile_append_of_pos hpairs]
  cases n <;> simp [List.replicate_succ]

theorem packedHashpw_inj {p q : List UInt8} {salt salt' : ℕ} (hp : p.length ≤ bcryptMaxBytes)
    (hq : q.length ≤ bcryptMaxBytes) : packedHashpw q salt = packedHashpw p salt' ↔ q = p := by
  constructor
  · intro h
    unfold packedHashpw at h
    rw [List.take_of_length_le hp, List.take_of_length_le hq] at h
    have happend := List.append_cancel_left (String.ofList_injective h)
    have hpairs := congrArg (List.takeWhile (· ≠ '.')) happend
    rw [takeWhile_packed, takeWhile_packed] at hpairs
    exact packPairs_injective hpairs
  · rintro rfl
    rfl

/-- A hash without secrecy that has sixty characters. -/
def packed : Bcrypt where
  hashpw := packedHashpw
  checkpw := packedCheckpw
  hashpw_starts p salt := by
    unfold packedHashpw
    rw [String.toList_ofList, String.toList_ofList]
    exact List.prefix_append _ _
  checkpw_hashpw p q salt hp hq := by
    unfold packedCheckpw
    rw [Option.some.injEq, decide_eq_decide]
    exact packedHashpw_inj hp hq

end Bcrypt

theorem usable_passphrase : PasswordWorks .packed "s3cret-passphrase" :=
  (usable_iff .packed (fun bytes salt _ => Bcrypt.length_packedHashpw bytes salt)
    "s3cret-passphrase").mpr (by decide)

/-- Seventy-three characters pass the type, and no hash is made of them. -/
theorem long_password_fails :
    atPassword (String.ofList (List.replicate 73 'x')) =
      some (String.ofList (List.replicate 73 'x')) ∧
    ¬ PasswordWorks .packed (String.ofList (List.replicate 73 'x')) := by
  refine ⟨by decide, not_usable_of_bytes .packed ?_ passwordOwner⟩
  decide

end ApiTemplate.Identity
