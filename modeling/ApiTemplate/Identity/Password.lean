import ApiTemplate.Identity.Base

/-!
# Password hashing

`PasswordService` over `bcrypt`, which is a parameter: `Bcrypt` holds its two functions together
with the facts about them that the code relies on, and `Bcrypt.plain` is one such pair of functions.
-/

namespace ApiTemplate.Identity

/-- `str.encode("utf-8")`. -/
def encodeUtf8 (s : String) : List UInt8 := s.toUTF8.data.toList

/-- `_BCRYPT_MAX_BYTES`. -/
def bcryptMaxBytes : ℕ := 72

/-- The `bcrypt` library: a hash carries its prefix, and a check accepts the hashed password and no
other one. -/
structure Bcrypt where
  /-- `hashpw(password, gensalt())`, by the random choice of the salt. -/
  hashpw : List UInt8 → ℕ → String
  /-- `checkpw`; `none` is a `ValueError`. -/
  checkpw : List UInt8 → String → Option Bool
  hashpw_starts : ∀ p salt, "$2b$".toList <+: (hashpw p salt).toList
  checkpw_hashpw : ∀ p q salt, p.length ≤ bcryptMaxBytes → q.length ≤ bcryptMaxBytes →
    checkpw q (hashpw p salt) = some (decide (q = p))

namespace PasswordService

/-- `_BCRYPT_PREFIXES`. -/
def bcryptPrefixes : List String := ["$2b$", "$2a$", "$2y$"]

/-- `str.startswith` with a tuple. -/
def startsWith (s : String) (prefixes : List String) : Bool :=
  prefixes.any fun p => p.toList.isPrefixOf s.toList

def toBytes (value : String) : Except Exn (List UInt8) :=
  let encoded := encodeUtf8 value
  if bcryptMaxBytes < encoded.length then .error .valueError else .ok encoded

variable (b : Bcrypt)

def hashPassword (password : String) (salt : ℕ) : Except Exn String :=
  (toBytes password).map fun bytes => b.hashpw bytes salt

def verifyPassword (password hashedPassword : String) : Bool :=
  if !startsWith hashedPassword bcryptPrefixes then false
  else match toBytes password with
    | .error _ => false
    | .ok bytes => (b.checkpw bytes hashedPassword).getD false

theorem encodeUtf8_injective : Function.Injective encodeUtf8 := by
  intro s t h
  unfold encodeUtf8 at h
  have hdata : s.toUTF8.data = t.toUTF8.data := Array.toList_inj.mp h
  have hbytes : s.toUTF8 = t.toUTF8 := ByteArray.ext hdata
  exact String.toByteArray_inj.mp hbytes

theorem startsWith_hashpw (p : List UInt8) (salt : ℕ) :
    startsWith (b.hashpw p salt) bcryptPrefixes = true := by
  unfold startsWith bcryptPrefixes
  rw [List.any_cons, List.isPrefixOf_iff_prefix.mpr (b.hashpw_starts p salt)]
  rfl

/-- **A hash verifies exactly the password it was made from.** -/
theorem verifyPassword_hashPassword {password hash : String} {salt : ℕ}
    (h : hashPassword b password salt = .ok hash) (q : String) :
    verifyPassword b q hash = decide (q = password) := by
  unfold hashPassword at h
  cases hp : toBytes password with
  | error e =>
    rw [hp] at h
    cases h
  | ok bytes =>
    rw [hp] at h
    cases h
    unfold toBytes at hp
    dsimp only at hp
    split at hp
    · cases hp
    · rename_i hlen
      cases hp
      have hiff : encodeUtf8 q = encodeUtf8 password ↔ q = password := encodeUtf8_injective.eq_iff
      unfold verifyPassword toBytes
      rw [startsWith_hashpw]
      by_cases hq : bcryptMaxBytes < (encodeUtf8 q).length
      · have hne : q ≠ password := by
          rintro rfl
          exact hlen hq
        simp [hq, hne]
      · simp [hq, b.checkpw_hashpw _ _ salt (Nat.not_lt.mp hlen)
          (Nat.not_lt.mp hq), hiff]

end PasswordService

/-! ## A transparent hash -/

namespace Bcrypt

/-- A hash that shows the password after the salt. -/
def plainHashpw (p : List UInt8) (salt : ℕ) : String :=
  String.ofList ("$2b$".toList ++ List.replicate salt '+' ++
    '.' :: p.map fun byte => Char.ofNat byte.toNat)

/-- The check that belongs to `plainHashpw`. -/
def plainCheckpw (p : List UInt8) (hash : String) : Option Bool :=
  match (hash.toList.drop 4).dropWhile (fun c => decide (c = '+')) with
  | [] => none
  | _ :: shown => some (decide (p.map UInt8.toNat = shown.map Char.toNat))

theorem toNat_ofNat_uInt8 (byte : UInt8) : (Char.ofNat byte.toNat).toNat = byte.toNat := by
  have := byte.toNat_lt
  unfold Char.ofNat
  rw [dif_pos (by left; omega)]
  rfl

theorem plainCheckpw_plainHashpw (p q : List UInt8) (salt : ℕ) :
    plainCheckpw q (plainHashpw p salt) = some (decide (q = p)) := by
  have hdrop : (((plainHashpw p salt).toList.drop 4).dropWhile fun c => decide (c = '+')) =
      '.' :: p.map fun byte => Char.ofNat byte.toNat := by
    unfold plainHashpw
    rw [String.toList_ofList, List.append_assoc, List.drop_left' (by decide)]
    induction salt with
    | zero => rfl
    | succ n ih => exact ih
  have hmap : (p.map fun byte => Char.ofNat byte.toNat).map Char.toNat = p.map UInt8.toNat := by
    rw [List.map_map]
    exact List.map_congr_left fun byte _ => toNat_ofNat_uInt8 byte
  unfold plainCheckpw
  rw [hdrop]
  dsimp only
  rw [hmap]
  congr 1
  exact decide_eq_decide.mpr (List.map_inj_right fun a c h => UInt8.toNat_inj.mp h)

/-- A hash without secrecy, for runs on concrete inputs. -/
def plain : Bcrypt where
  hashpw := plainHashpw
  checkpw := plainCheckpw
  hashpw_starts p salt := by
    unfold plainHashpw
    rw [List.append_assoc, String.toList_ofList, String.toList_ofList]
    exact List.prefix_append _ _
  checkpw_hashpw p q salt _ _ := plainCheckpw_plainHashpw p q salt

end Bcrypt

end ApiTemplate.Identity
