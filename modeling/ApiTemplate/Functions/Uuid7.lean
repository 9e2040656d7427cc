import ApiTemplate.Stream.BitFields

/-!
# UUIDs of version 7

`_uuid7_fallback` stamps a version and a variant between a timestamp and 74 random bits. The five
parts are the fields of a word of 128 bits, so each is read back, and ids are ordered by their
timestamps.
-/

namespace ApiTemplate.Functions

open BitFields

/-! ## `uuid_funcs.py` -/

/-- `uuid.UUID` -/
structure UUID where
  int : ℕ
  lt : int < 2 ^ 128
  deriving DecidableEq

/-- `uuid.UUID(int=value)`, which raises for what has more than 128 bits. -/
def UUID.ofInt (value : ℕ) : Option UUID :=
  if h : value < 2 ^ 128 then some ⟨value, h⟩ else none

/-- `int.from_bytes(data, "big")` -/
def fromBytes (data : List UInt8) : ℕ := data.foldl (fun value byte => value * 256 + byte.toNat) 0

/-- `(rand >> 62) & 0x0FFF` -/
def randA (rand : ℕ) : ℕ := (rand >>> 62) &&& 0x0FFF

/-- `rand & 0x3FFF_FFFF_FFFF_FFFF` -/
def randB (rand : ℕ) : ℕ := rand &&& 0x3FFFFFFFFFFFFFFF

/-- `_uuid7_fallback`, at a time in nanoseconds and with ten random bytes. -/
def uuid7Fallback (timeNs : ℕ) (urandom : Vector UInt8 10) : Option UUID :=
  let unixMs := timeNs / 1000000
  let rand := fromBytes urandom.toList
  let value := (unixMs &&& 0xFFFFFFFFFFFF) <<< 80
  let value := value ||| 0x7 <<< 76
  let value := value ||| randA rand <<< 64
  let value := value ||| 0b10 <<< 62
  let value := value ||| randB rand
  UUID.ofInt value

/-- `uuid7`, which defers to `uuid.uuid7` where there is one. -/
def uuid7 (stdlibUuid7 : Option UUID) (timeNs : ℕ) (urandom : Vector UInt8 10) : Option UUID :=
  match stdlibUuid7 with
  | some u => some u
  | none => uuid7Fallback timeNs urandom

/-! ## The fields -/

theorem randA_eq (rand : ℕ) : randA rand = rand / 2 ^ 62 % 2 ^ 12 := by
  rw [randA, Nat.shiftRight_eq_div_pow]
  exact Nat.and_two_pow_sub_one_eq_mod _ 12

theorem randB_eq (rand : ℕ) : randB rand = rand % 2 ^ 62 :=
  Nat.and_two_pow_sub_one_eq_mod rand 62

theorem randA_lt (rand : ℕ) : randA rand < 2 ^ 12 := by
  rw [randA_eq]
  exact Nat.mod_lt _ (Nat.two_pow_pos 12)

theorem randB_lt (rand : ℕ) : randB rand < 2 ^ 62 := by
  rw [randB_eq]
  exact Nat.mod_lt _ (Nat.two_pow_pos 62)

/-- The fields of an id: a timestamp, the version, 12 random bits, the variant, and 62. -/
def layout (timestamp rand : ℕ) (h : timestamp < 2 ^ 48) : List Field :=
  [⟨48, timestamp, h⟩, ⟨4, 7, by decide⟩, ⟨12, randA rand, randA_lt rand⟩, ⟨2, 2, by decide⟩,
    ⟨62, randB rand, randB_lt rand⟩]

/-- The shifts and disjunctions put the fields side by side. -/
theorem pack_layout (timestamp rand : ℕ) (h : timestamp < 2 ^ 48) :
    timestamp <<< 80 ||| 0x7 <<< 76 ||| randA rand <<< 64 ||| 0b10 <<< 62 ||| randB rand =
      pack (layout timestamp rand h) := by
  have ha := randA_lt rand
  have hversion : timestamp <<< 80 ||| 0x7 <<< 76 = (timestamp * 2 ^ 4 + 7) <<< 76 := by
    rw [shiftLeft_or timestamp (by decide : 0x7 <<< 76 < 2 ^ 80), Nat.shiftLeft_eq,
      Nat.shiftLeft_eq]
    ring
  have hrandA : (timestamp * 2 ^ 4 + 7) <<< 76 ||| randA rand <<< 64 =
      ((timestamp * 2 ^ 4 + 7) * 2 ^ 12 + randA rand) <<< 64 := by
    rw [shiftLeft_or (timestamp * 2 ^ 4 + 7)
      (by rw [Nat.shiftLeft_eq]; omega : randA rand <<< 64 < 2 ^ 76), Nat.shiftLeft_eq,
      Nat.shiftLeft_eq]
    ring
  have hvariant : ((timestamp * 2 ^ 4 + 7) * 2 ^ 12 + randA rand) <<< 64 ||| 0b10 <<< 62 =
      (((timestamp * 2 ^ 4 + 7) * 2 ^ 12 + randA rand) * 2 ^ 2 + 2) <<< 62 := by
    rw [shiftLeft_or _ (by decide : 0b10 <<< 62 < 2 ^ 64), Nat.shiftLeft_eq, Nat.shiftLeft_eq]
    ring
  rw [hversion, hrandA, hvariant, shiftLeft_or _ (randB_lt rand)]
  simp only [layout, pack, width_cons, width_nil]
  ring

/-- Below `2 ^ 48` milliseconds an id is made, and it has the fields. -/
theorem uuid7Fallback_eq {timeNs : ℕ} (urandom : Vector UInt8 10)
    (h : timeNs / 1000000 < 2 ^ 48) :
    ∃ u, uuid7Fallback timeNs urandom = some u ∧
      u.int = pack (layout (timeNs / 1000000) (fromBytes urandom.toList) h) := by
  have hlt := pack_lt (layout (timeNs / 1000000) (fromBytes urandom.toList) h)
  refine ⟨⟨_, hlt⟩, ?_, rfl⟩
  have hmask : timeNs / 1000000 &&& 0xFFFFFFFFFFFF = timeNs / 1000000 :=
    (Nat.and_two_pow_sub_one_eq_mod _ 48).trans (Nat.mod_eq_of_lt h)
  show UUID.ofInt ((timeNs / 1000000 &&& 0xFFFFFFFFFFFF) <<< 80 ||| 0x7 <<< 76 |||
    randA (fromBytes urandom.toList) <<< 64 ||| 0b10 <<< 62 |||
    randB (fromBytes urandom.toList)) = _
  rw [hmask, pack_layout _ _ h]
  exact dif_pos hlt

/-! ## Ids -/

/-- The id is the word of its fields, whose widths add up to 128, and each is read back. -/
structure UUID.Holds (u : UUID) (timestamp rand : ℕ) : Prop where
  word : ∃ h, u.int = pack (layout timestamp rand h) ∧ width (layout timestamp rand h) = 128
  timestamp : u.int >>> 80 = timestamp
  version : (u.int >>> 76) &&& 0xF = 7
  randA : (u.int >>> 64) &&& 0xFFF = randA rand
  variant : (u.int >>> 62) &&& 0b11 = 0b10
  randB : u.int &&& 0x3FFFFFFFFFFFFFFF = randB rand

theorem UUID.holds_of_eq {u : UUID} {timestamp rand : ℕ} (h : timestamp < 2 ^ 48)
    (hu : u.int = pack (layout timestamp rand h)) : u.Holds timestamp rand where
  word := ⟨h, hu, rfl⟩
  timestamp := by
    rw [hu]
    exact read_pack_first ⟨48, timestamp, h⟩ _
  version := by
    rw [hu]
    exact (Nat.and_two_pow_sub_one_eq_mod _ 4).trans (read_pack [_] _ _)
  randA := by
    rw [hu]
    exact (Nat.and_two_pow_sub_one_eq_mod _ 12).trans (read_pack [_, _] _ _)
  variant := by
    rw [hu]
    exact (Nat.and_two_pow_sub_one_eq_mod _ 2).trans (read_pack [_, _, _] _ _)
  randB := by
    rw [hu]
    exact (Nat.and_two_pow_sub_one_eq_mod _ 62).trans (read_pack [_, _, _, _] _ [])

/-- The random bits of an id are the 74 low ones. -/
theorem randomBits_iff (rand rand' : ℕ) :
    randA rand = randA rand' ∧ randB rand = randB rand' ↔ rand % 2 ^ 74 = rand' % 2 ^ 74 := by
  rw [randA_eq, randA_eq, randB_eq, randB_eq]
  omega

/-- Ids of one millisecond are the same exactly if their random bits are. -/
theorem UUID.Holds.eq_iff {u u' : UUID} {timestamp rand rand' : ℕ} (h : u.Holds timestamp rand)
    (h' : u'.Holds timestamp rand') : u = u' ↔ rand % 2 ^ 74 = rand' % 2 ^ 74 := by
  rw [← randomBits_iff]
  constructor
  · rintro rfl
    exact ⟨h.randA.symm.trans h'.randA, h.randB.symm.trans h'.randB⟩
  · rintro ⟨ha, hb⟩
    obtain ⟨hwide, hword, -⟩ := h.word
    obtain ⟨hwide', hword', -⟩ := h'.word
    have hint : u.int = u'.int := by
      rw [hword, hword']
      simp only [layout, pack, ha, hb]
    cases u
    cases u'
    simpa using hint

/-- Ids of different milliseconds are ordered as these are. -/
theorem UUID.Holds.lt_of_lt {u u' : UUID} {timestamp timestamp' rand rand' : ℕ}
    (h : u.Holds timestamp rand) (h' : u'.Holds timestamp' rand')
    (hlt : timestamp < timestamp') : u.int < u'.int := by
  obtain ⟨hwide, hword, -⟩ := h.word
  obtain ⟨hwide', hword', -⟩ := h'.word
  rw [hword, hword']
  refine pack_lt_pack ?_ hlt
  simp only [width_cons, width_nil]

/-- Below `2 ^ 48` milliseconds every id has the five fields; ids are ordered by their timestamps,
and those of one timestamp are told apart by their random bits. -/
theorem uuid7Fallback_fields {timeNs timeNs' : ℕ} (urandom urandom' : Vector UInt8 10)
    (h : timeNs / 1000000 < 2 ^ 48) (h' : timeNs' / 1000000 < 2 ^ 48) :
    ∃ u u', uuid7Fallback timeNs urandom = some u ∧ uuid7Fallback timeNs' urandom' = some u' ∧
      u.Holds (timeNs / 1000000) (fromBytes urandom.toList) ∧
      u'.Holds (timeNs' / 1000000) (fromBytes urandom'.toList) ∧
      (timeNs / 1000000 ≠ timeNs' / 1000000 →
        (u.int < u'.int ↔ timeNs / 1000000 < timeNs' / 1000000)) ∧
      (timeNs / 1000000 = timeNs' / 1000000 →
        (u = u' ↔ fromBytes urandom.toList % 2 ^ 74 = fromBytes urandom'.toList % 2 ^ 74)) := by
  obtain ⟨u, hu, hword⟩ := uuid7Fallback_eq urandom h
  obtain ⟨u', hu', hword'⟩ := uuid7Fallback_eq urandom' h'
  have hholds := UUID.holds_of_eq h hword
  have hholds' := UUID.holds_of_eq h' hword'
  refine ⟨u, u', hu, hu', hholds, hholds', fun hne => ?_, fun heq => ?_⟩
  · refine ⟨fun hlt => ?_, hholds.lt_of_lt hholds'⟩
    by_contra hnot
    have hgt := hholds'.lt_of_lt hholds (lt_of_le_of_ne (Nat.le_of_not_lt hnot) hne.symm)
    exact Nat.lt_asymm hlt hgt
  · rw [heq] at hholds
    exact hholds.eq_iff hholds'

/-- Random bytes that are all one. -/
def ones : Vector UInt8 10 := Vector.replicate 10 (UInt8.ofNat 255)

def zeros : Vector UInt8 10 := Vector.replicate 10 (UInt8.ofNat 0)

theorem uuid7Fallback_fields_next :
    ∃ u u', uuid7Fallback 1700000000000000000 ones = some u ∧
      uuid7Fallback 1700000000001000000 zeros = some u' ∧
      u.Holds (1700000000000000000 / 1000000) (fromBytes ones.toList) ∧
      u'.Holds (1700000000001000000 / 1000000) (fromBytes zeros.toList) ∧
      (1700000000000000000 / 1000000 ≠ 1700000000001000000 / 1000000 →
        (u.int < u'.int ↔ 1700000000000000000 / 1000000 < 1700000000001000000 / 1000000)) ∧
      (1700000000000000000 / 1000000 = 1700000000001000000 / 1000000 →
        (u = u' ↔ fromBytes ones.toList % 2 ^ 74 =
          fromBytes zeros.toList % 2 ^ 74)) :=
  uuid7Fallback_fields ones zeros (by decide) (by decide)

end ApiTemplate.Functions
