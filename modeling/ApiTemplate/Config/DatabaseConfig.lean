import ApiTemplate.Stream.Uri
import Mathlib.Tactic.Ring

/-!
# Database URLs

`DatabaseConfig` writes its values between the separators of a URL as they are. The URLs read back
as the configuration exactly if no value holds a character that is a separator or an escape there.
-/

namespace ApiTemplate.Config

open Uri

/-! ## `infra_configs.py` -/

/-- A registered name in its plain form. -/
structure HostName where
  text : String
  chars : ∀ c ∈ text.toList, unreserved c = true

def localhost : HostName := ⟨"localhost", List.all_eq_true.mp rfl⟩

def DEFAULT_POSTGRES_PORT : ℕ := 5432

/-- `DatabaseConfig` -/
structure DatabaseConfig where
  db : String
  user : String
  password : String
  host : HostName := localhost
  port : ℕ := DEFAULT_POSTGRES_PORT
  driver : String := "asyncpg"

namespace DatabaseConfig

def url (self : DatabaseConfig) : String :=
  "postgresql+" ++ self.driver ++ "://" ++ self.user ++ ":" ++ self.password ++ "@" ++
    self.host.text ++ ":" ++ toString self.port ++ "/" ++ self.db

def asyncpgDsn (self : DatabaseConfig) : String :=
  "postgresql://" ++ self.user ++ ":" ++ self.password ++ "@" ++ self.host.text ++ ":" ++
    toString self.port ++ "/" ++ self.db

/-! ## Reading the URLs back -/

/-- The text is a URL of the scheme with the user, password, host, port and database of the
configuration, and with nothing else. -/
def RecoveredFrom (self : DatabaseConfig) (scheme text : String) : Prop :=
  ∃ p, parse text.toList = some p ∧ p.scheme = scheme.toList ∧
    p.user = some (utf8 self.user.toList) ∧ p.password = some (utf8 self.password.toList) ∧
    p.host = self.host.text.toList ∧ p.portNumber = some self.port ∧
    octets p.path = utf8 ('/' :: self.db.toList) ∧ p.query = none ∧ p.fragment = none

/-- Both URLs are read back. -/
def Recovered (self : DatabaseConfig) : Prop :=
  self.RecoveredFrom ("postgresql+" ++ self.driver) self.url ∧
    self.RecoveredFrom "postgresql" self.asyncpgDsn

/-- No value holds a character with another meaning where it is written. -/
structure Safe (config : DatabaseConfig) : Prop where
  user : ∀ c ∈ config.user.toList, regNameChar c = true
  password : ∀ c ∈ config.password.toList, userinfoChar c = true
  db : ∀ c ∈ config.db.toList, pathChar c = true
  driver : ∀ c ∈ config.driver.toList, schemeChar c = true

/-- What follows the scheme in both URLs. -/
def tail (self : DatabaseConfig) : List Char :=
  '/' :: '/' :: (self.user.toList ++ ':' :: self.password.toList ++ '@' ::
    (self.host.text.toList ++ ':' :: Nat.toDigits 10 self.port) ++ '/' :: self.db.toList)

theorem toList_port (n : ℕ) : (toString n).toList = Nat.toDigits 10 n := Nat.toList_repr

/-- The separators, as characters. -/
theorem separators : "://".toList = [':', '/', '/'] ∧ ":".toList = [':'] ∧ "@".toList = ['@'] ∧
    "/".toList = ['/'] ∧ "postgresql://".toList = "postgresql".toList ++ [':', '/', '/'] :=
  ⟨rfl, rfl, rfl, rfl, rfl⟩

theorem url_toList (self : DatabaseConfig) :
    self.url.toList = ("postgresql+" ++ self.driver).toList ++ ':' :: self.tail := by
  obtain ⟨hscheme, hcolon, hat, hslash, -⟩ := separators
  unfold url
  simp only [String.toList_append, toList_port]
  rw [hscheme, hcolon, hat, hslash]
  simp only [tail, List.append_assoc, List.cons_append, List.nil_append]

theorem asyncpgDsn_toList (self : DatabaseConfig) :
    self.asyncpgDsn.toList = "postgresql".toList ++ ':' :: self.tail := by
  obtain ⟨-, hcolon, hat, hslash, hscheme⟩ := separators
  unfold asyncpgDsn
  simp only [String.toList_append, toList_port]
  rw [hscheme, hcolon, hat, hslash]
  simp only [tail, List.append_assoc, List.cons_append, List.nil_append]

/-! ## Safe values -/

/-- Characters of paths are ASCII, and none is a percent sign. -/
theorem ascii_of_pathChar {c : Char} (h : pathChar c = true) : c.toNat < 128 ∧ c ≠ '%' := by
  constructor
  · simp only [pathChar, pchar, regNameChar, unreserved, subDelim, Ascii.isAlphanumeric,
      Bool.or_eq_true, decide_eq_true_eq, Ascii.isLetter_iff, Ascii.isDigit_iff] at h
    by_contra hlarge
    have hne : ∀ d : Char, d.toNat < 128 → c ≠ d := by
      rintro d hd rfl
      exact hlarge hd
    revert h
    simp [hne]
    omega
  · rintro rfl
    revert h
    decide

theorem pathChar_of_userinfoChar {c : Char} (h : userinfoChar c = true) : pathChar c = true := by
  simp only [userinfoChar, Bool.or_eq_true] at h
  simp only [pathChar, pchar, Bool.or_eq_true]
  exact .inl (.inl h)

theorem userinfoChar_of_regNameChar {c : Char} (h : regNameChar c = true) :
    userinfoChar c = true := by
  rw [userinfoChar, h, Bool.true_or]

/-- Safe text is its own encoding. -/
theorem octets_of_pathChars {cs : List Char} (h : ∀ c ∈ cs, pathChar c = true) :
    octets cs = utf8 cs :=
  octets_eq_utf8 fun c hc => ascii_of_pathChar (h c hc)

/-- The components that the configuration is written to. -/
def parts (self : DatabaseConfig) (scheme : List Char) : Parts where
  scheme := scheme
  userinfo := some (self.user.toList ++ ':' :: self.password.toList)
  host := self.host.text.toList
  port := some (Nat.toDigits 10 self.port)
  path := '/' :: self.db.toList
  query := none
  fragment := none

theorem text_parts (self : DatabaseConfig) (scheme : List Char) :
    (self.parts scheme).text = scheme ++ ':' :: self.tail := by
  simp [parts, Parts.text, Parts.hierPart, Parts.authority, Parts.hostport, before, after, tail]

theorem valid_parts {self : DatabaseConfig} (h : self.Safe) {scheme : List Char}
    (hfirst : ∃ c cs, scheme = c :: cs ∧ Ascii.isLetter c = true)
    (hscheme : ∀ c ∈ scheme, schemeChar c = true) : (self.parts scheme).Valid where
  scheme_first := hfirst
  scheme := hscheme
  userinfo := by
    rintro _ ⟨⟩
    refine escaped_of_forall (by decide) fun c hc => ?_
    rcases List.mem_append.mp hc with huser | hrest
    · exact userinfoChar_of_regNameChar (h.user c huser)
    · rcases List.mem_cons.mp hrest with rfl | hpassword
      · decide
      · exact h.password c hpassword
  host := escaped_of_forall (by decide) fun c hc => by
    rw [regNameChar, self.host.chars c hc, Bool.true_or]
  port := by
    rintro _ ⟨⟩ c hc
    have hdigit : c.isDigit = true := Nat.isDigit_of_mem_toDigits (by decide) (by decide) hc
    simp only [Char.isDigit, Bool.and_eq_true, decide_eq_true_eq] at hdigit
    exact Ascii.isDigit_iff.mpr ⟨hdigit.1, hdigit.2⟩
  path_first := .inr rfl
  path := escaped_of_forall (by decide) fun c hc => by
    rcases List.mem_cons.mp hc with rfl | hdb
    · decide
    · exact h.db c hdb
  query := by rintro _ ⟨⟩
  fragment := by rintro _ ⟨⟩

theorem recoveredFrom_of_safe {self : DatabaseConfig} (h : self.Safe) {scheme text : String}
    (htext : text.toList = scheme.toList ++ ':' :: self.tail)
    (hfirst : ∃ c cs, scheme.toList = c :: cs ∧ Ascii.isLetter c = true)
    (hscheme : ∀ c ∈ scheme.toList, schemeChar c = true) : self.RecoveredFrom scheme text := by
  have hcolon : ':' ∉ self.user.toList := not_mem_of_forall (by decide) h.user
  have hcut : cut ':' (self.user.toList ++ ':' :: self.password.toList) =
      (self.user.toList, some self.password.toList) :=
    cut_of_not_mem hcolon (some self.password.toList)
  refine ⟨self.parts scheme.toList, ?_, rfl, ?_, ?_, rfl, ?_, ?_, rfl, rfl⟩
  · rw [htext]
    exact parse_eq_some_iff.mpr ⟨valid_parts h hfirst hscheme, text_parts self scheme.toList⟩
  · show some (octets (cut ':' (self.user.toList ++ ':' :: self.password.toList)).1) = _
    rw [hcut, octets_of_pathChars fun c hc =>
      pathChar_of_userinfoChar (userinfoChar_of_regNameChar (h.user c hc))]
  · show (cut ':' (self.user.toList ++ ':' :: self.password.toList)).2.map octets = _
    rw [hcut, Option.map_some, octets_of_pathChars fun c hc =>
      pathChar_of_userinfoChar (h.password c hc)]
  · show (if Nat.toDigits 10 self.port = [] then none
      else some (Nat.ofDigitChars 10 (Nat.toDigits 10 self.port) 0)) = _
    rw [if_neg Nat.toDigits_ne_nil, Nat.ofDigitChars_ten_toDigits]
  · refine octets_of_pathChars fun c hc => ?_
    rcases List.mem_cons.mp hc with rfl | hdb
    · decide
    · exact h.db c hdb

/-! ## Values that are read back -/

theorem ofDigitChars_lt {cs : List Char} (h : ∀ c ∈ cs, Ascii.isDigit c = true) (init : ℕ) :
    Nat.ofDigitChars 10 cs init < (init + 1) * 10 ^ cs.length := by
  induction cs generalizing init with
  | nil => simp
  | cons c cs ih =>
    obtain ⟨hc, hcs⟩ := List.forall_mem_cons.mp h
    have hlast := (Ascii.isDigit_iff.mp hc).2
    have hvalue : c.toNat - '0'.toNat ≤ 9 := by
      have hzero : '0'.toNat = 48 := rfl
      omega
    rw [Nat.ofDigitChars_cons, List.length_cons, Nat.pow_succ]
    calc Nat.ofDigitChars 10 cs (10 * init + (c.toNat - '0'.toNat))
        < (10 * init + (c.toNat - '0'.toNat) + 1) * 10 ^ cs.length := ih hcs _
      _ ≤ ((init + 1) * 10) * 10 ^ cs.length := Nat.mul_le_mul_right _ (by omega)
      _ = (init + 1) * (10 ^ cs.length * 10) := by
        rw [Nat.mul_assoc, Nat.mul_comm 10]

/-- No shorter text is read as the number of the port. -/
theorem length_port_le {cs : List Char} (h : ∀ c ∈ cs, Ascii.isDigit c = true) (hne : cs ≠ []) :
    (Nat.toDigits 10 (Nat.ofDigitChars 10 cs 0)).length ≤ cs.length := by
  rw [Nat.length_toDigits_le_iff (by decide) (List.length_pos_iff.mpr hne)]
  simpa using ofDigitChars_lt h 0

/-- What is decoded to a text is not shorter than the text. -/
theorem length_le_of_octets {cs value : List Char} (h : octets cs = utf8 value) :
    value.length ≤ cs.length := by
  have hvalue := length_le_utf8 value
  have hcs := octets_length_le cs
  rw [h] at hcs
  omega

/-- A component that is no longer than its value has no escape. -/
theorem forall_of_octets {allowed : Char → Bool} {cs value : List Char}
    (hescaped : escaped allowed cs = true) (h : octets cs = utf8 value)
    (hlength : cs.length = value.length) : ∀ c ∈ cs, allowed c = true := by
  refine forall_of_octets_length hescaped ?_
  have hvalue := length_le_utf8 value
  have hcs := octets_length_le cs
  rw [h] at hcs ⊢
  omega

/-- The user information of parts with a user and a password. -/
theorem userinfo_eq {p : Parts} {user password : List UInt8} (huser : p.user = some user)
    (hpassword : p.password = some password) :
    ∃ a b, p.userinfo = some (a ++ ':' :: b) ∧ ':' ∉ a ∧ octets a = user ∧
      octets b = password := by
  obtain ⟨cs, hcs, hfirst⟩ := Option.map_eq_some_iff.mp huser
  obtain ⟨cs', hcs', hsecond⟩ := Option.bind_eq_some_iff.mp hpassword
  obtain rfl : cs = cs' := Option.some.inj (hcs.symm.trans hcs')
  obtain ⟨b, hb, hoctets⟩ := Option.map_eq_some_iff.mp hsecond
  obtain ⟨happend, hcolon⟩ := cut_append ':' cs
  rw [hb] at happend
  exact ⟨(cut ':' cs).1, b, hcs.trans (congrArg some happend.symm), hcolon, hfirst, hoctets⟩

/-- Components that make up one text are the same if none is shorter than its counterpart. -/
theorem components_eq {a a' b b' c d d' e e' : List Char}
    (h : a ++ ':' :: (b ++ '@' :: (c ++ ':' :: (d ++ e))) =
      a' ++ ':' :: (b' ++ '@' :: (c ++ ':' :: (d' ++ e'))))
    (ha : a'.length ≤ a.length) (hb : b'.length ≤ b.length) (hd : d'.length ≤ d.length)
    (he : e'.length ≤ e.length) : a = a' ∧ b = b' ∧ e = e' := by
  have hlength := congrArg List.length h
  simp only [List.length_append, List.length_cons] at hlength
  obtain ⟨haEq, hrest⟩ := List.append_inj h (by omega)
  obtain ⟨hbEq, hrest⟩ := List.append_inj (List.cons.inj hrest).2 (by omega)
  obtain ⟨-, hrest⟩ := List.append_inj (List.cons.inj hrest).2 rfl
  exact ⟨haEq, hbEq, (List.append_inj (List.cons.inj hrest).2 (by omega)).2⟩

/-- A component that is read back is written with the characters of its place alone. -/
theorem safe_of_recoveredFrom {self : DatabaseConfig} {scheme text : String}
    (htext : text.toList = scheme.toList ++ ':' :: self.tail)
    (h : self.RecoveredFrom scheme text) :
    (∀ c ∈ scheme.toList, schemeChar c = true) ∧
      (∀ c ∈ self.user.toList, regNameChar c = true) ∧
      (∀ c ∈ self.password.toList, userinfoChar c = true) ∧
      ∀ c ∈ self.db.toList, pathChar c = true := by
  obtain ⟨p, hparse, hscheme, huser, hpassword, hhost, hport, hpath, hquery, hfragment⟩ := h
  obtain ⟨hvalid, hp⟩ := parse_eq_some_iff.mp hparse
  obtain ⟨user, password, huserinfo, hcolon, huserOctets, hpasswordOctets⟩ :=
    userinfo_eq huser hpassword
  obtain ⟨raw, hraw, hnumber⟩ := Option.bind_eq_some_iff.mp hport
  have hne : raw ≠ [] := by
    rintro rfl
    cases hnumber
  rw [if_neg hne, Option.some_inj] at hnumber
  have hdigits := length_port_le (hvalid.port raw hraw) hne
  rw [hnumber] at hdigits
  have hwhole : user ++ ':' :: (password ++ '@' :: (self.host.text.toList ++ ':' ::
      (raw ++ p.path))) = self.user.toList ++ ':' :: (self.password.toList ++ '@' ::
      (self.host.text.toList ++ ':' :: (Nat.toDigits 10 self.port ++ '/' :: self.db.toList))) := by
    rw [htext] at hp
    simpa [Parts.text, Parts.hierPart, Parts.authority, Parts.hostport, before, after, tail,
      hscheme, hquery, hfragment, huserinfo, hraw, hhost] using hp
  -- decoding makes nothing longer, so no component is shorter than its value
  obtain ⟨huserEq, hpasswordEq, hpathEq⟩ := components_eq hwhole (length_le_of_octets huserOctets)
    (length_le_of_octets hpasswordOctets) hdigits (length_le_of_octets hpath)
  obtain ⟨huserEscaped, hpasswordEscaped⟩ := escaped_of_append (by decide) (by decide) (by decide)
    (hvalid.userinfo _ huserinfo)
  have hdb := forall_of_octets hvalid.path hpath (congrArg List.length hpathEq)
  have huserinfoChars := forall_of_octets huserEscaped huserOctets (congrArg List.length huserEq)
  rw [hpathEq] at hdb
  refine ⟨hscheme ▸ hvalid.scheme, fun c hc => ?_, ?_, (List.forall_mem_cons.mp hdb).2⟩
  · rw [← huserEq] at hc
    have hchar := huserinfoChars c hc
    rw [userinfoChar, Bool.or_eq_true, decide_eq_true_eq] at hchar
    rcases hchar with hchar | rfl
    · exact hchar
    · exact absurd hc hcolon
  · rw [← hpasswordEq]
    exact forall_of_octets hpasswordEscaped hpasswordOctets (congrArg List.length hpasswordEq)

/-- The URLs are read back exactly if every value keeps to the characters of its place. -/
theorem recovered_iff (self : DatabaseConfig) : self.Recovered ↔ self.Safe := by
  constructor
  · rintro ⟨hurl, -⟩
    obtain ⟨hscheme, huser, hpassword, hdb⟩ := safe_of_recoveredFrom self.url_toList hurl
    refine ⟨huser, hpassword, hdb, fun c hc => hscheme c ?_⟩
    rw [String.toList_append]
    exact List.mem_append_right _ hc
  · intro h
    have happend : ("postgresql+" ++ self.driver).toList =
        "postgresql+".toList ++ self.driver.toList := String.toList_append
    have hchars : ∀ c ∈ "postgresql+".toList, schemeChar c = true :=
      List.all_eq_true.mp rfl
    refine ⟨recoveredFrom_of_safe h self.url_toList ⟨'p', _, happend, rfl⟩ fun c hc => ?_,
      recoveredFrom_of_safe h self.asyncpgDsn_toList ⟨'p', _, rfl, rfl⟩
        (List.all_eq_true.mp rfl)⟩
    · rw [happend] at hc
      rcases List.mem_append.mp hc with hprefix | hdriver
      · exact hchars c hprefix
      · exact h.driver c hdriver

/-- A password with a slash ends the authority. -/
def slashed : DatabaseConfig where
  db := "app"
  user := "app"
  password := "a/b"

theorem not_recovered : ¬ slashed.Recovered := by
  rintro ⟨⟨p, hparse, -⟩, -⟩
  have hnone : parse slashed.url.toList = none := by decide
  rw [hnone] at hparse
  cases hparse

end DatabaseConfig

end ApiTemplate.Config
