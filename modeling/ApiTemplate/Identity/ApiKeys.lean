import ApiTemplate.Identity.Isolation
import ApiTemplate.Identity.Revocation

/-!
# API keys

The service draws a secret, stores its signature and hands the secret to the client in base64. A
request that presents this text is authenticated as the owner, whatever handlers have run since.
-/

namespace ApiTemplate.Identity

open TxStore

/-! ## Base64 -/

/-- The digit of the alphabet with this value. -/
def base64Char (v : ℕ) : Char :=
  if v < 26 then .ofNat (65 + v)
  else if v < 52 then .ofNat (71 + v)
  else if v < 62 then .ofNat (v - 4)
  else if v = 62 then '+'
  else '/'

/-- `base64.b64encode`: four digits for three bytes, and padding at the end. -/
def b2aBase64 : List UInt8 → List Char
  | [] => []
  | [a] => [base64Char (a.toNat / 4), base64Char (a.toNat % 4 * 16), '=', '=']
  | [a, b] =>
    [base64Char (a.toNat / 4), base64Char (a.toNat % 4 * 16 + b.toNat / 16),
      base64Char (b.toNat % 16 * 4), '=']
  | a :: b :: c :: rest =>
    base64Char (a.toNat / 4) :: base64Char (a.toNat % 4 * 16 + b.toNat / 16) ::
      base64Char (b.toNat % 16 * 4 + c.toNat / 64) :: base64Char (c.toNat % 64) :: b2aBase64 rest

def b64encode (data : List UInt8) : String := String.ofList (b2aBase64 data)

/-- A digit is none of the padding, plain ASCII, and has its value. -/
theorem base64Char_spec : ∀ v < 64, base64Char v ≠ '=' ∧ (base64Char v).toNat < 128 ∧
    base64Value (base64Char v) = some v := by decide

section

variable {v quad left pads : ℕ} {cs : List Char}

/-- A digit read after `quad` others of its group. -/
theorem a2bBase64_digit (hv : v < 64) :
    a2bBase64 quad left pads (base64Char v :: cs) =
      match quad with
      | 0 => a2bBase64 1 v 0 cs
      | 1 => (a2bBase64 2 (v % 16) 0 cs).map (.ofNat (left * 4 + v / 16) :: ·)
      | 2 => (a2bBase64 3 (v % 4) 0 cs).map (.ofNat (left * 16 + v / 4) :: ·)
      | _ => (a2bBase64 0 0 0 cs).map (.ofNat (left * 64 + v) :: ·) := by
  obtain ⟨hne, -, hvalue⟩ := base64Char_spec v hv
  rw [a2bBase64, if_neg hne]
  generalize base64Value (base64Char v) = digit at hvalue ⊢
  subst hvalue
  rfl

/-- The first two digits of a group make a byte. -/
theorem a2bBase64_byte₁ {a : UInt8} {w : ℕ} (hw : w < 16) :
    a2bBase64 0 0 0 (base64Char (a.toNat / 4) :: base64Char (a.toNat % 4 * 16 + w) :: cs) =
      (a2bBase64 2 w 0 cs).map (a :: ·) := by
  have ha := a.toNat_lt
  have hbyte : a.toNat / 4 * 4 + (a.toNat % 4 * 16 + w) / 16 = a.toNat := by omega
  have hleft : (a.toNat % 4 * 16 + w) % 16 = w := by omega
  rw [a2bBase64_digit (by omega)]
  refine (a2bBase64_digit (by omega)).trans ?_
  show (a2bBase64 2 ((a.toNat % 4 * 16 + w) % 16) 0 cs).map
    (.ofNat (a.toNat / 4 * 4 + (a.toNat % 4 * 16 + w) / 16) :: ·) = _
  rw [hbyte, hleft, UInt8.ofNat_toNat]

theorem a2bBase64_byte₂ {b : UInt8} {w : ℕ} (hw : w < 4) :
    a2bBase64 2 (b.toNat / 16) 0 (base64Char (b.toNat % 16 * 4 + w) :: cs) =
      (a2bBase64 3 w 0 cs).map (b :: ·) := by
  have hb := b.toNat_lt
  have hbyte : b.toNat / 16 * 16 + (b.toNat % 16 * 4 + w) / 4 = b.toNat := by omega
  have hleft : (b.toNat % 16 * 4 + w) % 4 = w := by omega
  refine (a2bBase64_digit (by omega)).trans ?_
  show (a2bBase64 3 ((b.toNat % 16 * 4 + w) % 4) 0 cs).map
    (.ofNat (b.toNat / 16 * 16 + (b.toNat % 16 * 4 + w) / 4) :: ·) = _
  rw [hbyte, hleft, UInt8.ofNat_toNat]

theorem a2bBase64_byte₃ {c : UInt8} :
    a2bBase64 3 (c.toNat / 64) 0 (base64Char (c.toNat % 64) :: cs) =
      (a2bBase64 0 0 0 cs).map (c :: ·) := by
  have hc := c.toNat_lt
  have hbyte : c.toNat / 64 * 64 + c.toNat % 64 = c.toNat := by omega
  refine (a2bBase64_digit (by omega)).trans ?_
  show (a2bBase64 0 0 0 cs).map (.ofNat (c.toNat / 64 * 64 + c.toNat % 64) :: ·) = _
  rw [hbyte, UInt8.ofNat_toNat]

/-- **Base64.** What was encoded is decoded. -/
theorem a2bBase64_b2aBase64 (data : List UInt8) : a2bBase64 0 0 0 (b2aBase64 data) = some data := by
  induction data using b2aBase64.induct with
  | case1 => rfl
  | case2 a =>
    have ha : a2bBase64 0 0 0 (base64Char (a.toNat / 4) ::
        base64Char (a.toNat % 4 * 16 + 0) :: ['=', '=']) =
          (a2bBase64 2 0 0 ['=', '=']).map (a :: ·) := a2bBase64_byte₁ (by omega)
    exact ha.trans rfl
  | case3 a b =>
    have hb := b.toNat_lt
    have hpad : a2bBase64 2 (b.toNat / 16) 0 [base64Char (b.toNat % 16 * 4 + 0), '='] =
        (a2bBase64 3 0 0 ['=']).map (b :: ·) := a2bBase64_byte₂ (by omega)
    rw [b2aBase64, a2bBase64_byte₁ (by omega), ← Nat.add_zero (b.toNat % 16 * 4), hpad]
    rfl
  | case4 a b c rest ih =>
    have hb := b.toNat_lt
    have hc := c.toNat_lt
    rw [b2aBase64, a2bBase64_byte₁ (by omega), a2bBase64_byte₂ (by omega), a2bBase64_byte₃, ih]
    rfl

theorem ascii_b2aBase64 (data : List UInt8) :
    (b2aBase64 data).all (fun c => c.toNat < 128) = true := by
  have hdigit : ∀ v < 64, decide ((base64Char v).toNat < 128) = true := fun v hv =>
    decide_eq_true (base64Char_spec v hv).2.1
  induction data using b2aBase64.induct with
  | case1 => rfl
  | case2 a =>
    have ha := a.toNat_lt
    rw [b2aBase64, List.all_cons, List.all_cons, hdigit _ (by omega), hdigit _ (by omega)]
    rfl
  | case3 a b =>
    have ha := a.toNat_lt
    have hb := b.toNat_lt
    rw [b2aBase64, List.all_cons, List.all_cons, List.all_cons, hdigit _ (by omega),
      hdigit _ (by omega), hdigit _ (by omega)]
    rfl
  | case4 a b c rest ih =>
    have ha := a.toNat_lt
    have hb := b.toNat_lt
    have hc := c.toNat_lt
    rw [b2aBase64, List.all_cons, List.all_cons, List.all_cons, List.all_cons,
      hdigit _ (by omega), hdigit _ (by omega), hdigit _ (by omega), hdigit _ (by omega), ih]
    rfl

theorem b64decode_b64encode (data : List UInt8) : b64decode (b64encode data) = some data := by
  unfold b64decode b64encode
  rw [String.toList_ofList, if_pos (ascii_b2aBase64 data), a2bBase64_b2aBase64]

/-- Data that is not empty has a text that is not empty. -/
theorem b64encode_ne_empty {data : List UInt8} (h : data ≠ []) : b64encode data ≠ "" := by
  intro hempty
  have hdecode := b64decode_b64encode data
  rw [hempty] at hdecode
  exact h (Option.some.inj hdecode).symm

end

/-! ## Issuing a key -/

def apiKeyByteLength : ℕ := 64

/-- `SecretService`, over the random bytes of the system. -/
structure SecretService where
  urandom : ℕ → List UInt8
  length_urandom : ∀ n, (urandom n).length = n

def SecretService.generate (service : SecretService) (length : ℕ) : List UInt8 :=
  service.urandom length

structure ApiKeyCreateDTO where
  key : List UInt8
  ownerId : Id

/-- The key of a list item: the raw key, or the secret in base64. -/
structure ApiKeyListDTO where
  id : Id
  key : List UInt8 ⊕ String
  deriving DecidableEq

/-- The row `create` makes. -/
def ApiKeyOrmRepository.row (data : ApiKeyCreateDTO) (id : Id) : ApiKeyRow where
  id := id
  key := data.key
  status := .active
  ownerId := data.ownerId
  lastUsedAt := none

def ApiKeyOrmRepository.create (data : ApiKeyCreateDTO) : Tx ApiKeyListDTO := do
  let id ← Program.lift (S := Stmt schema)
    (.add (fun id => .apiKey (ApiKeyOrmRepository.row data id)) fun _ => rfl)
  flush
  pure ⟨id, .inl data.key⟩

/-- The caller owns the unit of work. -/
def ApiKeyService.create (secrets : SecretService) (signature : SignatureService) (userId : Id) :
    Tx (ResultDetailed ApiKeyListDTO) := do
  let secretBytes := secrets.generate apiKeyByteLength
  let apiKey ← ApiKeyOrmRepository.create ⟨signature.sign secretBytes, userId⟩
  pure (.ok { apiKey with key := .inr (b64encode secretBytes) })

section

variable (secrets : SecretService) (signature : SignatureService) (owner : Id)

/-- The bytes behind the key. -/
def secretBytes : List UInt8 := secrets.generate apiKeyByteLength

/-- The row of the key. -/
def issuedKey (id : Id) : ApiKeyRow :=
  ApiKeyOrmRepository.row ⟨signature.sign (secretBytes secrets), owner⟩ id

theorem b64encode_secretBytes_ne_empty : b64encode (secretBytes secrets) ≠ "" := by
  refine b64encode_ne_empty fun hnil => ?_
  have hlength := secrets.length_urandom apiKeyByteLength
  rw [show secrets.urandom apiKeyByteLength = [] from hnil] at hlength
  cases hlength

variable {secrets signature owner} {db : Content} {k : ApiKeyRow} {env : Env}

theorem mem_apiKeys : k ∈ apiKeys db ↔ db.row k.id = some (.apiKey k) := by
  unfold apiKeys
  rw [List.mem_filterMap]
  constructor
  · rintro ⟨r, hr, hk⟩
    obtain rfl := Row.apiKey?_eq_some.mp hk
    exact Db.mem_rows.mp hr
  · intro h
    exact ⟨_, Db.mem_rows_of_row h, rfl⟩

variable (secrets signature owner db) in
/-- The content with the row of the key, put where the next id is. -/
def withKey : Content :=
  (db.reserve (db.next + 1)).put (.apiKey (issuedKey secrets signature owner db.next))

theorem flush_issuedKey (db : Content) :
    (db.reserve (db.next + 1)).flush
      { new := [.apiKey (issuedKey secrets signature owner db.next)] } =
        .ok (withKey secrets signature owner db) := by
  have hclash : Db.clashes (σ := schema) (db.reserve (db.next + 1))
      (.apiKey (issuedKey secrets signature owner db.next)) = false := by
    unfold Db.clashes
    rw [List.any_eq_false]
    intro r _
    rw [show schema.clash _ r = false from rfl, Bool.and_false]
    exact Bool.false_ne_true
  rw [Db.flush_new]
  unfold Db.insert
  rw [hclash, Db.reserve_row, show db.row (schema.rowId _) = none from db.bound _ le_rfl]
  rfl

theorem run_create_apiKey (db : Content) :
    World.run (ApiKeyOrmRepository.create ⟨signature.sign (secretBytes secrets), owner⟩)
      (World.ofDb db) =
        (.ok ⟨db.next, .inl (signature.sign (secretBytes secrets))⟩,
          { World.ofDb db with view := withKey secrets signature owner db }) := by
  have hflushed : World.run Identity.flush { World.ofDb db with
      view := db.reserve (db.next + 1)
      session := { new := [.apiKey (issuedKey secrets signature owner db.next)] } } =
        (.ok (), { World.ofDb db with view := withKey secrets signature owner db }) := by
    show World.exec .flush _ = _
    unfold World.exec
    dsimp only
    rw [flush_issuedKey]
    rfl
  exact (Program.run_bind_ok rfl _).trans (Program.run_bind_ok hflushed _)

/-- **Issuing.** The key gets a row of its own, and the client the secret. -/
theorem issue_apiKey (db : Content) :
    db.result (withUow (ApiKeyService.create secrets signature owner)) =
      .ok (.ok ⟨db.next, .inr (b64encode (secretBytes secrets))⟩) ∧
    (db.after (withUow (ApiKeyService.create secrets signature owner))).row =
      Function.update db.row db.next
        (some (.apiKey (issuedKey secrets signature owner db.next))) := by
  have hrun : World.run (ApiKeyService.create secrets signature owner) (World.ofDb db) =
      (.ok (.ok ⟨db.next, .inr (b64encode (secretBytes secrets))⟩),
        { World.ofDb db with view := withKey secrets signature owner db }) :=
    Program.run_bind_ok (run_create_apiKey db) _
  exact Db.withUow_of_flush hrun rfl

/-- Any choice from a list of equal elements. -/
theorem getElem?_mod_of_forall {α : Type} {l : List α} {a : α} (hmem : a ∈ l)
    (hall : ∀ b ∈ l, b = a) (n : ℕ) : l[n % l.length]? = some a := by
  have hlt : n % l.length < l.length := Nat.mod_lt _ (List.length_pos_of_mem hmem)
  rw [List.getElem?_eq_getElem hlt, hall _ (List.getElem_mem hlt)]

/-- With a signature of its own, the row is the one that is found. -/
theorem apiKeyRow_of_forall {key : List UInt8} (hk : k ∈ apiKeys db)
    (hkey : k.key = signature.sign key)
    (hown : ∀ k' ∈ apiKeys db, k'.key = signature.sign key → k' = k) :
    apiKeyRow signature env db key = some k := by
  refine getElem?_mod_of_forall ?_ (fun k' hk' => ?_) env.tie
  · exact List.mem_filter.mpr ⟨hk, beq_iff_eq.mpr hkey⟩
  · obtain ⟨hmem, heq⟩ := List.mem_filter.mp hk'
    exact hown k' hmem (beq_iff_eq.mp heq)

/-- The content with the issued key. -/
def issued (secrets : SecretService) (signature : SignatureService) (owner : Id) (db : Content) :
    Content :=
  db.after (withUow (ApiKeyService.create secrets signature owner))

theorem apiKeys_issued :
    k ∈ apiKeys (issued secrets signature owner db) ↔
      k = issuedKey secrets signature owner db.next ∨ k ∈ apiKeys db := by
  rw [mem_apiKeys, mem_apiKeys, issued, (issue_apiKey db).2]
  by_cases hid : k.id = db.next
  · rw [hid, Function.update_self]
    constructor
    · intro h
      cases h
      exact Or.inl rfl
    · rintro (rfl | h)
      · rfl
      · rw [db.bound _ le_rfl] at h
        cases h
  · rw [Function.update_of_ne hid]
    refine (or_iff_right ?_).symm
    rintro rfl
    exact hid rfl

theorem users_issued {u : UserRow} (hu : u ∈ users db) :
    u ∈ users (issued secrets signature owner db) := by
  have hrow := mem_users.mp hu
  rw [mem_users, issued, (issue_apiKey db).2, Function.update_of_ne]
  · exact hrow
  · exact (db.lt_next hrow).ne

variable {τ : Type} [DecidableEq τ] {calls : τ → HandlerCall} {d : Deployment}
  {s : Sys schema τ Unit} {ok : Sys schema τ Unit → Action τ → Prop} {jwt : PyJwt}
  {config : JwtConfig}

omit [DecidableEq τ] in
/-- A request whose key is found presents bytes with the signature of the key. -/
theorem exists_of_presentedKey {request : Request}
    (h : presentedKey signature env db request = some k) :
    k ∈ apiKeys db ∧ ∃ bytes, request.apiKey.bind b64decode = some bytes ∧
      signature.sign bytes = k.key := by
  unfold presentedKey at h
  cases hauth : truthy request.authorization with
  | some header =>
    rw [hauth] at h
    cases h
  | none =>
    rw [hauth] at h
    obtain ⟨bytes, hbytes, hrow⟩ := Option.bind_eq_some_iff.mp h
    obtain ⟨header, hheader, hdecode⟩ := Option.bind_eq_some_iff.mp hbytes
    obtain ⟨hmem, hkey⟩ := List.mem_filter.mp (List.mem_of_getElem? hrow)
    refine ⟨hmem, bytes, ?_, (beq_iff_eq.mp hkey).symm⟩
    rw [(Option.filter_eq_some_iff.mp hheader).1]
    exact hdecode

variable (jwt config env) in
/-- **API keys.** Issue a key whose signature nobody has yet, and let any handlers run on the
database after it, concurrently and with failures. Then a request that presents the text the client
was handed, and no `Authorization` header, is authenticated as the owner wherever keys are allowed.
And whoever presents a key that is found presents one from before, or bytes that have the signature
of the secret. -/
theorem issued_key_authenticates (howner : ∃ u ∈ users db, u.id = owner)
    (hfresh : ∀ k ∈ apiKeys db, k.key ≠ signature.sign (secretBytes secrets))
    (hs : Reach Sys.step ok
      (Sys.start (issued secrets signature owner db) fun t => (calls t).program d) s) :
    ∃ id header, db.result (withUow (ApiKeyService.create secrets signature owner)) =
        .ok (.ok ⟨id, .inr header⟩) ∧
      (∃ u ∈ users s.store.base, u.id = owner ∧ ∀ required,
        s.store.base.result
          (authenticate jwt config signature env required true { apiKey := some header }) =
            .ok (some (UserOrmRepository.toContext u))) ∧
      ∀ request k, presentedKey signature env s.store.base request = some k →
        k ∈ apiKeys db ∨ k.id = id ∧ ∃ bytes, request.apiKey.bind b64decode = some bytes ∧
          signature.sign bytes = signature.sign (secretBytes secrets) := by
  have hf : Follows (callRights calls) (issued secrets signature owner db) s.store.base :=
    follows_calls (.refl : Reach Sys.step ok _ _) hs
  have hkeys : ∀ k, k ∈ apiKeys s.store.base ↔
      k = issuedKey secrets signature owner db.next ∨ k ∈ apiKeys db := fun k => by
    rw [mem_apiKeys, apiKey_row_iff hf, ← mem_apiKeys, apiKeys_issued]
  refine ⟨db.next, b64encode (secretBytes secrets), (issue_apiKey db).1, ?_, ?_⟩
  · obtain ⟨u₀, hu₀, rfl⟩ := howner
    obtain ⟨u, hu, hkept⟩ := exists_kept hf (users_issued hu₀)
    refine ⟨u, hu, hkept.id, fun required => ?_⟩
    have hfound : apiKeyRow signature env s.store.base (secretBytes secrets) =
        some (issuedKey secrets signature u₀.id db.next) := by
      refine apiKeyRow_of_forall ((hkeys _).mpr (Or.inl rfl)) rfl fun k' hk' hkey => ?_
      exact ((hkeys k').mp hk').resolve_right fun hold => hfresh k' hold hkey
    rw [result_authenticate_apiKey rfl (truthy_of_ne (b64encode_secretBytes_ne_empty secrets))
      (b64decode_b64encode _), hfound]
    have huser : user? s.store.base u₀.id = some u := by
      rw [← hkept.id]
      exact user?_eq_some.mpr (mem_users.mp hu)
    show Except.ok ((user? s.store.base u₀.id).map UserOrmRepository.toContext) = _
    rw [huser]
    rfl
  · intro request k hk
    obtain ⟨hmem, bytes, hbytes, hkey⟩ := exists_of_presentedKey hk
    rcases (hkeys k).mp hmem with rfl | hold
    · exact Or.inr ⟨rfl, bytes, hbytes, hkey⟩
    · exact Or.inl hold

end

/-- A source of bytes without surprises. -/
def SecretService.constant : SecretService := ⟨fun n => .replicate n 7, fun _ => List.length_replicate⟩

/-- Ann gets a key and edits her profile while Bob signs up. -/
def annsKeyStart : Sys schema Bool Unit :=
  .start (issued .constant .plain 0 (contentOf [.user ann])) fun t => (annAndBob t).program .plain

def annsKeyRun : Option (Sys schema Bool Unit) :=
  runActions Sys.step (fun _ _ => True) annsKeyStart
    ([true, true, false, true, true, false, false].map .exec)

theorem isSome_annsKeyRun : annsKeyRun.isSome := by decide +kernel

theorem issued_key_authenticates_ann :
    ∃ header, ∃ u ∈ users (annsKeyRun.get isSome_annsKeyRun).store.base, u.id = 0 ∧
      (annsKeyRun.get isSome_annsKeyRun).store.base.result
        (authenticate .plain { secretKey := "key" } .plain (.at 0) true true
          { apiKey := some header }) = .ok (some (UserOrmRepository.toContext u)) := by
  have hann : ∃ u ∈ users (contentOf [.user ann]), u.id = 0 := by decide
  have hfresh : ∀ k ∈ apiKeys (contentOf [.user ann]),
      k.key ≠ SignatureService.plain.sign (secretBytes .constant) := by decide
  have hrun : Reach Sys.step (fun _ _ => True) annsKeyStart (annsKeyRun.get isSome_annsKeyRun) :=
    Reach.of_runActions (Option.some_get _).symm
  obtain ⟨id, header, -, ⟨u, hu, hid, hall⟩, -⟩ := issued_key_authenticates (.at 0) .plain
    { secretKey := "key" } hann hfresh hrun
  exact ⟨header, u, hu, hid, hall true⟩

end ApiTemplate.Identity
