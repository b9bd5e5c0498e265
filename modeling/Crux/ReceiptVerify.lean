import Crux.Bytes
import Crux.KeyMap

/-!
# Receipt verification

The check of one signed receipt: the hash of its body, the tenant the body names, and
the signature over the body by a key of the keyring; and the check of a stream receipt's
payload, which is rebuilt into such a receipt. When the outcome is `OK`, and which
tenants and receipt ids one body and signature can be reported for.
-/

namespace Crux.Receipts
open Crux.Bytes

inductive VerifyErrorCodeV1 where
  | Ok
  | BodyHashMismatch
  | BodyCborParseError
  | SigMissing
  | SigParseError
  | SigAlgUnsupported
  | SigReceiptIdMismatch
  | SigTenantMismatch
  | SigPayloadHashMismatch
  | KeyRingMissing
  | KeyNotFound
  | PubKeyInvalid
  | SigInvalid
deriving DecidableEq

def VerifyErrorCodeV1.as_str : VerifyErrorCodeV1 → String
  | .Ok => "OK"
  | .BodyHashMismatch => "BODY_HASH_MISMATCH"
  | .BodyCborParseError => "BODY_CBOR_PARSE_ERROR"
  | .SigMissing => "SIG_MISSING"
  | .SigParseError => "SIG_PARSE_ERROR"
  | .SigAlgUnsupported => "SIG_ALG_UNSUPPORTED"
  | .SigReceiptIdMismatch => "SIG_RECEIPT_ID_MISMATCH"
  | .SigTenantMismatch => "SIG_TENANT_MISMATCH"
  | .SigPayloadHashMismatch => "SIG_PAYLOAD_HASH_MISMATCH"
  | .KeyRingMissing => "KEYRING_MISSING"
  | .KeyNotFound => "KEY_NOT_FOUND"
  | .PubKeyInvalid => "PUBKEY_INVALID"
  | .SigInvalid => "SIG_INVALID"

theorem as_str_ok {code : VerifyErrorCodeV1} : code.as_str = "OK" ↔ code = .Ok := by
  cases code <;> decide

structure ReceiptSigV1 where
  schema : String
  receipt_id : String
  alg : String
  key_id : String
  signed_at : String
  signature : Bytes
  signed_payload_hash : Bytes
deriving DecidableEq

structure Ed25519KeyEntryV1 where
  key_id : String
  pub_key_base64 : String
deriving DecidableEq

structure Ed25519KeyRingV1 where
  v : UInt32
  keys : List Ed25519KeyEntryV1
deriving DecidableEq

inductive KeyRingError where
  | InvalidPubKey (key_id msg : String)
deriving DecidableEq

def KeyRingError.to_string : KeyRingError → String
  | .InvalidPubKey key_id msg => s!"invalid base64 pubkey for key_id={key_id}: {msg}"

structure BuildInfo where
  version : String
  commit : String
deriving DecidableEq

structure VerificationSigInfoV1 where
  alg : String
  key_id : Option String
deriving DecidableEq

structure VerificationIntegrityV1 where
  payload_hash_matches : Bool
  canonical_bytes_parse_ok : Bool
deriving DecidableEq

structure VerificationBindingV1 where
  tenant_bound : Bool
  receipt_id_bound : Bool
  chain_position_checked : Bool
deriving DecidableEq

structure VerificationReportV1 where
  schema : String
  receipt_id : String
  tenant_id : String
  payload_hash_hex : String
  signature : VerificationSigInfoV1
  integrity : VerificationIntegrityV1
  binding : VerificationBindingV1
  signature_valid : Bool
  pubkey_fingerprint : Option String
  error_code : String
  error_message : Option String
  verified_at : String
  verifier_build : String
deriving DecidableEq

structure VerifyReceiptInput where
  tenant_id : String
  receipt_id : String
  body_bytes : Bytes
  stored_body_payload_hash : FixedBytes 32
  sig_bytes : Option Bytes
  keyring : Option Ed25519KeyRingV1
  verified_at : String
  verifier_build : BuildInfo
deriving DecidableEq

/-- A CBOR value of the receipt body, as far as the verifier looks into it. -/
inductive Value where
  | Text (text : String)
  | Map (entries : List (Value × Value))
  | Other

/-- A JSON value, as far as the verifier of stream receipts looks into it. -/
inductive Json where
  | Str (text : String)
  | Object (fields : List (String × Json))
  | Other

/-- The crates the verifier is built on. Errors are the texts they print. -/
structure ReceiptCrates where
  blake3 : Bytes → FixedBytes 32
  parse_body : Bytes → Option Value
  parse_sig : Bytes → Except String ReceiptSigV1
  write_sig : ReceiptSigV1 → Except String Bytes
  base64_decode : String → Except String Bytes
  hex_decode : String → Except String Bytes
  /-- Why 32 bytes are not a verifying key. -/
  key_from_bytes : FixedBytes 32 → Except String Unit
  verify_strict : FixedBytes 32 → Bytes → FixedBytes 64 → Except String Unit

def hex32 (bytes : FixedBytes 32) : String :=
  String.ofList (bytes.val.flatMap fun b => [Nat.digitChar (b.toNat / 16), Nat.digitChar (b.toNat % 16)])

/-- The first pair of a map with the key `field`, among those of two texts. -/
def textEntry (field : String) : Value × Value → Option String
  | (.Text k, .Text v) => if k = field then some v else none
  | _ => none

def body_top_level_text (parsed_body : Option Value) (field : String) : Option String :=
  match parsed_body with
  | some (.Map map) => map.findSome? (textEntry field)
  | _ => none

section
variable (crates : ReceiptCrates)

def Ed25519KeyEntryV1.decode (k : Ed25519KeyEntryV1) : Except KeyRingError (FixedBytes 32) :=
  match crates.base64_decode k.pub_key_base64 with
  | .error e => .error (.InvalidPubKey k.key_id e)
  | .ok raw =>
    if is32 : raw.length = 32 then .ok ⟨raw, is32⟩
    else .error (.InvalidPubKey k.key_id s!"expected 32 bytes, got {raw.length}")

/-- The loop of `to_index_map` with the map built so far. -/
def indexKeys (out : Entries String (FixedBytes 32)) : List Ed25519KeyEntryV1 → Except KeyRingError (Entries String (FixedBytes 32))
  | [] => .ok out
  | k :: rest =>
    match k.decode crates with
    | .error e => .error e
    | .ok pk => indexKeys (out.put k.key_id pk) rest

def Ed25519KeyRingV1.to_index_map (keyring : Ed25519KeyRingV1) : Except KeyRingError (Entries String (FixedBytes 32)) :=
  indexKeys crates [] keyring.keys

section
variable (input : VerifyReceiptInput)

def VerifyReceiptInput.payload_hash_matches : Bool :=
  decide (crates.blake3 input.body_bytes = input.stored_body_payload_hash)

def VerifyReceiptInput.body_text (field : String) : Option String :=
  body_top_level_text (crates.parse_body input.body_bytes) field

/-- The report with the parts that the checks determine; `err` is outranked by a hash that does not match. -/
def VerifyReceiptInput.report (sig_info : VerificationSigInfoV1) (signature_valid : Bool)
    (pubkey_fingerprint : Option String) (err : VerifyErrorCodeV1) (err_msg : Option String) : VerificationReportV1 where
  schema := "cuecrux.receipt.verify.v1"
  receipt_id := input.receipt_id
  tenant_id := input.tenant_id
  payload_hash_hex := hex32 input.stored_body_payload_hash
  signature := sig_info
  integrity :=
    { payload_hash_matches := input.payload_hash_matches crates
      canonical_bytes_parse_ok := (crates.parse_body input.body_bytes).isSome }
  binding :=
    { tenant_bound := decide (input.body_text crates "tenant_id" = some input.tenant_id)
      receipt_id_bound := decide (input.body_text crates "receipt_id" = some input.receipt_id)
      chain_position_checked := false }
  signature_valid := signature_valid
  pubkey_fingerprint := pubkey_fingerprint
  error_code := (if input.payload_hash_matches crates then err else .BodyHashMismatch).as_str
  error_message := err_msg
  verified_at := input.verified_at
  verifier_build := s!"{input.verifier_build.version}@{input.verifier_build.commit}"

/-- "stored=… computed=…" of a hash that does not match. -/
def VerifyReceiptInput.hash_mismatch : String :=
  s!"payload_hash mismatch: stored={hex32 input.stored_body_payload_hash} computed={hex32 (crates.blake3 input.body_bytes)}"

end

/-- What a signed payload hash is printed as. -/
def gotHash (signed_payload_hash : Bytes) : String :=
  if is32 : signed_payload_hash.length = 32 then hex32 ⟨signed_payload_hash, is32⟩ else s!"len({signed_payload_hash.length})"

/-- The check of the signature bytes with the key of the keyring. -/
def VerifyReceiptInput.check_signature (input : VerifyReceiptInput) (sig : ReceiptSigV1) (pk_bytes : FixedBytes 32) :
    VerificationReportV1 :=
  let sig_info : VerificationSigInfoV1 := { alg := sig.alg, key_id := some sig.key_id }
  match crates.key_from_bytes pk_bytes with
  | .error e => input.report crates sig_info false none .PubKeyInvalid (some e)
  | .ok _ =>
    let fingerprint := some (hex32 (crates.blake3 pk_bytes.val))
    if is64 : sig.signature.length = 64 then
      match crates.verify_strict pk_bytes input.body_bytes ⟨sig.signature, is64⟩ with
      | .ok _ =>
        if (crates.parse_body input.body_bytes).isSome then input.report crates sig_info true fingerprint .Ok none
        else
          input.report crates sig_info true fingerprint .BodyCborParseError
            (if input.payload_hash_matches crates then some "receipt body payload is not valid CBOR" else none)
      | .error e =>
        input.report crates sig_info false fingerprint .SigInvalid
          (some (if input.payload_hash_matches crates then e else s!"{input.hash_mismatch crates}; sig_error={e}"))
    else input.report crates sig_info false fingerprint .SigInvalid (some s!"signature length {sig.signature.length} != 64")

/-- The checks of the parsed envelope, up to the key that is looked up in the keyring. -/
def VerifyReceiptInput.check_envelope (input : VerifyReceiptInput) (sig : ReceiptSigV1) : VerificationReportV1 :=
  let sig_info : VerificationSigInfoV1 := { alg := sig.alg, key_id := some sig.key_id }
  let failed := input.report crates sig_info false none
  if sig.alg ≠ "ed25519" then failed .SigAlgUnsupported (some s!"unsupported alg {sig.alg}")
  else if sig.receipt_id ≠ input.receipt_id then
    failed .SigReceiptIdMismatch (some s!"sig receipt_id mismatch: expected {input.receipt_id} got {sig.receipt_id}")
  else if sig.signed_payload_hash.length ≠ 32 ∨ sig.signed_payload_hash ≠ input.stored_body_payload_hash.val then
    failed .SigPayloadHashMismatch
      (some s!"signed_payload_hash mismatch: expected {hex32 input.stored_body_payload_hash} got {gotHash sig.signed_payload_hash}")
  else
    match input.keyring with
    | none => failed .KeyRingMissing (some "no keyring configured")
    | some keyring =>
      match keyring.to_index_map crates with
      | .error e => failed .PubKeyInvalid (some e.to_string)
      | .ok key_map =>
        match key_map.get sig.key_id with
        | none => failed .KeyNotFound (some s!"key_id {sig.key_id} not found")
        | some pk_bytes => input.check_signature crates sig pk_bytes

def verify_receipt_v1 (input : VerifyReceiptInput) : VerificationReportV1 :=
  let failed := input.report crates { alg := "ed25519", key_id := none } false none
  match (input.body_text crates "tenant_id").filter (fun t => t ≠ input.tenant_id) with
  | some found => failed .SigTenantMismatch (some s!"signed body tenant_id mismatch: expected {input.tenant_id} got {found}")
  | none =>
    match input.sig_bytes with
    | none => failed .SigMissing (if input.payload_hash_matches crates then none else some (input.hash_mismatch crates))
    | some sig_bytes =>
      match crates.parse_sig sig_bytes with
      | .error e => failed .SigParseError (some e)
      | .ok sig => input.check_envelope crates sig

def CONTEXT_INJECTED_KIND_V1 : String := "context_injected"
def STREAM_COMPLETED_KIND_V1 : String := "stream_completed"
def STREAM_ABORTED_KIND_V1 : String := "stream_aborted"
def MODEL_INVOCATION_KIND_V1 : String := "model_invocation"

def STREAM_RECEIPT_KINDS_V1 : List String :=
  [CONTEXT_INJECTED_KIND_V1, STREAM_COMPLETED_KIND_V1, STREAM_ABORTED_KIND_V1, MODEL_INVOCATION_KIND_V1]

def SIGNED_FIELDS_V1 : List String := ["kind", "receipt_id", "tenant_id"]

def MODEL_INVOCATION_SIGNED_FIELDS_V1 : List String :=
  ["invocation_id", "provider", "model_id", "model_version", "provider_request_id", "prompt_hash", "retrieval_set_hash",
    "output_hash"]

structure VerifiedStreamReceiptPayloadV1 where
  signed : Entries String String
  report : VerificationReportV1
deriving DecidableEq

def VerifiedStreamReceiptPayloadV1.kind (v : VerifiedStreamReceiptPayloadV1) : Option String := v.signed.get "kind"

def VerifiedStreamReceiptPayloadV1.is_verified (v : VerifiedStreamReceiptPayloadV1) : Bool :=
  decide (v.report.error_code = "OK") && v.report.signature_valid && v.report.binding.tenant_bound
    && v.report.binding.receipt_id_bound && v.kind.any fun kind => STREAM_RECEIPT_KINDS_V1.contains kind

/-- `value.get(field)`. -/
def Json.field : Json → String → Option Json
  | .Object fields, name => (fields.find? fun entry => entry.1 = name).map Prod.snd
  | _, _ => none

/-- The text of a field, or the error that it is missing. -/
def payloadText (value : Json) (field : String) : Except String String :=
  match value.field field with
  | some (.Str text) => .ok text
  | _ => .error s!"stream receipt payload is missing {field}"

def orDecodeError (what : String) : Except String Bytes → Except String Bytes
  | .ok bytes => .ok bytes
  | .error err => .error s!"{what} is not hex: {err}"

/-- The 32 bytes of a text `blake3:<64 hex>`. -/
def bodyHash (text : String) : Except String (FixedBytes 32) :=
  let malformed := Except.error "body_hash must be blake3:<64 hex>"
  if "blake3:".toList.isPrefixOf text.toList then
    match crates.hex_decode (String.ofList (text.toList.drop 7)) with
    | .error _ => malformed
    | .ok bytes => if is32 : bytes.length = 32 then .ok ⟨bytes, is32⟩ else malformed
  else malformed

/-- The fields of the signed body that the result repeats. -/
def signedFields (body_bytes : Bytes) : Entries String String :=
  let text := body_top_level_text (crates.parse_body body_bytes)
  let extra := if text "kind" = some MODEL_INVOCATION_KIND_V1 then MODEL_INVOCATION_SIGNED_FIELDS_V1 else []
  (SIGNED_FIELDS_V1 ++ extra).filterMap fun field => (text field).map fun value => (field, value)

/-- The bytes of the payload's body. -/
def payloadBody (payload : Json) : Except String Bytes := do
  let body_hex ← payloadText payload "body_cbor_hex"
  orDecodeError "body_cbor_hex" (crates.hex_decode body_hex)

def payloadSig (payload : Json) : Except String Json :=
  match payload.field "sig" with
  | some sig => .ok sig
  | none => .error "stream receipt payload is missing sig"

def encodeEnvelope (envelope : ReceiptSigV1) : Except String Bytes :=
  match crates.write_sig envelope with
  | .ok bytes => .ok bytes
  | .error err => .error s!"encode sig envelope: {err}"

def verify_stream_receipt_payload_v1 (payload : Json) (tenant_id : String) (keyring : Ed25519KeyRingV1) (verified_at : String)
    (verifier_build : BuildInfo) : Except String VerifiedStreamReceiptPayloadV1 := do
  let receipt_id ← payloadText payload "receipt_id"
  let body_bytes ← payloadBody crates payload
  let body_hash_text ← payloadText payload "body_hash"
  let body_hash ← bodyHash crates body_hash_text
  let sig ← payloadSig payload
  let schema ← payloadText sig "schema"
  let alg ← payloadText sig "alg"
  let key_id ← payloadText sig "key_id"
  let signed_at ← payloadText sig "signed_at"
  let signature_hex ← payloadText sig "signature_hex"
  let signature ← orDecodeError "signature_hex" (crates.hex_decode signature_hex)
  let envelope : ReceiptSigV1 := { schema, receipt_id, alg, key_id, signed_at, signature, signed_payload_hash := body_hash.val }
  let sig_bytes ← encodeEnvelope crates envelope
  let report := verify_receipt_v1 crates
    { tenant_id, receipt_id, body_bytes, stored_body_payload_hash := body_hash, sig_bytes := some sig_bytes
      keyring := some keyring, verified_at, verifier_build }
  .ok { signed := signedFields crates body_bytes, report }

/-- The key a keyring gives for an id: that of the last entry with the id. -/
def LastKey (keys : List Ed25519KeyEntryV1) (key_id : String) (pk : FixedBytes 32) : Prop :=
  ∃ before entry after, keys = before ++ entry :: after ∧ entry.key_id = key_id ∧ entry.decode crates = .ok pk ∧
    ∀ later ∈ after, later.key_id ≠ key_id

/-- Every entry of a keyring is a key of 32 bytes. -/
def AllDecode (keys : List Ed25519KeyEntryV1) : Prop := ∀ entry ∈ keys, ∃ pk, entry.decode crates = .ok pk

variable {crates}

theorem indexKeys_ok_iff (out : Entries String (FixedBytes 32)) (keys : List Ed25519KeyEntryV1) :
    (∃ key_map, indexKeys crates out keys = .ok key_map) ↔ AllDecode crates keys := by
  induction keys generalizing out with
  | nil => simp [indexKeys, AllDecode]
  | cons entry rest ih =>
    unfold AllDecode
    rw [List.forall_mem_cons, indexKeys]
    cases entry.decode crates with
    | error e => simp
    | ok pk =>
      have later := ih (out.put entry.key_id pk)
      unfold AllDecode at later
      simp [later]

theorem lastKey_cons : LastKey crates (entry :: rest) key_id pk ↔ LastKey crates rest key_id pk ∨
        (entry.key_id = key_id ∧ entry.decode crates = .ok pk ∧ ∀ later ∈ rest, later.key_id ≠ key_id) := by
  constructor
  · rintro ⟨before, found, after, split, named, decoded, last⟩
    cases before with
    | nil =>
      cases split
      exact .inr ⟨named, decoded, last⟩
    | cons first before =>
      cases split
      exact .inl ⟨before, found, after, rfl, named, decoded, last⟩
  · rintro (⟨before, found, after, rfl, named, decoded, last⟩ | ⟨named, decoded, last⟩)
    · exact ⟨entry :: before, found, after, rfl, named, decoded, last⟩
    · exact ⟨[], entry, rest, rfl, named, decoded, last⟩

theorem indexKeys_get (indexed : indexKeys crates out keys = .ok key_map) (key_id : String) (pk : FixedBytes 32) :
    key_map.get key_id = some pk ↔
      LastKey crates keys key_id pk ∨ ((∀ entry ∈ keys, entry.key_id ≠ key_id) ∧ out.get key_id = some pk) := by
  induction keys generalizing out with
  | nil =>
    cases indexed
    simp [LastKey]
  | cons entry rest ih =>
    rw [indexKeys] at indexed
    cases decoded : entry.decode crates with
    | error e =>
      rw [decoded] at indexed
      cases indexed
    | ok found =>
      rw [decoded] at indexed
      rw [ih indexed, lastKey_cons, Entries.get_put, List.forall_mem_cons, decoded]
      by_cases named : entry.key_id = key_id
      · simp [named, and_comm]
      · simp [named, Ne.symm named]

variable (crates)

/-- What a receipt must be for the outcome `OK`. -/
structure Accepted (input : VerifyReceiptInput) : Prop where
  hash_matches : crates.blake3 input.body_bytes = input.stored_body_payload_hash
  no_other_tenant : ∀ tenant, input.body_text crates "tenant_id" = some tenant → tenant = input.tenant_id
  signed : ∃ sig_bytes sig, input.sig_bytes = some sig_bytes ∧ crates.parse_sig sig_bytes = .ok sig ∧ sig.alg = "ed25519" ∧
    sig.receipt_id = input.receipt_id ∧ sig.signed_payload_hash = input.stored_body_payload_hash.val ∧
    ∃ keyring pk, input.keyring = some keyring ∧ AllDecode crates keyring.keys ∧ LastKey crates keyring.keys sig.key_id pk ∧
      crates.key_from_bytes pk = .ok () ∧
      ∃ is64 : sig.signature.length = 64, crates.verify_strict pk input.body_bytes ⟨sig.signature, is64⟩ = .ok ()
  body_parses : (crates.parse_body input.body_bytes).isSome = true

variable {crates} {input : VerifyReceiptInput}

theorem report_ok_iff : (input.report crates sig_info valid fingerprint err err_msg).error_code = "OK" ↔
      crates.blake3 input.body_bytes = input.stored_body_payload_hash ∧ err = .Ok := by
  unfold VerifyReceiptInput.report VerifyReceiptInput.payload_hash_matches
  rw [as_str_ok]
  by_cases same : crates.blake3 input.body_bytes = input.stored_body_payload_hash <;> simp [same]

theorem check_signature_ok_iff : (input.check_signature crates sig pk).error_code = "OK" ↔
      crates.blake3 input.body_bytes = input.stored_body_payload_hash ∧ crates.key_from_bytes pk = .ok () ∧
        (∃ is64 : sig.signature.length = 64, crates.verify_strict pk input.body_bytes ⟨sig.signature, is64⟩ = .ok ()) ∧
        (crates.parse_body input.body_bytes).isSome = true := by
  unfold VerifyReceiptInput.check_signature
  cases crates.key_from_bytes pk with
  | error e => simp [report_ok_iff]
  | ok _ =>
    by_cases is64 : sig.signature.length = 64
    · cases checked : crates.verify_strict pk input.body_bytes ⟨sig.signature, is64⟩ with
      | error e => simp [report_ok_iff, is64, checked]
      | ok _ =>
        by_cases parsed : (crates.parse_body input.body_bytes).isSome = true <;> simp [report_ok_iff, parsed, is64, checked]
    · simp [report_ok_iff, is64]

theorem check_envelope_ok_iff {sig : ReceiptSigV1} : (input.check_envelope crates sig).error_code = "OK" ↔
      sig.alg = "ed25519" ∧ sig.receipt_id = input.receipt_id ∧ sig.signed_payload_hash = input.stored_body_payload_hash.val ∧
        ∃ keyring pk, input.keyring = some keyring ∧ AllDecode crates keyring.keys ∧ LastKey crates keyring.keys sig.key_id pk ∧
          (input.check_signature crates sig pk).error_code = "OK" := by
  unfold VerifyReceiptInput.check_envelope
  by_cases alg : sig.alg = "ed25519"
  case neg => simp [report_ok_iff, alg]
  by_cases receipt : sig.receipt_id = input.receipt_id
  case neg => simp [report_ok_iff, alg, receipt]
  by_cases hash : sig.signed_payload_hash = input.stored_body_payload_hash.val
  case neg => simp [report_ok_iff, alg, receipt, hash]
  simp only [alg, receipt, hash, input.stored_body_payload_hash.property, ne_eq, not_true_eq_false, or_self, if_false,
    true_and]
  cases input.keyring with
  | none => simp [report_ok_iff]
  | some keyring =>
    have decoding : _ ↔ AllDecode crates keyring.keys := indexKeys_ok_iff [] keyring.keys
    simp only [Option.some.injEq, exists_and_left, exists_eq_left']
    cases indexed : keyring.to_index_map crates with
    | error e =>
      have broken : ¬ AllDecode crates keyring.keys := by
        rw [← decoding]
        rintro ⟨key_map, built⟩
        cases indexed.symm.trans built
      simp [report_ok_iff, broken]
    | ok key_map =>
      have whole : AllDecode crates keyring.keys := decoding.mp ⟨key_map, indexed⟩
      have found : ∀ pk, key_map.get sig.key_id = some pk ↔ LastKey crates keyring.keys sig.key_id pk := by
        simpa [Entries.get] using indexKeys_get indexed sig.key_id
      dsimp only
      cases here : key_map.get sig.key_id with
      | none =>
        rw [here] at found
        simp at found
        simp [report_ok_iff, found]
      | some pk =>
        rw [here] at found
        simp [whole, ← found]

theorem verify_receipt_ok_iff : (verify_receipt_v1 crates input).error_code = "OK" ↔ Accepted crates input := by
  unfold verify_receipt_v1
  by_cases other : ∃ tenant, input.body_text crates "tenant_id" = some tenant ∧ tenant ≠ input.tenant_id
  · obtain ⟨tenant, declared, differs⟩ := other
    have refused : ¬ Accepted crates input := fun accepted => differs (accepted.no_other_tenant tenant declared)
    simp [declared, Option.filter, differs, report_ok_iff, refused]
  · have own : ∀ tenant, input.body_text crates "tenant_id" = some tenant → tenant = input.tenant_id := by
      intro tenant declared
      by_contra differs
      exact other ⟨tenant, declared, differs⟩
    have kept : (input.body_text crates "tenant_id").filter (fun t => t ≠ input.tenant_id) = none := by
      rw [Option.filter_eq_none_iff]
      intro tenant declared
      simpa using own tenant declared
    rw [kept]
    cases carried : input.sig_bytes with
    | none =>
      have refused : ¬ Accepted crates input := by
        rintro ⟨_, _, ⟨sig_bytes, _, given, _⟩, _⟩
        cases carried.symm.trans given
      simp [report_ok_iff, refused]
    | some sig_bytes =>
      dsimp only
      cases read : crates.parse_sig sig_bytes with
      | error e =>
        have refused : ¬ Accepted crates input := by
          rintro ⟨_, _, ⟨given_bytes, sig, given, parsed, _⟩, _⟩
          cases carried.symm.trans given
          cases read.symm.trans parsed
        simp [report_ok_iff, refused]
      | ok sig =>
        rw [check_envelope_ok_iff]
        constructor
        · rintro ⟨alg, receipt, hash, keyring, pk, configured, whole, last, checked⟩
          obtain ⟨matched, key, verified, parsed⟩ := check_signature_ok_iff.mp checked
          exact ⟨matched, own, ⟨sig_bytes, sig, carried, read, alg, receipt, hash, keyring, pk, configured, whole, last, key,
            verified⟩, parsed⟩
        · rintro ⟨matched, _, ⟨given_bytes, given_sig, given, parsed_sig, alg, receipt, hash, keyring, pk, configured, whole,
            last, key, verified⟩, parsed⟩
          cases carried.symm.trans given
          cases read.symm.trans parsed_sig
          exact ⟨alg, receipt, hash, keyring, pk, configured, whole, last,
            check_signature_ok_iff.mpr ⟨matched, key, verified, parsed⟩⟩

theorem check_signature_binding (input : VerifyReceiptInput) (sig : ReceiptSigV1) (pk : FixedBytes 32) :
    (input.check_signature crates sig pk).binding = (input.report crates ⟨"", none⟩ false none .Ok none).binding := by
  unfold VerifyReceiptInput.check_signature
  cases crates.key_from_bytes pk with
  | error e => rfl
  | ok _ =>
    dsimp only
    by_cases is64 : sig.signature.length = 64
    · rw [dif_pos is64]
      cases crates.verify_strict pk input.body_bytes ⟨sig.signature, is64⟩ with
      | error e => rfl
      | ok _ => by_cases parsed : (crates.parse_body input.body_bytes).isSome = true <;> simp only [parsed] <;> rfl
    · rw [dif_neg is64]
      rfl

theorem check_envelope_binding (input : VerifyReceiptInput) (sig : ReceiptSigV1) :
    (input.check_envelope crates sig).binding = (input.report crates ⟨"", none⟩ false none .Ok none).binding := by
  unfold VerifyReceiptInput.check_envelope
  split_ifs
  · rfl
  · rfl
  · rfl
  · cases input.keyring with
    | none => rfl
    | some keyring =>
      dsimp only
      cases keyring.to_index_map crates with
      | error e => rfl
      | ok key_map =>
        dsimp only
        cases key_map.get sig.key_id with
        | none => rfl
        | some pk => exact check_signature_binding input sig pk

theorem verify_receipt_binding (input : VerifyReceiptInput) : (verify_receipt_v1 crates input).binding =
      { tenant_bound := decide (input.body_text crates "tenant_id" = some input.tenant_id)
        receipt_id_bound := decide (input.body_text crates "receipt_id" = some input.receipt_id)
        chain_position_checked := false } := by
  unfold verify_receipt_v1
  cases (input.body_text crates "tenant_id").filter (fun t => t ≠ input.tenant_id) with
  | some found => rfl
  | none =>
    cases input.sig_bytes with
    | none => rfl
    | some sig_bytes =>
      dsimp only
      cases crates.parse_sig sig_bytes with
      | error e => rfl
      | ok sig => exact check_envelope_binding input sig

/-- One signature is accepted for the receipt id it names only. -/
theorem accepted_receipt_id (accepted : Accepted crates input) (accepted_other : Accepted crates other)
    (same : other.sig_bytes = input.sig_bytes) :
    other.receipt_id = input.receipt_id := by
  obtain ⟨sig_bytes, sig, carried, read, _, receipt, _⟩ := accepted.signed
  obtain ⟨other_bytes, other_sig, other_carried, other_read, _, other_receipt, _⟩ := accepted_other.signed
  rw [same, carried] at other_carried
  cases other_carried
  rw [read] at other_read
  cases other_read
  rw [← receipt, ← other_receipt]

/-- An accepted receipt is accepted for another tenant too exactly when its body names none. -/
theorem accepted_tenant_iff (accepted : Accepted crates input) (tenant : String) :
    Accepted crates { input with tenant_id := tenant } ↔
      tenant = input.tenant_id ∨ input.body_text crates "tenant_id" = none := by
  constructor
  · intro relabelled
    cases declared : input.body_text crates "tenant_id" with
    | none => exact .inr rfl
    | some named =>
      have own := accepted.no_other_tenant named declared
      have other := relabelled.no_other_tenant named declared
      exact .inl (other.symm.trans own)
  · rintro (rfl | unnamed)
    · exact accepted
    · refine ⟨accepted.hash_matches, ?_, accepted.signed, accepted.body_parses⟩
      intro named declared
      cases unnamed.symm.trans declared

theorem stream_verified_named (run : verify_stream_receipt_payload_v1 crates payload tenant keyring verified_at build = .ok v)
    (verified : v.is_verified = true) :
    ∃ body_bytes receipt_id, payloadBody crates payload = .ok body_bytes ∧ payloadText payload "receipt_id" = .ok receipt_id ∧
      body_top_level_text (crates.parse_body body_bytes) "tenant_id" = some tenant ∧
      body_top_level_text (crates.parse_body body_bytes) "receipt_id" = some receipt_id := by
  simp only [verify_stream_receipt_payload_v1, bind_ok_iff] at run
  obtain ⟨receipt_id, has_id, body_bytes, has_body, _, _, body_hash, _, _, _, _, _, _, _, _, _, _, _, _, _, _, _, _, _, run⟩ := run
  cases run
  simp only [VerifiedStreamReceiptPayloadV1.is_verified, verify_receipt_binding, Bool.and_eq_true, decide_eq_true_eq] at verified
  obtain ⟨⟨⟨_, names_tenant⟩, names_receipt⟩, _⟩ := verified
  exact ⟨body_bytes, receipt_id, has_body, has_id, names_tenant, names_receipt⟩

variable (crates)

/-- The outcome `OK` characterised; one signature is OK for one receipt id; one body is OK for two tenants exactly when it names
none, and is then reported as not bound; a verified stream receipt is bound to one tenant and one receipt id by its body. -/
theorem receipt_ok_iff_and_binding :
    (∀ input, (verify_receipt_v1 crates input).error_code = "OK" ↔ Accepted crates input) ∧
    (∀ input other, (verify_receipt_v1 crates input).error_code = "OK" → (verify_receipt_v1 crates other).error_code = "OK" →
      other.sig_bytes = input.sig_bytes → other.receipt_id = input.receipt_id) ∧
    (∀ input tenant, (verify_receipt_v1 crates input).error_code = "OK" →
      ((verify_receipt_v1 crates { input with tenant_id := tenant }).error_code = "OK" ↔
        tenant = input.tenant_id ∨ input.body_text crates "tenant_id" = none)) ∧
    (∀ input, (verify_receipt_v1 crates input).error_code = "OK" →
      ((verify_receipt_v1 crates input).binding.tenant_bound = false ↔ input.body_text crates "tenant_id" = none)) ∧
    (∀ payload other tenant other_tenant keyring other_keyring verified_at other_at build other_build v w,
      verify_stream_receipt_payload_v1 crates payload tenant keyring verified_at build = .ok v →
      verify_stream_receipt_payload_v1 crates other other_tenant other_keyring other_at other_build = .ok w →
      v.is_verified = true → w.is_verified = true → payloadBody crates other = payloadBody crates payload →
      other_tenant = tenant ∧ payloadText other "receipt_id" = payloadText payload "receipt_id") := by
  refine ⟨fun input => verify_receipt_ok_iff, ?_, ?_, ?_, ?_⟩
  · intro input other ok other_ok same
    exact accepted_receipt_id (verify_receipt_ok_iff.mp ok) (verify_receipt_ok_iff.mp other_ok) same
  · intro input tenant ok
    rw [verify_receipt_ok_iff]
    exact accepted_tenant_iff (verify_receipt_ok_iff.mp ok) tenant
  · intro input ok
    have own := (verify_receipt_ok_iff.mp ok).no_other_tenant
    rw [verify_receipt_binding]
    cases declared : input.body_text crates "tenant_id" with
    | none => simp
    | some named => simp [own named declared]
  · intro payload other tenant other_tenant _ _ _ _ _ _ v w run other_run verified other_verified same
    obtain ⟨body, receipt_id, has_body, has_id, names_tenant, names_receipt⟩ := stream_verified_named run verified
    obtain ⟨other_body, other_id, other_has_body, other_has_id, other_tenant_named, other_receipt_named⟩ :=
      stream_verified_named other_run other_verified
    rw [same, has_body] at other_has_body
    cases other_has_body
    rw [names_tenant] at other_tenant_named
    rw [names_receipt] at other_receipt_named
    cases other_tenant_named
    cases other_receipt_named
    exact ⟨rfl, other_has_id.trans has_id.symm⟩

end

def sampleSig : ReceiptSigV1 where
  schema := "cuecrux.receipt.sig.v1"
  receipt_id := "r1"
  alg := "ed25519"
  key_id := "k1"
  signed_at := "2026-01-01T00:00:00Z"
  signature := List.replicate 64 7
  signed_payload_hash := List.replicate 32 5

/-- Bodies of one byte: the first names no tenant, the second a tenant and a receipt id. -/
def sampleCrates : ReceiptCrates where
  blake3 _ := fixed 32 (List.replicate 32 5)
  parse_body bytes :=
    if bytes = [1] then some (.Map [(.Text "kind", .Text "stream_completed")])
    else if bytes = [2] then
      some (.Map [(.Text "kind", .Text "stream_completed"), (.Text "receipt_id", .Text "r1"), (.Text "tenant_id", .Text "work")])
    else none
  parse_sig _ := .ok sampleSig
  write_sig _ := .ok []
  base64_decode text := if text = "BwcH" then .ok (List.replicate 32 7) else .error "Invalid padding"
  hex_decode text :=
    if text = "02" then .ok [2] else if text = "05" then .ok (List.replicate 32 5) else .ok (List.replicate 64 7)
  key_from_bytes _ := .ok ()
  verify_strict pk _ signature := if signature.val = pk.val ++ pk.val then .ok () else .error "Verification equation was not satisfied"

def sampleInput (tenant : String) (body : Bytes) (keys : List Ed25519KeyEntryV1) : VerifyReceiptInput where
  tenant_id := tenant
  receipt_id := "r1"
  body_bytes := body
  stored_body_payload_hash := fixed 32 (List.replicate 32 5)
  sig_bytes := some []
  keyring := some { v := 1, keys }
  verified_at := "2026-01-01T00:00:00Z"
  verifier_build := { version := "1.0.0", commit := "abc" }

def samplePayload : Json :=
  .Object [("receipt_id", .Str "r1"), ("body_cbor_hex", .Str "02"), ("body_hash", .Str "blake3:05"),
    ("sig", .Object [("schema", .Str "cuecrux.receipt.sig.v1"), ("alg", .Str "ed25519"), ("key_id", .Str "k1"),
      ("signed_at", .Str "2026-01-01T00:00:00Z"), ("signature_hex", .Str "07")])]

/-- A body that names no tenant is OK for two tenants; and a keyring whose other entry is malformed is refused although it holds
the key that verifies. -/
theorem unnamed_tenant_ok_for_two :
    (verify_receipt_v1 sampleCrates (sampleInput "work" [1] [⟨"k1", "BwcH"⟩])).error_code = "OK" ∧
      (verify_receipt_v1 sampleCrates (sampleInput "home" [1] [⟨"k1", "BwcH"⟩])).error_code = "OK" ∧
      (verify_receipt_v1 sampleCrates (sampleInput "work" [1] [⟨"k1", "BwcH"⟩, ⟨"k2", "?"⟩])).error_code = "PUBKEY_INVALID" := by
  decide +kernel

theorem named_tenant_ok_for_one :
    (verify_receipt_v1 sampleCrates (sampleInput "work" [2] [⟨"k1", "BwcH"⟩])).error_code = "OK" ∧
      (verify_receipt_v1 sampleCrates (sampleInput "home" [2] [⟨"k1", "BwcH"⟩])).error_code ≠ "OK" ∧
      (∃ v, verify_stream_receipt_payload_v1 sampleCrates samplePayload "work" ⟨1, [⟨"k1", "BwcH"⟩]⟩ "" ⟨"1.0.0", "abc"⟩ = .ok v ∧
        v.is_verified = true ∧
        ∀ tenant w, verify_stream_receipt_payload_v1 sampleCrates samplePayload tenant ⟨1, [⟨"k1", "BwcH"⟩]⟩ "" ⟨"1.0.0", "abc"⟩ =
          .ok w → w.is_verified = true → tenant = "work") := by
  obtain ⟨_, _, tenants, _, stream⟩ := receipt_ok_iff_and_binding sampleCrates
  have ok : (verify_receipt_v1 sampleCrates (sampleInput "work" [2] [⟨"k1", "BwcH"⟩])).error_code = "OK" := by decide +kernel
  refine ⟨ok, ?_, ?_⟩
  · intro relabelled
    have outcome := (tenants _ "home" ok).mp relabelled
    revert outcome
    decide +kernel
  · have passed : (verify_stream_receipt_payload_v1 sampleCrates samplePayload "work" ⟨1, [⟨"k1", "BwcH"⟩]⟩ ""
        ⟨"1.0.0", "abc"⟩).toOption.map (fun v => v.is_verified) = some true := by decide +kernel
    cases run : verify_stream_receipt_payload_v1 sampleCrates samplePayload "work" ⟨1, [⟨"k1", "BwcH"⟩]⟩ "" ⟨"1.0.0", "abc"⟩ with
    | error e =>
      rw [run] at passed
      cases passed
    | ok v =>
      rw [run] at passed
      have verified : v.is_verified = true := Option.some.inj passed
      refine ⟨v, rfl, verified, ?_⟩
      intro tenant w other_run other_verified
      exact (stream _ _ _ _ _ _ _ _ _ _ _ _ run other_run verified other_verified rfl).1

end Crux.Receipts
