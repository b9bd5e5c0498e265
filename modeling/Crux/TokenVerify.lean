import Crux.TokenTypes

/-!
# Verifying capability tokens

The checks of `rcx-capability-token`: the structural validation of a token,
the issuer's signature, and `verify_token_attenuated`, which admits a request
under a token that its subject may have delegated once. BLAKE3 and Ed25519 are
parameters.
-/

namespace Crux.Rcx
open Crux.Bytes
open Crux.Session (CborValue as_bytes)

/-- What the crates `blake3` and `ed25519_dalek` answer. -/
structure TokenCrates where
  blake3 : Bytes → FixedBytes RCX_CT_HASH_LEN
  /-- `VerifyingKey::from_bytes` accepts the bytes. -/
  from_bytes : FixedBytes RCX_CT_PUBLIC_KEY_LEN → Bool
  verify_strict : FixedBytes RCX_CT_PUBLIC_KEY_LEN → Bytes → FixedBytes RCX_CT_SIGNATURE_LEN → Bool

def RCX_MAX_DELEGATION_CAVEATS : Nat := 16
def RCX_MAX_DELEGATION_SCOPES : Nat := 64
def RCX_MAX_DELEGATION_PRINCIPALS : Nat := 64
def RCX_MAX_DELEGATION_VALUE_LEN : Nat := 128
def RCX_DELEGATION_ENVELOPE_VERSION : UInt8 := 1
def RCX_HOSTED_BACKEND_ID : String := "hosted.vaultcrux.com"
def RCX_CUSTOMER_BACKEND_PREFIX : String := "customer:"
def PASSPORT_FPR_BYTES : Nat := 16

/-- `char::is_whitespace`. -/
def is_whitespace (c : Char) : Bool :=
  let n := c.toNat
  (9 ≤ n && n ≤ 13) || n = 0x20 || n = 0x85 || n = 0xA0 || n = 0x1680 || (0x2000 ≤ n && n ≤ 0x200A)
    || n = 0x2028 || n = 0x2029 || n = 0x202F || n = 0x205F || n = 0x3000

/-- `char::is_control`. -/
def is_control (c : Char) : Bool := c.toNat ≤ 0x1F || (0x7F ≤ c.toNat && c.toNat ≤ 0x9F)

/-- `s.trim().is_empty()`. -/
def trimmed_is_empty (s : String) : Bool := s.toList.all is_whitespace

def starts_with (s start : String) : Bool := (as_bytes start).isPrefixOf (as_bytes s)

/-- `xs.windows(2).all(|pair| pair[0] < pair[1])`. -/
def strictly_ascending (xs : List String) : Bool :=
  (xs.zip xs.tail).all fun pair => as_bytes pair.1 < as_bytes pair.2

/-- `hex::encode`. -/
def hex_encode (bytes : Bytes) : String :=
  String.ofList (bytes.flatMap fun b => [Nat.digitChar (b.toNat / 16), Nat.digitChar (b.toNat % 16)])

def saturating_add (a b : UInt64) : UInt64 := if a.toNat + b.toNat < 2 ^ 64 then a + b else 0xFFFFFFFFFFFFFFFF

def valid_delegation_value (value : String) : Bool :=
  !(as_bytes value).isEmpty && (as_bytes value).length ≤ RCX_MAX_DELEGATION_VALUE_LEN && !value.toList.any is_control

def is_ascii_digit (b : UInt8) : Bool := 48 ≤ b && b ≤ 57

def is_ascii_alphanumeric (b : UInt8) : Bool := is_ascii_digit b || (65 ≤ b && b ≤ 90) || (97 ≤ b && b ≤ 122)

def valid_delegation_id (value : String) : Bool :=
  valid_delegation_value value
    && (as_bytes value).all fun byte => is_ascii_alphanumeric byte || byte = 45 || byte = 95 || byte = 46

def valid_passport_fpr (value : String) : Bool :=
  (as_bytes value).length = 34 && starts_with value "p_"
    && ((as_bytes value).drop 2).all fun byte => is_ascii_digit byte || (97 ≤ byte && byte ≤ 102)

section
variable (crates : TokenCrates)

def RcxCapabilityToken.token_hash (token : RcxCapabilityToken) : FixedBytes RCX_CT_HASH_LEN :=
  crates.blake3 token.to_signing_cbor

def passport_fpr_from_public_key (public_key : FixedBytes RCX_CT_PUBLIC_KEY_LEN) : String :=
  "p_" ++ hex_encode ((crates.blake3 public_key.val).val.take PASSPORT_FPR_BYTES)

end

def DELEGATION_BINDING_DOMAIN : Bytes := as_bytes "rcx-capability-token/delegation-envelope/v1\x00"
def PRESENTATION_PROOF_DOMAIN : Bytes := as_bytes "rcx-capability-token/presentation-proof/v1\x00"

section
variable (base_token_hash : FixedBytes RCX_CT_HASH_LEN) (version : UInt8) (delegation_id : String)
  (audience : DelegationAudience) (delegator_public_key delegate_public_key : FixedBytes RCX_CT_PUBLIC_KEY_LEN)
  (caveats : List Caveat)

/-- The tree of `delegation_binding_message`. -/
def delegation_binding_tree : CborValue :=
  .Map [
    ("base_token_hash", .Bytes base_token_hash.val),
    ("version", .Uint version.toUInt64),
    ("delegation_id", .Text delegation_id),
    ("audience", .Text audience.as_str),
    ("delegator_public_key", .Bytes delegator_public_key.val),
    ("delegate_public_key", .Bytes delegate_public_key.val),
    ("caveats", .Array (caveats.map caveat_to_cbor))]

def delegation_binding_message : Bytes :=
  DELEGATION_BINDING_DOMAIN
    ++ (delegation_binding_tree base_token_hash version delegation_id audience delegator_public_key delegate_public_key
      caveats).encode

end

structure AttenuationContext where
  audience : DelegationAudience
  tenant_id : String
  backend_id : String
  capability : String
  data_egress_classes : List DataEgressClass
  present_attestations : List String
deriving DecidableEq

structure PresentationProof where
  public_key : FixedBytes RCX_CT_PUBLIC_KEY_LEN
  nonce : Bytes
  signature : FixedBytes RCX_CT_SIGNATURE_LEN
deriving DecidableEq

/-- `Vec::dedup`: the first of every run of equal neighbours. -/
def dedup : List String → List String
  | [] => []
  | [x] => [x]
  | x :: y :: rest => if x = y then dedup (y :: rest) else x :: dedup (y :: rest)

/-- `sort_unstable` and `dedup`. -/
def sort_dedup (xs : List String) : List String := dedup (xs.insertionSort fun a b => as_bytes a ≤ as_bytes b)

/-- The tree of `presentation_proof_message`. -/
def presentation_proof_tree (token_digest : FixedBytes RCX_CT_HASH_LEN) (context : AttenuationContext) (nonce : Bytes) :
    CborValue :=
  .Map [
    ("token_digest", .Bytes token_digest.val),
    ("audience", .Text context.audience.as_str),
    ("tenant_id", .Text context.tenant_id),
    ("backend_id", .Text context.backend_id),
    ("capability", .Text context.capability),
    ("data_egress_classes", texts_to_cbor (sort_dedup (context.data_egress_classes.map DataEgressClass.as_str))),
    ("present_attestations", texts_to_cbor (sort_dedup context.present_attestations)),
    ("nonce", .Bytes nonce)]

def presentation_proof_message (crates : TokenCrates) (token : RcxCapabilityToken) (context : AttenuationContext)
    (nonce : Bytes) : Bytes :=
  PRESENTATION_PROOF_DOMAIN ++ (presentation_proof_tree (crates.blake3 token.to_canonical_cbor) context nonce).encode

structure TokenValidationIssue where
  code : String
  message : String
deriving DecidableEq

/-- An issue that is raised where the condition holds. -/
def issueIf (raised : Bool) (code message : String) : List TokenValidationIssue :=
  if raised then [⟨code, message⟩] else []

def DEFAULT_CLOCK_SKEW_LEEWAY_SECS : UInt64 := 30

def delegates_valid (policy : DelegationPolicy) : Bool :=
  !policy.allowed_delegate_fprs.isEmpty
    && policy.allowed_delegate_fprs.length ≤ RCX_MAX_DELEGATION_PRINCIPALS
    && policy.allowed_delegate_fprs.all valid_passport_fpr
    && strictly_ascending policy.allowed_delegate_fprs

/-- The version and the delegation policy must go together. -/
def spec_issues (token : RcxCapabilityToken) : List TokenValidationIssue :=
  let unknown := [⟨"invalid_spec_version", "delegation fields require issuer-signed rcx-ct/1.1 policy"⟩]
  match token.delegation_policy with
  | none =>
    if (token.spec_version = RCX_CT_SPEC_VERSION || token.spec_version = RCX_CT_GOVERNANCE_SPEC_VERSION)
        && token.delegation_envelope.isNone then []
    else unknown
  | some policy =>
    if is_delegation_spec_version token.spec_version then
      issueIf (policy.presentation ≠ .ProofOfPossession || policy.max_depth ≠ 1 || !delegates_valid policy)
        "invalid_delegation_policy"
        "delegation policy must be canonical PoP-only, one-hop policy with a valid delegate set"
    else unknown

def team_issues (scope : TeamScope) : List TokenValidationIssue :=
  issueIf (trimmed_is_empty scope.team_id) "missing_team_id" "team_scope.team_id is required"
  ++ issueIf (trimmed_is_empty scope.pooled_credit_agent_id) "missing_pooled_credit_agent_id"
    "team_scope.pooled_credit_agent_id is required"
  ++ issueIf scope.principal_passport_fprs.isEmpty "missing_principal_scope"
    "team_scope.principal_passport_fprs must not be empty"

def enterprise_issues (scope : EnterpriseScope) (backends : List Backend) : List TokenValidationIssue :=
  issueIf (trimmed_is_empty scope.customer_id) "missing_enterprise_customer_id" "enterprise_scope.customer_id is required"
  ++ issueIf (!starts_with scope.backend_id RCX_CUSTOMER_BACKEND_PREFIX) "invalid_enterprise_backend"
    "enterprise_scope.backend_id must start with customer:"
  ++ issueIf (trimmed_is_empty scope.trust_root_kid) "missing_enterprise_trust_root"
    "enterprise_scope.trust_root_kid is required"
  ++ (match backends.find? fun backend => backend.backend_id = scope.backend_id with
    | some backend =>
      issueIf (backend.trust_root_kid ≠ scope.trust_root_kid) "trust_root_mismatch"
        "enterprise backend trust root does not match enterprise_scope"
    | none =>
      [⟨"enterprise_backend_missing", "enterprise_scope backend is not present in token backends"⟩])
  ++ issueIf (scope.airgap && backends.any fun backend => backend.backend_id = RCX_HOSTED_BACKEND_ID)
    "backend_not_permitted" "airgap enterprise tokens must not permit hosted.vaultcrux.com"

def validate_issuer_base_with_leeway (token : RcxCapabilityToken) (now_unix_seconds leeway_seconds : UInt64) :
    List TokenValidationIssue :=
  spec_issues token
  ++ issueIf (trimmed_is_empty token.token_id) "missing_token_id" "token_id is required"
  ++ issueIf (token.issued_at > saturating_add now_unix_seconds leeway_seconds) "token_not_yet_valid"
    "issued_at must be at or before the validation time"
  ++ issueIf (saturating_add token.expires_at leeway_seconds ≤ now_unix_seconds) "token_expired" "token has expired"
  ++ issueIf (token.refresh_hint_at ≥ token.expires_at) "invalid_refresh_hint" "refresh_hint_at must be before expires_at"
  ++ issueIf (token.signature.alg ≠ "ed25519") "unsupported_signature_alg" "signature.alg must be ed25519"
  ++ issueIf (token.signature.kid ≠ token.issuer.passport_kid) "signature_kid_mismatch"
    "signature.kid must match issuer.passport_kid"
  ++ issueIf token.backends.isEmpty "missing_backend" "at least one backend is required"
  ++ issueIf (token.tier = .Governance && token.enterprise_scope.isNone) "missing_enterprise_scope"
    "governance tier tokens require enterprise_scope"
  ++ (token.team_scope.map team_issues).getD []
  ++ (token.enterprise_scope.map fun scope => enterprise_issues scope token.backends).getD []

inductive VerifyOutcome where
  | Verified
  | StructuralFailure (codes : List String)
  | BadSignature
  | BadTrustRoot
deriving DecidableEq

section
variable (crates : TokenCrates)

def verify_issuer_signed_token (token : RcxCapabilityToken) (trust_root_pubkey : Bytes) (now_unix_seconds : UInt64) :
    VerifyOutcome :=
  let issues := validate_issuer_base_with_leeway token now_unix_seconds DEFAULT_CLOCK_SKEW_LEEWAY_SECS
  if issues ≠ [] then .StructuralFailure (issues.map TokenValidationIssue.code)
  else if size : trust_root_pubkey.length = RCX_CT_PUBLIC_KEY_LEN then
    if !crates.from_bytes ⟨trust_root_pubkey, size⟩ then .BadTrustRoot
    else if crates.verify_strict ⟨trust_root_pubkey, size⟩ (token.token_hash crates).val token.signature.sig then .Verified
    else .BadSignature
  else .BadTrustRoot

/-- A caveat's own form. -/
def caveat_valid : Caveat → Bool
  | .ExpiresAtLe _ => true
  | .TenantIdEq tenant_id => valid_delegation_value tenant_id
  | .ScopeSubset scopes =>
    !scopes.isEmpty && scopes.length ≤ RCX_MAX_DELEGATION_SCOPES && scopes.all valid_delegation_value
      && strictly_ascending scopes

/-- The loop of `caveats_are_canonical`, with the encoding of the caveat before. -/
def caveatsFrom : Option Bytes → List Caveat → Bool
  | _, [] => true
  | previous, caveat :: rest =>
    let encoded := (caveat_to_cbor caveat).encode
    caveat_valid caveat && !(previous.any fun prior => encoded ≤ prior) && caveatsFrom (some encoded) rest

def caveats_are_canonical (caveats : List Caveat) : Bool :=
  !caveats.isEmpty && caveats.length ≤ RCX_MAX_DELEGATION_CAVEATS && caveatsFrom none caveats

inductive AttenuateError where
  | DelegationNotPermitted
  | AlreadyDelegated
  | DelegatorMismatch
  | DelegateNotPermitted
  | SelfDelegation
  | InvalidDelegationId
  | EmptyCaveats
  | InvalidCaveatEncoding
  | CaveatDoesNotNarrow
  | CaveatOutsideBaseGrant
deriving DecidableEq

/-- The set of capabilities a token names. -/
def base_capabilities (token : RcxCapabilityToken) : List String :=
  (token.backends.flatMap fun backend => backend.permitted_capabilities.map (·.capability)).dedup

/-- The loop of `validate_caveats_against_base`; it returns whether something was narrowed. -/
def narrowingLoop (token : RcxCapabilityToken) : Bool → List Caveat → Except AttenuateError Bool
  | narrows, [] => .ok narrows
  | narrows, .ExpiresAtLe expires_at :: rest =>
    if expires_at > token.expires_at then .error .CaveatOutsideBaseGrant
    else narrowingLoop token (narrows || expires_at < token.expires_at) rest
  | narrows, .TenantIdEq tenant_id :: rest =>
    if tenant_id ≠ token.tenant_scope.tenant_id then .error .CaveatOutsideBaseGrant
    else narrowingLoop token narrows rest
  | narrows, .ScopeSubset scopes :: rest =>
    if scopes.any fun scope => !(base_capabilities token).contains scope then .error .CaveatOutsideBaseGrant
    else narrowingLoop token (narrows || scopes.length < (base_capabilities token).length) rest

def validate_caveats_against_base (token : RcxCapabilityToken) (caveats : List Caveat) : Except AttenuateError Unit := do
  ensure (caveats ≠ []) .EmptyCaveats
  ensure (caveats_are_canonical caveats = true) .InvalidCaveatEncoding
  let strictly_narrows ← narrowingLoop token false caveats
  ensure (strictly_narrows = true) .CaveatDoesNotNarrow

def RcxCapabilityToken.caveats (token : RcxCapabilityToken) : List Caveat :=
  (token.delegation_envelope.map (·.caveats)).getD []

def RcxCapabilityToken.attenuated_expires_at (token : RcxCapabilityToken) : UInt64 :=
  token.caveats.foldl (fun acc caveat => match caveat with | .ExpiresAtLe expires_at => min acc expires_at | _ => acc)
    token.expires_at

def RcxCapabilityToken.caveats_permit_tenant (token : RcxCapabilityToken) (tenant_id : String) : Bool :=
  token.caveats.all fun caveat => match caveat with | .TenantIdEq allowed => allowed = tenant_id | _ => true

def RcxCapabilityToken.caveats_permit_capability (token : RcxCapabilityToken) (capability : String) : Bool :=
  token.caveats.all fun caveat => match caveat with | .ScopeSubset scopes => scopes.contains capability | _ => true

structure VerifiedAttenuation where
  actor_fpr : String
  delegated_by : Option String
  delegation_id : Option String
deriving DecidableEq

inductive AttenuatedOutcome where
  | Verified (attenuation : VerifiedAttenuation)
  | Base (outcome : VerifyOutcome)
  | ContextDenied
  | DelegationNotPermitted
  | DelegatorMismatch
  | DelegateMismatch
  | SelfDelegation
  | PrincipalRevoked
  | BadPossessionProof
  | MalformedEnvelope
  | BadDelegationSignature
  | CaveatDenied
deriving DecidableEq

def envelope_malformed (envelope : DelegationEnvelope) : Bool :=
  envelope.version ≠ RCX_DELEGATION_ENVELOPE_VERSION || !valid_delegation_id envelope.delegation_id
    || envelope.caveats.isEmpty || !caveats_are_canonical envelope.caveats

section
variable (token : RcxCapabilityToken)

/-- Some backend of the token permits the capability with every class asked for and every attestation needed. -/
def backend_permits (context : AttenuationContext) : Bool :=
  token.backends.any fun backend =>
    backend.backend_id = context.backend_id && backend.permitted_capabilities.any fun permitted =>
      permitted.capability = context.capability
        && context.data_egress_classes.all (fun required => permitted.data_egress_classes.any fun allowed => allowed = required)
        && permitted.required_attestations.all (fun required => context.present_attestations.any fun present => present = required)

/-- The end of `verify_token_attenuated` for a token without an envelope. -/
def verify_subject (proof : PresentationProof) (context : AttenuationContext) : AttenuatedOutcome :=
  let subject_fpr := token.subject.passport_fpr
  if token.delegation_policy.any fun policy => policy.audience ≠ context.audience then .ContextDenied
  else if passport_fpr_from_public_key crates proof.public_key = subject_fpr then
    .Verified { actor_fpr := subject_fpr, delegated_by := none, delegation_id := none }
  else .DelegateMismatch

/-- The end of `verify_token_attenuated` for a delegated token. -/
def verify_delegate (envelope : DelegationEnvelope) (now_unix_seconds : UInt64)
    (proof : PresentationProof) (context : AttenuationContext) (is_principal_revoked : String → Bool) : AttenuatedOutcome :=
  let subject_fpr := token.subject.passport_fpr
  match token.delegation_policy with
  | none => .DelegationNotPermitted
  | some policy =>
    if !is_delegation_spec_version token.spec_version || policy.presentation ≠ .ProofOfPossession || policy.max_depth ≠ 1 then
      .DelegationNotPermitted
    else if policy.audience ≠ context.audience || envelope.audience ≠ policy.audience then .ContextDenied
    else if passport_fpr_from_public_key crates envelope.delegator_public_key ≠ subject_fpr then .DelegatorMismatch
    else
      let delegate_fpr := passport_fpr_from_public_key crates envelope.delegate_public_key
      if delegate_fpr = subject_fpr then .SelfDelegation
      else if envelope.delegate_public_key ≠ proof.public_key then .DelegateMismatch
      else if !policy.allowed_delegate_fprs.contains delegate_fpr
          || token.team_scope.any fun team => !team.principal_passport_fprs.contains delegate_fpr then
        .DelegationNotPermitted
      else if is_principal_revoked delegate_fpr then .PrincipalRevoked
      else if !crates.from_bytes envelope.delegator_public_key then .DelegatorMismatch
      else if !crates.verify_strict envelope.delegator_public_key
          (delegation_binding_message (token.token_hash crates) envelope.version envelope.delegation_id envelope.audience
            envelope.delegator_public_key envelope.delegate_public_key envelope.caveats) envelope.signature then
        .BadDelegationSignature
      else if !(validate_caveats_against_base token envelope.caveats).isOk then .CaveatDenied
      else if now_unix_seconds ≥ token.attenuated_expires_at || !token.caveats_permit_tenant context.tenant_id
          || !token.caveats_permit_capability context.capability then
        .CaveatDenied
      else
        .Verified
          { actor_fpr := delegate_fpr, delegated_by := some subject_fpr, delegation_id := some envelope.delegation_id }

def verify_token_attenuated (trust_root_pubkey : Bytes) (now_unix_seconds : UInt64)
    (proof : PresentationProof) (expected_nonce : Bytes) (context : AttenuationContext)
    (is_principal_revoked : String → Bool) : AttenuatedOutcome :=
  match verify_issuer_signed_token crates token trust_root_pubkey now_unix_seconds with
  | .Verified =>
    if token.delegation_envelope.any envelope_malformed then .MalformedEnvelope
    else if token.tenant_scope.tenant_id ≠ context.tenant_id || !backend_permits token context then .ContextDenied
    else if expected_nonce = [] || proof.nonce ≠ expected_nonce then .BadPossessionProof
    else if !crates.from_bytes proof.public_key then .BadPossessionProof
    else if !crates.verify_strict proof.public_key (presentation_proof_message crates token context proof.nonce)
        proof.signature then
      .BadPossessionProof
    else if is_principal_revoked token.subject.passport_fpr then .PrincipalRevoked
    else
      match token.delegation_envelope with
      | none => verify_subject crates token proof context
      | some envelope => verify_delegate crates token envelope now_unix_seconds proof context is_principal_revoked
  | other => .Base other

end

end

end Crux.Rcx
