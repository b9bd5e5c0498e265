import Crux.Cbor

/-!
# Capability tokens

`rcx-capability-token`: the token and its parts, the CBOR tree each part is
encoded as, and the bytes an issuer signs. The signing bytes leave out the
delegation envelope and hold zeros in place of the signature.
-/

namespace Crux.Rcx
open Crux.Bytes
open Crux.Session (CborValue)

def RCX_CT_SPEC_VERSION : String := "rcx-ct/1.0"
def RCX_CT_DELEGATION_SPEC_VERSION : String := "rcx-ct/1.1"
def RCX_CT_GOVERNANCE_SPEC_VERSION : String := "rcx-ct/1.2"

def is_delegation_spec_version (spec_version : String) : Bool :=
  spec_version = RCX_CT_DELEGATION_SPEC_VERSION || spec_version = RCX_CT_GOVERNANCE_SPEC_VERSION

def RCX_CT_SIGNATURE_LEN : Nat := 64
def RCX_CT_HASH_LEN : Nat := 32
def RCX_CT_PUBLIC_KEY_LEN : Nat := 32

inductive RcxTier where
  | Free | Pro | Governance
deriving DecidableEq

def RcxTier.as_str : RcxTier → String
  | .Free => "free"
  | .Pro => "pro"
  | .Governance => "governance"

inductive ReceiptClass where
  | Verified | Dev | Replay
deriving DecidableEq

def ReceiptClass.as_str : ReceiptClass → String
  | .Verified => "verified"
  | .Dev => "dev"
  | .Replay => "replay"

inductive DataEgressClass where
  | None | Vectors | ReceiptHashes | ConstraintRecords | DecisionRecords | EncryptedBlob | Text
deriving DecidableEq

def DataEgressClass.as_str : DataEgressClass → String
  | .None => "none"
  | .Vectors => "vectors"
  | .ReceiptHashes => "receipt_hashes"
  | .ConstraintRecords => "constraint_records"
  | .DecisionRecords => "decision_records"
  | .EncryptedBlob => "encrypted_blob"
  | .Text => "text"

inductive CreditCostUnit where
  | Call | Token | Byte
deriving DecidableEq

def CreditCostUnit.as_str : CreditCostUnit → String
  | .Call => "call"
  | .Token => "token"
  | .Byte => "byte"

inductive RefillPeriod where
  | Daily | Monthly | None
deriving DecidableEq

def RefillPeriod.as_str : RefillPeriod → String
  | .Daily => "daily"
  | .Monthly => "monthly"
  | .None => "none"

inductive OverdraftPolicy where
  | Forbid | Warn | AllowToLimit
deriving DecidableEq

def OverdraftPolicy.as_str : OverdraftPolicy → String
  | .Forbid => "forbid"
  | .Warn => "warn"
  | .AllowToLimit => "allow_to_limit"

inductive FallbackAction where
  | DegradeToLocal | Refuse | Queue
deriving DecidableEq

def FallbackAction.as_str : FallbackAction → String
  | .DegradeToLocal => "degrade_to_local"
  | .Refuse => "refuse"
  | .Queue => "queue"

structure Issuer where
  passport_kid : String
  issuer_org : String
deriving DecidableEq

structure Subject where
  passport_fpr : String
  daemon_instance_id : Option String
deriving DecidableEq

structure TenantScope where
  tenant_id : String
  display_name : Option String
deriving DecidableEq

inductive TeamSeatRole where
  | Owner | Admin | Member | Viewer
deriving DecidableEq

def TeamSeatRole.as_str : TeamSeatRole → String
  | .Owner => "owner"
  | .Admin => "admin"
  | .Member => "member"
  | .Viewer => "viewer"

structure TeamScope where
  team_id : String
  seat_id : Option String
  seat_role : Option TeamSeatRole
  pooled_credit_agent_id : String
  principal_passport_fprs : List String
deriving DecidableEq

structure EnterpriseScope where
  customer_id : String
  contract_id : Option String
  backend_id : String
  endpoint_url : String
  trust_root_kid : String
  airgap : Bool
  cross_signed_by_vaultcrux : Bool
deriving DecidableEq

structure CreditCost where
  unit : CreditCostUnit
  cost : UInt64
deriving DecidableEq

structure PermittedCapability where
  capability : String
  data_egress_classes : List DataEgressClass
  required_attestations : List String
  credit_cost : Option CreditCost
deriving DecidableEq

structure Backend where
  backend_id : String
  trust_root_kid : String
  endpoint_url : Option String
  permitted_capabilities : List PermittedCapability
deriving DecidableEq

structure CreditRefill where
  period : RefillPeriod
  amount : Option UInt64
deriving DecidableEq

structure Credits where
  balance : Option UInt64
  refill : CreditRefill
  overdraft : OverdraftPolicy
  overdraft_limit : Option UInt64
deriving DecidableEq

structure FallbackPolicy where
  on_backend_unreachable : FallbackAction
  on_credits_exhausted : FallbackAction
  on_expiry : FallbackAction
  queue_ttl_seconds : Option UInt64
deriving DecidableEq

structure Revocation where
  crl_url : Option String
  push_channel : Option String
deriving DecidableEq

structure Signature where
  alg : String
  kid : String
  sig : FixedBytes RCX_CT_SIGNATURE_LEN
deriving DecidableEq

/-- A restriction that the named subject of a token puts on a delegate. -/
inductive Caveat where
  | ExpiresAtLe (expires_at : UInt64)
  | TenantIdEq (tenant_id : String)
  | ScopeSubset (scopes : List String)
deriving DecidableEq

inductive DelegationPresentation where
  | ProofOfPossession
deriving DecidableEq

def DelegationPresentation.as_str : DelegationPresentation → String
  | .ProofOfPossession => "proof_of_possession"

inductive DelegationAudience where
  | CruxSync | CruxRelay
deriving DecidableEq

def DelegationAudience.as_str : DelegationAudience → String
  | .CruxSync => "crux-sync"
  | .CruxRelay => "crux-relay"

/-- What the issuer allows the subject to delegate. -/
structure DelegationPolicy where
  presentation : DelegationPresentation
  max_depth : UInt8
  audience : DelegationAudience
  allowed_delegate_fprs : List String
deriving DecidableEq

/-- One hop of delegation, signed by the subject. -/
structure DelegationEnvelope where
  version : UInt8
  delegation_id : String
  audience : DelegationAudience
  delegator_public_key : FixedBytes RCX_CT_PUBLIC_KEY_LEN
  delegate_public_key : FixedBytes RCX_CT_PUBLIC_KEY_LEN
  caveats : List Caveat
  signature : FixedBytes RCX_CT_SIGNATURE_LEN
deriving DecidableEq

structure RcxCapabilityToken where
  spec_version : String
  token_id : String
  issued_at : UInt64
  expires_at : UInt64
  refresh_hint_at : UInt64
  issuer : Issuer
  subject : Subject
  tenant_scope : TenantScope
  team_scope : Option TeamScope
  enterprise_scope : Option EnterpriseScope
  tier : RcxTier
  receipt_class : ReceiptClass
  backends : List Backend
  credits : Credits
  fallback : FallbackPolicy
  revocation : Revocation
  delegation_policy : Option DelegationPolicy
  delegation_envelope : Option DelegationEnvelope
  signature : Signature
deriving DecidableEq

def opt_text_to_cbor : Option String → CborValue
  | some value => .Text value
  | none => .Null

def opt_u64_to_cbor : Option UInt64 → CborValue
  | some value => .Uint value
  | none => .Null

/-- A list of texts. -/
def texts_to_cbor (texts : List String) : CborValue := .Array (texts.map .Text)

def issuer_to_cbor (issuer : Issuer) : CborValue :=
  .Map [("passport_kid", .Text issuer.passport_kid), ("issuer_org", .Text issuer.issuer_org)]

def subject_to_cbor (subject : Subject) : CborValue :=
  .Map [
    ("passport_fpr", .Text subject.passport_fpr),
    ("daemon_instance_id", opt_text_to_cbor subject.daemon_instance_id)]

def tenant_scope_to_cbor (scope : TenantScope) : CborValue :=
  .Map [("tenant_id", .Text scope.tenant_id), ("display_name", opt_text_to_cbor scope.display_name)]

def team_scope_to_cbor (scope : TeamScope) : CborValue :=
  .Map [
    ("team_id", .Text scope.team_id),
    ("seat_id", opt_text_to_cbor scope.seat_id),
    ("seat_role", opt_text_to_cbor (scope.seat_role.map TeamSeatRole.as_str)),
    ("pooled_credit_agent_id", .Text scope.pooled_credit_agent_id),
    ("principal_passport_fprs", texts_to_cbor scope.principal_passport_fprs)]

def enterprise_scope_to_cbor (scope : EnterpriseScope) : CborValue :=
  .Map [
    ("customer_id", .Text scope.customer_id),
    ("contract_id", opt_text_to_cbor scope.contract_id),
    ("backend_id", .Text scope.backend_id),
    ("endpoint_url", .Text scope.endpoint_url),
    ("trust_root_kid", .Text scope.trust_root_kid),
    ("airgap", .Bool scope.airgap),
    ("cross_signed_by_vaultcrux", .Bool scope.cross_signed_by_vaultcrux)]

def credit_cost_to_cbor : Option CreditCost → CborValue
  | some cost => .Map [("unit", .Text cost.unit.as_str), ("cost", .Uint cost.cost)]
  | none => .Null

def capability_to_cbor (capability : PermittedCapability) : CborValue :=
  .Map [
    ("capability", .Text capability.capability),
    ("data_egress_classes", texts_to_cbor (capability.data_egress_classes.map DataEgressClass.as_str)),
    ("required_attestations", texts_to_cbor capability.required_attestations),
    ("credit_cost", credit_cost_to_cbor capability.credit_cost)]

def backend_to_cbor (backend : Backend) : CborValue :=
  .Map [
    ("backend_id", .Text backend.backend_id),
    ("trust_root_kid", .Text backend.trust_root_kid),
    ("endpoint_url", opt_text_to_cbor backend.endpoint_url),
    ("permitted_capabilities", .Array (backend.permitted_capabilities.map capability_to_cbor))]

def refill_to_cbor (refill : CreditRefill) : CborValue :=
  .Map [("period", .Text refill.period.as_str), ("amount", opt_u64_to_cbor refill.amount)]

def credits_to_cbor (credits : Credits) : CborValue :=
  .Map [
    ("balance", opt_u64_to_cbor credits.balance),
    ("refill", refill_to_cbor credits.refill),
    ("overdraft", .Text credits.overdraft.as_str),
    ("overdraft_limit", opt_u64_to_cbor credits.overdraft_limit)]

def fallback_to_cbor (fallback : FallbackPolicy) : CborValue :=
  .Map [
    ("on_backend_unreachable", .Text fallback.on_backend_unreachable.as_str),
    ("on_credits_exhausted", .Text fallback.on_credits_exhausted.as_str),
    ("on_expiry", .Text fallback.on_expiry.as_str),
    ("queue_ttl_seconds", opt_u64_to_cbor fallback.queue_ttl_seconds)]

def revocation_to_cbor (revocation : Revocation) : CborValue :=
  .Map [("crl_url", opt_text_to_cbor revocation.crl_url), ("push_channel", opt_text_to_cbor revocation.push_channel)]

def zeroSignature : FixedBytes RCX_CT_SIGNATURE_LEN := ⟨List.replicate RCX_CT_SIGNATURE_LEN 0, by simp⟩

def signature_to_cbor (signature : Signature) (zero_signature : Bool) : CborValue :=
  .Map [
    ("alg", .Text signature.alg),
    ("kid", .Text signature.kid),
    ("sig", .Bytes (if zero_signature then zeroSignature.val else signature.sig.val))]

def delegation_policy_to_cbor (policy : DelegationPolicy) : CborValue :=
  .Map [
    ("presentation", .Text policy.presentation.as_str),
    ("max_depth", .Uint policy.max_depth.toUInt64),
    ("audience", .Text policy.audience.as_str),
    ("allowed_delegate_fprs", texts_to_cbor policy.allowed_delegate_fprs)]

def caveat_to_cbor : Caveat → CborValue
  | .ExpiresAtLe expires_at => .Map [("type", .Text "expires_at_le"), ("expires_at", .Uint expires_at)]
  | .TenantIdEq tenant_id => .Map [("type", .Text "tenant_id_eq"), ("tenant_id", .Text tenant_id)]
  | .ScopeSubset scopes => .Map [("type", .Text "scope_subset"), ("scopes", texts_to_cbor scopes)]

def delegation_envelope_to_cbor (envelope : DelegationEnvelope) : CborValue :=
  .Map [
    ("version", .Uint envelope.version.toUInt64),
    ("delegation_id", .Text envelope.delegation_id),
    ("audience", .Text envelope.audience.as_str),
    ("delegator_public_key", .Bytes envelope.delegator_public_key.val),
    ("delegate_public_key", .Bytes envelope.delegate_public_key.val),
    ("caveats", .Array (envelope.caveats.map caveat_to_cbor)),
    ("signature", .Bytes envelope.signature.val)]

/-- A pair that stands in the map only where there is a value. -/
def optPair {α : Type} (key : String) (to_cbor : α → CborValue) : Option α → List (String × CborValue)
  | some value => [(key, to_cbor value)]
  | none => []

section
variable (token : RcxCapabilityToken)

def RcxCapabilityToken.pairs (zero_signature : Bool) : List (String × CborValue) :=
  [ ("spec_version", .Text token.spec_version),
    ("token_id", .Text token.token_id),
    ("issued_at", .Uint token.issued_at),
    ("expires_at", .Uint token.expires_at),
    ("refresh_hint_at", .Uint token.refresh_hint_at),
    ("issuer", issuer_to_cbor token.issuer),
    ("subject", subject_to_cbor token.subject),
    ("tenant_scope", tenant_scope_to_cbor token.tenant_scope)]
  ++ optPair "team_scope" team_scope_to_cbor token.team_scope
  ++ optPair "enterprise_scope" enterprise_scope_to_cbor token.enterprise_scope
  ++ [("tier", .Text token.tier.as_str),
    ("receipt_class", .Text token.receipt_class.as_str),
    ("backends", .Array (token.backends.map backend_to_cbor)),
    ("credits", credits_to_cbor token.credits),
    ("fallback", fallback_to_cbor token.fallback),
    ("revocation", revocation_to_cbor token.revocation)]
  ++ optPair "delegation_policy" delegation_policy_to_cbor token.delegation_policy
  ++ (if zero_signature then [] else optPair "delegation_envelope" delegation_envelope_to_cbor token.delegation_envelope)
  ++ [("signature", signature_to_cbor token.signature zero_signature)]

def RcxCapabilityToken.to_cbor_value (zero_signature : Bool) : CborValue :=
  .Map (token.pairs zero_signature)

def RcxCapabilityToken.to_canonical_cbor : Bytes := (token.to_cbor_value false).encode

def RcxCapabilityToken.to_signing_cbor : Bytes := (token.to_cbor_value true).encode

end

/-- The free local token of the crate. -/
def free_local_verified_fixture : RcxCapabilityToken where
  spec_version := RCX_CT_SPEC_VERSION
  token_id := "rcxct_free_0123456789abcdef_default"
  issued_at := 1776989600
  expires_at := 1780143200
  refresh_hint_at := 1780139600
  issuer := { passport_kid := "p_0123456789abcdef0123456789abcdef", issuer_org := "local" }
  subject :=
    { passport_fpr := "p_0123456789abcdef0123456789abcdef",
      daemon_instance_id := some "daemon_01HV0000000000000000000000" }
  tenant_scope := { tenant_id := "default", display_name := some "Local" }
  team_scope := none
  enterprise_scope := none
  tier := .Free
  receipt_class := .Verified
  backends :=
    [{ backend_id := "local",
       trust_root_kid := "p_0123456789abcdef0123456789abcdef",
       endpoint_url := none,
       permitted_capabilities :=
         [{ capability := "corecrux.query.local",
            data_egress_classes := [.None],
            required_attestations := [],
            credit_cost := none }] }]
  credits := { balance := none, refill := { period := .None, amount := none }, overdraft := .Forbid, overdraft_limit := none }
  fallback :=
    { on_backend_unreachable := .Refuse, on_credits_exhausted := .Refuse, on_expiry := .Refuse, queue_ttl_seconds := none }
  revocation := { crl_url := none, push_channel := none }
  delegation_policy := none
  delegation_envelope := none
  signature :=
    { alg := "ed25519",
      kid := "p_0123456789abcdef0123456789abcdef",
      sig := ⟨List.replicate RCX_CT_SIGNATURE_LEN 0x11, by simp⟩ }

end Crux.Rcx
