import Crux.TokenSigning
import Crux.TokenVerify

/-!
# Delegation only narrows

What a `Verified` answer of `verify_token_attenuated` rests on, when BLAKE3 has
no collisions among the byte strings that were hashed and nobody can sign for
a key they do not hold: the issuer signed the token's fields, the token itself
grants the request, the presenter signed this token for this request, and with
an envelope the subject signed its caveats for this token and this delegate and
every caveat holds. So whatever an envelope admits, the token without it grants.
-/

namespace Crux.Rcx
open Crux.Bytes Crux.Session List RcxCapabilityToken

/-- What the holder of a key signs. -/
inductive Statement where
  | issue (token : RcxCapabilityToken)
  | delegate (token : RcxCapabilityToken) (version : UInt8) (delegation_id : String) (audience : DelegationAudience)
    (delegator_public_key delegate_public_key : FixedBytes RCX_CT_PUBLIC_KEY_LEN) (caveats : List Caveat)
  | present (token : RcxCapabilityToken) (context : AttenuationContext) (nonce : Bytes)
  | other (message : Bytes)

section
variable (crates : TokenCrates)

/-- The bytes under the signature. -/
def Statement.message : Statement → Bytes
  | .issue token => (token.token_hash crates).val
  | .delegate token version delegation_id audience delegator recipient caveats =>
    delegation_binding_message (token.token_hash crates) version delegation_id audience delegator recipient caveats
  | .present token context nonce => presentation_proof_message crates token context nonce
  | .other message => message

/-- The byte string that was hashed for it. -/
def Statement.hashes : Statement → List Bytes
  | .issue token => [token.to_signing_cbor]
  | .delegate token _ _ _ _ _ _ => [token.to_signing_cbor]
  | .present token _ _ => [token.to_canonical_cbor]
  | .other _ => []

/-- The trees that were encoded for it. -/
def Statement.trees : Statement → List CborValue
  | .issue token => [token.to_cbor_value true]
  | .delegate token version delegation_id audience delegator recipient caveats =>
    [token.to_cbor_value true,
     delegation_binding_tree (token.token_hash crates) version delegation_id audience delegator recipient caveats]
  | .present token context nonce =>
    [token.to_cbor_value false, presentation_proof_tree (crates.blake3 token.to_canonical_cbor) context nonce]
  | .other _ => []

/-- What has been signed and hashed, with no forged signature and no collision. Keys may also sign
messages of other protocols, which neither have the length of a hash nor begin with one of the two domains. -/
structure World where
  signed : FixedBytes RCX_CT_PUBLIC_KEY_LEN → Statement → Prop
  hashed : Bytes → Prop
  unforgeable : ∀ key message signature, crates.verify_strict key message signature = true →
    ∃ statement, signed key statement ∧ statement.message crates = message
  signed_hashed : ∀ key statement, signed key statement → ∀ bytes ∈ statement.hashes, hashed bytes
  signed_fits : ∀ key statement, signed key statement → ∀ tree ∈ statement.trees crates, Fits tree
  other_apart : ∀ key message, signed key (.other message) →
    message.length ≠ RCX_CT_HASH_LEN ∧ ¬ DELEGATION_BINDING_DOMAIN <+: message ∧ ¬ PRESENTATION_PROOF_DOMAIN <+: message
  collision_free : ∀ a b, hashed a → hashed b → crates.blake3 a = crates.blake3 b → a = b

end

section
variable {crates : TokenCrates}

theorem domains_apart : DELEGATION_BINDING_DOMAIN ++ a ≠ PRESENTATION_PROOF_DOMAIN ++ b := by
  intro same
  have heads := congrArg (fun bytes : Bytes => bytes.take 22) same
  simp only [take_append_of_le_length (show 22 ≤ DELEGATION_BINDING_DOMAIN.length by decide +kernel),
    take_append_of_le_length (show 22 ≤ PRESENTATION_PROOF_DOMAIN.length by decide +kernel)] at heads
  exact absurd heads (by decide +kernel)

variable {key : FixedBytes RCX_CT_PUBLIC_KEY_LEN} {signature : FixedBytes RCX_CT_SIGNATURE_LEN} {token : RcxCapabilityToken}
   {hash : FixedBytes RCX_CT_HASH_LEN}

theorem hash_ne_append (long : RCX_CT_HASH_LEN < domain.length) : hash.val ≠ domain ++ a := by
  intro same
  have lengths := congrArg List.length same
  rw [hash.property, length_append] at lengths
  omega

theorem hash_ne_delegation : hash.val ≠ DELEGATION_BINDING_DOMAIN ++ a := hash_ne_append (by decide +kernel)

theorem hash_ne_presentation : hash.val ≠ PRESENTATION_PROOF_DOMAIN ++ a := hash_ne_append (by decide +kernel)

variable (world : World crates)

/-- A signature over a token's hash was made for the fields of this token. -/
theorem World.issued (fits : Fits (token.to_cbor_value true)) (hashed : world.hashed token.to_signing_cbor)
    (verified : crates.verify_strict key (token.token_hash crates).val signature = true) :
    ∃ base, world.signed key (.issue base) ∧ base.issuerSigned = token.issuerSigned := by
  obtain ⟨statement, signed, message⟩ := world.unforgeable _ _ _ verified
  cases statement with
  | issue base =>
    refine ⟨base, signed, ?_⟩
    have same := world.collision_free _ _ (world.signed_hashed _ _ signed _ mem_cons_self) hashed
      (Subtype.val_injective message)
    exact issuerSigned_of_canon (canon_eq_of_encode (world.signed_fits _ _ signed _ mem_cons_self) fits same)
  | delegate => exact absurd message.symm hash_ne_delegation
  | present => exact absurd message.symm hash_ne_presentation
  | other bytes =>
    have length : bytes.length = RCX_CT_HASH_LEN := by
      rw [show bytes = (token.token_hash crates).val from message]
      exact (token.token_hash crates).property
    exact absurd length (world.other_apart _ _ signed).1

/-- A signature over a delegation was made for this token, this recipient and these caveats. -/
theorem World.delegated {envelope : DelegationEnvelope} (fits : Fits (token.to_cbor_value true))
    (treeFits : Fits (delegation_binding_tree (token.token_hash crates) envelope.version envelope.delegation_id
      envelope.audience envelope.delegator_public_key envelope.delegate_public_key envelope.caveats))
    (hashed : world.hashed token.to_signing_cbor) (verified : crates.verify_strict envelope.delegator_public_key
      (delegation_binding_message (token.token_hash crates) envelope.version envelope.delegation_id envelope.audience
        envelope.delegator_public_key envelope.delegate_public_key envelope.caveats) envelope.signature = true) :
    ∃ base, world.signed envelope.delegator_public_key (.delegate base envelope.version envelope.delegation_id
        envelope.audience envelope.delegator_public_key envelope.delegate_public_key envelope.caveats)
      ∧ base.issuerSigned = token.issuerSigned := by
  obtain ⟨statement, signed, message⟩ := world.unforgeable _ _ _ verified
  cases statement with
  | issue base => exact absurd message hash_ne_delegation
  | delegate base version name audience delegator recipient caveats =>
    rw [Statement.message, delegation_binding_message, delegation_binding_message, append_cancel_left_eq] at message
    have baseFits := world.signed_fits _ _ signed _ mem_cons_self
    have boundFits := world.signed_fits _ _ signed _ (mem_cons_of_mem _ mem_cons_self)
    have trees := canon_eq_of_encode boundFits treeFits message
    obtain ⟨hashes, versions, names, audiences, delegators, recipients, caveatLists, _⟩ := record_fields trees (by simp) (by simp)
    cases u8_to_u64_injective (tells_uint _ _ versions)
    cases tells_text _ _ names
    cases audience_as_str_injective (tells_text _ _ audiences)
    cases Subtype.val_injective (tells_bytes _ _ delegators)
    cases Subtype.val_injective (tells_bytes _ _ recipients)
    cases tells_caveat.array _ _ caveatLists
    refine ⟨base, signed, ?_⟩
    have same := world.collision_free _ _ (world.signed_hashed _ _ signed _ mem_cons_self) hashed
      (Subtype.val_injective (tells_bytes _ _ hashes))
    exact issuerSigned_of_canon (canon_eq_of_encode baseFits fits same)
  | present => exact absurd message.symm domains_apart
  | other bytes =>
    have begins : DELEGATION_BINDING_DOMAIN <+: bytes := by
      rw [show bytes = _ from message]
      exact prefix_append _ _
    exact absurd begins (world.other_apart _ _ signed).2.1

/-- Two requests for the same thing: the lists of classes and attestations are sets. -/
structure SameRequest (a b : AttenuationContext) : Prop where
  audience : a.audience = b.audience
  tenant_id : a.tenant_id = b.tenant_id
  backend_id : a.backend_id = b.backend_id
  capability : a.capability = b.capability
  data_egress_classes : ∀ c, c ∈ a.data_egress_classes ↔ c ∈ b.data_egress_classes
  present_attestations : ∀ c, c ∈ a.present_attestations ↔ c ∈ b.present_attestations

theorem mem_dedup : x ∈ dedup xs ↔ x ∈ xs := by
  induction xs using dedup.induct with
  | case1 => rfl
  | case2 y => rfl
  | case3 y rest ih => simp [dedup, ih]
  | case4 y z rest apart ih => simp [dedup, apart, ih]

theorem mem_sort_dedup : x ∈ sort_dedup xs ↔ x ∈ xs := by
  rw [sort_dedup, mem_dedup, mem_insertionSort]

/-- A signature over a presentation was made for this token, this request and this nonce. -/
theorem World.presented (fits : Fits (token.to_cbor_value false))
    (treeFits : Fits (presentation_proof_tree (crates.blake3 token.to_canonical_cbor) context nonce))
    (hashed : world.hashed token.to_canonical_cbor)
    (verified : crates.verify_strict key (presentation_proof_message crates token context nonce) signature = true) :
    ∃ request, world.signed key (.present token request nonce) ∧ SameRequest request context := by
  obtain ⟨statement, signed, message⟩ := world.unforgeable _ _ _ verified
  cases statement with
  | issue base => exact absurd message hash_ne_presentation
  | delegate => exact absurd message domains_apart
  | present shown request given =>
    rw [Statement.message, presentation_proof_message, presentation_proof_message, append_cancel_left_eq] at message
    have shownFits := world.signed_fits _ _ signed _ mem_cons_self
    have boundFits := world.signed_fits _ _ signed _ (mem_cons_of_mem _ mem_cons_self)
    have trees := canon_eq_of_encode boundFits treeFits message
    obtain ⟨digests, audiences, tenants, backends, capabilities, classes, attestations, nonces, _⟩ := record_fields trees (by simp) (by simp)
    have same := world.collision_free _ _ (world.signed_hashed _ _ signed _ mem_cons_self) hashed
      (Subtype.val_injective (tells_bytes _ _ digests))
    cases token_of_canon (canon_eq_of_encode shownFits fits same)
    cases tells_bytes _ _ nonces
    have classSets := tells_texts _ _ classes
    have attestationSets := tells_texts _ _ attestations
    refine ⟨request, signed, ?_⟩
    refine ⟨audience_as_str_injective (tells_text _ _ audiences), tells_text _ _ tenants, tells_text _ _ backends,
      tells_text _ _ capabilities, ?_, ?_⟩
    · intro c
      have member : c.as_str ∈ request.data_egress_classes.map DataEgressClass.as_str
          ↔ c.as_str ∈ context.data_egress_classes.map DataEgressClass.as_str := by
        rw [← mem_sort_dedup, classSets, mem_sort_dedup]
      rwa [mem_map_of_injective egress_as_str_injective, mem_map_of_injective egress_as_str_injective] at member
    · intro c
      rw [← mem_sort_dedup, attestationSets, mem_sort_dedup]
  | other bytes =>
    have begins : PRESENTATION_PROOF_DOMAIN <+: bytes := by
      rw [show bytes = _ from message]
      exact prefix_append _ _
    exact absurd begins (world.other_apart _ _ signed).2.2

end

/-- The token grants the request: tenant, backend, capability, every class asked for, every attestation needed. -/
structure Grants (token : RcxCapabilityToken) (context : AttenuationContext) : Prop where
  tenant : token.tenant_scope.tenant_id = context.tenant_id
  permitted : ∃ backend ∈ token.backends, backend.backend_id = context.backend_id ∧
    ∃ permitted ∈ backend.permitted_capabilities, permitted.capability = context.capability
      ∧ (∀ required ∈ context.data_egress_classes, required ∈ permitted.data_egress_classes)
      ∧ ∀ required ∈ permitted.required_attestations, required ∈ context.present_attestations

theorem backend_permits_iff :
    backend_permits token context = true ↔ ∃ backend ∈ token.backends, backend.backend_id = context.backend_id ∧
      ∃ permitted ∈ backend.permitted_capabilities, permitted.capability = context.capability
        ∧ (∀ required ∈ context.data_egress_classes, required ∈ permitted.data_egress_classes)
        ∧ ∀ required ∈ permitted.required_attestations, required ∈ context.present_attestations := by
  simp [backend_permits, and_assoc]

/-- The caveat holds for the request at this time. -/
def CaveatHolds (context : AttenuationContext) (now_unix_seconds : UInt64) : Caveat → Prop
  | .ExpiresAtLe expires_at => now_unix_seconds < expires_at
  | .TenantIdEq tenant_id => context.tenant_id = tenant_id
  | .ScopeSubset scopes => context.capability ∈ scopes

theorem lt_foldl_min (caveats : List Caveat) (start : UInt64) :
    now < caveats.foldl (fun acc caveat => match caveat with | .ExpiresAtLe e => min acc e | _ => acc) start ↔
      now < start ∧ ∀ e, Caveat.ExpiresAtLe e ∈ caveats → now < e := by
  induction caveats generalizing start with
  | nil => simp
  | cons caveat rest ih =>
    rw [foldl_cons, ih]
    cases caveat with
    | ExpiresAtLe e =>
      have least : now < min start e ↔ now < start ∧ now < e := by
        change (now < if start ≤ e then start else e) ↔ _
        split_ifs with first
        · exact ⟨fun before => ⟨before, Std.lt_of_lt_of_le before first⟩, And.left⟩
        · exact ⟨fun before => ⟨Std.lt_trans before (Std.not_le.mp first), before⟩, And.right⟩
      simp [least, and_assoc]
    | TenantIdEq tenant => simp
    | ScopeSubset scopes => simp

section
variable {crates : TokenCrates} {token : RcxCapabilityToken} {root : Bytes} {now : UInt64} {proof : PresentationProof}
  {nonce : Bytes} {context : AttenuationContext} {revoked : String → Bool} {who : VerifiedAttenuation}

/-- What the issuer's part of the check rests on. -/
theorem issuer_verified_iff : verify_issuer_signed_token crates token root now = .Verified ↔
      validate_issuer_base_with_leeway token now DEFAULT_CLOCK_SKEW_LEEWAY_SECS = []
      ∧ ∃ size : root.length = RCX_CT_PUBLIC_KEY_LEN, crates.from_bytes ⟨root, size⟩ = true
        ∧ crates.verify_strict ⟨root, size⟩ (token.token_hash crates).val token.signature.sig = true := by
  unfold verify_issuer_signed_token
  by_cases whole : validate_issuer_base_with_leeway token now DEFAULT_CLOCK_SKEW_LEEWAY_SECS = []
  · by_cases size : root.length = RCX_CT_PUBLIC_KEY_LEN
    · by_cases key : crates.from_bytes ⟨root, size⟩ = true
      · by_cases signature : crates.verify_strict ⟨root, size⟩ (token.token_hash crates).val token.signature.sig = true
        · simp [whole, size, key]
        · simp [whole, size, key]
      · simp [whole, key]
    · simp [whole, size]
  · simp [whole]

/-- The checks that stand before the token is told apart by its envelope. -/
structure Checked (crates : TokenCrates) (token : RcxCapabilityToken) (root : Bytes) (now : UInt64)
    (proof : PresentationProof) (nonce : Bytes) (context : AttenuationContext) (revoked : String → Bool) : Prop where
  issuer : verify_issuer_signed_token crates token root now = .Verified
  envelope : token.delegation_envelope.any envelope_malformed = false
  grants : Grants token context
  fresh : nonce ≠ []
  answered : proof.nonce = nonce
  key : crates.from_bytes proof.public_key = true
  possession : crates.verify_strict proof.public_key (presentation_proof_message crates token context nonce) proof.signature = true
  live : revoked token.subject.passport_fpr = false

theorem guard_verified {c : Prop} [Decidable c] {denied rest : AttenuatedOutcome} (denies : ∀ w, denied ≠ .Verified w) :
    (if c then denied else rest) = .Verified who ↔ ¬ c ∧ rest = .Verified who := by
  split_ifs with holds <;> simp [holds, denies]

theorem verified_iff : verify_token_attenuated crates token root now proof nonce context revoked = .Verified who ↔
      Checked crates token root now proof nonce context revoked
      ∧ (match token.delegation_envelope with
        | none => verify_subject crates token proof context
        | some envelope => verify_delegate crates token envelope now proof context revoked) = .Verified who := by
  unfold verify_token_attenuated
  cases issuer : verify_issuer_signed_token crates token root now with
  | Verified =>
    rw [guard_verified (by simp), guard_verified (by simp), guard_verified (by simp), guard_verified (by simp),
      guard_verified (by simp), guard_verified (by simp)]
    constructor
    · rintro ⟨whole, granted, answered, key, possession, live, ended⟩
      simp at *
      refine ⟨⟨issuer, whole, ⟨granted.1, backend_permits_iff.mp granted.2⟩, answered.1, answered.2, key, ?_, live⟩, ended⟩
      rw [← answered.2]
      exact possession
    · rintro ⟨checked, ended⟩
      have permits := backend_permits_iff.mpr checked.grants.permitted
      refine ⟨by simp [checked.envelope], by simp [checked.grants.tenant, permits],
        by simp [checked.fresh, checked.answered], by simp [checked.key], ?_, by simp [checked.live], ended⟩
      simp [checked.answered, checked.possession]
  | _ =>
    constructor
    · intro other
      cases other
    · rintro ⟨checked, -⟩
      rw [checked.issuer] at issuer
      cases issuer

/-- What the checks of an envelope say, apart from its signature. -/
structure EnvelopeChecked (crates : TokenCrates) (token : RcxCapabilityToken) (envelope : DelegationEnvelope)
    (now : UInt64) (proof : PresentationProof) (context : AttenuationContext) (revoked : String → Bool)
    (policy : DelegationPolicy) : Prop where
  permitted : token.delegation_policy = some policy
  audience : policy.audience = context.audience
  delegator : passport_fpr_from_public_key crates envelope.delegator_public_key = token.subject.passport_fpr
  presenter : envelope.delegate_public_key = proof.public_key
  allowed : passport_fpr_from_public_key crates envelope.delegate_public_key ∈ policy.allowed_delegate_fprs
  live : revoked (passport_fpr_from_public_key crates envelope.delegate_public_key) = false
  caveats : ∀ caveat ∈ envelope.caveats, CaveatHolds context now caveat

section
variable {envelope : DelegationEnvelope} (delegated : token.delegation_envelope = some envelope)
include delegated

theorem caveats_hold_iff : (now < token.attenuated_expires_at ∧ token.caveats_permit_tenant context.tenant_id = true ∧
      token.caveats_permit_capability context.capability = true) ↔
    now < token.expires_at ∧ ∀ caveat ∈ envelope.caveats, CaveatHolds context now caveat := by
  have mine : token.caveats = envelope.caveats := by rw [caveats, delegated]; rfl
  have expiry : now < token.attenuated_expires_at ↔
      now < token.expires_at ∧ ∀ e, Caveat.ExpiresAtLe e ∈ envelope.caveats → now < e := by
    rw [attenuated_expires_at, mine]
    exact lt_foldl_min _ _
  rw [expiry, caveats_permit_tenant, caveats_permit_capability, mine, all_eq_true,
    all_eq_true]
  constructor
  · rintro ⟨⟨least, later⟩, tenant, capability⟩
    refine ⟨least, fun caveat member => ?_⟩
    cases caveat with
    | ExpiresAtLe e => exact later e member
    | TenantIdEq allowed => simpa [CaveatHolds, eq_comm] using tenant _ member
    | ScopeSubset scopes => simpa [CaveatHolds] using capability _ member
  · rintro ⟨least, hold⟩
    refine ⟨⟨least, fun e member => hold _ member⟩, fun caveat member => ?_, fun caveat member => ?_⟩
    all_goals
      have holds := hold caveat member
      cases caveat <;> simp_all [CaveatHolds]

theorem delegate_verified (verified : verify_delegate crates token envelope now proof context revoked = .Verified who) :
    ∃ policy, EnvelopeChecked crates token envelope now proof context revoked policy
      ∧ crates.verify_strict envelope.delegator_public_key
        (delegation_binding_message (token.token_hash crates) envelope.version envelope.delegation_id envelope.audience
          envelope.delegator_public_key envelope.delegate_public_key envelope.caveats) envelope.signature = true := by
  unfold verify_delegate at verified
  cases given : token.delegation_policy with
  | none =>
    rw [given] at verified
    cases verified
  | some policy =>
    rw [given] at verified
    rw [guard_verified (by simp), guard_verified (by simp), guard_verified (by simp), guard_verified (by simp),
      guard_verified (by simp), guard_verified (by simp), guard_verified (by simp), guard_verified (by simp),
      guard_verified (by simp), guard_verified (by simp), guard_verified (by simp)] at verified
    obtain ⟨-, audience, delegator, -, presenter, allowed, live, -, signature, -, limits, -⟩ := verified
    simp only [Bool.or_eq_true, decide_eq_true_eq, not_or, not_not, Bool.not_eq_true, Bool.not_eq_false',
      contains_iff_mem, ge_iff_le] at audience delegator presenter allowed live signature limits
    refine ⟨policy, ⟨given, audience.1, delegator, presenter, allowed.1, live, ?_⟩, signature⟩
    exact ((caveats_hold_iff delegated).mp ⟨Std.not_le.mp limits.1.1, limits.1.2, limits.2⟩).2

end

def RcxCapabilityToken.undelegated (token : RcxCapabilityToken) : RcxCapabilityToken :=
  { token with delegation_envelope := none }

theorem issuer_undelegated (permitted : token.delegation_policy = some policy) :
    verify_issuer_signed_token crates token.undelegated root now = verify_issuer_signed_token crates token root now := by
  have spec : spec_issues token.undelegated = spec_issues token := by
    simp [spec_issues, undelegated, permitted]
  have issues : ∀ leeway, validate_issuer_base_with_leeway token.undelegated now leeway
      = validate_issuer_base_with_leeway token now leeway := by
    intro leeway
    unfold validate_issuer_base_with_leeway
    rw [spec]
    rfl
  unfold verify_issuer_signed_token
  rw [issues]
  rfl

/-- The subject, presenting the token without its envelope, is granted the request. -/
def SubjectGranted (crates : TokenCrates) (token : RcxCapabilityToken) (root : Bytes) (now : UInt64)
    (context : AttenuationContext) (revoked : String → Bool) : Prop :=
  ∀ (proof : PresentationProof) (nonce : Bytes), nonce ≠ [] → proof.nonce = nonce →
    passport_fpr_from_public_key crates proof.public_key = token.subject.passport_fpr →
    crates.from_bytes proof.public_key = true →
    crates.verify_strict proof.public_key (presentation_proof_message crates token.undelegated context nonce)
      proof.signature = true →
    verify_token_attenuated crates token.undelegated root now proof nonce context revoked
      = .Verified { actor_fpr := token.subject.passport_fpr, delegated_by := none, delegation_id := none }

theorem subject_granted (checked : Checked crates token root now proof nonce context revoked)
    (permitted : token.delegation_policy = some policy) (audience : policy.audience = context.audience) :
    SubjectGranted crates token root now context revoked := by
  intro proof' nonce' fresh answered subject key possession
  refine verified_iff.mpr ⟨⟨?_, rfl, ⟨checked.grants.tenant, checked.grants.permitted⟩, fresh, answered, key, possession,
    checked.live⟩, ?_⟩
  · rw [issuer_undelegated permitted]
    exact checked.issuer
  · have same : token.undelegated.delegation_policy = some policy := permitted
    simp only [undelegated, verify_subject]
    simp [permitted, audience, subject]

/-- The trees the verifier encodes. -/
def requestTrees (crates : TokenCrates) (token : RcxCapabilityToken) (context : AttenuationContext) (nonce : Bytes) :
    List CborValue :=
  [token.to_cbor_value true, token.to_cbor_value false,
    presentation_proof_tree (crates.blake3 token.to_canonical_cbor) context nonce]
  ++ (token.delegation_envelope.map fun envelope =>
    delegation_binding_tree (token.token_hash crates) envelope.version envelope.delegation_id envelope.audience
      envelope.delegator_public_key envelope.delegate_public_key envelope.caveats).toList

/-- What a verified answer rests on. -/
structure Justified (world : World crates) (token : RcxCapabilityToken) (root : Bytes) (now : UInt64)
    (proof : PresentationProof) (nonce : Bytes) (context : AttenuationContext) (revoked : String → Bool) : Prop where
  /-- the trust root signed the token's fields -/
  issued : ∃ key : FixedBytes RCX_CT_PUBLIC_KEY_LEN, key.val = root
    ∧ ∃ base, world.signed key (.issue base) ∧ base.issuerSigned = token.issuerSigned
  grants : Grants token context
  /-- the presenter signed this token for this request and this nonce -/
  presented : proof.nonce = nonce ∧ ∃ request, world.signed proof.public_key (.present token request nonce)
    ∧ SameRequest request context
  live : revoked token.subject.passport_fpr = false
  /-- without an envelope the presenter is the subject -/
  subject : token.delegation_envelope = none →
    passport_fpr_from_public_key crates proof.public_key = token.subject.passport_fpr
  /-- with one, the subject signed its caveats for this token and this delegate, and they hold -/
  delegated : ∀ envelope, token.delegation_envelope = some envelope →
    ∃ policy, EnvelopeChecked crates token envelope now proof context revoked policy
      ∧ ∃ base, world.signed envelope.delegator_public_key (.delegate base envelope.version envelope.delegation_id
          envelope.audience envelope.delegator_public_key envelope.delegate_public_key envelope.caveats)
        ∧ base.issuerSigned = token.issuerSigned

end

def sampleKey (byte : UInt8) : FixedBytes RCX_CT_PUBLIC_KEY_LEN := ⟨List.replicate RCX_CT_PUBLIC_KEY_LEN byte, by simp⟩

/-- A token for a sync peer whose subject may hand it to one other passport. -/
def syncToken : RcxCapabilityToken :=
  { free_local_verified_fixture with
    spec_version := RCX_CT_DELEGATION_SPEC_VERSION
    subject := { passport_fpr := "p_11111111111111111111111111111111", daemon_instance_id := none }
    backends :=
      [{ backend_id := "crux-sync", trust_root_kid := "root", endpoint_url := none,
         permitted_capabilities :=
           [{ capability := "corecrux.sync.pull", data_egress_classes := [.None],
              required_attestations := ["passport_bound"], credit_cost := none }] }]
    delegation_policy := some
      { presentation := .ProofOfPossession, max_depth := 1, audience := .CruxSync,
        allowed_delegate_fprs := ["p_22222222222222222222222222222222"] } }

def syncEnvelope : DelegationEnvelope :=
  { version := 1, delegation_id := "laptop", audience := .CruxSync, delegator_public_key := sampleKey 0x11,
    delegate_public_key := sampleKey 0x22, caveats := [.ExpiresAtLe 1780000000], signature := zeroSignature }

def delegatedToken : RcxCapabilityToken := { syncToken with delegation_envelope := some syncEnvelope }

def pullRequest : AttenuationContext :=
  { audience := .CruxSync, tenant_id := "default", backend_id := "crux-sync", capability := "corecrux.sync.pull",
    data_egress_classes := [.None], present_attestations := ["passport_bound"] }

/-- What each of the three keys signed. -/
def sampleStatements : List (FixedBytes RCX_CT_PUBLIC_KEY_LEN × Statement) :=
  [(sampleKey 0x33, .issue syncToken),
   (sampleKey 0x11, .delegate syncToken 1 "laptop" .CruxSync (sampleKey 0x11) (sampleKey 0x22) [.ExpiresAtLe 1780000000]),
   (sampleKey 0x22, .present delegatedToken pullRequest [7])]

/-- A hash that keeps the first bytes, and signatures that verify for the three statements. -/
def sampleHash (bytes : Bytes) : FixedBytes RCX_CT_HASH_LEN := fixed RCX_CT_HASH_LEN (bytes.take RCX_CT_HASH_LEN)

def sampleHashOnly : TokenCrates := { blake3 := sampleHash, from_bytes := fun _ => true, verify_strict := fun _ _ _ => false }

def sampleCrates : TokenCrates :=
  { blake3 := sampleHash
    from_bytes := fun _ => true
    verify_strict := fun key message _ => sampleStatements.any fun s => s.1 = key && s.2.message sampleHashOnly = message }

def sampleProof : PresentationProof := { public_key := sampleKey 0x22, nonce := [7], signature := zeroSignature }

def sampleWorld : World sampleCrates where
  signed key statement := (key, statement) ∈ sampleStatements
  hashed bytes := bytes = syncToken.to_signing_cbor ∨ bytes = delegatedToken.to_canonical_cbor
  unforgeable := by
    intro key message signature verified
    obtain ⟨⟨signer, statement⟩, member, same⟩ := any_eq_true.mp verified
    simp only [Bool.and_eq_true, decide_eq_true_eq] at same
    obtain ⟨rfl, rfl⟩ := same
    refine ⟨statement, member, ?_⟩
    cases statement <;> rfl
  signed_hashed := by
    intro key statement signed
    simp only [sampleStatements, mem_cons, Prod.mk.injEq, not_mem_nil, or_false] at signed
    rcases signed with ⟨-, rfl⟩ | ⟨-, rfl⟩ | ⟨-, rfl⟩ <;> simp [Statement.hashes]
  signed_fits := by
    intro key statement signed
    simp only [sampleStatements, mem_cons, Prod.mk.injEq, not_mem_nil, or_false] at signed
    rcases signed with ⟨-, rfl⟩ | ⟨-, rfl⟩ | ⟨-, rfl⟩ <;> decide +kernel
  other_apart := by
    intro key message signed
    simp [sampleStatements] at signed
  collision_free := by
    have apart : sampleHash syncToken.to_signing_cbor ≠ sampleHash delegatedToken.to_canonical_cbor := by decide +kernel
    rintro a b (rfl | rfl) (rfl | rfl) same
    · rfl
    · exact absurd same apart
    · exact absurd same.symm apart
    · rfl

end Crux.Rcx
