import Crux.TokenNarrows

/-!
# What a delegation makes is usable

`attenuate_for` puts an envelope on a token. The delegate who presents it is
verified wherever the token and all caveats allow the request.
-/

namespace Crux.Rcx
open Crux.Bytes Crux.Session List

/-- A key pair: what it signs verifies. -/
structure SigningKey (crates : TokenCrates) where
  verifying_key : FixedBytes RCX_CT_PUBLIC_KEY_LEN
  sign : Bytes → FixedBytes RCX_CT_SIGNATURE_LEN
  accepted : crates.from_bytes verifying_key = true
  verifies : ∀ message, crates.verify_strict verifying_key message (sign message) = true

def RcxCapabilityToken.delegate (token : RcxCapabilityToken) (envelope : DelegationEnvelope) : RcxCapabilityToken :=
  { token with delegation_envelope := some envelope }

def sortScopes : Caveat → Caveat
  | .ScopeSubset scopes => .ScopeSubset (sort_dedup scopes)
  | caveat => caveat

def normalize_scope_caveats (caveats : List Caveat) : List Caveat :=
  (caveats.map sortScopes).insertionSort fun a b => (caveat_to_cbor a).encode ≤ (caveat_to_cbor b).encode

section
variable {crates : TokenCrates}

def attenuate_for (token : RcxCapabilityToken) (caveats : List Caveat)
    (delegate_public_key : FixedBytes RCX_CT_PUBLIC_KEY_LEN) (delegation_id : String) (subject_key : SigningKey crates) :
    Except AttenuateError RcxCapabilityToken :=
  if token.delegation_envelope.isSome then .error .AlreadyDelegated
  else
    match token.delegation_policy with
    | none => .error .DelegationNotPermitted
    | some policy =>
      let delegator_fpr := passport_fpr_from_public_key crates subject_key.verifying_key
      let delegate_fpr := passport_fpr_from_public_key crates delegate_public_key
      let caveats := normalize_scope_caveats caveats
      if !is_delegation_spec_version token.spec_version || policy.presentation ≠ .ProofOfPossession || policy.max_depth ≠ 1 then
        .error .DelegationNotPermitted
      else if delegator_fpr ≠ token.subject.passport_fpr then .error .DelegatorMismatch
      else if delegate_fpr = delegator_fpr then .error .SelfDelegation
      else if !policy.allowed_delegate_fprs.contains delegate_fpr
          || token.team_scope.any fun team => !team.principal_passport_fprs.contains delegate_fpr then
        .error .DelegateNotPermitted
      else if !valid_delegation_id delegation_id then .error .InvalidDelegationId
      else
        match validate_caveats_against_base token caveats with
        | .error error => .error error
        | .ok _ => .ok (token.delegate
            { version := RCX_DELEGATION_ENVELOPE_VERSION
              delegation_id
              audience := policy.audience
              delegator_public_key := subject_key.verifying_key
              delegate_public_key
              caveats
              signature := subject_key.sign (delegation_binding_message (token.token_hash crates)
                RCX_DELEGATION_ENVELOPE_VERSION delegation_id policy.audience subject_key.verifying_key
                delegate_public_key caveats) })

theorem guard_ok {c : Prop} [Decidable c] {rest : Except ε α} :
    (if c then .error e else rest) = .ok x ↔ ¬c ∧ rest = .ok x := by
  split_ifs with holds <;> simp [holds]

theorem le_saturating_add (a b : UInt64) : a ≤ saturating_add a b := by
  unfold saturating_add
  rw [UInt64.le_iff_toNat_le]
  split_ifs with fits
  · rw [UInt64.toNat_add]
    omega
  · have := a.toNat_lt
    change a.toNat ≤ 2 ^ 64 - 1
    omega

/-- A token that is verified at one time is verified from its issue until it expires. -/
theorem issuer_later (issued : verify_issuer_signed_token crates token root t = .Verified) (begun : token.issued_at ≤ now)
    (before : now < token.expires_at) : verify_issuer_signed_token crates token root now = .Verified := by
  obtain ⟨valid, signed⟩ := issuer_verified_iff.mp issued
  refine issuer_verified_iff.mpr ⟨?_, signed⟩
  have begun' (leeway : UInt64) : ¬token.issued_at > saturating_add now leeway :=
    Std.not_lt.mpr (Std.le_trans begun (le_saturating_add now leeway))
  have before' (leeway : UInt64) : ¬saturating_add token.expires_at leeway ≤ now :=
    Std.not_le.mpr (Std.lt_of_lt_of_le before (le_saturating_add _ leeway))
  unfold validate_issuer_base_with_leeway at valid ⊢
  simp only [append_eq_nil_iff] at valid ⊢
  simp only [valid, true_and, and_true]
  simp [issueIf, begun', before']

theorem normalized_hold (permits : ∀ caveat ∈ caveats, CaveatHolds context now caveat) :
    ∀ caveat ∈ normalize_scope_caveats caveats, CaveatHolds context now caveat := by
  intro caveat member
  obtain ⟨given, there, rfl⟩ := mem_map.mp ((mem_insertionSort _).mp member)
  have holds := permits given there
  cases given with
  | ScopeSubset scopes => exact mem_sort_dedup.mpr holds
  | ExpiresAtLe _ => exact holds
  | TenantIdEq _ => exact holds

theorem narrowing_delegate {token : RcxCapabilityToken} :
    narrowingLoop (token.delegate envelope) narrows caveats = narrowingLoop token narrows caveats := by
  induction caveats generalizing narrows with
  | nil => rfl
  | cons caveat rest ih =>
    cases caveat <;>
    · simp only [narrowingLoop, ih]
      rfl

theorem canonical_of_validated (valid : validate_caveats_against_base token caveats = .ok ()) :
    caveats_are_canonical caveats = true := by
  unfold validate_caveats_against_base at valid
  rw [ensure_bind_ok, ensure_bind_ok] at valid
  exact valid.2.1

/-- Every envelope that is made is usable by the delegate, from the token's issue until it or a caveat expires. -/
theorem attenuated_usable {token made : RcxCapabilityToken} (subject_key delegate : SigningKey crates)
    (issued : verify_issuer_signed_token crates token root t = .Verified)
    (attenuated : attenuate_for token caveats delegate.verifying_key delegation_id subject_key = .ok made)
    (grants : Grants token context) (permits : ∀ caveat ∈ caveats, CaveatHolds context now caveat)
    (begun : token.issued_at ≤ now) (before : now < token.expires_at)
    (audience : ∀ policy, token.delegation_policy = some policy → policy.audience = context.audience)
    (subject_live : revoked token.subject.passport_fpr = false)
    (delegate_live : revoked (passport_fpr_from_public_key crates delegate.verifying_key) = false) (fresh : nonce ≠ []) :
    verify_token_attenuated crates made root now
      ⟨delegate.verifying_key, nonce, delegate.sign (presentation_proof_message crates made context nonce)⟩ nonce context revoked =
        .Verified
          { actor_fpr := passport_fpr_from_public_key crates delegate.verifying_key
            delegated_by := some token.subject.passport_fpr
            delegation_id := some delegation_id } := by
  unfold attenuate_for at attenuated
  rw [guard_ok] at attenuated
  obtain ⟨-, attenuated⟩ := attenuated
  split at attenuated
  · cases attenuated
  rename_i policy permitted
  rw [guard_ok, guard_ok, guard_ok, guard_ok, guard_ok] at attenuated
  obtain ⟨version, delegator, self, allowed, id, attenuated⟩ := attenuated
  split at attenuated
  · cases attenuated
  rename_i narrowed
  generalize enveloped : DelegationEnvelope.mk _ _ _ _ _ _ _ = envelope at attenuated
  cases attenuated
  have given : (token.delegate envelope).delegation_policy = some policy := permitted
  have canonical := canonical_of_validated narrowed
  -- the token, the envelope's form and the delegation; the rest of a request is the presenter's
  refine verified_iff.mpr ⟨⟨?_, ?_, ⟨grants.tenant, grants.permitted⟩, fresh, rfl, delegate.accepted,
    delegate.verifies _, subject_live⟩, ?_⟩
  · have base : (token.delegate envelope).undelegated = token.undelegated := rfl
    rw [← issuer_undelegated given, base, issuer_undelegated permitted, issuer_later issued begun before]
  · have some_caveat : (normalize_scope_caveats caveats).isEmpty = false := by
      simp only [caveats_are_canonical, Bool.and_eq_true, Bool.not_eq_true'] at canonical
      exact canonical.1.1
    subst enveloped
    simpa [RcxCapabilityToken.delegate, envelope_malformed, canonical, some_caveat] using id
  · have delegated : (token.delegate envelope).delegation_envelope = some envelope := rfl
    have carried : envelope.caveats = normalize_scope_caveats caveats := by rw [← enveloped]
    obtain ⟨expiry, tenant, capability⟩ := (caveats_hold_iff delegated).mpr ⟨before, carried ▸ normalized_hold permits⟩
    have hash : (token.delegate envelope).token_hash crates = token.token_hash crates := rfl
    subst enveloped
    unfold verify_delegate
    rw [given]
    refine (if_neg version).trans <| (if_neg (by simp [audience policy permitted])).trans <| (if_neg delegator).trans <|
      (if_neg (not_not.mp delegator ▸ self)).trans <| (if_neg (by simp)).trans <| (if_neg allowed).trans <|
      (if_neg (by simp [delegate_live])).trans <| (if_neg (by simp [subject_key.accepted])).trans <|
      (if_neg (by rw [hash]; simpa using subject_key.verifies _)).trans <| (if_neg ?_).trans <| (if_neg ?_).trans rfl
    · rw [validate_caveats_against_base, narrowing_delegate, ← validate_caveats_against_base, narrowed]
      simp [Except.toBool]
    · simp [tenant, capability, Std.not_le.mpr expiry]

end

def trustingCrates : TokenCrates := { sampleHashOnly with verify_strict := fun _ _ _ => true }

def trustingKey (byte : UInt8) : SigningKey trustingCrates := ⟨sampleKey byte, fun _ => zeroSignature, rfl, fun _ => rfl⟩

theorem laptop_usable : verify_token_attenuated trustingCrates delegatedToken (sampleKey 0x33).val 1777000000 sampleProof [7]
    pullRequest (fun _ => false) =
      .Verified ⟨"p_22222222222222222222222222222222", some "p_11111111111111111111111111111111", some "laptop"⟩ := by
  have issued : verify_issuer_signed_token trustingCrates syncToken (sampleKey 0x33).val 1777000000 = .Verified := by
    decide +kernel
  have attenuated : attenuate_for syncToken [.ExpiresAtLe 1780000000] (trustingKey 0x22).verifying_key "laptop"
      (trustingKey 0x11) = .ok delegatedToken := by decide +kernel
  have permits : ∀ caveat ∈ [Caveat.ExpiresAtLe 1780000000], CaveatHolds pullRequest 1777000000 caveat := by
    simp
    change (1777000000 : UInt64) < 1780000000
    decide
  exact attenuated_usable (trustingKey 0x11) (trustingKey 0x22) issued attenuated
    ⟨rfl, backend_permits_iff.mp (by decide)⟩ permits (by decide) (by decide) (fun _ given => by cases given; rfl) rfl rfl
    (by decide)

end Crux.Rcx
