import Crux.CborOrder
import Crux.TokenTypes

/-!
# What an issuer signs

Every part of a token is told apart by its CBOR tree, so the signing bytes
determine every field but the delegation envelope and the signature itself,
and the canonical bytes determine the whole token.
-/

namespace Crux.Rcx
open Crux.Bytes Crux.Session List RcxCapabilityToken

theorem tells_opt_text : Tells opt_text_to_cbor := by
  rintro (_ | a) (_ | b) same
  · rfl
  · cases same
  · cases same
  · rw [CborValue.Text.inj same]

theorem tells_opt_u64 : Tells opt_u64_to_cbor := by
  rintro (_ | a) (_ | b) same
  · rfl
  · cases same
  · cases same
  · rw [CborValue.Uint.inj same]

theorem tells_texts : Tells texts_to_cbor := tells_text.array

theorem tier_as_str_injective : Function.Injective RcxTier.as_str := by
  rintro (_ | _ | _) (_ | _ | _) <;> decide

theorem receipt_class_as_str_injective : Function.Injective ReceiptClass.as_str := by
  rintro (_ | _ | _) (_ | _ | _) <;> decide

theorem egress_as_str_injective : Function.Injective DataEgressClass.as_str := by
  intro a b same
  cases a <;> cases b <;> first | rfl | exact absurd same (by decide)

theorem cost_unit_as_str_injective : Function.Injective CreditCostUnit.as_str := by
  rintro (_ | _ | _) (_ | _ | _) <;> decide

theorem period_as_str_injective : Function.Injective RefillPeriod.as_str := by
  rintro (_ | _ | _) (_ | _ | _) <;> decide

theorem overdraft_as_str_injective : Function.Injective OverdraftPolicy.as_str := by
  rintro (_ | _ | _) (_ | _ | _) <;> decide

theorem action_as_str_injective : Function.Injective FallbackAction.as_str := by
  rintro (_ | _ | _) (_ | _ | _) <;> decide

theorem role_as_str_injective : Function.Injective TeamSeatRole.as_str := by
  rintro (_ | _ | _ | _) (_ | _ | _ | _) <;> decide

theorem audience_as_str_injective : Function.Injective DelegationAudience.as_str := by
  rintro (_ | _) (_ | _) <;> decide

theorem u8_to_u64_injective : Function.Injective UInt8.toUInt64 := by
  intro a b same
  have numbers := congrArg UInt64.toNat same
  exact UInt8.toNat_inj.mp (by simpa using numbers)

/-- Two records with the same values, field by field. -/
def SameValues : List (String × CborValue) → List (String × CborValue) → Prop
  | p :: ps, q :: qs => canon p.2 = canon q.2 ∧ SameValues ps qs
  | _, _ => True

theorem record_fields (same : canon (.Map ps) = canon (.Map qs)) (keys : ps.map Prod.fst = qs.map Prod.fst)
    (distinct : (qs.map Prod.fst).Nodup) : SameValues ps qs := by
  have places := canon_places same keys distinct
  clear same keys distinct
  induction ps generalizing qs with
  | nil => trivial
  | cons p rest ih =>
    cases qs with
    | nil => trivial
    | cons q others => exact ⟨(Prod.mk.inj (List.cons.inj places).1).2, ih (List.cons.inj places).2⟩

theorem tells_issuer : Tells issuer_to_cbor := by
  rintro ⟨⟩ ⟨⟩ same
  have fields := record_fields same rfl (by simp)
  simpa [SameValues, tells_text.iff] using fields

theorem tells_subject : Tells subject_to_cbor := by
  rintro ⟨⟩ ⟨⟩ same
  have fields := record_fields same rfl (by simp)
  simpa [SameValues, tells_text.iff, tells_opt_text.iff] using fields

theorem tells_tenant_scope : Tells tenant_scope_to_cbor := by
  rintro ⟨⟩ ⟨⟩ same
  have fields := record_fields same rfl (by simp)
  simpa [SameValues, tells_text.iff, tells_opt_text.iff] using fields

theorem tells_team_scope : Tells team_scope_to_cbor := by
  rintro ⟨⟩ ⟨⟩ same
  have fields := record_fields same rfl (by simp)
  simpa [SameValues, tells_text.iff, tells_opt_text.iff, (Option.map_injective role_as_str_injective).eq_iff,
    tells_texts.iff] using fields

theorem tells_enterprise_scope : Tells enterprise_scope_to_cbor := by
  rintro ⟨⟩ ⟨⟩ same
  have fields := record_fields same rfl (by simp)
  simpa [SameValues, tells_text.iff, tells_opt_text.iff, tells_bool.iff] using fields

theorem tells_credit_cost : Tells credit_cost_to_cbor := by
  rintro (_ | ⟨unit, cost⟩) (_ | ⟨unit', cost'⟩) same
  · rfl
  · rw [credit_cost_to_cbor, credit_cost_to_cbor, canon_map] at same
    cases same
  · rw [credit_cost_to_cbor, credit_cost_to_cbor, canon_map] at same
    cases same
  · obtain ⟨units, costs, _⟩ := record_fields same rfl (by simp)
    cases cost_unit_as_str_injective (tells_text _ _ units)
    cases tells_uint _ _ costs
    rfl

theorem tells_capability : Tells capability_to_cbor := by
  rintro ⟨⟩ ⟨⟩ same
  have fields := record_fields same rfl (by simp)
  simpa [SameValues, tells_text.iff, tells_texts.iff, (map_injective_iff.mpr egress_as_str_injective).eq_iff,
    tells_credit_cost.iff] using fields

theorem tells_backend : Tells backend_to_cbor := by
  rintro ⟨⟩ ⟨⟩ same
  have fields := record_fields same rfl (by simp)
  simpa [SameValues, tells_text.iff, tells_opt_text.iff, tells_capability.array.iff] using fields

theorem tells_refill : Tells refill_to_cbor := by
  rintro ⟨⟩ ⟨⟩ same
  have fields := record_fields same rfl (by simp)
  simpa [SameValues, tells_text.iff, period_as_str_injective.eq_iff, tells_opt_u64.iff] using fields

theorem tells_credits : Tells credits_to_cbor := by
  rintro ⟨⟩ ⟨⟩ same
  have fields := record_fields same rfl (by simp)
  simpa [SameValues, tells_opt_u64.iff, tells_refill.iff, tells_text.iff, overdraft_as_str_injective.eq_iff] using fields

theorem tells_fallback : Tells fallback_to_cbor := by
  rintro ⟨⟩ ⟨⟩ same
  have fields := record_fields same rfl (by simp)
  simpa [SameValues, tells_text.iff, action_as_str_injective.eq_iff, tells_opt_u64.iff] using fields

theorem tells_revocation : Tells revocation_to_cbor := by
  rintro ⟨⟩ ⟨⟩ same
  have fields := record_fields same rfl (by simp)
  simpa [SameValues, tells_opt_text.iff] using fields

theorem tells_delegation_policy : Tells delegation_policy_to_cbor := by
  rintro ⟨⟨⟩, _⟩ ⟨⟨⟩, _⟩ same
  have fields := record_fields same rfl (by simp)
  simpa [SameValues, tells_uint.iff, u8_to_u64_injective.eq_iff, tells_text.iff, audience_as_str_injective.eq_iff,
    tells_texts.iff] using fields

/-- The kind of a caveat, as its tree names it. -/
def Caveat.type : Caveat → String
  | .ExpiresAtLe _ => "expires_at_le"
  | .TenantIdEq _ => "tenant_id_eq"
  | .ScopeSubset _ => "scope_subset"

theorem caveat_types (same : canon (caveat_to_cbor a) = canon (caveat_to_cbor b)) : a.type = b.type := by
  have shape : ∀ c : Caveat, ∃ k v, k ≠ "type" ∧ caveat_to_cbor c = .Map [("type", .Text c.type), (k, v)] := by
    rintro (_ | _ | _) <;> exact ⟨_, _, by decide, rfl⟩
  obtain ⟨_, _, _, left⟩ := shape a
  obtain ⟨_, _, other, right⟩ := shape b
  rw [left, right] at same
  exact tells_text _ _ (canon_field same (by simpa using other.symm) mem_cons_self mem_cons_self)

theorem tells_caveat : Tells caveat_to_cbor := by
  intro a b same
  have types := caveat_types same
  cases a <;> cases b <;> simp [Caveat.type] at types
  · obtain ⟨_, values, _⟩ := record_fields same rfl (by simp)
    rw [tells_uint _ _ values]
  · obtain ⟨_, values, _⟩ := record_fields same rfl (by simp)
    rw [tells_text _ _ values]
  · obtain ⟨_, values, _⟩ := record_fields same rfl (by simp)
    rw [tells_texts _ _ values]

theorem tells_delegation_envelope : Tells delegation_envelope_to_cbor := by
  rintro ⟨⟩ ⟨⟩ same
  have fields := record_fields same rfl (by simp)
  simpa [SameValues, tells_uint.iff, u8_to_u64_injective.eq_iff, tells_text.iff, audience_as_str_injective.eq_iff,
    tells_bytes.iff, Subtype.val_inj, tells_caveat.array.iff] using fields

/-- The signature as the issuer signs over it. -/
def Signature.zeroed (signature : Signature) : Signature := { signature with sig := zeroSignature }

theorem signature_zeroed (same : canon (signature_to_cbor a true) = canon (signature_to_cbor b true)) :
    a.zeroed = b.zeroed := by
  obtain ⟨alg, kid, sig⟩ := a
  obtain ⟨alg', kid', sig'⟩ := b
  obtain ⟨algs, kids, -, _⟩ := record_fields same rfl (by simp)
  cases tells_text _ _ algs
  cases tells_text _ _ kids
  rfl

theorem tells_signature : Tells fun signature => signature_to_cbor signature false := by
  rintro ⟨alg, kid, sig⟩ ⟨alg', kid', sig'⟩ same
  obtain ⟨algs, kids, sigs, _⟩ := record_fields same rfl (by simp)
  cases tells_text _ _ algs
  cases tells_text _ _ kids
  cases Subtype.val_injective (tells_bytes _ _ sigs)
  rfl

/-- Every key a token's map can have. -/
def tokenKeys : List String :=
  ["spec_version", "token_id", "issued_at", "expires_at", "refresh_hint_at", "issuer", "subject", "tenant_scope",
   "team_scope", "enterprise_scope", "tier", "receipt_class", "backends", "credits", "fallback", "revocation",
   "delegation_policy", "delegation_envelope", "signature"]

theorem optPair_keys {α : Type} (key : String) (to_cbor : α → CborValue) (value : Option α) :
    ((optPair key to_cbor value).map Prod.fst).Sublist [key] := by
  cases value with
  | none => exact nil_sublist _
  | some value => exact List.Sublist.refl _

theorem pairs_keys (token : RcxCapabilityToken) (zero : Bool) : ((token.pairs zero).map Prod.fst).Sublist tokenKeys := by
  have envelope : ((if zero then [] else optPair "delegation_envelope" delegation_envelope_to_cbor token.delegation_envelope).map
      Prod.fst).Sublist ["delegation_envelope"] := by
    cases zero with
    | true => exact nil_sublist _
    | false => exact optPair_keys _ _ _
  have team := optPair_keys "team_scope" team_scope_to_cbor token.team_scope
  have enterprise := optPair_keys "enterprise_scope" enterprise_scope_to_cbor token.enterprise_scope
  have policy := optPair_keys "delegation_policy" delegation_policy_to_cbor token.delegation_policy
  simp only [pairs, map_append]
  exact ((((((List.Sublist.refl _).append team).append enterprise).append (List.Sublist.refl _)).append policy).append
    envelope).append (List.Sublist.refl _)

theorem pairs_nodup (token : RcxCapabilityToken) (zero : Bool) : ((token.pairs zero).map Prod.fst).Nodup :=
  (pairs_keys token zero).nodup (by decide)

section
variable {t u : RcxCapabilityToken} {zero : Bool} (same : canon (t.to_cbor_value zero) = canon (u.to_cbor_value zero))
include same

section
variable {α : Type} {to_cbor : α → CborValue} (tells : Tells to_cbor)
include tells

theorem token_field (here : (key, to_cbor a) ∈ t.pairs zero) (there : (key, to_cbor b) ∈ u.pairs zero) : a = b :=
  tells a b (canon_field same (pairs_nodup u zero) here there)

theorem token_always (key : String)
    (field : RcxCapabilityToken → α) (stands : ∀ token, (key, to_cbor (field token)) ∈ token.pairs zero) : field t = field u :=
  token_field same tells (stands t) (stands u)

theorem token_option (key : String) (field : RcxCapabilityToken → Option α)
    (present : ∀ token a, field token = some a → (key, to_cbor a) ∈ token.pairs zero)
    (absent : ∀ token, field token = none → key ∉ (token.pairs zero).map Prod.fst) : field t = field u := by
  cases left : field t with
  | none =>
    cases right : field u with
    | none => rfl
    | some b =>
      have stands := mem_map_of_mem (f := Prod.fst) (present u b right)
      exact absurd ((canon_keys same key).mpr stands) (absent t left)
  | some a =>
    have stands := mem_map_of_mem (f := Prod.fst) (present t a left)
    cases right : field u with
    | none => exact absurd ((canon_keys same key).mp stands) (absent u right)
    | some b => rw [token_field same tells (present t a left) (present u b right)]

end

end

theorem optPair_some {α : Type} {to_cbor : α → CborValue} {value : Option α} {a : α} (given : value = some a) :
    (key, to_cbor a) ∈ optPair key to_cbor value := by
  rw [given]
  exact mem_cons_self

theorem optPair_key {α : Type} {to_cbor : α → CborValue} {value : Option α} :
    k ∈ (optPair key to_cbor value).map Prod.fst ↔ k = key ∧ value.isSome := by
  cases value <;> simp [optPair]

/-- A token without what its issuer does not sign: the envelope and the signature itself. -/
def RcxCapabilityToken.issuerSigned (token : RcxCapabilityToken) : RcxCapabilityToken :=
  { token with delegation_envelope := none, signature := token.signature.zeroed }

section
variable {t u : RcxCapabilityToken} {zero : Bool} (same : canon (t.to_cbor_value zero) = canon (u.to_cbor_value zero))
include same

theorem token_optional : t.team_scope = u.team_scope ∧ t.enterprise_scope = u.enterprise_scope ∧ t.delegation_policy = u.delegation_policy := by
  refine ⟨token_option same tells_team_scope "team_scope" team_scope ?_ ?_,
    token_option same tells_enterprise_scope "enterprise_scope" enterprise_scope ?_ ?_,
    token_option same tells_delegation_policy "delegation_policy" delegation_policy ?_ ?_⟩
  case refine_1 | refine_3 | refine_5 =>
    intro token a given
    simp [pairs, optPair_some given]
  case refine_2 | refine_4 | refine_6 =>
    intro token missing
    simp only [pairs, map_append, mem_append, optPair_key, missing]
    cases zero <;> simp [optPair_key, -mem_map]

/-- Both trees determine every field but the envelope and the signature. -/
theorem token_fields : { t with delegation_envelope := u.delegation_envelope, signature := u.signature } = u := by
  have spec := token_always same tells_text "spec_version" (·.spec_version) (by simp [pairs])
  have name := token_always same tells_text "token_id" (·.token_id) (by simp [pairs])
  have issued := token_always same tells_uint "issued_at" (·.issued_at) (by simp [pairs])
  have expires := token_always same tells_uint "expires_at" (·.expires_at) (by simp [pairs])
  have refresh := token_always same tells_uint "refresh_hint_at" (·.refresh_hint_at) (by simp [pairs])
  have issuer := token_always same tells_issuer "issuer" (·.issuer) (by simp [pairs])
  have subject := token_always same tells_subject "subject" (·.subject) (by simp [pairs])
  have tenant := token_always same tells_tenant_scope "tenant_scope" (·.tenant_scope) (by simp [pairs])
  have tier := token_always same (tells_text.comp tier_as_str_injective) "tier" (·.tier) (by simp [pairs])
  have receipts := token_always same (tells_text.comp receipt_class_as_str_injective) "receipt_class" (·.receipt_class)
    (by simp [pairs])
  have backends := token_always same tells_backend.array "backends" (·.backends) (by simp [pairs])
  have credits := token_always same tells_credits "credits" (·.credits) (by simp [pairs])
  have fallback := token_always same tells_fallback "fallback" (·.fallback) (by simp [pairs])
  have revocation := token_always same tells_revocation "revocation" (·.revocation) (by simp [pairs])
  obtain ⟨team, enterprise, policy⟩ := token_optional same
  cases t
  cases u
  simp_all

end

theorem issuerSigned_of_canon {t u : RcxCapabilityToken}
    (same : canon (t.to_cbor_value true) = canon (u.to_cbor_value true)) : t.issuerSigned = u.issuerSigned := by
  have signature := signature_zeroed (canon_field same (pairs_nodup u true)
    (mem_append_right _ mem_cons_self) (mem_append_right _ mem_cons_self))
  rw [← token_fields same, issuerSigned, issuerSigned, signature]

/-- The canonical bytes are those of one token. -/
theorem token_of_canon {t u : RcxCapabilityToken}
    (same : canon (t.to_cbor_value false) = canon (u.to_cbor_value false)) : t = u := by
  have signature := token_always same tells_signature "signature" (·.signature) (by simp [pairs])
  have envelope : t.delegation_envelope = u.delegation_envelope := by
    refine token_option same tells_delegation_envelope "delegation_envelope" delegation_envelope ?_ ?_
    · intro token a given
      simp [pairs, optPair_some given]
    · intro token missing
      simp [pairs, optPair_key, missing]
  rw [← token_fields same, ← signature, ← envelope]

/-- The CBOR a signature covers is unambiguous: trees with distinct keys have one encoding exactly when they
differ in the order of map pairs alone, the decoder returns such a tree with its pairs in key order, and tokens
with equal signing bytes agree on every field the issuer signs. -/
theorem signed_cbor_unambiguous :
    (∀ v w : CborValue, Fits v → Fits w → DistinctKeys v → (v.encode = w.encode ↔ Reordered v w))
    ∧ (∀ v : CborValue, Fits v → DistinctKeys v →
        ∃ w, decode v.encode = .ok w ∧ Reordered v w ∧ InKeyOrder w)
    ∧ ∀ t u : RcxCapabilityToken, Fits (t.to_cbor_value true) → Fits (u.to_cbor_value true) →
        t.to_signing_cbor = u.to_signing_cbor → t.issuerSigned = u.issuerSigned := by
  refine ⟨?_, ?_, ?_⟩
  · intro v w fits fits' distinct
    exact encode_eq_iff_reordered fits fits' distinct
  · intro v fits distinct
    exact ⟨canon v, decode_encode fits, reordered_canon v, canon_inKeyOrder fits distinct⟩
  · intro t u fits fits' same
    exact issuerSigned_of_canon (canon_eq_of_encode fits fits' same)

/-- The fixture under another signature. -/
def resignedFixture : RcxCapabilityToken :=
  { free_local_verified_fixture with signature := free_local_verified_fixture.signature.zeroed }

/-- Two orders of one map, and one token under two signatures. -/
theorem fixture_unambiguous :
    (CborValue.Map [("b", .Uint 1), ("a", .Null)]).encode = (CborValue.Map [("a", .Null), ("b", .Uint 1)]).encode
    ∧ (∃ w, decode (CborValue.Map [("b", .Uint 1), ("a", .Null)]).encode = .ok w ∧ InKeyOrder w)
    ∧ free_local_verified_fixture.issuerSigned = resignedFixture.issuerSigned := by
  have fits : Fits (.Map [("b", .Uint 1), ("a", .Null)]) := by decide +kernel
  have fits' : Fits (.Map [("a", .Null), ("b", .Uint 1)]) := by decide +kernel
  have distinct : DistinctKeys (.Map [("b", .Uint 1), ("a", .Null)]) := by decide +kernel
  obtain ⟨w, read, -, ordered⟩ := signed_cbor_unambiguous.2.1 _ fits distinct
  refine ⟨(signed_cbor_unambiguous.1 _ _ fits fits' distinct).mpr (.swap [] [] _ _), ⟨w, read, ordered⟩, ?_⟩
  exact signed_cbor_unambiguous.2.2 free_local_verified_fixture resignedFixture (by decide +kernel) (by decide +kernel) rfl

end Crux.Rcx
