import Mathlib.Data.List.Chain
import Crux.Bytes

/-!
# The certificate chain of a timestamp

From the signer's certificate to a trusted root, each time to the first
certificate at hand that has the issuer's name and whose key verifies the
signature.
-/

namespace Crux.Witness
open Crux.Bytes List Relation

/-- What the search reads of a certificate. -/
structure Certificate where
  subject : Bytes
  issuer : Bytes
  not_before : Int
  not_after : Int
  public_key : Bytes
  /-- Basic constraints are there and `cA` is true. -/
  ca : Bool
deriving DecidableEq

/-- The parser, the signature of a certificate under a key (its own, where none is given), and the digest. -/
structure X509 where
  from_der : Bytes → Except String Certificate
  verify_signature : Bytes → Option Bytes → Bool
  sha256 : Bytes → Bytes

namespace X509
variable (x : X509)

/-- Whether a candidate has issued the current certificate. -/
def issues (current_der : Bytes) (current : Certificate) (candidate_der : Bytes) : Bool :=
  candidate_der ≠ current_der && match x.from_der candidate_der with
    | .error _ => false
    | .ok issuer => current.issuer = issuer.subject && x.verify_signature current_der (some issuer.public_key)

section
variable (candidates trusted_root_ders : List Bytes) (gen_time : Int)

/-- The rounds of the search that are left, with the digests seen and the current certificate. -/
def follow : Nat → List Bytes → Bytes → Except String Unit
  | 0, _, _ => .error "certificate chain exceeded candidate length"
  | rounds + 1, seen_hashes, current_der =>
    if x.sha256 current_der ∈ seen_hashes then .error "certificate chain loop detected"
    else
      match x.from_der current_der with
      | .error err => .error ("certificate parse failed during chain validation: " ++ err)
      | .ok current =>
        if ¬(current.not_before ≤ gen_time ∧ gen_time ≤ current.not_after) then
          .error "certificate in TSA chain was not valid at genTime"
        else if current_der ∈ trusted_root_ders then
          if x.verify_signature current_der none then .ok ()
          else .error "trusted TSA root self-signature verification failed"
        else
          match candidates.find? (x.issues current_der current) with
          | none => .error "no issuer found for certificate in TSA chain"
          | some found => follow rounds (seen_hashes ++ [x.sha256 current_der]) found

end

def validate_tsa_chain_v1 (signer_cert_der : Bytes) (cert_ders trusted_root_ders : List Bytes) (gen_time : Int) :
    Except String Unit :=
  x.follow (cert_ders ++ trusted_root_ders) trusted_root_ders gen_time ((cert_ders ++ trusted_root_ders).length + 1) []
    signer_cert_der

section
variable (signer : Bytes) (certs roots : List Bytes) (time : Int)

/-- A certificate within its validity period. -/
def Within (der : Bytes) : Prop :=
  ∃ certificate, x.from_der der = .ok certificate ∧ certificate.not_before ≤ time ∧ time ≤ certificate.not_after

/-- From a certificate to one at hand under whose key its signature verifies. -/
def SignedBy (der next : Bytes) : Prop :=
  next ∈ certs ++ roots ∧ x.Within time next ∧
    ∃ issuer, x.from_der next = .ok issuer ∧ x.verify_signature der (some issuer.public_key) = true

/-- The same, where the issuing certificate is that of an authority. -/
def SignedByCa (der next : Bytes) : Prop :=
  x.SignedBy certs roots time der next ∧ ∃ issuer, x.from_der next = .ok issuer ∧ issuer.ca = true

/-- A chain from the signer to a trusted root, each certificate within its validity period. -/
def Chained (step : Bytes → Bytes → Prop) : Prop :=
  x.Within time signer ∧
    ∃ chain, (signer :: chain).IsChain step ∧ (signer :: chain).getLast (cons_ne_nil _ _) ∈ roots

end

section
variable {x : X509} {certs roots : List Bytes} {time : Int}

theorem chained_iff {signer : Bytes} {step : Bytes → Bytes → Prop} :
    x.Chained signer roots time step ↔
      x.Within time signer ∧ ∃ root ∈ roots, ReflTransGen step signer root := by
  refine and_congr_right fun _ => ⟨?_, ?_⟩
  · rintro ⟨chain, linked, trusted⟩
    exact ⟨_, trusted, relationReflTransGen_of_exists_isChain_cons chain linked rfl⟩
  · rintro ⟨root, trusted, reached⟩
    obtain ⟨chain, linked, last⟩ := exists_isChain_cons_of_relationReflTransGen reached
    exact ⟨chain, linked, last ▸ trusted⟩

theorem follow_reaches {rounds : Nat} {seen : List Bytes} {der : Bytes}
    (accepted : x.follow (certs ++ roots) roots time rounds seen der = .ok ()) :
    x.Within time der ∧
      ∃ root ∈ roots, ReflTransGen (x.SignedBy certs roots time) der root := by
  induction rounds generalizing seen der with
  | zero => cases accepted
  | succ rounds ih =>
    unfold follow at accepted
    cases parsed : x.from_der der with
    | error err =>
      rw [parsed] at accepted
      split_ifs at accepted
    | ok current =>
      rw [parsed] at accepted
      dsimp only at accepted
      split_ifs at accepted with loops late trusted own
      · exact ⟨⟨current, parsed, late⟩, der, trusted, .refl⟩
      · cases found : (certs ++ roots).find? (x.issues der current) with
        | none =>
          rw [found] at accepted
          cases accepted
        | some next =>
          rw [found] at accepted
          -- that the issuer is valid is checked in the next round
          obtain ⟨within, root, trusted, reached⟩ := ih accepted
          have issued := find?_some found
          obtain ⟨issuer, read, _⟩ := id within
          rw [issues, read] at issued
          simp at issued
          have step : x.SignedBy certs roots time der next :=
            ⟨mem_of_find?_eq_some found, within, issuer, read, issued.2.2⟩
          exact ⟨⟨current, parsed, late⟩, root, trusted, .head step reached⟩

variable {signer : Bytes}

theorem accepted_chained (accepted : x.validate_tsa_chain_v1 signer certs roots time = .ok ()) :
    x.Chained signer roots time (x.SignedBy certs roots time) :=
  chained_iff.mpr (follow_reaches accepted)

/-- Where all certificates at hand are those of authorities, so is the chain. -/
theorem chained_of_authorities
    (authorities : ∀ der ∈ certs ++ roots, ∀ issuer, x.from_der der = .ok issuer → issuer.ca = true)
    (accepted : x.validate_tsa_chain_v1 signer certs roots time = .ok ()) :
    x.Chained signer roots time (x.SignedByCa certs roots time) := by
  obtain ⟨within, chain, linked, trusted⟩ := accepted_chained accepted
  refine ⟨within, chain, linked.imp ?_, trusted⟩
  rintro der next ⟨there, inside, issuer, read, signed⟩
  exact ⟨⟨there, inside, issuer, read, signed⟩, issuer, read, authorities next there issuer read⟩

end

end X509

/-- Three certificates: the signer's, one that is no authority's and has signed it, and the root. -/
def unauthorised : X509 where
  from_der der :=
    if der = [1] then .ok ⟨[1], [2], 0, 9, [1], false⟩
    else if der = [2] then .ok ⟨[2], [3], 0, 9, [2], false⟩
    else if der = [3] then .ok ⟨[3], [3], 0, 9, [3], true⟩
    else .error "malformed"
  verify_signature der key := (der, key) ∈ [([1], some [2]), ([2], some [3]), ([3], none)]
  sha256 der := der

end Crux.Witness
