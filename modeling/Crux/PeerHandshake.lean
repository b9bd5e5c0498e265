import Crux.TokenNarrows
import Crux.KeyMap

/-!
# The nonces of the peer handshake

The nonce cache of `crux-sync` and the handshake that consumes its nonces: one
handshake for each nonce, within its time, by the key the token names.
-/

namespace Crux.Rcx
open Crux.Bytes List
open Crux.Session (as_bytes as_bytes_inj)

def RcxCapabilityToken.requires_contextual_verification (token : RcxCapabilityToken) : Bool :=
  token.spec_version = RCX_CT_DELEGATION_SPEC_VERSION || token.delegation_policy.isSome || token.delegation_envelope.isSome

def PEER_HANDSHAKE_SIGNING_DOMAIN : Bytes := as_bytes "crux-sync/peer-handshake/v1\x00"

def signing_message (token_id : String) (nonce : Bytes) : Bytes :=
  PEER_HANDSHAKE_SIGNING_DOMAIN ++ (as_bytes token_id ++ ([0] ++ nonce))

structure AuthenticatedPeer where
  passport_fpr : String
  tenant_id : String

inductive PeerAuthError where
  | TokenInvalid (outcome : VerifyOutcome)
  | FprMismatch
  | BadPossessionSig
  | NonceUnknownOrUsed
  | NonceExpired
  | Revoked

structure PeerHandshake where
  capability_token : RcxCapabilityToken
  peer_public_key : FixedBytes RCX_CT_PUBLIC_KEY_LEN
  nonce : Bytes
  nonce_signature : FixedBytes RCX_CT_SIGNATURE_LEN

structure NonceEntry where
  expires_at : UInt64
  consumed : Bool

structure NonceCache where
  ttl_seconds : UInt64
  entries : KeyMap Bytes NonceEntry

def NonceCache.issue (cache : NonceCache) (now_unix_seconds : UInt64) (random_nonce : FixedBytes 32) : NonceCache :=
  if (cache.entries random_nonce.val).isSome then cache
  else { cache with
    entries := cache.entries.insert random_nonce.val ⟨saturating_add now_unix_seconds cache.ttl_seconds, false⟩ }

def NonceCache.sweep_expired (cache : NonceCache) (now_unix_seconds : UInt64) : NonceCache :=
  { cache with entries := fun nonce => (cache.entries nonce).filter fun entry => now_unix_seconds ≤ entry.expires_at }

/-- A handshake with what the server checks it against. -/
structure Attempt where
  hs : PeerHandshake
  trust_root_pubkey : Bytes
  now_unix_seconds : UInt64
  is_revoked : RcxCapabilityToken → Bool

section
variable (crates : TokenCrates)

def verify_token (token : RcxCapabilityToken) (trust_root_pubkey : Bytes) (now_unix_seconds : UInt64) : VerifyOutcome :=
  let outcome := verify_issuer_signed_token crates token trust_root_pubkey now_unix_seconds
  if outcome = .Verified ∧ token.requires_contextual_verification then
    .StructuralFailure ["proof_of_possession_context_required"]
  else outcome

def verify_peer_handshake (cache : NonceCache) (a : Attempt) : NonceCache × Except PeerAuthError AuthenticatedPeer :=
  let token := a.hs.capability_token
  let outcome := verify_token crates token a.trust_root_pubkey a.now_unix_seconds
  if outcome ≠ .Verified then (cache, .error (.TokenInvalid outcome))
  else if passport_fpr_from_public_key crates a.hs.peer_public_key ≠ token.subject.passport_fpr then (cache, .error .FprMismatch)
  else if crates.from_bytes a.hs.peer_public_key = false ∨
      crates.verify_strict a.hs.peer_public_key (signing_message token.token_id a.hs.nonce) a.hs.nonce_signature = false then
    (cache, .error .BadPossessionSig)
  else if a.is_revoked token then (cache, .error .Revoked)
  else match cache.entries a.hs.nonce with
    | none => (cache, .error .NonceUnknownOrUsed)
    | some entry =>
      if entry.consumed then (cache, .error .NonceUnknownOrUsed)
      else if entry.expires_at < a.now_unix_seconds then (cache, .error .NonceExpired)
      else ({ cache with entries := cache.entries.insert a.hs.nonce { entry with consumed := true } },
        .ok ⟨token.subject.passport_fpr, token.tenant_scope.tenant_id⟩)

/-- The server's cache, the nonces issued with their times, and the handshakes that succeeded. -/
structure Server where
  cache : NonceCache
  issued : List (Bytes × UInt64) := []
  accepted : List Attempt := []

inductive Call where
  | issue (now_unix_seconds : UInt64) (random_nonce : FixedBytes 32)
  | sweep_expired (now_unix_seconds : UInt64)
  | verify (attempt : Attempt)

def Server.step (s : Server) : Call → Server
  | .issue now nonce => { s with cache := s.cache.issue now nonce, issued := s.issued ++ [(nonce.val, now)] }
  | .sweep_expired now => { s with cache := s.cache.sweep_expired now }
  | .verify a =>
    let answer := verify_peer_handshake crates s.cache a
    { s with cache := answer.1, accepted := if answer.2.isOk then s.accepted ++ [a] else s.accepted }

def Server.run (ttl_seconds : UInt64) (calls : List Call) : Server :=
  calls.foldl (Server.step crates) { cache := ⟨ttl_seconds, KeyMap.empty⟩ }

/-- The checks before the nonce. -/
structure Passed (a : Attempt) : Prop where
  token : verify_token crates a.hs.capability_token a.trust_root_pubkey a.now_unix_seconds = .Verified
  subject : passport_fpr_from_public_key crates a.hs.peer_public_key = a.hs.capability_token.subject.passport_fpr
  possession : crates.verify_strict a.hs.peer_public_key (signing_message a.hs.capability_token.token_id a.hs.nonce)
    a.hs.nonce_signature = true
  live : a.is_revoked a.hs.capability_token = false

end

variable {crates : TokenCrates}

theorem signing_message_inj {id id' : String} {nonce nonce' : FixedBytes 32}
    (same : signing_message id nonce.val = signing_message id' nonce'.val) : id = id' ∧ nonce = nonce' := by
  have tails := (append_inj same rfl).2
  obtain ⟨ids, nonces⟩ := append_inj' tails (by simp)
  exact ⟨as_bytes_inj.mp ids, Subtype.ext (List.cons.inj nonces).2⟩

/-- A handshake fails and changes nothing, or all checks passed and its nonce is consumed. -/
theorem verify_cases (crates : TokenCrates) (cache : NonceCache) (a : Attempt) :
    (∃ e, verify_peer_handshake crates cache a = (cache, .error e)) ∨ ∃ entry peer, Passed crates a ∧
      cache.entries a.hs.nonce = some entry ∧ entry.consumed = false ∧ a.now_unix_seconds ≤ entry.expires_at ∧
      verify_peer_handshake crates cache a =
        ({ cache with entries := cache.entries.insert a.hs.nonce { entry with consumed := true } }, .ok peer) := by
  rw [verify_peer_handshake]
  split_ifs with invalid other unsigned revoked
  · exact .inl ⟨_, rfl⟩
  · exact .inl ⟨_, rfl⟩
  · exact .inl ⟨_, rfl⟩
  · exact .inl ⟨_, rfl⟩
  · split
    · exact .inl ⟨_, rfl⟩
    · next entry found =>
      split_ifs with used expired
      · exact .inl ⟨_, rfl⟩
      · exact .inl ⟨_, rfl⟩
      · exact .inr ⟨entry, _, ⟨not_not.mp invalid, not_not.mp other, by simpa using (not_or.mp unsigned).2, by simpa using revoked⟩,
          found, by simpa using used, UInt64.not_lt.mp expired, rfl⟩

/-- What keys signed: a token id with a nonce. -/
abbrev Signed := FixedBytes RCX_CT_PUBLIC_KEY_LEN → String → FixedBytes 32 → Prop

/-- A handshake message that verifies is one that the key signed. -/
def Unforgeable (crates : TokenCrates) (signed : Signed) : Prop :=
  ∀ key id (nonce : FixedBytes 32) sig, crates.verify_strict key (signing_message id nonce.val) sig = true →
    ∃ id' nonce', signed key id' nonce' ∧ signing_message id' nonce'.val = signing_message id nonce.val

section
variable (crates) (signed : Signed) (ttl : UInt64) (s : Server)

/-- The nonce was issued, it is in its time, and the key that the token names signed it with the token's id. -/
def Proven (a : Attempt) : Prop :=
  Passed crates a ∧ (∃ t, (a.hs.nonce, t) ∈ s.issued ∧ a.now_unix_seconds ≤ saturating_add t ttl) ∧
    ∃ nonce, nonce.val = a.hs.nonce ∧ signed a.hs.peer_public_key a.hs.capability_token.token_id nonce

structure Single : Prop where
  lifetime : s.cache.ttl_seconds = ttl
  entry : ∀ n e, s.cache.entries n = some e → (∃ t, (n, t) ∈ s.issued ∧ e.expires_at = saturating_add t ttl) ∧
    n.length = 32 ∧ (e.consumed = false → n ∉ s.accepted.map (·.hs.nonce))
  once : (s.accepted.map (·.hs.nonce)).Nodup
  proven : ∀ a ∈ s.accepted, Proven crates signed ttl s a

end

section
variable {signed : Signed} {ttl : UInt64} {s : Server}

theorem Single.issue (single : Single crates signed ttl s) (fresh : nonce.val ∉ s.issued.map Prod.fst) :
    Single crates signed ttl (s.step crates (.issue now nonce)) := by
  have absent : s.cache.entries nonce.val = none := by
    by_contra present
    obtain ⟨e, found⟩ := Option.ne_none_iff_exists'.mp present
    obtain ⟨⟨t, there, _⟩, _⟩ := single.entry _ e found
    exact fresh (mem_map_of_mem there)
  have unused : nonce.val ∉ s.accepted.map (·.hs.nonce) := by
    intro used
    obtain ⟨a, member, same⟩ := mem_map.mp used
    obtain ⟨_, ⟨t, there, _⟩, _⟩ := single.proven a member
    exact fresh (same ▸ mem_map_of_mem there)
  have later {n : Bytes} {t : UInt64} (there : (n, t) ∈ s.issued) : (n, t) ∈ s.issued ++ [(nonce.val, now)] :=
    mem_append_left _ there
  simp [Server.step, NonceCache.issue, absent]
  refine ⟨single.lifetime, fun n e found => ?_, single.once, fun a member => ?_⟩
  · change (s.cache.entries.insert nonce.val _) n = some e at found
    rw [KeyMap.insert_apply] at found
    split_ifs at found with same
    · cases found
      subst same
      exact ⟨⟨now, by simp, by rw [single.lifetime]⟩, nonce.property, fun _ => unused⟩
    · obtain ⟨⟨t, there, expires⟩, rest⟩ := single.entry n e found
      exact ⟨⟨t, later there, expires⟩, rest⟩
  · obtain ⟨passed, ⟨t, there, inside⟩, own⟩ := single.proven a member
    exact ⟨passed, ⟨t, later there, inside⟩, own⟩

theorem Single.verify (unforgeable : Unforgeable crates signed) (single : Single crates signed ttl s) (a : Attempt) : Single crates signed ttl (s.step crates (.verify a)) := by
  rcases verify_cases crates s.cache a with ⟨e, failed⟩ | ⟨entry, peer, passed, found, unused, inside, done⟩
  · simpa [Server.step, failed, Except.toBool] using single
  · obtain ⟨⟨t, there, expires⟩, size, first⟩ := single.entry _ entry found
    obtain ⟨id, nonce, own, message⟩ := unforgeable _ _ ⟨a.hs.nonce, size⟩ _ passed.possession
    obtain ⟨rfl, rfl⟩ := signing_message_inj message
    simp [Server.step, done, Except.toBool]
    refine ⟨single.lifetime, fun n e kept => ?_, ?_, fun b member => ?_⟩
    · change (s.cache.entries.insert a.hs.nonce _) n = some e at kept
      rw [KeyMap.insert_apply] at kept
      split_ifs at kept with same
      · cases kept
        exact ⟨⟨t, same ▸ there, expires⟩, same ▸ size, nofun⟩
      · obtain ⟨issued, length, fresh⟩ := single.entry n e kept
        refine ⟨issued, length, fun open_entry => ?_⟩
        simpa [same] using fresh open_entry
    · rw [map_append, nodup_append]
      refine ⟨single.once, nodup_singleton _, fun n used m new => ?_⟩
      rintro rfl
      rw [mem_singleton.mp new] at used
      exact first unused used
    · rcases mem_append.mp member with old | new
      · exact single.proven b old
      · rw [mem_singleton.mp new]
        exact ⟨passed, ⟨t, there, expires ▸ inside⟩, _, rfl, own⟩

theorem Single.run (unforgeable : Unforgeable crates signed) (calls : List Call)
    (fresh : ((Server.run crates ttl calls).issued.map Prod.fst).Nodup) :
    Single crates signed ttl (Server.run crates ttl calls) := by
  induction calls using List.reverseRecOn with
  | nil => exact ⟨rfl, fun n e found => absurd found.symm (Option.some_ne_none e), .nil, fun a member => absurd member not_mem_nil⟩
  | append_singleton calls call before =>
    have last : Server.run crates ttl (calls ++ [call]) = (Server.run crates ttl calls).step crates call := foldl_append ..
    rw [last] at fresh ⊢
    cases call with
    | issue now nonce =>
      rw [Server.step, map_append, nodup_append] at fresh
      exact (before fresh.1).issue fun again => fresh.2.2 _ again _ (by simp) rfl
    | sweep_expired now =>
      obtain ⟨lifetime, entry, once, proven⟩ := before fresh
      exact ⟨lifetime, fun n e kept => entry n e (Option.filter_eq_some_iff.mp kept).1, once, proven⟩
    | verify a => exact Single.verify unforgeable (before fresh) a

/-- Each nonce is of one handshake at most, within its time, and every success is proven; a failed
attempt changes nothing and no attempt changes another nonce. -/
theorem peer_nonces_single_use (unforgeable : Unforgeable crates signed) :
    (∀ ttl_seconds calls, ((Server.run crates ttl_seconds calls).issued.map Prod.fst).Nodup →
      ((Server.run crates ttl_seconds calls).accepted.map (·.hs.nonce)).Nodup ∧
      ∀ a ∈ (Server.run crates ttl_seconds calls).accepted,
        Proven crates signed ttl_seconds (Server.run crates ttl_seconds calls) a) ∧
    ∀ cache a, ((verify_peer_handshake crates cache a).2.isOk = false → (verify_peer_handshake crates cache a).1 = cache) ∧
      ∀ n, n ≠ a.hs.nonce → (verify_peer_handshake crates cache a).1.entries n = cache.entries n := by
  refine ⟨fun ttl_seconds calls fresh => ?_, fun cache a => ?_⟩
  · have single := Single.run unforgeable calls fresh
    exact ⟨single.once, single.proven⟩
  · rcases verify_cases crates cache a with ⟨e, failed⟩ | ⟨_, _, _, _, _, _, done⟩
    · rw [failed]
      exact ⟨fun _ => rfl, fun _ _ => rfl⟩
    · rw [done]
      exact ⟨nofun, fun n other => KeyMap.insert_other _ _ other⟩

end

def peerToken : RcxCapabilityToken := { free_local_verified_fixture with subject := syncToken.subject }

/-- Two keys: the root signed the token, the peer its id with one nonce. -/
def peerCrates : TokenCrates :=
  { sampleHashOnly with
    verify_strict := fun key message _ => (key = sampleKey 0x33 && message = (peerToken.token_hash sampleHashOnly).val) ||
      (key = sampleKey 0x11 && message = signing_message peerToken.token_id (sampleKey 7).val) }

def peerSigned : Signed := fun key id nonce => key = sampleKey 0x11 ∧ id = peerToken.token_id ∧ nonce = sampleKey 7

def peerAttempt : Attempt :=
  ⟨⟨peerToken, sampleKey 0x11, (sampleKey 7).val, zeroSignature⟩, (sampleKey 0x33).val, 1777000060, fun _ => false⟩

/-- The peer presents its proof twice and is let in once. -/
theorem peer_presented_twice :
    let s := Server.run peerCrates 60 [.issue 1777000000 (sampleKey 7), .verify peerAttempt, .verify peerAttempt]
    s.accepted.length = 1 ∧ ∀ a ∈ s.accepted, Proven peerCrates peerSigned 60 s a := by
  have holds := @peer_nonces_single_use peerCrates peerSigned ?_
  · exact ⟨by decide +kernel, fun a member => (holds.1 60 _ (by decide +kernel)).2 a member⟩
  · intro key id nonce sig verified
    simp [peerCrates] at verified
    rcases verified with ⟨_, hash⟩ | ⟨rfl, message⟩
    · have size := congrArg List.length hash
      simp [signing_message, RCX_CT_HASH_LEN] at size
      omega
    · exact ⟨_, _, ⟨rfl, rfl, rfl⟩, message.symm⟩

end Crux.Rcx
