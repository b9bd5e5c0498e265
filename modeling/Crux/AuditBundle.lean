import Crux.TextLines
import Crux.Utf8
import Crux.InclusionProofs
import Crux.BundleManifest

/-!
# Audit bundles with witness proofs

The offline check of an exported bundle: its members, the signed manifest, and the
witness proofs, whose roots a pinned log key must have signed in a checkpoint. What
such a checkpoint commits to, and what of it a verified proof agrees with.
-/

namespace Crux.Witness
open Crux.Bytes Crux.Merkle Crux.TextLines
open Crux.Frame (whitespace)

structure WitnessProofV1 where
  transparency_log : Bytes
  log_url : Bytes
  rekor_uuid : Option Bytes
  leaf_hash : Bytes
  log_index : Nat
  tree_size : Nat
  root_hash : Bytes
  inclusion_proof : List Bytes
  checkpoint : Option Bytes
  integrated_time : Bytes
  head_hash : Bytes
  entry_body_b64 : Bytes
deriving DecidableEq

inductive WitnessLogPublicKeyV1 where
  | Ed25519 (key : FixedBytes 32)
  | P256 (key : Bytes)
deriving DecidableEq

inductive AuditBundleError where
  | Io
  | Json
  | Cbor
  | Signature
  | Base64
  | UnsupportedVersion (version : Nat)
  | DecompressedTooLarge
  | MissingField (field : String)
  | MissingMember (name : String)
  | InvalidPubKeyLen (len : Nat)
  | InvalidSigLen (len : Nat)
  | EphemeralSigningKeyRefused
deriving DecidableEq

inductive SignerPinOutcomeV1 where
  | Pinned
  | Unpinned
  | Mismatch
deriving DecidableEq

/-- Why a bundle is refused, in the order the checks are made. -/
inductive FailureReason where
  | OtherSigner
  | EventsMismatch
  | ReceiptsMismatch
  | SignatureFailed
  | WitnessUndeclared
  | WitnessMissing (count : Nat)
  | WitnessMismatch
  | WitnessMalformed (line : Nat)
  | WitnessNotIncluded (line : Nat) (leaf_hash : Bytes)
  | WitnessUnbound (line : Nat) (head_hash : Bytes)
  | RootNotEndorsed (line : Nat)
  | WitnessCount (count parsed : Nat)
deriving DecidableEq

structure VerifyReportV1 where
  ok : Bool
  events_jsonl_sha256_match : Bool
  receipts_cbor_sha256_match : Bool
  signature_valid : Bool
  witness_proof_count : Nat
  witness_proofs_sha256_match : Bool
  witness_proofs_valid : Bool
  witness_root_endorsed : Option Bool
  signer_pin : SignerPinOutcomeV1
  failure_reason : Option FailureReason
deriving DecidableEq

/-- The crates the verifier is built on: hashing, encodings, signatures, and the archive. -/
structure VerifierCrates where
  sha256 : Bytes → Digest
  base64_decode : Bytes → Option Bytes
  ed25519_key : Bytes → Bool
  ed25519_verify_strict : Bytes → Bytes → Bytes → Bool
  p256_verify : Bytes → Bytes → Bytes → Bool
  /-- The archive's entries, or why it cannot be unpacked. -/
  unpack : Bytes → Except AuditBundleError (List (String × Bytes))
  parse_manifest : Bytes → Option AuditBundleManifestV1
  /-- The text of a JSON value, without spaces. -/
  to_vec : Json → Option Bytes
  parse_proof : Bytes → Option WitnessProofV1
  /-- The text at `/spec/data/hash/value` of an entry body. -/
  hash_value : Bytes → Option Bytes

def trimStartFrom : Nat → Bytes → Bytes
  | 0, s => s
  | fuel + 1, s =>
    match whitespace.find? fun w => w.isPrefixOf s with
    | some w => trimStartFrom fuel (s.drop w.length)
    | none => s

def trimEndFrom : Nat → Bytes → Bytes
  | 0, s => s
  | fuel + 1, s =>
    match whitespace.find? fun w => w.isSuffixOf s with
    | some w => trimEndFrom fuel (s.take (s.length - w.length))
    | none => s

def trim_start (s : Bytes) : Bytes := trimStartFrom s.length s

def trim (s : Bytes) : Bytes := trimEndFrom (trim_start s).length (trim_start s)

/-- Where the first empty line begins: the place of its newline's predecessor. -/
def findBlankLine : Bytes → Option Nat
  | [] => none
  | b :: rest => if b = 10 ∧ rest.head? = some 10 then some 0 else (findBlankLine rest).map (· + 1)

def rsplit_once_space (s : Bytes) : Option (Bytes × Bytes) :=
  (s.reverse.findIdx? fun b => b = 32).map fun i => (s.take (s.length - 1 - i), s.drop (s.length - i))

section
variable (crates : VerifierCrates)

/-- The signed text of a checkpoint and what stands after the empty line. -/
def checkpointParts (checkpoint : Bytes) : Option (Bytes × Bytes) :=
  (findBlankLine checkpoint).map fun sep => (checkpoint.take (sep + 1), checkpoint.drop (sep + 2))

def checkpoint_text_if_root_matches (checkpoint expected_root_hex : Bytes) : Option (Bytes × Bytes) :=
  match checkpointParts checkpoint with
  | none => none
  | some (text, sig_block) =>
    match fileLines text with
    | _origin :: _size :: root_b64 :: _ =>
      match crates.base64_decode (trim root_b64), parse_sha256_hex expected_root_hex with
      | some root_bytes, some expected_root => if root_bytes = expected_root.val then some (text, sig_block) else none
      | _, _ => none
    | _ => none

def note_signature_payload (sig_line : Bytes) : Option Bytes :=
  let line := trim_start sig_line
  if [0xE2, 0x80, 0x94, 0x20].isPrefixOf line then
    match rsplit_once_space (line.drop 4) with
    | none => none
    | some (_name, sig_b64) =>
      match crates.base64_decode (trim sig_b64) with
      | none => none
      | some raw => if 4 < raw.length then some (raw.drop 4) else none
  else none

def verify_rekor_checkpoint_v1 (checkpoint : Bytes) (log_ed25519_pubkey : FixedBytes 32) (expected_root_hex : Bytes) : Bool :=
  match checkpoint_text_if_root_matches crates checkpoint expected_root_hex with
  | none => false
  | some (text, sig_block) =>
    crates.ed25519_key log_ed25519_pubkey.val &&
      (fileLines sig_block).any fun sig_line =>
        (note_signature_payload crates sig_line).any fun payload =>
          payload.length = 64 && crates.ed25519_verify_strict log_ed25519_pubkey.val text payload

def verify_rekor_checkpoint_p256_v1 (checkpoint log_p256_key expected_root_hex : Bytes) : Bool :=
  match checkpoint_text_if_root_matches crates checkpoint expected_root_hex with
  | none => false
  | some (text, sig_block) =>
    (fileLines sig_block).any fun sig_line =>
      (note_signature_payload crates sig_line).any fun payload => crates.p256_verify log_p256_key text payload

def verify_rekor_checkpoint (checkpoint : Bytes) (key : WitnessLogPublicKeyV1) (expected_root_hex : Bytes) : Bool :=
  match key with
  | .Ed25519 k => verify_rekor_checkpoint_v1 crates checkpoint k expected_root_hex
  | .P256 vk => verify_rekor_checkpoint_p256_v1 crates checkpoint vk expected_root_hex

def verify_witness_proof_v1 (proof : WitnessProofV1) : Bool :=
  verify_rfc6962_inclusion_proof_v1 crates.sha256 proof.leaf_hash proof.log_index proof.tree_size proof.root_hash
    proof.inclusion_proof

def stripSha256 (s : Bytes) : Bytes := if SHA256_PREFIX.isPrefixOf s then s.drop SHA256_PREFIX.length else s

def verify_witness_binding_v1 (proof : WitnessProofV1) : Bool :=
  if proof.head_hash.isEmpty && proof.entry_body_b64.isEmpty then true
  else if proof.head_hash.isEmpty || proof.entry_body_b64.isEmpty then false
  else
    match crates.base64_decode proof.entry_body_b64 with
    | none => false
    | some body =>
      if hex_lower (crates.sha256 (0 :: body)).val ≠ stripSha256 proof.leaf_hash then false
      else
        match parse_sha256_hex proof.head_hash with
        | none => false
        | some head_bytes =>
          decide ((crates.hash_value body).map stripSha256 = some (hex_lower (crates.sha256 head_bytes.val).val))

/-- The outcome for the witness member: whether its hash matches, whether all proofs hold, whether the roots are endorsed. -/
abbrev WitnessVerdict := Bool × Bool × Option Bool × Option FailureReason

/-- The loop over the lines from a number on. -/
def witnessLoop (log_key : Option WitnessLogPublicKeyV1) (count : Nat) : Nat → Nat → List Bytes → WitnessVerdict
  | _, parsed, [] =>
    if parsed ≠ count then (true, false, none, some (.WitnessCount count parsed))
    else (true, true, log_key.map fun _ => true, none)
  | i, parsed, line :: rest =>
    if line.isEmpty then witnessLoop log_key count (i + 1) parsed rest
    else
      match crates.parse_proof line with
      | none => (true, false, none, some (.WitnessMalformed i))
      | some proof =>
        if ! verify_witness_proof_v1 crates proof then (true, false, none, some (.WitnessNotIncluded i proof.leaf_hash))
        else if ! verify_witness_binding_v1 crates proof then (true, false, none, some (.WitnessUnbound i proof.head_hash))
        else
          match log_key with
          | none => witnessLoop log_key count (i + 1) (parsed + 1) rest
          | some key =>
            if proof.checkpoint.any fun cp => verify_rekor_checkpoint crates cp key proof.root_hash then
              witnessLoop log_key count (i + 1) (parsed + 1) rest
            else (true, true, some false, some (.RootNotEndorsed i))

/-- The lines of the member, the one after the last newline with them. -/
def memberLines (bytes : Bytes) : List Bytes := (splitLines bytes).1 ++ [(splitLines bytes).2]

def hex_sha256 (bytes : Bytes) : Bytes := hex_lower (crates.sha256 bytes).val

def verify_witness_member (manifest : AuditBundleManifestV1) (witness_bytes : Option Bytes)
    (log_key : Option WitnessLogPublicKeyV1) : WitnessVerdict :=
  match manifest.witness_proof_count, witness_bytes with
  | 0, none => (true, true, none, none)
  | 0, some bytes => if bytes.isEmpty then (true, true, none, none) else (false, false, none, some .WitnessUndeclared)
  | count + 1, none => (false, false, none, some (.WitnessMissing (count + 1)))
  | count + 1, some bytes =>
    if manifest.witness_proofs_sha256 ≠ some (hex_sha256 crates bytes) then (false, false, none, some .WitnessMismatch)
    else witnessLoop crates log_key (count + 1) 0 0 (memberLines bytes)

def MANIFEST_FILENAME : String := "manifest.json"
def EVENTS_FILENAME : String := "events.jsonl"
def RECEIPTS_FILENAME : String := "receipts.cbor"
def WITNESS_FILENAME : String := "witness_proofs.jsonl"

/-- The last entry of the archive with a name. -/
def memberOf (entries : List (String × Bytes)) (name : String) : Option Bytes :=
  (entries.reverse.find? fun entry => entry.1 = name).map Prod.snd

def required (entries : List (String × Bytes)) (name : String) : Except AuditBundleError Bytes :=
  match memberOf entries name with
  | some bytes => .ok bytes
  | none => .error (.MissingMember name)

def orError {α : Type} (e : AuditBundleError) : Option α → Except AuditBundleError α
  | some a => .ok a
  | none => .error e

def evaluate_signer_pin_v1 (expected : Option (FixedBytes 32)) (embedded_key : Bytes) : SignerPinOutcomeV1 :=
  match expected with
  | none => .Unpinned
  | some pin => if embedded_key = pin.val then .Pinned else .Mismatch

section
variable (manifest : AuditBundleManifestV1)

/-- A bundle refused before the witness proofs are looked at. -/
def refused (signer_pin : SignerPinOutcomeV1) (events_match receipts_match : Bool) (reason : FailureReason) : VerifyReportV1 where
  ok := false
  events_jsonl_sha256_match := events_match
  receipts_cbor_sha256_match := receipts_match
  signature_valid := false
  witness_proof_count := manifest.witness_proof_count
  witness_proofs_sha256_match := false
  witness_proofs_valid := false
  witness_root_endorsed := none
  signer_pin := signer_pin
  failure_reason := some reason

/-- The report on a manifest whose signature holds. -/
def witnessReport (signer_pin : SignerPinOutcomeV1) (verdict : WitnessVerdict) : VerifyReportV1 where
  ok := verdict.1 && verdict.2.1 && verdict.2.2.1.getD true
  events_jsonl_sha256_match := true
  receipts_cbor_sha256_match := true
  signature_valid := true
  witness_proof_count := manifest.witness_proof_count
  witness_proofs_sha256_match := verdict.1
  witness_proofs_valid := verdict.2.1
  witness_root_endorsed := verdict.2.2.1
  signer_pin := signer_pin
  failure_reason := verdict.2.2.2

/-- The checks of the manifest's signature and of the witness proofs. -/
def verifySigned (pubkey_bytes : Bytes) (signer_pin : SignerPinOutcomeV1)
    (witness_bytes : Option Bytes) (log_key : Option WitnessLogPublicKeyV1) : Except AuditBundleError VerifyReportV1 := do
  ensure (crates.ed25519_key pubkey_bytes = true) AuditBundleError.Signature
  let sig_bytes ← orError .Base64 (crates.base64_decode manifest.signature_b64)
  ensure (sig_bytes.length = 64) (AuditBundleError.InvalidSigLen sig_bytes.length)
  let signing_bytes ← orError .Json (manifest.canonical_signing_bytes crates.to_vec)
  if ! crates.ed25519_verify_strict pubkey_bytes signing_bytes sig_bytes then
    .ok (refused manifest signer_pin true true .SignatureFailed)
  else .ok (witnessReport manifest signer_pin (verify_witness_member crates manifest witness_bytes log_key))

end

def verify_bundle_pinned_v1 (tar_zst_bytes : Bytes) (log_key : Option WitnessLogPublicKeyV1)
    (expected : Option (FixedBytes 32)) : Except AuditBundleError VerifyReportV1 := do
  let entries ← crates.unpack tar_zst_bytes
  let manifest_raw ← required entries MANIFEST_FILENAME
  let events ← required entries EVENTS_FILENAME
  let receipts ← required entries RECEIPTS_FILENAME
  let manifest ← orError .Json (crates.parse_manifest manifest_raw)
  ensure (manifest.bundle_format_version ∈ [1, 2, 3]) (AuditBundleError.UnsupportedVersion manifest.bundle_format_version)
  ensure (¬ (manifest.bundle_format_version = 3 ∧ manifest.key_class = none)) (AuditBundleError.MissingField "key_class")
  let pubkey_bytes ← orError .Base64 (crates.base64_decode manifest.signer_public_key_b64)
  ensure (pubkey_bytes.length = 32) (AuditBundleError.InvalidPubKeyLen pubkey_bytes.length)
  let signer_pin := evaluate_signer_pin_v1 expected pubkey_bytes
  let events_match := decide (hex_sha256 crates events = manifest.events_jsonl_sha256)
  let receipts_match := decide (hex_sha256 crates receipts = manifest.receipts_cbor_sha256)
  if signer_pin = .Mismatch then .ok (refused manifest signer_pin false false .OtherSigner)
  else if ! events_match then .ok (refused manifest signer_pin false receipts_match .EventsMismatch)
  else if ! receipts_match then .ok (refused manifest signer_pin true false .ReceiptsMismatch)
  else verifySigned crates manifest pubkey_bytes signer_pin (memberOf entries WITNESS_FILENAME) log_key

/-- The proofs of a witness member. -/
def proofsOf (bytes : Bytes) : List WitnessProofV1 :=
  (memberLines bytes).filterMap fun line => if line.isEmpty then none else crates.parse_proof line

/-- The witness proofs a bundle declares and carries. -/
def bundleProofs (tar_zst_bytes : Bytes) : List WitnessProofV1 :=
  match crates.unpack tar_zst_bytes with
  | .ok entries => ((memberOf entries WITNESS_FILENAME).map (proofsOf crates)).getD []
  | .error _ => []

/-- What each proof of a verified bundle has passed. -/
structure Endorsed (key : WitnessLogPublicKeyV1) (proof : WitnessProofV1) : Prop where
  included : verify_witness_proof_v1 crates proof = true
  bound : verify_witness_binding_v1 crates proof = true
  signed : ∃ cp, proof.checkpoint = some cp ∧ verify_rekor_checkpoint crates cp key proof.root_hash = true

variable {key : WitnessLogPublicKeyV1}

theorem witnessLoop_endorsed (passed : witnessLoop crates (some key) count i parsed lines = verdict)
    (valid : verdict.2.1 = true) (accepted : verdict.2.2.1.getD true = true) :
    ∀ proof ∈ lines.filterMap (fun line => if line.isEmpty then none else crates.parse_proof line), Endorsed crates key proof := by
  induction lines generalizing i parsed with
  | nil => simp
  | cons line rest ih =>
    rw [witnessLoop] at passed
    intro proof member
    rw [List.filterMap_cons] at member
    by_cases blank : line.isEmpty = true
    · rw [if_pos blank] at passed member
      exact ih passed proof member
    · rw [if_neg blank] at passed member
      cases read : crates.parse_proof line with
      | none =>
        rw [read] at passed
        cases passed
        cases valid
      | some first =>
        rw [read] at passed member
        dsimp only at passed member
        split_ifs at passed with missed unbound signed
        · cases passed
          cases valid
        · cases passed
          cases valid
        · rcases List.mem_cons.mp member with rfl | later
          · rw [Option.any_eq_true] at signed
            exact ⟨by simpa using missed, by simpa using unbound, signed⟩
          · exact ih passed proof later
        · cases passed
          cases accepted

theorem bundle_endorsed (verified : verify_bundle_pinned_v1 crates tar_zst_bytes (some key) expected = .ok report)
    (ok : report.ok = true) : ∀ proof ∈ bundleProofs crates tar_zst_bytes, Endorsed crates key proof := by
  simp only [verify_bundle_pinned_v1, bind_ok_iff] at verified
  obtain ⟨entries, unpacked, _, _, events, _, receipts, _, manifest, _, _, _, _, _, _, _, _, _, verified⟩ := verified
  split_ifs at verified
  · cases verified
    cases ok
  · cases verified
    cases ok
  · cases verified
    cases ok
  · simp only [verifySigned, bind_ok_iff] at verified
    obtain ⟨_, _, sig_bytes, _, _, _, signing_bytes, _, verified⟩ := verified
    split_ifs at verified
    · cases verified
      cases ok
    · cases verified
      simp only [witnessReport, Bool.and_eq_true] at ok
      obtain ⟨⟨matched, valid⟩, accepted⟩ := ok
      unfold bundleProofs
      rw [unpacked]
      dsimp only
      cases witness : memberOf entries WITNESS_FILENAME with
      | none => simp
      | some bytes =>
        rw [witness] at matched valid accepted
        unfold verify_witness_member at matched valid accepted
        cases count : manifest.witness_proof_count with
        | zero =>
          rw [count] at matched
          dsimp only at matched
          split_ifs at matched with empty
          rw [List.isEmpty_iff] at empty
          subst empty
          simp [proofsOf, memberLines, splitLines]
        | succ count' =>
          rw [count] at matched valid accepted
          dsimp only at matched valid accepted
          split_ifs at matched valid accepted
          rw [Option.map_some, Option.getD_some]
          exact witnessLoop_endorsed crates rfl valid accepted

/-- A number written in decimal digits. -/
def readDecimal (digits : Bytes) : Option Nat :=
  if digits.isEmpty || ! digits.all (fun b => 48 ≤ b && b ≤ 57) then none
  else some (digits.foldl (fun n b => 10 * n + (b.toNat - 48)) 0)

/-- The tree size on the second line of a checkpoint. -/
def checkpointSize (checkpoint : Bytes) : Option Nat :=
  match checkpointParts checkpoint with
  | none => none
  | some (text, _) => ((fileLines text)[1]?).bind readDecimal

/-- The root on the third line of a checkpoint. -/
def checkpointRoot (checkpoint : Bytes) : Option Bytes :=
  match checkpointParts checkpoint with
  | none => none
  | some (text, _) => ((fileLines text)[2]?).bind fun root_b64 => crates.base64_decode (trim root_b64)

/-- The checkpoint of a log: its size and its root. -/
structure CheckpointOf (checkpoint : Bytes) (log : List Bytes) : Prop where
  size : checkpointSize checkpoint = some log.length
  root : checkpointRoot crates checkpoint = some (MTH crates.sha256 log).val

variable {checkpoint : Bytes}

theorem root_of_match (matched : checkpoint_text_if_root_matches crates checkpoint expected_root_hex = some parts) :
    ∃ root, parse_sha256_hex expected_root_hex = some root ∧ checkpointRoot crates checkpoint = some root.val := by
  unfold checkpoint_text_if_root_matches at matched
  unfold checkpointRoot
  cases parts' : checkpointParts checkpoint with
  | none =>
    rw [parts'] at matched
    cases matched
  | some both =>
    obtain ⟨text, sig_block⟩ := both
    rw [parts'] at matched
    dsimp only at matched ⊢
    split at matched
    · rename_i origin size root_b64 more lines
      split at matched
      · rename_i root_bytes expected_root decoded read
        split_ifs at matched with same
        refine ⟨expected_root, read, ?_⟩
        rw [lines]
        change crates.base64_decode (trim root_b64) = _
        rw [decoded, same]
      · cases matched
    · cases matched

theorem root_of_checkpoint (verified : verify_rekor_checkpoint crates checkpoint key expected_root_hex = true) :
    ∃ root, parse_sha256_hex expected_root_hex = some root ∧ checkpointRoot crates checkpoint = some root.val := by
  cases matched : checkpoint_text_if_root_matches crates checkpoint expected_root_hex with
  | some parts => exact root_of_match crates matched
  | none =>
    cases key with
    | Ed25519 k => simp [verify_rekor_checkpoint, verify_rekor_checkpoint_v1, matched] at verified
    | P256 vk => simp [verify_rekor_checkpoint, verify_rekor_checkpoint_p256_v1, matched] at verified

/-- The proof says what the checkpoint of the log commits to: the size, the root, and the entry at its index with its path. -/
structure Committed (checkpoint : Bytes) (log : List Bytes) (proof : WitnessProofV1) : Prop where
  size : checkpointSize checkpoint = some proof.tree_size
  root : ∃ root, parse_sha256_hex proof.root_hash = some root ∧ checkpointRoot crates checkpoint = some root.val
  entry : ∃ entry, log[proof.log_index]? = some entry ∧
    parse_sha256_hex proof.leaf_hash = some (rfc6962_leaf_hash crates.sha256 entry)

theorem committed_of_size (endorsed : Endorsed crates key proof) (has : proof.checkpoint = some checkpoint)
    (of : CheckpointOf crates checkpoint log)
    (free : CollisionFree crates.sha256 log proof.log_index proof.leaf_hash proof.inclusion_proof)
    (same : proof.tree_size = log.length) : Committed crates checkpoint log proof := by
  obtain ⟨cp, is, verified⟩ := endorsed.signed
  rw [has] at is
  cases is
  obtain ⟨root, read, line⟩ := root_of_checkpoint crates verified
  have logRoot : root = MTH crates.sha256 log := by
    rw [of.root, Option.some.injEq] at line
    exact (Subtype.ext line).symm
  have included := (verify_eq_true_iff crates.sha256 _ _ _ _ _).mp endorsed.included
  obtain ⟨inside, computed, expected_root, path, leaf, read', reads, walked⟩ := included
  rw [same] at inside walked
  rw [read, Option.some.injEq] at read'
  have here : log[proof.log_index]? = some log[proof.log_index] := List.getElem?_eq_getElem inside
  have leaves : (log.map (rfc6962_leaf_hash crates.sha256))[proof.log_index]? =
      some (rfc6962_leaf_hash crates.sha256 log[proof.log_index]) := by
    rw [List.getElem?_map, here]
    rfl
  have reached := walk_eq_root_iff (rfc6962_node_hash crates.sha256) (crates.sha256 []) leaves computed path
  rw [List.length_map] at reached
  rw [← read', logRoot] at walked
  obtain ⟨rfl, _⟩ := (reached (free _ computed path here leaf reads)).mp walked
  exact ⟨by rw [of.size, same], ⟨root, read, line⟩, _, here, leaf⟩

end

/-- A stand-in for the hash that reads all bytes. -/
def sampleDigest (bytes : Bytes) : Digest := fixed 32 (leBytes 32 (bytes.foldl (fun n b => n * 257 + b.toNat + 1) 7))

def sampleLeaf (n : UInt8) : Digest := rfc6962_leaf_hash sampleDigest [n]

/-- The root of a log of three leaves. -/
def sampleRoot : Digest :=
  rfc6962_node_hash sampleDigest (rfc6962_node_hash sampleDigest (sampleLeaf 1) (sampleLeaf 2)) (sampleLeaf 3)

/-- The signature of a text by the key of zeros. -/
def sampleSignature (text : Bytes) : Bytes := (sampleDigest text).val ++ (sampleDigest (List.replicate 32 0)).val

/-- The origin, the size 3 and the root. -/
def sampleNote : Bytes := [111, 10, 51, 10] ++ hex_lower sampleRoot.val ++ [10]

def sampleCheckpoint : Bytes :=
  sampleNote ++ [10, 0xE2, 0x80, 0x94, 0x20, 110, 0x20] ++ hex_lower ([0, 0, 0, 0] ++ sampleSignature sampleNote) ++ [10]

/-- The first leaf with the path of the log of three leaves, and a size of the prover's choice. -/
def sampleProof (tree_size : Nat) : WitnessProofV1 where
  transparency_log := []
  log_url := []
  rekor_uuid := none
  leaf_hash := hex_lower (sampleLeaf 1).val
  log_index := 0
  tree_size := tree_size
  root_hash := hex_lower sampleRoot.val
  inclusion_proof := [hex_lower (sampleLeaf 2).val, hex_lower (sampleLeaf 3).val]
  checkpoint := some sampleCheckpoint
  integrated_time := []
  head_hash := []
  entry_body_b64 := []

/-- Two proofs, on the lines `3` and `4`. -/
def sampleMember : Bytes := [51, 10, 52, 10]

def sampleManifest : AuditBundleManifestV1 where
  bundle_format_version := 3
  bundle_id := []
  since := []
  «until» := []
  generated_at := []
  scope := { entity_prefix := none, include_reserved := false, caller := none }
  fact_count := 0
  receipt_count := 0
  events_jsonl_sha256 := hex_lower (sampleDigest []).val
  receipts_cbor_sha256 := hex_lower (sampleDigest []).val
  witness_proof_count := 2
  witness_proofs_sha256 := some (hex_lower (sampleDigest sampleMember).val)
  signer_public_key_b64 := hex_lower (List.replicate 32 0)
  signer_key_id := []
  key_class := some .Persistent
  signature_b64 := hex_lower (sampleSignature AUDIT_BUNDLE_SIGNING_DOMAIN)

def sampleCrates : VerifierCrates where
  sha256 := sampleDigest
  base64_decode := hexPairs
  ed25519_key _ := true
  ed25519_verify_strict _ text signature := decide (signature = sampleSignature text)
  p256_verify _ _ _ := false
  unpack _ := .ok [("manifest.json", []), ("events.jsonl", []), ("receipts.cbor", []), ("witness_proofs.jsonl", sampleMember)]
  parse_manifest _ := some sampleManifest
  to_vec _ := some []
  parse_proof line := (readDecimal line).map sampleProof
  hash_value _ := none

end Crux.Witness
