import Crux.AuditBundle
import Crux.Cbor

/-!
# Building audit bundles

The builder of a bundle, which signs the manifest with the digests of the members, and
the archive it is written to. A bundle that verifies against a pinned key has the
content of one that was framed with that key; a built bundle verifies exactly when its
witness proofs hold and its archive is within the verifier's limit.
-/

namespace Crux.Witness
open Crux.Bytes Crux.Merkle Crux.TextLines List

structure AuditEventV1 where
  fact_id : Bytes
  entity : Bytes
  key : Bytes
  value : Bytes
  source_receipt : Option Bytes
  confidence : UInt32
  stored_at : Bytes
  tokens : Nat
  deleted : Bool
  version : UInt32
  supersedes : Option Bytes
deriving DecidableEq

structure AuditReceiptRefV1 where
  fact_id : Bytes
  receipt_id : Bytes
deriving DecidableEq

structure BuildBundleInputV1 where
  bundle_id : Bytes
  since_rfc3339 : Bytes
  until_rfc3339 : Bytes
  generated_at_rfc3339 : Bytes
  scope : AuditBundleScopeV1
  events : List AuditEventV1
  receipt_refs : List AuditReceiptRefV1
  witness_proofs : List WitnessProofV1
  signing_key : FixedBytes 32
  signer_key_id : Bytes
  key_class : AuditBundleKeyClassV1
deriving DecidableEq

structure BuiltBundleV1 where
  manifest : AuditBundleManifestV1
  manifest_json : Bytes
  events_jsonl : Bytes
  receipts_cbor : Bytes
  witness_proofs_jsonl : Bytes
deriving DecidableEq

def MAX_DECOMPRESSED_BUNDLE_BYTES : Nat := 256 * 1024 * 1024

/-- The crates of the verifier, and those the builder writes with. -/
structure BuilderCrates extends VerifierCrates where
  event_json : AuditEventV1 → Option Bytes
  refs_cbor : List AuditReceiptRefV1 → Option Bytes
  proof_json : WitnessProofV1 → Option Bytes
  /-- `serde_json::to_vec_pretty`. -/
  manifest_json : AuditBundleManifestV1 → Option Bytes
  base64_encode : Bytes → Bytes
  verifying_key : FixedBytes 32 → FixedBytes 32
  sign : FixedBytes 32 → Bytes → FixedBytes 64
  tar : List (String × Bytes) → Option Bytes
  zstd : Bytes → Bytes

section
variable (crates : BuilderCrates)

/-- The manifest before it is signed. -/
def unsignedManifest (version : Nat) (key_class : Option AuditBundleKeyClassV1) (input : BuildBundleInputV1)
    (events_jsonl receipts_cbor witness_proofs_jsonl : Bytes) : AuditBundleManifestV1 where
  bundle_format_version := version
  bundle_id := input.bundle_id
  since := input.since_rfc3339
  «until» := input.until_rfc3339
  generated_at := input.generated_at_rfc3339
  scope := input.scope
  fact_count := input.events.length
  receipt_count := input.receipt_refs.length
  events_jsonl_sha256 := hex_sha256 crates.toVerifierCrates events_jsonl
  receipts_cbor_sha256 := hex_sha256 crates.toVerifierCrates receipts_cbor
  witness_proof_count := input.witness_proofs.length
  witness_proofs_sha256 :=
    if input.witness_proofs.isEmpty then none else some (hex_sha256 crates.toVerifierCrates witness_proofs_jsonl)
  signer_public_key_b64 := crates.base64_encode (crates.verifying_key input.signing_key).val
  signer_key_id := input.signer_key_id
  key_class := key_class
  signature_b64 := []

/-- One value on each line. -/
def jsonLines {α : Type} (write : α → Option Bytes) (values : List α) : Option Bytes := (values.mapM write).map joinLines

/-- What a builder of a format version does; versions 1 and 2 have no key class. -/
def frameBundle (version : Nat) (key_class : Option AuditBundleKeyClassV1) (input : BuildBundleInputV1) :
    Except AuditBundleError BuiltBundleV1 := do
  let events_jsonl ← orError .Json (jsonLines crates.event_json input.events)
  let receipts_cbor ← orError .Cbor (crates.refs_cbor input.receipt_refs)
  let witness_proofs_jsonl ← orError .Json (jsonLines crates.proof_json input.witness_proofs)
  let manifest := unsignedManifest crates version key_class input events_jsonl receipts_cbor witness_proofs_jsonl
  let signing_bytes ← orError .Json (manifest.canonical_signing_bytes crates.to_vec)
  let sig := crates.sign input.signing_key signing_bytes
  let manifest := { manifest with signature_b64 := crates.base64_encode sig.val }
  let manifest_json ← orError .Json (crates.manifest_json manifest)
  .ok { manifest, manifest_json, events_jsonl, receipts_cbor, witness_proofs_jsonl }

def build_bundle_v1 (input : BuildBundleInputV1) : Except AuditBundleError BuiltBundleV1 :=
  if input.key_class = .Ephemeral then .error .EphemeralSigningKeyRefused
  else frameBundle crates BUNDLE_FORMAT_VERSION (some input.key_class) input

def BuiltBundleV1.entries (built : BuiltBundleV1) : List (String × Bytes) :=
  [(MANIFEST_FILENAME, built.manifest_json), (EVENTS_FILENAME, built.events_jsonl), (RECEIPTS_FILENAME, built.receipts_cbor)] ++
    if built.witness_proofs_jsonl.isEmpty then [] else [(WITNESS_FILENAME, built.witness_proofs_jsonl)]

def BuiltBundleV1.write_tar_zst (built : BuiltBundleV1) : Except AuditBundleError Bytes := do
  let archive ← orError .Io (crates.tar built.entries)
  .ok (crates.zstd archive)

/-- The crates read back what they write, and a signature verifies under its key. -/
structure Faithful : Prop where
  json : WritesJson crates.to_vec
  manifest_back : ∀ {m text}, crates.manifest_json m = some text → crates.parse_manifest text = some m
  proof_back : ∀ {p text}, crates.proof_json p = some text → crates.parse_proof text = some p
  proof_line : ∀ {p text}, crates.proof_json p = some text → text ≠ [] ∧ 10 ∉ text
  base64_back : ∀ bytes, crates.base64_decode (crates.base64_encode bytes) = some bytes
  key_valid : ∀ key, crates.ed25519_key (crates.verifying_key key).val = true
  signature_valid : ∀ key message,
    crates.ed25519_verify_strict (crates.verifying_key key).val message (crates.sign key message).val = true
  archive_back : ∀ {entries archive}, crates.tar entries = some archive →
    crates.unpack (crates.zstd archive) =
      if archive.length ≤ MAX_DECOMPRESSED_BUNDLE_BYTES then .ok entries else .error .DecompressedTooLarge

/-- The manifest an archive carries. -/
def presentedManifest (tar_zst_bytes : Bytes) : Option AuditBundleManifestV1 :=
  (crates.unpack tar_zst_bytes).toOption.bind fun entries => (memberOf entries MANIFEST_FILENAME).bind crates.parse_manifest

/-- The files an archive carries. -/
def presentedFiles (tar_zst_bytes : Bytes) : List Bytes :=
  ((crates.unpack tar_zst_bytes).toOption.getD []).map Prod.snd

/-- What the holder of a key has framed, for all format versions; the archive that is presented carries no signature under the
key but theirs, and no file that collides with one of theirs. -/
structure SignedBy (key : FixedBytes 32) (made : List BuiltBundleV1) (tar_zst_bytes : Bytes) : Prop where
  framed : ∀ built ∈ made, ∃ version key_class input, frameBundle crates version key_class input = .ok built ∧
    crates.verifying_key input.signing_key = key
  unforged : ∀ manifest message sig, presentedManifest crates tar_zst_bytes = some manifest →
    manifest.canonical_signing_bytes crates.to_vec = some message → crates.ed25519_verify_strict key.val message sig = true →
    ∃ built ∈ made, built.manifest.canonical_signing_bytes crates.to_vec = some message
  no_collision : ∀ built ∈ made, ∀ file ∈ presentedFiles crates tar_zst_bytes,
    ∀ own ∈ [built.events_jsonl, built.receipts_cbor, built.witness_proofs_jsonl], crates.sha256 file = crates.sha256 own → file = own

/-- An archive with the content of a built bundle: the manifest but for its spelling and its signature, the members byte for byte.
A bundle without witness proofs may carry an empty member for them. -/
structure SameContent (tar_zst_bytes : Bytes) (built : BuiltBundleV1) : Prop where
  manifest : (presentedManifest crates tar_zst_bytes).map AuditBundleManifestV1.cleared = some built.manifest.cleared
  members : ∃ entries, crates.unpack tar_zst_bytes = .ok entries ∧ memberOf entries EVENTS_FILENAME = some built.events_jsonl ∧
    memberOf entries RECEIPTS_FILENAME = some built.receipts_cbor ∧
    (memberOf entries WITNESS_FILENAME).getD [] = built.witness_proofs_jsonl

/-- What the verifier asks of a witness proof. -/
structure ProofHolds (log_key : Option WitnessLogPublicKeyV1) (proof : WitnessProofV1) : Prop where
  included : verify_witness_proof_v1 crates.toVerifierCrates proof = true
  bound : verify_witness_binding_v1 crates.toVerifierCrates proof = true
  endorsed : ∀ key, log_key = some key →
    ∃ cp, proof.checkpoint = some cp ∧ verify_rekor_checkpoint crates.toVerifierCrates cp key proof.root_hash = true

variable {crates}

theorem orError_ok {α : Type} {value : Option α} {a : α} : orError e value = .ok a ↔ value = some a := by
  cases value <;> simp [orError]

theorem required_ok :
    required entries name = .ok bytes ↔ memberOf entries name = some bytes := by
  unfold required
  cases memberOf entries name <;> simp

theorem hex_sha256_injective (same : hex_sha256 crates.toVerifierCrates x = hex_sha256 crates.toVerifierCrates y) :
    crates.sha256 x = crates.sha256 y := by
  have parsed := congrArg parse_sha256_hex same
  unfold hex_sha256 at parsed
  rw [parse_hex_lower, parse_hex_lower] at parsed
  exact Option.some.inj parsed

variable (crates)

/-- The checks a bundle has passed that verifies against a pinned key. -/
structure Passed (key : FixedBytes 32) (log_key : Option WitnessLogPublicKeyV1) (entries : List (String × Bytes))
    (manifest : AuditBundleManifestV1) (events receipts : Bytes) : Prop where
  has_events : memberOf entries EVENTS_FILENAME = some events
  has_receipts : memberOf entries RECEIPTS_FILENAME = some receipts
  events_hash : hex_sha256 crates.toVerifierCrates events = manifest.events_jsonl_sha256
  receipts_hash : hex_sha256 crates.toVerifierCrates receipts = manifest.receipts_cbor_sha256
  signed : ∃ message sig, manifest.canonical_signing_bytes crates.to_vec = some message ∧
    crates.ed25519_verify_strict key.val message sig = true
  witness : (verify_witness_member crates.toVerifierCrates manifest (memberOf entries WITNESS_FILENAME) log_key).1 = true

/-- What framing determines of a bundle. -/
structure Framed (input : BuildBundleInputV1) (built : BuiltBundleV1) : Prop where
  events_hash : built.manifest.events_jsonl_sha256 = hex_sha256 crates.toVerifierCrates built.events_jsonl
  receipts_hash : built.manifest.receipts_cbor_sha256 = hex_sha256 crates.toVerifierCrates built.receipts_cbor
  proof_count : built.manifest.witness_proof_count = input.witness_proofs.length
  proofs_hash : built.manifest.witness_proofs_sha256 =
    if input.witness_proofs.isEmpty then none else some (hex_sha256 crates.toVerifierCrates built.witness_proofs_jsonl)
  signer : built.manifest.signer_public_key_b64 = crates.base64_encode (crates.verifying_key input.signing_key).val
  signature : ∃ message, built.manifest.canonical_signing_bytes crates.to_vec = some message ∧
    built.manifest.signature_b64 = crates.base64_encode (crates.sign input.signing_key message).val
  spelled : crates.manifest_json built.manifest = some built.manifest_json
  proof_lines : jsonLines crates.proof_json input.witness_proofs = some built.witness_proofs_jsonl

variable {crates}

theorem verified_passed
    (verified : verify_bundle_pinned_v1 crates.toVerifierCrates tar_zst_bytes log_key (some key) = .ok report)
    (ok : report.ok = true) : ∃ entries manifest events receipts, crates.unpack tar_zst_bytes = .ok entries ∧
      presentedManifest crates tar_zst_bytes = some manifest ∧ Passed crates key log_key entries manifest events receipts := by
  simp only [verify_bundle_pinned_v1, bind_ok_iff] at verified
  obtain ⟨entries, unpacked, manifest_raw, has_manifest, events, has_events, receipts, has_receipts, manifest, parsed, _, _,
    _, _, pubkey_bytes, _, _, _, verified⟩ := verified
  have shown : presentedManifest crates tar_zst_bytes = some manifest := by
    unfold presentedManifest
    rw [unpacked]
    change (memberOf entries MANIFEST_FILENAME).bind crates.parse_manifest = some manifest
    rw [required_ok.mp has_manifest]
    exact orError_ok.mp parsed
  refine ⟨entries, manifest, events, receipts, unpacked, shown, ?_⟩
  dsimp only [evaluate_signer_pin_v1] at verified
  by_cases pinned : pubkey_bytes = key.val
  case neg =>
    simp [pinned] at verified
    cases verified
    cases ok
  simp only [pinned, if_true, reduceCtorEq, if_false] at verified
  split_ifs at verified with events_differ receipts_differ
  · cases verified
    cases ok
  · cases verified
    cases ok
  · simp only [verifySigned, bind_ok_iff] at verified
    obtain ⟨_, _, sig_bytes, _, _, _, signing_bytes, signing, verified⟩ := verified
    split_ifs at verified with unsigned
    · cases verified
      cases ok
    · cases verified
      simp [witnessReport] at ok
      exact {
        has_events := required_ok.mp has_events
        has_receipts := required_ok.mp has_receipts
        events_hash := by simpa using events_differ
        receipts_hash := by simpa using receipts_differ
        signed := ⟨signing_bytes, sig_bytes, orError_ok.mp signing, by simpa using unsigned⟩
        witness := ok.1.1 }

variable {input : BuildBundleInputV1} {built : BuiltBundleV1}

theorem frame_framed (framed : frameBundle crates version key_class input = .ok built) :
    Framed crates input built ∧ built.manifest.bundle_format_version = version ∧ built.manifest.key_class = key_class := by
  simp only [frameBundle, bind_ok_iff] at framed
  obtain ⟨events_jsonl, _, receipts_cbor, _, witness_proofs_jsonl, lines, message, signing, manifest_json, spelled, framed⟩ := framed
  cases framed
  refine ⟨⟨rfl, rfl, rfl, rfl, rfl, ⟨message, ?_, rfl⟩, orError_ok.mp spelled, orError_ok.mp lines⟩, rfl, rfl⟩
  exact orError_ok.mp signing

theorem verified_same_content (faithful : Faithful crates)
    (verified : verify_bundle_pinned_v1 crates.toVerifierCrates tar_zst_bytes log_key (some key) = .ok report)
    (ok : report.ok = true) (signed_by : SignedBy crates key made tar_zst_bytes) :
    ∃ built ∈ made, SameContent crates tar_zst_bytes built := by
  obtain ⟨entries, manifest, events, receipts, unpacked, shown, passed⟩ := verified_passed verified ok
  obtain ⟨message, sig, signing, checked⟩ := passed.signed
  obtain ⟨built, member, signing'⟩ := signed_by.unforged manifest message sig shown signing checked
  obtain ⟨version, key_class, input, framed, _⟩ := signed_by.framed built member
  obtain ⟨framed, _, _⟩ := frame_framed framed
  have same : manifest.cleared = built.manifest.cleared := signing_bytes_injective faithful.json signing signing'
  have apart := signed_by.no_collision built member
  have file : ∀ {name bytes}, memberOf entries name = some bytes → bytes ∈ presentedFiles crates tar_zst_bytes := by
    intro name bytes found
    obtain ⟨entry, here, rfl⟩ := Option.map_eq_some_iff.mp found
    unfold presentedFiles
    rw [unpacked]
    exact mem_map_of_mem (mem_reverse.mp (mem_of_find?_eq_some here))
  refine ⟨built, member, ⟨by rw [shown, Option.map_some, same], entries, unpacked, ?_, ?_, ?_⟩⟩
  · rw [passed.has_events]
    have hash : manifest.events_jsonl_sha256 = built.manifest.events_jsonl_sha256 := congrArg (·.events_jsonl_sha256) same
    rw [← passed.events_hash, framed.events_hash] at hash
    exact congrArg some (apart _ (file passed.has_events) _ (by simp) (hex_sha256_injective hash))
  · rw [passed.has_receipts]
    have hash : manifest.receipts_cbor_sha256 = built.manifest.receipts_cbor_sha256 := congrArg (·.receipts_cbor_sha256) same
    rw [← passed.receipts_hash, framed.receipts_hash] at hash
    exact congrArg some (apart _ (file passed.has_receipts) _ (by simp) (hex_sha256_injective hash))
  · have count : manifest.witness_proof_count = built.manifest.witness_proof_count := congrArg (·.witness_proof_count) same
    have hash : manifest.witness_proofs_sha256 = built.manifest.witness_proofs_sha256 := congrArg (·.witness_proofs_sha256) same
    rw [framed.proof_count] at count
    rw [framed.proofs_hash] at hash
    have lines := framed.proof_lines
    have witness := passed.witness
    unfold verify_witness_member at witness
    rw [count, hash] at witness
    cases proofs : input.witness_proofs with
    | nil =>
      rw [proofs] at lines witness
      have empty : built.witness_proofs_jsonl = [] := by
        simpa [jsonLines, joinLines] using lines.symm
      rw [empty]
      cases carried : memberOf entries WITNESS_FILENAME with
      | none => rfl
      | some bytes =>
        rw [carried] at witness
        cases bytes with
        | nil => rfl
        | cons byte bytes => cases witness
    | cons proof proofs =>
      rw [proofs] at witness
      cases carried : memberOf entries WITNESS_FILENAME with
      | none =>
        rw [carried] at witness
        cases witness
      | some bytes =>
        rw [carried] at witness
        simp at witness
        split_ifs at witness with matched
        exact apart _ (file carried) _ (by simp) (hex_sha256_injective matched.symm)

theorem witnessLoop_ok_iff (log_key : Option WitnessLogPublicKeyV1) (count : Nat) (proofs : List WitnessProofV1)
    (texts : List Bytes) (written : List.Forall₂ (fun p text => crates.parse_proof text = some p ∧ text ≠ []) proofs texts)
    (i parsed : Nat) (total : parsed + proofs.length = count) :
    let verdict := witnessLoop crates.toVerifierCrates log_key count i parsed (texts ++ [[]])
    (verdict.1 && verdict.2.1 && verdict.2.2.1.getD true) = true ↔ ∀ proof ∈ proofs, ProofHolds crates log_key proof := by
  induction written generalizing i parsed with
  | nil =>
    have all : parsed = count := by simpa using total
    simp [witnessLoop, all]
    cases log_key <;> simp
  | cons here later ih =>
    rename_i proof text proofs texts
    obtain ⟨read, some_text⟩ := here
    have shown : text.isEmpty = false := by simpa using some_text
    rw [cons_append, witnessLoop, shown, read]
    by_cases included : verify_witness_proof_v1 crates.toVerifierCrates proof = true
    case neg =>
      have missed : ¬ ProofHolds crates log_key proof := fun holds => included holds.included
      simp [included, missed]
    by_cases bound : verify_witness_binding_v1 crates.toVerifierCrates proof = true
    case neg =>
      have missed : ¬ ProofHolds crates log_key proof := fun holds => bound holds.bound
      simp [included, bound, missed]
    simp [included, bound, Bool.false_eq_true]
    have rest := ih (i + 1) (parsed + 1) (by rw [← total, length_cons]; omega)
    cases log_key with
    | none =>
      have holds : ProofHolds crates none proof := ⟨included, bound, by simp⟩
      simpa [holds] using rest
    | some key =>
      dsimp only
      split_ifs with endorsed
      · have holds : ProofHolds crates (some key) proof := by
          refine ⟨included, bound, ?_⟩
          rintro _ ⟨⟩
          rwa [Option.any_eq_true] at endorsed
        simpa [holds] using rest
      · have missed : ¬ ProofHolds crates (some key) proof := by
          intro holds
          rw [Option.any_eq_true] at endorsed
          exact endorsed (holds.endorsed key rfl)
        simp [missed]

theorem mapM_written {α : Type} {write : α → Option Bytes} {values : List α} (mapped : values.mapM write = some texts) :
    List.Forall₂ (fun a text => write a = some text) values texts := by
  induction values generalizing texts with
  | nil =>
    cases mapped
    exact .nil
  | cons a values ih =>
    rw [mapM_cons] at mapped
    obtain ⟨text, wrote, mapped⟩ := Option.bind_eq_some_iff.mp mapped
    obtain ⟨rest, later, built⟩ := Option.bind_eq_some_iff.mp mapped
    cases built
    exact .cons wrote (ih later)

theorem proof_lines_read (faithful : Faithful crates) (lines : jsonLines crates.proof_json proofs = some jsonl) :
    ∃ texts, List.Forall₂ (fun p text => crates.parse_proof text = some p ∧ text ≠ []) proofs texts ∧
      jsonl = joinLines texts ∧ memberLines jsonl = texts ++ [[]] := by
  obtain ⟨texts, mapped, rfl⟩ := Option.map_eq_some_iff.mp lines
  have written := mapM_written mapped
  refine ⟨texts, written.imp fun p text wrote => ⟨faithful.proof_back wrote, (faithful.proof_line wrote).1⟩, rfl, ?_⟩
  have unbroken : ∀ text ∈ texts, 10 ∉ text := by
    intro text member
    obtain ⟨place, bound, rfl⟩ := getElem_of_mem member
    have wrote := List.Forall₂.get written (by rw [written.length_eq]; exact bound) bound
    exact (faithful.proof_line wrote).2
  have split := @splitLines_join _ unbroken [] (by simp)
  rw [append_nil] at split
  unfold memberLines
  rw [split]

theorem memberOf_entries (built : BuiltBundleV1) : memberOf built.entries MANIFEST_FILENAME = some built.manifest_json ∧
    memberOf built.entries EVENTS_FILENAME = some built.events_jsonl ∧
    memberOf built.entries RECEIPTS_FILENAME = some built.receipts_cbor ∧ memberOf built.entries WITNESS_FILENAME =
      if built.witness_proofs_jsonl.isEmpty then none else some built.witness_proofs_jsonl := by
  unfold BuiltBundleV1.entries memberOf
  cases built.witness_proofs_jsonl with
  | nil => exact ⟨rfl, rfl, rfl, rfl⟩
  | cons byte bytes => exact ⟨rfl, rfl, rfl, rfl⟩

theorem built_witness_iff (faithful : Faithful crates)
    (framed : Framed crates input built) (log_key : Option WitnessLogPublicKeyV1) :
    let verdict := verify_witness_member crates.toVerifierCrates built.manifest (memberOf built.entries WITNESS_FILENAME) log_key
    (verdict.1 && verdict.2.1 && verdict.2.2.1.getD true) = true ↔ ∀ proof ∈ input.witness_proofs, ProofHolds crates log_key proof := by
  obtain ⟨texts, written, joined, split⟩ := proof_lines_read faithful framed.proof_lines
  rw [(memberOf_entries built).2.2.2]
  unfold verify_witness_member
  rw [framed.proof_count, framed.proofs_hash]
  cases listed : input.witness_proofs with
  | nil =>
    rw [listed] at written
    cases written
    simp [joined, joinLines]
  | cons proof proofs =>
    have total : 0 + input.witness_proofs.length = proofs.length + 1 := by simp [listed]
    have loop := witnessLoop_ok_iff log_key _ _ texts written 0 0 total
    rw [listed] at written loop
    cases written
    rename_i text texts here later
    have shown : built.witness_proofs_jsonl.isEmpty = false := by
      rw [joined, joinLines_cons]
      simp
    simpa [shown, split] using loop

/-- A framed bundle of the current version passes every check up to those of its witness proofs. -/
theorem framed_verifies (faithful : Faithful crates)
    (framed : frameBundle crates BUNDLE_FORMAT_VERSION (some key_class) input = .ok built)
    (packed : crates.tar built.entries = some archive) (log_key : Option WitnessLogPublicKeyV1) :
    verify_bundle_pinned_v1 crates.toVerifierCrates (crates.zstd archive) log_key (some (crates.verifying_key input.signing_key)) =
      if archive.length ≤ MAX_DECOMPRESSED_BUNDLE_BYTES then .ok (witnessReport built.manifest .Pinned
          (verify_witness_member crates.toVerifierCrates built.manifest (memberOf built.entries WITNESS_FILENAME) log_key))
      else .error .DecompressedTooLarge := by
  obtain ⟨framed, version, class_of⟩ := frame_framed framed
  obtain ⟨has_manifest, has_events, has_receipts, _⟩ := memberOf_entries built
  obtain ⟨message, signing, signature⟩ := framed.signature
  unfold verify_bundle_pinned_v1
  rw [faithful.archive_back packed]
  split_ifs with fits
  · simp only [ok_bind, required, has_manifest, has_events, has_receipts, orError, faithful.manifest_back framed.spelled, version,
      class_of, framed.signer, faithful.base64_back, verifySigned, signature, signing, faithful.key_valid, faithful.signature_valid]
    simp [BUNDLE_FORMAT_VERSION, evaluate_signer_pin_v1, framed.events_hash, framed.receipts_hash]
  · rfl

variable (crates)

end

def unary : Nat → Bytes
  | 0 => [0]
  | n + 1 => 1 :: unary n

def writeText (text : Bytes) : Bytes := unary text.length ++ text

mutual
def writeJson : Json → Bytes
  | .Null => [0]
  | .Bool b => [1, if b then 1 else 0]
  | .Number n => 2 :: unary n
  | .Str text => 3 :: writeText text
  | .Array items => 4 :: writeItems items
  | .Object fields => 0x7b :: writeFields fields
def writeItems : List Json → Bytes
  | [] => [0]
  | item :: rest => 1 :: (writeJson item ++ writeItems rest)
def writeFields : List (String × Json) → Bytes
  | [] => [0]
  | (key, value) :: rest => 1 :: (writeText (Session.as_bytes key) ++ (writeJson value ++ writeFields rest))
end

theorem unary_cancel (same : unary m ++ x = unary n ++ y) : m = n ∧ x = y := by
  induction m generalizing n with
  | zero =>
    cases n with
    | zero => exact ⟨rfl, by simpa using same⟩
    | succ n => simp [unary] at same
  | succ m ih =>
    cases n with
    | zero => simp [unary] at same
    | succ n =>
      simp [unary] at same
      obtain ⟨rfl, rest⟩ := ih same
      exact ⟨rfl, rest⟩

theorem writeText_cancel (same : writeText s ++ x = writeText t ++ y) : s = t ∧ x = y := by
  unfold writeText at same
  rw [append_assoc, append_assoc] at same
  obtain ⟨lengths, rest⟩ := unary_cancel same
  exact append_inj rest lengths

/-- A text of the format is read in one way, whatever follows. -/
theorem writeJson_cancel (v : Json) : ∀ w x y, writeJson v ++ x = writeJson w ++ y → v = w ∧ x = y := by
  refine @Json.rec (fun v => ∀ w x y, writeJson v ++ x = writeJson w ++ y → v = w ∧ x = y)
    (fun items => ∀ others x y, writeItems items ++ x = writeItems others ++ y → items = others ∧ x = y)
    (fun fields => ∀ others x y, writeFields fields ++ x = writeFields others ++ y → fields = others ∧ x = y)
    (fun field => ∀ w x y, writeJson field.2 ++ x = writeJson w ++ y → field.2 = w ∧ x = y)
    ?null ?bool ?number ?str ?array ?object ?no_items ?items ?no_fields ?fields ?field v
  case null => intro w x y same; cases w <;> simp_all [writeJson]
  case bool =>
    intro b w x y same
    cases w with
    | Bool c => cases b <;> cases c <;> simp_all [writeJson]
    | _ => simp [writeJson] at same
  case number =>
    intro n w x y same
    cases w with
    | Number m =>
      simp [writeJson] at same
      obtain ⟨rfl, rest⟩ := unary_cancel same
      exact ⟨rfl, rest⟩
    | _ => simp [writeJson] at same
  case str =>
    intro s w x y same
    cases w with
    | Str t =>
      simp [writeJson] at same
      obtain ⟨rfl, rest⟩ := writeText_cancel same
      exact ⟨rfl, rest⟩
    | _ => simp [writeJson] at same
  case array =>
    intro items ih w x y same
    cases w with
    | Array others =>
      simp only [writeJson, cons_append, List.cons.injEq, true_and] at same
      obtain ⟨rfl, rest⟩ := ih others x y same
      exact ⟨rfl, rest⟩
    | _ => simp [writeJson] at same
  case object =>
    intro fields ih w x y same
    cases w with
    | Object others =>
      simp [writeJson] at same
      obtain ⟨rfl, rest⟩ := ih others x y same
      exact ⟨rfl, rest⟩
    | _ => simp [writeJson] at same
  case no_items => intro others x y same; cases others <;> simp_all [writeItems]
  case items =>
    intro item rest ih_item ih_rest others x y same
    cases others with
    | nil => simp [writeItems] at same
    | cons other others =>
      simp only [writeItems, cons_append, List.cons.injEq, true_and, append_assoc] at same
      obtain ⟨rfl, after⟩ := ih_item _ _ _ same
      obtain ⟨rfl, left⟩ := ih_rest _ _ _ after
      exact ⟨rfl, left⟩
  case no_fields => intro others x y same; cases others <;> simp_all [writeFields]
  case fields =>
    intro field rest ih_field ih_rest others x y same
    obtain ⟨key, value⟩ := field
    cases others with
    | nil => simp [writeFields] at same
    | cons other others =>
      obtain ⟨other_key, other_value⟩ := other
      simp [writeFields] at same
      obtain ⟨keys, after_key⟩ := writeText_cancel same
      obtain ⟨rfl, after⟩ := ih_field _ _ _ after_key
      obtain ⟨rfl, left⟩ := ih_rest _ _ _ after
      cases Session.as_bytes_inj.mp keys
      exact ⟨rfl, left⟩
  case field => intro key value ih; exact ih

theorem writeJson_writes : WritesJson fun v => some (writeJson v) where
  one_value := by
    intro v w text of_v of_w
    have same : writeJson v ++ [] = writeJson w ++ [] := by
      rw [Option.some.inj of_v, Option.some.inj of_w]
    exact (writeJson_cancel v w [] [] same).1
  brace := by
    intro fields text written
    cases written
    rfl

def sampleSigner : FixedBytes 32 := fixed 32 (List.replicate 32 7)

/-- The sample crates before the files they can read and write are fixed. -/
def sampleSigning : BuilderCrates where
  sha256 := sampleDigest
  base64_decode := some
  ed25519_key _ := true
  ed25519_verify_strict key text signature := decide (signature = (sampleDigest text).val ++ key)
  p256_verify _ _ _ := false
  unpack _ := .error .Io
  parse_manifest _ := none
  to_vec v := some (writeJson v)
  parse_proof line := if line = [49] then some (sampleProof 1) else none
  hash_value _ := none
  event_json _ := none
  refs_cbor _ := some [0x80]
  proof_json proof := if proof = sampleProof 1 then some [49] else none
  manifest_json _ := none
  base64_encode bytes := bytes
  verifying_key key := key
  sign key text := ⟨(sampleDigest text).val ++ key.val, by rw [length_append, (sampleDigest text).property, key.property]⟩
  tar _ := none
  zstd archive := archive

def sampleBuild (proofs : List WitnessProofV1) : BuildBundleInputV1 where
  bundle_id := [98]
  since_rfc3339 := []
  until_rfc3339 := []
  generated_at_rfc3339 := []
  scope := { entity_prefix := none, include_reserved := false, caller := none }
  events := []
  receipt_refs := []
  witness_proofs := proofs
  signing_key := sampleSigner
  signer_key_id := []
  key_class := .Persistent

/-- The signed manifest of a sample bundle. -/
def sampleSigned (proofs : List WitnessProofV1) (jsonl : Bytes) : AuditBundleManifestV1 :=
  let unsigned := unsignedManifest sampleSigning BUNDLE_FORMAT_VERSION (some .Persistent) (sampleBuild proofs) [] [0x80] jsonl
  let message := (unsigned.canonical_signing_bytes sampleSigning.to_vec).getD []
  { unsigned with signature_b64 := (sampleSigning.sign sampleSigner message).val }

/-- A bundle without witness proofs, and one with a proof that does not hold. -/
def plainManifest : AuditBundleManifestV1 := sampleSigned [] []
def brokenManifest : AuditBundleManifestV1 := sampleSigned [sampleProof 1] [49, 10]

def plainEntries : List (String × Bytes) := [("manifest.json", [49]), ("events.jsonl", []), ("receipts.cbor", [0x80])]
def brokenEntries : List (String × Bytes) :=
  [("manifest.json", [50]), ("events.jsonl", []), ("receipts.cbor", [0x80]), ("witness_proofs.jsonl", [49, 10])]

/-- The first bundle with a blank behind the manifest's text, and an empty member for witness proofs. -/
def respelledEntries : List (String × Bytes) :=
  [("manifest.json", [49, 32]), ("events.jsonl", []), ("receipts.cbor", [0x80]), ("witness_proofs.jsonl", [])]

/-- The sample crates with the two manifests as texts of one character and the archives as single bytes. -/
def sampleBuilder : BuilderCrates :=
  { sampleSigning with
    manifest_json := fun m => if m = plainManifest then some [49] else if m = brokenManifest then some [50] else none
    parse_manifest := fun text =>
      if text.filter (· ≠ 32) = [49] then some plainManifest else if text.filter (· ≠ 32) = [50] then some brokenManifest else none
    tar := fun entries => if entries = plainEntries then some [1] else if entries = brokenEntries then some [2] else none
    unpack := fun archive =>
      if archive = [1] then .ok plainEntries else if archive = [2] then .ok brokenEntries
      else if archive = [3] then .ok respelledEntries else .error .Io }

def plainBuilt : BuiltBundleV1 := ⟨plainManifest, [49], [], [0x80], []⟩
def brokenBuilt : BuiltBundleV1 := ⟨brokenManifest, [50], [], [0x80], [49, 10]⟩

theorem sampleBuilder_faithful : Faithful sampleBuilder where
  json := writeJson_writes
  manifest_back := by
    intro m text written
    change (if m = plainManifest then some [49] else if m = brokenManifest then some [50] else none) = some text at written
    split_ifs at written with plain broken
    · cases written
      exact congrArg some plain.symm
    · cases written
      exact congrArg some broken.symm
  proof_back := by
    intro p text written
    change (if p = sampleProof 1 then some [49] else none) = some text at written
    split_ifs at written with named
    cases written
    exact congrArg some named.symm
  proof_line := by
    intro p text written
    change (if p = sampleProof 1 then some [49] else none) = some text at written
    split_ifs at written
    cases written
    decide
  base64_back _ := rfl
  key_valid _ := rfl
  signature_valid key message := decide_eq_true rfl
  archive_back := by
    intro entries archive packed
    change (if entries = plainEntries then some [1] else if entries = brokenEntries then some [2] else none) = some archive at packed
    split_ifs at packed with plain broken
    · cases packed
      exact congrArg Except.ok plain.symm
    · cases packed
      exact congrArg Except.ok broken.symm

theorem plain_built : build_bundle_v1 sampleBuilder (sampleBuild []) = .ok plainBuilt :=
  ok_of_toOption (by decide +kernel)

end Crux.Witness
