import Crux.Bytes
import Crux.MerkleTree

/-!
# Inclusion proofs

The check that a leaf is in a transparency log: hashes written in hexadecimal, the
walk over the inclusion proof, and that it accepts exactly the audit path of the leaf
in the tree of the log.
-/

namespace Crux.Witness
open Crux.Bytes Crux.Merkle List

abbrev Digest := FixedBytes 32

def hex_val (b : UInt8) : Option UInt8 :=
  if 48 ≤ b ∧ b ≤ 57 then some (b - 48)
  else if 97 ≤ b ∧ b ≤ 102 then some (b - 97 + 10)
  else if 65 ≤ b ∧ b ≤ 70 then some (b - 65 + 10)
  else none

/-- The bytes of pairs of digits; a last digit alone is left out. -/
def hexPairs : Bytes → Option Bytes
  | hi :: lo :: rest => do
    let hi ← hex_val hi
    let lo ← hex_val lo
    let out ← hexPairs rest
    return (hi <<< 4 ||| lo) :: out
  | _ => some []

/-- The bytes of `sha256:`. -/
def SHA256_PREFIX : Bytes := [115, 104, 97, 50, 53, 54, 58]

def parse_sha256_hex (s : Bytes) : Option Digest :=
  let raw := if SHA256_PREFIX.isPrefixOf s then s.drop SHA256_PREFIX.length else s
  if raw.length ≠ 64 then none else (hexPairs raw).map (fixed 32)

def hexDigit (n : UInt8) : UInt8 := if n < 10 then 48 + n else 87 + n

def hex_lower (bytes : Bytes) : Bytes := bytes.flatMap fun b : UInt8 => [hexDigit (b >>> 4), hexDigit (b &&& 15)]

theorem hex_byte (b : UInt8) : hex_val (hexDigit (b >>> 4)) = some (b >>> 4) ∧ hex_val (hexDigit (b &&& 15)) = some (b &&& 15) ∧
      ((b >>> 4) <<< 4 ||| (b &&& 15)) = b ∧ hexDigit (b >>> 4) ≠ 115 := by
  have all : ∀ x : BitVec 8,
      hex_val (hexDigit (UInt8.ofBitVec x >>> 4)) = some (UInt8.ofBitVec x >>> 4) ∧
        hex_val (hexDigit (UInt8.ofBitVec x &&& 15)) = some (UInt8.ofBitVec x &&& 15) ∧
        ((UInt8.ofBitVec x >>> 4) <<< 4 ||| (UInt8.ofBitVec x &&& 15)) = UInt8.ofBitVec x ∧
          hexDigit (UInt8.ofBitVec x >>> 4) ≠ 115 := by decide +kernel
  exact all b.toBitVec

theorem hexPairs_hex_lower (bytes : Bytes) : hexPairs (hex_lower bytes) = some bytes := by
  induction bytes with
  | nil => rfl
  | cons b rest ih =>
    obtain ⟨hi, lo, whole, _⟩ := hex_byte b
    change hexPairs (hexDigit (b >>> 4) :: hexDigit (b &&& 15) :: hex_lower rest) = _
    rw [hexPairs, hi, lo, ih]
    simp [whole]

theorem length_hex_lower (bytes : Bytes) : (hex_lower bytes).length = 2 * bytes.length := by
  induction bytes with
  | nil => rfl
  | cons b rest ih =>
    change (hex_lower rest).length + 2 = 2 * (rest.length + 1)
    omega

theorem parse_hex_lower (d : Digest) : parse_sha256_hex (hex_lower d.val) = some d := by
  have bare : SHA256_PREFIX.isPrefixOf (hex_lower d.val) = false := by
    cases bytes : d.val with
    | nil => rfl
    | cons b rest =>
      have first : ¬ (115 : UInt8) = hexDigit (b >>> 4) := Ne.symm (hex_byte b).2.2.2
      change ((115 : UInt8) == hexDigit (b >>> 4) && _) = false
      simp [first]
  unfold parse_sha256_hex
  rw [bare]
  simp [length_hex_lower, hexPairs_hex_lower]

theorem parse_prefixed (d : Digest) : parse_sha256_hex (SHA256_PREFIX ++ hex_lower d.val) = some d := by
  have marked : SHA256_PREFIX.isPrefixOf (SHA256_PREFIX ++ hex_lower d.val) = true :=
    isPrefixOf_iff_prefix.mpr (prefix_append _ _)
  unfold parse_sha256_hex
  rw [marked, if_pos rfl, drop_left]
  simp [length_hex_lower, hexPairs_hex_lower]

theorem mapM_parse_hex_lower (path : List Digest) : (path.map fun d => hex_lower d.val).mapM parse_sha256_hex = some path := by
  induction path with
  | nil => rfl
  | cons d path ih =>
    rw [map_cons, mapM_cons, parse_hex_lower, ih]
    rfl

section
variable (sha256 : Bytes → Digest)

def rfc6962_leaf_hash (leaf_input : Bytes) : Digest := sha256 (0 :: leaf_input)

def rfc6962_node_hash (left right : Digest) : Digest := sha256 (1 :: (left.val ++ right.val))

/-- The loop over the inclusion proof. -/
def proofLoop (expected_root : Digest) : Nat → Nat → Digest → List Bytes → Bool
  | _, sn, computed, [] => decide (sn = 0 ∧ computed = expected_root)
  | fn_index, sn, computed, sibling :: inclusion_proof =>
    match parse_sha256_hex sibling with
    | none => false
    | some sibling_hash =>
      if sn = 0 then false
      else if fn_index % 2 = 1 ∨ fn_index = sn then
        proofLoop expected_root ((shiftEven fn_index fn_index sn).1 / 2) ((shiftEven fn_index fn_index sn).2 / 2)
          (rfc6962_node_hash sha256 sibling_hash computed) inclusion_proof
      else proofLoop expected_root (fn_index / 2) (sn / 2) (rfc6962_node_hash sha256 computed sibling_hash) inclusion_proof

def verify_rfc6962_inclusion_proof_v1 (leaf_hash : Bytes) (log_index tree_size : Nat) (root_hash : Bytes)
    (inclusion_proof : List Bytes) : Bool :=
  if tree_size = 0 ∨ tree_size ≤ log_index then false
  else
    match parse_sha256_hex leaf_hash with
    | none => false
    | some computed =>
      match parse_sha256_hex root_hash with
      | none => false
      | some expected_root =>
        if tree_size = 1 then inclusion_proof.isEmpty && decide (computed = expected_root)
        else proofLoop sha256 expected_root log_index (tree_size - 1) computed inclusion_proof

/-- The root of the log's tree. -/
def MTH (log : List Bytes) : Digest := treeHash (rfc6962_node_hash sha256) (sha256 []) (log.map (rfc6962_leaf_hash sha256))

/-- The audit path of a leaf of the log. -/
def PATH (index : Nat) (log : List Bytes) : List Digest :=
  auditPath (rfc6962_node_hash sha256) (sha256 []) index (log.map (rfc6962_leaf_hash sha256))

/-- The node hash is free of collisions between what is hashed when a proof is checked and what is hashed on the way from the
leaf to the root. -/
def CollisionFree (log : List Bytes) (index : Nat) (leaf_hash : Bytes) (inclusion_proof : List Bytes) : Prop :=
  ∀ entry computed path, log[index]? = some entry → parse_sha256_hex leaf_hash = some computed →
    inclusion_proof.mapM parse_sha256_hex = some path →
      Apart (rfc6962_node_hash sha256) (walkPairs (rfc6962_node_hash sha256) index (log.length - 1) computed path)
        (walkPairs (rfc6962_node_hash sha256) index (log.length - 1) (rfc6962_leaf_hash sha256 entry) (PATH sha256 index log))

theorem proofLoop_iff (expected_root : Digest) (fn_index sn : Nat) (computed : Digest) (inclusion_proof : List Bytes) :
    proofLoop sha256 expected_root fn_index sn computed inclusion_proof = true ↔
      ∃ path, inclusion_proof.mapM parse_sha256_hex = some path ∧
        walk (rfc6962_node_hash sha256) fn_index sn computed path = some expected_root := by
  induction inclusion_proof generalizing fn_index sn computed with
  | nil => simp [proofLoop, walk]
  | cons sibling rest ih =>
    rw [proofLoop, mapM_cons]
    cases parse_sha256_hex sibling with
    | none => simp
    | some sibling_hash =>
      have read : ∀ (Q : List Digest → Prop),
          (∃ path, (do let a ← some sibling_hash; let l ← rest.mapM parse_sha256_hex; pure (a :: l)) = some path ∧ Q path) ↔
            ∃ path, rest.mapM parse_sha256_hex = some path ∧ Q (sibling_hash :: path) := by
        intro Q
        cases rest.mapM parse_sha256_hex <;> simp
      rw [read]
      simp only [walk]
      split_ifs with done left
      · simp
      · exact ih _ _ _
      · exact ih _ _ _

theorem verify_eq_true_iff (leaf_hash : Bytes) (log_index tree_size : Nat) (root_hash : Bytes) (inclusion_proof : List Bytes) :
    verify_rfc6962_inclusion_proof_v1 sha256 leaf_hash log_index tree_size root_hash inclusion_proof = true ↔
      log_index < tree_size ∧ ∃ computed expected_root path, parse_sha256_hex leaf_hash = some computed ∧
        parse_sha256_hex root_hash = some expected_root ∧ inclusion_proof.mapM parse_sha256_hex = some path ∧
          walk (rfc6962_node_hash sha256) log_index (tree_size - 1) computed path = some expected_root := by
  unfold verify_rfc6962_inclusion_proof_v1
  by_cases outside : tree_size = 0 ∨ tree_size ≤ log_index
  · rw [if_pos outside]
    have beyond : ¬ log_index < tree_size := by omega
    simp [beyond]
  · rw [if_neg outside]
    have inside : log_index < tree_size := by omega
    cases parse_sha256_hex leaf_hash with
    | none => simp
    | some computed =>
      cases parse_sha256_hex root_hash with
      | none => simp
      | some expected_root =>
        dsimp only
        by_cases single : tree_size = 1
        · subst single
          cases inclusion_proof with
          | nil => simp [walk, inside]
          | cons sibling rest =>
            rw [if_pos rfl, mapM_cons]
            cases parse_sha256_hex sibling with
            | none => simp
            | some sibling_hash => cases rest.mapM parse_sha256_hex <;> simp [walk]
        · rw [if_neg single, proofLoop_iff]
          simp [inside]

/-- The check rejects every index outside of the log, and with the log's root it accepts exactly the hash of the leaf with its
audit path. -/
theorem inclusion_proof_iff (log : List Bytes) (index : Nat) (leaf_hash root_hash : Bytes) (inclusion_proof : List Bytes) :
    (∀ tree_size ≤ index,
        verify_rfc6962_inclusion_proof_v1 sha256 leaf_hash index tree_size root_hash inclusion_proof = false) ∧
      (parse_sha256_hex root_hash = some (MTH sha256 log) → CollisionFree sha256 log index leaf_hash inclusion_proof →
        ∀ entry, log[index]? = some entry →
          (verify_rfc6962_inclusion_proof_v1 sha256 leaf_hash index log.length root_hash inclusion_proof = true ↔
            parse_sha256_hex leaf_hash = some (rfc6962_leaf_hash sha256 entry) ∧
              inclusion_proof.mapM parse_sha256_hex = some (PATH sha256 index log))) := by
  constructor
  · intro tree_size outside
    unfold verify_rfc6962_inclusion_proof_v1
    rw [if_pos (.inr outside)]
  · intro root apart entry here
    have inside : index < log.length := (List.getElem?_eq_some_iff.mp here).1
    have leaf : (log.map (rfc6962_leaf_hash sha256))[index]? = some (rfc6962_leaf_hash sha256 entry) := by
      rw [List.getElem?_map, here]
      rfl
    have walked : ∀ computed path, parse_sha256_hex leaf_hash = some computed →
        inclusion_proof.mapM parse_sha256_hex = some path →
          (walk (rfc6962_node_hash sha256) index (log.length - 1) computed path = some (MTH sha256 log) ↔
            computed = rfc6962_leaf_hash sha256 entry ∧ path = PATH sha256 index log) := by
      intro computed path read reads
      have split := walk_eq_root_iff (rfc6962_node_hash sha256) (sha256 []) leaf computed path
      rw [length_map] at split
      exact split (apart entry computed path here read reads)
    rw [verify_eq_true_iff, root]
    constructor
    · rintro ⟨_, computed, expected, path, read, same, reads, reached⟩
      cases same
      obtain ⟨rfl, rfl⟩ := (walked computed path read reads).mp reached
      exact ⟨read, reads⟩
    · rintro ⟨read, reads⟩
      exact ⟨inside, _, _, _, read, rfl, reads, (walked _ _ read reads).mpr ⟨rfl, rfl⟩⟩

end

/-- A stand-in for the hash: the first bytes after the mark. -/
def sampleHash (bytes : Bytes) : Digest := fixed 32 (bytes.drop 1)

/-- The last of three leaves with its audit path. -/
theorem inclusion_proof_iff_third :
    verify_rfc6962_inclusion_proof_v1 sampleHash (hex_lower (rfc6962_leaf_hash sampleHash [3]).val) 2 3
      (SHA256_PREFIX ++ hex_lower (MTH sampleHash [[1], [2], [3]]).val)
      ((PATH sampleHash 2 [[1], [2], [3]]).map fun d => hex_lower d.val) = true := by
  have path : PATH sampleHash 2 [[1], [2], [3]] =
      [rfc6962_node_hash sampleHash (rfc6962_leaf_hash sampleHash [1]) (rfc6962_leaf_hash sampleHash [2])] := by
    have three : splitPoint 3 = 2 := by decide
    have two : splitPoint 2 = 1 := by decide
    simp [PATH, auditPath, treeHash, three, two]
  refine ((inclusion_proof_iff sampleHash [[1], [2], [3]] 2 _ _ _).2 (parse_prefixed _) ?_ [3] rfl).mpr
    ⟨parse_hex_lower _, mapM_parse_hex_lower _⟩
  intro entry computed proof here read reads
  cases here
  rw [parse_hex_lower] at read
  rw [mapM_parse_hex_lower] at reads
  cases read
  cases reads
  rw [path]
  -- a single pair is hashed
  intro pair member other member' _
  rw [mem_singleton.mp member, mem_singleton.mp member']

end Crux.Witness
