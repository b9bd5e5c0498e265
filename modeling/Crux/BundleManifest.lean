import Mathlib.Data.List.Sort
import Mathlib.Data.List.Perm.Subperm
import Crux.Bytes

/-!
# The manifest of an audit bundle

The manifest's fields, the JSON value they are written as, and the bytes that are
signed: a domain tag by format version, then the value with its keys in order. What is
signed determines every field of the manifest but the signature.
-/

namespace Crux.Witness
open Crux.Bytes

structure AuditBundleScopeV1 where
  entity_prefix : Option Bytes
  include_reserved : Bool
  caller : Option Bytes
deriving DecidableEq

inductive AuditBundleKeyClassV1 where
  | Env
  | Persistent
  | Ephemeral
deriving DecidableEq

structure AuditBundleManifestV1 where
  bundle_format_version : Nat
  bundle_id : Bytes
  since : Bytes
  «until» : Bytes
  generated_at : Bytes
  scope : AuditBundleScopeV1
  fact_count : Nat
  receipt_count : Nat
  events_jsonl_sha256 : Bytes
  receipts_cbor_sha256 : Bytes
  witness_proof_count : Nat
  witness_proofs_sha256 : Option Bytes
  signer_public_key_b64 : Bytes
  signer_key_id : Bytes
  key_class : Option AuditBundleKeyClassV1
  signature_b64 : Bytes
deriving DecidableEq

inductive Json where
  | Null
  | Bool (b : Bool)
  | Number (n : Nat)
  | Str (text : List UInt8)
  | Array (items : List Json)
  | Object (fields : List (String × Json))

/-- The members of an object in the order of their keys. -/
def sortKeys (fields : List (String × Json)) : List (String × Json) :=
  fields.insertionSort fun a b => a.1 ≤ b.1

mutual
def canonicalise : Json → Json
  | .Object fields => .Object (sortKeys (canonicaliseFields fields))
  | .Array items => .Array (canonicaliseItems items)
  | other => other
def canonicaliseFields : List (String × Json) → List (String × Json)
  | [] => []
  | (key, child) :: rest => (key, canonicalise child) :: canonicaliseFields rest
def canonicaliseItems : List Json → List Json
  | [] => []
  | item :: rest => canonicalise item :: canonicaliseItems rest
end

def Json.member (key : String) : Json → Option Json
  | .Object fields => (fields.find? fun field => field.1 = key).map Prod.snd
  | _ => none

theorem canonicaliseFields_eq_map (fields : List (String × Json)) :
    canonicaliseFields fields = fields.map fun field => (field.1, canonicalise field.2) := by
  induction fields with
  | nil => rfl
  | cons field rest ih =>
    obtain ⟨key, child⟩ := field
    rw [canonicaliseFields, ih, List.map_cons]

theorem find_key_iff {fields : List (String × Json)} (distinct : (fields.map Prod.fst).Nodup) :
    fields.find? (fun f => f.1 = key) = some field ↔ field ∈ fields ∧ field.1 = key := by
  constructor
  · intro found
    have named := List.find?_some found
    exact ⟨List.mem_of_find?_eq_some found, by simpa using named⟩
  · rintro ⟨member, named⟩
    cases found : fields.find? fun f => f.1 = key with
    | none =>
      have missing := List.find?_eq_none.mp found field member
      simp [named] at missing
    | some other =>
      have other_named := List.find?_some found
      rw [decide_eq_true_eq, ← named] at other_named
      rw [List.inj_on_of_nodup_map distinct (List.mem_of_find?_eq_some found) member other_named]

theorem find_key_perm {xs ys : List (String × Json)} (moved : xs.Perm ys) (distinct : (xs.map Prod.fst).Nodup) (key : String) :
    xs.find? (fun field => field.1 = key) = ys.find? (fun field => field.1 = key) := by
  have distinct' : (ys.map Prod.fst).Nodup := (moved.map Prod.fst).nodup_iff.mp distinct
  ext field
  rw [find_key_iff distinct, find_key_iff distinct', moved.mem_iff]

theorem member_canonicalise {fields : List (String × Json)} (distinct : (fields.map Prod.fst).Nodup) (key : String) :
    (canonicalise (.Object fields)).member key = (Json.member key (.Object fields)).map canonicalise := by
  have keys : ((canonicaliseFields fields).map Prod.fst).Nodup := by
    rw [canonicaliseFields_eq_map, List.map_map]
    exact distinct
  have sorted : (sortKeys (canonicaliseFields fields)).Perm (canonicaliseFields fields) := List.perm_insertionSort _ _
  rw [canonicalise, Json.member, ← find_key_perm sorted.symm keys, canonicaliseFields_eq_map, List.find?_map, Json.member]
  rw [Option.map_map, Option.map_map]
  rfl

def AuditBundleKeyClassV1.to_text : AuditBundleKeyClassV1 → List UInt8
  | .Env => [101, 110, 118]
  | .Persistent => [112, 101, 114, 115, 105, 115, 116, 101, 110, 116]
  | .Ephemeral => [101, 112, 104, 101, 109, 101, 114, 97, 108]

/-- A member that is left out when there is nothing to write. -/
def optional (key : String) (value : Option Json) : List (String × Json) := (value.map fun v => (key, v)).toList

def AuditBundleScopeV1.fields (scope : AuditBundleScopeV1) : List (String × Json) :=
  optional "entity_prefix" (scope.entity_prefix.map .Str) ++ [("include_reserved", .Bool scope.include_reserved)] ++
    optional "caller" (scope.caller.map .Str)

def AuditBundleManifestV1.fields (m : AuditBundleManifestV1) : List (String × Json) :=
  [("bundle_format_version", .Number m.bundle_format_version), ("bundle_id", .Str m.bundle_id), ("since", .Str m.since),
    ("until", .Str m.until), ("generated_at", .Str m.generated_at), ("scope", .Object m.scope.fields),
    ("fact_count", .Number m.fact_count), ("receipt_count", .Number m.receipt_count),
    ("events_jsonl_sha256", .Str m.events_jsonl_sha256), ("receipts_cbor_sha256", .Str m.receipts_cbor_sha256)] ++
  optional "witness_proof_count" (if m.witness_proof_count = 0 then none else some (.Number m.witness_proof_count)) ++
  optional "witness_proofs_sha256" (m.witness_proofs_sha256.map .Str) ++
  [("signer_public_key_b64", .Str m.signer_public_key_b64), ("signer_key_id", .Str m.signer_key_id)] ++
  optional "key_class" (m.key_class.map fun c => .Str c.to_text) ++ [("signature_b64", .Str m.signature_b64)]

/-- `serde_json::to_value`. -/
def AuditBundleManifestV1.to_value (m : AuditBundleManifestV1) : Json := .Object m.fields

def BUNDLE_FORMAT_V1 : Nat := 1
def BUNDLE_FORMAT_V2 : Nat := 2
def BUNDLE_FORMAT_VERSION : Nat := 3

/-- The text `cuecrux.audit_bundle.v` of a version, ended by a zero. -/
def domainTag (version : UInt8) : List UInt8 :=
  [99, 117, 101, 99, 114, 117, 120, 46, 97, 117, 100, 105, 116, 95, 98, 117, 110, 100, 108, 101, 46, 118, version, 0]

def AUDIT_BUNDLE_SIGNING_DOMAIN_V2 : List UInt8 := domainTag 50
def AUDIT_BUNDLE_SIGNING_DOMAIN : List UInt8 := domainTag 51

def AuditBundleManifestV1.cleared (m : AuditBundleManifestV1) : AuditBundleManifestV1 := { m with signature_b64 := [] }

section
variable (to_vec : Json → Option (List UInt8))

def canonical_json_bytes (value : Json) : Option (List UInt8) := to_vec (canonicalise value)

def AuditBundleManifestV1.canonical_signing_bytes (m : AuditBundleManifestV1) : Option (List UInt8) :=
  if BUNDLE_FORMAT_VERSION ≤ m.bundle_format_version then
    (canonical_json_bytes to_vec m.cleared.to_value).map fun canonical => AUDIT_BUNDLE_SIGNING_DOMAIN ++ canonical
  else if m.bundle_format_version = BUNDLE_FORMAT_V2 then
    (canonical_json_bytes to_vec m.cleared.to_value).map fun canonical => AUDIT_BUNDLE_SIGNING_DOMAIN_V2 ++ canonical
  else to_vec m.cleared.to_value

end

theorem find_optional (key other : String) (value : Option Json) :
    (optional key value).find? (fun field => field.1 = other) = if key = other then value.map fun v => (key, v) else none := by
  unfold optional
  cases value with
  | none => simp
  | some v => by_cases named : key = other <;> simp

theorem scope_keys_nodup (scope : AuditBundleScopeV1) : (scope.fields.map Prod.fst).Nodup := by
  unfold AuditBundleScopeV1.fields optional
  cases scope.entity_prefix <;> cases scope.caller <;> simp

theorem manifest_keys_nodup (m : AuditBundleManifestV1) : (m.fields.map Prod.fst).Nodup := by
  unfold AuditBundleManifestV1.fields optional
  by_cases none_counted : m.witness_proof_count = 0 <;> cases m.witness_proofs_sha256 <;> cases m.key_class <;>
    simp [none_counted]

theorem key_class_text_injective {a b : AuditBundleKeyClassV1} (same : a.to_text = b.to_text) : a = b := by
  cases a <;> cases b <;> first | rfl | cases same

theorem member_of_canonicalise (same : canonicalise (.Object xs) = canonicalise (.Object ys))
    (distinct_x : (xs.map Prod.fst).Nodup) (distinct_y : (ys.map Prod.fst).Nodup) (key : String) :
    (Json.member key (.Object xs)).map canonicalise = (Json.member key (.Object ys)).map canonicalise := by
  rw [← member_canonicalise distinct_x, ← member_canonicalise distinct_y, same]

theorem scope_of_canonicalise {a b : AuditBundleScopeV1} (same : canonicalise (.Object a.fields) = canonicalise (.Object b.fields)) :
    a = b := by
  have at_key := member_of_canonicalise same (scope_keys_nodup a) (scope_keys_nodup b)
  have starts := at_key "entity_prefix"
  have reserved := at_key "include_reserved"
  have callers := at_key "caller"
  obtain ⟨a_start, a_reserved, a_caller⟩ := a
  obtain ⟨b_start, b_reserved, b_caller⟩ := b
  cases a_start <;> cases b_start <;> cases a_caller <;> cases b_caller <;>
    simp_all [Json.member, AuditBundleScopeV1.fields, optional, canonicalise]

theorem manifest_of_canonicalise {a b : AuditBundleManifestV1} (same : canonicalise a.to_value = canonicalise b.to_value) : a = b := by
  have at_key := member_of_canonicalise same (manifest_keys_nodup a) (manifest_keys_nodup b)
  have texts : ∀ x y : List UInt8, some (canonicalise (.Str x)) = some (canonicalise (.Str y)) → x = y := by
    intro x y equal
    simpa [canonicalise] using equal
  have numbers : ∀ x y : Nat, some (canonicalise (.Number x)) = some (canonicalise (.Number y)) → x = y := by
    intro x y equal
    simpa [canonicalise] using equal
  have version := numbers _ _ (at_key "bundle_format_version")
  have bundle := texts _ _ (at_key "bundle_id")
  have since := texts _ _ (at_key "since")
  have till := texts _ _ (at_key "until")
  have generated := texts _ _ (at_key "generated_at")
  have scope := scope_of_canonicalise (Option.some.inj (at_key "scope"))
  have facts := numbers _ _ (at_key "fact_count")
  have receipts := numbers _ _ (at_key "receipt_count")
  have events_hash := texts _ _ (at_key "events_jsonl_sha256")
  have receipts_hash := texts _ _ (at_key "receipts_cbor_sha256")
  have proofs_at := at_key "witness_proof_count"
  have proofs_hash_at := at_key "witness_proofs_sha256"
  have signer_at := at_key "signer_public_key_b64"
  have key_id_at := at_key "signer_key_id"
  have key_class_at := at_key "key_class"
  have signature_at := at_key "signature_b64"
  -- these stand behind fields that may be left out
  simp [Json.member, AuditBundleManifestV1.fields, List.find?_append, find_optional]
    at proofs_at proofs_hash_at signer_at key_id_at key_class_at signature_at
  have proofs : a.witness_proof_count = b.witness_proof_count := by
    by_cases none_a : a.witness_proof_count = 0 <;> by_cases none_b : b.witness_proof_count = 0 <;>
      simp_all [canonicalise]
  have proofs_hash := Option.map_injective (fun x y equal => texts x y (congrArg some equal)) proofs_hash_at
  have signer := texts _ _ (congrArg some signer_at)
  have key_id := texts _ _ (congrArg some key_id_at)
  have key_class := Option.map_injective (fun x y equal => key_class_text_injective (texts _ _ (congrArg some equal))) key_class_at
  have signature := texts _ _ (congrArg some signature_at)
  cases a
  cases b
  congr 1

section
variable {to_vec : Json → Option (List UInt8)}

/-- What is assumed of the writer of JSON texts: a text is that of one value, and an object's begins with a brace. -/
structure WritesJson (to_vec : Json → Option (List UInt8)) : Prop where
  one_value : ∀ {v w : Json} {text : List UInt8}, to_vec v = some text → to_vec w = some text → v = w
  brace : ∀ {fields : List (String × Json)} {text : List UInt8}, to_vec (.Object fields) = some text → text.head? = some 0x7b

theorem canonical_json_injective (writes : WritesJson to_vec) {a b : AuditBundleManifestV1}
    (of_a : canonical_json_bytes to_vec a.to_value = some text) (of_b : canonical_json_bytes to_vec b.to_value = some text) :
    a = b :=
  manifest_of_canonicalise (writes.one_value of_a of_b)

theorem signing_bytes_cases (writes : WritesJson to_vec) {m : AuditBundleManifestV1}
    (signed : m.canonical_signing_bytes to_vec = some bytes) :
    (∃ text, canonical_json_bytes to_vec m.cleared.to_value = some text ∧ bytes = AUDIT_BUNDLE_SIGNING_DOMAIN ++ text) ∨
    (∃ text, canonical_json_bytes to_vec m.cleared.to_value = some text ∧ bytes = AUDIT_BUNDLE_SIGNING_DOMAIN_V2 ++ text) ∨
    (to_vec m.cleared.to_value = some bytes ∧ bytes.head? = some 0x7b) := by
  unfold AuditBundleManifestV1.canonical_signing_bytes at signed
  split_ifs at signed
  · obtain ⟨text, written, rfl⟩ := Option.map_eq_some_iff.mp signed
    exact .inl ⟨text, written, rfl⟩
  · obtain ⟨text, written, rfl⟩ := Option.map_eq_some_iff.mp signed
    exact .inr (.inl ⟨text, written, rfl⟩)
  · exact .inr (.inr ⟨signed, writes.brace signed⟩)

theorem domain_tags_differ (x y : List UInt8) : AUDIT_BUNDLE_SIGNING_DOMAIN ++ x ≠ AUDIT_BUNDLE_SIGNING_DOMAIN_V2 ++ y := by
  intro same
  have heads := congrArg (List.take 24) same
  simp [AUDIT_BUNDLE_SIGNING_DOMAIN, AUDIT_BUNDLE_SIGNING_DOMAIN_V2, domainTag] at heads

/-- What is signed determines every field of the manifest but the signature, across all format versions. -/
theorem signing_bytes_injective (writes : WritesJson to_vec) {a b : AuditBundleManifestV1}
    (of_a : a.canonical_signing_bytes to_vec = some bytes) (of_b : b.canonical_signing_bytes to_vec = some bytes) :
    a.cleared = b.cleared := by
  rcases signing_bytes_cases writes of_a with ⟨x, text_a, rfl⟩ | ⟨x, text_a, rfl⟩ | ⟨text_a, brace_a⟩ <;>
    rcases signing_bytes_cases writes of_b with ⟨y, text_b, same⟩ | ⟨y, text_b, same⟩ | ⟨text_b, brace_b⟩
  · cases List.append_cancel_left same
    exact canonical_json_injective writes text_a text_b
  · exact absurd same (domain_tags_differ x y)
  · cases brace_b
  · exact absurd same.symm (domain_tags_differ y x)
  · cases List.append_cancel_left same
    exact canonical_json_injective writes text_a text_b
  · cases brace_b
  · rw [same] at brace_a
    cases brace_a
  · rw [same] at brace_a
    cases brace_a
  · have equal : a.cleared.to_value = b.cleared.to_value := writes.one_value text_a text_b
    exact manifest_of_canonicalise (congrArg canonicalise equal)

end

end Crux.Witness
