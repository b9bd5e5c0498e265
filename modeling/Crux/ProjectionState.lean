import Mathlib.Data.Prod.Lex
import Mathlib.Data.Finset.Basic
import Mathlib.Data.Finset.Insert
import Crux.Cbor
import Crux.SegmentTypes
import Crux.SortedMap

/-!
# The projection tables

`corecrux-projections/src/state.rs`: the tables that the events of the log are
folded into, and the fields of a living row that are recomputed from the other
tables. A table is a map in the order of its keys, as the snapshot files list it.

`recompute_apply_all` is what lets a log be folded in batches: derived fields
are never read by `apply`, so recomputing them between two events leaves no
trace once they are recomputed at the end.
-/

namespace Crux.Projections
open Crux.Bytes Crux.Segment Crux.Session List
open SortedMap (get_insert mem_keys_foldl mem_keys_insert mem_keys_remove mem_sortedKeys)

abbrev Uuid := FixedBytes 16

theorem ofBe_inj {n : Nat} {a b : FixedBytes n} (same : ofBe a.val = ofBe b.val) : a = b := by
  apply Subtype.ext
  rw [← beBytes_ofBe a.val, ← beBytes_ofBe b.val, a.property, b.property, same]

/-- Byte arrays of one size are ordered byte by byte, that is, as big-endian numbers. -/
instance (n : Nat) : LinearOrder (FixedBytes n) :=
  LinearOrder.lift' (fun a : FixedBytes n => ofBe a.val) fun _ _ => ofBe_inj

/-- An artifact of a tenant. -/
structure ArtifactKey where
  tenant_hash : UInt64
  artifact_id : UInt32
deriving DecidableEq

def ArtifactKey.rank (k : ArtifactKey) : ℕ ×ₗ ℕ := toLex (k.tenant_hash.toNat, k.artifact_id.toNat)

theorem ArtifactKey.rank_inj : Function.Injective ArtifactKey.rank := by
  rintro ⟨t, a⟩ ⟨t', a'⟩ same
  simp [rank, UInt64.toNat_inj, UInt32.toNat_inj] at same
  obtain ⟨rfl, rfl⟩ := same
  rfl

instance : LinearOrder ArtifactKey := LinearOrder.lift' ArtifactKey.rank ArtifactKey.rank_inj

structure RelationKey where
  tenant_hash : UInt64
  src_artifact_id : UInt32
  dst_artifact_id : UInt32
  relation_type : UInt8
deriving DecidableEq

def RelationKey.rank (k : RelationKey) : ℕ ×ₗ ℕ ×ₗ ℕ ×ₗ ℕ :=
  toLex (k.tenant_hash.toNat, toLex (k.src_artifact_id.toNat, toLex (k.dst_artifact_id.toNat, k.relation_type.toNat)))

theorem RelationKey.rank_inj : Function.Injective RelationKey.rank := by
  rintro ⟨t, a, b, r⟩ ⟨t', a', b', r'⟩ same
  simp [rank, UInt64.toNat_inj, UInt32.toNat_inj, UInt8.toNat_inj] at same
  obtain ⟨rfl, rfl, rfl, rfl⟩ := same
  rfl

instance : LinearOrder RelationKey := LinearOrder.lift' RelationKey.rank RelationKey.rank_inj

structure DependentKey where
  tenant_hash : UInt64
  artifact_id : UInt32
  dependent_type : UInt8
  dependent_id : Uuid
deriving DecidableEq

def DependentKey.rank (k : DependentKey) : ℕ ×ₗ ℕ ×ₗ ℕ ×ₗ ℕ :=
  toLex (k.tenant_hash.toNat, toLex (k.artifact_id.toNat, toLex (k.dependent_type.toNat, ofBe k.dependent_id.val)))

theorem DependentKey.rank_inj : Function.Injective DependentKey.rank := by
  rintro ⟨t, a, d, u⟩ ⟨t', a', d', u'⟩ same
  simp [rank, UInt64.toNat_inj, UInt32.toNat_inj, UInt8.toNat_inj] at same
  obtain ⟨rfl, rfl, rfl, ids⟩ := same
  rw [ofBe_inj ids]

instance : LinearOrder DependentKey := LinearOrder.lift' DependentKey.rank DependentKey.rank_inj

structure PressureKey where
  tenant_hash : UInt64
  artifact_id : UInt32
  pressure_event_id : Uuid
deriving DecidableEq

def PressureKey.rank (k : PressureKey) : ℕ ×ₗ ℕ ×ₗ ℕ :=
  toLex (k.tenant_hash.toNat, toLex (k.artifact_id.toNat, ofBe k.pressure_event_id.val))

theorem PressureKey.rank_inj : Function.Injective PressureKey.rank := by
  rintro ⟨t, a, u⟩ ⟨t', a', u'⟩ same
  simp [rank, UInt64.toNat_inj, UInt32.toNat_inj] at same
  obtain ⟨rfl, rfl, ids⟩ := same
  rw [ofBe_inj ids]

instance : LinearOrder PressureKey := LinearOrder.lift' PressureKey.rank PressureKey.rank_inj

/-- A tenant with the hash of an entity type or name and the hash of a predicate. -/
structure EntityKey where
  tenant_hash : UInt64
  subject_hash : UInt64
  predicate_hash : UInt64
deriving DecidableEq

def EntityKey.rank (k : EntityKey) : ℕ ×ₗ ℕ ×ₗ ℕ :=
  toLex (k.tenant_hash.toNat, toLex (k.subject_hash.toNat, k.predicate_hash.toNat))

theorem EntityKey.rank_inj : Function.Injective EntityKey.rank := by
  rintro ⟨t, a, p⟩ ⟨t', a', p'⟩ same
  simp [rank, UInt64.toNat_inj] at same
  obtain ⟨rfl, rfl, rfl⟩ := same
  rfl

instance : LinearOrder EntityKey := LinearOrder.lift' EntityKey.rank EntityKey.rank_inj

def RelationKey.source (k : RelationKey) : ArtifactKey := ⟨k.tenant_hash, k.src_artifact_id⟩
def RelationKey.target (k : RelationKey) : ArtifactKey := ⟨k.tenant_hash, k.dst_artifact_id⟩
def DependentKey.artifact (k : DependentKey) : ArtifactKey := ⟨k.tenant_hash, k.artifact_id⟩
def PressureKey.artifact (k : PressureKey) : ArtifactKey := ⟨k.tenant_hash, k.artifact_id⟩

inductive LivingStatusV1 where
  | Dormant
  | Active
  | Stale
  | Contested
  | Superseded
  | Deprecated
deriving DecidableEq

def LivingStatusV1.from_u8 (v : UInt8) : LivingStatusV1 :=
  if v = 1 then .Active
  else if v = 2 then .Stale
  else if v = 3 then .Contested
  else if v = 4 then .Superseded
  else if v = 5 then .Deprecated
  else .Dormant

def LivingStatusV1.to_u8 : LivingStatusV1 → UInt8
  | .Dormant => 0
  | .Active => 1
  | .Stale => 2
  | .Contested => 3
  | .Superseded => 4
  | .Deprecated => 5

@[simp] theorem LivingStatusV1.from_to_u8 (s : LivingStatusV1) : from_u8 s.to_u8 = s := by
  cases s <;> rfl

structure LivingStateRowV1 where
  living_status : LivingStatusV1 := .Dormant
  confidence_q16 : UInt16 := 0
  last_validated_at_micros : Int64 := 0
  next_review_at_micros : Int64 := 0
  pressure_level : UInt8 := 0
  pressure_reasons_mask : UInt32 := 0
  trunk_tier : UInt8 := 0
  relations_out_count : Int32 := 0
  relations_in_count : Int32 := 0
  dependents_count : Int32 := 0
  updated_at_micros : Int64 := 0
deriving DecidableEq

structure RelationEdgeV1 where
  confidence_q16 : UInt16
  evidence_ref_hash16 : FixedBytes 16
  created_at_micros : Int64
  updated_at_micros : Int64
deriving DecidableEq

structure DependentEdgeV1 where
  last_seen_at_micros : Int64
  usage_weight_q16 : UInt16
deriving DecidableEq

structure PressureEventRowV1 where
  pressure_code_id : UInt16
  severity : UInt8
  observed_at_micros : Int64
  acknowledged_at_micros : Int64
  resolved_at_micros : Int64
  receipt_id : Option Uuid
deriving DecidableEq

/-- The entity names seen for a tenant, type and predicate. -/
structure EntityCountRowV1 where
  items : Finset String := ∅
  last_updated_micros : Int64 := 0
deriving DecidableEq

structure EntityTimelineEntryV1 where
  occurred_at_micros : Int64
  entity_name : String
  object_value : String
deriving DecidableEq

structure EntityCurrentStateRowV1 where
  current_value : String
  occurred_at_micros : Int64
  previous_value : Option String
  previous_occurred_at_micros : Int64
deriving DecidableEq

structure ProjectionState where
  living : SortedMap ArtifactKey LivingStateRowV1 := .empty
  relations : SortedMap RelationKey RelationEdgeV1 := .empty
  dependents : SortedMap DependentKey DependentEdgeV1 := .empty
  pressure : SortedMap PressureKey PressureEventRowV1 := .empty
  entity_counts : SortedMap EntityKey EntityCountRowV1 := .empty
  entity_timelines : SortedMap EntityKey (Finset EntityTimelineEntryV1) := .empty
  entity_current_state : SortedMap EntityKey EntityCurrentStateRowV1 := .empty
deriving DecidableEq

open ProjectionState

structure LivingStateUpdateV1 where
  fields_mask : UInt32
  artifact_id : UInt32
  living_status : UInt8
  confidence_q16 : UInt16
  last_validated_at_micros : Int64
  next_review_at_micros : Int64
  trunk_tier : UInt8
  updated_at_micros : Int64
deriving DecidableEq

def MASK_LIVING_STATUS : UInt32 := (1 : UInt32) <<< 0
def MASK_CONFIDENCE : UInt32 := (1 : UInt32) <<< 1
def MASK_LAST_VALIDATED_AT : UInt32 := (1 : UInt32) <<< 2
def MASK_NEXT_REVIEW_AT : UInt32 := (1 : UInt32) <<< 3
def MASK_TRUNK_TIER : UInt32 := (1 : UInt32) <<< 4
def MASK_UPDATED_AT : UInt32 := (1 : UInt32) <<< 5

structure RelationUpsertV1 where
  src_artifact_id : UInt32
  dst_artifact_id : UInt32
  relation_type : UInt8
  confidence_q16 : UInt16
  evidence_ref_hash16 : FixedBytes 16
  created_at_micros : Int64
  updated_at_micros : Int64
deriving DecidableEq

structure RelationDeleteV1 where
  src_artifact_id : UInt32
  dst_artifact_id : UInt32
  relation_type : UInt8
deriving DecidableEq

structure DependentEvidenceUpsertV1 where
  artifact_id : UInt32
  dependent_type : UInt8
  dependent_id : Uuid
  last_seen_at_micros : Int64
  usage_weight_q16 : UInt16
deriving DecidableEq

structure PressureEventUpsertV1 where
  artifact_id : UInt32
  pressure_event_id : Uuid
  pressure_code_id : UInt16
  severity : UInt8
  observed_at_micros : Int64
  acknowledged_at_micros : Int64
  resolved_at_micros : Int64
  receipt_id : Option Uuid
deriving DecidableEq

/-- The fields of an entity fact that the tables take up. -/
structure EntityFactV1 where
  entity_type : String
  entity_name : String
  predicate : String
  object_value : String
  occurred_at_micros : Int64
deriving DecidableEq

/-- The session, migration and extraction events are not taken up by these tables: they are all `Other`. -/
inductive ProjectionEventV1 where
  | LivingStateUpdate (p : LivingStateUpdateV1)
  | RelationUpsert (p : RelationUpsertV1)
  | RelationDelete (p : RelationDeleteV1)
  | PressureUpsert (p : PressureEventUpsertV1)
  | DependentEvidenceUpsert (p : DependentEvidenceUpsertV1)
  | EntityFact (p : EntityFactV1)
  | Other
deriving DecidableEq

namespace ProjectionState

def ensure_living_row (s : ProjectionState) (tenant_hash : UInt64) (artifact_id : UInt32) : ProjectionState :=
  let key : ArtifactKey := ⟨tenant_hash, artifact_id⟩
  { s with living := s.living.insert key ((s.living.get key).getD {}) }

/-- The fields named by the mask are taken over. -/
def updatedRow (p : LivingStateUpdateV1) (row : LivingStateRowV1) : LivingStateRowV1 :=
  let set (bit : UInt32) : Bool := p.fields_mask &&& bit ≠ 0
  { row with
    living_status := if set MASK_LIVING_STATUS then .from_u8 p.living_status else row.living_status
    confidence_q16 := if set MASK_CONFIDENCE then p.confidence_q16 else row.confidence_q16
    last_validated_at_micros := if set MASK_LAST_VALIDATED_AT then p.last_validated_at_micros else row.last_validated_at_micros
    next_review_at_micros := if set MASK_NEXT_REVIEW_AT then p.next_review_at_micros else row.next_review_at_micros
    trunk_tier := if set MASK_TRUNK_TIER then p.trunk_tier else row.trunk_tier
    updated_at_micros := if set MASK_UPDATED_AT then p.updated_at_micros else row.updated_at_micros }

section
variable (s : ProjectionState) (tenant_hash : UInt64)

def apply_living_update (p : LivingStateUpdateV1) : ProjectionState :=
  let key : ArtifactKey := ⟨tenant_hash, p.artifact_id⟩
  { s with living := s.living.insert key (updatedRow p ((s.living.get key).getD {})) }

def apply_relation_upsert (p : RelationUpsertV1) : ProjectionState :=
  let s := s.ensure_living_row tenant_hash p.src_artifact_id
  let s := s.ensure_living_row tenant_hash p.dst_artifact_id
  { s with
    relations := s.relations.insert ⟨tenant_hash, p.src_artifact_id, p.dst_artifact_id, p.relation_type⟩
      { confidence_q16 := p.confidence_q16
        evidence_ref_hash16 := p.evidence_ref_hash16
        created_at_micros := p.created_at_micros
        updated_at_micros := p.updated_at_micros } }

def apply_relation_delete (p : RelationDeleteV1) : ProjectionState :=
  { s with relations := s.relations.remove ⟨tenant_hash, p.src_artifact_id, p.dst_artifact_id, p.relation_type⟩ }

end

/-- Evidence that is seen again keeps its latest time and its largest weight. -/
def mergedDependent (p : DependentEvidenceUpsertV1) : Option DependentEdgeV1 → DependentEdgeV1
  | some e =>
    { last_seen_at_micros := max e.last_seen_at_micros p.last_seen_at_micros
      usage_weight_q16 := max e.usage_weight_q16 p.usage_weight_q16 }
  | none => { last_seen_at_micros := p.last_seen_at_micros, usage_weight_q16 := p.usage_weight_q16 }

def apply_dependent_upsert (s : ProjectionState) (tenant_hash : UInt64) (p : DependentEvidenceUpsertV1) : ProjectionState :=
  let key : DependentKey := ⟨tenant_hash, p.artifact_id, p.dependent_type, p.dependent_id⟩
  let s := s.ensure_living_row tenant_hash p.artifact_id
  { s with dependents := s.dependents.insert key (mergedDependent p (s.dependents.get key)) }

def apply_pressure_upsert (s : ProjectionState) (tenant_hash : UInt64) (p : PressureEventUpsertV1) : ProjectionState :=
  let s := s.ensure_living_row tenant_hash p.artifact_id
  { s with
    pressure := s.pressure.insert ⟨tenant_hash, p.artifact_id, p.pressure_event_id⟩
      { pressure_code_id := p.pressure_code_id
        severity := p.severity
        observed_at_micros := p.observed_at_micros
        acknowledged_at_micros := p.acknowledged_at_micros
        resolved_at_micros := p.resolved_at_micros
        receipt_id := p.receipt_id } }

/-- The latest value wins; a fact older than the current one is not taken up. -/
def currentValue (p : EntityFactV1) (existing : Option EntityCurrentStateRowV1) : Option EntityCurrentStateRowV1 :=
  let should_update := match existing with
    | none => true
    | some row => decide (row.occurred_at_micros ≤ p.occurred_at_micros)
  if should_update then
    some
      { current_value := p.object_value
        occurred_at_micros := p.occurred_at_micros
        previous_value := existing.map fun r => r.current_value
        previous_occurred_at_micros := (existing.map fun r => r.occurred_at_micros).getD 0 }
  else none

def apply_entity_fact (crypto : Primitives) (s : ProjectionState) (tenant_hash : UInt64) (p : EntityFactV1) :
    ProjectionState :=
  let type_hash := crypto.xxh64 (as_bytes p.entity_type) 0
  let predicate_hash := crypto.xxh64 (as_bytes p.predicate) 0
  let name_hash := crypto.xxh64 (as_bytes p.entity_name) 0
  let count_key : EntityKey := ⟨tenant_hash, type_hash, predicate_hash⟩
  let count_row := (s.entity_counts.get count_key).getD {}
  let counts := s.entity_counts.insert count_key
    { items := insert p.entity_name count_row.items, last_updated_micros := p.occurred_at_micros }
  let timelines :=
    if 0 < p.occurred_at_micros then
      s.entity_timelines.insert count_key
        (insert { occurred_at_micros := p.occurred_at_micros, entity_name := p.entity_name, object_value := p.object_value }
          ((s.entity_timelines.get count_key).getD ∅))
    else s.entity_timelines
  let state_key : EntityKey := ⟨tenant_hash, name_hash, predicate_hash⟩
  let current := match currentValue p (s.entity_current_state.get state_key) with
    | some row => s.entity_current_state.insert state_key row
    | none => s.entity_current_state
  { s with entity_counts := counts, entity_timelines := timelines, entity_current_state := current }

def apply (crypto : Primitives) (s : ProjectionState) (tenant_hash : UInt64) : ProjectionEventV1 → ProjectionState
  | .LivingStateUpdate p => s.apply_living_update tenant_hash p
  | .RelationUpsert p => s.apply_relation_upsert tenant_hash p
  | .RelationDelete p => s.apply_relation_delete tenant_hash p
  | .PressureUpsert p => s.apply_pressure_upsert tenant_hash p
  | .DependentEvidenceUpsert p => s.apply_dependent_upsert tenant_hash p
  | .EntityFact p => s.apply_entity_fact crypto tenant_hash p
  | .Other => s

end ProjectionState

def severity_to_level (sev : UInt8) : UInt8 :=
  if sev = 0 then 0 else if sev = 1 ∨ sev = 2 then 1 else if sev = 3 then 2 else 3

def pressure_code_id_to_mask (code_id : UInt16) : UInt32 := 1 <<< (code_id.toUInt32 &&& 31)

/-- How often each key occurs. -/
def countEach (keys : List ArtifactKey) : SortedMap ArtifactKey Int32 :=
  keys.foldl (fun counts k => counts.insert k ((counts.get k).getD 0 + 1)) .empty

/-- The level and the reasons of the pressure events of an artifact that are still open. -/
def pressureByArtifact (rows : List (PressureKey × PressureEventRowV1)) : SortedMap ArtifactKey (UInt8 × UInt32) :=
  rows.foldl
    (fun found (k, ev) =>
      if ev.resolved_at_micros ≠ 0 then found
      else
        let cur := (found.get k.artifact).getD (0, 0)
        found.insert k.artifact
          (max cur.1 (severity_to_level ev.severity), cur.2 ||| pressure_code_id_to_mask ev.pressure_code_id))
    .empty

namespace ProjectionState

section
variable (s : ProjectionState)

def relationsOut : SortedMap ArtifactKey Int32 := countEach (s.relations.keys.map RelationKey.source)
def relationsIn : SortedMap ArtifactKey Int32 := countEach (s.relations.keys.map RelationKey.target)
def dependentCounts : SortedMap ArtifactKey Int32 :=
  countEach (s.dependents.keys.map DependentKey.artifact)
def openPressure : SortedMap ArtifactKey (UInt8 × UInt32) := pressureByArtifact s.pressure.entries

/-- A row with its derived fields as the other tables have them. -/
def derivedRow (key : ArtifactKey) (row : LivingStateRowV1) : LivingStateRowV1 :=
  let pressure := (s.openPressure.get key).getD (0, 0)
  { row with
    relations_out_count := (s.relationsOut.get key).getD 0
    relations_in_count := (s.relationsIn.get key).getD 0
    dependents_count := (s.dependentCounts.get key).getD 0
    pressure_level := pressure.1
    pressure_reasons_mask := pressure.2 }

def recompute_derived_fields : ProjectionState :=
  let touched := SortedMap.sortedKeys
    (s.living.keys ++ s.relationsOut.keys ++ s.relationsIn.keys ++ s.dependentCounts.keys ++ s.openPressure.keys)
  { s with
    living := touched.foldl (fun living key => living.insert key (s.derivedRow key ((living.get key).getD {}))) s.living }

end

end ProjectionState

theorem countEach_keys (member : k ∈ (countEach list).keys) : k ∈ list := by
  have placed := mem_keys_foldl id (fun _ _ _ here => mem_keys_insert.mp here) member
  rcases placed with none | ⟨x, here, rfl⟩
  · exact absurd none not_mem_nil
  · exact here

theorem pressureByArtifact_keys (member : k ∈ (pressureByArtifact rows).keys) : ∃ e ∈ rows, k = e.1.artifact := by
  have placed := mem_keys_foldl (fun e : PressureKey × PressureEventRowV1 => e.1.artifact) (fun found e x here => by
    dsimp only at here
    split_ifs at here with resolved
    · exact .inr here
    · exact mem_keys_insert.mp here) member
  rcases placed with none | here
  · exact absurd none not_mem_nil
  · exact here

theorem forall_keys_insert [LinearOrder κ] {rows : SortedMap κ α} {P : κ → Prop} (new : P k) (old : ∀ j ∈ rows.keys, P j) :
    ∀ j ∈ (rows.insert k v).keys, P j := by
  intro j here
  rcases mem_keys_insert.mp here with rfl | there
  · exact new
  · exact old j there

/-- The artifacts that occur in the other tables have a living row. -/
structure Covered (s : ProjectionState) : Prop where
  sources : ∀ k ∈ s.relations.keys, k.source ∈ s.living.keys
  targets : ∀ k ∈ s.relations.keys, k.target ∈ s.living.keys
  dependents : ∀ k ∈ s.dependents.keys, k.artifact ∈ s.living.keys
  pressure : ∀ k ∈ s.pressure.keys, k.artifact ∈ s.living.keys

theorem covered_default : Covered {} where
  sources _ here := absurd here not_mem_nil
  targets _ here := absurd here not_mem_nil
  dependents _ here := absurd here not_mem_nil
  pressure _ here := absurd here not_mem_nil

namespace Covered
variable {s : ProjectionState} (covered : Covered s)
include covered

theorem insert_living (key : ArtifactKey) (row : LivingStateRowV1) : Covered { s with living := s.living.insert key row } where
  sources k here := mem_keys_insert.mpr (.inr (covered.sources k here))
  targets k here := mem_keys_insert.mpr (.inr (covered.targets k here))
  dependents k here := mem_keys_insert.mpr (.inr (covered.dependents k here))
  pressure k here := mem_keys_insert.mpr (.inr (covered.pressure k here))

theorem relation_upsert (tenant_hash : UInt64) (p : RelationUpsertV1) : Covered (s.apply_relation_upsert tenant_hash p) := by
  have rows := (covered.insert_living ⟨tenant_hash, p.src_artifact_id⟩ ((s.living.get ⟨tenant_hash, p.src_artifact_id⟩).getD {}))
    |>.insert_living ⟨tenant_hash, p.dst_artifact_id⟩ (((s.ensure_living_row tenant_hash p.src_artifact_id).living.get
      ⟨tenant_hash, p.dst_artifact_id⟩).getD {})
  exact ⟨forall_keys_insert (mem_keys_insert.mpr (.inr (mem_keys_insert.mpr (.inl rfl)))) rows.sources,
    forall_keys_insert (mem_keys_insert.mpr (.inl rfl)) rows.targets, rows.dependents, rows.pressure⟩

theorem apply (crypto : Primitives) (tenant_hash : UInt64) (ev : ProjectionEventV1) : Covered (s.apply crypto tenant_hash ev) := by
  cases ev with
  | LivingStateUpdate p => exact covered.insert_living _ _
  | RelationUpsert p => exact covered.relation_upsert tenant_hash p
  | RelationDelete p =>
    exact ⟨fun k here => covered.sources k (mem_keys_remove here),
      fun k here => covered.targets k (mem_keys_remove here), covered.dependents, covered.pressure⟩
  | PressureUpsert p =>
    have rows := covered.insert_living ⟨tenant_hash, p.artifact_id⟩ ((s.living.get ⟨tenant_hash, p.artifact_id⟩).getD {})
    refine ⟨rows.sources, rows.targets, rows.dependents, ?_⟩
    exact forall_keys_insert (mem_keys_insert.mpr (.inl rfl)) rows.pressure
  | DependentEvidenceUpsert p =>
    have rows := covered.insert_living ⟨tenant_hash, p.artifact_id⟩ ((s.living.get ⟨tenant_hash, p.artifact_id⟩).getD {})
    refine ⟨rows.sources, rows.targets, ?_, rows.pressure⟩
    exact forall_keys_insert (mem_keys_insert.mpr (.inl rfl)) rows.dependents
  | EntityFact p => exact ⟨covered.sources, covered.targets, covered.dependents, covered.pressure⟩
  | Other => exact covered

theorem touched (k : ArtifactKey) :
    k ∈ s.living.keys ++ s.relationsOut.keys ++ s.relationsIn.keys ++ s.dependentCounts.keys ++ s.openPressure.keys ↔
      k ∈ s.living.keys := by
  simp only [mem_append]
  constructor
  · rintro ((((here | out) | into) | deps) | open_)
    · exact here
    · obtain ⟨r, member, rfl⟩ := mem_map.mp (countEach_keys out)
      exact covered.sources r member
    · obtain ⟨r, member, rfl⟩ := mem_map.mp (countEach_keys into)
      exact covered.targets r member
    · obtain ⟨d, member, rfl⟩ := mem_map.mp (countEach_keys deps)
      exact covered.dependents d member
    · obtain ⟨e, member, rfl⟩ := pressureByArtifact_keys open_
      exact covered.pressure e.1 (mem_map_of_mem member)
  · exact fun here => .inl (.inl (.inl (.inl here)))

end Covered

namespace ProjectionState

@[simp] theorem derivedRow_derivedRow (s : ProjectionState) (key : ArtifactKey) (row : LivingStateRowV1) :
    s.derivedRow key (s.derivedRow key row) = s.derivedRow key row := rfl

theorem get_foldl_derived (s : ProjectionState) (keys : List ArtifactKey) (living : SortedMap ArtifactKey LivingStateRowV1)
    (k : ArtifactKey) :
    (keys.foldl (fun living key => living.insert key (s.derivedRow key ((living.get key).getD {}))) living).get k =
      if k ∈ keys then some (s.derivedRow k ((living.get k).getD {})) else living.get k := by
  induction keys generalizing living with
  | nil => rfl
  | cons x rest ih =>
    rw [foldl_cons, ih, get_insert]
    by_cases same : k = x
    · subst same
      simp
    · simp [same]

theorem recompute_living_get (covered : Covered s) (k : ArtifactKey) :
    s.recompute_derived_fields.living.get k = (s.living.get k).map (s.derivedRow k) := by
  unfold recompute_derived_fields
  rw [get_foldl_derived]
  cases here : s.living.get k with
  | none =>
    rw [if_neg]
    · rfl
    · rw [mem_sortedKeys, covered.touched, SortedMap.mem_keys, here]
      simp
  | some row =>
    rw [if_pos]
    · rfl
    · rw [mem_sortedKeys, covered.touched, SortedMap.mem_keys]
      exact ⟨row, here⟩

end ProjectionState

/-- A row without its derived fields. -/
def LivingStateRowV1.own (row : LivingStateRowV1) : LivingStateRowV1 :=
  { row with
    pressure_level := 0, pressure_reasons_mask := 0, relations_out_count := 0, relations_in_count := 0, dependents_count := 0 }

/-- The tables agree but for the derived fields of the living rows. -/
structure SameOwn (s t : ProjectionState) : Prop where
  living : ∀ k, (s.living.get k).map LivingStateRowV1.own = (t.living.get k).map LivingStateRowV1.own
  relations : s.relations = t.relations
  dependents : s.dependents = t.dependents
  pressure : s.pressure = t.pressure
  entity_counts : s.entity_counts = t.entity_counts
  entity_timelines : s.entity_timelines = t.entity_timelines
  entity_current_state : s.entity_current_state = t.entity_current_state

variable {s t : ProjectionState}

/-- Writing a row that depends on the old row's own fields only keeps the agreement. -/
theorem SameOwn.insert_living (same : SameOwn s t) (key : ArtifactKey)
    (write : LivingStateRowV1 → LivingStateRowV1) (own : ∀ row, (write row).own = write row.own) :
    SameOwn { s with living := s.living.insert key (write ((s.living.get key).getD {})) }
      { t with living := t.living.insert key (write ((t.living.get key).getD {})) } := by
  have rows : ((s.living.get key).getD {}).own = ((t.living.get key).getD {}).own := by
    have both := same.living key
    cases here : s.living.get key <;> cases there : t.living.get key <;> simp_all
  refine ⟨fun k => ?_, same.relations, same.dependents, same.pressure, same.entity_counts, same.entity_timelines,
    same.entity_current_state⟩
  rw [get_insert, get_insert]
  by_cases here : k = key
  · rw [if_pos here, if_pos here, Option.map_some, Option.map_some, own, own, rows]
  · rw [if_neg here, if_neg here, same.living]

theorem SameOwn.ensure_living_row (same : SameOwn s t) (tenant_hash : UInt64) (artifact_id : UInt32) :
    SameOwn (s.ensure_living_row tenant_hash artifact_id) (t.ensure_living_row tenant_hash artifact_id) :=
  same.insert_living ⟨tenant_hash, artifact_id⟩ id fun _ => rfl

theorem SameOwn.apply (same : SameOwn s t) (crypto : Primitives) (tenant_hash : UInt64)
    (ev : ProjectionEventV1) : SameOwn (s.apply crypto tenant_hash ev) (t.apply crypto tenant_hash ev) := by
  cases ev with
  | LivingStateUpdate p => exact same.insert_living _ (updatedRow p) fun _ => rfl
  | RelationUpsert p =>
    have rows := (same.ensure_living_row tenant_hash p.src_artifact_id).ensure_living_row tenant_hash p.dst_artifact_id
    exact { rows with relations := by simp only [ProjectionState.apply, apply_relation_upsert, rows.relations] }
  | RelationDelete p =>
    exact { same with relations := by simp only [ProjectionState.apply, apply_relation_delete, same.relations] }
  | PressureUpsert p =>
    have rows := same.ensure_living_row tenant_hash p.artifact_id
    exact { rows with pressure := by simp only [ProjectionState.apply, apply_pressure_upsert, rows.pressure] }
  | DependentEvidenceUpsert p =>
    have rows := same.ensure_living_row tenant_hash p.artifact_id
    exact { rows with dependents := by simp only [ProjectionState.apply, apply_dependent_upsert, rows.dependents] }
  | EntityFact p =>
    exact { same with
      entity_counts := by simp only [ProjectionState.apply, apply_entity_fact, same.entity_counts]
      entity_timelines := by simp only [ProjectionState.apply, apply_entity_fact, same.entity_timelines]
      entity_current_state := by
        simp only [ProjectionState.apply, apply_entity_fact, same.entity_current_state] }
  | Other => exact same

theorem sameOwn_recompute (covered : Covered s) : SameOwn s.recompute_derived_fields s where
  living k := by
    rw [recompute_living_get covered]
    cases s.living.get k <;> rfl
  relations := rfl
  dependents := rfl
  pressure := rfl
  entity_counts := rfl
  entity_timelines := rfl
  entity_current_state := rfl

theorem SameOwn.recompute (same : SameOwn s t) (covered : Covered s) (covered' : Covered t) :
    s.recompute_derived_fields = t.recompute_derived_fields := by
  have rows : s.recompute_derived_fields.living = t.recompute_derived_fields.living := by
    apply SortedMap.ext_get
    intro k
    have derived : ∀ row row' : LivingStateRowV1, row.own = row'.own → s.derivedRow k row = t.derivedRow k row' := by
      intro row row' own
      cases row
      cases row'
      simp [LivingStateRowV1.own] at own
      simp only [derivedRow, openPressure, relationsOut,
        relationsIn, dependentCounts, same.relations, same.dependents, same.pressure, own]
    have both := same.living k
    rw [recompute_living_get covered, recompute_living_get covered']
    cases here : s.living.get k with
    | none => cases there : t.living.get k <;> simp_all
    | some row =>
      cases there : t.living.get k with
      | none => simp_all
      | some row' =>
        rw [here, there, Option.map_some, Option.map_some, Option.some.injEq] at both
        rw [Option.map_some, Option.map_some, derived row row' both]
  simp [recompute_derived_fields] at rows ⊢
  exact ⟨rows, same.relations, same.dependents, same.pressure, same.entity_counts, same.entity_timelines,
    same.entity_current_state⟩

end Crux.Projections
