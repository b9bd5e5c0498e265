import Crux.FactCompact

/-!
# Runs of a fact store

The calls a store is given, each with what the system contributes to it: the
identifiers and times drawn for new facts and which journal writes succeed.
-/

namespace Crux.Facts

/-- What is fixed for a process: the privacy policy and how a value is read as a legal hold. -/
structure Env where
  policy : PrivacyPolicy
  parse_legal_hold : String → Option LegalHold

inductive Op where
  | store (req : StoreFact) (stamp : Stamp) (written superseded : Bool)
  | try_store (req : StoreFact) (stamp : Stamp) (written superseded : Bool)
  | try_store_bulk (reqs : List (StoreFact × Stamp × Bool)) (written : Bool)
  | delete (tenant_hash fact_id : String) (written : Bool)
  | try_delete (tenant_hash fact_id : String) (written : Bool)
  | mark_superseded (tenant_hash target_fact_id by_fact_id : String) (written : Bool)
  | clear_superseded (tenant_hash fact_id : String) (written : Bool)
  | set_validity (fact_id : String) (valid_from valid_to : Option Timestamp) (written : Bool)
  | consolidate (tenant_hash : String) (req : ConsolidationRequestV1) (stamp : Stamp) (written : Bool)
  | undo (tenant_hash canonical_fact_id : String) (source_fact_ids : List String) (written : Bool)
  | store_synced (fact : Fact) (written : Bool)
  | sweep (cutoff : Timestamp) (written : List Bool)
  | compact (replaced : Bool)
  | reopen

namespace FactStore

def step (env : Env) (s : FactStore) : Op → FactStore
  | .store req stamp written superseded => (store env.policy s req stamp written superseded).1
  | .try_store req stamp written superseded => (try_store env.policy s req stamp written superseded).1
  | .try_store_bulk reqs written => (try_store_bulk env.policy s reqs written).1
  | .delete tenant_hash fact_id written => (s.delete tenant_hash fact_id written).1
  | .try_delete tenant_hash fact_id written => (s.try_delete tenant_hash fact_id written).1
  | .mark_superseded tenant_hash target successor written => (s.mark_superseded tenant_hash target successor written).1
  | .clear_superseded tenant_hash fact_id written => (s.clear_superseded tenant_hash fact_id written).1
  | .set_validity fact_id valid_from valid_to written => (s.set_validity fact_id valid_from valid_to written).1
  | .consolidate tenant_hash req stamp written => (consolidate_facts_v1 env.policy s tenant_hash req stamp written).1
  | .undo tenant_hash canonical ids written => (s.consolidate_undo_v1 tenant_hash canonical ids written).1
  | .store_synced fact written => (store_synced env.policy s fact written).1
  | .sweep cutoff written => s.mark_retention_eligible env.parse_legal_hold cutoff written
  | .compact replaced => (s.compact_journal env.parse_legal_hold replaced).1
  | .reopen => with_persistence env.policy s.journal

def run (env : Env) (s : FactStore) (ops : List Op) : FactStore := ops.foldl (step env) s

end FactStore

/-- A process without private prefixes of its own and without legal holds. -/
def sampleEnv : Env where
  policy := ⟨[], []⟩
  parse_legal_hold _ := none

def sampleRequest : StoreFact where
  tenant_hash := "first"
  entity := "e"
  key := "k"
  value := "v"
  source_receipt := none
  confidence := .finite 0
  is_private := false
  horizon_class := none
  actor := none

/-- The first version of a fact with that entity and key. -/
def sampleFact (fact_id tenant_hash : String) : Fact :=
  Memory.build_fact {} { sampleRequest with tenant_hash } ⟨fact_id, 0⟩

def sampleConsolidation (target_fact_ids : List String) : ConsolidationRequestV1 where
  consolidation_id := "id"
  entity := "e"
  key := "k"
  canonical_value := "w"
  target_fact_ids := target_fact_ids
  protected_fact_ids := []
  confidence := .finite 0
  source_receipt := none
  actor := none
  horizon_class := none
  protected_confidence_floor := .finite 1

/-- The identifiers an operation draws for new facts. -/
def Op.drawn : Op → List String
  | .store _ stamp _ _ => [stamp.fact_id]
  | .try_store _ stamp _ _ => [stamp.fact_id]
  | .try_store_bulk reqs _ => reqs.map fun r => r.2.1.fact_id
  | .consolidate _ _ stamp _ => [stamp.fact_id]
  | _ => []

/-- An identifier never seen: no fact has it and no link names it. -/
def Memory.Unseen (s : Memory) (id : String) : Prop :=
  ∀ f ∈ s.facts, f.fact_id ≠ id ∧ f.supersedes ≠ some id ∧ f.superseded_by ≠ some id

end Crux.Facts
