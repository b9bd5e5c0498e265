import Mathlib.Data.List.Sort
import Crux.FactStore

/-!
# Consolidating facts and undoing it

One journal event stores the canonical fact and retires its sources; one event
undoes it.
-/

namespace Crux.Facts
namespace Memory

/-- The checks on a fact of the tenant. -/
def checkFact (req : ConsolidationRequestV1) (fact_id : String) (fact : Fact) : Except ConsolidationErrorV1 Unit :=
  if fact.deleted then .error (.TargetDeleted fact_id)
  else if fact.superseded_by.isSome then .error (.TargetAlreadySuperseded fact_id)
  else if req.protected_fact_ids.contains fact_id then .error (.TargetPinned fact_id)
  else
    match daemon_owned_entity_prefix fact.entity with
    | some start => .error (.TargetDaemonOwned fact_id start)
    | none =>
      if fact.is_private then .error (.TargetPrivate fact_id)
      else if fact.source_receipt.isSome then .error (.TargetReceiptLinked fact_id)
      else if fact.confidence.ge req.protected_confidence_floor then .error (.TargetHighConfidence fact_id fact.confidence)
      else if fact.entity ≠ req.entity ∨ fact.key ≠ req.key then .error (.TargetOutsideEntityKey fact_id)
      else .ok ()

/-- The checks on one target, after those before it. -/
def checkTarget (s : Memory) (tenant_hash : String) (req : ConsolidationRequestV1) (seen : List String)
    (fact_id : String) : Except ConsolidationErrorV1 Unit :=
  if seen.contains fact_id then .error (.DuplicateTarget fact_id)
  else
    match (s.lookup fact_id).filter fun f => f.tenant_hash = tenant_hash with
    | none => .error (.TargetNotFound fact_id)
    | some fact => checkFact req fact_id fact

def checkTargets (s : Memory) (tenant_hash : String) (req : ConsolidationRequestV1) :
    List String → List String → Except ConsolidationErrorV1 Unit
  | _, [] => .ok ()
  | seen, fact_id :: rest => do
    s.checkTarget tenant_hash req seen fact_id
    s.checkTargets tenant_hash req (seen ++ [fact_id]) rest

/-- The request the canonical fact is built from. -/
def canonicalRequest (tenant_hash : String) (req : ConsolidationRequestV1) : StoreFact :=
  { tenant_hash, entity := req.entity, key := req.key, value := req.canonical_value
    source_receipt := some ("consolidation:" ++ req.consolidation_id), confidence := req.confidence
    is_private := false, horizon_class := req.horizon_class, actor := req.actor }

/-- The successor of facts named by a list. -/
def retireAll (s : Memory) (keep : Fact → Bool) (ids : List String) (successor : Option String) : Memory :=
  { s with facts := s.facts.map fun f => if ids.contains f.fact_id && keep f then setSupersededBy successor f else f }

def recordSources (s : Memory) (canonical_id : String) (ids : List String) : Memory :=
  { s with consolidation_sources := s.consolidation_sources.insert canonical_id ids }

/-- The version before a canonical fact must be among the targets. -/
def checkPrior (canonical : Fact) (targets : List String) : Except ConsolidationErrorV1 Fact :=
  match canonical.supersedes with
  | some prior => if targets.contains prior then .ok canonical else .error (.ImplicitPriorNotTarget prior)
  | none => .ok canonical

/-- Everything checked before the journal is written, with the canonical fact. -/
def planConsolidation (s : Memory) (tenant_hash : String) (req : ConsolidationRequestV1) (stamp : Stamp) :
    Except ConsolidationErrorV1 Fact :=
  if req.target_fact_ids.isEmpty then .error .NoTargets
  else if isBlank req.consolidation_id then .error .MissingConsolidationId
  else do
    s.checkTargets tenant_hash req [] req.target_fact_ids
    checkPrior (s.build_fact (canonicalRequest tenant_hash req) stamp) req.target_fact_ids

def sortIds (ids : List String) : List String := ids.insertionSort (· ≤ ·)

/-- `Vec::dedup`: equal neighbours are dropped. -/
def dedupIds : List String → List String
  | [] => []
  | [a] => [a]
  | a :: b :: rest => if a = b then dedupIds (b :: rest) else a :: dedupIds (b :: rest)

/-- All the named facts are there, not deleted, of a tenant and superseded as given. -/
def edgesAre (s : Memory) (tenant_hash : String) (successor : Option String) (ids : List String) : Bool :=
  ids.all fun id => (s.lookup id).any fun f =>
    !f.deleted && decide (f.tenant_hash = tenant_hash) && decide (f.superseded_by = successor)

/-- What is checked before an undo is written: the sources to restore, or none when it is done already. -/
def planUndo (s : Memory) (tenant_hash canonical_fact_id : String) (source_fact_ids : List String) :
    Except ConsolidationErrorV1 (Option (List String)) :=
  match (s.lookup canonical_fact_id).filter fun f => f.tenant_hash = tenant_hash with
  | none => .error (.TargetNotFound canonical_fact_id)
  | some canonical =>
    if source_fact_ids.isEmpty then .error .NoUndoSources
    else
      match s.consolidation_sources canonical_fact_id with
      | none => .error (.NotConsolidationCanonical canonical_fact_id)
      | some recorded_sources =>
        if canonical.superseded_by.isSome then .error (.CanonicalSuperseded canonical_fact_id)
        else if (sortIds recorded_sources).isEmpty ∨ dedupIds (sortIds source_fact_ids) ≠ sortIds recorded_sources then
          .error (.UndoSourceMismatch canonical_fact_id)
        else if canonical.deleted then
          if s.edgesAre tenant_hash none (sortIds recorded_sources) then .ok none
          else .error (.UndoSourceMismatch canonical_fact_id)
        else if s.edgesAre tenant_hash (some canonical_fact_id) (sortIds recorded_sources) then
          .ok (some (sortIds recorded_sources))
        else .error (.UndoSourceMismatch canonical_fact_id)

end Memory

inductive UndoStatus where
  | undone
  | already_undone
deriving DecidableEq

namespace FactStore
open Memory

def consolidate_facts_v1 (policy : PrivacyPolicy) (s : FactStore) (tenant_hash : String) (req : ConsolidationRequestV1)
    (stamp : Stamp) (written : Bool) : FactStore × Except ConsolidationErrorV1 String :=
  match s.planConsolidation tenant_hash req stamp with
  | .error e => (s, .error e)
  | .ok canonical =>
    if written then
      let s := s.append_journal (.Consolidate canonical req.target_fact_ids) true
      (s.change fun m => (((m.replay_journal_insert policy canonical).1.retireAll
          (fun f => f.tenant_hash = tenant_hash) req.target_fact_ids (some canonical.fact_id)).recordSources
            canonical.fact_id req.target_fact_ids),
        .ok canonical.fact_id)
    else (s, .error .Journal)

def consolidate_undo_v1 (s : FactStore) (tenant_hash canonical_fact_id : String) (source_fact_ids : List String)
    (written : Bool) : FactStore × Except ConsolidationErrorV1 UndoStatus :=
  match s.planUndo tenant_hash canonical_fact_id source_fact_ids with
  | .error e => (s, .error e)
  | .ok none => (s, .ok .already_undone)
  | .ok (some restored) =>
    if written then
      let s := s.append_journal (.ConsolidateUndo canonical_fact_id restored) true
      (s.change fun m => (m.modify canonical_fact_id setDeleted).retireAll (fun _ => true) restored none, .ok .undone)
    else (s, .error .Journal)

end FactStore
end Crux.Facts
