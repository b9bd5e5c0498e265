import Crux.FactHolds
import Crux.FactReplay

/-!
# Compaction and retention

Compaction rewrites the journal from the facts in memory: the facts that are not
deleted in the order of their time stamps, the consolidations still in force and
a tombstone for each deleted fact. A retention sweep deletes old facts.
-/

namespace Crux.Facts
namespace Memory

def storedBefore (a b : Fact) : Prop :=
  a.stored_at < b.stored_at ∨ (a.stored_at = b.stored_at ∧ a.fact_id ≤ b.fact_id)

instance : DecidableRel storedBefore := fun a b => by unfold storedBefore; infer_instance

/-- The facts that are kept, by time and identifier. -/
def liveSorted (s : Memory) : List Fact := (s.facts.filter fun f => !f.deleted).insertionSort storedBefore

/-- The lines of a kept fact: the fact and the link to its successor. -/
def storeLines (f : Fact) : List JournalEvent :=
  match f.superseded_by with
  | some successor => [.Store f, .Supersede f.fact_id successor]
  | none => [.Store f]

/-- The line of a consolidation whose canonical fact is kept. -/
def provenanceLine (s : Memory) (canonical_id : String) : Option JournalEvent :=
  match s.consolidation_sources canonical_id, (s.lookup canonical_id).filter fun f => !f.deleted with
  | some ids, some canonical => some (.ConsolidationProvenance canonical_id ids canonical.tenant_hash)
  | _, _ => none

/-- The lines of a compacted journal. -/
def compactedLines (s : Memory) : List JournalEvent :=
  s.liveSorted.flatMap storeLines ++
    (sortIds (s.facts.map Fact.fact_id)).filterMap s.provenanceLine ++
    (sortIds ((s.facts.filter fun f => f.deleted).map Fact.fact_id)).map .Delete

/-- Old enough to be deleted, and neither private nor reserved nor held. -/
def retentionEligible (holds : List LegalHold) (cutoff : Timestamp) (f : Fact) : Bool :=
  !f.deleted && !f.is_private && decide (f.stored_at < cutoff) && !starts_with f.entity "__sync_tombstone__::" &&
    ( daemon_owned_entity_prefix f.entity).isNone && !holds.any fun hold => hold.covers_fact f

def get (s : Memory) (fact_id : String) : Option Fact := (s.lookup fact_id).filter fun f => !f.deleted

def get_for_tenant (s : Memory) (fact_id tenant_hash : String) : Option Fact :=
  (s.get fact_id).filter fun f => f.tenant_hash = tenant_hash

def get_for_tenant_including_deleted (s : Memory) (fact_id tenant_hash : String) : Option Fact :=
  (s.lookup fact_id).filter fun f => f.tenant_hash = tenant_hash

def get_by_entity (s : Memory) (entity : String) : List Fact :=
  s.facts.filter fun f => decide (f.entity = entity) && !f.deleted

def get_by_entity_for_tenant (s : Memory) (entity tenant_hash : String) : List Fact :=
  (s.get_by_entity entity).filter fun f => f.tenant_hash = tenant_hash

def all_facts_for_tenant (s : Memory) (tenant_hash : String) : List Fact :=
  s.facts.filter fun f => f.tenant_hash = tenant_hash

def versionLe (a b : Fact) : Prop := a.version ≤ b.version

instance : DecidableRel versionLe := fun a b => by unfold versionLe; infer_instance

/-- The versions of a chain, by number; equal numbers stay in the order of insertion. -/
def fact_history (s : Memory) (tenant_hash entity key : String) : List Fact :=
  (s.chain (tenant_hash, entity, key)).insertionSort versionLe

end Memory

namespace FactStore

/-- The rewritten journal replaces the old one whole, or not at all. -/
def compact_journal_unchecked (s : FactStore) (replaced : Bool) : FactStore × Bool :=
  if replaced then ({ s with journal := s.compactedLines }, true) else (s, false)

def compact_journal (parse : String → Option LegalHold) (s : FactStore) (replaced : Bool) : FactStore × Bool :=
  if (s.deleted_facts_covered_by_legal_holds parse).isEmpty then s.compact_journal_unchecked replaced else (s, false)

def deleteEach : FactStore → List (Fact × Bool) → FactStore
  | s, [] => s
  | s, (f, written) :: rest => deleteEach (s.try_delete f.tenant_hash f.fact_id written).1 rest

/-- The sweep; the flags are the outcomes of the writes, one for each fact in turn. -/
def mark_retention_eligible (parse : String → Option LegalHold) (s : FactStore) (cutoff : Timestamp)
    (written : List Bool) : FactStore :=
  deleteEach s ((s.facts.filter (Memory.retentionEligible (s.active_legal_holds parse) cutoff)).zip written)

end FactStore
end Crux.Facts
