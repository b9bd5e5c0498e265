import Crux.FactConsolidate

/-!
# Replaying the journal

Opening a store replays the journal line by line, each event checked again
against the facts restored so far, and then removes the links that lead out of
their tenant or chain.
-/

namespace Crux.Facts
namespace Memory

/-- A source of a consolidation that is not undone, in the fact's own tenant. -/
def protectedSource (s : Memory) (fact_id : String) : Bool :=
  match s.lookup fact_id with
  | some f => s.is_active_consolidation_source_for_tenant fact_id f.tenant_hash
  | none => false

/-- Both facts exist, in one tenant. -/
def sameTenant (s : Memory) (fact_id by_fact_id : String) : Bool :=
  match s.lookup fact_id, s.lookup by_fact_id with
  | some target, some successor => decide (target.tenant_hash = successor.tenant_hash)
  | _, _ => false

def replayBatch (policy : PrivacyPolicy) : Memory → List Fact → Memory
  | s, [] => s
  | s, fact :: rest => replayBatch policy (s.replay_journal_insert policy fact).1 rest

def replayDelete (s : Memory) (fact_id : String) : Memory :=
  if (s.consolidation_sources fact_id).isSome || s.protectedSource fact_id then s else s.modify fact_id setDeleted

def replaySupersede (s : Memory) (fact_id by_fact_id : String) : Memory :=
  if s.sameTenant fact_id by_fact_id && !s.protectedSource fact_id then
    s.modify fact_id (setSupersededBy (some by_fact_id))
  else s

def replayClear (s : Memory) (fact_id : String) : Memory :=
  if s.protectedSource fact_id then s else s.modify fact_id (setSupersededBy none)

/-- The sources of a consolidation event as replay wants them: some, all different, the prior version among them, each there,
not deleted, of the tenant and not superseded. -/
def sourcesValid (s : Memory) (canonical : Fact) (ids : List String) : Bool :=
  !ids.isEmpty && decide ids.Nodup && canonical.supersedes.all ids.contains && s.edgesAre canonical.tenant_hash none ids

def replayConsolidate (policy : PrivacyPolicy) (s : Memory) (canonical : Fact) (ids : List String) : Memory :=
  let canonical := { canonical with tenant_hash := stampTenant canonical.tenant_hash }
  if (canonical.deleted || (s.lookup canonical.fact_id).isSome) || !s.sourcesValid canonical ids then s
  else
    match s.replay_journal_insert policy canonical with
    | (s, true) => (s.retireAll (fun _ => true) ids (some canonical.fact_id)).recordSources canonical.fact_id ids
    | (s, false) => s

/-- The canonical fact stands, the sources named are exactly those recorded, and each is superseded by it. -/
def canUndo (s : Memory) (canonical : Fact) (canonical_fact_id : String) (restored_fact_ids expected : List String) : Bool :=
  !canonical.deleted && canonical.superseded_by.isNone &&
    (!expected.isEmpty && decide (dedupIds (sortIds restored_fact_ids) = expected)) &&
    s.edgesAre canonical.tenant_hash (some canonical_fact_id) expected

def replayUndo (s : Memory) (canonical_fact_id : String) (restored_fact_ids : List String) : Memory :=
  let expected := sortIds ((s.consolidation_sources canonical_fact_id).getD [])
  match s.lookup canonical_fact_id with
  | some canonical =>
    if s.canUndo canonical canonical_fact_id restored_fact_ids expected then
      (s.modify canonical_fact_id setDeleted).retireAll (fun _ => true) expected none
    else s
  | none => s

def replayProvenance (s : Memory) (canonical_fact_id : String) (ids : List String) (tenant_hash : String) : Memory :=
  if ((s.lookup canonical_fact_id).any fun f => !f.deleted && decide (f.tenant_hash = tenant_hash)) &&
      (!ids.isEmpty && s.edgesAre tenant_hash (some canonical_fact_id) ids) then
    s.recordSources canonical_fact_id ids
  else s

section
variable (policy : PrivacyPolicy)

/-- An event of the journal. -/
def applyEvent (s : Memory) : JournalEvent → Memory
  | .Store fact => (s.replay_journal_insert policy fact).1
  | .StoreBatch facts => replayBatch policy s facts
  | .Delete fact_id => s.replayDelete fact_id
  | .Supersede fact_id by_fact_id => s.replaySupersede fact_id by_fact_id
  | .ClearSupersede fact_id => s.replayClear fact_id
  | .SetValidity fact_id valid_from valid_to => s.modify fact_id (setValidity valid_from valid_to)
  | .Consolidate canonical ids => replayConsolidate policy s canonical ids
  | .ConsolidateUndo canonical_fact_id ids => s.replayUndo canonical_fact_id ids
  | .ConsolidationProvenance canonical_fact_id ids tenant_hash => s.replayProvenance canonical_fact_id ids tenant_hash

/-- One line of the journal; a line that is not read back is skipped. -/
def replayEvent (s : Memory) (event : JournalEvent) : Memory :=
  if event.readable then applyEvent policy s event else s

/-- The lines of a journal, before the links are cleaned. -/
def replayLines (journal : List JournalEvent) : Memory :=
  journal.foldl (replayEvent policy) {}

def replay_journal (journal : List JournalEvent) : Memory :=
  (replayLines policy journal).sanitize_replayed_links

end

end Memory

/-- The store opened on a journal. -/
def FactStore.with_persistence (policy : PrivacyPolicy) (journal : List JournalEvent) : FactStore :=
  { Memory.replay_journal policy journal with journal }

end Crux.Facts
