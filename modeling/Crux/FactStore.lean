import Crux.FactTypes

/-!
# The fact store

The operations of `fact_store.rs` on the facts in memory and the journal on
disk. The facts are kept in the order of insertion, which is what the indexes by
entity and by chain record: an insertion pushes the identifier on both and
nothing is ever taken off. The journal is kept as the events of its lines.
-/

namespace Crux.Facts

/-- What is held in memory: the facts and the sources of each canonical fact. -/
structure Memory where
  facts : List Fact := []
  consolidation_sources : KeyMap String (List String) := KeyMap.empty

structure FactStore extends Memory where
  journal : List JournalEvent := []

namespace Memory

def lookup (s : Memory) (fact_id : String) : Option Fact := s.facts.find? fun f => f.fact_id = fact_id

/-- A change of the fact with an identifier, where there is one. -/
def modify (s : Memory) (fact_id : String) (change : Fact → Fact) : Memory :=
  { s with facts := s.facts.map fun f => if f.fact_id = fact_id then change f else f }

/-- A fact under a new identifier. -/
def insert_fact_indexes (s : Memory) (fact : Fact) : Memory := { s with facts := s.facts ++ [fact] }

/-- The facts of a version chain in the order of insertion. -/
def chain (s : Memory) (c : ChainKey) : List Fact := s.facts.filter fun f => f.chainKey = c

def setDeleted (f : Fact) : Fact := { f with deleted := true }

def setSupersededBy (successor : Option String) (f : Fact) : Fact := { f with superseded_by := successor }

def setValidity (valid_from valid_to : Option Timestamp) (f : Fact) : Fact := { f with valid_from, valid_to }

section
variable (s : Memory)

/-- A canonical fact of the tenant that is not deleted and has a fact among its sources. -/
def retires (source_fact_id tenant_hash : String) (canonical : Fact) : Bool :=
  match s.consolidation_sources canonical.fact_id with
  | some source_ids => source_ids.contains source_fact_id && !canonical.deleted && canonical.tenant_hash = tenant_hash
  | none => false

def active_consolidation_for_source (source_fact_id tenant_hash : String) : Bool :=
  s.facts.any (s.retires source_fact_id tenant_hash)

def is_active_consolidation_source_for_tenant (fact_id tenant_hash : String) : Bool :=
  s.active_consolidation_for_source fact_id tenant_hash

def is_consolidation_canonical_for_tenant (fact_id tenant_hash : String) : Bool :=
  (s.consolidation_sources fact_id).isSome && (s.lookup fact_id).any fun f => f.tenant_hash = tenant_hash

/-- The last fact of a chain that is not deleted. -/
def newest (c : ChainKey) : Option Fact := (s.chain c).reverse.find? fun f => !f.deleted

def build_fact (req : StoreFact) (stamp : Stamp) : Fact :=
  let tenant_hash := stampTenant req.tenant_hash
  let prev := s.newest (tenant_hash, req.entity, req.key)
  { fact_id := stamp.fact_id, tenant_hash, entity := req.entity, key := req.key, value := req.value
    source_receipt := req.source_receipt, confidence := req.confidence, stored_at := stamp.stored_at
    tokens := estimate_tokens req.value, deleted := false
    version := match prev with
      | some prev_fact => prev_fact.version + 1
      | none => 1
    supersedes := prev.map Fact.fact_id, is_private := req.is_private
    horizon_class := req.horizon_class.getD (HorizonClass.default_for_entity req.entity)
    reverified_at := none, superseded_by := none, actor := req.actor, valid_from := none, valid_to := none
    access_count := 0, last_accessed_at := none }

/-- Both facts exist and belong to a tenant. -/
def bothOf (tenant_hash target successor : String) : Bool :=
  match s.lookup target, s.lookup successor with
  | some t, some u => decide (t.tenant_hash = tenant_hash) && decide (u.tenant_hash = tenant_hash)
  | _, _ => false

/-- A link to an earlier version that is there but belongs to another chain. -/
def badSupersedes (f : Fact) : Bool :=
  match f.supersedes with
  | some previous_id => (s.lookup previous_id).any fun previous =>
      decide (previous.tenant_hash ≠ f.tenant_hash ∨ previous.entity ≠ f.entity ∨ previous.key ≠ f.key)
  | none => false

/-- A link to a successor that is there but belongs to another tenant. -/
def badSupersededBy (f : Fact) : Bool :=
  match f.superseded_by with
  | some successor_id => (s.lookup successor_id).any fun successor => decide (successor.tenant_hash ≠ f.tenant_hash)
  | none => false

/-- A fact without its bad links. -/
def cleanLinks (f : Fact) : Fact :=
  { f with supersedes := if s.badSupersedes f then none else f.supersedes
           superseded_by := if s.badSupersededBy f then none else f.superseded_by }

def sanitize_replayed_links : Memory := { s with facts := s.facts.map s.cleanLinks }

end

/-- A fact as it comes in from outside: classified and stamped. -/
def incoming (policy : PrivacyPolicy) (fact : Fact) : Fact :=
  let fact := enforce_global_fact policy fact
  { fact with tenant_hash := stampTenant fact.tenant_hash }

def replay_journal_insert (policy : PrivacyPolicy) (s : Memory) (fact : Fact) : Memory × Bool :=
  let fact := incoming policy fact
  if (s.lookup fact.fact_id).isSome then (s, false) else (s.insert_fact_indexes fact, true)

end Memory

namespace FactStore
open Memory

section
variable (s : FactStore)

/-- A change of what is in memory. -/
def change (f : Memory → Memory) : FactStore := { s with toMemory := f s.toMemory }

/-- A line at the end of the journal, unless the write fails. -/
def append_journal (event : JournalEvent) (written : Bool) : FactStore :=
  if written then { s with journal := s.journal ++ [event] } else s

def mark_superseded (tenant_hash target_fact_id by_fact_id : String) (written : Bool) : FactStore × Bool :=
  if s.is_active_consolidation_source_for_tenant target_fact_id tenant_hash then (s, false)
  else if s.bothOf tenant_hash target_fact_id by_fact_id then
    ((s.append_journal (.Supersede target_fact_id by_fact_id) written).change fun m =>
      m.modify target_fact_id (setSupersededBy (some by_fact_id)), true)
  else (s, false)

def clear_superseded (tenant_hash fact_id : String) (written : Bool) : FactStore × Bool :=
  if s.is_active_consolidation_source_for_tenant fact_id tenant_hash then (s, false)
  else if (s.lookup fact_id).any fun f => f.tenant_hash = tenant_hash then
    ((s.append_journal (.ClearSupersede fact_id) written).change fun m => m.modify fact_id (setSupersededBy none), true)
  else (s, false)

def set_validity (fact_id : String) (valid_from valid_to : Option Timestamp) (written : Bool) : FactStore × Bool :=
  if (s.lookup fact_id).isSome then
    ((s.append_journal (.SetValidity fact_id valid_from valid_to) written).change fun m =>
      m.modify fact_id (setValidity valid_from valid_to), true)
  else (s, false)

def supersede_prior_version (fact : Fact) (written : Bool) : FactStore :=
  match fact.supersedes with
  | some prev_id => (s.mark_superseded fact.tenant_hash prev_id fact.fact_id written).1
  | none => s

end

section
variable (policy : PrivacyPolicy) (s : FactStore) (req : StoreFact) (stamp : Stamp) (written superseded : Bool)

/-- The write of the fact's own line may fail: the fact is kept in memory all the same. The flags say which of the two lines
reach the disk. -/
def store : FactStore × Fact :=
  let fact := s.build_fact (enforce_global policy req) stamp
  let s := (s.change fun m => m.insert_fact_indexes fact).append_journal (.Store fact) written
  (s.supersede_prior_version fact superseded, fact)

def try_store : FactStore × Option Fact :=
  let fact := s.build_fact (enforce_global policy req) stamp
  if written then
    let s := (s.append_journal (.Store fact) true).change fun m => m.insert_fact_indexes fact
    (s.supersede_prior_version fact superseded, some fact)
  else (s, none)

end

/-- The facts of a batch one after the other, with the outcome of each supersession's write. -/
def insertBatch : FactStore → List (Fact × Bool) → FactStore
  | s, [] => s
  | s, (fact, superseded) :: rest => 
    insertBatch ((s.change fun m => m.insert_fact_indexes fact).supersede_prior_version fact superseded) rest

/-- All facts of a batch are built before the first is inserted. -/
def try_store_bulk (policy : PrivacyPolicy) (s : FactStore) (reqs : List (StoreFact × Stamp × Bool)) (written : Bool) :
    FactStore × Option (List Fact) :=
  let facts := reqs.map fun (req, stamp, superseded) => (s.build_fact (enforce_global policy req) stamp, superseded)
  if written then
    (insertBatch (s.append_journal (.StoreBatch (facts.map Prod.fst)) true) facts, some (facts.map Prod.fst))
  else (s, none)

def delete (s : FactStore) (tenant_hash fact_id : String) (written : Bool) : FactStore × Bool :=
  if s.is_consolidation_canonical_for_tenant fact_id tenant_hash ||
      s.is_active_consolidation_source_for_tenant fact_id tenant_hash then (s, false)
  else if (s.lookup fact_id).any fun f => f.tenant_hash = tenant_hash then
    ((s.change fun m => m.modify fact_id setDeleted).append_journal (.Delete fact_id) written, true)
  else (s, false)

def try_delete (s : FactStore) (tenant_hash fact_id : String) (written : Bool) : FactStore × Option Bool :=
  if s.is_consolidation_canonical_for_tenant fact_id tenant_hash ||
      s.is_active_consolidation_source_for_tenant fact_id tenant_hash then (s, some false)
  else if (s.lookup fact_id).any fun f => f.tenant_hash = tenant_hash then
    if written then ((s.append_journal (.Delete fact_id) true).change fun m => m.modify fact_id setDeleted, some true)
    else (s, none)
  else (s, some false)

def store_synced (policy : PrivacyPolicy) (s : FactStore) (fact : Fact) (written : Bool) : FactStore × Bool :=
  let fact := Memory.incoming policy fact
  if (s.lookup fact.fact_id).isSome then (s, false)
  else
    let s := s.change fun m => (m.insert_fact_indexes fact).sanitize_replayed_links
    match s.lookup fact.fact_id with
    | some fact => (s.append_journal (.Store fact) written, true)
    | none => (s, false)

end FactStore

end Crux.Facts
