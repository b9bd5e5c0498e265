import Crux.FactConsolidate

/-!
# Legal holds

A hold is the value of a fact under the legal-hold namespace. Every stored
version of it counts, deleted ones too; how a value is read as a hold is left to
a parameter.
-/

namespace Crux.Facts

def LEGAL_HOLD_ENTITY_PREFIX : String := "__legal_hold__::"

def LEGAL_HOLD_SCHEMA_V1 : String := "crux.legal_hold.v1"

structure LegalHold where
  schema : String
  hold_id : String
  tenant_id : String
  entity_prefixes : List String
  reason : String
  placed_at : Timestamp
  placed_by : String
  place_receipt_id : String
  released_at : Option Timestamp
  released_by : Option String
  release_receipt_id : Option String
deriving DecidableEq

def LegalHold.active (hold : LegalHold) : Bool := hold.released_at.isNone

def LegalHold.covers (hold : LegalHold) (tenant_id entity : String) : Bool :=
  hold.active && decide (hold.tenant_id = tenant_id) &&
    (hold.entity_prefixes.isEmpty || hold.entity_prefixes.any (starts_with entity))

def LegalHold.covers_fact (hold : LegalHold) (fact : Fact) : Bool := hold.covers fact.tenant_hash fact.entity

/-- The identifier of the hold a fact is a state of. -/
def holdIdOf (fact : Fact) : Option String :=
  if starts_with fact.entity LEGAL_HOLD_ENTITY_PREFIX then
    some (String.ofList (fact.entity.toList.drop LEGAL_HOLD_ENTITY_PREFIX.toList.length))
  else none

/-- Newest state first: by version, time and identifier. -/
def stateBefore (a b : Fact) : Prop :=
  b.version < a.version ∨ (a.version = b.version ∧
    (b.stored_at < a.stored_at ∨ (a.stored_at = b.stored_at ∧ b.fact_id ≤ a.fact_id)))

instance : DecidableRel stateBefore := fun a b => by unfold stateBefore; infer_instance

/-- The hold enforced while no state of it can be read: it covers the whole tenant. -/
def failClosedHold (hold_id : String) (newest : Fact) : LegalHold where
  schema := LEGAL_HOLD_SCHEMA_V1
  hold_id
  tenant_id := newest.tenant_hash
  entity_prefixes := []
  reason := "stored legal-hold state is unparsable; enforcing tenant-wide fail-closed marker"
  placed_at := newest.stored_at
  placed_by := newest.actor.getD "unresolved"
  place_receipt_id := newest.source_receipt.getD newest.fact_id
  released_at := none
  released_by := none
  release_receipt_id := none

/-- The newest state that can be read, or a hold over the whole tenant when none can. -/
def resolve_legal_hold_state (parse : String → Option LegalHold) (hold_id : String) (states : List Fact) :
    Option LegalHold :=
  let states := states.insertionSort stateBefore
  states.head?.map fun newest =>
    match states.findSome? fun f => parse f.value with
    | some hold => hold
    | none => failClosedHold hold_id newest

namespace Memory

section
variable (parse : String → Option LegalHold) (s : Memory)

/-- The holds in the order of their identifiers, each resolved from all its states. -/
def legal_holds : List LegalHold :=
  let states := s.facts.filter fun f => f.key = "state"
  let ids := dedupIds (sortIds (states.filterMap holdIdOf))
  let holds := ids.filterMap fun id => resolve_legal_hold_state parse id (states.filter fun f => holdIdOf f = some id)
  holds.insertionSort fun a b => a.placed_at < b.placed_at ∨ (a.placed_at = b.placed_at ∧ a.hold_id ≤ b.hold_id)

def active_legal_holds : List LegalHold :=
  (s.legal_holds parse).filter LegalHold.active

/-- The deleted facts that holds cover, each with the holds that do. -/
def deleted_facts_covered_by_legal_holds : List (String × List String) :=
  let holds := s.active_legal_holds parse
  let covered := (s.facts.filter fun f => f.deleted).filterMap fun f =>
    let hold_ids := (holds.filter fun hold => hold.covers_fact f || holdIdOf f = some hold.hold_id).map LegalHold.hold_id
    if hold_ids.isEmpty then none else some (f.fact_id, hold_ids)
  covered.insertionSort fun a b => a.1 ≤ b.1

end

end Memory
end Crux.Facts
