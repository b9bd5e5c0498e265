import Crux.FactRuns

/-!
# Placing, releasing and overriding legal holds

A hold is placed and released by storing a state of it; the release is prepared
first and checked again against the hold as it then stands. A compaction may
erase held facts after a receipt that names them and their holds.
-/

namespace Crux.Facts

def LEGAL_HOLD_RECEIPT_SCHEMA_V1 : String := "crux.legal_hold.receipt.v1"

structure PlaceLegalHold where
  tenant_id : String
  entity_prefixes : List String
  reason : String
  actor : Option String
deriving DecidableEq

inductive LegalHoldReceiptKind where
  | Placed
  | Released
  | Overridden
deriving DecidableEq

structure LegalHoldReceiptV1 where
  schema : String
  receipt_id : String
  kind : LegalHoldReceiptKind
  hold_ids : List String
  tenant_id : String
  entity_prefixes : List String
  reason : String
  actor : String
  fact_ids : List String
  recorded_at : Timestamp
deriving DecidableEq

structure LegalHoldMutation where
  hold : LegalHold
  receipt : LegalHoldReceiptV1
deriving DecidableEq

inductive LegalHoldError where
  | MissingTenant
  | MissingReason
  | NotFound (hold_id : String)
  | AlreadyReleased (hold_id : String)
  | MissingDurableReceipt
  | StateChanged (hold_id : String)
  | Persistence
deriving DecidableEq

def trim (text : String) : String :=
  String.ofList (((text.toList.dropWhile is_whitespace).reverse.dropWhile is_whitespace).reverse)

def normalize_prefixes (prefixes : List String) : List String :=
  Memory.dedupIds (Memory.sortIds ((prefixes.map trim).filter fun start => !start.isEmpty))

/-- A process that also writes holds, in a form it reads back. -/
structure HoldEnv extends Env where
  format_legal_hold : LegalHold → String
  reads : ∀ hold, parse_legal_hold (format_legal_hold hold) = some hold

/-- What the system gives a new hold: its identifier, that of its receipt, the time and the stamp of its state. -/
structure HoldDraw where
  hold_id : String
  receipt_id : String
  now : Timestamp
  stamp : Stamp
deriving DecidableEq

/-- The request that stores a state of a hold. -/
def stateRequest (env : HoldEnv) (hold : LegalHold) (receipt_id : String) (actor : Option String) : StoreFact where
  tenant_hash := hold.tenant_id
  entity := LEGAL_HOLD_ENTITY_PREFIX ++ hold.hold_id
  key := "state"
  value := env.format_legal_hold hold
  source_receipt := some receipt_id
  confidence := .finite (2 ^ 149)
  is_private := true
  horizon_class := some .None
  actor

/-- The hold a placement makes. -/
def placedHold (request : PlaceLegalHold) (drawn : HoldDraw) : LegalHold where
  schema := LEGAL_HOLD_SCHEMA_V1
  hold_id := drawn.hold_id
  tenant_id := trim request.tenant_id
  entity_prefixes := normalize_prefixes request.entity_prefixes
  reason := trim request.reason
  placed_at := drawn.now
  placed_by := request.actor.getD "operator"
  place_receipt_id := drawn.receipt_id
  released_at := none
  released_by := none
  release_receipt_id := none

/-- The receipt of what happens to a hold. -/
def receiptOf (kind : LegalHoldReceiptKind) (receipt_id : String) (hold : LegalHold) (actor : String) (now : Timestamp) :
    LegalHoldReceiptV1 where
  schema := LEGAL_HOLD_RECEIPT_SCHEMA_V1
  receipt_id
  kind
  hold_ids := [hold.hold_id]
  tenant_id := hold.tenant_id
  entity_prefixes := hold.entity_prefixes
  reason := hold.reason
  actor
  fact_ids := []
  recorded_at := now

namespace FactStore

section
variable (env : HoldEnv) (s : FactStore)

/-- The state of a hold is stored, or nothing is. -/
def storeState (mutation : LegalHoldMutation) (receipt_id : String) (actor : Option String)
    (stamp : Stamp) (written superseded : Bool) : FactStore × Except LegalHoldError LegalHoldMutation :=
  match s.try_store env.policy (stateRequest env mutation.hold receipt_id actor) stamp written superseded with
  | (s, some _) => (s, .ok mutation)
  | (s, none) => (s, .error .Persistence)

def place_legal_hold (request : PlaceLegalHold) (drawn : HoldDraw) (written superseded : Bool) :
    FactStore × Except LegalHoldError LegalHoldMutation :=
  if (trim request.tenant_id).isEmpty then (s, .error .MissingTenant)
  else if (trim request.reason).isEmpty then (s, .error .MissingReason)
  else
    let hold := placedHold request drawn
    let receipt := receiptOf .Placed drawn.receipt_id hold hold.placed_by drawn.now
    s.storeState env ⟨hold, receipt⟩ drawn.receipt_id (some hold.placed_by) drawn.stamp written superseded

def legal_hold (hold_id : String) : Option LegalHold :=
  resolve_legal_hold_state env.parse_legal_hold hold_id
    (s.facts.filter fun fact => fact.entity = LEGAL_HOLD_ENTITY_PREFIX ++ hold_id && fact.key = "state")

def prepare_legal_hold_release (hold_id : String) (actor : Option String) (receipt_id : String)
    (now : Timestamp) : Except LegalHoldError LegalHoldMutation :=
  match s.legal_hold env hold_id with
  | none => .error (.NotFound hold_id)
  | some hold =>
    if !hold.active then .error (.AlreadyReleased hold_id)
    else
      let actor := actor.getD "operator"
      let hold := { hold with released_at := some now, released_by := some actor, release_receipt_id := some receipt_id }
      .ok ⟨hold, receiptOf .Released receipt_id hold actor now⟩

end

/-- The hold before its release was prepared. -/
def expectedCurrent (hold : LegalHold) : LegalHold :=
  { hold with released_at := none, released_by := none, release_receipt_id := none }

/-- The prepared release is one of the hold as it stands, and its receipt says what it does. -/
def releaseFits (current : LegalHold) (prepared : LegalHoldMutation) : Bool :=
  decide (current = expectedCurrent prepared.hold) && decide (prepared.receipt.hold_ids = [prepared.hold.hold_id]) &&
    decide (prepared.receipt.tenant_id = prepared.hold.tenant_id) &&
    decide (prepared.receipt.entity_prefixes = prepared.hold.entity_prefixes) &&
    decide (prepared.receipt.reason = prepared.hold.reason) &&
    decide (prepared.hold.released_by = some prepared.receipt.actor) &&
    decide (prepared.hold.released_at = some prepared.receipt.recorded_at) &&
    decide (prepared.hold.release_receipt_id = some prepared.receipt.receipt_id)

def release_legal_hold (env : HoldEnv) (s : FactStore) (prepared : LegalHoldMutation) (durable_signed_receipt_id : String)
    (stamp : Stamp) (written superseded : Bool) : FactStore × Except LegalHoldError LegalHoldMutation :=
  if isBlank durable_signed_receipt_id then (s, .error .MissingDurableReceipt)
  else if prepared.receipt.kind ≠ .Released then (s, .error (.StateChanged prepared.hold.hold_id))
  else
    match s.legal_hold env prepared.hold.hold_id with
    | none => (s, .error (.NotFound prepared.hold.hold_id))
    | some current =>
      if !current.active then (s, .error (.AlreadyReleased prepared.hold.hold_id))
      else if !releaseFits current prepared then (s, .error (.StateChanged prepared.hold.hold_id))
      else
        let committed := { prepared with
          hold := { prepared.hold with release_receipt_id := some durable_signed_receipt_id } }
        s.storeState env committed durable_signed_receipt_id committed.hold.released_by stamp written superseded

section
variable (parse : String → Option LegalHold) (s : FactStore) (receipt : LegalHoldReceiptV1)

/-- The receipt is one of an override and names every deleted fact that is held, with all its holds. -/
def fullyCovered : Bool :=
  decide (receipt.kind = .Overridden) &&
    (s.deleted_facts_covered_by_legal_holds parse).all fun (fact_id, hold_ids) =>
      receipt.fact_ids.contains fact_id && hold_ids.all receipt.hold_ids.contains

def compact_journal_after_legal_hold_override_receipt (replaced : Bool) : FactStore × Bool :=
  if s.fullyCovered parse receipt then s.compact_journal_unchecked replaced else (s, false)

end

end FactStore

inductive HoldOp where
  | call (op : Op)
  | place (request : PlaceLegalHold) (drawn : HoldDraw) (written superseded : Bool)
  | release (prepared : LegalHoldMutation) (durable_signed_receipt_id : String) (stamp : Stamp) (written superseded : Bool)
  | compact_overridden (receipt : LegalHoldReceiptV1) (replaced : Bool)

namespace FactStore

def holdStep (env : HoldEnv) (s : FactStore) : HoldOp → FactStore
  | .call op => s.step env.toEnv op
  | .place request drawn written superseded => (s.place_legal_hold env request drawn written superseded).1
  | .release prepared durable_signed_receipt_id stamp written superseded =>
    (s.release_legal_hold env prepared durable_signed_receipt_id stamp written superseded).1
  | .compact_overridden receipt replaced =>
    (s.compact_journal_after_legal_hold_override_receipt env.parse_legal_hold receipt replaced).1

def holdRun (env : HoldEnv) (s : FactStore) (ops : List HoldOp) : FactStore := ops.foldl (holdStep env) s

/-- Every operation of a run meets a condition on the state it finds. -/
def HoldsMeet (env : HoldEnv) (condition : FactStore → HoldOp → Prop) : FactStore → List HoldOp → Prop
  | _, [] => True
  | s, op :: rest => condition s op ∧ HoldsMeet env condition (s.holdStep env op) rest

instance decidableHoldsMeet (env : HoldEnv) (condition : FactStore → HoldOp → Prop) [∀ s op, Decidable (condition s op)] :
    (s : FactStore) → (ops : List HoldOp) → Decidable (HoldsMeet env condition s ops)
  | _, [] => .isTrue trivial
  | s, op :: rest =>
    haveI := decidableHoldsMeet env condition (s.holdStep env op) rest
    inferInstanceAs (Decidable (condition s op ∧ _))

/-- A release of the hold that succeeds. -/
def releases (env : HoldEnv) (s : FactStore) (hold_id : String) : HoldOp → Bool
  | .release prepared durable_signed_receipt_id stamp written superseded =>
    decide (prepared.hold.hold_id = hold_id) &&
      (s.release_legal_hold env prepared durable_signed_receipt_id stamp written superseded).2.isOk
  | _ => false

/-- A compaction with an override receipt that names a fact and every hold that covers it. -/
def overrides (env : HoldEnv) (s : FactStore) (fact : Fact) : HoldOp → Bool
  | .compact_overridden receipt _ =>
    decide (receipt.kind = .Overridden) && receipt.fact_ids.contains fact.fact_id &&
      ((s.active_legal_holds env.parse_legal_hold).filter fun hold => hold.covers_fact fact).all fun hold =>
        receipt.hold_ids.contains hold.hold_id
  | _ => false

end FactStore

end Crux.Facts
