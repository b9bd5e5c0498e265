import Mathlib.Data.List.Sort
import Mathlib.Algebra.BigOperators.Group.List.Basic
import Crux.KeyMap

/-!
# The credit meter

The wallets and reservations of `corecrux-billing`: every change is an event that
is appended to the journal and then applied, and opening the meter applies the
journal again and voids the reservations that are too old.
-/

namespace Crux.Billing

def U64_MAX : Nat := 18446744073709551615
def SCHEMA_V1 : String := "crux.credit_meter.event.v1"
def STALE_RESERVATION_GC_REASON : String := "stale_reservation_gc"

def saturating_add (a b : Nat) : Nat := min (a + b) U64_MAX

inductive CreditMeterError where
  | InsufficientCredit (tenant_id : String) (cost available : Nat)
  | ReservationNotFound (reservation_id : String)
  | TenantMismatch (reservation_id tenant_id actual : String)
  | OperationConflict (tenant_id operation_id : String) (existing_cost requested_cost : Nat)
  | OperationPayloadMismatch (tenant_id operation_id existing_payload_hash requested_payload_hash : String)
  | OperationAlreadySpent (tenant_id operation_id spend_receipt : String)
  | ReservationVoided (reservation_id reason : String)
deriving DecidableEq

structure CreditReservation where
  tenant_id : String
  operation_id : String
  reservation_id : String
  cost : Nat
  balance_after : Nat
deriving DecidableEq

structure CreditSpend where
  tenant_id : String
  operation_id : String
  reservation_id : String
  cost : Nat
  spend_receipt : String
  balance_after : Nat
deriving DecidableEq

structure WalletState where
  balance : Nat := 0
  reserved : Nat := 0
deriving DecidableEq

structure ReservationState where
  tenant_id : String
  operation_id : String
  reservation_id : String
  cost : Nat
  balance_after : Nat
  payload_hash : Option String
  created_at_unix : Option Nat
  spent_receipt : Option String
  voided_reason : Option String
deriving DecidableEq

inductive CreditMeterEvent where
  | SeedCompedWallet (schema event_id tenant_id : String) (amount : Nat)
  | Reserve (schema tenant_id operation_id reservation_id : String) (cost balance_after : Nat)
      (payload_hash : Option String) (created_at_unix : Option Nat)
  | Spend (schema tenant_id operation_id reservation_id spend_receipt : String)
  | Void (schema tenant_id operation_id reservation_id reason : String)
deriving DecidableEq

/-- What the meter keeps in memory. -/
structure CreditMeterStore where
  wallets : KeyMap String WalletState := KeyMap.empty
  seed_events : Entries (String × String) Nat := []
  reservations_by_operation : KeyMap (String × String) String := KeyMap.empty
  reservations : List ReservationState := []

namespace CreditMeterStore

section
variable (s : CreditMeterStore)

/-- The reservation kept under an id. -/
def reservation (id : String) : Option ReservationState :=
  s.reservations.find? fun r => r.reservation_id = id

def wallet (tenant_id : String) : WalletState := (s.wallets tenant_id).getD {}

def available_balance (tenant_id : String) : Nat :=
  (s.wallet tenant_id).balance - (s.wallet tenant_id).reserved

/-- The wallet of a tenant, an empty one at first, changed. -/
def onWallet (tenant_id : String) (change : WalletState → WalletState) : CreditMeterStore :=
  { s with wallets := s.wallets.insert tenant_id (change (s.wallet tenant_id)) }

/-- The reservation of an id, changed. -/
def onReservation (id : String) (change : ReservationState → ReservationState) : CreditMeterStore :=
  { s with reservations := s.reservations.map fun r => if r.reservation_id = id then change r else r }

def apply : CreditMeterEvent → CreditMeterStore
  | .SeedCompedWallet _ event_id tenant_id amount =>
    let seeded := { s with seed_events := s.seed_events.put (tenant_id, event_id) amount }
    if (s.seed_events.get (tenant_id, event_id)).isNone then
      seeded.onWallet tenant_id fun w => { w with balance := saturating_add w.balance amount }
    else seeded
  | .Reserve _ tenant_id operation_id reservation_id cost balance_after payload_hash created_at_unix =>
    if (s.reservation reservation_id).isSome then s
    else
      { s.onWallet tenant_id fun w => { w with reserved := saturating_add w.reserved cost } with
        reservations_by_operation := s.reservations_by_operation.insert (tenant_id, operation_id) reservation_id
        reservations := s.reservations ++
          [{ tenant_id, operation_id, reservation_id, cost, balance_after, payload_hash, created_at_unix
             spent_receipt := none, voided_reason := none }] }
  | .Spend _ _ _ reservation_id spend_receipt =>
    match s.reservation reservation_id with
    | some r =>
      if r.spent_receipt.isNone then
        s.onReservation reservation_id fun r => { r with spent_receipt := some spend_receipt }
      else s
    | none => s
  | .Void _ _ _ reservation_id reason =>
    match s.reservation reservation_id with
    | some r =>
      if r.spent_receipt.isNone ∧ r.voided_reason.isNone then
        let voided := s.onReservation reservation_id fun r => { r with voided_reason := some reason }
        if (s.wallets r.tenant_id).isSome then
          voided.onWallet r.tenant_id fun w => { w with reserved := w.reserved - r.cost }
        else voided
      else s
    | none => s

end

def replay (journal : List CreditMeterEvent) : CreditMeterStore := journal.foldl apply {}

end CreditMeterStore

/-- The meter with the journal it appends to. -/
structure CreditMeter where
  store : CreditMeterStore := {}
  journal : List CreditMeterEvent := []

namespace CreditMeter
open CreditMeterStore

def append_and_apply (m : CreditMeter) (event : CreditMeterEvent) : CreditMeter :=
  { store := m.store.apply event, journal := m.journal ++ [event] }

def reservation_view (r : ReservationState) : CreditReservation :=
  { tenant_id := r.tenant_id, operation_id := r.operation_id, reservation_id := r.reservation_id, cost := r.cost
    balance_after := r.balance_after }

def spend_view (r : ReservationState) (spend_receipt : String) : CreditSpend :=
  { tenant_id := r.tenant_id, operation_id := r.operation_id, reservation_id := r.reservation_id, cost := r.cost
    spend_receipt, balance_after := r.balance_after }

def seed_comped_wallet (m : CreditMeter) (tenant_id : String) (amount : Nat) (event_id : String) : CreditMeter × Nat :=
  if (m.store.seed_events.get (tenant_id, event_id)).isSome then (m, m.store.available_balance tenant_id)
  else
    let m := m.append_and_apply (.SeedCompedWallet SCHEMA_V1 event_id tenant_id amount)
    (m, m.store.available_balance tenant_id)

section Reserve
-- the BLAKE3 hash of a text, in hex
variable (hashHex : String → String)

def reservation_id_for (tenant_id operation_id : String) (cost : Nat) (payload_hash : String) (attempt : Nat) : String :=
  "crxres_" ++ hashHex s!"{tenant_id}\n{operation_id}\n{cost}\n{payload_hash}\n{attempt}"

/-- The search for an id that is not taken; `none` when it has tried more ids than there are reservations. -/
def freshFrom (s : CreditMeterStore) (tenant_id operation_id : String) (cost : Nat) (payload_hash : String) :
    Nat → Nat → Option String
  | 0, _ => none
  | fuel + 1, attempt =>
    let reservation_id := reservation_id_for hashHex tenant_id operation_id cost payload_hash attempt
    if (s.reservation reservation_id).isNone then some reservation_id
    else freshFrom s tenant_id operation_id cost payload_hash fuel (attempt + 1)

def fresh_reservation_id (s : CreditMeterStore) (tenant_id operation_id : String) (cost : Nat) (payload_hash : String) :
    Option String :=
  freshFrom hashHex s tenant_id operation_id cost payload_hash (s.reservations.length + 1)
    (s.reservations.filter fun r => r.tenant_id = tenant_id ∧ r.operation_id = operation_id).length

/-- The reservation an operation already has, unless it was voided. -/
def openReservation (s : CreditMeterStore) (tenant_id operation_id : String) : Option ReservationState :=
  ((s.reservations_by_operation (tenant_id, operation_id)).bind s.reservation).filter fun r => r.voided_reason.isNone

/-- What a reservation that exists answers to a second request for its operation. -/
def answerExisting (existing : ReservationState) (tenant_id operation_id : String) (cost : Nat) (payload_hash : String) :
    Except CreditMeterError CreditReservation :=
  match existing.spent_receipt with
  | some spend_receipt => .error (.OperationAlreadySpent tenant_id operation_id spend_receipt)
  | none =>
    if existing.cost ≠ cost then .error (.OperationConflict tenant_id operation_id existing.cost cost)
    else if existing.payload_hash ≠ some payload_hash then
      .error (.OperationPayloadMismatch tenant_id operation_id (existing.payload_hash.getD "unbound:legacy") payload_hash)
    else .ok (reservation_view existing)

/-- The answer is `none` when the search for an id does not end. -/
def reserve (m : CreditMeter) (tenant_id operation_id : String) (cost : Nat) (payload_hash : String) (now : Nat) :
    CreditMeter × Option (Except CreditMeterError CreditReservation) :=
  match openReservation m.store tenant_id operation_id with
  | some existing => (m, some (answerExisting existing tenant_id operation_id cost payload_hash))
  | none =>
    let available := m.store.available_balance tenant_id
    if available < cost then (m, some (.error (.InsufficientCredit tenant_id cost available)))
    else
      match fresh_reservation_id hashHex m.store tenant_id operation_id cost payload_hash with
      | none => (m, none)
      | some reservation_id =>
        let m := m.append_and_apply (.Reserve SCHEMA_V1 tenant_id operation_id reservation_id cost (available - cost)
          (some payload_hash) (some now))
        (m, some (match m.store.reservation reservation_id with
          | some r => .ok (reservation_view r)
          | none => .error (.ReservationNotFound reservation_id)))

end Reserve

def spend (m : CreditMeter) (tenant_id reservation_id spend_receipt : String) :
    CreditMeter × Except CreditMeterError CreditSpend :=
  match m.store.reservation reservation_id with
  | none => (m, .error (.ReservationNotFound reservation_id))
  | some existing =>
    if existing.tenant_id ≠ tenant_id then
      (m, .error (.TenantMismatch reservation_id tenant_id existing.tenant_id))
    else
      match existing.voided_reason, existing.spent_receipt with
      | some reason, _ => (m, .error (.ReservationVoided reservation_id reason))
      | none, some receipt => (m, .ok (spend_view existing receipt))
      | none, none =>
        let m := m.append_and_apply (.Spend SCHEMA_V1 existing.tenant_id existing.operation_id reservation_id spend_receipt)
        (m, match m.store.reservation reservation_id with
          | some r =>
            match r.spent_receipt with
            | some receipt => .ok (spend_view r receipt)
            | none => .error (.ReservationNotFound reservation_id)
          | none => .error (.ReservationNotFound reservation_id))

def void_reservation (m : CreditMeter) (tenant_id reservation_id reason : String) :
    CreditMeter × Except CreditMeterError CreditReservation :=
  match m.store.reservation reservation_id with
  | none => (m, .error (.ReservationNotFound reservation_id))
  | some existing =>
    if existing.tenant_id ≠ tenant_id then
      (m, .error (.TenantMismatch reservation_id tenant_id existing.tenant_id))
    else
      match existing.spent_receipt, existing.voided_reason with
      | some _, _ => (m, .ok (reservation_view existing))
      | none, some reason => (m, .error (.ReservationVoided reservation_id reason))
      | none, none =>
        let m := m.append_and_apply (.Void SCHEMA_V1 existing.tenant_id existing.operation_id reservation_id reason)
        (m, match m.store.reservation reservation_id with
          | some r => .ok (reservation_view r)
          | none => .error (.ReservationNotFound reservation_id))

/-- Neither spent nor voided, and older than the time to live or of unknown age. -/
def isStale (reservation_ttl_secs now : Nat) (r : ReservationState) : Bool :=
  r.spent_receipt.isNone && r.voided_reason.isNone &&
    r.created_at_unix.all fun created_at => decide (reservation_ttl_secs < now - created_at)

/-- The stale reservations in the order of their ids. -/
def staleOf (s : CreditMeterStore) (reservation_ttl_secs now : Nat) : List ReservationState :=
  (s.reservations.filter (isStale reservation_ttl_secs now)).insertionSort fun a b => a.reservation_id ≤ b.reservation_id

def voidStale (m : CreditMeter) (r : ReservationState) : CreditMeter :=
  m.append_and_apply (.Void SCHEMA_V1 r.tenant_id r.operation_id r.reservation_id STALE_RESERVATION_GC_REASON)

def gc_stale_reservations (m : CreditMeter) (reservation_ttl_secs now : Nat) : CreditMeter :=
  (staleOf m.store reservation_ttl_secs now).foldl voidStale m

def open_with_reservation_ttl (journal : List CreditMeterEvent) (reservation_ttl_secs now : Nat) : CreditMeter :=
  gc_stale_reservations { store := replay journal, journal } reservation_ttl_secs now

/-- A call on the meter, or a clean close and open; the clock is read where the source reads it. -/
inductive Op where
  | seed (tenant_id : String) (amount : Nat) (event_id : String)
  | reserve (tenant_id operation_id : String) (cost : Nat) (payload_hash : String) (now : Nat)
  | spend (tenant_id reservation_id spend_receipt : String)
  | void (tenant_id reservation_id reason : String)
  | reopen (reservation_ttl_secs now : Nat)
deriving DecidableEq

def step (hashHex : String → String) (m : CreditMeter) : Op → CreditMeter
  | .seed tenant_id amount event_id => (m.seed_comped_wallet tenant_id amount event_id).1
  | .reserve tenant_id operation_id cost payload_hash now =>
    (m.reserve hashHex tenant_id operation_id cost payload_hash now).1
  | .spend tenant_id reservation_id spend_receipt => (m.spend tenant_id reservation_id spend_receipt).1
  | .void tenant_id reservation_id reason => (m.void_reservation tenant_id reservation_id reason).1
  | .reopen reservation_ttl_secs now => open_with_reservation_ttl m.journal reservation_ttl_secs now

def run (hashHex : String → String) (m : CreditMeter) (ops : List Op) : CreditMeter := ops.foldl (step hashHex) m

end CreditMeter

end Crux.Billing
