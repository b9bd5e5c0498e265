import Mathlib.Tactic
import Mathlib.Data.String.Basic
import Crux.KeyMap

/-!
# Facts: their fields, requests and journal events

The types of the fact store of `corecrux-memory` and the policy that decides
which entities are born private.
-/

namespace Crux.Facts

/-- A point in time, in nanoseconds. -/
abbrev Timestamp := Int

/-- A 32-bit float: a finite value as a multiple of the smallest one, an infinity or no number. -/
inductive F32 where
  | finite (units : Int)
  | infinity
  | neg_infinity
  | nan
deriving DecidableEq

def F32.is_finite : F32 → Bool
  | .finite _ => true
  | _ => false

/-- The comparison `a >= b`, false when either is no number. -/
def F32.ge : F32 → F32 → Bool
  | .nan, _ => false
  | _, .nan => false
  | .infinity, _ => true
  | _, .neg_infinity => true
  | .finite a, .finite b => decide (b ≤ a)
  | _, _ => false

/-- The characters that Rust trims: those with the Unicode property `White_Space`. -/
def is_whitespace (c : Char) : Bool :=
  let n := c.toNat
  (9 ≤ n && n ≤ 13) || n = 0x20 || n = 0x85 || n = 0xA0 || n = 0x1680 || (0x2000 ≤ n && n ≤ 0x200A) || n = 0x2028 ||
    n = 0x2029 || n = 0x202F || n = 0x205F || n = 0x3000

/-- `trim().is_empty()`. -/
def isBlank (text : String) : Bool := text.toList.all is_whitespace

def starts_with (text start : String) : Bool := start.toList.isPrefixOf text.toList

def DAEMON_OWNED_ENTITY_PREFIXES : List String :=
  ["__escrow__::", "__action_enrichment_receipt__::", "__ops::", "__ops__::", "__answer_replay_capsule__::",
   "__bootstrap__::", "__candidate_fact__::", "__consolidation_review__::", "__constraints__::", "__coord__::",
   "__dossier__::", "__engram__::", "__extension__::", "__extension_grant__::", "__gpu1_receipt__::",
   "__incident__::", "__legal_hold__::", "__legal_hold_receipt__::", "__memory_pin::", "__mint_request__::",
   "__orchestrator_receipt__::", "__passport__::", "__plane__::", "__plane_layer__::", "__project__::",
   "__project_layer__::", "__project_repo_link__::", "__rcx_publish__::", "__repo_codegraph_ids__::",
   "__repo_extdeps__::", "__repo_registry__::", "__repo_scan__::", "__result_envelope__::",
   "__result_envelope_incident__::", "__reverify_receipts__::", "__session_binding__::", "__storybook__::",
   "__sync__::", "__sync_tombstone__::", "__sync_wipe_receipt__::", "__tenant_metadata__::", "__work__::",
   "__work_comment__::", "__work_gate__::", "__work_transition__::", "__workbench__::", "__workspace_scan__::",
   "console:page:", "console:tileboard:", "console:tiledesign:", "console:workspace:"]

def GENERIC_CREATE_RESERVED_PREFIXES : List String := ["__agent::"]

def daemon_owned_entity_prefix (entity : String) : Option String :=
  DAEMON_OWNED_ENTITY_PREFIXES.find? (starts_with entity)

/-- The entity prefixes born private and those an operator shares all the same. -/
structure PrivacyPolicy where
  private_prefixes : List String
  share_overrides : List String
deriving DecidableEq

def PrivacyPolicy.is_always_private (policy : PrivacyPolicy) (entity : String) : Bool :=
  if ( daemon_owned_entity_prefix entity).isSome || GENERIC_CREATE_RESERVED_PREFIXES.any (starts_with entity) then true
  else if !policy.private_prefixes.any (starts_with entity) then false
  else !policy.share_overrides.any (starts_with entity)

inductive HorizonClass where
  | Volatile | Medium | Stable | None
deriving DecidableEq

def HorizonClass.default_for_entity (entity : String) : HorizonClass :=
  if starts_with entity "__ops::" then .Volatile
  else if starts_with entity "bench:" || starts_with entity "__bootstrap__::" then .Stable
  else if starts_with entity "execplan:" || starts_with entity "incident:" || starts_with entity "__candidate_fact__::" then
    .Medium
  else .None

structure Fact where
  fact_id : String
  tenant_hash : String
  entity : String
  key : String
  value : String
  source_receipt : Option String
  confidence : F32
  stored_at : Timestamp
  tokens : Nat
  deleted : Bool
  version : UInt32
  supersedes : Option String
  is_private : Bool
  horizon_class : HorizonClass
  reverified_at : Option Timestamp
  superseded_by : Option String
  actor : Option String
  valid_from : Option Timestamp
  valid_to : Option Timestamp
  access_count : UInt32
  last_accessed_at : Option Timestamp
deriving DecidableEq

/-- What a version chain is named by: tenant, entity and key. -/
abbrev ChainKey := String × String × String

def Fact.chainKey (f : Fact) : ChainKey := (f.tenant_hash, f.entity, f.key)

/-- Neither deleted nor superseded. -/
def Fact.current (f : Fact) : Bool := !f.deleted && f.superseded_by.isNone

def default_tenant_hash : String := "default"

/-- A blank tenant is the default one. -/
def stampTenant (tenant : String) : String := if isBlank tenant then default_tenant_hash else tenant

structure StoreFact where
  tenant_hash : String
  entity : String
  key : String
  value : String
  source_receipt : Option String
  confidence : F32
  is_private : Bool
  horizon_class : Option HorizonClass
  actor : Option String
deriving DecidableEq

def enforce_global (policy : PrivacyPolicy) (req : StoreFact) : StoreFact :=
  if policy.is_always_private req.entity then { req with is_private := true } else req

def enforce_global_fact (policy : PrivacyPolicy) (fact : Fact) : Fact :=
  if policy.is_always_private fact.entity then { fact with is_private := true } else fact

/-- What the system gives a new fact: the identifier drawn for it and the reading of the clock. -/
structure Stamp where
  fact_id : String
  stored_at : Timestamp
deriving DecidableEq

/-- The text's length in bytes over four, rounded up. -/
def estimate_tokens (text : String) : Nat := (text.utf8ByteSize + 3) / 4

structure ConsolidationRequestV1 where
  consolidation_id : String
  entity : String
  key : String
  canonical_value : String
  target_fact_ids : List String
  protected_fact_ids : List String
  confidence : F32
  source_receipt : Option String
  actor : Option String
  horizon_class : Option HorizonClass
  protected_confidence_floor : F32
deriving DecidableEq

inductive ConsolidationErrorV1 where
  | NoTargets
  | MissingConsolidationId
  | TargetNotFound (fact_id : String)
  | TargetDeleted (fact_id : String)
  | TargetAlreadySuperseded (fact_id : String)
  | DuplicateTarget (fact_id : String)
  | TargetPinned (fact_id : String)
  | TargetPrivate (fact_id : String)
  | TargetReceiptLinked (fact_id : String)
  | TargetDaemonOwned (fact_id start : String)
  | TargetHighConfidence (fact_id : String) (confidence : F32)
  | TargetOutsideEntityKey (fact_id : String)
  | ImplicitPriorNotTarget (fact_id : String)
  | NoUndoSources
  | NotConsolidationCanonical (fact_id : String)
  | CanonicalSuperseded (fact_id : String)
  | UndoSourceMismatch (fact_id : String)
  | Journal
deriving DecidableEq

inductive JournalEvent where
  | Store (fact : Fact)
  | StoreBatch (facts : List Fact)
  | Delete (fact_id : String)
  | Supersede (fact_id by_fact_id : String)
  | ClearSupersede (fact_id : String)
  | SetValidity (fact_id : String) (valid_from valid_to : Option Timestamp)
  | Consolidate (canonical : Fact) (superseded_fact_ids : List String)
  | ConsolidationProvenance (canonical_fact_id : String) (source_fact_ids : List String) (tenant_hash : String)
  | ConsolidateUndo (canonical_fact_id : String) (restored_fact_ids : List String)
deriving DecidableEq

/-- Whether the line written for an event is read back: a confidence that is not finite is written as `null`, which no fact is
read from. -/
def JournalEvent.readable : JournalEvent → Bool
  | .Store fact => fact.confidence.is_finite
  | .StoreBatch facts => facts.all fun fact => fact.confidence.is_finite
  | .Consolidate canonical _ => canonical.confidence.is_finite
  | _ => true

end Crux.Facts
