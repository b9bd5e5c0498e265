import Crux.OutboundFacts

/-!
# Packs and their import

The check of a pack, the plan of its import, and what a store holds after the facts
of a pack were stored in one batch.
-/

namespace Crux.Facts.Sync
open Memory Crux.Bytes List

def CRUXPACK_SCHEMA_V1 : String := "crux.cruxpack.v1"

structure PackManifest where
  tenant_id : String
  included_private : Bool
  fact_count : Nat
  session_count : Nat
deriving DecidableEq

structure CruxPack where
  schema_version : String
  manifest : PackManifest
  sections : PackSections
  blake3_content_hash : String
deriving DecidableEq

inductive PackVerifyError where
  | UnsupportedSchema (schema_version : String)
  | CountsMismatch
  | DeletedFactsPresent
  | PrivateInconsistent
  | FactTenantMismatch (fact_id fact_tenant manifest_tenant : String)
  | UnscopedSessions (tenant : String)
  | NotAuthentic
  | TenantMismatch (pack_tenant import_tenant : String)
  | InvalidAgentPrivateEntity (entity : String)
  | ReservedEntity (entity start : String)
  | AgentPrivateOwnerMappingRequired (owner : String)
  | InvalidAgentPrivateOwnerMapping (owner mapped : String)
deriving DecidableEq

def CruxPack.source_receipt (pack : CruxPack) : String := "cruxpack:" ++ pack.blake3_content_hash

structure ImportOptions where
  tenant_id : String
  principal_map : String → Option String

structure ImportPlan where
  to_store : List StoreFact := []
  collisions : Nat := 0
  skipped_duplicates : Nat := 0
  private_facts : Nat := 0
  sessions_to_add : List SessionState := []
  sessions_skipped : Nat := 0
deriving DecidableEq

/-- The content hash, the fingerprint and the signature are checked by `authentic`. -/
def verify_pack (authentic : CruxPack → Bool) (pack : CruxPack) : Except PackVerifyError Unit := do
  ensure (pack.schema_version = CRUXPACK_SCHEMA_V1) (PackVerifyError.UnsupportedSchema pack.schema_version)
  ensure (pack.manifest.fact_count = pack.sections.facts.length ∧ pack.manifest.session_count = pack.sections.sessions.length)
    PackVerifyError.CountsMismatch
  ensure (pack.sections.facts.any Fact.deleted = false) PackVerifyError.DeletedFactsPresent
  ensure (pack.manifest.included_private = true ∨
    (pack.sections.facts.any fun fact => fact.is_private || ( reserved_prefix fact.entity).isSome) = false)
    PackVerifyError.PrivateInconsistent
  match pack.sections.facts.find? fun fact =>
      canonical_tenant_id fact.tenant_hash ≠ canonical_tenant_id pack.manifest.tenant_id with
  | some fact => .error (.FactTenantMismatch fact.fact_id fact.tenant_hash pack.manifest.tenant_id)
  | none => do
    ensure (canonical_tenant_id pack.manifest.tenant_id = "default" ∨ pack.sections.sessions = [])
      (PackVerifyError.UnscopedSessions pack.manifest.tenant_id)
    ensure (authentic pack = true) PackVerifyError.NotAuthentic

def generic_create_reserved_entity_prefix (entity : String) : Option String :=
  ( daemon_owned_entity_prefix entity).or (GENERIC_CREATE_RESERVED_PREFIXES.find? (starts_with entity))

/-- The parts before and after the first `::`. -/
def splitOnce : List Char → Option (List Char × List Char)
  | [] => none
  | c :: rest =>
    if c = ':' ∧ rest.head? = some ':' then some ([], rest.tail)
    else (splitOnce rest).map fun parts => (c :: parts.1, parts.2)

/-- The entity a fact of a pack is stored under. -/
def importEntity (opts : ImportOptions) (fact : Fact) : Except PackVerifyError String :=
  if starts_with fact.entity "__agent::" then
    if !fact.is_private then .error (.InvalidAgentPrivateEntity fact.entity)
    else
      match (splitOnce (fact.entity.toList.drop 9)).filter fun parts => !parts.1.isEmpty && !parts.2.isEmpty with
      | none => .error (.InvalidAgentPrivateEntity fact.entity)
      | some (owner, logical) =>
        match generic_create_reserved_entity_prefix (String.ofList logical) with
        | some start => .error (.ReservedEntity (String.ofList logical) start)
        | none =>
          match opts.principal_map (String.ofList owner) with
          | none => .error (.AgentPrivateOwnerMappingRequired (String.ofList owner))
          | some mapped =>
            if isBlank mapped || contains mapped "::" then
              .error (.InvalidAgentPrivateOwnerMapping (String.ofList owner) mapped)
            else .ok ("__agent::" ++ mapped ++ "::" ++ String.ofList logical)
  else
    match generic_create_reserved_entity_prefix fact.entity with
    | some start => .error (.ReservedEntity fact.entity start)
    | none => .ok fact.entity

/-- What the store already has from this pack. -/
def alreadyImported (m : Memory) (import_tenant pack_ref : String) : List (String × String × String) :=
  (m.facts.filter fun fact =>
    decide (fact.tenant_hash = import_tenant) && !fact.deleted && decide (fact.source_receipt = some pack_ref)).map
      fun fact => (fact.entity, fact.key, fact.value)

def planOne (m : Memory) (opts : ImportOptions) (pack_ref : String) (plan : ImportPlan) (fact : Fact) :
    Except PackVerifyError ImportPlan :=
  if fact.deleted then .ok plan
  else do
    let import_tenant := canonical_tenant_id opts.tenant_id
    let entity ← importEntity opts fact
    if (alreadyImported m import_tenant pack_ref).contains (entity, fact.key, fact.value) then
      return { plan with skipped_duplicates := plan.skipped_duplicates + 1 }
    else
      let collides := (m.chain (import_tenant, entity, fact.key)).any fun f => !f.deleted
      return { plan with
        collisions := if collides then plan.collisions + 1 else plan.collisions
        private_facts := if fact.is_private then plan.private_facts + 1 else plan.private_facts
        to_store := plan.to_store ++ [{
          tenant_hash := import_tenant, entity, key := fact.key, value := fact.value, source_receipt := some pack_ref
          confidence := fact.confidence, is_private := fact.is_private, horizon_class := some fact.horizon_class
          actor := fact.actor.map fun a => (opts.principal_map a).getD a }] }

def planSessions (sessions : Option (List SessionState)) (pack : CruxPack) (plan : ImportPlan) : ImportPlan :=
  match sessions with
  | none => plan
  | some known =>
    let absent := pack.sections.sessions.filter fun state => !known.any fun s => s.session_id = state.session_id
    { plan with sessions_to_add := absent, sessions_skipped := pack.sections.sessions.length - absent.length }

def plan_import (authentic : CruxPack → Bool) (pack : CruxPack) (m : Memory) (sessions : Option (List SessionState))
    (opts : ImportOptions) : Except PackVerifyError ImportPlan := do
  verify_pack authentic pack
  ensure (canonical_tenant_id pack.manifest.tenant_id = canonical_tenant_id opts.tenant_id)
    (PackVerifyError.TenantMismatch pack.manifest.tenant_id opts.tenant_id)
  let plan ← pack.sections.facts.foldlM (planOne m opts pack.source_receipt) {}
  return planSessions sessions pack plan

/-- The planned facts are stored in one batch, with the identifiers and times drawn for them. -/
def importPlanned (policy : PrivacyPolicy) (s : FactStore) (plan : ImportPlan) (stamps : Nat → Stamp) (superseded : Nat → Bool) :
    FactStore :=
  (s.try_store_bulk policy (plan.to_store.zipIdx.map fun req => (req.1, stamps req.2, superseded req.2)) true).1

theorem insertBatch_plain (plain : ∀ e ∈ batch, e.1.supersedes = none) (s : FactStore) :
    (s.insertBatch batch).facts = s.facts ++ batch.map Prod.fst := by
  induction batch generalizing s with
  | nil => simp [FactStore.insertBatch]
  | cons e rest ih =>
    have first : e.1.supersedes = none := plain e mem_cons_self
    rw [FactStore.insertBatch, FactStore.supersede_prior_version, first, ih fun e later => plain e (mem_cons_of_mem _ later)]
    simp [FactStore.change, insert_fact_indexes]

/-- In an empty store every fact of a batch is a first version. -/
theorem facts_importPlanned (policy : PrivacyPolicy) (plan : ImportPlan) (stamps : Nat → Stamp) (superseded : Nat → Bool) :
    (importPlanned policy {} plan stamps superseded).facts =
      plan.to_store.zipIdx.map fun req => build_fact {} (enforce_global policy req.1) (stamps req.2) := by
  unfold importPlanned FactStore.try_store_bulk
  rw [if_pos rfl, insertBatch_plain]
  · simp [FactStore.append_journal]
  · intro e member
    obtain ⟨req, _, rfl⟩ := mem_map.mp member
    rfl

theorem mem_importPlanned (member : f ∈ (importPlanned policy {} plan stamps superseded).facts) :
    f.current = true ∧ f.deleted = false ∧ ∃ req ∈ plan.to_store, f.tenant_hash = stampTenant req.tenant_hash ∧
      f.source_receipt = req.source_receipt ∧ (f.entity, f.key, f.value) = (req.entity, req.key, req.value) := by
  rw [facts_importPlanned] at member
  obtain ⟨req, there, rfl⟩ := mem_map.mp member
  refine ⟨rfl, rfl, req.1, fst_mem_of_mem_zipIdx there, ?_⟩
  unfold enforce_global
  split_ifs <;> exact ⟨rfl, rfl, rfl⟩

theorem importPlanned_mem {plan : ImportPlan} (stamps : Nat → Stamp) (superseded : Nat → Bool)
    {req : StoreFact} (planned : req ∈ plan.to_store) :
    ∃ f ∈ (importPlanned policy {} plan stamps superseded).facts, f.current = true ∧ f.deleted = false ∧
      f.tenant_hash = stampTenant req.tenant_hash ∧ f.source_receipt = req.source_receipt ∧
        (f.entity, f.key, f.value) = (req.entity, req.key, req.value) := by
  rw [facts_importPlanned]
  obtain ⟨i, here⟩ := getElem?_of_mem planned
  have numbered : (req, i) ∈ plan.to_store.zipIdx := mem_zipIdx_iff_getElem?.mpr here
  refine ⟨_, mem_map_of_mem numbered, rfl, rfl, ?_⟩
  unfold enforce_global
  split_ifs <;> exact ⟨rfl, rfl, rfl⟩

/-- A pack as the export of a store makes it, without private facts. -/
structure Built (authentic : CruxPack → Bool) (facts : List Fact) (sessions : Option (List SessionState)) (opts : ExportOptions)
    (pack : CruxPack) : Prop where
  open_ : opts.include_private = false
  schema : pack.schema_version = CRUXPACK_SCHEMA_V1
  sections : pack.sections = (build_pack_sections facts sessions opts).1
  tenant : pack.manifest.tenant_id = opts.tenant_id
  included : pack.manifest.included_private = false
  facts_counted : pack.manifest.fact_count = pack.sections.facts.length
  sessions_counted : pack.manifest.session_count = pack.sections.sessions.length
  authentic : authentic pack = true

section
variable {authentic : CruxPack → Bool} {facts : List Fact} {sessions : Option (List SessionState)} {opts : ExportOptions}
  {pack : CruxPack}

theorem canonical_canonical (tenant_id : String) :
    canonical_tenant_id (canonical_tenant_id tenant_id) = canonical_tenant_id tenant_id := by
  unfold canonical_tenant_id
  split_ifs <;> rfl

theorem not_agent (free : reserved_prefix entity = none) : starts_with entity "__agent::" = false := by
  by_contra begins
  have there : "__agent::" ∈ CRUXPACK_RESERVED_PREFIXES := by decide
  exact (find?_eq_none.mp free _ there) (by simpa using begins)

section
variable (built : Built authentic facts sessions opts pack)
include built

theorem Built.fact {fact : Fact} (member : fact ∈ pack.sections.facts) :
    fact ∈ facts ∧ fact.tenant_hash = canonical_tenant_id opts.tenant_id ∧ fact.deleted = false ∧ fact.is_private = false ∧
      reserved_prefix fact.entity = none ∧ daemon_owned_entity_prefix fact.entity = none := by
  rw [built.sections] at member
  have inside : fact ∈ (facts.filter fun fact => fact.tenant_hash = canonical_tenant_id opts.tenant_id).filter (packed opts) :=
    (mem_insertionSort _).mp member
  obtain ⟨own, taken⟩ := mem_filter.mp inside
  obtain ⟨here, tenant⟩ := mem_filter.mp own
  simp [packed, built.open_] at taken
  exact ⟨here, by simpa using tenant, taken.1.1.1, taken.1.2.1, taken.1.2.2, taken.1.1.2⟩

theorem Built.entity (import_opts : ImportOptions) {fact : Fact}
    (member : fact ∈ pack.sections.facts) : importEntity import_opts fact = .ok fact.entity := by
  obtain ⟨_, _, _, _, free, unowned⟩ := built.fact member
  have ordinary := not_agent free
  have creatable : generic_create_reserved_entity_prefix fact.entity = none := by
    unfold generic_create_reserved_entity_prefix GENERIC_CREATE_RESERVED_PREFIXES
    rw [unowned]
    simp [ordinary]
  unfold importEntity
  rw [ordinary, creatable]
  rfl

theorem Built.verified : verify_pack authentic pack = .ok () := by
  have none_deleted : pack.sections.facts.any Fact.deleted = false := by
    rw [any_eq_false]
    intro fact member
    rw [(built.fact member).2.2.1]
    simp
  have none_private : (pack.sections.facts.any fun fact => fact.is_private || ( reserved_prefix fact.entity).isSome) = false := by
    rw [any_eq_false]
    intro fact member
    obtain ⟨_, _, _, shared, free, _⟩ := built.fact member
    rw [shared, free]
    simp
  have own : pack.sections.facts.find? (fun fact =>
      canonical_tenant_id fact.tenant_hash ≠ canonical_tenant_id pack.manifest.tenant_id) = none := by
    rw [find?_eq_none]
    intro fact member
    rw [(built.fact member).2.1, canonical_canonical, built.tenant]
    simp
  have inScope : canonical_tenant_id pack.manifest.tenant_id = "default" ∨ pack.sections.sessions = [] := by
    by_cases isDefault : canonical_tenant_id pack.manifest.tenant_id = "default"
    · exact .inl isDefault
    · refine .inr ?_
      rw [built.tenant] at isDefault
      rw [built.sections]
      simp [build_pack_sections, isDefault]
  unfold verify_pack
  rw [ensure_true _ built.schema, ok_bind, ensure_true _ ⟨built.facts_counted, built.sessions_counted⟩, ok_bind,
    ensure_true _ none_deleted, ok_bind, ensure_true _ (.inr none_private), ok_bind, own]
  rw [ensure_true _ inScope, ok_bind, ensure_true _ built.authentic]

end

/-- The request that a fact of a pack becomes. -/
def requestOf (opts : ImportOptions) (pack_ref : String) (fact : Fact) : StoreFact where
  tenant_hash := canonical_tenant_id opts.tenant_id
  entity := fact.entity
  key := fact.key
  value := fact.value
  source_receipt := some pack_ref
  confidence := fact.confidence
  is_private := fact.is_private
  horizon_class := some fact.horizon_class
  actor := fact.actor.map fun a => (opts.principal_map a).getD a

theorem planned {import_opts : ImportOptions} {m : Memory} {pack_ref : String} {list : List Fact}
    (ordinary : ∀ fact ∈ list, fact.deleted = false ∧ importEntity import_opts fact = .ok fact.entity) (plan : ImportPlan) :
    ∃ plan', list.foldlM (planOne m import_opts pack_ref) plan = .ok plan' ∧
      plan'.to_store = plan.to_store ++ (list.filter fun fact =>
        !(alreadyImported m (canonical_tenant_id import_opts.tenant_id) pack_ref).contains (fact.entity, fact.key, fact.value)).map
          (requestOf import_opts pack_ref) := by
  induction list generalizing plan with
  | nil => exact ⟨plan, rfl, by simp⟩
  | cons fact rest ih =>
    obtain ⟨live, entity⟩ := ordinary fact mem_cons_self
    have rest_ordinary := fun fact later => ordinary fact (mem_cons_of_mem _ later)
    by_cases known : (alreadyImported m (canonical_tenant_id import_opts.tenant_id) pack_ref).contains
        (fact.entity, fact.key, fact.value) = true
    · have one : planOne m import_opts pack_ref plan fact =
          .ok { plan with skipped_duplicates := plan.skipped_duplicates + 1 } := by
        simp only [planOne, live, entity, ok_bind, known]
        rfl
      obtain ⟨plan', folded, stored⟩ := ih rest_ordinary { plan with skipped_duplicates := plan.skipped_duplicates + 1 }
      refine ⟨plan', by rw [foldlM_cons, one, ok_bind, folded], ?_⟩
      rw [stored, filter_cons, known]
      rfl
    · rw [Bool.not_eq_true] at known
      obtain ⟨next, one, grown⟩ : ∃ next, planOne m import_opts pack_ref plan fact = .ok next ∧
          next.to_store = plan.to_store ++ [requestOf import_opts pack_ref fact] := by
        simp only [planOne, live, entity, ok_bind, known]
        exact ⟨_, rfl, rfl⟩
      obtain ⟨plan', folded, stored⟩ := ih rest_ordinary next
      refine ⟨plan', by rw [foldlM_cons, one, ok_bind, folded], ?_⟩
      rw [stored, grown, filter_cons, known]
      simp

theorem Built.plan (built : Built authentic facts sessions opts pack) {import_opts : ImportOptions}
    (tenant : import_opts.tenant_id = opts.tenant_id) (m : Memory) (known : Option (List SessionState)) :
    ∃ plan, plan_import authentic pack m known import_opts = .ok plan ∧ plan.to_store = (pack.sections.facts.filter fun fact =>
        !(alreadyImported m (canonical_tenant_id opts.tenant_id) pack.source_receipt).contains
          (fact.entity, fact.key, fact.value)).map (requestOf import_opts pack.source_receipt) := by
  have ordinary : ∀ fact ∈ pack.sections.facts, fact.deleted = false ∧ importEntity import_opts fact = .ok fact.entity :=
    fun fact member => ⟨(built.fact member).2.2.1, built.entity import_opts member⟩
  obtain ⟨plan, folded, stored⟩ := @planned import_opts m pack.source_receipt _ ordinary {}
  refine ⟨planSessions known pack plan, ?_, ?_⟩
  · unfold plan_import
    rw [built.verified, ok_bind, ensure_true _ (by rw [built.tenant, tenant]), ok_bind, folded]
    rfl
  · rw [tenant] at stored
    cases known with
    | none => simpa [planSessions] using stored
    | some list => simpa [planSessions] using stored

end

def triple (f : Fact) : String × String × String := (f.entity, f.key, f.value)

/-- Two lists of facts have the same current entities, keys and values. -/
def SameCurrent (first second : List Fact) : Prop :=
  ∀ t, (∃ f ∈ first, f.current = true ∧ triple f = t) ↔ ∃ f ∈ second, f.current = true ∧ triple f = t

def noteRequest (value : String) : StoreFact where
  tenant_hash := "default"
  entity := "note"
  key := "text"
  value := value
  source_receipt := none
  confidence := .finite 0
  is_private := false
  horizon_class := none
  actor := none

/-- A store with an old and a new value. -/
def twoNotes : FactStore :=
  ((FactStore.store ⟨[], []⟩ {} (noteRequest "old") ⟨"a", 1⟩ true true).1.store ⟨[], []⟩ (noteRequest "new") ⟨"b", 2⟩ true true).1

/-- The pack of the default tenant of a store. -/
def packOf (facts : List Fact) : CruxPack where
  schema_version := CRUXPACK_SCHEMA_V1
  manifest := { tenant_id := "local", included_private := false
                fact_count := (build_pack_sections facts none ⟨"local", none, false, true⟩).1.facts.length
                session_count := (build_pack_sections facts none ⟨"local", none, false, true⟩).1.sessions.length }
  sections := (build_pack_sections facts none ⟨"local", none, false, true⟩).1
  blake3_content_hash := "blake3:00"

theorem built_packOf (facts : List Fact) : Built (fun _ => true) facts none ⟨"local", none, false, true⟩ (packOf facts) where
  open_ := rfl
  schema := rfl
  sections := rfl
  tenant := rfl
  included := rfl
  facts_counted := rfl
  sessions_counted := rfl
  authentic := rfl

end Crux.Facts.Sync
