import Crux.SyncTenants

/-!
# Facts that leave the node

The paths on which facts are given out: the paged export, the listing for the
console, the batch of a push, the sections of a pack, and the pages of the sync.
-/

namespace Crux.Facts.Sync
open Memory List

structure FactExportResult where
  facts : List Fact
  next_cursor : Option String
  has_more : Bool
deriving DecidableEq

def export_scoped (facts : List Fact) (tenant_hash : Option String) (since : Option Timestamp) (cursor : Option String)
    (limit : Nat) : FactExportResult :=
  let all := (facts.filter fun fact => tenant_hash.all fun tenant => fact.tenant_hash = tenant).filter fun fact =>
    !fact.is_private && !fact.deleted
  let all := (all.insertionSort storedBefore).filter fun fact => since.all fun since => since ≤ fact.stored_at
  let start := ((cursor.bind fun cursor => all.findIdx? fun fact => fact.fact_id = cursor).map (· + 1)).getD 0
  let remaining := all.drop start
  let taken := remaining.take limit
  let has_more := decide (limit < remaining.length)
  { facts := taken, next_cursor := if has_more then taken.getLast?.map Fact.fact_id else none, has_more }

/-- The key of the order of a listing: milliseconds and identifier. -/
structure FactListCursor where
  stored_at_ms : Int
  fact_id : String
deriving DecidableEq

def listKey (fact : Fact) : FactListCursor := ⟨fact.stored_at / 1000000, fact.fact_id⟩

def FactListCursor.le (a b : FactListCursor) : Bool :=
  decide (a.stored_at_ms < b.stored_at_ms) || (decide (a.stored_at_ms = b.stored_at_ms) && decide (a.fact_id ≤ b.fact_id))

structure FactListPage where
  facts : List Fact
  next_cursor : Option FactListCursor
  has_more : Bool
  total_visible : Nat
deriving DecidableEq

/-- Newest first; the cursor is given before it is encoded. -/
def list_page (facts : List Fact) (cursor : Option FactListCursor) (limit : Nat) (include_superseded : Bool)
    (filter : Fact → Bool) : FactListPage :=
  let all := ((facts.filter fun fact => !fact.is_private && !fact.deleted).filter fun fact =>
    include_superseded || fact.superseded_by.isNone).filter filter
  let sorted := all.insertionSort fun a b => (listKey b).le (listKey a) = true
  -- the facts down to the cursor are those whose key is not below it
  let start := (cursor.map fun c => (sorted.takeWhile fun fact => c.le (listKey fact)).length).getD 0
  let remaining := sorted.drop start
  let taken := remaining.take limit
  let has_more := decide (limit < remaining.length)
  { facts := taken, next_cursor := if has_more then taken.getLast?.map listKey else none, has_more
    total_visible := all.length }

/-- The settings of a client and where its cursor stands. -/
structure SyncClient where
  private_prefixes : List String
  to_lowercase : String → String
  last_push_at : Option Timestamp

/-- The private flag or a blocked entity. -/
def SyncClient.is_private (client : SyncClient) (fact : Fact) : Bool :=
  fact.is_private || client.private_prefixes.any fun start =>
    starts_with (client.to_lowercase fact.entity) (client.to_lowercase start)

def SyncClient.pushable_facts (client : SyncClient) (facts : List Fact) : List Fact :=
  (((facts.filter fun fact => !fact.deleted).filter fun fact => !client.is_private fact).filter fun fact =>
    fact.source_receipt.all fun receipt => !starts_with receipt "sync:").filter fun fact =>
      client.last_push_at.all fun since => since < fact.stored_at

def CRUXPACK_RESERVED_PREFIXES : List String :=
  ["__candidate_fact__::", "__escrow__::", "__action_enrichment_receipt__::", "__agent::", "__ops::", "__ops__::", "__ax__::",
   "__ax_session::", "__answer_replay_capsule__::", "__bootstrap__::", "__consolidation_review__::", "__constraints__::",
   "__coord__::", "__dossier__::", "__engram__::", "__extension__::", "__extension_grant__::", "__gpu1_receipt__::",
   "__incident__::", "__legal_hold__::", "__legal_hold_receipt__::", "__memory_pin::", "__mint_request__::",
   "__orchestrator_receipt__::", "__passport__::", "__plane__::", "__plane_layer__::", "__project__::",
   "__project_layer__::", "__project_repo_link__::", "__rcx_publish__::", "__repo_codegraph_ids__::", "__repo_extdeps__::",
   "__repo_registry__::", "__repo_scan__::", "__result_envelope__::", "__result_envelope_incident__::",
   "__reverify_receipts__::", "__session_binding__::", "__storybook__::", "__sync__::", "__sync_tombstone__::",
   "__sync_wipe_receipt__::", "__tenant__::", "__tenant_metadata__::", "__tenant_mirror__::", "__work__::",
   "__work_comment__::", "__work_gate__::", "__work_transition__::", "__workbench__::", "__workspace__::",
   "__workspace_scan__::", "console:page:", "console:tileboard:", "console:tiledesign:", "console:workspace:", "__infra__::",
   "decisions::", "github::", "__decisions__::"]

def reserved_prefix (entity : String) : Option String := CRUXPACK_RESERVED_PREFIXES.find? (starts_with entity)

def canonical_tenant_id (tenant_id : String) : String := if tenant_id = "local" then "default" else tenant_id

structure SessionState where
  session_id : String
  state : String
deriving DecidableEq

structure ExportOptions where
  tenant_id : String
  since : Option Timestamp
  include_private : Bool
  include_sessions : Bool
deriving DecidableEq

structure PackSections where
  facts : List Fact
  sessions : List SessionState
deriving DecidableEq

/-- What is left out of a pack or opted into it; the counts by prefix are given as a function. -/
structure PrivateSummary where
  private_flagged : Nat
  by_reserved_prefix : String → Nat
  protected_excluded : Nat
  deleted_excluded : Nat

/-- The order of a pack: entity, key, version, identifier. -/
def packBefore (a b : Fact) : Prop :=
  a.entity < b.entity ∨ a.entity = b.entity ∧ (a.key < b.key ∨ a.key = b.key ∧
    (a.version < b.version ∨ a.version = b.version ∧ a.fact_id ≤ b.fact_id))

instance : DecidableRel packBefore := fun _ _ => inferInstanceAs (Decidable (_ ∨ _))

/-- The facts a pack takes, of those of its tenant. -/
def packed (opts : ExportOptions) (fact : Fact) : Bool :=
  !fact.deleted && ( daemon_owned_entity_prefix fact.entity).isNone &&
    (!(fact.is_private || ( reserved_prefix fact.entity).isSome) || opts.include_private) &&
      opts.since.all fun since => since ≤ fact.stored_at

def build_pack_sections (facts : List Fact) (sessions : Option (List SessionState)) (opts : ExportOptions) :
    PackSections × PrivateSummary :=
  let tenant_id := canonical_tenant_id opts.tenant_id
  let own := facts.filter fun fact => fact.tenant_hash = tenant_id
  let live := own.filter fun fact => !fact.deleted
  ({ facts := (own.filter (packed opts)).insertionSort packBefore
     sessions :=
      if opts.include_sessions && tenant_id = "default" then
        (((sessions.getD []).filter fun state => !starts_with state.session_id "__").insertionSort
          fun a b => a.session_id ≤ b.session_id)
      else [] },
   { private_flagged := (live.filter fun fact => ( reserved_prefix fact.entity).isNone && fact.is_private).length
     by_reserved_prefix := fun start => (live.filter fun fact => reserved_prefix fact.entity = some start).length
     protected_excluded := (live.filter fun fact => ( daemon_owned_entity_prefix fact.entity).isSome).length
     deleted_excluded := (own.filter fun fact => fact.deleted).length })

/-- On every path only facts that are neither deleted nor private are given out, private ones into a pack that asks for them.
For the pages of the sync this is about the requests for one collection with or without content. -/
structure NothingErased (r : Rendering) (facts : List Fact) (tenant_id collection : String) (include_content : Bool) : Prop where
  exported : ∀ tenant_hash since cursor limit, ∀ fact ∈ (export_scoped facts tenant_hash since cursor limit).facts,
    fact.deleted = false ∧ fact.is_private = false
  listed : ∀ cursor limit include_superseded filter, ∀ fact ∈ (list_page facts cursor limit include_superseded filter).facts,
    fact.deleted = false ∧ fact.is_private = false
  pushed : ∀ client : SyncClient, ∀ fact ∈ client.pushable_facts facts, fact.deleted = false ∧ fact.is_private = false
  inPack : ∀ sessions opts, ∀ fact ∈ (build_pack_sections facts sessions opts).1.facts,
    fact.deleted = false ∧ (fact.is_private = true → opts.include_private = true)
  paged : ∀ cursor limit page, tenant_collection_page r facts tenant_id collection cursor limit include_content = .ok page →
    ∀ record ∈ page.records, ∀ fact, record.fact = some fact → fact.deleted = false ∧ fact.is_private = false

section
variable {facts : List Fact}

theorem export_clean (tenant_hash : Option String) (since : Option Timestamp) (cursor : Option String) (limit : Nat) :
    ∀ fact ∈ (export_scoped facts tenant_hash since cursor limit).facts, fact.deleted = false ∧ fact.is_private = false := by
  intro fact member
  have inside := (mem_filter.mp (mem_of_mem_drop (mem_of_mem_take member))).1
  rw [mem_insertionSort] at inside
  have open_ := (mem_filter.mp inside).2
  simp at open_
  exact ⟨open_.2, open_.1⟩

theorem list_clean (cursor : Option FactListCursor) (limit : Nat) (include_superseded : Bool) (filter : Fact → Bool) :
    ∀ fact ∈ (list_page facts cursor limit include_superseded filter).facts, fact.deleted = false ∧ fact.is_private = false := by
  intro fact member
  have inside := mem_of_mem_drop (mem_of_mem_take member)
  rw [mem_insertionSort] at inside
  have open_ := (mem_filter.mp (mem_filter.mp (mem_filter.mp inside).1).1).2
  simp at open_
  exact ⟨open_.2, open_.1⟩

theorem push_clean (client : SyncClient) :
    ∀ fact ∈ client.pushable_facts facts, fact.deleted = false ∧ fact.is_private = false := by
  intro fact member
  have local_ := (mem_filter.mp (mem_filter.mp member).1).1
  obtain ⟨live, shared⟩ := mem_filter.mp local_
  have undeleted := (mem_filter.mp live).2
  simp at undeleted shared
  refine ⟨undeleted, ?_⟩
  exact (Bool.or_eq_false_iff.mp shared).1

theorem pack_clean (sessions : Option (List SessionState)) (opts : ExportOptions) :
    ∀ fact ∈ (build_pack_sections facts sessions opts).1.facts,
      fact.deleted = false ∧ (fact.is_private = true → opts.include_private = true) := by
  intro fact member
  have inside : fact ∈ (facts.filter fun fact => fact.tenant_hash = canonical_tenant_id opts.tenant_id).filter (packed opts) :=
    (mem_insertionSort _).mp member
  have taken := (mem_filter.mp inside).2
  simp only [packed, Bool.and_eq_true, Bool.not_eq_true', Bool.or_eq_true] at taken
  refine ⟨taken.1.1.1, fun closed => ?_⟩
  rcases taken.1.2 with shared | asked
  · rw [closed] at shared
    cases shared
  · exact asked

theorem mem_collected : fact ∈ collected facts tenant_id collection ↔
      fact ∈ facts ∧ fact_belongs_to_tenant fact tenant_id = true ∧ fact.is_private = false ∧
        classify_fact_collection fact = collection := by
  simp only [collected, mem_filter, Bool.not_eq_true', decide_eq_true_eq, and_assoc]

theorem classify_deleted (deleted : fact.deleted = true) : classify_fact_collection fact = SYNC_COLLECTION_TOMBSTONES := by
  simp [classify_fact_collection, deleted]

theorem collected_live (other : collection ≠ SYNC_COLLECTION_TOMBSTONES) (member : fact ∈ collected facts tenant_id collection) :
    fact.deleted = false := by
  obtain ⟨_, _, _, classified⟩ := mem_collected.mp member
  by_contra deleted
  rw [classify_deleted (by simpa using deleted)] at classified
  exact other classified.symm

end

theorem pageStart_after (distinct : (records.map SyncCollectionRecord.record_id).Nodup) (here : records[k]? = some record) :
    pageStart records (some record.record_id) = k + 1 := by
  have found : records.findIdx? (fun other => other.record_id = record.record_id) = some k := by
    rw [List.findIdx?_eq_some_iff_getElem]
    obtain ⟨inside, same⟩ := List.getElem?_eq_some_iff.mp here
    refine ⟨inside, by simp [same], fun j before => ?_⟩
    have inside' : j < records.length := by omega
    have differ := (nodup_iff_getElem?_ne_getElem?.mp distinct) j k before (by simpa using inside)
    simp [here, List.getElem?_eq_getElem inside'] at differ
    simpa using differ
  unfold pageStart
  simp [found]

theorem page_reaches (r : Rendering) {facts : List Fact} (nodup : (facts.map Fact.fact_id).Nodup) {tenant_id collection : String}
    (known : SYNC_COLLECTIONS.contains collection = true) (include_content : Bool) {fact : Fact}
    (member : fact ∈ collected facts tenant_id collection) :
    ∃ cursor page, tenant_collection_page r facts tenant_id collection cursor 1 include_content = .ok page ∧
      record_from_fact r tenant_id fact collection include_content ∈ page.records := by
  generalize sorted : (collection_records r facts tenant_id collection include_content).insertionSort earlier = records
  have inside : record_from_fact r tenant_id fact collection include_content ∈ records := by
    rw [← sorted, mem_insertionSort, collection_records, mem_insertionSort]
    exact mem_map_of_mem member
  have distinct : (records.map SyncCollectionRecord.record_id).Nodup := by
    have names : (records.map SyncCollectionRecord.record_id).Perm
        ((collected facts tenant_id collection).map Fact.fact_id) := by
      rw [← sorted]
      refine (((perm_insertionSort _ _).trans (perm_insertionSort _ _)).map _).trans ?_
      rw [map_map]
      exact List.Perm.refl _
    refine names.nodup_iff.mpr (List.Nodup.sublist (List.Sublist.map _ ?_) nodup)
    exact (filter_sublist.trans filter_sublist).trans filter_sublist
  have validated : validate_collection collection = .ok () := by
    unfold validate_collection
    rw [if_pos known]
  obtain ⟨k, here⟩ := List.getElem?_of_mem inside
  have pages : ∀ cursor, pageStart records cursor = k →
      ∃ page, tenant_collection_page r facts tenant_id collection cursor 1 include_content = .ok page ∧
        record_from_fact r tenant_id fact collection include_content ∈ page.records := by
    intro cursor starts
    unfold tenant_collection_page
    rw [validated, Bytes.ok_bind, sorted]
    refine ⟨_, rfl, ?_⟩
    rw [starts]
    have first : (records.drop k).head? = some (record_from_fact r tenant_id fact collection include_content) := by
      rw [List.head?_drop, here]
    rw [mem_iff_getElem?]
    refine ⟨0, ?_⟩
    rw [List.getElem?_take_of_lt (by decide), ← List.head?_eq_getElem?, first]
  cases k with
  | zero => exact ⟨none, pages none rfl⟩
  | succ k =>
    obtain ⟨before, there⟩ : ∃ before, records[k]? = some before := by
      have inside := (List.getElem?_eq_some_iff.mp here).1
      exact ⟨_, List.getElem?_eq_getElem (show k < records.length by omega)⟩
    exact ⟨some before.record_id, pages _ (pageStart_after distinct there)⟩

/-- Nothing erased is given out exactly when the request is not for the tombstones with their content, or the tenant has no
deleted fact that is shared. -/
theorem nothing_erased_iff (r : Rendering) {facts : List Fact} (nodup : (facts.map Fact.fact_id).Nodup)
    (tenant_id collection : String) (include_content : Bool) :
    NothingErased r facts tenant_id collection include_content ↔
      (include_content = true → collection = SYNC_COLLECTION_TOMBSTONES →
        ∀ fact ∈ facts, fact_belongs_to_tenant fact tenant_id = true → fact.is_private = false → fact.deleted = false) := by
  constructor
  · intro clean content tombstones fact here belongs shared
    by_contra deleted
    have deleted' : fact.deleted = true := by simpa using deleted
    have member : fact ∈ collected facts tenant_id collection :=
      mem_collected.mpr ⟨here, belongs, shared, by rw [classify_deleted deleted', tombstones]⟩
    have known : SYNC_COLLECTIONS.contains collection = true := by
      rw [tombstones]
      decide
    obtain ⟨cursor, page, given, record⟩ := page_reaches r nodup known include_content member
    have carried : (record_from_fact r tenant_id fact collection include_content).fact = some fact := by
      rw [record_from_fact, content]
      rfl
    exact deleted (clean.paged cursor 1 page given _ record fact carried).1
  · intro condition
    refine ⟨export_clean, list_clean, push_clean, pack_clean, ?_⟩
    intro cursor limit page given record member fact carried
    obtain ⟨source, inside, rfl⟩ := record_of_page r given member
    have content : include_content = true ∧ source = fact := by
      simpa [record_from_fact] using carried
    obtain ⟨content, rfl⟩ := content
    obtain ⟨here, belongs, shared, _⟩ := mem_collected.mp inside
    refine ⟨?_, shared⟩
    by_cases tombstones : collection = SYNC_COLLECTION_TOMBSTONES
    · exact condition content tombstones source here belongs shared
    · exact collected_live tombstones inside

/-- Texts in place of the hashes. -/
def sampleRendering : Rendering where
  hash_string value := "hash of " ++ toString value.length
  memory_identity_hash _ _ entity key := entity ++ key
  memory_content_hash value _ := "hash of " ++ toString value.length
  hash_records records := toString records.length
  to_rfc3339 time := toString time

theorem nothing_erased_facts :
    NothingErased sampleRendering [{ factOf "acme::note" with deleted := true }] "acme" SYNC_COLLECTION_FACTS true :=
  (nothing_erased_iff sampleRendering (by decide) "acme" SYNC_COLLECTION_FACTS true).mpr fun _ tombstones =>
    absurd tombstones (by decide)

/-- The tombstones of a tenant, asked for with their content, carry the values of its deleted facts. -/
theorem tombstones_carry_values :
    (tenant_collection_page sampleRendering [{ factOf "acme::note" with deleted := true, value := "erased" }] "acme"
      SYNC_COLLECTION_TOMBSTONES none 10 true).toOption.map (fun page => page.records.map fun record =>
        record.fact.map fun fact => (fact.deleted, fact.value)) = some [some (true, "erased")] := by
  decide +kernel

end Crux.Facts.Sync
