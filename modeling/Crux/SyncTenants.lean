import Mathlib.Data.List.Infix
import Crux.Bytes
import Crux.FactChanges

/-!
# Tenants in the sync

The collections of `sync.rs`: which facts belong to a tenant by the name of their
entity, the pages of a collection, and the wiping of a tenant's mirror.
-/

namespace Crux.Facts.Sync
open Memory List FactStore

def to_ascii_lowercase (text : String) : String := String.ofList (text.toList.map Char.toLower)

def contains (text part : String) : Bool := text.toList.tails.any fun rest => part.toList.isPrefixOf rest

def ends_with (text ending : String) : Bool := ending.toList.isSuffixOf text.toList

def SYNC_COLLECTION_FACTS : String := "facts"
def SYNC_COLLECTION_CONSTRAINTS : String := "constraints"
def SYNC_COLLECTION_PLANS : String := "plans"
def SYNC_COLLECTION_RECEIPTS : String := "receipts"
def SYNC_COLLECTION_DOSSIERS : String := "dossiers"
def SYNC_COLLECTION_PROJECTION_REVISIONS : String := "projection_revisions"
def SYNC_COLLECTION_SEMANTIC_PROFILES : String := "semantic_profiles"
def SYNC_COLLECTION_TOMBSTONES : String := "tombstones"

def SYNC_COLLECTIONS : List String :=
  [SYNC_COLLECTION_FACTS, SYNC_COLLECTION_CONSTRAINTS, SYNC_COLLECTION_PLANS, SYNC_COLLECTION_RECEIPTS,
   SYNC_COLLECTION_DOSSIERS, SYNC_COLLECTION_PROJECTION_REVISIONS, SYNC_COLLECTION_SEMANTIC_PROFILES,
   SYNC_COLLECTION_TOMBSTONES]

/-- The error is the text that names the collection. -/
def validate_collection (collection : String) : Except String Unit :=
  if SYNC_COLLECTIONS.contains collection then .ok () else .error ("unknown sync collection: " ++ collection)

def classify_fact_collection (fact : Fact) : String :=
  let entity := to_ascii_lowercase fact.entity
  let key := to_ascii_lowercase fact.key
  if fact.deleted || starts_with entity "__sync_tombstone__::" || contains key "tombstone" then SYNC_COLLECTION_TOMBSTONES
  else if starts_with entity "__constraints__::" || contains entity "::constraint::" || contains key "constraint" then
    SYNC_COLLECTION_CONSTRAINTS
  else if starts_with entity "__receipt__::" || key = "receipt" || ends_with key "_receipt" then SYNC_COLLECTION_RECEIPTS
  else if starts_with entity "__dossier__::" || starts_with entity "__storybook__::" || contains key "dossier" then
    SYNC_COLLECTION_DOSSIERS
  else if starts_with entity "__projection__::" || contains entity "::projection::" || contains key "projection_revision" then
    SYNC_COLLECTION_PROJECTION_REVISIONS
  else if starts_with entity "__semantic_profile__::" || key = "semantic_profile" || contains key "semantic_profile" then
    SYNC_COLLECTION_SEMANTIC_PROFILES
  else if starts_with entity "__work__::" || starts_with entity "__project__::" || contains entity "::plan::" ||
      key = "plan" || ends_with key "_plan" || contains key "session_plan" then SYNC_COLLECTION_PLANS
  else SYNC_COLLECTION_FACTS

def tenant_prefixes (tenant_id : String) : List String :=
  [tenant_id ++ "::", tenant_id ++ ":", "tenant::" ++ tenant_id ++ "::", "tenant:" ++ tenant_id ++ ":",
   "tenant://" ++ tenant_id ++ "/", "__tenant__::" ++ tenant_id ++ "::", "__tenant_mirror__::" ++ tenant_id ++ "::",
   "__sync_tombstone__::" ++ tenant_id ++ "::"]

def fact_belongs_to_tenant (fact : Fact) (tenant_id : String) : Bool :=
  fact.entity = tenant_id || (tenant_prefixes tenant_id).any (starts_with fact.entity)

def is_synced_receipt (receipt : String) : Bool :=
  starts_with receipt "sync:" || starts_with receipt "sync-promotion:" || starts_with receipt "mirror:" ||
    starts_with receipt "cloud:"

def is_mirror_fact (fact : Fact) : Bool :=
  starts_with fact.entity "__tenant_mirror__::" || fact.source_receipt.any is_synced_receipt

structure SyncCollectionRecord where
  collection : String
  record_id : String
  entity : String
  key : String
  identity_hash : String
  content_hash : String
  value_hash : String
  updated_at : String
  deleted : Bool
  source_receipt : Option String
  semantic_profile_id : Option String
  local_semantic_profile_id : Option String
  fact : Option Fact
deriving DecidableEq

structure SyncMerkleRange where
  start_record_id : Option String
  end_record_id : Option String
  record_count : Nat
  range_hash : String
deriving DecidableEq

structure SyncCollectionPage where
  tenant_id : String
  collection : String
  records : List SyncCollectionRecord
  next_cursor : Option String
  has_more : Bool
  collection_hash : String
  merkle_ranges : List SyncMerkleRange
deriving DecidableEq

/-- The hashes and the text of a time, as the crates give them. -/
structure Rendering where
  hash_string : String → String
  memory_identity_hash : String → String → String → String → String
  memory_content_hash : String → Bool → String
  hash_records : List SyncCollectionRecord → String
  to_rfc3339 : Timestamp → String

section
variable (r : Rendering)

def record_from_fact (tenant_id : String) (fact : Fact) (collection : String) (include_content : Bool) :
    SyncCollectionRecord where
  collection := collection
  record_id := fact.fact_id
  entity := fact.entity
  key := fact.key
  identity_hash := r.memory_identity_hash tenant_id collection fact.entity fact.key
  content_hash := r.memory_content_hash fact.value fact.deleted
  value_hash := r.hash_string fact.value
  updated_at := r.to_rfc3339 fact.stored_at
  deleted := fact.deleted
  source_receipt := fact.source_receipt
  semantic_profile_id := none
  local_semantic_profile_id := none
  fact := if include_content then some fact else none

/-- The order by time and then by identifier. -/
def earlier (a b : SyncCollectionRecord) : Prop :=
  a.updated_at < b.updated_at ∨ a.updated_at = b.updated_at ∧ a.record_id ≤ b.record_id

instance : DecidableRel earlier := fun _ _ => inferInstanceAs (Decidable (_ ∨ _))

/-- The facts a collection of a tenant has records of. -/
def collected (facts : List Fact) (tenant_id collection : String) : List Fact :=
  ((facts.filter fun fact => fact_belongs_to_tenant fact tenant_id).filter fun fact => !fact.is_private).filter
    fun fact => classify_fact_collection fact = collection

def collection_records (facts : List Fact) (tenant_id collection : String) (include_content : Bool) :
    List SyncCollectionRecord :=
  ((collected facts tenant_id collection).map fun fact => record_from_fact r tenant_id fact collection include_content).insertionSort
    earlier

def chunksOf (size : Nat) : Nat → List SyncCollectionRecord → List (List SyncCollectionRecord)
  | 0, _ => []
  | fuel + 1, records => if records.isEmpty then [] else records.take size :: chunksOf size fuel (records.drop size)

def merkle_ranges (records : List SyncCollectionRecord) : List SyncMerkleRange :=
  (chunksOf 128 records.length records).map fun chunk =>
    { start_record_id := chunk.head?.map SyncCollectionRecord.record_id
      end_record_id := chunk.getLast?.map SyncCollectionRecord.record_id
      record_count := chunk.length, range_hash := r.hash_records chunk }

/-- Where a page begins: after the record of the cursor, or at the first record. -/
def pageStart (records : List SyncCollectionRecord) (cursor : Option String) : Nat :=
  ((cursor.bind fun cursor => records.findIdx? fun record => record.record_id = cursor).map (· + 1)).getD 0

def tenant_collection_page (facts : List Fact) (tenant_id collection : String) (cursor : Option String) (limit : Nat)
    (include_content : Bool) : Except String SyncCollectionPage := do
  validate_collection collection
  let records := (collection_records r facts tenant_id collection include_content).insertionSort earlier
  let remaining := records.drop (pageStart records cursor)
  let limit := max 1 (min limit 1000)
  let page_records := remaining.take limit
  let has_more := decide (limit < remaining.length)
  return { tenant_id, collection, records := page_records
           next_cursor := if has_more then page_records.getLast?.map SyncCollectionRecord.record_id else none
           has_more, collection_hash := r.hash_records page_records, merkle_ranges := merkle_ranges r page_records }

theorem record_of_page {facts : List Fact} {tenant_id collection : String} {cursor : Option String} {limit : Nat}
    {include_content : Bool} {page : SyncCollectionPage}
    (given : tenant_collection_page r facts tenant_id collection cursor limit include_content = .ok page)
    {record : SyncCollectionRecord} (member : record ∈ page.records) :
    ∃ fact ∈ collected facts tenant_id collection, record = record_from_fact r tenant_id fact collection include_content := by
  obtain ⟨_, _, given⟩ := Bytes.bind_ok_iff.mp given
  cases given
  have sorted := mem_of_mem_drop (mem_of_mem_take member)
  rw [mem_insertionSort, collection_records, mem_insertionSort] at sorted
  obtain ⟨fact, collected, same⟩ := mem_map.mp sorted
  exact ⟨fact, collected, same.symm⟩

end

/-- What happens to one wiped fact: whether its deletion is written, and how its tombstone is stored. -/
structure WipeOutcome where
  deleted_written : Bool
  stamp : Stamp
  written : Bool
  superseded : Bool

/-- The facts a wipe takes, collection by collection. -/
def mirrored (facts : List Fact) (tenant_id : String) : List (String × Fact) :=
  let taken := facts.filter fun fact => !fact.deleted && fact_belongs_to_tenant fact tenant_id && is_mirror_fact fact
  SYNC_COLLECTIONS.flatMap fun collection =>
    (taken.filter fun fact => classify_fact_collection fact = collection).map fun fact => (collection, fact)

/-- The tombstone that is stored for a wiped fact; its value is a JSON text over the wiped fact and its hash. -/
def tombstone (tombstoneValue : String → String → Fact → String) (tenant_id collection : String) (fact : Fact) : StoreFact where
  tenant_hash := default_tenant_hash
  entity := "__sync_tombstone__::" ++ tenant_id ++ "::" ++ fact.fact_id
  key := "record"
  value := tombstoneValue tenant_id collection fact
  source_receipt := some ("sync-wipe:" ++ tenant_id)
  confidence := .finite (2 ^ 149)
  is_private := true
  horizon_class := none
  actor := none

section
variable (policy : PrivacyPolicy) (tombstoneValue : String → String → Fact → String)

/-- One fact of a wipe: the store, the identifiers deleted so far and those of their tombstones. -/
def wipeOne (tenant_id : String) (state : FactStore × List String × List String) (taken : (String × Fact) × WipeOutcome) :
    FactStore × List String × List String :=
  let fact := taken.1.2
  let deleted := state.1.delete fact.tenant_hash fact.fact_id taken.2.deleted_written
  if deleted.2 then
    let stored := deleted.1.store policy (tombstone tombstoneValue tenant_id taken.1.1 fact) taken.2.stamp taken.2.written
      taken.2.superseded
    (stored.1, state.2.1 ++ [fact.fact_id], state.2.2 ++ [stored.2.fact_id])
  else (deleted.1, state.2)

/-- The store after the wipe, the deleted identifiers and those of the tombstones. -/
def offboard_tenant_mirror (s : FactStore)
    (tenant_id : String) (outcomes : Nat → WipeOutcome) : FactStore × List String × List String :=
  ((mirrored s.facts tenant_id).zipIdx.map fun taken => (taken.1, outcomes taken.2)).foldl
    (wipeOne policy tombstoneValue tenant_id) (s, [], [])

end

/-- Neither tenant's name nor any of its prefixes begins with a prefix of the other. -/
def NoOverlap (first second : String) : Prop :=
  (∀ p ∈ tenant_prefixes first, starts_with second p = false) ∧ (∀ q ∈ tenant_prefixes second, starts_with first q = false) ∧
    ∀ p ∈ tenant_prefixes first, ∀ q ∈ tenant_prefixes second, starts_with p q = false ∧ starts_with q p = false

instance (first second : String) : Decidable (NoOverlap first second) := inferInstanceAs (Decidable (_ ∧ _ ∧ _))

theorem starts_with_iff : starts_with text start = true ↔ start.toList <+: text.toList :=
  isPrefixOf_iff_prefix

theorem belongs_iff : fact_belongs_to_tenant fact tenant_id = true ↔
      fact.entity = tenant_id ∨ ∃ p ∈ tenant_prefixes tenant_id, starts_with fact.entity p = true := by
  simp [fact_belongs_to_tenant]

theorem starts_with_both (hp : starts_with text p = true) (hq : starts_with text q = true) :
    starts_with p q = true ∨ starts_with q p = true := by
  rw [starts_with_iff] at hp hq
  rcases prefix_or_prefix_of_prefix hp hq with before | before
  · exact .inr (starts_with_iff.mpr before)
  · exact .inl (starts_with_iff.mpr before)

theorem not_both_of_noOverlap (differ : first ≠ second) (apart : NoOverlap first second) (fact : Fact) :
    ¬ (fact_belongs_to_tenant fact first = true ∧ fact_belongs_to_tenant fact second = true) := by
  obtain ⟨away, away', prefixes⟩ := apart
  rintro ⟨one, other⟩
  rw [belongs_iff] at one other
  rcases one with same | ⟨p, mine, begins⟩
  · rcases other with same' | ⟨q, theirs, begins'⟩
    · exact differ (same.symm.trans same')
    · rw [same, away' q theirs] at begins'
      cases begins'
  · rcases other with same' | ⟨q, theirs, begins'⟩
    · rw [same', away p mine] at begins
      cases begins
    · obtain ⟨no, no'⟩ := prefixes p mine q theirs
      rcases starts_with_both begins begins' with yes | yes
      · rw [no] at yes
        cases yes
      · rw [no'] at yes
        cases yes

/-- A fact of an entity. -/
def factOf (entity : String) : Fact where
  fact_id := "f"
  tenant_hash := "default"
  entity := entity
  key := "k"
  value := "v"
  source_receipt := some "sync:remote"
  confidence := .finite 0
  stored_at := 0
  tokens := 1
  deleted := false
  version := 1
  supersedes := none
  is_private := false
  horizon_class := .None
  reverified_at := none
  superseded_by := none
  actor := none
  valid_from := none
  valid_to := none
  access_count := 0
  last_accessed_at := none

theorem noOverlap_of_not_both
    (apart : ∀ fact, ¬ (fact_belongs_to_tenant fact first = true ∧ fact_belongs_to_tenant fact second = true)) :
    NoOverlap first second := by
  have self : ∀ text, starts_with text text = true := fun text => starts_with_iff.mpr prefix_rfl
  refine ⟨fun p mine => ?_, fun q theirs => ?_, fun p mine q theirs => ⟨?_, ?_⟩⟩
  · by_contra begins
    rw [Bool.not_eq_false] at begins
    exact apart (factOf second) ⟨belongs_iff.mpr (.inr ⟨p, mine, begins⟩), belongs_iff.mpr (.inl rfl)⟩
  · by_contra begins
    rw [Bool.not_eq_false] at begins
    exact apart (factOf first) ⟨belongs_iff.mpr (.inl rfl), belongs_iff.mpr (.inr ⟨q, theirs, begins⟩)⟩
  · by_contra begins
    rw [Bool.not_eq_false] at begins
    exact apart (factOf p) ⟨belongs_iff.mpr (.inr ⟨p, mine, self p⟩), belongs_iff.mpr (.inr ⟨q, theirs, begins⟩)⟩
  · by_contra begins
    rw [Bool.not_eq_false] at begins
    exact apart (factOf q) ⟨belongs_iff.mpr (.inr ⟨p, mine, begins⟩), belongs_iff.mpr (.inr ⟨q, theirs, self q⟩)⟩

/-- The fact under an identifier is there and not deleted. -/
def Alive (m : Memory) (id : String) : Prop := ∃ f, m.lookup id = some f ∧ f.deleted = false

variable {id : String}

theorem alive_modify (keeps : ∀ f, (h f).fact_id = f.fact_id) (alive : Alive m id)
    (gentle : target ≠ id ∨ ∀ f, (h f).deleted = f.deleted) : Alive (m.modify target h) id := by
  obtain ⟨f, found, live⟩ := alive
  have named := (lookup_some found).2
  have each := lookup_each (h := fun f => if f.fact_id = target then h f else f)
    (fun f => by split_ifs <;> simp [keeps]) m id
  refine ⟨if f.fact_id = target then h f else f, ?_, ?_⟩
  · exact each.trans (by rw [found]; rfl)
  · split_ifs with same
    · rcases gentle with other | deleted
      · exact absurd (same.symm.trans named) other
      · rw [deleted, live]
    · exact live

variable {s : FactStore}

theorem alive_delete (alive : Alive s.toMemory id) (tenant_hash : String) (other : fact_id ≠ id) (written : Bool) :
    Alive (s.delete tenant_hash fact_id written).1.toMemory id := by
  unfold FactStore.delete append_journal FactStore.change
  split_ifs
  · exact alive
  · exact alive_modify (fun _ => rfl) alive (.inl other)
  · exact alive_modify (fun _ => rfl) alive (.inl other)
  · exact alive

theorem alive_mark (alive : Alive s.toMemory id) (tenant_hash target successor : String)
    (written : Bool) : Alive (s.mark_superseded tenant_hash target successor written).1.toMemory id := by
  unfold mark_superseded append_journal FactStore.change
  split_ifs
  · exact alive
  · exact alive_modify (fun _ => rfl) alive (.inr fun _ => rfl)
  · exact alive_modify (fun _ => rfl) alive (.inr fun _ => rfl)
  · exact alive

theorem alive_insert (alive : Alive m id) (fact : Fact) : Alive (m.insert_fact_indexes fact) id := by
  obtain ⟨f, found, live⟩ := alive
  exact ⟨f, by rw [lookup_insert, found, Option.some_or], live⟩

theorem alive_store (alive : Alive s.toMemory id) (policy : PrivacyPolicy) (req : StoreFact)
    (stamp : Stamp) (written superseded : Bool) : Alive (s.store policy req stamp written superseded).1.toMemory id := by
  unfold FactStore.store
  dsimp only
  generalize s.build_fact (enforce_global policy req) stamp = fact
  have inserted : Alive ((s.change fun m => m.insert_fact_indexes fact).append_journal (.Store fact) written).toMemory id := by
    unfold append_journal
    split_ifs
    · exact alive_insert alive fact
    · exact alive_insert alive fact
  unfold supersede_prior_version
  cases fact.supersedes with
  | none => exact inserted
  | some prev_id => exact alive_mark inserted _ _ _ _

theorem wipeOne_others (policy : PrivacyPolicy) (tombstoneValue : String → String → Fact → String) (tenant_id : String)
    (other : taken.1.2.fact_id ≠ id) (alive : Alive state.1.toMemory id ∧ id ∉ state.2.1) :
    Alive (wipeOne policy tombstoneValue tenant_id state taken).1.toMemory id ∧
      id ∉ (wipeOne policy tombstoneValue tenant_id state taken).2.1 := by
  have deleted := alive_delete alive.1 taken.1.2.tenant_hash other taken.2.deleted_written
  unfold wipeOne
  dsimp only
  split_ifs
  · refine ⟨alive_store deleted _ _ _ _ _, ?_⟩
    rw [mem_append, mem_singleton, not_or]
    exact ⟨alive.2, Ne.symm other⟩
  · exact ⟨deleted, alive.2⟩

theorem mem_mirrored {facts : List Fact} {tenant_id : String} {taken : String × Fact} (member : taken ∈ mirrored facts tenant_id) :
    taken.2 ∈ facts ∧ fact_belongs_to_tenant taken.2 tenant_id = true := by
  obtain ⟨collection, _, inside⟩ := mem_flatMap.mp member
  obtain ⟨fact, there, rfl⟩ := mem_map.mp inside
  obtain ⟨here, conditions⟩ := mem_filter.mp (mem_filter.mp there).1
  simp at conditions
  exact ⟨here, conditions.1.2⟩

theorem offboard_keeps (nodup : s.ids.Nodup) (policy : PrivacyPolicy) (tombstoneValue : String → String → Fact → String)
    (tenant_id : String) (outcomes : Nat → WipeOutcome) (here : fact ∈ s.facts) (live : fact.deleted = false)
    (foreign : fact_belongs_to_tenant fact tenant_id = false) :
    Alive (offboard_tenant_mirror policy tombstoneValue s tenant_id outcomes).1.toMemory fact.fact_id ∧
      fact.fact_id ∉ (offboard_tenant_mirror policy tombstoneValue s tenant_id outcomes).2.1 := by
  unfold offboard_tenant_mirror
  have others : ∀ taken ∈ (mirrored s.facts tenant_id).zipIdx.map fun taken => (taken.1, outcomes taken.2),
      taken.1.2.fact_id ≠ fact.fact_id := by
    intro taken member same
    obtain ⟨numbered, there, rfl⟩ := mem_map.mp member
    obtain ⟨inside, belongs⟩ := mem_mirrored (fst_mem_of_mem_zipIdx there)
    rw [inj_on_of_nodup_map nodup inside here same, foreign] at belongs
    cases belongs
  generalize (mirrored s.facts tenant_id).zipIdx.map (fun taken => (taken.1, outcomes taken.2)) = all at others
  have start : Alive s.toMemory fact.fact_id ∧ fact.fact_id ∉ ([] : List String) :=
    ⟨⟨fact, lookup_of_mem nodup here, live⟩, not_mem_nil⟩
  suffices general : ∀ state : FactStore × List String × List String,
      Alive state.1.toMemory fact.fact_id ∧ fact.fact_id ∉ state.2.1 →
        Alive (all.foldl (wipeOne policy tombstoneValue tenant_id) state).1.toMemory fact.fact_id ∧
          fact.fact_id ∉ (all.foldl (wipeOne policy tombstoneValue tenant_id) state).2.1 from general (s, [], []) start
  induction all with
  | nil => exact fun state kept => kept
  | cons taken rest ih =>
    intro state kept
    exact ih (fun t later => others t (mem_cons_of_mem _ later)) _
      (wipeOne_others policy tombstoneValue tenant_id (others taken mem_cons_self) kept)

/-- Two tenants share nothing: no fact belongs to both, no page of the first has a record of a fact of the second, and wiping
the first deletes no fact of the second. -/
structure Separate (first second : String) : Prop where
  facts : ∀ fact, ¬ (fact_belongs_to_tenant fact first = true ∧ fact_belongs_to_tenant fact second = true)
  pages : ∀ (r : Rendering) (facts : List Fact) (collection : String) (cursor : Option String) (limit : Nat)
    (include_content : Bool) (page : SyncCollectionPage),
    tenant_collection_page r facts first collection cursor limit include_content = .ok page →
      ∀ record ∈ page.records, ∃ fact ∈ facts, record = record_from_fact r first fact collection include_content ∧
        fact_belongs_to_tenant fact second = false
  wipes : ∀ (policy : PrivacyPolicy) (tombstoneValue : String → String → Fact → String) (s : FactStore)
    (outcomes : Nat → WipeOutcome), s.ids.Nodup → ∀ fact ∈ s.facts, fact.deleted = false →
      fact_belongs_to_tenant fact second = true →
        Alive (offboard_tenant_mirror policy tombstoneValue s first outcomes).1.toMemory fact.fact_id ∧
          fact.fact_id ∉ (offboard_tenant_mirror policy tombstoneValue s first outcomes).2.1

/-- Two tenants are separate exactly when no name or prefix of the one begins with a prefix of the other. -/
theorem separate_iff {first second : String} (differ : first ≠ second) : Separate first second ↔ NoOverlap first second := by
  constructor
  · intro separate
    exact noOverlap_of_not_both separate.facts
  · intro apart
    have not_both := not_both_of_noOverlap differ apart
    refine ⟨not_both, ?_, ?_⟩
    · intro r facts collection cursor limit include_content page given record member
      obtain ⟨fact, inside, same⟩ := record_of_page r given member
      obtain ⟨mine, _⟩ := mem_filter.mp inside
      obtain ⟨mine, _⟩ := mem_filter.mp mine
      obtain ⟨here, belongs⟩ := mem_filter.mp mine
      refine ⟨fact, here, same, ?_⟩
      by_contra theirs
      exact not_both fact ⟨belongs, by simpa using theirs⟩
    · intro policy tombstoneValue s outcomes nodup fact here live theirs
      refine offboard_keeps nodup policy tombstoneValue first outcomes here live ?_
      by_contra mine
      exact not_both fact ⟨by simpa using mine, theirs⟩

theorem separate_acme_bolt : Separate "acme" "bolt" := (separate_iff (by decide)).mpr (by decide +kernel)

/-- The mirror of the tenant `acme` is wiped, and a synced fact of the tenant `acme:eu` goes with it. -/
theorem tenants_overlap :
    fact_belongs_to_tenant (factOf "acme:eu::note") "acme" = true ∧
      fact_belongs_to_tenant (factOf "acme:eu::note") "acme:eu" = true ∧
      (offboard_tenant_mirror ⟨[], []⟩ (fun _ _ _ => "") { facts := [factOf "acme:eu::note"] } "acme"
        fun _ => ⟨true, ⟨"t", 1⟩, true, true⟩).2.1 = ["f"] := by
  decide +kernel

end Crux.Facts.Sync
