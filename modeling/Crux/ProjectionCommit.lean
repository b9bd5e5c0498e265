import Crux.ColdLoad

/-!
# Commits and loads

`Committed` says that the files of a store are those of its last commit. A
commit brings this about (`commit_holds`), whether it writes the cold files anew
(`update_full`) or only for the artifacts that were touched (`update_touched`).
`load_exact` and `load_restores` say what a load makes of such files, the first
one also when they were tampered with.
-/

namespace Crux.Projections
open Crux.Bytes Crux.Segment SortedMap

/-- What comes back of the tables: entities are not kept, and a receipt id of zeros is read as none. -/
def ProjectionState.reopened (s : ProjectionState) : ProjectionState :=
  { living := s.living, relations := s.relations, dependents := s.dependents
    pressure := s.pressure.mapValues PressureEventRowV1.stored }

def ProjectionStoreV1.cursor (store : ProjectionStoreV1) : Option ProjectionCursorV1 :=
  store.projections_meta.artifact_living_state.cursor

/-- What a load may hash of the directory: the snapshot files, and segments and blocks of them. -/
inductive Disk.Holds (disk : Disk) : Bytes → Prop
  | living {f : Bytes} (found : disk.living_snapshot = some f) : disk.Holds f
  | relations {f : Bytes} (found : disk.relations_snapshot = some f) : disk.Holds f
  | pressure {f : Bytes} (found : disk.pressure_snapshot = some f) : disk.Holds f
  | dependents {f : Bytes} (found : disk.dependents_snapshot = some f) : disk.Holds f
  | relation_part {f x : Bytes} {s : Digest} (found : disk.cold_relations.segments.get s = some f) (part : x <:+: f) : disk.Holds x
  | dependent_part {f x : Bytes} {s : Digest} (found : disk.cold_dependents.segments.get s = some f) (part : x <:+: f) : disk.Holds x

/-- The length of a file is a 64-bit number. -/
def Disk.Sized (disk : Disk) : Prop := ∀ x, disk.Holds x → x.length < 2 ^ 64

section
variable (crypto : Primitives) (strings : Set Bytes)

/-- A snapshot file is there, and the meta file declares its hash. -/
def Filed (declared : ProjectionMetaV1) (file : Option Bytes) (content : Except CcxsnapError Bytes) : Prop :=
  ∃ bytes, content = .ok bytes ∧ file = some bytes ∧ declared.snapshot_blake3 = some (crypto.blake3 bytes)

/-- The cold files hold a table, and its snapshot lists them. -/
structure ColdFiled {K E : Type} [LinearOrder K] (table : EdgeTable K E) (id : CcxsnapProjectionId) (store : ProjectionStoreV1)
    (edges : SortedMap K E) (cold : ColdTables) (declared : ProjectionMetaV1) (file : Option Bytes)
    (segments : SortedMap Digest Bytes) (known : Set Blocks) : Prop where
  holds : ColdHolds crypto table strings edges cold segments known
  version : declared.schema_version = 3
  filed : ∃ dir, Reached crypto known cold.hot_ptrs dir ∧
    Filed crypto declared file (coldFile crypto store store.cursor id cold.hot_ptrs dir)

/-- The files are those of the last commit of the store. -/
structure Committed (store : ProjectionStoreV1) (disk : Disk) (known_relations known_dependents : Set Blocks) : Prop where
  declared : disk.meta_file = some store.projections_meta
  living : Filed crypto store.projections_meta.artifact_living_state disk.living_snapshot (livingFile crypto store store.cursor)
  pressure : Filed crypto store.projections_meta.pressure_events disk.pressure_snapshot (pressureFile crypto store store.cursor)
  relations : ColdFiled crypto strings relationTable .ArtifactRelations store store.state.relations store.relations
    store.projections_meta.artifact_relations disk.relations_snapshot disk.cold_relations.segments known_relations
  dependents : ColdFiled crypto strings dependentTable .ArtifactDependents store store.state.dependents store.dependents
    store.projections_meta.artifact_dependents disk.dependents_snapshot disk.cold_dependents.segments known_dependents

end

variable {crypto : Primitives} {strings : Set Bytes}

section
variable {K E : Type} [LinearOrder K] {table : EdgeTable K E} {edges : SortedMap K E} {schema_version : Nat} {cold : ColdTables}
  {segments : SortedMap Digest Bytes}

variable {touched : Option (List ArtifactKey)}

theorem outside_coldKeys (anew : schema_version < 3 ∨ touched = none)
    (outside : a ∉ coldKeys table edges cold.hot_ptrs schema_version touched) :
    table.block edges a = [] ∧ cold.hot_ptrs.get a = none := by
  have keys : coldKeys table edges cold.hot_ptrs schema_version touched =
      SortedMap.sortedKeys (edges.keys.map table.owner ++ cold.hot_ptrs.keys) := by
    rcases anew with older | rfl
    · cases touched with
      | none => rfl
      | some keys => exact if_pos older
    · rfl
  rw [keys, mem_sortedKeys, List.mem_append, not_or] at outside
  constructor
  · by_contra some_edge
    obtain ⟨k, e, found, own⟩ := table.block_ne_nil.mp some_edge
    exact outside.1 (own ▸ List.mem_map_of_mem (mem_keys.mpr ⟨e, found⟩))
  · by_contra some_ptr
    obtain ⟨ptr, found⟩ := Option.ne_none_iff_exists'.mp some_ptr
    exact outside.2 (mem_keys.mpr ⟨ptr, found⟩)

theorem update_full (free : CollisionFree crypto strings)
    (anew : schema_version < 3 ∨ touched = none) (named : Named crypto strings segments)
    (blocks : ∀ a, table.block edges a ∈ strings)
    (new : ∀ p ∈ newSegments crypto table edges schema_version touched cold, segmentBytes p ∈ strings) :
    ColdHolds crypto table strings edges (update_cold_blocks crypto table edges schema_version touched cold segments).1
      (update_cold_blocks crypto table edges schema_version touched cold segments).2
      { p | p ∈ newSegments crypto table edges schema_version touched cold } := by
  have base : coldBase cold schema_version touched = { hot_ptrs := cold.hot_ptrs } := by rw [coldBase, if_pos anew]
  have others : ∀ a, a ∉ coldKeys table edges cold.hot_ptrs schema_version touched →
      cold.hot_ptrs.get a = pointerOf crypto table edges a ∧ Located crypto table ∅ edges a := by
    intro a outside
    obtain ⟨none, no_ptr⟩ := outside_coldKeys anew outside
    refine ⟨?_, fun some_edge => absurd none some_edge⟩
    rw [pointerOf, if_pos none, no_ptr]
  have holds := @update_cold_holds crypto strings K E _ table edges segments free schema_version touched cold ∅
    (base ▸ Layout.none _) Pieces.none (fun p member => absurd member (by simp)) named others blocks new
  rwa [Set.empty_union] at holds

theorem update_touched (free : CollisionFree crypto strings) {touched : List ArtifactKey} (version : schema_version = 3)
    {old : SortedMap K E} (holds : ColdHolds crypto table strings old cold segments known)
    (same : ∀ a, a ∉ touched → table.block edges a = table.block old a) (blocks : ∀ a, table.block edges a ∈ strings)
    (new : ∀ p ∈ newSegments crypto table edges schema_version (some touched) cold, segmentBytes p ∈ strings) :
    ColdHolds crypto table strings edges (update_cold_blocks crypto table edges schema_version (some touched) cold segments).1
      (update_cold_blocks crypto table edges schema_version (some touched) cold segments).2
      (known ∪ { p | p ∈ newSegments crypto table edges schema_version (some touched) cold }) := by
  subst version
  have base : coldBase cold 3 (some touched) = cold := by simp [coldBase]
  refine update_cold_holds free (base.symm ▸ holds.layout) holds.pieces holds.stored holds.named ?_ blocks new
  intro a outside
  have keys : coldKeys table edges cold.hot_ptrs 3 (some touched) = SortedMap.sortedKeys touched := by simp [coldKeys]
  rw [keys, mem_sortedKeys] at outside
  have kept := same a outside
  rw [holds.pointers, pointerOf, pointerOf, Located, kept]
  exact ⟨rfl, holds.located a⟩

end

theorem snapshotFile_ok (store : ProjectionStoreV1) (cursor : Option ProjectionCursorV1) (id : CcxsnapProjectionId)
    (version : UInt32) (blocks : List (UInt32 × Bytes)) : ∃ bytes, snapshotFile crypto store cursor id version blocks = .ok bytes :=
  ⟨_, by rw [snapshotFile, CcxsnapSnapshot.encode, if_neg fun other => other rfl]⟩

variable {store : ProjectionStoreV1} {cursor : Option ProjectionCursorV1}

/-- A commit succeeds when the cold files can be brought to hold the tables, and then the files are those of the store. -/
theorem commit_holds {disk : Disk} (cursor_after : Option ProjectionCursorV1)
    {touched_relations touched_dependents : Option (List ArtifactKey)} {known_relations known_dependents : Set Blocks}
    {relations dependents : ColdTables × SortedMap Digest Bytes}
    (relations_eq : update_relations_cold_blocks crypto store touched_relations disk.cold_relations.segments = relations)
    (dependents_eq : update_dependents_cold_blocks crypto store touched_dependents disk.cold_dependents.segments = dependents)
    (relations_hold : ColdHolds crypto relationTable strings store.state.relations relations.1 relations.2 known_relations)
    (dependents_hold : ColdHolds crypto dependentTable strings store.state.dependents dependents.1 dependents.2 known_dependents) :
    ∃ store' disk', commit crypto store disk cursor_after touched_relations touched_dependents = ⟨.ok (), store', disk'⟩ ∧
      Committed crypto strings store' disk' known_relations known_dependents ∧ store'.state = store.state ∧
      store'.cursor = cursor_after ∧ store'.shard_id = store.shard_id ∧ store'.epoch = store.epoch := by
  obtain ⟨relations_dir, relations_read, relations_reached⟩ := reach_holds relations_hold
  obtain ⟨dependents_dir, dependents_read, dependents_reached⟩ := reach_holds dependents_hold
  obtain ⟨living_bytes, living⟩ := @snapshotFile_ok crypto store cursor_after .ArtifactLivingState 1
    [(CCXSNAP_BLOCK_ROWS_V1, encode_living_rows_v1 store.state.living)]
  obtain ⟨pressure_bytes, pressure⟩ := @snapshotFile_ok crypto store cursor_after .PressureEvents 1
    [(CCXSNAP_BLOCK_EVENTS_V1, encode_pressure_rows_v1 store.state.pressure)]
  obtain ⟨relations_bytes, relations_file⟩ := @snapshotFile_ok crypto store cursor_after .ArtifactRelations 3
    [(CCXSNAP_BLOCK_HOT_PTRS_V1, encode_hot_ptrs_v1 relations.1.hot_ptrs),
     (CCXSNAP_BLOCK_COLD_SEGMENT_DIR_V1, encode_cold_segment_dir_v1 relations_dir)]
  obtain ⟨dependents_bytes, dependents_file⟩ := @snapshotFile_ok crypto store cursor_after .ArtifactDependents 3
    [(CCXSNAP_BLOCK_HOT_PTRS_V1, encode_hot_ptrs_v1 dependents.1.hot_ptrs),
     (CCXSNAP_BLOCK_COLD_SEGMENT_DIR_V1, encode_cold_segment_dir_v1 dependents_dir)]
  -- in the middle of the commit the files are those of the store it started from
  have living_here : livingFile crypto store cursor_after = .ok living_bytes := living
  have relations_here : coldFile crypto { store with relations := relations.1 } cursor_after .ArtifactRelations
      relations.1.hot_ptrs relations_dir = .ok relations_bytes := relations_file
  have pressure_here : pressureFile crypto { store with relations := relations.1 } cursor_after = .ok pressure_bytes := pressure
  have dependents_eq' : update_dependents_cold_blocks crypto { store with relations := relations.1 } touched_dependents
      disk.cold_dependents.segments = dependents := dependents_eq
  have dependents_here : coldFile crypto { store with relations := relations.1, dependents := dependents.1 } cursor_after
      .ArtifactDependents dependents.1.hot_ptrs dependents_dir = .ok dependents_bytes := dependents_file
  unfold commit
  simp only [living_here, relations_eq, relations_read, relations_here, pressure_here, dependents_eq', dependents_read,
    dependents_here]
  exact ⟨_, _, rfl, ⟨rfl, ⟨_, living, rfl, rfl⟩, ⟨_, pressure, rfl, rfl⟩,
    ⟨relations_hold, rfl, relations_dir, relations_reached, _, relations_file, rfl, rfl⟩,
    ⟨dependents_hold, rfl, dependents_dir, dependents_reached, _, dependents_file, rfl, rfl⟩⟩, rfl, rfl, rfl, rfl⟩

theorem decode_snapshotFile {id : CcxsnapProjectionId}
    (encoded : snapshotFile crypto store cursor id version blocks = .ok bytes) (few : blocks.length < 2 ^ 32)
    (sized : bytes.length < 2 ^ 64) : ∃ snap, CcxsnapSnapshot.decode crypto bytes = .ok snap ∧ snap.blocks = blocks := by
  refine ⟨_, CcxsnapSnapshot.decode_encode crypto encoded rfl few fun b member => ?_, rfl⟩
  rw [snapshotFile, CcxsnapSnapshot.encode, if_neg fun other => other rfl] at encoded
  cases encoded
  obtain ⟨front, back, split⟩ := List.append_of_mem member
  dsimp only at split
  simp [split, CcxsnapSnapshot.encodeBlock] at sized
  omega

theorem loadSnapshot_ok {α : Type} (free : CollisionFree crypto strings) {declared : ProjectionMetaV1}
    (hash : declared.snapshot_blake3 = some (crypto.blake3 bytes)) (inside : bytes ∈ strings)
    (decoded : CcxsnapSnapshot.decode crypto bytes = .ok snap) (files : ∀ f, file = some f → f ∈ strings)
    {read : CcxsnapSnapshot → Except LoadError α} {x : Option α} :
    loadSnapshot crypto declared.snapshot_blake3 file read = .ok x ↔ file = some bytes ∧ ∃ a, read snap = .ok a ∧ x = some a := by
  rw [hash]
  cases file with
  | none => simp [loadSnapshot]
  | some f =>
    by_cases same : crypto.blake3 f = crypto.blake3 bytes
    · have equal := free f (files f rfl) bytes inside same
      subst equal
      simp [loadSnapshot, decoded]
      cases read snap with
      | error e => simp [Except.map]
      | ok a => simp [Except.map, eq_comm]
    · have other : f ≠ bytes := fun equal => same (equal ▸ rfl)
      simp [loadSnapshot, same, other]

theorem loadRows_ok (free : CollisionFree crypto strings) {id : CcxsnapProjectionId} {version block_type : UInt32} {K V : Type}
    [LinearOrder K] {codec : RowCodec K V} {rows rows' : SortedMap K V}
    (back : decodeRows codec (encodeRows codec rows) = .ok rows')
    (filed : Filed crypto declared file (snapshotFile crypto store cursor id version [(block_type, encodeRows codec rows)]))
    (own : ∀ f, file = some f → f ∈ strings ∧ f.length < 2 ^ 64) (files : ∀ f, file' = some f → f ∈ strings)
    {x : Option (SortedMap K V)} :
    loadSnapshot crypto declared.snapshot_blake3 file' (loadRows codec block_type) = .ok x ↔ file' = file ∧ x = some rows' := by
  obtain ⟨bytes, content, rfl, hash⟩ := filed
  obtain ⟨inside, sized⟩ := own bytes rfl
  obtain ⟨snap, decoded, blocks⟩ := decode_snapshotFile content (by simp) sized
  have loaded : loadRows codec block_type snap = .ok rows' := by
    have block : blockOf snap block_type = .ok (encodeRows codec rows) := by simp [blockOf, CcxsnapSnapshot.block, blocks]
    rw [loadRows, block, ok_bind, back]
    rfl
  rw [loadSnapshot_ok free hash inside decoded files, loaded]
  simp

section
variable {K E : Type} [LinearOrder K] {table : EdgeTable K E} {id : CcxsnapProjectionId} {store : ProjectionStoreV1}
  {edges : SortedMap K E} {cold : ColdTables} {declared : ProjectionMetaV1} {file file' : Option Bytes}
  {segments : SortedMap Digest Bytes} {known : Set Blocks} {dir : ColdDir} (name : String)

theorem loadCold_filed (free : CollisionFree crypto strings)
    (filed : ColdFiled crypto strings table id store edges cold declared file segments known)
    (own : ∀ f, file = some f → f ∈ strings ∧ f.length < 2 ^ 64) (files : ∀ f, file' = some f → f ∈ strings)
    (parts : ∀ s file, dir.segments.get s = some file → ∀ x, x <:+: file → x ∈ strings) :
    (∀ x, loadSnapshot crypto declared.snapshot_blake3 file' (loadCold crypto table name declared.schema_version dir) = .ok x →
      file' = file ∧ ∃ loaded, x = some loaded ∧ Opened crypto table edges known cold.hot_ptrs dir.segments loaded) ∧
    (file' = file → Stored crypto dir.segments (Pointed known cold.hot_ptrs) → (∀ a, (table.block edges a).length < 2 ^ 32) →
      ∃ cold, loadSnapshot crypto declared.snapshot_blake3 file' (loadCold crypto table name declared.schema_version dir) =
        .ok (some (cold, edges))) := by
  obtain ⟨listed, reached, bytes, content, rfl, hash⟩ := filed.filed
  have kept : ColdSnapshot crypto table strings edges known cold.hot_ptrs listed :=
    ⟨filed.holds.pointers, filed.holds.located, filed.holds.pieces, reached⟩
  obtain ⟨inside, sized⟩ := own bytes rfl
  obtain ⟨snap, decoded, blocks⟩ := decode_snapshotFile content (by simp) sized
  rw [filed.version]
  constructor
  · intro x loaded
    obtain ⟨same, a, opened, rfl⟩ := (loadSnapshot_ok free hash inside decoded files).mp loaded
    exact ⟨same, a, rfl, loadCold_exact name free kept blocks parts opened⟩
  · intro same stored small
    obtain ⟨cold', opened⟩ := @loadCold_restores crypto strings K E _ table edges known cold.hot_ptrs listed snap dir.segments
      dir.blocks name free kept blocks parts stored small
    exact ⟨cold', (loadSnapshot_ok free hash inside decoded files).mpr ⟨same, _, opened, rfl⟩⟩

end

section
variable {store : ProjectionStoreV1} {disk disk' : Disk} {known_relations known_dependents : Set Blocks}

section
variable (free : CollisionFree crypto strings)
  (committed : Committed crypto strings store disk known_relations known_dependents) (sized : disk.Sized)
  (own : ∀ x, disk.Holds x → x ∈ strings)
include free committed sized own

section
variable (same : disk'.meta_file = disk.meta_file) (parts : ∀ x, disk'.Holds x → x ∈ strings)
include same parts

theorem loads : disk'.meta_file.getD {} = store.projections_meta ∧
    (∀ x, loadedLiving crypto disk' = .ok x ↔ disk'.living_snapshot = disk.living_snapshot ∧ x = some store.state.living) ∧
    (∀ x, loadedPressure crypto disk' = .ok x ↔
      disk'.pressure_snapshot = disk.pressure_snapshot ∧ x = some store.state.reopened.pressure) := by
  have declared : disk'.meta_file.getD {} = store.projections_meta := by rw [same, committed.declared]; rfl
  have living := decode_encode_rows_id livingRows fun e (_ : e ∈ store.state.living.entries) => livingRows_back e.1 e.2
  have pressure := decode_encode_rows pressureRows PressureEventRowV1.stored
    fun e (_ : e ∈ store.state.pressure.entries) => pressureRows_back e.1 e.2
  refine ⟨declared, fun x => ?_, fun x => ?_⟩
  · unfold loadedLiving
    rw [declared]
    exact loadRows_ok free living committed.living (fun f found => ⟨own f (.living found), sized f (.living found)⟩)
      fun f found => parts f (.living found)
  · unfold loadedPressure
    rw [declared]
    exact loadRows_ok free pressure committed.pressure
      (fun f found => ⟨own f (.pressure found), sized f (.pressure found)⟩)
      fun f found => parts f (.pressure found)

/-- Whatever was done to the files, a load gives the tables as they were committed, as far as they come back, or fails. -/
theorem load_exact (ok : loadTables crypto disk' store.shard_id store.epoch = .ok loaded) :
    ∃ relations dependents, loaded = { store with
        state := store.state.reopened, relations := relations.1, dependents := dependents.1 } ∧
      Opened crypto relationTable store.state.relations known_relations store.relations.hot_ptrs disk'.cold_relations.segments
        relations ∧
      Opened crypto dependentTable store.state.dependents known_dependents store.dependents.hot_ptrs
        disk'.cold_dependents.segments dependents := by
  obtain ⟨declared, living, pressure⟩ := loads free committed sized own same parts
  obtain ⟨_, living_ok, ok⟩ := bind_ok_iff.mp ok
  obtain ⟨_, relations_ok, ok⟩ := bind_ok_iff.mp ok
  obtain ⟨_, dependents_ok, ok⟩ := bind_ok_iff.mp ok
  obtain ⟨_, pressure_ok, ok⟩ := bind_ok_iff.mp ok
  obtain ⟨_, rfl⟩ := (living _).mp living_ok
  obtain ⟨_, rfl⟩ := (pressure _).mp pressure_ok
  unfold loadedRelations at relations_ok
  unfold loadedDependents at dependents_ok
  rw [declared] at relations_ok dependents_ok ok
  obtain ⟨_, relations, rfl, relations_opened⟩ := (loadCold_filed "relations" free committed.relations
    (fun f found => ⟨own f (.relations found), sized f (.relations found)⟩)
    (fun f found => parts f (.relations found))
    fun s f found x part => parts x (.relation_part found part)).1 _ relations_ok
  obtain ⟨_, dependents, rfl, dependents_opened⟩ := (loadCold_filed "dependents" free committed.dependents
    (fun f found => ⟨own f (.dependents found), sized f (.dependents found)⟩)
    (fun f found => parts f (.dependents found))
    fun s f found x part => parts x (.dependent_part found part)).1 _ dependents_ok
  refine ⟨relations, dependents, ?_, relations_opened, dependents_opened⟩
  cases ok
  simp [ProjectionState.reopened, relations_opened.same, dependents_opened.same]

end

/-- The files as they were committed are loaded, unless a block has 2^32 bytes or more. -/
theorem load_restores (small_relations : ∀ a, (relationTable.block store.state.relations a).length < 2 ^ 32)
    (small_dependents : ∀ a, (dependentTable.block store.state.dependents a).length < 2 ^ 32) :
    ∃ loaded, loadTables crypto disk store.shard_id store.epoch = .ok loaded := by
  obtain ⟨declared, living, pressure⟩ := loads free committed sized own rfl own
  obtain ⟨relations, relations_ok⟩ := (loadCold_filed "relations" free committed.relations
    (fun f found => ⟨own f (.relations found), sized f (.relations found)⟩)
    (fun f found => own f (.relations found))
    fun s f found x part => own x (.relation_part found part)).2 rfl
    (fun p member => committed.relations.holds.stored p member.1) small_relations
  obtain ⟨dependents, dependents_ok⟩ := (loadCold_filed "dependents" free committed.dependents
    (fun f found => ⟨own f (.dependents found), sized f (.dependents found)⟩)
    (fun f found => own f (.dependents found))
    fun s f found x part => own x (.dependent_part found part)).2 rfl
    (fun p member => committed.dependents.holds.stored p member.1) small_dependents
  unfold loadTables loadedRelations loadedDependents
  rw [(living _).mpr ⟨rfl, rfl⟩, ok_bind, declared, relations_ok, ok_bind, dependents_ok, ok_bind, (pressure _).mpr ⟨rfl, rfl⟩,
    ok_bind]
  exact ⟨_, rfl⟩

end

end

theorem refusal_bind {α β : Type} {x : Except LoadError α} {f : α → Except LoadError β} (first : refusal x = none)
    (later : ∀ a, refusal (f a) = none) : refusal (x >>= f) = none := by
  cases x with
  | error e =>
    cases e with
    | NotOk => rfl
    | Refused r => cases first
  | ok a => exact later a

theorem refusal_orNotOk {α : Type} (x : Res α) : refusal (orNotOk x) = none := by cases x <;> rfl

theorem refusal_blockOf (snap : CcxsnapSnapshot) (block_type : UInt32) : refusal (blockOf snap block_type) = none := by
  unfold blockOf
  split <;> rfl

theorem refusal_loadCold {K E : Type} [LinearOrder K] (table : EdgeTable K E) (name : String) (declared : Option Digest)
    (file : Option Bytes) (dir : ColdDir) : refusal (loadSnapshot crypto declared file (loadCold crypto table name 3 dir)) = none := by
  have read : ∀ snap, refusal (loadCold crypto table name 3 dir snap) = none := fun snap =>
    refusal_bind (refusal_blockOf _ _) fun _ => refusal_bind (refusal_blockOf _ _) fun _ => refusal_bind (refusal_orNotOk _)
      fun _ => refusal_bind (refusal_orNotOk _) fun _ => refusal_bind (refusal_orNotOk _) fun _ =>
        refusal_bind (refusal_orNotOk _) fun _ => rfl
  unfold loadSnapshot
  split
  · rfl
  · split
    · rfl
    · split_ifs
      · split
        · exact refusal_bind (f := fun a => .ok (some a)) (read _) fun _ => rfl
        · rfl
      · rfl

theorem load_or_init_eq {disk : Disk} (relations : (disk.meta_file.getD {}).artifact_relations.schema_version = 3)
    (dependents : (disk.meta_file.getD {}).artifact_dependents.schema_version = 3) (shard_id : UInt32) (epoch : UInt64) :
    load_or_init crypto disk shard_id epoch =
      .ok ((loadTables crypto disk shard_id epoch).toOption.getD (genesis shard_id epoch)) := by
  have first : refusal (loadedRelations crypto disk) = none := by
    unfold loadedRelations
    rw [relations]
    exact refusal_loadCold _ _ _ _ _
  have second : refusal (loadedDependents crypto disk) = none := by
    unfold loadedDependents
    rw [dependents]
    exact refusal_loadCold _ _ _ _ _
  unfold load_or_init
  rw [first, second]
  cases loadTables crypto disk shard_id epoch <;> rfl

end Crux.Projections
