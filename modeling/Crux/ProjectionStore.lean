import Crux.ColdSegments
import Crux.ProjectionLog

/-!
# The projection store

`corecrux-projections/src/runner.rs`: the store folds the sealed log into its
tables batch by batch, commits them as four snapshot files with a meta file that
names their hashes, opens itself again from those files, rebuilds itself from
the start of the log, and collects cold segments that no snapshot refers to.

Relations and dependents are kept in the same way and share their definitions,
over an `EdgeTable`. What the store makes of a frame is a parameter
(`FrameReader`). Each file is written at once, and no write fails. The meta file
is kept as the record it holds, without its time stamp and module registry.
-/

namespace Crux.Projections
open Crux.Bytes Crux.Segment Crux.Storage

structure ProjectionCursorV1 where
  shard_id : UInt32
  epoch : UInt64
  segment_seq : UInt64
  offset : Nat
deriving DecidableEq

structure ProjectionMetaV1 where
  schema_version : Nat := 1
  cursor : Option ProjectionCursorV1 := none
  snapshot_blake3 : Option Digest := none
  row_count : Nat := 0
deriving DecidableEq

structure ProjectionsMetaV1 where
  commit_id : Nat := 0
  artifact_living_state : ProjectionMetaV1 := {}
  artifact_relations : ProjectionMetaV1 := {}
  pressure_events : ProjectionMetaV1 := {}
  artifact_dependents : ProjectionMetaV1 := {}
deriving DecidableEq

/-- The cold files of a table by their hashes: single blocks, as older versions wrote them, and segments. -/
structure ColdDir where
  blocks : SortedMap Digest Bytes := .empty
  segments : SortedMap Digest Bytes := .empty
deriving DecidableEq

/-- The directory of a shard's projections. -/
structure Disk where
  meta_file : Option ProjectionsMetaV1 := none
  living_snapshot : Option Bytes := none
  relations_snapshot : Option Bytes := none
  pressure_snapshot : Option Bytes := none
  dependents_snapshot : Option Bytes := none
  cold_relations : ColdDir := {}
  cold_dependents : ColdDir := {}
deriving DecidableEq

/-- What the store keeps of the cold files of a table: the pointers of the artifacts, the segments with their lengths, and
where each block is. -/
structure ColdTables where
  hot_ptrs : SortedMap ArtifactKey HotPtrEntryV1 := .empty
  cold_segments : SortedMap Digest UInt64 := .empty
  block_locs : SortedMap Digest ColdBlockLocV1 := .empty
deriving DecidableEq

structure ProjectionStoreV1 where
  shard_id : UInt32
  epoch : UInt64
  projections_meta : ProjectionsMetaV1 := {}
  state : ProjectionState := {}
  relations : ColdTables := {}
  dependents : ColdTables := {}
deriving DecidableEq

/-- The tenant and event of a frame, if it holds an event of the projections. -/
abbrev FrameReader := Bytes → Res (Option (UInt64 × ProjectionEventV1))

section
variable (crypto : Primitives)

section
variable {K E : Type} [LinearOrder K] (table : EdgeTable K E)

/-- The edges of all pointers, each block fetched and checked. -/
def loadEdges (fetch : HotPtrEntryV1 → Res Bytes) : List (ArtifactKey × HotPtrEntryV1) → SortedMap K E → Res (SortedMap K E)
  | [], out => .ok out
  | (key, p) :: rest, out => do
    let bytes ← fetch p
    let decoded ← decodeRows table.codec bytes
    ensure (∀ e ∈ decoded.entries, table.owner e.1 = key) (.InvalidEvent table.wrong_keys)
    loadEdges fetch rest (out.insertAll decoded.entries)

def fetchBlock (blocks : SortedMap Digest Bytes) (p : HotPtrEntryV1) : Res Bytes := do
  let bytes ← openFile (blocks.get p.blake3)
  ensure (bytes.length = p.block_len.toNat) (.InvalidEvent "cold block length mismatch")
  ensure (crypto.blake3 bytes = p.blake3) (.InvalidEvent "cold block hash mismatch")
  return bytes

/-- A location that must be known. -/
def locOf (locs : SortedMap Digest ColdBlockLocV1) (p : HotPtrEntryV1) : Res ColdBlockLocV1 :=
  match locs.get p.blake3 with
  | some loc => .ok loc
  | none => .error (.InvalidEvent "hot ptr references missing cold block loc")

def fetchFromSegment (segments : SortedMap Digest Bytes) (locs : SortedMap Digest ColdBlockLocV1) (p : HotPtrEntryV1) :
    Res Bytes := do
  let loc ← locOf locs p
  ensure (loc.len = p.block_len) (.InvalidEvent "hot ptr block_len != cold block loc len")
  let bytes ← read_cold_segment_block_v1 (segments.get loc.segment_blake3) loc.offset loc.len
  ensure (crypto.blake3 bytes = p.blake3) (.InvalidEvent "cold block hash mismatch")
  return bytes

/-- `load_relations_from_cold_blocks` and `load_dependents_from_cold_blocks`. -/
def load_from_cold_blocks (blocks : SortedMap Digest Bytes) (ptrs : SortedMap ArtifactKey HotPtrEntryV1) : Res (SortedMap K E) :=
  loadEdges table (fetchBlock crypto blocks) ptrs.entries .empty

/-- `load_relations_from_cold_segments` and `load_dependents_from_cold_segments`. -/
def load_from_cold_segments (segments : SortedMap Digest Bytes) (ptrs : SortedMap ArtifactKey HotPtrEntryV1)
    (locs : SortedMap Digest ColdBlockLocV1) : Res (SortedMap K E) :=
  loadEdges table (fetchFromSegment crypto segments locs) ptrs.entries .empty

end

def locIn (segment_blake3 : Digest) (e : ColdSegmentIndexEntryV1) : ColdBlockLocV1 :=
  { segment_blake3 := segment_blake3, offset := e.offset, len := e.len, codec := e.codec }

/-- The blocks of one segment are entered, each of them new. -/
def enterLocs (segment_blake3 : Digest) :
    List ColdSegmentIndexEntryV1 → SortedMap Digest ColdBlockLocV1 → Res (SortedMap Digest ColdBlockLocV1)
  | [], locs => .ok locs
  | e :: rest, locs => do
    ensure (e.codec = 0) (.InvalidEvent s!"unsupported cold segment block codec {e.codec.toNat}")
    ensure (locs.get e.block_blake3 = none) (.InvalidEvent "cold segment index has duplicate block blake3")
    enterLocs segment_blake3 rest (locs.insert e.block_blake3 (locIn segment_blake3 e))

def enterSegments (segments : SortedMap Digest Bytes) :
    List ColdSegmentDirEntryV1 → SortedMap Digest UInt64 → SortedMap Digest ColdBlockLocV1 →
      Res (SortedMap Digest UInt64 × SortedMap Digest ColdBlockLocV1)
  | [], segs, locs => .ok (segs, locs)
  | e :: rest, segs, locs => do
    ensure (segs.get e.segment_blake3 = none) (.InvalidEvent "cold segment dir has duplicate segment id")
    let idx ← read_and_verify_cold_segment_index_v1 crypto (segments.get e.segment_blake3) e.segment_blake3 e.file_len
    let locs ← enterLocs e.segment_blake3 idx.2 locs
    enterSegments segments rest (segs.insert e.segment_blake3 e.file_len) locs

def load_cold_segment_indexes (segments : SortedMap Digest Bytes) (dir : List ColdSegmentDirEntryV1) :
    Res (SortedMap Digest UInt64 × SortedMap Digest ColdBlockLocV1) :=
  enterSegments crypto segments dir .empty .empty

/-- Why a snapshot is not taken: it is not what the meta file declares, or this version cannot read it. -/
inductive LoadError where
  | NotOk
  | Refused (e : ProjectionError)
deriving DecidableEq

/-- Anything wrong inside a declared snapshot. -/
def orNotOk {α : Type} : Res α → Except LoadError α
  | .ok a => .ok a
  | .error _ => .error .NotOk

def blockOf (snap : CcxsnapSnapshot) (block_type : UInt32) : Except LoadError Bytes :=
  match snap.block block_type with
  | some bytes => .ok bytes
  | none => .error .NotOk

/-- A snapshot that the meta file declares must be there and match its hash. -/
def loadSnapshot {α : Type} (declared : Option Digest) (file : Option Bytes) (read : CcxsnapSnapshot → Except LoadError α) :
    Except LoadError (Option α) :=
  match declared with
  | none => .ok none
  | some h =>
    match file with
    | none => .error .NotOk
    | some bytes =>
      if crypto.blake3 bytes = h then
        match CcxsnapSnapshot.decode crypto bytes with
        | .ok snap => (read snap).map some
        | .error _ => .error .NotOk
      else .error .NotOk

def loadRows {K V : Type} [LinearOrder K] (codec : RowCodec K V) (block_type : UInt32) (snap : CcxsnapSnapshot) :
    Except LoadError (SortedMap K V) := do
  let block ← blockOf snap block_type
  orNotOk (decodeRows codec block)

/-- The table of a snapshot by the version of its layout, with the pointers and segments it refers to. -/
def loadCold {K E : Type} [LinearOrder K] (table : EdgeTable K E) (name : String) (schema_version : Nat) (dir : ColdDir)
    (snap : CcxsnapSnapshot) : Except LoadError (ColdTables × SortedMap K E) :=
  match schema_version with
  | 1 => do
    let edges ← loadRows table.codec CCXSNAP_BLOCK_EDGES_V1 snap
    return ({}, edges)
  | 2 => do
    let ptrs ← loadRows hotPtrs CCXSNAP_BLOCK_HOT_PTRS_V1 snap
    let edges ← orNotOk (load_from_cold_blocks crypto table dir.blocks ptrs)
    return ({ hot_ptrs := ptrs }, edges)
  | 3 => do
    let hot_block ← blockOf snap CCXSNAP_BLOCK_HOT_PTRS_V1
    let dir_block ← blockOf snap CCXSNAP_BLOCK_COLD_SEGMENT_DIR_V1
    let ptrs ← orNotOk (decode_hot_ptrs_v1 hot_block)
    let listed ← orNotOk (decode_cold_segment_dir_v1 dir_block)
    let maps ← orNotOk (load_cold_segment_indexes crypto dir.segments listed)
    let edges ← orNotOk (load_from_cold_segments crypto table dir.segments ptrs maps.2)
    return ({ hot_ptrs := ptrs, cold_segments := maps.1, block_locs := maps.2 }, edges)
  | other => .error (.Refused (.InvalidEvent s!"unsupported {name} schema_version {other}"))

section
variable (disk : Disk)

def loadedLiving : Except LoadError (Option (SortedMap ArtifactKey LivingStateRowV1)) :=
  loadSnapshot crypto (disk.meta_file.getD {}).artifact_living_state.snapshot_blake3 disk.living_snapshot
    (loadRows livingRows CCXSNAP_BLOCK_ROWS_V1)

def loadedRelations : Except LoadError (Option (ColdTables × SortedMap RelationKey RelationEdgeV1)) :=
  loadSnapshot crypto (disk.meta_file.getD {}).artifact_relations.snapshot_blake3 disk.relations_snapshot
    (loadCold crypto relationTable "relations" (disk.meta_file.getD {}).artifact_relations.schema_version disk.cold_relations)

def loadedDependents : Except LoadError (Option (ColdTables × SortedMap DependentKey DependentEdgeV1)) :=
  loadSnapshot crypto (disk.meta_file.getD {}).artifact_dependents.snapshot_blake3 disk.dependents_snapshot
    (loadCold crypto dependentTable "dependents" (disk.meta_file.getD {}).artifact_dependents.schema_version disk.cold_dependents)

def loadedPressure : Except LoadError (Option (SortedMap PressureKey PressureEventRowV1)) :=
  loadSnapshot crypto (disk.meta_file.getD {}).pressure_events.snapshot_blake3 disk.pressure_snapshot
    (loadRows pressureRows CCXSNAP_BLOCK_EVENTS_V1)

end

def refusal {α : Type} : Except LoadError α → Option ProjectionError
  | .error (.Refused e) => some e
  | _ => none

/-- The store of the snapshots that the meta file declares. -/
def loadTables (disk : Disk) (shard_id : UInt32) (epoch : UInt64) : Except LoadError ProjectionStoreV1 := do
  let living ← loadedLiving crypto disk
  let relations ← loadedRelations crypto disk
  let dependents ← loadedDependents crypto disk
  let pressure ← loadedPressure crypto disk
  let relations := relations.getD ({}, .empty)
  let dependents := dependents.getD ({}, .empty)
  return {
    shard_id := shard_id
    epoch := epoch
    projections_meta := disk.meta_file.getD {}
    state := {
      living := living.getD .empty, relations := relations.2, dependents := dependents.2, pressure := pressure.getD .empty }
    relations := relations.1
    dependents := dependents.1 }

/-- An empty store, whose next tick replays from the start of the log. -/
def genesis (shard_id : UInt32) (epoch : UInt64) : ProjectionStoreV1 := { shard_id := shard_id, epoch := epoch }

def load_or_init (disk : Disk) (shard_id : UInt32) (epoch : UInt64) : Res ProjectionStoreV1 :=
  match refusal (loadedRelations crypto disk), refusal (loadedDependents crypto disk) with
  | some e, _ => .error e
  | none, some e => .error e
  | none, none =>
    match loadTables crypto disk shard_id epoch with
    | .ok store => .ok store
    -- a snapshot that is missing or invalid resets meta and state together
    | .error _ => .ok (genesis shard_id epoch)

section
variable {K E : Type} [LinearOrder K] (table : EdgeTable K E)

/-- The pointer to a block. -/
def ptrTo (bytes : Bytes) : HotPtrEntryV1 :=
  { edge_count := UInt32.ofNat (bytes.length / table.codec.stride)
    block_len := UInt32.ofNat bytes.length
    codec := 0
    blake3 := crypto.blake3 bytes }

/-- The pointers after the artifacts have been gone through, and the blocks that are not on disk yet. -/
def pointBlocks (edges : SortedMap K E) (block_locs : SortedMap Digest ColdBlockLocV1) (keys : List ArtifactKey)
    (hot_ptrs : SortedMap ArtifactKey HotPtrEntryV1) : SortedMap ArtifactKey HotPtrEntryV1 × SortedMap Digest Bytes :=
  keys.foldl
    (fun acc key =>
      let bytes := table.block edges key
      if bytes = [] then (acc.1.remove key, acc.2)
      else
        let entry := ptrTo crypto table bytes
        (acc.1.insert key entry,
          if block_locs.contains entry.blake3 then acc.2 else acc.2.insert entry.blake3 bytes))
    (hot_ptrs, .empty)

/-- A segment under a name that is taken is not written again. -/
def ensure_cold_segment_written (segments : SortedMap Digest Bytes) (segment_blake3 : Digest) (bytes : Bytes) :
    SortedMap Digest Bytes :=
  if segments.contains segment_blake3 then segments else segments.insert segment_blake3 bytes

/-- One new segment is written and entered. -/
def flushSegment (acc : ColdTables × SortedMap Digest Bytes) (blocks : SortedMap Digest Bytes) :
    ColdTables × SortedMap Digest Bytes :=
  let (seg_bytes, seg_blake3, index_entries) := build_cold_segment_v1 crypto blocks
  ({ acc.1 with
      cold_segments := acc.1.cold_segments.insert seg_blake3 (UInt64.ofNat seg_bytes.length)
      block_locs := acc.1.block_locs.insertAll (index_entries.map fun e => (e.block_blake3, locIn seg_blake3 e)) },
    ensure_cold_segment_written acc.2 seg_blake3 seg_bytes)

def write_cold_segments_for_blocks (cold : ColdTables) (segments : SortedMap Digest Bytes) (blocks : SortedMap Digest Bytes) :
    ColdTables × SortedMap Digest Bytes :=
  (cutSegments .empty 0 blocks.entries).foldl (flushSegment crypto) (cold, segments)

/-- The artifacts to go through: all with edges or a pointer when everything is written anew, else the touched ones. -/
def coldKeys (edges : SortedMap K E) (hot_ptrs : SortedMap ArtifactKey HotPtrEntryV1) (schema_version : Nat)
    (touched : Option (List ArtifactKey)) : List ArtifactKey :=
  match touched with
  | some keys => if schema_version < 3 then SortedMap.sortedKeys (edges.keys.map table.owner ++ hot_ptrs.keys) else SortedMap.sortedKeys keys
  | none => SortedMap.sortedKeys (edges.keys.map table.owner ++ hot_ptrs.keys)

/-- What is known of the cold files at the start of a commit: nothing when everything is written anew. -/
def coldBase (cold : ColdTables) (schema_version : Nat) (touched : Option (List ArtifactKey)) : ColdTables :=
  if schema_version < 3 ∨ touched = none then { hot_ptrs := cold.hot_ptrs } else cold

/-- The pointers and segments of a table after a commit. -/
def update_cold_blocks (edges : SortedMap K E) (schema_version : Nat) (touched : Option (List ArtifactKey)) (cold : ColdTables)
    (segments : SortedMap Digest Bytes) : ColdTables × SortedMap Digest Bytes :=
  let keys := coldKeys table edges cold.hot_ptrs schema_version touched
  let cold := coldBase cold schema_version touched
  let (hot_ptrs, blocks_to_write) := pointBlocks crypto table edges cold.block_locs keys cold.hot_ptrs
  write_cold_segments_for_blocks crypto { cold with hot_ptrs := hot_ptrs } segments blocks_to_write

end

section
variable (store : ProjectionStoreV1) (touched : Option (List ArtifactKey)) (segments : SortedMap Digest Bytes)

def update_relations_cold_blocks : ColdTables × SortedMap Digest Bytes :=
  update_cold_blocks crypto relationTable store.state.relations store.projections_meta.artifact_relations.schema_version touched
    store.relations segments

def update_dependents_cold_blocks : ColdTables × SortedMap Digest Bytes :=
  update_cold_blocks crypto dependentTable store.state.dependents store.projections_meta.artifact_dependents.schema_version touched
    store.dependents segments

end

/-- The segment of a pointer, which must be known with its length. -/
def segmentOf (cold : ColdTables) (p : HotPtrEntryV1) : Res (Digest × UInt64) :=
  match cold.block_locs.get p.blake3 with
  | none => .error (.InvalidEvent "hot ptr references missing cold block location")
  | some loc =>
    match cold.cold_segments.get loc.segment_blake3 with
    | none => .error (.InvalidEvent "cold block location references missing cold segment")
    | some file_len => .ok (loc.segment_blake3, file_len)

def reachSegments (cold : ColdTables) : List HotPtrEntryV1 → SortedMap Digest UInt64 → Res (SortedMap Digest UInt64)
  | [], out => .ok out
  | p :: rest, out => do
    let seg ← segmentOf cold p
    reachSegments cold rest (out.insert seg.1 seg.2)

def build_reachable_segment_dir (cold : ColdTables) : Res (SortedMap Digest UInt64) :=
  reachSegments cold cold.hot_ptrs.values .empty

/-- What a call returns and what it leaves behind, also when it fails. -/
structure Outcome (α : Type) where
  result : Res α
  store : ProjectionStoreV1
  disk : Disk

section
variable (store : ProjectionStoreV1) (cursor_after : Option ProjectionCursorV1)

/-- The file of a snapshot at a cursor. It holds no time of day. -/
def snapshotFile (projection_id : CcxsnapProjectionId)
    (schema_version : UInt32) (blocks : List (UInt32 × Bytes)) : Except CcxsnapError Bytes :=
  CcxsnapSnapshot.encode crypto
    { header :=
        { projection_id := projection_id
          schema_version := schema_version
          created_at_unix_ns := 0
          shard_id := store.shard_id
          epoch := store.epoch
          cursor_segment_seq := (cursor_after.map fun c => c.segment_seq).getD 0
          cursor_offset := UInt64.ofNat ((cursor_after.map fun c => c.offset).getD 0)
          block_count := UInt32.ofNat blocks.length
          codec := CCXSNAP_CODEC_NONE }
      blocks := blocks }

def livingFile : Except CcxsnapError Bytes :=
  snapshotFile crypto store cursor_after .ArtifactLivingState 1
    [(CCXSNAP_BLOCK_ROWS_V1, encode_living_rows_v1 store.state.living)]

def pressureFile : Except CcxsnapError Bytes :=
  snapshotFile crypto store cursor_after .PressureEvents 1
    [(CCXSNAP_BLOCK_EVENTS_V1, encode_pressure_rows_v1 store.state.pressure)]

/-- The file of a table in cold segments: its pointers and the segments they reach. -/
def coldFile (projection_id : CcxsnapProjectionId)
    (hot_ptrs : SortedMap ArtifactKey HotPtrEntryV1) (dir : SortedMap Digest UInt64) : Except CcxsnapError Bytes :=
  snapshotFile crypto store cursor_after projection_id 3
    [(CCXSNAP_BLOCK_HOT_PTRS_V1, encode_hot_ptrs_v1 hot_ptrs),
     (CCXSNAP_BLOCK_COLD_SEGMENT_DIR_V1, encode_cold_segment_dir_v1 dir)]

end

def committedMeta (schema_version : Nat) (cursor_after : Option ProjectionCursorV1) (bytes : Bytes) (row_count : Nat) :
    ProjectionMetaV1 :=
  { schema_version := schema_version, cursor := cursor_after, snapshot_blake3 := some (crypto.blake3 bytes), row_count := row_count }

def commit (store : ProjectionStoreV1) (disk : Disk) (cursor_after : Option ProjectionCursorV1)
    (touched_relations touched_dependents : Option (List ArtifactKey)) : Outcome Unit :=
  match livingFile crypto store cursor_after with
  | .error e => ⟨.error (.Snapshot e), store, disk⟩
  | .ok living_bytes =>
    let disk := { disk with living_snapshot := some living_bytes }
    let relations := update_relations_cold_blocks crypto store touched_relations disk.cold_relations.segments
    let store := { store with relations := relations.1 }
    let disk := { disk with cold_relations := { disk.cold_relations with segments := relations.2 } }
    match build_reachable_segment_dir store.relations with
    | .error e => ⟨.error e, store, disk⟩
    | .ok relations_seg_dir =>
      match coldFile crypto store cursor_after .ArtifactRelations store.relations.hot_ptrs relations_seg_dir with
      | .error e => ⟨.error (.Snapshot e), store, disk⟩
      | .ok relations_bytes =>
        let disk := { disk with relations_snapshot := some relations_bytes }
        match pressureFile crypto store cursor_after with
        | .error e => ⟨.error (.Snapshot e), store, disk⟩
        | .ok pressure_bytes =>
          let disk := { disk with pressure_snapshot := some pressure_bytes }
          let dependents := update_dependents_cold_blocks crypto store touched_dependents disk.cold_dependents.segments
          let store := { store with dependents := dependents.1 }
          let disk := { disk with cold_dependents := { disk.cold_dependents with segments := dependents.2 } }
          match build_reachable_segment_dir store.dependents with
          | .error e => ⟨.error e, store, disk⟩
          | .ok dependents_seg_dir =>
            match coldFile crypto store cursor_after .ArtifactDependents store.dependents.hot_ptrs dependents_seg_dir with
            | .error e => ⟨.error (.Snapshot e), store, disk⟩
            | .ok dependents_bytes =>
              let disk := { disk with dependents_snapshot := some dependents_bytes }
              let projections_meta : ProjectionsMetaV1 :=
                { commit_id := min (store.projections_meta.commit_id + 1) (2 ^ 64 - 1)
                  artifact_living_state := committedMeta crypto 1 cursor_after living_bytes store.state.living.size
                  artifact_relations := committedMeta crypto 3 cursor_after relations_bytes store.state.relations.size
                  pressure_events := committedMeta crypto 1 cursor_after pressure_bytes store.state.pressure.size
                  artifact_dependents := committedMeta crypto 3 cursor_after dependents_bytes store.state.dependents.size }
              ⟨.ok (), { store with projections_meta := projections_meta }, { disk with meta_file := some projections_meta }⟩

structure ProjectionCountsV1 where
  living_rows : Nat
  relations_edges : Nat
  dependents_edges : Nat
  pressure_rows : Nat
deriving DecidableEq

structure ProjectionsTickResultV1 where
  frames_processed : Nat
  cursor_before : Option ProjectionCursorV1
  cursor_after : Option ProjectionCursorV1
  commit_id : Nat
  state_counts : ProjectionCountsV1
deriving DecidableEq

def stateCounts (s : ProjectionState) : ProjectionCountsV1 :=
  { living_rows := s.living.size, relations_edges := s.relations.size, dependents_edges := s.dependents.size
    pressure_rows := s.pressure.size }

/-- The tables after some frames, with the artifacts whose edges were touched, and the error of the first frame that could
not be read. The frames before it have been applied. -/
structure Applied where
  state : ProjectionState
  touched_relations : List ArtifactKey := []
  touched_dependents : List ArtifactKey := []
  failed : Option ProjectionError := none

/-- The artifacts whose edges an event touches. -/
def touchedRelation (tenant_hash : UInt64) : ProjectionEventV1 → List ArtifactKey
  | .RelationUpsert p => [⟨tenant_hash, p.src_artifact_id⟩]
  | .RelationDelete p => [⟨tenant_hash, p.src_artifact_id⟩]
  | _ => []

def touchedDependent (tenant_hash : UInt64) : ProjectionEventV1 → List ArtifactKey
  | .DependentEvidenceUpsert p => [⟨tenant_hash, p.artifact_id⟩]
  | _ => []

def applyFrames (read : FrameReader) : List Bytes → Applied → Applied
  | [], acc => acc
  | frame :: rest, acc =>
    match read frame with
    | .error e => { acc with failed := some e }
    | .ok none => applyFrames read rest acc
    | .ok (some (tenant_hash, ev)) =>
      applyFrames read rest
        { acc with
          state := acc.state.apply crypto tenant_hash ev
          touched_relations := touchedRelation tenant_hash ev ++ acc.touched_relations
          touched_dependents := touchedDependent tenant_hash ev ++ acc.touched_dependents }

def ProjectionStoreV1.cursor_from_meta (store : ProjectionStoreV1) : Option ReplayCursor :=
  store.projections_meta.artifact_living_state.cursor.map fun c => ⟨c.segment_seq, c.offset⟩

def ProjectionStoreV1.cursor_v1_from_replay (store : ProjectionStoreV1) (c : ReplayCursor) : ProjectionCursorV1 :=
  { shard_id := store.shard_id, epoch := store.epoch, segment_seq := c.segment_seq, offset := c.offset }

def tick (read : FrameReader) (log : SealedLog) (store : ProjectionStoreV1) (disk : Disk) (max_frames : UInt32) :
    Outcome (Option ProjectionsTickResultV1) :=
  match log.replay_from_sealed store.cursor_from_meta max_frames with
  | .error e => ⟨.error e, store, disk⟩
  | .ok (frames, end_cursor) =>
    if frames = [] then ⟨.ok none, store, disk⟩
    else
      let applied := applyFrames crypto read (frames.map fun f => f.bytes) { state := store.state }
      match applied.failed with
      -- the events before the unreadable frame stay applied
      | some e => ⟨.error e, { store with state := applied.state }, disk⟩
      | none =>
        let cursor_before := store.projections_meta.artifact_living_state.cursor
        let store := { store with state := applied.state.recompute_derived_fields }
        let cursor_after := (end_cursor.or (infer_cursor_after_frames frames)).map store.cursor_v1_from_replay
        let out := commit crypto store disk cursor_after (some applied.touched_relations) (some applied.touched_dependents)
        { result := out.result.map fun _ => some
            { frames_processed := frames.length
              cursor_before := cursor_before
              cursor_after := cursor_after
              commit_id := out.store.projections_meta.commit_id
              state_counts := stateCounts out.store.state }
          store := out.store
          disk := out.disk }

/-- The batches of a rebuild, with the cursor and the number of frames so far. A batch reads at least one frame, so as many
rounds as there are frames, and one more, are enough (`rebuildBatches_all`). -/
def rebuildBatches (read : FrameReader) (log : SealedLog) (batch_frames : UInt32) :
    Nat → Option ReplayCursor → ProjectionState → Nat → Res (Option ReplayCursor × Nat) × ProjectionState
  | 0, cursor, state, total => (.ok (cursor, total), state)
  | rounds + 1, cursor, state, total =>
    match log.replay_from_sealed cursor batch_frames with
    | .error e => (.error e, state)
    | .ok (frames, end_cursor) =>
      if frames = [] then (.ok (cursor, total), state)
      else
        let applied := applyFrames crypto read (frames.map fun f => f.bytes) { state := state }
        match applied.failed with
        | some e => (.error e, applied.state)
        | none =>
          let cursor := end_cursor.or (infer_cursor_after_frames frames)
          if end_cursor = none then (.ok (cursor, total + frames.length), applied.state)
          else rebuildBatches read log batch_frames rounds cursor applied.state (total + frames.length)

def rebuild_from_genesis (read : FrameReader) (log : SealedLog) (store : ProjectionStoreV1) (disk : Disk) (batch_frames : UInt32) :
    Outcome ProjectionsTickResultV1 :=
  let store := genesis store.shard_id store.epoch
  match rebuildBatches crypto read log batch_frames (log.frames.length + 1) none store.state 0 with
  | (.error e, state) => ⟨.error e, { store with state := state }, disk⟩
  | (.ok (cursor, total_frames), state) =>
    let store := { store with state := state.recompute_derived_fields }
    let cursor_after := cursor.map store.cursor_v1_from_replay
    let out := commit crypto store disk cursor_after none none
    { result := out.result.map fun _ =>
        { frames_processed := total_frames
          cursor_before := none
          cursor_after := cursor_after
          commit_id := out.store.projections_meta.commit_id
          state_counts := stateCounts out.store.state }
      store := out.store
      disk := out.disk }

structure ColdSegmentGcOptionsV1 where
  dry_run : Bool
  min_age_seconds : Nat
  max_delete : Nat
deriving DecidableEq

/-- What a collection finds outside the store: the time, the order in which the directory lists its segments, and when each
file was last modified. -/
structure GcEnv where
  now : Nat
  listing : List Digest
  modified : Digest → Option Nat

structure ColdSegmentGcProjectionReportV1 where
  skipped : Bool := false
  reachable_segments : Nat := 0
  segments_on_disk : Nat := 0
  orphan_segments : Nat := 0
  deleted_segments : Nat := 0
  deleted_bytes : Nat := 0
  skipped_young_segments : Nat := 0
  kept_orphans_due_to_limit : Nat := 0
deriving DecidableEq

def orInvalid {α : Type} (x : Option α) (msg : String) : Res α :=
  match x with
  | some a => .ok a
  | none => .error (.InvalidEvent msg)

def reachable_cold_segments_from_snapshot_v1 (snapshot : Option Bytes) (schema_version : Nat) (expected : Option Digest) :
    Res (Option (SortedMap Digest UInt64)) :=
  if schema_version < 3 then .ok none
  else
    match expected with
    | none => .ok none
    | some expected => do
      let bytes ← orInvalid snapshot "snapshot missing but projections.meta.json has snapshotBlake3"
      ensure (crypto.blake3 bytes = expected) (.InvalidEvent "snapshot blake3 mismatch")
      let snap ← (CcxsnapSnapshot.decode crypto bytes).mapError .Snapshot
      let dir_block ← orInvalid (snap.block CCXSNAP_BLOCK_COLD_SEGMENT_DIR_V1) "snapshot missing cold segment dir block"
      let dir ← decode_cold_segment_dir_v1 dir_block
      return some (.ofList (dir.map fun e => (e.segment_blake3, e.file_len)))

/-- A file is too young when it was modified after the cutoff. -/
def isYoung (opts : ColdSegmentGcOptionsV1) (env : GcEnv) (segment : Digest) : Bool :=
  if opts.min_age_seconds = 0 ∨ env.now < opts.min_age_seconds then false
  else
    match env.modified segment with
    | some modified => decide (env.now - opts.min_age_seconds < modified)
    | none => false

/-- The state of a collection: the report, the files, and the segments taken for deleted. -/
structure Collected where
  report : ColdSegmentGcProjectionReportV1
  segments : SortedMap Digest Bytes
  deleted : List Digest

/-- One file of the directory. -/
def collectSegment (opts : ColdSegmentGcOptionsV1) (env : GcEnv) (reachable : SortedMap Digest UInt64) (acc : Collected)
    (segment : Digest) : Collected :=
  match acc.segments.get segment with
  | none => acc
  | some bytes =>
    let report := { acc.report with segments_on_disk := acc.report.segments_on_disk + 1 }
    if reachable.contains segment then { acc with report := report }
    else
      let report := { report with orphan_segments := report.orphan_segments + 1 }
      if isYoung opts env segment then
        { acc with report := { report with skipped_young_segments := report.skipped_young_segments + 1 } }
      else if opts.max_delete ≠ 0 ∧ opts.max_delete ≤ report.deleted_segments then
        { acc with report := { report with kept_orphans_due_to_limit := report.kept_orphans_due_to_limit + 1 } }
      else
        { report :=
            { report with
              deleted_segments := report.deleted_segments + 1, deleted_bytes := report.deleted_bytes + bytes.length }
          segments := if opts.dry_run then acc.segments else acc.segments.remove segment
          deleted := segment :: acc.deleted }

def gc_cold_segments_dir_v1 (segments : SortedMap Digest Bytes) (reachable : Option (SortedMap Digest UInt64))
    (opts : ColdSegmentGcOptionsV1) (env : GcEnv) : Collected :=
  match reachable with
  | none => { report := { skipped := true, segments_on_disk := segments.size }, segments := segments, deleted := [] }
  | some reachable =>
    env.listing.foldl (collectSegment opts env reachable)
      { report := { reachable_segments := reachable.size }, segments := segments, deleted := [] }

/-- The segments taken for deleted are forgotten. A dry run forgets them as well. -/
def ColdTables.forget (cold : ColdTables) (deleted : List Digest) : ColdTables :=
  { cold with
    cold_segments := cold.cold_segments.filterKeys fun seg => decide (seg ∉ deleted)
    block_locs := cold.block_locs.filter fun _ loc => decide (loc.segment_blake3 ∉ deleted) }

/-- The pointers still lead to a block. -/
def stillLocated (name : String) (schema_version : Nat) (cold : ColdTables) : Res Unit :=
  ensure (∀ p ∈ cold.hot_ptrs.values, schema_version < 3 ∨ cold.block_locs.contains p.blake3 = true)
    (.InvalidEvent s!"{name} hot ptr references missing cold block loc after GC")

structure ColdSegmentGcReportV1 where
  relations : ColdSegmentGcProjectionReportV1
  dependents : ColdSegmentGcProjectionReportV1
deriving DecidableEq

def gc_orphan_cold_segments_v1 (store : ProjectionStoreV1) (disk : Disk) (opts : ColdSegmentGcOptionsV1) (rel_env dep_env : GcEnv) :
    Outcome ColdSegmentGcReportV1 :=
  match reachable_cold_segments_from_snapshot_v1 crypto disk.relations_snapshot
      store.projections_meta.artifact_relations.schema_version store.projections_meta.artifact_relations.snapshot_blake3,
    reachable_cold_segments_from_snapshot_v1 crypto disk.dependents_snapshot
      store.projections_meta.artifact_dependents.schema_version store.projections_meta.artifact_dependents.snapshot_blake3 with
  | .error e, _ => ⟨.error e, store, disk⟩
  | .ok _, .error e => ⟨.error e, store, disk⟩
  | .ok rel_reachable, .ok dep_reachable =>
    let relations := gc_cold_segments_dir_v1 disk.cold_relations.segments rel_reachable opts rel_env
    let dependents := gc_cold_segments_dir_v1 disk.cold_dependents.segments dep_reachable opts dep_env
    let disk :=
      { disk with
        cold_relations := { disk.cold_relations with segments := relations.segments }
        cold_dependents := { disk.cold_dependents with segments := dependents.segments } }
    let store :=
      { store with relations := store.relations.forget relations.deleted, dependents := store.dependents.forget dependents.deleted }
    { result := do
        stillLocated "relations" store.projections_meta.artifact_relations.schema_version store.relations
        stillLocated "dependents" store.projections_meta.artifact_dependents.schema_version store.dependents
        return { relations := relations.report, dependents := dependents.report }
      store := store
      disk := disk }

end

end Crux.Projections
