import Crux.ProjectionRuns

/-!
# What every run keeps

Over a log whose frames can all be read, every operation leaves the store empty
or with the files of its last commit (`Stands`). The step lemmas also say which
cold segments are known afterwards.
-/

namespace Crux.Projections
open Crux.Bytes Crux.Segment Crux.Storage List SortedMap

/-- A store with its directory. -/
structure World where
  store : ProjectionStoreV1
  disk : Disk

/-- A store over an empty directory. -/
def World.start (shard_id : UInt32) (epoch : UInt64) : World := ⟨genesis shard_id epoch, {}⟩

inductive Op where
  | tick (max_frames : UInt32)
  | rebuild (batch_frames : UInt32)
  | reopen
  | gc (opts : ColdSegmentGcOptionsV1) (rel_env dep_env : GcEnv)

section
variable (crypto : Primitives) (read : FrameReader) (log : SealedLog)

def Outcome.world {α : Type} (out : Outcome α) : World := ⟨out.store, out.disk⟩

def step (w : World) : Op → World
  | .tick max_frames => (tick crypto read log w.store w.disk max_frames).world
  | .rebuild batch_frames => (rebuild_from_genesis crypto read log w.store w.disk batch_frames).world
  | .reopen =>
    match load_or_init crypto w.disk w.store.shard_id w.store.epoch with
    | .ok store => ⟨store, w.disk⟩
    | .error _ => w
  | .gc opts rel_env dep_env => (gc_orphan_cold_segments_v1 crypto w.store w.disk opts rel_env dep_env).world

def run (w : World) (ops : List Op) : World := ops.foldl (step crypto read log) w

/-- Every step of a run meets a condition. -/
def Along (ok : World → Op → Prop) : World → List Op → Prop
  | _, [] => True
  | w, op :: rest => ok w op ∧ Along ok (step crypto read log w op) rest

/-- The blocks and segments that a commit hashes. -/
inductive CommitHashes (store : ProjectionStoreV1) (touched_relations touched_dependents : Option (List ArtifactKey)) : Bytes → Prop
  | relation_block (a : ArtifactKey) :
    CommitHashes store touched_relations touched_dependents (relationTable.block store.state.relations a)
  | dependent_block (a : ArtifactKey) :
    CommitHashes store touched_relations touched_dependents (dependentTable.block store.state.dependents a)
  | relation_segment {p : Blocks} (new : p ∈ newSegments crypto relationTable store.state.relations
      store.projections_meta.artifact_relations.schema_version touched_relations store.relations) :
    CommitHashes store touched_relations touched_dependents (segmentBytes p)
  | dependent_segment {p : Blocks} (new : p ∈ newSegments crypto dependentTable store.state.dependents
      store.projections_meta.artifact_dependents.schema_version touched_dependents store.dependents) :
    CommitHashes store touched_relations touched_dependents (segmentBytes p)

/-- What a step may hash of the tables and the files. -/
def stepHashes (w : World) : Op → Set Bytes
  | .tick max_frames =>
    match log.replay_from_sealed w.store.cursor_from_meta max_frames with
    | .ok (frames, _) =>
      let applied := applyFrames crypto read (frames.map fun f => f.bytes) { state := w.store.state }
      { x | CommitHashes crypto { w.store with state := applied.state.recompute_derived_fields }
        (some applied.touched_relations) (some applied.touched_dependents) x }
    | .error _ => ∅
  | .rebuild batch_frames =>
    let state := (rebuildBatches crypto read log batch_frames (log.frames.length + 1) none {} 0).2
    { x | CommitHashes crypto { genesis w.store.shard_id w.store.epoch with state := state.recompute_derived_fields } none none x }
  | .reopen => { x | w.disk.Holds x }
  | .gc _ _ _ => ∅

/-- No hash of a step collides, and the files it starts from have 64-bit lengths. -/
def Fine (strings : Set Bytes) (w : World) (op : Op) : Prop := stepHashes crypto read log w op ⊆ strings ∧ w.disk.Sized

/-- The store is empty, and so it will be when it is opened again. -/
structure Fresh (strings : Set Bytes) (w : World) : Prop where
  empty : w.store = genesis w.store.shard_id w.store.epoch
  opens : load_or_init crypto w.disk w.store.shard_id w.store.epoch = .ok w.store
  relations : Named crypto strings w.disk.cold_relations.segments
  dependents : Named crypto strings w.disk.cold_dependents.segments

/-- The store is empty or as its last commit left it. -/
inductive Stands (strings : Set Bytes) (w : World) : Set Blocks → Set Blocks → Prop
  | fresh (fresh : Fresh crypto strings w) : Stands strings w ∅ ∅
  | committed {known_relations known_dependents : Set Blocks}
    (files : Committed crypto strings w.store w.disk known_relations known_dependents) :
    Stands strings w known_relations known_dependents

end

theorem block_of_get {K E : Type} [LinearOrder K] (table : EdgeTable K E) {edges edges' : SortedMap K E}
    (same : ∀ k, table.owner k = a → edges.get k = edges'.get k) : table.block edges a = table.block edges' a := by
  have rows : table.edgesOf edges a = table.edgesOf edges' a := ext_get fun k => by
    rw [table.get_edgesOf, table.get_edgesOf]
    split_ifs with own
    · exact same k own
    · rfl
  rw [EdgeTable.block, rows, EdgeTable.block]

theorem block_of_other {K E : Type} [LinearOrder K] (table : EdgeTable K E) {edges edges' : SortedMap K E} {key : K}
    (same : ∀ k, k ≠ key → edges'.get k = edges.get k) (untouched : a ∉ [table.owner key]) :
    table.block edges' a = table.block edges a := by
  refine block_of_get table fun k own => same k ?_
  rintro rfl
  exact untouched (mem_singleton.mpr own.symm)

section
variable {crypto : Primitives}

theorem relation_block_apply {s : ProjectionState} (untouched : a ∉ touchedRelation tenant_hash ev) :
    relationTable.block (s.apply crypto tenant_hash ev).relations a = relationTable.block s.relations a := by
  cases ev with
  | RelationUpsert p =>
    exact block_of_other relationTable (fun k other => (get_insert _ _ k _).trans (if_neg other)) untouched
  | RelationDelete p => exact block_of_other relationTable (fun k other => (get_remove _ _ k).trans (if_neg other)) untouched
  | _ => rfl

theorem dependent_block_apply {s : ProjectionState} (untouched : a ∉ touchedDependent tenant_hash ev) :
    dependentTable.block (s.apply crypto tenant_hash ev).dependents a = dependentTable.block s.dependents a := by
  cases ev with
  | DependentEvidenceUpsert p =>
    exact block_of_other dependentTable (fun k other => (get_insert _ _ k _).trans (if_neg other)) untouched
  | _ => rfl

theorem blocks_applyAll {evs : List (UInt64 × ProjectionEventV1)} {s : ProjectionState} {a : ArtifactKey} :
    ((∀ e ∈ evs, a ∉ touchedRelation e.1 e.2) →
      relationTable.block (s.applyAll crypto evs).relations a = relationTable.block s.relations a) ∧
    ((∀ e ∈ evs, a ∉ touchedDependent e.1 e.2) →
      dependentTable.block (s.applyAll crypto evs).dependents a = dependentTable.block s.dependents a) := by
  induction evs generalizing s with
  | nil => exact ⟨fun _ => rfl, fun _ => rfl⟩
  | cons e rest ih =>
    refine ⟨fun untouched => ?_, fun untouched => ?_⟩
    · exact (ih.1 fun x later => untouched x (mem_cons_of_mem _ later)).trans
        (relation_block_apply (untouched e mem_cons_self))
    · exact (ih.2 fun x later => untouched x (mem_cons_of_mem _ later)).trans
        (dependent_block_apply (untouched e mem_cons_self))

end

section
variable {crypto : Primitives} {strings : Set Bytes} {w : World} {known_relations known_dependents : Set Blocks}

theorem Stands.named (stands : Stands crypto strings w known_relations known_dependents) :
    Named crypto strings w.disk.cold_relations.segments ∧ Named crypto strings w.disk.cold_dependents.segments := by
  cases stands with
  | fresh fresh => exact ⟨fresh.relations, fresh.dependents⟩
  | committed files => exact ⟨files.relations.holds.named, files.dependents.holds.named⟩

theorem Stands.files (stands : Stands crypto strings w known_relations known_dependents)
    (committed : w.store.projections_meta.artifact_living_state.snapshot_blake3 ≠ none) :
    Committed crypto strings w.store w.disk known_relations known_dependents := by
  cases stands with
  | fresh fresh =>
    rw [fresh.empty] at committed
    exact absurd rfl committed
  | committed files => exact files

/-- The segments that a commit of the relations adds. -/
def newRelations (crypto : Primitives) (store : ProjectionStoreV1) (touched : Option (List ArtifactKey)) : Set Blocks :=
  { p | p ∈ newSegments crypto relationTable store.state.relations store.projections_meta.artifact_relations.schema_version touched
    store.relations }

def newDependents (crypto : Primitives) (store : ProjectionStoreV1) (touched : Option (List ArtifactKey)) : Set Blocks :=
  { p | p ∈ newSegments crypto dependentTable store.state.dependents
    store.projections_meta.artifact_dependents.schema_version touched store.dependents }

section
variable (stands : Stands crypto strings w known_relations known_dependents)
include stands

/-- A commit of new tables, in which only the blocks of the touched artifacts differ. -/
theorem Stands.commit_touched (free : CollisionFree crypto strings) (cursor : Option ProjectionCursorV1)
    (relations : ∀ a, a ∉ touched_relations →
      relationTable.block state.relations a = relationTable.block w.store.state.relations a)
    (dependents : ∀ a, a ∉ touched_dependents →
      dependentTable.block state.dependents a = dependentTable.block w.store.state.dependents a)
    (hashes : ∀ x, CommitHashes crypto { w.store with state := state } (some touched_relations) (some touched_dependents) x →
      x ∈ strings) :
    ∃ store' disk', commit crypto { w.store with state := state } w.disk cursor (some touched_relations) (some touched_dependents) =
        ⟨.ok (), store', disk'⟩ ∧
      Committed crypto strings store' disk'
        (known_relations ∪ newRelations crypto { w.store with state := state } (some touched_relations))
        (known_dependents ∪ newDependents crypto { w.store with state := state } (some touched_dependents)) ∧
      store'.state = state ∧ store'.cursor = cursor ∧ store'.shard_id = w.store.shard_id ∧ store'.epoch = w.store.epoch := by
  refine commit_holds cursor rfl rfl ?_ ?_
  · have blocks : ∀ a, relationTable.block state.relations a ∈ strings := fun a => hashes _ (.relation_block a)
    cases stands with
    | fresh fresh =>
      rw [Set.empty_union]
      exact update_full free (.inl (by rw [fresh.empty]; exact (by decide : 1 < 3))) fresh.relations blocks fun p new => hashes _ (.relation_segment new)
    | committed files =>
      exact update_touched free files.relations.version files.relations.holds relations blocks
        fun p new => hashes _ (.relation_segment new)
  · have blocks : ∀ a, dependentTable.block state.dependents a ∈ strings := fun a => hashes _ (.dependent_block a)
    cases stands with
    | fresh fresh =>
      rw [Set.empty_union]
      exact update_full free (.inl (by rw [fresh.empty]; exact (by decide : 1 < 3))) fresh.dependents blocks fun p new => hashes _ (.dependent_segment new)
    | committed files =>
      exact update_touched free files.dependents.version files.dependents.holds dependents blocks
        fun p new => hashes _ (.dependent_segment new)

/-- A tick over readable frames does nothing or commits the tables after the next frames. -/
theorem Stands.tick {read : FrameReader} (free : CollisionFree crypto strings) (here : At log w.store.cursor_from_meta n)
    (readable : Readable read (batch log n max_frames)) (hashes : stepHashes crypto read log w (.tick max_frames) ⊆ strings) :
    (batch log n max_frames = [] ∧ step crypto read log w (.tick max_frames) = w) ∨
    ∃ state touched_relations touched_dependents, batch log n max_frames ≠ [] ∧
      state = (w.store.state.applyAll crypto (eventsOf read (batch log n max_frames))).recompute_derived_fields ∧
      (∀ a, a ∉ touched_relations → relationTable.block state.relations a = relationTable.block w.store.state.relations a) ∧
      (∀ a, a ∉ touched_dependents → dependentTable.block state.dependents a = dependentTable.block w.store.state.dependents a) ∧
      Committed crypto strings (step crypto read log w (.tick max_frames)).store (step crypto read log w (.tick max_frames)).disk
        (known_relations ∪ newRelations crypto { w.store with state := state } (some touched_relations))
        (known_dependents ∪ newDependents crypto { w.store with state := state } (some touched_dependents)) ∧
      (step crypto read log w (.tick max_frames)).store.state = state ∧
      At log (step crypto read log w (.tick max_frames)).store.cursor_from_meta (n + (batch log n max_frames).length) ∧
      (step crypto read log w (.tick max_frames)).store.shard_id = w.store.shard_id ∧
      (step crypto read log w (.tick max_frames)).store.epoch = w.store.epoch := by
  rcases @tick_cases crypto read log w.store w.disk n here max_frames with ⟨none, same⟩ | ⟨unreadable, _⟩ | facts
  · exact .inl ⟨none, by rw [step, same]; rfl⟩
  · exact absurd readable unreadable
  · obtain ⟨some_frame, _, frames, cursor, replayed, bytes, next, out⟩ := facts
    obtain ⟨_, applied, relations, dependents, _⟩ := @applyFrames_ok crypto read _ readable { state := w.store.state }
    simp only [stepHashes, replayed, bytes] at hashes
    generalize applyFrames crypto read (batch log n max_frames) { state := w.store.state } = result at applied relations dependents hashes out
    dsimp only at applied out
    rw [applied] at hashes out
    have untouched := fun a => @blocks_applyAll crypto (eventsOf read (batch log n max_frames)) w.store.state a
    generalize state_eq : (w.store.state.applyAll crypto (eventsOf read (batch log n max_frames))).recompute_derived_fields = state
      at hashes out
    have relations' : ∀ a, a ∉ result.touched_relations →
        relationTable.block state.relations a = relationTable.block w.store.state.relations a := by
      intro a outside
      rw [← state_eq, recompute_relations]
      exact (untouched a).1 fun e member touched => outside (relations e member touched)
    have dependents' : ∀ a, a ∉ result.touched_dependents →
        dependentTable.block state.dependents a = dependentTable.block w.store.state.dependents a := by
      intro a outside
      rw [← state_eq, recompute_dependents]
      exact (untouched a).2 fun e member touched => outside (dependents e member touched)
    obtain ⟨store', disk', committed, files, kept, cursor_eq, shard, epoch⟩ :=
      stands.commit_touched free (cursor.map w.store.cursor_v1_from_replay) relations' dependents' fun x hashed => hashes hashed
    rw [committed] at out
    have after : step crypto read log w (.tick max_frames) = ⟨store', disk'⟩ := by rw [step, Outcome.world, out.1, out.2]
    rw [after]
    refine .inr ⟨state, result.touched_relations, result.touched_dependents, some_frame, rfl, relations', dependents', files, kept, ?_,
      shard, epoch⟩
    rw [cursor_from_replay w.store store' cursor cursor_eq]
    exact next

theorem Stands.rebuild {read : FrameReader} (free : CollisionFree crypto strings) (readable : Readable read log.frames)
    (hashes : stepHashes crypto read log w (.rebuild batch_frames) ⊆ strings) :
    let store := { genesis w.store.shard_id w.store.epoch with state := project crypto read log log.frames.length }
    Committed crypto strings (step crypto read log w (.rebuild batch_frames)).store
      (step crypto read log w (.rebuild batch_frames)).disk (newRelations crypto store none) (newDependents crypto store none) ∧
    (step crypto read log w (.rebuild batch_frames)).store.state = project crypto read log log.frames.length ∧
    At log (step crypto read log w (.rebuild batch_frames)).store.cursor_from_meta log.frames.length ∧
    (step crypto read log w (.rebuild batch_frames)).store.shard_id = w.store.shard_id ∧
    (step crypto read log w (.rebuild batch_frames)).store.epoch = w.store.epoch := by
  obtain ⟨cursor, total, batches, next⟩ := @rebuildBatches_all crypto read log readable batch_frames (log.frames.length + 1) 0 none
    .genesis (Nat.zero_le _) (by omega) {} 0
  have state_eq : (ProjectionState.applyAll crypto {} (eventsOf read (log.frames.drop 0))).recompute_derived_fields =
      project crypto read log log.frames.length := by rw [project, take_length, drop_zero]
  have start : (genesis w.store.shard_id w.store.epoch).state = {} := rfl
  simp only [stepHashes, batches, state_eq] at hashes
  obtain ⟨named_relations, named_dependents⟩ := stands.named
  obtain ⟨store', disk', committed, files, kept, cursor_eq, shard, epoch⟩ := @commit_holds crypto strings
    { genesis w.store.shard_id w.store.epoch with state := project crypto read log log.frames.length } w.disk
    (cursor.map { genesis w.store.shard_id w.store.epoch with
      state := project crypto read log log.frames.length }.cursor_v1_from_replay) none none _ _ _ _ rfl rfl
    (update_full free (.inr rfl) named_relations (fun a => hashes (.relation_block a)) fun p new => hashes (.relation_segment new))
    (update_full free (.inr rfl) named_dependents (fun a => hashes (.dependent_block a)) fun p new => hashes (.dependent_segment new))
  have after : step crypto read log w (.rebuild batch_frames) = ⟨store', disk'⟩ := by
    unfold step rebuild_from_genesis Outcome.world
    simp only [start, batches, state_eq, committed]
  rw [after]
  refine ⟨files, kept, ?_, shard, epoch⟩
  rw [cursor_from_replay _ store' cursor cursor_eq]
  exact next

end

theorem pointed_pointed (known : Set Blocks) (ptrs : SortedMap ArtifactKey HotPtrEntryV1) :
    Pointed (Pointed known ptrs) ptrs = Pointed known ptrs :=
  Set.ext fun _ => ⟨fun member => member.1, fun member => ⟨member, member.2⟩⟩

theorem encode_stored (rows : SortedMap PressureKey PressureEventRowV1) :
    encode_pressure_rows_v1 (rows.mapValues PressureEventRowV1.stored) = encode_pressure_rows_v1 rows := by
  have id : ∀ rid : Option Uuid, (rid.filter fun rid => decide (rid ≠ nilUuid)).getD nilUuid = rid.getD nilUuid := by
    intro rid
    cases rid with
    | none => rfl
    | some rid =>
      by_cases zero : rid = nilUuid
      · rw [Option.filter_some, if_neg (by simp [zero]), zero]
        rfl
      · rw [Option.filter_some, if_pos (by simp [zero])]
  have row : ∀ e : PressureKey × PressureEventRowV1, pressureRows.put e.1 e.2.stored = pressureRows.put e.1 e.2 := by
    intro e
    simp only [pressureRows, PressureEventRowV1.stored, id]
  simp only [encode_pressure_rows_v1, encodeRows, SortedMap.mapValues, flatMap_map, row]

theorem ColdFiled.opened {K E : Type} [LinearOrder K] {table : EdgeTable K E} {id : CcxsnapProjectionId} {edges : SortedMap K E}
    {segments : SortedMap Digest Bytes} {loaded : ColdTables × SortedMap K E}
    (filed : ColdFiled crypto strings table id store edges cold declared file segments known)
    (opened : Opened crypto table edges known cold.hot_ptrs segments loaded)
    (same : ∀ dir, coldFile crypto store' store'.cursor id cold.hot_ptrs dir = coldFile crypto store store.cursor id cold.hot_ptrs dir) :
    ColdFiled crypto strings table id store' edges loaded.1 declared file segments (Pointed known cold.hot_ptrs) := by
  obtain ⟨dir, reached, content⟩ := filed.filed
  have kept : ColdSnapshot crypto table strings edges known cold.hot_ptrs dir :=
    ⟨filed.holds.pointers, filed.holds.located, filed.holds.pieces, reached⟩
  refine ⟨opened.holds kept filed.holds.named, filed.version, dir, ?_, ?_⟩
  · rw [opened.pointers]
    unfold Reached
    rw [pointed_pointed]
    exact reached
  · rw [opened.pointers, same]
    exact content

theorem Stands.reopen (read : FrameReader) (log : SealedLog) (free : CollisionFree crypto strings)
    (stands : Stands crypto strings w known_relations known_dependents) (sized : w.disk.Sized) (parts : ∀ x, w.disk.Holds x → x ∈ strings) :
    ∃ known_relations' known_dependents' store', step crypto read log w .reopen = ⟨store', w.disk⟩ ∧
      Stands crypto strings ⟨store', w.disk⟩ known_relations' known_dependents' ∧
      store'.shard_id = w.store.shard_id ∧ store'.epoch = w.store.epoch ∧ (store' = genesis w.store.shard_id w.store.epoch ∨
        (store'.state = w.store.state.reopened ∧ store'.projections_meta = w.store.projections_meta)) := by
  cases stands with
  | fresh fresh =>
    refine ⟨∅, ∅, w.store, ?_, .fresh fresh, rfl, rfl, .inl fresh.empty⟩
    rw [step, fresh.opens]
  | committed files =>
    have declared : w.disk.meta_file.getD {} = w.store.projections_meta := by rw [files.declared]; rfl
    have opens := @load_or_init_eq crypto w.disk (by rw [declared, files.relations.version])
      (by rw [declared, files.dependents.version]) w.store.shard_id w.store.epoch
    cases loaded : loadTables crypto w.disk w.store.shard_id w.store.epoch with
    | error e =>
      rw [loaded] at opens
      refine ⟨∅, ∅, genesis w.store.shard_id w.store.epoch, by rw [step, opens]; rfl, .fresh ?_, rfl, rfl, .inl rfl⟩
      exact ⟨rfl, opens, files.relations.holds.named, files.dependents.holds.named⟩
    | ok store' =>
      rw [loaded] at opens
      obtain ⟨relations, dependents, rfl, relations_opened, dependents_opened⟩ :=
        load_exact free files sized parts rfl parts loaded
      refine ⟨_, _, { w.store with state := w.store.state.reopened, relations := relations.1, dependents := dependents.1 },
        by rw [step, opens]; rfl, .committed ⟨files.declared, files.living, ?_,
        files.relations.opened relations_opened fun _ => rfl, files.dependents.opened dependents_opened fun _ => rfl⟩, rfl, rfl,
        .inr ⟨rfl, rfl⟩⟩
      obtain ⟨bytes, content, rest⟩ := files.pressure
      refine ⟨bytes, ?_, rest⟩
      have rows : encode_pressure_rows_v1 w.store.state.reopened.pressure = encode_pressure_rows_v1 w.store.state.pressure :=
        encode_stored _
      rw [← content, pressureFile, pressureFile, rows]
      rfl

/-- What a collection leaves: it deletes no segment of the directory, and touches no other file. -/
structure Spared (dir : SortedMap Digest UInt64) (segments : SortedMap Digest Bytes) (out : Collected) : Prop where
  orphans : ∀ s ∈ out.deleted, dir.get s = none
  others : ∀ s, s ∉ out.deleted → out.segments.get s = segments.get s
  fewer : ∀ s b, out.segments.get s = some b → segments.get s = some b

theorem Spared.collect (spared : Spared dir segments acc) (opts : ColdSegmentGcOptionsV1) (env : GcEnv) (s : Digest) :
    Spared dir segments (collectSegment opts env dir acc s) := by
  have orphans : ¬ dir.contains s = true → ∀ x ∈ s :: acc.deleted, dir.get x = none := by
    intro unreachable x member
    rcases mem_cons.mp member with rfl | old
    · cases found : dir.get x with
      | none => rfl
      | some len => exact absurd (contains_iff.mpr ⟨len, found⟩) unreachable
    · exact spared.orphans x old
  unfold collectSegment
  split
  · exact spared
  · dsimp only
    split_ifs with reachable young limit dry
    · exact ⟨spared.orphans, spared.others, spared.fewer⟩
    · exact ⟨spared.orphans, spared.others, spared.fewer⟩
    · exact ⟨spared.orphans, spared.others, spared.fewer⟩
    · exact ⟨orphans reachable, fun x outside => spared.others x fun old => outside (mem_cons_of_mem _ old), spared.fewer⟩
    · refine ⟨orphans reachable, fun x outside => ?_, fun x b found => ?_⟩
      · rw [mem_cons, not_or] at outside
        rw [get_remove, if_neg outside.1, spared.others x outside.2]
      · rw [get_remove] at found
        split_ifs at found
        exact spared.fewer x b found

theorem gc_spared (segments : SortedMap Digest Bytes) (dir : SortedMap Digest UInt64) (opts : ColdSegmentGcOptionsV1) (env : GcEnv) :
    Spared dir segments (gc_cold_segments_dir_v1 segments (some dir) opts env) := by
  unfold gc_cold_segments_dir_v1
  dsimp only
  have start : Spared dir segments { report := { reachable_segments := dir.size }, segments := segments, deleted := [] } :=
    ⟨fun s member => absurd member not_mem_nil, fun _ _ => rfl, fun _ _ found => found⟩
  generalize ({ report := { reachable_segments := dir.size }, segments := segments, deleted := [] } : Collected) = acc at start ⊢
  induction env.listing generalizing acc with
  | nil => exact start
  | cons s rest ih => exact ih _ (start.collect opts env s)

section
variable {K E : Type} [LinearOrder K] {table : EdgeTable K E} {id : CcxsnapProjectionId} {store store' : ProjectionStoreV1}
  {edges : SortedMap K E} {cold : ColdTables} {declared : ProjectionMetaV1} {file : Option Bytes}
  {segments : SortedMap Digest Bytes} {known : Set Blocks}

theorem ColdFiled.reachable (filed : ColdFiled crypto strings table id store edges cold declared file segments known)
    (sized : ∀ f, file = some f → f.length < 2 ^ 64) : ∃ dir, Reached crypto known cold.hot_ptrs dir ∧
      Filed crypto declared file (coldFile crypto store store.cursor id cold.hot_ptrs dir) ∧
      reachable_cold_segments_from_snapshot_v1 crypto file declared.schema_version declared.snapshot_blake3 = .ok (some dir) := by
  obtain ⟨dir, reached, bytes, content, rfl, hash⟩ := filed.filed
  refine ⟨dir, reached, ⟨bytes, content, rfl, hash⟩, ?_⟩
  obtain ⟨snap, decoded, blocks⟩ := decode_snapshotFile content (by simp) (sized bytes rfl)
  have block : snap.block CCXSNAP_BLOCK_COLD_SEGMENT_DIR_V1 = some (encode_cold_segment_dir_v1 dir) := by
    simp [CcxsnapSnapshot.block, blocks, CCXSNAP_BLOCK_HOT_PTRS_V1, CCXSNAP_BLOCK_COLD_SEGMENT_DIR_V1]
  have entries : (dir.entries.map fun e => ColdSegmentDirEntryV1.mk e.1 e.2).map (fun e => (e.segment_blake3, e.file_len)) =
      dir.entries := by rw [map_map]; exact map_id _
  unfold reachable_cold_segments_from_snapshot_v1
  rw [filed.version, hash, if_neg (by decide)]
  simp [orInvalid, decoded, Except.mapError, block, decode_encode_cold_segment_dir, entries, ofList_entries]

/-- The cold files hold a table also after a collection. -/
theorem ColdFiled.collected (filed : ColdFiled crypto strings table id store edges cold declared file segments known)
    (reached : Reached crypto known cold.hot_ptrs dir)
    (content : Filed crypto declared file (coldFile crypto store store.cursor id cold.hot_ptrs dir))
    (spared : Spared dir segments out)
    (same : coldFile crypto store' store'.cursor id cold.hot_ptrs dir = coldFile crypto store store.cursor id cold.hot_ptrs dir)
    :
    ColdFiled crypto strings table id store' edges (cold.forget out.deleted) declared file out.segments
      { p | p ∈ known ∧ segId crypto p ∉ out.deleted } := by
  have holds := filed.holds
  have sub : { p | p ∈ known ∧ segId crypto p ∉ out.deleted } ⊆ known := fun p member => member.1
  -- a segment that is pointed at is in the directory, so it is not deleted
  have kept : ∀ p ∈ Pointed known cold.hot_ptrs, segId crypto p ∉ out.deleted := by
    intro p pointed gone
    have listed := (reached (segId crypto p) (segLen p)).mpr ⟨p, pointed, rfl, rfl⟩
    rw [spared.orphans _ gone] at listed
    cases listed
  refine ⟨⟨holds.pointers, ?_, ⟨?_, ?_⟩, holds.pieces.subset sub, ?_, ?_⟩, filed.version, dir, ?_, same ▸ content⟩
  · intro a some_edge
    obtain ⟨p, inside, listed⟩ := holds.located a some_edge
    have points := holds.pointers a
    rw [pointerOf, if_neg some_edge] at points
    exact ⟨p, ⟨inside, kept p ⟨inside, _, mem_values.mpr ⟨a, points⟩, mem_keys.mpr ⟨_, listed⟩⟩⟩, listed⟩
  · intro s len
    show (cold.cold_segments.filterKeys _).get s = some len ↔ _
    rw [get_filterKeys]
    by_cases gone : s ∈ out.deleted
    · rw [if_neg (by simpa using gone)]
      refine ⟨fun none => (by cases none), ?_⟩
      rintro ⟨p, member, rfl, _⟩
      exact absurd gone member.2
    · rw [if_pos (by simpa using gone), holds.layout.segments]
      constructor
      · rintro ⟨p, member, rfl, rfl⟩
        exact ⟨p, ⟨member, gone⟩, rfl, rfl⟩
      · rintro ⟨p, member, facts⟩
        exact ⟨p, member.1, facts⟩
  · intro h loc
    show (cold.block_locs.filter _).get h = some loc ↔ _
    rw [get_filter, Option.filter_eq_some_iff, holds.layout.locs, decide_eq_true_eq]
    constructor
    · rintro ⟨⟨p, member, listed⟩, stays⟩
      exact ⟨p, ⟨member, blockLocs_segment listed ▸ stays⟩, listed⟩
    · rintro ⟨p, member, listed⟩
      exact ⟨⟨p, member.1, listed⟩, by rw [blockLocs_segment listed]; exact member.2⟩
  · intro p member
    rw [spared.others _ member.2]
    exact holds.stored p member.1
  · intro s b found
    exact holds.named s b (spared.fewer s b found)
  · have pointed : Pointed { p | p ∈ known ∧ segId crypto p ∉ out.deleted } cold.hot_ptrs = Pointed known cold.hot_ptrs :=
      Set.ext fun p => ⟨fun member => ⟨member.1.1, member.2⟩, fun member => ⟨⟨member.1, kept p member⟩, member.2⟩⟩
    intro s len
    show dir.get s = some len ↔ ∃ p ∈ Pointed _ cold.hot_ptrs, _
    rw [pointed]
    exact reached s len

end

/-- The store and its directory after a collection that took some segments for deleted. -/
def World.collected (w : World) (relations dependents : Collected) : World :=
  ⟨{ w.store with
      relations := w.store.relations.forget relations.deleted, dependents := w.store.dependents.forget dependents.deleted },
    { w.disk with
      cold_relations := { w.disk.cold_relations with segments := relations.segments }
      cold_dependents := { w.disk.cold_dependents with segments := dependents.segments } }⟩

/-- A collection deletes no segment that the committed snapshots list. -/
theorem Committed.gc (read : FrameReader) (log : SealedLog)
    (files : Committed crypto strings w.store w.disk known_relations known_dependents) (sized : w.disk.Sized)
    (opts : ColdSegmentGcOptionsV1) (rel_env dep_env : GcEnv) : ∃ relations_dir dependents_dir relations dependents,
      reachable_cold_segments_from_snapshot_v1 crypto w.disk.relations_snapshot
        w.store.projections_meta.artifact_relations.schema_version w.store.projections_meta.artifact_relations.snapshot_blake3 =
        .ok (some relations_dir) ∧ reachable_cold_segments_from_snapshot_v1 crypto w.disk.dependents_snapshot
        w.store.projections_meta.artifact_dependents.schema_version w.store.projections_meta.artifact_dependents.snapshot_blake3 =
        .ok (some dependents_dir) ∧ Spared relations_dir w.disk.cold_relations.segments relations ∧
      Spared dependents_dir w.disk.cold_dependents.segments dependents ∧
      step crypto read log w (.gc opts rel_env dep_env) = w.collected relations dependents ∧
      Committed crypto strings (w.collected relations dependents).store (w.collected relations dependents).disk
        { p | p ∈ known_relations ∧ segId crypto p ∉ relations.deleted }
        { p | p ∈ known_dependents ∧ segId crypto p ∉ dependents.deleted } := by
  obtain ⟨relations_dir, relations_reached, relations_file, relations_read⟩ :=
    files.relations.reachable fun f found => sized f (.relations found)
  obtain ⟨dependents_dir, dependents_reached, dependents_file, dependents_read⟩ :=
    files.dependents.reachable fun f found => sized f (.dependents found)
  have relations_spared := gc_spared w.disk.cold_relations.segments relations_dir opts rel_env
  have dependents_spared := gc_spared w.disk.cold_dependents.segments dependents_dir opts dep_env
  refine ⟨relations_dir, dependents_dir, _, _, relations_read, dependents_read, relations_spared, dependents_spared, ?_,
    files.declared, files.living, files.pressure,
    files.relations.collected relations_reached relations_file relations_spared rfl,
    files.dependents.collected dependents_reached dependents_file dependents_spared rfl⟩
  rw [step, gc_orphan_cold_segments_v1, relations_read, dependents_read]
  rfl

theorem Fresh.gc (read : FrameReader) (log : SealedLog) (fresh : Fresh crypto strings w) (opts : ColdSegmentGcOptionsV1)
    (rel_env dep_env : GcEnv) : step crypto read log w (.gc opts rel_env dep_env) = w := by
  obtain ⟨store, disk⟩ := w
  have empty : store = genesis store.shard_id store.epoch := fresh.empty
  rw [empty]
  rfl

end

section
variable {crypto : Primitives} {read : FrameReader} {log : SealedLog} {strings : Set Bytes} {Q : Nat → ProjectionState → Prop}

/-- A property of the tables and the number of frames behind them that the next frames carry on. -/
structure Carried (crypto : Primitives) (read : FrameReader) (log : SealedLog) (Q : Nat → ProjectionState → Prop) : Prop where
  start : Q 0 {}
  next : ∀ n k s, Q n s →
    Q (n + k) (s.applyAll crypto (eventsOf read ((log.frames.drop n).take k))).recompute_derived_fields

/-- The store stands somewhere in the log, and its tables have the property. -/
def Follows (crypto : Primitives) (log : SealedLog) (strings : Set Bytes) (Q : Nat → ProjectionState → Prop) (w : World) : Prop :=
  (∃ known_relations known_dependents, Stands crypto strings w known_relations known_dependents) ∧
    ∃ n ≤ log.frames.length, At log w.store.cursor_from_meta n ∧ Q n w.store.state

theorem batch_eq (n : Nat) (max_frames : UInt32) :
    batch log n max_frames = (log.frames.drop n).take (batch log n max_frames).length := by
  rw [batch, length_take, ← take_take, take_length]

theorem Follows.step (free : CollisionFree crypto strings) (readable : Readable read log.frames) (carried : Carried crypto read log Q)
    {w : World} (follows : Follows crypto log strings Q w) {op : Op} (fine : Fine crypto read log strings w op)
    (reopens : op = .reopen → ∀ n, Q n w.store.state → Q n w.store.state.reopened) :
    Follows crypto log strings Q (step crypto read log w op) := by
  obtain ⟨⟨known_relations, known_dependents, stands⟩, n, inside, here, holds⟩ := follows
  cases op with
  | tick max_frames =>
    have part : Readable read (batch log n max_frames) := fun f member =>
      readable f (mem_of_mem_drop (mem_of_mem_take member))
    rcases stands.tick free here part fine.1 with ⟨_, same⟩ | ⟨state, _, _, _, state_eq, _, _, files, kept, next, _⟩
    · rw [same]
      exact ⟨⟨_, _, stands⟩, n, inside, here, holds⟩
    · refine ⟨⟨_, _, .committed files⟩, _, ?_, next, ?_⟩
      · rw [batch, length_take, length_drop]
        omega
      · have grown := carried.next n (batch log n max_frames).length _ holds
        rw [← batch_eq] at grown
        rw [kept, state_eq]
        exact grown
  | rebuild batch_frames =>
    obtain ⟨files, kept, next, _⟩ := stands.rebuild free readable fine.1
    refine ⟨⟨_, _, .committed files⟩, _, le_rfl, next, ?_⟩
    have all := carried.next 0 log.frames.length {} carried.start
    rw [Nat.zero_add, drop_zero] at all
    rw [kept]
    exact all
  | reopen =>
    obtain ⟨_, _, store', after, stands', _, _, which⟩ := stands.reopen read log free fine.2 fun x held => fine.1 held
    rw [after]
    rcases which with rfl | ⟨state_eq, meta_eq⟩
    · exact ⟨⟨_, _, stands'⟩, 0, Nat.zero_le _, .genesis, carried.start⟩
    · refine ⟨⟨_, _, stands'⟩, n, inside, ?_, ?_⟩
      · unfold ProjectionStoreV1.cursor_from_meta at here ⊢
        rw [meta_eq]
        exact here
      · rw [state_eq]
        exact reopens rfl n holds
  | gc opts rel_env dep_env =>
    cases stands with
    | fresh fresh =>
      rw [fresh.gc read log]
      exact ⟨⟨_, _, .fresh fresh⟩, n, inside, here, holds⟩
    | committed files =>
      obtain ⟨_, _, relations, dependents, _, _, _, _, after, files'⟩ := files.gc read log fine.2 opts rel_env dep_env
      rw [after]
      exact ⟨⟨_, _, .committed files'⟩, n, inside, here, holds⟩

theorem Follows.run (free : CollisionFree crypto strings) (readable : Readable read log.frames) (carried : Carried crypto read log Q)
    {ops : List Op} {w : World} (follows : Follows crypto log strings Q w)
    (along : Along crypto read log (fun w op => Fine crypto read log strings w op ∧
      (op = .reopen → ∀ n, Q n w.store.state → Q n w.store.state.reopened)) w ops) :
    Follows crypto log strings Q (run crypto read log w ops) := by
  induction ops generalizing w with
  | nil => exact follows
  | cons op rest ih => exact ih (follows.step free readable carried along.1.1 along.1.2) along.2

theorem Follows.start (carried : Carried crypto read log Q) (shard_id : UInt32) (epoch : UInt64) :
    Follows crypto log strings Q (.start shard_id epoch) :=
  ⟨⟨∅, ∅, .fresh ⟨rfl, rfl, fun _ _ found => (by cases found), fun _ _ found => (by cases found)⟩⟩, 0, Nat.zero_le _, .genesis,
    carried.start⟩

end

end Crux.Projections
