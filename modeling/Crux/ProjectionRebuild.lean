import Crux.ProjectionRestore

/-!
# Ticks against a rebuild

A rebuild computes the tables of the whole log (`rebuild_state`). A run of ticks
that has come to the end of the log has the same tables, if whatever was in them
when the store was closed is kept in the snapshot files
(`incremental_eq_rebuild`). The end of a log with an unreadable frame is never
reached (`ReadSoFar`).
-/

namespace Crux.Projections
open Crux.Bytes Crux.Segment Crux.Storage List

section
variable {crypto : Primitives} {read : FrameReader} {log : SealedLog}

/-- A commit leaves the tables as they are. It moves the cursors of the store and of the meta file together, or neither. -/
theorem commit_kept (crypto : Primitives) (store : ProjectionStoreV1) (disk : Disk) (cursor : Option ProjectionCursorV1)
    (touched_relations touched_dependents : Option (List ArtifactKey)) :
    let out := commit crypto store disk cursor touched_relations touched_dependents
    out.store.state = store.state ∧
    ((out.store.projections_meta = store.projections_meta ∧ out.disk.meta_file = disk.meta_file) ∨
      (out.store.cursor = cursor ∧ out.disk.meta_file = some out.store.projections_meta)) := by
  unfold commit
  dsimp only
  split
  · exact ⟨rfl, .inl ⟨rfl, rfl⟩⟩
  split
  · exact ⟨rfl, .inl ⟨rfl, rfl⟩⟩
  split
  · exact ⟨rfl, .inl ⟨rfl, rfl⟩⟩
  split
  · exact ⟨rfl, .inl ⟨rfl, rfl⟩⟩
  split
  · exact ⟨rfl, .inl ⟨rfl, rfl⟩⟩
  split
  · exact ⟨rfl, .inl ⟨rfl, rfl⟩⟩
  · exact ⟨rfl, .inr ⟨rfl, rfl⟩⟩

/-- A rebuild computes the tables of the whole log, also when it cannot commit them. -/
theorem rebuild_state (readable : Readable read log.frames) (store : ProjectionStoreV1) (disk : Disk) (batch_frames : UInt32) :
    (rebuild_from_genesis crypto read log store disk batch_frames).store.state = project crypto read log log.frames.length := by
  obtain ⟨cursor, total, batches, _⟩ := @rebuildBatches_all crypto read log readable batch_frames (log.frames.length + 1) 0 none
    .genesis (Nat.zero_le _) (by omega) {} 0
  have start : (genesis store.shard_id store.epoch).state = {} := rfl
  unfold rebuild_from_genesis
  simp only [start, batches]
  rw [(commit_kept _ _ _ _ _ _).1, drop_zero, project, take_length]

/-- The frames before a cursor can be read. -/
def ReadTo (read : FrameReader) (log : SealedLog) (declared : ProjectionsMetaV1) : Prop :=
  ∃ n, At log (declared.artifact_living_state.cursor.map fun c => ⟨c.segment_seq, c.offset⟩) n ∧ Readable read (log.frames.take n)

/-- Neither the store nor its meta file stands behind an unreadable frame. -/
structure ReadSoFar (read : FrameReader) (log : SealedLog) (w : World) : Prop where
  store : ReadTo read log w.store.projections_meta
  file : ∀ declared, w.disk.meta_file = some declared → ReadTo read log declared

theorem readTo_genesis : ReadTo read log {} := ⟨0, .genesis, fun _ member => absurd member not_mem_nil⟩

theorem load_or_init_meta (opens : load_or_init crypto disk shard_id epoch = .ok store) :
    store.projections_meta = disk.meta_file.getD {} ∨ store.projections_meta = {} := by
  unfold load_or_init at opens
  split at opens
  · cases opens
  · cases opens
  split at opens
  next loaded tables =>
    cases opens
    simp only [loadTables, bind_ok_iff] at tables
    obtain ⟨_, _, _, _, _, _, _, _, tables⟩ := tables
    cases tables
    exact .inl rfl
  next =>
    cases opens
    exact .inr rfl

theorem ReadSoFar.commit {store : ProjectionStoreV1} {disk : Disk} (readable : ReadSoFar read log ⟨store, disk⟩) (state : ProjectionState)
    {cursor : Option ReplayCursor} {m : Nat} (next : At log cursor m) (front : Readable read (log.frames.take m))
    (touched_relations touched_dependents : Option (List ArtifactKey)) :
    ReadSoFar read log (commit crypto { store with state := state } disk (cursor.map store.cursor_v1_from_replay)
      touched_relations touched_dependents).world := by
  have kept := commit_kept crypto { store with state := state } disk (cursor.map store.cursor_v1_from_replay)
    touched_relations touched_dependents
  generalize Projections.commit crypto { store with state := state } disk (cursor.map store.cursor_v1_from_replay)
    touched_relations touched_dependents = out at kept
  obtain ⟨_, ⟨store_kept, file_kept⟩ | ⟨moved, declared⟩⟩ := kept
  · have old : ReadTo read log out.store.projections_meta := store_kept ▸ readable.store
    exact ⟨old, fun m found => readable.file m (file_kept ▸ found)⟩
  · have further : ReadTo read log out.store.projections_meta := by
      refine ⟨m, ?_, front⟩
      rw [← cursor_from_replay store out.store cursor moved] at next
      exact next
    refine ⟨further, fun m found => ?_⟩
    have same := declared.symm.trans found
    cases same
    exact further

theorem ReadSoFar.tick {w : World} (readable : ReadSoFar read log w) (max_frames : UInt32) :
    ReadSoFar read log (step crypto read log w (.tick max_frames)) := by
  obtain ⟨n, here, front⟩ := readable.store
  rcases @tick_cases crypto read log w.store w.disk n here max_frames with ⟨_, same⟩ | ⟨_, e, state, failed⟩ | facts
  · rw [step, same]
    exact readable
  · rw [step, failed]
    exact ⟨readable.store, readable.file⟩
  · obtain ⟨_, part, frames, cursor, _, _, next, store_eq, disk_eq⟩ := facts
    rw [step, Outcome.world, store_eq, disk_eq]
    refine readable.commit _ next (fun f member => ?_) _ _
    rw [take_add, ← batch_eq, mem_append] at member
    exact member.elim (front f) (part f)

theorem ReadSoFar.reopen (readable : ReadSoFar read log w) : ReadSoFar read log (step crypto read log w .reopen) := by
  rw [step]
  cases opens : load_or_init crypto w.disk w.store.shard_id w.store.epoch with
  | error e => exact readable
  | ok store =>
    refine ⟨?_, readable.file⟩
    rcases load_or_init_meta opens with same | none
    · rw [same]
      cases found : w.disk.meta_file with
      | none => exact readTo_genesis
      | some declared => exact readable.file declared found
    · rw [none]
      exact readTo_genesis

theorem ReadSoFar.run {ops : List Op} (plain : ∀ op ∈ ops, (∃ max_frames, op = .tick max_frames) ∨ op = .reopen) {w : World}
    (readable : ReadSoFar read log w) : ReadSoFar read log (run crypto read log w ops) := by
  induction ops generalizing w with
  | nil => exact readable
  | cons op rest ih =>
    refine ih (fun x later => plain x (mem_cons_of_mem _ later)) ?_
    rcases plain op mem_cons_self with ⟨max_frames, rfl⟩ | rfl
    · exact readable.tick max_frames
    · exact readable.reopen

/-- The snapshot files keep all of the tables: there are no entities, and no receipt id is all zeros. -/
def Storable (s : ProjectionState) : Prop :=
  s.entity_counts = .empty ∧ s.entity_timelines = .empty ∧ s.entity_current_state = .empty ∧ NoNilReceipt s

theorem Storable.reopened (storable : Storable s) : s.reopened = s := by
  obtain ⟨counts, timelines, current, receipts⟩ := storable
  have pressure := reopened_pressure.mpr receipts
  obtain ⟨living, relations, dependents, rows, _, _, _⟩ := s
  subst counts timelines current
  unfold ProjectionState.reopened at pressure ⊢
  dsimp only at pressure ⊢
  rw [pressure]

theorem carried_project : Carried crypto read log fun n s => s = project crypto read log n where
  start := rfl
  next n k s same := by
    subst same
    exact project_add log n k

theorem length_le_of_finished (here : At log cursor n) (finished : log.replay_from_sealed cursor max_frames = .ok ([], stop)) :
    log.frames.length ≤ n := by
  obtain ⟨frames, stop', replayed, bytes, _⟩ := replay_at here max_frames
  rw [finished] at replayed
  cases replayed
  have size := congrArg List.length bytes
  have room := replayLimit_pos max_frames
  rw [map_nil, length_nil, length_take, length_drop] at size
  omega

/-- A run of ticks, in which the store was only closed when its files kept all of its tables, has at the end of the log the
tables of a rebuild. -/
theorem incremental_eq_rebuild {strings : Set Bytes} (free : CollisionFree crypto strings) {ops : List Op}
    (plain : ∀ op ∈ ops, (∃ max_frames, op = .tick max_frames) ∨ op = .reopen) {shard_id : UInt32} {epoch : UInt64}
    (along : Along crypto read log
      (fun w op => Fine crypto read log strings w op ∧ (op = .reopen → Storable w.store.state)) (.start shard_id epoch) ops)
    {w : World} (ends : run crypto read log (.start shard_id epoch) ops = w) {max_frames : UInt32} {stop : Option ReplayCursor}
    (finished : log.replay_from_sealed w.store.cursor_from_meta max_frames = .ok ([], stop)) (store : ProjectionStoreV1)
    (disk : Disk) (batch_frames : UInt32) :
    w.store.state = (rebuild_from_genesis crypto read log store disk batch_frames).store.state := by
  have start : ReadSoFar read log (.start shard_id epoch) := ⟨readTo_genesis, fun _ found => by cases found⟩
  obtain ⟨n, here, front⟩ := (@ReadSoFar.run crypto read log ops plain _ start).store
  rw [ends] at here
  have readable : Readable read log.frames := by
    rwa [take_of_length_le (length_le_of_finished here finished)] at front
  obtain ⟨_, m, inside, there, state⟩ := (Follows.start carried_project shard_id epoch).run free readable carried_project
    (along.mono fun w op fine => ⟨fine.1, fun opens n same => (fine.2 opens).reopened.trans same⟩)
  rw [ends] at there state
  have total : m = log.frames.length := le_antisymm inside (length_le_of_finished there finished)
  rw [state, total, rebuild_state readable]

end

def sampleFact : ProjectionEventV1 := .EntityFact ⟨"person", "ada", "role", "owner", 1⟩

/-- An update, read, closed, opened again: the tables are those of a rebuild. -/
theorem incremental_eq_rebuild_update :
    (sampleRun [sampleUpdate 1] 1 [.tick 1, .reopen]).store.state =
      (rebuild_from_genesis sampleCrypto (sampleRead [sampleUpdate 1]) (sampleLog 1) (genesis 1 1) {} 1).store.state := by
  have storable : Storable sampleWorld.store.state := by
    have empty : sampleWorld.store.state.entity_counts = .empty ∧ sampleWorld.store.state.entity_timelines = .empty ∧
        sampleWorld.store.state.entity_current_state = .empty ∧ sampleWorld.store.state.pressure = .empty := by decide +kernel
    refine ⟨empty.1, empty.2.1, empty.2.2.1, fun k row found => ?_⟩
    rw [empty.2.2.2] at found
    cases found
  have along : Along sampleCrypto (sampleRead [sampleUpdate 1]) (sampleLog 1)
      (fun w op => Fine sampleCrypto (sampleRead [sampleUpdate 1]) (sampleLog 1) sampleStrings w op ∧
        (op = .reopen → Storable w.store.state)) (.start 1 1) [.tick 1, .reopen] :=
    ⟨⟨(sample_along (.inl rfl)).1, nofun⟩, ⟨sample_fine, fun _ => storable⟩, trivial⟩
  have finished : (sampleLog 1).replay_from_sealed (sampleRun [sampleUpdate 1] 1 [.tick 1, .reopen]).store.cursor_from_meta 1 =
      .ok ([], none) := ok_of_toOption (by decide +kernel)
  exact @incremental_eq_rebuild sampleCrypto (sampleRead [sampleUpdate 1]) (sampleLog 1) sampleStrings sample_free
    [.tick 1, .reopen] (by simp) 1 1 along (sampleRun [sampleUpdate 1] 1 [.tick 1, .reopen]) rfl 1 none finished (genesis 1 1) {} 1

/-- The tables of entities are in no file: after the store has been opened again they are empty, and stay so. -/
theorem entities_lost_on_reopen :
    ((sampleLog 1).replay_from_sealed (sampleRun [sampleFact] 1 [.tick 1, .reopen]).store.cursor_from_meta 1).toOption =
        some ([], none) ∧
      (sampleRun [sampleFact] 1 [.tick 1, .reopen]).store.state ≠
        (rebuild_from_genesis sampleCrypto (sampleRead [sampleFact]) (sampleLog 1) (genesis 1 1) {} 1).store.state := by
  decide +kernel

end Crux.Projections
