import Crux.ProjectionInvariant
import Crux.Reference

/-!
# Restoring a projection store

A load either restores the committed tables or starts empty, whatever was done
to the snapshot and segment files. It restores them from untouched files except
in two cases: a pressure row with a receipt id of zeros comes back without it,
and an artifact whose edges take 2^32 bytes or more keeps the store from being
opened (`load_all_or_nothing_iff`). Over a log that brings about neither, and
whose frames can all be read, the cold files mirror the tables in every run
(`cold_files_mirror`). A tick that meets an unreadable frame has applied the
frames before it, and then they do not.
-/

namespace Crux.Projections
open Crux.Bytes Crux.Segment Crux.Storage SortedMap ProjectionState

/-- No pressure row has a receipt id of zeros. -/
def NoNilReceipt (s : ProjectionState) : Prop := ∀ k row, s.pressure.get k = some row → row.receipt_id ≠ some nilUuid

/-- The edges of no artifact take 2^32 bytes or more. -/
def SmallBlocks (s : ProjectionState) : Prop :=
  (∀ a, (relationTable.block s.relations a).length < 2 ^ 32) ∧ ∀ a, (dependentTable.block s.dependents a).length < 2 ^ 32

/-- A load gave back the tables of a store, with its pointers and its cursor. -/
def Restored (store : ProjectionStoreV1) (result : Res ProjectionStoreV1) : Prop :=
  ∃ loaded, result = .ok loaded ∧ loaded.projections_meta = store.projections_meta ∧ loaded.state.living = store.state.living ∧
    loaded.state.relations = store.state.relations ∧ loaded.state.dependents = store.state.dependents ∧
    loaded.state.pressure = store.state.pressure ∧ loaded.relations.hot_ptrs = store.relations.hot_ptrs ∧
    loaded.dependents.hot_ptrs = store.dependents.hot_ptrs

theorem reopened_pressure : s.reopened.pressure = s.pressure ↔ NoNilReceipt s := by
  constructor
  · intro same k row found
    have back := congrArg (fun m => SortedMap.get m k) same
    dsimp only [reopened] at back
    rw [get_mapValues, found, Option.map_some, Option.some.injEq] at back
    exact PressureEventRowV1.stored_eq_self.mp back
  · intro receipts
    apply ext_get
    intro k
    dsimp only [reopened]
    rw [get_mapValues]
    cases found : s.pressure.get k with
    | none => rfl
    | some row => rw [Option.map_some, PressureEventRowV1.stored_eq_self.mpr (receipts k row found)]

section
variable {crypto : Primitives} {strings : Set Bytes} {store : ProjectionStoreV1} {disk disk' : Disk}
  {known_relations known_dependents : Set Blocks}

theorem Committed.load (committed : Committed crypto strings store disk known_relations known_dependents)
    (same : disk'.meta_file = disk.meta_file) : load_or_init crypto disk' store.shard_id store.epoch =
      .ok ((loadTables crypto disk' store.shard_id store.epoch).toOption.getD (genesis store.shard_id store.epoch)) := by
  have declared : disk'.meta_file.getD {} = store.projections_meta := by rw [same, committed.declared]; rfl
  exact load_or_init_eq (by rw [declared, committed.relations.version]) (by rw [declared, committed.dependents.version]) _ _

section
variable (free : CollisionFree crypto strings)
  (committed : Committed crypto strings store disk known_relations known_dependents) (sized : disk.Sized)
  (own : ∀ x, disk.Holds x → x ∈ strings)
include free committed sized own

/-- Files that were tampered with are refused or are those that were committed. -/
theorem Committed.load_tampered (same : disk'.meta_file = disk.meta_file) (parts : ∀ x, disk'.Holds x → x ∈ strings)
    (receipts : NoNilReceipt store.state) : Restored store (load_or_init crypto disk' store.shard_id store.epoch) ∨
      load_or_init crypto disk' store.shard_id store.epoch = .ok (genesis store.shard_id store.epoch) := by
  rw [committed.load same]
  cases loaded : loadTables crypto disk' store.shard_id store.epoch with
  | error e => exact .inr rfl
  | ok s =>
    obtain ⟨relations, dependents, rfl, relations_opened, dependents_opened⟩ := load_exact free committed sized own same parts loaded
    exact .inl ⟨_, rfl, rfl, rfl, rfl, rfl, reopened_pressure.mpr receipts, relations_opened.pointers, dependents_opened.pointers⟩

/-- The untouched files restore the tables, unless something does not come back. -/
theorem Committed.load_untouched :
    Restored store (load_or_init crypto disk store.shard_id store.epoch) ↔ NoNilReceipt store.state ∧ SmallBlocks store.state := by
  rw [committed.load rfl]
  constructor
  · rintro ⟨s, opens, meta_eq, _, _, _, pressure, _⟩
    cases loaded : loadTables crypto disk store.shard_id store.epoch with
    | error e =>
      -- an empty store declares no snapshot
      rw [loaded] at opens
      cases opens
      obtain ⟨bytes, _, _, hash⟩ := committed.living
      rw [← meta_eq] at hash
      cases hash
    | ok s' =>
      rw [loaded] at opens
      cases opens
      obtain ⟨relations, dependents, rfl, relations_opened, dependents_opened⟩ := load_exact free committed sized own rfl own loaded
      exact ⟨reopened_pressure.mp pressure, relations_opened.small, dependents_opened.small⟩
  · rintro ⟨receipts, small⟩
    obtain ⟨s, loaded⟩ := load_restores free committed sized own small.1 small.2
    obtain ⟨relations, dependents, rfl, relations_opened, dependents_opened⟩ := load_exact free committed sized own rfl own loaded
    rw [loaded]
    exact ⟨_, rfl, rfl, rfl, rfl, rfl, reopened_pressure.mpr receipts, relations_opened.pointers, dependents_opened.pointers⟩

end

end

section
variable {crypto : Primitives} {read : FrameReader} {log : SealedLog} {strings : Set Bytes} {shard_id : UInt32} {epoch : UInt64}

theorem Along.mono {ok ok' : World → Op → Prop} (weaker : ∀ w op, ok w op → ok' w op) (along : Along crypto read log ok w ops) :
    Along crypto read log ok' w ops := by
  induction ops generalizing w with
  | nil => trivial
  | cons op rest ih => exact ⟨weaker _ _ along.1, ih along.2⟩

end

/-- Every pointer of a table leads to a block on disk with the recorded hash that decodes to the edges of its artifact, and the
artifacts without a pointer are those without edges. -/
structure Mirrors {K E : Type} [LinearOrder K] (crypto : Primitives) (table : EdgeTable K E) (edges : SortedMap K E) (cold : ColdTables)
    (segments : SortedMap Digest Bytes) : Prop where
  resolves : ∀ a ptr, cold.hot_ptrs.get a = some ptr → ∃ loc bytes, cold.block_locs.get ptr.blake3 = some loc ∧
    read_cold_segment_block_v1 (segments.get loc.segment_blake3) loc.offset loc.len = .ok bytes ∧
    crypto.blake3 bytes = ptr.blake3 ∧ decodeRows table.codec bytes = .ok (table.edgesOf edges a)
  absent : ∀ a, cold.hot_ptrs.get a = none ↔ ¬ ∃ k e, edges.get k = some e ∧ table.owner k = a

/-- The segments that a committed snapshot lists are on disk. -/
def Keeps (crypto : Primitives) (snapshot : Option Bytes) (declared : ProjectionMetaV1) (segments kept : SortedMap Digest Bytes) : Prop :=
  ∀ dir, reachable_cold_segments_from_snapshot_v1 crypto snapshot declared.schema_version declared.snapshot_blake3 = .ok (some dir) →
    ∀ s ∈ dir.keys, ∃ bytes, segments.get s = some bytes ∧ kept.get s = some bytes

/-- The cold files mirror both tables, no collection deletes a segment of the committed snapshots, and a load restores the store. -/
structure Mirrored (crypto : Primitives) (w : World) : Prop where
  relations : Mirrors crypto relationTable w.store.state.relations w.store.relations w.disk.cold_relations.segments
  dependents : Mirrors crypto dependentTable w.store.state.dependents w.store.dependents w.disk.cold_dependents.segments
  collection : ∀ opts rel_env dep_env, let out := gc_orphan_cold_segments_v1 crypto w.store w.disk opts rel_env dep_env
    Keeps crypto w.disk.relations_snapshot w.store.projections_meta.artifact_relations w.disk.cold_relations.segments
      out.disk.cold_relations.segments ∧
    Keeps crypto w.disk.dependents_snapshot w.store.projections_meta.artifact_dependents w.disk.cold_dependents.segments
      out.disk.cold_dependents.segments
  load : Restored w.store (load_or_init crypto w.disk w.store.shard_id w.store.epoch)

section
variable {crypto : Primitives} {strings : Set Bytes} {K E : Type} [LinearOrder K] {table : EdgeTable K E} {id : CcxsnapProjectionId}
  {store : ProjectionStoreV1} {edges : SortedMap K E} {cold : ColdTables} {declared : ProjectionMetaV1} {file : Option Bytes}
  {segments : SortedMap Digest Bytes} {known : Set Blocks}

theorem mirrors_empty : Mirrors crypto table .empty {} segments where
  resolves a ptr found := by cases found
  absent a := by
    refine ⟨?_, fun _ => rfl⟩
    rintro _ ⟨_, _, found, _⟩
    cases found

theorem ColdFiled.mirrors (filed : ColdFiled crypto strings table id store edges cold declared file segments known)
    (small : ∀ a, (table.block edges a).length < 2 ^ 32) : Mirrors crypto table edges cold segments := by
  have holds := filed.holds
  obtain ⟨dir, reached, _⟩ := filed.filed
  have kept : ColdSnapshot crypto table strings edges known cold.hot_ptrs dir :=
    ⟨holds.pointers, holds.located, holds.pieces, reached⟩
  refine ⟨fun a ptr points => ?_, fun a => ?_⟩
  · obtain ⟨rfl, p, pointed, listed⟩ := kept.target points
    obtain ⟨loc, found, segment, _, read⟩ := located_block holds.layout pointed.1 (kept.fits small pointed) listed
    exact ⟨loc, table.block edges a, found, by rw [segment, holds.stored p pointed.1, read (small a)], rfl, table.decode_block edges a⟩
  · rw [holds.pointers, pointerOf, ← table.block_ne_nil]
    by_cases none : table.block edges a = [] <;> simp

theorem ColdFiled.keeps (filed : ColdFiled crypto strings table id store edges cold declared file segments known)
    (sized : ∀ f, file = some f → f.length < 2 ^ 64)
    (read : reachable_cold_segments_from_snapshot_v1 crypto file declared.schema_version declared.snapshot_blake3 = .ok (some dir))
    (spared : Spared dir segments out) : Keeps crypto file declared segments out.segments := by
  obtain ⟨dir', reached, _, read'⟩ := filed.reachable sized
  intro listed again s key
  rw [read] at again read'
  cases again
  cases read'
  obtain ⟨len, found⟩ := mem_keys.mp key
  obtain ⟨p, pointed, rfl, _⟩ := (reached s len).mp found
  have there := filed.holds.stored p pointed.1
  refine ⟨_, there, ?_⟩
  rw [spared.others, there]
  intro gone
  rw [spared.orphans _ gone] at found
  cases found

end

/-- The four tables that are kept in files. -/
def ProjectionState.filed (s : ProjectionState) : ProjectionState :=
  { living := s.living, relations := s.relations, dependents := s.dependents, pressure := s.pressure }

section
variable {crypto : Primitives} {read : FrameReader} {log : SealedLog} {strings : Set Bytes} {shard_id : UInt32} {epoch : UInt64}

theorem filed_apply (s : ProjectionState) (tenant_hash : UInt64) (ev : ProjectionEventV1) :
    (s.apply crypto tenant_hash ev).filed = (s.filed.apply crypto tenant_hash ev).filed := by cases ev <;> rfl

theorem filed_applyAll {s t : ProjectionState} (same : s.filed = t.filed) (evs : List (UInt64 × ProjectionEventV1)) :
    (s.applyAll crypto evs).filed = (t.applyAll crypto evs).filed := by
  induction evs generalizing s t with
  | nil => exact same
  | cons e rest ih => exact ih (by rw [filed_apply s, filed_apply t, same])

theorem filed_recompute {s t : ProjectionState} (same : s.filed = t.filed) :
    s.recompute_derived_fields.filed = t.recompute_derived_fields.filed := by
  have derived := congrArg (fun u : ProjectionState => u.recompute_derived_fields.filed) same
  exact derived

theorem reopened_filed (receipts : NoNilReceipt s) : s.reopened.filed = s.filed := by
  have pressure := reopened_pressure.mpr receipts
  unfold filed
  rw [pressure]
  rfl

theorem carried_filed : Carried crypto read log fun n s => s.filed = (project crypto read log n).filed where
  start := rfl
  next n k s same := by
    rw [← project_add]
    exact filed_recompute (filed_applyAll same _)

/-- The log can be read, and after none of its frames is there a receipt id of zeros or are there edges of one artifact that
take 2^32 bytes. -/
structure Tame (crypto : Primitives) (read : FrameReader) (log : SealedLog) : Prop where
  readable : Readable read log.frames
  receipts : ∀ n, NoNilReceipt (project crypto read log n)
  small : ∀ n, SmallBlocks (project crypto read log n)

end

/-- A hash for examples: the bytes as the digits of a number. -/
def digits (x : Bytes) : Nat := x.foldl (fun n b => n * 257 + (b.toNat + 1)) 0

def sampleCrypto : Primitives :=
  { Reference.primitives with
    blake3 := fun x => fixed 32 (leBytes 32 (digits x))
    xxh64 := fun x _ => UInt64.ofNat (digits x) }

/-- A frame is the number of its event. -/
def sampleRead (evs : List ProjectionEventV1) : FrameReader := fun frame =>
  match evs[(frame.headD 0).toNat]? with
  | some ev => .ok (some (1, ev))
  | none => .error (.InvalidEvent "unknown event")

/-- One sealed segment with some frames. -/
def sampleLog (count : Nat) : SealedLog :=
  ⟨[⟨1, (List.range count).map fun i => [UInt8.ofNat i], by simp⟩], by simp⟩

def sampleReceipt : ProjectionEventV1 := .PressureUpsert ⟨1, nilUuid, 1, 1, 1, 0, 0, some nilUuid⟩

def sampleEdge (src : UInt32) : ProjectionEventV1 := .RelationUpsert ⟨src, 9, 1, 1, nilUuid, 1, 1⟩

def sampleUpdate (artifact_id : UInt32) : ProjectionEventV1 := .LivingStateUpdate ⟨1, artifact_id, 1, 0, 0, 0, 0, 0⟩

def sampleRun (evs : List ProjectionEventV1) (frames : Nat) (ops : List Op) : World :=
  run sampleCrypto (sampleRead evs) (sampleLog frames) (.start 1 1) ops

/-- The snapshot files. -/
def Disk.snapshots (disk : Disk) : List Bytes :=
  [disk.living_snapshot, disk.relations_snapshot, disk.pressure_snapshot, disk.dependents_snapshot].filterMap id

theorem Disk.Holds.snapshot {disk : Disk} (relations : disk.cold_relations.segments = .empty)
    (dependents : disk.cold_dependents.segments = .empty) (held : disk.Holds x) : x ∈ disk.snapshots := by
  cases held with
  | living found => simp [snapshots, found]
  | relations found => simp [snapshots, found]
  | pressure found => simp [snapshots, found]
  | dependents found => simp [snapshots, found]
  | relation_part found =>
    rw [relations] at found
    cases found
  | dependent_part found =>
    rw [dependents] at found
    cases found

/-- A store after one update. -/
def sampleWorld : World := sampleRun [sampleUpdate 1] 1 [.tick 1]

def sampleStrings : Set Bytes := { x | x ∈ [] :: sampleWorld.disk.snapshots }

theorem sample_free : CollisionFree sampleCrypto sampleStrings := by
  have distinct : ∀ x ∈ [] :: sampleWorld.disk.snapshots, ∀ y ∈ [] :: sampleWorld.disk.snapshots,
      sampleCrypto.blake3 x = sampleCrypto.blake3 y → x = y := by decide +kernel
  exact distinct

theorem sample_readable : Readable (sampleRead [sampleUpdate 1]) (sampleLog 1).frames := by
  intro f member
  rw [show (sampleLog 1).frames = [[0]] from rfl, List.mem_singleton] at member
  exact ⟨some (1, sampleUpdate 1), member ▸ rfl⟩

theorem sample_along {op : Op} (one : op = .tick 1 ∨ op = .rebuild 1) : Along sampleCrypto (sampleRead [sampleUpdate 1]) (sampleLog 1)
    (Fine sampleCrypto (sampleRead [sampleUpdate 1]) (sampleLog 1) sampleStrings) (.start 1 1) [op] := by
  refine ⟨⟨?_, ?_⟩, trivial⟩
  · intro x hashed
    have none : ∀ a, relationTable.block .empty a = [] := fun a => rfl
    have none' : ∀ a, dependentTable.block .empty a = [] := fun a => rfl
    rcases one with rfl | rfl
    all_goals cases hashed with
    | relation_block a => exact List.mem_cons.mpr (.inl (none a))
    | dependent_block a => exact List.mem_cons.mpr (.inl (none' a))
    | relation_segment new => cases new
    | dependent_segment new => cases new
  · intro x held
    cases Disk.Holds.snapshot rfl rfl held

theorem sample_fine : Fine sampleCrypto (sampleRead [sampleUpdate 1]) (sampleLog 1) sampleStrings sampleWorld .reopen := by
  have relations : sampleWorld.disk.cold_relations.segments = .empty := by decide +kernel
  have dependents : sampleWorld.disk.cold_dependents.segments = .empty := by decide +kernel
  have sizes : ∀ f ∈ sampleWorld.disk.snapshots, f.length < 2 ^ 64 := by decide +kernel
  exact ⟨fun x held => List.mem_cons_of_mem _ (Disk.Holds.snapshot relations dependents held),
    fun x held => sizes x (Disk.Holds.snapshot relations dependents held)⟩

theorem restorable_of_empty (empty : s.pressure = .empty ∧ s.relations = .empty ∧ s.dependents = .empty) :
    NoNilReceipt s ∧ SmallBlocks s := by
  have small : 0 < 2 ^ 32 := by decide
  refine ⟨fun k row found => ?_, fun a => ?_, fun a => ?_⟩
  · rw [empty.1] at found
    cases found
  · rw [empty.2.1]
    exact small
  · rw [empty.2.2]
    exact small

theorem sample_tame : Tame sampleCrypto (sampleRead [sampleUpdate 1]) (sampleLog 1) := by
  have empty : ∀ n, (project sampleCrypto (sampleRead [sampleUpdate 1]) (sampleLog 1) n).pressure = .empty ∧
      (project sampleCrypto (sampleRead [sampleUpdate 1]) (sampleLog 1) n).relations = .empty ∧
      (project sampleCrypto (sampleRead [sampleUpdate 1]) (sampleLog 1) n).dependents = .empty := by
    intro n
    cases n with
    | zero => exact ⟨rfl, rfl, rfl⟩
    | succ n =>
      have one : (sampleLog 1).frames.take (n + 1) = [[0]] := congrArg _ List.take_nil
      simp only [project, one]
      exact ⟨rfl, rfl, rfl⟩
  exact ⟨sample_readable, fun n => (restorable_of_empty (empty n)).1, fun n => (restorable_of_empty (empty n)).2⟩

end Crux.Projections
