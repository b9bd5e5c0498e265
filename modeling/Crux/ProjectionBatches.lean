import Crux.ProjectionRebuild

/-!
# How the batches of a log show in the snapshots

Each commit puts the blocks that are new to it into segments of its own, so the
segments depend on where the batches cut the log (`layoutOf`, `cutsOf`). The
snapshots of living states and of pressure do not; those of edges list the
segments that hold current blocks (`snapshots_same_iff`).
-/

namespace Crux.Projections
open Crux.Bytes Crux.Segment Crux.Storage List SortedMap

section
variable {K E : Type} [LinearOrder K] (crypto : Primitives) (table : EdgeTable K E)

/-- The blocks of a table that are in none of the segments. -/
def unseenBlocks (known : List Blocks) (edges : SortedMap K E) : Blocks :=
  SortedMap.empty.insertAll (((edges.keys.map fun k => table.block edges (table.owner k)).map fun b => (crypto.blake3 b, b)).filter
    fun e => ! known.any fun p => p.contains e.1)

/-- The segments after commits of tables, one after the other. -/
def layoutOf (tables : List (SortedMap K E)) : List Blocks :=
  tables.foldl (fun known edges => known ++ cutSegments .empty 0 (unseenBlocks crypto table known edges).entries) []

/-- The current blocks of a table are in the same segments. -/
def SameSegments (edges : SortedMap K E) (known known' : List Blocks) : Prop :=
  ∀ p : Blocks, (∃ a, table.block edges a ≠ [] ∧ crypto.blake3 (table.block edges a) ∈ p.keys) → (p ∈ known ↔ p ∈ known')

end

section
variable {K E : Type} [LinearOrder K] {crypto : Primitives} {strings : Set Bytes} {table : EdgeTable K E} {edges : SortedMap K E}

variable {known : List Blocks}

theorem unseenBlocks_get (free : CollisionFree crypto strings)
    (blocks : ∀ a, table.block edges a ≠ [] → table.block edges a ∈ strings) :
    (unseenBlocks crypto table known edges).get h = some b ↔
      ∃ a, table.block edges a = b ∧ b ≠ [] ∧ crypto.blake3 b = h ∧ ∀ p ∈ known, h ∉ p.keys := by
  have listed : ∀ h b, (h, b) ∈ (((edges.keys.map fun k => table.block edges (table.owner k)).map fun b => (crypto.blake3 b, b)).filter
      fun e => ! known.any fun p => p.contains e.1) ↔
      ∃ a, table.block edges a = b ∧ b ≠ [] ∧ crypto.blake3 b = h ∧ ∀ p ∈ known, h ∉ p.keys := by
    intro h b
    rw [mem_filter, map_map, mem_map]
    simp only [Bool.not_eq_true', any_eq_false, SortedMap.contains_iff, ← SortedMap.mem_keys]
    constructor
    · rintro ⟨⟨k, member, same⟩, unseen⟩
      obtain ⟨e, found⟩ := SortedMap.mem_keys.mp member
      cases same
      exact ⟨table.owner k, rfl, table.block_ne_nil.mpr ⟨k, e, found, rfl⟩, rfl, unseen⟩
    · rintro ⟨a, rfl, some_edge, rfl, unseen⟩
      obtain ⟨k, e, found, own⟩ := table.block_ne_nil.mp some_edge
      exact ⟨⟨k, SortedMap.mem_keys.mpr ⟨e, found⟩, by simp [own]⟩, unseen⟩
  unfold unseenBlocks
  generalize List.filter _ _ = entries at listed ⊢
  have single : ∀ h v w, (h, v) ∈ entries → (h, w) ∈ entries → v = w := by
    intro h v w here there
    obtain ⟨a, rfl, some_edge, hash, _⟩ := (listed h v).mp here
    obtain ⟨a', rfl, some_edge', hash', _⟩ := (listed h w).mp there
    exact free _ (blocks a some_edge) _ (blocks a' some_edge') (hash.trans hash'.symm)
  rw [get_insertAll single, listed]
  simp

variable {cold : ColdTables}

section
variable (free : CollisionFree crypto strings) (blocks : ∀ a, table.block edges a ≠ [] → table.block edges a ∈ strings)
  {schema_version : Nat} {touched : Option (List ArtifactKey)}
include free blocks

theorem newSegments_eq (layout : Layout crypto (coldBase cold schema_version touched) { p | p ∈ known })
    (others : ∀ a, a ∉ coldKeys table edges cold.hot_ptrs schema_version touched → Located crypto table { p | p ∈ known } edges a) :
    newSegments crypto table edges schema_version touched cold =
      cutSegments .empty 0 (unseenBlocks crypto table known edges).entries := by
  rw [newSegments]
  generalize coldKeys table edges cold.hot_ptrs schema_version touched = keys at others
  generalize coldBase cold schema_version touched = base at layout
  have unseen : ∀ h, base.block_locs.contains h = false ↔ ∀ p ∈ known, h ∉ p.keys := by
    intro h
    rw [← Bool.not_eq_true, layout.contains_iff]
    simp
  have same : (pointBlocks crypto table edges base.block_locs keys base.hot_ptrs).2 = unseenBlocks crypto table known edges := by
    refine ext_get fun h => Option.ext fun b => ?_
    rw [unseenBlocks_get free blocks]
    constructor
    · intro found
      rcases points_sound found with none | ⟨a, _, block, some_edge, hash, unknown⟩
      · cases none
      · exact ⟨a, block, some_edge, hash, (unseen h).mp unknown⟩
    · rintro ⟨a, rfl, some_edge, rfl, unknown⟩
      have member : a ∈ keys := by
        by_contra outside
        obtain ⟨p, inside, found⟩ := others a outside some_edge
        exact unknown p inside (SortedMap.mem_keys.mpr ⟨_, found⟩)
      obtain ⟨b, found⟩ := @points_complete crypto _ _ _ table edges base.block_locs keys (base.hot_ptrs, .empty) _ (.inr
        ⟨a, member, some_edge, rfl, (unseen _).mpr unknown⟩)
      rcases points_sound found with none | ⟨a', _, block, some_edge', hash, _⟩
      · cases none
      · have equal := free b (block ▸ blocks a' (block ▸ some_edge')) _ (blocks a some_edge) hash
        exact found.trans (congrArg some equal)
  rw [same]

theorem newSegments_anew (anew : schema_version < 3 ∨ touched = none) (cold : ColdTables) :
    newSegments crypto table edges schema_version touched cold = layoutOf crypto table [edges] := by
  have nothing : ({ p | p ∈ ([] : List Blocks) } : Set Blocks) = ∅ := by simp
  refine newSegments_eq free blocks ?_ fun a outside some_edge => absurd (outside_coldKeys anew outside).1 some_edge
  rw [coldBase, if_pos anew, nothing]
  exact Layout.none _

end

theorem layoutOf_append (tables : List (SortedMap K E)) :
    ({ p | p ∈ layoutOf crypto table (tables ++ [edges]) } : Set Blocks) = { p | p ∈ layoutOf crypto table tables } ∪
      { p | p ∈ cutSegments .empty 0 (unseenBlocks crypto table (layoutOf crypto table tables) edges).entries } := by
  rw [layoutOf, foldl_append]
  exact Set.ext fun p => mem_append

/-- A commit of the touched artifacts writes the blocks not seen before, whether it is the first one or not. -/
theorem newSegments_touched (free : CollisionFree crypto strings)
    (blocks : ∀ a, table.block edges a ≠ [] → table.block edges a ∈ strings) (before : (schema_version < 3 ∧ known = []) ∨
      (schema_version = 3 ∧ ∃ segments, ColdHolds crypto table strings old cold segments { p | p ∈ known }))
    (same : ∀ a, a ∉ touched → table.block edges a = table.block old a) :
    newSegments crypto table edges schema_version (some touched) cold =
      cutSegments .empty 0 (unseenBlocks crypto table known edges).entries := by
  rcases before with ⟨older, rfl⟩ | ⟨rfl, segments, holds⟩
  · exact newSegments_anew free blocks (.inl older) cold
  · refine newSegments_eq free blocks holds.layout fun a outside => ?_
    have keys : coldKeys table edges cold.hot_ptrs 3 (some touched) = SortedMap.sortedKeys touched := by simp [coldKeys]
    rw [keys, mem_sortedKeys] at outside
    rw [Located, same a outside]
    exact holds.located a

theorem ColdHolds.blocks {segments : SortedMap Digest Bytes} {known : Set Blocks}
    (holds : ColdHolds crypto table strings edges cold segments known) (a : ArtifactKey) (some_edge : table.block edges a ≠ []) :
    table.block edges a ∈ strings := by
  obtain ⟨p, member, found⟩ := holds.located a some_edge
  exact (holds.pieces.ok p member).blocks _ _ found

/-- The snapshots of one table, committed by two stores at one cursor, are the same file just when the current blocks are in
the same segments. -/
theorem ColdFiled.same_iff {id : CcxsnapProjectionId} (free : CollisionFree crypto strings)
    (filed : ColdFiled crypto strings table id store edges cold declared file segments { p | p ∈ known })
    (filed' : ColdFiled crypto strings table id store' edges cold' declared' file' segments' { p | p ∈ known' })
    (shard : store.shard_id = store'.shard_id) (epoch : store.epoch = store'.epoch) (cursor : store.cursor = store'.cursor)
    (sized : ∀ f, file = some f → f.length < 2 ^ 64) (sized' : ∀ f, file' = some f → f.length < 2 ^ 64) :
    file = file' ↔ SameSegments crypto table edges known known' := by
  have ptrs : cold.hot_ptrs = cold'.hot_ptrs :=
    ext_get fun a => (filed.holds.pointers a).trans (filed'.holds.pointers a).symm
  have pointed : ∀ p : Blocks, (∃ ptr ∈ cold.hot_ptrs.values, ptr.blake3 ∈ p.keys) ↔
      ∃ a, table.block edges a ≠ [] ∧ crypto.blake3 (table.block edges a) ∈ p.keys := by
    intro p
    constructor
    · rintro ⟨ptr, listed, key⟩
      obtain ⟨a, points⟩ := mem_values.mp listed
      obtain ⟨rfl, some_edge, _⟩ := filed.holds.pointed points
      exact ⟨a, some_edge, key⟩
    · rintro ⟨a, some_edge, key⟩
      have points := filed.holds.pointers a
      rw [pointerOf, if_neg some_edge] at points
      exact ⟨_, mem_values.mpr ⟨a, points⟩, key⟩
  obtain ⟨dir, reached, ⟨bytes, content, file_eq, hash⟩, listing⟩ := filed.reachable sized
  obtain ⟨dir', reached', ⟨bytes', content', file_eq', hash'⟩, listing'⟩ := filed'.reachable sized'
  have one_way : ∀ {known known' : List Blocks} {dir : SortedMap Digest UInt64},
      Pieces crypto strings { p | p ∈ known } → Pieces crypto strings { p | p ∈ known' } →
      Reached crypto { p | p ∈ known } cold.hot_ptrs dir → Reached crypto { p | p ∈ known' } cold.hot_ptrs dir →
      ∀ p, (∃ ptr ∈ cold.hot_ptrs.values, ptr.blake3 ∈ p.keys) → p ∈ known → p ∈ known' := by
    intro known known' dir pieces pieces' here there p points member
    obtain ⟨q, ⟨member', _⟩, name, _⟩ := (there (segId crypto p) (segLen p)).mp ((here _ _).mpr ⟨p, ⟨member, points⟩, rfl, rfl⟩)
    have ok := pieces.ok p member
    have ok' := pieces'.ok q member'
    have equal := build_inj free ok.few ok'.few ok.addressed ok'.addressed ok.blocks ok'.blocks
      (free _ ok.bytes _ ok'.bytes name.symm)
    exact equal ▸ member'
  constructor
  · intro same p points
    -- the directory is read back from the file
    rw [filed.version, hash] at listing
    rw [filed'.version, hash', ← same] at listing'
    have equal : bytes = bytes' := Option.some.inj (file_eq.symm.trans (same.trans file_eq'))
    rw [← equal, listing] at listing'
    cases listing'
    rw [← ptrs] at reached'
    have points := (pointed p).mpr points
    exact ⟨one_way filed.holds.pieces filed'.holds.pieces reached reached' p points,
      one_way filed'.holds.pieces filed.holds.pieces reached' reached p points⟩
  · intro same
    have dirs : dir = dir' := by
      refine ext_get fun s => Option.ext fun len => ?_
      rw [reached, reached', ← ptrs]
      constructor
      · rintro ⟨p, ⟨member, points⟩, name⟩
        exact ⟨p, ⟨(same p ((pointed p).mp points)).mp member, points⟩, name⟩
      · rintro ⟨p, ⟨member, points⟩, name⟩
        exact ⟨p, ⟨(same p ((pointed p).mp points)).mpr member, points⟩, name⟩
    have contents : coldFile crypto store store.cursor id cold.hot_ptrs dir =
        coldFile crypto store' store'.cursor id cold'.hot_ptrs dir' := by
      rw [coldFile, coldFile, snapshotFile, snapshotFile, shard, epoch, cursor, ptrs, dirs]
    rw [content, content'] at contents
    rw [file_eq, file_eq', Except.ok.inj contents]

end

/-! ## Cuts -/

/-- The numbers of frames at the commits of a run, since the last rebuild. -/
def cutsAfter (total : Nat) (cuts : List Nat) : Op → List Nat
  | .tick max_frames =>
    if cuts.getLastD 0 < total then cuts ++ [min total (cuts.getLastD 0 + replayLimit max_frames)] else cuts
  | .rebuild _ => [total]
  | .reopen => cuts
  | .gc _ _ _ => cuts

def cutsOf (total : Nat) (ops : List Op) : List Nat := ops.foldl (cutsAfter total) []

section
variable {crypto : Primitives} {read : FrameReader} {log : SealedLog} {strings : Set Bytes}

section
variable (crypto : Primitives) (read : FrameReader) (log : SealedLog) (cuts : List Nat)

def relationLayout : List Blocks :=
  layoutOf crypto relationTable (cuts.map fun n => (project crypto read log n).relations)

def dependentLayout : List Blocks :=
  layoutOf crypto dependentTable (cuts.map fun n => (project crypto read log n).dependents)

end

/-- The store has committed at these cuts. -/
structure Cut (crypto : Primitives) (read : FrameReader) (log : SealedLog) (strings : Set Bytes) (shard_id : UInt32) (epoch : UInt64)
    (w : World) (cuts : List Nat) : Prop where
  shard : w.store.shard_id = shard_id
  epoch : w.store.epoch = epoch
  stands : Stands crypto strings w { p | p ∈ relationLayout crypto read log cuts } { p | p ∈ dependentLayout crypto read log cuts }
  inside : cuts.getLastD 0 ≤ log.frames.length
  here : At log w.store.cursor_from_meta (cuts.getLastD 0)
  state : w.store.state = project crypto read log (cuts.getLastD 0)

theorem Cut.start (shard_id : UInt32) (epoch : UInt64) :
    Cut crypto read log strings shard_id epoch (.start shard_id epoch) [] where
  shard := rfl
  epoch := rfl
  stands := by
    have nothing : ({ p | p ∈ ([] : List Blocks) } : Set Blocks) = ∅ := by simp
    change Stands crypto strings _ { p | p ∈ ([] : List Blocks) } { p | p ∈ ([] : List Blocks) }
    rw [nothing]
    exact .fresh ⟨rfl, rfl, fun _ _ found => (by cases found), fun _ _ found => (by cases found)⟩
  inside := Nat.zero_le _
  here := .genesis
  state := rfl

variable {shard_id : UInt32} {epoch : UInt64} {w : World} {cuts : List Nat}

/-- What a store with these cuts knows before a commit. -/
theorem Cut.before (cut : Cut crypto read log strings shard_id epoch w cuts) :
    ((w.store.projections_meta.artifact_relations.schema_version < 3 ∧ relationLayout crypto read log cuts = []) ∨
      (w.store.projections_meta.artifact_relations.schema_version = 3 ∧ ∃ segments, ColdHolds crypto relationTable strings
        w.store.state.relations w.store.relations segments { p | p ∈ relationLayout crypto read log cuts })) ∧
    ((w.store.projections_meta.artifact_dependents.schema_version < 3 ∧ dependentLayout crypto read log cuts = []) ∨
      (w.store.projections_meta.artifact_dependents.schema_version = 3 ∧ ∃ segments, ColdHolds crypto dependentTable strings
        w.store.state.dependents w.store.dependents segments { p | p ∈ dependentLayout crypto read log cuts })) := by
  have empty : ∀ known : List Blocks, ({ p | p ∈ known } : Set Blocks) = ∅ → known = [] := fun known none =>
    eq_nil_iff_forall_not_mem.mpr fun p member => (none ▸ member : p ∈ (∅ : Set Blocks))
  have stands := cut.stands
  generalize relations_eq : { p | p ∈ relationLayout crypto read log cuts } = relations at stands ⊢
  generalize dependents_eq : { p | p ∈ dependentLayout crypto read log cuts } = dependents at stands ⊢
  cases stands with
  | fresh fresh =>
    rw [fresh.empty]
    exact ⟨.inl ⟨(by decide : 1 < 3), empty _ relations_eq⟩, .inl ⟨(by decide : 1 < 3), empty _ dependents_eq⟩⟩
  | committed files =>
    exact ⟨.inr ⟨files.relations.version, _, files.relations.holds⟩, .inr ⟨files.dependents.version, _, files.dependents.holds⟩⟩

section
variable (free : CollisionFree crypto strings) (readable : Readable read log.frames)
include free readable

theorem Cut.tick (cut : Cut crypto read log strings shard_id epoch w cuts)
    (hashes : stepHashes crypto read log w (.tick max_frames) ⊆ strings) :
    Cut crypto read log strings shard_id epoch (step crypto read log w (.tick max_frames))
      (cutsAfter log.frames.length cuts (.tick max_frames)) := by
  have part : Readable read (batch log (cuts.getLastD 0) max_frames) := fun f member =>
    readable f (mem_of_mem_drop (mem_of_mem_take member))
  have size : (batch log (cuts.getLastD 0) max_frames).length =
      min (replayLimit max_frames) (log.frames.length - cuts.getLastD 0) := by rw [batch, length_take, length_drop]
  have room := replayLimit_pos max_frames
  have inside := cut.inside
  rcases cut.stands.tick free cut.here part hashes with ⟨none, same⟩ |
    ⟨state, touched_relations, touched_dependents, some_frame, state_eq, relations, dependents, files, kept, next, shard, epoch⟩
  · have finished : ¬ cuts.getLastD 0 < log.frames.length := by
      rw [none, length_nil] at size
      omega
    rw [same, cutsAfter, if_neg finished]
    exact cut
  · have more : cuts.getLastD 0 < log.frames.length := by
      have some_frame := length_pos_iff.mpr some_frame
      omega
    have further : cuts.getLastD 0 + (batch log (cuts.getLastD 0) max_frames).length =
        min log.frames.length (cuts.getLastD 0 + replayLimit max_frames) := by omega
    have projected : state = project crypto read log (min log.frames.length (cuts.getLastD 0 + replayLimit max_frames)) := by
      rw [state_eq, cut.state, batch_eq, project_add, further]
    have relation_blocks := files.relations.holds.blocks
    have dependent_blocks := files.dependents.holds.blocks
    rw [kept] at relation_blocks dependent_blocks
    have new_relations := newSegments_touched free relation_blocks cut.before.1 relations
    have new_dependents := newSegments_touched free dependent_blocks cut.before.2 dependents
    rw [further] at next
    rw [cutsAfter, if_pos more]
    refine ⟨shard.trans cut.shard, epoch.trans cut.epoch, ?_, ?_, ?_, ?_⟩
    · rw [relationLayout, dependentLayout, map_append, map_append, map_singleton, map_singleton, layoutOf_append,
        layoutOf_append, ← projected]
      rw [newRelations, newDependents] at files
      rw [new_relations, new_dependents] at files
      exact .committed files
    · rw [getLastD_concat]
      exact Nat.min_le_left _ _
    · rw [getLastD_concat]
      exact next
    · rw [getLastD_concat, kept]
      exact projected

theorem Cut.rebuild (cut : Cut crypto read log strings shard_id epoch w cuts)
    (hashes : stepHashes crypto read log w (.rebuild batch_frames) ⊆ strings) :
    Cut crypto read log strings shard_id epoch (step crypto read log w (.rebuild batch_frames)) [log.frames.length] := by
  obtain ⟨files, kept, next, shard, epoch⟩ := cut.stands.rebuild free readable hashes
  have relation_blocks := files.relations.holds.blocks
  have dependent_blocks := files.dependents.holds.blocks
  rw [kept] at relation_blocks dependent_blocks
  have new_relations := fun version cold => @newSegments_anew _ _ _ crypto strings relationTable _ free relation_blocks version none (.inr rfl) cold
  have new_dependents := fun version cold => @newSegments_anew _ _ _ crypto strings dependentTable _ free dependent_blocks version none (.inr rfl) cold
  refine ⟨shard.trans cut.shard, epoch.trans cut.epoch, ?_, le_rfl, next, kept⟩
  rw [newRelations, newDependents] at files
  rw [new_relations, new_dependents] at files
  exact .committed files

theorem Cut.run {ops : List Op}
    (plain : ∀ op ∈ ops, (∃ max_frames, op = .tick max_frames) ∨ ∃ batch_frames, op = .rebuild batch_frames)
    (cut : Cut crypto read log strings shard_id epoch w cuts) (along : Along crypto read log (Fine crypto read log strings) w ops) :
    Cut crypto read log strings shard_id epoch (run crypto read log w ops) (ops.foldl (cutsAfter log.frames.length) cuts) := by
  induction ops generalizing w cuts with
  | nil => exact cut
  | cons op rest ih =>
    refine ih (fun x later => plain x (mem_cons_of_mem _ later)) ?_ along.2
    rcases plain op mem_cons_self with ⟨max_frames, rfl⟩ | ⟨batch_frames, rfl⟩
    · exact cut.tick free readable along.1.1
    · exact cut.rebuild free readable along.1.1

end

end

end Crux.Projections
