import Crux.ProjectionStore

/-!
# What the cold files hold

The segments that a store knows, as sets of blocks. `Layout` ties the maps of
the store to them, `ColdHolds` says that the pointers of a table lead to exactly
its edges, and `update_cold_holds` that a commit brings this about from what is
known before it. `reach_holds` is the directory that the snapshot lists.
-/

namespace Crux.Projections
open Crux.Bytes Crux.Segment List SortedMap

/-- The blocks of a segment by their hashes. -/
abbrev Blocks := SortedMap Digest Bytes

section
variable (crypto : Primitives)

def segId (p : Blocks) : Digest := crypto.blake3 (segmentBytes p)
def segLen (p : Blocks) : UInt64 := UInt64.ofNat (segmentBytes p).length

/-- The places of the blocks of a segment. -/
def blockLocs (p : Blocks) : List (Digest × ColdBlockLocV1) :=
  (placeBlocks CCXC_HEADER_LEN_V1 p.entries).map fun e => (e.block_blake3, locIn (segId crypto p) e)

/-- The maps of the store hold the segments known to it. -/
structure Layout (cold : ColdTables) (known : Set Blocks) : Prop where
  segments : ∀ s len, cold.cold_segments.get s = some len ↔ ∃ p ∈ known, segId crypto p = s ∧ segLen p = len
  locs : ∀ h loc, cold.block_locs.get h = some loc ↔ ∃ p ∈ known, (h, loc) ∈ blockLocs crypto p

/-- A segment as a commit writes it. -/
structure SegmentOk (strings : Set Bytes) (p : Blocks) : Prop where
  filled : p.entries ≠ []
  few : p.size < 2 ^ 32
  bounded : (p.entries.flatMap Prod.snd).length ≤ COLD_SEGMENT_MAX_BYTES_V1 ∨ p.size = 1
  addressed : Addressed crypto p
  blocks : ∀ h b, p.get h = some b → b ∈ strings
  bytes : segmentBytes p ∈ strings

/-- The known segments are well formed, and no two of them share a block. -/
structure Pieces (strings : Set Bytes) (known : Set Blocks) : Prop where
  ok : ∀ p ∈ known, SegmentOk crypto strings p
  apart : ∀ p ∈ known, ∀ q ∈ known, ∀ h, h ∈ p.keys → h ∈ q.keys → p = q

/-- The files of the known segments are there. -/
def Stored (segments : SortedMap Digest Bytes) (known : Set Blocks) : Prop :=
  ∀ p ∈ known, segments.get (segId crypto p) = some (segmentBytes p)

/-- Every file is named by its hash. -/
def Named (strings : Set Bytes) (segments : SortedMap Digest Bytes) : Prop :=
  ∀ s bytes, segments.get s = some bytes → crypto.blake3 bytes = s ∧ bytes ∈ strings

section
variable {K E : Type} [LinearOrder K] (table : EdgeTable K E)

/-- The pointer that an artifact is to have. -/
def pointerOf (edges : SortedMap K E) (a : ArtifactKey) : Option HotPtrEntryV1 :=
  if table.block edges a = [] then none else some (ptrTo crypto table (table.block edges a))

/-- The block of an artifact is in a known segment. -/
def Located (known : Set Blocks) (edges : SortedMap K E) (a : ArtifactKey) : Prop :=
  table.block edges a ≠ [] → ∃ p ∈ known, p.get (crypto.blake3 (table.block edges a)) = some (table.block edges a)

/-- The pointers lead to exactly the edges of the table. -/
structure ColdHolds (strings : Set Bytes) (edges : SortedMap K E) (cold : ColdTables) (segments : SortedMap Digest Bytes)
    (known : Set Blocks) : Prop where
  pointers : ∀ a, cold.hot_ptrs.get a = pointerOf crypto table edges a
  located : ∀ a, Located crypto table known edges a
  layout : Layout crypto cold known
  pieces : Pieces crypto strings known
  stored : Stored crypto segments known
  named : Named crypto strings segments

end
end

variable {crypto : Primitives} {strings : Set Bytes}

variable {segments : SortedMap Digest Bytes} {h : Digest}

theorem blockLocs_key {p : Blocks} : (∃ loc, (h, loc) ∈ blockLocs crypto p) ↔ h ∈ p.keys := by
  have hashes := placeBlocks_hashes CCXC_HEADER_LEN_V1 p.entries
  constructor
  · rintro ⟨loc, member⟩
    obtain ⟨e, listed, same⟩ := mem_map.mp member
    cases same
    have here : e.block_blake3 ∈ (placeBlocks CCXC_HEADER_LEN_V1 p.entries).map fun e => e.block_blake3 :=
      mem_map_of_mem listed
    rwa [hashes] at here
  · intro key
    have here : h ∈ (placeBlocks CCXC_HEADER_LEN_V1 p.entries).map fun e => e.block_blake3 := by
      rw [hashes]
      exact key
    obtain ⟨e, listed, rfl⟩ := mem_map.mp here
    exact ⟨_, mem_map_of_mem listed⟩

variable {p : Blocks}

theorem blockLocs_single (h : Digest) (v w : ColdBlockLocV1) (here : (h, v) ∈ blockLocs crypto p)
    (there : (h, w) ∈ blockLocs crypto p) : v = w := by
  obtain ⟨e, listed, same⟩ := mem_map.mp here
  obtain ⟨e', listed', same'⟩ := mem_map.mp there
  have distinct : ((placeBlocks CCXC_HEADER_LEN_V1 p.entries).map fun e => e.block_blake3).Nodup := by
    rw [placeBlocks_hashes]
    exact p.keys_nodup
  have hashes : e.block_blake3 = e'.block_blake3 := by
    rw [Prod.mk.injEq] at same same'
    rw [same.1, same'.1]
  have equal := inj_on_of_nodup_map distinct listed listed' hashes
  subst equal
  rw [same] at same'
  exact (Prod.mk.inj same').2

theorem blockLocs_segment (member : (h, loc) ∈ blockLocs crypto p) : loc.segment_blake3 = segId crypto p := by
  obtain ⟨e, _, same⟩ := mem_map.mp member
  cases same
  rfl

theorem Layout.none (hot_ptrs : SortedMap ArtifactKey HotPtrEntryV1) : Layout crypto { hot_ptrs := hot_ptrs } ∅ where
  segments s len := by simp
  locs h loc := by simp

variable {cold : ColdTables} {known : Set Blocks}

theorem Pieces.none : Pieces crypto strings ∅ := ⟨fun p member => absurd member (by simp), fun p member => absurd member (by simp)⟩

theorem Pieces.subset (pieces : Pieces crypto strings known) (sub : fewer ⊆ known) : Pieces crypto strings fewer :=
  ⟨fun p member => pieces.ok p (sub member), fun p here q there => pieces.apart p (sub here) q (sub there)⟩

theorem Layout.contains_iff (layout : Layout crypto cold known) (h : Digest) :
    cold.block_locs.contains h = true ↔ ∃ p ∈ known, h ∈ p.keys := by
  rw [SortedMap.contains_iff]
  constructor
  · rintro ⟨loc, found⟩
    obtain ⟨p, member, listed⟩ := (layout.locs h loc).mp found
    exact ⟨p, member, blockLocs_key.mp ⟨loc, listed⟩⟩
  · rintro ⟨p, member, key⟩
    obtain ⟨loc, listed⟩ := blockLocs_key.mpr key
    exact ⟨loc, (layout.locs h loc).mpr ⟨p, member, listed⟩⟩

/-- The maps after a segment has been entered. -/
def enter (crypto : Primitives) (cold : ColdTables) (p : Blocks) : ColdTables :=
  { cold with
    cold_segments := cold.cold_segments.insert (segId crypto p) (segLen p)
    block_locs := cold.block_locs.insertAll (blockLocs crypto p) }

theorem flushSegment_eq (acc : ColdTables × SortedMap Digest Bytes) (p : Blocks) :
    flushSegment crypto acc p = (enter crypto acc.1 p, ensure_cold_segment_written acc.2 (segId crypto p) (segmentBytes p)) := rfl

theorem Layout.enter (free : CollisionFree crypto strings)
    (layout : Layout crypto cold known) (pieces : Pieces crypto strings (insert p known)) :
    Layout crypto (enter crypto cold p) (insert p known) where
  segments s len := by
    show (cold.cold_segments.insert (segId crypto p) (segLen p)).get s = some len ↔ _
    rw [get_insert]
    by_cases same : s = segId crypto p
    · rw [if_pos same]
      constructor
      · intro found
        exact ⟨p, Set.mem_insert _ _, same.symm, Option.some.inj found⟩
      · rintro ⟨q, member, named, rfl⟩
        have bytes := free _ (pieces.ok q member).bytes _ (pieces.ok p (Set.mem_insert _ _)).bytes (named.trans same)
        rw [segLen, segLen, bytes]
    · rw [if_neg same, layout.segments]
      constructor
      · rintro ⟨q, member, named⟩
        exact ⟨q, Set.mem_insert_of_mem _ member, named⟩
      · rintro ⟨q, member, named, len⟩
        rcases Set.mem_insert_iff.mp member with rfl | old
        · exact absurd named.symm same
        · exact ⟨q, old, named, len⟩
  locs h loc := by
    show (cold.block_locs.insertAll (blockLocs crypto p)).get h = some loc ↔ _
    rw [get_insertAll blockLocs_single, layout.locs]
    constructor
    · rintro (new | ⟨⟨q, member, listed⟩, _⟩)
      · exact ⟨p, Set.mem_insert _ _, new⟩
      · exact ⟨q, Set.mem_insert_of_mem _ member, listed⟩
    · rintro ⟨q, member, listed⟩
      by_cases key : h ∈ p.keys
      · have equal := pieces.apart q member p (Set.mem_insert _ _) h (blockLocs_key.mp ⟨loc, listed⟩) key
        exact .inl (equal ▸ listed)
      · rcases Set.mem_insert_iff.mp member with rfl | old
        · exact .inl listed
        · exact .inr ⟨⟨q, old, listed⟩, fun w here => key (blockLocs_key.mp ⟨w, here⟩)⟩

theorem ensure_cold_segment_written_get (segments : SortedMap Digest Bytes) (s x : Digest) (bytes : Bytes) :
    (ensure_cold_segment_written segments s bytes).get x =
      if x = s then some ((segments.get s).getD bytes) else segments.get x := by
  unfold ensure_cold_segment_written SortedMap.contains
  cases here : segments.get s with
  | none =>
    rw [Option.isSome_none, if_neg (by simp), get_insert, Option.getD_none]
    congr
  | some old =>
    rw [Option.isSome_some, if_pos rfl, Option.getD_some]
    split_ifs with same
    · rw [same, here]
    · rfl

theorem Named.get_written (free : CollisionFree crypto strings)
    (named : Named crypto strings segments) (bytes : segmentBytes p ∈ strings) :
    (segments.get (segId crypto p)).getD (segmentBytes p) = segmentBytes p := by
  cases here : segments.get (segId crypto p) with
  | none => rfl
  | some old =>
    obtain ⟨hash, member⟩ := named _ _ here
    exact free _ member _ bytes hash

theorem write_segments (free : CollisionFree crypto strings) {pieces : List Blocks} (layout : Layout crypto cold known)
    (ok : Pieces crypto strings (known ∪ { p | p ∈ pieces })) (stored : Stored crypto segments known)
    (named : Named crypto strings segments) :
    let result := pieces.foldl (flushSegment crypto) (cold, segments)
    Layout crypto result.1 (known ∪ { p | p ∈ pieces }) ∧ result.1.hot_ptrs = cold.hot_ptrs ∧
      Stored crypto result.2 (known ∪ { p | p ∈ pieces }) ∧ Named crypto strings result.2 := by
  induction pieces generalizing cold segments known with
  | nil =>
    have same : known ∪ { p | p ∈ ([] : List Blocks) } = known := by simp
    rw [same]
    exact ⟨layout, rfl, stored, named⟩
  | cons p rest ih =>
    have split : known ∪ { q | q ∈ p :: rest } = insert p known ∪ { q | q ∈ rest } := by
      ext q
      simp
      tauto
    rw [split] at ok ⊢
    have pieces := ok.subset Set.subset_union_left
    have bytes := (pieces.ok p (Set.mem_insert _ _)).bytes
    have written := named.get_written free bytes
    have entered := layout.enter free pieces
    rw [foldl_cons, flushSegment_eq]
    refine ih entered ok ?_ ?_
    · intro q member
      rw [ensure_cold_segment_written_get]
      rcases Set.mem_insert_iff.mp member with rfl | old
      · rw [if_pos rfl, written]
      · split_ifs with same
        · rw [written, free _ (pieces.ok q member).bytes _ bytes same]
        · exact stored q old
    · intro s file found
      rw [ensure_cold_segment_written_get] at found
      split_ifs at found with same
      · rw [written] at found
        cases found
        exact ⟨same.symm, bytes⟩
      · exact named s file found

section
variable {K E : Type} [LinearOrder K] {table : EdgeTable K E} {edges : SortedMap K E}

/-- One artifact of `pointBlocks`. -/
def pointBlock (crypto : Primitives) (table : EdgeTable K E) (edges : SortedMap K E) (block_locs : SortedMap Digest ColdBlockLocV1)
    (acc : SortedMap ArtifactKey HotPtrEntryV1 × SortedMap Digest Bytes) (key : ArtifactKey) :
    SortedMap ArtifactKey HotPtrEntryV1 × SortedMap Digest Bytes :=
  let bytes := table.block edges key
  if bytes = [] then (acc.1.remove key, acc.2)
  else
    let entry := ptrTo crypto table bytes
    (acc.1.insert key entry, if block_locs.contains entry.blake3 then acc.2 else acc.2.insert entry.blake3 bytes)

theorem pointBlock_ptr (block_locs : SortedMap Digest ColdBlockLocV1)
    (acc : SortedMap ArtifactKey HotPtrEntryV1 × SortedMap Digest Bytes) (key a : ArtifactKey) :
    (pointBlock crypto table edges block_locs acc key).1.get a =
      if a = key then pointerOf crypto table edges key else acc.1.get a := by
  unfold pointBlock pointerOf
  by_cases none : table.block edges key = []
  · simp [none]
  · simp [none]

theorem points_ptrs (block_locs : SortedMap Digest ColdBlockLocV1) (keys : List ArtifactKey)
    (acc : SortedMap ArtifactKey HotPtrEntryV1 × SortedMap Digest Bytes) (a : ArtifactKey) :
    (keys.foldl (pointBlock crypto table edges block_locs) acc).1.get a =
      if a ∈ keys then pointerOf crypto table edges a else acc.1.get a := by
  induction keys generalizing acc with
  | nil => simp
  | cons key rest ih =>
    rw [foldl_cons, ih, pointBlock_ptr]
    by_cases later : a ∈ rest
    · simp [later]
    · by_cases same : a = key
      · simp [same]
      · simp [later, same]

section
variable {block_locs : SortedMap Digest ColdBlockLocV1} {keys : List ArtifactKey}
  {acc : SortedMap ArtifactKey HotPtrEntryV1 × SortedMap Digest Bytes} {h : Digest}

theorem points_sound (found : (keys.foldl (pointBlock crypto table edges block_locs) acc).2.get h = some b) :
    acc.2.get h = some b ∨
      ∃ a ∈ keys, table.block edges a = b ∧ b ≠ [] ∧ crypto.blake3 b = h ∧ block_locs.contains h = false := by
  induction keys generalizing acc with
  | nil => exact .inl found
  | cons key rest ih =>
    rcases ih found with before | ⟨a, later, facts⟩
    · unfold pointBlock at before
      by_cases none : table.block edges key = []
      · rw [if_pos none] at before
        exact .inl before
      · rw [if_neg none] at before
        by_cases known : block_locs.contains (ptrTo crypto table (table.block edges key)).blake3 = true
        · simp [known] at before
          exact .inl before
        · simp only [known] at before
          rw [if_neg (by simp), get_insert] at before
          split_ifs at before with same
          · cases before
            refine .inr ⟨key, mem_cons_self, rfl, none, same.symm, ?_⟩
            rw [same]
            simpa using known
          · exact .inl before
    · exact .inr ⟨a, mem_cons_of_mem _ later, facts⟩

theorem points_complete (wanted : (∃ b, acc.2.get h = some b) ∨
      ∃ a ∈ keys, table.block edges a ≠ [] ∧ crypto.blake3 (table.block edges a) = h ∧ block_locs.contains h = false) :
    ∃ b, (keys.foldl (pointBlock crypto table edges block_locs) acc).2.get h = some b := by
  induction keys generalizing acc with
  | nil =>
    rcases wanted with before | ⟨a, member, _⟩
    · exact before
    · cases member
  | cons key rest ih =>
    refine ih ?_
    unfold pointBlock
    by_cases none : table.block edges key = []
    · rw [if_pos none]
      rcases wanted with before | ⟨a, member, some_edge, facts⟩
      · exact .inl before
      · rcases mem_cons.mp member with rfl | later
        · exact absurd none some_edge
        · exact .inr ⟨a, later, some_edge, facts⟩
    · rw [if_neg none]
      by_cases known : block_locs.contains (ptrTo crypto table (table.block edges key)).blake3 = true
      · simp [known]
        rcases wanted with before | ⟨a, member, some_edge, hash, unknown⟩
        · exact .inl before
        · rcases mem_cons.mp member with rfl | later
          · rw [← hash] at unknown
            exact absurd known (by simpa [ptrTo] using unknown)
          · exact .inr ⟨a, later, some_edge, hash, unknown⟩
      · simp only [known]
        rw [if_neg (by simp)]
        by_cases same : h = (ptrTo crypto table (table.block edges key)).blake3
        · exact .inl ⟨_, by rw [get_insert, if_pos same]⟩
        · rcases wanted with ⟨b, before⟩ | ⟨a, member, some_edge, hash, unknown⟩
          · exact .inl ⟨b, by rw [get_insert, if_neg same, before]⟩
          · rcases mem_cons.mp member with rfl | later
            · exact absurd hash.symm same
            · exact .inr ⟨a, later, some_edge, hash, unknown⟩

end

end

theorem cut_flat (todo : Blocks) : (cutSegments .empty 0 todo.entries).flatMap SortedMap.entries = todo.entries :=
  cutSegments_entries todo.sorted

variable {todo : Blocks}

theorem cut_get : todo.get h = some b ↔ ∃ p ∈ cutSegments .empty 0 todo.entries, p.get h = some b := by
  have flat : (h, b) ∈ todo.entries ↔ (h, b) ∈ (cutSegments .empty 0 todo.entries).flatMap SortedMap.entries := by rw [cut_flat]
  rw [← mem_entries, flat, mem_flatMap]
  simp only [mem_entries]

theorem cut_apart (here : p ∈ cutSegments .empty 0 todo.entries) (there : q ∈ cutSegments .empty 0 todo.entries)
    (key : h ∈ p.keys) (key' : h ∈ q.keys) : p = q := by
  have distinct := todo.keys_nodup
  unfold SortedMap.keys at distinct
  rw [← cut_flat, map_flatMap, nodup_flatMap] at distinct
  have : Std.Symm (Function.onFun List.Disjoint fun p : Blocks => p.entries.map Prod.fst) := ⟨fun _ _ apart => apart.symm⟩
  by_contra other
  exact distinct.2.forall here there other key key'

theorem length_le_flatMap {l : List (Digest × Bytes)} (filled : ∀ e ∈ l, e.2 ≠ []) : l.length ≤ (l.flatMap Prod.snd).length := by
  induction l with
  | nil => simp
  | cons e rest ih =>
    have some_byte := length_pos_iff.mpr (filled e mem_cons_self)
    have later := ih fun x member => filled x (mem_cons_of_mem _ member)
    rw [flatMap_cons, length_append, length_cons]
    omega

theorem cut_ok (member : p ∈ cutSegments .empty 0 todo.entries) (addressed : Addressed crypto todo)
    (filled : ∀ h b, todo.get h = some b → b ≠ [] ∧ b ∈ strings) (bytes : segmentBytes p ∈ strings) : SegmentOk crypto strings p := by
  have sub : ∀ h b, p.get h = some b → todo.get h = some b := fun h b found => cut_get.mpr ⟨p, member, found⟩
  obtain ⟨some_block, bounded⟩ := @cutSegments_size .empty 0 todo.entries todo.sorted rfl (.inl (Nat.zero_le _)) p member
  refine ⟨some_block, ?_, bounded, fun h b found => addressed h b (sub h b found),
    fun h b found => (filled h b (sub h b found)).2, bytes⟩
  have count := @length_le_flatMap p.entries fun e here => (filled e.1 e.2 (sub e.1 e.2 (mem_entries.mp here))).1
  unfold COLD_SEGMENT_MAX_BYTES_V1 at bounded
  change p.entries.length < _
  rcases bounded with small | one
  · omega
  · change p.entries.length = 1 at one
    omega

section
variable {K E : Type} [LinearOrder K] {table : EdgeTable K E} {edges : SortedMap K E}

/-- The segments that a commit writes. -/
def newSegments (crypto : Primitives) (table : EdgeTable K E) (edges : SortedMap K E) (schema_version : Nat)
    (touched : Option (List ArtifactKey)) (cold : ColdTables) : List Blocks :=
  cutSegments .empty 0 (pointBlocks crypto table edges (coldBase cold schema_version touched).block_locs
    (coldKeys table edges cold.hot_ptrs schema_version touched) (coldBase cold schema_version touched).hot_ptrs).2.entries

variable {segments : SortedMap Digest Bytes}

/-- After a commit the pointers lead to the edges, if they did so for the artifacts that the commit does not go through. -/
theorem update_cold_holds (free : CollisionFree crypto strings) {schema_version : Nat} {touched : Option (List ArtifactKey)}
    {cold : ColdTables} {known : Set Blocks}
    (layout : Layout crypto (coldBase cold schema_version touched) known) (pieces : Pieces crypto strings known)
    (stored : Stored crypto segments known) (named : Named crypto strings segments)
    (others : ∀ a, a ∉ coldKeys table edges cold.hot_ptrs schema_version touched →
      cold.hot_ptrs.get a = pointerOf crypto table edges a ∧ Located crypto table known edges a)
    (blocks : ∀ a, table.block edges a ∈ strings)
    (new : ∀ p ∈ newSegments crypto table edges schema_version touched cold, segmentBytes p ∈ strings) :
    ColdHolds crypto table strings edges (update_cold_blocks crypto table edges schema_version touched cold segments).1
      (update_cold_blocks crypto table edges schema_version touched cold segments).2
      (known ∪ { p | p ∈ newSegments crypto table edges schema_version touched cold }) := by
  generalize keys_eq : coldKeys table edges cold.hot_ptrs schema_version touched = keys at others
  generalize base_eq : coldBase cold schema_version touched = base at layout
  generalize todo_eq : (pointBlocks crypto table edges base.block_locs keys base.hot_ptrs).2 = todo
  have new_eq : newSegments crypto table edges schema_version touched cold = cutSegments .empty 0 todo.entries := by
    rw [newSegments, keys_eq, base_eq, todo_eq]
  rw [new_eq] at new ⊢
  have sound : ∀ h b, todo.get h = some b →
      ∃ a ∈ keys, table.block edges a = b ∧ b ≠ [] ∧ crypto.blake3 b = h ∧ base.block_locs.contains h = false := by
    intro h b found
    rw [← todo_eq] at found
    rcases points_sound found with none | facts
    · cases none
    · exact facts
  have todo_ok : ∀ h b, todo.get h = some b → b ≠ [] ∧ b ∈ strings := by
    intro h b found
    obtain ⟨a, _, rfl, some_edge, _⟩ := sound h b found
    exact ⟨some_edge, blocks a⟩
  have addressed : Addressed crypto todo := fun h b found => by
    obtain ⟨_, _, _, _, hash, _⟩ := sound h b found
    exact hash
  have fresh : ∀ p ∈ cutSegments .empty 0 todo.entries, ∀ q ∈ known, ∀ h, h ∈ p.keys → h ∉ q.keys := by
    intro p member q old h key key'
    obtain ⟨b, found⟩ := mem_keys.mp key
    obtain ⟨_, _, _, _, _, unknown⟩ := sound h b (cut_get.mpr ⟨p, member, found⟩)
    rw [(layout.contains_iff h).mpr ⟨q, old, key'⟩] at unknown
    cases unknown
  have ok : Pieces crypto strings (known ∪ { p | p ∈ cutSegments .empty 0 todo.entries }) := by
    refine ⟨?_, ?_⟩
    · rintro p (old | member)
      · exact pieces.ok p old
      · exact cut_ok member addressed todo_ok (new p member)
    · rintro p (old | member) q (old' | member') h key key'
      · exact pieces.apart p old q old' h key key'
      · exact absurd key (fresh q member' p old h key')
      · exact absurd key' (fresh p member q old' h key)
      · exact cut_apart member member' key key'
  have result : update_cold_blocks crypto table edges schema_version touched cold segments =
      (cutSegments .empty 0 todo.entries).foldl (flushSegment crypto)
        ({ base with hot_ptrs := (pointBlocks crypto table edges base.block_locs keys base.hot_ptrs).1 }, segments) := by
    rw [update_cold_blocks, keys_eq, base_eq, ← todo_eq]
    rfl
  obtain ⟨layout', ptrs, stored', named'⟩ := write_segments free
    (show Layout crypto { base with hot_ptrs := (pointBlocks crypto table edges base.block_locs keys base.hot_ptrs).1 } known from
      ⟨layout.segments, layout.locs⟩) ok stored named
  rw [← result] at layout' ptrs stored' named'
  refine ⟨fun a => ?_, fun a some_edge => ?_, layout', ok, stored', named'⟩
  · rw [ptrs]
    have point := @points_ptrs crypto _ _ _ table edges base.block_locs keys (base.hot_ptrs, .empty) a
    refine point.trans ?_
    split_ifs with member
    · rfl
    · refine .trans ?_ (others a member).1
      rw [← base_eq, coldBase]
      split_ifs <;> rfl
  · by_cases member : a ∈ keys
    · by_cases known_block : base.block_locs.contains (crypto.blake3 (table.block edges a)) = true
      · -- the block has been written before
        obtain ⟨q, old, key⟩ := (layout.contains_iff _).mp known_block
        obtain ⟨b, found⟩ := mem_keys.mp key
        have hash := (pieces.ok q old).addressed _ _ found
        have same := free _ ((pieces.ok q old).blocks _ _ found) _ (blocks a) hash
        exact ⟨q, .inl old, same ▸ found⟩
      · obtain ⟨b, found⟩ := @points_complete crypto _ _ _ table edges base.block_locs keys (base.hot_ptrs, .empty) _ (.inr
          ⟨a, member, some_edge, rfl, by simpa using known_block⟩)
        have found' : todo.get (crypto.blake3 (table.block edges a)) = some b := by
          rw [← todo_eq]
          exact found
        have same := free _ (todo_ok _ _ found').2 _ (blocks a) (addressed _ _ found')
        obtain ⟨p, member', here⟩ := cut_get.mp found'
        exact ⟨p, .inr member', same ▸ here⟩
    · obtain ⟨p, old, found⟩ := (others a member).2 some_edge
      exact ⟨p, .inl old, found⟩

/-- The known segments with a block that is pointed at. -/
def Pointed (known : Set Blocks) (hot_ptrs : SortedMap ArtifactKey HotPtrEntryV1) : Set Blocks :=
  { p | p ∈ known ∧ ∃ ptr ∈ hot_ptrs.values, ptr.blake3 ∈ p.keys }

/-- The directory of the segments with a block that is pointed at. -/
def Reached (crypto : Primitives) (known : Set Blocks) (hot_ptrs : SortedMap ArtifactKey HotPtrEntryV1)
    (dir : SortedMap Digest UInt64) : Prop :=
  ∀ s len, dir.get s = some len ↔ ∃ p ∈ Pointed known hot_ptrs, segId crypto p = s ∧ segLen p = len

variable {cold : ColdTables} {known : Set Blocks}

theorem ColdHolds.pointed (holds : ColdHolds crypto table strings edges cold segments known)
    (points : cold.hot_ptrs.get a = some ptr) : ptr = ptrTo crypto table (table.block edges a) ∧ table.block edges a ≠ [] ∧
      ∃ p ∈ known, p.get ptr.blake3 = some (table.block edges a) := by
  rw [holds.pointers, pointerOf] at points
  split_ifs at points with none
  cases points
  exact ⟨rfl, none, holds.located a none⟩

theorem Layout.segmentOf (layout : Layout crypto cold known) (member : p ∈ known) (key : ptr.blake3 ∈ p.keys) :
    segmentOf cold ptr = .ok (segId crypto p, segLen p) := by
  obtain ⟨loc, listed⟩ := blockLocs_key.mpr key
  have located := (layout.locs _ _).mpr ⟨p, member, listed⟩
  have entered := (layout.segments _ _).mpr ⟨p, member, rfl, rfl⟩
  simp only [Projections.segmentOf, located, blockLocs_segment listed, entered]

theorem reachSegments_spec {cold : ColdTables} {known : Set Blocks} (layout : Layout crypto cold known) {ptrs : List HotPtrEntryV1}
    (pointed : ∀ ptr ∈ ptrs, ∃ p ∈ known, ptr.blake3 ∈ p.keys) {out : SortedMap Digest UInt64}
    (entered : ∀ s len, out.get s = some len → cold.cold_segments.get s = some len) :
    ∃ dir, reachSegments cold ptrs out = .ok dir ∧ ∀ s len, dir.get s = some len ↔
      (∃ p ∈ known, (∃ ptr ∈ ptrs, ptr.blake3 ∈ p.keys) ∧ segId crypto p = s ∧ segLen p = len) ∨ out.get s = some len := by
  induction ptrs generalizing out with
  | nil => exact ⟨out, rfl, fun s len => by simp⟩
  | cons ptr rest ih =>
    obtain ⟨p, member, key⟩ := pointed ptr mem_cons_self
    have here := (layout.segments (segId crypto p) (segLen p)).mpr ⟨p, member, rfl, rfl⟩
    obtain ⟨dir, read, spec⟩ := @ih (fun x later => pointed x (mem_cons_of_mem _ later))
      (out.insert (segId crypto p) (segLen p)) (fun s len found => by
        rw [get_insert] at found
        split_ifs at found with same
        · cases found
          rw [same, here]
        · exact entered s len found)
    refine ⟨dir, ?_, fun s len => ?_⟩
    · rw [reachSegments, layout.segmentOf member key, ok_bind]
      exact read
    · rw [spec, get_insert]
      constructor
      · rintro (⟨q, old, ⟨x, later, key'⟩, named⟩ | found)
        · exact .inl ⟨q, old, ⟨x, mem_cons_of_mem _ later, key'⟩, named⟩
        · split_ifs at found with same
          · cases found
            exact .inl ⟨p, member, ⟨ptr, mem_cons_self, key⟩, same.symm, rfl⟩
          · exact .inr found
      · rintro (⟨q, old, ⟨x, listed, key'⟩, rfl, rfl⟩ | found)
        · rcases mem_cons.mp listed with rfl | later
          · -- the pointer leads to one segment only
            have both := (layout.segmentOf old key').symm.trans (layout.segmentOf member key)
            have equal := Prod.mk.inj (Except.ok.inj both)
            exact .inr (by rw [if_pos equal.1, equal.2])
          · exact .inl ⟨q, old, ⟨x, later, key'⟩, rfl, rfl⟩
        · right
          split_ifs with same
          · have old := entered s len found
            rw [same, here] at old
            exact old
          · exact found

/-- The directory of a commit lists the segments that the pointers reach. -/
theorem reach_holds (holds : ColdHolds crypto table strings edges cold segments known) :
    ∃ dir, build_reachable_segment_dir cold = .ok dir ∧ Reached crypto known cold.hot_ptrs dir := by
  obtain ⟨dir, read, spec⟩ := @reachSegments_spec crypto cold known holds.layout cold.hot_ptrs.values
    (fun ptr listed => by
      obtain ⟨a, points⟩ := mem_values.mp listed
      obtain ⟨_, _, p, member, found⟩ := holds.pointed points
      exact ⟨p, member, mem_keys.mpr ⟨_, found⟩⟩)
    .empty (fun s len found => by cases found)
  refine ⟨dir, read, fun s len => ?_⟩
  rw [spec]
  simp [Pointed, and_assoc]

end

end Crux.Projections
