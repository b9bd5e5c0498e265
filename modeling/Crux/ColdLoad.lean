import Crux.ColdLayout

/-!
# Opening the cold files

What `load_or_init` makes of the segments and the pointers of a snapshot. A
segment is only taken with the bytes that its name was computed from, and a
block only with the bytes of its pointer. So whatever was done to the files,
opening them fails or finds the segments as they were written
(`load_indexes_exact`) and the edges as they were (`load_edges_exact`).
-/

namespace Crux.Projections
open Crux.Bytes Crux.Segment List
open SortedMap (get_insert mem_entries mem_values)

variable {crypto : Primitives} {strings : Set Bytes}

theorem Pieces.segId_inj (free : CollisionFree crypto strings) (pieces : Pieces crypto strings known) (here : p ∈ known)
    (there : q ∈ known) (same : segId crypto p = segId crypto q) : p = q := by
  have ok := pieces.ok p here
  have ok' := pieces.ok q there
  have bytes := free _ ok.bytes _ ok'.bytes same
  exact build_inj free ok.few ok'.few ok.addressed ok'.addressed ok.blocks ok'.blocks bytes

theorem SegmentOk.fits (ok : SegmentOk crypto strings p) (small : p.size = 1 → ∀ h b, p.get h = some b → b.length < 2 ^ 32) :
    (segmentBytes p).length < 2 ^ 64 := by
  have few := ok.few
  rw [length_segmentBytes]
  have data : (p.entries.flatMap Prod.snd).length < 2 ^ 32 := by
    rcases ok.bounded with bounded | one
    · unfold COLD_SEGMENT_MAX_BYTES_V1 at bounded
      omega
    · obtain ⟨e, only⟩ := length_eq_one_iff.mp one
      have found : p.get e.1 = some e.2 := mem_entries.mp (by rw [only]; exact mem_singleton_self _)
      rw [only]
      simpa using small one _ _ found
  unfold CCXC_HEADER_LEN_V1
  omega

variable {locs : SortedMap Digest ColdBlockLocV1} {dir : List ColdSegmentDirEntryV1} {segments : SortedMap Digest Bytes}

theorem enterLocs_eq (plain : ∀ e ∈ entries, e.codec = 0) (distinct : (entries.map fun e => e.block_blake3).Nodup)
    (new : ∀ e ∈ entries, locs.get e.block_blake3 = none) :
    enterLocs seg entries locs = .ok (locs.insertAll (entries.map fun e => (e.block_blake3, locIn seg e))) := by
  induction entries generalizing locs with
  | nil => rfl
  | cons e rest ih =>
    rw [map_cons, nodup_cons] at distinct
    rw [enterLocs, ensure_true _ (plain e mem_cons_self), ok_bind, ensure_true _ (new e mem_cons_self), ok_bind,
      ih (fun x later => plain x (mem_cons_of_mem _ later)) distinct.2 fun x later => ?_]
    · rfl
    · rw [get_insert, if_neg, new x (mem_cons_of_mem _ later)]
      intro same
      exact distinct.1 (same ▸ mem_map_of_mem later)

theorem enter_segment {cold : ColdTables} {p : Blocks} (few : p.size < 2 ^ 32) (fits : (segmentBytes p).length < 2 ^ 64)
    (new : ∀ h ∈ p.keys, cold.block_locs.get h = none) :
    ∃ idx, read_and_verify_cold_segment_index_v1 crypto (some (segmentBytes p)) (segId crypto p) (segLen p) = .ok idx ∧
      enterLocs (segId crypto p) idx.2 cold.block_locs = .ok (enter crypto cold p).block_locs := by
  obtain ⟨header, read⟩ := read_build crypto few fits
  refine ⟨_, read, enterLocs_eq (fun e member => ?_) ?_ (fun e member => ?_)⟩
  · obtain ⟨_, _, plain, _⟩ := read_block fits member
    exact plain
  · rw [placeBlocks_hashes]
    exact p.keys_nodup
  · exact new _ ((@blockLocs_key crypto _ p).mp ⟨_, mem_map_of_mem member⟩)

theorem enterSegments_known (free : CollisionFree crypto strings) (pieces : Pieces crypto strings goal)
    (stored : Stored crypto segments goal) (fits : ∀ p ∈ goal, (segmentBytes p).length < 2 ^ 64)
    (layout : Layout crypto cold done) (sub : done ⊆ goal) (listed : ∀ e ∈ dir, cold.cold_segments.get e.segment_blake3 = none ∧
      ∃ p ∈ goal, segId crypto p = e.segment_blake3 ∧ segLen p = e.file_len)
    (distinct : (dir.map fun e => e.segment_blake3).Nodup) :
    ∃ maps, enterSegments crypto segments dir cold.cold_segments cold.block_locs = .ok maps ∧
      Layout crypto ⟨cold.hot_ptrs, maps.1, maps.2⟩ (done ∪ { p | p ∈ goal ∧ ∃ e ∈ dir, segId crypto p = e.segment_blake3 }) := by
  induction dir generalizing cold done with
  | nil => exact ⟨_, rfl, by simpa using layout⟩
  | cons e rest ih =>
    obtain ⟨unknown, p, member, name, len⟩ := listed e mem_cons_self
    have new : ∀ h ∈ p.keys, cold.block_locs.get h = none := by
      intro h key
      by_contra some_loc
      obtain ⟨loc, found⟩ := Option.ne_none_iff_exists'.mp some_loc
      obtain ⟨q, old, here⟩ := (layout.locs h loc).mp found
      -- a known segment with a block of this one would be this one, which is not known
      have same := pieces.apart q (sub old) p member h (blockLocs_key.mp ⟨loc, here⟩) key
      have entered := (layout.segments _ _).mpr ⟨q, old, rfl, rfl⟩
      rw [same, name, unknown] at entered
      cases entered
    obtain ⟨idx, read, entered⟩ := @enter_segment crypto cold p (pieces.ok p member).few (fits p member) new
    have sub' : insert p done ⊆ goal := Set.insert_subset member sub
    rw [map_cons, nodup_cons] at distinct
    obtain ⟨maps, loaded, layout'⟩ := ih (layout.enter free (pieces.subset sub')) sub' (fun x later => by
      obtain ⟨none, facts⟩ := listed x (mem_cons_of_mem _ later)
      refine ⟨?_, facts⟩
      show (cold.cold_segments.insert (segId crypto p) (segLen p)).get x.segment_blake3 = _
      rw [get_insert, if_neg, none]
      intro same
      exact distinct.1 (name ▸ same ▸ mem_map_of_mem later)) distinct.2
    refine ⟨maps, ?_, ?_⟩
    · rw [enterSegments, ensure_true _ unknown, ok_bind, ← name, ← len, stored p member, read, ok_bind, entered, ok_bind]
      exact loaded
    · have split : done ∪ { q | q ∈ goal ∧ ∃ x ∈ e :: rest, segId crypto q = x.segment_blake3 } =
          insert p done ∪ { q | q ∈ goal ∧ ∃ x ∈ rest, segId crypto q = x.segment_blake3 } := by
        ext q
        simp only [Set.mem_union, Set.mem_ofPred_eq, mem_cons, Set.mem_insert_iff]
        constructor
        · rintro (old | ⟨inside, x, rfl | later, same⟩)
          · exact .inl (.inr old)
          · exact .inl (.inl (pieces.segId_inj free inside member (same.trans name.symm)))
          · exact .inr ⟨inside, x, later, same⟩
        · rintro ((rfl | old) | ⟨inside, x, later, same⟩)
          · exact .inr ⟨member, e, .inl rfl, name⟩
          · exact .inl old
          · exact .inr ⟨inside, x, .inr later, same⟩
      rw [split]
      exact layout'

theorem enterSegments_files (loaded : enterSegments crypto segments dir segs locs = .ok maps) (member : e ∈ dir) :
    ∃ bytes, segments.get e.segment_blake3 = some bytes ∧ bytes.length = e.file_len.toNat ∧
      crypto.blake3 bytes = e.segment_blake3 := by
  induction dir generalizing segs locs with
  | nil => cases member
  | cons x rest ih =>
    rw [enterSegments, ensure_bind_ok] at loaded
    obtain ⟨_, loaded⟩ := loaded
    obtain ⟨idx, read, loaded⟩ := bind_ok_iff.mp loaded
    obtain ⟨locs', _, loaded⟩ := bind_ok_iff.mp loaded
    rcases mem_cons.mp member with rfl | later
    · unfold read_and_verify_cold_segment_index_v1 openFile at read
      cases file : segments.get e.segment_blake3 with
      | none =>
        rw [file] at read
        cases read
      | some bytes =>
        rw [file] at read
        simp only [ok_bind] at read
        rw [ensure_bind_ok] at read
        obtain ⟨len, read⟩ := read
        rw [ensure_bind_ok] at read
        exact ⟨bytes, rfl, len, read.1⟩
    · exact ih loaded later

section
variable (free : CollisionFree crypto strings) {known : Set Blocks} (pieces : Pieces crypto strings known)
  {ptrs : SortedMap ArtifactKey HotPtrEntryV1} {dir : SortedMap Digest UInt64} (reached : Reached crypto known ptrs dir)
  {segments : SortedMap Digest Bytes}
include free pieces reached

/-- Opening the segments of a snapshot fails or finds them as they were written. -/
theorem load_indexes_exact (files : ∀ s bytes, segments.get s = some bytes → bytes ∈ strings)
    {maps : SortedMap Digest UInt64 × SortedMap Digest ColdBlockLocV1}
    (loaded : load_cold_segment_indexes crypto segments (dir.entries.map fun e => ⟨e.1, e.2⟩) = .ok maps) :
    Stored crypto segments (Pointed known ptrs) ∧ ∀ p ∈ Pointed known ptrs, (segmentBytes p).length < 2 ^ 64 := by
  have file : ∀ p ∈ Pointed known ptrs, segments.get (segId crypto p) = some (segmentBytes p) ∧
      (segmentBytes p).length = (segLen p).toNat := by
    intro p member
    have entry := mem_entries.mpr ((reached (segId crypto p) (segLen p)).mpr ⟨p, member, rfl, rfl⟩)
    obtain ⟨bytes, found, len, hash⟩ := enterSegments_files loaded (mem_map_of_mem entry)
    have same := free _ (files _ _ found) _ (pieces.ok p member.1).bytes hash
    rw [same] at found len
    exact ⟨found, len⟩
  refine ⟨fun p member => (file p member).1, fun p member => ?_⟩
  rw [(file p member).2]
  exact (segLen p).toNat_lt

theorem load_indexes_restores (stored : Stored crypto segments (Pointed known ptrs))
    (fits : ∀ p ∈ Pointed known ptrs, (segmentBytes p).length < 2 ^ 64) :
    ∃ maps, load_cold_segment_indexes crypto segments (dir.entries.map fun e => ⟨e.1, e.2⟩) = .ok maps ∧
      Layout crypto ⟨ptrs, maps.1, maps.2⟩ (Pointed known ptrs) := by
  have sub : Pointed known ptrs ⊆ known := fun p member => member.1
  have listed : ∀ e ∈ dir.entries.map fun e => ColdSegmentDirEntryV1.mk e.1 e.2,
      (SortedMap.empty : SortedMap Digest UInt64).get e.segment_blake3 = none ∧
      ∃ p ∈ Pointed known ptrs, segId crypto p = e.segment_blake3 ∧ segLen p = e.file_len := by
    intro e member
    obtain ⟨x, entry, rfl⟩ := mem_map.mp member
    obtain ⟨p, inside, name, len⟩ := (reached x.1 x.2).mp (mem_entries.mp entry)
    exact ⟨rfl, p, inside, name, len⟩
  obtain ⟨maps, loaded, layout⟩ := enterSegments_known free (pieces.subset sub) stored fits (Layout.none ptrs)
    (Set.empty_subset _) listed (by rw [map_map]; exact dir.keys_nodup)
  refine ⟨maps, loaded, ?_⟩
  have all : ∅ ∪ { p | p ∈ Pointed known ptrs ∧ ∃ e ∈ dir.entries.map fun e => ColdSegmentDirEntryV1.mk e.1 e.2,
      segId crypto p = e.segment_blake3 } = Pointed known ptrs := by
    ext p
    rw [Set.empty_union, Set.mem_ofPred_eq, and_iff_left_iff_imp]
    intro member
    have entry := mem_entries.mpr ((reached (segId crypto p) (segLen p)).mpr ⟨p, member, rfl, rfl⟩)
    exact ⟨_, mem_map_of_mem entry, rfl⟩
  rwa [all] at layout

end

theorem read_infix (read : read_cold_segment_block_v1 (some file) offset len = .ok bytes) :
    bytes <:+: file ∧ bytes.length < 2 ^ 32 := by
  unfold read_cold_segment_block_v1 openFile at read
  rw [ok_bind, ensure_bind_ok] at read
  cases read.2
  constructor
  · exact ( take_prefix _ _).isInfix.trans (drop_suffix _ _).isInfix
  · have size := len.toNat_lt
    simp [slice]
    omega

section
variable {K E : Type} [LinearOrder K]

/-- What the snapshot of a table records: a pointer to each block, in one of the segments it lists. -/
structure ColdSnapshot (crypto : Primitives) (table : EdgeTable K E) (strings : Set Bytes) (edges : SortedMap K E)
    (known : Set Blocks) (ptrs : SortedMap ArtifactKey HotPtrEntryV1) (dir : SortedMap Digest UInt64) : Prop where
  pointers : ∀ a, ptrs.get a = pointerOf crypto table edges a
  located : ∀ a, Located crypto table known edges a
  pieces : Pieces crypto strings known
  reached : Reached crypto known ptrs dir

variable {table : EdgeTable K E} {edges : SortedMap K E} {known : Set Blocks} {ptrs : SortedMap ArtifactKey HotPtrEntryV1}
  {dir : SortedMap Digest UInt64}

theorem ColdSnapshot.target (kept : ColdSnapshot crypto table strings edges known ptrs dir) (points : ptrs.get a = some ptr) :
    ptr = ptrTo crypto table (table.block edges a) ∧
      ∃ p ∈ Pointed known ptrs, p.get (crypto.blake3 (table.block edges a)) = some (table.block edges a) := by
  have target := points
  rw [kept.pointers, pointerOf] at target
  split_ifs at target with none
  cases target
  obtain ⟨p, inside, listed⟩ := kept.located a none
  exact ⟨rfl, p, ⟨inside, _, mem_values.mpr ⟨a, points⟩, SortedMap.mem_keys.mpr ⟨_, listed⟩⟩, listed⟩

theorem ColdSnapshot.fits (kept : ColdSnapshot crypto table strings edges known ptrs dir)
    (small : ∀ a, (table.block edges a).length < 2 ^ 32) (pointed : p ∈ Pointed known ptrs) :
    (segmentBytes p).length < 2 ^ 64 := by
  obtain ⟨member, ptr, listed, key⟩ := pointed
  refine (kept.pieces.ok p member).fits fun one h b found => ?_
  -- the only block of the segment is the one that is pointed at
  obtain ⟨a, points⟩ := mem_values.mp listed
  obtain ⟨rfl, q, pointed, found'⟩ := kept.target points
  have same := kept.pieces.apart q pointed.1 p member _ (SortedMap.mem_keys.mpr ⟨_, found'⟩) key
  obtain ⟨e, only⟩ := length_eq_one_iff.mp one
  have here := mem_entries.mpr found
  have there := mem_entries.mpr (same ▸ found')
  rw [only, mem_singleton] at here there
  rw [← there, Prod.mk.injEq] at here
  rw [here.2]
  exact small a

variable {segments : SortedMap Digest Bytes} {cold : ColdTables}

theorem located_block (layout : Layout crypto cold known) (member : p ∈ known) (fits : (segmentBytes p).length < 2 ^ 64)
    (listed : p.get (crypto.blake3 b) = some b) :
    ∃ loc, cold.block_locs.get (crypto.blake3 b) = some loc ∧ loc.segment_blake3 = segId crypto p ∧
      loc.len = UInt32.ofNat b.length ∧
      (b.length < 2 ^ 32 → read_cold_segment_block_v1 (some (segmentBytes p)) loc.offset loc.len = .ok b) := by
  obtain ⟨loc, place⟩ := (@blockLocs_key crypto _ p).mpr (SortedMap.mem_keys.mpr ⟨b, listed⟩)
  refine ⟨loc, (layout.locs _ _).mpr ⟨p, member, place⟩, blockLocs_segment place, ?_⟩
  obtain ⟨e, entry, same⟩ := mem_map.mp place
  obtain ⟨hash, rfl⟩ := Prod.mk.inj same
  obtain ⟨b', here, _, len, read⟩ := read_block fits entry
  rw [hash, listed] at here
  cases here
  exact ⟨len, read⟩

theorem fetch_block (free : CollisionFree crypto strings) (layout : Layout crypto cold known)
    (stored : Stored crypto segments known) (fits : ∀ p ∈ known, (segmentBytes p).length < 2 ^ 64)
    (parts : ∀ p ∈ known, ∀ x, x <:+: segmentBytes p → x ∈ strings) (member : p ∈ known)
    (listed : p.get (crypto.blake3 b) = some b) (inside : b ∈ strings) (bytes : Bytes) :
    fetchFromSegment crypto segments cold.block_locs (ptrTo crypto table b) = .ok bytes ↔ bytes = b ∧ b.length < 2 ^ 32 := by
  obtain ⟨loc, found, segment, len, read⟩ := located_block layout member (fits p member) listed
  have located : locOf cold.block_locs (ptrTo crypto table b) = .ok loc := by
    unfold locOf ptrTo
    rw [found]
  have agrees : loc.len = (ptrTo crypto table b).block_len := len
  unfold fetchFromSegment
  rw [located, ok_bind, ensure_true _ agrees, ok_bind, segment, stored p member, bind_ok_iff]
  constructor
  · rintro ⟨x, got, checked⟩
    rw [ensure_bind_ok] at checked
    obtain ⟨same_hash, returned⟩ := checked
    cases returned
    have taken := read_infix got
    have equal := free bytes (parts p member bytes taken.1) b inside same_hash
    exact ⟨equal, equal ▸ taken.2⟩
  · rintro ⟨rfl, small⟩
    have checked : crypto.blake3 bytes = (ptrTo crypto table bytes).blake3 := rfl
    exact ⟨bytes, read small, by rw [ensure_true _ checked, ok_bind]; rfl⟩

section
variable {fetch : HotPtrEntryV1 → Res Bytes} {l : List (ArtifactKey × HotPtrEntryV1)}

theorem loadEdges_fetches (loaded : loadEdges table fetch l out = .ok result) (member : e ∈ l) :
    ∃ bytes, fetch e.2 = .ok bytes := by
  induction l generalizing out with
  | nil => cases member
  | cons x rest ih =>
    rw [loadEdges] at loaded
    obtain ⟨bytes, fetched, loaded⟩ := bind_ok_iff.mp loaded
    obtain ⟨decoded, _, loaded⟩ := bind_ok_iff.mp loaded
    rw [ensure_bind_ok] at loaded
    rcases mem_cons.mp member with rfl | later
    · exact ⟨bytes, fetched⟩
    · exact ih loaded.2 later

theorem loadEdges_blocks (fetched : ∀ e ∈ l, fetch e.2 = .ok (table.block edges e.1)) {out : SortedMap K E}
    (old : ∀ k v, out.get k = some v → edges.get k = some v) : ∃ result, loadEdges table fetch l out = .ok result ∧
      ∀ k v, result.get k = some v ↔ out.get k = some v ∨ (edges.get k = some v ∧ ∃ e ∈ l, table.owner k = e.1) := by
  induction l generalizing out with
  | nil => exact ⟨out, rfl, fun k v => by simp⟩
  | cons x rest ih =>
    have own : ∀ k v, (k, v) ∈ (table.edgesOf edges x.1).entries ↔ edges.get k = some v ∧ table.owner k = x.1 := by
      intro k v
      rw [mem_entries, table.get_edgesOf]
      split_ifs with owner <;> simp [owner]
    have single : ∀ k v w, (k, v) ∈ (table.edgesOf edges x.1).entries → (k, w) ∈ (table.edgesOf edges x.1).entries → v = w := by
      intro k v w here there
      exact Option.some.inj (((own k v).mp here).1.symm.trans ((own k w).mp there).1)
    have grown : ∀ k v, (out.insertAll (table.edgesOf edges x.1).entries).get k = some v ↔
        out.get k = some v ∨ (edges.get k = some v ∧ table.owner k = x.1) := by
      intro k v
      rw [SortedMap.get_insertAll single, own]
      constructor
      · rintro (new | ⟨before, _⟩)
        · exact .inr new
        · exact .inl before
      · rintro (before | new)
        · by_cases owner : table.owner k = x.1
          · exact .inl ⟨old k v before, owner⟩
          · exact .inr ⟨before, fun w here => owner ((own k w).mp here).2⟩
        · exact .inl new
    obtain ⟨result, loaded, spec⟩ := @ih (fun e later => fetched e (mem_cons_of_mem _ later))
      (out.insertAll (table.edgesOf edges x.1).entries) (fun k v found => by
        rcases (grown k v).mp found with before | new
        · exact old k v before
        · exact new.1)
    refine ⟨result, ?_, fun k v => ?_⟩
    · have owned : ∀ e ∈ (table.edgesOf edges x.1).entries, table.owner e.1 = x.1 := fun e member => ((own e.1 e.2).mp member).2
      rw [loadEdges, fetched x mem_cons_self, ok_bind, table.decode_block, ok_bind, ensure_true _ owned, ok_bind, loaded]
    · rw [spec, grown]
      simp
      tauto

end

/-- Loading the edges of a snapshot fails or gives them back, the latter when no block has 2^32 bytes or more. -/
theorem load_edges_exact (free : CollisionFree crypto strings)
    (kept : ColdSnapshot crypto table strings edges known cold.hot_ptrs dir)
    (layout : Layout crypto cold (Pointed known cold.hot_ptrs))
    (stored : Stored crypto segments (Pointed known cold.hot_ptrs))
    (fits : ∀ p ∈ Pointed known cold.hot_ptrs, (segmentBytes p).length < 2 ^ 64)
    (parts : ∀ s file, segments.get s = some file → ∀ x, x <:+: file → x ∈ strings) (result : SortedMap K E) :
    load_from_cold_segments crypto table segments cold.hot_ptrs cold.block_locs = .ok result ↔
      result = edges ∧ ∀ a, (table.block edges a).length < 2 ^ 32 := by
  have fetch : ∀ e ∈ cold.hot_ptrs.entries, ∀ bytes, fetchFromSegment crypto segments cold.block_locs e.2 = .ok bytes ↔
      bytes = table.block edges e.1 ∧ (table.block edges e.1).length < 2 ^ 32 := by
    rintro ⟨a, ptr⟩ member bytes
    obtain ⟨rfl, p, pointed, listed⟩ := kept.target (mem_entries.mp member)
    exact fetch_block free layout stored fits (fun q there x part => parts _ _ (stored q there) x part) pointed listed
      ((kept.pieces.ok p pointed.1).blocks _ _ listed) bytes
  have whole : (∀ a, (table.block edges a).length < 2 ^ 32) →
      load_from_cold_segments crypto table segments cold.hot_ptrs cold.block_locs = .ok edges := by
    intro small
    obtain ⟨out, loaded, spec⟩ := @loadEdges_blocks K E _ table edges _ cold.hot_ptrs.entries
      (fun e member => (fetch e member _).mpr ⟨rfl, small e.1⟩) .empty (fun k v found => by cases found)
    have same : out = edges := SortedMap.ext_get fun k => Option.ext fun v => by
      rw [spec, SortedMap.get_empty]
      constructor
      · rintro (none | ⟨found, _⟩)
        · cases none
        · exact found
      · intro found
        have some_edge := table.block_ne_nil.mpr ⟨k, v, found, rfl⟩
        have points := kept.pointers (table.owner k)
        rw [pointerOf, if_neg some_edge] at points
        exact .inr ⟨found, _, mem_entries.mpr points, rfl⟩
    rw [← same]
    exact loaded
  constructor
  · intro loaded
    have small : ∀ a, (table.block edges a).length < 2 ^ 32 := by
      intro a
      by_cases none : table.block edges a = []
      · simp [none]
      · have points := kept.pointers a
        rw [pointerOf, if_neg none] at points
        have member := mem_entries.mpr points
        obtain ⟨bytes, fetched⟩ := loadEdges_fetches loaded member
        exact ((fetch _ member bytes).mp fetched).2
    rw [whole small] at loaded
    exact ⟨(Except.ok.inj loaded).symm, small⟩
  · rintro ⟨rfl, small⟩
    exact whole small

/-- A table that was opened from its snapshot. -/
structure Opened (crypto : Primitives) (table : EdgeTable K E) (edges : SortedMap K E) (known : Set Blocks)
    (ptrs : SortedMap ArtifactKey HotPtrEntryV1) (segments : SortedMap Digest Bytes) (loaded : ColdTables × SortedMap K E) : Prop where
  same : loaded.2 = edges
  pointers : loaded.1.hot_ptrs = ptrs
  layout : Layout crypto loaded.1 (Pointed known ptrs)
  stored : Stored crypto segments (Pointed known ptrs)
  small : ∀ a, (table.block edges a).length < 2 ^ 32

theorem Opened.holds (opened : Opened crypto table edges known ptrs segments loaded)
    (kept : ColdSnapshot crypto table strings edges known ptrs dir) (named : Named crypto strings segments) :
    ColdHolds crypto table strings edges loaded.1 segments (Pointed known ptrs) where
  pointers a := by rw [opened.pointers, kept.pointers]
  located a some_edge := by
    have points := kept.pointers a
    rw [pointerOf, if_neg some_edge] at points
    exact (kept.target points).2
  layout := opened.layout
  pieces := kept.pieces.subset fun p member => member.1
  stored := opened.stored
  named := named

theorem ColdSnapshot.decode_ptrs (kept : ColdSnapshot crypto table strings edges known ptrs dir) :
    decode_hot_ptrs_v1 (encode_hot_ptrs_v1 ptrs) = .ok ptrs :=
  decode_encode_rows_id hotPtrs fun e member => hotPtrs_back e.1 (by
    rw [(kept.target (mem_entries.mp member)).1]
    rfl)

section
variable {snap : CcxsnapSnapshot} {segments : SortedMap Digest Bytes} {cold_blocks : SortedMap Digest Bytes} (name : String)

theorem loadCold_eq (kept : ColdSnapshot crypto table strings edges known ptrs dir)
    (blocks : snap.blocks = [(CCXSNAP_BLOCK_HOT_PTRS_V1, encode_hot_ptrs_v1 ptrs),
      (CCXSNAP_BLOCK_COLD_SEGMENT_DIR_V1, encode_cold_segment_dir_v1 dir)]) :
    loadCold crypto table name 3 ⟨cold_blocks, segments⟩ snap = (do
      let maps ← orNotOk (load_cold_segment_indexes crypto segments (dir.entries.map fun e => ⟨e.1, e.2⟩))
      let edges ← orNotOk (load_from_cold_segments crypto table segments ptrs maps.2)
      return (⟨ptrs, maps.1, maps.2⟩, edges)) := by
  have hot : blockOf snap CCXSNAP_BLOCK_HOT_PTRS_V1 = .ok (encode_hot_ptrs_v1 ptrs) := by
    simp [blockOf, CcxsnapSnapshot.block, blocks]
  have listed : blockOf snap CCXSNAP_BLOCK_COLD_SEGMENT_DIR_V1 = .ok (encode_cold_segment_dir_v1 dir) := by
    simp [blockOf, CcxsnapSnapshot.block, blocks, CCXSNAP_BLOCK_HOT_PTRS_V1, CCXSNAP_BLOCK_COLD_SEGMENT_DIR_V1]
  unfold loadCold
  rw [hot, ok_bind, listed, ok_bind, kept.decode_ptrs, decode_encode_cold_segment_dir]
  rfl

theorem orNotOk_ok {α : Type} {x : Res α} {a : α} : orNotOk x = .ok a ↔ x = .ok a := by
  cases x <;> simp [orNotOk]

section
variable (free : CollisionFree crypto strings) (kept : ColdSnapshot crypto table strings edges known ptrs dir)
  (blocks : snap.blocks = [(CCXSNAP_BLOCK_HOT_PTRS_V1, encode_hot_ptrs_v1 ptrs), (CCXSNAP_BLOCK_COLD_SEGMENT_DIR_V1, encode_cold_segment_dir_v1 dir)])
  (parts : ∀ s file, segments.get s = some file → ∀ x, x <:+: file → x ∈ strings)
include free kept blocks parts

/-- Whatever was done to the files, a table is opened as it was committed or not at all. -/
theorem loadCold_exact (opened : loadCold crypto table name 3 ⟨cold_blocks, segments⟩ snap = .ok loaded) :
    Opened crypto table edges known ptrs segments loaded := by
  rw [loadCold_eq name kept blocks] at opened
  obtain ⟨maps, indexes, opened⟩ := bind_ok_iff.mp opened
  obtain ⟨result, edges_ok, opened⟩ := bind_ok_iff.mp opened
  rw [orNotOk_ok] at indexes edges_ok
  cases opened
  obtain ⟨stored, fits⟩ := load_indexes_exact free kept.pieces kept.reached
    (fun s bytes found => parts s bytes found bytes infix_rfl) indexes
  obtain ⟨maps', indexes', layout⟩ := load_indexes_restores free kept.pieces kept.reached stored fits
  rw [indexes] at indexes'
  cases indexes'
  have exact := (@load_edges_exact crypto strings K E _ table edges known dir _ ⟨ptrs, maps.1, maps.2⟩ free kept layout stored
    fits parts result).mp edges_ok
  exact ⟨exact.1, rfl, layout, stored, exact.2⟩

/-- With its segments in place and no block of 2^32 bytes or more, a table is opened. -/
theorem loadCold_restores
    (stored : Stored crypto segments (Pointed known ptrs)) (small : ∀ a, (table.block edges a).length < 2 ^ 32) :
    ∃ cold, loadCold crypto table name 3 ⟨cold_blocks, segments⟩ snap = .ok (cold, edges) := by
  have fits := fun p (pointed : p ∈ Pointed known ptrs) => kept.fits small pointed
  obtain ⟨maps, indexes, layout⟩ := load_indexes_restores free kept.pieces kept.reached stored fits
  have exact : load_from_cold_segments crypto table segments ptrs maps.2 = .ok edges :=
    (@load_edges_exact crypto strings K E _ table edges known dir _ ⟨ptrs, maps.1, maps.2⟩ free kept layout stored
      fits parts edges).mpr ⟨rfl, small⟩
  refine ⟨⟨ptrs, maps.1, maps.2⟩, ?_⟩
  rw [loadCold_eq name kept blocks, indexes, orNotOk_ok.mpr rfl, ok_bind, exact]
  rfl

end

end

end

end Crux.Projections
