import Crux.ProjectionCodec

/-!
# Cold segments

`corecrux-projections/src/cold_segment_v1.rs`: the edges of an artifact are one
block, addressed by its hash, and new blocks are written together into segment
files that end with an index of their blocks. `read_build` opens a segment that
was built, `read_block` fetches a block of it, and `build_inj` tells segments
apart by their blocks.
-/

namespace Crux.Projections
open Crux.Bytes Crux.Segment Crux.Session List SortedMap

/-- A table of edges that is kept in cold blocks, one for each artifact that owns edges. The keys of an artifact are a range. -/
structure EdgeTable (K E : Type) [LinearOrder K] where
  codec : RowCodec K E
  owner : K → ArtifactKey
  start : ArtifactKey → K
  stop : ArtifactKey → K
  /-- What a block with the keys of another artifact is refused with. -/
  wrong_keys : String
  back : ∀ k e, codec.take (codec.put k e) = .ok (k, e)
  ranged : ∀ a k, start a ≤ k ∧ k ≤ stop a ↔ owner k = a

def relationTable : EdgeTable RelationKey RelationEdgeV1 where
  codec := relationEdges
  owner := RelationKey.source
  start a := ⟨a.tenant_hash, a.artifact_id, 0, 0⟩
  stop a := ⟨a.tenant_hash, a.artifact_id, 0xFFFFFFFF, 0xFF⟩
  wrong_keys := "cold relations block contains wrong tenant_hash/src keys"
  back := relationEdges_back
  ranged := by
    rintro ⟨t, a⟩ ⟨t', a', d, r⟩
    have dst : d.toNat ≤ (0xFFFFFFFF : UInt32).toNat := by have := d.toNat_lt; simp; omega
    have rel : r.toNat ≤ (0xFF : UInt8).toNat := by have := r.toNat_lt; simp; omega
    change RelationKey.rank _ ≤ RelationKey.rank _ ∧ RelationKey.rank _ ≤ RelationKey.rank _ ↔ _
    simp only [RelationKey.rank, RelationKey.source, Prod.Lex.toLex_le_toLex, ArtifactKey.mk.injEq, ← UInt64.toNat_inj,
      ← UInt32.toNat_inj, UInt32.toNat_zero, UInt8.toNat_zero]
    omega

theorem dependent_ranged (a : ArtifactKey) (k : DependentKey) : (⟨a.tenant_hash, a.artifact_id, 0, nilUuid⟩ : DependentKey) ≤ k ∧
    k ≤ ⟨a.tenant_hash, a.artifact_id, 0xFF, ⟨List.replicate 16 0xFF, rfl⟩⟩ ↔ k.artifact = a := by
  obtain ⟨t, a⟩ := a
  obtain ⟨t', a', d, u⟩ := k
  have kind : d.toNat ≤ (0xFF : UInt8).toNat := by have := d.toNat_lt; simp; omega
  have least : ofBe nilUuid.val = 0 := by decide
  have greatest : ofBe (List.replicate 16 (0xFF : UInt8)) = 256 ^ 16 - 1 := by decide
  have id : ofBe u.val ≤ 256 ^ 16 - 1 := by
    have := ofBe_lt u.val
    rw [u.property] at this
    omega
  change DependentKey.rank _ ≤ DependentKey.rank _ ∧ DependentKey.rank _ ≤ DependentKey.rank _ ↔ _
  simp only [DependentKey.rank, DependentKey.artifact, Prod.Lex.toLex_le_toLex, ArtifactKey.mk.injEq, ← UInt64.toNat_inj,
    ← UInt32.toNat_inj, UInt8.toNat_zero, least, greatest]
  omega

def dependentTable : EdgeTable DependentKey DependentEdgeV1 where
  codec := dependentEdges
  owner := DependentKey.artifact
  start a := ⟨a.tenant_hash, a.artifact_id, 0, nilUuid⟩
  stop a := ⟨a.tenant_hash, a.artifact_id, 0xFF, ⟨List.replicate 16 0xFF, rfl⟩⟩
  wrong_keys := "cold dependents block contains wrong tenant_hash/artifact_id keys"
  back := dependentEdges_back
  ranged := dependent_ranged

namespace EdgeTable
variable {K E : Type} [LinearOrder K] (table : EdgeTable K E)

section
variable (edges : SortedMap K E) (a : ArtifactKey)

/-- The edges of an artifact. -/
def edgesOf : SortedMap K E := edges.range (table.start a) (table.stop a)

/-- `encode_relations_edges_for_src_v1` and `encode_dependents_edges_for_artifact_v1`. -/
def block : Bytes := encodeRows table.codec (table.edgesOf edges a)

theorem get_edgesOf (k : K) : (table.edgesOf edges a).get k = if table.owner k = a then edges.get k else none := by
  unfold edgesOf SortedMap.range
  rw [get_filterKeys]
  by_cases own : table.owner k = a
  · have inside := (table.ranged a k).mpr own
    simp [own, inside]
  · have outside : ¬ (table.start a ≤ k ∧ k ≤ table.stop a) := fun inside => own ((table.ranged a k).mp inside)
    rw [if_neg own, if_neg]
    simpa using outside

theorem decode_block : decodeRows table.codec (table.block edges a) = .ok (table.edgesOf edges a) :=
  decode_encode_rows_id table.codec fun e _ => table.back e.1 e.2

end

theorem block_ne_nil : table.block edges a ≠ [] ↔ ∃ k e, edges.get k = some e ∧ table.owner k = a := by
  unfold block
  rw [Ne, encodeRows_eq_nil]
  constructor
  · intro some_edge
    obtain ⟨⟨k, e⟩, member⟩ := exists_mem_of_ne_nil _ some_edge
    rw [mem_entries, get_edgesOf] at member
    split_ifs at member with own
    exact ⟨k, e, member, own⟩
  · rintro ⟨k, e, found, own⟩ none
    have here : (k, e) ∈ (table.edgesOf edges a).entries := by
      rw [mem_entries, get_edgesOf, if_pos own, found]
    rw [none] at here
    cases here

end EdgeTable

def CCXC_MAGIC : Bytes := [0x43, 0x43, 0x58, 0x43]
def CCXC_V1 : UInt32 := 1
def CCXC_INDEX_MAGIC : Bytes := [0x43, 0x43, 0x58, 0x49]
def CCXC_INDEX_V1 : UInt32 := 1
def CCXC_HEADER_LEN_V1 : Nat := 128

structure ColdSegmentIndexEntryV1 where
  block_blake3 : Digest
  offset : UInt64
  len : UInt32
  codec : UInt32
deriving DecidableEq

structure ColdBlockLocV1 where
  segment_blake3 : Digest
  offset : UInt64
  len : UInt32
  codec : UInt32
deriving DecidableEq

structure ColdSegmentDirEntryV1 where
  segment_blake3 : Digest
  file_len : UInt64
deriving DecidableEq

structure ColdSegmentHeaderV1 where
  block_count : UInt32
  index_offset : UInt64
  index_len : UInt64
deriving DecidableEq

def dirEntry (segment_blake3 : Digest) (file_len : UInt64) : Bytes := segment_blake3.val ++ u64le file_len

def encode_cold_segment_dir_v1 (segs : SortedMap Digest UInt64) : Bytes := segs.entries.flatMap fun e => dirEntry e.1 e.2

def takeDirEntry (chunk : Bytes) : Res ColdSegmentDirEntryV1 := .ok ⟨arrayAt 32 chunk 0, u64At chunk 32⟩

def decode_cold_segment_dir_v1 (input : Bytes) : Res (List ColdSegmentDirEntryV1) := do
  ensure (input.length % 40 = 0) (.InvalidEvent "cold segment dir block length is not a multiple of entry stride")
  decodeEach takeDirEntry 40 input (input.length / 40) 0

@[simp] theorem length_dirEntry (h : Digest) (n : UInt64) : (dirEntry h n).length = 40 := by simp [dirEntry]

theorem length_encode_cold_segment_dir (segs : SortedMap Digest UInt64) :
    (encode_cold_segment_dir_v1 segs).length = segs.size * 40 :=
  length_flatMap_const (fun e : Digest × UInt64 => length_dirEntry e.1 e.2) segs.entries

theorem decode_encode_cold_segment_dir (segs : SortedMap Digest UInt64) :
    decode_cold_segment_dir_v1 (encode_cold_segment_dir_v1 segs) = .ok (segs.entries.map fun e => ⟨e.1, e.2⟩) := by
  have entry : ∀ e : Digest × UInt64, takeDirEntry (dirEntry e.1 e.2) = .ok ⟨e.1, e.2⟩ := by
    intro e
    have number := u64At_here e.2 []
    rw [append_nil] at number
    rw [takeDirEntry, dirEntry, arrayAt_here, u64At_skip (by simp), length_fixed, Nat.sub_self, number]
  have each := decodeEach_flatMap_map (fun e : Digest × UInt64 => length_dirEntry e.1 e.2) entry segs.entries [] []
  rw [nil_append, append_nil, length_nil] at each
  have size := length_encode_cold_segment_dir segs
  unfold decode_cold_segment_dir_v1
  rw [ensure_true _ (by rw [size, Nat.mul_mod_left]), ok_bind, size, Nat.mul_div_cancel _ (by decide)]
  exact each

/-- Where the blocks are put, from a place on. -/
def placeBlocks (cursor : Nat) : List (Digest × Bytes) → List ColdSegmentIndexEntryV1
  | [] => []
  | (block_blake3, bytes) :: rest =>
    { block_blake3 := block_blake3, offset := UInt64.ofNat cursor, len := UInt32.ofNat bytes.length, codec := 0 } ::
      placeBlocks (cursor + bytes.length) rest

def indexEntry (e : ColdSegmentIndexEntryV1) : Bytes :=
  e.block_blake3.val ++ (u64le e.offset ++ (u32le e.len ++ u32le e.codec))

def segmentHeader (block_count index_offset index_len : Nat) : Bytes :=
  CCXC_MAGIC ++ (u32le CCXC_V1 ++ (u32le (UInt32.ofNat block_count) ++ (List.replicate 4 0 ++
    (u64le (UInt64.ofNat index_offset) ++ (u64le (UInt64.ofNat index_len) ++ List.replicate 96 0)))))

def segmentIndex (entries : List ColdSegmentIndexEntryV1) : Bytes :=
  CCXC_INDEX_MAGIC ++ (u32le CCXC_INDEX_V1 ++ (u32le (UInt32.ofNat entries.length) ++ (u32le 0 ++ entries.flatMap indexEntry)))

/-- The bytes of a segment with the given blocks: header, blocks in the order of their hashes, index. -/
def segmentBytes (blocks : SortedMap Digest Bytes) : Bytes :=
  let index := segmentIndex (placeBlocks CCXC_HEADER_LEN_V1 blocks.entries)
  let data := blocks.entries.flatMap Prod.snd
  segmentHeader blocks.size (CCXC_HEADER_LEN_V1 + data.length) index.length ++ (data ++ index)

def build_cold_segment_v1 (crypto : Primitives) (blocks : SortedMap Digest Bytes) :
    Bytes × Digest × List ColdSegmentIndexEntryV1 :=
  (segmentBytes blocks, crypto.blake3 (segmentBytes blocks), placeBlocks CCXC_HEADER_LEN_V1 blocks.entries)

/-- Whether each hash is above the one before it. -/
def increasing : List Digest → Bool
  | [] => true
  | [_] => true
  | a :: b :: rest => decide (ofBe a.val < ofBe b.val) && increasing (b :: rest)

def takeIndexEntry (chunk : Bytes) : Res ColdSegmentIndexEntryV1 :=
  .ok { block_blake3 := arrayAt 32 chunk 0, offset := u64At chunk 32, len := u32At chunk 40, codec := u32At chunk 44 }

/-- A file that must exist. -/
def openFile (file : Option Bytes) : Res Bytes :=
  match file with
  | some bytes => .ok bytes
  | none => .error .Io

def read_and_verify_cold_segment_index_v1 (crypto : Primitives) (file : Option Bytes) (expected_blake3 : Digest)
    (expected_len : UInt64) : Res (ColdSegmentHeaderV1 × List ColdSegmentIndexEntryV1) := do
  let bytes ← openFile file
  ensure (bytes.length = expected_len.toNat) (.InvalidEvent "cold segment length mismatch")
  ensure (crypto.blake3 bytes = expected_blake3) (.InvalidEvent "cold segment blake3 mismatch")
  ensure (CCXC_HEADER_LEN_V1 ≤ bytes.length) .Io
  ensure (slice bytes 0 4 = CCXC_MAGIC) (.InvalidEvent "cold segment invalid magic")
  let v := u32At bytes 4
  ensure (v = CCXC_V1) (.InvalidEvent s!"unsupported cold segment version {v.toNat}")
  let block_count := u32At bytes 8
  let index_offset := u64At bytes 16
  let index_len := u64At bytes 24
  ensure (CCXC_HEADER_LEN_V1 ≤ index_offset.toNat) (.InvalidEvent "cold segment index_offset points into header")
  ensure (min (index_offset.toNat + index_len.toNat) (2 ^ 64 - 1) = expected_len.toNat)
    (.InvalidEvent "cold segment index_offset/index_len do not match file length")
  ensure (index_offset.toNat + index_len.toNat ≤ bytes.length) .Io
  let idx := slice bytes index_offset.toNat (index_offset.toNat + index_len.toNat)
  ensure (16 ≤ idx.length) (.InvalidEvent "cold segment index too small")
  ensure (slice idx 0 4 = CCXC_INDEX_MAGIC) (.InvalidEvent "cold segment index invalid magic")
  let iv := u32At idx 4
  ensure (iv = CCXC_INDEX_V1) (.InvalidEvent s!"unsupported cold segment index version {iv.toNat}")
  let entry_count := (u32At idx 8).toNat
  ensure (16 + entry_count * 48 = idx.length) (.InvalidEvent "cold segment index length does not match entry_count")
  ensure (entry_count = block_count.toNat) (.InvalidEvent "cold segment header block_count != index entry_count")
  let entries ← decodeEach takeIndexEntry 48 idx entry_count 16
  ensure (increasing (entries.map fun e => e.block_blake3) = true)
    (.InvalidEvent "cold segment index entries are not strictly increasing by blake3")
  return ({ block_count := block_count, index_offset := index_offset, index_len := index_len }, entries)

def read_cold_segment_block_v1 (file : Option Bytes) (offset : UInt64) (len : UInt32) : Res Bytes := do
  let bytes ← openFile file
  ensure (len = 0 ∨ offset.toNat + len.toNat ≤ bytes.length) .Io
  return slice bytes offset.toNat (offset.toNat + len.toNat)

/-! ## What is built is read -/

@[simp] theorem length_segmentHeader (n off len : Nat) : (segmentHeader n off len).length = CCXC_HEADER_LEN_V1 := by
  simp [segmentHeader, CCXC_MAGIC, CCXC_HEADER_LEN_V1]

@[simp] theorem length_indexEntry (e : ColdSegmentIndexEntryV1) : (indexEntry e).length = 48 := by simp [indexEntry]

@[simp] theorem length_segmentIndex (entries : List ColdSegmentIndexEntryV1) :
    (segmentIndex entries).length = 16 + entries.length * 48 := by
  simp [segmentIndex]
  simp [CCXC_INDEX_MAGIC]
  omega

@[simp] theorem length_placeBlocks (cursor : Nat) (blocks : List (Digest × Bytes)) :
    (placeBlocks cursor blocks).length = blocks.length := by
  induction blocks generalizing cursor with
  | nil => rfl
  | cons b rest ih => simp [placeBlocks, ih]

theorem placeBlocks_hashes (cursor : Nat) (blocks : List (Digest × Bytes)) :
    (placeBlocks cursor blocks).map (fun e => e.block_blake3) = blocks.map Prod.fst := by
  induction blocks generalizing cursor with
  | nil => rfl
  | cons b rest ih => simp [placeBlocks, ih]

theorem length_segmentBytes (blocks : SortedMap Digest Bytes) : (segmentBytes blocks).length =
      CCXC_HEADER_LEN_V1 + (blocks.entries.flatMap Prod.snd).length + (16 + blocks.size * 48) := by
  simp [segmentBytes, SortedMap.size]
  omega

theorem takeIndexEntry_indexEntry (e : ColdSegmentIndexEntryV1) : takeIndexEntry (indexEntry e) = .ok e := by
  have last := u32At_here e.codec []
  rw [append_nil] at last
  simp [takeIndexEntry, indexEntry, last]

theorem increasing_of_sorted (sorted : hashes.Pairwise (ofBe ·.val < ofBe ·.val)) : increasing hashes = true := by
  induction hashes with
  | nil => rfl
  | cons a rest ih =>
    rw [pairwise_cons] at sorted
    cases rest with
    | nil => rfl
    | cons b rest => simp [increasing, sorted.1 b mem_cons_self, ih sorted.2]

theorem increasing_keys (blocks : SortedMap Digest Bytes) : increasing blocks.keys = true :=
  increasing_of_sorted (pairwise_map.mpr blocks.sorted)

theorem readIndex (entries : List ColdSegmentIndexEntryV1) (few : entries.length < 2 ^ 32) :
    slice (segmentIndex entries) 0 4 = CCXC_INDEX_MAGIC ∧ u32At (segmentIndex entries) 4 = CCXC_INDEX_V1 ∧
      (u32At (segmentIndex entries) 8).toNat = entries.length ∧
      decodeEach takeIndexEntry 48 (segmentIndex entries) entries.length 16 = .ok entries := by
  have magic : CCXC_INDEX_MAGIC.length = 4 := rfl
  refine ⟨slice_here _ _ _ rfl, ?_, ?_, ?_⟩
  · simp [segmentIndex, magic]
  · simpa [segmentIndex, magic] using few
  · have each := decodeEach_flatMap length_indexEntry takeIndexEntry_indexEntry entries
      (CCXC_INDEX_MAGIC ++ (u32le CCXC_INDEX_V1 ++ (u32le (UInt32.ofNat entries.length) ++ u32le 0))) []
    simp at each
    exact each

theorem read_build (crypto : Primitives) (few : blocks.size < 2 ^ 32) (fits : (segmentBytes blocks).length < 2 ^ 64) :
    ∃ header, read_and_verify_cold_segment_index_v1 crypto (some (segmentBytes blocks)) (crypto.blake3 (segmentBytes blocks))
      (UInt64.ofNat (segmentBytes blocks).length) = .ok (header, placeBlocks CCXC_HEADER_LEN_V1 blocks.entries) := by
  have size := length_segmentBytes blocks
  generalize entries_eq : placeBlocks CCXC_HEADER_LEN_V1 blocks.entries = entries
  generalize data_eq : blocks.entries.flatMap Prod.snd = data at size
  have count : entries.length = blocks.size := by rw [← entries_eq, length_placeBlocks]; rfl
  have shape : segmentBytes blocks =
      segmentHeader blocks.size (CCXC_HEADER_LEN_V1 + data.length) (segmentIndex entries).length ++
        (data ++ segmentIndex entries) := by
    rw [← data_eq, ← entries_eq]
    rfl
  have index_len : (segmentIndex entries).length = 16 + blocks.size * 48 := by rw [length_segmentIndex, count]
  generalize segmentBytes blocks = file at *
  have len : (UInt64.ofNat file.length).toNat = file.length := by rw [UInt64.toNat_ofNat', Nat.mod_eq_of_lt fits]
  have index_at : (UInt64.ofNat (CCXC_HEADER_LEN_V1 + data.length)).toNat = CCXC_HEADER_LEN_V1 + data.length := by
    rw [UInt64.toNat_ofNat', Nat.mod_eq_of_lt (by omega)]
  have index_size : (UInt64.ofNat (segmentIndex entries).length).toNat = 16 + blocks.size * 48 := by
    rw [UInt64.toNat_ofNat', index_len, Nat.mod_eq_of_lt (by omega)]
  have magic : CCXC_MAGIC.length = 4 := rfl
  have head : slice file 0 4 = CCXC_MAGIC := by
    rw [shape, segmentHeader, append_assoc]
    exact slice_here _ _ _ rfl
  have version : u32At file 4 = CCXC_V1 := by
    rw [shape]
    simp [segmentHeader, magic]
  have block_count : u32At file 8 = UInt32.ofNat blocks.size := by
    rw [shape]
    simp [segmentHeader, magic]
  have offset : u64At file 16 = UInt64.ofNat (CCXC_HEADER_LEN_V1 + data.length) := by
    rw [shape]
    simp (disch := simp [magic]) only [segmentHeader, append_assoc, u64At_skip, u64At_here, magic, length_u32le,
      length_replicate, Nat.reduceSub]
  have length : u64At file 24 = UInt64.ofNat (segmentIndex entries).length := by
    rw [shape]
    simp (disch := simp [magic]) only [segmentHeader, append_assoc, u64At_skip, u64At_here, magic, length_u32le,
      length_u64le, length_replicate, Nat.reduceSub]
  have index : slice file (CCXC_HEADER_LEN_V1 + data.length) (CCXC_HEADER_LEN_V1 + data.length + (16 + blocks.size * 48)) =
      segmentIndex entries := by
    rw [shape, ← append_assoc]
    have here := slice_mid (segmentHeader blocks.size (CCXC_HEADER_LEN_V1 + data.length) (segmentIndex entries).length ++ data)
      (segmentIndex entries) [] (CCXC_HEADER_LEN_V1 + data.length)
      (CCXC_HEADER_LEN_V1 + data.length + (16 + blocks.size * 48)) (by simp) (by simp [count])
    rwa [append_nil] at here
  obtain ⟨index_magic, index_version, index_count, decoded⟩ := readIndex entries (by omega)
  have hashes : entries.map (fun e => e.block_blake3) = blocks.keys := by rw [← entries_eq, placeBlocks_hashes]; rfl
  refine ⟨{ block_count := UInt32.ofNat blocks.size, index_offset := UInt64.ofNat (CCXC_HEADER_LEN_V1 + data.length),
            index_len := UInt64.ofNat (segmentIndex entries).length }, ?_⟩
  unfold read_and_verify_cold_segment_index_v1 openFile
  simp only [ok_bind, len, ensure_of_true, head, version, block_count, offset, length, index_at, index_size, index,
    index_magic, index_version, index_count, decoded, hashes, increasing_keys]
  rw [ensure_true _ (by omega), ok_bind, ensure_true _ (by omega), ok_bind, ensure_true _ (by omega), ok_bind,
    ensure_true _ (by omega), ok_bind, ensure_true _ (by omega), ok_bind, ensure_true _ (by omega), ok_bind,
    ensure_true _ (by rw [count, UInt32.toNat_ofNat', Nat.mod_eq_of_lt few]), ok_bind]
  rfl

theorem placed (rest : Bytes) (member : e ∈ placeBlocks front.length blocks) :
    ∃ b off, (e.block_blake3, b) ∈ blocks ∧ off + b.length ≤ front.length + (blocks.flatMap Prod.snd).length ∧
      e = { block_blake3 := e.block_blake3, offset := UInt64.ofNat off, len := UInt32.ofNat b.length, codec := 0 } ∧
      slice (front ++ (blocks.flatMap Prod.snd ++ rest)) off (off + b.length) = b := by
  induction blocks generalizing front with
  | nil => cases member
  | cons x later ih =>
    obtain ⟨h, bytes⟩ := x
    rcases mem_cons.mp member with rfl | there
    · refine ⟨bytes, front.length, mem_cons_self, ?_, rfl, ?_⟩
      · simp
      · rw [flatMap_cons, append_assoc]
        exact slice_mid _ _ _ _ _ rfl rfl
    · have moved : e ∈ placeBlocks (front ++ bytes).length later := by rwa [length_append]
      obtain ⟨b, off, listed, inside, shape, here⟩ := ih moved
      refine ⟨b, off, mem_cons_of_mem _ listed, ?_, shape, ?_⟩
      · simp at inside ⊢
        omega
      · rw [flatMap_cons, append_assoc, ← append_assoc]
        exact here

theorem read_block (fits : (segmentBytes blocks).length < 2 ^ 64) (member : e ∈ placeBlocks CCXC_HEADER_LEN_V1 blocks.entries) :
    ∃ b, blocks.get e.block_blake3 = some b ∧ e.codec = 0 ∧ e.len = UInt32.ofNat b.length ∧
      (b.length < 2 ^ 32 → read_cold_segment_block_v1 (some (segmentBytes blocks)) e.offset e.len = .ok b) := by
  have size := length_segmentBytes blocks
  have shape : segmentBytes blocks = segmentHeader blocks.size
      (CCXC_HEADER_LEN_V1 + (blocks.entries.flatMap Prod.snd).length)
      (segmentIndex (placeBlocks CCXC_HEADER_LEN_V1 blocks.entries)).length ++
        (blocks.entries.flatMap Prod.snd ++ segmentIndex (placeBlocks CCXC_HEADER_LEN_V1 blocks.entries)) := rfl
  generalize header_eq : segmentHeader blocks.size (CCXC_HEADER_LEN_V1 + (blocks.entries.flatMap Prod.snd).length)
    (segmentIndex (placeBlocks CCXC_HEADER_LEN_V1 blocks.entries)).length = front at shape
  have front_len : front.length = CCXC_HEADER_LEN_V1 := by rw [← header_eq, length_segmentHeader]
  have moved : e ∈ placeBlocks front.length blocks.entries := by rwa [front_len]
  obtain ⟨b, off, listed, inside, entry, here⟩ :=
    placed (segmentIndex (placeBlocks CCXC_HEADER_LEN_V1 blocks.entries)) moved
  rw [← shape] at here
  refine ⟨b, mem_entries.mp listed, by rw [entry], by rw [entry], fun small => ?_⟩
  rw [entry]
  have place : (UInt64.ofNat off).toNat = off := by rw [UInt64.toNat_ofNat', Nat.mod_eq_of_lt (by omega)]
  have len : (UInt32.ofNat b.length).toNat = b.length := by rw [UInt32.toNat_ofNat', Nat.mod_eq_of_lt small]
  unfold read_cold_segment_block_v1 openFile
  rw [ok_bind, place, len, ensure_true _ (.inr (by omega)), ok_bind, here]
  rfl

theorem keys_eq_of_segmentBytes (few : p.size < 2 ^ 32) (few' : q.size < 2 ^ 32) (same : segmentBytes p = segmentBytes q) :
    p.keys = q.keys := by
  have counted : ∀ r : SortedMap Digest Bytes, u32At (segmentBytes r) 8 = UInt32.ofNat r.size := by
    intro r
    have magic : CCXC_MAGIC.length = 4 := rfl
    simp [segmentBytes, segmentHeader, magic]
  have sizes : p.size = q.size := by
    have numbers := congrArg UInt32.toNat ((counted p).symm.trans ((congrArg (u32At · 8) same).trans (counted q)))
    rwa [UInt32.toNat_ofNat', UInt32.toNat_ofNat', Nat.mod_eq_of_lt few, Nat.mod_eq_of_lt few'] at numbers
  -- the index is the end of the file
  have tail : ∀ r : SortedMap Digest Bytes, (segmentBytes r).drop ((segmentBytes r).length - (16 + r.size * 48)) =
      segmentIndex (placeBlocks CCXC_HEADER_LEN_V1 r.entries) := by
    intro r
    rw [length_segmentBytes, Nat.add_sub_cancel]
    unfold segmentBytes
    rw [← append_assoc]
    exact drop_left' (by simp)
  have index : segmentIndex (placeBlocks CCXC_HEADER_LEN_V1 p.entries) = segmentIndex (placeBlocks CCXC_HEADER_LEN_V1 q.entries) := by
    rw [← tail p, ← tail q, same, sizes]
  have entries : placeBlocks CCXC_HEADER_LEN_V1 p.entries = placeBlocks CCXC_HEADER_LEN_V1 q.entries := by
    have read := (readIndex (placeBlocks CCXC_HEADER_LEN_V1 p.entries) (by rw [length_placeBlocks]; exact few)).2.2.2
    have read' := (readIndex (placeBlocks CCXC_HEADER_LEN_V1 q.entries) (by rw [length_placeBlocks]; exact few')).2.2.2
    have lengths : (placeBlocks CCXC_HEADER_LEN_V1 p.entries).length = (placeBlocks CCXC_HEADER_LEN_V1 q.entries).length := by
      rw [length_placeBlocks, length_placeBlocks]
      exact sizes
    rw [index, lengths, read'] at read
    exact (Except.ok.inj read).symm
  have hashes := congrArg (List.map fun e => e.block_blake3) entries
  rwa [placeBlocks_hashes, placeBlocks_hashes] at hashes

/-- A cold segment gives back its blocks, unless it is too large: its index lists all of them, and each is read from
its place. -/
theorem cold_segment_read_back (crypto : Primitives) (blocks : SortedMap Digest Bytes) :
    2 ^ 32 ≤ blocks.size ∨ 2 ^ 64 ≤ (segmentBytes blocks).length ∨ ∃ header entries,
      read_and_verify_cold_segment_index_v1 crypto (some (segmentBytes blocks)) (crypto.blake3 (segmentBytes blocks))
        (UInt64.ofNat (segmentBytes blocks).length) = .ok (header, entries) ∧
      entries.map (·.block_blake3) = blocks.keys ∧ ∀ e ∈ entries, ∃ b, blocks.get e.block_blake3 = some b ∧
        (b.length < 2 ^ 32 → read_cold_segment_block_v1 (some (segmentBytes blocks)) e.offset e.len = .ok b) := by
  rw [or_iff_not_imp_left, or_iff_not_imp_left, not_le, not_le]
  intro few fits
  obtain ⟨header, read⟩ := read_build crypto few fits
  refine ⟨header, _, read, placeBlocks_hashes _ _, fun e member => ?_⟩
  obtain ⟨b, found, _, _, back⟩ := read_block fits member
  exact ⟨b, found, back⟩

/-- Every block is listed under its own hash. -/
def Addressed (crypto : Primitives) (blocks : SortedMap Digest Bytes) : Prop :=
  ∀ h b, blocks.get h = some b → crypto.blake3 b = h

/-- No two of the byte strings have the same hash. -/
def CollisionFree (crypto : Primitives) (strings : Set Bytes) : Prop :=
  ∀ x ∈ strings, ∀ y ∈ strings, crypto.blake3 x = crypto.blake3 y → x = y

theorem build_inj (free : CollisionFree crypto strings) (few : p.size < 2 ^ 32) (few' : q.size < 2 ^ 32)
    (addressed : Addressed crypto p) (addressed' : Addressed crypto q) (hashed : ∀ h b, p.get h = some b → b ∈ strings)
    (hashed' : ∀ h b, q.get h = some b → b ∈ strings) (same : segmentBytes p = segmentBytes q) : p = q := by
  have keys := keys_eq_of_segmentBytes few few' same
  apply SortedMap.ext_get
  intro h
  cases here : p.get h with
  | none =>
    cases there : q.get h with
    | none => rfl
    | some b =>
      have listed : h ∈ p.keys := keys ▸ mem_keys.mpr ⟨b, there⟩
      obtain ⟨c, found⟩ := mem_keys.mp listed
      rw [here] at found
      cases found
  | some b =>
    have listed : h ∈ q.keys := keys ▸ mem_keys.mpr ⟨b, here⟩
    obtain ⟨c, there⟩ := mem_keys.mp listed
    have hashes := (addressed h b here).trans (addressed' h c there).symm
    rw [there, free b (hashed h b here) c (hashed' h c there) hashes]

def COLD_SEGMENT_MAX_BYTES_V1 : Nat := 64 * 1024 * 1024

/-- The blocks in the order of their hashes, a new segment whenever the next block would make the current one too large. -/
def cutSegments (cur : SortedMap Digest Bytes) (cur_bytes : Nat) : List (Digest × Bytes) → List (SortedMap Digest Bytes)
  | [] => if cur.entries = [] then [] else [cur]
  | (h, bytes) :: rest =>
    if cur.entries ≠ [] ∧ COLD_SEGMENT_MAX_BYTES_V1 < cur_bytes + bytes.length then
      cur :: cutSegments (SortedMap.empty.insert h bytes) bytes.length rest
    else cutSegments (cur.insert h bytes) (cur_bytes + bytes.length) rest

section
variable {cur : SortedMap Digest Bytes} {n : Nat} {l : List (Digest × Bytes)}

theorem insert_next (sorted : (cur.entries ++ (h, bytes) :: l).Pairwise fun a b => ofBe a.1.val < ofBe b.1.val) :
    (cur.insert h bytes).entries = cur.entries ++ [(h, bytes)] ∧
      (cur.insert h bytes).entries ++ l = cur.entries ++ (h, bytes) :: l := by
  have placed := @insert_last _ _ _ cur h bytes fun e member => (pairwise_append.mp sorted).2.2 e member _ mem_cons_self
  rw [placed, append_assoc]
  exact ⟨rfl, rfl⟩

theorem cutSegments_entries (sorted : (cur.entries ++ l).Pairwise fun a b => ofBe a.1.val < ofBe b.1.val) :
    (cutSegments cur n l).flatMap SortedMap.entries = cur.entries ++ l := by
  induction l generalizing cur n with
  | nil =>
    rw [cutSegments]
    split_ifs with none
    · rw [none]
      rfl
    · simp
  | cons x rest ih =>
    obtain ⟨h, bytes⟩ := x
    rw [cutSegments]
    split_ifs with full
    · exact congrArg (cur.entries ++ ·) (ih (pairwise_append.mp sorted).2.1)
    · have placed := (insert_next sorted).2
      rw [ih (placed ▸ sorted), placed]

/-- A segment has blocks, and is within the limit unless it is a single one. -/
theorem cutSegments_size (sorted : (cur.entries ++ l).Pairwise fun a b => ofBe a.1.val < ofBe b.1.val)
    (total : n = (cur.entries.flatMap Prod.snd).length) (within : n ≤ COLD_SEGMENT_MAX_BYTES_V1 ∨ cur.size = 1)
    {p : SortedMap Digest Bytes} (member : p ∈ cutSegments cur n l) :
    p.entries ≠ [] ∧ ((p.entries.flatMap Prod.snd).length ≤ COLD_SEGMENT_MAX_BYTES_V1 ∨ p.size = 1) := by
  induction l generalizing cur n with
  | nil =>
    rw [cutSegments] at member
    split_ifs at member with none
    · cases member
    · rw [mem_singleton.mp member, ← total]
      exact ⟨none, within⟩
  | cons x rest ih =>
    obtain ⟨h, bytes⟩ := x
    rw [cutSegments] at member
    split_ifs at member with full
    · rcases mem_cons.mp member with rfl | later
      · rw [← total]
        exact ⟨full.1, within⟩
      · refine ih ?_ ?_ (.inr rfl) later
        · exact (pairwise_append.mp sorted).2.1
        · simp [SortedMap.insert, SortedMap.empty, SortedMap.insertList]
    · obtain ⟨placed, moved⟩ := insert_next sorted
      refine ih (moved ▸ sorted) ?_ ?_ member
      · rw [placed, total]
        simp
      · by_cases none : cur.entries = []
        · right
          rw [SortedMap.size, placed, none]
          rfl
        · exact .inl (not_lt.mp fun larger => full ⟨none, larger⟩)

end

end Crux.Projections
