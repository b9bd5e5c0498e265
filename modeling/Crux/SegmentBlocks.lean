import Crux.SegmentTrailer

/-!
# Record blocks

How the frames of a segment are cut into record blocks of at most four
mebibytes, how the blocks are stored with either codec, and the entries of the
trailer index made from them.
-/

namespace Crux.Segment
open Crux.Bytes

abbrev Bloom := FixedBytes BLOOM_BYTES_PER_BLOCK_V1

def emptyBloom : Bloom := ⟨zeros BLOOM_BYTES_PER_BLOCK_V1, by simp⟩

/-- A block of the logical record stream: the source's `block_starts`, `block_lens` and `block_blooms` at one index. -/
structure BlockCut where
  start : Nat
  len : Nat
  bloom : Bloom
deriving DecidableEq

/-- The block being filled, the blocks done and the block of each frame so far. -/
structure CutState where
  blocks : List BlockCut := []
  cur_start : Option Nat := none
  cur_len : Nat := 0
  cur_bloom : Bloom := emptyBloom
  frame_block_id : List UInt32 := []
deriving DecidableEq

def finalizeBlock (st : CutState) : CutState :=
  { st with blocks := st.blocks ++ [{ start := st.cur_start.getD 0, len := st.cur_len, bloom := st.cur_bloom }]
            cur_start := none, cur_len := 0, cur_bloom := emptyBloom }

/-- A full block is closed before the frame that does not fit. -/
def closeFull (st : CutState) (flen : Nat) : CutState :=
  if 0 < st.cur_len ∧ RECORD_BLOCK_UNCOMPRESSED_MAX_LEN_V1.toNat < st.cur_len + flen then finalizeBlock st else st

def cutFrame (P : Primitives) (st : CutState) (f : FrameMetaTmp) : CutState :=
  let st := closeFull st f.frame_len.toNat
  { blocks := st.blocks
    cur_start := if st.cur_len = 0 then some f.record_off.toNat else st.cur_start
    cur_len := st.cur_len + f.frame_len.toNat
    cur_bloom := bloom_insert_stream_hash_v1 P st.cur_bloom BLOOM_HASH_K_V1 f.stream_hash
    frame_block_id := st.frame_block_id ++ [UInt32.ofNat st.blocks.length] }

/-- The last block is closed when it holds anything. -/
def closeLast (st : CutState) : CutState := if 0 < st.cur_len then finalizeBlock st else st

def cutBlocks (P : Primitives) (frames : List FrameMetaTmp) : CutState :=
  closeLast (frames.foldl (cutFrame P) {})

/-- The offset entries of the frames, with their place in their block. -/
def toc_by_offset_of (cut : CutState) (frames : List FrameMetaTmp) : List TocByOffsetEntryV1 :=
  (frames.zip cut.frame_block_id).map fun (f, bid) =>
    let block_start := UInt32.ofNat ((cut.blocks.map BlockCut.start).getD bid.toNat 0)
    { stream_hash := f.stream_hash, seq := f.seq, block_id := bid
      in_block_offset := if block_start ≤ f.record_off then f.record_off - block_start else 0
      frame_len := f.frame_len, flags := 0, event_id_hash16 := f.event_id_hash16
      header_digest8 := f.header_digest8, payload_digest8 := f.payload_digest8 }

/-- The order of the sorted index: by stream, sequence number, block and place in the block. -/
def tboLe (a b : TocByOffsetEntryV1) : Prop :=
  a.stream_hash < b.stream_hash ∨ (a.stream_hash = b.stream_hash ∧ (a.seq < b.seq ∨ (a.seq = b.seq ∧
    (a.block_id < b.block_id ∨ (a.block_id = b.block_id ∧ a.in_block_offset ≤ b.in_block_offset)))))

instance : DecidableRel tboLe := fun a b => by unfold tboLe; infer_instance

/-- The order of the entries at two positions; a position outside the table is never compared. -/
def tboLeAt (entries : List TocByOffsetEntryV1) (a b : UInt32) : Prop :=
  match entries[a.toNat]?, entries[b.toNat]? with
  | some ea, some eb => tboLe ea eb
  | none, _ => True
  | some _, none => False

instance (entries : List TocByOffsetEntryV1) : DecidableRel (tboLeAt entries) := fun a b => by
  unfold tboLeAt; cases entries[a.toNat]? <;> cases entries[b.toNat]? <;> infer_instance

/-- The positions of the entries, stably sorted by key. -/
def toc_sorted_idx_of (entries : List TocByOffsetEntryV1) : List UInt32 :=
  ((List.range entries.length).map UInt32.ofNat).insertionSort (tboLeAt entries)

def blocksPlain (record_area : Bytes) : Nat → List BlockCut → Result (List BlockMetaV1)
  | _, [] => .ok []
  | i, c :: rest => do
    let stop := c.start + c.len
    ensure (stop ≤ record_area.length) (.TrailerSectionInvalid "block spans past record area")
    let blocks ← blocksPlain record_area (i + 1) rest
    return { block_id := UInt32.ofNat i, codec := 0, file_offset := UInt64.ofNat (SEGMENT_HEADER_LEN + c.start),
             compressed_len := UInt32.ofNat c.len, physical_len := 0, uncompressed_len := UInt32.ofNat c.len,
             crc32c := crc32c (slice record_area c.start stop), bloom := c.bloom } :: blocks

def encode_trailer_index_v1 (P : Primitives) (record_area : Bytes) (frames : List FrameMetaTmp) : Result Bytes := do
  let cut := cutBlocks P frames
  let blocks ← blocksPlain record_area 0 cut.blocks
  let toc_by_offset := toc_by_offset_of cut frames
  return encode_trailer_index_v1_from_parts blocks toc_by_offset (toc_sorted_idx_of toc_by_offset)

structure RecordBlocksAndTrailerIndexPartsV1 where
  record_area : Bytes
  blocks : List BlockMetaV1
  toc_by_offset : List TocByOffsetEntryV1
  toc_sorted_idx : List UInt32
deriving DecidableEq

/-- The stored form of a block. -/
def storeBlock (P : Primitives) (record_block_codec : UInt32) (uncompressed : Bytes) : Bytes :=
  if record_block_codec = RECORD_BLOCK_CODEC_NONE_V1 then uncompressed else P.lz4_compress uncompressed

/-- Zero bytes up to the next four-kibibyte boundary. -/
def padUp (bytes : Bytes) : Bytes := bytes ++ zeros (align_up bytes.length 4096 - bytes.length)

/-- Each block starts on a boundary of the physical record area and is padded to the next one. -/
def blocksStored (P : Primitives) (record_area_uncompressed : Bytes) (record_block_codec : UInt32) :
    Nat → Bytes → List BlockCut → Result (Bytes × List BlockMetaV1)
  | _, record_area, [] => .ok (record_area, [])
  | i, record_area, c :: rest => do
    let stop := c.start + c.len
    ensure (stop ≤ record_area_uncompressed.length)
      (.TrailerSectionInvalid "block spans past uncompressed record area")
    let uncompressed := slice record_area_uncompressed c.start stop
    let compressed_bytes := storeBlock P record_block_codec uncompressed
    ensure (compressed_bytes.length ≤ U32_MAX) (.LengthOutOfRange "compressed block len exceeds u32")
    ensure (c.len ≤ U32_MAX) (.LengthOutOfRange "uncompressed block len exceeds u32")
    let record_area := padUp record_area
    let file_offset := SEGMENT_HEADER_LEN + record_area.length
    ensure (file_offset < 2 ^ 64) .BufferTooSmall
    let physical_len := align_up compressed_bytes.length 4096
    ensure (physical_len ≤ U32_MAX) (.LengthOutOfRange "physical block len exceeds u32")
    let (final, blocks) ← blocksStored P record_area_uncompressed record_block_codec (i + 1)
      (record_area ++ padUp compressed_bytes) rest
    return (final,
      { block_id := UInt32.ofNat i, codec := record_block_codec, file_offset := UInt64.ofNat file_offset,
        compressed_len := UInt32.ofNat compressed_bytes.length, physical_len := UInt32.ofNat physical_len,
        uncompressed_len := UInt32.ofNat c.len, crc32c := crc32c uncompressed, bloom := c.bloom } :: blocks)

def build_record_blocks_and_trailer_index_parts_v1 (P : Primitives) (record_area_uncompressed : Bytes)
    (frames : List FrameMetaTmp) (record_block_codec : UInt32) : Result RecordBlocksAndTrailerIndexPartsV1 := do
  ensure (record_block_codec = RECORD_BLOCK_CODEC_NONE_V1 ∨ record_block_codec = RECORD_BLOCK_CODEC_LZ4_V1)
    (.LengthOutOfRange s!"unsupported record_block_codec {record_block_codec}")
  let cut := cutBlocks P frames
  let (record_area, blocks) ← blocksStored P record_area_uncompressed record_block_codec 0 [] cut.blocks
  let toc_by_offset := toc_by_offset_of cut frames
  return { record_area, blocks, toc_by_offset, toc_sorted_idx := toc_sorted_idx_of toc_by_offset }

/-- Frames that follow one another from an offset on. -/
def Contiguous : Nat → List FrameMetaTmp → Prop
  | _, [] => True
  | off, f :: rest => f.record_off.toNat = off ∧ Contiguous (off + f.frame_len.toNat) rest

/-- The bytes the frames take up. -/
def framesLen (frames : List FrameMetaTmp) : Nat := (frames.map fun f => f.frame_len.toNat).sum

/-- Blocks that follow one another from one offset to another. -/
inductive Tiles : Nat → List BlockCut → Nat → Prop where
  | nil (a : Nat) : Tiles a [] a
  | cons {c : BlockCut} {rest : List BlockCut} {b : Nat} : Tiles (c.start + c.len) rest b → Tiles c.start (c :: rest) b

theorem Tiles.snoc (h : Tiles a blocks c.start) : Tiles a (blocks ++ [c]) (c.start + c.len) := by
  generalize stop : c.start = b at h
  induction h with
  | nil a => subst stop; exact .cons (.nil _)
  | cons _ ih => exact .cons (ih stop)

theorem Tiles.le (h : Tiles a blocks b) : a ≤ b := by
  induction h with
  | nil a => exact le_refl a
  | cons _ ih => omega

/-- The closed blocks tile the stream up to where the open block starts. -/
structure CutInv (st : CutState) (total : Nat) : Prop where
  open_le : st.cur_len ≤ total
  tiles : Tiles 0 st.blocks (total - st.cur_len)
  start : 0 < st.cur_len → st.cur_start = some (total - st.cur_len)

variable {st : CutState} {total : Nat}

theorem CutInv.finalize (h : CutInv st total) (held : 0 < st.cur_len) : CutInv (finalizeBlock st) total := by
  have start := h.start held
  have le := h.open_le
  refine ⟨Nat.zero_le _, ?_, fun none => absurd none (lt_irrefl 0)⟩
  have cut : (finalizeBlock st).blocks =
      st.blocks ++ [{ start := total - st.cur_len, len := st.cur_len, bloom := st.cur_bloom }] := by
    simp [finalizeBlock, start]
  have tiles : Tiles 0 (finalizeBlock st).blocks (total - st.cur_len + st.cur_len) := by
    rw [cut]
    exact Tiles.snoc (c := { start := total - st.cur_len, len := st.cur_len, bloom := st.cur_bloom }) h.tiles
  rw [Nat.sub_add_cancel le] at tiles
  exact tiles

theorem CutInv.closeFull (h : CutInv st total) (flen : Nat) : CutInv (closeFull st flen) total := by
  unfold Segment.closeFull
  split_ifs with full
  · exact h.finalize full.1
  · exact h

variable {P : Primitives}

theorem CutInv.cutFrame (h : CutInv st total) (here : f.record_off.toNat = total) :
    CutInv (cutFrame P st f) (total + f.frame_len.toNat) := by
  have closed := h.closeFull f.frame_len.toNat
  have le := closed.open_le
  have same : total + f.frame_len.toNat - ((Segment.closeFull st f.frame_len.toNat).cur_len + f.frame_len.toNat) =
      total - (Segment.closeFull st f.frame_len.toNat).cur_len := by omega
  refine ⟨?_, ?_, ?_⟩
  · change _ + _ ≤ _
    omega
  · change Tiles 0 _ (_ - (_ + _))
    rw [same]
    exact closed.tiles
  · intro _
    change (if (Segment.closeFull st f.frame_len.toNat).cur_len = 0 then some f.record_off.toNat
      else (Segment.closeFull st f.frame_len.toNat).cur_start) = some (_ - (_ + _))
    rw [same]
    split_ifs with empty
    · rw [here, empty, Nat.sub_zero]
    · exact closed.start (Nat.pos_of_ne_zero empty)

theorem CutInv.cutFrames (frames : List FrameMetaTmp) (h : CutInv st total)
    (follow : Contiguous total frames) : CutInv (frames.foldl (Segment.cutFrame P) st) (total + framesLen frames) := by
  induction frames generalizing st total with
  | nil => simpa [framesLen] using h
  | cons f rest ih =>
    obtain ⟨here, later⟩ := follow
    have := ih (h.cutFrame (P := P) here) later
    simpa [framesLen, Nat.add_assoc] using this

theorem cutBlocks_tiles (follow : Contiguous 0 frames) : Tiles 0 (cutBlocks P frames).blocks (framesLen frames) := by
  have empty : CutInv {} 0 := ⟨le_refl 0, .nil 0, fun none => absurd none (lt_irrefl 0)⟩
  have all := CutInv.cutFrames (P := P) frames empty follow
  rw [Nat.zero_add] at all
  unfold cutBlocks closeLast
  split_ifs with held
  · exact (all.finalize held).tiles
  · have tiles := all.tiles
    rw [Nat.eq_zero_of_not_pos held, Nat.sub_zero] at tiles
    exact tiles

end Crux.Segment
