import Crux.SegmentDecode
import Crux.Reference

/-!
# What is built is what is read

The blocks of a built segment, read through its index, give back the record
stream, and the frames of the stream come back in the order they were given.
-/

namespace Crux.Segment
open Crux.Bytes List

theorem concatBlocks_readBack (P : Primitives) (bytes : Bytes) (blocks : List BlockMetaV1) :
    concatBlocks P bytes (blocks.map readBack) = concatBlocks P bytes blocks := by
  induction blocks with
  | nil => rfl
  | cons b rest ih => rw [map_cons, concatBlocks, concatBlocks, ih]; rfl

variable {record_area rest : Bytes} {a b : Nat}

theorem slice_record (size : hdr.length = SEGMENT_HEADER_LEN) (inside : b ≤ record_area.length) :
    slice (hdr ++ (record_area ++ rest)) (SEGMENT_HEADER_LEN + a) (SEGMENT_HEADER_LEN + b) = slice record_area a b := by
  rw [slice_skip _ _ _ _ (by omega), size, Nat.add_sub_cancel_left, Nat.add_sub_cancel_left,
    slice_within _ _ _ _ inside]

variable {P : Primitives} {i : Nat} {cuts : List BlockCut} {blocks : List BlockMetaV1}

theorem concatBlocks_plain (size : hdr.length = SEGMENT_HEADER_LEN) (small : record_area.length ≤ U32_MAX)
    (tiles : Tiles a cuts b) (h : blocksPlain record_area i cuts = .ok blocks) :
    concatBlocks P (hdr ++ (record_area ++ rest)) blocks = .ok (slice record_area a b) := by
  induction tiles generalizing i blocks with
  | nil a =>
    cases h
    simp [concatBlocks, slice]
  | @cons c cuts b tiles ih =>
    rw [blocksPlain, ensure_bind_ok, bind_ok_iff] at h
    obtain ⟨inside, later, hlater, h⟩ := h
    cases h
    have start : (UInt64.ofNat (SEGMENT_HEADER_LEN + c.start)).toNat = SEGMENT_HEADER_LEN + c.start :=
      toNat_u64_of_le (by unfold U32_MAX at small; unfold SEGMENT_HEADER_LEN; omega)
    have len : (UInt32.ofNat c.len).toNat = c.len := toNat_u32_of_le (by omega)
    have found : getSlice (hdr ++ (record_area ++ rest)) (SEGMENT_HEADER_LEN + c.start)
        (SEGMENT_HEADER_LEN + c.start + c.len) = .ok (slice record_area c.start (c.start + c.len)) := by
      rw [getSlice_ok (by omega) (by simp; omega), Nat.add_assoc, slice_record size inside]
    have plain : (slice record_area c.start (c.start + c.len)).length = c.len := by
      rw [length_slice inside]
      omega
    have joined : slice record_area c.start (c.start + c.len) ++ slice record_area (c.start + c.len) b =
        slice record_area c.start b := slice_append_slice _ _ _ _ (by omega) tiles.le
    simp only [concatBlocks, decodeRecordBlock, unstoreBlock, start, len, found, ok_bind, RECORD_BLOCK_CODEC_NONE_V1, if_true, plain,
      ensure_of_true, ih hlater]
    rw [← joined]
    rfl

variable {codec : UInt32}

theorem decodeRecordBlock_stored (known : codec = RECORD_BLOCK_CODEC_NONE_V1 ∨ codec = RECORD_BLOCK_CODEC_LZ4_V1)
    (found : getSlice file block.file_offset.toNat (block.file_offset.toNat + block.compressed_len.toNat) =
      .ok (storeBlock P codec plain)) (hcodec : block.codec = codec) (len : block.uncompressed_len.toNat = plain.length)
    (crc : block.crc32c = crc32c plain) : decodeRecordBlock P file block = .ok plain := by
  have back : unstoreBlock P block (storeBlock P codec plain) = .ok plain := by
    rcases known with none | lz4
    · simp [unstoreBlock, hcodec, none, storeBlock]
    · have differ : RECORD_BLOCK_CODEC_LZ4_V1 ≠ RECORD_BLOCK_CODEC_NONE_V1 := by decide
      simp [unstoreBlock, hcodec, lz4, differ, storeBlock, len, P.decompress_compress]
  simp [decodeRecordBlock, found, back, len, crc]

variable {final : Bytes}

/-- What a block of the index keeps of its cut. -/
def cutView (c : BlockCut × Nat) : UInt32 × UInt32 × Bloom := (UInt32.ofNat c.2, UInt32.ofNat c.1.len, c.1.bloom)

def metaView (b : BlockMetaV1) : UInt32 × UInt32 × Bloom := (b.block_id, b.uncompressed_len, b.bloom)

theorem blocksStored_ok (h : blocksStored P unc codec i acc cuts = .ok (final, blocks)) :
    (∃ tail, final = acc ++ tail) ∧ blocks.map metaView = (cuts.zipIdx i).map cutView := by
  induction cuts generalizing i acc final blocks with
  | nil =>
    cases h
    exact ⟨⟨[], by simp⟩, rfl⟩
  | cons c cuts ih =>
    rw [blocksStored] at h
    rw [ensure_bind_ok, ensure_bind_ok, ensure_bind_ok, ensure_bind_ok, ensure_bind_ok, bind_ok_iff] at h
    obtain ⟨_, _, _, _, _, ⟨final', blocks'⟩, later, h⟩ := h
    cases h
    obtain ⟨⟨tail, rfl⟩, views⟩ := ih later
    have pad : padUp acc = acc ++ zeros (align_up acc.length 4096 - acc.length) := rfl
    rw [pad, append_assoc, append_assoc]
    exact ⟨⟨_, rfl⟩, congrArg (_ :: ·) views⟩

theorem concatBlocks_stored (size : hdr.length = SEGMENT_HEADER_LEN)
    (known : codec = RECORD_BLOCK_CODEC_NONE_V1 ∨ codec = RECORD_BLOCK_CODEC_LZ4_V1) (tiles : Tiles a cuts b)
    (h : blocksStored P unc codec i acc cuts = .ok (final, blocks)) :
    concatBlocks P (hdr ++ (final ++ rest)) blocks = .ok (slice unc a b) := by
  induction tiles generalizing i acc blocks with
  | nil a =>
    cases h
    simp [concatBlocks, slice]
  | @cons c cuts b tiles ih =>
    rw [blocksStored] at h
    dsimp only at h
    rw [ensure_bind_ok, ensure_bind_ok, ensure_bind_ok, ensure_bind_ok, ensure_bind_ok, bind_ok_iff] at h
    obtain ⟨inside, small, clen, offset, physical, ⟨last, blocks'⟩, later, h⟩ := h
    obtain ⟨rfl, rfl⟩ := h
    obtain ⟨tail, htail⟩ := (blocksStored_ok later).1
    generalize hstored : storeBlock P codec (slice unc c.start (c.start + c.len)) = stored at *
    have first : decodeRecordBlock P (hdr ++ (last ++ rest))
        { block_id := UInt32.ofNat i, codec := codec,
          file_offset := UInt64.ofNat (SEGMENT_HEADER_LEN + (padUp acc).length),
          compressed_len := UInt32.ofNat stored.length,
          physical_len := UInt32.ofNat (align_up stored.length 4096), uncompressed_len := UInt32.ofNat c.len,
          crc32c := crc32c (slice unc c.start (c.start + c.len)), bloom := c.bloom } =
        .ok (slice unc c.start (c.start + c.len)) := by
      apply decodeRecordBlock_stored known _ rfl _ rfl
      · rw [toNat_u64_of_le offset, toNat_u32_of_le small, htail, hstored]
        rw [getSlice_ok (by omega) (by simp [padUp]; omega), Nat.add_assoc, slice_record size (by simp [padUp]; omega)]
        congr 1
        have pad : padUp stored = stored ++ zeros (align_up stored.length 4096 - stored.length) := rfl
        rw [pad, append_assoc, append_assoc]
        exact slice_mid _ _ _ _ _ rfl rfl
      · rw [toNat_u32_of_le clen, length_slice inside]
        omega
    have joined : slice unc c.start (c.start + c.len) ++ slice unc (c.start + c.len) b = slice unc c.start b :=
      slice_append_slice _ _ _ _ (by omega) tiles.le
    rw [concatBlocks, first, ok_bind, ih later, ok_bind, ← joined]
    rfl

theorem blocksPlain_views (h : blocksPlain record_area i cuts = .ok blocks) :
    blocks.map metaView = (cuts.zipIdx i).map cutView := by
  induction cuts generalizing i blocks with
  | nil => cases h; rfl
  | cons c cuts ih =>
    rw [blocksPlain, ensure_bind_ok, bind_ok_iff] at h
    obtain ⟨_, later, hlater, h⟩ := h
    cases h
    exact congrArg (_ :: ·) (ih hlater)

theorem ids_of_views (views : blocks.map metaView = (cuts.zipIdx 0).map cutView) :
    blocks.map BlockMetaV1.block_id = (List.range' 0 cuts.length).map UInt32.ofNat := by
  have ids := congrArg (List.map Prod.fst) views
  rw [map_map, map_map] at ids
  rw [← zipIdx_map_snd, map_map]
  exact ids

variable {n : Nat} {tbo : List TocByOffsetEntryV1}

section
variable (ids : blocks.map BlockMetaV1.block_id = (List.range' 0 n).map UInt32.ofNat)
include ids

theorem length_of_ids : blocks.length = n := by
  have := congrArg List.length ids
  simpa using this

theorem sort_numbered (small : blocks.length ≤ U32_MAX) :
    (blocks.map readBack).insertionSort blockIdLe = blocks.map readBack := by
  apply List.Pairwise.insertionSort_eq
  have count := length_of_ids ids
  have sorted : (blocks.map BlockMetaV1.block_id).Pairwise (· ≤ ·) := by
    rw [ids, pairwise_map]
    apply List.Pairwise.imp_of_mem _ (pairwise_lt_range' (s := 0) (n := n))
    intro i j hi hj lt
    simp at hi hj
    rw [UInt32.le_iff_toNat_le, toNat_u32_of_le (by omega), toNat_u32_of_le (by omega)]
    omega
  rw [pairwise_map] at sorted ⊢
  exact sorted

theorem streamOf_numbered (small : blocks.length ≤ U32_MAX) (whole : concatBlocks P bytes blocks = .ok stream)
    (some_block : blocks ≠ []) :
    streamOf P bytes footer (some (trailerOf blocks tbo tsi)) = .ok stream := by
  have present : (trailerOf blocks tbo tsi).blocks ≠ [] := by simpa [trailerOf] using some_block
  unfold streamOf
  simp only [if_neg present]
  change concatBlocks P bytes ((blocks.map readBack).insertionSort blockIdLe) = _
  rw [sort_numbered ids small, concatBlocks_readBack, whole]

end

theorem length_toc_sorted_idx_of (entries : List TocByOffsetEntryV1) : (toc_sorted_idx_of entries).length = entries.length := by
  simp [toc_sorted_idx_of]

theorem toc_sorted_idx_of_inside (h : idx ∈ toc_sorted_idx_of entries) : idx.toNat < entries.length := by
  unfold toc_sorted_idx_of at h
  rw [mem_insertionSort, mem_map] at h
  obtain ⟨i, hi, rfl⟩ := h
  rw [mem_range] at hi
  rw [UInt32.toNat_ofNat']
  exact lt_of_le_of_lt (Nat.mod_le _ _) hi

variable {header : SegmentHeaderV1} {entries : List TocEntryV1} {tables footer_bytes : Bytes} {out : SegmentBuildOutput}

section
variable {pad : Nat}
  (h : Assembled P header entries record_area (encode_trailer_index_v1_from_parts blocks tbo (toc_sorted_idx_of tbo)) tables footer_bytes pad out)
include h

theorem Assembled.index : out.footer.toc_offset.toNat + out.footer.toc_len.toNat ≤ out.bytes.length ∧ decode_trailer_index_v1
          (slice out.bytes out.footer.toc_offset.toNat (out.footer.toc_offset.toNat + out.footer.toc_len.toNat))
          out.toc_header = .ok (some (trailerOf blocks tbo (toc_sorted_idx_of tbo))) := by
  have len := h.length
  have start : out.toc_header.toc_payload_len.toNat + out.toc_header.crc_tables_len.toNat =
      (payloadOf out.toc_header entries ++ tables).length := by
    rw [h.payload_len, h.tables_len, length_append]
  have small : (payloadOf out.toc_header entries ++ tables).length < 2 ^ 64 := by
    have bound := out.footer.toc_len.toNat_lt
    rw [h.toc_len] at bound
    rw [length_append]
    omega
  have read := decode_trailer_index_v1_parts start small h.ext_small (length_toc_sorted_idx_of tbo)
    (fun _ => toc_sorted_idx_of_inside) pad
  have area : slice out.bytes out.footer.toc_offset.toNat (out.footer.toc_offset.toNat + out.footer.toc_len.toNat) =
      areaOf out entries tables (encode_trailer_index_v1_from_parts blocks tbo (toc_sorted_idx_of tbo)) pad := h.tocArea
  refine ⟨by rw [h.toc_offset, len]; omega, ?_⟩
  rw [area, areaOf, ← append_assoc, read]

theorem Assembled.trailer : reassemble_record_stream_v1 P out.bytes out.toc_header out.footer =
      streamOf P out.bytes out.footer (some (trailerOf blocks tbo (toc_sorted_idx_of tbo))) := by
  obtain ⟨inside, read⟩ := h.index
  unfold reassemble_record_stream_v1
  rw [getSlice_ok (Nat.le_add_right _ _) inside, ok_bind, read, ok_bind]

end

/-- Frame records that lie one after another and fill a record area. -/
structure Laid (record_area : Bytes) (tmp : List FrameMetaTmp) : Prop where
  follow : Contiguous 0 tmp
  fill : framesLen tmp = record_area.length

theorem Tiles.eq_of_nil (h : Tiles a [] b) : a = b := by
  generalize none : ([] : List BlockCut) = blocks at h
  cases h with
  | nil a => rfl
  | cons => cases none

theorem index_small (fits : (encode_trailer_index_v1_from_parts blocks tbo tsi).length ≤ U32_MAX) :
    blocks.length ≤ U32_MAX ∧ tbo.length ≤ U32_MAX := by
  simp [encode_trailer_index_v1_from_parts, BLOCK_META_V1_LEN, TOC_BY_OFFSET_ENTRY_V1_LEN] at fits
  omega

theorem Assembled.stream (h : Assembled P header entries stored
      (encode_trailer_index_v1_from_parts blocks tbo (toc_sorted_idx_of tbo)) tables footer_bytes pad out)
    (ids : blocks.map BlockMetaV1.block_id = (List.range' 0 n).map UInt32.ofNat)
    (whole : concatBlocks P out.bytes blocks = .ok record_area) (empty : n = 0 → stored = record_area) :
    reassemble_record_stream_v1 P out.bytes out.toc_header out.footer = .ok record_area := by
  rw [h.trailer]
  by_cases none : blocks = []
  · have zero : n = 0 := by rw [← length_of_ids ids, none]; rfl
    have len := h.length
    subst none
    rw [← empty zero, ← h.recordArea]
    exact getSlice_ok (by omega) (by rw [h.record_offset, h.record_len, len]; omega)
  · exact streamOf_numbered ids (index_small h.ext_small).1 whole none

section
variable {a : SegmentArgs} {toc_entries : List TocEntryV1} {tmp : List FrameMetaTmp}

/-- How a finished segment came about: its blocks are stored as they are, or through a codec. -/
theorem finishSegment_parts
    (h : finishSegment P a codec record_area toc_entries tmp = .ok out) : ∃ stored blocks tables footer_bytes pad,
      Assembled P (headerOf a) (toc_entries.insertionSort tocLe) stored
        (encode_trailer_index_v1_from_parts blocks (toc_by_offset_of (cutBlocks P tmp) tmp)
          (toc_sorted_idx_of (toc_by_offset_of (cutBlocks P tmp) tmp))) tables footer_bytes pad out ∧
      out.toc_entries = toc_entries.insertionSort tocLe ∧ is_sorted_toc (toc_entries.insertionSort tocLe) = true ∧
      blocks.map metaView = ((cutBlocks P tmp).blocks.zipIdx 0).map cutView ∧ ((codec = RECORD_BLOCK_CODEC_NONE_V1 ∧ stored = record_area ∧ record_area.length ≤ U32_MAX ∧
          blocksPlain record_area 0 (cutBlocks P tmp).blocks = .ok blocks) ∨ (codec = RECORD_BLOCK_CODEC_LZ4_V1 ∧
          blocksStored P record_area codec 0 [] (cutBlocks P tmp).blocks = .ok (stored, blocks))) := by
  unfold finishSegment at h
  rw [ensure_bind_ok] at h
  obtain ⟨sorted, h⟩ := h
  by_cases plain : codec = RECORD_BLOCK_CODEC_NONE_V1
  · rw [if_pos plain] at h
    obtain ⟨ext, tables, footer_bytes, pad, hext, asm, same, record_small⟩ := assembleSegment_ok h
    unfold encode_trailer_index_v1 at hext
    rw [bind_ok_iff] at hext
    obtain ⟨blocks, hblocks, hext⟩ := hext
    cases hext
    exact ⟨_, blocks, tables, footer_bytes, pad, asm, same, sorted, blocksPlain_views hblocks,
      .inl ⟨plain, rfl, record_small, hblocks⟩⟩
  · rw [if_neg plain, bind_ok_iff] at h
    obtain ⟨parts, hparts, h⟩ := h
    unfold build_record_blocks_and_trailer_index_parts_v1 at hparts
    rw [ensure_bind_ok, bind_ok_iff] at hparts
    obtain ⟨known, ⟨stored, blocks⟩, hblocks, hparts⟩ := hparts
    cases hparts
    obtain ⟨ext, tables, footer_bytes, pad, hext, asm, same, _⟩ := assembleSegment_ok h
    cases hext
    exact ⟨stored, blocks, tables, footer_bytes, pad, asm, same, sorted, (blocksStored_ok hblocks).2,
      .inr ⟨known.resolve_left plain, hblocks⟩⟩

/-- A finished segment is verified, and its record stream is the record area it was made from. -/
theorem finishSegment_ok (laid : Laid record_area tmp) (h : finishSegment P a codec record_area toc_entries tmp = .ok out) :
    decode_segment_v1 P out.bytes =
        .ok { header := headerOf a, toc_header := out.toc_header, entries := toc_entries.insertionSort tocLe,
              footer := out.footer } ∧
      reassemble_record_stream_v1 P out.bytes out.toc_header out.footer = .ok record_area := by
  have tiles : Tiles 0 (cutBlocks P tmp).blocks record_area.length := by
    rw [← laid.fill]
    exact cutBlocks_tiles laid.follow
  have all : slice record_area 0 record_area.length = record_area := slice_all _ _ rfl
  obtain ⟨stored, blocks, tables, footer_bytes, pad, asm, _, sorted, views, way⟩ := finishSegment_parts h
  refine ⟨asm.decode sorted, ?_⟩
  rcases way with ⟨_, rfl, record_small, hblocks⟩ | ⟨lz4, hblocks⟩
  · have whole : concatBlocks P out.bytes blocks = .ok stored := by
      rw [asm.bytes, concatBlocks_plain (length_encode_segment_header_v1 (headerOf a)) record_small tiles hblocks, all]
    exact asm.stream (ids_of_views views) whole (fun _ => rfl)
  · have whole : concatBlocks P out.bytes blocks = .ok record_area := by
      rw [asm.bytes, concatBlocks_stored (length_encode_segment_header_v1 (headerOf a)) (.inr lz4) tiles hblocks, all]
    refine asm.stream (ids_of_views views) whole fun none => ?_
    rw [eq_nil_of_length_eq_zero none] at tiles hblocks
    cases hblocks
    exact (eq_nil_of_length_eq_zero tiles.eq_of_nil.symm).symm

end

/-! ## The frames of the builder -/

/-- The bytes of a frame to be built. -/
def bytesOf (f : FrameInput) : Bytes := frameBytes f.header_bytes f.payload_bytes

/-- One value for each frame, made with the offset the frame comes to stand at. -/
def layFrom {β : Type} (g : Nat → FrameInput → β) : Nat → List FrameInput → List β
  | _, [] => []
  | off, f :: rest => g off f :: layFrom g (off + (bytesOf f).length) rest

def entryAt (P : Primitives) (off : Nat) (f : FrameInput) : TocEntryV1 :=
  { stream_hash := f.stream_hash, seq := f.seq, file_offset := UInt32.ofNat (SEGMENT_HEADER_LEN + off)
    frame_len := UInt32.ofNat (bytesOf f).length, payload_len := UInt32.ofNat f.payload_bytes.length, flags := 0
    event_id_hash16 := fixed 16 ((P.blake3 f.event_id).val.take 16)
    header_digest8 := fixed 8 (f.header_hash.val.take 8), payload_digest8 := fixed 8 (f.payload_hash.val.take 8) }

def metaAt (P : Primitives) (off : Nat) (f : FrameInput) : FrameMetaTmp :=
  { stream_hash := f.stream_hash, seq := f.seq
    event_id_hash16 := fixed 16 ((P.blake3 f.event_id).val.take 16)
    header_digest8 := fixed 8 (f.header_hash.val.take 8), payload_digest8 := fixed 8 (f.payload_hash.val.take 8)
    record_off := UInt32.ofNat off, frame_len := UInt32.ofNat (bytesOf f).length }

/-- The frame a reader gets. -/
def frameAt (off : Nat) (f : FrameInput) : SegmentFrameV1 :=
  { stream_hash := f.stream_hash, seq := f.seq, record_off := UInt32.ofNat off, header_bytes := f.header_bytes
    payload_bytes := f.payload_bytes }

/-- The frame can be placed at an offset: its lengths and its place fit their fields. -/
structure Placeable (off : Nat) (f : FrameInput) : Prop where
  offset : SEGMENT_HEADER_LEN + off ≤ U32_MAX
  header : f.header_bytes.length ≤ 65535
  payload : f.payload_bytes.length ≤ U32_MAX
  frame : (bytesOf f).length ≤ U32_MAX

def AllPlaceable : Nat → List FrameInput → Prop
  | _, [] => True
  | off, f :: rest => Placeable off f ∧ AllPlaceable (off + (bytesOf f).length) rest

theorem pushFrame_ok (h : pushFrame P st f = .ok st') : Placeable st.record_area.length f ∧
      st' = { record_area := st.record_area ++ bytesOf f
              toc_entries := st.toc_entries ++ [entryAt P st.record_area.length f]
              frames_by_offset := st.frames_by_offset ++ [metaAt P st.record_area.length f] } := by
  unfold pushFrame at h
  rw [ensure_bind_ok, ensure_bind_ok, bind_ok_iff] at h
  obtain ⟨_, offset, frame_bytes, encoded, h⟩ := h
  rw [ensure_bind_ok] at h
  obtain ⟨frame, h⟩ := h
  obtain ⟨header, payload, rfl⟩ := encode_frame_v1_ok_iff.mp encoded
  cases h
  exact ⟨⟨offset, header, payload, frame⟩, rfl⟩

variable {frames : List FrameInput}

theorem pushFrames_ok (h : pushFrames P st frames = .ok st') : AllPlaceable st.record_area.length frames ∧
      st' = { record_area := st.record_area ++ frames.flatMap bytesOf
              toc_entries := st.toc_entries ++ layFrom (entryAt P) st.record_area.length frames
              frames_by_offset := st.frames_by_offset ++ layFrom (metaAt P) st.record_area.length frames } := by
  induction frames generalizing st with
  | nil =>
    cases h
    simp [AllPlaceable, layFrom]
  | cons f rest ih =>
    rw [pushFrames, bind_ok_iff] at h
    obtain ⟨mid, first, later⟩ := h
    obtain ⟨fits, rfl⟩ := pushFrame_ok first
    obtain ⟨more, rfl⟩ := ih later
    simp at more ⊢
    exact ⟨⟨fits, more⟩, by simp [layFrom]⟩

theorem metas_laid (fits : AllPlaceable off frames) : Contiguous off (layFrom (metaAt P) off frames) ∧
      framesLen (layFrom (metaAt P) off frames) = (frames.flatMap bytesOf).length := by
  induction frames generalizing off with
  | nil => exact ⟨trivial, rfl⟩
  | cons f rest ih =>
    obtain ⟨here, later⟩ := fits
    obtain ⟨follow, fill⟩ := ih later
    have place : (metaAt P off f).record_off.toNat = off :=
      toNat_u32_of_le (le_trans (Nat.le_add_left off SEGMENT_HEADER_LEN) here.offset)
    have len : (metaAt P off f).frame_len.toNat = (bytesOf f).length := toNat_u32_of_le here.frame
    refine ⟨⟨place, by rw [len]; exact follow⟩, ?_⟩
    unfold framesLen at fill ⊢
    simp [layFrom, len, fill]

theorem decodeFrameAt_entry (front rest : Bytes) (fits : Placeable front.length f) :
    decodeFrameAt (front ++ (bytesOf f ++ rest)) (entryAt P front.length f) = .ok (frameAt front.length f) := by
  have place : (entryAt P front.length f).file_offset.toNat = SEGMENT_HEADER_LEN + front.length :=
    toNat_u32_of_le fits.offset
  have len : (entryAt P front.length f).frame_len.toNat = (bytesOf f).length := toNat_u32_of_le fits.frame
  have found : frame_slice_v1 (front ++ (bytesOf f ++ rest)) (entryAt P front.length f) =
      .ok (front.length, bytesOf f) := by
    unfold frame_slice_v1
    dsimp only
    rw [place, len, ensure_true _ (by omega), ok_bind, Nat.add_sub_cancel_left,
      getSlice_ok (by omega) (by simp), slice_mid _ _ _ _ _ rfl rfl]
    rfl
  obtain ⟨magic, _, hlen, plen⟩ := read_framePrologue f.header_bytes f.payload_bytes
    (f.header_bytes ++ (f.payload_bytes ++ u32le (crc32 f.payload_bytes)))
  change read_u16 (bytesOf f) 6 = _ at hlen
  change read_u32 (bytesOf f) 8 = _ at plen
  have spans : frame_spans_v1 (bytesOf f) = .ok ((12, 12 + f.header_bytes.length),
      (12 + f.header_bytes.length, 12 + f.header_bytes.length + f.payload_bytes.length)) := by
    unfold frame_spans_v1
    simp [hlen, plen, toNat_u16_of_le fits.header, toNat_u32_of_le fits.payload]
    rfl
  have long : (bytesOf f).length = 16 + f.header_bytes.length + f.payload_bytes.length := length_frameBytes _ _
  have header := slice_frame_header f.header_bytes f.payload_bytes []
  have payload := slice_frame_payload f.header_bytes f.payload_bytes []
  rw [append_nil] at header payload
  change slice (bytesOf f) _ _ = _ at header
  change slice (bytesOf f) _ _ = _ at payload
  unfold decodeFrameAt
  simp only [found, spans, ok_bind]
  rw [getSlice_ok (by omega) (by omega), header, ok_bind, getSlice_ok (by omega) (by omega), payload, ok_bind]
  rfl

/-- The frame read at an entry, or an empty one. -/
def readFrame (stream : Bytes) (entry : TocEntryV1) : SegmentFrameV1 :=
  match decodeFrameAt stream entry with
  | .ok frame => frame
  | .error _ => { stream_hash := 0, seq := 0, record_off := 0, header_bytes := [], payload_bytes := [] }

theorem decodeFramesAt_readFrame (good : ∀ e ∈ entries, ∃ frame, decodeFrameAt stream e = .ok frame) :
    decodeFramesAt stream entries = .ok (entries.map (readFrame stream)) := by
  induction entries with
  | nil => rfl
  | cons e rest ih =>
    obtain ⟨frame, here⟩ := good e (mem_cons_self ..)
    have later := ih (fun e member => good e (mem_cons_of_mem _ member))
    have read : readFrame stream e = frame := by simp [readFrame, here]
    rw [decodeFramesAt, here, ok_bind, later, ok_bind, map_cons, read]
    rfl

/-- Every entry of the builder reads its frame back. -/
theorem decode_laid (front : Bytes) (fits : AllPlaceable front.length frames) : ∀ e ∈ layFrom (entryAt P) front.length frames,
      ∃ frame, decodeFrameAt (front ++ frames.flatMap bytesOf) e = .ok frame := by
  induction frames generalizing front with
  | nil => intro e member; cases member
  | cons f rest ih =>
    obtain ⟨here, later⟩ := fits
    have step := ih (front ++ bytesOf f) (by rwa [length_append])
    rw [length_append, append_assoc] at step
    intro e member
    rcases mem_cons.mp member with rfl | member
    · exact ⟨_, decodeFrameAt_entry front _ here⟩
    · exact step e member

theorem map_readFrame_laid (front : Bytes) (fits : AllPlaceable front.length frames) :
    (layFrom (entryAt P) front.length frames).map (readFrame (front ++ frames.flatMap bytesOf)) =
      layFrom frameAt front.length frames := by
  induction frames generalizing front with
  | nil => rfl
  | cons f rest ih =>
    obtain ⟨here, later⟩ := fits
    have step := ih (front ++ bytesOf f) (by rwa [length_append])
    rw [length_append, append_assoc] at step
    have first : readFrame (front ++ (bytesOf f ++ rest.flatMap bytesOf)) (entryAt P front.length f) =
        frameAt front.length f := by
      simp only [readFrame, decodeFrameAt_entry front _ here]
    rw [layFrom, layFrom, map_cons, flatMap_cons, first, step]

theorem framesFrom_increasing (fits : AllPlaceable off frames) :
    (layFrom frameAt off frames).Pairwise (fun a b => a.record_off < b.record_off) ∧
      ∀ frame ∈ layFrom frameAt off frames, off ≤ frame.record_off.toNat := by
  induction frames generalizing off with
  | nil => exact ⟨.nil, by intro f member; cases member⟩
  | cons f rest ih =>
    obtain ⟨here, later⟩ := fits
    obtain ⟨sorted, above⟩ := ih later
    have place : (frameAt off f).record_off.toNat = off :=
      toNat_u32_of_le (le_trans (Nat.le_add_left off SEGMENT_HEADER_LEN) here.offset)
    have long : (bytesOf f).length = 16 + f.header_bytes.length + f.payload_bytes.length := length_frameBytes _ _
    refine ⟨pairwise_cons.mpr ⟨?_, sorted⟩, ?_⟩
    · intro g member
      have := above g member
      rw [UInt32.lt_iff_toNat_lt, place]
      omega
    · intro g member
      rcases mem_cons.mp member with rfl | member
      · rw [place]
      · have := above g member
        omega

theorem sort_frames {frames sorted : List SegmentFrameV1} (perm : sorted.Perm frames)
    (growing : frames.Pairwise (fun a b => a.record_off < b.record_off)) : sorted.insertionSort recordOffLe = frames := by
  have distinct : (frames.map SegmentFrameV1.record_off).Nodup := by
    rw [List.Nodup, pairwise_map]
    exact growing.imp (fun lt same => absurd lt (by rw [same]; exact UInt32.lt_irrefl _))
  have inject : ∀ a ∈ frames, ∀ b ∈ frames, a.record_off = b.record_off → a = b :=
    fun a ha b hb same => inj_on_of_nodup_map distinct ha hb same
  have total : Std.Total recordOffLe := ⟨fun a b => UInt32.le_total _ _⟩
  have trans : IsTrans SegmentFrameV1 recordOffLe := ⟨fun a b c ab bc => UInt32.le_trans ab bc⟩
  have whole : (sorted.insertionSort recordOffLe).Perm frames := (perm_insertionSort _ _).trans perm
  refine List.Perm.eq_of_pairwise ?_ (pairwise_insertionSort _ _) (growing.imp fun lt => UInt32.le_of_lt lt) whole
  intro a b ha hb ab ba
  exact inject a (whole.subset ha) b hb (UInt32.le_antisymm ab ba)

/-- What a reader of a built segment gets for a frame. -/
def visible (f : SegmentFrameV1) : UInt64 × UInt64 × Bytes × Bytes :=
  (f.stream_hash, f.seq, f.header_bytes, f.payload_bytes)

/-- What the builder was given for a frame. -/
def given (f : FrameInput) : UInt64 × UInt64 × Bytes × Bytes :=
  (f.stream_hash, f.seq, f.header_bytes, f.payload_bytes)

theorem map_visible_layFrom (frames : List FrameInput) (off : Nat) :
    (layFrom frameAt off frames).map visible = frames.map given := by
  induction frames generalizing off with
  | nil => rfl
  | cons f rest ih => rw [layFrom, map_cons, map_cons, ih]; rfl

/-- A built segment gives back its frames, whole and in the order they were given. -/
theorem build_decode_frames (P : Primitives) (a : SegmentArgs) (record_block_codec : UInt32) (frames : List FrameInput)
    (out : SegmentBuildOutput) (built : build_segment_v1_with_block_codec P a record_block_codec frames = .ok out) :
    ∃ decoded, decode_segment_frames_v1 P out.bytes = .ok decoded ∧ decoded.map visible = frames.map given := by
  unfold build_segment_v1_with_block_codec at built
  rw [bind_ok_iff] at built
  obtain ⟨st, pushed, finished⟩ := built
  obtain ⟨fits, rfl⟩ := pushFrames_ok pushed
  simp at fits finished
  obtain ⟨follow, fill⟩ := metas_laid (P := P) fits
  obtain ⟨verified, stream⟩ := finishSegment_ok ⟨follow, fill⟩ finished
  have perm : ((layFrom (entryAt P) 0 frames).insertionSort tocLe).Perm (layFrom (entryAt P) 0 frames) :=
    perm_insertionSort _ _
  have good : ∀ e ∈ (layFrom (entryAt P) 0 frames).insertionSort tocLe,
      ∃ frame, decodeFrameAt (frames.flatMap bytesOf) e = .ok frame := by
    intro e member
    exact decode_laid [] fits e (perm.subset member)
  have read : ((layFrom (entryAt P) 0 frames).insertionSort tocLe).map (readFrame (frames.flatMap bytesOf)) |>.Perm
      (layFrom frameAt 0 frames) := by
    have := map_readFrame_laid (P := P) [] fits
    rw [length_nil, nil_append] at this
    rw [← this]
    exact perm.map _
  refine ⟨layFrom frameAt 0 frames, ?_, map_visible_layFrom frames 0⟩
  unfold decode_segment_frames_v1
  rw [verified, ok_bind, stream, ok_bind, decodeFramesAt_readFrame good, ok_bind,
    sort_frames read (framesFrom_increasing fits).1]
  rfl

def sampleArgs : SegmentArgs :=
  { shard_id := 0, epoch := 1, segment_seq := 1, segment_id := fixed 16 [1], created_at_unix_ns := 1,
    sealed_at_unix_ns := 2 }

/-- A frame of stream 7 with a one-byte payload. -/
def sampleFrame (seq : UInt64) (payload : UInt8) : FrameInput :=
  { stream_hash := 7, seq, event_id := [payload], header_hash := fixed 32 [], payload_hash := fixed 32 [],
    header_bytes := [104], payload_bytes := [payload] }

def sampleFrames : List FrameInput := [sampleFrame 1 112, sampleFrame 2 113]

theorem sample_built : ∃ out, build_segment_v1_with_block_codec Reference.primitives sampleArgs RECORD_BLOCK_CODEC_NONE_V1
    sampleFrames = .ok out :=
  ok_of_isOk (by decide +kernel)

theorem sample_build_decode_frames : ∃ out decoded,
    build_segment_v1_with_block_codec Reference.primitives sampleArgs RECORD_BLOCK_CODEC_NONE_V1 sampleFrames = .ok out ∧
      decode_segment_frames_v1 Reference.primitives out.bytes = .ok decoded ∧
      decoded.map visible = sampleFrames.map given := by
  obtain ⟨out, built⟩ := sample_built
  obtain ⟨decoded, read, same⟩ := build_decode_frames Reference.primitives sampleArgs RECORD_BLOCK_CODEC_NONE_V1
    sampleFrames out built
  exact ⟨out, decoded, built, read, same⟩

end Crux.Segment
