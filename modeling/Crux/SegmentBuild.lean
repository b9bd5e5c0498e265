import Crux.SegmentBlocks

/-!
# Building and sealing segments

The builder of `builder.rs` lays frames out itself; the sealer of `sealer.rs`
is handed a record area and the frames in it. Both end in the same assembly of
header, record area, contents area and footer.
-/

namespace Crux.Segment
open Crux.Bytes

/-- The record area, contents entries and frame records gathered so far. -/
structure FrameLoop where
  record_area : Bytes := []
  toc_entries : List TocEntryV1 := []
  frames_by_offset : List FrameMetaTmp := []
deriving DecidableEq

def pushFrame (P : Primitives) (st : FrameLoop) (f : FrameInput) : Result FrameLoop := do
  let record_off := st.record_area.length
  ensure (record_off ≤ U32_MAX) (.LengthOutOfRange "record offset exceeds u32")
  let file_offset := SEGMENT_HEADER_LEN + st.record_area.length
  ensure (file_offset ≤ U32_MAX) (.LengthOutOfRange "file offset exceeds u32")
  let frame_bytes ← encode_frame_v1 f.header_bytes f.payload_bytes
  ensure (frame_bytes.length ≤ U32_MAX) (.LengthOutOfRange "frame too large")
  let frame_len := UInt32.ofNat frame_bytes.length
  let payload_len := UInt32.ofNat f.payload_bytes.length
  let event_id_hash16 := fixed 16 ((P.blake3 f.event_id).val.take 16)
  let header_digest8 := fixed 8 (f.header_hash.val.take 8)
  let payload_digest8 := fixed 8 (f.payload_hash.val.take 8)
  return { record_area := st.record_area ++ frame_bytes
           toc_entries := st.toc_entries ++
             [{ stream_hash := f.stream_hash, seq := f.seq, file_offset := UInt32.ofNat file_offset, frame_len,
                payload_len, flags := 0, event_id_hash16, header_digest8, payload_digest8 }]
           frames_by_offset := st.frames_by_offset ++
             [{ stream_hash := f.stream_hash, seq := f.seq, event_id_hash16, header_digest8, payload_digest8,
                record_off := UInt32.ofNat record_off, frame_len }] }

def pushFrames (P : Primitives) : FrameLoop → List FrameInput → Result FrameLoop
  | st, [] => .ok st
  | st, f :: rest => do
    let st ← pushFrame P st f
    pushFrames P st rest

def saturating_add32 (a b : UInt32) : UInt32 := UInt32.ofNat (min (a.toNat + b.toNat) U32_MAX)

/-- The contents entries, frame records and the offset the next frame must have. -/
structure SealLoop where
  toc_entries : List TocEntryV1 := []
  tmp : List FrameMetaTmp := []
  expected_off : UInt32 := 0
deriving DecidableEq

def sealFrame (record_area : Bytes) (st : SealLoop) (f : FrameMetaV1) : Result SealLoop := do
  ensure (f.record_off = st.expected_off) (.LengthOutOfRange "frames_by_offset record_off is not contiguous")
  let stop := f.record_off.toNat + f.frame_len.toNat
  ensure (stop ≤ U32_MAX) .BufferTooSmall
  ensure (stop ≤ record_area.length) (.LengthOutOfRange "frames_by_offset points outside record area")
  let file_offset := SEGMENT_HEADER_LEN + f.record_off.toNat
  ensure (file_offset ≤ U32_MAX) (.LengthOutOfRange "file offset exceeds u32")
  return { toc_entries := st.toc_entries ++
             [{ stream_hash := f.stream_hash, seq := f.seq, file_offset := UInt32.ofNat file_offset,
                frame_len := f.frame_len, payload_len := f.payload_len, flags := 0,
                event_id_hash16 := f.event_id_hash16, header_digest8 := f.header_digest8,
                payload_digest8 := f.payload_digest8 }]
           tmp := st.tmp ++
             [{ stream_hash := f.stream_hash, seq := f.seq, event_id_hash16 := f.event_id_hash16,
                header_digest8 := f.header_digest8, payload_digest8 := f.payload_digest8,
                record_off := f.record_off, frame_len := f.frame_len }]
           expected_off := saturating_add32 st.expected_off f.frame_len }

def sealFrames (record_area : Bytes) : SealLoop → List FrameMetaV1 → Result SealLoop
  | st, [] => .ok st
  | st, f :: rest => do
    let st ← sealFrame record_area st f
    sealFrames record_area st rest

/-! ## Assembly -/

/-- The smallest and largest key of sorted entries. -/
def tocBounds (toc_entries : List TocEntryV1) : UInt64 × UInt64 × UInt64 × UInt64 :=
  match toc_entries.head?, toc_entries.getLast? with
  | some first, some last => (first.stream_hash, first.seq, last.stream_hash, last.seq)
  | _, _ => (0, 0, 0, 0)

/-- The contents area: payload, the two checksum tables and the trailer sections, padded with a codec. -/
def tocArea (toc_payload : Bytes) (record_crc32c_table toc_crc32c_table : List UInt32) (trailer_ext : Bytes)
    (padded : Bool) : Bytes :=
  let toc_area := toc_payload ++ record_crc32c_table.flatMap u32le ++ toc_crc32c_table.flatMap u32le ++ trailer_ext
  if padded then
    let want := toc_area.length + SEGMENT_FOOTER_LEN
    toc_area ++ zeros (align_up want 4096 - want)
  else toc_area

/-- An encoded contents payload with its header and the checksum tables that follow it. -/
structure TocBuild where
  toc_payload : Bytes
  toc_header : TocHeaderV1
  record_crc32c_table : List UInt32
  toc_crc32c_table : List UInt32

/-- The contents payload is encoded three times: for the checksum tables, for its hash and with its hash. -/
def encodeToc (P : Primitives) (record_area : Bytes) (toc_entries : List TocEntryV1) : Result TocBuild := do
  let record_area_offset := UInt64.ofNat SEGMENT_HEADER_LEN
  let record_area_len := UInt64.ofNat record_area.length
  let entry_count := UInt64.ofNat toc_entries.length
  let toc_payload_len := UInt64.ofNat (TOC_HEADER_LEN + toc_entries.length * TOC_ENTRY_LEN)
  let record_crc32c_table := block_crc32c record_area DEFAULT_RECORD_BLOCK_SIZE.toNat
  let toc_payload := encode_toc_payload_v1 entry_count record_area_offset record_area_len toc_payload_len
    (UInt64.ofNat (record_crc32c_table.length * 4)) toc_entries
  let toc_crc32c_table := block_crc32c toc_payload DEFAULT_TOC_BLOCK_SIZE.toNat
  let crc_tables_len := UInt64.ofNat (record_crc32c_table.length * 4 + toc_crc32c_table.length * 4)
  let toc_payload := encode_toc_payload_v1 entry_count record_area_offset record_area_len toc_payload_len crc_tables_len
    toc_entries
  let toc_payload_hash ← compute_toc_payload_hash P toc_payload
  let toc_payload := encode_toc_payload_v1_with_hash entry_count record_area_offset record_area_len toc_payload_len
    crc_tables_len toc_payload_hash toc_entries
  let toc_crc32c_table := block_crc32c toc_payload DEFAULT_TOC_BLOCK_SIZE.toNat
  let crc_tables_len := UInt64.ofNat (record_crc32c_table.length * 4 + toc_crc32c_table.length * 4)
  return { toc_payload, record_crc32c_table, toc_crc32c_table
           toc_header := { entry_count, record_block_size := DEFAULT_RECORD_BLOCK_SIZE,
                           toc_block_size := DEFAULT_TOC_BLOCK_SIZE, record_area_offset, record_area_len,
                           toc_payload_len, crc_tables_len, sort_order := 1, toc_payload_hash } }

section
variable (P : Primitives) (header : SegmentHeaderV1) (sealed_at_unix_ns : UInt64) (toc_entries : List TocEntryV1)

/-- The footer over the parts of a segment. -/
def footerOf (record_area toc_area : Bytes) (toc_payload_hash : Digest) : SegmentFooterV1 :=
  let (min_stream_hash, min_seq, max_stream_hash, max_seq) := tocBounds toc_entries
  let header_hash := P.blake3 (encode_segment_header_v1 header)
  let record_hash := P.blake3 record_area
  { flags := 3, shard_id := header.shard_id, epoch := header.epoch, segment_seq := header.segment_seq,
    segment_id := header.segment_id, created_at_unix_ns := header.created_at_unix_ns, sealed_at_unix_ns,
    file_len := UInt64.ofNat (SEGMENT_HEADER_LEN + record_area.length + toc_area.length + SEGMENT_FOOTER_LEN),
    record_area_offset := UInt64.ofNat SEGMENT_HEADER_LEN, record_area_len := UInt64.ofNat record_area.length,
    toc_offset := UInt64.ofNat (SEGMENT_HEADER_LEN + record_area.length), toc_len := UInt64.ofNat toc_area.length,
    toc_entry_count := UInt64.ofNat toc_entries.length,
    min_stream_hash, min_seq, max_stream_hash, max_seq, header_hash, record_hash, toc_payload_hash,
    segment_hash := P.blake3 (header_hash.val ++ record_hash.val ++ toc_payload_hash.val) }

/-- The end shared by the builder and the sealer of either codec. -/
def assembleSegment (record_area : Bytes) (trailer_ext : Result Bytes) (padded : Bool) : Result SegmentBuildOutput := do
  ensure (record_area.length ≤ U32_MAX)
    (.LengthOutOfRange "record area exceeds 4GiB; not supported in v1 footer encoding")
  let toc ← encodeToc P record_area toc_entries
  let trailer_ext ← trailer_ext
  let toc_area := tocArea toc.toc_payload toc.record_crc32c_table toc.toc_crc32c_table trailer_ext padded
  ensure (SEGMENT_HEADER_LEN + record_area.length ≤ U32_MAX ∧ toc_area.length ≤ U32_MAX)
    (.LengthOutOfRange "toc offsets exceed u32")
  ensure (SEGMENT_HEADER_LEN + record_area.length + toc_area.length + SEGMENT_FOOTER_LEN ≤ U32_MAX)
    (.LengthOutOfRange "segment file exceeds 4GiB; not supported in v1 footer encoding")
  let footer := footerOf P header sealed_at_unix_ns toc_entries record_area toc_area toc.toc_header.toc_payload_hash
  let footer_bytes ← encode_segment_footer_v1 footer
  return { bytes := encode_segment_header_v1 header ++ record_area ++ toc_area ++ footer_bytes, header,
           toc_header := toc.toc_header, toc_entries, footer, record_crc32c_table := toc.record_crc32c_table,
           toc_crc32c_table := toc.toc_crc32c_table }

end

/-- The contents payload a contents header stands at the head of. -/
def payloadOf (t : TocHeaderV1) (entries : List TocEntryV1) : Bytes :=
  encode_toc_payload_v1_with_hash t.entry_count t.record_area_offset t.record_area_len t.toc_payload_len t.crc_tables_len
    t.toc_payload_hash entries

/-- The parts of an assembled segment and how they stand in its bytes. -/
structure Assembled (P : Primitives) (header : SegmentHeaderV1) (entries : List TocEntryV1)
    (record_area ext tables footer_bytes : Bytes) (pad : Nat) (out : SegmentBuildOutput) : Prop where
  bytes : out.bytes = encode_segment_header_v1 header ++ (record_area ++
    ((payloadOf out.toc_header entries ++ (tables ++ (ext ++ zeros pad))) ++ footer_bytes))
  footer_bytes : encode_segment_footer_v1 out.footer = .ok footer_bytes
  entry_count : out.toc_header.entry_count.toNat = entries.length
  payload_len : out.toc_header.toc_payload_len.toNat = (payloadOf out.toc_header entries).length
  tables_len : out.toc_header.crc_tables_len.toNat = tables.length
  payload_hash : compute_toc_payload_hash P (payloadOf out.toc_header entries) = .ok out.toc_header.toc_payload_hash
  block_sizes : out.toc_header.record_block_size = DEFAULT_RECORD_BLOCK_SIZE ∧
    out.toc_header.toc_block_size = DEFAULT_TOC_BLOCK_SIZE ∧ out.toc_header.sort_order = 1
  flags : out.footer.flags = 3
  identity : out.footer.segment_id = header.segment_id ∧ out.footer.segment_seq = header.segment_seq ∧
    out.footer.epoch = header.epoch ∧ out.footer.shard_id = header.shard_id
  header_hash : out.footer.header_hash = P.blake3 (encode_segment_header_v1 header)
  record_hash : out.footer.record_hash = P.blake3 record_area
  toc_hash : out.footer.toc_payload_hash = out.toc_header.toc_payload_hash
  segment_hash : out.footer.segment_hash =
    P.blake3 (out.footer.header_hash.val ++ out.footer.record_hash.val ++ out.footer.toc_payload_hash.val)
  record_offset : out.footer.record_area_offset.toNat = SEGMENT_HEADER_LEN
  record_len : out.footer.record_area_len.toNat = record_area.length
  toc_offset : out.footer.toc_offset.toNat = SEGMENT_HEADER_LEN + record_area.length
  toc_len : out.footer.toc_len.toNat = (payloadOf out.toc_header entries).length + tables.length + ext.length + pad
  file_len : out.footer.file_len.toNat = out.bytes.length
  ext_small : ext.length ≤ U32_MAX

theorem length_block_crc32c_loop (same : a.length = b.length) :
    (block_crc32c_loop block_size fuel a).length = (block_crc32c_loop block_size fuel b).length := by
  induction fuel generalizing a b with
  | zero => rfl
  | succ fuel ih =>
    unfold block_crc32c_loop
    by_cases none : a = []
    · have : b = [] := List.eq_nil_of_length_eq_zero (by simp [← same, none])
      simp [none, this]
    · have : b ≠ [] := by
        intro empty
        rw [empty, List.length_nil] at same
        exact none (List.eq_nil_of_length_eq_zero same)
      have later : (a.drop block_size).length = (b.drop block_size).length := by simp [same]
      simp [none, this, ih later]

theorem length_block_crc32c (same : a.length = b.length) :
    (block_crc32c a block_size).length = (block_crc32c b block_size).length := by
  unfold block_crc32c
  split_ifs
  · rfl
  · rw [same]
    exact length_block_crc32c_loop same

/-- The size of the contents checksum table is settled before the header that states it is written. -/
theorem length_toc_table (n off len plen clen : UInt64) (hash : Digest) (entries : List TocEntryV1) (block_size : Nat) :
    (block_crc32c (encode_toc_payload_v1_with_hash n off len plen clen hash entries) block_size).length =
      (block_crc32c (zeros (TOC_HEADER_LEN + entries.length * TOC_ENTRY_LEN)) block_size).length :=
  length_block_crc32c (by simp)

theorem tocArea_eq (payload : Bytes) (rt tt : List UInt32) (ext : Bytes) (padded : Bool) :
    ∃ pad, tocArea payload rt tt ext padded = payload ++ ((rt.flatMap u32le ++ tt.flatMap u32le) ++ (ext ++ zeros pad)) := by
  cases padded with
  | false => exact ⟨0, by simp [tocArea, zeros]⟩
  | true => exact ⟨_, by simp [tocArea]; rfl⟩

/-- The three passes agree: what is hashed, what is written and what the header says fit together. -/
theorem encodeToc_ok (h : encodeToc P record_area entries = .ok toc) : toc.toc_payload = payloadOf toc.toc_header entries ∧
      toc.toc_header.entry_count = UInt64.ofNat entries.length ∧
      toc.toc_header.toc_payload_len = UInt64.ofNat (TOC_HEADER_LEN + entries.length * TOC_ENTRY_LEN) ∧
      toc.toc_header.crc_tables_len = UInt64.ofNat (toc.record_crc32c_table.length * 4 + toc.toc_crc32c_table.length * 4) ∧
      compute_toc_payload_hash P toc.toc_payload = .ok toc.toc_header.toc_payload_hash ∧
      toc.toc_header.record_block_size = DEFAULT_RECORD_BLOCK_SIZE ∧
      toc.toc_header.toc_block_size = DEFAULT_TOC_BLOCK_SIZE ∧ toc.toc_header.sort_order = 1 := by
  unfold encodeToc at h
  rw [bind_ok_iff] at h
  obtain ⟨hash, hhash, h⟩ := h
  cases h
  refine ⟨?_, rfl, rfl, rfl, ?_, rfl, rfl, rfl⟩
  · simp only [payloadOf, encode_toc_payload_v1, length_toc_table]
  · rw [compute_toc_payload_hash_encode]
    exact hhash

theorem assembleSegment_ok (h : assembleSegment P header sealed_at entries record_area trailer padded = .ok out) :
    ∃ ext tables footer_bytes pad, trailer = .ok ext ∧
      Assembled P header entries record_area ext tables footer_bytes pad out ∧ out.toc_entries = entries ∧
      record_area.length ≤ U32_MAX := by
  unfold assembleSegment at h
  rw [ensure_bind_ok] at h
  obtain ⟨record_small, h⟩ := h
  rw [bind_ok_iff] at h
  obtain ⟨toc, htoc, h⟩ := h
  rw [bind_ok_iff] at h
  obtain ⟨ext, hext, h⟩ := h
  rw [ensure_bind_ok, ensure_bind_ok, bind_ok_iff] at h
  obtain ⟨⟨toc_offset_small, toc_len_small⟩, file_small, footer_bytes, hfooter, h⟩ := h
  cases h
  obtain ⟨hpayload, hcount, hplen, hclen, hhash, sizes⟩ := encodeToc_ok htoc
  obtain ⟨pad, harea⟩ := tocArea_eq toc.toc_payload toc.record_crc32c_table toc.toc_crc32c_table ext padded
  have footer_len := (decode_segment_footer_v1_encode hfooter).1
  rw [harea] at toc_len_small file_small hfooter ⊢
  rw [hpayload] at toc_len_small file_small hfooter hhash ⊢
  have tables_len : (toc.record_crc32c_table.flatMap u32le ++ toc.toc_crc32c_table.flatMap u32le).length =
      toc.record_crc32c_table.length * 4 + toc.toc_crc32c_table.length * 4 := by
    rw [List.length_append, length_flatMap_const length_u32le, length_flatMap_const length_u32le]
  have payload_len : (payloadOf toc.toc_header entries).length = TOC_HEADER_LEN + entries.length * TOC_ENTRY_LEN := by
    simp [payloadOf]
  generalize toc.record_crc32c_table.flatMap u32le ++ toc.toc_crc32c_table.flatMap u32le = tables at *
  generalize harea' : payloadOf toc.toc_header entries ++ (tables ++ (ext ++ zeros pad)) = area at *
  have area_len : area.length = (payloadOf toc.toc_header entries).length + tables.length + ext.length + pad := by
    rw [← harea']
    simp
    omega
  have bound : SEGMENT_HEADER_LEN + record_area.length + area.length + SEGMENT_FOOTER_LEN < 2 ^ 64 :=
    lt_of_le_of_lt file_small (by decide)
  have entries_len : entries.length ≤ area.length := by
    rw [area_len, payload_len]
    unfold TOC_ENTRY_LEN
    omega
  refine ⟨ext, tables, footer_bytes, pad, hext, ?_, rfl, record_small⟩
  exact {
    bytes := by simp only [← harea', List.append_assoc]
    footer_bytes := hfooter
    entry_count := by rw [hcount, toNat_u64_of_le (by omega)]
    payload_len := by rw [hplen, payload_len, toNat_u64_of_le (by omega)]
    tables_len := by rw [hclen, tables_len, toNat_u64_of_le (by omega)]
    payload_hash := hhash
    block_sizes := sizes
    flags := rfl
    identity := ⟨rfl, rfl, rfl, rfl⟩
    header_hash := rfl
    record_hash := rfl
    toc_hash := rfl
    segment_hash := rfl
    record_offset := toNat_u64_of_le (by decide)
    record_len := toNat_u64_of_le (by omega)
    toc_offset := toNat_u64_of_le (by omega)
    toc_len := by rw [← area_len]; exact toNat_u64_of_le (by omega)
    file_len := by
      have total : (encode_segment_header_v1 header ++ record_area ++ area ++ footer_bytes).length =
          SEGMENT_HEADER_LEN + record_area.length + area.length + SEGMENT_FOOTER_LEN := by simp; omega
      rw [total]
      exact toNat_u64_of_le bound
    ext_small := by omega }

/-- What names a segment: where it belongs and when it was made. -/
structure SegmentArgs where
  shard_id : UInt32
  epoch : UInt64
  segment_seq : UInt64
  segment_id : SegmentId
  created_at_unix_ns : UInt64
  sealed_at_unix_ns : UInt64
deriving DecidableEq

def headerOf (a : SegmentArgs) : SegmentHeaderV1 :=
  { flags := 1, shard_id := a.shard_id, epoch := a.epoch, segment_seq := a.segment_seq, segment_id := a.segment_id,
    created_at_unix_ns := a.created_at_unix_ns }

section
variable (P : Primitives) (a : SegmentArgs)

/-- The trailer for record blocks stored as they are, and for record blocks stored through a codec. -/
def finishSegment (record_block_codec : UInt32) (record_area : Bytes)
    (toc_entries : List TocEntryV1) (frames : List FrameMetaTmp) : Result SegmentBuildOutput := do
  let toc_entries := toc_entries.insertionSort tocLe
  ensure (is_sorted_toc toc_entries = true) .TocNotSorted
  if record_block_codec = RECORD_BLOCK_CODEC_NONE_V1 then
    assembleSegment P (headerOf a) a.sealed_at_unix_ns toc_entries record_area
      (encode_trailer_index_v1 P record_area frames) false
  else do
    let parts ← build_record_blocks_and_trailer_index_parts_v1 P record_area frames record_block_codec
    assembleSegment P (headerOf a) a.sealed_at_unix_ns toc_entries parts.record_area
      (.ok (encode_trailer_index_v1_from_parts parts.blocks parts.toc_by_offset parts.toc_sorted_idx)) true

def build_segment_v1_with_block_codec (record_block_codec : UInt32) (frames : List FrameInput) : Result SegmentBuildOutput := do
  let st ← pushFrames P {} frames
  finishSegment P a record_block_codec st.record_area st.toc_entries st.frames_by_offset

def build_segment_v1 (frames : List FrameInput) : Result SegmentBuildOutput :=
  build_segment_v1_with_block_codec P a RECORD_BLOCK_CODEC_NONE_V1 frames

def seal_segment_v1_from_record_area_with_block_codec (record_block_codec : UInt32)
    (record_area : Bytes) (frames_by_offset : List FrameMetaV1) : Result SegmentBuildOutput := do
  let st ← sealFrames record_area {} frames_by_offset
  ensure (st.expected_off.toNat = record_area.length)
    (.LengthOutOfRange "frames_by_offset does not cover record area")
  finishSegment P a record_block_codec record_area st.toc_entries st.tmp

def seal_segment_v1_from_record_area (record_area : Bytes) (frames_by_offset : List FrameMetaV1) : Result SegmentBuildOutput :=
  seal_segment_v1_from_record_area_with_block_codec P a RECORD_BLOCK_CODEC_NONE_V1 record_area frames_by_offset

end

end Crux.Segment
