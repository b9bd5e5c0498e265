import Crux.SegmentBuild

/-!
# Reading a sealed segment

`decode_segment_v1` verifies a file and returns its parts;
`decode_segment_frames_v1` also reassembles the record stream through the block
index and returns the frames in append order.
-/

namespace Crux.Segment
open Crux.Bytes List

/-- The parts of a verified segment. -/
structure SegmentParts where
  header : SegmentHeaderV1
  toc_header : TocHeaderV1
  entries : List TocEntryV1
  footer : SegmentFooterV1
deriving DecidableEq

/-- The contents area a footer points at. -/
def tocAreaOf (bytes : Bytes) (footer : SegmentFooterV1) : Bytes :=
  slice bytes footer.toc_offset.toNat (footer.toc_offset.toNat + footer.toc_len.toNat)

/-- The record area a footer points at. -/
def recordAreaOf (bytes : Bytes) (footer : SegmentFooterV1) : Bytes :=
  slice bytes footer.record_area_offset.toNat (footer.record_area_offset.toNat + footer.record_area_len.toNat)

/-- The checks on the contents area once header, footer and record area stand. -/
def decodeToc (P : Primitives) (toc_area : Bytes) (footer : SegmentFooterV1) : Result (TocHeaderV1 × List TocEntryV1) := do
  ensure (TOC_HEADER_LEN ≤ toc_area.length) .BufferTooSmall
  let toc_payload_len ← read_u64 toc_area 40
  ensure (toc_payload_len.toNat ≤ toc_area.length ∧ TOC_HEADER_LEN ≤ toc_payload_len.toNat) .BufferTooSmall
  let toc_payload := toc_area.take toc_payload_len.toNat
  let toc_header ← decode_toc_header_v1 (toc_payload.take TOC_HEADER_LEN)
  ensure (toc_header.toc_payload_hash = footer.toc_payload_hash)
    (.HashMismatch "toc_payload_hash mismatch between toc header and footer")
  let computed_toc_payload_hash ← compute_toc_payload_hash P toc_payload
  ensure (computed_toc_payload_hash = toc_header.toc_payload_hash) (.HashMismatch "toc_payload_hash mismatch")
  let seg_hash := P.blake3 (footer.header_hash.val ++ footer.record_hash.val ++ footer.toc_payload_hash.val)
  ensure (seg_hash = footer.segment_hash) (.HashMismatch "segment_hash mismatch")
  let entry_count := toc_header.entry_count.toNat
  ensure (TOC_HEADER_LEN + entry_count * TOC_ENTRY_LEN ≤ toc_payload.length) .BufferTooSmall
  let entries ← decodeEach decode_toc_entry_v1 TOC_ENTRY_LEN toc_payload entry_count TOC_HEADER_LEN
  ensure (is_sorted_toc entries = true) .TocNotSorted
  return (toc_header, entries)

def decode_segment_v1 (P : Primitives) (bytes : Bytes) : Result SegmentParts := do
  ensure (SEGMENT_HEADER_LEN + SEGMENT_FOOTER_LEN ≤ bytes.length) .BufferTooSmall
  let header_bytes := bytes.take SEGMENT_HEADER_LEN
  let header ← decode_segment_header_v1 header_bytes
  let footer ← decode_segment_footer_v1 (bytes.drop (bytes.length - SEGMENT_FOOTER_LEN))
  ensure (footer.flags &&& 1 ≠ 0) .NotSealed
  ensure (footer.file_len.toNat = bytes.length) (.FileLenMismatch footer.file_len (UInt64.ofNat bytes.length))
  ensure (footer.segment_id = header.segment_id ∧ footer.segment_seq = header.segment_seq ∧
      footer.epoch = header.epoch ∧ footer.shard_id = header.shard_id)
    (.HashMismatch "identity mismatch between header and footer")
  ensure (P.blake3 header_bytes = footer.header_hash) (.HashMismatch "header_hash mismatch")
  ensure (footer.record_area_offset.toNat + footer.record_area_len.toNat ≤ bytes.length) .BufferTooSmall
  ensure (P.blake3 (recordAreaOf bytes footer) = footer.record_hash) (.HashMismatch "record_hash mismatch")
  ensure (footer.toc_offset.toNat + footer.toc_len.toNat + SEGMENT_FOOTER_LEN = bytes.length)
    (.LengthOutOfRange "toc/record/footer lengths do not line up")
  let (toc_header, entries) ← decodeToc P (tocAreaOf bytes footer) footer
  return { header, toc_header, entries, footer }

structure SegmentFrameV1 where
  stream_hash : UInt64
  seq : UInt64
  record_off : UInt32
  header_bytes : Bytes
  payload_bytes : Bytes
deriving DecidableEq

structure SegmentFrameHeaderV1 where
  stream_hash : UInt64
  seq : UInt64
  header_bytes : Bytes
deriving DecidableEq

/-- A slice that must lie inside. -/
def getSlice (bytes : Bytes) (a b : Nat) : Result Bytes :=
  match slice? bytes a b with
  | some s => .ok s
  | none => .error .BufferTooSmall

def frame_slice_v1 (stream : Bytes) (entry : TocEntryV1) : Result (Nat × Bytes) := do
  ensure (SEGMENT_HEADER_LEN ≤ entry.file_offset.toNat)
    (.LengthOutOfRange "toc file_offset precedes the segment header")
  let record_off := entry.file_offset.toNat - SEGMENT_HEADER_LEN
  let frame ← getSlice stream record_off (record_off + entry.frame_len.toNat)
  return (record_off, frame)

def frame_spans_v1 (frame : Bytes) : Result ((Nat × Nat) × (Nat × Nat)) := do
  let magic ← read_u32 frame 0
  ensure (magic = FRAME_MAGIC_CRX1) (.InvalidMagic FRAME_MAGIC_CRX1 magic)
  let header_len ← read_u16 frame 6
  let payload_len ← read_u32 frame 8
  let header_end := 12 + header_len.toNat
  let payload_end := header_end + payload_len.toNat
  return ((12, header_end), (header_end, payload_end))

/-- The stored bytes of a block through its codec. -/
def unstoreBlock (P : Primitives) (block : BlockMetaV1) (stored : Bytes) : Result Bytes :=
  if block.codec = RECORD_BLOCK_CODEC_NONE_V1 then .ok stored
  else if block.codec = RECORD_BLOCK_CODEC_LZ4_V1 then
    match P.lz4_decompress stored block.uncompressed_len.toNat with
    | .ok plain => .ok plain
    | .error e => .error (.TrailerSectionInvalid s!"record block {block.block_id} lz4 decompress failed: {e}")
  else .error (.TrailerSectionInvalid s!"record block {block.block_id} has unsupported codec {block.codec}")

/-- The uncompressed bytes of one block of the index. -/
def decodeRecordBlock (P : Primitives) (bytes : Bytes) (block : BlockMetaV1) : Result Bytes := do
  let start := block.file_offset.toNat
  let stored ← getSlice bytes start (start + block.compressed_len.toNat)
  let plain ← unstoreBlock P block stored
  ensure (plain.length = block.uncompressed_len.toNat)
    (.TrailerSectionInvalid s!"record block {block.block_id} length mismatch after decode")
  ensure (crc32c plain = block.crc32c) (.CrcMismatch block.crc32c (crc32c plain))
  return plain

def concatBlocks (P : Primitives) (bytes : Bytes) : List BlockMetaV1 → Result Bytes
  | [] => .ok []
  | block :: rest => do
    let plain ← decodeRecordBlock P bytes block
    let stream ← concatBlocks P bytes rest
    return plain ++ stream

def blockIdLe (a b : BlockMetaV1) : Prop := a.block_id ≤ b.block_id

instance : DecidableRel blockIdLe := fun a b => by unfold blockIdLe; infer_instance

/-- The record stream a block index places; without blocks the record area is the stream. -/
def streamOf (P : Primitives) (bytes : Bytes) (footer : SegmentFooterV1) (trailer : Option TrailerIndexV1) : Result Bytes :=
  match trailer with
  | some t =>
    if t.blocks = [] then
      getSlice bytes footer.record_area_offset.toNat (footer.record_area_offset.toNat + footer.record_area_len.toNat)
    else concatBlocks P bytes (t.blocks.insertionSort blockIdLe)
  | none =>
    getSlice bytes footer.record_area_offset.toNat (footer.record_area_offset.toNat + footer.record_area_len.toNat)

def reassemble_record_stream_v1 (P : Primitives) (bytes : Bytes) (toc_header : TocHeaderV1) (footer : SegmentFooterV1) :
    Result Bytes := do
  let toc_area ← getSlice bytes footer.toc_offset.toNat (footer.toc_offset.toNat + footer.toc_len.toNat)
  let trailer ← decode_trailer_index_v1 toc_area toc_header
  streamOf P bytes footer trailer

/-- One frame of the stream, whole. -/
def decodeFrameAt (stream : Bytes) (entry : TocEntryV1) : Result SegmentFrameV1 := do
  let (record_off, frame) ← frame_slice_v1 stream entry
  let (header_span, payload_span) ← frame_spans_v1 frame
  let header_bytes ← getSlice frame header_span.1 header_span.2
  let payload_bytes ← getSlice frame payload_span.1 payload_span.2
  return { stream_hash := entry.stream_hash, seq := entry.seq, record_off := UInt32.ofNat record_off, header_bytes,
           payload_bytes }

def decodeFramesAt (stream : Bytes) : List TocEntryV1 → Result (List SegmentFrameV1)
  | [] => .ok []
  | entry :: rest => do
    let frame ← decodeFrameAt stream entry
    let frames ← decodeFramesAt stream rest
    return frame :: frames

def recordOffLe (a b : SegmentFrameV1) : Prop := a.record_off ≤ b.record_off

instance : DecidableRel recordOffLe := fun a b => by unfold recordOffLe; infer_instance

def decode_segment_frames_v1 (P : Primitives) (bytes : Bytes) : Result (List SegmentFrameV1) := do
  let parts ← decode_segment_v1 P bytes
  let stream ← reassemble_record_stream_v1 P bytes parts.toc_header parts.footer
  let out ← decodeFramesAt stream parts.entries
  return out.insertionSort recordOffLe

/-- One frame's header, without its payload. -/
def decodeFrameHeaderAt (stream : Bytes) (entry : TocEntryV1) : Result SegmentFrameHeaderV1 := do
  let (_, frame) ← frame_slice_v1 stream entry
  let (header_span, _) ← frame_spans_v1 frame
  let header_bytes ← getSlice frame header_span.1 header_span.2
  return { stream_hash := entry.stream_hash, seq := entry.seq, header_bytes }

def decodeFrameHeadersAt (stream : Bytes) : List TocEntryV1 → Result (List SegmentFrameHeaderV1)
  | [] => .ok []
  | entry :: rest => do
    let frame ← decodeFrameHeaderAt stream entry
    let frames ← decodeFrameHeadersAt stream rest
    return frame :: frames

def decode_segment_frame_headers_v1 (P : Primitives) (bytes : Bytes) : Result (List SegmentFrameHeaderV1) := do
  let parts ← decode_segment_v1 P bytes
  let stream ← reassemble_record_stream_v1 P bytes parts.toc_header parts.footer
  decodeFrameHeadersAt stream parts.entries

/-- The frame of a decoded segment without its payload. -/
def SegmentFrameV1.header (f : SegmentFrameV1) : SegmentFrameHeaderV1 := ⟨f.stream_hash, f.seq, f.header_bytes⟩

theorem decodeFrameHeadersAt_of_frames {stream : Bytes} {entries : List TocEntryV1} {frames : List SegmentFrameV1}
    (decoded : decodeFramesAt stream entries = .ok frames) :
    decodeFrameHeadersAt stream entries = .ok (frames.map SegmentFrameV1.header) := by
  induction entries generalizing frames with
  | nil => cases decoded; rfl
  | cons entry rest ih =>
    simp only [decodeFramesAt, decodeFrameAt, bind_ok_iff] at decoded
    obtain ⟨frame, ⟨⟨off, bytes⟩, sliced, ⟨header_span, payload_span⟩, spans, header, read, payload, _, same⟩, later, others, all⟩ := decoded
    cases same
    cases all
    simp [decodeFrameHeadersAt, decodeFrameHeaderAt, sliced, spans, read, ih others]
    rfl

theorem getSlice_ok (ab : a ≤ b) (inside : b ≤ bytes.length) : getSlice bytes a b = .ok (slice bytes a b) := by
  unfold getSlice slice?
  rw [if_pos ⟨ab, inside⟩]

theorem getSlice_ok_iff : getSlice bytes a b = .ok s ↔ a ≤ b ∧ b ≤ bytes.length ∧ s = slice bytes a b := by
  unfold getSlice slice?
  by_cases inside : a ≤ b ∧ b ≤ bytes.length
  · simp [inside, eq_comm]
  · rw [if_neg inside]
    constructor
    · intro h
      cases h
    · rintro ⟨ab, le, _⟩
      exact absurd ⟨ab, le⟩ inside

section Assembly
variable {P : Primitives} {header : SegmentHeaderV1} {entries : List TocEntryV1}
  {record_area ext tables footer_bytes : Bytes} {pad : Nat} {out : SegmentBuildOutput}

/-- The contents area of an assembled segment. -/
def areaOf (out : SegmentBuildOutput) (entries : List TocEntryV1) (tables ext : Bytes) (pad : Nat) : Bytes :=
  payloadOf out.toc_header entries ++ (tables ++ (ext ++ zeros pad))

variable (h : Assembled P header entries record_area ext tables footer_bytes pad out)
include h

theorem Assembled.area_length : (areaOf out entries tables ext pad).length = out.footer.toc_len.toNat := by
  rw [h.toc_len, areaOf]
  simp
  omega

theorem Assembled.length :
    out.bytes.length = SEGMENT_HEADER_LEN + record_area.length + out.footer.toc_len.toNat + SEGMENT_FOOTER_LEN := by
  have foot := (decode_segment_footer_v1_encode h.footer_bytes).1
  have area := h.area_length
  unfold areaOf at area
  rw [h.bytes, length_append, length_append, length_append, area, foot,
    length_encode_segment_header_v1]
  omega

theorem Assembled.recordArea : recordAreaOf out.bytes out.footer = record_area := by
  unfold recordAreaOf
  rw [h.bytes, h.record_offset, h.record_len]
  exact slice_mid _ _ _ _ _ (by simp) (by simp)

theorem Assembled.tocArea : tocAreaOf out.bytes out.footer = areaOf out entries tables ext pad := by
  unfold tocAreaOf
  rw [← h.area_length, h.bytes, h.toc_offset, ← append_assoc]
  exact slice_mid _ _ _ _ _ (by simp) (by simp [areaOf])

theorem Assembled.footerBytes : out.bytes.drop (out.bytes.length - SEGMENT_FOOTER_LEN) = footer_bytes := by
  have foot := (decode_segment_footer_v1_encode h.footer_bytes).1
  have len := h.length
  have area := h.area_length
  unfold areaOf at area
  have split : out.bytes = (encode_segment_header_v1 header ++ (record_area ++ areaOf out entries tables ext pad)) ++
      footer_bytes := by
    rw [h.bytes]
    simp [areaOf]
  rw [len, Nat.add_sub_cancel, split]
  exact drop_left' (by simp [areaOf, area]; omega)

theorem Assembled.decodeToc (sorted : is_sorted_toc entries = true) :
    decodeToc P (areaOf out entries tables ext pad) out.footer = .ok (out.toc_header, entries) := by
  obtain ⟨rsize, tsize, order⟩ := h.block_sizes
  have payload_len : (payloadOf out.toc_header entries).length = TOC_HEADER_LEN + entries.length * TOC_ENTRY_LEN := by
    simp [payloadOf]
  have field : read_u64 (areaOf out entries tables ext pad) 40 = .ok out.toc_header.toc_payload_len := by
    simp [areaOf, payloadOf, encode_toc_payload_v1_with_hash, tocHeaderBody, tocHeaderFields, read_u64_skip]
  have front : (areaOf out entries tables ext pad).take (payloadOf out.toc_header entries).length =
      payloadOf out.toc_header entries := by
    exact take_left' rfl
  have head : decode_toc_header_v1 ((payloadOf out.toc_header entries).take TOC_HEADER_LEN) = .ok out.toc_header := by
    unfold payloadOf
    rw [take_encode_toc_payload, decode_toc_header_v1_encode, ← rsize, ← tsize, ← order]
  have table : decodeEach decode_toc_entry_v1 TOC_ENTRY_LEN (payloadOf out.toc_header entries) entries.length
      TOC_HEADER_LEN = .ok entries := by
    have := decode_toc_entries_encode out.toc_header.entry_count out.toc_header.record_area_offset
      out.toc_header.record_area_len out.toc_header.toc_payload_len out.toc_header.crc_tables_len
      out.toc_header.toc_payload_hash entries []
    rw [append_nil] at this
    exact this
  have long : TOC_HEADER_LEN ≤ (areaOf out entries tables ext pad).length := by
    simp [areaOf]
    omega
  have fits : (payloadOf out.toc_header entries).length ≤ (areaOf out entries tables ext pad).length ∧
      TOC_HEADER_LEN ≤ (payloadOf out.toc_header entries).length := by
    simp [areaOf, payload_len]
  have whole : TOC_HEADER_LEN + entries.length * TOC_ENTRY_LEN ≤ (payloadOf out.toc_header entries).length := by
    rw [payload_len]
  have hashed := h.segment_hash.symm
  rw [h.toc_hash] at hashed
  unfold Segment.decodeToc
  simp only [field, h.payload_len, front, head, h.payload_hash, h.toc_hash, h.entry_count, table, sorted,
    ensure_true _ long, ensure_true _ fits, ensure_true _ whole, ensure_true _ hashed, ensure_of_true, ok_bind]
  rfl

theorem Assembled.decode (sorted : is_sorted_toc entries = true) :
    decode_segment_v1 P out.bytes = .ok { header, toc_header := out.toc_header, entries, footer := out.footer } := by
  have foot := (decode_segment_footer_v1_encode h.footer_bytes).2
  have len := h.length
  have front : out.bytes.take SEGMENT_HEADER_LEN = encode_segment_header_v1 header := by
    rw [h.bytes]
    exact take_left' (by simp)
  have sealedFlag : out.footer.flags &&& 1 ≠ 0 := by rw [h.flags]; decide
  have records : out.footer.record_area_offset.toNat + out.footer.record_area_len.toNat ≤ out.bytes.length := by
    rw [h.record_offset, h.record_len, len]
    omega
  have ends : out.footer.toc_offset.toNat + out.footer.toc_len.toNat + SEGMENT_FOOTER_LEN = out.bytes.length := by
    rw [h.toc_offset, len]
  have long : SEGMENT_HEADER_LEN + SEGMENT_FOOTER_LEN ≤ out.bytes.length := by rw [len]; omega
  unfold decode_segment_v1
  simp [front, decode_segment_header_v1_encode, h.footerBytes, foot, h.recordArea, h.tocArea, h.decodeToc sorted,
      ensure_true _ long, ensure_true _ sealedFlag, ensure_true _ h.file_len, ensure_true _ h.identity,
      ensure_true _ h.header_hash.symm, ensure_true _ records, ensure_true _ h.record_hash.symm, ensure_true _ ends]

end Assembly

end Crux.Segment
