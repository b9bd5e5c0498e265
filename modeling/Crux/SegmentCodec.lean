import Crux.SegmentTypes

/-!
# The fixed-size parts of a segment: frames, header, footer, contents and block entries

Each encoder of the source writes its fields at literal offsets of a zeroed
buffer; here it appends them in that order with the zeros between them. Each
decoder reads at the literal offsets, so a round trip is a walk over the fields.
-/

namespace Crux.Segment
open Crux.Bytes List

/-- Reserved bytes. -/
def zeros (n : Nat) : Bytes := List.replicate n 0

@[simp] theorem length_zeros (n : Nat) : (zeros n).length = n := by simp [zeros]

section
variable (f rest : Bytes) (off : Nat) (h : f.length ≤ off)
include h

theorem read_u16_skip : read_u16 (f ++ rest) off = read_u16 rest (off - f.length) := by
  unfold read_u16
  rw [u16At_skip _ _ _ h, length_append]
  exact if_congr (by omega) rfl rfl

theorem read_u32_skip : read_u32 (f ++ rest) off = read_u32 rest (off - f.length) := by
  unfold read_u32
  rw [u32At_skip _ _ _ h, length_append]
  exact if_congr (by omega) rfl rfl

theorem read_u64_skip : read_u64 (f ++ rest) off = read_u64 rest (off - f.length) := by
  unfold read_u64
  rw [u64At_skip _ _ _ h, length_append]
  exact if_congr (by omega) rfl rfl

end

@[simp] theorem read_u16_here (x : UInt16) (rest : Bytes) : read_u16 (u16le x ++ rest) 0 = .ok x := by
  rw [read_u16_ok (by simp), u16At_here]

@[simp] theorem read_u32_here (x : UInt32) (rest : Bytes) : read_u32 (u32le x ++ rest) 0 = .ok x := by
  rw [read_u32_ok (by simp), u32At_here]

@[simp] theorem read_u64_here (x : UInt64) (rest : Bytes) : read_u64 (u64le x ++ rest) 0 = .ok x := by
  rw [read_u64_ok (by simp), u64At_here]

theorem read_u32_end (front : Bytes) (x : UInt32) (off : Nat) (h : front.length = off) :
    read_u32 (front ++ u32le x) off = .ok x := by
  rw [read_u32_ok (by simp; omega), u32At_skip _ _ _ (by omega), h, Nat.sub_self, u32At_last]

def encode_frame_v1 (header_bytes payload_bytes : Bytes) : Result Bytes := do
  ensure (header_bytes.length ≤ 65535) (.LengthOutOfRange s!"header too large: {header_bytes.length} bytes")
  ensure (payload_bytes.length ≤ U32_MAX) (.LengthOutOfRange s!"payload too large: {payload_bytes.length} bytes")
  return u32le FRAME_MAGIC_CRX1 ++ u16le FRAME_VERSION_V1 ++ u16le (UInt16.ofNat header_bytes.length) ++
    u32le (UInt32.ofNat payload_bytes.length) ++ header_bytes ++ payload_bytes ++ u32le (crc32 payload_bytes)

def decode_frame_v1 (frame_bytes : Bytes) : Result FrameV1Decoded := do
  ensure (4 + 2 + 2 + 4 + 4 ≤ frame_bytes.length) .BufferTooSmall
  let magic ← read_u32 frame_bytes 0
  ensure (magic = FRAME_MAGIC_CRX1) (.InvalidMagic FRAME_MAGIC_CRX1 magic)
  let ver ← read_u16 frame_bytes 4
  ensure (ver = FRAME_VERSION_V1) (.LengthOutOfRange s!"unsupported frame version: {ver}")
  let header_len ← read_u16 frame_bytes 6
  let payload_len ← read_u32 frame_bytes 8
  let header_off := 12
  let payload_off := header_off + header_len.toNat
  let crc_off := payload_off + payload_len.toNat
  let stop := crc_off + 4
  ensure (stop ≤ frame_bytes.length) .BufferTooSmall
  let header_bytes := slice frame_bytes header_off payload_off
  let payload_bytes := slice frame_bytes payload_off crc_off
  let crc ← read_u32 frame_bytes crc_off
  let expected := crc32 payload_bytes
  ensure (crc = expected) (.CrcMismatch expected crc)
  return { header_bytes := header_bytes, payload_bytes := payload_bytes }

/-- The twelve bytes before a frame's header. -/
def framePrologue (header_bytes payload_bytes : Bytes) : Bytes :=
  u32le FRAME_MAGIC_CRX1 ++ (u16le FRAME_VERSION_V1 ++ (u16le (UInt16.ofNat header_bytes.length) ++
    u32le (UInt32.ofNat payload_bytes.length)))

/-- The bytes of a frame whose lengths fit their fields. -/
def frameBytes (header_bytes payload_bytes : Bytes) : Bytes :=
  framePrologue header_bytes payload_bytes ++ (header_bytes ++ (payload_bytes ++ u32le (crc32 payload_bytes)))

theorem encode_frame_v1_ok_iff : encode_frame_v1 header_bytes payload_bytes = .ok out ↔
      header_bytes.length ≤ 65535 ∧ payload_bytes.length ≤ U32_MAX ∧ out = frameBytes header_bytes payload_bytes := by
  unfold encode_frame_v1 frameBytes framePrologue
  rw [ensure_bind_ok, ensure_bind_ok]
  simp [pure, Except.pure, eq_comm]

@[simp] theorem length_framePrologue (h p : Bytes) : (framePrologue h p).length = 12 := by
  simp [framePrologue]

@[simp] theorem length_frameBytes (h p : Bytes) : (frameBytes h p).length = 16 + h.length + p.length := by
  simp [frameBytes]
  omega

theorem read_framePrologue (h p rest : Bytes) : read_u32 (framePrologue h p ++ rest) 0 = .ok FRAME_MAGIC_CRX1 ∧
      read_u16 (framePrologue h p ++ rest) 4 = .ok FRAME_VERSION_V1 ∧
      read_u16 (framePrologue h p ++ rest) 6 = .ok (UInt16.ofNat h.length) ∧
      read_u32 (framePrologue h p ++ rest) 8 = .ok (UInt32.ofNat p.length) := by
  simp [framePrologue, read_u32_skip, read_u16_skip]

theorem toNat_u16_of_le (h : n ≤ 65535) : (UInt16.ofNat n).toNat = n := by
  rw [UInt16.toNat_ofNat']
  omega

theorem toNat_u32_of_le (h : n ≤ U32_MAX) : (UInt32.ofNat n).toNat = n := by
  rw [UInt32.toNat_ofNat']
  unfold U32_MAX at h
  omega

theorem toNat_u64_of_le (h : n < 2 ^ 64) : (UInt64.ofNat n).toNat = n := by
  rw [UInt64.toNat_ofNat']
  omega

theorem slice_frame_header (h p rest : Bytes) : slice (frameBytes h p ++ rest) 12 (12 + h.length) = h := by
  unfold frameBytes
  rw [append_assoc, append_assoc]
  exact slice_mid _ _ _ _ _ (by simp) (by simp)

theorem slice_frame_payload (h p rest : Bytes) :
    slice (frameBytes h p ++ rest) (12 + h.length) (12 + h.length + p.length) = p := by
  unfold frameBytes
  rw [append_assoc, append_assoc, append_assoc, ← append_assoc (framePrologue h p)]
  exact slice_mid _ _ _ _ _ (by simp) (by simp)

/-- The header's bytes before its checksum. -/
def headerBody (h : SegmentHeaderV1) : Bytes :=
  u32le SEGMENT_MAGIC_CCS3 ++ u16le SEGMENT_MAJOR ++ u16le SEGMENT_MINOR ++ u32le (UInt32.ofNat SEGMENT_HEADER_LEN) ++
    u32le h.flags ++ u32le h.shard_id ++ u64le h.epoch ++ u64le h.segment_seq ++ h.segment_id.val ++
    u64le h.created_at_unix_ns ++ zeros (SEGMENT_HEADER_LEN - 64)

def encode_segment_header_v1 (h : SegmentHeaderV1) : Bytes := headerBody h ++ u32le (crc32c (headerBody h))

def decode_segment_header_v1 (bytes : Bytes) : Result SegmentHeaderV1 := do
  ensure (SEGMENT_HEADER_LEN ≤ bytes.length) .BufferTooSmall
  let magic ← read_u32 bytes 0
  ensure (magic = SEGMENT_MAGIC_CCS3) (.InvalidMagic SEGMENT_MAGIC_CCS3 magic)
  let major ← read_u16 bytes 4
  let minor ← read_u16 bytes 6
  ensure (major = SEGMENT_MAJOR ∧ minor = SEGMENT_MINOR) (.UnsupportedSegmentVersion major minor)
  let header_len ← read_u32 bytes 8
  ensure (header_len.toNat = SEGMENT_HEADER_LEN)
    (.LengthOutOfRange s!"header_len expected {SEGMENT_HEADER_LEN}, got {header_len}")
  let expected ← read_u32 bytes (SEGMENT_HEADER_LEN - 4)
  let actual := crc32c (bytes.take (SEGMENT_HEADER_LEN - 4))
  ensure (expected = actual) (.CrcMismatch expected actual)
  let flags ← read_u32 bytes 12
  let shard_id ← read_u32 bytes 16
  let epoch ← read_u64 bytes 20
  let segment_seq ← read_u64 bytes 28
  let seg_id := fixed 16 (slice bytes 36 52)
  let created_at_unix_ns ← read_u64 bytes 52
  return { flags, shard_id, epoch, segment_seq, segment_id := seg_id, created_at_unix_ns }

@[simp] theorem length_headerBody (h : SegmentHeaderV1) : (headerBody h).length = 4092 := by
  simp [headerBody, SEGMENT_HEADER_LEN]

@[simp] theorem length_encode_segment_header_v1 (h : SegmentHeaderV1) :
    (encode_segment_header_v1 h).length = SEGMENT_HEADER_LEN := by
  simp [encode_segment_header_v1, SEGMENT_HEADER_LEN]

theorem decode_segment_header_v1_encode (h : SegmentHeaderV1) :
    decode_segment_header_v1 (encode_segment_header_v1 h) = .ok h := by
  have check : read_u32 (encode_segment_header_v1 h) 4092 = .ok (crc32c (headerBody h)) := read_u32_end _ _ _ (by simp)
  have body : (encode_segment_header_v1 h).take 4092 = headerBody h := by
    exact take_left' (by simp)
  have long : SEGMENT_HEADER_LEN ≤ (encode_segment_header_v1 h).length := by simp
  have len : (UInt32.ofNat SEGMENT_HEADER_LEN).toNat = SEGMENT_HEADER_LEN := by decide
  have width : SEGMENT_HEADER_LEN - 4 = 4092 := rfl
  unfold decode_segment_header_v1
  simp [width, check, body]
  simp [encode_segment_header_v1, headerBody, read_u32_skip, read_u16_skip, read_u64_skip, slice_skip, slice_here, len]

/-- A length or offset in the four bytes the footer keeps for it. -/
def low32 (x : UInt64) : Bytes := u32le x.toUInt32

@[simp] theorem length_low32 (x : UInt64) : (low32 x).length = 4 := by simp [low32]

@[simp] theorem read_low32_here (x : UInt64) (rest : Bytes) : read_u32 (low32 x ++ rest) 0 = .ok x.toUInt32 :=
  read_u32_here _ _

theorem toUInt64_toUInt32 {x : UInt64} (h : x.toNat ≤ U32_MAX) : x.toUInt32.toUInt64 = x := by
  apply UInt64.toNat_inj.mp
  unfold U32_MAX at h
  simp
  omega

section
variable (f : SegmentFooterV1)

/-- The footer's magic, version and identity. -/
def footerIdentity : Bytes :=
  u32le SEGMENT_MAGIC_CCF3 ++ u16le SEGMENT_MAJOR ++ u16le SEGMENT_MINOR ++ u32le (UInt32.ofNat SEGMENT_FOOTER_LEN) ++
    u32le f.flags ++ u32le f.shard_id ++ u64le f.epoch ++ u64le f.segment_seq ++ f.segment_id.val ++
    u64le f.created_at_unix_ns ++ u64le f.sealed_at_unix_ns

/-- The footer's lengths, offsets and key bounds. -/
def footerExtents : Bytes :=
  low32 f.file_len ++ low32 f.record_area_offset ++ low32 f.record_area_len ++ low32 f.toc_offset ++
    low32 f.toc_len ++ low32 f.toc_entry_count ++
    u64le f.min_stream_hash ++ u64le f.min_seq ++ u64le f.max_stream_hash ++ u64le f.max_seq

def footerHashes : Bytes :=
  f.header_hash.val ++ f.record_hash.val ++ f.toc_payload_hash.val ++ f.segment_hash.val

/-- The footer's bytes before its checksum. -/
def footerBody : Bytes := footerIdentity f ++ footerExtents f ++ footerHashes f

/-- The footer's lengths and offsets fit their four bytes. -/
def FooterFits : Prop :=
  f.file_len.toNat ≤ U32_MAX ∧ f.record_area_offset.toNat ≤ U32_MAX ∧ f.record_area_len.toNat ≤ U32_MAX ∧
    f.toc_offset.toNat ≤ U32_MAX ∧ f.toc_len.toNat ≤ U32_MAX ∧ f.toc_entry_count.toNat ≤ U32_MAX

end

instance (f : SegmentFooterV1) : Decidable (FooterFits f) := by unfold FooterFits; infer_instance

def encode_segment_footer_v1 (f : SegmentFooterV1) : Result Bytes := do
  ensure (FooterFits f) (.LengthOutOfRange "footer v1 encodes offsets/lengths as u32; value exceeds 4GiB")
  return footerBody f ++ u32le (crc32c (footerBody f))

def decode_segment_footer_v1 (bytes : Bytes) : Result SegmentFooterV1 := do
  ensure (SEGMENT_FOOTER_LEN ≤ bytes.length) .BufferTooSmall
  let magic ← read_u32 bytes 0
  ensure (magic = SEGMENT_MAGIC_CCF3) (.InvalidMagic SEGMENT_MAGIC_CCF3 magic)
  let major ← read_u16 bytes 4
  let minor ← read_u16 bytes 6
  ensure (major = SEGMENT_MAJOR ∧ minor = SEGMENT_MINOR) (.UnsupportedSegmentVersion major minor)
  let footer_len ← read_u32 bytes 8
  ensure (footer_len.toNat = SEGMENT_FOOTER_LEN)
    (.LengthOutOfRange s!"footer_len expected {SEGMENT_FOOTER_LEN}, got {footer_len}")
  let expected ← read_u32 bytes (SEGMENT_FOOTER_LEN - 4)
  let actual := crc32c (bytes.take (SEGMENT_FOOTER_LEN - 4))
  ensure (expected = actual) (.CrcMismatch expected actual)
  let flags ← read_u32 bytes 12
  let shard_id ← read_u32 bytes 16
  let epoch ← read_u64 bytes 20
  let segment_seq ← read_u64 bytes 28
  let seg_id := fixed 16 (slice bytes 36 52)
  let created_at_unix_ns ← read_u64 bytes 52
  let sealed_at_unix_ns ← read_u64 bytes 60
  let file_len ← read_u32 bytes 68
  let record_area_offset ← read_u32 bytes 72
  let record_area_len ← read_u32 bytes 76
  let toc_offset ← read_u32 bytes 80
  let toc_len ← read_u32 bytes 84
  let toc_entry_count ← read_u32 bytes 88
  let min_stream_hash ← read_u64 bytes 92
  let min_seq ← read_u64 bytes 100
  let max_stream_hash ← read_u64 bytes 108
  let max_seq ← read_u64 bytes 116
  let header_hash := fixed 32 (slice bytes 124 156)
  let record_hash := fixed 32 (slice bytes 156 188)
  let toc_payload_hash := fixed 32 (slice bytes 188 220)
  let segment_hash := fixed 32 (slice bytes 220 252)
  return { flags, shard_id, epoch, segment_seq, segment_id := seg_id, created_at_unix_ns, sealed_at_unix_ns,
           file_len := file_len.toUInt64, record_area_offset := record_area_offset.toUInt64,
           record_area_len := record_area_len.toUInt64, toc_offset := toc_offset.toUInt64,
           toc_len := toc_len.toUInt64, toc_entry_count := toc_entry_count.toUInt64,
           min_stream_hash, min_seq, max_stream_hash, max_seq, header_hash, record_hash, toc_payload_hash, segment_hash }

@[simp] theorem length_footerBody (f : SegmentFooterV1) : (footerBody f).length = 252 := by
  simp [footerBody, footerIdentity, footerExtents, footerHashes]

theorem encode_segment_footer_v1_ok_iff :
    encode_segment_footer_v1 f = .ok out ↔ FooterFits f ∧ out = footerBody f ++ u32le (crc32c (footerBody f)) := by
  unfold encode_segment_footer_v1
  rw [ensure_bind_ok]
  simp [pure, Except.pure, eq_comm]

theorem decode_segment_footer_v1_encode {f : SegmentFooterV1} {out : Bytes} (h : encode_segment_footer_v1 f = .ok out) :
    out.length = SEGMENT_FOOTER_LEN ∧ decode_segment_footer_v1 out = .ok f := by
  obtain ⟨fits, rfl⟩ := encode_segment_footer_v1_ok_iff.mp h
  unfold FooterFits at fits
  obtain ⟨fits_len, fits_rec, fits_recl, fits_toc, fits_tocl, fits_n⟩ := fits
  have long : SEGMENT_FOOTER_LEN ≤ (footerBody f ++ u32le (crc32c (footerBody f))).length := by
    simp [SEGMENT_FOOTER_LEN]
  refine ⟨by simp [SEGMENT_FOOTER_LEN], ?_⟩
  have check : read_u32 (footerBody f ++ u32le (crc32c (footerBody f))) 252 = .ok (crc32c (footerBody f)) :=
    read_u32_end _ _ _ (by simp)
  have body : (footerBody f ++ u32le (crc32c (footerBody f))).take 252 = footerBody f := take_left' (by simp)
  have len : (UInt32.ofNat SEGMENT_FOOTER_LEN).toNat = SEGMENT_FOOTER_LEN := by decide
  have width : SEGMENT_FOOTER_LEN - 4 = 252 := rfl
  unfold decode_segment_footer_v1
  simp only [width, check, body, long, ensure_of_true, ok_bind]
  generalize crc32c (footerBody f) = crc
  simp [footerBody, footerIdentity, footerExtents, footerHashes, read_u32_skip, read_u16_skip, read_u64_skip, slice_skip,
    slice_here, len, toUInt64_toUInt32 fits_len, toUInt64_toUInt32 fits_rec, toUInt64_toUInt32 fits_recl,
    toUInt64_toUInt32 fits_toc, toUInt64_toUInt32 fits_tocl, toUInt64_toUInt32 fits_n]

def encode_toc_entry_v1 (e : TocEntryV1) : Bytes :=
  u64le e.stream_hash ++ u64le e.seq ++ u32le e.file_offset ++ u32le e.frame_len ++ u32le e.payload_len ++
    u32le e.flags ++ e.event_id_hash16.val ++ e.header_digest8.val ++ e.payload_digest8.val

def decode_toc_entry_v1 (bytes : Bytes) : Result TocEntryV1 := do
  ensure (TOC_ENTRY_LEN ≤ bytes.length) .BufferTooSmall
  let stream_hash ← read_u64 bytes 0
  let seq ← read_u64 bytes 8
  let file_offset ← read_u32 bytes 16
  let frame_len ← read_u32 bytes 20
  let payload_len ← read_u32 bytes 24
  let flags ← read_u32 bytes 28
  return { stream_hash, seq, file_offset, frame_len, payload_len, flags,
           event_id_hash16 := fixed 16 (slice bytes 32 48), header_digest8 := fixed 8 (slice bytes 48 56),
           payload_digest8 := fixed 8 (slice bytes 56 64) }

@[simp] theorem length_encode_toc_entry_v1 (e : TocEntryV1) : (encode_toc_entry_v1 e).length = TOC_ENTRY_LEN := by
  simp [encode_toc_entry_v1, TOC_ENTRY_LEN]

theorem decode_toc_entry_v1_encode (e : TocEntryV1) : decode_toc_entry_v1 (encode_toc_entry_v1 e) = .ok e := by
  have long : TOC_ENTRY_LEN ≤ (encode_toc_entry_v1 e).length := by simp
  unfold decode_toc_entry_v1
  simp
  simp [encode_toc_entry_v1, read_u32_skip, read_u64_skip, slice_skip, slice_here, slice_all]

section
variable (entry_count record_area_offset record_area_len toc_payload_len crc_tables_len : UInt64)

/-- The bytes of a contents header before the payload hash; the last eight are reserved. -/
def tocHeaderFields : Bytes :=
  u32le TOC_MAGIC_TOC1 ++ u16le 1 ++ u16le (UInt16.ofNat TOC_ENTRY_LEN) ++ u64le entry_count ++
    u32le DEFAULT_RECORD_BLOCK_SIZE ++ u32le DEFAULT_TOC_BLOCK_SIZE ++ u64le record_area_offset ++
    u64le record_area_len ++ u64le toc_payload_len ++ u64le crc_tables_len ++ u64le 1 ++ zeros 8

/-- The bytes of a contents header before its checksum; the last twenty are reserved. -/
def tocHeaderBody (toc_payload_hash : Digest) : Bytes :=
  tocHeaderFields entry_count record_area_offset record_area_len toc_payload_len crc_tables_len ++
    (toc_payload_hash.val ++ zeros 20)

def encode_toc_payload_v1_with_hash
    (toc_payload_hash : Digest) (entries : List TocEntryV1) : Bytes :=
  let hdr := tocHeaderBody entry_count record_area_offset record_area_len toc_payload_len crc_tables_len toc_payload_hash
  hdr ++ u32le (crc32c hdr) ++ entries.flatMap encode_toc_entry_v1

def encode_toc_payload_v1 (entries : List TocEntryV1) : Bytes :=
  encode_toc_payload_v1_with_hash entry_count record_area_offset record_area_len toc_payload_len crc_tables_len
    (fixed 32 (zeros 32)) entries

end

/-- A contents payload with its own hash and its header checksum read as zeros. -/
def tocPayloadMasked (toc_payload_bytes : Bytes) : Bytes :=
  toc_payload_bytes.take 72 ++ zeros 32 ++ slice toc_payload_bytes 104 (TOC_HEADER_LEN - 4) ++ zeros 4 ++
    toc_payload_bytes.drop TOC_HEADER_LEN

def compute_toc_payload_hash (P : Primitives) (toc_payload_bytes : Bytes) : Result Digest := do
  ensure (TOC_HEADER_LEN ≤ toc_payload_bytes.length) .BufferTooSmall
  return P.blake3 (tocPayloadMasked toc_payload_bytes)

def decode_toc_header_v1 (bytes : Bytes) : Result TocHeaderV1 := do
  ensure (TOC_HEADER_LEN ≤ bytes.length) .BufferTooSmall
  let magic ← read_u32 bytes 0
  ensure (magic = TOC_MAGIC_TOC1) (.InvalidMagic TOC_MAGIC_TOC1 magic)
  let ver ← read_u16 bytes 4
  ensure (ver = 1) (.UnsupportedTocVersion ver)
  let entry_size ← read_u16 bytes 6
  ensure (entry_size.toNat = TOC_ENTRY_LEN)
    (.LengthOutOfRange s!"entry_size expected {TOC_ENTRY_LEN}, got {entry_size}")
  let expected ← read_u32 bytes (TOC_HEADER_LEN - 4)
  let actual := crc32c (bytes.take (TOC_HEADER_LEN - 4))
  ensure (expected = actual) (.CrcMismatch expected actual)
  let entry_count ← read_u64 bytes 8
  let record_block_size ← read_u32 bytes 16
  let toc_block_size ← read_u32 bytes 20
  let record_area_offset ← read_u64 bytes 24
  let record_area_len ← read_u64 bytes 32
  let toc_payload_len ← read_u64 bytes 40
  let crc_tables_len ← read_u64 bytes 48
  let sort_order ← read_u64 bytes 56
  return { entry_count, record_block_size, toc_block_size, record_area_offset, record_area_len, toc_payload_len,
           crc_tables_len, sort_order, toc_payload_hash := fixed 32 (slice bytes 72 104) }

section TocPayload
variable (n off len plen clen : UInt64)

@[simp] theorem length_tocHeaderFields : (tocHeaderFields n off len plen clen).length = 72 := by
  simp [tocHeaderFields]

@[simp] theorem length_tocHeaderBody (hash : Digest) : (tocHeaderBody n off len plen clen hash).length = 124 := by
  simp [tocHeaderBody]

@[simp] theorem length_encode_toc_payload_v1_with_hash (hash : Digest) (entries : List TocEntryV1) :
    (encode_toc_payload_v1_with_hash n off len plen clen hash entries).length =
      TOC_HEADER_LEN + entries.length * TOC_ENTRY_LEN := by
  simp [encode_toc_payload_v1_with_hash, TOC_HEADER_LEN]
  omega

theorem take_encode_toc_payload (hash : Digest) (entries : List TocEntryV1) :
    (encode_toc_payload_v1_with_hash n off len plen clen hash entries).take TOC_HEADER_LEN =
      tocHeaderBody n off len plen clen hash ++ u32le (crc32c (tocHeaderBody n off len plen clen hash)) := by
  exact take_left' (by simp [TOC_HEADER_LEN])

theorem decode_toc_header_v1_encode (hash : Digest) : decode_toc_header_v1
        (tocHeaderBody n off len plen clen hash ++ u32le (crc32c (tocHeaderBody n off len plen clen hash))) =
      .ok { entry_count := n, record_block_size := DEFAULT_RECORD_BLOCK_SIZE, toc_block_size := DEFAULT_TOC_BLOCK_SIZE,
            record_area_offset := off, record_area_len := len, toc_payload_len := plen, crc_tables_len := clen,
            sort_order := 1, toc_payload_hash := hash } := by
  generalize hbody : tocHeaderBody n off len plen clen hash = body
  have size : body.length = 124 := by rw [← hbody]; simp
  have check : read_u32 (body ++ u32le (crc32c body)) 124 = .ok (crc32c body) := read_u32_end _ _ _ size
  have front : (body ++ u32le (crc32c body)).take 124 = body := take_left' size
  have long : TOC_HEADER_LEN ≤ (body ++ u32le (crc32c body)).length := by simp [size, TOC_HEADER_LEN]
  have entry : (UInt16.ofNat TOC_ENTRY_LEN).toNat = TOC_ENTRY_LEN := by decide
  have width : TOC_HEADER_LEN - 4 = 124 := rfl
  unfold decode_toc_header_v1
  simp only [width, check, front, long, ensure_of_true, ok_bind]
  generalize crc32c body = crc
  subst hbody
  simp [tocHeaderBody, tocHeaderFields, read_u32_skip, read_u16_skip, read_u64_skip, slice_skip, slice_here, entry]

/-- The hashed form of a contents payload does not see the hash written into it. -/
theorem tocPayloadMasked_encode (hash : Digest) (entries : List TocEntryV1) :
    tocPayloadMasked (encode_toc_payload_v1_with_hash n off len plen clen hash entries) =
      tocHeaderFields n off len plen clen ++ zeros 32 ++ zeros 20 ++ zeros 4 ++ entries.flatMap encode_toc_entry_v1 := by
  have payload : encode_toc_payload_v1_with_hash n off len plen clen hash entries =
      tocHeaderFields n off len plen clen ++ (hash.val ++ (zeros 20 ++
        (u32le (crc32c (tocHeaderBody n off len plen clen hash)) ++ entries.flatMap encode_toc_entry_v1))) := by
    simp [encode_toc_payload_v1_with_hash, tocHeaderBody]
  have width : TOC_HEADER_LEN - 4 = 124 := rfl
  have reserved : slice (encode_toc_payload_v1_with_hash n off len plen clen hash entries) 104 124 = zeros 20 := by
    rw [payload, ← append_assoc]
    exact slice_mid _ _ _ _ _ (by simp) (by simp)
  have rest : (encode_toc_payload_v1_with_hash n off len plen clen hash entries).drop TOC_HEADER_LEN =
      entries.flatMap encode_toc_entry_v1 := by
    exact drop_left' (by simp [TOC_HEADER_LEN])
  have front : (encode_toc_payload_v1_with_hash n off len plen clen hash entries).take 72 =
      tocHeaderFields n off len plen clen := by
    rw [payload]
    exact take_left' (by simp)
  rw [tocPayloadMasked, width, reserved, rest, front]

theorem compute_toc_payload_hash_encode (P : Primitives) (hash : Digest) (entries : List TocEntryV1) :
    compute_toc_payload_hash P (encode_toc_payload_v1_with_hash n off len plen clen hash entries) =
      compute_toc_payload_hash P (encode_toc_payload_v1 n off len plen clen entries) := by
  unfold compute_toc_payload_hash encode_toc_payload_v1
  rw [tocPayloadMasked_encode, tocPayloadMasked_encode]
  simp

theorem decode_toc_entries_encode (hash : Digest) (entries : List TocEntryV1) (rest : Bytes) :
    decodeEach decode_toc_entry_v1 TOC_ENTRY_LEN
        (encode_toc_payload_v1_with_hash n off len plen clen hash entries ++ rest) entries.length TOC_HEADER_LEN =
      .ok entries := by
  have front : (tocHeaderBody n off len plen clen hash ++
      u32le (crc32c (tocHeaderBody n off len plen clen hash))).length = TOC_HEADER_LEN := by simp [TOC_HEADER_LEN]
  have := decodeEach_flatMap length_encode_toc_entry_v1 decode_toc_entry_v1_encode entries
    (tocHeaderBody n off len plen clen hash ++ u32le (crc32c (tocHeaderBody n off len plen clen hash))) rest
  rw [front] at this
  simpa [encode_toc_payload_v1_with_hash] using this

end TocPayload

def encode_block_meta_v1 (b : BlockMetaV1) : Bytes :=
  u32le b.block_id ++ u32le b.codec ++ u64le b.file_offset ++ u32le b.compressed_len ++ u32le b.uncompressed_len ++
    u32le b.crc32c ++ u32le b.physical_len ++ b.bloom.val

/-- A physical length of zero stands for the compressed length. -/
def decode_block_meta_v1 (bytes : Bytes) : Result BlockMetaV1 := do
  ensure (bytes.length = BLOCK_META_V1_LEN) (.TrailerSectionInvalid "block meta length mismatch")
  let compressed_len := u32At bytes 16
  let physical_len := u32At bytes 28
  return { block_id := u32At bytes 0, codec := u32At bytes 4, file_offset := u64At bytes 8, compressed_len,
           physical_len := if physical_len = 0 then compressed_len else physical_len,
           uncompressed_len := u32At bytes 20, crc32c := u32At bytes 24,
           bloom := fixed BLOOM_BYTES_PER_BLOCK_V1 (slice bytes 32 (32 + BLOOM_BYTES_PER_BLOCK_V1)) }

/-- What a reader sees of a block entry. -/
def readBack (b : BlockMetaV1) : BlockMetaV1 :=
  { b with physical_len := if b.physical_len = 0 then b.compressed_len else b.physical_len }

@[simp] theorem length_encode_block_meta_v1 (b : BlockMetaV1) : (encode_block_meta_v1 b).length = BLOCK_META_V1_LEN := by
  simp [encode_block_meta_v1, BLOCK_META_V1_LEN, BLOOM_BYTES_PER_BLOCK_V1]

theorem decode_block_meta_v1_encode (b : BlockMetaV1) : decode_block_meta_v1 (encode_block_meta_v1 b) = .ok (readBack b) := by
  have bloom : 32 + BLOOM_BYTES_PER_BLOCK_V1 = 288 := rfl
  have size : b.bloom.val.length = 256 := b.bloom.property
  unfold decode_block_meta_v1
  simp
  simp [encode_block_meta_v1, u32At_skip, u64At_skip, slice_skip, slice_all, bloom, size]
  rfl

def encode_toc_by_offset_entry_v1 (e : TocByOffsetEntryV1) : Bytes :=
  u64le e.stream_hash ++ u64le e.seq ++ u32le e.block_id ++ u32le e.in_block_offset ++ u32le e.frame_len ++
    u32le e.flags ++ e.event_id_hash16.val ++ e.header_digest8.val ++ e.payload_digest8.val

def decode_toc_by_offset_entry_v1 (bytes : Bytes) : Result TocByOffsetEntryV1 := do
  ensure (bytes.length = TOC_BY_OFFSET_ENTRY_V1_LEN) (.TrailerSectionInvalid "toc_by_offset entry length mismatch")
  return { stream_hash := u64At bytes 0, seq := u64At bytes 8, block_id := u32At bytes 16,
           in_block_offset := u32At bytes 20, frame_len := u32At bytes 24, flags := u32At bytes 28,
           event_id_hash16 := fixed 16 (slice bytes 32 48), header_digest8 := fixed 8 (slice bytes 48 56),
           payload_digest8 := fixed 8 (slice bytes 56 64) }

@[simp] theorem length_encode_toc_by_offset_entry_v1 (e : TocByOffsetEntryV1) :
    (encode_toc_by_offset_entry_v1 e).length = TOC_BY_OFFSET_ENTRY_V1_LEN := by
  simp [encode_toc_by_offset_entry_v1, TOC_BY_OFFSET_ENTRY_V1_LEN]

theorem decode_toc_by_offset_entry_v1_encode (e : TocByOffsetEntryV1) :
    decode_toc_by_offset_entry_v1 (encode_toc_by_offset_entry_v1 e) = .ok e := by
  unfold decode_toc_by_offset_entry_v1
  simp only [length_encode_toc_by_offset_entry_v1, ensure_of_true, ok_bind]
  simp [encode_toc_by_offset_entry_v1, u32At_skip, u64At_skip, slice_skip, slice_here, slice_all]
  rfl

end Crux.Segment
