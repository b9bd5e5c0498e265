import Crux.Bytes

/-!
# The sealed segment format: constants, errors and records

The records of `corecrux-segment` with the widths the source gives them, the
bounds-checked readers of `util.rs` and the bloom filters of `bloom.rs`.
-/

namespace Crux.Segment
open Crux.Bytes

def SEGMENT_MAGIC_CCS3 : UInt32 := 0x33534343
def SEGMENT_MAGIC_CCF3 : UInt32 := 0x33464343
def TOC_MAGIC_TOC1 : UInt32 := 0x31434F54
def FRAME_MAGIC_CRX1 : UInt32 := 0x43525831
def FRAME_VERSION_V1 : UInt16 := 1
def SEGMENT_MAJOR : UInt16 := 3
def SEGMENT_MINOR : UInt16 := 0
def SEGMENT_HEADER_LEN : Nat := 4096
def SEGMENT_FOOTER_LEN : Nat := 256
def TOC_HEADER_LEN : Nat := 128
def TOC_ENTRY_LEN : Nat := 64
def DEFAULT_RECORD_BLOCK_SIZE : UInt32 := 65536
def DEFAULT_TOC_BLOCK_SIZE : UInt32 := 65536
def RECORD_BLOCK_UNCOMPRESSED_MAX_LEN_V1 : UInt32 := 4194304
def BLOOM_BYTES_PER_BLOCK_V1 : Nat := 256
def BLOOM_HASH_K_V1 : UInt32 := 6
def TRAILER_SECTION_HEADER_LEN_V1 : Nat := 32
def TRAILER_MAGIC_BLK1 : UInt32 := 0x314B4C42
def TRAILER_MAGIC_TBO1 : UInt32 := 0x314F4254
def TRAILER_MAGIC_TSI1 : UInt32 := 0x31495354
def BLOCK_META_V1_LEN : Nat := 288
def TOC_BY_OFFSET_ENTRY_V1_LEN : Nat := 64
def RECORD_BLOCK_CODEC_NONE_V1 : UInt32 := 0
def RECORD_BLOCK_CODEC_LZ4_V1 : UInt32 := 1
def U32_MAX : Nat := 4294967295

inductive SegmentError where
  | BufferTooSmall
  | InvalidMagic (expected actual : UInt32)
  | UnsupportedSegmentVersion (major minor : UInt16)
  | UnsupportedTocVersion (version : UInt16)
  | CrcMismatch (expected actual : UInt32)
  | LengthOutOfRange (msg : String)
  | FileLenMismatch (declared actual : UInt64)
  | NotSealed
  | HashMismatch (msg : String)
  | TocNotSorted
  | TrailerSectionInvalid (msg : String)
deriving DecidableEq

abbrev Result (α : Type) := Except SegmentError α

/-- A number in the `0x` form of the source's messages. -/
def hex (n : UInt32) : String := "0x" ++ String.ofList (Nat.toDigits 16 n.toNat)

/-- The hash, checksum and compression crates the format is built on. -/
structure Primitives where
  blake3 : Bytes → FixedBytes 32
  xxh64 : Bytes → UInt64 → UInt64
  lz4_compress : Bytes → Bytes
  lz4_decompress : Bytes → Nat → Except String Bytes
  decompress_compress : ∀ x, lz4_decompress (lz4_compress x) x.length = .ok x
  compress_some : ∀ x, lz4_compress x ≠ []

abbrev Digest := FixedBytes 32
abbrev SegmentId := FixedBytes 16

structure SegmentHeaderV1 where
  flags : UInt32
  shard_id : UInt32
  epoch : UInt64
  segment_seq : UInt64
  segment_id : SegmentId
  created_at_unix_ns : UInt64
deriving DecidableEq

structure TocHeaderV1 where
  entry_count : UInt64
  record_block_size : UInt32
  toc_block_size : UInt32
  record_area_offset : UInt64
  record_area_len : UInt64
  toc_payload_len : UInt64
  crc_tables_len : UInt64
  sort_order : UInt64
  toc_payload_hash : Digest
deriving DecidableEq

structure TocEntryV1 where
  stream_hash : UInt64
  seq : UInt64
  file_offset : UInt32
  frame_len : UInt32
  payload_len : UInt32
  flags : UInt32
  event_id_hash16 : FixedBytes 16
  header_digest8 : FixedBytes 8
  payload_digest8 : FixedBytes 8
deriving DecidableEq

structure SegmentFooterV1 where
  flags : UInt32
  shard_id : UInt32
  epoch : UInt64
  segment_seq : UInt64
  segment_id : SegmentId
  created_at_unix_ns : UInt64
  sealed_at_unix_ns : UInt64
  file_len : UInt64
  record_area_offset : UInt64
  record_area_len : UInt64
  toc_offset : UInt64
  toc_len : UInt64
  toc_entry_count : UInt64
  min_stream_hash : UInt64
  min_seq : UInt64
  max_stream_hash : UInt64
  max_seq : UInt64
  header_hash : Digest
  record_hash : Digest
  toc_payload_hash : Digest
  segment_hash : Digest
deriving DecidableEq

structure SegmentBuildOutput where
  bytes : Bytes
  header : SegmentHeaderV1
  toc_header : TocHeaderV1
  toc_entries : List TocEntryV1
  footer : SegmentFooterV1
  record_crc32c_table : List UInt32
  toc_crc32c_table : List UInt32
deriving DecidableEq

structure FrameMetaTmp where
  stream_hash : UInt64
  seq : UInt64
  event_id_hash16 : FixedBytes 16
  header_digest8 : FixedBytes 8
  payload_digest8 : FixedBytes 8
  record_off : UInt32
  frame_len : UInt32
deriving DecidableEq

structure TocByOffsetEntryV1 where
  stream_hash : UInt64
  seq : UInt64
  block_id : UInt32
  in_block_offset : UInt32
  frame_len : UInt32
  flags : UInt32
  event_id_hash16 : FixedBytes 16
  header_digest8 : FixedBytes 8
  payload_digest8 : FixedBytes 8
deriving DecidableEq

structure BlockMetaV1 where
  block_id : UInt32
  codec : UInt32
  file_offset : UInt64
  compressed_len : UInt32
  physical_len : UInt32
  uncompressed_len : UInt32
  crc32c : UInt32
  bloom : FixedBytes BLOOM_BYTES_PER_BLOCK_V1
deriving DecidableEq

structure TrailerIndexV1 where
  record_block_uncompressed_max_len : UInt32
  bloom_bytes_per_block : UInt32
  bloom_hash_k : UInt32
  blocks : List BlockMetaV1
  toc_by_offset : List TocByOffsetEntryV1
  toc_sorted_idx : List UInt32
deriving DecidableEq

structure FrameInput where
  stream_hash : UInt64
  seq : UInt64
  event_id : Bytes
  header_hash : Digest
  payload_hash : Digest
  header_bytes : Bytes
  payload_bytes : Bytes
deriving DecidableEq

structure FrameMetaV1 where
  stream_hash : UInt64
  seq : UInt64
  record_off : UInt32
  frame_len : UInt32
  payload_len : UInt32
  event_id_hash16 : FixedBytes 16
  header_digest8 : FixedBytes 8
  payload_digest8 : FixedBytes 8
deriving DecidableEq

structure FrameV1Decoded where
  header_bytes : Bytes
  payload_bytes : Bytes
deriving DecidableEq

section
variable (bytes : Bytes) (off : Nat)

/-- The little-endian field at an offset that is known to be inside. -/
def u16At : UInt16 := UInt16.ofNat (ofLe (slice bytes off (off + 2)))
def u32At : UInt32 := UInt32.ofNat (ofLe (slice bytes off (off + 4)))
def u64At : UInt64 := UInt64.ofNat (ofLe (slice bytes off (off + 8)))

def read_u16 : Result UInt16 :=
  if off + 2 ≤ bytes.length then .ok (u16At bytes off) else .error .BufferTooSmall

def read_u32 : Result UInt32 :=
  if off + 4 ≤ bytes.length then .ok (u32At bytes off) else .error .BufferTooSmall

def read_u64 : Result UInt64 :=
  if off + 8 ≤ bytes.length then .ok (u64At bytes off) else .error .BufferTooSmall

end

variable {bytes : Bytes} {off : Nat}

theorem read_u16_ok (h : off + 2 ≤ bytes.length) : read_u16 bytes off = .ok (u16At bytes off) := if_pos h

theorem read_u32_ok (h : off + 4 ≤ bytes.length) : read_u32 bytes off = .ok (u32At bytes off) := if_pos h

theorem read_u64_ok (h : off + 8 ≤ bytes.length) : read_u64 bytes off = .ok (u64At bytes off) := if_pos h

theorem read_u16_ok_iff : read_u16 bytes off = .ok x ↔ off + 2 ≤ bytes.length ∧ x = u16At bytes off := by
  unfold read_u16
  split_ifs with inside <;> simp [inside, eq_comm]

theorem read_u32_ok_iff : read_u32 bytes off = .ok x ↔ off + 4 ≤ bytes.length ∧ x = u32At bytes off := by
  unfold read_u32
  split_ifs with inside <;> simp [inside, eq_comm]

theorem read_u64_ok_iff : read_u64 bytes off = .ok x ↔ off + 8 ≤ bytes.length ∧ x = u64At bytes off := by
  unfold read_u64
  split_ifs with inside <;> simp [inside, eq_comm]

section
variable (f rest : Bytes) (off : Nat) (h : f.length ≤ off)
include h

theorem u16At_skip : u16At (f ++ rest) off = u16At rest (off - f.length) := by
  unfold u16At
  rw [slice_skip _ _ _ _ h, Nat.sub_add_comm h]

theorem u32At_skip : u32At (f ++ rest) off = u32At rest (off - f.length) := by
  unfold u32At
  rw [slice_skip _ _ _ _ h, Nat.sub_add_comm h]

theorem u64At_skip : u64At (f ++ rest) off = u64At rest (off - f.length) := by
  unfold u64At
  rw [slice_skip _ _ _ _ h, Nat.sub_add_comm h]

end

@[simp] theorem u16At_here (x : UInt16) (rest : Bytes) : u16At (u16le x ++ rest) 0 = x := by
  rw [u16At, slice_here _ _ _ (by simp), ofLe_u16le]

@[simp] theorem u32At_here (x : UInt32) (rest : Bytes) : u32At (u32le x ++ rest) 0 = x := by
  rw [u32At, slice_here _ _ _ (by simp), ofLe_u32le]

@[simp] theorem u64At_here (x : UInt64) (rest : Bytes) : u64At (u64le x ++ rest) 0 = x := by
  rw [u64At, slice_here _ _ _ (by simp), ofLe_u64le]

@[simp] theorem u32At_last (x : UInt32) : u32At (u32le x) 0 = x := by
  simpa using u32At_here x []

def align_up (v align : Nat) : Nat :=
  if align = 0 then v
  else if v % align = 0 then v
  else v + (align - v % align)

/-- The order of the table of contents: by stream, then by sequence number. -/
def tocLe (a b : TocEntryV1) : Prop :=
  a.stream_hash < b.stream_hash ∨ (a.stream_hash = b.stream_hash ∧ a.seq ≤ b.seq)

instance : DecidableRel tocLe := fun a b => by unfold tocLe; infer_instance

def is_sorted_toc : List TocEntryV1 → Bool
  | a :: b :: rest => decide (tocLe a b) && is_sorted_toc (b :: rest)
  | _ => true

/-- The checksums of consecutive blocks of a byte string; the fuel bounds the number of blocks. -/
def block_crc32c_loop (block_size : Nat) : Nat → Bytes → List UInt32
  | 0, _ => []
  | fuel + 1, bytes =>
    if bytes = [] then [] else crc32c (bytes.take block_size) :: block_crc32c_loop block_size fuel (bytes.drop block_size)

def block_crc32c (bytes : Bytes) (block_size : Nat) : List UInt32 :=
  if block_size = 0 then [] else block_crc32c_loop block_size bytes.length bytes

/-- Set one bit of a byte string. -/
def setBit (bits : Bytes) (bit : Nat) : Bytes :=
  bits.modify (bit / 8) (fun b => b ||| (1 <<< UInt8.ofNat (bit % 8)))

@[simp] theorem length_setBit (bits : Bytes) (bit : Nat) : (setBit bits bit).length = bits.length := by
  simp [setBit]

/-- The bit a stream hash takes in the filter under one seed. -/
def bloomBit (P : Primitives) (stream_hash : UInt64) (seed : Nat) : Nat :=
  (P.xxh64 (u64le stream_hash) (UInt64.ofNat seed)).toNat % (BLOOM_BYTES_PER_BLOCK_V1 * 8)

section
variable (P : Primitives) (bits : FixedBytes BLOOM_BYTES_PER_BLOCK_V1) (bloom_hash_k : UInt32) (stream_hash : UInt64)

def bloom_insert_stream_hash_v1 : FixedBytes BLOOM_BYTES_PER_BLOCK_V1 :=
  (List.range bloom_hash_k.toNat).foldl
    (fun acc seed => ⟨setBit acc.val (bloomBit P stream_hash seed), by simp⟩) bits

def bloom_maybe_contains_stream_hash_v1 : Bool :=
  (List.range bloom_hash_k.toNat).all fun seed =>
    let bit := bloomBit P stream_hash seed
    (bits.val.getD (bit / 8) 0) &&& (1 <<< UInt8.ofNat (bit % 8)) != 0

end

end Crux.Segment
