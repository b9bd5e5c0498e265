import Crux.SegmentCodec

/-!
# The trailer index

The sections that follow the table of contents: the block index `BLK1`, the
frames by offset `TBO1` and their sorted order `TSI1`. A section is read by its
header; one with an unknown magic is passed over, and an all-zero tail ends
the walk.
-/

namespace Crux.Segment
open Crux.Bytes List

def encode_blk1_payload (blocks : List BlockMetaV1) : Bytes :=
  u32le RECORD_BLOCK_UNCOMPRESSED_MAX_LEN_V1 ++ u32le (UInt32.ofNat BLOOM_BYTES_PER_BLOCK_V1) ++ u32le BLOOM_HASH_K_V1 ++
    u32le (UInt32.ofNat blocks.length) ++ blocks.flatMap encode_block_meta_v1

def decode_blk1_payload (payload : Bytes) : Result (UInt32 × UInt32 × UInt32 × List BlockMetaV1) := do
  ensure (16 ≤ payload.length) (.TrailerSectionInvalid "BLK1 payload too small")
  let record_block_uncompressed_max_len := u32At payload 0
  let bloom_bytes_per_block := u32At payload 4
  let bloom_hash_k := u32At payload 8
  let block_count := (u32At payload 12).toNat
  ensure (bloom_bytes_per_block.toNat = BLOOM_BYTES_PER_BLOCK_V1)
    (.TrailerSectionInvalid "unsupported bloom_bytes_per_block")
  ensure (payload.length = 16 + block_count * BLOCK_META_V1_LEN) (.TrailerSectionInvalid "BLK1 payload length mismatch")
  let blocks ← decodeEach decode_block_meta_v1 BLOCK_META_V1_LEN payload block_count 16
  return (record_block_uncompressed_max_len, bloom_bytes_per_block, bloom_hash_k, blocks)

def encode_tbo1_payload (entries : List TocByOffsetEntryV1) : Bytes :=
  u32le (UInt32.ofNat TOC_BY_OFFSET_ENTRY_V1_LEN) ++ u32le (UInt32.ofNat entries.length) ++
    entries.flatMap encode_toc_by_offset_entry_v1

def decode_tbo1_payload (payload : Bytes) : Result (List TocByOffsetEntryV1) := do
  ensure (8 ≤ payload.length) (.TrailerSectionInvalid "TBO1 payload too small")
  let entry_len := (u32At payload 0).toNat
  ensure (entry_len = TOC_BY_OFFSET_ENTRY_V1_LEN) (.TrailerSectionInvalid "unsupported toc_by_offset entry_len")
  let count := (u32At payload 4).toNat
  ensure (payload.length = 8 + count * entry_len) (.TrailerSectionInvalid "TBO1 payload length mismatch")
  decodeEach decode_toc_by_offset_entry_v1 entry_len payload count 8

def encode_tsi1_payload (sorted_idx : List UInt32) : Bytes :=
  u32le (UInt32.ofNat sorted_idx.length) ++ u32le 0 ++ sorted_idx.flatMap u32le

/-- One sorted index of the `TSI1` table. -/
def decodeIndex (bytes : Bytes) : Result UInt32 := .ok (u32At bytes 0)

def decode_tsi1_payload (payload : Bytes) : Result (List UInt32) := do
  ensure (8 ≤ payload.length) (.TrailerSectionInvalid "TSI1 payload too small")
  let count := (u32At payload 0).toNat
  ensure (payload.length = 8 + count * 4) (.TrailerSectionInvalid "TSI1 payload length mismatch")
  decodeEach decodeIndex 4 payload count 8

def encode_trailer_section_v1 (magic : UInt32) (payload : Bytes) : Bytes :=
  u32le magic ++ u16le 1 ++ u16le (UInt16.ofNat TRAILER_SECTION_HEADER_LEN_V1) ++ u32le (UInt32.ofNat payload.length) ++
    u32le (crc32c payload) ++ zeros 16 ++ payload

def encode_trailer_index_v1_from_parts (blocks : List BlockMetaV1) (toc_by_offset : List TocByOffsetEntryV1)
    (toc_sorted_idx : List UInt32) : Bytes :=
  encode_trailer_section_v1 TRAILER_MAGIC_BLK1 (encode_blk1_payload blocks) ++
    encode_trailer_section_v1 TRAILER_MAGIC_TBO1 (encode_tbo1_payload toc_by_offset) ++
    encode_trailer_section_v1 TRAILER_MAGIC_TSI1 (encode_tsi1_payload toc_sorted_idx)

/-- The sections read so far; a later section of a kind replaces an earlier one. -/
structure TrailerSections where
  blk_section : Option (UInt32 × UInt32 × UInt32 × List BlockMetaV1) := none
  tbo_section : Option (List TocByOffsetEntryV1) := none
  tsi_section : Option (List UInt32) := none
deriving DecidableEq

/-- Take up one section by its magic. -/
def takeSection (magic : UInt32) (payload : Bytes) (acc : TrailerSections) : Result TrailerSections :=
  if magic = TRAILER_MAGIC_BLK1 then do
    let blk ← decode_blk1_payload payload
    return { acc with blk_section := some blk }
  else if magic = TRAILER_MAGIC_TBO1 then do
    let tbo ← decode_tbo1_payload payload
    return { acc with tbo_section := some tbo }
  else if magic = TRAILER_MAGIC_TSI1 then do
    let tsi ← decode_tsi1_payload payload
    return { acc with tsi_section := some tsi }
  else .ok acc

/-- The walk over the sections. Every section is at least a header long, so the length of the area is fuel enough. -/
def trailer_sections_loop : Nat → Bytes → TrailerSections → Result TrailerSections
  | 0, _, acc => .ok acc
  | fuel + 1, ext, acc =>
    if ext.all (· == 0) then .ok acc
    else do
      ensure (TRAILER_SECTION_HEADER_LEN_V1 ≤ ext.length) (.TrailerSectionInvalid "trailer section header truncated")
      let magic := u32At ext 0
      let version := u16At ext 4
      let header_len := (u16At ext 6).toNat
      ensure (version = 1 ∧ header_len = TRAILER_SECTION_HEADER_LEN_V1)
        (.TrailerSectionInvalid ("unsupported trailer section header (magic=" ++ hex magic ++ ")"))
      let payload_len := (u32At ext 8).toNat
      let expected_crc := u32At ext 12
      let stop := header_len + payload_len
      ensure (stop ≤ ext.length) (.TrailerSectionInvalid "trailer section payload out of bounds")
      let payload := slice ext header_len stop
      ensure (crc32c payload = expected_crc)
        (.TrailerSectionInvalid ("trailer section crc mismatch (magic=" ++ hex magic ++ ")"))
      let acc ← takeSection magic payload acc
      trailer_sections_loop fuel (ext.drop stop) acc

/-- The checks on the sections once all are read. -/
def finishTrailer (s : TrailerSections) : Result TrailerIndexV1 :=
  match s.blk_section with
  | none => .error (.TrailerSectionInvalid "missing BLK1 section")
  | some (record_block_uncompressed_max_len, bloom_bytes_per_block, bloom_hash_k, blocks) =>
    match s.tbo_section with
    | none => .error (.TrailerSectionInvalid "missing TBO1 section")
    | some toc_by_offset =>
      match s.tsi_section with
      | none => .error (.TrailerSectionInvalid "missing TSI1 section")
      | some toc_sorted_idx => do
        ensure (toc_sorted_idx.length = toc_by_offset.length)
          (.TrailerSectionInvalid "toc_sorted_idx length does not match toc_by_offset length")
        ensure (∀ idx ∈ toc_sorted_idx, idx.toNat < toc_by_offset.length)
          (.TrailerSectionInvalid "toc_sorted_idx contains out-of-bounds index")
        return { record_block_uncompressed_max_len, bloom_bytes_per_block, bloom_hash_k, blocks, toc_by_offset,
                 toc_sorted_idx }

def decode_trailer_index_v1 (toc_area : Bytes) (toc_header : TocHeaderV1) : Result (Option TrailerIndexV1) := do
  let payload_len := toc_header.toc_payload_len.toNat
  let crc_tables_len := toc_header.crc_tables_len.toNat
  ensure (payload_len + crc_tables_len < 2 ^ 64) .BufferTooSmall
  let ext_off := payload_len + crc_tables_len
  ensure (ext_off ≤ toc_area.length) (.TrailerSectionInvalid "toc header extension offset out of bounds")
  let ext := toc_area.drop ext_off
  if ext = [] then return none
  let sections ← trailer_sections_loop ext.length ext {}
  let trailer ← finishTrailer sections
  return some trailer

/-! ## What is written is read back -/

@[simp] theorem length_encode_blk1_payload (blocks : List BlockMetaV1) :
    (encode_blk1_payload blocks).length = 16 + blocks.length * BLOCK_META_V1_LEN := by
  simp [encode_blk1_payload]
  omega

@[simp] theorem length_encode_tbo1_payload (entries : List TocByOffsetEntryV1) :
    (encode_tbo1_payload entries).length = 8 + entries.length * TOC_BY_OFFSET_ENTRY_V1_LEN := by
  simp [encode_tbo1_payload]
  omega

@[simp] theorem length_encode_tsi1_payload (idx : List UInt32) : (encode_tsi1_payload idx).length = 8 + idx.length * 4 := by
  simp [encode_tsi1_payload]
  omega

@[simp] theorem length_encode_trailer_section_v1 (magic : UInt32) (payload : Bytes) :
    (encode_trailer_section_v1 magic payload).length = TRAILER_SECTION_HEADER_LEN_V1 + payload.length := by
  simp [encode_trailer_section_v1, TRAILER_SECTION_HEADER_LEN_V1]
  omega

theorem decode_blk1_payload_encode (blocks : List BlockMetaV1) (h : blocks.length ≤ U32_MAX) :
    decode_blk1_payload (encode_blk1_payload blocks) =
      .ok (RECORD_BLOCK_UNCOMPRESSED_MAX_LEN_V1, UInt32.ofNat BLOOM_BYTES_PER_BLOCK_V1, BLOOM_HASH_K_V1,
        blocks.map readBack) := by
  have counted := toNat_u32_of_le h
  have bloom : (UInt32.ofNat BLOOM_BYTES_PER_BLOCK_V1).toNat = BLOOM_BYTES_PER_BLOCK_V1 := by decide
  have table := decodeEach_flatMap_map length_encode_block_meta_v1 decode_block_meta_v1_encode blocks
    (u32le RECORD_BLOCK_UNCOMPRESSED_MAX_LEN_V1 ++ u32le (UInt32.ofNat BLOOM_BYTES_PER_BLOCK_V1) ++
      u32le BLOOM_HASH_K_V1 ++ u32le (UInt32.ofNat blocks.length)) []
  rw [append_nil] at table
  change decodeEach _ _ (encode_blk1_payload blocks) _ _ = _ at table
  simp at table
  have fields : u32At (encode_blk1_payload blocks) 0 = RECORD_BLOCK_UNCOMPRESSED_MAX_LEN_V1 ∧
      u32At (encode_blk1_payload blocks) 4 = UInt32.ofNat BLOOM_BYTES_PER_BLOCK_V1 ∧
      u32At (encode_blk1_payload blocks) 8 = BLOOM_HASH_K_V1 ∧
      u32At (encode_blk1_payload blocks) 12 = UInt32.ofNat blocks.length := by
    simp [encode_blk1_payload, u32At_skip]
  obtain ⟨max, bytes, k, count⟩ := fields
  unfold decode_blk1_payload
  simp only [max, bytes, k, count, counted, bloom, length_encode_blk1_payload, ensure_of_true, ok_bind, table]
  rw [ensure_true _ (by omega)]
  rfl

theorem decode_tbo1_payload_encode (entries : List TocByOffsetEntryV1) (h : entries.length ≤ U32_MAX) :
    decode_tbo1_payload (encode_tbo1_payload entries) = .ok entries := by
  have counted := toNat_u32_of_le h
  have size : (UInt32.ofNat TOC_BY_OFFSET_ENTRY_V1_LEN).toNat = TOC_BY_OFFSET_ENTRY_V1_LEN := by decide
  have table := decodeEach_flatMap length_encode_toc_by_offset_entry_v1 decode_toc_by_offset_entry_v1_encode entries
    (u32le (UInt32.ofNat TOC_BY_OFFSET_ENTRY_V1_LEN) ++ u32le (UInt32.ofNat entries.length)) []
  rw [append_nil] at table
  change decodeEach _ _ (encode_tbo1_payload entries) _ _ = _ at table
  simp at table
  have fields : u32At (encode_tbo1_payload entries) 0 = UInt32.ofNat TOC_BY_OFFSET_ENTRY_V1_LEN ∧
      u32At (encode_tbo1_payload entries) 4 = UInt32.ofNat entries.length := by
    simp [encode_tbo1_payload, u32At_skip]
  obtain ⟨len, count⟩ := fields
  unfold decode_tbo1_payload
  simp only [len, count, counted, size, ensure_of_true, ok_bind, length_encode_tbo1_payload, table]
  rw [ensure_true _ (by omega)]
  rfl

theorem decode_tsi1_payload_encode (idx : List UInt32) (h : idx.length ≤ U32_MAX) :
    decode_tsi1_payload (encode_tsi1_payload idx) = .ok idx := by
  have counted := toNat_u32_of_le h
  have back : ∀ x : UInt32, decodeIndex (u32le x) = .ok x := by
    intro x
    rw [decodeIndex, u32At_last]
  have table := decodeEach_flatMap length_u32le back idx (u32le (UInt32.ofNat idx.length) ++ u32le 0) []
  rw [append_nil] at table
  change decodeEach _ _ (encode_tsi1_payload idx) _ _ = _ at table
  simp at table
  have count : u32At (encode_tsi1_payload idx) 0 = UInt32.ofNat idx.length := by
    simp [encode_tsi1_payload]
  unfold decode_tsi1_payload
  simp only [count, counted, ensure_of_true, ok_bind, length_encode_tsi1_payload, table]
  rw [ensure_true _ (by omega)]
  rfl

theorem ofLe_all_zero (h : bs.all (· == 0)) : ofLe bs = 0 := by
  induction bs with
  | nil => rfl
  | cons b rest ih =>
    simp only [all_cons, Bool.and_eq_true, beq_iff_eq] at h
    simp [ofLe, h.1, ih h.2]

/-- A section with a magic is never taken for padding. -/
theorem section_not_zero (nonzero : magic ≠ 0) (payload rest : Bytes) :
    ((encode_trailer_section_v1 magic payload ++ rest).all (· == 0)) = false := by
  by_contra padding
  rw [Bool.not_eq_false] at padding
  simp only [encode_trailer_section_v1, all_append, Bool.and_eq_true] at padding
  have zero := ofLe_all_zero padding.1.1.1.1.1.1.1
  have back := ofLe_u32le magic
  rw [zero] at back
  exact nonzero back.symm

theorem trailer_sections_loop_section (nonzero : magic ≠ 0) (short : payload.length ≤ U32_MAX) (fuel : Nat) (rest : Bytes)
    (acc : TrailerSections) :
    trailer_sections_loop (fuel + 1) (encode_trailer_section_v1 magic payload ++ rest) acc =
      takeSection magic payload acc >>= trailer_sections_loop fuel rest := by
  have fields : u32At (encode_trailer_section_v1 magic payload ++ rest) 0 = magic ∧
      u16At (encode_trailer_section_v1 magic payload ++ rest) 4 = 1 ∧
      u16At (encode_trailer_section_v1 magic payload ++ rest) 6 = UInt16.ofNat TRAILER_SECTION_HEADER_LEN_V1 ∧
      u32At (encode_trailer_section_v1 magic payload ++ rest) 8 = UInt32.ofNat payload.length ∧
      u32At (encode_trailer_section_v1 magic payload ++ rest) 12 = crc32c payload := by
    simp [encode_trailer_section_v1, u32At_skip, u16At_skip]
  obtain ⟨hmagic, hver, hlen, hplen, hcrc⟩ := fields
  have width : (UInt16.ofNat TRAILER_SECTION_HEADER_LEN_V1).toNat = TRAILER_SECTION_HEADER_LEN_V1 := by decide
  have long : TRAILER_SECTION_HEADER_LEN_V1 ≤ (encode_trailer_section_v1 magic payload ++ rest).length := by
    simp; omega
  have fits : TRAILER_SECTION_HEADER_LEN_V1 + payload.length ≤ (encode_trailer_section_v1 magic payload ++ rest).length := by
    simp
  have inner : slice (encode_trailer_section_v1 magic payload ++ rest) TRAILER_SECTION_HEADER_LEN_V1
      (TRAILER_SECTION_HEADER_LEN_V1 + payload.length) = payload := by
    unfold encode_trailer_section_v1
    rw [append_assoc]
    exact slice_mid _ _ _ _ _ (by simp [TRAILER_SECTION_HEADER_LEN_V1]) (by simp [TRAILER_SECTION_HEADER_LEN_V1])
  have after : (encode_trailer_section_v1 magic payload ++ rest).drop (TRAILER_SECTION_HEADER_LEN_V1 + payload.length) =
      rest := drop_left' (by simp)
  unfold trailer_sections_loop
  simp only [section_not_zero nonzero, Bool.false_eq_true, if_false, hmagic, hver, hlen, hplen, hcrc, width,
    toNat_u32_of_le short, long, fits, inner, after, ensure_of_true, ok_bind, and_self]

theorem trailer_sections_loop_padding (fuel pad : Nat) (acc : TrailerSections) :
    trailer_sections_loop fuel (zeros pad) acc = .ok acc := by
  cases fuel with
  | zero => rfl
  | succ fuel => simp [trailer_sections_loop, zeros]

/-- The index a reader of the three sections holds. -/
def trailerOf (blocks : List BlockMetaV1) (toc_by_offset : List TocByOffsetEntryV1) (toc_sorted_idx : List UInt32) :
    TrailerIndexV1 :=
  { record_block_uncompressed_max_len := RECORD_BLOCK_UNCOMPRESSED_MAX_LEN_V1
    bloom_bytes_per_block := UInt32.ofNat BLOOM_BYTES_PER_BLOCK_V1, bloom_hash_k := BLOOM_HASH_K_V1
    blocks := blocks.map readBack, toc_by_offset, toc_sorted_idx }

/-- The three sections as the walk collects them. -/
def sectionsOf (blocks : List BlockMetaV1) (tbo : List TocByOffsetEntryV1) (tsi : List UInt32) : TrailerSections :=
  { blk_section := some (RECORD_BLOCK_UNCOMPRESSED_MAX_LEN_V1, UInt32.ofNat BLOOM_BYTES_PER_BLOCK_V1,
      BLOOM_HASH_K_V1, blocks.map readBack)
    tbo_section := some tbo
    tsi_section := some tsi }

variable {blocks : List BlockMetaV1} {tbo : List TocByOffsetEntryV1} {tsi : List UInt32}

theorem trailer_sections_loop_parts
    (fits : (encode_trailer_index_v1_from_parts blocks tbo tsi).length ≤ U32_MAX) (fuel pad : Nat) (acc : TrailerSections) :
    trailer_sections_loop (fuel + 3) (encode_trailer_index_v1_from_parts blocks tbo tsi ++ zeros pad) acc =
      .ok (sectionsOf blocks tbo tsi) := by
  simp [encode_trailer_index_v1_from_parts, BLOCK_META_V1_LEN, TOC_BY_OFFSET_ENTRY_V1_LEN] at fits
  have blk : takeSection TRAILER_MAGIC_BLK1 (encode_blk1_payload blocks) acc =
      .ok { acc with blk_section := some (RECORD_BLOCK_UNCOMPRESSED_MAX_LEN_V1,
        UInt32.ofNat BLOOM_BYTES_PER_BLOCK_V1, BLOOM_HASH_K_V1, blocks.map readBack) } := by
    simp [takeSection, decode_blk1_payload_encode blocks (by omega)]
  have tboDec (s : TrailerSections) : takeSection TRAILER_MAGIC_TBO1 (encode_tbo1_payload tbo) s =
      .ok { s with tbo_section := some tbo } := by
    simp [takeSection, decode_tbo1_payload_encode tbo (by omega), TRAILER_MAGIC_TBO1, TRAILER_MAGIC_BLK1]
  have tsiDec (s : TrailerSections) : takeSection TRAILER_MAGIC_TSI1 (encode_tsi1_payload tsi) s =
      .ok { s with tsi_section := some tsi } := by
    simp [takeSection, decode_tsi1_payload_encode tsi (by omega), TRAILER_MAGIC_TBO1, TRAILER_MAGIC_BLK1,
      TRAILER_MAGIC_TSI1]
  unfold encode_trailer_index_v1_from_parts
  rw [append_assoc, append_assoc,
    trailer_sections_loop_section (by decide) (by simp [BLOCK_META_V1_LEN]; omega), blk, ok_bind,
    trailer_sections_loop_section (by decide) (by simp [TOC_BY_OFFSET_ENTRY_V1_LEN]; omega), tboDec, ok_bind,
    trailer_sections_loop_section (by decide) (by simp; omega), tsiDec, ok_bind, trailer_sections_loop_padding]
  rfl

theorem finishTrailer_parts (count : tsi.length = tbo.length) (inside : ∀ idx ∈ tsi, idx.toNat < tbo.length) :
    finishTrailer (sectionsOf blocks tbo tsi) = .ok (trailerOf blocks tbo tsi) := by
  unfold finishTrailer sectionsOf
  simp [ensure_true _ count, ensure_true _ inside]
  rfl

theorem length_parts_pos (blocks : List BlockMetaV1) (tbo : List TocByOffsetEntryV1) (tsi : List UInt32) :
    96 ≤ (encode_trailer_index_v1_from_parts blocks tbo tsi).length := by
  simp [encode_trailer_index_v1_from_parts, TRAILER_SECTION_HEADER_LEN_V1]
  omega

theorem decode_trailer_index_v1_parts (start : hdr.toc_payload_len.toNat + hdr.crc_tables_len.toNat = front.length)
    (small : front.length < 2 ^ 64) (fits : (encode_trailer_index_v1_from_parts blocks tbo tsi).length ≤ U32_MAX)
    (count : tsi.length = tbo.length) (inside : ∀ idx ∈ tsi, idx.toNat < tbo.length) (pad : Nat) :
    decode_trailer_index_v1 (front ++ (encode_trailer_index_v1_from_parts blocks tbo tsi ++ zeros pad)) hdr =
      .ok (some (trailerOf blocks tbo tsi)) := by
  have pos := length_parts_pos blocks tbo tsi
  generalize hext : encode_trailer_index_v1_from_parts blocks tbo tsi ++ zeros pad = ext
  have long : 3 ≤ ext.length := by rw [← hext]; simp; omega
  have loop : trailer_sections_loop ext.length ext {} = .ok (sectionsOf blocks tbo tsi) := by
    rw [← Nat.sub_add_cancel long, ← hext]
    exact trailer_sections_loop_parts fits _ pad {}
  have after : (front ++ ext).drop front.length = ext := drop_left' rfl
  have nonempty : ext ≠ [] := by
    intro none
    rw [none] at long
    simp at long
  unfold decode_trailer_index_v1
  simp only [start, ensure_true _ small, after, nonempty, if_false, loop, finishTrailer_parts count inside, ok_bind]
  rw [ensure_true _ (by simp)]
  rfl

end Crux.Segment
