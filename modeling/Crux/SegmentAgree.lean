import Crux.SegmentRoundTrip

/-!
# The builder and the sealer agree

The builder encodes the frames itself, the sealer takes them encoded. Both come
down to the same condition on where the frames stand and the same assembly; the
sealer asks in addition that the record area is no longer than a `u32` says.
-/

namespace Crux.Segment
open Crux.Bytes List

/-- The encoded frames, one after another. -/
def encodeFrames : List FrameInput → Result Bytes
  | [] => .ok []
  | f :: rest => do
    let frame_bytes ← encode_frame_v1 f.header_bytes f.payload_bytes
    let later ← encodeFrames rest
    return frame_bytes ++ later

/-- The record of a frame that stands at an offset of the record area. -/
def frameMetaAt (P : Primitives) (off : Nat) (f : FrameInput) : FrameMetaV1 :=
  { stream_hash := f.stream_hash, seq := f.seq, record_off := UInt32.ofNat off
    frame_len := UInt32.ofNat (bytesOf f).length, payload_len := UInt32.ofNat f.payload_bytes.length
    event_id_hash16 := fixed 16 ((P.blake3 f.event_id).val.take 16)
    header_digest8 := fixed 8 (f.header_hash.val.take 8), payload_digest8 := fixed 8 (f.payload_hash.val.take 8) }

/-- The sealer on the encoded frames and their contiguous records. -/
def sealEncoded (P : Primitives) (a : SegmentArgs) (record_block_codec : UInt32) (frames : List FrameInput) :
    Result SegmentBuildOutput := do
  let record_area ← encodeFrames frames
  seal_segment_v1_from_record_area_with_block_codec P a record_block_codec record_area (layFrom (frameMetaAt P) 0 frames)

/-- Both fail, or both give the same segment: bytes, footer and all. -/
def Agree (r r' : Result SegmentBuildOutput) : Prop :=
  (∃ out, r = .ok out ∧ r' = .ok out) ∨ ((∃ e, r = .error e) ∧ ∃ e, r' = .error e)

theorem agree_of_iff (h : ∀ out, r = .ok out ↔ r' = .ok out) : Agree r r' := by
  cases r with
  | ok out => exact .inl ⟨out, rfl, (h out).mp rfl⟩
  | error e =>
    cases r' with
    | ok out => exact absurd ((h out).mpr rfl) (by simp)
    | error e' => exact .inr ⟨⟨e, rfl⟩, ⟨e', rfl⟩⟩

theorem error_of_not_ok {r : Result SegmentBuildOutput} (h : ∀ out, r ≠ .ok out) : ∃ e, r = .error e := by
  cases r with
  | ok out => exact absurd rfl (h out)
  | error e => exact ⟨e, rfl⟩

/-- The lengths of the frame fit their fields. -/
def Encodable (f : FrameInput) : Prop := f.header_bytes.length ≤ 65535 ∧ f.payload_bytes.length ≤ U32_MAX

variable {frames : List FrameInput} {area : Bytes}

theorem encodeFrames_ok_iff : encodeFrames frames = .ok area ↔ (∀ f ∈ frames, Encodable f) ∧ area = frames.flatMap bytesOf := by
  induction frames generalizing area with
  | nil => simp [encodeFrames]
  | cons f rest ih =>
    rw [encodeFrames, bind_ok_iff]
    constructor
    · rintro ⟨frame_bytes, encoded, h⟩
      rw [bind_ok_iff] at h
      obtain ⟨later, hlater, h⟩ := h
      obtain ⟨header, payload, rfl⟩ := encode_frame_v1_ok_iff.mp encoded
      obtain ⟨fit, rfl⟩ := ih.mp hlater
      cases h
      exact ⟨forall_mem_cons.mpr ⟨⟨header, payload⟩, fit⟩, rfl⟩
    · rintro ⟨fit, rfl⟩
      obtain ⟨⟨header, payload⟩, fit⟩ := forall_mem_cons.mp fit
      exact ⟨bytesOf f, encode_frame_v1_ok_iff.mpr ⟨header, payload, rfl⟩,
        by rw [ih.mpr ⟨fit, rfl⟩]; rfl⟩

theorem encodable_of_placeable (h : AllPlaceable off frames) : ∀ f ∈ frames, Encodable f := by
  induction frames generalizing off with
  | nil => intro f hf; cases hf
  | cons f rest ih => exact forall_mem_cons.mpr ⟨⟨h.1.header, h.1.payload⟩, ih h.2⟩

variable {P : Primitives}

theorem pushFrame_of_placeable (h : Placeable st.record_area.length f) : ∃ st', pushFrame P st f = .ok st' := by
  have encoded := encode_frame_v1_ok_iff.mpr ⟨h.header, h.payload, rfl⟩
  have inside : st.record_area.length ≤ U32_MAX := le_trans (Nat.le_add_left _ _) h.offset
  have frame : (frameBytes f.header_bytes f.payload_bytes).length ≤ U32_MAX := h.frame
  unfold pushFrame
  dsimp only
  rw [ensure_true _ inside, ok_bind, ensure_true _ h.offset, ok_bind, encoded, ok_bind, ensure_true _ frame, ok_bind]
  exact ⟨_, rfl⟩

theorem pushFrames_of_placeable (st : FrameLoop)
    (h : AllPlaceable st.record_area.length frames) : ∃ st', pushFrames P st frames = .ok st' := by
  induction frames generalizing st with
  | nil => exact ⟨st, rfl⟩
  | cons f rest ih =>
    obtain ⟨mid, first⟩ := pushFrame_of_placeable (P := P) h.1
    obtain ⟨_, rfl⟩ := pushFrame_ok first
    obtain ⟨st', later⟩ := ih { record_area := st.record_area ++ bytesOf f
                                toc_entries := st.toc_entries ++ [entryAt P st.record_area.length f]
                                frames_by_offset := st.frames_by_offset ++ [metaAt P st.record_area.length f] }
      (by rw [length_append]; exact h.2)
    exact ⟨st', by rw [pushFrames, first, ok_bind, later]⟩

/-- What the sealer has gathered when it stands before the frame at an offset. -/
def sealedTo (off : Nat) (toc_entries : List TocEntryV1) (tmp : List FrameMetaTmp) : SealLoop :=
  { toc_entries, tmp, expected_off := UInt32.ofNat off }

theorem sealFrame_ok_iff (toc_entries : List TocEntryV1) (tmp : List FrameMetaTmp) (fits : Encodable f)
    (small : area.length ≤ U32_MAX) (inside : off + (bytesOf f).length ≤ area.length) :
    sealFrame area (sealedTo off toc_entries tmp) (frameMetaAt P off f) = .ok st' ↔ Placeable off f ∧
        st' = sealedTo (off + (bytesOf f).length) (toc_entries ++ [entryAt P off f]) (tmp ++ [metaAt P off f]) := by
  have start : (UInt32.ofNat off).toNat = off := toNat_u32_of_le (by omega)
  have len : (UInt32.ofNat (bytesOf f).length).toNat = (bytesOf f).length := toNat_u32_of_le (by omega)
  have stop : off + (bytesOf f).length ≤ U32_MAX := by omega
  have next : saturating_add32 (UInt32.ofNat off) (UInt32.ofNat (bytesOf f).length) =
      UInt32.ofNat (off + (bytesOf f).length) := by
    rw [saturating_add32, start, len, Nat.min_eq_left stop]
  have placeable : SEGMENT_HEADER_LEN + off ≤ U32_MAX ↔ Placeable off f :=
    ⟨fun h => ⟨h, fits.1, fits.2, by omega⟩, fun h => h.offset⟩
  unfold sealFrame
  rw [ensure_bind_ok, ensure_bind_ok, ensure_bind_ok, ensure_bind_ok]
  dsimp only [sealedTo, frameMetaAt]
  rw [start, len, next, placeable]
  simp only [stop, inside, true_and, pure, Except.pure, Except.ok.injEq]
  exact and_congr_right fun _ => eq_comm

theorem sealFrames_ok_iff (P : Primitives) (off : Nat) (toc_entries : List TocEntryV1) (tmp : List FrameMetaTmp)
    (fits : ∀ f ∈ frames, Encodable f) (small : area.length ≤ U32_MAX)
    (inside : off + (frames.flatMap bytesOf).length ≤ area.length) :
    sealFrames area (sealedTo off toc_entries tmp) (layFrom (frameMetaAt P) off frames) = .ok st' ↔ AllPlaceable off frames ∧
        st' = sealedTo (off + (frames.flatMap bytesOf).length) (toc_entries ++ layFrom (entryAt P) off frames)
          (tmp ++ layFrom (metaAt P) off frames) := by
  induction frames generalizing off toc_entries tmp with
  | nil => simp [layFrom, sealFrames, AllPlaceable, eq_comm]
  | cons f rest ih =>
    obtain ⟨here, later⟩ := forall_mem_cons.mp fits
    rw [flatMap_cons, length_append] at inside
    have here_inside : off + (bytesOf f).length ≤ area.length := by omega
    have rest_inside : off + (bytesOf f).length + (rest.flatMap bytesOf).length ≤ area.length := by omega
    rw [layFrom, sealFrames, bind_ok_iff]
    constructor
    · rintro ⟨mid, first, h⟩
      obtain ⟨placed, rfl⟩ := (sealFrame_ok_iff toc_entries tmp here small here_inside).mp first
      obtain ⟨more, rfl⟩ := (ih _ _ _ later rest_inside).mp h
      exact ⟨⟨placed, more⟩, by simp [layFrom, Nat.add_assoc]⟩
    · rintro ⟨⟨placed, more⟩, rfl⟩
      exact ⟨_, (sealFrame_ok_iff toc_entries tmp here small here_inside).mpr ⟨placed, rfl⟩,
        (ih _ _ _ later rest_inside).mpr ⟨more, by simp [layFrom, Nat.add_assoc]⟩⟩

/-! ## The entry points -/

variable {a : SegmentArgs} {codec : UInt32} {out : SegmentBuildOutput}

theorem build_ok_iff : build_segment_v1_with_block_codec P a codec frames = .ok out ↔ AllPlaceable 0 frames ∧
        finishSegment P a codec (frames.flatMap bytesOf) (layFrom (entryAt P) 0 frames) (layFrom (metaAt P) 0 frames) =
          .ok out := by
  unfold build_segment_v1_with_block_codec
  rw [bind_ok_iff]
  constructor
  · rintro ⟨st, pushed, h⟩
    obtain ⟨placed, rfl⟩ := pushFrames_ok pushed
    exact ⟨placed, h⟩
  · rintro ⟨placed, h⟩
    obtain ⟨st, pushed⟩ := pushFrames_of_placeable (P := P) {} placed
    obtain ⟨_, rfl⟩ := pushFrames_ok pushed
    exact ⟨_, pushed, h⟩

/-- The place where the sealer stops is a `u32`, so no longer record area is ever covered. -/
theorem seal_small (h : seal_segment_v1_from_record_area_with_block_codec P a codec area metas = .ok out) :
    area.length ≤ U32_MAX := by
  unfold seal_segment_v1_from_record_area_with_block_codec at h
  rw [bind_ok_iff] at h
  obtain ⟨st, _, h⟩ := h
  rw [ensure_bind_ok] at h
  have bound := st.expected_off.toNat_lt
  unfold U32_MAX
  omega

theorem sealEncoded_ok_iff : sealEncoded P a codec frames = .ok out ↔
      (frames.flatMap bytesOf).length ≤ U32_MAX ∧ AllPlaceable 0 frames ∧
        finishSegment P a codec (frames.flatMap bytesOf) (layFrom (entryAt P) 0 frames) (layFrom (metaAt P) 0 frames) =
          .ok out := by
  unfold sealEncoded
  rw [bind_ok_iff]
  constructor
  · rintro ⟨area, encoded, h⟩
    obtain ⟨fits, rfl⟩ := encodeFrames_ok_iff.mp encoded
    have small := seal_small h
    unfold seal_segment_v1_from_record_area_with_block_codec at h
    rw [bind_ok_iff] at h
    obtain ⟨st, looped, h⟩ := h
    obtain ⟨placed, rfl⟩ := (sealFrames_ok_iff P 0 [] [] fits small (by omega)).mp looped
    exact ⟨small, placed, (ensure_bind_ok.mp h).2⟩
  · rintro ⟨small, placed, h⟩
    have fits := encodable_of_placeable placed
    have looped := (sealFrames_ok_iff P 0 [] [] fits small (by omega)).mpr ⟨placed, rfl⟩
    refine ⟨_, encodeFrames_ok_iff.mpr ⟨fits, rfl⟩, ?_⟩
    unfold seal_segment_v1_from_record_area_with_block_codec
    rw [bind_ok_iff]
    refine ⟨_, looped, ensure_bind_ok.mpr ⟨?_, h⟩⟩
    simpa [sealedTo] using toNat_u32_of_le small

theorem finishSegment_plain_small (h : finishSegment P a RECORD_BLOCK_CODEC_NONE_V1 area toc_entries tmp = .ok out) :
    area.length ≤ U32_MAX := by
  obtain ⟨_, _, _, _, _, _, _, _, _, way⟩ := finishSegment_parts h
  rcases way with ⟨_, _, small, _⟩ | ⟨lz4, _⟩
  · exact small
  · exact absurd lz4 (by decide)

theorem align_up_le (v : Nat) : align_up v 4096 ≤ v + 4096 := by
  unfold align_up
  split_ifs <;> omega

theorem length_padUp_le (bytes : Bytes) : (padUp bytes).length ≤ bytes.length + 4096 := by
  have aligned := align_up_le bytes.length
  simp [padUp]
  omega

theorem block_crc32c_loop_le (block_size fuel : Nat) (bytes : Bytes) :
    (block_crc32c_loop block_size fuel bytes).length ≤ fuel := by
  induction fuel generalizing bytes with
  | zero => exact le_refl 0
  | succ fuel ih =>
    unfold block_crc32c_loop
    split_ifs
    · exact Nat.zero_le _
    · simpa using ih (bytes.drop block_size)

theorem block_crc32c_le (bytes : Bytes) (block_size : Nat) : (block_crc32c bytes block_size).length ≤ bytes.length := by
  unfold block_crc32c
  split_ifs
  · exact Nat.zero_le _
  · exact block_crc32c_loop_le _ _ _

theorem encodeToc_some (P : Primitives) (record_area : Bytes) (entries : List TocEntryV1) :
    ∃ toc, encodeToc P record_area entries = .ok toc ∧ toc.toc_payload.length = TOC_HEADER_LEN + entries.length * TOC_ENTRY_LEN ∧
      toc.record_crc32c_table.length ≤ record_area.length ∧
      toc.toc_crc32c_table.length ≤ TOC_HEADER_LEN + entries.length * TOC_ENTRY_LEN := by
  unfold encodeToc compute_toc_payload_hash
  dsimp only
  rw [ensure_true _ (by simp [encode_toc_payload_v1]), ok_bind]
  refine ⟨_, rfl, by simp, ?_, ?_⟩
  · dsimp only
    exact block_crc32c_le record_area _
  · dsimp only
    exact le_trans (block_crc32c_le _ _) (le_of_eq (length_encode_toc_payload_v1_with_hash _ _ _ _ _ _ _))

theorem assembleSegment_of_small (P : Primitives) (header : SegmentHeaderV1) (sealed_at : UInt64)
    (small : 5 * record_area.length + 320 * entries.length + ext.length + 10000 ≤ U32_MAX) :
    ∃ out, assembleSegment P header sealed_at entries record_area (.ok ext) true = .ok out := by
  obtain ⟨toc, made, payload, record_table, toc_table⟩ := encodeToc_some P record_area entries
  have area : (tocArea toc.toc_payload toc.record_crc32c_table toc.toc_crc32c_table ext true).length ≤
      4 * record_area.length + 320 * entries.length + ext.length + 5000 := by
    have aligned := align_up_le ((toc.toc_payload ++ toc.record_crc32c_table.flatMap u32le ++
      toc.toc_crc32c_table.flatMap u32le ++ ext).length + SEGMENT_FOOTER_LEN)
    simp [tocArea, TOC_HEADER_LEN, TOC_ENTRY_LEN] at *
    omega
  generalize harea : tocArea toc.toc_payload toc.record_crc32c_table toc.toc_crc32c_table ext true = toc_area at area
  have fits : FooterFits (footerOf P header sealed_at entries record_area toc_area toc.toc_header.toc_payload_hash) := by
    unfold FooterFits footerOf U32_MAX at *
    simp [SEGMENT_HEADER_LEN, SEGMENT_FOOTER_LEN]
    omega
  unfold assembleSegment
  rw [ensure_true _ (by omega), ok_bind, made, ok_bind, ok_bind]
  dsimp only
  rw [harea, ensure_true _ ⟨by unfold SEGMENT_HEADER_LEN; omega, by omega⟩, ok_bind,
    ensure_true _ (by unfold SEGMENT_HEADER_LEN SEGMENT_FOOTER_LEN; omega), ok_bind,
    encode_segment_footer_v1_ok_iff.mpr ⟨fits, rfl⟩, ok_bind]
  exact ⟨_, rfl⟩

/-- Blocks whose stored forms are short are stored, and the physical record area stays short. -/
theorem blocksStored_of_small (i : Nat) (acc : Bytes) (fits : ∀ c ∈ cuts, c.start + c.len ≤ unc.length ∧ c.len ≤ U32_MAX ∧
      (storeBlock P codec (slice unc c.start (c.start + c.len))).length ≤ bound)
    (small : acc.length + cuts.length * (bound + 8192) + 8192 ≤ U32_MAX) :
    ∃ final blocks, blocksStored P unc codec i acc cuts = .ok (final, blocks) ∧ blocks.length = cuts.length ∧
      final.length ≤ acc.length + cuts.length * (bound + 8192) := by
  induction cuts generalizing i acc with
  | nil => exact ⟨acc, [], rfl, rfl, by simp⟩
  | cons c cuts ih =>
    obtain ⟨⟨inside, len, stored⟩, later⟩ := forall_mem_cons.mp fits
    rw [length_cons, Nat.add_mul, Nat.one_mul] at small
    generalize hblock : storeBlock P codec (slice unc c.start (c.start + c.len)) = block at stored
    have acc_pad := length_padUp_le acc
    have block_pad := length_padUp_le block
    have aligned := align_up_le block.length
    have grown : (padUp acc ++ padUp block).length ≤ acc.length + (bound + 8192) := by
      rw [length_append]
      omega
    obtain ⟨final, blocks, rest, count, bounded⟩ := ih (i + 1) (padUp acc ++ padUp block) later (by omega)
    rw [blocksStored]
    dsimp only
    rw [hblock, ensure_true _ inside, ok_bind, ensure_true _ (by omega), ok_bind, ensure_true _ len, ok_bind,
      ensure_true _ (by unfold U32_MAX at small; unfold SEGMENT_HEADER_LEN; omega), ok_bind, ensure_true _ (by omega),
      ok_bind, rest, ok_bind]
    refine ⟨final, _, rfl, by simp [count], ?_⟩
    rw [length_cons, Nat.add_mul, Nat.one_mul]
    omega

theorem length_trailer_le (blocks : List BlockMetaV1) (cut : CutState) (tmp : List FrameMetaTmp) :
    (encode_trailer_index_v1_from_parts blocks (toc_by_offset_of cut tmp)
      (toc_sorted_idx_of (toc_by_offset_of cut tmp))).length ≤ 288 * blocks.length + 68 * tmp.length + 200 := by
  have count : (toc_by_offset_of cut tmp).length ≤ tmp.length := by
    simp [toc_by_offset_of]
  simp [encode_trailer_index_v1_from_parts, length_toc_sorted_idx_of, BLOCK_META_V1_LEN, TOC_BY_OFFSET_ENTRY_V1_LEN,
      TRAILER_SECTION_HEADER_LEN_V1]
  omega

theorem finishSegment_of_stored (sorted : is_sorted_toc (toc_entries.insertionSort tocLe) = true)
    (stored : blocksStored P area RECORD_BLOCK_CODEC_LZ4_V1 0 [] (cutBlocks P tmp).blocks = .ok (final, blocks))
    (small : 5 * final.length + 320 * (toc_entries.length + blocks.length + tmp.length) + 11000 ≤ U32_MAX) :
    ∃ out, finishSegment P a RECORD_BLOCK_CODEC_LZ4_V1 area toc_entries tmp = .ok out := by
  have trailer := length_trailer_le blocks (cutBlocks P tmp) tmp
  have codec : RECORD_BLOCK_CODEC_LZ4_V1 ≠ RECORD_BLOCK_CODEC_NONE_V1 := by decide
  have fits : 5 * final.length + 320 * (toc_entries.insertionSort tocLe).length +
      (encode_trailer_index_v1_from_parts blocks (toc_by_offset_of (cutBlocks P tmp) tmp)
        (toc_sorted_idx_of (toc_by_offset_of (cutBlocks P tmp) tmp))).length + 10000 ≤ U32_MAX := by
    rw [length_insertionSort]
    omega
  obtain ⟨out, assembled⟩ := assembleSegment_of_small P (headerOf a) a.sealed_at_unix_ns fits
  refine ⟨out, ?_⟩
  unfold finishSegment build_record_blocks_and_trailer_index_parts_v1
  dsimp only
  rw [ensure_true _ sorted, ok_bind, if_neg codec, ensure_true _ (.inr rfl), ok_bind, stored]
  exact assembled

/-- A frame of the empty stream with a payload of zeros. -/
def zeroFrame (n : Nat) (seq : UInt64) : FrameInput :=
  { stream_hash := 0, seq, event_id := [], header_hash := fixed 32 [], payload_hash := fixed 32 [], header_bytes := []
    payload_bytes := zeros n }

theorem length_bytesOf_zeroFrame (n : Nat) (seq : UInt64) : (bytesOf (zeroFrame n seq)).length = n + 16 := by
  simp [bytesOf, zeroFrame]
  omega

variable {n : Nat}

theorem oneRun_zeroFrame (long : 20 ≤ n) (seq : UInt64) : Reference.OneRun (bytesOf (zeroFrame n seq)) := by
  have len := length_bytesOf_zeroFrame n seq
  obtain ⟨m, rfl⟩ : ∃ m, n = m + 1 := ⟨n - 1, by omega⟩
  have parts : bytesOf (zeroFrame (m + 1) seq) = (framePrologue [] (zeros (m + 1)) ++ [0]) ++
      (List.replicate m 0 ++ u32le (crc32 (zeros (m + 1)))) := by
    simp [bytesOf]
    congr 1
  have head_len : (framePrologue [] (zeros (m + 1)) ++ [0]).length = 13 := by
    rw [length_append, length_framePrologue, length_singleton]
  refine ⟨by omega, ?_⟩
  rw [len]
  generalize framePrologue [] (zeros (m + 1)) = prologue at *
  generalize hcrc : u32le (crc32 (zeros (m + 1))) = closing at *
  have closing_len : closing.length = 4 := by rw [← hcrc, length_u32le]
  have repeated : (bytesOf (zeroFrame (m + 1) seq)).getD 12 0 = 0 := by
    have here : prologue.length = 12 := by simpa using head_len
    rw [parts, append_assoc, getD_eq_getElem?_getD, getElem?_append_right (by omega), here]
    rfl
  have first : (bytesOf (zeroFrame (m + 1) seq)).take 13 = prologue ++ [0] := by
    rw [parts, ← head_len, take_left]
  have last : (bytesOf (zeroFrame (m + 1) seq)).drop (m + 1 + 16 - 4) = closing := by
    rw [parts, ← append_assoc]
    exact drop_left' (by rw [length_append, head_len, length_replicate]; omega)
  rw [first, last, repeated, show m + 1 + 16 - 17 = m by omega]
  exact parts

theorem placeable_zeroFrames (short : n ≤ 2147483648) : AllPlaceable 0 [zeroFrame n 0, zeroFrame n 1] := by
  have first := length_bytesOf_zeroFrame n 0
  have second := length_bytesOf_zeroFrame n 1
  have payload : (zeroFrame n 0).payload_bytes.length ≤ U32_MAX ∧ (zeroFrame n 1).payload_bytes.length ≤ U32_MAX := by
    simp [zeroFrame, U32_MAX]
    omega
  refine ⟨⟨by decide, Nat.zero_le _, payload.1, ?_⟩, ⟨?_, Nat.zero_le _, payload.2, ?_⟩, trivial⟩ <;>
    unfold U32_MAX <;> first | omega | (unfold SEGMENT_HEADER_LEN; omega)

section
variable (long : 4194304 ≤ n) (short : n ≤ 2147483648)
include long short

theorem cutBlocks_zeroFrames : ∃ bloom bloom', (cutBlocks P (layFrom (metaAt P) 0 [zeroFrame n 0, zeroFrame n 1])).blocks =
      [{ start := 0, len := n + 16, bloom }, { start := n + 16, len := n + 16, bloom := bloom' }] := by
  have len : (n + 16) % 4294967296 = n + 16 := by omega
  have full : RECORD_BLOCK_UNCOMPRESSED_MAX_LEN_V1.toNat < n + 16 + (n + 16) := by
    have : RECORD_BLOCK_UNCOMPRESSED_MAX_LEN_V1.toNat = 4194304 := by decide
    omega
  simp [cutBlocks, layFrom, cutFrame, closeFull, closeLast, finalizeBlock, metaAt, len, full, length_bytesOf_zeroFrame]

theorem stored_zeroFrames : ∃ final blocks, blocksStored Reference.runPrimitives ([zeroFrame n 0, zeroFrame n 1].flatMap bytesOf)
      RECORD_BLOCK_CODEC_LZ4_V1 0 [] (cutBlocks Reference.runPrimitives
        (layFrom (metaAt Reference.runPrimitives) 0 [zeroFrame n 0, zeroFrame n 1])).blocks = .ok (final, blocks) ∧
      blocks.length = 2 ∧ final.length ≤ 20000000 := by
  obtain ⟨bloom, bloom', cut⟩ := cutBlocks_zeroFrames (P := Reference.runPrimitives) long short
  have first_len := length_bytesOf_zeroFrame n 0
  have second_len := length_bytesOf_zeroFrame n 1
  have area : [zeroFrame n 0, zeroFrame n 1].flatMap bytesOf = bytesOf (zeroFrame n 0) ++ bytesOf (zeroFrame n 1) := by
    simp
  have first : slice (bytesOf (zeroFrame n 0) ++ bytesOf (zeroFrame n 1)) 0 (0 + (n + 16)) = bytesOf (zeroFrame n 0) :=
    slice_here _ _ _ (by omega)
  have second : slice (bytesOf (zeroFrame n 0) ++ bytesOf (zeroFrame n 1)) (n + 16) (n + 16 + (n + 16)) =
      bytesOf (zeroFrame n 1) := by
    have := slice_mid (bytesOf (zeroFrame n 0)) (bytesOf (zeroFrame n 1)) [] (n + 16) (n + 16 + (n + 16)) first_len.symm
      (by omega)
    rwa [append_nil] at this
  have short_run : ∀ seq, (storeBlock Reference.runPrimitives RECORD_BLOCK_CODEC_LZ4_V1
      (bytesOf (zeroFrame n seq))).length ≤ 8421600 := by
    intro seq
    have run := Reference.length_lz4_compress_run (oneRun_zeroFrame (by omega : 20 ≤ n) seq)
    rw [length_bytesOf_zeroFrame] at run
    exact le_trans run (by omega)
  have fits : ∀ c ∈ [({ start := 0, len := n + 16, bloom } : BlockCut), { start := n + 16, len := n + 16, bloom := bloom' }],
      c.start + c.len ≤ (bytesOf (zeroFrame n 0) ++ bytesOf (zeroFrame n 1)).length ∧ c.len ≤ U32_MAX ∧
        (storeBlock Reference.runPrimitives RECORD_BLOCK_CODEC_LZ4_V1
          (slice (bytesOf (zeroFrame n 0) ++ bytesOf (zeroFrame n 1)) c.start (c.start + c.len))).length ≤ 8421600 := by
    have small : n + 16 ≤ U32_MAX := by unfold U32_MAX; omega
    rw [length_append, forall_mem_cons, forall_mem_singleton, first, second]
    dsimp only
    exact ⟨⟨by omega, small, short_run 0⟩, by omega, small, short_run 1⟩
  obtain ⟨final, blocks, stored, count, bounded⟩ := blocksStored_of_small 0 [] fits (by simp [U32_MAX])
  rw [cut, area]
  refine ⟨final, blocks, stored, count, le_trans bounded ?_⟩
  simp

theorem build_zeroFrames (a : SegmentArgs) :
    ∃ out, build_segment_v1_with_block_codec Reference.runPrimitives a RECORD_BLOCK_CODEC_LZ4_V1
      [zeroFrame n 0, zeroFrame n 1] = .ok out := by
  simp only [build_ok_iff]
  obtain ⟨final, blocks, stored, count, bounded⟩ := stored_zeroFrames long short
  have sorted : ∀ off off', is_sorted_toc (([entryAt Reference.runPrimitives off (zeroFrame n 0),
      entryAt Reference.runPrimitives off' (zeroFrame n 1)]).insertionSort tocLe) = true := by
    intro off off'
    simp [tocLe, entryAt, zeroFrame, is_sorted_toc]
  obtain ⟨out, finished⟩ := finishSegment_of_stored (a := a) (sorted _ _) stored
    (by rw [count]; simp only [layFrom, length_cons, length_nil, U32_MAX]; omega)
  exact ⟨out, placeable_zeroFrames short, finished⟩

end

end Crux.Segment
