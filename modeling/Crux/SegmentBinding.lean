import Crux.SegmentRoundTrip

/-!
# What the segment hash binds

The segment hash covers the header, the record area and the contents payload.
The trailer index that says where the blocks of the record stream are stored
is covered by checksums only. This module says what two files with one segment
hash share, and exactly when they hold the same frames.
-/

namespace Crux.Segment
open Crux.Bytes List

/-- The contents payload inside the contents area. -/
def tocPayloadIn (toc_area : Bytes) : Bytes := toc_area.take (u64At toc_area 40).toNat

/-- What a verified file satisfies. -/
structure Verified (P : Primitives) (bytes : Bytes) (p : SegmentParts) : Prop where
  header_hash : P.blake3 (bytes.take SEGMENT_HEADER_LEN) = p.footer.header_hash
  record_inside : p.footer.record_area_offset.toNat + p.footer.record_area_len.toNat ≤ bytes.length
  record_hash : P.blake3 (recordAreaOf bytes p.footer) = p.footer.record_hash
  toc_ends : p.footer.toc_offset.toNat + p.footer.toc_len.toNat + SEGMENT_FOOTER_LEN = bytes.length
  payload_long : TOC_HEADER_LEN ≤ (tocPayloadIn (tocAreaOf bytes p.footer)).length
  toc_header : decode_toc_header_v1 ((tocPayloadIn (tocAreaOf bytes p.footer)).take TOC_HEADER_LEN) = .ok p.toc_header
  toc_hash : p.toc_header.toc_payload_hash = p.footer.toc_payload_hash
  payload_hash : P.blake3 (tocPayloadMasked (tocPayloadIn (tocAreaOf bytes p.footer))) = p.toc_header.toc_payload_hash
  segment_hash : P.blake3 (p.footer.header_hash.val ++ p.footer.record_hash.val ++ p.footer.toc_payload_hash.val) =
    p.footer.segment_hash
  entries_inside : TOC_HEADER_LEN + p.toc_header.entry_count.toNat * TOC_ENTRY_LEN ≤
    (tocPayloadIn (tocAreaOf bytes p.footer)).length
  entries : decodeEach decode_toc_entry_v1 TOC_ENTRY_LEN (tocPayloadIn (tocAreaOf bytes p.footer))
    p.toc_header.entry_count.toNat TOC_HEADER_LEN = .ok p.entries

variable {P : Primitives} {bytes : Bytes} {p : SegmentParts}

theorem verified_of_decode (h : decode_segment_v1 P bytes = .ok p) : Verified P bytes p := by
  unfold decode_segment_v1 at h
  rw [ensure_bind_ok, bind_ok_iff] at h
  obtain ⟨_, header, _, h⟩ := h
  rw [bind_ok_iff] at h
  obtain ⟨footer, _, h⟩ := h
  rw [ensure_bind_ok, ensure_bind_ok, ensure_bind_ok, ensure_bind_ok, ensure_bind_ok, ensure_bind_ok, ensure_bind_ok,
    bind_ok_iff] at h
  obtain ⟨_, _, _, header_hash, record_inside, record_hash, toc_ends, ⟨toc_header, entries⟩, htoc, h⟩ := h
  cases h
  unfold decodeToc at htoc
  rw [ensure_bind_ok, bind_ok_iff] at htoc
  obtain ⟨_, plen, hplen, htoc⟩ := htoc
  obtain ⟨_, rfl⟩ := read_u64_ok_iff.mp hplen
  rw [ensure_bind_ok, bind_ok_iff] at htoc
  obtain ⟨⟨plen_inside, plen_long⟩, hdr, hhdr, htoc⟩ := htoc
  rw [ensure_bind_ok, bind_ok_iff] at htoc
  obtain ⟨toc_hash, computed, hcomputed, htoc⟩ := htoc
  rw [ensure_bind_ok, ensure_bind_ok, ensure_bind_ok, bind_ok_iff] at htoc
  obtain ⟨rfl, segment_hash, entries_inside, es, hes, htoc⟩ := htoc
  rw [ensure_bind_ok] at htoc
  obtain ⟨_, htoc⟩ := htoc
  obtain ⟨rfl, rfl⟩ := htoc
  unfold compute_toc_payload_hash at hcomputed
  rw [ensure_bind_ok] at hcomputed
  obtain ⟨_, hcomputed⟩ := hcomputed
  have payload_hash := Except.ok.inj hcomputed
  exact ⟨header_hash, record_inside, record_hash, toc_ends, by simpa [tocPayloadIn] using ⟨plen_long, by omega⟩, hhdr,
    toc_hash, payload_hash, segment_hash, entries_inside, hes⟩

/-- The hash function has no collision between what is hashed for one file and what is hashed for the other. -/
structure NoCollisions (P : Primitives) (a : Bytes) (pa : SegmentParts) (b : Bytes) (pb : SegmentParts) : Prop where
  headers : P.blake3 (a.take SEGMENT_HEADER_LEN) = P.blake3 (b.take SEGMENT_HEADER_LEN) →
    a.take SEGMENT_HEADER_LEN = b.take SEGMENT_HEADER_LEN
  records : P.blake3 (recordAreaOf a pa.footer) = P.blake3 (recordAreaOf b pb.footer) →
    recordAreaOf a pa.footer = recordAreaOf b pb.footer
  payloads : P.blake3 (tocPayloadMasked (tocPayloadIn (tocAreaOf a pa.footer))) =
      P.blake3 (tocPayloadMasked (tocPayloadIn (tocAreaOf b pb.footer))) →
    tocPayloadMasked (tocPayloadIn (tocAreaOf a pa.footer)) = tocPayloadMasked (tocPayloadIn (tocAreaOf b pb.footer))
  digests : P.blake3 (pa.footer.header_hash.val ++ pa.footer.record_hash.val ++ pa.footer.toc_payload_hash.val) =
      P.blake3 (pb.footer.header_hash.val ++ pb.footer.record_hash.val ++ pb.footer.toc_payload_hash.val) →
    pa.footer.header_hash.val ++ pa.footer.record_hash.val ++ pa.footer.toc_payload_hash.val =
      pb.footer.header_hash.val ++ pb.footer.record_hash.val ++ pb.footer.toc_payload_hash.val

theorem digests_inj {x y z x' y' z' : Digest} (h : x.val ++ y.val ++ z.val = x'.val ++ y'.val ++ z'.val) :
    x = x' ∧ y = y' ∧ z = z' := by
  have front := append_inj h (by simp)
  have parts := append_inj front.1 (by simp)
  exact ⟨Subtype.ext parts.1, Subtype.ext parts.2, Subtype.ext front.2⟩

/-- Two files with one segment hash share header, record area, contents payload up to its own hash, and that hash. -/
theorem same_hashed {a b : Bytes} (va : Verified P a pa) (vb : Verified P b pb) (free : NoCollisions P a pa b pb)
    (same : pa.footer.segment_hash = pb.footer.segment_hash) :
    a.take SEGMENT_HEADER_LEN = b.take SEGMENT_HEADER_LEN ∧ recordAreaOf a pa.footer = recordAreaOf b pb.footer ∧
      tocPayloadMasked (tocPayloadIn (tocAreaOf a pa.footer)) = tocPayloadMasked (tocPayloadIn (tocAreaOf b pb.footer)) ∧
      pa.toc_header.toc_payload_hash = pb.toc_header.toc_payload_hash := by
  have digests := free.digests (by rw [va.segment_hash, vb.segment_hash, same])
  obtain ⟨headers, records, payloads⟩ := digests_inj digests
  have toc : pa.toc_header.toc_payload_hash = pb.toc_header.toc_payload_hash := by
    rw [va.toc_hash, vb.toc_hash, payloads]
  exact ⟨free.headers (by rw [va.header_hash, vb.header_hash, headers]),
    free.records (by rw [va.record_hash, vb.record_hash, records]),
    free.payloads (by rw [va.payload_hash, vb.payload_hash, toc]), toc⟩

theorem decode_toc_header_v1_ok (h : decode_toc_header_v1 bytes = .ok t) :
    t = { entry_count := u64At bytes 8, record_block_size := u32At bytes 16, toc_block_size := u32At bytes 20,
          record_area_offset := u64At bytes 24, record_area_len := u64At bytes 32, toc_payload_len := u64At bytes 40,
          crc_tables_len := u64At bytes 48, sort_order := u64At bytes 56, toc_payload_hash := t.toc_payload_hash } := by
  unfold decode_toc_header_v1 at h
  simp only [bind_ok_iff, read_u32_ok_iff, read_u16_ok_iff, read_u64_ok_iff] at h
  obtain ⟨_, _, _, _, _, _, _, _, _, _, _, _, _, _, _, _, _, _, n, ⟨_, rfl⟩, bs, ⟨_, rfl⟩, ts, ⟨_, rfl⟩, off, ⟨_, rfl⟩,
    len, ⟨_, rfl⟩, plen, ⟨_, rfl⟩, clen, ⟨_, rfl⟩, order, ⟨_, rfl⟩, h⟩ := h
  cases h
  rfl

variable {off : Nat}

theorem u64At_take (inside : off + 8 ≤ n) (long : n ≤ bytes.length) : u64At bytes off = u64At (bytes.take n) off := by
  conv_lhs => rw [← take_append_drop n bytes, u64At, slice_within _ _ _ _ (by simp; omega)]
  rfl

theorem u32At_take (inside : off + 4 ≤ n) (long : n ≤ bytes.length) : u32At bytes off = u32At (bytes.take n) off := by
  conv_lhs => rw [← take_append_drop n bytes, u32At, slice_within _ _ _ _ (by simp; omega)]
  rfl

theorem masked_parts (long : TOC_HEADER_LEN ≤ x.length) :
    (tocPayloadMasked x).take 72 = x.take 72 ∧ (tocPayloadMasked x).drop TOC_HEADER_LEN = x.drop TOC_HEADER_LEN := by
  have front : (x.take 72).length = 72 := by unfold TOC_HEADER_LEN at long; simp; omega
  have mid : (slice x 104 (TOC_HEADER_LEN - 4)).length = 20 := length_slice (by omega)
  unfold tocPayloadMasked
  constructor
  · rw [append_assoc, append_assoc, append_assoc]
    exact take_left' front
  · exact drop_left' (by simp [front, mid]; rfl)

theorem same_entries (va : Verified P a pa) (vb : Verified P b pb)
    (masked : tocPayloadMasked (tocPayloadIn (tocAreaOf a pa.footer)) = tocPayloadMasked (tocPayloadIn (tocAreaOf b pb.footer)))
    (hash : pa.toc_header.toc_payload_hash = pb.toc_header.toc_payload_hash) :
    pa.toc_header = pb.toc_header ∧ pa.entries = pb.entries := by
  have la := va.payload_long
  have lb := vb.payload_long
  have ha := decode_toc_header_v1_ok va.toc_header
  have hb := decode_toc_header_v1_ok vb.toc_header
  have ea := va.entries
  have eb := vb.entries
  generalize tocPayloadIn (tocAreaOf a pa.footer) = x at *
  generalize tocPayloadIn (tocAreaOf b pb.footer) = y at *
  have front : x.take 72 = y.take 72 := by rw [← (masked_parts la).1, ← (masked_parts lb).1, masked]
  have rest : x.drop TOC_HEADER_LEN = y.drop TOC_HEADER_LEN := by
    rw [← (masked_parts la).2, ← (masked_parts lb).2, masked]
  have short : ∀ z : Bytes, (z.take TOC_HEADER_LEN).take 72 = z.take 72 := by
    intro z
    rw [take_take]
    rfl
  have cut : ∀ z : Bytes, TOC_HEADER_LEN ≤ z.length → 72 ≤ (z.take TOC_HEADER_LEN).length := by
    intro z long
    rw [length_take, Nat.min_eq_left long]
    decide
  have words (off : Nat) (inside : off + 8 ≤ 72) : u64At (x.take TOC_HEADER_LEN) off = u64At (y.take TOC_HEADER_LEN) off := by
    rw [u64At_take inside (cut x la), u64At_take inside (cut y lb), short, short, front]
  have halves (off : Nat) (inside : off + 4 ≤ 72) :
      u32At (x.take TOC_HEADER_LEN) off = u32At (y.take TOC_HEADER_LEN) off := by
    rw [u32At_take inside (cut x la), u32At_take inside (cut y lb), short, short, front]
  have head : pa.toc_header = pb.toc_header := by
    rw [ha, hb, hash, words 8 (by decide), halves 16 (by decide), halves 20 (by decide), words 24 (by decide),
      words 32 (by decide), words 40 (by decide), words 48 (by decide), words 56 (by decide)]
  refine ⟨head, ?_⟩
  have table : decodeEach decode_toc_entry_v1 TOC_ENTRY_LEN x pa.toc_header.entry_count.toNat TOC_HEADER_LEN =
      decodeEach decode_toc_entry_v1 TOC_ENTRY_LEN y pa.toc_header.entry_count.toNat TOC_HEADER_LEN := by
    apply decodeEach_congr
    unfold slice
    rw [rest]
  rw [ea, head, eb] at table
  exact Except.ok.inj table

/-- The byte the blocks of an index place at an offset of the record stream. -/
def placedIn (P : Primitives) (file : Bytes) : List BlockMetaV1 → Nat → Option UInt8
  | [], _ => none
  | block :: rest, off =>
    if off < block.uncompressed_len.toNat then
      match decodeRecordBlock P file block with
      | .ok plain => plain[off]?
      | .error _ => none
    else placedIn P file rest (off - block.uncompressed_len.toNat)

/-- The byte a file's trailer index places at an offset of the record stream; without an index, that of the record area. -/
def placedBy (P : Primitives) (file : Bytes) (footer : SegmentFooterV1) (trailer : Option TrailerIndexV1) (off : Nat) :
    Option UInt8 :=
  match trailer with
  | some t =>
    if t.blocks = [] then (recordAreaOf file footer)[off]? else placedIn P file (t.blocks.insertionSort blockIdLe) off
  | none => (recordAreaOf file footer)[off]?

def placedAt (P : Primitives) (file : Bytes) (p : SegmentParts) (off : Nat) : Option UInt8 :=
  match decode_trailer_index_v1 (tocAreaOf file p.footer) p.toc_header with
  | .ok trailer => placedBy P file p.footer trailer off
  | .error _ => none

variable {file : Bytes}

theorem decodeRecordBlock_length (h : decodeRecordBlock P file block = .ok plain) :
    plain.length = block.uncompressed_len.toNat := by
  unfold decodeRecordBlock at h
  rw [bind_ok_iff] at h
  obtain ⟨stored, _, h⟩ := h
  rw [bind_ok_iff] at h
  obtain ⟨p, _, h⟩ := h
  rw [ensure_bind_ok, ensure_bind_ok] at h
  obtain ⟨len, _, h⟩ := h
  cases h
  exact len

variable {stream : Bytes}

theorem concatBlocks_placed (h : concatBlocks P file blocks = .ok stream) (off : Nat) :
    stream[off]? = placedIn P file blocks off := by
  induction blocks generalizing stream off with
  | nil =>
    cases h
    rfl
  | cons block rest ih =>
    rw [concatBlocks, bind_ok_iff] at h
    obtain ⟨plain, first, h⟩ := h
    rw [bind_ok_iff] at h
    obtain ⟨later, hlater, h⟩ := h
    cases h
    have len := decodeRecordBlock_length first
    unfold placedIn
    rw [getElem?_append, len]
    split_ifs with inside
    · simp only [first]
    · exact ih hlater _

theorem stream_placed (v : Verified P file p)
    (h : reassemble_record_stream_v1 P file p.toc_header p.footer = .ok stream) (off : Nat) :
    stream[off]? = placedAt P file p off := by
  unfold reassemble_record_stream_v1 at h
  have area : getSlice file p.footer.toc_offset.toNat (p.footer.toc_offset.toNat + p.footer.toc_len.toNat) =
      .ok (tocAreaOf file p.footer) := getSlice_ok (by omega) (by have := v.toc_ends; omega)
  rw [area, ok_bind, bind_ok_iff] at h
  obtain ⟨trailer, htrailer, h⟩ := h
  have record : getSlice file p.footer.record_area_offset.toNat
      (p.footer.record_area_offset.toNat + p.footer.record_area_len.toNat) = .ok (recordAreaOf file p.footer) :=
    getSlice_ok (by omega) v.record_inside
  unfold placedAt placedBy
  rw [htrailer]
  unfold streamOf at h
  cases trailer with
  | none =>
    rw [record] at h
    cases h
    rfl
  | some t =>
    dsimp only at h ⊢
    split_ifs at h ⊢ with none
    · rw [record] at h
      cases h
      rfl
    · exact concatBlocks_placed h off

/-! ## When the frames agree -/

/-- A number read from placed bytes, least significant first. -/
def placedNumber (placed : Nat → Option UInt8) (off width : Nat) : Nat :=
  ofLe ((List.range width).map fun i => (placed (off + i)).getD 0)

/-- The end of the payload of the frame at an offset, as its length fields say. -/
def contentEnd (placed : Nat → Option UInt8) (off : Nat) : Nat :=
  off + 12 + placedNumber placed (off + 6) 2 + placedNumber placed (off + 8) 4

/-- Two placements agree on a frame from its length fields to the end of its payload. -/
def SameContent (here there : Nat → Option UInt8) (off : Nat) : Prop :=
  ∀ k, off + 6 ≤ k → k < contentEnd here off → here k = there k

variable {s : Bytes}

theorem placedNumber_eq (h : ∀ k, s[k]? = placed k) (inside : off + width ≤ s.length) :
    placedNumber placed off width = ofLe (slice s off (off + width)) := by
  unfold placedNumber
  congr 1
  apply ext_getElem?
  intro m
  rw [getElem?_slice, getElem?_map, Nat.add_sub_cancel_left]
  by_cases low : m < width
  · have here : off + m < s.length := by omega
    rw [getElem?_range low, if_pos low, Option.map_some, ← h, getElem?_eq_getElem here]
    rfl
  · rw [if_neg low, getElem?_eq_none (by simp; omega)]
    rfl

theorem decodeFrameAt_ok (h : decodeFrameAt s e = .ok f) (hoff : off = e.file_offset.toNat - SEGMENT_HEADER_LEN) :
    off + 12 + (u16At s (off + 6)).toNat + (u32At s (off + 8)).toNat ≤ s.length ∧
      f = { stream_hash := e.stream_hash, seq := e.seq, record_off := UInt32.ofNat off
            header_bytes := slice s (off + 12) (off + 12 + (u16At s (off + 6)).toNat)
            payload_bytes := slice s (off + 12 + (u16At s (off + 6)).toNat)
              (off + 12 + (u16At s (off + 6)).toNat + (u32At s (off + 8)).toNat) } := by
  unfold decodeFrameAt at h
  rw [bind_ok_iff] at h
  obtain ⟨⟨record_off, frame⟩, found, h⟩ := h
  unfold frame_slice_v1 at found
  rw [ensure_bind_ok, bind_ok_iff, ← hoff] at found
  obtain ⟨_, fr, hfr, found⟩ := found
  obtain ⟨rfl, rfl⟩ := found
  obtain ⟨_, inside, rfl⟩ := getSlice_ok_iff.mp hfr
  have len := length_slice (a := off) inside
  rw [Nat.add_sub_cancel_left] at len
  rw [bind_ok_iff] at h
  obtain ⟨⟨header_span, payload_span⟩, spans, h⟩ := h
  unfold frame_spans_v1 at spans
  rw [bind_ok_iff] at spans
  obtain ⟨magic, _, spans⟩ := spans
  rw [ensure_bind_ok, bind_ok_iff] at spans
  obtain ⟨_, hl, hhl, spans⟩ := spans
  rw [bind_ok_iff] at spans
  obtain ⟨pl, hpl, spans⟩ := spans
  obtain ⟨long6, rfl⟩ := read_u16_ok_iff.mp hhl
  obtain ⟨long8, rfl⟩ := read_u32_ok_iff.mp hpl
  obtain ⟨rfl, rfl⟩ := spans
  rw [len] at long6 long8
  have at6 : u16At (slice s off (off + e.frame_len.toNat)) 6 = u16At s (off + 6) := by
    rw [u16At, u16At, slice_slice _ _ _ _ _ (by omega), Nat.add_assoc]
  have at8 : u32At (slice s off (off + e.frame_len.toNat)) 8 = u32At s (off + 8) := by
    rw [u32At, u32At, slice_slice _ _ _ _ _ (by omega), Nat.add_assoc]
  rw [at6, at8] at h
  rw [bind_ok_iff] at h
  obtain ⟨header, hheader, h⟩ := h
  rw [bind_ok_iff] at h
  obtain ⟨payload, hpayload, h⟩ := h
  cases h
  obtain ⟨_, _, rfl⟩ := getSlice_ok_iff.mp hheader
  obtain ⟨_, fits, rfl⟩ := getSlice_ok_iff.mp hpayload
  rw [len] at fits
  rw [slice_slice _ _ _ _ _ (by omega), slice_slice _ _ _ _ _ (by omega)]
  refine ⟨by omega, ?_⟩
  simp only [← Nat.add_assoc]

variable {t : Bytes}

theorem slice_of_number (ls : off + w ≤ s.length) (lt : off + w ≤ t.length)
    (same : ofLe (slice s off (off + w)) % 256 ^ w = ofLe (slice t off (off + w)) % 256 ^ w) :
    slice s off (off + w) = slice t off (off + w) := by
  have sizes : (slice s off (off + w)).length = w := by rw [length_slice ls]; omega
  have sizet : (slice t off (off + w)).length = w := by rw [length_slice lt]; omega
  have boundS := ofLe_lt (slice s off (off + w))
  have boundT := ofLe_lt (slice t off (off + w))
  rw [sizes] at boundS
  rw [sizet] at boundT
  rw [Nat.mod_eq_of_lt boundS, Nat.mod_eq_of_lt boundT] at same
  exact ofLe_inj (by rw [sizes, sizet]) same

/-- Two streams give the same frame at an entry exactly when they agree from the length fields to the payload's end. -/
theorem frame_eq_iff (hf : decodeFrameAt s e = .ok f) (hg : decodeFrameAt t e = .ok g)
    (hoff : off = e.file_offset.toNat - SEGMENT_HEADER_LEN) :
    f = g ↔ slice s (off + 6) (off + 12 + (u16At s (off + 6)).toNat + (u32At s (off + 8)).toNat) =
      slice t (off + 6) (off + 12 + (u16At s (off + 6)).toNat + (u32At s (off + 8)).toNat) := by
  obtain ⟨ls, rfl⟩ := decodeFrameAt_ok hf hoff
  obtain ⟨lt, rfl⟩ := decodeFrameAt_ok hg hoff
  constructor
  · intro same
    simp at same
    obtain ⟨headers, payloads⟩ := same
    have hl := congrArg List.length headers
    rw [length_slice (by omega), length_slice (by omega)] at hl
    have hlen : (u16At s (off + 6)).toNat = (u16At t (off + 6)).toNat := by omega
    have pl := congrArg List.length payloads
    rw [length_slice (by omega), length_slice (by omega)] at pl
    have plen : (u32At s (off + 8)).toNat = (u32At t (off + 8)).toNat := by omega
    have first := slice_eq_iff.mp (slice_of_number (w := 2) (by omega) (by omega) hlen)
    have second := slice_eq_iff.mp (slice_of_number (w := 4) (by omega) (by omega) plen)
    rw [← hlen] at headers payloads
    rw [← plen] at payloads
    rw [slice_eq_iff] at headers payloads
    refine slice_eq_iff.mpr fun k low high => ?_
    rcases lt_or_ge k (off + 8) with in16 | after16
    · exact first k low (by omega)
    rcases lt_or_ge k (off + 12) with in32 | after32
    · exact second k after16 (by omega)
    rcases lt_or_ge k (off + 12 + (u16At s (off + 6)).toNat) with inHeader | afterHeader
    · exact headers k after32 inHeader
    · exact payloads k afterHeader high
  · intro same
    have number16 : u16At s (off + 6) = u16At t (off + 6) := by rw [u16At, u16At, slice_part same (by omega) (by omega)]
    have number32 : u32At s (off + 8) = u32At t (off + 8) := by rw [u32At, u32At, slice_part same (by omega) (by omega)]
    rw [← number16, ← number32]
    congr 1
    · exact slice_part same (by omega) (by omega)
    · exact slice_part same (by omega) (by omega)

variable {x : List SegmentFrameV1}

theorem eq_of_sorted_eq (keys : x.map SegmentFrameV1.record_off = y.map SegmentFrameV1.record_off)
    (sorted : x.insertionSort recordOffLe = y.insertionSort recordOffLe) : x = y := by
  have size : x.length = y.length := by simpa using congrArg List.length keys
  have agree : ∀ p ∈ x.zip y, p.1.record_off = p.2.record_off := by
    clear sorted
    induction x generalizing y with
    | nil => intro p member; simp at member
    | cons a x ih =>
      cases y with
      | nil => simp at size
      | cons b y =>
        simp at keys
        intro p member
        rcases mem_cons.mp member with rfl | member
        · exact keys.1
        · exact ih keys.2 (by simpa using size) p member
  have left : ((x.zip y).insertionSort fun p q => recordOffLe p.1 q.1).map Prod.fst = x.insertionSort recordOffLe := by
    rw [map_insertionSort _ recordOffLe _ _ (fun _ _ _ _ => Iff.rfl), map_fst_zip (le_of_eq size)]
  have right : ((x.zip y).insertionSort fun p q => recordOffLe p.1 q.1).map Prod.snd = y.insertionSort recordOffLe := by
    rw [map_insertionSort _ recordOffLe, map_snd_zip (ge_of_eq size)]
    intro p hp q hq
    unfold recordOffLe
    rw [agree p hp, agree q hq]
  have pairs : ∀ p ∈ (x.zip y).insertionSort (fun p q => recordOffLe p.1 q.1), p.1 = p.2 := by
    rw [← left, ← right] at sorted
    exact fun p member => map_inj_left.mp sorted p member
  have all : ∀ p ∈ x.zip y, p.1 = p.2 := fun p member => pairs p ((mem_insertionSort _).mpr member)
  calc x = (x.zip y).map Prod.fst := (map_fst_zip (le_of_eq size)).symm
    _ = (x.zip y).map Prod.snd := map_congr_left all
    _ = y := map_snd_zip (ge_of_eq size)

variable {entries : List TocEntryV1}

theorem decodeFramesAt_keys (h : decodeFramesAt s entries = .ok x) :
    x.map SegmentFrameV1.record_off = entries.map fun e => UInt32.ofNat (e.file_offset.toNat - SEGMENT_HEADER_LEN) := by
  induction entries generalizing x with
  | nil => cases h; rfl
  | cons e rest ih =>
    rw [decodeFramesAt, bind_ok_iff] at h
    obtain ⟨f, first, h⟩ := h
    rw [bind_ok_iff] at h
    obtain ⟨fs, later, h⟩ := h
    cases h
    rw [map_cons, map_cons, ih later, (decodeFrameAt_ok first rfl).2]

/-- Frame lists read from two streams through the same entries agree exactly when each frame does. -/
theorem decodeFramesAt_eq_iff (hs : decodeFramesAt s entries = .ok x) (ht : decodeFramesAt t entries = .ok y)
    (hhere : ∀ k, s[k]? = here k) (hthere : ∀ k, t[k]? = there k) :
    x = y ↔ ∀ e ∈ entries, SameContent here there (e.file_offset.toNat - SEGMENT_HEADER_LEN) := by
  induction entries generalizing x y with
  | nil =>
    cases hs
    cases ht
    simp
  | cons e rest ih =>
    rw [decodeFramesAt, bind_ok_iff] at hs ht
    obtain ⟨f, firstS, hs⟩ := hs
    obtain ⟨g, firstT, ht⟩ := ht
    rw [bind_ok_iff] at hs ht
    obtain ⟨fs, laterS, hs⟩ := hs
    obtain ⟨gs, laterT, ht⟩ := ht
    cases hs
    cases ht
    have fits := (decodeFrameAt_ok firstS rfl).1
    have one := frame_eq_iff firstS firstT rfl
    rw [forall_mem_cons, ← ih laterS laterT]
    generalize e.file_offset.toNat - SEGMENT_HEADER_LEN = off at fits one ⊢
    have ends : contentEnd here off = off + 12 + (u16At s (off + 6)).toNat + (u32At s (off + 8)).toNat := by
      have low := ofLe_lt (slice s (off + 6) (off + 6 + 2))
      have high := ofLe_lt (slice s (off + 8) (off + 8 + 4))
      rw [length_slice (by omega), Nat.add_sub_cancel_left] at low high
      unfold contentEnd u16At u32At
      rw [placedNumber_eq hhere (by omega), placedNumber_eq hhere (by omega), UInt16.toNat_ofNat', UInt32.toNat_ofNat']
      omega
    have content : SameContent here there off ↔ f = g := by
      rw [one, slice_eq_iff]
      unfold SameContent
      rw [ends]
      simp only [hhere, hthere]
    rw [content]
    exact cons_eq_cons

/-- An index entry for a part of the record area, stored as it is. -/
def blockAt (record_area : Bytes) (block_id : UInt32) (start stop : Nat) : BlockMetaV1 :=
  { block_id, codec := RECORD_BLOCK_CODEC_NONE_V1, file_offset := UInt64.ofNat (SEGMENT_HEADER_LEN + start),
    compressed_len := UInt32.ofNat (stop - start), physical_len := UInt32.ofNat (stop - start),
    uncompressed_len := UInt32.ofNat (stop - start), crc32c := crc32c (slice record_area start stop),
    bloom := fixed BLOOM_BYTES_PER_BLOCK_V1 [] }

/-- Two blocks that place the end of the record area before its start. -/
def swappedBlocks (record_area : Bytes) (cut : Nat) : List BlockMetaV1 :=
  [blockAt record_area 0 cut record_area.length, blockAt record_area 1 0 cut]

/-- The segment of some frames with such an index in place of its own. -/
def swappedSegment (P : Primitives) (a : SegmentArgs) (frames : List FrameInput) (cut : Nat) : Result SegmentBuildOutput :=
  assembleSegment P (headerOf a) a.sealed_at_unix_ns ((layFrom (entryAt P) 0 frames).insertionSort tocLe)
    (frames.flatMap bytesOf)
    (.ok (encode_trailer_index_v1_from_parts (swappedBlocks (frames.flatMap bytesOf) cut) [] (toc_sorted_idx_of []))) false

variable {record_area : Bytes}

theorem decodeRecordBlock_blockAt (size : hdr.length = SEGMENT_HEADER_LEN) (small : record_area.length ≤ U32_MAX)
    (order : start ≤ stop) (inside : stop ≤ record_area.length) :
    decodeRecordBlock P (hdr ++ (record_area ++ rest)) (blockAt record_area i start stop) =
      .ok (slice record_area start stop) := by
  have bound : U32_MAX < 2 ^ 32 := by decide
  have header : SEGMENT_HEADER_LEN < 2 ^ 32 := by decide
  have len : (slice record_area start stop).length = stop - start := length_slice inside
  have width : (UInt32.ofNat (stop - start)).toNat = stop - start := toNat_u32_of_le (by omega)
  have place : (UInt64.ofNat (SEGMENT_HEADER_LEN + start)).toNat = SEGMENT_HEADER_LEN + start :=
    toNat_u64_of_le (by omega)
  apply decodeRecordBlock_stored (.inl rfl) _ rfl (by rw [len]; exact width) rfl
  unfold blockAt
  have stops : SEGMENT_HEADER_LEN + start + (stop - start) = SEGMENT_HEADER_LEN + stop := by omega
  rw [place, width, stops, getSlice_ok (by omega) (by simp; omega), slice_record size inside]
  rfl

variable {out : SegmentBuildOutput}

theorem swappedSegment_ok (inside : cut ≤ (frames.flatMap bytesOf).length) (h : swappedSegment P a frames cut = .ok out) :
    ∃ ext tables footer_bytes pad,
      Assembled P (headerOf a) ((layFrom (entryAt P) 0 frames).insertionSort tocLe) (frames.flatMap bytesOf) ext tables
        footer_bytes pad out ∧ reassemble_record_stream_v1 P out.bytes out.toc_header out.footer =
        .ok (slice (frames.flatMap bytesOf) cut (frames.flatMap bytesOf).length ++ slice (frames.flatMap bytesOf) 0 cut) := by
  obtain ⟨ext, tables, footer_bytes, pad, hext, asm, _, small⟩ := assembleSegment_ok h
  cases hext
  refine ⟨_, tables, footer_bytes, pad, asm, ?_⟩
  refine asm.stream (n := 2) rfl ?_ (by simp)
  have size : (encode_segment_header_v1 (headerOf a)).length = SEGMENT_HEADER_LEN := by simp
  rw [asm.bytes]
  unfold swappedBlocks concatBlocks concatBlocks concatBlocks
  rw [decodeRecordBlock_blockAt size small inside le_rfl, ok_bind,
    decodeRecordBlock_blockAt size small (Nat.zero_le _) inside, ok_bind, ok_bind]
  simp
  rfl

variable {header : SegmentHeaderV1}

theorem assembleSegment_toc_header {t t' : Result Bytes}
    (h : assembleSegment P header sealed_at entries record_area t padded = .ok out)
    (h' : assembleSegment P header sealed_at entries record_area t' padded' = .ok out') : out.toc_header = out'.toc_header := by
  unfold assembleSegment at h h'
  rw [ensure_bind_ok, bind_ok_iff] at h h'
  obtain ⟨_, toc, made, h⟩ := h
  obtain ⟨_, toc', made', h'⟩ := h'
  obtain rfl : toc = toc' := Except.ok.inj (made.symm.trans made')
  rw [bind_ok_iff] at h h'
  obtain ⟨ext, _, h⟩ := h
  obtain ⟨ext', _, h'⟩ := h'
  rw [ensure_bind_ok, ensure_bind_ok, bind_ok_iff] at h h'
  obtain ⟨_, _, footer, _, h⟩ := h
  obtain ⟨_, _, footer', _, h'⟩ := h'
  cases h
  cases h'
  rfl

theorem Assembled.payloadIn {ext tables footer_bytes : Bytes}
    (h : Assembled P header entries record_area ext tables footer_bytes pad out) :
    tocPayloadIn (tocAreaOf out.bytes out.footer) = payloadOf out.toc_header entries := by
  have field : u64At (areaOf out entries tables ext pad) 40 = out.toc_header.toc_payload_len := by
    simp [areaOf, payloadOf, encode_toc_payload_v1_with_hash, tocHeaderBody, tocHeaderFields, u64At_skip]
  rw [h.tocArea, tocPayloadIn, field, h.payload_len, areaOf]
  exact take_left' rfl

theorem same_hash_of_assembled (h : Assembled P header entries record_area ext tables footer_bytes pad out)
    (h' : Assembled P header entries record_area ext' tables' footer_bytes' pad' out') (same : out.toc_header = out'.toc_header)
    :
    out.footer.segment_hash = out'.footer.segment_hash ∧
      NoCollisions P out.bytes { header, toc_header := out.toc_header, entries, footer := out.footer }
        out'.bytes { header, toc_header := out'.toc_header, entries, footer := out'.footer } := by
  have headers : out.bytes.take SEGMENT_HEADER_LEN = out'.bytes.take SEGMENT_HEADER_LEN := by
    rw [h.bytes, h'.bytes, take_left' (by simp), take_left' (by simp)]
  have digests : out.footer.header_hash.val ++ out.footer.record_hash.val ++ out.footer.toc_payload_hash.val =
      out'.footer.header_hash.val ++ out'.footer.record_hash.val ++ out'.footer.toc_payload_hash.val := by
    rw [h.header_hash, h'.header_hash, h.record_hash, h'.record_hash, h.toc_hash, h'.toc_hash, same]
  constructor
  · rw [h.segment_hash, h'.segment_hash, digests]
  · exact ⟨fun _ => headers, fun _ => by rw [h.recordArea, h'.recordArea],
      fun _ => by rw [h.payloadIn, h'.payloadIn, same], fun _ => digests⟩

theorem build_segment_v1_ok (h : build_segment_v1 P a frames = .ok out) :
    is_sorted_toc ((layFrom (entryAt P) 0 frames).insertionSort tocLe) = true ∧
      (∃ trailer, assembleSegment P (headerOf a) a.sealed_at_unix_ns ((layFrom (entryAt P) 0 frames).insertionSort tocLe)
        (frames.flatMap bytesOf) trailer false = .ok out) ∧
      reassemble_record_stream_v1 P out.bytes out.toc_header out.footer = .ok (frames.flatMap bytesOf) := by
  unfold build_segment_v1 build_segment_v1_with_block_codec at h
  rw [bind_ok_iff] at h
  obtain ⟨st, pushed, finished⟩ := h
  obtain ⟨fits, rfl⟩ := pushFrames_ok pushed
  obtain ⟨_, stream⟩ := finishSegment_ok ⟨(metas_laid fits).1, (metas_laid fits).2⟩ finished
  unfold finishSegment at finished
  rw [ensure_bind_ok, if_pos rfl] at finished
  exact ⟨finished.1, ⟨_, finished.2⟩, stream⟩

theorem frames_of_stream (verified : decode_segment_v1 P bytes = .ok p)
    (read : reassemble_record_stream_v1 P bytes p.toc_header p.footer = .ok stream)
    (found : decodeFramesAt stream p.entries = .ok frames) :
    decode_segment_frames_v1 P bytes = .ok (frames.insertionSort recordOffLe) := by
  unfold decode_segment_frames_v1
  rw [verified, ok_bind, read, ok_bind, found, ok_bind]
  rfl

/-- The payloads a stream gives at the sample's entries. -/
def samplePayloads (stream : Bytes) : Result (List Bytes) := do
  let frames ← decodeFramesAt stream ((layFrom (entryAt Reference.primitives) 0 sampleFrames).insertionSort tocLe)
  return (frames.insertionSort recordOffLe).map SegmentFrameV1.payload_bytes

theorem swapped_sample : ∃ (a b : SegmentBuildOutput) (pa pb : SegmentParts) (fa fb : List SegmentFrameV1),
    build_segment_v1 Reference.primitives sampleArgs sampleFrames = .ok a ∧
      decode_segment_v1 Reference.primitives a.bytes = .ok pa ∧ decode_segment_v1 Reference.primitives b.bytes = .ok pb ∧
      decode_segment_frames_v1 Reference.primitives a.bytes = .ok fa ∧
      decode_segment_frames_v1 Reference.primitives b.bytes = .ok fb ∧
      pa.footer.segment_hash = pb.footer.segment_hash ∧ NoCollisions Reference.primitives a.bytes pa b.bytes pb ∧
      fa.map SegmentFrameV1.payload_bytes = [[112], [113]] ∧ fb.map SegmentFrameV1.payload_bytes = [[113], [112]] := by
  obtain ⟨a, built⟩ := sample_built
  obtain ⟨b, swapped⟩ := ok_of_isOk (x := swappedSegment Reference.primitives sampleArgs sampleFrames 18) (by decide +kernel)
  obtain ⟨sorted, ⟨trailer, assembled⟩, stream⟩ := build_segment_v1_ok built
  obtain ⟨ext, tables, footer_bytes, pad, _, asm, _⟩ := assembleSegment_ok assembled
  obtain ⟨ext', tables', footer_bytes', pad', asm', stream'⟩ := swappedSegment_ok (by decide) swapped
  obtain ⟨same, free⟩ := same_hash_of_assembled asm asm' (assembleSegment_toc_header assembled swapped)
  have honest : samplePayloads (sampleFrames.flatMap bytesOf) = .ok [[112], [113]] := by decide +kernel
  have forged : samplePayloads (slice (sampleFrames.flatMap bytesOf) 18 (sampleFrames.flatMap bytesOf).length ++
      slice (sampleFrames.flatMap bytesOf) 0 18) = .ok [[113], [112]] := by decide +kernel
  unfold samplePayloads at honest forged
  rw [bind_ok_iff] at honest forged
  obtain ⟨fa, found, payloads⟩ := honest
  obtain ⟨fb, found', payloads'⟩ := forged
  have verified := asm.decode sorted
  have verified' := asm'.decode sorted
  exact ⟨a, b, _, _, _, _, built, verified, verified', frames_of_stream verified stream found,
    frames_of_stream verified' stream' found', same, free, Except.ok.inj payloads, Except.ok.inj payloads'⟩

end Crux.Segment
