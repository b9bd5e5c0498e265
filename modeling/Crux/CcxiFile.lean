import Crux.SegmentBinding

/-!
# What the footer of an index file binds

The reader of `.ccxi` files (`corecrux-index/src/ccxi.rs`) at the level of bytes.
The footer has the hashes of the vocabulary and of the postings. The document
table, by which a search tells the tenants apart, is covered by neither.
-/

namespace Crux.Ccxi
open Crux.Bytes List
open Crux.Segment (u16At u32At u64At slice_of_number)

def CCXI_MAGIC : UInt32 := 0x43435849
def CCXI_VERSION : UInt16 := 2
def CCXI_HEADER_LEN : Nat := 256
def CCXI_FOOTER_LEN : Nat := 64
def VOCAB_ENTRY_LEN : Nat := 16
def DOC_ENTRY_LEN : Nat := 16

structure CcxiHeader where
  magic : UInt32
  version : UInt16
  shard_id : UInt32
  segment_seq : UInt64
  epoch : UInt64
  vocab_size : UInt32
  total_postings : UInt64
  total_frames : UInt32
  tokenizer_version : UInt16
deriving DecidableEq

structure VocabEntry where
  token_hash : UInt64
  postings_offset : UInt32
  postings_len : UInt32
deriving DecidableEq

structure DocEntry where
  frame_offset : UInt32
  doc_length_tokens : UInt16
  tenant_hash_lo16 : UInt16
  tenant_hash_full : UInt64
deriving DecidableEq

structure CcxiReader where
  header : CcxiHeader
  vocab : List VocabEntry
  postings_area : Bytes
  docs : List DocEntry
deriving DecidableEq

inductive IndexError where
  | BufferTooSmall
  | InvalidMagic (expected actual : UInt32)
  | UnsupportedVersion (version : UInt16)
  | IntegrityFailure (msg : String)
  -- the document table is longer than the file: the subtraction panics, or the slice after it does where it wraps
  | Underflow
deriving DecidableEq

def vocabAt (data : Bytes) (cursor : Nat) : VocabEntry :=
  ⟨u64At data cursor, u32At data (cursor + 8), u32At data (cursor + 12)⟩

def docAt (data : Bytes) (cursor : Nat) : DocEntry :=
  ⟨u32At data cursor, u16At data (cursor + 4), u16At data (cursor + 6), u64At data (cursor + 8)⟩

/-- The loop over entries of one size. -/
def entriesAt {α : Type} (read : Bytes → Nat → α) (data : Bytes) (size cursor n : Nat) : List α :=
  (range n).map fun k => read data (cursor + k * size)

section
variable (data : Bytes)

def vocab_end : Nat := CCXI_HEADER_LEN + (u32At data 26).toNat * VOCAB_ENTRY_LEN
def doc_table_len : Nat := (u32At data 38).toNat * DOC_ENTRY_LEN
def footer_start : Nat := data.length - CCXI_FOOTER_LEN
def doc_table_start : Nat := footer_start data - doc_table_len data

def vocabTable : Bytes := slice data CCXI_HEADER_LEN (vocab_end data)
def postingsArea : Bytes := slice data (vocab_end data) (doc_table_start data)
def docTable : Bytes := slice data (doc_table_start data) (footer_start data)
def footer : Bytes := slice data (footer_start data) (footer_start data + 64)

def from_bytes (blake3 : Bytes → Bytes) : Except IndexError CcxiReader := do
  ensure (CCXI_HEADER_LEN + CCXI_FOOTER_LEN ≤ data.length) .BufferTooSmall
  let magic := u32At data 0
  ensure (magic = CCXI_MAGIC) (.InvalidMagic CCXI_MAGIC magic)
  let version := u16At data 4
  ensure (version = CCXI_VERSION) (.UnsupportedVersion version)
  let header : CcxiHeader := ⟨magic, version, u32At data 6, u64At data 10, u64At data 18, u32At data 26, u64At data 30,
    u32At data 38, u16At data 42⟩
  ensure (vocab_end data ≤ data.length) .BufferTooSmall
  let vocab := entriesAt vocabAt data VOCAB_ENTRY_LEN CCXI_HEADER_LEN header.vocab_size.toNat
  ensure (doc_table_len data ≤ footer_start data) .Underflow
  ensure (¬(doc_table_start data < vocab_end data ∨ footer_start data < doc_table_start data + doc_table_len data))
    .BufferTooSmall
  let docs := entriesAt docAt data DOC_ENTRY_LEN (doc_table_start data) header.total_frames.toNat
  ensure (slice data (footer_start data) (footer_start data + 32) = blake3 (vocabTable data))
    (.IntegrityFailure "vocab table hash mismatch")
  ensure (slice data (footer_start data + 32) (footer_start data + 64) = blake3 (postingsArea data))
    (.IntegrityFailure "postings area hash mismatch")
  return ⟨header, vocab, postingsArea data, docs⟩

end

/-- The postings of a token, whatever the binary search over the hashes (`find_token`) and the decoding of an entry in the
postings area (`decode_postings`) do. -/
def postingsOf {α : Type} (binary_search : List UInt64 → UInt64 → Option Nat) (decode_postings : Bytes → VocabEntry → α)
    (r : CcxiReader) (token_hash : UInt64) : Option α :=
  ((binary_search (r.vocab.map VocabEntry.token_hash) token_hash).bind fun idx => r.vocab[idx]?).map
    (decode_postings r.postings_area)

/-- Whether a document is the filtered tenant's (`bm25.rs`); `none` where the index panics. -/
def doc_matches_tenant (r : CcxiReader) (did : Nat) : Option UInt64 → Option Bool
  | none => some true
  | some tf64 => r.docs[did]?.map fun doc => doc.tenant_hash_lo16 = tf64.toUInt16 && doc.tenant_hash_full = tf64

section
variable {blake3 : Bytes → Bytes} {a b : Bytes} {i : Nat} {r s : CcxiReader}

theorem vocabAt_of_slice (same : slice a i (i + 16) = slice b i (i + 16)) : vocabAt a i = vocabAt b i := by
  simp only [vocabAt, u64At, u32At]
  rw [slice_part same (by omega) (by omega), slice_part same (by omega) (by omega), slice_part same (by omega) (by omega)]

theorem docAt_eq_iff (ha : i + 16 ≤ a.length) (hb : i + 16 ≤ b.length) :
    docAt a i = docAt b i ↔ slice a i (i + 16) = slice b i (i + 16) := by
  simp [docAt]
  constructor
  · rintro ⟨offset, len, lo16, full⟩
    have h0 := slice_eq_iff.mp (slice_of_number (w := 4) (by omega) (by omega) (congrArg UInt32.toNat offset))
    have h4 := slice_eq_iff.mp (slice_of_number (w := 2) (by omega) (by omega) (congrArg UInt16.toNat len))
    have h6 := slice_eq_iff.mp (slice_of_number (w := 2) (by omega) (by omega) (congrArg UInt16.toNat lo16))
    have h8 := slice_eq_iff.mp (slice_of_number (w := 8) (by omega) (by omega) (congrArg UInt64.toNat full))
    rw [slice_eq_iff]
    grind
  · intro same
    simp only [u16At, u32At, u64At]
    grind [slice_part]

theorem from_bytes_ok (accepted : from_bytes a blake3 = .ok r) :
    vocab_end a ≤ doc_table_start a ∧ doc_table_start a + doc_table_len a ≤ a.length ∧
      docTable a = slice a (doc_table_start a) (doc_table_start a + doc_table_len a) ∧
      r = ⟨r.header, entriesAt vocabAt a 16 256 (u32At a 26).toNat, postingsArea a,
        entriesAt docAt a 16 (doc_table_start a) (u32At a 38).toNat⟩ ∧
      slice (footer a) 0 32 = blake3 (vocabTable a) ∧ slice (footer a) 32 64 = blake3 (postingsArea a) := by
  unfold from_bytes at accepted
  simp only [ensure_bind_ok] at accepted
  obtain ⟨_, _, _, _, fits, apart, vocab_hash, postings_hash, made⟩ := accepted
  have tiles : doc_table_start a + doc_table_len a = footer_start a := Nat.sub_add_cancel fits
  cases made
  rw [footer, slice_slice _ _ _ _ _ le_rfl, slice_slice _ _ _ _ _ (by omega), tiles]
  exact ⟨by omega, Nat.sub_le _ _, rfl, rfl, vocab_hash, postings_hash⟩

section
variable (accepted : from_bytes a blake3 = .ok r) (accepted' : from_bytes b blake3 = .ok s)
include accepted accepted'

theorem vocab_of_table (ends : vocab_end a = vocab_end b) (same : vocabTable a = vocabTable b) : r.vocab = s.vocab := by
  obtain ⟨_, _, _, made, _⟩ := from_bytes_ok accepted
  obtain ⟨_, _, _, made', _⟩ := from_bytes_ok accepted'
  unfold vocabTable at same
  rw [← ends] at same
  unfold vocab_end CCXI_HEADER_LEN VOCAB_ENTRY_LEN at same ends
  rw [made, made', show (u32At b 26).toNat = (u32At a 26).toNat by omega]
  refine map_congr_left fun k mem => vocabAt_of_slice (slice_part same (Nat.le_add_right _ _) ?_)
  have := mem_range.mp mem
  omega

theorem docs_eq_iff (starts : doc_table_start a = doc_table_start b) : r.docs = s.docs ↔ docTable a = docTable b := by
  obtain ⟨_, inside, docs, made, _⟩ := from_bytes_ok accepted
  obtain ⟨_, inside', docs', made', _⟩ := from_bytes_ok accepted'
  rw [docs, docs', made, made', ← starts]
  rw [← starts] at inside'
  unfold doc_table_len DOC_ENTRY_LEN at *
  constructor
  · intro alike
    have count := congrArg length alike
    simp only [entriesAt, length_map, length_range] at count
    rw [← count] at alike inside' ⊢
    rw [slice_eq_iff]
    intro k low high
    have here := map_inj_left.mp alike ((k - doc_table_start a) / 16) (mem_range.mpr (by omega))
    rw [docAt_eq_iff (by omega) (by omega)] at here
    exact slice_eq_iff.mp here k (by omega) (by omega)
  · intro alike
    have count := congrArg length alike
    rw [length_slice (by omega), length_slice (by omega)] at count
    have count : (u32At a 38).toNat = (u32At b 38).toNat := by omega
    rw [← count] at alike inside' ⊢
    refine map_congr_left fun k mem => ?_
    have := mem_range.mp mem
    exact (docAt_eq_iff (by omega) (by omega)).mpr (slice_part alike (by omega) (by omega))

end

end

/-- A file without tokens and with one document, of tenant `t`. -/
def oneDoc (t : UInt16) : Bytes :=
  u32le CCXI_MAGIC ++ u16le 2 ++ replicate 32 0 ++ u32le 1 ++ replicate 214 0 ++
    (u32le 0 ++ u16le 0 ++ u16le t ++ u64le t.toUInt64) ++ replicate 64 0

def oneDocReader (t : UInt16) : CcxiReader :=
  ⟨⟨CCXI_MAGIC, 2, 0, 0, 0, 0, 0, 1, 0⟩, [], [], [⟨0, 0, t, t.toUInt64⟩]⟩

def zeroHash (_ : Bytes) : Bytes := replicate 32 0

end Crux.Ccxi
