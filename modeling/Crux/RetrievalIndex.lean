import Mathlib.Data.String.Basic
import Crux.SortedMap

/-!
# The retrieval index

Discovery of sealed segments, tenant footprints and the search over the loaded
indexes: `corecrux-retrieval/src/index_manager.rs`, `segment_tenants.rs` and
`bm25.rs`, with the companion index that is built when a segment is sealed
(`build_ccxi_companion`, `CcxiBuilder`). A file is what its decoder makes of
it, and a 64-bit hash is a number. The hash of a tenant id is a parameter, and so
is the arithmetic of scores.
-/

namespace Crux.Retrieval

/-- A frame of a segment; `tokens` are those of a non-empty UTF-8 payload, and any other payload has none. -/
structure SegmentFrame where
  tenant_id : String
  record_off : UInt32
  tokens : Option (List UInt64)
deriving DecidableEq

structure DocEntry where
  frame_offset : UInt32
  doc_length_tokens : UInt16
  tenant_hash_lo16 : Nat
  tenant_hash_full : Nat
deriving DecidableEq

/-- The place of a frame that was not indexed. -/
def DocEntry.unset : DocEntry := ⟨0, 0, 0, 0⟩

/-- A companion index; `sealed_at` is when its segment was sealed, which nothing reads. -/
structure CcxiReader where
  segment_seq : Nat
  sealed_at : Nat
  docs : List DocEntry
  postings : List (UInt64 × List (Nat × Nat))
deriving DecidableEq

section
variable (tenant_hash_xxhash64 : String → Nat)

def add_document (b : CcxiReader) (doc_id : Nat) (tokens : List UInt64) (frame_offset : UInt32) (tenant_hash : Nat) : CcxiReader :=
  let counts := tokens.dedup.map fun t => (t, tokens.count t)
  let merged := counts.foldl (fun postings (t, tf) =>
    if postings.any (·.1 == t) then postings.map fun e => if e.1 = t then (t, e.2 ++ [(doc_id, tf)]) else e
    else postings ++ [(t, [(doc_id, tf)])]) b.postings
  let padded := b.docs ++ List.replicate (doc_id + 1 - b.docs.length) DocEntry.unset
  { b with
    postings := merged
    docs := padded.set doc_id ⟨frame_offset, tokens.length.toUInt16, tenant_hash % 2 ^ 16, tenant_hash⟩ }

/-- The frames from an index on, those without text left out. -/
def addFrames (b : CcxiReader) (doc_id : Nat) : List SegmentFrame → CcxiReader
  | [] => b
  | f :: rest =>
    let b := match f.tokens with
      | some tokens => add_document b doc_id tokens f.record_off (tenant_hash_xxhash64 f.tenant_id)
      | none => b
    addFrames b (doc_id + 1) rest

def build_ccxi_companion (segment_seq sealed_at : Nat) (frames : List SegmentFrame) : Option CcxiReader :=
  if frames.any fun f => f.tokens.isSome then some (addFrames tenant_hash_xxhash64 ⟨segment_seq, sealed_at, [], []⟩ 0 frames)
  else none

end

/-- A `.ccxseg` file: the number in its header and its frames, if they can be read. -/
structure SegmentFile where
  segment_seq : Option Nat
  frames : Option (List SegmentFrame)

/-- The files of one stem in a directory; a `.ccxi` file is what its reader makes of it. -/
structure SegmentGroup where
  stem : String
  ccxseg : Option SegmentFile
  ccxi : Option (Option CcxiReader)

inductive Provenance where
  | Platform
  | Local
  | None
  | Invalid
deriving DecidableEq

structure AttestationPolicy where
  resolve : String → String → Provenance
  permits : Provenance → Bool

def permits (policy : Option AttestationPolicy) (dir stem : String) : Bool :=
  match policy with
  | some policy => policy.permits (policy.resolve dir stem)
  | none => true

/-- A discovered segment; `membership` are the tenants of its frames, for a segment without an index. -/
structure LoadedSegment where
  reader : Option CcxiReader
  membership : Option (List Nat)
  dir : String
  stem : String
  provenance : Option Provenance
  refused : Bool

structure ForgottenTenant where
  tenant_id : String
  tenant_hash : Nat
  watermark_segment_seq : Nat
  forgotten_at : Nat
  segments_reclaimed : Nat
deriving DecidableEq

structure IndexManager where
  segments : SortedMap Nat LoadedSegment
  forgotten : SortedMap Nat ForgottenTenant
  scanned_dirs : SortedMap String Unit
  attestation : Option AttestationPolicy

def IndexManager.new (attestation : Option AttestationPolicy) : IndexManager := ⟨.empty, .empty, .empty, attestation⟩

def LoadedSegment.docs_total (seg : LoadedSegment) : Nat :=
  match seg.reader with
  | some reader => reader.docs.length
  | none => (seg.membership.map List.length).getD 0

def LoadedSegment.docs_for_tenant (seg : LoadedSegment) (tenant_hash : Nat) : Option Nat :=
  match seg.reader with
  | some reader => some ((reader.docs.map DocEntry.tenant_hash_full).count tenant_hash)
  | none => seg.membership.map fun tenants => tenants.count tenant_hash

def readDecimal : List Char → Nat → Option Nat
  | [], n => some n
  | c :: rest, n =>
    if '0' ≤ c ∧ c ≤ '9' ∧ n * 10 + (c.toNat - '0'.toNat) < 2 ^ 64 then readDecimal rest (n * 10 + (c.toNat - '0'.toNat)) else none

/-- `parse::<u64>`, which takes a plus sign. -/
def parse_u64 : List Char → Option Nat
  | [] => none
  | ['+'] => none
  | '+' :: digits => readDecimal digits 0
  | digits => readDecimal digits 0

def extract_segment_seq (stem : String) : Option Nat :=
  match stem.toList.splitOn '-' with
  | _ :: second :: _ => parse_u64 second
  | _ => none

section
variable (tenant_hash_xxhash64 : String → Nat)

def load_ccxi (dir stem : String) (ccxi : Option CcxiReader) : Option (Nat × LoadedSegment) :=
  ccxi.map fun reader => (reader.segment_seq, ⟨some reader, none, dir, stem, none, false⟩)

/-- A segment without an index, by the number in its header or else in its name. -/
def register_segment_without_ccxi (dir stem : String) (file : SegmentFile) : Option (Nat × LoadedSegment) :=
  (file.segment_seq.or (extract_segment_seq stem)).map fun seq =>
    (seq, ⟨none, file.frames.map fun frames => frames.map fun f => tenant_hash_xxhash64 f.tenant_id, dir, stem, none, false⟩)

/-- What a group offers. A `.ccxi` file read as a segment file has neither a header nor frames. -/
def SegmentGroup.load (g : SegmentGroup) (dir : String) (permitted : Bool) : Option (Nat × LoadedSegment) :=
  match g.ccxi, g.ccxseg, permitted with
  | some ccxi, _, true => load_ccxi dir g.stem ccxi
  | none, some ccxseg, true => register_segment_without_ccxi tenant_hash_xxhash64 dir g.stem ccxseg
  | _, some ccxseg, false => register_segment_without_ccxi tenant_hash_xxhash64 dir g.stem ccxseg
  | some _, none, false => register_segment_without_ccxi tenant_hash_xxhash64 dir g.stem ⟨none, none⟩
  | none, none, _ => none

/-- What the policy leaves of a group, with its provenance. -/
def SegmentGroup.resolve (g : SegmentGroup) (policy : Option AttestationPolicy) (dir : String) : Option (Nat × LoadedSegment) :=
  let permitted := permits policy dir g.stem
  (g.load tenant_hash_xxhash64 dir permitted).map fun e =>
    (e.1, { e.2 with provenance := policy.map fun p => p.resolve dir g.stem, refused := !permitted })

namespace IndexManager

/-- A segment that need not be looked at again: it has its index, or there still is none. -/
def knows (m : IndexManager) (g : SegmentGroup) : Bool :=
  match extract_segment_seq g.stem with
  | some seq =>
    match m.segments.get seq with
    | some existing => existing.reader.isSome || g.ccxi.isNone
    | none => false
  | none => false

def scanGroup (dir : String) (m : IndexManager) (g : SegmentGroup) : IndexManager :=
  if m.knows g then m
  else
    match g.resolve tenant_hash_xxhash64 m.attestation dir with
    | some e => { m with segments := m.segments.insert e.1 e.2 }
    | none => m

/-- The groups of a directory, in the order of their stems; there are none if it does not exist. -/
def scan_and_load (m : IndexManager) (dir : String) (groups : List SegmentGroup) : IndexManager :=
  groups.foldl (scanGroup tenant_hash_xxhash64 dir) { m with scanned_dirs := m.scanned_dirs.insert dir () }

def refresh_from_disk (m : IndexManager) (disk : String → List SegmentGroup) : IndexManager :=
  m.scanned_dirs.keys.foldl (fun m dir => m.scan_and_load tenant_hash_xxhash64 dir (disk dir)) m

def readers (m : IndexManager) : List CcxiReader := m.segments.values.filterMap LoadedSegment.reader

end IndexManager

end

structure SegmentFootprint where
  segment_seq : Nat
  docs_total : Nat
  docs_tenant : Nat
  whole_tenant : Bool
deriving DecidableEq

structure TenantFootprint where
  segments : List SegmentFootprint
  docs : Nat
  mixed_segments : Nat
  unattributable_segments : Nat

/-- The row of a segment in a tenant's footprint. -/
def footprintRow (tenant_hash : Nat) (e : Nat × LoadedSegment) : Option SegmentFootprint :=
  match e.2.docs_for_tenant tenant_hash with
  | none => none
  | some 0 => none
  | some (docs_tenant + 1) => some ⟨e.1, e.2.docs_total, docs_tenant + 1, docs_tenant + 1 == e.2.docs_total⟩

def IndexManager.tenant_footprint (m : IndexManager) (tenant_hash : Nat) : TenantFootprint :=
  let segments := m.segments.entries.filterMap (footprintRow tenant_hash)
  { segments
    docs := (segments.map SegmentFootprint.docs_tenant).sum
    mixed_segments := segments.countP fun s => !s.whole_tenant
    unattributable_segments := m.segments.entries.countP fun e => (e.2.docs_for_tenant tenant_hash).isNone }

/-- The segments that a reclaim may delete. -/
def TenantFootprint.reclaimable (footprint : TenantFootprint) : List Nat :=
  (footprint.segments.filter SegmentFootprint.whole_tenant).map SegmentFootprint.segment_seq

namespace IndexManager

def forgotten_watermark (m : IndexManager) (tenant_hash : Nat) : Option Nat :=
  (m.forgotten.get tenant_hash).map ForgottenTenant.watermark_segment_seq

end IndexManager

/-- The arithmetic of scores: a term's part from the number of documents and tokens in all, the documents with the
term, its frequency and the document's length; and which scores count. -/
structure Scoring (S : Type) where
  zero : S
  add : S → S → S
  term : Nat → Nat → Nat → Nat → Nat → S
  positive : S → Bool

structure MergedBm25Hit (S : Type) where
  segment_index : Nat
  doc_id : Nat
  score : S
  tenant_hash_lo16 : Nat
  tenant_hash_full : Nat
  frame_offset : UInt32
  doc_length_tokens : UInt16

def doc_matches_tenant (doc : DocEntry) : Option Nat → Bool
  | none => true
  | some tf64 => doc.tenant_hash_lo16 == tf64 % 2 ^ 16 && doc.tenant_hash_full == tf64

def is_forgotten (reader : CcxiReader) (forgotten_up_to_seq : Option Nat) : Bool :=
  match forgotten_up_to_seq with
  | some w => reader.segment_seq ≤ w
  | none => false

def decode_postings (reader : CcxiReader) (token : UInt64) : List (Nat × Nat) := (reader.postings.lookup token).getD []

section
variable {S : Type} (scoring : Scoring S) (readers : List CcxiReader) (query : List UInt64) (tenant_filter : Option Nat)

/-- The score of a document. The totals are those of all readers, forgotten or not. -/
def scoreOf (reader : CcxiReader) (did : Nat) (doc : DocEntry) : S :=
  let total_docs := (readers.map fun r => r.docs.length).sum
  let total_tokens := (readers.map fun r => (r.docs.map fun d => d.doc_length_tokens.toNat).sum).sum
  query.foldl (fun score token =>
    let global_df := (readers.map fun r => (decode_postings r token).length).sum
    ((decode_postings reader token).filter fun p => p.1 == did && doc_matches_tenant doc tenant_filter).foldl
      (fun score p => scoring.add score (scoring.term total_docs total_tokens global_df p.2 doc.doc_length_tokens.toNat)) score) scoring.zero

def readerHits (reader : CcxiReader) (seg_idx : Nat) : List (MergedBm25Hit S) :=
  reader.docs.zipIdx.filterMap fun (doc, did) =>
    let score := scoreOf scoring readers query tenant_filter reader did doc
    if scoring.positive score then
      some ⟨seg_idx, did, score, doc.tenant_hash_lo16, doc.tenant_hash_full, doc.frame_offset, doc.doc_length_tokens⟩
    else none

/-- The hits of `bm25_score_multi`, before they are ranked and cut. -/
def all_hits (forgotten_up_to_seq : Option Nat) : List (MergedBm25Hit S) :=
  readers.zipIdx.flatMap fun (reader, seg_idx) =>
    if is_forgotten reader forgotten_up_to_seq then [] else readerHits scoring readers query tenant_filter reader seg_idx

end

end Crux.Retrieval
