import Crux.ProjectionState

/-!
# Tables as bytes

`corecrux-projections/src/codec_v1.rs` and `ccxsnap.rs`: the tables are written
row by row, each row a record of one size padded with zeros, and a snapshot file
is a header with a list of blocks, each under its own hash.

The five tables share one writer and one reader (`encodeRows`, `decodeRows`);
`decode_encode_rows` reads a table back from what the reader sees of a single
row. For four tables that is the row itself. A pressure row has sixteen bytes
for its receipt id and writes none as zeros, so an id of zeros comes back as
none (`PressureEventRowV1.stored`).
-/

namespace Crux.Projections
open Crux.Bytes Crux.Segment List

inductive CcxsnapError where
  | BufferTooSmall
  | InvalidMagic (actual : Bytes)
  | UnsupportedVersion (v : UInt32)
  | UnsupportedProjectionId (id : UInt32)
  | BlockHashMismatch (block_type : UInt32) (expected actual : Digest)
  | Invalid (msg : String)
deriving DecidableEq

inductive ProjectionError where
  | Io
  | Storage (msg : String)
  | InvalidFrameHeader (msg : String)
  | InvalidEvent (msg : String)
  | Snapshot (e : CcxsnapError)
deriving DecidableEq

abbrev Res (α : Type) := Except ProjectionError α

def i32le (x : Int32) : Bytes := u32le x.toUInt32
def i64le (x : Int64) : Bytes := u64le x.toUInt64

@[simp] theorem length_i32le (x : Int32) : (i32le x).length = 4 := length_u32le _
@[simp] theorem length_i64le (x : Int64) : (i64le x).length = 8 := length_u64le _

def byteAt (chunk : Bytes) (i : Nat) : UInt8 := chunk.getD i 0
def u16At (chunk : Bytes) (i : Nat) : UInt16 := UInt16.ofNat (ofLe (slice chunk i (i + 2)))
def u32At (chunk : Bytes) (i : Nat) : UInt32 := UInt32.ofNat (ofLe (slice chunk i (i + 4)))
def u64At (chunk : Bytes) (i : Nat) : UInt64 := UInt64.ofNat (ofLe (slice chunk i (i + 8)))
def i32At (chunk : Bytes) (i : Nat) : Int32 := ⟨u32At chunk i⟩
def i64At (chunk : Bytes) (i : Nat) : Int64 := ⟨u64At chunk i⟩
/-- The array of `n` bytes at a place. -/
def arrayAt (n : Nat) (chunk : Bytes) (i : Nat) : FixedBytes n := fixed n (slice chunk i (i + n))

section
variable {f rest : Bytes} {i : Nat} (past : f.length ≤ i)
include past

@[simp] theorem byteAt_skip : byteAt (f ++ rest) i = byteAt rest (i - f.length) := by
  simp [byteAt, getElem?_append_right past]

theorem slice_skip_at (n : Nat) : slice (f ++ rest) i (i + n) = slice rest (i - f.length) (i - f.length + n) := by
  rw [slice_skip _ _ _ _ past]
  congr 1
  omega

@[simp] theorem u16At_skip : u16At (f ++ rest) i = u16At rest (i - f.length) := by rw [u16At, slice_skip_at past, u16At]
@[simp] theorem u32At_skip : u32At (f ++ rest) i = u32At rest (i - f.length) := by rw [u32At, slice_skip_at past, u32At]
@[simp] theorem u64At_skip : u64At (f ++ rest) i = u64At rest (i - f.length) := by rw [u64At, slice_skip_at past, u64At]
@[simp] theorem i32At_skip : i32At (f ++ rest) i = i32At rest (i - f.length) := by rw [i32At, u32At_skip past, i32At]
@[simp] theorem i64At_skip : i64At (f ++ rest) i = i64At rest (i - f.length) := by rw [i64At, u64At_skip past, i64At]
@[simp] theorem arrayAt_skip (n : Nat) : arrayAt n (f ++ rest) i = arrayAt n rest (i - f.length) := by
  rw [arrayAt, slice_skip_at past, arrayAt]

end

@[simp] theorem byteAt_here (x : UInt8) (rest : Bytes) : byteAt ([x] ++ rest) 0 = x := rfl
@[simp] theorem u16At_here (x : UInt16) (rest : Bytes) : u16At (u16le x ++ rest) 0 = x := by
  rw [u16At, slice_here _ _ _ (by simp), ofLe_u16le]
@[simp] theorem u32At_here (x : UInt32) (rest : Bytes) : u32At (u32le x ++ rest) 0 = x := by
  rw [u32At, slice_here _ _ _ (by simp), ofLe_u32le]
@[simp] theorem u64At_here (x : UInt64) (rest : Bytes) : u64At (u64le x ++ rest) 0 = x := by
  rw [u64At, slice_here _ _ _ (by simp), ofLe_u64le]
@[simp] theorem i32At_here (x : Int32) (rest : Bytes) : i32At (i32le x ++ rest) 0 = x := by
  rw [i32At, i32le, u32At_here]
@[simp] theorem i64At_here (x : Int64) (rest : Bytes) : i64At (i64le x ++ rest) 0 = x := by
  rw [i64At, i64le, u64At_here]
@[simp] theorem arrayAt_here (x : FixedBytes n) (rest : Bytes) : arrayAt n (x.val ++ rest) 0 = x := by
  rw [arrayAt, slice_here _ _ _ (by simp), fixed_val]

/-- How the rows of a table are laid out: their size, the record of a row, what the reader makes of a record, and what it
says of a block that is not a whole number of records. -/
structure RowCodec (K V : Type) where
  stride : Nat
  put : K → V → Bytes
  take : Bytes → Res (K × V)
  misfit : String
  positive : 0 < stride
  fits : ∀ k v, (put k v).length = stride

section
variable {K V : Type} [LinearOrder K]

def encodeRows (c : RowCodec K V) (rows : SortedMap K V) : Bytes := rows.entries.flatMap fun e => c.put e.1 e.2

def decodeRows (c : RowCodec K V) (input : Bytes) : Res (SortedMap K V) := do
  ensure (input.length % c.stride = 0) (.InvalidEvent c.misfit)
  let rows ← decodeEach c.take c.stride input (input.length / c.stride) 0
  return .ofList rows

theorem length_encodeRows (c : RowCodec K V) (rows : SortedMap K V) : (encodeRows c rows).length = rows.size * c.stride :=
  length_flatMap_const (fun e : K × V => c.fits e.1 e.2) rows.entries

variable {rows : SortedMap K V}

theorem decode_encode_rows (c : RowCodec K V) (seen : V → V)
    (back : ∀ e ∈ rows.entries, c.take (c.put e.1 e.2) = .ok (e.1, seen e.2)) :
    decodeRows c (encodeRows c rows) = .ok (rows.mapValues seen) := by
  have whole : (encodeRows c rows).length % c.stride = 0 := by rw [length_encodeRows, Nat.mul_mod_left]
  have count : (encodeRows c rows).length / c.stride = rows.entries.length := by
    rw [length_encodeRows, Nat.mul_div_cancel _ c.positive]
    rfl
  have each := decodeEach_flatMap_of_mem (fun e : K × V => c.fits e.1 e.2) back [] []
  rw [nil_append, append_nil, length_nil] at each
  unfold decodeRows
  rw [ensure_true _ whole, ok_bind, count]
  unfold encodeRows
  rw [each, ok_bind]
  exact congrArg Except.ok (SortedMap.ofList_entries (rows.mapValues seen))

theorem decode_encode_rows_id (c : RowCodec K V)
    (back : ∀ e ∈ rows.entries, c.take (c.put e.1 e.2) = .ok e) : decodeRows c (encodeRows c rows) = .ok rows := by
  rw [decode_encode_rows c id back]
  congr 1
  apply SortedMap.ext_get
  intro k
  rw [SortedMap.get_mapValues, Option.map_id_apply]

theorem encodeRows_eq_nil (c : RowCodec K V) : encodeRows c rows = [] ↔ rows.entries = [] := by
  rw [← length_eq_zero_iff, length_encodeRows, Nat.mul_eq_zero]
  have := c.positive
  constructor
  · rintro (none | zero)
    · exact length_eq_zero_iff.mp none
    · omega
  · exact fun none => .inl (length_eq_zero_iff.mpr none)

end

def LIVING_ROW_STRIDE_V1 : Nat := 64
def RELATION_EDGE_STRIDE_V1 : Nat := 64
def DEPENDENT_EDGE_STRIDE_V1 : Nat := 64
def PRESSURE_ROW_STRIDE_V1 : Nat := 96
def HOT_PTR_ENTRY_STRIDE_V1 : Nat := 64

/-- Where the block of an artifact's edges is: its size and its hash. -/
structure HotPtrEntryV1 where
  edge_count : UInt32
  block_len : UInt32
  codec : UInt32
  blake3 : Digest
deriving DecidableEq

def hotPtrs : RowCodec ArtifactKey HotPtrEntryV1 where
  stride := HOT_PTR_ENTRY_STRIDE_V1
  put k p := u64le k.tenant_hash ++ (u32le k.artifact_id ++ (u32le p.edge_count ++ (u32le p.block_len ++ (u32le p.codec ++
    (p.blake3.val ++ List.replicate 8 0)))))
  take chunk := do
    let codec := u32At chunk 20
    ensure (codec = 0) (.InvalidEvent s!"unsupported hot ptr codec {codec.toNat}")
    return (⟨u64At chunk 0, u32At chunk 8⟩,
      { edge_count := u32At chunk 12, block_len := u32At chunk 16, codec := codec, blake3 := arrayAt 32 chunk 24 })
  misfit := "hot ptr snapshot block length is not a multiple of entry stride"
  positive := by decide
  fits k p := by simp [HOT_PTR_ENTRY_STRIDE_V1]

def livingRows : RowCodec ArtifactKey LivingStateRowV1 where
  stride := LIVING_ROW_STRIDE_V1
  put k row := u64le k.tenant_hash ++ (u32le k.artifact_id ++ ([row.living_status.to_u8] ++ (u16le row.confidence_q16 ++
    (i64le row.last_validated_at_micros ++ (i64le row.next_review_at_micros ++ ([row.pressure_level] ++
    (u32le row.pressure_reasons_mask ++ ([row.trunk_tier] ++ (i32le row.relations_out_count ++
    (i32le row.relations_in_count ++ (i32le row.dependents_count ++ (i64le row.updated_at_micros ++
    List.replicate 7 0))))))))))))
  take chunk := .ok (⟨u64At chunk 0, u32At chunk 8⟩,
    { living_status := .from_u8 (byteAt chunk 12)
      confidence_q16 := u16At chunk 13
      last_validated_at_micros := i64At chunk 15
      next_review_at_micros := i64At chunk 23
      pressure_level := byteAt chunk 31
      pressure_reasons_mask := u32At chunk 32
      trunk_tier := byteAt chunk 36
      relations_out_count := i32At chunk 37
      relations_in_count := i32At chunk 41
      dependents_count := i32At chunk 45
      updated_at_micros := i64At chunk 49 })
  misfit := "living snapshot block length is not a multiple of row stride"
  positive := by decide
  fits k row := by simp [LIVING_ROW_STRIDE_V1]

def relationEdges : RowCodec RelationKey RelationEdgeV1 where
  stride := RELATION_EDGE_STRIDE_V1
  put k edge := u64le k.tenant_hash ++ (u32le k.src_artifact_id ++ (u32le k.dst_artifact_id ++ ([k.relation_type] ++
    (u16le edge.confidence_q16 ++ (edge.evidence_ref_hash16.val ++ (i64le edge.created_at_micros ++
    (i64le edge.updated_at_micros ++ List.replicate 13 0)))))))
  take chunk := .ok (⟨u64At chunk 0, u32At chunk 8, u32At chunk 12, byteAt chunk 16⟩,
    { confidence_q16 := u16At chunk 17
      evidence_ref_hash16 := arrayAt 16 chunk 19
      created_at_micros := i64At chunk 35
      updated_at_micros := i64At chunk 43 })
  misfit := "relations snapshot block length is not a multiple of edge stride"
  positive := by decide
  fits k edge := by simp [RELATION_EDGE_STRIDE_V1]

def dependentEdges : RowCodec DependentKey DependentEdgeV1 where
  stride := DEPENDENT_EDGE_STRIDE_V1
  put k edge := u64le k.tenant_hash ++ (u32le k.artifact_id ++ ([k.dependent_type] ++ (k.dependent_id.val ++
    (i64le edge.last_seen_at_micros ++ (u16le edge.usage_weight_q16 ++ List.replicate 25 0)))))
  take chunk := .ok (⟨u64At chunk 0, u32At chunk 8, byteAt chunk 12, arrayAt 16 chunk 13⟩,
    { last_seen_at_micros := i64At chunk 29, usage_weight_q16 := u16At chunk 37 })
  misfit := "dependents snapshot block length is not a multiple of edge stride"
  positive := by decide
  fits k edge := by simp [DEPENDENT_EDGE_STRIDE_V1]

def nilUuid : Uuid := ⟨List.replicate 16 0, rfl⟩

def pressureRows : RowCodec PressureKey PressureEventRowV1 where
  stride := PRESSURE_ROW_STRIDE_V1
  put k row := u64le k.tenant_hash ++ (u32le k.artifact_id ++ (k.pressure_event_id.val ++ (u16le row.pressure_code_id ++
    ([row.severity] ++ (i64le row.observed_at_micros ++ (i64le row.acknowledged_at_micros ++ (i64le row.resolved_at_micros ++
    ((row.receipt_id.getD nilUuid).val ++ List.replicate 25 0))))))))
  take chunk :=
    let rid := arrayAt 16 chunk 55
    .ok (⟨u64At chunk 0, u32At chunk 8, arrayAt 16 chunk 12⟩,
      { pressure_code_id := u16At chunk 28
        severity := byteAt chunk 30
        observed_at_micros := i64At chunk 31
        acknowledged_at_micros := i64At chunk 39
        resolved_at_micros := i64At chunk 47
        receipt_id := if rid.val.all (· == 0) then none else some rid })
  misfit := "pressure snapshot block length is not a multiple of row stride"
  positive := by decide
  fits k row := by simp [PRESSURE_ROW_STRIDE_V1]

def encode_hot_ptrs_v1 := encodeRows hotPtrs
def decode_hot_ptrs_v1 := decodeRows hotPtrs
def encode_living_rows_v1 := encodeRows livingRows
def decode_living_rows_v1 := decodeRows livingRows
def encode_relations_edges_v1 := encodeRows relationEdges
def decode_relations_edges_v1 := decodeRows relationEdges
def encode_dependents_edges_v1 := encodeRows dependentEdges
def decode_dependents_edges_v1 := decodeRows dependentEdges
def encode_pressure_rows_v1 := encodeRows pressureRows
def decode_pressure_rows_v1 := decodeRows pressureRows

theorem hotPtrs_back (k : ArtifactKey) (plain : p.codec = 0) : hotPtrs.take (hotPtrs.put k p) = .ok (k, p) := by
  obtain ⟨count, len, codec, hash⟩ := p
  cases plain
  simp [hotPtrs]

theorem livingRows_back (k : ArtifactKey) (row : LivingStateRowV1) : livingRows.take (livingRows.put k row) = .ok (k, row) := by
  simp [livingRows, -singleton_append, -cons_append, -cons_append_fun]

theorem relationEdges_back (k : RelationKey) (edge : RelationEdgeV1) :
    relationEdges.take (relationEdges.put k edge) = .ok (k, edge) := by
  simp [relationEdges, -singleton_append, -cons_append, -cons_append_fun]

theorem dependentEdges_back (k : DependentKey) (edge : DependentEdgeV1) :
    dependentEdges.take (dependentEdges.put k edge) = .ok (k, edge) := by
  simp [dependentEdges, -singleton_append, -cons_append, -cons_append_fun]

/-- A pressure row as it comes back: a receipt id of zeros is none. -/
def PressureEventRowV1.stored (row : PressureEventRowV1) : PressureEventRowV1 :=
  { row with receipt_id := row.receipt_id.filter fun rid => decide (rid ≠ nilUuid) }

theorem PressureEventRowV1.stored_eq_self {row : PressureEventRowV1} : row.stored = row ↔ row.receipt_id ≠ some nilUuid := by
  obtain ⟨code, sev, obs, ack, res, rid⟩ := row
  cases rid with
  | none => simp [stored]
  | some rid => simp [stored]

theorem all_zero_iff (rid : Uuid) : (rid.val.all (· == 0)) = true ↔ rid = nilUuid := by
  rw [all_eq_true]
  constructor
  · intro zeros
    apply Subtype.ext
    refine eq_replicate_iff.mpr ⟨rid.property, fun b member => ?_⟩
    exact eq_of_beq (zeros b member)
  · rintro rfl b member
    rw [eq_of_mem_replicate member]
    rfl

theorem pressureRows_back (k : PressureKey) (row : PressureEventRowV1) :
    pressureRows.take (pressureRows.put k row) = .ok (k, row.stored) := by
  have receipt : ∀ rid : Option Uuid,
      (if (rid.getD nilUuid).val.all (· == 0) then none else some (rid.getD nilUuid)) =
        rid.filter fun rid => decide (rid ≠ nilUuid) := by
    intro rid
    cases rid with
    | none => rfl
    | some rid =>
      by_cases zero : rid = nilUuid
      · rw [Option.getD_some, if_pos ((all_zero_iff rid).mpr zero), Option.filter_some, if_neg (by simp [zero])]
      · rw [Option.getD_some, if_neg (fun all => zero ((all_zero_iff rid).mp all)), Option.filter_some,
          if_pos (by simp [zero])]
  simp [pressureRows, -singleton_append, -cons_append, -cons_append_fun, -all_eq_true, receipt,
    PressureEventRowV1.stored]

/-- Every table is read back from its rows, but for a nil receipt id in a pressure row. -/
theorem tables_read_back (living : SortedMap ArtifactKey LivingStateRowV1) (relations : SortedMap RelationKey RelationEdgeV1)
    (dependents : SortedMap DependentKey DependentEdgeV1) (pressure : SortedMap PressureKey PressureEventRowV1) :
    decode_living_rows_v1 (encode_living_rows_v1 living) = .ok living ∧
      decode_relations_edges_v1 (encode_relations_edges_v1 relations) = .ok relations ∧
      decode_dependents_edges_v1 (encode_dependents_edges_v1 dependents) = .ok dependents ∧
      decode_pressure_rows_v1 (encode_pressure_rows_v1 pressure) = .ok (pressure.mapValues PressureEventRowV1.stored) :=
  ⟨decode_encode_rows_id _ fun _ _ => livingRows_back _ _, decode_encode_rows_id _ fun _ _ => relationEdges_back _ _,
    decode_encode_rows_id _ fun _ _ => dependentEdges_back _ _, decode_encode_rows _ _ fun _ _ => pressureRows_back _ _⟩

def CCXSNAP_MAGIC : Bytes := [0x43, 0x53, 0x4E, 0x50]
def CCXSNAP_V1 : UInt32 := 1
def CCXSNAP_CODEC_NONE : UInt32 := 0
def CCXSNAP_BLOCK_ROWS_V1 : UInt32 := 1
def CCXSNAP_BLOCK_EDGES_V1 : UInt32 := 2
def CCXSNAP_BLOCK_EVENTS_V1 : UInt32 := 3
def CCXSNAP_BLOCK_HOT_PTRS_V1 : UInt32 := 6
def CCXSNAP_BLOCK_COLD_SEGMENT_DIR_V1 : UInt32 := 7

inductive CcxsnapProjectionId where
  | ArtifactLivingState
  | ArtifactRelations
  | PressureEvents
  | ArtifactDependents
  | EntityCount
  | EntityTimeline
  | EntityCurrentState
deriving DecidableEq

def CcxsnapProjectionId.as_u32 : CcxsnapProjectionId → UInt32
  | .ArtifactLivingState => 1
  | .ArtifactRelations => 2
  | .PressureEvents => 3
  | .ArtifactDependents => 4
  | .EntityCount => 10
  | .EntityTimeline => 11
  | .EntityCurrentState => 12

def CcxsnapProjectionId.from_u32 (id : UInt32) : Except CcxsnapError CcxsnapProjectionId :=
  if id = 1 then .ok .ArtifactLivingState
  else if id = 2 then .ok .ArtifactRelations
  else if id = 3 then .ok .PressureEvents
  else if id = 4 then .ok .ArtifactDependents
  else if id = 10 then .ok .EntityCount
  else if id = 11 then .ok .EntityTimeline
  else if id = 12 then .ok .EntityCurrentState
  else .error (.UnsupportedProjectionId id)

@[simp] theorem CcxsnapProjectionId.from_as_u32 (id : CcxsnapProjectionId) : from_u32 id.as_u32 = .ok id := by
  cases id <;> rfl

structure CcxsnapSnapshotHeaderV1 where
  projection_id : CcxsnapProjectionId
  schema_version : UInt32
  created_at_unix_ns : UInt64
  shard_id : UInt32
  epoch : UInt64
  cursor_segment_seq : UInt64
  cursor_offset : UInt64
  block_count : UInt32
  codec : UInt32
deriving DecidableEq

structure CcxsnapSnapshot where
  header : CcxsnapSnapshotHeaderV1
  blocks : List (UInt32 × Bytes)
deriving DecidableEq

namespace CcxsnapSnapshot
variable (crypto : Primitives)

/-- A block under its type, length and hash. -/
def encodeBlock (block : UInt32 × Bytes) : Bytes :=
  u32le block.1 ++ (u64le (UInt64.ofNat block.2.length) ++ ((crypto.blake3 block.2).val ++ block.2))

def encodeHeader (h : CcxsnapSnapshotHeaderV1) (block_count : Nat) : Bytes :=
  CCXSNAP_MAGIC ++ (u32le CCXSNAP_V1 ++ (u32le h.projection_id.as_u32 ++ (u32le h.schema_version ++
    (u64le h.created_at_unix_ns ++ (u32le h.shard_id ++ (u64le h.epoch ++ (u64le h.cursor_segment_seq ++
    (u64le h.cursor_offset ++ (u32le (UInt32.ofNat block_count) ++ (u32le h.codec ++ List.replicate 64 0))))))))))

def encode (snap : CcxsnapSnapshot) : Except CcxsnapError Bytes :=
  if snap.header.codec ≠ CCXSNAP_CODEC_NONE then .error (.Invalid s!"unsupported codec {snap.header.codec.toNat}")
  else .ok (encodeHeader snap.header snap.blocks.length ++ snap.blocks.flatMap (encodeBlock crypto))

/-- The next bytes of the input, and what follows them. -/
def read_exact (n : Nat) (c : Bytes) : Except CcxsnapError (Bytes × Bytes) :=
  if n ≤ c.length then .ok (c.take n, c.drop n) else .error .BufferTooSmall

def read_u32 (c : Bytes) : Except CcxsnapError (UInt32 × Bytes) := do
  let (b, c) ← read_exact 4 c
  return (UInt32.ofNat (ofLe b), c)

def read_u64 (c : Bytes) : Except CcxsnapError (UInt64 × Bytes) := do
  let (b, c) ← read_exact 8 c
  return (UInt64.ofNat (ofLe b), c)

def read_32 (c : Bytes) : Except CcxsnapError (Digest × Bytes) := do
  let (b, c) ← read_exact 32 c
  return (fixed 32 b, c)

def decodeBlocks : Nat → Bytes → Except CcxsnapError (List (UInt32 × Bytes))
  | 0, _ => .ok []
  | n + 1, c => do
    let (block_type, c) ← read_u32 c
    let (len, c) ← read_u64 c
    let (expected_hash, c) ← read_32 c
    let (bytes, c) ← read_exact len.toNat c
    let actual_hash := crypto.blake3 bytes
    ensure (actual_hash = expected_hash) (.BlockHashMismatch block_type expected_hash actual_hash)
    let later ← decodeBlocks n c
    return (block_type, bytes) :: later

def decode (input : Bytes) : Except CcxsnapError CcxsnapSnapshot := do
  let (magic, c) ← read_exact 4 input
  ensure (magic = CCXSNAP_MAGIC) (.InvalidMagic magic)
  let (v, c) ← read_u32 c
  ensure (v = CCXSNAP_V1) (.UnsupportedVersion v)
  let (id, c) ← read_u32 c
  let projection_id ← CcxsnapProjectionId.from_u32 id
  let (schema_version, c) ← read_u32 c
  let (created_at_unix_ns, c) ← read_u64 c
  let (shard_id, c) ← read_u32 c
  let (epoch, c) ← read_u64 c
  let (cursor_segment_seq, c) ← read_u64 c
  let (cursor_offset, c) ← read_u64 c
  let (block_count, c) ← read_u32 c
  let (codec, c) ← read_u32 c
  let (_, c) ← read_exact 64 c
  ensure (codec = CCXSNAP_CODEC_NONE) (.Invalid s!"unsupported codec {codec.toNat}")
  let blocks ← decodeBlocks crypto block_count.toNat c
  return {
    header := {
      projection_id := projection_id, schema_version := schema_version, created_at_unix_ns := created_at_unix_ns
      shard_id := shard_id, epoch := epoch, cursor_segment_seq := cursor_segment_seq, cursor_offset := cursor_offset
      block_count := block_count, codec := codec }
    blocks := blocks }

/-- The first block of a type. -/
def block (snap : CcxsnapSnapshot) (block_type : UInt32) : Option Bytes :=
  (snap.blocks.find? fun b => b.1 = block_type).map Prod.snd

theorem read_exact_append (size : f.length = n) : read_exact n (f ++ rest) = .ok (f, rest) := by
  subst size
  simp [read_exact]

@[simp] theorem read_u32_append (x : UInt32) (rest : Bytes) : read_u32 (u32le x ++ rest) = .ok (x, rest) := by
  simp [read_u32, read_exact_append (length_u32le x)]

@[simp] theorem read_u64_append (x : UInt64) (rest : Bytes) : read_u64 (u64le x ++ rest) = .ok (x, rest) := by
  simp [read_u64, read_exact_append (length_u64le x)]

@[simp] theorem read_32_append (x : Digest) (rest : Bytes) : read_32 (x.val ++ rest) = .ok (x, rest) := by
  simp [read_32, read_exact_append x.property]

theorem decodeBlocks_flatMap {blocks : List (UInt32 × Bytes)} (fits : ∀ b ∈ blocks, b.2.length < 2 ^ 64) :
    decodeBlocks crypto blocks.length (blocks.flatMap (encodeBlock crypto)) = .ok blocks := by
  induction blocks with
  | nil => rfl
  | cons b rest ih =>
    have size : (UInt64.ofNat b.2.length).toNat = b.2.length := by
      rw [UInt64.toNat_ofNat', Nat.mod_eq_of_lt (fits b mem_cons_self)]
    simp [encodeBlock, decodeBlocks, size, read_exact_append rfl]
    rw [ih fun x member => fits x (mem_cons_of_mem _ member)]
    rfl

theorem decode_encode {snap : CcxsnapSnapshot} {bytes : Bytes} (encoded : snap.encode crypto = .ok bytes)
    (counted : snap.header.block_count = UInt32.ofNat snap.blocks.length) (few : snap.blocks.length < 2 ^ 32)
    (fits : ∀ b ∈ snap.blocks, b.2.length < 2 ^ 64) : decode crypto bytes = .ok snap := by
  have plain : snap.header.codec = CCXSNAP_CODEC_NONE := by
    by_contra other
    rw [encode, if_pos other] at encoded
    cases encoded
  rw [encode, if_neg (fun other => other plain)] at encoded
  cases encoded
  have count : (UInt32.ofNat snap.blocks.length).toNat = snap.blocks.length := by
    rw [UInt32.toNat_ofNat', Nat.mod_eq_of_lt few]
  simp only [decode, encodeHeader, append_assoc, read_exact_append (show CCXSNAP_MAGIC.length = 4 from rfl),
    read_exact_append (show (List.replicate 64 (0 : UInt8)).length = 64 from length_replicate), read_u32_append,
    read_u64_append, ok_bind, ensure_of_true, CcxsnapProjectionId.from_as_u32, plain, count, decodeBlocks_flatMap crypto fits]
  rw [← counted]
  obtain ⟨⟨id, schema, at_, shard, epoch, seq, off, bc, codec⟩, blocks⟩ := snap
  cases plain
  rfl

end CcxsnapSnapshot

end Crux.Projections
