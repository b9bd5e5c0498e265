import Crux.SegmentTypes

/-!
# The last commit frame of a head file

The search for it (`corecrux-storage/src/lib.rs`) goes backwards over the file in
windows of a megabyte that overlap by three bytes.
-/

namespace Crux.Segment
open Crux.Bytes

def COMMIT_FRAME_MAGIC_CCMT : UInt32 := 0x544D4343
def COMMIT_FRAME_VERSION_V1 : UInt16 := 1
def COMMIT_FRAME_LEN_V1 : Nat := 64
def COMMIT_FRAME_SCAN_WINDOW_BYTES : Nat := 1024 * 1024

structure CommitFrameV1 where
  commit_id : UInt64
  commit_seq : UInt64
  commit_offset : UInt64
  crc32c_committed_region : UInt32

/-- What `ManifestRecordInvalid` says of a commit frame. -/
inductive CommitFrameError where
  | TooSmall
  | InvalidMagic (magic : UInt32)
  | UnsupportedVersion (ver : UInt16)
  | InvalidHeaderLen (header_len : Nat)
  | HeaderCrcMismatch (expected actual : UInt32)

section
variable (bytes : Bytes)

def decode_commit_frame_v1 : Except CommitFrameError CommitFrameV1 := do
  ensure (COMMIT_FRAME_LEN_V1 ≤ bytes.length) .TooSmall
  let magic := u32At bytes 0
  ensure (magic = COMMIT_FRAME_MAGIC_CCMT) (.InvalidMagic magic)
  let ver := u16At bytes 4
  ensure (ver = COMMIT_FRAME_VERSION_V1) (.UnsupportedVersion ver)
  let header_len := (u16At bytes 6).toNat
  ensure (header_len = COMMIT_FRAME_LEN_V1) (.InvalidHeaderLen header_len)
  let expected := u32At bytes (COMMIT_FRAME_LEN_V1 - 4)
  let actual := crc32c (slice bytes 0 (COMMIT_FRAME_LEN_V1 - 4))
  ensure (expected = actual) (.HeaderCrcMismatch expected actual)
  return ⟨u64At bytes 8, u64At bytes 16, u64At bytes 24, u32At bytes 32⟩

def validate_commit_frame_candidate (marker_off : Nat) : Option CommitFrameV1 :=
  if marker_off < SEGMENT_HEADER_LEN ∨ bytes.length < marker_off + COMMIT_FRAME_LEN_V1 then none
  else
    match decode_commit_frame_v1 (slice bytes marker_off (marker_off + COMMIT_FRAME_LEN_V1)) with
    | .error _ => none
    | .ok frame =>
      if frame.commit_offset ≠ UInt64.ofNat (marker_off + COMMIT_FRAME_LEN_V1) then none
      else if crc32c (slice bytes SEGMENT_HEADER_LEN marker_off) ≠ frame.crc32c_committed_region then none
      else some frame

/-- A place in a window, looked at more closely where the magic stands. -/
def candidateAt (scan_start : Nat) (window : Bytes) (idx : Nat) : Option CommitFrameV1 :=
  if slice window idx (idx + 4) = u32le COMMIT_FRAME_MAGIC_CCMT then validate_commit_frame_candidate bytes (scan_start + idx)
  else none

/-- The places of a window from `idx` down to its start. -/
def scanWindow (scan_start : Nat) (window : Bytes) : Nat → Option CommitFrameV1
  | 0 => candidateAt bytes scan_start window 0
  | idx + 1 => (candidateAt bytes scan_start window (idx + 1)).or (scanWindow scan_start window idx)

/-- The windows from `scan_end` down. -/
def scanFrom (scan_end : Nat) : Option CommitFrameV1 :=
  if scan_end ≤ SEGMENT_HEADER_LEN then none
  else
    let scan_start := max (scan_end - COMMIT_FRAME_SCAN_WINDOW_BYTES) SEGMENT_HEADER_LEN
    let window := slice bytes scan_start scan_end
    if window.length < 4 then none
    else
      (scanWindow bytes scan_start window (window.length - 4)).or
        (if scan_start = SEGMENT_HEADER_LEN then none else scanFrom (scan_start + 3))
termination_by scan_end
decreasing_by
  have short : window.length ≤ scan_end - scan_start := List.length_take_le _ _
  omega

def find_last_valid_commit_frame : Option CommitFrameV1 :=
  if bytes.length < SEGMENT_HEADER_LEN + COMMIT_FRAME_LEN_V1 then none else scanFrom bytes bytes.length

end

/-- What a function finds last below a place. -/
def lastBelow {α : Type} (find : Nat → Option α) : Nat → Option α
  | 0 => none
  | n + 1 => (find n).or (lastBelow find n)

section
variable {α : Type} {find : Nat → Option α} {n : Nat}

theorem lastBelow_none (nothing : ∀ k < n, find k = none) : lastBelow find n = none := by
  induction n with
  | zero => rfl
  | succ n ih => rw [lastBelow, nothing n (by omega), ih fun k below => nothing k (by omega), Option.or_none]

theorem lastBelow_cases : (lastBelow find n = none ∧ ∀ k < n, find k = none) ∨
    ∃ k x, find k = some x ∧ (∀ later, k < later → later < n → find later = none) ∧ lastBelow find n = some x := by
  induction n with
  | zero => exact .inl ⟨rfl, by simp⟩
  | succ n ih =>
    rw [lastBelow]
    cases here : find n with
    | some x => exact .inr ⟨n, x, here, by omega, rfl⟩
    | none =>
      rw [Option.none_or]
      have above : ∀ k, k < n + 1 → k < n ∨ find k = none := fun k below =>
        (Nat.lt_succ_iff_lt_or_eq.mp below).imp_right fun same => by rw [same, here]
      rcases ih with ⟨nothing, none⟩ | ⟨k, x, found, last, result⟩
      · exact .inl ⟨nothing, fun k below => (above k below).elim (none k) id⟩
      · exact .inr ⟨k, x, found, fun later after below => (above later below).elim (last later after) id, result⟩

end

section
variable {bytes : Bytes} {off idx scan_start scan_end : Nat}

theorem validate_outside (outside : off < SEGMENT_HEADER_LEN ∨ bytes.length < off + COMMIT_FRAME_LEN_V1) :
    validate_commit_frame_candidate bytes off = none := if_pos outside

theorem magic_of_validate {frame : CommitFrameV1} (valid : validate_commit_frame_candidate bytes off = some frame) :
    slice bytes off (off + 4) = u32le COMMIT_FRAME_MAGIC_CCMT := by
  unfold validate_commit_frame_candidate COMMIT_FRAME_LEN_V1 at valid
  split_ifs at valid with outside
  split at valid
  · cases valid
  · rename_i decoded
    unfold decode_commit_frame_v1 at decoded
    simp only [ensure_bind_ok] at decoded
    have magic := congrArg u32le decoded.2.1
    rw [u32At, slice_slice _ _ _ _ _ (by omega)] at magic
    have size : (slice bytes off (off + 4)).length = 4 := by rw [length_slice (by omega)]; omega
    have small := ofLe_lt (slice bytes off (off + 4))
    rw [size] at small
    rw [← magic, u32le, UInt32.toNat_ofNat', Nat.mod_eq_of_lt (by simpa using small)]
    have back := leBytes_ofLe (slice bytes off (off + 4))
    rw [size] at back
    exact back.symm

theorem candidateAt_eq (inside : scan_start + idx + 4 ≤ scan_end) :
    candidateAt bytes scan_start (slice bytes scan_start scan_end) idx =
      validate_commit_frame_candidate bytes (scan_start + idx) := by
  unfold candidateAt
  rw [slice_slice _ _ _ _ _ (by omega), ← Nat.add_assoc]
  split_ifs with magic
  · rfl
  · cases valid : validate_commit_frame_candidate bytes (scan_start + idx) with
    | none => rfl
    | some frame => exact absurd (magic_of_validate valid) magic

theorem scanWindow_eq (inside : scan_start + idx + 4 ≤ scan_end) :
    (scanWindow bytes scan_start (slice bytes scan_start scan_end) idx).or
        (lastBelow (validate_commit_frame_candidate bytes) scan_start) =
      lastBelow (validate_commit_frame_candidate bytes) (scan_start + idx + 1) := by
  induction idx with
  | zero => rw [scanWindow, candidateAt_eq inside, lastBelow, Nat.add_zero]
  | succ idx ih => rw [scanWindow, candidateAt_eq inside, Option.or_assoc, ih (by omega)]; rfl

/-- Whatever the windows are, the scan finds the last valid frame that starts three bytes before its end. -/
theorem scanFrom_eq (inside : scan_end ≤ bytes.length) :
    scanFrom bytes scan_end = lastBelow (validate_commit_frame_candidate bytes) (scan_end - 3) := by
  have header : ∀ k ≤ SEGMENT_HEADER_LEN, lastBelow (validate_commit_frame_candidate bytes) k = none :=
    fun k le => lastBelow_none fun off below => validate_outside (.inl (by omega))
  induction scan_end using Nat.strong_induction_on with
  | _ scan_end ih =>
    rw [scanFrom]
    split_ifs with short
    · exact (header _ (by omega)).symm
    · dsimp only
      generalize start : max (scan_end - COMMIT_FRAME_SCAN_WINDOW_BYTES) SEGMENT_HEADER_LEN = scan_start
      unfold COMMIT_FRAME_SCAN_WINDOW_BYTES at start
      rw [length_slice inside]
      by_cases tiny : scan_end - scan_start < 4
      · rw [if_pos tiny]
        exact (header _ (by omega)).symm
      have place : scan_start + (scan_end - scan_start - 4) + 1 = scan_end - 3 := by omega
      rw [if_neg tiny]
      split_ifs with first
      · rw [← header scan_start (by omega), scanWindow_eq (by omega), place]
      · rw [ih (scan_start + 3) (by omega) (by omega), Nat.add_sub_cancel, scanWindow_eq (by omega), place]

end

/-- The search gives the valid commit frame at the greatest offset, or nothing where no offset has one. -/
theorem find_last_valid_commit_frame_exact (bytes : Bytes) :
    ((∀ off, validate_commit_frame_candidate bytes off = none) ∧ find_last_valid_commit_frame bytes = none) ∨
      ∃ off frame, validate_commit_frame_candidate bytes off = some frame ∧
        (∀ later, off < later → validate_commit_frame_candidate bytes later = none) ∧
        find_last_valid_commit_frame bytes = some frame := by
  unfold find_last_valid_commit_frame
  split_ifs with short
  · exact .inl ⟨fun off => validate_outside (by omega), rfl⟩
  · have beyond : ∀ off, off < bytes.length - 3 ∨ validate_commit_frame_candidate bytes off = none := fun off =>
      (lt_or_ge off (bytes.length - 3)).imp id fun high => validate_outside (.inr (by unfold COMMIT_FRAME_LEN_V1; omega))
    rw [scanFrom_eq le_rfl]
    rcases @lastBelow_cases _ (validate_commit_frame_candidate bytes) (bytes.length - 3) with
      ⟨nothing, none⟩ | ⟨off, frame, valid, last, found⟩
    · exact .inl ⟨fun off => (beyond off).elim (none off) id, nothing⟩
    · exact .inr ⟨off, frame, valid, fun later after => (beyond later).elim (last later after) id, found⟩

/-! ## Batches -/

/-- A commit frame before its checksum, with the reserved bytes at its end. -/
def commitFrameBody (frame : CommitFrameV1) : Bytes :=
  u32le COMMIT_FRAME_MAGIC_CCMT ++ u16le COMMIT_FRAME_VERSION_V1 ++ u16le (UInt16.ofNat COMMIT_FRAME_LEN_V1) ++
    u64le frame.commit_id ++ u64le frame.commit_seq ++ u64le frame.commit_offset ++ u32le frame.crc32c_committed_region ++
    List.replicate 24 0

def encode_commit_frame_v1 (frame : CommitFrameV1) : Bytes :=
  commitFrameBody frame ++ u32le (crc32c (commitFrameBody frame))

/-- The head file, with the checksum of what stands behind its header. -/
structure HeadFile where
  file : Bytes
  committed_region_crc32c : UInt32 := 0

/-- The encoded frames of an append, with the id and the sequence number of its commit. -/
structure HeadBatch where
  commit_id : UInt64
  commit_seq : UInt64
  encoded : List Bytes

/-- The frames go to the end of the file, and a commit frame behind them (`append_batch`). -/
def HeadFile.append (head : HeadFile) (batch : HeadBatch) : HeadFile :=
  let pre_commit_crc32c := batch.encoded.foldl crc32c_append head.committed_region_crc32c
  let commit_offset := head.file.length + batch.encoded.flatten.length + COMMIT_FRAME_LEN_V1
  let commit_frame :=
    encode_commit_frame_v1 ⟨batch.commit_id, batch.commit_seq, UInt64.ofNat commit_offset, pre_commit_crc32c⟩
  ⟨head.file ++ batch.encoded.flatten ++ commit_frame, crc32c_append pre_commit_crc32c commit_frame⟩

section
open List
variable {frame : CommitFrameV1}

theorem length_encode_commit_frame_v1 : (encode_commit_frame_v1 frame).length = COMMIT_FRAME_LEN_V1 := by
  simp [encode_commit_frame_v1, commitFrameBody, COMMIT_FRAME_LEN_V1]

theorem decode_commit_frame_v1_encode : decode_commit_frame_v1 (encode_commit_frame_v1 frame) = .ok frame := by
  have size : (commitFrameBody frame).length = 60 := by simp [commitFrameBody]
  have len : (UInt16.ofNat COMMIT_FRAME_LEN_V1).toNat = COMMIT_FRAME_LEN_V1 := by decide
  have body : slice (encode_commit_frame_v1 frame) 0 (COMMIT_FRAME_LEN_V1 - 4) = commitFrameBody frame :=
    slice_here _ _ _ size
  have check : u32At (encode_commit_frame_v1 frame) (COMMIT_FRAME_LEN_V1 - 4) = crc32c (commitFrameBody frame) := by
    rw [encode_commit_frame_v1, u32At_skip _ _ _ (by rw [size]; decide), size]
    exact u32At_last _
  unfold decode_commit_frame_v1
  rw [body, check]
  simp [encode_commit_frame_v1, commitFrameBody, u32At_skip, u16At_skip, u64At_skip, len]
  rfl

/-- The checksum is that of what stands behind the header. -/
def HeadFile.Summed (head : HeadFile) : Prop :=
  SEGMENT_HEADER_LEN ≤ head.file.length ∧ head.committed_region_crc32c = crc32c (head.file.drop SEGMENT_HEADER_LEN)

variable {head : HeadFile}

theorem HeadFile.Summed.more (summed : head.Summed) (bytes : Bytes) :
    HeadFile.Summed ⟨head.file ++ bytes, crc32c_append head.committed_region_crc32c bytes⟩ := by
  obtain ⟨long, same⟩ := summed
  refine ⟨by simp only [length_append]; omega, ?_⟩
  simp [same, drop_append_of_le_length long, crc32c, crc32c_append, crcAppend]

theorem HeadFile.Summed.frames (summed : head.Summed) (encoded : List Bytes) :
    HeadFile.Summed ⟨head.file ++ encoded.flatten, encoded.foldl crc32c_append head.committed_region_crc32c⟩ := by
  induction encoded generalizing head with
  | nil => simpa using summed
  | cons bytes rest ih => simpa using ih (summed.more bytes)

theorem HeadFile.Summed.run (summed : head.Summed) (batches : List HeadBatch) : (batches.foldl append head).Summed := by
  induction batches generalizing head with
  | nil => exact summed
  | cons batch rest ih => exact ih ((summed.frames batch.encoded).more _)

theorem HeadFile.summed_new (header : FixedBytes SEGMENT_HEADER_LEN) : HeadFile.Summed { file := header.val } := by
  refine ⟨header.property.ge, ?_⟩
  rw [drop_eq_nil_of_le header.property.le]
  rfl

variable {front : Bytes} {off : Nat}

theorem validate_encode (summed : HeadFile.Summed ⟨front, frame.crc32c_committed_region⟩)
    (offset : frame.commit_offset = UInt64.ofNat (front.length + COMMIT_FRAME_LEN_V1)) (rest : Bytes) :
    validate_commit_frame_candidate (front ++ encode_commit_frame_v1 frame ++ rest) front.length = some frame := by
  obtain ⟨long, region⟩ := summed
  have size := @length_encode_commit_frame_v1 frame
  have record : slice (front ++ (encode_commit_frame_v1 frame ++ rest)) front.length (front.length + COMMIT_FRAME_LEN_V1) =
      encode_commit_frame_v1 frame := slice_mid _ _ _ _ _ rfl (by rw [size])
  have before : slice (front ++ (encode_commit_frame_v1 frame ++ rest)) SEGMENT_HEADER_LEN front.length =
      front.drop SEGMENT_HEADER_LEN := by
    rw [slice_within _ _ _ _ le_rfl]
    simp [slice]
  unfold validate_commit_frame_candidate
  rw [append_assoc, record, before, decode_commit_frame_v1_encode]
  dsimp only at long region
  simp [size, offset, region, long]

theorem find_last_from (valid : validate_commit_frame_candidate front off = some frame) :
    ∃ k x, find_last_valid_commit_frame front = some x ∧ validate_commit_frame_candidate front k = some x ∧ off ≤ k := by
  have inside : ¬(off < SEGMENT_HEADER_LEN ∨ front.length < off + COMMIT_FRAME_LEN_V1) := fun outside => by
    rw [validate_outside outside] at valid
    cases valid
  unfold COMMIT_FRAME_LEN_V1 at inside
  unfold find_last_valid_commit_frame COMMIT_FRAME_LEN_V1
  rw [if_neg (by omega), scanFrom_eq le_rfl]
  rcases @lastBelow_cases _ (validate_commit_frame_candidate front) (front.length - 3) with
    ⟨_, none⟩ | ⟨k, x, found, after, result⟩
  · rw [none off (by omega)] at valid
    cases valid
  · refine ⟨k, x, result, found, not_lt.mp fun before => ?_⟩
    rw [after off before (by omega)] at valid
    cases valid

end

/-- No batch that was committed is lost: whatever stands behind it in the file after a crash, the search gives its commit
frame or a valid one further on. -/
theorem committed_batch_found (header : FixedBytes SEGMENT_HEADER_LEN) (batches : List HeadBatch) (last : HeadBatch)
    (torn : Bytes) :
    let file := ((batches ++ [last]).foldl HeadFile.append { file := header.val }).file
    ∃ off frame, find_last_valid_commit_frame (file ++ torn) = some frame ∧
      validate_commit_frame_candidate (file ++ torn) off = some frame ∧
      (file.length < off + COMMIT_FRAME_LEN_V1 ∨ file.length = off + COMMIT_FRAME_LEN_V1 ∧
        frame.commit_id = last.commit_id ∧ frame.commit_seq = last.commit_seq) := by
  rw [List.foldl_append]
  have summed := ((HeadFile.summed_new header).run batches).frames last.encoded
  dsimp only [List.foldl_cons, List.foldl_nil, HeadFile.append]
  rw [← List.length_append]
  have here := @validate_encode ⟨last.commit_id, last.commit_seq, _, _⟩ _ summed rfl torn
  obtain ⟨k, x, found, valid, behind⟩ := find_last_from here
  refine ⟨k, x, found, valid, ?_⟩
  rw [List.length_append, length_encode_commit_frame_v1]
  rcases behind.lt_or_eq with later | rfl
  · exact .inl (by omega)
  · rw [here] at valid
    cases valid
    exact .inr ⟨rfl, rfl, rfl⟩

end Crux.Segment
