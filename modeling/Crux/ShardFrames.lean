import Crux.Bytes
import Crux.KeyMap

/-!
# The events of a shard

`append_batch`, `force_seal_head`, `read_stream` and `read_tail` of
`corecrux-storage`, over the frames of the sealed segments and of the head. A
stream is known to the shard by its 64-bit hash alone. Stream cuts and calls
that fail are left out; a head limit of zero seals every batch.
-/

namespace Crux.Storage
open Crux.Bytes List

/-- Tenant, type and id of a stream. -/
abbrev StreamKey := String × String × String

structure AppendEventInput where
  event_id : String
  payload_bytes : Bytes

/-- An event with the stream that its canonical header names. -/
structure StoredEvent where
  stream : StreamKey
  seq : Nat
  event_id : String
  payload_bytes : Bytes
deriving DecidableEq

inductive AppendStatus
  | Appended
  | DuplicateInBatch
  | DuplicateCommitted
  | Rejected
deriving DecidableEq

structure AppendOutcome where
  status : AppendStatus
  seq : Nat

structure ShardFrames where
  sealed_segments : List (List StoredEvent) := []
  head : List StoredEvent := []
  record_len : Nat := 0
  next_seq_by_stream : KeyMap UInt64 Nat := .empty

/-- The limits of a shard, and the lengths of the frame of an event and of a commit frame. -/
structure ShardOptions where
  max_event_id_bytes : Nat
  head_max_record_bytes : Nat
  frame_len : StreamKey → String → Bytes → Nat
  commit_frame_len : Nat

def ShardFrames.frames (s : ShardFrames) : List StoredEvent := s.sealed_segments.flatten ++ s.head

def ShardFrames.seal_head_segment (s : ShardFrames) : ShardFrames :=
  if s.head = [] then s else { s with sealed_segments := s.sealed_segments ++ [s.head], head := [], record_len := 0 }

section
variable (hash : StreamKey → UInt64) (o : ShardOptions)

/-- The outcome of every event of a batch, and the frame of those that are new. An event found under the hash of the stream
is a duplicate if its id is the same. -/
def planEvents (known : List StoredEvent) (stream : StreamKey) :
    Nat → List (String × Nat) → List AppendEventInput → List (AppendOutcome × Option StoredEvent)
  | _, _, [] => []
  | seq_cursor, seen, ev :: rest =>
    if ev.event_id = "" ∨ o.max_event_id_bytes < ev.event_id.utf8ByteSize then
      (⟨.Rejected, 0⟩, none) :: planEvents known stream seq_cursor seen rest
    else
      match seen.lookup ev.event_id with
      | some seq => (⟨.DuplicateInBatch, seq⟩, none) :: planEvents known stream seq_cursor seen rest
      | none =>
        match known.find? fun f => hash f.stream = hash stream ∧ f.event_id = ev.event_id with
        | some f =>
          (⟨.DuplicateCommitted, f.seq⟩, none) :: planEvents known stream seq_cursor ((ev.event_id, f.seq) :: seen) rest
        | none =>
          (⟨.Appended, seq_cursor⟩, some ⟨stream, seq_cursor, ev.event_id, ev.payload_bytes⟩) ::
            planEvents known stream (seq_cursor + 1) ((ev.event_id, seq_cursor) :: seen) rest

def batch_record_len (frames : List StoredEvent) : Nat :=
  (frames.map fun f => o.frame_len f.stream f.event_id f.payload_bytes).sum + o.commit_frame_len

section
variable (s : ShardFrames)

/-- The head is sealed before a batch that would make it too long. -/
def ShardFrames.make_room (len : Nat) : ShardFrames :=
  if 0 < s.record_len ∧ o.head_max_record_bytes < s.record_len + len then s.seal_head_segment else s

/-- New frames go to the head, which is sealed once it is full. -/
def ShardFrames.write (stream_hash : UInt64) (next : Nat) (frames : List StoredEvent) : ShardFrames :=
  let s := s.make_room o (batch_record_len o frames)
  let s := { s with
    head := s.head ++ frames
    record_len := s.record_len + batch_record_len o frames
    next_seq_by_stream := s.next_seq_by_stream.insert stream_hash next }
  if o.head_max_record_bytes ≤ s.record_len then s.seal_head_segment else s

def append_batch (stream : StreamKey) (events : List AppendEventInput) : ShardFrames × List AppendOutcome :=
  let current_next := (s.next_seq_by_stream (hash stream)).getD 1
  let plan := planEvents hash o s.frames stream current_next [] events
  let new_frames := plan.filterMap Prod.snd
  (if new_frames = [] then s else s.write o (hash stream) (current_next + new_frames.length) new_frames, plan.map Prod.fst)

def read_stream (stream : StreamKey) (from_seq_inclusive max_events : Nat) : List StoredEvent :=
  let selected := s.frames.filter fun f => hash f.stream = hash stream ∧ from_seq_inclusive ≤ f.seq
  if max_events = 0 then selected else selected.take max_events

def read_tail (stream : StreamKey) (tail_events : Nat) : List StoredEvent :=
  ((s.frames.filter fun f => hash f.stream = hash stream).reverse.take tail_events).reverse

end

/-- A run of appends to an empty shard. -/
def appendAll (batches : List (StreamKey × List AppendEventInput)) : ShardFrames :=
  batches.foldl (fun s b => (append_batch hash o s b.1 b.2).1) {}

variable {hash o} {s : ShardFrames} {stream : StreamKey}

theorem frames_seal_head (s : ShardFrames) : s.seal_head_segment.frames = s.frames := by
  unfold ShardFrames.seal_head_segment
  split_ifs
  · rfl
  · simp [ShardFrames.frames]

theorem frames_write (next : Nat) (frames : List StoredEvent) : (s.write o (hash stream) next frames).frames = s.frames ++ frames := by
  have room : (s.make_room o (batch_record_len o frames)).frames = s.frames := by
    unfold ShardFrames.make_room
    split_ifs
    exacts [frames_seal_head s, rfl]
  unfold ShardFrames.write
  dsimp only
  rw [← room]
  split_ifs
  · rw [frames_seal_head]
    exact (append_assoc ..).symm
  · exact (append_assoc ..).symm

section
variable {known : List StoredEvent} {cursor : Nat} {seen : List (String × Nat)} {events : List AppendEventInput}

theorem stream_planEvents : ∀ f ∈ (planEvents hash o known stream cursor seen events).filterMap Prod.snd, f.stream = stream := by
  fun_induction planEvents hash o known stream cursor seen events with
  | case1 => simp
  | case5 cursor seen ev rest _ _ _ ih =>
    intro f member
    rcases mem_cons.mp member with rfl | later
    exacts [rfl, ih f later]
  | _ => assumption

/-- A duplicate of a committed event is an event of the same hash and the same id. -/
theorem duplicate_planEvents :
    ∀ p ∈ events.zip ((planEvents hash o known stream cursor seen events).map Prod.fst), p.2.status = .DuplicateCommitted →
      ∃ f ∈ known, hash f.stream = hash stream ∧ f.event_id = p.1.event_id ∧ f.seq = p.2.seq := by
  fun_induction planEvents hash o known stream cursor seen events with
  | case1 => simp
  | case4 cursor seen ev rest _ _ f found ih =>
    intro p member duplicate
    rcases mem_cons.mp member with rfl | later
    · have same := find?_some found
      rw [decide_eq_true_eq] at same
      exact ⟨f, mem_of_find?_eq_some found, same.1, same.2, rfl⟩
    · exact ih p later duplicate
  | case2 | case3 | case5 =>
    rename_i ih
    intro p member duplicate
    rcases mem_cons.mp member with rfl | later
    · cases duplicate
    · exact ih p later duplicate

end

theorem frames_append_batch (events : List AppendEventInput) : ∃ new : List StoredEvent, (∀ f ∈ new, f.stream = stream) ∧
    (append_batch hash o s stream events).1.frames = s.frames ++ new := by
  refine ⟨_, @stream_planEvents hash o stream s.frames ((s.next_seq_by_stream (hash stream)).getD 1) [] events, ?_⟩
  unfold append_batch
  dsimp only
  split_ifs with nothing
  · rw [nothing, append_nil]
  · exact frames_write ..

theorem stream_appendAll (batches : List (StreamKey × List AppendEventInput)) :
    ∀ f ∈ (appendAll hash o batches).frames, ∃ b ∈ batches, f.stream = b.1 := by
  induction batches using List.reverseRecOn with
  | nil => simp [appendAll, ShardFrames.frames]
  | append_singleton before b ih =>
    obtain ⟨new, own, frames⟩ := @frames_append_batch hash o (appendAll hash o before) b.1 b.2
    intro f member
    rw [appendAll, foldl_append, foldl_cons, foldl_nil, ← appendAll, frames] at member
    rcases mem_append.mp member with old | here
    · obtain ⟨b', there, same⟩ := ih f old
      exact ⟨b', mem_append_left _ there, same⟩
    · exact ⟨b, mem_append_right _ mem_cons_self, own f here⟩

/-- What a shard answers about a stream is about that stream. -/
structure Isolated (hash : StreamKey → UInt64) (o : ShardOptions) (s : ShardFrames) (stream : StreamKey) : Prop where
  read : ∀ from_seq_inclusive max_events, ∀ e ∈ read_stream hash s stream from_seq_inclusive max_events, e.stream = stream
  tail : ∀ tail_events, ∀ e ∈ read_tail hash s stream tail_events, e.stream = stream
  duplicate : ∀ events : List AppendEventInput, ∀ p ∈ events.zip (append_batch hash o s stream events).2, p.2.status = .DuplicateCommitted →
    ∃ f ∈ s.frames, f.stream = stream ∧ f.event_id = p.1.event_id ∧ f.seq = p.2.seq

def sampleShard : ShardOptions := ⟨128, 1000, fun _ _ payload => payload.length, 8⟩

end

end Crux.Storage
