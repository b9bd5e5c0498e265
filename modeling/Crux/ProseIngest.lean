import Crux.Cbor
import Crux.SegmentDiscovery
import Crux.ShardFrames

/-!
# Dense vectors of ingested prose

`seal_prose_documents` of `corecruxd/src/local_ingest.rs`: the vectors are
numbered by counting chunks, the companion index numbers the frames of the
segment that is sealed. Calls that fail in the storage are left out.
-/

namespace Crux.Retrieval
open Crux.Bytes Crux.Storage List

structure ProseChunk where
  chunk_id : String
  text : String
  dense_vector : Option (List UInt32)

structure ProseDocument where
  doc_id : String
  chunks : List ProseChunk

section
variable (hash : StreamKey → UInt64) (o : ShardOptions) (tenant_id corpus_id : String)

/-- The batch of a document. -/
def ProseDocument.batch (doc : ProseDocument) : StreamKey × List AppendEventInput :=
  ((tenant_id, corpus_id, doc.doc_id), doc.chunks.map fun c => ⟨c.chunk_id, Session.as_bytes c.text⟩)

def allChunks (documents : List ProseDocument) : List ProseChunk := documents.flatMap ProseDocument.chunks

def dense_entries (documents : List ProseDocument) : List (Nat × List UInt32) :=
  (allChunks documents).zipIdx.filterMap fun p => p.1.dense_vector.map fun v => (p.2, v)

/-- The segment sealed at the end and the vectors beside it; `none` if the vectors differ in size. -/
def seal_prose_documents (s : ShardFrames) (documents : List ProseDocument) :
    Option (List StoredEvent × List (Nat × List UInt32)) :=
  let entries := dense_entries documents
  if ∃ e ∈ entries, ∃ e' ∈ entries, e.2.length ≠ e'.2.length then none
  else
    let head := ((documents.map (ProseDocument.batch tenant_id corpus_id)).foldl (fun s b => (append_batch hash o s b.1 b.2).1) s).head
    some (head, if head = [] then [] else entries)

/-- The text of a payload that the companion indexes. -/
def payloadTokens (tokenize : String → List UInt64) (payload : Bytes) : Option (List UInt64) :=
  match Session.from_utf8 payload with
  | some text => if text = "" then none else some (tokenize text)
  | none => none

/-- Frame `i` holds the text of the chunk, and a companion of the frames lists it as document `i`. -/
def Holds (tenant_hash : String → Nat) (tokenize : String → List UInt64) (frames : List StoredEvent) (i : Nat) (c : ProseChunk) : Prop :=
  (∃ f, frames[i]? = some f ∧ f.event_id = c.chunk_id ∧ f.payload_bytes = Session.as_bytes c.text) ∧
    ∀ (g : SealedGroup) r,
      (g.frames.map fun f => (f.tenant_id, f.tokens)) = (frames.map fun f => (f.stream.1, payloadTokens tokenize f.payload_bytes)) →
        g.reader tenant_hash = some r →
          ∃ f, g.frames[i]? = some f ∧ f.tokens = some (tokenize c.text) ∧ r.docs[i]? = some (docOf tenant_hash f)

/-- Every vector is under the number of its text, and every chunk with a vector is covered. -/
def VectorsAttached (tenant_hash : String → Nat) (tokenize : String → List UInt64) (documents : List ProseDocument)
    (out : List StoredEvent × List (Nat × List UInt32)) : Prop :=
  (∀ e ∈ out.2, ∃ c ∈ allChunks documents, c.dense_vector = some e.2 ∧ Holds tenant_hash tokenize out.1 e.1 c) ∧
    ∀ c ∈ allChunks documents, ∀ v, c.dense_vector = some v → ∃ i, (i, v) ∈ out.2 ∧ Holds tenant_hash tokenize out.1 i c

def eventContents (b : StreamKey × List AppendEventInput) : List (StreamKey × String × Bytes) :=
  b.2.map fun e => (b.1, e.event_id, e.payload_bytes)

def contents (frames : List StoredEvent) : List (StreamKey × String × Bytes) :=
  frames.map fun f => (f.stream, f.event_id, f.payload_bytes)

/-- The length of a batch whose events are all new. -/
def batchLen (b : StreamKey × List AppendEventInput) : Nat :=
  ((eventContents b).map fun e => o.frame_len e.1 e.2.1 e.2.2).sum + o.commit_frame_len

/-- All events are acceptable, new and distinct, and fit into the open head. -/
structure Clean (s : ShardFrames) (batches : List (StreamKey × List AppendEventInput)) : Prop where
  ids : ∀ b ∈ batches, ∀ e ∈ b.2, e.event_id ≠ "" ∧ e.event_id.utf8ByteSize ≤ o.max_event_id_bytes
  new : ∀ b ∈ batches, ∀ e ∈ b.2, ∀ f ∈ s.frames, hash f.stream = hash b.1 → f.event_id ≠ e.event_id
  distinct : (batches.flatMap fun b => b.2.map fun e => (hash b.1, e.event_id)).Nodup
  fits : s.record_len + (batches.map (batchLen o)).sum < o.head_max_record_bytes

variable {hash o} {s : ShardFrames}

theorem contents_planEvents {known : List StoredEvent} {stream : StreamKey} {cursor : Nat} {seen : List (String × Nat)}
    {events : List AppendEventInput} (ids : ∀ e ∈ events, e.event_id ≠ "" ∧ e.event_id.utf8ByteSize ≤ o.max_event_id_bytes)
    (new : ∀ e ∈ events, ∀ f ∈ known, hash f.stream = hash stream → f.event_id ≠ e.event_id)
    (unseen : ∀ e ∈ events, seen.lookup e.event_id = none) (distinct : (events.map AppendEventInput.event_id).Nodup) :
    contents ((planEvents hash o known stream cursor seen events).filterMap Prod.snd) = eventContents (stream, events) := by
  induction events generalizing cursor seen with
  | nil => rfl
  | cons e rest ih =>
    obtain ⟨some_id, short⟩ := ids e mem_cons_self
    have absent : (known.find? fun f => hash f.stream = hash stream ∧ f.event_id = e.event_id) = none :=
      List.find?_eq_none.mpr fun f member found =>
        new e mem_cons_self f member (of_decide_eq_true found).1 (of_decide_eq_true found).2
    obtain ⟨apart, distinct⟩ := nodup_cons.mp distinct
    rw [planEvents, if_neg (by simp [some_id, short]), unseen e mem_cons_self]
    rw [absent]
    refine congrArg ((stream, e.event_id, e.payload_bytes) :: ·) (ih (fun x later => ids x (mem_cons_of_mem _ later))
      (fun x later => new x (mem_cons_of_mem _ later)) (fun x later => ?_) distinct)
    have other : x.event_id ≠ e.event_id := fun same => apart (same ▸ mem_map_of_mem later)
    rw [lookup_cons, beq_eq_false_iff_ne.mpr other]
    exact unseen x (mem_cons_of_mem _ later)

theorem Clean.append_batch (clean : Clean hash o s (b :: rest)) :
    contents (append_batch hash o s b.1 b.2).1.head = contents s.head ++ eventContents b ∧
      Clean hash o (append_batch hash o s b.1 b.2).1 rest := by
  obtain ⟨ids, new, distinct, fits⟩ := clean
  rw [flatMap_cons, nodup_append] at distinct
  obtain ⟨own, others, apart⟩ := distinct
  rw [map_cons, sum_cons, ← Nat.add_assoc] at fits
  have all := @contents_planEvents hash o s.frames b.1 ((s.next_seq_by_stream (hash b.1)).getD 1) [] b.2 (ids b mem_cons_self)
    (new b mem_cons_self) (fun _ _ => rfl) (List.Nodup.of_map (Prod.mk (hash b.1)) (by rwa [map_map]))
  unfold Storage.append_batch
  dsimp only
  generalize (planEvents hash o s.frames b.1 ((s.next_seq_by_stream (hash b.1)).getD 1) [] b.2).filterMap Prod.snd = frames at all
  have len : batch_record_len o frames = batchLen o b := by
    rw [batchLen, ← all]
    simp [batch_record_len, contents, Function.comp_def]
  split_ifs with nothing
  · rw [nothing] at all
    rw [← all]
    exact ⟨(append_nil _).symm, fun b' later => ids b' (mem_cons_of_mem _ later),
      fun b' later => new b' (mem_cons_of_mem _ later), others, by omega⟩
  · have room : s.record_len + batch_record_len o frames < o.head_max_record_bytes := by omega
    have written : s.write o (hash b.1) (((s.next_seq_by_stream (hash b.1)).getD 1) + frames.length) frames =
        ⟨s.sealed_segments, s.head ++ frames, s.record_len + batch_record_len o frames,
          s.next_seq_by_stream.insert (hash b.1) (((s.next_seq_by_stream (hash b.1)).getD 1) + frames.length)⟩ := by
      simp [ShardFrames.write, ShardFrames.make_room, not_lt_of_gt room, not_le_of_gt room]
    refine ⟨by rw [written, ← all]; exact map_append .., fun b' later => ids b' (mem_cons_of_mem _ later),
      fun b' later e inside f member same => ?_, others, by rw [written, len]; exact fits⟩
    rw [frames_write] at member
    rcases mem_append.mp member with old | here
    · exact new b' (mem_cons_of_mem _ later) e inside f old same
    · have listed : (f.stream, f.event_id, f.payload_bytes) ∈ eventContents b := by
        rw [← all]
        exact mem_map_of_mem here
      obtain ⟨e', own_event, same_event⟩ := mem_map.mp listed
      obtain ⟨same_stream, rest_same⟩ := Prod.mk.inj same_event
      intro named
      refine apart _ (mem_map_of_mem own_event) _ (mem_flatMap.mpr ⟨b', later, mem_map_of_mem inside⟩) ?_
      rw [same_stream, same, (Prod.mk.inj rest_same).1, named]

theorem Clean.contents_head (clean : Clean hash o s batches) :
    contents (batches.foldl (fun s b => (Storage.append_batch hash o s b.1 b.2).1) s).head =
      contents s.head ++ batches.flatMap eventContents := by
  induction batches generalizing s with
  | nil => exact (append_nil _).symm
  | cons b rest ih =>
    rw [foldl_cons, ih clean.append_batch.2, clean.append_batch.1, flatMap_cons, append_assoc]

def sampleChunks : List ProseChunk := [⟨"a", "x", none⟩, ⟨"b", "y", some [1]⟩]

def sampleSegment : List StoredEvent :=
  [⟨("t", "c", "d"), 1, "a", Session.as_bytes "x"⟩, ⟨("t", "c", "d"), 2, "b", Session.as_bytes "y"⟩]

end

end Crux.Retrieval
