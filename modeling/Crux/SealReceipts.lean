import Crux.Cbor

/-!
# The receipts a shard makes when it seals a segment

`append_batch`, `force_seal_head`, `retire_segments_in_manifest` and the open of
`corecrux-storage`, as far as they number segments and make seal receipts. Every
call is one whose writes succeed; what a batch holds is its new frames, and a
seal brings the time and the hash of the sealed bytes.
-/

namespace Crux.Seals
open Crux.Bytes Crux.Session

def COMMIT_FRAME_LEN_V1 : Nat := 64

structure SegmentMeta where
  segment_seq : UInt64
  segment_id : FixedBytes 16
  segment_hash : FixedBytes 32
  sealed_at_unix_ns : UInt64

/-- A receipt; the source's two previous fields, both filled or neither, are one pair here. -/
@[ext] structure SegmentSealMaterialV1 where
  shard_id : UInt32
  epoch : UInt64
  segment_seq : UInt64
  segment_id : FixedBytes 16
  segment_hash : FixedBytes 32
  previous_segment : Option (UInt64 × FixedBytes 32)
  sealed_at_unix_ns : UInt64
  frame_count : UInt64

def u64be (x : UInt64) : Bytes := beBytes 8 x.toNat

def previous_bytes : Option (UInt64 × FixedBytes 32) → Bytes
  | some (seq, hash) => 1 :: (u64be seq ++ hash.val)
  | none => 0 :: (u64be 0 ++ List.replicate 32 0)

def SegmentSealMaterialV1.signing_bytes (r : SegmentSealMaterialV1) : Bytes :=
  as_bytes "corecrux.segment_seal.material.v1\x00" ++ (beBytes 4 r.shard_id.toNat ++ (u64be r.epoch ++ (u64be r.segment_seq ++
    (r.segment_id.val ++ (r.segment_hash.val ++ (previous_bytes r.previous_segment ++
      (u64be r.sealed_at_unix_ns ++ u64be r.frame_count)))))))

def SegmentSealMaterialV1.material_hash (blake3 : Bytes → FixedBytes 32) (r : SegmentSealMaterialV1) : FixedBytes 32 :=
  blake3 r.signing_bytes

/-- The receipt `later` names the segment of `earlier` as its predecessor. -/
def Names (earlier later : SegmentSealMaterialV1) : Prop :=
  later.previous_segment = some (earlier.segment_seq, earlier.segment_hash)

structure HeadSegment where
  segment_seq : UInt64
  record_len : Nat
  frames : Nat

structure Shard where
  shard_id : UInt32
  epoch : UInt64
  head_max_record_bytes : Nat
  segments_in_order : List SegmentMeta := []
  next_segment_seq : UInt64 := 1
  head : Option HeadSegment := none
  receipts : List SegmentSealMaterialV1 := []

open Shard

structure Seal where
  sealed_at_unix_ns : UInt64
  segment_hash : FixedBytes 32

def deterministic_segment_id (epoch segment_seq : UInt64) : FixedBytes 16 := ⟨u64le epoch ++ u64le segment_seq, by simp⟩

/-- The last of the segments with the greatest number, as `max_by_key` has it. -/
def max_by_key (segments : List SegmentMeta) : Option SegmentMeta :=
  segments.foldl (fun best m => if best.any fun b => m.segment_seq < b.segment_seq then best else some m) none

def Shard.segment_seal_material_v1 (s : Shard) (seg : SegmentMeta) (frame_count : Nat) : SegmentSealMaterialV1 :=
  let previous := max_by_key (s.segments_in_order.filter fun m => m.segment_seq < seg.segment_seq)
  ⟨s.shard_id, s.epoch, seg.segment_seq, seg.segment_id, seg.segment_hash,
    previous.map fun m => (m.segment_seq, m.segment_hash), seg.sealed_at_unix_ns, .ofNat frame_count⟩

/-- The sealed file is in place and in the manifest, where it replaces one of its number. The list
in memory keeps both, and sorts stably: `max_by_key` sees neither. -/
def Shard.publish (s : Shard) (h : HeadSegment) (made : Seal) : Shard :=
  let seg : SegmentMeta :=
    ⟨h.segment_seq, deterministic_segment_id s.epoch h.segment_seq, made.segment_hash, made.sealed_at_unix_ns⟩
  { s with
    segments_in_order := (s.segments_in_order.filter fun m => m.segment_seq ≠ seg.segment_seq) ++ [seg]
    receipts := s.receipts ++ [s.segment_seal_material_v1 seg h.frames] }

def Shard.seal_head_segment (s : Shard) (made : Seal) : Shard :=
  match s.head with
  | none => s
  | some h => { s with head := none }.publish h made

def Shard.ensure_head_open (s : Shard) : Shard :=
  if s.head.isSome then s
  else { s with head := some ⟨s.next_segment_seq, 0, 0⟩, next_segment_seq := s.next_segment_seq + 1 }

def Shard.append_batch (s : Shard) (frames : List Bytes) (rolled made : Seal) : Shard :=
  if frames = [] then s
  else if s.head_max_record_bytes = 0 then
    { s with next_segment_seq := s.next_segment_seq + 1 }.publish ⟨s.next_segment_seq, 0, frames.length⟩ made
  else
    let batch_record_len := (frames.map List.length).sum + COMMIT_FRAME_LEN_V1
    let s := if s.head.any fun h => 0 < h.record_len ∧ s.head_max_record_bytes < h.record_len + batch_record_len
      then s.seal_head_segment rolled else s
    let s := s.ensure_head_open
    let s := { s with head := s.head.map fun (h : HeadSegment) =>
      { h with record_len := h.record_len + batch_record_len, frames := h.frames + frames.length } }
    if s.head.any fun h => s.head_max_record_bytes ≤ h.record_len then s.seal_head_segment made else s

def Shard.remaining (s : Shard) (retired : List UInt64) : List SegmentMeta :=
  s.segments_in_order.filter fun m => m.segment_seq ∉ retired

/-- The shard is closed, some segments are retired and unlinked, and it is opened again. The next
number is taken from the sealed files: the name of a head left open does not count. -/
def Shard.reopen (s : Shard) (retired : List UInt64) (head_max_record_bytes : Nat) (made : Seal) : Shard :=
  let s := { s with
    head_max_record_bytes, segments_in_order := s.remaining retired
    next_segment_seq := (max_by_key (s.remaining retired)).elim 0 (·.segment_seq) + 1 }
  if head_max_record_bytes = 0 then s.seal_head_segment made else s

inductive Call where
  | append_batch (frames : List Bytes) (rolled made : Seal)
  | force_seal_head (made : Seal)
  | reopen (retired : List UInt64) (head_max_record_bytes : Nat) (made : Seal)

def Shard.step (s : Shard) : Call → Shard
  | .append_batch frames rolled made => s.append_batch frames rolled made
  | .force_seal_head made => s.seal_head_segment made
  | .reopen retired head_max_record_bytes made => s.reopen retired head_max_record_bytes made

/-- A reopen finds no head and the newest segment still there; the numbers do not run out. -/
def Call.Settled (s : Shard) : Call → Prop
  | .reopen retired _ _ => s.head = none ∧ ∀ m ∈ s.segments_in_order.getLast?, m.segment_seq ∉ retired
  | _ => s.next_segment_seq.toNat + 1 < 2 ^ 64

def Shard.AllSettled : Shard → List Call → Prop
  | _, [] => True
  | s, call :: calls => call.Settled s ∧ (s.step call).AllSettled calls

theorem u64be_inj (same : u64be x = u64be y) : x = y := by
  have numbers := congrArg ofBe same
  rwa [u64be, u64be, ofBe_beBytes 8 _ x.toNat_lt, ofBe_beBytes 8 _ y.toNat_lt, UInt64.toNat_inj] at numbers

@[simp] theorem length_previous_bytes (previous : Option (UInt64 × FixedBytes 32)) : (previous_bytes previous).length = 41 := by
  rcases previous with _ | ⟨seq, hash⟩ <;> simp [previous_bytes, u64be]

theorem previous_bytes_inj (same : previous_bytes p = previous_bytes q) : p = q := by
  rcases p with _ | ⟨seq, hash⟩ <;> rcases q with _ | ⟨seq', hash'⟩
  · rfl
  · exact absurd (List.cons.inj same).1 (by decide)
  · exact absurd (List.cons.inj same).1 (by decide)
  · obtain ⟨numbers, hashes⟩ := List.append_inj (List.cons.inj same).2 (by simp [u64be])
    rw [u64be_inj numbers, Subtype.ext hashes]

theorem signing_bytes_inj {r t : SegmentSealMaterialV1} (same : r.signing_bytes = t.signing_bytes) : r = t := by
  obtain ⟨_, same⟩ := List.append_inj same rfl
  obtain ⟨shard_id, same⟩ := List.append_inj same (by simp)
  obtain ⟨epoch, same⟩ := List.append_inj same (by simp [u64be])
  obtain ⟨segment_seq, same⟩ := List.append_inj same (by simp [u64be])
  obtain ⟨segment_id, same⟩ := List.append_inj same (by simp)
  obtain ⟨segment_hash, same⟩ := List.append_inj same (by simp)
  obtain ⟨previous, same⟩ := List.append_inj same (by simp)
  obtain ⟨sealed_at, frame_count⟩ := List.append_inj same (by simp [u64be])
  have shard_numbers := congrArg ofBe shard_id
  rw [ofBe_beBytes 4 _ r.shard_id.toNat_lt, ofBe_beBytes 4 _ t.shard_id.toNat_lt, UInt32.toNat_inj] at shard_numbers
  exact SegmentSealMaterialV1.ext shard_numbers (u64be_inj epoch) (u64be_inj segment_seq) (Subtype.ext segment_id)
    (Subtype.ext segment_hash) (previous_bytes_inj previous) (u64be_inj sealed_at) (u64be_inj frame_count)

/-- The number below which every sealed segment lies. -/
def Shard.front (s : Shard) : UInt64 := s.head.elim s.next_segment_seq (·.segment_seq)

structure Linked (s : Shard) : Prop where
  ascending : s.segments_in_order.Pairwise (·.segment_seq < ·.segment_seq)
  below : ∀ m ∈ s.segments_in_order, m.segment_seq < s.front
  ahead : ∀ h ∈ s.head, h.segment_seq < s.next_segment_seq
  headless : s.head_max_record_bytes = 0 → s.head = none
  last : ∀ r ∈ s.receipts.getLast?, ∃ m ∈ s.segments_in_order.getLast?,
    m.segment_seq = r.segment_seq ∧ m.segment_hash = r.segment_hash
  chain : s.receipts.IsChain Names

theorem max_by_key_ascending (ascending : segments.Pairwise (·.segment_seq < ·.segment_seq)) :
    max_by_key segments = segments.getLast? := by
  induction segments using List.reverseRecOn with
  | nil => rfl
  | append_singleton front m before =>
    rw [List.pairwise_append] at ascending
    have best : max_by_key front = front.getLast? := before ascending.1
    rw [max_by_key, List.foldl_append, ← max_by_key, best, List.getLast?_concat]
    refine if_neg fun greater => ?_
    obtain ⟨b, last, greater⟩ := (Option.any_eq_true _ _).mp greater
    exact absurd (of_decide_eq_true greater)
      (UInt64.lt_asymm (ascending.2.2 b (List.mem_of_getLast? last) m List.mem_cons_self))

theorem Linked.publish (linked : Linked s) (front : h.segment_seq = s.front) (made : Seal) (ahead : h.segment_seq < next) :
    Linked ({ s with head := none, next_segment_seq := next }.publish h made) := by
  have below : ∀ m ∈ s.segments_in_order, m.segment_seq < h.segment_seq := front ▸ linked.below
  refine ⟨?_, ?_, nofun, fun _ => rfl, ?_, ?_⟩
  · refine List.pairwise_append.mpr ⟨linked.ascending.filter _, List.pairwise_singleton .., fun m there seg sealed => ?_⟩
    rw [List.mem_singleton.mp sealed]
    exact below m (List.mem_of_mem_filter there)
  · intro m member
    rcases List.mem_append.mp member with old | new
    · exact UInt64.lt_trans (below m (List.mem_of_mem_filter old)) ahead
    · rwa [List.mem_singleton.mp new]
  · intro r last
    rw [Shard.publish, List.getLast?_concat, Option.mem_some_iff] at last
    subst last
    exact ⟨_, List.getLast?_concat .., rfl, rfl⟩
  · refine List.isChain_append.mpr ⟨linked.chain, .singleton _, fun r last t new => ?_⟩
    obtain ⟨m, newest, seq, hash⟩ := linked.last r last
    obtain rfl := Option.some.inj new
    have previous : max_by_key (s.segments_in_order.filter fun m => m.segment_seq < h.segment_seq) = some m := by
      rw [List.filter_eq_self.mpr fun m there => decide_eq_true (below m there), max_by_key_ascending linked.ascending]
      exact newest
    simp [Names, segment_seal_material_v1, previous, seq, hash]

theorem Linked.sealed (linked : Linked s) (made : Seal) : Linked (s.seal_head_segment made) := by
  rw [seal_head_segment]
  split
  · exact linked
  · next h head => exact linked.publish (by rw [front, head]; rfl) made (linked.ahead h head)

theorem Linked.grow (linked : Linked s) (more_len more_frames : Nat) :
    Linked { s with head := s.head.map fun h => { h with record_len := h.record_len + more_len, frames := h.frames + more_frames } } := by
  obtain ⟨ascending, below, ahead, headless, last, chain⟩ := linked
  cases head : s.head with
  | none => exact ⟨ascending, by simpa [front, head] using below, nofun, fun _ => rfl, last, chain⟩
  | some h =>
    refine ⟨ascending, by simpa [front, head] using below, ?_, fun off => ?_, last, chain⟩
    · rintro _ ⟨⟩
      exact ahead h head
    · exact absurd (head.symm.trans (headless off)) nofun

theorem lt_add_one {n : UInt64} (room : n.toNat + 1 < 2 ^ 64) : n < n + 1 := by
  rw [UInt64.lt_iff_toNat_lt, UInt64.toNat_add, UInt64.toNat_one, Nat.mod_eq_of_lt room]
  exact Nat.lt_succ_self _

theorem Linked.opened (linked : Linked s) (on : s.head_max_record_bytes ≠ 0) (room : s.next_segment_seq.toNat + 1 < 2 ^ 64) :
    Linked s.ensure_head_open := by
  rw [ensure_head_open]
  split
  · exact linked
  · next absent =>
    have head : s.head = none := by simpa using absent
    refine ⟨linked.ascending, ?_, ?_, fun off => absurd off on, linked.last, linked.chain⟩
    · simpa [front, head] using linked.below
    · rintro _ ⟨⟩
      exact lt_add_one room

theorem Linked.appended (linked : Linked s) (room : s.next_segment_seq.toNat + 1 < 2 ^ 64) (frames : List Bytes)
    (rolled made : Seal) : Linked (s.append_batch frames rolled made) := by
  rw [append_batch]
  split_ifs with _ off
  · exact linked
  · have head := linked.headless off
    have published := linked.publish (h := ⟨s.next_segment_seq, 0, frames.length⟩) (by rw [front, head]; rfl) made (lt_add_one room)
    rwa [← head] at published
  · have kept : ∀ t, t = s ∨ t = s.seal_head_segment rolled →
        Linked t ∧ t.head_max_record_bytes = s.head_max_record_bytes ∧ t.next_segment_seq = s.next_segment_seq := by
      rintro t (rfl | rfl)
      · exact ⟨linked, rfl, rfl⟩
      · refine ⟨linked.sealed rolled, ?_⟩
        rw [seal_head_segment]
        split <;> exact ⟨rfl, rfl⟩
    extract_lets batch_record_len t opened grown
    obtain ⟨t_linked, max_same, next_same⟩ := kept t (by rw [show t = if _ then _ else _ from rfl]; split <;> simp)
    have grown_linked : Linked grown := (t_linked.opened (max_same ▸ off) (next_same ▸ room)).grow ..
    split
    · exact grown_linked.sealed made
    · exact grown_linked

theorem below_next {segments : List SegmentMeta} (ascending : segments.Pairwise (·.segment_seq < ·.segment_seq))
    (room : ∀ m ∈ segments, m.segment_seq.toNat + 1 < 2 ^ 64) :
    ∀ m ∈ segments, m.segment_seq < (max_by_key segments).elim 0 (·.segment_seq) + 1 := by
  rw [max_by_key_ascending ascending]
  rcases List.eq_nil_or_concat' segments with rfl | ⟨front, newest, rfl⟩
  · nofun
  · intro m member
    rw [List.getLast?_concat]
    have step := lt_add_one (room newest (by simp))
    rcases List.mem_append.mp member with old | new
    · exact UInt64.lt_trans ((List.pairwise_append.mp ascending).2.2 m old newest List.mem_cons_self) step
    · rwa [List.mem_singleton.mp new]

theorem Linked.reopened (linked : Linked s) (head : s.head = none)
    (kept : ∀ m ∈ s.segments_in_order.getLast?, m.segment_seq ∉ retired) (head_max_record_bytes : Nat) (made : Seal) :
    Linked (s.reopen retired head_max_record_bytes made) := by
  obtain ⟨ascending, below, _, _, last, chain⟩ := linked
  rw [front, head] at below
  have still : (s.remaining retired).getLast? = s.segments_in_order.getLast? := by
    rw [remaining]
    rcases List.eq_nil_or_concat' s.segments_in_order with none_sealed | ⟨front, newest, sealed⟩
    · rw [none_sealed, List.filter_nil]
    · rw [sealed, List.getLast?_concat] at kept ⊢
      rw [List.filter_append, List.filter_cons_of_pos (by simpa using kept newest rfl), List.filter_nil, List.getLast?_concat]
  have sorted : (s.remaining retired).Pairwise (·.segment_seq < ·.segment_seq) := ascending.filter _
  have room : ∀ m ∈ s.remaining retired, m.segment_seq.toNat + 1 < 2 ^ 64 := by
    intro m member
    have lower := UInt64.lt_iff_toNat_lt.mp (below m (List.mem_of_mem_filter member))
    exact Nat.lt_of_le_of_lt lower s.next_segment_seq.toNat_lt
  have opened : Linked { s with
      head_max_record_bytes, segments_in_order := s.remaining retired
      next_segment_seq := (max_by_key (s.remaining retired)).elim 0 (·.segment_seq) + 1 } := by
    refine ⟨sorted, ?_, by simp [head], fun _ => head, by simpa only [still] using last, chain⟩
    rw [front, head]
    exact below_next sorted room
  rw [reopen]
  split
  · exact opened.sealed made
  · exact opened

theorem Linked.run {s : Shard} (linked : Linked s) {calls : List Call} (settled : s.AllSettled calls) :
    Linked (calls.foldl step s) := by
  induction calls generalizing s with
  | nil => exact linked
  | cons call calls rest =>
    refine rest ?_ settled.2
    cases call with
    | append_batch frames rolled made => exact linked.appended settled.1 frames rolled made
    | force_seal_head made => exact linked.sealed made
    | reopen retired head_max_record_bytes made => exact linked.reopened settled.1.1 settled.1.2 head_max_record_bytes made

/-- In a run whose calls are all settled each receipt names the segment sealed just before it; in
any run equal hashes are of equal receipts, collisions apart. -/
theorem seal_receipts_chain (blake3 : Bytes → FixedBytes 32) (shard_id : UInt32) (epoch : UInt64) (head_max_record_bytes : Nat)
    (calls : List Call) (settled : Shard.AllSettled { shard_id, epoch, head_max_record_bytes } calls) :
    (calls.foldl Shard.step { shard_id, epoch, head_max_record_bytes }).receipts.IsChain Names ∧
      ∀ r t : SegmentSealMaterialV1, Set.InjOn blake3 {r.signing_bytes, t.signing_bytes} →
        r.material_hash blake3 = t.material_hash blake3 → r = t := by
  refine ⟨(Linked.run ⟨.nil, by simp, by simp, fun _ => rfl, by simp, .nil⟩ settled).chain, fun r t free same => ?_⟩
  exact signing_bytes_inj (free (by simp) (by simp) same)

def sampleSeal (n : UInt8) : Seal := ⟨0, ⟨List.replicate 32 n, rfl⟩⟩

theorem seal_receipts_chain_two :
    let calls := [.append_batch [[1]] (sampleSeal 1) (sampleSeal 1), .reopen [] 0 (sampleSeal 2),
      .append_batch [[2]] (sampleSeal 3) (sampleSeal 3)]
    Shard.AllSettled ⟨0, 0, 0, [], 1, none, []⟩ calls ∧
      (calls.foldl step ⟨0, 0, 0, [], 1, none, []⟩).receipts.IsChain Names := by
  have settled : Shard.AllSettled ⟨0, 0, 0, [], 1, none, []⟩ [.append_batch [[1]] (sampleSeal 1) (sampleSeal 1),
      .reopen [] 0 (sampleSeal 2), .append_batch [[2]] (sampleSeal 3) (sampleSeal 3)] :=
    ⟨Nat.lt_of_sub_eq_succ rfl, ⟨rfl, by simp⟩, Nat.lt_of_sub_eq_succ rfl, trivial⟩
  exact ⟨settled, (seal_receipts_chain (fixed 32) 0 0 0 _ settled).1⟩

/-- A head left open by a close keeps its number, and the segment opened after it gets it again:
its receipt does not name the head's segment. -/
theorem seal_chain_breaks :
    ¬ (([.append_batch [[1]] (sampleSeal 1) (sampleSeal 1), .reopen [] 1000 (sampleSeal 1), .force_seal_head (sampleSeal 1),
      .append_batch [[2]] (sampleSeal 2) (sampleSeal 2), .force_seal_head (sampleSeal 2)] : List Call).foldl Shard.step
        ⟨0, 0, 1000, [], 1, none, []⟩).receipts.IsChain Names := by
  intro chain
  have second := (List.isChain_cons_cons.mp chain).1
  exact absurd second nofun

end Crux.Seals
