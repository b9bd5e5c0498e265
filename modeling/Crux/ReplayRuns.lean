import Mathlib.Data.List.Perm.Basic
import Crux.ProjectionLog

/-!
# Replay to an incremental consumer

A log that grows by sealed segments, its own or ones installed by
`apply_replicated_segment_v1`, and a consumer that resumes where it stands. As
long as new segments come behind its cursor it receives every frame once and
in order; a segment installed before the cursor is never delivered.
-/

namespace Crux.Projections
open Crux.Bytes Crux.Segment Crux.Storage List

/-- A segment put in its place among segments in the order of their numbers. -/
def insertSegment (seg : SealedSegment) : List SealedSegment → List SealedSegment
  | [] => [seg]
  | s :: rest => if s.segment_seq < seg.segment_seq then s :: insertSegment seg rest else seg :: s :: rest

theorem insertSegment_perm (seg : SealedSegment) (l : List SealedSegment) : (insertSegment seg l).Perm (seg :: l) := by
  induction l with
  | nil => exact .refl _
  | cons s rest ih =>
    unfold insertSegment
    split_ifs
    · exact (ih.cons s).trans (.swap seg s rest)
    · exact .refl _

variable {seg : SealedSegment}

theorem insertSegment_append (below : ∀ s ∈ front, s.segment_seq < seg.segment_seq) (back : List SealedSegment) :
    insertSegment seg (front ++ back) = front ++ insertSegment seg back := by
  induction front with
  | nil => rfl
  | cons s rest ih =>
    rw [cons_append, insertSegment, if_pos (below s mem_cons_self), ih fun t later => below t (mem_cons_of_mem _ later)]
    rfl

def Numbered (segments : List SealedSegment) : Prop := segments.Pairwise fun a b => a.segment_seq < b.segment_seq

theorem numbered_insert (numbered : Numbered segments) (new : seg.segment_seq ∉ segments.map fun s => s.segment_seq) :
    Numbered (insertSegment seg segments) := by
  induction segments with
  | nil => exact pairwise_singleton _ _
  | cons s rest ih =>
    obtain ⟨first, later⟩ := pairwise_cons.mp numbered
    rw [map_cons, mem_cons, not_or] at new
    unfold insertSegment
    split_ifs with below
    · refine .cons (fun t member => ?_) (ih later new.2)
      rcases mem_cons.mp ((insertSegment_perm seg rest).mem_iff.mp member) with rfl | inside
      · exact below
      · exact first t inside
    · have above : seg.segment_seq < s.segment_seq := UInt64.lt_of_le_of_ne (UInt64.not_lt.mp below) new.1
      exact .cons (forall_mem_cons.mpr ⟨above, fun t member => UInt64.lt_trans above (first t member)⟩) numbered

/-- A segment whose number is in use is already there, or is refused. -/
def SealedLog.install (log : SealedLog) (seg : SealedSegment) : SealedLog :=
  if new : seg.segment_seq ∉ log.segments.map fun s => s.segment_seq then
    ⟨insertSegment seg log.segments, by
      rw [((insertSegment_perm seg log.segments).map fun s => s.segment_seq).nodup_iff]
      exact nodup_cons.mpr ⟨new, log.distinct⟩⟩
  else log

/-! ## Runs -/

/-- A log and a consumer of it, with all it has received. -/
structure Feed where
  log : SealedLog
  cursor : Option ReplayCursor
  received : List ReplayFrame

/-- A segment is committed, sealed here under the next number or installed, or the consumer asks for frames. -/
inductive FeedOp where
  | commit (seg : SealedSegment)
  | replay (max_frames : UInt32)

namespace Feed

def start : Feed := ⟨⟨[], .nil⟩, none, []⟩

def replay (s : Feed) (max_frames : UInt32) : Feed :=
  match s.log.replay_from_sealed s.cursor max_frames with
  | .ok (frames, stop) =>
    { s with cursor := (stop.or (infer_cursor_after_frames frames)).or s.cursor, received := s.received ++ frames }
  | .error _ => s

def step (s : Feed) : FeedOp → Feed
  | .commit seg => { s with log := s.log.install seg }
  | .replay max_frames => s.replay max_frames

def bytes (s : Feed) : List Bytes := s.received.map fun f => f.bytes

end Feed

/-- The frames of every stream come in the order of their sequence numbers. -/
def InOrder (label : Bytes → Option (UInt64 × Nat)) (frames : List Bytes) : Prop :=
  ∀ stream, ((frames.filterMap label).filter fun e => e.1 == stream).Pairwise fun a b => a.2 < b.2

/-- A new segment comes behind the cursor, and the numbers of the segments follow the order in every stream. -/
def Ahead (label : Bytes → Option (UInt64 × Nat)) (s : Feed) : FeedOp → Prop
  | .commit seg => (∀ c, s.cursor = some c → c.segment_seq < seg.segment_seq) ∧ InOrder label (s.log.install seg).frames
  | .replay _ => True

inductive FeedReached (label : Bytes → Option (UInt64 × Nat)) : Feed → Prop
  | start : FeedReached label .start
  | step {s : Feed} {op : FeedOp} (reached : FeedReached label s) (ahead : Ahead label s op) : FeedReached label (s.step op)

/-- The consumer stands behind the frames it has received, which are the first ones of the log. -/
structure Caught (s : Feed) (n : Nat) : Prop where
  numbered : Numbered s.log.segments
  stands : At s.log s.cursor n
  within : n ≤ s.log.frames.length
  received : s.bytes = s.log.frames.take n

theorem length_replaySegments (limit : Nat) (segs : List SealedSegment) (offset : Nat) (out : List ReplayFrame) :
    out.length ≤ (replaySegments limit segs offset out).1.length := by
  induction segs generalizing offset out with
  | nil => exact le_rfl
  | cons seg rest ih =>
    unfold replaySegments
    dsimp only
    split_ifs
    · exact ih _ _
    · exact length_append ▸ Nat.le_add_right _ _
    · exact length_append ▸ Nat.le_add_right _ _
    · exact (length_append ▸ Nat.le_add_right _ _).trans (ih _ _)

theorem replaySegments_none {limit : Nat} (room : 0 < limit) {segs : List SealedSegment} {offset : Nat}
    (nothing : (replaySegments limit segs offset []).1 = []) : (replaySegments limit segs offset []).2 = none := by
  induction segs generalizing offset with
  | nil => rfl
  | cons seg rest ih =>
    unfold replaySegments at nothing ⊢
    dsimp only at nothing ⊢
    generalize (locate seg.segment_seq SEGMENT_HEADER_LEN seg.frames).dropWhile (fun f => decide (f.location.offset < offset)) = left
      at nothing ⊢
    by_cases read : left = []
    · rw [if_pos read] at nothing ⊢
      exact ih nothing
    · have some_part : 0 < (([] : List ReplayFrame) ++ left.take (limit - ([] : List ReplayFrame).length)).length := by
        rw [nil_append, length_take, length_nil]
        exact Nat.lt_min.mpr ⟨room, length_pos_iff.mpr read⟩
      rw [if_neg read] at nothing
      split_ifs at nothing
      · exact absurd (congrArg List.length nothing) some_part.ne'
      · exact absurd (congrArg List.length nothing) some_part.ne'
      · have longer := length_replaySegments limit rest SEGMENT_HEADER_LEN ([] ++ left.take (limit - ([] : List ReplayFrame).length))
        rw [nothing] at longer
        exact absurd (some_part.trans_le longer) (lt_irrefl 0)

theorem replay_none {log : SealedLog} {cursor stop : Option ReplayCursor} {max_frames : UInt32}
    (found : log.replay_from_sealed cursor max_frames = .ok ([], stop)) : stop = none := by
  unfold SealedLog.replay_from_sealed at found
  have nothing : ∀ segs offset, (.ok (replaySegments (replayLimit max_frames) segs offset []) : Res _) = .ok ([], stop) → stop = none := by
    intro segs offset same
    have same := Except.ok.inj same
    have none := @replaySegments_none _ (replayLimit_pos max_frames) segs offset (congrArg Prod.fst same)
    rwa [same] at none
  split at found
  · exact nothing _ _ found
  · split at found
    · cases found
    · exact nothing _ _ found

variable {s : Feed}

theorem Caught.replay {n : Nat} (caught : Caught s n) (max_frames : UInt32) :
    Caught (s.replay max_frames) (min (n + replayLimit max_frames) s.log.frames.length) := by
  obtain ⟨frames, stop, found, read, cursor, finished⟩ := replay_at caught.stands max_frames
  have size := congrArg List.length read
  rw [length_map, length_take, length_drop] at size
  have reach : n + frames.length = min (n + replayLimit max_frames) s.log.frames.length := by
    have := caught.within
    omega
  rw [← reach, Feed.replay, found]
  refine ⟨caught.numbered, ?_, ?_, ?_⟩
  · by_cases none : frames = []
    · subst none
      rw [replay_none found]
      exact caught.stands
    · have stands := cursor none
      have last : ∃ c, stop.or (infer_cursor_after_frames frames) = some c := by
        obtain ⟨front, f, rfl⟩ := eq_nil_or_concat frames |>.resolve_left none
        cases stop with
        | some c => exact ⟨c, rfl⟩
        | none => exact ⟨f.stop, by simp [infer_cursor_after_frames]⟩
      obtain ⟨c, same⟩ := last
      simp [same] at stands ⊢
      exact stands
  · have := caught.within
    simp only
    omega
  · have whole : (s.log.frames.drop n).take (replayLimit max_frames) = (s.log.frames.drop n).take frames.length := by
      rw [size, ← length_drop, ← take_eq_take_min]
    simp [Feed.bytes, read]
    rw [show s.received.map (fun f => f.bytes) = _ from caught.received, whole, take_add]

theorem Place.take_count (p : Place log) : log.frames.take p.count = (p.before.flatMap fun seg => seg.frames) ++ p.done := by
  have frames : log.frames = ((p.before.flatMap fun seg => seg.frames) ++ p.done) ++ (p.left ++ p.later.flatMap fun seg => seg.frames) := by
    rw [SealedLog.frames, p.split, flatMap_append, flatMap_cons, p.frames, append_assoc, append_assoc]
  rw [frames, take_left' (by rw [length_append]; rfl)]

/-- A segment behind the cursor leaves the frames before the cursor as they are. -/
theorem At.install {log log' : SealedLog} {cursor : Option ReplayCursor} {n : Nat} {seg : SealedSegment} (stands : At log cursor n)
    (numbered : Numbered log.segments) (ahead : ∀ c, cursor = some c → c.segment_seq < seg.segment_seq)
    (installed : log'.segments = insertSegment seg log.segments) : At log' cursor n ∧ log'.frames.take n = log.frames.take n := by
  cases stands with
  | genesis => exact ⟨.genesis, rfl⟩
  | inside p =>
    have own := ahead p.cursor rfl
    rw [Numbered, p.split, pairwise_append] at numbered
    have below : ∀ t ∈ p.before ++ [p.seg], t.segment_seq < seg.segment_seq := by
      refine forall_mem_append.mpr ⟨fun t front => ?_, forall_mem_singleton.mpr own⟩
      exact UInt64.lt_trans (numbered.2.2 t front p.seg mem_cons_self) own
    have split : log'.segments = p.before ++ p.seg :: insertSegment seg p.later := by
      rw [installed, p.split, append_cons, insertSegment_append below, ← append_cons]
    let place : Place log' := ⟨p.before, p.seg, _, p.done, p.left, split, p.frames⟩
    exact ⟨.inside place, place.take_count.trans p.take_count.symm⟩

theorem Caught.commit (caught : Caught s n) (ahead : ∀ c, s.cursor = some c → c.segment_seq < seg.segment_seq) :
    Caught (s.step (.commit seg)) n := by
  obtain ⟨numbered, stands, within, read⟩ := caught
  simp only [Feed.step, SealedLog.install]
  split_ifs with used
  · exact ⟨numbered, stands, within, read⟩
  · have size := ((insertSegment_perm seg s.log.segments).flatMap_right fun s => s.frames).length_eq
    rw [flatMap_cons, length_append] at size
    obtain ⟨stands, same⟩ := @At.install s.log ⟨insertSegment seg s.log.segments, _⟩ _ _ _ stands numbered ahead rfl
    exact ⟨numbered_insert numbered used, stands, (within.trans (Nat.le_add_left _ _)).trans size.ge, read.trans same.symm⟩

theorem InOrder.take (ordered : InOrder label frames) (n : Nat) : InOrder label (frames.take n) :=
  fun stream => (ordered stream).sublist (((take_sublist n frames).filterMap label).filter _)

theorem FeedReached.caught (reached : FeedReached label s) : InOrder label s.log.frames ∧ ∃ n, Caught s n := by
  induction reached with
  | start => exact ⟨fun _ => .nil, 0, ⟨.nil, .genesis, le_rfl, rfl⟩⟩
  | @step s op _ ahead ih =>
    obtain ⟨ordered, n, caught⟩ := ih
    cases op with
    | commit seg => exact ⟨ahead.2, n, caught.commit ahead.1⟩
    | replay max_frames =>
      have kept : (s.replay max_frames).log = s.log := by
        unfold Feed.replay
        split <;> rfl
      exact ⟨show InOrder label (s.replay max_frames).log.frames from kept ▸ ordered, _, caught.replay max_frames⟩

theorem Caught.all (caught : Caught s n) (max_frames : UInt32) :
    ∃ calls, ((fun s : Feed => s.replay max_frames)^[calls] s).bytes = s.log.frames := by
  generalize left : s.log.frames.length - n = k
  induction k using Nat.strongRecOn generalizing s n with
  | ind k ih =>
    by_cases done : n = s.log.frames.length
    · exact ⟨0, by rw [Function.iterate_zero_apply, caught.received, done, take_length]⟩
    · have next := caught.replay max_frames
      have kept : (s.replay max_frames).log = s.log := by
        unfold Feed.replay
        split <;> rfl
      have some_more := replayLimit_pos max_frames
      have within := caught.within
      obtain ⟨calls, all⟩ := ih (s.log.frames.length - min (n + replayLimit max_frames) s.log.frames.length) (by omega) next (by rw [kept])
      exact ⟨calls + 1, by rw [Function.iterate_succ_apply, all, kept]⟩

/-- While new segments come behind the cursor, the consumer has received the first frames of the log, each once and
in the order of its stream, and receives all of them by calls of any size. -/
theorem replay_exactly_once {label : Bytes → Option (UInt64 × Nat)} {s : Feed} (reached : FeedReached label s) :
    (∃ n, s.bytes = s.log.frames.take n) ∧ InOrder label s.bytes ∧
      ∀ max_frames, ∃ calls, ((fun s : Feed => s.replay max_frames)^[calls] s).bytes = s.log.frames := by
  obtain ⟨ordered, n, caught⟩ := reached.caught
  refine ⟨⟨n, caught.received⟩, ?_, caught.all⟩
  rw [caught.received]
  exact ordered.take n

def sampleSegment (segment_seq : UInt64) (frame : UInt8) : SealedSegment := ⟨segment_seq, [[frame]], by simp⟩

def sampleLabel (f : Bytes) : Option (UInt64 × Nat) := some (0, f.headI.toNat)

theorem replay_exactly_once_next :
    (∃ n, (((Feed.start.step (.commit (sampleSegment 1 1))).step (.replay 1)).step (.commit (sampleSegment 2 2))).bytes = [[1], [2]].take n) ∧
      InOrder sampleLabel [[1]] := by
  have first : FeedReached sampleLabel (Feed.start.step (.commit (sampleSegment 1 1))) :=
    @FeedReached.step _ _ (.commit (sampleSegment 1 1)) .start ⟨nofun, fun _ => .filter _ (by decide)⟩
  have second : FeedReached sampleLabel ((Feed.start.step (.commit (sampleSegment 1 1))).step (.replay 1)) :=
    @FeedReached.step _ _ (.replay 1) first trivial
  obtain ⟨read, ordered, _⟩ := replay_exactly_once (@FeedReached.step _ _ (.commit (sampleSegment 2 2)) second
    ⟨fun c same => Option.some.inj same ▸ (by decide : (1 : UInt64) < 2), fun _ => .filter _ (by decide)⟩)
  exact ⟨read, ordered⟩

/-- A segment is installed before the cursor. -/
def sampleFeed : Feed := ((Feed.start.step (.commit (sampleSegment 2 2))).step (.replay 1)).step (.commit (sampleSegment 1 1))

theorem lower_segment_never_delivered :
    [1] ∈ sampleFeed.log.frames ∧ ∀ sizes : List UInt32, [1] ∉ (sizes.foldl Feed.replay sampleFeed).bytes := by
  have nothing : ∀ max_frames, sampleFeed.replay max_frames = sampleFeed := fun max_frames => rfl
  refine ⟨by decide, fun sizes => ?_⟩
  have still : sizes.foldl Feed.replay sampleFeed = sampleFeed := by
    induction sizes with
    | nil => rfl
    | cons size rest ih => rw [foldl_cons, nothing, ih]
  rw [still]
  decide

end Crux.Projections
