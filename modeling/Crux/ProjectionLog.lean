import Crux.ProjectionCodec
import Crux.SegmentCodec

/-!
# Replaying the sealed log

What a projection store reads of the storage: `replay_from_sealed` of
`corecrux-storage/src/read.rs`, over the sealed segments as the frames they
hold. A cursor stands at a number of frames (`At`), and `replay_at` is all that
the store needs to know: from there the next frames are read, as many as asked
for, and the cursor behind them stands after them.
-/

namespace Crux.Storage

/-- Where replay goes on: a segment and an offset in it. -/
structure ReplayCursor where
  segment_seq : UInt64
  offset : Nat
deriving DecidableEq

end Crux.Storage

namespace Crux.Projections
open Crux.Bytes Crux.Segment Crux.Storage List

/-- A sealed segment: its frames fill the record area. -/
structure SealedSegment where
  segment_seq : UInt64
  frames : List Bytes
  framed : ∀ f ∈ frames, f ≠ []

structure SealedLog where
  segments : List SealedSegment
  distinct : (segments.map fun seg => seg.segment_seq).Nodup

def SealedLog.frames (log : SealedLog) : List Bytes := log.segments.flatMap fun seg => seg.frames

/-- A frame with the place it was read from. -/
structure ReplayFrame where
  location : ReplayCursor
  bytes : Bytes
deriving DecidableEq

/-- The number of bytes of some frames. -/
def extent (frames : List Bytes) : Nat := (frames.map List.length).sum

/-- Consecutive frames with their places. -/
def locate (segment_seq : UInt64) (offset : Nat) : List Bytes → List ReplayFrame
  | [] => []
  | f :: rest => { location := ⟨segment_seq, offset⟩, bytes := f } :: locate segment_seq (offset + f.length) rest

def SealedSegment.record_end (seg : SealedSegment) : Nat := SEGMENT_HEADER_LEN + extent seg.frames

def ReplayFrame.stop (f : ReplayFrame) : ReplayCursor := ⟨f.location.segment_seq, f.location.offset + f.bytes.length⟩

def infer_cursor_after_frames (frames : List ReplayFrame) : Option ReplayCursor := frames.getLast?.map ReplayFrame.stop

/-- The start of the next segment. -/
def nextStart : List SealedSegment → Option ReplayCursor
  | [] => none
  | seg :: _ => some ⟨seg.segment_seq, SEGMENT_HEADER_LEN⟩

/-- The frames of the segments from an offset of the first one on, until the limit. -/
def replaySegments (limit : Nat) : List SealedSegment → Nat → List ReplayFrame → List ReplayFrame × Option ReplayCursor
  | [], _, out => (out, none)
  | seg :: rest, offset, out =>
    let left := (locate seg.segment_seq SEGMENT_HEADER_LEN seg.frames).dropWhile fun f => decide (f.location.offset < offset)
    if left = [] then replaySegments limit rest SEGMENT_HEADER_LEN out
    else
      let part := left.take (limit - out.length)
      let out := out ++ part
      let stopped := ((part.getLast?.map ReplayFrame.stop).getD ⟨seg.segment_seq, offset⟩).offset
      if limit ≤ out.length then
        if seg.record_end ≤ stopped then (out, nextStart rest) else (out, some ⟨seg.segment_seq, stopped⟩)
      else replaySegments limit rest SEGMENT_HEADER_LEN out

def replayLimit (max_frames : UInt32) : Nat := if max_frames = 0 then 2 ^ 64 - 1 else max_frames.toNat

def SealedLog.replay_from_sealed (log : SealedLog) (cursor : Option ReplayCursor) (max_frames : UInt32) :
    Res (List ReplayFrame × Option ReplayCursor) :=
  let limit := replayLimit max_frames
  match cursor with
  | none => .ok (replaySegments limit log.segments SEGMENT_HEADER_LEN [])
  | some c =>
    match log.segments.dropWhile fun seg => decide (seg.segment_seq ≠ c.segment_seq) with
    | [] => .error (.Storage s!"cursor segment_seq {c.segment_seq.toNat} not found")
    | segs => .ok (replaySegments limit segs c.offset [])

/-- A place in the log between two frames of a segment. -/
structure Place (log : SealedLog) where
  before : List SealedSegment
  seg : SealedSegment
  later : List SealedSegment
  done : List Bytes
  left : List Bytes
  split : log.segments = before ++ seg :: later
  frames : seg.frames = done ++ left

namespace Place
variable {log : SealedLog} (p : Place log)

def offset : Nat := SEGMENT_HEADER_LEN + extent p.done
def cursor : ReplayCursor := ⟨p.seg.segment_seq, p.offset⟩

/-- The number of frames before the place. -/
def count : Nat := (p.before.flatMap fun seg => seg.frames).length + p.done.length

end Place

/-- The cursor stands after the given number of frames. -/
inductive At (log : SealedLog) : Option ReplayCursor → Nat → Prop
  | genesis : At log none 0
  | inside (p : Place log) : At log (some p.cursor) p.count

theorem replayLimit_pos (max_frames : UInt32) : 0 < replayLimit max_frames := by
  unfold replayLimit
  split_ifs with zero
  · decide
  · have : max_frames.toNat ≠ 0 := fun none => zero (UInt32.toNat_inj.mp none)
    omega

@[simp] theorem locate_bytes (seq : UInt64) (offset : Nat) (frames : List Bytes) :
    (locate seq offset frames).map (fun f => f.bytes) = frames := by
  induction frames generalizing offset with
  | nil => rfl
  | cons f rest ih => simp [locate, ih]

@[simp] theorem length_locate (seq : UInt64) (offset : Nat) (frames : List Bytes) :
    (locate seq offset frames).length = frames.length := by
  rw [← length_map, locate_bytes]

variable {frames : List Bytes}

@[simp] theorem locate_eq_nil : locate seq offset frames = [] ↔ frames = [] := by
  rw [← length_eq_zero_iff, length_locate, length_eq_zero_iff]

theorem extent_append (a b : List Bytes) : extent (a ++ b) = extent a + extent b := by simp [extent]

theorem extent_pos (framed : ∀ f ∈ frames, f ≠ []) (some_frame : frames ≠ []) : 0 < extent frames := by
  obtain ⟨f, rest, rfl⟩ := exists_cons_of_ne_nil some_frame
  have some_bytes : 0 < f.length := length_pos_iff.mpr (framed f mem_cons_self)
  simp [extent]
  omega

theorem dropWhile_locate (seq : UInt64) (framed : ∀ f ∈ done, f ≠ []) :
    (locate seq offset (done ++ left)).dropWhile (fun f => decide (f.location.offset < offset + extent done)) =
      locate seq (offset + extent done) left := by
  induction done generalizing offset with
  | nil =>
    cases left with
    | nil => rfl
    | cons f rest => simp [locate, extent]
  | cons f rest ih =>
    have ahead : offset < offset + extent (f :: rest) := Nat.lt_add_of_pos_right (extent_pos framed (by simp))
    have moved : offset + extent (f :: rest) = offset + f.length + extent rest := by
      simp [extent]
      omega
    rw [cons_append, locate, dropWhile_cons_of_pos (by simpa using ahead), moved]
    exact ih fun g member => framed g (mem_cons_of_mem _ member)

theorem locate_take (seq : UInt64) (offset : Nat) (frames : List Bytes) (n : Nat) :
    (locate seq offset frames).take n = locate seq offset (frames.take n) := by
  induction frames generalizing offset n with
  | nil => simp
  | cons f rest ih =>
    cases n with
    | zero => rfl
    | succ n => simp [locate, ih]

theorem infer_locate (seq : UInt64) (offset : Nat) (some_frame : frames ≠ []) :
    infer_cursor_after_frames (locate seq offset frames) = some ⟨seq, offset + extent frames⟩ := by
  unfold infer_cursor_after_frames
  induction frames generalizing offset with
  | nil => exact absurd rfl some_frame
  | cons f rest ih =>
    cases rest with
    | nil => simp [locate, ReplayFrame.stop, extent]
    | cons g rest =>
      have later := ih (offset + f.length) (by simp)
      rw [locate, locate, getLast?_cons_cons, ← locate, later]
      simp only [extent, map_cons, sum_cons]
      congr 2
      omega

variable {out : List ReplayFrame}

theorem infer_append (some_frame : found ≠ []) :
    infer_cursor_after_frames (out ++ found) = infer_cursor_after_frames found := by
  rw [infer_cursor_after_frames, getLast?_append_of_ne_nil _ some_frame, infer_cursor_after_frames]

namespace Place
variable {log : SealedLog} (p : Place log)

theorem framed (member : f ∈ p.done ++ p.left) : f ≠ [] := p.seg.framed f (by rwa [p.frames])

/-- The place some frames further in the same segment. -/
def advance (n : Nat) : Place log :=
  { p with done := p.done ++ p.left.take n, left := p.left.drop n,
           frames := by rw [p.frames, append_assoc, take_append_drop] }

/-- The place at the start of a segment. -/
def start {log : SealedLog} {before later : List SealedSegment} {seg : SealedSegment} (split : log.segments = before ++ seg :: later) :
    Place log :=
  { before := before, seg := seg, later := later, done := [], left := seg.frames, split := split, frames := rfl }

theorem drop_count : log.frames.drop p.count = p.left ++ p.later.flatMap fun seg => seg.frames := by
  rw [SealedLog.frames, p.split, flatMap_append, flatMap_cons, p.frames, append_assoc, ← append_assoc]
  exact drop_left' (by simp [count])

theorem total : log.frames.length = p.count + (p.left.length + (p.later.flatMap fun seg => seg.frames).length) := by
  rw [SealedLog.frames, p.split, flatMap_append, flatMap_cons, p.frames, count]
  simp
  omega

theorem advance_count (n : Nat) : (p.advance n).count = p.count + (p.left.take n).length := by
  simp only [advance, count, length_append]
  omega

theorem advance_offset (n : Nat) : (p.advance n).offset = p.offset + extent (p.left.take n) := by
  simp only [advance, offset, extent_append]
  omega

theorem record_end_le : p.seg.record_end ≤ p.offset ↔ p.left = [] := by
  have size : p.seg.record_end = p.offset + extent p.left := by
    rw [SealedSegment.record_end, p.frames, extent_append, offset, Nat.add_assoc]
  rw [size]
  constructor
  · intro full
    by_contra some_left
    have := extent_pos (fun f member => p.framed (mem_append_right _ member)) some_left
    omega
  · rintro none
    simp [none, extent]

theorem read : (locate p.seg.segment_seq SEGMENT_HEADER_LEN p.seg.frames).dropWhile
    (fun f => decide (f.location.offset < p.offset)) = locate p.seg.segment_seq p.offset p.left := by
  rw [p.frames]
  exact dropWhile_locate p.seg.segment_seq fun f member => p.framed (mem_append_left _ member)

theorem segments_from :
    log.segments.dropWhile (fun seg => decide (seg.segment_seq ≠ p.cursor.segment_seq)) = p.seg :: p.later := by
  rw [p.split, dropWhile_append_of_pos]
  · rw [dropWhile_cons_of_neg]
    simp [cursor]
  · intro seg member
    have distinct := log.distinct
    rw [p.split, map_append, map_cons] at distinct
    have apart := (nodup_append.mp distinct).2.2 seg.segment_seq (mem_map_of_mem member) p.seg.segment_seq
      mem_cons_self
    exact decide_eq_true apart

theorem next_split : log.segments = (p.before ++ [p.seg]) ++ p.later := by rw [p.split, append_assoc]; rfl

theorem next_count : ((p.before ++ [p.seg]).flatMap fun seg => seg.frames).length = p.count + p.left.length := by
  simp [p.frames, count]
  omega

end Place

theorem At.next_start (split : log.segments = before ++ rest) (next : nextStart rest = some c) :
    At log (some c) (before.flatMap fun seg => seg.frames).length := by
  cases rest with
  | nil => cases next
  | cons seg later =>
    cases next
    exact .inside (.start split)

theorem replaySegments_step (p : Place log) (limit : Nat) (room : out.length < limit) (some_left : p.left ≠ []) :
    replaySegments limit (p.seg :: p.later) p.offset out =
      let found := out ++ locate p.seg.segment_seq p.offset (p.left.take (limit - out.length))
      if limit ≤ found.length then
        (found, if p.left.drop (limit - out.length) = [] then nextStart p.later else some (p.advance (limit - out.length)).cursor)
      else replaySegments limit p.later SEGMENT_HEADER_LEN found := by
  have some_taken : p.left.take (limit - out.length) ≠ [] := by
    rw [Ne, take_eq_nil_iff]
    rintro (zero | none)
    · omega
    · exact some_left none
  have stopped : ((locate p.seg.segment_seq p.offset (p.left.take (limit - out.length))).getLast?.map ReplayFrame.stop) =
      some (p.advance (limit - out.length)).cursor := by
    have inferred := infer_locate p.seg.segment_seq p.offset some_taken
    rw [← p.advance_offset] at inferred
    exact inferred
  have full : p.seg.record_end ≤ (p.advance (limit - out.length)).cursor.offset ↔ p.left.drop (limit - out.length) = [] :=
    (p.advance (limit - out.length)).record_end_le
  rw [replaySegments]
  simp only [p.read, locate_eq_nil, if_neg some_left, locate_take, stopped, Option.getD_some]
  congr 1
  by_cases none : p.left.drop (limit - out.length) = []
  · rw [if_pos none, if_pos (full.mpr none)]
  · rw [if_neg none, if_neg fun reached => none (full.mp reached)]
    rfl

/-- What a replay finds from a number of frames on, with some frames found before. -/
structure Replayed (log : SealedLog) (n limit : Nat) (out : List ReplayFrame) (result : List ReplayFrame × Option ReplayCursor)
    (found : List ReplayFrame) : Prop where
  frames : result.1 = out ++ found
  bytes : found.map (fun f => f.bytes) = (log.frames.drop n).take (limit - out.length)
  cursor : result.1 ≠ [] → At log (result.2.or (infer_cursor_after_frames result.1)) (n + found.length)
  finished : result.2 = none → n + found.length = log.frames.length

/-- Segments from their start on are replayed: everything behind the segments before. -/
def ReplaysFrom (log : SealedLog) (limit : Nat) (segs : List SealedSegment) : Prop :=
  ∀ before out, log.segments = before ++ segs → out.length < limit →
    (out ≠ [] → At log (infer_cursor_after_frames out) (before.flatMap fun seg => seg.frames).length) →
      ∃ found, Replayed log (before.flatMap fun seg => seg.frames).length limit out
        (replaySegments limit segs SEGMENT_HEADER_LEN out) found

section
variable {log : SealedLog}

theorem replayed_reached (p : Place log) (some_left : p.left ≠ []) (reached : limit - out.length ≤ p.left.length) :
    Replayed log p.count limit out
      (out ++ locate p.seg.segment_seq p.offset (p.left.take (limit - out.length)),
        if p.left.drop (limit - out.length) = [] then nextStart p.later else some (p.advance (limit - out.length)).cursor)
      (locate p.seg.segment_seq p.offset (p.left.take (limit - out.length))) where
  frames := rfl
  bytes := by rw [locate_bytes, p.drop_count, take_append_of_le_length reached]
  cursor _ := by
    have behind := At.inside (p.advance (limit - out.length))
    rw [p.advance_count] at behind
    rw [length_locate]
    by_cases none : p.left.drop (limit - out.length) = []
    · have all : p.left.take (limit - out.length) = p.left := by
        have parts := take_append_drop (limit - out.length) p.left
        rwa [none, append_nil] at parts
      cases next : nextStart p.later with
      | none =>
        have last : infer_cursor_after_frames (out ++ locate p.seg.segment_seq p.offset p.left) =
            some (p.advance (limit - out.length)).cursor := by
          rw [infer_append (by simpa using some_left), infer_locate _ _ some_left, Place.cursor, p.advance_offset, all]
          rfl
        rw [if_pos none, Option.none_or]
        rw [all] at behind ⊢
        rw [last]
        exact behind
      | some c =>
        have place := At.next_start p.next_split next
        rw [p.next_count] at place
        rw [if_pos none, Option.some_or, all]
        exact place
    · rw [if_neg none, Option.some_or]
      exact behind
  finished over_ := by
    split_ifs at over_ with none
    have all : (p.left.take (limit - out.length)).length = p.left.length := by
      have parts := congrArg List.length (take_append_drop (limit - out.length) p.left)
      rwa [none, append_nil] at parts
    have last : p.later = [] := by
      cases later : p.later with
      | nil => rfl
      | cons seg rest =>
        rw [later] at over_
        cases over_
    rw [length_locate, all, p.total, last]
    rfl

/-- A replay from a place goes through its segment and then through the later ones. -/
theorem replayed_at (p : Place log) (later : ReplaysFrom log limit p.later) (room : out.length < limit)
    (ends : out ≠ [] → At log (infer_cursor_after_frames out) p.count) :
    ∃ found, Replayed log p.count limit out (replaySegments limit (p.seg :: p.later) p.offset out) found := by
  by_cases none_left : p.left = []
  · -- nothing is left in this segment
    have same : (((p.before ++ [p.seg]).flatMap fun seg => seg.frames)).length = p.count := by
      rw [p.next_count, none_left]
      rfl
    have found := later (p.before ++ [p.seg]) out p.next_split room (by rw [same]; exact ends)
    rw [same] at found
    rw [replaySegments]
    simp [p.read, none_left]
    exact found
  · rw [replaySegments_step p limit room none_left]
    have size : (out ++ locate p.seg.segment_seq p.offset (p.left.take (limit - out.length))).length =
        out.length + min (limit - out.length) p.left.length := by
      rw [length_append, length_locate, length_take]
    by_cases reached : limit - out.length ≤ p.left.length
    · rw [if_pos (by rw [size]; omega)]
      exact ⟨_, replayed_reached p none_left reached⟩
    · -- everything left in this segment is taken, and the replay goes on
      have all : p.left.take (limit - out.length) = p.left := take_of_length_le (by omega)
      rw [if_neg (by rw [size]; omega), all]
      have behind : At log (infer_cursor_after_frames (out ++ locate p.seg.segment_seq p.offset p.left))
          ((p.before ++ [p.seg]).flatMap fun seg => seg.frames).length := by
        have place := At.inside (p.advance (limit - out.length))
        rw [p.advance_count, Place.cursor, p.advance_offset, all] at place
        rw [infer_append (by simpa using none_left), infer_locate _ _ none_left, p.next_count]
        exact place
      obtain ⟨found, spec⟩ := later (p.before ++ [p.seg]) _ p.next_split
        (by rw [length_append, length_locate]; omega) (fun _ => behind)
      rw [p.next_count] at spec
      refine ⟨locate p.seg.segment_seq p.offset p.left ++ found, ?_, ?_, fun some_frame => ?_, fun none => ?_⟩
      · rw [spec.frames, append_assoc]
      · rw [map_append, locate_bytes, spec.bytes, ← drop_drop, p.drop_count, drop_left, take_append,
          take_of_length_le (show p.left.length ≤ limit - out.length by omega), length_append, length_locate,
          Nat.sub_add_eq]
      · rw [length_append, length_locate, ← Nat.add_assoc]
        exact spec.cursor some_frame
      · rw [length_append, length_locate, ← Nat.add_assoc]
        exact spec.finished none

theorem replaysFrom (limit : Nat) (segs : List SealedSegment) : ReplaysFrom log limit segs := by
  induction segs with
  | nil =>
    intro before out split room ends
    have all : (before.flatMap fun seg => seg.frames) = log.frames := by
      rw [SealedLog.frames, split, append_nil]
    refine ⟨[], (append_nil _).symm, ?_, fun some_frame => ends some_frame, fun _ => by rw [all]; rfl⟩
    rw [all, drop_length, take_nil]
    rfl
  | cons seg later ih =>
    intro before out split room ends
    exact replayed_at (.start split) ih room ends

/-- From where the cursor stands the next frames are read, and the cursor behind them stands after them. -/
theorem replay_at (stands : At log cursor n) (max_frames : UInt32) :
    ∃ frames stop, log.replay_from_sealed cursor max_frames = .ok (frames, stop) ∧
      frames.map (fun f => f.bytes) = (log.frames.drop n).take (replayLimit max_frames) ∧
      (frames ≠ [] → At log (stop.or (infer_cursor_after_frames frames)) (n + frames.length)) ∧
      (stop = none → n + frames.length = log.frames.length) := by
  have room : ([] : List ReplayFrame).length < replayLimit max_frames := replayLimit_pos max_frames
  cases stands with
  | genesis =>
    obtain ⟨found, spec⟩ := replaysFrom (replayLimit max_frames) log.segments [] [] rfl room (fun some_frame => absurd rfl some_frame)
    have frames := spec.frames
    rw [nil_append] at frames
    refine ⟨found, (replaySegments (replayLimit max_frames) log.segments SEGMENT_HEADER_LEN []).2, ?_, spec.bytes, ?_, spec.finished⟩
    · rw [← frames]
      rfl
    · have cursor := spec.cursor
      rwa [frames] at cursor
  | inside p =>
    obtain ⟨found, spec⟩ := replayed_at p (replaysFrom (replayLimit max_frames) p.later) room
      (fun some_frame => absurd rfl some_frame)
    have frames := spec.frames
    rw [nil_append] at frames
    refine ⟨found, (replaySegments (replayLimit max_frames) (p.seg :: p.later) p.offset []).2, ?_, spec.bytes, ?_, spec.finished⟩
    · unfold SealedLog.replay_from_sealed
      simp only [p.segments_from]
      rw [← frames]
      rfl
    · have cursor := spec.cursor
      rwa [frames] at cursor

theorem At.unique (here : At log cursor n) (there : At log cursor m) : n = m := by
  cases here with
  | genesis =>
    cases there
    rfl
  | inside p =>
    generalize same : some p.cursor = cursor at there
    cases there with
    | genesis => cases same
    | inside q =>
      have cursors : p.cursor = q.cursor := Option.some.inj same
      have segments := p.segments_from
      rw [cursors, q.segments_from, List.cons.injEq] at segments
      have offsets : p.offset = q.offset := congrArg ReplayCursor.offset cursors
      have left : p.left.length = q.left.length := by
        have read := congrArg List.length p.read
        rw [← segments.1, offsets, q.read, length_locate, length_locate] at read
        exact read.symm
      have total := p.total
      rw [q.total, segments.2, left] at total
      omega

end

end Crux.Projections
