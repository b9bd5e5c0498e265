import Crux.ProjectionCommit

/-!
# Runs of a projection store

What ticks and rebuilds do with the log: a tick applies the events of the next
frames (`tick_cases`), a rebuild those of all frames (`rebuildBatches_all`). A
run is a list of operations on a store and its directory, all over one log.
-/

namespace Crux.Projections
open Crux.Bytes Crux.Segment Crux.Storage List

/-- The events of frames. -/
def eventsOf (read : FrameReader) (frames : List Bytes) : List (UInt64 × ProjectionEventV1) :=
  frames.filterMap fun f => (read f).toOption.join

/-- Every frame can be read. -/
def Readable (read : FrameReader) (frames : List Bytes) : Prop := ∀ f ∈ frames, ∃ r, read f = .ok r

def ProjectionState.applyAll (crypto : Primitives) (s : ProjectionState) (evs : List (UInt64 × ProjectionEventV1)) :
    ProjectionState :=
  evs.foldl (fun s e => s.apply crypto e.1 e.2) s

/-- The tables of the first frames of the log. -/
def project (crypto : Primitives) (read : FrameReader) (log : SealedLog) (n : Nat) : ProjectionState :=
  (ProjectionState.applyAll crypto {} (eventsOf read (log.frames.take n))).recompute_derived_fields

section
variable {crypto : Primitives} {read : FrameReader}

theorem applyAll_append (s : ProjectionState) (evs later : List (UInt64 × ProjectionEventV1)) :
    s.applyAll crypto (evs ++ later) = (s.applyAll crypto evs).applyAll crypto later := foldl_append

variable {s : ProjectionState}

theorem Covered.applyAll (covered : Covered s) (evs : List (UInt64 × ProjectionEventV1)) : Covered (s.applyAll crypto evs) := by
  induction evs generalizing s with
  | nil => exact covered
  | cons e rest ih => exact ih (covered.apply crypto e.1 e.2)

theorem Covered.recompute (covered : Covered s) : Covered s.recompute_derived_fields := by
  have rows : ∀ k, k ∈ s.living.keys → k ∈ s.recompute_derived_fields.living.keys := by
    intro k here
    obtain ⟨row, found⟩ := SortedMap.mem_keys.mp here
    exact SortedMap.mem_keys.mpr ⟨_, by rw [ProjectionState.recompute_living_get covered, found]; rfl⟩
  exact ⟨fun k here => rows _ (covered.sources k here), fun k here => rows _ (covered.targets k here),
    fun k here => rows _ (covered.dependents k here), fun k here => rows _ (covered.pressure k here)⟩

theorem SameOwn.applyAll (same : SameOwn s t) (evs : List (UInt64 × ProjectionEventV1)) :
    SameOwn (s.applyAll crypto evs) (t.applyAll crypto evs) := by
  induction evs generalizing s t with
  | nil => exact same
  | cons e rest ih => exact ih (same.apply crypto e.1 e.2)

/-- Derived fields that are recomputed between two batches leave no trace. -/
theorem recompute_apply_all (covered : Covered s) (evs : List (UInt64 × ProjectionEventV1)) :
    (s.recompute_derived_fields.applyAll crypto evs).recompute_derived_fields = (s.applyAll crypto evs).recompute_derived_fields :=
  ((sameOwn_recompute covered).applyAll evs).recompute (covered.recompute.applyAll evs) (covered.applyAll evs)

/-- Events give the same tables in whatever batches they are applied, with the derived fields recomputed after each. -/
theorem applyAll_batches (batches : List (List (UInt64 × ProjectionEventV1))) :
    batches.foldl (fun (s : ProjectionState) evs => (s.applyAll crypto evs).recompute_derived_fields) {} =
      (ProjectionState.applyAll crypto {} batches.flatten).recompute_derived_fields := by
  induction batches using reverseRecOn with
  | nil => rfl
  | append_singleton batches evs ih =>
    rw [foldl_append, ih, foldl_cons, foldl_nil, recompute_apply_all (covered_default.applyAll _), ← applyAll_append,
      flatten_append, flatten_singleton]

theorem recompute_relations (s : ProjectionState) : s.recompute_derived_fields.relations = s.relations := rfl
theorem recompute_dependents (s : ProjectionState) : s.recompute_derived_fields.dependents = s.dependents := rfl

theorem project_add (log : SealedLog) (n k : Nat) :
    ((project crypto read log n).applyAll crypto (eventsOf read ((log.frames.drop n).take k))).recompute_derived_fields =
      project crypto read log (n + k) := by
  unfold project
  rw [recompute_apply_all (covered_default.applyAll _), ← applyAll_append, take_add]
  unfold eventsOf
  rw [filterMap_append]

/-- What readable frames do: their events are applied, and the artifacts whose edges they touch are noted. -/
theorem applyFrames_ok {frames : List Bytes} (readable : Readable read frames) (acc : Applied) :
    (applyFrames crypto read frames acc).failed = acc.failed ∧
    (applyFrames crypto read frames acc).state = acc.state.applyAll crypto (eventsOf read frames) ∧
    (∀ e ∈ eventsOf read frames, touchedRelation e.1 e.2 ⊆ (applyFrames crypto read frames acc).touched_relations) ∧
    (∀ e ∈ eventsOf read frames, touchedDependent e.1 e.2 ⊆ (applyFrames crypto read frames acc).touched_dependents) ∧
    acc.touched_relations ⊆ (applyFrames crypto read frames acc).touched_relations ∧
    acc.touched_dependents ⊆ (applyFrames crypto read frames acc).touched_dependents := by
  induction frames generalizing acc with
  | nil => exact ⟨rfl, rfl, by simp [eventsOf], by simp [eventsOf], fun _ here => here, fun _ here => here⟩
  | cons f rest ih =>
    obtain ⟨r, here⟩ := readable f mem_cons_self
    have later : Readable read rest := fun x member => readable x (mem_cons_of_mem _ member)
    cases r with
    | none =>
      have events : eventsOf read (f :: rest) = eventsOf read rest := by simp [eventsOf, here, Except.toOption]
      rw [applyFrames, here, events]
      exact ih later acc
    | some ev =>
      have events : eventsOf read (f :: rest) = ev :: eventsOf read rest := by simp [eventsOf, here, Except.toOption]
      rw [applyFrames, here, events]
      obtain ⟨failed, state, relations, dependents, relations', dependents'⟩ := ih later
        { acc with
          state := acc.state.apply crypto ev.1 ev.2
          touched_relations := touchedRelation ev.1 ev.2 ++ acc.touched_relations
          touched_dependents := touchedDependent ev.1 ev.2 ++ acc.touched_dependents }
      refine ⟨failed, state, ?_, ?_, fun a old => relations' (mem_append_right _ old),
        fun a old => dependents' (mem_append_right _ old)⟩
      · intro e member
        rcases mem_cons.mp member with rfl | there
        · exact fun a touched => relations' (mem_append_left _ touched)
        · exact relations e there
      · intro e member
        rcases mem_cons.mp member with rfl | there
        · exact fun a touched => dependents' (mem_append_left _ touched)
        · exact dependents e there

theorem applyFrames_failed (fine : (applyFrames crypto read frames acc).failed = none) : Readable read frames := by
  induction frames generalizing acc with
  | nil => exact fun f member => absurd member not_mem_nil
  | cons x rest ih =>
    rw [applyFrames] at fine
    intro f member
    cases here : read x with
    | error e =>
      rw [here] at fine
      cases fine
    | ok r =>
      have later : Readable read rest := by
        rw [here] at fine
        cases r with
        | none => exact ih fine
        | some ev => exact ih fine
      rcases mem_cons.mp member with rfl | there
      · exact ⟨r, here⟩
      · exact later f there

end

section
variable {crypto : Primitives} {read : FrameReader} {log : SealedLog}

theorem cursor_from_replay (store store' : ProjectionStoreV1) (cursor : Option ReplayCursor)
    (same : store'.cursor = cursor.map store.cursor_v1_from_replay) : store'.cursor_from_meta = cursor := by
  unfold ProjectionStoreV1.cursor_from_meta
  unfold ProjectionStoreV1.cursor at same
  rw [same]
  cases cursor <;> rfl

/-- The frames that a tick reads, if that many are behind the cursor. -/
def batch (log : SealedLog) (n : Nat) (max_frames : UInt32) : List Bytes := (log.frames.drop n).take (replayLimit max_frames)

/-- A tick finds no frames, meets one that it cannot read, or commits the tables after the next frames. -/
theorem tick_cases {store : ProjectionStoreV1} {disk : Disk} {n : Nat} (stands : At log store.cursor_from_meta n)
    (max_frames : UInt32) :
    (batch log n max_frames = [] ∧ tick crypto read log store disk max_frames = ⟨.ok none, store, disk⟩) ∨
    (¬ Readable read (batch log n max_frames) ∧ ∃ e state,
      tick crypto read log store disk max_frames = ⟨.error e, { store with state := state }, disk⟩) ∨
    (batch log n max_frames ≠ [] ∧ Readable read (batch log n max_frames) ∧ ∃ frames cursor,
      log.replay_from_sealed store.cursor_from_meta max_frames = .ok frames ∧
      frames.1.map (fun f => f.bytes) = batch log n max_frames ∧ At log cursor (n + (batch log n max_frames).length) ∧
      let applied := applyFrames crypto read (batch log n max_frames) { state := store.state }
      let out := commit crypto { store with state := applied.state.recompute_derived_fields } disk
        (cursor.map store.cursor_v1_from_replay) (some applied.touched_relations) (some applied.touched_dependents)
      (tick crypto read log store disk max_frames).store = out.store ∧ (tick crypto read log store disk max_frames).disk = out.disk) := by
  obtain ⟨frames, stop, replayed, bytes, cursor, _⟩ := replay_at stands max_frames
  change frames.map (fun f => f.bytes) = batch log n max_frames at bytes
  unfold tick
  simp only [replayed]
  by_cases none : frames = []
  · left
    rw [if_pos none, ← bytes, none]
    exact ⟨rfl, rfl⟩
  · right
    rw [if_neg none, ← bytes]
    have some_frame : frames.map (fun f => f.bytes) ≠ [] := by simpa using none
    cases failed : (applyFrames crypto read (frames.map fun f => f.bytes) { state := store.state }).failed with
    | some e =>
      refine .inl ⟨fun readable => ?_, e, _, rfl⟩
      rw [(applyFrames_ok readable _).1] at failed
      cases failed
    | none =>
      refine .inr ⟨some_frame, applyFrames_failed failed, _, _, rfl, rfl, ?_, rfl, rfl⟩
      rw [length_map]
      exact cursor none

theorem rebuildBatches_all (readable : Readable read log.frames) (batch_frames : UInt32) {rounds n : Nat} {cursor : Option ReplayCursor}
    (stands : At log cursor n) (inside : n ≤ log.frames.length) (enough : log.frames.length < n + rounds) (state : ProjectionState)
    (total : Nat) : ∃ cursor' total', rebuildBatches crypto read log batch_frames rounds cursor state total =
        (.ok (cursor', total'), state.applyAll crypto (eventsOf read (log.frames.drop n))) ∧ At log cursor' log.frames.length := by
  induction rounds generalizing n cursor state total with
  | zero => omega
  | succ rounds ih =>
    obtain ⟨frames, stop, replayed, bytes, next, finished⟩ := replay_at stands batch_frames
    have size : frames.length = min (replayLimit batch_frames) (log.frames.length - n) := by
      have lengths := congrArg List.length bytes
      rwa [length_map, length_take, length_drop] at lengths
    have room := replayLimit_pos batch_frames
    rw [rebuildBatches, replayed]
    dsimp only
    by_cases none : frames = []
    · have here : n = log.frames.length := by
        rw [none, length_nil] at size
        omega
      rw [if_pos none, here, drop_length]
      exact ⟨cursor, total, rfl, here ▸ stands⟩
    · have part : Readable read (frames.map fun f => f.bytes) := fun f member =>
        readable f (mem_of_mem_drop (mem_of_mem_take (bytes ▸ member)))
      obtain ⟨failed, applied, _⟩ := @applyFrames_ok crypto read _ part { state := state }
      rw [if_neg none, failed]
      rw [applied]
      have split : log.frames.drop n = frames.map (fun f => f.bytes) ++ log.frames.drop (n + frames.length) := by
        rw [bytes, size, ← drop_drop]
        conv_lhs => rw [← take_append_drop (replayLimit batch_frames) (log.frames.drop n)]
        congr 1
        rcases Nat.le_total (replayLimit batch_frames) (log.frames.length - n) with short | all
        · rw [Nat.min_eq_left short]
        · rw [Nat.min_eq_right all, drop_eq_nil_of_le (by simpa using all), drop_eq_nil_of_le (by simp)]
      have events : state.applyAll crypto (eventsOf read (log.frames.drop n)) =
          (state.applyAll crypto (eventsOf read (frames.map fun f => f.bytes))).applyAll crypto
            (eventsOf read (log.frames.drop (n + frames.length))) := by
        rw [split, eventsOf, filterMap_append, applyAll_append]
        rfl
      by_cases last : stop = Option.none
      · have all := finished last
        rw [if_pos last, events, all, drop_length]
        exact ⟨_, _, rfl, all ▸ next none⟩
      · rw [if_neg last, events]
        have some_frame := length_pos_iff.mpr none
        exact ih (next none) (by omega) (by omega) _ _

end

end Crux.Projections
