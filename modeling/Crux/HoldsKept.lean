import Crux.FactShuffled
import Crux.FactUndo
import Crux.HoldStates

/-!
# Held facts stay readable

Only a compaction drops facts from the journal, and it drops deleted ones. While
no state of an active hold is deleted when a compaction overrides holds, a hold
stays in force across reopenings until it is released, and every fact it covers
can be read back.
-/

namespace Crux.Facts
open Memory List FactStore

theorem holdIdOf_iff : holdIdOf f = some hold_id ↔ f.entity = LEGAL_HOLD_ENTITY_PREFIX ++ hold_id := by
  unfold holdIdOf starts_with
  constructor
  · intro is
    split_ifs at is with begins
    obtain ⟨rest, split⟩ := isPrefixOf_iff_prefix.mp begins
    rw [← split, drop_left, Option.some.injEq] at is
    rw [← is]
    refine String.toList_inj.mp ?_
    rw [String.toList_append, String.toList_ofList]
    exact split.symm
  · intro is
    have split : f.entity.toList = LEGAL_HOLD_ENTITY_PREFIX.toList ++ hold_id.toList := by rw [is, String.toList_append]
    rw [split, if_pos ( isPrefixOf_iff_prefix.mpr ⟨_, rfl⟩), drop_left, String.ofList_toList]

/-- A name outside the legal-hold namespace. -/
def outsideHolds (entity : String) : Bool := !starts_with entity LEGAL_HOLD_ENTITY_PREFIX

theorem holdIdOf_outside (outside : outsideHolds f.entity = true) : holdIdOf f = none := by
  unfold outsideHolds at outside
  unfold holdIdOf
  rw [if_neg (by simpa using outside)]

theorem outside_of_unowned (unowned : ( daemon_owned_entity_prefix entity) = none) : outsideHolds entity = true := by
  have free := find?_eq_none.mp unowned LEGAL_HOLD_ENTITY_PREFIX (by decide)
  unfold outsideHolds
  simpa using free

theorem checkFact_unowned {id : String} (ok : checkFact req id f = .ok ()) :
    ( daemon_owned_entity_prefix f.entity) = none := by
  unfold checkFact at ok
  cases owned : daemon_owned_entity_prefix f.entity with
  | none => rfl
  | some start =>
    simp only [owned] at ok
    split_ifs at ok

theorem planned_outside {m : Memory} (planned : m.planConsolidation tenant req stamp = .ok canonical) :
    outsideHolds req.entity = true := by
  unfold planConsolidation at planned
  split_ifs at planned with empty blank
  cases targets : req.target_fact_ids with
  | nil => simp [targets] at empty
  | cons id rest =>
    rw [targets] at planned
    unfold checkTargets at planned
    cases first : m.checkTarget tenant req [] id with
    | error e =>
      rw [first] at planned
      cases planned
    | ok u =>
      unfold checkTarget at first
      split_ifs at first
      split at first
      · cases first
      · rename_i f found
        rw [← (checkFact_ok first).2.2.2.1]
        exact outside_of_unowned (checkFact_unowned first)

/-- The calls made beside the holds: stores outside the legal-hold namespace, deletions, sweeps, consolidations and their undoing,
compactions and reopenings. -/
def Op.besideHolds : Op → Bool
  | .store req _ _ _ => outsideHolds req.entity
  | .try_store req _ _ _ => outsideHolds req.entity
  | .try_store_bulk reqs _ => reqs.all fun r => outsideHolds r.1.entity
  | .delete _ _ _ | .try_delete _ _ _ | .consolidate _ _ _ _ | .undo _ _ _ _ | .sweep _ _ | .compact _ | .reopen => true
  | _ => false

/-- The identifiers drawn are new. -/
def HoldOp.Fresh (s : FactStore) : HoldOp → Prop
  | .call op => op.besideHolds = true ∧ op.Fresh s
  | .place _ drawn _ _ => s.Unseen drawn.stamp.fact_id ∧ ∀ f ∈ s.facts, holdIdOf f ≠ some drawn.hold_id
  | .release _ _ stamp _ _ => s.Unseen stamp.fact_id
  | .compact_overridden _ _ => True

/-- Every write succeeds, confidences are finite, and no state of an active hold is deleted when a compaction overrides holds. -/
def HoldOp.Safe (env : HoldEnv) (s : FactStore) : HoldOp → Prop
  | .call op => op.compacts = true ∨ (op.written = true ∧ op.finite = true)
  | .place _ _ written superseded => written = true → superseded = true
  | .release _ _ _ written superseded => written = true → superseded = true
  | .compact_overridden _ _ =>
    ∀ hold ∈ s.active_legal_holds env.parse_legal_hold, ∀ f ∈ s.facts, holdIdOf f = some hold.hold_id → f.deleted = false

instance (s : FactStore) : (op : HoldOp) → Decidable (op.Fresh s)
  | .call _ => inferInstanceAs (Decidable (_ ∧ _))
  | .place _ _ _ _ => inferInstanceAs (Decidable (_ ∧ ∀ f ∈ _, _))
  | .release _ _ stamp _ _ => inferInstanceAs (Decidable (s.Unseen stamp.fact_id))
  | .compact_overridden _ _ => inferInstanceAs (Decidable True)

instance (env : HoldEnv) (s : FactStore) : (op : HoldOp) → Decidable (op.Safe env s)
  | .call _ => inferInstanceAs (Decidable (_ ∨ _))
  | .place _ _ _ _ | .release _ _ _ _ _ => inferInstanceAs (Decidable (_ → _))
  | .compact_overridden _ _ => inferInstanceAs (Decidable (∀ hold ∈ _, ∀ f ∈ _, _ → _))

theorem creates_outside {op : Op} (beside : op.besideHolds = true) :
    ∀ f ∈ op.creates policy s, holdIdOf f = none := by
  have built : ∀ (req : StoreFact) (stamp : Stamp), outsideHolds req.entity = true →
      holdIdOf (s.build_fact (enforce_global policy req) stamp) = none := by
    intro req stamp outside
    refine holdIdOf_outside ?_
    rw [(fields_build policy s.toMemory req stamp).1]
    exact outside
  intro f made
  cases creates_of_mem made with
  | store => exact built _ _ beside
  | try_store => exact built _ _ beside
  | @try_store_bulk _ r member => exact built r.1 r.2.1 (all_eq_true.mp beside r member)
  | @consolidate _ _ _ canonical planned =>
    refine holdIdOf_outside ?_
    rw [(incoming_fields policy canonical).2.2.1, (planConsolidation_ok planned).1]
    exact planned_outside planned
  | store_synced _ => cases beside

theorem creates_finite {op : Op} (finite : op.finite = true) :
    ∀ f ∈ op.creates policy s, f.confidence.is_finite = true := by
  intro f made
  cases creates_of_mem made with
  | store => rw [confidence_build]; exact finite
  | try_store => rw [confidence_build]; exact finite
  | @try_store_bulk _ r member =>
    rw [confidence_build]
    exact all_eq_true.mp finite r member
  | @consolidate _ _ _ canonical planned =>
    rw [(incoming_fields policy canonical).2.2.2.2.2.2.2.2, (planConsolidation_ok planned).1]
    exact finite
  | @store_synced fact _ _ =>
    rw [(incoming_fields policy fact).2.2.2.2.2.2.2.2]
    exact finite

/-- A state as a placement or a release writes it. -/
def Formed (env : HoldEnv) (f : Fact) (hold_id : String) : Prop :=
  f.key = "state" ∧ ∃ hold, f.value = env.format_legal_hold hold ∧ hold.hold_id = hold_id

/-- What is kept while the facts on a list are gone from the journal: the journal restores the others, and no state of an active
hold is among them. -/
structure Guarded (env : HoldEnv) (gone : List String) (s : FactStore) : Prop where
  whole : Whole env.policy s.toMemory
  restores : Restores env.policy gone s
  finite : ∀ f ∈ s.facts, f.confidence.is_finite = true
  formed : ∀ f ∈ s.facts, ∀ hold_id, holdIdOf f = some hold_id → Formed env f hold_id
  standing : ∀ hold ∈ s.active_legal_holds env.parse_legal_hold, ∀ f ∈ s.facts, holdIdOf f = some hold.hold_id → f.fact_id ∉ gone

theorem guarded_empty (env : HoldEnv) : Guarded env [] {} :=
  ⟨whole_empty env.policy, restores_empty env.policy, by simp, by simp, by simp⟩

section
variable {env : HoldEnv} {gone : List String} {s : FactStore} {hold : LegalHold}

theorem resolved_hold_id {m : Memory} (formed : ∀ f ∈ m.facts, ∀ hold_id, holdIdOf f = some hold_id → Formed env f hold_id)
    (is : m.resolved env.parse_legal_hold hold_id = some hold) : hold.hold_id = hold_id := by
  have read : ∀ f ∈ (m.states hold_id).insertionSort stateBefore,
      ∃ hold, env.parse_legal_hold f.value = some hold ∧ hold.hold_id = hold_id := by
    intro f member
    obtain ⟨here, _, of⟩ := mem_states.mp ((mem_insertionSort stateBefore).mp member)
    obtain ⟨_, hold, value, same⟩ := formed f here hold_id of
    exact ⟨hold, by rw [value, env.reads], same⟩
  obtain ⟨newest, first, chosen⟩ := Option.map_eq_some_iff.mp is
  cases found : ((m.states hold_id).insertionSort stateBefore).findSome? fun f => env.parse_legal_hold f.value with
  | none =>
    obtain ⟨hold', parsed, _⟩ := read newest (mem_of_head? first)
    rw [findSome?_eq_none_iff.mp found newest (mem_of_head? first)] at parsed
    cases parsed
  | some hold' =>
    rw [found] at chosen
    obtain ⟨f, member, parsed⟩ := exists_of_findSome?_eq_some found
    obtain ⟨hold'', parsed', same⟩ := read f member
    rw [parsed, Option.some.injEq] at parsed'
    rw [← chosen]
    exact parsed' ▸ same

theorem Guarded.mem_active (guarded : Guarded env gone s) : hold ∈ s.active_legal_holds env.parse_legal_hold ↔
      s.resolved env.parse_legal_hold hold.hold_id = some hold ∧ hold.active = true := by
  rw [mem_active_legal_holds]
  refine and_congr_left fun _ => ⟨?_, fun is => ⟨hold.hold_id, is⟩⟩
  rintro ⟨hold_id, is⟩
  rw [resolved_hold_id guarded.formed is]
  exact is

theorem Guarded.known (guarded : Guarded env gone s) {id : String} (out : id ∈ gone) : s.lookup id ≠ none := by
  obtain ⟨m, shuffled, faithful⟩ := guarded.restores
  obtain ⟨link, twin⟩ := faithful.twin
  rw [shuffled.lookup guarded.whole.sound.nodup]
  exact twin.known id out

/-- A call in place whose writes succeed. -/
structure InPlace (s : FactStore) (op : Op) : Prop where
  in_place : op.compacts = false ∧ op.reopens = false
  local_op : op.syncs = false
  fresh : op.Fresh s
  written : op.written = true
  finite : op.finite = true
  unmarked : ∀ tenant target successor first, op ≠ .mark_superseded tenant target successor first

variable {op : Op}

theorem InPlace.contents (call : InPlace s op) :
    (s.step env.toEnv op).contents = s.contents ++ (op.creates env.policy s).map Fact.content :=
  (gains_step env.toEnv s call.in_place call.fresh).contents

theorem InPlace.mem (call : InPlace s op) (member : f' ∈ (s.step env.toEnv op).facts) :
    (∃ f ∈ s.facts, f.content = f'.content) ∨ ∃ f ∈ op.creates env.policy s, f.content = f'.content := by
  have listed : f'.content ∈ (s.step env.toEnv op).contents := mem_contents.mpr ⟨f', member, rfl⟩
  rw [call.contents] at listed
  exact (mem_append.mp listed).imp mem_contents.mp mem_map.mp

variable {f : Fact}

theorem InPlace.stays (call : InPlace s op) (env : HoldEnv) (member : f ∈ s.facts) :
    ∃ f' ∈ (s.step env.toEnv op).facts, f'.content = f.content := by
  refine mem_contents.mp ?_
  rw [call.contents]
  exact mem_append_left _ (mem_contents.mpr ⟨f, member, rfl⟩)

theorem InPlace.resolved (call : InPlace s op) (nodup : s.ids.Nodup)
    (other : ∀ f ∈ op.creates env.policy s, holdIdOf f ≠ some hold_id) :
    (s.step env.toEnv op).resolved env.parse_legal_hold hold_id = s.resolved env.parse_legal_hold hold_id := by
  refine (resolved_same env.parse_legal_hold nodup ?_).symm
  have none_new : (((op.creates env.policy s).map Fact.content).filter fun f => f.key = "state").filter
      (fun f => holdIdOf f = some hold_id) = [] := by
    refine filter_eq_nil_iff.mpr fun c member => ?_
    obtain ⟨f, made, rfl⟩ := mem_map.mp (List.mem_filter.mp member).1
    have away : holdIdOf f.content ≠ some hold_id := other f made
    simpa using away
  rw [states_contents, states_contents, call.contents, filter_append, filter_append, none_new, append_nil]

section
variable (guarded : Guarded env gone s)
include guarded

/-- A call keeps the guard where a new state is well formed and belongs to an active hold or to a new one. -/
theorem Guarded.in_place (call : InPlace s op)
    (states : ∀ f ∈ op.creates env.policy s, ∀ hold_id, holdIdOf f = some hold_id → Formed env f hold_id ∧
      ((∃ hold ∈ s.active_legal_holds env.parse_legal_hold, hold.hold_id = hold_id) ∨ ∀ g ∈ s.facts, holdIdOf g ≠ some hold_id)) :
    Guarded env gone (s.step env.toEnv op) := by
  have formed : ∀ f ∈ (s.step env.toEnv op).facts, ∀ hold_id, holdIdOf f = some hold_id → Formed env f hold_id := by
    intro f' member hold_id of
    rcases call.mem member with ⟨f, here, same⟩ | ⟨f, made, same⟩
    · have from_f := guarded.formed f here hold_id ((congrArg holdIdOf same).trans of)
      exact ⟨(congrArg Fact.key same).symm.trans from_f.1, (congrArg Fact.value same) ▸ from_f.2⟩
    · have from_f := (states f made hold_id ((congrArg holdIdOf same).trans of)).1
      exact ⟨(congrArg Fact.key same).symm.trans from_f.1, (congrArg Fact.value same) ▸ from_f.2⟩
  have whole : Whole env.policy (s.step env.toEnv op).toMemory := guarded.whole.step call.fresh
  refine ⟨whole, ?_, ?_, formed, ?_⟩
  · exact guarded.restores.step guarded.whole.sound call.in_place call.local_op call.written call.fresh
      call.finite fun tenant target successor first is => absurd is (call.unmarked tenant target successor first)
  · intro f' member
    rcases call.mem member with ⟨f, here, same⟩ | ⟨f, made, same⟩
    · rw [← (fields_of_content same).2.2.2.2]
      exact guarded.finite f here
    · rw [← (fields_of_content same).2.2.2.2]
      exact creates_finite call.finite f made
  · intro hold active f' member of out
    rcases call.mem member with ⟨f, here, same⟩ | ⟨f, made, same⟩
    · have of_f : holdIdOf f = some hold.hold_id := (congrArg holdIdOf same).trans of
      have out_f : f.fact_id ∈ gone := by
        rw [(fields_of_content same).1]
        exact out
      by_cases other : ∀ g ∈ op.creates env.policy s, holdIdOf g ≠ some hold.hold_id
      · -- the hold is as it was
        have before : hold ∈ s.active_legal_holds env.parse_legal_hold := by
          obtain ⟨⟨hold_id, is⟩, in_force⟩ := mem_active_legal_holds.mp active
          rw [resolved_hold_id formed is] at other
          rw [call.resolved guarded.whole.sound.nodup other] at is
          exact mem_active_legal_holds.mpr ⟨⟨hold_id, is⟩, in_force⟩
        exact guarded.standing hold before f here of_f out_f
      · push Not at other
        obtain ⟨g, made, of_g⟩ := other
        rcases (states g made hold.hold_id of_g).2 with ⟨hold', before, same_id⟩ | fresh
        · exact guarded.standing hold' before f here (same_id ▸ of_f) out_f
        · exact fresh f here of_f
    · refine guarded.known out ?_
      rw [← (fields_of_content same).1]
      exact creates_unknown call.fresh f made

theorem Guarded.hold_in_place (call : InPlace s op)
    (active : hold ∈ s.active_legal_holds env.parse_legal_hold)
    (other : ∀ f ∈ op.creates env.policy s, holdIdOf f ≠ some hold.hold_id) :
    hold ∈ (s.step env.toEnv op).active_legal_holds env.parse_legal_hold := by
  obtain ⟨is, in_force⟩ := guarded.mem_active.mp active
  rw [← call.resolved guarded.whole.sound.nodup other] at is
  exact mem_active_legal_holds.mpr ⟨⟨_, is⟩, in_force⟩

theorem Guarded.reopen : Guarded env [] (with_persistence env.policy s.journal) ∧
      (∀ hold ∈ s.active_legal_holds env.parse_legal_hold,
        hold ∈ (with_persistence env.policy s.journal).active_legal_holds env.parse_legal_hold) ∧
      ∀ f ∈ s.facts, f.fact_id ∉ gone → f ∈ (with_persistence env.policy s.journal).facts := by
  obtain ⟨shuffled, restores⟩ := guarded.restores.reopen
  have part : ∀ f ∈ (with_persistence env.policy s.journal).facts, f ∈ s.facts := fun f member =>
    (List.mem_filter.mp (shuffled.facts.mem_iff.mpr member)).1
  refine ⟨⟨whole_reopen env.policy s.journal, restores, fun f member => guarded.finite f (part f member),
    fun f member => guarded.formed f (part f member), by simp⟩, ?_, ?_⟩
  · intro hold active
    obtain ⟨is, in_force⟩ := guarded.mem_active.mp active
    have all_there : (s.toMemory.without gone).states hold.hold_id = s.states hold.hold_id := by
      unfold Memory.states Memory.without
      rw [filter_filter, filter_filter, filter_filter]
      refine filter_congr fun f member => ?_
      by_cases of : holdIdOf f = some hold.hold_id
      · have kept := guarded.standing hold active f member of
        simp [kept]
      · simp [of]
    have same : s.resolved env.parse_legal_hold hold.hold_id =
        (with_persistence env.policy s.journal).resolved env.parse_legal_hold hold.hold_id := by
      refine resolved_same env.parse_legal_hold guarded.whole.sound.nodup ?_
      rw [← all_there]
      exact ((shuffled.facts.filter _).filter _).map _
    rw [same] at is
    exact mem_active_legal_holds.mpr ⟨⟨_, is⟩, in_force⟩
  · intro f member kept
    exact shuffled.facts.mem_iff.mp (List.mem_filter.mpr ⟨member, by simpa using kept⟩)

theorem Guarded.compacted
    (alive : ∀ hold ∈ s.active_legal_holds env.parse_legal_hold, ∀ f ∈ s.facts, holdIdOf f = some hold.hold_id → f.deleted = false) :
    ∃ gone', Guarded env gone' { s with journal := s.compactedLines } ∧ ∀ f ∈ s.facts, f.fact_id ∈ gone' ↔ f.deleted = true := by
  obtain ⟨gone', restores, dead⟩ := restores_compacted guarded.whole fun f member _ => guarded.finite f member
  refine ⟨gone', ⟨guarded.whole, restores, guarded.finite, guarded.formed, ?_⟩, dead⟩
  intro hold active f member of out
  rw [(dead f member), alive hold active f member of] at out
  cases out

end

/-- The list of held facts has every deleted fact that an active hold covers, with all holds that cover it. -/
theorem mem_covered {m : Memory} (active : hold ∈ m.active_legal_holds parse) (member : f ∈ m.facts)
    (deleted : f.deleted = true) (covers : hold.covers_fact f = true ∨ holdIdOf f = some hold.hold_id) :
    ∃ hold_ids, (f.fact_id, hold_ids) ∈ m.deleted_facts_covered_by_legal_holds parse ∧
      ∀ hold' ∈ m.active_legal_holds parse, hold'.covers_fact f = true → hold'.hold_id ∈ hold_ids := by
  refine ⟨((m.active_legal_holds parse).filter fun hold => hold.covers_fact f || holdIdOf f = some hold.hold_id).map
    LegalHold.hold_id, ?_, ?_⟩
  · unfold Memory.deleted_facts_covered_by_legal_holds
    rw [mem_insertionSort, mem_filterMap]
    refine ⟨f, List.mem_filter.mpr ⟨member, deleted⟩, ?_⟩
    rw [if_neg]
    rw [List.isEmpty_iff]
    refine List.ne_nil_of_mem (List.mem_map_of_mem (List.mem_filter.mpr ⟨active, ?_⟩))
    simpa using covers
  · intro hold' active' covers'
    refine List.mem_map_of_mem (List.mem_filter.mpr ⟨active', ?_⟩)
    rw [covers']
    rfl

theorem storeState_cases (env : HoldEnv) (s : FactStore) (mutation : LegalHoldMutation) (receipt_id : String) (actor : Option String) (stamp : Stamp)
    (written superseded : Bool) : s.storeState env mutation receipt_id actor stamp written superseded = (s, .error .Persistence) ∨
      (written = true ∧ s.storeState env mutation receipt_id actor stamp written superseded =
        (s.step env.toEnv (.try_store (stateRequest env mutation.hold receipt_id actor) stamp true superseded), .ok mutation)) := by
  cases written with
  | false => exact .inl rfl
  | true => exact .inr ⟨rfl, rfl⟩

theorem inPlace_state (hold : LegalHold) (receipt_id : String) (actor : Option String) (unseen : s.Unseen stamp.fact_id) :
    InPlace s (.try_store (stateRequest env hold receipt_id actor) stamp true true) where
  in_place := ⟨rfl, rfl⟩
  local_op := rfl
  fresh := ⟨nodup_singleton _, fun id drawn => mem_singleton.mp drawn ▸ unseen⟩
  written := rfl
  finite := rfl
  unmarked := by
    intro tenant target successor first is
    cases is

theorem created_state (hold : LegalHold) (receipt_id : String) (actor : Option String) (stamp : Stamp) (superseded : Bool)
    (made : f ∈ (Op.try_store (stateRequest env hold receipt_id actor) stamp true superseded).creates env.policy s) :
    holdIdOf f = some hold.hold_id ∧ f.key = "state" ∧ f.value = env.format_legal_hold hold := by
  rw [mem_singleton.mp made]
  obtain ⟨entity, key, value⟩ := fields_build env.policy s.toMemory (stateRequest env hold receipt_id actor) stamp
  exact ⟨holdIdOf_iff.mpr entity, key, value⟩

/-- A step of a run: what it keeps of the holds and of the facts they cover. -/
structure Advance (env : HoldEnv) (gone : List String) (s : FactStore) (op : HoldOp) (s' : FactStore) : Prop where
  holds : ∀ hold ∈ s.active_legal_holds env.parse_legal_hold, s.releases env hold.hold_id op = false →
    hold ∈ s'.active_legal_holds env.parse_legal_hold
  facts : ∃ gone', Guarded env gone' s' ∧
    ∀ hold ∈ s.active_legal_holds env.parse_legal_hold, ∀ f ∈ s.facts, f.fact_id ∉ gone → hold.covers_fact f = true →
      s.overrides env f op = false → ∃ f' ∈ s'.facts, f'.content = f.content ∧ f'.fact_id ∉ gone'

theorem Guarded.rest (guarded : Guarded env gone s) (op : HoldOp) : Advance env gone s op s :=
  ⟨fun _ active _ => active, gone, guarded, fun _ _ f member kept _ _ => ⟨f, member, rfl, kept⟩⟩

theorem Guarded.advance_in_place (guarded : Guarded env gone s) (call : InPlace s op) (hop : HoldOp)
    (states : ∀ f ∈ op.creates env.policy s, ∀ hold_id, holdIdOf f = some hold_id → Formed env f hold_id ∧
      ((∃ hold ∈ s.active_legal_holds env.parse_legal_hold, hold.hold_id = hold_id) ∨ ∀ g ∈ s.facts, holdIdOf g ≠ some hold_id))
    (others : ∀ hold ∈ s.active_legal_holds env.parse_legal_hold, s.releases env hold.hold_id hop = false →
      ∀ f ∈ op.creates env.policy s, holdIdOf f ≠ some hold.hold_id) : Advance env gone s hop (s.step env.toEnv op) := by
  refine ⟨fun hold active unreleased => guarded.hold_in_place call active (others hold active unreleased), gone,
    guarded.in_place call states, ?_⟩
  intro _ _ f member kept _ _
  obtain ⟨f', there, same⟩ := call.stays env member
  refine ⟨f', there, same, ?_⟩
  rw [(fields_of_content same).1]
  exact kept

theorem Guarded.advance_place (guarded : Guarded env gone s) (fresh : (HoldOp.place request drawn written superseded).Fresh s)
    (safe : (HoldOp.place request drawn written superseded).Safe env s) :
    Advance env gone s (.place request drawn written superseded) (s.place_legal_hold env request drawn written superseded).1 := by
  unfold place_legal_hold
  split_ifs
  · exact guarded.rest _
  · exact guarded.rest _
  · rcases storeState_cases env s ⟨placedHold request drawn, _⟩ drawn.receipt_id _ drawn.stamp written superseded
      with failed | ⟨done, stored⟩
    · rw [failed]
      exact guarded.rest _
    · rw [stored, safe done]
      refine guarded.advance_in_place (inPlace_state _ _ _ fresh.1) _ ?_ ?_
      · intro f made hold_id of
        obtain ⟨own, key, value⟩ := created_state _ _ _ _ _ made
        rw [own, Option.some.injEq] at of
        rw [← of]
        exact ⟨⟨key, _, value, rfl⟩, .inr fresh.2⟩
      · intro hold active _ f made of
        -- an active hold has a state, a new one has none
        obtain ⟨is, _⟩ := guarded.mem_active.mp active
        rw [(created_state _ _ _ _ _ made).1, Option.some.injEq] at of
        have empty : s.states hold.hold_id = [] := by
          refine eq_nil_iff_forall_not_mem.mpr fun g member => ?_
          obtain ⟨here, _, same⟩ := mem_states.mp member
          exact fresh.2 g here (same.trans (congrArg some of.symm))
        unfold Memory.resolved at is
        rw [empty] at is
        cases is

theorem legal_hold_eq (hold_id : String) : s.legal_hold env hold_id = s.resolved env.parse_legal_hold hold_id := by
  unfold legal_hold Memory.resolved Memory.states
  rw [filter_filter]
  congr 1
  refine filter_congr fun f _ => ?_
  simp only [holdIdOf_iff]

section
variable (guarded : Guarded env gone s)
include guarded

theorem Guarded.advance_release
    (fresh : (HoldOp.release prepared durable stamp written superseded).Fresh s)
    (safe : (HoldOp.release prepared durable stamp written superseded).Safe env s) :
    Advance env gone s (.release prepared durable stamp written superseded)
      (s.release_legal_hold env prepared durable stamp written superseded).1 := by
  have done_if : s.releases env prepared.hold.hold_id (.release prepared durable stamp written superseded) =
      (s.release_legal_hold env prepared durable stamp written superseded).2.isOk := by
    simp [releases]
  generalize outcome : s.release_legal_hold env prepared durable stamp written superseded = result at done_if
  unfold release_legal_hold at outcome
  split_ifs at outcome
  · exact outcome ▸ guarded.rest _
  · exact outcome ▸ guarded.rest _
  · cases found : s.legal_hold env prepared.hold.hold_id with
    | none =>
      rw [found] at outcome
      exact outcome ▸ guarded.rest _
    | some current =>
      rw [found] at outcome
      dsimp only at outcome
      split_ifs at outcome with inactive unfit
      · exact outcome ▸ guarded.rest _
      · exact outcome ▸ guarded.rest _
      · rcases storeState_cases env s
          { prepared with hold := { prepared.hold with release_receipt_id := some durable } } durable prepared.hold.released_by stamp
          written superseded with failed | ⟨done, stored⟩
        · rw [failed] at outcome
          exact outcome ▸ guarded.rest _
        · rw [stored, safe done] at outcome
          subst outcome
          have in_force : current.active = true := by simpa using inactive
          rw [legal_hold_eq] at found
          have own := resolved_hold_id guarded.formed found
          have held : current ∈ s.active_legal_holds env.parse_legal_hold :=
            mem_active_legal_holds.mpr ⟨⟨_, found⟩, in_force⟩
          refine guarded.advance_in_place (inPlace_state _ _ _ fresh) _ ?_ ?_
          · intro f made hold_id of
            obtain ⟨of', key, value⟩ := created_state _ _ _ _ _ made
            rw [of', Option.some.injEq] at of
            rw [← of]
            exact ⟨⟨key, _, value, rfl⟩, .inl ⟨current, held, own⟩⟩
          · intro hold _ unreleased f made of
            rw [(created_state _ _ _ _ _ made).1, Option.some.injEq] at of
            have same : prepared.hold.hold_id = hold.hold_id := of
            rw [← same, done_if] at unreleased
            cases unreleased

/-- A compaction that drops no fact an active hold covers and no state of it. -/
theorem Guarded.advance_compacted (op : HoldOp)
    (alive : ∀ hold ∈ s.active_legal_holds env.parse_legal_hold, ∀ f ∈ s.facts, holdIdOf f = some hold.hold_id → f.deleted = false)
    (kept : ∀ hold ∈ s.active_legal_holds env.parse_legal_hold, ∀ f ∈ s.facts, hold.covers_fact f = true →
      s.overrides env f op = false → f.deleted = false) : Advance env gone s op { s with journal := s.compactedLines } := by
  obtain ⟨gone', guarded', dead⟩ := guarded.compacted alive
  refine ⟨fun _ active _ => active, gone', guarded', ?_⟩
  intro hold active f member _ covers unnamed
  refine ⟨f, member, rfl, ?_⟩
  rw [dead f member, kept hold active f member covers unnamed]
  exact Bool.false_ne_true

theorem Guarded.advance_compact (replaced : Bool) :
    Advance env gone s (.call (.compact replaced)) (s.compact_journal env.parse_legal_hold replaced).1 := by
  unfold compact_journal compact_journal_unchecked
  split_ifs with free
  · have none_covered : ∀ hold ∈ s.active_legal_holds env.parse_legal_hold, ∀ f ∈ s.facts,
        hold.covers_fact f = true ∨ holdIdOf f = some hold.hold_id → f.deleted = false := by
      intro hold active f member covers
      by_contra dead
      obtain ⟨hold_ids, listed, _⟩ := mem_covered active member (by simpa using dead) covers
      rw [List.isEmpty_iff.mp free] at listed
      cases listed
    exact guarded.advance_compacted _ (fun hold active f member of => none_covered hold active f member (.inr of))
      fun hold active f member covers _ => none_covered hold active f member (.inl covers)
  · exact guarded.rest _
  · exact guarded.rest _

theorem Guarded.advance_overridden (safe : (HoldOp.compact_overridden receipt replaced).Safe env s) :
    Advance env gone s (.compact_overridden receipt replaced)
      (s.compact_journal_after_legal_hold_override_receipt env.parse_legal_hold receipt replaced).1 := by
  unfold compact_journal_after_legal_hold_override_receipt compact_journal_unchecked
  split_ifs with covered
  · refine guarded.advance_compacted _ safe ?_
    intro hold active f member covers unnamed
    by_contra dead
    obtain ⟨hold_ids, listed, all⟩ := mem_covered active member (by simpa using dead) (.inl covers)
    simp only [fullyCovered, Bool.and_eq_true, all_eq_true] at covered
    obtain ⟨kind, named⟩ := covered
    obtain ⟨fact_named, holds_named⟩ := named _ listed
    have overridden : s.overrides env f (.compact_overridden receipt replaced) = true := by
      simp only [overrides, Bool.and_eq_true, all_eq_true]
      refine ⟨⟨kind, fact_named⟩, fun hold' there => ?_⟩
      obtain ⟨active', covers'⟩ := List.mem_filter.mp there
      exact holds_named _ (all hold' active' covers')
    rw [overridden] at unnamed
    cases unnamed
  · exact guarded.rest _
  · exact guarded.rest _

theorem Guarded.advance {op : HoldOp} (fresh : op.Fresh s) (safe : op.Safe env s) :
    Advance env gone s op (s.holdStep env op) := by
  cases op with
  | place request drawn written superseded => exact guarded.advance_place fresh safe
  | release prepared durable stamp written superseded => exact guarded.advance_release fresh safe
  | compact_overridden receipt replaced => exact guarded.advance_overridden safe
  | call op =>
    by_cases in_place : op.compacts = false ∧ op.reopens = false
    · have sure : op.written = true ∧ op.finite = true := by
        rcases safe with compacts | sure
        · rw [in_place.1] at compacts
          cases compacts
        · exact sure
      have call : InPlace s op := by
        refine ⟨in_place, ?_, fresh.2, sure.1, sure.2, ?_⟩
        · cases op <;> first | rfl | cases fresh.1
        · rintro tenant target successor first rfl
          cases fresh.1
      have outside : ∀ f ∈ op.creates env.policy s, holdIdOf f = none := creates_outside fresh.1
      refine guarded.advance_in_place call _ ?_ ?_
      · intro f made hold_id of
        rw [outside f made] at of
        cases of
      · intro hold _ _ f made of
        rw [outside f made] at of
        cases of
    · cases op with
      | compact replaced => exact guarded.advance_compact replaced
      | reopen =>
        obtain ⟨reopened, holds, facts⟩ := guarded.reopen
        refine ⟨fun hold active _ => holds hold active, [], reopened, ?_⟩
        intro _ _ f member kept _ _
        exact ⟨f, facts f member kept, rfl, by simp⟩
      | _ => exact absurd ⟨rfl, rfl⟩ in_place

end

theorem overrides_content (same : f'.content = f.content) (op : HoldOp) : s.overrides env f' op = s.overrides env f op := by
  obtain ⟨id, tenant, entity, _, _⟩ := fields_of_content same
  cases op with
  | compact_overridden receipt replaced =>
    unfold overrides LegalHold.covers_fact
    rw [id, tenant, entity]
  | _ => rfl

theorem Guarded.run (guarded : Guarded env gone s)
    (fresh : FactStore.HoldsMeet env (fun s op => op.Fresh s) s ops)
    (safe : FactStore.HoldsMeet env (fun s op => op.Safe env s) s ops) : ∃ gone', Guarded env gone' (s.holdRun env ops) ∧
      (∀ hold ∈ s.active_legal_holds env.parse_legal_hold,
        FactStore.HoldsMeet env (fun s op => s.releases env hold.hold_id op = false) s ops →
          hold ∈ (s.holdRun env ops).active_legal_holds env.parse_legal_hold) ∧
      ∀ hold ∈ s.active_legal_holds env.parse_legal_hold, ∀ f ∈ s.facts, f.fact_id ∉ gone → hold.covers_fact f = true →
        FactStore.HoldsMeet env (fun s op => s.releases env hold.hold_id op = false ∧ s.overrides env f op = false) s ops →
          ∃ f' ∈ (s.holdRun env ops).facts, f'.content = f.content ∧ f'.fact_id ∉ gone' := by
  induction ops generalizing s gone with
  | nil => exact ⟨gone, guarded, fun _ active _ => active, fun _ _ f member kept _ _ => ⟨f, member, rfl, kept⟩⟩
  | cons op rest ih =>
    obtain ⟨holds, gone', guarded', facts⟩ := guarded.advance fresh.1 safe.1
    obtain ⟨gone'', guarded'', holds', facts'⟩ := ih guarded' fresh.2 safe.2
    refine ⟨gone'', guarded'', ?_, ?_⟩
    · intro hold active unreleased
      exact holds' hold (holds hold active unreleased.1) unreleased.2
    · intro hold active f member kept covers undisturbed
      obtain ⟨f', there, same, kept'⟩ := facts hold active f member kept covers undisturbed.1.2
      have covers' : hold.covers_fact f' = true := by
        obtain ⟨_, tenant, entity, _, _⟩ := fields_of_content same
        unfold LegalHold.covers_fact at covers ⊢
        rw [tenant, entity]
        exact covers
      have later := undisturbed.2
      simp only [← overrides_content same] at later
      obtain ⟨f'', there', same', kept''⟩ := facts' hold (holds hold active undisturbed.1.1) f' there kept' covers' later
      exact ⟨f'', there', same'.trans same, kept''⟩

end

end Crux.Facts
