import Crux.FactCompacted
import Crux.HoldRuns

/-!
# The states of a hold

No operation changes the content of a stored fact, and a hold depends on the
contents of its states only, in whatever order they are stored.
-/

namespace Crux.Facts
open Memory List

variable {m : Memory}

theorem mem_contents : c ∈ m.contents ↔ ∃ f ∈ m.facts, f.content = c := mem_map

theorem fields_of_content {f f' : Fact} (same : f.content = f'.content) :
    f.fact_id = f'.fact_id ∧ f.tenant_hash = f'.tenant_hash ∧ f.entity = f'.entity ∧ f.value = f'.value ∧
      f.confidence = f'.confidence := by
  have both := Fact.mk.inj same
  exact ⟨both.1, both.2.1, both.2.2.1, both.2.2.2.2.1, both.2.2.2.2.2.2.1⟩

theorem stateBefore_iff : stateBefore a b ↔ b.version < a.version ∨ (a.version = b.version ∧ storedBefore b a) := by
  unfold stateBefore storedBefore
  rw [@eq_comm _ a.stored_at]

theorem stateBefore_total (a b : Fact) : stateBefore a b ∨ stateBefore b a := by
  rw [stateBefore_iff, stateBefore_iff]
  rcases Nat.lt_trichotomy a.version.toNat b.version.toNat with below | same | above
  · exact .inr (.inl (UInt32.lt_iff_toNat_lt.mpr below))
  · have equal := UInt32.toNat_inj.mp same
    exact (storedBefore_total b a).imp (fun before => .inr ⟨equal, before⟩) fun before => .inr ⟨equal.symm, before⟩
  · exact .inl (.inl (UInt32.lt_iff_toNat_lt.mpr above))

theorem stateBefore_trans (first : stateBefore a b) (second : stateBefore b c) : stateBefore a c := by
  rw [stateBefore_iff] at *
  rcases first with above | ⟨same, before⟩
  · rcases second with above' | ⟨same', _⟩
    · exact .inl (UInt32.lt_trans above' above)
    · exact .inl (same' ▸ above)
  · rcases second with above' | ⟨same', before'⟩
    · exact .inl (same ▸ above')
    · exact .inr ⟨same.trans same', storedBefore_trans before' before⟩

theorem stateBefore_antisymm (first : stateBefore a b) (second : stateBefore b a) : a.fact_id = b.fact_id := by
  rw [stateBefore_iff] at *
  rcases first with above | ⟨same, before⟩
  · rcases second with above' | ⟨same', _⟩
    · exact absurd above (UInt32.lt_asymm above')
    · exact absurd above (same' ▸ UInt32.lt_irrefl _)
  · rcases second with above' | ⟨_, before'⟩
    · exact absurd above' (same ▸ UInt32.lt_irrefl _)
    · exact storedBefore_antisymm before' before

instance : Std.Total stateBefore := ⟨stateBefore_total⟩

instance : IsTrans Fact stateBefore := ⟨fun _ _ _ => stateBefore_trans⟩

section
variable (parse : String → Option LegalHold) (hold_id : String)

/-- The hold that a list of states in their order gives. -/
def newestHold (sorted : List Fact) : Option LegalHold :=
  sorted.head?.map fun newest =>
    match sorted.findSome? fun f => parse f.value with
    | some hold => hold
    | none => failClosedHold hold_id newest

theorem newestHold_content (sorted : List Fact) :
    newestHold parse hold_id (sorted.map Fact.content) = newestHold parse hold_id sorted := by
  have same : (sorted.map Fact.content).findSome? (fun f => parse f.value) = sorted.findSome? fun f => parse f.value := by
    rw [findSome?_map]
    rfl
  unfold newestHold
  rw [same, head?_map, Option.map_map]
  rfl

/-- A hold depends on the contents of its states only. -/
theorem resolve_contents (same : (a.map Fact.content).Perm (b.map Fact.content)) (nodup : (a.map Fact.fact_id).Nodup) :
    resolve_legal_hold_state parse hold_id a = resolve_legal_hold_state parse hold_id b := by
  have sorted : ∀ list : List Fact, ((list.insertionSort stateBefore).map Fact.content).Pairwise stateBefore := fun list =>
    pairwise_map.mpr (pairwise_insertionSort stateBefore list)
  have perm : ∀ list : List Fact, ((list.insertionSort stateBefore).map Fact.content).Perm (list.map Fact.content) := fun list =>
    (perm_insertionSort stateBefore list).map _
  have distinct : ((a.map Fact.content).map Fact.fact_id).Nodup := by
    rw [map_map]
    exact nodup
  have equal : (a.insertionSort stateBefore).map Fact.content = (b.insertionSort stateBefore).map Fact.content := by
    refine List.Perm.eq_of_pairwise (fun x y left right before after => ?_) (sorted a) (sorted b)
      ((perm a).trans (same.trans (perm b).symm))
    have member := (perm a).mem_iff.mp left
    have member' := same.mem_iff.mpr ((perm b).mem_iff.mp right)
    exact inj_on_of_nodup_map distinct member member' (stateBefore_antisymm before after)
  change newestHold parse hold_id (a.insertionSort stateBefore) = newestHold parse hold_id (b.insertionSort stateBefore)
  rw [← newestHold_content, equal, newestHold_content]

end

/-- The states of a hold. -/
def Memory.states (m : Memory) (hold_id : String) : List Fact :=
  (m.facts.filter fun f => f.key = "state").filter fun f => holdIdOf f = some hold_id

def Memory.resolved (parse : String → Option LegalHold) (m : Memory) (hold_id : String) : Option LegalHold :=
  resolve_legal_hold_state parse hold_id (m.states hold_id)

theorem mem_states : f ∈ m.states hold_id ↔ f ∈ m.facts ∧ f.key = "state" ∧ holdIdOf f = some hold_id := by
  unfold Memory.states
  rw [mem_filter, mem_filter, decide_eq_true_eq, decide_eq_true_eq, and_assoc]

theorem mem_legal_holds : hold ∈ m.legal_holds parse ↔ ∃ hold_id, m.resolved parse hold_id = some hold := by
  unfold Memory.legal_holds
  rw [mem_insertionSort, mem_filterMap]
  constructor
  · rintro ⟨hold_id, _, is⟩
    exact ⟨hold_id, is⟩
  · rintro ⟨hold_id, is⟩
    refine ⟨hold_id, mem_dedupIds.mpr ?_, is⟩
    have some_state : (m.states hold_id) ≠ [] := by
      intro none_there
      unfold Memory.resolved at is
      rw [none_there] at is
      cases is
    obtain ⟨f, member⟩ := exists_mem_of_ne_nil _ some_state
    obtain ⟨here, key, of⟩ := mem_states.mp member
    unfold sortIds
    rw [mem_insertionSort, mem_filterMap]
    exact ⟨f, mem_filter.mpr ⟨here, by simpa using key⟩, of⟩

theorem mem_active_legal_holds :
    hold ∈ m.active_legal_holds parse ↔ (∃ hold_id, m.resolved parse hold_id = some hold) ∧ hold.active = true := by
  unfold Memory.active_legal_holds
  rw [mem_filter, mem_legal_holds]

theorem states_contents (m : Memory) (hold_id : String) : (m.states hold_id).map Fact.content =
      (m.contents.filter fun f => f.key = "state").filter fun f => holdIdOf f = some hold_id := by
  unfold Memory.states Memory.contents
  rw [filter_map, filter_map]
  rfl

theorem resolved_same (parse : String → Option LegalHold) {m' : Memory} (nodup : m.ids.Nodup) {hold_id : String}
    (same : ((m.states hold_id).map Fact.content).Perm ((m'.states hold_id).map Fact.content)) :
    m.resolved parse hold_id = m'.resolved parse hold_id := by
  refine resolve_contents parse hold_id same ?_
  exact ((filter_sublist.trans filter_sublist).map Fact.fact_id).nodup nodup

end Crux.Facts
