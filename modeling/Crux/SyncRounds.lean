import Crux.FactCompacted
import Crux.PackImport

/-!
# Rounds of push and pull

A push selects its batch, sends it and then takes the clock as the new watermark; a
pull asks for pages from its watermark on and takes the clock at the end. Between
these steps facts are stored on either side. Nothing is lost while what is stored
during a round is stamped after the watermark that the round sets.
-/

namespace Crux.Facts.Sync
open Memory List

/-- What happens to a store between the steps of a round. -/
inductive StoreStep where
  | store (req : StoreFact) (stamp : Stamp) (written superseded : Bool)
  | delete (tenant_hash fact_id : String) (written : Bool)

def StoreStep.apply (policy : PrivacyPolicy) (s : FactStore) : StoreStep → FactStore
  | .store req stamp written superseded => (s.store policy req stamp written superseded).1
  | .delete tenant_hash fact_id written => (s.delete tenant_hash fact_id written).1

/-- The fields of a fact that the rounds look at, apart from the deletion. -/
def face (f : Fact) : String × Timestamp × Bool × Option String × String × String :=
  (f.fact_id, f.stored_at, f.is_private, f.source_receipt, f.entity, f.tenant_hash)

/-- Two facts with one face where the second is not deleted unless the first is. -/
def Same (f f' : Fact) : Prop := face f = face f' ∧ (f'.deleted = false → f.deleted = false)

variable {f' : Fact}

theorem Same.fact_id (same : Same f f') : f.fact_id = f'.fact_id := congrArg (fun a => a.1) same.1

theorem Same.stored_at (same : Same f f') : f.stored_at = f'.stored_at := congrArg (fun a => a.2.1) same.1

theorem Same.rfl : Same f f := ⟨Eq.refl _, id⟩

theorem mem_modify {m : Memory} {id : String} (keeps : ∀ f, Same f (h f)) (member : f' ∈ (m.modify id h).facts) :
    ∃ f ∈ m.facts, Same f f' := by
  obtain ⟨f, here, rfl⟩ := mem_map.mp member
  refine ⟨f, here, ?_⟩
  split_ifs
  · exact keeps f
  · exact Same.rfl

variable {s : FactStore}

theorem mem_mark {tenant_hash target successor : String}
    (member : f' ∈ (s.mark_superseded tenant_hash target successor written).1.facts) : ∃ f ∈ s.facts, Same f f' := by
  unfold FactStore.mark_superseded FactStore.append_journal FactStore.change at member
  split_ifs at member
  · exact ⟨f', member, Same.rfl⟩
  · exact mem_modify (h := setSupersededBy (some successor)) (fun f => ⟨rfl, id⟩) member
  · exact mem_modify (h := setSupersededBy (some successor)) (fun f => ⟨rfl, id⟩) member
  · exact ⟨f', member, Same.rfl⟩

theorem mem_apply {policy : PrivacyPolicy} {step : StoreStep} (member : f' ∈ (step.apply policy s).facts) :
    (∃ f ∈ s.facts, Same f f') ∨
      ∃ req stamp written superseded, step = .store req stamp written superseded ∧ f'.fact_id = stamp.fact_id ∧
        f'.stored_at = stamp.stored_at := by
  cases step with
  | delete tenant_hash fact_id written =>
    refine .inl ?_
    change f' ∈ (s.delete tenant_hash fact_id written).1.facts at member
    unfold FactStore.delete FactStore.append_journal FactStore.change at member
    split_ifs at member
    · exact ⟨f', member, Same.rfl⟩
    · exact mem_modify (h := setDeleted) (fun f => ⟨rfl, fun live => by cases live⟩) member
    · exact mem_modify (h := setDeleted) (fun f => ⟨rfl, fun live => by cases live⟩) member
    · exact ⟨f', member, Same.rfl⟩
  | store req stamp written superseded =>
    change f' ∈ (s.store policy req stamp written superseded).1.facts at member
    unfold FactStore.store at member
    dsimp only at member
    generalize built : s.build_fact (enforce_global policy req) stamp = fact at member
    have stamped : fact.fact_id = stamp.fact_id ∧ fact.stored_at = stamp.stored_at := by
      rw [← built]
      exact ⟨rfl, rfl⟩
    -- before the mark on the version before
    have inserted : ∃ f, Same f f' ∧ (f ∈ s.facts ∨ f = fact) := by
      have grown : ∀ f, f ∈ ((s.change fun m => m.insert_fact_indexes fact).append_journal (.Store fact) written).facts →
          f ∈ s.facts ∨ f = fact := by
        intro f there
        unfold FactStore.append_journal at there
        split_ifs at there <;> simpa [FactStore.change, insert_fact_indexes] using there
      unfold FactStore.supersede_prior_version at member
      cases prior : fact.supersedes with
      | none =>
        rw [prior] at member
        exact ⟨f', Same.rfl, grown f' member⟩
      | some prev_id =>
        rw [prior] at member
        obtain ⟨f, there, same⟩ := mem_mark member
        exact ⟨f, same, grown f there⟩
    obtain ⟨f, same, old | rfl⟩ := inserted
    · exact .inl ⟨f, old, same⟩
    · exact .inr ⟨req, stamp, written, superseded, rfl, same.fact_id ▸ stamped.1, same.stored_at ▸ stamped.2⟩

theorem ids_apply (policy : PrivacyPolicy) (s : FactStore) (step : StoreStep) :
    (step.apply policy s).ids = s.ids ++ match step with
      | .store _ stamp _ _ => [stamp.fact_id]
      | .delete _ _ _ => [] := by
  cases step with
  | delete tenant_hash fact_id written =>
    have gains : Gains policy s (s.delete tenant_hash fact_id written).1 [] := .writes (writes_delete (fun _ => rfl) (by simp))
    exact gains.ids
  | store req stamp written superseded => exact (gains_store req stamp written superseded).ids

/-- The step draws an identifier that is not in use. -/
def StoreStep.Fresh (s : FactStore) : StoreStep → Prop
  | .store _ stamp _ _ => stamp.fact_id ∉ s.ids
  | .delete _ _ _ => True

section
variable {policy : PrivacyPolicy} {step : StoreStep}

theorem nodup_apply (nodup : s.ids.Nodup) (fresh : step.Fresh s) : (step.apply policy s).ids.Nodup := by
  rw [ids_apply]
  cases step with
  | delete tenant_hash fact_id written => simpa using nodup
  | store req stamp written superseded =>
    rw [nodup_append]
    refine ⟨nodup, nodup_singleton _, ?_⟩
    intro a old b new same
    rw [mem_singleton.mp new] at same
    exact fresh (same ▸ old)

theorem mem_ids_apply {id : String} (old : id ∈ s.ids) : id ∈ (step.apply policy s).ids := by
  rw [ids_apply]
  exact mem_append_left _ old

theorem mem_apply_old (fresh : step.Fresh s)
    (member : f' ∈ (step.apply policy s).facts) (old : f'.fact_id ∈ s.ids) : ∃ f ∈ s.facts, Same f f' := by
  rcases mem_apply member with before | ⟨req, stamp, written, superseded, rfl, named, _⟩
  · exact before
  · rw [named] at old
    exact absurd old fresh

end

/-- A batch and the identifiers that were in the store when it was selected. -/
structure Selection where
  batch : List Fact
  seen : List String

structure PushState where
  store : FactStore := {}
  last_push_at : Option Timestamp := none
  selected : Option Selection := none
  /-- The identifiers in the batches of completed pushes. -/
  pushed : List String := []

inductive PushStep where
  | work (step : StoreStep)
  | select
  | finish (now : Timestamp)
  | fail

section
variable (client : SyncClient) (policy : PrivacyPolicy)

/-- The client with the watermark of a state. -/
def clientAt (st : PushState) : SyncClient := { client with last_push_at := st.last_push_at }

/-- `push_facts` on the selected batch: an empty one leaves the watermark. -/
def push_facts (st : PushState) (selection : Selection) (now : Timestamp) : PushState :=
  if selection.batch.isEmpty then { st with selected := none }
  else { st with selected := none, last_push_at := some now, pushed := st.pushed ++ selection.batch.map Fact.fact_id }

def PushState.step (st : PushState) : PushStep → PushState
  | .work step => { st with store := step.apply policy st.store }
  | .select => { st with selected := some ⟨(clientAt client st).pushable_facts st.store.facts, st.store.ids⟩ }
  | .finish now =>
    match st.selected with
    | some selection => push_facts st selection now
    | none => st
  | .fail => { st with selected := none }

def PushState.run (st : PushState) (steps : List PushStep) : PushState := steps.foldl (PushState.step client policy) st

/-- A fact that is to be pushed. -/
def eligible (f : Fact) : Bool :=
  !f.deleted && !client.is_private f && f.source_receipt.all fun receipt => !starts_with receipt "sync:"

/-- New facts are stamped after the watermark, and at the end of a push the clock is before everything that was stored since
the batch was selected. -/
def PushStep.Timely (st : PushState) : PushStep → Prop
  | .work (.store req stamp written superseded) =>
    (StoreStep.store req stamp written superseded).Fresh st.store ∧ ∀ w ∈ st.last_push_at, w < stamp.stored_at
  | .finish now => ∀ selection ∈ st.selected, ∀ f ∈ st.store.facts, eligible client f = true →
      f.fact_id ∉ selection.seen → now < f.stored_at
  | _ => True

def PushTimely : PushState → List PushStep → Prop
  | _, [] => True
  | st, step :: steps => PushStep.Timely client st step ∧ PushTimely (st.step client policy step) steps

instance (s : FactStore) : (step : StoreStep) → Decidable (step.Fresh s)
  | .store _ _ _ _ => inferInstanceAs (Decidable (_ ∉ _))
  | .delete _ _ _ => inferInstanceAs (Decidable True)

instance (st : PushState) : (step : PushStep) → Decidable (PushStep.Timely client st step)
  | .work (.store _ _ _ _) => inferInstanceAs (Decidable (_ ∧ ∀ w ∈ _, _))
  | .finish _ => inferInstanceAs (Decidable (∀ selection ∈ _, ∀ f ∈ _, _ → _ → _))
  | .work (.delete _ _ _) | .select | .fail => inferInstanceAs (Decidable True)

instance PushTimely.decidable : (st : PushState) → (steps : List PushStep) → Decidable (PushTimely client policy st steps)
  | _, [] => inferInstanceAs (Decidable True)
  | st, step :: steps =>
    haveI := PushTimely.decidable (st.step client policy step) steps
    inferInstanceAs (Decidable (PushStep.Timely client st step ∧ _))

/-- Every fact that is to be pushed is in a completed batch or in the next selection. -/
def PushLossless (st : PushState) : Prop :=
  ∀ f ∈ st.store.facts, eligible client f = true →
    f.fact_id ∈ st.pushed ∨ f ∈ (clientAt client st).pushable_facts st.store.facts

structure PushKept (st : PushState) : Prop where
  settled : ∀ f ∈ st.store.facts, eligible client f = true →
    f.fact_id ∈ st.pushed ∨ ∀ w, st.last_push_at = some w → w < f.stored_at
  seen : ∀ selection, st.selected = some selection → ∀ id ∈ selection.seen, id ∈ st.store.ids
  batch : ∀ selection, st.selected = some selection → ∀ f ∈ st.store.facts, eligible client f = true →
    f.fact_id ∈ selection.seen → f.fact_id ∈ st.pushed ∨ f.fact_id ∈ selection.batch.map Fact.fact_id

variable {client policy} {st : PushState}

theorem mem_pushable : f ∈ (clientAt client st).pushable_facts st.store.facts ↔
      f ∈ st.store.facts ∧ eligible client f = true ∧ ∀ w, st.last_push_at = some w → w < f.stored_at := by
  simp only [SyncClient.pushable_facts, mem_filter, eligible, clientAt, Bool.and_eq_true, Option.all_eq_true,
    decide_eq_true_eq]
  constructor
  · rintro ⟨⟨⟨⟨here, live⟩, shared⟩, made⟩, late⟩
    exact ⟨here, ⟨⟨live, shared⟩, made⟩, late⟩
  · rintro ⟨here, ⟨⟨live, shared⟩, made⟩, late⟩
    exact ⟨⟨⟨⟨here, live⟩, shared⟩, made⟩, late⟩

theorem Same.eligible (same : Same f f') (yes : Sync.eligible client f' = true) : Sync.eligible client f = true := by
  have faces := same.1
  simp [face] at faces
  obtain ⟨_, _, closed, receipt, entity, _⟩ := faces
  simp [Sync.eligible, SyncClient.is_private] at yes ⊢
  rw [closed, receipt, entity]
  exact ⟨⟨same.2 yes.1.1, yes.1.2⟩, yes.2⟩

theorem PushKept.idle (none_selected : st.selected = none) (settled : ∀ f ∈ st.store.facts, eligible client f = true →
      f.fact_id ∈ st.pushed ∨ ∀ w, st.last_push_at = some w → w < f.stored_at) : PushKept client st := by
  refine ⟨settled, ?_, ?_⟩
  · intro selection is
    rw [none_selected] at is
    cases is
  · intro selection is
    rw [none_selected] at is
    cases is

section
variable (kept : PushKept client st)
include kept

theorem PushKept.work (timely : PushStep.Timely client st (.work step)) :
    PushKept client (st.step client policy (.work step)) := by
  have fresh : step.Fresh st.store := by
    cases step with
    | delete tenant_hash fact_id written => trivial
    | store req stamp written superseded => exact timely.1
  refine ⟨?_, ?_, ?_⟩
  · intro f' member yes
    rcases mem_apply member with ⟨f, here, same⟩ | ⟨req, stamp, written, superseded, rfl, _, late⟩
    · rw [← same.fact_id, ← same.stored_at]
      exact kept.settled f here (same.eligible yes)
    · rw [late]
      exact .inr timely.2
  · intro selection is id there
    exact mem_ids_apply (kept.seen selection is id there)
  · intro selection is f' member yes there
    obtain ⟨f, here, same⟩ := mem_apply_old fresh member (kept.seen selection is _ there)
    rw [← same.fact_id] at there ⊢
    exact kept.batch selection is f here (same.eligible yes) there

theorem PushKept.select : PushKept client (st.step client policy .select) := by
  refine ⟨kept.settled, ?_, ?_⟩
  · rintro selection ⟨⟩ id there
    exact there
  · rintro selection ⟨⟩ f member yes _
    rcases kept.settled f member yes with done | late
    · exact .inl done
    · exact .inr (mem_map_of_mem (mem_pushable.mpr ⟨member, yes, late⟩))

theorem PushKept.finish (timely : PushStep.Timely client st (.finish now)) :
    PushKept client (st.step client policy (.finish now)) := by
  change PushKept client (match st.selected with | some selection => push_facts st selection now | none => st)
  cases selected : st.selected with
  | none => exact kept
  | some selection =>
    dsimp only
    unfold push_facts
    split_ifs
    · exact PushKept.idle rfl kept.settled
    · refine PushKept.idle rfl ?_
      intro f member yes
      by_cases seen : f.fact_id ∈ selection.seen
      · rcases kept.batch selection selected f member yes seen with done | sent
        · exact .inl (mem_append_left _ done)
        · exact .inl (mem_append_right _ sent)
      · refine .inr ?_
        rintro w ⟨⟩
        exact timely selection selected f member yes seen

theorem PushKept.step {step : PushStep} (timely : PushStep.Timely client st step) :
    PushKept client (st.step client policy step) := by
  cases step with
  | work step => exact kept.work timely
  | select => exact kept.select
  | finish now => exact kept.finish timely
  | fail => exact PushKept.idle rfl kept.settled

theorem PushKept.run {steps : List PushStep} (timely : PushTimely client policy st steps) :
    PushKept client (st.run client policy steps) := by
  induction steps generalizing st with
  | nil => exact kept
  | cons step steps ih => exact ih (kept.step timely.1) timely.2

end

theorem pushKept_empty : PushKept client {} := ⟨by simp, by simp, by simp⟩

theorem PushKept.lossless (kept : PushKept client st) : PushLossless client st := by
  intro f member yes
  rcases kept.settled f member yes with done | late
  · exact .inl done
  · exact .inr (mem_pushable.mpr ⟨member, yes, late⟩)

theorem step_work_selected (st : PushState) (steps : List StoreStep) :
    (st.run client policy (steps.map .work)).selected = st.selected ∧
      (st.run client policy (steps.map .work)).pushed = st.pushed := by
  induction steps generalizing st with
  | nil => exact ⟨rfl, rfl⟩
  | cons step steps ih => exact ih (st.step client policy (.work step))

/-- A completed round takes all that was to be pushed when it began. -/
theorem push_round (lossless : PushLossless client st) (steps : List StoreStep) (now : Timestamp) :
    ∀ f ∈ st.store.facts, eligible client f = true →
      f.fact_id ∈ (st.run client policy (.select :: (steps.map .work ++ [.finish now]))).pushed := by
  intro f member yes
  have split : st.run client policy (.select :: (steps.map .work ++ [.finish now])) =
      ((st.step client policy .select).run client policy (steps.map .work)).step client policy (.finish now) := by
    simp [PushState.run]
  obtain ⟨selected, pushed⟩ := @step_work_selected client policy (st.step client policy .select) steps
  rw [split]
  generalize (st.step client policy .select).run client policy (steps.map .work) = later at selected pushed
  change f.fact_id ∈ (match later.selected with | some selection => push_facts later selection now | none => later).pushed
  rw [selected]
  change f.fact_id ∈ (push_facts later ⟨(clientAt client st).pushable_facts st.store.facts, st.store.ids⟩ now).pushed
  have before : later.pushed = st.pushed := pushed
  unfold push_facts
  rcases lossless f member yes with done | next
  · split_ifs
    · rw [before]
      exact done
    · exact mem_append_left _ (before ▸ done)
  · rw [if_neg (by simpa using ne_nil_of_mem next)]
    exact mem_append_right _ (mem_map_of_mem next)

end

end Crux.Facts.Sync
