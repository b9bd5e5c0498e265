import Crux.HoldsKept
import Crux.TextForm

/-!
# Legal holds preserve what they cover

The result on whole runs: a hold stays in force until it is released, and the
facts it covers stay on disk and readable until then or until a compaction under
a receipt that names them.
-/

namespace Crux.Facts
open Memory List

theorem on_line (member : f ∈ (FactStore.with_persistence policy journal).facts) :
    ∃ line ∈ journal, ∃ g ∈ line.created, g.fact_id = f.fact_id ∧ g.value = f.value := by
  obtain ⟨new, contents, sub⟩ := brings_lines policy {} journal
  have clean : (FactStore.with_persistence policy journal).contents = (replayLines policy journal).contents :=
    contents_each (replayLines policy journal) fun _ => rfl
  have listed : f.content ∈ new := by
    have there : f.content ∈ (FactStore.with_persistence policy journal).contents := mem_contents.mpr ⟨f, member, rfl⟩
    rw [clean, replayLines, contents] at there
    exact there
  obtain ⟨g, made, same⟩ := mem_map.mp (sub.subset listed)
  obtain ⟨fact, of_line, rfl⟩ := mem_map.mp made
  obtain ⟨line, there, named⟩ := mem_flatMap.mp of_line
  obtain ⟨id, _, _, value, _⟩ := fields_of_content same
  have kept : (incoming policy fact).value = fact.value := by
    unfold incoming enforce_global_fact
    split_ifs <;> rfl
  exact ⟨line, there, fact, named, (incoming_fields policy fact).1.symm.trans id, kept.symm.trans value⟩

/-- The value of a fact stands on a line of the journal, and the store opened on the journal has it. -/
structure ReadsBack (env : HoldEnv) (s : FactStore) (f : Fact) : Prop where
  on_disk : ∃ line ∈ s.journal, ∃ g ∈ line.created, g.fact_id = f.fact_id ∧ g.value = f.value
  readable : ∃ g, (FactStore.with_persistence env.policy s.journal).get_for_tenant_including_deleted f.fact_id f.tenant_hash =
    some g ∧ g.value = f.value

section
variable {env : HoldEnv} {gone : List String} {s : FactStore}

theorem Guarded.readsBack_iff (guarded : Guarded env gone s) (member : f ∈ s.facts) :
    ReadsBack env s f ↔ f.fact_id ∉ gone := by
  have nodup := guarded.whole.sound.nodup
  constructor
  · intro back out
    obtain ⟨g, found, _⟩ := back.readable
    unfold get_for_tenant_including_deleted at found
    rw [guarded.restores.lookup nodup, if_pos out] at found
    cases found
  · intro kept
    have there := guarded.reopen.2.2 f member kept
    refine ⟨on_line there, f, ?_, rfl⟩
    unfold get_for_tenant_including_deleted
    rw [lookup_of_mem (whole_reopen env.policy s.journal).sound.nodup there]
    simp

theorem readsBack_content (same : f'.content = f.content) (back : ReadsBack env s f') : ReadsBack env s f := by
  obtain ⟨id, tenant, _, value, _⟩ := fields_of_content same
  refine ⟨?_, ?_⟩
  · rw [← id, ← value]
    exact back.on_disk
  · rw [← id, ← value, ← tenant]
    exact back.readable

theorem resolved_single {parse : String → Option LegalHold} {m : Memory} {hold_id : String} {c : Fact} {hold : LegalHold}
    (one : (m.states hold_id).map Fact.content = [c]) (reads : parse c.value = some hold) :
    m.resolved parse hold_id = some hold := by
  obtain ⟨f, single, rfl⟩ := map_eq_singleton_iff.mp one
  have parsed : parse f.value = some hold := reads
  unfold Memory.resolved
  rw [single]
  simp [resolve_legal_hold_state, parsed]

theorem placed_active (fresh : (HoldOp.place request drawn written superseded).Fresh s)
    (placed : (s.place_legal_hold env request drawn written superseded).2 = .ok mutation) :
    mutation.hold ∈ (s.place_legal_hold env request drawn written superseded).1.active_legal_holds env.parse_legal_hold := by
  generalize outcome : s.place_legal_hold env request drawn written superseded = result at placed ⊢
  unfold FactStore.place_legal_hold at outcome
  split_ifs at outcome
  · rw [← outcome] at placed
    cases placed
  · rw [← outcome] at placed
    cases placed
  · rcases storeState_cases env s ⟨placedHold request drawn, _⟩ drawn.receipt_id _ drawn.stamp written superseded
      with failed | ⟨done, stored⟩
    · rw [failed] at outcome
      rw [← outcome] at placed
      cases placed
    · rw [stored] at outcome
      rw [← outcome] at placed ⊢
      cases placed
      refine mem_active_legal_holds.mpr ⟨⟨drawn.hold_id, ?_⟩, rfl⟩
      generalize request_eq : stateRequest env (placedHold request drawn) drawn.receipt_id
        (some (placedHold request drawn).placed_by) = req
      have drawn_fresh : (Op.try_store req drawn.stamp true superseded).Fresh s :=
        ⟨nodup_singleton _, fun id named => mem_singleton.mp named ▸ fresh.1⟩
      obtain ⟨f, creates⟩ : ∃ f, (Op.try_store req drawn.stamp true superseded).creates env.policy s = [f] := ⟨_, rfl⟩
      obtain ⟨own, key, value⟩ : holdIdOf f = some drawn.hold_id ∧ f.key = "state" ∧
          f.value = env.format_legal_hold (placedHold request drawn) := by
        subst request_eq
        exact created_state _ _ _ _ _ (creates ▸ mem_singleton_self f)
      -- the new state is the only one of its hold
      have none_old : (s.contents.filter fun f => f.key = "state").filter (fun f => holdIdOf f = some drawn.hold_id) = [] := by
        refine filter_eq_nil_iff.mpr fun c member => ?_
        obtain ⟨f, here, rfl⟩ := mem_contents.mp (mem_filter.mp member).1
        have away : holdIdOf f.content ≠ some drawn.hold_id := fresh.2 f here
        simpa using away
      have one_new : ([f.content].filter fun f => f.key = "state").filter (fun f => holdIdOf f = some drawn.hold_id) = [f.content] := by
        have state : f.content.key = "state" := key
        have of : holdIdOf f.content = some drawn.hold_id := own
        simp [state, of]
      refine resolved_single (c := f.content) ?_ ?_
      · rw [states_contents, (gains_step env.toEnv s ⟨rfl, rfl⟩ drawn_fresh).contents, creates, map_singleton,
          filter_append, filter_append, none_old, one_new, nil_append]
      · change env.parse_legal_hold f.value = _
        rw [value, env.reads]

end

theorem holdsMeet_append {condition : FactStore → HoldOp → Prop} : FactStore.HoldsMeet env condition s (ops ++ later) ↔
      FactStore.HoldsMeet env condition s ops ∧ FactStore.HoldsMeet env condition (s.holdRun env ops) later := by
  induction ops generalizing s with
  | nil => exact ⟨fun meets => ⟨trivial, meets⟩, fun both => both.2⟩
  | cons op rest ih =>
    change condition s op ∧ FactStore.HoldsMeet env condition (s.holdStep env op) (rest ++ later) ↔
      (condition s op ∧ FactStore.HoldsMeet env condition (s.holdStep env op) rest) ∧ _
    rw [ih, and_assoc]
    rfl

/-- In every run whose steps are safe, a hold that is in force stays so, also when the store is opened again, until it is
released; a fact that it covers and that is on disk stays there and readable, until then or until a compaction under a receipt
that names the fact and its holds; a fact that is not deleted is on disk; and a placed hold is in force. -/
theorem holds_preserve (env : HoldEnv) (ops later : List HoldOp)
    (fresh : FactStore.HoldsMeet env (fun s op => op.Fresh s) {} (ops ++ later))
    (safe : FactStore.HoldsMeet env (fun s op => op.Safe env s) {} (ops ++ later)) :
    (∀ hold ∈ (FactStore.holdRun env {} ops).active_legal_holds env.parse_legal_hold,
        FactStore.HoldsMeet env (fun s op => s.releases env hold.hold_id op = false) (FactStore.holdRun env {} ops) later →
          hold ∈ (FactStore.holdRun env {} (ops ++ later)).active_legal_holds env.parse_legal_hold ∧
          hold ∈ (FactStore.with_persistence env.policy
            (FactStore.holdRun env {} (ops ++ later)).journal).active_legal_holds env.parse_legal_hold) ∧
      (∀ hold ∈ (FactStore.holdRun env {} ops).active_legal_holds env.parse_legal_hold,
        ∀ f ∈ (FactStore.holdRun env {} ops).facts, hold.covers_fact f = true → ReadsBack env (FactStore.holdRun env {} ops) f →
          FactStore.HoldsMeet env (fun s op => s.releases env hold.hold_id op = false ∧ s.overrides env f op = false)
            (FactStore.holdRun env {} ops) later →
          ReadsBack env (FactStore.holdRun env {} (ops ++ later)) f) ∧
      (∀ f ∈ (FactStore.holdRun env {} ops).facts, f.deleted = false → ReadsBack env (FactStore.holdRun env {} ops) f) ∧
      ∀ request drawn written superseded mutation,
        (HoldOp.place request drawn written superseded).Fresh (FactStore.holdRun env {} ops) →
        (FactStore.place_legal_hold env (FactStore.holdRun env {} ops) request drawn written superseded).2 = .ok mutation →
          mutation.hold ∈ (FactStore.place_legal_hold env (FactStore.holdRun env {} ops) request drawn written
            superseded).1.active_legal_holds env.parse_legal_hold := by
  rw [holdsMeet_append] at fresh safe
  obtain ⟨gone, guarded, _, _⟩ := (guarded_empty env).run fresh.1 safe.1
  obtain ⟨gone', guarded', holds, facts⟩ := guarded.run fresh.2 safe.2
  rw [show FactStore.holdRun env {} (ops ++ later) = _ from foldl_append]
  refine ⟨?_, ?_, ?_, fun _ _ _ _ _ => placed_active⟩
  · intro hold active unreleased
    have still := holds hold active unreleased
    exact ⟨still, guarded'.reopen.2.1 hold still⟩
  · intro hold active f member covers back undisturbed
    obtain ⟨f', there, same, kept⟩ := facts hold active f member ((guarded.readsBack_iff member).mp back) covers undisturbed
    exact readsBack_content same ((guarded'.readsBack_iff there).mpr kept)
  · intro f member alive
    refine (guarded.readsBack_iff member).mpr fun out => ?_
    rw [guarded.restores.dead member out] at alive
    cases alive

open TextForm in
/-- The fields of a hold one after the other. -/
def holdForm : TextForm LegalHold :=
  (text.pair (text.pair (text.pair (text.many.pair (text.pair (integer.pair (text.pair (text.pair (integer.option.pair
    (text.option.pair text.option)))))))))).via
      (fun h => (h.schema, h.hold_id, h.tenant_id, h.entity_prefixes, h.reason, h.placed_at, h.placed_by, h.place_receipt_id,
        h.released_at, h.released_by, h.release_receipt_id))
      (fun (schema, hold_id, tenant_id, entity_prefixes, reason, placed_at, placed_by, place_receipt_id, released_at, released_by,
          release_receipt_id) =>
        ⟨schema, hold_id, tenant_id, entity_prefixes, reason, placed_at, placed_by, place_receipt_id, released_at, released_by,
          release_receipt_id⟩)
      fun _ => rfl

def sampleHoldEnv : HoldEnv where
  policy := ⟨[], []⟩
  parse_legal_hold value := (holdForm.get value.toList).map Prod.fst
  format_legal_hold h := String.ofList (holdForm.put h)
  reads h := by
    rw [String.toList_ofList]
    have back := holdForm.back h []
    rw [append_nil] at back
    rw [back]
    rfl

/-- A hold over the tenant and a fact of it. -/
def heldRun : List HoldOp :=
  [.place ⟨"first", [], "suit", none⟩ ⟨"h", "p", 1, ⟨"a", 1⟩⟩ true true, .call (.store sampleRequest ⟨"b", 2⟩ true true)]

def sampleHold : LegalHold := placedHold ⟨"first", [], "suit", none⟩ ⟨"h", "p", 1, ⟨"a", 1⟩⟩

def heldFact : Fact := Memory.build_fact {} sampleRequest ⟨"b", 2⟩

/-- The held fact is deleted, compactions are refused, and the store is opened again. -/
def refusedRun : List HoldOp :=
  [.call (.delete "first" "b" true), .call (.compact true), .call .reopen, .call (.compact true), .call .reopen]

theorem refusedRun_reads_back :
    (FactStore.holdRun sampleHoldEnv {} heldRun).active_legal_holds sampleHoldEnv.parse_legal_hold = [sampleHold] ∧
      ReadsBack sampleHoldEnv (FactStore.holdRun sampleHoldEnv {} (heldRun ++ refusedRun)) heldFact :=
  have active : (FactStore.holdRun sampleHoldEnv {} heldRun).active_legal_holds sampleHoldEnv.parse_legal_hold = [sampleHold] := by
    decide +kernel
  have member : heldFact ∈ (FactStore.holdRun sampleHoldEnv {} heldRun).facts := by decide +kernel
  have kept := holds_preserve sampleHoldEnv heldRun refusedRun (by decide +kernel) (by decide +kernel)
  ⟨active, kept.2.1 sampleHold (active ▸ mem_singleton_self _) heldFact member (by decide)
    (kept.2.2.1 heldFact member (by decide)) (by decide +kernel)⟩

/-- The receipt of an override that names the state of the hold. -/
def overrideReceipt : LegalHoldReceiptV1 :=
  { receiptOf .Overridden "r" sampleHold "operator" 4 with fact_ids := ["a"] }

/-- The state of the hold is deleted and compacted away under a receipt that names it. After the next opening the fact is
deleted and compacted away without any. -/
def overriddenRun : List HoldOp :=
  [.call (.delete "first" "a" true), .compact_overridden overrideReceipt true, .call .reopen, .call (.delete "first" "b" true),
   .call (.compact true), .call .reopen]

/-- A hold that was never released is gone, and with it a fact that no receipt names. -/
theorem unreleased_hold_lost :
    (FactStore.holdRun sampleHoldEnv {} heldRun).active_legal_holds sampleHoldEnv.parse_legal_hold = [sampleHold] ∧
      heldFact ∈ (FactStore.holdRun sampleHoldEnv {} heldRun).facts ∧ sampleHold.covers_fact heldFact = true ∧
      FactStore.HoldsMeet sampleHoldEnv (fun s op => op.Fresh s) {} (heldRun ++ overriddenRun) ∧
      FactStore.HoldsMeet sampleHoldEnv
        (fun s op => s.releases sampleHoldEnv "h" op = false ∧ s.overrides sampleHoldEnv heldFact op = false)
        (FactStore.holdRun sampleHoldEnv {} heldRun) overriddenRun ∧
      (FactStore.holdRun sampleHoldEnv {} (heldRun ++ overriddenRun)).active_legal_holds sampleHoldEnv.parse_legal_hold = [] ∧
      (FactStore.holdRun sampleHoldEnv {} (heldRun ++ overriddenRun)).get_for_tenant_including_deleted "b" "first" = none := by
  decide +kernel

end Crux.Facts
