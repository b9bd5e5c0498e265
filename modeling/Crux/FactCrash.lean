import Crux.FactHeads

/-!
# A journal cut between two lines

A versioned store writes two lines, the fact and the link of its predecessor. A
crash between them leaves two current facts in the chain; any other cut at the
end of a line leaves one at most.
-/

namespace Crux.Facts
open Memory List FactStore

/-- No chain has two facts that are neither deleted nor superseded. -/
def Memory.OneCurrent (m : Memory) : Prop :=
  ∀ f ∈ m.facts, ∀ g ∈ m.facts, f.chainKey = g.chainKey → f.current = true → g.current = true → f = g

/-- A journal that ends with the line of a fact whose predecessor is current in the lines before. -/
def HalfStored (policy : PrivacyPolicy) (file : List JournalEvent) : Prop :=
  ∃ before fact prior f, file = before ++ [.Store fact] ∧ fact.supersedes = some prior ∧
    (replayLines policy before).lookup prior = some f ∧ f.current = true

theorem current_iff {f : Fact} : f.current = true ↔ f.deleted = false ∧ f.superseded_by = none := by
  unfold Fact.current
  simp

theorem Memory.OneHead.oneCurrent {m : Memory} (one : OneHead m) : m.OneCurrent := by
  intro f left g right chain f_current g_current
  obtain ⟨f_alive, f_free⟩ := current_iff.mp f_current
  obtain ⟨g_alive, g_free⟩ := current_iff.mp g_current
  by_contra distinct
  rcases either_before one left right distinct with first | second
  · exact first chain f_alive g_alive f_free
  · exact second chain.symm g_alive f_alive g_free

theorem halfStored_store : HalfStored policy (file ++ [.Store fact]) ↔
      ∃ prior f, fact.supersedes = some prior ∧ (replayLines policy file).lookup prior = some f ∧ f.current = true := by
  constructor
  · rintro ⟨before, fact', prior, f, same, rest⟩
    obtain ⟨rfl, last⟩ := append_inj' same rfl
    cases last
    exact ⟨prior, f, rest⟩
  · rintro ⟨prior, f, rest⟩
    exact ⟨file, fact, prior, f, rfl, rest⟩

theorem not_halfStored (other : ∀ fact, e ≠ .Store fact) : ¬ HalfStored policy (file ++ [e]) := by
  rintro ⟨before, fact, _, _, same, _⟩
  obtain ⟨_, last⟩ := append_inj' same rfl
  cases last
  exact other fact rfl

section
variable {policy : PrivacyPolicy} {m : Memory}

/-- A new fact leaves one current fact in every chain unless its predecessor is current. -/
theorem oneCurrent_insert (one : OneHead m) (nodup : m.ids.Nodup) {fact : Fact} (new : NewFact m fact)
    (standing : fact.deleted = false) (link : fact.supersedes = (m.newest fact.chainKey).map Fact.fact_id) :
    (m.insert_fact_indexes fact).OneCurrent ↔
      ¬ ∃ prior f, fact.supersedes = some prior ∧ m.lookup prior = some f ∧ f.current = true := by
  constructor
  · rintro single ⟨prior, f, named, found, f_current⟩
    obtain ⟨member, f_id⟩ := lookup_some found
    have chain : f.chainKey = fact.chainKey := by
      cases newest : m.newest fact.chainKey with
      | none =>
        rw [link, newest] at named
        cases named
      | some p =>
        obtain ⟨p_member, p_chain, _⟩ := newest_mem newest
        rw [link, newest, Option.map_some, Option.some.injEq, ← f_id] at named
        rw [← inj_on_of_nodup_map nodup p_member member named]
        exact p_chain
    have same := single f (mem_append_left _ member) fact (by simp [insert_fact_indexes]) chain f_current
      (current_iff.mpr ⟨standing, new.unretired⟩)
    exact (new.unseen f member).1 (by rw [same])
  · intro settled
    have extended : Extends m (m.insert_fact_indexes fact) fact id := by
      refine extends_insert fun p newest free => ?_
      obtain ⟨p_member, _, p_alive⟩ := newest_mem newest
      refine settled ⟨p.fact_id, p, ?_, lookup_of_mem nodup p_member, current_iff.mpr ⟨p_alive, free⟩⟩
      rw [link, newest]
      rfl
    exact (one.extends extended).oneCurrent

end

/-! ## Runs -/

/-- The calls that only store, delete and consolidate. -/
def Op.plain : Op → Bool
  | .store _ _ _ _ => true
  | .try_store _ _ _ _ => true
  | .delete _ _ _ => true
  | .try_delete _ _ _ => true
  | .consolidate _ _ _ _ => true
  | _ => false

/-- What a store writes brings memory back line by line. -/
theorem replay_writes {allowed : Memory → JournalEvent → Prop} (writes : Writes policy allowed true s s') :
    replayLines policy s.journal = s.toMemory → replayLines policy s'.journal = s'.toMemory := by
  induction writes with
  | nothing s => exact id
  | @line s s' e written kept fits memory journal =>
    intro replay
    obtain ⟨sure, readable⟩ := kept rfl
    rw [journal, journal_append, sure, if_pos rfl, replayLines_append, foldl_cons, foldl_nil, replay, memory]
    exact if_pos readable
  | trans _ _ first second => exact fun replay => second (first replay)

/-- Every cut of a journal leaves one current fact in a chain, or a fact half stored. -/
structure Cuttable (policy : PrivacyPolicy) (s : FactStore) : Prop where
  whole : Whole policy s.toMemory
  replay : replayLines policy s.journal = s.toMemory
  one : OneHead s.toMemory
  cuts : ∀ file, file <+: s.journal →
    KindLinks (replayLines policy file) ∧ ((replayLines policy file).OneCurrent ↔ ¬ HalfStored policy file)

theorem cuts_concat {P : List JournalEvent → Prop} (early : ∀ file, file <+: l → P file) (last : P (l ++ [e])) :
    ∀ file, file <+: l ++ [e] → P file := by
  intro file cut
  rcases prefix_concat_iff.mp cut with rfl | before
  · exact last
  · exact early file before

section
variable {policy : PrivacyPolicy} {s s' : FactStore}

theorem Cuttable.other (cuttable : Cuttable policy s) (whole : Whole policy s'.toMemory)
    (replay : replayLines policy s'.journal = s'.toMemory) (one : OneHead s'.toMemory)
    (journal : s'.journal = s.journal ∨ ∃ e, (∀ fact, e ≠ .Store fact) ∧ s'.journal = s.journal ++ [e]) : Cuttable policy s' := by
  refine ⟨whole, replay, one, ?_⟩
  rcases journal with same | ⟨e, other, more⟩
  · rw [same]
    exact cuttable.cuts
  · rw [more] at replay ⊢
    refine cuts_concat cuttable.cuts ?_
    rw [replay]
    exact ⟨whole.kind, fun _ => not_halfStored other, fun _ => one.oneCurrent⟩

theorem journal_store (req : StoreFact) (stamp : Stamp) : ∃ link, (store policy s req stamp true true).1.journal =
        s.journal ++ [.Store (s.build_fact (enforce_global policy req) stamp)] ++ link ∧
      (link = [] ∨ ∃ id successor, link = [.Supersede id successor]) := by
  unfold store
  dsimp only
  generalize s.build_fact (enforce_global policy req) stamp = fact
  unfold supersede_prior_version
  cases fact.supersedes with
  | none => exact ⟨[], by simp [append_journal, FactStore.change], .inl rfl⟩
  | some prior =>
    dsimp only
    unfold mark_superseded
    split_ifs
    · exact ⟨[], by simp [append_journal, FactStore.change], .inl rfl⟩
    · exact ⟨[.Supersede prior fact.fact_id], by simp [append_journal, FactStore.change], .inr ⟨_, _, rfl⟩⟩
    · exact ⟨[], by simp [append_journal, FactStore.change], .inl rfl⟩

theorem Cuttable.store (cuttable : Cuttable policy s) (unseen : s.Unseen stamp.fact_id)
    (finite : req.confidence.is_finite = true) (whole : Whole policy (store policy s req stamp true true).1.toMemory)
    (replay : replayLines policy (store policy s req stamp true true).1.journal =
      (store policy s req stamp true true).1.toMemory) :
    Cuttable policy (store policy s req stamp true true).1 := by
  obtain ⟨⟨h, extended⟩, _⟩ := store_extends cuttable.whole req unseen true true
  have one := cuttable.one.extends extended
  obtain ⟨link, journal, shape⟩ := @journal_store policy s req stamp
  have new := newFact_build (enforce_global policy req) unseen
  have settled := @settled_build policy s.toMemory req stamp
  have confidence := @confidence_build policy s.toMemory req stamp
  have linked : (s.build_fact (enforce_global policy req) stamp).supersedes =
      (s.newest (s.build_fact (enforce_global policy req) stamp).chainKey).map Fact.fact_id := rfl
  have standing : (s.build_fact (enforce_global policy req) stamp).deleted = false := rfl
  generalize s.build_fact (enforce_global policy req) stamp = fact at journal new settled confidence linked standing
  -- the journal cut after the line of the fact
  have half : replayLines policy (s.journal ++ [.Store fact]) = s.toMemory.insert_fact_indexes fact := by
    rw [replayLines_append, foldl_cons, foldl_nil, cuttable.replay]
    have readable : (JournalEvent.Store fact).readable = true := by
      change fact.confidence.is_finite = true
      rw [confidence]
      exact finite
    unfold replayEvent
    rw [if_pos readable]
    dsimp only [applyEvent]
    rw [replay_journal_insert_new settled new.unknown]
  have at_half : KindLinks (replayLines policy (s.journal ++ [.Store fact])) ∧
      ((replayLines policy (s.journal ++ [.Store fact])).OneCurrent ↔ ¬ HalfStored policy (s.journal ++ [.Store fact])) := by
    rw [half, halfStored_store, cuttable.replay]
    exact ⟨cuttable.whole.kind.insert cuttable.whole.sound.nodup new,
      oneCurrent_insert cuttable.one cuttable.whole.sound.nodup new standing linked⟩
  have stored := cuts_concat cuttable.cuts at_half
  refine ⟨whole, replay, one, ?_⟩
  rcases shape with rfl | ⟨id, successor, rfl⟩
  · rw [journal, append_nil]
    exact stored
  · rw [journal] at replay ⊢
    refine cuts_concat stored ?_
    rw [replay]
    exact ⟨whole.kind, fun _ => not_halfStored (by simp), fun _ => one.oneCurrent⟩

end

theorem Cuttable.step {env : Env} {s : FactStore} (cuttable : Cuttable env.policy s) {op : Op} (plain : op.plain = true)
    (fresh : op.Fresh s) (written : op.written = true) (finite : op.finite = true) : Cuttable env.policy (s.step env op) := by
  have whole : Whole env.policy (s.step env op).toMemory := cuttable.whole.step fresh
  have drawn : ∀ id ∈ op.drawn, s.Unseen id := fresh.2
  have in_place : (op.compacts = false ∧ op.reopens = false) ∧ op.syncs = false := by
    cases op <;> first | exact ⟨⟨rfl, rfl⟩, rfl⟩ | cases plain
  have writes : Writes env.policy (op.Line env.policy) true s (s.step env op) :=
    writes_step cuttable.whole.sound in_place.1 in_place.2 fresh fun _ => ⟨written, finite⟩
  have replay := replay_writes writes cuttable.replay
  cases op with
  | store req stamp first second =>
    simp [Op.written] at written
    rw [written.1, written.2] at whole replay ⊢
    exact cuttable.store (drawn _ (by simp [Op.drawn])) finite whole replay
  | try_store req stamp first second =>
    simp [Op.written] at written
    rw [written.1, written.2] at whole replay ⊢
    exact cuttable.store (drawn _ (by simp [Op.drawn])) finite whole replay
  | delete tenant id first =>
    refine cuttable.other whole replay ?_ ?_
    · rcases delete_memory (s := s) tenant id first with same | deleted
      · exact same ▸ cuttable.one
      · exact deleted ▸ cuttable.one.delete id
    · change (s.delete tenant id first).1.journal = _ ∨ ∃ e, _ ∧ (s.delete tenant id first).1.journal = _
      rw [show first = true from written]
      unfold delete
      split_ifs
      exacts [.inl rfl, .inr ⟨.Delete id, by simp, rfl⟩, .inl rfl]
  | try_delete tenant id first =>
    refine cuttable.other whole replay ?_ ?_
    · rcases try_delete_memory (s := s) tenant id first with same | deleted
      · exact same ▸ cuttable.one
      · exact deleted ▸ cuttable.one.delete id
    · change (s.try_delete tenant id first).1.journal = _ ∨ ∃ e, _ ∧ (s.try_delete tenant id first).1.journal = _
      unfold try_delete
      split_ifs
      exacts [.inl rfl, .inr ⟨.Delete id, by simp, rfl⟩, .inl rfl, .inl rfl]
  | consolidate tenant req stamp first =>
    have unseen := drawn stamp.fact_id (by simp [Op.drawn])
    rw [show first = true from written] at whole replay ⊢
    refine cuttable.other whole replay ?_ ?_
    · change OneHead (consolidate_facts_v1 env.policy s tenant req stamp true).1.toMemory
      cases planned : s.planConsolidation tenant req stamp with
      | error e =>
        unfold consolidate_facts_v1
        rw [planned]
        exact cuttable.one
      | ok canonical =>
        obtain ⟨h, extended⟩ := consolidate_extends cuttable.whole.sound planned unseen
        exact cuttable.one.extends extended
    · change (consolidate_facts_v1 env.policy s tenant req stamp true).1.journal = _ ∨
        ∃ e, _ ∧ (consolidate_facts_v1 env.policy s tenant req stamp true).1.journal = _
      unfold consolidate_facts_v1
      cases s.planConsolidation tenant req stamp with
      | error e => exact .inl rfl
      | ok canonical => exact .inr ⟨.Consolidate canonical req.target_fact_ids, by simp, rfl⟩
  | _ => cases plain

/-- A journal cut at the end of a line opens to a store with one current fact in every chain at most, unless the cut fell
between the line of a fact and the link of its current predecessor. -/
theorem crash_one_current_iff (env : Env) (ops : List Op) (plain : ∀ op ∈ ops, op.plain = true)
    (fresh : FactStore.Meets env (fun s op => op.Fresh s) {} ops)
    (safe : ∀ op ∈ ops, op.written = true ∧ op.finite = true) (file : List JournalEvent)
    (cut : file <+: (FactStore.run env {} ops).journal) :
    (FactStore.with_persistence env.policy file).OneCurrent ↔ ¬ HalfStored env.policy file := by
  have cuttable : Cuttable env.policy (run env {} ops) := by
    have meets := (FactStore.Meets.of_all plain {}).and (fresh.and (FactStore.Meets.of_all safe {}))
    refine meets.run (fun s op cuttable h => ?_) ⟨whole_empty env.policy, rfl, .nil, fun file cut => ?_⟩
    · obtain ⟨plain, fresh, written, finite⟩ := h
      exact cuttable.step plain fresh written finite
    · rw [prefix_nil.mp cut]
      refine ⟨.empty, fun _ => ?_, fun _ f member => absurd member not_mem_nil⟩
      rintro ⟨before, fact, _, _, same, _⟩
      exact absurd same (by simp)
  obtain ⟨kind, iff⟩ := cuttable.cuts file cut
  change (replayLines env.policy file).sanitize_replayed_links.OneCurrent ↔ _
  rw [sanitize_of_kind kind]
  exact iff

/-- Two versions of a fact. -/
def twoVersions : List Op := [.store sampleRequest ⟨"a", 1⟩ true true, .store sampleRequest ⟨"b", 2⟩ true true]

/-- Cut after its second line, the journal opens to two current facts in the chain. -/
theorem crash_leaves_two_current :
    (∀ op ∈ twoVersions, op.plain = true ∧ op.written = true ∧ op.finite = true) ∧
      FactStore.Meets sampleEnv (fun s op => op.Fresh s) {} twoVersions ∧
      (FactStore.with_persistence sampleEnv.policy ((FactStore.run sampleEnv {} twoVersions).journal.take 2)).facts.map
          (fun f => (f.fact_id, f.chainKey, f.current)) =
        [("a", ("first", "e", "k"), true), ("b", ("first", "e", "k"), true)] := by
  decide +kernel

theorem twoVersions_crash_one_current_iff :
    (FactStore.with_persistence sampleEnv.policy (FactStore.run sampleEnv {} twoVersions).journal).OneCurrent ↔
      ¬ HalfStored sampleEnv.policy (FactStore.run sampleEnv {} twoVersions).journal :=
  crash_one_current_iff sampleEnv twoVersions (by decide +kernel) (by decide +kernel) (by decide +kernel) _ (prefix_refl _)

end Crux.Facts
