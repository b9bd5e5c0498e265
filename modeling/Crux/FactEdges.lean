import Crux.FactFaithful

/-!
# Consolidations keep their sources

Whatever events come, the sources of a canonical fact that is not deleted are
there, not deleted, of its tenant and superseded by it. With the other things
every memory keeps this holds in every state a store can reach.
-/

namespace Crux.Facts
open List FactStore
namespace Memory

/-- The sources of every canonical fact that is not deleted stand as the consolidation left them. -/
def Edges (m : Memory) : Prop :=
  ∀ c ∈ m.facts, c.deleted = false → ∀ ids, m.consolidation_sources c.fact_id = some ids →
    ids ≠ [] ∧ m.edgesAre c.tenant_hash (some c.fact_id) ids = true

theorem edgesAre_iff {m : Memory} {ids : List String} :
    m.edgesAre tenant successor ids = true ↔
      ∀ id ∈ ids, ∃ f, m.lookup id = some f ∧ f.deleted = false ∧ f.tenant_hash = tenant ∧ f.superseded_by = successor := by
  unfold edgesAre
  rw [all_eq_true]
  refine forall₂_congr fun id _ => ?_
  cases m.lookup id with
  | none => simp
  | some f => simp [and_assoc]

theorem Edges.empty : Edges {} := by simp [Edges]

section
variable {policy : PrivacyPolicy} {m : Memory}

section
variable (edges : Edges m)
include edges

theorem Edges.protected {c : Fact} (member : c ∈ m.facts) (standing : c.deleted = false) {ids : List String}
    (sources : m.consolidation_sources c.fact_id = some ids) {id : String} (listed : id ∈ ids) : m.protectedSource id = true := by
  obtain ⟨f, found, _, tenant, _⟩ := edgesAre_iff.mp (edges c member standing ids sources).2 id listed
  unfold protectedSource
  rw [found]
  dsimp only [is_active_consolidation_source_for_tenant, active_consolidation_for_source]
  rw [any_eq_true]
  refine ⟨c, member, ?_⟩
  unfold retires
  rw [sources]
  simp [listed, standing, tenant]

theorem Edges.each {h : Fact → Fact} (gentle : Gentle h)
    (still : ∀ c ∈ m.facts, (h c).deleted = false → ∀ ids, m.consolidation_sources c.fact_id = some ids →
      ∀ f ∈ m.facts, f.fact_id ∈ ids → f.superseded_by = some c.fact_id → f.deleted = false →
        (h f).deleted = false ∧ (h f).superseded_by = f.superseded_by) : Edges (m.each h) := by
  intro c' member standing ids sources
  obtain ⟨c, there, rfl⟩ := mem_map.mp member
  rw [gentle.fact_id] at sources ⊢
  rw [gentle.tenant]
  have before : c.deleted = false := by
    cases dead : c.deleted with
    | false => rfl
    | true => rw [gentle.tombstone c dead] at standing; cases standing
  obtain ⟨some_source, all⟩ := edges c there before ids sources
  refine ⟨some_source, edgesAre_iff.mpr fun id listed => ?_⟩
  obtain ⟨f, found, alive, tenant, successor⟩ := edgesAre_iff.mp all id listed
  obtain ⟨here, same⟩ := lookup_some found
  obtain ⟨alive', successor'⟩ := still c there standing ids sources f here (same ▸ listed) successor alive
  refine ⟨h f, ?_, alive', ?_, successor'.trans successor⟩
  · rw [lookup_each gentle.fact_id, found]
    rfl
  · rw [gentle.tenant, tenant]

theorem Edges.modify (gentle : Gentle h) {id : String} (free : m.protectedSource id = false) :
    Edges (m.modify id h) := by
  rw [modify_eq_each]
  refine edges.each (gentle_one gentle id) fun c there standing ids sources f here listed _ alive => ?_
  have before : c.deleted = false := by
    cases dead : c.deleted with
    | false => rfl
    | true =>
      have gone := (gentle_one gentle id).tombstone c dead
      rw [gone] at standing
      cases standing
  have other : f.fact_id ≠ id := by
    intro same
    have shut := edges.protected there before sources listed
    rw [same, free] at shut
    cases shut
  simp [other, alive]

section
variable (sound : Sound policy m)
include sound

theorem Edges.insert {fact : Fact} (unknown : m.lookup fact.fact_id = none) :
    Edges (m.insert_fact_indexes fact) := by
  intro c member standing ids sources
  have old : c ∈ m.facts := by
    rcases mem_append.mp member with old | new
    · exact old
    · rw [mem_singleton.mp new] at sources
      exact absurd ((sound.sourced _ unknown).symm.trans sources) (by simp)
  obtain ⟨some_source, all⟩ := edges c old standing ids sources
  refine ⟨some_source, edgesAre_iff.mpr fun id listed => ?_⟩
  obtain ⟨f, found, rest⟩ := edgesAre_iff.mp all id listed
  refine ⟨f, ?_, rest⟩
  rw [lookup_insert, found]
  rfl

theorem Edges.replay_journal_insert (fact : Fact) :
    Edges (m.replay_journal_insert policy fact).1 := by
  unfold Memory.replay_journal_insert
  dsimp only
  split_ifs with known
  · exact edges
  · exact edges.insert sound (by simpa using known)

theorem Edges.replayBatch (facts : List Fact) :
    Edges (Memory.replayBatch policy m facts) := by
  induction facts generalizing m with
  | nil => exact edges
  | cons fact rest ih => exact ih (edges.replay_journal_insert sound fact) (sound.replay_journal_insert fact)

/-- A memory with a new canonical fact and its sources retired. -/
abbrev consolidated (m : Memory) (fact : Fact) (ids : List String) : Memory :=
  ((m.insert_fact_indexes fact).retireAll (fun _ => true) ids (some fact.fact_id)).recordSources fact.fact_id ids

theorem Edges.consolidated {fact : Fact} {ids : List String}
    (unknown : m.lookup fact.fact_id = none) (some_source : ids ≠ []) (free : m.edgesAre fact.tenant_hash none ids = true) :
    Edges (m.consolidated fact ids) := by
  have gentle := gentle_retire (fun _ => true) (fun _ _ => rfl) ids (some fact.fact_id)
  have inserted := edges.insert sound unknown
  have not_listed : fact.fact_id ∉ ids := by
    intro listed
    obtain ⟨f, found, _⟩ := edgesAre_iff.mp free _ listed
    rw [unknown] at found
    cases found
  intro c' member standing ids' sources
  obtain ⟨c, there, rfl⟩ := mem_map.mp member
  rw [gentle.fact_id] at sources ⊢
  rw [gentle.tenant]
  change (KeyMap.insert m.consolidation_sources fact.fact_id ids) c.fact_id = some ids' at sources
  have lookups : ∀ id f, m.lookup id = some f →
      (m.consolidated fact ids).lookup id =
        some (if ids.contains f.fact_id && true then setSupersededBy (some fact.fact_id) f else f) := by
    intro id f found
    change (((m.insert_fact_indexes fact).retireAll (fun _ => true) ids (some fact.fact_id))).lookup id = _
    rw [retireAll_eq_each, lookup_each gentle.fact_id, lookup_insert, found]
    rfl
  rw [KeyMap.insert_apply] at sources
  split_ifs at sources with own
  · cases sources
    have c_new : c = fact := by
      rcases mem_append.mp there with old | new
      · exact absurd own (lookup_none.mp unknown c old)
      · exact mem_singleton.mp new
    refine ⟨some_source, edgesAre_iff.mpr fun id listed => ?_⟩
    obtain ⟨f, found, alive, tenant, _⟩ := edgesAre_iff.mp free id listed
    have named : (ids.contains f.fact_id && true) = true := by
      rw [(lookup_some found).2]
      simp [listed]
    refine ⟨_, lookups id f found, ?_⟩
    rw [if_pos named, c_new]
    exact ⟨alive, tenant, rfl⟩
  · have c_old : c ∈ m.facts := by
      rcases mem_append.mp there with old | new
      · exact old
      · exact absurd (congrArg Fact.fact_id (mem_singleton.mp new)) own
    have before : c.deleted = false := by
      cases dead : c.deleted with
      | false => rfl
      | true => rw [gentle.tombstone c dead] at standing; cases standing
    obtain ⟨some_source', all⟩ := edges c c_old before ids' sources
    refine ⟨some_source', edgesAre_iff.mpr fun id listed => ?_⟩
    obtain ⟨f, found, alive, tenant, successor⟩ := edgesAre_iff.mp all id listed
    obtain ⟨here, same⟩ := lookup_some found
    have unlisted : (ids.contains f.fact_id && true) = false := by
      by_contra also
      have also' : f.fact_id ∈ ids := by simpa using also
      have retired := (edgesAre_mem sound.nodup free here also').2.2
      rw [successor] at retired
      cases retired
    refine ⟨_, lookups id f found, ?_⟩
    rw [unlisted]
    exact ⟨alive, tenant, successor⟩

theorem Edges.replayConsolidate (canonical : Fact) (ids : List String) :
    Edges (Memory.replayConsolidate policy m canonical ids) := by
  rcases replayConsolidate_cases policy m canonical ids with skipped | ⟨standing, unknown, valid⟩
  · rw [skipped]
    exact edges
  · rw [replayConsolidate_eq policy canonical ids unknown standing valid]
    obtain ⟨id, tenant, _⟩ := incoming_fields policy canonical
    unfold sourcesValid at valid
    simp at valid
    have consolidated := @Edges.consolidated policy m edges sound (incoming policy canonical) ids (by rw [id]; exact unknown)
      valid.1.1.1 (by rw [tenant]; exact valid.2)
    rw [Memory.consolidated, id] at consolidated
    exact consolidated

theorem Edges.replayUndo (id : String) (restored : List String) :
    Edges (m.replayUndo id restored) := by
  unfold Memory.replayUndo
  cases found : m.lookup id with
  | none => exact edges
  | some canonical =>
    dsimp only
    split_ifs with allowed
    · unfold canUndo at allowed
      simp at allowed
      generalize sortIds ((m.consolidation_sources id).getD []) = expected at allowed ⊢
      have gentle := (gentle_retire (fun _ => true) (fun _ _ => rfl) expected none).comp (gentle_one gentle_setDeleted id)
      have as_each : (m.modify id setDeleted).retireAll (fun _ => true) expected none =
          m.each fun f => (fun g => if expected.contains g.fact_id && true then setSupersededBy none g else g)
            (if decide (f.fact_id = id) then setDeleted f else f) := by
        rw [retireAll_eq_each, modify_eq_each]
        unfold Memory.each
        rw [map_map]
        rfl
      rw [as_each]
      refine edges.each gentle fun c there standing ids sources f here listed successor alive => ?_
      -- a canonical fact that still stands is another one than that undone
      have other : c.fact_id ≠ id := by
        intro same
        have dead : (if decide (c.fact_id = id) then setDeleted c else c).deleted = true := by simp [same, setDeleted]
        have gone := (gentle_retire (fun _ => true) (fun _ _ => rfl) expected none).tombstone _ dead
        rw [gone] at standing
        cases standing
      have unlisted : f.fact_id ∉ expected := by
        intro also
        have edge := (edgesAre_mem sound.nodup allowed.2 here also).2.2
        rw [successor, Option.some.injEq] at edge
        exact other edge
      have kept : f.fact_id ≠ id := by
        intro same
        obtain ⟨there', same'⟩ := lookup_some found
        have f_canonical : f = canonical := inj_on_of_nodup_map sound.nodup here there' (same.trans same'.symm)
        have current := allowed.1.1.2
        rw [← f_canonical, successor] at current
        cases current
      simp [kept, unlisted, alive]
    · exact edges

theorem Edges.replayProvenance (id : String) (ids : List String) (tenant : String) :
    Edges (m.replayProvenance id ids tenant) := by
  unfold Memory.replayProvenance
  split_ifs with valid
  · simp at valid
    intro c member standing ids' sources
    change (KeyMap.insert m.consolidation_sources id ids) c.fact_id = some ids' at sources
    rw [KeyMap.insert_apply] at sources
    split_ifs at sources with own
    · cases sources
      have found := lookup_of_mem sound.nodup member
      have tenants := valid.1
      rw [← own] at tenants
      rw [found] at tenants
      simp at tenants
      refine ⟨valid.2.1, ?_⟩
      rw [tenants.2, own]
      exact valid.2.2
    · exact edges c member standing ids' sources
  · exact edges

/-- No event, whatever it says, touches the sources of a consolidation in force. -/
theorem Edges.apply (e : JournalEvent) : Edges (applyEvent policy m e) := by
  cases e with
  | Store fact => exact edges.replay_journal_insert sound fact
  | StoreBatch facts => exact edges.replayBatch sound facts
  | Delete id =>
    dsimp only [applyEvent, replayDelete]
    split_ifs with blocked
    · exact edges
    · rw [Bool.not_eq_true, Bool.or_eq_false_iff] at blocked
      exact edges.modify gentle_setDeleted blocked.2
  | Supersede id successor =>
    dsimp only [applyEvent, replaySupersede]
    split_ifs with allowed
    · simp at allowed
      exact edges.modify (gentle_setSupersededBy _) allowed.2
    · exact edges
  | ClearSupersede id =>
    dsimp only [applyEvent, replayClear]
    split_ifs with blocked
    · exact edges
    · exact edges.modify (gentle_setSupersededBy _) (by simpa using blocked)
  | SetValidity id valid_from valid_to =>
    dsimp only [applyEvent]
    rw [modify_eq_each]
    refine edges.each (gentle_one (gentle_setValidity valid_from valid_to) id) fun c _ _ ids _ f _ _ _ alive => ?_
    by_cases same : f.fact_id = id
    · simp [same]
      exact ⟨alive, rfl⟩
    · simp [same, alive]
  | Consolidate canonical ids => exact edges.replayConsolidate sound canonical ids
  | ConsolidationProvenance id ids tenant => exact edges.replayProvenance sound id ids tenant
  | ConsolidateUndo id restored => exact edges.replayUndo sound id restored

theorem Edges.lines (journal : List JournalEvent) :
    Edges (journal.foldl (replayEvent policy) m) := by
  induction journal generalizing m with
  | nil => exact edges
  | cons e rest ih =>
    refine ih ?_ (sound.event e)
    unfold replayEvent
    split_ifs
    exacts [edges.apply sound e, edges]

end

/-- Cleaning links removes none between a source and its canonical fact. -/
theorem Edges.sanitize (nodup : m.ids.Nodup) : Edges m.sanitize_replayed_links := by
  intro c' member standing ids sources
  obtain ⟨c, there, rfl⟩ := mem_map.mp member
  obtain ⟨some_source, all⟩ := edges c there standing ids sources
  refine ⟨some_source, edgesAre_iff.mpr fun id listed => ?_⟩
  obtain ⟨f, found, alive, tenant, successor⟩ := edgesAre_iff.mp all id listed
  have same : m.sanitize_replayed_links = m.each m.cleanLinks := rfl
  refine ⟨m.cleanLinks f, ?_, alive, tenant, ?_⟩
  · rw [same, lookup_each (h := m.cleanLinks) (fun _ => rfl), found]
    rfl
  · have fine : m.badSupersededBy f = false := by
      unfold badSupersededBy
      rw [successor]
      dsimp only
      rw [lookup_of_mem nodup there]
      simp [tenant]
    change (if m.badSupersededBy f then none else f.superseded_by) = some c.fact_id
    rw [fine, if_neg Bool.false_ne_true]
    exact successor

end

end

end Memory

open Memory

/-- What holds of every memory a store can have. -/
structure Whole (policy : PrivacyPolicy) (m : Memory) : Prop where
  sound : Sound policy m
  kind : KindLinks m
  edges : Edges m

section
variable {policy : PrivacyPolicy} {s : FactStore}

theorem Whole.writes {op : Op} (writes : Writes policy (op.Line policy) sure s s') :
    Whole policy s.toMemory → Whole policy s'.toMemory := by
  induction writes with
  | nothing s => exact id
  | @line s s' e written kept line memory journal =>
    intro whole
    have tame : Tame policy [] s.toMemory e := line.tame (by simp) (by simp)
    rw [memory]
    exact ⟨whole.sound.apply e, whole.kind.apply whole.sound tame, whole.edges.apply whole.sound e⟩
  | trans _ _ first second => exact fun whole => second (first whole)

theorem store_synced_memory (fact : Fact) (written : Bool) : (store_synced policy s fact written).1.toMemory =
      if (s.lookup fact.fact_id).isSome then s.toMemory
      else (s.toMemory.insert_fact_indexes (incoming policy fact)).sanitize_replayed_links := by
  unfold store_synced
  dsimp only
  rw [(incoming_fields policy fact).1]
  split_ifs with known
  · rfl
  · cases (s.change fun m => (m.insert_fact_indexes (incoming policy fact)).sanitize_replayed_links).lookup
        fact.fact_id with
    | none => rfl
    | some f => cases written <;> rfl

theorem whole_sanitize (sound : Sound policy m) (edges : Edges m) : Whole policy m.sanitize_replayed_links :=
  ⟨sound_sanitize sound, kindLinks_sanitize sound.nodup, edges.sanitize sound.nodup⟩

theorem Whole.store_synced (whole : Whole policy s.toMemory) (fact : Fact) (written : Bool) :
    Whole policy (store_synced policy s fact written).1.toMemory := by
  rw [store_synced_memory]
  split_ifs with known
  · exact whole
  · have unknown : s.lookup (incoming policy fact).fact_id = none := by
      rw [(incoming_fields policy fact).1]
      simpa using known
    exact whole_sanitize (whole.sound.insert unknown (settled_incoming policy fact)) (whole.edges.insert whole.sound unknown)

theorem whole_reopen (policy : PrivacyPolicy) (journal : List JournalEvent) :
    Whole policy (with_persistence policy journal).toMemory :=
  whole_sanitize ((Sound.empty policy).lines journal) (Edges.empty.lines (Sound.empty policy) journal)

end

theorem compact_memory (parse : String → Option LegalHold) (s : FactStore) (replaced : Bool) :
    (s.compact_journal parse replaced).1.toMemory = s.toMemory := by
  unfold compact_journal compact_journal_unchecked
  split_ifs <;> rfl

theorem Whole.step {env : Env} {s : FactStore} (whole : Whole env.policy s.toMemory) {op : Op} (fresh : op.Fresh s) :
    Whole env.policy (s.step env op).toMemory := by
  rcases step_cases whole.sound fresh with ⟨_, writes⟩ | ⟨fact, written, rfl⟩ | ⟨replaced, rfl⟩ | rfl
  · exact whole.writes writes
  · exact whole.store_synced fact written
  · change Whole env.policy (s.compact_journal env.parse_legal_hold replaced).1.toMemory
    rw [compact_memory]
    exact whole
  · exact whole_reopen env.policy s.journal

theorem whole_run (whole : Whole env.policy s.toMemory) (fresh : FactStore.Meets env (fun s op => op.Fresh s) s ops) :
    Whole env.policy (s.run env ops).toMemory := by
  have keeps : ∀ (t : FactStore) (op : Op), Whole env.policy t.toMemory → op.Fresh t → Whole env.policy (t.step env op).toMemory :=
    fun _ _ whole fresh => whole.step fresh
  exact @FactStore.Meets.run env _ (fun t => Whole env.policy t.toMemory) keeps s ops whole fresh

theorem whole_empty (policy : PrivacyPolicy) : Whole policy (({} : FactStore)).toMemory := ⟨.empty policy, .empty, .empty⟩

/-- From any journal, also a damaged one, calls with fresh identifiers keep the facts, their links and their
consolidations in order. -/
theorem whole_from_journal (env : Env) (journal : List JournalEvent) (ops : List Op)
    (fresh : FactStore.Meets env (fun s op => op.Fresh s) (with_persistence env.policy journal) ops) :
    Whole env.policy (FactStore.run env (with_persistence env.policy journal) ops).toMemory :=
  whole_run (whole_reopen env.policy journal) fresh

theorem sampleRun_whole :
    Whole sampleEnv.policy (FactStore.run sampleEnv (with_persistence sampleEnv.policy []) sampleRun).toMemory :=
  whole_from_journal sampleEnv [] sampleRun (by decide +kernel)

end Crux.Facts
