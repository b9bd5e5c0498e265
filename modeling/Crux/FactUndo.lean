import Crux.FactTenants

/-!
# A consolidation stands until it is undone

No call but the undo itself deletes a canonical fact or takes its sources from
it, in memory or in what the journal brings back. Undoing it leaves the facts as
they would be had there been no consolidation.
-/

namespace Crux.Facts
open List FactStore
namespace Memory

/-- A canonical fact that is not deleted, with its sources on record. -/
structure Stands (m : Memory) (c : String) (ids : List String) : Prop where
  canonical : ∃ f, m.lookup c = some f ∧ f.deleted = false
  provenance : m.consolidation_sources c = some ids

section
variable {policy : PrivacyPolicy} {m : Memory} {c : String} {ids : List String}

section
variable (stands : Stands m c ids)
include stands

theorem Stands.each (same_id : ∀ f, (h f).fact_id = f.fact_id)
    (still : ∀ f, f.fact_id = c → f.deleted = false → (h f).deleted = false) : Stands (m.each h) c ids := by
  obtain ⟨f, found, alive⟩ := stands.canonical
  refine ⟨⟨h f, ?_, still f (lookup_some found).2 alive⟩, stands.provenance⟩
  rw [lookup_each same_id, found]
  rfl

theorem Stands.modify (gentle : Gentle h) {id : String}
    (still : id ≠ c ∨ ∀ f, (h f).deleted = f.deleted) : Stands (m.modify id h) c ids := by
  rw [modify_eq_each]
  refine stands.each (gentle_one gentle id).fact_id fun f named alive => ?_
  rcases still with other | same
  · have elsewhere : f.fact_id ≠ id := fun there => other (there.symm.trans named)
    simp [elsewhere, alive]
  · by_cases there : f.fact_id = id
    · simp [there, same, alive]
    · simp [there, alive]

theorem Stands.retireAll (sources : List String) (successor : Option String) :
    Stands (m.retireAll (fun _ => true) sources successor) c ids := by
  rw [retireAll_eq_each]
  refine stands.each (gentle_retire (fun _ => true) (fun _ _ => rfl) sources successor).fact_id fun f _ alive => ?_
  split_ifs
  exacts [alive, alive]

theorem Stands.insert (fact : Fact) : Stands (m.insert_fact_indexes fact) c ids := by
  obtain ⟨f, found, alive⟩ := stands.canonical
  refine ⟨⟨f, ?_, alive⟩, stands.provenance⟩
  rw [lookup_insert, found]
  rfl

theorem Stands.replay_journal_insert (fact : Fact) :
    Stands (m.replay_journal_insert policy fact).1 c ids := by
  unfold Memory.replay_journal_insert
  dsimp only
  split_ifs
  exacts [stands, stands.insert _]

theorem Stands.replayBatch (facts : List Fact) : Stands (Memory.replayBatch policy m facts) c ids := by
  induction facts generalizing m with
  | nil => exact stands
  | cons fact rest ih => exact ih (stands.replay_journal_insert fact)

theorem Stands.replayConsolidate (canonical : Fact) (sources : List String) :
    Stands (Memory.replayConsolidate policy m canonical sources) c ids := by
  rcases replayConsolidate_cases policy m canonical sources with skipped | ⟨standing, unknown, valid⟩
  · rw [skipped]
    exact stands
  · rw [replayConsolidate_eq policy canonical sources unknown standing valid]
    have kept := (stands.insert (incoming policy canonical)).retireAll sources (some canonical.fact_id)
    have other : c ≠ canonical.fact_id := by
      rintro rfl
      obtain ⟨f, found, _⟩ := stands.canonical
      rw [unknown] at found
      cases found
    exact ⟨kept.canonical, (KeyMap.insert_other _ sources other).trans kept.provenance⟩

theorem Stands.replayUndo {id : String} (other : id ≠ c) (restored : List String) :
    Stands (m.replayUndo id restored) c ids := by
  unfold Memory.replayUndo
  cases m.lookup id with
  | none => exact stands
  | some canonical =>
    dsimp only
    split_ifs
    · exact (stands.modify gentle_setDeleted (.inl other)).retireAll _ none
    · exact stands

/-- Only its undo, and a provenance line of its own, touch a consolidation. -/
theorem Stands.apply (not_undo : ∀ restored, e ≠ .ConsolidateUndo c restored)
    (not_line : ∀ id sources tenant, e ≠ .ConsolidationProvenance id sources tenant) :
    Stands (applyEvent policy m e) c ids := by
  cases e with
  | Store fact => exact stands.replay_journal_insert fact
  | StoreBatch facts => exact stands.replayBatch facts
  | Delete id =>
    dsimp only [applyEvent, replayDelete]
    split_ifs with blocked
    · exact stands
    · refine stands.modify gentle_setDeleted (.inl ?_)
      rintro rfl
      rw [stands.provenance] at blocked
      exact blocked rfl
  | Supersede id successor =>
    dsimp only [applyEvent, replaySupersede]
    split_ifs
    exacts [stands.modify (gentle_setSupersededBy _) (.inr fun _ => rfl), stands]
  | ClearSupersede id =>
    dsimp only [applyEvent, replayClear]
    split_ifs
    exacts [stands, stands.modify (gentle_setSupersededBy _) (.inr fun _ => rfl)]
  | SetValidity id valid_from valid_to => exact stands.modify (gentle_setValidity valid_from valid_to) (.inr fun _ => rfl)
  | Consolidate canonical sources => exact stands.replayConsolidate canonical sources
  | ConsolidateUndo id restored =>
    refine stands.replayUndo ?_ restored
    rintro rfl
    exact not_undo restored rfl
  | ConsolidationProvenance id sources tenant => exact absurd rfl (not_line id sources tenant)

theorem Stands.sanitize : Stands m.sanitize_replayed_links c ids :=
  stands.each (h := m.cleanLinks) (fun _ => rfl) fun _ _ alive => alive

theorem Stands.compacted (nodup : m.ids.Nodup) : Stands m.compacted c ids := by
  obtain ⟨f, found, alive⟩ := stands.canonical
  refine ⟨⟨f, ?_, alive⟩, ?_⟩
  · rw [lookup_live nodup rfl, found]
    simp [alive]
  · change m.sourcesInForce c = some ids
    unfold sourcesInForce
    rw [found, ← stands.provenance]
    simp [alive]

theorem Stands.sources (edges : Edges m) :
    ∀ id ∈ ids, ∃ f, m.lookup id = some f ∧ f.deleted = false ∧ f.superseded_by = some c := by
  obtain ⟨f, found, alive⟩ := stands.canonical
  obtain ⟨member, rfl⟩ := lookup_some found
  intro id listed
  obtain ⟨g, there, standing, _, successor⟩ := edgesAre_iff.mp (edges f member alive ids stands.provenance).2 id listed
  exact ⟨g, there, standing, successor⟩

end

end
end Memory

open Memory

/-- A consolidation stands in memory and in what the journal brings back. -/
structure Standing (policy : PrivacyPolicy) (c : String) (ids : List String) (s : FactStore) : Prop where
  live : Stands s.toMemory c ids
  replayed : Stands (replayLines policy s.journal) c ids

/-- An undo of a consolidation. -/
def Op.undoes (c : String) : Op → Bool
  | .undo _ canonical_fact_id _ _ => decide (canonical_fact_id = c)
  | _ => false

section
variable {policy : PrivacyPolicy} {c : String} {ids : List String} {s s' : FactStore}

theorem Standing.line (standing : Standing policy c ids s)
    (not_undo : ∀ restored, e ≠ .ConsolidateUndo c restored)
    (not_line : ∀ id sources tenant, e ≠ .ConsolidationProvenance id sources tenant) (live : Stands s'.toMemory c ids)
    (journal : s'.journal = (s.append_journal e written).journal) : Standing policy c ids s' := by
  refine ⟨live, ?_⟩
  rw [journal]
  rcases replay_append_journal policy s e written with same | applied
  · rw [same]
    exact standing.replayed
  · rw [applied]
    exact standing.replayed.apply not_undo not_line

theorem Standing.writes {op : Op} (writes : Writes policy (op.Line policy) sure s s') (other : op.undoes c = false) :
    Standing policy c ids s → Standing policy c ids s' := by
  induction writes with
  | nothing s => exact id
  | @line s s' e written kept line memory journal =>
    intro standing
    have not_undo : ∀ restored, e ≠ .ConsolidateUndo c restored := by
      rintro restored rfl
      obtain ⟨_, tenant, ids, first, rfl⟩ := line
      simp [Op.undoes] at other
    have not_line : ∀ id sources tenant, e ≠ .ConsolidationProvenance id sources tenant := by
      rintro id sources tenant rfl
      exact line
    refine standing.line not_undo not_line ?_ journal
    rw [memory]
    exact standing.live.apply not_undo not_line
  | trans _ _ first second => exact fun standing => second (first standing)

theorem Standing.store_synced (standing : Standing policy c ids s) (fact : Fact) (written : Bool) :
    Standing policy c ids (store_synced policy s fact written).1 := by
  by_cases known : (s.lookup fact.fact_id).isSome = true
  · rw [store_synced_known known]
    exact standing
  · have unknown : s.lookup fact.fact_id = none := by simpa using known
    refine standing.line (by simp) (by simp) ?_ (store_synced_journal unknown written)
    rw [store_synced_memory, if_neg known]
    exact (standing.live.insert _).sanitize

theorem Standing.compact (standing : Standing policy c ids s) (whole : Whole policy s.toMemory)
    (finite : ∀ f ∈ s.facts, f.deleted = false → f.confidence.is_finite = true) (parse : String → Option LegalHold)
    (replaced : Bool) : Standing policy c ids (s.compact_journal parse replaced).1 := by
  unfold compact_journal compact_journal_unchecked
  split_ifs
  · refine ⟨standing.live, ?_⟩
    rw [replay_compactedLines whole.sound whole.edges finite]
    exact standing.live.compacted whole.sound.nodup
  · exact standing
  · exact standing

end

/-- Every fact that is not deleted can be read back. -/
def Memory.allFinite (m : Memory) : Bool := m.facts.all fun f => f.deleted || f.confidence.is_finite

/-- A compaction writes no fact that cannot be read back. -/
def Op.readsBack (s : FactStore) (op : Op) : Bool := !op.compacts || s.allFinite

theorem Standing.step {env : Env} {c : String} {ids : List String} {s : FactStore} (standing : Standing env.policy c ids s)
    (whole : Whole env.policy s.toMemory) {op : Op} (fresh : op.Fresh s) (other : op.undoes c = false)
    (finite : op.readsBack s = true) : Standing env.policy c ids (s.step env op) := by
  rcases step_cases whole.sound fresh with ⟨_, writes⟩ | ⟨fact, written, rfl⟩ | ⟨replaced, rfl⟩ | rfl
  · exact Standing.writes writes other standing
  · exact standing.store_synced fact written
  · refine standing.compact whole (fun f member alive => ?_) env.parse_legal_hold replaced
    have all : s.allFinite = true := by simpa [Op.readsBack, Op.compacts] using finite
    have here := all_eq_true.mp all f member
    simpa [alive] using here
  · exact ⟨standing.replayed.sanitize, standing.replayed⟩

section
variable {policy : PrivacyPolicy} {s : FactStore} {tenant : String} {req : ConsolidationRequestV1} {stamp : Stamp}

theorem consolidate_success (success : (consolidate_facts_v1 policy s tenant req stamp written).2 = .ok c) :
    ∃ canonical, s.planConsolidation tenant req stamp = .ok canonical ∧ written = true ∧ canonical.fact_id = c ∧
      c = stamp.fact_id := by
  unfold consolidate_facts_v1 at success
  cases planned : s.planConsolidation tenant req stamp with
  | error e =>
    rw [planned] at success
    cases success
  | ok canonical =>
    rw [planned] at success
    cases written with
    | false => cases success
    | true =>
      cases success
      refine ⟨canonical, rfl, rfl, rfl, ?_⟩
      rw [(planConsolidation_ok planned).1]
      rfl

theorem stands_consolidated {m : Memory} (unknown : m.lookup fact.fact_id = none) (alive : fact.deleted = false)
    (ids : List String) :
    Stands (m.consolidated fact ids) fact.fact_id ids := by
  refine ⟨⟨if ids.contains fact.fact_id && true then setSupersededBy (some fact.fact_id) fact else fact, ?_, ?_⟩,
    KeyMap.insert_same _ _ _⟩
  · change (((m.insert_fact_indexes fact).retireAll (fun _ => true) ids (some fact.fact_id))).lookup fact.fact_id = _
    rw [retireAll_eq_each, lookup_each (gentle_retire (fun _ => true) (fun _ _ => rfl) ids (some fact.fact_id)).fact_id,
      lookup_insert_same unknown]
    rfl
  · split_ifs
    exacts [alive, alive]

theorem standing_consolidate (whole : Whole policy s.toMemory) (trails : Trails policy s) (unseen : s.Unseen stamp.fact_id)
    (finite : req.confidence.is_finite = true)
    (sources : (replayLines policy s.journal).edgesAre tenant none req.target_fact_ids = true)
    (success : (consolidate_facts_v1 policy s tenant req stamp written).2 = .ok c) :
    Standing policy c req.target_fact_ids (consolidate_facts_v1 policy s tenant req stamp written).1 := by
  obtain ⟨canonical, planned, rfl, rfl, named⟩ := consolidate_success success
  obtain ⟨built, _, _, _, _⟩ := planConsolidation_ok planned
  obtain ⟨new, stamped, _⟩ := planned_new whole.sound planned unseen
  obtain ⟨id, of_tenant, _⟩ := incoming_fields policy canonical
  have alive : canonical.deleted = false := by rw [built]; rfl
  have alive' : (incoming policy canonical).deleted = false := by
    unfold incoming enforce_global_fact
    split_ifs <;> exact alive
  have unknown : s.lookup (incoming policy canonical).fact_id = none := new.unknown
  have unknown' : (replayLines policy s.journal).lookup canonical.fact_id = none := by
    refine lookup_none.mpr fun f member same => ?_
    obtain ⟨g, there, stem⟩ := mem_map.mp (trails (stemOf f) (mem_map_of_mem member))
    have g_id : g.fact_id = f.fact_id := congrArg Stem.fact_id stem
    exact (unseen g there).1 (g_id.trans (same.trans named))
  have valid : (replayLines policy s.journal).sourcesValid
      { canonical with tenant_hash := stampTenant canonical.tenant_hash } req.target_fact_ids = true := by
    have in_memory := planned_valid whole.sound planned unseen
    have of_canonical : stampTenant canonical.tenant_hash = tenant := by
      rw [built]
      exact (stampTenant_stampTenant tenant).trans stamped
    unfold sourcesValid at in_memory ⊢
    rw [Bool.and_eq_true] at in_memory ⊢
    exact ⟨in_memory.1, by rw [of_canonical]; exact sources⟩
  refine ⟨?_, ?_⟩
  · rw [consolidate_memory whole.sound planned unseen, ← id]
    exact stands_consolidated unknown alive' req.target_fact_ids
  · have journal : (consolidate_facts_v1 policy s tenant req stamp true).1.journal =
        s.journal ++ [.Consolidate canonical req.target_fact_ids] := by
      unfold consolidate_facts_v1
      rw [planned]
      rfl
    have readable : (JournalEvent.Consolidate canonical req.target_fact_ids).readable = true := by
      rw [built]
      exact finite
    rw [journal, replayLines_append, foldl_cons, foldl_nil]
    unfold replayEvent
    rw [if_pos readable]
    dsimp only [applyEvent]
    rw [replayConsolidate_eq policy canonical req.target_fact_ids unknown' alive valid, ← id]
    exact stands_consolidated (by rw [id]; exact unknown') alive' req.target_fact_ids

end

namespace Memory

/-- The memory without a canonical fact, its sources not retired. -/
def dropPair (c : String) (ids : List String) (m : Memory) : Memory := (m.retireAll (fun _ => true) ids none).without [c]

/-- A source that is no longer retired. -/
def release (ids : List String) (f : Fact) : Fact := if ids.contains f.fact_id && true then setSupersededBy none f else f

section
variable {m : Memory} {c : String} {ids : List String}

theorem gentle_release (ids : List String) : Gentle (release ids) := gentle_retire (fun _ => true) (fun _ _ => rfl) ids none

theorem release_other (other : f.fact_id ∉ ids) : release ids f = f := by
  unfold release
  simp [other]

theorem facts_dropPair (c : String) (ids : List String) (m : Memory) :
    (dropPair c ids m).facts = (m.facts.filter fun f => f.fact_id ≠ c).map (release ids) := by
  change (m.facts.map (release ids)).filter _ = _
  rw [filter_map]
  refine congrArg _ (filter_congr fun f _ => ?_)
  simp [(gentle_release ids).fact_id]

theorem mem_dropPair : f ∈ (dropPair c ids m).facts ↔ ∃ g ∈ m.facts, g.fact_id ≠ c ∧ release ids g = f := by
  rw [facts_dropPair, mem_map]
  simp [and_assoc]

variable {id : String}

theorem lookup_dropPair (other : id ≠ c) : (dropPair c ids m).lookup id = (m.lookup id).map (release ids) := by
  unfold dropPair
  rw [lookup_without (by simpa using other), retireAll_eq_each]
  exact lookup_each (gentle_release ids).fact_id m id

theorem lookup_dropPair_free (other : id ≠ c) (free : id ∉ ids) : (dropPair c ids m).lookup id = m.lookup id := by
  rw [lookup_dropPair other]
  cases found : m.lookup id with
  | none => rfl
  | some f =>
    rw [Option.map_some, release_other]
    rw [(lookup_some found).2]
    exact free

theorem sources_dropPair (other : id ≠ c) :
    (dropPair c ids m).consolidation_sources id = m.consolidation_sources id := by
  change (if id ∈ [c] then none else m.consolidation_sources id) = m.consolidation_sources id
  rw [if_neg (by simpa using other)]

theorem dropPair_insert (other : fact.fact_id ≠ c) (free : fact.fact_id ∉ ids) :
    dropPair c ids (m.insert_fact_indexes fact) = (dropPair c ids m).insert_fact_indexes fact := by
  have facts : (dropPair c ids (m.insert_fact_indexes fact)).facts =
      ((dropPair c ids m).insert_fact_indexes fact).facts := by
    rw [facts_dropPair]
    unfold insert_fact_indexes
    rw [facts_dropPair, filter_append, map_append]
    simp [other, release_other free]
  exact congrArg (fun l => Memory.mk l (dropPair c ids m).consolidation_sources) facts

theorem dropPair_each (gentle : Gentle h) (commutes : ∀ f ∈ m.facts, release ids (h f) = h (release ids f)) :
    dropPair c ids (m.each h) = (dropPair c ids m).each h := by
  have facts : (dropPair c ids (m.each h)).facts = ((dropPair c ids m).each h).facts := by
    rw [facts_dropPair]
    unfold Memory.each
    rw [facts_dropPair, map_map, filter_map, map_map]
    have same : m.facts.filter ((fun f => decide (f.fact_id ≠ c)) ∘ h) = m.facts.filter fun f => f.fact_id ≠ c :=
      filter_congr fun f _ => by rw [Function.comp_apply, gentle.fact_id]
    rw [same]
    exact map_congr_left fun f member => commutes f (mem_filter.mp member).1
  exact congrArg (fun l => Memory.mk l (dropPair c ids m).consolidation_sources) facts

theorem dropPair_modify (gentle : Gentle h) (free : id ∉ ids) :
    dropPair c ids (m.modify id h) = (dropPair c ids m).modify id h := by
  rw [modify_eq_each, modify_eq_each]
  refine dropPair_each (gentle_one gentle id) fun f _ => ?_
  by_cases here : f.fact_id = id
  · have out : f.fact_id ∉ ids := here ▸ free
    have out' : (h f).fact_id ∉ ids := by rw [gentle.fact_id]; exact out
    simp [here, release_other out, release_other out']
  · have same : (release ids f).fact_id ≠ id := by rw [(gentle_release ids).fact_id]; exact here
    simp [here, same]

theorem dropPair_retireAll (blind : ∀ f x, keep { f with supersedes := x } = keep f) (apart : ∀ id ∈ sources, id ∉ ids)
    (successor : Option String) :
    dropPair c ids (m.retireAll keep sources successor) = (dropPair c ids m).retireAll keep sources successor := by
  rw [retireAll_eq_each, retireAll_eq_each]
  have gentle := gentle_retire keep blind sources successor
  refine dropPair_each gentle fun f _ => ?_
  by_cases source : f.fact_id ∈ ids
  · have unlisted : sources.contains f.fact_id = false := by
      by_contra listed
      exact apart f.fact_id (by simpa using listed) source
    have same : (release ids f).fact_id = f.fact_id := (gentle_release ids).fact_id f
    simp only [same, unlisted, Bool.false_and, Bool.false_eq_true, if_false]
  · have out : (if sources.contains f.fact_id && keep f then setSupersededBy successor f else f).fact_id ∉ ids := by
      rw [gentle.fact_id]
      exact source
    rw [release_other source, release_other out]

theorem dropPair_recordSources (other : id ≠ c) (sources : List String) :
    dropPair c ids (m.recordSources id sources) = (dropPair c ids m).recordSources id sources := by
  have provenance : (dropPair c ids (m.recordSources id sources)).consolidation_sources =
      ((dropPair c ids m).recordSources id sources).consolidation_sources := by
    funext x
    change (if x ∈ [c] then none else (m.consolidation_sources.insert id sources) x) =
      ((dropPair c ids m).consolidation_sources.insert id sources) x
    rw [KeyMap.insert_apply, KeyMap.insert_apply]
    change _ = if x = id then some sources else (if x ∈ [c] then none else m.consolidation_sources x)
    by_cases here : x = id
    · rw [if_pos here, if_pos here, if_neg]
      rw [here]
      simpa using other
    · rw [if_neg here, if_neg here]
  exact congrArg (fun p => Memory.mk (dropPair c ids m).facts p) provenance

theorem active_dropPair (sources : m.consolidation_sources c = some ids) (free : id ∉ ids) (tenant : String) :
    (dropPair c ids m).is_active_consolidation_source_for_tenant id tenant =
      m.is_active_consolidation_source_for_tenant id tenant := by
  unfold is_active_consolidation_source_for_tenant active_consolidation_for_source
  rw [Bool.eq_iff_iff, any_eq_true, any_eq_true]
  have alike : ∀ f : Fact, f.fact_id ≠ c → (dropPair c ids m).retires id tenant (release ids f) = m.retires id tenant f := by
    intro f other
    have deleted : (release ids f).deleted = f.deleted := by
      unfold release
      split_ifs <;> rfl
    unfold retires
    rw [(gentle_release ids).fact_id, sources_dropPair other, deleted, (gentle_release ids).tenant]
  constructor
  · rintro ⟨f, member, retires⟩
    obtain ⟨g, there, other, rfl⟩ := mem_dropPair.mp member
    exact ⟨g, there, (alike g other).symm.trans retires⟩
  · rintro ⟨f, member, retires⟩
    have other : f.fact_id ≠ c := by
      intro same
      unfold Memory.retires at retires
      rw [same, sources] at retires
      simp [free] at retires
    exact ⟨release ids f, mem_dropPair.mpr ⟨f, member, other, rfl⟩, (alike f other).trans retires⟩

theorem canonical_dropPair (other : id ≠ c) (free : id ∉ ids) (tenant : String) :
    (dropPair c ids m).is_consolidation_canonical_for_tenant id tenant = m.is_consolidation_canonical_for_tenant id tenant := by
  unfold is_consolidation_canonical_for_tenant
  rw [sources_dropPair other, lookup_dropPair_free other free]

theorem chain_dropPair {key chain : ChainKey} (chained : ∀ f ∈ m.facts, f.fact_id = c ∨ f.fact_id ∈ ids → f.chainKey = chain)
    (other : key ≠ chain) : (dropPair c ids m).chain key = m.chain key := by
  unfold Memory.chain
  rw [facts_dropPair]
  have away : ∀ f ∈ m.facts, f.chainKey = key → f.fact_id ≠ c ∧ f.fact_id ∉ ids := by
    intro f member own
    refine ⟨fun same => ?_, fun listed => ?_⟩
    · exact other (own.symm.trans (chained f member (.inl same)))
    · exact other (own.symm.trans (chained f member (.inr listed)))
  rw [filter_map, filter_filter]
  have same : m.facts.filter (fun f => ((fun g => decide (g.chainKey = key)) ∘ release ids) f && decide (f.fact_id ≠ c)) =
      m.facts.filter fun f => f.chainKey = key := by
    refine filter_congr fun f member => ?_
    simpa [(gentle_release ids).chainKey] using fun own => (away f member own).1
  rw [same]
  refine (map_congr_left fun f member => ?_).trans (map_id _)
  obtain ⟨member, own⟩ := mem_filter.mp member
  exact release_other (away f member (of_decide_eq_true own)).2

theorem build_dropPair {chain : ChainKey} (chained : ∀ f ∈ m.facts, f.fact_id = c ∨ f.fact_id ∈ ids → f.chainKey = chain)
    (other : req.chainKey ≠ chain) (stamp : Stamp) :
    (dropPair c ids m).build_fact req stamp = m.build_fact req stamp := by
  have same : (dropPair c ids m).chain (stampTenant req.tenant_hash, req.entity, req.key) =
      m.chain (stampTenant req.tenant_hash, req.entity, req.key) := chain_dropPair chained other
  unfold build_fact newest
  dsimp only
  rw [same]

/-- A link that does not lead to the canonical fact leads to the same tenant and chain without it. -/
theorem cleanLinks_release (found : n.lookup c = some g) (back : f.supersedes = some c → g.chainKey = f.chainKey)
    (ahead : f.superseded_by = some c → g.tenant_hash = f.tenant_hash) :
    (dropPair c ids n).cleanLinks (release ids f) = release ids (n.cleanLinks f) := by
  have unknown : (dropPair c ids n).lookup c = none := by
    refine lookup_none.mpr fun h member => ?_
    obtain ⟨k, _, other, rfl⟩ := mem_dropPair.mp member
    rw [(gentle_release ids).fact_id]
    exact other
  have bad_back : (dropPair c ids n).badSupersedes (release ids f) = n.badSupersedes f := by
    unfold badSupersedes
    rw [(gentle_release ids).supersedes, (gentle_release ids).tenant, (gentle_release ids).entity, (gentle_release ids).key]
    cases link : f.supersedes with
    | none => rfl
    | some x =>
      dsimp only
      by_cases here : x = c
      · subst here
        rw [unknown, found]
        have same := back link
        simp [Fact.chainKey] at same
        simp [same]
      · rw [lookup_dropPair here]
        cases n.lookup x with
        | none => rfl
        | some k => simp [(gentle_release ids).tenant, (gentle_release ids).entity, (gentle_release ids).key]
  by_cases source : f.fact_id ∈ ids
  · have listed : (ids.contains f.fact_id && true) = true := by simp [source]
    have released : release ids f = setSupersededBy none f := if_pos listed
    have released' : release ids (n.cleanLinks f) = setSupersededBy none (n.cleanLinks f) := if_pos listed
    have unlinked : (dropPair c ids n).badSupersededBy (setSupersededBy none f) = false := rfl
    rw [released']
    unfold cleanLinks
    rw [bad_back, released, unlinked]
    rfl
  · have bad_ahead : (dropPair c ids n).badSupersededBy f = n.badSupersededBy f := by
      unfold badSupersededBy
      cases link : f.superseded_by with
      | none => rfl
      | some x =>
        dsimp only
        by_cases here : x = c
        · subst here
          rw [unknown, found]
          simp [ahead link]
        · rw [lookup_dropPair here]
          cases n.lookup x with
          | none => rfl
          | some k => simp [(gentle_release ids).tenant]
    have out : (n.cleanLinks f).fact_id ∉ ids := source
    rw [release_other out]
    rw [release_other source] at bad_back ⊢
    unfold cleanLinks
    rw [bad_back, bad_ahead]

theorem dropPair_sanitize (kind : KindLinks m) (stands : Stands m c ids) (other : fact.fact_id ≠ c) (free : fact.fact_id ∉ ids)
    (back : fact.supersedes ≠ some c) (ahead : fact.superseded_by ≠ some c) :
    ((dropPair c ids m).insert_fact_indexes fact).sanitize_replayed_links =
      dropPair c ids (m.insert_fact_indexes fact).sanitize_replayed_links := by
  rw [← dropPair_insert other free]
  have only : ∀ f ∈ (m.insert_fact_indexes fact).facts, f.fact_id ≠ c → (f.supersedes = some c ∨ f.superseded_by = some c) →
      f ∈ m.facts := by
    intro f member _ named
    rcases mem_append.mp member with old | new
    · exact old
    · rw [mem_singleton.mp new] at named
      exact (named.elim back ahead).elim
  obtain ⟨g, found, _⟩ := stands.canonical
  obtain ⟨there, g_id⟩ := lookup_some found
  have found' : (m.insert_fact_indexes fact).lookup c = some g := by
    rw [lookup_insert, found]
    rfl
  generalize m.insert_fact_indexes fact = n at only found'
  have facts : (dropPair c ids n).sanitize_replayed_links.facts = (dropPair c ids n.sanitize_replayed_links).facts := by
    rw [facts_dropPair]
    change (dropPair c ids n).facts.map (dropPair c ids n).cleanLinks = ((n.facts.map n.cleanLinks).filter _).map (release ids)
    rw [facts_dropPair, map_map, filter_map, map_map]
    refine map_congr_left fun f member => ?_
    obtain ⟨member, away⟩ := mem_filter.mp member
    have away : f.fact_id ≠ c := of_decide_eq_true away
    exact cleanLinks_release found'
      (fun named => kind.back f (only f member away (.inl named)) g there (named.trans (congrArg some g_id.symm)))
      (fun named => kind.ahead f (only f member away (.inr named)) g there (named.trans (congrArg some g_id.symm)))
  exact congrArg (fun l => Memory.mk l (dropPair c ids n).consolidation_sources) facts

end
end Memory

/-! ## Calls on the two memories -/

/-- A consolidation that stands, with the canonical fact and its sources in one chain. -/
structure Paired (c : String) (ids : List String) (chain : ChainKey) (m : Memory) : Prop where
  stands : Stands m c ids
  chained : ∀ f ∈ m.facts, f.fact_id = c ∨ f.fact_id ∈ ids → f.chainKey = chain

/-- An identifier that is neither the canonical fact's nor a source's. -/
def Outside (c : String) (ids : List String) (id : String) : Prop := id ≠ c ∧ id ∉ ids

theorem memory_append (s : FactStore) (e : JournalEvent) (written : Bool) : (s.append_journal e written).toMemory = s.toMemory := by
  cases written <;> rfl

section
variable {policy : PrivacyPolicy} {c : String} {ids : List String} {chain : ChainKey} {s s' : FactStore} {id : String}

variable {m : Memory} {tenant : String}

theorem Paired.unseen (paired : Paired c ids chain m) (edges : Edges m) (unseen : m.Unseen id) : Outside c ids id := by
  constructor
  · rintro rfl
    obtain ⟨f, found, _⟩ := paired.stands.canonical
    obtain ⟨member, named⟩ := lookup_some found
    exact (unseen f member).1 named
  · intro listed
    obtain ⟨f, found, _⟩ := paired.stands.sources edges id listed
    obtain ⟨member, named⟩ := lookup_some found
    exact (unseen f member).1 named

theorem prior_outside (paired : Paired c ids chain m) (other : req.chainKey ≠ chain) (stamp : Stamp) :
    ∀ p, (m.build_fact req stamp).supersedes = some p → Outside c ids p := by
  intro p prior
  obtain ⟨q, newest, rfl⟩ := Option.map_eq_some_iff.mp (show (m.newest req.chainKey).map Fact.fact_id = some p from prior)
  obtain ⟨member, own, _⟩ := newest_mem newest
  constructor
  · intro canonical
    exact other (own.symm.trans (paired.chained q member (.inl canonical)))
  · intro source
    exact other (own.symm.trans (paired.chained q member (.inr source)))

theorem checkTargets_without (tenant : String) (req : ConsolidationRequestV1) (seen : List String)
    (apart : ∀ id ∈ targets, Outside c ids id) :
    (dropPair c ids m).checkTargets tenant req seen targets = m.checkTargets tenant req seen targets := by
  induction targets generalizing seen with
  | nil => rfl
  | cons id rest ih =>
    obtain ⟨other, free⟩ := apart id mem_cons_self
    unfold checkTargets checkTarget
    rw [lookup_dropPair_free other free, ih (seen ++ [id]) fun x later => apart x (mem_cons_of_mem _ later)]

theorem plan_without (paired : Paired c ids chain m) {req : ConsolidationRequestV1}
    (other : (canonicalRequest tenant req).chainKey ≠ chain) (apart : ∀ id ∈ req.target_fact_ids, Outside c ids id) (stamp : Stamp) :
    (dropPair c ids m).planConsolidation tenant req stamp = m.planConsolidation tenant req stamp := by
  unfold planConsolidation
  rw [checkTargets_without tenant req [] apart, build_dropPair paired.chained other stamp]

section
variable {sources : List String}

theorem edgesAre_without (apart : ∀ id ∈ sources, Outside c ids id) (tenant : String)
    (successor : Option String) : (dropPair c ids m).edgesAre tenant successor sources = m.edgesAre tenant successor sources := by
  unfold edgesAre
  rw [Bool.eq_iff_iff, all_eq_true, all_eq_true]
  refine forall₂_congr fun id listed => ?_
  rw [lookup_dropPair_free (apart id listed).1 (apart id listed).2]

theorem planUndo_without (other : Outside c ids id)
    (apart : ∀ x ∈ sources, Outside c ids x) : (dropPair c ids m).planUndo tenant id sources = m.planUndo tenant id sources := by
  unfold planUndo
  rw [lookup_dropPair_free other.1 other.2, sources_dropPair other.1]
  cases (m.lookup id).filter fun f => f.tenant_hash = tenant with
  | none => rfl
  | some canonical =>
    cases m.consolidation_sources id with
    | none => rfl
    | some recorded =>
      dsimp only
      by_cases named : dedupIds (sortIds sources) = sortIds recorded
      · have apart' : ∀ x ∈ sortIds recorded, Outside c ids x := by
          intro x member
          rw [← named] at member
          exact apart x ((mem_insertionSort _).mp (mem_dedupIds.mp member))
        rw [edgesAre_without apart', edgesAre_without apart']
      · have mismatch : (sortIds recorded).isEmpty = true ∨ dedupIds (sortIds sources) ≠ sortIds recorded := .inr named
        simp only [if_pos mismatch]

theorem planUndo_listed (planned : m.planUndo tenant id sources = .ok (some restored)) : ∀ x ∈ restored, x ∈ sources := by
  unfold planUndo at planned
  intro x member
  cases found : (m.lookup id).filter fun f => f.tenant_hash = tenant with
  | none => simp [found] at planned
  | some canonical =>
    cases recorded : m.consolidation_sources id with
    | none =>
      simp only [found, recorded] at planned
      split_ifs at planned
    | some recorded_sources =>
      simp only [found, recorded] at planned
      split_ifs at planned with _ _ mismatch
      · cases planned
      · cases planned
        rw [not_or, ne_eq, not_not] at mismatch
        rw [← mismatch.2] at member
        exact (mem_insertionSort _).mp (mem_dedupIds.mp member)

end

section
variable (same : s'.toMemory = dropPair c ids s.toMemory)
include same

theorem modify_without (gentle : Gentle h) (free : id ∉ ids) : (s'.append_journal e written).toMemory.modify id h =
    dropPair c ids ((s.append_journal e written).toMemory.modify id h) := by
  rw [memory_append, memory_append, same, dropPair_modify gentle free]

theorem mark_without (sources : s.consolidation_sources c = some ids) (other : Outside c ids target)
    (other' : Outside c ids successor) (tenant : String) (written : Bool) :
    (s'.mark_superseded tenant target successor written).1.toMemory =
      dropPair c ids (s.mark_superseded tenant target successor written).1.toMemory := by
  unfold mark_superseded bothOf
  rw [same, active_dropPair sources other.2, lookup_dropPair_free other.1 other.2, lookup_dropPair_free other'.1 other'.2]
  split_ifs
  · exact same
  · exact modify_without same (gentle_setSupersededBy _) other.2
  · exact same

theorem set_validity_without (other : Outside c ids id) (valid_from valid_to : Option Timestamp) (written : Bool) :
    (s'.set_validity id valid_from valid_to written).1.toMemory =
      dropPair c ids (s.set_validity id valid_from valid_to written).1.toMemory := by
  unfold set_validity
  rw [same, lookup_dropPair_free other.1 other.2]
  split_ifs
  · exact modify_without same (gentle_setValidity valid_from valid_to) other.2
  · exact same

section
variable (sources : s.consolidation_sources c = some ids) (other : Outside c ids id) (tenant : String) (written : Bool)
include sources other

theorem clear_without :
    (s'.clear_superseded tenant id written).1.toMemory = dropPair c ids (s.clear_superseded tenant id written).1.toMemory := by
  unfold clear_superseded
  rw [same, active_dropPair sources other.2, lookup_dropPair_free other.1 other.2]
  split_ifs
  · exact same
  · exact modify_without same (gentle_setSupersededBy _) other.2
  · exact same

theorem delete_without : (s'.delete tenant id written).1.toMemory = dropPair c ids (s.delete tenant id written).1.toMemory := by
  unfold delete
  rw [same, canonical_dropPair other.1 other.2, active_dropPair sources other.2, lookup_dropPair_free other.1 other.2]
  split_ifs
  · exact same
  · rw [memory_append, memory_append]
    change s'.toMemory.modify id _ = dropPair c ids (s.toMemory.modify id _)
    rw [same, dropPair_modify gentle_setDeleted other.2]
  · exact same

theorem try_delete_without :
    (s'.try_delete tenant id written).1.toMemory = dropPair c ids (s.try_delete tenant id written).1.toMemory := by
  unfold try_delete
  rw [same, canonical_dropPair other.1 other.2, active_dropPair sources other.2, lookup_dropPair_free other.1 other.2]
  split_ifs
  · exact same
  · exact modify_without same gentle_setDeleted other.2
  · exact same
  · exact same

end

theorem supersede_prior_without (sources : s.consolidation_sources c = some ids) (prior : ∀ p, fact.supersedes = some p → Outside c ids p)
    (own : Outside c ids fact.fact_id) (written : Bool) :
    (s'.supersede_prior_version fact written).toMemory = dropPair c ids (s.supersede_prior_version fact written).toMemory := by
  unfold supersede_prior_version
  cases link : fact.supersedes with
  | none => exact same
  | some p => exact mark_without same sources (prior p link) own _ written

theorem store_without (paired : Paired c ids chain s.toMemory)
    {req : StoreFact} (other : req.chainKey ≠ chain) (own : Outside c ids stamp.fact_id) (written superseded : Bool) :
    (store policy s' req stamp written superseded).1.toMemory =
      dropPair c ids (store policy s req stamp written superseded).1.toMemory := by
  have other' : (enforce_global policy req).chainKey ≠ chain := by
    rw [chainKey_enforced]
    exact other
  have prior := prior_outside paired other' stamp
  unfold store
  rw [same, build_dropPair paired.chained other' stamp]
  generalize built : s.toMemory.build_fact (enforce_global policy req) stamp = fact at prior
  have fact_id : fact.fact_id = stamp.fact_id := by rw [← built]; rfl
  have own' : Outside c ids fact.fact_id := fact_id ▸ own
  refine supersede_prior_without ?_ ?_ prior own' superseded
  · rw [memory_append, memory_append]
    change s'.toMemory.insert_fact_indexes fact = dropPair c ids (s.toMemory.insert_fact_indexes fact)
    rw [same, dropPair_insert own'.1 own'.2]
  · rw [memory_append]
    exact paired.stands.provenance

omit same in
theorem insertBatch_without {facts : List (Fact × Bool)} (same : s'.toMemory = dropPair c ids s.toMemory)
    (sources : s.consolidation_sources c = some ids)
    (apart : ∀ f ∈ facts, Outside c ids f.1.fact_id ∧ ∀ p, f.1.supersedes = some p → Outside c ids p) :
    (insertBatch s' facts).toMemory = dropPair c ids (insertBatch s facts).toMemory := by
  induction facts generalizing s s' with
  | nil => exact same
  | cons first rest ih =>
    obtain ⟨fact, superseded⟩ := first
    obtain ⟨own, prior⟩ := apart (fact, superseded) mem_cons_self
    have inserted : (s'.change fun m => m.insert_fact_indexes fact).toMemory =
        dropPair c ids (s.change fun m => m.insert_fact_indexes fact).toMemory := by
      change s'.toMemory.insert_fact_indexes fact = dropPair c ids (s.toMemory.insert_fact_indexes fact)
      rw [same, dropPair_insert own.1 own.2]
    refine ih (supersede_prior_without inserted sources prior own superseded) ?_
      fun f later => apart f (mem_cons_of_mem _ later)
    rw [sources_supersede_prior]
    exact sources

theorem bulk_without (paired : Paired c ids chain s.toMemory)
    (other : ∀ r ∈ reqs, r.1.chainKey ≠ chain) (own : ∀ r ∈ reqs, Outside c ids r.2.1.fact_id) (written : Bool) :
    (try_store_bulk policy s' reqs written).1.toMemory =
      dropPair c ids (try_store_bulk policy s reqs written).1.toMemory := by
  have other' : ∀ r ∈ reqs, (enforce_global policy r.1).chainKey ≠ chain := by
    intro r member
    rw [chainKey_enforced]
    exact other r member
  unfold try_store_bulk
  have facts : (reqs.map fun r => (s'.build_fact (enforce_global policy r.1) r.2.1, r.2.2)) =
      reqs.map fun r => (s.build_fact (enforce_global policy r.1) r.2.1, r.2.2) := by
    refine map_congr_left fun r member => ?_
    rw [same, build_dropPair paired.chained (other' r member)]
  rw [facts]
  cases written with
  | false => exact same
  | true =>
    refine insertBatch_without same paired.stands.provenance fun f member => ?_
    obtain ⟨r, there, rfl⟩ := mem_map.mp member
    exact ⟨own r there, prior_outside paired (other' r there) r.2.1⟩

theorem consolidate_without (paired : Paired c ids chain s.toMemory)
    (other : (canonicalRequest tenant req).chainKey ≠ chain) (apart : ∀ id ∈ req.target_fact_ids, Outside c ids id)
    (own : Outside c ids stamp.fact_id) (written : Bool) :
    (consolidate_facts_v1 policy s' tenant req stamp written).1.toMemory =
      dropPair c ids (consolidate_facts_v1 policy s tenant req stamp written).1.toMemory := by
  unfold consolidate_facts_v1
  rw [same, plan_without paired other apart]
  cases planned : s.planConsolidation tenant req stamp with
  | error e => exact same
  | ok canonical =>
    cases written with
    | false => exact same
    | true =>
      have id : (incoming policy canonical).fact_id = stamp.fact_id := by
        rw [(incoming_fields policy canonical).1, (planConsolidation_ok planned).1]
        rfl
      have id' : canonical.fact_id = stamp.fact_id := (incoming_fields policy canonical).1.symm.trans id
      have inserted : ((dropPair c ids s.toMemory).replay_journal_insert policy canonical).1 =
          dropPair c ids (s.toMemory.replay_journal_insert policy canonical).1 := by
        unfold Memory.replay_journal_insert
        dsimp only
        rw [id, lookup_dropPair_free own.1 own.2]
        split_ifs
        · rfl
        · exact (dropPair_insert (by rw [id]; exact own.1) (by rw [id]; exact own.2)).symm
      change ((s'.toMemory.replay_journal_insert policy canonical).1.retireAll _ req.target_fact_ids _).recordSources _ _ =
        dropPair c ids (((s.toMemory.replay_journal_insert policy canonical).1.retireAll _ req.target_fact_ids _).recordSources _ _)
      rw [same, inserted, dropPair_recordSources (by rw [id']; exact own.1),
        dropPair_retireAll (fun _ _ => rfl) fun x listed => (apart x listed).2]

theorem undo_without (other : Outside c ids id) (apart : ∀ x ∈ sources, Outside c ids x) (tenant : String) (written : Bool) :
    (s'.consolidate_undo_v1 tenant id sources written).1.toMemory =
      dropPair c ids (s.consolidate_undo_v1 tenant id sources written).1.toMemory := by
  unfold consolidate_undo_v1
  rw [same, planUndo_without other apart]
  cases planned : s.planUndo tenant id sources with
  | error e => exact same
  | ok plan =>
    cases plan with
    | none => exact same
    | some restored =>
      cases written with
      | false => exact same
      | true =>
        have apart' : ∀ x ∈ restored, x ∉ ids := by
          intro x member
          have checked := planUndo_listed planned x member
          exact (apart x checked).2
        change (s'.toMemory.modify id setDeleted).retireAll _ restored none =
          dropPair c ids ((s.toMemory.modify id setDeleted).retireAll _ restored none)
        rw [same, dropPair_retireAll (fun _ _ => rfl) apart', dropPair_modify gentle_setDeleted other.2]

theorem sync_without (kind : KindLinks s.toMemory)
    (stands : Stands s.toMemory c ids) (other : Outside c ids fact.fact_id) (back : fact.supersedes ≠ some c)
    (ahead : fact.superseded_by ≠ some c) (written : Bool) : (store_synced policy s' fact written).1.toMemory =
      dropPair c ids (store_synced policy s fact written).1.toMemory := by
  rw [store_synced_memory, store_synced_memory, same, lookup_dropPair_free other.1 other.2]
  split_ifs
  · rfl
  · have id := (incoming_fields policy fact).1
    refine dropPair_sanitize kind stands (by rw [id]; exact other.1) (by rw [id]; exact other.2) ?_ ?_
    · unfold incoming enforce_global_fact
      split_ifs <;> exact back
    · unfold incoming enforce_global_fact
      split_ifs <;> exact ahead

end

end

/-- The identifiers a call names. -/
def Op.named : Op → List String
  | .delete _ fact_id _ => [fact_id]
  | .try_delete _ fact_id _ => [fact_id]
  | .mark_superseded _ target_fact_id by_fact_id _ => [target_fact_id, by_fact_id]
  | .clear_superseded _ fact_id _ => [fact_id]
  | .set_validity fact_id _ _ _ => [fact_id]
  | .consolidate _ req _ _ => req.target_fact_ids
  | .undo _ canonical_fact_id source_fact_ids _ => canonical_fact_id :: source_fact_ids
  | .store_synced fact _ => fact.fact_id :: (fact.supersedes.toList ++ fact.superseded_by.toList)
  | _ => []

/-- The chains in which a call looks for the newest version. -/
def Op.chains : Op → List ChainKey
  | .store req _ _ _ => [req.chainKey]
  | .try_store req _ _ _ => [req.chainKey]
  | .try_store_bulk reqs _ => reqs.map fun r => r.1.chainKey
  | .consolidate tenant_hash req _ _ => [(Memory.canonicalRequest tenant_hash req).chainKey]
  | _ => []

def Op.sweeps : Op → Bool
  | .sweep _ _ => true
  | _ => false

/-- A call on the open store that has nothing to do with a consolidation. -/
def Op.Apart (c : String) (ids : List String) (chain : ChainKey) (op : Op) : Prop :=
  (∀ id ∈ op.named, Outside c ids id) ∧ chain ∉ op.chains ∧ op.sweeps = false ∧ op.reopens = false

section
variable {env : Env} {c : String} {ids : List String} {chain : ChainKey} {s s' : FactStore}

/-- One call gives the same with and without the consolidation. -/
theorem step_without (same : s'.toMemory = dropPair c ids s.toMemory) (whole : Whole env.policy s.toMemory)
    (paired : Paired c ids chain s.toMemory) (fresh : op.Fresh s) (apart : op.Apart c ids chain) :
    (s'.step env op).toMemory = dropPair c ids (s.step env op).toMemory := by
  obtain ⟨named, other, no_sweep, no_reopen⟩ := apart
  have own : ∀ id ∈ op.drawn, Outside c ids id := fun id drawn => paired.unseen whole.edges (fresh.2 id drawn)
  have sources := paired.stands.provenance
  cases op with
  | store req stamp first second =>
    refine store_without same paired (fun here => other ?_) (own _ mem_cons_self) first second
    exact mem_singleton.mpr here.symm
  | try_store req stamp first second =>
    cases first with
    | false => exact same
    | true =>
      refine store_without same paired (fun here => other ?_) (own _ mem_cons_self) true second
      exact mem_singleton.mpr here.symm
  | try_store_bulk reqs first =>
    refine bulk_without same paired (fun r member here => other ?_) (fun r member => own _ (mem_map_of_mem member)) first
    exact mem_map.mpr ⟨r, member, here⟩
  | delete tenant id first => exact delete_without same sources (named id mem_cons_self) tenant first
  | try_delete tenant id first => exact try_delete_without same sources (named id mem_cons_self) tenant first
  | mark_superseded tenant target successor first =>
    exact mark_without same sources (named target mem_cons_self) (named successor (by simp [Op.named])) tenant first
  | clear_superseded tenant id first => exact clear_without same sources (named id mem_cons_self) tenant first
  | set_validity id valid_from valid_to first =>
    exact set_validity_without same (named id mem_cons_self) valid_from valid_to first
  | consolidate tenant req stamp first =>
    refine consolidate_without same paired (fun here => other ?_) named (own _ mem_cons_self) first
    exact mem_singleton.mpr here.symm
  | undo tenant id sources first =>
    exact undo_without same (named id mem_cons_self) (fun x listed => named x (mem_cons_of_mem _ listed)) tenant first
  | store_synced fact first =>
    refine sync_without same whole.kind paired.stands (named _ mem_cons_self) (fun link => ?_) (fun link => ?_) first
    · exact (named c (by simp [Op.named, link])).1 rfl
    · exact (named c (by simp [Op.named, link])).1 rfl
  | sweep cutoff flags => cases no_sweep
  | compact replaced =>
    change (s'.compact_journal env.parse_legal_hold replaced).1.toMemory =
      dropPair c ids (s.compact_journal env.parse_legal_hold replaced).1.toMemory
    rw [compact_memory, compact_memory]
    exact same
  | reopen => cases no_reopen

theorem creates_unknown {op : Op} (fresh : op.Fresh s) :
    ∀ f ∈ op.creates policy s, s.lookup f.fact_id = none := by
  have drawn : ∀ id ∈ op.drawn, s.lookup id = none := fun id listed =>
    lookup_none.mpr fun f member => (fresh.2 id listed f member).1
  intro f made
  cases creates_of_mem made with
  | store => exact drawn _ mem_cons_self
  | try_store => exact drawn _ mem_cons_self
  | try_store_bulk member => exact drawn _ (mem_map_of_mem member)
  | @consolidate _ _ _ canonical planned =>
    rw [(incoming_fields policy canonical).1, (planConsolidation_ok planned).1]
    exact drawn _ mem_cons_self
  | @store_synced fact _ unknown =>
    rw [(incoming_fields policy fact).1]
    exact unknown

theorem chained_step (whole : Whole env.policy s.toMemory) (paired : Paired c ids chain s.toMemory) (fresh : op.Fresh s)
    (no_reopen : op.reopens = false) : ∀ f ∈ (s.step env op).facts, f.fact_id = c ∨ f.fact_id ∈ ids → f.chainKey = chain := by
  by_cases compacts : op.compacts = true
  · cases op with
    | compact replaced =>
      change ∀ f ∈ (s.compact_journal env.parse_legal_hold replaced).1.facts, _
      rw [compact_memory]
      exact paired.chained
    | _ => cases compacts
  · have grows := (grows_step env s ⟨by simpa using compacts, no_reopen⟩ fresh).stems
    intro f member pair
    have stem : stemOf f ∈ (s.step env op).stems := mem_map_of_mem member
    rw [grows] at stem
    rcases mem_append.mp stem with old | new
    · obtain ⟨g, there, same⟩ := mem_map.mp old
      have g_id : g.fact_id = f.fact_id := congrArg Stem.fact_id same
      have g_chain : g.chainKey = f.chainKey := congrArg Stem.chainKey same
      rw [← g_id] at pair
      exact g_chain.symm.trans (paired.chained g there pair)
    · obtain ⟨g, made, same⟩ := mem_map.mp new
      have g_id : g.fact_id = f.fact_id := congrArg Stem.fact_id same
      have unknown := creates_unknown fresh g made
      rw [g_id] at unknown
      rcases pair with canonical | source
      · obtain ⟨k, found, _⟩ := paired.stands.canonical
        rw [canonical, found] at unknown
        cases unknown
      · obtain ⟨k, found, _⟩ := paired.stands.sources whole.edges f.fact_id source
        rw [found] at unknown
        cases unknown

end

/-! ## Undoing -/

namespace Memory

/-- What a consolidation promises until it is undone. -/
structure Consolidated (c : String) (ids : List String) (m : Memory) : Prop where
  canonical : ∃ f, m.lookup c = some f ∧ f.deleted = false
  sources : ∀ id ∈ ids, ∃ f, m.lookup id = some f ∧ f.deleted = false ∧ f.superseded_by = some c
  provenance : m.consolidation_sources c = some ids

/-- The canonical fact deleted and its sources current. -/
structure Undone (c : String) (ids : List String) (m : Memory) : Prop where
  canonical : ∃ f, m.lookup c = some f ∧ f.deleted = true
  sources : ∀ id ∈ ids, ∃ f, m.lookup id = some f ∧ f.deleted = false ∧ f.superseded_by = none

/-- The facts and provenance of another memory, but for the canonical fact. -/
structure AsWithout (c : String) (m n : Memory) : Prop where
  facts : (m.facts.filter fun f => f.fact_id ≠ c) = n.facts
  provenance : ∀ id, id ≠ c → m.consolidation_sources id = n.consolidation_sources id

theorem dropPair_consolidated (sound : Sound policy m) {ids : List String} (unknown : m.lookup fact.fact_id = none)
    (current : m.edgesAre tenant none ids = true) : dropPair fact.fact_id ids (m.consolidated fact ids) = m := by
  have facts : (dropPair fact.fact_id ids (m.consolidated fact ids)).facts = m.facts := by
    rw [facts_dropPair]
    change (((m.facts ++ [fact]).map _).filter _).map (release ids) = m.facts
    have gentle := gentle_retire (fun _ => true) (fun _ _ => rfl) ids (some fact.fact_id)
    have old : (m.facts ++ [fact]).filter ((fun f => decide (f.fact_id ≠ fact.fact_id)) ∘ fun f =>
        if ids.contains f.fact_id && true then setSupersededBy (some fact.fact_id) f else f) = m.facts := by
      simp only [Function.comp_def, gentle.fact_id]
      rw [filter_append, filter_eq_self.mpr fun f member => by simpa using lookup_none.mp unknown f member]
      simp
    rw [filter_map, map_map, old]
    refine (map_congr_left fun f member => ?_).trans (map_id _)
    by_cases listed : f.fact_id ∈ ids
    · have was := (edgesAre_mem sound.nodup current member listed).2.2
      simp [release, listed, setSupersededBy, ← was]
    · simp [release, listed]
  have provenance : (dropPair fact.fact_id ids (m.consolidated fact ids)).consolidation_sources = m.consolidation_sources := by
    funext x
    by_cases here : x = fact.fact_id
    · subst here
      rw [sound.sourced _ unknown]
      exact if_pos (mem_singleton.mpr rfl)
    · rw [sources_dropPair here]
      exact KeyMap.insert_other _ ids here
  exact congrArg₂ Memory.mk facts provenance

end Memory

section
variable {c : String} {ids : List String} {s : FactStore} {written : Bool} {sources : List String} {status : UndoStatus}

variable {tenant : String}

theorem undo_success (stands : Stands s.toMemory c ids)
    (success : (s.consolidate_undo_v1 tenant c sources written).2 = .ok status) :
    (s.consolidate_undo_v1 tenant c sources written).1.toMemory =
        (s.toMemory.modify c setDeleted).retireAll (fun _ => true) (sortIds ids) none ∧
      ∃ f, s.lookup c = some f ∧ f.superseded_by = none := by
  obtain ⟨f, found, alive⟩ := stands.canonical
  unfold consolidate_undo_v1 at success ⊢
  cases planned : s.planUndo tenant c sources with
  | error e =>
    rw [planned] at success
    cases success
  | ok plan =>
    cases plan with
    | none =>
      -- nothing to do only when the canonical fact is deleted
      exfalso
      unfold planUndo at planned
      rw [found, stands.provenance] at planned
      by_cases own : f.tenant_hash = tenant
      · simp only [Option.filter, own, decide_true, if_true, alive] at planned
        split_ifs at planned with _ _ _ dead
        · exact dead
        · cases planned
      · simp [Option.filter, own] at planned
    | some restored =>
      obtain ⟨canonical, recorded, there, _, _, current, provenance, rfl, _⟩ := planUndo_some planned
      rw [stands.provenance, Option.some.injEq] at provenance
      subst provenance
      rw [planned] at success
      cases written with
      | false => cases success
      | true => exact ⟨rfl, canonical, there, current⟩

theorem undone_of_stands (stands : Stands s.toMemory c ids) (edges : Edges s.toMemory)
    (success : (s.consolidate_undo_v1 tenant c sources written).2 = .ok status) :
    Undone c ids (s.consolidate_undo_v1 tenant c sources written).1.toMemory := by
  obtain ⟨memory, canonical, there, current⟩ := undo_success stands success
  have gentle := gentle_release (sortIds ids)
  have lookups : ∀ id, (s.consolidate_undo_v1 tenant c sources written).1.lookup id =
      (s.lookup id).map fun f => release (sortIds ids) (if f.fact_id = c then setDeleted f else f) := by
    intro id
    rw [memory, retireAll_eq_each, modify_eq_each]
    change (Memory.each (Memory.each s.toMemory _) (release (sortIds ids))).lookup id = _
    rw [lookup_each gentle.fact_id, lookup_each (gentle_one gentle_setDeleted c).fact_id, Option.map_map]
    simp [Function.comp_def]
  refine ⟨⟨release (sortIds ids) (setDeleted canonical), ?_, gentle.tombstone _ rfl⟩, fun id listed => ?_⟩
  · rw [lookups, there, Option.map_some, if_pos (lookup_some there).2]
  · obtain ⟨f, found, alive, successor⟩ := stands.sources edges id listed
    obtain ⟨_, named⟩ := lookup_some found
    have other : f.fact_id ≠ c := by
      intro same
      rw [← same, named, found] at there
      cases there
      rw [successor] at current
      cases current
    have source : ((sortIds ids).contains f.fact_id && true) = true := by
      rw [named]
      simp [sortIds, listed]
    refine ⟨setSupersededBy none f, ?_, alive, rfl⟩
    rw [lookups, found, Option.map_some, if_neg other]
    exact congrArg some (if_pos source)

theorem asWithout_of_stands (stands : Stands s.toMemory c ids)
    (success : (s.consolidate_undo_v1 tenant c sources written).2 = .ok status) :
    AsWithout c (s.consolidate_undo_v1 tenant c sources written).1.toMemory (dropPair c ids s.toMemory) := by
  obtain ⟨memory, _⟩ := undo_success stands success
  rw [memory]
  refine ⟨?_, fun id other => (@sources_dropPair s.toMemory c ids id other).symm⟩
  rw [facts_dropPair, retireAll_eq_each, modify_eq_each]
  change (((s.facts.map _).map (release (sortIds ids))).filter _) = _
  rw [map_map, filter_map]
  have keys : ∀ f : Fact, (release (sortIds ids) (if decide (f.fact_id = c) then setDeleted f else f)).fact_id = f.fact_id :=
    fun f => by rw [(gentle_release _).fact_id, (gentle_one gentle_setDeleted c).fact_id]
  have same : (s.facts.filter ((fun f => decide (f.fact_id ≠ c)) ∘ (release (sortIds ids) ∘ fun f =>
      if decide (f.fact_id = c) then setDeleted f else f))) =
        s.facts.filter fun f => f.fact_id ≠ c :=
    filter_congr fun f _ => by rw [Function.comp_apply, Function.comp_apply, keys]
  rw [same]
  refine map_congr_left fun f member => ?_
  have other : f.fact_id ≠ c := of_decide_eq_true (mem_filter.mp member).2
  have listed : (sortIds ids).contains f.fact_id = ids.contains f.fact_id := by
    rw [Bool.eq_iff_iff]
    simp [sortIds]
  simp [other]
  unfold release
  rw [listed]

end

/-- A run apart from a consolidation gives the same with and without it. -/
theorem run_without {ids : List String} {chain : ChainKey} {s s' : FactStore} (same : s'.toMemory = dropPair c ids s.toMemory)
    (whole : Whole env.policy s.toMemory) (standing : Standing env.policy c ids s)
    (chained : ∀ f ∈ s.facts, f.fact_id = c ∨ f.fact_id ∈ ids → f.chainKey = chain)
    (fresh : FactStore.Meets env (fun s op => op.Fresh s) s ops) (other : ∀ op ∈ ops, op.undoes c = false)
    (finite : FactStore.Meets env (fun s op => op.readsBack s = true) s ops) (apart : ∀ op ∈ ops, op.Apart c ids chain) :
    (s'.run env ops).toMemory = dropPair c ids (s.run env ops).toMemory := by
  induction ops generalizing s s' with
  | nil => exact same
  | cons op rest ih =>
    have paired : Paired c ids chain s.toMemory := ⟨standing.live, chained⟩
    have first := apart op mem_cons_self
    exact ih (step_without same whole paired fresh.1 first) (whole.step fresh.1)
      (standing.step whole fresh.1 (other op mem_cons_self) finite.1)
      (chained_step whole paired fresh.1 first.2.2.2) fresh.2 (fun o later => other o (mem_cons_of_mem _ later)) finite.2
      (fun o later => apart o (mem_cons_of_mem _ later))

section
variable {policy : PrivacyPolicy} {s : FactStore} {tenant : String} {req : ConsolidationRequestV1} {stamp : Stamp}

theorem chained_consolidate (sound : Sound policy s.toMemory) (planned : s.planConsolidation tenant req stamp = .ok canonical)
    (unseen : s.Unseen stamp.fact_id) :
    ∀ f ∈ (consolidate_facts_v1 policy s tenant req stamp true).1.facts,
      f.fact_id = canonical.fact_id ∨ f.fact_id ∈ req.target_fact_ids → f.chainKey = (canonicalRequest tenant req).chainKey := by
  obtain ⟨built, _, _, targets, _⟩ := planConsolidation_ok planned
  obtain ⟨new, stamped, own⟩ := planned_new sound planned unseen
  have gentle := gentle_retire (fun _ => true) (fun _ _ => rfl) req.target_fact_ids (some canonical.fact_id)
  have named : canonical.fact_id = stamp.fact_id := by rw [built]; rfl
  intro f member pair
  rw [consolidate_memory sound planned unseen, retireAll_eq_each] at member
  obtain ⟨g, there, rfl⟩ := mem_map.mp member
  rw [gentle.fact_id] at pair
  rw [gentle.chainKey]
  rcases mem_append.mp there with old | fresh
  · rcases pair with canonical_id | listed
    · exact absurd (canonical_id.trans named) (unseen g old).1
    · obtain ⟨h, found, target⟩ := targets g.fact_id listed
      have same : h = g := by
        rw [lookup_of_mem sound.nodup old, Option.some.injEq] at found
        exact found.symm
      rw [same] at target
      unfold Fact.chainKey StoreFact.chainKey canonicalRequest
      rw [target.tenant, target.entity, target.key, stamped]
  · rw [mem_singleton.mp fresh, own, built]
    rfl

end

/-- A consolidation whose sources the journal brings back stands until it is undone, and its undo leaves the rest of the facts
as a run apart from it would have left them without it. -/
theorem consolidation_stands_until_undone (env : Env) (before ops : List Op) (tenant : String) (req : ConsolidationRequestV1)
    (stamp : Stamp) (written : Bool) (c : String) (s s1 : FactStore) (reached : s = FactStore.run env {} before)
    (consolidated : FactStore.consolidate_facts_v1 env.policy s tenant req stamp written = (s1, .ok c))
    (fresh_before : FactStore.Meets env (fun s op => op.Fresh s) {} before) (unseen : s.Unseen stamp.fact_id)
    (finite : req.confidence.is_finite = true)
    (sources : (replayLines env.policy s.journal).edgesAre tenant none req.target_fact_ids = true)
    (fresh : FactStore.Meets env (fun s op => op.Fresh s) s1 ops) (other : ∀ op ∈ ops, op.undoes c = false)
    (reads_back : FactStore.Meets env (fun s op => op.readsBack s = true) s1 ops) :
    Consolidated c req.target_fact_ids (s1.run env ops).toMemory ∧
      ∀ tenant' source_fact_ids written' undone status,
        (s1.run env ops).consolidate_undo_v1 tenant' c source_fact_ids written' = (undone, .ok status) →
          Undone c req.target_fact_ids undone.toMemory ∧
          ((∀ op ∈ ops, op.Apart c req.target_fact_ids (canonicalRequest tenant req).chainKey) →
            AsWithout c undone.toMemory (s.run env ops).toMemory) := by
  have start : Whole env.policy s.toMemory ∧ Trails env.policy s := by
    rw [reached]
    exact @FactStore.Meets.run env _ (fun s => Whole env.policy s.toMemory ∧ Trails env.policy s)
      (fun _ _ both fresh => ⟨both.1.step fresh, both.2.step both.1 fresh⟩) _ _
      ⟨whole_empty env.policy, fun _ member => absurd member not_mem_nil⟩ fresh_before
  obtain ⟨whole, trails⟩ := start
  have success : (consolidate_facts_v1 env.policy s tenant req stamp written).2 = .ok c := congrArg Prod.snd consolidated
  have standing := standing_consolidate whole trails unseen finite sources success
  obtain ⟨canonical, planned, rfl, rfl, named⟩ := consolidate_success success
  have drawn : (Op.consolidate tenant req stamp true).Fresh s :=
    ⟨nodup_singleton _, fun id listed => mem_singleton.mp listed ▸ unseen⟩
  have whole' : Whole env.policy (consolidate_facts_v1 env.policy s tenant req stamp true).1.toMemory := whole.step drawn
  have chained := chained_consolidate whole.sound planned unseen
  have same : s.toMemory = dropPair canonical.fact_id req.target_fact_ids
      (consolidate_facts_v1 env.policy s tenant req stamp true).1.toMemory := by
    have current : s.edgesAre tenant none req.target_fact_ids = true := Target.edges (planConsolidation_ok planned).2.2.2.1
    rw [consolidate_memory whole.sound planned unseen, ← (incoming_fields env.policy canonical).1]
    exact (dropPair_consolidated whole.sound (planned_new whole.sound planned unseen).1.unknown current).symm
  rw [consolidated] at standing whole' chained same
  have ends : Whole env.policy (s1.run env ops).toMemory ∧ Standing env.policy canonical.fact_id req.target_fact_ids
      (s1.run env ops) := by
    have meets := (FactStore.Meets.of_all other s1).and (fresh.and reads_back)
    refine @FactStore.Meets.run env _ (fun t => Whole env.policy t.toMemory ∧ Standing env.policy canonical.fact_id
      req.target_fact_ids t) (fun t op kept h => ?_) s1 ops ⟨whole', standing⟩ meets
    exact ⟨kept.1.step h.2.1, kept.2.step kept.1 h.2.1 h.1 h.2.2⟩
  obtain ⟨whole_end, standing_end⟩ := ends
  refine ⟨⟨standing_end.live.canonical, standing_end.live.sources whole_end.edges, standing_end.live.provenance⟩, ?_⟩
  intro tenant' source_fact_ids written' undone status undo
  have done : ((s1.run env ops).consolidate_undo_v1 tenant' canonical.fact_id source_fact_ids written').2 = .ok status :=
    congrArg Prod.snd undo
  have taken : ((s1.run env ops).consolidate_undo_v1 tenant' canonical.fact_id source_fact_ids written').1 = undone :=
    congrArg Prod.fst undo
  rw [← taken]
  refine ⟨undone_of_stands standing_end.live whole_end.edges done, fun apart => ?_⟩
  rw [run_without same whole' standing chained fresh other reads_back apart]
  exact asWithout_of_stands standing_end.live done

instance (c : String) (ids : List String) (id : String) : Decidable (Outside c ids id) := by
  unfold Outside
  infer_instance

instance (c : String) (ids : List String) (chain : ChainKey) (op : Op) : Decidable (op.Apart c ids chain) := by
  unfold Op.Apart
  infer_instance

/-- Calls between a consolidation and its undo. -/
def betweenRun : List Op :=
  [.store { sampleRequest with key := "other" } ⟨"d", 4⟩ true true, .compact true,
   .store_synced (sampleFact "x" "second") true, .delete "first" "d" true]

theorem betweenRun_stands_until_undone :
    Consolidated "c" ["b"]
        ((FactStore.run sampleEnv {} [.store sampleRequest ⟨"a", 1⟩ true true, .store sampleRequest ⟨"b", 2⟩ true true,
          .consolidate "first" (sampleConsolidation ["b"]) ⟨"c", 3⟩ true]).run sampleEnv betweenRun).toMemory ∧
      AsWithout "c"
        (((FactStore.run sampleEnv {} [.store sampleRequest ⟨"a", 1⟩ true true, .store sampleRequest ⟨"b", 2⟩ true true,
          .consolidate "first" (sampleConsolidation ["b"]) ⟨"c", 3⟩ true]).run sampleEnv betweenRun).consolidate_undo_v1
            "first" "c" ["b"] true).1.toMemory
        ((FactStore.run sampleEnv {} [.store sampleRequest ⟨"a", 1⟩ true true, .store sampleRequest ⟨"b", 2⟩ true true]).run
          sampleEnv betweenRun).toMemory := by
  have holds := consolidation_stands_until_undone sampleEnv
    [.store sampleRequest ⟨"a", 1⟩ true true, .store sampleRequest ⟨"b", 2⟩ true true] betweenRun "first"
    (sampleConsolidation ["b"]) ⟨"c", 3⟩ true "c" _ _ rfl rfl (by decide) (by decide) (by decide) (by decide) (by decide)
    (by decide) (by decide)
  exact ⟨holds.1, (holds.2 "first" ["b"] true _ .undone rfl).2 (by decide)⟩

/-- A consolidation is gone after reopening when its source waited for a fact of another tenant. -/
theorem reopen_drops_canonical :
    FactStore.Meets sampleEnv (fun s op => op.Fresh s) {} (awaitedRun ++ [.reopen]) ∧
      (FactStore.run sampleEnv {} awaitedRun).consolidation_sources "c" = some ["a"] ∧
      ((FactStore.run sampleEnv {} awaitedRun).get "c").isSome = true ∧
      (FactStore.run sampleEnv {} (awaitedRun ++ [.reopen])).consolidation_sources "c" = none ∧
      (FactStore.run sampleEnv {} (awaitedRun ++ [.reopen])).get "c" = none := by
  decide +kernel

end Crux.Facts
