import Crux.FactCompacted

/-!
# Tenants do not see each other

The lines that a call writes are about facts of the tenants it is for. Other
tenants keep their facts with all their fields and links, in memory and in what
the journal replays to, unless one of their links names an identifier that the
call brings in.
-/

namespace Crux.Facts
open List FactStore
namespace Memory

/-- The facts of a tenant are the same in the same order, and so are the sources of its consolidations. -/
structure SameFor (tenant : String) (m m' : Memory) : Prop where
  facts : m'.all_facts_for_tenant tenant = m.all_facts_for_tenant tenant
  sources : ∀ f ∈ m.facts, f.tenant_hash = tenant → m'.consolidation_sources f.fact_id = m.consolidation_sources f.fact_id

/-- An event that is about no fact of a tenant. -/
def Foreign (tenant : String) (m : Memory) : JournalEvent → Prop
  | .Store fact => stampTenant fact.tenant_hash ≠ tenant
  | .StoreBatch facts => ∀ fact ∈ facts, stampTenant fact.tenant_hash ≠ tenant
  | .Consolidate canonical _ => stampTenant canonical.tenant_hash ≠ tenant
  | .Delete id | .Supersede id _ | .ClearSupersede id | .SetValidity id _ _ | .ConsolidateUndo id _
  | .ConsolidationProvenance id _ _ => ∀ f ∈ m.facts, f.fact_id = id → f.tenant_hash ≠ tenant

section
variable {policy : PrivacyPolicy} {tenant : String} {m m' m'' : Memory} {f : Fact}

theorem mem_all_facts_for_tenant : f ∈ m.all_facts_for_tenant tenant ↔ f ∈ m.facts ∧ f.tenant_hash = tenant := by
  unfold all_facts_for_tenant
  rw [mem_filter, decide_eq_true_eq]

theorem SameFor.refl (tenant : String) (m : Memory) : SameFor tenant m m := ⟨rfl, fun _ _ _ => rfl⟩

theorem SameFor.mem (same : SameFor tenant m m') (own : f.tenant_hash = tenant) : f ∈ m'.facts ↔ f ∈ m.facts := by
  have both : f ∈ m'.all_facts_for_tenant tenant ↔ f ∈ m.all_facts_for_tenant tenant := by rw [same.facts]
  rw [mem_all_facts_for_tenant, mem_all_facts_for_tenant] at both
  exact ⟨fun member => (both.mp ⟨member, own⟩).1, fun member => (both.mpr ⟨member, own⟩).1⟩

theorem SameFor.trans (first : SameFor tenant m m') (second : SameFor tenant m' m'') : SameFor tenant m m'' := by
  refine ⟨second.facts.trans first.facts, fun f member own => ?_⟩
  rw [second.sources f ((first.mem own).mpr member) own, first.sources f member own]

theorem SameFor.each (keeps : ∀ f, (h f).tenant_hash = f.tenant_hash) (still : ∀ f ∈ m.facts, f.tenant_hash = tenant → h f = f) :
    SameFor tenant m (m.each h) := by
  refine ⟨?_, fun _ _ _ => rfl⟩
  have own : (fun f => decide (f.tenant_hash = tenant)) ∘ h = fun f : Fact => decide (f.tenant_hash = tenant) := by
    funext f
    simp [keeps f]
  unfold all_facts_for_tenant Memory.each
  rw [filter_map, own]
  conv_rhs => rw [← map_id (m.facts.filter fun f => f.tenant_hash = tenant)]
  refine map_congr_left fun f member => ?_
  obtain ⟨there, mine⟩ := mem_filter.mp member
  exact still f there (by simpa using mine)

theorem SameFor.modify (gentle : Gentle h) {id : String} (other : ∀ f ∈ m.facts, f.fact_id = id → f.tenant_hash ≠ tenant) :
    SameFor tenant m (m.modify id h) := by
  rw [modify_eq_each]
  refine .each (gentle_one gentle id).tenant fun f member own => ?_
  have different : f.fact_id ≠ id := fun same => other f member same own
  simp [different]

theorem SameFor.insert (other : fact.tenant_hash ≠ tenant) : SameFor tenant m (m.insert_fact_indexes fact) := by
  refine ⟨?_, fun _ _ _ => rfl⟩
  unfold all_facts_for_tenant insert_fact_indexes
  simp [other]

theorem SameFor.record {id : String} (other : ∀ f ∈ m.facts, f.fact_id = id → f.tenant_hash ≠ tenant) (ids : List String) :
    SameFor tenant m (m.recordSources id ids) := by
  refine ⟨rfl, fun f member own => ?_⟩
  have different : f.fact_id ≠ id := fun same => other f member same own
  exact KeyMap.insert_other _ _ different

theorem SameFor.retire {ids : List String} (successor : Option String)
    (other : ∀ f ∈ m.facts, f.fact_id ∈ ids → f.tenant_hash ≠ tenant) :
    SameFor tenant m (m.retireAll (fun _ => true) ids successor) := by
  rw [retireAll_eq_each]
  refine .each (gentle_retire _ (fun _ _ => rfl) ids successor).tenant fun f member own => ?_
  have unlisted : f.fact_id ∉ ids := fun listed => other f member listed own
  simp [unlisted]

theorem sameFor_insert (policy : PrivacyPolicy) (other : stampTenant fact.tenant_hash ≠ tenant) :
    SameFor tenant m (m.replay_journal_insert policy fact).1 := by
  unfold replay_journal_insert
  dsimp only
  split_ifs
  · exact .refl tenant m
  · refine .insert ?_
    rw [(incoming_fields policy fact).2.1]
    exact other

theorem sameFor_batch (policy : PrivacyPolicy) {facts : List Fact} (other : ∀ f ∈ facts, stampTenant f.tenant_hash ≠ tenant) :
    SameFor tenant m (replayBatch policy m facts) := by
  induction facts generalizing m with
  | nil => exact .refl tenant m
  | cons fact rest ih =>
    exact (sameFor_insert policy (other fact mem_cons_self)).trans (ih fun f later => other f (mem_cons_of_mem _ later))

theorem sameFor_consolidate (nodup : m.ids.Nodup) (other : stampTenant canonical.tenant_hash ≠ tenant) (ids : List String) :
    SameFor tenant m (replayConsolidate policy m canonical ids) := by
  rcases replayConsolidate_cases policy m canonical ids with skipped | ⟨standing, unknown, valid⟩
  · rw [skipped]
    exact .refl tenant m
  · rw [replayConsolidate_eq policy canonical ids unknown standing valid]
    obtain ⟨id, of_tenant, _⟩ := incoming_fields policy canonical
    unfold sourcesValid at valid
    simp at valid
    have new : SameFor tenant m (m.insert_fact_indexes (incoming policy canonical)) :=
      .insert (by rw [of_tenant]; exact other)
    refine (new.trans (.retire _ fun f member listed => ?_)).trans (.record (fun f member same => ?_) ids)
    · rcases mem_append.mp member with old | fresh
      · rw [(edgesAre_mem nodup valid.2 old listed).2.1]
        exact other
      · rw [mem_singleton.mp fresh, of_tenant]
        exact other
    · obtain ⟨g, there, rfl⟩ := mem_map.mp member
      have gentle := gentle_retire (fun _ => true) (fun _ _ => rfl) ids (some canonical.fact_id)
      rw [gentle.fact_id] at same
      rw [gentle.tenant]
      rcases mem_append.mp there with old | fresh
      · exact absurd same (lookup_none.mp unknown g old)
      · rw [mem_singleton.mp fresh, of_tenant]
        exact other

theorem sameFor_undo (nodup : m.ids.Nodup) {id : String} (other : ∀ f ∈ m.facts, f.fact_id = id → f.tenant_hash ≠ tenant)
    (restored : List String) : SameFor tenant m (m.replayUndo id restored) := by
  unfold replayUndo
  cases found : m.lookup id with
  | none => exact .refl tenant m
  | some canonical =>
    dsimp only
    split_ifs with allowed
    · unfold canUndo at allowed
      simp at allowed
      obtain ⟨member, named⟩ := lookup_some found
      refine (SameFor.modify gentle_setDeleted other).trans (.retire none fun f' there listed => ?_)
      obtain ⟨f, old, rfl⟩ := mem_map.mp there
      have gentle := gentle_one gentle_setDeleted id
      simp at gentle
      rw [gentle.fact_id] at listed
      rw [gentle.tenant, (edgesAre_mem nodup allowed.2 old listed).2.1]
      exact other canonical member named
    · exact .refl tenant m

/-- An event about other tenants leaves what belongs to a tenant. -/
theorem sameFor_apply (nodup : m.ids.Nodup) {e : JournalEvent} (foreign : Foreign tenant m e) :
    SameFor tenant m (applyEvent policy m e) := by
  cases e with
  | Store fact => exact sameFor_insert policy foreign
  | StoreBatch facts => exact sameFor_batch policy foreign
  | Delete id =>
    dsimp only [applyEvent, replayDelete]
    split_ifs
    exacts [.refl tenant m, .modify gentle_setDeleted foreign]
  | Supersede id successor =>
    dsimp only [applyEvent, replaySupersede]
    split_ifs
    exacts [.modify (gentle_setSupersededBy _) foreign, .refl tenant m]
  | ClearSupersede id =>
    dsimp only [applyEvent, replayClear]
    split_ifs
    exacts [.refl tenant m, .modify (gentle_setSupersededBy _) foreign]
  | SetValidity id valid_from valid_to => exact .modify (gentle_setValidity valid_from valid_to) foreign
  | Consolidate canonical ids => exact sameFor_consolidate nodup foreign ids
  | ConsolidateUndo id restored => exact sameFor_undo nodup foreign restored
  | ConsolidationProvenance id ids owner =>
    dsimp only [applyEvent, replayProvenance]
    split_ifs
    exacts [.record foreign ids, .refl tenant m]

/-- The facts of a tenant name none of some identifiers. -/
def UnnamedBy (tenant : String) (m : Memory) (ids : List String) : Prop :=
  ∀ f ∈ m.facts, f.tenant_hash = tenant → ∀ id ∈ ids, f.supersedes ≠ some id ∧ f.superseded_by ≠ some id

theorem UnnamedBy.same {ids : List String} (unnamed : UnnamedBy tenant m ids) (same : SameFor tenant m m') :
    UnnamedBy tenant m' ids := fun f member own => unnamed f ((same.mem own).mp member) own

theorem badSupersedes_keyIn (same : ∀ x, f.supersedes = some x → keyIn m'.bones x = keyIn m.bones x) :
    m'.badSupersedes f = m.badSupersedes f := by
  rw [badSupersedes_eq, badSupersedes_eq]
  unfold badLink
  cases link : f.supersedes with
  | none => rfl
  | some x =>
    dsimp only
    rw [same x link]

theorem badSupersededBy_keyIn (same : ∀ x, f.superseded_by = some x → keyIn m'.bones x = keyIn m.bones x) :
    m'.badSupersededBy f = m.badSupersededBy f := by
  have via : ∀ k : Memory, ∀ x, ((k.lookup x).any fun g => decide (g.tenant_hash ≠ f.tenant_hash)) =
      (keyIn k.bones x).any fun key => decide (key.1 ≠ f.tenant_hash) := by
    intro k x
    rw [keyIn_bones]
    cases k.lookup x <;> rfl
  unfold badSupersededBy
  cases link : f.superseded_by with
  | none => rfl
  | some x =>
    dsimp only
    rw [via, via, same x link]

/-- Cleaning treats the facts of a tenant alike as long as the facts they name are in the same chains. -/
theorem SameFor.sanitize (same : SameFor tenant m m')
    (keys : ∀ f ∈ m.facts, f.tenant_hash = tenant → ∀ x, f.supersedes = some x ∨ f.superseded_by = some x →
      keyIn m'.bones x = keyIn m.bones x) : SameFor tenant m.sanitize_replayed_links m'.sanitize_replayed_links := by
  have own : ∀ k : Memory, k.sanitize_replayed_links.all_facts_for_tenant tenant =
      (k.all_facts_for_tenant tenant).map k.cleanLinks := by
    intro k
    unfold all_facts_for_tenant sanitize_replayed_links
    rw [filter_map]
    rfl
  refine ⟨?_, fun f' member mine => ?_⟩
  · rw [own, own, same.facts]
    refine map_congr_left fun f member => ?_
    obtain ⟨there, mine⟩ := mem_all_facts_for_tenant.mp member
    unfold cleanLinks
    rw [badSupersedes_keyIn fun x link => keys f there mine x (.inl link),
      badSupersededBy_keyIn fun x link => keys f there mine x (.inr link)]
  · obtain ⟨f, there, rfl⟩ := mem_map.mp member
    exact same.sources f there mine

theorem keyIn_adds (adds : Adds m m' list) (other : ∀ a ∈ list, a.fact_id ≠ x) : keyIn m'.bones x = keyIn m.bones x := by
  have via : ∀ k : Memory, keyIn k.bones x = (k.stems.find? fun a => a.fact_id = x).map Stem.chainKey := by
    intro k
    unfold keyIn bones stems
    rw [find?_map, find?_map, Option.map_map, Option.map_map]
    rfl
  obtain ⟨new, stems, sub⟩ := adds
  have absent : new.find? (fun a => a.fact_id = x) = none :=
    find?_eq_none.mpr fun a member => by simpa using other a (sub.subset member)
  rw [via, via, stems, find?_append, absent, Option.or_none]

end

/-- Everything a tenant can read. -/
structure Untouched (tenant : String) (m m' : Memory) : Prop where
  facts : m'.all_facts_for_tenant tenant = m.all_facts_for_tenant tenant
  provenance : ∀ f ∈ m.facts, f.tenant_hash = tenant → m'.consolidation_sources f.fact_id = m.consolidation_sources f.fact_id
  history : ∀ entity key, m'.fact_history tenant entity key = m.fact_history tenant entity key
  get : ∀ id, m'.get_for_tenant id tenant = m.get_for_tenant id tenant
  get_deleted : ∀ id, m'.get_for_tenant_including_deleted id tenant = m.get_for_tenant_including_deleted id tenant
  by_entity : ∀ entity, m'.get_by_entity_for_tenant entity tenant = m.get_by_entity_for_tenant entity tenant

theorem lookup_for_tenant {m : Memory} (nodup : m.ids.Nodup) (tenant id : String) :
    ((m.lookup id).filter fun f => f.tenant_hash = tenant) = (m.all_facts_for_tenant tenant).find? fun f => f.fact_id = id := by
  unfold all_facts_for_tenant
  rw [find?_filter]
  cases found : m.lookup id with
  | none =>
    symm
    rw [Option.filter_none, find?_eq_none]
    intro f member
    simp [lookup_none.mp found f member]
  | some f =>
    obtain ⟨member, named⟩ := lookup_some found
    by_cases own : f.tenant_hash = tenant
    · rw [Option.filter_some_pos (by simpa using own)]
      symm
      rw [find?_eq_some_iff_append]
      obtain ⟨before, after, split⟩ := append_of_mem member
      refine ⟨by simp [own, named], before, after, split, fun g early => ?_⟩
      have different : g.fact_id ≠ id := by
        intro same
        unfold ids at nodup
        rw [split, map_append, map_cons, nodup_append] at nodup
        exact nodup.2.2 g.fact_id (mem_map_of_mem early) f.fact_id mem_cons_self (same.trans named.symm)
      simp [different]
    · rw [Option.filter_some_neg (by simpa using own)]
      symm
      rw [find?_eq_none]
      intro g there
      by_cases same : g.fact_id = id
      · rw [inj_on_of_nodup_map nodup there member (same.trans named.symm)]
        simp [own]
      · simp [same]

theorem SameFor.untouched (same : SameFor tenant m m') (nodup : m.ids.Nodup) (nodup' : m'.ids.Nodup) :
    Untouched tenant m m' := by
  refine ⟨same.facts, same.sources, fun entity key => ?_, fun id => ?_, fun id => ?_, fun entity => ?_⟩
  · have chain : ∀ k : Memory, k.chain (tenant, entity, key) =
        (k.all_facts_for_tenant tenant).filter fun f => f.chainKey = (tenant, entity, key) := by
      intro k
      unfold Memory.chain all_facts_for_tenant
      rw [filter_filter]
      refine filter_congr fun f _ => ?_
      by_cases own : f.chainKey = (tenant, entity, key)
      · have mine : f.tenant_hash = tenant := congrArg Prod.fst own
        simp [mine]
      · simp [own]
    unfold fact_history
    rw [chain, chain, same.facts]
  · have swap : ∀ k : Memory, k.get_for_tenant id tenant =
        ((k.lookup id).filter fun f => f.tenant_hash = tenant).filter fun f => !f.deleted := by
      intro k
      unfold get_for_tenant Memory.get
      rw [Option.filter_filter, Option.filter_filter]
      congr 1
      funext f
      exact Bool.and_comm _ _
    rw [swap, swap, lookup_for_tenant nodup, lookup_for_tenant nodup', same.facts]
  · unfold get_for_tenant_including_deleted
    rw [lookup_for_tenant nodup, lookup_for_tenant nodup', same.facts]
  · have swap : ∀ k : Memory, k.get_by_entity_for_tenant entity tenant =
        (k.all_facts_for_tenant tenant).filter fun f => decide (f.entity = entity) && !f.deleted := by
      intro k
      unfold get_by_entity_for_tenant get_by_entity all_facts_for_tenant
      rw [filter_filter, filter_filter]
      refine filter_congr fun f _ => ?_
      exact Bool.and_comm _ _
    rw [swap, swap, same.facts]

end Memory

open Memory

variable {policy : PrivacyPolicy} {s : FactStore} {tenant : String}

theorem settled_of_newBatch {facts : List Fact} (new : NewBatch policy m facts) :
    ∀ f ∈ facts, Settled policy f := by
  induction facts generalizing m with
  | nil => simp
  | cons fact rest ih =>
    intro f member
    rcases mem_cons.mp member with rfl | later
    · exact new.1
    · exact ih new.2.2 f later

variable {e : JournalEvent} {op : Op}

theorem stems_line (line : op.Line policy m e) : (applyEvent policy m e).stems = m.stems ++ broughtBy policy [e] := by
  cases e with
  | Store fact =>
    obtain ⟨⟨settled, new⟩, _⟩ := line
    dsimp only [applyEvent]
    rw [replay_journal_insert_new settled new.unknown, stems_insert]
    simp [broughtBy, JournalEvent.created, show incoming policy fact = fact from settled]
  | StoreBatch facts =>
    have settled := settled_of_newBatch line.1
    dsimp only [applyEvent]
    rw [replayBatch_new line.1]
    simp only [stems, insertAll, map_append, broughtBy, JournalEvent.created, flatMap_cons, flatMap_nil,
      append_nil]
    congr 1
    refine map_congr_left fun f member => ?_
    rw [show incoming policy f = f from settled f member]
  | Consolidate canonical ids =>
    obtain ⟨new, _, _, standing, valid⟩ := line
    have unknown : m.lookup canonical.fact_id = none := (incoming_fields policy canonical).1 ▸ new.unknown
    dsimp only [applyEvent]
    rw [replayConsolidate_eq policy canonical ids unknown standing valid]
    change (Memory.retireAll _ _ _ _).stems = _
    rw [stems_of_bones (bones_retireAll _ _ (fun _ _ => rfl) _ _), stems_insert]
    rfl
  | Delete id => exact (stems_of_bones (bones_replayDelete m id)).trans (append_nil _).symm
  | Supersede id successor => exact (stems_of_bones (bones_replaySupersede m id successor)).trans (append_nil _).symm
  | ClearSupersede id => exact (stems_of_bones (bones_replayClear m id)).trans (append_nil _).symm
  | SetValidity id valid_from valid_to =>
    exact (stems_of_bones (bones_modify m id (gentle_setValidity valid_from valid_to))).trans (append_nil _).symm
  | ConsolidateUndo id restored => exact (stems_of_bones (bones_replayUndo m id restored)).trans (append_nil _).symm
  | ConsolidationProvenance id ids owner => exact line.elim

/-- Every fact a journal brings back is one of the store's. -/
def Trails (policy : PrivacyPolicy) (s : FactStore) : Prop := ∀ a ∈ (replayLines policy s.journal).stems, a ∈ s.stems

theorem replay_append_journal (policy : PrivacyPolicy) (s : FactStore) (e : JournalEvent) (written : Bool) :
    replayLines policy (s.append_journal e written).journal = replayLines policy s.journal ∨
      replayLines policy (s.append_journal e written).journal = applyEvent policy (replayLines policy s.journal) e := by
  rw [journal_append, replayLines_append]
  cases written with
  | false => exact .inl rfl
  | true =>
    rw [if_pos rfl, foldl_cons, foldl_nil]
    unfold replayEvent
    split_ifs
    exacts [.inr rfl, .inl rfl]

theorem Trails.event (trails : Trails policy s) (stems : ∀ a ∈ s.stems ++ broughtBy policy [e], a ∈ s'.stems)
    (journal : s'.journal = (s.append_journal e written).journal) : Trails policy s' := by
  intro a member
  rw [journal, journal_append, replayLines_append] at member
  obtain ⟨new, all, sub⟩ := adds_lines policy (replayLines policy s.journal) (if written then [e] else [])
  rw [all] at member
  refine stems a (mem_append.mpr ?_)
  rcases mem_append.mp member with old | fresh
  · exact .inl (trails a old)
  · have brought := sub.subset fresh
    cases written with
    | false => exact absurd brought not_mem_nil
    | true => exact .inr brought

theorem Trails.writes (writes : Writes policy (op.Line policy) sure s s') : Trails policy s → Trails policy s' := by
  induction writes with
  | nothing s => exact id
  | @line s s' e written kept line memory journal =>
    intro trails
    refine trails.event (fun a member => ?_) journal
    rw [memory, stems_line line]
    exact member
  | trans _ _ first second => exact fun trails => second (first trails)

theorem store_synced_journal (unknown : s.lookup fact.fact_id = none) (written : Bool) :
    (store_synced policy s fact written).1.journal =
      (s.append_journal (.Store ((s.toMemory.insert_fact_indexes (incoming policy fact)).cleanLinks (incoming policy fact)))
        written).journal := by
  have id := (incoming_fields policy fact).1
  unfold store_synced
  dsimp only
  generalize Memory.incoming policy fact = f at id ⊢
  rw [← id] at unknown
  rw [unknown, lookup_synced unknown]
  cases written <;> rfl

theorem store_synced_known (known : (s.lookup fact.fact_id).isSome = true) (written : Bool) :
    (store_synced policy s fact written).1 = s := by
  unfold store_synced
  dsimp only
  rw [(incoming_fields policy fact).1, if_pos known]

theorem Trails.store_synced (trails : Trails policy s) (fact : Fact) (written : Bool) :
    Trails policy (store_synced policy s fact written).1 := by
  by_cases known : (s.lookup fact.fact_id).isSome = true
  · rw [store_synced_known known]
    exact trails
  · have unknown : s.lookup fact.fact_id = none := by simpa using known
    refine trails.event (fun a member => ?_) (store_synced_journal unknown written)
    rw [store_synced_memory, if_neg known, stems_sanitize, stems_insert]
    have stamped : broughtBy policy
        [.Store ((s.toMemory.insert_fact_indexes (incoming policy fact)).cleanLinks (incoming policy fact))] =
          [stemOf (incoming policy fact)] := by
      have settled := settled_incoming policy fact
      have settled' : Settled policy
          ((s.toMemory.insert_fact_indexes (incoming policy fact)).cleanLinks (incoming policy fact)) := by
        rw [settled_iff] at settled ⊢
        exact settled
      simp [broughtBy, JournalEvent.created, flatMap_cons,
          show incoming policy ((s.toMemory.insert_fact_indexes _).cleanLinks _) = _ from settled']
      rfl
    rw [← stamped]
    exact member

theorem Trails.step {env : Env} (trails : Trails env.policy s) (whole : Whole env.policy s.toMemory) {op : Op}
    (fresh : op.Fresh s) : Trails env.policy (s.step env op) := by
  rcases step_cases whole.sound fresh with ⟨_, writes⟩ | ⟨fact, written, rfl⟩ | ⟨replaced, rfl⟩ | rfl
  · exact trails.writes writes
  · exact trails.store_synced fact written
  · change Trails env.policy (s.compact_journal env.parse_legal_hold replaced).1
    unfold compact_journal compact_journal_unchecked
    split_ifs
    · intro a member
      change a ∈ (replayLines env.policy s.compactedLines).facts.map stemOf at member
      rw [facts_compactedLines whole.sound] at member
      obtain ⟨f, there, rfl⟩ := mem_map.mp member
      exact mem_map_of_mem (mem_liveSorted.mp (mem_filter.mp there).1).1
    · exact trails
    · exact trails
  · intro a member
    change a ∈ (replayLines env.policy s.journal).sanitize_replayed_links.stems
    rw [stems_sanitize]
    exact member

/-! ## Calls for other tenants -/

theorem Op.Line.foreign (line : op.Line policy m e) (nodup : m.ids.Nodup) (other : ¬ op.isFor tenant) : Foreign tenant m e := by
  have reached : ∀ id, op.reaches m id → ∀ f ∈ m.facts, f.fact_id = id → f.tenant_hash ≠ tenant := by
    rintro id ⟨g, found, is_for⟩ f member named own
    obtain ⟨there, same⟩ := lookup_some found
    rw [inj_on_of_nodup_map nodup there member (same.trans named.symm), own] at is_for
    exact other is_for
  have brought : ∀ fact : Fact, Settled policy fact → op.isFor fact.tenant_hash → stampTenant fact.tenant_hash ≠ tenant := by
    intro fact settled is_for own
    rw [(settled_iff.mp settled).2] at own
    exact other (own ▸ is_for)
  cases e with
  | Store fact => exact brought fact line.1.1 line.2.2
  | StoreBatch facts => exact fun fact member => brought fact (settled_of_newBatch line.1 fact member) (line.2 fact member).2
  | Delete id =>
    rcases line with reaches | ⟨cutoff, flags, rfl⟩
    · exact reached id reaches
    · exact absurd trivial other
  | Supersede id successor => exact reached id line.1
  | ClearSupersede id => exact reached id line
  | SetValidity id valid_from valid_to =>
    obtain ⟨first, rfl⟩ := line
    exact absurd trivial other
  | Consolidate canonical ids =>
    intro own
    exact other (own ▸ line.2.2.1)
  | ConsolidateUndo id restored => exact reached id line.1
  | ConsolidationProvenance id ids owner => exact line.elim

theorem foreign_replay (trails : Trails policy s)
    (foreign : Foreign tenant s.toMemory e) : Foreign tenant (replayLines policy s.journal) e := by
  have carried : ∀ id, (∀ f ∈ s.facts, f.fact_id = id → f.tenant_hash ≠ tenant) →
      ∀ f ∈ (replayLines policy s.journal).facts, f.fact_id = id → f.tenant_hash ≠ tenant := by
    intro id all f member named own
    obtain ⟨g, there, same⟩ := mem_map.mp (trails (stemOf f) (mem_map_of_mem member))
    have g_id : g.fact_id = f.fact_id := congrArg Stem.fact_id same
    have g_tenant : g.tenant_hash = f.tenant_hash := congrArg (fun a => a.chainKey.1) same
    exact all g there (g_id.trans named) (g_tenant.trans own)
  cases e with
  | Delete id => exact carried id foreign
  | Supersede id successor => exact carried id foreign
  | ClearSupersede id => exact carried id foreign
  | SetValidity id valid_from valid_to => exact carried id foreign
  | ConsolidateUndo id restored => exact carried id foreign
  | ConsolidationProvenance id ids owner => exact carried id foreign
  | _ => exact foreign

/-- The identifiers a call brings in. -/
def Op.brings : Op → List String
  | .store_synced fact _ => [fact.fact_id]
  | op => op.drawn

/-- What belongs to a tenant is the same in two stores and in what their journals bring back. -/
structure Isolated (policy : PrivacyPolicy) (tenant : String) (s s' : FactStore) : Prop where
  live : SameFor tenant s.toMemory s'.toMemory
  replayed : SameFor tenant (replayLines policy s.journal) (replayLines policy s'.journal)
  reopened : SameFor tenant (FactStore.with_persistence policy s.journal).toMemory
    (FactStore.with_persistence policy s'.journal).toMemory

section
variable {policy : PrivacyPolicy} {tenant : String} {s s' s'' : FactStore}

theorem Isolated.refl (policy : PrivacyPolicy) (tenant : String) (s : FactStore) : Isolated policy tenant s s :=
  ⟨.refl tenant _, .refl tenant _, .refl tenant _⟩

theorem Isolated.trans (first : Isolated policy tenant s s') (second : Isolated policy tenant s' s'') :
    Isolated policy tenant s s'' :=
  ⟨first.live.trans second.live, first.replayed.trans second.replayed, first.reopened.trans second.reopened⟩

theorem isolated_line {ids : List String} (live : SameFor tenant s.toMemory s'.toMemory)
    (foreign : Foreign tenant (replayLines policy s.journal) e) (unnamed : UnnamedBy tenant (replayLines policy s.journal) ids)
    (brought : ∀ f ∈ e.created, f.fact_id ∈ ids) (journal : s'.journal = (s.append_journal e written).journal) :
    Isolated policy tenant s s' := by
  have sound : Sound policy (replayLines policy s.journal) := (Sound.empty policy).lines s.journal
  rcases replay_append_journal policy s e written with same | applied
  · rw [← journal] at same
    refine ⟨live, same ▸ .refl tenant _, ?_⟩
    change SameFor tenant (replayLines policy s.journal).sanitize_replayed_links
      (replayLines policy s'.journal).sanitize_replayed_links
    rw [same]
    exact .refl tenant _
  · rw [← journal] at applied
    have replayed : SameFor tenant (replayLines policy s.journal) (replayLines policy s'.journal) := by
      rw [applied]
      exact sameFor_apply sound.nodup foreign
    refine ⟨live, replayed, replayed.sanitize fun f member own x link => ?_⟩
    have adds : Adds (replayLines policy s.journal) (replayLines policy s'.journal)
        (broughtBy policy (if written then [e] else [])) := by
      rw [journal, journal_append, replayLines_append]
      exact adds_lines policy _ _
    refine keyIn_adds adds fun a listed same => ?_
    have created : x ∈ ids := by
      cases written with
      | false => exact absurd listed not_mem_nil
      | true =>
        obtain ⟨g, made, rfl⟩ := mem_map.mp listed
        rw [if_pos rfl, flatMap_cons, flatMap_nil, append_nil] at made
        have named : g.fact_id = x := (incoming_fields policy g).1.symm.trans same
        exact named ▸ brought g made
    rcases link with back | ahead
    · exact (unnamed f member own x created).1 back
    · exact (unnamed f member own x created).2 ahead

theorem isolated_writes (writes : Writes policy (op.Line policy) sure s s') (other : ¬ op.isFor tenant) :
    Sound policy s.toMemory → Trails policy s → UnnamedBy tenant (replayLines policy s.journal) op.drawn →
      Isolated policy tenant s s' ∧ Sound policy s'.toMemory ∧ Trails policy s' := by
  induction writes with
  | nothing s => exact fun sound trails _ => ⟨.refl policy tenant s, sound, trails⟩
  | @line s s' e written kept line memory journal =>
    intro sound trails unnamed
    have foreign := line.foreign sound.nodup other
    have live : SameFor tenant s.toMemory s'.toMemory := by
      rw [memory]
      exact sameFor_apply sound.nodup foreign
    have brought : ∀ f ∈ e.created, f.fact_id ∈ op.drawn := by
      intro f made
      cases e with
      | Store fact =>
        rw [mem_singleton.mp made]
        exact line.2.1
      | StoreBatch facts => exact (line.2 f made).1
      | Consolidate canonical ids =>
        rw [mem_singleton.mp made]
        exact line.2.1
      | _ => cases made
    refine ⟨isolated_line live (foreign_replay trails foreign) unnamed brought journal, ?_, ?_⟩
    · rw [memory]
      exact sound.apply e
    · refine trails.event (fun a member => ?_) journal
      rw [memory, stems_line line]
      exact member
  | trans _ _ first second =>
    intro sound trails unnamed
    obtain ⟨before, sound', trails'⟩ := first sound trails unnamed
    obtain ⟨after, rest⟩ := second sound' trails' (unnamed.same before.replayed)
    exact ⟨before.trans after, rest⟩

theorem isolated_sync (whole : Whole policy s.toMemory) (other : stampTenant fact.tenant_hash ≠ tenant)
    (unnamed : UnnamedBy tenant s.toMemory [fact.fact_id])
    (unnamed' : UnnamedBy tenant (replayLines policy s.journal) [fact.fact_id]) (written : Bool) :
    Isolated policy tenant s (store_synced policy s fact written).1 := by
  by_cases known : (s.lookup fact.fact_id).isSome = true
  · rw [store_synced_known known]
    exact .refl policy tenant s
  · have unknown : s.lookup fact.fact_id = none := by simpa using known
    obtain ⟨id, of_tenant, _⟩ := incoming_fields policy fact
    have foreign : (incoming policy fact).tenant_hash ≠ tenant := by
      rw [of_tenant]
      exact other
    refine isolated_line ?_ ?_ unnamed' ?_ (store_synced_journal unknown written)
    · rw [store_synced_memory, if_neg known]
      have same := SameFor.sanitize (SameFor.insert foreign : SameFor tenant s.toMemory _) fun f member own x link => ?_
      · rw [sanitize_of_kind whole.kind] at same
        exact same
      · refine keyIn_adds ⟨_, stems_insert s.toMemory _, List.Sublist.refl _⟩ fun a listed named => ?_
        rw [mem_singleton.mp listed] at named
        have x_id : x ∈ [fact.fact_id] := mem_singleton.mpr (named.symm.trans id)
        rcases link with back | ahead
        · exact (unnamed f member own x x_id).1 back
        · exact (unnamed f member own x x_id).2 ahead
    · change stampTenant (incoming policy fact).tenant_hash ≠ tenant
      rw [(settled_iff.mp (settled_incoming policy fact)).2]
      exact foreign
    · intro f made
      rw [mem_singleton.mp made]
      exact mem_singleton.mpr id

end

theorem isolated_step (whole : Whole env.policy s.toMemory) (trails : Trails env.policy s) (other : ¬ op.isFor tenant)
    (fresh : op.Fresh s) (unnamed : UnnamedBy tenant s.toMemory op.brings)
    (unnamed' : UnnamedBy tenant (replayLines env.policy s.journal) op.brings) :
    Isolated env.policy tenant s (s.step env op) := by
  rcases step_cases whole.sound fresh with ⟨local_op, writes⟩ | ⟨fact, written, rfl⟩ | ⟨replaced, rfl⟩ | rfl
  · have brings : op.brings = op.drawn := by cases op <;> first | rfl | cases local_op
    rw [brings] at unnamed'
    exact (isolated_writes writes other whole.sound trails unnamed').1
  · exact isolated_sync whole (fun own => other own.symm) unnamed unnamed' written
  · exact absurd trivial other
  · exact absurd trivial other

/-- The facts of a tenant name none of the identifiers a call brings in, in memory or in what the journal brings back. -/
def Op.Unnamed (env : Env) (tenant : String) (s : FactStore) (op : Op) : Prop :=
  UnnamedBy tenant s.toMemory op.brings ∧ UnnamedBy tenant (replayLines env.policy s.journal) op.brings

/-- Calls for other tenants leave everything a tenant can read, now and after reopening. -/
theorem tenant_untouched (env : Env) (tenant : String) (before ops : List Op)
    (fresh_before : FactStore.Meets env (fun s op => op.Fresh s) {} before)
    (other : ∀ op ∈ ops, ¬ op.isFor tenant)
    (fresh : FactStore.Meets env (fun s op => op.Fresh s) (FactStore.run env {} before) ops)
    (unnamed : FactStore.Meets env (fun s op => op.Unnamed env tenant s) (FactStore.run env {} before) ops) :
    Untouched tenant (FactStore.run env {} before).toMemory
        ((FactStore.run env {} before).run env ops).toMemory ∧
      Untouched tenant (FactStore.with_persistence env.policy (FactStore.run env {} before).journal).toMemory
        (FactStore.with_persistence env.policy ((FactStore.run env {} before).run env ops).journal).toMemory := by
  have start : Whole env.policy (run env {} before).toMemory ∧ Trails env.policy (run env {} before) :=
    @FactStore.Meets.run env _ (fun s => Whole env.policy s.toMemory ∧ Trails env.policy s)
      (fun _ _ both fresh => ⟨both.1.step fresh, both.2.step both.1 fresh⟩) _ _
      ⟨whole_empty env.policy, fun _ member => absurd member not_mem_nil⟩ fresh_before
  generalize run env {} before = s at start fresh unnamed ⊢
  have isolated : (Whole env.policy (s.run env ops).toMemory ∧ Trails env.policy (s.run env ops)) ∧
      Isolated env.policy tenant s (s.run env ops) := by
    have meets := (FactStore.Meets.of_all other s).and (fresh.and unnamed)
    refine @FactStore.Meets.run env _ (fun t => (Whole env.policy t.toMemory ∧ Trails env.policy t) ∧
      Isolated env.policy tenant s t) (fun t op kept h => ?_) s ops ⟨start, .refl env.policy tenant s⟩ meets
    obtain ⟨⟨whole, trails⟩, isolated⟩ := kept
    obtain ⟨other, fresh, named, named'⟩ := h
    exact ⟨⟨whole.step fresh, trails.step whole fresh⟩, isolated.trans (isolated_step whole trails other fresh named named')⟩
  obtain ⟨⟨whole, _⟩, isolated⟩ := isolated
  exact ⟨isolated.live.untouched start.1.sound.nodup whole.sound.nodup,
    isolated.reopened.untouched (whole_reopen _ _).sound.nodup (whole_reopen _ _).sound.nodup⟩

instance (tenant : String) (m : Memory) (ids : List String) : Decidable (UnnamedBy tenant m ids) := by
  unfold UnnamedBy
  infer_instance

instance (env : Env) (tenant : String) (s : FactStore) (op : Op) : Decidable (op.Unnamed env tenant s) := by
  unfold Op.Unnamed
  infer_instance

/-- A fact of the first tenant whose link to a later version waits for that version. -/
def danglingRun : List Op := [.store_synced { sampleFact "a" "first" with superseded_by := some "x" } true]

def foreignRun (id : String) : List Op :=
  [.store { sampleRequest with tenant_hash := "second" } ⟨"b", 1⟩ true true,
   .store { sampleRequest with tenant_hash := "second" } ⟨"c", 2⟩ true true, .store_synced (sampleFact id "second") true,
   .mark_superseded "second" "c" id true, .delete "second" "b" true]

theorem foreignRun_not_for (id : String) : ∀ op ∈ foreignRun id, ¬ op.isFor "first" := by
  have stored : "first" ≠ stampTenant "second" := by decide
  have synced : "first" ≠ stampTenant (stampTenant "second") := by decide
  have other : "first" ≠ "second" := by decide
  intro op member
  simp [foreignRun] at member
  rcases member with rfl | rfl | rfl | rfl | rfl
  exacts [stored, stored, synced, other, other]

theorem foreignRun_tenant_untouched :
    Untouched "first" (FactStore.run sampleEnv {} danglingRun).toMemory
        ((FactStore.run sampleEnv {} danglingRun).run sampleEnv (foreignRun "y")).toMemory ∧
      Untouched "first" (FactStore.with_persistence sampleEnv.policy (FactStore.run sampleEnv {} danglingRun).journal).toMemory
        (FactStore.with_persistence sampleEnv.policy
          ((FactStore.run sampleEnv {} danglingRun).run sampleEnv (foreignRun "y")).journal).toMemory :=
  tenant_untouched sampleEnv "first" danglingRun (foreignRun "y") (by decide) (foreignRun_not_for "y") (by decide) (by decide)

/-- A sync for another tenant that brings in the awaited id clears the link. -/
theorem sync_clears_foreign_link :
    FactStore.Meets sampleEnv (fun s op => op.Fresh s) {} (danglingRun ++ foreignRun "x") ∧
      (∀ op ∈ foreignRun "x", ¬ op.isFor "first") ∧
      (((FactStore.run sampleEnv {} danglingRun).get_for_tenant "a" "first").map Fact.superseded_by) = some (some "x") ∧
      (((FactStore.run sampleEnv {} danglingRun).run sampleEnv (foreignRun "x")).get_for_tenant "a" "first").map
        Fact.superseded_by = some none :=
  ⟨by decide, foreignRun_not_for "x", by decide, by decide⟩

end Crux.Facts
