import Crux.FactEdges
import Crux.FactVersions

/-!
# What compaction keeps

The lines of a compacted journal replay to the facts that are not deleted, in the
order of their time stamps, with the consolidations in force. A reader and the
next version of every chain see no difference exactly when every such fact can be
written and the newest of every chain is also the latest.
-/

namespace Crux.Facts
open List FactStore
namespace Memory

theorem storedBefore_total (a b : Fact) : storedBefore a b ∨ storedBefore b a := by
  rcases lt_trichotomy a.stored_at b.stored_at with before | same | after
  · exact .inl (.inl before)
  · rcases String.le_total a.fact_id b.fact_id with le | ge
    · exact .inl (.inr ⟨same, le⟩)
    · exact .inr (.inr ⟨same.symm, ge⟩)
  · exact .inr (.inl after)

theorem storedBefore_trans (first : storedBefore a b) (second : storedBefore b c) : storedBefore a c := by
  rcases first with before | ⟨same, le⟩
  · rcases second with before' | ⟨same', _⟩
    · exact .inl (lt_trans before before')
    · exact .inl (same' ▸ before)
  · rcases second with before' | ⟨same', le'⟩
    · exact .inl (same ▸ before')
    · exact .inr ⟨same.trans same', String.le_trans le le'⟩

theorem storedBefore_antisymm (first : storedBefore a b) (second : storedBefore b a) : a.fact_id = b.fact_id := by
  rcases first with before | ⟨same, le⟩
  · rcases second with after | ⟨same, _⟩
    · exact absurd before (lt_asymm after)
    · exact absurd before (same ▸ lt_irrefl _)
  · rcases second with after | ⟨_, ge⟩
    · exact absurd after (same ▸ lt_irrefl _)
    · exact String.le_antisymm le ge

instance : Std.Total storedBefore := ⟨storedBefore_total⟩

instance : IsTrans Fact storedBefore := ⟨fun _ _ _ => storedBefore_trans⟩

theorem liveSorted_perm (m : Memory) : m.liveSorted.Perm (m.facts.filter fun f => !f.deleted) :=
  perm_insertionSort _ _

theorem mem_liveSorted {m : Memory} : f ∈ m.liveSorted ↔ f ∈ m.facts ∧ f.deleted = false := by
  rw [m.liveSorted_perm.mem_iff, mem_filter, Bool.not_eq_true']

theorem liveSorted_sorted (m : Memory) : m.liveSorted.Pairwise storedBefore := pairwise_insertionSort _ _

theorem liveSorted_nodup {m : Memory} (nodup : m.ids.Nodup) : (m.liveSorted.map Fact.fact_id).Nodup := by
  rw [(m.liveSorted_perm.map Fact.fact_id).nodup_iff]
  exact (filter_sublist.map Fact.fact_id).nodup nodup

theorem modify_same {m : Memory} {id : String} (same : ∀ f ∈ m.facts, f.fact_id = id → h f = f) :
    m.modify id h = m := by
  have still : m.facts.map (fun f => if f.fact_id = id then h f else f) = m.facts := by
    conv_rhs => rw [← map_id m.facts]
    refine map_congr_left fun f member => ?_
    split_ifs with here
    · exact same f member here
    · rfl
  unfold modify
  rw [still]

theorem replaySupersede_same {m : Memory} (link : f.superseded_by = some successor)
    (only : ∀ g ∈ m.facts, g.fact_id = f.fact_id → g = f) : m.replaySupersede f.fact_id successor = m := by
  unfold replaySupersede
  split_ifs
  · refine modify_same fun g member same => ?_
    rw [only g member same]
    unfold setSupersededBy
    rw [← link]
  · rfl

section
variable {policy : PrivacyPolicy} {m : Memory}

theorem replay_storeLines_one {f : Fact} (settled : Settled policy f) (unknown : m.lookup f.fact_id = none) :
    (storeLines f).foldl (replayEvent policy) m = { m with facts := m.facts ++ [f].filter fun f => f.confidence.is_finite } := by
  have stored : replayEvent policy m (.Store f) = { m with facts := m.facts ++ [f].filter fun f => f.confidence.is_finite } := by
    unfold replayEvent
    split_ifs with readable
    · dsimp only [applyEvent]
      rw [replay_journal_insert_new settled unknown]
      have finite : f.confidence.is_finite = true := readable
      simp [insert_fact_indexes, finite]
    · have infinite : f.confidence.is_finite = false := Bool.eq_false_iff.mpr readable
      simp [infinite]
  unfold storeLines
  cases link : f.superseded_by with
  | none =>
    rw [foldl_cons, foldl_nil]
    exact stored
  | some successor =>
    rw [foldl_cons, foldl_cons, foldl_nil, stored]
    refine replaySupersede_same link fun g member same => ?_
    rcases mem_append.mp member with old | new
    · exact absurd same (lookup_none.mp unknown g old)
    · exact mem_singleton.mp (mem_filter.mp new).1

theorem replay_storeLines {list : List Fact} (settled : ∀ f ∈ list, Settled policy f)
    (distinct : (list.map Fact.fact_id).Nodup) (unknown : ∀ f ∈ list, m.lookup f.fact_id = none) :
    (list.flatMap storeLines).foldl (replayEvent policy) m =
      { m with facts := m.facts ++ list.filter fun f => f.confidence.is_finite } := by
  induction list generalizing m with
  | nil => simp
  | cons f rest ih =>
    rw [map_cons, nodup_cons] at distinct
    rw [flatMap_cons, foldl_append,
      replay_storeLines_one (settled f mem_cons_self) (unknown f mem_cons_self),
      ih (fun g later => settled g (mem_cons_of_mem _ later)) distinct.2]
    · simp [filter_cons]
      split_ifs <;> rfl
    · intro g later
      refine lookup_none.mpr fun h member => ?_
      rcases mem_append.mp member with old | new
      · exact lookup_none.mp (unknown g (mem_cons_of_mem _ later)) h old
      · rw [mem_singleton.mp (mem_filter.mp new).1]
        exact fun same => distinct.1 (same ▸ mem_map_of_mem later)

theorem facts_provenanceLines (n : Memory) (xs : List String) :
    ((xs.filterMap m.provenanceLine).foldl (replayEvent policy) n).facts = n.facts := by
  induction xs generalizing n with
  | nil => rfl
  | cons id rest ih =>
    rw [filterMap_cons]
    cases line : m.provenanceLine id with
    | none => exact ih n
    | some e =>
      rw [foldl_cons, ih]
      unfold provenanceLine at line
      split at line
      · cases line
        change (n.replayProvenance _ _ _).facts = _
        unfold replayProvenance
        split_ifs <;> rfl
      · cases line

theorem replayDelete_unknown {id : String} (unknown : m.lookup id = none) : m.replayDelete id = m := by
  unfold replayDelete
  rw [modify_unknown unknown]
  split_ifs <;> rfl

theorem replay_tombstones {xs : List String} (unknown : ∀ id ∈ xs, m.lookup id = none) :
    (xs.map JournalEvent.Delete).foldl (replayEvent policy) m = m := by
  induction xs with
  | nil => rfl
  | cons id rest ih =>
    rw [map_cons, foldl_cons]
    have first : replayEvent policy m (.Delete id) = m := replayDelete_unknown (unknown id mem_cons_self)
    rw [first]
    exact ih fun x later => unknown x (mem_cons_of_mem _ later)

/-- The consolidations in force. -/
def sourcesInForce (m : Memory) : KeyMap String (List String) := fun id =>
  if (m.lookup id).any fun f => !f.deleted then m.consolidation_sources id else none

/-- What a compacted journal brings back. -/
def compacted (m : Memory) : Memory := ⟨m.liveSorted, m.sourcesInForce⟩

variable {n : Memory}

theorem lookup_live {m : Memory} (nodup : m.ids.Nodup) (same : n.facts = m.liveSorted) (id : String) :
    n.lookup id = (m.lookup id).filter fun f => !f.deleted := by
  have n_nodup : n.ids.Nodup := by
    unfold ids
    rw [same]
    exact liveSorted_nodup nodup
  cases found : n.lookup id with
  | some f =>
    obtain ⟨member, named⟩ := lookup_some found
    rw [same, mem_liveSorted] at member
    rw [← named, lookup_of_mem nodup member.1]
    simp [Option.filter, member.2]
  | none =>
    rw [lookup_none, same] at found
    cases known : m.lookup id with
    | none => rfl
    | some f =>
      obtain ⟨member, named⟩ := lookup_some known
      have dead : f.deleted = true := by
        by_contra alive
        exact found f (mem_liveSorted.mpr ⟨member, by simpa using alive⟩) named
      simp [Option.filter, dead]

theorem edgesAre_live (nodup : m.ids.Nodup) (same : n.facts = m.liveSorted) {ids : List String}
    (edges : m.edgesAre tenant successor ids = true) :
    n.edgesAre tenant successor ids = true := by
  refine edgesAre_iff.mpr fun id listed => ?_
  obtain ⟨f, found, alive, rest⟩ := edgesAre_iff.mp edges id listed
  refine ⟨f, ?_, alive, rest⟩
  rw [lookup_live nodup same, found]
  simp [alive]

theorem replay_provenanceLines (nodup : m.ids.Nodup) (edges : Edges m) (same : n.facts = m.liveSorted) (xs : List String) :
    ((xs.filterMap m.provenanceLine).foldl (replayEvent policy) n) =
      { n with consolidation_sources := fun id =>
          if id ∈ xs ∧ (m.sourcesInForce id).isSome then m.sourcesInForce id else n.consolidation_sources id } := by
  induction xs generalizing n with
  | nil => simp
  | cons id rest ih =>
    rw [filterMap_cons]
    cases line : m.provenanceLine id with
    | none =>
      have idle : (m.sourcesInForce id).isSome = false := by
        unfold provenanceLine at line
        unfold sourcesInForce
        cases sources : m.consolidation_sources id with
        | none => split_ifs <;> rfl
        | some ids =>
          cases found : m.lookup id with
          | none => rfl
          | some f =>
            rw [sources, found] at line
            cases dead : f.deleted with
            | true => simp [dead]
            | false => simp [Option.filter, dead] at line
      rw [ih same]
      congr 1
      funext x
      by_cases own : x = id
      · simp [own, idle]
      · simp [own]
    | some e =>
      rw [foldl_cons]
      unfold provenanceLine at line
      split at line
      · rename_i ids canonical sources found
        cases line
        rw [Option.filter_eq_some_iff] at found
        obtain ⟨member, named⟩ := lookup_some found.1
        have alive : canonical.deleted = false := by simpa using found.2
        have force : m.sourcesInForce id = some ids := by
          unfold sourcesInForce
          rw [found.1]
          simp [alive, sources]
        obtain ⟨some_source, all⟩ := edges canonical member alive ids (named.symm ▸ sources)
        have accepted : replayEvent policy n (.ConsolidationProvenance id ids canonical.tenant_hash) = n.recordSources id ids := by
          change n.replayProvenance id ids canonical.tenant_hash = _
          unfold replayProvenance
          rw [if_pos]
          rw [lookup_live nodup same, found.1]
          have edge := edgesAre_live nodup same all
          rw [named] at edge
          simp [Option.filter, alive, some_source, edge]
        rw [accepted, ih (n := n.recordSources id ids) same]
        unfold recordSources
        congr 1
        funext x
        dsimp only
        rw [KeyMap.insert_apply]
        by_cases own : x = id
        · simp [own, force]
        · simp [own]
      · cases line

theorem unknown_of_deleted (nodup : m.ids.Nodup) (kept : ∀ f ∈ n.facts, f ∈ m.facts ∧ f.deleted = false) {id : String}
    (listed : id ∈ sortIds ((m.facts.filter fun f => f.deleted).map Fact.fact_id)) : n.lookup id = none := by
  refine lookup_none.mpr fun f member same => ?_
  rw [sortIds, mem_insertionSort] at listed
  obtain ⟨g, there, g_id⟩ := mem_map.mp listed
  obtain ⟨old, dead⟩ := mem_filter.mp there
  obtain ⟨here, alive⟩ := kept f member
  rw [← inj_on_of_nodup_map nodup here old (same.trans g_id.symm), alive] at dead
  cases dead

/-- The facts come first, then the consolidations; the tombstones have nothing to bury. -/
theorem replay_compactedLines_stages (sound : Sound policy m) : replayLines policy m.compactedLines =
      ((sortIds (m.facts.map Fact.fact_id)).filterMap m.provenanceLine).foldl (replayEvent policy)
        { facts := m.liveSorted.filter fun f => f.confidence.is_finite } := by
  unfold replayLines compactedLines
  rw [foldl_append, foldl_append, replay_storeLines, replay_tombstones]
  · rfl
  · intro id listed
    refine unknown_of_deleted sound.nodup (fun f member => ?_) listed
    rw [facts_provenanceLines] at member
    exact mem_liveSorted.mp (mem_filter.mp member).1
  · exact fun f member => sound.settled f (mem_liveSorted.mp member).1
  · exact liveSorted_nodup sound.nodup
  · exact fun f _ => rfl

theorem facts_compactedLines (sound : Sound policy m) :
    (replayLines policy m.compactedLines).facts = m.liveSorted.filter fun f => f.confidence.is_finite := by
  rw [replay_compactedLines_stages sound, facts_provenanceLines]

/-- The lines of a compacted journal, when all facts that are kept can be written. -/
theorem replay_compactedLines (sound : Sound policy m) (edges : Edges m)
    (finite : ∀ f ∈ m.facts, f.deleted = false → f.confidence.is_finite = true) :
    replayLines policy m.compactedLines = m.compacted := by
  have all : m.liveSorted.filter (fun f => f.confidence.is_finite) = m.liveSorted := by
    refine filter_eq_self.mpr fun f member => ?_
    obtain ⟨there, alive⟩ := mem_liveSorted.mp member
    exact finite f there alive
  rw [replay_compactedLines_stages sound, all, replay_provenanceLines sound.nodup edges rfl]
  congr 1
  funext id
  change (if id ∈ sortIds (m.facts.map Fact.fact_id) ∧ (m.sourcesInForce id).isSome = true then m.sourcesInForce id
    else none) = m.sourcesInForce id
  cases force : m.sourcesInForce id with
  | none => simp
  | some ids =>
    have known : id ∈ sortIds (m.facts.map Fact.fact_id) := by
      rw [sortIds, mem_insertionSort]
      cases found : m.lookup id with
      | none => simp [sourcesInForce, found] at force
      | some f =>
        obtain ⟨member, named⟩ := lookup_some found
        exact mem_map.mpr ⟨f, member, named⟩
    simp [known]

theorem kindLinks_compacted (kind : KindLinks m) : KindLinks m.compacted := by
  constructor
  · intro f left g right named
    exact kind.ahead f (mem_liveSorted.mp left).1 g (mem_liveSorted.mp right).1 named
  · intro f left g right named
    exact kind.back f (mem_liveSorted.mp left).1 g (mem_liveSorted.mp right).1 named

/-- The newest fact of a chain is the latest one that is not deleted. -/
def InOrder (m : Memory) : Prop :=
  ∀ p ∈ m.facts, m.newest p.chainKey = some p → ∀ f ∈ m.facts, f.chainKey = p.chainKey → f.deleted = false → storedBefore f p

variable {c : ChainKey}

theorem newest_none (none : m.newest c = none) (member : f ∈ m.facts) (chain : f.chainKey = c) : f.deleted = true := by
  unfold newest at none
  rw [find?_eq_none] at none
  have dead := none f (mem_reverse.mpr (mem_filter.mpr ⟨member, by simpa using chain⟩))
  simpa using dead

theorem newest_compacted (m : Memory) (c : ChainKey) :
    m.compacted.newest c = (m.liveSorted.filter fun f => f.chainKey = c).getLast? := by
  change (m.liveSorted.filter fun f => f.chainKey = c).reverse.find? (fun f => !f.deleted) = _
  have alive : ∀ f ∈ m.liveSorted.filter fun f => f.chainKey = c, f.deleted = false := fun f member =>
    (mem_liveSorted.mp (mem_filter.mp member).1).2
  generalize (m.liveSorted.filter fun f => f.chainKey = c) = list at alive ⊢
  rcases eq_nil_or_concat list with rfl | ⟨init, last, rfl⟩
  · rfl
  · rw [concat_eq_append] at alive ⊢
    rw [reverse_append, reverse_singleton, singleton_append, find?_cons, alive last (by simp),
      getLast?_append, getLast?_singleton]
    rfl

theorem last_compacted {q : Fact} (last : m.compacted.newest c = some q) : (q ∈ m.facts ∧ q.chainKey = c ∧ q.deleted = false) ∧
      ∀ f ∈ m.facts, f.chainKey = c → f.deleted = false → storedBefore f q := by
  rw [newest_compacted] at last
  have sorted : (m.liveSorted.filter fun f => f.chainKey = c).Pairwise storedBefore :=
    m.liveSorted_sorted.sublist filter_sublist
  have of_chain : ∀ f, f ∈ (m.liveSorted.filter fun f => f.chainKey = c) ↔
      (f ∈ m.facts ∧ f.deleted = false) ∧ f.chainKey = c := by
    intro f
    rw [mem_filter, mem_liveSorted, decide_eq_true_eq]
  generalize (m.liveSorted.filter fun f => f.chainKey = c) = list at last sorted of_chain
  rcases eq_nil_or_concat list with rfl | ⟨init, q', rfl⟩
  · cases last
  · rw [concat_eq_append] at last sorted of_chain
    rw [getLast?_append, getLast?_singleton] at last
    cases last
    obtain ⟨⟨there, alive⟩, chain⟩ := (of_chain q).mp (by simp)
    refine ⟨⟨there, chain, alive⟩, fun f member f_chain f_alive => ?_⟩
    rcases mem_append.mp ((of_chain f).mpr ⟨⟨member, f_alive⟩, f_chain⟩) with before | same
    · exact (pairwise_append.mp sorted).2.2 f before q (by simp)
    · rw [mem_singleton.mp same]
      exact .inr ⟨rfl, String.le_refl _⟩

theorem newest_compacted_none : m.compacted.newest c = none ↔ m.newest c = none := by
  constructor
  · intro idle
    cases found : m.newest c with
    | none => rfl
    | some p =>
      obtain ⟨member, chain, alive⟩ := newest_mem found
      rw [newest_compacted, getLast?_eq_none_iff, filter_eq_nil_iff] at idle
      exact absurd chain (by simpa using idle p (mem_liveSorted.mpr ⟨member, alive⟩))
  · intro idle
    cases found : m.compacted.newest c with
    | none => rfl
    | some q =>
      obtain ⟨⟨there, chain, alive⟩, _⟩ := last_compacted found
      rw [newest_none idle there chain] at alive
      cases alive

theorem newest_compacted_iff (nodup : m.ids.Nodup) : (∀ c, m.compacted.newest c = m.newest c) ↔ m.InOrder := by
  constructor
  · intro same p member newest f there chain alive
    exact (last_compacted ((same p.chainKey).trans newest)).2 f there chain alive
  · intro order c
    cases found : m.newest c with
    | none => exact newest_compacted_none.mpr found
    | some p =>
      obtain ⟨member, chain, alive⟩ := newest_mem found
      cases last : m.compacted.newest c with
      | none =>
        rw [newest_compacted_none, found] at last
        cases last
      | some q =>
        obtain ⟨⟨there, q_chain, q_alive⟩, latest⟩ := last_compacted last
        have before := order p member (chain ▸ found) q there (q_chain.trans chain.symm) q_alive
        have after := latest p member chain alive
        rw [inj_on_of_nodup_map nodup there member (storedBefore_antisymm before after)]

end

end Memory

open Memory

/-- Nobody sees that the journal of a store was rewritten. -/
structure Transparent (policy : PrivacyPolicy) (s : FactStore) (file : List JournalEvent) : Prop where
  kept : ∀ f ∈ s.facts, f.deleted = false → (FactStore.with_persistence policy file).lookup f.fact_id = some f
  erased : ∀ line ∈ file, ∀ f ∈ line.created, f ∈ s.facts ∧ f.deleted = false
  provenance : ∀ c ∈ s.facts, c.deleted = false →
    (FactStore.with_persistence policy file).consolidation_sources c.fact_id = s.consolidation_sources c.fact_id
  next : ∀ req stamp written superseded,
    (FactStore.store policy (FactStore.with_persistence policy file) req stamp written superseded).2.version =
        (FactStore.store policy s req stamp written superseded).2.version ∧
      (FactStore.store policy (FactStore.with_persistence policy file) req stamp written superseded).2.supersedes =
        (FactStore.store policy s req stamp written superseded).2.supersedes

section
variable {policy : PrivacyPolicy} {m : Memory}

theorem reopen_compacted (whole : Whole policy m) (finite : ∀ f ∈ m.facts, f.deleted = false → f.confidence.is_finite = true) :
    (with_persistence policy m.compactedLines).toMemory = m.compacted := by
  change (replayLines policy m.compactedLines).sanitize_replayed_links = m.compacted
  rw [replay_compactedLines whole.sound whole.edges finite, sanitize_of_kind (kindLinks_compacted whole.kind)]

theorem created_storeLines (member : line ∈ storeLines f) (made : g ∈ line.created) : g = f := by
  unfold storeLines at member
  split at member
  · rcases mem_cons.mp member with rfl | later
    · exact mem_singleton.mp made
    · rw [mem_singleton.mp later] at made
      cases made
  · rw [mem_singleton.mp member] at made
    exact mem_singleton.mp made

theorem created_compactedLines {line : JournalEvent} (member : line ∈ m.compactedLines) (made : f ∈ line.created) :
    f ∈ m.facts ∧ f.deleted = false := by
  rcases mem_append.mp member with front | tombstone
  · rcases mem_append.mp front with stored | provenance
    · obtain ⟨g, there, of_g⟩ := mem_flatMap.mp stored
      rw [created_storeLines of_g made]
      exact mem_liveSorted.mp there
    · obtain ⟨id, _, some_line⟩ := mem_filterMap.mp provenance
      unfold provenanceLine at some_line
      split at some_line
      · cases some_line
        cases made
      · cases some_line
  · obtain ⟨id, _, rfl⟩ := mem_map.mp tombstone
    cases made

theorem transparent_iff (whole : Whole policy s.toMemory) : Transparent policy s s.compactedLines ↔
      (∀ f ∈ s.facts, f.deleted = false → f.confidence.is_finite = true) ∧ s.InOrder := by
  constructor
  · intro transparent
    have finite : ∀ f ∈ s.facts, f.deleted = false → f.confidence.is_finite = true := by
      intro f member alive
      have found := (lookup_some (transparent.kept f member alive)).1
      obtain ⟨g, there, cleaned⟩ := mem_map.mp
        (show f ∈ (replayLines policy s.compactedLines).facts.map (replayLines policy s.compactedLines).cleanLinks from found)
      rw [facts_compactedLines whole.sound] at there
      have same : g.confidence = f.confidence := by rw [← cleaned]; rfl
      rw [← same]
      exact (mem_filter.mp there).2
    refine ⟨finite, fun p member newest f there chain alive => ?_⟩
    have opened := reopen_compacted whole finite
    obtain ⟨_, p_chain, p_alive⟩ := newest_mem newest
    let req : StoreFact := ⟨p.tenant_hash, p.entity, p.key, "", none, .finite 0, false, none, none⟩
    have key : (enforce_global policy req).chainKey = p.chainKey := by
      rw [chainKey_enforced]
      have stamped := (settled_iff.mp (whole.sound.settled p member)).2
      change (stampTenant p.tenant_hash, p.entity, p.key) = p.chainKey
      rw [stamped]
      rfl
    have next := (transparent.next req ⟨"", 0⟩ true true).2
    change ((with_persistence policy s.compactedLines).newest (enforce_global policy req).chainKey).map Fact.fact_id =
      (s.newest (enforce_global policy req).chainKey).map Fact.fact_id at next
    rw [opened, key, newest] at next
    cases last : s.compacted.newest p.chainKey with
    | none =>
      rw [last] at next
      cases next
    | some q =>
      obtain ⟨⟨q_there, _, _⟩, latest⟩ := last_compacted last
      rw [last, Option.map_some, Option.map_some, Option.some.injEq] at next
      rw [← inj_on_of_nodup_map whole.sound.nodup q_there member next]
      exact latest f there chain alive
  · rintro ⟨finite, order⟩
    have opened := reopen_compacted whole finite
    have same := (newest_compacted_iff whole.sound.nodup).mpr order
    refine ⟨?_, fun line member f made => created_compactedLines member made, ?_, ?_⟩
    · intro f member alive
      rw [opened, lookup_live whole.sound.nodup rfl, lookup_of_mem whole.sound.nodup member]
      simp [Option.filter, alive]
    · intro c member alive
      rw [opened]
      change s.sourcesInForce c.fact_id = _
      unfold sourcesInForce
      rw [lookup_of_mem whole.sound.nodup member]
      simp [alive]
    · intro req stamp written superseded
      unfold store build_fact
      dsimp only
      rw [opened, same]
      exact ⟨rfl, rfl⟩

end

/-- A successful compaction of a reachable store is transparent exactly when every fact it keeps has a finite confidence and
the newest fact of every chain is its latest. -/
theorem compaction_transparent_iff (env : Env) (ops : List Op) (fresh : FactStore.Meets env (fun s op => op.Fresh s) {} ops)
    (succeeds : ((FactStore.run env {} ops).compact_journal env.parse_legal_hold true).2 = true) :
    Transparent env.policy (FactStore.run env {} ops)
        ((FactStore.run env {} ops).compact_journal env.parse_legal_hold true).1.journal ↔
      (∀ f ∈ (FactStore.run env {} ops).facts, f.deleted = false → f.confidence.is_finite = true) ∧
        (FactStore.run env {} ops).InOrder := by
  have file : ((run env {} ops).compact_journal env.parse_legal_hold true).1.journal =
      (run env {} ops).compactedLines := by
    unfold compact_journal at succeeds ⊢
    split_ifs at succeeds ⊢
    rfl
  rw [file]
  exact transparent_iff (whole_run (whole_empty env.policy) fresh)

theorem sampleRun_compaction_transparent_iff :
    Transparent sampleEnv.policy (FactStore.run sampleEnv {} sampleRun)
        ((FactStore.run sampleEnv {} sampleRun).compact_journal sampleEnv.parse_legal_hold true).1.journal ↔
      (∀ f ∈ (FactStore.run sampleEnv {} sampleRun).facts, f.deleted = false → f.confidence.is_finite = true) ∧
        (FactStore.run sampleEnv {} sampleRun).InOrder :=
  compaction_transparent_iff sampleEnv sampleRun (by decide +kernel) (by decide +kernel)

/-- Two versions, the second stored when the clock had gone back. -/
def backwardsRun : List Op :=
  [.store sampleRequest ⟨"a", 2⟩ true true, .store sampleRequest ⟨"b", 1⟩ true true]

/-- After the compaction the first version is taken for the newest, and its successor's number is given out again. -/
theorem compaction_reuses_version :
    FactStore.Meets sampleEnv (fun s op => op.Fresh s ∧ op.written = true ∧ op.finite = true) {} backwardsRun ∧
      ((FactStore.run sampleEnv {} backwardsRun).compact_journal sampleEnv.parse_legal_hold true).2 = true ∧
      (FactStore.store sampleEnv.policy (FactStore.run sampleEnv {} backwardsRun) sampleRequest ⟨"c", 3⟩ true true).2.version = 3 ∧
      (FactStore.store sampleEnv.policy (FactStore.with_persistence sampleEnv.policy
        ((FactStore.run sampleEnv {} backwardsRun).compact_journal sampleEnv.parse_legal_hold true).1.journal)
          sampleRequest ⟨"c", 3⟩ true true).2.version = 2 := by
  decide +kernel

end Crux.Facts
