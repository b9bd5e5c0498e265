import Crux.FactHeads

/-!
# A journal that restores a store in another order

A compacted journal lists the facts by their time stamps, so when clocks run
backwards its replay holds the facts of the store in another order. No line of a
journal looks at the order: two memories with the same facts stay so, and the
journal restores every fact that was not deleted when it was compacted.
-/

namespace Crux.Facts
namespace Memory

structure Shuffled (m m' : Memory) : Prop where
  facts : m.facts.Perm m'.facts
  sources : m.consolidation_sources = m'.consolidation_sources

section
variable {m m' : Memory}

theorem Shuffled.refl (m : Memory) : Shuffled m m := ⟨.refl _, rfl⟩

variable (shuffled : Shuffled m m')
include shuffled

theorem Shuffled.nodup (nodup : m.ids.Nodup) : m'.ids.Nodup :=
  (shuffled.facts.map Fact.fact_id).nodup_iff.mp nodup

theorem Shuffled.lookup (nodup : m.ids.Nodup) (id : String) : m.lookup id = m'.lookup id := by
  cases found : m.lookup id with
  | none =>
    refine (lookup_none.mpr fun f member => ?_).symm
    exact lookup_none.mp found f (shuffled.facts.mem_iff.mpr member)
  | some f =>
    obtain ⟨member, rfl⟩ := lookup_some found
    exact (lookup_of_mem (shuffled.nodup nodup) (shuffled.facts.mem_iff.mp member)).symm

theorem Shuffled.active (id tenant : String) :
    m.active_consolidation_for_source id tenant = m'.active_consolidation_for_source id tenant := by
  unfold active_consolidation_for_source
  rw [shuffled.facts.any_eq]
  congr 1
  funext canonical
  unfold retires
  rw [shuffled.sources]

theorem Shuffled.protectedSource (nodup : m.ids.Nodup) (id : String) :
    m.protectedSource id = m'.protectedSource id := by
  unfold Memory.protectedSource is_active_consolidation_source_for_tenant
  rw [shuffled.lookup nodup]
  simp only [shuffled.active]

theorem Shuffled.edgesAre (nodup : m.ids.Nodup) (tenant : String) (successor : Option String)
    (ids : List String) : m.edgesAre tenant successor ids = m'.edgesAre tenant successor ids := by
  unfold Memory.edgesAre
  simp only [shuffled.lookup nodup]

theorem Shuffled.sameTenant (nodup : m.ids.Nodup) (a b : String) :
    m.sameTenant a b = m'.sameTenant a b := by
  unfold Memory.sameTenant
  rw [shuffled.lookup nodup a, shuffled.lookup nodup b]

theorem Shuffled.modify (id : String) (h : Fact → Fact) : Shuffled (m.modify id h) (m'.modify id h) :=
  ⟨shuffled.facts.map _, shuffled.sources⟩

theorem Shuffled.retireAll (keep : Fact → Bool) (ids : List String) (successor : Option String) :
    Shuffled (m.retireAll keep ids successor) (m'.retireAll keep ids successor) :=
  ⟨shuffled.facts.map _, shuffled.sources⟩

theorem Shuffled.recordSources (id : String) (ids : List String) :
    Shuffled (m.recordSources id ids) (m'.recordSources id ids) :=
  ⟨shuffled.facts, congrArg (fun sources => KeyMap.insert sources id ids) shuffled.sources⟩

theorem Shuffled.insert (fact : Fact) :
    Shuffled (m.insert_fact_indexes fact) (m'.insert_fact_indexes fact) :=
  ⟨shuffled.facts.append_right _, shuffled.sources⟩

theorem Shuffled.replay_journal_insert (nodup : m.ids.Nodup) (policy : PrivacyPolicy) (fact : Fact) :
    Shuffled (m.replay_journal_insert policy fact).1 (m'.replay_journal_insert policy fact).1 ∧
      (m.replay_journal_insert policy fact).2 = (m'.replay_journal_insert policy fact).2 := by
  unfold Memory.replay_journal_insert
  dsimp only
  rw [shuffled.lookup nodup]
  split_ifs
  · exact ⟨shuffled, rfl⟩
  · exact ⟨shuffled.insert _, rfl⟩

variable {policy : PrivacyPolicy}

theorem Shuffled.replayBatch (sound : Sound policy m) (facts : List Fact) :
    Shuffled (Memory.replayBatch policy m facts) (Memory.replayBatch policy m' facts) := by
  induction facts generalizing m m' with
  | nil => exact shuffled
  | cons fact rest ih =>
    exact ih (shuffled.replay_journal_insert sound.nodup policy fact).1 (sound.replay_journal_insert fact)

theorem Shuffled.replayConsolidate (nodup : m.ids.Nodup) (policy : PrivacyPolicy) (canonical : Fact)
    (ids : List String) :
    Shuffled (Memory.replayConsolidate policy m canonical ids) (Memory.replayConsolidate policy m' canonical ids) := by
  unfold Memory.replayConsolidate sourcesValid
  dsimp only
  rw [shuffled.lookup nodup, shuffled.edgesAre nodup]
  obtain ⟨inserted, flag⟩ :=
    shuffled.replay_journal_insert nodup policy { canonical with tenant_hash := stampTenant canonical.tenant_hash }
  split_ifs
  · exact shuffled
  · generalize m.replay_journal_insert policy { canonical with tenant_hash := stampTenant canonical.tenant_hash } = left at inserted flag
    generalize m'.replay_journal_insert policy { canonical with tenant_hash := stampTenant canonical.tenant_hash } = right
      at inserted flag
    obtain ⟨n, fresh⟩ := left
    obtain ⟨n', fresh'⟩ := right
    cases flag
    cases fresh with
    | false => exact inserted
    | true => exact (inserted.retireAll _ _ _).recordSources _ _

theorem Shuffled.replayUndo (nodup : m.ids.Nodup) (id : String) (restored : List String) :
    Shuffled (m.replayUndo id restored) (m'.replayUndo id restored) := by
  unfold Memory.replayUndo canUndo
  rw [shuffled.lookup nodup, shuffled.sources]
  cases m'.lookup id with
  | none => exact shuffled
  | some canonical =>
    dsimp only
    rw [shuffled.edgesAre nodup]
    split_ifs
    · exact (shuffled.modify _ _).retireAll _ _ _
    · exact shuffled

/-- No line of a journal looks at the order of the facts. -/
theorem Shuffled.apply (sound : Sound policy m) (e : JournalEvent) :
    Shuffled (applyEvent policy m e) (applyEvent policy m' e) := by
  have nodup := sound.nodup
  cases e with
  | Store fact => exact (shuffled.replay_journal_insert nodup policy fact).1
  | StoreBatch facts => exact shuffled.replayBatch sound facts
  | Delete id =>
    dsimp only [applyEvent, replayDelete]
    rw [shuffled.sources, shuffled.protectedSource nodup]
    split_ifs
    exacts [shuffled, shuffled.modify _ _]
  | Supersede id successor =>
    dsimp only [applyEvent, replaySupersede]
    rw [shuffled.sameTenant nodup, shuffled.protectedSource nodup]
    split_ifs
    exacts [shuffled.modify _ _, shuffled]
  | ClearSupersede id =>
    dsimp only [applyEvent, replayClear]
    rw [shuffled.protectedSource nodup]
    split_ifs
    exacts [shuffled, shuffled.modify _ _]
  | SetValidity id valid_from valid_to => exact shuffled.modify _ _
  | Consolidate canonical ids => exact shuffled.replayConsolidate nodup policy canonical ids
  | ConsolidateUndo id restored => exact shuffled.replayUndo nodup id restored
  | ConsolidationProvenance id ids tenant =>
    dsimp only [applyEvent, replayProvenance]
    rw [shuffled.lookup nodup, shuffled.edgesAre nodup]
    split_ifs
    exacts [shuffled.recordSources _ _, shuffled]

theorem Shuffled.sound (sound : Sound policy m) : Sound policy m' where
  nodup := shuffled.nodup sound.nodup
  settled f member := sound.settled f (shuffled.facts.mem_iff.mpr member)
  sourced id unknown := by
    rw [← shuffled.sources]
    exact sound.sourced id ((shuffled.lookup sound.nodup id).trans unknown)

theorem Shuffled.kindLinks (kind : KindLinks m) : KindLinks m' where
  ahead f left g right := kind.ahead f (shuffled.facts.mem_iff.mpr left) g (shuffled.facts.mem_iff.mpr right)
  back f left g right := kind.back f (shuffled.facts.mem_iff.mpr left) g (shuffled.facts.mem_iff.mpr right)

theorem Shuffled.edges (nodup : m.ids.Nodup) (edges : Edges m) : Edges m' := by
  intro c member alive ids recorded
  rw [← shuffled.edgesAre nodup]
  exact edges c (shuffled.facts.mem_iff.mpr member) alive ids (shuffled.sources ▸ recorded)

theorem Shuffled.newFact (new : NewFact m fact) : NewFact m' fact where
  unseen f member := new.unseen f (shuffled.facts.mem_iff.mpr member)
  unretired := new.unretired
  chained := new.chained.imp id fun ⟨p, member, link⟩ => ⟨p, shuffled.facts.mem_iff.mp member, link⟩

theorem Shuffled.newBatch {facts : List Fact} (new : NewBatch policy m facts) :
    NewBatch policy m' facts := by
  induction facts generalizing m m' with
  | nil => exact new
  | cons fact rest ih => exact ⟨new.1, shuffled.newFact new.2.1, ih (shuffled.insert fact) new.2.2⟩

theorem Shuffled.tame (tame : Tame policy gone m e) : Tame policy gone m' e := by
  cases e with
  | Store fact => exact ⟨tame.1, shuffled.newFact tame.2⟩
  | StoreBatch facts => exact shuffled.newBatch tame
  | Consolidate canonical ids => exact shuffled.newFact tame
  | _ => exact tame

theorem Shuffled.without (gone : List String) : Shuffled (m.without gone) (m'.without gone) :=
  ⟨shuffled.facts.filter _, by unfold Memory.without; rw [shuffled.sources]⟩

end

end Memory

open Memory

theorem Writes.shuffled (writes : Writes policy (Tame policy gone) sure s s') (sound : Sound policy s.toMemory)
    (shuffled : Shuffled s.toMemory m) : Sound policy s'.toMemory ∧ ∃ m', Shuffled s'.toMemory m' ∧
      Writes policy (Tame policy gone) sure ⟨m, s.journal⟩ ⟨m', s'.journal⟩ := by
  induction writes generalizing m with
  | nothing s => exact ⟨sound, m, shuffled, .nothing _⟩
  | @line s s' e written kept tame memory journal =>
    rw [memory]
    refine ⟨sound.apply e, applyEvent policy m e, shuffled.apply sound e, ?_⟩
    refine .line e written kept (shuffled.tame tame) rfl ?_
    rw [journal_append, journal, journal_append]
  | trans _ _ first second =>
    obtain ⟨sound', m', shuffled', writes'⟩ := first sound shuffled
    obtain ⟨sound'', m'', shuffled'', writes''⟩ := second sound' shuffled'
    exact ⟨sound'', m'', shuffled'', writes'.trans writes''⟩

/-- The journal of a store replays to its facts in some order, apart from those that are gone. -/
def Restores (policy : PrivacyPolicy) (gone : List String) (s : FactStore) : Prop :=
  ∃ m, Shuffled s.toMemory m ∧ Faithful policy gone ⟨m, s.journal⟩

theorem restores_empty (policy : PrivacyPolicy) : Restores policy [] {} := ⟨{}, .refl _, .empty policy⟩

section
variable {policy : PrivacyPolicy} {gone : List String} {s : FactStore}

theorem Restores.reopen (restores : Restores policy gone s) :
    Shuffled (s.toMemory.without gone) (FactStore.with_persistence policy s.journal).toMemory ∧
      Restores policy [] (FactStore.with_persistence policy s.journal) := by
  obtain ⟨m, shuffled, faithful⟩ := restores
  obtain ⟨memory, again⟩ := faithful.reopen
  constructor
  · have same : (FactStore.with_persistence policy s.journal).toMemory = m.without gone := memory
    rw [same]
    exact shuffled.without gone
  · exact ⟨_, .refl _, again⟩

theorem Restores.dead (restores : Restores policy gone s) (member : f ∈ s.facts) (out : f.fact_id ∈ gone) :
    f.deleted = true := by
  obtain ⟨m, shuffled, faithful⟩ := restores
  obtain ⟨link, twin⟩ := faithful.twin
  exact twin.dead f (shuffled.facts.mem_iff.mp member) out

theorem Restores.lookup (restores : Restores policy gone s) (nodup : s.ids.Nodup) {id : String} :
    (FactStore.with_persistence policy s.journal).lookup id = if id ∈ gone then none else s.lookup id := by
  have part : (s.toMemory.without gone).ids.Nodup := (List.filter_sublist.map Fact.fact_id).nodup nodup
  rw [← restores.reopen.1.lookup part]
  split_ifs with out
  · refine lookup_none.mpr fun f member same => ?_
    have kept := (List.mem_filter.mp member).2
    rw [same] at kept
    simp [out] at kept
  · exact lookup_without out

/-- One call whose writes succeed, apart from compactions, reopenings and syncs. -/
theorem Restores.step {env : Env} (restores : Restores env.policy gone s) (sound : Sound env.policy s.toMemory) {op : Op}
    (in_place : op.compacts = false ∧ op.reopens = false) (local_op : op.syncs = false) (written : op.written = true)
    (fresh : op.Fresh s) (finite : op.finite = true)
    (unmarked : ∀ tenant target successor first, op = .mark_superseded tenant target successor first → successor ∉ gone) :
    Restores env.policy gone (s.step env op) := by
  obtain ⟨m, shuffled, faithful⟩ := restores
  obtain ⟨link, twin⟩ := faithful.twin
  have kept : ∀ id ∈ op.drawn, id ∉ gone := by
    intro id drawn
    refine twin.toMirror.not_gone (lookup_none.mpr fun f member => ?_)
    exact (fresh.2 id drawn f (shuffled.facts.mem_iff.mpr member)).1
  have writes : Writes env.policy (Tame env.policy gone) true s (s.step env op) :=
    (writes_step sound in_place local_op fresh fun _ => ⟨written, finite⟩).imp fun _ _ line => line.tame kept unmarked
  obtain ⟨_, m', shuffled', writes'⟩ := writes.shuffled sound shuffled
  exact ⟨m', shuffled', faithful.writes writes'⟩

end

theorem sortIds_perm (perm : a.Perm b) : sortIds a = sortIds b := by
  refine List.Perm.eq_of_pairwise' (r := (· ≤ ·)) (List.pairwise_insertionSort _ _) (List.pairwise_insertionSort _ _) ?_
  exact (List.perm_insertionSort _ _).trans (perm.trans (List.perm_insertionSort _ _).symm)

theorem Memory.Shuffled.liveSorted (shuffled : Shuffled m m') (nodup : m.ids.Nodup) : m.liveSorted = m'.liveSorted := by
  have perm : m.liveSorted.Perm m'.liveSorted :=
    (liveSorted_perm m).trans ((shuffled.facts.filter _).trans (liveSorted_perm m').symm)
  refine List.Perm.eq_of_pairwise (fun a b left right before after => ?_) (liveSorted_sorted m) (liveSorted_sorted m') perm
  have member := (mem_liveSorted.mp left).1
  have member' := (mem_liveSorted.mp (perm.mem_iff.mpr right)).1
  exact List.inj_on_of_nodup_map nodup member member' (storedBefore_antisymm before after)

theorem Memory.Shuffled.compactedLines (shuffled : Shuffled m m') (nodup : m.ids.Nodup) :
    m.compactedLines = m'.compactedLines := by
  have provenance : m.provenanceLine = m'.provenanceLine := by
    funext id
    unfold provenanceLine
    rw [shuffled.sources, shuffled.lookup nodup]
  unfold Memory.compactedLines
  rw [shuffled.liveSorted nodup, provenance, sortIds_perm (shuffled.facts.map Fact.fact_id),
    sortIds_perm ((shuffled.facts.filter _).map Fact.fact_id)]

/-- The facts by their time stamps. -/
def Memory.sorted (m : Memory) : Memory := { m with facts := m.facts.insertionSort storedBefore }

theorem Memory.shuffled_sorted (m : Memory) : Shuffled m m.sorted := ⟨(List.perm_insertionSort _ _).symm, rfl⟩

theorem Memory.liveSorted_sorted_self (m : Memory) : m.sorted.liveSorted = m.sorted.facts.filter fun f => !f.deleted :=
  ((List.pairwise_insertionSort storedBefore m.facts).filter _).insertionSort_eq

theorem restores_compacted {policy : PrivacyPolicy} {s : FactStore} (whole : Whole policy s.toMemory)
    (finite : ∀ f ∈ s.facts, f.deleted = false → f.confidence.is_finite = true) :
    ∃ gone, Restores policy gone { s with journal := s.compactedLines } ∧
      ∀ f ∈ s.facts, f.fact_id ∈ gone ↔ f.deleted = true := by
  have shuffled := shuffled_sorted s.toMemory
  have nodup := whole.sound.nodup
  have mem : ∀ f, f ∈ s.facts ↔ f ∈ s.toMemory.sorted.facts := fun f => shuffled.facts.mem_iff
  have sorted : Whole policy s.toMemory.sorted :=
    ⟨shuffled.sound whole.sound, shuffled.kindLinks whole.kind, shuffled.edges nodup whole.edges⟩
  have faithful := @faithful_compacted policy ⟨s.toMemory.sorted, s.journal⟩ sorted (liveSorted_sorted_self _)
    fun f member => finite f ((mem f).mpr member)
  refine ⟨s.toMemory.sorted.deletedIds, ⟨s.toMemory.sorted, shuffled, ?_⟩, ?_⟩
  · rw [shuffled.compactedLines nodup]
    exact faithful
  · intro f member
    exact mem_deletedIds sorted.sound.nodup ((mem f).mp member)

end Crux.Facts
