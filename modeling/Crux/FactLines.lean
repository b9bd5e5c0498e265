import Crux.FactMirror

/-!
# What an operation writes

When its writes succeed, every operation of a store but a sync changes memory by
exactly the lines it appends to the journal.
-/

namespace Crux.Facts
open List FactStore
namespace Memory

/-- Every link to a successor stays in its tenant, every link to the version before in its chain. -/
structure KindLinks (m : Memory) : Prop where
  ahead : ∀ f ∈ m.facts, ∀ g ∈ m.facts, f.superseded_by = some g.fact_id → g.tenant_hash = f.tenant_hash
  back : ∀ f ∈ m.facts, ∀ g ∈ m.facts, f.supersedes = some g.fact_id → g.chainKey = f.chainKey

theorem KindLinks.empty : KindLinks {} := ⟨by simp, by simp⟩

section
variable {m : Memory}

section
variable (kind : KindLinks m)
include kind

theorem KindLinks.each (gentle : Gentle h)
    (new : ∀ f ∈ m.facts, (h f).superseded_by = f.superseded_by ∨ (h f).superseded_by = none ∨
      ∀ g ∈ m.facts, (h f).superseded_by = some g.fact_id → g.tenant_hash = f.tenant_hash) : KindLinks (m.each h) := by
  constructor
  · intro f' left g' right named
    obtain ⟨f, there, rfl⟩ := mem_map.mp left
    obtain ⟨g, here, rfl⟩ := mem_map.mp right
    rw [gentle.fact_id] at named
    rw [gentle.tenant, gentle.tenant]
    rcases new f there with same | cleared | other
    · rw [same] at named
      exact kind.ahead f there g here named
    · rw [cleared] at named
      cases named
    · exact other g here named
  · intro f' left g' right named
    obtain ⟨f, there, rfl⟩ := mem_map.mp left
    obtain ⟨g, here, rfl⟩ := mem_map.mp right
    rw [gentle.supersedes, gentle.fact_id] at named
    rw [gentle.chainKey, gentle.chainKey]
    exact kind.back f there g here named

theorem KindLinks.insert (nodup : m.ids.Nodup) (new : NewFact m fact) :
    KindLinks (m.insert_fact_indexes fact) := by
  constructor
  · intro f left g right named
    rcases mem_append.mp left with old | fresh
    · rcases mem_append.mp right with old' | fresh'
      · exact kind.ahead f old g old' named
      · rw [mem_singleton.mp fresh'] at named
        exact absurd named (new.unseen f old).2.2
    · rw [mem_singleton.mp fresh, new.unretired] at named
      cases named
  · intro f left g right named
    rcases mem_append.mp left with old | fresh
    · rcases mem_append.mp right with old' | fresh'
      · exact kind.back f old g old' named
      · rw [mem_singleton.mp fresh'] at named
        exact absurd named (new.unseen f old).2.1
    · rw [mem_singleton.mp fresh] at named ⊢
      rcases mem_append.mp right with old' | fresh'
      · rcases new.chained with start | ⟨p, there, link, chain⟩
        · rw [start] at named
          cases named
        · rw [link, Option.some.injEq] at named
          rw [← inj_on_of_nodup_map nodup there old' named]
          exact chain
      · rw [mem_singleton.mp fresh']

theorem KindLinks.modify (gentle : Gentle h) (id : String)
    (same : ∀ f, (h f).superseded_by = f.superseded_by ∨ (h f).superseded_by = none) : KindLinks (m.modify id h) := by
  rw [modify_eq_each]
  refine kind.each (gentle_one gentle id) fun f _ => ?_
  by_cases here : f.fact_id = id
  · rcases same f with stay | none
    · exact .inl (by simp [here, stay])
    · exact .inr (.inl (by simp [here, none]))
  · exact .inl (by simp [here])

theorem KindLinks.clear (ids : List String) : KindLinks (m.retireAll (fun _ => true) ids none) := by
  rw [retireAll_eq_each]
  refine kind.each (gentle_retire _ (fun _ _ => rfl) ids none) fun f _ => ?_
  by_cases here : ids.contains f.fact_id
  · exact .inr (.inl (by simp only [here, Bool.and_self, if_true]; rfl))
  · exact .inl (by simp only [here, Bool.false_and, Bool.false_eq_true, if_false])

theorem KindLinks.recordSources (id : String) (ids : List String) :
    KindLinks (m.recordSources id ids) := ⟨kind.ahead, kind.back⟩

theorem KindLinks.replaySupersede (nodup : m.ids.Nodup) (id successor : String) :
    KindLinks (m.replaySupersede id successor) := by
  unfold Memory.replaySupersede
  split_ifs with allowed
  · rw [modify_eq_each]
    refine kind.each (gentle_one (gentle_setSupersededBy _) id) fun f member => ?_
    by_cases here : f.fact_id = id
    · refine .inr (.inr fun g there named => ?_)
      simp [here, setSupersededBy] at named
      simp [Memory.sameTenant] at allowed
      rw [← here, lookup_of_mem nodup member, named, lookup_of_mem nodup there] at allowed
      simp at allowed
      exact allowed.1.symm
    · exact .inl (by simp [here])
  · exact kind

end

theorem edgesAre_mem {tenant : String} {successor : Option String} {ids : List String} (nodup : m.ids.Nodup)
    (edges : m.edgesAre tenant successor ids = true) {f : Fact} (member : f ∈ m.facts) (named : f.fact_id ∈ ids) :
    f.deleted = false ∧ f.tenant_hash = tenant ∧ f.superseded_by = successor := by
  have here := all_eq_true.mp edges f.fact_id named
  rw [lookup_of_mem nodup member] at here
  simp at here
  exact ⟨here.1.1, here.1.2, here.2⟩

variable {policy : PrivacyPolicy}

theorem KindLinks.replayConsolidate (kind : KindLinks m) (sound : Sound policy m) (new : NewFact m (incoming policy canonical))
    (ids : List String) :
    KindLinks (Memory.replayConsolidate policy m canonical ids) := by
  have id := (incoming_fields policy canonical).1
  have unknown : m.lookup canonical.fact_id = none := id ▸ new.unknown
  rcases replayConsolidate_cases policy m canonical ids with skipped | ⟨standing, _, edges⟩
  · rw [skipped]
    exact kind
  · rw [replayConsolidate_eq policy canonical ids unknown standing edges]
    unfold sourcesValid at edges
    simp at edges
    refine KindLinks.recordSources (m := Memory.retireAll _ _ _ _) ?_ _ _
    rw [retireAll_eq_each]
    refine (kind.insert sound.nodup new).each (gentle_retire _ (fun _ _ => rfl) ids _) fun f member => ?_
    by_cases here : f.fact_id ∈ ids
    · refine .inr (.inr fun g there named => ?_)
      have listed : (ids.contains f.fact_id && true) = true := by simp [here]
      simp only [listed, if_true, setSupersededBy, Option.some.injEq] at named
      have g_new : g = incoming policy canonical := by
        rcases mem_append.mp there with old | fresh
        · exact absurd (named.symm.trans id.symm) (new.unseen g old).1
        · exact mem_singleton.mp fresh
      have f_old : f ∈ m.facts := by
        rcases mem_append.mp member with old | fresh
        · exact old
        · rw [mem_singleton.mp fresh, id] at here
          have known := all_eq_true.mp edges.2 canonical.fact_id here
          rw [unknown] at known
          cases known
      rw [g_new, (incoming_fields policy canonical).2.1]
      exact (edgesAre_mem sound.nodup edges.2 f_old here).2.1.symm
    · have listed : (ids.contains f.fact_id && true) = false := by simp [here]
      exact .inl (by simp only [listed, Bool.false_eq_true, if_false])

theorem KindLinks.replayBatch (kind : KindLinks m) (nodup : m.ids.Nodup) {facts : List Fact}
    (new : NewBatch policy m facts) : KindLinks (Memory.replayBatch policy m facts) := by
  induction facts generalizing m with
  | nil => exact kind
  | cons fact rest ih =>
    obtain ⟨settled, first, later⟩ := new
    unfold Memory.replayBatch
    rw [replay_journal_insert_new settled first.unknown]
    exact ih (kind.insert nodup first) (nodup_insert nodup first.unknown) later

theorem KindLinks.apply (kind : KindLinks m) (sound : Sound policy m) (tame : Tame policy gone m e) :
    KindLinks (applyEvent policy m e) := by
  cases e with
  | Store fact =>
    dsimp only [applyEvent]
    rw [replay_journal_insert_new tame.1 tame.2.unknown]
    exact kind.insert sound.nodup tame.2
  | StoreBatch facts => exact kind.replayBatch sound.nodup tame
  | Delete id =>
    dsimp only [applyEvent, replayDelete]
    split_ifs
    exacts [kind, kind.modify gentle_setDeleted id fun _ => .inl rfl]
  | Supersede id successor => exact kind.replaySupersede sound.nodup id successor
  | ClearSupersede id =>
    dsimp only [applyEvent, replayClear]
    split_ifs
    exacts [kind, kind.modify (gentle_setSupersededBy none) id fun _ => .inr rfl]
  | SetValidity id valid_from valid_to =>
    exact kind.modify (gentle_setValidity valid_from valid_to) id fun _ => .inl rfl
  | Consolidate canonical ids => exact kind.replayConsolidate sound tame ids
  | ConsolidationProvenance id ids tenant => exact tame.elim
  | ConsolidateUndo id restored =>
    dsimp only [applyEvent, replayUndo]
    cases m.lookup id with
    | none => exact kind
    | some canonical =>
      dsimp only
      split_ifs
      exacts [(kind.modify gentle_setDeleted id fun _ => .inl rfl).clear _, kind]

end

end Memory

open Memory

/-- A store that changed by allowed events, each appended to its journal or lost; on a sure run none is lost and all can be
read back. -/
inductive Writes (policy : PrivacyPolicy) (allowed : Memory → JournalEvent → Prop) (sure : Bool) :
    FactStore → FactStore → Prop where
  | nothing (s : FactStore) : Writes policy allowed sure s s
  | line {s s' : FactStore} (e : JournalEvent) (written : Bool) (kept : sure = true → written = true ∧ e.readable = true)
      (fits : allowed s.toMemory e) (memory : s'.toMemory = applyEvent policy s.toMemory e)
      (journal : s'.journal = (s.append_journal e written).journal) : Writes policy allowed sure s s'
  | trans {s s' s'' : FactStore} (first : Writes policy allowed sure s s') (second : Writes policy allowed sure s' s'') :
      Writes policy allowed sure s s''

theorem Writes.imp {first second : Memory → JournalEvent → Prop} (more : ∀ m e, first m e → second m e)
    (writes : Writes policy first sure s s') : Writes policy second sure s s' := by
  induction writes with
  | nothing s => exact .nothing s
  | line e written kept fits memory journal => exact .line e written kept (more _ e fits) memory journal
  | trans _ _ left right => exact left.trans right

/-- What holds of a store whose journal replays to it, apart from facts that are gone. -/
structure Faithful (policy : PrivacyPolicy) (gone : List String) (s : FactStore) : Prop where
  sound : Sound policy s.toMemory
  kind : KindLinks s.toMemory
  twin : ∃ link, Twin gone link s.toMemory (replayLines policy s.journal)

theorem replayLines_append (policy : PrivacyPolicy) (journal later : List JournalEvent) :
    replayLines policy (journal ++ later) = later.foldl (replayEvent policy) (replayLines policy journal) := by
  unfold replayLines
  rw [foldl_append]

theorem journal_append (s : FactStore) (e : JournalEvent) (written : Bool) :
    (s.append_journal e written).journal = s.journal ++ if written then [e] else [] := by
  cases written <;> simp [append_journal]

/-- Whatever a store writes on a sure run, its journal still replays to it. -/
theorem Faithful.writes (writes : Writes policy (Tame policy gone) true s s') :
    Faithful policy gone s → Faithful policy gone s' := by
  induction writes with
  | nothing s => exact id
  | @line s s' e written kept tame memory journal =>
    intro faithful
    obtain ⟨sure, readable⟩ := kept rfl
    obtain ⟨link, twin⟩ := faithful.twin
    obtain ⟨link', next⟩ := twin.event faithful.sound.nodup tame
    refine ⟨?_, ?_, link', ?_⟩
    · rw [memory]
      exact faithful.sound.apply e
    · rw [memory]
      exact faithful.kind.apply faithful.sound tame
    · rw [memory, journal, journal_append, sure, if_pos rfl, replayLines_append]
      have read : replayEvent policy s.toMemory e = applyEvent policy s.toMemory e := if_pos readable
      rw [read] at next
      exact next
  | trans _ _ first second => exact fun faithful => second (first faithful)

section
variable {policy : PrivacyPolicy} {allowed : Memory → JournalEvent → Prop} {sure : Bool} {s : FactStore} {written : Bool}

variable {tenant : String} {m : Memory}

theorem protectedSource_of_lookup {id : String} (found : m.lookup id = some f) (own : f.tenant_hash = tenant) :
    m.protectedSource id = m.is_active_consolidation_source_for_tenant id tenant := by
  rw [protectedSource, found, ← own]

theorem writes_mark_superseded
    (fits : s.bothOf tenant target successor = true → allowed s.toMemory (.Supersede target successor))
    (ok : sure = true → written = true) :
    Writes policy allowed sure s (s.mark_superseded tenant target successor written).1 := by
  unfold mark_superseded
  split_ifs with active both
  · exact .nothing s
  · refine .line (.Supersede target successor) written (fun h => ⟨ok h, rfl⟩) (fits both) ?_ rfl
    unfold bothOf at both
    cases first : s.lookup target with
    | none => simp [first] at both
    | some t =>
      cases second : s.lookup successor with
      | none => simp [second] at both
      | some u =>
        simp [first, second] at both
        have same : s.sameTenant target successor = true := by
          unfold sameTenant
          rw [first, second]
          simp [both.1, both.2]
        change _ = s.toMemory.replaySupersede target successor
        unfold replaySupersede
        rw [same, protectedSource_of_lookup first both.1, Bool.eq_false_of_not_eq_true active]
        cases written <;> rfl
  · exact .nothing s

variable {id : String}

theorem writes_clear_superseded
    (fits : ((s.lookup id).any fun f => decide (f.tenant_hash = tenant)) = true → allowed s.toMemory (.ClearSupersede id))
    (ok : sure = true → written = true) : Writes policy allowed sure s (s.clear_superseded tenant id written).1 := by
  unfold clear_superseded
  split_ifs with active there
  · exact .nothing s
  · refine .line (.ClearSupersede id) written (fun h => ⟨ok h, rfl⟩) (fits there) ?_ rfl
    obtain ⟨f, found, own⟩ := (Option.any_eq_true _ _).mp there
    change _ = s.toMemory.replayClear id
    unfold replayClear
    rw [protectedSource_of_lookup found (of_decide_eq_true own), Bool.eq_false_of_not_eq_true active]
    cases written <;> rfl
  · exact .nothing s

theorem writes_set_validity (fits : allowed s.toMemory (.SetValidity id valid_from valid_to))
    (ok : sure = true → written = true) :
    Writes policy allowed sure s (s.set_validity id valid_from valid_to written).1 := by
  unfold set_validity
  split_ifs
  · refine .line (.SetValidity id valid_from valid_to) written (fun h => ⟨ok h, rfl⟩) fits ?_ rfl
    cases written <;> rfl
  · exact .nothing s

theorem replayDelete_of_guard (free : (s.is_consolidation_canonical_for_tenant id tenant ||
      s.is_active_consolidation_source_for_tenant id tenant) ≠ true)
    (there : ((s.lookup id).any fun f => decide (f.tenant_hash = tenant)) = true) :
    s.toMemory.replayDelete id = s.toMemory.modify id setDeleted := by
  obtain ⟨f, found, own⟩ := (Option.any_eq_true _ _).mp there
  simp [is_consolidation_canonical_for_tenant, found, own] at free
  unfold replayDelete
  rw [free.1, protectedSource_of_lookup found (of_decide_eq_true own), free.2]
  rfl

section
variable (fits : ((s.lookup id).any fun f => decide (f.tenant_hash = tenant)) = true → allowed s.toMemory (.Delete id))
include fits

theorem writes_delete (ok : sure = true → written = true) : Writes policy allowed sure s (s.delete tenant id written).1 := by
  unfold FactStore.delete
  split_ifs with blocked there
  · exact .nothing s
  · refine .line (.Delete id) written (fun h => ⟨ok h, rfl⟩) (fits there) ?_ ?_
    · refine Eq.trans ?_ (replayDelete_of_guard blocked there).symm
      cases written <;> rfl
    · cases written <;> rfl
  · exact .nothing s

theorem writes_try_delete (written : Bool) : Writes policy allowed sure s (s.try_delete tenant id written).1 := by
  unfold try_delete
  split_ifs with blocked there
  · exact .nothing s
  · exact .line (.Delete id) true (fun _ => ⟨rfl, rfl⟩) (fits there) (replayDelete_of_guard blocked there).symm rfl
  · exact .nothing s
  · exact .nothing s

end

theorem newest_mem (found : m.newest c = some p) : p ∈ m.facts ∧ p.chainKey = c ∧ p.deleted = false := by
  have member := mem_of_find?_eq_some found
  have live := find?_some found
  rw [mem_reverse] at member
  unfold chain at member
  rw [mem_filter, decide_eq_true_eq] at member
  exact ⟨member.1, member.2, by simpa using live⟩

variable {stamp : Stamp}

theorem newFact_build (req : StoreFact) (unseen : m.Unseen stamp.fact_id) : NewFact m (m.build_fact req stamp) := by
  refine ⟨unseen, rfl, ?_⟩
  unfold build_fact
  dsimp only
  cases found : m.newest (stampTenant req.tenant_hash, req.entity, req.key) with
  | none => exact .inl rfl
  | some p =>
    obtain ⟨member, chain, _⟩ := newest_mem found
    exact .inr ⟨p, member, rfl, chain⟩

section
variable (m : Memory) (req : StoreFact) (stamp : Stamp)

theorem settled_build : Settled policy (m.build_fact (enforce_global policy req) stamp) := by
  rw [settled_iff]
  refine ⟨fun always => ?_, stampTenant_stampTenant _⟩
  have entity : (m.build_fact (enforce_global policy req) stamp).entity = req.entity := by
    unfold build_fact enforce_global
    split_ifs <;> rfl
  rw [entity] at always
  unfold build_fact enforce_global
  rw [if_pos always]

theorem tenant_build : (m.build_fact (enforce_global policy req) stamp).tenant_hash = stampTenant req.tenant_hash := by
  unfold build_fact enforce_global
  split_ifs <;> rfl

theorem confidence_build : (m.build_fact (enforce_global policy req) stamp).confidence = req.confidence := by
  unfold build_fact enforce_global
  split_ifs <;> rfl

end

theorem fields_build (policy : PrivacyPolicy) (m : Memory) (req : StoreFact) (stamp : Stamp) :
    (m.build_fact (enforce_global policy req) stamp).entity = req.entity ∧
      (m.build_fact (enforce_global policy req) stamp).key = req.key ∧
      (m.build_fact (enforce_global policy req) stamp).value = req.value := by
  unfold build_fact enforce_global
  split_ifs <;> exact ⟨rfl, rfl, rfl⟩

theorem writes_store (unseen : s.Unseen stamp.fact_id)
    (fits : allowed s.toMemory (.Store (s.build_fact (enforce_global policy req) stamp)))
    (fits_link : ∀ m prior, m.bothOf (stampTenant req.tenant_hash) prior stamp.fact_id = true →
      allowed m (.Supersede prior stamp.fact_id))
    (ok : sure = true → req.confidence.is_finite = true ∧ written = true ∧ superseded = true) :
    Writes policy allowed sure s (FactStore.store policy s req stamp written superseded).1 := by
  have new := newFact_build (enforce_global policy req) unseen
  have settled := @settled_build policy s.toMemory req stamp
  have conf := @confidence_build policy s.toMemory req stamp
  unfold FactStore.store
  dsimp only
  have tenant_req := @tenant_build policy s.toMemory req stamp
  generalize fact_eq : s.build_fact (enforce_global policy req) stamp = fact at new settled conf fits tenant_req ⊢
  have id : fact.fact_id = stamp.fact_id := by rw [← fact_eq]; rfl
  have stored : Writes policy allowed sure s
      ((s.change fun m => m.insert_fact_indexes fact).append_journal (.Store fact) written) := by
    refine .line (.Store fact) written (fun h => ⟨(ok h).2.1, ?_⟩) fits ?_ ?_
    · change fact.confidence.is_finite = true
      rw [conf]
      exact (ok h).1
    · dsimp only [applyEvent]
      rw [replay_journal_insert_new settled new.unknown]
      cases written <;> rfl
    · cases written <;> rfl
  refine stored.trans ?_
  unfold supersede_prior_version
  cases fact.supersedes with
  | none => exact .nothing _
  | some prior =>
    refine writes_mark_superseded (fun both => ?_) fun h => (ok h).2.2
    rw [tenant_req, id] at both
    rw [id]
    exact fits_link _ prior both

/-- A target that passed the checks. -/
structure Target (m : Memory) (tenant : String) (req : ConsolidationRequestV1) (f : Fact) : Prop where
  member : f ∈ m.facts
  tenant : f.tenant_hash = tenant
  standing : f.deleted = false
  unretired : f.superseded_by = none
  unreceipted : f.source_receipt = none
  entity : f.entity = req.entity
  key : f.key = req.key

variable {req : ConsolidationRequestV1}

theorem checkFact_ok (ok : checkFact req id f = .ok ()) :
    f.deleted = false ∧ f.superseded_by = none ∧ f.source_receipt = none ∧ f.entity = req.entity ∧ f.key = req.key := by
  unfold checkFact at ok
  cases owned : daemon_owned_entity_prefix f.entity with
  | some start =>
    simp only [owned] at ok
    split_ifs at ok
  | none =>
    simp only [owned] at ok
    split_ifs at ok with dead retired pinned closed linked high away
    rw [not_or, not_not, not_not] at away
    exact ⟨by simpa using dead, by simpa using retired, by simpa using linked, away.1, away.2⟩

theorem checkTarget_ok (ok : m.checkTarget tenant req seen id = .ok ()) :
    id ∉ seen ∧ ∃ f, m.lookup id = some f ∧ Target m tenant req f := by
  unfold checkTarget at ok
  split_ifs at ok with old
  split at ok
  · cases ok
  · rename_i f found
    rw [Option.filter_eq_some_iff] at found
    obtain ⟨standing, unretired, unreceipted, entity, key⟩ := checkFact_ok ok
    exact ⟨by simpa using old, f, found.1, (lookup_some found.1).1, by simpa using found.2, standing, unretired, unreceipted,
      entity, key⟩

variable {ids : List String}

theorem checkTargets_ok (ok : m.checkTargets tenant req seen ids = .ok ()) :
    ids.Nodup ∧ (∀ id ∈ ids, id ∉ seen) ∧ ∀ id ∈ ids, ∃ f, m.lookup id = some f ∧ Target m tenant req f := by
  induction ids generalizing seen with
  | nil => exact ⟨nodup_nil, by simp, by simp⟩
  | cons id rest ih =>
    unfold checkTargets at ok
    cases first : m.checkTarget tenant req seen id with
    | error e => rw [first] at ok; cases ok
    | ok u =>
      rw [first] at ok
      obtain ⟨fresh, good⟩ := checkTarget_ok first
      obtain ⟨nodup, apart, all⟩ := ih ok
      refine ⟨nodup_cons.mpr ⟨fun twice => apart id twice (by simp), nodup⟩, ?_, ?_⟩
      · rintro x (_ | ⟨_, later⟩)
        · exact fresh
        · exact fun old => apart x later (mem_append_left _ old)
      · rintro x (_ | ⟨_, later⟩)
        · exact good
        · exact all x later

variable {canonical : Fact}

theorem planConsolidation_ok (ok : m.planConsolidation tenant req stamp = .ok canonical) :
    canonical = m.build_fact (canonicalRequest tenant req) stamp ∧ req.target_fact_ids ≠ [] ∧ req.target_fact_ids.Nodup ∧
      (∀ id ∈ req.target_fact_ids, ∃ f, m.lookup id = some f ∧ Target m tenant req f) ∧
      canonical.supersedes.all req.target_fact_ids.contains = true := by
  unfold planConsolidation at ok
  split_ifs at ok with empty blank
  cases checked : m.checkTargets tenant req [] req.target_fact_ids with
  | error e =>
    rw [checked] at ok
    cases ok
  | ok u =>
    rw [checked] at ok
    obtain ⟨nodup, _, all⟩ := checkTargets_ok checked
    change checkPrior (m.build_fact (canonicalRequest tenant req) stamp) req.target_fact_ids = .ok canonical at ok
    unfold checkPrior at ok
    refine ⟨?_, by simpa using empty, nodup, all, ?_⟩
    · split at ok
      · split_ifs at ok
        cases ok
        rfl
      · cases ok
        rfl
    · split at ok
      · rename_i prior link
        split_ifs at ok with listed
        cases ok
        rw [link]
        exact listed
      · rename_i link
        cases ok
        rw [link]
        rfl

theorem Target.edges
    (all : ∀ id ∈ ids, ∃ f, m.lookup id = some f ∧ Target m tenant req f) : m.edgesAre tenant none ids = true := by
  unfold edgesAre
  rw [all_eq_true]
  intro id listed
  obtain ⟨f, found, target⟩ := all id listed
  rw [found]
  simp [target.standing, target.tenant, target.unretired]

section
variable (sound : Sound policy s.toMemory) (planned : s.planConsolidation tenant req stamp = .ok canonical)
  (unseen : s.Unseen stamp.fact_id)
include sound planned unseen

theorem planned_new : NewFact s.toMemory (incoming policy canonical) ∧ stampTenant tenant = tenant ∧
      (incoming policy canonical).chainKey = canonical.chainKey := by
  obtain ⟨built, some_target, _, targets, _⟩ := planConsolidation_ok planned
  have new_built := newFact_build (canonicalRequest tenant req) unseen
  rw [← built] at new_built
  obtain ⟨first, first_listed⟩ := exists_mem_of_ne_nil _ some_target
  obtain ⟨f, _, target⟩ := targets first first_listed
  have stamped : stampTenant tenant = tenant := by
    have settled := (settled_iff.mp (sound.settled f target.member)).2
    rw [target.tenant] at settled
    exact settled
  have of_tenant : canonical.tenant_hash = tenant := by
    rw [built]
    exact stamped
  have fields := incoming_fields policy canonical
  have key : (incoming policy canonical).chainKey = canonical.chainKey := by
    unfold Fact.chainKey
    rw [fields.2.1, fields.2.2.1, fields.2.2.2.1, of_tenant, stamped]
  refine ⟨⟨by rw [fields.1]; exact new_built.unseen, fields.2.2.2.2.2.2.2.1.trans new_built.unretired, ?_⟩, stamped, key⟩
  rw [fields.2.2.2.2.2.2.1, key]
  exact new_built.chained

/-- A planned consolidation is one that replay accepts. -/
theorem planned_valid :
    s.sourcesValid { canonical with tenant_hash := stampTenant canonical.tenant_hash } req.target_fact_ids = true := by
  obtain ⟨built, some_target, nodup, targets, prior⟩ := planConsolidation_ok planned
  have stamped := (planned_new sound planned unseen).2.1
  have of_tenant : canonical.tenant_hash = tenant := by
    rw [built]
    exact stamped
  unfold sourcesValid
  rw [of_tenant, stamped, Target.edges targets, prior, decide_eq_true nodup]
  simp [some_target]

theorem consolidate_memory : (FactStore.consolidate_facts_v1 policy s tenant req stamp true).1.toMemory =
      ((s.toMemory.insert_fact_indexes (incoming policy canonical)).retireAll (fun _ => true) req.target_fact_ids
        (some canonical.fact_id)).recordSources canonical.fact_id req.target_fact_ids := by
  obtain ⟨_, _, _, targets, _⟩ := planConsolidation_ok planned
  have new := (planned_new sound planned unseen).1
  have inserted : (s.toMemory.replay_journal_insert policy canonical).1 =
      s.toMemory.insert_fact_indexes (incoming policy canonical) := by
    unfold replay_journal_insert
    dsimp only
    rw [new.unknown]
    rfl
  unfold consolidate_facts_v1
  rw [planned]
  change Memory.recordSources (Memory.retireAll (Memory.replay_journal_insert policy s.toMemory canonical).1 _ _ _) _ _ = _
  rw [inserted]
  congr 1
  rw [retireAll_eq_each, retireAll_eq_each]
  unfold Memory.each
  congr 1
  refine map_congr_left fun g member => ?_
  by_cases listed : g.fact_id ∈ req.target_fact_ids
  · have same : g.tenant_hash = tenant := by
      obtain ⟨t, found, target⟩ := targets g.fact_id listed
      have looked := lookup_of_mem (sound.insert new.unknown (settled_incoming policy canonical)).nodup member
      have other : (incoming policy canonical).fact_id ≠ g.fact_id := by
        intro self
        rw [← self, new.unknown] at found
        cases found
      rw [lookup_insert_other other, found] at looked
      cases looked
      exact target.tenant
    simp [same]
  · simp [listed]

end

theorem writes_consolidate (sound : Sound policy s.toMemory) (unseen : s.Unseen stamp.fact_id)
    (fits : ∀ canonical, s.planConsolidation tenant req stamp = .ok canonical →
      allowed s.toMemory (.Consolidate canonical req.target_fact_ids))
    (ok : sure = true → req.confidence.is_finite = true) (written : Bool) :
    Writes policy allowed sure s (FactStore.consolidate_facts_v1 policy s tenant req stamp written).1 := by
  cases planned : s.planConsolidation tenant req stamp with
  | error e =>
    unfold consolidate_facts_v1
    rw [planned]
    exact .nothing s
  | ok canonical =>
    cases written with
    | false =>
      unfold consolidate_facts_v1
      rw [planned]
      exact .nothing s
    | true =>
      have built := (planConsolidation_ok planned).1
      have new := (planned_new sound planned unseen).1
      have unknown : s.lookup canonical.fact_id = none := (incoming_fields policy canonical).1 ▸ new.unknown
      have memory := consolidate_memory sound planned unseen
      refine .line (.Consolidate canonical req.target_fact_ids) true (fun h => ⟨rfl, ?_⟩) (fits canonical planned) ?_ ?_
      · rw [built]
        exact ok h
      · rw [memory]
        dsimp only [applyEvent]
        rw [replayConsolidate_eq policy canonical req.target_fact_ids unknown (by rw [built]; rfl)
          (planned_valid sound planned unseen)]
      · unfold consolidate_facts_v1
        rw [planned]
        rfl

theorem sortIds_sortIds (ids : List String) : sortIds (sortIds ids) = sortIds ids :=
  (pairwise_insertionSort _ ids).insertionSort_eq

theorem head_dedupIds (a : String) (rest : List String) : ∃ later, dedupIds (a :: rest) = a :: later := by
  induction rest generalizing a with
  | nil => exact ⟨[], rfl⟩
  | cons b rest ih =>
    unfold dedupIds
    split_ifs with same
    · rw [same]
      exact ih b
    · exact ⟨_, rfl⟩

theorem mem_dedupIds : x ∈ dedupIds xs ↔ x ∈ xs := by
  fun_induction dedupIds xs with
  | case1 => rfl
  | case2 a => rfl
  | case3 b rest ih => simp [ih]
  | case4 a b rest different ih => rw [mem_cons, ih, ← mem_cons]

theorem dedupIds_dedupIds (ids : List String) : dedupIds (dedupIds ids) = dedupIds ids := by
  fun_induction dedupIds ids with
  | case1 => rfl
  | case2 a => rfl
  | case3 b rest ih => exact ih
  | case4 a b rest other ih =>
    obtain ⟨later, first⟩ := head_dedupIds b rest
    rw [first] at ih ⊢
    rw [dedupIds, if_neg other, ih]

theorem planUndo_some (ok : m.planUndo tenant id ids = .ok (some restored)) :
    ∃ canonical recorded, m.lookup id = some canonical ∧ canonical.tenant_hash = tenant ∧ canonical.deleted = false ∧
      canonical.superseded_by = none ∧ m.consolidation_sources id = some recorded ∧ restored = sortIds recorded ∧
      restored ≠ [] ∧ dedupIds (sortIds restored) = restored ∧ m.edgesAre tenant (some id) restored = true := by
  unfold planUndo at ok
  split at ok
  · cases ok
  · rename_i canonical found
    rw [Option.filter_eq_some_iff] at found
    cases sources : m.consolidation_sources id with
    | none =>
      simp only [sources] at ok
      split_ifs at ok
    | some recorded =>
      simp only [sources] at ok
      split_ifs at ok with empty retired mismatch dead restorable edges
      · cases ok
      · cases ok
        rw [not_or] at mismatch
        have exact_sources : dedupIds (sortIds ids) = sortIds recorded := by simpa using mismatch.2
        refine ⟨canonical, recorded, found.1, by simpa using found.2, by simpa using dead, by simpa using retired, rfl, rfl,
          by simpa using mismatch.1, ?_, edges⟩
        rw [sortIds_sortIds, ← exact_sources]
        exact dedupIds_dedupIds _

theorem writes_undo
    (fits : ∀ restored, s.planUndo tenant id ids = .ok (some restored) → allowed s.toMemory (.ConsolidateUndo id restored))
    (written : Bool) : Writes policy allowed sure s (s.consolidate_undo_v1 tenant id ids written).1 := by
  unfold consolidate_undo_v1
  cases planned : s.planUndo tenant id ids with
  | error e => exact .nothing s
  | ok plan =>
    cases plan with
    | none => exact .nothing s
    | some restored =>
      cases written with
      | false => exact .nothing s
      | true =>
        obtain ⟨canonical, recorded, found, of_tenant, standing, unretired, sources, same, some_source, exact_sources, edges⟩ :=
          planUndo_some planned
        refine .line (.ConsolidateUndo id restored) true (fun _ => ⟨rfl, rfl⟩) (fits restored planned) ?_ rfl
        change _ = s.toMemory.replayUndo id restored
        have allowed : s.canUndo canonical id restored restored = true := by
          unfold canUndo
          rw [standing, unretired, of_tenant, edges, exact_sources]
          simp [some_source]
        unfold replayUndo
        rw [sources, Option.getD_some, ← same, found]
        dsimp only
        rw [if_pos allowed]
        rfl

end

end Crux.Facts
