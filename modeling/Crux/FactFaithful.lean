import Crux.FactLines

/-!
# Replaying a journal gives the store back

Batches, synced facts and reopening, and then runs: as long as every write
succeeds, the journal of a store replays to what the store has in memory.
-/

namespace Crux.Facts
open Memory List FactStore

namespace Memory

/-- Several new facts. -/
def insertAll (m : Memory) (facts : List Fact) : Memory := { m with facts := m.facts ++ facts }

theorem insertAll_cons (m : Memory) (fact : Fact) (rest : List Fact) :
    m.insertAll (fact :: rest) = (m.insert_fact_indexes fact).insertAll rest := by
  simp [insertAll, insert_fact_indexes]

theorem replayBatch_new {facts : List Fact} (new : NewBatch policy m facts) :
    replayBatch policy m facts = m.insertAll facts := by
  induction facts generalizing m with
  | nil => simp [replayBatch, insertAll]
  | cons fact rest ih =>
    obtain ⟨settled, first, later⟩ := new
    unfold replayBatch
    rw [replay_journal_insert_new settled first.unknown, insertAll_cons]
    exact ih later

theorem newBatch_of_new {facts : List Fact} (each : ∀ f ∈ facts, Settled policy f ∧ NewFact m f)
    (distinct : (facts.map Fact.fact_id).Nodup) (apart : ∀ f ∈ facts, ∀ g ∈ facts, f.supersedes ≠ some g.fact_id) :
    NewBatch policy m facts := by
  induction facts generalizing m with
  | nil => trivial
  | cons fact rest ih =>
    obtain ⟨settled, first⟩ := each fact mem_cons_self
    rw [map_cons, nodup_cons] at distinct
    refine ⟨settled, first, ih ?_ distinct.2 ?_⟩
    · intro g later
      obtain ⟨settled_g, new⟩ := each g (mem_cons_of_mem _ later)
      refine ⟨settled_g, ?_, new.unretired, ?_⟩
      · intro f member
        rcases mem_append.mp member with old | fresh
        · exact new.unseen f old
        · rw [mem_singleton.mp fresh]
          refine ⟨fun same => ?_, apart fact mem_cons_self g (mem_cons_of_mem _ later), ?_⟩
          · exact distinct.1 (same ▸ mem_map_of_mem later)
          · rw [first.unretired]
            simp
      · rcases new.chained with start | ⟨p, there, link, chain⟩
        · exact .inl start
        · exact .inr ⟨p, mem_append_left _ there, link, chain⟩
    · intro f left g right
      exact apart f (mem_cons_of_mem _ left) g (mem_cons_of_mem _ right)

end Memory

section
variable {policy : PrivacyPolicy} {allowed : Memory → JournalEvent → Prop} {sure : Bool} {s : FactStore}

theorem change_insertAll_cons (fact : Fact) (rest : List Fact) : (s.change fun m => m.insertAll (fact :: rest)) =
      (s.change fun m => m.insert_fact_indexes fact).change fun m => m.insertAll rest := by
  simp [FactStore.change, insertAll_cons]

theorem mark_superseded_insert (first : g.fact_id ≠ target) (second : g.fact_id ≠ successor)
    (bare : s.consolidation_sources g.fact_id = none) (tenant : String) (written : Bool) :
    ((s.change fun m => m.insert_fact_indexes g).mark_superseded tenant target successor written).1 =
      (s.mark_superseded tenant target successor written).1.change fun m => m.insert_fact_indexes g := by
  have active : (s.change fun m => m.insert_fact_indexes g).is_active_consolidation_source_for_tenant target tenant =
      s.is_active_consolidation_source_for_tenant target tenant := by
    change ((s.facts ++ [g]).any (s.retires target tenant)) = s.facts.any (s.retires target tenant)
    have none : s.retires target tenant g = false := by
      unfold retires
      rw [bare]
    simp [none]
  have both : (s.change fun m => m.insert_fact_indexes g).bothOf tenant target successor = s.bothOf tenant target successor := by
    change (s.toMemory.insert_fact_indexes g).bothOf tenant target successor = _
    unfold bothOf
    rw [lookup_insert_other first, lookup_insert_other second]
  unfold mark_superseded
  rw [active, both]
  split_ifs
  · rfl
  · unfold FactStore.change append_journal Memory.modify insert_fact_indexes
    cases written <;> simp [first]
  · rfl

theorem supersede_prior_insertAll (apart : ∀ g ∈ others, g.fact_id ≠ fact.fact_id ∧ fact.supersedes ≠ some g.fact_id ∧
      s.consolidation_sources g.fact_id = none) (written : Bool) :
    (s.change fun m => m.insertAll others).supersede_prior_version fact written =
      (s.supersede_prior_version fact written).change fun m => m.insertAll others := by
  unfold supersede_prior_version
  cases link : fact.supersedes with
  | none => rfl
  | some prior =>
    dsimp only
    induction others generalizing s with
    | nil => simp [FactStore.change, insertAll]
    | cons g rest ih =>
      obtain ⟨other, unlinked, bare⟩ := apart g mem_cons_self
      have first : g.fact_id ≠ prior := fun same => unlinked (by rw [link, same])
      rw [change_insertAll_cons, ih (s := s.change fun m => m.insert_fact_indexes g)
        fun h later => apart h (mem_cons_of_mem _ later), mark_superseded_insert first other bare,
        change_insertAll_cons]

theorem sources_supersede_prior (fact : Fact) (written : Bool) :
    (s.supersede_prior_version fact written).consolidation_sources = s.consolidation_sources := by
  unfold supersede_prior_version
  cases fact.supersedes with
  | none => rfl
  | some prior =>
    unfold mark_superseded
    dsimp only
    split_ifs
    · rfl
    · cases written <;> rfl
    · rfl

/-- The facts of a batch may as well all be inserted before the first supersession. -/
theorem insertBatch_eq (distinct : (batch.map fun e => e.1.fact_id).Nodup)
    (apart : ∀ e ∈ batch, ∀ g ∈ batch, e.1.supersedes ≠ some g.1.fact_id)
    (bare : ∀ e ∈ batch, s.consolidation_sources e.1.fact_id = none) : insertBatch s batch =
      batch.foldl (fun t e => t.supersede_prior_version e.1 e.2) (s.change fun m => m.insertAll (batch.map Prod.fst)) := by
  induction batch generalizing s with
  | nil => simp [insertBatch, FactStore.change, insertAll]
  | cons e rest ih =>
    obtain ⟨fact, superseded⟩ := e
    rw [map_cons, nodup_cons] at distinct
    unfold insertBatch
    rw [ih distinct.2 (fun a left b right => apart a (mem_cons_of_mem _ left) b (mem_cons_of_mem _ right))]
    · rw [foldl_cons]
      congr 1
      rw [← supersede_prior_insertAll]
      · rw [map_cons, change_insertAll_cons]
      · intro g member
        obtain ⟨d, later, rfl⟩ := mem_map.mp member
        refine ⟨fun same => distinct.1 ?_, apart (fact, superseded) mem_cons_self d (mem_cons_of_mem _ later),
          bare d (mem_cons_of_mem _ later)⟩
        exact mem_map.mpr ⟨d, later, same⟩
    · intro d later
      rw [sources_supersede_prior]
      exact bare d (mem_cons_of_mem _ later)

theorem writes_supersede_all {batch : List (Fact × Bool)}
    (fits : ∀ e ∈ batch, ∀ m prior, m.bothOf e.1.tenant_hash prior e.1.fact_id = true → allowed m (.Supersede prior e.1.fact_id))
    (ok : sure = true → ∀ e ∈ batch, e.2 = true) :
    Writes policy allowed sure s (batch.foldl (fun t e => t.supersede_prior_version e.1 e.2) s) := by
  induction batch generalizing s with
  | nil => exact .nothing s
  | cons e rest ih =>
    refine Writes.trans ?_ (ih (fun d later => fits d (mem_cons_of_mem _ later))
      fun h d later => ok h d (mem_cons_of_mem _ later))
    dsimp only
    unfold supersede_prior_version
    cases e.1.supersedes with
    | none => exact .nothing s
    | some prior => exact writes_mark_superseded (fits e mem_cons_self _ prior) fun h => ok h e mem_cons_self

theorem writes_try_store_bulk (sound : Sound policy s.toMemory) {reqs : List (StoreFact × Stamp × Bool)}
    (distinct : (reqs.map fun r => r.2.1.fact_id).Nodup) (unseen : ∀ r ∈ reqs, s.Unseen r.2.1.fact_id)
    (fits : NewBatch policy s.toMemory (reqs.map fun r => s.build_fact (enforce_global policy r.1) r.2.1) →
      allowed s.toMemory (.StoreBatch (reqs.map fun r => s.build_fact (enforce_global policy r.1) r.2.1)))
    (fits_link : ∀ r ∈ reqs, ∀ m prior, m.bothOf (stampTenant r.1.tenant_hash) prior r.2.1.fact_id = true →
      allowed m (.Supersede prior r.2.1.fact_id))
    (ok : sure = true → ∀ r ∈ reqs, r.1.confidence.is_finite = true ∧ r.2.2 = true) :
    Writes policy allowed sure s (try_store_bulk policy s reqs true).1 := by
  unfold try_store_bulk
  generalize batch_eq : (reqs.map _ : List (Fact × Bool)) = batch
  have from_req : ∀ e ∈ batch, ∃ r ∈ reqs, e = (s.build_fact (enforce_global policy r.1) r.2.1, r.2.2) := by
    intro e member
    rw [← batch_eq] at member
    obtain ⟨r, there, rfl⟩ := mem_map.mp member
    exact ⟨r, there, rfl⟩
  have ids : (batch.map fun e => e.1.fact_id) = reqs.map fun r => r.2.1.fact_id := by
    rw [← batch_eq, map_map]
    rfl
  have new : ∀ e ∈ batch, Settled policy e.1 ∧ NewFact s.toMemory e.1 := by
    intro e member
    obtain ⟨r, there, rfl⟩ := from_req e member
    exact ⟨settled_build s.toMemory r.1 r.2.1, newFact_build _ (unseen r there)⟩
  have apart : ∀ e ∈ batch, ∀ g ∈ batch, e.1.supersedes ≠ some g.1.fact_id := by
    intro e left g right named
    rcases (new e left).2.chained with start | ⟨p, there, link, _⟩
    · rw [start] at named
      cases named
    · rw [link, Option.some.injEq] at named
      exact ((new g right).2.unseen p there).1 named
  have batch_new : NewBatch policy s.toMemory (batch.map Prod.fst) := by
    refine newBatch_of_new ?_ ?_ ?_
    · intro f member
      obtain ⟨e, there, rfl⟩ := mem_map.mp member
      exact new e there
    · rw [map_map]
      change (batch.map fun e => e.1.fact_id).Nodup
      rw [ids]
      exact distinct
    · intro f left g right
      obtain ⟨d, here, rfl⟩ := mem_map.mp left
      obtain ⟨e, there, rfl⟩ := mem_map.mp right
      exact apart d here e there
  have readable : sure = true → (JournalEvent.StoreBatch (batch.map Prod.fst)).readable = true := by
    intro h
    simp only [JournalEvent.readable, all_eq_true]
    intro f member
    obtain ⟨e, there, rfl⟩ := mem_map.mp member
    obtain ⟨r, listed, rfl⟩ := from_req e there
    rw [confidence_build]
    exact (ok h r listed).1
  rw [if_pos rfl]
  rw [insertBatch_eq (by rw [ids]; exact distinct) apart]
  · have facts : (reqs.map fun r => s.build_fact (enforce_global policy r.1) r.2.1) = batch.map Prod.fst := by
      rw [← batch_eq, map_map]
      rfl
    rw [facts] at fits
    have stored : Writes policy allowed sure s ((s.append_journal (.StoreBatch (batch.map Prod.fst)) true).change fun m =>
        m.insertAll (batch.map Prod.fst)) := by
      refine .line (.StoreBatch (batch.map Prod.fst)) true (fun h => ⟨rfl, readable h⟩) (fits batch_new) ?_ rfl
      dsimp only [applyEvent]
      rw [replayBatch_new batch_new]
      rfl
    refine stored.trans (writes_supersede_all (fun e member => ?_) fun h e member => ?_)
    · obtain ⟨r, there, rfl⟩ := from_req e member
      intro m prior both
      rw [tenant_build] at both
      exact fits_link r there m prior both
    · obtain ⟨r, there, rfl⟩ := from_req e member
      exact (ok h r there).2
  · intro e member
    exact sound.sourced _ (new e member).2.unknown

end

/-! ## Synced facts -/

namespace Memory

section
variable {policy : PrivacyPolicy} {gone : List String} {m : Memory} {f : Fact}

theorem badSupersededBy_of_kind (kind : KindLinks m) (member : g ∈ m.facts)
    (named : g.superseded_by = some f.fact_id → f.tenant_hash = g.tenant_hash) :
    (m.insert_fact_indexes f).badSupersededBy g = false := by
  unfold badSupersededBy
  cases link : g.superseded_by with
  | none => rfl
  | some successor =>
    dsimp only
    rw [lookup_insert]
    cases found : m.lookup successor with
    | some h =>
      obtain ⟨there, same⟩ := lookup_some found
      have tenant := kind.ahead g member h there (by rw [link, same])
      simp [tenant]
    | none =>
      by_cases self : f.fact_id = successor
      · have tenant := named (by rw [link, self])
        simp [self, tenant]
      · simp [self]

theorem badSupersedes_of_kind (kind : KindLinks m) (member : f ∈ m.facts) : m.badSupersedes f = false := by
  rw [badSupersedes_eq]
  unfold badLink
  cases link : f.supersedes with
  | none => rfl
  | some previous =>
    dsimp only
    rw [keyIn_bones]
    cases found : m.lookup previous with
    | none => rfl
    | some g =>
      obtain ⟨there, same⟩ := lookup_some found
      have chain := kind.back f member g there (by rw [link, same])
      simp [chain]

theorem sanitize_of_kind (kind : KindLinks m) : m.sanitize_replayed_links = m := by
  have facts : m.facts.map m.cleanLinks = m.facts := by
    conv_rhs => rw [← map_id m.facts]
    refine map_congr_left fun f member => ?_
    have ahead : m.badSupersededBy f = false := by
      unfold badSupersededBy
      cases link : f.superseded_by with
      | none => rfl
      | some successor =>
        dsimp only
        cases found : m.lookup successor with
        | none => rfl
        | some g =>
          obtain ⟨there, same⟩ := lookup_some found
          have tenant := kind.ahead f member g there (by rw [link, same])
          simp [tenant]
    unfold cleanLinks
    rw [badSupersedes_of_kind kind member, ahead]
    rfl
  unfold sanitize_replayed_links
  rw [facts]

theorem kindLinks_sanitize (nodup : m.ids.Nodup) : KindLinks m.sanitize_replayed_links := by
  constructor
  · intro f' left g' right named
    obtain ⟨f, there, rfl⟩ := mem_map.mp left
    obtain ⟨g, here, rfl⟩ := mem_map.mp right
    change (if m.badSupersededBy f then none else f.superseded_by) = some g.fact_id at named
    split_ifs at named with bad
    unfold badSupersededBy at bad
    rw [named] at bad
    dsimp only at bad
    rw [lookup_of_mem nodup here] at bad
    change g.tenant_hash = f.tenant_hash
    simpa using bad
  · intro f' left g' right named
    obtain ⟨f, there, rfl⟩ := mem_map.mp left
    obtain ⟨g, here, rfl⟩ := mem_map.mp right
    change (if m.badSupersedes f then none else f.supersedes) = some g.fact_id at named
    split_ifs at named with bad
    rw [badSupersedes_eq, named] at bad
    unfold badLink at bad
    dsimp only at bad
    rw [keyIn_bones, lookup_of_mem nodup here] at bad
    change g.chainKey = f.chainKey
    simpa using bad

theorem sound_sanitize (sound : Sound policy m) : Sound policy m.sanitize_replayed_links := by
  have keeps : ∀ f, (m.cleanLinks f).fact_id = f.fact_id := fun _ => rfl
  have same : m.sanitize_replayed_links = m.each m.cleanLinks := rfl
  rw [same]
  refine ⟨by rw [ids_each keeps]; exact sound.nodup, ?_, ?_⟩
  · intro f member
    obtain ⟨g, there, rfl⟩ := mem_map.mp member
    have settled := sound.settled g there
    rw [settled_iff] at settled ⊢
    exact settled
  · intro id unknown
    rw [lookup_each keeps, Option.map_eq_none_iff] at unknown
    exact sound.sourced id unknown

variable {link : String → Option String}

theorem Mirror.relinked (mirror : Mirror gone link m n) (only : ∀ f, ∃ x, h f = { f with supersedes := x }) :
    Mirror gone link (m.each h) n := by
  have keeps : ∀ f, (h f).fact_id = f.fact_id := fun f => by
    obtain ⟨x, same⟩ := only f
    rw [same]
  have kept : (fun f => decide (f.fact_id ∉ gone)) ∘ h = fun f => decide (f.fact_id ∉ gone) := by
    funext f
    simp [keeps f]
  refine ⟨?_, mirror.sources, ?_, ?_⟩
  · unfold Memory.each
    rw [mirror.facts, filter_map, kept, map_map]
    refine map_congr_left fun f _ => ?_
    obtain ⟨x, same⟩ := only f
    rw [Function.comp_apply, same]
    rfl
  · intro f member out
    obtain ⟨g, there, rfl⟩ := mem_map.mp member
    rw [keeps] at out
    obtain ⟨x, same⟩ := only g
    rw [same]
    exact mirror.dead g there out
  · intro id out unknown
    rw [lookup_each keeps, Option.map_eq_none_iff] at unknown
    exact mirror.known id out unknown

theorem Mirror.keyIn (mirror : Mirror gone link m n) {id : String} (found : Memory.keyIn n.bones id = some key) :
    Memory.keyIn m.bones id = some key := by
  rw [keyIn_bones, mirror.lookup] at found
  rw [keyIn_bones]
  split_ifs at found
  · cases found
  · cases known : m.lookup id with
    | none => rw [known] at found; cases found
    | some f =>
      rw [known] at found
      exact found

section
variable (m : Memory) (f g : Fact)

/-- The links of older facts after a fact has come in. -/
def unlinkFrom : Fact :=
  if (m.insert_fact_indexes f).badSupersedes g then { g with supersedes := none } else g

theorem unlinkFrom_only : ∃ x, unlinkFrom m f g = { g with supersedes := x } := by
  unfold unlinkFrom
  split_ifs
  exacts [⟨none, rfl⟩, ⟨g.supersedes, rfl⟩]

theorem fact_id_unlinkFrom : (unlinkFrom m f g).fact_id = g.fact_id := by
  unfold unlinkFrom
  split_ifs <;> rfl

theorem chainKey_unlinkFrom : (unlinkFrom m f g).chainKey = g.chainKey := by
  unfold unlinkFrom
  split_ifs <;> rfl

end

theorem sanitize_insert (kind : KindLinks m)
    (named : ∀ g ∈ m.facts, g.superseded_by = some f.fact_id → f.tenant_hash = g.tenant_hash) :
    (m.insert_fact_indexes f).sanitize_replayed_links =
      (m.each (unlinkFrom m f)).insert_fact_indexes ((m.insert_fact_indexes f).cleanLinks f) := by
  have old : m.facts.map (m.insert_fact_indexes f).cleanLinks = m.facts.map (unlinkFrom m f) := by
    refine map_congr_left fun g member => ?_
    unfold cleanLinks unlinkFrom
    rw [badSupersededBy_of_kind kind member (named g member), if_neg Bool.false_ne_true]
    split_ifs <;> rfl
  change (⟨(m.facts ++ [f]).map (m.insert_fact_indexes f).cleanLinks, m.consolidation_sources⟩ : Memory) = _
  rw [map_append, old]
  rfl

theorem badLink_mono (more : ∀ x k, keyIn known x = some k → keyIn known' x = some k) (bad : badLink known key x = true) :
    badLink known' key x = true := by
  cases x with
  | none => cases bad
  | some x =>
    simp only [badLink, Option.any_eq_true] at bad ⊢
    exact bad.imp fun k other => ⟨more x k other.1, other.2⟩

theorem Twin.sync (twin : Twin gone link m n) (kind : KindLinks m) (unknown : m.lookup f.fact_id = none)
    (named : ∀ g ∈ m.facts, g.superseded_by = some f.fact_id → f.tenant_hash = g.tenant_hash) :
    ∃ link', Twin gone link' (m.insert_fact_indexes f).sanitize_replayed_links
      (n.insert_fact_indexes ((m.insert_fact_indexes f).cleanLinks f)) := by
  generalize clean_eq : (m.insert_fact_indexes f).cleanLinks f = f'
  have id : f'.fact_id = f.fact_id := by rw [← clean_eq]; rfl
  have key : f'.chainKey = f.chainKey := by rw [← clean_eq]; rfl
  have before : f'.supersedes = if (m.insert_fact_indexes f).badSupersedes f then none else f.supersedes := by
    rw [← clean_eq]; rfl
  rw [sanitize_insert kind named, clean_eq]
  have unknown' : (m.each (unlinkFrom m f)).lookup f'.fact_id = none := by
    rw [lookup_each (fact_id_unlinkFrom m f), id, unknown]
    rfl
  refine ⟨_, (twin.toMirror.relinked (unlinkFrom_only m f)).insert unknown', ?_⟩
  have bone_key : (boneOf f').chainKey = (boneOf f).chainKey := key
  have absent : Memory.keyIn m.bones f.fact_id = none := by
    rw [keyIn_bones, unknown]
    rfl
  -- the replayed memory, with the new fact, knows no chain the store does not know
  have sub : ∀ x k, Memory.keyIn (n.bones ++ [boneOf f']) x = some k → Memory.keyIn (m.bones ++ [boneOf f]) x = some k := by
    intro x k found
    rw [keyIn_append] at found ⊢
    cases known : Memory.keyIn n.bones x with
    | some k' =>
      rw [known] at found
      rw [twin.toMirror.keyIn known]
      exact found
    | none =>
      rw [known, Option.none_or] at found
      split_ifs at found with self
      change f'.fact_id = x at self
      rw [← self, id, absent, if_pos (show (boneOf f).fact_id = f.fact_id from rfl), ← bone_key]
      exact found
  rw [bones_insert, bones_insert]
  intro b member kept
  rcases mem_append.mp member with old | fresh
  · obtain ⟨g', there', rfl⟩ := mem_map.mp old
    obtain ⟨g, there, rfl⟩ := mem_map.mp there'
    have g_id : (boneOf (unlinkFrom m f g)).fact_id = g.fact_id := fact_id_unlinkFrom m f g
    have other : g.fact_id ≠ f'.fact_id := by
      rw [id]
      exact lookup_none.mp unknown g there
    rw [g_id] at kept ⊢
    rw [show (boneOf (unlinkFrom m f g)).chainKey = g.chainKey from chainKey_unlinkFrom m f g, Function.update_of_ne other]
    have was : g.supersedes = if badLink n.bones g.chainKey (link g.fact_id) then none else link g.fact_id :=
      twin.linked (boneOf g) (mem_map_of_mem there) kept
    have now : (boneOf (unlinkFrom m f g)).supersedes =
        if badLink (m.bones ++ [boneOf f]) g.chainKey g.supersedes then none else g.supersedes := by
      unfold unlinkFrom
      rw [badSupersedes_eq, bones_insert]
      split_ifs <;> rfl
    rw [now]
    cases target : link g.fact_id with
    | none =>
      rw [target] at was
      rw [was]
      split_ifs <;> rfl
    | some x =>
      rw [target] at was
      by_cases bad : badLink n.bones g.chainKey (some x) = true
      · rw [if_pos bad] at was
        have still : badLink (n.bones ++ [boneOf f']) g.chainKey (some x) = true :=
          badLink_mono (fun y k found => by rw [keyIn_append, found]; rfl) bad
        rw [was, still]
        rfl
      · rw [if_neg bad] at was
        rw [was]
        have same : badLink (m.bones ++ [boneOf f]) g.chainKey (some x) = badLink (n.bones ++ [boneOf f']) g.chainKey (some x) := by
          rw [Bool.eq_iff_iff]
          constructor
          · intro bad_now
            unfold badLink at bad_now ⊢
            dsimp only at bad_now ⊢
            rw [keyIn_append] at bad_now ⊢
            rw [keyIn_bones] at bad_now
            cases found : m.lookup x with
            | some p =>
              obtain ⟨p_there, p_id⟩ := lookup_some found
              rw [found] at bad_now
              have chain := kind.back g there p p_there (by rw [was, p_id])
              simp [chain] at bad_now
            | none =>
              rw [found] at bad_now
              rw [keyIn_bones, twin.toMirror.unknown found]
              rw [bone_key, show (boneOf f').fact_id = (boneOf f).fact_id from id]
              exact bad_now
          · exact badLink_mono sub
        rw [same]
  · rw [mem_singleton.mp fresh]
    rw [show (boneOf f').fact_id = f'.fact_id from rfl, Function.update_self]
    have clear : badLink (m.bones ++ [boneOf f]) (boneOf f').chainKey f'.supersedes = false := by
      rw [before, badSupersedes_eq, bones_insert]
      split_ifs with bad
      · rfl
      · rw [bone_key]
        exact Bool.eq_false_iff.mpr bad
    rw [Bool.eq_false_iff.mpr (mt (badLink_mono sub) (Bool.eq_false_iff.mp clear))]
    rfl

end

end Memory

section
variable {policy : PrivacyPolicy} {gone : List String} {s : FactStore}

theorem lookup_synced (unknown : s.lookup f.fact_id = none) :
    (s.change fun m => (m.insert_fact_indexes f).sanitize_replayed_links).lookup f.fact_id =
      some ((s.toMemory.insert_fact_indexes f).cleanLinks f) := by
  change ((s.toMemory.insert_fact_indexes f).each (s.toMemory.insert_fact_indexes f).cleanLinks).lookup f.fact_id = _
  rw [lookup_each (h := (s.toMemory.insert_fact_indexes f).cleanLinks) (fun _ => rfl), lookup_insert_same unknown]
  rfl

theorem Faithful.store_synced (faithful : Faithful policy gone s) {fact : Fact} (finite : fact.confidence.is_finite = true)
    (named : ∀ g ∈ s.facts, g.superseded_by = some fact.fact_id → stampTenant fact.tenant_hash = g.tenant_hash) :
    Faithful policy gone (FactStore.store_synced policy s fact true).1 := by
  have fields := incoming_fields policy fact
  have settled := settled_incoming policy fact
  unfold FactStore.store_synced
  dsimp only
  generalize Memory.incoming policy fact = f at fields settled ⊢
  split_ifs with known
  · exact faithful
  · have unknown : s.lookup f.fact_id = none := by simpa using known
    obtain ⟨link, twin⟩ := faithful.twin
    obtain ⟨link', next⟩ := twin.sync faithful.kind unknown fun g there link => by
      rw [fields.2.1]
      exact named g there (by rw [link, fields.1])
    have sound := sound_sanitize (faithful.sound.insert unknown settled)
    rw [lookup_synced unknown]
    refine ⟨sound, kindLinks_sanitize (nodup_insert faithful.sound.nodup unknown), link', ?_⟩
    change Twin gone link' (s.toMemory.insert_fact_indexes f).sanitize_replayed_links
      (replayLines policy (s.journal ++ [.Store ((s.toMemory.insert_fact_indexes f).cleanLinks f)]))
    rw [replayLines_append, foldl_cons, foldl_nil]
    unfold replayEvent
    have readable : (JournalEvent.Store ((s.toMemory.insert_fact_indexes f).cleanLinks f)).readable = true := by
      change f.confidence.is_finite = true
      rw [fields.2.2.2.2.2.2.2.2]
      exact finite
    have settled' : Settled policy ((s.toMemory.insert_fact_indexes f).cleanLinks f) := by
      rw [settled_iff] at settled ⊢
      exact settled
    rw [if_pos readable]
    dsimp only [applyEvent]
    rw [replay_journal_insert_new settled' (twin.toMirror.unknown unknown)]
    exact next

/-- A memory without the facts that are gone. -/
def Memory.without (gone : List String) (m : Memory) : Memory where
  facts := m.facts.filter fun f => f.fact_id ∉ gone
  consolidation_sources id := if id ∈ gone then none else m.consolidation_sources id

theorem without_nil (m : Memory) : m.without [] = m := by
  simp [Memory.without]

/-- The links a journal's replay ends with are the store's own. -/
theorem sanitize_twin (twin : Twin gone link m n) (kind : KindLinks m) : n.sanitize_replayed_links = m.without gone := by
  have facts : n.facts.map n.cleanLinks = m.facts.filter fun f => f.fact_id ∉ gone := by
    rw [twin.facts, map_map]
    conv_rhs => rw [← map_id (m.facts.filter fun f => f.fact_id ∉ gone)]
    refine map_congr_left fun f member => ?_
    obtain ⟨there, kept⟩ := mem_filter.mp member
    have linked : f.supersedes = if badLink n.bones f.chainKey (link f.fact_id) then none else link f.fact_id :=
      twin.linked (boneOf f) (mem_map_of_mem there) (by simpa [boneOf] using kept)
    have back : n.badSupersedes (relink link f) = badLink n.bones f.chainKey (link f.fact_id) := badSupersedes_eq n _
    have ahead : n.badSupersededBy (relink link f) = false := by
      unfold badSupersededBy
      cases target : (relink link f).superseded_by with
      | none => rfl
      | some x =>
        dsimp only
        rw [twin.toMirror.lookup]
        split_ifs
        · rfl
        · cases found : m.lookup x with
          | none => rfl
          | some g =>
            obtain ⟨here, same⟩ := lookup_some found
            have tenant := kind.ahead f there g here (by rw [same]; exact target)
            have both : (relink link g).tenant_hash = (relink link f).tenant_hash := tenant
            simp [both]
    rw [Function.comp_apply]
    unfold cleanLinks
    rw [back, ahead, show (relink link f).supersedes = link f.fact_id from rfl, ← linked]
    rfl
  unfold sanitize_replayed_links Memory.without
  rw [facts]
  congr 1
  funext id
  exact twin.sources id

theorem lookup_without {m : Memory} {id : String} (kept : id ∉ gone) : (m.without gone).lookup id = m.lookup id := by
  unfold Memory.lookup Memory.without
  rw [find?_filter]
  congr 1
  funext f
  by_cases same : f.fact_id = id
  · simp [same, kept]
  · simp [same]

theorem Faithful.reopen (faithful : Faithful policy gone s) :
    (with_persistence policy s.journal).toMemory = s.toMemory.without gone ∧
      Faithful policy [] (with_persistence policy s.journal) := by
  obtain ⟨link, twin⟩ := faithful.twin
  have memory : (with_persistence policy s.journal).toMemory = s.toMemory.without gone :=
    sanitize_twin twin faithful.kind
  have part : ∀ f ∈ (s.toMemory.without gone).facts, f ∈ s.facts ∧ f.fact_id ∉ gone := by
    intro f member
    obtain ⟨there, kept⟩ := mem_filter.mp member
    exact ⟨there, by simpa using kept⟩
  refine ⟨memory, ?_, ?_, link, ⟨?_, ?_, by simp, by simp⟩, ?_⟩
  · rw [memory]
    refine ⟨?_, fun f member => faithful.sound.settled f (part f member).1, fun id unknown => ?_⟩
    · exact (filter_sublist.map Fact.fact_id).nodup faithful.sound.nodup
    · change (if id ∈ gone then none else s.consolidation_sources id) = none
      split_ifs with out
      · rfl
      · rw [lookup_without out] at unknown
        exact faithful.sound.sourced id unknown
  · rw [memory]
    constructor
    · intro f left g right named
      exact faithful.kind.ahead f (part f left).1 g (part g right).1 named
    · intro f left g right named
      exact faithful.kind.back f (part f left).1 g (part g right).1 named
  · rw [memory]
    have all : (s.toMemory.without gone).facts.filter (fun f => decide (f.fact_id ∉ ([] : List String))) =
        (s.toMemory.without gone).facts := filter_eq_self.mpr (by simp)
    rw [all]
    exact twin.facts
  · intro id
    rw [memory]
    exact twin.sources id
  · rw [memory]
    intro b member _
    obtain ⟨f, there, rfl⟩ := mem_map.mp member
    obtain ⟨old, kept⟩ := part f there
    exact twin.linked (boneOf f) (mem_map_of_mem old) kept

/-! ## Runs -/

theorem writes_deleteEach {allowed : Memory → JournalEvent → Prop} (fits : ∀ m id, allowed m (.Delete id)) :
    Writes policy allowed sure s (s.deleteEach batch) := by
  induction batch generalizing s with
  | nil => exact .nothing s
  | cons e rest ih =>
    obtain ⟨f, written⟩ := e
    exact Writes.trans (writes_try_delete (fun _ => fits _ _) written) ih

end

/-- Every write of an operation succeeds. -/
def Op.written : Op → Bool
  | .store _ _ written superseded => written && superseded
  | .try_store _ _ written superseded => written && superseded
  | .try_store_bulk reqs written => written && reqs.all fun r => r.2.2
  | .delete _ _ written => written
  | .try_delete _ _ written => written
  | .mark_superseded _ _ _ written => written
  | .clear_superseded _ _ written => written
  | .set_validity _ _ _ written => written
  | .consolidate _ _ _ written => written
  | .undo _ _ _ written => written
  | .store_synced _ written => written
  | .sweep _ written => written.all id
  | .compact replaced => replaced
  | .reopen => true

/-- The confidences an operation brings in are finite. -/
def Op.finite : Op → Bool
  | .store req _ _ _ => req.confidence.is_finite
  | .try_store req _ _ _ => req.confidence.is_finite
  | .try_store_bulk reqs _ => reqs.all fun r => r.1.confidence.is_finite
  | .consolidate _ req _ _ => req.confidence.is_finite
  | .store_synced fact _ => fact.confidence.is_finite
  | _ => true

/-- The identifiers drawn are different and have never been seen. -/
def Op.Fresh (s : FactStore) (op : Op) : Prop := op.drawn.Nodup ∧ ∀ id ∈ op.drawn, s.Unseen id

/-- No fact of another tenant names a synced fact as its successor. -/
def Op.unawaited (s : FactStore) : Op → Bool
  | .store_synced fact _ =>
    s.facts.all fun g => decide (g.superseded_by = some fact.fact_id → stampTenant fact.tenant_hash = g.tenant_hash)
  | _ => true

def Op.compacts : Op → Bool
  | .compact _ => true
  | _ => false

def Op.reopens : Op → Bool
  | .reopen => true
  | _ => false

def Op.syncs : Op → Bool
  | .store_synced _ _ => true
  | _ => false

instance (m : Memory) (id : String) : Decidable (m.Unseen id) := by unfold Memory.Unseen; infer_instance

instance (s : FactStore) (op : Op) : Decidable (op.Fresh s) := by unfold Op.Fresh; infer_instance

/-- Every operation of a run meets a condition on the state it finds. -/
def FactStore.Meets (env : Env) (condition : FactStore → Op → Prop) : FactStore → List Op → Prop
  | _, [] => True
  | s, op :: rest => condition s op ∧ Meets env condition (s.step env op) rest

instance FactStore.decidableMeets (env : Env) (condition : FactStore → Op → Prop) [∀ s op, Decidable (condition s op)] :
    (s : FactStore) → (ops : List Op) → Decidable (FactStore.Meets env condition s ops)
  | _, [] => .isTrue trivial
  | s, op :: rest =>
    have := FactStore.decidableMeets env condition (s.step env op) rest
    inferInstanceAs (Decidable (condition s op ∧ FactStore.Meets env condition (s.step env op) rest))

variable {env : Env}

theorem FactStore.Meets.run {condition : FactStore → Op → Prop} {keep : FactStore → Prop}
    (step : ∀ s op, keep s → condition s op → keep (s.step env op)) {s : FactStore} {ops : List Op} (start : keep s)
    (meets : FactStore.Meets env condition s ops) : keep (s.run env ops) := by
  induction ops generalizing s with
  | nil => exact start
  | cons op rest ih => exact ih (step s op start meets.1) meets.2

variable {s : FactStore}

theorem FactStore.Meets.and {first second : FactStore → Op → Prop} (left : FactStore.Meets env first s ops)
    (right : FactStore.Meets env second s ops) :
    FactStore.Meets env (fun s op => first s op ∧ second s op) s ops := by
  induction ops generalizing s with
  | nil => trivial
  | cons op rest ih => exact ⟨⟨left.1, right.1⟩, ih left.2 right.2⟩

theorem FactStore.Meets.of_all {condition : Op → Prop} {ops : List Op} (all : ∀ op ∈ ops, condition op)
    (s : FactStore) : FactStore.Meets env (fun _ op => condition op) s ops := by
  induction ops generalizing s with
  | nil => trivial
  | cons op rest ih => exact ⟨all op mem_cons_self, ih (fun o later => all o (mem_cons_of_mem _ later)) _⟩

/-- The tenants a call is for: a retention sweep is for all. -/
def Op.isFor (tenant : String) : Op → Prop
  | .store req _ _ _ => tenant = stampTenant req.tenant_hash
  | .try_store req _ _ _ => tenant = stampTenant req.tenant_hash
  | .try_store_bulk reqs _ => ∃ r ∈ reqs, tenant = stampTenant r.1.tenant_hash
  | .delete tenant_hash _ _ => tenant = tenant_hash
  | .try_delete tenant_hash _ _ => tenant = tenant_hash
  | .mark_superseded tenant_hash _ _ _ => tenant = tenant_hash
  | .clear_superseded tenant_hash _ _ => tenant = tenant_hash
  | .consolidate tenant_hash _ _ _ => tenant = tenant_hash
  | .undo tenant_hash _ _ _ => tenant = tenant_hash
  | .store_synced fact _ => tenant = stampTenant fact.tenant_hash
  | _ => True

/-- A fact of a tenant the call is for. -/
def Op.reaches (op : Op) (m : Memory) (id : String) : Prop := ∃ f, m.lookup id = some f ∧ op.isFor f.tenant_hash

/-- The lines a call may write. -/
def Op.Line (policy : PrivacyPolicy) (op : Op) (m : Memory) : JournalEvent → Prop
  | .Store fact => (Settled policy fact ∧ NewFact m fact) ∧ fact.fact_id ∈ op.drawn ∧ op.isFor fact.tenant_hash
  | .StoreBatch facts => NewBatch policy m facts ∧ ∀ fact ∈ facts, fact.fact_id ∈ op.drawn ∧ op.isFor fact.tenant_hash
  | .Delete id => op.reaches m id ∨ ∃ cutoff flags, op = .sweep cutoff flags
  | .Supersede id successor =>
    op.reaches m id ∧ (successor ∈ op.drawn ∨ ∃ tenant first, op = .mark_superseded tenant id successor first)
  | .ClearSupersede id => op.reaches m id
  | .SetValidity id valid_from valid_to => ∃ first, op = .set_validity id valid_from valid_to first
  | .Consolidate canonical ids =>
    NewFact m (incoming policy canonical) ∧ canonical.fact_id ∈ op.drawn ∧ op.isFor (stampTenant canonical.tenant_hash) ∧
      canonical.deleted = false ∧
      m.sourcesValid { canonical with tenant_hash := stampTenant canonical.tenant_hash } ids = true
  | .ConsolidateUndo id _ => op.reaches m id ∧ ∃ tenant ids first, op = .undo tenant id ids first
  | .ConsolidationProvenance _ _ _ => False

variable {op : Op}

theorem reaches_of_any {id tenant : String} (is_for : op.isFor tenant)
    (there : ((m.lookup id).any fun f => decide (f.tenant_hash = tenant)) = true) : op.reaches m id := by
  obtain ⟨f, found, own⟩ := (Option.any_eq_true _ _).mp there
  exact ⟨f, found, by rw [of_decide_eq_true own]; exact is_for⟩

theorem reaches_of_both (is_for : op.isFor tenant) (both : m.bothOf tenant target successor = true) : op.reaches m target := by
  unfold bothOf at both
  cases found : m.lookup target with
  | none => simp [found] at both
  | some f =>
    cases second : m.lookup successor with
    | none => simp [second] at both
    | some g =>
      simp [found, second] at both
      exact ⟨f, found, by rw [both.1]; exact is_for⟩

/-- What one call writes, apart from syncs, compactions and reopenings. -/
theorem writes_step (sound : Sound env.policy s.toMemory) (in_place : op.compacts = false ∧ op.reopens = false)
    (local_op : op.syncs = false) (fresh : op.Fresh s) (ok : sure = true → op.written = true ∧ op.finite = true) :
    Writes env.policy (op.Line env.policy) sure s (s.step env op) := by
  have drawn : ∀ id ∈ op.drawn, s.Unseen id := fresh.2
  cases op with
  | store req stamp first second =>
    simp [Op.written] at ok
    have unseen := drawn stamp.fact_id (by simp [Op.drawn])
    refine writes_store unseen ⟨⟨settled_build s.toMemory req stamp, newFact_build _ unseen⟩, ?_, tenant_build _ _ _⟩
      (fun m prior both => ⟨reaches_of_both rfl both, .inl (by simp [Op.drawn])⟩) fun h => ⟨(ok h).2, (ok h).1⟩
    exact mem_singleton.mpr rfl
  | try_store req stamp first second =>
    simp [Op.written] at ok
    cases first with
    | false => exact .nothing s
    | true =>
      have unseen := drawn stamp.fact_id (by simp [Op.drawn])
      refine writes_store unseen ⟨⟨settled_build s.toMemory req stamp, newFact_build _ unseen⟩, ?_, tenant_build _ _ _⟩
        (fun m prior both => ⟨reaches_of_both rfl both, .inl (by simp [Op.drawn])⟩) fun h => ⟨(ok h).2, (ok h).1⟩
      exact mem_singleton.mpr rfl
  | try_store_bulk reqs first =>
    simp only [Op.written, Op.finite, Bool.and_eq_true, all_eq_true] at ok
    cases first with
    | false => exact .nothing s
    | true =>
      refine writes_try_store_bulk sound fresh.1 ?_ (fun new => ⟨new, ?_⟩) (fun r there m prior both => ⟨?_, .inl ?_⟩)
        fun h r there => ⟨(ok h).2 r there, (ok h).1.2 r there⟩
      · exact fun r there => drawn _ (mem_map.mpr ⟨r, there, rfl⟩)
      · intro fact member
        obtain ⟨r, there, rfl⟩ := mem_map.mp member
        exact ⟨mem_map.mpr ⟨r, there, rfl⟩, r, there, tenant_build _ _ _⟩
      · exact reaches_of_both ⟨r, there, rfl⟩ both
      · exact mem_map.mpr ⟨r, there, rfl⟩
  | delete tenant id first => exact writes_delete (fun there => .inl (reaches_of_any rfl there)) fun h => (ok h).1
  | try_delete tenant id first => exact writes_try_delete (fun there => .inl (reaches_of_any rfl there)) first
  | mark_superseded tenant target successor first =>
    exact writes_mark_superseded (fun both => ⟨reaches_of_both rfl both, .inr ⟨tenant, first, rfl⟩⟩) fun h => (ok h).1
  | clear_superseded tenant id first => exact writes_clear_superseded (reaches_of_any rfl) fun h => (ok h).1
  | set_validity id valid_from valid_to first => exact writes_set_validity ⟨first, rfl⟩ fun h => (ok h).1
  | consolidate tenant req stamp first =>
    have unseen := drawn stamp.fact_id (by simp [Op.drawn])
    refine writes_consolidate sound unseen (fun canonical planned => ?_) (fun h => (ok h).2) first
    obtain ⟨new, stamped, _⟩ := planned_new sound planned unseen
    have built := (planConsolidation_ok planned).1
    refine ⟨new, ?_, ?_, ?_, planned_valid sound planned unseen⟩
    · rw [built]
      exact mem_singleton.mpr rfl
    · rw [built]
      change stampTenant (stampTenant tenant) = tenant
      rw [stamped, stamped]
    · rw [built]
      rfl
  | undo tenant id ids first =>
    refine writes_undo (fun restored planned => ⟨?_, tenant, ids, first, rfl⟩) first
    obtain ⟨canonical, _, found, of_tenant, _⟩ := planUndo_some planned
    exact ⟨canonical, found, of_tenant⟩
  | store_synced fact first => cases local_op
  | sweep cutoff flags => exact writes_deleteEach fun _ _ => .inr ⟨cutoff, flags, rfl⟩
  | compact replaced => cases in_place.1
  | reopen => cases in_place.2

/-- A call writes lines, syncs a fact, compacts or reopens. -/
theorem step_cases (sound : Sound env.policy s.toMemory) (fresh : op.Fresh s) :
    op.syncs = false ∧ Writes env.policy (op.Line env.policy) false s (s.step env op) ∨ (∃ fact written, op = .store_synced fact written) ∨
      (∃ replaced, op = .compact replaced) ∨ op = .reopen := by
  by_cases local_op : (op.compacts = false ∧ op.reopens = false) ∧ op.syncs = false
  · exact .inl ⟨local_op.2, writes_step sound local_op.1 local_op.2 fresh (by simp)⟩
  · cases op with
    | store_synced fact written => exact .inr (.inl ⟨fact, written, rfl⟩)
    | compact replaced => exact .inr (.inr (.inl ⟨replaced, rfl⟩))
    | reopen => exact .inr (.inr (.inr rfl))
    | _ => exact absurd ⟨⟨rfl, rfl⟩, rfl⟩ local_op

theorem Op.Line.tame (kept : ∀ id ∈ op.drawn, id ∉ gone)
    (unmarked : ∀ tenant target successor first, op = .mark_superseded tenant target successor first → successor ∉ gone)
    (line : op.Line policy m e) : Tame policy gone m e := by
  cases e with
  | Store fact => exact line.1
  | StoreBatch facts => exact line.1
  | Supersede id successor =>
    rcases line.2 with drawn | ⟨tenant, first, marked⟩
    · exact kept successor drawn
    · exact unmarked tenant id successor first marked
  | Consolidate canonical ids => exact line.1
  | ConsolidationProvenance id ids tenant => exact line
  | _ => trivial

/-- One call whose writes succeed, apart from compactions and reopenings. -/
theorem Faithful.step (faithful : Faithful env.policy gone s) {op : Op}
    (in_place : op.compacts = false ∧ op.reopens = false) (written : op.written = true) (fresh : op.Fresh s)
    (finite : op.finite = true) (unawaited : op.unawaited s = true)
    (unmarked : ∀ tenant target successor first, op = .mark_superseded tenant target successor first → successor ∉ gone) :
    Faithful env.policy gone (s.step env op) := by
  obtain ⟨link, twin⟩ := faithful.twin
  have kept : ∀ id ∈ op.drawn, id ∉ gone := fun id drawn =>
    twin.toMirror.not_gone (lookup_none.mpr fun f member => (fresh.2 id drawn f member).1)
  by_cases local_op : op.syncs = false
  · have writes : Writes env.policy (op.Line env.policy) true s (s.step env op) :=
      writes_step faithful.sound in_place local_op fresh fun _ => ⟨written, finite⟩
    exact faithful.writes (writes.imp fun _ _ line => line.tame kept unmarked)
  · cases op with
    | store_synced fact first =>
      rw [show first = true from written]
      simp only [Op.unawaited, all_eq_true, decide_eq_true_eq] at unawaited
      exact faithful.store_synced finite unawaited
    | _ => exact absurd rfl local_op

theorem Faithful.empty (policy : PrivacyPolicy) : Faithful policy [] {} where
  sound := .empty policy
  kind := .empty
  twin := ⟨fun _ => none, ⟨rfl, fun _ => rfl, by simp, by simp⟩, by simp [Linked, bones]⟩

/-- Opening the journal of a run in which every write succeeds gives the store back as it was: all facts with all their
fields in their order and the sources of every consolidation. -/
theorem reopen_reproduces_store (env : Env) (ops : List Op) (uncompacted : ∀ op ∈ ops, op.compacts = false)
    (written : ∀ op ∈ ops, op.written = true) (fresh : FactStore.Meets env (fun s op => op.Fresh s) {} ops)
    (safe : FactStore.Meets env (fun s op => op.finite = true ∧ op.unawaited s = true) {} ops) :
    FactStore.with_persistence env.policy (FactStore.run env {} ops).journal = FactStore.run env {} ops := by
  have faithful : Faithful env.policy [] (run env {} ops) := by
    have meets := ((FactStore.Meets.of_all uncompacted {}).and (@FactStore.Meets.of_all env _ _ written {})).and (fresh.and safe)
    refine meets.run (fun s op faithful h => ?_) (Faithful.empty env.policy)
    obtain ⟨⟨uncompacted, written⟩, fresh, finite, unawaited⟩ := h
    by_cases reopens : op.reopens = false
    · exact faithful.step ⟨uncompacted, reopens⟩ written fresh finite unawaited (by simp)
    · cases op with
      | reopen => exact faithful.reopen.2
      | _ => exact absurd rfl reopens
  have memory := faithful.reopen.1
  rw [without_nil] at memory
  generalize run env {} ops = s at memory ⊢
  cases s
  exact congrArg (fun m => (⟨m, _⟩ : FactStore)) memory

/-- A fact waits for a successor that is then synced to another tenant, and is consolidated. -/
def awaitedRun : List Op :=
  [.store_synced { sampleFact "a" "first" with superseded_by := some "x" } true, .store_synced (sampleFact "x" "second") true,
   .consolidate "first" (sampleConsolidation ["a"]) ⟨"c", 3⟩ true]

/-- The link that kept the fact from being consolidated is removed in memory but not in the journal, so the consolidation is
skipped when the journal is replayed. -/
theorem reopen_loses_consolidation :
    (∀ op ∈ awaitedRun, op.compacts = false ∧ op.written = true) ∧
      FactStore.Meets sampleEnv (fun s op => op.Fresh s ∧ op.finite = true) {} awaitedRun ∧
      ((FactStore.run sampleEnv {} awaitedRun).lookup "c").isSome = true ∧
      (FactStore.with_persistence sampleEnv.policy (FactStore.run sampleEnv {} awaitedRun).journal).lookup "c" = none := by
  decide +kernel

/-- A run with versions, a consolidation, a sync and a deletion. -/
def sampleRun : List Op :=
  [.store sampleRequest ⟨"a", 1⟩ true true, .try_store sampleRequest ⟨"b", 2⟩ true true,
   .try_store_bulk [({ sampleRequest with key := "other" }, ⟨"d", 3⟩, true)] true,
   .consolidate "first" (sampleConsolidation ["b"]) ⟨"c", 4⟩ true, .store_synced (sampleFact "x" "second") true,
   .delete "first" "d" true, .reopen, .undo "first" "c" ["b"] true]

theorem sampleRun_reopen_reproduces_store :
    FactStore.with_persistence sampleEnv.policy (FactStore.run sampleEnv {} sampleRun).journal =
      FactStore.run sampleEnv {} sampleRun :=
  reopen_reproduces_store sampleEnv sampleRun (by decide +kernel) (by decide +kernel) (by decide +kernel) (by decide +kernel)

end Crux.Facts
