import Crux.FactChanges

/-!
# A store and the replay of its journal

A replayed memory lacks facts that were deleted before the journal was compacted
and may still hold links that the store has removed; in everything else it
mirrors the memory of the store. Each line of the journal keeps it so.
-/

namespace Crux.Facts
open List
namespace Memory

/-- A fact with the link to the version before as given for its identifier. -/
def relink (link : String → Option String) (f : Fact) : Fact := { f with supersedes := link f.fact_id }

/-- The second memory has the facts of the first but those that are gone, which were deleted, with links of its own to the
versions before. -/
structure Mirror (gone : List String) (link : String → Option String) (m n : Memory) : Prop where
  facts : n.facts = (m.facts.filter fun f => f.fact_id ∉ gone).map (relink link)
  sources : ∀ id, n.consolidation_sources id = if id ∈ gone then none else m.consolidation_sources id
  dead : ∀ f ∈ m.facts, f.fact_id ∈ gone → f.deleted = true
  known : ∀ id ∈ gone, m.lookup id ≠ none

section
variable {gone : List String} {link : String → Option String} {m n : Memory}

variable {h : Fact → Fact}

theorem relink_gentle (gentle : Gentle h) (link : String → Option String) (f : Fact) : relink link (h f) = h (relink link f) := by
  have same : link (h f).fact_id = link f.fact_id := congrArg link (gentle.fact_id f)
  unfold relink
  rw [same]
  exact (gentle.blind f _).symm

theorem Mirror.each (mirror : Mirror gone link m n) (gentle : Gentle h) : Mirror gone link (m.each h) (n.each h) where
  facts := by
    have kept : (fun f => decide (f.fact_id ∉ gone)) ∘ h = fun f => decide (f.fact_id ∉ gone) := by
      funext f
      simp [gentle.fact_id f]
    unfold Memory.each
    rw [mirror.facts, filter_map, kept, map_map, map_map]
    refine map_congr_left fun f _ => ?_
    exact (relink_gentle gentle link f).symm
  sources := mirror.sources
  dead f member out := by
    obtain ⟨g, there, rfl⟩ := mem_map.mp member
    rw [gentle.fact_id] at out
    exact gentle.tombstone g (mirror.dead g there out)
  known id out := by
    rw [lookup_each gentle.fact_id]
    have there := mirror.known id out
    cases found : m.lookup id with
    | none => exact absurd found there
    | some f => simp

theorem Mirror.unseen (mirror : Mirror gone link m n) (gentle : Gentle h)
    (stay : ∀ f, f.fact_id ∉ gone → h f = f) : Mirror gone link (m.each h) n := by
  have both := mirror.each gentle
  have same : n.each h = n := by
    have still : n.facts.map h = n.facts := by
      rw [mirror.facts, map_map]
      refine map_congr_left fun f member => ?_
      have kept : f.fact_id ∉ gone := by simpa using (mem_filter.mp member).2
      rw [Function.comp_apply, ← relink_gentle gentle, stay f kept]
    unfold Memory.each
    rw [still]
  rw [same] at both
  exact both

theorem Mirror.lookup (mirror : Mirror gone link m n) (id : String) :
    n.lookup id = if id ∈ gone then none else (m.lookup id).map (relink link) := by
  unfold Memory.lookup
  rw [mirror.facts, find?_map, find?_filter]
  by_cases out : id ∈ gone
  · rw [if_pos out, Option.map_eq_none_iff, find?_eq_none]
    intro f _
    by_cases same : f.fact_id = id
    · simp [same, out]
    · simp [relink, same]
  · rw [if_neg out]
    congr 2
    funext f
    by_cases same : f.fact_id = id
    · simp [relink, same, out]
    · simp [relink, same]

variable {id : String}

section
variable (mirror : Mirror gone link m n)
include mirror

theorem Mirror.lookup_kept (kept : id ∉ gone) :
    n.lookup id = (m.lookup id).map (relink link) := by rw [mirror.lookup, if_neg kept]

theorem Mirror.lookup_gone (out : id ∈ gone) : n.lookup id = none := by
  rw [mirror.lookup, if_pos out]

theorem Mirror.not_gone (unknown : m.lookup id = none) : id ∉ gone :=
  fun out => mirror.known id out unknown

theorem Mirror.active (id tenant : String) :
    n.active_consolidation_for_source id tenant = m.active_consolidation_for_source id tenant := by
  have agree : ∀ f ∈ m.facts, (decide (f.fact_id ∉ gone) && n.retires id tenant (relink link f)) = m.retires id tenant f := by
    intro f member
    unfold retires
    rw [show (relink link f).fact_id = f.fact_id from rfl, mirror.sources]
    by_cases out : f.fact_id ∈ gone
    · have dead := mirror.dead f member out
      cases m.consolidation_sources f.fact_id <;> simp [out, dead]
    · simp [out]
      rfl
  unfold active_consolidation_for_source
  rw [mirror.facts, any_map, any_filter, Bool.eq_iff_iff, any_eq_true, any_eq_true]
  constructor
  · rintro ⟨f, member, holds⟩
    exact ⟨f, member, by rw [← agree f member]; exact holds⟩
  · rintro ⟨f, member, holds⟩
    exact ⟨f, member, by rw [← agree f member] at holds; exact holds⟩

theorem Mirror.edges (tenant : String) (successor : Option String)
    (ids : List String) : n.edgesAre tenant successor ids = m.edgesAre tenant successor ids := by
  unfold edgesAre
  rw [Bool.eq_iff_iff, all_eq_true, all_eq_true]
  refine forall₂_congr fun id _ => ?_
  by_cases out : id ∈ gone
  · rw [mirror.lookup_gone out]
    cases found : m.lookup id with
    | none => rfl
    | some f =>
      obtain ⟨there, same⟩ := lookup_some found
      have dead := mirror.dead f there (same ▸ out)
      simp [dead]
  · rw [mirror.lookup_kept out]
    cases m.lookup id <;> rfl

theorem Mirror.protected (kept : id ∉ gone) : n.protectedSource id = m.protectedSource id := by
  unfold protectedSource
  rw [mirror.lookup_kept kept]
  cases m.lookup id with
  | none => rfl
  | some f => exact mirror.active id f.tenant_hash

end

theorem Mirror.sameTenant (mirror : Mirror gone link m n) (first : a ∉ gone) (second : b ∉ gone) :
    n.sameTenant a b = m.sameTenant a b := by
  unfold Memory.sameTenant
  rw [mirror.lookup_kept first, mirror.lookup_kept second]
  cases m.lookup a <;> cases m.lookup b <;> rfl

theorem modify_unknown (unknown : n.lookup id = none) (h : Fact → Fact) : n.modify id h = n := by
  have still : n.facts.map (fun f => if f.fact_id = id then h f else f) = n.facts := by
    conv_rhs => rw [← map_id n.facts]
    refine map_congr_left fun f member => ?_
    rw [if_neg (lookup_none.mp unknown f member)]
    rfl
  unfold modify
  rw [still]

theorem Mirror.modify (mirror : Mirror gone link m n) (gentle : Gentle h) (id : String) :
    Mirror gone link (m.modify id h) (n.modify id h) := by
  rw [modify_eq_each, modify_eq_each]
  exact mirror.each (gentle_one gentle id)

section
variable (mirror : Mirror gone link m n)
include mirror

theorem Mirror.modify_gone (gentle : Gentle h) (out : id ∈ gone) : Mirror gone link (m.modify id h) n := by
  rw [modify_eq_each]
  refine mirror.unseen (gentle_one gentle id) fun f kept => ?_
  have other : f.fact_id ≠ id := fun same => kept (same ▸ out)
  simp [other]

theorem Mirror.retire (ids : List String) (successor : Option String) :
    Mirror gone link (m.retireAll (fun _ => true) ids successor) (n.retireAll (fun _ => true) ids successor) := by
  rw [retireAll_eq_each, retireAll_eq_each]
  exact mirror.each (gentle_retire _ (fun _ _ => rfl) ids successor)

theorem Mirror.record (kept : id ∉ gone) (ids : List String) :
    Mirror gone link (m.recordSources id ids) (n.recordSources id ids) where
  facts := mirror.facts
  sources x := by
    unfold recordSources
    dsimp only
    rw [KeyMap.insert_apply, KeyMap.insert_apply, mirror.sources]
    by_cases same : x = id
    · rw [if_pos same, if_pos same, if_neg (same ▸ kept)]
    · rw [if_neg same, if_neg same]
  dead := mirror.dead
  known := mirror.known

theorem Mirror.insert (unknown : m.lookup fact.fact_id = none) :
    Mirror gone (Function.update link fact.fact_id fact.supersedes) (m.insert_fact_indexes fact)
      (n.insert_fact_indexes fact) where
  facts := by
    have old : ∀ f ∈ m.facts.filter fun f => f.fact_id ∉ gone,
        relink (Function.update link fact.fact_id fact.supersedes) f = relink link f := by
      intro f member
      unfold relink
      rw [Function.update_of_ne (lookup_none.mp unknown f (mem_filter.mp member).1)]
    have new : relink (Function.update link fact.fact_id fact.supersedes) fact = fact := by
      unfold relink
      rw [Function.update_self]
    unfold insert_fact_indexes
    rw [filter_append, map_append, map_congr_left old, ← mirror.facts, filter_singleton]
    simp [mirror.not_gone unknown, new]
  sources := mirror.sources
  dead f member out := by
    rcases mem_append.mp member with old | new
    · exact mirror.dead f old out
    · rw [mem_singleton.mp new] at out
      exact absurd out (mirror.not_gone unknown)
  known id out := by
    rw [lookup_insert]
    cases found : m.lookup id with
    | none => exact absurd found (mirror.known id out)
    | some f => simp

end

section
variable (mirror : Mirror gone link m n)
include mirror

theorem Mirror.unknown (unknown : m.lookup id = none) : n.lookup id = none := by
  rw [mirror.lookup_kept (mirror.not_gone unknown), unknown]
  rfl

theorem Mirror.unless {c d : Bool} (soft : Gentle edit) (same : id ∉ gone → c = d) :
    Mirror gone link (if c then m else m.modify id edit) (if d then n else n.modify id edit) := by
  by_cases out : id ∈ gone
  · rw [modify_unknown (mirror.lookup_gone out), ite_self]
    split_ifs
    · exact mirror
    · exact mirror.modify_gone soft out
  · rw [same out]
    split_ifs
    · exact mirror
    · exact mirror.modify soft id

theorem Mirror.replayDelete (id : String) :
    Mirror gone link (m.replayDelete id) (n.replayDelete id) :=
  mirror.unless gentle_setDeleted fun out => by rw [mirror.sources, if_neg out, mirror.protected out]

theorem Mirror.replaySupersede (kept : successor ∉ gone) :
    Mirror gone link (m.replaySupersede id successor) (n.replaySupersede id successor) := by
  unfold Memory.replaySupersede
  by_cases out : id ∈ gone
  · have none : n.sameTenant id successor = false := by
      unfold Memory.sameTenant
      rw [mirror.lookup_gone out]
    rw [none]
    simp
    split_ifs
    · exact mirror.modify_gone (gentle_setSupersededBy _) out
    · exact mirror
  · rw [mirror.sameTenant out kept, mirror.protected out]
    split_ifs
    · exact mirror.modify (gentle_setSupersededBy _) id
    · exact mirror

theorem Mirror.replayClear (id : String) :
    Mirror gone link (m.replayClear id) (n.replayClear id) :=
  mirror.unless (gentle_setSupersededBy _) fun out => (mirror.protected out).symm

theorem Mirror.replayUndo (id : String) (restored : List String) :
    Mirror gone link (m.replayUndo id restored) (n.replayUndo id restored) := by
  unfold Memory.replayUndo
  by_cases out : id ∈ gone
  · rw [mirror.lookup_gone out]
    cases found : m.lookup id with
    | none => exact mirror
    | some canonical =>
      obtain ⟨there, same⟩ := lookup_some found
      have dead := mirror.dead canonical there (same ▸ out)
      simp [canUndo, dead]
      exact mirror
  · rw [mirror.lookup_kept out, mirror.sources, if_neg out]
    cases m.lookup id with
    | none => exact mirror
    | some canonical =>
      have agree : ∀ expected, n.canUndo (relink link canonical) id restored expected =
          m.canUndo canonical id restored expected := by
        intro expected
        unfold canUndo
        rw [mirror.edges]
        rfl
      simp [agree]
      split_ifs
      · exact (mirror.modify gentle_setDeleted id).retire _ none
      · exact mirror

end

end

/-- The chain of the first fact with an identifier. -/
def keyIn (bones : List Bone) (id : String) : Option ChainKey := (bones.find? fun b => b.fact_id = id).map Bone.chainKey

/-- A link that leads into another chain. -/
def badLink (bones : List Bone) (key : ChainKey) : Option String → Bool
  | some previous_id => (keyIn bones previous_id).any fun other => decide (other ≠ key)
  | none => false

theorem keyIn_bones (m : Memory) (id : String) : keyIn m.bones id = (m.lookup id).map Fact.chainKey := by
  unfold keyIn bones lookup
  rw [find?_map, Option.map_map]
  rfl

theorem badSupersedes_eq (m : Memory) (f : Fact) : m.badSupersedes f = badLink m.bones f.chainKey f.supersedes := by
  unfold badSupersedes badLink
  cases f.supersedes with
  | none => rfl
  | some previous_id =>
    dsimp only
    rw [keyIn_bones]
    cases m.lookup previous_id with
    | none => rfl
    | some previous =>
      simp [Fact.chainKey]

theorem keyIn_append (bones : List Bone) (b : Bone) (id : String) :
    keyIn (bones ++ [b]) id = (keyIn bones id).or (if b.fact_id = id then some b.chainKey else none) := by
  unfold keyIn
  rw [find?_append]
  by_cases same : b.fact_id = id
  · cases bones.find? fun b => b.fact_id = id <;> simp
  · cases bones.find? fun b => b.fact_id = id <;> simp [same]

/-- The store's link is the replayed one, unless that leads into another chain: then it has none. -/
def Linked (gone : List String) (link : String → Option String) (live replayed : List Bone) : Prop :=
  ∀ b ∈ live, b.fact_id ∉ gone →
    b.supersedes = if badLink replayed b.chainKey (link b.fact_id) then none else link b.fact_id

/-- A store's memory and the replay of its journal. -/
structure Twin (gone : List String) (link : String → Option String) (m n : Memory) : Prop extends Mirror gone link m n where
  linked : Linked gone link m.bones n.bones

/-- A new fact under an identifier nothing names, linked within its chain. -/
structure NewFact (m : Memory) (fact : Fact) : Prop where
  unseen : m.Unseen fact.fact_id
  unretired : fact.superseded_by = none
  chained : fact.supersedes = none ∨ ∃ p ∈ m.facts, fact.supersedes = some p.fact_id ∧ p.chainKey = fact.chainKey

theorem NewFact.unknown (new : NewFact m fact) : m.lookup fact.fact_id = none :=
  lookup_none.mpr fun f member => (new.unseen f member).1

section
variable {gone : List String} {link : String → Option String} {m n : Memory}

theorem Twin.insert (twin : Twin gone link m n) (nodup : m.ids.Nodup) (new : NewFact m fact) :
    ∃ link', Twin gone link' (m.insert_fact_indexes fact) (n.insert_fact_indexes fact) := by
  refine ⟨_, twin.toMirror.insert new.unknown, ?_⟩
  have absent := twin.toMirror.unknown new.unknown
  rw [bones_insert, bones_insert]
  intro b member kept
  rcases mem_append.mp member with old | fresh
  · obtain ⟨f, there, rfl⟩ := mem_map.mp old
    obtain ⟨other, before, _⟩ := new.unseen f there
    have same := twin.linked (boneOf f) old kept
    have link_same : Function.update link fact.fact_id fact.supersedes (boneOf f).fact_id = link (boneOf f).fact_id :=
      Function.update_of_ne other _ _
    rw [link_same]
    have still : badLink (n.bones ++ [boneOf fact]) (boneOf f).chainKey (link (boneOf f).fact_id) =
        badLink n.bones (boneOf f).chainKey (link (boneOf f).fact_id) := by
      cases target : link (boneOf f).fact_id with
      | none => rfl
      | some previous_id =>
        by_cases self : fact.fact_id = previous_id
        · rw [target, ← self] at same
          have clear : badLink n.bones (boneOf f).chainKey (some fact.fact_id) = false := by
            unfold badLink
            dsimp only
            rw [keyIn_bones, absent]
            rfl
          rw [clear] at same
          exact absurd same before
        · unfold badLink
          dsimp only
          rw [keyIn_append, if_neg (show ¬(boneOf fact).fact_id = previous_id from self), Option.or_none]
    rw [still]
    exact same
  · rw [mem_singleton.mp fresh]
    have link_new : Function.update link fact.fact_id fact.supersedes (boneOf fact).fact_id = fact.supersedes :=
      Function.update_self _ _ _
    rw [link_new]
    have good : badLink (n.bones ++ [boneOf fact]) (boneOf fact).chainKey fact.supersedes = false := by
      rcases new.chained with none | ⟨p, there, target, chain⟩
      · rw [none]
        rfl
      · rw [target]
        have other : ¬(boneOf fact).fact_id = p.fact_id := fun same => (new.unseen p there).1 same.symm
        unfold badLink
        dsimp only
        rw [keyIn_append, if_neg other, Option.or_none, keyIn_bones, twin.toMirror.lookup, lookup_of_mem nodup there]
        split_ifs
        · rfl
        · have key : (relink link p).chainKey = (boneOf fact).chainKey := chain
          simp [key]
    rw [good]
    rfl

theorem Twin.of_bones (twin : Twin gone link m n) (mirror : Mirror gone link m' n') (left : m'.bones = m.bones)
    (right : n'.bones = n.bones) : Twin gone link m' n' := by
  refine ⟨mirror, ?_⟩
  rw [left, right]
  exact twin.linked

variable {policy : PrivacyPolicy}

theorem replay_journal_insert_new (settled : Settled policy fact) (unknown : m.lookup fact.fact_id = none) :
    m.replay_journal_insert policy fact = (m.insert_fact_indexes fact, true) := by
  unfold replay_journal_insert
  rw [show incoming policy fact = fact from settled]
  simp [unknown]

theorem incoming_stamped (policy : PrivacyPolicy) (f : Fact) :
    incoming policy { f with tenant_hash := stampTenant f.tenant_hash } = incoming policy f := by
  unfold incoming enforce_global_fact
  split_ifs <;> simp only [stampTenant_stampTenant]

/-- A consolidation is skipped unless its canonical fact is new and its sources are valid. -/
theorem replayConsolidate_cases (policy : PrivacyPolicy) (m : Memory) (canonical : Fact) (ids : List String) :
    Memory.replayConsolidate policy m canonical ids = m ∨ canonical.deleted = false ∧ m.lookup canonical.fact_id = none ∧
        m.sourcesValid { canonical with tenant_hash := stampTenant canonical.tenant_hash } ids = true := by
  by_cases skip : (canonical.deleted || (m.lookup canonical.fact_id).isSome ||
      !m.sourcesValid { canonical with tenant_hash := stampTenant canonical.tenant_hash } ids) = true
  · exact .inl (if_pos skip)
  · simp at skip
    exact .inr ⟨skip.1.1, skip.1.2, skip.2⟩

theorem replayConsolidate_eq (policy : PrivacyPolicy) (canonical : Fact) (ids : List String)
    (unknown : m.lookup canonical.fact_id = none) (standing : canonical.deleted = false)
    (valid : m.sourcesValid { canonical with tenant_hash := stampTenant canonical.tenant_hash } ids = true) :
    replayConsolidate policy m canonical ids =
      ((m.insert_fact_indexes (incoming policy canonical)).retireAll (fun _ => true) ids
        (some canonical.fact_id)).recordSources canonical.fact_id ids := by
  have id := (incoming_fields policy canonical).1
  unfold replayConsolidate
  rw [if_neg (by rw [unknown, valid, standing]; simp)]
  unfold replay_journal_insert
  dsimp only
  rw [incoming_stamped, id, unknown]
  rfl

theorem Twin.replayConsolidate (twin : Twin gone link m n) (nodup : m.ids.Nodup) (new : NewFact m (incoming policy canonical))
    (ids : List String) :
    ∃ link', Twin gone link' (Memory.replayConsolidate policy m canonical ids)
      (Memory.replayConsolidate policy n canonical ids) := by
  have id := (incoming_fields policy canonical).1
  have unknown : m.lookup canonical.fact_id = none := id ▸ new.unknown
  have valid : ∀ c : Fact, n.sourcesValid c ids = m.sourcesValid c ids := by
    intro c
    unfold sourcesValid
    rw [twin.toMirror.edges]
  by_cases take : canonical.deleted = false ∧
      m.sourcesValid { canonical with tenant_hash := stampTenant canonical.tenant_hash } ids = true
  · rw [replayConsolidate_eq policy canonical ids unknown take.1 take.2,
      replayConsolidate_eq policy canonical ids (twin.toMirror.unknown unknown) take.1 ((valid _).trans take.2)]
    obtain ⟨link', inserted⟩ := twin.insert nodup new
    refine ⟨link', inserted.of_bones
      ((inserted.toMirror.retire ids _).record (twin.toMirror.not_gone unknown) ids) ?_ ?_⟩
    · exact bones_retireAll _ _ (fun _ _ => rfl) ids _
    · exact bones_retireAll _ _ (fun _ _ => rfl) ids _
  · have skip : ∀ k : Memory, (∀ c : Fact, k.sourcesValid c ids = m.sourcesValid c ids) →
        Memory.replayConsolidate policy k canonical ids = k := by
      intro k same
      rcases replayConsolidate_cases policy k canonical ids with skipped | ⟨standing, _, accepted⟩
      · exact skipped
      · exact absurd ⟨standing, (same _).symm.trans accepted⟩ take
    rw [skip m fun _ => rfl, skip n valid]
    exact ⟨link, twin⟩

/-- The facts of a batch, each new when its turn comes. -/
def NewBatch (policy : PrivacyPolicy) : Memory → List Fact → Prop
  | _, [] => True
  | m, fact :: rest => Settled policy fact ∧ NewFact m fact ∧ NewBatch policy (m.insert_fact_indexes fact) rest

/-- A line that a store writes for a change of its own. -/
def Tame (policy : PrivacyPolicy) (gone : List String) (m : Memory) : JournalEvent → Prop
  | .Store fact => Settled policy fact ∧ NewFact m fact
  | .StoreBatch facts => NewBatch policy m facts
  | .Supersede _ successor => successor ∉ gone
  | .Consolidate canonical _ => NewFact m (incoming policy canonical)
  | .ConsolidationProvenance _ _ _ => False
  | _ => True

theorem Twin.replayBatch (twin : Twin gone link m n) (nodup : m.ids.Nodup) {facts : List Fact} (new : NewBatch policy m facts) :
    ∃ link', Twin gone link' (Memory.replayBatch policy m facts) (Memory.replayBatch policy n facts) := by
  induction facts generalizing m n link with
  | nil => exact ⟨link, twin⟩
  | cons fact rest ih =>
    obtain ⟨settled, first, later⟩ := new
    obtain ⟨link', inserted⟩ := twin.insert nodup first
    unfold Memory.replayBatch
    rw [replay_journal_insert_new settled first.unknown,
      replay_journal_insert_new settled (twin.toMirror.unknown first.unknown)]
    exact ih inserted (nodup_insert nodup first.unknown) later

/-- Every line a store writes keeps its memory and the replay of its journal alike. -/
theorem Twin.event (twin : Twin gone link m n) (nodup : m.ids.Nodup) (tame : Tame policy gone m e) :
    ∃ link', Twin gone link' (replayEvent policy m e) (replayEvent policy n e) := by
  unfold replayEvent
  by_cases readable : e.readable
  · rw [if_pos readable, if_pos readable]
    unfold applyEvent
    cases e with
    | Store fact =>
      obtain ⟨settled, new⟩ := tame
      dsimp only
      rw [replay_journal_insert_new settled new.unknown,
        replay_journal_insert_new settled (twin.toMirror.unknown new.unknown)]
      exact twin.insert nodup new
    | StoreBatch facts => exact twin.replayBatch nodup tame
    | Delete id =>
      exact ⟨link, twin.of_bones (twin.toMirror.replayDelete id) (bones_replayDelete m id) (bones_replayDelete n id)⟩
    | Supersede id successor =>
      exact ⟨link, twin.of_bones (twin.toMirror.replaySupersede tame) (bones_replaySupersede m id successor)
        (bones_replaySupersede n id successor)⟩
    | ClearSupersede id =>
      exact ⟨link, twin.of_bones (twin.toMirror.replayClear id) (bones_replayClear m id) (bones_replayClear n id)⟩
    | SetValidity id valid_from valid_to =>
      have gentle := gentle_setValidity valid_from valid_to
      exact ⟨link, twin.of_bones (twin.toMirror.modify gentle id) (bones_modify m id gentle) (bones_modify n id gentle)⟩
    | Consolidate canonical ids => exact twin.replayConsolidate nodup tame ids
    | ConsolidationProvenance id ids tenant => exact tame.elim
    | ConsolidateUndo id restored =>
      exact ⟨link, twin.of_bones (twin.toMirror.replayUndo id restored) (bones_replayUndo m id restored)
        (bones_replayUndo n id restored)⟩
  · rw [if_neg readable, if_neg readable]
    exact ⟨link, twin⟩

end

end Memory
end Crux.Facts
