import Crux.FactRuns

/-!
# What the changes of memory keep

Everything that happens to the facts in memory is an insertion at the end or a
change of each fact that keeps its identity. Here is what lookups give after
each, and what every line of a journal leaves as it was.
-/

namespace Crux.Facts
open List

/-- A change of facts that keeps what names a fact, its version and its place, and neither reads nor writes the link to the
version before. -/
structure Gentle (h : Fact → Fact) : Prop where
  fact_id : ∀ f, (h f).fact_id = f.fact_id
  tenant : ∀ f, (h f).tenant_hash = f.tenant_hash
  entity : ∀ f, (h f).entity = f.entity
  key : ∀ f, (h f).key = f.key
  version : ∀ f, (h f).version = f.version
  stored : ∀ f, (h f).stored_at = f.stored_at
  closed : ∀ f, (h f).is_private = f.is_private
  confidence : ∀ f, (h f).confidence = f.confidence
  tombstone : ∀ f, f.deleted = true → (h f).deleted = true
  blind : ∀ f x, h { f with supersedes := x } = { h f with supersedes := x }

variable {h : Fact → Fact}

theorem Gentle.supersedes (gentle : Gentle h) (f : Fact) : (h f).supersedes = f.supersedes := by
  have same := gentle.blind f f.supersedes
  rw [show { f with supersedes := f.supersedes } = f from rfl] at same
  rw [same]

theorem Gentle.chainKey (gentle : Gentle h) (f : Fact) : (h f).chainKey = f.chainKey := by
  unfold Fact.chainKey
  rw [gentle.tenant, gentle.entity, gentle.key]

theorem gentle_id : Gentle id := by
  constructor <;> intros <;> first | rfl | assumption

theorem Gentle.comp (outer : Gentle g) (inner : Gentle h) : Gentle fun f => g (h f) where
  fact_id f := (outer.fact_id _).trans (inner.fact_id f)
  tenant f := (outer.tenant _).trans (inner.tenant f)
  entity f := (outer.entity _).trans (inner.entity f)
  key f := (outer.key _).trans (inner.key f)
  version f := (outer.version _).trans (inner.version f)
  stored f := (outer.stored _).trans (inner.stored f)
  closed f := (outer.closed _).trans (inner.closed f)
  confidence f := (outer.confidence _).trans (inner.confidence f)
  tombstone f dead := outer.tombstone _ (inner.tombstone f dead)
  blind f x := (congrArg g (inner.blind f x)).trans (outer.blind (h f) x)

theorem Gentle.ite (gentle : Gentle h) {p : Fact → Bool}
    (blind : ∀ f x, p { f with supersedes := x } = p f) : Gentle fun f => if p f then h f else f := by
  obtain ⟨fact_id, tenant, entity, key, version, stored, closed, confidence, tombstone, blind'⟩ := gentle
  constructor
  case tombstone =>
    intro f dead
    split_ifs
    exacts [tombstone f dead, dead]
  case blind =>
    intro f x
    rw [blind f x]
    split_ifs
    exacts [blind' f x, rfl]
  all_goals
    intro f
    split_ifs
    exacts [by simp only [fact_id, tenant, entity, key, version, stored, closed, confidence], rfl]

namespace Memory

theorem gentle_setDeleted : Gentle setDeleted := by
  constructor <;> intros <;> rfl

theorem gentle_setSupersededBy (successor : Option String) : Gentle (setSupersededBy successor) := by
  constructor <;> intros <;> first | rfl | assumption

theorem gentle_setValidity (valid_from valid_to : Option Timestamp) : Gentle (setValidity valid_from valid_to) := by
  constructor <;> intros <;> first | rfl | assumption

/-- Every fact changed. -/
def each (m : Memory) (h : Fact → Fact) : Memory := { m with facts := m.facts.map h }

theorem modify_eq_each (m : Memory) (id : String) (h : Fact → Fact) :
    m.modify id h = m.each fun f => if decide (f.fact_id = id) then h f else f := by
  simp [modify, each]

theorem retireAll_eq_each (m : Memory) (keep : Fact → Bool) (ids : List String) (successor : Option String) :
    m.retireAll keep ids successor =
      m.each fun f => if ids.contains f.fact_id && keep f then setSupersededBy successor f else f := rfl

variable {h : Fact → Fact}

theorem gentle_one (gentle : Gentle h) (id : String) :
    Gentle fun f => if decide (f.fact_id = id) then h f else f := gentle.ite fun _ _ => rfl

theorem gentle_retire (keep : Fact → Bool) (blind : ∀ f x, keep { f with supersedes := x } = keep f) (ids : List String)
    (successor : Option String) :
    Gentle fun f => if ids.contains f.fact_id && keep f then setSupersededBy successor f else f :=
  (gentle_setSupersededBy successor).ite fun f x => by rw [blind f x]

variable {m : Memory} {id : String} {f : Fact}

theorem lookup_some (h : m.lookup id = some f) : f ∈ m.facts ∧ f.fact_id = id := by
  exact ⟨mem_of_find?_eq_some h, by simpa using find?_some h⟩

theorem lookup_none : m.lookup id = none ↔ ∀ f ∈ m.facts, f.fact_id ≠ id := by
  unfold lookup
  simp

/-- The identifiers, which belong to one fact each. -/
def ids (m : Memory) : List String := m.facts.map Fact.fact_id

theorem lookup_of_mem (nodup : m.ids.Nodup) (member : f ∈ m.facts) : m.lookup f.fact_id = some f := by
  cases found : m.lookup f.fact_id with
  | none => exact absurd rfl (lookup_none.mp found f member)
  | some g =>
    obtain ⟨there, same⟩ := lookup_some found
    rw [inj_on_of_nodup_map nodup there member same]

theorem lookup_each (keeps : ∀ f, (h f).fact_id = f.fact_id) (m : Memory) (id : String) :
    (m.each h).lookup id = (m.lookup id).map h := by
  unfold lookup each
  rw [find?_map]
  congr 1
  congr 1
  funext f
  simp [keeps f]

theorem lookup_insert (m : Memory) (fact : Fact) (id : String) :
    (m.insert_fact_indexes fact).lookup id = (m.lookup id).or (if fact.fact_id = id then some fact else none) := by
  unfold lookup insert_fact_indexes
  rw [find?_append]
  congr 1
  by_cases same : fact.fact_id = id <;> simp

theorem lookup_insert_other (other : fact.fact_id ≠ id) : (m.insert_fact_indexes fact).lookup id = m.lookup id := by
  rw [lookup_insert, if_neg other, Option.or_none]

theorem lookup_insert_same {m : Memory} {fact : Fact} (unknown : m.lookup fact.fact_id = none) :
    (m.insert_fact_indexes fact).lookup fact.fact_id = some fact := by
  rw [lookup_insert, unknown, if_pos rfl]
  rfl

theorem ids_each (keeps : ∀ f, (h f).fact_id = f.fact_id) (m : Memory) : (m.each h).ids = m.ids := by
  unfold ids each
  rw [map_map]
  exact map_congr_left fun f _ => keeps f

theorem ids_insert (m : Memory) (fact : Fact) : (m.insert_fact_indexes fact).ids = m.ids ++ [fact.fact_id] := by
  simp [ids, insert_fact_indexes]

theorem nodup_insert (nodup : m.ids.Nodup) (unknown : m.lookup fact.fact_id = none) :
    (m.insert_fact_indexes fact).ids.Nodup := by
  rw [ids_insert, nodup_append]
  refine ⟨nodup, by simp, ?_⟩
  intro a old b new same
  obtain ⟨f, member, rfl⟩ := mem_map.mp old
  rw [mem_singleton] at new
  exact lookup_none.mp unknown f member (same.trans new)

theorem stampTenant_stampTenant (tenant : String) : stampTenant (stampTenant tenant) = stampTenant tenant := by
  unfold stampTenant
  by_cases blank : isBlank tenant
  · rw [if_pos blank, if_neg (by decide)]
  · rw [if_neg blank, if_neg blank]

/-- A fact that passes every entrance as it is. -/
def Settled (policy : PrivacyPolicy) (f : Fact) : Prop := incoming policy f = f

variable {policy : PrivacyPolicy}

theorem settled_iff : Settled policy f ↔
      (policy.is_always_private f.entity = true → f.is_private = true) ∧ stampTenant f.tenant_hash = f.tenant_hash := by
  unfold Settled incoming enforce_global_fact
  constructor
  · intro same
    refine ⟨fun always => ?_, ?_⟩
    · rw [if_pos always] at same
      exact (congrArg Fact.is_private same).symm
    · by_cases always : policy.is_always_private f.entity = true
      · rw [if_pos always] at same
        exact congrArg Fact.tenant_hash same
      · rw [if_neg always] at same
        exact congrArg Fact.tenant_hash same
  · rintro ⟨shut, stamped⟩
    by_cases always : policy.is_always_private f.entity = true
    · rw [if_pos always]
      dsimp only
      rw [stamped, ← shut always]
    · rw [if_neg always]
      dsimp only
      rw [stamped]

theorem incoming_fields (policy : PrivacyPolicy) (f : Fact) :
    (incoming policy f).fact_id = f.fact_id ∧ (incoming policy f).tenant_hash = stampTenant f.tenant_hash ∧
      (incoming policy f).entity = f.entity ∧ (incoming policy f).key = f.key ∧
      (incoming policy f).version = f.version ∧ (incoming policy f).deleted = f.deleted ∧
      (incoming policy f).supersedes = f.supersedes ∧ (incoming policy f).superseded_by = f.superseded_by ∧
      (incoming policy f).confidence = f.confidence := by
  unfold incoming enforce_global_fact
  split_ifs <;> exact ⟨rfl, rfl, rfl, rfl, rfl, rfl, rfl, rfl, rfl⟩

theorem settled_incoming (policy : PrivacyPolicy) (f : Fact) : Settled policy (incoming policy f) := by
  rw [settled_iff]
  unfold incoming enforce_global_fact
  by_cases always : policy.is_always_private f.entity = true
  · rw [if_pos always]
    exact ⟨fun _ => rfl, stampTenant_stampTenant _⟩
  · rw [if_neg always]
    exact ⟨fun bad => absurd bad always, stampTenant_stampTenant _⟩

theorem settled_change (gentle : Gentle h) (settled : Settled policy f) : Settled policy (h f) := by
  rw [settled_iff] at settled ⊢
  rw [gentle.entity, gentle.closed, gentle.tenant]
  exact settled

/-- What every memory keeps: one fact for an identifier, each stamped and classified, and sources only for facts it has. -/
structure Sound (policy : PrivacyPolicy) (m : Memory) : Prop where
  nodup : m.ids.Nodup
  settled : ∀ f ∈ m.facts, Settled policy f
  sourced : ∀ id, m.lookup id = none → m.consolidation_sources id = none

theorem Sound.empty (policy : PrivacyPolicy) : Sound policy {} := ⟨nodup_nil, by simp, fun _ _ => rfl⟩

section
variable (sound : Sound policy m)
include sound

theorem Sound.each (gentle : Gentle h) : Sound policy (m.each h) := by
  refine ⟨by rw [ids_each gentle.fact_id]; exact sound.nodup, ?_, ?_⟩
  · intro f member
    obtain ⟨g, there, rfl⟩ := mem_map.mp member
    exact settled_change gentle (sound.settled g there)
  · intro id unknown
    rw [lookup_each gentle.fact_id, Option.map_eq_none_iff] at unknown
    exact sound.sourced id unknown

theorem Sound.modify (gentle : Gentle h) (id : String) : Sound policy (m.modify id h) := by
  rw [modify_eq_each]
  exact sound.each (gentle_one gentle id)

theorem Sound.retireAll (ids : List String)
    (successor : Option String) : Sound policy (m.retireAll (fun _ => true) ids successor) := by
  rw [retireAll_eq_each]
  exact sound.each (gentle_retire _ (fun _ _ => rfl) ids successor)

theorem Sound.recordSources (ids : List String)
    (there : m.lookup id ≠ none) : Sound policy (m.recordSources id ids) := by
  refine ⟨sound.nodup, sound.settled, fun x unknown => ?_⟩
  have other : x ≠ id := fun same => there (same ▸ unknown)
  unfold Memory.recordSources
  dsimp only
  rw [KeyMap.insert_other _ _ other]
  exact sound.sourced x unknown

theorem Sound.insert (unknown : m.lookup fact.fact_id = none) (settled : Settled policy fact) :
    Sound policy (m.insert_fact_indexes fact) := by
  refine ⟨nodup_insert sound.nodup unknown, ?_, ?_⟩
  · intro f member
    rcases mem_append.mp member with old | new
    · exact sound.settled f old
    · rw [mem_singleton.mp new]
      exact settled
  · intro id absent
    rw [lookup_insert, Option.or_eq_none_iff] at absent
    exact sound.sourced id absent.1

theorem Sound.replay_journal_insert (fact : Fact) :
    Sound policy (m.replay_journal_insert policy fact).1 := by
  unfold Memory.replay_journal_insert
  dsimp only
  split_ifs with known
  · exact sound
  · exact sound.insert (by simpa using known) (settled_incoming policy fact)

theorem Sound.replayBatch (facts : List Fact) : Sound policy (Memory.replayBatch policy m facts) := by
  induction facts generalizing m with
  | nil => exact sound
  | cons fact rest ih => exact ih (sound.replay_journal_insert fact)

theorem Sound.replayConsolidate (canonical : Fact)
    (ids : List String) : Sound policy (Memory.replayConsolidate policy m canonical ids) := by
  unfold Memory.replayConsolidate
  dsimp only
  split_ifs with skip
  · exact sound
  · have unknown : m.lookup canonical.fact_id = none := by
      cases found : m.lookup canonical.fact_id with
      | none => rfl
      | some f => simp [found] at skip
    have inserted := sound.replay_journal_insert { canonical with tenant_hash := stampTenant canonical.tenant_hash }
    unfold Memory.replay_journal_insert at inserted ⊢
    dsimp only at inserted ⊢
    rw [(incoming_fields policy _).1, unknown] at inserted ⊢
    refine Sound.recordSources (inserted.retireAll ids _) ids ?_
    rw [retireAll_eq_each, lookup_each (gentle_retire _ (fun _ _ => rfl) ids _).fact_id]
    have known := @lookup_insert_same m (incoming policy { canonical with tenant_hash := stampTenant canonical.tenant_hash })
      (by rw [(incoming_fields policy _).1]; exact unknown)
    rw [(incoming_fields policy _).1] at known
    simp [known]

/-- No event, whatever it says, leaves memory unsound. -/
theorem Sound.apply (e : JournalEvent) : Sound policy (applyEvent policy m e) := by
  cases e with
  | Store fact => exact sound.replay_journal_insert fact
  | StoreBatch facts => exact sound.replayBatch facts
  | Delete id =>
    dsimp only [applyEvent, replayDelete]
    split_ifs
    exacts [sound, sound.modify gentle_setDeleted id]
  | Supersede id successor =>
    dsimp only [applyEvent, replaySupersede]
    split_ifs
    exacts [sound.modify (gentle_setSupersededBy _) id, sound]
  | ClearSupersede id =>
    dsimp only [applyEvent, replayClear]
    split_ifs
    exacts [sound, sound.modify (gentle_setSupersededBy _) id]
  | SetValidity id valid_from valid_to => exact sound.modify (gentle_setValidity valid_from valid_to) id
  | Consolidate canonical ids => exact sound.replayConsolidate canonical ids
  | ConsolidationProvenance id ids tenant =>
    dsimp only [applyEvent, replayProvenance]
    split_ifs with valid
    · refine sound.recordSources ids fun unknown => ?_
      simp [unknown] at valid
    · exact sound
  | ConsolidateUndo id restored =>
    dsimp only [applyEvent, replayUndo]
    cases m.lookup id with
    | none => exact sound
    | some canonical =>
      dsimp only
      split_ifs
      exacts [(sound.modify gentle_setDeleted id).retireAll _ none, sound]

theorem Sound.event (e : JournalEvent) : Sound policy (replayEvent policy m e) := by
  unfold replayEvent
  split_ifs
  exacts [sound.apply e, sound]

theorem Sound.lines (journal : List JournalEvent) :
    Sound policy (journal.foldl (replayEvent policy) m) := by
  induction journal generalizing m with
  | nil => exact sound
  | cons e rest ih => exact ih (sound.event e)

end

/-- Identifier, chain, version and the link to the version before. -/
structure Bone where
  fact_id : String
  chainKey : ChainKey
  version : UInt32
  supersedes : Option String
deriving DecidableEq

def boneOf (f : Fact) : Bone := ⟨f.fact_id, f.chainKey, f.version, f.supersedes⟩

section
variable (m : Memory)

def bones : List Bone := m.facts.map boneOf

theorem bones_each (gentle : Gentle h) : (m.each h).bones = m.bones := by
  unfold bones Memory.each
  rw [map_map]
  refine map_congr_left fun f _ => ?_
  unfold boneOf
  rw [Function.comp_apply, gentle.fact_id, gentle.chainKey, gentle.version, gentle.supersedes]

theorem bones_modify (id : String) (gentle : Gentle h) : (m.modify id h).bones = m.bones := by
  rw [modify_eq_each]
  exact bones_each m (gentle_one gentle id)

theorem bones_retireAll (keep : Fact → Bool) (blind : ∀ f x, keep { f with supersedes := x } = keep f)
    (ids : List String) (successor : Option String) : (m.retireAll keep ids successor).bones = m.bones := by
  rw [retireAll_eq_each]
  exact bones_each m (gentle_retire keep blind ids successor)

theorem bones_insert (fact : Fact) : (m.insert_fact_indexes fact).bones = m.bones ++ [boneOf fact] := by
  simp [bones, insert_fact_indexes]

theorem bones_replayDelete (id : String) : (m.replayDelete id).bones = m.bones := by
  unfold replayDelete
  split_ifs
  exacts [rfl, bones_modify m id gentle_setDeleted]

theorem bones_replaySupersede (id successor : String) : (m.replaySupersede id successor).bones = m.bones := by
  unfold replaySupersede
  split_ifs
  exacts [bones_modify m id (gentle_setSupersededBy _), rfl]

theorem bones_replayClear (id : String) : (m.replayClear id).bones = m.bones := by
  unfold replayClear
  split_ifs
  exacts [rfl, bones_modify m id (gentle_setSupersededBy _)]

theorem bones_replayUndo (id : String) (restored : List String) : (m.replayUndo id restored).bones = m.bones := by
  unfold replayUndo
  cases m.lookup id with
  | none => rfl
  | some canonical =>
    dsimp only
    split_ifs
    · rw [bones_retireAll _ _ (fun _ _ => rfl), bones_modify _ _ gentle_setDeleted]
    · rfl

end

end Memory
end Crux.Facts
