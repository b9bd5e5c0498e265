import Crux.FactCompacted

/-!
# One head in every chain

Storing a fact supersedes the newest one of its chain and a consolidation its
sources, so of the facts of a chain that are not deleted only the last can be
current. An undo revives its sources: these stand right before the canonical fact
in the order of versions.
-/

namespace Crux.Facts
open List FactStore
namespace Memory

/-- Of two facts of a chain that are not deleted the earlier is superseded. -/
def OneHead (m : Memory) : Prop :=
  m.facts.Pairwise fun f g => f.chainKey = g.chainKey → f.deleted = false → g.deleted = false → f.superseded_by ≠ none

/-- Of two facts of a chain that are not deleted the earlier has the lower version. -/
def Rising (m : Memory) : Prop :=
  m.facts.Pairwise fun f g => f.chainKey = g.chainKey → f.deleted = false → g.deleted = false → f.version < g.version

/-- No version lies between those of a source and its canonical fact. -/
def Adjacent (m : Memory) : Prop :=
  ∀ c ∈ m.facts, c.deleted = false → ∀ ids, m.consolidation_sources c.fact_id = some ids →
    ∀ f ∈ m.facts, f.deleted = false → f.fact_id ∈ ids → f.chainKey = c.chainKey ∧ f.version < c.version ∧
      ∀ g ∈ m.facts, g.deleted = false → g.chainKey = c.chainKey → f.version < g.version → c.version ≤ g.version

/-- Facts were stored one after the other. -/
def Clocked (m : Memory) : Prop := m.facts.Pairwise fun f g => f.stored_at < g.stored_at

theorem either_before {α : Type} {R : α → α → Prop} {list : List α} (pairs : list.Pairwise R) {a b : α} (left : a ∈ list)
    (right : b ∈ list) (distinct : a ≠ b) : R a b ∨ R b a := by
  have : Std.Symm fun x y => R x y ∨ R y x := ⟨fun _ _ => Or.symm⟩
  have both : list.Pairwise fun x y => R x y ∨ R y x := pairs.imp Or.inl
  exact both.forall left right distinct

section
variable {policy : PrivacyPolicy} {m m' : Memory}

variable {c : ChainKey}

theorem newest_split (found : m.newest c = some p) :
    ∃ before after, m.chain c = before ++ p :: after ∧ ∀ g ∈ after, g.deleted = true := by
  obtain ⟨_, after, before, split, dead⟩ := find?_eq_some_iff_append.mp found
  refine ⟨before.reverse, after.reverse, ?_, fun g member => ?_⟩
  · rw [← reverse_reverse (m.chain c), split]
    simp
  · simpa using dead g (mem_reverse.mp member)

variable {f : Fact}

/-- The newest fact comes after all others of its chain that are not deleted. -/
theorem newest_last {R : Fact → Fact → Prop} (pairs : m.facts.Pairwise R) (found : m.newest c = some p) (member : f ∈ m.facts)
    (chain : f.chainKey = c) (alive : f.deleted = false) : f = p ∨ R f p := by
  obtain ⟨before, after, split, dead⟩ := newest_split found
  have ordered : (m.chain c).Pairwise R := pairs.sublist filter_sublist
  have there : f ∈ m.chain c := mem_filter.mpr ⟨member, by simpa using chain⟩
  rw [split] at ordered there
  rcases mem_append.mp there with early | late
  · exact .inr ((pairwise_append.mp ordered).2.2 f early p mem_cons_self)
  · rcases mem_cons.mp late with same | later
    · exact .inl same
    · rw [dead f later] at alive
      cases alive

/-- A memory with a new fact, for which the newest fact of the chain was superseded. -/
structure Extends (m m' : Memory) (fact : Fact) (h : Fact → Fact) : Prop where
  facts : m'.facts = m.facts.map h ++ [fact]
  gentle : Gentle h
  standing : ∀ f, (h f).deleted = f.deleted
  retires : ∀ f, f.superseded_by ≠ none → (h f).superseded_by ≠ none
  prior : ∀ p, m.newest fact.chainKey = some p → (h p).superseded_by ≠ none

variable {fact : Fact} {h : Fact → Fact}

theorem extends_insert (settled : ∀ p, m.newest fact.chainKey = some p → p.superseded_by ≠ none) :
    Extends m (m.insert_fact_indexes fact) fact id :=
  ⟨by simp [insert_fact_indexes], gentle_id, fun _ => rfl, fun _ => id, settled⟩

theorem newest_of (member : f ∈ m.facts) (chain : f.chainKey = c) (alive : f.deleted = false) : ∃ p, m.newest c = some p := by
  cases found : m.newest c with
  | some p => exact ⟨p, rfl⟩
  | none =>
    rw [newest_none found member chain] at alive
    cases alive

theorem alive_before (gentle : Gentle h) (alive : (h f).deleted = false) : f.deleted = false := by
  cases dead : f.deleted with
  | false => rfl
  | true =>
    rw [gentle.tombstone f dead] at alive
    cases alive

/-- A relation between two facts of a chain that are not deleted. -/
abbrev InChain (R : Fact → Fact → Prop) (f g : Fact) : Prop :=
  f.chainKey = g.chainKey → f.deleted = false → g.deleted = false → R f g

variable {R : Fact → Fact → Prop} {list : List Fact}

theorem inChain_map (gentle : Gentle h) (pairs : list.Pairwise (InChain R)) (kept : ∀ f g, R f g → R (h f) (h g)) :
    (list.map h).Pairwise (InChain R) := by
  rw [pairwise_map]
  refine pairs.imp fun {f g} pair chain alive alive' => ?_
  rw [gentle.chainKey, gentle.chainKey] at chain
  exact kept f g (pair chain (alive_before gentle alive) (alive_before gentle alive'))

theorem Extends.inChain (extends_m : Extends m m' fact h) (pairs : m.facts.Pairwise (InChain R))
    (kept : ∀ f g, R f g → R (h f) (h g)) (last : ∀ f p, m.newest fact.chainKey = some p → f = p ∨ R f p → R (h f) fact) :
    m'.facts.Pairwise (InChain R) := by
  rw [extends_m.facts, pairwise_append]
  refine ⟨inChain_map extends_m.gentle pairs kept, pairwise_singleton _ _, ?_⟩
  intro f' member g new chain alive _
  obtain ⟨f, there, rfl⟩ := mem_map.mp member
  rw [mem_singleton.mp new] at chain ⊢
  rw [extends_m.gentle.chainKey] at chain
  rw [extends_m.standing] at alive
  obtain ⟨p, found⟩ := newest_of there chain alive
  obtain ⟨_, p_chain, p_alive⟩ := newest_mem found
  exact last f p found <| (newest_last pairs found there chain alive).imp_right fun pair =>
    pair (chain.trans p_chain.symm) alive p_alive

theorem OneHead.extends (one : OneHead m) (extends_m : Extends m m' fact h) : OneHead m' := by
  refine extends_m.inChain one (fun f _ => extends_m.retires f) fun f p found pair => ?_
  rcases pair with rfl | retired
  · exact extends_m.prior f found
  · exact extends_m.retires f retired

theorem below_newest (rising : Rising m) (found : m.newest c = some p) (member : f ∈ m.facts) (chain : f.chainKey = c)
    (alive : f.deleted = false) : f.version ≤ p.version := by
  obtain ⟨_, p_chain, p_alive⟩ := newest_mem found
  rcases newest_last rising found member chain alive with same | pair
  · rw [same]
    exact UInt32.le_refl _
  · exact UInt32.le_of_lt (pair (chain.trans p_chain.symm) alive p_alive)

theorem Rising.extends (rising : Rising m) (extends_m : Extends m m' fact h)
    (above : ∀ p, m.newest fact.chainKey = some p → p.version < fact.version) : Rising m' := by
  refine extends_m.inChain rising (fun f g lower => ?_) fun f p found pair => ?_
  · rw [extends_m.gentle.version, extends_m.gentle.version]
    exact lower
  · rw [extends_m.gentle.version]
    rcases pair with rfl | lower
    · exact above f found
    · exact UInt32.lt_trans lower (above p found)

theorem Clocked.extends (clocked : Clocked m) (extends_m : Extends m m' fact h)
    (later : ∀ f ∈ m.facts, f.stored_at < fact.stored_at) : Clocked m' := by
  unfold Clocked
  rw [extends_m.facts, pairwise_append, pairwise_map]
  refine ⟨clocked.imp fun {f g} pair => ?_, pairwise_singleton _ _, ?_⟩
  · rw [extends_m.gentle.stored, extends_m.gentle.stored]
    exact pair
  · intro f' member g new
    obtain ⟨f, there, rfl⟩ := mem_map.mp member
    rw [mem_singleton.mp new, extends_m.gentle.stored]
    exact later f there

theorem Extends.members (extends_m : Extends m m' fact h) (member : g ∈ m'.facts) : g = fact ∨ ∃ f ∈ m.facts, g = h f := by
  rw [extends_m.facts] at member
  rcases mem_append.mp member with early | late
  · obtain ⟨f, there, rfl⟩ := mem_map.mp early
    exact .inr ⟨f, there, rfl⟩
  · exact .inl (mem_singleton.mp late)

/-- The new fact is the highest of its chain, and no canonical fact or one whose sources are current. -/
structure Placed (m m' : Memory) (fact : Fact) : Prop where
  above : ∀ p, m.newest fact.chainKey = some p → p.version < fact.version
  unknown : m.lookup fact.fact_id = none
  old : ∀ id, id ≠ fact.fact_id → m'.consolidation_sources id = m.consolidation_sources id
  new : ∀ ids, m'.consolidation_sources fact.fact_id = some ids → fact.fact_id ∉ ids ∧
    ∀ f ∈ m.facts, f.fact_id ∈ ids → f.chainKey = fact.chainKey ∧ f.deleted = false ∧ f.superseded_by = none

theorem Adjacent.extends (adjacent : Adjacent m) (edges : Edges m) (one : OneHead m) (rising : Rising m) (extends_m : Extends m m' fact h) (placed : Placed m m' fact) :
    Adjacent m' := by
  obtain ⟨above, unknown, old, new⟩ := placed
  intro c member standing ids sources f there alive listed
  rcases extends_m.members member with rfl | ⟨c, c_there, rfl⟩
  · obtain ⟨not_listed, targets⟩ := new ids sources
    rcases extends_m.members there with rfl | ⟨f, f_there, rfl⟩
    · exact absurd listed not_listed
    · rw [extends_m.gentle.fact_id] at listed
      obtain ⟨chain, f_alive, current⟩ := targets f f_there listed
      -- a current fact is the newest of its chain
      obtain ⟨p, found⟩ := newest_of f_there chain f_alive
      obtain ⟨_, p_chain, p_alive⟩ := newest_mem found
      have f_newest : f = p := by
        rcases newest_last one found f_there chain f_alive with same | pair
        · exact same
        · exact absurd current (pair (chain.trans p_chain.symm) f_alive p_alive)
      rw [extends_m.gentle.chainKey, extends_m.gentle.version]
      refine ⟨chain, f_newest ▸ above p found, fun g g_there g_alive g_chain higher => ?_⟩
      rcases extends_m.members g_there with rfl | ⟨g, g_old, rfl⟩
      · exact UInt32.le_refl _
      · rw [extends_m.gentle.version] at higher
        rw [extends_m.gentle.chainKey] at g_chain
        rw [extends_m.standing] at g_alive
        have low := below_newest rising found g_old g_chain g_alive
        rw [← f_newest] at low
        exact absurd higher (UInt32.not_lt.mpr low)
  · rw [extends_m.gentle.fact_id] at sources
    rw [extends_m.standing] at standing
    rw [old _ (lookup_none.mp unknown c c_there)] at sources
    rcases extends_m.members there with rfl | ⟨f, f_there, rfl⟩
    · obtain ⟨g, found, _⟩ := edgesAre_iff.mp (edges c c_there standing ids sources).2 _ listed
      rw [unknown] at found
      cases found
    · rw [extends_m.gentle.fact_id] at listed
      rw [extends_m.standing] at alive
      obtain ⟨chain, lower, next⟩ := adjacent c c_there standing ids sources f f_there alive listed
      rw [extends_m.gentle.chainKey, extends_m.gentle.chainKey, extends_m.gentle.version, extends_m.gentle.version]
      refine ⟨chain, lower, fun g g_there g_alive g_chain higher => ?_⟩
      rcases extends_m.members g_there with rfl | ⟨g, g_old, rfl⟩
      · obtain ⟨p, found⟩ := newest_of c_there g_chain.symm standing
        exact UInt32.le_of_lt (UInt32.lt_of_le_of_lt (below_newest rising found c_there g_chain.symm standing) (above p found))
      · rw [extends_m.gentle.version] at higher ⊢
        rw [extends_m.gentle.chainKey] at g_chain
        rw [extends_m.standing] at g_alive
        exact next g g_old g_alive g_chain higher

theorem OneHead.each (one : OneHead m) (gentle : Gentle h) (retires : ∀ f, f.superseded_by ≠ none → (h f).superseded_by ≠ none) :
    OneHead (m.each h) :=
  inChain_map gentle one fun f _ => retires f

theorem OneHead.delete (one : OneHead m) (id : String) : OneHead (m.modify id setDeleted) := by
  rw [modify_eq_each]
  refine one.each (gentle_one gentle_setDeleted id) fun f retired => ?_
  split_ifs <;> exact retired

theorem Rising.each (rising : Rising m) (gentle : Gentle h) : Rising (m.each h) := by
  refine inChain_map gentle rising fun f g lower => ?_
  rw [gentle.version, gentle.version]
  exact lower

theorem Clocked.each (clocked : Clocked m) (gentle : Gentle h) : Clocked (m.each h) := by
  unfold Clocked Memory.each
  rw [pairwise_map]
  refine clocked.imp fun {f g} pair => ?_
  rw [gentle.stored, gentle.stored]
  exact pair

theorem Adjacent.each (adjacent : Adjacent m) (gentle : Gentle h) : Adjacent (m.each h) := by
  intro c' member standing ids sources f' there alive listed
  obtain ⟨c, c_there, rfl⟩ := mem_map.mp member
  obtain ⟨f, f_there, rfl⟩ := mem_map.mp there
  rw [gentle.fact_id] at sources listed
  obtain ⟨chain, lower, next⟩ :=
    adjacent c c_there (alive_before gentle standing) ids sources f f_there (alive_before gentle alive) listed
  rw [gentle.chainKey, gentle.chainKey, gentle.version, gentle.version]
  refine ⟨chain, lower, fun g' g_member g_alive g_chain higher => ?_⟩
  obtain ⟨g, g_there, rfl⟩ := mem_map.mp g_member
  rw [gentle.version] at higher ⊢
  rw [gentle.chainKey] at g_chain
  exact next g g_there (alive_before gentle g_alive) g_chain higher

/-- What an undo does to a fact. -/
def undone (id : String) (restored : List String) (f : Fact) : Fact :=
  (fun g => if restored.contains g.fact_id && true then setSupersededBy none g else g)
    (if decide (f.fact_id = id) then setDeleted f else f)

/-- An undo revives facts right before the canonical fact, which was the last. -/
theorem OneHead.undo (one : OneHead m) (rising : Rising m) (adjacent : Adjacent m) (member : canonical ∈ m.facts)
    (standing : canonical.deleted = false) (current : canonical.superseded_by = none) {ids restored : List String}
    (sources : m.consolidation_sources canonical.fact_id = some ids) (same : ∀ id ∈ restored, id ∈ ids) :
    OneHead ((m.modify canonical.fact_id setDeleted).retireAll (fun _ => true) restored none) := by
  have gentle : Gentle (undone canonical.fact_id restored) :=
    (gentle_retire (fun _ => true) (fun _ _ => rfl) restored none).comp (gentle_one gentle_setDeleted canonical.fact_id)
  have as_each : (m.modify canonical.fact_id setDeleted).retireAll (fun _ => true) restored none =
      m.each (undone canonical.fact_id restored) := by
    rw [retireAll_eq_each, modify_eq_each]
    unfold Memory.each
    rw [map_map]
    rfl
  rw [as_each]
  unfold OneHead Memory.each
  rw [pairwise_map]
  refine (one.and rising).imp_of_mem fun {f g} left right pair chain alive alive' => ?_
  rw [gentle.chainKey, gentle.chainKey] at chain
  have f_alive := alive_before gentle alive
  have g_alive := alive_before gentle alive'
  -- a fact that stands after the undo is not the canonical one
  have other : ∀ k : Fact, (undone canonical.fact_id restored k).deleted = false → k.fact_id ≠ canonical.fact_id := by
    intro k k_alive k_same
    have dead : (if decide (k.fact_id = canonical.fact_id) then setDeleted k else k).deleted = true := by
      simp [k_same, setDeleted]
    have gone := (gentle_retire (fun _ => true) (fun _ _ => rfl) restored none).tombstone _ dead
    exact absurd (k_alive.symm.trans gone) Bool.false_ne_true
  have f_other := other f alive
  have g_other := other g alive'
  by_cases listed : f.fact_id ∈ restored
  · obtain ⟨f_chain, _, next⟩ := adjacent canonical member standing ids sources f left f_alive (same _ listed)
    have above := next g right g_alive (chain.symm.trans f_chain) (pair.2 chain f_alive g_alive)
    have pairs : m.facts.Pairwise fun a b => a.chainKey = b.chainKey → a.deleted = false → b.deleted = false →
        a.superseded_by ≠ none ∧ a.version < b.version :=
      (one.and rising).imp fun {a b} pair c a_alive b_alive => ⟨pair.1 c a_alive b_alive, pair.2 c a_alive b_alive⟩
    have distinct : canonical ≠ g := fun equal => g_other (by rw [equal])
    have g_chain : g.chainKey = canonical.chainKey := chain.symm.trans f_chain
    rcases either_before pairs member right distinct with canonical_first | g_first
    · exact absurd current (canonical_first g_chain.symm standing g_alive).1
    · exact absurd (g_first g_chain g_alive standing).2 (UInt32.not_lt.mpr above)
  · simp [undone, f_other, listed]
    exact pair.1 chain f_alive g_alive

end

end Memory

open Memory

section
variable {policy : PrivacyPolicy} {s : FactStore} {stamp : Stamp}

theorem store_extends (whole : Whole policy s.toMemory) (req : StoreFact) (unseen : s.Unseen stamp.fact_id)
    (written superseded : Bool) : (∃ h, Extends s.toMemory (store policy s req stamp written superseded).1.toMemory
      (s.build_fact (enforce_global policy req) stamp) h) ∧
      (store policy s req stamp written superseded).1.consolidation_sources = s.consolidation_sources := by
  have new := newFact_build (enforce_global policy req) unseen
  have link : (s.build_fact (enforce_global policy req) stamp).supersedes =
      (s.newest (s.build_fact (enforce_global policy req) stamp).chainKey).map Fact.fact_id := rfl
  unfold store
  dsimp only
  generalize s.build_fact (enforce_global policy req) stamp = fact at new link ⊢
  have base : ((s.change fun m => m.insert_fact_indexes fact).append_journal (.Store fact) written).toMemory =
      s.toMemory.insert_fact_indexes fact := by cases written <;> rfl
  generalize ((s.change fun m => m.insert_fact_indexes fact).append_journal (.Store fact) written) = t at base ⊢
  unfold supersede_prior_version
  rw [link]
  cases found : s.newest fact.chainKey with
  | none =>
    dsimp
    rw [base]
    exact ⟨⟨id, extends_insert (by simp [found])⟩, rfl⟩
  | some p =>
    obtain ⟨member, chain, alive⟩ := newest_mem found
    have other : fact.fact_id ≠ p.fact_id := fun same => (new.unseen p member).1 same.symm
    dsimp
    unfold mark_superseded
    split_ifs with active both
    · -- the newest fact is a source of a consolidation and superseded already
      rw [base]
      refine ⟨⟨id, extends_insert fun q newest => ?_⟩, rfl⟩
      cases found.symm.trans newest
      unfold is_active_consolidation_source_for_tenant active_consolidation_for_source at active
      rw [base, any_eq_true] at active
      obtain ⟨c, c_there, retire⟩ := active
      change s.retires p.fact_id fact.tenant_hash c = true at retire
      unfold retires at retire
      cases sources : s.consolidation_sources c.fact_id with
      | none =>
        rw [sources] at retire
        cases retire
      | some ids =>
        rw [sources] at retire
        simp [contains_eq_mem] at retire
        have c_old : c ∈ s.facts := by
          rcases mem_append.mp c_there with old | fresh
          · exact old
          · rw [mem_singleton.mp fresh, whole.sound.sourced _ new.unknown] at sources
            cases sources
        obtain ⟨g, looked, _, _, successor⟩ :=
          edgesAre_iff.mp (whole.edges c c_old retire.1.2 ids sources).2 p.fact_id retire.1.1
        rw [lookup_of_mem whole.sound.nodup member] at looked
        cases looked
        rw [successor]
        exact Option.some_ne_none _
    · refine ⟨⟨fun f => if f.fact_id = p.fact_id then setSupersededBy (some fact.fact_id) f else f, ?_, ?_, ?_, ?_, ?_⟩, ?_⟩
      · have facts : (s.toMemory.insert_fact_indexes fact).facts = s.facts ++ [fact] := rfl
        cases superseded <;>
          (change (t.toMemory.modify p.fact_id (setSupersededBy (some fact.fact_id))).facts = _
           rw [base]
           unfold Memory.modify
           rw [facts, map_append, map_singleton, if_neg other])
      · have gentle := gentle_one (gentle_setSupersededBy (some fact.fact_id)) p.fact_id
        simpa using gentle
      · intro f
        split_ifs <;> rfl
      · intro f retired
        split_ifs
        · simp [setSupersededBy]
        · exact retired
      · intro q newest
        rw [found] at newest
        cases newest
        simp [setSupersededBy]
      · cases superseded <;>
          (change (t.toMemory.modify p.fact_id (setSupersededBy (some fact.fact_id))).consolidation_sources = _
           rw [base]
           rfl)
    · exfalso
      apply both
      unfold bothOf
      rw [base, lookup_insert_other other, lookup_of_mem whole.sound.nodup member, lookup_insert_same new.unknown]
      have tenant : p.tenant_hash = fact.tenant_hash := congrArg Prod.fst chain
      simp [tenant]

section
variable (sound : Sound policy s.toMemory) {tenant : String} {req : ConsolidationRequestV1} {canonical : Fact}
  (planned : s.planConsolidation tenant req stamp = .ok canonical) (unseen : s.Unseen stamp.fact_id)
include sound planned unseen

theorem consolidate_extends : ∃ h, Extends s.toMemory (consolidate_facts_v1 policy s tenant req stamp true).1.toMemory
      (incoming policy canonical) h := by
  obtain ⟨built, _, _, targets, prior⟩ := planConsolidation_ok planned
  obtain ⟨new, _, key⟩ := planned_new sound planned unseen
  have gentle := gentle_retire (fun _ => true) (fun _ _ => rfl) req.target_fact_ids (some canonical.fact_id)
  refine ⟨fun f => if req.target_fact_ids.contains f.fact_id && true then setSupersededBy (some canonical.fact_id) f else f,
    ?_, gentle, ?_, ?_, ?_⟩
  · have unlisted : (req.target_fact_ids.contains (incoming policy canonical).fact_id && true) = false := by
      by_contra listed
      obtain ⟨f, found, _⟩ := targets (incoming policy canonical).fact_id (by simpa using listed)
      rw [new.unknown] at found
      cases found
    rw [consolidate_memory sound planned unseen]
    change (s.facts ++ [incoming policy canonical]).map _ = _
    rw [map_append, map_singleton, unlisted]
    rfl
  · intro f
    split_ifs <;> rfl
  · intro f retired
    split_ifs
    · simp [setSupersededBy]
    · exact retired
  · intro p found
    rw [key] at found
    have link : canonical.supersedes = (s.newest canonical.chainKey).map Fact.fact_id := by
      rw [built]
      rfl
    rw [link, found] at prior
    have listed : (req.target_fact_ids.contains p.fact_id && true) = true := by simpa using prior
    rw [if_pos listed]
    simp [setSupersededBy]

end

end

/-- The newest fact of a chain has a version after it. -/
def Memory.belowMax (m : Memory) (c : ChainKey) : Bool :=
  match m.newest c with
  | some newest => decide (newest.version.toNat + 1 < UInt32.size)
  | none => true

theorem build_fact_above {m : Memory} {req : StoreFact} {stamp : Stamp} (below : m.belowMax req.chainKey = true) {p : Fact}
    (found : m.newest req.chainKey = some p) : p.version < (m.build_fact req stamp).version := by
  unfold Memory.belowMax at below
  rw [found] at below
  have version : (m.build_fact req stamp).version = p.version + 1 := by
    change (match m.newest req.chainKey with
      | some prev_fact => prev_fact.version + 1
      | none => 1) = _
    rw [found]
  rw [version, UInt32.lt_iff_toNat_lt, UInt32.toNat_add, Nat.mod_eq_of_lt (by simpa using below)]
  exact Nat.lt_succ_self _

theorem liveSorted_of_clocked (clocked : Clocked m) : m.liveSorted = m.facts.filter fun f => !f.deleted := by
  have sorted : (m.facts.filter fun f => !f.deleted).Pairwise storedBefore :=
    (clocked.sublist filter_sublist).imp fun {f g} (before : f.stored_at < g.stored_at) => .inl before
  exact sorted.insertionSort_eq

def Memory.deletedIds (m : Memory) : List String := (m.facts.filter fun f => f.deleted).map Fact.fact_id

theorem mem_deletedIds {m : Memory} (nodup : m.ids.Nodup) (member : f ∈ m.facts) :
    f.fact_id ∈ m.deletedIds ↔ f.deleted = true := by
  constructor
  · intro listed
    obtain ⟨g, there, same⟩ := mem_map.mp listed
    obtain ⟨here, dead⟩ := mem_filter.mp there
    rw [inj_on_of_nodup_map nodup here member same] at dead
    exact dead
  · intro dead
    exact mem_map_of_mem (mem_filter.mpr ⟨member, dead⟩)

/-- After a compaction of facts in the order of their times the deleted facts are gone from the journal. -/
theorem faithful_compacted {s : FactStore} (whole : Whole policy s.toMemory)
    (ordered : s.liveSorted = s.facts.filter fun f => !f.deleted)
    (finite : ∀ f ∈ s.facts, f.deleted = false → f.confidence.is_finite = true) :
    Faithful policy s.deletedIds { s with journal := s.compactedLines } := by
  have nodup := whole.sound.nodup
  have replay := replay_compactedLines whole.sound whole.edges finite
  refine ⟨whole.sound, whole.kind, fun id => (s.lookup id).bind Fact.supersedes, ?_⟩
  rw [replay]
  have own : ∀ f ∈ s.facts, (s.lookup f.fact_id).bind Fact.supersedes = f.supersedes := by
    intro f member
    rw [lookup_of_mem nodup member]
    rfl
  refine ⟨⟨?_, ?_, ?_, ?_⟩, ?_⟩
  · change s.liveSorted = _
    rw [ordered]
    have kept : (s.facts.filter fun f => !f.deleted) = s.facts.filter fun f => f.fact_id ∉ s.deletedIds := by
      refine filter_congr fun f member => ?_
      simp [mem_deletedIds nodup member]
    rw [kept]
    conv_lhs => rw [← map_id (s.facts.filter fun f => f.fact_id ∉ s.deletedIds)]
    refine map_congr_left fun f member => ?_
    unfold relink
    dsimp only
    rw [own f (mem_filter.mp member).1]
    rfl
  · intro id
    change s.sourcesInForce id = if id ∈ s.deletedIds then none else s.consolidation_sources id
    unfold sourcesInForce
    cases found : s.lookup id with
    | none =>
      rw [whole.sound.sourced id found]
      simp
    | some f =>
      obtain ⟨member, same⟩ := lookup_some found
      rw [← same]
      cases dead : f.deleted <;> simp [mem_deletedIds nodup member, dead]
  · intro f member out
    exact (mem_deletedIds nodup member).mp out
  · intro id out unknown
    obtain ⟨f, there, same⟩ := mem_map.mp out
    exact lookup_none.mp unknown f (mem_filter.mp there).1 same
  · intro b member out
    obtain ⟨f, there, rfl⟩ := mem_map.mp member
    change f.supersedes = if badLink s.compacted.bones f.chainKey ((s.lookup f.fact_id).bind Fact.supersedes) then none
      else (s.lookup f.fact_id).bind Fact.supersedes
    have alive : f.deleted = false := by
      rw [show (boneOf f).fact_id = f.fact_id from rfl, mem_deletedIds nodup there, Bool.not_eq_true] at out
      exact out
    have fine := badSupersedes_of_kind (kindLinks_compacted whole.kind) (mem_liveSorted.mpr ⟨there, alive⟩)
    rw [badSupersedes_eq] at fine
    rw [own f there, fine]
    rfl

/-! ## Runs -/

/-- Everything kept about the chains of a memory. -/
structure Heads (m : Memory) : Prop where
  one : OneHead m
  rising : Rising m
  adjacent : Adjacent m
  clocked : Clocked m
  finite : ∀ f ∈ m.facts, f.confidence.is_finite = true

theorem Heads.empty : Heads {} := ⟨.nil, .nil, by simp [Adjacent], .nil, by simp⟩

section
variable {policy : PrivacyPolicy} {s : FactStore} {m : Memory}

theorem Heads.delete (heads : Heads m) (id : String) : Heads (m.modify id setDeleted) := by
  have gentle := gentle_one gentle_setDeleted id
  rw [modify_eq_each]
  refine ⟨?_, heads.rising.each gentle, heads.adjacent.each gentle, heads.clocked.each gentle, fun f member => ?_⟩
  · rw [← modify_eq_each]
    exact heads.one.delete id
  · obtain ⟨g, there, rfl⟩ := mem_map.mp member
    rw [gentle.confidence]
    exact heads.finite g there

theorem Heads.without (heads : Heads m) (gone : List String) : Heads (m.without gone) := by
  have part : ∀ f ∈ (m.without gone).facts, f ∈ m.facts := fun f member => (mem_filter.mp member).1
  refine ⟨heads.one.sublist filter_sublist, heads.rising.sublist filter_sublist, ?_,
    heads.clocked.sublist filter_sublist, fun f member => heads.finite f (part f member)⟩
  intro c member standing ids sources f there alive listed
  have sources' : m.consolidation_sources c.fact_id = some ids := by
    change (if c.fact_id ∈ gone then none else m.consolidation_sources c.fact_id) = some ids at sources
    split_ifs at sources
    exact sources
  obtain ⟨chain, lower, next⟩ := heads.adjacent c (part c member) standing ids sources' f (part f there) alive listed
  exact ⟨chain, lower, fun g g_there => next g (part g g_there)⟩

theorem Heads.extends (heads : Heads m) (edges : Edges m) (extends_m : Extends m m' fact h) (placed : Placed m m' fact)
    (later : ∀ f ∈ m.facts, f.stored_at < fact.stored_at) (finite : fact.confidence.is_finite = true) : Heads m' := by
  refine ⟨heads.one.extends extends_m, heads.rising.extends extends_m placed.above,
    heads.adjacent.extends edges heads.one heads.rising extends_m placed, heads.clocked.extends extends_m later, ?_⟩
  intro f member
  rcases extends_m.members member with rfl | ⟨g, there, rfl⟩
  · exact finite
  · rw [extends_m.gentle.confidence]
    exact heads.finite g there

theorem Heads.store (heads : Heads s.toMemory) (whole : Whole policy s.toMemory) (unseen : s.Unseen stamp.fact_id)
    (below : s.belowMax req.chainKey = true) (later : ∀ f ∈ s.facts, f.stored_at < stamp.stored_at)
    (finite : req.confidence.is_finite = true) (written superseded : Bool) :
    Heads (store policy s req stamp written superseded).1.toMemory := by
  obtain ⟨⟨h, extended⟩, sources⟩ := store_extends whole req unseen written superseded
  have new := newFact_build (enforce_global policy req) unseen
  refine heads.extends whole.edges extended ⟨?_, new.unknown, fun id _ => by rw [sources], ?_⟩ later ?_
  · intro p found
    rw [← chainKey_enforced policy req] at below
    exact build_fact_above below found
  · intro ids known
    rw [sources, whole.sound.sourced _ new.unknown] at known
    cases known
  · rw [confidence_build]
    exact finite

theorem stored_at_incoming (policy : PrivacyPolicy) (f : Fact) : (incoming policy f).stored_at = f.stored_at := by
  unfold incoming enforce_global_fact
  split_ifs <;> rfl

theorem Heads.consolidate (heads : Heads s.toMemory) (whole : Whole policy s.toMemory) {tenant : String}
    {req : ConsolidationRequestV1} {stamp : Stamp} (unseen : s.Unseen stamp.fact_id)
    (below : s.belowMax (stampTenant tenant, req.entity, req.key) = true)
    (later : ∀ f ∈ s.facts, f.stored_at < stamp.stored_at) (finite : req.confidence.is_finite = true) (written : Bool) :
    Heads (consolidate_facts_v1 policy s tenant req stamp written).1.toMemory := by
  cases planned : s.planConsolidation tenant req stamp with
  | error e =>
    unfold consolidate_facts_v1
    rw [planned]
    exact heads
  | ok canonical =>
    cases written with
    | false =>
      unfold consolidate_facts_v1
      rw [planned]
      exact heads
    | true =>
      obtain ⟨built, _, _, targets, _⟩ := planConsolidation_ok planned
      obtain ⟨new, stamped, key⟩ := planned_new whole.sound planned unseen
      obtain ⟨h, extended⟩ := consolidate_extends whole.sound planned unseen
      have sources : (consolidate_facts_v1 policy s tenant req stamp true).1.consolidation_sources =
          s.consolidation_sources.insert canonical.fact_id req.target_fact_ids := by
        rw [consolidate_memory whole.sound planned unseen]
        rfl
      obtain ⟨id, _, _, _, version, _, _, _, confidence⟩ := incoming_fields policy canonical
      have chain : (incoming policy canonical).chainKey = (canonicalRequest tenant req).chainKey := by
        rw [key, built]
        rfl
      refine heads.extends whole.edges extended ⟨?_, new.unknown, ?_, ?_⟩ ?_ ?_
      · intro p found
        rw [chain] at found
        rw [version, built]
        exact @build_fact_above s.toMemory (canonicalRequest tenant req) stamp below p found
      · intro x other
        rw [id] at other
        rw [sources, KeyMap.insert_other _ _ other]
      · intro ids known
        rw [sources, id, KeyMap.insert_apply, if_pos rfl, Option.some.injEq] at known
        subst known
        constructor
        · intro listed
          obtain ⟨f, found, _⟩ := targets _ listed
          rw [new.unknown] at found
          cases found
        · intro f member listed
          obtain ⟨g, found, target⟩ := targets f.fact_id listed
          rw [lookup_of_mem whole.sound.nodup member] at found
          cases found
          refine ⟨?_, target.standing, target.unretired⟩
          rw [chain]
          unfold Fact.chainKey
          rw [target.tenant, target.entity, target.key]
          change _ = (stampTenant tenant, req.entity, req.key)
          rw [stamped]
      · rw [stored_at_incoming, built]
        exact later
      · rw [confidence, built]
        exact finite

theorem Heads.undo (heads : Heads s.toMemory) (tenant id : String) (ids : List String) (written : Bool) :
    Heads (s.consolidate_undo_v1 tenant id ids written).1.toMemory := by
  unfold consolidate_undo_v1
  cases planned : s.planUndo tenant id ids with
  | error e => exact heads
  | ok plan =>
    cases plan with
    | none => exact heads
    | some restored =>
      cases written with
      | false => exact heads
      | true =>
        obtain ⟨canonical, recorded, found, _, standing, current, sources, same, _, _, _⟩ := planUndo_some planned
        obtain ⟨member, named⟩ := lookup_some found
        have deleted := heads.delete id
        have gentle := gentle_retire (fun _ => true) (fun _ _ => rfl) restored none
        refine ⟨?_, ?_, ?_, ?_, ?_⟩
        · rw [← named]
          refine heads.one.undo heads.rising heads.adjacent member standing current (named.symm ▸ sources) fun x listed => ?_
          rw [same, sortIds, mem_insertionSort] at listed
          exact listed
        · exact deleted.rising.each gentle
        · exact deleted.adjacent.each gentle
        · exact deleted.clocked.each gentle
        · intro f there
          obtain ⟨g, g_there, rfl⟩ := mem_map.mp there
          rw [gentle.confidence]
          exact deleted.finite g g_there

theorem delete_memory (tenant id : String) (written : Bool) : (s.delete tenant id written).1.toMemory = s.toMemory ∨
      (s.delete tenant id written).1.toMemory = s.toMemory.modify id setDeleted := by
  unfold delete
  split_ifs
  · exact .inl rfl
  · cases written <;> exact .inr rfl
  · exact .inl rfl

theorem try_delete_memory (tenant id : String) (written : Bool) : (s.try_delete tenant id written).1.toMemory = s.toMemory ∨
      (s.try_delete tenant id written).1.toMemory = s.toMemory.modify id setDeleted := by
  unfold try_delete
  split_ifs
  exacts [.inl rfl, .inr rfl, .inl rfl, .inl rfl]

end

/-- The calls on single facts: no batches, no syncs and no links set by hand. -/
def Op.single : Op → Bool
  | .store _ _ _ _ => true
  | .try_store _ _ _ _ => true
  | .delete _ _ _ => true
  | .try_delete _ _ _ => true
  | .consolidate _ _ _ _ => true
  | .undo _ _ _ _ => true
  | .compact _ => true
  | .reopen => true
  | _ => false

/-- The clock is past the times of all facts. -/
def Op.later (s : FactStore) : Op → Bool
  | .store _ stamp _ _ => s.facts.all fun f => decide (f.stored_at < stamp.stored_at)
  | .try_store _ stamp _ _ => s.facts.all fun f => decide (f.stored_at < stamp.stored_at)
  | .consolidate _ _ stamp _ => s.facts.all fun f => decide (f.stored_at < stamp.stored_at)
  | _ => true

/-- A new fact's chain has not used up the versions. -/
def Op.below (s : FactStore) : Op → Bool
  | .store req _ _ _ => s.belowMax req.chainKey
  | .try_store req _ _ _ => s.belowMax req.chainKey
  | .consolidate tenant_hash req _ _ => s.belowMax (stampTenant tenant_hash, req.entity, req.key)
  | _ => true

/-- A store whose journal replays to it and whose chains have one head. -/
structure Headed (policy : PrivacyPolicy) (s : FactStore) : Prop where
  faithful : ∃ gone, Faithful policy gone s
  edges : Edges s.toMemory
  heads : Heads s.toMemory

theorem Headed.whole (headed : Headed policy s) : Whole policy s.toMemory := by
  obtain ⟨gone, faithful⟩ := headed.faithful
  exact ⟨faithful.sound, faithful.kind, headed.edges⟩

theorem Heads.step {env : Env} {s : FactStore} (heads : Heads s.toMemory) (whole : Whole env.policy s.toMemory) {op : Op}
    (single : op.single = true) (in_place : op.compacts = false ∧ op.reopens = false) (fresh : op.Fresh s)
    (later : op.later s = true) (finite : op.finite = true) (below : op.below s = true) : Heads (s.step env op).toMemory := by
  have drawn : ∀ id ∈ op.drawn, s.Unseen id := fresh.2
  cases op with
  | store req stamp first second =>
    simp [Op.later] at later
    exact heads.store whole (drawn _ (by simp [Op.drawn])) below later finite first second
  | try_store req stamp first second =>
    simp [Op.later] at later
    cases first with
    | false => exact heads
    | true => exact heads.store whole (drawn _ (by simp [Op.drawn])) below later finite true second
  | delete tenant id first =>
    change Heads (s.delete tenant id first).1.toMemory
    rcases delete_memory (s := s) tenant id first with same | deleted
    · rw [same]
      exact heads
    · rw [deleted]
      exact heads.delete id
  | try_delete tenant id first =>
    change Heads (s.try_delete tenant id first).1.toMemory
    rcases try_delete_memory (s := s) tenant id first with same | deleted
    · rw [same]
      exact heads
    · rw [deleted]
      exact heads.delete id
  | consolidate tenant req stamp first =>
    simp [Op.later] at later
    exact heads.consolidate whole (drawn _ (by simp [Op.drawn])) below later finite first
  | undo tenant id ids first => exact heads.undo tenant id ids first
  | compact replaced => cases in_place.1
  | reopen => cases in_place.2
  | _ => cases single

theorem Headed.step {env : Env} {s : FactStore} (headed : Headed env.policy s) {op : Op} (single : op.single = true)
    (fresh : op.Fresh s) (later : op.later s = true) (written : op.written = true) (finite : op.finite = true)
    (below : op.below s = true) : Headed env.policy (s.step env op) := by
  obtain ⟨gone, faithful⟩ := headed.faithful
  have whole := headed.whole
  have whole' : Whole env.policy (s.step env op).toMemory := whole.step fresh
  by_cases in_place : op.compacts = false ∧ op.reopens = false
  · refine ⟨⟨gone, faithful.step in_place written fresh finite ?_ ?_⟩, whole'.edges,
      headed.heads.step whole single in_place fresh later finite below⟩
    · cases op <;> first | rfl | cases single
    · rintro tenant target successor first rfl
      cases single
  · cases op with
    | compact replaced =>
      have memory := compact_memory env.parse_legal_hold s replaced
      refine ⟨?_, whole'.edges, ?_⟩
      · change ∃ gone, Faithful env.policy gone (s.compact_journal env.parse_legal_hold replaced).1
        unfold compact_journal compact_journal_unchecked
        split_ifs
        · exact ⟨_, faithful_compacted whole (liveSorted_of_clocked headed.heads.clocked) fun f member _ =>
            headed.heads.finite f member⟩
        · exact ⟨gone, faithful⟩
        · exact ⟨gone, faithful⟩
      · change Heads (s.compact_journal env.parse_legal_hold replaced).1.toMemory
        rw [memory]
        exact headed.heads
    | reopen =>
      obtain ⟨memory, reopened⟩ := faithful.reopen
      refine ⟨⟨[], reopened⟩, whole'.edges, ?_⟩
      change Heads (with_persistence env.policy s.journal).toMemory
      rw [memory]
      exact headed.heads.without gone
    | _ => exact absurd ⟨rfl, rfl⟩ in_place

/-- In every chain the facts that are not deleted have increasing versions, and all of them but the last are superseded. -/
theorem single_head (env : Env) (ops : List Op) (single : ∀ op ∈ ops, op.single = true)
    (fresh : FactStore.Meets env (fun s op => op.Fresh s) {} ops)
    (clock : FactStore.Meets env (fun s op => op.later s = true) {} ops)
    (safe : FactStore.Meets env (fun s op => op.written = true ∧ op.finite = true ∧ op.below s = true) {} ops) :
    (FactStore.run env {} ops).facts.Pairwise fun f g =>
      f.chainKey = g.chainKey → f.deleted = false → g.deleted = false → f.version < g.version ∧ f.superseded_by ≠ none := by
  have headed : Headed env.policy (run env {} ops) := by
    have meets := ((FactStore.Meets.of_all single {}).and fresh).and (clock.and safe)
    refine meets.run (fun s op headed h => ?_) ⟨⟨[], Faithful.empty env.policy⟩, .empty, .empty⟩
    obtain ⟨⟨single, fresh⟩, later, written, finite, below⟩ := h
    exact headed.step single fresh later written finite below
  exact (headed.heads.rising.and headed.heads.one).imp fun {f g} pair chain alive alive' =>
    ⟨pair.1 chain alive alive', pair.2 chain alive alive'⟩

/-- Three versions, the second with a confidence that is not finite. -/
def unreadableRun : List Op :=
  [.store sampleRequest ⟨"a", 1⟩ true true, .store { sampleRequest with confidence := .infinity } ⟨"b", 2⟩ true true,
   .store sampleRequest ⟨"c", 3⟩ true true, .reopen]

/-- The line of the second version is not read back, and neither are the links to and from it: the first and the third are
both current. -/
theorem two_heads_after_reopen :
    (∀ op ∈ unreadableRun, op.single = true ∧ op.written = true) ∧
      FactStore.Meets sampleEnv (fun s op => op.Fresh s ∧ op.later s = true ∧ op.below s = true) {} unreadableRun ∧
      (FactStore.run sampleEnv {} unreadableRun).facts.map (fun f => (f.fact_id, f.chainKey, f.deleted, f.superseded_by)) =
        [("a", ("first", "e", "k"), false, none), ("c", ("first", "e", "k"), false, none)] := by
  decide

/-- Versions, a consolidation that is undone, deletions, a compaction and reopenings. -/
def singleRun : List Op :=
  [.store sampleRequest ⟨"a", 1⟩ true true, .try_store sampleRequest ⟨"b", 2⟩ true true,
   .consolidate "first" (sampleConsolidation ["b"]) ⟨"c", 3⟩ true, .undo "first" "c" ["b"] true, .reopen,
   .store sampleRequest ⟨"d", 4⟩ true true, .delete "first" "a" true, .compact true, .reopen,
   .store sampleRequest ⟨"f", 5⟩ true true]

theorem singleRun_single_head :
    (FactStore.run sampleEnv {} singleRun).facts.Pairwise fun f g =>
      f.chainKey = g.chainKey → f.deleted = false → g.deleted = false → f.version < g.version ∧ f.superseded_by ≠ none :=
  single_head sampleEnv singleRun (by decide) (by decide) (by decide) (by decide)

end Crux.Facts
