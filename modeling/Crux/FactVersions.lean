import Crux.FactFaithful

/-!
# Versions of a chain

A store only ever adds facts at the end, and so does the replay of its journal,
which may lack some of them when writes fail. Versions therefore increase along
every chain as long as each new fact starts from the last one.
-/

namespace Crux.Facts
open List FactStore

/-- What stays of a fact from its insertion on: its identifier, chain and version. -/
structure Stem where
  fact_id : String
  chainKey : ChainKey
  version : UInt32
deriving DecidableEq

def stemOf (f : Fact) : Stem := ⟨f.fact_id, f.chainKey, f.version⟩

/-- A fact without the marks that operations put on it later. -/
def Fact.content (f : Fact) : Fact :=
  { f with deleted := false, supersedes := none, superseded_by := none, is_private := false, valid_from := none, valid_to := none }

def Memory.contents (m : Memory) : List Fact := m.facts.map Fact.content

namespace Memory

def stems (m : Memory) : List Stem := m.facts.map stemOf

theorem stems_of_bones {m n : Memory} (same : m.bones = n.bones) : m.stems = n.stems := by
  have via : ∀ k : Memory, k.stems = k.bones.map fun b => ⟨b.fact_id, b.chainKey, b.version⟩ := by
    intro k
    unfold stems bones
    rw [map_map]
    rfl
  rw [via, via, same]

theorem stems_insert (m : Memory) (f : Fact) : (m.insert_fact_indexes f).stems = m.stems ++ [stemOf f] := by
  simp [stems, insert_fact_indexes]

theorem stems_sanitize (m : Memory) : m.sanitize_replayed_links.stems = m.stems := by
  unfold stems sanitize_replayed_links
  rw [map_map]
  rfl

theorem contents_each (m : Memory) (keeps : ∀ f, (h f).content = f.content) : (m.each h).contents = m.contents := by
  unfold contents each
  rw [map_map]
  exact map_congr_left fun f _ => keeps f

theorem contents_modify (m : Memory) (id : String) (keeps : ∀ f, (h f).content = f.content) :
    (m.modify id h).contents = m.contents := by
  rw [modify_eq_each]
  refine contents_each m fun f => ?_
  split_ifs
  exacts [keeps f, rfl]

theorem contents_retireAll (m : Memory) (keep : Fact → Bool) (ids : List String) (successor : Option String) :
    (m.retireAll keep ids successor).contents = m.contents := by
  rw [retireAll_eq_each]
  refine contents_each m fun f => ?_
  split_ifs <;> rfl

theorem contents_insert (m : Memory) (fact : Fact) : (m.insert_fact_indexes fact).contents = m.contents ++ [fact.content] := by
  simp [contents, insert_fact_indexes]

/-- One memory has the facts of another and new ones behind, each of which is on a list. -/
def Adds (m m' : Memory) (list : List Stem) : Prop := ∃ new, m'.stems = m.stems ++ new ∧ new.Sublist list

/-- The same with all that a fact keeps. -/
def Brings (m m' : Memory) (list : List Fact) : Prop :=
  ∃ new, m'.contents = m.contents ++ new ∧ new.Sublist (list.map Fact.content)

theorem Brings.nothing (same : m'.contents = m.contents) (list : List Fact) : Brings m m' list :=
  ⟨[], by rw [same, append_nil], nil_sublist _⟩

theorem brings_modify (m : Memory) (id : String) (h : Fact → Fact) (keeps : ∀ f, (h f).content = f.content) (list : List Fact) :
    Brings m (m.modify id h) list := .nothing (contents_modify m id keeps) list

theorem Brings.trans (left : Brings m m' first) (right : Brings m' m'' second) : Brings m m'' (first ++ second) := by
  obtain ⟨new, contents, sub⟩ := left
  obtain ⟨new', contents', sub'⟩ := right
  exact ⟨new ++ new', by rw [contents', contents, append_assoc], by rw [map_append]; exact sub.append sub'⟩

theorem stems_eq (m : Memory) : m.stems = m.contents.map stemOf := by
  unfold stems contents
  rw [map_map]
  rfl

theorem Brings.adds (brings : Brings m m' list) : Adds m m' (list.map stemOf) := by
  obtain ⟨new, contents, sub⟩ := brings
  refine ⟨new.map stemOf, by rw [stems_eq, stems_eq, contents, map_append], ?_⟩
  have part := sub.map stemOf
  rw [map_map] at part
  exact part

end Memory

open Memory

/-- The facts a line of the journal brings. -/
def JournalEvent.created : JournalEvent → List Fact
  | .Store fact => [fact]
  | .StoreBatch facts => facts
  | .Consolidate canonical _ => [canonical]
  | _ => []

section
variable (policy : PrivacyPolicy)

/-- The stems of the facts that lines of a journal bring. -/
def broughtBy (lines : List JournalEvent) : List Stem :=
  (lines.flatMap JournalEvent.created).map fun f => stemOf (incoming policy f)

theorem broughtBy_append (left right : List JournalEvent) :
    broughtBy policy (left ++ right) = broughtBy policy left ++ broughtBy policy right := by
  simp [broughtBy]

theorem Memory.brings_insert (m : Memory) (fact : Fact) :
    Brings m (m.replay_journal_insert policy fact).1 [incoming policy fact] := by
  unfold replay_journal_insert
  dsimp only
  split_ifs
  · exact .nothing rfl _
  · exact ⟨_, contents_insert m _, List.Sublist.refl _⟩

theorem Memory.brings_batch (m : Memory) (facts : List Fact) :
    Brings m (replayBatch policy m facts) (facts.map (incoming policy)) := by
  induction facts generalizing m with
  | nil => exact .nothing rfl _
  | cons fact rest ih => exact (brings_insert policy m fact).trans (ih _)

theorem Memory.brings_apply (m : Memory) (e : JournalEvent) :
    Brings m (applyEvent policy m e) (e.created.map (incoming policy)) := by
  unfold applyEvent
  cases e with
  | Store fact => exact brings_insert policy m fact
  | StoreBatch facts => exact brings_batch policy m facts
  | Delete id =>
    dsimp only [replayDelete]
    split_ifs
    exacts [.nothing rfl _, brings_modify m id setDeleted (fun _ => rfl) _]
  | Supersede id successor =>
    dsimp only [replaySupersede]
    split_ifs
    exacts [brings_modify m id (setSupersededBy _) (fun _ => rfl) _, .nothing rfl _]
  | ClearSupersede id =>
    dsimp only [replayClear]
    split_ifs
    exacts [.nothing rfl _, brings_modify m id (setSupersededBy none) (fun _ => rfl) _]
  | SetValidity id valid_from valid_to => exact brings_modify m id (setValidity valid_from valid_to) (fun _ => rfl) _
  | Consolidate canonical ids =>
    dsimp only [replayConsolidate]
    split_ifs
    · exact .nothing rfl _
    · have inserted := brings_insert policy m { canonical with tenant_hash := stampTenant canonical.tenant_hash }
      rw [incoming_stamped] at inserted
      split
      · rename_i m' result
        rw [result] at inserted
        obtain ⟨new, contents, sub⟩ := inserted
        exact ⟨new, (contents_retireAll m' _ _ _).trans contents, sub⟩
      · rename_i m' result
        rw [result] at inserted
        exact inserted
  | ConsolidateUndo id restored =>
    dsimp only [replayUndo]
    cases m.lookup id with
    | none => exact .nothing rfl _
    | some canonical =>
      dsimp only
      split_ifs
      · refine .nothing ((contents_retireAll _ _ _ _).trans ?_) _
        exact contents_modify m id fun _ => rfl
      · exact .nothing rfl _
  | ConsolidationProvenance id ids tenant =>
    dsimp only [replayProvenance]
    split_ifs <;> exact .nothing rfl _

theorem Memory.brings_event (m : Memory) (e : JournalEvent) :
    Brings m (replayEvent policy m e) (e.created.map (incoming policy)) := by
  unfold replayEvent
  split_ifs
  · exact brings_apply policy m e
  · exact .nothing rfl _

theorem Memory.brings_lines (m : Memory) (lines : List JournalEvent) :
    Brings m (lines.foldl (replayEvent policy) m) ((lines.flatMap JournalEvent.created).map (incoming policy)) := by
  induction lines generalizing m with
  | nil => exact .nothing rfl _
  | cons e rest ih =>
    rw [flatMap_cons, map_append]
    exact (brings_event policy m e).trans (ih _)

theorem Memory.adds_lines (m : Memory) (lines : List JournalEvent) :
    Adds m (lines.foldl (replayEvent policy) m) (broughtBy policy lines) := by
  have adds := (brings_lines policy m lines).adds
  rw [map_map] at adds
  exact adds

end

/-! ## What a call adds -/

/-- A store that got new facts and wrote lines that bring at most these. -/
structure Grows (policy : PrivacyPolicy) (s s' : FactStore) (new : List Fact) : Prop where
  stems : s'.stems = s.stems ++ new.map stemOf
  lines : ∃ lines, s'.journal = s.journal ++ lines ∧ (broughtBy policy lines).Sublist (new.map stemOf)

/-- The same with all that a fact keeps. -/
structure Gains (policy : PrivacyPolicy) (s s' : FactStore) (new : List Fact) : Prop where
  contents : s'.contents = s.contents ++ new.map Fact.content
  lines : ∃ lines, s'.journal = s.journal ++ lines ∧ (broughtBy policy lines).Sublist (new.map stemOf)

section
variable {policy : PrivacyPolicy} {s s' s'' : FactStore}

theorem Gains.grows (gains : Gains policy s s' new) : Grows policy s s' new := by
  refine ⟨?_, gains.lines⟩
  rw [stems_eq, stems_eq, gains.contents, map_append, map_map]
  rfl

theorem Gains.ids (gains : Gains policy s s' new) : s'.ids = s.ids ++ new.map Fact.fact_id := by
  have named := congrArg (map Fact.fact_id) gains.contents
  unfold Memory.contents at named
  rw [map_append, map_map, map_map, map_map] at named
  exact named

theorem Gains.nothing (policy : PrivacyPolicy) (s : FactStore) : Gains policy s s [] :=
  ⟨by simp, [], by simp, nil_sublist _⟩

theorem Gains.trans (left : Gains policy s s' first) (right : Gains policy s' s'' second) :
    Gains policy s s'' (first ++ second) := by
  obtain ⟨lines, journal, sub⟩ := left.lines
  obtain ⟨lines', journal', sub'⟩ := right.lines
  refine ⟨by rw [right.contents, left.contents, map_append, append_assoc], lines ++ lines', ?_, ?_⟩
  · rw [journal', journal, append_assoc]
  · rw [broughtBy_append, map_append]
    exact sub.append sub'

theorem Gains.change (bringsNothing : e.created = []) (written : Bool) (contents : s'.contents = s.contents)
    (journal : s'.journal = (s.append_journal e written).journal) : Gains policy s s' [] := by
  refine ⟨by rw [contents, map_nil, append_nil], if written then [e] else [], ?_, ?_⟩
  · rw [journal]
    cases written <;> simp [append_journal]
  · cases written
    · exact List.Sublist.refl _
    · simp [broughtBy, bringsNothing]

theorem Gains.writes (writes : Writes policy (fun _ e => e.created = []) false s s') : Gains policy s s' [] := by
  induction writes with
  | nothing s => exact .nothing policy s
  | @line s s' e written kept none memory journal =>
    refine .change none written ?_ journal
    obtain ⟨new, contents, sub⟩ := brings_apply policy s.toMemory e
    rw [none] at sub
    rw [memory, contents, sublist_nil.mp sub, append_nil]
  | trans _ _ first second => exact first.trans second

theorem gains_supersede_prior (fact : Fact) (written : Bool) : Gains policy s (s.supersede_prior_version fact written) [] := by
  unfold supersede_prior_version
  cases fact.supersedes with
  | none => exact .nothing policy s
  | some prior => exact .writes (writes_mark_superseded (fun _ => rfl) (by simp))

theorem gains_insert (settled : Settled policy fact) (written : Bool) :
    Gains policy s ((s.change fun m => m.insert_fact_indexes fact).append_journal (.Store fact) written) [fact] := by
  refine ⟨?_, if written then [.Store fact] else [], ?_, ?_⟩
  · cases written <;> exact contents_insert s.toMemory fact
  · cases written <;> simp [append_journal, FactStore.change]
  · cases written
    · exact nil_sublist _
    · have same : broughtBy policy [.Store fact] = [fact].map stemOf := by
        simp [broughtBy, JournalEvent.created, show incoming policy fact = fact from settled]
      rw [if_pos rfl, same]

theorem gains_store (req : StoreFact) (stamp : Stamp) (written superseded : Bool) :
    Gains policy s (store policy s req stamp written superseded).1
      [s.build_fact (enforce_global policy req) stamp] := by
  have inserted := gains_insert (s := s) (settled_build s.toMemory req stamp : Settled policy _) written
  exact inserted.trans (gains_supersede_prior _ superseded)

theorem gains_insertBatch (batch : List (Fact × Bool)) :
    (insertBatch s batch).contents = s.contents ++ batch.map (fun e => e.1.content) ∧
      ∃ lines, (insertBatch s batch).journal = s.journal ++ lines ∧ broughtBy policy lines = [] := by
  induction batch generalizing s with
  | nil => exact ⟨by simp [insertBatch], [], by simp [insertBatch], rfl⟩
  | cons e rest ih =>
    obtain ⟨fact, superseded⟩ := e
    unfold insertBatch
    obtain ⟨contents, lines, journal, none⟩ :=
      ih (s := (s.change fun m => m.insert_fact_indexes fact).supersede_prior_version fact superseded)
    have prior := @gains_supersede_prior policy (s.change fun m => m.insert_fact_indexes fact) fact superseded
    obtain ⟨before, journal', none'⟩ := prior.lines
    refine ⟨?_, before ++ lines, ?_, ?_⟩
    · rw [contents, prior.contents]
      change (s.toMemory.insert_fact_indexes fact).contents ++ _ ++ _ = _
      rw [contents_insert]
      simp
    · rw [journal, journal', append_assoc]
      rfl
    · rw [broughtBy_append, none, append_nil]
      exact sublist_nil.mp none'

theorem gains_try_store_bulk (reqs : List (StoreFact × Stamp × Bool)) :
    Gains policy s (try_store_bulk policy s reqs true).1
      (reqs.map fun r => s.build_fact (enforce_global policy r.1) r.2.1) := by
  unfold try_store_bulk
  rw [if_pos rfl]
  generalize batch_eq : (reqs.map _ : List (Fact × Bool)) = batch
  have facts : (reqs.map fun r => s.build_fact (enforce_global policy r.1) r.2.1) = batch.map Prod.fst := by
    rw [← batch_eq, map_map]
    rfl
  have settled : ∀ f ∈ batch.map Prod.fst, incoming policy f = f := by
    rw [← facts]
    intro f member
    obtain ⟨r, _, rfl⟩ := mem_map.mp member
    exact settled_build s.toMemory r.1 r.2.1
  obtain ⟨contents, lines, journal, none⟩ :=
    @gains_insertBatch policy (s.append_journal (.StoreBatch (batch.map Prod.fst)) true) batch
  rw [facts]
  refine ⟨?_, .StoreBatch (batch.map Prod.fst) :: lines, ?_, ?_⟩
  · rw [map_map]
    exact contents
  · rw [journal]
    simp [append_journal]
  · rw [← singleton_append, broughtBy_append, none, append_nil]
    have same : broughtBy policy [.StoreBatch (batch.map Prod.fst)] = (batch.map Prod.fst).map stemOf := by
      simp only [broughtBy, JournalEvent.created, flatMap_cons, flatMap_nil, append_nil]
      refine map_congr_left fun f member => ?_
      rw [settled f member]
    rw [same]

theorem gains_consolidate {tenant : String} (planned : s.planConsolidation tenant req stamp = .ok canonical)
    (unknown : s.lookup canonical.fact_id = none) :
    Gains policy s (consolidate_facts_v1 policy s tenant req stamp true).1 [incoming policy canonical] := by
  have id := (incoming_fields policy canonical).1
  unfold consolidate_facts_v1
  rw [planned]
  refine ⟨?_, [.Consolidate canonical req.target_fact_ids], rfl, List.Sublist.refl _⟩
  change (Memory.retireAll (Memory.replay_journal_insert policy s.toMemory canonical).1 _ _ _).contents = _
  rw [contents_retireAll]
  unfold replay_journal_insert
  dsimp only
  rw [id, unknown]
  exact contents_insert s.toMemory _

theorem gains_store_synced (unknown : s.lookup fact.fact_id = none) (written : Bool) :
    Gains policy s (store_synced policy s fact written).1 [incoming policy fact] := by
  have id := (incoming_fields policy fact).1
  have settled := settled_incoming policy fact
  unfold store_synced
  dsimp only
  generalize Memory.incoming policy fact = f at id settled ⊢
  rw [← id] at unknown
  rw [unknown, lookup_synced unknown]
  refine ⟨?_, if written then [.Store ((s.toMemory.insert_fact_indexes f).cleanLinks f)] else [], ?_, ?_⟩
  · have contents : (s.toMemory.insert_fact_indexes f).sanitize_replayed_links.contents = s.contents ++ [f.content] :=
      contents_insert s.toMemory f ▸ contents_each (s.toMemory.insert_fact_indexes f) fun _ => rfl
    cases written <;> exact contents
  · cases written <;> simp [append_journal, FactStore.change]
  · cases written
    · exact nil_sublist _
    · have settled' : Settled policy ((s.toMemory.insert_fact_indexes f).cleanLinks f) := by
        rw [settled_iff] at settled ⊢
        exact settled
      have same : broughtBy policy [.Store ((s.toMemory.insert_fact_indexes f).cleanLinks f)] = [f].map stemOf := by
        simp [broughtBy, JournalEvent.created,
            show incoming policy ((s.toMemory.insert_fact_indexes f).cleanLinks f) = _ from settled']
        rfl
      rw [if_pos rfl, same]

end

/-- The facts a call adds to memory. -/
def Op.creates (policy : PrivacyPolicy) (s : FactStore) : Op → List Fact
  | .store req stamp _ _ => [s.build_fact (enforce_global policy req) stamp]
  | .try_store req stamp written _ => if written then [s.build_fact (enforce_global policy req) stamp] else []
  | .try_store_bulk reqs written =>
    if written then reqs.map fun r => s.build_fact (enforce_global policy r.1) r.2.1 else []
  | .consolidate tenant_hash req stamp written =>
    match s.planConsolidation tenant_hash req stamp with
    | .ok canonical => if written then [incoming policy canonical] else []
    | .error _ => []
  | .store_synced fact _ => if (s.lookup fact.fact_id).isSome then [] else [incoming policy fact]
  | _ => []

/-- How a call comes to create a fact. -/
inductive Op.Creates (policy : PrivacyPolicy) (s : FactStore) : Op → Fact → Prop
  | store {req stamp first second} : Creates policy s (.store req stamp first second) (s.build_fact (enforce_global policy req) stamp)
  | try_store {req stamp second} :
    Creates policy s (.try_store req stamp true second) (s.build_fact (enforce_global policy req) stamp)
  | try_store_bulk {reqs r} (member : r ∈ reqs) :
    Creates policy s (.try_store_bulk reqs true) (s.build_fact (enforce_global policy r.1) r.2.1)
  | consolidate {tenant req stamp canonical} (planned : s.planConsolidation tenant req stamp = .ok canonical) :
    Creates policy s (.consolidate tenant req stamp true) (incoming policy canonical)
  | store_synced {fact written} (unknown : s.lookup fact.fact_id = none) :
    Creates policy s (.store_synced fact written) (incoming policy fact)

variable {policy : PrivacyPolicy} {s : FactStore}

theorem creates_of_mem {op : Op} (made : f ∈ op.creates policy s) : op.Creates policy s f := by
  cases op with
  | store req stamp first second => exact mem_singleton.mp made ▸ .store
  | try_store req stamp first second =>
    cases first with
    | false => cases made
    | true => exact mem_singleton.mp made ▸ .try_store
  | try_store_bulk reqs first =>
    cases first with
    | false => cases made
    | true =>
      obtain ⟨r, member, rfl⟩ := mem_map.mp made
      exact .try_store_bulk member
  | consolidate tenant req stamp first =>
    dsimp only [Op.creates] at made
    cases planned : s.planConsolidation tenant req stamp with
    | error e => simp [planned] at made
    | ok canonical =>
      cases first with
      | false => simp [planned] at made
      | true =>
        rw [planned] at made
        exact mem_singleton.mp made ▸ .consolidate planned
  | store_synced fact first =>
    dsimp only [Op.creates] at made
    split_ifs at made with known
    · cases made
    · exact mem_singleton.mp made ▸ .store_synced (by simpa using known)
  | _ => cases made

theorem gains_step (env : Env) (s : FactStore) (in_place : op.compacts = false ∧ op.reopens = false) (fresh : op.Fresh s) :
    Gains env.policy s (s.step env op) (op.creates env.policy s) := by
  cases op with
  | store req stamp first second => exact gains_store req stamp first second
  | try_store req stamp first second =>
    cases first with
    | false => exact .nothing env.policy s
    | true => exact gains_store req stamp true second
  | try_store_bulk reqs first =>
    cases first with
    | false => exact .nothing env.policy s
    | true => exact gains_try_store_bulk reqs
  | delete tenant id first => exact .writes (writes_delete (fun _ => rfl) (by simp))
  | try_delete tenant id first => exact .writes (writes_try_delete (fun _ => rfl) first)
  | mark_superseded tenant target successor first => exact .writes (writes_mark_superseded (fun _ => rfl) (by simp))
  | clear_superseded tenant id first => exact .writes (writes_clear_superseded (fun _ => rfl) (by simp))
  | set_validity id valid_from valid_to first => exact .writes (writes_set_validity rfl (by simp))
  | consolidate tenant req stamp first =>
    cases planned : s.planConsolidation tenant req stamp with
    | error e =>
      dsimp only [step, consolidate_facts_v1, Op.creates]
      rw [planned]
      exact .nothing env.policy s
    | ok canonical =>
      cases first with
      | false =>
        dsimp only [step, consolidate_facts_v1, Op.creates]
        rw [planned]
        exact .nothing env.policy s
      | true =>
        dsimp [Op.creates]
        rw [planned]
        refine gains_consolidate planned ?_
        rw [(planConsolidation_ok planned).1]
        exact lookup_none.mpr fun f member => (fresh.2 stamp.fact_id (by simp [Op.drawn]) f member).1
  | undo tenant id ids first => exact .writes (writes_undo (fun _ _ => rfl) first)
  | store_synced fact first =>
    cases known : s.lookup fact.fact_id with
    | none =>
      dsimp [Op.creates]
      rw [known]
      exact gains_store_synced known first
    | some f =>
      dsimp only [step, store_synced, Op.creates]
      rw [(incoming_fields env.policy fact).1, known]
      exact .nothing env.policy s
  | sweep cutoff flags => exact .writes (writes_deleteEach fun _ _ => rfl)
  | compact replaced => cases in_place.1
  | reopen => cases in_place.2

theorem grows_step (env : Env) (s : FactStore) (in_place : op.compacts = false ∧ op.reopens = false) (fresh : op.Fresh s) :
    Grows env.policy s (s.step env op) (op.creates env.policy s) := (gains_step env s in_place fresh).grows

/-- Of two facts of a chain the later one has the higher version. -/
def Ascending (stems : List Stem) : Prop := stems.Pairwise fun a b => a.chainKey = b.chainKey → a.version < b.version

def StoreFact.chainKey (req : StoreFact) : ChainKey := (stampTenant req.tenant_hash, req.entity, req.key)

/-- A chain that is empty or ends with a fact that is not deleted and has a version after it. -/
def Memory.room (m : Memory) (c : ChainKey) : Bool :=
  match (m.chain c).getLast? with
  | some last => !last.deleted && decide (last.version.toNat + 1 < UInt32.size)
  | none => true

/-- New facts go to chains with room for them, to different ones within a batch, and a synced fact comes after its chain. -/
def Op.orderly (s : FactStore) : Op → Bool
  | .store req _ _ _ => s.room req.chainKey
  | .try_store req _ _ _ => s.room req.chainKey
  | .try_store_bulk reqs _ => (reqs.all fun r => s.room r.1.chainKey) && decide (reqs.map fun r => r.1.chainKey).Nodup
  | .consolidate tenant_hash req _ _ => s.room (stampTenant tenant_hash, req.entity, req.key)
  | .store_synced fact _ =>
    (s.lookup fact.fact_id).isSome ||
      (s.chain (stampTenant fact.tenant_hash, fact.entity, fact.key)).all fun f => decide (f.version < fact.version)
  | _ => true

theorem mem_stems_chain {m : Memory} (member : a ∈ m.stems) : ∃ f ∈ m.chain a.chainKey, stemOf f = a := by
  obtain ⟨f, there, rfl⟩ := mem_map.mp member
  refine ⟨f, mem_filter.mpr ⟨there, ?_⟩, rfl⟩
  simp [stemOf]

theorem Ascending.chain {m : Memory} (ascending : Ascending m.stems) (c : ChainKey) :
    (m.chain c).Pairwise fun f g => f.version < g.version := by
  unfold Ascending stems at ascending
  rw [pairwise_map] at ascending
  have part : (m.chain c).Pairwise fun f g => f.chainKey = g.chainKey → f.version < g.version :=
    ascending.sublist filter_sublist
  refine part.imp_of_mem fun {f g} left right rises => rises ?_
  have of_f := (mem_filter.mp left).2
  have of_g := (mem_filter.mp right).2
  rw [decide_eq_true_eq] at of_f of_g
  rw [of_f, of_g]

theorem build_fact_after {m : Memory} (ascending : Ascending m.stems) (req : StoreFact) (stamp : Stamp)
    (room : m.room req.chainKey = true) (member : f ∈ m.chain req.chainKey) :
    f.version < (m.build_fact req stamp).version := by
  have rising := ascending.chain req.chainKey
  unfold Memory.room at room
  change f.version < (match (m.chain req.chainKey).reverse.find? fun f => !f.deleted with
    | some prev_fact => prev_fact.version + 1
    | none => 1)
  generalize m.chain req.chainKey = chain at member rising room ⊢
  rcases eq_nil_or_concat chain with rfl | ⟨init, last, rfl⟩
  · cases member
  · rw [concat_eq_append] at member rising room ⊢
    rw [getLast?_append, getLast?_singleton, Option.some_or] at room
    simp at room
    rw [reverse_append, reverse_singleton, singleton_append, find?_cons, room.1]
    have next : last.version < last.version + 1 := by
      rw [UInt32.lt_iff_toNat_lt, UInt32.toNat_add, UInt32.toNat_one, Nat.mod_eq_of_lt room.2]
      exact Nat.lt_succ_self _
    rcases mem_append.mp member with old | same
    · exact UInt32.lt_trans ((pairwise_append.mp rising).2.2 f old last (by simp)) next
    · rw [mem_singleton.mp same]
      exact next

theorem chainKey_enforced (policy : PrivacyPolicy) (req : StoreFact) : (enforce_global policy req).chainKey = req.chainKey := by
  unfold enforce_global
  split_ifs <;> rfl

theorem creates_after {env : Env} (ascending : Ascending s.stems) {op : Op} (orderly : op.orderly s = true) :
    (∀ f ∈ op.creates env.policy s, ∀ g ∈ s.chain f.chainKey, g.version < f.version) ∧
      (op.creates env.policy s).Pairwise fun f g => f.chainKey ≠ g.chainKey := by
  have built : ∀ req stamp, s.room (StoreFact.chainKey req) = true →
      ∀ g ∈ s.chain (s.build_fact (enforce_global env.policy req) stamp).chainKey,
        g.version < (s.build_fact (enforce_global env.policy req) stamp).version := by
    intro req stamp room g there
    rw [← chainKey_enforced env.policy req] at room
    exact build_fact_after ascending (enforce_global env.policy req) stamp room there
  cases op with
  | store req stamp first second =>
    refine ⟨fun f member => ?_, pairwise_singleton _ _⟩
    rw [mem_singleton.mp member]
    exact built req stamp orderly
  | try_store req stamp first second =>
    dsimp only [Op.creates]
    split_ifs
    · refine ⟨fun f member => ?_, pairwise_singleton _ _⟩
      rw [mem_singleton.mp member]
      exact built req stamp orderly
    · simp
  | try_store_bulk reqs first =>
    dsimp only [Op.creates]
    split_ifs
    · simp only [Op.orderly, Bool.and_eq_true, all_eq_true, decide_eq_true_eq] at orderly
      constructor
      · intro f member
        obtain ⟨r, there, rfl⟩ := mem_map.mp member
        exact built r.1 r.2.1 (orderly.1 r there)
      · rw [pairwise_map]
        have apart := pairwise_map.mp (nodup_iff_pairwise_ne.mp orderly.2)
        refine apart.imp fun {a b} differ => ?_
        rw [← chainKey_enforced env.policy a.1, ← chainKey_enforced env.policy b.1] at differ
        exact differ
    · simp
  | consolidate tenant req stamp first =>
    dsimp only [Op.creates]
    cases planned : s.planConsolidation tenant req stamp with
    | error e => simp
    | ok canonical =>
      split_ifs
      · refine ⟨fun f member => ?_, pairwise_singleton _ _⟩
        rw [mem_singleton.mp member]
        have made := (planConsolidation_ok planned).1
        obtain ⟨_, tenant_eq, entity_eq, key_eq, version_eq, _⟩ := incoming_fields env.policy canonical
        have key : (incoming env.policy canonical).chainKey = (canonicalRequest tenant req).chainKey := by
          unfold Fact.chainKey
          rw [tenant_eq, entity_eq, key_eq, made]
          change (stampTenant (stampTenant tenant), req.entity, req.key) = (stampTenant tenant, req.entity, req.key)
          rw [stampTenant_stampTenant]
        have room : s.room (canonicalRequest tenant req).chainKey = true := orderly
        intro g there
        rw [key] at there
        rw [version_eq, made]
        exact build_fact_after ascending (canonicalRequest tenant req) stamp room there
      · simp
  | store_synced fact first =>
    dsimp only [Op.creates]
    cases known : s.lookup fact.fact_id with
    | some g => simp
    | none =>
      refine ⟨fun f member => ?_, pairwise_singleton _ _⟩
      rw [mem_singleton.mp member]
      obtain ⟨_, tenant_eq, entity_eq, key_eq, version_eq, _⟩ := incoming_fields env.policy fact
      simp only [Op.orderly, known, Option.isSome_none, Bool.false_or, all_eq_true, decide_eq_true_eq] at orderly
      unfold Fact.chainKey
      rw [tenant_eq, entity_eq, key_eq, version_eq]
      exact orderly
  | _ => simp [Op.creates]

theorem Ascending.grows {s' : FactStore} (ascending : Ascending s.stems) (grows : Grows policy s s' new)
    (after : ∀ f ∈ new, ∀ g ∈ s.chain f.chainKey, g.version < f.version)
    (apart : new.Pairwise fun f g => f.chainKey ≠ g.chainKey) : Ascending s'.stems := by
  rw [grows.stems]
  unfold Ascending
  rw [pairwise_append, pairwise_map]
  refine ⟨ascending, apart.imp fun {f g} differ same => absurd same differ, ?_⟩
  intro a old b fresh same
  obtain ⟨g, there, rfl⟩ := mem_stems_chain old
  obtain ⟨f, member, rfl⟩ := mem_map.mp fresh
  rw [same] at there
  exact after f member g there

/-- Versions ascend in memory, and the journal brings back nothing else. -/
structure Versioned (policy : PrivacyPolicy) (s : FactStore) : Prop where
  ascending : Ascending s.stems
  replay : (replayLines policy s.journal).stems.Sublist s.stems

theorem replay_grows (grows : Grows policy s s' new) (replay : (replayLines policy s.journal).stems.Sublist s.stems) :
    (replayLines policy s'.journal).stems.Sublist s'.stems := by
  obtain ⟨lines, journal, brought⟩ := grows.lines
  obtain ⟨more, stems, sub⟩ := adds_lines policy (replayLines policy s.journal) lines
  rw [grows.stems, journal, replayLines_append, stems]
  exact replay.append (sub.trans brought)

theorem Versioned.reopen (versioned : Versioned policy s) :
    Versioned policy (with_persistence policy s.journal) := by
  have stems : (with_persistence policy s.journal).stems = (replayLines policy s.journal).stems :=
    stems_sanitize _
  constructor
  · rw [stems]
    exact versioned.ascending.sublist versioned.replay
  · rw [stems]
    exact List.Sublist.refl _

/-- Versions increase along every chain, whatever writes fail, and the history of a chain lists them in that order. -/
theorem versions_ascend (env : Env) (ops : List Op) (uncompacted : ∀ op ∈ ops, op.compacts = false)
    (fresh : FactStore.Meets env (fun s op => op.Fresh s) {} ops)
    (orderly : FactStore.Meets env (fun s op => op.orderly s = true) {} ops) :
    ((FactStore.run env {} ops).facts.Pairwise fun f g => f.chainKey = g.chainKey → f.version < g.version) ∧
      ∀ tenant_hash entity key, (FactStore.run env {} ops).fact_history tenant_hash entity key =
        (FactStore.run env {} ops).chain (tenant_hash, entity, key) := by
  have versioned : Versioned env.policy (run env {} ops) := by
    have meets := (FactStore.Meets.of_all uncompacted {}).and (fresh.and orderly)
    refine meets.run (fun s op versioned h => ?_) ⟨List.Pairwise.nil, List.Sublist.refl _⟩
    obtain ⟨uncompacted, fresh, orderly⟩ := h
    by_cases reopens : op.reopens = false
    · have grows := grows_step env s ⟨uncompacted, reopens⟩ fresh
      obtain ⟨after, apart⟩ := creates_after versioned.ascending orderly
      exact ⟨versioned.ascending.grows grows after apart, replay_grows grows versioned.replay⟩
    · cases op with
      | reopen => exact versioned.reopen
      | _ => exact absurd rfl reopens
  constructor
  · have ascending := versioned.ascending
    unfold Ascending stems at ascending
    rw [pairwise_map] at ascending
    exact ascending
  · intro tenant_hash entity key
    have sorted : ((run env {} ops).chain (tenant_hash, entity, key)).Pairwise versionLe :=
      (versioned.ascending.chain _).imp UInt32.le_of_lt
    exact sorted.insertionSort_eq

def reusingRun : List Op :=
  [.store sampleRequest ⟨"a", 1⟩ true true, .store sampleRequest ⟨"b", 2⟩ true true, .delete "first" "b" true,
   .store sampleRequest ⟨"c", 3⟩ true true]

/-- The second version is deleted and the next one gets its number. -/
theorem version_reused :
    (∀ op ∈ reusingRun, op.compacts = false ∧ op.written = true) ∧
      FactStore.Meets sampleEnv (fun s op => op.Fresh s) {} reusingRun ∧
      (FactStore.run sampleEnv {} reusingRun).facts.map (fun f => (f.fact_id, f.chainKey, f.version)) =
        [("a", ("first", "e", "k"), 1), ("b", ("first", "e", "k"), 2), ("c", ("first", "e", "k"), 2)] := by
  decide +kernel

theorem sampleRun_versions_ascend :
    ((FactStore.run sampleEnv {} sampleRun).facts.Pairwise fun f g => f.chainKey = g.chainKey → f.version < g.version) ∧
      ∀ tenant_hash entity key, (FactStore.run sampleEnv {} sampleRun).fact_history tenant_hash entity key =
        (FactStore.run sampleEnv {} sampleRun).chain (tenant_hash, entity, key) :=
  versions_ascend sampleEnv sampleRun (by decide) (by decide) (by decide)

end Crux.Facts
