import Crux.SyncRounds

/-!
# Pulls

A pull asks the remote node for page after page of its export, from the watermark of
the last pull on, and mirrors what it gets. While it runs, facts are stored on the
remote node.
-/

namespace Crux.Facts.Sync
open Memory List

/-- What the export of a scope pages through. -/
def inScope (scope : Option String) (f : Fact) : Bool :=
  scope.all (fun tenant => f.tenant_hash = tenant) && (!f.is_private && !f.deleted)

/-- Everything the export pages through, in its order. -/
def exportList (facts : List Fact) (scope : Option String) (since : Option Timestamp) : List Fact :=
  (((facts.filter fun fact => scope.all fun tenant => fact.tenant_hash = tenant).filter fun fact =>
    !fact.is_private && !fact.deleted).insertionSort storedBefore).filter fun fact => since.all fun since => since ≤ fact.stored_at

variable {facts : List Fact} {since : Option Timestamp}

theorem mem_exportList : f ∈ exportList facts scope since ↔
      f ∈ facts ∧ inScope scope f = true ∧ ∀ w, since = some w → w ≤ f.stored_at := by
  simp [exportList, inScope, Option.all_eq_true]
  tauto

theorem exportList_sorted (facts : List Fact) (scope : Option String) (since : Option Timestamp) :
    (exportList facts scope since).Pairwise storedBefore :=
  (pairwise_insertionSort _ _).filter _

theorem exportList_nodup (nodup : (facts.map Fact.fact_id).Nodup) (scope : Option String)
    (since : Option Timestamp) : ((exportList facts scope since).map Fact.fact_id).Nodup := by
  refine List.Nodup.sublist (filter_sublist.map _) ?_
  refine ((perm_insertionSort storedBefore _).map _).nodup_iff.mpr ?_
  exact List.Nodup.sublist ((filter_sublist.trans filter_sublist).map _) nodup

/-- A fact comes after a cursor. -/
def After (facts : List Fact) (cursor : Option String) (g : Fact) : Prop :=
  ∀ c ∈ facts, cursor = some c.fact_id → storedBefore c g ∧ c.fact_id ≠ g.fact_id

variable {cursor : Option String}

theorem mem_drop_start {all : List Fact} (sorted : all.Pairwise storedBefore) (inside : ∀ f ∈ all, f ∈ facts) (here : g ∈ all) (after : After facts cursor g) :
    g ∈ all.drop (((cursor.bind fun cursor => all.findIdx? fun fact => fact.fact_id = cursor).map (· + 1)).getD 0) := by
  cases cursor with
  | none => simpa using here
  | some id =>
    simp
    cases found : all.findIdx? fun fact => fact.fact_id = id with
    | none => simpa using here
    | some pos =>
      obtain ⟨low, named, _⟩ := findIdx?_eq_some_iff_getElem.mp found
      have same : all[pos].fact_id = id := by simpa using named
      obtain ⟨before, differ⟩ := after all[pos] (inside _ (getElem_mem low)) (by rw [same])
      obtain ⟨j, inJ, at_j⟩ := getElem_of_mem here
      have later : pos < j := by
        by_contra early
        rcases Nat.lt_or_eq_of_le (not_lt.mp early) with less | equal
        · have order := pairwise_iff_getElem.mp sorted j pos inJ low less
          rw [at_j] at order
          exact differ (storedBefore_antisymm before order)
        · subst equal
          exact differ (by rw [at_j])
      rw [Option.map_some, Option.getD_some, mem_drop_iff_getElem]
      exact ⟨j - (pos + 1), by omega, by simp only [Nat.add_sub_cancel' (show pos + 1 ≤ j by omega), at_j]⟩

section
variable (facts : List Fact) (scope : Option String) (since : Option Timestamp) (cursor : Option String)

/-- What is left of the export behind a cursor. -/
def remaining : List Fact :=
  (exportList facts scope since).drop
    (((cursor.bind fun cursor => (exportList facts scope since).findIdx? fun fact => fact.fact_id = cursor).map (· + 1)).getD 0)

theorem export_scoped_eq (limit : Nat) : export_scoped facts scope since cursor limit =
      { facts := (remaining facts scope since cursor).take limit
        next_cursor := if decide (limit < (remaining facts scope since cursor).length) = true then
          ((remaining facts scope since cursor).take limit).getLast?.map Fact.fact_id else none
        has_more := decide (limit < (remaining facts scope since cursor).length) } := rfl

end

/-- A page has the facts after its cursor, or they come after the cursor it gives. -/
theorem page_covers {facts : List Fact} (nodup : (facts.map Fact.fact_id).Nodup) {scope : Option String} {since : Option Timestamp}
    {cursor : Option String} {limit : Nat} {g : Fact} (here : g ∈ exportList facts scope since) (after : After facts cursor g) :
    g ∈ (export_scoped facts scope since cursor limit).facts ∨ ((export_scoped facts scope since cursor limit).has_more = true ∧
        After facts (export_scoped facts scope since cursor limit).next_cursor g) := by
  have inside : ∀ f ∈ exportList facts scope since, f ∈ facts := fun f member => (mem_exportList.mp member).1
  have rest : g ∈ remaining facts scope since cursor := mem_drop_start (exportList_sorted facts scope since) inside here after
  have part : (remaining facts scope since cursor).Sublist (exportList facts scope since) := drop_sublist _ _
  have sorted := (exportList_sorted facts scope since).sublist part
  have distinct := (exportList_nodup nodup scope since).sublist (part.map _)
  have known : ∀ f ∈ remaining facts scope since cursor, f ∈ facts := fun f member => inside f (part.subset member)
  rw [export_scoped_eq]
  generalize remaining facts scope since cursor = left at rest sorted distinct known
  rw [← take_append_drop limit left] at rest sorted distinct
  rcases mem_append.mp rest with taken | later
  · exact .inl taken
  · refine .inr ?_
    have long : limit < left.length := by
      have some_left := length_pos_of_mem later
      rw [length_drop] at some_left
      omega
    rw [if_pos (by simpa using long)]
    refine ⟨by simpa using long, ?_⟩
    rw [map_append, nodup_append] at distinct
    rw [pairwise_append] at sorted
    intro c member is
    obtain ⟨last, final, named⟩ := Option.map_eq_some_iff.mp is
    have there : last ∈ left.take limit := mem_of_getLast? final
    have equal : c = last :=
      inj_on_of_nodup_map nodup member (known last (mem_of_mem_take there)) named.symm
    rw [equal]
    exact ⟨sorted.2.2 last there g later,
      distinct.2.2 _ (mem_map_of_mem there) _ (mem_map_of_mem later)⟩

theorem remaining_next (nodup : (facts.map Fact.fact_id).Nodup) (some_limit : 0 < limit)
    (more : (export_scoped facts scope since cursor limit).has_more = true) :
    remaining facts scope since (export_scoped facts scope since cursor limit).next_cursor =
      (remaining facts scope since cursor).drop limit := by
  have distinct := exportList_nodup nodup scope since
  rw [export_scoped_eq] at more ⊢
  rw [if_pos more]
  have long : limit < (remaining facts scope since cursor).length := by simpa using more
  unfold remaining at long ⊢
  generalize (((cursor.bind fun cursor => (exportList facts scope since).findIdx? fun fact => fact.fact_id = cursor).map
    (· + 1)).getD 0) = k at long ⊢
  generalize exportList facts scope since = all at distinct long ⊢
  rw [length_drop] at long
  have low : k + (limit - 1) < all.length := by omega
  have last : ((all.drop k).take limit).getLast? = some all[k + (limit - 1)] := by
    rw [getLast?_eq_getElem?, length_take, length_drop, Nat.min_eq_left (by omega),
      getElem?_take_of_lt (by omega), getElem?_drop, getElem?_eq_getElem low]
  have place : all.findIdx? (fun fact => fact.fact_id = all[k + (limit - 1)].fact_id) = some (k + (limit - 1)) := by
    refine findIdx?_eq_some_iff_getElem.mpr ⟨low, by simp, ?_⟩
    intro j before
    have differ := pairwise_iff_getElem.mp distinct j (k + (limit - 1)) (by simp; omega) (by simpa using low) before
    simpa using differ
  rw [last, Option.map_some, Option.bind_some, place, drop_drop, Option.map_some, Option.getD_some]
  congr 1
  omega

theorem next_cursor_none (last : (export_scoped facts scope since cursor limit).has_more = false) :
    (export_scoped facts scope since cursor limit).next_cursor = none := by
  change (if (export_scoped facts scope since cursor limit).has_more = true then _ else none) = none
  rw [last]
  rfl

theorem next_cursor_mem {id : String} (is : (export_scoped facts scope since cursor limit).next_cursor = some id) :
    id ∈ facts.map Fact.fact_id := by
  change (if (export_scoped facts scope since cursor limit).has_more = true then
    (export_scoped facts scope since cursor limit).facts.getLast?.map Fact.fact_id else none) = some id at is
  split_ifs at is
  obtain ⟨last, final, rfl⟩ := Option.map_eq_some_iff.mp is
  have taken : last ∈ (exportList facts scope since).drop _ := mem_of_mem_take (mem_of_getLast? final)
  exact mem_map_of_mem (mem_exportList.mp (mem_of_mem_drop taken)).1

def AGENT_PRIVATE_ENTITY_PREFIX : String := "__agent::"

def split_private_entity (entity : String) : Option (String × String) :=
  if starts_with entity AGENT_PRIVATE_ENTITY_PREFIX then
    (splitOnce (entity.toList.drop AGENT_PRIVATE_ENTITY_PREFIX.length)).map fun (owner, logical) =>
      (String.ofList owner, String.ofList logical)
  else none

def visible_entity_for_agent (fact : Fact) (agent_name : Option String) : Option String :=
  match split_private_entity fact.entity with
  | some (owner, logical) => if agent_name = some owner then some logical else none
  | none => if fact.is_private then none else some fact.entity

/-- The caller of the remote node, as its token says. -/
structure HttpScopeContext where
  raw_admin : Bool
  tenant_hash : String
  passport_id : Option String
deriving DecidableEq

def render_fact_for_http (fact : Fact) (ctx : HttpScopeContext) : Option Fact :=
  if ctx.raw_admin then some fact
  else (visible_entity_for_agent fact ctx.passport_id).map fun entity => { fact with entity }

/-- The tenant an export is kept to. -/
def HttpScopeContext.scope (ctx : HttpScopeContext) : Option String := if ctx.raw_admin then none else some ctx.tenant_hash

def export_facts (facts : List Fact) (ctx : HttpScopeContext) (since : Option Timestamp) (cursor : Option String) (limit : Nat) :
    FactExportResult :=
  let result := export_scoped facts ctx.scope since cursor limit
  if ctx.raw_admin then result else { result with facts := result.facts.filterMap fun fact => render_fact_for_http fact ctx }

/-- What the export gives to a caller. -/
def exported (ctx : HttpScopeContext) (f : Fact) : Bool := inScope ctx.scope f && (render_fact_for_http f ctx).isSome

theorem render_fact_id (shown : render_fact_for_http f ctx = some g) : g.fact_id = f.fact_id := by
  unfold render_fact_for_http at shown
  split_ifs at shown
  · cases shown
    rfl
  · obtain ⟨entity, _, rfl⟩ := Option.map_eq_some_iff.mp shown
    rfl

theorem mem_export_facts {facts : List Fact} {ctx : HttpScopeContext} {since : Option Timestamp} {cursor : Option String}
    {limit : Nat} {g : Fact} (taken : g ∈ (export_scoped facts ctx.scope since cursor limit).facts) (yes : exported ctx g = true) :
    ∃ g' ∈ (export_facts facts ctx since cursor limit).facts, g'.fact_id = g.fact_id := by
  unfold export_facts
  split_ifs
  · exact ⟨g, taken, rfl⟩
  · simp [exported] at yes
    obtain ⟨g', shown⟩ := Option.isSome_iff_exists.mp yes.2
    exact ⟨g', mem_filterMap.mpr ⟨g, taken, shown⟩, render_fact_id shown⟩

theorem export_facts_cursor (facts : List Fact) (ctx : HttpScopeContext) (since : Option Timestamp) (cursor : Option String)
    (limit : Nat) :
    (export_facts facts ctx since cursor limit).next_cursor = (export_scoped facts ctx.scope since cursor limit).next_cursor ∧
      (export_facts facts ctx since cursor limit).has_more = (export_scoped facts ctx.scope since cursor limit).has_more := by
  unfold export_facts
  split_ifs <;> exact ⟨rfl, rfl⟩

/-- The fact under an identifier is there. -/
def Visible (s : FactStore) (id : String) : Prop := (s.lookup id).isSome = true

theorem visible_synced (policy : PrivacyPolicy) (s : FactStore) (fact : Fact) (written : Bool) :
    Visible (s.store_synced policy fact written).1 fact.fact_id ∧
      ∀ id, Visible s id → Visible (s.store_synced policy fact written).1 id := by
  have named : (incoming policy fact).fact_id = fact.fact_id := (incoming_fields policy fact).1
  have found : ∀ id, ((s.change fun m => (m.insert_fact_indexes (incoming policy fact)).sanitize_replayed_links).lookup id).isSome =
      ((s.lookup id).or (if fact.fact_id = id then some (incoming policy fact) else none)).isSome := by
    intro id
    have each := lookup_each (h := (s.insert_fact_indexes (incoming policy fact)).cleanLinks) (fun _ => rfl)
      (s.insert_fact_indexes (incoming policy fact)) id
    change ((s.insert_fact_indexes (incoming policy fact)).sanitize_replayed_links.lookup id).isSome = _
    change (s.insert_fact_indexes (incoming policy fact)).sanitize_replayed_links.lookup id = _ at each
    rw [each, lookup_insert, named, Option.isSome_map]
  unfold FactStore.store_synced
  dsimp only
  by_cases known : (s.lookup (incoming policy fact).fact_id).isSome = true
  · rw [if_pos known]
    exact ⟨named ▸ known, fun _ visible => visible⟩
  · rw [if_neg known]
    generalize changed : (s.change fun m => (m.insert_fact_indexes (incoming policy fact)).sanitize_replayed_links) = s' at found ⊢
    have both : (s'.lookup fact.fact_id).isSome = true ∧ ∀ id, Visible s id → (s'.lookup id).isSome = true := by
      refine ⟨?_, fun id visible => ?_⟩
      · rw [found, if_pos rfl]
        cases s.lookup fact.fact_id <;> rfl
      · rw [found]
        obtain ⟨f, is⟩ := Option.isSome_iff_exists.mp visible
        rw [is]
        rfl
    cases s'.lookup (incoming policy fact).fact_id with
    | none => exact both
    | some f =>
      unfold FactStore.append_journal
      split_ifs <;> exact both

/-- A pulled fact as it is mirrored. -/
def tagged (remote_url : String) (fact : Fact) : Fact :=
  { fact with source_receipt := some ("sync:" ++ remote_url ++ ":" ++ fact.fact_id), tenant_hash := default_tenant_hash }

section
variable (policy : PrivacyPolicy) (remote_url : String) (written : Bool) (s : FactStore) (page : List Fact)

/-- The facts of a page one after the other. -/
def mirrorPage : FactStore :=
  page.foldl (fun s fact => (s.store_synced policy (tagged remote_url fact) written).1) s

theorem visible_mirrorPage : (∀ id, Visible s id → Visible (mirrorPage policy remote_url written s page) id) ∧
      ∀ f ∈ page, Visible (mirrorPage policy remote_url written s page) f.fact_id := by
  induction page generalizing s with
  | nil => exact ⟨fun _ visible => visible, by simp⟩
  | cons fact rest ih =>
    obtain ⟨stored, kept⟩ := visible_synced policy s (tagged remote_url fact) written
    obtain ⟨later, each⟩ := ih (s.store_synced policy (tagged remote_url fact) written).1
    refine ⟨fun id visible => later id (kept id visible), ?_⟩
    intro f member
    rcases mem_cons.mp member with rfl | inside
    · exact later _ stored
    · exact each f inside

end

/-! ## Rounds of pull -/

/-- A pull on its way: where it asks from, where it stands, whether the last page is there, and which identifiers the remote
store had when it began. -/
structure PullRun where
  since : Option Timestamp
  cursor : Option String
  finished : Bool
  seen : List String

structure PullState where
  remote : FactStore := {}
  mirror : FactStore := {}
  last_pull_at : Option Timestamp := none
  last_pull_cursor : Option String := none
  running : Option PullRun := none

inductive PullStep where
  | work (step : StoreStep)
  | begin
  | page (written : Bool)
  | finish (now : Timestamp)
  | abort

/-- The setting of a pull. The watermark travels as the text of a time inside the address; `reads` is what the remote node makes
of it, which may be nothing. -/
structure PullSetting where
  remote_policy : PrivacyPolicy
  policy : PrivacyPolicy
  remote_url : String
  ctx : HttpScopeContext
  reads : Timestamp → Option Timestamp

/-- The time the remote node filters by. -/
def PullSetting.filtered (setting : PullSetting) (since : Option Timestamp) : Option Timestamp := since.bind setting.reads

section
variable (setting : PullSetting)

/-- One page: a fact of a reserved namespace ends the pull before anything of the page is stored. -/
def pullPage (st : PullState) (run : PullRun) (written : Bool) : PullState :=
  let result := export_facts st.remote.facts setting.ctx (setting.filtered run.since) run.cursor 1000
  if result.facts.any fun fact => ( generic_create_reserved_entity_prefix fact.entity).isSome then { st with running := none }
  else { st with
    mirror := mirrorPage setting.policy setting.remote_url written st.mirror result.facts
    running := some { run with cursor := result.next_cursor, finished := !result.has_more } }

def PullState.step (st : PullState) : PullStep → PullState
  | .work step => { st with remote := step.apply setting.remote_policy st.remote }
  | .begin => { st with running := some ⟨st.last_pull_at, st.last_pull_cursor, false, st.remote.ids⟩ }
  | .page written =>
    match st.running with
    | some run => if run.finished then st else pullPage setting st run written
    | none => st
  | .finish now =>
    match st.running with
    | some run =>
      if run.finished then { st with last_pull_at := some now, last_pull_cursor := run.cursor, running := none } else st
    | none => st
  | .abort => { st with running := none }

def PullState.run (st : PullState) (steps : List PullStep) : PullState := steps.foldl (PullState.step setting) st

/-- New remote facts are not stamped before the watermark, and at the end of a pull the watermark is not after anything that
was stored on the remote node since the pull began. -/
def PullStep.Timely (st : PullState) : PullStep → Prop
  | .work (.store req stamp written superseded) =>
    (StoreStep.store req stamp written superseded).Fresh st.remote ∧ ∀ w ∈ setting.filtered st.last_pull_at, w ≤ stamp.stored_at
  | .finish now => ∀ run ∈ st.running, ∀ g ∈ st.remote.facts, exported setting.ctx g = true → g.fact_id ∉ run.seen →
      ∀ w ∈ setting.reads now, w ≤ g.stored_at
  | _ => True

def PullTimely : PullState → List PullStep → Prop
  | _, [] => True
  | st, step :: steps => PullStep.Timely setting st step ∧ PullTimely (st.step setting step) steps

instance (st : PullState) : (step : PullStep) → Decidable (PullStep.Timely setting st step)
  | .work (.store _ _ _ _) => inferInstanceAs (Decidable (_ ∧ ∀ w ∈ _, _))
  | .finish _ => inferInstanceAs (Decidable (∀ run ∈ _, ∀ g ∈ _, _ → _ → ∀ w ∈ _, _))
  | .work (.delete _ _ _) | .begin | .page _ | .abort => inferInstanceAs (Decidable True)

instance PullTimely.decidable : (st : PullState) → (steps : List PullStep) → Decidable (PullTimely setting st steps)
  | _, [] => inferInstanceAs (Decidable True)
  | st, step :: steps =>
    haveI := PullTimely.decidable (st.step setting step) steps
    inferInstanceAs (Decidable (PullStep.Timely setting st step ∧ _))

/-- Every fact the remote node gives out is mirrored or will be asked for by the next pull. -/
def PullLossless (st : PullState) : Prop :=
  ∀ g ∈ st.remote.facts, exported setting.ctx g = true →
    Visible st.mirror g.fact_id ∨ g ∈ exportList st.remote.facts setting.ctx.scope (setting.filtered st.last_pull_at)

/-- What a pull on its way keeps. -/
structure Underway (st : PullState) (run : PullRun) : Prop where
  since : run.since = st.last_pull_at
  seen : ∀ id ∈ run.seen, id ∈ st.remote.ids
  cursor : ∀ id, run.cursor = some id → id ∈ st.remote.ids
  ended : run.finished = true → run.cursor = none
  rest : ∀ g ∈ st.remote.facts, exported setting.ctx g = true → g.fact_id ∈ run.seen →
    Visible st.mirror g.fact_id ∨ (run.finished = false ∧ After st.remote.facts run.cursor g)

structure PullKept (st : PullState) : Prop where
  nodup : st.remote.ids.Nodup
  cursorless : st.last_pull_cursor = none
  settled : ∀ g ∈ st.remote.facts, exported setting.ctx g = true →
    Visible st.mirror g.fact_id ∨ ∀ w, setting.filtered st.last_pull_at = some w → w ≤ g.stored_at
  underway : ∀ run, st.running = some run → Underway setting st run

variable {setting}

theorem Same.exported (same : Same f f') (yes : Sync.exported ctx f' = true) : Sync.exported ctx f = true := by
  have faces := same.1
  simp [face] at faces
  obtain ⟨_, _, closed, _, entity, tenant⟩ := faces
  have shown : (render_fact_for_http f ctx).isSome = (render_fact_for_http f' ctx).isSome := by
    unfold render_fact_for_http visible_entity_for_agent
    rw [closed, entity]
    split_ifs <;> simp
  simp [Sync.exported, inScope] at yes ⊢
  rw [closed, tenant, shown]
  exact ⟨⟨yes.1.1, yes.1.2.1, same.2 yes.1.2.2⟩, yes.2⟩

theorem Same.storedBefore (first : Same c c') (second : Same g g') (before : Memory.storedBefore c g) :
    Memory.storedBefore c' g' := by
  unfold Memory.storedBefore at before ⊢
  rw [← first.stored_at, ← first.fact_id, ← second.stored_at, ← second.fact_id]
  exact before

variable {st : PullState}

theorem PullKept.idle (nodup : st.remote.ids.Nodup) (cursorless : st.last_pull_cursor = none) (none_running : st.running = none)
    (settled : ∀ g ∈ st.remote.facts, exported setting.ctx g = true →
      Visible st.mirror g.fact_id ∨ ∀ w, setting.filtered st.last_pull_at = some w → w ≤ g.stored_at) : PullKept setting st := by
  refine ⟨nodup, cursorless, settled, ?_⟩
  intro run is
  rw [none_running] at is
  cases is

section
variable (kept : PullKept setting st)
include kept

theorem PullKept.work (timely : PullStep.Timely setting st (.work step)) :
    PullKept setting (st.step setting (.work step)) := by
  have fresh : step.Fresh st.remote := by
    cases step with
    | delete tenant_hash fact_id written => trivial
    | store req stamp written superseded => exact timely.1
  refine ⟨nodup_apply kept.nodup fresh, kept.cursorless, ?_, ?_⟩
  · intro g' member yes
    rcases mem_apply member with ⟨g, here, same⟩ | ⟨req, stamp, written, superseded, rfl, _, late⟩
    · rw [← same.fact_id, ← same.stored_at]
      exact kept.settled g here (same.exported yes)
    · rw [late]
      exact .inr timely.2
  · intro run is
    have before := kept.underway run is
    refine ⟨before.since, fun id there => mem_ids_apply (before.seen id there),
      fun id there => mem_ids_apply (before.cursor id there), before.ended, ?_⟩
    intro g' member yes there
    obtain ⟨g, here, same⟩ := mem_apply_old fresh member (before.seen _ there)
    rw [← same.fact_id] at there ⊢
    rcases before.rest g here (same.exported yes) there with visible | ⟨going, after⟩
    · exact .inl visible
    · refine .inr ⟨going, fun c' member' isCursor => ?_⟩
      -- the fact of the cursor is an old one, too
      obtain ⟨c, old, same'⟩ := mem_apply_old fresh member' (before.cursor _ isCursor)
      obtain ⟨earlier, differ⟩ := after c old (by rw [isCursor, same'.fact_id])
      exact ⟨same'.storedBefore same earlier, same'.fact_id ▸ same.fact_id ▸ differ⟩

theorem PullKept.begin : PullKept setting (st.step setting .begin) := by
  refine ⟨kept.nodup, kept.cursorless, kept.settled, ?_⟩
  rintro run ⟨⟩
  refine ⟨rfl, fun _ there => there, ?_, (fun finished => by cases finished), ?_⟩
  · intro id is
    rw [kept.cursorless] at is
    cases is
  · intro g _ _ _
    refine .inr ⟨rfl, fun c _ is => ?_⟩
    rw [kept.cursorless] at is
    cases is

theorem PullKept.page (running : st.running = some run) (written : Bool) :
    PullKept setting (pullPage setting st run written) := by
  have before := kept.underway run running
  unfold pullPage
  dsimp only
  split_ifs
  · exact PullKept.idle kept.nodup kept.cursorless rfl kept.settled
  · obtain ⟨cursor, more⟩ := export_facts_cursor st.remote.facts setting.ctx (setting.filtered run.since) run.cursor 1000
    have shown := @mem_export_facts st.remote.facts setting.ctx (setting.filtered run.since) run.cursor 1000
    generalize export_facts st.remote.facts setting.ctx (setting.filtered run.since) run.cursor 1000 = page at cursor more shown ⊢
    obtain ⟨stays, comes⟩ := visible_mirrorPage setting.policy setting.remote_url written st.mirror page.facts
    refine ⟨kept.nodup, kept.cursorless, ?_, ?_⟩
    · intro g member yes
      rcases kept.settled g member yes with visible | late
      · exact .inl (stays _ visible)
      · exact .inr late
    · rintro run' ⟨⟩
      refine ⟨before.since, before.seen, ?_, ?_, ?_⟩
      · intro id is
        rw [cursor] at is
        exact next_cursor_mem is
      · intro last
        rw [more] at last
        rw [cursor]
        exact next_cursor_none (by simpa using last)
      · intro g member yes there
        rcases before.rest g member yes there with visible | ⟨_, after⟩
        · exact .inl (stays _ visible)
        · rcases kept.settled g member yes with visible | late
          · exact .inl (stays _ visible)
          · have reached : inScope setting.ctx.scope g = true := by
              simp [exported] at yes
              exact yes.1
            have asked : g ∈ exportList st.remote.facts setting.ctx.scope (setting.filtered run.since) :=
              mem_exportList.mpr ⟨member, reached, by rw [before.since]; exact late⟩
            rcases @page_covers _ kept.nodup _ _ _ 1000 _ asked after with taken | ⟨on, after'⟩
            · obtain ⟨g', inPage, named⟩ := shown taken yes
              exact .inl (named ▸ comes g' inPage)
            · refine .inr ⟨?_, cursor ▸ after'⟩
              rw [more, on]
              rfl

theorem PullKept.finish (timely : PullStep.Timely setting st (.finish now)) :
    PullKept setting (st.step setting (.finish now)) := by
  rw [PullState.step]
  cases running : st.running with
  | none => exact kept
  | some run =>
    dsimp only
    by_cases finished : run.finished = true
    · rw [if_pos finished]
      have before := kept.underway run running
      refine PullKept.idle kept.nodup (before.ended finished) rfl ?_
      intro g member yes
      by_cases seen : g.fact_id ∈ run.seen
      · rcases before.rest g member yes seen with visible | ⟨going, _⟩
        · exact .inl visible
        · rw [finished] at going
          cases going
      · refine .inr ?_
        exact timely run running g member yes seen
    · rw [if_neg finished]
      exact kept

theorem PullKept.step {step : PullStep} (timely : PullStep.Timely setting st step) :
    PullKept setting (st.step setting step) := by
  cases step with
  | work step => exact kept.work timely
  | begin => exact kept.begin
  | page written =>
    rw [PullState.step]
    cases running : st.running with
    | none => exact kept
    | some run =>
      dsimp only
      split_ifs
      · exact kept
      · exact kept.page running written
  | finish now => exact kept.finish timely
  | abort => exact PullKept.idle kept.nodup kept.cursorless rfl kept.settled

theorem PullKept.run {steps : List PullStep} (timely : PullTimely setting st steps) :
    PullKept setting (st.run setting steps) := by
  induction steps generalizing st with
  | nil => exact kept
  | cons step steps ih => exact ih (kept.step timely.1) timely.2

end

theorem pullKept_empty : PullKept setting {} := PullKept.idle nodup_nil rfl rfl (by simp)

theorem PullKept.lossless (kept : PullKept setting st) : PullLossless setting st := by
  intro g member yes
  rcases kept.settled g member yes with visible | late
  · exact .inl visible
  · simp [exported] at yes
    exact .inr (mem_exportList.mpr ⟨member, yes.1, late⟩)

/-- A pull that has its last page has mirrored all that the remote node gave out when it began. -/
theorem pull_round (kept : PullKept setting st) (running : st.running = some run) (finished : run.finished = true) :
    ∀ g ∈ st.remote.facts, exported setting.ctx g = true → g.fact_id ∈ run.seen → Visible st.mirror g.fact_id := by
  intro g member yes seen
  rcases (kept.underway run running).rest g member yes seen with visible | ⟨going, _⟩
  · exact visible
  · rw [finished] at going
    cases going

/-- No fact of a reserved namespace is in what the caller sees. -/
def Unreserved (ctx : HttpScopeContext) (facts : List Fact) : Prop :=
  ∀ f ∈ facts, inScope ctx.scope f = true → ∀ f', render_fact_for_http f ctx = some f' → generic_create_reserved_entity_prefix f'.entity = none

theorem unreserved_page (free : Unreserved ctx facts) (since : Option Timestamp) (cursor : Option String) (limit : Nat) :
    ((export_facts facts ctx since cursor limit).facts.any fun fact =>
      ( generic_create_reserved_entity_prefix fact.entity).isSome) = false := by
  have inside : ∀ f ∈ (export_scoped facts ctx.scope since cursor limit).facts, f ∈ facts ∧ inScope ctx.scope f = true := by
    intro f member
    obtain ⟨here, reached, _⟩ := mem_exportList.mp (mem_of_mem_drop (mem_of_mem_take member))
    exact ⟨here, reached⟩
  rw [any_eq_false]
  intro f' member
  have source : ∃ f, (f ∈ facts ∧ inScope ctx.scope f = true) ∧ render_fact_for_http f ctx = some f' := by
    unfold export_facts at member
    split_ifs at member with admin
    · exact ⟨f', inside f' member, if_pos admin⟩
    · obtain ⟨f, taken, shown⟩ := mem_filterMap.mp member
      exact ⟨f, inside f taken, shown⟩
  obtain ⟨f, ⟨here, reached⟩, shown⟩ := source
  rw [free f here reached f' shown]
  simp

theorem pages_finished (running : st.running = some run) (finished : run.finished = true) (n : Nat) (written : Bool) :
    st.run setting (List.replicate n (.page written)) = st := by
  induction n with
  | zero => rfl
  | succ n ih =>
    have stays : st.step setting (.page written) = st := by
      rw [PullState.step, running]
      exact if_pos finished
    change (st.step setting (.page written)).run setting (List.replicate n (.page written)) = st
    rw [stays, ih]

/-- Page after page a pull comes to its end. -/
theorem pages_complete {st : PullState} (nodup : st.remote.ids.Nodup) (free : Unreserved setting.ctx st.remote.facts) {run : PullRun}
    (running : st.running = some run) (going : run.finished = false) (written : Bool) {n : Nat}
    (bound : (remaining st.remote.facts setting.ctx.scope (setting.filtered run.since) run.cursor).length ≤ n) :
    ∃ run', (st.run setting (List.replicate (n + 1) (.page written))).running = some run' ∧ run'.finished = true ∧
      run'.seen = run.seen ∧ (st.run setting (List.replicate (n + 1) (.page written))).remote = st.remote := by
  induction n using Nat.strong_induction_on generalizing st run with
  | _ n ih =>
    have turn : st.step setting (.page written) = pullPage setting st run written := by
      rw [PullState.step, running]
      exact if_neg (by simp [going])
    have unfolded : st.run setting (List.replicate (n + 1) (.page written)) =
        (pullPage setting st run written).run setting (List.replicate n (.page written)) := by
      rw [← turn]
      rfl
    obtain ⟨cursor, more⟩ := export_facts_cursor st.remote.facts setting.ctx (setting.filtered run.since) run.cursor 1000
    have next : (pullPage setting st run written).running = some { run with
        cursor := (export_scoped st.remote.facts setting.ctx.scope (setting.filtered run.since) run.cursor 1000).next_cursor
        finished := !(export_scoped st.remote.facts setting.ctx.scope (setting.filtered run.since) run.cursor 1000).has_more } := by
      unfold pullPage
      rw [if_neg (by simp [unreserved_page free]), cursor, more]
    have same : (pullPage setting st run written).remote = st.remote := by
      unfold pullPage
      dsimp only
      split_ifs <;> rfl
    rw [unfolded]
    cases on : (export_scoped st.remote.facts setting.ctx.scope (setting.filtered run.since) run.cursor 1000).has_more with
    | false =>
      rw [on] at next
      rw [pages_finished next rfl]
      exact ⟨_, next, rfl, rfl, same⟩
    | true =>
      rw [on] at next
      have long : 1000 < (remaining st.remote.facts setting.ctx.scope (setting.filtered run.since) run.cursor).length := by
        rw [export_scoped_eq] at on
        simpa using on
      obtain ⟨m, rfl⟩ : ∃ m, n = m + 1 := ⟨n - 1, by omega⟩
      have shorter := congrArg List.length (remaining_next nodup (show 0 < 1000 by norm_num) on)
      rw [length_drop] at shorter
      obtain ⟨run', found, ended, seen, remote⟩ := ih m (Nat.lt_succ_self m) (same ▸ nodup) (same ▸ free) next rfl
        (by rw [same]; dsimp only; omega)
      exact ⟨run', found, ended, seen, remote.trans same⟩

theorem pull_completes (kept : PullKept setting st) (free : Unreserved setting.ctx st.remote.facts) (written : Bool) :
    ∃ n run, (st.run setting (.begin :: List.replicate n (.page written))).running = some run ∧ run.finished = true ∧
      ∀ g ∈ st.remote.facts, exported setting.ctx g = true →
        Visible (st.run setting (.begin :: List.replicate n (.page written))).mirror g.fact_id := by
  have begun : PullKept setting (st.step setting .begin) := kept.begin
  obtain ⟨n, bound⟩ : ∃ n,
      (remaining st.remote.facts setting.ctx.scope (setting.filtered st.last_pull_at) st.last_pull_cursor).length ≤ n :=
    ⟨_, Nat.le_refl _⟩
  obtain ⟨run, running, ended, seen, remote⟩ := @pages_complete setting (st.step setting .begin) kept.nodup free
    ⟨st.last_pull_at, st.last_pull_cursor, false, st.remote.ids⟩ rfl rfl written n bound
  refine ⟨n + 1, run, running, ended, ?_⟩
  intro g member yes
  have timely : ∀ (n : Nat) (st : PullState), PullTimely setting st (List.replicate n (.page written)) := by
    intro n
    induction n with
    | zero => exact fun _ => trivial
    | succ n ih => exact fun st => ⟨trivial, ih _⟩
  refine pull_round (begun.run (timely _ _)) running ended g ?_ yes ?_
  · rw [remote]
    exact member
  · rw [seen]
    exact mem_map_of_mem member

end

/-- In every run whose steps are timely, every fact that is to be pushed is in a completed batch or in the next selection, and
the next completed round takes it, whatever is stored meanwhile. Every fact of the remote export is mirrored or will be asked
for, a pull that has its last page has mirrored what was there when it began, and a pull comes to its last page. -/
theorem watermarks_lossless (client : SyncClient) (policy : PrivacyPolicy) (setting : PullSetting) :
    (∀ steps, PushTimely client policy {} steps →
        PushLossless client (PushState.run client policy {} steps) ∧
          ∀ (during : List StoreStep) (now : Timestamp), ∀ f ∈ (PushState.run client policy {} steps).store.facts,
            eligible client f = true →
              f.fact_id ∈ ((PushState.run client policy {} steps).run client policy
                (.select :: (during.map .work ++ [.finish now]))).pushed) ∧
      ∀ steps, PullTimely setting {} steps →
        PullLossless setting (PullState.run setting {} steps) ∧
          (∀ run, (PullState.run setting {} steps).running = some run → run.finished = true →
            ∀ g ∈ (PullState.run setting {} steps).remote.facts, exported setting.ctx g = true → g.fact_id ∈ run.seen →
              Visible (PullState.run setting {} steps).mirror g.fact_id) ∧
          ∀ written, Unreserved setting.ctx (PullState.run setting {} steps).remote.facts →
            ∃ n run, ((PullState.run setting {} steps).run setting (.begin :: List.replicate n (.page written))).running = some run ∧
              run.finished = true ∧
              ∀ g ∈ (PullState.run setting {} steps).remote.facts, exported setting.ctx g = true →
                Visible ((PullState.run setting {} steps).run setting (.begin :: List.replicate n (.page written))).mirror
                  g.fact_id := by
  constructor
  · intro steps timely
    have kept := PushKept.run pushKept_empty timely
    exact ⟨kept.lossless, fun during now => push_round kept.lossless during now⟩
  · intro steps timely
    have kept := PullKept.run pullKept_empty timely
    exact ⟨kept.lossless, fun run running finished => pull_round kept running finished,
      fun written free => pull_completes kept free written⟩

def sampleClient : SyncClient := ⟨[], id, none⟩

/-- One fact is pushed, the next is stored after the clock was read. -/
def calmPushes : List PushStep :=
  [.work (.store sampleRequest ⟨"a", 1⟩ true true), .select, .finish 2, .work (.store sampleRequest ⟨"b", 3⟩ true true)]

def sampleSetting : PullSetting := ⟨sampleEnv.policy, sampleEnv.policy, "https://remote", ⟨true, "", none⟩, some⟩

/-- One fact is pulled, the next is stored after the clock was read. -/
def calmPulls : List PullStep :=
  [.work (.store sampleRequest ⟨"a", 1⟩ true true), .begin, .page true, .finish 2,
    .work (.store sampleRequest ⟨"b", 3⟩ true true)]

theorem calm_rounds_lossless :
    PushLossless sampleClient (PushState.run sampleClient sampleEnv.policy {} calmPushes) ∧
      PullLossless sampleSetting (PullState.run sampleSetting {} calmPulls) :=
  ⟨((watermarks_lossless sampleClient sampleEnv.policy sampleSetting).1 calmPushes (by decide +kernel)).1,
    ((watermarks_lossless sampleClient sampleEnv.policy sampleSetting).2 calmPulls (by decide +kernel)).1⟩

/-- The second fact is stored between the selection and the reading of the clock. -/
def racingPushes : List PushStep :=
  [.work (.store sampleRequest ⟨"a", 1⟩ true true), .select, .work (.store sampleRequest ⟨"b", 2⟩ true true), .finish 3]

/-- A fact stored while a batch is on its way is in no batch: not in the one that completes and not in the next. -/
theorem racing_store_never_pushed :
    (∃ f ∈ (PushState.run sampleClient sampleEnv.policy {} racingPushes).store.facts,
      f.fact_id = "b" ∧ eligible sampleClient f = true) ∧
      "b" ∉ ((PushState.run sampleClient sampleEnv.policy {} racingPushes).run sampleClient sampleEnv.policy
        [.select, .finish 4]).pushed ∧
      (clientAt sampleClient ((PushState.run sampleClient sampleEnv.policy {} racingPushes).run sampleClient sampleEnv.policy
        [.select, .finish 4])).pushable_facts
          (PushState.run sampleClient sampleEnv.policy {} racingPushes).store.facts = [] := by
  decide +kernel

end Crux.Facts.Sync
