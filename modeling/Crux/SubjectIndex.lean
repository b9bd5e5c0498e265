import Mathlib.Data.List.MinMax
import Mathlib.Data.String.Basic

/-!
# The subject index of receipts

One index for each subject: the newest receipt, and the newest of the verified
and of the audited ones. Newer is decided on the text of the timestamps.
-/

namespace Crux.Receipts
open List

structure ReceiptSubjectLatestV1 where
  receipt_id : String
  mode : String
  ingested_at : String
deriving DecidableEq

structure ReceiptSubjectIndexV1 where
  schema : String
  tenant_id : String
  kind : String
  subject_id : String
  latest : ReceiptSubjectLatestV1
  latest_verified : Option ReceiptSubjectLatestV1
  latest_audit : Option ReceiptSubjectLatestV1
deriving DecidableEq

inductive SubjectResolveModeV1 where
  | Latest
  | Verified
  | Audit

inductive ReceiptStoreError where
  | Invalid (msg : String)
deriving DecidableEq

/-- The candidate where nothing is held or what is held has the smaller text. -/
def newer : Option ReceiptSubjectLatestV1 → ReceiptSubjectLatestV1 → Option ReceiptSubjectLatestV1
  | none, candidate => some candidate
  | some held, candidate => if held.ingested_at < candidate.ingested_at then some candidate else some held

section
variable (tenant_id kind subject_id : String)

/-- The file of the subject before and after an update. -/
def update_subject_index_v1 (file : Option ReceiptSubjectIndexV1) (receipt_id mode ingested_at : String) :
    Except ReceiptStoreError ReceiptSubjectIndexV1 :=
  let candidate := ⟨receipt_id, mode, ingested_at⟩
  let cur := file.getD ⟨"cuecrux.receipt.subject_index.v1", tenant_id, kind, subject_id, candidate, none, none⟩
  if cur.tenant_id ≠ tenant_id ∨ cur.kind ≠ kind ∨ cur.subject_id ≠ subject_id then
    .error (.Invalid "subject index key mismatch (possible hash collision)")
  else
    .ok { cur with
      latest := if cur.latest.ingested_at < ingested_at then candidate else cur.latest
      latest_verified := if mode = "verified" then newer cur.latest_verified candidate else cur.latest_verified
      latest_audit := if mode = "audit" then newer cur.latest_audit candidate else cur.latest_audit }

def resolve_subject_receipt_id_v1 (file : Option ReceiptSubjectIndexV1) (mode : SubjectResolveModeV1) :
    Except ReceiptStoreError (Option String) :=
  match file with
  | none => .ok none
  | some cur =>
    if cur.tenant_id ≠ tenant_id ∨ cur.kind ≠ kind ∨ cur.subject_id ≠ subject_id then
      .error (.Invalid "subject index key mismatch (possible tenant hash collision)")
    else
      match mode with
      | .Latest => .ok (some cur.latest.receipt_id)
      | .Verified => .ok (cur.latest_verified.map (·.receipt_id))
      | .Audit => .ok (cur.latest_audit.map (·.receipt_id))

end

def eligible : SubjectResolveModeV1 → ReceiptSubjectLatestV1 → Bool
  | .Latest, _ => true
  | .Verified, u => u.mode = "verified"
  | .Audit, u => u.mode = "audit"

section
variable (tenant_id kind subject_id : String) (mode : SubjectResolveModeV1) (updates : List ReceiptSubjectLatestV1)

/-- The first of the eligible updates with the greatest text. -/
def winner : Option ReceiptSubjectLatestV1 := (updates.filter (eligible mode)).argmax (·.ingested_at)

/-- An eligible update that no eligible one has a greater text than. -/
def IsTop (u : ReceiptSubjectLatestV1) : Prop :=
  u ∈ updates.filter (eligible mode) ∧ ∀ v ∈ updates.filter (eligible mode), v.ingested_at ≤ u.ingested_at

/-- The receipt of an eligible update of the latest instant; no receipt where no update is eligible. -/
def IsLatest {Instant : Type*} [LE Instant] (instant : String → Instant) : Option String → Prop
  | none => updates.filter (eligible mode) = []
  | some receipt_id => ∃ u ∈ updates.filter (eligible mode), u.receipt_id = receipt_id ∧
      ∀ v ∈ updates.filter (eligible mode), instant v.ingested_at ≤ instant u.ingested_at

/-- The file of a subject after its updates. -/
def indexed : Except ReceiptStoreError (Option ReceiptSubjectIndexV1) :=
  updates.foldlM (fun file u =>
    (update_subject_index_v1 tenant_id kind subject_id file u.receipt_id u.mode u.ingested_at).map some) none

def resolved : Except ReceiptStoreError (Option String) := do
  let file ← indexed tenant_id kind subject_id updates
  resolve_subject_receipt_id_v1 tenant_id kind subject_id file mode

theorem winner_concat (u : ReceiptSubjectLatestV1) :
    winner mode (updates ++ [u]) = if eligible mode u then newer (winner mode updates) u else winner mode updates := by
  unfold winner
  rw [filter_append, filter_singleton]
  cases eligible mode u with
  | false => simp
  | true =>
    rw [cond_true, argmax_concat, if_pos rfl]
    cases List.argmax (·.ingested_at) (updates.filter (eligible mode)) <;> rfl

theorem winner_latest_none (none_held : winner .Latest updates = none) : updates = [] := by
  rw [winner, argmax_eq_none, filter_eq_nil_iff] at none_held
  exact eq_nil_iff_forall_not_mem.mpr fun u there => none_held u there rfl

theorem indexed_eq : indexed tenant_id kind subject_id updates = .ok ((winner .Latest updates).map fun u =>
    ⟨"cuecrux.receipt.subject_index.v1", tenant_id, kind, subject_id, u, winner .Verified updates, winner .Audit updates⟩) := by
  induction updates using List.reverseRecOn with
  | nil => rfl
  | append_singleton before u ih =>
    unfold indexed at ih ⊢
    rw [foldlM_append, ih, winner_concat .Latest, if_pos (show eligible .Latest u from rfl), winner_concat, winner_concat]
    change (update_subject_index_v1 _ _ _ _ _ _ _).map some >>= pure = _
    cases held : winner .Latest before with
    | none =>
      rw [winner_latest_none before held]
      simp [update_subject_index_v1, eligible, newer, winner, Except.map, bind, Except.bind, pure, Except.pure]
    | some latest =>
      simp only [update_subject_index_v1, Option.map_some, Option.getD_some, eligible, decide_eq_true_eq, newer.eq_2]
      rw [if_neg (by simp)]
      split_ifs <;> rfl

theorem resolved_eq : resolved tenant_id kind subject_id mode updates = .ok ((winner mode updates).map (·.receipt_id)) := by
  unfold resolved
  rw [indexed_eq]
  cases held : winner .Latest updates with
  | none =>
    rw [winner_latest_none updates held]
    cases mode <;> rfl
  | some u =>
    change resolve_subject_receipt_id_v1 _ _ _ (some _) _ = _
    unfold resolve_subject_receipt_id_v1
    dsimp only
    rw [if_neg (by simp)]
    cases mode with
    | Latest => rw [held, Option.map_some]
    | Verified => rfl
    | Audit => rfl

end

section
variable {mode : SubjectResolveModeV1} {updates others : List ReceiptSubjectLatestV1} {u : ReceiptSubjectLatestV1}

theorem winner_isTop (won : winner mode updates = some u) : IsTop mode updates u :=
  ⟨argmax_mem won, fun _ there => le_of_mem_argmax there won⟩

theorem winner_cons (top : IsTop mode updates u) : winner mode (u :: updates.erase u) = some u := by
  obtain ⟨there, greatest⟩ := top
  have takes := (mem_filter.mp there).2
  rw [winner, filter_cons_of_pos takes, argmax_eq_some_iff]
  refine ⟨mem_cons_self, ?_, fun v _ _ => by simp⟩
  intro v member
  rcases mem_cons.mp member with rfl | later
  · exact le_rfl
  · obtain ⟨later, takes⟩ := mem_filter.mp later
    exact greatest v (mem_filter.mpr ⟨mem_of_mem_erase later, takes⟩)

theorem IsTop.perm (same : others.Perm updates) (top : IsTop mode others u) : IsTop mode updates u := by
  have members := fun v => (same.filter (eligible mode)).mem_iff (a := v)
  exact ⟨(members u).mp top.1, fun v there => top.2 v ((members v).mpr there)⟩

end

/-- A subject resolves, in any order of its updates, to the receipt of the latest instant exactly when in each mode the eligible
updates of the greatest text name one receipt, and it is one of the latest instant. The reading of timestamps as instants is
left open. -/
theorem subject_resolution_latest {Instant : Type*} [LinearOrder Instant] (instant : String → Instant)
    (tenant_id kind subject_id : String) (updates : List ReceiptSubjectLatestV1) :
    (∀ mode, ∃ answer, IsLatest mode updates instant answer ∧
      ∀ order, updates.Perm order → resolved tenant_id kind subject_id mode order = .ok answer) ↔
    ∀ mode, ∀ u, IsTop mode updates u → IsLatest mode updates instant (some u.receipt_id) ∧
      ∀ v, IsTop mode updates v → v.receipt_id = u.receipt_id := by
  refine forall_congr' fun mode => ?_
  simp [resolved_eq]
  constructor
  · rintro ⟨answer, latest, same⟩ u top
    have answered : ∀ v, IsTop mode updates v → some v.receipt_id = answer := by
      intro v top
      have won := same _ (perm_cons_erase (mem_filter.mp top.1).1)
      rwa [winner_cons top] at won
    refine ⟨answered u top ▸ latest, fun v other => ?_⟩
    exact Option.some.inj ((answered v other).trans (answered u top).symm)
  · intro tops
    cases won : winner mode updates with
    | none =>
      have nothing : updates.filter (eligible mode) = [] := argmax_eq_none.mp won
      refine ⟨none, nothing, fun order same => ?_⟩
      have empty := same.symm.filter (eligible mode)
      rw [nothing] at empty
      rw [winner, empty.eq_nil]
      rfl
    | some u =>
      have top := winner_isTop won
      refine ⟨some u.receipt_id, (tops u top).1, fun order same => ?_⟩
      cases first : winner mode order with
      | none =>
        have empty := same.filter (eligible mode)
        rw [argmax_eq_none.mp first] at empty
        exact absurd top.1 (by rw [empty.eq_nil]; simp)
      | some v => rw [Option.map_some, (tops u top).2 v ((winner_isTop first).perm same.symm)]

/-- Two receipts of one instant resolve to the one that came first, and `Z` sorts after the point of a fraction. -/
theorem subject_resolution_by_text :
    resolved "t" "answer" "s" .Latest [⟨"a", "light", "2026-01-01T00:00:00Z"⟩, ⟨"b", "light", "2026-01-01T00:00:00Z"⟩] = .ok (some "a") ∧
    resolved "t" "answer" "s" .Latest [⟨"b", "light", "2026-01-01T00:00:00Z"⟩, ⟨"a", "light", "2026-01-01T00:00:00Z"⟩] = .ok (some "b") ∧
    resolved "t" "answer" "s" .Latest [⟨"a", "light", "2026-01-01T00:00:00Z"⟩, ⟨"b", "light", "2026-01-01T00:00:00.5Z"⟩] =
      .ok (some "a") := by
  decide +kernel

end Crux.Receipts
