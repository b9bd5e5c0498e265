import Crux.Lists
import Crux.CreditMeter

/-!
# Credits are conserved

Along every run of the credit meter a tenant's available balance is what was
seeded less what is held, an operation has at most one reservation that is not
voided, and no call touches another tenant's balance.
-/

namespace Crux.Billing
open CreditMeterStore CreditMeter List

/-- What a seed gives a tenant. -/
def seedFor (tenant_id : String) (seed : (String × String) × Nat) : Nat := if seed.1.1 = tenant_id then seed.2 else 0

/-- What a reservation holds of a tenant's credit: its cost, spent or not, until it is voided. -/
def heldFor (tenant_id : String) (r : ReservationState) : Nat :=
  if r.tenant_id = tenant_id ∧ r.voided_reason = none then r.cost else 0

def seedTotal (seeds : Entries (String × String) Nat) (tenant_id : String) : Nat := (seeds.map (seedFor tenant_id)).sum

def heldTotal (reservations : List ReservationState) (tenant_id : String) : Nat := (reservations.map (heldFor tenant_id)).sum

/-- A wallet over what was seeded and what is held. -/
structure Balanced (w : WalletState) (seeded held : Nat) : Prop where
  balance : w.balance = min seeded U64_MAX
  reserved : w.reserved = held
  covered : held ≤ w.balance

structure Sound (s : CreditMeterStore) : Prop where
  ids : (s.reservations.map ReservationState.reservation_id).Nodup
  funds : ∀ t, Balanced (s.wallet t) (seedTotal s.seed_events t) (heldTotal s.reservations t)
  pointer : ∀ r ∈ s.reservations, r.voided_reason = none →
    s.reservations_by_operation (r.tenant_id, r.operation_id) = some r.reservation_id
  known : ∀ r ∈ s.reservations, (s.wallets r.tenant_id).isSome = true
  settled : ∀ r ∈ s.reservations, r.spent_receipt.isSome = true → r.voided_reason = none

theorem sound_empty : Sound {} where
  ids := nodup_nil
  funds t := by constructor <;> simp [wallet, KeyMap.empty, seedTotal, heldTotal]
  pointer := by simp
  known := by simp
  settled := by simp

variable {s : CreditMeterStore} {r : ReservationState}

theorem mem_of_reservation {id : String} (h : s.reservation id = some r) : r ∈ s.reservations ∧ r.reservation_id = id :=
  ⟨mem_of_find?_eq_some h, by simpa using find?_some h⟩

theorem Sound.reservation (h : Sound s) (here : r ∈ s.reservations) : s.reservation r.reservation_id = some r :=
  Lists.find?_of_mem h.ids here

theorem wallet_insert (s : CreditMeterStore) (tenant_id x : String) (w : WalletState) :
    (s.wallets.insert tenant_id w x).getD {} = if x = tenant_id then w else s.wallet x := by
  rw [KeyMap.insert_apply]
  split_ifs <;> rfl

theorem isSome_insert {wallets : KeyMap String WalletState} {x : String} (tenant_id : String) (w : WalletState)
    (h : x = tenant_id ∨ (wallets x).isSome = true) : (wallets.insert tenant_id w x).isSome = true := by
  rw [KeyMap.insert_apply]
  split_ifs with same
  · rfl
  · exact h.resolve_left same

/-! ## Events -/

/-- What holds of the store when an operation appends an event. -/
def Due (s : CreditMeterStore) : CreditMeterEvent → Prop
  | .SeedCompedWallet _ event_id tenant_id _ => s.seed_events.get (tenant_id, event_id) = none
  | .Reserve _ tenant_id operation_id reservation_id cost _ _ _ =>
    s.reservation reservation_id = none ∧ openReservation s tenant_id operation_id = none ∧
      cost ≤ s.available_balance tenant_id
  | .Spend _ _ _ reservation_id _ => ∃ r, s.reservation reservation_id = some r ∧ r.voided_reason = none
  | .Void _ _ _ _ _ => True

variable {seeds : Entries (String × String) Nat}

theorem put_fresh (fresh : seeds.get k = none) (amount : Nat) : seeds.put k amount = seeds ++ [(k, amount)] := by
  unfold Entries.get at fresh
  rw [Option.map_eq_none_iff, find?_eq_none] at fresh
  have kept : seeds.remove k = seeds := by
    rw [Entries.remove, filter_eq_self]
    intro e here
    simpa using fresh e here
  rw [Entries.put, kept]

variable {schema tenant_id : String}

theorem Sound.seeded (h : Sound s) (due : Due s (.SeedCompedWallet schema event_id tenant_id amount)) :
    Sound (s.apply (.SeedCompedWallet schema event_id tenant_id amount)) := by
  have fresh : s.seed_events.get (tenant_id, event_id) = none := due
  simp [CreditMeterStore.apply, fresh]
  refine ⟨h.ids, ?_, h.pointer, fun r here => isSome_insert _ _ (.inr (h.known r here)), h.settled⟩
  intro t
  have before := h.funds t
  have total : seedTotal (s.seed_events.put (tenant_id, event_id) amount) t =
      seedTotal s.seed_events t + seedFor t ((tenant_id, event_id), amount) := by
    simp [put_fresh fresh, seedTotal]
  simp only [onWallet, wallet, wallet_insert, total, seedFor]
  by_cases same : t = tenant_id
  · subst same
    have filled : min (min (seedTotal s.seed_events t) U64_MAX + amount) U64_MAX =
        min (seedTotal s.seed_events t + amount) U64_MAX := by omega
    refine ⟨?_, by simpa [wallet] using before.reserved, ?_⟩
    · simp
      rw [← filled, ← before.balance]
      rfl
    · have covered := before.covered
      have bound := before.balance
      simp only [if_true, saturating_add]
      change _ ≤ min ((s.wallet t).balance + amount) U64_MAX
      omega
  · rw [if_neg same, if_neg (fun other => same other.symm), Nat.add_zero]
    exact before

variable {operation_id : String}

theorem Sound.voided_of_none (h : Sound s)
    (none_open : openReservation s tenant_id operation_id = none) (here : r ∈ s.reservations)
    (tenant : r.tenant_id = tenant_id) (operation : r.operation_id = operation_id) : r.voided_reason ≠ none := by
  intro live
  have pointer := h.pointer r here live
  rw [tenant, operation] at pointer
  simp [openReservation, pointer, h.reservation here, live] at none_open

theorem Sound.reserved (h : Sound s)
    (due : Due s (.Reserve schema tenant_id operation_id reservation_id cost balance_after payload_hash created_at_unix)) :
    Sound (s.apply (.Reserve schema tenant_id operation_id reservation_id cost balance_after payload_hash created_at_unix)) := by
  obtain ⟨fresh, none_open, enough⟩ := due
  have unknown : ∀ r ∈ s.reservations, r.reservation_id ≠ reservation_id := by
    intro r here same
    rw [← same, h.reservation here] at fresh
    cases fresh
  simp [CreditMeterStore.apply, fresh]
  refine ⟨?_, ?_, ?_, ?_, ?_⟩
  · simp
    rw [nodup_append]
    refine ⟨h.ids, nodup_singleton _, ?_⟩
    intro id here id' new
    rw [mem_singleton] at new
    obtain ⟨r, member, rfl⟩ := mem_map.mp here
    rw [new]
    exact unknown r member
  · intro t
    have before := h.funds t
    simp [onWallet, wallet, wallet_insert, heldTotal, heldFor]
    by_cases same : t = tenant_id
    · subst same
      have covered := before.covered
      have reserved := before.reserved
      have bound := before.balance
      have room : cost ≤ (s.wallet t).balance - (s.wallet t).reserved := enough
      have total : heldTotal s.reservations t + cost ≤ (s.wallet t).balance := by omega
      simp
      refine ⟨bound, ?_, total⟩
      change min ((s.wallet t).reserved + cost) U64_MAX = heldTotal s.reservations t + cost
      omega
    · have other : ¬ tenant_id = t := fun h => same h.symm
      simp [if_neg same, other]
      exact before
  · intro r here live
    rw [mem_append, mem_singleton] at here
    change (if (r.tenant_id, r.operation_id) = (tenant_id, operation_id) then some reservation_id
      else s.reservations_by_operation (r.tenant_id, r.operation_id)) = some r.reservation_id
    rcases here with old | rfl
    · split_ifs with same
      · obtain ⟨tenant, operation⟩ := Prod.mk.inj same
        exact absurd live (h.voided_of_none none_open old tenant operation)
      · exact h.pointer r old live
    · rw [if_pos rfl]
  · intro r here
    rw [mem_append, mem_singleton] at here
    rcases here with old | rfl
    · exact isSome_insert _ _ (.inr (h.known r old))
    · exact isSome_insert _ _ (.inl rfl)
  · intro r here spent
    rw [mem_append, mem_singleton] at here
    rcases here with old | rfl
    · exact h.settled r old spent
    · rfl

theorem Sound.mem_onReservation (h : Sound s) (here : r ∈ s.reservations)
    (member : r' ∈ (s.onReservation r.reservation_id change).reservations) :
    r' = change r ∨ r' ∈ s.reservations := by
  obtain ⟨old, before, rfl⟩ := mem_map.mp member
  split_ifs with same
  · exact .inl (congrArg change (inj_on_of_nodup_map h.ids before here same))
  · exact .inr before

theorem ids_onReservation (s : CreditMeterStore) (id : String) (change : ReservationState → ReservationState)
    (same : ∀ r, (change r).reservation_id = r.reservation_id) :
    (s.onReservation id change).reservations.map ReservationState.reservation_id =
      s.reservations.map ReservationState.reservation_id := by
  simp only [onReservation, map_map]
  apply map_congr_left
  intro r _
  simp
  split_ifs
  · exact same r
  · rfl

section
variable (h : Sound s) (here : r ∈ s.reservations) (change : ReservationState → ReservationState)
include h here

theorem held_onReservation (t : String) : heldTotal (s.onReservation r.reservation_id change).reservations t + heldFor t r =
      heldTotal s.reservations t + heldFor t (change r) :=
  Lists.sum_change h.ids here (heldFor t) change

/-- A change of one reservation that does not revive it, with the wallets that go with it. -/
theorem Sound.changed (wallets : KeyMap String WalletState) (keys : ∀ r, (change r).reservation_id = r.reservation_id ∧
      (change r).tenant_id = r.tenant_id ∧ (change r).operation_id = r.operation_id)
    (funds : ∀ t, Balanced ((wallets t).getD {}) (seedTotal s.seed_events t)
      (heldTotal (s.onReservation r.reservation_id change).reservations t))
    (known : ∀ t, (s.wallets t).isSome = true → (wallets t).isSome = true)
    (live : (change r).voided_reason = none → r.voided_reason = none)
    (settled : (change r).spent_receipt.isSome = true → (change r).voided_reason = none) :
    Sound { s.onReservation r.reservation_id change with wallets := wallets } := by
  refine ⟨?_, funds, fun r' member live' => ?_, fun r' member => ?_, fun r' member spent => ?_⟩
  · exact (ids_onReservation s _ change fun r => (keys r).1).symm ▸ h.ids
  · rcases h.mem_onReservation here member with rfl | old
    · rw [(keys r).1, (keys r).2.1, (keys r).2.2]
      exact h.pointer r here (live live')
    · exact h.pointer r' old live'
  · rcases h.mem_onReservation here member with rfl | old
    · rw [(keys r).2.1]
      exact known _ (h.known r here)
    · exact known _ (h.known r' old)
  · rcases h.mem_onReservation here member with rfl | old
    · exact settled spent
    · exact h.settled r' old spent

end

theorem Sound.spent (h : Sound s) (due : Due s (.Spend schema tenant_id operation_id reservation_id spend_receipt)) :
    Sound (s.apply (.Spend schema tenant_id operation_id reservation_id spend_receipt)) := by
  obtain ⟨r, found, live⟩ := due
  obtain ⟨here, rfl⟩ := mem_of_reservation found
  simp only [CreditMeterStore.apply, found]
  split_ifs with unspent
  · refine h.changed here _ s.wallets (fun _ => ⟨rfl, rfl, rfl⟩) (fun t => ?_) (fun _ => id) id fun _ => live
    have total := held_onReservation h here (fun r => { r with spent_receipt := some spend_receipt }) t
    rw [show heldFor t { r with spent_receipt := some spend_receipt } = heldFor t r from rfl] at total
    rw [Nat.add_right_cancel total]
    exact h.funds t
  · exact h

theorem Balanced.release (h : Balanced w seeded held) (total : left + cost = held) :
    Balanced { w with reserved := w.reserved - cost } seeded left where
  balance := h.balance
  reserved := by
    have reserved := h.reserved
    change w.reserved - cost = left
    omega
  covered := by
    have covered := h.covered
    change left ≤ w.balance
    omega

theorem Sound.voided (h : Sound s) (schema tenant_id operation_id reservation_id reason : String) :
    Sound (s.apply (.Void schema tenant_id operation_id reservation_id reason)) := by
  cases found : s.reservation reservation_id with
  | none => simpa only [CreditMeterStore.apply, found] using h
  | some r =>
    obtain ⟨here, rfl⟩ := mem_of_reservation found
    simp only [CreditMeterStore.apply, found, h.known r here, if_true]
    split_ifs with live
    · obtain ⟨unspent, unvoided⟩ := live
      rw [Option.isNone_iff_eq_none] at unspent unvoided
      refine h.changed here (fun r => { r with voided_reason := some reason }) _ (fun _ => ⟨rfl, rfl, rfl⟩) (fun t => ?_)
        (fun t known => isSome_insert _ _ (.inr known)) nofun (by simp [unspent])
      have total := held_onReservation h here (fun r => { r with voided_reason := some reason }) t
      have gone : heldFor t { r with voided_reason := some reason } = 0 := by simp [heldFor]
      rw [gone, Nat.add_zero] at total
      rw [wallet_insert]
      by_cases same : t = r.tenant_id
      · subst same
        rw [if_pos rfl]
        rw [heldFor, if_pos ⟨rfl, unvoided⟩] at total
        exact (h.funds r.tenant_id).release total
      · rw [if_neg same]
        rw [heldFor, if_neg (fun both => same both.1.symm), Nat.add_zero] at total
        rw [total]
        exact h.funds t
    · exact h

variable {e : CreditMeterEvent}

theorem Sound.apply (h : Sound s) (due : Due s e) : Sound (s.apply e) := by
  cases e with
  | SeedCompedWallet schema event_id tenant_id amount => exact h.seeded due
  | Reserve schema tenant_id operation_id reservation_id cost balance_after payload_hash created_at_unix =>
    exact h.reserved due
  | Spend schema tenant_id operation_id reservation_id spend_receipt => exact h.spent due
  | Void schema tenant_id operation_id reservation_id reason => exact h.voided _ _ _ _ _

/-- The event is about another tenant. -/
def Elsewhere (s : CreditMeterStore) (t : String) : CreditMeterEvent → Prop
  | .SeedCompedWallet _ _ tenant_id _ => tenant_id ≠ t
  | .Reserve _ tenant_id _ _ _ _ _ _ => tenant_id ≠ t
  | .Spend _ _ _ _ _ => True
  | .Void _ _ _ reservation_id _ => ∀ r, s.reservation reservation_id = some r → r.tenant_id ≠ t

theorem wallet_apply_elsewhere (other : Elsewhere s t e) : (s.apply e).wallet t = s.wallet t := by
  cases e with
  | SeedCompedWallet schema event_id tenant_id amount =>
    have differ : t ≠ tenant_id := Ne.symm other
    simp only [CreditMeterStore.apply]
    split_ifs
    · simp only [onWallet, wallet, wallet_insert, if_neg differ]
    · rfl
  | Reserve schema tenant_id operation_id reservation_id cost balance_after payload_hash created_at_unix =>
    have differ : t ≠ tenant_id := Ne.symm other
    simp only [CreditMeterStore.apply]
    split_ifs
    · rfl
    · simp only [onWallet, wallet, wallet_insert, if_neg differ]
  | Spend schema tenant_id operation_id reservation_id spend_receipt =>
    simp only [CreditMeterStore.apply]
    split
    · split_ifs <;> rfl
    · rfl
  | Void schema tenant_id operation_id reservation_id reason =>
    simp only [CreditMeterStore.apply]
    split
    · rename_i r found
      have differ : t ≠ r.tenant_id := Ne.symm (other r found)
      split_ifs
      · change (s.wallets.insert r.tenant_id _ t).getD {} = _
        rw [wallet_insert, if_neg differ]
      · rfl
      · rfl
    · rfl

theorem seed_cases (m : CreditMeter) (tenant_id : String) (amount : Nat) (event_id : String) :
    ((m.store.seed_events.get (tenant_id, event_id)).isSome = true ∧ (m.seed_comped_wallet tenant_id amount event_id).1 = m) ∨
      (m.store.seed_events.get (tenant_id, event_id) = none ∧ (m.seed_comped_wallet tenant_id amount event_id).1 =
        m.append_and_apply (.SeedCompedWallet SCHEMA_V1 event_id tenant_id amount)) := by
  unfold seed_comped_wallet
  cases known : m.store.seed_events.get (tenant_id, event_id) with
  | some amount => exact .inl ⟨rfl, by simp⟩
  | none => exact .inr ⟨rfl, by simp⟩

theorem freshFrom_free {id : String} (h : freshFrom hashHex s tenant_id operation_id cost payload_hash fuel attempt = some id) :
    s.reservation id = none := by
  induction fuel generalizing attempt with
  | zero => cases h
  | succ fuel ih =>
    rw [freshFrom] at h
    split_ifs at h with free
    · cases h
      simpa using free
    · exact ih h

theorem reserve_cases (hashHex : String → String) (m : CreditMeter) (tenant_id operation_id : String) (cost : Nat)
    (payload_hash : String) (now : Nat) : (m.reserve hashHex tenant_id operation_id cost payload_hash now).1 = m ∨
      (openReservation m.store tenant_id operation_id = none ∧ ∃ reservation_id balance_after payload created,
        Due m.store (.Reserve SCHEMA_V1 tenant_id operation_id reservation_id cost balance_after payload created) ∧
          (m.reserve hashHex tenant_id operation_id cost payload_hash now).1 =
            m.append_and_apply (.Reserve SCHEMA_V1 tenant_id operation_id reservation_id cost balance_after payload created)) := by
  unfold reserve
  cases opened : openReservation m.store tenant_id operation_id with
  | some existing => exact .inl rfl
  | none =>
    dsimp only
    split_ifs with poor
    · exact .inl rfl
    · cases fresh : fresh_reservation_id hashHex m.store tenant_id operation_id cost payload_hash with
      | none => exact .inl rfl
      | some reservation_id =>
        exact .inr ⟨rfl, reservation_id, _, _, _, ⟨freshFrom_free fresh, opened, not_lt.mp poor⟩, rfl⟩

theorem spend_cases (m : CreditMeter) (tenant_id reservation_id spend_receipt : String) :
    (m.spend tenant_id reservation_id spend_receipt).1 = m ∨
      ∃ r, m.store.reservation reservation_id = some r ∧ r.voided_reason = none ∧ r.spent_receipt = none ∧
        (m.spend tenant_id reservation_id spend_receipt).1 =
          m.append_and_apply (.Spend SCHEMA_V1 r.tenant_id r.operation_id reservation_id spend_receipt) := by
  unfold spend
  cases found : m.store.reservation reservation_id with
  | none => exact .inl rfl
  | some r =>
    dsimp only
    split_ifs with other
    · exact .inl rfl
    · cases voided : r.voided_reason with
      | some reason => exact .inl rfl
      | none =>
        cases spent : r.spent_receipt with
        | some receipt => exact .inl rfl
        | none => exact .inr ⟨r, rfl, voided, spent, rfl⟩

theorem void_cases (m : CreditMeter) (tenant_id reservation_id reason : String) :
    (m.void_reservation tenant_id reservation_id reason).1 = m ∨
      ∃ r, m.store.reservation reservation_id = some r ∧ r.tenant_id = tenant_id ∧
        (m.void_reservation tenant_id reservation_id reason).1 =
          m.append_and_apply (.Void SCHEMA_V1 r.tenant_id r.operation_id reservation_id reason) := by
  unfold void_reservation
  cases found : m.store.reservation reservation_id with
  | none => exact .inl rfl
  | some r =>
    dsimp only
    split_ifs with other
    · exact .inl rfl
    · cases r.spent_receipt with
      | some receipt => exact .inl rfl
      | none =>
        cases r.voided_reason with
        | some reason => exact .inl rfl
        | none => exact .inr ⟨r, rfl, not_not.mp other, rfl⟩

theorem seed_events_apply (s : CreditMeterStore)
    (other : ∀ schema event_id tenant_id amount, e ≠ .SeedCompedWallet schema event_id tenant_id amount) :
    (s.apply e).seed_events = s.seed_events := by
  cases e with
  | SeedCompedWallet schema event_id tenant_id amount => exact absurd rfl (other _ _ _ _)
  | Reserve schema tenant_id operation_id reservation_id cost balance_after payload_hash created_at_unix =>
    simp only [CreditMeterStore.apply]
    split_ifs <;> rfl
  | Spend schema tenant_id operation_id reservation_id spend_receipt =>
    simp only [CreditMeterStore.apply]
    split
    · split_ifs <;> rfl
    · rfl
  | Void schema tenant_id operation_id reservation_id reason =>
    simp only [CreditMeterStore.apply]
    split
    · split_ifs <;> rfl
    · rfl

/-- The seeds of a run: the first amount given under each tenant and event id. -/
def noteSeed (seeds : Entries (String × String) Nat) : Op → Entries (String × String) Nat
  | .seed tenant_id amount event_id =>
    if (seeds.get (tenant_id, event_id)).isSome then seeds else seeds.put (tenant_id, event_id) amount
  | _ => seeds

/-- The tenant a call is made for. -/
def callerOf : Op → Option String
  | .seed tenant_id _ _ => some tenant_id
  | .reserve tenant_id _ _ _ _ => some tenant_id
  | .spend tenant_id _ _ => some tenant_id
  | .void tenant_id _ _ => some tenant_id
  | .reopen _ _ => none

/-- The one event with which a call is answered, if it changes anything. -/
structure Answered (m : CreditMeter) (op : Op) (e : CreditMeterEvent) : Prop where
  due : Due m.store e
  elsewhere : ∀ t, callerOf op ≠ some t → Elsewhere m.store t e
  noted : (m.store.apply e).seed_events = noteSeed m.store.seed_events op

theorem step_cases (hashHex : String → String) (m : CreditMeter) (call : ∀ ttl now, op ≠ .reopen ttl now) :
    (step hashHex m op = m ∧ noteSeed m.store.seed_events op = m.store.seed_events) ∨
      ∃ e, step hashHex m op = m.append_and_apply e ∧ Answered m op e := by
  cases op with
  | seed tenant_id amount event_id =>
    rcases seed_cases m tenant_id amount event_id with ⟨known, same⟩ | ⟨fresh, same⟩
    · exact .inl ⟨same, if_pos known⟩
    · refine .inr ⟨_, same, ⟨fresh, fun t other own => other (congrArg some own), ?_⟩⟩
      simp [CreditMeterStore.apply, noteSeed, fresh, onWallet]
  | reserve tenant_id operation_id cost payload_hash now =>
    rcases reserve_cases hashHex m tenant_id operation_id cost payload_hash now with same | ⟨_, _, _, _, _, due, same⟩
    · exact .inl ⟨same, rfl⟩
    · exact .inr ⟨_, same, ⟨due, fun t other own => other (congrArg some own), seed_events_apply _ (by simp)⟩⟩
  | spend tenant_id reservation_id spend_receipt =>
    rcases spend_cases m tenant_id reservation_id spend_receipt with same | ⟨r, found, live, _, same⟩
    · exact .inl ⟨same, rfl⟩
    · exact .inr ⟨_, same, ⟨⟨r, found, live⟩, fun _ _ => trivial, seed_events_apply _ (by simp)⟩⟩
  | void tenant_id reservation_id reason =>
    rcases void_cases m tenant_id reservation_id reason with same | ⟨r, found, rfl, same⟩
    · exact .inl ⟨same, rfl⟩
    · refine .inr ⟨_, same, ⟨trivial, fun t other r' found' own => ?_, seed_events_apply _ (by simp)⟩⟩
      rw [found] at found'
      cases found'
      exact other (congrArg some own)
  | reopen reservation_ttl_secs now => exact absurd rfl (call _ _)

def seedsOf (ops : List Op) : Entries (String × String) Nat := ops.foldl noteSeed []

/-- The store is what its journal replays to, and the seeds are those given. -/
structure Kept (m : CreditMeter) (seeds : Entries (String × String) Nat) : Prop where
  sound : Sound m.store
  replays : m.store = CreditMeterStore.replay m.journal
  seeds : m.store.seed_events = seeds

variable {m : CreditMeter}

theorem Kept.append (h : Kept m seeds) (due : Due m.store e) (noted : (m.store.apply e).seed_events = seeds') :
    Kept (m.append_and_apply e) seeds' where
  sound := h.sound.apply due
  replays := by
    change m.store.apply e = (m.journal ++ [e]).foldl CreditMeterStore.apply {}
    rw [foldl_append, h.replays]
    rfl
  seeds := noted

theorem Kept.voidStale (h : Kept m seeds) (stale : List ReservationState) : Kept (stale.foldl CreditMeter.voidStale m) seeds := by
  induction stale generalizing m with
  | nil => exact h
  | cons r rest ih =>
    apply ih
    exact h.append (e := .Void SCHEMA_V1 r.tenant_id r.operation_id r.reservation_id STALE_RESERVATION_GC_REASON) trivial
      ((seed_events_apply _ (by simp)).trans h.seeds)

theorem Kept.step (hashHex : String → String) (h : Kept m seeds) (op : Op) : Kept (step hashHex m op) (noteSeed seeds op) := by
  have answer : (∀ ttl now, op ≠ .reopen ttl now) → Kept (CreditMeter.step hashHex m op) (noteSeed seeds op) := by
    intro call
    rw [← h.seeds]
    rcases step_cases hashHex m call with ⟨same, noted⟩ | ⟨e, same, answered⟩
    · rw [same, noted, h.seeds]
      exact h
    · rw [same]
      exact h.append answered.due answered.noted
  cases op with
  | reopen reservation_ttl_secs now =>
    change Kept (open_with_reservation_ttl m.journal reservation_ttl_secs now) seeds
    rw [open_with_reservation_ttl, ← h.replays]
    exact h.voidStale _
  | _ => exact answer (by simp)

theorem kept_run (hashHex : String → String) (ops : List Op) : Kept (run hashHex {} ops) (seedsOf ops) := by
  suffices general : ∀ m seeds, Kept m seeds → Kept (run hashHex m ops) (ops.foldl noteSeed seeds) from
    general {} [] ⟨sound_empty, rfl, rfl⟩
  induction ops with
  | nil => exact fun m seeds h => h
  | cons op ops ih => exact fun m seeds h => ih _ _ (h.step hashHex op)

theorem available_of_wallet {s' : CreditMeterStore} {t : String} (h : s'.wallet t = s.wallet t) :
    s'.available_balance t = s.available_balance t := by
  rw [available_balance, available_balance, h]

theorem spend_keeps_balance (m : CreditMeter) (tenant_id reservation_id spend_receipt t : String) :
    (m.spend tenant_id reservation_id spend_receipt).1.store.available_balance t = m.store.available_balance t := by
  rcases spend_cases m tenant_id reservation_id spend_receipt with same | ⟨r, _, _, _, same⟩
  · rw [same]
  · rw [same]
    exact available_of_wallet (wallet_apply_elsewhere trivial)

theorem step_keeps_others (hashHex : String → String) (m : CreditMeter) (caller : callerOf op = some tenant_id)
    (other : tenant_id ≠ t) :
    (step hashHex m op).store.available_balance t = m.store.available_balance t := by
  have call : ∀ ttl now, op ≠ .reopen ttl now := by
    rintro _ _ rfl
    cases caller
  rcases step_cases hashHex m call with ⟨same, _⟩ | ⟨e, same, answered⟩
  · rw [same]
  · rw [same]
    exact available_of_wallet (wallet_apply_elsewhere (answered.elsewhere t (by simpa [caller] using other)))

theorem reserve_again (hashHex : String → String) (h : Sound m.store)
    (here : r ∈ m.store.reservations) (live : r.voided_reason = none) (cost : Nat) (payload_hash : String) (now : Nat) :
    (m.reserve hashHex r.tenant_id r.operation_id cost payload_hash now).1 = m := by
  rcases reserve_cases hashHex m r.tenant_id r.operation_id cost payload_hash now with same | ⟨none_open, _⟩
  · exact same
  · exact absurd live (h.voided_of_none none_open here rfl rfl)

theorem one_open_reservation (h : Sound s) (here : r ∈ s.reservations) (here' : r' ∈ s.reservations)
    (live : r.voided_reason = none) (live' : r'.voided_reason = none) (tenant : r.tenant_id = r'.tenant_id)
    (operation : r.operation_id = r'.operation_id) : r = r' := by
  have pointer := h.pointer r here live
  rw [tenant, operation, h.pointer r' here' live', Option.some.injEq] at pointer
  exact inj_on_of_nodup_map h.ids here here' pointer.symm

/-- After every run: the available balance is what was seeded less what is held, as long as the seeds fit; an operation
has at most one reservation that is not voided, and what is spent is not voided; a second request for an operation and
every spend leave the balances alone; and so do all calls for other tenants. -/
theorem credits_conserved (hashHex : String → String) (ops : List Op) :
    (∀ t, seedTotal (seedsOf ops) t < 2 ^ 64 →
        heldTotal (run hashHex {} ops).store.reservations t ≤ seedTotal (seedsOf ops) t ∧
          (run hashHex {} ops).store.available_balance t =
            seedTotal (seedsOf ops) t - heldTotal (run hashHex {} ops).store.reservations t) ∧
      (∀ r ∈ (run hashHex {} ops).store.reservations, ∀ r' ∈ (run hashHex {} ops).store.reservations,
        r.voided_reason = none → r'.voided_reason = none → r.tenant_id = r'.tenant_id → r.operation_id = r'.operation_id →
          r = r') ∧
      (∀ r ∈ (run hashHex {} ops).store.reservations, r.spent_receipt.isSome = true → r.voided_reason = none) ∧
      (∀ r ∈ (run hashHex {} ops).store.reservations, r.voided_reason = none → ∀ cost payload_hash now,
        ((run hashHex {} ops).reserve hashHex r.tenant_id r.operation_id cost payload_hash now).1 = run hashHex {} ops) ∧
      (∀ tenant_id reservation_id spend_receipt t,
        ((run hashHex {} ops).spend tenant_id reservation_id spend_receipt).1.store.available_balance t =
          (run hashHex {} ops).store.available_balance t) ∧
      ∀ op tenant_id t, callerOf op = some tenant_id → tenant_id ≠ t →
        (step hashHex (run hashHex {} ops) op).store.available_balance t = (run hashHex {} ops).store.available_balance t := by
  have kept := kept_run hashHex ops
  have sound := kept.sound
  refine ⟨?_, ?_, sound.settled, ?_, spend_keeps_balance _, fun op _ _ => step_keeps_others hashHex _⟩
  · intro t fits
    have funds := sound.funds t
    rw [kept.seeds] at funds
    have balance := funds.balance
    have reserved := funds.reserved
    have covered := funds.covered
    have filled : min (seedTotal (seedsOf ops) t) U64_MAX = seedTotal (seedsOf ops) t := by
      unfold U64_MAX
      omega
    rw [filled] at balance
    refine ⟨by omega, ?_⟩
    rw [available_balance]
    omega
  · exact fun r here r' here' live live' => one_open_reservation sound here here' live live'
  · exact fun r here live => reserve_again hashHex sound here live

/-- A purchase, its repetition, its spending and a purchase that is given up. -/
def samplePurchases : List Op :=
  [.seed "acme" 10 "welcome", .reserve "acme" "first" 3 "p" 5, .reserve "acme" "first" 3 "p" 6, .seed "acme" 10 "welcome",
    .reserve "acme" "second" 4 "q" 7, .void "acme" "crxres_acme\nsecond\n4\nq\n0" "late", .reopen 60 8]

theorem credits_conserved_sample :
    seedTotal (seedsOf samplePurchases) "acme" = 10 ∧
      heldTotal (run id {} samplePurchases).store.reservations "acme" ≤ seedTotal (seedsOf samplePurchases) "acme" ∧
        (run id {} samplePurchases).store.available_balance "acme" =
          seedTotal (seedsOf samplePurchases) "acme" - heldTotal (run id {} samplePurchases).store.reservations "acme" :=
  ⟨by decide, (credits_conserved id samplePurchases).1 "acme" (by decide)⟩

example : (run id {} samplePurchases).store.available_balance "acme" = 7 := by decide +kernel

end Crux.Billing
