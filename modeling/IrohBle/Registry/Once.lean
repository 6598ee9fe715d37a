import IrohBle.Registry.Generation
import IrohBle.Registry.Moved

/-! # Registry.Once: a command runs one function on an entry

Every command but `VerifiedEndpoint` runs at most one function on each entry it finds
(`handle_entry`), and the orders that function gives are among those of the command.
-/

namespace IrohBle

open Lib Reliable Registry

/-- A move only adds orders. -/
theorem Moved.orders_subset {cmd : PeerCommand} {w w' : Edit} (h : Moved cmd w w') :
    w.orders ⊆ w'.orders := by
  have happend : ∀ {l}, w'.orders = w.orders ++ l → w.orders ⊆ w'.orders := by
    intro l hl
    rw [hl]
    exact List.subset_append_left _ _
  cases h with
  | same _ _ _ orders => exact orders ▸ List.Subset.refl _
  | idle _ _ _ _ orders => exact orders ▸ List.Subset.refl _
  | settle _ _ _ _ _ orders => exact orders ▸ List.Subset.refl _
  | upgrade _ _ _ _ _ orders => exact happend orders
  | dial _ _ _ orders => exact happend orders
  | redial _ _ _ orders => exact happend orders
  | accept _ _ _ _ orders => exact happend orders
  | acceptUpgrade _ _ _ _ orders => exact happend orders
  | overtake _ _ _ _ orders => exact happend orders
  | restart _ _ orders => exact happend orders
  | ends _ _ _ _ _ _ _ _ orders => exact happend orders
  | shutdown _ _ _ orders => exact happend orders

namespace Turn

variable {io : Io} {cmd : PeerCommand} {t t' : Turn} {d : DeviceId} {e : PeerEntry}

/-- What a turn has ordered from the lanes so far. -/
def orders (t : Turn) : List PeerAction := t.actions.filter PeerAction.isOrder

/-- A step of a command takes back no order. -/
theorem orders_step (hset : t.reg.Settled) (h : Step io cmd t t') : t.orders ⊆ t'.orders := by
  cases h with
  | @edit d e f he hf =>
      have hmoved : Moved cmd (t.focus e) (f (t.focus e)) :=
        hf.moved (w := t.focus e) (hset d e he).shaking
      exact hmoved.orders_subset
  | insert _ _ => exact List.Subset.refl _
  | @fresh d f hd hf =>
      have he := peer_insertNew_self t d
      rw [edit_of_some he]
      have horders : ∀ w : Edit, w.orders ⊆ (f w).orders := by
        intro w
        cases hf with
        | fragment => simp [Edit.inboundGattFragmentFresh]
        | inboundL2capChannel => simp [Edit.inboundL2capChannelFresh]
      exact horders ((t.insertNew d).focus (newEntry t.reg.nextLifecycle d))
  | gcDead _ => exact List.Subset.refl _
  | verify p endpoint => exact List.Subset.refl _
  | prune => exact List.Subset.refl _
  | adapter state => exact List.Subset.refl _
  | restore b =>
      intro a ha
      simpa [orders, push, PeerAction.isOrder] using ha

theorem orders_steps (hset : t.reg.Settled) (h : Steps io cmd t t') :
    t'.reg.Settled ∧ t.orders ⊆ t'.orders := by
  induction h with
  | refl => exact ⟨hset, List.Subset.refl _⟩
  | tail _ hs ih => exact ⟨ih.1.step hs, List.Subset.trans ih.2 (orders_step ih.1 hs)⟩

/-- At `t'` the entry is still `e`, or one function of the command has run on it and the
orders it gave are among those of `t'`. -/
def Once (io : Io) (cmd : PeerCommand) (d : DeviceId) (e : PeerEntry) (t' : Turn) : Prop :=
  ∀ e', t'.reg.peer d = some e' → e' = e ∨
    ∃ f w, Edit.entry w = e ∧ Touch io cmd d e f ∧ e' = (f w).entry ∧ (f w).orders ⊆ t'.orders

theorem Once.of_peer (h : t'.reg.peer d = some e) : Once io cmd d e t' := by
  intro e' he'
  exact Or.inl (Option.some.inj (he'.symm.trans h))

/-- Bookkeeping afterwards changes nothing. -/
theorem Once.of_sub (h : Once io cmd d e t)
    (hpeer : ∀ e', t'.reg.peer d = some e' → t.reg.peer d = some e')
    (horders : t'.orders = t.orders) : Once io cmd d e t' := by
  intro e' he'
  rw [horders]
  exact h e' (hpeer e' he')

/-- Giving an identity back is bookkeeping. -/
theorem Once.restoreVerified (h : Once io cmd d e t) (p : KeyPrefix)
    (resurrected : Option EndpointId) : Once io cmd d e (t.restoreVerified p resurrected) := by
  unfold Turn.restoreVerified
  split
  · split
    · exact h.of_sub (fun e' he' => he') rfl
    · exact h
  · exact h

theorem Once.pruneIfGivenUp (h : Once io cmd d e t) (d₀ : DeviceId) (before : Option PeerEntry) :
    Once io cmd d e (t.pruneIfGivenUp d₀ before) := by
  unfold Turn.pruneIfGivenUp
  split
  · exact h.of_sub (fun e' he' => he') rfl
  · exact h

/-- An edit of this entry is the one function, an edit of another is none. -/
theorem Once.edit {d₀ : DeviceId} {f : Edit → Edit} (he : t.reg.peer d = some e)
    (hf : ∀ e, t.reg.peer d₀ = some e → Touch io cmd d₀ e f) : Once io cmd d e (t.edit d₀ f) := by
  by_cases hd : d = d₀
  · subst hd
    intro e' he'
    rw [edit_of_some he, peer_store he, if_pos rfl] at he'
    refine Or.inr ⟨f, t.focus e, rfl, hf e he, (Option.some.inj he').symm, ?_⟩
    rw [edit_of_some he]
    exact List.Subset.refl _
  · refine Once.of_peer ?_
    rw [peer_edit_ne hd]
    exact he

/-- A walk that does not come by keeps the entry. -/
theorem peer_foldl_ne {α : Type} (dev : α → DeviceId) (f : α → Edit → Edit) (xs : List α)
    (hd : d ∉ xs.map dev) :
    (xs.foldl (fun t x => t.edit (dev x) (f x)) t).reg.peer d = t.reg.peer d := by
  induction xs generalizing t with
  | nil => rfl
  | cons x xs ih =>
      rw [List.map_cons, List.mem_cons, not_or] at hd
      rw [List.foldl_cons, ih hd.2, peer_edit_ne hd.1]

/-- The loop of a tick does not come to an entry for which there is nothing to decide. -/
theorem peer_tickLoop {tickNow : ℕ} (he : t.reg.peer d = some e)
    (hnone : Edit.tickDecision io tickNow e = none) :
    ((t.reg.peers.entries.filterMap fun x =>
      (Edit.tickDecision io tickNow x.2).map fun a => (x.1, a)).foldl
        (fun t x => t.edit x.1 (Edit.tickApply tickNow io.systemNow x.2)) t).reg.peer d = some e := by
  have hnot : d ∉ (t.reg.peers.entries.filterMap fun x =>
      (Edit.tickDecision io tickNow x.2).map fun a => (x.1, a)).map Prod.fst := by
    intro hmem
    rcases List.mem_map.mp hmem with ⟨x, hx, rfl⟩
    rcases List.mem_filterMap.mp hx with ⟨⟨d', e'⟩, hent, hdec⟩
    rcases Option.map_eq_some_iff.mp hdec with ⟨a, ha, rfl⟩
    obtain rfl : e' = e := Option.some.inj ((peer_of_mem_entries hent).symm.trans he)
    rw [hnone] at ha
    cases ha
  rw [peer_foldl_ne Prod.fst (fun x => Edit.tickApply tickNow io.systemNow x.2) _ hnot]
  exact he

/-- A loop over distinct entries runs its function on each of them. -/
theorem peer_foldl_mem {α : Type} (dev : α → DeviceId) (f : α → Edit → Edit) (xs : List α)
    (hset : t.reg.Settled) (hnodup : (xs.map dev).Nodup)
    (hf : ∀ x ∈ xs, ∀ e, t.reg.peer (dev x) = some e → Touch io cmd (dev x) e (f x)) {x : α}
    (hx : x ∈ xs) (he : t.reg.peer (dev x) = some e) :
    ∃ w, Edit.entry w = e ∧
      (xs.foldl (fun t x => t.edit (dev x) (f x)) t).reg.peer (dev x) = some (f x w).entry ∧
      (f x w).orders ⊆ (xs.foldl (fun t x => t.edit (dev x) (f x)) t).orders := by
  induction xs generalizing t with
  | nil => cases hx
  | cons y ys ih =>
      rw [List.map_cons, List.nodup_cons] at hnodup
      have hrest : ∀ z ∈ ys, ∀ e, (t.edit (dev y) (f y)).reg.peer (dev z) = some e →
          Touch io cmd (dev z) e (f z) := by
        intro z hz e he
        have hne : dev z ≠ dev y := by
          intro heq
          exact hnodup.1 (heq ▸ List.mem_map_of_mem hz)
        rw [peer_edit_ne hne] at he
        exact hf z (List.mem_cons_of_mem _ hz) e he
      have hset' : (t.edit (dev y) (f y)).reg.Settled :=
        (orders_steps hset (Steps.edit (hf y List.mem_cons_self))).1
      rw [List.foldl_cons]
      rcases List.mem_cons.mp hx with rfl | hmem
      · -- the entry's turn: nothing after it touches the entry
        refine ⟨t.focus e, rfl, ?_, ?_⟩
        · rw [peer_foldl_ne dev f ys hnodup.1, edit_of_some he, peer_store he, if_pos rfl]
        · have hsub := (orders_steps hset' (Steps.foldl dev f ys hnodup.2 hrest)).2
          rw [edit_of_some he] at hsub ⊢
          exact hsub
      · refine ih hset' hnodup.2 hrest hmem ?_
        rw [peer_edit_ne]
        · exact he
        · intro heq
          exact hnodup.1 (heq ▸ List.mem_map_of_mem hmem)

/-- A walk over different devices comes by once at most. -/
theorem Once.foldl {α : Type} (dev : α → DeviceId) (f : α → Edit → Edit) (xs : List α)
    (hset : t.reg.Settled) (hnodup : (xs.map dev).Nodup)
    (hf : ∀ x ∈ xs, ∀ e, t.reg.peer (dev x) = some e → Touch io cmd (dev x) e (f x))
    (he : t.reg.peer d = some e) :
    Once io cmd d e (xs.foldl (fun t x => t.edit (dev x) (f x)) t) := by
  by_cases hd : d ∈ xs.map dev
  · obtain ⟨x, hx, rfl⟩ := List.mem_map.mp hd
    obtain ⟨w, hw, hpeer, horders⟩ := peer_foldl_mem dev f xs hset hnodup hf hx he
    intro e' he'
    exact .inr ⟨f x, w, hw, hf x hx e he, Option.some.inj (he'.symm.trans hpeer), horders⟩
  · apply Once.of_peer
    rw [peer_foldl_ne dev f xs hd]
    exact he

theorem Once.editAll {ds : List DeviceId} {f : Edit → Edit} (hset : t.reg.Settled)
    (hnodup : ds.Nodup) (hf : ∀ d ∈ ds, ∀ e, t.reg.peer d = some e → Touch io cmd d e f)
    (he : t.reg.peer d = some e) : Once io cmd d e (t.editAll ds f) := by
  refine Once.foldl id (fun _ => f) ds hset ?_ hf he
  rw [List.map_id]
  exact hnodup

/-- An entry that is there is not made again. -/
theorem peer_ensure (he : t.reg.peer d = some e) (d₀ : DeviceId) :
    (t.ensure d₀).reg.peer d = some e := by
  cases hd₀ : t.reg.peer d₀ with
  | none =>
      rw [ensure_of_none hd₀, peer_insertNew, if_neg]
      · exact he
      · rintro rfl
        rw [hd₀] at he
        cases he
  | some e₀ =>
      rw [ensure_of_some hd₀]
      exact he

end Turn

namespace Registry

open Turn

/-- Every command but `VerifiedEndpoint` runs at most one function on an entry. -/
theorem handle_entry {r : Registry} {io : Io} {cmd : PeerCommand} {d : DeviceId} {e : PeerEntry}
    (hset : r.Settled) (hcmd : ∀ endpoint token, cmd ≠ .verifiedEndpoint endpoint token)
    (he : r.peer d = some e) : Once io cmd d e (r.handle io cmd) := by
  have hstart : (start r).reg.peer d = some e := he
  cases cmd with
  | verifiedEndpoint endpoint token => exact absurd rfl (hcmd endpoint token)
  | centralConnected d₀ => exact .of_peer he
  | advertised p d₀ rssi =>
      change Once _ _ _ _ (Turn.handleAdvertised io p d₀ _)
      unfold handleAdvertised
      dsimp only
      split
      · exact Once.edit hstart fun e _ => .advertisedSuppressed
      · exact (Once.edit (peer_ensure hstart d₀) fun e _ => .advertised).restoreVerified p _
  | centralDisconnected d₀ cause =>
      exact (Once.edit hstart fun e _ => .centralDisconnected).pruneIfGivenUp d₀ _
  | connectFailed d₀ l error =>
      exact (Once.edit hstart fun e _ => .connectFailed).pruneIfGivenUp d₀ _
  | inboundGattFragment d₀ source bytes =>
      cases hd₀ : r.peer d₀ with
      | none =>
          -- the fragment's device is another one, and its entry is new
          refine Once.of_peer ?_
          have hne : d ≠ d₀ := by
            rintro rfl
            rw [hd₀] at he
            cases he
          rw [handle_fragment_of_none hd₀, peer_edit_ne hne]
          exact peer_ensure hstart d₀
      | some e₀ =>
          rw [handle_fragment_of_some hd₀]
          exact Once.edit hstart fun e _ => .fragment
  | inboundL2capChannel d₀ channel =>
      cases hd₀ : r.peer d₀ with
      | none =>
          refine Once.of_peer ?_
          have hne : d ≠ d₀ := by
            rintro rfl
            rw [hd₀] at he
            cases he
          rw [handle_l2cap_of_none hd₀, peer_edit_ne hne]
          exact peer_ensure hstart d₀
      | some e₀ =>
          rw [handle_l2cap_of_some hd₀]
          exact Once.edit hstart fun e _ => .inboundL2capChannel
  | adapterStateChanged powered =>
      change Once _ _ _ _ (Turn.handleAdapterStateChanged io powered _)
      unfold handleAdapterStateChanged
      cases powered with
      | true =>
          -- the walk sets the phases, and the orders come after it
          have hloop : Once io (.adapterStateChanged true) d e
              (((start r).setAdapterState .poweredOn).editAll r.peers.keys
                (Edit.adapterOn io.now)) :=
            Once.editAll (t := (start r).setAdapterState .poweredOn) hset (AList.keys_nodup r.peers)
              (fun d _ e _ => Touch.adapterOn) he
          refine hloop.of_sub (fun e' he' => he') ?_
          simp only [if_true, orders, push, List.filter_append]
          exact (List.append_nil _).trans (List.append_nil _)
      | false =>
          exact Once.editAll (t := (start r).setAdapterState .poweredOff) hset
            (AList.keys_nodup r.peers) (fun d _ e _ => Touch.adapterOff) he
  | sendDatagram d₀ target txGen datagram waker =>
      exact Once.edit (peer_ensure hstart d₀) fun e _ => .sendDatagram
  | tick tickNow =>
      -- the decisions are for different devices, so each entry is edited once at most
      have hloop := Once.foldl Prod.fst (fun x => Edit.tickApply tickNow io.systemNow x.2) _
        (t := start r) hset (tickDecisions_nodup io tickNow (start r))
        (tickDecisions_touch io tickNow (start r)) hstart
      exact hloop.of_sub (fun e' he' => peer_gcDead he') rfl
  | connectSucceeded d₀ l channel =>
      exact Once.edit hstart fun e _ => .connectSucceeded (failed_of_wantsUpgrade _ d₀)
  | openL2capSucceeded d₀ l u channel => exact Once.edit hstart fun e _ => .openL2capSucceeded
  | openL2capFailed d₀ l u error => exact Once.edit hstart fun e _ => .openL2capFailed
  | protocolVersionMismatch d₀ l got want =>
      change Once _ _ _ _ (Turn.handleProtocolVersionMismatch io d₀ l got want _)
      unfold handleProtocolVersionMismatch
      split
      · exact .of_peer he
      · split
        · exact .of_peer he
        · exact Once.of_sub (Once.edit hstart fun e _ => .protocolVersionMismatch)
            (fun e' he' => he') rfl
  | stalled d₀ cause => exact Once.edit hstart fun e _ => .stalled
  | forget d₀ =>
      change Once _ _ _ _ (Turn.handleForget io d₀ _)
      unfold handleForget
      split
      · exact .of_peer he
      · exact Once.of_sub (Once.edit hstart fun e _ => .forget) (fun e' he' => he') rfl
  | dataPipeReady d₀ txGen handles => exact Once.edit hstart fun e _ => .dataPipeReady
  | peripheralClientSubscribed d₀ c p =>
      exact Once.edit (peer_ensure hstart d₀) fun e _ => .subscribed
  | peripheralClientUnsubscribed d₀ c =>
      change Once _ _ _ _ (Turn.handlePeripheralClientUnsubscribed io d₀ c _)
      unfold handlePeripheralClientUnsubscribed
      split
      · exact .of_peer he
      · dsimp only
        split
        · exact Once.edit hstart fun e _ => .unsubscribed
        · exact Once.of_sub (Once.edit hstart fun e _ => .unsubscribed) (fun e' he' => he') rfl
  | l2capHandoverTimeout d₀ => exact Once.edit hstart fun e _ => .handoverTimeout
  | shutdown =>
      exact Once.editAll hset (AList.keys_nodup r.peers) (fun d _ e _ => Touch.shutdown) he

/-- A tick does what it has decided for an entry, and does not collect it if it is alive after
that. -/
theorem peer_handle_tick {r : Registry} {io : Io} {tickNow : ℕ} {d : DeviceId} {e : PeerEntry}
    {action : Edit.TickAction} (hset : r.Settled) (he : r.peer d = some e)
    (hdecide : Edit.tickDecision io tickNow e = some action)
    (halive : ∀ w : Edit, w.entry = e →
      (w.tickApply tickNow io.systemNow action).entry.phase.isDead = false) :
    ∃ w : Edit, w.entry = e ∧
      (r.handle io (.tick tickNow)).reg.peer d =
        some (w.tickApply tickNow io.systemNow action).entry ∧
      (w.tickApply tickNow io.systemNow action).orders ⊆ (r.handle io (.tick tickNow)).orders := by
  have hmem : (d, action) ∈ r.peers.entries.filterMap fun x =>
      (Edit.tickDecision io tickNow x.2).map fun a => (x.1, a) := by
    refine List.mem_filterMap.mpr ⟨⟨d, e⟩, (Map.mem_entries_iff _ _ _).mpr he, ?_⟩
    rw [hdecide]
    rfl
  obtain ⟨w, hw, hpeer, horders⟩ := peer_foldl_mem (t := start r) Prod.fst
    (fun x => Edit.tickApply tickNow io.systemNow x.2) _ hset
    (tickDecisions_nodup io tickNow (start r)) (tickDecisions_touch io tickNow (start r)) hmem he
  refine ⟨w, hw, ?_, horders⟩
  refine (Map.lookup_retain _ _ _ _).mpr ⟨hpeer, ?_⟩
  have hlive := halive w hw
  generalize (w.tickApply tickNow io.systemNow action).entry = e' at hlive ⊢
  cases hp : e'.phase with
  | dead reason diedAt =>
      rw [hp] at hlive
      cases hlive
  | _ => rfl

/-- The entry that a send is for, inserted if it is not there. -/
theorem peer_handle_sendDatagram (r : Registry) (io : Io) (d : DeviceId)
    (target : Option EndpointId) (txGen : ℕ) (datagram : Bytes) (waker : Waker) :
    ∃ w : Edit, w.entry = (r.peer d).getD (newEntry r.nextLifecycle d) ∧
      (r.handle io (.sendDatagram d target txGen datagram waker)).reg.peer d =
        some (w.sendDatagram io target ⟨txGen, datagram, waker⟩).entry := by
  change ∃ w : Edit, _ ∧
    (Turn.handleSendDatagram io d target ⟨txGen, datagram, waker⟩ (start r)).reg.peer d = _
  unfold handleSendDatagram
  cases he : r.peer d with
  | none =>
      have hnew := peer_insertNew_self (start r) d
      rw [ensure_of_none (t := start r) he, edit_of_some hnew, peer_store hnew, if_pos rfl]
      exact ⟨_, rfl, rfl⟩
  | some e =>
      have hstart : (start r).reg.peer d = some e := he
      rw [ensure_of_some hstart, edit_of_some hstart, peer_store hstart, if_pos rfl]
      exact ⟨_, rfl, rfl⟩

end Registry

end IrohBle
