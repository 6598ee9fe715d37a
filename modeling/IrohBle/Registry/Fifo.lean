import IrohBle.Registry.Answered
import IrohBle.Registry.Outbound

/-! # Registry.Fifo: datagrams reach a pipe in the order in which they were handled

The registry and the outbound channel of one generation, with the pipe task at its other end.
The task may work between two commands and between any two `try_send`s of a handler; a label
fixes what it does there.

* `in_order`: as long as the task frees no slot between the attempt at which a flush stops and
  the attempt of the new datagram, the datagrams are put into the channel in the order of
  their commands.
* `overtaken`: if it frees one there, the new datagram goes out before the older ones.
-/

namespace IrohBle

open Lib Reliable Registry

/-! ## The system -/

/-- A generation of a device, and the channel the driver created for it. -/
structure Outlet where
  device : DeviceId
  txGen : ℕ
  tx : Sender

/-- The driver hands a channel over with the device and generation it created it for. -/
def Outlet.permits (o : Outlet) : PeerCommand → Bool
  | .dataPipeReady d g handles =>
    decide (handles.outboundTx = o.tx → d = o.device ∧ g = o.txGen)
  | _ => true

/-- The send a command asks for, if it is one for `d`. -/
def PeerCommand.sendsTo (d : DeviceId) : PeerCommand → List PendingSend
  | .sendDatagram d' _ txGen datagram waker => if d' = d then [⟨txGen, datagram, waker⟩] else []
  | _ => []

/-- The commands that bring datagrams. -/
def PeerCommand.isSendDatagram : PeerCommand → Bool
  | .sendDatagram .. => true
  | _ => false

/-- The registry and one outbound channel. -/
structure Feed where
  reg : Registry
  channel : Outbound := {}
  /-- The `SendDatagram`s of the device, as handled. -/
  handled : List PendingSend := []

namespace Feed

/-- The tasks take turns: the registry by commands, the pipe task in between and during them. -/
inductive Label where
  | reorder (ks : List DeviceId)
  /-- The registry handles a command; `during` is what the pipe task does before each attempt. -/
  | command (io : Io) (cmd : PeerCommand) (during : List Progress)
  /-- The pipe task between two commands. -/
  | pipe (p : Progress)

/-- What a handler's attempts find in the channel is what the channel says. -/
def step (o : Outlet) : Label → Feed → Option Feed
  | .reorder ks, s => (Registry.step (.reorder ks) s.reg).map fun reg => { s with reg := reg }
  | .command io cmd during, s =>
    if o.permits cmd then
      (s.channel.replay o.tx (s.reg.handle io cmd).tried during).map fun channel =>
        { reg := (s.reg.handle io cmd).reg
          channel := channel
          handled := s.handled ++ cmd.sendsTo o.device }
    else none
  | .pipe p, s => some { s with channel := s.channel.advance p }

/-- The channel begins empty, with a registry that has just been made. -/
def system (o : Outlet) : System Feed Label where
  Init s := ∃ policy endpoint, s = { reg := .new policy endpoint }
  step := step o

/-- While a `SendDatagram` is handled, the pipe task frees no slot between the attempt at which
the flush stops and that of the new datagram. -/
def NoSlotFreed (_ : Feed) : Label → Prop
  | .command io cmd during => cmd.isSendDatagram = true → NoneFreed io during
  | _ => True

instance (s : Feed) (l : Label) : Decidable (NoSlotFreed s l) :=
  match l with
  | .command _ _ _ => inferInstanceAs (Decidable (_ → _))
  | .reorder _ => isTrue trivial
  | .pipe _ => isTrue trivial

end Feed

/-! ## One command -/

/-- The sends queued for a device. -/
def Registry.queueOf (r : Registry) (d : DeviceId) : List PendingSend :=
  (r.peer d).elim [] PeerEntry.pendingSends

/-- Only entries of its own device hold the channel. -/
def Outlet.Mine (o : Outlet) (r : Registry) : Prop :=
  ∀ d e handles, r.peer d = some e → e.pipe = some handles → handles.outboundTx = o.tx → d = o.device

/-- The queue of a device is that of its entry. -/
theorem Registry.queueOf_some {r : Registry} {d : DeviceId} {e : PeerEntry}
    (he : r.peer d = some e) : r.queueOf d = e.pendingSends := by
  unfold queueOf
  rw [he]
  rfl

namespace Turn

variable {io : Io} {cmd : PeerCommand} {o : Outlet} {r : Registry} {t t' : Turn}

/-- Storing an entry changes the queue of its device. -/
theorem queueOf_store {d d' : DeviceId} {e : PeerEntry} (he : t.reg.peer d = some e) (w : Edit) :
    (t.store d w).reg.queueOf d' =
      if d' = d then w.entry.pendingSends else t.reg.queueOf d' := by
  unfold Registry.queueOf
  rw [peer_store he]
  split <;> rfl

/-- Handles on the channel are held by its device only. -/
theorem mine_store {d : DeviceId} {e : PeerEntry} {w : Edit} (hmine : o.Mine t.reg)
    (he : t.reg.peer d = some e)
    (hw : ∀ handles, w.entry.pipe = some handles → handles.outboundTx = o.tx → d = o.device) :
    o.Mine (t.store d w).reg := by
  intro d' e' handles he' hp htx
  rw [peer_store he] at he'
  split at he'
  · rename_i hd
    obtain rfl := Option.some.inj he'
    rw [hd]
    exact hw handles hp htx
  · exact hmine d' e' handles he' hp htx

/-- A function that keeps or drops the handles adds none. -/
theorem mine_store_kept {d : DeviceId} {e : PeerEntry} {w : Edit} (hmine : o.Mine t.reg)
    (he : t.reg.peer d = some e) (hw : w.entry.pipe = e.pipe ∨ w.entry.pipe = none) :
    o.Mine (t.store d w).reg := by
  refine mine_store hmine he ?_
  intro handles hp htx
  rcases hw with hw | hw
  · exact hmine d e handles he (hw.symm.trans hp) htx
  · rw [hw] at hp
    cases hp

/-- A fresh entry has nothing queued. -/
theorem queueOf_insertNew {d : DeviceId} (hd : t.reg.peer d = none) (d' : DeviceId) :
    (t.insertNew d).reg.queueOf d' = t.reg.queueOf d' := by
  unfold Registry.queueOf
  rw [peer_insertNew]
  split
  · rename_i heq
    rw [heq, hd]
    rfl
  · rfl

theorem mine_insertNew (hmine : o.Mine t.reg) (d : DeviceId) : o.Mine (t.insertNew d).reg := by
  intro d' e' handles he' hp htx
  rw [peer_insertNew] at he'
  split at he'
  · obtain rfl := Option.some.inj he'
    cases hp
  · exact hmine d' e' handles he' hp htx

/-- What a command that offers nothing does to an entry. -/
theorem Touch.narrows {d : DeviceId} {f : Edit → Edit} {w : Edit} (hf : Touch io cmd d w.entry f)
    (hcmd : cmd.offers = false) :
    ((f w).entry.pipe = w.entry.pipe ∨ (f w).entry.pipe = none) ∧
      (f w).tried.filter TrySend.isOutbound = w.tried.filter TrySend.isOutbound ∧
      (f w).entry.pendingSends.Sublist w.entry.pendingSends := by
  rcases hf.settles_or_clears hcmd with h | h
  · exact ⟨h.pipe, h.offered, h.queue_sublist⟩
  · refine ⟨h.pipe, h.offered, ?_⟩
    rw [h.of_cleared.1]
    exact List.nil_sublist _

/-- A command that offers nothing, up to some point: the queue of the device has at most become
shorter. -/
structure Narrowed (o : Outlet) (r : Registry) (t : Turn) : Prop where
  offered : t.tried.filter TrySend.isOutbound = []
  mine : o.Mine t.reg
  queue : (t.reg.queueOf o.device).Sublist (r.queueOf o.device)

/-- A function that takes from the queue and offers nothing. -/
theorem Narrowed.store (h : Narrowed o r t) {d : DeviceId} {e : PeerEntry} {w : Edit}
    (he : t.reg.peer d = some e) (hpipe : w.entry.pipe = e.pipe ∨ w.entry.pipe = none)
    (hoffered : w.tried.filter TrySend.isOutbound = t.tried.filter TrySend.isOutbound)
    (hqueue : w.entry.pendingSends.Sublist e.pendingSends) : Narrowed o r (t.store d w) where
  offered := hoffered.trans h.offered
  mine := mine_store_kept h.mine he hpipe
  queue := by
    rw [queueOf_store he]
    split
    · rename_i hd
      have hsub := h.queue
      rw [hd, queueOf_some he] at hsub
      rw [hd]
      exact hqueue.trans hsub
    · exact h.queue

/-- A fresh entry offers nothing either. -/
theorem Narrowed.insertNew (h : Narrowed o r t) {d : DeviceId} (hd : t.reg.peer d = none) :
    Narrowed o r (t.insertNew d) := by
  refine ⟨h.offered, mine_insertNew h.mine d, ?_⟩
  rw [queueOf_insertNew hd]
  exact h.queue

/-- One step of a command that offers nothing. -/
theorem Narrowed.step (h : Narrowed o r t) (hcmd : cmd.offers = false) (hs : Step io cmd t t') :
    Narrowed o r t' := by
  cases hs with
  | @edit d e f he hf =>
      obtain ⟨hpipe, hoffered, hqueue⟩ := Touch.narrows (w := t.focus e) hf hcmd
      exact h.store he hpipe hoffered hqueue
  | insert _ hd => exact h.insertNew hd
  | @fresh d f hd hf =>
      have he := peer_insertNew_self t d
      rw [edit_of_some he]
      have hw := hf.settles ((t.insertNew d).focus (newEntry t.reg.nextLifecycle d))
      exact (h.insertNew hd).store he hw.pipe hw.offered hw.queue_sublist
  | verify p endpoint => exact ⟨h.offered, h.mine, h.queue⟩
  | prune => exact ⟨h.offered, h.mine, h.queue⟩
  | @gcDead tickNow _ =>
      refine ⟨h.offered, fun d e handles he => h.mine d e handles (peer_gcDead he), ?_⟩
      refine List.Sublist.trans ?_ h.queue
      cases he : (t.gcDead tickNow).reg.peer o.device with
      | none =>
          unfold Registry.queueOf
          rw [he]
          exact List.nil_sublist _
      | some e => rw [queueOf_some he, queueOf_some (peer_gcDead he)]
  | adapter state => exact ⟨h.offered, h.mine, h.queue⟩
  | restore b => exact ⟨h.offered, h.mine, h.queue⟩

/-- All its steps. -/
theorem Narrowed.steps (h : Narrowed o r t) (hcmd : cmd.offers = false) (hs : Steps io cmd t t') :
    Narrowed o r t' := by
  induction hs with
  | refl => exact h
  | tail _ hstep ih => exact ih.step hcmd hstep

end Turn

/-! ## Runs -/

namespace Feed

open Turn

variable {o : Outlet}

/-- What was put into the channel and what is queued for it make up, in this order, part of what was
handled. -/
structure Inv (o : Outlet) (s : Feed) : Prop where
  mine : o.Mine s.reg
  order : (s.channel.put ++ s.reg.queueOf o.device).Sublist s.handled

section Command

variable {s : Feed} {io : Io} {during : List Progress} {channel : Outbound}

/-- A command that edits the entry of one device. -/
theorem Inv.edit {t : Turn} {d : DeviceId} {e : PeerEntry} {w : Edit} {handled : List PendingSend}
    (hmine : o.Mine (t.store d w).reg) (he : t.reg.peer d = some e)
    (horder : if d = o.device then (channel.put ++ w.entry.pendingSends).Sublist handled
      else (channel.put ++ t.reg.queueOf o.device).Sublist handled) :
    Inv o ⟨(t.store d w).reg, channel, handled⟩ := by
  refine ⟨hmine, ?_⟩
  change (channel.put ++ (t.store d w).reg.queueOf o.device).Sublist handled
  rw [queueOf_store he]
  by_cases hd : d = o.device
  · rw [if_pos hd.symm]
    rw [if_pos hd] at horder
    exact horder
  · rw [if_neg (Ne.symm hd)]
    rw [if_neg hd] at horder
    exact horder

/-- A datagram goes behind those that wait: into the channel after them, or to the end of the
queue. -/
theorem Inv.sendDatagram (hs : Inv o s) {d : DeviceId} {target : Option EndpointId} {g : ℕ}
    {datagram : Bytes} {waker : Waker}
    (hfree : NoneFreed io during)
    (hr : s.channel.replay o.tx (s.reg.handle io (.sendDatagram d target g datagram waker)).tried
      during = some channel) :
    Inv o ⟨(s.reg.handle io (.sendDatagram d target g datagram waker)).reg, channel,
      s.handled ++ PeerCommand.sendsTo o.device (.sendDatagram d target g datagram waker)⟩ := by
  have hensured : ∃ e, ((start s.reg).ensure d).reg.peer d = some e ∧
      ((start s.reg).ensure d).tried = [] ∧ o.Mine ((start s.reg).ensure d).reg ∧
      ∀ d', ((start s.reg).ensure d).reg.queueOf d' = s.reg.queueOf d' := by
    cases hd : s.reg.peer d with
    | none =>
        rw [ensure_of_none (t := start s.reg) hd]
        exact ⟨_, peer_insertNew_self _ d, rfl, mine_insertNew (t := start s.reg) hs.mine d,
          queueOf_insertNew (t := start s.reg) hd⟩
    | some e =>
        rw [ensure_of_some (t := start s.reg) hd]
        exact ⟨e, hd, rfl, hs.mine, fun _ => rfl⟩
  obtain ⟨e, he, htried, hmine, hqueue⟩ := hensured
  have hhandle : s.reg.handle io (.sendDatagram d target g datagram waker) =
      ((start s.reg).ensure d).store d
        ((((start s.reg).ensure d).focus e).sendDatagram io target ⟨g, datagram, waker⟩) :=
    edit_of_some he
  rw [hhandle] at hr ⊢
  -- from here on only the entry that was ensured matters
  generalize (start s.reg).ensure d = t at *
  refine Inv.edit (mine_store_kept hmine he (Edit.sendDatagram_pipe_or_none _ _ _ _)) he ?_
  have horder := hs.order
  rw [← hqueue] at horder
  split
  · rename_i hd
    rw [PeerCommand.sendsTo, if_pos hd]
    refine Outbound.replay_sendDatagram (w := t.focus e) htried hfree ?_ hr
    rw [← hd, queueOf_some he] at horder
    exact horder
  · rename_i hd
    rw [PeerCommand.sendsTo, if_neg hd, List.append_nil]
    -- the channel of this entry is another one
    have hother : ∀ x result, .outbound o.tx x result ∉
        ((t.focus e).sendDatagram io target ⟨g, datagram, waker⟩).tried := by
      intro x result hmem
      rcases Edit.sendDatagram_attempts hmem with hmem | ⟨pipe, hp, htx⟩
      · change _ ∈ t.tried at hmem
        rw [htried] at hmem
        cases hmem
      · exact hd (hmine d e pipe he hp htx.symm)
    rw [Outbound.replay_other hother hr]
    exact horder

/-- A pipe that becomes ready takes the queue from the front. -/
theorem Inv.dataPipeReady (hs : Inv o s) {d : DeviceId} {g : ℕ} {handles : PipeHandles}
    (hpermits : handles.outboundTx = o.tx → d = o.device)
    (hr : s.channel.replay o.tx (s.reg.handle io (.dataPipeReady d g handles)).tried during =
      some channel) :
    Inv o ⟨(s.reg.handle io (.dataPipeReady d g handles)).reg, channel, s.handled⟩ := by
  have hhandle : s.reg.handle io (.dataPipeReady d g handles) =
    (start s.reg).edit d (Edit.dataPipeReady io g handles) := rfl
  rw [hhandle] at hr ⊢
  cases he : s.reg.peer d with
  | none =>
      rw [edit_of_none (t := start s.reg) he] at hr ⊢
      obtain ⟨-, rfl⟩ := Outbound.replay_nil hr
      exact ⟨hs.mine, hs.order⟩
  | some e =>
      rw [edit_of_some (t := start s.reg) he] at hr ⊢
      refine Inv.edit (mine_store (t := start s.reg) hs.mine he ?_) he ?_
      · -- the entry has the new pipe, or the command is stale and nothing changes
        intro handles' hp htx
        by_cases hg : e.txGen = g
        · obtain ⟨_, _, hentry⟩ :=
            Edit.dataPipeReady_entry ((start s.reg).focus e) io g handles hg
          rw [hentry] at hp
          obtain rfl := Option.some.inj hp
          exact hpermits htx
        · have hstale : ((start s.reg).focus e).dataPipeReady io g handles = (start s.reg).focus e :=
            if_pos hg
          rw [hstale] at hp
          exact hs.mine d e handles' he hp htx
      · split
        · rename_i hd
          have horder := hs.order
          rw [← hd, queueOf_some he] at horder
          exact (Outbound.replay_dataPipeReady (w := (start s.reg).focus e) rfl hr).trans horder
        · rename_i hd
          -- a pipe of another device has another channel
          have hother : ∀ x result, .outbound o.tx x result ∉
              (((start s.reg).focus e).dataPipeReady io g handles).tried := by
            intro x result hmem
            rcases Edit.dataPipeReady_attempts hmem with hmem | htx
            · cases hmem
            · exact hd (hpermits htx.symm)
          rw [Outbound.replay_other hother hr]
          exact hs.order

/-- The other commands offer nothing to the channel. -/
theorem Inv.quiet (hs : Inv o s) {cmd : PeerCommand} (hcmd : cmd.offers = false)
    (hr : s.channel.replay o.tx (s.reg.handle io cmd).tried during = some channel) :
    Inv o ⟨(s.reg.handle io cmd).reg, channel, s.handled⟩ := by
  have hstart : Narrowed o s.reg (start s.reg) := ⟨rfl, hs.mine, List.Sublist.refl _⟩
  have hnarrowed := hstart.steps hcmd (handle_steps io cmd s.reg)
  have hother : ∀ x result, .outbound o.tx x result ∉ (s.reg.handle io cmd).tried := by
    intro x result hmem
    have hfilter : TrySend.outbound o.tx x result ∈
        (s.reg.handle io cmd).tried.filter TrySend.isOutbound :=
      List.mem_filter.mpr ⟨hmem, rfl⟩
    rw [hnarrowed.offered] at hfilter
    cases hfilter
  refine ⟨hnarrowed.mine, ?_⟩
  rw [Outbound.replay_other hother hr]
  exact (hnarrowed.queue.append_left _).trans hs.order

end Command

/-- The invariant over one step. -/
theorem inv_step {s s' : Feed} {l : Label} (hs : Inv o s) (hfree : NoSlotFreed s l)
    (hstep : (system o).step l s = some s') : Inv o s' := by
  cases l with
  | reorder ks =>
      obtain ⟨reg, hreg, rfl⟩ := Option.map_eq_some_iff.mp hstep
      refine ⟨?_, ?_⟩
      · intro d e handles he
        rw [peer_reorder hreg] at he
        exact hs.mine d e handles he
      · have horder := hs.order
        unfold Registry.queueOf at horder ⊢
        rw [peer_reorder hreg]
        exact horder
  | command io cmd during =>
      change (if o.permits cmd = true then _ else none) = some s' at hstep
      split at hstep
      · rename_i hpermits
        obtain ⟨channel, hr, rfl⟩ := Option.map_eq_some_iff.mp hstep
        by_cases hcmd : cmd.offers = false
        · have hnone : cmd.sendsTo o.device = [] := by
            cases cmd with
            | sendDatagram => cases hcmd
            | _ => rfl
          rw [hnone, List.append_nil]
          exact hs.quiet hcmd hr
        · cases cmd with
          | sendDatagram d target g datagram waker => exact hs.sendDatagram (hfree rfl) hr
          | dataPipeReady d g handles =>
              have hd : handles.outboundTx = o.tx → d = o.device :=
                fun htx => (of_decide_eq_true hpermits htx).1
              have hready := hs.dataPipeReady hd hr
              rw [← List.append_nil s.handled] at hready
              exact hready
          | _ => exact absurd rfl hcmd
      · cases hstep
  | pipe p =>
      obtain rfl := Option.some.inj hstep
      exact ⟨hs.mine, hs.order⟩

/-- As long as the pipe task frees no slot between the attempt at which a flush stops and the attempt
of the new datagram, the datagrams of a generation are put into its channel in the order of
their commands. -/
theorem in_order {h : List (Feed × Label)} {s : Feed} (hrun : (system o).Run h s)
    (hfree : System.Meets NoSlotFreed h) : s.channel.put.Sublist s.handled := by
  have hinv : Inv o s := by
    -- at the start nothing is queued and no entry holds a channel
    refine hrun.invariant ?_ (fun s l s' => inv_step) hfree
    rintro s ⟨policy, endpoint, rfl⟩
    refine ⟨?_, List.nil_sublist _⟩
    intro d e handles he
    cases he
  exact (List.sublist_append_left _ _).trans hinv.order

/-! ## A crowded channel -/

/-- The channel of the runs below. -/
def outlet : Outlet := ⟨"peer", 1, 1⟩

/-- The datagrams of the runs below. -/
def datagram (n : ℕ) : PendingSend := ⟨1, [UInt8.ofNat n], n⟩

/-- Datagram `n` is handled at time `n`. -/
def send (n : ℕ) (results : List TrySendResult) (during : List Progress) : Label :=
  .command ⟨n, n, fun _ => 0, fun k => results.getD k .ok⟩
    (.sendDatagram "peer" none 1 (datagram n).datagram n) during

/-- A peer shows up and 33 datagrams are queued for it. The pipe that is then ready takes 32 of
them, and the task has not started yet. -/
def crowd : List Label :=
  .command (ioAt 0) (.inboundGattFragment "peer" .peripheralReceivedC2p [1]) [] ::
    (List.range 33).map (send · [] []) ++
    [.command ⟨33, 33, fun _ => 0, fun k => if k < 33 then .ok else .full⟩
      (.dataPipeReady "peer" 1 ⟨1, 2, 3, 4⟩) (List.replicate 33 ⟨0, false⟩)]

theorem init_new : (system outlet).Init { reg := .new .disabled localEndpoint } :=
  ⟨.disabled, localEndpoint, rfl⟩

/-- The next datagram is turned away, and the one after it follows the last of the queue. -/
theorem in_order_crowd : ∃ h s, (system outlet).Run h s ∧
    h.map Prod.snd = crowd ++ [send 34 [.full, .full] [⟨0, false⟩, ⟨0, false⟩],
      send 35 [.ok, .ok] [⟨2, false⟩, ⟨0, false⟩]] ∧
    s.channel.put = (List.range 33).map datagram ++ [datagram 35] ∧
    s.channel.put.Sublist s.handled := by
  obtain ⟨h, s, hrun, hfree, hl, hput⟩ := System.Run.of_execMeets (C := NoSlotFreed)
    (P := fun s => s.channel.put = (List.range 33).map datagram ++ [datagram 35])
    (crowd ++ [send 34 [.full, .full] [⟨0, false⟩, ⟨0, false⟩],
      send 35 [.ok, .ok] [⟨2, false⟩, ⟨0, false⟩]]) init_new (by decide +kernel)
  exact ⟨h, s, hrun, hl, hput, in_order hrun hfree⟩

/-- If the task takes one item after the flush has found the channel full, the new datagram gets the
slot, and the last of the queue goes out behind it. -/
theorem overtaken : ∃ h s, (system outlet).Run h s ∧
    h.map Prod.snd = crowd ++ [send 34 [.full, .ok] [⟨0, false⟩, ⟨1, false⟩],
      send 35 [.ok, .ok] [⟨1, false⟩, ⟨1, false⟩]] ∧
    s.channel.put = (List.range 32).map datagram ++ [datagram 34, datagram 32, datagram 35] ∧
    s.handled = (List.range 33).map datagram ++ [datagram 34, datagram 35] ∧
    ¬ s.channel.put.Sublist s.handled := by
  obtain ⟨h, s, hrun, hl, hput, hhandled⟩ := System.Run.of_exec
    (P := fun s =>
      s.channel.put = (List.range 32).map datagram ++ [datagram 34, datagram 32, datagram 35] ∧
      s.handled = (List.range 33).map datagram ++ [datagram 34, datagram 35])
    (crowd ++ [send 34 [.full, .ok] [⟨0, false⟩, ⟨1, false⟩],
      send 35 [.ok, .ok] [⟨1, false⟩, ⟨1, false⟩]]) init_new (by decide +kernel)
  refine ⟨h, s, hrun, hl, hput, hhandled, ?_⟩
  rw [hput, hhandled]
  decide +kernel

end Feed

end IrohBle
