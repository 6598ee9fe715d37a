import IrohBle.Registry.EntrySpec

/-! # Registry.Outbound: the channel between the registry and a pipe task

The driver creates a bounded channel for a pipe; the registry offers datagrams to it with
`try_send`, and the pipe task takes them out. The task runs beside the registry: before each
attempt of a handler it may have taken items, or dropped its end. `replay` goes through the
attempts of a handler and checks that the outcomes the handler saw are those of the channel.
-/

namespace IrohBle

open Lib Reliable

/-! ## The channel -/

/-- An outbound channel, with everything that was ever put into it. -/
structure Outbound where
  items : List PendingSend := []
  closed : Bool := false
  put : List PendingSend := []
deriving DecidableEq, Repr

/-- What the pipe task does between two attempts: it takes items, and may drop its end. -/
structure Progress where
  takes : ℕ
  ends : Bool := false
deriving DecidableEq, Repr

/-- It leaves a slot that can be used. -/
def Progress.frees (p : Progress) : Bool := decide (0 < p.takes) && !p.ends

/-- The task frees no slot between an attempt that finds the channel full and the next. -/
def NoneFreed (io : Io) (during : List Progress) : Prop :=
  ∀ k < during.length, io.trySend k = .full → ∀ p ∈ during[k + 1]?, p.frees = false

instance (io : Io) (during : List Progress) : Decidable (NoneFreed io during) :=
  inferInstanceAs (Decidable (∀ k < during.length, _))

namespace Outbound

/-- The task works. -/
def advance (p : Progress) (c : Outbound) : Outbound :=
  { c with items := c.items.drop p.takes, closed := c.closed || p.ends }

/-- `mpsc::Sender::try_send`. -/
def trySend (s : PendingSend) (c : Outbound) : TrySendResult × Outbound :=
  -- whether the other end is gone is looked at before the room
  if c.closed then (.closed, c)
  else if c.items.length < outboundCapacity then
    (.ok, { c with items := c.items ++ [s], put := c.put ++ [s] })
  else (.full, c)

/-- The attempts of a handler at the channel `tx`, each after what the task did before it. There
is no such run of the channel if it would have answered differently. -/
def replay (tx : Sender) : List TrySend → List Progress → Outbound → Option Outbound
  | [], [], c => some c
  | [], _ :: _, _ => none
  | .inbound .. :: tried, ps, c => replay tx tried ps c
  | .outbound tx' s result :: tried, ps, c =>
    if tx' = tx then
      match ps with
      | [] => none
      | p :: ps =>
        let x := (c.advance p).trySend s
        if x.1 = result then replay tx tried ps x.2 else none
    else replay tx tried ps c

end Outbound

/-! ## Attempts -/

namespace Outbound

/-- Open, with no slot left. -/
structure IsFull (c : Outbound) : Prop where
  isOpen : c.closed = false
  full : outboundCapacity ≤ c.items.length

@[simp] theorem advance_put (p : Progress) (c : Outbound) : (c.advance p).put = c.put := rfl

/-- What is taken is put behind the rest, and there was room. -/
theorem trySend_ok {s : PendingSend} {c c' : Outbound} (h : c.trySend s = (.ok, c')) :
    c'.put = c.put ++ [s] ∧ c.closed = false ∧ c.items.length < outboundCapacity := by
  unfold trySend at h
  split at h
  · cases h
  · rename_i hopen
    split at h
    · rename_i hroom
      obtain rfl := (Prod.mk.inj h).2
      exact ⟨rfl, by simpa using hopen, hroom⟩
    · cases h

/-- A refusal changes nothing, and `full` says that there is no room. -/
theorem trySend_refused {s : PendingSend} {c c' : Outbound} {result : TrySendResult}
    (hresult : result ≠ .ok) (h : c.trySend s = (result, c')) :
    c' = c ∧ (result = .full → c.IsFull) := by
  unfold trySend at h
  split at h
  · obtain ⟨rfl, rfl⟩ := Prod.mk.inj h
    exact ⟨rfl, fun hfull => by cases hfull⟩
  · rename_i hopen
    split at h
    · exact absurd (Prod.mk.inj h).1.symm hresult
    · rename_i hroom
      obtain ⟨rfl, rfl⟩ := Prod.mk.inj h
      exact ⟨rfl, fun _ => ⟨by simpa using hopen, by omega⟩⟩

/-- A full channel takes nothing before a slot is freed. -/
theorem IsFull.refuses {c : Outbound} {p : Progress} {s : PendingSend} {c' : Outbound}
    (h : c.IsFull) (hp : p.frees = false) : (c.advance p).trySend s ≠ (.ok, c') := by
  intro hok
  obtain ⟨-, hopen, hroom⟩ := trySend_ok hok
  have hends : p.ends = false := (Bool.or_eq_false_iff.mp hopen).2
  have htakes : p.takes = 0 := by simpa [Progress.frees, hends] using hp
  have hfull := h.full
  simp only [advance, htakes, List.drop_zero] at hroom
  omega

variable {tx : Sender}

/-- An attempt comes after some progress of the task, and leaves the rest to be replayed. -/
theorem replay_cons {s : PendingSend} {result : TrySendResult} {tried : List TrySend}
    {ps : List Progress} {c c' : Outbound}
    (h : replay tx (.outbound tx s result :: tried) ps c = some c') :
    ∃ p ps' c₁, ps = p :: ps' ∧ (c.advance p).trySend s = (result, c₁) ∧
      replay tx tried ps' c₁ = some c' := by
  unfold replay at h
  rw [if_pos rfl] at h
  cases ps with
  | nil => cases h
  | cons p ps =>
      dsimp only at h
      split at h
      · rename_i hresult
        exact ⟨p, ps, _, rfl, Prod.ext hresult rfl, h⟩
      · cases h

/-- Without attempts nothing happens. -/
theorem replay_nil {ps : List Progress} {c c' : Outbound} (h : replay tx [] ps c = some c') :
    ps = [] ∧ c' = c := by
  cases ps with
  | nil => exact ⟨rfl, (Option.some.inj h).symm⟩
  | cons p ps => cases h

/-- Attempts at other channels leave this one alone. -/
theorem replay_skip {tried : List TrySend} (hother : ∀ s result, .outbound tx s result ∉ tried)
    (later : List TrySend) (ps : List Progress) (c : Outbound) :
    replay tx (tried ++ later) ps c = replay tx later ps c := by
  induction tried with
  | nil => rfl
  | cons x tried ih =>
      have hrest : ∀ s result, .outbound tx s result ∉ tried :=
        fun s result hmem => hother s result (List.mem_cons_of_mem x hmem)
      cases x with
      -- the inbound channel is another one
      | inbound tx' bytes result => exact ih hrest
      | outbound tx' s result =>
          have hne : tx' ≠ tx := by
            rintro rfl
            exact hother s result List.mem_cons_self
          have hskip : replay tx (.outbound tx' s result :: tried ++ later) ps c =
              replay tx (tried ++ later) ps c := by
            change replay tx (.outbound tx' s result :: (tried ++ later)) ps c = _
            cases ps <;> simp [replay, hne]
          exact hskip.trans (ih hrest)

/-- Attempts on other channels are passed over. -/
theorem replay_other {tried : List TrySend} {ps : List Progress} {c c' : Outbound}
    (hother : ∀ s result, .outbound tx s result ∉ tried) (h : replay tx tried ps c = some c') :
    c' = c := by
  have hskip := replay_skip hother [] ps c
  rw [List.append_nil, h] at hskip
  exact (replay_nil hskip.symm).2

/-- Attempts that go through put their sends into the channel, in order. -/
theorem replay_oks {taken : List PendingSend} {tried : List TrySend} {ps : List Progress}
    {c c' : Outbound} (h : replay tx (taken.map (.outbound tx · .ok) ++ tried) ps c = some c') :
    ∃ ps₁ ps₂ c₁, ps = ps₁ ++ ps₂ ∧ ps₁.length = taken.length ∧ c₁.put = c.put ++ taken ∧
      replay tx tried ps₂ c₁ = some c' := by
  induction taken generalizing ps c with
  | nil => exact ⟨[], ps, c, rfl, rfl, (List.append_nil _).symm, h⟩
  | cons s taken ih =>
      obtain ⟨p, ps', c₁, rfl, hok, hrest⟩ := replay_cons h
      obtain ⟨ps₁, ps₂, c₂, rfl, hlen, hput, hrest⟩ := ih hrest
      refine ⟨p :: ps₁, ps₂, c₂, rfl, by simp [hlen], ?_, hrest⟩
      rw [hput, (trySend_ok hok).1, advance_put, List.append_assoc]
      rfl

/-- A flush moves sends from the head of the queue to the end of the channel. If it stops because
the channel is full, the channel is left full. -/
theorem replay_flushed (tx : Sender) {io : Io} {tx' : Sender} {sends : List PendingSend} {w : Edit}
    {x : Edit × Option TrySendResult} (h : Edit.Flushed io tx' sends w x) :
    ∃ tried, x.1.tried = w.tried ++ tried ∧ ∀ later ps c c',
      replay tx (tried ++ later) ps c = some c' → ∃ ps₁ ps₂ c₁, ps = ps₁ ++ ps₂ ∧
        (c₁.put ++ x.1.entry.pendingSends).Sublist (c.put ++ sends) ∧
        replay tx later ps₂ c₁ = some c' ∧
        (tx' = tx → x.2 = some .full → c₁.IsFull ∧
          ∃ k, ps₁.length = k + 1 ∧ io.trySend (w.tried.length + k) = .full) := by
  cases h with
  | all =>
      refine ⟨sends.map (TrySend.outbound tx' · .ok), rfl, ?_⟩
      intro later ps c c' hr
      by_cases htx : tx' = tx
      · subst htx
        obtain ⟨ps₁, ps₂, c₁, rfl, -, hput, hr⟩ := replay_oks hr
        refine ⟨ps₁, ps₂, c₁, rfl, ?_, hr, fun _ hfull => by cases hfull⟩
        rw [hput, List.append_nil]
      · rw [replay_skip (by simpa using fun s _ => htx)] at hr
        exact ⟨[], ps, c, rfl, by simp, hr, fun heq => absurd heq htx⟩
  | @stopped taken rest send result hsends hresult hio =>
      refine ⟨taken.map (TrySend.outbound tx' · .ok) ++ [.outbound tx' send result],
        List.append_assoc _ _ _, ?_⟩
      intro later ps c c' hr
      by_cases htx : tx' = tx
      · subst htx
        rw [List.append_assoc] at hr
        obtain ⟨ps₁, ps₂, c₁, rfl, hlen, hput, hr⟩ := replay_oks hr
        obtain ⟨p, ps₃, c₂, rfl, hattempt, hr⟩ := replay_cons hr
        obtain ⟨rfl, hfull⟩ := trySend_refused hresult hattempt
        -- the refused send is back at the head of what is left
        refine ⟨ps₁ ++ [p], ps₃, _, by simp, ?_, hr, ?_⟩
        · rw [advance_put, hput, hsends, List.append_assoc]
        · intro _ hresult
          refine ⟨hfull (Option.some.inj hresult), taken.length, by simp [hlen], ?_⟩
          rw [hio]
          exact Option.some.inj hresult
      · rw [replay_skip (by simpa [htx] using fun s _ h => absurd h.symm htx)] at hr
        refine ⟨[], ps, c, rfl, ?_, hr, fun heq => absurd heq htx⟩
        rw [hsends]
        exact (List.sublist_append_right _ _).append_left _

/-- What is left in the queue where there still is a pipe waits for a slot. -/
theorem replay_drained {io : Io} {w w' : Edit} (hd : Edit.Drained io w w') (hw : w.tried = [])
    {later : List TrySend} {ps : List Progress} {c c' : Outbound}
    (h : replay tx (w'.tried ++ later) ps c = some c') :
    ∃ ps₁ ps₂ c₁, ps = ps₁ ++ ps₂ ∧
      (c₁.put ++ w'.entry.pendingSends).Sublist (c.put ++ w.entry.pendingSends) ∧
      replay tx later ps₂ c₁ = some c' ∧
      ∀ pipe, w'.entry.pipe = some pipe → pipe.outboundTx = tx → w'.entry.pendingSends = [] ∨
        c₁.IsFull ∧ ∃ k, ps₁.length = k + 1 ∧ io.trySend k = .full := by
  cases hd with
  | idle hp =>
      rw [hw, List.nil_append] at h
      refine ⟨[], ps, c, rfl, List.Sublist.refl _, h, ?_⟩
      intro pipe heq
      rw [hp] at heq
      cases heq
  | @flushed pipe w' refusal hp hf hopen =>
      obtain ⟨tried, htried, hreplay⟩ := replay_flushed tx hf
      rw [hw, List.nil_append] at htried
      rw [htried] at h
      obtain ⟨ps₁, ps₂, c₁, rfl, horder, hlater, hfull⟩ := hreplay later ps c c' h
      refine ⟨ps₁, ps₂, c₁, rfl, horder, hlater, ?_⟩
      intro pipe' heq htx
      obtain rfl : pipe = pipe' := Option.some.inj ((hp.symm.trans hf.pipe.symm).trans heq)
      -- an open channel refuses only when it is full
      rcases hf.refusal with ⟨hempty, -⟩ | ⟨result, hresult, hne⟩
      · exact .inl hempty
      · cases result with
        | ok => exact absurd rfl hne
        | closed => exact absurd hresult hopen
        | full =>
            have hstuck := hfull htx hresult
            rw [hw, List.length_nil] at hstuck
            simpa using Or.inr hstuck
  | @closed pipe w' hp hf =>
      obtain ⟨tried, htried, hreplay⟩ := replay_flushed tx hf
      rw [hw, List.nil_append] at htried
      change replay tx (w'.tried ++ later) ps c = some c' at h
      rw [htried] at h
      obtain ⟨ps₁, ps₂, c₁, rfl, horder, hlater, -⟩ := hreplay later ps c c' h
      exact ⟨ps₁, ps₂, c₁, rfl, horder, hlater, fun pipe' heq => by cases heq⟩

/-- A new send goes to the end of the channel if nothing is queued before it, and else to the end
of the queue, unless it is turned away. -/
theorem replay_offer (io : Io) {w : Edit} {s : PendingSend} {later : List TrySend}
    (hlater : (w.offer io s).tried = w.tried ++ later) {ps : List Progress} {c c' : Outbound}
    {handled : List PendingSend}
    (hqueue : ∀ pipe, w.entry.pipe = some pipe → pipe.outboundTx = tx →
      w.entry.pendingSends = [] ∨ c.IsFull ∧ ∀ p ∈ ps.head?, p.frees = false)
    (horder : (c.put ++ w.entry.pendingSends).Sublist handled)
    (h : replay tx later ps c = some c') :
    (c'.put ++ (w.offer io s).entry.pendingSends).Sublist (handled ++ [s]) := by
  have hlast : (c.put ++ (w.entry.pendingSends ++ [s])).Sublist (handled ++ [s]) := by
    rw [← List.append_assoc]
    exact horder.append_right [s]
  have hsame : (c.put ++ w.entry.pendingSends).Sublist (handled ++ [s]) :=
    horder.trans (List.sublist_append_left _ _)
  -- an attempt that does not go through leaves what was put as it is
  have hrefused : ∀ {tx' result}, result ≠ .ok → later = [.outbound tx' s result] →
      c'.put = c.put := by
    rintro tx' result hresult rfl
    by_cases htx : tx' = tx
    · subst htx
      obtain ⟨p, ps', c₁, rfl, hattempt, hnil⟩ := replay_cons h
      obtain ⟨rfl, -⟩ := trySend_refused hresult hattempt
      rw [(replay_nil hnil).2, advance_put]
    · rw [replay_other (by simpa using fun _ _ h => absurd h.symm htx) h]
  unfold Edit.offer at hlater ⊢
  split at hlater
  · rename_i hp
    have hnil : later = [] := by simpa [Edit.modify] using hlater
    subst hnil
    rw [(replay_nil h).2]
    exact hlast
  · rename_i pipe hp
    split at hlater
    · rename_i htry
      have hone : later = [.outbound pipe.outboundTx s .ok] := by
        simpa [Edit.attempted, Edit.push] using hlater.symm
      subst hone
      by_cases htx : pipe.outboundTx = tx
      · subst htx
        obtain ⟨p, ps', c₁, rfl, hattempt, hnil⟩ := replay_cons h
        -- it goes through only if nothing is left in the queue before it
        rcases hqueue pipe hp rfl with hempty | ⟨hfull, hkept⟩
        · rw [hempty, List.append_nil] at horder
          change (c'.put ++ w.entry.pendingSends).Sublist _
          rw [hempty, List.append_nil, (replay_nil hnil).2, (trySend_ok hattempt).1, advance_put]
          exact horder.append_right [s]
        · exact absurd hattempt (hfull.refuses (hkept p rfl))
      · rw [replay_other (by simpa using fun _ _ h => absurd h.symm htx) h]
        exact hsame
    · rename_i htry
      have hone : later = [.outbound pipe.outboundTx s .full] := by
        simpa [Edit.attempted, Edit.push] using hlater.symm
      rw [hrefused (by simp) hone]
      exact hsame
    · rename_i htry
      have hone : later = [.outbound pipe.outboundTx s .closed] := by
        simpa [Edit.attempted, Edit.push, Edit.modify] using hlater.symm
      rw [hrefused (by simp) hone]
      exact hlast

/-- The new datagram goes behind those that wait, if the task frees no slot between the two. -/
theorem replay_enqueue {io : Io} {w : Edit} {s : PendingSend} (hw : w.tried = [])
    {during : List Progress} {c c' : Outbound} {handled : List PendingSend}
    (hfree : NoneFreed io during)
    (horder : (c.put ++ w.entry.pendingSends).Sublist handled)
    (h : replay tx (w.enqueue io s).tried during c = some c') :
    (c'.put ++ (w.enqueue io s).entry.pendingSends).Sublist (handled ++ [s]) := by
  obtain ⟨later, hlater⟩ := Edit.offer_tried (w.drainBuffered io) io s
  unfold Edit.enqueue at h ⊢
  rw [← hlater] at h
  obtain ⟨ps₁, ps₂, c₁, rfl, hsub, hr, hqueue⟩ := replay_drained (Edit.drained w io) hw h
  refine replay_offer io hlater.symm ?_ (hsub.trans horder) hr
  intro pipe hp htx
  rcases hqueue pipe hp htx with hempty | ⟨hfull, k, hlen, hk⟩
  · exact .inl hempty
  · -- the attempt of the new send is the one after the refused one
    refine .inr ⟨hfull, ?_⟩
    intro p hhead
    have hlt : k < (ps₁ ++ ps₂).length := by
      rw [List.length_append]
      omega
    refine hfree k hlt hk p ?_
    rw [List.getElem?_append_right (by omega), hlen, Nat.sub_self, ← List.head?_eq_getElem?]
    exact hhead

/-- The datagrams stay in order in every branch of the handler. -/
theorem replay_sendDatagram {io : Io} {w : Edit} {target : Option EndpointId} {s : PendingSend}
    (hw : w.tried = []) {during : List Progress} {c c' : Outbound} {handled : List PendingSend}
    (hfree : NoneFreed io during)
    (horder : (c.put ++ w.entry.pendingSends).Sublist handled)
    (h : replay tx (w.sendDatagram io target s).tried during c = some c') :
    (c'.put ++ (w.sendDatagram io target s).entry.pendingSends).Sublist (handled ++ [s]) := by
  have hlast : (c.put ++ (w.entry.pendingSends ++ [s])).Sublist (handled ++ [s]) := by
    rw [← List.append_assoc]
    exact horder.append_right [s]
  have hquiet : ∀ w' : Edit, w'.tried = w.tried → replay tx w'.tried during c = some c' → c' = c := by
    intro w' htried hr
    rw [htried, hw] at hr
    exact (replay_nil hr).2
  unfold Edit.sendDatagram at h ⊢
  split at h
  · exact replay_enqueue hw hfree horder h
  · rw [hquiet _ rfl h]
    exact horder.trans (List.sublist_append_left _ _)
  · rw [hquiet _ rfl h]
    exact hlast
  · rw [hquiet _ rfl h]
    exact hlast

/-- A pipe that becomes ready takes from the head of the queue. -/
theorem replay_dataPipeReady {io : Io} {w : Edit} {g : ℕ} {handles : PipeHandles}
    (hw : w.tried = []) {during : List Progress} {c c' : Outbound}
    (h : replay tx (w.dataPipeReady io g handles).tried during c = some c') :
    (c'.put ++ (w.dataPipeReady io g handles).entry.pendingSends).Sublist
      (c.put ++ w.entry.pendingSends) := by
  unfold Edit.dataPipeReady at h ⊢
  by_cases hg : w.entry.txGen ≠ g
  · rw [if_pos hg, hw] at h
    rw [if_pos hg, (replay_nil h).2]
  · rw [if_neg hg] at h ⊢
    obtain ⟨backlog, hbacklog, hno⟩ :=
      Edit.flushBacklog_tried tx io handles.inboundTx w.entry.rxBacklog w
    obtain ⟨_, hentry⟩ := Edit.flushBacklog_entry io handles.inboundTx w.entry.rxBacklog w
    have hqueue : (Edit.flushBacklog io handles.inboundTx w.entry.rxBacklog w).entry.pendingSends =
        w.entry.pendingSends := by rw [hentry]
    generalize Edit.flushBacklog io handles.inboundTx w.entry.rxBacklog w = w₁ at *
    obtain ⟨tried, htried, hreplay⟩ := replay_flushed tx
      (Edit.flushed io handles.outboundTx w₁.entry.pendingSends w₁)
    change replay tx (Edit.flushSends io handles.outboundTx _ w₁).1.tried during c = some c' at h
    rw [htried, hbacklog, hw, List.nil_append, replay_skip hno, ← List.append_nil tried] at h
    obtain ⟨ps₁, ps₂, c₁, rfl, hsub, hnil, -⟩ := hreplay [] during c c' h
    rw [(replay_nil hnil).2, ← hqueue]
    exact hsub

end Outbound

/-! ## Which channels are offered something -/

namespace Edit

variable {w : Edit} {tx : Sender} {s : PendingSend} {result : TrySendResult}

/-- A flush makes attempts on its channel only. -/
theorem Flushed.attempts {io : Io} {tx' : Sender} {sends : List PendingSend}
    {x : Edit × Option TrySendResult} (h : Flushed io tx' sends w x)
    (hmem : .outbound tx s result ∈ x.1.tried) : .outbound tx s result ∈ w.tried ∨ tx = tx' := by
  cases h with
  | all =>
      rcases List.mem_append.mp hmem with hmem | hmem
      · exact .inl hmem
      · obtain ⟨_, _, heq⟩ := List.mem_map.mp hmem
        cases heq
        exact .inr rfl
  | stopped hsends hresult hio =>
      rcases List.mem_append.mp hmem with hmem | hmem
      · rcases List.mem_append.mp hmem with hmem | hmem
        · exact .inl hmem
        · obtain ⟨_, _, heq⟩ := List.mem_map.mp hmem
          cases heq
          exact .inr rfl
      · cases List.mem_singleton.mp hmem
        exact .inr rfl

/-- Before a new datagram the flush is on the channel of the entry's pipe. -/
theorem Drained.attempts {io : Io} {w' : Edit} (h : Drained io w w')
    (hmem : .outbound tx s result ∈ w'.tried) :
    .outbound tx s result ∈ w.tried ∨ ∃ pipe, w.entry.pipe = some pipe ∧ tx = pipe.outboundTx := by
  cases h with
  | idle hp => exact .inl hmem
  | flushed hp hf _ => exact (hf.attempts hmem).imp_right fun htx => ⟨_, hp, htx⟩
  | closed hp hf => exact (hf.attempts hmem).imp_right fun htx => ⟨_, hp, htx⟩

/-- The datagram itself is tried on the entry's own pipe. -/
theorem offer_attempts {io : Io} {send : PendingSend}
    (hmem : .outbound tx s result ∈ (w.offer io send).tried) :
    .outbound tx s result ∈ w.tried ∨ ∃ pipe, w.entry.pipe = some pipe ∧ tx = pipe.outboundTx := by
  have hone : ∀ {pipe result'}, w.entry.pipe = some pipe →
      .outbound tx s result ∈ w.tried ++ [TrySend.outbound pipe.outboundTx send result'] →
      .outbound tx s result ∈ w.tried ∨
        ∃ pipe, w.entry.pipe = some pipe ∧ tx = pipe.outboundTx := by
    intro pipe result' hp hmem
    rcases List.mem_append.mp hmem with hmem | hmem
    · exact .inl hmem
    · cases List.mem_singleton.mp hmem
      exact .inr ⟨pipe, hp, rfl⟩
  unfold offer at hmem
  split at hmem
  · exact .inl hmem
  · rename_i pipe hp
    split at hmem <;> exact hone hp hmem

/-- A send is offered to the pipe of the entry only. -/
theorem sendDatagram_attempts {io : Io} {target : Option EndpointId} {send : PendingSend}
    (hmem : .outbound tx s result ∈ (w.sendDatagram io target send).tried) :
    .outbound tx s result ∈ w.tried ∨ ∃ pipe, w.entry.pipe = some pipe ∧ tx = pipe.outboundTx := by
  unfold sendDatagram at hmem
  split at hmem
  · rcases offer_attempts hmem with hmem | ⟨pipe, hp, htx⟩
    · exact (drained w io).attempts hmem
    · obtain ⟨_, pipe', he, hpipe⟩ := drainBuffered_entry w io
      rw [he] at hp
      rcases hpipe with rfl | rfl
      · exact .inr ⟨pipe, hp, htx⟩
      · cases hp
  · exact .inl hmem
  · exact .inl hmem
  · exact .inl hmem

/-- A datagram brings no handles. -/
theorem sendDatagram_pipe_or_none (w : Edit) (io : Io) (target : Option EndpointId) (send : PendingSend) :
    (w.sendDatagram io target send).entry.pipe = w.entry.pipe ∨
      (w.sendDatagram io target send).entry.pipe = none := by
  unfold sendDatagram
  split
  · obtain ⟨_, pipe, he, hpipe⟩ := enqueue_entry w io send
    rw [he]
    exact hpipe
  · exact .inl rfl
  · exact .inl rfl
  · exact .inl rfl

/-- A new pipe gets the queue over its own channel. -/
theorem dataPipeReady_attempts {io : Io} {g : ℕ} {handles : PipeHandles}
    (hmem : .outbound tx s result ∈ (w.dataPipeReady io g handles).tried) :
    .outbound tx s result ∈ w.tried ∨ tx = handles.outboundTx := by
  unfold dataPipeReady at hmem
  split at hmem
  · exact .inl hmem
  · obtain ⟨backlog, hbacklog, hno⟩ :=
      flushBacklog_tried tx io handles.inboundTx w.entry.rxBacklog w
    rcases (flushed io handles.outboundTx _ _).attempts hmem with hmem | htx
    · rw [hbacklog] at hmem
      rcases List.mem_append.mp hmem with hmem | hmem
      · exact .inl hmem
      · exact absurd hmem (hno s result)
    · exact .inr htx

end Edit

end IrohBle
