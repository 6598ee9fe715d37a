import IrohBle.Registry.SingleLive
import IrohBle.Registry.Winner

/-! # Registry.Order: dedup and the order of a hash map

`handle_verified_endpoint` collects its candidates in the iteration order of `peers` and keeps
the first whose role `should_win` accepts. Only where there is none it breaks ties by connection
time and device id. Here the same registry is run under every order of its entries.

* `kept_iff`: which entry is kept, read off the registry before.
* `order_free_iff`: the same entry is kept, and the same ones are drained, under every order
  exactly if at most one candidate has the role that wins.
* `two_winners_order`: a peer that has subscribed twice under two device ids.
-/

namespace IrohBle.Registry

open Lib Reliable Turn

/-- The registry with its entries in the order of `ks`. -/
def iterated (r : Registry) (ks : List DeviceId) : Registry := { r with peers := r.peers.reorder ks }

/-- What `handle_verified_endpoint` makes of the registry under that order. -/
def verifiedIn (r : Registry) (io : Io) (endpoint : EndpointId) (exact : Option DeviceId)
    (ks : List DeviceId) : Registry :=
  ((start (r.iterated ks)).handleVerifiedEndpoint io endpoint exact).reg

/-- The entry `e` of `d` is `Connected` and has the endpoint's prefix, or is about to get it. -/
structure Candidate (r : Registry) (endpoint : EndpointId) (exact : Option DeviceId) (d : DeviceId)
    (e : PeerEntry) : Prop where
  entry : r.peer d = some e
  connected : e.phase.isConnected = true
  keyPrefix : e.keyPrefix = some (prefixFromEndpoint endpoint) ∨ exact = some d

/-- A `Connected` entry of the prefix. -/
def Live (r : Registry) (endpoint : EndpointId) (d : DeviceId) : Prop :=
  ∃ e, r.peer d = some e ∧ liveFor (prefixFromEndpoint endpoint) e = true

/-- `Connected` in `r`, drained as the loser of a dedup in `r'`. -/
def Drained (r r' : Registry) (now : ℕ) (d : DeviceId) : Prop :=
  ∃ e e', r.peer d = some e ∧ e.phase.isConnected = true ∧ r'.peer d = some e' ∧
    e'.phase = .draining now .dedupLoser

/-- Under any two orders the same entry is kept and the same ones are drained, and one is kept if
there was one. -/
structure OrderFree (r : Registry) (io : Io) (endpoint : EndpointId) (exact : Option DeviceId) :
    Prop where
  kept : ∀ ks ks', ks.Perm r.peers.keys → ks'.Perm r.peers.keys → ∀ d,
    (r.verifiedIn io endpoint exact ks).Live endpoint d ↔
      (r.verifiedIn io endpoint exact ks').Live endpoint d
  drained : ∀ ks ks', ks.Perm r.peers.keys → ks'.Perm r.peers.keys → ∀ d,
    r.Drained (r.verifiedIn io endpoint exact ks) io.now d ↔
      r.Drained (r.verifiedIn io endpoint exact ks') io.now d
  one : ∀ ks, ks.Perm r.peers.keys → (∃ d e, r.Candidate endpoint exact d e) →
    ∃! d, (r.verifiedIn io endpoint exact ks).Live endpoint d

/-- At most one candidate has the role that wins. -/
def OneWinner (r : Registry) (endpoint : EndpointId) (exact : Option DeviceId) : Prop :=
  ∀ d d' e e', r.Candidate endpoint exact d e → r.Candidate endpoint exact d' e' →
    shouldWin e.role r.myEndpoint endpoint = true →
    shouldWin e'.role r.myEndpoint endpoint = true → d = d'

/-! ## The stamped registry -/

section Stamped

variable {r : Registry} {io : Io} {endpoint : EndpointId} {exact : Option DeviceId}
  {ks : List DeviceId} {d : DeviceId} {e : PeerEntry}

/-- The turn when the identities are stamped. -/
def stampedIn (r : Registry) (io : Io) (endpoint : EndpointId) (exact : Option DeviceId)
    (ks : List DeviceId) : Turn :=
  ((start (r.iterated ks)).verify (prefixFromEndpoint endpoint) endpoint).stampVerified io endpoint
    exact

theorem peer_iterated (hks : ks.Perm r.peers.keys) (d : DeviceId) :
    (r.iterated ks).peer d = r.peer d :=
  Map.lookup_reorder hks d

/-- Editing keeps the order. -/
theorem keys_editAll (t : Turn) (ds : List DeviceId) (f : Edit → Edit) :
    (t.editAll ds f).reg.peers.keys = t.reg.peers.keys := by
  unfold Turn.editAll
  induction ds generalizing t with
  | nil => rfl
  | cons d ds ih =>
      rw [List.foldl_cons, ih, keys_edit]

theorem myEndpoint_edit (t : Turn) (d : DeviceId) (f : Edit → Edit) :
    (t.edit d f).reg.myEndpoint = t.reg.myEndpoint := by
  unfold Turn.edit
  split <;> rfl

/-- However many entries are edited. -/
theorem myEndpoint_editAll (t : Turn) (ds : List DeviceId) (f : Edit → Edit) :
    (t.editAll ds f).reg.myEndpoint = t.reg.myEndpoint := by
  unfold Turn.editAll
  induction ds generalizing t with
  | nil => rfl
  | cons d ds ih =>
      rw [List.foldl_cons, ih, myEndpoint_edit]

/-- After the stamps the order is still the one the command began with. -/
theorem keys_stampedIn (hks : ks.Perm r.peers.keys) (io : Io) (endpoint : EndpointId)
    (exact : Option DeviceId) : (r.stampedIn io endpoint exact ks).reg.peers.keys = ks := by
  have hkeys : ((start (r.iterated ks)).verify (prefixFromEndpoint endpoint)
      endpoint).reg.peers.keys = ks :=
    Map.keys_reorder hks
  unfold stampedIn Turn.stampVerified
  dsimp only
  rw [keys_editAll]
  cases exact with
  | none => exact hkeys
  | some d =>
      dsimp only
      rw [keys_edit]
      exact hkeys

/-- Stamping entries leaves this side's endpoint alone. -/
theorem myEndpoint_stampedIn (r : Registry) (io : Io) (endpoint : EndpointId)
    (exact : Option DeviceId) (ks : List DeviceId) :
    (r.stampedIn io endpoint exact ks).reg.myEndpoint = r.myEndpoint := by
  unfold stampedIn Turn.stampVerified
  dsimp only
  rw [myEndpoint_editAll]
  cases exact with
  | none => rfl
  | some d =>
      dsimp only
      rw [myEndpoint_edit]
      rfl

/-- Stamping the entries of a prefix changes neither role nor phase nor prefix. -/
theorem stampAll_entry {t : Turn} (now : ℕ) (endpoint : EndpointId) (q : PeerEntry → Bool)
    (he : t.reg.peer d = some e) :
    ∃ e₀, (t.editAll (t.devicesWhere q) (Edit.stampVerified now endpoint)).reg.peer d = some e₀ ∧
      e₀.role = e.role ∧ e₀.phase = e.phase ∧ e₀.keyPrefix = e.keyPrefix := by
  by_cases hmem : d ∈ t.devicesWhere q
  · rcases peer_editAll_mem (f := Edit.stampVerified now endpoint) (nodup_devicesWhere t q) hmem he
      with ⟨w, rfl, hw⟩
    exact ⟨_, hw, rfl, rfl, rfl⟩
  · rw [peer_editAll_ne hmem]
    exact ⟨e, he, rfl, rfl, rfl⟩

/-- The stamped entry: of the prefix if it was, or if the handshake came over its pipe. -/
theorem stampedIn_entry (hks : ks.Perm r.peers.keys) (io : Io) (endpoint : EndpointId)
    (exact : Option DeviceId) (he : r.peer d = some e) :
    ∃ e₀, (r.stampedIn io endpoint exact ks).reg.peer d = some e₀ ∧ e₀.role = e.role ∧
      e₀.phase = e.phase ∧ (e₀.keyPrefix = some (prefixFromEndpoint endpoint) ↔
        e.keyPrefix = some (prefixFromEndpoint endpoint) ∨ exact = some d) := by
  -- another order of iteration finds the same entries
  have hstart : ((start (r.iterated ks)).verify (prefixFromEndpoint endpoint) endpoint).reg.peer d =
      some e :=
    (peer_iterated hks d).trans he
  cases exact with
  | none =>
      obtain ⟨e₀, he₀, hrole, hphase, hpfx⟩ := stampAll_entry io.now endpoint
        (fun e => decide (e.keyPrefix = some (prefixFromEndpoint endpoint))) hstart
      exact ⟨e₀, he₀, hrole, hphase, by simp [hpfx]⟩
  -- the entry of the pipe is stamped first, and gets the prefix if it had none
  | some d₀ =>
      have hpeer : ∃ e₁, (((start (r.iterated ks)).verify (prefixFromEndpoint endpoint)
          endpoint).edit d₀ (Edit.stampExact io.now endpoint)).reg.peer d = some e₁ ∧
          e₁.role = e.role ∧ e₁.phase = e.phase ∧
          (e₁.keyPrefix = some (prefixFromEndpoint endpoint) ↔
            e.keyPrefix = some (prefixFromEndpoint endpoint) ∨ some d₀ = some d) := by
        by_cases hd : d₀ = d
        · subst hd
          rw [edit_of_some hstart]
          refine ⟨_, (peer_store hstart _ d₀).trans (if_pos rfl), rfl, rfl, ?_⟩
          simp [Edit.stampExact, Edit.stampVerified, Edit.modify, focus]
        · rw [peer_edit_ne (Ne.symm hd)]
          exact ⟨e, hstart, rfl, rfl, by simp [hd]⟩
      obtain ⟨e₁, he₁, hrole₁, hphase₁, hpfx₁⟩ := hpeer
      obtain ⟨e₀, he₀, hrole, hphase, hpfx⟩ := stampAll_entry io.now endpoint
        (fun e => decide (e.keyPrefix = some (prefixFromEndpoint endpoint))) he₁
      refine ⟨e₀, he₀, hrole.trans hrole₁, hphase.trans hphase₁, ?_⟩
      rw [hpfx]
      exact hpfx₁

/-- The stamps make no entries. -/
theorem peer_of_stampedIn (hks : ks.Perm r.peers.keys) {e₀ : PeerEntry}
    (he₀ : (r.stampedIn io endpoint exact ks).reg.peer d = some e₀) : ∃ e, r.peer d = some e := by
  have hmem : d ∈ (r.stampedIn io endpoint exact ks).reg.peers.keys := by
    apply AList.mem_keys.mp
    apply AList.lookup_isSome.mp
    change ((r.stampedIn io endpoint exact ks).reg.peer d).isSome = true
    rw [he₀]
    rfl
  rw [keys_stampedIn hks] at hmem
  have hkey : d ∈ r.peers := AList.mem_keys.mpr (hks.subset hmem)
  exact Option.isSome_iff_exists.mp (AList.lookup_isSome.mpr hkey)

/-- The live entries of the stamped registry are the candidates. -/
theorem stampedIn_live (io : Io) (hks : ks.Perm r.peers.keys) :
    (∃ e₀, (r.stampedIn io endpoint exact ks).reg.peer d = some e₀ ∧
      liveFor (prefixFromEndpoint endpoint) e₀ = true) ↔ ∃ e, r.Candidate endpoint exact d e := by
  constructor
  · rintro ⟨e₀, he₀, hlive⟩
    obtain ⟨hpfx, hconnected⟩ := liveFor_iff.mp hlive
    obtain ⟨e, he⟩ := peer_of_stampedIn hks he₀
    obtain ⟨e₁, he₁, -, hphase, hkey⟩ := stampedIn_entry hks io endpoint exact he
    obtain rfl : e₁ = e₀ := Option.some.inj (he₁.symm.trans he₀)
    rw [hphase] at hconnected
    exact ⟨e, he, hconnected, hkey.mp hpfx⟩
  · rintro ⟨e, he, hconnected, hpfx⟩
    obtain ⟨e₀, he₀, -, hphase, hkey⟩ := stampedIn_entry hks io endpoint exact he
    rw [← hphase] at hconnected
    exact ⟨e₀, he₀, liveFor_iff.mpr ⟨hkey.mpr hpfx, hconnected⟩⟩

/-- A candidate stays exactly if every other one yields to it in that order. -/
theorem not_loses_stampedIn (io : Io) (hks : ks.Perm r.peers.keys) (now : ℕ)
    (hd : r.Candidate endpoint exact d e) :
    ¬ (r.stampedIn io endpoint exact ks).Loses now endpoint d ↔
      ∀ d' e', r.Candidate endpoint exact d' e' → d' ≠ d →
        (r.iterated ks).Yields endpoint d d' e e' := by
  have hkeys : (r.stampedIn io endpoint exact ks).reg.peers.keys = (r.iterated ks).peers.keys :=
    (keys_stampedIn hks io endpoint exact).trans (Map.keys_reorder hks).symm
  have hme : (r.stampedIn io endpoint exact ks).reg.myEndpoint = (r.iterated ks).myEndpoint :=
    myEndpoint_stampedIn r io endpoint exact ks
  -- the stamped entry of a candidate
  have hstamped : ∀ {d e}, r.Candidate endpoint exact d e → ∃ e₀,
      (r.stampedIn io endpoint exact ks).reg.peer d = some e₀ ∧
        liveFor (prefixFromEndpoint endpoint) e₀ = true ∧ e₀.role = e.role ∧ e₀.phase = e.phase := by
    rintro d e ⟨he, hconnected, hpfx⟩
    obtain ⟨e₀, he₀, hrole, hphase, hkey⟩ := stampedIn_entry hks io endpoint exact he
    rw [← hphase] at hconnected
    exact ⟨e₀, he₀, liveFor_iff.mpr ⟨hkey.mpr hpfx, hconnected⟩, hrole, hphase⟩
  have hyields : ∀ {d d' e e' e₀ e₀'}, e₀.role = e.role → e₀.phase = e.phase →
      e₀'.role = e'.role → e₀'.phase = e'.phase →
      ((r.iterated ks).Yields endpoint d d' e₀ e₀' ↔ (r.iterated ks).Yields endpoint d d' e e') := by
    intro d d' e e' e₀ e₀' hrole hphase hrole' hphase'
    unfold Yields
    rw [hrole, hphase, hrole', hphase']
  obtain ⟨e₀, he₀, hlive, hrole, hphase⟩ := hstamped hd
  rw [not_loses_iff he₀ hlive]
  constructor
  · intro hall d' e' hd' hne
    obtain ⟨e₀', he₀', hlive', hrole', hphase'⟩ := hstamped hd'
    exact (hyields hrole hphase hrole' hphase').mp
      ((givesWay_iff he₀ hlive he₀' hlive' hkeys hme).mp (hall d' e₀' he₀' hne hlive'))
  · intro hall d' e₀' he₀' hne hlive'
    obtain ⟨e', hd'⟩ := (stampedIn_live io hks).mp ⟨e₀', he₀', hlive'⟩
    obtain ⟨e₁, he₁, -, hrole', hphase'⟩ := hstamped hd'
    obtain rfl : e₁ = e₀' := Option.some.inj (he₁.symm.trans he₀')
    exact (givesWay_iff he₀ hlive he₀' hlive' hkeys hme).mpr
      ((hyields hrole hphase hrole' hphase').mpr (hall d' e' hd' hne))

/-! ## The fate of a candidate -/

/-- A function that keeps the prefix keeps it everywhere. -/
theorem keyPrefix_editAll {t : Turn} {ds : List DeviceId} {f : Edit → Edit}
    (hf : ∀ w : Edit, (f w).entry.keyPrefix = w.entry.keyPrefix) :
    ((t.editAll ds f).reg.peer d).map PeerEntry.keyPrefix =
      (t.reg.peer d).map PeerEntry.keyPrefix := by
  unfold Turn.editAll
  induction ds generalizing t with
  | nil => rfl
  | cons d' ds ih =>
      rw [List.foldl_cons, ih]
      cases he : t.reg.peer d' with
      | none => rw [edit_of_none he]
      | some e =>
          rw [edit_of_some he, peer_store he]
          split
          · rename_i hd
            subst hd
            rw [he, Option.map_some, Option.map_some, hf]
            rfl
          · rfl

/-- Once stamped, no prefix changes. -/
theorem keyPrefix_verifiedIn (r : Registry) (io : Io) (endpoint : EndpointId)
    (exact : Option DeviceId) (ks : List DeviceId) (d : DeviceId) :
    ((r.verifiedIn io endpoint exact ks).peer d).map PeerEntry.keyPrefix =
      ((r.stampedIn io endpoint exact ks).reg.peer d).map PeerEntry.keyPrefix := by
  -- none of what follows the stamps writes a prefix
  have hdrain : ∀ (now systemNow : ℕ) (reason : DisconnectReason) (w : Edit),
      (w.drainToDraining now systemNow reason).entry.keyPrefix = w.entry.keyPrefix := by
    intro now systemNow reason w
    rw [Edit.drainToDraining_entry]
  have hupgrade : ∀ w : Edit, w.requestUpgrade.entry.keyPrefix = w.entry.keyPrefix := by
    intro w
    unfold Edit.requestUpgrade Edit.setUpgrading
    cases hp : w.entry.phase <;> rfl
  have hrequest : ∀ t : Turn, ((t.requestUpgrades endpoint).reg.peer d).map PeerEntry.keyPrefix =
      (t.reg.peer d).map PeerEntry.keyPrefix := by
    intro t
    unfold Turn.requestUpgrades
    dsimp only
    split
    · exact keyPrefix_editAll hupgrade
    · rfl
  have hlosers : ∀ t : Turn, ((t.drainLosers io endpoint).reg.peer d).map PeerEntry.keyPrefix =
      (t.reg.peer d).map PeerEntry.keyPrefix := by
    intro t
    unfold Turn.drainLosers
    dsimp only
    split
    · exact keyPrefix_editAll (hdrain _ _ _)
    · rfl
  unfold verifiedIn Turn.handleVerifiedEndpoint
  dsimp only
  rw [hrequest, hlosers]
  exact keyPrefix_editAll (hdrain _ _ _)

/-- Which entry is kept under an order: a candidate that every other one gives way to under that
order. -/
theorem kept_iff (hks : ks.Perm r.peers.keys) :
    (r.verifiedIn io endpoint exact ks).Live endpoint d ↔
      ∃ e, r.Candidate endpoint exact d e ∧ ∀ d' e', r.Candidate endpoint exact d' e' → d' ≠ d →
        (r.iterated ks).Yields endpoint d d' e e' := by
  constructor
  · rintro ⟨e', he', hlive'⟩
    obtain ⟨hlive₀, hstays⟩ := kept_of_live he' hlive'
    obtain ⟨e, hd⟩ := (stampedIn_live io hks).mp hlive₀
    exact ⟨e, hd, (not_loses_stampedIn io hks io.now hd).mp hstays⟩
  · rintro ⟨e, hd, hyield⟩
    have hstays := (not_loses_stampedIn io hks io.now hd).mpr hyield
    obtain ⟨e₀, he₀, hlive₀⟩ := (stampedIn_live io hks).mpr ⟨e, hd⟩
    obtain ⟨e', he', -, hconnected⟩ := handleVerifiedEndpoint_entry he₀ hlive₀
    refine ⟨e', he', liveFor_iff.mpr ⟨?_, hconnected hstays⟩⟩
    have hpfx := keyPrefix_verifiedIn r io endpoint exact ks d
    have he'' : (r.verifiedIn io endpoint exact ks).peer d = some e' := he'
    rw [he'', he₀, Option.map_some, Option.map_some, Option.some.injEq] at hpfx
    rw [hpfx]
    exact (liveFor_iff.mp hlive₀).1

/-- Every candidate that is not kept is drained. -/
theorem drained_iff (hks : ks.Perm r.peers.keys) :
    r.Drained (r.verifiedIn io endpoint exact ks) io.now d ↔
      (∃ e, r.Candidate endpoint exact d e) ∧
        ¬ (r.verifiedIn io endpoint exact ks).Live endpoint d := by
  constructor
  · rintro ⟨e, e', he, hconnected, he', hdraining⟩
    constructor
    · by_contra hno
      -- an entry that is no candidate is left alone
      obtain ⟨e₀, he₀, -, hphase, hkey⟩ := stampedIn_entry hks io endpoint exact he
      have hother : e₀.keyPrefix ≠ some (prefixFromEndpoint endpoint) :=
        fun hpfx => hno ⟨e, he, hconnected, hkey.mp hpfx⟩
      have hsame := stamped_other io he₀ hother (by rw [hphase]; exact hconnected)
      obtain rfl : e₀ = e' := Option.some.inj (hsame.symm.trans he')
      rw [← hphase, hdraining] at hconnected
      cases hconnected
    · rintro ⟨e'', he'', hlive⟩
      obtain rfl : e'' = e' := Option.some.inj (he''.symm.trans he')
      cases liveFor_of_phase hlive hdraining
  · rintro ⟨⟨e, hd⟩, hgone⟩
    obtain ⟨e₀, he₀, hlive₀⟩ := (stampedIn_live io hks).mpr ⟨e, hd⟩
    obtain ⟨e', he', hdrained, -⟩ := handleVerifiedEndpoint_entry he₀ hlive₀
    refine ⟨e, e', hd.entry, hd.connected, he', hdrained ?_⟩
    by_contra hstays
    exact hgone ((kept_iff hks).mpr ⟨e, hd, (not_loses_stampedIn io hks io.now hd).mp hstays⟩)

end Stamped

/-! ## Two orders -/

variable {r : Registry} {io : Io} {endpoint : EndpointId} {exact : Option DeviceId}

/-- A candidate whose role wins yields to another such only by its place in the order. -/
theorem yields_of_win {ks : List DeviceId} (hks : ks.Perm r.peers.keys) {d d' : DeviceId}
    {e e' : PeerEntry} (hwin : shouldWin e.role r.myEndpoint endpoint = true) :
    (r.iterated ks).Yields endpoint d d' e e' ↔
      (shouldWin e'.role r.myEndpoint endpoint = true → [d, d'].Sublist ks) := by
  have hkeys : (r.iterated ks).peers.keys = ks := Map.keys_reorder hks
  unfold Yields
  rw [hkeys]
  exact iff_of_eq (if_pos hwin)

/-- With one winner at most, the order is not looked at. -/
theorem yields_iterated (hone : r.OneWinner endpoint exact) {d d' : DeviceId} {e e' : PeerEntry}
    (hd : r.Candidate endpoint exact d e) (hd' : r.Candidate endpoint exact d' e') (hne : d' ≠ d)
    {ks ks' : List DeviceId} (hks : ks.Perm r.peers.keys) (hks' : ks'.Perm r.peers.keys) :
    (r.iterated ks).Yields endpoint d d' e e' ↔ (r.iterated ks').Yields endpoint d d' e e' := by
  by_cases hwin : shouldWin e.role r.myEndpoint endpoint = true
  · have hother : ¬ shouldWin e'.role r.myEndpoint endpoint = true :=
      fun hwin' => hne (hone d d' e e' hd hd' hwin hwin').symm
    rw [yields_of_win hks hwin, yields_of_win hks' hwin]
    exact iff_of_true (fun hwin' => absurd hwin' hother) fun hwin' => absurd hwin' hother
  · have hlose : ∀ ks, (r.iterated ks).Yields endpoint d d' e e' ↔
        shouldWin e'.role r.myEndpoint endpoint = false ∧
          (e'.phase.connectedSince < e.phase.connectedSince ∨
            e'.phase.connectedSince = e.phase.connectedSince ∧ d' < d) :=
      fun ks => iff_of_eq (if_neg hwin)
    rw [hlose ks, hlose ks']

/-- With one winner at most, what is kept under one order is kept under another. -/
theorem kept_of_kept (hone : r.OneWinner endpoint exact) {ks ks' : List DeviceId}
    (hks : ks.Perm r.peers.keys) (hks' : ks'.Perm r.peers.keys) {d : DeviceId}
    (h : (r.verifiedIn io endpoint exact ks).Live endpoint d) :
    (r.verifiedIn io endpoint exact ks').Live endpoint d := by
  obtain ⟨e, hd, hyield⟩ := (kept_iff hks).mp h
  refine (kept_iff hks').mpr ⟨e, hd, ?_⟩
  intro d' e' hd' hne
  exact (yields_iterated hone hd hd' hne hks hks').mp (hyield d' e' hd' hne)

/-- Whatever the order, one candidate is kept if there is one. -/
theorem one_kept (io : Io) {ks : List DeviceId} (hks : ks.Perm r.peers.keys) {d : DeviceId}
    {e : PeerEntry} (hd : r.Candidate endpoint exact d e) :
    ∃! d, (r.verifiedIn io endpoint exact ks).Live endpoint d := by
  obtain ⟨e₀, he₀, hlive₀⟩ := (stampedIn_live io hks).mpr ⟨e, hd⟩
  have hne : (r.stampedIn io endpoint exact ks).devicesWhere
      (liveFor (prefixFromEndpoint endpoint)) ≠ [] :=
    List.ne_nil_of_mem ((mem_devicesWhere_iff he₀).mpr hlive₀)
  obtain ⟨b, hb, hwinner⟩ := exists_dedupWinner _ io.now endpoint hne
  obtain ⟨eb, hcand⟩ := (stampedIn_live io hks).mp (mem_devicesWhere hb)
  have hstays : ¬ (r.stampedIn io endpoint exact ks).Loses io.now endpoint b :=
    fun hloses => hloses.2 hwinner
  have hkept : (r.verifiedIn io endpoint exact ks).Live endpoint b :=
    (kept_iff hks).mpr ⟨eb, hcand, (not_loses_stampedIn io hks io.now hcand).mp hstays⟩
  refine ⟨b, hkept, ?_⟩
  rintro b' ⟨e', he', hlive'⟩
  obtain ⟨e'', he'', hlive''⟩ := hkept
  exact oneLive_verifiedEndpoint exact b' b e' e'' he' he'' hlive' hlive''

/-- The order that puts `d` first. -/
def first (r : Registry) (d : DeviceId) : List DeviceId := d :: r.peers.keys.erase d

theorem first_perm {d : DeviceId} {e : PeerEntry} (he : r.peer d = some e) :
    (r.first d).Perm r.peers.keys := by
  have hmem : d ∈ r.peers.keys := Map.mem_keys_of_lookup he
  exact (List.perm_cons_erase hmem).symm

/-- Of two winners the one that comes first is kept. -/
theorem first_kept {d : DeviceId} {e : PeerEntry} (hd : r.Candidate endpoint exact d e)
    (hwin : shouldWin e.role r.myEndpoint endpoint = true) :
    (r.verifiedIn io endpoint exact (r.first d)).Live endpoint d := by
  have hks := first_perm hd.entry
  refine (kept_iff hks).mpr ⟨e, hd, ?_⟩
  intro d' e' hd' hne
  rw [yields_of_win hks hwin]
  intro _
  have hmem : d' ∈ r.first d := hks.mem_iff.mpr (first_perm hd'.entry |>.subset List.mem_cons_self)
  have htail : d' ∈ r.peers.keys.erase d := (List.mem_cons.mp hmem).resolve_left hne
  exact (List.singleton_sublist.mpr htail).cons_cons d

/-- Under the order that begins with a winner no other entry is kept. -/
theorem other_not_kept {d d' : DeviceId} {e : PeerEntry} (hd : r.Candidate endpoint exact d e)
    (hwin : shouldWin e.role r.myEndpoint endpoint = true) (hne : d ≠ d') :
    ¬ (r.verifiedIn io endpoint exact (r.first d)).Live endpoint d' := by
  intro hlive'
  obtain ⟨b, -, huniq⟩ := one_kept io (first_perm hd.entry) hd
  have h₁ := huniq d (first_kept hd hwin)
  have h₂ := huniq d' hlive'
  exact hne (h₁.trans h₂.symm)

/-- A verified endpoint keeps the same entry and drains the same others under every order of the
map exactly if at most one candidate has the role that wins. -/
theorem order_free_iff (r : Registry) (io : Io) (endpoint : EndpointId) (exact : Option DeviceId) :
    r.OrderFree io endpoint exact ↔ r.OneWinner endpoint exact := by
  constructor
  · intro hfree d d' e e' hd hd' hwin hwin'
    by_contra hne
    -- put one of the two first, then the other
    have hkept : (r.verifiedIn io endpoint exact (r.first d')).Live endpoint d :=
      (hfree.kept _ _ (first_perm hd.entry) (first_perm hd'.entry) d).mp (first_kept hd hwin)
    exact other_not_kept hd' hwin' (Ne.symm hne) hkept
  · intro hone
    have hsame : ∀ ks ks', ks.Perm r.peers.keys → ks'.Perm r.peers.keys → ∀ d,
        (r.verifiedIn io endpoint exact ks).Live endpoint d ↔
          (r.verifiedIn io endpoint exact ks').Live endpoint d := by
      intro ks ks' hks hks' d
      exact ⟨kept_of_kept hone hks hks', kept_of_kept hone hks' hks⟩
    constructor
    · exact hsame
    · intro ks ks' hks hks' d
      rw [drained_iff hks, drained_iff hks', hsame ks ks' hks hks' d]
    · rintro ks hks ⟨d, e, hd⟩
      exact one_kept io hks hd

/-- A peer with the higher endpoint dials twice, under two device ids. -/
def twoClientsRun : List Label :=
  [.command (ioAt 0) (.peripheralClientSubscribed "first" 0
      (some (prefixFromEndpoint peerEndpoint))),
    .command (ioAt 1) (.peripheralClientSubscribed "second" 0
      (some (prefixFromEndpoint peerEndpoint)))]

/-- Both entries have the role that wins, and the order of the map decides between them. -/
theorem two_winners_order : ∃ h r, system.Run h r ∧ h.map Prod.snd = twoClientsRun ∧
    (r.verifiedIn (ioAt 2) peerEndpoint none ["first", "second"]).Live peerEndpoint "first" ∧
    ¬ (r.verifiedIn (ioAt 2) peerEndpoint none ["second", "first"]).Live peerEndpoint "first" ∧
    ¬ r.OrderFree (ioAt 2) peerEndpoint none := by
  obtain ⟨h, r, hrun, hl, hks, hks', hkept, hdrained⟩ := System.Run.of_exec
    (P := fun r : Registry =>
      ["first", "second"].Perm r.peers.keys ∧ ["second", "first"].Perm r.peers.keys ∧
      ((r.verifiedIn (ioAt 2) peerEndpoint none ["first", "second"]).peer "first").any
        (liveFor (prefixFromEndpoint peerEndpoint)) = true ∧
      ((r.verifiedIn (ioAt 2) peerEndpoint none ["second", "first"]).peer "first").any
        (liveFor (prefixFromEndpoint peerEndpoint)) = false)
    twoClientsRun (init_new .disabled localEndpoint) (by decide +kernel)
  have hlive : (r.verifiedIn (ioAt 2) peerEndpoint none ["first", "second"]).Live peerEndpoint
      "first" := by
    rw [Option.any_eq_true] at hkept
    exact hkept
  have hgone : ¬ (r.verifiedIn (ioAt 2) peerEndpoint none ["second", "first"]).Live peerEndpoint
      "first" := by
    rintro ⟨e, he, hlive⟩
    rw [he, Option.any_some, hlive] at hdrained
    cases hdrained
  refine ⟨h, r, hrun, hl, hlive, hgone, ?_⟩
  intro hfree
  exact hgone ((hfree.kept _ _ hks hks' "first").mp hlive)

end IrohBle.Registry
