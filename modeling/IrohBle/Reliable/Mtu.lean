import IrohBle.Reliable.Reassembly

/-! # Reliable.Mtu: from the ATT MTU to fragments that fit

`resolve_chunk_size` of `transport/mtu.rs`, and what its result means for the fragments of a
datagram. The platform answers each poll with any `u16`, after any delay.

* `pollMtu_returns`: the poll ends, with the first sane reading or with the fallback.
* `fragmentSafe`: with a chunk size of four or more, fragmentation does not underflow, loses
  nothing, keeps every message within the chunk size and marks the ends of the datagram.
* `resolve_chunk_size_safe`: so it is for the initial chunk size and for every resolved one.
-/

namespace IrohBle.Reliable

open ReliableChannel

/-! ## `resolve_chunk_size` -/

/-- `MAX_CHUNK_SIZE`: the longest GATT value, less its overhead. -/
def maxChunkSize : ℕ := 509

/-- `MIN_SANE_MTU`. -/
def minSaneMtu : UInt16 := 24

/-- `DEFAULT_FALLBACK_MTU`. -/
def defaultFallbackMtu : UInt16 := 512

/-- `MTU_READY_DEADLINE`. -/
def mtuReadyDeadline : ℕ := millis 3000

/-- `MTU_POLL_INTERVAL`. -/
def mtuPollInterval : ℕ := millis 50

/-- `ATT_OVERHEAD`. -/
def attOverhead : ℕ := 3

/-- `pipe::INITIAL_CHUNK_SIZE`. -/
def initialChunkSize : ℕ := minSaneMtu.toNat - attOverhead

/-- What `iface.mtu` answers at each poll, and how long it takes. -/
structure Platform where
  mtu : ℕ → UInt16
  delay : ℕ → ℕ

/-- The polling loop: the `k`-th poll starts at `now`. `none` is a loop that has not ended
after `fuel` polls. -/
def pollMtu (p : Platform) (deadline : ℕ) : ℕ → ℕ → ℕ → Option UInt16
  | 0, _, _ => none
  | fuel + 1, k, now =>
    if minSaneMtu ≤ p.mtu k then some (p.mtu k)
    else if deadline ≤ now + p.delay k then some defaultFallbackMtu
    else pollMtu p deadline fuel (k + 1) (now + p.delay k + mtuPollInterval)

/-- One poll every interval, and one at the deadline. -/
def pollLimit : ℕ := mtuReadyDeadline / mtuPollInterval + 1

/-- The polling loop of `resolve_chunk_size`. -/
def resolveMtu (p : Platform) (now : ℕ) : Option UInt16 :=
  pollMtu p (now + mtuReadyDeadline) pollLimit 0 now

/-- The chunk size for an MTU. -/
def chunkSizeOf (mtu : UInt16) : ℕ := min (mtu.toNat - attOverhead) maxChunkSize

/-- `resolve_chunk_size`. -/
def resolveChunkSize (p : Platform) (now : ℕ) : Option ℕ := (resolveMtu p now).map chunkSizeOf

/-- The reading that ends the poll: the first sane one, or the fallback after none. -/
inductive Accepted (p : Platform) : UInt16 → Prop where
  | reading (k : ℕ) : minSaneMtu ≤ p.mtu k → (∀ j < k, p.mtu j < minSaneMtu) → Accepted p (p.mtu k)
  | fallback (k : ℕ) : (∀ j ≤ k, p.mtu j < minSaneMtu) → Accepted p defaultFallbackMtu

/-- Each poll that goes on brings the deadline nearer by the interval. -/
theorem pollMtu_returns (p : Platform) (deadline fuel k now : ℕ)
    (hfuel : deadline ≤ now + fuel * mtuPollInterval) (hk : ∀ j < k, p.mtu j < minSaneMtu) :
    ∃ mtu, pollMtu p deadline (fuel + 1) k now = some mtu ∧ Accepted p mtu := by
  -- induction on the polls that are left before the deadline
  induction fuel generalizing k now with
  | zero =>
      unfold pollMtu
      split
      · rename_i hsane
        exact ⟨_, rfl, .reading k hsane hk⟩
      · rename_i hlow
        -- the last poll: the deadline has passed
        have hnow : deadline ≤ now + p.delay k := by omega
        rw [if_pos hnow]
        refine ⟨_, rfl, .fallback k ?_⟩
        intro j hj
        rcases Nat.lt_or_eq_of_le hj with hlt | rfl
        · exact hk j hlt
        · exact UInt16.not_le.mp hlow
  | succ fuel ih =>
      unfold pollMtu
      split
      · rename_i hsane
        exact ⟨_, rfl, .reading k hsane hk⟩
      · rename_i hlow
        have hall : ∀ j < k + 1, p.mtu j < minSaneMtu := by
          intro j hj
          rcases Nat.lt_or_eq_of_le (Nat.le_of_lt_succ hj) with hlt | rfl
          · exact hk j hlt
          · exact UInt16.not_le.mp hlow
        split
        · exact ⟨_, rfl, .fallback k fun j hj => hall j (by omega)⟩
        · refine ih (k + 1) _ ?_ hall
          have hmul : (fuel + 1) * mtuPollInterval = fuel * mtuPollInterval + mtuPollInterval :=
            Nat.succ_mul fuel mtuPollInterval
          omega

/-- The poll ends, with an MTU it may accept. -/
theorem resolveMtu_returns (p : Platform) (now : ℕ) :
    ∃ mtu, resolveMtu p now = some mtu ∧ Accepted p mtu := by
  refine pollMtu_returns p (now + mtuReadyDeadline) 60 0 now ?_ ?_
  · have hpolls : 60 * mtuPollInterval = mtuReadyDeadline := by decide
    omega
  · intro j hj
    omega

/-- An accepted MTU is a sane one. -/
theorem Accepted.sane {p : Platform} {mtu : UInt16} (h : Accepted p mtu) : 24 ≤ mtu.toNat := by
  cases h with
  | reading k hsane _ => exact UInt16.le_iff_toNat_le.mp hsane
  | fallback _ _ => decide

/-! ## Fragments that fit -/

/-- No piece is longer than asked for. -/
theorem chunksAux_length_le (n f : ℕ) (data : Bytes) : ∀ c ∈ chunksAux n f data, c.length ≤ n := by
  induction f generalizing data with
  | zero => exact List.forall_mem_nil _
  | succ f ih =>
      cases data with
      | nil => exact List.forall_mem_nil _
      | cons b bs =>
          intro c hc
          simp only [chunksAux, List.mem_cons] at hc
          rcases hc with rfl | hc
          · rw [List.length_take]
            omega
          · exact ih _ c hc

/-- No fragment carries more than a chunk less its header and canary. -/
theorem fragments_payload_le (c : ℕ) (d : Bytes) :
    ∀ f ∈ fragments c d, f.payload.length ≤ c - headerSize - 1 := by
  intro f hf
  unfold fragments at hf
  dsimp only at hf
  split at hf
  · rename_i hshort
    rw [List.mem_singleton.mp hf]
    exact hshort
  · obtain ⟨i, hi, rfl⟩ := List.mem_mapIdx.mp hf
    exact chunksAux_length_le _ _ _ _ (List.getElem_mem hi)

/-- The fragments together are the datagram. -/
theorem fragments_flatten {c : ℕ} (hc : 4 ≤ c) (d : Bytes) :
    ((fragments c d).map (·.payload)).flatten = d := by
  unfold fragments headerSize
  dsimp only
  split
  · simp
  · have hpayload : ∀ (cs : List Bytes) (g : ℕ → Bool) (l : ℕ → Bool),
        (cs.mapIdx fun i chunk => (⟨chunk, g i, l i⟩ : FragmentEntry)).map (·.payload) = cs := by
      intro cs g l
      apply List.ext_getElem?
      intro i
      rw [List.getElem?_map, List.getElem?_mapIdx]
      cases cs[i]? <;> rfl
    rw [hpayload]
    exact chunks_flatten (by omega) d

/-- The ends of a datagram are marked, and nothing else. -/
theorem fragments_flags (c : ℕ) (d : Bytes) (i : ℕ) (f : FragmentEntry)
    (h : (fragments c d)[i]? = some f) :
    (f.first = true ↔ i = 0) ∧ (f.last = true ↔ i + 1 = (fragments c d).length) := by
  unfold fragments at h ⊢
  dsimp only at h ⊢
  split at h
  · rename_i hshort
    rw [if_pos hshort]
    cases i with
    | zero =>
        simp only [List.getElem?_cons_zero, Option.some.injEq] at h
        subst h
        simp
    | succ i => simp at h
  · rename_i hlong
    rw [if_neg hlong]
    rw [List.getElem?_mapIdx, Option.map_eq_some_iff] at h
    obtain ⟨chunk, hchunk, rfl⟩ := h
    have hlt := (List.getElem?_eq_some_iff.mp hchunk).1
    rw [List.length_mapIdx]
    constructor
    · simp
    · simp only [beq_iff_eq]
      omega

/-- Header, payload and canary. -/
theorem sendFragment_length {now : ℕ} {frag : FragmentEntry} {rest : List FragmentEntry}
    {ch : ReliableChannel} {msg : Bytes} (h : (sendFragment now frag rest ch).2 = .send msg) :
    msg.length = headerSize + frag.payload.length + 1 := by
  unfold sendFragment at h
  dsimp only at h
  rw [SendAction.send.injEq] at h
  rw [← h]
  cases ch.state.ackPending with
  | none => simp [makeHeader, headerSize]; omega
  | some v => simp [makeHeader, setAck, headerSize]; omega

/-- What a chunk size has to give for every datagram. -/
structure FragmentSafe (c : ℕ) : Prop where
  /-- `chunk_size - HEADER_SIZE - 1` does not underflow, and leaves room for a byte. -/
  room : headerSize + 1 ≤ c ∧ 1 ≤ c - headerSize - 1
  payloads : ∀ d, ((fragments c d).map (·.payload)).flatten = d
  size : ∀ d, ∀ f ∈ fragments c d, f.payload.length ≤ c - 3
  flags : ∀ d i f, (fragments c d)[i]? = some f →
    (f.first = true ↔ i = 0) ∧ (f.last = true ↔ i + 1 = (fragments c d).length)
  /-- Whatever channel has such a fragment at the head of its queue. -/
  wire : ∀ d, ∀ f ∈ fragments c d, ∀ now ch rest msg, (refill ch).state.fragQueue = f :: rest →
    (nextSendAction now ch).2 = .send msg → msg.length ≤ c
  /-- Whatever the receiver was reassembling before. -/
  delivers : ∀ d now ch, (feed now (fragments c d) ch).datagramTx =
    ch.datagramTx ++ if 1 ≤ d.length ∧ d.length ≤ maxDatagramSize then [d] else []

/-- Every chunk size of four and more is safe. -/
theorem fragmentSafe {c : ℕ} (hc : 4 ≤ c) : FragmentSafe c where
  room := by
    unfold headerSize
    omega
  payloads := fragments_flatten hc
  size := by
    intro d f hf
    have hle := fragments_payload_le c d f hf
    unfold headerSize at hle
    omega
  flags := fragments_flags c
  wire := by
    intro d f hf now ch rest msg hqueue hmsg
    have hle := fragments_payload_le c d f hf
    have hact := nextSendAction_cases now ch
    generalize nextSendAction now ch = r at hact hmsg
    -- a message with a number carries the fragment at the head of the queue
    cases hact with
    | dead _ => cases hmsg
    | wait _ _ _ => cases hmsg
    | @data frag rest' _ _ hq =>
        rw [hqueue, List.cons.injEq] at hq
        rw [sendFragment_length hmsg, ← hq.1]
        unfold headerSize at hle ⊢
        omega
    | pureAck _ _ _ =>
        rw [SendAction.send.injEq] at hmsg
        rw [← hmsg]
        show 2 ≤ c
        omega
  delivers := by
    intro d now ch
    have hfeed := congrArg Asm.delivered (feed_asm now (fragments c d) ch)
    rw [deliver_fragments hc] at hfeed
    refine Eq.trans hfeed ?_
    show ch.datagramTx ++ _ = _
    congr 1
    by_cases hcarried : Carried d
    · have hsize : 1 ≤ d.length ∧ d.length ≤ maxDatagramSize := hcarried
      rw [if_pos hsize]
      simp [hcarried]
    · have hsize : ¬ (1 ≤ d.length ∧ d.length ≤ maxDatagramSize) := hcarried
      rw [if_neg hsize]
      simp [hcarried]

/-- Whatever the platform answers, `resolve_chunk_size` returns a chunk size within the
accepted MTU; with it, and with the initial one, fragmentation is safe and lossless. -/
theorem resolve_chunk_size_safe (p : Platform) (now : ℕ) :
    ∃ mtu, resolveMtu p now = some mtu ∧ Accepted p mtu ∧
      resolveChunkSize p now = some (chunkSizeOf mtu) ∧
      21 ≤ chunkSizeOf mtu ∧ chunkSizeOf mtu ≤ 509 ∧ chunkSizeOf mtu + 3 ≤ mtu.toNat ∧
      FragmentSafe (chunkSizeOf mtu) ∧ FragmentSafe initialChunkSize := by
  obtain ⟨mtu, hmtu, haccepted⟩ := resolveMtu_returns p now
  have hsane := haccepted.sane
  have hdef : chunkSizeOf mtu = min (mtu.toNat - 3) 509 := rfl
  refine ⟨mtu, hmtu, haccepted, ?_, by omega, by omega, by omega, ?_, ?_⟩
  · unfold resolveChunkSize
    rw [hmtu]
    rfl
  · exact fragmentSafe (by omega)
  · exact fragmentSafe (by decide)

end IrohBle.Reliable
