import IrohBle.Reliable.Spec

/-! # Reliable.Reassembly: fragmentation and reassembly are inverse

The receiver's reassembly state as a fold over accepted fragments, and the
round trip through `fragments`:

* `acceptAndDeliver_asm`: accepting a fragment is one step of the fold
  (`acceptFrag`), whatever its sequence number;
* `deliver_fragments`: feeding the fragments of one datagram delivers it exactly
  when its length is in `1..=maxDatagramSize`, and leaves nothing behind;
* `deliver_flatMap` lifts this to a list of datagrams, each cut with its own
  chunk size;
* `delivered_mono`: a longer feed only appends to what was delivered.
-/

namespace IrohBle.Reliable

open ReliableChannel

/-- Reassembly buffer, overflow flag and everything delivered so far. -/
structure Asm where
  reassembly : Bytes
  overflow : Bool
  delivered : List Bytes
deriving DecidableEq

/-- A reassembly that has seen nothing. -/
def Asm.init : Asm := ⟨[], false, []⟩

/-- The buffer after `first`, before the payload is looked at. -/
def Asm.reset (first : Bool) (a : Asm) : Asm :=
  if first then ⟨[], false, a.delivered⟩ else a

/-- The buffer after the payload: extended, or discarded as too long. -/
def Asm.extend (payload : Bytes) (a : Asm) : Asm :=
  if a.overflow then a
  else if maxDatagramSize < (a.reassembly ++ payload).length then ⟨[], true, a.delivered⟩
  else ⟨a.reassembly ++ payload, false, a.delivered⟩

/-- The buffer after `last`: whatever it holds is delivered unless empty. -/
def Asm.finish (last : Bool) (a : Asm) : Asm :=
  if last then
    ⟨[], false, if a.reassembly.isEmpty then a.delivered else a.delivered ++ [a.reassembly]⟩
  else a

/-- Accept one fragment. -/
def acceptFrag (a : Asm) (f : FragmentEntry) : Asm :=
  ((a.reset f.first).extend f.payload).finish f.last

/-- Accept fragments in order. -/
def acceptAll (a : Asm) (fs : List FragmentEntry) : Asm := fs.foldl acceptFrag a

/-- The reassembly state of a channel. -/
def asmOf (ch : ReliableChannel) : Asm :=
  ⟨ch.state.reassembly, ch.state.reassemblyOverflow, ch.datagramTx⟩

/-- `accept_and_deliver` is one step of the fold. -/
theorem acceptAndDeliver_asm (now : ℕ) (f : FragmentEntry) (ch : ReliableChannel) :
    asmOf (acceptAndDeliver now f.first f.last f.payload ch) = acceptFrag (asmOf ch) f := by
  obtain ⟨payload, first, last⟩ := f
  unfold acceptAndDeliver acceptFrag asmOf notifyOne ChannelState.scheduleAck
  unfold Asm.reset Asm.extend Asm.finish
  cases first <;> cases last <;> simp only [if_true, Bool.false_eq_true, if_false]
  · -- neither first nor last
    split <;> rename_i ho
    · simp [ho]
    · split <;> simp_all
  · -- last only
    split <;> rename_i ho
    · cases ch.state.reassembly <;> simp
    · split
      · simp
      · cases ch.state.reassembly ++ payload <;> simp
  · split <;> simp_all
  · split
    · simp
    · cases payload <;> simp

/-- Feed fragments to `accept_and_deliver`, one after another. -/
def feed (now : ℕ) (fs : List FragmentEntry) (ch : ReliableChannel) : ReliableChannel :=
  fs.foldl (fun ch f => acceptAndDeliver now f.first f.last f.payload ch) ch

/-- Feeding a list of fragments is the fold. -/
theorem feed_asm (now : ℕ) (fs : List FragmentEntry) (ch : ReliableChannel) :
    asmOf (feed now fs ch) = acceptAll (asmOf ch) fs := by
  induction fs generalizing ch with
  | nil => rfl
  | cons f fs ih =>
      show asmOf (feed now fs (acceptAndDeliver now f.first f.last f.payload ch)) = _
      rw [ih, acceptAndDeliver_asm]
      rfl

/-! ## What a longer feed adds -/

/-- A fragment takes back nothing that was delivered. -/
theorem delivered_acceptFrag (a : Asm) (f : FragmentEntry) :
    a.delivered <+: (acceptFrag a f).delivered := by
  have hreset : (a.reset f.first).delivered = a.delivered := by
    unfold Asm.reset
    split <;> rfl
  have hextend : ∀ b : Asm, (b.extend f.payload).delivered = b.delivered := by
    intro b
    unfold Asm.extend
    split
    · rfl
    · split <;> rfl
  unfold acceptFrag Asm.finish
  rw [← hreset, ← hextend (a.reset f.first)]
  split
  · dsimp only
    split
    · exact List.prefix_refl _
    · exact List.prefix_append _ _
  · exact List.prefix_refl _

theorem delivered_mono (a : Asm) (fs : List FragmentEntry) :
    a.delivered <+: (acceptAll a fs).delivered := by
  induction fs generalizing a with
  | nil => exact List.prefix_refl _
  | cons f fs ih => exact (delivered_acceptFrag a f).trans (ih (acceptFrag a f))

theorem acceptAll_append (a : Asm) (fs gs : List FragmentEntry) :
    acceptAll a (fs ++ gs) = acceptAll (acceptAll a fs) gs := by
  simp [acceptAll, List.foldl_append]

/-- What a prefix of the feed delivers is a prefix of what the feed delivers. -/
theorem delivered_prefix {fs gs : List FragmentEntry} (h : fs <+: gs) (a : Asm) :
    (acceptAll a fs).delivered <+: (acceptAll a gs).delivered := by
  obtain ⟨hs, rfl⟩ := h
  rw [acceptAll_append]
  exact delivered_mono _ hs

/-! ## Chunking -/

/-- Pieces of at least one byte make up the data again. -/
theorem chunksAux_flatten {n : ℕ} (hn : 1 ≤ n) (f : ℕ) (data : Bytes) (hf : data.length ≤ f) :
    (chunksAux n f data).flatten = data := by
  induction f generalizing data with
  | zero =>
      obtain rfl : data = [] := List.length_eq_zero_iff.mp (by omega)
      rfl
  | succ f ih =>
      cases data with
      | nil => rfl
      | cons b bs =>
          unfold chunksAux
          rw [List.flatten_cons, ih _ (by simp only [List.length_drop, List.length_cons] at hf ⊢; omega)]
          exact List.take_append_drop n (b :: bs)

theorem chunks_flatten {n : ℕ} (hn : 1 ≤ n) (data : Bytes) : (chunks n data).flatten = data :=
  chunksAux_flatten hn _ data (le_refl _)

/-- No piece is empty. -/
theorem chunksAux_ne_nil {n : ℕ} (hn : 1 ≤ n) (f : ℕ) (data : Bytes) :
    ∀ c ∈ chunksAux n f data, c ≠ [] := by
  induction f generalizing data with
  | zero => simp [chunksAux]
  | succ f ih =>
      cases data with
      | nil => simp [chunksAux]
      | cons b bs =>
          intro c hc
          simp only [chunksAux, List.mem_cons] at hc
          rcases hc with rfl | hc
          · intro h
            have := congrArg List.length h
            simp only [List.length_take, List.length_cons, List.length_nil] at this
            omega
          · exact ih _ c hc

theorem chunks_ne_nil {n : ℕ} (hn : 1 ≤ n) (data : Bytes) : ∀ c ∈ chunks n data, c ≠ [] :=
  chunksAux_ne_nil hn _ data

/-- Data longer than one piece is cut into two at least. -/
theorem chunks_two {n : ℕ} (hn : 1 ≤ n) {data : Bytes} (hlong : n < data.length) :
    ∃ c c' cs, chunks n data = c :: c' :: cs := by
  have hfl := chunks_flatten hn data
  match hc : chunks n data with
  | [] =>
      rw [hc] at hfl
      rw [← hfl] at hlong
      simp at hlong
  | c :: c' :: cs => exact ⟨c, c', cs, rfl⟩
  | [c] =>
      -- a single chunk would hold more than `n` bytes
      exfalso
      rw [hc] at hfl
      simp only [List.flatten_cons, List.flatten_nil, List.append_nil] at hfl
      subst hfl
      cases c with
      | nil => simp at hlong
      | cons b bs =>
          simp only [chunks, List.length_cons, chunksAux, List.cons.injEq] at hc
          have := congrArg List.length hc.1
          simp only [List.length_take, List.length_cons] at this hlong
          omega

/-- Every fragment the sender builds is recognised as data. -/
theorem fragments_hasData {c : ℕ} (hc : 4 ≤ c) (d : Bytes) :
    ∀ f ∈ fragments c d, (f.first || f.last || !f.payload.isEmpty) = true := by
  intro f hf
  unfold fragments headerSize at hf
  dsimp only at hf
  split at hf
  · obtain rfl := List.mem_singleton.mp hf
    rfl
  · obtain ⟨i, hi, rfl⟩ := List.mem_mapIdx.mp hf
    have := chunks_ne_nil (n := c - 2 - 1) (by omega) d _ (List.getElem_mem hi)
    simp [this]

/-! ## Round trip -/

/-- The tail of a fragmented datagram: no `first` bit, `last` on the last one. -/
def tailFrags : List Bytes → List FragmentEntry
  | [] => []
  | [c] => [⟨c, false, true⟩]
  | c :: c' :: cs => ⟨c, false, false⟩ :: tailFrags (c' :: cs)

/-- Behind the first, only the last piece is marked. -/
theorem mapIdx_tailFrags (cs : List Bytes) (k n : ℕ) (hk : 0 < k) (hn : n + 1 = cs.length + k) :
    cs.mapIdx (fun i chunk => (⟨chunk, i + k == 0, i + k == n⟩ : FragmentEntry)) =
      tailFrags cs := by
  induction cs generalizing k with
  | nil => rfl
  | cons c cs ih =>
      rw [List.mapIdx_cons]
      cases cs with
      | nil =>
          simp only [List.length_cons, List.length_nil] at hn
          have h0 : (0 + k == 0) = false := by simp; omega
          have h1 : (0 + k == n) = true := by simp; omega
          simp only [h0, h1, List.mapIdx_nil, tailFrags]
      | cons c' cs =>
          have h0 : (0 + k == 0) = false := by simp; omega
          have h1 : (0 + k == n) = false := by simp only [List.length_cons] at hn; simp; omega
          have ih' := ih (k + 1) (by omega) (by simp only [List.length_cons] at hn ⊢; omega)
          simp only [h0, h1, tailFrags]
          rw [← ih']
          congr 1
          apply List.mapIdx_eq_mapIdx_iff.mpr
          intro i hi
          rw [Nat.add_right_comm, Nat.add_assoc]

/-- A datagram that does not fit one fragment: the first is marked as such, the others follow. -/
theorem fragments_long {c : ℕ} (hc : 4 ≤ c) {d : Bytes} (hlong : c - 3 < d.length) :
    ∃ x xs, fragments c d = ⟨x, true, false⟩ :: tailFrags xs ∧ xs ≠ [] ∧ x ++ xs.flatten = d := by
  obtain ⟨x, x', xs, hx⟩ := chunks_two (n := c - 3) (by omega) hlong
  refine ⟨x, x' :: xs, ?_, by simp, ?_⟩
  · unfold fragments headerSize
    have h3 : c - 2 - 1 = c - 3 := by omega
    dsimp only
    rw [h3, if_neg (by omega), hx, List.mapIdx_cons]
    simp only [List.length_cons, Nat.add_sub_cancel]
    congr 1
    exact mapIdx_tailFrags (x' :: xs) 1 (xs.length + 1) (by omega) (by simp)
  · have := chunks_flatten (n := c - 3) (by omega) d
    rw [hx] at this
    simpa using this

/-- The buffer after the bytes `x` of a datagram that has started. -/
def Asm.started (x : Bytes) (del : List Bytes) : Asm :=
  if maxDatagramSize < x.length then ⟨[], true, del⟩ else ⟨x, false, del⟩

/-- A reassembly that was started takes more bytes. -/
theorem extend_started (x y : Bytes) (del : List Bytes) :
    (Asm.started x del).extend y = Asm.started (x ++ y) del := by
  unfold Asm.started Asm.extend
  by_cases hx : maxDatagramSize < x.length
  · simp only [hx, if_true]
    rw [if_pos (by simp only [List.length_append]; omega)]
  · simp only [hx, if_false, Bool.false_eq_true]

/-- The datagrams the channel carries: non-empty and at most the maximum. -/
def Carried (d : Bytes) : Prop := 1 ≤ d.length ∧ d.length ≤ maxDatagramSize

instance (d : Bytes) : Decidable (Carried d) := inferInstanceAs (Decidable (_ ∧ _))

/-- A reassembly that is finished delivers its bytes if the channel carries them. -/
theorem finish_started (x : Bytes) (del : List Bytes) :
    (Asm.started x del).finish true = ⟨[], false, del ++ [x].filter (fun d => decide (Carried d))⟩ := by
  unfold Asm.started
  by_cases hx : maxDatagramSize < x.length
  · have hc : ¬ Carried x := by
      intro hc
      exact absurd hc.2 (by omega)
    rw [if_pos hx]
    simp [Asm.finish, hc]
  · rw [if_neg hx]
    cases x with
    | nil =>
        have hc : ¬ Carried [] := fun hc => absurd hc.1 (by simp)
        simp [Asm.finish, hc]
    | cons b bs =>
        have hc : Carried (b :: bs) := ⟨by simp, by omega⟩
        simp [Asm.finish, hc]

/-- The fragments behind the first finish what it has started. -/
theorem acceptAll_tailFrags (xs : List Bytes) (hne : xs ≠ []) (x : Bytes) (del : List Bytes) :
    acceptAll (Asm.started x del) (tailFrags xs) =
      ⟨[], false, del ++ [x ++ xs.flatten].filter (fun d => decide (Carried d))⟩ := by
  induction xs generalizing x with
  | nil => exact absurd rfl hne
  | cons y ys ih =>
      cases ys with
      | nil =>
          show ((Asm.started x del).extend y).finish true = _
          rw [extend_started, finish_started]
          simp
      | cons y' ys =>
          show acceptAll ((Asm.started x del).extend y) (tailFrags (y' :: ys)) = _
          rw [extend_started, ih (by simp)]
          simp

/-- Feeding the fragments of `d` delivers exactly `d` when its length allows it,
and nothing otherwise; the buffer is empty again. -/
theorem deliver_fragments {c : ℕ} (hc : 4 ≤ c) (d : Bytes) (a : Asm) :
    acceptAll a (fragments c d) =
      ⟨[], false, a.delivered ++ [d].filter (fun d => decide (Carried d))⟩ := by
  by_cases hlong : c - 3 < d.length
  · obtain ⟨x, xs, hfr, hne, hd⟩ := fragments_long hc hlong
    rw [hfr]
    show acceptAll ((a.reset true).extend x) (tailFrags xs) = _
    have hst : (a.reset true).extend x = Asm.started x a.delivered := by
      unfold Asm.reset Asm.extend Asm.started
      simp
    rw [hst, acceptAll_tailFrags xs hne, hd]
  · have hfr : fragments c d = [⟨d, true, true⟩] := by
      unfold fragments headerSize
      dsimp only
      rw [if_pos (by omega)]
    rw [hfr]
    show ((a.reset true).extend d).finish true = _
    have hst : (a.reset true).extend d = Asm.started d a.delivered := by
      unfold Asm.reset Asm.extend Asm.started
      simp
    rw [hst, finish_started]

/-- A list of datagrams, each cut with its own chunk size, is delivered as the
sublist of those the channel carries. -/
theorem deliver_flatMap (ds : List (ℕ × Bytes)) (hds : ∀ x ∈ ds, 4 ≤ x.1) (a : Asm) :
    (acceptAll a (ds.flatMap fun x => fragments x.1 x.2)).delivered =
      a.delivered ++ (ds.map Prod.snd).filter (fun d => decide (Carried d)) := by
  induction ds generalizing a with
  | nil => simp [acceptAll]
  | cons x ds ih =>
      rw [List.flatMap_cons, acceptAll_append, deliver_fragments (hds x (by simp)),
        ih (fun y hy => hds y (by simp [hy]))]
      simp only [List.map_cons, List.append_assoc]
      congr 1
      rw [← List.filter_append]
      rfl

end IrohBle.Reliable
