import IrohBle.Routing.Table

/-! # Conns: the connections riding each pipe

`transport/conns.rs`: an index of the iroh connections on each pipe, and a short memory of
the pipes that were closed, so that a handshake that completes on a closed pipe is closed
too.

* A `Link` is an iroh connection as far as the transport sees it: its open paths, whether
  it is still open and whether the application still holds it. The index holds weak
  handles, which are positions in the list of links here.
* `close_pipe` and `insert` close connections outside their lock. The model returns what
  they are going to close, and closing is a step of its own.
-/

namespace IrohBle

open Lib

/-- A connection, as a position in the list of links. -/
abbrev ConnId := ℕ

/-- The path of a connection: the token of a BLE path, or a path of another transport. -/
inductive Path where
  | ble (token : ℕ)
  | other
deriving DecidableEq, Repr

/-- An iroh connection, as far as the transport sees it. -/
structure Link where
  remote : EndpointId
  paths : List Path
  isOpen : Bool := true
  held : Bool := true
deriving DecidableEq

/-- The token of the first BLE path. -/
def Link.token (l : Link) : Option ℕ :=
  l.paths.findSome? fun
    | .ble token => some token
    | .other => none

/-- `close_if_only_path`; what it returns is only counted for a log line. -/
def Link.closeIfOnlyPath (pipe : StableConnId) (l : Link) : Link :=
  if !l.held || l.paths.any (fun path => path != .ble pipe.raw) then l else { l with isOpen := false }

/-- How the peer is told that a redial can help. -/
def bleCloseCodeRetry : ℕ := 1

/-- The close reason a peer sees when a verified duplicate has replaced its pipe. -/
def bleCloseReasonEvicted : String := "ble_evicted"

/-- The close reason a peer sees when its pipe is gone. -/
def bleCloseReasonPipeClosed : String := "ble_pipe_closed"

/-- Closed pipes are forgotten when they expire, the oldest first when there are too many. -/
def closedPipeTtl : ℕ := secs 30

/-- `MAX_CLOSED_PIPES`: so many closed pipes are remembered at most. -/
def maxClosedPipes : ℕ := 128

/-- Why and when a pipe was closed. -/
structure ClosedPipe where
  code : ℕ
  reason : String
  closedAt : ℕ
  seq : ℕ
deriving DecidableEq, Repr

/-- `ConnectionRegistry` with its `RegistryInner`: the connections of each endpoint and pipe
by watch id, and the pipes closed lately. -/
structure ConnectionRegistry where
  nextId : ℕ := 0
  buckets : Map (EndpointId × StableConnId) (Map ℕ ConnId) := ∅
  closed : Map StableConnId ClosedPipe := ∅
  nextCloseSeq : ℕ := 0

namespace ConnectionRegistry

/-- `prune_closed`: expired records go first, then the oldest of too many. -/
def pruneClosed (now : ℕ) (r : ConnectionRegistry) : ConnectionRegistry :=
  let unexpired := r.closed.retain fun _ c => decide (now - c.closedAt ≤ closedPipeTtl)
  { r with closed := unexpired.keepNewest ClosedPipe.seq maxClosedPipes }

/-- The connections of an endpoint on a pipe, by the numbers of their watches. -/
def bucket (e : EndpointId) (p : StableConnId) (r : ConnectionRegistry) : Map ℕ ConnId :=
  (r.buckets.lookup (e, p)).getD ∅

/-- The new registry, the watch id, and whether the connection came too late. -/
def insert (now : ℕ) (e : EndpointId) (p : StableConnId) (conn : ConnId) (r : ConnectionRegistry) :
    ConnectionRegistry × ℕ × Bool :=
  let id := r.nextId + 1
  let r := ({ r with nextId := id } : ConnectionRegistry).pruneClosed now
  match r.closed.lookup p with
  | some _ => (r, id, true)
  | none =>
    ({ r with buckets := r.buckets.insert (e, p) ((r.bucket e p).insert id conn) }, id, false)

/-- A watcher takes its connection out, and hears whether it was the last. -/
def removeAndIsEmpty (e : EndpointId) (p : StableConnId) (watch : ℕ) (r : ConnectionRegistry) :
    ConnectionRegistry × Bool :=
  match r.buckets.lookup (e, p) with
  | none => (r, true)
  | some ids =>
    let ids := ids.erase watch
    if ids.entries.isEmpty then ({ r with buckets := r.buckets.erase (e, p) }, true)
    else ({ r with buckets := r.buckets.insert (e, p) ids }, false)

/-- The connections on a pipe, whoever authenticated over it. -/
def handlesOn (p : StableConnId) (r : ConnectionRegistry) : List ConnId :=
  (r.buckets.entries.filter fun x => x.1.2 == p).flatMap fun x => x.2.values

/-- The locked part of `close_pipe`; the connections it collects are `handlesOn`. -/
def closePipe (now : ℕ) (p : StableConnId) (code : ℕ) (reason : String) (r : ConnectionRegistry) :
    ConnectionRegistry :=
  ({ r with
      nextCloseSeq := r.nextCloseSeq + 1
      closed := r.closed.insert p ⟨code, reason, now, r.nextCloseSeq⟩ } :
    ConnectionRegistry).pruneClosed now

/-! ## What a bucket holds -/

/-- The connection watched under `w` in the bucket of `e` and `p`. -/
def watched (r : ConnectionRegistry) (e : EndpointId) (p : StableConnId) (w : ℕ) : Option ConnId :=
  (r.bucket e p).lookup w

theorem watched_of_lookup {r r' : ConnectionRegistry} {e : EndpointId} {p : StableConnId}
    (h : r'.buckets.lookup (e, p) = r.buckets.lookup (e, p)) : r'.watched e p = r.watched e p := by
  unfold watched bucket
  rw [h]

/-- An insertion comes too late and only takes a watch id, or it adds the connection under it. -/
theorem insert_cases (now : ℕ) (e : EndpointId) (p : StableConnId) (conn : ConnId)
    (r : ConnectionRegistry) :
    r.insert now e p conn =
      (({ r with nextId := r.nextId + 1 } : ConnectionRegistry).pruneClosed now, r.nextId + 1, true) ∧
        ((r.pruneClosed now).closed.lookup p).isSome = true ∨
    r.insert now e p conn =
      (({ r with
          nextId := r.nextId + 1
          buckets := r.buckets.insert (e, p) ((r.bucket e p).insert (r.nextId + 1) conn) } :
        ConnectionRegistry).pruneClosed now, r.nextId + 1, false) ∧
        (r.pruneClosed now).closed.lookup p = none := by
  have hc : (({ r with nextId := r.nextId + 1 } : ConnectionRegistry).pruneClosed now).closed =
      (r.pruneClosed now).closed := rfl
  unfold insert
  dsimp only
  rw [hc]
  cases hl : (r.pruneClosed now).closed.lookup p with
  | none => exact .inr ⟨rfl, rfl⟩
  | some closed => exact .inl ⟨rfl, rfl⟩

/-- An insertion that does not come too late adds one connection, under the next watch id. -/
theorem watched_insert (now : ℕ) (e e' : EndpointId) (p p' : StableConnId) (conn : ConnId) (w : ℕ)
    (r : ConnectionRegistry) : (r.insert now e p conn).1.watched e' p' w =
      if (r.insert now e p conn).2.2 = false ∧ e' = e ∧ p' = p ∧ w = r.nextId + 1 then some conn
      else r.watched e' p' w := by
  rcases insert_cases now e p conn r with ⟨h, -⟩ | ⟨h, -⟩
  · rw [h]
    rfl
  · rw [h]
    by_cases hk : (e', p') = (e, p)
    · rcases Prod.mk.inj hk with ⟨he, hp⟩
      subst he hp
      simp [watched, bucket, pruneClosed, Map.lookup_insert_ite]
    · have hsame : ¬ (e' = e ∧ p' = p ∧ w = r.nextId + 1) := by
        rintro ⟨rfl, rfl, -⟩
        exact hk rfl
      simp only [true_and, if_neg hsame]
      refine congrFun (watched_of_lookup ?_) w
      exact AList.lookup_insert_ne hk

/-- A removal takes one watch away. -/
theorem watched_removeAndIsEmpty (e e' : EndpointId) (p p' : StableConnId) (w w' : ℕ)
    (r : ConnectionRegistry) : (r.removeAndIsEmpty e p w).1.watched e' p' w' =
      if e' = e ∧ p' = p ∧ w' = w then none else r.watched e' p' w' := by
  unfold removeAndIsEmpty
  split
  · rename_i hnone
    split
    · rename_i heq
      rcases heq with ⟨rfl, rfl, -⟩
      simp [watched, bucket, hnone]
    · rfl
  · rename_i ids hids
    dsimp only
    by_cases hk : (e', p') = (e, p)
    · rcases Prod.mk.inj hk with ⟨he, hp⟩
      subst he hp
      have hold : r.watched e' p' w' = ids.lookup w' := by simp [watched, bucket, hids]
      simp only [hold, true_and, ← Map.lookup_erase_ite]
      split
      · -- the emptied bucket is dropped
        rename_i hempty
        have hnone : (ids.erase w).lookup w' = none := by
          unfold AList.lookup
          rw [List.isEmpty_iff.mp hempty]
          rfl
        simp [watched, bucket, hnone]
      · simp [watched, bucket]
    · have hsame : ¬ (e' = e ∧ p' = p ∧ w' = w) := by
        rintro ⟨rfl, rfl, -⟩
        exact hk rfl
      rw [if_neg hsame]
      refine congrFun (watched_of_lookup ?_) w'
      split
      · exact AList.lookup_erase_ne hk
      · exact AList.lookup_insert_ne hk

/-- The watcher is told that the bucket is empty exactly when it is. -/
theorem isEmpty_iff {e : EndpointId} {p : StableConnId} {w : ℕ} {r : ConnectionRegistry} :
    (r.removeAndIsEmpty e p w).2 = true ↔
      ∀ w', (r.removeAndIsEmpty e p w).1.watched e p w' = none := by
  unfold removeAndIsEmpty
  split
  · rename_i hnone
    simp [watched, bucket, hnone]
  · rename_i ids hids
    dsimp only
    split
    · simp [watched, bucket]
    · rename_i hne
      refine iff_of_false (by simp) fun hall => hne ?_
      rw [List.isEmpty_iff, List.eq_nil_iff_forall_not_mem]
      rintro ⟨w', c⟩ hmem
      have hw := hall w'
      simp only [watched, bucket, AList.lookup_insert, Option.getD_some] at hw
      rw [(Map.mem_entries_iff _ _ _).mp hmem] at hw
      cases hw

/-- `close_pipe` collects every connection that is in a bucket of the pipe. -/
theorem mem_handlesOn {e : EndpointId} {p : StableConnId} {w : ℕ} {c : ConnId}
    {r : ConnectionRegistry} (h : r.watched e p w = some c) : c ∈ r.handlesOn p := by
  unfold watched bucket at h
  cases hb : r.buckets.lookup (e, p) with
  | none => simp [hb] at h
  | some ids =>
      rw [hb, Option.getD_some] at h
      refine List.mem_flatMap.mpr ⟨⟨(e, p), ids⟩, ?_, (Map.mem_values_iff _ _).mpr ⟨w, h⟩⟩
      exact List.mem_filter.mpr ⟨(Map.mem_entries_iff _ _ _).mpr hb, beq_self_eq_true _⟩

end ConnectionRegistry

end IrohBle
