import IrohBle.Routing.Discipline

/-! # Routing.Hints: which device a prefix was last seen at

`note_scan_hint` writes the table of hints, for an advertisement and for a handshake; nothing
deletes from it but a test.
-/

namespace IrohBle

open Lib

namespace Routing

/-- A device that is noted takes the hint of its prefix, or is turned down. -/
theorem lookup_noteScanHint (p : KeyPrefix) (d : DeviceId) (r : Routing) (e : KeyPrefix) :
    (r.noteScanHint p d).1.scanHint.lookup e = r.scanHint.lookup e ∨
      e = p ∧ (r.noteScanHint p d).1.scanHint.lookup e = some d := by
  rcases noteScanHint_tables p d r with hr | hr
  · rw [hr]
    exact .inl rfl
  · rw [(scanHint_of_tables hr :)]
    change AList.lookup e (r.scanHint.insert p d) = _ ∨ _ ∧ AList.lookup e (r.scanHint.insert p d) = _
    rw [Map.lookup_insert_ite]
    split
    · rename_i heq
      exact .inr ⟨heq, rfl⟩
    · exact .inl rfl

/-- The prefix that is found for a device is one that was last seen at it. -/
theorem lookup_of_prefixForDevice {r : Routing} {device : DeviceId} {p : KeyPrefix}
    (h : r.prefixForDevice device = some p) : r.scanHint.lookup p = some device := by
  obtain ⟨d, hd, hbeq⟩ := Map.findKey?_eq_some h
  rw [← eq_of_beq hbeq]
  exact hd

end Routing

namespace Router

open Routing

/-- Only `note_scan_hint` writes the hints. -/
theorem scanHint_of_other {r r' : Router} {rl : RouterLabel} (hs : system.step rl r = some r')
    (hrl : ∀ p d, rl ≠ .noteScanHint p d) (e : KeyPrefix) :
    r'.routing.scanHint.lookup e = r.routing.scanHint.lookup e := by
  have hsame : ∀ {m : Map KeyPrefix DeviceId}, m = r.routing.scanHint →
      m.lookup e = r.routing.scanHint.lookup e := by
    rintro m rfl
    rfl
  -- consuming a reservation touches the reservations only
  have hconsumed : ∀ out : Routing × Option Reservation, Consumed r.routing out →
      out.1.scanHint.lookup e = r.routing.scanHint.lookup e := by
    rintro out (rfl | ⟨k, x, -, rfl⟩)
    · rfl
    · rfl
  cases rl with
  | startPipe device role target =>
      simp only [system, step, startPipe] at hs
      split at hs
      · split at hs
        · obtain rfl := Option.some.inj hs
          rfl
        · rename_i endpoint
          have hout := hconsumed _ (consumed_forPrefix (prefixFromEndpoint endpoint) r.routing)
          split at hs
          · rename_i routing x heq
            obtain rfl := Option.some.inj hs
            rw [show r.routing.consumeReservationForPrefix _ = _ from heq] at hout
            exact hout
          · rename_i routing heq
            obtain rfl := Option.some.inj hs
            rw [show r.routing.consumeReservationForPrefix _ = _ from heq] at hout
            exact hout
      · cases hs
  | consumeForDevice =>
      simp only [system, step, consumeForDevice] at hs
      split at hs
      · rename_i device role _
        obtain rfl := Option.some.inj hs
        exact hconsumed _ (consumed_forDevice device r.routing)
      · cases hs
  | register now =>
      simp only [system, step, register] at hs
      split at hs
      · obtain rfl := Option.some.inj hs
        rfl
      · obtain rfl := Option.some.inj hs
        rfl
      · cases hs
  | registerPending now =>
      simp only [system, step, registerPending] at hs
      split at hs
      · rename_i id target _
        obtain rfl := Option.some.inj hs
        refine hsame ?_
        exact (scanHint_of_tables (tables_wakeFor target _) :)
      · cases hs
  | promote now q endpoint =>
      simp only [system, step] at hs
      split at hs
      · cases hs
      · obtain rfl := Option.some.inj hs
        rcases promote_cases now q r.self endpoint r.routing with ⟨hr, -⟩ | ⟨r', ps, hr, hpromotes⟩
        · rw [hr]
        · rw [hr]
          exact hsame (congrArg Routing.scanHint hpromotes.rest :)
  | evictRoutableIfPipe endpoint q =>
      obtain rfl := Option.some.inj hs
      rcases evictRoutableIfPipe_cases endpoint q r.routing with ⟨hr, -⟩ | ⟨x, -, -, hr⟩
      · rw [hr]
      · rw [hr]
        rfl
  | evictPipeState q =>
      simp only [system, step] at hs
      split at hs
      · cases hs
      · obtain rfl := Option.some.inj hs
        have htables := scanHint_of_tables (evictPipeState_tables q r.routing)
        exact hsame (htables.trans (Evicts.evictContender q r.routing).scanHint)
  | evictPipe now q =>
      simp only [system, step] at hs
      split at hs
      · cases hs
      · obtain rfl := Option.some.inj hs
        refine hsame ?_
        dsimp only
        unfold Routing.evictPipe
        split <;> rfl
  | noteScanHint p d => exact absurd rfl (hrl p d)
  | reserveOutbound now endpoint =>
      obtain rfl := Option.some.inj hs
      refine hsame ?_
      dsimp only
      unfold Routing.reserveOutbound
      dsimp only
      split <;> rfl
  | registerEndpointWaker endpoint w =>
      obtain rfl := Option.some.inj hs
      rfl
  | rehash o =>
      obtain ⟨r', hr, rfl⟩ := Option.map_eq_some_iff.mp hs
      unfold Routing.rehash at hr
      split at hr
      · rename_i hperm
        obtain rfl := Option.some.inj hr
        exact Map.lookup_reorder hperm.2.1 e
      · cases hr

/-- A step leaves the hint of a prefix or notes another one. -/
theorem scanHint_of_step {r r' : Router} {rl : RouterLabel} (hs : system.step rl r = some r')
    (e : KeyPrefix) :
    r'.routing.scanHint.lookup e = r.routing.scanHint.lookup e ∨
      ∃ d, rl = .noteScanHint e d ∧ r'.routing.scanHint.lookup e = some d := by
  by_cases hnotes : ∃ p d, rl = .noteScanHint p d
  · obtain ⟨p, d, rfl⟩ := hnotes
    obtain rfl := Option.some.inj hs
    rcases lookup_noteScanHint p d r.routing e with hsame | ⟨rfl, hnoted⟩
    · exact .inl hsame
    · exact .inr ⟨d, rfl, hnoted⟩
  · refine .inl (scanHint_of_other hs ?_ e)
    intro p d hrl
    exact hnotes ⟨p, d, hrl⟩

end Router

end IrohBle
