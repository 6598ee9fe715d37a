import Mathlib.Data.List.Basic

/-! # Lib.Stream: a byte stream that arrives in pieces

A reader of a stream asks for `n` elements and gets what the next piece holds, at
most `n` of it; only at the end of the stream does it get nothing. How the stream
is cut into pieces is up to the transport.

* `read_spec`: one read takes a non-empty prefix of the content, or the content is empty.
* `readExact_spec`: reading exactly `n` elements takes the first `n` of the content,
  and fails when there are fewer. It does not depend on the pieces.
-/

namespace Lib

universe u

/-- A stream in pieces, none of them empty. -/
structure Source (α : Type u) where
  pieces : List (List α)
  nonempty : ∀ p ∈ pieces, p ≠ []

namespace Source

variable {α : Type u}

/-- Everything that is left to read. -/
def content (src : Source α) : List α := src.pieces.flatten

/-- The stream that arrives element by element. -/
def trickle (bytes : List α) : Source α where
  pieces := bytes.map fun b => [b]
  nonempty := by simp

/-- The stream that arrives at once. -/
def whole (bytes : List α) : Source α where
  pieces := if bytes.isEmpty then [] else [bytes]
  nonempty := by
    intro p hp
    split at hp
    · cases hp
    · rename_i hne
      obtain rfl := List.mem_singleton.mp hp
      simpa using hne

/-- Cutting a content into single elements keeps it. -/
@[simp] theorem content_trickle (bytes : List α) : (trickle bytes).content = bytes := by
  induction bytes with
  | nil => rfl
  | cons b bs ih =>
      simp only [content, trickle, List.map_cons, List.flatten_cons, List.singleton_append] at ih ⊢
      rw [ih]

@[simp] theorem content_whole (bytes : List α) : (whole bytes).content = bytes := by
  cases bytes <;> simp [content, whole]

/-- One read into a buffer of `n + 1` elements. -/
def read (n : ℕ) (src : Source α) : List α × Source α :=
  match src with
  | ⟨[], h⟩ => ([], ⟨[], h⟩)
  | ⟨p :: ps, h⟩ =>
    if hlen : p.length ≤ n + 1 then (p, ⟨ps, fun q hq => h q (List.mem_cons_of_mem p hq)⟩)
    else
      (p.take (n + 1), ⟨p.drop (n + 1) :: ps, by
        intro q hq
        rcases List.mem_cons.mp hq with rfl | hq
        · intro hnil
          rw [List.drop_eq_nil_iff] at hnil
          exact hlen hnil
        · exact h q (List.mem_cons_of_mem p hq)⟩)

/-- A read takes what it returns off the content, and returns nothing only at the end. -/
theorem read_spec (n : ℕ) (src : Source α) :
    src.content = (src.read n).1 ++ (src.read n).2.content ∧ (src.read n).1.length ≤ n + 1 ∧
      ((src.read n).1 = [] ↔ src.content = []) := by
  obtain ⟨pieces, h⟩ := src
  cases pieces with
  | nil => simp [read, content]
  | cons p ps =>
      have hp : p ≠ [] := h p List.mem_cons_self
      by_cases hlen : p.length ≤ n + 1
      · simp [read, content, hlen, hp]
      · have htake : p.take (n + 1) ++ p.drop (n + 1) = p := List.take_append_drop (n + 1) p
        have hmin : (p.take (n + 1)).length ≤ n + 1 := by
          rw [List.length_take]
          omega
        simp only [read, content, hlen, dite_false, List.flatten_cons, ← List.append_assoc, htake]
        refine ⟨trivial, hmin, ?_⟩
        simp [hp]

/-- `read_exact`: read until `want` elements are there. Every read but the one at the end of
the stream returns something, so `want` reads are enough. -/
def readExactLoop : ℕ → ℕ → Source α → Option (List α × Source α)
  | _, 0, src => some ([], src)
  | 0, _ + 1, _ => none
  | fuel + 1, want + 1, src =>
    let (got, rest) := src.read want
    if got.isEmpty then none
    else (readExactLoop fuel (want + 1 - got.length) rest).map fun x => (got ++ x.1, x.2)

/-- Reads until `want` elements are there. Every read but the last of all takes one at least. -/
def readExact (want : ℕ) (src : Source α) : Option (List α × Source α) :=
  readExactLoop want want src

/-- The loop takes the first `want` elements, however the stream is cut, or fails at its end. -/
theorem readExactLoop_spec (fuel want : ℕ) (src : Source α) (hfuel : want ≤ fuel) :
    if want ≤ src.content.length then
      ∃ rest, readExactLoop fuel want src = some (src.content.take want, rest) ∧
        rest.content = src.content.drop want
    else readExactLoop fuel want src = none := by
  induction fuel generalizing want src with
  | zero =>
      obtain rfl : want = 0 := by omega
      simp [readExactLoop]
  | succ fuel ih =>
      cases want with
      | zero => simp [readExactLoop]
      | succ want =>
          obtain ⟨happ, hle, hnil⟩ := src.read_spec want
          -- what one read returns, and the stream it leaves
          generalize hgot : (src.read want).1 = got at happ hle hnil
          generalize hrest : (src.read want).2 = rest at happ
          have hread : src.read want = (got, rest) := by rw [← hgot, ← hrest]
          have hlen : src.content.length = got.length + rest.content.length := by
            rw [happ, List.length_append]
          cases got with
          | nil =>
              have hempty : src.content = [] := hnil.mp rfl
              simp [hempty, readExactLoop, hread]
          | cons b bs =>
              have hpos : 1 ≤ (b :: bs).length := by simp
              have hloop := ih (want + 1 - (b :: bs).length) rest (by omega)
              have hstep : readExactLoop (fuel + 1) (want + 1) src =
                  (readExactLoop fuel (want + 1 - (b :: bs).length) rest).map
                    fun x => ((b :: bs) ++ x.1, x.2) := by
                simp [readExactLoop, hread]
              rw [hstep]
              by_cases henough : want + 1 ≤ src.content.length
              · rw [if_pos henough]
                rw [if_pos (by omega)] at hloop
                obtain ⟨rest', hrec, hdrop⟩ := hloop
                refine ⟨rest', ?_, ?_⟩
                · rw [hrec, happ, Option.map_some, List.take_append, List.take_of_length_le hle]
                · rw [hdrop, happ, List.drop_append, List.drop_of_length_le hle, List.nil_append]
              · rw [if_neg henough]
                rw [if_neg (by omega)] at hloop
                rw [hloop, Option.map_none]

/-- Reading exactly `want` elements, however the stream arrives. -/
theorem readExact_spec (want : ℕ) (src : Source α) :
    if want ≤ src.content.length then
      ∃ rest, src.readExact want = some (src.content.take want, rest) ∧
        rest.content = src.content.drop want
    else src.readExact want = none :=
  readExactLoop_spec want want src (Nat.le_refl want)

/-- The stream holds what is wanted. -/
theorem readExact_append {src : Source α} {xs ys : List α} (h : src.content = xs ++ ys) :
    ∃ rest, src.readExact xs.length = some (xs, rest) ∧ rest.content = ys := by
  have hspec := src.readExact_spec xs.length
  rw [if_pos (by rw [h, List.length_append]; omega), h, List.take_left, List.drop_left] at hspec
  exact hspec

/-- The stream ends too early. -/
theorem readExact_short {src : Source α} {want : ℕ} (h : src.content.length < want) :
    src.readExact want = none := by
  have hspec := src.readExact_spec want
  rwa [if_neg (by omega)] at hspec

/-- What was read exactly is the beginning of the content. -/
theorem content_of_readExact {src rest : Source α} {want : ℕ} {xs : List α}
    (h : src.readExact want = some (xs, rest)) :
    src.content = xs ++ rest.content ∧ xs.length = want := by
  have hspec := src.readExact_spec want
  split at hspec
  · rename_i hle
    obtain ⟨rest', hread, hdrop⟩ := hspec
    rw [h, Option.some.injEq, Prod.mk.injEq] at hread
    obtain ⟨rfl, rfl⟩ := hread
    rw [hdrop]
    exact ⟨(List.take_append_drop want src.content).symm, by rw [List.length_take]; omega⟩
  · rw [h] at hspec
    cases hspec

end Source

end Lib
