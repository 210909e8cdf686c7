import Mathlib
import Precinct.Probe.CrossCheck

/-!
# The findings of a cross-check, counted

* `CrossCheck.ofFindings`   the report that findings come to, with the regions counted exactly;
* **`CrossCheck.tally_eq`** a tally is this report, or an overflow if they are too many: the additions
                            are checked one by one, but no sum on the way is greater than the last;
* `Cache.Exceeds`           the cross-checks that break off: `Cache.crossCheck_eq`, `Cache.crossCheck_ok`.
-/

namespace Precinct

/-- how many regions the cache named in all -/
def Finding.total (findings : List Finding) : ℕ := (findings.map Finding.found).sum

/-- the places of disagreement -/
def Finding.places (findings : List Finding) : List Block := findings.filterMap Finding.mismatch

namespace CrossCheck

/-- the report on some regions and places of disagreement -/
def ofCounts (queries found : ℕ) (places : List Block) : CrossCheck where
  queries
  matchesFound := found.toUInt64
  mismatches := places.length
  samples := places.take sampleLimit

/-- the report on some findings -/
def ofFindings (findings : List Finding) : CrossCheck :=
  ofCounts findings.length (Finding.total findings) (Finding.places findings)

variable {queries found : ℕ} {places : List Block}

theorem toNat_matchesFound (h : found < 2 ^ 64) :
    (ofCounts queries found places).matchesFound.toNat = found :=
  UInt64.toNat_ofNat'.trans (Nat.mod_eq_of_lt h)

/-- one more place is kept as long as there is room -/
theorem disagreed_ofCounts (p : Block) :
    (ofCounts queries found places).disagreed p = ofCounts queries found (places ++ [p]) := by
  have hlength : (places.take sampleLimit).length < sampleLimit ↔ places.length < sampleLimit := by
    rw [List.length_take]
    omega
  unfold disagreed ofCounts
  by_cases h : places.length < sampleLimit
  · rw [if_pos (hlength.mpr h), List.take_of_length_le h.le, List.length_append,
      List.take_of_length_le (by rw [List.length_append]; exact h)]
    rfl
  · rw [if_neg fun h' => h (hlength.mp h'), List.length_append,
      List.take_append_of_le_length (Nat.le_of_not_lt h)]
    rfl

/-- **One finding** is one addition, and maybe one more place. -/
theorem note_ofCounts (h : found < 2 ^ 64) (f : Finding) :
    (ofCounts queries found places).note f =
      if found + f.found < 2 ^ 64 then
        .ok (ofCounts queries (found + f.found) (places ++ f.mismatch.toList))
      else .error .overflow := by
  have hadd : addExact (ofCounts queries found places).matchesFound f.found =
      if found + f.found < 2 ^ 64 then .ok (found + f.found).toUInt64 else .error .overflow := by
    rw [addExact, toNat_matchesFound h]
    refine if_congr Iff.rfl ?_ rfl
    exact congrArg Except.ok (UInt64.ofNat_add found f.found).symm
  rw [note, hadd]
  split
  · obtain ⟨-, mismatch⟩ := f
    cases mismatch with
    | none => rw [Option.toList_none, List.append_nil]; rfl
    | some p => exact congrArg Except.ok (disagreed_ofCounts p)
  · rfl

theorem foldlM_note (findings : List Finding) (h : found < 2 ^ 64) :
    findings.foldlM note (ofCounts queries found places) =
      if found + Finding.total findings < 2 ^ 64 then
        .ok (ofCounts queries (found + Finding.total findings) (places ++ Finding.places findings))
      else .error .overflow := by
  induction findings generalizing found places with
  | nil =>
    rw [if_pos (by exact h), Finding.places, List.filterMap_nil, List.append_nil]
    rfl
  | cons f findings ih =>
    have htotal : found + Finding.total (f :: findings) =
        found + f.found + Finding.total findings := by
      rw [Finding.total, List.map_cons, List.sum_cons, Nat.add_assoc]
      rfl
    rw [List.foldlM_cons, note_ofCounts h, htotal]
    by_cases hfits : found + f.found < 2 ^ 64
    · have hplaces : places ++ f.mismatch.toList ++ Finding.places findings =
          places ++ Finding.places (f :: findings) := by
        rw [List.append_assoc, Finding.places, Finding.places, List.filterMap_cons]
        cases f.mismatch <;> rfl
      rw [if_pos hfits, ← hplaces]
      exact ih hfits
    · rw [if_neg hfits, if_neg (by omega)]
      rfl

/-- **A tally is one check of the exact total.** -/
theorem tally_eq (findings : List Finding) :
    tally findings =
      if Finding.total findings < 2 ^ 64 then .ok (ofFindings findings) else .error .overflow := by
  have hfold : findings.foldlM note (ofCounts findings.length 0 []) =
      if 0 + Finding.total findings < 2 ^ 64 then
        .ok (ofCounts findings.length (0 + Finding.total findings) (Finding.places findings))
      else .error .overflow := foldlM_note findings (by decide)
  rw [Nat.zero_add] at hfold
  exact hfold

end CrossCheck

namespace Cache
variable {σ : Type} [RegionStore σ] {c : Cache σ} {points : List Block}

/-- a cross-check whose findings have no room, or name more regions than can be counted -/
def Exceeds (c : Cache σ) (points : List Block) : Prop :=
  maxBytes < points.length * Finding.bytes ∨ 2 ^ 64 ≤ Finding.total (c.checkAll [] points).1

theorem crossCheck_of_no_room (h : maxBytes < points.length * Finding.bytes) :
    c.crossCheck points = (.error .capacity, c) := by
  rw [crossCheck, room, if_neg (Nat.not_le.mpr h)]

/-- with room the queries are asked before anything is counted -/
theorem crossCheck_eq (h : points.length * Finding.bytes ≤ maxBytes) :
    c.crossCheck points =
      (CrossCheck.tally (c.checkAll [] points).1, (c.checkAll [] points).2) := by
  rw [crossCheck, room, if_pos h]

/-- **A cross-check breaks off in no other way.** -/
theorem crossCheck_ok (h : ¬c.Exceeds points) :
    (c.crossCheck points).1 = .ok (.ofFindings (c.checkAll [] points).1) := by
  rw [Exceeds, not_or, Nat.not_lt, Nat.not_le] at h
  rw [crossCheck_eq h.1, CrossCheck.tally_eq, if_pos h.2]

end Cache
end Precinct
