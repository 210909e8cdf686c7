import Mathlib
import Precinct.Region.Basic

/-!
# Regions as they are made

* `Text.lowerCase_of_ascii`  the lower case of a text in ASCII, letter by letter;
* `Region.Made`        a region that a host can come by: described, then given a priority or a parent;
* `Made.normalizeName_id`  **the name of such a region is in its stored form**: a name without capitals
                       that is its own lower case, so looking the region up by its name finds it.
-/

namespace Precinct

namespace Text

/-- the lower case of a text in ASCII, letter by letter -/
theorem lowerAfter_of_ascii (before cs : List Char) (h : ∀ c ∈ cs, c.toNat < 0x80) :
    lowerAfter before cs = cs.map Char.toLower := by
  induction cs generalizing before with
  | nil => rfl
  | cons c cs ih =>
    have hc := h c List.mem_cons_self
    rw [lowerAfter, if_neg (by omega), lowerChar, if_pos hc,
      ih (c :: before) fun d hd => h d (List.mem_cons_of_mem c hd)]
    rfl

theorem lowerCase_of_ascii {s : String} (h : ∀ c ∈ s.toList, c.toNat < 0x80) :
    lowerCase s = String.ofList (s.toList.map Char.toLower) := by
  rw [lowerCase, lowerAfter_of_ascii [] s.toList h]

/-- in ASCII, a lower case is in ASCII and is its own lower case -/
theorem toLower_ascii {c : Char} (h : c.toNat < 0x80) :
    c.toLower.toNat < 0x80 ∧ c.toLower.toLower = c.toLower := by
  have hall : ∀ n < 0x80, (Char.ofNat n).toLower.toNat < 0x80 ∧
      (Char.ofNat n).toLower.toLower = (Char.ofNat n).toLower := by decide
  have hc := hall c.toNat h
  rwa [Char.ofNat_toNat] at hc

theorem lowerCase_lowerCase {s : String} (h : ∀ c ∈ s.toList, c.toNat < 0x80) :
    lowerCase (lowerCase s) = lowerCase s := by
  have hlower : ∀ c ∈ (lowerCase s).toList, c.toNat < 0x80 ∧ c.toLower = c := by
    intro c hc
    rw [lowerCase_of_ascii h, String.toList_ofList] at hc
    obtain ⟨d, hd, rfl⟩ := List.mem_map.mp hc
    exact toLower_ascii (h d hd)
  rw [lowerCase_of_ascii fun c hc => (hlower c hc).1,
    List.map_congr_left fun c hc => (hlower c hc).2, List.map_id', String.ofList_toList]

end Text

theorem isNameChar_ascii {c : Char} (h : isNameChar c = true) : c.toNat < 0x80 := by
  rw [isNameChar, Bool.or_eq_true, List.contains_iff_mem] at h
  rcases h with h | h
  · simp only [Char.isAlphanum, Char.isAlpha, Char.isUpper, Char.isLower, Char.isDigit,
      Bool.or_eq_true, Bool.and_eq_true, decide_eq_true_eq, ge_iff_le, UInt32.le_iff_toNat_le] at h
    show c.val.toNat < 0x80
    have hZ : 'Z'.val.toNat = 90 := rfl
    have hz : 'z'.val.toNat = 122 := rfl
    have h9 : '9'.val.toNat = 57 := rfl
    omega
  · simp only [List.mem_cons, List.not_mem_nil, or_false] at h
    rcases h with rfl | rfl | rfl | rfl | rfl | rfl <;> decide

/-- the lower case of a character that a name may hold is one too, and no capital -/
theorem isNameChar_toLower {c : Char} (h : isNameChar c = true) :
    isNameChar c.toLower = true ∧ c.toLower.isUpper = false := by
  have hall : ∀ n < 0x80, isNameChar (Char.ofNat n) = true →
      isNameChar (Char.ofNat n).toLower = true ∧ (Char.ofNat n).toLower.isUpper = false := by decide
  have hc := hall c.toNat (isNameChar_ascii h)
  rw [Char.ofNat_toNat] at hc
  exact hc h

section
variable {id name : String}

theorem normalizeName_eq (h : normalizeName id = .ok name) :
    id ≠ "" ∧ (∀ c ∈ id.toList, isNameChar c = true) ∧
      name = String.ofList (id.toList.map Char.toLower) := by
  unfold normalizeName at h
  split at h
  · rename_i hchars
    rw [Bool.and_eq_true, List.all_eq_true, Bool.not_eq_true', String.isEmpty_eq_false_iff] at hchars
    cases h
    exact ⟨hchars.1, hchars.2, Text.lowerCase_of_ascii fun c hc => isNameChar_ascii (hchars.2 c hc)⟩
  · cases h

/-- the stored form of a name is a name without capitals -/
theorem isNameChar_of_normalizeName (h : normalizeName id = .ok name) {c : Char}
    (hc : c ∈ name.toList) : isNameChar c = true ∧ c.isUpper = false := by
  obtain ⟨-, hchars, rfl⟩ := normalizeName_eq h
  rw [String.toList_ofList] at hc
  obtain ⟨d, hd, rfl⟩ := List.mem_map.mp hc
  exact isNameChar_toLower (hchars d hd)

/-- the stored form of a name is its own lower case -/
theorem lowerCase_of_normalizeName (h : normalizeName id = .ok name) :
    Text.lowerCase name = name := by
  obtain ⟨-, hchars, hname⟩ := normalizeName_eq h
  have hascii : ∀ c ∈ id.toList, c.toNat < 0x80 := fun c hc => isNameChar_ascii (hchars c hc)
  rw [hname, ← Text.lowerCase_of_ascii hascii]
  exact Text.lowerCase_lowerCase hascii

/-- and its own stored form -/
theorem normalizeName_of_normalizeName (h : normalizeName id = .ok name) :
    normalizeName name = .ok name := by
  have hchars : ∀ c ∈ name.toList, isNameChar c = true := fun c hc =>
    (isNameChar_of_normalizeName h hc).1
  have hempty : name ≠ "" := by
    obtain ⟨hid, -, rfl⟩ := normalizeName_eq h
    intro he
    have hnil := congrArg String.toList he
    rw [String.toList_ofList] at hnil
    exact hid (String.toList_eq_nil_iff.mp (List.map_eq_nil_iff.mp hnil))
  rw [normalizeName, if_pos, lowerCase_of_normalizeName h]
  rw [Bool.and_eq_true, List.all_eq_true, Bool.not_eq_true', String.isEmpty_eq_false_iff]
  exact ⟨hempty, hchars⟩

end

namespace Region

/-- a region that a host can come by -/
inductive Made : Region → Prop
  | cuboid {id : String} {a b : Block} {r : Region} (h : Region.cuboid id a b = .ok r) : Made r
  | polygon {id : String} {outline : List Plane.Point} {y₁ y₂ : Int32} {r : Region}
      (h : Region.polygon id outline y₁ y₂ = .ok r) : Made r
  | withPriority {r : Region} (h : Made r) (priority : Int32) : Made (r.withPriority priority)
  | withParent {r : Region} (h : Made r) (parent : String) : Made (r.withParent parent)
  | withoutParent {r : Region} (h : Made r) : Made r.withoutParent

/-- **The name of a region that was made** is in its stored form. -/
theorem Made.normalizeName_id {r : Region} (h : r.Made) : normalizeName r.id = .ok r.id := by
  induction h with
  | @cuboid id a b r h =>
    unfold Region.cuboid at h
    cases hn : normalizeName id with
    | error e =>
      rw [hn] at h
      cases h
    | ok name =>
      rw [hn] at h
      cases h
      exact normalizeName_of_normalizeName hn
  | @polygon id outline y₁ y₂ r h =>
    unfold Region.polygon at h
    cases hn : normalizeName id with
    | error e =>
      rw [hn] at h
      cases h
    | ok name =>
      rw [hn] at h
      change (if h : 3 ≤ outline.length then _ else _) = _ at h
      split at h
      · cases h
        exact normalizeName_of_normalizeName hn
      · cases h
  | withPriority h priority ih => exact ih
  | withParent h parent ih => exact ih
  | withoutParent h ih => exact ih

theorem Made.lowerCase_id {r : Region} (h : r.Made) : Text.lowerCase r.id = r.id :=
  lowerCase_of_normalizeName h.normalizeName_id

end Region
end Precinct
