import Mathlib
import Precinct.Probe.Generator

/-!
# Which numbers a generator can draw

* `exists_advance`     every state comes after some other, for the multiplier is odd;
* `exists_output`      so every number below `2 ^ 31` is an output;
* `exists_draw_eq`     a draw between bounds in order goes through, and what it gives;
* `Generator.drawLong`  the draw in 64 bits, breaking off where a value does not fit:
                       `drawLong_eq` says that it never does;
* `Drawn`              some state draws the number (`drawn_iff`);
* `draws_all_iff`      **every number between the bounds is drawn just if these are less than
                       `2 ^ 31` apart.**

The output has 31 bits, and it is what is added to the lower bound when there are more numbers than
that.  The upper ones are then never drawn: between the least and the greatest coordinate a draw is
negative.
-/

namespace Precinct.Probe

/-- a value on the way, as a 64-bit number with a sign, which it has to fit -/
def long (n : Int) : Except Fault Int64 :=
  if Int64.minValue.toInt ≤ n ∧ n ≤ Int64.maxValue.toInt then .ok (Int64.ofInt n)
  else .error .overflow

theorem long_eq_ok {n : Int} (h₁ : -2 ^ 63 ≤ n) (h₂ : n < 2 ^ 63) :
    long n = .ok (Int64.ofInt n) := by
  refine if_pos ⟨h₁, ?_⟩
  show n ≤ 2 ^ 63 - 1
  omega

namespace Generator

/-! ## states and outputs -/

/-- what undoes the multiplication of a state -/
def inverse : UInt64 := 13877824140714322085

/-- **Every state comes after some other.** -/
theorem exists_advance (s : UInt64) : ∃ g : Generator, g.advance = ⟨s⟩ := by
  have hunit : inverse * multiplier = 1 := by decide
  refine ⟨⟨(s - increment) * inverse⟩, ?_⟩
  rw [advance, UInt64.mul_assoc, hunit, UInt64.mul_one, UInt64.sub_add_cancel]

theorem toNat_output (g : Generator) : g.output.toNat = g.state.toNat / 2 ^ 33 := by
  rw [output, UInt64.toNat_shiftRight, Nat.shiftRight_eq_div_pow]
  rfl

theorem output_lt (g : Generator) : g.output.toNat < 2 ^ 31 := by
  have := g.state.toNat_lt
  rw [toNat_output]
  omega

/-- **Every number below `2 ^ 31` is an output.** -/
theorem exists_output {n : Nat} (h : n < 2 ^ 31) : ∃ g : Generator, g.advance.output.toNat = n := by
  obtain ⟨g, hg⟩ := exists_advance (UInt64.ofNat (n * 2 ^ 33))
  refine ⟨g, ?_⟩
  rw [hg, toNat_output, UInt64.toNat_ofNat_of_lt' (by show n * 2 ^ 33 < 2 ^ 64; omega)]
  exact Nat.mul_div_cancel n (by norm_num)

/-! ## draws -/

section
variable {min max n : Int32}

theorem toNat_span (h : min ≤ max) :
    (span min max).toNat = (max.toInt - min.toInt + 1).toNat := by
  have h₁ := Int32.le_iff_toInt_le.mp h
  have h₂ := Int32.le_toInt min
  have h₃ := Int32.toInt_lt max
  rw [span, UInt64.ofInt, UInt64.toNat_ofNat']
  omega

/-- **A draw between bounds in order goes through.** -/
theorem exists_draw_eq (g : Generator) (h : min ≤ max) :
    ∃ n, g.draw min max = .ok (n, g.advance) ∧
      n.toInt = min.toInt + (g.advance.output.toNat % (max.toInt - min.toInt + 1).toNat : Nat) ∧
      min ≤ n ∧ n ≤ max := by
  have h₁ := Int32.le_iff_toInt_le.mp h
  have h₂ := Int32.le_toInt min
  have h₃ := Int32.toInt_lt max
  have hspan := toNat_span h
  have hpos : span min max ≠ 0 := by
    intro hzero
    rw [hzero, UInt64.toNat_zero] at hspan
    omega
  have hlt : g.advance.output.toNat % (max.toInt - min.toInt + 1).toNat <
      (max.toInt - min.toInt + 1).toNat := Nat.mod_lt _ (by omega)
  have hdraw : g.draw min max = .ok
      (Int32.ofInt (min.toInt + (g.advance.output % span min max).toNat), g.advance) := if_neg hpos
  rw [UInt64.toNat_mod, hspan] at hdraw
  refine ⟨_, hdraw, ?_⟩
  rw [Int32.le_iff_toInt_le, Int32.le_iff_toInt_le, Int32.toInt_ofInt_of_le (by omega) (by omega)]
  omega

/-- some state draws the number -/
def Drawn (min max n : Int32) : Prop := ∃ g g' : Generator, g.draw min max = .ok (n, g')

/-- **The numbers drawn** lie between the bounds, less than `2 ^ 31` above the lower one. -/
theorem drawn_iff (h : min ≤ max) :
    Drawn min max n ↔ (min ≤ n ∧ n ≤ max) ∧ n.toInt < min.toInt + 2 ^ 31 := by
  constructor
  · rintro ⟨g, g', hdraw⟩
    obtain ⟨m, hm, hvalue, hbetween⟩ := g.exists_draw_eq h
    rw [hm] at hdraw
    cases hdraw
    have hlt := g.advance.output_lt
    have hle := Nat.mod_le g.advance.output.toNat (max.toInt - min.toInt + 1).toNat
    exact ⟨hbetween, by omega⟩
  · rintro ⟨⟨h₁, h₂⟩, hnear⟩
    have k₁ := Int32.le_iff_toInt_le.mp h₁
    have k₂ := Int32.le_iff_toInt_le.mp h₂
    -- the output that is just as far above zero
    obtain ⟨g, hg⟩ := exists_output (n := (n.toInt - min.toInt).toNat) (by omega)
    obtain ⟨m, hm, hvalue, -⟩ := g.exists_draw_eq h
    rw [hg, Nat.mod_eq_of_lt (by omega)] at hvalue
    have hmn : m = n := Int32.toInt_inj.mp (by omega)
    exact ⟨g, g.advance, hmn ▸ hm⟩

/-! ## the draw in 64 bits -/

/-- the draw where every value on the way must fit -/
def drawLong (g : Generator) (min max : Int32) : Except Fault (Int32 × Generator) := do
  let apart ← long (max.toInt64.toInt - min.toInt64.toInt)
  let count ← long (apart.toInt + 1)
  let (n, g) := g.next
  let n := n.toUInt32.toUInt64
  if count.toUInt64 = 0 then .error .emptySpan
  else
    let place ← long (min.toInt64.toInt + (n % count.toUInt64).toInt64.toInt)
    return (place.toInt32, g)

theorem toUInt64_ofInt (n : Int) : (Int64.ofInt n).toUInt64 = UInt64.ofInt n := by
  rw [← UInt64.toBitVec_inj, Int64.toBitVec_toUInt64, Int64.toBitVec_ofInt]
  refine BitVec.eq_of_toNat_eq ?_
  rw [BitVec.toNat_ofInt, UInt64.ofInt, UInt64.toNat_toBitVec, UInt64.toNat_ofNat']
  omega

/-- the sign bit of a small number is not set -/
theorem toInt_toInt64 {n : UInt64} (h : n.toNat < 2 ^ 63) : n.toInt64.toInt = n.toNat := by
  rw [← Int64.toInt_toBitVec, UInt64.toBitVec_toInt64, BitVec.toInt_eq_toNat_of_lt]
  · rfl
  · rw [UInt64.toNat_toBitVec]
    omega

theorem toUInt64_toUInt32_output (g : Generator) : g.output.toUInt32.toUInt64 = g.output := by
  have := g.output_lt
  rw [← UInt64.toNat_inj, UInt64.toUInt64_toUInt32, UInt64.toNat_mod]
  exact Nat.mod_eq_of_lt (by show _ < 4294967296; omega)

/-- **Every value on the way fits**, whatever the bounds. -/
theorem drawLong_eq (g : Generator) (min max : Int32) : g.drawLong min max = g.draw min max := by
  have hmin := Int32.le_toInt min
  have hmin' := Int32.toInt_lt min
  have hmax := Int32.le_toInt max
  have hmax' := Int32.toInt_lt max
  have hsmall : (g.advance.output % span min max).toNat < 2 ^ 31 := by
    rw [UInt64.toNat_mod]
    exact (Nat.mod_le _ _).trans_lt g.advance.output_lt
  have hapart := long_eq_ok (n := max.toInt - min.toInt) (by omega) (by omega)
  have hcount := long_eq_ok (n := max.toInt - min.toInt + 1) (by omega) (by omega)
  have hplace := long_eq_ok (n := min.toInt + (g.advance.output % span min max).toNat)
    (by omega) (by omega)
  have hwidth : (Int64.ofInt (max.toInt - min.toInt)).toInt = max.toInt - min.toInt :=
    Int64.toInt_ofInt_of_le (by omega) (by omega)
  have hspan : (Int64.ofInt (max.toInt - min.toInt + 1)).toUInt64 = span min max :=
    toUInt64_ofInt _
  unfold drawLong draw
  simp only [Int32.toInt_toInt64, hapart, hwidth, hcount, hspan, next, toUInt64_toUInt32_output,
    bind, Except.bind]
  split
  · rfl
  · rw [toInt_toInt64 (hsmall.trans (by norm_num)), hplace]
    dsimp only
    rw [Int64.toInt32_ofInt]
    rfl

/-! ## the whole interval -/

/-- **Every number between the bounds is drawn** just if these are less than `2 ^ 31` apart.  Every
draw goes through and lies between them all the same. -/
theorem draws_all_iff (h : min ≤ max) :
    (∀ g : Generator, g.drawLong min max = g.draw min max ∧
      ∃ n, g.draw min max = .ok (n, g.advance) ∧ min ≤ n ∧ n ≤ max) ∧
    (∀ n, Drawn min max n ↔ (min ≤ n ∧ n ≤ max) ∧ n.toInt < min.toInt + 2 ^ 31) ∧
    ((∀ n, min ≤ n → n ≤ max → Drawn min max n) ↔ max.toInt - min.toInt < 2 ^ 31) := by
  refine ⟨fun g => ⟨g.drawLong_eq min max, ?_⟩, fun n => drawn_iff h, fun hall => ?_,
    fun hnear n h₁ h₂ => (drawn_iff h).mpr ⟨⟨h₁, h₂⟩, ?_⟩⟩
  · obtain ⟨n, hn, -, hbetween⟩ := g.exists_draw_eq h
    exact ⟨n, hn, hbetween⟩
  · have := ((drawn_iff h).mp (hall max h (Int32.le_refl max))).2
    omega
  · have := Int32.le_iff_toInt_le.mp h₂
    omega

/-- all coordinates, and just the negative ones of them -/
theorem draws_all_negative : Int32.minValue ≤ Int32.maxValue ∧ Int32.minValue ≤ -1 ∧
    (∃ n, (Generator.mk 0).drawLong .minValue .maxValue = .ok (n, (Generator.mk 0).advance)) ∧
    ¬Drawn .minValue .maxValue 0 ∧ ∀ n : Int32, n ≤ -1 → Drawn .minValue (-1) n := by
  have hall : Int32.minValue ≤ Int32.maxValue := by decide
  have hhalf : Int32.minValue ≤ -1 := by decide
  refine ⟨hall, hhalf, ?_, fun hd => ?_, fun n hn => ?_⟩
  · obtain ⟨heq, n, hn, -⟩ := (draws_all_iff hall).1 ⟨0⟩
    exact ⟨n, heq.trans hn⟩
  · exact absurd (((draws_all_iff hall).2.1 0).mp hd).2 (by decide)
  · exact (draws_all_iff hhalf).2.2.mpr (by decide) n (Int32.minValue_le n) hn

/-- no state draws the greatest coordinate, not even the one that has the greatest after it -/
theorem maxValue_not_drawn :
    ¬(∀ n : Int32, .minValue ≤ n → n ≤ .maxValue → Drawn .minValue .maxValue n) ∧
    (Generator.mk 15635871386175874928).draw .minValue .maxValue =
      .ok (-1, ⟨18446744073709551615⟩) := by
  refine ⟨fun hall => ?_, by decide +kernel⟩
  have hmax := hall .maxValue (by decide) (by decide)
  exact absurd ((drawn_iff (by decide)).mp hmax).2 (by decide)

end

end Generator
end Precinct.Probe
