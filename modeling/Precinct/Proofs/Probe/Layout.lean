import Mathlib
import Precinct.Probe.Layout
import Precinct.Proofs.Probe.Generator
import Precinct.Proofs.World.Box

/-!
# Layouts and queries that stay in range

* `exists_coordinate`   what fits a coordinate is one;
* `exists_draw`         a number drawn lies between its bounds, if they are in order;
* `exists_layout`       **as many regions as were asked for**, whatever the state of the generator;
* `exists_columnSquare`  every column of the square, each once;
* `exists_queryPoints`  **as many blocks as were asked for, each in a column of the square**.

Nothing here is about the numbers that a generator gives, only about the range they come from.  The
bounds are far from tight: with a reach of `2 ^ 20` columns every coordinate still fits.  What does
limit the counts is that a list must fit its memory.
-/

namespace Precinct

namespace Probe

theorem bind_of_ok {ε α β : Type} {x : Except ε α} {a : α} (h : x = .ok a) (f : α → Except ε β) :
    (x >>= f) = f a := by
  rw [h]
  rfl

theorem room_ok {count size : Nat} (h : count * size ≤ maxBytes) :
    (room count size).mapError Failure.broken = .ok () := by
  rw [room, if_pos h]
  rfl

/-! ## coordinates and numbers -/

theorem exists_coordinate {n : Int} (h₁ : -2 ^ 31 ≤ n) (h₂ : n < 2 ^ 31) :
    ∃ m, coordinate n = .ok m ∧ m.toInt = n := by
  refine ⟨Int32.ofInt n, if_pos ⟨h₁, ?_⟩, Int32.toInt_ofInt_of_le h₁ h₂⟩
  show n ≤ 2 ^ 31 - 1
  omega

/-- **A number drawn lies between its bounds.** -/
theorem exists_draw (g : Generator) (min max : Int32) (h : min.toInt ≤ max.toInt) :
    ∃ n g', draw g min max = .ok (n, g') ∧ min.toInt ≤ n.toInt ∧ n.toInt ≤ max.toInt := by
  obtain ⟨n, hn, -, h₁, h₂⟩ := g.exists_draw_eq (Int32.le_iff_toInt_le.mpr h)
  refine ⟨n, g.advance, ?_, Int32.le_iff_toInt_le.mp h₁, Int32.le_iff_toInt_le.mp h₂⟩
  rw [draw, hn]
  rfl

/-! ## regions -/

/-- a numbered name is a name -/
theorem normalizeName_numbered (word : String) (h : word.toList.all isNameChar = true) (i : Nat) :
    normalizeName (word ++ toString i) = .ok (Text.lowerCase (word ++ toString i)) := by
  have hdigits : (toString i).toList.all isNameChar = true := by
    rw [List.all_eq_true, Nat.toString_eq_ofList_toDigits, String.toList_ofList]
    intro c hc
    have hdigit := Nat.isDigit_of_mem_toDigits (by decide) (by decide) hc
    rw [isNameChar, Char.isAlphanum, hdigit, Bool.or_true, Bool.true_or]
  refine if_pos ?_
  rw [Bool.and_eq_true, String.toList_append, List.all_append, h, hdigits]
  simp

theorem exists_diamond {x z r : Int32} (hx₁ : -2 ^ 30 ≤ x.toInt) (hx₂ : x.toInt ≤ 2 ^ 30)
    (hz₁ : -2 ^ 30 ≤ z.toInt) (hz₂ : z.toInt ≤ 2 ^ 30) (hr₁ : 0 ≤ r.toInt) (hr₂ : r.toInt ≤ 40)
    (i : Nat) (y top : Int32) :
    ∃ region, diamond ("diamond_" ++ toString i) x z r y top = .ok region := by
  obtain ⟨north, hnorth, -⟩ := exists_coordinate (n := z.toInt - r.toInt) (by omega) (by omega)
  obtain ⟨east, heast, -⟩ := exists_coordinate (n := x.toInt + r.toInt) (by omega) (by omega)
  obtain ⟨south, hsouth, -⟩ := exists_coordinate (n := z.toInt + r.toInt) (by omega) (by omega)
  obtain ⟨west, hwest, -⟩ := exists_coordinate (n := x.toInt - r.toInt) (by omega) (by omega)
  have hname := normalizeName_numbered "diamond_" (by decide) i
  unfold diamond Region.polygon
  rw [hnorth, heast, hsouth, hwest, hname]
  exact ⟨_, rfl⟩

theorem exists_plot {x z w d : Int32} (hx₁ : -2 ^ 30 ≤ x.toInt) (hx₂ : x.toInt ≤ 2 ^ 30)
    (hz₁ : -2 ^ 30 ≤ z.toInt) (hz₂ : z.toInt ≤ 2 ^ 30) (hw₁ : 0 ≤ w.toInt) (hw₂ : w.toInt ≤ 48)
    (hd₁ : 0 ≤ d.toInt) (hd₂ : d.toInt ≤ 48) (i : Nat) (y top : Int32) :
    ∃ region, plot ("plot_" ++ toString i) x z w d y top = .ok region := by
  obtain ⟨east, heast, -⟩ := exists_coordinate (n := x.toInt + w.toInt) (by omega) (by omega)
  obtain ⟨south, hsouth, -⟩ := exists_coordinate (n := z.toInt + d.toInt) (by omega) (by omega)
  have hname := normalizeName_numbered "plot_" (by decide) i
  unfold plot Region.cuboid
  rw [heast, hsouth, hname]
  exact ⟨_, rfl⟩

theorem exists_parcel {extent : Int32} (h₁ : 0 ≤ extent.toInt) (h₂ : extent.toInt ≤ 2 ^ 30) (i : Nat)
    (g : Generator) : ∃ region g', parcel extent i g = .ok (region, g') := by
  obtain ⟨opposite, hopposite, he⟩ := exists_coordinate (n := -extent.toInt) (by omega) (by omega)
  obtain ⟨x, g₁, hx, hx₁, hx₂⟩ := exists_draw g opposite extent (by omega)
  obtain ⟨z, g₂, hz, hz₁, hz₂⟩ := exists_draw g₁ opposite extent (by omega)
  obtain ⟨y, g₃, hy, hy₁, hy₂⟩ := exists_draw g₂ 0 200 (by decide)
  obtain ⟨height, g₄, hheight, hh₁, hh₂⟩ := exists_draw g₃ 8 120 (by decide)
  obtain ⟨priority, g₅, hpriority, -⟩ := exists_draw g₄ (-3) 3 (by decide)
  have h200 : (200 : Int32).toInt = 200 := by decide
  have h120 : (120 : Int32).toInt = 120 := by decide
  have h40 : (40 : Int32).toInt = 40 := by decide
  have h48 : (48 : Int32).toInt = 48 := by decide
  have h4 : (4 : Int32).toInt = 4 := by decide
  have h0 : (0 : Int32).toInt = 0 := by decide
  have h8 : (8 : Int32).toInt = 8 := by decide
  obtain ⟨top, htop, -⟩ := exists_coordinate (n := y.toInt + height.toInt) (by omega) (by omega)
  simp only [parcel, bind_of_ok hopposite, bind_of_ok hx, bind_of_ok hz, bind_of_ok hy,
    bind_of_ok hheight, bind_of_ok hpriority, bind_of_ok htop]
  split
  · obtain ⟨r, g₆, hr, hr₁, hr₂⟩ := exists_draw g₅ 4 40 (by decide)
    obtain ⟨region, hregion⟩ := exists_diamond (x := x) (z := z) (r := r) (by omega) (by omega)
      (by omega) (by omega) (by omega) (by omega) i y top
    simp only [bind_of_ok hr, bind_of_ok hregion]
    exact ⟨_, _, rfl⟩
  · obtain ⟨w, g₆, hw, hw₁, hw₂⟩ := exists_draw g₅ 0 48 (by decide)
    obtain ⟨d, g₇, hd, hd₁, hd₂⟩ := exists_draw g₆ 0 48 (by decide)
    obtain ⟨region, hregion⟩ := exists_plot (x := x) (z := z) (w := w) (d := d) (by omega)
      (by omega) (by omega) (by omega) (by omega) (by omega) (by omega) (by omega) i y top
    simp only [bind_of_ok hw, bind_of_ok hd, bind_of_ok hregion]
    exact ⟨_, _, rfl⟩

theorem exists_parcels (extent : Int32) (h₁ : 0 ≤ extent.toInt) (h₂ : extent.toInt ≤ 2 ^ 30)
    (i : Nat) (before : List Region) (count : Nat) (g : Generator) : ∃ regions g',
      parcels extent i before count g = .ok (regions, g') ∧
        regions.length = before.length + count := by
  induction count generalizing i before g with
  | zero => exact ⟨_, _, rfl, List.length_reverse⟩
  | succ count ih =>
    obtain ⟨region, g₁, hparcel⟩ := exists_parcel h₁ h₂ i g
    obtain ⟨regions, g₂, hparcels, hlength⟩ := ih (i + 1) (region :: before) g₁
    refine ⟨regions, g₂, ?_, ?_⟩
    · simp only [parcels, bind_of_ok hparcel]
      exact hparcels
    · rw [hlength, List.length_cons]
      omega

/-- **A layout has as many regions as were asked for.** -/
theorem exists_layout {count : Nat} {radius : Int32} (h₁ : 0 ≤ radius.toInt)
    (h₂ : radius.toInt ≤ 2 ^ 20) (hcount : count * 8 ≤ maxBytes) (g : Generator) :
    ∃ regions g', layout count radius g = .ok (regions, g') ∧ regions.length = count := by
  obtain ⟨reach, hreach, hr⟩ := exists_coordinate (n := radius.toInt + 1) (by omega) (by omega)
  obtain ⟨extent, hextent, he⟩ := exists_coordinate (n := reach.toInt * 16) (by omega) (by omega)
  obtain ⟨regions, g', hparcels, hlength⟩ := exists_parcels extent (by omega) (by omega) 0 []
    count g
  refine ⟨regions, g', ?_, hlength.trans (Nat.zero_add count)⟩
  simp only [layout, bind_of_ok hreach, bind_of_ok hextent, bind_of_ok (room_ok hcount)]
  exact hparcels

/-! ## queries -/

theorem exists_pointsWithin (min max : Int32) (h : min.toInt ≤ max.toInt) (before : List Block)
    (hbefore : ∀ p ∈ before, (min.toInt ≤ p.x.toInt ∧ p.x.toInt ≤ max.toInt) ∧
      min.toInt ≤ p.z.toInt ∧ p.z.toInt ≤ max.toInt) (count : Nat) (g : Generator) :
    ∃ points g', pointsWithin min max before count g = .ok (points, g') ∧
      points.length = before.length + count ∧
      ∀ p ∈ points, (min.toInt ≤ p.x.toInt ∧ p.x.toInt ≤ max.toInt) ∧
        min.toInt ≤ p.z.toInt ∧ p.z.toInt ≤ max.toInt := by
  induction count generalizing before g with
  | zero =>
    exact ⟨_, _, rfl, List.length_reverse, fun p hp => hbefore p (List.mem_reverse.mp hp)⟩
  | succ count ih =>
    obtain ⟨x, g₁, hx, hx'⟩ := exists_draw g min max h
    obtain ⟨y, g₂, hy, -⟩ := exists_draw g₁ (-16) 336 (by decide)
    obtain ⟨z, g₃, hz, hz'⟩ := exists_draw g₂ min max h
    obtain ⟨points, g₄, hpoints, hlength, hall⟩ := ih (⟨x, y, z⟩ :: before) (by
      intro p hp
      rcases List.mem_cons.mp hp with rfl | hp
      · exact ⟨hx', hz'⟩
      · exact hbefore p hp) g₃
    refine ⟨points, g₄, ?_, ?_, hall⟩
    · simp only [pointsWithin, bind_of_ok hx, bind_of_ok hy, bind_of_ok hz]
      exact hpoints
    · rw [hlength, List.length_cons]
      omega

/-- the columns of a square, by how far they are from its middle -/
theorem exists_columnSquare {radius : Int32} (h₁ : 0 ≤ radius.toInt) :
    ∃ columns, columnSquare radius = .ok columns ∧ columns.Nodup ∧
      columns.length = (2 * radius.toInt.toNat + 1) ^ 2 ∧
      ∀ column, column ∈ columns ↔
        (-radius.toInt ≤ column.x.toInt ∧ column.x.toInt ≤ radius.toInt) ∧
          -radius.toInt ≤ column.z.toInt ∧ column.z.toInt ≤ radius.toInt := by
  have hr := Int32.toInt_lt radius
  obtain ⟨opposite, hopposite, ho⟩ := exists_coordinate (n := -radius.toInt) (by omega) (by omega)
  have hspan : Box.span opposite radius = 2 * radius.toInt.toNat + 1 := by
    rw [Box.span]
    omega
  have hnodup := Box.nodup_ticks opposite radius
  refine ⟨(Box.ticks opposite radius).flatMap fun x =>
    (Box.ticks opposite radius).map fun z => ⟨x, z⟩, ?_, ?_, ?_, fun column => ?_⟩
  · simp only [columnSquare, bind_of_ok hopposite]
    rfl
  · -- rows do not meet, and no column is in one row twice
    refine List.nodup_flatMap.mpr ⟨fun x _ => hnodup.map fun z z' he => (Column.mk.inj he).2, ?_⟩
    refine hnodup.imp fun {x x'} hne => ?_
    intro column hmem hmem'
    obtain ⟨z, -, rfl⟩ := List.mem_map.mp hmem
    obtain ⟨z', -, he⟩ := List.mem_map.mp hmem'
    exact hne (Column.mk.inj he).1.symm
  · simp only [List.length_flatMap, List.length_map, Box.length_ticks, hspan, List.map_const',
      List.sum_replicate, smul_eq_mul, sq]
  · simp only [List.mem_flatMap, List.mem_map, Box.mem_ticks, ho]
    constructor
    · rintro ⟨x, hx, z, hz, rfl⟩
      exact ⟨hx, hz⟩
    · rintro ⟨hx, hz⟩
      exact ⟨column.x, hx, column.z, hz, rfl⟩

/-- **As many blocks as were asked for, each in a column of the square.** -/
theorem exists_queryPoints {count : Nat} {radius : Int32} (h₁ : 0 ≤ radius.toInt)
    (h₂ : radius.toInt ≤ 2 ^ 20) (hcount : count * 12 ≤ maxBytes) (g : Generator)
    {columns : List Column} (hcolumns : columnSquare radius = .ok columns) :
    ∃ points g', queryPoints count radius g = .ok (points, g') ∧ points.length = count ∧
      ∀ p ∈ points, p.column ∈ columns := by
  obtain ⟨opposite, hopposite, ho⟩ := exists_coordinate (n := -radius.toInt) (by omega) (by omega)
  obtain ⟨min, hmin, hmin'⟩ := exists_coordinate (n := opposite.toInt * 16) (by omega) (by omega)
  obtain ⟨reach, hreach, hr⟩ := exists_coordinate (n := radius.toInt + 1) (by omega) (by omega)
  obtain ⟨extent, hextent, he⟩ := exists_coordinate (n := reach.toInt * 16) (by omega) (by omega)
  obtain ⟨max, hmax, hmax'⟩ := exists_coordinate (n := extent.toInt - 1) (by omega) (by omega)
  obtain ⟨points, g', hpoints, hlength, hall⟩ := exists_pointsWithin min max (by omega) []
    nofun count g
  refine ⟨points, g', ?_, hlength.trans (Nat.zero_add count), fun p hp => ?_⟩
  · simp only [queryPoints, bind_of_ok hopposite, bind_of_ok hmin, bind_of_ok hreach,
      bind_of_ok hextent, bind_of_ok hmax, bind_of_ok (room_ok hcount)]
    exact hpoints
  · obtain ⟨square, hsquare, -, -, hmem⟩ := exists_columnSquare h₁
    cases hcolumns.symm.trans hsquare
    obtain ⟨hx, hz⟩ := hall p hp
    rw [hmem]
    show (_ ≤ (p.x >>> columnShift).toInt ∧ (p.x >>> columnShift).toInt ≤ _) ∧
      _ ≤ (p.z >>> columnShift).toInt ∧ (p.z >>> columnShift).toInt ≤ _
    rw [toInt_shiftRight, toInt_shiftRight]
    omega

end Probe
end Precinct
