import Mathlib
import Precinct.Grid

/-!
# A sparse map over columns is a map over columns

* `Column.unpack_pack`   packing keeps a column, whatever the signs of its halves;
* `Column.pack_unpack`   and every number is a packed column;
* `Grid.get?_insert`, `Grid.get?_remove`  hence columns that differ do not disturb each other;
* `Grid.mem_keys`, `Grid.nodup_keys`  and each column with a value is one key.
-/

namespace Precinct
open Std (ExtTreeMap)

/-! ## packing -/

/-- the two halves of a packed column, one above the other -/
theorem Column.toNat_pack (c : Column) :
    c.pack.toNat = c.x.toUInt32.toNat * 2 ^ 32 + c.z.toUInt32.toNat := by
  have hx := c.x.toUInt32.toNat_lt
  have hz := c.z.toUInt32.toNat_lt
  have hshift : (c.x.toUInt32.toNat <<< 32) % 2 ^ 64 = c.x.toUInt32.toNat <<< 32 := by
    rw [Nat.shiftLeft_eq]
    exact Nat.mod_eq_of_lt (by omega)
  have hhigh : (c.x.toUInt32.toUInt64 <<< 32).toNat = c.x.toUInt32.toNat <<< 32 := hshift
  rw [Column.pack, UInt64.toNat_or, hhigh, ← Nat.shiftLeft_eq, UInt32.toNat_toUInt64]
  exact (Nat.shiftLeft_add_eq_or_of_lt hz _).symm

theorem Column.unpack_pack (c : Column) : Column.unpack c.pack = c := by
  have hx := c.x.toUInt32.toNat_lt
  have hz := c.z.toUInt32.toNat_lt
  have hhigh : (c.pack >>> 32).toUInt32 = c.x.toUInt32 := by
    rw [← UInt32.toNat_inj, UInt64.toNat_toUInt32]
    have h : (c.pack >>> 32).toNat = c.pack.toNat >>> 32 := rfl
    rw [h, Column.toNat_pack, Nat.shiftRight_eq_div_pow]
    omega
  have hlow : c.pack.toUInt32 = c.z.toUInt32 := by
    rw [← UInt32.toNat_inj, UInt64.toNat_toUInt32, Column.toNat_pack]
    omega
  rw [Column.unpack, hhigh, hlow, Int32.toInt32_toUInt32, Int32.toInt32_toUInt32]

theorem Column.pack_unpack (key : UInt64) : (Column.unpack key).pack = key := by
  have hkey := key.toNat_lt
  have hhigh : (key >>> 32).toNat = key.toNat >>> 32 := rfl
  rw [← UInt64.toNat_inj, Column.toNat_pack, Column.unpack]
  simp only [UInt32.toUInt32_toInt32, UInt64.toNat_toUInt32, hhigh, Nat.shiftRight_eq_div_pow]
  omega

theorem Column.pack_inj {c d : Column} : c.pack = d.pack ↔ c = d := by
  constructor
  · intro h
    rw [← Column.unpack_pack c, h, Column.unpack_pack]
  · rintro rfl
    rfl

namespace Grid
variable {V : Type}

/-! ## the map -/

theorem get?_empty (c : Column) : ({} : Grid V).get? c = none := ExtTreeMap.getElem?_empty

theorem get?_insert (g : Grid V) (c d : Column) (v : V) :
    (g.insert c v).2.get? d = if c = d then some v else g.get? d := by
  show (g.cells.insert c.pack v)[d.pack]? = _
  rw [ExtTreeMap.getElem?_insert]
  simp only [Std.LawfulEqCmp.compare_eq_iff_eq, Column.pack_inj]
  rfl

theorem get?_remove (g : Grid V) (c d : Column) :
    (g.remove c).2.get? d = if c = d then none else g.get? d := by
  show (g.cells.erase c.pack)[d.pack]? = _
  rw [ExtTreeMap.getElem?_erase]
  simp only [Std.LawfulEqCmp.compare_eq_iff_eq, Column.pack_inj]
  rfl

/-- a column without a value may be removed -/
theorem remove_of_get? {g : Grid V} {c : Column} (h : g.get? c = none) : (g.remove c).2 = g := by
  show (⟨g.cells.erase c.pack⟩ : Grid V) = g
  congr 1
  refine ExtTreeMap.ext_getElem? fun key => ?_
  rw [ExtTreeMap.getElem?_erase]
  split
  · rename_i hkey
    rw [← Std.LawfulEqCmp.eq_of_compare hkey]
    exact h.symm
  · rfl

theorem size_empty : ({} : Grid V).size = 0 := ExtTreeMap.size_empty

theorem get?_of_size_eq_zero {g : Grid V} (h : g.size = 0) (c : Column) : g.get? c = none := by
  rw [get?, ExtTreeMap.eq_empty_iff_size_eq_zero.mpr h]
  exact ExtTreeMap.getElem?_empty

theorem size_insert (g : Grid V) (c : Column) (v : V) (h : g.get? c = none) :
    (g.insert c v).2.size = g.size + 1 := by
  show (g.cells.insert c.pack v).size = _
  rw [ExtTreeMap.size_insert, if_neg]
  · rfl
  · rw [ExtTreeMap.contains_eq_isSome_getElem?, show g.cells[c.pack]? = none from h]
    exact Bool.false_ne_true

theorem size_remove (g : Grid V) (c : Column) :
    (g.remove c).2.size = if (g.get? c).isSome then g.size - 1 else g.size := by
  show (g.cells.erase c.pack).size = _
  rw [ExtTreeMap.size_erase, ExtTreeMap.contains_eq_isSome_getElem?]
  rfl

/-! ## keys -/

theorem mem_keys (g : Grid V) (c : Column) : c ∈ g.keys ↔ (g.get? c).isSome = true := by
  have hkey : c.pack ∈ g.cells.keys ↔ (g.get? c).isSome = true := by
    rw [ExtTreeMap.mem_keys, ExtTreeMap.mem_iff_isSome_getElem?]
    rfl
  rw [← hkey, keys, List.mem_map]
  constructor
  · rintro ⟨key, hk, rfl⟩
    rw [Column.pack_unpack]
    exact hk
  · exact fun h => ⟨c.pack, h, Column.unpack_pack c⟩

theorem nodup_keys (g : Grid V) : g.keys.Nodup :=
  ExtTreeMap.nodup_keys.map fun a b h => by rw [← Column.pack_unpack a, h, Column.pack_unpack]

theorem contains_eq (g : Grid V) (c : Column) : g.contains c = (g.get? c).isSome :=
  ExtTreeMap.contains_eq_isSome_getElem?

end Grid
end Precinct
