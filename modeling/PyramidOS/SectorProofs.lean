import Mathlib.Data.List.GetD
import Mathlib.Data.List.Range

/-! # Runs of sectors

    A disk as a function from sector numbers to contents, and what a transfer of
    consecutive sectors delivers.

    * `sectors c lba n` — the contents of `n` sectors from `lba` on;
    * `sectors_getD` — where an element of them comes from;
    * `overwrite` and `sectorOf` — a file written into an image, and the sectors of one. -/

namespace SectorRun

variable {α : Type} {c : Nat → List α} {lba n size k : Nat} {d : α}

/-- The sectors from LBA `lba` on, `n` of them. -/
def sectors (c : Nat → List α) (lba n : Nat) : List α :=
  (List.range n).flatMap fun i => c (lba + i)

theorem sectors_succ (c : Nat → List α) (lba n : Nat) :
    sectors c lba (n + 1) = c lba ++ sectors c (lba + 1) n := by
  rw [sectors, List.range_succ_eq_map, List.flatMap_cons, List.flatMap_map, sectors]
  congr 1
  refine List.flatMap_congr fun i _ => ?_
  rw [Nat.add_right_comm lba 1 i]
  rfl

theorem sectors_add (c : Nat → List α) (lba n k : Nat) :
    sectors c lba (n + k) = sectors c lba n ++ sectors c (lba + n) k := by
  induction n generalizing lba with
  | zero => rw [Nat.zero_add, Nat.add_zero]; rfl
  | succ n ih =>
      rw [Nat.add_right_comm n 1 k, sectors_succ, sectors_succ, ih, List.append_assoc,
        show lba + 1 + n = lba + (n + 1) by omega]

theorem length_sectors (hsize : ∀ i, (c i).length = size) (lba n : Nat) :
    (sectors c lba n).length = size * n := by
  induction n generalizing lba with
  | zero => rfl
  | succ n ih =>
      rw [sectors_succ, List.length_append, hsize, ih, Nat.mul_succ, Nat.add_comm]

/-- Element `k` of the run is element `k % size` of sector `k / size`. -/
theorem sectors_getD (hsize : ∀ i, (c i).length = size) (hk : k < size * n) :
    (sectors c lba n).getD k d = (c (lba + k / size)).getD (k % size) d := by
  induction n generalizing lba k with
  | zero => exact absurd hk (Nat.not_lt_zero k)
  | succ n ih =>
      rw [sectors_succ]
      rcases Nat.lt_or_ge k size with hlt | hge
      · rw [List.getD_append _ _ _ _ (by rw [hsize]; exact hlt), Nat.div_eq_of_lt hlt,
          Nat.mod_eq_of_lt hlt, Nat.add_zero]
      · have hpos : 0 < size := by
          rcases Nat.eq_zero_or_pos size with h0 | h
          · rw [h0, Nat.zero_mul] at hk
            exact absurd hk (Nat.not_lt_zero k)
          · exact h
        have hrest : k - size < size * n := by
          rw [Nat.mul_succ] at hk
          omega
        rw [List.getD_append_right _ _ _ _ (by rw [hsize]; exact hge), hsize, ih hrest,
          Nat.mod_eq_sub_mod hge, Nat.div_eq_sub_div hpos hge,
          show lba + 1 + (k - size) / size = lba + ((k - size) / size + 1) by omega]

/-! ## Images -/

/-- `file` written over `image` from element `at` on. -/
def overwrite (image : List α) (start : Nat) (file : List α) : List α :=
  image.take start ++ file ++ image.drop (start + file.length)

/-- Sector `lba` of an image, filled up with `d`. -/
def sectorOf (d : α) (size : Nat) (image : List α) (lba : Nat) : List α :=
  (List.range size).map fun i => image.getD (size * lba + i) d

variable {image file : List α} {start i : Nat}

theorem length_overwrite (h : start ≤ image.length) :
    (overwrite image start file).length = max image.length (start + file.length) := by
  rw [overwrite, List.length_append, List.length_append, List.length_take, List.length_drop]
  omega

/-- **INSIDE** the file, the file; elsewhere the image as it was. -/
theorem overwrite_getD (h : start ≤ image.length) :
    (overwrite image start file).getD i d
      = if start ≤ i ∧ i < start + file.length then file.getD (i - start) d
        else image.getD i d := by
  have hlen : (image.take start).length = start := List.length_take_of_le h
  rw [overwrite, List.append_assoc]
  rcases Nat.lt_or_ge i start with hlow | hge
  · rw [if_neg (by omega), List.getD_append _ _ _ _ (by omega), List.getD_eq_getElem?_getD,
      List.getElem?_take_of_lt hlow, ← List.getD_eq_getElem?_getD]
  · rw [List.getD_append_right _ _ _ _ (by omega), hlen]
    by_cases hfile : i < start + file.length
    · rw [if_pos ⟨hge, hfile⟩, List.getD_append _ _ _ _ (by omega)]
    · rw [if_neg fun h => hfile h.2, List.getD_append_right _ _ _ _ (by omega),
        List.getD_eq_getElem?_getD, List.getElem?_drop, List.getD_eq_getElem?_getD]
      congr 2
      omega

theorem length_sectorOf (image : List α) (lba : Nat) :
    (sectorOf d size image lba).length = size := by
  rw [sectorOf, List.length_map, List.length_range]

theorem sectorOf_getD (hi : i < size) :
    (sectorOf d size image lba).getD i d = image.getD (size * lba + i) d := by
  rw [sectorOf, List.getD_eq_getElem?_getD, List.getElem?_map, List.getElem?_range hi]
  rfl

/-- Two sectors are equal when their elements are. -/
theorem sectorOf_eq (hlen : file.length = size)
    (h : ∀ i, i < size → image.getD (size * lba + i) d = file.getD i d) :
    sectorOf d size image lba = file := by
  refine List.ext_getElem ((length_sectorOf image lba).trans hlen.symm) fun i hi hi' => ?_
  have hsize : i < size := hlen ▸ hi'
  rw [← List.getD_eq_getElem _ d hi, ← List.getD_eq_getElem _ d hi', sectorOf_getD hsize, h i hsize]

end SectorRun
