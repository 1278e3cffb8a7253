import PyramidOS.ByteMemoryProofs
import PyramidOS.StringProofs

/-! # Block devices

    `block.c`, the registry of block devices, and what a device is to the code
    above it: a driver behind a function pointer, which answers each read as it
    likes.  Every driver of the repository moves 512-byte sectors.

    * `Reply` — one answer: success with a whole sector, or failure after part
      of one was stored;
    * `Blocks` — a registry that satisfies what `block_register` checks
      (`blockRegister_valid`). -/

namespace PyramidBlock

open ByteMem PyramidString

/-- The return codes of `block.h`. -/
def blockSuccess : Nat := 0
def blockError : Nat := 1
def blockBusy : Nat := 2

/-- `BLOCK_MAX_DEVICES`. -/
def blockMaxDevices : Nat := 8

/-- A driver's answer to a read: `bytes` were stored from the start of the
    buffer on. -/
structure Reply where
  ok : Bool
  bytes : List Byte
  fits : bytes.length ≤ 512
  full : ok = true → bytes.length = 512

/-- `BlockDevice`.  `read` gets the number of reads made before, so that a
    device may answer differently each time, and the LBA. -/
structure BlockDevice where
  name : List UInt8
  sectorSize : Nat
  read : Option (Nat → Nat → Reply)

/-- The `BlockDevice` at each address, and `g_devices` up to `g_device_count`. -/
structure Registry where
  device : Nat → BlockDevice
  devices : List Nat

/-- `block_init`. -/
def blockInit (r : Registry) : Registry := { r with devices := [] }

/-- `block_register`. -/
def blockRegister (r : Registry) (dev : UInt32) : Nat × Registry :=
  let dev := dev.toNat
  if dev = 0 then (blockError, r)
  else if charAt (r.device dev).name 0 = 0 then (blockError, r)
  else if (r.device dev).sectorSize = 0 then (blockError, r)
  else if (r.device dev).read.isNone then (blockError, r)
  else if r.devices.length ≥ blockMaxDevices then (blockBusy, r)
  else if r.devices.any fun p => strcmp (r.device p).name (r.device dev).name == 0 then
    (blockError, r)
  else (blockSuccess, { r with devices := r.devices ++ [dev] })

/-- `block_count`. -/
def blockCount (r : Registry) : Nat := r.devices.length

/-- `block_get`: 0 for NULL. -/
def blockGet (r : Registry) (index : Nat) : Nat :=
  if index ≥ blockCount r then 0 else r.devices.getD index 0

/-- `block_get_by_name`: 0 for NULL. -/
def blockGetByName (r : Registry) (name : List UInt8) : Nat :=
  (r.devices.find? fun p => strcmp (r.device p).name name == 0).getD 0

/-- What `block_register` checks of a device. -/
structure Registered (r : Registry) (dev : Nat) : Prop where
  nonNull : dev ≠ 0
  pointer : dev < 2 ^ 32
  named : text (r.device dev).name ≠ []
  sectorSize : (r.device dev).sectorSize ≠ 0
  readable : (r.device dev).read ≠ none

/-- **THE REGISTRY INVARIANT**: at most 8 checked devices, with different names. -/
structure Registry.Valid (r : Registry) : Prop where
  registered : ∀ dev ∈ r.devices, Registered r dev
  names : r.devices.Pairwise fun p q => text (r.device p).name ≠ text (r.device q).name
  room : r.devices.length ≤ blockMaxDevices

/-- A registry with its invariant. -/
structure Blocks extends Registry where
  valid : toRegistry.Valid

theorem blockInit_valid (r : Registry) : (blockInit r).Valid :=
  ⟨fun _ hdev => (nomatch hdev), List.Pairwise.nil, Nat.zero_le _⟩

/-- What `block_register` asks of a device before it takes it. -/
structure Registrable (r : Registry) (dev : Nat) : Prop where
  nonNull : dev ≠ 0
  named : text (r.device dev).name ≠ []
  sectorSize : (r.device dev).sectorSize ≠ 0
  readable : (r.device dev).read ≠ none
  room : r.devices.length < blockMaxDevices
  fresh : ∀ p ∈ r.devices, text (r.device p).name ≠ text (r.device dev).name

/-- **`block_register`** appends the device, or refuses it and changes nothing. -/
theorem blockRegister_cases (r : Registry) (dev : UInt32) :
    (Registrable r dev.toNat
      ∧ blockRegister r dev = (blockSuccess, { r with devices := r.devices ++ [dev.toNat] }))
    ∨ (¬ Registrable r dev.toNat
      ∧ ∃ rc, rc ≠ blockSuccess ∧ blockRegister r dev = (rc, r)) := by
  rw [blockRegister]
  by_cases hnull : dev.toNat = 0
  · exact Or.inr ⟨fun h => h.nonNull hnull, blockError, by decide, if_pos hnull⟩
  rw [if_neg hnull]
  by_cases hname : charAt (r.device dev.toNat).name 0 = 0
  · refine Or.inr ⟨fun h => h.named ?_, blockError, by decide, if_pos hname⟩
    exact charAt_zero_eq_zero_iff.mp hname
  rw [if_neg hname]
  by_cases hsize : (r.device dev.toNat).sectorSize = 0
  · exact Or.inr ⟨fun h => h.sectorSize hsize, blockError, by decide, if_pos hsize⟩
  rw [if_neg hsize]
  by_cases hread : (r.device dev.toNat).read.isNone = true
  · refine Or.inr ⟨fun h => h.readable ?_, blockError, by decide, if_pos hread⟩
    exact Option.isNone_iff_eq_none.mp hread
  rw [if_neg hread]
  by_cases hfull : r.devices.length ≥ blockMaxDevices
  · exact Or.inr ⟨fun h => Nat.not_le.mpr h.room hfull, blockBusy, by decide, if_pos hfull⟩
  rw [if_neg hfull]
  by_cases hdup : (r.devices.any fun p =>
      strcmp (r.device p).name (r.device dev.toNat).name == 0) = true
  · refine Or.inr ⟨fun h => ?_, blockError, by decide, if_pos hdup⟩
    obtain ⟨p, hp, heq⟩ := List.any_eq_true.mp hdup
    exact h.fresh p hp ((strcmp_eq_zero_iff _ _).mp (beq_iff_eq.mp heq))
  · rw [if_neg hdup]
    refine Or.inl ⟨⟨hnull, fun hc => hname (charAt_zero_eq_zero_iff.mpr hc), hsize,
      fun hc => hread (Option.isNone_iff_eq_none.mpr hc), Nat.not_le.mp hfull, ?_⟩, rfl⟩
    intro p hp heq
    refine hdup (List.any_eq_true.mpr ⟨p, hp, ?_⟩)
    exact beq_iff_eq.mpr ((strcmp_eq_zero_iff _ _).mpr heq)

/-- **`block_register`** keeps the invariant. -/
theorem blockRegister_valid {r : Registry} (h : r.Valid) (dev : UInt32) :
    (blockRegister r dev).2.Valid := by
  rcases blockRegister_cases r dev with ⟨hdev, heq⟩ | ⟨-, rc, -, heq⟩
  · rw [heq]
    refine ⟨fun q hq => ?_, ?_, ?_⟩
    · rcases List.mem_append.mp hq with hold | hnew
      · exact ⟨(h.registered q hold).nonNull, (h.registered q hold).pointer,
          (h.registered q hold).named, (h.registered q hold).sectorSize,
          (h.registered q hold).readable⟩
      · rw [List.mem_singleton.mp hnew]
        exact ⟨hdev.nonNull, dev.toNat_lt, hdev.named, hdev.sectorSize, hdev.readable⟩
    · refine List.pairwise_append.mpr ⟨h.names, List.pairwise_singleton _ _, ?_⟩
      rintro p hp q hq
      rw [List.mem_singleton.mp hq]
      exact hdev.fresh p hp
    · rw [List.length_append, List.length_singleton]
      exact hdev.room
  · rw [heq]
    exact h

/-- The device appended last is at the old count. -/
theorem blockGet_append (r : Registry) (p : Nat) :
    blockGet { r with devices := r.devices ++ [p] } (blockCount r) = p := by
  have hlt : ¬ blockCount r ≥ blockCount { r with devices := r.devices ++ [p] } := by
    rw [blockCount, blockCount, List.length_append, List.length_singleton]
    exact Nat.not_le.mpr (Nat.lt_succ_self _)
  rw [blockGet, if_neg hlt, blockCount]
  simp

/-- A device found by name is registered. -/
theorem blockGetByName_registered {r : Registry} (h : r.Valid) {name : List UInt8}
    (hne : blockGetByName r name ≠ 0) : Registered r (blockGetByName r name) := by
  rw [blockGetByName] at hne ⊢
  cases hfind : r.devices.find? fun p => strcmp (r.device p).name name == 0 with
  | none =>
    rw [hfind] at hne
    exact absurd rfl hne
  | some p => exact h.registered p (List.mem_of_find?_eq_some hfind)

end PyramidBlock
