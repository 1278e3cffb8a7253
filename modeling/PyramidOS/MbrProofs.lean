import PyramidOS.DeviceProofs

/-! # Partition discovery

    `mbr.c`: the four entries of the partition table become block devices, each
    with a context of its own, both on the kernel heap.  `mbrReadU32Le_eq` and
    `mbrBuildPartitionName_fits` say what the two helpers compute. -/

namespace PyramidMbr

open ByteMem PyramidString PyramidKernel PyramidHeap PyramidBlock BlockTiling

/-! ## The table -/

/-- `MBR_SECTOR_SIZE`. -/
def mbrSectorSize : Nat := 512

/-- `MBR_SIGNATURE_OFFSET`. -/
def mbrSignatureOffset : Nat := 510

/-- `MBR_PARTITION_TABLE_OFFSET`. -/
def mbrPartitionTableOffset : Nat := 446

/-- `MBR_PARTITION_ENTRY_SIZE`. -/
def mbrPartitionEntrySize : Nat := 16

/-- `MBR_PARTITION_COUNT`. -/
def mbrPartitionCount : Nat := 4

/-- The partition types of `mbr.c`. -/
def mbrPartTypeEmpty : Nat := 0x00
def mbrPartTypeExtendedChs : Nat := 0x05
def mbrPartTypeExtendedLba : Nat := 0x0F

/-- The return codes of `mbr.c`. -/
def mbrOk : Nat := 0
def mbrErrInvalidParam : Nat := 1
def mbrErrIo : Nat := 2
def mbrErrBadSignature : Nat := 3
def mbrErrNoSpace : Nat := 4
def mbrErrNotSupported : Nat := 5

/-- `sizeof(MbrPartitionCtx)`. -/
def sizeofMbrPartitionCtx : Nat := 12

/-- `ctx->parent`. -/
def ctxParent (m : Mem) (ctx : Nat) : Nat := m.load32 ctx

/-- `ctx->base_lba`. -/
def ctxBaseLba (m : Mem) (ctx : Nat) : Nat := m.load32 (ctx + 4)

/-- `ctx->sector_count`. -/
def ctxSectorCount (m : Mem) (ctx : Nat) : Nat := m.load32 (ctx + 8)

/-- `mbr_read_u32_le`. -/
def mbrReadU32Le (bytes : List Byte) (off : Nat) : Nat :=
  (bytes.getD off 0).toNat
    ||| (bytes.getD (off + 1) 0).toNat <<< 8
    ||| (bytes.getD (off + 2) 0).toNat <<< 16
    ||| (bytes.getD (off + 3) 0).toNat <<< 24

/-- `mbr_build_partition_name`, into the buffer at `outName`. -/
def mbrBuildPartitionName (m : Mem) (outName : Nat) (diskName : List UInt8) (partIndex : Nat) :
    Nat × Mem :=
  if outName = 0 then (mbrErrInvalidParam, m)
  else if partIndex = 0 ∨ partIndex > 9 then (mbrErrInvalidParam, m)
  else
    let m := memset m outName 0 blockNameMax
    let baseLen := u32 (strlen diskName)
    if u32 (baseLen + 3) > blockNameMax then (mbrErrNoSpace, m)
    else
      let m := m.storeBytes outName
        ((List.range baseLen).map fun i => (charAt diskName i).toBitVec)
      let m := m.store8 (outName + baseLen) 0x70
      let m := m.store8 (outName + baseLen + 1) (BitVec.ofNat 8 (0x30 + partIndex))
      (mbrOk, m.store8 (outName + baseLen + 2) 0)

/-! ## The scan -/

/-- The disk's name, or `disk->name` when the caller passes NULL. -/
def mbrDiskName (m : Mem) (disk : Nat) (diskName : Option (List UInt8)) : List UInt8 :=
  diskName.getD (devName m disk)

/-- The three fields of a context. -/
def mbrSetCtx (m : Mem) (ctx disk lbaStart lbaCount : Nat) : Mem :=
  ((m.store32 ctx disk).store32 (ctx + 4) lbaStart).store32 (ctx + 8) lbaCount

/-- The fields of a partition's device other than its name. -/
def mbrSetDevice (D : Drivers) (m : Mem) (pdev disk ctx : Nat) : Mem :=
  let m := m.store32 (pdev + 32) (devSectorSize m disk)
  let m := m.store32 (pdev + 36) ctx
  let m := m.store32 (pdev + 40) D.mbrPartitionRead.toNat
  m.store32 (pdev + 44) D.mbrPartitionWrite.toNat

/-- `kfree(ctx); kfree(pdev);`. -/
def mbrFree (heap : Heap) (ctx pdev : Nat) : Except Halt Heap := do
  let heap ← kfree heap ctx
  kfree heap pdev

/-- What the loop does with entry `i` once it is accepted: `none` is `continue` or
    the end of the body, `some` the code returned. -/
def mbrAddPartition (D : Drivers) (s : Storage) (disk : Nat) (diskName : Option (List UInt8))
    (i lbaStart lbaCount : Nat) : Except Halt (Option Nat × Storage) := do
  let (pdev, heap) ← kmalloc s.heap sizeofBlockDevice
  if pdev = 0 then .ok (some mbrErrNoSpace, { s with heap := heap })
  else do
    let (ctx, heap) ← kmalloc heap sizeofMbrPartitionCtx
    if ctx = 0 then do
      let heap ← kfree heap pdev
      .ok (some mbrErrNoSpace, { s with heap := heap })
    else
      let m := mbrSetCtx heap.mem ctx disk lbaStart lbaCount
      let m := memset m pdev 0 blockNameMax
      let (rc, m) := mbrBuildPartitionName m pdev (mbrDiskName m disk diskName) (i + 1)
      if rc ≠ mbrOk then do
        let heap ← mbrFree { heap with mem := m } ctx pdev
        .ok (none, { s with heap := heap })
      else
        let m := mbrSetDevice D m pdev disk ctx
        let (rc, r) := blockRegister (registryAt D m s.devices) (UInt32.ofNat pdev)
        if rc ≠ blockSuccess then do
          let heap ← mbrFree { heap with mem := m } ctx pdev
          .ok (some mbrErrNoSpace, { s with heap := heap })
        else .ok (none, { s with heap := { heap with mem := m }, devices := r.devices })

/-- The loop of `mbr_scan_and_register`, from entry `i` on. -/
def mbrScanLoop (D : Drivers) (mbr : List Byte) (disk : Nat) (diskName : Option (List UInt8)) :
    Nat → Nat → Storage → Except Halt (Nat × Storage)
  | 0, _, s => .ok (mbrOk, s)
  | n + 1, i, s =>
      let entryOff := mbrPartitionTableOffset + i * mbrPartitionEntrySize
      let partType := (mbr.getD (entryOff + 4) 0).toNat
      let lbaStart := mbrReadU32Le mbr (entryOff + 8)
      let lbaCount := mbrReadU32Le mbr (entryOff + 12)
      if partType = mbrPartTypeEmpty ∨ lbaCount = 0 then mbrScanLoop D mbr disk diskName n (i + 1) s
      else if partType = mbrPartTypeExtendedChs ∨ partType = mbrPartTypeExtendedLba then
        mbrScanLoop D mbr disk diskName n (i + 1) s
      else do
        let (rc, s) ← mbrAddPartition D s disk diskName i lbaStart lbaCount
        match rc with
        | some rc => .ok (rc, s)
        | none => mbrScanLoop D mbr disk diskName n (i + 1) s

/-- `mbr_scan_and_register`. -/
def mbrScanAndRegister (D : Drivers) (s : Storage) (disk : Nat)
    (diskName : Option (List UInt8)) : Except Halt (Nat × Storage) :=
  if disk = 0 ∨ devRead s.mem disk = 0 then .ok (mbrErrInvalidParam, s)
  else if charAt (mbrDiskName s.mem disk diskName) 0 = 0 then .ok (mbrErrInvalidParam, s)
  else if devSectorSize s.mem disk ≠ mbrSectorSize then .ok (mbrErrNotSupported, s)
  else
    let reply := D.reply (devRead s.mem disk) disk s.reads 0
    let s := { s with reads := s.reads + 1 }
    if ¬ reply.ok then .ok (mbrErrIo, s)
    else
      let mbr := reply.bytes
      if mbr.getD mbrSignatureOffset 0 ≠ 0x55 ∨ mbr.getD (mbrSignatureOffset + 1) 0 ≠ 0xAA then
        .ok (mbrErrBadSignature, s)
      else mbrScanLoop D mbr disk diskName mbrPartitionCount 0 s

/-! ## Reading an entry -/

/-- **`mbr_read_u32_le`** reads a little-endian field. -/
theorem mbrReadU32Le_eq (bytes : List Byte) (off : Nat) :
    mbrReadU32Le bytes off = le32 bytes off := by
  have h0 := (bytes.getD off 0).isLt
  have h1 := (bytes.getD (off + 1) 0).isLt
  have h2 := (bytes.getD (off + 2) 0).isLt
  rw [mbrReadU32Le, le32]
  generalize (bytes.getD off 0).toNat = b0 at h0 ⊢
  generalize (bytes.getD (off + 1) 0).toNat = b1 at h1 ⊢
  generalize (bytes.getD (off + 2) 0).toNat = b2 at h2 ⊢
  generalize (bytes.getD (off + 3) 0).toNat = b3
  have hlow : b0 ||| b1 <<< 8 = b0 + 256 * b1 := by
    rw [Nat.or_comm, ← Nat.shiftLeft_add_eq_or_of_lt h0, Nat.shiftLeft_eq]
    omega
  have hmid : b0 + 256 * b1 ||| b2 <<< 16 = b0 + 256 * b1 + 65536 * b2 := by
    rw [Nat.or_comm, ← Nat.shiftLeft_add_eq_or_of_lt (by omega), Nat.shiftLeft_eq]
    omega
  rw [hlow, hmid, Nat.or_comm, ← Nat.shiftLeft_add_eq_or_of_lt (by omega), Nat.shiftLeft_eq]
  omega

/-! ## Building a name -/

/-- The name of partition `i` (from 0) of a disk. -/
def partitionName (diskName : List UInt8) (i : Nat) : List UInt8 :=
  text diskName ++ [0x70, UInt8.ofNat (0x31 + i)]

variable {m : Mem} {out i k : Nat} {diskName : List UInt8}

@[simp] theorem partitionName_text (s : List UInt8) (i : Nat) :
    partitionName (text s) i = partitionName s i := by
  rw [partitionName, partitionName, text_text]

theorem partitionName_length :
    (partitionName diskName i).length = (text diskName).length + 2 := by
  rw [partitionName, List.length_append]
  rfl

theorem charAt_partitionName (hk : k < (text diskName).length) :
    charAt (partitionName diskName i) k = charAt diskName k := by
  rw [← charAt_text (Nat.le_of_lt hk)]
  exact List.getD_append _ _ _ _ hk

theorem charAt_partitionName_letter :
    charAt (partitionName diskName i) (text diskName).length = 0x70 := by
  rw [partitionName, charAt, List.getD_append_right _ _ _ _ (Nat.le_refl _), Nat.sub_self]
  rfl

theorem charAt_partitionName_digit :
    charAt (partitionName diskName i) ((text diskName).length + 1) = UInt8.ofNat (0x31 + i) := by
  have hlast : (text diskName).length + 1 - (text diskName).length = 1 := Nat.add_sub_cancel_left ..
  rw [partitionName, charAt, List.getD_append_right _ _ _ _ (Nat.le_succ _)]
  exact congrArg (List.getD _ · 0) hlast

theorem partitionName_ne_zero (hi : i < 9) : ∀ a ∈ partitionName diskName i, a ≠ 0 := by
  intro a ha
  rcases List.mem_append.mp ha with hold | hnew
  · exact text_ne_zero hold
  · rcases List.mem_pair.mp hnew with rfl | rfl
    · decide
    · intro hc
      have hval := congrArg UInt8.toNat hc
      rw [UInt8.toNat_ofNat', Nat.mod_eq_of_lt (by omega)] at hval
      exact absurd hval (by simp)

/-- The loop that copies the disk's name. -/
theorem byte_copyName (n : Nat) (hk : k < n) :
    (m.storeBytes out ((List.range n).map fun i => (charAt diskName i).toBitVec)).byte (out + k)
      = (charAt diskName k).toBitVec := by
  have hlen : ((List.range n).map fun i => (charAt diskName i).toBitVec).length = n := by
    rw [List.length_map, List.length_range]
  rw [byte_storeBytes, if_pos (by omega), Nat.add_sub_cancel_left]
  simp [List.getD_eq_getElem?_getD, hk]

/-- **`mbr_build_partition_name`**, for a disk name that fits: the buffer holds the
    partition's name. -/
theorem mbrBuildPartitionName_fits (m : Mem) (hout : out ≠ 0) (hi : i < 9)
    (hlen : (text diskName).length ≤ 29) :
    ∃ m', mbrBuildPartitionName m out diskName (i + 1) = (mbrOk, m')
      ∧ WritesIn (InRange (out, blockNameMax)) m m'
      ∧ text (stringAt m' out) = partitionName diskName i := by
  have hbase : u32 (strlen diskName) = (text diskName).length := by
    rw [strlen_eq]
    exact Nat.mod_eq_of_lt (by omega)
  have hroom : ¬ u32 ((text diskName).length + 3) > blockNameMax := by
    rw [u32, Nat.mod_eq_of_lt (by omega), blockNameMax]
    omega
  have hin : ∀ k, k < 32 → InRange (out, blockNameMax) (out + k) := fun k hk => inRange_add hk
  have hvalue : BitVec.ofNat 8 (0x30 + (i + 1)) = (UInt8.ofNat (0x31 + i)).toBitVec := by
    rw [show 0x30 + (i + 1) = 0x31 + i by omega]
    rfl
  rw [mbrBuildPartitionName, if_neg hout, if_neg (by omega)]
  simp only [hbase, if_neg hroom]
  refine ⟨_, rfl, ?_, text_charsFrom_of_bytes (partitionName_ne_zero hi) ?_ (fun k hk => ?_) ?_⟩
  · refine ((((WritesIn.refl _ _).memset fun k hk => hin k hk).storeBytes fun k hk => ?_).store8
      _ (hin _ (by omega))).store8 _ ?_ |>.store8 _ ?_
    · rw [List.length_map, List.length_range] at hk
      exact hin k (by omega)
    · rw [Nat.add_assoc]
      exact hin _ (by omega)
    · rw [Nat.add_assoc]
      exact hin _ (by omega)
  · rw [partitionName_length]
    omega
  · rw [partitionName_length] at hk
    rw [byte_store8_ne (by omega)]
    by_cases hdigit : k = (text diskName).length + 1
    · rw [hdigit, charAt_partitionName_digit, ← hvalue]
      exact byte_store8_self _ (out + (text diskName).length + 1) _
    rw [byte_store8_ne (by omega)]
    by_cases hletter : k = (text diskName).length
    · rw [hletter, charAt_partitionName_letter, byte_store8_self]
      rfl
    · have hchar : k < (text diskName).length := by omega
      rw [byte_store8_ne (by omega), byte_copyName _ hchar, charAt_partitionName hchar]
  · rw [partitionName_length]
    exact byte_store8_self _ _ _

/-- For a longer name it fails, with the buffer cleared. -/
theorem mbrBuildPartitionName_long (m : Mem) (hout : out ≠ 0) (hi : i < 9)
    (hlen : 29 < (text diskName).length) (hsmall : (text diskName).length < 2 ^ 32 - 3) :
    mbrBuildPartitionName m out diskName (i + 1)
      = (mbrErrNoSpace, memset m out 0 blockNameMax) := by
  have hbase : u32 (strlen diskName) = (text diskName).length := by
    rw [strlen_eq]
    exact Nat.mod_eq_of_lt (by omega)
  have hfull : u32 ((text diskName).length + 3) > blockNameMax := by
    rw [u32, Nat.mod_eq_of_lt (by omega), blockNameMax]
    omega
  rw [mbrBuildPartitionName, if_neg hout, if_neg (by omega)]
  simp only [hbase]
  exact if_pos hfull

end PyramidMbr
