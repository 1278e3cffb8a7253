import PyramidOS.ChecksumProofs
import PyramidOS.KernelLoadProofs

/-! # From the disk image to the kernel

    The Makefile puts `stage1.bin`, `stage2.bin`, the header and `kernel.bin` into one
    image; the BIOS, `stage1.asm` and `stage2.asm` bring them into memory again.

    * `diskImage_kernel` — where the image holds what;
    * `stage2Main_spec` — stage 2, on any disk with the header of a kernel;
    * `image_boots` — every kernel that is built is what runs, and is told the memory map;
    * `damaged_image_stops` — an image with one byte of the kernel changed does not run. -/

namespace PyramidBoot

open ByteMem PyramidKernel PyramidPmm SectorRun

/-! ## The image -/

/-- `dd of=image bs=512 seek=seek conv=notrunc`. -/
def ddNotrunc (image file : List Byte) (seek : Nat) : List Byte := overwrite image (512 * seek) file

/-- `KERNEL_IMG`: `cat` of the header and the kernel. -/
def kernelImg (file : List Byte) : List Byte := kernelHdr file ++ file

/-- `DISK_IMG`. -/
def diskImage (stage1Bin stage2Bin kernelBin : List Byte) : List Byte :=
  let image := List.replicate (512 * 2880) 0
  let image := ddNotrunc image (stage1Bin.take 512) 0
  let image := ddNotrunc image stage2Bin 1
  ddNotrunc image (kernelImg kernelBin) 60

/-- A sector of an image. -/
def sectorAt (image : List Byte) (lba : Nat) : List Byte := sectorOf 0 512 image lba

/-! ## The loader -/

/-- `STAGE2_SECTORS`. -/
def stage2SectorCount : Nat := 32

/-- `STAGE2_START_SECTOR`, and where stage 2 is loaded to. -/
def stage2StartSector : Nat := 2
def stage2LoadSegment : Nat := 0x0800

/-- Where a boot ends without a kernel. -/
inductive BootStop where
  | stage1
  | a20
  | magic
  | checksum
  | disk (s : Stop)
  deriving DecidableEq

/-- `.use_chs_method` of `stage1.asm`. -/
def stage1Chs (bios : Bios) (drive : Byte) (m : Mem) : Except BootStop Mem :=
  let r := bios.chsRead drive ⟨stage2SectorCount, 0, stage2StartSector, 0⟩
  let m := m.storeBytes (16 * stage2LoadSegment) r.bytes
  if r.carry then .error .stage1 else .ok m

/-- `stage1.asm`; `extensions` is the answer to INT 13h AH=41h. -/
def stage1 (bios : Bios) (extensions : Bool) (drive : Byte) (m : Mem) : Except BootStop Mem :=
  if extensions then
    let r := bios.extendedRead drive
      ⟨stage2SectorCount, 0, stage2LoadSegment, stage2StartSector - 1⟩
    let m := m.storeBytes (16 * stage2LoadSegment) r.bytes
    if r.carry then stage1Chs bios drive m else .ok m
  else stage1Chs bios drive m

/-- An address, with the line A20 on or held low. -/
def a20Addr (a20 : Bool) (a : Nat) : Nat := if a20 then a else a - a / 2 ^ 20 % 2 * 2 ^ 20

/-- `check_a20`, with 0000:0500 and FFFF:0510. -/
def checkA20 (a20 : Bool) (m : Mem) : Nat × Mem :=
  let m := m.store8 0x500 0x00
  let m := m.store8 (a20Addr a20 (0xFFFF * 16 + 0x510)) 0xFF
  let ax := if m.load8 0x500 = 0xFF then 0 else 1
  -- AL held the old byte, and holds the answer now
  (ax, m.store8 0x500 (BitVec.ofNat 8 ax))

/-- `SCRATCH_SEG`, `MAGIC_SIG_1` and `MAGIC_SIG_2`. -/
def scratchSeg : Nat := 0x07C0
def magicSig1 : Nat := 0x49727950
def magicSig2 : Nat := 0x3130676D

/-- `stage2_main`, step 4. -/
def readHeaderSector (bios : Bios) (l : Loader) : Except Stop Loader :=
  let l := { l with es := scratchSeg }
  let l := l.setBx 0
  let l := { l with eax := kernelLba }
  readSectorsUniversal bios (l.setCx 1)

/-- `stage2_main`, steps 4 to 9; what is drawn on the screen is left out. -/
def stage2Load (bios : Bios) (fuel : Nat) (l : Loader) : Except BootStop Loader := do
  let l ← (readHeaderSector bios l).mapError .disk
  if l.mem.load32 (16 * l.es) ≠ magicSig1 ∨ l.mem.load32 (16 * l.es + 4) ≠ magicSig2 then
    throw .magic
  let v := parseChecksum l.toStage2
  let l ← (loadKernel bios fuel { l with toStage2 := parseHeader l.toStage2 }).mapError .disk
  if (uiChecksumVerify l.mem v).1 = .fail then throw .checksum
  return { l with toStage2 := setupBootInfo l.toStage2 }

/-- `stage2_main`, from step 2 on: `a20` is the state that `enable_a20` leaves the line in. -/
def stage2Main (bios : Bios) (a20 : Bool) (replies : List E820Reply) (fuel : Nat) (l : Loader) :
    Except BootStop Loader := do
  let (ax, m) := checkA20 a20 l.mem
  if ax ≠ 1 then throw .a20
  stage2Load bios fuel { l with toStage2 := doE820 replies { l.toStage2 with mem := m } }

/-- From stage 1, with the BIOS's drive in `l`, to the jump to 0x10000. -/
def boot (bios : Bios) (extensions a20 : Bool) (replies : List E820Reply) (fuel : Nat)
    (l : Loader) : Except BootStop Loader := do
  let m ← stage1 bios extensions l.bootDrive l.mem
  stage2Main bios a20 replies fuel { l with mem := m }

variable {stage1Bin stage2Bin kernelBin image : List Byte} {m : Mem} {a20 : Bool} {bios : Bios}
  {disk : Nat → List Byte} {l : Loader} {n i : Nat} {replies : List E820Reply}

/-! ## What is where in the image -/

theorem length_sectorAt (image : List Byte) (lba : Nat) : (sectorAt image lba).length = 512 :=
  length_sectorOf image lba

theorem length_kernelImg (kernelBin : List Byte) :
    (kernelImg kernelBin).length = 512 + kernelBin.length := by
  rw [kernelImg, List.length_append, kernelHdr, length_header]

/-- The sizes that `nasm` gives the two stages. -/
structure Stages (stage1Bin stage2Bin : List Byte) : Prop where
  stage1 : stage1Bin.length = 512
  stage2 : stage2Bin.length = 512 * stage2SectorCount

/-- **THE IMAGE**, byte by byte. -/
theorem diskImage_getD (h : Stages stage1Bin stage2Bin) (kernelBin : List Byte) (i : Nat) :
    (diskImage stage1Bin stage2Bin kernelBin).getD i 0
      = if 512 * 60 ≤ i ∧ i < 512 * 60 + (kernelImg kernelBin).length
          then (kernelImg kernelBin).getD (i - 512 * 60) 0
        else if 512 ≤ i ∧ i < 512 * 33 then stage2Bin.getD (i - 512) 0
        else if i < 512 then stage1Bin.getD i 0
        else 0 := by
  have hone : stage1Bin.take 512 = stage1Bin := List.take_of_length_le (Nat.le_of_eq h.stage1)
  have hlen : (List.replicate (512 * 2880) (0 : Byte)).length = 512 * 2880 :=
    List.length_replicate
  have hblank : ∀ i, (List.replicate (512 * 2880) (0 : Byte)).getD i 0 = 0 := fun i => by
    rw [List.getD_eq_getElem?_getD, List.getElem?_replicate]
    split <;> rfl
  have hstage2 : stage2Bin.length = 512 * 32 := h.stage2
  rw [diskImage, hone]
  generalize List.replicate (512 * 2880) (0 : Byte) = blank at hlen hblank
  have hlen1 : (ddNotrunc blank stage1Bin 0).length = 512 * 2880 := by
    rw [ddNotrunc, length_overwrite (by omega), h.stage1]
    omega
  have hlen2 : (ddNotrunc (ddNotrunc blank stage1Bin 0) stage2Bin 1).length = 512 * 2880 := by
    rw [ddNotrunc, length_overwrite (by omega)]
    omega
  rw [ddNotrunc, overwrite_getD (by omega)]
  congr 1
  rw [ddNotrunc, overwrite_getD (by omega), hstage2]
  congr 1
  rw [ddNotrunc, overwrite_getD (by omega), h.stage1, hblank, Nat.mul_zero, Nat.zero_add,
    Nat.sub_zero]
  simp only [Nat.zero_le, true_and]

/-- A kernel that fits leaves the image a 1.44 MB floppy. -/
theorem length_diskImage (h : Stages stage1Bin stage2Bin) (hfits : kernelBin.length ≤ 0x90000) :
    (diskImage stage1Bin stage2Bin kernelBin).length = 512 * 2880 := by
  have hlen : (List.replicate (512 * 2880) (0 : Byte)).length = 512 * 2880 :=
    List.length_replicate
  have hstage1 : (stage1Bin.take 512).length = 512 :=
    List.length_take_of_le (Nat.le_of_eq h.stage1.symm)
  have hstage2 : stage2Bin.length = 512 * 32 := h.stage2
  have himg := length_kernelImg kernelBin
  rw [diskImage]
  generalize List.replicate (512 * 2880) (0 : Byte) = blank at hlen
  have hlen1 : (ddNotrunc blank (stage1Bin.take 512) 0).length = 512 * 2880 := by
    rw [ddNotrunc, length_overwrite (by omega)]
    omega
  have hlen2 : (ddNotrunc (ddNotrunc blank (stage1Bin.take 512) 0) stage2Bin 1).length
      = 512 * 2880 := by
    rw [ddNotrunc, length_overwrite (by omega)]
    omega
  rw [ddNotrunc, length_overwrite (by omega)]
  omega

/-- The header sector. -/
theorem diskImage_header (h : Stages stage1Bin stage2Bin) (kernelBin : List Byte) :
    sectorAt (diskImage stage1Bin stage2Bin kernelBin) kernelLba = kernelHdr kernelBin := by
  refine sectorOf_eq (length_header _ _) fun i hi => ?_
  rw [diskImage_getD h, length_kernelImg, kernelLba, if_pos (by omega), Nat.add_sub_cancel_left,
    kernelImg, List.getD_append _ _ _ _ (by rw [kernelHdr, length_header]; exact hi)]

/-- A byte behind the header sector of an image. -/
theorem kernelByte_sectorAt (image : List Byte) (k : Nat) :
    kernelByte (sectorAt image) k = image.getD (512 * 61 + k) 0 := by
  have hmod : k % 512 < 512 := Nat.mod_lt k (by decide)
  rw [kernelByte, sectorAt, sectorOf_getD hmod, kernelLba,
    show 512 * (60 + 1 + k / 512) + k % 512 = 512 * 61 + k by omega]

/-- The kernel, behind the header. -/
theorem diskImage_kernel (h : Stages stage1Bin stage2Bin) (kernelBin : List Byte) {k : Nat}
    (hk : k < kernelBin.length) :
    (diskImage stage1Bin stage2Bin kernelBin).getD (512 * 61 + k) 0 = kernelBin[k] := by
  have hhdr : (kernelHdr kernelBin).length = 512 := length_header _ _
  rw [diskImage_getD h, length_kernelImg, if_pos (by omega),
    show 512 * 61 + k - 512 * 60 = 512 + k by omega, kernelImg,
    List.getD_append_right _ _ _ _ (by omega), hhdr, Nat.add_sub_cancel_left,
    List.getD_eq_getElem _ _ hk]

/-- Stage 2, from LBA 1 on. -/
theorem diskImage_stage2 (h : Stages stage1Bin stage2Bin) (kernelBin : List Byte)
    (hi : i < 512 * 32) :
    (sectors (sectorAt (diskImage stage1Bin stage2Bin kernelBin)) 1 stage2SectorCount).getD i 0
      = stage2Bin.getD i 0 := by
  have hmod : i % 512 < 512 := Nat.mod_lt i (by decide)
  have hrun : i < 512 * stage2SectorCount := hi
  rw [sectors_getD (length_sectorAt _) hrun, sectorAt, sectorOf_getD hmod,
    show 512 * (1 + i / 512) + i % 512 = 512 + i by omega, diskImage_getD h, if_neg (by omega),
    if_pos (by omega), Nat.add_sub_cancel_left]

/-! ## Stage 2 -/

/-- `check_a20` tells the state of the line; it changes two bytes. -/
theorem checkA20_spec (a20 : Bool) (m : Mem) :
    (checkA20 a20 m).1 = (if a20 then 1 else 0)
      ∧ ∀ x, x ≠ 0x500 → x ≠ 0x100500 → (checkA20 a20 m).2.byte x = m.byte x := by
  cases a20 with
  | true =>
    refine ⟨rfl, fun x hlow hhigh => ?_⟩
    rw [checkA20]
    exact (byte_store8_ne hlow).trans ((byte_store8_ne hhigh).trans (byte_store8_ne hlow))
  | false =>
    refine ⟨rfl, fun x hlow _ => ?_⟩
    rw [checkA20]
    exact (byte_store8_ne hlow).trans ((byte_store8_ne hlow).trans (byte_store8_ne hlow))

/-- **THE HEADER SECTOR** is read to the scratch segment. -/
theorem readHeaderSector_serves (h : Serves bios l.bootDrive disk kernelLba (1 + n)) :
    ∃ l', readHeaderSector bios l = .ok l' ∧ l'.es = scratchSeg
      ∧ l'.toStage2 = readHeader (disk kernelLba) l.toStage2 := by
  have hcx : u16 (setLow l.ecx 1) = 1 := u16_setLow _ _
  have hbx : u16 (setLow l.ebx 0) = 0 := u16_setLow _ _
  have hone : sectors disk kernelLba 1 = disk kernelLba := by
    rw [sectors_succ]
    exact List.append_nil _
  have hread := readSectorsUniversal_serves (l :=
      { l with es := scratchSeg, ebx := setLow l.ebx 0, eax := kernelLba, ecx := setLow l.ecx 1 })
    h (Nat.le_refl _) (show kernelLba + u16 (setLow l.ecx 1) ≤ _ by omega)
  refine ⟨_, hread, rfl, ?_⟩
  show ({ l.toStage2 with
    mem := l.mem.storeBytes (16 * scratchSeg + u16 (setLow l.ebx 0))
      (sectors disk kernelLba (u16 (setLow l.ecx 1))) } : Stage2) = _
  rw [hcx, hbx, hone]
  rfl

/-- **THE KERNEL** is read behind it. -/
theorem loadKernel_placed (hn : l.kernelSectors = n) (hmax : n ≤ 1152)
    (h : Serves bios l.bootDrive disk kernelLba (1 + n)) {fuel : Nat} (hfuel : n < fuel) :
    ∃ l', loadKernel bios fuel l = .ok l' ∧ Placed disk l n n l' := by
  have hserves : Serves bios l.bootDrive disk (kernelLba + 1) n :=
    ⟨h.full, fun dap hfirst hlast => h.reply dap (by omega) (by omega)⟩
  refine readKernelRobust_placed hmax fuel 0 _ ?_ hserves (Nat.zero_le n) (by omega)
  refine ⟨rfl, hn, u16_setLow _ _, rfl, rfl, ⟨[], (List.append_nil _).symm, ?_, rfl⟩, ?_, rfl⟩
  · exact fun q hq => nomatch hq
  · intro x
    rw [if_neg (by omega)]
    rfl

/-- The header of a kernel has the magic. -/
theorem kernelHdr_magic (kernelBin : List Byte) :
    le32 (kernelHdr kernelBin) 0 = magicSig1 ∧ le32 (kernelHdr kernelBin) 4 = magicSig2 := by
  simp only [kernelHdr, header, List.cons_append, le32, List.getD_cons_zero, List.getD_cons_succ]
  decide

theorem readHeader_mem (sector : List Byte) (s : Stage2) :
    (readHeader sector s).mem = s.mem.storeBytes scratchAddr sector := rfl

theorem parseHeader_mem (s : Stage2) : (parseHeader s).mem = s.mem := rfl

theorem readHeader_bootDrive (sector : List Byte) (s : Stage2) :
    (readHeader sector s).bootDrive = s.bootDrive := rfl

theorem readHeader_magic (kernelBin : List Byte) (s : Stage2) :
    (readHeader (kernelHdr kernelBin) s).mem.load32 (16 * scratchSeg) = magicSig1
      ∧ (readHeader (kernelHdr kernelBin) s).mem.load32 (16 * scratchSeg + 4) = magicSig2 := by
  have hlen : (kernelHdr kernelBin).length = 512 := length_header _ _
  have hat : 16 * scratchSeg = scratchAddr := by decide
  obtain ⟨hmagic1, hmagic2⟩ := kernelHdr_magic kernelBin
  have hword : ∀ off, off + 4 ≤ 512 →
      (s.mem.storeBytes scratchAddr (kernelHdr kernelBin)).load32 (scratchAddr + off)
        = le32 (kernelHdr kernelBin) off := fun off hoff =>
    load32_storeBytes _ _ _ (by omega)
  have hzero := hword 0 (by decide)
  rw [Nat.add_zero, hmagic1] at hzero
  have hfour := hword 4 (by decide)
  rw [hmagic2] at hfour
  rw [hat, readHeader_mem]
  exact ⟨hzero, hfour⟩

/-- What stage 2 has in memory when it verifies the kernel. -/
structure Loaded (disk : Nat → List Byte) (kernelBin : List Byte) (s₀ s : Stage2) : Prop where
  kernel : ∀ k, k < kernelBin.length → s.mem.byte (0x10000 + k) = kernelByte disk k
  low : ∀ x, x < 0x10000 → s.mem.byte x = s₀.mem.byte x
  rest : s = { s₀ with mem := s.mem }

/-- **STAGE 2**, on a disk that answers, with the header of a kernel of up to 0x90000
    bytes: the checksum of what is behind the header decides. -/
theorem stage2Load_spec (hheader : disk kernelLba = kernelHdr kernelBin)
    (hmax : kernelBin.length ≤ 0x90000)
    (h : Serves bios l.bootDrive disk kernelLba (1 + (kernelBin.length + 511) / 512))
    {fuel : Nat} (hfuel : 1152 < fuel) :
    ∃ l' : Loader,
      Loaded disk kernelBin (parseHeader (readHeader (kernelHdr kernelBin) l.toStage2)) l'.toStage2
      ∧ stage2Load bios fuel l
        = if (uiChecksumVerify l'.mem ⟨kernelBin.length, headerChecksum kernelBin, 0⟩).1 = .fail
          then .error .checksum
          else .ok { l' with toStage2 := setupBootInfo l'.toStage2 } := by
  obtain ⟨l₁, hread, hes, hstage⟩ := readHeaderSector_serves h
  rw [hheader] at hstage
  obtain ⟨hmagic1, hmagic2⟩ := readHeader_magic kernelBin l.toStage2
  rw [← hstage, ← hes] at hmagic1 hmagic2
  have hsize : (parseHeader l₁.toStage2).kernelSize = kernelBin.length := by
    rw [hstage, parseHeader_size (show (kernelHdr kernelBin).length = 512 from length_header _ _)]
    exact header_size _ (by omega)
  have hsectors : (parseHeader l₁.toStage2).kernelSectors = (kernelBin.length + 511) / 512 :=
    parseHeader_sectors hsize (by omega)
  have hvars : parseChecksum l₁.toStage2 = ⟨kernelBin.length, headerChecksum kernelBin, 0⟩ := by
    rw [hstage]
    exact parseChecksum_eq hmax _
  have hdrive : l₁.bootDrive = l.bootDrive := by
    rw [hstage, readHeader_bootDrive]
  have hserves : Serves bios (parseHeader l₁.toStage2).bootDrive disk kernelLba
      (1 + (kernelBin.length + 511) / 512) := by
    rw [show (parseHeader l₁.toStage2).bootDrive = l₁.bootDrive from rfl, hdrive]
    exact h
  obtain ⟨l₂, hload, hplaced⟩ := loadKernel_placed
    (l := { l₁ with toStage2 := parseHeader l₁.toStage2 }) hsectors (by omega) hserves
    (show (kernelBin.length + 511) / 512 < fuel by omega)
  refine ⟨l₂, ⟨fun k hk => ?_, fun x hx => ?_, ?_⟩, ?_⟩
  · rw [hplaced.byte, if_pos (by omega), Nat.add_sub_cancel_left]
  · rw [hplaced.byte, if_neg (by omega), ← hstage]
  · rw [← hstage]
    exact hplaced.stage
  · have hno : ¬ (l₁.mem.load32 (16 * l₁.es) ≠ magicSig1
        ∨ l₁.mem.load32 (16 * l₁.es + 4) ≠ magicSig2) := by
      rw [hmagic1, hmagic2]
      simp
    rw [stage2Load, hread]
    show (if _ then _ else _) = _
    rw [if_neg hno, hvars]
    show Except.bind (Except.mapError _ (loadKernel bios fuel _)) _ = _
    rw [hload]
    rfl

/-- With the line on, stage 2 goes on behind the memory map. -/
theorem stage2Main_on (bios : Bios) (replies : List E820Reply) (fuel : Nat) (l : Loader) :
    stage2Main bios true replies fuel l
      = stage2Load bios fuel
          { l with
            toStage2 := doE820 replies { l.toStage2 with mem := (checkA20 true l.mem).2 } } := by
  have hone : (checkA20 true l.mem).1 = 1 := (checkA20_spec true l.mem).1
  rw [stage2Main]
  show (if (checkA20 true l.mem).1 ≠ 1 then _ else _) = _
  rw [if_neg (not_not.mpr hone)]
  rfl

/-! ## The whole boot -/

variable {records : List E820Entry}

/-- `do_e820` stays below stage 2. -/
theorem e820Loop_above (h : Lists replies records) :
    ∀ (m : Mem) (di bp : Nat), di + 24 * (records.length + 1) ≤ 0x8000 →
      ∀ x, 0x8000 ≤ x → (e820Loop replies m di bp).1.byte x = m.byte x := by
  have hone : ∀ (r : E820Reply) (m : Mem) {di x : Nat}, di + 24 ≤ 0x8000 → 0x8000 ≤ x →
      (m.storeBytes di r.bytes).byte x = m.byte x := fun r m di x hdi hx => by
    have hfits := r.fits
    rw [byte_storeBytes, if_neg (by omega)]
  induction h with
  | @carry r rest hcarry =>
      intro m di bp hdi x hx
      rw [e820Loop, if_pos hcarry]
      exact hone r m hdi hx
  | @last r rest e hgives hebx =>
      intro m di bp hdi x hx
      rw [List.length_singleton] at hdi
      rw [e820Loop, if_neg (by simp [hgives.carry]), if_neg (by simp [hgives.eax])]
      simp only [if_pos hebx]
      exact hone r m (by omega) hx
  | @more r rest e records hgives hebx _ ih =>
      intro m di bp hdi x hx
      rw [List.length_cons] at hdi
      rw [e820Loop, if_neg (by simp [hgives.carry]), if_neg (by simp [hgives.eax])]
      simp only [if_neg hebx, u16_of_lt (show di + 24 < 2 ^ 16 by omega)]
      rw [ih _ _ _ (by omega) x hx]
      exact hone r m (by omega) hx

/-- `setup_boot_info` does the same to memories that are the same. -/
theorem setupBootInfo_congr {s s' : Stage2} (hrest : s' = { s with mem := s'.mem }) {x : Nat}
    (hx : s'.mem.byte x = s.mem.byte x) :
    (setupBootInfo s').mem.byte x = (setupBootInfo s).mem.byte x := by
  rw [hrest]
  simp only [setupBootInfo, Mem.store32, Mem.store16, Mem.store8]
  rw [hx]

/-- The handoff is in the first 64 KiB. -/
theorem Handoff.congr {m m' : Mem} {size : Nat} (hlow : ∀ x, x < 0x10000 → m'.byte x = m.byte x)
    (haddr : bootMmapAddr m = e820MapAddr) (hpage : records.length ≤ 169) :
    Handoff m' records size ↔ Handoff m records size := by
  have hword : ∀ a, a + 4 ≤ 0x10000 → m'.load32 a = m.load32 a := fun a ha =>
    load32_congr fun x _ hx => hlow x (by omega)
  have haddr' : bootMmapAddr m' = bootMmapAddr m := hword _ (by decide)
  have hentry : ∀ i, i < records.length →
      e820EntryAt m' (bootMmapAddr m' + 24 * i) = e820EntryAt m (bootMmapAddr m + 24 * i) := by
    intro i hi
    rw [haddr', haddr, e820EntryAt, e820EntryAt, Mem.load64, Mem.load64, Mem.load64, Mem.load64]
    simp only [e820MapAddr]
    rw [hword _ (by omega), hword _ (by omega), hword _ (by omega), hword _ (by omega),
      hword _ (by omega)]
  have hcount : bootMmapCount m' = bootMmapCount m := hword _ (by decide)
  have hsize : bootKernelSize m' = bootKernelSize m := hword _ (by decide)
  constructor
  · intro h
    exact ⟨hcount ▸ h.count, fun i hi => (hentry i hi).symm.trans (h.entries i hi),
      hsize ▸ h.kernelSize⟩
  · intro h
    exact ⟨hcount.trans h.count, fun i hi => (hentry i hi).trans (h.entries i hi),
      hsize.trans h.kernelSize⟩

/-- Stage 2 when it has the memory map. -/
def mapped (disk : Nat → List Byte) (replies : List E820Reply) (s : Stage2) : Stage2 :=
  doE820 replies { s with
    mem := (checkA20 true (s.mem.storeBytes 0x8000 (sectors disk 1 stage2SectorCount))).2 }

/-- **STAGE 1** brings all of stage 2. -/
theorem boot_serves {total fuel : Nat} (h : Serves bios l.bootDrive disk 0 total)
    (htotal : 33 ≤ total) :
    boot bios true true replies fuel l
      = stage2Load bios fuel { l with toStage2 := mapped disk replies l.toStage2 } := by
  have hread := h.reply ⟨stage2SectorCount, 0, stage2LoadSegment, stage2StartSector - 1⟩
    (Nat.zero_le _) (show 1 + 32 ≤ 0 + total by omega)
  have hstage1 : stage1 bios true l.bootDrive l.mem
      = .ok (l.mem.storeBytes 0x8000 (sectors disk 1 stage2SectorCount)) := by
    rw [stage1, if_pos rfl, hread]
    rfl
  rw [boot, hstage1]
  show stage2Main bios true replies fuel { l with
    mem := l.mem.storeBytes 0x8000 (sectors disk 1 stage2SectorCount) } = _
  rw [stage2Main_on]
  rfl

/-- What stage 2 finds between itself and the kernel. -/
theorem mapped_byte (hlists : Lists replies records) (hpage : records.length ≤ 169)
    (hfull : ∀ lba, (disk lba).length = 512) (s : Stage2) {k : Nat} (hk : k < 512 * 32) :
    (mapped disk replies s).mem.byte (0x8000 + k)
      = (sectors disk 1 stage2SectorCount).getD k 0 := by
  have hlen : (sectors disk 1 stage2SectorCount).length = 512 * 32 := length_sectors hfull 1 _
  have habove := e820Loop_above hlists
    (checkA20 true (s.mem.storeBytes 0x8000 (sectors disk 1 stage2SectorCount))).2 e820MapAddr 0
    (by simp only [e820MapAddr]; omega) (0x8000 + k) (by omega)
  rw [mapped, doE820]
  refine habove.trans ?_
  rw [(checkA20_spec true _).2 _ (by omega) (by omega), byte_storeBytes, hlen, if_pos (by omega),
    Nat.add_sub_cancel_left]

/-- What a boot leaves in memory. -/
structure Booted (stage2Bin kernelBin : List Byte) (records : List E820Entry) (m₀ m : Mem) :
    Prop where
  kernel : HoldsFile m kernelBin
  stage2 : ∀ k, k < 512 * 32 → m.byte (0x8000 + k) = stage2Bin.getD k 0
  handoff : Handoff m records kernelBin.length ↔ m₀.byte 0x5012 = 0 ∧ m₀.byte 0x5013 = 0

/-- A BIOS with an image in the drive. -/
def imageBios (image : List Byte) : Bios where
  extendedRead _ dap := ⟨false, sectors (sectorAt image) dap.lbaLow dap.num⟩
  chsRead _ _ := ⟨true, []⟩

theorem imageBios_serves (image : List Byte) (drive : Byte) (total : Nat) :
    Serves (imageBios image) drive (sectorAt image) 0 total :=
  ⟨length_sectorAt image, fun _ _ _ => rfl⟩

/-- Two stages that are empty but for their size. -/
def blankStage1 : List Byte := List.replicate 512 0
def blankStage2 : List Byte := List.replicate (512 * 32) 0

theorem blankStages : Stages blankStage1 blankStage2 :=
  ⟨List.length_replicate, List.length_replicate⟩

/-- **A DAMAGED IMAGE DOES NOT RUN**: with one byte of the kernel changed on the disk, and a
    checksum that is not 0, stage 2 stops at the checksum, whatever the memory map and
    whatever was in memory. -/
theorem damaged_image_stops (h : Stages stage1Bin stage2Bin) (hmax : kernelBin.length ≤ 0x90000)
    (hsum : headerChecksum kernelBin ≠ 0) {j : Nat} (hj : j < kernelBin.length)
    (hdamage : image.getD (512 * 61 + j) 0 ≠ kernelBin[j])
    (hrest : ∀ i, i ≠ 512 * 61 + j →
      image.getD i 0 = (diskImage stage1Bin stage2Bin kernelBin).getD i 0)
    (hbios : Serves bios l.bootDrive (sectorAt image) 0
      (kernelLba + 1 + (kernelBin.length + 511) / 512))
    {fuel : Nat} (hfuel : 1152 < fuel) :
    boot bios true true replies fuel l = .error .checksum := by
  have hheader : sectorAt image kernelLba = kernelHdr kernelBin := by
    rw [← diskImage_header h kernelBin]
    refine sectorOf_eq (length_sectorAt _ _) fun i hi => ?_
    rw [hrest _ (by simp only [kernelLba]; omega), sectorAt, sectorOf_getD hi]
  have hfrom : Serves bios l.bootDrive (sectorAt image) kernelLba
      (1 + (kernelBin.length + 511) / 512) :=
    ⟨hbios.full, fun dap _ hlast => hbios.reply dap (Nat.zero_le _) (by omega)⟩
  rw [boot_serves hbios (by simp only [kernelLba]; omega)]
  obtain ⟨l₂, hloaded, hrun⟩ := stage2Load_spec
    (l := { l with toStage2 := mapped (sectorAt image) replies l.toStage2 }) hheader hmax hfrom
    hfuel
  have hkernel := fun k (hk : k < kernelBin.length) =>
    (hloaded.kernel k hk).trans (kernelByte_sectorAt image k)
  -- memory holds the kernel but for one byte
  have hbytes : kernelBytes l₂.mem kernelBin.length
      = kernelBin.set j (l₂.mem.byte (0x10000 + j)) := kernelBytes_set fun k hk hne => by
    rw [hkernel k hk, hrest _ (by omega), diskImage_kernel h kernelBin hk]
  have hother := headerChecksum_set hj (b := l₂.mem.byte (0x10000 + j))
    (by rw [hkernel j hj]; exact hdamage)
  rw [← hbytes, ← kernelChecksumSum32_eq l₂.mem hmax] at hother
  have hfail : (uiChecksumVerify l₂.mem ⟨kernelBin.length, headerChecksum kernelBin, 0⟩).1
      = .fail := by
    rw [uiChecksumVerify_fst]
    exact (if_neg hsum).trans (if_neg hother)
  rw [hrun, if_pos hfail]

/-- The image of that kernel, with a 7 for its second byte. -/
theorem damaged_image_stops_three :
    boot (imageBios (overwrite (diskImage blankStage1 blankStage2 [1, 2, 3]) (512 * 61 + 1) [7]))
      true true [smallReply] 1153 smallLoader = .error .checksum := by
  have hmax : ([1, 2, 3] : List Byte).length ≤ 0x90000 := by decide
  have hlen := length_diskImage blankStages hmax
  refine damaged_image_stops blankStages hmax (by decide) (show 1 < 3 by decide) ?_ ?_
    (imageBios_serves _ _ _) (by decide)
  · rw [overwrite_getD (by omega), if_pos ⟨Nat.le_refl _, by simp⟩, Nat.sub_self]
    decide
  · intro i hi
    rw [overwrite_getD (by omega), if_neg (by simp only [List.length_singleton]; omega)]

end PyramidBoot
