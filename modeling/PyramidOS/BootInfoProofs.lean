import PyramidOS.PmmProofs

/-! # The boot handoff

    `stage2.asm` gathers the memory map of the BIOS and writes the structure the
    kernel finds at 0x5000.  The assembly stores fields by offset and width; the
    kernel reads them through `BootInfo` and `E820Entry` of `bootinfo.h`.

    * `e820Loop_spec` — what `do_e820` leaves in memory;
    * `boot_handoff_iff` — the kernel reads what the loader gathered exactly when
      two bytes that nobody writes were 0 before. -/

namespace PyramidBoot

open ByteMem PyramidKernel PyramidPmm

/-! ## The loader -/

/-- A 16-bit register. -/
def u16 (x : Nat) : Nat := x % 2 ^ 16

theorem u16_of_lt {x : Nat} (h : x < 2 ^ 16) : u16 x = x := Nat.mod_eq_of_lt h

/-- `BOOT_INFO_ADDR`. -/
def bootInfoAddr : Nat := 0x5000

/-- `E820_MAP_ADDR`. -/
def e820MapAddr : Nat := 0x5020

/-- `SCRATCH_SEG:0`. -/
def scratchAddr : Nat := 0x7C00

def kernelLoadSeg : Nat := 0x1000
def kernelLoadOff : Nat := 0x0000

/-- `'SMAP'`. -/
def smap : Nat := 0x534D4150

/-- Memory, and the variables of `stage2.asm`. -/
structure Stage2 where
  mem : Mem
  bootDrive : Byte
  kernelSize : Nat
  kernelSectors : Nat
  e820EntryCount : Nat

/-- The answer to INT 15h, EAX=E820h: the flags and registers it returns, and what
    it stored at ES:DI.  DI, BP and ES keep their values. -/
structure E820Reply where
  carry : Bool
  eax : Nat
  ebx : Nat
  bytes : List Byte
  fits : bytes.length ≤ 24

/-- The loop of `do_e820` over the answers of the BIOS, from DI and BP on.  After
    the last one the BIOS answers with carry. -/
def e820Loop : List E820Reply → Mem → Nat → Nat → Mem × Nat
  | [], m, _, bp => (m, bp)
  | r :: replies, m, di, bp =>
      let m := m.storeBytes di r.bytes
      if r.carry then (m, bp)
      else if r.eax ≠ smap then (m, bp)
      else
        let di := u16 (di + 24)
        let bp := u16 (bp + 1)
        if r.ebx = 0 then (m, bp) else e820Loop replies m di bp

/-- `do_e820`. -/
def doE820 (replies : List E820Reply) (s : Stage2) : Stage2 :=
  let (m, bp) := e820Loop replies s.mem e820MapAddr 0
  { s with mem := m, e820EntryCount := bp }

/-- `stage2_main`, step 4: the header sector is read to the scratch segment. -/
def readHeader (sector : List Byte) (s : Stage2) : Stage2 :=
  { s with mem := s.mem.storeBytes scratchAddr sector }

/-- `stage2_main`, step 6: the size field of the header, and the sectors of the
    kernel, a 16-bit variable. -/
def parseHeader (s : Stage2) : Stage2 :=
  let size := s.mem.load32 (scratchAddr + 8)
  { s with kernelSize := size, kernelSectors := u16 (u32 (size + 511) / 512) }

/-- `setup_boot_info`. -/
def setupBootInfo (s : Stage2) : Stage2 :=
  let di := bootInfoAddr
  let m := s.mem.store32 di 0x54424F4F
  let m := m.store16 (di + 4) 1
  let m := m.store8 (di + 6) s.bootDrive
  let m := m.store16 (di + 8) kernelLoadSeg
  let m := m.store16 (di + 10) kernelLoadOff
  let m := m.store32 (di + 12) s.kernelSize
  let m := m.store16 (di + 16) s.e820EntryCount
  let m := m.store32 (di + 20) e820MapAddr
  { s with mem := m }

/-! ## The kernel's view -/

/-- `BOOT_INFO_ADDRESS`. -/
def bootInfoAddress : Nat := 0x5000

/-- `boot_info->kernel_size`, `mmap_count` and `mmap_addr`. -/
def bootKernelSize (m : Mem) : Nat := m.load32 (bootInfoAddress + 12)
def bootMmapCount (m : Mem) : Nat := m.load32 (bootInfoAddress + 16)
def bootMmapAddr (m : Mem) : Nat := m.load32 (bootInfoAddress + 20)

/-- The packed `E820Entry` at `a`. -/
def e820EntryAt (m : Mem) (a : Nat) : E820Entry :=
  ⟨UInt64.ofNat (m.load64 a), UInt64.ofNat (m.load64 (a + 8)), UInt32.ofNat (m.load32 (a + 16))⟩

/-- What `pmm_init` reads. -/
def readBootInfo (m : Mem) : BootInfo where
  kernelSize := UInt32.ofNat (bootKernelSize m)
  mmap := (List.range (bootMmapCount m)).map fun i => e820EntryAt m (bootMmapAddr m + 24 * i)

/-- **THE HANDOFF**: the kernel finds the records, in order, and the size. -/
structure Handoff (m : Mem) (records : List E820Entry) (size : Nat) : Prop where
  count : bootMmapCount m = records.length
  entries : ∀ i (h : i < records.length),
    e820EntryAt m (bootMmapAddr m + 24 * i) = records[i]
  kernelSize : bootKernelSize m = size

variable {m : Mem} {s : Stage2} {records : List E820Entry} {replies : List E820Reply}
  {size a di bp : Nat} {e : E820Entry} {r : E820Reply}

/-- The physical memory manager is given the records. -/
theorem Handoff.readBootInfo (h : Handoff m records size) :
    readBootInfo m = ⟨UInt32.ofNat size, records⟩ := by
  rw [PyramidBoot.readBootInfo, h.kernelSize, h.count]
  congr 1
  refine List.ext_getElem (by simp) fun i hi hi' => ?_
  simp only [List.getElem_map, List.getElem_range]
  exact h.entries i hi'

/-! ## The answers of the BIOS -/

/-- Byte `k` of a record, little-endian. -/
def recordByte (e : E820Entry) (k : Nat) : Byte :=
  if k < 8 then byteOf e.base.toNat k
  else if k < 16 then byteOf e.length.toNat (k - 8)
  else byteOf e.type.toNat (k - 16)

/-- The answer is a record, of 20 bytes or with the 4 of ACPI 3.0. -/
structure E820Reply.Gives (r : E820Reply) (e : E820Entry) : Prop where
  carry : r.carry = false
  eax : r.eax = smap
  length : 20 ≤ r.bytes.length
  bytes : ∀ k, k < 20 → r.bytes.getD k 0 = recordByte e k

/-- The answers list the records, up to EBX = 0 or carry. -/
inductive Lists : List E820Reply → List E820Entry → Prop where
  | carry {r : E820Reply} {rest : List E820Reply} (hcarry : r.carry = true) : Lists (r :: rest) []
  | last {r : E820Reply} {rest : List E820Reply} {e : E820Entry} (hgives : r.Gives e)
      (hebx : r.ebx = 0) : Lists (r :: rest) [e]
  | more {r : E820Reply} {rest : List E820Reply} {e : E820Entry} {records : List E820Entry}
      (hgives : r.Gives e) (hebx : r.ebx ≠ 0) (hrest : Lists rest records) :
      Lists (r :: rest) (e :: records)

/-- A record in memory is what the kernel reads. -/
theorem e820EntryAt_eq (h : ∀ k, k < 20 → m.byte (a + k) = recordByte e k) :
    e820EntryAt m a = e := by
  have hbase : m.load64 a = e.base.toNat % 2 ^ 64 := load64_of_bytes fun k hk => by
    rw [h k (by omega), recordByte, if_pos hk]
  have hlength : m.load64 (a + 8) = e.length.toNat % 2 ^ 64 := load64_of_bytes fun k hk => by
    rw [Nat.add_assoc, h (8 + k) (by omega), recordByte, if_neg (by omega), if_pos (by omega),
      Nat.add_sub_cancel_left]
  have htype : m.load32 (a + 16) = e.type.toNat % 2 ^ 32 := load32_of_bytes fun k hk => by
    rw [Nat.add_assoc, h (16 + k) (by omega), recordByte, if_neg (by omega), if_neg (by omega),
      Nat.add_sub_cancel_left]
  rw [e820EntryAt, hbase, hlength, htype, Nat.mod_eq_of_lt e.base.toNat_lt,
    Nat.mod_eq_of_lt e.length.toNat_lt, Nat.mod_eq_of_lt e.type.toNat_lt, UInt64.ofNat_toNat,
    UInt64.ofNat_toNat, UInt32.ofNat_toNat]

theorem E820Reply.Gives.byte (h : r.Gives e) {k : Nat} (hk : k < 20) :
    (m.storeBytes a r.bytes).byte (a + k) = recordByte e k := by
  have hlength := h.length
  rw [byte_storeBytes, if_pos (by omega), Nat.add_sub_cancel_left, h.bytes k hk]

theorem byte_below (r : E820Reply) {x : Nat} (hx : x < a) :
    (m.storeBytes a r.bytes).byte x = m.byte x := by
  rw [byte_storeBytes, if_neg (by omega)]

/-- **`do_e820`**: the records stand one after the other from DI on, BP counts them,
    and below DI nothing changes. -/
theorem e820Loop_spec (h : Lists replies records) :
    ∀ (m : Mem) (di bp : Nat), di + 24 * records.length ≤ 0x6000 →
      bp + records.length < 2 ^ 16 →
    (e820Loop replies m di bp).2 = bp + records.length
    ∧ (∀ i (hi : i < records.length), ∀ k, k < 20 →
      (e820Loop replies m di bp).1.byte (di + 24 * i + k) = recordByte records[i] k)
    ∧ ∀ x, x < di → (e820Loop replies m di bp).1.byte x = m.byte x := by
  induction h with
  | @carry r rest hcarry =>
      intro m di bp _ _
      rw [e820Loop, if_pos hcarry]
      exact ⟨rfl, fun i hi => absurd hi (Nat.not_lt_zero i), fun x hx => byte_below r hx⟩
  | @last r rest e hgives hebx =>
      intro m di bp _ hbp
      rw [e820Loop, if_neg (by simp [hgives.carry]), if_neg (by simp [hgives.eax])]
      simp only [if_pos hebx, List.length_singleton]
      refine ⟨u16_of_lt hbp, ?_, fun x hx => byte_below r hx⟩
      intro i hi k hk
      obtain rfl : i = 0 := by omega
      exact hgives.byte hk
  | @more r rest e records hgives hebx _ ih =>
      intro m di bp hdi hbp
      rw [List.length_cons] at hdi hbp
      rw [e820Loop, if_neg (by simp [hgives.carry]), if_neg (by simp [hgives.eax])]
      simp only [if_neg hebx, u16_of_lt (show di + 24 < 2 ^ 16 by omega),
        u16_of_lt (show bp + 1 < 2 ^ 16 by omega)]
      obtain ⟨hcount, hrecords, hbelow⟩ :=
        ih (m.storeBytes di r.bytes) (di + 24) (bp + 1) (by omega) (by omega)
      refine ⟨by rw [hcount, List.length_cons]; omega, ?_, ?_⟩
      · intro i hi k hk
        cases i with
        | zero =>
            rw [Nat.mul_zero, Nat.add_zero, hbelow _ (by omega)]
            exact hgives.byte hk
        | succ i =>
            have hrest := hrecords i (by simpa using hi) k hk
            rw [show di + 24 * (i + 1) + k = di + 24 + 24 * i + k by omega]
            exact hrest
      · intro x hx
        rw [hbelow x (by omega)]
        exact byte_below r hx

/-! ## The structure at 0x5000 -/

/-- Where `setup_boot_info` does not store, memory keeps its bytes. -/
theorem setupBootInfo_byte {x : Nat} (hx : x < 0x5000 ∨ 0x5018 ≤ x) :
    (setupBootInfo s).mem.byte x = s.mem.byte x := by
  simp only [setupBootInfo, bootInfoAddr]
  rw [byte_store32_outside (by omega), byte_store16_outside (by omega),
    byte_store32_outside (by omega), byte_store16_outside (by omega),
    byte_store16_outside (by omega), byte_store8_ne (by omega), byte_store16_outside (by omega),
    byte_store32_outside (by omega)]

theorem setupBootInfo_kernelSize :
    bootKernelSize (setupBootInfo s).mem = s.kernelSize % 2 ^ 32 := by
  simp only [bootKernelSize, bootInfoAddress, setupBootInfo, bootInfoAddr]
  rw [load32_store32_ne (by omega), load32_store16_ne (by omega), load32_store32_self]

theorem setupBootInfo_mmapAddr : bootMmapAddr (setupBootInfo s).mem = e820MapAddr := by
  simp only [bootMmapAddr, bootInfoAddress, setupBootInfo, bootInfoAddr]
  rw [load32_store32_self]
  rfl

/-- The count is stored as 16 bits into a field of 32: the upper half of the field
    stays what it was. -/
theorem setupBootInfo_mmapCount :
    bootMmapCount (setupBootInfo s).mem = s.e820EntryCount % 2 ^ 16
      + 65536 * (s.mem.byte 0x5012).toNat + 16777216 * (s.mem.byte 0x5013).toNat := by
  simp only [bootMmapCount, bootInfoAddress, setupBootInfo, bootInfoAddr]
  rw [load32_store32_ne (by omega), load32_store16_self]
  have hbyte : ∀ x, 0x5012 ≤ x → x < 0x5014 →
      ((((((s.mem.store32 0x5000 0x54424F4F).store16 (0x5000 + 4) 1).store8 (0x5000 + 6)
        s.bootDrive).store16 (0x5000 + 8) kernelLoadSeg).store16 (0x5000 + 10)
        kernelLoadOff).store32 (0x5000 + 12) s.kernelSize).byte x = s.mem.byte x := by
    intro x hlow hhigh
    rw [byte_store32_outside (by omega), byte_store16_outside (by omega),
      byte_store16_outside (by omega), byte_store8_ne (by omega),
      byte_store16_outside (by omega), byte_store32_outside (by omega)]
  rw [hbyte (0x5000 + 16 + 2) (by omega) (by omega), hbyte (0x5000 + 16 + 3) (by omega) (by omega)]

/-! ## From the BIOS to the kernel -/

/-- The steps of `stage2_main` that gather and write the handoff. -/
def gather (sector : List Byte) (replies : List E820Reply) (s : Stage2) : Stage2 :=
  setupBootInfo (parseHeader (readHeader sector (doE820 replies s)))

variable {sector : List Byte}

/-- The header sector is read far above the structure and the map. -/
theorem readHeader_byte {x : Nat} (hx : x < scratchAddr) :
    (readHeader sector s).mem.byte x = s.mem.byte x := by
  rw [readHeader, byte_storeBytes, if_neg (by omega)]

theorem parseHeader_size (hsector : sector.length = 512) :
    (parseHeader (readHeader sector s)).kernelSize = le32 sector 8 :=
  load32_storeBytes _ _ _ (by omega)

/-- What the kernel finds: everything the loader gathered, and a count with the old
    bytes 0x5012 and 0x5013 on top. -/
theorem gather_spec (hlists : Lists replies records) (hpage : records.length ≤ 169)
    (hsector : sector.length = 512) :
    bootMmapCount (gather sector replies s).mem = records.length
      + 65536 * (s.mem.byte 0x5012).toNat + 16777216 * (s.mem.byte 0x5013).toNat
    ∧ (∀ i (h : i < records.length),
      e820EntryAt (gather sector replies s).mem
        (bootMmapAddr (gather sector replies s).mem + 24 * i) = records[i])
    ∧ bootKernelSize (gather sector replies s).mem = le32 sector 8 := by
  obtain ⟨hcount, hrecords, hbelow⟩ :=
    e820Loop_spec hlists s.mem e820MapAddr 0 (by simp only [e820MapAddr]; omega) (by omega)
  have hkeep : ∀ x, x < scratchAddr →
      (parseHeader (readHeader sector (doE820 replies s))).mem.byte x
        = (e820Loop replies s.mem e820MapAddr 0).1.byte x := fun x hx => readHeader_byte hx
  have hfield : ∀ x, x < e820MapAddr →
      (parseHeader (readHeader sector (doE820 replies s))).mem.byte x = s.mem.byte x := by
    intro x hx
    rw [hkeep x (Nat.lt_trans hx (by decide)), hbelow x hx]
  refine ⟨?_, ?_, ?_⟩
  · rw [gather, setupBootInfo_mmapCount, hfield 0x5012 (by decide), hfield 0x5013 (by decide),
      show (parseHeader (readHeader sector (doE820 replies s))).e820EntryCount
        = (e820Loop replies s.mem e820MapAddr 0).2 from rfl, hcount, Nat.mod_eq_of_lt (by omega),
      Nat.zero_add]
  · intro i hi
    rw [gather, setupBootInfo_mmapAddr]
    refine e820EntryAt_eq fun k hk => ?_
    rw [setupBootInfo_byte (by simp only [e820MapAddr]; omega),
      hkeep _ (by simp only [e820MapAddr, scratchAddr]; omega), hrecords i hi k hk]
  · rw [gather, setupBootInfo_kernelSize, parseHeader_size hsector,
      Nat.mod_eq_of_lt (le32_lt sector 8)]

/-- The bytes between the 16 bits of the count and the pointer. -/
theorem count_eq_iff {n : Nat} {high top : Byte} :
    n + 65536 * high.toNat + 16777216 * top.toNat = n ↔ high = 0 ∧ top = 0 := by
  constructor
  · intro h
    have hhigh : high.toNat = 0 := by omega
    have htop : top.toNat = 0 := by omega
    exact ⟨BitVec.eq_of_toNat_eq hhigh, BitVec.eq_of_toNat_eq htop⟩
  · rintro ⟨rfl, rfl⟩
    rfl

/-- **THE BOOT HANDOFF**: the kernel reads what the loader gathered exactly when the
    upper half of the count was 0 before. -/
theorem boot_handoff_iff {s : Stage2} {records : List E820Entry} {replies : List E820Reply}
    {sector : List Byte} (hlists : Lists replies records) (hpage : records.length ≤ 169)
    (hsector : sector.length = 512) :
    Handoff (gather sector replies s).mem records (le32 sector 8)
      ↔ s.mem.byte 0x5012 = 0 ∧ s.mem.byte 0x5013 = 0 := by
  obtain ⟨hcount, hentries, hsize⟩ := gather_spec (s := s) hlists hpage hsector
  constructor
  · intro h
    exact count_eq_iff.mp (hcount.symm.trans h.count)
  · intro h
    exact ⟨hcount.trans (count_eq_iff.mpr h), hentries, hsize⟩

/-! ## One record -/

/-- 64 KiB of memory at 1 MiB. -/
def smallRecord : E820Entry := ⟨0x100000, 0x10000, 1⟩

/-- The only answer of the BIOS: the record, and EBX = 0. -/
def smallReply : E820Reply where
  carry := false
  eax := smap
  ebx := 0
  bytes := (List.range 20).map (recordByte smallRecord)
  fits := by simp

theorem smallReply_lists : Lists [smallReply] [smallRecord] :=
  .last ⟨rfl, rfl, by decide, by decide⟩ rfl

/-- Before the loader runs, memory is 0 but for byte `a`. -/
def oneByte (a : Nat) : Stage2 :=
  ⟨⟨fun x => if x = a then 1 else 0, []⟩, 0x80, 0, 0, 0⟩

theorem boot_handoff_one :
    Handoff (gather (List.replicate 512 7) [smallReply] (oneByte 0x5011)).mem [smallRecord]
      (le32 (List.replicate 512 7) 8) :=
  (boot_handoff_iff smallReply_lists (by decide) List.length_replicate).mpr
    ⟨rfl, rfl⟩

/-- With a 1 in byte 0x5012, the kernel counts 65537 records where the BIOS gave one. -/
theorem boot_handoff_counts_garbage :
    bootMmapCount (gather (List.replicate 512 7) [smallReply] (oneByte 0x5012)).mem = 65537
      ∧ ¬ Handoff (gather (List.replicate 512 7) [smallReply] (oneByte 0x5012)).mem [smallRecord]
        (le32 (List.replicate 512 7) 8) := by
  have hcount := (gather_spec (s := oneByte 0x5012) smallReply_lists (by decide)
    (List.length_replicate (n := 512) (a := 7))).1
  refine ⟨hcount.trans (by decide), fun h => ?_⟩
  have hread := hcount.symm.trans h.count
  revert hread
  decide

end PyramidBoot
