import PyramidOS.BitmapProofs
import PyramidOS.KernelBaseProofs

/-! # The physical memory manager

    `pmm.c`: one bit per 4 KiB frame in a bitmap at a fixed physical address, a
    counter of used frames beside it, and two next-fit cursors, one for
    `pmm_alloc_page` and one for `pmm_alloc_page_low`.  The bitmap lives in the
    same byte memory as everything else physical; the static variables are a
    record of their own.

    The second half says what one primitive does to the bits and the counter:
    `pmmSet_eq` and `pmmUnset_eq` are the only places where the byte
    arithmetic of the bitmap is opened. -/

namespace PyramidPmm

open ByteMem WordBitmap PyramidKernel

/-- `PMM_PAGE_SIZE`. -/
abbrev pmmPageSize : Nat := 4096

/-- `PMM_BITMAP_BASE`. -/
abbrev pmmBitmapBase : Nat := 0x20000

/-- `PMM_WORD_BITS`. -/
abbrev pmmWordBits : Nat := 32

/-- `PMM_WORD_FULL`. -/
abbrev pmmWordFull : BitVec 32 := 0xFFFFFFFF#32

/-- One E820 entry, as far as the kernel reads it. -/
structure E820Entry where
  base : UInt64
  length : UInt64
  type : UInt32
deriving DecidableEq, Repr

/-- What `pmm_init` reads of the boot information: the size of the kernel file
    and the `mmap_count` entries found at `mmap_addr`.  The loader puts both in the
    page at 0x5000, away from the bitmap, so `pmm_init` does not write over what
    it reads. -/
structure BootInfo where
  kernelSize : UInt32
  mmap : List E820Entry
deriving DecidableEq, Repr

/-- Physical memory and the static variables of `pmm.c`. -/
structure Pmm where
  mem : Mem
  totalBlocks : Nat
  usedBlocks : Nat
  bitmapSize : Nat
  lastFreeIndex : Nat
  lastFreeIndexLow : Nat

/-! ## Bits -/

/-- `pmm_set`. -/
def pmmSet (p : Pmm) (frame : Nat) : Except Halt Pmm :=
  if frame ≥ p.totalBlocks then
    .error (.pmmPanic "pmm_set: frame out of range" frame)
  else
    let idx := frame / 8
    let off := frame % 8
    if p.mem.byte (pmmBitmapBase + idx) &&& 1#8 <<< off = 0#8 then
      .ok { p with
        mem := p.mem.store8 (pmmBitmapBase + idx)
          (p.mem.byte (pmmBitmapBase + idx) ||| 1#8 <<< off)
        usedBlocks := u32 (p.usedBlocks + 1) }
    else .ok p

/-- `pmm_unset`. -/
def pmmUnset (p : Pmm) (frame : Nat) : Except Halt Pmm :=
  if frame ≥ p.totalBlocks then
    .error (.pmmPanic "pmm_unset: frame out of range" frame)
  else
    let idx := frame / 8
    let off := frame % 8
    if p.mem.byte (pmmBitmapBase + idx) &&& 1#8 <<< off ≠ 0#8 then
      if p.usedBlocks = 0 then
        .error (.pmmPanic "pmm_unset: used_blocks underflow" frame)
      else
        .ok { p with
          mem := p.mem.store8 (pmmBitmapBase + idx)
            (p.mem.byte (pmmBitmapBase + idx) &&& ~~~(1#8 <<< off))
          usedBlocks := p.usedBlocks - 1 }
    else .ok p

/-- `pmm_test`. -/
def pmmTest (p : Pmm) (frame : Nat) : Byte :=
  let idx := frame / 8
  let off := frame % 8
  p.mem.byte (pmmBitmapBase + idx) &&& 1#8 <<< off

/-! ## The word scan -/

/-- One byte of the word read by `pmm_bitmap_word`: bytes beyond `bitmap_size`
    are treated as `0xFF` (used). -/
def pmmBitmapWordByte (p : Pmm) (byteIndex : Nat) : Byte :=
  if byteIndex < p.bitmapSize then p.mem.byte (pmmBitmapBase + byteIndex) else 0xFF#8

/-- `pmm_bitmap_word`: four bytes, the lowest first. -/
def pmmBitmapWord (p : Pmm) (wordIndex : Nat) : BitVec 32 :=
  let byteIndex := wordIndex * 4
  pmmBitmapWordByte p (byteIndex + 3) ++ pmmBitmapWordByte p (byteIndex + 2)
    ++ pmmBitmapWordByte p (byteIndex + 1) ++ pmmBitmapWordByte p byteIndex

/-- `pmm_find_first_set_bit`. -/
def pmmFindFirstSetBit (value : BitVec 32) : Int :=
  match firstFrom (fun bit => decide (value &&& 1#32 <<< bit ≠ 0#32)) 0 pmmWordBits with
  | some bit => i32 bit
  | none => -1

/-- The candidates of one word: its clear bits under the masks that clip the
    first and the last word of `[startFrame, endFrame)`. -/
def pmmCandidates (p : Pmm) (startFrame endFrame wordIndex : Nat) : BitVec 32 :=
  let startWord := startFrame / pmmWordBits
  let endWord := (endFrame - 1) / pmmWordBits
  let word := pmmBitmapWord p wordIndex
  let mask := pmmWordFull
  let startBit := startFrame % pmmWordBits
  let mask := if wordIndex = startWord ∧ startBit ≠ 0
    then mask &&& pmmWordFull <<< startBit else mask
  let endBit := (endFrame - 1) % pmmWordBits
  let mask := if wordIndex = endWord ∧ endBit ≠ pmmWordBits - 1
    then mask &&& (1#32 <<< (endBit + 1) - 1#32) else mask
  ~~~word &&& mask

/-- The loop of `pmm_find_free_in_range` over `words` words from `wordIndex`. -/
def pmmScanWords (p : Pmm) (startFrame endFrame : Nat) : Nat → Nat → Int
  | _, 0 => -1
  | wordIndex, words + 1 =>
      let candidates := pmmCandidates p startFrame endFrame wordIndex
      if candidates ≠ 0#32 then
        let bit := pmmFindFirstSetBit candidates
        if bit ≥ 0 then i32 (u32 (wordIndex * pmmWordBits + castU32 bit))
        else pmmScanWords p startFrame endFrame (wordIndex + 1) words
      else pmmScanWords p startFrame endFrame (wordIndex + 1) words

/-- `pmm_find_free_in_range`: a free frame in `[startFrame, endFrame)`, or -1. -/
def pmmFindFreeInRange (p : Pmm) (startFrame endFrame : Nat) : Int :=
  if startFrame ≥ endFrame then -1
  else
    let startWord := startFrame / pmmWordBits
    let endWord := (endFrame - 1) / pmmWordBits
    pmmScanWords p startFrame endFrame startWord (endWord + 1 - startWord)

/-- `pmm_first_free_from`: the frame found and the cursor as it is left. -/
def pmmFirstFreeFrom (p : Pmm) (cursor endFrame : Nat) : Int × Nat :=
  let cursor := if cursor ≥ endFrame then 0 else cursor
  let frame := pmmFindFreeInRange p cursor endFrame
  if frame ≥ 0 then (frame, cursor)
  else (pmmFindFreeInRange p 0 cursor, cursor)

/-- `pmm_first_free`. -/
def pmmFirstFree (p : Pmm) : Int × Pmm :=
  if p.usedBlocks ≥ p.totalBlocks then (-1, p)
  else
    let (frame, cursor) := pmmFirstFreeFrom p p.lastFreeIndex p.totalBlocks
    (frame, { p with lastFreeIndex := cursor })

/-- `pmm_first_free_low`. -/
def pmmFirstFreeLow (p : Pmm) (maxFrame : Nat) : Int × Pmm :=
  if p.usedBlocks ≥ p.totalBlocks then (-1, p)
  else
    let (frame, cursor) := pmmFirstFreeFrom p p.lastFreeIndexLow maxFrame
    (frame, { p with lastFreeIndexLow := cursor })

/-! ## Regions -/

/-- The loop `for (frame = start; frame < end; frame++) op((uint32_t)frame)`
    of the two region functions, over `count` frames. -/
def pmmForFrames (op : Pmm → Nat → Except Halt Pmm) (p : Pmm) (frame : Nat) :
    Nat → Except Halt Pmm
  | 0 => .ok p
  | count + 1 => do
      let p ← op p (u32 frame)
      pmmForFrames op p (frame + 1) count

/-- The body `pmm_mark_region_used` and `pmm_mark_region_free` share. -/
def pmmMarkRegion (op : Pmm → Nat → Except Halt Pmm) (p : Pmm)
    (base length : Nat) : Except Halt Pmm :=
  if length = 0 then .ok p
  else
    let startFrame := base / pmmPageSize
    let endFrame := u64 (base + length + (pmmPageSize - 1)) / pmmPageSize
    let endFrame := if endFrame > p.totalBlocks then p.totalBlocks else endFrame
    pmmForFrames op p startFrame (endFrame - startFrame)

/-- `pmm_mark_region_used`. -/
def pmmMarkRegionUsed (p : Pmm) (base length : Nat) : Except Halt Pmm :=
  pmmMarkRegion pmmSet p base length

/-- `pmm_mark_region_free`. -/
def pmmMarkRegionFree (p : Pmm) (base length : Nat) : Except Halt Pmm :=
  pmmMarkRegion pmmUnset p base length

/-! ## Initialisation -/

/-- The first loop of `pmm_init`: the highest end of a type-1 entry. -/
def pmmHighestAddr (mmap : List E820Entry) : Nat :=
  mmap.foldl (fun highest e =>
    if e.type = 1 then
      let top := u64 (e.base.toNat + e.length.toNat)
      if top > highest then top else highest
    else highest) 0

/-- `total_blocks` as `pmm_init` computes it. -/
def pmmTotalBlocks (mmap : List E820Entry) : Nat :=
  u32 (u64 (pmmHighestAddr mmap + (pmmPageSize - 1)) / pmmPageSize)

/-- The second loop of `pmm_init`: free every type-1 entry. -/
def pmmFreeUsable (p : Pmm) : List E820Entry → Except Halt Pmm
  | [] => .ok p
  | e :: rest => do
      let p ← if e.type = 1 then pmmMarkRegionFree p e.base.toNat e.length.toNat
        else .ok p
      pmmFreeUsable p rest

/-- The state before the second loop: everything marked used. -/
def pmmInitAllUsed (mem : Mem) (mmap : List E820Entry) : Pmm :=
  let totalBlocks := pmmTotalBlocks mmap
  let bitmapSize := u32 (totalBlocks + 7) / 8
  { mem := memset mem pmmBitmapBase 0xFF#8 bitmapSize
    totalBlocks := totalBlocks
    usedBlocks := totalBlocks
    bitmapSize := bitmapSize
    lastFreeIndex := 0
    lastFreeIndexLow := 0 }

/-- `pmm_init`. -/
def pmmInit (mem : Mem) (bootInfo : BootInfo) : Except Halt Pmm := do
  let p := pmmInitAllUsed mem bootInfo.mmap
  let p ← pmmFreeUsable p bootInfo.mmap
  let p ← pmmMarkRegionUsed p 0x0 0x1000
  let p ← pmmMarkRegionUsed p 0x10000 bootInfo.kernelSize.toNat
  let p ← pmmMarkRegionUsed p pmmBitmapBase p.bitmapSize
  pmmMarkRegionUsed p 0x5000 0x1000

/-! ## Allocation -/

/-- `pmm_alloc_page`: the address returned (0 for NULL) and the state left. -/
def pmmAllocPage (p : Pmm) : Except Halt (Nat × Pmm) := do
  let (frame, p) := pmmFirstFree p
  if frame = -1 then .ok (0, p)
  else
    let p ← pmmSet p (castU32 frame)
    let lastFreeIndex := u32 (castU32 frame + 1)
    let p := { p with lastFreeIndex :=
      if lastFreeIndex ≥ p.totalBlocks then 0 else lastFreeIndex }
    .ok (u32 (castU32 frame * pmmPageSize), p)

/-- `pmm_alloc_page_low`. -/
def pmmAllocPageLow (p : Pmm) (maxAddr : Nat) : Except Halt (Nat × Pmm) := do
  let maxFrame := maxAddr / pmmPageSize
  if maxFrame = 0 then .ok (0, p)
  else
    let maxFrame := if maxFrame > p.totalBlocks then p.totalBlocks else maxFrame
    let (frame, p) := pmmFirstFreeLow p maxFrame
    if frame = -1 then .ok (0, p)
    else
      let p ← pmmSet p (castU32 frame)
      let lastFreeIndexLow := u32 (castU32 frame + 1)
      let p := { p with lastFreeIndexLow :=
        if lastFreeIndexLow ≥ maxFrame then 0 else lastFreeIndexLow }
      .ok (u32 (castU32 frame * pmmPageSize), p)

/-- `pmm_free_page`. -/
def pmmFreePage (p : Pmm) (addr : Nat) : Except Halt Pmm :=
  if addr = 0 then .ok p
  else if addr % pmmPageSize ≠ 0 then
    .error (.pmmPanic "pmm_free_page: unaligned address" addr)
  else
    let frame := addr / pmmPageSize
    if frame ≥ p.totalBlocks then
      .error (.pmmPanic "pmm_free_page: address out of range" addr)
    else if pmmTest p frame = 0#8 then
      .error (.pmmPanic "pmm_free_page: double free or corrupt frame" frame)
    else do
      let p ← pmmUnset p frame
      let p := if frame < p.lastFreeIndex then { p with lastFreeIndex := frame } else p
      let p := if frame < p.lastFreeIndexLow then { p with lastFreeIndexLow := frame } else p
      .ok p

/-- `pmm_get_free_memory`. -/
def pmmGetFreeMemory (p : Pmm) : Nat :=
  u32 (u32 (p.totalBlocks + 2 ^ 32 - p.usedBlocks) * pmmPageSize)

/-- `pmm_get_total_memory`. -/
def pmmGetTotalMemory (p : Pmm) : Nat := u32 (p.totalBlocks * pmmPageSize)

/-! ## What the primitives do

    A frame is used when its bit is set.  `Pmm.marked` and `Pmm.cleared` are
    the states `pmm_set` and `pmm_unset` leave when they change a bit. -/

/-- Frame `f` is marked used in the bitmap. -/
def Pmm.bit (p : Pmm) (f : Nat) : Bool := bitAt p.mem pmmBitmapBase f

/-- The state after `pmm_set` changed the bit of `f`. -/
def Pmm.marked (p : Pmm) (f : Nat) : Pmm :=
  { p with
    mem := setBit p.mem pmmBitmapBase f
    usedBlocks := u32 (p.usedBlocks + 1) }

/-- The state after `pmm_unset` changed the bit of `f`. -/
def Pmm.cleared (p : Pmm) (f : Nat) : Pmm :=
  { p with
    mem := clearBit p.mem pmmBitmapBase f
    usedBlocks := p.usedBlocks - 1 }

@[simp] theorem bit_marked (p : Pmm) (f g : Nat) :
    (p.marked f).bit g = (p.bit g || decide (g = f)) :=
  bitAt_setBit p.mem pmmBitmapBase f g

@[simp] theorem bit_cleared (p : Pmm) (f g : Nat) :
    (p.cleared f).bit g = (p.bit g && !decide (g = f)) :=
  bitAt_clearBit p.mem pmmBitmapBase f g

/-- The byte test of `pmm_set`, `pmm_unset` and `pmm_test` reads the bit. -/
theorem pmmTest_ne_zero (p : Pmm) (f : Nat) :
    pmmTest p f ≠ 0#8 ↔ p.bit f = true :=
  and_oneBit_ne_zero (Nat.mod_lt _ (by decide))

theorem pmmTest_eq_zero (p : Pmm) (f : Nat) :
    pmmTest p f = 0#8 ↔ p.bit f = false := by
  rw [← Bool.not_eq_true, ← pmmTest_ne_zero, not_not]

/-- `pmm_set` marks a clear frame and leaves a used one alone. -/
theorem pmmSet_eq {p : Pmm} {f : Nat} (hf : f < p.totalBlocks) :
    pmmSet p f = .ok (if p.bit f = true then p else p.marked f) := by
  rw [pmmSet, if_neg (by omega)]
  show (if pmmTest p f = 0#8 then Except.ok (p.marked f) else Except.ok p) = _
  cases hb : p.bit f with
  | true => rw [if_neg ((pmmTest_ne_zero p f).mpr hb), if_pos rfl]
  | false => rw [if_pos ((pmmTest_eq_zero p f).mpr hb), if_neg Bool.false_ne_true]

/-- `pmm_set` of a free frame. -/
theorem pmmSet_of_clear {p : Pmm} {f : Nat} (hf : f < p.totalBlocks)
    (hb : p.bit f = false) : pmmSet p f = .ok (p.marked f) := by
  rw [pmmSet_eq hf, hb, if_neg Bool.false_ne_true]

/-- `pmm_unset` clears a used frame and leaves a clear one alone. -/
theorem pmmUnset_eq {p : Pmm} {f : Nat} (hf : f < p.totalBlocks)
    (hu : p.bit f = true → p.usedBlocks ≠ 0) :
    pmmUnset p f = .ok (if p.bit f = true then p.cleared f else p) := by
  rw [pmmUnset, if_neg (by omega)]
  show (if pmmTest p f ≠ 0#8 then
      if p.usedBlocks = 0 then
        Except.error (Halt.pmmPanic "pmm_unset: used_blocks underflow" f)
      else Except.ok (p.cleared f)
    else Except.ok p) = _
  cases hb : p.bit f with
  | true =>
      rw [if_pos ((pmmTest_ne_zero p f).mpr hb), if_neg (hu hb), if_pos rfl]
  | false =>
      rw [if_neg (not_not.mpr ((pmmTest_eq_zero p f).mpr hb)),
        if_neg Bool.false_ne_true]

end PyramidPmm
