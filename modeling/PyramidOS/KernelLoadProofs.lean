import PyramidOS.BootInfoProofs
import PyramidOS.SectorProofs

/-! # Loading the kernel

    Step 7 of `stage2.asm`: `read_kernel_robust` reads the kernel in batches, in
    16-bit and 32-bit registers and through the stack, and `read_sectors_universal`
    hands each batch to the BIOS.

    * `Placed` — what holds at the head of the loop, kept by one batch
      (`readBatch_placed`);
    * `kernel_placed` — the loop ends with every sector read once, in its place. -/

namespace PyramidBoot

open ByteMem PyramidKernel SectorRun

/-! ## The machine -/

/-- `KERNEL_LBA`. -/
def kernelLba : Nat := 60

def sectorsPerTrack : Nat := 18
def headsPerCylinder : Nat := 2

/-- The disk address packet.  The upper half of the LBA is 0. -/
structure Dap where
  num : Nat
  off : Nat
  seg : Nat
  lbaLow : Nat

/-- The registers of INT 13h AH=02h: AL, CH, CL and DH. -/
structure ChsRead where
  count : Nat
  cylinder : Nat
  sector : Nat
  head : Nat

/-- The answer to a disk request: the carry flag, and what was stored from the
    start of the buffer on. -/
structure DiskReply where
  carry : Bool
  bytes : List Byte

/-- INT 13h, for the drive in DL. -/
structure Bios where
  extendedRead : Byte → Dap → DiskReply
  chsRead : Byte → ChsRead → DiskReply

/-- The registers, the stack as 16-bit words with the top first, the variables of
    the disk routines, and the packets given to the BIOS so far. -/
structure Loader extends Stage2 where
  eax : Nat
  ecx : Nat
  edx : Nat
  ebx : Nat
  es : Nat
  stack : List Nat
  tmpLba : Nat
  tmpCount : Nat
  retryLba : Nat
  retryCnt : Nat
  retrySeg : Nat
  retryOff : Nat
  chsCyl : Nat
  chsHead : Nat
  chsSector : Nat
  dap : Dap
  requests : List Dap

/-- A 32-bit register with its low half replaced. -/
def setLow (r v : Nat) : Nat := r / 2 ^ 16 * 2 ^ 16 + u16 v

namespace Loader

def cx (l : Loader) : Nat := u16 l.ecx
def dx (l : Loader) : Nat := u16 l.edx
def bx (l : Loader) : Nat := u16 l.ebx
def setCx (l : Loader) (v : Nat) : Loader := { l with ecx := setLow l.ecx v }
def setDx (l : Loader) (v : Nat) : Loader := { l with edx := setLow l.edx v }
def setBx (l : Loader) (v : Nat) : Loader := { l with ebx := setLow l.ebx v }

def push16 (l : Loader) (v : Nat) : Loader := { l with stack := u16 v :: l.stack }
def push32 (l : Loader) (v : Nat) : Loader :=
  { l with stack := u16 v :: u16 (v / 2 ^ 16) :: l.stack }

/-- The word at the top of the stack. -/
def top (l : Loader) : Nat := l.stack.headD 0
def drop (l : Loader) (n : Nat) : Loader := { l with stack := l.stack.drop n }

def popBx (l : Loader) : Loader := (l.setBx l.top).drop 1
def popCx (l : Loader) : Loader := (l.setCx l.top).drop 1
def popDx (l : Loader) : Loader := (l.setDx l.top).drop 1
def popEs (l : Loader) : Loader := { l with es := l.top }.drop 1
def popEax (l : Loader) : Loader :=
  { l with eax := l.top + 2 ^ 16 * (l.drop 1).top }.drop 2

/-- `popad`, after a `pushad` in `saved`. -/
def popad (l saved : Loader) : Loader :=
  { l with eax := saved.eax, ecx := saved.ecx, edx := saved.edx, ebx := saved.ebx }

/-- The BIOS stores `bytes` in the buffer at `seg:off`. -/
def transfer (l : Loader) (seg off : Nat) (bytes : List Byte) : Loader :=
  { l with mem := l.mem.storeBytes (16 * seg + off) bytes }

end Loader

/-- Why the loader stops: it shows an error and halts, or the run was cut short. -/
inductive Stop where
  | ioError
  | outOfFuel
  deriving DecidableEq

/-! ## The disk routines -/

/-- The CHS fallback of `read_sectors_universal`, after the disk reset. -/
def readSectorsChs (bios : Bios) (l : Loader) : Except Stop Loader :=
  let l := { l with es := l.retrySeg }
  let track := l.retryLba / sectorsPerTrack
  let l := { l with chsSector := u16 (l.retryLba % sectorsPerTrack + 1) % 2 ^ 8,
                    chsHead := track % headsPerCylinder,
                    chsCyl := u16 (track / headsPerCylinder) }
  let r := bios.chsRead l.bootDrive
    ⟨l.retryCnt % 2 ^ 8, l.chsCyl % 2 ^ 8, l.chsSector, l.chsHead⟩
  let l := l.transfer l.es l.retryOff r.bytes
  if r.carry then .error .ioError else .ok l

/-- `read_sectors_universal`. -/
def readSectorsUniversal (bios : Bios) (l : Loader) : Except Stop Loader :=
  let saved := l
  let dap : Dap := ⟨saved.cx, saved.bx, saved.es, saved.eax⟩
  let l := { saved with
    retryLba := saved.eax, retryCnt := saved.cx, retrySeg := saved.es, retryOff := saved.bx
    dap := dap, requests := saved.requests ++ [dap] }
  let r := bios.extendedRead saved.bootDrive dap
  let l := l.transfer dap.seg dap.off r.bytes
  if r.carry then (readSectorsChs bios l).map (·.popad saved) else .ok (l.popad saved)

/-- `.loop` up to the shift of `.calc_sec`: the whole sectors up to the end of the
    segment. -/
def sectorsToEnd (bx : Nat) : Nat :=
  let dx := u16 (2 ^ 16 - bx)
  let dx := if dx = 0 then 0xFFFF else dx
  dx / 2 ^ 9

/-- `.loop` up to `.read_count`: CX is limited to the end of the segment and to 18
    sectors. -/
def limitBatch (l : Loader) : Loader :=
  let dx := sectorsToEnd l.bx
  let dx := if dx ≤ 18 then dx else 18
  let cx := if l.cx ≤ dx then l.cx else dx
  (l.setDx dx).setCx cx

/-- After the read, up to `.no_seg_wrap`: ES:BX moves behind the batch, with the
    count on the stack. -/
def moveBuffer (l : Loader) : Loader :=
  let l := l.setCx l.tmpCount
  let l := l.popBx
  let l := l.popEs
  let l := l.push16 l.cx
  let l := l.setCx (l.cx * 2 ^ 9)
  let sum := l.bx + l.cx
  let l := l.setBx sum
  -- `jnc .no_seg_wrap`
  if sum < 2 ^ 16 then l else { l.setDx (l.es + 0x1000) with es := u16 (l.es + 0x1000) }

/-- From `.no_seg_wrap` on: the LBA and the remaining count. -/
def moveCount (l : Loader) : Loader :=
  let l := l.popCx
  let l := l.popDx
  let l := l.popEax
  let l := { l with eax := u32 (l.eax + l.ecx) }
  let l := l.setDx (l.dx + 2 ^ 16 - l.cx)
  l.setCx l.dx

/-- The four pushes at the head of `.loop`. -/
def saveRegs (l : Loader) : Loader :=
  let l := l.push32 l.eax
  let l := l.push16 l.cx
  let l := l.push16 l.es
  l.push16 l.bx

/-- One turn of `.loop` up to the read. -/
def prepareBatch (l : Loader) : Loader :=
  let l := limitBatch (saveRegs l)
  let l := { l with tmpLba := l.eax, tmpCount := l.cx }
  { l with eax := l.tmpLba }

/-- One turn of `.loop` with sectors left.  `ui_update_progress` keeps the
    registers. -/
def readBatch (bios : Bios) (l : Loader) : Except Stop Loader :=
  (readSectorsUniversal bios (prepareBatch l)).map fun l => moveCount (moveBuffer l)

/-- `read_kernel_robust`. -/
def readKernelRobust (bios : Bios) : Nat → Loader → Except Stop Loader
  | 0, _ => .error .outOfFuel
  | fuel + 1, l =>
      if l.cx = 0 then .ok l else (readBatch bios l).bind (readKernelRobust bios fuel)

/-- `stage2_main`, step 7. -/
def loadKernel (bios : Bios) (fuel : Nat) (l : Loader) : Except Stop Loader :=
  let l := { l with es := kernelLoadSeg }
  let l := l.setBx 0
  let l := { l with eax := kernelLba + 1, ecx := l.kernelSectors }
  readKernelRobust bios fuel l

/-! ## The registers -/

variable {l l' : Loader} {bios : Bios} {disk : Nat → List Byte} {first count n : Nat}

theorem u16_lt (x : Nat) : u16 x < 2 ^ 16 := Nat.mod_lt x (by decide)

theorem u16_setLow (r v : Nat) : u16 (setLow r v) = u16 v := by
  simp only [setLow, u16]
  omega

/-- With an upper half of 0, the register is its low half. -/
theorem setLow_of_lt {r v : Nat} (hr : r < 2 ^ 16) (hv : v < 2 ^ 16) : setLow r v = v := by
  simp only [setLow, u16]
  omega

/-- The two words of a pushed 32-bit register. -/
theorem words_eq {v : Nat} (hv : v < 2 ^ 32) : u16 v + 2 ^ 16 * u16 (v / 2 ^ 16) = v := by
  simp only [u16]
  omega

/-! ## One batch -/

/-- The sectors of a batch, with `total` left and the buffer at offset `off`. -/
def batchSize (total off : Nat) : Nat := min total (min 18 ((2 ^ 16 - off) / 512))

theorem batchSize_le (total off : Nat) : batchSize total off ≤ total ∧ batchSize total off ≤ 18 :=
  ⟨Nat.min_le_left _ _, Nat.le_trans (Nat.min_le_right _ _) (Nat.min_le_left _ _)⟩

theorem batchSize_fits (total off : Nat) (hoff : off ≤ 2 ^ 16) :
    off + 512 * batchSize total off ≤ 2 ^ 16 := by
  simp only [batchSize]
  omega

/-- Where the offset is a multiple of a sector, a batch is not empty. -/
theorem batchSize_pos {total off : Nat} (htotal : 0 < total) (hoff : off < 2 ^ 16)
    (haligned : off % 512 = 0) : 0 < batchSize total off := by
  simp only [batchSize]
  omega

theorem sectorsToEnd_min {off : Nat} (hoff : off < 2 ^ 16) :
    min 18 (sectorsToEnd off) = min 18 ((2 ^ 16 - off) / 512) := by
  rcases Nat.eq_zero_or_pos off with rfl | hpos
  · rfl
  · have hdx : u16 (2 ^ 16 - off) = 2 ^ 16 - off := u16_of_lt (by omega)
    simp only [sectorsToEnd]
    rw [hdx, if_neg (by omega)]
    rfl

theorem limitBatch_eq (l : Loader) :
    ∃ dx, limitBatch l = (l.setDx dx).setCx (batchSize l.cx l.bx) := by
  refine ⟨_, congrArg (Loader.setCx (l.setDx _)) ?_⟩
  rw [batchSize, ← sectorsToEnd_min (show l.bx < 2 ^ 16 from u16_lt _)]
  repeat' split
  all_goals omega

theorem saveRegs_eq (hecx : l.ecx < 2 ^ 16) :
    saveRegs l = { l with
      stack := l.bx :: u16 l.es :: l.ecx :: u16 l.eax :: u16 (l.eax / 2 ^ 16) :: l.stack } := by
  have hcx : u16 l.cx = l.ecx := by rw [Loader.cx, u16_of_lt hecx, u16_of_lt hecx]
  have hbx : u16 l.bx = l.bx := u16_of_lt (u16_lt _)
  have hpush : saveRegs l = { l with
      stack := u16 l.bx :: u16 l.es :: u16 l.cx :: u16 l.eax :: u16 (l.eax / 2 ^ 16)
        :: l.stack } := rfl
  rw [hpush, hcx, hbx]

theorem prepareBatch_eq (hecx : l.ecx < 2 ^ 16) :
    ∃ edx, prepareBatch l = { l with
      stack := l.bx :: u16 l.es :: l.ecx :: u16 l.eax :: u16 (l.eax / 2 ^ 16) :: l.stack
      edx := edx, ecx := batchSize l.ecx l.bx
      tmpLba := l.eax, tmpCount := batchSize l.ecx l.bx } := by
  have hsize : batchSize l.ecx l.bx < 2 ^ 16 := Nat.lt_of_le_of_lt (batchSize_le _ _).1 hecx
  obtain ⟨dx, hlimit⟩ := limitBatch_eq (saveRegs l)
  rw [show (saveRegs l).cx = l.ecx from u16_of_lt hecx, show (saveRegs l).bx = l.bx from rfl]
    at hlimit
  have hecx' : setLow l.ecx (batchSize l.ecx l.bx) = batchSize l.ecx l.bx :=
    setLow_of_lt hecx hsize
  refine ⟨setLow l.edx dx, ?_⟩
  rw [prepareBatch, hlimit, saveRegs_eq hecx]
  simp only [Loader.setCx, Loader.setDx, Loader.cx, hecx', u16_of_lt hsize]

/-- Every request for `count` sectors of the drive, from LBA `first` on, succeeds. -/
structure Serves (bios : Bios) (drive : Byte) (disk : Nat → List Byte) (first count : Nat) :
    Prop where
  full : ∀ lba, (disk lba).length = 512
  reply : ∀ dap : Dap, first ≤ dap.lbaLow → dap.lbaLow + dap.num ≤ first + count →
    bios.extendedRead drive dap = ⟨false, sectors disk dap.lbaLow dap.num⟩

/-- The first attempt succeeds: the buffer is filled, and the registers are restored. -/
theorem readSectorsUniversal_serves (h : Serves bios l.bootDrive disk first count)
    (hfirst : first ≤ l.eax) (hlast : l.eax + l.cx ≤ first + count) :
    readSectorsUniversal bios l = .ok { l with
      retryLba := l.eax, retryCnt := l.cx, retrySeg := l.es, retryOff := l.bx
      dap := ⟨l.cx, l.bx, l.es, l.eax⟩
      requests := l.requests ++ [⟨l.cx, l.bx, l.es, l.eax⟩]
      mem := l.mem.storeBytes (16 * l.es + l.bx) (sectors disk l.eax l.cx) } := by
  have hreply := h.reply ⟨l.cx, l.bx, l.es, l.eax⟩ hfirst hlast
  rw [readSectorsUniversal, hreply]
  rfl

/-- What one turn of the loop does. -/
structure Batch (disk : Nat → List Byte) (l l' : Loader) (c : Nat) : Prop where
  eax : l'.eax = l.eax + c
  ecx : l'.ecx = l.ecx - c
  bx : l'.bx = u16 (l.bx + 512 * c)
  es : l'.es = if l.bx + 512 * c < 2 ^ 16 then l.es else l.es + 0x1000
  stack : l'.stack = l.stack
  requests : l'.requests = l.requests ++ [⟨c, l.bx, l.es, l.eax⟩]
  stage : l'.toStage2 = { l.toStage2 with
    mem := l.mem.storeBytes (16 * l.es + l.bx) (sectors disk l.eax c) }

theorem moveBuffer_spec {off seg c : Nat} {rest : List Nat}
    (hstack : l.stack = off :: seg :: rest) (hcount : l.tmpCount = c) (hc : c ≤ 18)
    (hecx : l.ecx < 2 ^ 16) (hoff : off < 2 ^ 16) :
    (moveBuffer l).ecx < 2 ^ 16
    ∧ (moveBuffer l).bx = u16 (off + 512 * c)
    ∧ (moveBuffer l).es = (if off + 512 * c < 2 ^ 16 then seg else u16 (seg + 0x1000))
    ∧ (moveBuffer l).stack = c :: rest
    ∧ (moveBuffer l).requests = l.requests ∧ (moveBuffer l).toStage2 = l.toStage2 := by
  have hcx : setLow l.ecx c = c := setLow_of_lt hecx (by omega)
  have hword : u16 c = c := u16_of_lt (by omega)
  have hshift : u16 (c * 2 ^ 9) = 512 * c := by
    rw [u16_of_lt (by omega), Nat.mul_comm]
    rfl
  have hbytes : setLow c (c * 2 ^ 9) < 2 ^ 16 := by
    rw [setLow, hshift]
    omega
  simp only [moveBuffer, Loader.setCx, Loader.setBx, Loader.setDx, Loader.popBx, Loader.popEs,
    Loader.push16, Loader.top, Loader.drop, Loader.cx, Loader.bx, hstack, hcount, hcx, hword,
    List.headD_cons, List.drop_succ_cons, List.drop_zero, u16_setLow, hshift, u16_of_lt hoff]
  split
  · exact ⟨hbytes, u16_setLow _ _, rfl, rfl, rfl, rfl⟩
  · exact ⟨hbytes, u16_setLow _ _, rfl, rfl, rfl, rfl⟩

theorem moveCount_spec {c total low high : Nat} {rest : List Nat}
    (hstack : l.stack = c :: total :: low :: high :: rest) (hecx : l.ecx < 2 ^ 16)
    (hc : c ≤ total) (htotal : total < 2 ^ 16) (hlba : low + 2 ^ 16 * high + c < 2 ^ 32) :
    (moveCount l).eax = low + 2 ^ 16 * high + c ∧ (moveCount l).ecx = total - c
    ∧ (moveCount l).stack = rest ∧ (moveCount l).bx = l.bx ∧ (moveCount l).es = l.es
    ∧ (moveCount l).requests = l.requests ∧ (moveCount l).toStage2 = l.toStage2 := by
  have hcx : setLow l.ecx c = c := setLow_of_lt hecx (by omega)
  have hdx : u16 (u16 total + 2 ^ 16 - u16 c) = total - c := by
    simp only [u16]
    omega
  simp only [moveCount, Loader.setCx, Loader.setDx, Loader.popCx, Loader.popDx, Loader.popEax,
    Loader.top, Loader.drop, Loader.cx, Loader.dx, Loader.bx, hstack, hcx, List.headD_cons,
    List.drop_succ_cons, List.drop_zero, u16_setLow, hdx]
  exact ⟨u32_of_lt hlba, setLow_of_lt (by omega) (by omega), trivial, trivial, trivial, trivial,
    trivial⟩

/-- The read in the middle of a turn. -/
theorem read_prepared (h : Serves bios l.bootDrive disk first count) (hfirst : first ≤ l.eax)
    (hlast : l.eax + l.ecx ≤ first + count) (hecx : l.ecx < 2 ^ 16) :
    ∃ l2, readSectorsUniversal bios (prepareBatch l) = .ok l2
      ∧ l2.stack = l.bx :: u16 l.es :: l.ecx :: u16 l.eax :: u16 (l.eax / 2 ^ 16) :: l.stack
      ∧ l2.tmpCount = batchSize l.ecx l.bx ∧ l2.ecx = batchSize l.ecx l.bx
      ∧ l2.requests = l.requests ++ [⟨batchSize l.ecx l.bx, l.bx, l.es, l.eax⟩]
      ∧ l2.toStage2 = { l.toStage2 with
        mem := l.mem.storeBytes (16 * l.es + l.bx)
          (sectors disk l.eax (batchSize l.ecx l.bx)) } := by
  have hsize : batchSize l.ecx l.bx ≤ l.ecx := (batchSize_le _ _).1
  obtain ⟨edx, hprepare⟩ := prepareBatch_eq hecx
  have hcx : (prepareBatch l).cx = batchSize l.ecx l.bx := by
    rw [hprepare]
    exact u16_of_lt (Nat.lt_of_le_of_lt hsize hecx)
  have hbx : (prepareBatch l).bx = l.bx := by rw [hprepare]; rfl
  have hread := readSectorsUniversal_serves (l := prepareBatch l)
    (by rw [hprepare]; exact h) (by rw [hprepare]; exact hfirst)
    (by rw [hcx, hprepare]; exact Nat.le_trans (Nat.add_le_add_left hsize _) hlast)
  rw [hcx, hbx] at hread
  refine ⟨_, hread, ?_⟩
  simp only [hprepare]
  exact ⟨trivial, trivial, trivial, trivial, trivial⟩

/-- Behind the read of a turn: the registers move on by a batch of `c` sectors. -/
theorem moved_spec {l2 : Loader} {c : Nat}
    (hstack : l2.stack
      = l.bx :: u16 l.es :: l.ecx :: u16 l.eax :: u16 (l.eax / 2 ^ 16) :: l.stack)
    (htmp : l2.tmpCount = c) (hc : l2.ecx = c) (hsize : c ≤ l.ecx) (h18 : c ≤ 18)
    (hecx : l.ecx < 2 ^ 16) (hlast : l.eax + l.ecx < 2 ^ 32) :
    (moveCount (moveBuffer l2)).eax = l.eax + c
    ∧ (moveCount (moveBuffer l2)).ecx = l.ecx - c
    ∧ (moveCount (moveBuffer l2)).bx = u16 (l.bx + 512 * c)
    ∧ (moveCount (moveBuffer l2)).es
      = (if l.bx + 512 * c < 2 ^ 16 then u16 l.es else u16 (u16 l.es + 0x1000))
    ∧ (moveCount (moveBuffer l2)).stack = l.stack
    ∧ (moveCount (moveBuffer l2)).requests = l2.requests
    ∧ (moveCount (moveBuffer l2)).toStage2 = l2.toStage2 := by
  have heax : u16 l.eax + 2 ^ 16 * u16 (l.eax / 2 ^ 16) = l.eax := words_eq (by omega)
  obtain ⟨hmecx, hmbx, hmes, hmstack, hmrequests, hmstage⟩ :=
    moveBuffer_spec hstack htmp h18 (by omega) (u16_lt _)
  obtain ⟨hneax, hnecx, hnstack, hnbx, hnes, hnrequests, hnstage⟩ :=
    moveCount_spec hmstack hmecx hsize hecx (by omega)
  exact ⟨heax ▸ hneax, hnecx, hnbx.trans hmbx, hnes.trans hmes, hnstack,
    hnrequests.trans hmrequests, hnstage.trans hmstage⟩

/-- **ONE TURN**: a batch goes from the sectors left to the buffer at ES:BX, and the
    registers move on behind it. -/
theorem readBatch_spec (h : Serves bios l.bootDrive disk first count) (hfirst : first ≤ l.eax)
    (hlast : l.eax + l.ecx ≤ first + count) (hcount : first + count < 2 ^ 32)
    (hecx : l.ecx < 2 ^ 16) (hes : l.es + 0x1000 < 2 ^ 16) :
    ∃ l', readBatch bios l = .ok l' ∧ Batch disk l l' (batchSize l.ecx l.bx) := by
  obtain ⟨hsize, h18⟩ := batchSize_le l.ecx l.bx
  obtain ⟨l2, hread, hstack, htmp, hc, hrequests, hstage⟩ :=
    read_prepared h hfirst hlast hecx
  obtain ⟨hneax, hnecx, hnbx, hnes, hnstack, hnrequests, hnstage⟩ :=
    moved_spec hstack htmp hc hsize h18 hecx (by omega)
  refine ⟨moveCount (moveBuffer l2), by rw [readBatch, hread]; rfl, hneax, hnecx, hnbx, ?_,
    hnstack, hnrequests.trans hrequests, hnstage.trans hstage⟩
  rw [hnes, u16_of_lt (by omega), u16_of_lt hes]

/-! ## The whole loop -/

/-- The sectors that a packet asks for, each with the address it is stored at. -/
def Dap.transfers (q : Dap) : List (Nat × Nat) :=
  (List.range q.num).map fun i => (q.lbaLow + i, 16 * q.seg + q.off + 512 * i)

/-- A request that every BIOS can serve: 1 to 18 sectors, and a buffer inside its
    segment and inside one 64 KiB page of physical memory. -/
structure Dap.Fits (q : Dap) : Prop where
  some : 1 ≤ q.num
  batch : q.num ≤ 18
  segment : q.off + 512 * q.num ≤ 2 ^ 16
  page : (16 * q.seg + q.off) / 2 ^ 16 = (16 * q.seg + q.off + 512 * q.num - 1) / 2 ^ 16

/-- The first `n` sectors of the kernel, each with its place in memory. -/
def placement (n : Nat) : List (Nat × Nat) :=
  (List.range n).map fun i => (kernelLba + 1 + i, 0x10000 + 512 * i)

/-- Byte `k` of the kernel body, which begins in the sector after the header. -/
def kernelByte (disk : Nat → List Byte) (k : Nat) : Byte :=
  (disk (kernelLba + 1 + k / 512)).getD (k % 512) 0

/-- **THE LOOP INVARIANT**: of `n` sectors, the first `done` are in place, ES:BX is
    behind them, and nothing else in memory changed since `l0`. -/
structure Placed (disk : Nat → List Byte) (l0 : Loader) (n done : Nat) (l : Loader) : Prop where
  eax : l.eax = kernelLba + 1 + done
  ecx : l.ecx = n - done
  bx : l.bx = 512 * done % 2 ^ 16
  es : l.es = 0x1000 + 0x1000 * (512 * done / 2 ^ 16)
  stack : l.stack = l0.stack
  requests : ∃ issued, l.requests = l0.requests ++ issued ∧ (∀ q ∈ issued, q.Fits)
    ∧ issued.flatMap Dap.transfers = placement done
  byte : ∀ x, l.mem.byte x = if 0x10000 ≤ x ∧ x < 0x10000 + 512 * done
    then kernelByte disk (x - 0x10000) else l0.mem.byte x
  stage : l.toStage2 = { l0.toStage2 with mem := l.mem }

variable {l0 : Loader} {done c : Nat}

theorem placement_add (done c : Nat) :
    placement (done + c) = placement done ++ (List.range c).map fun i =>
      (kernelLba + 1 + done + i, 0x10000 + 512 * done + 512 * i) := by
  rw [placement, List.range_add, List.map_append, List.map_map, placement]
  congr 1
  refine List.map_congr_left fun i _ => ?_
  rw [Function.comp_apply, Nat.mul_add, Nat.add_assoc _ done, Nat.add_assoc _ (512 * done)]

/-- A stored batch continues the kernel. -/
theorem byte_batch (hfull : ∀ lba, (disk lba).length = 512) {m : Mem} {x : Nat} :
    (m.storeBytes (0x10000 + 512 * done) (sectors disk (kernelLba + 1 + done) c)).byte x
      = if 0x10000 + 512 * done ≤ x ∧ x < 0x10000 + 512 * (done + c)
        then kernelByte disk (x - 0x10000) else m.byte x := by
  rw [byte_storeBytes, length_sectors hfull]
  by_cases hx : 0x10000 + 512 * done ≤ x ∧ x < 0x10000 + 512 * (done + c)
  · rw [if_pos (by omega), if_pos hx, sectors_getD hfull (by omega), kernelByte,
      show (x - (0x10000 + 512 * done)) % 512 = (x - 0x10000) % 512 by omega,
      show kernelLba + 1 + done + (x - (0x10000 + 512 * done)) / 512
        = kernelLba + 1 + (x - 0x10000) / 512 by omega]
  · rw [if_neg (by omega), if_neg hx]

/-- A batch keeps the invariant. -/
theorem Placed.batch (h : Placed disk l0 n done l) (hfull : ∀ lba, (disk lba).length = 512)
    (hbatch : Batch disk l l' c) (hc : c = batchSize l.ecx l.bx) (hdone : done < n) :
    Placed disk l0 n (done + c) l' := by
  have hbx : l.bx < 2 ^ 16 := u16_lt _
  have haligned : l.bx % 512 = 0 := by rw [h.bx]; omega
  have hpos : 0 < c := hc ▸ batchSize_pos (by rw [h.ecx]; omega) hbx haligned
  have hfits : l.bx + 512 * c ≤ 2 ^ 16 := hc ▸ batchSize_fits _ _ (by omega)
  have h18 : c ≤ 18 := hc ▸ (batchSize_le _ _).2
  have hleft : c ≤ n - done := by rw [hc, ← h.ecx]; exact (batchSize_le _ _).1
  have haddr : 16 * l.es + l.bx = 0x10000 + 512 * done := by rw [h.es, h.bx]; omega
  refine ⟨?_, ?_, ?_, ?_, hbatch.stack.trans h.stack, ?_, ?_, ?_⟩
  · rw [hbatch.eax, h.eax, Nat.add_assoc]
  · rw [hbatch.ecx, h.ecx, Nat.sub_sub]
  · rw [hbatch.bx, h.bx, u16]
    omega
  · rw [hbatch.es, h.es, h.bx]
    rw [h.bx] at hfits
    split <;> omega
  · obtain ⟨issued, hissued, hgood, htransfers⟩ := h.requests
    refine ⟨issued ++ [⟨c, l.bx, l.es, l.eax⟩], ?_, ?_, ?_⟩
    · rw [hbatch.requests, hissued, List.append_assoc]
    · intro q hq
      rcases List.mem_append.mp hq with hq | hq
      · exact hgood q hq
      · rw [List.mem_singleton.mp hq]
        refine ⟨hpos, h18, hfits, ?_⟩
        simp only [haddr]
        rw [h.bx] at hfits
        omega
    · rw [List.flatMap_append, htransfers, List.flatMap_singleton, placement_add, Dap.transfers,
        h.eax, haddr]
  · intro x
    rw [congrArg Stage2.mem hbatch.stage, haddr, h.eax, byte_batch hfull, h.byte x]
    by_cases hx : 0x10000 + 512 * done ≤ x ∧ x < 0x10000 + 512 * (done + c)
    · rw [if_pos hx, if_pos (by omega)]
    · rw [if_neg hx]
      by_cases hold : 0x10000 ≤ x ∧ x < 0x10000 + 512 * done
      · rw [if_pos hold, if_pos (by omega)]
      · rw [if_neg hold, if_neg (by omega)]
  · rw [hbatch.stage, h.stage]

/-- **THE LOOP** ends, by induction on the turns it may take: each has a sector at
    least. -/
theorem readKernelRobust_placed (hn : n ≤ 1152) :
    ∀ fuel done l, Placed disk l0 n done l → Serves bios l.bootDrive disk (kernelLba + 1) n →
      done ≤ n → n - done < fuel →
        ∃ l', readKernelRobust bios fuel l = .ok l' ∧ Placed disk l0 n n l' := by
  intro fuel
  induction fuel with
  | zero => intro done l _ _ _ hfuel; exact absurd hfuel (Nat.not_lt_zero _)
  | succ fuel ih =>
      intro done l h hserves hdone hfuel
      have hecx : l.ecx < 2 ^ 16 := by rw [h.ecx]; omega
      have hcx : l.cx = n - done := (u16_of_lt hecx).trans h.ecx
      rw [readKernelRobust]
      rcases Nat.eq_or_lt_of_le hdone with rfl | hlt
      · rw [if_pos (by rw [hcx, Nat.sub_self])]
        exact ⟨l, rfl, h⟩
      · rw [if_neg (by omega)]
        obtain ⟨l1, hread, hbatch⟩ := readBatch_spec hserves (by rw [h.eax]; omega)
          (by rw [h.eax, h.ecx]; omega) (by simp only [kernelLba]; omega) hecx
          (by rw [h.es]; omega)
        have hpos : 0 < batchSize l.ecx l.bx :=
          batchSize_pos (by rw [h.ecx]; omega) (u16_lt _) (by rw [h.bx]; omega)
        have hleft : batchSize l.ecx l.bx ≤ n - done := by
          rw [← h.ecx]
          exact (batchSize_le _ _).1
        have hdrive : l1.bootDrive = l.bootDrive := by rw [hbatch.stage]
        rw [hread]
        exact ih _ l1 (h.batch hserves.full hbatch rfl hlt) (hdrive ▸ hserves) (by omega)
          (by omega)

/-- The sectors of a kernel. -/
theorem parseHeader_sectors {s : Stage2} {size : Nat} (hsize : (parseHeader s).kernelSize = size)
    (hn : (size + 511) / 512 < 2 ^ 16) : (parseHeader s).kernelSectors = (size + 511) / 512 := by
  rw [show (parseHeader s).kernelSectors = u16 (u32 ((parseHeader s).kernelSize + 511) / 512)
    from rfl, hsize, u32_of_lt (by omega), u16_of_lt hn]

/-- **THE LOADER PLACES THE WHOLE KERNEL**: the requests read every sector of it
    once, in order and in its place, and the kernel body is at 0x10000. -/
theorem kernel_placed {bios : Bios} {disk : Nat → List Byte} {l : Loader} {size n : Nat}
    (hsize : (parseHeader l.toStage2).kernelSize = size) (hmax : size ≤ 0x90000)
    (hn : n = (size + 511) / 512)
    (hserves : Serves bios l.bootDrive disk (kernelLba + 1) n) :
    ∀ fuel, n < fuel →
      ∃ l' issued, loadKernel bios fuel { l with toStage2 := parseHeader l.toStage2 } = .ok l'
        ∧ l'.requests = l.requests ++ issued
        ∧ issued.flatMap Dap.transfers = placement n
        ∧ (∀ q ∈ issued, q.Fits)
        ∧ ∀ k, k < size → l'.mem.byte (0x10000 + k) = kernelByte disk k := by
  intro fuel hfuel
  have hsectors : (parseHeader l.toStage2).kernelSectors = n :=
    (parseHeader_sectors hsize (by omega)).trans hn.symm
  have hstart : Placed disk { l with toStage2 := parseHeader l.toStage2 } n 0
      { l with toStage2 := parseHeader l.toStage2, es := kernelLoadSeg, ebx := setLow l.ebx 0,
               eax := kernelLba + 1, ecx := (parseHeader l.toStage2).kernelSectors } := by
    refine ⟨rfl, hsectors, u16_setLow _ _, rfl, rfl, ⟨[], ?_, ?_, rfl⟩, ?_, rfl⟩
    · rw [List.append_nil]
    · intro q hq
      cases hq
    · intro x
      rw [if_neg (by omega)]
  obtain ⟨l', hrun, hplaced⟩ :=
    readKernelRobust_placed (by omega) fuel 0 _ hstart hserves (Nat.zero_le n) (by omega)
  obtain ⟨issued, hissued, hfits, htransfers⟩ := hplaced.requests
  refine ⟨l', issued, hrun, hissued, htransfers, hfits, fun k hk => ?_⟩
  rw [hplaced.byte, if_pos (by omega), Nat.add_sub_cancel_left]

/-! ## A kernel of two segments -/

/-- Every byte of a sector is its LBA. -/
def smallDisk (lba : Nat) : List Byte := List.replicate 512 (BitVec.ofNat 8 lba)

/-- A BIOS that reads sectors by LBA. -/
def smallBios : Bios where
  extendedRead _ dap := ⟨false, sectors smallDisk dap.lbaLow dap.num⟩
  chsRead _ _ := ⟨true, []⟩

/-- The header in the scratch segment says 0x20000 bytes. -/
def smallLoader : Loader where
  mem := ⟨fun x => if x = 0x7C0A then 2 else 0, []⟩
  bootDrive := 0x80
  kernelSize := 0
  kernelSectors := 0
  e820EntryCount := 0
  eax := 0
  ecx := 0
  edx := 0
  ebx := 0
  es := 0
  stack := []
  tmpLba := 0
  tmpCount := 0
  retryLba := 0
  retryCnt := 0
  retrySeg := 0
  retryOff := 0
  chsCyl := 0
  chsHead := 0
  chsSector := 0
  dap := ⟨0, 0, 0, 0⟩
  requests := []

theorem smallBios_serves (drive : Byte) (first count : Nat) :
    Serves smallBios drive smallDisk first count :=
  ⟨fun _ => List.length_replicate, fun _ _ _ => rfl⟩

theorem kernel_placed_two_segments :
    ∃ l' issued, loadKernel smallBios 257
        { smallLoader with toStage2 := parseHeader smallLoader.toStage2 } = .ok l'
      ∧ l'.requests = smallLoader.requests ++ issued
      ∧ issued.flatMap Dap.transfers = placement 256
      ∧ (∀ q ∈ issued, q.Fits)
      ∧ ∀ k, k < 0x20000 → l'.mem.byte (0x10000 + k) = kernelByte smallDisk k :=
  kernel_placed (l := smallLoader) (by decide) (by decide) (by decide) (smallBios_serves _ _ _)
    257 (by decide)

end PyramidBoot
