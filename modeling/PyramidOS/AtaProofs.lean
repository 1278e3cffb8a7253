import PyramidOS.FsProofs
import PyramidOS.PollProofs

/-! # Reading a sector from the disk

    `ata_read_sector` against a device that may answer anything: what a port reads is
    a function of everything that passed over the ports before.

    * `Registers`, `issued` — the device's side: the commands that the writes make;
    * `ataIssueRead_issued` — the one command of a read, as the device decodes it;
    * `ata_read_sector_trace` — everything a call does to the ports and to the buffer. -/

namespace PyramidAta

open ByteMem PyramidVfs PyramidFs BoundedPoll

/-! ## Ports -/

/-- What passed over the I/O ports. -/
inductive PortEvent where
  | inb (port : Nat) (value : Byte)
  | outb (port : Nat) (value : Byte)
  | insw (port : Nat) (bytes : List Byte)

/-- What the ports read after what has passed: a byte, or the word of that number in
    a block transfer. -/
structure PortDevice where
  byte : List PortEvent → Nat → Byte
  word : List PortEvent → Nat → Nat → BitVec 16

/-- `inb`. -/
def inb (dev : PortDevice) (port : Nat) (t : List PortEvent) : Byte × List PortEvent :=
  (dev.byte t port, t ++ [.inb port (dev.byte t port)])

/-- `outb`. -/
def outb (port : Nat) (value : Byte) (t : List PortEvent) : List PortEvent :=
  t ++ [.outb port value]

/-- The two bytes of a word. -/
def wordBytes (w : BitVec 16) : List Byte := [w.setWidth 8, (w >>> 8).setWidth 8]

/-- `insw`: the bytes it stores. -/
def insw (dev : PortDevice) (port cnt : Nat) (t : List PortEvent) :
    List Byte × List PortEvent :=
  let bytes := (List.range cnt).flatMap fun i => wordBytes (dev.word t port i)
  (bytes, t ++ [.insw port bytes])

/-! ## The driver -/

/-- The ports. -/
def ataData : Nat := 0x1F0
def ataFeatures : Nat := 0x1F1
def ataSectorCnt : Nat := 0x1F2
def ataLbaLo : Nat := 0x1F3
def ataLbaMid : Nat := 0x1F4
def ataLbaHi : Nat := 0x1F5
def ataDriveHead : Nat := 0x1F6
def ataStatus : Nat := 0x1F7
def ataCommand : Nat := 0x1F7
def ataAltStatus : Nat := 0x3F6

/-- The status bits. -/
def ataSrBsy : Byte := 0x80
def ataSrDf : Byte := 0x20
def ataSrDrq : Byte := 0x08
def ataSrErr : Byte := 0x01

/-- `ATA_CMD_READ_PIO`. -/
def ataCmdReadPio : Byte := 0x20

/-- `ATA_DRIVE_MASTER` and `ATA_DRIVE_SLAVE`. -/
def ataDriveMaster : Int := 0
def ataDriveSlave : Int := 1

/-- The values that select a drive. -/
def ataDriveSelectMaster : Nat := 0xA0
def ataDriveSelectSlave : Nat := 0xB0
def ataDriveLbaMaster : Nat := 0xE0
def ataDriveLbaSlave : Nat := 0xF0

/-- `ATA_LBA28_MAX`. -/
def ataLba28Max : Nat := 0x0FFFFFFF

/-- The return codes of `ata.c`. -/
def ataOk : Nat := 0
def ataErrTimeoutBsy : Nat := 1
def ataErrTimeoutDrq : Nat := 2
def ataErrDevice : Nat := 3
def ataErrInvalidParam : Nat := 4
def ataErrLbaRange : Nat := 5
def ataErrNoDevice : Nat := 6

/-- `ATA_PIO_TIMEOUT`. -/
def ataPioTimeout : Nat := 200000

/-- An entry of `g_ata_drive`. -/
structure AtaDriveState where
  present : Bool
  lba28Sectors : UInt32

/-- `ata_400ns_delay`. -/
def ata400nsDelay (dev : PortDevice) (t : List PortEvent) : List PortEvent :=
  let (_, t) := inb dev ataAltStatus t
  let (_, t) := inb dev ataAltStatus t
  let (_, t) := inb dev ataAltStatus t
  let (_, t) := inb dev ataAltStatus t
  t

/-- `ata_valid_drive`. -/
def ataValidDrive (drive : Int) : Bool := drive = ataDriveMaster || drive = ataDriveSlave

/-- `ata_drive_select_value`. -/
def ataDriveSelectValue (drive : Int) (lba : Bool) : Nat :=
  if lba then if drive = ataDriveMaster then ataDriveLbaMaster else ataDriveLbaSlave
  else if drive = ataDriveMaster then ataDriveSelectMaster else ataDriveSelectSlave

/-- What a wait loop makes of a status: an error ends it, and so does `ready`. -/
def statusVerdict (ready : Byte → Bool) (status : Byte) : Option Nat :=
  if status &&& ataSrErr ≠ 0 then some ataErrDevice
  else if status &&& ataSrDf ≠ 0 then some ataErrDevice
  else if ready status then some ataOk
  else none

/-- A wait loop. -/
def ataWait (ready : Byte → Bool) (timeout : Nat) (dev : PortDevice) (t : List PortEvent) :
    Nat × List PortEvent :=
  poll (inb dev ataStatus) (statusVerdict ready) timeout ataPioTimeout t

/-- `ata_wait_not_busy`. -/
def ataWaitNotBusy (dev : PortDevice) (t : List PortEvent) : Nat × List PortEvent :=
  ataWait (fun status => status &&& ataSrBsy = 0) ataErrTimeoutBsy dev t

/-- `ata_wait_drq`. -/
def ataWaitDrq (dev : PortDevice) (t : List PortEvent) : Nat × List PortEvent :=
  ataWait (fun status => status &&& ataSrDrq ≠ 0) ataErrTimeoutDrq dev t

/-- Steps 1 to 5 of `ata_read_sector`: the registers and the command. -/
def ataIssueRead (dev : PortDevice) (drive : Int) (lba : Nat) (t : List PortEvent) :
    List PortEvent :=
  let head := ataDriveSelectValue drive true ||| (lba >>> 24 &&& 0x0F)
  let t := outb ataDriveHead (BitVec.ofNat 8 head) t
  let t := ata400nsDelay dev t
  let t := outb ataFeatures 0x00 t
  let t := outb ataSectorCnt 1 t
  let t := outb ataLbaLo (BitVec.ofNat 8 (lba &&& 0xFF)) t
  let t := outb ataLbaMid (BitVec.ofNat 8 (lba >>> 8 &&& 0xFF)) t
  let t := outb ataLbaHi (BitVec.ofNat 8 (lba >>> 16 &&& 0xFF)) t
  let t := outb ataCommand ataCmdReadPio t
  ata400nsDelay dev t

/-- Steps 6 to 8: the two waits and the transfer. -/
def ataTransfer (dev : PortDevice) (buf : Buffer) (t : List PortEvent) :
    Nat × Buffer × List PortEvent :=
  let (rc, t) := ataWaitNotBusy dev t
  if rc ≠ ataOk then (rc, buf, t)
  else
    let (rc, t) := ataWaitDrq dev t
    if rc ≠ ataOk then (rc, buf, t)
    else
      let (bytes, t) := insw dev ataData 256 t
      let (_, t) := inb dev ataStatus t
      (ataOk, bufferStore buf 0 bytes, t)

/-- `ata_read_sector`: the return code, the buffer, and what has passed. -/
def ataReadSector (dev : PortDevice) (drives : Nat → AtaDriveState) (drive : Int)
    (lba : UInt32) (buffer : Option Buffer) (t : List PortEvent) :
    Nat × Option Buffer × List PortEvent :=
  match buffer with
  | none => (ataErrInvalidParam, none, t)
  | some buf =>
      if !ataValidDrive drive then (ataErrInvalidParam, some buf, t)
      else
        let state := drives drive.toNat
        if !state.present then (ataErrNoDevice, some buf, t)
        else if lba.toNat > ataLba28Max then (ataErrLbaRange, some buf, t)
        else if state.lba28Sectors ≠ 0 ∧ lba ≥ state.lba28Sectors then
          (ataErrLbaRange, some buf, t)
        else
          let (rc, buf, t) := ataTransfer dev buf (ataIssueRead dev drive lba.toNat t)
          (rc, some buf, t)

/-! ## The device's side -/

/-- The task-file registers, as the device holds them. -/
structure Registers where
  count : Byte
  lbaLo : Byte
  lbaMid : Byte
  lbaHi : Byte
  head : Byte

/-- A command: how many sectors, of which drive, from which LBA on. -/
structure AtaCommand where
  code : Byte
  count : Nat
  drive : Nat
  lbaMode : Bool
  lba : Nat
deriving DecidableEq

/-- The device latches a register. -/
def Registers.write (r : Registers) (port : Nat) (value : Byte) : Registers :=
  if port = 0x1F2 then { r with count := value }
  else if port = 0x1F3 then { r with lbaLo := value }
  else if port = 0x1F4 then { r with lbaMid := value }
  else if port = 0x1F5 then { r with lbaHi := value }
  else if port = 0x1F6 then { r with head := value }
  else r

/-- The 28-bit LBA is spread over four registers; bit 4 of the last is the drive and
    bit 6 the LBA mode. -/
def Registers.command (r : Registers) (code : Byte) : AtaCommand where
  code := code
  count := r.count.toNat
  drive := if r.head &&& 0x10 = 0 then 0 else 1
  lbaMode := r.head &&& 0x40 ≠ 0
  lba := (r.head &&& 0x0F).toNat * 2 ^ 24 + r.lbaHi.toNat * 2 ^ 16 + r.lbaMid.toNat * 2 ^ 8
    + r.lbaLo.toNat

/-- The commands that are issued: the writes to the command register. -/
def issued : Registers → List PortEvent → List AtaCommand
  | _, [] => []
  | r, .outb port value :: es =>
      if port = 0x1F7 then r.command value :: issued r es else issued (r.write port value) es
  | r, .inb _ _ :: es => issued r es
  | r, .insw _ _ :: es => issued r es

/-- A write to a port. -/
def PortEvent.isWrite : PortEvent → Bool
  | .outb _ _ => true
  | _ => false

/-- A block transfer. -/
def PortEvent.isTransfer : PortEvent → Bool
  | .insw _ _ => true
  | _ => false

/-- What the reads of the status register gave. -/
def polls : List PortEvent → List Byte
  | [] => []
  | .inb port value :: es => if port = 0x1F7 then value :: polls es else polls es
  | .outb _ _ :: es => polls es
  | .insw _ _ :: es => polls es

variable {dev : PortDevice} {drives : Nat → AtaDriveState} {drive : Int} {lba : Nat}
  {t es es' : List PortEvent} {bs : List Byte} {b : Byte} {rc n : Nat} {buf : Buffer}

theorem polls_append (es es' : List PortEvent) : polls (es ++ es') = polls es ++ polls es' := by
  induction es with
  | nil => rfl
  | cons e es ih =>
    cases e with
    | inb port value =>
      rw [List.cons_append, polls, polls, ih]
      by_cases hport : port = 0x1F7
      · rw [if_pos hport, if_pos hport]
        rfl
      · rw [if_neg hport, if_neg hport]
    | outb port value => exact ih
    | insw port bytes => exact ih

/-- The polls of the wait loops. -/
@[simp] theorem polls_status (bs : List Byte) : polls (bs.map (.inb ataStatus)) = bs := by
  induction bs with
  | nil => rfl
  | cons b bs ih =>
    show b :: polls (bs.map _) = b :: bs
    rw [ih]

/-- Reads that come first issue nothing. -/
theorem issued_reads (r : Registers) (hreads : ∀ e ∈ es, e.isWrite = false)
    (es' : List PortEvent) : issued r (es ++ es') = issued r es' := by
  induction es with
  | nil => rfl
  | cons e es ih =>
    obtain ⟨hfirst, hrest⟩ := List.forall_mem_cons.mp hreads
    cases e with
    | inb port value => exact ih hrest
    | outb port value => cases hfirst
    | insw port bytes => exact ih hrest

/-- Neither do reads that come last. -/
theorem issued_append_reads (r : Registers) (hreads : ∀ e ∈ es', e.isWrite = false) :
    issued r (es ++ es') = issued r es := by
  induction es generalizing r with
  | nil =>
    have hnone := issued_reads r hreads []
    rw [List.append_nil] at hnone
    exact hnone
  | cons e es ih =>
    cases e with
    | inb port value => exact ih r
    | insw port bytes => exact ih r
    | outb port value =>
      rw [List.cons_append, issued, issued]
      by_cases hport : port = 0x1F7
      · rw [if_pos hport, if_pos hport, ih]
      · rw [if_neg hport, if_neg hport, ih]

/-! ## The command -/

theorem and_byte (x : Nat) : x &&& 0xFF = x % 256 := Nat.and_two_pow_sub_one_eq_mod x 8

theorem and_nibble (x : Nat) : x &&& 0x0F = x % 16 := Nat.and_two_pow_sub_one_eq_mod x 4

/-- The head register of a read, taken apart. -/
theorem head_fields : ∀ x : Fin 16,
    (BitVec.ofNat 8 (ataDriveLbaMaster ||| x) &&& 0x0F).toNat = x
      ∧ BitVec.ofNat 8 (ataDriveLbaMaster ||| x) &&& 0x10 = 0
      ∧ BitVec.ofNat 8 (ataDriveLbaMaster ||| x) &&& 0x40 ≠ 0
      ∧ (BitVec.ofNat 8 (ataDriveLbaSlave ||| x) &&& 0x0F).toNat = x
      ∧ BitVec.ofNat 8 (ataDriveLbaSlave ||| x) &&& 0x10 ≠ 0
      ∧ BitVec.ofNat 8 (ataDriveLbaSlave ||| x) &&& 0x40 ≠ 0 := by
  decide +kernel

/-- What is observed at a port is what passes over it. -/
theorem observed_trace {port : Nat} {t' : List PortEvent}
    (h : Observed (inb dev port) t bs t') : t' = t ++ bs.map (.inb port) := by
  induction h with
  | nil => exact (List.append_nil _).symm
  | cons _ ih =>
    rw [ih]
    exact List.append_assoc _ _ _

/-- The delay is reads of the alternate status. -/
theorem ata400nsDelay_trace (dev : PortDevice) (t : List PortEvent) :
    ∃ vs : List Byte, ata400nsDelay dev t = t ++ vs.map (.inb ataAltStatus) := by
  have hobserved : ∃ vs, Observed (inb dev ataAltStatus) t vs (ata400nsDelay dev t) :=
    ⟨_, .cons (.cons (.cons (.cons .nil)))⟩
  obtain ⟨vs, h⟩ := hobserved
  exact ⟨vs, observed_trace h⟩

/-- The head register of a read. -/
def readHead (drive : Int) (lba : Nat) : Byte :=
  BitVec.ofNat 8 (ataDriveSelectValue drive true ||| (lba >>> 24 &&& 0x0F))

/-- The writes behind it. -/
def readWrites (lba : Nat) : List PortEvent :=
  [.outb ataFeatures 0x00, .outb ataSectorCnt 1, .outb ataLbaLo (BitVec.ofNat 8 (lba &&& 0xFF)),
    .outb ataLbaMid (BitVec.ofNat 8 (lba >>> 8 &&& 0xFF)),
    .outb ataLbaHi (BitVec.ofNat 8 (lba >>> 16 &&& 0xFF)), .outb ataCommand ataCmdReadPio]

/-- What the command puts on the ports. -/
inductive Issue (drive : Int) (lba : Nat) : List PortEvent → Prop where
  | intro (vs vs' : List Byte) :
      Issue drive lba (.outb ataDriveHead (readHead drive lba)
        :: (vs.map (.inb ataAltStatus) ++ (readWrites lba ++ vs'.map (.inb ataAltStatus))))

theorem ataIssueRead_trace (dev : PortDevice) (drive : Int) (lba : Nat) (t : List PortEvent) :
    ∃ es, ataIssueRead dev drive lba t = t ++ es ∧ Issue drive lba es := by
  obtain ⟨vs, hfirst⟩ := ata400nsDelay_trace dev
    (outb ataDriveHead (readHead drive lba) t)
  obtain ⟨vs', hlast⟩ := ata400nsDelay_trace dev
    (outb ataDriveHead (readHead drive lba) t ++ vs.map (.inb ataAltStatus) ++ readWrites lba)
  refine ⟨_, ?_, .intro vs vs'⟩
  have hwrites : ataIssueRead dev drive lba t = ata400nsDelay dev
      (ata400nsDelay dev (outb ataDriveHead (readHead drive lba) t) ++ readWrites lba) := by
    simp only [ataIssueRead, readHead, readWrites, outb, List.append_assoc, List.cons_append,
      List.nil_append]
  rw [hwrites, hfirst, hlast]
  simp only [outb, List.append_assoc, List.cons_append, List.nil_append]

/-- The registers of a read name the sector. -/
theorem Registers.command_read {head : Byte} (code : Byte)
    (hhigh : (head &&& 0x0F).toNat = lba / 2 ^ 24) (hmode : head &&& 0x40 ≠ 0) :
    Registers.command ⟨1, BitVec.ofNat 8 (lba &&& 0xFF), BitVec.ofNat 8 (lba >>> 8 &&& 0xFF),
        BitVec.ofNat 8 (lba >>> 16 &&& 0xFF), head⟩ code
      = ⟨code, 1, if head &&& 0x10 = 0 then 0 else 1, true, lba⟩ := by
  have hfield : ∀ k, (BitVec.ofNat 8 (lba >>> k &&& 0xFF)).toNat = lba / 2 ^ k % 256 := by
    intro k
    rw [and_byte, Nat.shiftRight_eq_div_pow, BitVec.toNat_ofNat, Nat.mod_mod]
  have hlow : (BitVec.ofNat 8 (lba &&& 0xFF)).toNat = lba % 256 := by
    rw [and_byte, BitVec.toNat_ofNat, Nat.mod_mod]
  have hsum : lba / 2 ^ 24 * 2 ^ 24 + lba / 2 ^ 16 % 256 * 2 ^ 16 + lba / 2 ^ 8 % 256 * 2 ^ 8
      + lba % 256 = lba := by
    omega
  rw [Registers.command, hhigh, hfield, hfield, hlow, hsum, decide_eq_true hmode]
  rfl

/-- **THE COMMAND** as the device decodes it, whatever its registers held. -/
theorem Issue.issued (h : Issue drive lba es) (hdrive : ataValidDrive drive = true)
    (hlba : lba ≤ ataLba28Max) (r : Registers) :
    ∃ d : Nat, (d : Int) = drive ∧ issued r es = [⟨ataCmdReadPio, 1, d, true, lba⟩] := by
  obtain ⟨vs, vs'⟩ := h
  have hreads : ∀ vs : List Byte, ∀ e ∈ vs.map (PortEvent.inb ataAltStatus), e.isWrite = false := by
    intro vs e he
    obtain ⟨v, -, rfl⟩ := List.mem_map.mp he
    rfl
  -- the registers when the command is written
  have hcommand : PyramidAta.issued r (.outb ataDriveHead (readHead drive lba)
      :: (vs.map (.inb ataAltStatus) ++ (readWrites lba ++ vs'.map (.inb ataAltStatus))))
      = [Registers.command ⟨1, BitVec.ofNat 8 (lba &&& 0xFF), BitVec.ofNat 8 (lba >>> 8 &&& 0xFF),
          BitVec.ofNat 8 (lba >>> 16 &&& 0xFF), readHead drive lba⟩ ataCmdReadPio] := by
    show PyramidAta.issued (r.write ataDriveHead (readHead drive lba)) _ = _
    rw [issued_reads _ (hreads vs), issued_append_reads _ (hreads vs')]
    rfl
  obtain ⟨x, hx⟩ : ∃ x : Fin 16, lba >>> 24 &&& 0x0F = x :=
    ⟨⟨lba >>> 24 &&& 0x0F, Nat.lt_succ_of_le Nat.and_le_right⟩, rfl⟩
  have hhigh : lba / 2 ^ 24 = x := by
    have hsmall : lba < 2 ^ 28 := Nat.lt_succ_of_le hlba
    rw [and_nibble, Nat.shiftRight_eq_div_pow] at hx
    omega
  obtain ⟨hnibble, hmaster, hmode, hnibble', hslave, hmode'⟩ := head_fields x
  have hcase : drive = ataDriveMaster ∨ drive = ataDriveSlave := by
    rw [ataValidDrive, Bool.or_eq_true, decide_eq_true_iff, decide_eq_true_iff] at hdrive
    exact hdrive
  rw [hcommand, readHead, hx]
  rcases hcase with rfl | rfl
  · rw [show ataDriveSelectValue ataDriveMaster true = ataDriveLbaMaster from rfl,
      Registers.command_read _ (hnibble.trans hhigh.symm) hmode, if_pos hmaster]
    exact ⟨0, rfl, rfl⟩
  · rw [show ataDriveSelectValue ataDriveSlave true = ataDriveLbaSlave from rfl,
      Registers.command_read _ (hnibble'.trans hhigh.symm) hmode', if_neg hslave]
    exact ⟨1, rfl, rfl⟩

/-! ## The waits -/

/-- A status without error. -/
def Healthy (status : Byte) : Prop := status &&& ataSrErr = 0 ∧ status &&& ataSrDf = 0

/-- A loop goes on, or ends well, only on a status without error. -/
theorem statusVerdict_healthy {ready : Byte → Bool} {status : Byte}
    (h : statusVerdict ready status ≠ some ataErrDevice) : Healthy status := by
  rw [statusVerdict] at h
  by_cases herr : status &&& ataSrErr ≠ 0
  · rw [if_pos herr] at h
    exact absurd rfl h
  rw [if_neg herr] at h
  by_cases hdf : status &&& ataSrDf ≠ 0
  · rw [if_pos hdf] at h
    exact absurd rfl h
  · exact ⟨not_not.mp herr, not_not.mp hdf⟩

theorem statusVerdict_ok {ready : Byte → Bool} {status : Byte}
    (h : statusVerdict ready status = some ataOk) : Healthy status ∧ ready status = true := by
  have hne : statusVerdict ready status ≠ some ataErrDevice := by
    rw [h]
    decide
  have hhealthy := statusVerdict_healthy hne
  rw [statusVerdict, if_neg (not_not.mpr hhealthy.1), if_neg (not_not.mpr hhealthy.2)] at h
  by_cases hready : ready status = true
  · exact ⟨hhealthy, hready⟩
  · rw [if_neg hready] at h
    cases h

theorem statusVerdict_code {ready : Byte → Bool} {status : Byte}
    (h : statusVerdict ready status = some rc) : rc = ataOk ∨ rc = ataErrDevice := by
  by_cases hdevice : statusVerdict ready status = some ataErrDevice
  · rw [hdevice] at h
    exact Or.inr (Option.some.inj h).symm
  · have hhealthy := statusVerdict_healthy hdevice
    rw [statusVerdict, if_neg (not_not.mpr hhealthy.1), if_neg (not_not.mpr hhealthy.2)] at h
    by_cases hready : ready status = true
    · rw [if_pos hready] at h
      exact Or.inl (Option.some.inj h).symm
    · rw [if_neg hready] at h
      cases h

/-- What a wait loop did: it read the status so often, and when it ended well, every
    status was without error and the last one ready. -/
structure Waited (ready : Byte → Bool) (timeout rc : Nat) (bs : List Byte) : Prop where
  bounded : bs.length ≤ ataPioTimeout
  code : rc = ataOk ∨ rc = ataErrDevice ∨ rc = timeout
  due : rc = ataOk → (∀ b ∈ bs, Healthy b) ∧ ∃ xs b, bs = xs ++ [b] ∧ ready b = true

/-- **A WAIT LOOP** against any device. -/
theorem ataWait_spec (ready : Byte → Bool) (timeout : Nat) (htimeout : timeout ≠ ataOk)
    (dev : PortDevice) (t : List PortEvent) :
    ∃ rc bs, ataWait ready timeout dev t = (rc, t ++ bs.map (.inb ataStatus))
      ∧ Waited ready timeout rc bs := by
  obtain ⟨bs, hobserved, hpolled⟩ :=
    poll_spec (inb dev ataStatus) (statusVerdict ready) timeout ataPioTimeout t
  rw [← ataWait] at hobserved hpolled
  generalize ataWait ready timeout dev t = r at hobserved hpolled
  refine ⟨r.1, bs, Prod.ext rfl (observed_trace hobserved), hpolled.length_le, ?_, fun hrc => ?_⟩
  · by_cases hout : r.1 = timeout
    · exact Or.inr (Or.inr hout)
    · obtain ⟨cs, b, -, -, hlast⟩ := hpolled.last hout
      exact (statusVerdict_code hlast).imp_right Or.inl
  · obtain ⟨cs, b, rfl, hwait, hlast⟩ := hpolled.last (hrc ▸ htimeout.symm)
    rw [hrc] at hlast
    obtain ⟨hhealthy, hready⟩ := statusVerdict_ok hlast
    refine ⟨fun c hc => ?_, cs, b, rfl, hready⟩
    rcases List.mem_append.mp hc with hearlier | hlast'
    · have hne : statusVerdict ready c ≠ some ataErrDevice := by
        rw [hwait c hearlier]
        nofun
      exact statusVerdict_healthy hne
    · rw [List.mem_singleton.mp hlast']
      exact hhealthy

/-- **THE DATA WAS DUE**: no error was seen, the device was not busy at some poll, and
    at a later one it asked for the transfer. -/
structure DataDue (bs : List Byte) : Prop where
  healthy : ∀ b ∈ bs, Healthy b
  ready : ∃ xs b ys c zs, bs = xs ++ b :: (ys ++ c :: zs) ∧ b &&& ataSrBsy = 0
    ∧ c &&& ataSrDrq ≠ 0

/-- How steps 6 to 8 end, after the polls `bs`. -/
inductive Transferred (buf : Buffer) (bs : List Byte) : Nat → Buffer → List PortEvent → Prop where
  | failed {rc : Nat} (hrc : rc = ataErrDevice ∨ rc = ataErrTimeoutBsy ∨ rc = ataErrTimeoutDrq) :
      Transferred buf bs rc buf []
  | done {bytes : List Byte} {last : Byte} (hdue : DataDue bs) (hlen : bytes.length = 512) :
      Transferred buf bs ataOk (bufferStore buf 0 bytes) [.insw ataData bytes, .inb ataStatus last]

theorem length_insw (dev : PortDevice) (port cnt : Nat) (t : List PortEvent) :
    (insw dev port cnt t).1.length = 2 * cnt := by
  show ((List.range cnt).flatMap fun i => wordBytes (dev.word t port i)).length = _
  rw [List.length_flatMap]
  simp [wordBytes, Nat.mul_comm]

/-- **THE TRANSFER** against any device. -/
theorem ataTransfer_spec (dev : PortDevice) (buf : Buffer) (t : List PortEvent) :
    ∃ rc buf' bs tail, ataTransfer dev buf t
        = (rc, buf', t ++ (bs.map (.inb ataStatus) ++ tail))
      ∧ bs.length ≤ 2 * ataPioTimeout ∧ Transferred buf bs rc buf' tail := by
  obtain ⟨rc, bs, hbusy, hw⟩ :=
    ataWait_spec (fun status => status &&& ataSrBsy = 0) ataErrTimeoutBsy (by decide) dev t
  rw [ataTransfer, ataWaitNotBusy, hbusy]
  have hbound := hw.bounded
  by_cases hrc : rc ≠ ataOk
  · refine ⟨rc, buf, bs, [], ?_, by omega, .failed ?_⟩
    · rw [List.append_nil]
      exact if_pos hrc
    · exact (hw.code.resolve_left hrc).imp_right Or.inl
  obtain ⟨rc', bs', hdrq, hw'⟩ :=
    ataWait_spec (fun status => status &&& ataSrDrq ≠ 0) ataErrTimeoutDrq (by decide) dev
      (t ++ bs.map (.inb ataStatus))
  simp only [if_neg hrc, ataWaitDrq, hdrq]
  have hbound' := hw'.bounded
  have hlen : (bs ++ bs').length ≤ 2 * ataPioTimeout := by
    rw [List.length_append]
    omega
  by_cases hrc' : rc' ≠ ataOk
  · refine ⟨rc', buf, bs ++ bs', [], ?_, hlen, .failed ?_⟩
    · rw [List.append_nil, List.map_append, ← List.append_assoc]
      exact if_pos hrc'
    · exact (hw'.code.resolve_left hrc').imp_right Or.inr
  rw [if_neg hrc']
  obtain ⟨hhealthy, xs, b, rfl, hb⟩ := hw.due (not_not.mp hrc)
  obtain ⟨hhealthy', ys, c, rfl, hc⟩ := hw'.due (not_not.mp hrc')
  generalize hpolled :
    t ++ (xs ++ [b]).map (.inb ataStatus) ++ (ys ++ [c]).map (.inb ataStatus) = t'
  refine ⟨ataOk, bufferStore buf 0 (insw dev ataData 256 t').1, xs ++ [b] ++ (ys ++ [c]),
    [.insw ataData (insw dev ataData 256 t').1,
      .inb ataStatus (dev.byte (insw dev ataData 256 t').2 ataStatus)], ?_, hlen,
    .done ⟨?_, xs, b, ys, c, [], ?_, of_decide_eq_true hb, of_decide_eq_true hc⟩
      (length_insw dev ataData 256 t')⟩
  · rw [List.map_append, ← List.append_assoc, ← List.append_assoc, hpolled, List.append_cons]
    rfl
  · intro e he
    rcases List.mem_append.mp he with hearlier | hlater
    · exact hhealthy e hearlier
    · exact hhealthy' e hlater
  · rw [List.append_assoc]
    rfl

/-! ## The call -/

/-- The codes of a call that asks nothing of the device. -/
def Refused (rc : Nat) : Prop :=
  rc = ataErrInvalidParam ∨ rc = ataErrNoDevice ∨ rc = ataErrLbaRange

/-- What `ata_read_sector` asks of the drive and the sector. -/
structure AtaAccepts (drives : Nat → AtaDriveState) (drive : Int) (lba : UInt32) : Prop where
  valid : ataValidDrive drive = true
  present : (drives drive.toNat).present = true
  range : lba.toNat ≤ ataLba28Max
  sectors : (drives drive.toNat).lba28Sectors = 0 ∨ lba < (drives drive.toNat).lba28Sectors

/-- **`ata_read_sector`** refuses the call, or goes through with it. -/
theorem ataReadSector_cases (dev : PortDevice) (drives : Nat → AtaDriveState) (drive : Int)
    (lba : UInt32) (buffer : Option Buffer) (t : List PortEvent) :
    (∃ rc, Refused rc ∧ (buffer ≠ none → ¬ AtaAccepts drives drive lba)
      ∧ ataReadSector dev drives drive lba buffer t = (rc, buffer, t))
    ∨ ∃ buf, buffer = some buf ∧ AtaAccepts drives drive lba
      ∧ ataReadSector dev drives drive lba buffer t
        = ((ataTransfer dev buf (ataIssueRead dev drive lba.toNat t)).1,
            some (ataTransfer dev buf (ataIssueRead dev drive lba.toNat t)).2.1,
            (ataTransfer dev buf (ataIssueRead dev drive lba.toNat t)).2.2) := by
  cases buffer with
  | none => exact Or.inl ⟨_, Or.inl rfl, fun h => absurd rfl h, rfl⟩
  | some buf =>
    rw [ataReadSector]
    by_cases hvalid : (!ataValidDrive drive) = true
    · rw [if_pos hvalid]
      refine Or.inl ⟨_, Or.inl rfl, fun _ hc => ?_, rfl⟩
      rw [hc.valid] at hvalid
      cases hvalid
    rw [if_neg hvalid]
    by_cases hpresent : (!(drives drive.toNat).present) = true
    · rw [if_pos hpresent]
      refine Or.inl ⟨_, Or.inr (Or.inl rfl), fun _ hc => ?_, rfl⟩
      rw [hc.present] at hpresent
      cases hpresent
    rw [if_neg hpresent]
    by_cases hrange : lba.toNat > ataLba28Max
    · rw [if_pos hrange]
      exact Or.inl ⟨_, Or.inr (Or.inr rfl), fun _ hc => Nat.not_lt.mpr hc.range hrange, rfl⟩
    rw [if_neg hrange]
    by_cases hsize : (drives drive.toNat).lba28Sectors ≠ 0
        ∧ lba ≥ (drives drive.toNat).lba28Sectors
    · rw [if_pos hsize]
      refine Or.inl ⟨_, Or.inr (Or.inr rfl), fun _ hc => ?_, rfl⟩
      rcases hc.sectors with hzero | hlt
      · exact hsize.1 hzero
      · exact UInt32.not_lt.mpr hsize.2 hlt
    · rw [if_neg hsize]
      refine Or.inr ⟨buf, rfl, ⟨?_, ?_, Nat.not_lt.mp hrange, ?_⟩, rfl⟩
      · exact eq_true_of_ne_false fun hc => hvalid (by rw [hc]; rfl)
      · exact eq_true_of_ne_false fun hc => hpresent (by rw [hc]; rfl)
      · by_cases hzero : (drives drive.toNat).lba28Sectors = 0
        · exact Or.inl hzero
        · exact Or.inr (UInt32.not_le.mp fun hle => hsize ⟨hzero, hle⟩)

/-- What passed before the data. -/
def beforeData (es : List PortEvent) : List PortEvent := es.takeWhile fun e => !e.isTransfer

/-- **WHAT A READ DOES** to the ports and to the buffer. -/
structure SectorRead (drive : Int) (lba : UInt32) (buffer : Option Buffer) (rc : Nat)
    (buffer' : Option Buffer) (es : List PortEvent) : Prop where
  bounded : (polls (beforeData es)).length ≤ 2 * 200000
  quiet : Refused rc → ∀ e ∈ es, e.isWrite = false
  command : ¬ Refused rc → ∀ r : Registers, ∃ d : Nat, (d : Int) = drive
    ∧ issued r es = [⟨ataCmdReadPio, 1, d, true, lba.toNat⟩]
  moved : (rc = ataOk ∧ DataDue (polls (beforeData es))
      ∧ ∃ bytes buf, es.filter PortEvent.isTransfer = [.insw ataData bytes]
        ∧ bytes.length = 512 ∧ buffer = some buf ∧ buffer' = some (bufferStore buf 0 bytes))
    ∨ (rc ≠ ataOk ∧ es.filter PortEvent.isTransfer = [] ∧ buffer' = buffer)

/-- What the command puts on the ports holds no poll and no data. -/
theorem Issue.quiet (h : Issue drive lba es) :
    polls es = [] ∧ ∀ e ∈ es, e.isTransfer = false := by
  obtain ⟨vs, vs'⟩ := h
  have hpolls : ∀ vs : List Byte, polls (vs.map (.inb ataAltStatus)) = [] := by
    intro vs
    induction vs with
    | nil => rfl
    | cons v vs ih => exact ih
  constructor
  · show polls (vs.map (.inb ataAltStatus) ++ _) = []
    rw [polls_append, polls_append, hpolls, hpolls]
    rfl
  · intro e he
    simp only [readWrites, List.mem_cons, List.mem_append, List.mem_map, List.not_mem_nil,
      or_false] at he
    rcases he with rfl | ⟨v, -, rfl⟩ | (rfl | rfl | rfl | rfl | rfl | rfl) | ⟨v, -, rfl⟩ <;> rfl

/-- What comes behind the polls is the data or nothing. -/
theorem Transferred.quiet {buf' : Buffer} (h : Transferred buf bs rc buf' es) :
    ¬ Refused rc ∧ beforeData es = [] ∧ ∀ e ∈ es, e.isWrite = false := by
  cases h with
  | failed hrc =>
    refine ⟨?_, rfl, fun e he => (nomatch he)⟩
    rcases hrc with rfl | rfl | rfl <;> unfold Refused <;> decide
  | done _ _ =>
    refine ⟨by unfold Refused; decide, rfl, fun e he => ?_⟩
    rcases List.mem_pair.mp he with rfl | rfl <;> rfl

/-- What transfers nothing comes before the data. -/
theorem beforeData_append (h : ∀ e ∈ es, e.isTransfer = false) (es' : List PortEvent) :
    beforeData (es ++ es') = es ++ beforeData es' :=
  List.takeWhile_append_of_pos fun e he => by rw [h e he]; rfl

theorem transfers_append (h : ∀ e ∈ es, e.isTransfer = false) (es' : List PortEvent) :
    (es ++ es').filter PortEvent.isTransfer = es'.filter PortEvent.isTransfer := by
  have hnone : es.filter PortEvent.isTransfer = [] :=
    List.filter_eq_nil_iff.mpr fun e he => by
      rw [h e he]
      exact Bool.false_ne_true
  rw [List.filter_append, hnone, List.nil_append]

/-- A call, and when it is refused. -/
theorem ataReadSector_spec (dev : PortDevice) (drives : Nat → AtaDriveState) (drive : Int)
    (lba : UInt32) (buffer : Option Buffer) (t : List PortEvent) :
    ∃ rc buffer' es, ataReadSector dev drives drive lba buffer t = (rc, buffer', t ++ es)
      ∧ SectorRead drive lba buffer rc buffer' es
      ∧ (Refused rc ↔ buffer ≠ none → ¬ AtaAccepts drives drive lba) := by
  rcases ataReadSector_cases dev drives drive lba buffer t with
    ⟨rc, hrefused, hnot, hcall⟩ | ⟨buf, rfl, haccepts, hcall⟩
  · rw [hcall]
    have hrc : rc ≠ ataOk := by
      rintro rfl
      exact absurd hrefused (by unfold Refused; decide)
    exact ⟨rc, buffer, [], by rw [List.append_nil], ⟨Nat.zero_le _, fun _ e he => (nomatch he),
      fun hnot => absurd hrefused hnot, Or.inr ⟨hrc, rfl, rfl⟩⟩, iff_of_true hrefused hnot⟩
  obtain ⟨issue, hissue, hcommand⟩ := ataIssueRead_trace dev drive lba.toNat t
  obtain ⟨rc, buf', bs, tail, htransfer, hbound, hend⟩ :=
    ataTransfer_spec dev buf (t ++ issue)
  rw [hissue, htransfer] at hcall
  obtain ⟨hnopoll, hnodata⟩ := hcommand.quiet
  have hstatus : ∀ e ∈ bs.map (PortEvent.inb ataStatus),
      e.isTransfer = false ∧ e.isWrite = false := by
    intro e he
    obtain ⟨b, -, rfl⟩ := List.mem_map.mp he
    exact ⟨rfl, rfl⟩
  obtain ⟨hcode, hnone, hreads⟩ := hend.quiet
  refine ⟨rc, some buf', issue ++ (bs.map (.inb ataStatus) ++ tail), ?_, ?_,
    iff_of_false hcode fun hnot => hnot nofun haccepts⟩
  · rw [hcall, List.append_assoc]
  have hnodata' : ∀ e ∈ bs.map (PortEvent.inb ataStatus), e.isTransfer = false :=
    fun e he => (hstatus e he).1
  have hpolls : polls (beforeData (issue ++ (bs.map (.inb ataStatus) ++ tail))) = bs := by
    rw [beforeData_append hnodata, beforeData_append hnodata', hnone, List.append_nil,
      polls_append, hnopoll, polls_status]
    rfl
  have hfilter : (issue ++ (bs.map (PortEvent.inb ataStatus) ++ tail)).filter PortEvent.isTransfer
      = tail.filter PortEvent.isTransfer := by
    rw [transfers_append hnodata, transfers_append hnodata']
  refine ⟨?_, fun hc => absurd hc hcode, fun _ r => ?_, ?_⟩
  · rw [hpolls]
    exact hbound
  · obtain ⟨d, hd, hissued⟩ := hcommand.issued haccepts.valid haccepts.range r
    refine ⟨d, hd, ?_⟩
    rw [issued_append_reads, hissued]
    intro e he
    rcases List.mem_append.mp he with hb | ht
    · exact (hstatus e hb).2
    · exact hreads e ht
  · rw [hpolls, hfilter]
    cases hend with
    | failed hrc =>
      refine Or.inr ⟨?_, rfl, rfl⟩
      rcases hrc with rfl | rfl | rfl <;> decide
    | @done bytes last hdue hlen => exact Or.inl ⟨rfl, hdue, bytes, buf, rfl, hlen, rfl, rfl⟩

/-- **`ata_read_sector` AGAINST ANY DEVICE**: for every drive, sector, buffer and table
    of drives, whatever the ports read and whatever passed before. -/
theorem ata_read_sector_trace (dev : PortDevice) (drives : Nat → AtaDriveState) (drive : Int)
    (lba : UInt32) (buffer : Option Buffer) (t : List PortEvent) :
    ∃ rc buffer' es, ataReadSector dev drives drive lba buffer t = (rc, buffer', t ++ es)
      ∧ SectorRead drive lba buffer rc buffer' es := by
  obtain ⟨rc, buffer', es, hcall, hread, -⟩ :=
    ataReadSector_spec dev drives drive lba buffer t
  exact ⟨rc, buffer', es, hcall, hread⟩

end PyramidAta
