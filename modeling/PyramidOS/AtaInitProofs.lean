import PyramidOS.AtaProofs
import PyramidOS.RunProofs

/-! # Probing the drives, and every command that goes over the bus

    `ata_identify_pio` and `ata_init` fill the table that `ata_read_sector` consults.
    The drive answers as it likes, so what holds of a run is said of the ports: which
    commands are written, in view of what the earlier ones brought.

    * `watch` — the commands as the drive decodes them, each with what was read
      afterwards; `table` — what the IDENTIFY commands among them told;
    * `Lawful` — every command is permitted by what was told before it;
    * `ataProbe_logged`, `ataReadSector_logged` — one call;
    * `ata_commands_run` — over every run of calls. -/

namespace PyramidAta

open ByteMem PyramidVfs PyramidFs BoundedPoll LabelledRun

/-! ## The driver -/

/-- `ATA_CMD_IDENTIFY`. -/
def ataCmdIdentify : Byte := 0xEC

/-- `ATA_ERR_UNSUPPORTED`. -/
def ataErrUnsupported : Nat := 7

/-- `ata_select_drive`. -/
def ataSelectDrive (dev : PortDevice) (drive : Int) (lba : Bool) (t : List PortEvent) :
    List PortEvent :=
  let t := outb ataDriveHead (BitVec.ofNat 8 (ataDriveSelectValue drive lba)) t
  ata400nsDelay dev t

/-- The registers and the command of `ata_identify_pio`. -/
def ataIssueIdentify (dev : PortDevice) (drive : Int) (t : List PortEvent) : List PortEvent :=
  let t := ataSelectDrive dev drive false t
  let t := outb ataSectorCnt 0 t
  let t := outb ataLbaLo 0 t
  let t := outb ataLbaMid 0 t
  let t := outb ataLbaHi 0 t
  let t := outb ataCommand ataCmdIdentify t
  ata400nsDelay dev t

/-- The words that `insw` stores. -/
def inswWords (dev : PortDevice) (port cnt : Nat) (t : List PortEvent) : List (BitVec 16) :=
  (List.range cnt).map (dev.word t port)

/-- The end of `ata_identify_pio`: the wait for the data, and the data. -/
def ataIdentifyData (dev : PortDevice) (ident : List (BitVec 16)) (t : List PortEvent) :
    Nat × List (BitVec 16) × List PortEvent :=
  let (rc, t) := ataWaitDrq dev t
  if rc ≠ ataOk then (rc, ident, t)
  else
    let ident := inswWords dev ataData 256 t
    let (_, t) := insw dev ataData 256 t
    let (_, t) := inb dev ataStatus t
    (ataOk, ident, t)

/-- From the wait for the drive on, with the check for the signature of ATAPI. -/
def ataIdentifyReady (dev : PortDevice) (ident : List (BitVec 16)) (t : List PortEvent) :
    Nat × List (BitVec 16) × List PortEvent :=
  let (rc, t) := ataWaitNotBusy dev t
  if rc ≠ ataOk then (rc, ident, t)
  else
    let (mid, t) := inb dev ataLbaMid t
    let (hi, t) := inb dev ataLbaHi t
    if mid ≠ 0 ∨ hi ≠ 0 then (ataErrUnsupported, ident, t)
    else ataIdentifyData dev ident t

/-- What `ata_identify_pio` reads once the command is written: the return code, the
    array, and what has passed. -/
def ataIdentifyAnswer (dev : PortDevice) (ident : List (BitVec 16)) (t : List PortEvent) :
    Nat × List (BitVec 16) × List PortEvent :=
  let (status, t) := inb dev ataStatus t
  if status = 0 then (ataErrNoDevice, ident, t)
  else ataIdentifyReady dev ident t

/-- `ata_identify_pio`: `none` is the NULL pointer. -/
def ataIdentifyPio (dev : PortDevice) (drive : Int) (outIdent : Option (List (BitVec 16)))
    (t : List PortEvent) : Nat × Option (List (BitVec 16)) × List PortEvent :=
  match outIdent with
  | none => (ataErrInvalidParam, none, t)
  | some ident =>
      if !ataValidDrive drive then (ataErrInvalidParam, some ident, t)
      else
        let (rc, ident, t) := ataIdentifyAnswer dev ident (ataIssueIdentify dev drive t)
        (rc, some ident, t)

/-- Words 60 and 61. -/
def identSectors (ident : List (BitVec 16)) : UInt32 :=
  UInt32.ofBitVec ((ident.getD 60 0).setWidth 32 ||| (ident.getD 61 0).setWidth 32 <<< 16)

/-- An entry that is marked absent. -/
def ataAbsent : AtaDriveState := ⟨false, 0⟩

/-- A turn of the probing loop of `ata_init`; `stack` is what its array holds before. -/
def ataProbe (dev : PortDevice) (stack : Nat → List (BitVec 16)) (d : Nat)
    (drives : Nat → AtaDriveState) (t : List PortEvent) :
    (Nat → AtaDriveState) × List PortEvent :=
  match ataIdentifyPio dev d (some (stack d)) t with
  | (rc, ident, t) =>
      if rc = ataOk then (Function.update drives d ⟨true, identSectors (ident.getD [])⟩, t)
      else (Function.update drives d ataAbsent, t)

/-- `ata_init`. -/
def ataInit (dev : PortDevice) (stack : Nat → List (BitVec 16)) (drives : Nat → AtaDriveState)
    (t : List PortEvent) : (Nat → AtaDriveState) × List PortEvent :=
  let drives := (List.range 2).foldl (fun drives d => Function.update drives d ataAbsent) drives
  (List.range 2).foldl (fun s d => ataProbe dev stack d s.1 s.2) (drives, t)

/-- `ata_is_present`. -/
def ataIsPresent (drives : Nat → AtaDriveState) (drive : Int) : Bool :=
  if !ataValidDrive drive then false else (drives drive.toNat).present

/-- `ata_get_lba28_sectors`. -/
def ataGetLba28Sectors (drives : Nat → AtaDriveState) (drive : Int) : UInt32 :=
  if !ataValidDrive drive then 0 else (drives drive.toNat).lba28Sectors

/-! ## The bus, watched -/

/-- A command, the statuses that were read between it and its data, what was read of the
    signature registers, and the data. -/
structure Transaction where
  command : AtaCommand
  polls : List Byte
  signature : List Byte
  data : List (List Byte)

/-- A command to which nothing has happened yet. -/
def fresh (c : AtaCommand) : Transaction := ⟨c, [], [], []⟩

/-- What a read of a register adds to the command it follows. -/
def Transaction.inb (x : Transaction) (port : Nat) (value : Byte) : Transaction :=
  if port = 0x1F7 then { x with polls := if x.data = [] then x.polls ++ [value] else x.polls }
  else if port = 0x1F4 ∨ port = 0x1F5 then { x with signature := x.signature ++ [value] }
  else x

/-- The registers, and the commands so far, the last one first. -/
def watch (s : Registers × List Transaction) : PortEvent → Registers × List Transaction
  | .outb port value =>
      if port = 0x1F7 then (s.1, fresh (s.1.command value) :: s.2)
      else (s.1.write port value, s.2)
  | .inb port value => (s.1, s.2.modifyHead fun x => x.inb port value)
  | .insw _ bytes => (s.1, s.2.modifyHead fun x => { x with data := x.data ++ [bytes] })

/-- The commands that went over the bus. -/
def history (r : Registers) (t : List PortEvent) : List Transaction := (t.foldl watch (r, [])).2

/-- Word `k` of what a block transfer stored. -/
def wordOf (bytes : List Byte) (k : Nat) : BitVec 16 :=
  bytes.getD (2 * k + 1) 0 ++ bytes.getD (2 * k) 0

/-- The number of sectors an IDENTIFY reports. -/
def reported (bytes : List Byte) : Nat :=
  (wordOf bytes 60).toNat + (wordOf bytes 61).toNat * 2 ^ 16

/-- What the IDENTIFY commands told, the last one of each drive: nothing, or a size. -/
def table : List Transaction → Nat → Option Nat
  | [], _ => none
  | x :: earlier, d =>
      if x.command.code = 0xEC ∧ x.command.drive = d then x.data.head?.map reported
      else table earlier d

/-- The data of a command: none, or one sector that was due. -/
structure Delivered (x : Transaction) (polls : List Byte) : Prop where
  once : x.data.length ≤ 1
  whole : ∀ bytes ∈ x.data, bytes.length = 512
  due : x.data ≠ [] → DataDue polls

/-- **WHAT MAY GO OVER THE BUS**, when the drives are known as `known` says. -/
inductive Permitted (known : Nat → Option Nat) (x : Transaction) : Prop where
  | identify {d : Nat} (hdrive : d < 2) (hcommand : x.command = ⟨0xEC, 0, d, false, 0⟩)
      (status : Byte) (polls : List Byte) (hpolls : x.polls = status :: polls)
      (hsignature : x.data ≠ [] → status ≠ 0 ∧ x.signature = [0, 0])
      (hdata : Delivered x polls) : Permitted known x
  | read {d size lba : Nat} (hdrive : d < 2) (hcommand : x.command = ⟨0x20, 1, d, true, lba⟩)
      (hknown : known d = some size) (hsize : size = 0 ∨ lba < size) (hlba : lba < 2 ^ 28)
      (hdata : Delivered x x.polls) : Permitted known x

/-- Every command is permitted by what the earlier ones told, and no wait is longer than
    two time-outs. -/
def Lawful : List Transaction → Prop
  | [] => True
  | x :: earlier =>
      Permitted (table earlier) x ∧ x.polls.length ≤ 2 * 200000 + 1 ∧ Lawful earlier

variable {dev : PortDevice} {drives : Nat → AtaDriveState} {drive : Int} {r r' : Registers}
  {t es es' : List PortEvent} {log : List Transaction} {x : Transaction} {bs : List Byte}

/-! ## What the watcher sees -/

/-- Writes, and the reads of the delay, are only seen by their commands. -/
theorem watch_issued (hquiet : ∀ e ∈ es, e.isWrite = true ∨ ∃ v, e = .inb ataAltStatus v) :
    ∃ r', es.foldl watch (r, log) = (r', (issued r es).reverse.map fresh ++ log) := by
  induction es generalizing r log with
  | nil => exact ⟨r, rfl⟩
  | cons e es ih =>
    obtain ⟨hfirst, hrest⟩ := List.forall_mem_cons.mp hquiet
    cases e with
    | inb port value =>
      obtain hwrite | ⟨v, heq⟩ := hfirst
      · cases hwrite
      cases heq
      have hstay : watch (r, log) (.inb ataAltStatus value) = (r, log) := by
        cases log <;> rfl
      rw [List.foldl_cons, hstay]
      exact ih hrest
    | outb port value =>
      rw [List.foldl_cons, watch, issued]
      by_cases hport : port = 0x1F7
      · obtain ⟨r', hr'⟩ := @ih r (fresh (r.command value) :: log) hrest
        refine ⟨r', ?_⟩
        rw [if_pos hport, if_pos hport, hr', List.reverse_cons, List.map_append, List.append_assoc]
        rfl
      · rw [if_neg hport, if_neg hport]
        exact ih hrest
    | insw port bytes =>
      obtain hwrite | ⟨v, heq⟩ := hfirst
      · cases hwrite
      · cases heq

/-- The polls of a wait loop. -/
theorem watch_polls (hx : x.data = []) (bs : List Byte) :
    (bs.map (.inb ataStatus)).foldl watch (r, x :: log)
      = (r, { x with polls := x.polls ++ bs } :: log) := by
  induction bs generalizing x with
  | nil =>
    rw [List.append_nil]
    rfl
  | cons b bs ih =>
    have hfirst : watch (r, x :: log) (.inb ataStatus b)
        = (r, { x with polls := x.polls ++ [b] } :: log) := by
      show (r, x.inb 0x1F7 b :: log) = _
      rw [Transaction.inb, if_pos rfl, if_pos hx]
    have hrest := ih (x := { x with polls := x.polls ++ [b] }) hx
    rw [List.map_cons, List.foldl_cons, hfirst, hrest, List.append_assoc]
    rfl

/-- The signature. -/
theorem watch_signature (mid hi : Byte) :
    [PortEvent.inb ataLbaMid mid, .inb ataLbaHi hi].foldl watch (r, x :: log)
      = (r, { x with signature := x.signature ++ [mid] ++ [hi] } :: log) := rfl

/-- The data, and the status that is read to flush it. -/
theorem watch_data (hx : x.data = []) (bytes : List Byte) (last : Byte) :
    [PortEvent.insw ataData bytes, .inb ataStatus last].foldl watch (r, x :: log)
      = (r, { x with data := [bytes] } :: log) := by
  show (r, Transaction.inb { x with data := x.data ++ [bytes] } 0x1F7 last :: log) = _
  rw [hx, Transaction.inb, if_pos rfl]
  exact congrArg (fun polls => (r, (⟨x.command, polls, x.signature, [bytes]⟩ : Transaction) :: log))
    (if_neg (List.cons_ne_nil _ _))

/-! ## IDENTIFY -/

/-- The head register of an IDENTIFY. -/
def identifyHead (drive : Int) : Byte := BitVec.ofNat 8 (ataDriveSelectValue drive false)

/-- The writes behind it. -/
def identifyWrites : List PortEvent :=
  [.outb ataSectorCnt 0, .outb ataLbaLo 0, .outb ataLbaMid 0, .outb ataLbaHi 0,
    .outb ataCommand ataCmdIdentify]

theorem ataIssueIdentify_trace (dev : PortDevice) (drive : Int) (t : List PortEvent) :
    ∃ vs vs' : List Byte, ataIssueIdentify dev drive t
      = t ++ (.outb ataDriveHead (identifyHead drive)
        :: (vs.map (.inb ataAltStatus) ++ (identifyWrites ++ vs'.map (.inb ataAltStatus)))) := by
  obtain ⟨vs, hfirst⟩ := ata400nsDelay_trace dev (outb ataDriveHead (identifyHead drive) t)
  obtain ⟨vs', hlast⟩ := ata400nsDelay_trace dev
    (outb ataDriveHead (identifyHead drive) t ++ vs.map (.inb ataAltStatus) ++ identifyWrites)
  refine ⟨vs, vs', ?_⟩
  have hwrites : ataIssueIdentify dev drive t = ata400nsDelay dev
      (ata400nsDelay dev (outb ataDriveHead (identifyHead drive) t) ++ identifyWrites) := by
    simp only [ataIssueIdentify, ataSelectDrive, identifyHead, identifyWrites, outb,
      List.append_assoc, List.cons_append, List.nil_append]
  rw [hwrites, hfirst, hlast]
  simp only [outb, List.append_assoc, List.cons_append, List.nil_append]

/-- Writes among delays are quiet. -/
theorem quiet_issue {head : Byte} {writes : List PortEvent}
    (hwrites : ∀ e ∈ writes, e.isWrite = true) (vs vs' : List Byte) :
    ∀ e ∈ PortEvent.outb ataDriveHead head
      :: (vs.map (.inb ataAltStatus) ++ (writes ++ vs'.map (.inb ataAltStatus))),
    e.isWrite = true ∨ ∃ v, e = .inb ataAltStatus v := by
  have hdelay : ∀ vs : List Byte, ∀ e ∈ vs.map (PortEvent.inb ataAltStatus),
      e.isWrite = true ∨ ∃ v, e = .inb ataAltStatus v := by
    intro vs e he
    obtain ⟨v, -, rfl⟩ := List.mem_map.mp he
    exact Or.inr ⟨v, rfl⟩
  intro e he
  rcases List.mem_cons.mp he with rfl | he
  · exact Or.inl rfl
  rcases List.mem_append.mp he with he | he
  · exact hdelay vs e he
  rcases List.mem_append.mp he with he | he
  · exact Or.inl (hwrites e he)
  · exact hdelay vs' e he

/-- **THE IDENTIFY COMMAND**, as the drive decodes it. -/
theorem ataIssueIdentify_logged (dev : PortDevice) {d : Nat} (hd : d < 2) (t : List PortEvent) :
    ∃ es, ataIssueIdentify dev d t = t ++ es
      ∧ ∀ r log, ∃ r', es.foldl watch (r, log) = (r', fresh ⟨0xEC, 0, d, false, 0⟩ :: log) := by
  obtain ⟨vs, vs', htrace⟩ := ataIssueIdentify_trace dev d t
  refine ⟨_, htrace, fun r log => ?_⟩
  have hissued : issued r (.outb ataDriveHead (identifyHead d)
      :: (vs.map (.inb ataAltStatus) ++ (identifyWrites ++ vs'.map (.inb ataAltStatus))))
      = [⟨0xEC, 0, d, false, 0⟩] := by
    have hreads : ∀ vs : List Byte, ∀ e ∈ vs.map (PortEvent.inb ataAltStatus),
        e.isWrite = false := by
      intro vs e he
      obtain ⟨v, -, rfl⟩ := List.mem_map.mp he
      rfl
    show issued (r.write ataDriveHead (identifyHead d)) _ = _
    rw [issued_reads _ (hreads vs), issued_append_reads _ (hreads vs')]
    obtain rfl | rfl : d = 0 ∨ d = 1 := by omega
    · show [Registers.command ⟨0, 0, 0, 0, identifyHead 0⟩ ataCmdIdentify] = _
      decide +kernel
    · show [Registers.command ⟨0, 0, 0, 0, identifyHead 1⟩ ataCmdIdentify] = _
      decide +kernel
  have hwrites : ∀ e ∈ identifyWrites, e.isWrite = true := by decide
  obtain ⟨r', hwatch⟩ := @watch_issued r _ log (quiet_issue hwrites vs vs')
  rw [hissued] at hwatch
  exact ⟨r', hwatch⟩

/-- Entry `j` of word `i`, in words of two bytes each. -/
theorem getD_flatMap_pairs {f : Nat → List Byte} (hlen : ∀ i, (f i).length = 2) {n i j : Nat}
    (hi : i < n) (hj : j < 2) :
    ((List.range n).flatMap f).getD (2 * i + j) 0 = (f i).getD j 0 := by
  induction n with
  | zero => exact absurd hi (Nat.not_lt_zero i)
  | succ n ih =>
    have hbefore : ((List.range n).flatMap f).length = 2 * n := by
      rw [List.length_flatMap]
      simp [hlen, Nat.mul_comm]
    rw [List.range_succ, List.flatMap_append, List.flatMap_singleton]
    by_cases hin : i < n
    · rw [List.getD_append _ _ _ _ (by omega), ih hin]
    · obtain rfl : i = n := by omega
      rw [List.getD_append_right _ _ _ _ (by omega), hbefore, Nat.add_sub_cancel_left]

/-- The words a transfer stores are those of its bytes. -/
theorem wordOf_insw (dev : PortDevice) (port : Nat) {cnt k : Nat} (t : List PortEvent)
    (hk : k < cnt) :
    wordOf (insw dev port cnt t).1 k = (inswWords dev port cnt t).getD k 0 := by
  have hbyte : ∀ j, j < 2 → (insw dev port cnt t).1.getD (2 * k + j) 0
      = (wordBytes (dev.word t port k)).getD j 0 := fun j hj =>
    getD_flatMap_pairs (fun _ => rfl) hk hj
  have hword : (inswWords dev port cnt t).getD k 0 = dev.word t port k := by
    rw [inswWords, List.getD_eq_getElem _ _ (by simpa using hk)]
    simp
  rw [wordOf, hbyte 1 (by omega), show 2 * k = 2 * k + 0 from rfl, hbyte 0 (by omega), hword]
  generalize dev.word t port k = w
  show (w >>> 8).setWidth 8 ++ w.setWidth 8 = w
  ext i hi
  rw [BitVec.getElem_append]
  by_cases hlow : i < 8
  · simpa [hlow] using BitVec.getLsbD_eq_getElem hi
  · simpa [hlow, show 8 + (i - 8) = i by omega] using BitVec.getLsbD_eq_getElem hi

/-- Two words put together. -/
theorem words_toNat (low high : BitVec 16) :
    (low.setWidth 32 ||| high.setWidth 32 <<< 16).toNat = low.toNat + high.toNat * 2 ^ 16 := by
  have hlow := low.isLt
  have hhigh := high.isLt
  have hshift : (high.setWidth 32 <<< 16).toNat = high.toNat <<< 16 := by
    rw [BitVec.toNat_shiftLeft, BitVec.toNat_setWidth,
      Nat.mod_eq_of_lt (by omega : high.toNat < 2 ^ 32), Nat.shiftLeft_eq,
      Nat.mod_eq_of_lt (by omega : high.toNat * 2 ^ 16 < 2 ^ 32)]
  rw [BitVec.toNat_or, hshift, BitVec.toNat_setWidth,
    Nat.mod_eq_of_lt (by omega : low.toNat < 2 ^ 32), Nat.or_comm,
    ← Nat.shiftLeft_add_eq_or_of_lt hlow, Nat.shiftLeft_eq, Nat.add_comm]

/-- The size that `ata_init` takes from the array is the one the data report. -/
theorem reported_insw (dev : PortDevice) (t : List PortEvent) :
    (identSectors (inswWords dev ataData 256 t)).toNat
      = reported (insw dev ataData 256 t).1 := by
  rw [reported, wordOf_insw dev ataData t (show 60 < 256 by decide),
    wordOf_insw dev ataData t (show 61 < 256 by decide)]
  exact words_toNat _ _

/-- What came of a part of `ata_identify_pio`: the statuses `bs` and the data, if they
    were due, with their size in the array. -/
structure DataRead (rc : Nat) (ident : List (BitVec 16)) (bs : List Byte)
    (data : List (List Byte)) : Prop where
  code : rc = ataOk ↔ data ≠ []
  once : data.length ≤ 1
  whole : ∀ bytes ∈ data, bytes.length = 512
  size : ∀ bytes ∈ data, (identSectors ident).toNat = reported bytes
  healthy : data ≠ [] → ∀ b ∈ bs, Healthy b

/-- Without data. -/
theorem dataRead_failed {rc : Nat} (ident : List (BitVec 16)) (bs : List Byte) (hrc : rc ≠ ataOk) :
    DataRead rc ident bs [] where
  code := iff_of_false hrc fun h => h rfl
  once := Nat.zero_le _
  whole := fun _ h => absurd h List.not_mem_nil
  size := fun _ h => absurd h List.not_mem_nil
  healthy := fun h => absurd rfl h

/-- The events `es` add statuses, a signature and data to the last command. -/
def Adds (es : List PortEvent) (bs sig : List Byte) (data : List (List Byte)) : Prop :=
  ∀ c r log polls, es.foldl watch (r, ⟨c, polls, [], []⟩ :: log)
    = (r, ⟨c, polls ++ bs, sig, data⟩ :: log)

/-- The wait for the data, and the data. -/
theorem ataIdentifyData_spec (dev : PortDevice) (ident : List (BitVec 16)) (t : List PortEvent) :
    ∃ rc ident' es bs data, ataIdentifyData dev ident t = (rc, ident', t ++ es)
      ∧ bs.length ≤ ataPioTimeout ∧ DataRead rc ident' bs data
      ∧ (data ≠ [] → ∃ ys e, bs = ys ++ [e] ∧ e &&& ataSrDrq ≠ 0)
      ∧ ∀ c r log polls sig, es.foldl watch (r, ⟨c, polls, sig, []⟩ :: log)
        = (r, ⟨c, polls ++ bs, sig, data⟩ :: log) := by
  obtain ⟨rc, bs, hdrq, hw⟩ :=
    ataWait_spec (fun status => status &&& ataSrDrq ≠ 0) ataErrTimeoutDrq (by decide) dev t
  rw [ataIdentifyData, ataWaitDrq, hdrq]
  by_cases hrc : rc ≠ ataOk
  · exact ⟨rc, ident, bs.map (.inb ataStatus), bs, [], if_pos hrc, hw.bounded,
      dataRead_failed ident bs hrc, fun h => absurd rfl h,
      fun c r log polls sig => watch_polls (x := ⟨c, polls, sig, []⟩) rfl bs⟩
  obtain ⟨hhealthy, ys, e, hbs, he⟩ := hw.due (not_not.mp hrc)
  generalize hpolled : t ++ bs.map (PortEvent.inb ataStatus) = t'
  refine ⟨ataOk, inswWords dev ataData 256 t', bs.map (.inb ataStatus)
      ++ [.insw ataData (insw dev ataData 256 t').1,
        .inb ataStatus (dev.byte (insw dev ataData 256 t').2 ataStatus)],
    bs, [(insw dev ataData 256 t').1], ?_, hw.bounded, ?_,
    fun _ => ⟨ys, e, hbs, of_decide_eq_true he⟩, fun c r log polls sig => ?_⟩
  · rw [← List.append_assoc, hpolled, List.append_cons]
    exact if_neg hrc
  · refine ⟨iff_of_true rfl (List.cons_ne_nil _ _), Nat.le_refl 1, fun bytes hbytes => ?_,
      fun bytes hbytes => ?_, fun _ => hhealthy⟩
    · rw [List.mem_singleton.mp hbytes]
      exact length_insw dev ataData 256 t'
    · rw [List.mem_singleton.mp hbytes]
      exact reported_insw dev t'
  · rw [List.foldl_append, watch_polls (x := ⟨c, polls, sig, []⟩) rfl bs]
    exact watch_data (x := ⟨c, polls ++ bs, sig, []⟩) rfl _ _

/-- From the wait for the drive on. -/
theorem ataIdentifyReady_spec (dev : PortDevice) (ident : List (BitVec 16)) (t : List PortEvent) :
    ∃ rc ident' es bs sig data, ataIdentifyReady dev ident t = (rc, ident', t ++ es)
      ∧ bs.length ≤ 2 * ataPioTimeout ∧ DataRead rc ident' bs data
      ∧ (data ≠ [] → sig = [0, 0] ∧ DataDue bs) ∧ Adds es bs sig data := by
  obtain ⟨rc, bs, hbusy, hw⟩ :=
    ataWait_spec (fun status => status &&& ataSrBsy = 0) ataErrTimeoutBsy (by decide) dev t
  have hbound := hw.bounded
  rw [ataIdentifyReady, ataWaitNotBusy, hbusy]
  by_cases hrc : rc ≠ ataOk
  · exact ⟨rc, ident, bs.map (.inb ataStatus), bs, [], [], if_pos hrc, by omega,
      dataRead_failed ident bs hrc, fun h => absurd rfl h,
      fun c r log polls => watch_polls (x := ⟨c, polls, [], []⟩) rfl bs⟩
  generalize hpolled : t ++ bs.map (PortEvent.inb ataStatus) = t'
  obtain ⟨mid, hmid⟩ : ∃ mid, inb dev ataLbaMid t' = (mid, t' ++ [.inb ataLbaMid mid]) := ⟨_, rfl⟩
  obtain ⟨hi, hhi⟩ : ∃ hi, inb dev ataLbaHi (t' ++ [.inb ataLbaMid mid])
      = (hi, t' ++ [.inb ataLbaMid mid] ++ [.inb ataLbaHi hi]) := ⟨_, rfl⟩
  have hsigned : ∀ c r log polls, (bs.map (PortEvent.inb ataStatus)
      ++ [PortEvent.inb ataLbaMid mid, .inb ataLbaHi hi]).foldl watch (r, ⟨c, polls, [], []⟩ :: log)
      = (r, ⟨c, polls ++ bs, [mid, hi], []⟩ :: log) := by
    intro c r log polls
    rw [List.foldl_append, watch_polls (x := ⟨c, polls, [], []⟩) rfl bs, watch_signature]
    rfl
  have htrace : t' ++ [.inb ataLbaMid mid] ++ [.inb ataLbaHi hi]
      = t ++ (bs.map (.inb ataStatus) ++ [.inb ataLbaMid mid, .inb ataLbaHi hi]) := by
    rw [← hpolled]
    simp only [List.append_assoc, List.cons_append, List.nil_append]
  simp only [if_neg hrc, hmid, hhi, htrace]
  generalize bs.map (PortEvent.inb ataStatus) ++ [.inb ataLbaMid mid, .inb ataLbaHi hi] = first
    at hsigned
  by_cases hsignature : mid ≠ 0 ∨ hi ≠ 0
  · exact ⟨ataErrUnsupported, ident, first, bs, [mid, hi], [], if_pos hsignature, by omega,
      dataRead_failed ident bs (by decide), fun h => absurd rfl h, hsigned⟩
  obtain ⟨hmid0, hhi0⟩ := not_or.mp hsignature
  obtain ⟨rc', ident', es, bs', data, hdata, hbound', hread, hdrq, hadds⟩ :=
    ataIdentifyData_spec dev ident (t ++ first)
  rw [if_neg hsignature, hdata]
  obtain ⟨hhealthy, xs, b, rfl, hb⟩ := hw.due (not_not.mp hrc)
  have hall : data ≠ [] → ∀ v ∈ xs ++ [b] ++ bs', Healthy v := by
    intro hne v hv
    rcases List.mem_append.mp hv with hearlier | hlater
    · exact hhealthy v hearlier
    · exact hread.healthy hne v hlater
  refine ⟨rc', ident', first ++ es, xs ++ [b] ++ bs', [mid, hi], data, ?_, ?_,
    ⟨hread.code, hread.once, hread.whole, hread.size, hall⟩, fun hne => ⟨?_, hall hne, ?_⟩,
    fun c r log polls => ?_⟩
  · rw [List.append_assoc]
  · rw [List.length_append]
    omega
  · rw [not_not.mp hmid0, not_not.mp hhi0]
  · obtain ⟨ys, e, rfl, he⟩ := hdrq hne
    refine ⟨xs, b, ys, e, [], ?_, of_decide_eq_true hb, he⟩
    rw [List.append_assoc]
    rfl
  · rw [List.foldl_append, hsigned, hadds, List.append_assoc]

/-- **WHAT THE DRIVE ANSWERS** to an IDENTIFY, and what becomes of it. -/
theorem ataIdentifyAnswer_spec (dev : PortDevice) (ident : List (BitVec 16))
    (t : List PortEvent) :
    ∃ rc ident' es status bs sig data, ataIdentifyAnswer dev ident t = (rc, ident', t ++ es)
      ∧ bs.length ≤ 2 * ataPioTimeout ∧ DataRead rc ident' bs data
      ∧ (data ≠ [] → status ≠ 0 ∧ sig = [0, 0] ∧ DataDue bs)
      ∧ Adds es (status :: bs) sig data := by
  obtain ⟨status, hstatus⟩ :
    ∃ status, inb dev ataStatus t = (status, t ++ [.inb ataStatus status]) := ⟨_, rfl⟩
  have hfirst : Adds [.inb ataStatus status] [status] [] [] :=
    fun c r log polls => watch_polls (x := ⟨c, polls, [], []⟩) rfl [status]
  rw [ataIdentifyAnswer, hstatus]
  by_cases hzero : status = 0
  · exact ⟨ataErrNoDevice, ident, [.inb ataStatus status], status, [], [], [], if_pos hzero,
      Nat.zero_le _, dataRead_failed ident [] (by decide), fun h => absurd rfl h, hfirst⟩
  obtain ⟨rc, ident', es, bs, sig, data, hready, hbound, hread, hdue, hadds⟩ :=
    ataIdentifyReady_spec dev ident (t ++ [.inb ataStatus status])
  refine ⟨rc, ident', .inb ataStatus status :: es, status, bs, sig, data, ?_, hbound, hread,
    fun hne => ⟨hzero, hdue hne⟩, fun c r log polls => ?_⟩
  · rw [List.append_cons t _ es, ← hready]
    exact if_neg hzero
  · rw [List.append_cons, ← hadds, ← hfirst]
    rfl

/-- **`ata_identify_pio`**, on a drive of the bus. -/
theorem ataIdentifyPio_logged (dev : PortDevice) {d : Nat} (hd : d < 2)
    (ident : List (BitVec 16)) (t : List PortEvent) :
    ∃ rc ident' es status bs sig data, ataIdentifyPio dev d (some ident) t
        = (rc, some ident', t ++ es)
      ∧ bs.length ≤ 2 * ataPioTimeout ∧ DataRead rc ident' bs data
      ∧ (data ≠ [] → status ≠ 0 ∧ sig = [0, 0] ∧ DataDue bs)
      ∧ ∀ r log, ∃ r', es.foldl watch (r, log)
        = (r', ⟨⟨0xEC, 0, d, false, 0⟩, status :: bs, sig, data⟩ :: log) := by
  obtain ⟨issue, hissue, hcommand⟩ := ataIssueIdentify_logged dev hd t
  obtain ⟨rc, ident', es, status, bs, sig, data, hanswer, hbound, hread, hdue, hadds⟩ :=
    ataIdentifyAnswer_spec dev ident (t ++ issue)
  have hvalid : ¬ (!ataValidDrive d) = true := by
    obtain rfl | rfl : d = 0 ∨ d = 1 := by omega
    · decide
    · decide
  refine ⟨rc, ident', issue ++ es, status, bs, sig, data, ?_, hbound, hread, hdue,
    fun r log => ?_⟩
  · rw [ataIdentifyPio, if_neg hvalid, hissue, hanswer, List.append_assoc]
  · obtain ⟨r', hr'⟩ := hcommand r log
    refine ⟨r', ?_⟩
    rw [List.foldl_append, hr']
    exact hadds _ r' log []

/-- A drive's entry is what was told of it. -/
structure Knows (st : AtaDriveState) (told : Option Nat) : Prop where
  present : st.present = told.isSome
  sectors : st.lba28Sectors.toNat = told.getD 0

/-- A turn of the probing loop of `ata_init`: one IDENTIFY, and the entry it is worth. -/
theorem ataProbe_logged (dev : PortDevice) (stack : Nat → List (BitVec 16)) {d : Nat} (hd : d < 2)
    (drives : Nat → AtaDriveState) (t : List PortEvent) :
    ∃ st es x, ataProbe dev stack d drives t = (Function.update drives d st, t ++ es)
      ∧ x.command = ⟨0xEC, 0, d, false, 0⟩ ∧ (∀ known, Permitted known x)
      ∧ x.polls.length ≤ 2 * 200000 + 1 ∧ Knows st (x.data.head?.map reported)
      ∧ ∀ r log, ∃ r', es.foldl watch (r, log) = (r', x :: log) := by
  obtain ⟨rc, ident, es, status, bs, sig, data, hcall, hbound, hread, hdue, hwatch⟩ :=
    ataIdentifyPio_logged dev hd (stack d) t
  have hpermitted : ∀ known, Permitted known
      ⟨⟨0xEC, 0, d, false, 0⟩, status :: bs, sig, data⟩ := fun known =>
    .identify hd rfl status bs rfl (fun hne => ⟨(hdue hne).1, (hdue hne).2.1⟩)
      ⟨hread.once, hread.whole, fun hne => (hdue hne).2.2⟩
  have hlen : (status :: bs).length ≤ 2 * 200000 + 1 := Nat.succ_le_succ hbound
  rw [ataProbe, hcall]
  by_cases hrc : rc = ataOk
  · obtain ⟨bytes, hdata⟩ : ∃ bytes, data = [bytes] := by
      cases data with
      | nil => exact absurd rfl (hread.code.mp hrc)
      | cons bytes rest =>
        obtain rfl : rest = [] := List.eq_nil_of_length_eq_zero
          (Nat.le_zero.mp (Nat.le_of_succ_le_succ hread.once))
        exact ⟨bytes, rfl⟩
    subst hdata
    exact ⟨⟨true, identSectors ident⟩, es, _, if_pos hrc, rfl, hpermitted, hlen,
      ⟨rfl, hread.size bytes (List.mem_singleton_self _)⟩, hwatch⟩
  · obtain rfl : data = [] := not_not.mp fun hne => hrc (hread.code.mpr hne)
    exact ⟨ataAbsent, es, _, if_neg hrc, rfl, hpermitted, hlen, ⟨rfl, rfl⟩, hwatch⟩

/-! ## A read -/

/-- The command of a read is seen as such. -/
theorem Issue.quiet_events {lba : Nat} (h : Issue drive lba es) :
    ∀ e ∈ es, e.isWrite = true ∨ ∃ v, e = .inb ataAltStatus v := by
  obtain ⟨vs, vs'⟩ := h
  refine quiet_issue (fun e he => ?_) vs vs'
  simp only [readWrites, List.mem_cons, List.not_mem_nil, or_false] at he
  rcases he with rfl | rfl | rfl | rfl | rfl | rfl <;> rfl

/-- **`ata_read_sector`**, watched: nothing, or one read of the sector. -/
theorem ataReadSector_logged (dev : PortDevice) (drives : Nat → AtaDriveState) (drive : Int)
    (lba : UInt32) (buffer : Option Buffer) (t : List PortEvent) :
    ∃ rc buffer' es, ataReadSector dev drives drive lba buffer t = (rc, buffer', t ++ es)
      ∧ (es = [] ∧ rc ≠ ataOk ∨ AtaAccepts drives drive lba ∧ ∃ bs data,
        bs.length ≤ 2 * ataPioTimeout
        ∧ Delivered ⟨⟨0x20, 1, drive.toNat, true, lba.toNat⟩, bs, [], data⟩ bs
        ∧ (rc = ataOk → ∃ bytes, data = [bytes]
          ∧ ∀ buf, buffer = some buf → buffer' = some (bufferStore buf 0 bytes))
        ∧ ∀ r log, ∃ r', es.foldl watch (r, log)
          = (r', ⟨⟨0x20, 1, drive.toNat, true, lba.toNat⟩, bs, [], data⟩ :: log)) := by
  rcases ataReadSector_cases dev drives drive lba buffer t with
    ⟨rc, hrefused, -, hcall⟩ | ⟨buf, rfl, haccepts, hcall⟩
  · refine ⟨rc, buffer, [], by rw [hcall, List.append_nil], Or.inl ⟨rfl, ?_⟩⟩
    rintro rfl
    exact absurd hrefused (by unfold Refused; decide)
  obtain ⟨issue, hissue, hcommand⟩ := ataIssueRead_trace dev drive lba.toNat t
  obtain ⟨rc, buf', bs, tail, htransfer, hbound, hend⟩ := ataTransfer_spec dev buf (t ++ issue)
  rw [hissue, htransfer] at hcall
  have hissued : ∀ r log, ∃ r', issue.foldl watch (r, log)
      = (r', fresh ⟨0x20, 1, drive.toNat, true, lba.toNat⟩ :: log) := by
    intro r log
    obtain ⟨d, hd, hissued⟩ := hcommand.issued haccepts.valid haccepts.range r
    obtain ⟨r', hr'⟩ := @watch_issued r _ log hcommand.quiet_events
    rw [hissued] at hr'
    rw [← hd, Int.toNat_natCast]
    exact ⟨r', hr'⟩
  have hpolls : ∀ c r log, (bs.map (PortEvent.inb ataStatus)).foldl watch (r, fresh c :: log)
      = (r, ⟨c, bs, [], []⟩ :: log) := fun c r log => watch_polls (x := fresh c) rfl bs
  refine ⟨rc, some buf', issue ++ (bs.map (.inb ataStatus) ++ tail), ?_, Or.inr ⟨haccepts, ?_⟩⟩
  · rw [hcall, List.append_assoc]
  cases hend with
  | failed hrc =>
    refine ⟨bs, [], hbound, ⟨Nat.zero_le _, fun _ h => absurd h List.not_mem_nil,
      fun h => absurd rfl h⟩, fun h => ?_, fun r log => ?_⟩
    · rcases hrc with rfl | rfl | rfl <;> exact absurd h (by decide)
    obtain ⟨r', hr'⟩ := hissued r log
    exact ⟨r', by rw [List.append_nil, List.foldl_append, hr', hpolls]⟩
  | @done bytes last hdue hlen =>
    refine ⟨bs, [bytes], hbound, ⟨Nat.le_refl 1, fun b hb => ?_, fun _ => hdue⟩,
      fun _ => ⟨bytes, rfl, fun buf' h => by rw [← Option.some.inj h]⟩, fun r log => ?_⟩
    · rw [List.mem_singleton.mp hb]
      exact hlen
    · obtain ⟨r', hr'⟩ := hissued r log
      refine ⟨r', ?_⟩
      rw [List.foldl_append, hr', List.foldl_append, hpolls]
      exact watch_data (x := ⟨_, bs, [], []⟩) rfl bytes last

/-! ## Runs -/

/-- `g_ata_drive`, and what has passed over the ports. -/
structure AtaState where
  drives : Nat → AtaDriveState
  ports : List PortEvent

/-- When the kernel starts: the table is zero. -/
def ataStart : AtaState := ⟨fun _ => ataAbsent, []⟩

/-- A call of the driver. -/
inductive AtaCall where
  | init
  | read (drive : Int) (lba : UInt32)

/-- The calls, in any order. -/
inductive AtaStep (dev : PortDevice) : AtaState → AtaCall → AtaState → Prop where
  | init {s : AtaState} (stack : Nat → List (BitVec 16)) :
      AtaStep dev s .init ⟨(ataInit dev stack s.drives s.ports).1,
        (ataInit dev stack s.drives s.ports).2⟩
  | read {s : AtaState} {drive : Int} {lba : UInt32} (buffer : Option Buffer) :
      AtaStep dev s (.read drive lba)
        ⟨s.drives, (ataReadSector dev s.drives drive lba buffer s.ports).2.2⟩

/-- **THE INVARIANT**: what went over the bus was permitted, and the table is what it told. -/
structure AtaInv (r : Registers) (s : AtaState) : Prop where
  lawful : Lawful (history r s.ports)
  knows : ∀ d, d < 2 → Knows (s.drives d) (table (history r s.ports) d)

variable {s s' : AtaState} {call : AtaCall}

/-- What is said of the commands when more has passed. -/
theorem history_append (hwatch : ∀ r log, ∃ r', es.foldl watch (r, log) = (r', x :: log))
    (r : Registers) (t : List PortEvent) : history r (t ++ es) = x :: history r t := by
  obtain ⟨r', hr'⟩ := hwatch (t.foldl watch (r, [])).1 (history r t)
  rw [history, List.foldl_append]
  exact congrArg Prod.snd hr'

/-- An IDENTIFY tells of its drive. -/
theorem table_identify {d e : Nat} (hx : x.command = ⟨0xEC, 0, d, false, 0⟩) :
    table (x :: log) e = if e = d then x.data.head?.map reported else table log e := by
  rw [table, hx]
  by_cases he : e = d
  · rw [if_pos he, if_pos ⟨rfl, he.symm⟩]
  · rw [if_neg he, if_neg fun h => he h.2.symm]

/-- A read tells nothing of the drives. -/
theorem table_read {d e lba : Nat} (hx : x.command = ⟨0x20, 1, d, true, lba⟩) :
    table (x :: log) e = table log e := by
  rw [table, hx]
  exact if_neg fun h => absurd h.1 (show ¬ (0x20 : Byte) = 0xEC by decide)

/-- A turn of the probing loop, in any state of the table. -/
theorem ataProbe_inv (dev : PortDevice) (stack : Nat → List (BitVec 16)) {d : Nat} (hd : d < 2)
    (drives : Nat → AtaDriveState) (t : List PortEvent) (r : Registers)
    (hlawful : Lawful (history r t)) :
    Lawful (history r (ataProbe dev stack d drives t).2)
    ∧ Knows ((ataProbe dev stack d drives t).1 d)
      (table (history r (ataProbe dev stack d drives t).2) d)
    ∧ ∀ e, e ≠ d → (ataProbe dev stack d drives t).1 e = drives e
      ∧ table (history r (ataProbe dev stack d drives t).2) e = table (history r t) e := by
  obtain ⟨st, es, x, hcall, hx, hpermitted, hlen, hknows, hwatch⟩ :=
    ataProbe_logged dev stack hd drives t
  rw [hcall]
  dsimp only
  rw [history_append hwatch r t]
  refine ⟨⟨hpermitted _, hlen, hlawful⟩, ?_, fun e he => ⟨Function.update_of_ne he _ _, ?_⟩⟩
  · rw [Function.update_self, table_identify hx, if_pos rfl]
    exact hknows
  · rw [table_identify hx, if_neg he]

/-- **`ata_init`** keeps the invariant, whatever the table held. -/
theorem ataInit_inv (dev : PortDevice) (stack : Nat → List (BitVec 16)) (r : Registers)
    (h : Lawful (history r s.ports)) :
    AtaInv r ⟨(ataInit dev stack s.drives s.ports).1, (ataInit dev stack s.drives s.ports).2⟩ := by
  rw [ataInit, show List.range 2 = [0, 1] from rfl]
  simp only [List.foldl_cons, List.foldl_nil]
  generalize Function.update (Function.update s.drives 0 ataAbsent) 1 ataAbsent = drives
  obtain ⟨hlawful, hmaster, -⟩ := ataProbe_inv dev stack (show 0 < 2 by decide) drives s.ports r h
  generalize ataProbe dev stack 0 drives s.ports = first at hlawful hmaster
  obtain ⟨hlawful', hslave, hother⟩ :=
    ataProbe_inv dev stack (show 1 < 2 by decide) first.1 first.2 r hlawful
  refine ⟨hlawful', fun d hd => ?_⟩
  obtain rfl | rfl : d = 0 ∨ d = 1 := by omega
  · obtain ⟨hdrive, htable⟩ := hother 0 (by decide)
    dsimp only
    rw [hdrive, htable]
    exact hmaster
  · exact hslave

/-- A drive that `ata_read_sector` accepts. -/
theorem accepts_iff {lba : UInt32} (hknows : ∀ d, d < 2 → Knows (drives d) (table log d)) :
    AtaAccepts drives drive lba ↔ ∃ (d size : Nat), (d : Int) = drive ∧ d < 2
      ∧ table log d = some size ∧ (size = 0 ∨ lba.toNat < size) ∧ lba.toNat < 2 ^ 28 := by
  constructor
  · intro h
    have hvalid : drive = 0 ∨ drive = 1 := by
      have hv := h.valid
      rw [ataValidDrive, Bool.or_eq_true, decide_eq_true_iff, decide_eq_true_iff] at hv
      exact hv
    have hd : drive.toNat < 2 := by omega
    obtain ⟨hpresent, hsectors⟩ := hknows drive.toNat hd
    rw [h.present] at hpresent
    obtain ⟨size, hsize⟩ := Option.isSome_iff_exists.mp hpresent.symm
    rw [hsize, Option.getD_some] at hsectors
    refine ⟨drive.toNat, size, by omega, hd, hsize, ?_, Nat.lt_succ_of_le h.range⟩
    rw [← hsectors]
    rcases h.sectors with hzero | hlt
    · rw [hzero]
      exact Or.inl rfl
    · exact Or.inr (UInt32.lt_iff_toNat_lt.mp hlt)
  · rintro ⟨d, size, rfl, hd, hsize, hlt, hrange⟩
    obtain ⟨hpresent, hsectors⟩ := hknows d hd
    rw [hsize] at hpresent hsectors
    refine ⟨?_, by rw [Int.toNat_natCast]; exact hpresent, Nat.le_of_lt_succ hrange, ?_⟩
    · obtain rfl | rfl : d = 0 ∨ d = 1 := by omega
      · rfl
      · rfl
    · rw [Int.toNat_natCast, UInt32.lt_iff_toNat_lt, hsectors]
      refine hlt.imp_left fun hzero => UInt32.toNat_inj.mp ?_
      rw [hsectors, hzero]
      rfl

/-- One call keeps the invariant. -/
theorem AtaInv.step {r : Registers} (h : AtaInv r s) (hst : AtaStep dev s call s') :
    AtaInv r s' := by
  cases hst with
  | init stack => exact ataInit_inv dev stack r h.lawful
  | @read drive lba buffer =>
    obtain ⟨rc, buffer', es, hcall, ⟨hnone, -⟩ | ⟨haccepts, bs, data, hlen, hdata, -, hwatch⟩⟩ :=
      ataReadSector_logged dev s.drives drive lba buffer s.ports
    · rw [hcall, hnone, List.append_nil]
      exact h
    rw [hcall]
    obtain ⟨d, size, rfl, hd, hknown, hsize, hrange⟩ := (accepts_iff h.knows).mp haccepts
    have hlog := history_append hwatch r s.ports
    refine ⟨?_, fun e he => ?_⟩
    · rw [hlog]
      exact ⟨.read hd rfl hknown hsize hrange hdata, Nat.le_succ_of_le hlen, h.lawful⟩
    · rw [hlog, table_read rfl]
      exact h.knows e he

/-- **EVERY COMMAND ON THE BUS**, over every run of `ata_init` and `ata_read_sector` from
    the start of the kernel, against drives that may answer anything: each was permitted by
    what the IDENTIFY commands before it told; the table says what the last one of each
    drive told; and a read with a buffer is refused exactly when that forbids it. -/
theorem ata_commands_run (dev : PortDevice) (r : Registers) {calls : List AtaCall}
    (hrun : Run (AtaStep dev) ataStart calls s) :
    Lawful (history r s.ports)
    ∧ (∀ d : Nat, d < 2 → ataIsPresent s.drives d = (table (history r s.ports) d).isSome
      ∧ (ataGetLba28Sectors s.drives d).toNat = (table (history r s.ports) d).getD 0)
    ∧ ∀ (drive : Int) (lba : UInt32) (buf : Buffer),
      Refused (ataReadSector dev s.drives drive lba (some buf) s.ports).1
      ↔ ¬ ∃ (d size : Nat), (d : Int) = drive ∧ d < 2 ∧ table (history r s.ports) d = some size
        ∧ (size = 0 ∨ lba.toNat < size) ∧ lba.toNat < 2 ^ 28 := by
  have hinv : AtaInv r s := by
    refine hrun.invariant ⟨trivial, fun d hd => ⟨rfl, rfl⟩⟩ ?_
    intro a e b hI hst
    exact hI.step hst
  refine ⟨hinv.lawful, fun d hd => ?_, fun drive lba buf => ?_⟩
  · have hvalid : ¬ (!ataValidDrive d) = true := by
      obtain rfl | rfl : d = 0 ∨ d = 1 := by omega
      · decide
      · decide
    rw [ataIsPresent, ataGetLba28Sectors, if_neg hvalid, if_neg hvalid, Int.toNat_natCast]
    exact ⟨(hinv.knows d hd).present, (hinv.knows d hd).sectors⟩
  · obtain ⟨rc, buffer', es, hcall, -, hrefused⟩ :=
      ataReadSector_spec dev s.drives drive lba (some buf) s.ports
    rw [hcall, hrefused, accepts_iff hinv.knows]
    exact ⟨fun h => h (Option.some_ne_none buf), fun h _ => h⟩

/-- Drives that are always ready, with a hundred sectors each. -/
def readyDrives : PortDevice where
  byte _ port := if port = 0x1F7 then 0x48 else 0
  word _ _ k := if k = 60 then 100 else 0

/-- After `ata_init` such a drive is read. -/
theorem ata_commands_run_ready :
    ∃ s, Run (AtaStep readyDrives) ataStart [.init, .read 0 5] s
      ∧ ataGetLba28Sectors s.drives 1 = 100 ∧ Lawful (history ⟨0, 0, 0, 0, 0⟩ s.ports) := by
  have hinit : AtaStep readyDrives ataStart .init _ := .init fun _ => []
  have hrun := Run.snoc (.read 0 5) (Run.single hinit) (.read (some fun _ => 0))
  exact ⟨_, hrun, by decide +kernel, (ata_commands_run readyDrives ⟨0, 0, 0, 0, 0⟩ hrun).1⟩

end PyramidAta
