import PyramidOS.AtaInitProofs
import PyramidOS.DeviceProofs

/-! # The disks of the ATA bus

    `ata_block.c` puts the drives into the registry: the master as `disk0`, the slave as
    `disk1`, or as `disk0` where there is no master.  What the registry then says, and
    where the reads of a registered device go, follows from what the drives told when
    they were probed.

    * `ataBlockRegisterDevices_spec` — the registry that is left;
    * `ataBlockRead_logged` — a read of a device is a read of its drive, or nothing;
    * `ata_disks_run` — the names, and over every run of reads the commands. -/

namespace PyramidAtaBlock

open ByteMem PyramidString PyramidKernel PyramidBlock PyramidAta PyramidVfs
  LabelledRun

/-! ## `ata_block.c` -/

/-- Where the linker put `g_disk0`, `g_disk1` and `ata_block_read`. -/
structure AtaDisks where
  disk0 : UInt32
  disk1 : UInt32
  ataBlockRead : UInt32
  nonNull : disk0.toNat ≠ 0 ∧ disk1.toNat ≠ 0 ∧ ataBlockRead.toNat ≠ 0
  apart : disk0.toNat + sizeofBlockDevice ≤ disk1.toNat
    ∨ disk1.toNat + sizeofBlockDevice ≤ disk0.toNat

/-- The drives, memory, and `g_devices` up to `g_device_count`. -/
structure Disks where
  ata : AtaState
  mem : Mem
  devices : List Nat

/-- The registry the code sees. -/
def Disks.registry (D : Drivers) (s : Disks) : Registry := registryAt D s.mem s.devices

/-- `block_register`. -/
def Disks.register (D : Drivers) (s : Disks) (dev : UInt32) : Nat × Disks :=
  let (rc, r) := blockRegister (s.registry D) dev
  (rc, { s with devices := r.devices })

/-- A store to `dev->ctx`. -/
def Disks.setCtx (s : Disks) (dev : UInt32) (ctx : Nat) : Disks :=
  { s with mem := s.mem.store32 (dev.toNat + 36) ctx }

/-- `ata_block_register_devices`. -/
def ataBlockRegisterDevices (dev : PortDevice) (stack : Nat → List (BitVec 16)) (L : AtaDisks)
    (D : Drivers) (s : Disks) : Nat × Disks :=
  let (drives, ports) := ataInit dev stack s.ata.drives s.ata.ports
  let s := { s with ata := ⟨drives, ports⟩ }
  let master := ataIsPresent drives ataDriveMaster
  let slave := ataIsPresent drives ataDriveSlave
  if !master && !slave then (blockError, s)
  else if master then
    let (rc, s) := (s.setCtx L.disk0 0).register D L.disk0
    if rc ≠ blockSuccess then (rc, s)
    else if slave then
      let (rc, s) := s.register D L.disk1
      if rc ≠ blockSuccess then (rc, s) else (blockSuccess, s)
    else (blockSuccess, s)
  -- no master: the slave is the canonical disk
  else (s.setCtx L.disk0 1).register D L.disk0

/-- `ata_block_read`. -/
def ataBlockRead (dev : PortDevice) (s : Disks) (bdev : Nat) (lba : UInt32)
    (buffer : Option Buffer) : Nat × Option Buffer × Disks :=
  if bdev = 0 ∨ buffer.isNone then (blockError, buffer, s)
  else
    let drive := devCtx s.mem bdev
    let (rc, buffer, ports) := ataReadSector dev s.ata.drives (i32 drive) lba buffer s.ata.ports
    (if rc = ataOk then blockSuccess else blockError, buffer,
      { s with ata := ⟨s.ata.drives, ports⟩ })

/-! ## The devices in memory -/

/-- A disk named `name`, of the drive `drive`. -/
structure IsDisk (L : AtaDisks) (m : Mem) (bdev : Nat) (name : List UInt8) (drive : Nat) :
    Prop where
  name : text (devName m bdev) = name
  sectorSize : devSectorSize m bdev = 512
  ctx : devCtx m bdev = drive
  read : devRead m bdev = L.ataBlockRead.toNat

variable {L : AtaDisks} {D : Drivers} {m : Mem} {bdev drive d : Nat} {name : List UInt8}
  {dev : PortDevice} {stack : Nat → List (BitVec 16)} {s s' : Disks} {lba : UInt32}

/-- The store to its `ctx` makes a disk one of another drive. -/
theorem IsDisk.setCtx (h : IsDisk L m bdev name d) (hname : name.length < 32)
    (hdrive : drive < 2 ^ 32) :
    IsDisk L (m.store32 (bdev + 36) drive) bdev name drive where
  name := by
    refine (text_charsFrom_congr fun i hi => byte_store32_outside (Or.inl ?_)).trans h.name
    have hlen : i ≤ name.length := h.name ▸ hi
    omega
  sectorSize := (load32_store32_ne (Or.inl (Nat.le_refl _))).trans h.sectorSize
  ctx := (load32_store32_self m (bdev + 36) drive).trans (Nat.mod_eq_of_lt hdrive)
  read := (load32_store32_ne (Or.inr (Nat.le_refl _))).trans h.read

/-- A store into another device leaves it. -/
theorem IsDisk.other {x v : Nat} (h : IsDisk L m bdev name d) (hname : name.length < 32)
    (hx : x + 4 ≤ bdev ∨ bdev + sizeofBlockDevice ≤ x) : IsDisk L (m.store32 x v) bdev name d where
  name := by
    refine (text_charsFrom_congr fun i hi => byte_store32_outside ?_).trans h.name
    have hlen : i ≤ name.length := h.name ▸ hi
    rw [sizeofBlockDevice] at hx
    omega
  sectorSize := (load32_store32_ne (by rw [sizeofBlockDevice] at hx; omega)).trans h.sectorSize
  ctx := (load32_store32_ne (by rw [sizeofBlockDevice] at hx; omega)).trans h.ctx
  read := (load32_store32_ne (by rw [sizeofBlockDevice] at hx; omega)).trans h.read

/-- A disk is registered under a new name. -/
theorem IsDisk.register {bdev : UInt32} (h : IsDisk L s.mem bdev.toNat name d)
    (hnull : bdev.toNat ≠ 0) (hname : name ≠ []) (hroom : s.devices.length < blockMaxDevices)
    (hfresh : ∀ p ∈ s.devices, text (devName s.mem p) ≠ name) :
    s.register D bdev = (blockSuccess, { s with devices := s.devices ++ [bdev.toNat] }) := by
  have hregistrable : Registrable (s.registry D) bdev.toNat := by
    refine ⟨hnull, ?_, ?_, ?_, hroom, fun p hp => ?_⟩
    · rw [show text ((s.registry D).device bdev.toNat).name = name from h.name]
      exact hname
    · rw [show ((s.registry D).device bdev.toNat).sectorSize = 512 from h.sectorSize]
      decide
    · show (if devRead s.mem bdev.toNat = 0 then none else _) ≠ none
      rw [h.read, if_neg L.nonNull.2.2]
      exact Option.some_ne_none _
    · rw [show text ((s.registry D).device bdev.toNat).name = name from h.name]
      exact hfresh p hp
  rcases blockRegister_cases (s.registry D) bdev with ⟨-, hcall⟩ | ⟨hnot, -⟩
  · rw [Disks.register, hcall]
    rfl
  · exact absurd hregistrable hnot

/-! ## The registry -/

/-- **THE NAMES OF THE DISKS**: device, name and drive, by which drives are there. -/
def disksOf (L : AtaDisks) (master slave : Bool) : List (Nat × List UInt8 × Nat) :=
  if master then
    (L.disk0.toNat, chars "disk0", 0) :: if slave then [(L.disk1.toNat, chars "disk1", 1)] else []
  else if slave then [(L.disk0.toNat, chars "disk0", 1)] else []

theorem disksOf_drive_lt {master slave : Bool} {e : Nat × List UInt8 × Nat}
    (he : e ∈ disksOf L master slave) : e.2.2 < 2 := by
  have hall : ∀ e ∈ disksOf L master slave, e.2.2 < 2 := by
    cases master <;> cases slave <;> simp [disksOf]
  exact hall e he

/-- The registered devices are the disks `l`. -/
structure Holds (L : AtaDisks) (s : Disks) (l : List (Nat × List UInt8 × Nat)) : Prop where
  devices : s.devices = l.map Prod.fst
  disk : ∀ e ∈ l, IsDisk L s.mem e.1 e.2.1 e.2.2

/-- **`ata_block_register_devices`** on an empty registry: a failure when there is no
    drive, and otherwise the disks of the drives that are there. -/
theorem ataBlockRegisterDevices_spec {c : Nat}
    (h0 : IsDisk L s.mem L.disk0.toNat (chars "disk0") c)
    (h1 : IsDisk L s.mem L.disk1.toNat (chars "disk1") 1) (hnone : s.devices = [])
    {master slave : Bool}
    (hmaster : ataIsPresent (ataInit dev stack s.ata.drives s.ata.ports).1 ataDriveMaster = master)
    (hslave : ataIsPresent (ataInit dev stack s.ata.drives s.ata.ports).1 ataDriveSlave = slave) :
    ∃ rc s', ataBlockRegisterDevices dev stack L D s = (rc, s')
      ∧ s'.ata = ⟨(ataInit dev stack s.ata.drives s.ata.ports).1,
        (ataInit dev stack s.ata.drives s.ata.ports).2⟩
      ∧ (rc = blockSuccess ↔ disksOf L master slave ≠ [])
      ∧ Holds L s' (disksOf L master slave) := by
  have hzero : chars "disk0" ≠ [] := by decide
  have hlen : (chars "disk0").length < 32 := by decide
  have hlen' : (chars "disk1").length < 32 := by decide
  have hne : chars "disk0" ≠ chars "disk1" := by decide
  rw [ataBlockRegisterDevices]
  generalize ataInit dev stack s.ata.drives s.ata.ports = ata at hmaster hslave ⊢
  simp only [hmaster, hslave]
  obtain ⟨hnull0, hnull1, -⟩ := L.nonNull
  -- `disk0` is made a disk of one drive and registered first
  have hfirst : ∀ drive, drive < 2 ^ 32 → ∃ s', s' = Disks.mk ⟨ata.1, ata.2⟩
        (s.mem.store32 (L.disk0.toNat + 36) drive) [L.disk0.toNat]
      ∧ (Disks.setCtx { s with ata := ⟨ata.1, ata.2⟩ } L.disk0 drive).register D L.disk0
        = (blockSuccess, s')
      ∧ IsDisk L s'.mem L.disk0.toNat (chars "disk0") drive
      ∧ IsDisk L s'.mem L.disk1.toNat (chars "disk1") 1 := by
    intro drive hdrive
    have hdisk := h0.setCtx hlen hdrive
    refine ⟨_, rfl, ?_, hdisk, h1.other hlen' ?_⟩
    · have hregister := IsDisk.register (D := D)
        (s := Disks.setCtx { s with ata := ⟨ata.1, ata.2⟩ } L.disk0 drive) hdisk hnull0 hzero
        (by rw [Disks.setCtx, hnone]; decide)
        (fun p hp => by rw [Disks.setCtx, hnone] at hp; cases hp)
      rw [hregister, Disks.setCtx, hnone]
      rfl
    · have hapart := L.apart
      rw [sizeofBlockDevice] at hapart ⊢
      omega
  cases master with
  | false =>
    cases slave with
    | false =>
      refine ⟨blockError, _, rfl, rfl, iff_of_false (by decide) fun h => h rfl, hnone,
        fun e he => ?_⟩
      cases he
    | true =>
      obtain ⟨s', rfl, hregister, hdisk, -⟩ := hfirst 1 (by decide)
      refine ⟨blockSuccess, _, hregister, rfl, iff_of_true rfl (List.cons_ne_nil _ _), rfl,
        fun e he => ?_⟩
      rw [List.mem_singleton.mp he]
      exact hdisk
  | true =>
    obtain ⟨s', hs', hregister, hdisk, hdisk'⟩ := hfirst 0 (by decide)
    cases slave with
    | false =>
      refine ⟨blockSuccess, s', ?_, by rw [hs'], iff_of_true rfl (List.cons_ne_nil _ _),
        by rw [hs']; rfl, fun e he => ?_⟩
      · rw [hregister]
        rfl
      · rw [List.mem_singleton.mp he]
        exact hdisk
    | true =>
      have hsecond := IsDisk.register (D := D) hdisk' hnull1 (by decide)
        (by rw [hs']; exact (show 1 < blockMaxDevices by decide))
        fun p hp => by
          rw [hs'] at hp
          rw [List.mem_singleton.mp hp, hdisk.name]
          exact hne
      refine ⟨blockSuccess, { s' with devices := s'.devices ++ [L.disk1.toNat] }, ?_, by rw [hs'],
        iff_of_true rfl (List.cons_ne_nil _ _), by rw [hs']; rfl, fun e he => ?_⟩
      · rw [hregister]
        simp only [Bool.not_true, Bool.and_false, if_true, ne_eq, not_true_eq_false, if_false,
          hsecond]
        rfl
      · rcases List.mem_pair.mp he with rfl | rfl
        · exact hdisk
        · exact hdisk'

theorem Holds.congr {l : List (Nat × List UInt8 × Nat)} (h : Holds L s l)
    (hmem : s'.mem = s.mem) (hdevices : s'.devices = s.devices) : Holds L s' l :=
  ⟨hdevices.trans h.devices, fun e he => hmem ▸ h.disk e he⟩

/-- By name the registry finds the disks. -/
theorem Holds.getByName {l : List (Nat × List UInt8 × Nat)} (h : Holds L s l)
    (name : List UInt8) :
    blockGetByName (s.registry D) name
      = ((l.find? fun e => decide (e.2.1 = text name)).map Prod.fst).getD 0 := by
  have hfind : ∀ l : List (Nat × List UInt8 × Nat), (∀ e ∈ l, IsDisk L s.mem e.1 e.2.1 e.2.2) →
      (l.map Prod.fst).find? (fun p => strcmp ((s.registry D).device p).name name == 0)
        = (l.find? fun e => decide (e.2.1 = text name)).map Prod.fst := by
    intro l hl
    induction l with
    | nil => rfl
    | cons e l ih =>
      obtain ⟨hfirst, hrest⟩ := List.forall_mem_cons.mp hl
      have hname : text ((s.registry D).device e.1).name = e.2.1 := hfirst.name
      have hsame : (strcmp ((s.registry D).device e.1).name name == 0)
          = decide (e.2.1 = text name) := by
        rw [Bool.eq_iff_iff, beq_iff_eq, decide_eq_true_iff, strcmp_eq_zero_iff, hname]
      rw [List.map_cons, List.find?_cons, List.find?_cons, hsame]
      cases decide (e.2.1 = text name) with
      | true => rfl
      | false => exact ih hrest
  rw [blockGetByName, ← hfind l h.disk, ← h.devices]
  rfl

/-! ## Reads -/

/-- A read of a registered device by its file system or by somebody else. -/
inductive DiskStep (dev : PortDevice) : Disks → Nat × UInt32 → Disks → Prop where
  | read {s : Disks} {bdev : Nat} {lba : UInt32} (hbdev : bdev ∈ s.devices)
      (buffer : Option Buffer) :
      DiskStep dev s (bdev, lba) (ataBlockRead dev s bdev lba buffer).2.2

/-- The command that a read of a device asks for. -/
def readCommand (m : Mem) (call : Nat × UInt32) : AtaCommand :=
  ⟨0x20, 1, devCtx m call.1, true, call.2.toNat⟩

/-- **`ata_block_read`** is a read of the device's drive, or nothing. -/
theorem ataBlockRead_logged (dev : PortDevice) (s : Disks) (bdev : Nat) (lba : UInt32)
    (buffer : Option Buffer) (hctx : devCtx s.mem bdev < 2) :
    ∃ ata, (ataBlockRead dev s bdev lba buffer).2.2 = { s with ata := ata }
      ∧ (ata = s.ata ∨ AtaStep dev s.ata (.read (devCtx s.mem bdev) lba) ata
        ∧ ∃ x : Transaction, x.command = readCommand s.mem (bdev, lba)
          ∧ ∀ r, history r ata.ports = x :: history r s.ata.ports) := by
  rw [ataBlockRead]
  by_cases hnull : bdev = 0 ∨ buffer.isNone
  · rw [if_pos hnull]
    exact ⟨s.ata, rfl, Or.inl rfl⟩
  rw [if_neg hnull]
  have hdrive : i32 (devCtx s.mem bdev) = devCtx s.mem bdev := by
    rw [i32, u32_of_lt (by omega), if_pos (by omega)]
  simp only [hdrive]
  have hstep : AtaStep dev s.ata (.read (devCtx s.mem bdev) lba) _ := .read buffer
  obtain ⟨rc, buffer', es, hcall, ⟨hnone, -⟩ | ⟨-, bs, data, -, -, -, hwatch⟩⟩ :=
    ataReadSector_logged dev s.ata.drives (devCtx s.mem bdev) lba buffer s.ata.ports
  · rw [hcall]
    refine ⟨s.ata, ?_, Or.inl rfl⟩
    rw [hnone, List.append_nil]
  · rw [hcall] at hstep ⊢
    exact ⟨_, rfl, Or.inr ⟨hstep, _, by rw [Int.toNat_natCast]; rfl,
      fun r => history_append hwatch r s.ata.ports⟩⟩

/-- **THE INVARIANT** after the registration: memory and the registry stay, and the
    commands since then are reads of the disks' drives, in order. -/
structure DisksInv (r : Registers) (s₀ s : Disks) (calls : List (Nat × UInt32)) : Prop where
  mem : s.mem = s₀.mem
  devices : s.devices = s₀.devices
  ata : AtaInv r s.ata
  commands : ∃ cs : List AtaCommand, (history r s.ata.ports).map Transaction.command
      = cs.reverse ++ (history r s₀.ata.ports).map Transaction.command
    ∧ cs.Sublist (calls.map (readCommand s₀.mem))

/-- A read keeps it. -/
theorem DisksInv.step {r : Registers} {s₀ : Disks} {calls : List (Nat × UInt32)}
    {call : Nat × UInt32} (h : DisksInv r s₀ s calls)
    (hctx : ∀ p ∈ s₀.devices, devCtx s₀.mem p < 2) (hst : DiskStep dev s call s') :
    DisksInv r s₀ s' (calls ++ [call]) := by
  obtain ⟨cs, hcommands, hsub⟩ := h.commands
  cases hst with
  | @read bdev lba hbdev buffer =>
    have hlt : devCtx s.mem bdev < 2 := by
      rw [h.mem]
      exact hctx bdev (h.devices ▸ hbdev)
    obtain ⟨ata, hs', hnone | ⟨hstep, x, hx, hhistory⟩⟩ :=
      ataBlockRead_logged dev s bdev lba buffer hlt
    · rw [hs', hnone]
      refine ⟨h.mem, h.devices, h.ata, cs, hcommands, ?_⟩
      rw [List.map_append]
      exact hsub.trans (List.sublist_append_left _ _)
    · rw [hs']
      refine ⟨h.mem, h.devices, h.ata.step hstep, cs ++ [x.command], ?_, ?_⟩
      · show (history r ata.ports).map Transaction.command = _
        rw [hhistory r, List.map_cons, hcommands, List.reverse_append]
        rfl
      · rw [List.map_append, hx, h.mem]
        exact hsub.append (List.Sublist.refl _)

/-- A whole run keeps it. -/
theorem disksInv_run {r : Registers} {s₀ : Disks} {calls : List (Nat × UInt32)}
    (hata : AtaInv r s₀.ata) (hctx : ∀ p ∈ s₀.devices, devCtx s₀.mem p < 2)
    (hrun : Run (DiskStep dev) s₀ calls s) : DisksInv r s₀ s calls := by
  induction hrun with
  | nil => exact ⟨rfl, rfl, hata, [], rfl, List.Sublist.refl _⟩
  | snoc call _ hst ih => exact ih.step hctx hst

/-- **THE DISKS OF THE SYSTEM**: `ata_block_register_devices`, on the empty registry and
    the zeroed table, fails exactly when no drive answered its IDENTIFY; otherwise the
    drives that did are registered by the naming policy, and are found under these names
    and no other.  Over every run of reads of the registered devices that stays, and
    every command is permitted and one of the drive behind the name, in the order of the
    reads. -/
theorem ata_disks_run (dev : PortDevice) (stack : Nat → List (BitVec 16)) (L : AtaDisks)
    (D : Drivers) (r : Registers) {mem : Mem} {c rc : Nat} {s₀ s : Disks}
    {calls : List (Nat × UInt32)} (h0 : IsDisk L mem L.disk0.toNat (chars "disk0") c)
    (h1 : IsDisk L mem L.disk1.toNat (chars "disk1") 1)
    (hregister : ataBlockRegisterDevices dev stack L D ⟨ataStart, mem, []⟩ = (rc, s₀))
    (hrun : Run (DiskStep dev) s₀ calls s) :
    ∃ l, l = disksOf L (table (history r s₀.ata.ports) 0).isSome
        (table (history r s₀.ata.ports) 1).isSome
      ∧ (rc = blockSuccess ↔ l ≠ [])
      ∧ (∀ name, blockGetByName (s.registry D) name
        = ((l.find? fun e => decide (e.2.1 = text name)).map Prod.fst).getD 0)
      ∧ (∀ e ∈ l, devCtx s.mem e.1 = e.2.2)
      ∧ Lawful (history r s.ata.ports)
      ∧ ∃ cs : List AtaCommand, (history r s.ata.ports).map Transaction.command
          = cs.reverse ++ (history r s₀.ata.ports).map Transaction.command
        ∧ cs.Sublist (calls.map (readCommand s.mem)) := by
  have hstart : Lawful (history r ataStart.ports) := trivial
  have hinit := ataInit_inv dev stack r hstart
  obtain ⟨rc', s', hcall, hata, hcode, hholds⟩ :=
    @ataBlockRegisterDevices_spec L D dev stack ⟨ataStart, mem, []⟩ c h0 h1 rfl _ _ rfl rfl
  obtain ⟨rfl, rfl⟩ := Prod.mk.inj (hregister.symm.trans hcall)
  rw [← hata] at hinit
  have hmaster : ataIsPresent s₀.ata.drives ataDriveMaster
      = (table (history r s₀.ata.ports) 0).isSome := (hinit.knows 0 (by decide)).present
  have hslave : ataIsPresent s₀.ata.drives ataDriveSlave
      = (table (history r s₀.ata.ports) 1).isSome := (hinit.knows 1 (by decide)).present
  have hdrives : (ataInit dev stack ataStart.drives ataStart.ports).1 = s₀.ata.drives := by
    rw [hata]
  simp only [hdrives, hmaster, hslave] at hcode hholds
  have hctx : ∀ p ∈ s₀.devices, devCtx s₀.mem p < 2 := by
    intro p hp
    rw [hholds.devices] at hp
    obtain ⟨e, he, rfl⟩ := List.mem_map.mp hp
    rw [(hholds.disk e he).ctx]
    exact disksOf_drive_lt he
  have hinv := disksInv_run hinit hctx hrun
  have hholds' : Holds L s _ := hholds.congr hinv.mem hinv.devices
  refine ⟨_, rfl, hcode, hholds'.getByName, fun e he => (hholds'.disk e he).ctx,
    hinv.ata.lawful, ?_⟩
  rw [hinv.mem]
  exact hinv.commands

/-- Two ready drives, behind devices at 0x1000 and 0x2000. -/
def twoDisks : AtaDisks :=
  ⟨0x1000, 0x2000, 0x4000, by decide, Or.inl (by decide)⟩

/-- Their static data. -/
def twoDisksMem : Mem :=
  let m := (⟨fun _ => 0, []⟩ : Mem).storeBytes 0x1000 ((chars "disk0").map UInt8.toBitVec)
  let m := m.storeBytes 0x2000 ((chars "disk1").map UInt8.toBitVec)
  let m := (m.store32 0x1020 512).store32 0x1028 0x4000
  ((m.store32 0x2020 512).store32 0x2024 1).store32 0x2028 0x4000

/-- Functions that fail. -/
def failingDrivers : Drivers :=
  ⟨fun _ _ _ _ => ⟨false, [], Nat.zero_le _, fun h => Bool.noConfusion h⟩, 1, 1, by decide⟩

/-- The slave is found under its name. -/
theorem ata_disks_run_two :
    ∃ rc s, ataBlockRegisterDevices readyDrives (fun _ => []) twoDisks failingDrivers
        ⟨ataStart, twoDisksMem, []⟩ = (rc, s)
      ∧ rc = blockSuccess
      ∧ blockGetByName (s.registry failingDrivers) (chars "disk1") = 0x2000 := by
  have h0 : IsDisk twoDisks twoDisksMem twoDisks.disk0.toNat (chars "disk0") 0 :=
    ⟨by decide +kernel, by decide +kernel, by decide +kernel, by decide +kernel⟩
  have h1 : IsDisk twoDisks twoDisksMem twoDisks.disk1.toNat (chars "disk1") 1 :=
    ⟨by decide +kernel, by decide +kernel, by decide +kernel, by decide +kernel⟩
  have htold : ∀ d, d < 2 → (table (history ⟨0, 0, 0, 0, 0⟩
      (ataBlockRegisterDevices readyDrives (fun _ => []) twoDisks failingDrivers
        ⟨ataStart, twoDisksMem, []⟩).2.ata.ports) d).isSome = true := by
    decide +kernel
  obtain ⟨⟨rc, s⟩, hregister⟩ : ∃ q, ataBlockRegisterDevices readyDrives (fun _ => []) twoDisks
      failingDrivers ⟨ataStart, twoDisksMem, []⟩ = q := ⟨_, rfl⟩
  rw [hregister] at htold
  obtain ⟨l, hl, hcode, hname, -⟩ := ata_disks_run readyDrives (fun _ => []) twoDisks
    failingDrivers ⟨0, 0, 0, 0, 0⟩ h0 h1 hregister Run.nil
  rw [htold 0 (by decide), htold 1 (by decide)] at hl
  refine ⟨rc, s, hregister, hcode.mpr (hl ▸ List.cons_ne_nil _ _), ?_⟩
  rw [hname, hl]
  decide +kernel

end PyramidAtaBlock
