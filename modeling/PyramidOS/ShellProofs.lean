import Mathlib.Data.List.DropRight
import PyramidOS.FsProofs
import PyramidOS.VfsTableProofs

/-! # The shell

    `shell.c`: one line buffer, filled key by key and handed to `execute_command`
    on Enter.  The buffer and its index outlive the command, so the next line
    starts empty only if the command resets them.

    * `Types` — the buffer holds a line; kept by every key but Enter
      (`Types.shellKey`);
    * `dispatch_early_iff` — which commands return without the reset;
    * `shell_lines_iff` — the line discipline, over whole runs. -/

namespace PyramidShell

open ByteMem PyramidString PyramidKernel PyramidHeap PyramidBlock PyramidVfs PyramidFs

/-! ## The console -/

/-- A call of the terminal. -/
inductive TermCall where
  | print (text : List UInt8) (color : UInt8)
  | hex (value : Nat) (color : UInt8)
  | clear

/-- `DateTime`. -/
structure DateTime where
  second : UInt8
  minute : UInt8
  hour : UInt8
  day : UInt8
  month : UInt8
  year : UInt16

/-- The devices behind the commands, over a state of their own, and what the stack
    holds before a command uses it. -/
structure Devices (δ : Type) where
  pmmGetTotalMemory : δ → Nat
  pmmGetFreeMemory : δ → Nat
  timerGetTicks : δ → UInt64
  timerSleep : Nat → δ → Except Halt δ
  rtcGetTime : δ → DateTime × δ
  /-- `inb(0x64)` until the input buffer is empty, the reset pulse and `hlt`. -/
  resetCpu : δ → Except Halt δ
  /-- A store to an address that is not mapped. -/
  badStore : Nat → δ → Except Halt δ
  /-- The return code, and the bytes stored in the buffer. -/
  ataReadSector : Nat → Nat → δ → Except Halt (Nat × List Byte × δ)
  selftestRunAll : Vfs World FsType FileOps → δ →
    Except Halt (List TermCall × Vfs World FsType FileOps × δ)
  stack : δ → Buffer

variable {δ : Type}

/-- What a command acts on. -/
structure Console (δ : Type) where
  term : List TermCall
  vfs : Vfs World FsType FileOps
  dev : δ

namespace Console

/-- `term_print`. -/
def termPrint (c : Console δ) (text : List UInt8) (color : UInt8) : Console δ :=
  { c with term := c.term ++ [.print text color] }

/-- `term_print` of a literal. -/
def say (c : Console δ) (s : String) (color : UInt8) : Console δ := c.termPrint (chars s) color

/-- `term_print_hex`. -/
def termPrintHex (c : Console δ) (value : Nat) (color : UInt8) : Console δ :=
  { c with term := c.term ++ [.hex value color] }

def heap (c : Console δ) : Heap := c.vfs.world.heap

def withHeap (c : Console δ) (h : Heap) : Console δ :=
  { c with vfs := { c.vfs with world := { c.vfs.world with heap := h } } }

end Console

/-! ## The commands -/

/-- The lines of `help`. -/
def helpLines : List (String × UInt8) :=
  [("Available Commands:\n", 0x0F),
    ("  help    - Show this list\n", 0x07),
    ("  clear   - Clear the screen\n", 0x07),
    ("  mem     - Show memory statistics\n", 0x07),
    ("  uptime  - Show system uptime\n", 0x07),
    ("  time    - Show current date and time\n", 0x07),
    ("  sleep   - Sleep for 1 second\n", 0x07),
    ("  reboot   - Restart the system\n", 0x07),
    ("  crash    - Force a kernel crash (for testing)\n", 0x07),
    ("  diskread - Read a disk sector (e.g., diskread 0)\n", 0x07),
    ("  blkinfo  - List registered block devices\n", 0x07),
    ("  mounts   - List VFS mounts\n", 0x07),
    ("  pyfs_sb  - Read /py/superblock (PyFS probe via VFS)\n", 0x07),
    ("  diagnose - Run kernel diagnostics (PMM/Heap/ATA)\n", 0x07)]

def cmdHelp (c : Console δ) : Except Halt (Console δ) :=
  .ok (helpLines.foldl (fun c line => c.say line.1 line.2) c)

def cmdClear (c : Console δ) : Except Halt (Console δ) :=
  .ok { c with term := c.term ++ [.clear] }

def cmdMem (D : Devices δ) (c : Console δ) : Except Halt (Console δ) :=
  let c := c.say "Total RAM: " 0x07
  let c := c.termPrintHex (D.pmmGetTotalMemory c.dev) 0x07
  let c := c.say "\nFree RAM:  " 0x07
  let c := c.termPrintHex (D.pmmGetFreeMemory c.dev) 0x07
  .ok (c.say "\n" 0x07)

def cmdBlkinfo (B : Blocks) (c : Console δ) : Except Halt (Console δ) :=
  let n := B.devices.length
  let c := c.say "Block devices: " 0x07
  let c := c.termPrintHex n 0x0E
  let c := c.say "\n" 0x07
  .ok ((List.range n).foldl (fun c i =>
    match B.devices[i]? with
    | none => c
    | some dev =>
        let c := c.say "  [" 0x07
        let c := c.termPrintHex i 0x07
        let c := c.say "] " 0x07
        let c := c.termPrint (text (B.device dev).name) 0x0B
        let c := c.say "  sector_size=" 0x07
        let c := c.termPrintHex (B.device dev).sectorSize 0x0E
        c.say "\n" 0x07) c)

/-- The mounts in use, in the order of the table. -/
def usedMounts (g : MountTable FsType) : List (VfsMount FsType) :=
  ((List.range vfsMaxMounts).map g).filter fun m => m.used

/-- `vfs_mount_count`. -/
def vfsMountCount (g : MountTable FsType) : Nat := (usedMounts g).length

/-- `vfs_mountpoint` and `vfs_fs_name`: `none` for NULL. -/
def vfsMountpoint (g : MountTable FsType) (index : Nat) : Option (List UInt8) :=
  ((usedMounts g)[index]?).map VfsMount.mountpoint

def vfsFsName (g : MountTable FsType) (index : Nat) : Option (List UInt8) :=
  ((usedMounts g)[index]?).map VfsMount.fsName

/-- They are the slots in use that the loops of `vfs.c` walk. -/
theorem usedMounts_eq (g : MountTable FsType) :
    usedMounts g = (usedSlots g (List.range vfsMaxMounts)).map g :=
  List.filter_map ..

/-- So these are the functions of `vfs.c`. -/
theorem vfsQueries_eq (g : MountTable FsType) :
    vfsMountCount g = PyramidVfs.vfsMountCount g
    ∧ (∀ index, vfsMountpoint g index = PyramidVfs.vfsMountpoint g index)
    ∧ ∀ index, vfsFsName g index = PyramidVfs.vfsFsName g index := by
  have hloop : ∀ index, vfsIndexLoop g index (List.range vfsMaxMounts) 0
      = (usedSlots g (List.range vfsMaxMounts))[index]? :=
    fun index => vfsIndexLoop_eq g index _ 0 (Nat.zero_le index)
  refine ⟨?_, fun index => ?_, fun index => ?_⟩
  · rw [vfsMountCount, usedMounts_eq, List.length_map, PyramidVfs.vfsMountCount_eq]
  · rw [vfsMountpoint, usedMounts_eq, List.getElem?_map, Option.map_map,
      PyramidVfs.vfsMountpoint, hloop]
    rfl
  · rw [vfsFsName, usedMounts_eq, List.getElem?_map, Option.map_map, PyramidVfs.vfsFsName,
      hloop]
    rfl

def cmdMounts (c : Console δ) : Except Halt (Console δ) :=
  let g := c.vfs.mounts
  let c := c.say "Mounts: " 0x07
  let c := c.termPrintHex (vfsMountCount g) 0x0E
  let c := c.say "\n" 0x07
  .ok ((List.range (vfsMountCount g)).foldl (fun c i =>
    match vfsMountpoint g i, vfsFsName g i with
    | some mp, some fs =>
        let c := c.say "  " 0x07
        let c := c.termPrint (text mp) 0x0B
        let c := c.say " -> " 0x07
        let c := c.termPrint (text fs) 0x0E
        c.say "\n" 0x07
    | _, _ => c) c)

/-- `VFS_OPEN_READ`. -/
def vfsOpenRead : Nat := 1

/-- The dump of `n` bytes, 16 in a line. -/
def dumpBytes (buf : Buffer) (n : Nat) (c : Console δ) : Console δ :=
  (List.range n).foldl (fun c i =>
    let c := c.termPrintHex (buf i).toNat 0x07
    let c := c.say " " 0x07
    if (i + 1) % 16 = 0 then c.say "\n" 0x07 else c) c

def cmdPyfsSb (B : Blocks) (D : Devices δ) (c : Console δ) : Except Halt (Console δ) := do
  let (rc, vfs, fd) ← vfsOpen (fsCalls B) c.vfs (some (chars "/py/superblock")) vfsOpenRead (some 0)
  let c := { c with vfs := vfs }
  if rc ≠ vfsOk then
    let c := c.say "PyFS: open failed (rc=" 0x0C
    let c := c.termPrintHex rc 0x0C
    return c.say ")\n" 0x0C
  else
    let (rc, vfs, buf, read) ← vfsRead (fsCalls B) c.vfs (fd.getD 0) (some (D.stack c.dev)) 64 0
    let c := { c with vfs := vfs }
    let c := if rc ≠ vfsOk then
        let c := c.say "PyFS: read failed (rc=" 0x0C
        let c := c.termPrintHex rc 0x0C
        c.say ")\n" 0x0C
      else
        let c := c.say "PyFS superblock (first 64 bytes):\n" 0x0B
        let c := dumpBytes (buf.getD (D.stack c.dev)) read c
        c.say "\n" 0x07
    let (_, vfs) ← vfsClose (fsCalls B) c.vfs (fd.getD 0)
    return { c with vfs := vfs }

def cmdUptime (D : Devices δ) (c : Console δ) : Except Halt (Console δ) :=
  let t := (D.timerGetTicks c.dev).toNat
  let seconds := u32 (t / 100)
  let c := c.say "System Uptime: " 0x07
  let c := c.termPrintHex seconds 0x07
  let c := c.say " seconds (" 0x07
  let c := c.termPrintHex (u32 t) 0x07
  .ok (c.say " ticks)\n" 0x07)

def cmdTime (D : Devices δ) (c : Console δ) : Except Halt (Console δ) :=
  let (dt, dev) := D.rtcGetTime c.dev
  let c := { c with dev := dev }
  let c := c.say "Date: " 0x0B
  let c := c.termPrintHex dt.year.toNat 0x0B
  let c := c.say "/" 0x0B
  let c := c.termPrintHex dt.month.toNat 0x0B
  let c := c.say "/" 0x0B
  let c := c.termPrintHex dt.day.toNat 0x0B
  let c := c.say "\nTime: " 0x0B
  let c := c.termPrintHex dt.hour.toNat 0x0B
  let c := c.say ":" 0x0B
  let c := c.termPrintHex dt.minute.toNat 0x0B
  let c := c.say ":" 0x0B
  let c := c.termPrintHex dt.second.toNat 0x0B
  .ok (c.say "\n" 0x07)

def cmdSleep (D : Devices δ) (c : Console δ) : Except Halt (Console δ) := do
  let c := c.say "Sleeping for 1 second...\n" 0x07
  let dev ← D.timerSleep 1000 c.dev
  return { c with dev := dev }.say "Done.\n" 0x07

def cmdReboot (D : Devices δ) (c : Console δ) : Except Halt (Console δ) := do
  let c := c.say "Rebooting...\n" 0x0C
  let dev ← D.resetCpu c.dev
  return { c with dev := dev }

def cmdCrash (D : Devices δ) (c : Console δ) : Except Halt (Console δ) := do
  let c := c.say "Forcing a crash...\n" 0x0C
  let dev ← D.badStore 0xC0000000 c.dev
  return { c with dev := dev }

def cmdDiagnose (D : Devices δ) (c : Console δ) : Except Halt (Console δ) := do
  let (calls, vfs, dev) ← D.selftestRunAll c.vfs c.dev
  return ⟨c.term ++ calls, vfs, dev⟩

/-- `diskread`, with `arg` behind the blank; `true` when it returns from
    `execute_command` at once. -/
def cmdDiskread (D : Devices δ) (arg : List UInt8) (c : Console δ) :
    Except Halt (Bool × Console δ) := do
  let lba := atoi arg
  let c := c.say "Reading Sector " 0x07
  let c := c.termPrintHex (castU32 lba) 0x0E
  let c := c.say "...\n" 0x07
  let (buf, heap) ← kmalloc c.heap 512
  let c := c.withHeap heap
  if buf = 0 then
    return (true, c.say "Error: Out of Memory\n" 0x0C)
  else if lba < 0 then
    let c := c.say "Error: LBA must be >= 0\n" 0x0C
    let heap ← kfree c.heap buf
    return (true, c.withHeap heap)
  else
    let (ret, bytes, dev) ← D.ataReadSector 0 (castU32 lba) c.dev
    let heap := { c.heap with mem := c.heap.mem.storeBytes buf bytes }
    let c := { c.withHeap heap with dev := dev }
    let c := if ret ≠ 0 then
        let c := c.say "Disk Error (code: " 0x0C
        let c := c.termPrintHex ret 0x0C
        c.say ")\n" 0x0C
      else
        let c := c.say "Data (First 64 bytes):\n" 0x0B
        dumpBytes (fun i => heap.mem.byte (buf + i)) 64 c
    let heap ← kfree c.heap buf
    return (false, c.withHeap heap)

/-- The commands of one word, in the order of the `strcmp` chain. -/
def commands (B : Blocks) (D : Devices δ) :
    List (String × (Console δ → Except Halt (Console δ))) :=
  [("help", cmdHelp), ("clear", cmdClear), ("mem", cmdMem D), ("blkinfo", cmdBlkinfo B),
    ("mounts", cmdMounts), ("pyfs_sb", cmdPyfsSb B D), ("uptime", cmdUptime D),
    ("time", cmdTime D), ("sleep", cmdSleep D), ("reboot", cmdReboot D), ("crash", cmdCrash D),
    ("diagnose", cmdDiagnose D)]

/-- The `strcmp` chain of `execute_command`, on the string in `cmd_buffer`; `true`
    when a branch returns at once. -/
def dispatch (B : Blocks) (D : Devices δ) (line : List UInt8) (c : Console δ) :
    Except Halt (Bool × Console δ) :=
  match (commands B D).find? fun command => strcmp line (chars command.1) == 0 with
  | some (_, command) => (command c).map fun c => (false, c)
  | none =>
      if strncmp line (chars "diskread ") 9 = 0 then cmdDiskread D (line.drop 9) c
      else if strlen line > 0 then
        let c := c.say "Unknown command: " 0x0C
        let c := c.termPrint (text line) 0x0C
        .ok (false, c.say "\n" 0x0C)
      else .ok (false, c)

/-! ## The line buffer -/

/-- `CMD_BUF_SIZE`. -/
def cmdBufSize : Nat := 128

/-- The console, `cmd_buffer` and `cmd_idx`, which is always an index of it. -/
structure Shell (δ : Type) extends Console δ where
  cmdBuffer : List UInt8
  cmdIdx : Nat
  size : cmdBuffer.length = cmdBufSize
  bound : cmdIdx < cmdBufSize

/-- The reset: `cmd_idx = 0` and `memset`. -/
def Shell.reset (c : Console δ) : Shell δ where
  toConsole := c
  cmdBuffer := List.replicate cmdBufSize 0
  cmdIdx := 0
  size := List.length_replicate
  bound := by decide

/-- `shell_init`. -/
def shellInit (c : Console δ) : Shell δ :=
  let c := c.say "\nWelcome to PyramidOS Shell (KShell v1.0)\n" 0x0B
  let c := c.say "Type 'help' for a list of commands.\n\n" 0x07
  let c := c.say "PyramidOS> " 0x0E
  .reset c

/-- `execute_command`. -/
def executeCommand (B : Blocks) (D : Devices δ) (s : Shell δ) : Except Halt (Shell δ) :=
  (dispatch B D s.cmdBuffer (s.toConsole.say "\n" 0x07)).map fun (early, c) =>
    if early then { s with toConsole := c } else .reset (c.say "PyramidOS> " 0x0E)

/-- `cmd_buffer[cmd_idx] = '\0'`, on Enter. -/
def Shell.terminate (s : Shell δ) : Shell δ :=
  { s with
    cmdBuffer := s.cmdBuffer.set s.cmdIdx 0
    size := by rw [List.length_set, s.size] }

/-- One turn of the loop of `shell_run`, with the character of the keyboard. -/
def shellKey (B : Blocks) (D : Devices δ) (s : Shell δ) (c : UInt8) : Except Halt (Shell δ) :=
  if c = 0 then .ok s
  else if c = 10 then executeCommand B D s.terminate
  else if c = 8 then
    if s.cmdIdx > 0 then
      .ok { s with
        toConsole := s.toConsole.say "\x08" 0x07
        cmdBuffer := s.cmdBuffer.set (s.cmdIdx - 1) 0
        cmdIdx := s.cmdIdx - 1
        size := by rw [List.length_set, s.size]
        bound := Nat.lt_of_le_of_lt (Nat.sub_le ..) s.bound }
    else .ok s
  else if h : s.cmdIdx < cmdBufSize - 1 then
    .ok { s with
      toConsole := s.toConsole.termPrint [c] 0x0F
      cmdBuffer := s.cmdBuffer.set s.cmdIdx c
      cmdIdx := s.cmdIdx + 1
      size := by rw [List.length_set, s.size]
      bound := Nat.add_lt_of_lt_sub h }
  else .ok s

/-- `shell_run`, over the characters of the keyboard. -/
def shellRun (B : Blocks) (D : Devices δ) : List UInt8 → Shell δ → Except Halt (Shell δ)
  | [], s => .ok s
  | c :: keys, s => do
      let s ← shellKey B D s c
      shellRun B D keys s

/-! ## The typed line -/

/-- A key other than Enter, on the line held. -/
def typeKey (line : List UInt8) (c : UInt8) : List UInt8 :=
  if c = 8 then line.dropLast
  else if line.length < 127 then line ++ [c]
  else line

/-- The line of the keys typed since the last Enter. -/
def typedLine (keys : List UInt8) : List UInt8 :=
  (keys.rtakeWhile (· ≠ 10)).foldl typeKey []

theorem typedLine_enter (keys : List UInt8) : typedLine (keys ++ [10]) = [] := by
  rw [typedLine, List.rtakeWhile_concat_neg _ _ _ (by decide), List.foldl_nil]

theorem typedLine_key (keys : List UInt8) {c : UInt8} (hc : c ≠ 10) :
    typedLine (keys ++ [c]) = typeKey (typedLine keys) c := by
  rw [typedLine, List.rtakeWhile_concat_pos _ _ _ (by simpa using hc), List.foldl_append]
  rfl

variable {B : Blocks} {D : Devices δ} {s s' : Shell δ} {c c' : Console δ}
  {line keys : List UInt8} {a : UInt8} {early : Bool}

/-- The buffer holds `line` up to the index. -/
structure Types (line : List UInt8) (s : Shell δ) : Prop where
  idx : s.cmdIdx = line.length
  buffer : s.cmdBuffer.take line.length = line
  nonzero : ∀ a ∈ line, a ≠ 0

theorem types_reset (c : Console δ) : Types [] (Shell.reset c) :=
  ⟨rfl, List.take_zero, fun _ h => absurd h List.not_mem_nil⟩

/-- A store at the index leaves what is before it. -/
theorem set_idx (s : Shell δ) (a : UInt8) :
    s.cmdBuffer.set s.cmdIdx a
      = s.cmdBuffer.take s.cmdIdx ++ a :: s.cmdBuffer.drop (s.cmdIdx + 1) := by
  rw [List.set_eq_take_append_cons_drop, if_pos (by rw [s.size]; exact s.bound)]

theorem Types.set_idx (h : Types line s) (a : UInt8) :
    ∃ rest, s.cmdBuffer.set s.cmdIdx a = line ++ a :: rest := by
  refine ⟨s.cmdBuffer.drop (s.cmdIdx + 1), ?_⟩
  rw [PyramidShell.set_idx, h.idx, h.buffer]

/-- What `execute_command` sees. -/
theorem Types.text_terminate (h : Types line s) : text s.terminate.cmdBuffer = line := by
  obtain ⟨rest, hset⟩ := h.set_idx 0
  exact (congrArg text hset).trans (text_append_zero h.nonzero rest)

theorem Types.terminate (h : Types line s) : Types line s.terminate := by
  obtain ⟨rest, hset⟩ := h.set_idx 0
  exact ⟨h.idx, (congrArg (List.take line.length) hset).trans List.take_left, h.nonzero⟩

/-- **ONE KEY**: every key but Enter does to the buffer what it does to the line. -/
theorem Types.shellKey (h : Types line s) (ha : a ≠ 0) (henter : a ≠ 10) :
    ∃ s', shellKey B D s a = .ok s' ∧ Types (typeKey line a) s' := by
  simp only [PyramidShell.shellKey, typeKey]
  rw [if_neg ha, if_neg henter]
  by_cases hback : a = 8
  · rw [if_pos hback, if_pos hback]
    rcases List.eq_nil_or_concat line with rfl | ⟨line, last, rfl⟩
    · rw [if_neg (by rw [h.idx]; exact Nat.lt_irrefl 0)]
      exact ⟨s, rfl, h⟩
    · have hidx : s.cmdIdx = line.length + 1 := by rw [h.idx, List.length_concat]
      have hline : s.cmdBuffer.take line.length = line := by
        have htake := congrArg (List.take line.length) h.buffer
        rw [List.take_take, List.length_concat, Nat.min_eq_left (Nat.le_succ _),
          List.concat_eq_append, List.take_left] at htake
        exact htake
      rw [if_pos (by omega), List.concat_eq_append, List.dropLast_concat]
      refine ⟨_, rfl, by simp only [hidx, Nat.add_sub_cancel], ?_, fun b hb => h.nonzero b ?_⟩
      · simp only [hidx, Nat.add_sub_cancel]
        rw [List.take_set_of_le (Nat.le_refl _), hline]
      · rw [List.concat_eq_append]
        exact List.mem_append_left _ hb
  · rw [if_neg hback, if_neg hback]
    by_cases hroom : s.cmdIdx < cmdBufSize - 1
    · rw [dif_pos hroom, if_pos (by rw [h.idx] at hroom; exact hroom)]
      obtain ⟨rest, hset⟩ := h.set_idx a
      refine ⟨_, rfl, by simp only [h.idx, List.length_append, List.length_singleton], ?_, ?_⟩
      · simp only [hset]
        rw [List.append_cons line a rest, List.take_left]
      · intro b hb
        rcases List.mem_append.mp hb with hb | hb
        · exact h.nonzero b hb
        · rw [List.mem_singleton.mp hb]
          exact ha
    · rw [dif_neg hroom, if_neg (by rw [h.idx] at hroom; exact hroom)]
      exact ⟨s, rfl, h⟩

/-! ## Enter -/

/-- The exits of `diskread` that return without the reset: the number is negative,
    or `kmalloc` has no block for the sector. -/
def DiskreadFails (line : List UInt8) (heap : Heap) : Prop :=
  strncmp line (chars "diskread ") 9 = 0
  ∧ (atoi (line.drop 9) < 0 ∨ ∃ heap', kmalloc heap 512 = .ok (0, heap'))

/-- `diskread` returns at once on its two errors only. -/
theorem cmdDiskread_early_iff {arg : List UInt8} (h : cmdDiskread D arg c = .ok (early, c')) :
    early = true ↔ atoi arg < 0 ∨ ∃ heap', kmalloc c.heap 512 = .ok (0, heap') := by
  rw [cmdDiskread] at h
  obtain ⟨⟨buf, heap⟩, halloc, h⟩ := bind_ok h
  have halloc' : kmalloc c.heap 512 = .ok (buf, heap) := halloc
  rw [halloc']
  dsimp only at h
  by_cases hbuf : buf = 0
  · rw [if_pos hbuf] at h
    cases h
    exact iff_of_true rfl (Or.inr ⟨heap, by rw [hbuf]⟩)
  · rw [if_neg hbuf] at h
    have hnot : ¬ ∃ heap', (Except.ok (buf, heap) : Except Halt (Nat × Heap)) = .ok (0, heap') := by
      rintro ⟨heap', heq⟩
      cases heq
      exact hbuf rfl
    by_cases hneg : atoi arg < 0
    · rw [if_pos hneg] at h
      obtain ⟨heap', _, h⟩ := bind_ok h
      cases h
      exact iff_of_true rfl (Or.inl hneg)
    · rw [if_neg hneg] at h
      obtain ⟨⟨ret, bytes, dev⟩, _, h⟩ := bind_ok h
      obtain ⟨heap', _, h⟩ := bind_ok h
      cases h
      exact iff_of_false Bool.false_ne_true (not_or.mpr ⟨hneg, hnot⟩)

/-- No other command's name begins like `diskread`. -/
theorem commands_not_diskread {command : String × (Console δ → Except Halt (Console δ))}
    (h : command ∈ commands B D) : strncmp (chars command.1) (chars "diskread ") 9 ≠ 0 := by
  have hname : command.1 ∈ (commands B D).map Prod.fst := List.mem_map_of_mem h
  have hall : ∀ name ∈ (commands B D).map Prod.fst,
      strncmp (chars name) (chars "diskread ") 9 ≠ 0 := by
    simp only [commands, List.map_cons, List.map_nil]
    decide
  exact hall _ hname

theorem dispatch_early_iff (h : dispatch B D line c = .ok (early, c')) :
    early = true ↔ DiskreadFails line c.heap := by
  rw [dispatch] at h
  cases hfind : (commands B D).find? fun command => strcmp line (chars command.1) == 0 with
  | some command =>
      rw [hfind] at h
      have hcmp : text line = text (chars command.1) :=
        (strcmp_eq_zero_iff _ _).mp (by simpa using List.find?_some hfind)
      have hother := commands_not_diskread (List.mem_of_find?_eq_some hfind)
      refine iff_of_false ?_ fun hfails => hother ?_
      · cases hrun : command.2 c with
        | error e =>
            simp only [hrun] at h
            cases h
        | ok c1 =>
            simp only [hrun] at h
            cases h
            exact Bool.false_ne_true
      · have hprefix := (strncmp_eq_zero_iff _ _ _).mp hfails.1
        rw [hcmp] at hprefix
        exact (strncmp_eq_zero_iff _ _ _).mpr hprefix
  | none =>
      rw [hfind] at h
      simp only at h
      by_cases hdisk : strncmp line (chars "diskread ") 9 = 0
      · rw [if_pos hdisk] at h
        rw [cmdDiskread_early_iff h, DiskreadFails]
        exact (and_iff_right hdisk).symm
      · rw [if_neg hdisk] at h
        refine iff_of_false ?_ fun hfails => hdisk hfails.1
        split at h
        all_goals
          cases h
          exact Bool.false_ne_true

/-- **ENTER**: the buffer is reset, or it is left as `execute_command` saw it. -/
theorem shellKey_enter (h : shellKey B D s 10 = .ok s') :
    (¬ DiskreadFails s.terminate.cmdBuffer s.heap → ∃ c', s' = .reset c')
    ∧ (DiskreadFails s.terminate.cmdBuffer s.heap →
      ∃ c', s' = { s.terminate with toConsole := c' }) := by
  rw [shellKey, if_neg (by decide), if_pos rfl, executeCommand] at h
  cases hdispatch : dispatch B D s.terminate.cmdBuffer (s.terminate.toConsole.say "\n" 0x07) with
  | error e =>
      rw [hdispatch] at h
      cases h
  | ok r =>
      obtain ⟨early, c'⟩ := r
      rw [hdispatch] at h
      have hiff := dispatch_early_iff hdispatch
      have hearly : early = true ↔ DiskreadFails s.terminate.cmdBuffer s.heap := hiff
      have hs' := (Except.ok.inj h).symm
      dsimp only at hs'
      constructor
      · intro hnot
        rw [if_neg (mt hearly.mp hnot)] at hs'
        exact ⟨_, hs'⟩
      · intro hfails
        rw [if_pos (hearly.mpr hfails)] at hs'
        exact ⟨_, hs'⟩

/-- After an exit without the reset, the next command sees the old line. -/
theorem shellKey_enter_fails (h : shellKey B D s 10 = .ok s')
    (hfails : DiskreadFails s.terminate.cmdBuffer s.heap) :
    text s'.terminate.cmdBuffer = text s.terminate.cmdBuffer := by
  obtain ⟨c', rfl⟩ := (shellKey_enter h).2 hfails
  exact congrArg text (List.set_set ..)

/-- A line on which `diskread` fails is not empty. -/
theorem DiskreadFails.text_ne_nil {heap : Heap} (h : DiskreadFails line heap) :
    text line ≠ [] := by
  intro hnil
  have hprefix := (strncmp_eq_zero_iff _ _ _).mp h.1
  rw [hnil] at hprefix
  revert hprefix
  decide

/-! ## Runs of the shell -/

theorem shellRun_append (keys more : List UInt8) (s : Shell δ) :
    shellRun B D (keys ++ more) s = (shellRun B D keys s).bind (shellRun B D more) := by
  induction keys generalizing s with
  | nil => rfl
  | cons a keys ih =>
      rw [List.cons_append, shellRun, shellRun]
      cases hkey : shellKey B D s a with
      | error e => rfl
      | ok s1 => exact ih s1

theorem shellRun_snoc (h : shellRun B D (keys ++ [a]) s = .ok s') :
    ∃ t, shellRun B D keys s = .ok t ∧ shellKey B D t a = .ok s' := by
  rw [shellRun_append] at h
  obtain ⟨t, hrun, hlast⟩ := bind_ok h
  obtain ⟨u, hkey, hu⟩ := bind_ok hlast
  cases hu
  exact ⟨t, hrun, hkey⟩

/-- A run goes through a state after each of its first keys. -/
theorem shellRun_prefix {pre : List UInt8} (hpre : pre <+: keys)
    (h : shellRun B D keys s = .ok s') : ∃ t, shellRun B D pre s = .ok t := by
  obtain ⟨rest, rfl⟩ := hpre
  rw [shellRun_append] at h
  obtain ⟨t, hrun, _⟩ := bind_ok h
  exact ⟨t, hrun⟩

/-- While `diskread` does not fail, the buffer holds the typed line. -/
theorem types_typedLine {c : Console δ} (hkeys : ∀ a ∈ keys, a ≠ 0)
    (hrun : shellRun B D keys (shellInit c) = .ok s)
    (hok : ∀ pre t, pre ++ [10] <+: keys → shellRun B D pre (shellInit c) = .ok t →
      ¬ DiskreadFails t.terminate.cmdBuffer t.heap) : Types (typedLine keys) s := by
  induction keys using List.reverseRecOn generalizing s with
  | nil =>
      cases hrun
      exact types_reset _
  | append_singleton keys a ih =>
      obtain ⟨t, ht, hkey⟩ := shellRun_snoc hrun
      have htypes : Types (typedLine keys) t :=
        ih (fun b hb => hkeys b (List.mem_append_left _ hb)) ht
          fun pre t hpre => hok pre t (hpre.trans (List.prefix_append ..))
      by_cases henter : a = 10
      · subst henter
        obtain ⟨c', rfl⟩ := (shellKey_enter hkey).1 (hok keys t (List.prefix_refl _) ht)
        rw [typedLine_enter]
        exact types_reset _
      · have ha : a ≠ 0 := hkeys a (List.mem_append_right _ (List.mem_singleton.mpr rfl))
        obtain ⟨t', hkey', htypes'⟩ := htypes.shellKey (B := B) (D := D) ha henter
        rw [hkey] at hkey'
        cases hkey'
        rw [typedLine_key keys henter]
        exact htypes'

/-- **THE LINE DISCIPLINE**: along a run, Enter would always hand over exactly the
    line typed since the last one, if and only if `diskread` never failed. -/
theorem shell_lines_iff {B : Blocks} {D : Devices δ} {c : Console δ} {keys : List UInt8}
    {s : Shell δ} (hkeys : ∀ a ∈ keys, a ≠ 0)
    (hrun : shellRun B D keys (shellInit c) = .ok s) :
    (∀ pre t, pre <+: keys → shellRun B D pre (shellInit c) = .ok t →
      text t.terminate.cmdBuffer = typedLine pre)
    ↔ ∀ pre t, pre ++ [10] <+: keys → shellRun B D pre (shellInit c) = .ok t →
      ¬ DiskreadFails t.terminate.cmdBuffer t.heap := by
  constructor
  · intro hlines pre t hpre ht hfails
    obtain ⟨t', ht'⟩ := shellRun_prefix hpre hrun
    obtain ⟨u, hu, hkey⟩ := shellRun_snoc ht'
    obtain rfl : u = t := Except.ok.inj (hu.symm.trans ht)
    have hnext := hlines _ _ hpre ht'
    rw [typedLine_enter, shellKey_enter_fails hkey hfails] at hnext
    exact hfails.text_ne_nil hnext
  · intro hok pre t hpre ht
    have hnonzero : ∀ a ∈ pre, a ≠ 0 := fun a ha => hkeys a (hpre.subset ha)
    exact (types_typedLine hnonzero ht fun pre' u hpre' => hok pre' u
      (hpre'.trans hpre)).text_terminate

/-! ## A small machine -/

/-- Devices that answer at once. -/
def smallDevices : Devices Unit where
  pmmGetTotalMemory _ := 0x100000
  pmmGetFreeMemory _ := 0x80000
  timerGetTicks _ := 0
  timerSleep _ _ := .ok ()
  rtcGetTime _ := (⟨0, 0, 0, 1, 1, 2026⟩, ())
  resetCpu _ := .error .diverges
  badStore _ _ := .error .diverges
  ataReadSector _ _ _ := .ok (0, List.replicate 512 0, ())
  selftestRunAll vfs _ := .ok ([], vfs, ())
  stack _ _ := 0

def noBlocks : Blocks :=
  ⟨⟨fun _ => ⟨[], 0, none⟩, []⟩, ⟨fun _ h => (nomatch h), List.Pairwise.nil, Nat.zero_le _⟩⟩

/-- The fresh heap, and nothing mounted. -/
def smallConsole : Console Unit where
  term := []
  vfs := ⟨fun _ => ⟨false, [], [], none, 0⟩, fun _ => ⟨false, .blank⟩,
    ⟨heapFirstBlock ⟨fun _ => 0, []⟩, 0⟩⟩
  dev := ()

/-- What `execute_command` would see after the keys. -/
def smallSeen (keys : List UInt8) : Except Halt (List UInt8) :=
  (shellRun noBlocks smallDevices keys (shellInit smallConsole)).map
    fun s => text s.terminate.cmdBuffer

theorem shell_lines_help :
    (∀ pre t, pre <+: chars "diskread 7\nhelp" →
      shellRun noBlocks smallDevices pre (shellInit smallConsole) = .ok t →
      text t.terminate.cmdBuffer = typedLine pre)
    ↔ ∀ pre t, pre ++ [10] <+: chars "diskread 7\nhelp" →
      shellRun noBlocks smallDevices pre (shellInit smallConsole) = .ok t →
      ¬ DiskreadFails t.terminate.cmdBuffer t.heap := by
  have hseen : smallSeen (chars "diskread 7\nhelp") = .ok (chars "help") := by decide +kernel
  cases hrun : shellRun noBlocks smallDevices (chars "diskread 7\nhelp")
      (shellInit smallConsole) with
  | error e =>
      rw [smallSeen, hrun] at hseen
      cases hseen
  | ok s => exact shell_lines_iff (by decide +kernel) hrun

/-- After the error of `diskread -5` the next command is not the line typed. -/
theorem shell_line_not_typed :
    smallSeen (chars "diskread -5\nhelp") = .ok (chars "diskread -5help")
      ∧ typedLine (chars "diskread -5\nhelp") = chars "help" := by
  decide +kernel

end PyramidShell
