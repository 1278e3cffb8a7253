import PyramidOS.FsRunProofs
import PyramidOS.SectorProofs

/-! # What reads of a disk node deliver

    `vfs.c` keeps the position of a file in 32 bits, and a disk may hold more
    than 4 GiB.  A read delivers the sectors from the position on, so reads one
    after the other deliver the disk in order exactly as long as each begins
    below 4 GiB (`disk_reads_in_order_iff`); from there on the position is a wrong
    one and the disk begins again (`disk_reads_start_again`). -/

namespace PyramidFs

open ByteMem PyramidString PyramidKernel PyramidHeap PyramidBlock PyramidVfs BlockTiling
  LabelledRun SectorRun

variable {B : Blocks} {v v' : Vfs World FsType FileOps} {w : World} {file : VfsFile FileOps}
  {fd : UInt32} {N p : Nat} {c : Nat → List Byte}

/-! ## The loop over the sectors -/

/-- A disk of `N` sectors, `c` by LBA, which answers every read below `N`. -/
structure DiskOf (dev : BlockDevice) (N : Nat) (c : Nat → List Byte) : Prop where
  sectorSize : dev.sectorSize = 512
  size : N ≤ 2 ^ 28
  answers : ∀ read, dev.read = some read → ∀ n lba, lba < N →
    (read n lba).ok = true ∧ (read n lba).bytes = c lba

/-- The buffer up to the end of what was just stored. -/
theorem map_bufferStore (buf : Buffer) (off : Nat) (bytes : List Byte) :
    (List.range (off + bytes.length)).map (bufferStore buf off bytes)
      = (List.range off).map buf ++ bytes := by
  rw [List.range_add, List.map_append, List.map_map]
  congr 1
  · refine List.map_congr_left fun k hk => ?_
    have hlt := List.mem_range.mp hk
    rw [bufferStore, if_neg (by omega)]
  · refine List.ext_getElem (by simp) fun k hk hk' => ?_
    simp only [List.getElem_map, List.getElem_range, Function.comp_apply, bufferStore]
    rw [if_pos ⟨Nat.le_add_right .., Nat.add_lt_add_left hk' off⟩, Nat.add_sub_cancel_left,
      List.getD_eq_getElem _ _ hk']

/-- **THE LOOP** over sectors that can be read: after it the buffer holds what it
    held, and the sectors. -/
theorem devfsReadLoop_spec {dev : BlockDevice} {read : Nat → Nat → Reply} (hdisk : DiskOf dev N c)
    (hread : dev.read = some read) (lba : Nat) :
    ∀ (n i reads : Nat) (buf : Buffer), lba + i + n ≤ N →
      ∃ buf', devfsReadLoop read lba 512 n i reads buf = (none, reads + n, buf')
        ∧ (List.range ((i + n) * 512)).map buf'
          = (List.range (i * 512)).map buf ++ sectors c (lba + i) n := by
  intro n
  induction n with
  | zero =>
      intro i reads buf _
      exact ⟨buf, rfl, (List.append_nil _).symm⟩
  | succ n ih =>
      intro i reads buf hN
      have hsize := hdisk.size
      have hlba : u32 (lba + i) = lba + i := u32_of_lt (by omega)
      obtain ⟨hok, hbytes⟩ := hdisk.answers read hread reads (lba + i) (by omega)
      have hlen : (c (lba + i)).length = 512 := hbytes ▸ (read reads (lba + i)).full hok
      obtain ⟨buf', hloop, hmap⟩ := ih (i + 1) (reads + 1)
        (bufferStore buf (i * 512) (c (lba + i))) (by omega)
      refine ⟨buf', ?_, ?_⟩
      · rw [devfsReadLoop]
        simp only [hlba, hok, hbytes, if_true, hloop, Nat.add_assoc, Nat.add_comm 1 n]
      · have hstored := map_bufferStore buf (i * 512) (c (lba + i))
        rw [hlen, ← Nat.succ_mul] at hstored
        rw [show i + (n + 1) = i + 1 + n by omega, hmap, hstored, sectors_succ,
          List.append_assoc, Nat.add_assoc]

/-! ## One read -/

/-- Descriptor `fd` is open on a disk, at position `p`. -/
structure DiskAt (B : Blocks) (fd : UInt32) (N : Nat) (c : Nat → List Byte) (p : Nat)
    (v : Vfs World FsType FileOps) (file : VfsFile FileOps) : Prop where
  opened : v.files fd.toNat = some file
  ops : file.ops = some .devfsBlock
  pos : file.pos = p
  ctx : file.fileCtx ≠ 0
  kind : devKind v.world.mem file.fileCtx = devfsKindBlock
  blk : devBlk v.world.mem file.fileCtx ≠ 0
  readable : (B.device (devBlk v.world.mem file.fileCtx)).read ≠ none
  disk : DiskOf (B.device (devBlk v.world.mem file.fileCtx)) N c

/-- `devfs_read_block` of whole sectors that are there. -/
theorem devfsReadBlock_sectors (h : DiskAt B fd N c p v file) (hp : p % 512 = 0) {size : Nat}
    (hsize : size % 512 = 0) (hN : p / 512 + size / 512 ≤ N) (buf : Buffer) (out : Nat) :
    ∃ reads buf', devfsReadBlock B v.world file p (some buf) size out
        = .ok ⟨vfsOk, { v.world with reads := reads }, file, some buf', size⟩
      ∧ (List.range size).map buf' = sectors c (p / 512) (size / 512) := by
  obtain ⟨read, hread⟩ := Option.ne_none_iff_exists'.mp h.readable
  obtain ⟨buf', hloop, hmap⟩ := devfsReadLoop_spec h.disk hread (p / 512) (size / 512) 0
    v.world.reads buf (by omega)
  have hctx : ¬ (file.fileCtx = 0 ∨ devKind v.world.mem file.fileCtx ≠ devfsKindBlock
      ∨ devBlk v.world.mem file.fileCtx = 0) := by
    rintro (hc | hc | hc)
    · exact h.ctx hc
    · exact hc h.kind
    · exact h.blk hc
  refine ⟨v.world.reads + size / 512, buf', ?_, ?_⟩
  · rw [devfsReadBlock]
    simp only [hctx, if_false, hread, h.disk.sectorSize, hp, hsize, ne_eq, not_true_eq_false,
      hloop]
  · rw [show (0 + size / 512) * 512 = size by omega] at hmap
    exact hmap

/-- **ONE READ** of whole sectors that are there succeeds in full, delivers them, and
    moves the position. -/
theorem DiskAt.read (h : DiskAt B fd N c p v file) (hp : p % 512 = 0) {size : UInt32}
    (hsize : size.toNat % 512 = 0) (hN : p / 512 + size.toNat / 512 ≤ N) (buf : Buffer)
    (out : Nat) :
    ∃ v' buf', VfsStep (fsCalls B) v
        (.read fd (some buf) size out, .read vfsOk (some buf') size.toNat) v'
      ∧ (List.range size.toNat).map buf' = sectors c (p / 512) (size.toNat / 512)
      ∧ ∃ file', DiskAt B fd N c (u32 (p + size.toNat)) v' file' := by
  obtain ⟨reads, buf', hcall, hmap⟩ := devfsReadBlock_sectors h hp hsize hN buf 0
  rw [← h.pos] at hcall
  have hread : (fsCalls B).readFn .devfsBlock v.world file file.pos (some buf) size.toNat 0
      = .ok ⟨vfsOk, { v.world with reads := reads }, file, some buf', size.toNat⟩ := hcall
  obtain ⟨t, ht, heq⟩ := vfsRead_eq out h.opened h.ops (by simp) hread rfl
  rw [if_neg (not_not.mpr rfl), if_neg (Nat.lt_irrefl _)] at heq
  obtain ⟨hworld, -, hfiles⟩ := ht (u32 (file.pos + size.toNat))
  refine ⟨_, buf', congrArg (· >>= _) heq, hmap, { file with pos := u32 (file.pos + size.toNat) },
    ?_⟩
  refine ⟨?_, h.ops, ?_, h.ctx, ?_, ?_, ?_, ?_⟩
  · rw [hfiles, Function.update_self]
  · rw [h.pos]
  · rw [hworld]
    exact h.kind
  · rw [hworld]
    exact h.blk
  · rw [hworld]
    exact h.readable
  · rw [hworld]
    exact h.disk

/-! ## Reads one after the other -/

/-- The arguments of a `vfs_read`. -/
structure ReadReq where
  buf : Buffer
  size : UInt32
  out : Nat

def ReadReq.call (fd : UInt32) (r : ReadReq) : VfsCall := .read fd (some r.buf) r.size r.out

/-- The bytes asked for. -/
def total (reqs : List ReadReq) : Nat := (reqs.map fun r => r.size.toNat).sum

/-- Each request is for one sector or more. -/
def WholeSectors (reqs : List ReadReq) : Prop :=
  ∀ r ∈ reqs, 0 < r.size.toNat ∧ r.size.toNat % 512 = 0

/-- What reads from position `p` on deliver. -/
def deliveredFrom (c : Nat → List Byte) : Nat → List ReadReq → List Byte
  | _, [] => []
  | p, r :: reqs => sectors c (p / 512) (r.size.toNat / 512)
      ++ deliveredFrom c (u32 (p + r.size.toNat)) reqs

/-- The read succeeded and delivered all it was asked for. -/
def InFull (e : VfsCall × VfsRet) : Prop :=
  ∃ fd buf size out buf',
    e = (.read fd (some buf) size out, .read vfsOk (some buf') size.toNat)

variable {reqs : List ReadReq} {r : ReadReq}

theorem total_cons (r : ReadReq) (reqs : List ReadReq) :
    total (r :: reqs) = r.size.toNat + total reqs := rfl

/-- **READS ONE AFTER THE OTHER** all succeed, and deliver what their positions say. -/
theorem DiskAt.reads (h : DiskAt B fd N c p v file) (hp : p % 512 = 0)
    (hwhole : WholeSectors reqs) (hN : p + total reqs ≤ N * 512) :
    ∃ es v', vfsCalls (fsCalls B) v (reqs.map (ReadReq.call fd)) = .ok (es, v')
      ∧ (∀ e ∈ es, InFull e) ∧ delivered fd es = deliveredFrom c p reqs := by
  induction reqs generalizing p v file with
  | nil => exact ⟨[], v, rfl, fun _ he => (nomatch he), rfl⟩
  | cons r reqs ih =>
      obtain ⟨-, hr⟩ := hwhole r (List.mem_cons_self ..)
      have hrest : WholeSectors reqs := fun q hq => hwhole q (List.mem_cons_of_mem _ hq)
      rw [total_cons] at hN
      have hwrap : u32 (p + r.size.toNat) ≤ p + r.size.toNat := Nat.mod_le ..
      have hmod : u32 (p + r.size.toNat) % 512 = 0 := by
        rw [u32]
        omega
      obtain ⟨v₁, buf', hst, hmap, file', hnext⟩ := h.read hp hr (by omega) r.buf r.out
      obtain ⟨es, v', hcalls, hfull, hdelivered⟩ := ih hnext hmod hrest (by omega)
      refine ⟨(r.call fd, .read vfsOk (some buf') r.size.toNat) :: es, v', ?_, ?_, ?_⟩
      · rw [List.map_cons, vfsCalls, show vfsCall (fsCalls B) v (r.call fd) = _ from hst]
        show (vfsCalls (fsCalls B) v₁ (reqs.map (ReadReq.call fd)) >>= _) = _
        rw [hcalls]
        rfl
      · intro e he
        rcases List.mem_cons.mp he with rfl | he
        · exact ⟨fd, r.buf, r.size, r.out, buf', rfl⟩
        · exact hfull e he
      · have hnamed : namedFd (r.call fd) = some fd.toNat := rfl
        rw [delivered, List.flatMap_cons, if_pos hnamed, deliveredFrom, ← hdelivered]
        congr 1

/-- Reads that begin below 4 GiB deliver the disk in order. -/
theorem deliveredFrom_eq (c : Nat → List Byte) (hp : p % 512 = 0) (hwhole : WholeSectors reqs)
    (hstart : ∀ k, k < reqs.length → p + total (reqs.take k) < 2 ^ 32) :
    deliveredFrom c p reqs = sectors c (p / 512) (total reqs / 512) := by
  induction reqs generalizing p with
  | nil => rfl
  | cons r reqs ih =>
      obtain ⟨-, hr⟩ := hwhole r (List.mem_cons_self ..)
      have hrest : WholeSectors reqs := fun q hq => hwhole q (List.mem_cons_of_mem _ hq)
      rw [deliveredFrom, total_cons, show (r.size.toNat + total reqs) / 512
        = r.size.toNat / 512 + total reqs / 512 by omega, sectors_add]
      congr 1
      cases reqs with
      | nil => rfl
      | cons r' rs =>
          have hnext := hstart 1 (by simp)
          have hsum : total [r] = r.size.toNat := rfl
          rw [List.take_succ_cons, List.take_zero, hsum] at hnext
          rw [u32_of_lt hnext, show p / 512 + r.size.toNat / 512
            = (p + r.size.toNat) / 512 by omega]
          refine ih (by omega) hrest fun k hk => ?_
          have hk' := hstart (k + 1) (by simpa using hk)
          rw [List.take_succ_cons, total_cons] at hk'
          omega

/-! ## A descriptor just opened -/

/-- Descriptor `fd` was just opened on a disk node of DevFS, after any mounts and
    calls. -/
structure OpenedDisk (B : Blocks) (fd : UInt32) (N : Nat) (c : Nat → List Byte)
    (v : Vfs World FsType FileOps) : Prop where
  opened : ∃ mem reads₀ g bootEvents boot opened reads before v₀ path flags old,
    Run (BootStep B) (bootStart mem reads₀ g) bootEvents boot
      ∧ Run (VfsStep (fsCalls B)) (fsStart boot opened reads) before v₀
      ∧ VfsStep (fsCalls B) v₀ (.open path flags old, .open vfsOk (some fd.toNat)) v
  disk : ∃ file, v.files fd.toNat = some file ∧ file.ops = some .devfsBlock
    ∧ DiskOf (B.device (devBlk v.world.mem file.fileCtx)) N c

/-- A file just opened is at its beginning. -/
theorem vfsStep_open_pos {v₀ : Vfs World FsType FileOps} {path : Option (List UInt8)}
    {flags : UInt32} {old : Option Nat} {fd : Nat}
    (h : VfsStep (fsCalls B) v₀ (.open path flags old, .open vfsOk (some fd)) v)
    (hfile : v.files fd = some file) : file.pos = 0 := by
  obtain ⟨⟨rc, t, out⟩, hcall, hret⟩ := bind_ok h
  cases hret
  rcases vfsOpen_cases hcall with
    ⟨hrc, -⟩ | ⟨_, _, i, tmp, -, -, -, hi, -, -, hupdate, -⟩
  · exact absurd rfl hrc
  · obtain ⟨-, -, hentry⟩ := files_some hfile
    rw [← hentry, hupdate, Option.some.inj hi, Function.update_self]

theorem OpenedDisk.diskAt (h : OpenedDisk B fd N c v) : ∃ file, DiskAt B fd N c 0 v file := by
  obtain ⟨mem, reads₀, g, bootEvents, boot, opened, reads, before, v₀, path, flags, old, hboot,
    hbefore, hopen⟩ := h.opened
  obtain ⟨file, hfile, hops, hdisk⟩ := h.disk
  have hinv := bootInv_run hboot
  obtain ⟨bs₀, hheap⟩ := hinv.heap
  have hreached := ((fsInv_run hinv hheap hbefore).step hinv hheap.owned hopen).inv
  have hok := hreached.files _ _ hfile
  rw [FileOk, hops] at hok
  obtain ⟨hkind, hreg⟩ := hok
  have hctx : (file.fileCtx, sizeofDevFsFileCtx) ∈ fileBlocks v.world.mem file := by
    rw [fileBlocks, hops]
    exact List.mem_cons_self ..
  have hbounds := hreached.owns.bounds (List.mem_append_left _
    (mem_blocksOf (List.mem_range.mpr (files_some hfile).1) hfile hctx))
  exact ⟨file, hfile, hops, vfsStep_open_pos hopen hfile, by omega, hkind, hreg.nonNull,
    hreg.readable, hdisk⟩

/-- **IN ORDER**: each of the reads returns and succeeds in full, and together they
    deliver the disk from sector 0 on. -/
def InOrder (B : Blocks) (fd : UInt32) (c : Nat → List Byte) (reqs : List ReadReq)
    (v : Vfs World FsType FileOps) : Prop :=
  ∃ es v', vfsCalls (fsCalls B) v (reqs.map (ReadReq.call fd)) = .ok (es, v')
    ∧ (∀ e ∈ es, InFull e) ∧ delivered fd es = sectors c 0 (total reqs / 512)

/-! ## A disk that shows the difference -/

/-- Sector `lba` begins with its number. -/
def lbaSector (lba : Nat) : List Byte :=
  [byteOf lba 0, byteOf lba 1, byteOf lba 2, byteOf lba 3] ++ List.replicate 508 0

theorem length_lbaSector (lba : Nat) : (lbaSector lba).length = 512 := by
  rw [lbaSector, List.length_append, List.length_replicate]
  rfl

theorem le32_lbaSector (lba : Nat) : le32 (lbaSector lba) 0 = lba % 2 ^ 32 := by
  simp only [le32, lbaSector, List.cons_append, List.getD_cons_zero, List.getD_cons_succ, byteOf,
    BitVec.toNat_ofNat]
  omega

theorem length_sectors (lba n : Nat) : (sectors lbaSector lba n).length = n * 512 := by
  induction n generalizing lba with
  | zero => rfl
  | succ n ih =>
      rw [sectors_succ, List.length_append, length_lbaSector, ih]
      omega

/-- On this disk reads in order are reads that begin below 4 GiB. -/
theorem starts_of_deliveredFrom {P : Nat} (hP : P % 512 = 0) (hwhole : WholeSectors reqs)
    (hbound : P + total reqs ≤ 2 ^ 37)
    (heq : deliveredFrom lbaSector (u32 P) reqs
      = sectors lbaSector (P / 512) (total reqs / 512)) :
    ∀ k, k < reqs.length → P + total (reqs.take k) < 2 ^ 32 := by
  induction reqs generalizing P with
  | nil => exact fun k hk => absurd hk (Nat.not_lt_zero k)
  | cons r reqs ih =>
      obtain ⟨hpos, hr⟩ := hwhole r (List.mem_cons_self ..)
      have hrest : WholeSectors reqs := fun q hq => hwhole q (List.mem_cons_of_mem _ hq)
      rw [total_cons] at hbound heq
      rw [deliveredFrom, show (r.size.toNat + total reqs) / 512
        = r.size.toNat / 512 + total reqs / 512 by omega, sectors_add] at heq
      obtain ⟨hfirst, hlater⟩ := List.append_inj heq (by rw [length_sectors, length_sectors])
      -- the first sector tells where the read began
      obtain ⟨n, hn⟩ : ∃ n, r.size.toNat / 512 = n + 1 := ⟨r.size.toNat / 512 - 1, by omega⟩
      rw [hn, sectors_succ, sectors_succ] at hfirst
      have hlba := congrArg (le32 · 0) (List.append_inj hfirst
        (by rw [length_lbaSector, length_lbaSector])).1
      simp only [le32_lbaSector, u32] at hlba
      have hlt : P < 2 ^ 32 := by omega
      rw [u32_of_lt hlt, show P / 512 + r.size.toNat / 512 = (P + r.size.toNat) / 512 by omega]
        at hlater
      have hnext := ih (by omega) hrest (by omega) hlater
      intro k hk
      cases k with
      | zero => exact hlt
      | succ k =>
          have hk' := hnext k (by simpa using hk)
          rw [List.take_succ_cons, total_cons]
          omega

def lbaDevice : BlockDevice :=
  ⟨diskPrefix ++ [48], 512, some fun _ lba =>
    ⟨true, lbaSector lba, Nat.le_of_eq (length_lbaSector lba), fun _ => length_lbaSector lba⟩⟩

theorem lbaDevice_disk (hN : N ≤ 2 ^ 28) : DiskOf lbaDevice N lbaSector := by
  refine ⟨rfl, hN, fun read hread n lba _ => ?_⟩
  cases hread
  exact ⟨rfl, rfl⟩

/-- The disk is registered as `disk0`. -/
def lbaBlocks : Blocks where
  device := fun _ => lbaDevice
  devices := [0x1000]
  valid := by
    refine ⟨fun dev hdev => ?_, List.pairwise_singleton _ _, by decide⟩
    rw [List.mem_singleton.mp hdev]
    exact ⟨by decide, by decide, by decide, by decide, nofun⟩

/-- DevFS is mounted on the root. -/
def lbaMount : MountCall FsType := ⟨some root, some [100], some ⟨some .devfs⟩, 0⟩

def lbaBoot : Boot where
  world := ⟨heapFirstBlock ⟨fun _ => 0, []⟩, 0⟩
  live := []
  created := []
  mounts := (vfsMount (vfsInitMounts smallMounts) lbaMount.mountpoint lbaMount.fsName
    lbaMount.ops lbaMount.fsCtx).2

theorem lbaBoot_run :
    Run (BootStep lbaBlocks) (bootStart ⟨fun _ => 0, []⟩ 0 smallMounts) [.mount lbaMount]
      lbaBoot :=
  Run.single (.mount rfl nofun)

/-- Its disk node can be opened. -/
theorem lbaDisk_opened (hN : N ≤ 2 ^ 28) : ∃ v, OpenedDisk lbaBlocks 0 N lbaSector v := by
  have hcodes : (vfsCalls (fsCalls lbaBlocks) (fsStart lbaBoot (fun _ => ⟨false, .blank⟩) 0)
      [.open (some (root ++ lbaDevice.name)) 1 (some 0)]).map (fun r =>
        (r.1.map fun e => e.2.code, (r.2.files 0).bind VfsFile.ops))
      = .ok ([0], some .devfsBlock) := by
    decide +kernel
  cases hcall : vfsCall (fsCalls lbaBlocks) (fsStart lbaBoot (fun _ => ⟨false, .blank⟩) 0)
      (.open (some (root ++ lbaDevice.name)) 1 (some 0)) with
  | error e =>
    rw [vfsCalls, hcall] at hcodes
    cases hcodes
  | ok r =>
    obtain ⟨ret, v⟩ := r
    rw [vfsCalls, hcall] at hcodes
    obtain ⟨hcode, hops⟩ := Prod.mk.inj (Except.ok.inj hcodes)
    have hret := fsStart_open hcall (List.head_eq_of_cons_eq hcode)
    subst hret
    obtain ⟨file, hfile, hfops⟩ := Option.bind_eq_some_iff.mp hops
    exact ⟨v, ⟨_, _, _, _, _, _, _, _, _, _, _, _, lbaBoot_run, Run.nil, hcall⟩, file, hfile,
      hfops, lbaDevice_disk hN⟩

/-! ## The exact condition -/

/-- **READS IN ORDER**: requests for whole sectors, as many as the disk has, are
    answered in full and in order on every disk just opened exactly when each of
    them begins below 4 GiB. -/
theorem disk_reads_in_order_iff (N : Nat) (hN : N ≤ 2 ^ 28) (reqs : List ReadReq)
    (hwhole : WholeSectors reqs) (htotal : total reqs ≤ N * 512) :
    (∀ (B : Blocks) (fd : UInt32) (c : Nat → List Byte) (v : Vfs World FsType FileOps),
      OpenedDisk B fd N c v → InOrder B fd c reqs v)
    ↔ ∀ k, k < reqs.length → total (reqs.take k) < 2 ^ 32 := by
  constructor
  · intro hall
    obtain ⟨v, hopened⟩ := lbaDisk_opened hN
    obtain ⟨file, hat⟩ := hopened.diskAt
    obtain ⟨es, v', hcalls, -, hdelivered⟩ := hat.reads rfl hwhole (by omega)
    obtain ⟨es', v'', hcalls', -, horder⟩ := hall lbaBlocks 0 lbaSector v hopened
    rw [hcalls] at hcalls'
    cases hcalls'
    rw [hdelivered] at horder
    intro k hk
    have hstart := starts_of_deliveredFrom (P := 0) rfl hwhole (by omega) horder k hk
    omega
  · intro hstart B fd c v hopened
    obtain ⟨file, hat⟩ := hopened.diskAt
    obtain ⟨es, v', hcalls, hfull, hdelivered⟩ := hat.reads rfl hwhole (by omega)
    refine ⟨es, v', hcalls, hfull, ?_⟩
    rw [hdelivered]
    refine deliveredFrom_eq c rfl hwhole fun k hk => ?_
    have hk' := hstart k hk
    omega

/-- Three sectors in two reads. -/
theorem disk_reads_in_order_iff_three :
    ∃ v, OpenedDisk lbaBlocks 0 3 lbaSector v
      ∧ InOrder lbaBlocks 0 lbaSector [⟨fun _ => 0, 512, 0⟩, ⟨fun _ => 0, 1024, 0⟩] v := by
  obtain ⟨v, hopened⟩ := lbaDisk_opened (N := 3) (by decide)
  have hiff := disk_reads_in_order_iff 3 (by decide)
    [⟨fun _ => 0, 512, 0⟩, ⟨fun _ => 0, 1024, 0⟩]
    (fun r hr => by
      rcases List.mem_cons.mp hr with rfl | hr
      · decide
      · rw [List.mem_singleton.mp hr]
        decide) (by decide)
  refine ⟨v, hopened, hiff.mpr (fun k hk => ?_) _ _ _ _ hopened⟩
  have hk' : k = 0 ∨ k = 1 := by
    have hlen : k < 2 := hk
    omega
  rcases hk' with rfl | rfl
  · decide
  · decide

/-- The whole of the first 4 GiB and one sector more, in three reads. -/
def bigReads : List ReadReq :=
  [⟨fun _ => 0, 4294966784, 0⟩, ⟨fun _ => 0, 512, 0⟩, ⟨fun _ => 0, 512, 0⟩]

/-- **THE DISK BEGINS AGAIN**: of a disk with 2^23 + 1 sectors the third read delivers
    sector 0 in place of sector 2^23, and succeeds. -/
theorem disk_reads_start_again :
    ∃ v, OpenedDisk lbaBlocks 0 (2 ^ 23 + 1) lbaSector v
      ∧ WholeSectors bigReads ∧ total bigReads ≤ (2 ^ 23 + 1) * 512
      ∧ (∃ es v', vfsCalls (fsCalls lbaBlocks) v (bigReads.map (ReadReq.call 0)) = .ok (es, v')
        ∧ (∀ e ∈ es, InFull e)
        ∧ delivered 0 es = sectors lbaSector 0 (2 ^ 23) ++ lbaSector 0)
      ∧ lbaSector 0 ≠ lbaSector (2 ^ 23)
      ∧ ¬ InOrder lbaBlocks 0 lbaSector bigReads v := by
  obtain ⟨v, hopened⟩ := lbaDisk_opened (N := 2 ^ 23 + 1) (by decide)
  obtain ⟨file, hat⟩ := hopened.diskAt
  have hwhole : WholeSectors bigReads := by
    intro r hr
    rcases List.mem_cons.mp hr with rfl | hr
    · decide
    rcases List.mem_cons.mp hr with rfl | hr
    · decide
    · rw [List.mem_singleton.mp hr]
      decide
  have htotal : total bigReads = (2 ^ 23 + 1) * 512 := by decide
  obtain ⟨es, v', hcalls, hfull, hdelivered⟩ := hat.reads rfl hwhole (by omega)
  have hsectors : deliveredFrom lbaSector 0 bigReads
      = sectors lbaSector 0 (2 ^ 23) ++ lbaSector 0 := by
    have hone : ∀ lba, sectors lbaSector lba 1 = lbaSector lba := fun lba => by
      rw [sectors_succ]
      exact List.append_nil _
    have hlast := sectors_add lbaSector 0 (2 ^ 23 - 1) 1
    rw [Nat.sub_add_cancel (by decide)] at hlast
    have hfrom : deliveredFrom lbaSector 0 bigReads
        = sectors lbaSector 0 (2 ^ 23 - 1) ++ (sectors lbaSector (0 + (2 ^ 23 - 1)) 1
          ++ (sectors lbaSector 0 1 ++ [])) := rfl
    rw [hfrom, ← List.append_assoc, ← hlast, hone, List.append_nil]
  have hdiffer : lbaSector 0 ≠ lbaSector (2 ^ 23) := by
    intro heq
    have hlba := congrArg (le32 · 0) heq
    simp only [le32_lbaSector] at hlba
    omega
  rw [hsectors] at hdelivered
  refine ⟨v, hopened, hwhole, Nat.le_of_eq htotal, ⟨es, v', hcalls, hfull, hdelivered⟩,
    hdiffer, ?_⟩
  rintro ⟨es', v'', hcalls', -, horder⟩
  rw [hcalls] at hcalls'
  cases hcalls'
  rw [hdelivered, htotal, Nat.mul_div_cancel _ (by decide), sectors_add, sectors_succ,
    Nat.zero_add] at horder
  refine hdiffer (List.append_cancel_left horder |>.trans ?_)
  exact List.append_nil _

end PyramidFs
