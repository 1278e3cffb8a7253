import PyramidOS.DiskReadProofs

/-! # What a failed read reports

    `vfs_read` sets `*out_read` to 0, lets the filesystem overwrite it, and moves
    the position only on success.  `devfs_read_block` overwrites it with the bytes
    it moved before a sector failed.

    * `StopsPartway` — the device fails a sector after it delivered one;
    * `readFn_counts` — the count each filesystem leaves;
    * `vfs_read_counts_iff` — on a failure the count is 0 unless the read stops
      partway, in every state reached. -/

namespace PyramidFs

open ByteMem PyramidString PyramidKernel PyramidHeap PyramidBlock PyramidVfs BlockTiling
  LabelledRun

variable {B : Blocks} {boot : Boot} {bs₀ : List Block} {v v' : Vfs World FsType FileOps}
  {w w' : World} {file : VfsFile FileOps} {base live : List (Nat × Nat)}
  {buffer : Option Buffer} {read : Nat → Nat → Reply} {r : ReadResult World FileOps}
  {size offset outRead k : Nat}

/-! ## The sector that fails -/

/-- The first of `n` sectors from `lba` on that cannot be read, after `reads` reads. -/
def firstFailure (read : Nat → Nat → Reply) (reads lba n : Nat) : Option Nat :=
  (List.range n).find? fun k => !(read (reads + k) (u32 (lba + k))).ok

/-- The loop stops there. -/
theorem devfsReadLoop_fst (read : Nat → Nat → Reply) (lba sectorSize : Nat) :
    ∀ (n i reads : Nat) (buf : Buffer),
      (devfsReadLoop read lba sectorSize n i reads buf).1
        = ((List.range n).find? fun k =>
            !(read (reads + k) (u32 (lba + (i + k)))).ok).map (i + ·) := by
  intro n
  induction n with
  | zero => exact fun _ _ _ => rfl
  | succ n ih =>
    intro i reads buf
    rw [devfsReadLoop, List.range_succ_eq_map, List.find?_cons]
    by_cases hok : (read reads (u32 (lba + i))).ok = true
    · simp only [hok, if_true, Nat.add_zero, Bool.not_true]
      rw [ih, List.find?_map, Option.map_map]
      -- sector `k` of the rest is sector `k + 1`
      have hshift : ∀ k, i + 1 + k = i + k.succ := fun k => by omega
      have hreads : ∀ k, reads + 1 + k = reads + k.succ := fun k => by omega
      simp only [hshift, hreads]
      rfl
    · simp only [hok, Nat.add_zero, Bool.not_false, Bool.false_eq_true, if_false]
      rfl

theorem devfsReadLoop_failed (read : Nat → Nat → Reply) (lba sectorSize n reads : Nat)
    (buf : Buffer) :
    (devfsReadLoop read lba sectorSize n 0 reads buf).1 = firstFailure read reads lba n := by
  have hloop := devfsReadLoop_fst read lba sectorSize n 0 reads buf
  simp only [Nat.zero_add] at hloop
  exact hloop.trans (congrFun Option.map_id _)

theorem firstFailure_eq_some {reads lba n : Nat} :
    firstFailure read reads lba n = some k ↔
      (read (reads + k) (u32 (lba + k))).ok = false ∧ k < n
        ∧ ∀ j, j < k → (read (reads + j) (u32 (lba + j))).ok = true := by
  rw [firstFailure, List.find?_range_eq_some, List.mem_range]
  simp

/-- Of the whole sectors asked for, the device delivers the first `k` and fails the
    next. -/
structure Partway (dev : BlockDevice) (reads pos size k : Nat) : Prop where
  aligned : pos % dev.sectorSize = 0
  whole : size % dev.sectorSize = 0
  within : k < size / dev.sectorSize
  delivered : ∀ read, dev.read = some read →
    ∀ j, j < k → (read (reads + j) (u32 (pos / dev.sectorSize + j))).ok = true
  failed : ∃ read, dev.read = some read
    ∧ (read (reads + k) (u32 (pos / dev.sectorSize + k))).ok = false

/-- **THE READ STOPS PARTWAY**: on a disk node, after at least one sector. -/
def StopsPartway (B : Blocks) (w : World) (file : VfsFile FileOps) (size : Nat) : Prop :=
  file.ops = some .devfsBlock
    ∧ ∃ k, 0 < k ∧ Partway (B.device (devBlk w.mem file.fileCtx)) w.reads file.pos size k

/-- That is where the loop stops. -/
theorem partway_iff {dev : BlockDevice} {reads pos : Nat} (hread : dev.read = some read)
    (hpos : pos % dev.sectorSize = 0) (hsize : size % dev.sectorSize = 0) :
    Partway dev reads pos size k
      ↔ firstFailure read reads (pos / dev.sectorSize) (size / dev.sectorSize) = some k := by
  rw [firstFailure_eq_some]
  constructor
  · rintro ⟨-, -, hwithin, hdelivered, read', hread', hfailed⟩
    obtain rfl : read = read' := Option.some.inj (hread.symm.trans hread')
    exact ⟨hfailed, hwithin, hdelivered read hread⟩
  · rintro ⟨hfailed, hwithin, hdelivered⟩
    refine ⟨hpos, hsize, hwithin, fun read' hread' => ?_, read, hread, hfailed⟩
    obtain rfl : read = read' := Option.some.inj (hread.symm.trans hread')
    exact hdelivered

/-! ## What the filesystems count -/

/-- What a read callback makes of `*out_read`, which was 0. -/
structure Counts (B : Blocks) (w : World) (file : VfsFile FileOps) (size : Nat)
    (r : ReadResult World FileOps) : Prop where
  partway : StopsPartway B w file size → r.rc ≠ vfsOk ∧ r.outRead ≠ 0
  failed : ¬ StopsPartway B w file size → r.rc ≠ vfsOk → r.outRead = 0
  fits : r.rc = vfsOk → r.outRead ≤ size

/-- A read of something else than a disk node counts nothing when it fails. -/
theorem Counts.other (hops : file.ops ≠ some .devfsBlock)
    (hfailed : r.rc ≠ vfsOk → r.outRead = 0) (hfits : r.rc = vfsOk → r.outRead ≤ size) :
    Counts B w file size r :=
  ⟨fun h => absurd h.1 hops, fun _ => hfailed, hfits⟩

theorem devfsReadZero_counts (hops : file.ops = some .devfsZero)
    (h : devfsReadZero w file buffer size 0 = .ok r) : Counts B w file size r := by
  have hother : file.ops ≠ some .devfsBlock := by
    rw [hops]
    nofun
  cases buffer with
  | some buf =>
    cases h
    exact .other hother (fun hrc => absurd rfl hrc) fun _ => Nat.le_refl _
  | none =>
    rw [devfsReadZero] at h
    by_cases hsize : size > 0
    · rw [if_pos hsize] at h
      cases h
      have hfailed : vfsErrInvalidParam ≠ vfsOk := by decide
      exact .other hother (fun _ => rfl) fun hok => absurd hok hfailed
    · rw [if_neg hsize] at h
      cases h
      exact .other hother (fun hrc => absurd rfl hrc) fun _ => Nat.le_refl _

theorem Counts.refused {rc : Nat} (hrc : rc ≠ vfsOk) (hnot : ¬ StopsPartway B w file size)
    (h : readFails rc w file buffer 0 = .ok r) : Counts B w file size r := by
  cases h
  exact ⟨fun hpart => absurd hpart hnot, fun _ _ => rfl, fun hok => absurd hok hrc⟩

/-- How a read of a disk node ends: it is not one of whole sectors, or it delivers them
    all, or it stops at the first that fails. -/
inductive DiskRead (dev : BlockDevice) (read : Nat → Nat → Reply) (reads offset size : Nat)
    (r : ReadResult World FileOps) : Prop where
  | unaligned (hnot : ¬ (offset % dev.sectorSize = 0 ∧ size % dev.sectorSize = 0))
      (hrc : r.rc = vfsErrNotSupported) (hout : r.outRead = 0)
  | whole
      (hnone : firstFailure read reads (offset / dev.sectorSize) (size / dev.sectorSize) = none)
      (hrc : r.rc = vfsOk) (hout : r.outRead = size)
  | stopped {i : Nat} (hoffset : offset % dev.sectorSize = 0) (hsize : size % dev.sectorSize = 0)
      (hfirst : firstFailure read reads (offset / dev.sectorSize) (size / dev.sectorSize) = some i)
      (hrc : r.rc = vfsErrIo) (hout : r.outRead = i * dev.sectorSize)

theorem devfsReadBlock_disk {buf : Buffer} (hctx : file.fileCtx ≠ 0)
    (hkind : devKind w.mem file.fileCtx = devfsKindBlock) (hblk : devBlk w.mem file.fileCtx ≠ 0)
    (hread : (B.device (devBlk w.mem file.fileCtx)).read = some read)
    (h : devfsReadBlock B w file offset (some buf) size 0 = .ok r) :
    DiskRead (B.device (devBlk w.mem file.fileCtx)) read w.reads offset size r := by
  have hok : ¬ (file.fileCtx = 0 ∨ devKind w.mem file.fileCtx ≠ devfsKindBlock
      ∨ devBlk w.mem file.fileCtx = 0) := by
    rintro (hc | hc | hc)
    · exact hctx hc
    · exact hc hkind
    · exact hblk hc
  rw [devfsReadBlock] at h
  simp only [hok, if_false] at h
  generalize B.device (devBlk w.mem file.fileCtx) = dev at *
  simp only [hread] at h
  by_cases hoffset : offset % dev.sectorSize = 0
  · rw [if_neg (not_not.mpr hoffset)] at h
    by_cases hsize : size % dev.sectorSize = 0
    · rw [if_neg (not_not.mpr hsize)] at h
      have hfirst := devfsReadLoop_failed read (offset / dev.sectorSize) dev.sectorSize
        (size / dev.sectorSize) w.reads buf
      generalize devfsReadLoop read _ _ _ 0 w.reads buf = loop at h hfirst
      obtain ⟨failed, reads, buf'⟩ := loop
      cases failed with
      | none =>
        cases h
        exact .whole hfirst.symm rfl rfl
      | some i =>
        cases h
        exact .stopped hoffset hsize hfirst.symm rfl rfl
    · rw [if_pos hsize] at h
      cases h
      exact .unaligned (fun hboth => hsize hboth.2) rfl rfl
  · rw [if_pos hoffset] at h
    cases h
    exact .unaligned (fun hboth => hoffset hboth.1) rfl rfl

theorem devfsReadBlock_counts (hops : file.ops = some .devfsBlock) (hctx : file.fileCtx ≠ 0)
    (hf : FileOk B base w.mem file) (hbuf : ¬ (size > 0 ∧ buffer.isNone = true))
    (h : devfsReadBlock B w file file.pos buffer size 0 = .ok r) : Counts B w file size r := by
  rw [FileOk, hops] at hf
  obtain ⟨hkind, hreg⟩ := hf
  have hstops : StopsPartway B w file size ↔ ∃ k, 0 < k
      ∧ Partway (B.device (devBlk w.mem file.fileCtx)) w.reads file.pos size k :=
    and_iff_right hops
  cases buffer with
  | none =>
    have hzero : size = 0 := Nat.eq_zero_of_not_pos fun hpos => hbuf ⟨hpos, rfl⟩
    refine .refused (show vfsErrInvalidParam ≠ vfsOk by decide) ?_ h
    rintro ⟨-, k, -, hpart⟩
    have hwithin := hpart.within
    rw [hzero, Nat.zero_div] at hwithin
    exact absurd hwithin (Nat.not_lt_zero k)
  | some buf =>
    have hnonNull := hreg.nonNull
    obtain ⟨-, -, -, hnonzero, hreadable⟩ := hreg
    obtain ⟨read, hread⟩ := Option.ne_none_iff_exists'.mp hreadable
    cases devfsReadBlock_disk hctx hkind hnonNull hread h with
    | unaligned hnot hrc hout =>
      have hwhole : ¬ StopsPartway B w file size := by
        rw [hstops]
        rintro ⟨k, -, hk⟩
        exact hnot ⟨hk.aligned, hk.whole⟩
      exact ⟨fun hpart => absurd hpart hwhole, fun _ _ => hout,
        fun hok => absurd (hrc.symm.trans hok) (by decide)⟩
    | whole hnone hrc hout =>
      have hall : ¬ StopsPartway B w file size := by
        rw [hstops]
        rintro ⟨k, -, hk⟩
        have hsome := (partway_iff hread hk.aligned hk.whole).mp hk
        rw [hnone] at hsome
        cases hsome
      exact ⟨fun hpart => absurd hpart hall, fun _ hfailed => absurd hrc hfailed,
        fun _ => Nat.le_of_eq hout⟩
    | stopped hoffset hsize hfirst hrc hout =>
      have hfailed : r.rc ≠ vfsOk := by
        rw [hrc]
        decide
      rw [← partway_iff hread hoffset hsize] at hfirst
      refine ⟨fun hpart => ⟨hfailed, ?_⟩, fun hnot _ => ?_, fun hok => absurd hok hfailed⟩
      · obtain ⟨k, hk0, hk⟩ := hstops.mp hpart
        rw [partway_iff hread hoffset hsize] at hfirst hk
        rw [hout, Option.some.inj (hfirst.symm.trans hk)]
        exact Nat.mul_ne_zero (Nat.ne_of_gt hk0) hnonzero
      · have hzero := Nat.eq_zero_of_not_pos fun hi => hnot (hstops.mpr ⟨_, hi, hfirst⟩)
        rw [hout, hzero, Nat.zero_mul]

theorem pyfsFileRead_counts (hops : file.ops = some .pyfsFile)
    (h : pyfsFileRead B w file offset buffer size 0 = .ok r) : Counts B w file size r := by
  have hother : file.ops ≠ some .devfsBlock := by
    rw [hops]
    nofun
  rcases pyfsFileRead_cases h with ⟨rc, w', hrc, -, rfl⟩ | ⟨w', buffer', n, hn, rfl⟩
  · exact .other hother (fun _ => rfl) fun hok => absurd hok hrc
  · exact .other hother (fun hc => absurd rfl hc) fun _ => hn

/-- **THE COUNT OF A READ**, whatever the file. -/
theorem readFn_counts {ops : FileOps} (hops : file.ops = some ops) (hctx : file.fileCtx ≠ 0)
    (hf : FileOk B base w.mem file) (hbuf : ¬ (size > 0 ∧ buffer.isNone = true))
    (h : (fsCalls B).readFn ops w file file.pos buffer size 0 = .ok r) :
    Counts B w file size r := by
  cases ops with
  | devfsNull =>
    cases h
    refine .other (by rw [hops]; nofun) (fun _ => rfl) fun _ => Nat.zero_le _
  | devfsZero => exact devfsReadZero_counts hops h
  | devfsBlock => exact devfsReadBlock_counts hops hctx hf hbuf h
  | pyfsFile => exact pyfsFileRead_counts hops h

/-! ## `vfs_read` -/

/-- An open file has a context on the heap. -/
theorem FsInv.fileCtx_ne_zero (h : FsInv B boot bs₀ v) {fd : Nat} (hfile : v.files fd = some file) :
    file.fileCtx ≠ 0 := by
  obtain ⟨ops, hops⟩ := (h.files fd file hfile).ops
  have hmem : ∃ n, (file.fileCtx, n) ∈ fileBlocks v.world.mem file := by
    rw [fileBlocks, hops]
    cases ops with
    | pyfsFile => exact ⟨_, List.mem_cons_self ..⟩
    | devfsNull => exact ⟨_, List.mem_cons_self ..⟩
    | devfsZero => exact ⟨_, List.mem_cons_self ..⟩
    | devfsBlock => exact ⟨_, List.mem_cons_self ..⟩
  obtain ⟨n, hn⟩ := hmem
  have hlt := (files_some hfile).1
  have hbounds := h.owns.bounds (List.mem_append_left _
    (mem_blocksOf (List.mem_range.mpr hlt) hfile hn))
  omega

/-- **A FAILED READ**, in every state reached: a read of an open file that passes the
    check of its buffer returns, and a failure reports nothing and leaves the
    position exactly when the read does not stop partway; a success moves the
    position by what it reports. -/
theorem vfs_read_counts_iff (mem : Mem) (reads₀ : Nat) (g : MountTable FsType)
    (bootEvents : List BootEvent) (opened : Nat → VfsOpenEntry FileOps) (reads : Nat)
    (es : List (VfsCall × VfsRet))
    (hboot : Run (BootStep B) (bootStart mem reads₀ g) bootEvents boot)
    (hrun : Run (VfsStep (fsCalls B)) (fsStart boot opened reads) es v) {fd : Nat}
    (hfile : v.files fd = some file) (hbuf : ¬ (size > 0 ∧ buffer.isNone = true))
    (outRead : Nat) :
    ∃ rc v' buffer' out, vfsRead (fsCalls B) v fd buffer size outRead = .ok (rc, v', buffer', out)
      ∧ ((rc ≠ vfsOk → out = 0 ∧ v'.files fd = some file) ↔ ¬ StopsPartway B v.world file size)
      ∧ (rc = vfsOk → v'.files fd = some { file with pos := u32 (file.pos + out) }) := by
  have hinv := bootInv_run hboot
  obtain ⟨bs₀, hheap⟩ := hinv.heap
  have hreached := fsInv_run hinv hheap hrun
  have hok := hreached.files fd file hfile
  obtain ⟨ops, hops⟩ := hok.ops
  have howns := hreached.focus (files_some hfile).1
  rw [hfile] at howns
  obtain ⟨r, hcall, -⟩ := readFn_reads hops hok howns (fun l hl => mem_othersOf_live hl)
    file.pos buffer size 0
  obtain ⟨hsame, -⟩ := (fsCalls_behaves B).read hcall
  have hcounts := readFn_counts hops (hreached.fileCtx_ne_zero hfile) hok hbuf hcall
  obtain ⟨t, ht, heq⟩ := vfsRead_eq outRead hfile hops hbuf hcall hsame
  have hfiles : ∀ pos, (t pos).files fd = some { file with pos := pos } := by
    intro pos
    rw [(ht pos).2.2, Function.update_self]
  rw [heq]
  by_cases hrc : r.rc ≠ vfsOk
  · rw [if_pos hrc]
    refine ⟨_, _, _, _, rfl, ?_, fun hc => absurd hc hrc⟩
    constructor
    · intro hclean hpart
      exact (hcounts.partway hpart).2 (hclean hrc).1
    · intro hnot _
      exact ⟨hcounts.failed hnot hrc, hfiles file.pos⟩
  · have hrc' := not_not.mp hrc
    rw [if_neg hrc, if_neg (Nat.not_lt.mpr (hcounts.fits hrc'))]
    refine ⟨_, _, _, _, rfl, ?_, fun _ => hfiles _⟩
    exact iff_of_true (fun hc => absurd rfl hc) fun hpart => (hcounts.partway hpart).1 hrc'

/-! ## A disk with one good sector -/

def flakyReply (ok : Bool) : Reply :=
  if ok then
    ⟨true, List.replicate 512 7, Nat.le_of_eq List.length_replicate, fun _ => List.length_replicate⟩
  else smallReply false

/-- `disk0`, of which only sector 0 can be read. -/
def flakyBlocks : Blocks where
  device := fun _ => ⟨diskPrefix ++ [48], 512, some fun _ lba => flakyReply (lba == 0)⟩
  devices := [0x1000]
  valid := by
    refine ⟨fun dev hdev => ?_, List.pairwise_singleton _ _, by decide⟩
    rw [List.mem_singleton.mp hdev]
    exact ⟨by decide, by decide, by decide, by decide, nofun⟩

theorem flakyBoot_run :
    Run (BootStep flakyBlocks) (bootStart ⟨fun _ => 0, []⟩ 0 smallMounts) [.mount lbaMount]
      lbaBoot :=
  Run.single (.mount rfl nofun)

/-- The disk is opened, and then read as `calls` say. -/
def flakyCalls (calls : List VfsCall) :
    Except Halt (List (VfsCall × VfsRet) × Vfs World FsType FileOps) :=
  vfsCalls (fsCalls flakyBlocks) (fsStart lbaBoot (fun _ => ⟨false, .blank⟩) 0)
    (.open (some (root ++ diskPrefix ++ [48])) 1 (some 0) :: calls)

/-- What a read reported. -/
def readCount : VfsRet → Nat
  | .read _ _ outRead => outRead
  | _ => 0

/-- One sector of the fresh disk. -/
theorem vfs_read_counts_iff_sector :
    ∃ v file rc v' buffer' out, v.files 0 = some file
      ∧ vfsRead (fsCalls flakyBlocks) v 0 (some fun _ => 0) 512 9 = .ok (rc, v', buffer', out)
      ∧ ((rc ≠ vfsOk → out = 0 ∧ v'.files 0 = some file)
        ↔ ¬ StopsPartway flakyBlocks v.world file 512) := by
  have hopened : (flakyCalls []).map (fun r => (r.2.files 0).isSome) = .ok true := by
    decide +kernel
  obtain ⟨es, v, hrun, -, hsome⟩ := vfsCalls_map hopened
  obtain ⟨file, hfile⟩ := Option.isSome_iff_exists.mp hsome
  obtain ⟨rc, v', buffer', out, hcall, hiff, -⟩ := vfs_read_counts_iff _ _ _ _ _ _ es
    flakyBoot_run hrun hfile
    (show ¬ (512 > 0 ∧ (some fun _ => 0 : Option Buffer).isNone = true) from nofun) 9
  exact ⟨v, file, rc, v', buffer', out, hfile, hcall, hiff⟩

/-- **A FAILED READ REPORTS A SECTOR**: two sectors are asked for and the second cannot
    be read; the call fails, reports 512 bytes, and leaves the position at 0, so that a
    second try reports them again. -/
theorem failed_read_reports_sector :
    ∃ es v, Run (VfsStep (fsCalls flakyBlocks)) (fsStart lbaBoot (fun _ => ⟨false, .blank⟩) 0)
        es v
      ∧ es.map Prod.fst = [.open (some (root ++ diskPrefix ++ [48])) 1 (some 0),
        .read 0 (some fun _ => 0) 1024 0, .read 0 (some fun _ => 0) 1024 0]
      ∧ es.map (fun e => (e.2.code, readCount e.2)) = [(vfsOk, 0), (vfsErrIo, 512), (vfsErrIo, 512)]
      ∧ (v.files 0).map VfsFile.pos = some 0 := by
  have hcodes : (flakyCalls [.read 0 (some fun _ => 0) 1024 0,
        .read 0 (some fun _ => 0) 1024 0]).map (fun r =>
          (r.1.map fun e => (e.2.code, readCount e.2), (r.2.files 0).map VfsFile.pos))
      = .ok ([(vfsOk, 0), (vfsErrIo, 512), (vfsErrIo, 512)], some 0) := by
    decide +kernel
  obtain ⟨es, v, hrun, hcalls, hmap⟩ := vfsCalls_map hcodes
  obtain ⟨hcounts, hpos⟩ := Prod.mk.inj hmap
  exact ⟨es, v, hrun, hcalls, hcounts, hpos⟩

end PyramidFs
