import PyramidOS.HeapFitProofs
import PyramidOS.MbrScanProofs

/-! # Partitions on the heap and on the disk

    What `mbr_scan_and_register` leaves behind: two heap blocks for every device it
    registered and nothing else, and devices whose reads stay within their part of
    the disk.

    * `mbr_scan_heap_balance` — the heap before and after the scan;
    * `mbrPartitionRead_eq` — `mbr_partition_read` on a partition, as one test;
    * `mbr_partition_confined` — the reads of the registered partitions. -/

namespace PyramidMbr

open ByteMem PyramidString PyramidKernel PyramidHeap PyramidBlock BlockTiling LabelledRun

variable {D : Drivers} {s s' : Storage} {m m' : Mem} {bs₀ : List Block}
  {live : List (Nat × Nat)} {mbr : List Byte} {diskName : Option (List UInt8)}
  {name : List UInt8} {es ps : List Nat} {disk i n p b c : Nat}

/-! ## The heap -/

/-- **THE SCAN NEITHER LEAKS NOR DANGLES**: in every state that can be reached, for
    every disk that is somewhere, whatever it answers, the scan returns.  What is then
    allocated is what was allocated before and, for each device that was appended to
    the registry, the device and its context, all of them different blocks. -/
theorem mbr_scan_heap_balance (D : Drivers) (mem : Mem) (reads : Nat)
    (events : List StorageEvent) (t : StorageClient)
    (hrun : Run (StorageStep D) (storageStart mem reads) events t) (disk : UInt32)
    (hdisk : Placed t.live disk.toNat) (diskName : Option (List UInt8)) (name : List UInt8)
    (hname : DiskNamed t.storage.mem disk.toNat diskName name) :
    ∃ rc s' ps, mbrScanAndRegister D t.storage disk.toNat diskName = .ok (rc, s')
      ∧ s'.devices = t.storage.devices ++ ps
      ∧ s'.heap.allocations.Perm
          ((partitionBlocks s'.mem ps).map Prod.fst ++ t.storage.heap.allocations)
      ∧ s'.heap.allocations.Nodup
      ∧ (∀ l ∈ partitionBlocks s'.mem ps, ∃ b ∈ used s'.heap.blocks,
          l.1 = b.addr + 20 ∧ l.2 ≤ b.size)
      ∧ ∀ b ∈ used t.storage.heap.blocks, b ∈ used s'.heap.blocks := by
  obtain ⟨bs, hheap⟩ := (storageInv_run hrun).heap
  obtain ⟨rc, s', es, ps, hok, hscanned, -⟩ := mbrScanAndRegister_spec D disk.toNat_lt
    ⟨bs, hheap, fun b hb => hb⟩ hheap.owned hdisk hname
  obtain ⟨bs', hheap', -⟩ := id hscanned.owns
  refine ⟨rc, s', ps, hok, hscanned.devices, ?_, hheap'.rep.allocations_nodup, ?_,
    hscanned.owns.used_subset hheap⟩
  · have hafter := hheap'.allocations_perm
    rw [List.map_append] at hafter
    exact hafter.trans (List.Perm.append_left _ hheap.allocations_perm.symm)
  · intro l hl
    exact hheap'.allocated (List.mem_append_left _ hl)

/-- The two partitions of the small disk. -/
theorem mbr_scan_heap_balance_small :
    ∃ rc s' ps, mbrScanAndRegister smallDrivers (storageStart smallDisk 0).storage
        (0x1000 : UInt32).toNat none = .ok (rc, s')
      ∧ s'.devices = ps
      ∧ s'.heap.allocations.Perm ((partitionBlocks s'.mem ps).map Prod.fst) := by
  have hfresh : (storageStart smallDisk 0).storage.heap.allocations = [] := by
    show (used (heapFirstBlock smallDisk).blocks).map _ = []
    rw [(heapFirstBlock_rep smallDisk).blocks_eq]
    rfl
  obtain ⟨rc, s', ps, hok, hdevices, hperm, -⟩ :=
    mbr_scan_heap_balance smallDrivers smallDisk 0 [] _ Run.nil 0x1000 (Or.inl (by decide)) none
      _ ⟨rfl, by decide +kernel⟩
  rw [hfresh, List.append_nil] at hperm
  exact ⟨rc, s', ps, hok, hdevices, hperm⟩

/-! ## The table -/

/-- With a name that is too long the loop adds nothing. -/
theorem mbrScanLoop_long (hdisk : disk < 2 ^ 32) (hlong : 29 < name.length) (hn : i + n ≤ 9)
    (h : Ready bs₀ live s disk diskName name) {rc : Nat}
    (hok : mbrScanLoop D mbr disk diskName n i s = .ok (rc, s')) : s'.devices = s.devices := by
  induction n generalizing i s with
  | zero =>
    cases hok
    rfl
  | succ n ih =>
    rw [mbrScanLoop_succ] at hok
    by_cases haccept : Accepted mbr i
    · rw [if_pos haccept] at hok
      obtain ⟨rc₁, s₁, hok₁, hu, hadded⟩ := mbrAddPartition_spec (D := D) (i := i) h hdisk
        (by omega) (le32_lt mbr (446 + 16 * i + 8)) (le32_lt mbr (446 + 16 * i + 12))
      rw [hok₁] at hok
      cases hadded with
      | added hlen => exact absurd hlen (Nat.not_le.mpr hlong)
      | passed _ hdevices howns =>
        exact (ih (i := i + 1) (by omega) (h.next hu (fun _ hl => hl) howns) hok).trans hdevices
      | noSpace hdevices =>
        cases hok
        exact hdevices
    · rw [if_neg haccept] at hok
      exact ih (i := i + 1) (by omega) h hok

/-- What the scan registers comes from accepted entries, whatever the name. -/
theorem mbrScanAndRegister_accepted (D : Drivers) (hdisk : disk < 2 ^ 32)
    (ho : Owns bs₀ s.heap live) (hcov : Covers live bs₀) (hplaced : Placed live disk)
    (hname : DiskNamed s.mem disk diskName name) :
    ∃ rc s' es ps, mbrScanAndRegister D s disk diskName = .ok (rc, s')
      ∧ Scanned D bs₀ live disk name (mbrSector D s disk) s s' es ps
      ∧ (∀ i ∈ es, Accepted (mbrSector D s disk) i)
      ∧ (ps ≠ [] → disk ≠ 0 ∧ devRead s.mem disk ≠ 0) := by
  obtain ⟨rc, s', es, ps, hok, hscanned, hexact⟩ :=
    mbrScanAndRegister_spec D hdisk ho hcov hplaced hname
  have hnothing : s'.devices = s.devices → ps = [] := fun hsame =>
    List.append_right_eq_self.mp (hscanned.devices.symm.trans hsame)
  refine ⟨rc, s', es, ps, hok, hscanned, ?_, ?_⟩
  · by_cases hfits : name.length ≤ 29
    · intro i hi
      have haccepted := (hexact hfits).1.subset hi
      exact of_decide_eq_true (List.mem_filter.mp haccepted).2
    · -- no name could be built
      have hsame : s'.devices = s.devices := by
        rcases mbrScanAndRegister_cases D s disk diskName with
          ⟨rc', reads, -, hcall⟩ | ⟨-, -, hsize, hcall⟩
        · rw [hcall] at hok
          cases hok
          rfl
        · have hready : Ready bs₀ live { s with reads := s.reads + 1 } disk diskName name :=
            ⟨ho, hcov, hplaced, hsize, hname⟩
          rw [hcall] at hok
          have hsame := mbrScanLoop_long hdisk (Nat.not_le.mp hfits) (by decide) hready hok
          exact hsame
      have hpartitions := hscanned.partitions
      rw [hnothing hsame] at hpartitions
      rw [List.forall₂_nil_right_iff.mp hpartitions]
      nofun
  · intro hps
    rcases mbrScanAndRegister_cases D s disk diskName with
      ⟨rc', reads, -, hcall⟩ | ⟨hnonNull, hread, -, -⟩
    · rw [hcall] at hok
      cases hok
      exact absurd (hnothing rfl) hps
    · exact ⟨hnonNull, hread⟩

/-! ## Reading a partition -/

/-- What a read of a partition returned, the bytes it stored from the start of the
    buffer on, and the reads it made of other devices: which, and of what sector. -/
structure PartitionRead where
  rc : Nat
  bytes : List Byte
  calls : List (Nat × Nat)

/-- `return BLOCK_ERROR;`. -/
def PartitionRead.refused : PartitionRead := ⟨blockError, [], []⟩

/-- `mbr_partition_read`. -/
def mbrPartitionRead (D : Drivers) (m : Mem) (reads dev lba buffer : Nat) : PartitionRead :=
  if dev = 0 ∨ buffer = 0 then .refused
  else
    let ctx := devCtx m dev
    if ctx = 0 ∨ ctxParent m ctx = 0 ∨ devRead m (ctxParent m ctx) = 0 then .refused
    else if ctxSectorCount m ctx ≠ 0 ∧ lba ≥ ctxSectorCount m ctx then .refused
    else if ctxBaseLba m ctx > 0xFFFFFFFF - lba then .refused
    else
      let parent := ctxParent m ctx
      let parentLba := u32 (ctxBaseLba m ctx + lba)
      let reply := D.reply (devRead m parent) parent reads parentLba
      ⟨if reply.ok then blockSuccess else blockError, reply.bytes, [(parent, parentLba)]⟩

/-- The device at `p` reads sectors `b` to `b + c` of a disk that can be read. -/
structure Readable (m : Mem) (disk b c p : Nat) : Prop where
  nonNull : p ≠ 0
  hasCtx : devCtx m p ≠ 0
  hasDisk : disk ≠ 0
  hasRead : devRead m disk ≠ 0
  parent : ctxParent m (devCtx m p) = disk
  base : ctxBaseLba m (devCtx m p) = b
  count : ctxSectorCount m (devCtx m p) = c
  nonempty : c ≠ 0

/-- **`mbr_partition_read`** on a partition is one test and one read. -/
theorem mbrPartitionRead_eq (D : Drivers) (h : Readable m disk b c p) (reads : Nat)
    (lba : UInt32) {buffer : Nat} (hbuffer : buffer ≠ 0) :
    mbrPartitionRead D m reads p lba.toNat buffer
      = if lba.toNat < c ∧ b + lba.toNat < 2 ^ 32 then
          let reply := D.reply (devRead m disk) disk reads (b + lba.toNat)
          ⟨if reply.ok then blockSuccess else blockError, reply.bytes, [(disk, b + lba.toNat)]⟩
        else .refused := by
  have hlba := lba.toNat_lt
  have hchain : ¬ (devCtx m p = 0 ∨ disk = 0 ∨ devRead m disk = 0) := by
    rintro (hc | hc | hc)
    · exact h.hasCtx hc
    · exact h.hasDisk hc
    · exact h.hasRead hc
  rw [mbrPartitionRead, if_neg (not_or.mpr ⟨h.nonNull, hbuffer⟩)]
  simp only [h.parent, h.base, h.count, if_neg hchain]
  by_cases hin : lba.toNat < c
  · rw [if_neg fun hout => absurd hout.2 (Nat.not_le.mpr hin)]
    by_cases hsum : b + lba.toNat < 2 ^ 32
    · rw [if_neg (by omega), u32, Nat.mod_eq_of_lt hsum]
      exact (if_pos ⟨hin, hsum⟩).symm
    · rw [if_pos (by omega), if_neg fun hboth => hsum hboth.2]
  · rw [if_pos ⟨h.nonempty, Nat.not_lt.mp hin⟩, if_neg fun hboth => hin hboth.1]

/-- **CONFINED**: a read is refused, or it is one read of a sector of the disk that
    belongs to the partition; and none of these is refused. -/
structure Confined (D : Drivers) (m : Mem) (disk b c p : Nat) : Prop where
  outcome : ∀ (reads : Nat) (lba : UInt32) (buffer : Nat), buffer ≠ 0 →
    ((mbrPartitionRead D m reads p lba.toNat buffer).rc = blockError
      ∧ (mbrPartitionRead D m reads p lba.toNat buffer).calls = [])
    ∨ (lba.toNat < c ∧ b + lba.toNat < 2 ^ 32
      ∧ (mbrPartitionRead D m reads p lba.toNat buffer).calls = [(disk, b + lba.toNat)])
  admits : ∀ (reads : Nat) (lba : UInt32) (buffer : Nat), buffer ≠ 0 → lba.toNat < c →
    b + lba.toNat < 2 ^ 32 → (mbrPartitionRead D m reads p lba.toNat buffer).calls ≠ []

theorem Readable.confined (D : Drivers) (h : Readable m disk b c p) : Confined D m disk b c p := by
  constructor
  · intro reads lba buffer hbuffer
    rw [mbrPartitionRead_eq D h reads lba hbuffer]
    by_cases hin : lba.toNat < c ∧ b + lba.toNat < 2 ^ 32
    · rw [if_pos hin]
      exact Or.inr ⟨hin.1, hin.2, rfl⟩
    · rw [if_neg hin]
      exact Or.inl ⟨rfl, rfl⟩
  · intro reads lba buffer hbuffer hlba hsum
    rw [mbrPartitionRead_eq D h reads lba hbuffer, if_pos ⟨hlba, hsum⟩]
    exact List.cons_ne_nil _ _

/-- The sectors a read of a confined partition reaches. -/
theorem Confined.sector_mem (h : Confined D m disk b c p) {reads buffer : Nat} {lba : UInt32}
    (hbuffer : buffer ≠ 0) {call : Nat × Nat}
    (hcall : call ∈ (mbrPartitionRead D m reads p lba.toNat buffer).calls) :
    call.1 = disk ∧ call.2 ∈ Set.Ico b (b + c) := by
  rcases h.outcome reads lba buffer hbuffer with ⟨-, hnone⟩ | ⟨hlba, -, hone⟩
  · rw [hnone] at hcall
    exact absurd hcall (List.not_mem_nil)
  · rw [hone] at hcall
    rw [List.mem_singleton.mp hcall]
    exact ⟨rfl, Nat.le_add_right _ _, Nat.add_lt_add_left hlba _⟩

/-- While their contexts are kept and the disk keeps its driver, what the scan made
    can be read. -/
theorem Scanned.readable (h : Scanned D bs₀ live disk name mbr s s' es ps)
    (haccepted : ∀ i ∈ es, Accepted mbr i) (hdisk : disk ≠ 0) (hread : devRead m disk ≠ 0)
    (hkeeps : Keeps (partitionBlocks s'.mem ps) s'.mem m) (hp : p ∈ ps) :
    ∃ i, Accepted mbr i ∧ PartitionOf D s'.mem disk name mbr i p
      ∧ Readable m disk (le32 mbr (446 + 16 * i + 8)) (le32 mbr (446 + 16 * i + 12)) p := by
  obtain ⟨i, hi, hpart⟩ : ∃ i ∈ es, PartitionOf D s'.mem disk name mbr i p := by
    obtain ⟨k, hk, rfl⟩ := List.mem_iff_getElem.mp hp
    have hlen := h.partitions.length_eq
    exact ⟨es[k], List.getElem_mem _, (List.forall₂_iff_get.mp h.partitions).2 k (by omega) hk⟩
  have hdev : (p, sizeofBlockDevice) ∈ partitionBlocks s'.mem ps :=
    List.mem_flatMap.mpr ⟨p, hp, List.mem_cons_self ..⟩
  have hctx : (devCtx s'.mem p, sizeofMbrPartitionCtx) ∈ partitionBlocks s'.mem ps :=
    List.mem_flatMap.mpr ⟨p, hp, List.mem_cons_of_mem _ (List.mem_cons_self ..)⟩
  have hdevBound := h.owns.bounds (List.mem_append_left _ hdev)
  have hctxBound := h.owns.bounds (List.mem_append_left _ hctx)
  have hsame : devCtx m p = devCtx s'.mem p := hkeeps.load32 hdev 36 (by decide)
  obtain ⟨hparent, hbase, hcount⟩ := ctx_keeps hkeeps hctx
  refine ⟨i, haccepted i hi, hpart, ?_⟩
  constructor
  · omega
  · omega
  · exact hdisk
  · exact hread
  · rw [hsame]
    exact hparent.trans hpart.parent
  · rw [hsame]
    exact hbase.trans hpart.base
  · rw [hsame]
    exact hcount.trans hpart.count
  · exact (haccepted i hi).2

/-- The sectors of the disk that the partition at `p` is made of. -/
def partitionSectors (m : Mem) (p : Nat) : Set Nat :=
  Set.Ico (ctxBaseLba m (devCtx m p)) (ctxBaseLba m (devCtx m p) + ctxSectorCount m (devCtx m p))

/-- **PARTITIONS ARE CONFINED**: in every state that can be reached, for every disk
    that is somewhere and whatever its sector 0 holds, each device the scan registers
    is a partition with the base and the count of an entry of the table.  As long as
    the devices and contexts are kept and the disk keeps its driver, its reads are
    confined to that range, and partitions with disjoint ranges read no sector in
    common. -/
theorem mbr_partition_confined (D : Drivers) (mem : Mem) (reads : Nat)
    (events : List StorageEvent) (t : StorageClient)
    (hrun : Run (StorageStep D) (storageStart mem reads) events t) (disk : UInt32)
    (hdisk : Placed t.live disk.toNat) (diskName : Option (List UInt8)) (name : List UInt8)
    (hname : DiskNamed t.storage.mem disk.toNat diskName name) :
    ∃ rc s' ps, mbrScanAndRegister D t.storage disk.toNat diskName = .ok (rc, s')
      ∧ s'.devices = t.storage.devices ++ ps
      ∧ ∀ m, Keeps (partitionBlocks s'.mem ps) s'.mem m →
          devRead m disk.toNat = devRead s'.mem disk.toNat →
          (∀ p ∈ ps, ∃ i, Accepted (mbrSector D t.storage disk.toNat) i
            ∧ PartitionOf D s'.mem disk.toNat name (mbrSector D t.storage disk.toNat) i p
            ∧ Confined D m disk.toNat (le32 (mbrSector D t.storage disk.toNat) (446 + 16 * i + 8))
                (le32 (mbrSector D t.storage disk.toNat) (446 + 16 * i + 12)) p)
          ∧ ∀ p ∈ ps, ∀ q ∈ ps,
              (∀ sector ∈ partitionSectors s'.mem p, sector ∉ partitionSectors s'.mem q) →
              ∀ (n n' : Nat) (lba lba' : UInt32) (buffer buffer' : Nat), buffer ≠ 0 →
                buffer' ≠ 0 →
                List.Disjoint (mbrPartitionRead D m n p lba.toNat buffer).calls
                  (mbrPartitionRead D m n' q lba'.toNat buffer').calls := by
  obtain ⟨bs, hheap⟩ := (storageInv_run hrun).heap
  obtain ⟨rc, s', es, ps, hok, hscanned, haccepted, hnonNull⟩ := mbrScanAndRegister_accepted D
    disk.toNat_lt ⟨bs, hheap, fun b hb => hb⟩ hheap.owned hdisk hname
  refine ⟨rc, s', ps, hok, hscanned.devices, fun m hkeeps hdriver => ?_⟩
  have hreadable : ∀ p ∈ ps, ∃ i, Accepted (mbrSector D t.storage disk.toNat) i
      ∧ PartitionOf D s'.mem disk.toNat name (mbrSector D t.storage disk.toNat) i p
      ∧ Readable m disk.toNat (le32 (mbrSector D t.storage disk.toNat) (446 + 16 * i + 8))
          (le32 (mbrSector D t.storage disk.toNat) (446 + 16 * i + 12)) p := by
    intro p hp
    obtain ⟨hne, hread⟩ := hnonNull (List.ne_nil_of_mem hp)
    have hkept : devRead s'.mem disk.toNat = devRead t.storage.mem disk.toNat :=
      hscanned.untouched.load32 hdisk 40 (by decide)
    refine hscanned.readable haccepted hne ?_ hkeeps hp
    rw [hdriver, hkept]
    exact hread
  constructor
  · intro p hp
    obtain ⟨i, haccept, hpart, hr⟩ := hreadable p hp
    exact ⟨i, haccept, hpart, hr.confined D⟩
  · intro p hp q hq hapart n n' lba lba' buffer buffer' hbuffer hbuffer' call hcall hcall'
    obtain ⟨i, -, hpart, hr⟩ := hreadable p hp
    obtain ⟨k, -, hpart', hr'⟩ := hreadable q hq
    obtain ⟨-, hmem⟩ := (hr.confined D).sector_mem hbuffer hcall
    obtain ⟨-, hmem'⟩ := (hr'.confined D).sector_mem hbuffer' hcall'
    rw [← hpart.base, ← hpart.count] at hmem
    rw [← hpart'.base, ← hpart'.count] at hmem'
    exact hapart _ hmem hmem'

/-- Both partitions of the small disk. -/
theorem mbr_partition_confined_small :
    ∃ (s' : Storage) (ps : List Nat), mbrScanAndRegister smallDrivers
        (storageStart smallDisk 0).storage (0x1000 : UInt32).toNat none = .ok (mbrOk, s')
      ∧ ps.length = 2
      ∧ ∀ p ∈ ps, ∃ i, Confined smallDrivers s'.mem 0x1000 (le32 smallTable (446 + 16 * i + 8))
          (le32 smallTable (446 + 16 * i + 12)) p := by
  obtain ⟨rc, s', ps, hok, hdevices, hconfined⟩ :=
    mbr_partition_confined smallDrivers smallDisk 0 [] _ Run.nil 0x1000 (Or.inl (by decide)) none
      _ ⟨rfl, by decide +kernel⟩
  have hcode : (mbrScanAndRegister smallDrivers (storageStart smallDisk 0).storage
      (0x1000 : UInt32).toNat none).map (fun r => (r.1, r.2.devices.length)) = .ok (mbrOk, 2) := by
    decide +kernel
  rw [hok] at hcode
  obtain ⟨hrc, hlen⟩ := Prod.mk.inj (Except.ok.inj hcode)
  rw [show s'.devices = ps from hdevices] at hlen
  rw [show rc = mbrOk from hrc] at hok
  refine ⟨s', ps, hok, hlen, fun p hp => ?_⟩
  obtain ⟨i, -, -, hpart⟩ := (hconfined s'.mem (.refl _ _) rfl).1 p hp
  exact ⟨i, hpart⟩

end PyramidMbr
