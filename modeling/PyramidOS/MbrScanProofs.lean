import PyramidOS.MbrProofs

/-! # Partition discovery is exact

    `mbr_scan_and_register` makes a device of every entry of the partition table
    that names a partition, in table order, and of no other; when it fails on the
    way, of the first few.

    * `mbrAddPartition_spec` — one entry: a device is added, or nothing changes;
    * `mbrScanLoop_spec` — the loop, by induction on the entries left;
    * `mbr_scan_exact` — the scan, from every state that can be reached. -/

namespace PyramidMbr

open ByteMem PyramidString PyramidKernel PyramidHeap PyramidBlock BlockTiling LabelledRun

variable {D : Drivers} {s s' s'' : Storage} {m m' : Mem} {h : Heap} {bs₀ : List Block}
  {live live' : List (Nat × Nat)} {mbr : List Byte} {diskName : Option (List UInt8)}
  {name : List UInt8} {es ps : List Nat}
  {disk ctx pdev start count i n p c : Nat}

/-! ## Partitions -/

/-- Entry `i` of the table names a partition: neither empty nor extended. -/
def Accepted (mbr : List Byte) (i : Nat) : Prop :=
  (mbr.getD (446 + 16 * i + 4) 0).toNat ∉ [0x00, 0x05, 0x0F]
    ∧ le32 mbr (446 + 16 * i + 12) ≠ 0

instance : DecidablePred (Accepted mbr) := fun i =>
  inferInstanceAs (Decidable ((mbr.getD (446 + 16 * i + 4) 0).toNat ∉ [0x00, 0x05, 0x0F]
    ∧ le32 mbr (446 + 16 * i + 12) ≠ 0))

/-- The accepted ones of `n` entries from `i` on, in table order. -/
def acceptedFrom (mbr : List Byte) (i n : Nat) : List Nat :=
  (List.range' i n).filter fun k => decide (Accepted mbr k)

/-- The accepted entries of the table. -/
def acceptedEntries (mbr : List Byte) : List Nat := acceptedFrom mbr 0 4

/-- The device at `p` is partition `i` of the disk: sectors `start` to
    `start + count`. -/
structure Partition (D : Drivers) (m : Mem) (disk : Nat) (name : List UInt8)
    (start count i p : Nat) : Prop where
  name : text (devName m p) = partitionName name i
  sectorSize : devSectorSize m p = mbrSectorSize
  read : devRead m p = D.mbrPartitionRead.toNat
  parent : ctxParent m (devCtx m p) = disk
  base : ctxBaseLba m (devCtx m p) = start
  count : ctxSectorCount m (devCtx m p) = count

/-- The device at `p` is what entry `i` of the table says. -/
def PartitionOf (D : Drivers) (m : Mem) (disk : Nat) (name : List UInt8) (mbr : List Byte)
    (i p : Nat) : Prop :=
  Partition D m disk name (le32 mbr (446 + 16 * i + 8)) (le32 mbr (446 + 16 * i + 12)) i p

/-- The heap blocks of some partitions: each device and its context. -/
def partitionBlocks (m : Mem) (ps : List Nat) : List (Nat × Nat) :=
  ps.flatMap fun p => [(p, sizeofBlockDevice), (devCtx m p, sizeofMbrPartitionCtx)]

theorem partitionBlocks_cons (m : Mem) (p : Nat) (ps : List Nat) :
    partitionBlocks m (p :: ps)
      = [(p, sizeofBlockDevice), (devCtx m p, sizeofMbrPartitionCtx)] ++ partitionBlocks m ps :=
  rfl

/-- A device that fills a heap block. -/
theorem placed_block (hp : (p, sizeofBlockDevice) ∈ live) : Placed live p :=
  Or.inr (Or.inr ⟨_, hp, Nat.le_refl _, Nat.le_refl _⟩)

/-- While a context is kept, so are its fields. -/
theorem ctx_keeps (hk : Keeps live m m') (hc : (c, sizeofMbrPartitionCtx) ∈ live) :
    ctxParent m' c = ctxParent m c ∧ ctxBaseLba m' c = ctxBaseLba m c
      ∧ ctxSectorCount m' c = ctxSectorCount m c :=
  ⟨hk.load32 hc 0 (by decide), hk.load32 hc 4 (by decide), hk.load32 hc 8 (by decide)⟩

/-- While its two blocks are left alone a partition stays what it is. -/
theorem Partition.untouched (h : Partition D m disk name start count i p)
    (hlen : (text name).length ≤ 29) (hu : Untouched live m m')
    (hp : (p, sizeofBlockDevice) ∈ live) (hc : (devCtx m p, sizeofMbrPartitionCtx) ∈ live) :
    Partition D m' disk name start count i p ∧ devCtx m' p = devCtx m p := by
  have hplaced := placed_block hp
  have hctx : devCtx m' p = devCtx m p := hu.load32 hplaced 36 (by decide)
  obtain ⟨hparent, hbase, hcount⟩ := ctx_keeps hu.keeps hc
  have hfits : (text (devName m p)).length < blockNameMax := by
    rw [h.name, partitionName_length]
    exact Nat.lt_of_le_of_lt (Nat.add_le_add_right hlen 2) (by decide)
  refine ⟨⟨(hu.devName hplaced hfits).trans h.name, ?_, ?_, ?_, ?_, ?_⟩, hctx⟩
  · exact (hu.load32 hplaced 32 (by decide)).trans h.sectorSize
  · exact (hu.load32 hplaced 40 (by decide)).trans h.read
  · rw [hctx]
    exact hparent.trans h.parent
  · rw [hctx]
    exact hbase.trans h.base
  · rw [hctx]
    exact hcount.trans h.count

/-- The disk's name is a string, one in its array when it is `disk->name`. -/
def DiskNamed (m : Mem) (disk : Nat) (diskName : Option (List UInt8)) (name : List UInt8) :
    Prop :=
  text (mbrDiskName m disk diskName) = name
    ∧ name.length < if diskName.isNone then blockNameMax else 2 ^ 32 - 3

theorem DiskNamed.untouched (hname : DiskNamed m disk diskName name) (hu : Untouched live m m')
    (hdisk : Placed live disk) : DiskNamed m' disk diskName name := by
  cases diskName with
  | some s => exact hname
  | none =>
    obtain ⟨heq, hlen⟩ := hname
    refine ⟨(hu.devName hdisk ?_).trans heq, hlen⟩
    rw [show text (devName m disk) = name from heq]
    exact hlen

theorem DiskNamed.length_lt (hname : DiskNamed m disk diskName name) :
    name.length < 2 ^ 32 - 3 := by
  obtain ⟨-, hlen⟩ := hname
  by_cases hnone : diskName.isNone = true
  · rw [if_pos hnone] at hlen
    exact Nat.lt_trans hlen (by decide)
  · rw [if_neg hnone] at hlen
    exact hlen

/-! ## Filling a device -/

theorem mbrSetCtx_spec (m : Mem) (ctx : Nat) (hdisk : disk < 2 ^ 32) (hstart : start < 2 ^ 32)
    (hcount : count < 2 ^ 32) :
    WritesIn (InRange (ctx, sizeofMbrPartitionCtx)) m (mbrSetCtx m ctx disk start count)
      ∧ ctxParent (mbrSetCtx m ctx disk start count) ctx = disk
      ∧ ctxBaseLba (mbrSetCtx m ctx disk start count) ctx = start
      ∧ ctxSectorCount (mbrSetCtx m ctx disk start count) ctx = count := by
  refine ⟨?_, ?_, ?_, ?_⟩
  · exact (((WritesIn.refl _ _).store32 _ (inRange_word 0 (by decide))).store32 _
      (inRange_word 4 (by decide))).store32 _ (inRange_word 8 (by decide))
  · rw [ctxParent, mbrSetCtx, load32_store32_ne (by omega), load32_store32_ne (by omega),
      load32_store32_self, Nat.mod_eq_of_lt hdisk]
  · rw [ctxBaseLba, mbrSetCtx, load32_store32_ne (by omega), load32_store32_self,
      Nat.mod_eq_of_lt hstart]
  · rw [ctxSectorCount, mbrSetCtx, load32_store32_self, Nat.mod_eq_of_lt hcount]

theorem mbrSetDevice_spec (D : Drivers) (m : Mem) (pdev disk : Nat) (hctx : ctx < 2 ^ 32) :
    WritesIn (InRange (pdev, sizeofBlockDevice)) m (mbrSetDevice D m pdev disk ctx)
      ∧ (∀ k, k < 32 → (mbrSetDevice D m pdev disk ctx).byte (pdev + k) = m.byte (pdev + k))
      ∧ devSectorSize (mbrSetDevice D m pdev disk ctx) pdev = devSectorSize m disk
      ∧ devCtx (mbrSetDevice D m pdev disk ctx) pdev = ctx
      ∧ devRead (mbrSetDevice D m pdev disk ctx) pdev = D.mbrPartitionRead.toNat := by
  refine ⟨?_, fun k hk => ?_, ?_, ?_, ?_⟩
  · exact ((((WritesIn.refl _ _).store32 _ (inRange_word 32 (by decide))).store32 _
      (inRange_word 36 (by decide))).store32 _ (inRange_word 40 (by decide))).store32 _
      (inRange_word 44 (by decide))
  · rw [mbrSetDevice, byte_store32_outside (by omega), byte_store32_outside (by omega),
      byte_store32_outside (by omega), byte_store32_outside (by omega)]
  · rw [devSectorSize, mbrSetDevice, load32_store32_ne (by omega), load32_store32_ne (by omega),
      load32_store32_ne (by omega), load32_store32_self]
    exact Nat.mod_eq_of_lt (load32_lt m _)
  · rw [devCtx, mbrSetDevice, load32_store32_ne (by omega), load32_store32_ne (by omega),
      load32_store32_self, Nat.mod_eq_of_lt hctx]
  · rw [devRead, mbrSetDevice, load32_store32_ne (by omega), load32_store32_self,
      Nat.mod_eq_of_lt D.mbrPartitionRead.toNat_lt]

/-- **BOTH BLOCKS ARE HELD**, on top of `live`, and the context is filled. -/
structure CtxFilled (bs₀ : List Block) (live : List (Nat × Nat)) (m₀ : Mem)
    (disk start count p c : Nat) (h : Heap) : Prop where
  owns : Owns bs₀ h ((p, sizeofBlockDevice) :: (c, sizeofMbrPartitionCtx) :: live)
  untouched : Untouched live m₀ h.mem
  parent : ctxParent h.mem c = disk
  base : ctxBaseLba h.mem c = start
  count : ctxSectorCount h.mem c = count

theorem ctxFilled_mbrSetCtx {m₀ : Mem}
    (ho : Owns bs₀ h ((c, sizeofMbrPartitionCtx) :: (p, sizeofBlockDevice) :: live))
    (hu : Untouched live m₀ h.mem) (hdisk : disk < 2 ^ 32) (hstart : start < 2 ^ 32)
    (hcount : count < 2 ^ 32) :
    CtxFilled bs₀ live m₀ disk start count p c
      { h with mem := mbrSetCtx h.mem c disk start count } := by
  obtain ⟨hw, hparent, hbase, hsectors⟩ := mbrSetCtx_spec h.mem c hdisk hstart hcount
  obtain ⟨hu', ho'⟩ := write_untouched ho hw
  refine ⟨ho'.perm (List.Perm.swap _ _ _), ?_, hparent, hbase, hsectors⟩
  exact hu.trans (hu'.mono fun l hl => List.mem_cons_of_mem _ hl)

/-- Stores into the device leave the context filled. -/
theorem CtxFilled.write {m₀ : Mem} (hf : CtxFilled bs₀ live m₀ disk start count p c h)
    (hw : WritesIn (InRange (p, sizeofBlockDevice)) h.mem m) :
    CtxFilled bs₀ live m₀ disk start count p c { h with mem := m } := by
  obtain ⟨hu, ho⟩ := write_untouched hf.owns hw
  obtain ⟨hparent, hbase, hcount⟩ := ctx_keeps hu.keeps (List.mem_cons_self ..)
  refine ⟨ho, ?_, hparent.trans hf.parent, hbase.trans hf.base, hcount.trans hf.count⟩
  exact hf.untouched.trans (hu.mono fun l hl => List.mem_cons_of_mem _ hl)

/-- Both blocks of an entry that failed are freed. -/
theorem CtxFilled.free {m₀ : Mem} (hf : CtxFilled bs₀ live m₀ disk start count p c h)
    (hcov : Covers live bs₀) :
    ∃ h', mbrFree h c p = .ok h' ∧ Untouched live m₀ h'.mem ∧ Owns bs₀ h' live := by
  have hcov' : Covers ((p, sizeofBlockDevice) :: live) bs₀ := by
    intro b hb
    obtain ⟨n, hn⟩ := hcov b hb
    exact ⟨n, List.mem_cons_of_mem _ hn⟩
  obtain ⟨h1, hok1, hu1, ho1⟩ := free_untouched (hf.owns.perm (List.Perm.swap _ _ _)) hcov'
  obtain ⟨h2, hok2, hu2, ho2⟩ := free_untouched ho1 hcov
  have hu := (hu1.mono fun l hl => List.mem_cons_of_mem _ hl).trans hu2
  refine ⟨h2, ?_, hf.untouched.trans hu, ho2⟩
  rw [mbrFree, hok1]
  exact hok2

theorem CtxFilled.bounds {m₀ : Mem} (hf : CtxFilled bs₀ live m₀ disk start count p c h) :
    p < 2 ^ 32 ∧ c < 2 ^ 32 := by
  have hp := hf.owns.bounds (List.mem_cons_self ..)
  have hc := hf.owns.bounds (List.mem_cons_of_mem _ (List.mem_cons_self ..))
  omega

/-- A device with its name, filled and beside its context, is a partition. -/
theorem CtxFilled.partition {m₀ : Mem} (hf : CtxFilled bs₀ live m₀ disk start count p c h)
    (hnamed : text (devName m p) = partitionName name i) (hlen : (text name).length ≤ 29)
    (hsize : devSectorSize m disk = mbrSectorSize) (hm : h.mem = mbrSetDevice D m p disk c) :
    Partition D h.mem disk name start count i p ∧ devCtx h.mem p = c := by
  obtain ⟨-, hkept, hsector, hctx, hread⟩ := mbrSetDevice_spec D m p disk hf.bounds.2
  rw [← hm] at hkept hsector hctx hread
  refine ⟨⟨?_, hsector.trans hsize, hread, ?_, ?_, ?_⟩, hctx⟩
  · rw [← hnamed]
    refine text_charsFrom_congr fun k hk => hkept k ?_
    rw [show text (charsFrom m (2 ^ 32) p) = _ from hnamed, partitionName_length] at hk
    omega
  · rw [hctx]
    exact hf.parent
  · rw [hctx]
    exact hf.base
  · rw [hctx]
    exact hf.count

/-- The name is the first part of a device. -/
theorem inRange_name {x : Nat} (hx : InRange (p, blockNameMax) x) :
    InRange (p, sizeofBlockDevice) x := by
  obtain ⟨hlo, hhi⟩ := hx
  exact ⟨hlo, Nat.lt_of_lt_of_le hhi (Nat.add_le_add_left (show 32 ≤ 48 by decide) p)⟩

theorem writesIn_clearName (m : Mem) (p : Nat) :
    WritesIn (InRange (p, sizeofBlockDevice)) m (memset m p 0 blockNameMax) :=
  (WritesIn.refl _ _).memset fun _ hk => inRange_name (inRange_add hk)

/-! ## One entry -/

section Entry

variable {h₁ h₂ : Heap} {m₁ m₂ m₃ : Mem} {rc : Nat} {r : Registry}

theorem mbrAddPartition_noDevice (hp : kmalloc s.heap sizeofBlockDevice = .ok (0, h₁)) :
    mbrAddPartition D s disk diskName i start count
      = .ok (some mbrErrNoSpace, { s with heap := h₁ }) := by
  rw [mbrAddPartition, hp]
  rfl

theorem mbrAddPartition_noCtx (hp : kmalloc s.heap sizeofBlockDevice = .ok (p, h₁)) (hp0 : p ≠ 0)
    (hc : kmalloc h₁ sizeofMbrPartitionCtx = .ok (0, h₂)) :
    mbrAddPartition D s disk diskName i start count
      = kfree h₂ p >>= fun heap => .ok (some mbrErrNoSpace, { s with heap := heap }) := by
  simp only [mbrAddPartition, hp, bind, Except.bind, if_neg hp0, hc, if_true]

/-- Both allocations succeeded, but the name is too long. -/
theorem mbrAddPartition_noName (hp : kmalloc s.heap sizeofBlockDevice = .ok (p, h₁)) (hp0 : p ≠ 0)
    (hc : kmalloc h₁ sizeofMbrPartitionCtx = .ok (c, h₂)) (hc0 : c ≠ 0)
    (hm : memset (mbrSetCtx h₂.mem c disk start count) p 0 blockNameMax = m₁)
    (hname : mbrBuildPartitionName m₁ p (mbrDiskName m₁ disk diskName) (i + 1) = (rc, m₂))
    (hrc : rc ≠ mbrOk) :
    mbrAddPartition D s disk diskName i start count
      = mbrFree { h₂ with mem := m₂ } c p >>= fun heap => .ok (none, { s with heap := heap }) := by
  subst hm
  simp only [mbrAddPartition, hp, bind, Except.bind, if_neg hp0, hc, if_neg hc0, hname, if_pos hrc]

/-- The device was filled and offered to the registry. -/
theorem mbrAddPartition_offered (hp : kmalloc s.heap sizeofBlockDevice = .ok (p, h₁)) (hp0 : p ≠ 0)
    (hc : kmalloc h₁ sizeofMbrPartitionCtx = .ok (c, h₂)) (hc0 : c ≠ 0)
    (hm : memset (mbrSetCtx h₂.mem c disk start count) p 0 blockNameMax = m₁)
    (hname : mbrBuildPartitionName m₁ p (mbrDiskName m₁ disk diskName) (i + 1) = (mbrOk, m₂))
    (hset : mbrSetDevice D m₂ p disk c = m₃)
    (hreg : blockRegister (registryAt D m₃ s.devices) (UInt32.ofNat p) = (rc, r)) :
    mbrAddPartition D s disk diskName i start count
      = if rc ≠ blockSuccess then
          mbrFree { h₂ with mem := m₃ } c p >>= fun heap =>
            .ok (some mbrErrNoSpace, { s with heap := heap })
        else .ok (none, { s with heap := { h₂ with mem := m₃ }, devices := r.devices }) := by
  subst hm hset
  simp only [mbrAddPartition, hp, bind, Except.bind, if_neg hp0, hc, if_neg hc0, hname, hreg]
  rfl

end Entry

/-- How one entry ends: its device is added, it is passed over for its name, or the
    scan ends there. -/
inductive Added (D : Drivers) (bs₀ : List Block) (live : List (Nat × Nat)) (s : Storage)
    (disk : Nat) (name : List UInt8) (start count i : Nat) : Option Nat → Storage → Prop where
  | added {s' : Storage} {p : Nat} (hlen : name.length ≤ 29)
      (hpart : Partition D s'.mem disk name start count i p)
      (hdevices : s'.devices = s.devices ++ [p])
      (howns : Owns bs₀ s'.heap (partitionBlocks s'.mem [p] ++ live)) :
      Added D bs₀ live s disk name start count i none s'
  | passed {s' : Storage} (hlen : 29 < name.length) (hdevices : s'.devices = s.devices)
      (howns : Owns bs₀ s'.heap live) :
      Added D bs₀ live s disk name start count i none s'
  | noSpace {s' : Storage} (hdevices : s'.devices = s.devices) (howns : Owns bs₀ s'.heap live) :
      Added D bs₀ live s disk name start count i (some mbrErrNoSpace) s'

/-- What the loop needs of the heap and the disk. -/
structure Ready (bs₀ : List Block) (live : List (Nat × Nat)) (s : Storage) (disk : Nat)
    (diskName : Option (List UInt8)) (name : List UInt8) : Prop where
  owns : Owns bs₀ s.heap live
  covers : Covers live bs₀
  placed : Placed live disk
  sectorSize : devSectorSize s.mem disk = mbrSectorSize
  named : DiskNamed s.mem disk diskName name

theorem Ready.next (h : Ready bs₀ live s disk diskName name) (hu : Untouched live s.mem s'.mem)
    (hsub : ∀ l ∈ live, l ∈ live') (ho : Owns bs₀ s'.heap live') :
    Ready bs₀ live' s' disk diskName name := by
  refine ⟨ho, fun b hb => ?_, h.placed.mono hsub, ?_, h.named.untouched hu h.placed⟩
  · obtain ⟨n, hn⟩ := h.covers b hb
    exact ⟨n, hsub _ hn⟩
  · exact (hu.load32 h.placed 32 (by decide)).trans h.sectorSize

/-- **ONE ENTRY** of the table: the call returns, and leaves alone what others hold. -/
theorem mbrAddPartition_spec (h : Ready bs₀ live s disk diskName name) (hdisk : disk < 2 ^ 32)
    (hi : i < 9) (hstart : start < 2 ^ 32) (hcount : count < 2 ^ 32) :
    ∃ rc s', mbrAddPartition D s disk diskName i start count = .ok (rc, s')
      ∧ Untouched live s.mem s'.mem ∧ Added D bs₀ live s disk name start count i rc s' := by
  obtain ⟨ho, hcov, hplaced, hsize, hname⟩ := h
  obtain ⟨p, h₁, hp, hu1, hcase⟩ := alloc_untouched ho sizeofBlockDevice (by decide)
  rcases hcase with ⟨rfl, ho1⟩ | ⟨hp0, ho1⟩
  · exact ⟨_, _, mbrAddPartition_noDevice hp, hu1, .noSpace rfl ho1⟩
  obtain ⟨c, h₂, hc, hu2, hcase⟩ := alloc_untouched ho1 sizeofMbrPartitionCtx (by decide)
  have hu2' := hu1.trans (hu2.mono fun l hl => List.mem_cons_of_mem _ hl)
  rcases hcase with ⟨rfl, ho2⟩ | ⟨hc0, ho2⟩
  · obtain ⟨h₃, hfree, hu3, ho3⟩ := free_untouched ho2 hcov
    refine ⟨some mbrErrNoSpace, { s with heap := h₃ }, ?_, hu2'.trans hu3, .noSpace rfl ho3⟩
    rw [mbrAddPartition_noCtx hp hp0 hc, hfree]
    rfl
  -- every store after those to the context goes to the device
  have hf := ctxFilled_mbrSetCtx ho2 hu2' hdisk hstart hcount
  have hf1 := hf.write (writesIn_clearName _ p)
  generalize hm1 : memset (mbrSetCtx h₂.mem c disk start count) p 0 blockNameMax = m₁ at hf1
  obtain ⟨hname1, -⟩ := hname.untouched hf1.untouched hplaced
  by_cases hlen : name.length ≤ 29
  · have hfits : (text (mbrDiskName m₁ disk diskName)).length ≤ 29 := by
      rw [hname1]
      exact hlen
    obtain ⟨m₂, hbuild, hw2, hnamed⟩ := mbrBuildPartitionName_fits m₁ hp0 hi hfits
    have hf2 := hf1.write (hw2.mono fun x hx => inRange_name hx)
    have hsize2 : devSectorSize m₂ disk = mbrSectorSize :=
      (hf2.untouched.load32 hplaced 32 (by decide)).trans hsize
    obtain ⟨hw3, -⟩ := mbrSetDevice_spec D m₂ p disk hf2.bounds.2
    have hf3 := hf2.write hw3
    have hnamed2 : text (devName m₂ p) = partitionName name i := by
      rw [← hname1, partitionName_text]
      exact hnamed
    have hshort : (text name).length ≤ 29 := by
      rw [← hname1, text_text]
      exact hfits
    obtain ⟨hpart, hctx⟩ := hf3.partition hnamed2 hshort hsize2 rfl
    generalize hm3 : mbrSetDevice D m₂ p disk c = m₃ at hf3 hpart hctx
    have hptr : (UInt32.ofNat p).toNat = p := UInt32.toNat_ofNat_of_lt' hf3.bounds.1
    rcases blockRegister_cases (registryAt D m₃ s.devices) (UInt32.ofNat p) with
      ⟨-, hreg⟩ | ⟨-, rc, hrc, hreg⟩
    · have hok := mbrAddPartition_offered hp hp0 hc hc0 hm1 hbuild hm3 hreg
      rw [if_neg (not_not.mpr rfl)] at hok
      refine ⟨_, _, hok, hf3.untouched, .added hlen hpart ?_ ?_⟩
      · show s.devices ++ [(UInt32.ofNat p).toNat] = _
        rw [hptr]
      · show Owns bs₀ _ ([(p, sizeofBlockDevice), (devCtx m₃ p, sizeofMbrPartitionCtx)] ++ live)
        rw [show devCtx m₃ p = c from hctx]
        exact hf3.owns
    · have hok := mbrAddPartition_offered hp hp0 hc hc0 hm1 hbuild hm3 hreg
      obtain ⟨h₃, hfree, hu, ho'⟩ := hf3.free hcov
      rw [if_pos hrc, hfree] at hok
      exact ⟨_, _, hok, hu, .noSpace rfl ho'⟩
  · have hlong : 29 < (text (mbrDiskName m₁ disk diskName)).length := by
      rw [hname1]
      exact Nat.not_le.mp hlen
    have hsmall : (text (mbrDiskName m₁ disk diskName)).length < 2 ^ 32 - 3 := by
      rw [hname1]
      exact hname.length_lt
    have hbuild := mbrBuildPartitionName_long m₁ hp0 hi hlong hsmall
    obtain ⟨h₃, hfree, hu, ho'⟩ := (hf1.write (writesIn_clearName _ p)).free hcov
    refine ⟨none, { s with heap := h₃ }, ?_, hu, .passed (Nat.not_le.mp hlen) rfl ho'⟩
    rw [mbrAddPartition_noName hp hp0 hc hc0 hm1 hbuild (by decide), hfree]
    rfl

/-! ## The loop -/

/-- From `s` to `s'` the entries `es` became the devices `ps`, and nothing else
    changed. -/
structure Scanned (D : Drivers) (bs₀ : List Block) (live : List (Nat × Nat)) (disk : Nat)
    (name : List UInt8) (mbr : List Byte) (s s' : Storage) (es ps : List Nat) : Prop where
  devices : s'.devices = s.devices ++ ps
  untouched : Untouched live s.mem s'.mem
  partitions : List.Forall₂ (PartitionOf D s'.mem disk name mbr) es ps
  owns : Owns bs₀ s'.heap (partitionBlocks s'.mem ps ++ live)

theorem Scanned.none (hu : Untouched live s.mem s'.mem) (hdevices : s'.devices = s.devices)
    (ho : Owns bs₀ s'.heap live) : Scanned D bs₀ live disk name mbr s s' [] [] :=
  ⟨hdevices.trans (List.append_nil _).symm, hu, .nil, ho⟩

/-- What the scan does, or the rest of it over the accepted `entries`: it returns;
    for a disk name that fits, what it added are the first of them, and all of them
    when it returns `MBR_OK`. -/
def Scans (D : Drivers) (bs₀ : List Block) (live : List (Nat × Nat)) (disk : Nat)
    (name : List UInt8) (mbr : List Byte) (entries : List Nat) (s : Storage)
    (call : Except Halt (Nat × Storage)) : Prop :=
  ∃ rc s' es ps, call = .ok (rc, s') ∧ Scanned D bs₀ live disk name mbr s s' es ps
    ∧ (name.length ≤ 29 → es <+: entries ∧ (rc = mbrOk → es = entries))

/-- A failure that adds nothing. -/
theorem Scans.fails {entries : List Nat} {rc : Nat} (hu : Untouched live s.mem s'.mem)
    (hdevices : s'.devices = s.devices) (ho : Owns bs₀ s'.heap live) (hrc : rc ≠ mbrOk) :
    Scans D bs₀ live disk name mbr entries s (.ok (rc, s')) :=
  ⟨rc, s', [], [], rfl, .none hu hdevices ho, fun _ =>
    ⟨List.nil_prefix, fun hc => absurd hc hrc⟩⟩

/-- An entry that was passed over, and the rest. -/
theorem Scanned.pass (hu : Untouched live s.mem s'.mem) (hdevices : s'.devices = s.devices)
    (h : Scanned D bs₀ live disk name mbr s' s'' es ps) :
    Scanned D bs₀ live disk name mbr s s'' es ps :=
  ⟨hdevices ▸ h.devices, hu.trans h.untouched, h.partitions, h.owns⟩

/-- An entry that was added, and the rest. -/
theorem Scanned.cons (hlen : name.length ≤ 29) (hu : Untouched live s.mem s'.mem)
    (hpart : PartitionOf D s'.mem disk name mbr i p) (hdevices : s'.devices = s.devices ++ [p])
    (h : Scanned D bs₀ (partitionBlocks s'.mem [p] ++ live) disk name mbr s' s'' es ps) :
    Scanned D bs₀ live disk name mbr s s'' (i :: es) (p :: ps) := by
  have hshort : (text name).length ≤ 29 :=
    Nat.le_trans (List.IsPrefix.length_le (List.takeWhile_prefix _)) hlen
  have hmem : ∀ l ∈ [(p, sizeofBlockDevice), (devCtx s'.mem p, sizeofMbrPartitionCtx)],
      l ∈ partitionBlocks s'.mem [p] ++ live := fun l hl => List.mem_append_left _ hl
  obtain ⟨hpart', hctx⟩ := hpart.untouched hshort h.untouched (hmem _ (by simp)) (hmem _ (by simp))
  refine ⟨?_, ?_, .cons hpart' h.partitions, ?_⟩
  · rw [h.devices, hdevices, List.append_assoc]
    rfl
  · exact hu.trans (h.untouched.mono fun l hl => List.mem_append_right _ hl)
  · -- the blocks of the first partition come last in what is owned
    have hperm : (partitionBlocks s''.mem ps ++ (partitionBlocks s'.mem [p] ++ live)).Perm
        (partitionBlocks s''.mem (p :: ps) ++ live) := by
      rw [← List.append_assoc, partitionBlocks_cons _ p ps, hctx]
      exact List.Perm.append_right live List.perm_append_comm
    exact h.owns.perm hperm

theorem acceptedFrom_pass (h : ¬ Accepted mbr i) :
    acceptedFrom mbr i (n + 1) = acceptedFrom mbr (i + 1) n := by
  rw [acceptedFrom, List.range'_succ, List.filter_cons_of_neg (by simpa using h)]
  rfl

theorem acceptedFrom_cons (h : Accepted mbr i) :
    acceptedFrom mbr i (n + 1) = i :: acceptedFrom mbr (i + 1) n := by
  rw [acceptedFrom, List.range'_succ, List.filter_cons_of_pos (by simpa using h)]
  rfl

/-- The loop takes the accepted entries. -/
theorem mbrScanLoop_succ (D : Drivers) (mbr : List Byte) (disk : Nat)
    (diskName : Option (List UInt8)) (n i : Nat) (s : Storage) :
    mbrScanLoop D mbr disk diskName (n + 1) i s
      = if Accepted mbr i then
          mbrAddPartition D s disk diskName i (le32 mbr (446 + 16 * i + 8))
              (le32 mbr (446 + 16 * i + 12)) >>= fun r =>
            match r.1 with
            | some rc => .ok (rc, r.2)
            | .none => mbrScanLoop D mbr disk diskName n (i + 1) r.2
        else mbrScanLoop D mbr disk diskName n (i + 1) s := by
  have hoff : mbrPartitionTableOffset + i * mbrPartitionEntrySize = 446 + 16 * i := by
    rw [mbrPartitionTableOffset, mbrPartitionEntrySize, Nat.mul_comm]
  rw [mbrScanLoop]
  simp only [hoff, mbrReadU32Le_eq, Accepted, mbrPartTypeEmpty, mbrPartTypeExtendedChs,
    mbrPartTypeExtendedLba, List.mem_cons, List.not_mem_nil, or_false]
  generalize (mbr.getD (446 + 16 * i + 4) 0).toNat = partType
  generalize le32 mbr (446 + 16 * i + 12) = lbaCount
  by_cases hempty : partType = 0 ∨ lbaCount = 0
  · rw [if_pos hempty, if_neg (by tauto)]
  rw [if_neg hempty]
  by_cases hext : partType = 5 ∨ partType = 15
  · rw [if_pos hext, if_neg (by tauto)]
  · rw [if_neg hext]
    refine Eq.trans ?_ (if_pos (by tauto)).symm
    rfl

/-- **THE LOOP** scans the entries it has left. -/
theorem mbrScanLoop_spec (D : Drivers) (mbr : List Byte) (hdisk : disk < 2 ^ 32)
    (hn : i + n ≤ 9) (h : Ready bs₀ live s disk diskName name) :
    Scans D bs₀ live disk name mbr (acceptedFrom mbr i n) s
      (mbrScanLoop D mbr disk diskName n i s) := by
  induction n generalizing i s live with
  | zero =>
    exact ⟨mbrOk, s, [], [], rfl, .none (.refl _ _) rfl h.owns,
      fun _ => ⟨List.nil_prefix, fun _ => rfl⟩⟩
  | succ n ih =>
    rw [mbrScanLoop_succ]
    by_cases haccept : Accepted mbr i
    · rw [if_pos haccept, acceptedFrom_cons haccept]
      obtain ⟨rc, s₁, hok, hu, hadded⟩ := mbrAddPartition_spec (D := D) (i := i) h hdisk
        (by omega) (le32_lt mbr (446 + 16 * i + 8)) (le32_lt mbr (446 + 16 * i + 12))
      rw [hok]
      cases hadded with
      | @added _ p hlen hpart hdevices howns =>
        obtain ⟨rc, s', es, ps, hloop, hscan, hexact⟩ := ih (i := i + 1) (by omega)
          (h.next hu (fun l hl => List.mem_append_right _ hl) howns)
        refine ⟨rc, s', i :: es, p :: ps, hloop, .cons hlen hu hpart hdevices hscan, ?_⟩
        intro hfits
        obtain ⟨hfirst, hall⟩ := hexact hfits
        exact ⟨List.cons_prefix_cons.mpr ⟨rfl, hfirst⟩, fun hrc => by rw [hall hrc]⟩
      | passed hlen hdevices howns =>
        obtain ⟨rc, s', es, ps, hloop, hscan, -⟩ := ih (i := i + 1) (by omega)
          (h.next hu (fun _ hl => hl) howns)
        refine ⟨rc, s', es, ps, hloop, .pass hu hdevices hscan, fun hfits => ?_⟩
        exact absurd hfits (Nat.not_le.mpr hlen)
      | noSpace hdevices howns => exact .fails hu hdevices howns (by decide)
    · rw [if_neg haccept, acceptedFrom_pass haccept]
      exact ih (i := i + 1) (by omega) h

/-! ## The scan -/

/-- What the disk answers to the read of sector 0. -/
def mbrSector (D : Drivers) (s : Storage) (disk : Nat) : List Byte :=
  (D.reply (devRead s.mem disk) disk s.reads 0).bytes

/-- The scan of a disk it can read is its loop over sector 0; else nothing but the
    number of reads changes. -/
theorem mbrScanAndRegister_cases (D : Drivers) (s : Storage) (disk : Nat)
    (diskName : Option (List UInt8)) :
    (∃ rc reads, rc ≠ mbrOk
      ∧ mbrScanAndRegister D s disk diskName = .ok (rc, { s with reads := reads }))
    ∨ (disk ≠ 0 ∧ devRead s.mem disk ≠ 0 ∧ devSectorSize s.mem disk = mbrSectorSize
      ∧ mbrScanAndRegister D s disk diskName
        = mbrScanLoop D (mbrSector D s disk) disk diskName mbrPartitionCount 0
            { s with reads := s.reads + 1 }) := by
  rw [mbrScanAndRegister]
  by_cases hnull : disk = 0 ∨ devRead s.mem disk = 0
  · rw [if_pos hnull]
    exact Or.inl ⟨_, s.reads, by decide, rfl⟩
  rw [if_neg hnull]
  by_cases hempty : charAt (mbrDiskName s.mem disk diskName) 0 = 0
  · rw [if_pos hempty]
    exact Or.inl ⟨_, s.reads, by decide, rfl⟩
  rw [if_neg hempty]
  by_cases hsize : devSectorSize s.mem disk ≠ mbrSectorSize
  · rw [if_pos hsize]
    exact Or.inl ⟨_, s.reads, by decide, rfl⟩
  rw [if_neg hsize]
  simp only [show (D.reply (devRead s.mem disk) disk s.reads 0).bytes = mbrSector D s disk from rfl]
  by_cases hio : ¬ (D.reply (devRead s.mem disk) disk s.reads 0).ok
  · rw [if_pos hio]
    exact Or.inl ⟨_, s.reads + 1, by decide, rfl⟩
  rw [if_neg hio]
  by_cases hsig : (mbrSector D s disk).getD mbrSignatureOffset 0 ≠ 0x55
      ∨ (mbrSector D s disk).getD (mbrSignatureOffset + 1) 0 ≠ 0xAA
  · rw [if_pos hsig]
    exact Or.inl ⟨_, s.reads + 1, by decide, rfl⟩
  · rw [if_neg hsig]
    obtain ⟨hdisk, hread⟩ := not_or.mp hnull
    exact Or.inr ⟨hdisk, hread, not_not.mp hsize, rfl⟩

/-- **`mbr_scan_and_register`** scans the accepted entries of sector 0, whatever the
    disk answers. -/
theorem mbrScanAndRegister_spec (D : Drivers) (hdisk : disk < 2 ^ 32) (ho : Owns bs₀ s.heap live)
    (hcov : Covers live bs₀) (hplaced : Placed live disk)
    (hname : DiskNamed s.mem disk diskName name) :
    Scans D bs₀ live disk name (mbrSector D s disk) (acceptedEntries (mbrSector D s disk)) s
      (mbrScanAndRegister D s disk diskName) := by
  rcases mbrScanAndRegister_cases D s disk diskName with
    ⟨rc, reads, hrc, hcall⟩ | ⟨-, -, hsize, hcall⟩
  · rw [hcall]
    exact .fails (.refl _ _) rfl ho hrc
  · rw [hcall]
    have hready : Ready bs₀ live { s with reads := s.reads + 1 } disk diskName name :=
      ⟨ho, hcov, hplaced, hsize, hname⟩
    obtain ⟨rc, s', es, ps, hok, hscanned, hexact⟩ :=
      mbrScanLoop_spec (n := 4) (i := 0) D (mbrSector D s disk) hdisk (by decide) hready
    exact ⟨rc, s', es, ps, hok,
      ⟨hscanned.devices, hscanned.untouched, hscanned.partitions, hscanned.owns⟩, hexact⟩

/-- **PARTITION DISCOVERY IS EXACT**: in every state that can be reached, for a disk
    that is somewhere and a name of at most 29 characters, the scan returns; the
    devices it appends are the partitions of the first few accepted entries of
    sector 0, of all of them when it returns `MBR_OK`; and what was there before is
    left alone, the registered devices included. -/
theorem mbr_scan_exact (D : Drivers) (mem : Mem) (reads : Nat) (events : List StorageEvent)
    (t : StorageClient) (hrun : Run (StorageStep D) (storageStart mem reads) events t)
    (disk : UInt32) (hdisk : Placed t.live disk.toNat) (diskName : Option (List UInt8))
    (hname : (text (mbrDiskName t.storage.mem disk.toNat diskName)).length ≤ 29) :
    ∃ rc s', mbrScanAndRegister D t.storage disk.toNat diskName = .ok (rc, s')
      ∧ (∃ es ps, s'.devices = t.storage.devices ++ ps
        ∧ List.Forall₂ (PartitionOf D s'.mem disk.toNat
            (text (mbrDiskName t.storage.mem disk.toNat diskName))
            (mbrSector D t.storage disk.toNat)) es ps
        ∧ es <+: acceptedEntries (mbrSector D t.storage disk.toNat)
        ∧ (rc = mbrOk → es = acceptedEntries (mbrSector D t.storage disk.toNat)))
      ∧ Untouched t.live t.storage.mem s'.mem
      ∧ ∀ dev ∈ t.storage.devices, ∀ k < sizeofBlockDevice,
          s'.mem.byte (dev + k) = t.storage.mem.byte (dev + k) := by
  have hinv := storageInv_run hrun
  obtain ⟨bs, hheap⟩ := hinv.heap
  have hnamed : DiskNamed t.storage.mem disk.toNat diskName
      (text (mbrDiskName t.storage.mem disk.toNat diskName)) := by
    refine ⟨rfl, Nat.lt_of_le_of_lt hname ?_⟩
    cases diskName with
    | none => exact show 29 < 32 by decide
    | some s => exact show 29 < 2 ^ 32 - 3 by decide
  obtain ⟨rc, s', es, ps, hok, hscanned, hexact⟩ := mbrScanAndRegister_spec D disk.toNat_lt
    ⟨bs, hheap, fun b hb => hb⟩ hheap.owned hdisk hnamed
  obtain ⟨hfirst, hall⟩ := hexact hname
  refine ⟨rc, s', hok, ⟨es, ps, hscanned.devices, hscanned.partitions, hfirst, hall⟩,
    hscanned.untouched, fun dev hdev k hk => ?_⟩
  exact hscanned.untouched.device (hinv.placed dev hdev) hk

/-! ## A small disk -/

/-- A table entry of type `partType`. -/
def smallEntry (partType : Byte) (start count : Nat) : List Byte :=
  [0, 0, 0, 0, partType, 0, 0, 0] ++ (List.range 4).map (byteOf start)
    ++ (List.range 4).map (byteOf count)

/-- Two partitions, around an extended one and before an empty one. -/
def smallTable : List Byte :=
  List.replicate 446 0 ++ smallEntry 0x83 2048 100 ++ smallEntry 0x05 3000 7
    ++ smallEntry 0x0B 5000 70000 ++ smallEntry 0x00 9000 9 ++ [0x55, 0xAA]

def smallDrivers : Drivers :=
  ⟨fun _ _ _ _ => ⟨true, smallTable, by decide +kernel, fun _ => by decide +kernel⟩,
    0x5000, 0x5100, by decide⟩

/-- `disk0`, as static data. -/
def smallDisk : Mem :=
  (((⟨fun _ => 0, []⟩ : Mem).storeBytes 0x1000 ((chars "disk0").map UInt8.toBitVec)).store32
    0x1020 512).store32 0x1028 0x4000

/-- Entries 0 and 2 become `disk0p1` and `disk0p3`. -/
theorem mbr_scan_exact_small :
    ∃ s', mbrScanAndRegister smallDrivers (storageStart smallDisk 0).storage
        (0x1000 : UInt32).toNat none = .ok (mbrOk, s')
      ∧ List.Forall₂ (PartitionOf smallDrivers s'.mem 0x1000 (chars "disk0") smallTable) [0, 2]
          s'.devices := by
  obtain ⟨rc, s', hok, ⟨es, ps, hdevices, hparts, -, hall⟩, -, -⟩ :=
    mbr_scan_exact smallDrivers smallDisk 0 [] _ Run.nil 0x1000 (Or.inl (by decide)) none
      (by decide +kernel)
  have hcode : (mbrScanAndRegister smallDrivers (storageStart smallDisk 0).storage
      (0x1000 : UInt32).toNat none).map Prod.fst = .ok mbrOk := by
    decide +kernel
  rw [hok] at hcode
  have hrc : rc = mbrOk := Except.ok.inj hcode
  have hentries : es = [0, 2] := (hall hrc).trans (by decide +kernel)
  have htext : text (mbrDiskName (storageStart smallDisk 0).storage.mem (0x1000 : UInt32).toNat
      none) = chars "disk0" := by
    decide +kernel
  rw [htext, hentries] at hparts
  rw [hrc] at hok
  refine ⟨s', hok, ?_⟩
  rw [hdevices]
  exact hparts

end PyramidMbr
