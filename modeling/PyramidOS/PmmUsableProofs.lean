import PyramidOS.PmmReachProofs

/-! # Which memory the allocator may give away

    Two promises about the frames `pmm_init` leaves free, each with the exact
    condition on the memory map under which the code keeps it:

    * `pmm_init_frees_usable_pages` — a free frame is usable memory throughout.
      `pmm_mark_region_free` rounds outwards, like its sibling for used ranges,
      and nothing locks the entries of other types;
    * `pmm_spares_bss` — the kernel's own `.bss`, its stack included, stays out
      of the allocator.  `kernel_size` counts the loaded file only. -/

namespace PyramidPmm

open ByteMem WordBitmap PyramidKernel LabelledRun

variable {x : Nat} {mem : Mem} {bi : BootInfo} {s : PmmClient}

/-! ## Bytes of the map -/

/-- Byte `x` lies in entry `e`. -/
def E820Entry.Holds (e : E820Entry) (x : Nat) : Prop :=
  e.base.toNat ≤ x ∧ x < e.base.toNat + e.length.toNat

/-- The page of frame `g` and entry `e` share a byte. -/
def E820Entry.Meets (e : E820Entry) (g : Nat) : Prop :=
  PageOverlaps (4096 * g) e.base.toNat e.length.toNat

instance (e : E820Entry) (g : Nat) : Decidable (e.Meets g) :=
  inferInstanceAs (Decidable (PageOverlaps ..))

/-- No entry of the map wraps around 2^64. -/
def BootInfo.NoWrap (bi : BootInfo) : Prop :=
  ∀ e ∈ bi.mmap, e.base.toNat + e.length.toNat < 2 ^ 64

instance (bi : BootInfo) : Decidable bi.NoWrap :=
  inferInstanceAs (Decidable (∀ e ∈ bi.mmap, e.base.toNat + e.length.toNat < 2 ^ 64))

/-- Every byte of the page of frame `f` is covered by a type-1 entry. -/
def BootInfo.Filled (bi : BootInfo) (f : Nat) : Prop :=
  ∀ x, 4096 * f ≤ x → x < 4096 * f + 4096 → ∃ e ∈ bi.mmap, e.type = 1 ∧ e.Holds x

/-- No byte of the page of frame `f` is covered by an entry of another type. -/
def BootInfo.Unshared (bi : BootInfo) (f : Nat) : Prop :=
  ∀ x, 4096 * f ≤ x → x < 4096 * f + 4096 → ∀ e ∈ bi.mmap, e.type ≠ 1 → ¬ e.Holds x

/-- `g` is the page in which entry `e` starts or ends. -/
def E820Entry.Borders (e : E820Entry) (g : Nat) : Prop :=
  e.length ≠ 0 ∧ (g = e.base.toNat / 4096
    ∨ g = (e.base.toNat + e.length.toNat - 1) / 4096)

/-- **CLEAN BORDERS**: a page in which a type-1 entry starts or ends is filled by
    type-1 entries, and a page that a type-1 entry meets is met by no entry of
    another type — unless `pmm_init` locks the page. -/
structure BootInfo.BordersClean (bi : BootInfo) : Prop where
  filled : ∀ e ∈ bi.mmap, e.type = 1 → ∀ g, e.Borders g → ¬ bi.Locked g → bi.Filled g
  apart : ∀ e ∈ bi.mmap, e.type = 1 → ∀ e' ∈ bi.mmap, e'.type ≠ 1 →
    ∀ g, e.Meets g → e'.Meets g → bi.Locked g

/-- Without wrap-around, the frames a type-1 entry touches in the eyes of
    `pmm_mark_region_free` are the pages it meets. -/
theorem touches_iff (hbi : bi.Below4GiB) (hno : bi.NoWrap) {e : E820Entry}
    (he : e ∈ bi.mmap) (htype : e.type = 1) {g : Nat} :
    e.Touches bi.total g ↔ e.Meets g := by
  have hend := hno e he
  have htop : e.base.toNat + e.length.toNat ≤ 2 ^ 32 := by
    rw [← u64_of_lt hend]
    exact hbi e he htype
  have hhigh := top_le_pmmHighestAddr he htype
  rw [E820Entry.top, u64_of_lt hend] at hhigh
  rw [E820Entry.Touches, inRegion_iff (by omega), E820Entry.Meets, total_eq hbi]
  refine and_iff_left_of_imp fun hmeet => ?_
  rw [pageOverlaps_iff] at hmeet
  omega

/-- A page that meets an entry without lying inside it is a border of it. -/
theorem E820Entry.Meets.borders {e : E820Entry} {g : Nat} (h : e.Meets g)
    (hx : 4096 * g ≤ x) (hx' : x < 4096 * g + 4096) (hout : ¬ e.Holds x) : e.Borders g := by
  obtain ⟨hlen, hlo, hhi⟩ := pageOverlaps_iff.mp h
  refine ⟨fun h0 => hlen (by rw [h0]; rfl), ?_⟩
  rw [E820Entry.Holds] at hout
  omega

/-- The border pages of a non-empty entry meet it. -/
theorem E820Entry.Borders.meets {e : E820Entry} {g : Nat} (h : e.Borders g) :
    e.Meets g := by
  obtain ⟨hlen, hwhich⟩ := h
  have hpos : e.length.toNat ≠ 0 := fun h0 => hlen (UInt64.toNat_inj.mp h0)
  refine pageOverlaps_iff.mpr ⟨hpos, ?_⟩
  rcases hwhich with hg | hg <;> omega

/-- On clean borders every free frame is usable throughout, and only there. -/
theorem free_usable_iff_clean (hbi : bi.Below4GiB) (hno : bi.NoWrap) :
    (∀ g, bi.InitFree g → bi.Filled g ∧ bi.Unshared g) ↔ bi.BordersClean := by
  constructor
  · intro hall
    constructor
    · intro e he htype g hborder hnl
      exact (hall g ⟨⟨e, he, htype, (touches_iff hbi hno he htype).mpr hborder.meets⟩,
        hnl⟩).1
    · intro e he htype e' he' htype' g hmeet hmeet'
      by_contra hnl
      obtain ⟨x, hx, hx', hlo, hhi⟩ := hmeet'
      have hfree : bi.InitFree g :=
        ⟨⟨e, he, htype, (touches_iff hbi hno he htype).mpr hmeet⟩, hnl⟩
      exact (hall g hfree).2 x hx hx' e' he' htype' ⟨hlo, hhi⟩
  · rintro hclean g ⟨⟨e, he, htype, htouch⟩, hnl⟩
    have hmeet := (touches_iff hbi hno he htype).mp htouch
    constructor
    · intro x hx hx'
      by_cases hin : e.Holds x
      · exact ⟨e, he, htype, hin⟩
      · exact hclean.filled e he htype g (hmeet.borders hx hx' hin) hnl x hx hx'
    · rintro x hx hx' e' he' htype' ⟨hlo, hhi⟩
      exact hnl (hclean.apart e he htype e' he' htype' g hmeet ⟨x, hx, hx', hlo, hhi⟩)

/-- **ONLY USABLE PAGES BECOME FREE**, exactly when the map has clean borders. -/
theorem pmm_init_frees_usable_pages (mem : Mem) (hbi : bi.Below4GiB) (hno : bi.NoWrap) :
    ∃ p₀, pmmInit mem bi = .ok p₀ ∧
      ((∀ g, g < p₀.totalBlocks → p₀.bit g = false → bi.Filled g ∧ bi.Unshared g)
        ↔ bi.BordersClean) := by
  have hsmall := total_le hbi
  obtain ⟨p₀, hinit, -, htot, -, hbits⟩ := @pmmInit_tight bi mem (by omega)
  refine ⟨p₀, hinit, ?_⟩
  rw [← free_usable_iff_clean hbi hno, htot]
  constructor
  · intro hall g hfree
    have hlt := hfree.1.lt_total
    exact hall g hlt ((hbits g hlt).mpr hfree)
  · intro hall g hlt hb
    exact hall g ((hbits g hlt).mp hb)

/-- The same on a machine with 1 MiB. -/
theorem pmm_init_frees_usable_pages_small :
    ∃ p₀, pmmInit ⟨fun _ => 0, []⟩ ⟨0x8000, [⟨0, 0x100000, 1⟩]⟩ = .ok p₀ ∧
      ((∀ g, g < p₀.totalBlocks → p₀.bit g = false →
          BootInfo.Filled ⟨0x8000, [⟨0, 0x100000, 1⟩]⟩ g
          ∧ BootInfo.Unshared ⟨0x8000, [⟨0, 0x100000, 1⟩]⟩ g)
        ↔ BootInfo.BordersClean ⟨0x8000, [⟨0, 0x100000, 1⟩]⟩) :=
  pmm_init_frees_usable_pages _ (by decide) (by decide)

/-- The usual BIOS map, with the extended BIOS data area in the last kilobyte
    below 640 KiB: the page at 0x9F000 is left free, and its last quarter is
    reserved. -/
theorem pmm_init_frees_partial_page :
    ¬ ∀ (mem : Mem) (bi : BootInfo), bi.Below4GiB → bi.NoWrap →
      ∀ p₀, pmmInit mem bi = .ok p₀ →
        ∀ g, g < p₀.totalBlocks → p₀.bit g = false → bi.Filled g ∧ bi.Unshared g := by
  intro hall
  obtain ⟨p₀, hinit, -, htot, -, hbits⟩ := @pmmInit_tight
    ⟨0x8000, [⟨0, 0x9FC00, 1⟩, ⟨0x9FC00, 0x400, 2⟩]⟩ ⟨fun _ => 0, []⟩ (by decide)
  have hfree : BootInfo.InitFree ⟨0x8000, [⟨0, 0x9FC00, 1⟩, ⟨0x9FC00, 0x400, 2⟩]⟩ 0x9F :=
    ⟨by decide, by decide⟩
  have hlt := hfree.1.lt_total
  have hun := (hall _ _ (by decide) (by decide) p₀ hinit 0x9F (by rw [htot]; exact hlt)
    ((hbits _ hlt).mpr hfree)).2
  refine hun 0x9FC00 (by decide) (by decide) ⟨0x9FC00, 0x400, 2⟩ (by simp) (by decide) ?_
  exact ⟨by decide, by decide⟩

/-! ## The kernel's `.bss` -/

/-- A kernel as `linker.ld` lays it out: the loaded file, then `.bss` with at
    least the 16 KiB stack of `entry.asm`. -/
structure KernelImage where
  kernelSize : UInt32
  bssSize : Nat
  stackFits : 16384 ≤ bssSize

/-- `.bss : ALIGN(4K)` after the bytes loaded at 0x10000. -/
def KernelImage.bssStart (k : KernelImage) : Nat :=
  (0x10000 + k.kernelSize.toNat + 4095) / 4096 * 4096

/-- The BootInfo such a kernel is booted with: `kernel_size` is the size of
    `kernel.bin`, which holds no `.bss`. -/
def KernelImage.bootInfo (k : KernelImage) (mmap : List E820Entry) : BootInfo :=
  ⟨k.kernelSize, mmap⟩

/-- The page at `a` overlaps the `.bss` of `k`. -/
def KernelImage.InBss (k : KernelImage) (a : Nat) : Prop :=
  PageOverlaps a k.bssStart k.bssSize

instance (k : KernelImage) (a : Nat) : Decidable (k.InBss a) :=
  inferInstanceAs (Decidable (PageOverlaps ..))

/-- Every page of `.bss` that a type-1 entry touches happens to hold a part of
    the PMM's bitmap. -/
def KernelImage.BssShielded (k : KernelImage) (mmap : List E820Entry) : Prop :=
  ∀ g, k.InBss (4096 * g) → (k.bootInfo mmap).Usable g →
    PageOverlaps (4096 * g) 0x20000 (k.bootInfo mmap).bitmapSize

/-- Only allocations. -/
def AllocCall (_ : PmmClient) (op : PmmOp) : Prop := op.IsAlloc

theorem AllocCall.reserver {op : PmmOp} (h : AllocCall s op) : ReserverCall s op := by
  cases op with
  | allocPage => trivial
  | allocPageLow _ => trivial
  | freePage _ => exact absurd h id
  | markRegionUsed _ _ => exact absurd h id
  | markRegionFree _ _ => exact absurd h id

/-- Of the four locks, only the one of the bitmap can reach into `.bss`: the
    kernel's own ends where `.bss` starts. -/
theorem KernelImage.locked_iff (k : KernelImage) {mmap : List E820Entry} {g : Nat}
    (hsmall : (k.bootInfo mmap).total ≤ 2 ^ 20) (hg : g < (k.bootInfo mmap).total)
    (hbss : k.InBss (4096 * g)) :
    (k.bootInfo mmap).Locked g
      ↔ PageOverlaps (4096 * g) 0x20000 (k.bootInfo mmap).bitmapSize := by
  have hk : k.kernelSize.toNat < 2 ^ 32 := k.kernelSize.toNat_lt
  have hsize := bitmapSize_eq (show (k.bootInfo mmap).total ≤ 2 ^ 32 - 8 by omega)
  have hstart := hbss
  rw [InBss, pageOverlaps_iff, bssStart] at hstart
  have hmap := @inRegion_iff (k.bootInfo mmap).total 0x20000
    (k.bootInfo mmap).bitmapSize g (by omega)
  constructor
  · rintro (hl | hl | hl | hl)
    · have hz := (inRegion_iff (by decide)).mp hl
      rw [pageOverlaps_iff] at hz
      omega
    · have hz := (inRegion_iff (show 0x10000 + k.kernelSize.toNat + 4095 < 2 ^ 64
        by omega)).mp hl
      rw [pageOverlaps_iff] at hz
      omega
    · exact (hmap.mp hl).1
    · have hz := (inRegion_iff (by decide)).mp hl
      rw [pageOverlaps_iff] at hz
      omega
  · intro ho
    exact Or.inr (Or.inr (Or.inl (hmap.mpr ⟨ho, hg⟩)))

/-- Where `.bss` is shielded no run of allocations returns a page of it. -/
theorem KernelImage.run_spares_bss (k : KernelImage) {mmap : List E820Entry} {p₀ : Pmm}
    (hsmall : (k.bootInfo mmap).total ≤ 2 ^ 20)
    (h0 : ClientInv (k.bootInfo mmap) ⟨p₀, []⟩) (hsh : k.BssShielded mmap)
    {ops : List PmmOp} (hrun : Run (PmmStep AllocCall) ⟨p₀, []⟩ ops s) :
    ∀ a ∈ s.held, ¬ k.InBss a := by
  have h := ClientInv.run hsmall h0
    (hrun.mono fun _ _ _ hst => hst.mono fun _ _ => AllocCall.reserver)
  intro a ha hbss
  have hpage := h.held a ha
  have haddr : 4096 * (a / 4096) = a := by
    have hal := hpage.aligned
    omega
  rw [← haddr] at hbss
  have husable := hpage.initFree.1
  exact hpage.initFree.2
    ((k.locked_iff hsmall husable.lt_total hbss).mpr (hsh _ hbss husable))

/-- Where it is not, some run does. -/
theorem KernelImage.exists_run_hits_bss (k : KernelImage) {mmap : List E820Entry}
    {p₀ : Pmm} (hsmall : (k.bootInfo mmap).total ≤ 2 ^ 20)
    (hinit : pmmInit mem (k.bootInfo mmap) = .ok p₀) (hsh : ¬ k.BssShielded mmap) :
    ∃ ops s, Run (PmmStep AllocCall) ⟨p₀, []⟩ ops s ∧ ∃ a ∈ s.held, k.InBss a := by
  obtain ⟨g, hg⟩ := not_forall.mp hsh
  rw [Classical.not_imp, Classical.not_imp] at hg
  obtain ⟨hbss, husable, hout⟩ := hg
  have hlt := husable.lt_total
  have hnl : ¬ (k.bootInfo mmap).Locked g := fun hl =>
    hout ((k.locked_iff hsmall hlt hbss).mp hl)
  have hallow : ∀ s, AllocCall s .allocPage := fun _ => trivial
  have hg31 : g < 2 ^ 31 := by omega
  obtain ⟨ops, t, hrun, hT, hleast⟩ :=
    exists_run_to_initFree hallow hinit (by omega) hg31 ⟨husable, hnl⟩
  obtain ⟨p', hok, -⟩ := pmmAllocPage_takes hT hg31 hleast
  have hstep : PmmStep AllocCall t .allocPage
      ⟨p', heldAfter t.held (u32 (g * 4096)) .allocPage⟩ := PmmStep.call (hallow t) hok
  have hne : g ≠ 0 := by
    rw [InBss, pageOverlaps_iff, bssStart] at hbss
    omega
  rw [heldAfter, u32_of_lt (by omega), if_neg (by omega)] at hstep
  refine ⟨_, _, Run.snoc _ hrun hstep, g * 4096, List.mem_cons_self .., ?_⟩
  rw [Nat.mul_comm]
  exact hbss

/-- **THE KERNEL'S `.bss` IS SPARED**, in every run of allocations, exactly when
    the bitmap happens to shield it. -/
theorem pmm_spares_bss (mem : Mem) (k : KernelImage) (mmap : List E820Entry)
    (hbi : (k.bootInfo mmap).Below4GiB) :
    ∃ p₀, pmmInit mem (k.bootInfo mmap) = .ok p₀ ∧
      ((∀ ops s, Run (PmmStep AllocCall) ⟨p₀, []⟩ ops s → ∀ a ∈ s.held, ¬ k.InBss a)
        ↔ k.BssShielded mmap) := by
  have hsmall := total_le hbi
  obtain ⟨p₀, hinit, h0⟩ := pmmInit_clientInv mem hbi
  refine ⟨p₀, hinit, ?_⟩
  constructor
  · intro hall
    by_contra hsh
    obtain ⟨ops, s, hrun, a, ha, hbss⟩ := k.exists_run_hits_bss hsmall hinit hsh
    exact hall ops s hrun a ha hbss
  · intro hsh ops s hrun
    exact k.run_spares_bss hsmall h0 hsh hrun

/-- The same for a 32 KiB kernel on a machine with 1 MiB. -/
theorem pmm_spares_bss_small :
    ∃ p₀, pmmInit ⟨fun _ => 0, []⟩
        (KernelImage.bootInfo ⟨0x8000, 0x4000, by decide⟩ [⟨0, 0x100000, 1⟩]) = .ok p₀ ∧
      ((∀ ops s, Run (PmmStep AllocCall) ⟨p₀, []⟩ ops s →
          ∀ a ∈ s.held, ¬ KernelImage.InBss ⟨0x8000, 0x4000, by decide⟩ a)
        ↔ KernelImage.BssShielded ⟨0x8000, 0x4000, by decide⟩ [⟨0, 0x100000, 1⟩]) :=
  pmm_spares_bss _ _ _ (by decide)

/-- A 32 KiB kernel with only its stack in `.bss`, on the usual BIOS map: the
    stack lies at 0x18000, and allocations reach it. -/
theorem pmm_hands_out_kernel_stack :
    ¬ ∀ (mem : Mem) (k : KernelImage) (mmap : List E820Entry),
      (k.bootInfo mmap).Below4GiB → ∀ p₀, pmmInit mem (k.bootInfo mmap) = .ok p₀ →
        ∀ ops s, Run (PmmStep AllocCall) ⟨p₀, []⟩ ops s → ∀ a ∈ s.held, ¬ k.InBss a := by
  intro hall
  obtain ⟨k, hk⟩ : ∃ k : KernelImage, k = ⟨0x8000, 0x4000, by decide⟩ := ⟨_, rfl⟩
  obtain ⟨mmap, hmap⟩ : ∃ mmap : List E820Entry,
      mmap = [⟨0, 0x9FC00, 1⟩, ⟨0x9FC00, 0x400, 2⟩] := ⟨_, rfl⟩
  have hbi : (k.bootInfo mmap).Below4GiB := by
    rw [hk, hmap]
    decide
  have hsh : ¬ k.BssShielded mmap := by
    rw [hk, hmap]
    intro hsh
    exact absurd (hsh 0x18 (by decide) (by decide)) (by decide)
  obtain ⟨p₀, hinit, -⟩ := pmmInit_clientInv ⟨fun _ => 0, []⟩ hbi
  obtain ⟨ops, s, hrun, a, ha, hbss⟩ := k.exists_run_hits_bss (total_le hbi) hinit hsh
  exact hall _ k mmap hbi p₀ hinit ops s hrun a ha hbss

end PyramidPmm
