import PyramidOS.PmmAllocProofs

/-! # What `pmm_init` leaves

    `pmm_init` sizes the bitmap from the E820 map, marks everything used, frees
    the type-1 entries and locks four ranges again.  The headline,
    `pmmInit_spec`, says which frames are free afterwards: exactly those a
    type-1 entry touches and none of the four locks does.  The rest of the file
    reads the 64-bit rounding of the region calls as overlap of byte ranges. -/

namespace PyramidPmm

open ByteMem WordBitmap PyramidKernel

/-- The end of an entry as `pmm_init` computes it, in 64 bits. -/
def E820Entry.top (e : E820Entry) : Nat := u64 (e.base.toNat + e.length.toNat)

/-- Entry `e` touches frame `g` in the eyes of `pmm_mark_region_free`. -/
def E820Entry.Touches (e : E820Entry) (total g : Nat) : Prop :=
  InRegion total e.base.toNat e.length.toNat g

/-- The type-1 entries all end at or below 4 GiB.  An entry whose end wraps
    past 2^64 counts with its wrapped end, as in the code. -/
def BootInfo.Below4GiB (bi : BootInfo) : Prop :=
  ∀ e ∈ bi.mmap, e.type = 1 → e.top ≤ 2 ^ 32

instance (bi : BootInfo) : Decidable bi.Below4GiB :=
  inferInstanceAs (Decidable (∀ e ∈ bi.mmap, e.type = 1 → e.top ≤ 2 ^ 32))

/-- `total_blocks` after `pmm_init`. -/
def BootInfo.total (bi : BootInfo) : Nat := pmmTotalBlocks bi.mmap

/-- `bitmap_size` after `pmm_init`. -/
def BootInfo.bitmapSize (bi : BootInfo) : Nat := u32 (bi.total + 7) / 8

/-- A type-1 entry touches frame `g`. -/
def BootInfo.Usable (bi : BootInfo) (g : Nat) : Prop :=
  ∃ e ∈ bi.mmap, e.type = 1 ∧ e.Touches bi.total g

/-- One of the four locked ranges touches frame `g`. -/
def BootInfo.Locked (bi : BootInfo) (g : Nat) : Prop :=
  InRegion bi.total 0x0 0x1000 g ∨ InRegion bi.total 0x10000 bi.kernelSize.toNat g
  ∨ InRegion bi.total pmmBitmapBase bi.bitmapSize g
  ∨ InRegion bi.total 0x5000 0x1000 g

instance (e : E820Entry) (total g : Nat) : Decidable (e.Touches total g) :=
  inferInstanceAs (Decidable (InRegion ..))

instance (bi : BootInfo) (g : Nat) : Decidable (bi.Usable g) :=
  inferInstanceAs (Decidable (∃ e ∈ bi.mmap, e.type = 1 ∧ e.Touches bi.total g))

instance (bi : BootInfo) (g : Nat) : Decidable (bi.Locked g) :=
  inferInstanceAs (Decidable (_ ∨ _ ∨ _ ∨ _))

/-- Frame `g` is one `pmm_init` leaves free. -/
def BootInfo.InitFree (bi : BootInfo) (g : Nat) : Prop :=
  bi.Usable g ∧ ¬ bi.Locked g

/-- A usable frame lies below `total_blocks`. -/
theorem BootInfo.Usable.lt_total {bi : BootInfo} {g : Nat} (h : bi.Usable g) : g < bi.total := by
  obtain ⟨e, -, -, htouch⟩ := h
  exact htouch.2.2.2

/-! ## Sizing -/

/-- The running maximum of the first loop is at least its start and at least
    every type-1 end. -/
theorem pmmHighestAddr_foldl (mmap : List E820Entry) :
    ∀ start, ∃ h, mmap.foldl (fun highest e =>
        if e.type = 1 then
          let top := u64 (e.base.toNat + e.length.toNat)
          if top > highest then top else highest
        else highest) start = h
      ∧ start ≤ h ∧ (∀ e ∈ mmap, e.type = 1 → e.top ≤ h)
      ∧ (h = start ∨ ∃ e ∈ mmap, e.type = 1 ∧ h = e.top) := by
  induction mmap with
  | nil => intro start; exact ⟨start, rfl, Nat.le_refl _, fun _ h => (nomatch h), Or.inl rfl⟩
  | cons e rest ih =>
      intro start
      obtain ⟨h, hfold, hge, hall, hwhich⟩ := ih
        (if e.type = 1 then (if e.top > start then e.top else start) else start)
      refine ⟨h, hfold, ?_, ?_, ?_⟩
      · split at hge
        · split at hge <;> omega
        · exact hge
      · intro e' he' htype
        rcases List.mem_cons.mp he' with heq | hmem
        · subst heq
          rw [if_pos htype] at hge
          split at hge <;> omega
        · exact hall e' hmem htype
      · rcases hwhich with heq | ⟨e', he', ht, heq⟩
        · by_cases htype : e.type = 1
          · rw [if_pos htype] at heq
            by_cases hgt : e.top > start
            · rw [if_pos hgt] at heq
              exact Or.inr ⟨e, List.mem_cons_self .., htype, heq⟩
            · rw [if_neg hgt] at heq
              exact Or.inl heq
          · rw [if_neg htype] at heq
            exact Or.inl heq
        · exact Or.inr ⟨e', List.mem_cons_of_mem _ he', ht, heq⟩

/-- Every type-1 entry ends at or below the highest address. -/
theorem top_le_pmmHighestAddr {mmap : List E820Entry} {e : E820Entry}
    (he : e ∈ mmap) (htype : e.type = 1) : e.top ≤ pmmHighestAddr mmap := by
  obtain ⟨h, hfold, -, hall, -⟩ := pmmHighestAddr_foldl mmap 0
  rw [show pmmHighestAddr mmap = h from hfold]
  exact hall e he htype

theorem pmmHighestAddr_le {bi : BootInfo} (h : bi.Below4GiB) :
    pmmHighestAddr bi.mmap ≤ 2 ^ 32 := by
  obtain ⟨top, hfold, -, -, hwhich⟩ := pmmHighestAddr_foldl bi.mmap 0
  rw [show pmmHighestAddr bi.mmap = top from hfold]
  rcases hwhich with h0 | ⟨e, he, htype, heq⟩
  · omega
  · rw [heq]
    exact h e he htype

/-- Below 4 GiB nothing is truncated: the frame count is the rounded-up end. -/
theorem total_eq {bi : BootInfo} (h : bi.Below4GiB) :
    bi.total = (pmmHighestAddr bi.mmap + 4095) / 4096 := by
  have hle := pmmHighestAddr_le h
  show u32 (u64 (pmmHighestAddr bi.mmap + 4095) / 4096) = _
  rw [u64_of_lt (by omega), u32_of_lt (by omega)]

theorem total_le {bi : BootInfo} (h : bi.Below4GiB) : bi.total ≤ 2 ^ 20 := by
  have hle := pmmHighestAddr_le h
  rw [total_eq h]
  omega

theorem bitmapSize_eq {bi : BootInfo} (h : bi.total ≤ 2 ^ 32 - 8) :
    bi.bitmapSize = (bi.total + 7) / 8 := by
  rw [BootInfo.bitmapSize, u32_of_lt (by omega)]

/-! ## The state after each phase -/

theorem setCount_true {b : Nat → Bool} {n : Nat} (h : ∀ i, i < n → b i = true) :
    setCount b n = n := by
  rw [setCount_congr h]
  simp [setCount]

/-- After `memset` every bit of the bitmap is set. -/
theorem bit_pmmInitAllUsed (mem : Mem) (bi : BootInfo) {f : Nat}
    (hf : f < 8 * bi.bitmapSize) : (pmmInitAllUsed mem bi.mmap).bit f = true := by
  show ((memset mem pmmBitmapBase 0xFF#8 bi.bitmapSize).byte
    (pmmBitmapBase + f / 8)).getLsbD (f % 8) = true
  rw [byte_memset, if_pos (by omega),
    show 0xFF#8 = BitVec.allOnes 8 from rfl, BitVec.getLsbD_allOnes]
  exact decide_eq_true (Nat.mod_lt f (by decide))

theorem pmmInitAllUsed_inv (mem : Mem) {bi : BootInfo} (h : bi.total ≤ 2 ^ 32 - 8) :
    PmmInv (pmmInitAllUsed mem bi.mmap) := by
  have hsize := bitmapSize_eq h
  refine ⟨h, hsize, ?_, ?_, Nat.zero_le _, Nat.zero_le _⟩
  · show bi.total = setCount (pmmInitAllUsed mem bi.mmap).bit bi.total
    rw [setCount_true fun f hf => bit_pmmInitAllUsed mem bi (by omega)]
  · intro f _ hf
    exact bit_pmmInitAllUsed mem bi hf

/-- The second loop frees exactly the frames some type-1 entry touches. -/
theorem pmmFreeUsable_spec (total : Nat) :
    ∀ (mmap : List E820Entry) (p : Pmm), PmmInv p → p.totalBlocks = total →
      ∃ p', pmmFreeUsable p mmap = .ok p'
        ∧ Painted false
          (fun g => ∃ e ∈ mmap, e.type = 1 ∧ e.Touches total g) p p' := by
  intro mmap
  induction mmap with
  | nil =>
      intro p h _
      refine ⟨p, rfl, h, SameGeometry.refl p, rfl, rfl, ?_, fun _ _ => rfl⟩
      rintro g ⟨e, he, -⟩
      exact nomatch he
  | cons e rest ih =>
      intro p h htot
      by_cases htype : e.type = 1
      · obtain ⟨p1, hok1, hp1⟩ := pmmMarkRegionFree_spec h e.base.toNat e.length.toNat
        have htot1 : p1.totalBlocks = total := hp1.geometry.total.trans htot
        obtain ⟨p2, hok2, hp2⟩ := ih p1 hp1.inv htot1
        refine ⟨p2, ?_, hp2.inv, hp1.geometry.trans hp2.geometry,
          hp2.cursor.trans hp1.cursor, hp2.cursorLow.trans hp1.cursorLow, ?_, ?_⟩
        · rw [pmmFreeUsable, if_pos htype, hok1]
          exact hok2
        · intro g hg
          by_cases hrest : ∃ e' ∈ rest, e'.type = 1 ∧ e'.Touches total g
          · exact hp2.inside g hrest
          · rw [hp2.outside g hrest]
            refine hp1.inside g ?_
            obtain ⟨e', he', ht', hr'⟩ := hg
            rcases List.mem_cons.mp he' with heq | hmem
            · rw [htot, ← heq]; exact hr'
            · exact absurd ⟨e', hmem, ht', hr'⟩ hrest
        · intro g hg
          rw [hp2.outside g fun ⟨e', hmem, hr⟩ =>
            hg ⟨e', List.mem_cons_of_mem _ hmem, hr⟩]
          refine hp1.outside g fun hr => hg ⟨e, List.mem_cons_self .., htype, ?_⟩
          rw [← htot]; exact hr
      · obtain ⟨p2, hok2, hp2⟩ := ih p h htot
        refine ⟨p2, ?_, hp2.inv, hp2.geometry, hp2.cursor, hp2.cursorLow, ?_, ?_⟩
        · rw [pmmFreeUsable, if_neg htype]
          exact hok2
        · rintro g ⟨e', he', ht', hr'⟩
          rcases List.mem_cons.mp he' with heq | hmem
          · exact absurd (heq ▸ ht') htype
          · exact hp2.inside g ⟨e', hmem, ht', hr'⟩
        · intro g hg
          exact hp2.outside g fun ⟨e', hmem, hr⟩ =>
            hg ⟨e', List.mem_cons_of_mem _ hmem, hr⟩

/-- **WHAT `pmm_init` LEAVES**: it returns, both cursors are at 0, and a frame
    is free exactly when a type-1 entry touches it and no locked range does. -/
theorem pmmInit_spec (mem : Mem) {bi : BootInfo} (h : bi.total ≤ 2 ^ 32 - 8) :
    ∃ p, pmmInit mem bi = .ok p ∧ PmmInv p ∧ p.totalBlocks = bi.total
      ∧ p.bitmapSize = bi.bitmapSize
      ∧ p.lastFreeIndex = 0 ∧ p.lastFreeIndexLow = 0
      ∧ ∀ g, g < bi.total → (p.bit g = false ↔ bi.InitFree g) := by
  have h0 := pmmInitAllUsed_inv mem h
  obtain ⟨p1, hok1, hp1⟩ := pmmFreeUsable_spec bi.total bi.mmap _ h0 rfl
  have ht1 : p1.totalBlocks = bi.total := hp1.geometry.total
  obtain ⟨p2, hok2, hp2⟩ := pmmMarkRegionUsed_spec hp1.inv 0x0 0x1000
  have ht2 : p2.totalBlocks = bi.total := hp2.geometry.total.trans ht1
  obtain ⟨p3, hok3, hp3⟩ := pmmMarkRegionUsed_spec hp2.inv 0x10000 bi.kernelSize.toNat
  have ht3 : p3.totalBlocks = bi.total := hp3.geometry.total.trans ht2
  have hs3 : p3.bitmapSize = bi.bitmapSize :=
    hp3.geometry.size.trans (hp2.geometry.size.trans hp1.geometry.size)
  obtain ⟨p4, hok4, hp4⟩ := pmmMarkRegionUsed_spec hp3.inv pmmBitmapBase p3.bitmapSize
  have ht4 : p4.totalBlocks = bi.total := hp4.geometry.total.trans ht3
  obtain ⟨p5, hok5, hp5⟩ := pmmMarkRegionUsed_spec hp4.inv 0x5000 0x1000
  rw [ht1] at hp2
  rw [ht2] at hp3
  rw [ht3, hs3] at hp4
  rw [ht4] at hp5
  refine ⟨p5, ?_, hp5.inv, hp5.geometry.total.trans ht4,
    hp5.geometry.size.trans (hp4.geometry.size.trans hs3), ?_, ?_, ?_⟩
  · simp only [pmmInit, bind, Except.bind, hok1, hok2, hok3, hok4, hok5]
  · rw [hp5.cursor, hp4.cursor, hp3.cursor, hp2.cursor, hp1.cursor]; rfl
  · rw [hp5.cursorLow, hp4.cursorLow, hp3.cursorLow, hp2.cursorLow, hp1.cursorLow]; rfl
  · intro g hg
    have hsize := bitmapSize_eq h
    have hset := bit_pmmInitAllUsed mem bi (f := g) (by omega)
    have hclear1 : p1.bit g = false ↔ bi.Usable g := by
      by_cases hus : bi.Usable g
      · exact ⟨fun _ => hus, fun _ => hp1.inside g hus⟩
      · rw [hp1.outside g hus, hset]
        exact ⟨fun hc => (nomatch hc), fun hc => absurd hc hus⟩
    rw [hp5.clear_iff, hp4.clear_iff, hp3.clear_iff, hp2.clear_iff, hclear1]
    constructor
    · rintro ⟨h5, h4, h3, h2, hus⟩
      refine ⟨hus, ?_⟩
      rintro (hl | hl | hl | hl)
      · exact h2 hl
      · exact h3 hl
      · exact h4 hl
      · exact h5 hl
    · rintro ⟨hus, hnl⟩
      exact ⟨fun hl => hnl (Or.inr (Or.inr (Or.inr hl))),
        fun hl => hnl (Or.inr (Or.inr (Or.inl hl))),
        fun hl => hnl (Or.inr (Or.inl hl)), fun hl => hnl (Or.inl hl), hus⟩

/-! ## Regions as byte ranges -/

/-- The page at `addr` and the bytes `[base, base + length)` overlap. -/
def PageOverlaps (addr base length : Nat) : Prop :=
  ∃ x, addr ≤ x ∧ x < addr + 4096 ∧ base ≤ x ∧ x < base + length

theorem pageOverlaps_iff {addr base length : Nat} :
    PageOverlaps addr base length
      ↔ length ≠ 0 ∧ base < addr + 4096 ∧ addr < base + length := by
  constructor
  · rintro ⟨x, h1, h2, h3, h4⟩
    omega
  · rintro ⟨h1, h2, h3⟩
    exact ⟨max addr base, by omega, by omega, by omega, by omega⟩

instance (addr base length : Nat) : Decidable (PageOverlaps addr base length) :=
  decidable_of_iff _ pageOverlaps_iff.symm

/-- When the sums do not wrap, a region call touches the pages its bytes
    overlap. -/
theorem inRegion_iff {total base length g : Nat} (h : base + length + 4095 < 2 ^ 64) :
    InRegion total base length g ↔ PageOverlaps (4096 * g) base length ∧ g < total := by
  rw [InRegion, pageOverlaps_iff, u64_of_lt h]
  omega

end PyramidPmm
