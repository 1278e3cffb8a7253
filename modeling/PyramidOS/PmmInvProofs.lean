import PyramidOS.PmmScanProofs

/-! # The accounting invariant and the region calls

    The invariant of the PMM and what its bit and region operations do under it:

    * `PmmInv` — the counter counts the set bits, the padding bits of the last
      byte are set, the bitmap covers every frame and both cursors are in range;
    * `pmmSet_paintsOne`, `pmmUnset_paintsOne` — the two bit operations;
    * `pmmMarkRegionUsed_spec`, `pmmMarkRegionFree_spec` — a region call changes
      exactly the frames the region touches, and never panics. -/

namespace PyramidPmm

open ByteMem WordBitmap PyramidKernel

variable {p p' p'' : Pmm} {f : Nat}

/-- **THE ACCOUNTING INVARIANT.** -/
structure PmmInv (p : Pmm) : Prop where
  total_le : p.totalBlocks ≤ 2 ^ 32 - 8
  covers : p.bitmapSize = (p.totalBlocks + 7) / 8
  accounted : p.usedBlocks = setCount p.bit p.totalBlocks
  padding : ∀ f, p.totalBlocks ≤ f → f < 8 * p.bitmapSize → p.bit f = true
  cursor_le : p.lastFreeIndex ≤ p.totalBlocks
  cursorLow_le : p.lastFreeIndexLow ≤ p.totalBlocks

/-- The bytes of the bitmap. -/
def BitmapByte (p : Pmm) (a : Nat) : Prop :=
  pmmBitmapBase ≤ a ∧ a < pmmBitmapBase + p.bitmapSize

/-- What no call after `pmm_init` changes: the geometry, and all memory outside
    the bitmap. -/
structure SameGeometry (p p' : Pmm) : Prop where
  total : p'.totalBlocks = p.totalBlocks
  size : p'.bitmapSize = p.bitmapSize
  writes : WritesIn (BitmapByte p) p.mem p'.mem

theorem SameGeometry.refl (p : Pmm) : SameGeometry p p :=
  ⟨rfl, rfl, WritesIn.refl _ _⟩

theorem SameGeometry.trans (h1 : SameGeometry p p') (h2 : SameGeometry p' p'') :
    SameGeometry p p'' := by
  refine ⟨h2.total.trans h1.total, h2.size.trans h1.size, h1.writes.trans ?_⟩
  refine h2.writes.mono fun a ha => ?_
  have hsize := h1.size
  rw [BitmapByte, hsize] at ha
  exact ha

/-! ## One bit changed -/

theorem PmmInv.total_le_cover (h : PmmInv p) : p.totalBlocks ≤ 8 * p.bitmapSize := by
  have := h.covers
  omega

theorem PmmInv.used_pos_of_bit (h : PmmInv p) (hf : f < p.totalBlocks)
    (hb : p.bit f = true) : p.usedBlocks ≠ 0 := by
  have hcount := setCount_clear (q := fun j => p.bit j && !decide (j = f)) hf hb
    (fun _ => rfl)
  have hacc := h.accounted
  omega

/-- The counter has room while a frame is free. -/
theorem PmmInv.used_lt_of_clear (h : PmmInv p) (hf : f < p.totalBlocks)
    (hb : p.bit f = false) : p.usedBlocks < p.totalBlocks := by
  rw [h.accounted]
  exact setCount_lt hf hb

/-- The counter reaches `total_blocks` exactly when no frame is free. -/
theorem PmmInv.used_ge_iff (h : PmmInv p) :
    p.usedBlocks ≥ p.totalBlocks ↔ clearIn p.bit 0 p.totalBlocks = ∅ := by
  constructor
  · intro hge
    refine Set.eq_empty_iff_forall_notMem.mpr fun f hf => ?_
    have hlt := h.used_lt_of_clear hf.2.1 hf.2.2
    omega
  · intro hempty
    by_contra hlt
    rw [h.accounted] at hlt
    obtain ⟨f, hf, hb⟩ := exists_clear_of_setCount_lt (Nat.lt_of_not_le hlt)
    exact (Set.eq_empty_iff_forall_notMem.mp hempty) f ⟨Nat.zero_le f, hf, hb⟩

/-- Marking a free frame keeps the invariant. -/
theorem PmmInv.marked (h : PmmInv p) (hf : f < p.totalBlocks)
    (hb : p.bit f = false) : PmmInv (p.marked f) := by
  have hlt := h.used_lt_of_clear hf hb
  have htot := h.total_le
  refine ⟨h.total_le, h.covers, ?_, ?_, h.cursor_le, h.cursorLow_le⟩
  · have hcount : setCount (p.marked f).bit p.totalBlocks
        = setCount p.bit p.totalBlocks + 1 :=
      setCount_set hf hb fun j => bit_marked p f j
    show u32 (p.usedBlocks + 1) = setCount (p.marked f).bit p.totalBlocks
    rw [u32_of_lt (by omega), hcount, h.accounted]
  · intro g h1 h2
    rw [bit_marked, h.padding g h1 h2]
    rfl

/-- Clearing a used frame keeps the invariant. -/
theorem PmmInv.cleared (h : PmmInv p) (hf : f < p.totalBlocks)
    (hb : p.bit f = true) : PmmInv (p.cleared f) := by
  refine ⟨h.total_le, h.covers, ?_, ?_, h.cursor_le, h.cursorLow_le⟩
  · have hcount : setCount p.bit p.totalBlocks
        = setCount (p.cleared f).bit p.totalBlocks + 1 :=
      setCount_clear hf hb fun j => bit_cleared p f j
    show p.usedBlocks - 1 = setCount (p.cleared f).bit p.totalBlocks
    rw [h.accounted, hcount]
    omega
  · intro g (h1 : p.totalBlocks ≤ g) h2
    have hgf : g ≠ f := by omega
    rw [bit_cleared, h.padding g h1 h2, decide_eq_false hgf]
    rfl

theorem sameGeometry_marked (h : PmmInv p) (hf : f < p.totalBlocks) :
    SameGeometry p (p.marked f) := by
  have hcov := h.total_le_cover
  refine ⟨rfl, rfl, (WritesIn.refl _ _).store8 _ ⟨by omega, ?_⟩⟩
  show pmmBitmapBase + f / 8 < pmmBitmapBase + p.bitmapSize
  omega

theorem sameGeometry_cleared (h : PmmInv p) (hf : f < p.totalBlocks) :
    SameGeometry p (p.cleared f) := by
  have hcov := h.total_le_cover
  refine ⟨rfl, rfl, (WritesIn.refl _ _).store8 _ ⟨by omega, ?_⟩⟩
  show pmmBitmapBase + f / 8 < pmmBitmapBase + p.bitmapSize
  omega

/-! ## Regions -/

/-- The state a region call leaves: the bits of `S` became `v`, nothing else
    moved. -/
structure Painted (v : Bool) (S : Nat → Prop) (p p' : Pmm) : Prop where
  inv : PmmInv p'
  geometry : SameGeometry p p'
  cursor : p'.lastFreeIndex = p.lastFreeIndex
  cursorLow : p'.lastFreeIndexLow = p.lastFreeIndexLow
  inside : ∀ g, S g → p'.bit g = v
  outside : ∀ g, ¬ S g → p'.bit g = p.bit g

/-- After painting `S` used, the free frames are the free ones outside `S`. -/
theorem Painted.clear_iff {S : Nat → Prop} (h : Painted true S p p') (g : Nat) :
    p'.bit g = false ↔ ¬ S g ∧ p.bit g = false := by
  by_cases hS : S g
  · rw [h.inside g hS]
    exact ⟨fun hc => (nomatch hc), fun hc => absurd hS hc.1⟩
  · rw [h.outside g hS]
    exact ⟨fun hc => ⟨hS, hc⟩, fun hc => hc.2⟩

/-- Painting frames used frees none. -/
theorem Painted.keeps_used {S : Nat → Prop} (h : Painted true S p p') {g : Nat}
    (hg : p.bit g = true) : p'.bit g = true := by
  by_cases hS : S g
  · exact h.inside g hS
  · rw [h.outside g hS]
    exact hg

/-- `op` gives a single frame the bit `v`. -/
def PaintsOne (v : Bool) (op : Pmm → Nat → Except Halt Pmm) : Prop :=
  ∀ p f, PmmInv p → f < p.totalBlocks →
    ∃ p', op p f = .ok p' ∧ Painted v (fun g => g = f) p p'

/-- A frame that already has the bit needs no change. -/
theorem painted_self {v : Bool} (h : PmmInv p) (hb : p.bit f = v) :
    Painted v (fun g => g = f) p p :=
  ⟨h, SameGeometry.refl p, rfl, rfl, fun _ hg => hg ▸ hb, fun _ _ => rfl⟩

theorem pmmSet_paintsOne : PaintsOne true pmmSet := by
  intro p f h hf
  refine ⟨_, pmmSet_eq hf, ?_⟩
  cases hb : p.bit f with
  | true =>
      rw [if_pos rfl]
      exact painted_self h hb
  | false =>
      rw [if_neg Bool.false_ne_true]
      refine ⟨h.marked hf hb, sameGeometry_marked h hf, rfl, rfl, ?_, ?_⟩
      · intro g hg
        rw [bit_marked, decide_eq_true hg, Bool.or_true]
      · intro g hg
        rw [bit_marked, decide_eq_false hg, Bool.or_false]

theorem pmmUnset_paintsOne : PaintsOne false pmmUnset := by
  intro p f h hf
  refine ⟨_, pmmUnset_eq hf (h.used_pos_of_bit hf), ?_⟩
  cases hb : p.bit f with
  | false =>
      rw [if_neg Bool.false_ne_true]
      exact painted_self h hb
  | true =>
      rw [if_pos rfl]
      refine ⟨h.cleared hf hb, sameGeometry_cleared h hf, rfl, rfl, ?_, ?_⟩
      · intro g hg
        rw [bit_cleared, decide_eq_true hg]
        exact Bool.and_false _
      · intro g hg
        rw [bit_cleared, decide_eq_false hg]
        exact Bool.and_true _

/-- The region loop paints its frames one after the other. -/
theorem pmmForFrames_spec {v : Bool} {op : Pmm → Nat → Except Halt Pmm}
    (hop : PaintsOne v op) :
    ∀ (count : Nat) (p : Pmm) (start : Nat), PmmInv p →
      (count ≠ 0 → start + count ≤ p.totalBlocks) →
      ∃ p', pmmForFrames op p start count = .ok p'
        ∧ Painted v (fun g => start ≤ g ∧ g < start + count) p p' := by
  intro count
  induction count with
  | zero =>
      intro p start h _
      refine ⟨p, rfl, h, SameGeometry.refl p, rfl, rfl, ?_, fun _ _ => rfl⟩
      intro g hg
      exact absurd hg.2 (by omega)
  | succ n ih =>
      intro p start h hle
      have hle' := hle (Nat.succ_ne_zero n)
      have htot := h.total_le
      have hlt : start < p.totalBlocks := by omega
      obtain ⟨p1, hop1, hpaint1⟩ := hop p start h hlt
      have htot1 := hpaint1.geometry.total
      obtain ⟨p2, hop2, hpaint2⟩ := ih p1 (start + 1) hpaint1.inv (by omega)
      refine ⟨p2, ?_, hpaint2.inv, hpaint1.geometry.trans hpaint2.geometry,
        hpaint2.cursor.trans hpaint1.cursor,
        hpaint2.cursorLow.trans hpaint1.cursorLow, ?_, ?_⟩
      · rw [pmmForFrames, u32_of_lt (by omega), hop1]
        exact hop2
      · intro g hg
        by_cases hgs : start + 1 ≤ g
        · exact hpaint2.inside g ⟨hgs, by omega⟩
        · rw [hpaint2.outside g (by omega)]
          exact hpaint1.inside g (by omega)
      · intro g hg
        rw [hpaint2.outside g (by omega)]
        exact hpaint1.outside g (by omega)

/-- The frames a region call touches: the page-rounded range, computed in 64
    bits and clipped to `total`. -/
def InRegion (total base length g : Nat) : Prop :=
  length ≠ 0 ∧ base / 4096 ≤ g ∧ g < u64 (base + length + 4095) / 4096 ∧ g < total

instance (total base length g : Nat) : Decidable (InRegion total base length g) :=
  inferInstanceAs (Decidable (_ ∧ _ ∧ _ ∧ _))

theorem pmmMarkRegion_spec {v : Bool} {op : Pmm → Nat → Except Halt Pmm}
    (hop : PaintsOne v op) (h : PmmInv p) (base length : Nat) :
    ∃ p', pmmMarkRegion op p base length = .ok p'
      ∧ Painted v (InRegion p.totalBlocks base length) p p' := by
  by_cases hlen : length = 0
  · refine ⟨p, if_pos hlen, h, SameGeometry.refl p, rfl, rfl, ?_, fun _ _ => rfl⟩
    intro g hg
    exact absurd hlen hg.1
  · have hend : (if u64 (base + length + 4095) / 4096 > p.totalBlocks
        then p.totalBlocks else u64 (base + length + 4095) / 4096)
        = min (u64 (base + length + 4095) / 4096) p.totalBlocks := by
      split <;> omega
    rw [pmmMarkRegion, if_neg hlen]
    show ∃ p', pmmForFrames op p (base / 4096)
      ((if u64 (base + length + 4095) / 4096 > p.totalBlocks
        then p.totalBlocks else u64 (base + length + 4095) / 4096)
        - base / 4096) = .ok p' ∧ _
    rw [hend]
    obtain ⟨p', hok, hpaint⟩ := pmmForFrames_spec hop
      (min (u64 (base + length + 4095) / 4096) p.totalBlocks - base / 4096) p
      (base / 4096) h (by omega)
    refine ⟨p', hok, hpaint.inv, hpaint.geometry, hpaint.cursor,
      hpaint.cursorLow, ?_, ?_⟩
    · intro g hg
      refine hpaint.inside g ?_
      obtain ⟨_, h1, h2, h3⟩ := hg
      omega
    · intro g hg
      refine hpaint.outside g fun hin => hg ⟨hlen, ?_⟩
      omega

theorem pmmMarkRegionUsed_spec (h : PmmInv p) (base length : Nat) :
    ∃ p', pmmMarkRegionUsed p base length = .ok p'
      ∧ Painted true (InRegion p.totalBlocks base length) p p' :=
  pmmMarkRegion_spec pmmSet_paintsOne h base length

theorem pmmMarkRegionFree_spec (h : PmmInv p) (base length : Nat) :
    ∃ p', pmmMarkRegionFree p base length = .ok p'
      ∧ Painted false (InRegion p.totalBlocks base length) p p' :=
  pmmMarkRegion_spec pmmUnset_paintsOne h base length

end PyramidPmm
