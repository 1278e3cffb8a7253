import PyramidOS.PmmInvProofs

/-! # Allocating and freeing a page

    What the two allocators and `pmm_free_page` do under the accounting
    invariant, one specification lemma a function:

    * `pmmFirstFreeFrom_spec` — the wrap-around scan returns the next-fit frame;
    * `pmmAllocPage_spec`, `pmmAllocPageLow_spec` — an allocation either marks
      that frame and returns its address, or finds nothing and changes no bit;
    * `pmmFreePage_spec` — a free of a used frame clears its bit and pulls both
      cursors back to it.

    Frame numbers pass through `int32_t` on their way out of the scan, so a
    frame from 2^31 on looks like a failure; `NextFit` and `NoFit` keep that. -/

namespace PyramidPmm

open ByteMem WordBitmap PyramidKernel

variable {p p' : Pmm} {f c e : Nat}

/-- The cursor `pmm_first_free_from` really starts at. -/
def startCursor (c e : Nat) : Nat := if c ≥ e then 0 else c

/-- `f` is what the scan from `c` with wrap-around at `e` picks. -/
def NextFit (b : Nat → Bool) (c e f : Nat) : Prop :=
  (IsLeast (clearIn b c e) f ∧ f < 2 ^ 31)
  ∨ ((∀ g ∈ clearIn b c e, 2 ^ 31 ≤ g) ∧ IsLeast (clearIn b 0 c) f)

/-- The scan from `c` with wrap-around at `e` picks nothing. -/
def NoFit (b : Nat → Bool) (c e : Nat) : Prop :=
  (∀ g ∈ clearIn b c e, 2 ^ 31 ≤ g) ∧ clearIn b 0 c = ∅

theorem startCursor_le (c e : Nat) : startCursor c e ≤ e := by
  rw [startCursor]
  split <;> omega

theorem startCursor_le_self (c e : Nat) : startCursor c e ≤ c := by
  rw [startCursor]
  split <;> omega

/-- The picked frame is free and below the end. -/
theorem NextFit.clear {b : Nat → Bool} (h : NextFit b c e f) (hc : c ≤ e) :
    f < e ∧ b f = false := by
  rcases h with ⟨h, _⟩ | ⟨_, h⟩
  · exact ⟨h.1.2.1, h.1.2.2⟩
  · have hlt := h.1.2.1
    exact ⟨by omega, h.1.2.2⟩

/-- **NEXT FIT**: the wrap-around scan leaves the start cursor in place and
    returns the next-fit frame, or -1. -/
theorem pmmFirstFreeFrom_spec (hcov : e ≤ 8 * p.bitmapSize) (he : e ≤ 2 ^ 32 - 8)
    (c : Nat) :
    (∃ f, NextFit p.bit (startCursor c e) e f
      ∧ pmmFirstFreeFrom p c e = (i32 f, startCursor c e))
    ∨ (NoFit p.bit (startCursor c e) e
      ∧ pmmFirstFreeFrom p c e = (-1, startCursor c e)) := by
  have hle := startCursor_le c e
  have hdef : pmmFirstFreeFrom p c e
      = if pmmFindFreeInRange p (startCursor c e) e ≥ 0
        then (pmmFindFreeInRange p (startCursor c e) e, startCursor c e)
        else (pmmFindFreeInRange p 0 (startCursor c e), startCursor c e) := rfl
  generalize startCursor c e = c' at hle hdef ⊢
  -- the second scan, taken when the first one gives no usable frame
  have hwrap : (∀ g ∈ clearIn p.bit c' e, 2 ^ 31 ≤ g) →
      pmmFirstFreeFrom p c e = (pmmFindFreeInRange p 0 c', c') →
      (∃ f, NextFit p.bit c' e f ∧ pmmFirstFreeFrom p c e = (i32 f, c'))
      ∨ (NoFit p.bit c' e ∧ pmmFirstFreeFrom p c e = (-1, c')) := by
    intro hbig heq
    rcases pmmFindFreeInRange_spec (p := p) (s := 0) (e := c') (by omega) (by omega)
      with ⟨g, hg, hres⟩ | ⟨hnone, hres⟩
    · exact Or.inl ⟨g, Or.inr ⟨hbig, hg⟩, by rw [heq, hres]⟩
    · exact Or.inr ⟨⟨hbig, hnone⟩, by rw [heq, hres]⟩
  rcases pmmFindFreeInRange_spec (p := p) (s := c') (e := e) hcov (by omega)
    with ⟨g, hg, hres⟩ | ⟨hnone, hres⟩
  · have hge : g < e := hg.1.2.1
    by_cases hsmall : g < 2 ^ 31
    · have hi := i32_of_lt hsmall
      refine Or.inl ⟨g, Or.inl ⟨hg, hsmall⟩, ?_⟩
      rw [hdef, hres, if_pos (by omega)]
    · have hneg := i32_neg (x := g) (by omega) (by omega)
      refine hwrap (fun k hk => ?_) (by rw [hdef, hres, if_neg (by omega)])
      have := hg.2 hk
      omega
  · refine hwrap (fun k hk => ?_) (by rw [hdef, hres, if_neg (by decide)])
    exact absurd hk (Set.eq_empty_iff_forall_notMem.mp hnone k)

/-- A frame number of the bitmap never collides with the failure code. -/
theorem i32_ne_neg_one (hf : f < 2 ^ 32 - 8) : i32 f ≠ -1 := by
  have hu : u32 f = f := u32_of_lt (by omega)
  rw [i32, hu]
  split <;> omega

/-! ## Allocation -/

/-- **`pmm_alloc_page`**: with the counter full it returns NULL and changes
    nothing; otherwise it scans from its cursor, and marks what it finds. -/
theorem pmmAllocPage_spec (h : PmmInv p) :
    (p.usedBlocks ≥ p.totalBlocks ∧ pmmAllocPage p = .ok (0, p))
    ∨ (p.usedBlocks < p.totalBlocks
      ∧ NoFit p.bit (startCursor p.lastFreeIndex p.totalBlocks) p.totalBlocks
      ∧ pmmAllocPage p = .ok (0,
        { p with lastFreeIndex := startCursor p.lastFreeIndex p.totalBlocks }))
    ∨ ∃ f, NextFit p.bit (startCursor p.lastFreeIndex p.totalBlocks) p.totalBlocks f
      ∧ f < p.totalBlocks ∧ p.bit f = false
      ∧ pmmAllocPage p = .ok (u32 (f * 4096),
        { p.marked f with lastFreeIndex := startCursor (f + 1) p.totalBlocks }) := by
  have htot := h.total_le
  by_cases hfull : p.usedBlocks ≥ p.totalBlocks
  · refine Or.inl ⟨hfull, ?_⟩
    rw [pmmAllocPage, pmmFirstFree, if_pos hfull]
    rfl
  · refine Or.inr ?_
    rcases pmmFirstFreeFrom_spec h.total_le_cover htot p.lastFreeIndex with
      ⟨f, hfit, hres⟩ | ⟨hno, hres⟩
    · have hclear := hfit.clear (startCursor_le _ _)
      refine Or.inr ⟨f, hfit, hclear.1, hclear.2, ?_⟩
      have hset := pmmSet_of_clear
        (p := { p with lastFreeIndex := startCursor p.lastFreeIndex p.totalBlocks })
        hclear.1 hclear.2
      rw [pmmAllocPage, pmmFirstFree, if_neg hfull, hres]
      simp only []
      rw [if_neg (i32_ne_neg_one (by omega)), castU32_i32 (by omega), hset,
        u32_of_lt (show f + 1 < 2 ^ 32 by omega)]
      rfl
    · refine Or.inl ⟨by omega, hno, ?_⟩
      rw [pmmAllocPage, pmmFirstFree, if_neg hfull, hres]
      rfl

/-- The frame limit `pmm_alloc_page_low` searches below. -/
def lowLimit (p : Pmm) (maxAddr : Nat) : Nat := min (maxAddr / 4096) p.totalBlocks

/-- **`pmm_alloc_page_low`**: the same below a limit, with its own cursor. -/
theorem pmmAllocPageLow_spec (h : PmmInv p) (maxAddr : Nat) :
    ((maxAddr / 4096 = 0 ∨ p.usedBlocks ≥ p.totalBlocks)
      ∧ pmmAllocPageLow p maxAddr = .ok (0, p))
    ∨ (NoFit p.bit (startCursor p.lastFreeIndexLow (lowLimit p maxAddr))
        (lowLimit p maxAddr)
      ∧ pmmAllocPageLow p maxAddr = .ok (0, { p with
        lastFreeIndexLow := startCursor p.lastFreeIndexLow (lowLimit p maxAddr) }))
    ∨ ∃ f, NextFit p.bit (startCursor p.lastFreeIndexLow (lowLimit p maxAddr))
        (lowLimit p maxAddr) f
      ∧ f < lowLimit p maxAddr ∧ p.bit f = false
      ∧ pmmAllocPageLow p maxAddr = .ok (u32 (f * 4096), { p.marked f with
        lastFreeIndexLow := startCursor (f + 1) (lowLimit p maxAddr) }) := by
  have htot := h.total_le
  by_cases hzero : maxAddr / 4096 = 0
  · refine Or.inl ⟨Or.inl hzero, ?_⟩
    rw [pmmAllocPageLow]
    exact if_pos hzero
  have hlim : (if maxAddr / 4096 > p.totalBlocks then p.totalBlocks
      else maxAddr / 4096) = lowLimit p maxAddr := by
    rw [lowLimit]
    split <;> omega
  have hle : lowLimit p maxAddr ≤ p.totalBlocks := by
    rw [lowLimit]
    omega
  have hcov := h.total_le_cover
  rw [pmmAllocPageLow]
  simp only []
  rw [if_neg hzero, hlim]
  by_cases hfull : p.usedBlocks ≥ p.totalBlocks
  · refine Or.inl ⟨Or.inr hfull, ?_⟩
    rw [pmmFirstFreeLow, if_pos hfull]
    rfl
  · refine Or.inr ?_
    rw [pmmFirstFreeLow, if_neg hfull]
    rcases pmmFirstFreeFrom_spec (p := p) (e := lowLimit p maxAddr) (by omega)
      (by omega) p.lastFreeIndexLow with ⟨f, hfit, hres⟩ | ⟨hno, hres⟩
    · have hclear := hfit.clear (startCursor_le _ _)
      refine Or.inr ⟨f, hfit, hclear.1, hclear.2, ?_⟩
      have hset := pmmSet_of_clear
        (p := { p with
          lastFreeIndexLow := startCursor p.lastFreeIndexLow (lowLimit p maxAddr) })
        (f := f) (show f < p.totalBlocks by omega) hclear.2
      rw [hres]
      simp only []
      rw [if_neg (i32_ne_neg_one (by omega)), castU32_i32 (by omega), hset,
        u32_of_lt (show f + 1 < 2 ^ 32 by omega)]
      rfl
    · refine Or.inl ⟨hno, ?_⟩
      rw [hres]
      rfl

/-! ## Freeing -/

/-- The state `pmm_free_page` leaves when it frees frame `f`. -/
def Pmm.released (p : Pmm) (f : Nat) : Pmm :=
  { p.cleared f with
    lastFreeIndex := if f < p.lastFreeIndex then f else p.lastFreeIndex
    lastFreeIndexLow := if f < p.lastFreeIndexLow then f else p.lastFreeIndexLow }

@[simp] theorem bit_released (p : Pmm) (f g : Nat) :
    (p.released f).bit g = (p.bit g && !decide (g = f)) := bit_cleared p f g

/-- **`pmm_free_page`** of a page whose frame is marked used. -/
theorem pmmFreePage_spec (h : PmmInv p) {addr : Nat} (hne : addr ≠ 0)
    (hal : addr % 4096 = 0) (hf : addr / 4096 < p.totalBlocks)
    (hb : p.bit (addr / 4096) = true) :
    pmmFreePage p addr = .ok (p.released (addr / 4096)) := by
  have hunset : pmmUnset p (addr / 4096) = .ok (p.cleared (addr / 4096)) := by
    rw [pmmUnset_eq hf (h.used_pos_of_bit hf), if_pos hb]
  rw [pmmFreePage, if_neg hne, if_neg (not_not.mpr hal)]
  simp only []
  rw [if_neg (show ¬ addr / 4096 ≥ p.totalBlocks by omega),
    if_neg ((pmmTest_ne_zero p _).mpr hb), hunset]
  show Except.ok _ = Except.ok _
  refine congrArg Except.ok ?_
  rw [Pmm.released, Pmm.cleared]
  split <;> split <;> simp_all

/-- A free that returns freed a used frame, or was a free of NULL. -/
theorem pmmFreePage_inv (h : PmmInv p) {addr : Nat}
    (hok : pmmFreePage p addr = .ok p') :
    (addr = 0 ∧ p' = p)
    ∨ (addr ≠ 0 ∧ addr % 4096 = 0 ∧ addr / 4096 < p.totalBlocks
      ∧ p.bit (addr / 4096) = true ∧ p' = p.released (addr / 4096)) := by
  by_cases h0 : addr = 0
  · rw [pmmFreePage, if_pos h0] at hok
    exact Or.inl ⟨h0, (Except.ok.inj hok).symm⟩
  by_cases hal : addr % 4096 ≠ 0
  · rw [pmmFreePage, if_neg h0, if_pos hal] at hok
    exact nomatch hok
  by_cases hf : addr / 4096 ≥ p.totalBlocks
  · rw [pmmFreePage, if_neg h0, if_neg hal] at hok
    simp only [] at hok
    rw [if_pos hf] at hok
    exact nomatch hok
  cases hb : p.bit (addr / 4096) with
  | false =>
      rw [pmmFreePage, if_neg h0, if_neg hal] at hok
      simp only [] at hok
      rw [if_neg hf, if_pos ((pmmTest_eq_zero p _).mpr hb)] at hok
      exact nomatch hok
  | true =>
      have hspec := pmmFreePage_spec h h0 (by omega) (by omega) hb
      refine Or.inr ⟨h0, by omega, by omega, rfl, ?_⟩
      rw [hspec] at hok
      exact (Except.ok.inj hok).symm

theorem PmmInv.released (h : PmmInv p) (hf : f < p.totalBlocks)
    (hb : p.bit f = true) : PmmInv (p.released f) := by
  have hc := h.cleared hf hb
  have h1 := h.cursor_le
  have h2 := h.cursorLow_le
  refine ⟨hc.total_le, hc.covers, hc.accounted, hc.padding, ?_, ?_⟩
  · show (if f < p.lastFreeIndex then f else p.lastFreeIndex) ≤ p.totalBlocks
    split <;> omega
  · show (if f < p.lastFreeIndexLow then f else p.lastFreeIndexLow) ≤ p.totalBlocks
    split <;> omega

theorem PmmInv.withCursor (h : PmmInv p) (hc : c ≤ p.totalBlocks) :
    PmmInv { p with lastFreeIndex := c } :=
  ⟨h.total_le, h.covers, h.accounted, h.padding, hc, h.cursorLow_le⟩

theorem PmmInv.withCursorLow (h : PmmInv p) (hc : c ≤ p.totalBlocks) :
    PmmInv { p with lastFreeIndexLow := c } :=
  ⟨h.total_le, h.covers, h.accounted, h.padding, h.cursor_le, hc⟩

end PyramidPmm
