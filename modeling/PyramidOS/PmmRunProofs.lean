import PyramidOS.PmmInitProofs
import PyramidOS.RunProofs

/-! # Runs of the physical memory manager

    A client of the PMM calls its functions one after the other and holds the
    pages it was given.  This file sets up such runs and has their two
    invariants:

    * `pmm_accounting` — whatever is called, the counter, the padding bits and
      the cursors stay right, and nothing panics;
    * `TightInv` — the hidden invariant of the two cursors: no frame below
      either of them is free, and frame 0 is used.  It needs clients that do
      not free regions behind the allocator's back;
    * `pmmAllocPage_outcome`, `pmmAllocPageLow_outcome` — under it both
      allocators take the LOWEST free frame below their limit. -/

namespace PyramidPmm

open ByteMem WordBitmap PyramidKernel LabelledRun

variable {p p' : Pmm} {f : Nat} {bi : BootInfo}

/-! ## Calls and runs -/

/-- One call of an exported function of `pmm.c`. -/
inductive PmmOp where
  | allocPage
  | allocPageLow (maxAddr : UInt32)
  | freePage (addr : UInt32)
  | markRegionUsed (base length : UInt64)
  | markRegionFree (base length : UInt64)
deriving DecidableEq, Repr

/-- What a call returns (0 for a `void` function) and the state it leaves. -/
def pmmCall (p : Pmm) : PmmOp → Except Halt (Nat × Pmm)
  | .allocPage => pmmAllocPage p
  | .allocPageLow maxAddr => pmmAllocPageLow p maxAddr.toNat
  | .freePage addr => (pmmFreePage p addr.toNat).map fun p => (0, p)
  | .markRegionUsed base length =>
      (pmmMarkRegionUsed p base.toNat length.toNat).map fun p => (0, p)
  | .markRegionFree base length =>
      (pmmMarkRegionFree p base.toNat length.toNat).map fun p => (0, p)

/-- The PMM and the pages its clients hold: returned by an allocation and not
    freed since. -/
structure PmmClient where
  pmm : Pmm
  held : List Nat

/-- The pages held after a call that returned `r`. -/
def heldAfter (held : List Nat) (r : Nat) : PmmOp → List Nat
  | .allocPage => if r = 0 then held else r :: held
  | .allocPageLow _ => if r = 0 then held else r :: held
  | .freePage addr => held.erase addr.toNat
  | .markRegionUsed _ _ => held
  | .markRegionFree _ _ => held

/-- A call the discipline `allow` permits, and that returns. -/
inductive PmmStep (allow : PmmClient → PmmOp → Prop) :
    PmmClient → PmmOp → PmmClient → Prop where
  | call {s : PmmClient} {op : PmmOp} {r : Nat} {p' : Pmm} :
      allow s op → pmmCall s.pmm op = .ok (r, p') →
      PmmStep allow s op ⟨p', heldAfter s.held r op⟩

/-- Allocate at will, free NULL or a page that is held. -/
def OwnerCall (s : PmmClient) : PmmOp → Prop
  | .allocPage => True
  | .allocPageLow _ => True
  | .freePage addr => addr.toNat = 0 ∨ addr.toNat ∈ s.held
  | .markRegionUsed _ _ => False
  | .markRegionFree _ _ => False

/-- As `OwnerCall`, and any region may be marked used. -/
def ReserverCall (s : PmmClient) : PmmOp → Prop
  | .allocPage => True
  | .allocPageLow _ => True
  | .freePage addr => addr.toNat = 0 ∨ addr.toNat ∈ s.held
  | .markRegionUsed _ _ => True
  | .markRegionFree _ _ => False

/-- Every call, where a free names a non-zero aligned page in range whose frame
    is marked used. -/
def AccountedCall (s : PmmClient) : PmmOp → Prop
  | .allocPage => True
  | .allocPageLow _ => True
  | .freePage addr => addr.toNat ≠ 0 ∧ addr.toNat % 4096 = 0
      ∧ addr.toNat / 4096 < s.pmm.totalBlocks ∧ s.pmm.bit (addr.toNat / 4096) = true
  | .markRegionUsed _ _ => True
  | .markRegionFree _ _ => True

/-- A stricter discipline takes fewer steps. -/
theorem PmmStep.mono {allow allow' : PmmClient → PmmOp → Prop} {s t : PmmClient}
    {op : PmmOp} (hst : PmmStep allow s op t) (hsub : ∀ s op, allow s op → allow' s op) :
    PmmStep allow' s op t := by
  cases hst with
  | call hallow hok => exact PmmStep.call (hsub _ _ hallow) hok

theorem OwnerCall.reserver {s : PmmClient} {op : PmmOp} (h : OwnerCall s op) :
    ReserverCall s op := by
  cases op with
  | allocPage => trivial
  | allocPageLow _ => trivial
  | freePage addr => exact h
  | markRegionUsed _ _ => trivial
  | markRegionFree _ _ => exact h

/-! ## Accounting -/

/-- **ACCOUNTING, ONE CALL**: an accounted call returns, and keeps the
    invariant and the geometry. -/
theorem pmmCall_accounted {s : PmmClient} {op : PmmOp} (h : PmmInv s.pmm)
    (hop : AccountedCall s op) :
    ∃ r p', pmmCall s.pmm op = .ok (r, p') ∧ PmmInv p'
      ∧ p'.totalBlocks = s.pmm.totalBlocks := by
  cases op with
  | allocPage =>
      rcases pmmAllocPage_spec h with ⟨-, hok⟩ | ⟨-, -, hok⟩ | ⟨f, -, hf, hb, hok⟩
      · exact ⟨0, s.pmm, hok, h, rfl⟩
      · exact ⟨0, _, hok, h.withCursor (startCursor_le _ _), rfl⟩
      · exact ⟨_, _, hok, (h.marked hf hb).withCursor (startCursor_le _ _), rfl⟩
  | allocPageLow maxAddr =>
      have hlim : lowLimit s.pmm maxAddr.toNat ≤ s.pmm.totalBlocks :=
        Nat.min_le_right _ _
      rcases pmmAllocPageLow_spec h maxAddr.toNat with
        ⟨-, hok⟩ | ⟨-, hok⟩ | ⟨f, -, hf, hb, hok⟩
      · exact ⟨0, s.pmm, hok, h, rfl⟩
      · exact ⟨0, _, hok,
          h.withCursorLow ((startCursor_le _ _).trans hlim), rfl⟩
      · exact ⟨_, _, hok, (h.marked (by omega) hb).withCursorLow
          ((startCursor_le _ _).trans hlim), rfl⟩
  | freePage addr =>
      obtain ⟨hne, hal, hf, hb⟩ := hop
      refine ⟨0, _, ?_, h.released hf hb, rfl⟩
      show (pmmFreePage s.pmm addr.toNat).map _ = _
      rw [pmmFreePage_spec h hne hal hf hb]
      rfl
  | markRegionUsed base length =>
      obtain ⟨p', hok, hp'⟩ := pmmMarkRegionUsed_spec h base.toNat length.toNat
      refine ⟨0, p', ?_, hp'.inv, hp'.geometry.total⟩
      show (pmmMarkRegionUsed s.pmm base.toNat length.toNat).map _ = _
      rw [hok]
      rfl
  | markRegionFree base length =>
      obtain ⟨p', hok, hp'⟩ := pmmMarkRegionFree_spec h base.toNat length.toNat
      refine ⟨0, p', ?_, hp'.inv, hp'.geometry.total⟩
      show (pmmMarkRegionFree s.pmm base.toNat length.toNat).map _ = _
      rw [hok]
      rfl

theorem PmmInv.step {s t : PmmClient} {op : PmmOp} (h : PmmInv s.pmm)
    (hst : PmmStep AccountedCall s op t) : PmmInv t.pmm := by
  cases hst with
  | call hallow hok =>
      obtain ⟨r, p', hok', hinv, -⟩ := pmmCall_accounted h hallow
      rw [hok] at hok'
      have heq := (Prod.mk.inj (Except.ok.inj hok')).2
      rw [heq]
      exact hinv

/-- **THE ACCOUNTING INVARIANT OVER RUNS**: after `pmm_init` and any sequence of
    calls, `used_blocks` counts the set bits, the padding bits are set, the
    cursors are in range, and no further call can panic. -/
theorem pmm_accounting (mem : Mem) (hbi : bi.Below4GiB) :
    ∃ p₀, pmmInit mem bi = .ok p₀ ∧
      ∀ ops s, Run (PmmStep AccountedCall) ⟨p₀, []⟩ ops s →
        s.pmm.usedBlocks = setCount s.pmm.bit s.pmm.totalBlocks
        ∧ (∀ f, s.pmm.totalBlocks ≤ f → f < 8 * s.pmm.bitmapSize → s.pmm.bit f = true)
        ∧ s.pmm.lastFreeIndex ≤ s.pmm.totalBlocks
        ∧ s.pmm.lastFreeIndexLow ≤ s.pmm.totalBlocks
        ∧ ∀ op, AccountedCall s op → ∃ r p', pmmCall s.pmm op = .ok (r, p') := by
  have htot := total_le hbi
  have hcover : bi.total ≤ 2 ^ 32 - 8 := by omega
  obtain ⟨p₀, hinit, h0, -⟩ := pmmInit_spec mem hcover
  refine ⟨p₀, hinit, fun ops s hrun => ?_⟩
  have hinv : PmmInv s.pmm :=
    hrun.invariant (I := fun s => PmmInv s.pmm) h0 fun _ _ _ hI hst => PmmInv.step hI hst
  refine ⟨hinv.accounted, hinv.padding, hinv.cursor_le, hinv.cursorLow_le, ?_⟩
  intro op hop
  obtain ⟨r, p', hok, -, -⟩ := pmmCall_accounted hinv hop
  exact ⟨r, p', hok⟩

/-- The invariant on a map with a hole and an unaligned end. -/
theorem pmm_accounting_ebda :
    ∃ p₀, pmmInit ⟨fun _ => 0, []⟩ ⟨0x8000, [⟨0, 0x9FC00, 1⟩, ⟨0x9FC00, 0x400, 2⟩]⟩
        = .ok p₀ ∧
      ∀ ops s, Run (PmmStep AccountedCall) ⟨p₀, []⟩ ops s →
        s.pmm.usedBlocks = setCount s.pmm.bit s.pmm.totalBlocks
        ∧ (∀ f, s.pmm.totalBlocks ≤ f → f < 8 * s.pmm.bitmapSize → s.pmm.bit f = true)
        ∧ s.pmm.lastFreeIndex ≤ s.pmm.totalBlocks
        ∧ s.pmm.lastFreeIndexLow ≤ s.pmm.totalBlocks
        ∧ ∀ op, AccountedCall s op → ∃ r p', pmmCall s.pmm op = .ok (r, p') :=
  pmm_accounting _ (by decide)

/-! ## The hidden invariant of the cursors -/

/-- **THE CURSOR INVARIANT**: frame 0 is never free, and neither is any frame
    below a cursor. -/
structure TightInv (p : Pmm) : Prop extends PmmInv p where
  frameZero : 0 < p.totalBlocks → p.bit 0 = true
  below : ∀ g, g < p.lastFreeIndex → p.bit g = true
  belowLow : ∀ g, g < p.lastFreeIndexLow → p.bit g = true

/-- `p'` is `p` with frame `f` handed out. -/
structure Took (f : Nat) (p p' : Pmm) : Prop where
  geometry : SameGeometry p p'
  bit : ∀ g, p'.bit g = (p.bit g || decide (g = f))

/-- With nothing free below the cursor, next fit is lowest fit. -/
theorem nextFit_isLeast {b : Nat → Bool} {c e : Nat} (hbelow : ∀ g, g < c → b g = true)
    (h : NextFit b (startCursor c e) e f) : IsLeast (clearIn b 0 e) f ∧ f < 2 ^ 31 := by
  have hle := startCursor_le_self c e
  have hset : ∀ g, g < startCursor c e → b g = true := fun g hg => hbelow g (by omega)
  rcases h with ⟨⟨hmem, hmin⟩, hlt⟩ | ⟨-, hmem, -⟩
  · refine ⟨⟨⟨Nat.zero_le f, hmem.2⟩, fun g hg => ?_⟩, hlt⟩
    by_cases hge : startCursor c e ≤ g
    · exact hmin ⟨hge, hg.2⟩
    · have hbg := hset g (by omega)
      rw [hg.2.2] at hbg
      exact absurd hbg Bool.false_ne_true
  · have hbf := hset f hmem.2.1
    rw [hmem.2.2] at hbf
    exact absurd hbf Bool.false_ne_true

/-- With nothing free below the cursor, a failed scan missed nothing. -/
theorem noFit_empty {b : Nat → Bool} {c e : Nat} (hbelow : ∀ g, g < c → b g = true)
    (h : NoFit b (startCursor c e) e) : ∀ g ∈ clearIn b 0 e, 2 ^ 31 ≤ g := by
  have hle := startCursor_le_self c e
  intro g hg
  by_cases hge : startCursor c e ≤ g
  · exact h.1 g ⟨hge, hg.2⟩
  · have hbg := hbelow g (by omega)
    rw [hg.2.2] at hbg
    exact absurd hbg Bool.false_ne_true

/-- Below the cursor an allocation leaves, nothing is free. -/
theorem set_below_startCursor {b b' : Nat → Bool} {e : Nat}
    (hf : IsLeast (clearIn b 0 e) f) (hb' : ∀ g, b' g = (b g || decide (g = f))) :
    ∀ g, g < startCursor (f + 1) e → b' g = true := by
  intro g hg
  have hle := startCursor_le_self (f + 1) e
  have hfe : f < e := hf.1.2.1
  rw [hb']
  by_cases hgf : g = f
  · rw [decide_eq_true hgf, Bool.or_true]
  · cases hbg : b g with
    | true => rfl
    | false =>
        have hmin := hf.2 ⟨Nat.zero_le g, by omega, hbg⟩
        omega

theorem set_mono {b b' : Nat → Bool} {c : Nat} (h : ∀ g, g < c → b g = true)
    (hb' : ∀ g, b' g = (b g || decide (g = f))) : ∀ g, g < c → b' g = true := by
  intro g hg
  rw [hb', h g hg]
  rfl

/-- Handing out frame `f` keeps the cursor invariant, wherever the cursors move
    as long as nothing free stays below them. -/
theorem TightInv.handedOut {c cl : Nat} (h : TightInv p) (hf : f < p.totalBlocks)
    (hb : p.bit f = false) (hc : c ≤ p.totalBlocks) (hcl : cl ≤ p.totalBlocks)
    (hbelow : ∀ g, g < c → (p.marked f).bit g = true)
    (hbelowLow : ∀ g, g < cl → (p.marked f).bit g = true) :
    TightInv { p.marked f with lastFreeIndex := c, lastFreeIndexLow := cl }
    ∧ Took f p { p.marked f with lastFreeIndex := c, lastFreeIndexLow := cl } := by
  have hinv := h.toPmmInv.marked hf hb
  have hgeo := sameGeometry_marked h.toPmmInv hf
  refine ⟨⟨(hinv.withCursor hc).withCursorLow hcl, fun hpos => ?_, hbelow, hbelowLow⟩,
    ⟨hgeo.total, hgeo.size, hgeo.writes⟩, bit_marked p f⟩
  show (p.marked f).bit 0 = true
  rw [bit_marked, h.frameZero hpos]
  rfl

/-- What an allocation below `limit` does under the cursor invariant: it takes
    the lowest free frame, or there is none that an `int32_t` can name. -/
def AllocOutcome (p : Pmm) (limit : Nat) (call : Except Halt (Nat × Pmm)) : Prop :=
  (∃ p', call = .ok (0, p') ∧ TightInv p' ∧ SameGeometry p p' ∧ p'.bit = p.bit
    ∧ ∀ g ∈ clearIn p.bit 0 limit, 2 ^ 31 ≤ g)
  ∨ ∃ f p', IsLeast (clearIn p.bit 0 limit) f ∧ f < 2 ^ 31
    ∧ call = .ok (u32 (f * 4096), p') ∧ TightInv p' ∧ Took f p p'

theorem pmmAllocPage_outcome (h : TightInv p) :
    AllocOutcome p p.totalBlocks (pmmAllocPage p) := by
  rcases pmmAllocPage_spec h.toPmmInv with
    ⟨hfull, hok⟩ | ⟨-, hno, hok⟩ | ⟨f, hfit, hf, hb, hok⟩
  · refine Or.inl ⟨p, hok, h, SameGeometry.refl p, rfl, fun g hg => ?_⟩
    have hempty := h.toPmmInv.used_ge_iff.mp hfull
    exact absurd hg (Set.eq_empty_iff_forall_notMem.mp hempty g)
  · refine Or.inl ⟨_, hok, ?_, ⟨rfl, rfl, WritesIn.refl _ _⟩, rfl, noFit_empty h.below hno⟩
    refine ⟨h.toPmmInv.withCursor (startCursor_le _ _), h.frameZero, ?_, h.belowLow⟩
    intro g hg
    have hle := startCursor_le_self p.lastFreeIndex p.totalBlocks
    exact h.below g (lt_of_lt_of_le hg hle)
  · obtain ⟨hleast, hlt⟩ := nextFit_isLeast h.below hfit
    exact Or.inr ⟨f, _, hleast, hlt, hok,
      h.handedOut hf hb (startCursor_le _ _) h.cursorLow_le
        (set_below_startCursor hleast (bit_marked p f))
        (set_mono h.belowLow (bit_marked p f))⟩

theorem pmmAllocPageLow_outcome (h : TightInv p) (maxAddr : Nat) :
    AllocOutcome p (lowLimit p maxAddr) (pmmAllocPageLow p maxAddr) := by
  have hlim : lowLimit p maxAddr ≤ p.totalBlocks := Nat.min_le_right _ _
  rcases pmmAllocPageLow_spec h.toPmmInv maxAddr with
    ⟨hnone, hok⟩ | ⟨hno, hok⟩ | ⟨f, hfit, hf, hb, hok⟩
  · refine Or.inl ⟨p, hok, h, SameGeometry.refl p, rfl, fun g hg => ?_⟩
    rcases hnone with hzero | hfull
    · have hg2 : g < lowLimit p maxAddr := hg.2.1
      rw [lowLimit, hzero] at hg2
      omega
    · have hempty := h.toPmmInv.used_ge_iff.mp hfull
      exact absurd ⟨hg.1, lt_of_lt_of_le hg.2.1 hlim, hg.2.2⟩
        (Set.eq_empty_iff_forall_notMem.mp hempty g)
  · refine Or.inl ⟨_, hok, ?_, ⟨rfl, rfl, WritesIn.refl _ _⟩, rfl,
      noFit_empty h.belowLow hno⟩
    refine ⟨h.toPmmInv.withCursorLow ((startCursor_le _ _).trans hlim),
      h.frameZero, h.below, ?_⟩
    intro g hg
    have hle := startCursor_le_self p.lastFreeIndexLow (lowLimit p maxAddr)
    exact h.belowLow g (lt_of_lt_of_le hg hle)
  · obtain ⟨hleast, hlt⟩ := nextFit_isLeast h.belowLow hfit
    exact Or.inr ⟨f, _, hleast, hlt, hok,
      h.handedOut (by omega) hb h.cursor_le ((startCursor_le _ _).trans hlim)
        (set_mono h.below (bit_marked p f))
        (set_below_startCursor hleast (bit_marked p f))⟩

/-- A free keeps the cursor invariant: it pulls both cursors back. -/
theorem TightInv.released (h : TightInv p) (h0 : f ≠ 0) (hf : f < p.totalBlocks)
    (hb : p.bit f = true) : TightInv (p.released f) := by
  -- below a cursor that is at most `f`, clearing `f` changes nothing
  have hbelow : ∀ c, (∀ g, g < c → p.bit g = true) →
      ∀ g, g < (if f < c then f else c) → (p.released f).bit g = true := by
    intro c hc g hg
    have hgf : g ≠ f ∧ g < c := by split at hg <;> omega
    rw [bit_released, hc g hgf.2, decide_eq_false hgf.1]
    rfl
  refine ⟨h.toPmmInv.released hf hb, ?_, hbelow _ h.below, hbelow _ h.belowLow⟩
  intro hpos
  rw [bit_released, h.frameZero hpos, decide_eq_false (Ne.symm h0)]
  rfl

/-- Marking a region used keeps the cursor invariant. -/
theorem TightInv.painted {S : Nat → Prop} (h : TightInv p)
    (hp : Painted true S p p') : TightInv p' := by
  refine ⟨hp.inv, ?_, ?_, ?_⟩
  · intro hpos
    rw [hp.geometry.total] at hpos
    exact hp.keeps_used (h.frameZero hpos)
  · intro g hg
    rw [hp.cursor] at hg
    exact hp.keeps_used (h.below g hg)
  · intro g hg
    rw [hp.cursorLow] at hg
    exact hp.keeps_used (h.belowLow g hg)

/-- `pmm_init` establishes the cursor invariant. -/
theorem pmmInit_tight (mem : Mem) (h : bi.total ≤ 2 ^ 32 - 8) :
    ∃ p, pmmInit mem bi = .ok p ∧ TightInv p ∧ p.totalBlocks = bi.total
      ∧ p.bitmapSize = bi.bitmapSize
      ∧ ∀ g, g < bi.total → (p.bit g = false ↔ bi.InitFree g) := by
  obtain ⟨p, hok, hinv, htot, hsize, hc, hcl, hbits⟩ := pmmInit_spec mem h
  refine ⟨p, hok, ⟨hinv, ?_, ?_, ?_⟩, htot, hsize, hbits⟩
  · intro hpos
    rw [htot] at hpos
    rw [← Bool.not_eq_false]
    intro hfree
    refine ((hbits 0 hpos).mp hfree).2 (Or.inl ?_)
    exact (inRegion_iff (by decide)).mpr ⟨by decide, hpos⟩
  · intro g hg
    rw [hc] at hg
    omega
  · intro g hg
    rw [hcl] at hg
    omega

/-- What `pmm_init` leaves when it returns. -/
theorem pmmInit_ok {mem : Mem} (hinit : pmmInit mem bi = .ok p)
    (h : bi.total ≤ 2 ^ 32 - 8) :
    TightInv p ∧ p.totalBlocks = bi.total ∧ p.bitmapSize = bi.bitmapSize
      ∧ ∀ g, g < bi.total → (p.bit g = false ↔ bi.InitFree g) := by
  obtain ⟨p', hinit', hp'⟩ := pmmInit_tight mem h
  rw [Except.ok.inj (hinit.symm.trans hinit')]
  exact hp'

end PyramidPmm
