import PyramidOS.PmmRunProofs

/-! # Who owns a page

    The allocator's contract with its clients, over whole runs:

    * `pmm_alloc_lowest_free` — the two cursors with their word scan and
      wrap-around agree, on every call, with a plain scan from frame 0;
    * `pmm_exclusive_ownership` — no allocation returns a page that is held, or
      one that overlaps what `pmm_init` locked.

    Both are read off one invariant, `ClientInv`: the cursor invariant, the
    frames `pmm_init` left used, and for every held page a used frame of its
    own. -/

namespace PyramidPmm

open ByteMem WordBitmap PyramidKernel LabelledRun

variable {p p' : Pmm} {f limit : Nat} {bi : BootInfo} {s t : PmmClient}

/-- `a` is a page address the client may free: its frame is in range, marked
    used, and was free after `pmm_init`. -/
structure HeldPage (bi : BootInfo) (p : Pmm) (a : Nat) : Prop where
  ne_zero : a ≠ 0
  aligned : a % 4096 = 0
  lt_total : a / 4096 < p.totalBlocks
  used : p.bit (a / 4096) = true
  initFree : bi.InitFree (a / 4096)

/-- **THE CLIENT INVARIANT.** -/
structure ClientInv (bi : BootInfo) (s : PmmClient) : Prop where
  tight : TightInv s.pmm
  total : s.pmm.totalBlocks = bi.total
  size : s.pmm.bitmapSize = bi.bitmapSize
  kept : ∀ g, g < bi.total → ¬ bi.InitFree g → s.pmm.bit g = true
  nodup : s.held.Nodup
  held : ∀ a ∈ s.held, HeldPage bi s.pmm a

/-- A held page stays held while bits are only set. -/
theorem HeldPage.mono {a : Nat} (h : HeldPage bi p a) (hgeo : SameGeometry p p')
    (hbit : ∀ g, p.bit g = true → p'.bit g = true) : HeldPage bi p' a := by
  refine ⟨h.ne_zero, h.aligned, ?_, hbit _ h.used, h.initFree⟩
  rw [hgeo.total]
  exact h.lt_total

/-- A call that only sets bits and returns no page keeps the invariant. -/
theorem ClientInv.grow (h : ClientInv bi s) (ht : TightInv p')
    (hgeo : SameGeometry s.pmm p') (hbit : ∀ g, s.pmm.bit g = true → p'.bit g = true) :
    ClientInv bi ⟨p', s.held⟩ :=
  ⟨ht, hgeo.total.trans h.total, hgeo.size.trans h.size,
    fun g hg hn => hbit g (h.kept g hg hn), h.nodup,
    fun a ha => (h.held a ha).mono hgeo hbit⟩

/-- A free frame was free after `pmm_init`, and is the frame of no held page. -/
theorem ClientInv.fresh (h : ClientInv bi s) (hf : f < s.pmm.totalBlocks)
    (hb : s.pmm.bit f = false) :
    f ≠ 0 ∧ bi.InitFree f ∧ ∀ a ∈ s.held, a / 4096 ≠ f := by
  refine ⟨?_, ?_, ?_⟩
  · intro h0
    rw [h0, h.tight.frameZero (by omega)] at hb
    exact Bool.false_ne_true hb.symm
  · by_contra hn
    rw [h.kept f (by rw [← h.total]; exact hf) hn] at hb
    exact Bool.false_ne_true hb.symm
  · intro a ha heq
    have hu := (h.held a ha).used
    rw [heq, hb] at hu
    exact Bool.false_ne_true hu

/-- Handing out a free frame keeps the invariant. -/
theorem ClientInv.took (h : ClientInv bi s) (hf : f < s.pmm.totalBlocks)
    (hb : s.pmm.bit f = false) (ht : TightInv p') (htook : Took f s.pmm p') :
    ClientInv bi ⟨p', f * 4096 :: s.held⟩ := by
  obtain ⟨h0, hl, hfresh⟩ := h.fresh hf hb
  have hgrow := h.grow ht htook.geometry fun g hg => by rw [htook.bit, hg]; rfl
  have hdiv : f * 4096 / 4096 = f := by omega
  refine ⟨ht, hgrow.total, hgrow.size, hgrow.kept, ?_, ?_⟩
  · refine List.nodup_cons.mpr ⟨fun hmem => hfresh _ hmem hdiv, h.nodup⟩
  · intro a ha
    rcases List.mem_cons.mp ha with heq | hmem
    · subst heq
      refine ⟨by omega, by omega, ?_, ?_, ?_⟩
      · rw [hdiv, htook.geometry.total]; exact hf
      · rw [hdiv, htook.bit, decide_eq_true rfl, Bool.or_true]
      · rw [hdiv]; exact hl
    · exact hgrow.held a hmem

/-- Freeing a held page keeps the invariant. -/
theorem ClientInv.freed (h : ClientInv bi s) {a : Nat} (ha : a ∈ s.held) :
    ClientInv bi ⟨s.pmm.released (a / 4096), s.held.erase a⟩ := by
  have hpage := h.held a ha
  have hne : a / 4096 ≠ 0 := by
    have h1 := hpage.ne_zero
    have h2 := hpage.aligned
    omega
  -- a frame other than the freed one keeps its bit
  have hkeep : ∀ g, g ≠ a / 4096 → s.pmm.bit g = true →
      (s.pmm.released (a / 4096)).bit g = true := by
    intro g hg hb
    rw [bit_released, hb, decide_eq_false hg]
    rfl
  refine ⟨h.tight.released hne hpage.lt_total hpage.used, h.total, h.size, ?_,
    h.nodup.erase a, ?_⟩
  · intro g hg hn
    refine hkeep g (fun heq => hn ?_) (h.kept g hg hn)
    rw [heq]
    exact hpage.initFree
  · intro b hb
    have hbmem : b ∈ s.held := List.mem_of_mem_erase hb
    have hbne : b ≠ a := fun heq => (h.nodup.not_mem_erase) (heq ▸ hb)
    have hbp := h.held b hbmem
    refine ⟨hbp.ne_zero, hbp.aligned, hbp.lt_total, hkeep _ ?_ hbp.used, hbp.initFree⟩
    have h1 := hbp.aligned
    have h2 := hpage.aligned
    omega

/-- The allocation outcome, in terms of the client: NULL with no free frame
    below the limit, or the lowest one, which nobody owned. -/
theorem ClientInv.alloc (h : ClientInv bi s) (hsmall : bi.total ≤ 2 ^ 20)
    (hlim : limit ≤ s.pmm.totalBlocks) {call : Except Halt (Nat × Pmm)}
    (hcall : AllocOutcome s.pmm limit call) :
    (∃ p', call = .ok (0, p') ∧ ClientInv bi ⟨p', s.held⟩ ∧ SameGeometry s.pmm p'
      ∧ p'.bit = s.pmm.bit ∧ clearIn s.pmm.bit 0 limit = ∅)
    ∨ ∃ f p', IsLeast (clearIn s.pmm.bit 0 limit) f ∧ f ≠ 0
      ∧ call = .ok (f * 4096, p') ∧ ClientInv bi ⟨p', f * 4096 :: s.held⟩
      ∧ Took f s.pmm p' := by
  have htot := h.total
  rcases hcall with ⟨p', hok, ht, hgeo, hbit, hbig⟩ | ⟨f, p', hleast, hlt, hok, ht, htook⟩
  · refine Or.inl ⟨p', hok, ?_, hgeo, hbit, ?_⟩
    · exact h.grow ht hgeo fun g hg => by rw [hbit]; exact hg
    · refine Set.eq_empty_iff_forall_notMem.mpr fun g hg => ?_
      have h1 := hbig g hg
      have h2 : g < limit := hg.2.1
      omega
  · have hfl : f < limit := hleast.1.2.1
    have hft : f < s.pmm.totalBlocks := by omega
    have hfb := hleast.1.2.2
    refine Or.inr ⟨f, p', hleast, (h.fresh hft hfb).1, ?_, h.took hft hfb ht htook, htook⟩
    rw [hok, u32_of_lt (by omega)]

/-- **ONE CALL**: a permitted call returns and keeps the invariant. -/
theorem ClientInv.call (h : ClientInv bi s) (hsmall : bi.total ≤ 2 ^ 20)
    {op : PmmOp} (hop : ReserverCall s op) :
    ∃ r p', pmmCall s.pmm op = .ok (r, p') ∧ ClientInv bi ⟨p', heldAfter s.held r op⟩ := by
  cases op with
  | allocPage =>
      rcases h.alloc hsmall (Nat.le_refl _) (pmmAllocPage_outcome h.tight) with
        ⟨p', hok, hinv, -⟩ | ⟨f, p', -, hne, hok, hinv, -⟩
      · exact ⟨0, p', hok, hinv⟩
      · refine ⟨f * 4096, p', hok, ?_⟩
        rw [heldAfter, if_neg (by omega)]
        exact hinv
  | allocPageLow maxAddr =>
      rcases h.alloc hsmall (Nat.min_le_right _ _)
        (pmmAllocPageLow_outcome h.tight maxAddr.toNat) with
        ⟨p', hok, hinv, -⟩ | ⟨f, p', -, hne, hok, hinv, -⟩
      · exact ⟨0, p', hok, hinv⟩
      · refine ⟨f * 4096, p', hok, ?_⟩
        rw [heldAfter, if_neg (by omega)]
        exact hinv
  | freePage addr =>
      by_cases hmem : addr.toNat ∈ s.held
      · have hpage := h.held _ hmem
        refine ⟨0, _, ?_, h.freed hmem⟩
        show (pmmFreePage s.pmm addr.toNat).map _ = _
        rw [pmmFreePage_spec h.tight.toPmmInv hpage.ne_zero hpage.aligned
          hpage.lt_total hpage.used]
        rfl
      · rcases hop with h0 | hmem'
        · refine ⟨0, s.pmm, ?_, ?_⟩
          · show (pmmFreePage s.pmm addr.toNat).map _ = _
            rw [pmmFreePage, if_pos h0]
            rfl
          · rw [heldAfter, List.erase_of_not_mem hmem]
            exact h
        · exact absurd hmem' hmem
  | markRegionUsed base length =>
      obtain ⟨p', hok, hp'⟩ :=
        pmmMarkRegionUsed_spec h.tight.toPmmInv base.toNat length.toNat
      refine ⟨0, p', ?_, h.grow (h.tight.painted hp') hp'.geometry fun _ => hp'.keeps_used⟩
      show (pmmMarkRegionUsed s.pmm base.toNat length.toNat).map _ = _
      rw [hok]
      rfl
  | markRegionFree base length => exact absurd hop id

theorem ClientInv.step (h : ClientInv bi s) (hsmall : bi.total ≤ 2 ^ 20) {op : PmmOp}
    (hst : PmmStep ReserverCall s op t) : ClientInv bi t := by
  cases hst with
  | call hallow hok =>
      obtain ⟨r, p', hok', hinv⟩ := h.call hsmall hallow
      rw [hok] at hok'
      obtain ⟨hr, hp⟩ := Prod.mk.inj (Except.ok.inj hok')
      rw [hr, hp]
      exact hinv

/-- `pmm_init` establishes the client invariant, with nothing held. -/
theorem clientInv_of_init {mem : Mem} {p₀ : Pmm} (hinit : pmmInit mem bi = .ok p₀)
    (hcover : bi.total ≤ 2 ^ 32 - 8) : ClientInv bi ⟨p₀, []⟩ := by
  obtain ⟨ht, htotal, hsize, hbits⟩ := pmmInit_ok hinit hcover
  refine ⟨ht, htotal, hsize, ?_, List.nodup_nil, fun a ha => (nomatch ha)⟩
  intro g hg hn
  rw [← Bool.not_eq_false]
  intro hfree
  exact hn ((hbits g hg).mp hfree)

theorem pmmInit_clientInv (mem : Mem) (hbi : bi.Below4GiB) :
    ∃ p₀, pmmInit mem bi = .ok p₀ ∧ ClientInv bi ⟨p₀, []⟩ := by
  have htot := total_le hbi
  have hcover : bi.total ≤ 2 ^ 32 - 8 := by omega
  obtain ⟨p₀, hinit, -⟩ := pmmInit_tight mem hcover
  exact ⟨p₀, hinit, clientInv_of_init hinit hcover⟩

theorem ClientInv.run (hsmall : bi.total ≤ 2 ^ 20) {ops : List PmmOp} {p₀ : Pmm}
    (h0 : ClientInv bi ⟨p₀, []⟩) (hrun : Run (PmmStep ReserverCall) ⟨p₀, []⟩ ops s) :
    ClientInv bi s :=
  hrun.invariant h0 fun _ _ _ hI hst => hI.step hsmall hst

/-- The same for clients that mark no region. -/
theorem ClientInv.runOwner (hsmall : bi.total ≤ 2 ^ 20) {ops : List PmmOp} {p₀ : Pmm}
    (h0 : ClientInv bi ⟨p₀, []⟩) (hrun : Run (PmmStep OwnerCall) ⟨p₀, []⟩ ops s) :
    ClientInv bi s :=
  ClientInv.run hsmall h0 (hrun.mono fun _ _ _ hst => hst.mono fun _ _ => OwnerCall.reserver)

/-! ## Lowest free frame -/

/-- A call returns the page of the lowest frame below `limit` whose bit is clear,
    and 0 exactly when there is none. -/
def AgreesWithPlainScan (p : Pmm) (limit : Nat) (call : Except Halt (Nat × Pmm)) : Prop :=
  ∃ a p', call = .ok (a, p') ∧ (a = 0 ↔ ∀ g, g < limit → p.bit g = true)
    ∧ (a ≠ 0 → ∃ f, IsLeast {g | g < limit ∧ p.bit g = false} f ∧ a = f * 4096)

theorem ClientInv.agrees (h : ClientInv bi s) (hsmall : bi.total ≤ 2 ^ 20)
    (hlim : limit ≤ s.pmm.totalBlocks) {call : Except Halt (Nat × Pmm)}
    (hcall : AllocOutcome s.pmm limit call) : AgreesWithPlainScan s.pmm limit call := by
  rcases h.alloc hsmall hlim hcall with
    ⟨p', hok, -, -, -, hempty⟩ | ⟨f, p', hleast, hne, hok, -, -⟩
  · refine ⟨0, p', hok, ⟨fun _ g hg => ?_, fun _ => rfl⟩, fun hc => absurd rfl hc⟩
    rw [← Bool.not_eq_false]
    intro hb
    exact Set.eq_empty_iff_forall_notMem.mp hempty g ⟨Nat.zero_le g, hg, hb⟩
  · refine ⟨f * 4096, p', hok, ⟨fun hc => absurd hc (by omega), fun hall => ?_⟩, fun _ => ?_⟩
    · have hset := hall f hleast.1.2.1
      rw [hleast.1.2.2] at hset
      exact absurd hset Bool.false_ne_true
    · exact ⟨f, ⟨hleast.1.2, fun g hg => hleast.2 ⟨Nat.zero_le g, hg⟩⟩, rfl⟩

/-- **NEXT FIT NEVER SKIPS A LOWER FREE FRAME**: in every state a run reaches,
    both allocators agree with a plain scan from frame 0. -/
theorem pmm_alloc_lowest_free (mem : Mem) (hbi : bi.Below4GiB) :
    ∃ p₀, pmmInit mem bi = .ok p₀ ∧
      ∀ ops s, Run (PmmStep ReserverCall) ⟨p₀, []⟩ ops s →
        AgreesWithPlainScan s.pmm s.pmm.totalBlocks (pmmAllocPage s.pmm)
        ∧ ∀ m : UInt32, AgreesWithPlainScan s.pmm
            (min (m.toNat / 4096) s.pmm.totalBlocks) (pmmAllocPageLow s.pmm m.toNat) := by
  have hsmall := total_le hbi
  obtain ⟨p₀, hinit, h0⟩ := pmmInit_clientInv mem hbi
  refine ⟨p₀, hinit, fun ops s hrun => ?_⟩
  have h := ClientInv.run hsmall h0 hrun
  refine ⟨h.agrees hsmall (Nat.le_refl _) (pmmAllocPage_outcome h.tight), fun m => ?_⟩
  exact h.agrees hsmall (Nat.min_le_right _ _) (pmmAllocPageLow_outcome h.tight m.toNat)

/-- The same on a map with a hole and an unaligned end. -/
theorem pmm_alloc_lowest_free_ebda :
    ∃ p₀, pmmInit ⟨fun _ => 0, []⟩ ⟨0x8000, [⟨0, 0x9FC00, 1⟩, ⟨0x9FC00, 0x400, 2⟩]⟩
        = .ok p₀ ∧
      ∀ ops s, Run (PmmStep ReserverCall) ⟨p₀, []⟩ ops s →
        AgreesWithPlainScan s.pmm s.pmm.totalBlocks (pmmAllocPage s.pmm)
        ∧ ∀ m : UInt32, AgreesWithPlainScan s.pmm
            (min (m.toNat / 4096) s.pmm.totalBlocks) (pmmAllocPageLow s.pmm m.toNat) :=
  pmm_alloc_lowest_free _ (by decide)

/-! ## Exclusive ownership -/

/-- A page outside the locks overlaps none of the four locked byte ranges. -/
theorem not_overlaps_of_unlocked (hsmall : bi.total ≤ 2 ^ 20) (hf : f < bi.total)
    (hl : ¬ bi.Locked f) :
    ¬ PageOverlaps (f * 4096) 0 0x1000
    ∧ ¬ PageOverlaps (f * 4096) 0x10000 bi.kernelSize.toNat
    ∧ ¬ PageOverlaps (f * 4096) pmmBitmapBase bi.bitmapSize
    ∧ ¬ PageOverlaps (f * 4096) 0x5000 0x1000 := by
  have hk : bi.kernelSize.toNat < 2 ^ 32 := bi.kernelSize.toNat_lt
  have hcover : bi.total ≤ 2 ^ 32 - 8 := by omega
  have hsize := bitmapSize_eq hcover
  rw [Nat.mul_comm f 4096]
  refine ⟨fun ho => hl (Or.inl ?_), fun ho => hl (Or.inr (Or.inl ?_)),
    fun ho => hl (Or.inr (Or.inr (Or.inl ?_))), fun ho => hl (Or.inr (Or.inr (Or.inr ?_)))⟩
  · exact (inRegion_iff (by decide)).mpr ⟨ho, hf⟩
  · exact (inRegion_iff (by omega)).mpr ⟨ho, hf⟩
  · exact (inRegion_iff (show 0x20000 + bi.bitmapSize + 4095 < 2 ^ 64 by omega)).mpr ⟨ho, hf⟩
  · exact (inRegion_iff (by decide)).mpr ⟨ho, hf⟩

/-- The two allocation calls. -/
def PmmOp.IsAlloc : PmmOp → Prop
  | .allocPage => True
  | .allocPageLow _ => True
  | .freePage _ => False
  | .markRegionUsed _ _ => False
  | .markRegionFree _ _ => False

/-- **EXCLUSIVE OWNERSHIP**: in every state a run reaches, an allocation that
    returns a page returns one that is not held and overlaps nothing the kernel
    reserved; one that returns NULL has handed out no frame. -/
theorem pmm_exclusive_ownership (mem : Mem) (hbi : bi.Below4GiB) :
    ∃ p₀, pmmInit mem bi = .ok p₀ ∧
      ∀ ops s, Run (PmmStep OwnerCall) ⟨p₀, []⟩ ops s → ∀ op : PmmOp, op.IsAlloc →
        ∃ r p', pmmCall s.pmm op = .ok (r, p')
          ∧ (r = 0 → ∀ g, p'.bit g = s.pmm.bit g)
          ∧ (r ≠ 0 → r ∉ s.held ∧ (∀ a ∈ s.held, ¬ PageOverlaps r a 4096)
            ∧ ¬ PageOverlaps r 0 0x1000
            ∧ ¬ PageOverlaps r 0x10000 bi.kernelSize.toNat
            ∧ ¬ PageOverlaps r 0x20000 s.pmm.bitmapSize
            ∧ ¬ PageOverlaps r 0x5000 0x1000) := by
  have hsmall := total_le hbi
  obtain ⟨p₀, hinit, h0⟩ := pmmInit_clientInv mem hbi
  refine ⟨p₀, hinit, fun ops s hrun op hop => ?_⟩
  have h := ClientInv.runOwner hsmall h0 hrun
  -- the conclusion for any allocation outcome below a limit in range
  have hmain : ∀ limit, limit ≤ s.pmm.totalBlocks →
      AllocOutcome s.pmm limit (pmmCall s.pmm op) →
      ∃ r p', pmmCall s.pmm op = .ok (r, p')
        ∧ (r = 0 → ∀ g, p'.bit g = s.pmm.bit g)
        ∧ (r ≠ 0 → r ∉ s.held ∧ (∀ a ∈ s.held, ¬ PageOverlaps r a 4096)
          ∧ ¬ PageOverlaps r 0 0x1000
          ∧ ¬ PageOverlaps r 0x10000 bi.kernelSize.toNat
          ∧ ¬ PageOverlaps r 0x20000 s.pmm.bitmapSize
          ∧ ¬ PageOverlaps r 0x5000 0x1000) := by
    intro limit hlim hcall
    rcases h.alloc hsmall hlim hcall with
      ⟨p', hok, -, -, hbit, -⟩ | ⟨f, p', hleast, hne, hok, -, -⟩
    · exact ⟨0, p', hok, fun _ g => by rw [hbit], fun hc => absurd rfl hc⟩
    · have hfl : f < limit := hleast.1.2.1
      obtain ⟨-, hinit, hfresh⟩ := h.fresh (f := f) (by omega) hleast.1.2.2
      refine ⟨f * 4096, p', hok, fun hc => absurd hc (by omega), fun _ => ⟨?_, ?_, ?_⟩⟩
      · exact fun hmem => hfresh _ hmem (by omega)
      · intro a ha ho
        have hal := (h.held a ha).aligned
        rw [pageOverlaps_iff] at ho
        exact hfresh a ha (by omega)
      · rw [h.size]
        exact not_overlaps_of_unlocked hsmall (by rw [← h.total]; omega) hinit.2
  cases op with
  | allocPage => exact hmain _ (Nat.le_refl _) (pmmAllocPage_outcome h.tight)
  | allocPageLow m =>
      exact hmain _ (Nat.min_le_right _ _) (pmmAllocPageLow_outcome h.tight m.toNat)
  | freePage _ => exact absurd hop id
  | markRegionUsed _ _ => exact absurd hop id
  | markRegionFree _ _ => exact absurd hop id

/-- The same on a map with a hole and an unaligned end. -/
theorem pmm_exclusive_ownership_ebda :
    ∃ p₀, pmmInit ⟨fun _ => 0, []⟩ ⟨0x8000, [⟨0, 0x9FC00, 1⟩, ⟨0x9FC00, 0x400, 2⟩]⟩
        = .ok p₀ ∧
      ∀ ops s, Run (PmmStep OwnerCall) ⟨p₀, []⟩ ops s → ∀ op : PmmOp, op.IsAlloc →
        ∃ r p', pmmCall s.pmm op = .ok (r, p')
          ∧ (r = 0 → ∀ g, p'.bit g = s.pmm.bit g)
          ∧ (r ≠ 0 → r ∉ s.held ∧ (∀ a ∈ s.held, ¬ PageOverlaps r a 4096)
            ∧ ¬ PageOverlaps r 0 0x1000
            ∧ ¬ PageOverlaps r 0x10000 0x8000
            ∧ ¬ PageOverlaps r 0x20000 s.pmm.bitmapSize
            ∧ ¬ PageOverlaps r 0x5000 0x1000) :=
  pmm_exclusive_ownership _ (by decide)

end PyramidPmm
