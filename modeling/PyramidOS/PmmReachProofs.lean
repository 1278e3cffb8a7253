import PyramidOS.PmmOwnerProofs

/-! # What the allocator can hand out

    Every frame that `pmm_init` leaves free is handed out sooner or later, so
    what `pmm_init` leaves free decides what clients can receive:

    * `exists_run_to_lowest` — allocating page after page leads to a state in
      which a given free frame is the next one, and `exists_run_to_initFree` says
      so of every frame `pmm_init` leaves free;
    * `pmm_page_identifies_frame` — an address decodes to the frame it was made
      from, in every run, exactly when no frame from 2^20 on was left free.
      The address of such a frame does not fit 32 bits. -/

namespace PyramidPmm

open ByteMem WordBitmap PyramidKernel LabelledRun

variable {p p' : Pmm} {f : Nat} {bi : BootInfo} {s t : PmmClient}

/-! ## Every free frame is reached -/

/-- **DRAINING**: from any state, allocating pages one after the other leads to
    a state in which a given free frame is the lowest free one. -/
theorem exists_run_to_lowest {allow : PmmClient → PmmOp → Prop}
    (hallow : ∀ s, allow s .allocPage) (hf31 : f < 2 ^ 31) :
    ∀ (n : Nat) (s : PmmClient), TightInv s.pmm → f < s.pmm.totalBlocks →
      s.pmm.bit f = false → f - setCount s.pmm.bit f = n →
      ∃ ops t, Run (PmmStep allow) s ops t ∧ TightInv t.pmm
        ∧ t.pmm.totalBlocks = s.pmm.totalBlocks
        ∧ IsLeast (clearIn t.pmm.bit 0 t.pmm.totalBlocks) f := by
  intro n
  induction n with
  | zero =>
      intro s h hf hb hn
      refine ⟨[], s, Run.nil, h, rfl, ⟨Nat.zero_le f, hf, hb⟩, fun g hg => ?_⟩
      by_contra hlt
      have hcount := setCount_lt (p := s.pmm.bit) (Nat.lt_of_not_le hlt) hg.2.2
      omega
  | succ n ih =>
      intro s h hf hb hn
      rcases pmmAllocPage_outcome h with ⟨p', -, -, -, -, hbig⟩ |
        ⟨g, p', hleast, -, hok, ht, htook⟩
      · have hge := hbig f ⟨Nat.zero_le f, hf, hb⟩
        omega
      · by_cases hgf : g = f
        · rw [hgf] at hleast
          exact ⟨[], s, Run.nil, h, rfl, hleast⟩
        · have hle : g ≤ f := hleast.2 ⟨Nat.zero_le f, hf, hb⟩
          have hlt : g < f := Nat.lt_of_le_of_ne hle hgf
          have hb' : p'.bit f = false := by
            rw [htook.bit, hb, decide_eq_false (Ne.symm hgf)]
            rfl
          have hcount : setCount p'.bit f = setCount s.pmm.bit f + 1 :=
            setCount_set hlt hleast.1.2.2 htook.bit
          have htot := htook.geometry.total
          obtain ⟨ops, t, hrun, hT, htt, hl⟩ := ih
            ⟨p', heldAfter s.held (u32 (g * 4096)) .allocPage⟩ ht
            (by show f < p'.totalBlocks; omega) hb'
            (by show f - setCount p'.bit f = n; omega)
          have hstep : PmmStep allow s .allocPage
              ⟨p', heldAfter s.held (u32 (g * 4096)) .allocPage⟩ :=
            PmmStep.call (hallow s) hok
          exact ⟨_, t, (Run.single hstep).append hrun, hT, htt.trans htot, hl⟩

/-- So every frame `pmm_init` leaves free comes up, up to what an `int32_t` can
    name. -/
theorem exists_run_to_initFree {allow : PmmClient → PmmOp → Prop} {mem : Mem} {p₀ : Pmm}
    (hallow : ∀ s, allow s .allocPage) (hinit : pmmInit mem bi = .ok p₀)
    (hcover : bi.total ≤ 2 ^ 32 - 8) (hf31 : f < 2 ^ 31) (hfree : bi.InitFree f) :
    ∃ ops t, Run (PmmStep allow) ⟨p₀, []⟩ ops t ∧ TightInv t.pmm
      ∧ IsLeast (clearIn t.pmm.bit 0 t.pmm.totalBlocks) f := by
  obtain ⟨ht, htot, -, hbits⟩ := pmmInit_ok hinit hcover
  have hlt := hfree.1.lt_total
  obtain ⟨ops, t, hrun, hT, -, hleast⟩ := exists_run_to_lowest hallow hf31 _ ⟨p₀, []⟩ ht
    (Nat.lt_of_lt_of_eq hlt htot.symm) ((hbits f hlt).mpr hfree) rfl
  exact ⟨ops, t, hrun, hT, hleast⟩

/-- In a state whose lowest free frame is `f`, `pmm_alloc_page` takes `f`. -/
theorem pmmAllocPage_takes (h : TightInv p) (hf31 : f < 2 ^ 31)
    (hleast : IsLeast (clearIn p.bit 0 p.totalBlocks) f) :
    ∃ p', pmmAllocPage p = .ok (u32 (f * 4096), p') ∧ Took f p p' := by
  rcases pmmAllocPage_outcome h with ⟨p', -, -, -, -, hbig⟩ | ⟨g, p', hg, -, hok, -, htook⟩
  · have hge := hbig f hleast.1
    omega
  · have hgf : g = f := hg.unique hleast
    rw [hgf] at hok htook
    exact ⟨p', hok, htook⟩

/-! ## Addresses and frames -/

/-- Allocate at will, and free anything that does not panic. -/
def AllocFreeCall (_ : PmmClient) : PmmOp → Prop
  | .allocPage => True
  | .allocPageLow _ => True
  | .freePage _ => True
  | .markRegionUsed _ _ => False
  | .markRegionFree _ _ => False

/-- `pmm_alloc_page` returns an address only if it marked a frame, and when it
    marked one the address is not 0 and decodes to that frame, and freeing it
    clears that frame's bit only. -/
def PageIdentifiesFrame (p : Pmm) : Prop :=
  ∀ a p', pmmAllocPage p = .ok (a, p') →
    (a ≠ 0 → ∃ f, p.bit f = false ∧ p'.bit f = true)
    ∧ ∀ f, p.bit f = false → p'.bit f = true →
      a ≠ 0 ∧ a / 4096 = f
        ∧ ∃ p'', pmmFreePage p' a = .ok p''
          ∧ ∀ g, p''.bit g = if g = f then false else p'.bit g

/-- No frame between 4 GiB and 8 TiB is free after `pmm_init`.  When the map is
    so large that the computation of `bitmap_size` wraps to 0, the scans see no
    frame at all. -/
def BootInfo.AddressesFit (bi : BootInfo) : Prop :=
  2 ^ 32 - 8 < bi.total
  ∨ ∀ g, 2 ^ 20 ≤ g → g < 2 ^ 31 → bi.Usable g → bi.Locked g

/-- A frame below 2^20 has an address that decodes to it. -/
theorem pageIdentifiesFrame_of_low (h : TightInv p)
    (hlow : ∀ g, g < p.totalBlocks → p.bit g = false → g < 2 ^ 31 → g < 2 ^ 20) :
    PageIdentifiesFrame p := by
  intro a p' hok
  rcases pmmAllocPage_outcome h with
    ⟨q, hok', -, -, hbit, -⟩ | ⟨g, q, hleast, hg31, hok', ht, htook⟩
  · rw [hok] at hok'
    obtain ⟨ha, hq⟩ := Prod.mk.inj (Except.ok.inj hok')
    refine ⟨fun hne => absurd ha hne, fun f hb hb' => ?_⟩
    rw [hq, hbit, hb] at hb'
    exact absurd hb' Bool.false_ne_true
  · rw [hok] at hok'
    obtain ⟨ha, hq⟩ := Prod.mk.inj (Except.ok.inj hok')
    have hmark : p'.bit g = true := by
      rw [hq, htook.bit, decide_eq_true rfl, Bool.or_true]
    refine ⟨fun _ => ⟨g, hleast.1.2.2, hmark⟩, fun f hb hb' => ?_⟩
    have hgt : g < p.totalBlocks := hleast.1.2.1
    have hfg : f = g := by
      rw [hq, htook.bit, hb, Bool.false_or] at hb'
      exact of_decide_eq_true hb'
    have hg20 := hlow g hgt hleast.1.2.2 hg31
    have hg0 : g ≠ 0 := by
      intro h0
      have hz := hleast.1.2.2
      rw [h0, h.frameZero (by omega)] at hz
      exact Bool.false_ne_true hz.symm
    rw [u32_of_lt (by omega)] at ha
    have hdiv : a / 4096 = g := by omega
    refine ⟨by omega, by omega, q.released g, ?_, fun k => ?_⟩
    · rw [hq, ← hdiv]
      refine pmmFreePage_spec ht.toPmmInv (by omega) (by omega) ?_ ?_
      · rw [hdiv, htook.geometry.total]
        exact hgt
      · rw [hdiv, htook.bit, decide_eq_true rfl, Bool.or_true]
    · rw [bit_released, hq, hfg]
      by_cases hk : k = g
      · rw [if_pos hk, decide_eq_true hk]
        exact Bool.and_false _
      · rw [if_neg hk, decide_eq_false hk]
        exact Bool.and_true _

/-- A frame from 2^20 on does not survive the round trip through an address. -/
theorem not_pageIdentifiesFrame_of_high (h : TightInv p) (hf20 : 2 ^ 20 ≤ f)
    (hf31 : f < 2 ^ 31) (hleast : IsLeast (clearIn p.bit 0 p.totalBlocks) f) :
    ¬ PageIdentifiesFrame p := by
  intro hid
  obtain ⟨p', hok, htook⟩ := pmmAllocPage_takes h hf31 hleast
  have hb' : p'.bit f = true := by
    rw [htook.bit, decide_eq_true rfl, Bool.or_true]
  obtain ⟨-, hdiv, -⟩ := (hid _ p' hok).2 f hleast.1.2.2 hb'
  have hlt := u32_lt (f * 4096)
  omega

/-- What allocations and frees keep: the cursor invariant, and no new free frame
    from 2^20 on, since a freed address is below 2^32. -/
structure LowFree (s : PmmClient) : Prop where
  tight : TightInv s.pmm
  low : ∀ g, g < s.pmm.totalBlocks → s.pmm.bit g = false → g < 2 ^ 31 → g < 2 ^ 20

theorem LowFree.grow {held : List Nat} (h : LowFree s) (ht : TightInv p')
    (htot : p'.totalBlocks = s.pmm.totalBlocks)
    (hbit : ∀ g, p'.bit g = false → s.pmm.bit g = false) : LowFree ⟨p', held⟩ :=
  ⟨ht, fun g hg hb => h.low g (htot ▸ hg) (hbit g hb)⟩

theorem LowFree.alloc {held : List Nat} {limit r : Nat}
    {call : Except Halt (Nat × Pmm)} (h : LowFree s)
    (hcall : AllocOutcome s.pmm limit call) (hok : call = .ok (r, p')) :
    LowFree ⟨p', held⟩ := by
  rcases hcall with ⟨q, hok', ht, hgeo, hbit, -⟩ | ⟨g, q, -, -, hok', ht, htook⟩
  · rw [hok] at hok'
    rw [(Prod.mk.inj (Except.ok.inj hok')).2]
    exact h.grow ht hgeo.total fun k hk => by rw [hbit] at hk; exact hk
  · rw [hok] at hok'
    rw [(Prod.mk.inj (Except.ok.inj hok')).2]
    refine h.grow ht htook.geometry.total fun k hk => ?_
    rw [htook.bit] at hk
    exact (Bool.or_eq_false_iff.mp hk).1

theorem LowFree.step {op : PmmOp} (h : LowFree s)
    (hst : PmmStep AllocFreeCall s op t) : LowFree t := by
  cases hst with
  | call hallow hok =>
      cases op with
      | allocPage => exact h.alloc (pmmAllocPage_outcome h.tight) hok
      | allocPageLow m => exact h.alloc (pmmAllocPageLow_outcome h.tight m.toNat) hok
      | freePage addr =>
          cases hfree : pmmFreePage s.pmm addr.toNat with
          | error e =>
              rw [pmmCall, hfree] at hok
              exact nomatch hok
          | ok q =>
              rw [pmmCall, hfree] at hok
              have hq := (Prod.mk.inj (Except.ok.inj hok)).2
              have haddr : addr.toNat < 2 ^ 32 := addr.toNat_lt
              rcases pmmFreePage_inv h.tight.toPmmInv hfree with
                ⟨-, heq⟩ | ⟨hne, hal, hf, hb, heq⟩
              · rw [← hq, heq]
                exact ⟨h.tight, h.low⟩
              · rw [← hq, heq]
                refine ⟨h.tight.released (by omega) hf hb, fun g hg hbg hg31 => ?_⟩
                rw [bit_released] at hbg
                by_cases hga : g = addr.toNat / 4096
                · omega
                · rw [decide_eq_false hga] at hbg
                  exact h.low g hg ((Bool.and_true _).symm.trans hbg) hg31
      | markRegionUsed _ _ => exact absurd hallow id
      | markRegionFree _ _ => exact absurd hallow id

/-! ### The blind allocator

    From `total_blocks = 2^32 - 7` on, `(total_blocks + 7) / 8` wraps to 0 and
    `pmm_bitmap_word` reads every byte as used. -/

theorem pmmCandidates_blind (h : p.bitmapSize = 0) (s e w : Nat) :
    pmmCandidates p s e w = 0#32 := by
  have hbyte : ∀ i, pmmBitmapWordByte p i = 0xFF#8 := by
    intro i
    rw [pmmBitmapWordByte, if_neg (by omega)]
  have hword : pmmBitmapWord p w = 0xFFFFFFFF#32 := by
    rw [pmmBitmapWord]
    simp only [hbyte]
    rfl
  rw [pmmCandidates, hword]
  exact BitVec.zero_and

theorem pmmScanWords_blind (h : p.bitmapSize = 0) (s e : Nat) :
    ∀ words w, pmmScanWords p s e w words = -1 := by
  intro words
  induction words with
  | zero => intro w; rfl
  | succ n ih =>
      intro w
      show (if pmmCandidates p s e w ≠ 0#32 then _ else pmmScanWords p s e (w + 1) n) = _
      rw [if_neg (not_not.mpr (pmmCandidates_blind h s e w))]
      exact ih (w + 1)

theorem pmmFindFreeInRange_blind (h : p.bitmapSize = 0) (s e : Nat) :
    pmmFindFreeInRange p s e = -1 := by
  rw [pmmFindFreeInRange]
  split
  · rfl
  · exact pmmScanWords_blind h s e _ _

theorem pmmFirstFreeFrom_blind (h : p.bitmapSize = 0) (c e : Nat) :
    pmmFirstFreeFrom p c e = (-1, startCursor c e) := by
  show (if pmmFindFreeInRange p (startCursor c e) e ≥ 0 then _
    else (pmmFindFreeInRange p 0 (startCursor c e), startCursor c e)) = _
  rw [pmmFindFreeInRange_blind h, if_neg (by decide), pmmFindFreeInRange_blind h]

/-- A blind allocator returns NULL and moves at most its cursor. -/
theorem pmmAllocPage_blind (h : p.bitmapSize = 0) :
    ∃ c, pmmAllocPage p = .ok (0, { p with lastFreeIndex := c }) := by
  by_cases hfull : p.usedBlocks ≥ p.totalBlocks
  · rw [pmmAllocPage, pmmFirstFree, if_pos hfull]
    exact ⟨p.lastFreeIndex, rfl⟩
  · rw [pmmAllocPage, pmmFirstFree, if_neg hfull, pmmFirstFreeFrom_blind h]
    exact ⟨_, rfl⟩

theorem pmmAllocPageLow_blind (h : p.bitmapSize = 0) (maxAddr : Nat) :
    ∃ c, pmmAllocPageLow p maxAddr = .ok (0, { p with lastFreeIndexLow := c }) := by
  by_cases hzero : maxAddr / pmmPageSize = 0
  · rw [pmmAllocPageLow, if_pos hzero]
    exact ⟨p.lastFreeIndexLow, rfl⟩
  · rw [pmmAllocPageLow]
    simp only []
    rw [if_neg hzero]
    by_cases hfull : p.usedBlocks ≥ p.totalBlocks
    · rw [pmmFirstFreeLow, if_pos hfull]
      exact ⟨p.lastFreeIndexLow, rfl⟩
    · rw [pmmFirstFreeLow, if_neg hfull, pmmFirstFreeFrom_blind h]
      exact ⟨_, rfl⟩

/-- `op` never resizes the bitmap. -/
def KeepsSize (op : Pmm → Nat → Except Halt Pmm) : Prop :=
  ∀ p f p', op p f = .ok p' → p'.bitmapSize = p.bitmapSize

/-- `pmm_set` resizes nothing. -/
theorem pmmSet_sizes (h : pmmSet p f = .ok p') :
    p'.bitmapSize = p.bitmapSize ∧ p'.totalBlocks = p.totalBlocks := by
  rw [pmmSet] at h
  split at h
  · cases h
  · simp only [] at h
    split at h
    · rw [← Except.ok.inj h]
      exact ⟨rfl, rfl⟩
    · rw [← Except.ok.inj h]
      exact ⟨rfl, rfl⟩

/-- `pmm_unset` resizes nothing. -/
theorem pmmUnset_sizes (h : pmmUnset p f = .ok p') :
    p'.bitmapSize = p.bitmapSize ∧ p'.totalBlocks = p.totalBlocks := by
  rw [pmmUnset] at h
  split at h
  · cases h
  · simp only [] at h
    split at h
    · split at h
      · cases h
      · rw [← Except.ok.inj h]
        exact ⟨rfl, rfl⟩
    · rw [← Except.ok.inj h]
      exact ⟨rfl, rfl⟩

theorem pmmSet_keepsSize : KeepsSize pmmSet := fun _ _ _ h => (pmmSet_sizes h).1

theorem pmmUnset_keepsSize : KeepsSize pmmUnset := fun _ _ _ h => (pmmUnset_sizes h).1

/-! What no operation on a frame moves, no region call and no `pmm_init` moves; `get`
reads it. -/

section Kept

variable {get : Pmm → Nat} {op : Pmm → Nat → Except Halt Pmm}

theorem pmmForFrames_kept (hop : ∀ p f p', op p f = .ok p' → get p' = get p) :
    ∀ (count : Nat) (p : Pmm) (frame : Nat) (p' : Pmm),
      pmmForFrames op p frame count = .ok p' → get p' = get p := by
  intro count
  induction count with
  | zero => intro p frame p' h; rw [← Except.ok.inj h]
  | succ n ih =>
      intro p frame p' h
      obtain ⟨q, hq, hrest⟩ := bind_ok h
      exact (ih q _ p' hrest).trans (hop p _ q hq)

theorem pmmMarkRegion_kept (hop : ∀ p f p', op p f = .ok p' → get p' = get p)
    {base length : Nat} (h : pmmMarkRegion op p base length = .ok p') : get p' = get p := by
  rw [pmmMarkRegion] at h
  split at h
  · rw [← Except.ok.inj h]
  · exact pmmForFrames_kept hop _ p _ p' h

theorem pmmFreeUsable_kept (hunset : ∀ p f p', pmmUnset p f = .ok p' → get p' = get p) :
    ∀ (mmap : List E820Entry) (p p' : Pmm), pmmFreeUsable p mmap = .ok p' → get p' = get p := by
  intro mmap
  induction mmap with
  | nil => intro p p' h; rw [← Except.ok.inj h]
  | cons e rest ih =>
      intro p p' h
      by_cases htype : e.type = 1
      · rw [pmmFreeUsable, if_pos htype] at h
        obtain ⟨q, hq, hrest⟩ := bind_ok h
        exact (ih q p' hrest).trans (pmmMarkRegion_kept hunset hq)
      · rw [pmmFreeUsable, if_neg htype] at h
        exact ih p p' h

theorem pmmInit_kept {mem : Mem} (hset : ∀ p f p', pmmSet p f = .ok p' → get p' = get p)
    (hunset : ∀ p f p', pmmUnset p f = .ok p' → get p' = get p)
    (h : pmmInit mem bi = .ok p) : get p = get (pmmInitAllUsed mem bi.mmap) := by
  obtain ⟨p1, h1, h⟩ := bind_ok h
  obtain ⟨p2, h2, h⟩ := bind_ok h
  obtain ⟨p3, h3, h⟩ := bind_ok h
  obtain ⟨p4, h4, h5⟩ := bind_ok h
  have e1 := pmmFreeUsable_kept hunset _ _ _ h1
  have e2 := (pmmMarkRegion_kept hset h2).trans e1
  have e3 := (pmmMarkRegion_kept hset h3).trans e2
  have e4 := (pmmMarkRegion_kept hset h4).trans e3
  exact (pmmMarkRegion_kept hset h5).trans e4

end Kept

/-- Whatever the map, `pmm_init` leaves the sizes it computed. -/
theorem pmmInit_size {mem : Mem} (h : pmmInit mem bi = .ok p) :
    p.bitmapSize = bi.bitmapSize :=
  pmmInit_kept pmmSet_keepsSize pmmUnset_keepsSize h

theorem pmmInit_total {mem : Mem} (h : pmmInit mem bi = .ok p) : p.totalBlocks = bi.total :=
  pmmInit_kept (fun _ _ _ hq => (pmmSet_sizes hq).2) (fun _ _ _ hq => (pmmUnset_sizes hq).2) h

theorem pmmFreePage_size {addr : Nat} (h : pmmFreePage p addr = .ok p') :
    p'.bitmapSize = p.bitmapSize := by
  rw [pmmFreePage] at h
  split at h
  · rw [← Except.ok.inj h]
  · split at h
    · cases h
    · simp only [] at h
      split at h
      · cases h
      · split at h
        · cases h
        · obtain ⟨q, hq, hrest⟩ := bind_ok h
          refine Eq.trans ?_ (pmmUnset_sizes hq).1
          rw [← Except.ok.inj hrest]
          split <;> split <;> rfl

/-- A blind allocator stays blind. -/
theorem blind_step {op : PmmOp} (h : s.pmm.bitmapSize = 0)
    (hst : PmmStep AllocFreeCall s op t) : t.pmm.bitmapSize = 0 := by
  cases hst with
  | call hallow hok =>
      cases op with
      | allocPage =>
          obtain ⟨c, hc⟩ := pmmAllocPage_blind h
          rw [show pmmCall s.pmm .allocPage = pmmAllocPage s.pmm from rfl, hc] at hok
          rw [← (Prod.mk.inj (Except.ok.inj hok)).2]
          exact h
      | allocPageLow m =>
          obtain ⟨c, hc⟩ := pmmAllocPageLow_blind h m.toNat
          rw [show pmmCall s.pmm (.allocPageLow m) = pmmAllocPageLow s.pmm m.toNat
            from rfl, hc] at hok
          rw [← (Prod.mk.inj (Except.ok.inj hok)).2]
          exact h
      | freePage addr =>
          cases hfree : pmmFreePage s.pmm addr.toNat with
          | error e =>
              rw [pmmCall, hfree] at hok
              exact nomatch hok
          | ok q =>
              rw [pmmCall, hfree] at hok
              rw [← (Prod.mk.inj (Except.ok.inj hok)).2]
              exact (pmmFreePage_size hfree).trans h
      | markRegionUsed _ _ => exact absurd hallow id
      | markRegionFree _ _ => exact absurd hallow id

/-! ### The exact condition -/

/-- Where the condition holds, every address identifies its frame. -/
theorem pageIdentifiesFrame_run {mem : Mem} {p₀ : Pmm}
    (hinit : pmmInit mem bi = .ok p₀) (hfit : bi.AddressesFit) {ops : List PmmOp}
    (hrun : Run (PmmStep AllocFreeCall) ⟨p₀, []⟩ ops s) : PageIdentifiesFrame s.pmm := by
  have hlt : bi.total < 2 ^ 32 := u32_lt _
  by_cases hcover : bi.total ≤ 2 ^ 32 - 8
  · obtain ⟨ht, htot, -, hbits⟩ := pmmInit_ok hinit hcover
    have h0 : LowFree ⟨p₀, []⟩ := by
      refine ⟨ht, fun g (hg : g < p₀.totalBlocks) hb hg31 => ?_⟩
      rw [htot] at hg
      have hfree := (hbits g hg).mp hb
      by_contra hge
      rcases hfit with hbig | hnone
      · omega
      · exact hfree.2 (hnone g (by omega) hg31 hfree.1)
    have h := hrun.invariant h0 fun _ _ _ hI hst => LowFree.step hI hst
    exact pageIdentifiesFrame_of_low h.tight h.low
  · have h0 : p₀.bitmapSize = 0 := by
      rw [pmmInit_size hinit, BootInfo.bitmapSize, u32]
      omega
    have h := hrun.invariant (I := fun s => s.pmm.bitmapSize = 0) h0
      fun _ _ _ hI hst => blind_step hI hst
    intro a p' hok
    obtain ⟨c, hc⟩ := pmmAllocPage_blind h
    rw [hok] at hc
    obtain ⟨ha, hq⟩ := Prod.mk.inj (Except.ok.inj hc)
    refine ⟨fun hne => absurd ha hne, fun f hb hb' => ?_⟩
    rw [hq] at hb'
    exact absurd (hb.symm.trans hb') Bool.false_ne_true

/-- Where it fails, some run of allocations ends in front of a frame whose
    address does not identify it. -/
theorem exists_run_misidentified {mem : Mem} {p₀ : Pmm}
    (hinit : pmmInit mem bi = .ok p₀) (hfit : ¬ bi.AddressesFit) :
    ∃ ops s, Run (PmmStep AllocFreeCall) ⟨p₀, []⟩ ops s ∧ ¬ PageIdentifiesFrame s.pmm := by
  rw [BootInfo.AddressesFit, not_or] at hfit
  obtain ⟨hcover, hsome⟩ := hfit
  obtain ⟨f, hf⟩ := not_forall.mp hsome
  rw [Classical.not_imp, Classical.not_imp, Classical.not_imp] at hf
  obtain ⟨hf20, hf31, hus, hnl⟩ := hf
  have hallow : ∀ s, AllocFreeCall s .allocPage := fun _ => trivial
  obtain ⟨ops, t, hrun, hT, hleast⟩ := exists_run_to_initFree hallow hinit
    (Nat.le_of_not_lt hcover) hf31 ⟨hus, hnl⟩
  exact ⟨ops, t, hrun, not_pageIdentifiesFrame_of_high hT hf20 hf31 hleast⟩

/-- **ADDRESSES IDENTIFY FRAMES**, in every run, exactly when the map leaves no
    frame free whose number does not fit a 32-bit address. -/
theorem pmm_page_identifies_frame (mem : Mem) {p₀ : Pmm}
    (hinit : pmmInit mem bi = .ok p₀) :
    (∀ ops s, Run (PmmStep AllocFreeCall) ⟨p₀, []⟩ ops s → PageIdentifiesFrame s.pmm)
      ↔ bi.AddressesFit := by
  constructor
  · intro hall
    by_contra hfit
    obtain ⟨ops, s, hrun, hnot⟩ := exists_run_misidentified hinit hfit
    exact hnot (hall ops s hrun)
  · intro hfit ops s hrun
    exact pageIdentifiesFrame_run hinit hfit hrun

/-- The same on a machine with 1 MiB, where both sides hold. -/
theorem pmm_page_identifies_frame_small :
    ∃ p₀, pmmInit ⟨fun _ => 0, []⟩ ⟨0x8000, [⟨0, 0x100000, 1⟩]⟩ = .ok p₀ ∧
      ((∀ ops s, Run (PmmStep AllocFreeCall) ⟨p₀, []⟩ ops s → PageIdentifiesFrame s.pmm)
        ↔ BootInfo.AddressesFit ⟨0x8000, [⟨0, 0x100000, 1⟩]⟩) := by
  obtain ⟨p₀, hinit, -⟩ := @pmmInit_tight
    ⟨0x8000, [⟨0, 0x100000, 1⟩]⟩ ⟨fun _ => 0, []⟩ (by decide)
  exact ⟨p₀, hinit, pmm_page_identifies_frame _ hinit⟩

/-- A machine with 4 GiB of memory, 1 GiB of it above the 4 GiB line: the first
    frame up there is free, and a run that drains the lower memory reaches it. -/
theorem pmm_page_identifies_frame_fails_above_4GiB :
    ¬ ∀ (bi : BootInfo) (p₀ : Pmm), pmmInit ⟨fun _ => 0, []⟩ bi = .ok p₀ →
      ∀ ops s, Run (PmmStep AllocFreeCall) ⟨p₀, []⟩ ops s → PageIdentifiesFrame s.pmm := by
  intro hall
  have hnfit : ¬ BootInfo.AddressesFit ⟨0x8000, [⟨0, 0x9FC00, 1⟩,
      ⟨0x100000, 0xBFF00000, 1⟩, ⟨0x100000000, 0x40000000, 1⟩]⟩ := by
    rintro (hbig | hnone)
    · exact absurd hbig (by decide)
    · refine absurd (hnone (2 ^ 20) (Nat.le_refl _) (by decide) ?_) ?_
      · exact ⟨⟨0x100000000, 0x40000000, 1⟩, by simp, rfl, by decide⟩
      · decide
  obtain ⟨p₀, hinit, -⟩ := @pmmInit_tight ⟨0x8000, [⟨0, 0x9FC00, 1⟩,
    ⟨0x100000, 0xBFF00000, 1⟩, ⟨0x100000000, 0x40000000, 1⟩]⟩ ⟨fun _ => 0, []⟩ (by decide)
  obtain ⟨ops, s, hrun, hnot⟩ := exists_run_misidentified hinit hnfit
  exact hnot (hall _ p₀ hinit ops s hrun)

end PyramidPmm
