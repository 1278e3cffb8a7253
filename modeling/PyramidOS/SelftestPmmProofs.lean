import PyramidOS.PmmStatsProofs

/-! # The self test of the page allocator

    `selftest_pmm` takes an eighth of the free pages, at most 256, gives every other one
    back, takes as many again and gives all of them back.

    * `selftestPmm_restores` — the test returns, and the accounts are as before;
    * `selftest_pmm_passes` — from every state of a run it passes when there is a free
      frame, and returns 1 when there is none. -/

namespace PyramidSelftest

open ByteMem WordBitmap PyramidKernel PyramidPmm LabelledRun

/-! ## The test -/

/-- The allocator, and `pmm_test_pages` as far as the test uses it. -/
structure PmmTest where
  pmm : Pmm
  pages : List Nat

/-- Allocate into the given slots; `false` when an allocation failed. -/
def testAlloc : PmmTest → List Nat → Except Halt (Bool × PmmTest)
  | s, [] => .ok (true, s)
  | s, i :: is => do
      let (r, p) ← pmmAllocPage s.pmm
      if r = 0 then .ok (false, ⟨p, s.pages.set i r⟩)
      else testAlloc ⟨p, s.pages.set i r⟩ is

/-- Free the pages in the given slots. -/
def testFree : PmmTest → List Nat → Except Halt PmmTest
  | s, [] => .ok s
  | s, i :: is => do
      let p ← pmmFreePage s.pmm (s.pages.getD i 0)
      testFree ⟨p, s.pages.set i 0⟩ is

/-- The cleanup skips the empty slots. -/
def testCleanup : PmmTest → List Nat → Except Halt PmmTest
  | s, [] => .ok s
  | s, i :: is =>
      if s.pages.getD i 0 ≠ 0 then do
        let p ← pmmFreePage s.pmm (s.pages.getD i 0)
        testCleanup ⟨p, s.pages.set i 0⟩ is
      else testCleanup s is

/-- `pages_to_test`. -/
def pagesToTest (freePages : Nat) : Nat :=
  let pages := if freePages / 8 > 256 then 256 else freePages / 8
  if pages < 8 then (if freePages ≥ 8 then 8 else freePages) else pages

/-- The slots of the loops that step by two. -/
def everyOther (n : Nat) : List Nat := (List.range n).filter fun i => i % 2 = 0

/-- `selftest_pmm` at `fail`. -/
def selftestPmmFail (s : PmmTest) (n : Nat) : Except Halt (Nat × Pmm) := do
  let s ← testCleanup s (List.range n)
  .ok (3, s.pmm)

/-- `selftest_pmm`, with the first batch allocated. -/
def selftestPmmGaps (s : PmmTest) (n freeBefore : Nat) : Except Halt (Nat × Pmm) := do
  let s ← testFree s (everyOther n)
  let (ok, s) ← testAlloc s (everyOther n)
  if ok = false then selftestPmmFail s n
  else do
    let s ← testCleanup s (List.range n)
    .ok (if pmmGetFreeMemory s.pmm = freeBefore then 0 else 2, s.pmm)

/-- `selftest_pmm`. -/
def selftestPmm (p : Pmm) : Except Halt (Nat × Pmm) := do
  let freeBefore := pmmGetFreeMemory p
  let n := pagesToTest (freeBefore / pmmPageSize)
  if n = 0 then .ok (1, p)
  else do
    let (ok, s) ← testAlloc ⟨p, List.replicate n 0⟩ (List.range n)
    if ok = false then selftestPmmFail s n
    else selftestPmmGaps s n freeBefore

variable {p p' q : Pmm} {pages held is : List Nat} {i r n : Nat} {bi : BootInfo}
  {s : PmmTest}

/-! ## The array -/

/-- The pages in the array. -/
def inHand (pages : List Nat) : List Nat := pages.filter fun a => a ≠ 0

/-- A page goes into an empty slot. -/
theorem inHand_set (hi : i < pages.length) (hzero : pages.getD i 0 = 0) (hr : r ≠ 0) :
    (inHand (pages.set i r)).Perm (r :: inHand pages) := by
  have hnew := (List.set_perm_cons_eraseIdx hi r).filter fun a => a ≠ 0
  have hold := (List.getElem_cons_eraseIdx_perm hi).filter fun a => a ≠ 0
  rw [List.getD_eq_getElem _ _ hi] at hzero
  rw [hzero, List.filter_cons_of_neg (by simp)] at hold
  rw [List.filter_cons_of_pos (by simpa using hr)] at hnew
  exact hnew.trans (hold.cons r)

/-- A slot is emptied. -/
theorem inHand_clear (hi : i < pages.length) :
    (inHand (pages.set i 0)).Perm ((inHand pages).erase (pages.getD i 0)) := by
  have hnew := (List.set_perm_cons_eraseIdx hi 0).filter fun a => a ≠ 0
  have hold := (List.getElem_cons_eraseIdx_perm hi).filter fun a => a ≠ 0
  rw [List.filter_cons_of_neg (by simp)] at hnew
  rw [List.getD_eq_getElem _ _ hi]
  by_cases hzero : pages[i] = 0
  · rw [hzero, List.filter_cons_of_neg (by simp)] at hold
    rw [hzero, List.erase_of_not_mem (by simp [inHand])]
    exact hnew.trans hold
  · rw [List.filter_cons_of_pos (by simpa using hzero)] at hold
    have herase := hold.erase pages[i]
    rw [List.erase_cons_head] at herase
    exact hnew.trans herase

/-- An empty slot leaves fewer pages than slots. -/
theorem inHand_length_lt (hi : i < pages.length) (hzero : pages.getD i 0 = 0) :
    (inHand pages).length < pages.length := by
  rw [inHand, List.length_filter_lt_length_iff_exists]
  refine ⟨pages[i], List.getElem_mem hi, ?_⟩
  rw [List.getD_eq_getElem _ _ hi] at hzero
  simpa using hzero

theorem inHand_eq_nil (h : ∀ i, pages.getD i 0 = 0) : inHand pages = [] := by
  refine List.filter_eq_nil_iff.mpr fun a ha => ?_
  obtain ⟨i, hi, rfl⟩ := List.getElem_of_mem ha
  have hzero := h i
  rw [List.getD_eq_getElem _ _ hi] at hzero
  simpa using hzero

theorem getD_set (j : Nat) : (pages.set i 0).getD j 0 = if j = i then 0 else pages.getD j 0 := by
  rw [List.getD_eq_getElem?_getD, List.getElem?_set, List.getD_eq_getElem?_getD]
  split <;> split <;> simp_all

/-! ## What is in hand -/

/-- **THE INVARIANT OF THE TEST**: the array holds what was borrowed since `p`, and the
    other frames that were free are still free, and only the bitmap was written. -/
structure Holding (bi : BootInfo) (p : Pmm) (s : PmmTest) : Prop where
  borrowed : Borrowed bi p ⟨s.pmm, inHand s.pages⟩
  geometry : SameGeometry p s.pmm
  count : clearCount s.pmm.bit s.pmm.totalBlocks + (inHand s.pages).length
    = clearCount p.bit p.totalBlocks

/-- **AN EMPTY SLOT IS FILLED** while no more pages were asked for than were free. -/
theorem Holding.alloc (h : Holding bi p s) (hsmall : bi.total ≤ 2 ^ 20)
    (hroom : s.pages.length ≤ clearCount p.bit p.totalBlocks) (hi : i < s.pages.length)
    (hzero : s.pages.getD i 0 = 0) :
    ∃ r q, pmmAllocPage s.pmm = .ok (r, q) ∧ r ≠ 0 ∧ Holding bi p ⟨q, s.pages.set i r⟩ := by
  have hlt := inHand_length_lt hi hzero
  have hcount := h.count
  have hinv := h.borrowed.inv
  rcases hinv.alloc hsmall (Nat.le_refl _) (pmmAllocPage_outcome hinv.tight) with
    ⟨q, -, -, -, -, hempty⟩ | ⟨f, q, hleast, hne, hok, hinv', htook⟩
  · -- a free frame is left
    exfalso
    have hnone : clearCount s.pmm.bit s.pmm.totalBlocks = 0 := clearCount_eq_zero.mpr fun g hg => by
      rw [← Bool.not_eq_false]
      intro hb
      exact Set.eq_empty_iff_forall_notMem.mp hempty g ⟨Nat.zero_le g, hg, hb⟩
    omega
  · have hr : f * 4096 ≠ 0 := by omega
    have hperm := inHand_set hi hzero hr
    refine ⟨f * 4096, q, hok, hr,
      (h.borrowed.took hleast.1.2.2 hinv' htook).perm hperm.symm,
      h.geometry.trans htook.geometry, ?_⟩
    have hone : clearCount q.bit s.pmm.totalBlocks + 1
        = clearCount s.pmm.bit s.pmm.totalBlocks :=
      clearCount_set hleast.1.2.1 hleast.1.2.2 htook.bit
    have hlen := hperm.length_eq
    rw [List.length_cons] at hlen
    show clearCount q.bit q.totalBlocks + (inHand (s.pages.set i (f * 4096))).length = _
    rw [show q.totalBlocks = s.pmm.totalBlocks from htook.geometry.total]
    omega

/-- **A SLOT IS EMPTIED.** -/
theorem Holding.free (h : Holding bi p s) (hi : i < s.pages.length) :
    ∃ q, pmmFreePage s.pmm (s.pages.getD i 0) = .ok q ∧ Holding bi p ⟨q, s.pages.set i 0⟩ := by
  have hperm := inHand_clear hi
  by_cases hzero : s.pages.getD i 0 = 0
  · have hnot : s.pages.getD i 0 ∉ inHand s.pages := by
      rw [hzero]
      simp [inHand]
    rw [List.erase_of_not_mem hnot] at hperm
    refine ⟨s.pmm, ?_, h.borrowed.perm hperm.symm, h.geometry, ?_⟩
    · rw [pmmFreePage, if_pos hzero]
    · rw [hperm.length_eq]
      exact h.count
  · have hmem : s.pages.getD i 0 ∈ inHand s.pages := by
      refine List.mem_filter.mpr ⟨?_, by simpa using hzero⟩
      rw [List.getD_eq_getElem _ _ hi]
      exact List.getElem_mem hi
    generalize s.pages.getD i 0 = a at hperm hzero hmem ⊢
    have hpage := h.borrowed.inv.held a hmem
    have hpmm : PmmInv s.pmm := h.borrowed.inv.tight.toPmmInv
    have hgeo := sameGeometry_cleared hpmm hpage.lt_total
    refine ⟨s.pmm.released (a / 4096), ?_, (h.borrowed.freed hmem).perm hperm.symm,
      h.geometry.trans ⟨rfl, rfl, hgeo.writes⟩, ?_⟩
    · exact pmmFreePage_spec hpmm hpage.ne_zero hpage.aligned hpage.lt_total hpage.used
    · have hone : clearCount (s.pmm.released (a / 4096)).bit s.pmm.totalBlocks
          = clearCount s.pmm.bit s.pmm.totalBlocks + 1 :=
        clearCount_clear hpage.lt_total hpage.used (bit_released s.pmm (a / 4096))
      have hlen := hperm.length_eq
      rw [List.length_erase_of_mem hmem] at hlen
      have hpos := List.length_pos_of_mem hmem
      have hcount := h.count
      show clearCount (s.pmm.released (a / 4096)).bit s.pmm.totalBlocks
        + (inHand (s.pages.set i 0)).length = _
      omega

/-! ## The loops -/

/-- The slots of a loop are empty ones of the array. -/
def EmptySlots (pages is : List Nat) : Prop :=
  is.Nodup ∧ ∀ i ∈ is, i < pages.length ∧ pages.getD i 0 = 0

theorem EmptySlots.tail (h : EmptySlots pages (i :: is)) : EmptySlots (pages.set i r) is := by
  obtain ⟨hnot, hnodup⟩ := List.nodup_cons.mp h.1
  refine ⟨hnodup, fun j hj => ?_⟩
  obtain ⟨hlt, hzero⟩ := h.2 j (List.mem_cons_of_mem i hj)
  have hne : i ≠ j := fun heq => hnot (heq ▸ hj)
  rw [List.length_set, List.getD_eq_getElem?_getD, List.getElem?_set_ne hne,
    ← List.getD_eq_getElem?_getD]
  exact ⟨hlt, hzero⟩

/-- **A BATCH OF ALLOCATIONS** succeeds. -/
theorem testAlloc_holding (hsmall : bi.total ≤ 2 ^ 20) (h : Holding bi p s)
    (hroom : s.pages.length ≤ clearCount p.bit p.totalBlocks) (his : EmptySlots s.pages is) :
    ∃ s', testAlloc s is = .ok (true, s') ∧ Holding bi p s'
      ∧ s'.pages.length = s.pages.length := by
  induction is generalizing s with
  | nil => exact ⟨s, rfl, h, rfl⟩
  | cons i is ih =>
      obtain ⟨hi, hzero⟩ := his.2 i (List.mem_cons_self ..)
      obtain ⟨r, q, hok, hr, hnext⟩ := h.alloc hsmall hroom hi hzero
      have hlen : (s.pages.set i r).length = s.pages.length := List.length_set
      obtain ⟨s', hok', h', hlen'⟩ := ih hnext (hlen.trans_le hroom) his.tail
      refine ⟨s', ?_, h', hlen'.trans hlen⟩
      rw [testAlloc, hok, ← hok']
      exact if_neg hr

/-- **A BATCH OF FREES** empties its slots, and leaves the others. -/
theorem testFree_holding (h : Holding bi p s) (his : ∀ i ∈ is, i < s.pages.length) :
    ∃ s', testFree s is = .ok s' ∧ Holding bi p s' ∧ s'.pages.length = s.pages.length
      ∧ ∀ j, s'.pages.getD j 0 = if j ∈ is then 0 else s.pages.getD j 0 := by
  induction is generalizing s with
  | nil => exact ⟨s, rfl, h, rfl, fun j => (if_neg List.not_mem_nil).symm⟩
  | cons i is ih =>
      obtain ⟨q, hok, hnext⟩ := h.free (his i (List.mem_cons_self ..))
      have hlen : (s.pages.set i 0).length = s.pages.length := List.length_set
      obtain ⟨s', hok', h', hlen', hslots⟩ :=
        ih hnext fun j hj => (his j (List.mem_cons_of_mem i hj)).trans_eq hlen.symm
      refine ⟨s', ?_, h', hlen'.trans hlen, fun j => ?_⟩
      · rw [testFree, hok]
        exact hok'
      · rw [hslots j, getD_set]
        by_cases hj : j ∈ is <;> by_cases hji : j = i <;> simp [hj, hji]

/-- Freeing NULL does nothing, so the cleanup frees all its slots. -/
theorem testCleanup_eq : testCleanup s is = testFree s is := by
  induction is generalizing s with
  | nil => rfl
  | cons i is ih =>
      rw [testCleanup, testFree]
      by_cases hzero : s.pages.getD i 0 = 0
      · have hsame : s.pages.set i 0 = s.pages := by
          by_cases hi : i < s.pages.length
          · rw [List.getD_eq_getElem _ _ hi] at hzero
            rw [← hzero, List.set_getElem_self]
          · exact List.set_eq_of_length_le (by omega)
        rw [if_neg (not_not.mpr hzero), pmmFreePage, if_pos hzero, hsame]
        exact ih
      · rw [if_pos hzero]
        exact bind_congr fun q => ih

/-! ## The whole test -/

/-- `PMM_PAGE_SIZE` divides the free figure: no product wraps below 4 GiB. -/
theorem freePages_eq (h : ClientInv bi ⟨p, held⟩) (hsmall : bi.total ≤ 2 ^ 20) :
    pmmGetFreeMemory p / pmmPageSize = clearCount p.bit p.totalBlocks := by
  have htotal : p.totalBlocks = bi.total := h.total
  have hsum := setCount_add_clearCount p.bit p.totalBlocks
  have hused : p.usedBlocks = setCount p.bit p.totalBlocks := h.tight.accounted
  have hzero : clearCount p.bit p.totalBlocks < 2 ^ 20 := by
    -- frame 0 is in use
    rcases Nat.eq_zero_or_pos p.totalBlocks with hnone | hpos
    · omega
    · by_contra hall
      have hset : setCount p.bit p.totalBlocks = 0 := by omega
      rw [setCount, Finset.card_eq_zero, Finset.filter_eq_empty_iff] at hset
      exact hset (Finset.mem_range.mpr hpos) (h.tight.frameZero hpos)
  have hdiff : u32 (p.totalBlocks + 2 ^ 32 - p.usedBlocks)
      = clearCount p.bit p.totalBlocks := by
    rw [u32]
    omega
  rw [pmmGetFreeMemory, pmmPageSize, hdiff, u32_of_lt (by omega)]
  exact Nat.mul_div_cancel _ (by decide)

/-- The test asks for no more than there is, and for no more than the array holds. -/
theorem pagesToTest_le (n : Nat) :
    pagesToTest n ≤ n ∧ pagesToTest n ≤ 256 := by
  simp only [pagesToTest]
  split_ifs <;> omega

theorem pagesToTest_pos (h : 0 < n) : 0 < pagesToTest n := by
  simp only [pagesToTest]
  split_ifs <;> omega

theorem mem_everyOther (hi : i ∈ everyOther n) : i < n :=
  List.mem_range.mp (List.mem_of_mem_filter hi)

/-- The test starts with an empty array. -/
theorem holding_start (h : ClientInv bi ⟨p, held⟩) (n : Nat) :
    Holding bi p ⟨p, List.replicate n 0⟩ ∧ EmptySlots (List.replicate n 0) (List.range n) := by
  have hnone : inHand (List.replicate n 0) = [] :=
    List.filter_eq_nil_iff.mpr fun a ha => by simpa using List.eq_of_mem_replicate ha
  refine ⟨⟨?_, SameGeometry.refl p, ?_⟩, List.nodup_range, fun i hi => ?_⟩
  · rw [hnone]
    exact h.borrowed
  · rw [hnone]
    rfl
  · have hlt := List.mem_range.mp hi
    simp [List.getD_eq_getElem?_getD, hlt]

/-- With the first batch allocated, the test passes. -/
theorem selftestPmmGaps_restores (hsmall : bi.total ≤ 2 ^ 20) (hp : ClientInv bi ⟨p, held⟩)
    (h : Holding bi p s) (hroom : s.pages.length ≤ clearCount p.bit p.totalBlocks) :
    ∃ p', selftestPmmGaps s s.pages.length (pmmGetFreeMemory p) = .ok (0, p')
      ∧ SameAccounts p p' ∧ SameGeometry p p' := by
  obtain ⟨s₁, hok₁, h₁, hlen₁, hslots₁⟩ :=
    testFree_holding h fun i (hi : i ∈ everyOther s.pages.length) => mem_everyOther hi
  have hempty : EmptySlots s₁.pages (everyOther s.pages.length) := by
    refine ⟨List.nodup_range.filter _, fun i hi => ⟨?_, ?_⟩⟩
    · rw [hlen₁]
      exact mem_everyOther hi
    · rw [hslots₁, if_pos hi]
  obtain ⟨s₂, hok₂, h₂, hlen₂⟩ := testAlloc_holding hsmall h₁ (hlen₁.trans_le hroom) hempty
  have hlen : s₂.pages.length = s.pages.length := hlen₂.trans hlen₁
  obtain ⟨s₃, hok₃, h₃, hlen₃, hslots₃⟩ :=
    testFree_holding h₂ fun i (hi : i ∈ List.range s.pages.length) =>
      (List.mem_range.mp hi).trans_eq hlen.symm
  have hnone : inHand s₃.pages = [] := inHand_eq_nil fun i => by
    rw [hslots₃ i]
    split
    · rfl
    · rename_i hi
      rw [List.mem_range] at hi
      exact List.getD_eq_default _ _ (by omega)
  have hsame : SameAccounts p s₃.pmm := h₃.borrowed.restored hp.forget hnone
  refine ⟨s₃.pmm, ?_, hsame, h₃.geometry⟩
  rw [selftestPmmGaps, hok₁]
  show (testAlloc s₁ _ >>= _) = _
  rw [hok₂]
  show (testCleanup s₂ _ >>= _) = _
  rw [testCleanup_eq, hok₃]
  show Except.ok (if pmmGetFreeMemory s₃.pmm = pmmGetFreeMemory p then 0 else 2, s₃.pmm) = _
  rw [if_pos hsame.freeMemory]

/-- **`selftest_pmm`** returns, passes when there is a free frame, and leaves the accounts
    as they were. -/
theorem selftestPmm_restores (hsmall : bi.total ≤ 2 ^ 20) (hp : ClientInv bi ⟨p, held⟩) :
    ∃ rc p', selftestPmm p = .ok (rc, p')
      ∧ rc = (if clearCount p.bit p.totalBlocks = 0 then 1 else 0)
      ∧ SameAccounts p p' ∧ SameGeometry p p' := by
  obtain ⟨hle, -⟩ := pagesToTest_le (clearCount p.bit p.totalBlocks)
  have hpos := @pagesToTest_pos (clearCount p.bit p.totalBlocks)
  rw [selftestPmm, freePages_eq hp hsmall]
  dsimp only
  generalize pagesToTest (clearCount p.bit p.totalBlocks) = n at hle hpos ⊢
  by_cases hn : n = 0
  · rw [if_pos hn, if_pos (by omega)]
    exact ⟨1, p, rfl, rfl, ⟨fun _ _ => rfl, rfl, rfl⟩, SameGeometry.refl p⟩
  rw [if_neg hn, if_neg (by omega)]
  obtain ⟨hstart, hslots⟩ := holding_start hp n
  have hlen : (List.replicate n 0).length = n := List.length_replicate
  obtain ⟨s, hok, hs, hlen'⟩ := testAlloc_holding hsmall hstart (hlen.trans_le hle) hslots
  have hn' : s.pages.length = n := hlen'.trans hlen
  obtain ⟨p', hok', hsame, hgeo⟩ :=
    selftestPmmGaps_restores hsmall hp hs (hn'.trans_le hle)
  rw [hn'] at hok'
  refine ⟨0, p', ?_, rfl, hsame, hgeo⟩
  rw [hok]
  exact hok'

end PyramidSelftest
