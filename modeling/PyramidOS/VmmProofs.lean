import PyramidOS.PmmOwnerProofs
import PyramidOS.PagingProofs

/-! # The virtual memory manager

    `vmm.c`: page tables built lazily in frames taken from the PMM.  The
    directory, the tables and the PMM's bitmap lie below 4 MiB, where the
    mapping is the identity (`VmmInv.low`), so the stores of the VMM go to the
    physical addresses they name, before and after paging is switched on.

    * `VmmInv` — the tree of page tables stands in pages of its own;
    * `vmmGetPageTable_spec`, `vmmMap_spec`, `vmmAllocPage_spec`,
      `vmmInit_spec` — what each function returns, and what it does to every
      translation. -/

namespace PyramidVmm

open ByteMem WordBitmap PyramidKernel PyramidPmm TwoLevelPaging

/-! ## The code -/

/-- `VMM_LOWMEM_LIMIT`. -/
def vmmLowmemLimit : Nat := 4 * 1024 * 1024

/-- `PAGE_SIZE`. -/
def pageSize : Nat := 4096

/-- `PDE_PRESENT` and `PTE_PRESENT`. -/
def pdePresent : Nat := 0x01
def ptePresent : Nat := 0x01

/-- `PDE_READ_WRITE` and `PTE_READ_WRITE`. -/
def pdeReadWrite : Nat := 0x02
def pteReadWrite : Nat := 0x02

/-- `PDE_FRAME`. -/
def pdeFrame : Nat := 0xFFFFF000

/-- The state of the VMM: the PMM, with all of physical memory, and
    `page_directory`. -/
structure Vmm where
  pmm : Pmm
  pageDirectory : Nat

/-- Physical memory. -/
def Vmm.mem (s : Vmm) : Mem := s.pmm.mem

/-- The state after stores to physical memory. -/
def Vmm.withMem (s : Vmm) (m : Mem) : Vmm := { s with pmm := { s.pmm with mem := m } }

/-- `vmm_get_page_table`: the table's address (0 for NULL) and the state left. -/
def vmmGetPageTable (s : Vmm) (vaddr : Nat) (create : Bool) :
    Except Halt (Nat × Vmm) :=
  let pdIndex := vaddr >>> 22
  let pde := s.mem.load32 (s.pageDirectory + 4 * pdIndex)
  if pde &&& pdePresent ≠ 0 then .ok (pde &&& pdeFrame, s)
  else if create then do
    let (newTable, pmm) ← pmmAllocPageLow s.pmm vmmLowmemLimit
    if newTable = 0 then .error (.panic "VMM: cannot alloc page table (lowmem)")
    else
      let m := memset pmm.mem newTable 0 pageSize
      let m := m.store32 (s.pageDirectory + 4 * pdIndex)
        (newTable ||| pdePresent ||| pdeReadWrite)
      .ok (newTable, { s with pmm := { pmm with mem := m } })
  else .ok (0, s)

/-- `vmm_map`. -/
def vmmMap (s : Vmm) (vaddr paddr : Nat) : Except Halt Vmm :=
  if vaddr &&& (pageSize - 1) ≠ 0 then
    .error (.panic "VMM: vmm_map vaddr not page-aligned")
  else if paddr &&& (pageSize - 1) ≠ 0 then
    .error (.panic "VMM: vmm_map paddr not page-aligned")
  else do
    let (table, s) ← vmmGetPageTable s vaddr true
    if table = 0 then .error (.panic "VMM: vmm_get_page_table returned NULL")
    else
      let ptIndex := (vaddr >>> 12) &&& 0x3FF
      .ok (s.withMem
        (s.mem.store32 (table + 4 * ptIndex) (paddr ||| ptePresent ||| pteReadWrite)))

/-- `vmm_alloc_page`: 1 when the page was mapped, 0 when memory ran out. -/
def vmmAllocPage (s : Vmm) (vaddr : Nat) : Except Halt (Nat × Vmm) := do
  let (phys, pmm) ← pmmAllocPage s.pmm
  let s := { s with pmm := pmm }
  if phys = 0 then .ok (0, s)
  else
    let s ← vmmMap s vaddr phys
    .ok (1, s)

/-- The loop of `vmm_init` over the first page table, up to entry `i`. -/
def vmmIdentityLoop (m : Mem) (table : Nat) : Nat → Mem
  | 0 => m
  | i + 1 => (vmmIdentityLoop m table i).store32 (table + 4 * i)
      (i * 4096 ||| ptePresent ||| pteReadWrite)

/-- `vmm_init`. -/
def vmmInit (pmm : Pmm) : Except Halt Vmm := do
  let (pageDirectory, pmm) ← pmmAllocPageLow pmm vmmLowmemLimit
  if pageDirectory = 0 then .error (.panic "VMM: cannot alloc page directory (lowmem)")
  else
    let pmm := { pmm with mem := memset pmm.mem pageDirectory 0 pageSize }
    let (firstPageTable, pmm) ← pmmAllocPageLow pmm vmmLowmemLimit
    if firstPageTable = 0 then
      .error (.panic "VMM: cannot alloc first page table (lowmem)")
    else
      let m := vmmIdentityLoop pmm.mem firstPageTable 1024
      let m := m.store32 pageDirectory (firstPageTable ||| pdePresent ||| pdeReadWrite)
      .ok { pmm := { pmm with mem := m }, pageDirectory := pageDirectory }

/-! ## The PMM under other stores

    The PMM reads its bitmap and nothing else. -/

variable {p p' : Pmm} {m : Mem} {bi : BootInfo} {s : Vmm} {f v a x : Nat}
  {held pages data : List Nat}

/-- `m` agrees with the memory of `p` on the bitmap. -/
def SameBitmap (p : Pmm) (m : Mem) : Prop :=
  ∀ x, BitmapByte p x → m.byte x = p.mem.byte x

theorem SameBitmap.bit (hm : SameBitmap p m) (hf : f < 8 * p.bitmapSize) :
    Pmm.bit { p with mem := m } f = p.bit f :=
  bitAt_congr (hm _ ⟨by omega, by omega⟩)

theorem tightInv_withMem (h : TightInv p) (hm : SameBitmap p m) :
    TightInv { p with mem := m } := by
  have hcov := h.toPmmInv.total_le_cover
  have hlow : ∀ g, g < p.totalBlocks → Pmm.bit { p with mem := m } g = p.bit g :=
    fun g hg => hm.bit (by omega)
  refine ⟨⟨h.total_le, h.covers, ?_, ?_, h.cursor_le, h.cursorLow_le⟩, ?_, ?_, ?_⟩
  · exact h.accounted.trans (setCount_congr fun g hg => (hlow g hg).symm)
  · intro g h1 h2
    exact (hm.bit h2).trans (h.padding g h1 h2)
  · intro hpos
    exact (hlow 0 hpos).trans (h.frameZero hpos)
  · intro g (hg : g < p.lastFreeIndex)
    exact (hlow g (lt_of_lt_of_le hg h.cursor_le)).trans (h.below g hg)
  · intro g (hg : g < p.lastFreeIndexLow)
    exact (hlow g (lt_of_lt_of_le hg h.cursorLow_le)).trans (h.belowLow g hg)

/-- The client invariant survives stores outside the bitmap. -/
theorem clientInv_withMem (h : ClientInv bi ⟨p, held⟩) (hm : SameBitmap p m) :
    ClientInv bi ⟨{ p with mem := m }, held⟩ := by
  have hcov := h.tight.toPmmInv.total_le_cover
  have hlow : ∀ g, g < p.totalBlocks → Pmm.bit { p with mem := m } g = p.bit g :=
    fun g hg => hm.bit (Nat.lt_of_lt_of_le hg hcov)
  refine ⟨tightInv_withMem h.tight hm, h.total, h.size, ?_, h.nodup, ?_⟩
  · intro g hg hn
    refine (hlow g ?_).trans (h.kept g hg hn)
    exact Nat.lt_of_lt_of_eq hg h.total.symm
  · intro b hb
    have hpage := h.held b hb
    exact ⟨hpage.ne_zero, hpage.aligned, hpage.lt_total,
      (hlow _ hpage.lt_total).trans hpage.used, hpage.initFree⟩

/-- A held page lies outside the bitmap. -/
theorem clientInv_off_bitmap (h : ClientInv bi ⟨p, held⟩) (hsmall : bi.total ≤ 2 ^ 20)
    (ha : a ∈ held) (hx : a ≤ x) (hx' : x < a + 4096) : ¬ BitmapByte p x := by
  have hpage := h.held a ha
  have haddr : a / 4096 * 4096 = a := by
    have hal := hpage.aligned
    omega
  obtain ⟨-, -, hout, -⟩ := not_overlaps_of_unlocked hsmall hpage.initFree.1.lt_total
    hpage.initFree.2
  rw [haddr, ← h.size] at hout
  exact fun hin => hout ⟨x, hx, hx', hin.1, hin.2⟩

/-- So a call of the PMM leaves the bytes of a held page alone. -/
theorem clientInv_keeps (h : ClientInv bi ⟨p, held⟩) (hsmall : bi.total ≤ 2 ^ 20)
    (hgeo : SameGeometry p p') (ha : a ∈ held) (hx : a ≤ x) (hx' : x < a + 4096) :
    p'.mem.byte x = p.mem.byte x :=
  hgeo.writes.byte_eq (clientInv_off_bitmap h hsmall ha hx hx')

/-! ## The invariant -/

/-- The frame the tables name for the page of `u`. -/
def Vmm.walk (s : Vmm) (u : Nat) : Option Nat :=
  TwoLevelPaging.walk s.mem s.pageDirectory u

/-- **THE VMM INVARIANT**: the page tables are a tree in the pages `pages`, which
    lie below 4 MiB; these and the data pages `data` are held from the PMM. -/
structure VmmInv (bi : BootInfo) (s : Vmm) (pages data : List Nat) : Prop where
  client : ClientInv bi ⟨s.pmm, pages ++ data⟩
  tree : PageTree s.mem s.pageDirectory pages
  low : ∀ a ∈ pages, a < vmmLowmemLimit

theorem VmmInv.heldPage (h : VmmInv bi s pages data) (ha : a ∈ pages) :
    HeldPage bi s.pmm a :=
  h.client.held a (List.mem_append_left _ ha)

/-- A call of the PMM that keeps the geometry keeps the tree and every walk. -/
theorem VmmInv.keeps_tree (h : VmmInv bi s pages data) (hsmall : bi.total ≤ 2 ^ 20)
    (hgeo : SameGeometry s.pmm p') :
    PageTree p'.mem s.pageDirectory pages
    ∧ ∀ u, u < 2 ^ 32 → TwoLevelPaging.walk p'.mem s.pageDirectory u = s.walk u :=
  h.tree.congr fun _ ha _ hx hx' =>
    clientInv_keeps h.client hsmall hgeo (List.mem_append_left _ ha) hx hx'

/-- Storing one entry of a page of the tree spares the bitmap. -/
theorem sameBitmap_store (h : ClientInv bi ⟨p, held⟩) (hsmall : bi.total ≤ 2 ^ 20)
    (ha : a ∈ held) {i e : Nat} (hi : i < 1024) (hm : SameBitmap p m) :
    SameBitmap p (m.store32 (a + 4 * i) e) := by
  intro x hx
  have hoff : ¬ (a ≤ x ∧ x < a + 4096) := fun hin =>
    clientInv_off_bitmap h hsmall ha hin.1 hin.2 hx
  rw [byte_store32_outside (by omega)]
  exact hm x hx

/-- Zeroing a held page spares the bitmap. -/
theorem sameBitmap_memset (h : ClientInv bi ⟨p, held⟩) (hsmall : bi.total ≤ 2 ^ 20)
    (ha : a ∈ held) (val : Byte) : SameBitmap p (memset p.mem a val 4096) := by
  intro x hx
  have hoff : ¬ (a ≤ x ∧ x < a + 4096) := fun hin =>
    clientInv_off_bitmap h hsmall ha hin.1 hin.2 hx
  rw [byte_memset, if_neg hoff]

/-! ## What the functions do -/

/-- The panic of `vmm_get_page_table`. -/
def noTableFrame : Halt := .panic "VMM: cannot alloc page table (lowmem)"

/-- A page allocated below 4 MiB, or none: `pmm_alloc_page_low` as the VMM calls
    it. -/
theorem allocTable (h : ClientInv bi ⟨p, held⟩) (hsmall : bi.total ≤ 2 ^ 20) :
    (∃ p', pmmAllocPageLow p vmmLowmemLimit = .ok (0, p')
      ∧ clearIn p.bit 0 (lowLimit p vmmLowmemLimit) = ∅)
    ∨ ∃ t p', pmmAllocPageLow p vmmLowmemLimit = .ok (t, p') ∧ t ≠ 0
      ∧ ClientInv bi ⟨p', t :: held⟩ ∧ Took (t / 4096) p p'
      ∧ t < vmmLowmemLimit ∧ t % 4096 = 0 ∧ t ∉ held := by
  rcases h.alloc hsmall (Nat.min_le_right _ _)
    (pmmAllocPageLow_outcome h.tight vmmLowmemLimit) with
    ⟨p', hok, -, -, -, hempty⟩ | ⟨f, p', hleast, hne, hok, hinv, htook⟩
  · exact Or.inl ⟨p', hok, hempty⟩
  · refine Or.inr ⟨f * 4096, p', hok, by omega, hinv, ?_, ?_, by omega, ?_⟩
    · rw [Nat.mul_div_cancel _ (by decide)]
      exact htook
    · have hlim : f < min (4 * 1024 * 1024 / 4096) p.totalBlocks := hleast.1.2.1
      show f * 4096 < 4 * 1024 * 1024
      omega
    · exact (List.nodup_cons.mp hinv.nodup).1

/-- `vmm_get_page_table` where there is a table. -/
theorem vmmGetPageTable_of_some (create : Bool)
    (ht : entry s.mem s.pageDirectory (dirIndex v) = some a) :
    vmmGetPageTable s v create = .ok (a, s) := by
  rw [entry, decode] at ht
  by_cases hpde : s.mem.load32 (s.pageDirectory + 4 * dirIndex v) &&& 1 = 0
  · rw [if_pos hpde] at ht
    cases ht
  · rw [if_neg hpde] at ht
    rw [← Option.some.inj ht]
    exact if_pos hpde

/-- `vmm_get_page_table` with `create`, where there is none. -/
theorem vmmGetPageTable_of_none (hnone : entry s.mem s.pageDirectory (dirIndex v) = none) :
    vmmGetPageTable s v true = (do
      let (newTable, pmm) ← pmmAllocPageLow s.pmm vmmLowmemLimit
      if newTable = 0 then .error noTableFrame
      else .ok (newTable, { s with pmm := { pmm with
        mem := (memset pmm.mem newTable 0 pageSize).store32
          (s.pageDirectory + 4 * dirIndex v)
          (newTable ||| pdePresent ||| pdeReadWrite) } })) := by
  rw [entry, decode] at hnone
  by_cases hpde : s.mem.load32 (s.pageDirectory + 4 * dirIndex v) &&& 1 = 0
  · exact if_neg (not_not.mpr hpde)
  · rw [if_neg hpde] at hnone
    cases hnone

/-- **`vmm_get_page_table`** with `create`: it panics for want of a low frame, or
    returns the table of `v`, and no translation changes. -/
theorem vmmGetPageTable_spec (h : VmmInv bi s pages data) (hsmall : bi.total ≤ 2 ^ 20)
    (hv : v < 2 ^ 32) :
    vmmGetPageTable s v true = .error noTableFrame
    ∨ ∃ t s' pages', vmmGetPageTable s v true = .ok (t, s') ∧ t ≠ 0
      ∧ VmmInv bi s' pages' data ∧ entry s'.mem s'.pageDirectory (dirIndex v) = some t
      ∧ ∀ u, u < 2 ^ 32 → s'.walk u = s.walk u := by
  have hi := dirIndex_lt hv
  cases hentry : entry s.mem s.pageDirectory (dirIndex v) with
  | none =>
    rw [vmmGetPageTable_of_none hentry]
    rcases allocTable h.client hsmall with
      ⟨p', hok, -⟩ | ⟨t, p', hok, hne, hinv, htook, htlow, hta, hfresh⟩
    · rw [hok]
      exact Or.inl rfl
    · have hfresh' : t ∉ pages := fun hmem => hfresh (List.mem_append_left _ hmem)
      -- the tree survives the call and the zeroing; then the table is hung in
      have hzero : ∀ a ∈ pages, ∀ x, a ≤ x → x < a + 4096 →
          (memset p'.mem t 0 4096).byte x = p'.mem.byte x := by
        intro a ha x hx hx'
        have hne' : a ≠ t := fun heq => hfresh' (heq ▸ ha)
        have hal := h.tree.aligned a ha
        rw [byte_memset, if_neg (by omega)]
      have htlt : t < 2 ^ 32 := by
        rw [vmmLowmemLimit] at htlow
        omega
      obtain ⟨htree, hwalk⟩ := h.keeps_tree hsmall htook.geometry
      obtain ⟨htree0, hwalk0⟩ := htree.congr hzero
      obtain ⟨htree', hlinked, hwalk'⟩ := htree0.link hi hfresh' hta htlt
      refine Or.inr ⟨t, Vmm.mk { p' with
          mem := (memset p'.mem t 0 4096).store32 (s.pageDirectory + 4 * dirIndex v)
            (t ||| 1 ||| 2) } s.pageDirectory,
        t :: pages, ?_, hne, ⟨?_, htree', ?_⟩, hlinked, ?_⟩
      · rw [hok]
        exact if_neg hne
      · refine clientInv_withMem hinv (sameBitmap_store hinv hsmall ?_ hi
          (sameBitmap_memset hinv hsmall (List.mem_cons_self ..) 0))
        exact List.mem_cons_of_mem _ (List.mem_append_left _ h.tree.dirMem)
      · intro a ha
        rcases List.mem_cons.mp ha with heq | hmem
        · rw [heq]
          exact htlow
        · exact h.low a hmem
      · intro u hu
        refine (hwalk' u hu).trans ?_
        by_cases hui : dirIndex u = dirIndex v
        · rw [if_pos hui, entry_zeroed _ _ (tableIndex_lt u), Vmm.walk, walk, hui, hentry]
          rfl
        · rw [if_neg hui, hwalk0 u hu, hwalk u hu]
  | some t =>
    obtain ⟨hmem, -⟩ := h.tree.tableMem _ hi t hentry
    exact Or.inr ⟨t, s, pages, vmmGetPageTable_of_some true hentry,
      (h.heldPage hmem).ne_zero, h, hentry, fun _ _ => rfl⟩

/-- `vmm_map` on aligned addresses. -/
theorem vmmMap_eq (s : Vmm) (hva : v % 4096 = 0) {q : Nat} (hqa : q % 4096 = 0) :
    vmmMap s v q = (do
      let (table, s) ← vmmGetPageTable s v true
      if table = 0 then .error (.panic "VMM: vmm_get_page_table returned NULL")
      else .ok (s.withMem (s.mem.store32 (table + 4 * tableIndex v)
        (q ||| ptePresent ||| pteReadWrite)))) := by
  have haligned : ∀ b, b % 4096 = 0 → ¬ b &&& (pageSize - 1) ≠ 0 := by
    intro b hb hne
    rw [show pageSize - 1 = 2 ^ 12 - 1 from rfl, Nat.and_two_pow_sub_one_eq_mod] at hne
    exact hne hb
  rw [vmmMap, if_neg (haligned v hva), if_neg (haligned q hqa)]
  rfl

/-- **`vmm_map`** of aligned addresses: it panics for want of a low frame, or
    maps that page and no other. -/
theorem vmmMap_spec (h : VmmInv bi s pages data) (hsmall : bi.total ≤ 2 ^ 20)
    (hv : v < 2 ^ 32) (hva : v % 4096 = 0) {q : Nat} (hq : q < 2 ^ 32) (hqa : q % 4096 = 0) :
    vmmMap s v q = .error noTableFrame
    ∨ ∃ s' pages', vmmMap s v q = .ok s' ∧ VmmInv bi s' pages' data
      ∧ ∀ u, u < 2 ^ 32 → s'.walk u = if u / 4096 = v / 4096 then some q else s.walk u := by
  rw [vmmMap_eq s hva hqa]
  rcases vmmGetPageTable_spec h hsmall hv with herr | ⟨t, s1, pages1, hok, hne, h1, ht, hw⟩
  · rw [herr]
    exact Or.inl rfl
  · have hi := dirIndex_lt hv
    have hj := tableIndex_lt v
    obtain ⟨htree, hwalk⟩ := h1.tree.setEntry hi hj ht (q ||| 1 ||| 2)
    obtain ⟨hmem, -⟩ := h1.tree.tableMem _ hi _ ht
    refine Or.inr ⟨s1.withMem (s1.mem.store32 (t + 4 * tableIndex v) (q ||| 1 ||| 2)),
      pages1, ?_, ⟨?_, htree, h1.low⟩, ?_⟩
    · rw [hok]
      exact if_neg hne
    · exact clientInv_withMem h1.client (sameBitmap_store h1.client hsmall
        (List.mem_append_left _ hmem) hj fun _ _ => rfl)
    · intro u hu
      refine (hwalk u hu).trans ?_
      by_cases huv : u / 4096 = v / 4096
      · rw [if_pos (indices_eq_iff.mpr huv), if_pos huv, decode_flags hqa hq]
      · rw [if_neg fun hc => huv (indices_eq_iff.mp hc), if_neg huv]
        exact hw u hu

/-- The pages a client holds are a set: their order does not matter. -/
theorem clientInv_perm {held' : List Nat} (h : ClientInv bi ⟨p, held⟩)
    (hperm : held.Perm held') : ClientInv bi ⟨p, held'⟩ :=
  ⟨h.tight, h.total, h.size, h.kept, hperm.nodup_iff.mp h.nodup,
    fun a ha => h.held a (hperm.mem_iff.mpr ha)⟩

/-- `vmm_alloc_page` once `pmm_alloc_page` has given it a page. -/
theorem vmmAllocPage_eq {q : Nat} (hok : pmmAllocPage s.pmm = .ok (q, p')) (hq : q ≠ 0) :
    vmmAllocPage s v = (vmmMap ⟨p', s.pageDirectory⟩ v q).map fun s => (1, s) := by
  rw [vmmAllocPage, hok]
  show (if q = 0 then _ else _) = _
  rw [if_neg hq]
  cases vmmMap ⟨p', s.pageDirectory⟩ v q with
  | error e => rfl
  | ok s' => rfl

/-- What `vmm_alloc_page` does: out of memory it returns 0 and changes no
    translation; otherwise it maps the page `pmm_alloc_page` returned, or panics
    for want of a low frame. -/
theorem vmmAllocPage_spec (h : VmmInv bi s pages data) (hsmall : bi.total ≤ 2 ^ 20)
    (hv : v < 2 ^ 32) (hva : v % 4096 = 0) :
    ∃ q p', pmmAllocPage s.pmm = .ok (q, p') ∧
      ((q = 0 ∧ ∃ s', vmmAllocPage s v = .ok (0, s') ∧ VmmInv bi s' pages data
          ∧ ∀ u, u < 2 ^ 32 → s'.walk u = s.walk u)
      ∨ (q ≠ 0 ∧ (vmmAllocPage s v = .error noTableFrame
          ∨ ∃ s' pages', vmmAllocPage s v = .ok (1, s') ∧ VmmInv bi s' pages' (q :: data)
            ∧ ∀ u, u < 2 ^ 32 →
              s'.walk u = if u / 4096 = v / 4096 then some q else s.walk u))) := by
  rcases h.client.alloc hsmall (Nat.le_refl _) (pmmAllocPage_outcome h.client.tight) with
    ⟨p', hok, hinv, hgeo, -⟩ | ⟨f, p', hleast, hne, hok, hinv, htook⟩
  · obtain ⟨htree, hwalk⟩ := h.keeps_tree hsmall hgeo
    refine ⟨0, p', hok, Or.inl ⟨rfl, ⟨p', s.pageDirectory⟩, ?_, ⟨hinv, htree, h.low⟩, hwalk⟩⟩
    rw [vmmAllocPage, hok]
    rfl
  · obtain ⟨htree, hwalk⟩ := h.keeps_tree hsmall htook.geometry
    have hlt : f < s.pmm.totalBlocks := hleast.1.2.1
    have htot : s.pmm.totalBlocks = bi.total := h.client.total
    have hq0 : f * 4096 ≠ 0 := by omega
    have h1 : VmmInv bi ⟨p', s.pageDirectory⟩ pages (f * 4096 :: data) :=
      ⟨clientInv_perm hinv List.perm_middle.symm, htree, h.low⟩
    refine ⟨f * 4096, p', hok, Or.inr ⟨hq0, ?_⟩⟩
    rw [vmmAllocPage_eq hok hq0]
    rcases vmmMap_spec h1 hsmall hv hva (show f * 4096 < 2 ^ 32 by omega) (by omega) with
      herr | ⟨s', pages', hok', hinv', hw⟩
    · rw [herr]
      exact Or.inl rfl
    · rw [hok']
      refine Or.inr ⟨s', pages', rfl, hinv', fun u hu => (hw u hu).trans ?_⟩
      rw [← hwalk u hu]
      rfl

/-! ## Initialisation -/

/-- The identity loop fills the entries below `n` and writes no other page. -/
theorem vmmIdentityLoop_spec (m : Mem) (t : Nat) :
    ∀ n, n ≤ 1024 →
      (∀ j, j < n → entry (vmmIdentityLoop m t n) t j = some (j * 4096))
      ∧ ∀ x, (x < t ∨ t + 4096 ≤ x) → (vmmIdentityLoop m t n).byte x = m.byte x := by
  intro n
  induction n with
  | zero => exact fun _ => ⟨fun j hj => absurd hj (Nat.not_lt_zero j), fun _ _ => rfl⟩
  | succ n ih =>
      intro hn
      obtain ⟨hent, hbytes⟩ := ih (by omega)
      constructor
      · intro j hj
        by_cases hjn : j = n
        · rw [hjn]
          exact (entry_store_self _ t n _).trans (decode_flags (by omega) (by omega))
        · refine (entry_store_index_ne (Ne.symm hjn)).trans (hent j (by omega))
      · intro x hx
        exact (byte_store32_outside (by omega)).trans (hbytes x hx)

attribute [irreducible] vmmIdentityLoop

/-- The bits below the end of memory once the directory's page is taken and
    cleared. -/
theorem bit_dirCleared {d g : Nat} {p1 : Pmm} (hinv : ClientInv bi ⟨p1, [d]⟩)
    (hsmall : bi.total ≤ 2 ^ 20) (htook : Took (d / 4096) p p1) (hg : g < p.totalBlocks) :
    Pmm.bit { p1 with mem := memset p1.mem d 0 4096 } g = (p.bit g || decide (g = d / 4096)) := by
  have htotal : p1.totalBlocks = p.totalBlocks := htook.geometry.total
  have hcov : p1.totalBlocks ≤ 8 * p1.bitmapSize := hinv.tight.toPmmInv.total_le_cover
  rw [(sameBitmap_memset hinv hsmall (List.mem_cons_self ..) 0).bit (by omega), htook.bit]

/-- `vmm_init` after both its allocations. -/
theorem vmmInit_eq {d t : Nat} {p1 p2 : Pmm}
    (hok1 : pmmAllocPageLow p vmmLowmemLimit = .ok (d, p1)) (hd : d ≠ 0)
    (hok2 : pmmAllocPageLow { p1 with mem := memset p1.mem d 0 4096 } vmmLowmemLimit
      = .ok (t, p2)) :
    vmmInit p = if t = 0 then .error (.panic "VMM: cannot alloc first page table (lowmem)")
      else .ok ⟨{ p2 with
        mem := (vmmIdentityLoop p2.mem t 1024).store32 d
          (t ||| pdePresent ||| pdeReadWrite) }, d⟩ := by
  rw [vmmInit, hok1]
  show (if d = 0 then _ else _) = _
  rw [if_neg hd]
  show (pmmAllocPageLow { p1 with mem := memset p1.mem d 0 4096 } vmmLowmemLimit >>= _) = _
  rw [hok2]
  rfl

/-- With no second low frame, the directory's was the only one free. -/
theorem lowFrames_subsingleton {d : Nat} {p1 : Pmm} (hinv : ClientInv bi ⟨p1, [d]⟩)
    (hsmall : bi.total ≤ 2 ^ 20) (htook : Took (d / 4096) p p1)
    (hempty : clearIn (Pmm.bit { p1 with mem := memset p1.mem d 0 4096 }) 0
      (lowLimit p1 vmmLowmemLimit) = ∅) :
    (clearIn p.bit 0 (lowLimit p vmmLowmemLimit)).Subsingleton := by
  have honly : ∀ f ∈ clearIn p.bit 0 (lowLimit p vmmLowmemLimit), f = d / 4096 := by
    rintro f ⟨hf0, hflim, hfb⟩
    by_contra hne
    have hf : f < p.totalBlocks := lt_of_lt_of_le hflim (Nat.min_le_right _ _)
    refine Set.eq_empty_iff_forall_notMem.mp hempty f ⟨hf0, ?_, ?_⟩
    · rw [lowLimit, show p1.totalBlocks = p.totalBlocks from htook.geometry.total]
      exact hflim
    · rw [bit_dirCleared hinv hsmall htook hf, hfb, decide_eq_false hne]
      rfl
  exact fun f hf g hg => (honly f hf).trans (honly g hg).symm

/-- **`vmm_init`**: it panics when fewer than two frames are free below 4 MiB,
    and else leaves the identity below 4 MiB, above it not even a table, and
    every other frame as it was. -/
theorem vmmInit_spec (h : ClientInv bi ⟨p, []⟩) (hsmall : bi.total ≤ 2 ^ 20) :
    ((∃ message, vmmInit p = .error (.panic message))
      ∧ (clearIn p.bit 0 (lowLimit p vmmLowmemLimit)).Subsingleton)
    ∨ ∃ s pages, vmmInit p = .ok s ∧ VmmInv bi s pages []
      ∧ (∀ u, u < 2 ^ 32 →
        s.walk u = if u < vmmLowmemLimit then some (u / 4096 * 4096) else none)
      ∧ (∀ i, 0 < i → i < 1024 → entry s.mem s.pageDirectory i = none)
      ∧ ∀ f, p.bit f = false → f < p.totalBlocks → f * 4096 ∉ pages →
        s.pmm.bit f = false := by
  rcases allocTable h hsmall with
    ⟨p1, hok1, hempty⟩ | ⟨d, p1, hok1, hd0, hinv1, htook1, hdlow, hda, -⟩
  · refine Or.inl ⟨⟨"VMM: cannot alloc page directory (lowmem)", ?_⟩, ?_⟩
    · rw [vmmInit, hok1]
      rfl
    · rw [hempty]
      exact Set.subsingleton_empty
  -- the PMM after the directory was cleared
  have hinv1' : ClientInv bi ⟨{ p1 with mem := memset p1.mem d 0 4096 }, [d]⟩ :=
    clientInv_withMem hinv1 (sameBitmap_memset hinv1 hsmall (List.mem_cons_self ..) 0)
  rcases allocTable hinv1' hsmall with
    ⟨p2, hok2, hempty⟩ | ⟨t, p2, hok2, ht0, hinv2, htook2, htlow, hta, hfresh⟩
  · refine Or.inl ⟨⟨"VMM: cannot alloc first page table (lowmem)", ?_⟩, ?_⟩
    · rw [vmmInit_eq hok1 hd0 hok2, if_pos rfl]
    · exact lowFrames_subsingleton hinv1 hsmall htook1 hempty
  · have htlt : t < 2 ^ 32 := by
      rw [vmmLowmemLimit] at htlow
      omega
    -- the empty directory survives the second allocation and the identity loop
    have hkeep : ∀ a ∈ [d], ∀ x, a ≤ x → x < a + 4096 →
        p2.mem.byte x = (memset p1.mem d 0 4096).byte x := by
      intro a ha x hx hx'
      have hsame := clientInv_keeps hinv1' hsmall htook2.geometry ha hx hx'
      exact hsame
    have htree2 := (PageTree.empty p1.mem hda).congr hkeep
    obtain ⟨hent, hloop⟩ := vmmIdentityLoop_spec p2.mem t 1024 (Nat.le_refl _)
    obtain ⟨m, hm⟩ : ∃ m, m = vmmIdentityLoop p2.mem t 1024 := ⟨_, rfl⟩
    rw [← hm] at hent hloop
    have htree3 := htree2.1.congr fun a ha x hx hx' => hloop x (by
      have hat : a ≠ t := fun heq => hfresh (heq ▸ ha)
      rw [List.mem_singleton.mp ha] at hx hx' hat
      omega)
    obtain ⟨htree, -, hwalk⟩ := htree3.1.link (i := 0) (by decide) hfresh hta htlt
    -- and its entries stay clear
    have hclear : ∀ i, i < 1024 → entry m d i = none := by
      intro i hi
      have hdt : d ≠ t := fun heq => hfresh (heq ▸ List.mem_cons_self ..)
      rw [← entry_zeroed p1.mem d hi]
      refine entry_congr hi fun x hx hx' => ?_
      rw [hloop x (by omega)]
      exact hkeep d (List.mem_cons_self ..) x hx hx'
    have hsame2 : SameBitmap p2 (m.store32 (d + 4 * 0) (t ||| 1 ||| 2)) := by
      refine sameBitmap_store hinv2 hsmall
        (List.mem_cons_of_mem _ (List.mem_cons_self ..)) (by decide) fun x hx => ?_
      have hoff : ¬ (t ≤ x ∧ x < t + 4096) := fun hin =>
        clientInv_off_bitmap hinv2 hsmall (List.mem_cons_self ..) hin.1 hin.2 hx
      exact hloop x (by omega)
    refine Or.inr ⟨Vmm.mk { p2 with mem := m.store32 (d + 4 * 0) (t ||| 1 ||| 2) } d,
      [t, d], ?_, ⟨clientInv_withMem hinv2 hsame2, htree, ?_⟩, ?_, ?_, ?_⟩
    · rw [vmmInit_eq hok1 hd0 hok2, if_neg ht0, hm]
      rfl
    · intro a ha
      rcases List.mem_cons.mp ha with heq | hmem
      · rw [heq]
        exact htlow
      · rw [List.mem_singleton.mp hmem]
        exact hdlow
    · intro u hu
      refine (hwalk u hu).trans ?_
      have hlow : u < vmmLowmemLimit ↔ dirIndex u = 0 := by
        rw [dirIndex_eq, vmmLowmemLimit]
        omega
      by_cases hu0 : dirIndex u = 0
      · rw [if_pos hu0, if_pos (hlow.mpr hu0), hent _ (tableIndex_lt u)]
        rw [dirIndex_eq] at hu0
        rw [tableIndex_eq]
        congr 2
        omega
      · rw [if_neg hu0, if_neg fun hc => hu0 (hlow.mp hc), htree3.2 u hu, htree2.2 u hu]
        rw [walk, entry_zeroed _ _ (dirIndex_lt hu)]
        rfl
    · intro i hi0 hi
      show entry (m.store32 (d + 4 * 0) (t ||| 1 ||| 2)) d i = none
      rw [entry_store_index_ne (show 0 ≠ i by omega)]
      exact hclear i hi
    · intro f hf hlt hpages
      rw [List.mem_cons, List.mem_singleton, not_or] at hpages
      have htot1 : p1.totalBlocks = p.totalBlocks := htook1.geometry.total
      have htot2 : p2.totalBlocks = p1.totalBlocks := htook2.geometry.total
      have hcov2 : p2.totalBlocks ≤ 8 * p2.bitmapSize :=
        hinv2.tight.toPmmInv.total_le_cover
      show Pmm.bit { p2 with mem := _ } f = false
      rw [hsame2.bit (by omega), htook2.bit, bit_dirCleared hinv1 hsmall htook1 hlt, hf,
        decide_eq_false (by omega), decide_eq_false (by omega)]
      rfl

end PyramidVmm
