import PyramidOS.HeapProgramProofs
import PyramidOS.VmmFramesProofs
import Mathlib.Data.Set.Card

/-! # The heap's pages

    `heap.c` on the memory it really runs on: its pages are mapped by `vmm.c` to
    frames of `pmm.c`, and every load and store of the allocator goes through the
    tables.

    * `MapEffect`, `allocPage_cases` — what a mapping leaves alone, and which
      frames it takes;
    * `heapMapLoop_spec` — the loop of `heap_init`;
    * `Behind` — the flat heap seen through the tables: a program that stays in the
      heap runs there as on the flat memory (`Behind.runs`), and a mapping elsewhere
      changes nothing (`Behind.vmmStep`). -/

namespace PyramidPagedHeap

open ByteMem WordBitmap LoadStore TwoLevelPaging LabelledRun PyramidKernel PyramidPmm PyramidVmm
open PyramidHeap (heapStartAddr heapInitialSize heapMapLoop HeapClient HeapInv HeapStep HeapOp
  InRange liveAfter liveWithout)
open PyramidHeapProgram (InHeap)

variable {bi : BootInfo} {s s' t : Vmm} {p p' : Pmm} {pages data : List Nat} {v q f g x a : Nat}

/-! ## What a mapping leaves alone -/

/-- The bytes of the pages `data` are as they were. -/
def KeepsPages (data : List Nat) (m m' : Mem) : Prop :=
  ∀ a ∈ data, ∀ x, a ≤ x → x < a + 4096 → m'.byte x = m.byte x

theorem KeepsPages.trans {m m' m'' : Mem} (h : KeepsPages data m m')
    (h' : KeepsPages data m' m'') : KeepsPages data m m'' := fun a ha x hx hx' =>
  (h' a ha x hx hx').trans (h a ha x hx hx')

/-- Two pages among those held share no byte. -/
theorem page_apart {held : List Nat} (h : ClientInv bi ⟨p, held⟩) {b : Nat} (ha : a ∈ held)
    (hb : b ∈ held) (hne : a ≠ b) (hx : a ≤ x) (hx' : x < a + 4096) : x < b ∨ b + 4096 ≤ x := by
  have hal := (h.held a ha).aligned
  have hbl := (h.held b hb).aligned
  omega

/-- **WHAT A MAPPING DOES** besides the translation: no data page changes, and a frame is
    taken if and only if the table was missing, a low one. -/
structure MapEffect (s : Vmm) (v : Nat) (data : List Nat) (s' : Vmm) : Prop where
  total : s'.pmm.totalBlocks = s.pmm.totalBlocks
  keeps : KeepsPages data s.mem s'.mem
  free : (s.tableOf v ≠ none ∧ s'.freeFrames = s.freeFrames)
    ∨ (s.tableOf v = none ∧ ∃ t ∈ s.lowFrames, s'.freeFrames = s.freeFrames \ {t})

/-- The free frames after a step that leaves the bits of `b`. -/
theorem freeFrames_eq (htotal : s'.pmm.totalBlocks = s.pmm.totalBlocks)
    (hbit : ∀ g, g < s.pmm.totalBlocks → s'.pmm.bit g = s.pmm.bit g) :
    s'.freeFrames = s.freeFrames := by
  ext g
  rw [Vmm.freeFrames, Vmm.freeFrames, htotal]
  exact and_congr Iff.rfl (and_congr_right fun hg => by rw [hbit g hg])

/-- The free frames after a frame was taken. -/
theorem freeFrames_took (htotal : s'.pmm.totalBlocks = s.pmm.totalBlocks)
    (hbit : ∀ g, g < s.pmm.totalBlocks → s'.pmm.bit g = (s.pmm.bit g || decide (g = f))) :
    s'.freeFrames = s.freeFrames \ {f} := by
  ext g
  rw [Vmm.freeFrames, Vmm.freeFrames, htotal]
  constructor
  · rintro ⟨h0, hg, hb⟩
    rw [hbit g hg, Bool.or_eq_false_iff] at hb
    exact ⟨⟨h0, hg, hb.1⟩, of_decide_eq_false hb.2⟩
  · rintro ⟨⟨h0, hg, hb⟩, hne⟩
    refine ⟨h0, hg, ?_⟩
    rw [hbit g hg, hb, decide_eq_false (show ¬ g = f from hne)]
    rfl

/-- No call moves the page directory. -/
theorem vmmGetPageTable_dir {create : Bool} (hok : vmmGetPageTable s v create = .ok (a, s')) :
    s'.pageDirectory = s.pageDirectory := by
  rw [vmmGetPageTable] at hok
  simp only [] at hok
  split at hok
  · rw [← (Prod.mk.inj (Except.ok.inj hok)).2]
  · split at hok
    · cases halloc : pmmAllocPageLow s.pmm vmmLowmemLimit with
      | error e =>
          rw [halloc] at hok
          cases hok
      | ok r =>
          rw [halloc] at hok
          by_cases hnull : r.1 = 0
          · rw [show (Except.ok r >>= _) = _ from if_pos hnull] at hok
            cases hok
          · rw [show (Except.ok r >>= _) = _ from if_neg hnull] at hok
            rw [← (Prod.mk.inj (Except.ok.inj hok)).2]
    · rw [← (Prod.mk.inj (Except.ok.inj hok)).2]

theorem vmmMap_dir (hok : vmmMap s v q = .ok s') : s'.pageDirectory = s.pageDirectory := by
  rw [vmmMap] at hok
  split at hok
  · cases hok
  · split at hok
    · cases hok
    · cases htable : vmmGetPageTable s v true with
      | error e =>
          rw [htable] at hok
          cases hok
      | ok r =>
          rw [htable] at hok
          by_cases hnull : r.1 = 0
          · rw [show (Except.ok r >>= _) = _ from if_pos hnull] at hok
            cases hok
          · rw [show (Except.ok r >>= _) = _ from if_neg hnull] at hok
            rw [← Except.ok.inj hok]
            have hdir := vmmGetPageTable_dir htable
            exact hdir

theorem vmmAllocPage_dir {r : Nat} (hok : vmmAllocPage s v = .ok (r, s')) :
    s'.pageDirectory = s.pageDirectory := by
  rw [vmmAllocPage] at hok
  cases halloc : pmmAllocPage s.pmm with
  | error e =>
      rw [halloc] at hok
      cases hok
  | ok page =>
      rw [halloc] at hok
      by_cases hnull : page.1 = 0
      · rw [show (Except.ok page >>= _) = _ from if_pos hnull] at hok
        rw [← (Prod.mk.inj (Except.ok.inj hok)).2]
      · rw [show (Except.ok page >>= _) = _ from if_neg hnull] at hok
        cases hmap : vmmMap { s with pmm := page.2 } v page.1 with
        | error e =>
            rw [hmap] at hok
            cases hok
        | ok s'' =>
            rw [hmap] at hok
            rw [← (Prod.mk.inj (Except.ok.inj hok)).2]
            have hdir := vmmMap_dir hmap
            exact hdir

/-- `vmm_get_page_table` with `create`, when it returns. -/
theorem vmmGetPageTable_effect (h : VmmInv bi s pages data) (hsmall : bi.total ≤ 2 ^ 20)
    (hv : v < 2 ^ 32) (hok : vmmGetPageTable s v true = .ok (a, s')) : MapEffect s v data s' := by
  cases hentry : s.tableOf v with
  | some t =>
    rw [vmmGetPageTable_of_some true hentry] at hok
    rw [← (Prod.mk.inj (Except.ok.inj hok)).2]
    exact ⟨rfl, fun _ _ _ _ _ => rfl, Or.inl ⟨by rw [hentry]; exact Option.some_ne_none t, rfl⟩⟩
  | none =>
    rw [vmmGetPageTable_of_none hentry] at hok
    rcases h.client.alloc hsmall (Nat.min_le_right _ _)
      (pmmAllocPageLow_outcome h.client.tight vmmLowmemLimit) with
      ⟨p', hlow, -⟩ | ⟨t, p', hleast, hne, hlow, hinv, htook⟩
    · rw [hlow] at hok
      cases hok
    · rw [hlow, show (Except.ok (t * 4096, p') >>= _) = _ from if_neg (by omega)] at hok
      rw [← (Prod.mk.inj (Except.ok.inj hok)).2]
      have hi := dirIndex_lt hv
      have hdir : s.pageDirectory ∈ t * 4096 :: (pages ++ data) :=
        List.mem_cons_of_mem _ (List.mem_append_left _ h.tree.dirMem)
      have hfresh := (List.nodup_cons.mp hinv.nodup).1
      refine ⟨htook.geometry.total, fun a ha x hx hx' => ?_, Or.inr ⟨hentry, t, hleast.1, ?_⟩⟩
      · have hheld : a ∈ t * 4096 :: (pages ++ data) :=
          List.mem_cons_of_mem _ (List.mem_append_right _ ha)
        have hnew := page_apart hinv hheld (List.mem_cons_self ..)
          (fun heq => hfresh (heq ▸ List.mem_append_right _ ha)) hx hx'
        have hold := page_apart hinv hheld hdir (fun heq =>
          (List.nodup_append.mp h.client.nodup).2.2 _ h.tree.dirMem _ ha heq.symm) hx hx'
        refine (byte_store32_outside (by omega)).trans ?_
        rw [byte_memset, if_neg (show ¬ _ by rw [pageSize]; omega)]
        exact clientInv_keeps h.client hsmall htook.geometry (List.mem_append_right _ ha) hx hx'
      · have hcov : p'.totalBlocks ≤ 8 * p'.bitmapSize := hinv.tight.toPmmInv.total_le_cover
        have htot : p'.totalBlocks = s.pmm.totalBlocks := htook.geometry.total
        refine freeFrames_took htot fun g hg => ?_
        rw [← htook.bit g]
        exact (sameBitmap_store hinv hsmall hdir hi
          (sameBitmap_memset hinv hsmall (List.mem_cons_self ..) 0)).bit (by omega)

/-- `vmm_map` of aligned addresses, when it returns. -/
theorem vmmMap_effect (h : VmmInv bi s pages data) (hsmall : bi.total ≤ 2 ^ 20)
    (hv : v < 2 ^ 32) (hva : v % 4096 = 0) (hqa : q % 4096 = 0)
    (hok : vmmMap s v q = .ok s') : MapEffect s v data s' := by
  rw [vmmMap_eq s hva hqa] at hok
  rcases vmmGetPageTable_spec h hsmall hv with herr | ⟨t, s1, pages1, htable, hne, h1, ht, -⟩
  · rw [herr] at hok
    cases hok
  · rw [htable, show (Except.ok (t, s1) >>= _) = _ from if_neg hne] at hok
    have heffect := vmmGetPageTable_effect h hsmall hv htable
    obtain ⟨hmem, -⟩ := h1.tree.tableMem _ (dirIndex_lt hv) _ ht
    have hheld : t ∈ pages1 ++ data := List.mem_append_left _ hmem
    rw [← Except.ok.inj hok]
    have hbits : ∀ m, SameBitmap s1.pmm m → (s1.withMem m).freeFrames = s1.freeFrames := by
      intro m hm
      have hcov := h1.client.tight.toPmmInv.total_le_cover
      exact freeFrames_eq rfl fun g hg => hm.bit (Nat.lt_of_lt_of_le hg hcov)
    refine ⟨heffect.total, heffect.keeps.trans fun a ha x hx hx' => ?_, ?_⟩
    · have hapart := page_apart h1.client (List.mem_append_right _ ha) hheld (fun heq =>
        (List.nodup_append.mp h1.client.nodup).2.2 _ hmem _ ha heq.symm) hx hx'
      have hj := tableIndex_lt v
      exact byte_store32_outside (by omega)
    · have hsame : (s1.withMem (s1.mem.store32 (t + 4 * tableIndex v)
          (q ||| ptePresent ||| pteReadWrite))).freeFrames = s1.freeFrames :=
        hbits _ (sameBitmap_store h1.client hsmall hheld (tableIndex_lt v) fun _ _ => rfl)
      rw [hsame]
      exact heffect.free

theorem freeFrames_finite (s : Vmm) : s.freeFrames.Finite :=
  (Set.finite_lt_nat s.pmm.totalBlocks).subset fun _ hg => hg.2.1

/-- **WHAT `vmm_alloc_page` DOES** when it maps the page of `v` to frame `f`. -/
structure AllocEffect (s : Vmm) (v : Nat) (data : List Nat) (f : Nat) (s' : Vmm) : Prop where
  walk : ∀ u, u < 2 ^ 32 → s'.walk u = if u / 4096 = v / 4096 then some (f * 4096) else s.walk u
  keeps : KeepsPages data s.mem s'.mem
  least : IsLeast s.freeFrames f
  free : (s.tableOf v ≠ none ∧ s'.freeFrames.ncard + 1 = s.freeFrames.ncard)
    ∨ (s.tableOf v = none ∧ s.lowFrames.Nontrivial
      ∧ s'.freeFrames.ncard + 2 = s.freeFrames.ncard)

/-- **THE THREE WAYS** a call of `vmm_alloc_page` ends. -/
theorem allocPage_cases (h : VmmInv bi s pages data) (hsmall : bi.total ≤ 2 ^ 20)
    (hv : v < 2 ^ 32) (hva : v % 4096 = 0) :
    (s.freeFrames = ∅ ∧ ∃ s', vmmAllocPage s v = .ok (0, s') ∧ KeepsPages data s.mem s'.mem)
    ∨ (s.tableOf v = none ∧ ¬ s.lowFrames.Nontrivial ∧ vmmAllocPage s v = .error noTableFrame)
    ∨ ∃ f s' pages', vmmAllocPage s v = .ok (1, s') ∧ VmmInv bi s' pages' (f * 4096 :: data)
      ∧ AllocEffect s v data f s' := by
  rcases h.client.alloc hsmall (Nat.le_refl _) (pmmAllocPage_outcome h.client.tight) with
    ⟨p', hok, -, hgeo, -, hempty⟩ | ⟨f, p', hleast, hne, hok, hinv, htook⟩
  · refine Or.inl ⟨hempty, ⟨p', s.pageDirectory⟩, ?_, fun a ha x hx hx' =>
      clientInv_keeps h.client hsmall hgeo (List.mem_append_right _ ha) hx hx'⟩
    rw [vmmAllocPage, hok]
    rfl
  · have hlt : f < s.pmm.totalBlocks := hleast.1.2.1
    have htot : s.pmm.totalBlocks = bi.total := h.client.total
    obtain ⟨htree, hwalk⟩ := h.keeps_tree hsmall htook.geometry
    have h1 : VmmInv bi ⟨p', s.pageDirectory⟩ pages (f * 4096 :: data) :=
      ⟨clientInv_perm hinv List.perm_middle.symm, htree, h.low⟩
    have htable : Vmm.tableOf ⟨p', s.pageDirectory⟩ v = s.tableOf v :=
      entry_congr (dirIndex_lt hv) fun x hx hx' =>
        clientInv_keeps h.client hsmall htook.geometry
          (List.mem_append_left _ h.tree.dirMem) hx hx'
    have hlow := lowFrames_nontrivial_iff hleast htook
    have hfree : Vmm.freeFrames ⟨p', s.pageDirectory⟩ = s.freeFrames \ {f} :=
      freeFrames_took htook.geometry.total fun g _ => htook.bit g
    have hcard : (s.freeFrames \ {f}).ncard + 1 = s.freeFrames.ncard :=
      Set.ncard_sdiff_singleton_add_one hleast.1 (freeFrames_finite s)
    rw [vmmAllocPage_eq hok (by omega)]
    have hpanics := vmmMap_panics_iff h1 hsmall hv hva (show f * 4096 % 4096 = 0 by omega)
    rcases vmmMap_spec h1 hsmall hv hva (show f * 4096 < 2 ^ 32 by omega) (by omega) with
      herr | ⟨s', pages', hok', hinv', hw⟩
    · rw [htable] at hpanics
      obtain ⟨hnone, hnolow⟩ := hpanics.mp herr
      refine Or.inr (Or.inl ⟨hnone, fun hnt => hlow.mp hnt hnolow, ?_⟩)
      rw [herr]
      rfl
    · have heffect := vmmMap_effect h1 hsmall hv hva (by omega) hok'
      refine Or.inr (Or.inr ⟨f, s', pages', ?_, hinv', fun u hu => (hw u hu).trans ?_, ?_,
        hleast, ?_⟩)
      · rw [hok']
        rfl
      · rw [← hwalk u hu]
        rfl
      · refine KeepsPages.trans (fun a ha x hx hx' => ?_) fun a ha =>
          heffect.keeps a (List.mem_cons_of_mem _ ha)
        exact clientInv_keeps h.client hsmall htook.geometry (List.mem_append_right _ ha) hx hx'
      · rcases heffect.free with ⟨hsome, hsame⟩ | ⟨hnone, t, ht, hless⟩
        · rw [htable] at hsome
          refine Or.inl ⟨hsome, ?_⟩
          rw [hsame, hfree]
          exact hcard
        · rw [htable] at hnone
          have hmem : t ∈ s.freeFrames \ {f} := hfree ▸ (mem_lowFrames.mp ht).1
          have hcard' := Set.ncard_sdiff_singleton_add_one hmem
            ((freeFrames_finite s).subset Set.sdiff_subset)
          refine Or.inr ⟨hnone, hlow.mpr (Set.nonempty_iff_ne_empty.mp ⟨t, ht⟩), ?_⟩
          rw [hless, hfree]
          omega

/-! ## The pages of the heap -/

/-- Page `j` of the heap. -/
def heapPage (j : Nat) : Nat := heapStartAddr + 4096 * j

/-- The first `i` pages of the heap are mapped to data pages of their own. -/
structure Mapped (s : Vmm) (data : List Nat) (i : Nat) : Prop where
  walk : ∀ j, j < i → ∃ q ∈ data, s.walk (heapPage j) = some q
  inj : ∀ j k, j < i → k < i → s.walk (heapPage j) = s.walk (heapPage k) → j = k

theorem heapPage_lt {j : Nat} (hj : j ≤ 256) : heapPage j < 2 ^ 32 ∧ heapPage j % 4096 = 0 := by
  rw [heapPage, heapStartAddr]
  omega

/-- **ONE MORE PAGE**. -/
theorem Mapped.step {i : Nat} (hm : Mapped s data i) (hi : i < 256)
    (hinv : VmmInv bi s' pages (f * 4096 :: data))
    (he : AllocEffect s (heapPage i) data f s') : Mapped s' (f * 4096 :: data) (i + 1) := by
  have hfresh : f * 4096 ∉ data :=
    (List.nodup_cons.mp (List.nodup_append.mp hinv.client.nodup).2.1).1
  have hlast : s'.walk (heapPage i) = some (f * 4096) :=
    (he.walk _ (heapPage_lt (Nat.le_of_lt hi)).1).trans (if_pos rfl)
  have hold : ∀ j, j < i → s'.walk (heapPage j) = s.walk (heapPage j) := by
    intro j hj
    rw [he.walk _ (heapPage_lt (by omega)).1, if_neg]
    rw [heapPage, heapPage, heapStartAddr]
    omega
  -- an old page is mapped to an old frame
  have hne : ∀ j, j < i → s'.walk (heapPage j) ≠ s'.walk (heapPage i) := by
    intro j hj heq
    obtain ⟨q, hq, hwalk⟩ := hm.walk j hj
    rw [hold j hj, hwalk, hlast] at heq
    exact hfresh (Option.some.inj heq ▸ hq)
  refine ⟨fun j hj => ?_, fun j k hj hk heq => ?_⟩
  · by_cases hji : j = i
    · rw [hji]
      exact ⟨_, List.mem_cons_self .., hlast⟩
    · obtain ⟨q, hq, hwalk⟩ := hm.walk j (by omega)
      exact ⟨q, List.mem_cons_of_mem _ hq, (hold j (by omega)).trans hwalk⟩
  · by_cases hji : j = i
    · by_cases hki : k = i
      · rw [hji, hki]
      · exact absurd (hji ▸ heq.symm) (hne k (by omega))
    · by_cases hki : k = i
      · exact absurd (hki ▸ heq) (hne j (by omega))
      · rw [hold j (by omega), hold k (by omega)] at heq
        exact hm.inj j k (by omega) (by omega) heq

/-- A page that is mapped has a table, and so has its neighbour in the heap. -/
theorem tableOf_heap {i : Nat} (hi : i < 256) (hwalk : s.walk (heapPage i) = some q) :
    s.tableOf (heapPage (i + 1)) ≠ none ∨ i + 1 = 256 := by
  by_cases hlast : i + 1 = 256
  · exact Or.inr hlast
  · refine Or.inl fun hnone => ?_
    have hsame : dirIndex (heapPage (i + 1)) = dirIndex (heapPage i) := by
      rw [dirIndex_eq, dirIndex_eq, heapPage, heapPage, heapStartAddr]
      omega
    have hentry : entry s.mem s.pageDirectory (dirIndex (heapPage i)) = none := hsame ▸ hnone
    rw [Vmm.walk, walk, hentry] at hwalk
    cases hwalk

/-- The panic of `heap_init`. -/
def noHeapPage : Halt := .panic "HEAP: vmm_alloc_page failed during heap_init()"

/-- One round of the loop of `heap_init`. -/
theorem heapMapLoop_succ {i fuel : Nat} (hi : i < 256) :
    heapMapLoop (u32 (heapStartAddr + heapInitialSize)) (fuel + 1) s (heapPage i) = (do
      let (mapped, s) ← vmmAllocPage s (heapPage i)
      if mapped = 0 then .error noHeapPage
      else heapMapLoop (u32 (heapStartAddr + heapInitialSize)) fuel s (heapPage (i + 1))) := by
  have hend : u32 (heapStartAddr + heapInitialSize) = 0xD0100000 := rfl
  have hlt : heapPage i < u32 (heapStartAddr + heapInitialSize) := by
    rw [hend, heapPage, heapStartAddr]
    omega
  have hnext : u32 (heapPage i + 4096) = heapPage (i + 1) := by
    rw [heapPage, heapPage, heapStartAddr, u32_of_lt (by omega)]
    omega
  rw [heapMapLoop, if_pos hlt, hnext]
  rfl

/-- **THE LOOP OF `heap_init`** over the last `n` pages, once there is a table: it maps them
    all if `n` frames are free, and else it panics; by induction on `n`. -/
theorem heapMapLoop_spec (hsmall : bi.total ≤ 2 ^ 20) :
    ∀ (n i : Nat) (s : Vmm) (pages data : List Nat) (fuel : Nat), i + n = 256 → n < fuel →
      VmmInv bi s pages data → Mapped s data i → (s.tableOf (heapPage i) ≠ none ∨ n = 0) →
      (n ≤ s.freeFrames.ncard ∧ ∃ s' pages' data',
        heapMapLoop (u32 (heapStartAddr + heapInitialSize)) fuel s (heapPage i) = .ok s'
          ∧ VmmInv bi s' pages' data' ∧ Mapped s' data' 256
          ∧ s'.freeFrames.ncard + n = s.freeFrames.ncard)
      ∨ (s.freeFrames.ncard < n
        ∧ heapMapLoop (u32 (heapStartAddr + heapInitialSize)) fuel s (heapPage i)
          = .error noHeapPage) := by
  intro n
  induction n with
  | zero =>
      intro i s pages data fuel hin hfuel h hm _
      obtain ⟨fuel, rfl⟩ := Nat.exists_eq_succ_of_ne_zero (Nat.ne_of_gt hfuel)
      have hi : i = 256 := hin
      refine Or.inl ⟨Nat.zero_le _, s, pages, data, ?_, h, hi ▸ hm, rfl⟩
      rw [hi, heapMapLoop, if_neg (by decide)]
  | succ n ih =>
      intro i s pages data fuel hin hfuel h hm htable
      obtain ⟨fuel, rfl⟩ := Nat.exists_eq_succ_of_ne_zero (show fuel ≠ 0 by omega)
      have htable : s.tableOf (heapPage i) ≠ none := htable.resolve_right (Nat.succ_ne_zero n)
      obtain ⟨hv, hva⟩ := heapPage_lt (show i ≤ 256 by omega)
      rw [heapMapLoop_succ (by omega)]
      rcases allocPage_cases h hsmall hv hva with
        ⟨hempty, s', hok, -⟩ | ⟨hnone, -⟩ | ⟨f, s', pages', hok, hinv, he⟩
      · rw [hok]
        refine Or.inr ⟨?_, rfl⟩
        rw [hempty, Set.ncard_empty]
        exact Nat.succ_pos n
      · exact absurd hnone htable
      · have hcard : s'.freeFrames.ncard + 1 = s.freeFrames.ncard := by
          rcases he.free with ⟨-, hcard⟩ | ⟨hnone, -⟩
          · exact hcard
          · exact absurd hnone htable
        have hm' := hm.step (by omega) hinv he
        obtain ⟨q, -, hwalk⟩ := hm'.walk i (Nat.lt_succ_self i)
        have htable' := (tableOf_heap (by omega) hwalk).imp id
          fun heq => show n = 0 by omega
        rw [hok]
        rcases ih (i + 1) s' pages' _ fuel (by omega) (by omega) hinv hm' htable' with
          ⟨hle, s'', pages'', data'', hloop, hinv'', hm'', hcard''⟩ | ⟨hlt, hloop⟩
        · exact Or.inl ⟨by omega, s'', pages'', data'', hloop, hinv'', hm'', by omega⟩
        · exact Or.inr ⟨by omega, hloop⟩

/-! ## `heap_init` -/

/-- How a call can stop: on a panic of the kernel's, or on a page fault. -/
inductive Stop where
  | halt (h : Halt)
  | pageFault

/-- A program run behind the page tables. -/
def runPaged {α : Type} (s : Vmm) (p : Prog Halt α) : Except Stop (α × Vmm) :=
  match p.paged s.pageDirectory s.mem with
  | none => .error .pageFault
  | some (.error e, _) => .error (.halt e)
  | some (.ok r, m) => .ok (r, s.withMem m)

/-- The VMM, `start_header`, and what the clients of the heap hold. -/
structure PagedHeap where
  vmm : Vmm
  startHeader : Nat
  live : List (Nat × Nat)

/-- `heap_init`: the pages first, then the first block through them. -/
def heapInit (s : Vmm) : Except Stop PagedHeap :=
  match heapMapLoop (u32 (heapStartAddr + heapInitialSize)) (2 ^ 20) s heapStartAddr with
  | .error e => .error (.halt e)
  | .ok s =>
      match runPaged s PyramidHeapProgram.heapFirstBlock with
      | .error e => .error e
      | .ok ((), s) => .ok ⟨s, heapStartAddr, []⟩

/-- An address of the heap lies in one of its pages. -/
theorem inHeap_page (hv : InHeap v) : ∃ j, j < 256 ∧ v / 4096 * 4096 = heapPage j := by
  obtain ⟨hlo, hhi⟩ := hv
  rw [heapStartAddr] at hlo
  rw [heapStartAddr, heapInitialSize] at hhi
  refine ⟨(v - 0xD0000000) / 4096, by omega, ?_⟩
  rw [heapPage, heapStartAddr]
  omega

theorem inHeap_lt (hv : InHeap v) : v < 2 ^ 32 := by
  obtain ⟨-, hhi⟩ := hv
  rw [heapStartAddr, heapInitialSize] at hhi
  omega

/-- Every address of the heap is mapped into a data page. -/
def HeapMapped (s : Vmm) (data : List Nat) : Prop :=
  ∀ v, InHeap v → ∃ q ∈ data, s.walk v = some q

theorem HeapMapped.translate (h : HeapMapped s data) (hv : InHeap v) :
    ∃ q ∈ data, s.translate v = some (q + v % 4096) := by
  obtain ⟨q, hq, hwalk⟩ := h v hv
  exact ⟨q, hq, congrArg (Option.map fun frame => frame + v % 4096) hwalk⟩

/-- A data page is none of the pages of the tree. -/
theorem data_offPages (h : VmmInv bi s pages data) (hq : q ∈ data) (hx : q ≤ x)
    (hx' : x < q + 4096) : OffPages pages x := by
  intro b hb hin
  have happart := page_apart h.client (List.mem_append_right _ hq) (List.mem_append_left _ hb)
    (fun heq => (List.nodup_append.mp h.client.nodup).2.2 _ hb _ hq heq.symm) hx hx'
  omega

/-- **THE WINDOW ON THE HEAP**, once all its pages are mapped. -/
theorem Mapped.window (hm : Mapped s data 256) (h : VmmInv bi s pages data) :
    HeapMapped s data ∧ ∃ flat, Window s.mem s.pageDirectory pages InHeap flat := by
  have hmapped : HeapMapped s data := by
    intro v hv
    obtain ⟨j, hj, hpage⟩ := inHeap_page hv
    obtain ⟨q, hq, hwalk⟩ := hm.walk j hj
    refine ⟨q, hq, ?_⟩
    rw [Vmm.walk, walk_page, hpage]
    exact hwalk
  refine ⟨hmapped, ⟨fun v => ((s.translate v).map s.mem.byte).getD 0, []⟩, h.tree,
    fun v => inHeap_lt, fun v hv => ?_, fun u v hu hv heq => ?_⟩
  · obtain ⟨q, hq, htrans⟩ := hmapped.translate hv
    refine ⟨q + v % 4096, htrans, ?_, data_offPages h hq (by omega) (by omega)⟩
    show _ = ((s.translate v).map s.mem.byte).getD 0
    rw [htrans]
    rfl
  · -- distinct pages have distinct frames, and the offset is the address's own
    obtain ⟨q, hq, htrans⟩ := hmapped.translate hu
    obtain ⟨q', hq', htrans'⟩ := hmapped.translate hv
    have hsame : q + u % 4096 = q' + v % 4096 :=
      Option.some.inj ((htrans.symm.trans heq).trans htrans')
    have hal := (h.client.held q (List.mem_append_right _ hq)).aligned
    have hal' := (h.client.held q' (List.mem_append_right _ hq')).aligned
    obtain ⟨j, hj, hpage⟩ := inHeap_page hu
    obtain ⟨k, hk, hpage'⟩ := inHeap_page hv
    have hwalks : s.walk (heapPage j) = s.walk (heapPage k) := by
      obtain ⟨r, -, hr⟩ := hmapped u hu
      obtain ⟨r', -, hr'⟩ := hmapped v hv
      have hqr : q + u % 4096 = r + u % 4096 := Option.some.inj
        (htrans.symm.trans (congrArg (Option.map fun frame => frame + u % 4096) hr))
      have hqr' : q' + v % 4096 = r' + v % 4096 := Option.some.inj
        (htrans'.symm.trans (congrArg (Option.map fun frame => frame + v % 4096) hr'))
      rw [← hpage, ← hpage', Vmm.walk, Vmm.walk, ← walk_page, ← walk_page]
      rw [Vmm.walk] at hr hr'
      rw [hr, hr', show r = r' by omega]
    have hjk := hm.inj j k hj hk hwalks
    rw [hjk] at hpage
    omega

/-! ## Running in the window -/

/-- The heap's pages, and the flat memory seen through them. -/
structure Behind (bi : BootInfo) (s : Vmm) (pages data : List Nat) (flat : Mem) : Prop where
  vmm : VmmInv bi s pages data
  mapped : HeapMapped s data
  window : Window s.mem s.pageDirectory pages InHeap flat

/-- No byte but those behind the heap's addresses is changed, and no translation. -/
def HeapOnly (s s' : Vmm) : Prop := Confined s.pageDirectory InHeap s.mem s'.mem

/-- A byte that is not behind the heap, as every byte of the bitmap and of the tables. -/
theorem Behind.beside {flat : Mem} (h : Behind bi s pages data flat)
    (hx : ∀ q ∈ data, ¬ (q ≤ x ∧ x < q + 4096)) : Beside s.mem s.pageDirectory InHeap x := by
  intro v hv heq
  obtain ⟨q, hq, htrans⟩ := h.mapped.translate hv
  have hsame : q + v % 4096 = x := Option.some.inj (htrans.symm.trans heq)
  exact hx q hq (by omega)

/-- **ONE PROGRAM** of loads and stores that stays in the heap runs behind the tables as on
    the flat memory. -/
theorem Behind.runs {flat flat' : Mem} {α : Type} {r : α} {prog : Prog Halt α}
    (h : Behind bi s pages data flat) (hsmall : bi.total ≤ 2 ^ 20)
    (hprog : prog.Returns InHeap flat r flat') :
    ∃ s', runPaged s prog = .ok (r, s') ∧ Behind bi s' pages data flat' ∧ HeapOnly s s'
      ∧ s'.freeFrames = s.freeFrames := by
  obtain ⟨r', m', flat'', hrun, ⟨rfl, rfl⟩, hwin, hconf⟩ := h.window.runs hprog
  have hbitmap : SameBitmap s.pmm m' := fun x hx => hconf.beside x <| h.beside fun q hq hin =>
    clientInv_off_bitmap h.vmm.client hsmall (List.mem_append_right _ hq) hin.1 hin.2 hx
  refine ⟨s.withMem m', ?_, ⟨⟨clientInv_withMem h.vmm.client hbitmap, hwin.tree, h.vmm.low⟩,
    fun v hv => ?_, hwin⟩, hconf, ?_⟩
  · rw [runPaged, hrun]
  · obtain ⟨q, hq, hwalk⟩ := h.mapped v hv
    exact ⟨q, hq, (hconf.walk v (inHeap_lt hv)).trans hwalk⟩
  · have hcov := h.vmm.client.tight.toPmmInv.total_le_cover
    exact freeFrames_eq rfl fun g hg => hbitmap.bit (Nat.lt_of_lt_of_le hg hcov)

/-- The page that a call of the VMM maps. -/
def page : VmmEvent → Nat
  | .map vaddr _ => vaddr.toNat
  | .allocPage vaddr _ => vaddr.toNat

/-- A call of the VMM leaves the data pages alone. -/
theorem vmmStep_keeps {e : VmmEvent} (h : VmmInv bi s pages data) (hsmall : bi.total ≤ 2 ^ 20)
    (hst : VmmStep s e t) : KeepsPages data s.mem t.mem := by
  cases hst with
  | map hhigh hvaddr hpaddr hok =>
      exact (vmmMap_effect h hsmall (UInt32.toNat_lt _) hvaddr hpaddr hok).keeps
  | allocPage hhigh hvaddr hphys hok =>
      rcases allocPage_cases h hsmall (UInt32.toNat_lt _) hvaddr with
        ⟨-, s', hok', hkeeps⟩ | ⟨-, -, herr⟩ | ⟨f, s', pages', hok', -, heffect⟩
      · rw [hok'] at hok
        exact (Prod.mk.inj (Except.ok.inj hok)).2 ▸ hkeeps
      · rw [herr] at hok
        cases hok
      · rw [hok'] at hok
        exact (Prod.mk.inj (Except.ok.inj hok)).2 ▸ heffect.keeps

/-- **ONE MAPPING ELSEWHERE** leaves the window. -/
theorem Behind.vmmStep {flat : Mem} {e : VmmEvent} (h : Behind bi s pages data flat)
    (hsmall : bi.total ≤ 2 ^ 20) (hst : VmmStep s e t) (hout : ¬ InHeap (page e)) :
    ∃ pages' data', Behind bi t pages' data' flat := by
  obtain ⟨pages', hinv, hwalk⟩ := h.vmm.step hsmall hst
  have hdir : t.pageDirectory = s.pageDirectory := by
    cases hst with
    | map hhigh hvaddr hpaddr hok => exact vmmMap_dir hok
    | allocPage hhigh hvaddr hphys hok => exact vmmAllocPage_dir hok
  -- the page mapped is none of the heap's
  have hsame : ∀ v, InHeap v → t.walk v = s.walk v := by
    intro v hv
    obtain ⟨j, hj, hpage⟩ := inHeap_page hv
    have hnone : e.mapped (heapPage j) = none := by
      have hne : heapPage j ≠ page e := by
        intro heq
        refine hout (heq ▸ ⟨Nat.le_add_right _ _, ?_⟩)
        rw [heapPage, heapInitialSize]
        omega
      cases e with
      | map vaddr paddr => exact if_neg hne
      | allocPage vaddr phys => exact if_neg fun hc => hne hc.2
    have hstep := hwalk (heapPage j) (heapPage_lt (Nat.le_of_lt hj)).1
      (heapPage_lt (Nat.le_of_lt hj)).2
    rw [hnone, Option.none_or, ← hpage, Vmm.walk, Vmm.walk, ← walk_page, ← walk_page] at hstep
    exact hstep
  have hkeeps := vmmStep_keeps h.vmm hsmall hst
  refine ⟨pages', _, hinv, fun v hv => ?_, ?_⟩
  · obtain ⟨q, hq, hw⟩ := h.mapped v hv
    exact ⟨q, List.mem_append_right _ hq, (hsame v hv).trans hw⟩
  · rw [hdir]
    have htree := hinv.tree
    rw [hdir] at htree
    refine h.window.congr htree (fun v hv => ?_) fun v x hv hx => ?_
    · have hw := hsame v hv
      rw [Vmm.walk, hdir] at hw
      exact hw
    · obtain ⟨q, hq, htrans⟩ := h.mapped.translate hv
      have heq : q + v % 4096 = x := Option.some.inj (htrans.symm.trans hx)
      exact ⟨hkeeps q hq x (by omega) (by omega),
        data_offPages hinv (List.mem_append_right _ hq) (by omega) (by omega)⟩

end PyramidPagedHeap
