import PyramidOS.HeapWindowProofs
import Mathlib.Order.Interval.Finset.Nat

/-! # The heap behind the page tables

    * `boot_memory_iff` — the kernel's memory managers come up exactly when 259
      frames are free, four of them below 4 MiB;
    * `paged_heap_run` — over every run of allocations, releases, stores by the
      holders and mappings elsewhere, the heap behind the tables is the flat heap;
      no access faults, and no byte of a table or of the bitmap is touched. -/

namespace PyramidPagedHeap

open ByteMem WordBitmap LoadStore TwoLevelPaging LabelledRun PyramidKernel PyramidPmm PyramidVmm
open PyramidHeap (heapStartAddr heapInitialSize heapMapLoop HeapClient HeapInv HeapStep HeapOp
  InRange liveAfter liveWithout)
open PyramidHeapProgram (InHeap)

variable {bi : BootInfo} {s s' t : Vmm} {p p' : Pmm} {pages data : List Nat} {v q f g x a : Nat}

/-! ## When `heap_init` returns -/

/-- The rest of `heap_init` once the pages are mapped. -/
theorem heapInit_mapped (h : VmmInv bi t pages data) (hm : Mapped t data 256)
    (hsmall : bi.total ≤ 2 ^ 20)
    (hloop : heapMapLoop (u32 (heapStartAddr + heapInitialSize)) (2 ^ 20) s heapStartAddr
      = .ok t) :
    ∃ vmm flat, heapInit s = .ok ⟨vmm, heapStartAddr, []⟩
      ∧ Behind bi vmm pages data (PyramidHeap.heapFirstBlock flat).mem
      ∧ vmm.freeFrames = t.freeFrames := by
  obtain ⟨hmapped, flat, hwin⟩ := hm.window h
  obtain ⟨vmm, hrun, hbehind, -, hfree⟩ := Behind.runs ⟨h, hmapped, hwin⟩ hsmall
    (PyramidHeapProgram.heapFirstBlock_returns
      (PyramidHeapProgram.headerIn (Nat.le_refl _) (by decide)))
  refine ⟨vmm, flat, ?_, hbehind, hfree⟩
  rw [heapInit, hloop]
  simp only []
  rw [hrun]

/-- **`heap_init`** with no table for the heap yet: it returns with the heap behind the
    window if 257 frames are free, two of them low, and else it panics. -/
theorem heapInit_spec (h : VmmInv bi s pages data) (hsmall : bi.total ≤ 2 ^ 20)
    (hnone : s.tableOf heapStartAddr = none) :
    (257 ≤ s.freeFrames.ncard ∧ s.lowFrames.Nontrivial ∧ ∃ vmm pages' data' flat,
      heapInit s = .ok ⟨vmm, heapStartAddr, []⟩
        ∧ Behind bi vmm pages' data' (PyramidHeap.heapFirstBlock flat).mem
        ∧ vmm.freeFrames.ncard + 257 = s.freeFrames.ncard)
    ∨ (¬ (257 ≤ s.freeFrames.ncard ∧ s.lowFrames.Nontrivial)
      ∧ ∃ message, heapInit s = .error (.halt (.panic message))) := by
  have hpage : heapStartAddr = heapPage 0 := rfl
  obtain ⟨fuel, hfuel, hlarge⟩ : ∃ n, 2 ^ 20 = n + 1 ∧ 255 < n := ⟨1048575, rfl, by decide⟩
  have hround := @heapMapLoop_succ s 0 fuel (by decide)
  have hfail : ∀ e, heapMapLoop (u32 (heapStartAddr + heapInitialSize)) (fuel + 1) s (heapPage 0)
      = .error e → heapInit s = .error (.halt e) := by
    intro e he
    rw [← hfuel, ← hpage] at he
    rw [heapInit, he]
  rw [hpage] at hnone
  obtain ⟨hv, hva⟩ := heapPage_lt (show 0 ≤ 256 by decide)
  rcases allocPage_cases h hsmall hv hva with
    ⟨hempty, s', hok, -⟩ | ⟨-, hlow, herr⟩ | ⟨f, s', pages', hok, hinv, he⟩
  · rw [hok] at hround
    refine Or.inr ⟨fun hc => ?_, _, hfail _ hround⟩
    rw [hempty, Set.ncard_empty] at hc
    exact absurd hc.1 (by decide)
  · rw [herr] at hround
    exact Or.inr ⟨fun hc => hlow hc.2, _, hfail _ hround⟩
  · -- the first call brings the table, and the others need one frame each
    rw [hok] at hround
    obtain ⟨hlow, hcard⟩ : s.lowFrames.Nontrivial
        ∧ s'.freeFrames.ncard + 2 = s.freeFrames.ncard := by
      rcases he.free with ⟨hsome, -⟩ | ⟨-, hcard⟩
      · exact absurd hnone hsome
      · exact hcard
    have hm : Mapped s data 0 :=
      ⟨fun j hj => absurd hj (Nat.not_lt_zero j), fun j _ hj => absurd hj (Nat.not_lt_zero j)⟩
    have hm1 := hm.step (by decide) hinv he
    obtain ⟨q, -, hwalk⟩ := hm1.walk 0 (by decide)
    have htable := (tableOf_heap (by decide) hwalk).imp id fun heq => show 255 = 0 by omega
    rcases heapMapLoop_spec hsmall 255 1 s' pages' _ fuel rfl hlarge hinv hm1 htable with
      ⟨hle, t, pages'', data'', hloop, hinv'', hm'', hcard''⟩ | ⟨hlt, hloop⟩
    · have hloop := hround.trans hloop
      rw [← hfuel, ← hpage] at hloop
      obtain ⟨vmm, flat, hinit, hbehind, hfree⟩ := heapInit_mapped hinv'' hm'' hsmall hloop
      exact Or.inl ⟨by omega, hlow, vmm, _, _, flat, hinit, hbehind, by rw [hfree]; omega⟩
    · exact Or.inr ⟨fun hc => by omega, _, hfail _ (hround.trans hloop)⟩

/-- The two frames of `vmm_init`, low ones. -/
theorem vmmInit_takes (h : ClientInv bi ⟨p, []⟩) (hsmall : bi.total ≤ 2 ^ 20) (d₀ : Nat)
    (hok : vmmInit p = .ok s) :
    ∃ d t, d ∈ Vmm.lowFrames ⟨p, d₀⟩ ∧ t ∈ Vmm.lowFrames ⟨p, d₀⟩ \ {d}
      ∧ s.freeFrames = (Vmm.freeFrames ⟨p, d₀⟩ \ {d}) \ {t} := by
  rcases h.alloc hsmall (Nat.min_le_right _ _)
    (pmmAllocPageLow_outcome h.tight vmmLowmemLimit) with
    ⟨p1, hok1, -⟩ | ⟨d, p1, hleast1, hd, hok1, hinv1, htook1⟩
  · rw [vmmInit, hok1] at hok
    cases hok
  have hinv1' : ClientInv bi ⟨{ p1 with mem := memset p1.mem (d * 4096) 0 4096 }, [d * 4096]⟩ :=
    clientInv_withMem hinv1 (sameBitmap_memset hinv1 hsmall (List.mem_cons_self ..) 0)
  have hlim : lowLimit p1 vmmLowmemLimit = lowLimit p vmmLowmemLimit := by
    rw [lowLimit, lowLimit, htook1.geometry.total]
  have hbit1 : ∀ g, g < p.totalBlocks →
      Pmm.bit { p1 with mem := memset p1.mem (d * 4096) 0 4096 } g
        = (p.bit g || decide (g = d)) := by
    intro g hg
    have hbit := bit_dirCleared hinv1 hsmall (show Took (d * 4096 / 4096) p p1 by
      rw [Nat.mul_div_cancel _ (by decide)]
      exact htook1) hg
    rw [Nat.mul_div_cancel _ (by decide)] at hbit
    exact hbit
  rcases hinv1'.alloc hsmall (Nat.min_le_right _ _)
    (pmmAllocPageLow_outcome hinv1'.tight vmmLowmemLimit) with
    ⟨p2, hok2, -⟩ | ⟨t, p2, hleast2, ht, hok2, hinv2, htook2⟩
  · rw [vmmInit_eq hok1 (by omega) hok2, if_pos rfl] at hok
    cases hok
  rw [vmmInit_eq hok1 (by omega) hok2, if_neg (by omega)] at hok
  have hmem : ∀ g, g ∈ clearIn (Pmm.bit { p1 with mem := memset p1.mem (d * 4096) 0 4096 }) 0
      (lowLimit p1 vmmLowmemLimit) → g ∈ Vmm.lowFrames ⟨p, d₀⟩ \ {d} := by
    rintro g ⟨h0, hg, hb⟩
    rw [hlim] at hg
    rw [hbit1 g (Nat.lt_of_lt_of_le hg (Nat.min_le_right _ _)), Bool.or_eq_false_iff] at hb
    exact ⟨⟨h0, hg, hb.1⟩, of_decide_eq_false hb.2⟩
  refine ⟨d, t, hleast1.1, hmem t hleast2.1, ?_⟩
  have htot1 : p1.totalBlocks = p.totalBlocks := htook1.geometry.total
  have htot2 : p2.totalBlocks = p1.totalBlocks := htook2.geometry.total
  have hcov : p2.totalBlocks ≤ 8 * p2.bitmapSize := hinv2.tight.toPmmInv.total_le_cover
  have hfree1 : Vmm.freeFrames ⟨{ p1 with mem := memset p1.mem (d * 4096) 0 4096 }, d * 4096⟩
      = Vmm.freeFrames ⟨p, d₀⟩ \ {d} := freeFrames_took htot1 hbit1
  rw [← hfree1, ← Except.ok.inj hok]
  refine freeFrames_took htot2 fun g hg => ?_
  rw [← htook2.bit g]
  -- the identity table and the directory are filled in afterwards
  obtain ⟨-, hloop⟩ := vmmIdentityLoop_spec p2.mem (t * 4096) 1024 (Nat.le_refl _)
  generalize vmmIdentityLoop p2.mem (t * 4096) 1024 = m at hloop ⊢
  have hsame : SameBitmap p2 (m.store32 (d * 4096 + 4 * 0)
      (t * 4096 ||| pdePresent ||| pdeReadWrite)) := by
    refine sameBitmap_store hinv2 hsmall (List.mem_cons_of_mem _ (List.mem_cons_self ..))
      (by decide) fun x hx => ?_
    have hoff : ¬ (t * 4096 ≤ x ∧ x < t * 4096 + 4096) := fun hin =>
      clientInv_off_bitmap hinv2 hsmall (List.mem_cons_self ..) hin.1 hin.2 hx
    exact hloop x (by omega)
  rw [Nat.mul_zero, Nat.add_zero] at hsame
  have hlt : g < p1.totalBlocks := hg
  exact hsame.bit (by omega)

/-- The frames that are free after `pmm_init`. -/
def initFrames (bi : BootInfo) : Set Nat := {f | bi.InitFree f}

/-- The low ones of them. -/
def initLowFrames (bi : BootInfo) : Set Nat := {f | bi.InitFree f ∧ f < 1024}

theorem freeFrames_init {mem : Mem} (hbi : bi.Below4GiB) (hinit : pmmInit mem bi = .ok p)
    (d : Nat) : Vmm.freeFrames ⟨p, d⟩ = initFrames bi
      ∧ Vmm.lowFrames ⟨p, d⟩ = initLowFrames bi := by
  have hsmall := total_le hbi
  obtain ⟨-, htot, -, hbits⟩ := pmmInit_ok hinit (by omega)
  have hall : Vmm.freeFrames ⟨p, d⟩ = initFrames bi := by
    ext f
    constructor
    · rintro ⟨-, hf, hb⟩
      have hf : f < p.totalBlocks := hf
      exact (hbits f (htot ▸ hf)).mp hb
    · intro hf
      have hlt := hf.1.lt_total
      exact ⟨Nat.zero_le f, htot ▸ hlt, (hbits f hlt).mpr hf⟩
  refine ⟨hall, ?_⟩
  ext f
  rw [mem_lowFrames, hall]
  exact Iff.rfl

/-- `vmm_init` takes two low frames. -/
theorem vmmInit_leaves {mem : Mem} (hbi : bi.Below4GiB) (hinit : pmmInit mem bi = .ok p)
    (hok : vmmInit p = .ok s) :
    s.freeFrames.ncard + 2 = (initFrames bi).ncard
      ∧ s.lowFrames.ncard + 2 = (initLowFrames bi).ncard := by
  obtain ⟨p', hinit', h0⟩ := pmmInit_clientInv mem hbi
  rw [← Except.ok.inj (hinit.symm.trans hinit')] at h0
  obtain ⟨hfree, hlow⟩ := freeFrames_init hbi hinit 0
  have hfin : (initFrames bi).Finite := hfree ▸ freeFrames_finite _
  have hfinLow : (initLowFrames bi).Finite := hfin.subset fun f hf => hf.1
  obtain ⟨d, t, hd, ht, hleft⟩ := vmmInit_takes h0 (total_le hbi) 0 hok
  rw [hlow] at hd ht
  rw [hfree] at hleft
  have hlowleft : s.lowFrames = (initLowFrames bi \ {d}) \ {t} := by
    ext f
    rw [mem_lowFrames, hleft]
    constructor
    · rintro ⟨⟨⟨hf, hfd⟩, hft⟩, hlt⟩
      exact ⟨⟨⟨hf, hlt⟩, hfd⟩, hft⟩
    · rintro ⟨⟨⟨hf, hlt⟩, hfd⟩, hft⟩
      exact ⟨⟨⟨hf, hfd⟩, hft⟩, hlt⟩
  -- one frame less, twice
  have htwo : ∀ {A : Set Nat}, A.Finite → d ∈ A → t ∈ A \ {d} →
      ((A \ {d}) \ {t}).ncard + 2 = A.ncard := by
    intro A hA hd ht
    have h1 := Set.ncard_sdiff_singleton_add_one hd hA
    have h2 := Set.ncard_sdiff_singleton_add_one ht (hA.subset Set.sdiff_subset)
    omega
  rw [hleft, hlowleft]
  exact ⟨htwo hfin hd.1 ⟨ht.1.1, ht.2⟩, htwo hfinLow hd ht⟩

/-- Memory from 1 MiB to 5 MiB. -/
def fourMiB : BootInfo := ⟨0x8000, [⟨0x100000, 0x400000, 1⟩]⟩

theorem fourMiB_below : fourMiB.Below4GiB := by decide

theorem fourMiB_free (hlo : 256 ≤ f) (hhi : f < 1280) : fourMiB.InitFree f := by
  have htotal : fourMiB.total = 1280 := rfl
  have hsize : fourMiB.bitmapSize = 160 := rfl
  refine ⟨⟨⟨0x100000, 0x400000, 1⟩, List.mem_singleton_self _, rfl, ?_⟩, ?_⟩
  · rw [htotal]
    exact ⟨by decide, show 0x100000 / 4096 ≤ f by omega,
      show f < (0x100000 + 0x400000 + 4095) % 2 ^ 64 / 4096 by omega, hhi⟩
  · rw [BootInfo.Locked, htotal, hsize]
    rintro (⟨-, -, h, -⟩ | ⟨-, -, h, -⟩ | ⟨-, -, h, -⟩ | ⟨-, -, h, -⟩)
    · have h : f < (0x0 + 0x1000 + 4095) % 2 ^ 64 / 4096 := h
      omega
    · have h : f < (0x10000 + 0x8000 + 4095) % 2 ^ 64 / 4096 := h
      omega
    · have h : f < (0x20000 + 160 + 4095) % 2 ^ 64 / 4096 := h
      omega
    · have h : f < (0x5000 + 0x1000 + 4095) % 2 ^ 64 / 4096 := h
      omega

/-- There is room for the kernel in it. -/
theorem fourMiB_many :
    259 ≤ (initFrames fourMiB).ncard ∧ 4 ≤ (initLowFrames fourMiB).ncard := by
  have hlow : Set.Ico 256 1024 ⊆ initLowFrames fourMiB := fun f hf =>
    ⟨fourMiB_free hf.1 (Nat.lt_trans hf.2 (by decide)), hf.2⟩
  have hfin : (initFrames fourMiB).Finite :=
    (Set.finite_lt_nat fourMiB.total).subset fun f hf => hf.1.lt_total
  have hcard : (Set.Ico 256 1024).ncard = 768 := by
    rw [← Finset.coe_Ico, Set.ncard_coe_finset, Nat.card_Ico]
  have h1 := Set.ncard_le_ncard hlow (hfin.subset fun f hf => hf.1)
  have h2 := Set.ncard_le_ncard (show initLowFrames fourMiB ⊆ initFrames fourMiB
    from fun f hf => hf.1) hfin
  omega

/-- A call of the heap's clients, or one of the VMM for a page elsewhere. -/
inductive PagedOp where
  | heap (op : HeapOp)
  | vmm (e : VmmEvent)

/-- What the heap sees of it. -/
def PagedOp.heapOp : PagedOp → Option HeapOp
  | .heap op => some op
  | .vmm _ => none

/-- One call that returned, behind the tables. -/
inductive PagedStep : PagedHeap → PagedOp → PagedHeap → Prop where
  | kmalloc {k : PagedHeap} {size : UInt32} {ptr : Nat} {vmm : Vmm}
      (hok : runPaged k.vmm (PyramidHeapProgram.kmalloc k.startHeader size.toNat)
        = .ok (ptr, vmm)) :
      PagedStep k (.heap (.kmalloc size)) ⟨vmm, k.startHeader, liveAfter k.live ptr size.toNat⟩
  | kfree {k : PagedHeap} {ptr : UInt32} {vmm : Vmm}
      (hvalid : ptr.toNat = 0 ∨ ∃ size, (ptr.toNat, size) ∈ k.live)
      (hok : runPaged k.vmm (PyramidHeapProgram.kfree k.startHeader ptr.toNat) = .ok ((), vmm)) :
      PagedStep k (.heap (.kfree ptr)) ⟨vmm, k.startHeader, liveWithout k.live ptr.toNat⟩
  | write {k : PagedHeap} {addr : UInt32} {val : Byte} {l : Nat × Nat} {vmm : Vmm}
      (hl : l ∈ k.live) (hin : InRange l addr.toNat)
      (hok : runPaged k.vmm (store8 addr.toNat val) = .ok ((), vmm)) :
      PagedStep k (.heap (.write addr val)) { k with vmm := vmm }
  | vmm {k : PagedHeap} {e : VmmEvent} {vmm : Vmm} (hst : VmmStep k.vmm e vmm)
      (hout : ¬ InHeap (page e)) : PagedStep k (.vmm e) { k with vmm := vmm }

/-- **THE FLAT HEAP** `t` is what the processor sees in the heap's pages; these stand in
    used frames of their own, apart from the page tables and from the bitmap. -/
structure PagedHeap.Shows (k : PagedHeap) (t : HeapClient) : Prop where
  startHeader : k.startHeader = t.heap.startHeader
  live : k.live = t.live
  sees : ∀ v, InHeap v → ∃ x, k.vmm.translate v = some x
    ∧ k.vmm.mem.byte x = t.heap.mem.byte v ∧ k.vmm.pmm.bit (x / 4096) = true
    ∧ ¬ BitmapByte k.vmm.pmm x ∧ OffPages k.vmm.pagingPages x
  apart : ∀ u v, InHeap u → InHeap v → k.vmm.translate u = k.vmm.translate v → u = v

/-- **EVERY CALL RETURNS**, without a fault, and changes no byte beside the heap's pages. -/
structure PagedHeap.Served (k : PagedHeap) : Prop where
  kmalloc : ∀ size, ∃ k', PagedStep k (.heap (.kmalloc size)) k'
  kfree : ∀ ptr : UInt32, (ptr.toNat = 0 ∨ ∃ size, (ptr.toNat, size) ∈ k.live) →
    ∃ k', PagedStep k (.heap (.kfree ptr)) k'
  write : ∀ (addr : UInt32) val, ∀ l ∈ k.live, InRange l addr.toNat →
    ∃ k', PagedStep k (.heap (.write addr val)) k'
  only : ∀ op k', PagedStep k (.heap op) k' → HeapOnly k.vmm k'.vmm

/-- **THE INVARIANT OF A RUN**. -/
structure Serving (bi : BootInfo) (k : PagedHeap) (t : HeapClient) : Prop where
  behind : ∃ pages data, Behind bi k.vmm pages data t.heap.mem
  startHeader : k.startHeader = t.heap.startHeader
  live : k.live = t.live
  inv : ∃ bs, HeapInv t bs

variable {k k' : PagedHeap} {c c' : HeapClient} {op : HeapOp}

theorem Serving.kmalloc (h : Serving bi k c) (hsmall : bi.total ≤ 2 ^ 20) (size : UInt32) :
    ∃ ptr vmm h', runPaged k.vmm (PyramidHeapProgram.kmalloc k.startHeader size.toNat)
        = .ok (ptr, vmm)
      ∧ HeapOnly k.vmm vmm
      ∧ HeapStep c (.kmalloc size) ⟨h', liveAfter c.live ptr size.toNat⟩
      ∧ Serving bi ⟨vmm, k.startHeader, liveAfter k.live ptr size.toNat⟩
        ⟨h', liveAfter c.live ptr size.toNat⟩ := by
  obtain ⟨⟨pages, data, hbehind⟩, hstart, hlive, bs, hinv⟩ := h
  obtain ⟨ptr, h', bs', hok, hinv', -⟩ := hinv.kmalloc size.toNat_lt
  obtain ⟨vmm, hrun, hbehind', honly, -⟩ := hbehind.runs hsmall
    (PyramidHeapProgram.kmalloc_returns hinv.rep size.toNat_lt hok)
  refine ⟨ptr, vmm, h', hstart ▸ hrun, honly, .kmalloc hok, ⟨pages, data, hbehind'⟩, ?_,
    by rw [hlive], bs', hinv'⟩
  rw [hstart, hinv.rep.start]
  exact hinv'.rep.start.symm

theorem Serving.kfree (h : Serving bi k c) (hsmall : bi.total ≤ 2 ^ 20) {ptr : UInt32}
    (hvalid : c.ValidFree ptr.toNat) :
    ∃ vmm h', runPaged k.vmm (PyramidHeapProgram.kfree k.startHeader ptr.toNat)
        = .ok ((), vmm)
      ∧ HeapOnly k.vmm vmm ∧ HeapStep c (.kfree ptr) ⟨h', liveWithout c.live ptr.toNat⟩
      ∧ Serving bi ⟨vmm, k.startHeader, liveWithout k.live ptr.toNat⟩
        ⟨h', liveWithout c.live ptr.toNat⟩ := by
  obtain ⟨⟨pages, data, hbehind⟩, hstart, hlive, bs, hinv⟩ := h
  obtain ⟨h', bs', hok, hinv', -⟩ := hinv.kfree hvalid
  obtain ⟨vmm, hrun, hbehind', honly, -⟩ := hbehind.runs hsmall
    (PyramidHeapProgram.kfree_returns hinv hvalid hok)
  refine ⟨vmm, h', hstart ▸ hrun, honly, .kfree hvalid hok, ⟨pages, data, hbehind'⟩, ?_,
    by rw [hlive], bs', hinv'⟩
  rw [hstart, hinv.rep.start]
  exact hinv'.rep.start.symm

theorem Serving.write (h : Serving bi k c) (hsmall : bi.total ≤ 2 ^ 20) {addr : UInt32}
    {l : Nat × Nat} (val : Byte) (hl : l ∈ c.live) (hin : InRange l addr.toNat) :
    ∃ vmm, runPaged k.vmm (store8 addr.toNat val) = .ok ((), vmm) ∧ HeapOnly k.vmm vmm
      ∧ Serving bi { k with vmm := vmm }
        ⟨{ c.heap with mem := c.heap.mem.store8 addr.toNat val }, c.live⟩ := by
  obtain ⟨⟨pages, data, hbehind⟩, hstart, hlive, bs, hinv⟩ := h
  have hheap : InHeap addr.toNat := by
    obtain ⟨hlo, hhi⟩ := hinv.ptr_bounds hl
    obtain ⟨h1, h2⟩ := hin
    exact ⟨show 0xD0000000 ≤ addr.toNat by omega, show addr.toNat < 0xD0100000 by omega⟩
  obtain ⟨vmm, hrun, hbehind', honly, -⟩ := hbehind.runs hsmall (returns_store8 hheap val)
  exact ⟨vmm, hrun, honly, ⟨pages, data, hbehind'⟩, hstart, hlive, bs, hinv.write hl hin val⟩

/-- **ONE CALL OF THE HEAP** behind the tables is one call of the flat heap. -/
theorem Serving.heapStep (h : Serving bi k c) (hsmall : bi.total ≤ 2 ^ 20)
    (hst : PagedStep k (.heap op) k') :
    (∃ c', HeapStep c op c' ∧ Serving bi k' c') ∧ HeapOnly k.vmm k'.vmm := by
  have hlive := h.live
  cases hst with
  | kmalloc hok =>
      rename_i size ptr vmm
      obtain ⟨ptr', vmm', h', hok', honly, hst', hserving⟩ := h.kmalloc hsmall size
      obtain ⟨rfl, rfl⟩ := Prod.mk.inj (Except.ok.inj (hok.symm.trans hok'))
      exact ⟨⟨_, hst', hserving⟩, honly⟩
  | kfree hvalid hok =>
      rw [hlive] at hvalid
      obtain ⟨vmm', h', hok', honly, hst', hserving⟩ := h.kfree hsmall hvalid
      obtain ⟨-, rfl⟩ := Prod.mk.inj (Except.ok.inj (hok.symm.trans hok'))
      exact ⟨⟨_, hst', hserving⟩, honly⟩
  | write hl hin hok =>
      rename_i addr val l vmm
      rw [hlive] at hl
      obtain ⟨vmm', hok', honly, hserving⟩ := h.write hsmall val hl hin
      obtain ⟨-, rfl⟩ := Prod.mk.inj (Except.ok.inj (hok.symm.trans hok'))
      exact ⟨⟨_, .write hl hin, hserving⟩, honly⟩

/-- **ONE CALL OF THE VMM** elsewhere is nothing to the flat heap. -/
theorem Serving.vmmStep {e : VmmEvent} (h : Serving bi k c) (hsmall : bi.total ≤ 2 ^ 20)
    (hst : PagedStep k (.vmm e) k') : Serving bi k' c := by
  obtain ⟨⟨pages, data, hbehind⟩, hstart, hlive, hinv⟩ := h
  cases hst with
  | vmm hst hout => exact ⟨hbehind.vmmStep hsmall hst hout, hstart, hlive, hinv⟩

/-- What the invariant says of a state. -/
theorem Serving.shows (h : Serving bi k c) (hsmall : bi.total ≤ 2 ^ 20) : k.Shows c := by
  obtain ⟨⟨pages, data, hbehind⟩, hstart, hlive, -⟩ := h
  refine ⟨hstart, hlive, fun v hv => ?_, hbehind.window.inj⟩
  obtain ⟨x, hx, hbyte, hoff⟩ := hbehind.window.sees v hv
  obtain ⟨q, hq, htrans⟩ := hbehind.mapped.translate hv
  have heq : q + v % 4096 = x := Option.some.inj (htrans.symm.trans hx)
  have hheld := hbehind.vmm.client.held q (List.mem_append_right _ hq)
  have hal := hheld.aligned
  refine ⟨x, hx, hbyte, ?_, ?_, fun b hb => hoff b (hbehind.vmm.tree.tables_subset b hb)⟩
  · rw [show x / 4096 = q / 4096 by omega]
    exact hheld.used
  · exact clientInv_off_bitmap hbehind.vmm.client hsmall (List.mem_append_right _ hq)
      (by omega) (by omega)

theorem Serving.served (h : Serving bi k c) (hsmall : bi.total ≤ 2 ^ 20) : k.Served := by
  have hlive := h.live
  refine ⟨fun size => ?_, fun ptr hvalid => ?_, fun addr val l hl hin => ?_,
    fun op k' hst => (h.heapStep hsmall hst).2⟩
  · obtain ⟨ptr, vmm, h', hok, -⟩ := h.kmalloc hsmall size
    exact ⟨_, .kmalloc hok⟩
  · obtain ⟨vmm, h', hok, -⟩ := h.kfree hsmall (hlive ▸ hvalid)
    exact ⟨_, .kfree hvalid hok⟩
  · obtain ⟨vmm, hok, -⟩ := h.write hsmall val (hlive ▸ hl) hin
    exact ⟨_, .write hl hin hok⟩

/-- `heap_init` establishes the invariant. -/
theorem heapInit_serving {mem : Mem} {s₀ : Vmm} (hbi : bi.Below4GiB)
    (hinit : pmmInit mem bi = .ok p) (hvmm : vmmInit p = .ok s₀)
    (hheap : heapInit s₀ = .ok k) :
    ∃ flat, Serving bi k ⟨PyramidHeap.heapFirstBlock flat, []⟩ := by
  have hsmall := total_le hbi
  obtain ⟨p', hinit', h0⟩ := pmmInit_clientInv mem hbi
  rw [← Except.ok.inj (hinit.symm.trans hinit')] at h0
  rcases vmmInit_spec h0 hsmall with ⟨⟨message, herr⟩, -⟩ | ⟨s, pages, hok, hinv, -, hnone, -⟩
  · rw [herr] at hvmm
    cases hvmm
  · rw [hok] at hvmm
    rw [← Except.ok.inj hvmm] at hheap
    rcases heapInit_spec hinv hsmall (hnone (dirIndex heapStartAddr) (by decide) (by decide)) with
      ⟨-, -, vmm, pages', data', flat, hok', hbehind, -⟩ | ⟨-, message, herr⟩
    · rw [hok'] at hheap
      rw [← Except.ok.inj hheap]
      exact ⟨flat, ⟨pages', data', hbehind⟩, rfl, rfl, PyramidHeap.heapInv_run Run.nil⟩
    · rw [herr] at hheap
      cases hheap

end PyramidPagedHeap
