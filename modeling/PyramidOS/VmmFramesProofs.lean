import PyramidOS.VmmRunProofs
import Mathlib.Data.Set.Basic

/-! # The frames of the VMM

    Which frames a run of the VMM uses for what, and when it runs out of the
    ones it needs.

    * `vmm_frames_apart` — the directory, the page tables and the data pages
      stand in pairwise distinct frames, the first two kinds below 4 MiB;
    * `vmm_alloc_page_needs_low_frame` — with two frames free, a call maps its
      page unless it wants a new table and the data page has taken the last low
      frame. -/

namespace PyramidVmm

open ByteMem WordBitmap PyramidKernel PyramidPmm TwoLevelPaging LabelledRun

variable {p : Pmm} {s t : Vmm} {bi : BootInfo} {es : List VmmEvent} {v f : Nat}
  {held pages data : List Nat}

/-! ## Who holds which frame -/

/-- The page directory and the page tables it names. -/
def Vmm.pagingPages (s : Vmm) : List Nat :=
  s.pageDirectory :: tables s.mem s.pageDirectory

/-- The data pages handed out in a run. -/
def dataPages (es : List VmmEvent) : List Nat := es.flatMap VmmEvent.handedOut

theorem dataPages_snoc (es : List VmmEvent) (e : VmmEvent) :
    dataPages (es ++ [e]) = dataPages es ++ e.handedOut := by
  rw [dataPages, List.flatMap_append, List.flatMap_singleton]
  rfl

/-- The data pages of the invariant are those of the run, in whatever order. -/
theorem VmmInv.run (hsmall : bi.total ≤ 2 ^ 20) (h : VmmInv bi s pages [])
    (hrun : Run VmmStep s es t) :
    ∃ pages' data, VmmInv bi t pages' data ∧ data.Perm (dataPages es) := by
  induction hrun with
  | nil => exact ⟨pages, [], h, List.Perm.nil⟩
  | snoc e _ hst ih =>
      obtain ⟨pages', data, hinv, hperm⟩ := ih
      obtain ⟨pages'', hinv', -⟩ := hinv.step hsmall hst
      refine ⟨pages'', e.handedOut ++ data, hinv', ?_⟩
      rw [dataPages_snoc]
      exact List.perm_append_comm.trans (hperm.append_right _)

/-- The pages of the invariant have distinct frames, all marked used. -/
theorem VmmInv.frames (h : VmmInv bi s pages data) :
    ((s.pagingPages ++ data).map (· / 4096)).Nodup
    ∧ (∀ a ∈ s.pagingPages ++ data, a % 4096 = 0 ∧ s.pmm.bit (a / 4096) = true)
    ∧ ∀ a ∈ s.pagingPages, a + 4096 ≤ vmmLowmemLimit := by
  have hsub : ∀ a ∈ s.pagingPages, a ∈ pages := h.tree.tables_subset
  have hheld : ∀ a ∈ s.pagingPages ++ data, HeldPage bi s.pmm a := by
    intro a ha
    refine h.client.held a ?_
    rcases List.mem_append.mp ha with hpage | hdata
    · exact List.mem_append_left _ (hsub a hpage)
    · exact List.mem_append_right _ hdata
  obtain ⟨-, hdata, hapart⟩ := List.nodup_append.mp h.client.nodup
  have hnodup : (s.pagingPages ++ data).Nodup :=
    List.nodup_append.mpr ⟨h.tree.tables_nodup, hdata,
      fun a ha b hb => hapart a (hsub a ha) b hb⟩
  refine ⟨?_, fun a ha => ⟨(hheld a ha).aligned, (hheld a ha).used⟩, fun a ha => ?_⟩
  · refine hnodup.map_on fun a ha b hb heq => ?_
    have ha' := (hheld a ha).aligned
    have hb' := (hheld b hb).aligned
    have heq' : a / 4096 = b / 4096 := heq
    omega
  · have hal := (hheld a (List.mem_append_left _ ha)).aligned
    have hlow := h.low a (hsub a ha)
    rw [vmmLowmemLimit] at hlow ⊢
    omega

/-- The invariant after a run from boot. -/
theorem vmmInv_run {mem : Mem} {p₀ : Pmm} {s₀ : Vmm} (hbi : bi.Below4GiB)
    (hinit : pmmInit mem bi = .ok p₀) (hvmm : vmmInit p₀ = .ok s₀)
    (hrun : Run VmmStep s₀ es s) :
    ∃ pages data, VmmInv bi s pages data ∧ data.Perm (dataPages es) := by
  have hsmall := total_le hbi
  obtain ⟨p₀', hinit', h0⟩ := pmmInit_clientInv mem hbi
  rw [← Except.ok.inj (hinit.symm.trans hinit')] at h0
  rcases vmmInit_spec h0 hsmall with ⟨⟨msg, herr⟩, -⟩ | ⟨s', pages, hok, hinv, -⟩
  · rw [herr] at hvmm
    exact nomatch hvmm
  · rw [hok] at hvmm
    rw [← Except.ok.inj hvmm] at hrun
    exact hinv.run hsmall hrun

/-- **DATA PAGES NEVER ALIAS PAGING STRUCTURES**: after every run the directory,
    the page tables and the data pages handed out have pairwise distinct frames,
    all marked used, and the first two kinds lie wholly below 4 MiB. -/
theorem vmm_frames_apart (mem : Mem) (hbi : bi.Below4GiB) :
    ∃ p₀, pmmInit mem bi = .ok p₀ ∧ ∀ s₀, vmmInit p₀ = .ok s₀ →
      ∀ es s, Run VmmStep s₀ es s →
        ((s.pagingPages ++ dataPages es).map (· / 4096)).Nodup
        ∧ (∀ a ∈ s.pagingPages ++ dataPages es, a % 4096 = 0 ∧ s.pmm.bit (a / 4096) = true)
        ∧ ∀ a ∈ s.pagingPages, a + 4096 ≤ vmmLowmemLimit := by
  obtain ⟨p₀, hinit, -⟩ := pmmInit_clientInv mem hbi
  refine ⟨p₀, hinit, fun s₀ hvmm es s hrun => ?_⟩
  obtain ⟨pages, data, hinv, hperm⟩ := vmmInv_run hbi hinit hvmm hrun
  obtain ⟨hnodup, hused, hlow⟩ := hinv.frames
  have hall : (s.pagingPages ++ data).Perm (s.pagingPages ++ dataPages es) :=
    hperm.append_left _
  exact ⟨(hall.map _).nodup_iff.mp hnodup, fun a ha => hused a (hall.mem_iff.mpr ha), hlow⟩

/-- The same on a map with a hole and an unaligned end. -/
theorem vmm_frames_apart_ebda :
    ∃ p₀ s₀, pmmInit ⟨fun _ => 0, []⟩ ⟨0x8000, [⟨0, 0x9FC00, 1⟩, ⟨0x9FC00, 0x400, 2⟩]⟩
        = .ok p₀ ∧ vmmInit p₀ = .ok s₀ ∧
      ∀ es s, Run VmmStep s₀ es s →
        ((s.pagingPages ++ dataPages es).map (· / 4096)).Nodup
        ∧ (∀ a ∈ s.pagingPages ++ dataPages es, a % 4096 = 0 ∧ s.pmm.bit (a / 4096) = true)
        ∧ ∀ a ∈ s.pagingPages, a + 4096 ≤ vmmLowmemLimit := by
  obtain ⟨p₀, hinit, hall⟩ := vmm_frames_apart ⟨fun _ => 0, []⟩
    (show BootInfo.Below4GiB ⟨0x8000, [⟨0, 0x9FC00, 1⟩, ⟨0x9FC00, 0x400, 2⟩]⟩ by decide)
  obtain ⟨s₀, hvmm⟩ := vmmInit_returns (f := 1) (g := 2) (by decide) hinit (by decide)
    (by decide) (by decide) ⟨by decide, by decide⟩ ⟨by decide, by decide⟩
  exact ⟨p₀, s₀, hinit, hvmm, hall s₀ hvmm⟩

/-! ## Running out of low frames -/

/-- The page table of `v`, if there is one. -/
def Vmm.tableOf (s : Vmm) (v : Nat) : Option Nat :=
  entry s.mem s.pageDirectory (dirIndex v)

/-- The free frames. -/
def Vmm.freeFrames (s : Vmm) : Set Nat := clearIn s.pmm.bit 0 s.pmm.totalBlocks

/-- The free frames below 4 MiB, where page tables go. -/
def Vmm.lowFrames (s : Vmm) : Set Nat :=
  clearIn s.pmm.bit 0 (lowLimit s.pmm vmmLowmemLimit)

theorem mem_lowFrames : f ∈ s.lowFrames ↔ f ∈ s.freeFrames ∧ f < 1024 := by
  have hlim : lowLimit s.pmm vmmLowmemLimit = min 1024 s.pmm.totalBlocks := rfl
  rw [Vmm.lowFrames, Vmm.freeFrames, hlim]
  constructor
  · rintro ⟨h0, hlt, hb⟩
    exact ⟨⟨h0, by omega, hb⟩, by omega⟩
  · rintro ⟨⟨h0, hlt, hb⟩, hlow⟩
    exact ⟨h0, by omega, hb⟩

/-- `vmm_get_page_table` panics exactly when there is no table and no frame for
    one. -/
theorem vmmGetPageTable_panics_iff (h : VmmInv bi s pages data)
    (hsmall : bi.total ≤ 2 ^ 20) :
    vmmGetPageTable s v true = .error noTableFrame
      ↔ s.tableOf v = none ∧ s.lowFrames = ∅ := by
  cases htable : s.tableOf v with
  | none =>
    rw [vmmGetPageTable_of_none htable, and_iff_right rfl]
    rcases h.client.alloc hsmall (Nat.min_le_right _ _)
      (pmmAllocPageLow_outcome h.client.tight vmmLowmemLimit) with
      ⟨p', hok, -, -, -, hempty⟩ | ⟨f, p', hleast, hne, hok, -, -⟩
    · rw [hok]
      exact iff_of_true rfl hempty
    · have hf0 : ¬ f * 4096 = 0 := by omega
      rw [hok]
      refine iff_of_false (fun hc => ?_) fun hempty => ?_
      · rw [show (Except.ok (f * 4096, p') >>= _) = _ from if_neg hf0] at hc
        exact nomatch hc
      · exact Set.eq_empty_iff_forall_notMem.mp hempty f hleast.1
  | some t =>
    rw [vmmGetPageTable_of_some true htable]
    exact iff_of_false (fun hc => nomatch hc) fun hc => nomatch hc.1

/-- So does `vmm_map`. -/
theorem vmmMap_panics_iff (h : VmmInv bi s pages data) (hsmall : bi.total ≤ 2 ^ 20)
    (hv : v < 2 ^ 32) (hva : v % 4096 = 0) {q : Nat} (hqa : q % 4096 = 0) :
    vmmMap s v q = .error noTableFrame ↔ s.tableOf v = none ∧ s.lowFrames = ∅ := by
  rw [vmmMap_eq s hva hqa, ← vmmGetPageTable_panics_iff h hsmall]
  rcases vmmGetPageTable_spec h hsmall hv with herr | ⟨t, s1, pages1, hok, hne, -⟩
  · rw [herr]
    exact iff_of_true rfl rfl
  · rw [hok]
    refine iff_of_false (fun hc => ?_) fun hc => nomatch hc
    rw [show (Except.ok (t, s1) >>= _) = _ from if_neg hne] at hc
    exact nomatch hc

/-- After a data page took the lowest free frame, a low frame is left exactly
    when two were free. -/
theorem lowFrames_nontrivial_iff {p' : Pmm} (hleast : IsLeast s.freeFrames f)
    (htook : Took f s.pmm p') :
    s.lowFrames.Nontrivial ↔ Vmm.lowFrames ⟨p', s.pageDirectory⟩ ≠ ∅ := by
  have hmem : ∀ g, g ∈ Vmm.lowFrames ⟨p', s.pageDirectory⟩ ↔ g ∈ s.lowFrames ∧ g ≠ f := by
    intro g
    rw [Vmm.lowFrames, Vmm.lowFrames, lowLimit, lowLimit, htook.geometry.total]
    constructor
    · rintro ⟨h0, hlt, hb⟩
      rw [htook.bit, Bool.or_eq_false_iff] at hb
      exact ⟨⟨h0, hlt, hb.1⟩, of_decide_eq_false hb.2⟩
    · rintro ⟨⟨h0, hlt, hb⟩, hne⟩
      refine ⟨h0, hlt, ?_⟩
      rw [htook.bit, hb, decide_eq_false hne]
      rfl
  rw [← Set.nonempty_iff_ne_empty]
  constructor
  · rintro ⟨g, hg, g', hg', hne⟩
    by_cases hgf : g = f
    · exact ⟨g', (hmem g').mpr ⟨hg', fun hc => hne (hgf.trans hc.symm)⟩⟩
    · exact ⟨g, (hmem g).mpr ⟨hg, hgf⟩⟩
  · rintro ⟨g, hg⟩
    obtain ⟨hlow, hne⟩ := (hmem g).mp hg
    obtain ⟨hfree, hlt⟩ := mem_lowFrames.mp hlow
    have hle := hleast.2 hfree
    exact ⟨g, hlow, f, mem_lowFrames.mpr ⟨hleast.1, by omega⟩, hne⟩

/-- **ONE CALL** with a frame free: the page goes to the lowest free frame,
    unless the call needs a table and no second low frame is free. -/
theorem VmmInv.allocPage_iff (h : VmmInv bi s pages data) (hsmall : bi.total ≤ 2 ^ 20)
    (hv : v < 2 ^ 32) (hva : v % 4096 = 0) (hfree : s.freeFrames.Nonempty) :
    ((s.tableOf v ≠ none ∨ s.lowFrames.Nontrivial) →
      ∃ f s', IsLeast s.freeFrames f ∧ vmmAllocPage s v = .ok (1, s')
        ∧ s'.walk v = some (f * 4096))
    ∧ (¬ (s.tableOf v ≠ none ∨ s.lowFrames.Nontrivial) →
      vmmAllocPage s v = .error noTableFrame) := by
  rcases h.client.alloc hsmall (Nat.le_refl _) (pmmAllocPage_outcome h.client.tight) with
    ⟨p', -, -, -, -, hempty⟩ | ⟨f, p', hleast, hne, hok, hinv, htook⟩
  · obtain ⟨g, hg⟩ := hfree
    exact absurd hg (Set.eq_empty_iff_forall_notMem.mp hempty g)
  · have hq0 : f * 4096 ≠ 0 := by omega
    have hlt : f < s.pmm.totalBlocks := hleast.1.2.1
    have htot : s.pmm.totalBlocks = bi.total := h.client.total
    obtain ⟨htree, -⟩ := h.keeps_tree hsmall htook.geometry
    have h1 : VmmInv bi ⟨p', s.pageDirectory⟩ pages (f * 4096 :: data) :=
      ⟨clientInv_perm hinv List.perm_middle.symm, htree, h.low⟩
    have htable : Vmm.tableOf ⟨p', s.pageDirectory⟩ v = s.tableOf v :=
      entry_congr (dirIndex_lt hv) fun x hx hx' =>
        clientInv_keeps h.client hsmall htook.geometry
          (List.mem_append_left _ h.tree.dirMem) hx hx'
    have hpanics := vmmMap_panics_iff h1 hsmall hv hva (show f * 4096 % 4096 = 0 by omega)
    rw [htable] at hpanics
    rw [vmmAllocPage_eq hok hq0, lowFrames_nontrivial_iff hleast htook]
    constructor
    · intro hcase
      rcases vmmMap_spec h1 hsmall hv hva (show f * 4096 < 2 ^ 32 by omega) (by omega) with
        herr | ⟨s', pages', hok', -, hw⟩
      · obtain ⟨hnone, hlow⟩ := hpanics.mp herr
        exact absurd hcase (not_or.mpr ⟨not_not.mpr hnone, not_not.mpr hlow⟩)
      · refine ⟨f, s', hleast, ?_, (hw v hv).trans (if_pos rfl)⟩
        rw [hok']
        rfl
    · intro hcase
      obtain ⟨hnone, hlow⟩ := not_or.mp hcase
      rw [hpanics.mpr ⟨not_not.mp hnone, not_not.mp hlow⟩]
      rfl

/-- **WHEN A CALL MAPS ITS PAGE**: in every state of a run with two frames free,
    `vmm_alloc_page` maps its page to the lowest free frame if the table is
    there or two low frames are free, and panics otherwise. -/
theorem vmm_alloc_page_needs_low_frame (mem : Mem) (hbi : bi.Below4GiB) :
    ∃ p₀, pmmInit mem bi = .ok p₀ ∧ ∀ s₀, vmmInit p₀ = .ok s₀ →
      ∀ es s, Run VmmStep s₀ es s →
        ∀ v, v < 2 ^ 32 → v % 4096 = 0 → vmmLowmemLimit ≤ v → s.freeFrames.Nontrivial →
          ((s.tableOf v ≠ none ∨ s.lowFrames.Nontrivial) →
            ∃ f s', IsLeast s.freeFrames f ∧ vmmAllocPage s v = .ok (1, s')
              ∧ s'.walk v = some (f * 4096))
          ∧ (¬ (s.tableOf v ≠ none ∨ s.lowFrames.Nontrivial) →
            vmmAllocPage s v = .error noTableFrame) := by
  obtain ⟨p₀, hinit, -⟩ := pmmInit_clientInv mem hbi
  refine ⟨p₀, hinit, fun s₀ hvmm es s hrun v hv hva _ hfree => ?_⟩
  obtain ⟨pages, data, hinv, -⟩ := vmmInv_run hbi hinit hvmm hrun
  exact hinv.allocPage_iff (total_le hbi) hv hva hfree.nonempty

/-- The same on a map with a hole and an unaligned end. -/
theorem vmm_alloc_page_needs_low_frame_ebda :
    ∃ p₀ s₀, pmmInit ⟨fun _ => 0, []⟩ ⟨0x8000, [⟨0, 0x9FC00, 1⟩, ⟨0x9FC00, 0x400, 2⟩]⟩
        = .ok p₀ ∧ vmmInit p₀ = .ok s₀ ∧
      ∀ es s, Run VmmStep s₀ es s →
        ∀ v, v < 2 ^ 32 → v % 4096 = 0 → vmmLowmemLimit ≤ v → s.freeFrames.Nontrivial →
          ((s.tableOf v ≠ none ∨ s.lowFrames.Nontrivial) →
            ∃ f s', IsLeast s.freeFrames f ∧ vmmAllocPage s v = .ok (1, s')
              ∧ s'.walk v = some (f * 4096))
          ∧ (¬ (s.tableOf v ≠ none ∨ s.lowFrames.Nontrivial) →
            vmmAllocPage s v = .error noTableFrame) := by
  obtain ⟨p₀, hinit, hall⟩ := vmm_alloc_page_needs_low_frame ⟨fun _ => 0, []⟩
    (show BootInfo.Below4GiB ⟨0x8000, [⟨0, 0x9FC00, 1⟩, ⟨0x9FC00, 0x400, 2⟩]⟩ by decide)
  obtain ⟨s₀, hvmm⟩ := vmmInit_returns (f := 1) (g := 2) (by decide) hinit (by decide)
    (by decide) (by decide) ⟨by decide, by decide⟩ ⟨by decide, by decide⟩
  exact ⟨p₀, s₀, hinit, hvmm, hall s₀ hvmm⟩

/-- **TWO FREE FRAMES ARE NOT ENOUGH**: three low frames hold the directory, the
    first table and the first data page, and none is left for its table, though
    sixteen frames at 4 MiB are free. -/
theorem vmm_alloc_page_halts_with_free_frames :
    ∃ p₀ s₀, pmmInit ⟨fun _ => 0, []⟩
        ⟨0x8000, [⟨0x1000, 0x3000, 1⟩, ⟨0x400000, 0x10000, 1⟩]⟩ = .ok p₀
      ∧ vmmInit p₀ = .ok s₀ ∧ s₀.freeFrames.Nontrivial
      ∧ vmmAllocPage s₀ 0x400000 = .error (.panic "VMM: cannot alloc page table (lowmem)") := by
  obtain ⟨bi, hbi⟩ : ∃ bi : BootInfo,
      bi = ⟨0x8000, [⟨0x1000, 0x3000, 1⟩, ⟨0x400000, 0x10000, 1⟩]⟩ := ⟨_, rfl⟩
  rw [← hbi]
  have hbelow : bi.Below4GiB := by rw [hbi]; decide
  have htotal : bi.total = 1040 := by rw [hbi]; rfl
  have hfree : ∀ f, f ∈ [1, 2, 1024, 1025] → bi.InitFree f := by
    rw [hbi]
    intro f hf
    rw [List.mem_cons, List.mem_cons, List.mem_cons, List.mem_singleton] at hf
    rcases hf with rfl | rfl | rfl | rfl <;> exact ⟨by decide, by decide⟩
  -- below 4 MiB the map has the frames 1, 2 and 3 only
  have honly : ∀ f, f < 1024 → bi.InitFree f → f = 1 ∨ f = 2 ∨ f = 3 := by
    rw [hbi]
    rintro f hf ⟨⟨e, he, -, hlen, hlo, hhi, -⟩, -⟩
    rcases List.mem_cons.mp he with rfl | he
    · have hlo' : 0x1000 / 4096 ≤ f := hlo
      have hhi' : f < u64 (0x1000 + 0x3000 + 4095) / 4096 := hhi
      rw [u64_of_lt (by decide)] at hhi'
      omega
    · rw [List.mem_singleton.mp he] at hlo
      have hlo' : 0x400000 / 4096 ≤ f := hlo
      omega
  have hsmall := total_le hbelow
  obtain ⟨p₀, hinit, h0⟩ := pmmInit_clientInv ⟨fun _ => 0, []⟩ hbelow
  obtain ⟨-, htot, -, hbits⟩ := pmmInit_ok hinit (by omega)
  obtain ⟨s, hs⟩ := vmmInit_returns (f := 1) (g := 2) hbelow hinit (by decide) (by decide)
    (by decide) (hfree 1 (by decide)) (hfree 2 (by decide))
  rcases vmmInit_spec h0 hsmall with
    ⟨⟨msg, herr⟩, -⟩ | ⟨s₀, pages, hok, hinv, hwalk, hnone, hkeep⟩
  · rw [herr] at hs
    exact nomatch hs
  have hst : s₀.pmm.totalBlocks = 1040 := hinv.client.total.trans htotal
  have hhigh : ∀ f, f ∈ [1024, 1025] → f ∈ s₀.freeFrames := by
    intro f hf
    have hf' : 1024 ≤ f ∧ f < 1040 := by
      rw [List.mem_cons, List.mem_singleton] at hf
      omega
    refine ⟨Nat.zero_le f, by omega, hkeep f ?_ (by omega) fun hmem => ?_⟩
    · refine (hbits f (by omega)).mpr (hfree f ?_)
      exact List.mem_cons_of_mem _ (List.mem_cons_of_mem _ hf)
    · have hlow := hinv.low _ hmem
      rw [vmmLowmemLimit] at hlow
      omega
  have hnontrivial : s₀.freeFrames.Nontrivial :=
    ⟨1024, hhigh 1024 (by decide), 1025, hhigh 1025 (by decide), by decide⟩
  -- the directory and the first table hold two of the three low frames
  obtain ⟨t, ht⟩ : ∃ t, entry s₀.mem s₀.pageDirectory 0 = some t := by
    have h00 : s₀.walk 0 = some 0 := (hwalk 0 (by decide)).trans (if_pos (by decide))
    obtain ⟨t, ht, -⟩ := Option.bind_eq_some_iff.mp h00
    exact ⟨t, ht⟩
  obtain ⟨htmem, htd⟩ := hinv.tree.tableMem 0 (by decide) t ht
  have hheld : ∀ a, a ∈ pages → a % 4096 = 0 ∧ s₀.pmm.bit (a / 4096) = true
      ∧ (a / 4096 = 1 ∨ a / 4096 = 2 ∨ a / 4096 = 3) := by
    intro a ha
    have hpage := hinv.heldPage ha
    have hlow := hinv.low a ha
    rw [vmmLowmemLimit] at hlow
    exact ⟨hpage.aligned, hpage.used, honly _ (by omega) hpage.initFree⟩
  obtain ⟨hd1, hd2, hd3⟩ := hheld _ hinv.tree.dirMem
  obtain ⟨ht1, ht2, ht3⟩ := hheld _ htmem
  have hlowfree : ∀ f, f ∈ s₀.lowFrames → (f = 1 ∨ f = 2 ∨ f = 3)
      ∧ f ≠ s₀.pageDirectory / 4096 ∧ f ≠ t / 4096 := by
    intro f hf
    obtain ⟨⟨-, hlt, hb⟩, hlow⟩ := mem_lowFrames.mp hf
    obtain ⟨-, hinit', -⟩ := hinv.client.fresh hlt hb
    refine ⟨honly f hlow hinit', fun hc => ?_, fun hc => ?_⟩
    · rw [hc, hd2] at hb
      cases hb
    · rw [hc, ht2] at hb
      cases hb
  refine ⟨p₀, s₀, hinit, hok, hnontrivial, ?_⟩
  refine (hinv.allocPage_iff hsmall (by decide) (by decide) hnontrivial.nonempty).2 ?_
  rintro (htable | ⟨f, hf, g, hg, hne⟩)
  · exact htable (hnone 1 (by decide) (by decide))
  · have hf' := hlowfree f hf
    have hg' := hlowfree g hg
    omega

end PyramidVmm
