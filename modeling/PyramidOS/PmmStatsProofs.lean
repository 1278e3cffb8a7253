import PyramidOS.PmmReachProofs

/-! # Balanced sequences and the statistics

    Two laws of the counters over whole runs:

    * `pmm_balanced_restores` — a sequence of calls that frees exactly what it was given
      leaves the bitmap, the counter and the free figure as they were;
    * `pmm_stats_exact` — the two figures are the bytes they claim to be, in every run,
      exactly when the rounded end of the map fits 32 bits: both products are taken in
      32 bits. -/

namespace PyramidPmm

open ByteMem WordBitmap PyramidKernel LabelledRun

variable {p p' : Pmm} {f a r : Nat} {bi : BootInfo} {s t : PmmClient} {op : PmmOp}

/-! ## Balanced sequences -/

/-- The same bitmap, counter and free figure. -/
structure SameAccounts (p p' : Pmm) : Prop where
  bitmap : ∀ x, BitmapByte p x → p'.mem.byte x = p.mem.byte x
  usedBlocks : p'.usedBlocks = p.usedBlocks
  freeMemory : pmmGetFreeMemory p' = pmmGetFreeMemory p

/-- **THE INVARIANT OF A SEQUENCE** that started from `p` with nothing in hand: the used
    frames are those of `p` and those of the pages in hand, and no frame is both. -/
structure Borrowed (bi : BootInfo) (p : Pmm) (t : PmmClient) : Prop where
  inv : ClientInv bi t
  total : t.pmm.totalBlocks = p.totalBlocks
  bit : ∀ g, t.pmm.bit g = true ↔ p.bit g = true ∨ ∃ a ∈ t.held, a / 4096 = g
  fresh : ∀ a ∈ t.held, p.bit (a / 4096) = false

/-- The client that forgets its pages. -/
theorem ClientInv.forget (h : ClientInv bi s) : ClientInv bi ⟨s.pmm, []⟩ :=
  ⟨h.tight, h.total, h.size, h.kept, List.nodup_nil, fun _ ha => nomatch ha⟩

/-- A sequence starts with nothing in hand. -/
theorem ClientInv.borrowed (h : ClientInv bi s) : Borrowed bi s.pmm ⟨s.pmm, []⟩ := by
  refine ⟨h.forget, rfl, fun g => ⟨Or.inl, ?_⟩, fun _ ha => nomatch ha⟩
  rintro (hb | ⟨a, ha, -⟩)
  · exact hb
  · exact nomatch ha

/-- The order of the pages in hand does not matter. -/
theorem Borrowed.perm {held held' : List Nat} (h : Borrowed bi p ⟨p', held⟩)
    (hp : held.Perm held') : Borrowed bi p ⟨p', held'⟩ := by
  have hinv := h.inv
  refine ⟨⟨hinv.tight, hinv.total, hinv.size, hinv.kept, hp.nodup_iff.mp hinv.nodup,
    fun a ha => hinv.held a (hp.mem_iff.mpr ha)⟩, h.total, fun g => ?_,
    fun a ha => h.fresh a (hp.mem_iff.mpr ha)⟩
  rw [h.bit g]
  simp only [hp.mem_iff]

/-- Nothing handed out: the bits stay. -/
theorem Borrowed.same (h : Borrowed bi p t) (hinv : ClientInv bi ⟨p', t.held⟩)
    (htot : p'.totalBlocks = t.pmm.totalBlocks) (hbit : p'.bit = t.pmm.bit) :
    Borrowed bi p ⟨p', t.held⟩ := by
  refine ⟨hinv, htot.trans h.total, fun g => ?_, h.fresh⟩
  rw [hbit]
  exact h.bit g

/-- A page is handed out: its frame becomes used, and it is a new one. -/
theorem Borrowed.took (h : Borrowed bi p t) (hf : t.pmm.bit f = false)
    (hinv : ClientInv bi ⟨p', f * 4096 :: t.held⟩) (htook : Took f t.pmm p') :
    Borrowed bi p ⟨p', f * 4096 :: t.held⟩ := by
  have hdiv : f * 4096 / 4096 = f := Nat.mul_div_cancel f (by decide)
  have hpf : p.bit f = false := by
    rw [← Bool.not_eq_true] at hf ⊢
    exact fun hb => hf ((h.bit f).mpr (Or.inl hb))
  refine ⟨hinv, htook.geometry.total.trans h.total, fun g => ?_, fun a ha => ?_⟩
  · rw [htook.bit, Bool.or_eq_true, decide_eq_true_eq, h.bit g]
    constructor
    · rintro ((hb | ⟨a, ha, hag⟩) | rfl)
      · exact Or.inl hb
      · exact Or.inr ⟨a, List.mem_cons_of_mem _ ha, hag⟩
      · exact Or.inr ⟨_, List.mem_cons_self .., hdiv⟩
    · rintro (hb | ⟨a, ha, hag⟩)
      · exact Or.inl (Or.inl hb)
      · rcases List.mem_cons.mp ha with rfl | hmem
        · exact Or.inr (hag.symm.trans hdiv)
        · exact Or.inl (Or.inr ⟨a, hmem, hag⟩)
  · rcases List.mem_cons.mp ha with rfl | hmem
    · rw [hdiv]
      exact hpf
    · exact h.fresh a hmem

/-- A page is given back: its frame becomes free, and no other page has it. -/
theorem Borrowed.freed (h : Borrowed bi p t) (ha : a ∈ t.held) :
    Borrowed bi p ⟨t.pmm.released (a / 4096), t.held.erase a⟩ := by
  have hnodup := h.inv.nodup
  have halign := (h.inv.held a ha).aligned
  refine ⟨h.inv.freed ha, h.total, fun g => ?_, fun b hb => h.fresh b (List.mem_of_mem_erase hb)⟩
  rw [bit_released, Bool.and_eq_true, h.bit g, Bool.not_eq_true', decide_eq_false_iff_not]
  constructor
  · rintro ⟨hb | ⟨b, hb, hbg⟩, hne⟩
    · exact Or.inl hb
    · have hba : b ≠ a := fun heq => hne (by rw [← hbg, heq])
      exact Or.inr ⟨b, (hnodup.mem_erase_iff).mpr ⟨hba, hb⟩, hbg⟩
  · rintro (hb | ⟨b, hb, hbg⟩)
    · refine ⟨Or.inl hb, fun heq => ?_⟩
      rw [heq, h.fresh a ha] at hb
      exact Bool.false_ne_true hb
    · obtain ⟨hba, hbm⟩ := hnodup.mem_erase_iff.mp hb
      have hbal := (h.inv.held b hbm).aligned
      exact ⟨Or.inr ⟨b, hbm, hbg⟩, by omega⟩

/-- What either allocator returns keeps the invariant. -/
theorem Borrowed.alloc {limit : Nat} {call : Except Halt (Nat × Pmm)} (h : Borrowed bi p t)
    (hsmall : bi.total ≤ 2 ^ 20) (hlim : limit ≤ t.pmm.totalBlocks)
    (hcall : AllocOutcome t.pmm limit call) :
    ∃ r p', call = .ok (r, p') ∧ Borrowed bi p ⟨p', if r = 0 then t.held else r :: t.held⟩ := by
  rcases h.inv.alloc hsmall hlim hcall with
    ⟨p', hok, hinv, hgeo, hbit, -⟩ | ⟨f, p', hleast, hne, hok, hinv, htook⟩
  · exact ⟨0, p', hok, h.same hinv hgeo.total hbit⟩
  · refine ⟨f * 4096, p', hok, ?_⟩
    rw [if_neg (by omega)]
    exact h.took hleast.1.2.2 hinv htook

/-- **ONE CALL** of the sequence returns and keeps the invariant. -/
theorem Borrowed.call (h : Borrowed bi p t) (hsmall : bi.total ≤ 2 ^ 20) (hop : OwnerCall t op) :
    ∃ r p', pmmCall t.pmm op = .ok (r, p') ∧ Borrowed bi p ⟨p', heldAfter t.held r op⟩ := by
  cases op with
  | allocPage =>
      exact h.alloc hsmall (Nat.le_refl _) (pmmAllocPage_outcome h.inv.tight)
  | allocPageLow maxAddr =>
      exact h.alloc hsmall (Nat.min_le_right _ _)
        (pmmAllocPageLow_outcome h.inv.tight maxAddr.toNat)
  | freePage addr =>
      by_cases hmem : addr.toNat ∈ t.held
      · have hpage := h.inv.held _ hmem
        refine ⟨0, _, ?_, h.freed hmem⟩
        show (pmmFreePage t.pmm addr.toNat).map _ = _
        rw [pmmFreePage_spec h.inv.tight.toPmmInv hpage.ne_zero hpage.aligned
          hpage.lt_total hpage.used]
        rfl
      · have hzero : addr.toNat = 0 := hop.resolve_right hmem
        refine ⟨0, t.pmm, ?_, ?_⟩
        · show (pmmFreePage t.pmm addr.toNat).map _ = _
          rw [pmmFreePage, if_pos hzero]
          rfl
        · rw [heldAfter, List.erase_of_not_mem hmem]
          exact h
  | markRegionUsed _ _ => exact absurd hop id
  | markRegionFree _ _ => exact absurd hop id

theorem Borrowed.step (h : Borrowed bi p s) (hsmall : bi.total ≤ 2 ^ 20)
    (hst : PmmStep OwnerCall s op t) : Borrowed bi p t := by
  cases hst with
  | call hallow hok =>
      obtain ⟨r, p', hok', hborrowed⟩ := h.call hsmall hallow
      rw [hok] at hok'
      obtain ⟨hr, hp⟩ := Prod.mk.inj (Except.ok.inj hok')
      rw [hr, hp]
      exact hborrowed

/-- With every page given back, the accounts are the old ones. -/
theorem Borrowed.restored (h : Borrowed bi s.pmm t) (hs : ClientInv bi s)
    (hnone : t.held = []) : SameAccounts s.pmm t.pmm := by
  have hbit : ∀ g, t.pmm.bit g = s.pmm.bit g := by
    intro g
    rw [Bool.eq_iff_iff, h.bit g, hnone]
    constructor
    · rintro (hb | ⟨a, ha, -⟩)
      · exact hb
      · exact nomatch ha
    · exact Or.inl
  have hused : t.pmm.usedBlocks = s.pmm.usedBlocks := by
    rw [h.inv.tight.accounted, hs.tight.accounted, h.total]
    exact setCount_congr fun g _ => hbit g
  refine ⟨fun x hx => ?_, hused, ?_⟩
  · obtain ⟨k, rfl⟩ := Nat.exists_eq_add_of_le hx.1
    exact byte_eq_of_bitAt hbit k
  · rw [pmmGetFreeMemory, hused, h.total]
    rfl

/-- **ALLOCATING AND FREEING RESTORES THE PMM**: in a sequence of allocations and frees of
    its own pages, from any state a run reaches, every call returns, and once everything
    is given back the bitmap, the counter and the free figure are those of the start. -/
theorem pmm_balanced_restores (mem : Mem) (hbi : bi.Below4GiB) :
    ∃ p₀, pmmInit mem bi = .ok p₀ ∧
      ∀ ops s, Run (PmmStep OwnerCall) ⟨p₀, []⟩ ops s →
        ∀ ops' t, Run (PmmStep OwnerCall) ⟨s.pmm, []⟩ ops' t →
          (∀ op, OwnerCall t op → ∃ r p', pmmCall t.pmm op = .ok (r, p'))
          ∧ (t.held = [] → SameAccounts s.pmm t.pmm) := by
  have hsmall := total_le hbi
  obtain ⟨p₀, hinit, h0⟩ := pmmInit_clientInv mem hbi
  refine ⟨p₀, hinit, fun ops s hrun ops' t hrun' => ?_⟩
  have hs : ClientInv bi s := ClientInv.runOwner hsmall h0 hrun
  have ht : Borrowed bi s.pmm t :=
    hrun'.invariant hs.borrowed fun _ _ _ hI hst => hI.step hsmall hst
  refine ⟨fun op hop => ?_, ht.restored hs⟩
  obtain ⟨r, p', hok, -⟩ := ht.call hsmall hop
  exact ⟨r, p', hok⟩

/-- The same on a map with a hole and an unaligned end. -/
theorem pmm_balanced_restores_ebda :
    ∃ p₀, pmmInit ⟨fun _ => 0, []⟩ ⟨0x8000, [⟨0, 0x9FC00, 1⟩, ⟨0x9FC00, 0x400, 2⟩]⟩
        = .ok p₀ ∧
      ∀ ops s, Run (PmmStep OwnerCall) ⟨p₀, []⟩ ops s →
        ∀ ops' t, Run (PmmStep OwnerCall) ⟨s.pmm, []⟩ ops' t →
          (∀ op, OwnerCall t op → ∃ r p', pmmCall t.pmm op = .ok (r, p'))
          ∧ (t.held = [] → SameAccounts s.pmm t.pmm) :=
  pmm_balanced_restores _ (by decide)

/-! ## The statistics -/

/-- The two figures in bytes are what the bitmap says. -/
structure StatsExact (p : Pmm) : Prop where
  total : pmmGetTotalMemory p = 4096 * p.totalBlocks
  free : pmmGetFreeMemory p = 4096 * clearCount p.bit p.totalBlocks
  free_le : pmmGetFreeMemory p ≤ pmmGetTotalMemory p
  free_zero : pmmGetFreeMemory p = 0 → ∀ f, f < p.totalBlocks → p.bit f = true

/-- Below 4 GiB no product wraps. -/
theorem PmmInv.statsExact (h : PmmInv p) (hfit : p.totalBlocks < 2 ^ 20) : StatsExact p := by
  have hcounts := setCount_add_clearCount p.bit p.totalBlocks
  have hacc := h.accounted
  have htotal : pmmGetTotalMemory p = 4096 * p.totalBlocks := by
    rw [pmmGetTotalMemory, pmmPageSize, u32_of_lt (by omega)]
    exact Nat.mul_comm ..
  have hfree : pmmGetFreeMemory p = 4096 * clearCount p.bit p.totalBlocks := by
    have hdiff : u32 (p.totalBlocks + 2 ^ 32 - p.usedBlocks)
        = clearCount p.bit p.totalBlocks := by
      rw [u32]
      omega
    rw [pmmGetFreeMemory, pmmPageSize, hdiff, u32_of_lt (by omega)]
    exact Nat.mul_comm ..
  refine ⟨htotal, hfree, by omega, fun hzero => ?_⟩
  rw [hfree] at hzero
  exact clearCount_eq_zero.mp (by omega)

/-- `top` is the highest end of a type-1 entry, as a 64-bit sum; 0 if there is none. -/
def BootInfo.HighestEnd (bi : BootInfo) (top : Nat) : Prop :=
  IsGreatest {x | x = 0 ∨ ∃ e ∈ bi.mmap, e.type = 1 ∧ x = e.top} top

/-- The highest end, rounded up to a page, is below 4 GiB; the rounding is done modulo
    2^64 and `total_blocks` keeps 32 bits, so bits from 2^44 on are lost. -/
def BootInfo.StatsFit (bi : BootInfo) : Prop :=
  ∃ top, bi.HighestEnd top ∧ (top + 4095) % 2 ^ 64 % 2 ^ 44 < 2 ^ 32

/-- The first loop of `pmm_init` finds it. -/
theorem highestEnd_pmmHighestAddr (bi : BootInfo) : bi.HighestEnd (pmmHighestAddr bi.mmap) := by
  obtain ⟨top, hfold, -, hall, hwhich⟩ := pmmHighestAddr_foldl bi.mmap 0
  rw [show pmmHighestAddr bi.mmap = top from hfold]
  constructor
  · exact hwhich
  · rintro x (rfl | ⟨e, he, htype, rfl⟩)
    · exact Nat.zero_le top
    · exact hall e he htype

/-- The condition on the map bounds `total_blocks`. -/
theorem statsFit_iff_total : bi.StatsFit ↔ bi.total < 2 ^ 20 := by
  have hround : ∀ x, x % 2 ^ 64 % 2 ^ 44 < 2 ^ 32 ↔ u32 (u64 x / 4096) < 2 ^ 20 := by
    intro x
    rw [u32, u64]
    omega
  rw [show bi.total = u32 (u64 (pmmHighestAddr bi.mmap + 4095) / 4096) from rfl, ← hround]
  constructor
  · rintro ⟨top, htop, hlt⟩
    rw [(highestEnd_pmmHighestAddr bi).unique htop]
    exact hlt
  · intro hlt
    exact ⟨_, highestEnd_pmmHighestAddr bi, hlt⟩

/-- **THE STATISTICS ARE EXACT**, in every state a run reaches, exactly when the highest
    end of the map is below 4 GiB. -/
theorem pmm_stats_exact (mem : Mem) {p₀ : Pmm} (hinit : pmmInit mem bi = .ok p₀) :
    (∀ ops s, Run (PmmStep OwnerCall) ⟨p₀, []⟩ ops s → StatsExact s.pmm) ↔ bi.StatsFit := by
  rw [statsFit_iff_total]
  constructor
  · intro hall
    -- the total already wraps in the state `pmm_init` leaves
    have htotal := (hall [] _ Run.nil).total
    rw [show pmmGetTotalMemory p₀ = u32 (p₀.totalBlocks * 4096) from rfl,
      pmmInit_total hinit] at htotal
    have hlt := u32_lt (bi.total * 4096)
    omega
  · intro hfit ops s hrun
    have hcover : bi.total ≤ 2 ^ 32 - 8 := by omega
    have hs : ClientInv bi s :=
      ClientInv.runOwner (Nat.le_of_lt hfit) (clientInv_of_init hinit hcover) hrun
    refine hs.tight.toPmmInv.statsExact ?_
    rw [hs.total]
    exact hfit

/-- The same on a machine with 1 MiB, where both sides hold. -/
theorem pmm_stats_exact_small :
    ∃ p₀, pmmInit ⟨fun _ => 0, []⟩ ⟨0x8000, [⟨0, 0x100000, 1⟩]⟩ = .ok p₀ ∧
      ((∀ ops s, Run (PmmStep OwnerCall) ⟨p₀, []⟩ ops s → StatsExact s.pmm)
        ↔ BootInfo.StatsFit ⟨0x8000, [⟨0, 0x100000, 1⟩]⟩) := by
  obtain ⟨p₀, hinit, -⟩ := @pmmInit_tight
    ⟨0x8000, [⟨0, 0x100000, 1⟩]⟩ ⟨fun _ => 0, []⟩ (by decide)
  exact ⟨p₀, hinit, pmm_stats_exact _ hinit⟩

/-- A machine with 4 GiB of memory, 1 GiB of it above the 4 GiB line: 5 GiB of frames are
    reported as 1 GiB, right after `pmm_init`. -/
theorem pmm_stats_wrap_above_4GiB :
    ¬ ∀ (bi : BootInfo) (p₀ : Pmm), pmmInit ⟨fun _ => 0, []⟩ bi = .ok p₀ →
      ∀ ops s, Run (PmmStep OwnerCall) ⟨p₀, []⟩ ops s → StatsExact s.pmm := by
  intro hall
  obtain ⟨p₀, hinit, -, htot, -⟩ := @pmmInit_tight ⟨0x8000, [⟨0, 0x9FC00, 1⟩,
    ⟨0x100000, 0xBFF00000, 1⟩, ⟨0x100000000, 0x40000000, 1⟩]⟩ ⟨fun _ => 0, []⟩ (by decide)
  have htotal := (hall _ p₀ hinit [] _ Run.nil).total
  rw [show pmmGetTotalMemory p₀ = u32 (p₀.totalBlocks * 4096) from rfl, htot] at htotal
  exact absurd htotal (by decide)

end PyramidPmm
