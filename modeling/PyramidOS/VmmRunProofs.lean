import PyramidOS.VmmProofs

/-! # Page tables refine a map

    What the page tables are for: a map from virtual pages to physical pages in
    which a later mapping replaces an earlier one.  `PageMap` is that map on its
    own; `Refines` relates the VMM to it, and every returning call of
    `vmm_map` and `vmm_alloc_page` is one update of it (`Refines.step`).

    * `vmm_walk_most_recent` — after any run the walk sends a page below 4 MiB
      to itself, and any other page where its most recent mapping says. -/

namespace PyramidVmm

open ByteMem WordBitmap PyramidKernel PyramidPmm TwoLevelPaging LabelledRun

variable {p : Pmm} {s t : Vmm} {bi : BootInfo} {es : List VmmEvent}

/-! ## The map -/

/-- A call that returned.  `phys` is the page `pmm_alloc_page` gave
    `vmm_alloc_page`, 0 when memory had run out. -/
inductive VmmEvent where
  | map (vaddr paddr : UInt32)
  | allocPage (vaddr : UInt32) (phys : Nat)
deriving DecidableEq, Repr

/-- Where the call maps the page at `u`, if it maps it. -/
def VmmEvent.mapped (u : Nat) : VmmEvent → Option Nat
  | .map vaddr paddr => if u = vaddr.toNat then some paddr.toNat else none
  | .allocPage vaddr phys => if phys ≠ 0 ∧ u = vaddr.toNat then some phys else none

/-- Physical pages by virtual page. -/
abbrev PageMap := Nat → Option Nat

/-- The map after `vmm_init`. -/
def PageMap.boot : PageMap := fun u => if u < vmmLowmemLimit then some u else none

/-- One update: what `e` maps, it maps; the rest stays. -/
def PageMap.Step (m : PageMap) (e : VmmEvent) (m' : PageMap) : Prop :=
  ∀ u, m' u = (e.mapped u).or (m u)

/-- The most recent mapping of the page at `u` in a run. -/
def mostRecent (es : List VmmEvent) (u : Nat) : Option Nat :=
  es.reverse.findSome? (VmmEvent.mapped u)

theorem mostRecent_snoc (es : List VmmEvent) (e : VmmEvent) (u : Nat) :
    mostRecent (es ++ [e]) u = (e.mapped u).or (mostRecent es u) := by
  rw [mostRecent, List.reverse_append, List.reverse_singleton, List.singleton_append,
    List.findSome?_cons]
  cases e.mapped u with
  | none => rfl
  | some q => rfl

/-- A run of updates leaves the most recent mappings, over the boot map. -/
theorem pageMap_run {m m' : PageMap} (h : Run PageMap.Step m es m') :
    ∀ u, m' u = (mostRecent es u).or (m u) := by
  induction h with
  | nil => intro u; rfl
  | snoc e _ hst ih =>
      intro u
      rw [hst u, ih u, mostRecent_snoc, Option.or_assoc]

/-! ## The simulation -/

/-- A returning call on page-aligned addresses at or above 4 MiB. -/
inductive VmmStep : Vmm → VmmEvent → Vmm → Prop where
  | map {s s' : Vmm} {vaddr paddr : UInt32}
      (hhigh : vmmLowmemLimit ≤ vaddr.toNat) (hvaddr : vaddr.toNat % 4096 = 0)
      (hpaddr : paddr.toNat % 4096 = 0)
      (hok : vmmMap s vaddr.toNat paddr.toNat = .ok s') :
      VmmStep s (.map vaddr paddr) s'
  | allocPage {s s' : Vmm} {p' : Pmm} {vaddr : UInt32} {phys r : Nat}
      (hhigh : vmmLowmemLimit ≤ vaddr.toNat) (hvaddr : vaddr.toNat % 4096 = 0)
      (hphys : pmmAllocPage s.pmm = .ok (phys, p'))
      (hok : vmmAllocPage s vaddr.toNat = .ok (r, s')) :
      VmmStep s (.allocPage vaddr phys) s'

/-- **THE REFINEMENT**: the invariant, and a walk that agrees with the map. -/
def Refines (bi : BootInfo) (s : Vmm) (m : PageMap) : Prop :=
  (∃ pages data, VmmInv bi s pages data)
  ∧ ∀ u, u < 2 ^ 32 → u % 4096 = 0 → s.walk u = m u

/-- The data page a call handed out, if any. -/
def VmmEvent.handedOut : VmmEvent → List Nat
  | .map _ _ => []
  | .allocPage _ phys => if phys = 0 then [] else [phys]

/-- **ONE CALL** keeps the VMM invariant, with its data page added, and updates
    the walk. -/
theorem VmmInv.step {e : VmmEvent} {pages data : List Nat} (h : VmmInv bi s pages data)
    (hsmall : bi.total ≤ 2 ^ 20) (hst : VmmStep s e t) :
    ∃ pages', VmmInv bi t pages' (e.handedOut ++ data)
      ∧ ∀ u, u < 2 ^ 32 → u % 4096 = 0 → t.walk u = (e.mapped u).or (s.walk u) := by
  -- mapping the page of `v` updates the walk at `v` and at no other page address
  have hupdate : ∀ v q : Nat, v % 4096 = 0 →
      (∀ u, e.mapped u = if u = v then some q else none) →
      (∀ u, u < 2 ^ 32 → t.walk u = if u / 4096 = v / 4096 then some q else s.walk u) →
      ∀ u, u < 2 ^ 32 → u % 4096 = 0 → t.walk u = (e.mapped u).or (s.walk u) := by
    intro v q hv hmapped hw u hu hal
    rw [hw u hu, hmapped u]
    by_cases huv : u = v
    · rw [if_pos huv, if_pos (by rw [huv])]
      rfl
    · rw [if_neg huv, if_neg (by omega)]
      rfl
  cases hst with
  | map hhigh hvaddr hpaddr hok =>
      rename_i vaddr paddr
      rcases vmmMap_spec h hsmall vaddr.toNat_lt hvaddr paddr.toNat_lt hpaddr with
        herr | ⟨s', pages', hok', hinv', hw⟩
      · rw [herr] at hok
        exact nomatch hok
      · rw [hok'] at hok
        rw [← Except.ok.inj hok] at hupdate ⊢
        exact ⟨pages', hinv', hupdate _ _ hvaddr (fun _ => rfl) hw⟩
  | allocPage hhigh hvaddr hphys hok =>
      rename_i p' vaddr phys r
      obtain ⟨q, p1, hq, hres⟩ := vmmAllocPage_spec h hsmall vaddr.toNat_lt hvaddr
      rw [hphys] at hq
      have hqp : phys = q := (Prod.mk.inj (Except.ok.inj hq)).1
      rw [hqp] at hupdate ⊢
      rcases hres with ⟨hq0, s', hok', hinv', hw⟩ |
        ⟨hq0, herr | ⟨s', pages', hok', hinv', hw⟩⟩
      · -- out of memory: the update is empty
        rw [hok'] at hok
        rw [← (Prod.mk.inj (Except.ok.inj hok)).2, VmmEvent.handedOut, if_pos hq0]
        refine ⟨pages, hinv', fun u hu _ => ?_⟩
        rw [VmmEvent.mapped, if_neg fun hc => hc.1 hq0]
        exact hw u hu
      · rw [herr] at hok
        exact nomatch hok
      · rw [hok'] at hok
        rw [← (Prod.mk.inj (Except.ok.inj hok)).2] at hupdate ⊢
        rw [VmmEvent.handedOut, if_neg hq0]
        refine ⟨pages', hinv', hupdate _ _ hvaddr (fun u => ?_) hw⟩
        rw [VmmEvent.mapped]
        by_cases huv : u = vaddr.toNat
        · rw [if_pos ⟨hq0, huv⟩, if_pos huv]
        · rw [if_neg fun hc => huv hc.2, if_neg huv]

/-- **ONE CALL, ONE UPDATE.** -/
theorem Refines.step {m : PageMap} {e : VmmEvent} (h : Refines bi s m)
    (hsmall : bi.total ≤ 2 ^ 20) (hst : VmmStep s e t) :
    ∃ m', m.Step e m' ∧ Refines bi t m' := by
  obtain ⟨pages, data, hinv⟩ := h.1
  obtain ⟨pages', hinv', hw⟩ := hinv.step hsmall hst
  refine ⟨fun u => (e.mapped u).or (m u), fun _ => rfl, ⟨pages', _, hinv'⟩, fun u hu hal => ?_⟩
  rw [hw u hu hal, h.2 u hu hal]

/-- `vmm_init` establishes the refinement of the boot map. -/
theorem vmmInit_refines (h : ClientInv bi ⟨p, []⟩) (hsmall : bi.total ≤ 2 ^ 20)
    (hok : vmmInit p = .ok s) : Refines bi s PageMap.boot := by
  rcases vmmInit_spec h hsmall with ⟨⟨msg, herr⟩, -⟩ | ⟨s', pages, hok', hinv, hw, -⟩
  · rw [herr] at hok
    exact nomatch hok
  · rw [hok'] at hok
    rw [← Except.ok.inj hok]
    refine ⟨⟨pages, [], hinv⟩, fun u hu hal => (hw u hu).trans ?_⟩
    rw [PageMap.boot]
    by_cases hlow : u < vmmLowmemLimit
    · rw [if_pos hlow, if_pos hlow]
      congr 1
      omega
    · rw [if_neg hlow, if_neg hlow]

/-- No call of a run maps a page below 4 MiB. -/
theorem mostRecent_low (hrun : Run VmmStep s es t) {u : Nat} (hu : u < vmmLowmemLimit) :
    mostRecent es u = none := by
  induction hrun with
  | nil => rfl
  | snoc e _ hst ih =>
      have hnone : e.mapped u = none := by
        cases hst with
        | map hhigh _ _ _ => exact if_neg (by omega)
        | allocPage hhigh _ _ _ => exact if_neg (by omega)
      rw [mostRecent_snoc, hnone, ih]
      rfl

/-- The physical address of `u`. -/
def Vmm.translate (s : Vmm) (u : Nat) : Option Nat :=
  TwoLevelPaging.translate s.mem s.pageDirectory u

/-- **PAGE TABLES REFINE A MAP**: after every run of mappings, addresses below
    4 MiB translate to themselves, and any other address into the physical page
    of the most recent mapping of its page, or to nothing if there was none. -/
theorem vmm_walk_most_recent (mem : Mem) (hbi : bi.Below4GiB) :
    ∃ p₀, pmmInit mem bi = .ok p₀ ∧ ∀ s₀, vmmInit p₀ = .ok s₀ →
      ∀ es s, Run VmmStep s₀ es s → ∀ u, u < 2 ^ 32 →
        (u < vmmLowmemLimit → s.translate u = some u)
        ∧ (vmmLowmemLimit ≤ u → s.translate u
            = (mostRecent es (u / 4096 * 4096)).map fun page => page + u % 4096) := by
  have hsmall := total_le hbi
  obtain ⟨p₀, hinit, h0⟩ := pmmInit_clientInv mem hbi
  refine ⟨p₀, hinit, fun s₀ hvmm es s hrun u hu => ?_⟩
  obtain ⟨m, hmap, -, hw⟩ := hrun.simulates (vmmInit_refines h0 hsmall hvmm)
    fun _ _ _ _ hR hst => Refines.step hR hsmall hst
  have hwalk : s.walk u = (mostRecent es (u / 4096 * 4096)).or
      (PageMap.boot (u / 4096 * 4096)) := by
    rw [Vmm.walk, walk_page, ← pageMap_run hmap]
    exact hw _ (by omega) (by omega)
  have htrans : s.translate u = (s.walk u).map fun page => page + u % 4096 := rfl
  rw [htrans, hwalk, PageMap.boot]
  constructor
  · intro hlow
    rw [mostRecent_low hrun (by omega), if_pos (by omega), Option.none_or, Option.map_some]
    congr 1
    omega
  · intro hhigh
    have hpage : ¬ u / 4096 * 4096 < vmmLowmemLimit := by
      rw [vmmLowmemLimit] at hhigh ⊢
      omega
    rw [if_neg hpage, Option.or_none]

/-- With two frames free below 4 MiB `vmm_init` returns. -/
theorem vmmInit_returns {mem : Mem} (hbi : bi.Below4GiB) (hinit : pmmInit mem bi = .ok p)
    {f g : Nat} (hne : f ≠ g) (hf : f < 1024) (hg : g < 1024) (hff : bi.InitFree f)
    (hgf : bi.InitFree g) : ∃ s, vmmInit p = .ok s := by
  have hsmall := total_le hbi
  obtain ⟨p', hinit', h0⟩ := pmmInit_clientInv mem hbi
  rw [← Except.ok.inj (hinit.symm.trans hinit')] at h0
  obtain ⟨-, htot, -, hbits⟩ := pmmInit_ok hinit (by omega)
  have hfree : ∀ k, k < 1024 → bi.InitFree k →
      k ∈ clearIn p.bit 0 (lowLimit p vmmLowmemLimit) := by
    intro k hk hkf
    have hlt := hkf.1.lt_total
    refine ⟨Nat.zero_le k, ?_, (hbits k hlt).mpr hkf⟩
    rw [lowLimit, htot]
    exact Nat.lt_min.mpr ⟨hk, hlt⟩
  rcases vmmInit_spec h0 hsmall with ⟨-, hsub⟩ | ⟨s, -, hok, -⟩
  · exact absurd (hsub (hfree f hf hff) (hfree g hg hgf)) hne
  · exact ⟨s, hok⟩

/-- The same on a map with a hole and an unaligned end, where `vmm_init` does
    return. -/
theorem vmm_walk_most_recent_ebda :
    ∃ p₀ s₀, pmmInit ⟨fun _ => 0, []⟩ ⟨0x8000, [⟨0, 0x9FC00, 1⟩, ⟨0x9FC00, 0x400, 2⟩]⟩
        = .ok p₀ ∧ vmmInit p₀ = .ok s₀ ∧
      ∀ es s, Run VmmStep s₀ es s → ∀ u, u < 2 ^ 32 →
        (u < vmmLowmemLimit → s.translate u = some u)
        ∧ (vmmLowmemLimit ≤ u → s.translate u
            = (mostRecent es (u / 4096 * 4096)).map fun page => page + u % 4096) := by
  obtain ⟨p₀, hinit, hall⟩ := vmm_walk_most_recent ⟨fun _ => 0, []⟩
    (show BootInfo.Below4GiB ⟨0x8000, [⟨0, 0x9FC00, 1⟩, ⟨0x9FC00, 0x400, 2⟩]⟩ by decide)
  have hfree1 : BootInfo.InitFree ⟨0x8000, [⟨0, 0x9FC00, 1⟩, ⟨0x9FC00, 0x400, 2⟩]⟩ 1 :=
    ⟨by decide, by decide⟩
  have hfree2 : BootInfo.InitFree ⟨0x8000, [⟨0, 0x9FC00, 1⟩, ⟨0x9FC00, 0x400, 2⟩]⟩ 2 :=
    ⟨by decide, by decide⟩
  obtain ⟨s₀, hvmm⟩ := vmmInit_returns (by decide) hinit (show 1 ≠ 2 by decide)
    (by decide) (by decide) hfree1 hfree2
  exact ⟨p₀, s₀, hinit, hvmm, hall s₀ hvmm⟩

end PyramidVmm
