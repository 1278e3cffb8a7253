import PyramidOS.HeapRunProofs

/-! # The order of frees does not matter

    What `kfree` leaves is a coalesced tiling, and such a tiling is determined
    by its used blocks (`coalesced_tiling_unique`).  So however two sequences of
    frees interleave their joins, they meet in one list:

    * `kfreeAll_rep` — freeing a set of live pointers leaves the used blocks
      outside the set;
    * `kfree_order_independent` — THE HEADLINE: any two orders leave the same
      list, and freeing everything leaves the block of `heap_init`. -/

namespace PyramidHeap

open ByteMem PyramidKernel BlockTiling LinkedSeg LabelledRun

variable {m : Mem} {h h' : Heap} {bs bs' : List Block} {p : Nat} {s : HeapClient}

/-! ## The block list as a client sees it -/

/-- What one header says. -/
structure HeaderView where
  addr : Nat
  size : Nat
  isFree : Nat
  next : Nat
  prev : Nat
deriving DecidableEq, Repr

/-- The block list: addresses, sizes, flags and links. -/
def Heap.blockList (h : Heap) : List HeaderView :=
  h.headers.map fun a => ⟨a, headerSize h.mem a, headerIsFree h.mem a,
    headerNext h.mem a, headerPrev h.mem a⟩

/-- The views of the blocks `bs`, after a block at `p`. -/
def viewsOf : Nat → List Block → List HeaderView
  | _, [] => []
  | p, b :: rest => ⟨b.addr, b.size, if b.free then 1 else 0, headOr Block.addr 0 rest, p⟩
      :: viewsOf b.addr rest

theorem seg_views (hseg : Seg Block.addr HeaderAt m p bs 0) :
    (bs.map Block.addr).map (fun a => (⟨a, headerSize m a, headerIsFree m a,
      headerNext m a, headerPrev m a⟩ : HeaderView)) = viewsOf p bs := by
  induction bs generalizing p with
  | nil => rfl
  | cons b rest ih =>
      obtain ⟨hb, hrest⟩ := hseg
      rw [List.map_cons, List.map_cons, viewsOf, ih hrest, hb.size, hb.isFree, hb.next,
        hb.prev]

/-- The block list depends on the represented blocks only. -/
theorem HeapRep.blockList_eq (hrep : HeapRep h bs) : h.blockList = viewsOf 0 bs := by
  rw [Heap.blockList, hrep.headers_eq]
  exact seg_views hrep.list.linked

/-- Heaps with the same used blocks have the same block list. -/
theorem blockList_eq_of_used (hrep : HeapRep h bs) (hrep' : HeapRep h' bs')
    (hu : used bs = used bs') : h.blockList = h'.blockList := by
  have hbs := coalesced_tiling_unique (by decide) hrep.list.tiles hrep'.list.tiles
    hrep.coalesced hrep'.coalesced hu
  rw [hrep.blockList_eq, hrep'.blockList_eq, hbs]

/-! ## Freeing one after the other -/

/-- `kfree` of each pointer in turn. -/
def kfreeAll (h : Heap) : List Nat → Except Halt Heap
  | [] => .ok h
  | ptr :: rest => do
      let h ← kfree h ptr
      kfreeAll h rest

/-- Freeing live pointers, each once, leaves the used blocks of the others. -/
theorem kfreeAll_rep (ptrs : List Nat) :
    ∀ (s : HeapClient) (bs : List Block), HeapInv s bs → ptrs.Nodup →
      (∀ ptr ∈ ptrs, ∃ size, (ptr, size) ∈ s.live) →
      ∃ h' bs', kfreeAll s.heap ptrs = .ok h' ∧ HeapRep h' bs'
        ∧ used bs' = (used bs).filter (fun b => decide (b.addr + 20 ∉ ptrs)) := by
  induction ptrs with
  | nil =>
      intro s bs hi _ _
      refine ⟨s.heap, bs, rfl, hi.rep, (List.filter_eq_self.mpr fun b _ => ?_).symm⟩
      exact decide_eq_true List.not_mem_nil
  | cons ptr rest ih =>
      intro s bs hi hnodup hlive
      obtain ⟨hfresh, hrest⟩ := List.nodup_cons.mp hnodup
      obtain ⟨h1, bs1, hok, hi1, hused1, -⟩ :=
        hi.kfree (Or.inr (hlive ptr (List.mem_cons_self ..)))
      -- the other pointers are still live
      have hlive1 : ∀ q ∈ rest, ∃ size, (q, size) ∈ liveWithout s.live ptr := by
        intro q hq
        obtain ⟨size, hsize⟩ := hlive q (List.mem_cons_of_mem _ hq)
        have hne : q ≠ ptr := fun heq => hfresh (heq ▸ hq)
        exact ⟨size, List.mem_filter.mpr ⟨hsize, decide_eq_true hne⟩⟩
      obtain ⟨h2, bs2, hok2, hrep2, hused2⟩ := ih _ bs1 hi1 hrest hlive1
      refine ⟨h2, bs2, ?_, hrep2, ?_⟩
      · rw [kfreeAll, hok]
        exact hok2
      · rw [hused2, hused1, List.filter_filter]
        refine List.filter_congr fun b _ => ?_
        rw [← Bool.decide_and]
        refine decide_eq_decide.mpr ?_
        rw [List.mem_cons, not_or]
        exact and_comm

/-- **THE ORDER OF FREES DOES NOT MATTER**: in every state a run reaches, freeing
    a set of live pointers in any two orders leaves the same block list; freeing
    all of them leaves the one free block `heap_init` created. -/
theorem kfree_order_independent (mem : Mem) (ops : List HeapOp) (s : HeapClient)
    (hrun : Run HeapStep ⟨heapFirstBlock mem, []⟩ ops s) :
    (∀ ptrs ptrs' : List Nat, ptrs.Nodup →
      (∀ ptr ∈ ptrs, ∃ size, (ptr, size) ∈ s.live) → ptrs.Perm ptrs' →
      ∃ h₁ h₂, kfreeAll s.heap ptrs = .ok h₁ ∧ kfreeAll s.heap ptrs' = .ok h₂
        ∧ h₁.blockList = h₂.blockList)
    ∧ ∀ ptrs : List Nat, ptrs.Perm (s.live.map Prod.fst) →
      ∃ h₁, kfreeAll s.heap ptrs = .ok h₁
        ∧ h₁.blockList = (heapFirstBlock mem).blockList
        ∧ h₁.blockList = [⟨0xD0000000, 0x100000 - 20, 1, 0, 0⟩] := by
  obtain ⟨bs, hi⟩ := heapInv_run hrun
  constructor
  · intro ptrs ptrs' hnodup hlive hperm
    obtain ⟨h₁, bs₁, hok₁, hrep₁, hused₁⟩ := kfreeAll_rep ptrs s bs hi hnodup hlive
    obtain ⟨h₂, bs₂, hok₂, hrep₂, hused₂⟩ := kfreeAll_rep ptrs' s bs hi
      (hperm.nodup_iff.mp hnodup) fun ptr hp => hlive ptr (hperm.mem_iff.mpr hp)
    refine ⟨h₁, h₂, hok₁, hok₂, blockList_eq_of_used hrep₁ hrep₂ ?_⟩
    rw [hused₁, hused₂]
    refine List.filter_congr fun b _ => decide_eq_decide.mpr ?_
    rw [hperm.mem_iff]
  · intro ptrs hperm
    have hlive : ∀ ptr ∈ ptrs, ∃ size, (ptr, size) ∈ s.live := by
      intro ptr hp
      obtain ⟨l, hl, rfl⟩ := List.mem_map.mp (hperm.mem_iff.mp hp)
      exact ⟨l.2, hl⟩
    obtain ⟨h₁, bs₁, hok₁, hrep₁, hused₁⟩ := kfreeAll_rep ptrs s bs hi
      (hperm.nodup_iff.mpr hi.nodup) hlive
    -- every used block was freed
    have hnone : used bs₁ = used [⟨0xD0000000, 0xFFFEC, true⟩] := by
      rw [hused₁]
      refine List.filter_eq_nil_iff.mpr fun b hb => ?_
      obtain ⟨size, hsize⟩ := hi.owned b hb
      have hmem : b.addr + 20 ∈ ptrs :=
        hperm.mem_iff.mpr (List.mem_map.mpr ⟨_, hsize, rfl⟩)
      rw [decide_eq_false (not_not.mpr hmem)]
      exact Bool.false_ne_true
    have hfirst := heapFirstBlock_rep mem
    have hsame := blockList_eq_of_used hrep₁ hfirst hnone
    exact ⟨h₁, hok₁, hsame, hsame.trans hfirst.blockList_eq⟩

/-- Two allocations from the first block, freed in either order. -/
theorem kfree_order_independent_two :
    ∃ s, Run HeapStep ⟨heapFirstBlock ⟨fun _ => 0, []⟩, []⟩ [.kmalloc 10, .kmalloc 4096] s
      ∧ ∃ h₁ h₂, kfreeAll s.heap (s.live.map Prod.fst) = .ok h₁
        ∧ kfreeAll s.heap (s.live.map Prod.fst).reverse = .ok h₂
        ∧ h₁.blockList = h₂.blockList
        ∧ h₁.blockList = [⟨0xD0000000, 0x100000 - 20, 1, 0, 0⟩] := by
  obtain ⟨bs, hi⟩ := heapInv_run (m := ⟨fun _ => 0, []⟩) Run.nil
  obtain ⟨ptr, h, bs', hok, hi', -⟩ := hi.kmalloc (10 : UInt32).toNat_lt
  obtain ⟨ptr', h', bs'', hok', hi'', -⟩ := hi'.kmalloc (4096 : UInt32).toNat_lt
  have hrun := (Run.single (HeapStep.kmalloc hok)).append
    (Run.single (HeapStep.kmalloc hok'))
  obtain ⟨horder, hall⟩ := kfree_order_independent _ _ _ hrun
  obtain ⟨h₁, h₂, hok₁, hok₂, heq⟩ := horder _ _ hi''.nodup
    (fun ptr hp => by
      obtain ⟨l, hl, rfl⟩ := List.mem_map.mp hp
      exact ⟨l.2, hl⟩) (List.reverse_perm _).symm
  obtain ⟨h₃, hok₃, -, hfirst⟩ := hall _ (List.Perm.refl _)
  have hsame : h₃ = h₁ := Except.ok.inj (hok₃.symm.trans hok₁)
  exact ⟨_, hrun, h₁, h₂, hok₁, hok₂, heq, hsame ▸ hfirst⟩

end PyramidHeap
