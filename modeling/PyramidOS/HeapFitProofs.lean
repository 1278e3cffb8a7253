import PyramidOS.HeapClientProofs

/-! # First fit, exactly

    One call of `kmalloc`, told by the block list alone, and the call of `kfree`
    that takes it back:

    * `kmalloc_first_fit` — which block is taken, how it is cut, and that every
      other block stays as it was;
    * `kfree_undoes_kmalloc` — freeing at once what `kmalloc` returned restores the
      list, links included;
    * `HeapInv.allocations_perm` — the payloads of the blocks in use are what the
      clients hold. -/

namespace PyramidHeap

open ByteMem PyramidKernel BlockTiling LinkedSeg LabelledRun

variable {h h' : Heap} {b c : Block} {bs bs₀ : List Block} {r : Nat} {s : HeapClient}
  {live : List (Nat × Nat)} {l : Nat × Nat}

/-- The blocks of the list, with their addresses, sizes and flags. -/
def Heap.blocks (h : Heap) : List Block :=
  h.headers.map fun a => ⟨a, headerSize h.mem a, decide (headerIsFree h.mem a ≠ 0)⟩

/-- The list in memory holds the blocks it represents. -/
theorem HeapRep.blocks_eq (hrep : HeapRep h bs) : h.blocks = bs := by
  have hblock : ∀ b ∈ bs, (⟨b.addr, headerSize h.mem b.addr,
      decide (headerIsFree h.mem b.addr ≠ 0)⟩ : Block) = b := by
    intro b hb
    obtain ⟨prev, next, hheader⟩ := hrep.headerAt_mem hb
    rw [hheader.size, hheader.isFree]
    obtain ⟨addr, size, free⟩ := b
    cases free with
    | true => rfl
    | false => rfl
  rw [Heap.blocks, hrep.headers_eq, List.map_map]
  exact (List.map_congr_left hblock).trans (List.map_id bs)

/-- Block `c` is the free block of the lowest address with room for `r` bytes. -/
structure FirstFit (h : Heap) (r : Nat) (c : Block) : Prop where
  mem : c ∈ h.blocks
  free : c.free = true
  room : r ≤ c.size
  lowest : ∀ b ∈ h.blocks, b.free = true → r ≤ b.size → c.addr ≤ b.addr

/-- What block `c` becomes when `r` bytes of it are taken: with more than 24 bytes
    to spare the rest is a free block right behind them. -/
def takenBlocks (c : Block) (r : Nat) : List Block :=
  if c.size > r + 24 then
    [⟨c.addr, r, false⟩, ⟨c.addr + 20 + r, c.size - r - 20, true⟩]
  else [⟨c.addr, c.size, false⟩]

/-- `h'` is `h` with `r` bytes of block `c` taken and all other blocks as they
    were. -/
def TakenFrom (h h' : Heap) (c : Block) (r : Nat) : Prop :=
  ∃ xs ys, h.blocks = xs ++ c :: ys ∧ h'.blocks = xs ++ (takenBlocks c r ++ ys)

theorem carve_eq_takenBlocks (c : Block) (r : Nat) : carve 20 4 r c = takenBlocks c r := rfl

/-- Block `c` does not serve a request of `r` bytes. -/
theorem not_fits (hfit : fits r b = false) (hb : b.free = true) : b.size < r := by
  rw [fits, hb, Bool.true_and, decide_eq_false_iff_not] at hfit
  exact Nat.not_le.mp hfit

/-- The first block of the list that fits is the one of the lowest address. -/
theorem HeapRep.firstFit {xs ys : List Block} (hrep : HeapRep h (xs ++ c :: ys))
    (hfree : c.free = true) (hroom : r ≤ c.size) (hxs : ∀ b ∈ xs, fits r b = false) :
    FirstFit h r c := by
  obtain ⟨-, htail, -⟩ := List.pairwise_append.mp hrep.list.tiles.sorted
  constructor
  · rw [hrep.blocks_eq]
    exact List.mem_append_right _ (List.mem_cons_self ..)
  · exact hfree
  · exact hroom
  · intro b hb hbfree hbroom
    rw [hrep.blocks_eq] at hb
    rcases List.mem_append.mp hb with hx | hcy
    · exact absurd (not_fits (hxs b hx) hbfree) (Nat.not_lt.mpr hbroom)
    · rcases List.mem_cons.mp hcy with rfl | hy
      · exact Nat.le_refl _
      · have hle := (List.pairwise_cons.mp htail).1 b hy
        omega

/-- What one call of `kmalloc` with a request of `n` bytes does. -/
structure MallocExact (h : Heap) (n : Nat) (ptr : Nat) (h' : Heap) : Prop where
  null_iff : ptr = 0 ↔ n = 0 ∨ 0x100000 - 20 < n
    ∨ ∀ b ∈ h.blocks, b.free = true → b.size < wordSize n
  null : ptr = 0 → h' = h
  taken : ptr ≠ 0 → ∃ c, FirstFit h (wordSize n) c ∧ ptr = c.addr + 20
    ∧ TakenFrom h h' c (wordSize n)

theorem HeapRep.kmalloc_exact (hrep : HeapRep h bs) {n : Nat} (hn : n < 2 ^ 32) :
    ∃ ptr h', kmalloc h n = .ok (ptr, h') ∧ MallocExact h n ptr h' := by
  rcases kmalloc_spec hrep hn with
    ⟨hok, hwhy⟩ | ⟨xs, c, ys, m', rfl, hfree, hroom, hxs, hpos, hmax, hok, hrep', -⟩
  · refine ⟨0, h, hok, ?_, fun _ => rfl, fun hne => absurd rfl hne⟩
    refine iff_of_true rfl (hwhy.imp_right (Or.imp_right fun hnone b hb hbfree => ?_))
    rw [hrep.blocks_eq] at hb
    have hfit : fits (wordSize n) b = false :=
      Bool.eq_false_iff.mpr (List.find?_eq_none.mp hnone b hb)
    exact not_fits hfit hbfree
  · have hfirst : FirstFit h (wordSize n) c := hrep.firstFit hfree hroom hxs
    refine ⟨c.addr + 20, _, hok, ?_, fun hzero => by omega, fun _ => ⟨c, hfirst, rfl, ?_⟩⟩
    · refine iff_of_false (by omega) ?_
      rintro (hzero | hlarge | hnone)
      · omega
      · omega
      · have hlt := hnone c hfirst.mem hfree
        omega
    · rw [carve_eq_takenBlocks] at hrep'
      exact ⟨xs, ys, hrep.blocks_eq, hrep'.blocks_eq⟩

/-- **`kmalloc` IS EXACT FIRST FIT**: in every state a run reaches it returns, with
    NULL and an unchanged heap exactly when the request is 0, larger than the heap or
    larger than every free block, and else with the payload of the lowest free block
    that is large enough. -/
theorem kmalloc_first_fit (mem : Mem) (ops : List HeapOp) (s : HeapClient)
    (hrun : Run HeapStep ⟨heapFirstBlock mem, []⟩ ops s) (n : UInt32) :
    ∃ ptr h', kmalloc s.heap n.toNat = .ok (ptr, h')
      ∧ (ptr = 0 ↔ n.toNat = 0 ∨ 0x100000 - 20 < n.toNat
        ∨ ∀ b ∈ s.heap.blocks, b.free = true → b.size < wordSize n.toNat)
      ∧ (ptr = 0 → h' = s.heap)
      ∧ (ptr ≠ 0 → ∃ c, FirstFit s.heap (wordSize n.toNat) c ∧ ptr = c.addr + 20
        ∧ TakenFrom s.heap h' c (wordSize n.toNat)) := by
  obtain ⟨bs, hi⟩ := heapInv_run hrun
  obtain ⟨ptr, h', hok, hexact⟩ := hi.rep.kmalloc_exact n.toNat_lt
  exact ⟨ptr, h', hok, hexact.null_iff, hexact.null, hexact.taken⟩

/-- A request of 10 bytes on the fresh heap. -/
theorem kmalloc_first_fit_ten :
    ∃ ptr h', kmalloc (heapFirstBlock ⟨fun _ => 0, []⟩) 10 = .ok (ptr, h')
      ∧ (ptr = 0 → h' = heapFirstBlock ⟨fun _ => 0, []⟩)
      ∧ (ptr ≠ 0 → ∃ c, FirstFit (heapFirstBlock ⟨fun _ => 0, []⟩) (wordSize 10) c
        ∧ ptr = c.addr + 20) := by
  obtain ⟨ptr, h', hok, -, hnull, htaken⟩ := kmalloc_first_fit ⟨fun _ => 0, []⟩ [] _ Run.nil 10
  refine ⟨ptr, h', hok, hnull, fun hne => ?_⟩
  obtain ⟨c, hfirst, hptr, -⟩ := htaken hne
  exact ⟨c, hfirst, hptr⟩

/-! ## Taking it back -/

/-- **`kfree` UNDOES `kmalloc`**: in every state a run reaches, freeing at once what
    `kmalloc` returned restores the block list, with addresses, sizes, flags and
    links. -/
theorem kfree_undoes_kmalloc (mem : Mem) (ops : List HeapOp) (s : HeapClient)
    (hrun : Run HeapStep ⟨heapFirstBlock mem, []⟩ ops s) (n : UInt32) {ptr : Nat}
    (hok : kmalloc s.heap n.toNat = .ok (ptr, h)) (hptr : ptr ≠ 0) :
    ∃ h', kfree h ptr = .ok h' ∧ h'.blockList = s.heap.blockList := by
  obtain ⟨bs, hi⟩ := heapInv_run hrun
  have howns : Owns bs s.heap s.live := ⟨bs, hi, fun _ hb => hb⟩
  obtain ⟨ptr', h₁, hok', -, hcase⟩ := howns.alloc n.toNat n.toNat_lt
  rw [hok] at hok'
  obtain ⟨rfl, rfl⟩ := Prod.mk.inj (Except.ok.inj hok')
  rcases hcase with ⟨hzero, -⟩ | ⟨-, hheld⟩
  · exact absurd hzero hptr
  · obtain ⟨h', hfree, -, hback⟩ := hheld.free hi.owned
    exact ⟨h', hfree, hback.blockList_eq hi⟩

/-- Ten bytes taken from the fresh heap and given back. -/
theorem kfree_undoes_kmalloc_ten :
    ∃ ptr h, kmalloc (heapFirstBlock ⟨fun _ => 0, []⟩) 10 = .ok (ptr, h) ∧ ptr ≠ 0
      ∧ ∃ h', kfree h ptr = .ok h'
        ∧ h'.blockList = (heapFirstBlock ⟨fun _ => 0, []⟩).blockList := by
  obtain ⟨ptr, h, hok, hexact⟩ := (heapFirstBlock_rep ⟨fun _ => 0, []⟩).kmalloc_exact
    (10 : UInt32).toNat_lt
  have hptr : ptr ≠ 0 := by
    intro hzero
    rcases hexact.null_iff.mp hzero with hn | hn | hn
    · exact absurd hn (by decide)
    · exact absurd hn (by decide)
    · refine absurd (hn ⟨0xD0000000, 0xFFFEC, true⟩ ?_ rfl) (by decide)
      rw [(heapFirstBlock_rep _).blocks_eq]
      exact List.mem_singleton_self _
  exact ⟨ptr, h, hok, hptr, kfree_undoes_kmalloc ⟨fun _ => 0, []⟩ [] _ Run.nil 10 hok hptr⟩

/-! ## What is allocated -/

/-- The payloads of the blocks in use. -/
def Heap.allocations (h : Heap) : List Nat := (used h.blocks).map fun b => b.addr + 20

/-- No block is listed twice. -/
theorem HeapRep.allocations_nodup (hrep : HeapRep h bs) : h.allocations.Nodup := by
  rw [Heap.allocations, hrep.blocks_eq]
  have hsorted : (used bs).Pairwise fun a b => a.addr + 20 + a.size ≤ b.addr :=
    hrep.list.tiles.sorted.sublist List.filter_sublist
  refine List.pairwise_map.mpr (hsorted.imp ?_)
  intro a b hle heq
  omega

/-- **WHAT IS ALLOCATED IS WHAT IS HELD.** -/
theorem HeapInv.allocations_perm (hi : HeapInv ⟨h, live⟩ bs) :
    h.allocations.Perm (live.map Prod.fst) := by
  refine (List.perm_ext_iff_of_nodup hi.rep.allocations_nodup hi.nodup).mpr fun p => ?_
  rw [Heap.allocations, hi.rep.blocks_eq]
  constructor
  · intro hp
    obtain ⟨b, hb, rfl⟩ := List.mem_map.mp hp
    obtain ⟨size, hheld⟩ := hi.owned b hb
    exact List.mem_map.mpr ⟨_, hheld, rfl⟩
  · intro hp
    obtain ⟨l, hl, rfl⟩ := List.mem_map.mp hp
    obtain ⟨b, hb, hptr, -⟩ := hi.covers l hl
    exact List.mem_map.mpr ⟨b, hb, hptr.symm⟩

/-- A block in use with room for what was asked for. -/
theorem HeapInv.allocated (hi : HeapInv ⟨h, live⟩ bs) (hl : l ∈ live) :
    ∃ b ∈ used h.blocks, l.1 = b.addr + 20 ∧ l.2 ≤ b.size := by
  rw [hi.rep.blocks_eq]
  exact hi.covers l hl

/-- What was in use when the owning began still is. -/
theorem Owns.used_subset {base : List (Nat × Nat)} {h₀ : Heap} (ho : Owns bs₀ h live)
    (hi₀ : HeapInv ⟨h₀, base⟩ bs₀) : ∀ b ∈ used h₀.blocks, b ∈ used h.blocks := by
  obtain ⟨bs, hi, hsub⟩ := ho
  rw [hi₀.rep.blocks_eq, hi.rep.blocks_eq]
  exact hsub

end PyramidHeap
