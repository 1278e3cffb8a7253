import PyramidOS.HeapRunProofs
import PyramidOS.LoadStoreProofs

/-! # The heap as a program of loads and stores

    `heap.c` once more, access by access, so that it can run behind page tables.
    On a flat memory it is the heap of `HeapProofs`, and on a list as the heap
    keeps it no access leaves the heap:

    * `heapFirst_returns` — the second half of `heap_init`;
    * `kmalloc_returns`, `kfree_returns` — the calls of the clients. -/

namespace PyramidHeapProgram

open ByteMem LoadStore PyramidKernel BlockTiling LinkedSeg
open PyramidHeap (heapMagic heapStartAddr heapInitialSize sizeofHeapHeader headerSize
  headerIsFree headerMagic headerNext headerPrev Heap HeapClient HeapInv HeapRep ListRep
  HeaderAt Fields InHeader linkBack)

variable {W : Nat → Prop} {m m' : Mem} {header current size a : Nat} {bs xs ys : List Block}
  {b c : Block} {s : HeapClient}

/-! ## The code -/

/-- `header->size`. -/
def getSize (header : Nat) : Prog Halt Nat := load32 header

/-- `header->is_free`. -/
def getIsFree (header : Nat) : Prog Halt Nat := load8 (header + 4)

/-- `header->magic`. -/
def getMagic (header : Nat) : Prog Halt Nat := load32 (header + 8)

/-- `header->next`. -/
def getNext (header : Nat) : Prog Halt Nat := load32 (header + 12)

/-- `header->prev`. -/
def getPrev (header : Nat) : Prog Halt Nat := load32 (header + 16)

def setSize (header v : Nat) : Prog Halt Unit := store32 header v

def setIsFree (header : Nat) (v : Byte) : Prog Halt Unit := store8 (header + 4) v

def setMagic (header v : Nat) : Prog Halt Unit := store32 (header + 8) v

def setNext (header v : Nat) : Prog Halt Unit := store32 (header + 12) v

def setPrev (header v : Nat) : Prog Halt Unit := store32 (header + 16) v

/-- The second half of `heap_init`: the first block. -/
def heapFirstBlock : Prog Halt Unit := do
  setSize heapStartAddr (heapInitialSize - sizeofHeapHeader)
  setIsFree heapStartAddr 1
  setMagic heapStartAddr heapMagic
  setNext heapStartAddr 0
  setPrev heapStartAddr 0

/-- `if (block->next) block->next->prev = prev`. -/
def relinkNext (block prev : Nat) : Prog Halt Unit := do
  let next ← getNext block
  if next ≠ 0 then setPrev next prev else pure ()

/-- Cutting a new free block off the end of `current`, in `kmalloc`. -/
def kmallocSplit (current size : Nat) : Prog Halt Unit :=
  let newBlock := u32 (current + sizeofHeapHeader + size)
  let heapEnd := u32 (heapStartAddr + heapInitialSize)
  if newBlock ≥ heapEnd then .stop (.panic "HEAP: split block out of bounds")
  else do
    let currentSize ← getSize current
    setSize newBlock (u32 (currentSize + 2 ^ 33 - size - sizeofHeapHeader))
    setIsFree newBlock 1
    setMagic newBlock heapMagic
    let next ← getNext current
    setNext newBlock next
    setPrev newBlock current
    relinkNext current newBlock
    setNext current newBlock
    setSize current size

/-- What `kmalloc` does with the block it found. -/
def kmallocTake (current size : Nat) : Prog Halt Nat := do
  let currentSize ← getSize current
  (if currentSize > u32 (size + sizeofHeapHeader + 4) then kmallocSplit current size else pure ())
  setIsFree current 0
  pure (u32 (current + sizeofHeapHeader))

/-- `current->is_free && current->size >= size`. -/
def isFit (current size : Nat) : Prog Halt Bool := do
  let isFree ← getIsFree current
  if isFree ≠ 0 then do
    let currentSize ← getSize current
    pure (decide (currentSize ≥ size))
  else pure false

/-- The `while (current)` loop of `kmalloc`. -/
def kmallocLoop (size : Nat) : Nat → Nat → Prog Halt Nat
  | 0, _ => .stop .diverges
  | fuel + 1, current =>
      if current = 0 then pure 0
      else do
        let magic ← getMagic current
        if magic ≠ heapMagic then .stop (.panic "Heap Corruption Detected during Malloc!")
        else do
          let fit ← isFit current size
          if fit then kmallocTake current size
          else do
            let next ← getNext current
            kmallocLoop size fuel next

/-- `kmalloc`, with `start_header`. -/
def kmalloc (startHeader size : Nat) : Prog Halt Nat :=
  if startHeader = 0 then .stop (.panic "HEAP: kmalloc called before heap_init()")
  else if size = 0 then pure 0
  else if size > heapInitialSize - sizeofHeapHeader then pure 0
  else
    let size := if size % 4 ≠ 0 then u32 (size + (4 - size % 4)) else size
    kmallocLoop size (2 ^ 32) startHeader

/-- `block && block->is_free`. -/
def isFreeBlock (block : Nat) : Prog Halt Bool :=
  if block ≠ 0 then do
    let isFree ← getIsFree block
    pure (decide (isFree ≠ 0))
  else pure false

/-- `kfree`, coalesce right. -/
def kfreeRight (header : Nat) : Prog Halt Unit := do
  let next ← getNext header
  let free ← isFreeBlock next
  if free then do
    let size ← getSize header
    let next ← getNext header
    let nextSize ← getSize next
    setSize header (u32 (size + (sizeofHeapHeader + nextSize)))
    let next ← getNext header
    let after ← getNext next
    setNext header after
    relinkNext header header
  else pure ()

/-- `kfree`, coalesce left. -/
def kfreeLeft (header : Nat) : Prog Halt Unit := do
  let prev ← getPrev header
  let free ← isFreeBlock prev
  if free then do
    let prevSize ← getSize prev
    let size ← getSize header
    setSize prev (u32 (prevSize + (sizeofHeapHeader + size)))
    let prev ← getPrev header
    let next ← getNext header
    setNext prev next
    let prev ← getPrev header
    relinkNext header prev
  else pure ()

/-- `kfree`, with `start_header`. -/
def kfree (startHeader ptr : Nat) : Prog Halt Unit :=
  if ptr = 0 then pure ()
  else if startHeader = 0 then .stop (.panic "HEAP: kfree called before heap_init()")
  else do
    let header := u32 (ptr + 2 ^ 32 - sizeofHeapHeader)
    let magic ← getMagic header
    if magic ≠ heapMagic then .stop (.panic "Heap Corruption Detected during Free!")
    else do
      let isFree ← getIsFree header
      if isFree ≠ 0 then .stop (.panic "HEAP: Double free detected")
      else do
        setIsFree header 1
        kfreeRight header
        kfreeLeft header

/-! ## One field -/

/-- The header at `a` lies in `W`. -/
def HeaderIn (W : Nat → Prop) (a : Nat) : Prop := ∀ k, k < 20 → W (a + k)

theorem HeaderIn.word (h : HeaderIn W a) (k : Nat) (hk : k + 4 ≤ 20) : WordIn W (a + k) := by
  intro i hi
  rw [Nat.add_assoc]
  exact h (k + i) (by omega)

section Fields

variable (h : HeaderIn W header)

include h

theorem getSize_returns : (getSize header).Returns W m (headerSize m header) m :=
  returns_load32 (h.word 0 (by decide))

theorem getIsFree_returns : (getIsFree header).Returns W m (headerIsFree m header) m :=
  returns_load8 (h 4 (by decide))

theorem getMagic_returns : (getMagic header).Returns W m (headerMagic m header) m :=
  returns_load32 (h.word 8 (by decide))

theorem getNext_returns : (getNext header).Returns W m (headerNext m header) m :=
  returns_load32 (h.word 12 (by decide))

theorem getPrev_returns : (getPrev header).Returns W m (headerPrev m header) m :=
  returns_load32 (h.word 16 (by decide))

theorem setSize_returns (v : Nat) :
    (setSize header v).Returns W m () (PyramidHeap.setSize m header v) :=
  returns_store32 (h.word 0 (by decide)) v

theorem setIsFree_returns (v : Byte) :
    (setIsFree header v).Returns W m () (PyramidHeap.setIsFree m header v) :=
  returns_store8 (h 4 (by decide)) v

theorem setMagic_returns (v : Nat) :
    (setMagic header v).Returns W m () (PyramidHeap.setMagic m header v) :=
  returns_store32 (h.word 8 (by decide)) v

theorem setNext_returns (v : Nat) :
    (setNext header v).Returns W m () (PyramidHeap.setNext m header v) :=
  returns_store32 (h.word 12 (by decide)) v

theorem setPrev_returns (v : Nat) :
    (setPrev header v).Returns W m () (PyramidHeap.setPrev m header v) :=
  returns_store32 (h.word 16 (by decide)) v

end Fields

/-- The block that a link names, if there is one, lies in `W`. -/
def LinkIn (W : Nat → Prop) (link : Nat) : Prop := link ≠ 0 → HeaderIn W link

theorem relinkNext_returns (h : HeaderIn W header) (hlink : LinkIn W (headerNext m header))
    (prev : Nat) :
    (relinkNext header prev).Returns W m () (linkBack m (headerNext m header) prev) := by
  refine (getNext_returns h).bind ?_
  by_cases hnull : headerNext m header ≠ 0
  · rw [if_pos hnull, linkBack, if_pos hnull]
    exact setPrev_returns (hlink hnull) prev
  · rw [if_neg hnull, linkBack, if_neg hnull]
    exact returns_pure ()

theorem isFreeBlock_returns (hlink : LinkIn W a) :
    (isFreeBlock a).Returns W m (decide (a ≠ 0 ∧ headerIsFree m a ≠ 0)) m := by
  by_cases hnull : a ≠ 0
  · rw [isFreeBlock, if_pos hnull]
    refine (getIsFree_returns (hlink hnull)).bind ?_
    rw [decide_eq_decide.mpr (and_iff_right hnull)]
    exact returns_pure _
  · rw [isFreeBlock, if_neg hnull, decide_eq_false fun h => hnull h.1]
    exact returns_pure _

theorem heapFirstBlock_returns (h : HeaderIn W heapStartAddr) :
    heapFirstBlock.Returns W m () (PyramidHeap.heapFirstBlock m).mem :=
  (setSize_returns h _).bind <| (setIsFree_returns h _).bind <| (setMagic_returns h _).bind <|
    (setNext_returns h _).bind <| setPrev_returns h _

/-! ## On the block list -/

/-- The heap's addresses. -/
def InHeap (x : Nat) : Prop := heapStartAddr ≤ x ∧ x < heapStartAddr + heapInitialSize

theorem headerIn (h : 0xD0000000 ≤ a) (h' : a + 20 ≤ 0xD0100000) : HeaderIn InHeap a :=
  fun k hk => ⟨show 0xD0000000 ≤ a + k by omega, show a + k < 0xD0100000 by omega⟩

theorem headerIn_mem (h : ListRep m bs) (hb : b ∈ bs) : HeaderIn InHeap b.addr := by
  have hbound := h.bounds hb
  exact headerIn hbound.1 (by omega)

/-- The link out of a block. -/
theorem linkIn_head (h : ListRep m bs) (hys : ∀ e ∈ ys, e ∈ bs) :
    LinkIn InHeap (headOr Block.addr 0 ys) := by
  cases ys with
  | nil => exact fun hne => absurd rfl hne
  | cons e es => exact fun _ => headerIn_mem h (hys e (List.mem_cons_self ..))

/-- The link back from a block. -/
theorem linkIn_last (h : ListRep m bs) (hxs : ∀ e ∈ xs, e ∈ bs) :
    LinkIn InHeap (lastOr Block.addr 0 xs) := by
  rcases List.eq_nil_or_concat' xs with rfl | ⟨init, e, rfl⟩
  · exact fun hne => absurd rfl hne
  · intro _
    rw [lastOr_concat]
    exact headerIn_mem h (hxs e (by simp))

/-! ## `kmalloc` -/

theorem kmallocSplit_returns (h : ListRep m (xs ++ c :: ys)) {r : Nat}
    (hbig : r + 24 < c.size) (hok : PyramidHeap.kmallocSplit m c.addr r = .ok m') :
    (kmallocSplit c.addr r).Returns InHeap m () m' := by
  have hc : c ∈ xs ++ c :: ys := by simp
  have hbound := h.bounds hc
  have hcin := headerIn_mem h hc
  obtain ⟨-, hfc, -⟩ := seg_at.mp h.linked
  obtain ⟨nb, hnb⟩ : ∃ nb, nb = c.addr + 20 + r := ⟨_, rfl⟩
  have hnb32 : u32 (c.addr + sizeofHeapHeader + r) = nb := by
    rw [sizeofHeapHeader, hnb]
    exact u32_of_lt (by omega)
  have hend : ¬ nb ≥ u32 (heapStartAddr + heapInitialSize) := by
    rw [show u32 (heapStartAddr + heapInitialSize) = 0xD0100000 from rfl]
    omega
  have hnbin : HeaderIn InHeap nb := headerIn (by omega) (by omega)
  rw [PyramidHeap.kmallocSplit] at hok
  rw [hnb32, if_neg hend] at hok
  rw [kmallocSplit]
  rw [hnb32, if_neg hend, ← Except.ok.inj hok]
  -- the link out of `c` while the new header is written
  have hnext : ∀ {m1 : Mem}, WritesIn (InHeader nb) m m1 →
      LinkIn InHeap (headerNext m1 c.addr) := by
    intro m1 hw
    have hsame : headerNext m1 c.addr = headOr Block.addr 0 ys :=
      (Fields.frame hfc hw fun x hx => hnb ▸ h.payload_off_headers (by omega) c hc x hx).next
    rw [hsame]
    exact linkIn_head h fun e he => by simp [he]
  refine (getSize_returns hcin).bind <| (setSize_returns hnbin _).bind <|
    (setIsFree_returns hnbin 1).bind <| (setMagic_returns hnbin _).bind <|
    (getNext_returns hcin).bind <| (setNext_returns hnbin _).bind <|
    (setPrev_returns hnbin _).bind <| (relinkNext_returns hcin (hnext ?_) nb).bind <|
    (setNext_returns hcin _).bind <| setSize_returns hcin r
  exact ((((PyramidHeap.writesIn_links (PyramidHeap.writesIn_setSize m _ _)).trans
    (PyramidHeap.writesIn_flag _ _ _)).trans (PyramidHeap.writesIn_setMagic _ _ _)).trans
    (PyramidHeap.writesIn_links (PyramidHeap.writesIn_setNext _ _ _))).trans
    (PyramidHeap.writesIn_links (PyramidHeap.writesIn_setPrev _ _ _))

theorem kmallocTake_returns (h : ListRep m (xs ++ c :: ys)) {r ptr : Nat} (hr : 0 < r)
    (hr4 : r % 4 = 0) (hfit : r ≤ c.size)
    (hok : PyramidHeap.kmallocTake m c.addr r = .ok (ptr, m')) :
    (kmallocTake c.addr r).Returns InHeap m ptr m' := by
  have hc : c ∈ xs ++ c :: ys := by simp
  have hbound := h.bounds hc
  have hcin := headerIn_mem h hc
  have hfc := (seg_at.mp h.linked).2.1
  have hsize : headerSize m c.addr = c.size := hfc.size
  have hlimit : u32 (r + sizeofHeapHeader + 4) = r + 20 + 4 := u32_of_lt (by
    rw [sizeofHeapHeader]
    omega)
  rw [PyramidHeap.kmallocTake] at hok
  refine (getSize_returns hcin).bind ?_
  rw [hsize, hlimit] at hok ⊢
  by_cases hbig : c.size > r + 20 + 4
  · rw [if_pos hbig] at hok ⊢
    obtain ⟨m1, hsplit, -⟩ := PyramidHeap.kmallocSplit_spec h hr hr4 hbig
    rw [hsplit] at hok
    obtain ⟨hptr, hmem⟩ := Prod.mk.inj (Except.ok.inj hok)
    rw [← hptr, ← hmem]
    exact (kmallocSplit_returns h hbig hsplit).bind <| (setIsFree_returns hcin 0).bind <|
      returns_pure _
  · rw [if_neg hbig] at hok ⊢
    obtain ⟨hptr, hmem⟩ := Prod.mk.inj (Except.ok.inj hok)
    rw [← hptr, ← hmem]
    exact (returns_pure ()).bind <| (setIsFree_returns hcin 0).bind <| returns_pure _

/-- `current->is_free && current->size >= size` at a block of the list. -/
theorem isFit_returns (hin : HeaderIn W c.addr) {p n : Nat} (hc : HeaderAt m c p n) (r : Nat) :
    (isFit c.addr r).Returns W m (PyramidHeap.fits r c) m := by
  refine (getIsFree_returns hin).bind ?_
  rw [hc.isFree, PyramidHeap.fits]
  cases c.free with
  | false => exact returns_pure _
  | true =>
      refine (getSize_returns hin).bind ?_
      rw [hc.size]
      exact returns_pure _

/-- The walk, by induction on the rest of the list. -/
theorem kmallocLoop_returns {r ptr : Nat} (hr : 0 < r) (hr4 : r % 4 = 0) :
    ∀ (bs zs : List Block) (p fuel : Nat), ListRep m (zs ++ bs) → bs.length < fuel →
      Seg Block.addr HeaderAt m p bs 0 →
      PyramidHeap.kmallocLoop m r fuel (headOr Block.addr 0 bs) = .ok (ptr, m') →
      (kmallocLoop r fuel (headOr Block.addr 0 bs)).Returns InHeap m ptr m' := by
  intro bs
  induction bs with
  | nil =>
      intro zs p fuel _ hfuel _ hok
      cases fuel with
      | zero => exact absurd hfuel (Nat.not_lt_zero _)
      | succ fuel =>
          obtain ⟨hptr, hmem⟩ := Prod.mk.inj (Except.ok.inj hok)
          rw [← hptr, ← hmem]
          exact returns_pure 0
  | cons b rest ih =>
      rintro zs p fuel hrep hfuel ⟨hb, hrest⟩ hok
      have hmem : b ∈ zs ++ b :: rest := by simp
      have hbound := hrep.bounds hmem
      have hin := headerIn_mem hrep hmem
      cases fuel with
      | zero => exact absurd hfuel (Nat.not_lt_zero _)
      | succ fuel =>
          have hmagic : headerMagic m b.addr = heapMagic := hb.magic
          have hnull : ¬ b.addr = 0 := by omega
          have hhead : headOr Block.addr 0 (b :: rest) = b.addr := rfl
          rw [hhead, PyramidHeap.kmallocLoop, if_neg hnull, if_neg (not_not.mpr hmagic),
            hb.isFree, hb.size, hb.next] at hok
          rw [hhead, kmallocLoop, if_neg hnull]
          refine (getMagic_returns hin).bind ?_
          rw [if_neg (not_not.mpr hmagic)]
          refine (isFit_returns hin hb r).bind ?_
          cases hfit : PyramidHeap.fits r b with
          | true =>
              obtain ⟨hfree, hle⟩ := Bool.and_eq_true_iff.mp hfit
              have hle' := of_decide_eq_true hle
              rw [if_pos ⟨by rw [hfree]; decide, hle'⟩] at hok
              exact kmallocTake_returns hrep hr hr4 hle' hok
          | false =>
              refine (getNext_returns hin).bind ?_
              rw [show headerNext m b.addr = _ from hb.next]
              rw [if_neg ?_] at hok
              · exact ih (zs ++ [b]) b.addr fuel (by simpa using hrep)
                  (Nat.lt_of_succ_lt_succ hfuel) hrest hok
              · rintro ⟨hfree, hle⟩
                cases hbf : b.free with
                | true =>
                    rw [PyramidHeap.fits, hbf, decide_eq_true hle] at hfit
                    exact absurd hfit (by decide)
                | false =>
                    rw [hbf] at hfree
                    exact hfree rfl

/-- **`kmalloc`** through loads and stores is the `kmalloc` of the flat heap, and stays in
    the heap. -/
theorem kmalloc_returns {h h' : Heap} (hrep : HeapRep h bs) {ptr : Nat}
    (hsize : size < 2 ^ 32) (hok : PyramidHeap.kmalloc h size = .ok (ptr, h')) :
    (kmalloc h.startHeader size).Returns InHeap h.mem ptr h'.mem := by
  have hstart : h.startHeader ≠ 0 := by
    rw [hrep.start, heapStartAddr]
    omega
  rw [PyramidHeap.kmalloc, if_neg hstart] at hok
  rw [kmalloc, if_neg hstart]
  by_cases hzero : size = 0
  · rw [if_pos hzero] at hok ⊢
    obtain ⟨hptr, hheap⟩ := Prod.mk.inj (Except.ok.inj hok)
    rw [← hptr, ← hheap]
    exact returns_pure 0
  rw [if_neg hzero] at hok ⊢
  by_cases hlarge : size > heapInitialSize - sizeofHeapHeader
  · rw [if_pos hlarge] at hok ⊢
    obtain ⟨hptr, hheap⟩ := Prod.mk.inj (Except.ok.inj hok)
    rw [← hptr, ← hheap]
    exact returns_pure 0
  rw [if_neg hlarge] at hok ⊢
  have hle : size ≤ 0xFFFEC := Nat.not_lt.mp hlarge
  have hround : (if size % 4 ≠ 0 then u32 (size + (4 - size % 4)) else size)
      = PyramidHeap.wordSize size := by
    rw [PyramidHeap.wordSize, u32_of_lt (by omega)]
    split <;> omega
  rw [hround] at hok ⊢
  simp only [] at hok ⊢
  cases hloop : PyramidHeap.kmallocLoop h.mem (PyramidHeap.wordSize size) (2 ^ 32)
      h.startHeader with
  | error e =>
      rw [hloop] at hok
      cases hok
  | ok r =>
      obtain ⟨ptr', m'⟩ := r
      rw [hloop] at hok
      obtain ⟨hptr, hheap⟩ := Prod.mk.inj (Except.ok.inj hok)
      rw [← hptr, ← hheap]
      rw [hrep.startHeader_eq] at hloop ⊢
      exact kmallocLoop_returns (show 0 < PyramidHeap.wordSize size by
          rw [PyramidHeap.wordSize]; omega)
        (show PyramidHeap.wordSize size % 4 = 0 by rw [PyramidHeap.wordSize]; omega)
        bs [] 0 (2 ^ 32) hrep.list hrep.length_lt hrep.list.linked hloop

/-! ## `kfree` -/

/-- Coalesce right: `c` absorbs the block after it if that one is free. -/
theorem kfreeRight_returns (h : ListRep m (xs ++ c :: ys)) :
    (kfreeRight c.addr).Returns InHeap m () (PyramidHeap.kfreeRight m c.addr) := by
  have hc : c ∈ xs ++ c :: ys := by simp
  have hcin := headerIn_mem h hc
  obtain ⟨-, hfc, -⟩ := seg_at.mp h.linked
  have hnext : headerNext m c.addr = headOr Block.addr 0 ys := hfc.next
  refine (getNext_returns hcin).bind ((isFreeBlock_returns ?_).bind ?_)
  · rw [hnext]
    exact linkIn_head h fun e he => by simp [he]
  rw [PyramidHeap.kfreeRight]
  by_cases hfree : headerNext m c.addr ≠ 0 ∧ headerIsFree m (headerNext m c.addr) ≠ 0
  · rw [decide_eq_true hfree, if_pos hfree, if_pos rfl]
    cases ys with
    | nil => exact absurd hnext hfree.1
    | cons d ds =>
        have hnext : headerNext m c.addr = d.addr := hnext
        have hdin := headerIn_mem h (show d ∈ xs ++ c :: d :: ds by simp)
        obtain ⟨m1, hm1⟩ : ∃ m1, m1 = PyramidHeap.setSize m c.addr (u32 (headerSize m c.addr
          + (sizeofHeapHeader + headerSize m d.addr))) := ⟨_, rfl⟩
        obtain ⟨m2, hm2⟩ : ∃ m2, m2 = PyramidHeap.setNext m1 c.addr (headerNext m1 d.addr) :=
          ⟨_, rfl⟩
        obtain ⟨hc1, hc2, -⟩ := h.absorb_steps hm1 hm2
        have hnext1 : headerNext m1 c.addr = d.addr := hc1.next
        have hnext2 : headerNext m2 c.addr = headOr Block.addr 0 ds := hc2.next
        have hlink : LinkIn InHeap (headerNext m2 c.addr) := by
          rw [hnext2]
          exact linkIn_head h fun e he => by simp [he]
        have hrelink := relinkNext_returns hcin hlink c.addr
        have hset := setSize_returns (m := m) hcin (u32 (headerSize m c.addr
          + (sizeofHeapHeader + headerSize m d.addr)))
        rw [← hm1] at hset
        have hout := setNext_returns (m := m1) hcin (headerNext m1 d.addr)
        rw [← hm2] at hout
        refine (getSize_returns hcin).bind ((getNext_returns hcin).bind ?_)
        simp only []
        rw [hnext, ← hm1, hnext1, ← hm2]
        refine (getSize_returns hdin).bind (hset.bind ((getNext_returns hcin).bind ?_))
        rw [hnext1]
        exact (getNext_returns hdin).bind (hout.bind hrelink)
  · rw [decide_eq_false hfree, if_neg hfree, if_neg Bool.false_ne_true]
    exact returns_pure ()

/-- Coalesce left: the block before `c` absorbs it if that one is free. -/
theorem kfreeLeft_returns (h : ListRep m (xs ++ c :: ys)) :
    (kfreeLeft c.addr).Returns InHeap m () (PyramidHeap.kfreeLeft m c.addr) := by
  have hc : c ∈ xs ++ c :: ys := by simp
  have hcin := headerIn_mem h hc
  obtain ⟨-, hfc, -⟩ := seg_at.mp h.linked
  have hprev : headerPrev m c.addr = lastOr Block.addr 0 xs := hfc.prev
  refine (getPrev_returns hcin).bind ((isFreeBlock_returns ?_).bind ?_)
  · rw [hprev]
    exact linkIn_last h fun e he => by simp [he]
  rw [PyramidHeap.kfreeLeft]
  by_cases hfree : headerPrev m c.addr ≠ 0 ∧ headerIsFree m (headerPrev m c.addr) ≠ 0
  · rw [decide_eq_true hfree, if_pos hfree, if_pos rfl]
    rcases List.eq_nil_or_concat' xs with rfl | ⟨init, b, rfl⟩
    · exact absurd hprev hfree.1
    · rw [lastOr_concat] at hprev
      have hbin := headerIn_mem h (show b ∈ init ++ [b] ++ c :: ys by simp)
      have hjoin : init ++ [b] ++ c :: ys = init ++ b :: c :: ys := List.append_assoc ..
      rw [hjoin] at h
      obtain ⟨m1, hm1⟩ : ∃ m1, m1 = PyramidHeap.setSize m b.addr (u32 (headerSize m b.addr
        + (sizeofHeapHeader + headerSize m c.addr))) := ⟨_, rfl⟩
      obtain ⟨m2, hm2⟩ : ∃ m2, m2 = PyramidHeap.setNext m1 b.addr (headerNext m1 c.addr) :=
        ⟨_, rfl⟩
      obtain ⟨-, -, hc1, hc2, -⟩ := h.absorb_steps hm1 hm2
      have hprev1 : headerPrev m1 c.addr = b.addr := hc1.prev
      have hprev2 : headerPrev m2 c.addr = b.addr := hc2.prev
      have hnext2 : headerNext m2 c.addr = headOr Block.addr 0 ys := hc2.next
      have hlink : LinkIn InHeap (headerNext m2 c.addr) := by
        rw [hnext2]
        exact linkIn_head h fun e he => by simp [he]
      have hrelink := relinkNext_returns hcin hlink b.addr
      have hset := setSize_returns (m := m) hbin (u32 (headerSize m b.addr
        + (sizeofHeapHeader + headerSize m c.addr)))
      rw [← hm1] at hset
      have hout := setNext_returns (m := m1) hbin (headerNext m1 c.addr)
      rw [← hm2] at hout
      simp only []
      rw [hprev, ← hm1, hprev1, ← hm2, hprev2]
      refine (getSize_returns hbin).bind ((getSize_returns hcin).bind (hset.bind
        ((getPrev_returns hcin).bind ((getNext_returns hcin).bind ?_))))
      rw [hprev1]
      refine hout.bind ((getPrev_returns hcin).bind ?_)
      rw [hprev2]
      exact hrelink
  · rw [decide_eq_false hfree, if_neg hfree, if_neg Bool.false_ne_true]
    exact returns_pure ()

/-- **`kfree`** of NULL or of a live pointer, likewise. -/
theorem kfree_returns (hi : HeapInv s bs) {ptr : Nat} (hvalid : s.ValidFree ptr) {h' : Heap}
    (hok : PyramidHeap.kfree s.heap ptr = .ok h') :
    (kfree s.heap.startHeader ptr).Returns InHeap s.heap.mem () h'.mem := by
  have hstart : s.heap.startHeader ≠ 0 := by
    rw [hi.rep.start, heapStartAddr]
    omega
  rw [PyramidHeap.kfree] at hok
  rw [kfree]
  rcases hvalid with hzero | ⟨size, hlive⟩
  · rw [if_pos hzero] at hok ⊢
    rw [← Except.ok.inj hok]
    exact returns_pure ()
  · obtain ⟨c, hc, hptr, -⟩ := hi.covers _ hlive
    have hptr : ptr = c.addr + 20 := hptr
    obtain ⟨hcm, hused⟩ := BlockTiling.mem_used.mp hc
    obtain ⟨xs, ys, rfl⟩ := List.append_of_mem hcm
    have hbound := hi.rep.list.bounds hcm
    have hcin := headerIn_mem hi.rep.list hcm
    obtain ⟨-, hfc, -⟩ := seg_at.mp hi.rep.list.linked
    have hheader : u32 (ptr + 2 ^ 32 - sizeofHeapHeader) = c.addr := by
      rw [u32, sizeofHeapHeader]
      omega
    have hmagic : headerMagic s.heap.mem c.addr = heapMagic := hfc.magic
    have hfree : headerIsFree s.heap.mem c.addr = 0 := by
      rw [hfc.isFree, hused]
      rfl
    rw [if_neg (by omega), if_neg hstart, hheader] at hok ⊢
    simp only [] at hok ⊢
    rw [if_neg (not_not.mpr hmagic), if_neg (not_not.mpr hfree)] at hok
    rw [← Except.ok.inj hok]
    refine (getMagic_returns hcin).bind ?_
    rw [if_neg (not_not.mpr hmagic)]
    refine (getIsFree_returns hcin).bind ?_
    rw [if_neg (not_not.mpr hfree)]
    -- the flag first, then the two joins, each on the list the one before it leaves
    have hflag : (1 : Byte) = if true then 1 else 0 := rfl
    obtain ⟨h1, -⟩ := hi.rep.list.withFlag true hflag
    obtain ⟨d, ys', h2, haddr, -⟩ :=
      PyramidHeap.kfreeRight_spec h1 hi.rep.coalesced.right.tail
    have haddr : d.addr = c.addr := haddr
    have hright := kfreeRight_returns h1
    have hleft := kfreeLeft_returns h2
    rw [haddr] at hleft
    exact (setIsFree_returns hcin 1).bind (hright.bind hleft)

end PyramidHeapProgram
