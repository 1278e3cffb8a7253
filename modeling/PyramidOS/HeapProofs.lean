import PyramidOS.VmmProofs

/-! # The kernel heap

    `heap.c`: a first-fit allocator over one doubly linked list of blocks.  The
    heap's pages are its own, so it gets a byte memory of its own here,
    addressed virtually and with arbitrary contents at the start; the fields of
    a `HeapHeader` are loads and stores in it. -/

namespace PyramidHeap

open ByteMem PyramidKernel PyramidVmm

/-- `HEAP_MAGIC`. -/
def heapMagic : Nat := 0xDEADBEEF

/-- `HEAP_START_ADDR`. -/
def heapStartAddr : Nat := 0xD0000000

/-- `HEAP_INITIAL_SIZE`. -/
def heapInitialSize : Nat := 0x100000

/-- `sizeof(HeapHeader)` on i386: `is_free` is padded to four bytes. -/
def sizeofHeapHeader : Nat := 20

/-! ## Header fields -/

/-- `header->size`. -/
def headerSize (m : Mem) (header : Nat) : Nat := m.load32 header

/-- `header->is_free`. -/
def headerIsFree (m : Mem) (header : Nat) : Nat := m.load8 (header + 4)

/-- `header->magic`. -/
def headerMagic (m : Mem) (header : Nat) : Nat := m.load32 (header + 8)

/-- `header->next`. -/
def headerNext (m : Mem) (header : Nat) : Nat := m.load32 (header + 12)

/-- `header->prev`. -/
def headerPrev (m : Mem) (header : Nat) : Nat := m.load32 (header + 16)

def setSize (m : Mem) (header v : Nat) : Mem := m.store32 header v

def setIsFree (m : Mem) (header : Nat) (v : Byte) : Mem := m.store8 (header + 4) v

def setMagic (m : Mem) (header v : Nat) : Mem := m.store32 (header + 8) v

def setNext (m : Mem) (header v : Nat) : Mem := m.store32 (header + 12) v

def setPrev (m : Mem) (header v : Nat) : Mem := m.store32 (header + 16) v

/-! ## Initialisation -/

/-- The heap: the bytes it manages and `start_header`. -/
structure Heap where
  mem : Mem
  startHeader : Nat

/-- The `while (current_addr < end_addr)` loop of `heap_init`. -/
def heapMapLoop (endAddr : Nat) : Nat → Vmm → Nat → Except Halt Vmm
  | 0, _, _ => .error .diverges
  | fuel + 1, s, currentAddr =>
      if currentAddr < endAddr then do
        let (mapped, s) ← vmmAllocPage s currentAddr
        if mapped = 0 then
          .error (.panic "HEAP: vmm_alloc_page failed during heap_init()")
        else heapMapLoop endAddr fuel s (u32 (currentAddr + 4096))
      else .ok s

/-- The second half of `heap_init`: one free block over the whole range. -/
def heapFirstBlock (m : Mem) : Heap :=
  let m := setSize m heapStartAddr (heapInitialSize - sizeofHeapHeader)
  let m := setIsFree m heapStartAddr 1
  let m := setMagic m heapStartAddr heapMagic
  let m := setNext m heapStartAddr 0
  let m := setPrev m heapStartAddr 0
  { mem := m, startHeader := heapStartAddr }

/-- `heap_init`, on pages with the contents `m`.  A 32-bit address is advanced
    by a page at most 2^20 times before it repeats. -/
def heapInit (s : Vmm) (m : Mem) : Except Halt (Vmm × Heap) := do
  let s ← heapMapLoop (u32 (heapStartAddr + heapInitialSize)) (2 ^ 20) s heapStartAddr
  .ok (s, heapFirstBlock m)

/-- Whenever `heap_init` returns, it leaves the first block. -/
theorem heapInit_leaves {s s' : Vmm} {m : Mem} {h : Heap}
    (hok : heapInit s m = .ok (s', h)) : h = heapFirstBlock m := by
  rw [heapInit] at hok
  cases hloop : heapMapLoop (u32 (heapStartAddr + heapInitialSize)) (2 ^ 20) s
      heapStartAddr with
  | error e =>
      rw [hloop] at hok
      exact nomatch hok
  | ok s1 =>
      rw [hloop] at hok
      exact (Prod.mk.inj (Except.ok.inj hok)).2.symm

/-! ## Allocation -/

/-- Cutting a new free block off the end of `current`, in `kmalloc`. -/
def kmallocSplit (m : Mem) (current size : Nat) : Except Halt Mem :=
  let newBlock := u32 (current + sizeofHeapHeader + size)
  let heapEnd := u32 (heapStartAddr + heapInitialSize)
  if newBlock ≥ heapEnd then .error (.panic "HEAP: split block out of bounds")
  else
    let m := setSize m newBlock
      (u32 (headerSize m current + 2 ^ 33 - size - sizeofHeapHeader))
    let m := setIsFree m newBlock 1
    let m := setMagic m newBlock heapMagic
    let m := setNext m newBlock (headerNext m current)
    let m := setPrev m newBlock current
    let m := if headerNext m current ≠ 0 then setPrev m (headerNext m current) newBlock
      else m
    let m := setNext m current newBlock
    .ok (setSize m current size)

/-- What `kmalloc` does with the block it found. -/
def kmallocTake (m : Mem) (current size : Nat) : Except Halt (Nat × Mem) := do
  let m ← if headerSize m current > u32 (size + sizeofHeapHeader + 4) then
      kmallocSplit m current size
    else .ok m
  .ok (u32 (current + sizeofHeapHeader), setIsFree m current 0)

/-- The `while (current)` loop of `kmalloc`.  It changes no memory before it
    returns, so a walk of more than 2^32 headers never ends. -/
def kmallocLoop (m : Mem) (size : Nat) : Nat → Nat → Except Halt (Nat × Mem)
  | 0, _ => .error .diverges
  | fuel + 1, current =>
      if current = 0 then .ok (0, m)
      else if headerMagic m current ≠ heapMagic then
        .error (.panic "Heap Corruption Detected during Malloc!")
      else if headerIsFree m current ≠ 0 ∧ headerSize m current ≥ size then
        kmallocTake m current size
      else kmallocLoop m size fuel (headerNext m current)

/-- `kmalloc`: the pointer returned (0 for NULL) and the heap left. -/
def kmalloc (h : Heap) (size : Nat) : Except Halt (Nat × Heap) :=
  if h.startHeader = 0 then .error (.panic "HEAP: kmalloc called before heap_init()")
  else if size = 0 then .ok (0, h)
  else if size > heapInitialSize - sizeofHeapHeader then .ok (0, h)
  else
    let size := if size % 4 ≠ 0 then u32 (size + (4 - size % 4)) else size
    (kmallocLoop h.mem size (2 ^ 32) h.startHeader).map fun (p, m) =>
      (p, { h with mem := m })

/-! ## Freeing -/

/-- `kfree`, coalesce right. -/
def kfreeRight (m : Mem) (header : Nat) : Mem :=
  if headerNext m header ≠ 0 ∧ headerIsFree m (headerNext m header) ≠ 0 then
    let m := setSize m header (u32 (headerSize m header
      + (sizeofHeapHeader + headerSize m (headerNext m header))))
    let m := setNext m header (headerNext m (headerNext m header))
    if headerNext m header ≠ 0 then setPrev m (headerNext m header) header else m
  else m

/-- `kfree`, coalesce left. -/
def kfreeLeft (m : Mem) (header : Nat) : Mem :=
  if headerPrev m header ≠ 0 ∧ headerIsFree m (headerPrev m header) ≠ 0 then
    let m := setSize m (headerPrev m header) (u32 (headerSize m (headerPrev m header)
      + (sizeofHeapHeader + headerSize m header)))
    let m := setNext m (headerPrev m header) (headerNext m header)
    if headerNext m header ≠ 0 then
      setPrev m (headerNext m header) (headerPrev m header)
    else m
  else m

/-- `kfree`. -/
def kfree (h : Heap) (ptr : Nat) : Except Halt Heap :=
  if ptr = 0 then .ok h
  else if h.startHeader = 0 then .error (.panic "HEAP: kfree called before heap_init()")
  else
    let header := u32 (ptr + 2 ^ 32 - sizeofHeapHeader)
    if headerMagic h.mem header ≠ heapMagic then
      .error (.panic "Heap Corruption Detected during Free!")
    else if headerIsFree h.mem header ≠ 0 then
      .error (.panic "HEAP: Double free detected")
    else
      let m := setIsFree h.mem header 1
      let m := kfreeRight m header
      let m := kfreeLeft m header
      .ok { h with mem := m }

end PyramidHeap
