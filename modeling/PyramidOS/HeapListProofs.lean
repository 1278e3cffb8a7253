import PyramidOS.HeapProofs
import PyramidOS.BlockTilingProofs
import PyramidOS.LinkedSegProofs

/-! # The heap's block list

    What the bytes of the heap mean, and the three ways the allocator edits
    them:

    * `HeapRep h bs` — the headers in memory are the doubly linked list of the
      blocks `bs`, which tile the heap and are coalesced;
    * `ListRep.withFlag` — a free flag is flipped;
    * `seg_linkBack` — the link back from the next block is set;
    * `ListRep.absorb` — a block swallows the one after it. -/

namespace PyramidHeap

open ByteMem PyramidKernel BlockTiling LinkedSeg

variable {m m' : Mem} {a b c d : Block} {bs xs ys : List Block}
  {addr size p n v x : Nat} {free : Bool} {h : Heap}

/-! ## One header -/

/-- The bytes of the header at `a`. -/
def InHeader (a x : Nat) : Prop := a ≤ x ∧ x < a + 20

/-- The fields of the header at `addr`. -/
structure Fields (m : Mem) (addr size : Nat) (free : Bool) (prev next : Nat) : Prop where
  size : headerSize m addr = size
  isFree : headerIsFree m addr = if free then 1 else 0
  magic : headerMagic m addr = heapMagic
  next : headerNext m addr = next
  prev : headerPrev m addr = prev

/-- The header of block `b` in memory, between its neighbours. -/
def HeaderAt (m : Mem) (b : Block) (prev next : Nat) : Prop :=
  Fields m b.addr b.size b.free prev next

/-- The header at `a` is marked free. -/
structure MarkedFree (m : Mem) (a : Nat) : Prop where
  magic : headerMagic m a = heapMagic
  isFree : headerIsFree m a ≠ 0

/-- Stores away from the flag and the canary leave the mark. -/
theorem MarkedFree.frame {P : Nat → Prop} {a : Nat} (hmark : MarkedFree m a)
    (hw : WritesIn P m m') (hP : ∀ x, a + 4 ≤ x → x < a + 12 → ¬ P x) : MarkedFree m' a := by
  have hbyte : ∀ x, a + 4 ≤ x → x < a + 12 → m'.byte x = m.byte x :=
    fun x hlo hhi => hw.byte_eq (hP x hlo hhi)
  have hmagic : headerMagic m' a = headerMagic m a :=
    load32_congr fun x hlo hhi => hbyte x (by omega) (by omega)
  have hflag : headerIsFree m' a = headerIsFree m a :=
    load8_congr (hbyte (a + 4) (by omega) (by omega))
  constructor
  · exact hmagic.trans hmark.magic
  · rw [hflag]
    exact hmark.isFree

/-- A header is its own bytes only. -/
theorem Fields.frame {P : Nat → Prop} (h : Fields m addr size free p n)
    (hw : WritesIn P m m') (hP : ∀ x, InHeader addr x → ¬ P x) :
    Fields m' addr size free p n := by
  have hsame : ∀ i, i < 20 → m'.byte (addr + i) = m.byte (addr + i) := fun i hi =>
    hw.byte_eq (hP _ ⟨by omega, by omega⟩)
  have h32 : ∀ i, i + 4 ≤ 20 → m'.load32 (addr + i) = m.load32 (addr + i) := by
    intro i hi
    refine load32_congr fun x hx hx' => ?_
    obtain ⟨k, rfl⟩ := Nat.exists_eq_add_of_le hx
    rw [Nat.add_assoc]
    exact hsame _ (by omega)
  constructor
  · exact (h32 0 (by decide)).trans h.size
  · exact (load8_congr (hsame 4 (by decide))).trans h.isFree
  · exact (h32 8 (by decide)).trans h.magic
  · exact (h32 12 (by decide)).trans h.next
  · exact (h32 16 (by decide)).trans h.prev

theorem Fields.setSize (h : Fields m addr size free p n) (hv : v < 2 ^ 32) :
    Fields (setSize m addr v) addr v free p n := by
  constructor
  · exact (load32_store32_self m addr v).trans (Nat.mod_eq_of_lt hv)
  · exact (load8_store32_ne (by omega)).trans h.isFree
  · exact (load32_store32_ne (by omega)).trans h.magic
  · exact (load32_store32_ne (by omega)).trans h.next
  · exact (load32_store32_ne (by omega)).trans h.prev

theorem Fields.setIsFree (h : Fields m addr size free p n) (v : Bool) :
    Fields (setIsFree m addr (if v then 1 else 0)) addr size v p n := by
  constructor
  · exact (load32_store8_ne (by omega)).trans h.size
  · refine (load8_store8_self m (addr + 4) _).trans ?_
    cases v with
    | true => rfl
    | false => rfl
  · exact (load32_store8_ne (by omega)).trans h.magic
  · exact (load32_store8_ne (by omega)).trans h.next
  · exact (load32_store8_ne (by omega)).trans h.prev

theorem Fields.setNext (h : Fields m addr size free p n) (hv : v < 2 ^ 32) :
    Fields (setNext m addr v) addr size free p v := by
  constructor
  · exact (load32_store32_ne (by omega)).trans h.size
  · exact (load8_store32_ne (by omega)).trans h.isFree
  · exact (load32_store32_ne (by omega)).trans h.magic
  · exact (load32_store32_self m (addr + 12) v).trans (Nat.mod_eq_of_lt hv)
  · exact (load32_store32_ne (by omega)).trans h.prev

theorem Fields.setPrev (h : Fields m addr size free p n) (hv : v < 2 ^ 32) :
    Fields (setPrev m addr v) addr size free v n := by
  constructor
  · exact (load32_store32_ne (by omega)).trans h.size
  · exact (load8_store32_ne (by omega)).trans h.isFree
  · exact (load32_store32_ne (by omega)).trans h.magic
  · exact (load32_store32_ne (by omega)).trans h.next
  · exact (load32_store32_self m (addr + 16) v).trans (Nat.mod_eq_of_lt hv)

/-- A new header, written field by field. -/
theorem fields_fresh (m : Mem) (hsize : size < 2 ^ 32) (hp : p < 2 ^ 32) (hn : n < 2 ^ 32) :
    Fields (setPrev (setNext (setMagic (setIsFree (setSize m addr size) addr 1) addr
      heapMagic) addr n) addr p) addr size true p n := by
  constructor
  · refine (load32_store32_ne (by omega)).trans ((load32_store32_ne (by omega)).trans
      ((load32_store32_ne (by omega)).trans ((load32_store8_ne (by omega)).trans ?_)))
    exact (load32_store32_self m addr size).trans (Nat.mod_eq_of_lt hsize)
  · refine (load8_store32_ne (by omega)).trans ((load8_store32_ne (by omega)).trans
      ((load8_store32_ne (by omega)).trans ?_))
    exact load8_store8_self _ (addr + 4) 1
  · refine (load32_store32_ne (by omega)).trans ((load32_store32_ne (by omega)).trans ?_)
    exact (load32_store32_self _ (addr + 8) heapMagic).trans rfl
  · refine (load32_store32_ne (by omega)).trans ?_
    exact (load32_store32_self _ (addr + 12) n).trans (Nat.mod_eq_of_lt hn)
  · exact (load32_store32_self _ (addr + 16) p).trans (Nat.mod_eq_of_lt hp)

/-- The bytes of the header at `a` that hold its size and its links; the flag and
    the canary lie between. -/
def InLinks (a x : Nat) : Prop := InHeader a x ∧ ¬ (a + 4 ≤ x ∧ x < a + 12)

theorem writesIn_links (hw : WritesIn (InLinks addr) m m') : WritesIn (InHeader addr) m m' :=
  hw.mono fun _ hx => hx.1

theorem writesIn_setSize (m : Mem) (header v : Nat) :
    WritesIn (InLinks header) m (setSize m header v) :=
  (WritesIn.refl _ _).store32 v fun i hi => ⟨⟨by omega, by omega⟩, by omega⟩

theorem writesIn_setIsFree (m : Mem) (header : Nat) (v : Byte) :
    WritesIn (fun x => x = header + 4) m (setIsFree m header v) :=
  (WritesIn.refl _ _).store8 v rfl

theorem writesIn_flag (m : Mem) (header : Nat) (v : Byte) :
    WritesIn (InHeader header) m (setIsFree m header v) :=
  (writesIn_setIsFree m header v).mono fun x hx => ⟨by omega, by omega⟩

theorem writesIn_setMagic (m : Mem) (header v : Nat) :
    WritesIn (InHeader header) m (setMagic m header v) :=
  (WritesIn.refl _ _).store32 v fun i hi => ⟨by omega, by omega⟩

theorem writesIn_setNext (m : Mem) (header v : Nat) :
    WritesIn (InLinks header) m (setNext m header v) :=
  (WritesIn.refl _ _).store32 v fun i hi => ⟨⟨by omega, by omega⟩, by omega⟩

theorem writesIn_setPrev (m : Mem) (header v : Nat) :
    WritesIn (InLinks header) m (setPrev m header v) :=
  (WritesIn.refl _ _).store32 v fun i hi => ⟨⟨by omega, by omega⟩, by omega⟩

/-! ## The list -/

/-- The blocks `bs` in memory: linked, laid end to end over the heap, with
    payloads of whole words. -/
structure ListRep (m : Mem) (bs : List Block) : Prop where
  tiles : Tiles 20 heapStartAddr bs (heapStartAddr + heapInitialSize)
  linked : Seg Block.addr HeaderAt m 0 bs 0
  sizes : ∀ b ∈ bs, 0 < b.size ∧ b.size % 4 = 0

/-- **THE HEAP INVARIANT.** -/
structure HeapRep (h : Heap) (bs : List Block) : Prop where
  list : ListRep h.mem bs
  start : h.startHeader = heapStartAddr
  coalesced : Coalesced bs

/-- A byte of a header of the list. -/
def HeaderByte (bs : List Block) (x : Nat) : Prop := ∃ b ∈ bs, InHeader b.addr x

/-- A byte of a size or a link of the list. -/
def LinkByte (bs : List Block) (x : Nat) : Prop := ∃ b ∈ bs, InLinks b.addr x

theorem ListRep.bounds (h : ListRep m bs) (hb : b ∈ bs) :
    0xD0000000 ≤ b.addr ∧ b.addr + 20 + b.size ≤ 0xD0100000 := h.tiles.bounds hb

/-- A part of the list is in address order, and none of its blocks lies at NULL. -/
theorem ListRep.sublist (h : ListRep m bs) {ys : List Block} (hys : ys.Sublist bs) :
    ys.Pairwise (fun a b => a.addr + 20 + a.size ≤ b.addr) ∧ ∀ e ∈ ys, e.addr ≠ 0 := by
  refine ⟨h.tiles.sorted.sublist hys, fun e he => ?_⟩
  have hbound := h.bounds (hys.subset he)
  omega

/-- No block lies at NULL. -/
theorem HeapRep.pos (hrep : HeapRep h bs) : ∀ b ∈ bs, b.addr ≠ 0 :=
  (hrep.list.sublist (List.Sublist.refl bs)).2

/-- `start_header` points at the first block. -/
theorem HeapRep.startHeader_eq (hrep : HeapRep h bs) :
    h.startHeader = headOr Block.addr 0 bs := by
  rw [hrep.start]
  have htiles := hrep.list.tiles
  cases bs with
  | nil =>
      have hempty : heapStartAddr = heapStartAddr + heapInitialSize := htiles
      exact absurd hempty (by decide)
  | cons b rest => exact htiles.1.symm

/-- The heap has room for fewer than 2^32 headers. -/
theorem HeapRep.length_lt (hrep : HeapRep h bs) : bs.length < 2 ^ 32 := by
  have hle := hrep.list.tiles.length_le
  rw [heapInitialSize] at hle
  omega

/-- Headers of different blocks share no byte. -/
theorem ListRep.apart (h : ListRep m bs) (hb : b ∈ bs) (hc : c ∈ bs) (hne : b ≠ c)
    (hx : InHeader b.addr x) : ¬ InHeader c.addr x := by
  rintro ⟨h1, h2⟩
  obtain ⟨h3, h4⟩ := hx
  have happart := h.tiles.apart hb hc hne
  omega

/-- The flag and the canary of a block of the list are no links. -/
theorem ListRep.not_link (h : ListRep m bs) (hc : c ∈ bs) (hlo : c.addr + 4 ≤ x)
    (hhi : x < c.addr + 12) : ¬ LinkByte bs x := by
  rintro ⟨b, hb, hin, hout⟩
  by_cases hbc : b = c
  · rw [hbc] at hout
    exact hout ⟨hlo, hhi⟩
  · exact h.apart hb hc hbc hin ⟨by omega, by omega⟩

/-- The blocks around a block are other blocks. -/
theorem ListRep.ne_of_split (h : ListRep m (xs ++ c :: ys)) :
    (∀ b ∈ xs, b ≠ c) ∧ (∀ b ∈ ys, b ≠ c) ∧ ∀ a ∈ xs, ∀ b ∈ ys, a ≠ b := by
  obtain ⟨-, htail, hcross⟩ := List.pairwise_append.mp h.tiles.sorted
  refine ⟨fun b hb heq => ?_, fun b hb heq => ?_, fun a ha b hb heq => ?_⟩
  · have hle := hcross b hb c (List.mem_cons_self ..)
    rw [heq] at hle
    omega
  · have hle := (List.pairwise_cons.mp htail).1 b hb
    rw [heq] at hle
    omega
  · have hle := hcross a ha b (List.mem_cons_of_mem _ hb)
    rw [heq] at hle
    omega

/-- Nodes survive stores outside their headers. -/
theorem seg_frame {P : Nat → Prop} (h : Seg Block.addr HeaderAt m p bs n)
    (hw : WritesIn P m m') (hP : ∀ b ∈ bs, ∀ x, InHeader b.addr x → ¬ P x) :
    Seg Block.addr HeaderAt m' p bs n :=
  h.frame fun b hb _ _ hN => Fields.frame hN hw (hP b hb)

/-- The link back from the node at `n`, if there is one. -/
def linkBack (m : Mem) (n v : Nat) : Mem := if n ≠ 0 then setPrev m n v else m

/-- Pointing the first node of a segment back at `v`. -/
theorem seg_linkBack (h : Seg Block.addr HeaderAt m p ys 0)
    (hsorted : ys.Pairwise fun a b => a.addr + 20 + a.size ≤ b.addr)
    (hpos : ∀ b ∈ ys, b.addr ≠ 0) (hv : v < 2 ^ 32) :
    Seg Block.addr HeaderAt (linkBack m (headOr Block.addr 0 ys) v) v ys 0
    ∧ WritesIn (LinkByte ys) m (linkBack m (headOr Block.addr 0 ys) v) := by
  cases ys with
  | nil => exact ⟨trivial, WritesIn.refl _ _⟩
  | cons d ds =>
      have hlink : linkBack m (headOr Block.addr 0 (d :: ds)) v = setPrev m d.addr v :=
        if_pos (hpos d (List.mem_cons_self ..))
      have hw := writesIn_setPrev m d.addr v
      rw [hlink]
      refine ⟨⟨Fields.setPrev h.1 hv, seg_frame h.2 hw fun e he x hx hxd => ?_⟩,
        hw.mono fun x hx => ⟨d, List.mem_cons_self .., hx⟩⟩
      have hle := (List.pairwise_cons.mp hsorted).1 e he
      obtain ⟨h1, h2⟩ := hx
      obtain ⟨⟨h3, h4⟩, -⟩ := hxd
      omega

/-- **ABSORBING THE NEXT BLOCK**: the size, the link out and the link back, as
    both halves of `kfree` write them. -/
def absorbAt (m : Mem) (a b : Nat) : Mem :=
  let m := setSize m a (u32 (headerSize m a + (sizeofHeapHeader + headerSize m b)))
  let m := setNext m a (headerNext m b)
  linkBack m (headerNext m b) a

/-- The headers of `a` and `b` while `a` absorbs `b`, after the store of the size
    (`m1`) and after the store of the link out (`m2`). -/
theorem ListRep.absorb_steps {m1 m2 : Mem} (h : ListRep m (xs ++ a :: b :: ys))
    (hm1 : m1 = setSize m a.addr
      (u32 (headerSize m a.addr + (sizeofHeapHeader + headerSize m b.addr))))
    (hm2 : m2 = setNext m1 a.addr (headerNext m1 b.addr)) :
    HeaderAt m1 (a.absorb 20 b) (lastOr Block.addr 0 xs) b.addr
    ∧ HeaderAt m2 (a.absorb 20 b) (lastOr Block.addr 0 xs) (headOr Block.addr 0 ys)
    ∧ HeaderAt m1 b a.addr (headOr Block.addr 0 ys)
    ∧ HeaderAt m2 b a.addr (headOr Block.addr 0 ys)
    ∧ WritesIn (InLinks a.addr) m m2 := by
  have ha : a ∈ xs ++ a :: b :: ys := by simp
  have hb : b ∈ xs ++ a :: b :: ys := by simp
  have hba : b ≠ a := h.ne_of_split.2.1 b (List.mem_cons_self ..)
  have hboundA := h.bounds ha
  have hboundB := h.bounds hb
  obtain ⟨-, hfa, hfb, -⟩ := seg_at.mp h.linked
  have hsize : u32 (headerSize m a.addr + (sizeofHeapHeader + headerSize m b.addr))
      = a.size + (20 + b.size) := by
    rw [hfa.size, hfb.size, sizeofHeapHeader]
    exact u32_of_lt (by omega)
  have hw1 : WritesIn (InLinks a.addr) m m1 := hm1 ▸ writesIn_setSize m _ _
  have hw2 : WritesIn (InLinks a.addr) m m2 := hw1.trans (hm2 ▸ writesIn_setNext m1 _ _)
  have hfb1 : HeaderAt m1 b a.addr (headOr Block.addr 0 ys) :=
    Fields.frame hfb (writesIn_links hw1) fun x hx => h.apart hb ha hba hx
  have hfa1 : HeaderAt m1 (a.absorb 20 b) (lastOr Block.addr 0 xs) b.addr := by
    rw [hm1, hsize]
    exact Fields.setSize hfa (by omega)
  refine ⟨hfa1, ?_, hfb1,
    Fields.frame hfb (writesIn_links hw2) fun x hx => h.apart hb ha hba hx, hw2⟩
  have hnext : headerNext m1 b.addr = headOr Block.addr 0 ys := hfb1.next
  rw [hm2, ← hnext]
  exact Fields.setNext hfa1 (load32_lt _ _)

/-- The sizes of a list in which some blocks were replaced. -/
theorem ListRep.sizes_replace (zs zs' : List Block) (h : ListRep m (xs ++ (zs ++ ys)))
    (hzs : ∀ b ∈ zs', 0 < b.size ∧ b.size % 4 = 0) :
    ∀ b ∈ xs ++ (zs' ++ ys), 0 < b.size ∧ b.size % 4 = 0 := by
  intro b hb
  rcases List.mem_append.mp hb with hx | hzy
  · exact h.sizes b (List.mem_append_left _ hx)
  · rcases List.mem_append.mp hzy with hz | hy
    · exact hzs b hz
    · exact h.sizes b (by simp [hy])

theorem ListRep.absorb (h : ListRep m (xs ++ a :: b :: ys)) :
    ListRep (absorbAt m a.addr b.addr) (xs ++ a.absorb 20 b :: ys)
    ∧ WritesIn (LinkByte (xs ++ a :: b :: ys)) m (absorbAt m a.addr b.addr) := by
  have ha : a ∈ xs ++ a :: b :: ys := by simp
  have hb : b ∈ xs ++ a :: b :: ys := by simp
  have hy : ∀ e ∈ ys, e ∈ xs ++ a :: b :: ys := fun e he => by simp [he]
  obtain ⟨hxa, hya, hxy⟩ := h.ne_of_split
  have hboundA := h.bounds ha
  obtain ⟨hsegx, -, -, hsegy⟩ := seg_at.mp h.linked
  -- the size and the link out
  obtain ⟨m1, hm1⟩ : ∃ m1, m1 = setSize m a.addr
    (u32 (headerSize m a.addr + (sizeofHeapHeader + headerSize m b.addr))) := ⟨_, rfl⟩
  obtain ⟨m2, hm2⟩ : ∃ m2, m2 = setNext m1 a.addr (headerNext m1 b.addr) := ⟨_, rfl⟩
  obtain ⟨-, hfa2, -, hfb2, hw2⟩ := h.absorb_steps hm1 hm2
  have hsegx2 : Seg Block.addr HeaderAt m2 0 xs a.addr :=
    seg_frame hsegx (writesIn_links hw2) fun e he x hx =>
      h.apart (List.mem_append_left _ he) ha (hxa e he) hx
  have hsegy2 : Seg Block.addr HeaderAt m2 b.addr ys 0 :=
    seg_frame hsegy (writesIn_links hw2) fun e he x hx =>
      h.apart (hy e he) ha (hya e (List.mem_cons_of_mem _ he)) hx
  -- the link back
  obtain ⟨hsorted, hpos⟩ := h.sublist
    (((List.sublist_cons_self b ys).cons a).trans (List.sublist_append_right xs _))
  obtain ⟨hsegy3, hw3⟩ := seg_linkBack hsegy2 hsorted hpos (show a.addr < 2 ^ 32 by omega)
  have habsorb : absorbAt m a.addr b.addr = linkBack m2 (headOr Block.addr 0 ys) a.addr := by
    rw [absorbAt]
    rw [← hm1, ← hm2, hfb2.next]
  rw [habsorb]
  refine ⟨⟨h.tiles.absorb, seg_at.mpr ⟨?_, ?_, hsegy3⟩, ?_⟩, ?_⟩
  · refine seg_frame hsegx2 hw3 fun e he x hx hin => ?_
    obtain ⟨d, hd, hxd, -⟩ := hin
    exact h.apart (List.mem_append_left _ he) (hy d hd)
      (hxy e he d (List.mem_cons_of_mem _ hd)) hx hxd
  · refine Fields.frame hfa2 hw3 fun x hx hin => ?_
    obtain ⟨d, hd, hxd, -⟩ := hin
    exact h.apart ha (hy d hd) (Ne.symm (hya d (List.mem_cons_of_mem _ hd))) hx hxd
  · refine ListRep.sizes_replace [a, b] [a.absorb 20 b] h fun e he => ?_
    have h1 := h.sizes a ha
    have h2 := h.sizes b hb
    rw [List.mem_singleton.mp he]
    show 0 < a.size + (20 + b.size) ∧ (a.size + (20 + b.size)) % 4 = 0
    omega
  · refine (hw2.mono fun x hx => ⟨a, ha, hx⟩).trans (hw3.mono fun x hx => ?_)
    obtain ⟨d, hd, hxd⟩ := hx
    exact ⟨d, hy d hd, hxd⟩

/-- Changing the flag of a block in place. -/
theorem ListRep.withFlag {flag : Byte} (h : ListRep m (xs ++ c :: ys)) (v : Bool)
    (hflag : flag = if v then 1 else 0) :
    ListRep (setIsFree m c.addr flag) (xs ++ { c with free := v } :: ys)
    ∧ WritesIn (fun x => x = c.addr + 4) m (setIsFree m c.addr flag) := by
  have hc : c ∈ xs ++ c :: ys := by simp
  obtain ⟨hxc, hyc, -⟩ := h.ne_of_split
  obtain ⟨hsegx, hfc, hsegy⟩ := seg_at.mp h.linked
  have hw := writesIn_flag m c.addr flag
  have hfc' : HeaderAt (setIsFree m c.addr flag) { c with free := v }
      (lastOr Block.addr 0 xs) (headOr Block.addr 0 ys) := by
    rw [hflag]
    exact Fields.setIsFree hfc v
  refine ⟨⟨h.tiles.setFree v, seg_at.mpr ⟨?_, hfc', ?_⟩, ?_⟩,
    writesIn_setIsFree m c.addr flag⟩
  · exact seg_frame hsegx hw fun e he x hx =>
      h.apart (List.mem_append_left _ he) hc (hxc e he) hx
  · exact seg_frame hsegy hw fun e he x hx => h.apart (by simp [he]) hc (hyc e he) hx
  · refine ListRep.sizes_replace [c] [{ c with free := v }] h fun e he => ?_
    rw [List.mem_singleton.mp he]
    exact h.sizes c hc

/-- The header bytes, or the link bytes, of a list in which some blocks were replaced
    in place and the blocks after them thinned out. -/
theorem blockByte_replace {In : Nat → Nat → Prop} {ys' : List Block} (zs zs' : List Block)
    (hzs : ∀ b ∈ zs, ∃ b' ∈ zs', b'.addr = b.addr) (hys : ∀ b ∈ ys, b ∈ ys')
    (hx : ∃ b ∈ xs ++ (zs ++ ys), In b.addr x) :
    ∃ b ∈ xs ++ (zs' ++ ys'), In b.addr x := by
  obtain ⟨b, hb, hin⟩ := hx
  rcases List.mem_append.mp hb with hbx | hbzy
  · exact ⟨b, List.mem_append_left _ hbx, hin⟩
  · rcases List.mem_append.mp hbzy with hbz | hby
    · obtain ⟨b', hb', haddr⟩ := hzs b hbz
      exact ⟨b', by simp [hb'], haddr ▸ hin⟩
    · exact ⟨b, by simp [hys b hby], hin⟩

end PyramidHeap
