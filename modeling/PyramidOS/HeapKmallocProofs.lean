import PyramidOS.HeapListProofs

/-! # What `kmalloc` does to the list

    * `kmallocLoop_eq` — the loop finds the first block that fits;
    * `kmallocSplit_spec` — the split writes one new header and relinks its two
      neighbours;
    * `kmalloc_spec` — THE HEADLINE: `kmalloc` carves the first free block that is
      large enough, or changes nothing; no panic is reached. -/

namespace PyramidHeap

open ByteMem PyramidKernel BlockTiling LinkedSeg

variable {m : Mem} {c : Block} {bs xs ys : List Block}

/-- A header cut out of the payload of `c` is away from every header. -/
theorem ListRep.payload_off_headers (h : ListRep m (xs ++ c :: ys)) {r : Nat}
    (hbig : r + 20 ≤ c.size) :
    ∀ e ∈ xs ++ c :: ys, ∀ x, InHeader e.addr x → ¬ InHeader (c.addr + 20 + r) x := by
  rintro e he x ⟨h1, h2⟩ ⟨h3, h4⟩
  by_cases hec : e = c
  · rw [hec] at h1 h2
    omega
  · have happart := h.tiles.apart he (show c ∈ xs ++ c :: ys by simp) hec
    omega

/-- Cutting a block in two, with the first part still marked free. -/
theorem kmallocSplit_spec (h : ListRep m (xs ++ c :: ys)) {r : Nat} (hr : 0 < r)
    (hr4 : r % 4 = 0) (hbig : r + 24 < c.size) :
    ∃ m', kmallocSplit m c.addr r = .ok m'
      ∧ ListRep m' (xs ++ { c with size := r }
          :: ⟨c.addr + 20 + r, c.size - r - 20, true⟩ :: ys)
      ∧ WritesIn (HeaderByte (xs ++ { c with size := r }
          :: ⟨c.addr + 20 + r, c.size - r - 20, true⟩ :: ys)) m m' := by
  have hc : c ∈ xs ++ c :: ys := by simp
  have hy : ∀ e ∈ ys, e ∈ xs ++ c :: ys := fun e he => by simp [he]
  obtain ⟨hxc, hyc, hxy⟩ := h.ne_of_split
  have hbound := h.bounds hc
  obtain ⟨hsegx, hfc, hsegy⟩ := seg_at.mp h.linked
  obtain ⟨nb, hnb⟩ : ∃ nb, nb = c.addr + 20 + r := ⟨_, rfl⟩
  have hout : ∀ e ∈ xs ++ c :: ys, ∀ x, InHeader e.addr x → ¬ InHeader nb x := by
    rw [hnb]
    exact h.payload_off_headers (by omega)
  have hnext : headOr Block.addr 0 ys < 2 ^ 32 := by
    rw [← hfc.next]
    exact load32_lt _ _
  have hnb32 : u32 (c.addr + sizeofHeapHeader + r) = nb := by
    rw [sizeofHeapHeader, hnb]
    exact u32_of_lt (by omega)
  have hend : ¬ nb ≥ u32 (heapStartAddr + heapInitialSize) := by
    rw [show u32 (heapStartAddr + heapInitialSize) = 0xD0100000 from rfl]
    omega
  have hsize : u32 (headerSize m c.addr + 2 ^ 33 - r - sizeofHeapHeader) = c.size - r - 20 := by
    rw [hfc.size, sizeofHeapHeader, u32]
    omega
  -- the new header
  obtain ⟨m3, hm3⟩ : ∃ m3, m3 = setMagic (setIsFree (setSize m nb (c.size - r - 20)) nb 1) nb
    heapMagic := ⟨_, rfl⟩
  have hw3 : WritesIn (InHeader nb) m m3 := by
    rw [hm3]
    exact ((writesIn_links (writesIn_setSize m _ _)).trans (writesIn_flag _ _ _)).trans
      (writesIn_setMagic _ _ _)
  have hfc3 : headerNext m3 c.addr = headOr Block.addr 0 ys :=
    (Fields.frame hfc hw3 (hout c hc)).next
  obtain ⟨m5, hm5⟩ : ∃ m5, m5 = setPrev (setNext m3 nb (headOr Block.addr 0 ys)) nb c.addr :=
    ⟨_, rfl⟩
  have hw5 : WritesIn (InHeader nb) m m5 := by
    rw [hm5]
    exact (hw3.trans (writesIn_links (writesIn_setNext _ _ _))).trans
      (writesIn_links (writesIn_setPrev _ _ _))
  have hfn5 : Fields m5 nb (c.size - r - 20) true c.addr (headOr Block.addr 0 ys) := by
    rw [hm5, hm3]
    exact fields_fresh m (by omega) (by omega) hnext
  have hfc5 : HeaderAt m5 c (lastOr Block.addr 0 xs) (headOr Block.addr 0 ys) :=
    Fields.frame hfc hw5 (hout c hc)
  have hsegx5 : Seg Block.addr HeaderAt m5 0 xs c.addr :=
    seg_frame hsegx hw5 fun e he => hout e (List.mem_append_left _ he)
  have hsegy5 : Seg Block.addr HeaderAt m5 c.addr ys 0 :=
    seg_frame hsegy hw5 fun e he => hout e (hy e he)
  -- the link back to it
  obtain ⟨hsorted, hpos⟩ := h.sublist
    ((List.sublist_cons_self c ys).trans (List.sublist_append_right xs _))
  obtain ⟨hsegy6, hw6⟩ := seg_linkBack hsegy5 hsorted hpos (show nb < 2 ^ 32 by omega)
  obtain ⟨m6, hm6⟩ : ∃ m6, m6 = linkBack m5 (headOr Block.addr 0 ys) nb := ⟨_, rfl⟩
  rw [← hm6] at hsegy6 hw6
  have hfc6 : HeaderAt m6 c (lastOr Block.addr 0 xs) (headOr Block.addr 0 ys) := by
    refine Fields.frame hfc5 hw6 fun x hx hin => ?_
    obtain ⟨d, hd, hxd, -⟩ := hin
    exact h.apart hc (hy d hd) (Ne.symm (hyc d hd)) hx hxd
  have hfn6 : Fields m6 nb (c.size - r - 20) true c.addr (headOr Block.addr 0 ys) := by
    refine Fields.frame hfn5 hw6 fun x hx hin => ?_
    obtain ⟨d, hd, hxd, -⟩ := hin
    exact hout d (hy d hd) x hxd hx
  have hsegx6 : Seg Block.addr HeaderAt m6 0 xs c.addr := by
    refine seg_frame hsegx5 hw6 fun e he x hx hin => ?_
    obtain ⟨d, hd, hxd, -⟩ := hin
    exact h.apart (List.mem_append_left _ he) (hy d hd) (hxy e he d hd) hx hxd
  -- the link out and the new size of `c`
  obtain ⟨m8, hm8⟩ : ∃ m8, m8 = setSize (setNext m6 c.addr nb) c.addr r := ⟨_, rfl⟩
  have hw8 : WritesIn (InHeader c.addr) m6 m8 := by
    rw [hm8]
    exact writesIn_links ((writesIn_setNext _ _ _).trans (writesIn_setSize _ _ _))
  refine ⟨m8, ?_, ⟨?_, ?_, ?_⟩, ?_⟩
  · rw [kmallocSplit]
    simp only []
    rw [hnb32, if_neg hend, hsize, ← hm3, hfc3, ← hm5, hfc5.next, hm8, hm6]
    rfl
  · have htiles := h.tiles.carve 4 r
    rw [carve, if_pos (show r + 20 + 4 < c.size from hbig)] at htiles
    exact Tiles.setFree c.free htiles
  · rw [hnb] at hfn6 hm8
    refine seg_at.mpr ⟨?_, ?_, ?_, ?_⟩
    · exact seg_frame hsegx6 hw8 fun e he x hx =>
        h.apart (List.mem_append_left _ he) hc (hxc e he) hx
    · rw [hm8]
      exact (Fields.setNext hfc6 (by omega)).setSize (by omega)
    · exact Fields.frame hfn6 hw8 fun x hx hin => hout c hc x hin (hnb ▸ hx)
    · refine seg_frame (hnb ▸ hsegy6) hw8 fun e he x hx => ?_
      exact h.apart (hy e he) hc (hyc e he) hx
  · refine ListRep.sizes_replace [c] [{ c with size := r },
      ⟨c.addr + 20 + r, c.size - r - 20, true⟩] h fun e he => ?_
    have hc4 := (h.sizes c hc).2
    rcases List.mem_cons.mp he with heq | hmem
    · rw [heq]
      exact ⟨hr, hr4⟩
    · rw [List.mem_singleton.mp hmem]
      show 0 < c.size - r - 20 ∧ (c.size - r - 20) % 4 = 0
      omega
  · refine ((hw5.mono fun x hx => ?_).trans (hw6.mono fun x hx => ?_)).trans
      (hw8.mono fun x hx => ?_)
    · exact ⟨⟨c.addr + 20 + r, c.size - r - 20, true⟩, by simp, hnb ▸ hx⟩
    · obtain ⟨d, hd, hxd, -⟩ := hx
      exact ⟨d, by simp [hd], hxd⟩
    · exact ⟨{ c with size := r }, by simp, hx⟩

/-- Taking a free block: its first `r` bytes, or all of it. -/
theorem kmallocTake_spec (h : ListRep m (xs ++ c :: ys)) {r : Nat} (hr : 0 < r)
    (hr4 : r % 4 = 0) (hfit : r ≤ c.size) :
    ∃ m', kmallocTake m c.addr r = .ok (c.addr + 20, m')
      ∧ ListRep m' (xs ++ (carve 20 4 r c ++ ys))
      ∧ WritesIn (HeaderByte (xs ++ (carve 20 4 r c ++ ys))) m m' := by
  have hc : c ∈ xs ++ c :: ys := by simp
  have hbound := h.bounds hc
  have hfc := (seg_at.mp h.linked).2.1
  have hptr : u32 (c.addr + sizeofHeapHeader) = c.addr + 20 := u32_of_lt (by
    rw [sizeofHeapHeader]
    omega)
  have hlimit : u32 (r + sizeofHeapHeader + 4) = r + 20 + 4 := u32_of_lt (by
    rw [sizeofHeapHeader]
    omega)
  have hflag : (0 : Byte) = if false then 1 else 0 := rfl
  rw [kmallocTake, hfc.size, hlimit, hptr, carve]
  by_cases hbig : r + 20 + 4 < c.size
  · rw [if_pos hbig, if_pos hbig]
    obtain ⟨m1, hok, h1, hw1⟩ := kmallocSplit_spec h hr hr4 hbig
    obtain ⟨h2, -⟩ := h1.withFlag false hflag
    rw [hok]
    refine ⟨setIsFree m1 c.addr 0, rfl, h2, (hw1.mono fun x => ?_).trans
      ((writesIn_flag m1 c.addr 0).mono fun x hx => ⟨⟨c.addr, r, false⟩, by simp, hx⟩)⟩
    exact blockByte_replace [{ c with size := r }] [⟨c.addr, r, false⟩] (by simp)
      fun _ hb => hb
  · rw [if_neg hbig, if_neg hbig]
    obtain ⟨h2, -⟩ := h.withFlag false hflag
    exact ⟨setIsFree m c.addr 0, rfl, h2, (writesIn_flag m c.addr 0).mono fun x hx =>
      ⟨{ c with free := false }, by simp, hx⟩⟩

/-- Block `b` can serve a request of `r` bytes. -/
def fits (r : Nat) (b : Block) : Bool := b.free && decide (r ≤ b.size)

/-- The loop of `kmalloc` finds the first block that fits, or the end. -/
theorem kmallocLoop_eq (r : Nat) :
    ∀ (bs : List Block) (p fuel : Nat), bs.length < fuel → (∀ b ∈ bs, b.addr ≠ 0) →
      Seg Block.addr HeaderAt m p bs 0 →
      kmallocLoop m r fuel (headOr Block.addr 0 bs)
        = match bs.find? (fits r) with
          | none => .ok (0, m)
          | some c => kmallocTake m c.addr r := by
  intro bs
  induction bs with
  | nil =>
      intro p fuel hfuel _ _
      cases fuel with
      | zero => exact absurd hfuel (Nat.not_lt_zero _)
      | succ fuel => rfl
  | cons b rest ih =>
      rintro p fuel hfuel hpos ⟨hb, hrest⟩
      cases fuel with
      | zero => exact absurd hfuel (Nat.not_lt_zero _)
      | succ fuel =>
          show kmallocLoop m r (fuel + 1) b.addr = _
          have hmagic : headerMagic m b.addr = heapMagic := hb.magic
          rw [kmallocLoop, if_neg (hpos b (List.mem_cons_self ..)),
            if_neg (not_not.mpr hmagic), hb.isFree, hb.size, hb.next]
          cases hfit : fits r b with
          | true =>
              rw [List.find?_cons_of_pos hfit]
              obtain ⟨hfree, hle⟩ := Bool.and_eq_true_iff.mp hfit
              rw [if_pos hfree]
              exact if_pos ⟨by decide, of_decide_eq_true hle⟩
          | false =>
              rw [List.find?_cons_of_neg (by rw [hfit]; decide), if_neg ?_]
              · exact ih b.addr fuel (Nat.lt_of_succ_lt_succ hfuel)
                  (fun e he => hpos e (List.mem_cons_of_mem _ he)) hrest
              · rintro ⟨hfree, hle⟩
                cases hbf : b.free with
                | true =>
                    rw [fits, hbf, decide_eq_true hle] at hfit
                    exact absurd hfit (by decide)
                | false =>
                    rw [hbf] at hfree
                    exact hfree rfl

/-- Carving a free block of a coalesced list keeps it coalesced. -/
theorem coalesced_carve (r : Nat) (h : Coalesced (xs ++ c :: ys)) (hc : c.free = true) :
    Coalesced (xs ++ (carve 20 4 r c ++ ys)) := by
  have hused : ∀ {e : Block}, (∃ s, e = ⟨c.addr, s, false⟩) → ∀ {zs : List Block},
      Coalesced zs → Coalesced (xs ++ e :: zs) := by
    rintro e ⟨s, rfl⟩ zs hzs
    exact h.left.insert hzs (fun a _ hboth => Bool.false_ne_true hboth.2)
      fun d _ hboth => Bool.false_ne_true hboth.1
  rw [carve]
  by_cases hbig : r + 20 + 4 < c.size
  · rw [if_pos hbig]
    refine hused ⟨r, rfl⟩ (List.isChain_cons.mpr ⟨fun d hd hboth => ?_, h.right.tail⟩)
    rw [h.right.head_used hc d hd] at hboth
    exact Bool.false_ne_true hboth.2
  · rw [if_neg hbig]
    exact hused ⟨c.size, rfl⟩ h.right.tail

/-- The size `kmalloc` looks for: the request rounded up to whole words. -/
def wordSize (size : Nat) : Nat := (size + 3) / 4 * 4

/-- **`kmalloc`** returns.  It yields NULL and changes nothing when the request
    is 0, larger than the heap, or fits no free block; and else it carves the
    FIRST free block that is large enough, writing only headers of the new
    list. -/
theorem kmalloc_spec {h : Heap} (hrep : HeapRep h bs) {size : Nat} (hsize : size < 2 ^ 32) :
    (kmalloc h size = .ok (0, h)
      ∧ (size = 0 ∨ 0xFFFEC < size ∨ bs.find? (fits (wordSize size)) = none))
    ∨ ∃ xs c ys m', bs = xs ++ c :: ys ∧ c.free = true ∧ wordSize size ≤ c.size
      ∧ (∀ b ∈ xs, fits (wordSize size) b = false) ∧ 0 < size ∧ size ≤ 0xFFFEC
      ∧ kmalloc h size = .ok (c.addr + 20, { h with mem := m' })
      ∧ HeapRep { h with mem := m' } (xs ++ (carve 20 4 (wordSize size) c ++ ys))
      ∧ WritesIn (HeaderByte (xs ++ (carve 20 4 (wordSize size) c ++ ys))) h.mem m' := by
  have hstart : h.startHeader ≠ 0 := by
    rw [hrep.start, heapStartAddr]
    omega
  by_cases hzero : size = 0
  · refine Or.inl ⟨?_, Or.inl hzero⟩
    rw [kmalloc, if_neg hstart, if_pos hzero]
  by_cases hlarge : 0xFFFEC < size
  · refine Or.inl ⟨?_, Or.inr (Or.inl hlarge)⟩
    rw [kmalloc, if_neg hstart, if_neg hzero]
    exact if_pos hlarge
  have hround : (if size % 4 ≠ 0 then u32 (size + (4 - size % 4)) else size)
      = wordSize size := by
    rw [wordSize, u32_of_lt (by omega)]
    split <;> omega
  have hloop : ∀ res, kmallocLoop h.mem (wordSize size) (2 ^ 32) h.startHeader = res →
      kmalloc h size = res.map fun r => (r.1, { h with mem := r.2 }) := by
    intro res hres
    rw [kmalloc, if_neg hstart, if_neg hzero]
    refine (if_neg hlarge).trans ?_
    rw [hround]
    simp only []
    rw [hres]
  -- the walk starts at the head of the list and has fuel for all of it
  have hfound := kmallocLoop_eq (wordSize size) bs 0 (2 ^ 32) hrep.length_lt hrep.pos
    hrep.list.linked
  rw [← hrep.startHeader_eq] at hfound
  cases hfind : bs.find? (fits (wordSize size)) with
  | none =>
      refine Or.inl ⟨?_, Or.inr (Or.inr rfl)⟩
      rw [hfind] at hfound
      rw [hloop _ hfound]
      rfl
  | some c =>
      obtain ⟨hfit, xs, ys, rfl, hxs⟩ := List.find?_eq_some_iff_append.mp hfind
      obtain ⟨hfree, hle⟩ := Bool.and_eq_true_iff.mp hfit
      obtain ⟨m', hok, hrep', hw⟩ := kmallocTake_spec hrep.list
        (show 0 < wordSize size by rw [wordSize]; omega)
        (show wordSize size % 4 = 0 by rw [wordSize]; omega) (of_decide_eq_true hle)
      refine Or.inr ⟨xs, c, ys, m', rfl, hfree, of_decide_eq_true hle,
        fun b hb => Bool.not_eq_true' _ ▸ hxs b hb, by omega, by omega, ?_,
        ⟨hrep', hrep.start, coalesced_carve _ hrep.coalesced hfree⟩, hw⟩
      rw [hfind] at hfound
      rw [hloop _ (hfound.trans hok)]
      rfl

end PyramidHeap
