import PyramidOS.HeapListProofs

/-! # What `kfree` does to the list

    * `kfreeRight_spec`, `kfreeLeft_spec` — the two halves of the coalescing;
    * `kfree_spec` — THE HEADLINE: `kfree` of a used block leaves the other used
      blocks, joins what became neighbours, and reaches none of its panics. -/

namespace PyramidHeap

open ByteMem PyramidKernel BlockTiling LinkedSeg

variable {m : Mem} {c : Block} {bs xs ys : List Block}

/-- The right half of `kfree` joins a free successor to the block. -/
theorem kfreeRight_spec (h : ListRep m (xs ++ c :: ys)) (hy : Coalesced ys) :
    ∃ d ys', ListRep (kfreeRight m c.addr) (xs ++ d :: ys') ∧ d.addr = c.addr
      ∧ d.free = c.free ∧ Coalesced ys' ∧ (∀ e ∈ ys'.head?, e.free = false)
      ∧ used ys' = used ys ∧ (∀ e ∈ ys', e ∈ ys)
      ∧ WritesIn (LinkByte (xs ++ c :: ys)) m (kfreeRight m c.addr) := by
  obtain ⟨-, hfc, hsegy⟩ := seg_at.mp h.linked
  cases ys with
  | nil =>
      have hnone : kfreeRight m c.addr = m := if_neg fun hn => hn.1 hfc.next
      rw [hnone]
      exact ⟨c, [], h, rfl, rfl, hy, fun e he => (nomatch he), rfl, fun e he => he,
        WritesIn.refl _ _⟩
  | cons d ds =>
      obtain ⟨hfd, hsegds⟩ := hsegy
      have hbound := h.bounds (show d ∈ xs ++ c :: d :: ds by simp)
      have hnext : headerNext m c.addr = d.addr := hfc.next
      have hfree : headerIsFree m d.addr = if d.free then 1 else 0 := hfd.isFree
      cases hd : d.free with
      | false =>
          have hnone : kfreeRight m c.addr = m := by
            refine if_neg fun hn => hn.2 ?_
            rw [hnext, hfree, hd]
            rfl
          rw [hnone]
          refine ⟨c, d :: ds, h, rfl, rfl, hy, fun e he => ?_, rfl, fun e he => he,
            WritesIn.refl _ _⟩
          cases he
          exact hd
      | true =>
          -- the block after `d` is read through `c` here, and through `d` in
          -- `absorbAt`; both find the same
          have habsorb : kfreeRight m c.addr = absorbAt m c.addr d.addr := by
            obtain ⟨m1, hm1⟩ : ∃ m1, m1 = setSize m c.addr (u32 (headerSize m c.addr
              + (sizeofHeapHeader + headerSize m d.addr))) := ⟨_, rfl⟩
            obtain ⟨m2, hm2⟩ : ∃ m2, m2 = setNext m1 c.addr (headerNext m1 d.addr) := ⟨_, rfl⟩
            obtain ⟨hc1, hc2, -, hd2, -⟩ := h.absorb_steps hm1 hm2
            have hnext1 : headerNext m1 c.addr = d.addr := hc1.next
            have hnext2 : headerNext m2 c.addr = headerNext m2 d.addr :=
              hc2.next.trans hd2.next.symm
            have hcond : headerNext m c.addr ≠ 0
                ∧ headerIsFree m (headerNext m c.addr) ≠ 0 := by
              rw [hnext, hfree, hd]
              exact ⟨by omega, by decide⟩
            rw [kfreeRight, if_pos hcond]
            simp only [absorbAt, linkBack]
            rw [hnext, ← hm1, hnext1, ← hm2, hnext2]
          obtain ⟨hrep, hw⟩ := h.absorb
          rw [habsorb]
          exact ⟨c.absorb 20 d, ds, hrep, rfl, rfl, hy.tail, hy.head_used hd,
            (used_cons_free hd ds).symm, fun e he => List.mem_cons_of_mem _ he, hw⟩

/-- The left half of `kfree` joins the block to a free predecessor. -/
theorem kfreeLeft_spec (h : ListRep m (xs ++ c :: ys)) (hx : Coalesced xs) :
    ∃ xs' d, ListRep (kfreeLeft m c.addr) (xs' ++ d :: ys)
      ∧ (d.free = true ∨ d.free = c.free) ∧ Coalesced xs'
      ∧ (∀ e ∈ xs'.getLast?, e.free = false) ∧ used xs' = used xs
      ∧ (∀ e ∈ xs' ++ [d], ∃ e' ∈ xs ++ [c], e'.addr = e.addr)
      ∧ WritesIn (LinkByte (xs ++ c :: ys)) m (kfreeLeft m c.addr) := by
  obtain ⟨hsegx, hfc, -⟩ := seg_at.mp h.linked
  rcases List.eq_nil_or_concat' xs with hnil | ⟨init, a, hconcat⟩
  · subst hnil
    have hnone : kfreeLeft m c.addr = m := if_neg fun hn => hn.1 hfc.prev
    rw [hnone]
    exact ⟨[], c, h, Or.inr rfl, hx, fun e he => (nomatch he), rfl, fun e he => ⟨e, he, rfl⟩,
      WritesIn.refl _ _⟩
  · subst hconcat
    have hjoin : init ++ [a] ++ c :: ys = init ++ a :: c :: ys := List.append_assoc ..
    rw [hjoin] at h
    obtain ⟨-, hfa, hseg⟩ := seg_at.mp h.linked
    obtain ⟨hfc', -⟩ := hseg
    have hbound := h.bounds (show a ∈ init ++ a :: c :: ys by simp)
    have hprev : headerPrev m c.addr = a.addr := hfc'.prev
    have hfree : headerIsFree m a.addr = if a.free then 1 else 0 := hfa.isFree
    rw [hjoin]
    cases ha : a.free with
    | false =>
        have hnone : kfreeLeft m c.addr = m := by
          refine if_neg fun hn => hn.2 ?_
          rw [hprev, hfree, ha]
          rfl
        rw [hnone]
        refine ⟨init ++ [a], c, ?_, Or.inr rfl, hx, fun e he => ?_, rfl,
          fun e he => ⟨e, he, rfl⟩, WritesIn.refl _ _⟩
        · rw [hjoin]
          exact h
        · rw [List.getLast?_concat] at he
          cases he
          exact ha
    | true =>
        have habsorb : kfreeLeft m c.addr = absorbAt m a.addr c.addr := by
          obtain ⟨m1, hm1⟩ : ∃ m1, m1 = setSize m a.addr (u32 (headerSize m a.addr
            + (sizeofHeapHeader + headerSize m c.addr))) := ⟨_, rfl⟩
          obtain ⟨m2, hm2⟩ : ∃ m2, m2 = setNext m1 a.addr (headerNext m1 c.addr) := ⟨_, rfl⟩
          obtain ⟨-, -, hc1, hc2, -⟩ := h.absorb_steps hm1 hm2
          have hcond : headerPrev m c.addr ≠ 0
              ∧ headerIsFree m (headerPrev m c.addr) ≠ 0 := by
            rw [hprev, hfree, ha]
            exact ⟨by omega, by decide⟩
          rw [kfreeLeft, if_pos hcond]
          simp only [absorbAt, linkBack]
          rw [hprev, ← hm1, hc1.prev, ← hm2, hc2.prev]
        obtain ⟨hrep, hw⟩ := h.absorb
        rw [habsorb]
        refine ⟨init, a.absorb 20 c, hrep, Or.inl ha, hx.left, fun e he => ?_, ?_,
          fun e he => ?_, hw⟩
        · cases hfe : e.free with
          | false => rfl
          | true => exact absurd ⟨hfe, ha⟩ (hx.seam e he)
        · rw [used_append, used_cons_free ha]
          exact (List.append_nil _).symm
        · rcases List.mem_append.mp he with hinit | hlast
          · exact ⟨e, by simp [hinit], rfl⟩
          · rw [List.mem_singleton.mp hlast]
            exact ⟨a, by simp, rfl⟩

/-- **`kfree`** of a used block: it returns, the other used blocks stay, the heap
    is coalesced again, no header appears in a new place, its own header is marked free,
    and only the flag of the block and links of the list were written. -/
theorem kfree_spec {h : Heap} (hrep : HeapRep h bs) (hc : c ∈ bs) (hused : c.free = false) :
    ∃ m' bs', kfree h (c.addr + 20) = .ok { h with mem := m' }
      ∧ HeapRep { h with mem := m' } bs'
      ∧ used bs' = (used bs).filter (fun b => decide (b.addr ≠ c.addr))
      ∧ (∀ b ∈ bs', ∃ b' ∈ bs, b'.addr = b.addr)
      ∧ WritesIn (fun x => x = c.addr + 4 ∨ LinkByte bs x) h.mem m'
      ∧ MarkedFree m' c.addr := by
  obtain ⟨xs, ys, rfl⟩ := List.append_of_mem hc
  have hbound := hrep.list.bounds hc
  obtain ⟨hxc, hyc, -⟩ := hrep.list.ne_of_split
  obtain ⟨-, hfc, -⟩ := seg_at.mp hrep.list.linked
  -- mark free, then join right, then join left
  have hflag : (1 : Byte) = if true then 1 else 0 := rfl
  obtain ⟨h1, hw1⟩ := hrep.list.withFlag true hflag
  obtain ⟨d, ys', h2, hd, hdfree, hys', hhead, husedy, hsub, hw2⟩ :=
    kfreeRight_spec h1 hrep.coalesced.right.tail
  have haddr : d.addr = c.addr := hd
  dsimp only at h2 hw2
  obtain ⟨xs', e, h3, hefree, hxs', hlast, husedx, hplace, hw3⟩ :=
    kfreeLeft_spec h2 hrep.coalesced.left
  rw [haddr] at h3 hw3
  have hef : e.free = true := by
    rcases hefree with he | he
    · exact he
    · rw [he, hdfree]
  -- the links of the two lists in between are links of the first
  have hflagged : ∀ x, LinkByte (xs ++ { c with free := true } :: ys) x →
      LinkByte (xs ++ c :: ys) x := fun x =>
    blockByte_replace [{ c with free := true }] [c] (by simp) fun _ hb => hb
  have hjoined : ∀ x, LinkByte (xs ++ d :: ys') x → LinkByte (xs ++ c :: ys) x :=
    fun x => blockByte_replace [d] [c] (by simp [haddr]) hsub
  have hjoins : WritesIn (LinkByte (xs ++ c :: ys)) (setIsFree h.mem c.addr 1)
      (kfreeLeft (kfreeRight (setIsFree h.mem c.addr 1) c.addr) c.addr) :=
    (hw2.mono hflagged).trans (hw3.mono hjoined)
  refine ⟨kfreeLeft (kfreeRight (setIsFree h.mem c.addr 1) c.addr) c.addr,
    xs' ++ e :: ys', ?_, ⟨h3, hrep.start, ?_⟩, ?_, fun b hb => ?_, ?_, ?_⟩
  · have hptr : u32 (c.addr + 20 + 2 ^ 32 - sizeofHeapHeader) = c.addr := by
      rw [u32, sizeofHeapHeader]
      omega
    have hmagic : headerMagic h.mem c.addr = heapMagic := hfc.magic
    have hfree : headerIsFree h.mem c.addr = 0 := by
      rw [hfc.isFree, hused]
      rfl
    have hstart : h.startHeader ≠ 0 := by
      rw [hrep.start, heapStartAddr]
      omega
    rw [kfree, if_neg (by omega), if_neg hstart, hptr]
    simp only []
    rw [if_neg (not_not.mpr hmagic), if_neg (not_not.mpr hfree)]
  · refine Coalesced.insert hxs' hys' (fun a ha hboth => ?_) fun a ha hboth => ?_
    · rw [hlast a ha] at hboth
      exact Bool.false_ne_true hboth.1
    · rw [hhead a ha] at hboth
      exact Bool.false_ne_true hboth.2
  · rw [used_append, used_append, used_cons_free hef, used_cons_used hused, husedx, husedy,
      List.filter_append, List.filter_cons_of_neg (by simp)]
    have hkeep : ∀ {zs : List Block}, (∀ b ∈ zs, b ∈ xs ++ c :: ys ∧ b ≠ c) →
        (used zs).filter (fun b => decide (b.addr ≠ c.addr)) = used zs := by
      intro zs hzs
      refine List.filter_eq_self.mpr fun b hb => decide_eq_true fun haddr => ?_
      obtain ⟨hmem, hne⟩ := hzs b (mem_used.mp hb).1
      exact hne (hrep.list.tiles.eq_of_addr (by decide) hmem hc haddr)
    rw [hkeep fun b hb => ⟨List.mem_append_left _ hb, hxc b hb⟩,
      hkeep fun b hb => ⟨by simp [hb], hyc b hb⟩]
  · -- `b` stands left of the join or in it, or behind it
    rw [show xs' ++ e :: ys' = xs' ++ [e] ++ ys' by simp] at hb
    rcases List.mem_append.mp hb with hleft | hright
    · obtain ⟨b', hb', hsame⟩ := hplace b hleft
      rcases List.mem_append.mp hb' with hx | hd'
      · exact ⟨b', List.mem_append_left _ hx, hsame⟩
      · rw [List.mem_singleton.mp hd'] at hsame
        exact ⟨c, hc, haddr.symm.trans hsame⟩
    · exact ⟨b, by simp [hsub b hright], rfl⟩
  · exact (hw1.mono fun x hx => Or.inl hx).trans (hjoins.mono fun x hx => Or.inr hx)
  · -- the joins write links only, so the mark stays
    obtain ⟨-, hmarked, -⟩ := seg_at.mp h1.linked
    have hmark : MarkedFree (setIsFree h.mem c.addr 1) c.addr := by
      constructor
      · exact hmarked.magic
      · have hone : headerIsFree (setIsFree h.mem c.addr 1) c.addr = 1 := hmarked.isFree
        rw [hone]
        decide
    exact hmark.frame hjoins fun x => hrep.list.not_link hc

end PyramidHeap
