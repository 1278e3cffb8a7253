import PyramidOS.HeapKmallocProofs
import PyramidOS.HeapKfreeProofs
import PyramidOS.RunProofs

/-! # Runs of the heap

    Clients allocate, free what they hold, and write into what they hold.  Over
    all such runs from the block `heap_init` creates:

    * `heap_list_invariant` — the list in memory stays a coalesced tiling of the
      heap with intact links and canaries, and no panic is reached;
    * `heap_client_safety` — what a client holds overlaps no header and nothing
      another client holds, and the allocator never writes into it.

    Both are read off `HeapInv`: the block list is represented in memory, and
    its used blocks are what the clients hold. -/

namespace PyramidHeap

open ByteMem PyramidKernel BlockTiling LinkedSeg LabelledRun

variable {m : Mem} {h h' : Heap} {b c : Block} {bs xs ys : List Block} {p : Nat}

/-! ## The list as it stands in memory -/

/-- The headers met from `a` on by following `next`, at most `fuel` of them. -/
def headersFrom (m : Mem) : Nat → Nat → List Nat
  | 0, _ => []
  | fuel + 1, a => if a = 0 then [] else a :: headersFrom m fuel (headerNext m a)

/-- The block list, from `start_header`. -/
def Heap.headers (h : Heap) : List Nat := headersFrom h.mem (2 ^ 32) h.startHeader

/-- Following `next` from `a` visits the headers `as` and then reaches NULL. -/
def NextChain (m : Mem) : Nat → List Nat → Prop
  | a, [] => a = 0
  | a, b :: rest => a = b ∧ a ≠ 0 ∧ NextChain m (headerNext m a) rest

/-- The extents `[a, a + 20 + size)` of the headers `as` are laid end to end
    from `lo` to `hi`. -/
def Contiguous (m : Mem) : Nat → List Nat → Nat → Prop
  | lo, [], hi => lo = hi
  | lo, a :: rest, hi => a = lo ∧ Contiguous m (a + 20 + headerSize m a) rest hi

/-- **THE LIST INVARIANT**, read off the bytes of the heap. -/
structure HeapListInv (h : Heap) : Prop where
  walk : NextChain h.mem h.startHeader h.headers
  increasing : h.headers.Pairwise (· < ·)
  tiles : Contiguous h.mem 0xD0000000 h.headers 0xD0100000
  startPrev : headerPrev h.mem h.startHeader = 0
  nextPrev : ∀ a ∈ h.headers, headerNext h.mem a ≠ 0 →
    headerNext h.mem a ∈ h.headers ∧ headerPrev h.mem (headerNext h.mem a) = a
  prevNext : ∀ a ∈ h.headers, headerPrev h.mem a ≠ 0 →
    headerPrev h.mem a ∈ h.headers ∧ headerNext h.mem (headerPrev h.mem a) = a
  sizes : ∀ a ∈ h.headers, 0 < headerSize h.mem a ∧ headerSize h.mem a % 4 = 0
  magic : ∀ a ∈ h.headers, headerMagic h.mem a = heapMagic
  coalesced : h.headers.IsChain fun a b =>
    ¬ (headerIsFree h.mem a ≠ 0 ∧ headerIsFree h.mem b ≠ 0)

theorem seg_nextChain (hseg : Seg Block.addr HeaderAt m p bs 0)
    (hpos : ∀ b ∈ bs, b.addr ≠ 0) :
    NextChain m (headOr Block.addr 0 bs) (bs.map Block.addr) := by
  induction bs generalizing p with
  | nil => rfl
  | cons b rest ih =>
      obtain ⟨hb, hrest⟩ := hseg
      refine ⟨rfl, hpos b (List.mem_cons_self ..), ?_⟩
      show NextChain m (headerNext m b.addr) (rest.map Block.addr)
      rw [hb.next]
      exact ih hrest fun e he => hpos e (List.mem_cons_of_mem _ he)

/-- With enough fuel the walk visits the chain. -/
theorem headersFrom_eq {as : List Nat} :
    ∀ {a fuel : Nat}, NextChain m a as → as.length < fuel → headersFrom m fuel a = as := by
  induction as with
  | nil =>
      intro a fuel hchain hfuel
      cases fuel with
      | zero => exact absurd hfuel (Nat.not_lt_zero _)
      | succ fuel => exact if_pos hchain
  | cons b rest ih =>
      rintro a fuel ⟨hab, hpos, hrest⟩ hfuel
      cases fuel with
      | zero => exact absurd hfuel (Nat.not_lt_zero _)
      | succ fuel =>
          rw [headersFrom, if_neg hpos, ih hrest (Nat.lt_of_succ_lt_succ hfuel), hab]

theorem seg_contiguous {lo hi : Nat} (hseg : Seg Block.addr HeaderAt m p bs 0)
    (ht : Tiles 20 lo bs hi) : Contiguous m lo (bs.map Block.addr) hi := by
  induction bs generalizing p lo with
  | nil => exact ht
  | cons b rest ih =>
      obtain ⟨hb, hrest⟩ := hseg
      obtain ⟨haddr, htrest⟩ := ht
      refine ⟨haddr, ?_⟩
      rw [hb.size]
      exact ih hrest htrest

theorem HeapRep.walk (hrep : HeapRep h bs) :
    NextChain h.mem h.startHeader (bs.map Block.addr) := by
  rw [hrep.startHeader_eq]
  exact seg_nextChain hrep.list.linked hrep.pos

theorem HeapRep.headers_eq (hrep : HeapRep h bs) : h.headers = bs.map Block.addr := by
  refine headersFrom_eq hrep.walk ?_
  rw [List.length_map]
  exact hrep.length_lt

/-- The header of a listed block, between its neighbours. -/
theorem HeapRep.headerAt (hrep : HeapRep h (xs ++ c :: ys)) :
    HeaderAt h.mem c (lastOr Block.addr 0 xs) (headOr Block.addr 0 ys) :=
  (seg_at.mp hrep.list.linked).2.1

theorem HeapRep.headerAt_mem (hrep : HeapRep h bs) (hb : b ∈ bs) :
    ∃ prev next, HeaderAt h.mem b prev next := by
  obtain ⟨xs, ys, rfl⟩ := List.append_of_mem hb
  exact ⟨_, _, hrep.headerAt⟩

/-- A represented heap has the list invariant. -/
theorem HeapRep.listInv (hrep : HeapRep h bs) : HeapListInv h := by
  have hheaders := hrep.headers_eq
  constructor
  · rw [hheaders]
    exact hrep.walk
  · rw [hheaders, List.pairwise_map]
    exact hrep.list.tiles.sorted.imp fun hle => by omega
  · rw [hheaders]
    exact seg_contiguous hrep.list.linked hrep.list.tiles
  · rw [hrep.startHeader_eq]
    have hlinked := hrep.list.linked
    cases bs with
    | nil =>
        have hempty : heapStartAddr = heapStartAddr + heapInitialSize := hrep.list.tiles
        exact absurd hempty (by decide)
    | cons b rest => exact hlinked.1.prev
  · intro a ha
    rw [hheaders] at ha ⊢
    obtain ⟨b, hb, rfl⟩ := List.mem_map.mp ha
    obtain ⟨xs, ys, rfl⟩ := List.append_of_mem hb
    rw [hrep.headerAt.next]
    cases ys with
    | nil => exact fun hne => absurd rfl hne
    | cons d ds =>
        intro _
        refine ⟨List.mem_map.mpr ⟨d, by simp, rfl⟩, ?_⟩
        have hd := (seg_at.mp hrep.list.linked).2.2
        exact hd.1.prev
  · intro a ha
    rw [hheaders] at ha ⊢
    obtain ⟨b, hb, rfl⟩ := List.mem_map.mp ha
    obtain ⟨xs, ys, rfl⟩ := List.append_of_mem hb
    rw [hrep.headerAt.prev]
    rcases List.eq_nil_or_concat' xs with rfl | ⟨init, e, rfl⟩
    · exact fun hne => absurd rfl hne
    · intro _
      rw [lastOr_concat]
      refine ⟨List.mem_map.mpr ⟨e, by simp, rfl⟩, ?_⟩
      rw [List.append_assoc] at hrep
      exact hrep.headerAt.next
  · intro a ha
    rw [hheaders] at ha
    obtain ⟨b, hb, rfl⟩ := List.mem_map.mp ha
    obtain ⟨prev, next, hheader⟩ := hrep.headerAt_mem hb
    rw [hheader.size]
    exact hrep.list.sizes b hb
  · intro a ha
    rw [hheaders] at ha
    obtain ⟨b, hb, rfl⟩ := List.mem_map.mp ha
    obtain ⟨prev, next, hheader⟩ := hrep.headerAt_mem hb
    exact hheader.magic
  · rw [hheaders, List.isChain_map]
    refine List.IsChain.imp_of_mem_imp (fun a b ha hb hab hboth => hab ?_) hrep.coalesced
    -- the flag in memory is the flag of the block
    have hflag : ∀ e ∈ bs, headerIsFree h.mem e.addr ≠ 0 → e.free = true := by
      intro e he hne
      obtain ⟨prev, next, hheader⟩ := hrep.headerAt_mem he
      rw [hheader.isFree] at hne
      by_contra hfree
      exact hne (if_neg hfree)
    exact ⟨hflag a ha hboth.1, hflag b hb hboth.2⟩

/-! ## Clients -/

/-- One action of the heap's clients. -/
inductive HeapOp where
  | kmalloc (size : UInt32)
  | kfree (ptr : UInt32)
  | write (addr : UInt32) (val : Byte)
deriving DecidableEq, Repr

/-- The heap and what its clients hold: each pointer `kmalloc` returned and that
    has not been freed since, with the size asked for. -/
structure HeapClient where
  heap : Heap
  live : List (Nat × Nat)

/-- NULL or a live pointer. -/
def HeapClient.ValidFree (s : HeapClient) (ptr : Nat) : Prop :=
  ptr = 0 ∨ ∃ size, (ptr, size) ∈ s.live

/-- Address `x` is one of the bytes asked for with `l`. -/
def InRange (l : Nat × Nat) (x : Nat) : Prop := l.1 ≤ x ∧ x < l.1 + l.2

theorem inRange_add {n k : Nat} (h : k < n) : InRange (p, n) (p + k) :=
  ⟨Nat.le_add_right p k, Nat.add_lt_add_left h p⟩

/-- The bytes of a word in an object. -/
theorem inRange_word {n : Nat} (off : Nat) (h : off + 4 ≤ n) :
    ∀ i, i < 4 → InRange (p, n) (p + off + i) := by
  intro i hi
  rw [Nat.add_assoc]
  exact inRange_add (Nat.lt_of_lt_of_le (Nat.add_lt_add_left hi off) h)

/-- What is held after `kmalloc(size)` returned `ptr`. -/
def liveAfter (live : List (Nat × Nat)) (ptr size : Nat) : List (Nat × Nat) :=
  if ptr = 0 then live else (ptr, size) :: live

/-- What is held after `kfree(ptr)`. -/
def liveWithout (live : List (Nat × Nat)) (ptr : Nat) : List (Nat × Nat) :=
  live.filter fun l => decide (l.1 ≠ ptr)

/-- A returning call, or a store into a live payload. -/
inductive HeapStep : HeapClient → HeapOp → HeapClient → Prop where
  | kmalloc {s : HeapClient} {size : UInt32} {ptr : Nat} {h' : Heap}
      (hok : kmalloc s.heap size.toNat = .ok (ptr, h')) :
      HeapStep s (.kmalloc size) ⟨h', liveAfter s.live ptr size.toNat⟩
  | kfree {s : HeapClient} {ptr : UInt32} {h' : Heap} (hvalid : s.ValidFree ptr.toNat)
      (hok : kfree s.heap ptr.toNat = .ok h') :
      HeapStep s (.kfree ptr) ⟨h', liveWithout s.live ptr.toNat⟩
  | write {s : HeapClient} {addr : UInt32} {val : Byte} {l : Nat × Nat}
      (hl : l ∈ s.live) (hin : InRange l addr.toNat) :
      HeapStep s (.write addr val)
        ⟨{ s.heap with mem := s.heap.mem.store8 addr.toNat val }, s.live⟩

/-- **THE INVARIANT OF A RUN**: the list is represented, its used blocks are what
    the clients hold, and no pointer is held twice. -/
structure HeapInv (s : HeapClient) (bs : List Block) : Prop where
  rep : HeapRep s.heap bs
  covers : ∀ l ∈ s.live, ∃ b ∈ used bs, l.1 = b.addr + 20 ∧ l.2 ≤ b.size
  owned : ∀ b ∈ used bs, ∃ size, (b.addr + 20, size) ∈ s.live
  nodup : (s.live.map Prod.fst).Nodup

variable {s t : HeapClient} {l : Nat × Nat} {ptr x : Nat}

/-- The payload of a live pointer meets no header. -/
theorem HeapInv.off_headers (hi : HeapInv s bs) (hl : l ∈ s.live) (hx : InRange l x) :
    ¬ HeaderByte bs x := by
  obtain ⟨b, hb, hptr, hsize⟩ := hi.covers l hl
  obtain ⟨hlo, hhi⟩ := hx
  rintro ⟨c, hc, hclo, hchi⟩
  by_cases hbc : b = c
  · rw [hbc] at hptr
    omega
  · have happart := hi.rep.list.tiles.apart (mem_used.mp hb).1 hc hbc
    omega

/-- Live pointers lie in the heap, past their headers. -/
theorem HeapInv.ptr_bounds (hi : HeapInv s bs) (hl : l ∈ s.live) :
    0xD0000000 < l.1 ∧ l.1 + l.2 ≤ 0xD0100000 := by
  obtain ⟨b, hb, hptr, hsize⟩ := hi.covers l hl
  have hbound := hi.rep.list.bounds (mem_used.mp hb).1
  omega

/-- The blocks around the one that was carved stay in use; it joins them. -/
theorem used_carve (xs ys : List Block) (r : Nat) (hc : c.free = true) :
    ∃ size, used (xs ++ (carve 20 4 r c ++ ys))
        = used xs ++ ⟨c.addr, size, false⟩ :: used ys
      ∧ (r ≤ c.size → r ≤ size) ∧ used (xs ++ c :: ys) = used xs ++ used ys := by
  rw [used_append, used_append, used_append, used_cons_free hc]
  by_cases hbig : r + 20 + 4 < c.size
  · refine ⟨r, ?_, fun _ => Nat.le_refl r, rfl⟩
    rw [carve, if_pos hbig]
    rfl
  · refine ⟨c.size, ?_, fun hle => hle, rfl⟩
    rw [carve, if_neg hbig]
    rfl

/-- **`kmalloc` IN A RUN**: it returns, keeps the invariant and the blocks in
    use, and writes only headers of the list it leaves. -/
theorem HeapInv.kmalloc (hi : HeapInv s bs) {size : Nat} (hsize : size < 2 ^ 32) :
    ∃ ptr h' bs', kmalloc s.heap size = .ok (ptr, h')
      ∧ HeapInv ⟨h', liveAfter s.live ptr size⟩ bs'
      ∧ (∀ b ∈ used bs, b ∈ used bs')
      ∧ WritesIn (HeaderByte bs') s.heap.mem h'.mem := by
  rcases kmalloc_spec hi.rep hsize with
    ⟨hok, -⟩ | ⟨xs, c, ys, m', rfl, hfree, hle, -, -, -, hok, hrep, hw⟩
  · refine ⟨0, s.heap, bs, hok, ?_, fun _ hb => hb, WritesIn.refl _ _⟩
    rw [liveAfter, if_pos rfl]
    exact hi
  · obtain ⟨taken, hused, hroom, hold⟩ := used_carve xs ys (wordSize size) hfree
    have hroom' := hroom hle
    rw [wordSize] at hroom'
    -- what was in use still is, and the block taken was not
    have hkeep : ∀ b, b ∈ used (xs ++ (carve 20 4 (wordSize size) c ++ ys))
        ↔ b = ⟨c.addr, taken, false⟩ ∨ b ∈ used (xs ++ c :: ys) := by
      intro b
      rw [hused, hold, List.mem_append, List.mem_append, List.mem_cons]
      tauto
    refine ⟨c.addr + 20, _, _, hok, ?_, fun b hb => (hkeep b).mpr (Or.inr hb), hw⟩
    rw [liveAfter, if_neg (by omega)]
    refine ⟨hrep, fun l hl => ?_, fun b hb => ?_, ?_⟩
    · rcases List.mem_cons.mp hl with heq | hmem
      · refine ⟨⟨c.addr, taken, false⟩, (hkeep _).mpr (Or.inl rfl), ?_, ?_⟩
        · rw [heq]
        · rw [heq]
          show size ≤ taken
          omega
      · obtain ⟨b, hb, hptr, hlsize⟩ := hi.covers l hmem
        exact ⟨b, (hkeep b).mpr (Or.inr hb), hptr, hlsize⟩
    · rcases (hkeep b).mp hb with heq | hmem
      · exact ⟨size, by rw [heq]; exact List.mem_cons_self ..⟩
      · obtain ⟨n, hn⟩ := hi.owned b hmem
        exact ⟨n, List.mem_cons_of_mem _ hn⟩
    · refine List.nodup_cons.mpr ⟨fun hmem => ?_, hi.nodup⟩
      obtain ⟨l, hl, hfst⟩ := List.mem_map.mp hmem
      obtain ⟨b, hb, hptr, -⟩ := hi.covers l hl
      obtain ⟨hbm, hbused⟩ := mem_used.mp hb
      have hbc : b = c := hi.rep.list.tiles.eq_of_addr (by decide) hbm (by simp)
        (by omega)
      rw [hbc, hfree] at hbused
      exact Bool.false_ne_true hbused.symm

/-- **`kfree` OF A LIVE POINTER** returns and keeps the invariant; no header appears in a
    new place, that of the block is marked free, and only the flag of the block and links
    of the list are written. -/
theorem kfree_live {size : Nat} (hi : HeapInv s bs) (hlive : (ptr, size) ∈ s.live) :
    ∃ c ∈ used bs, ptr = c.addr + 20 ∧ ∃ h' bs', kfree s.heap ptr = .ok h'
      ∧ HeapInv ⟨h', liveWithout s.live ptr⟩ bs'
      ∧ used bs' = (used bs).filter (fun b => decide (b.addr + 20 ≠ ptr))
      ∧ (∀ b ∈ bs', ∃ b' ∈ bs, b'.addr = b.addr)
      ∧ WritesIn (fun x => x = c.addr + 4 ∨ LinkByte bs x) s.heap.mem h'.mem
      ∧ MarkedFree h'.mem c.addr := by
  obtain ⟨c, hc, hptr, -⟩ := hi.covers _ hlive
  have hptr' : ptr = c.addr + 20 := hptr
  obtain ⟨hcm, hcused⟩ := mem_used.mp hc
  obtain ⟨m', bs', hok, hrep, hused, hplace, hw, hmark⟩ := kfree_spec hi.rep hcm hcused
  rw [← hptr'] at hok
  have hsame : used bs' = (used bs).filter (fun b => decide (b.addr + 20 ≠ ptr)) := by
    rw [hused]
    refine List.filter_congr fun b _ => decide_eq_decide.mpr ?_
    omega
  refine ⟨c, hc, hptr', _, bs', hok, ⟨hrep, fun l hl => ?_, fun b hb => ?_, ?_⟩, hsame,
    hplace, hw, hmark⟩
  · obtain ⟨hlm, hne⟩ := List.mem_filter.mp hl
    obtain ⟨b, hb, hlptr, hlsize⟩ := hi.covers l hlm
    have hne' := of_decide_eq_true hne
    refine ⟨b, ?_, hlptr, hlsize⟩
    rw [hsame]
    exact List.mem_filter.mpr ⟨hb, decide_eq_true (by omega)⟩
  · rw [hsame] at hb
    obtain ⟨hbm, hne⟩ := List.mem_filter.mp hb
    obtain ⟨n, hn⟩ := hi.owned b hbm
    exact ⟨n, List.mem_filter.mpr ⟨hn, decide_eq_true (of_decide_eq_true hne)⟩⟩
  · exact hi.nodup.sublist (List.filter_sublist.map Prod.fst)

/-- `kfree(NULL)` changes nothing. -/
theorem HeapInv.free_null (hi : HeapInv s bs) (hzero : ptr = 0) :
    kfree s.heap ptr = .ok s.heap ∧ liveWithout s.live ptr = s.live
      ∧ used bs = (used bs).filter (fun b => decide (b.addr + 20 ≠ ptr)) := by
  refine ⟨if_pos hzero, List.filter_eq_self.mpr fun l hl => decide_eq_true ?_,
    (List.filter_eq_self.mpr fun b _ => decide_eq_true ?_).symm⟩
  · have hbound := hi.ptr_bounds hl
    omega
  · omega

/-- **`kfree` IN A RUN**: freeing NULL or a live pointer returns, keeps the
    invariant, and writes only headers of the list it found. -/
theorem HeapInv.kfree (hi : HeapInv s bs) (hvalid : s.ValidFree ptr) :
    ∃ h' bs', kfree s.heap ptr = .ok h'
      ∧ HeapInv ⟨h', liveWithout s.live ptr⟩ bs'
      ∧ used bs' = (used bs).filter (fun b => decide (b.addr + 20 ≠ ptr))
      ∧ WritesIn (HeaderByte bs) s.heap.mem h'.mem := by
  rcases hvalid with hzero | ⟨size, hlive⟩
  · obtain ⟨hok, hall, hused⟩ := hi.free_null hzero
    refine ⟨s.heap, bs, hok, ?_, hused, WritesIn.refl _ _⟩
    rw [hall]
    exact hi
  · obtain ⟨c, hc, -, h', bs', hok, hi', hused, -, hw, -⟩ := kfree_live hi hlive
    refine ⟨h', bs', hok, hi', hused, hw.mono fun x hx => ?_⟩
    rcases hx with rfl | ⟨b, hb, hin, -⟩
    · exact ⟨c, (mem_used.mp hc).1, by omega, by omega⟩
    · exact ⟨b, hb, hin⟩

/-- Stores off the headers keep the invariant. -/
theorem HeapInv.stores {P : Nat → Prop} {m' : Mem} (hi : HeapInv s bs)
    (hw : WritesIn P s.heap.mem m') (hoff : ∀ x, P x → ¬ HeaderByte bs x) :
    HeapInv ⟨{ s.heap with mem := m' }, s.live⟩ bs := by
  have hlist := hi.rep.list
  refine ⟨⟨⟨hlist.tiles, ?_, hlist.sizes⟩, hi.rep.start, hi.rep.coalesced⟩, hi.covers,
    hi.owned, hi.nodup⟩
  exact seg_frame hlist.linked hw fun b hb y hy hP => hoff y hP ⟨b, hb, hy⟩

/-- A client's store into its payload keeps the invariant. -/
theorem HeapInv.write (hi : HeapInv s bs) (hl : l ∈ s.live) (hx : InRange l x) (val : Byte) :
    HeapInv ⟨{ s.heap with mem := s.heap.mem.store8 x val }, s.live⟩ bs := by
  refine hi.stores ((WritesIn.refl (fun y => y = x) _).store8 val rfl) ?_
  rintro y rfl
  exact hi.off_headers hl hx

theorem HeapInv.step {op : HeapOp} (hi : HeapInv s bs) (hst : HeapStep s op t) :
    ∃ bs', HeapInv t bs' := by
  cases hst with
  | kmalloc hok =>
      rename_i size ptr h'
      obtain ⟨ptr', h'', bs', hok', hinv, -⟩ := hi.kmalloc size.toNat_lt
      rw [hok] at hok'
      obtain ⟨hp, hh⟩ := Prod.mk.inj (Except.ok.inj hok')
      rw [hp, hh]
      exact ⟨bs', hinv⟩
  | kfree hvalid hok =>
      obtain ⟨h'', bs', hok', hinv, -⟩ := hi.kfree hvalid
      rw [hok] at hok'
      rw [Except.ok.inj hok']
      exact ⟨bs', hinv⟩
  | write hl hin => exact ⟨bs, hi.write hl hin _⟩

/-- The first block represents the heap `heap_init` leaves. -/
theorem heapFirstBlock_rep (m : Mem) :
    HeapRep (heapFirstBlock m) [⟨0xD0000000, 0xFFFEC, true⟩] := by
  refine ⟨⟨⟨rfl, rfl⟩, ⟨?_, trivial⟩, fun b hb => ?_⟩, rfl, List.isChain_singleton _⟩
  · exact fields_fresh m (by decide) (by decide) (by decide)
  · rw [List.mem_singleton.mp hb]
    decide

/-- Every state a run reaches has the invariant. -/
theorem heapInv_run {ops : List HeapOp}
    (hrun : Run HeapStep ⟨heapFirstBlock m, []⟩ ops s) : ∃ bs, HeapInv s bs := by
  have h0 : ∃ bs, HeapInv ⟨heapFirstBlock m, []⟩ bs :=
    ⟨_, heapFirstBlock_rep m, fun l hl => (nomatch hl), fun b hb => (nomatch hb),
      List.nodup_nil⟩
  refine hrun.invariant (I := fun s => ∃ bs, HeapInv s bs) h0 ?_
  rintro s' e t' ⟨bs, hi⟩ hst
  exact hi.step hst

/-! ## The list invariant -/

/-- **THE LIST INVARIANT**, over whole runs: in every state reached it holds,
    `kmalloc` of any size returns, and so does `kfree` of NULL or of a live
    pointer. -/
theorem heap_list_invariant (mem : Mem) (ops : List HeapOp) (s : HeapClient)
    (hrun : Run HeapStep ⟨heapFirstBlock mem, []⟩ ops s) :
    HeapListInv s.heap
    ∧ (∀ size : UInt32, ∃ ptr h', kmalloc s.heap size.toNat = .ok (ptr, h'))
    ∧ ∀ ptr : UInt32, s.ValidFree ptr.toNat → ∃ h', kfree s.heap ptr.toNat = .ok h' := by
  obtain ⟨bs, hi⟩ := heapInv_run hrun
  refine ⟨hi.rep.listInv, fun size => ?_, fun ptr hvalid => ?_⟩
  · obtain ⟨ptr, h', -, hok, -⟩ := hi.kmalloc size.toNat_lt
    exact ⟨ptr, h', hok⟩
  · obtain ⟨h', -, hok, -⟩ := hi.kfree hvalid
    exact ⟨h', hok⟩

/-- One allocation from the first block. -/
theorem heap_list_invariant_one :
    ∃ s, Run HeapStep ⟨heapFirstBlock ⟨fun _ => 0, []⟩, []⟩ [.kmalloc 10] s
      ∧ HeapListInv s.heap := by
  obtain ⟨-, hmalloc, -⟩ := heap_list_invariant ⟨fun _ => 0, []⟩ [] _ Run.nil
  obtain ⟨ptr, h', hok⟩ := hmalloc 10
  have hrun := Run.single (HeapStep.kmalloc hok)
  exact ⟨_, hrun, (heap_list_invariant _ _ _ hrun).1⟩

/-! ## Client safety -/

/-- `m'` comes from `m` without a store into the payload `l`. -/
def Spares (l : Nat × Nat) (m m' : Mem) : Prop := WritesIn (fun x => ¬ InRange l x) m m'

/-- **CLIENT SAFETY** of a state. -/
structure LiveSafe (s : HeapClient) : Prop where
  inside : ∀ l ∈ s.live, l.1 % 4 = 0 ∧ 0xD0000000 ≤ l.1 ∧ l.1 + l.2 ≤ 0xD0100000
  apart : s.live.Pairwise fun l k => ∀ x, InRange l x → ¬ InRange k x
  offHeaders : ∀ l ∈ s.live, ∀ a ∈ s.heap.headers, ∀ x, InRange l x → ¬ InHeader a x
  kmallocSpares : ∀ l ∈ s.live, ∀ size : UInt32, ∀ ptr h',
    kmalloc s.heap size.toNat = .ok (ptr, h') → Spares l s.heap.mem h'.mem
  kfreeSpares : ∀ l ∈ s.live, ∀ ptr : UInt32, s.ValidFree ptr.toNat → ptr.toNat ≠ l.1 →
    ∀ h', kfree s.heap ptr.toNat = .ok h' → Spares l s.heap.mem h'.mem

/-- Every block starts on a word. -/
theorem tiles_aligned {lo hi : Nat} (ht : Tiles 20 lo bs hi) (hlo : lo % 4 = 0)
    (hsizes : ∀ b ∈ bs, 0 < b.size ∧ b.size % 4 = 0) : ∀ b ∈ bs, b.addr % 4 = 0 := by
  induction bs generalizing lo with
  | nil => exact fun b hb => (nomatch hb)
  | cons c rest ih =>
      obtain ⟨haddr, hrest⟩ := ht
      have hc := hsizes c (List.mem_cons_self ..)
      intro b hb
      rcases List.mem_cons.mp hb with heq | hmem
      · rw [heq, haddr]
        exact hlo
      · exact ih hrest (by omega) (fun e he => hsizes e (List.mem_cons_of_mem _ he)) b hmem

theorem HeapInv.liveSafe (hi : HeapInv s bs) : LiveSafe s := by
  have htiles := hi.rep.list.tiles
  constructor
  · intro l hl
    obtain ⟨b, hb, hptr, hsize⟩ := hi.covers l hl
    have hbm := (mem_used.mp hb).1
    have hbound := hi.rep.list.bounds hbm
    have halign := tiles_aligned htiles (by decide) hi.rep.list.sizes b hbm
    omega
  · -- different pointers belong to different blocks
    have hne : s.live.Pairwise fun l k => l.1 ≠ k.1 := List.pairwise_map.mp hi.nodup
    refine hne.imp_of_mem fun {l k} hl hk hlk x hx hx' => ?_
    obtain ⟨b, hb, hptr, hsize⟩ := hi.covers l hl
    obtain ⟨c, hc, hptr', hsize'⟩ := hi.covers k hk
    have hbc : b ≠ c := fun heq => hlk (by rw [hptr, hptr', heq])
    have happart := htiles.apart (mem_used.mp hb).1 (mem_used.mp hc).1 hbc
    obtain ⟨h1, h2⟩ := hx
    obtain ⟨h3, h4⟩ := hx'
    omega
  · intro l hl a ha x hx hin
    rw [hi.rep.headers_eq] at ha
    obtain ⟨b, hb, rfl⟩ := List.mem_map.mp ha
    exact hi.off_headers hl hx ⟨b, hb, hin⟩
  · intro l hl size ptr h' hok
    obtain ⟨ptr', h'', bs', hok', hinv, -, hw⟩ := hi.kmalloc size.toNat_lt
    rw [hok] at hok'
    rw [(Prod.mk.inj (Except.ok.inj hok')).2]
    -- `l` is still live afterwards, so it is off the headers that were written
    have hl' : l ∈ liveAfter s.live ptr' size.toNat := by
      rw [liveAfter]
      split
      · exact hl
      · exact List.mem_cons_of_mem _ hl
    exact hw.mono fun x hx hin => hinv.off_headers hl' hin hx
  · intro l hl ptr hvalid _ h' hok
    obtain ⟨h'', bs', hok', -, -, hw⟩ := hi.kfree hvalid
    rw [hok] at hok'
    rw [Except.ok.inj hok']
    exact hw.mono fun x hx hin => hi.off_headers hl hin hx

/-- **CLIENT SAFETY**, over whole runs: what a client holds is aligned and inside
    the heap, overlaps neither a header nor what another client holds, and no
    call on another pointer stores into it. -/
theorem heap_client_safety (mem : Mem) (ops : List HeapOp) (s : HeapClient)
    (hrun : Run HeapStep ⟨heapFirstBlock mem, []⟩ ops s) : LiveSafe s := by
  obtain ⟨bs, hi⟩ := heapInv_run hrun
  exact hi.liveSafe

/-- One allocation from the first block. -/
theorem heap_client_safety_one :
    ∃ s, Run HeapStep ⟨heapFirstBlock ⟨fun _ => 0, []⟩, []⟩ [.kmalloc 10] s
      ∧ LiveSafe s := by
  obtain ⟨bs, hi⟩ := heapInv_run (m := ⟨fun _ => 0, []⟩) Run.nil
  obtain ⟨ptr, h', -, hok, -⟩ := hi.kmalloc (10 : UInt32).toNat_lt
  have hrun := Run.single (HeapStep.kmalloc hok)
  exact ⟨_, hrun, heap_client_safety _ _ _ hrun⟩

end PyramidHeap
