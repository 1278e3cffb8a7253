import PyramidOS.HeapRunProofs

/-! # Double frees are caught

    The check of `kfree` reads the header in front of the pointer, which may have
    left the list: a neighbour that was freed swallowed it.  Frees write sizes and
    links, and the flag of the block they free; so the flag and the canary of a dead
    header stay as they were, inside or outside of the list, until `kmalloc` writes
    again.

    * `Buried` — a dead header, away from all that frees and clients write;
    * `DeadHeader.step` — kept by every free and every store of a client;
    * `double_free_caught` — over whole runs without `kmalloc`. -/

namespace PyramidHeap

open ByteMem PyramidKernel BlockTiling LabelledRun

variable {m m' : Mem} {h : Heap} {b c : Block} {bs : List Block} {a p ptr size x : Nat}
  {s t : HeapClient}

/-- `kfree` with the heap as the call leaves it, also where it panics. -/
def kfreeLeaves (h : Heap) (ptr : Nat) : Except Halt Unit × Heap :=
  if ptr = 0 then (.ok (), h)
  else if h.startHeader = 0 then
    (.error (.panic "HEAP: kfree called before heap_init()"), h)
  else
    let header := u32 (ptr + 2 ^ 32 - sizeofHeapHeader)
    if headerMagic h.mem header ≠ heapMagic then
      (.error (.panic "Heap Corruption Detected during Free!"), h)
    else if headerIsFree h.mem header ≠ 0 then
      (.error (.panic "HEAP: Double free detected"), h)
    else
      let m := setIsFree h.mem header 1
      let m := kfreeRight m header
      let m := kfreeLeft m header
      (.ok (), { h with mem := m })

/-- It is `kfree`, which forgets the heap of a panic. -/
theorem kfreeLeaves_eq (h : Heap) (ptr : Nat) :
    kfree h ptr = (kfreeLeaves h ptr).1.map fun _ => (kfreeLeaves h ptr).2 := by
  rw [kfree, kfreeLeaves]
  split
  · rfl
  · split
    · rfl
    · simp only []
      split
      · rfl
      · split
        · rfl
        · rfl

/-! ## Dead headers -/

/-- Among the blocks `bs` there is no header across the one at `a`, and no used block
    reaches into it. -/
structure Buried (bs : List Block) (a : Nat) : Prop where
  headers : ∀ b ∈ bs, b.addr = a ∨ a + 20 ≤ b.addr ∨ b.addr + 20 ≤ a
  used : ∀ b ∈ used bs, a + 20 ≤ b.addr ∨ b.addr + 20 + b.size ≤ a

/-- The header of a block that was freed is buried. -/
theorem HeapInv.buried {bs' : List Block} (hi : HeapInv s bs) (hc : c ∈ used bs)
    (hused : used bs' = (used bs).filter (fun b => decide (b.addr + 20 ≠ c.addr + 20)))
    (hplace : ∀ b ∈ bs', ∃ b' ∈ bs, b'.addr = b.addr) : Buried bs' c.addr := by
  have htiles := hi.rep.list.tiles
  have hcm := (mem_used.mp hc).1
  constructor
  · intro b hb
    obtain ⟨b', hb', haddr⟩ := hplace b hb
    by_cases hbc : b' = c
    · exact Or.inl (by rw [← haddr, hbc])
    · have happart := htiles.apart hb' hcm hbc
      omega
  · intro b hb
    rw [hused] at hb
    obtain ⟨hbm, hne⟩ := List.mem_filter.mp hb
    have hbc : b ≠ c := fun heq => of_decide_eq_true hne (by rw [heq])
    have happart := htiles.apart (mem_used.mp hbm).1 hcm hbc
    omega

/-- Frees keep it buried: they move no header and take no block. -/
theorem Buried.mono {bs' : List Block} (hbur : Buried bs a)
    (hplace : ∀ b ∈ bs', ∃ b' ∈ bs, b'.addr = b.addr)
    (hused : ∀ b ∈ BlockTiling.used bs', b ∈ BlockTiling.used bs) : Buried bs' a := by
  constructor
  · intro b hb
    obtain ⟨b', hb', haddr⟩ := hplace b hb
    rw [← haddr]
    exact hbur.headers b' hb'
  · intro b hb
    exact hbur.used b (hused b hb)

/-- The free of another block writes neither the flag nor the canary. -/
theorem Buried.spared (hbur : Buried bs a) (hc : c ∈ BlockTiling.used bs) (hlo : a + 4 ≤ x)
    (hhi : x < a + 12) : ¬ (x = c.addr + 4 ∨ LinkByte bs x) := by
  rintro (rfl | ⟨b, hb, hin, hout⟩)
  · have happart := hbur.used c hc
    omega
  · obtain ⟨h1, h2⟩ := hin
    rcases hbur.headers b hb with rfl | happart
    · exact hout ⟨hlo, hhi⟩
    · omega

/-! ## Runs without `kmalloc` -/

/-- A free, or a store of a client. -/
def HeapOp.NoMalloc : HeapOp → Prop
  | .kmalloc _ => False
  | .kfree _ => True
  | .write _ _ => True

/-- A step other than `kmalloc`. -/
def QuietStep (s : HeapClient) (op : HeapOp) (t : HeapClient) : Prop :=
  op.NoMalloc ∧ HeapStep s op t

/-- What holds after the free: the heap is in order, and the header at `a` is dead. -/
def DeadHeader (a : Nat) (s : HeapClient) : Prop :=
  ∃ bs, HeapInv s bs ∧ MarkedFree s.heap.mem a ∧ Buried bs a

/-- **ONE STEP** leaves the dead header alone. -/
theorem DeadHeader.step {op : HeapOp} (hdead : DeadHeader a s) (hst : QuietStep s op t) :
    DeadHeader a t := by
  obtain ⟨bs, hi, hmark, hbur⟩ := hdead
  obtain ⟨hquiet, hst⟩ := hst
  cases hst with
  | kmalloc _ => exact absurd hquiet id
  | kfree hvalid hok =>
      rcases hvalid with hzero | ⟨size, hlive⟩
      · obtain ⟨hok', hall, -⟩ := hi.free_null hzero
        rw [hok] at hok'
        cases hok'
        rw [hall]
        exact ⟨bs, hi, hmark, hbur⟩
      · obtain ⟨c, hc, -, h', bs', hok', hi', hused, hplace, hw, -⟩ := kfree_live hi hlive
        rw [hok] at hok'
        cases hok'
        refine ⟨bs', hi', hmark.frame hw fun x => hbur.spared hc, hbur.mono hplace ?_⟩
        intro b hb
        rw [hused] at hb
        exact (List.mem_filter.mp hb).1
  | @write addr val l hl hin =>
      have hw : WritesIn (fun y => y = addr.toNat) s.heap.mem
          (s.heap.mem.store8 addr.toNat val) := (WritesIn.refl _ _).store8 val rfl
      refine ⟨bs, hi.write hl hin val, hmark.frame hw ?_, hbur⟩
      rintro x hlo hhi rfl
      -- the payload of a used block does not reach into the dead header
      obtain ⟨b, hb, hptr, hsize⟩ := hi.covers l hl
      have happart := hbur.used b hb
      obtain ⟨h1, h2⟩ := hin
      omega

/-- A dead header is found out. -/
theorem DeadHeader.caught (hdead : DeadHeader a s) (ha : a + 20 < 2 ^ 32) :
    kfreeLeaves s.heap (a + 20) = (.error (.panic "HEAP: Double free detected"), s.heap) := by
  obtain ⟨bs, hi, hmark, -⟩ := hdead
  have hstart : s.heap.startHeader ≠ 0 := by
    rw [hi.rep.start]
    decide
  have hptr : u32 (a + 20 + 2 ^ 32 - sizeofHeapHeader) = a := by
    rw [u32, sizeofHeapHeader]
    omega
  rw [kfreeLeaves, if_neg (by omega), if_neg hstart, hptr]
  simp only []
  rw [if_neg (not_not.mpr hmark.magic), if_pos hmark.isFree]

/-- **DOUBLE FREES ARE CAUGHT**: in every state a run reaches, a live pointer that is
    freed, and then once more after any frees and stores of the clients, leads to the
    panic, and the second free changes no byte. -/
theorem double_free_caught (mem : Mem) (ops : List HeapOp) (s : HeapClient)
    (hrun : Run HeapStep ⟨heapFirstBlock mem, []⟩ ops s) (hlive : (p, size) ∈ s.live) :
    ∃ h₁, kfree s.heap p = .ok h₁ ∧
      ∀ ops' t, Run QuietStep ⟨h₁, liveWithout s.live p⟩ ops' t →
        kfreeLeaves t.heap p = (.error (.panic "HEAP: Double free detected"), t.heap)
        ∧ kfree t.heap p = .error (.panic "HEAP: Double free detected") := by
  obtain ⟨bs, hi⟩ := heapInv_run hrun
  obtain ⟨c, hc, hptr, h₁, bs₁, hok, hi₁, hused, hplace, -, hmark⟩ := kfree_live hi hlive
  refine ⟨h₁, hok, fun ops' t hquiet => ?_⟩
  have hdead₁ : DeadHeader c.addr ⟨h₁, liveWithout s.live p⟩ :=
    ⟨bs₁, hi₁, hmark, hi.buried hc (hptr ▸ hused) hplace⟩
  have hdead : DeadHeader c.addr t :=
    hquiet.invariant hdead₁ fun _ _ _ hI hst => hI.step hst
  have hbound := hi.rep.list.bounds (mem_used.mp hc).1
  have hcaught := hdead.caught (by omega)
  rw [← hptr] at hcaught
  refine ⟨hcaught, ?_⟩
  rw [kfreeLeaves_eq, hcaught]
  rfl

/-- Two blocks: the second is freed, then the first, which swallows the header of the
    second, then the second again. -/
theorem double_free_caught_swallowed :
    ∃ h₂ h₃ h₄, kfree h₂ 0xD0000034 = .ok h₃ ∧ kfree h₃ 0xD0000014 = .ok h₄
      ∧ h₄.headers = [0xD0000000]
      ∧ kfree h₄ 0xD0000034 = .error (.panic "HEAP: Double free detected") := by
  obtain ⟨bs, hi⟩ := heapInv_run (m := ⟨fun _ => 0, []⟩) Run.nil
  obtain ⟨p, h₁, bs₁, hok₁, hi₁, -⟩ := hi.kmalloc (10 : UInt32).toNat_lt
  obtain ⟨q, h₂, bs₂, hok₂, hi₂, -⟩ := hi₁.kmalloc (20 : UInt32).toNat_lt
  have hp : p = 0xD0000014 := by
    have hp : (kmalloc (heapFirstBlock ⟨fun _ => 0, []⟩) 10).map Prod.fst
        = .ok 0xD0000014 := rfl
    exact Except.ok.inj ((congrArg (Except.map Prod.fst) hok₁).symm.trans hp)
  have hq : q = 0xD0000034 := by
    have hq : ((kmalloc (heapFirstBlock ⟨fun _ => 0, []⟩) 10).bind fun r =>
        kmalloc r.2 20).map Prod.fst = .ok 0xD0000034 := rfl
    rw [show kmalloc (heapFirstBlock ⟨fun _ => 0, []⟩) 10 = .ok (p, h₁) from hok₁] at hq
    exact Except.ok.inj ((congrArg (Except.map Prod.fst) hok₂).symm.trans hq)
  subst hp hq
  have hrun := (Run.single (HeapStep.kmalloc hok₁)).append
    (Run.single (HeapStep.kmalloc hok₂))
  have hlive : (0xD0000034, 20) ∈ liveAfter (liveAfter [] 0xD0000014 10) 0xD0000034 20 := by
    decide
  obtain ⟨h₃, hok₃, hcaught⟩ := double_free_caught _ _ _ hrun hlive
  have hlive' : (0xD0000014, 10) ∈ liveWithout
      (liveAfter (liveAfter [] 0xD0000014 10) 0xD0000034 20) 0xD0000034 := by
    decide
  obtain ⟨-, -, -, h₃', bs₃, hok₃', hi₃, -⟩ := kfree_live hi₂ hlive
  rw [hok₃] at hok₃'
  cases hok₃'
  obtain ⟨-, -, -, h₄, bs₄, hok₄, -⟩ := kfree_live hi₃ hlive'
  have hquiet : QuietStep ⟨h₃, _⟩ (.kfree 0xD0000014) ⟨h₄, _⟩ :=
    ⟨trivial, HeapStep.kfree (Or.inr ⟨10, hlive'⟩) hok₄⟩
  refine ⟨h₂, h₃, h₄, hok₃, hok₄, ?_, (hcaught _ _ (Run.single hquiet)).2⟩
  have hone : ((kmalloc (heapFirstBlock ⟨fun _ => 0, []⟩) 10).bind fun r =>
      (kmalloc r.2 20).bind fun r => (kfree r.2 0xD0000034).bind fun h =>
        (kfree h 0xD0000014).map Heap.headers) = .ok [0xD0000000] := rfl
  rw [show kmalloc (heapFirstBlock ⟨fun _ => 0, []⟩) 10 = .ok (0xD0000014, h₁) from hok₁] at hone
  simp only [Except.bind] at hone
  rw [show kmalloc h₁ 20 = .ok (0xD0000034, h₂) from hok₂] at hone
  simp only [hok₃] at hone
  exact Except.ok.inj ((congrArg (Except.map Heap.headers) hok₄).symm.trans hone)

end PyramidHeap
