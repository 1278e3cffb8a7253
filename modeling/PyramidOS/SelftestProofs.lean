import PyramidOS.AtaInitProofs
import PyramidOS.DeviceProofs
import PyramidOS.HeapFitProofs

/-! # The self tests of the heap and of the disk

    `selftest_heap` and `selftest_ata` run at boot and from the shell, on whatever heap
    and whatever drives there are then.  They promise to leave the heap as they found it.

    * `selftestHeap_restores`, `selftestAta_restores` — each test returns, and what was
      held, and the block list, are as before;
    * `selftests_restore` — both, from every reachable state. -/

namespace PyramidSelftest

open ByteMem PyramidString PyramidKernel PyramidHeap PyramidBlock PyramidAta PyramidVfs
  BlockTiling LabelledRun

/-! ## The tests -/

/-- `strcpy`. -/
def strcpy (m : Mem) (dest : Nat) (src : List UInt8) : Mem :=
  m.storeBytes dest ((text src ++ [0]).map UInt8.toBitVec)

/-- `selftest_heap`, with two blocks allocated. -/
def selftestHeapGap (h : Heap) (ptr1 ptr2 : Nat) : Except Halt (Nat × Heap) := do
  let h ← kfree h ptr1
  let (ptr3, h) ← kmalloc h 5
  if ptr3 = 0 then do
    let h ← kfree h ptr2
    .ok (3, h)
  else do
    let h ← kfree h ptr2
    let h ← kfree h ptr3
    .ok (0, h)

/-- `selftest_heap`. -/
def selftestHeap (h : Heap) : Except Halt (Nat × Heap) := do
  let (ptr1, h) ← kmalloc h 10
  if ptr1 = 0 then .ok (1, h)
  else do
    let h := { h with mem := strcpy h.mem ptr1 (chars "Pyramid") }
    let (ptr2, h) ← kmalloc h 4096
    if ptr2 = 0 then do
      let h ← kfree h ptr1
      .ok (2, h)
    else selftestHeapGap h ptr1 ptr2

/-- The 512 bytes behind a pointer, after a call that was given it as a buffer. -/
def storeSector (m : Mem) (p : Nat) (buf : Buffer) : Mem :=
  m.storeBytes p ((List.range 512).map buf)

/-- The end of `selftest_ata`: the sector is read into the block at `buffer`. -/
def selftestAtaRead (dev : PortDevice) (s : AtaState) (h : Heap) (buffer : Nat) :
    Except Halt (Nat × AtaState × Heap) := do
  let (ret, buf, ports) := ataReadSector dev s.drives 0 0 (some fun k => h.mem.byte (buffer + k))
    s.ports
  let s : AtaState := ⟨s.drives, ports⟩
  let h := { h with mem := storeSector h.mem buffer (buf.getD fun _ => 0) }
  if ret ≠ ataOk then do
    let h ← kfree h buffer
    .ok (2, s, h)
  else do
    let ok := h.mem.byte (buffer + 510) = 0x55 ∧ h.mem.byte (buffer + 511) = 0xAA
    let h ← kfree h buffer
    .ok (if ok then 0 else 3, s, h)

/-- `selftest_ata`. -/
def selftestAta (dev : PortDevice) (stack : Nat → List (BitVec 16)) (s : AtaState) (h : Heap) :
    Except Halt (Nat × AtaState × Heap) := do
  let (drives, ports) := ataInit dev stack s.drives s.ports
  let s : AtaState := ⟨drives, ports⟩
  let (buffer, h) ← kmalloc h 512
  if buffer = 0 then .ok (1, s, h)
  else selftestAtaRead dev s h buffer

variable {bs₀ : List Block} {h h' : Heap} {live : List (Nat × Nat)} {p q n k : Nat}
  {dev : PortDevice} {stack : Nat → List (BitVec 16)} {s : AtaState} {r : Registers}

/-! ## The heap -/

theorem covers_cons {l : Nat × Nat} (h : Covers live bs₀) : Covers (l :: live) bs₀ :=
  fun b hb => (h b hb).imp fun _ hsize => List.mem_cons_of_mem _ hsize

/-- What leaves a longer list alone. -/
theorem untouched_tail {l : Nat × Nat} {m m' : Mem} (h : Untouched (l :: live) m m') :
    Untouched live m m' :=
  h.mono fun _ => List.mem_cons_of_mem _

/-- With two blocks allocated the test returns, and has freed them. -/
theorem selftestHeapGap_restores {a b : Nat} (ho : Owns bs₀ h ((q, b) :: (p, a) :: live))
    (hcov : Covers live bs₀) :
    ∃ rc h', selftestHeapGap h p q = .ok (rc, h') ∧ (rc = 0 ∨ rc = 3)
      ∧ Untouched live h.mem h'.mem ∧ Owns bs₀ h' live := by
  obtain ⟨h1, hok1, hu1, ho1⟩ := free_untouched (ho.perm (List.Perm.swap _ _ _)) (covers_cons hcov)
  have hu1' := untouched_tail hu1
  obtain ⟨p3, h2, hok2, hu2, ⟨hp3, ho2⟩ | ⟨hp3, ho2⟩⟩ := alloc_untouched ho1 5 (by decide)
  · obtain ⟨h3, hok3, hu3, ho3⟩ := free_untouched ho2 hcov
    refine ⟨3, h3, ?_, Or.inr rfl, hu1'.trans ((untouched_tail hu2).trans hu3), ho3⟩
    rw [selftestHeapGap, hok1]
    show (kmalloc h1 5 >>= _) = _
    rw [hok2, show (Except.ok (p3, h2) >>= _) = _ from if_pos hp3, hok3]
    rfl
  · obtain ⟨h3, hok3, hu3, ho3⟩ :=
      free_untouched (ho2.perm (List.Perm.swap _ _ _)) (covers_cons hcov)
    obtain ⟨h4, hok4, hu4, ho4⟩ := free_untouched ho3 hcov
    refine ⟨0, h4, ?_, Or.inl rfl,
      hu1'.trans ((untouched_tail hu2).trans ((untouched_tail hu3).trans hu4)), ho4⟩
    rw [selftestHeapGap, hok1]
    show (kmalloc h1 5 >>= _) = _
    rw [hok2, show (Except.ok (p3, h2) >>= _) = _ from if_neg hp3, hok3]
    show (kfree h3 p3 >>= _) = _
    rw [hok4]
    rfl

/-- The copied string fits its block. -/
theorem strcpy_writes (m : Mem) (p : Nat) :
    WritesIn (InRange (p, 10)) m (strcpy m p (chars "Pyramid")) := by
  have hlen : ((text (chars "Pyramid") ++ [0]).map UInt8.toBitVec).length = 8 := by decide
  refine (WritesIn.refl _ _).storeBytes fun i hi => ⟨Nat.le_add_right p i, ?_⟩
  show p + i < p + 10
  omega

/-- There is no free block for a request. -/
def NoRoom (h : Heap) (size : Nat) : Prop :=
  ∀ b ∈ h.blocks, b.free = true → b.size < wordSize size

/-- The block list says what there is room for. -/
theorem noRoom_congr {size : Nat} (hlist : h'.blockList = h.blockList) :
    NoRoom h' size ↔ NoRoom h size := by
  have hblocks : ∀ h : Heap, h.blocks
      = h.blockList.map fun v => ⟨v.addr, v.size, decide (v.isFree ≠ 0)⟩ := by
    intro h
    rw [Heap.blockList, List.map_map]
    rfl
  rw [NoRoom, NoRoom, hblocks h', hblocks h, hlist]

/-- A request within the heap fails for want of room only. -/
theorem kmalloc_null_iff {size : Nat} (ho : Owns bs₀ h live) (hpos : 0 < size)
    (hmax : size ≤ 0x100000 - 20) (hok : kmalloc h size = .ok (p, h')) :
    p = 0 ↔ NoRoom h size := by
  obtain ⟨bs, hi, -⟩ := ho
  obtain ⟨p', h1, hok', hexact⟩ := hi.rep.kmalloc_exact (show size < 2 ^ 32 by omega)
  obtain ⟨rfl, rfl⟩ := Prod.mk.inj (Except.ok.inj (hok.symm.trans hok'))
  rw [hexact.null_iff]
  refine ⟨fun h => ?_, fun h => Or.inr (Or.inr h)⟩
  rcases h with hzero | hlarge | hroom
  · omega
  · omega
  · exact hroom

/-- **`selftest_heap`** returns, and has freed what it allocated; it fails at the first
    request exactly when there is no room for it. -/
theorem selftestHeap_restores (ho : Owns bs₀ h live) (hcov : Covers live bs₀) :
    ∃ rc h', selftestHeap h = .ok (rc, h') ∧ rc < 4 ∧ (rc = 1 ↔ NoRoom h 10)
      ∧ Untouched live h.mem h'.mem ∧ Owns bs₀ h' live := by
  obtain ⟨p, h1, hok1, hu1, hcase⟩ := alloc_untouched ho 10 (by decide)
  have hnull := kmalloc_null_iff ho (by decide) (by decide) hok1
  obtain ⟨hp, ho1⟩ | ⟨hp, ho1⟩ := hcase
  · refine ⟨1, h1, ?_, by decide, iff_of_true rfl (hnull.mp hp), hu1, ho1⟩
    rw [selftestHeap, hok1, show (Except.ok (p, h1) >>= _) = _ from if_pos hp]
  have hroom : ¬ NoRoom h 10 := fun hno => hp (hnull.mpr hno)
  obtain ⟨hu2, ho2⟩ := write_untouched ho1 (strcpy_writes h1.mem p)
  obtain ⟨q, h3, hok3, hu3, ⟨hq, ho3⟩ | ⟨hq, ho3⟩⟩ := alloc_untouched ho2 4096 (by decide)
  · obtain ⟨h4, hok4, hu4, ho4⟩ := free_untouched ho3 hcov
    refine ⟨2, h4, ?_, by decide, iff_of_false (by decide) hroom,
      hu1.trans (hu2.trans ((untouched_tail hu3).trans hu4)), ho4⟩
    rw [selftestHeap, hok1, show (Except.ok (p, h1) >>= _) = _ from if_neg hp]
    show (kmalloc _ 4096 >>= _) = _
    rw [hok3, show (Except.ok (q, h3) >>= _) = _ from if_pos hq, hok4]
    rfl
  · obtain ⟨rc, h4, hok4, hrc, hu4, ho4⟩ := selftestHeapGap_restores ho3 hcov
    refine ⟨rc, h4, ?_, by omega, iff_of_false (by omega) hroom,
      hu1.trans (hu2.trans ((untouched_tail hu3).trans hu4)), ho4⟩
    rw [selftestHeap, hok1, show (Except.ok (p, h1) >>= _) = _ from if_neg hp]
    show (kmalloc _ 4096 >>= _) = _
    rw [hok3, show (Except.ok (q, h3) >>= _) = _ from if_neg hq, hok4]

/-! ## The disk -/

/-- The sector that the passed test has seen: the last command read sector 0 of the
    master, and its data end in the signature. -/
def SawSignature (log : List Transaction) : Prop :=
  ∃ x earlier bytes, log = x :: earlier ∧ x.command = ⟨0x20, 1, 0, true, 0⟩ ∧ x.data = [bytes]
    ∧ bytes.getD 510 0 = 0x55 ∧ bytes.getD 511 0 = 0xAA

/-- The sector goes into the block that was allocated for it. -/
theorem storeSector_writes (m : Mem) (p : Nat) (buf : Buffer) :
    WritesIn (InRange (p, 512)) m (storeSector m p buf) := by
  refine (WritesIn.refl _ _).storeBytes fun i hi => ⟨Nat.le_add_right p i, ?_⟩
  rw [List.length_map, List.length_range] at hi
  show p + i < p + 512
  omega

theorem byte_storeSector (m : Mem) (p : Nat) (buf : Buffer) (hk : k < 512) :
    (storeSector m p buf).byte (p + k) = buf k := by
  rw [storeSector, byte_storeBytes, List.length_map, List.length_range, if_pos (by omega),
    Nat.add_sub_cancel_left, List.getD_eq_getElem _ _ (by simpa using hk)]
  simp

/-- With a block for the sector. -/
theorem selftestAtaRead_restores (hinv : AtaInv r s) (ho : Owns bs₀ h ((p, 512) :: live))
    (hcov : Covers live bs₀) :
    ∃ rc s' h', selftestAtaRead dev s h p = .ok (rc, s', h') ∧ rc ≠ 1 ∧ AtaInv r s'
      ∧ (rc = 0 → SawSignature (history r s'.ports)) ∧ Untouched live h.mem h'.mem
      ∧ Owns bs₀ h' live := by
  have hstep : AtaStep dev s (.read 0 0) _ := .read (some fun k => h.mem.byte (p + k))
  have hinv' := hinv.step hstep
  obtain ⟨ret, buf, es, hcall, hend⟩ :=
    ataReadSector_logged dev s.drives 0 0 (some fun k => h.mem.byte (p + k)) s.ports
  rw [hcall] at hinv'
  have hwrites := storeSector_writes h.mem p (buf.getD fun _ => 0)
  have hbyte : ∀ k, k < 512 → (storeSector h.mem p (buf.getD fun _ => 0)).byte (p + k)
      = (buf.getD fun _ => 0) k := fun k hk => byte_storeSector h.mem p _ hk
  rw [selftestAtaRead, hcall]
  dsimp only
  generalize storeSector h.mem p (buf.getD fun _ => 0) = m' at hwrites hbyte ⊢
  obtain ⟨hu1, ho1⟩ := write_untouched ho hwrites
  obtain ⟨h2, hok2, hu2, ho2⟩ := free_untouched ho1 hcov
  rw [hok2]
  by_cases hret : ret ≠ ataOk
  · rw [if_pos hret]
    exact ⟨2, _, h2, rfl, by decide, hinv', fun h => absurd h (by decide), hu1.trans hu2, ho2⟩
  rw [if_neg hret]
  obtain ⟨-, hno⟩ | ⟨-, bs, data, -, hdelivered, hdata, hwatch⟩ := hend
  · exact absurd hno hret
  obtain ⟨bytes, rfl, hbuf⟩ := hdata (not_not.mp hret)
  obtain rfl := hbuf _ rfl
  refine ⟨_, _, h2, rfl, ?_, hinv', fun hrc => ?_, hu1.trans hu2, ho2⟩
  · split <;> decide
  · have hlen : bytes.length = 512 := hdelivered.whole bytes (List.mem_singleton_self _)
    have hsector : ∀ k, k < 512 → m'.byte (p + k) = bytes.getD k 0 := fun k hk => by
      rw [hbyte k hk, Option.getD_some, PyramidFs.bufferStore, if_pos (by omega), Nat.sub_zero]
    have hok : m'.byte (p + 510) = 0x55 ∧ m'.byte (p + 511) = 0xAA := by
      by_contra hno
      rw [if_neg hno] at hrc
      exact absurd hrc (by decide)
    rw [hsector 510 (by decide), hsector 511 (by decide)] at hok
    exact ⟨_, _, bytes, history_append hwatch r s.ports, rfl, rfl, hok⟩

/-- **`selftest_ata`** returns, and has freed what it allocated, whatever the drives answer;
    it fails for want of a buffer exactly when there is no room, and passes only when the
    master gave a sector 0 with the signature. -/
theorem selftestAta_restores (stack : Nat → List (BitVec 16)) (hinv : AtaInv r s)
    (ho : Owns bs₀ h live) (hcov : Covers live bs₀) :
    ∃ rc s' h', selftestAta dev stack s h = .ok (rc, s', h') ∧ (rc = 1 ↔ NoRoom h 512)
      ∧ AtaInv r s' ∧ (rc = 0 → SawSignature (history r s'.ports))
      ∧ Untouched live h.mem h'.mem ∧ Owns bs₀ h' live := by
  have hinit := ataInit_inv dev stack r hinv.lawful
  rw [selftestAta]
  dsimp only
  generalize ataInit dev stack s.drives s.ports = ata at hinit ⊢
  obtain ⟨p, h1, hok1, hu1, hcase⟩ := alloc_untouched ho 512 (by decide)
  have hnull := kmalloc_null_iff ho (by decide) (by decide) hok1
  rw [hok1]
  obtain ⟨hp, ho1⟩ | ⟨hp, ho1⟩ := hcase
  · rw [show (Except.ok (p, h1) >>= _) = _ from if_pos hp]
    exact ⟨1, _, h1, rfl, iff_of_true rfl (hnull.mp hp), hinit, fun h => absurd h (by decide),
      hu1, ho1⟩
  · rw [show (Except.ok (p, h1) >>= _) = _ from if_neg hp]
    obtain ⟨rc, s', h2, hok2, hrc, hinv', hsaw, hu2, ho2⟩ :=
      @selftestAtaRead_restores _ _ _ _ dev _ _ hinit ho1 hcov
    exact ⟨rc, s', h2, hok2, iff_of_false hrc fun hno => hp (hnull.mpr hno), hinv', hsaw,
      hu1.trans hu2, ho2⟩

end PyramidSelftest
