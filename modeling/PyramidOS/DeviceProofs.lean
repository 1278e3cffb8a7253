import PyramidOS.BlockProofs
import PyramidOS.HeapClientProofs

/-! # Block devices in memory

    The registry holds pointers.  A `BlockDevice` is 48 bytes behind one, static
    data of the kernel or a part of a heap block somebody holds, and what its
    functions do is up to the drivers.

    * `deviceAt` — the device the bytes at an address make;
    * `Placed` — where a device may be, so that the allocator never touches it;
    * `storageInv_run` — in every state that heap operations, stores to static
      data and `block_register` reach, the heap is in order and the registered
      devices are placed. -/

namespace PyramidBlock

open ByteMem PyramidString PyramidKernel PyramidHeap BlockTiling LabelledRun

variable {m m' m'' : Mem} {live live' : List (Nat × Nat)} {bs₀ : List Block} {h h' : Heap}
  {name : List UInt8} {dev fuel p n size i : Nat}

/-! ## Strings in memory -/

/-- The characters from `p` on, as many as an address space holds. -/
def charsFrom (m : Mem) : Nat → Nat → List UInt8
  | 0, _ => []
  | fuel + 1, p => UInt8.ofBitVec (m.byte p) :: charsFrom m fuel (p + 1)

/-- A `char` pointer. -/
def stringAt (m : Mem) (p : Nat) : List UInt8 := charsFrom m (2 ^ 32) p

theorem ofBitVec_eq_zero {b : Byte} : UInt8.ofBitVec b = 0 ↔ b = 0 := by
  rw [← UInt8.toBitVec_inj]
  rfl

/-- A string is its bytes up to the NUL. -/
theorem text_charsFrom_of_bytes (hne : ∀ a ∈ name, a ≠ 0) (hlen : name.length < fuel)
    (hbyte : ∀ i, i < name.length → m.byte (p + i) = (charAt name i).toBitVec)
    (hnul : m.byte (p + name.length) = 0) : text (charsFrom m fuel p) = name := by
  induction name generalizing p fuel with
  | nil =>
    cases fuel with
    | zero => rfl
    | succ fuel =>
      have hnul' : m.byte p = 0 := hnul
      rw [charsFrom, ofBitVec_eq_zero.mpr hnul']
      exact text_cons_zero _
  | cons a name ih =>
    cases fuel with
    | zero => exact absurd hlen (Nat.not_lt_zero _)
    | succ fuel =>
      have hfirst : UInt8.ofBitVec (m.byte p) = a := by
        rw [show m.byte p = a.toBitVec from hbyte 0 (Nat.zero_lt_succ _)]
      rw [charsFrom, hfirst, text_cons (hne a (List.mem_cons_self ..))]
      congr 1
      refine ih (fun b hb => hne b (List.mem_cons_of_mem _ hb)) (Nat.lt_of_succ_lt_succ hlen)
        (fun i hi => ?_) ?_
      · rw [Nat.add_assoc, Nat.add_comm 1 i]
        exact hbyte (i + 1) (Nat.succ_lt_succ hi)
      · rw [Nat.add_assoc, Nat.add_comm 1]
        exact hnul

/-- Memory that is the same up to the NUL holds the same string. -/
theorem text_charsFrom_congr
    (hbyte : ∀ i, i ≤ (text (charsFrom m fuel p)).length → m'.byte (p + i) = m.byte (p + i)) :
    text (charsFrom m' fuel p) = text (charsFrom m fuel p) := by
  induction fuel generalizing p with
  | zero => rfl
  | succ fuel ih =>
    have hfirst : m'.byte p = m.byte p := hbyte 0 (Nat.zero_le _)
    rw [charsFrom, charsFrom, hfirst]
    by_cases ha : UInt8.ofBitVec (m.byte p) = 0
    · rw [ha, text_cons_zero, text_cons_zero]
    · rw [charsFrom, text_cons ha, List.length_cons] at hbyte
      rw [text_cons ha, text_cons ha]
      congr 1
      refine ih fun i hi => ?_
      rw [Nat.add_assoc, Nat.add_comm 1 i]
      exact hbyte (i + 1) (Nat.succ_le_succ hi)

/-! ## Devices -/

/-- `BLOCK_NAME_MAX`. -/
def blockNameMax : Nat := 32

/-- `sizeof(BlockDevice)` on i386. -/
def sizeofBlockDevice : Nat := 48

/-- `dev->name`. -/
def devName (m : Mem) (dev : Nat) : List UInt8 := stringAt m dev

/-- `dev->sector_size`. -/
def devSectorSize (m : Mem) (dev : Nat) : Nat := m.load32 (dev + 32)

/-- `dev->ctx`. -/
def devCtx (m : Mem) (dev : Nat) : Nat := m.load32 (dev + 36)

/-- `dev->read`. -/
def devRead (m : Mem) (dev : Nat) : Nat := m.load32 (dev + 40)

/-- The drivers: what the function at an address answers when it is called on a
    device after so many reads, for an LBA; and where the linker put the functions
    of `mbr.c`. -/
structure Drivers where
  reply : Nat → Nat → Nat → Nat → Reply
  mbrPartitionRead : UInt32
  mbrPartitionWrite : UInt32
  nonNull : mbrPartitionRead ≠ 0

/-- The device at an address. -/
def deviceAt (D : Drivers) (m : Mem) (dev : Nat) : BlockDevice where
  name := devName m dev
  sectorSize := devSectorSize m dev
  read :=
    if devRead m dev = 0 then none
    else some fun reads lba => D.reply (devRead m dev) dev reads lba

/-- The registry over the devices in memory. -/
def registryAt (D : Drivers) (m : Mem) (devices : List Nat) : Registry :=
  ⟨deviceAt D m, devices⟩

/-! ## What the allocator leaves alone -/

/-- The 48 bytes at `dev` are outside the heap, or inside a block somebody holds. -/
def Placed (live : List (Nat × Nat)) (dev : Nat) : Prop :=
  dev + sizeofBlockDevice ≤ 0xD0000000 ∨ 0xD0100000 ≤ dev
    ∨ ∃ l ∈ live, l.1 ≤ dev ∧ dev + sizeofBlockDevice ≤ l.1 + l.2

/-- What is held, and everything outside the heap, is the same in both memories. -/
structure Untouched (live : List (Nat × Nat)) (m m' : Mem) : Prop where
  keeps : Keeps live m m'
  outside : KeepsOutside m m'

theorem Untouched.refl (live : List (Nat × Nat)) (m : Mem) : Untouched live m m :=
  ⟨.refl _ _, fun _ _ => rfl⟩

theorem Untouched.trans (h1 : Untouched live m m') (h2 : Untouched live m' m'') :
    Untouched live m m'' :=
  ⟨h1.keeps.trans h2.keeps, fun x hx => (h2.outside x hx).trans (h1.outside x hx)⟩

theorem Untouched.mono (hu : Untouched live m m') (hsub : ∀ l ∈ live', l ∈ live) :
    Untouched live' m m' :=
  ⟨hu.keeps.mono hsub, hu.outside⟩

theorem Placed.mono (hp : Placed live dev) (hsub : ∀ l ∈ live, l ∈ live') :
    Placed live' dev := by
  rcases hp with hlo | hhi | ⟨l, hl, hin⟩
  · exact Or.inl hlo
  · exact Or.inr (Or.inl hhi)
  · exact Or.inr (Or.inr ⟨l, hsub l hl, hin⟩)

/-- The bytes of a placed device. -/
theorem Untouched.device (hu : Untouched live m m') (hp : Placed live dev)
    (hi : i < sizeofBlockDevice) : m'.byte (dev + i) = m.byte (dev + i) := by
  rcases hp with hlo | hhi | ⟨l, hl, hlo, hhi⟩
  · exact hu.outside _ (Or.inl (by omega))
  · exact hu.outside _ (Or.inr (by omega))
  · exact hu.keeps l hl _ ⟨by omega, by omega⟩

/-- The name of a placed device, when it fits its array. -/
theorem Untouched.devName (hu : Untouched live m m') (hp : Placed live dev)
    (hfits : (text (devName m dev)).length < blockNameMax) :
    text (devName m' dev) = text (devName m dev) :=
  text_charsFrom_congr fun _ hi =>
    hu.device hp (Nat.lt_of_le_of_lt hi (Nat.lt_trans hfits (by decide)))

/-- A word of a placed device. -/
theorem Untouched.load32 (hu : Untouched live m m') (hp : Placed live dev) (off : Nat)
    (hoff : off + 4 ≤ sizeofBlockDevice) : m'.load32 (dev + off) = m.load32 (dev + off) := by
  refine load32_congr fun x hx hx' => ?_
  obtain ⟨k, rfl⟩ := Nat.exists_eq_add_of_le hx
  rw [Nat.add_assoc]
  exact hu.device hp (by omega)

/-- **`kmalloc` BESIDE DEVICES.** -/
theorem alloc_untouched (ho : Owns bs₀ h live) (size : Nat) (hsize : size < 2 ^ 32) :
    ∃ p h', kmalloc h size = .ok (p, h') ∧ Untouched live h.mem h'.mem
      ∧ ((p = 0 ∧ Owns bs₀ h' live) ∨ (p ≠ 0 ∧ Owns bs₀ h' ((p, size) :: live))) := by
  obtain ⟨p, h', hok, hk, hcase⟩ := ho.alloc size hsize
  exact ⟨p, h', hok, ⟨hk, ho.alloc_outside hsize hok⟩, hcase⟩

/-- **`kfree` BESIDE DEVICES.** -/
theorem free_untouched (ho : Owns bs₀ h ((p, n) :: live)) (hcov : Covers live bs₀) :
    ∃ h', kfree h p = .ok h' ∧ Untouched live h.mem h'.mem ∧ Owns bs₀ h' live := by
  obtain ⟨h', hok, hk, ho'⟩ := ho.free hcov
  exact ⟨h', hok, ⟨hk, ho.free_outside hok⟩, ho'⟩

/-- **STORES BESIDE DEVICES**, into a block of one's own. -/
theorem write_untouched (ho : Owns bs₀ h ((p, n) :: live))
    (hw : WritesIn (InRange (p, n)) h.mem m') :
    Untouched live h.mem m' ∧ Owns bs₀ { h with mem := m' } ((p, n) :: live) := by
  obtain ⟨hk, ho'⟩ := ho.write hw
  exact ⟨⟨hk, ho.write_outside (List.mem_cons_self ..) hw⟩, ho'⟩

/-! ## Reaching a registry -/

/-- The heap, `g_devices` up to `g_device_count`, and how many reads the devices
    have answered. -/
structure Storage where
  heap : Heap
  devices : List Nat
  reads : Nat

/-- Memory. -/
def Storage.mem (s : Storage) : Mem := s.heap.mem

/-- The storage, and what its clients hold of the heap. -/
structure StorageClient where
  storage : Storage
  live : List (Nat × Nat)

inductive StorageEvent where
  | heap (op : HeapOp)
  | store (addr : UInt32) (val : Byte)
  | register (dev : UInt32)
deriving DecidableEq, Repr

/-- After `heap_init` and `block_init`. -/
def storageStart (mem : Mem) (reads : Nat) : StorageClient :=
  ⟨⟨heapFirstBlock mem, [], reads⟩, []⟩

/-- One step: a heap operation, which frees no block with a registered device in it;
    a store to static data; or a `block_register` of a device that is somewhere. -/
inductive StorageStep (D : Drivers) : StorageClient → StorageEvent → StorageClient → Prop where
  | heap {s : StorageClient} {op : HeapOp} {c : HeapClient}
      (hstep : HeapStep ⟨s.storage.heap, s.live⟩ op c)
      (hplaced : ∀ dev ∈ s.storage.devices, Placed c.live dev) :
      StorageStep D s (.heap op) ⟨{ s.storage with heap := c.heap }, c.live⟩
  | store {s : StorageClient} {addr : UInt32} {val : Byte}
      (hstatic : addr.toNat < 0xD0000000 ∨ 0xD0100000 ≤ addr.toNat) :
      StorageStep D s (.store addr val)
        ⟨{ s.storage with
            heap := { s.storage.heap with mem := s.storage.mem.store8 addr.toNat val } }, s.live⟩
  | register {s : StorageClient} {dev : UInt32} (hplaced : Placed s.live dev.toNat) :
      StorageStep D s (.register dev)
        ⟨{ s.storage with devices :=
            (blockRegister (registryAt D s.storage.mem s.storage.devices) dev).2.devices },
          s.live⟩

/-- **THE INVARIANT OF THE STORAGE.** -/
structure StorageInv (s : StorageClient) : Prop where
  heap : ∃ bs, HeapInv ⟨s.storage.heap, s.live⟩ bs
  placed : ∀ dev ∈ s.storage.devices, Placed s.live dev

theorem StorageInv.step {D : Drivers} {s t : StorageClient} {e : StorageEvent}
    (hi : StorageInv s) (hst : StorageStep D s e t) : StorageInv t := by
  obtain ⟨bs, hheap⟩ := hi.heap
  cases hst with
  | heap hstep hplaced => exact ⟨hheap.step hstep, hplaced⟩
  | store hstatic => exact ⟨⟨bs, hheap.write_outside _ hstatic⟩, hi.placed⟩
  | @register dev hplaced =>
    refine ⟨⟨bs, hheap⟩, fun q hq => ?_⟩
    rcases blockRegister_cases (registryAt D s.storage.mem s.storage.devices) dev with
      ⟨-, heq⟩ | ⟨-, rc, -, heq⟩
    · simp only [heq] at hq
      rcases List.mem_append.mp hq with hold | hnew
      · exact hi.placed q hold
      · rw [List.mem_singleton.mp hnew]
        exact hplaced
    · simp only [heq] at hq
      exact hi.placed q hq

/-- Every state reached has the invariant. -/
theorem storageInv_run {D : Drivers} {mem : Mem} {reads : Nat} {es : List StorageEvent}
    {s : StorageClient} (hrun : Run (StorageStep D) (storageStart mem reads) es s) :
    StorageInv s := by
  refine hrun.invariant ⟨heapInv_run (m := mem) Run.nil, fun dev hdev => (nomatch hdev)⟩ ?_
  intro a e b hI hst
  exact hI.step hst

end PyramidBlock
