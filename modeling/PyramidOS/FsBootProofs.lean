import PyramidOS.FsHeapProofs

/-! # Mounting the filesystems

    What happens before the first file is opened: the heap is used, contexts are
    made with `pyfs_create`, and filesystems are mounted, in any order
    (`BootStep`).  In every state such a run reaches the heap is in order, and a
    mounted PyFS has a context of its own over a device that can be read
    (`bootInv_run`). -/

namespace PyramidFs

open ByteMem PyramidString PyramidKernel PyramidHeap PyramidBlock PyramidVfs BlockTiling
  LabelledRun

/-- The kernel before files are opened: what is live on the heap, which of that
    `pyfs_create` made, and the mounts. -/
structure Boot where
  world : World
  live : List (Nat × Nat)
  created : List Nat
  mounts : MountTable FsType

inductive BootEvent where
  | heap (op : HeapOp)
  | create (dev : UInt32) (outCtx : Nat)
  | mount (call : MountCall FsType)

/-- After `heap_init` and `vfs_init`. -/
def bootStart (mem : Mem) (reads : Nat) (g : MountTable FsType) : Boot :=
  ⟨⟨heapFirstBlock mem, reads⟩, [], [], vfsInitMounts g⟩

/-- One step: a heap operation of somebody else, a `pyfs_create`, or a
    `vfs_mount`, of PyFS with NULL or with what `pyfs_create` made. -/
inductive BootStep (B : Blocks) : Boot → BootEvent → Boot → Prop where
  | heap {s : Boot} {op : HeapOp} {c : HeapClient}
      (hstep : HeapStep ⟨s.world.heap, s.live⟩ op c)
      (hother : ∀ fs ∈ s.created, ¬ op.Touches (fs, sizeofPyfsCtx)) :
      BootStep B s (.heap op) { s with world := { s.world with heap := c.heap }, live := c.live }
  | created {s : Boot} {dev : UInt32} {outCtx out : Nat} {w : World}
      (hok : pyfsCreate B s.world dev.toNat outCtx = .ok (0, w, out)) :
      BootStep B s (.create dev outCtx)
        ⟨w, (out, sizeofPyfsCtx) :: s.live, out :: s.created, s.mounts⟩
  | notCreated {s : Boot} {dev : UInt32} {outCtx out rc : Nat} {w : World}
      (hok : pyfsCreate B s.world dev.toNat outCtx = .ok (rc, w, out)) (hrc : rc ≠ 0) :
      BootStep B s (.create dev outCtx) { s with world := w }
  | mount {s : Boot} {call : MountCall FsType} {g : MountTable FsType}
      (hstep : MountStep s.mounts call g)
      (hctx : call.ops = some ⟨some .pyfs⟩ → call.fsCtx = 0 ∨ call.fsCtx ∈ s.created) :
      BootStep B s (.mount call) { s with mounts := g }

variable {B : Blocks} {s t : Boot} {e : BootEvent} {fs i : Nat}

/-- The open function of a mount. -/
def mountOpen (g : MountTable FsType) (i : Nat) : Option FsType :=
  (g i).ops.bind VfsFsOps.openFn

/-- **THE INVARIANT BEFORE THE FIRST OPEN.** -/
structure BootInv (B : Blocks) (s : Boot) : Prop where
  heap : ∃ bs, HeapInv ⟨s.world.heap, s.live⟩ bs
  created : ∀ fs ∈ s.created, PyfsCtx B s.live s.world.mem fs
  mounts : MountInv s.mounts
  pyfs : ∀ i, Mounted s.mounts i → mountOpen s.mounts i = some .pyfs →
    (s.mounts i).fsCtx = 0 ∨ (s.mounts i).fsCtx ∈ s.created

theorem bootInv_start (mem : Mem) (reads : Nat) (g : MountTable FsType) :
    BootInv B (bootStart mem reads g) := by
  refine ⟨heapInv_run (m := mem) Run.nil, fun fs hfs => (nomatch hfs), mountInv_init g,
    fun i hi => ?_⟩
  obtain ⟨hi, hused⟩ := hi
  rw [show (bootStart mem reads g).mounts = vfsInitMounts g from rfl, vfsInitMounts,
    if_pos hi] at hused
  cases hused

/-- The heap invariant is ownership of what is live. -/
theorem owns_nil {h : Heap} {live : List (Nat × Nat)} :
    Owns [] h live ↔ ∃ bs, HeapInv ⟨h, live⟩ bs :=
  exists_congr fun _ => and_iff_left fun _ hb => (nomatch hb)

/-- After `vfs_mount` a mount is an old one or the new one. -/
theorem mountStep_mounted {g g' : MountTable FsType} {call : MountCall FsType}
    (hst : MountStep g call g') (hi : Mounted g' i) :
    (Mounted g i ∧ g' i = g i) ∨ ((g' i).ops = call.ops ∧ (g' i).fsCtx = call.fsCtx) := by
  have hres := vfsMount_spec g call.mountpoint call.fsName call.ops call.fsCtx
  rw [← show (vfsMount g call.mountpoint call.fsName call.ops call.fsCtx).2 = g' from hst]
    at hi ⊢
  generalize vfsMount g call.mountpoint call.fsName call.ops call.fsCtx = r at hres hi
  obtain ⟨hlt, hused⟩ := hi
  cases hres with
  | failed _ hsame hkeep =>
    rw [hsame] at hused
    exact Or.inl ⟨⟨hlt, hused⟩, hkeep i hused⟩
  | @added k e m name o _ _ hops _ _ _ _ _ he =>
    simp only at hused ⊢
    by_cases hik : i = k
    · obtain ⟨-, -, -, heops, hectx⟩ := he
      subst hik
      rw [Function.update_self]
      exact Or.inr ⟨heops.trans hops.symm, hectx⟩
    · rw [Function.update_of_ne hik] at hused ⊢
      exact Or.inl ⟨⟨hlt, hused⟩, rfl⟩

/-- **ONE STEP** keeps the invariant. -/
theorem BootInv.step (h : BootInv B s) (hst : BootStep B s e t) : BootInv B t := by
  obtain ⟨bs, hi⟩ := h.heap
  cases hst with
  | @heap op c hstep hother =>
    -- the contexts are not touched
    have hkeep := hi.step_keeps hstep (s.created.map fun fs => (fs, sizeofPyfsCtx))
      (fun l hl => by
        obtain ⟨fs, hfs, rfl⟩ := List.mem_map.mp hl
        exact (h.created fs hfs).owned)
      (fun l hl => by
        obtain ⟨fs, hfs, rfl⟩ := List.mem_map.mp hl
        exact hother fs hfs)
    obtain ⟨hlive, hdata⟩ := hkeep
    have hmem : ∀ fs ∈ s.created,
        (fs, sizeofPyfsCtx) ∈ s.created.map fun fs => (fs, sizeofPyfsCtx) :=
      fun fs hfs => List.mem_map.mpr ⟨fs, hfs, rfl⟩
    refine ⟨hi.step hstep, fun fs hfs => ?_, h.mounts, h.pyfs⟩
    exact (((h.created fs hfs).mono (hmem fs hfs)).keeps hdata).mono (hlive _ (hmem fs hfs))
  | @created dev outCtx out w hok =>
    obtain ⟨rc, w', out', hok', hk, hcase⟩ :=
      pyfsCreate_spec (B := B) (owns_nil.mpr ⟨bs, hi⟩) (fun b hb => (nomatch hb)) dev outCtx
    rw [hok] at hok'
    cases hok'
    obtain ⟨hc, -⟩ | ⟨-, ho, hctx, -⟩ := hcase
    · exact absurd rfl hc
    · refine ⟨owns_nil.mp ho, fun fs hfs => ?_, h.mounts, fun i hi hops => ?_⟩
      · rcases List.mem_cons.mp hfs with rfl | hold
        · exact hctx
        · have hold' := (h.created fs hold).keeps hk
          exact hold'.mono (List.mem_cons_of_mem _ hold'.owned)
      · exact (h.pyfs i hi hops).imp_right (List.mem_cons_of_mem _)
  | @notCreated dev outCtx out rc w hok hrc =>
    obtain ⟨rc', w', out', hok', hk, hcase⟩ :=
      pyfsCreate_spec (B := B) (owns_nil.mpr ⟨bs, hi⟩) (fun b hb => (nomatch hb)) dev outCtx
    rw [hok] at hok'
    cases hok'
    obtain ⟨-, ho⟩ | ⟨hc, -⟩ := hcase
    · exact ⟨owns_nil.mp ho, fun fs hfs => (h.created fs hfs).keeps hk, h.mounts, h.pyfs⟩
    · exact absurd hc hrc
  | @mount call g hstep hctx =>
    refine ⟨h.heap, h.created, h.mounts.step hstep, fun i hi hops => ?_⟩
    rcases mountStep_mounted hstep hi with ⟨hold, hsame⟩ | ⟨hnew, hfs⟩
    · rw [mountOpen, show Boot.mounts _ i = g i from rfl, hsame] at hops
      rw [show Boot.mounts _ i = g i from rfl, hsame]
      exact h.pyfs i hold hops
    · rw [show Boot.mounts _ i = g i from rfl, hfs]
      refine hctx ?_
      rw [← hnew]
      rw [mountOpen, Option.bind_eq_some_iff] at hops
      obtain ⟨⟨o⟩, ho, hopen⟩ := hops
      rw [ho, show o = some .pyfs from hopen]

/-- Every state reached has the invariant. -/
theorem bootInv_run {mem : Mem} {reads : Nat} {g : MountTable FsType} {es : List BootEvent}
    (hrun : Run (BootStep B) (bootStart mem reads g) es s) : BootInv B s :=
  hrun.invariant (bootInv_start mem reads g) fun _ _ _ hI hst => hI.step hst

/-! ## A small system -/

/-- The first sector of a PyFS volume. -/
def smallSuperblock : List Byte :=
  [0x50, 0x59, 0x46, 0x53, 1, 0, 0, 0, 0, 2, 0, 0, 0, 0, 0, 0] ++ List.replicate 496 7

/-- The answer to a read of its device, which delivers the sector or nothing. -/
def smallReply (ok : Bool) : Reply :=
  if ok then ⟨true, smallSuperblock, by decide +kernel, fun _ => by decide +kernel⟩
  else ⟨false, [], by decide, fun h => nomatch h⟩

/-- The device succeeds on the reads `answers` names. -/
def smallBlocks (answers : Nat → Bool) : Blocks :=
  ⟨⟨fun _ => ⟨[100], 512, some fun n _ => smallReply (answers n)⟩, []⟩,
    ⟨fun _ h => (nomatch h), List.Pairwise.nil, Nat.zero_le _⟩⟩

/-- `pyfs_create` on the fresh heap. -/
def smallCreate (answers : Nat → Bool) : Except Halt (Nat × World × Nat) :=
  pyfsCreate (smallBlocks answers) ⟨heapFirstBlock ⟨fun _ => 0, []⟩, 0⟩ 0x1000 0

/-- PyFS, mounted on the root. -/
def smallMount : MountCall FsType := ⟨some root, some [112], some ⟨some .pyfs⟩, 0xD0000014⟩

def smallMounts : MountTable FsType := fun _ => ⟨false, [], [], none, 0⟩

def smallBoot (answers : Nat → Bool) : Boot where
  world := match smallCreate answers with
    | .ok (_, w, _) => w
    | .error _ => ⟨⟨⟨fun _ => 0, []⟩, 0⟩, 0⟩
  live := [(0xD0000014, 20)]
  created := [0xD0000014]
  mounts := (vfsMount (vfsInitMounts smallMounts) smallMount.mountpoint smallMount.fsName
    smallMount.ops smallMount.fsCtx).2

theorem smallBoot_run (answers : Nat → Bool)
    (hcodes : (smallCreate answers).map (fun r => (r.1, r.2.2)) = .ok (0, 0xD0000014)) :
    Run (BootStep (smallBlocks answers)) (bootStart ⟨fun _ => 0, []⟩ 0 smallMounts)
      [.create 0x1000 0, .mount smallMount] (smallBoot answers) := by
  obtain ⟨w, hcreate⟩ : ∃ w, smallCreate answers = .ok (0, w, 0xD0000014) := by
    cases hc : smallCreate answers with
    | error e =>
      rw [hc] at hcodes
      cases hcodes
    | ok r =>
      obtain ⟨rc, w, out⟩ := r
      rw [hc] at hcodes
      cases hcodes
      exact ⟨w, rfl⟩
  have hworld : (smallBoot answers).world = w := by
    rw [smallBoot, hcreate]
  have hcreated : BootStep (smallBlocks answers) (bootStart ⟨fun _ => 0, []⟩ 0 smallMounts)
      (.create 0x1000 0) ⟨w, [(0xD0000014, 20)], [0xD0000014], vfsInitMounts smallMounts⟩ :=
    .created hcreate
  have hmount : BootStep (smallBlocks answers)
      ⟨w, [(0xD0000014, 20)], [0xD0000014], vfsInitMounts smallMounts⟩ (.mount smallMount)
      ⟨w, [(0xD0000014, 20)], [0xD0000014], (smallBoot answers).mounts⟩ :=
    .mount rfl fun _ => Or.inr (List.mem_cons_self ..)
  have hrun := (Run.single hcreated).append (Run.single hmount)
  rw [← hworld] at hrun
  exact hrun

/-- A device that fails all reads but the first. -/
def onlyFirst (n : Nat) : Bool := n == 0

theorem smallBoot_onlyFirst :
    Run (BootStep (smallBlocks onlyFirst)) (bootStart ⟨fun _ => 0, []⟩ 0 smallMounts)
      [.create 0x1000 0, .mount smallMount] (smallBoot onlyFirst) :=
  smallBoot_run onlyFirst (by decide +kernel)

end PyramidFs
