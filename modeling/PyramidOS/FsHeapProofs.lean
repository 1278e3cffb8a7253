import PyramidOS.FsProofs
import PyramidOS.HeapClientProofs

/-! # The filesystems own their heap blocks

    Who owns which block: an open file owns its context, and a PyFS file also
    the cache its context names (`fileBlocks`); a mounted PyFS context belongs
    to whoever made it.  Each callback, called by the owner of a file, returns,
    leaves the blocks of the file's next state owned by it, and keeps the data
    of everybody else:

    * `openFn_opens`, `readFn_reads`, `closeFn_closes`. -/

namespace PyramidFs

open ByteMem PyramidString PyramidKernel PyramidHeap PyramidBlock PyramidVfs BlockTiling

variable {B : Blocks} {bs₀ : List Block} {w w' : World} {m m' : Mem}
  {base live : List (Nat × Nat)} {file : VfsFile FileOps} {fctx fs : Nat}

/-! ## Ownership -/

/-- The heap blocks an open file owns. -/
def fileBlocks (m : Mem) (file : VfsFile FileOps) : List (Nat × Nat) :=
  match file.ops with
  | none => []
  | some .pyfsFile => (file.fileCtx, sizeofPyfsFileCtx) ::
      if fctxCache m file.fileCtx = 0 then []
      else [(fctxCache m file.fileCtx, pyfsBlockSize)]
  | some _ => [(file.fileCtx, sizeofDevFsFileCtx)]

/-- A PyFS context, among the objects `base`, over a device that can be read. -/
structure PyfsCtx (B : Blocks) (base : List (Nat × Nat)) (m : Mem) (fs : Nat) : Prop where
  owned : (fs, sizeofPyfsCtx) ∈ base
  readable : (B.device (pyfsDev m fs)).read ≠ none

/-- The contexts of an open file hold what its operations expect. -/
def FileOk (B : Blocks) (base : List (Nat × Nat)) (m : Mem) (file : VfsFile FileOps) : Prop :=
  match file.ops with
  | none => False
  | some .pyfsFile => PyfsCtx B base m (fctxFs m file.fileCtx)
      ∧ fctxFileId m file.fileCtx = pyfsFileSuperblock
  | some .devfsBlock => devKind m file.fileCtx = devfsKindBlock
      ∧ Registered B.toRegistry (devBlk m file.fileCtx)
  | some _ => True

theorem PyfsCtx.keeps (h : PyfsCtx B base m fs) (hk : Keeps base m m') :
    PyfsCtx B base m' fs := by
  have hdev : pyfsDev m' fs = pyfsDev m fs := hk.load32 h.owned 0 (by decide)
  refine ⟨h.owned, ?_⟩
  rw [hdev]
  exact h.readable

theorem PyfsCtx.mono (h : PyfsCtx B base m fs) (howned : (fs, sizeofPyfsCtx) ∈ live) :
    PyfsCtx B live m fs :=
  ⟨howned, h.readable⟩

/-- While the context of a PyFS file is kept, so are its fields. -/
theorem fctx_keeps (hk : Keeps live m m') (hctx : (fctx, sizeofPyfsFileCtx) ∈ live) :
    fctxFs m' fctx = fctxFs m fctx ∧ fctxFileId m' fctx = fctxFileId m fctx
      ∧ fctxCache m' fctx = fctxCache m fctx :=
  ⟨hk.load32 hctx 0 (by decide), hk.load32 hctx 4 (by decide), hk.load32 hctx 8 (by decide)⟩

/-- While its context is kept a file owns the same blocks. -/
theorem fileBlocks_keeps (hk : Keeps live m m') (hsub : ∀ l ∈ fileBlocks m file, l ∈ live) :
    fileBlocks m' file = fileBlocks m file := by
  unfold fileBlocks at hsub ⊢
  cases hops : file.ops with
  | none => rfl
  | some ops =>
    cases ops with
    | pyfsFile =>
      simp only [hops] at hsub ⊢
      obtain ⟨-, -, hcache⟩ := fctx_keeps hk (hsub _ (List.mem_cons_self ..))
      rw [hcache]
    | devfsNull => rfl
    | devfsZero => rfl
    | devfsBlock => rfl

/-- And its contexts hold what they did. -/
theorem FileOk.keeps (h : FileOk B base m file) (hk : Keeps live m m')
    (hsub : ∀ l ∈ fileBlocks m file, l ∈ live) (hbase : ∀ l ∈ base, l ∈ live) :
    FileOk B base m' file := by
  unfold FileOk fileBlocks at *
  cases hops : file.ops with
  | none =>
    simp only [hops] at h
  | some ops =>
    simp only [hops] at h hsub ⊢
    cases ops with
    | pyfsFile =>
      obtain ⟨hfs, hid⟩ := h
      obtain ⟨hfs', hid', -⟩ := fctx_keeps hk (hsub _ (List.mem_cons_self ..))
      refine ⟨?_, hid'.trans hid⟩
      rw [hfs']
      exact hfs.keeps (hk.mono hbase)
    | devfsBlock =>
      obtain ⟨hkind, hblk⟩ := h
      have hctx := hsub _ (List.mem_cons_self ..)
      have hkind' : devKind m' file.fileCtx = devKind m file.fileCtx :=
        hk.load32 hctx 0 (by decide)
      have hblk' : devBlk m' file.fileCtx = devBlk m file.fileCtx :=
        hk.load32 hctx 4 (by decide)
      rw [hkind', hblk']
      exact ⟨hkind, hblk⟩
    | devfsNull => trivial
    | devfsZero => trivial

/-- A file in order has operations. -/
theorem FileOk.ops (h : FileOk B base m file) : ∃ ops, file.ops = some ops := by
  cases hops : file.ops with
  | none =>
    rw [FileOk, hops] at h
    exact h.elim
  | some ops => exact ⟨ops, rfl⟩

/-! ## Opening -/

/-- What an open callback does: it returns, and either fails and owns nothing
    new, or leaves a file with blocks of its own. -/
def Opens (B : Blocks) (bs₀ : List Block) (base live : List (Nat × Nat)) (w : World)
    (call : Except Halt (Nat × World × VfsFile FileOps)) : Prop :=
  ∃ rc w' file', call = .ok (rc, w', file') ∧ Keeps live w.mem w'.mem
    ∧ ((rc ≠ vfsOk ∧ Owns bs₀ w'.heap live)
      ∨ (rc = vfsOk ∧ FileOk B base w'.mem file'
        ∧ Owns bs₀ w'.heap (fileBlocks w'.mem file' ++ live)))

theorem Opens.fails (ho : Owns bs₀ w.heap live) {rc : Nat} (hrc : rc ≠ vfsOk)
    (file : VfsFile FileOps) : Opens B bs₀ base live w (.ok (rc, w, file)) :=
  ⟨rc, w, file, rfl, Keeps.refl _ _, Or.inl ⟨hrc, ho⟩⟩

theorem devfsNode_opens (ho : Owns bs₀ w.heap live) {ops : FileOps} (hops : ops ≠ .pyfsFile)
    {kind blk : Nat} (hkind : kind < 2 ^ 32) (hblk : blk < 2 ^ 32)
    (hblock : ops = .devfsBlock → kind = devfsKindBlock ∧ Registered B.toRegistry blk) :
    Opens B bs₀ base live w (devfsNode w ops kind blk file) := by
  obtain ⟨ctx, h', hok, hk, hcase⟩ := ho.alloc sizeofDevFsFileCtx (by decide)
  rw [devfsNode, hok]
  rcases hcase with ⟨rfl, ho'⟩ | ⟨hctx, ho'⟩
  · exact ⟨vfsErrNoSpace, { w with heap := h' }, file, rfl, hk, Or.inl ⟨by decide, ho'⟩⟩
  · -- the two stores stay in the new context
    have hw : WritesIn (InRange (ctx, sizeofDevFsFileCtx)) h'.mem
        ((h'.mem.store32 ctx kind).store32 (ctx + 4) blk) :=
      ((WritesIn.refl _ _).store32 kind (inRange_word 0 (by decide))).store32 blk
        (inRange_word 4 (by decide))
    obtain ⟨hk', ho''⟩ := ho'.write hw
    have hkind' : devKind ((h'.mem.store32 ctx kind).store32 (ctx + 4) blk) ctx = kind := by
      rw [devKind, load32_store32_ne (Or.inl (Nat.le_refl _)), load32_store32_self]
      exact Nat.mod_eq_of_lt hkind
    have hblk' : devBlk ((h'.mem.store32 ctx kind).store32 (ctx + 4) blk) ctx = blk := by
      rw [devBlk, load32_store32_self]
      exact Nat.mod_eq_of_lt hblk
    refine ⟨vfsOk, _, ⟨some ops, ctx, 0, 0⟩, if_neg hctx, hk.trans hk', Or.inr ⟨rfl, ?_, ?_⟩⟩
    · cases ops with
      | pyfsFile => exact absurd rfl hops
      | devfsBlock =>
        obtain ⟨hk2, hreg⟩ := hblock rfl
        exact ⟨hkind'.trans hk2, hblk'.symm ▸ hreg⟩
      | devfsNull => trivial
      | devfsZero => trivial
    · cases ops with
      | pyfsFile => exact absurd rfl hops
      | devfsBlock => exact ho''
      | devfsNull => exact ho''
      | devfsZero => exact ho''

theorem devfsOpen_opens (ho : Owns bs₀ w.heap live) (path : List UInt8) (flags : Nat) :
    Opens B bs₀ base live w (devfsOpen B w path flags file) := by
  rw [devfsOpen]
  by_cases hflags : flags &&& vfsOpenWrite ≠ 0
  · rw [if_pos hflags]
    exact .fails ho (by decide) file
  rw [if_neg hflags]
  by_cases hnull : strcmp path nullName = 0
  · rw [if_pos hnull]
    exact devfsNode_opens ho (by decide) (by decide) (by decide) fun hc => nomatch hc
  rw [if_neg hnull]
  by_cases hzero : strcmp path zeroName = 0
  · rw [if_pos hzero]
    exact devfsNode_opens ho (by decide) (by decide) (by decide) fun hc => nomatch hc
  rw [if_neg hzero]
  by_cases hdisk : strncmp path diskPrefix 4 = 0
  · rw [if_pos hdisk]
    by_cases hdev : blockGetByName B.toRegistry path = 0
    · simp only [hdev, if_true]
      exact .fails ho (by decide) file
    · simp only [hdev, if_false]
      have hreg := blockGetByName_registered B.valid hdev
      exact devfsNode_opens ho (by decide) (by decide) hreg.pointer fun _ => ⟨rfl, hreg⟩
  · rw [if_neg hdisk]
    exact .fails ho (by decide) file

theorem pyfsOpen_opens (ho : Owns bs₀ w.heap live) (hbase : ∀ l ∈ base, l ∈ live)
    (hfs : fs ≠ 0 → PyfsCtx B base w.mem fs) (path : List UInt8) (flags : Nat) :
    Opens B bs₀ base live w (pyfsOpen w fs path flags file) := by
  rw [pyfsOpen]
  by_cases hnull : fs = 0
  · rw [if_pos hnull]
    exact .fails ho (by decide) file
  rw [if_neg hnull]
  by_cases hflags : flags &&& vfsOpenWrite ≠ 0
  · rw [if_pos hflags]
    exact .fails ho (by decide) file
  rw [if_neg hflags]
  by_cases hname : strcmp path superblockName ≠ 0
  · rw [if_pos hname]
    exact .fails ho (by decide) file
  rw [if_neg hname]
  have hctx := hfs hnull
  obtain ⟨fctx, h', hok, hk, hcase⟩ := ho.alloc sizeofPyfsFileCtx (by decide)
  rw [hok]
  rcases hcase with ⟨rfl, ho'⟩ | ⟨hfctx, ho'⟩
  · exact ⟨vfsErrNoSpace, { w with heap := h' }, file, rfl, hk, Or.inl ⟨by decide, ho'⟩⟩
  · obtain ⟨m, hm⟩ : ∃ m, ((h'.mem.store32 fctx fs).store32 (fctx + 4)
        pyfsFileSuperblock).store32 (fctx + 8) 0 = m := ⟨_, rfl⟩
    -- the three stores stay in the new context
    have hw : WritesIn (InRange (fctx, sizeofPyfsFileCtx)) h'.mem m := by
      rw [← hm]
      exact (((WritesIn.refl _ _).store32 fs (inRange_word 0 (by decide))).store32
        pyfsFileSuperblock (inRange_word 4 (by decide))).store32 0 (inRange_word 8 (by decide))
    obtain ⟨hk', ho''⟩ := ho'.write hw
    have hfs' : fctxFs m fctx = fs := by
      have hbounds := ho.bounds (hbase _ hctx.owned)
      rw [← hm, fctxFs, load32_store32_ne (by omega), load32_store32_ne (by omega),
        load32_store32_self]
      exact Nat.mod_eq_of_lt (by omega)
    have hid : fctxFileId m fctx = pyfsFileSuperblock := by
      rw [← hm, fctxFileId, load32_store32_ne (by omega), load32_store32_self]
      rfl
    have hcache : fctxCache m fctx = 0 := by
      rw [← hm, fctxCache, load32_store32_self]
      rfl
    refine ⟨vfsOk, World.withMem { w with heap := h' } m, ⟨some .pyfsFile, fctx, pyfsBlockSize, 0⟩,
      ?_, hk.trans hk', Or.inr ⟨rfl, ⟨?_, hid⟩, ?_⟩⟩
    · rw [← hm]
      exact if_neg hfctx
    · show PyfsCtx B base m (fctxFs m fctx)
      rw [hfs']
      exact hctx.keeps ((hk.trans hk').mono hbase)
    · show Owns bs₀ _
        (((fctx, sizeofPyfsFileCtx) :: if fctxCache m fctx = 0 then [] else _) ++ live)
      rw [if_pos hcache]
      exact ho''

/-- **OPENING**, in whichever filesystem. -/
theorem openFn_opens (ho : Owns bs₀ w.heap live) (hbase : ∀ l ∈ base, l ∈ live) (ops : FsType)
    (hfs : ops = .pyfs → fs ≠ 0 → PyfsCtx B base w.mem fs) (path : List UInt8) (flags : Nat)
    (file : VfsFile FileOps) :
    Opens B bs₀ base live w ((fsCalls B).openFn ops w fs path flags file) := by
  cases ops with
  | nullfs => exact .fails ho (by decide) file
  | devfs => exact devfsOpen_opens ho path flags
  | pyfs => exact pyfsOpen_opens ho hbase (hfs rfl) path flags

/-! ## Reading -/

/-- What the fill of the cache did: nothing, as there was one; nothing, as there
    was no memory; or one read of the device into a new cache. -/
inductive Filled (B : Blocks) (w : World) (fctx : Nat) : Nat → World → Prop where
  | cached (hcache : fctxCache w.mem fctx ≠ 0) : Filled B w fctx vfsOk w
  | noSpace {w' : World} (hempty : fctxCache w.mem fctx = 0)
      (hfs : fctxFs w'.mem fctx = fctxFs w.mem fctx)
      (hempty' : fctxCache w'.mem fctx = 0) : Filled B w fctx vfsErrNoSpace w'
  | read {w' : World} {read : Nat → Nat → Reply} {p : Nat} {h : Heap}
      (hempty : fctxCache w.mem fctx = 0)
      (hread : (B.device (pyfsDev w.mem (fctxFs w.mem fctx))).read = some read)
      (halloc : kmalloc w.heap pyfsBlockSize = .ok (p, h)) (hp : p ≠ 0)
      (hfs : fctxFs w'.mem fctx = fctxFs w.mem fctx) (hcache : fctxCache w'.mem fctx = p)
      (hbytes : ∀ k, k < (read w.reads pyfsSuperblockLba).bytes.length →
        w'.mem.byte (p + k) = (read w.reads pyfsSuperblockLba).bytes.getD k 0) :
      Filled B w fctx (if (read w.reads pyfsSuperblockLba).ok then vfsOk else vfsErrIo) w'

/-- What a read leaves: everybody's data, and the file with its blocks. -/
structure Holds (B : Blocks) (bs₀ : List Block) (base live : List (Nat × Nat)) (w w' : World)
    (file : VfsFile FileOps) : Prop where
  keeps : Keeps live w.mem w'.mem
  ok : FileOk B base w'.mem file
  owns : Owns bs₀ w'.heap (fileBlocks w'.mem file ++ live)

theorem Holds.refl (hf : FileOk B base w.mem file)
    (ho : Owns bs₀ w.heap (fileBlocks w.mem file ++ live)) : Holds B bs₀ base live w w file :=
  ⟨.refl _ _, hf, ho⟩

theorem fileBlocks_pyfs (hops : file.ops = some .pyfsFile) (m : Mem) :
    fileBlocks m file = (file.fileCtx, sizeofPyfsFileCtx) ::
      if fctxCache m file.fileCtx = 0 then []
      else [(fctxCache m file.fileCtx, pyfsBlockSize)] := by
  rw [fileBlocks, hops]

theorem fileOk_pyfs (hops : file.ops = some .pyfsFile) {m : Mem} :
    FileOk B base m file ↔ PyfsCtx B base m (fctxFs m file.fileCtx)
      ∧ fctxFileId m file.fileCtx = pyfsFileSuperblock := by
  rw [FileOk, hops]

/-- A PyFS file stays in order while its fields but the cache, and the PyFS
    contexts, are kept. -/
theorem FileOk.pyfs_congr (h : FileOk B base m file) (hops : file.ops = some .pyfsFile)
    (hk : Keeps base m m') (hfs : fctxFs m' file.fileCtx = fctxFs m file.fileCtx)
    (hid : fctxFileId m' file.fileCtx = fctxFileId m file.fileCtx) : FileOk B base m' file := by
  obtain ⟨hctx, hfile⟩ := (fileOk_pyfs hops).mp h
  refine (fileOk_pyfs hops).mpr ⟨?_, hid.trans hfile⟩
  rw [hfs]
  exact hctx.keeps hk

/-- A new cache pointer is the only field that changes. -/
theorem fctx_setCache (m : Mem) (fctx : Nat) {p : Nat} (hp : p < 2 ^ 32) :
    fctxFs (m.store32 (fctx + 8) p) fctx = fctxFs m fctx
      ∧ fctxFileId (m.store32 (fctx + 8) p) fctx = fctxFileId m fctx
      ∧ fctxCache (m.store32 (fctx + 8) p) fctx = p := by
  refine ⟨load32_store32_ne (by omega), load32_store32_ne (by omega), ?_⟩
  rw [fctxCache, load32_store32_self, Nat.mod_eq_of_lt hp]

theorem pyfsFillCache_null {h : Heap} (hempty : fctxCache w.mem fctx = 0)
    (hok : kmalloc w.heap pyfsBlockSize = .ok (0, h)) :
    pyfsFillCache B w fctx
      = .ok (vfsErrNoSpace, ⟨⟨h.mem.store32 (fctx + 8) 0, h.startHeader⟩, w.reads⟩) := by
  rw [pyfsFillCache, if_neg (not_not.mpr hempty), hok]
  rfl

theorem pyfsFillCache_read {h : Heap} {p : Nat} {read : Nat → Nat → Reply}
    (hempty : fctxCache w.mem fctx = 0) (hok : kmalloc w.heap pyfsBlockSize = .ok (p, h))
    (hp : p ≠ 0) (hm : h.mem.store32 (fctx + 8) p = m)
    (hread : (B.device (pyfsDev m (fctxFs m fctx))).read = some read) :
    pyfsFillCache B w fctx
      = .ok (if (read w.reads pyfsSuperblockLba).ok then vfsOk else vfsErrIo,
          ⟨⟨m.storeBytes p (read w.reads pyfsSuperblockLba).bytes, h.startHeader⟩,
            w.reads + 1⟩) := by
  subst hm
  rw [pyfsFillCache, if_neg (not_not.mpr hempty), hok]
  refine (if_neg hp).trans ?_
  simp only [World.withMem, World.mem, hread]
  rfl

/-- The store of the pointer `p` to a new cache, in the heap that `kmalloc` left:
    the file stays in order, and its context names the cache. -/
theorem FileOk.setCache (hf : FileOk B base w.mem file) (hops : file.ops = some .pyfsFile)
    (hbase : ∀ l ∈ base, l ∈ live) {p : Nat} (hp : p < 2 ^ 32)
    (hk : Keeps ((file.fileCtx, sizeofPyfsFileCtx) :: live) w.mem m)
    (hk' : Keeps live m (m.store32 (file.fileCtx + 8) p)) :
    FileOk B base (m.store32 (file.fileCtx + 8) p) file
      ∧ fctxFs (m.store32 (file.fileCtx + 8) p) file.fileCtx = fctxFs w.mem file.fileCtx
      ∧ fctxCache (m.store32 (file.fileCtx + 8) p) file.fileCtx = p
      ∧ Keeps live w.mem (m.store32 (file.fileCtx + 8) p) := by
  obtain ⟨hfs, hid, -⟩ := fctx_keeps hk (List.mem_cons_self ..)
  obtain ⟨hfs', hid', hcache⟩ := fctx_setCache m file.fileCtx hp
  have hkeeps := (hk.mono fun l hl => List.mem_cons_of_mem _ hl).trans hk'
  exact ⟨hf.pyfs_congr hops (hkeeps.mono hbase) (hfs'.trans hfs) (hid'.trans hid),
    hfs'.trans hfs, hcache, hkeeps⟩

/-- **THE FILL OF THE CACHE** returns, and what it allocates the file owns. -/
theorem pyfsFillCache_spec (hops : file.ops = some .pyfsFile) (hf : FileOk B base w.mem file)
    (ho : Owns bs₀ w.heap (fileBlocks w.mem file ++ live)) (hbase : ∀ l ∈ base, l ∈ live) :
    ∃ rc w', pyfsFillCache B w file.fileCtx = .ok (rc, w') ∧ Holds B bs₀ base live w w' file
      ∧ Filled B w file.fileCtx rc w' := by
  by_cases hcache : fctxCache w.mem file.fileCtx = 0
  · have hctx : fileBlocks w.mem file ++ live = (file.fileCtx, sizeofPyfsFileCtx) :: live := by
      rw [fileBlocks_pyfs hops, if_pos hcache]
      rfl
    rw [hctx] at ho
    obtain ⟨p, h, hok, hk, hcase⟩ := ho.alloc pyfsBlockSize (by decide)
    -- the pointer to the cache is stored in the context
    have hw : WritesIn (InRange (file.fileCtx, sizeofPyfsFileCtx)) h.mem
        (h.mem.store32 (file.fileCtx + 8) p) :=
      (WritesIn.refl _ _).store32 p (inRange_word 8 (by decide))
    rcases hcase with ⟨rfl, ho'⟩ | ⟨hp, ho'⟩
    · obtain ⟨hk', ho''⟩ := ho'.write hw
      obtain ⟨hf', hfs, hcache', hkeeps⟩ := hf.setCache hops hbase (by decide) hk hk'
      rw [pyfsFillCache_null hcache hok]
      refine ⟨_, _, rfl, ⟨hkeeps, hf', ?_⟩, .noSpace hcache hfs hcache'⟩
      show Owns bs₀ ⟨_, h.startHeader⟩ (fileBlocks (h.mem.store32 _ 0) file ++ live)
      rw [fileBlocks_pyfs hops, if_pos hcache']
      exact ho''
    · have hp32 : p < 2 ^ 32 := by
        have hbounds := ho'.bounds (List.mem_cons_self ..)
        omega
      obtain ⟨hk', ho''⟩ := (ho'.perm (List.Perm.swap ..)).write hw
      obtain ⟨hf', hfs, hcache', hkeeps⟩ := hf.setCache hops hbase hp32 hk
        (hk'.mono fun l hl => List.mem_cons_of_mem _ hl)
      obtain ⟨m, hm⟩ : ∃ m, h.mem.store32 (file.fileCtx + 8) p = m := ⟨_, rfl⟩
      rw [hm] at hf' hfs hcache' hkeeps ho''
      obtain ⟨hfsctx, -⟩ := (fileOk_pyfs hops).mp hf'
      have hdev : pyfsDev m (fctxFs m file.fileCtx)
          = pyfsDev w.mem (fctxFs w.mem file.fileCtx) := by
        rw [hfs] at hfsctx ⊢
        exact hkeeps.load32 (hbase _ hfsctx.owned) 0 (by decide)
      obtain ⟨read, hread⟩ := Option.ne_none_iff_exists'.mp hfsctx.readable
      obtain ⟨reply, hreply⟩ : ∃ reply, read w.reads pyfsSuperblockLba = reply := ⟨_, rfl⟩
      -- the device's bytes are stored in the cache
      have hw' : WritesIn (InRange (p, pyfsBlockSize)) m (m.storeBytes p reply.bytes) := by
        exact (WritesIn.refl _ _).storeBytes fun i hi =>
          inRange_add (Nat.lt_of_lt_of_le hi reply.fits)
      obtain ⟨hk2, ho2⟩ := (ho''.perm (List.Perm.swap ..)).write hw'
      have hbytes : ∀ k, k < reply.bytes.length →
          (m.storeBytes p reply.bytes).byte (p + k) = reply.bytes.getD k 0 := by
        intro k hk
        rw [byte_storeBytes, if_pos ⟨Nat.le_add_right .., Nat.add_lt_add_left hk p⟩,
          Nat.add_sub_cancel_left]
      obtain ⟨hfs2, hid2, hcache2⟩ := fctx_keeps hk2 (List.mem_cons_self ..)
      have hlive2 := hk2.mono fun l hl => List.mem_cons_of_mem _ hl
      subst hreply
      refine ⟨_, _, pyfsFillCache_read hcache hok hp hm hread, ⟨hkeeps.trans hlive2, ?_, ?_⟩,
        .read hcache (hdev ▸ hread) hok hp (hfs2.trans hfs) (hcache2.trans hcache') hbytes⟩
      · exact hf'.pyfs_congr hops (hlive2.mono hbase) hfs2 hid2
      · show Owns bs₀ ⟨_, h.startHeader⟩ (fileBlocks (m.storeBytes p _) file ++ live)
        rw [fileBlocks_pyfs hops, hcache2.trans hcache', if_neg hp]
        exact ho2.perm (List.Perm.swap ..)
  · refine ⟨vfsOk, w, ?_, .refl hf ho, .cached hcache⟩
    rw [pyfsFillCache]
    exact if_pos hcache

/-- What a read callback does: it returns, and the file has its blocks. -/
def Reads (B : Blocks) (bs₀ : List Block) (base live : List (Nat × Nat)) (w : World)
    (file : VfsFile FileOps) (call : Except Halt (ReadResult World FileOps)) : Prop :=
  ∃ r, call = .ok r ∧ Holds B bs₀ base live w r.world file

/-- A read that leaves the heap and the file alone. -/
def LeavesHeap (w : World) (file : VfsFile FileOps)
    (call : Except Halt (ReadResult World FileOps)) : Prop :=
  ∃ rc reads buffer outRead, rc ≠ vfsErrBadFd
    ∧ call = .ok ⟨rc, { w with reads := reads }, file, buffer, outRead⟩

theorem leavesHeap_ok {rc : Nat} (hrc : rc ≠ vfsErrBadFd) (reads : Nat)
    (buffer : Option Buffer) (outRead : Nat) :
    LeavesHeap w file (.ok ⟨rc, { w with reads := reads }, file, buffer, outRead⟩) :=
  ⟨rc, reads, buffer, outRead, hrc, rfl⟩

theorem LeavesHeap.reads {call : Except Halt (ReadResult World FileOps)}
    (h : LeavesHeap w file call) (hf : FileOk B base w.mem file)
    (ho : Owns bs₀ w.heap (fileBlocks w.mem file ++ live)) :
    Reads B bs₀ base live w file call := by
  obtain ⟨rc, reads, buffer, outRead, -, hcall⟩ := h
  exact ⟨_, hcall, .refl _ _, hf, ho⟩

theorem devfsReadZero_leavesHeap (buffer : Option Buffer) (size outRead : Nat) :
    LeavesHeap w file (devfsReadZero w file buffer size outRead) := by
  cases buffer with
  | some buf => exact leavesHeap_ok (by decide) ..
  | none =>
    rw [devfsReadZero]
    by_cases hsize : size > 0
    · rw [if_pos hsize]
      exact leavesHeap_ok (by decide) ..
    · rw [if_neg hsize]
      exact leavesHeap_ok (by decide) ..

theorem devfsReadBlock_leavesHeap (offset : Nat) (buffer : Option Buffer)
    (size outRead : Nat) :
    LeavesHeap w file (devfsReadBlock B w file offset buffer size outRead) := by
  cases buffer with
  | none => exact leavesHeap_ok (by decide) ..
  | some buf =>
    rw [devfsReadBlock]
    by_cases hctx : file.fileCtx = 0 ∨ devKind w.mem file.fileCtx ≠ devfsKindBlock
        ∨ devBlk w.mem file.fileCtx = 0
    · simp only [hctx, if_true]
      exact leavesHeap_ok (by decide) ..
    simp only [hctx, if_false]
    generalize B.device (devBlk w.mem file.fileCtx) = dev
    cases dev.read with
    | none => exact leavesHeap_ok (by decide) ..
    | some read =>
      by_cases hoff : offset % dev.sectorSize = 0
      · by_cases hsize : size % dev.sectorSize = 0
        · simp only [hoff, hsize, ne_eq, not_true_eq_false, if_false]
          generalize devfsReadLoop read _ _ _ 0 w.reads buf = r
          obtain ⟨failed, reads, buf'⟩ := r
          cases failed with
          | none => exact leavesHeap_ok (by decide) ..
          | some i => exact leavesHeap_ok (by decide) ..
        · simp only [hoff, hsize, ne_eq, not_true_eq_false, not_false_eq_true, if_false, if_true]
          exact leavesHeap_ok (by decide) ..
      · simp only [hoff, ne_eq, not_false_eq_true, if_true]
        exact leavesHeap_ok (by decide) ..

/-- The outcomes of `pyfs_file_read`: a refusal, a cache that could not be filled,
    or a copy out of the cache up to the end of the sector. -/
inductive PyfsRead (B : Blocks) (w : World) (file : VfsFile FileOps) (offset : Nat)
    (buf : Buffer) (size : Nat) : ReadResult World FileOps → Prop where
  | refused {rc out : Nat} (hrc : rc ≠ vfsOk) :
      PyfsRead B w file offset buf size ⟨rc, w, file, some buf, out⟩
  | notFilled {rc out : Nat} {w' : World} (hfilled : Filled B w file.fileCtx rc w')
      (hrc : rc ≠ vfsOk) : PyfsRead B w file offset buf size ⟨rc, w', file, some buf, out⟩
  | copied {buf' : Buffer} {w' : World} (hfilled : Filled B w file.fileCtx vfsOk w')
      (hbuf : ∀ k, k < min size (pyfsBlockSize - offset) →
        buf' k = w'.mem.byte (fctxCache w'.mem file.fileCtx + offset + k)) :
      PyfsRead B w file offset buf size
        ⟨vfsOk, w', file, some buf', min size (pyfsBlockSize - offset)⟩

/-- **`pyfs_file_read`**. -/
theorem pyfsFileRead_spec (hops : file.ops = some .pyfsFile) (hf : FileOk B base w.mem file)
    (ho : Owns bs₀ w.heap (fileBlocks w.mem file ++ live)) (hbase : ∀ l ∈ base, l ∈ live)
    (offset : Nat) (buf : Buffer) (size outRead : Nat) :
    ∃ r, pyfsFileRead B w file offset (some buf) size outRead = .ok r
      ∧ Holds B bs₀ base live w r.world file ∧ PyfsRead B w file offset buf size r := by
  have hholds : Holds B bs₀ base live w w file := .refl hf ho
  rw [pyfsFileRead]
  by_cases hctx : file.fileCtx = 0 ∨ fctxFs w.mem file.fileCtx = 0
  · simp only [hctx, if_true]
    exact ⟨_, rfl, hholds, .refused (by decide)⟩
  simp only [hctx, if_false]
  by_cases hid : fctxFileId w.mem file.fileCtx ≠ pyfsFileSuperblock
  · rw [if_pos hid]
    exact ⟨_, rfl, hholds, .refused (by decide)⟩
  rw [if_neg hid]
  obtain ⟨rc, w', hok, hholds', hfilled⟩ := pyfsFillCache_spec hops hf ho hbase
  rw [hok]
  by_cases hfail : rc ≠ vfsOk
  · exact ⟨_, if_pos hfail, hholds', .notFilled hfilled hfail⟩
  have hrc := not_not.mp hfail
  rw [hrc] at hfilled
  by_cases hoff : offset ≥ pyfsBlockSize
  · refine ⟨_, (if_neg hfail).trans (if_pos hoff), hholds', ?_⟩
    have hzero : min size (pyfsBlockSize - offset) = 0 := by
      rw [Nat.sub_eq_zero_of_le hoff, Nat.min_zero]
    have hread : PyfsRead B w file offset buf size
        ⟨vfsOk, w', file, some buf, min size (pyfsBlockSize - offset)⟩ :=
      .copied hfilled fun k hk => absurd hk (by omega)
    rw [hzero] at hread
    exact hread
  · refine ⟨_, (if_neg hfail).trans (if_neg hoff), hholds', ?_⟩
    have hmin : (if size < pyfsBlockSize - offset then size else pyfsBlockSize - offset)
        = min size (pyfsBlockSize - offset) := by
      rw [Nat.min_def]
      split <;> split <;> omega
    simp only [hmin]
    exact .copied hfilled fun k hk => if_pos hk

theorem pyfsFileRead_reads (hops : file.ops = some .pyfsFile) (hf : FileOk B base w.mem file)
    (ho : Owns bs₀ w.heap (fileBlocks w.mem file ++ live)) (hbase : ∀ l ∈ base, l ∈ live)
    (offset : Nat) (buffer : Option Buffer) (size outRead : Nat) :
    Reads B bs₀ base live w file (pyfsFileRead B w file offset buffer size outRead) := by
  cases buffer with
  | none => exact ⟨_, rfl, .refl hf ho⟩
  | some buf =>
    obtain ⟨r, hcall, hholds, -⟩ := pyfsFileRead_spec hops hf ho hbase offset buf size outRead
    exact ⟨r, hcall, hholds⟩

/-- **READING**, whatever the file. -/
theorem readFn_reads {ops : FileOps} (hops : file.ops = some ops)
    (hf : FileOk B base w.mem file) (ho : Owns bs₀ w.heap (fileBlocks w.mem file ++ live))
    (hbase : ∀ l ∈ base, l ∈ live) (offset : Nat) (buffer : Option Buffer)
    (size outRead : Nat) :
    Reads B bs₀ base live w file
      ((fsCalls B).readFn ops w file offset buffer size outRead) := by
  cases ops with
  | devfsNull => exact (leavesHeap_ok (by decide) ..).reads hf ho
  | devfsZero => exact (devfsReadZero_leavesHeap ..).reads hf ho
  | devfsBlock => exact (devfsReadBlock_leavesHeap ..).reads hf ho
  | pyfsFile => exact pyfsFileRead_reads hops hf ho hbase offset buffer size outRead

/-! ## Closing -/

/-- What a close callback does: it returns and frees the blocks of the file. -/
def Closes (bs₀ : List Block) (live : List (Nat × Nat)) (w : World)
    (call : Except Halt (Nat × World × VfsFile FileOps)) : Prop :=
  ∃ rc w' file', call = .ok (rc, w', file') ∧ Keeps live w.mem w'.mem ∧ Owns bs₀ w'.heap live

theorem devfsClose_closes (hcov : Covers live bs₀) {n : Nat}
    (ho : Owns bs₀ w.heap ((file.fileCtx, n) :: live)) :
    Closes bs₀ live w (devfsClose w file) := by
  have hbounds := ho.bounds (List.mem_cons_self ..)
  obtain ⟨h', hok, hk, ho'⟩ := ho.free hcov
  refine ⟨vfsOk, { w with heap := h' }, .blank, ?_, hk, ho'⟩
  rw [devfsClose, if_pos (by omega), hok]
  rfl

theorem pyfsFileClose_closes (hcov : Covers live bs₀) (hops : file.ops = some .pyfsFile)
    (ho : Owns bs₀ w.heap (fileBlocks w.mem file ++ live)) :
    Closes bs₀ live w (pyfsFileClose w file) := by
  rw [fileBlocks_pyfs hops] at ho
  have hctx : file.fileCtx ≠ 0 := by
    have hbounds := ho.bounds (List.mem_cons_self ..)
    omega
  by_cases hcache : fctxCache w.mem file.fileCtx = 0
  · rw [if_pos hcache] at ho
    obtain ⟨h', hok, hk, ho'⟩ := Owns.free ho hcov
    refine ⟨vfsOk, { w with heap := h' }, .blank, ?_, hk, ho'⟩
    refine (if_pos hctx).trans ((if_neg (not_not.mpr hcache)).trans ?_)
    show (kfree w.heap file.fileCtx >>= _) = _
    rw [hok]
    rfl
  · rw [if_neg hcache] at ho
    -- the cache goes first
    obtain ⟨h1, hok1, hk1, ho1⟩ := (ho.perm (List.Perm.swap ..)).free fun b hb => by
      obtain ⟨n, hn⟩ := hcov b hb
      exact ⟨n, List.mem_cons_of_mem _ hn⟩
    obtain ⟨h2, hok2, hk2, ho2⟩ := ho1.free hcov
    refine ⟨vfsOk, { w with heap := h2 }, .blank, ?_,
      (hk1.mono fun l hl => List.mem_cons_of_mem _ hl).trans hk2, ho2⟩
    refine (if_pos hctx).trans ((if_pos hcache).trans ?_)
    rw [hok1]
    show (kfree h1 file.fileCtx >>= _) = _
    rw [hok2]
    rfl

/-- **CLOSING**, whatever the file. -/
theorem closeFn_closes (hcov : Covers live bs₀) {ops : FileOps} (hops : file.ops = some ops)
    (ho : Owns bs₀ w.heap (fileBlocks w.mem file ++ live)) :
    Closes bs₀ live w ((fsCalls B).closeFn ops w file) := by
  rw [fileBlocks, hops] at ho
  cases ops with
  | devfsNull => exact devfsClose_closes hcov ho
  | devfsZero => exact devfsClose_closes hcov ho
  | devfsBlock => exact devfsClose_closes hcov ho
  | pyfsFile =>
    refine pyfsFileClose_closes hcov hops ?_
    rw [fileBlocks, hops]
    exact ho

/-! ## Creating a PyFS -/

/-- What the probe does: it stores into the context past its `dev` field, and
    only a device that can be read passes it. -/
structure Probes (B : Blocks) (w : World) (fs : Nat) (r : Nat × World) : Prop where
  start : r.2.heap.startHeader = w.heap.startHeader
  writes : WritesIn (InRange (fs, sizeofPyfsCtx)) w.mem r.2.mem
  dev : pyfsDev r.2.mem fs = pyfsDev w.mem fs
  readable : r.1 = 0 → (B.device (pyfsDev w.mem fs)).read ≠ none

theorem Probes.fails {rc : Nat} (hrc : rc ≠ 0) (reads : Nat) :
    Probes B w fs (rc, { w with reads := reads }) :=
  ⟨rfl, .refl _ _, rfl, fun h => absurd h hrc⟩

theorem pyfsProbe_probes (w : World) (fs : Nat) : Probes B w fs (pyfsProbe B w fs) := by
  rw [pyfsProbe]
  by_cases hnull : fs = 0 ∨ pyfsDev w.mem fs = 0
  · rw [if_pos hnull]
    exact .fails (by decide) w.reads
  rw [if_neg hnull]
  cases hread : (B.device (pyfsDev w.mem fs)).read with
  | none => exact .fails (by decide) w.reads
  | some read =>
    simp only
    generalize read w.reads pyfsSuperblockLba = reply
    by_cases hok : (!reply.ok) = true
    · rw [if_pos hok]
      exact .fails (by decide) (w.reads + 1)
    rw [if_neg hok]
    by_cases hmagic : le32 reply.bytes 0 ≠ pyfsMagic
    · rw [if_pos hmagic]
      exact .fails (by decide) (w.reads + 1)
    rw [if_neg hmagic]
    by_cases hversion : le32 reply.bytes 4 ≠ pyfsVersion1
    · rw [if_pos hversion]
      exact .fails (by decide) (w.reads + 1)
    rw [if_neg hversion]
    by_cases hblock : le32 reply.bytes 8 ≠ pyfsBlockSize
    · rw [if_pos hblock]
      exact .fails (by decide) (w.reads + 1)
    rw [if_neg hblock]
    -- the copy of the superblock stays past the first field
    refine ⟨rfl, ?_, ?_, fun _ hc => ?_⟩
    · exact ((((WritesIn.refl _ _).store32 _ (inRange_word 4 (by decide))).store32 _
        (inRange_word 8 (by decide))).store32 _ (inRange_word 12 (by decide))).store32 _
        (inRange_word 16 (by decide))
    · show Mem.load32 (Mem.store32 _ _ _) fs = _
      rw [load32_store32_ne (by omega), load32_store32_ne (by omega),
        load32_store32_ne (by omega), load32_store32_ne (by omega)]
      rfl
    · rw [hread] at hc
      cases hc

theorem pyfsCreate_alloc {dev outCtx ctx : Nat} {h : Heap} {r : Nat × World} (hdev : dev ≠ 0)
    (hok : kmalloc w.heap sizeofPyfsCtx = .ok (ctx, h)) (hctx : ctx ≠ 0)
    (hm : ((((h.mem.store32 ctx dev).store32 (ctx + 4) 0).store32 (ctx + 8) 0).store32
      (ctx + 12) 0).store32 (ctx + 16) 0 = m)
    (hr : pyfsProbe B ⟨⟨m, h.startHeader⟩, w.reads⟩ ctx = r) :
    pyfsCreate B w dev outCtx
      = if r.1 ≠ 0 then
          kfree r.2.heap ctx >>= fun heap => .ok (r.1, { r.2 with heap := heap }, outCtx)
        else .ok (0, r.2, ctx) := by
  subst hm hr
  rw [pyfsCreate, if_neg hdev, hok]
  exact if_neg hctx

/-- The new context's `dev`. -/
theorem pyfsDev_new (m : Mem) (ctx : Nat) (dev : UInt32) :
    pyfsDev (((((m.store32 ctx dev.toNat).store32 (ctx + 4) 0).store32 (ctx + 8) 0).store32
      (ctx + 12) 0).store32 (ctx + 16) 0) ctx = dev.toNat := by
  rw [pyfsDev, load32_store32_ne (by omega), load32_store32_ne (by omega),
    load32_store32_ne (by omega), load32_store32_ne (by omega), load32_store32_self]
  exact Nat.mod_eq_of_lt dev.toNat_lt

/-- **`pyfs_create`** returns, and on success gives a context over a device that
    can be read. -/
theorem pyfsCreate_spec (ho : Owns bs₀ w.heap live) (hcov : Covers live bs₀) (dev : UInt32)
    (outCtx : Nat) :
    ∃ rc w' out, pyfsCreate B w dev.toNat outCtx = .ok (rc, w', out)
      ∧ Keeps live w.mem w'.mem
      ∧ ((rc ≠ 0 ∧ Owns bs₀ w'.heap live)
        ∨ (rc = 0 ∧ Owns bs₀ w'.heap ((out, sizeofPyfsCtx) :: live)
          ∧ PyfsCtx B ((out, sizeofPyfsCtx) :: live) w'.mem out
          ∧ pyfsDev w'.mem out = dev.toNat)) := by
  by_cases hdev : dev.toNat = 0
  · exact ⟨_, _, _, if_pos hdev, .refl _ _, Or.inl ⟨by decide, ho⟩⟩
  obtain ⟨ctx, h, hok, hk, hcase⟩ := ho.alloc sizeofPyfsCtx (by decide)
  rcases hcase with ⟨rfl, ho'⟩ | ⟨hctx, ho'⟩
  · refine ⟨pyfsErrNoSpace, { w with heap := h }, outCtx, ?_, hk, Or.inl ⟨by decide, ho'⟩⟩
    rw [pyfsCreate, if_neg hdev, hok]
    rfl
  obtain ⟨m, hm⟩ : ∃ m, ((((h.mem.store32 ctx dev.toNat).store32 (ctx + 4) 0).store32
      (ctx + 8) 0).store32 (ctx + 12) 0).store32 (ctx + 16) 0 = m := ⟨_, rfl⟩
  have hw : WritesIn (InRange (ctx, sizeofPyfsCtx)) h.mem m := by
    rw [← hm]
    exact (((((WritesIn.refl _ _).store32 _ (inRange_word 0 (by decide))).store32 _
      (inRange_word 4 (by decide))).store32 _ (inRange_word 8 (by decide))).store32 _
      (inRange_word 12 (by decide))).store32 _ (inRange_word 16 (by decide))
  have hdev' : pyfsDev m ctx = dev.toNat := by
    rw [← hm]
    exact pyfsDev_new h.mem ctx dev
  obtain ⟨r, hr⟩ : ∃ r, pyfsProbe B ⟨⟨m, h.startHeader⟩, w.reads⟩ ctx = r := ⟨_, rfl⟩
  have hprobe := hr ▸ pyfsProbe_probes (B := B) ⟨⟨m, h.startHeader⟩, w.reads⟩ ctx
  obtain ⟨hk', ho''⟩ := ho'.write (hw.trans hprobe.writes)
  have hheap : (⟨r.2.mem, h.startHeader⟩ : Heap) = r.2.heap := by
    rw [← hprobe.start]
    rfl
  rw [hheap] at ho''
  rw [pyfsCreate_alloc hdev hok hctx hm hr]
  by_cases hrc : r.1 ≠ 0
  · rw [if_pos hrc]
    obtain ⟨h', hfree, hk2, ho2⟩ := ho''.free hcov
    rw [hfree]
    exact ⟨r.1, { r.2 with heap := h' }, outCtx, rfl, (hk.trans hk').trans hk2,
      Or.inl ⟨hrc, ho2⟩⟩
  · rw [if_neg hrc]
    refine ⟨0, r.2, ctx, rfl, hk.trans hk', Or.inr ⟨rfl, ho'', ⟨List.mem_cons_self .., ?_⟩, ?_⟩⟩
    · rw [hprobe.dev]
      exact hprobe.readable (not_not.mp hrc)
    · exact hprobe.dev.trans hdev'

/-! ## Return codes -/

theorem pyfsFillCache_code {rc : Nat} (h : pyfsFillCache B w fctx = .ok (rc, w')) :
    rc ≠ vfsErrBadFd := by
  rw [pyfsFillCache] at h
  by_cases hcache : fctxCache w.mem fctx ≠ 0
  · rw [if_pos hcache] at h
    cases h
    decide
  · rw [if_neg hcache] at h
    obtain ⟨⟨p, heap⟩, -, h⟩ := bind_ok h
    by_cases hp : p = 0
    · simp only [hp, if_true] at h
      cases h
      decide
    · simp only [hp, if_false] at h
      split at h
      · cases h
      · cases h
        split <;> decide

/-- What a read does: it gives a code of its own and leaves buffer and count alone, or it
    copies no more than it was asked for. -/
theorem pyfsFileRead_cases {offset size outRead : Nat} {buffer : Option Buffer}
    {r : ReadResult World FileOps}
    (h : pyfsFileRead B w file offset buffer size outRead = .ok r) :
    (∃ rc w', rc ≠ vfsOk ∧ rc ≠ vfsErrBadFd ∧ r = ⟨rc, w', file, buffer, outRead⟩)
      ∨ ∃ w' buffer' n, n ≤ size ∧ r = ⟨vfsOk, w', file, buffer', n⟩ := by
  cases buffer with
  | none =>
    cases h
    exact Or.inl ⟨vfsErrInvalidParam, w, by decide, by decide, rfl⟩
  | some buf =>
    rw [pyfsFileRead] at h
    by_cases hctx : file.fileCtx = 0 ∨ fctxFs w.mem file.fileCtx = 0
    · simp only [hctx, if_true] at h
      cases h
      exact Or.inl ⟨vfsErrIo, w, by decide, by decide, rfl⟩
    simp only [hctx, if_false] at h
    by_cases hid : fctxFileId w.mem file.fileCtx ≠ pyfsFileSuperblock
    · rw [if_pos hid] at h
      cases h
      exact Or.inl ⟨vfsErrNotFound, w, by decide, by decide, rfl⟩
    rw [if_neg hid] at h
    obtain ⟨⟨rc, w'⟩, hfill, h⟩ := bind_ok h
    by_cases hrc : rc ≠ vfsOk
    · rw [if_pos hrc] at h
      cases h
      exact Or.inl ⟨rc, w', hrc, pyfsFillCache_code hfill, rfl⟩
    rw [if_neg hrc] at h
    by_cases hoff : offset ≥ pyfsBlockSize
    · rw [if_pos hoff] at h
      cases h
      exact Or.inr ⟨w', some buf, 0, Nat.zero_le _, rfl⟩
    · rw [if_neg hoff] at h
      cases h
      refine Or.inr ⟨w', _, _, ?_, rfl⟩
      split
      · exact Nat.le_refl _
      · omega

theorem pyfsFileRead_behaves {offset size outRead : Nat} {buffer : Option Buffer}
    {r : ReadResult World FileOps}
    (h : pyfsFileRead B w file offset buffer size outRead = .ok r) :
    r.file = file ∧ r.rc ≠ vfsErrBadFd := by
  rcases pyfsFileRead_cases h with ⟨rc, w', -, hrc, rfl⟩ | ⟨w', buffer', n, -, rfl⟩
  · exact ⟨rfl, hrc⟩
  · exact ⟨rfl, show vfsOk ≠ vfsErrBadFd by decide⟩

theorem closeFn_code {ops : FileOps} {rc : Nat} {file' : VfsFile FileOps}
    (h : (fsCalls B).closeFn ops w file = .ok (rc, w', file')) : rc = vfsOk := by
  have hdev : devfsClose w file = .ok (rc, w', file') → rc = vfsOk := by
    intro h
    rw [devfsClose] at h
    by_cases hctx : file.fileCtx ≠ 0
    · rw [if_pos hctx] at h
      obtain ⟨heap, -, h⟩ := bind_ok h
      cases h
      rfl
    · rw [if_neg hctx] at h
      cases h
      rfl
  cases ops with
  | devfsNull => exact hdev h
  | devfsZero => exact hdev h
  | devfsBlock => exact hdev h
  | pyfsFile =>
    rw [fsCalls] at h
    simp only [pyfsFileClose] at h
    by_cases hctx : file.fileCtx ≠ 0
    · rw [if_pos hctx] at h
      by_cases hcache : fctxCache w.mem file.fileCtx ≠ 0
      · rw [if_pos hcache] at h
        obtain ⟨heap, -, h⟩ := bind_ok h
        obtain ⟨heap', -, h⟩ := bind_ok h
        cases h
        rfl
      · rw [if_neg hcache] at h
        obtain ⟨heap, -, h⟩ := bind_ok h
        obtain ⟨heap', -, h⟩ := bind_ok h
        cases h
        rfl
    · rw [if_neg hctx] at h
      cases h
      rfl

/-- The callbacks keep to what `vfs.c` expects of them. -/
theorem fsCalls_behaves (B : Blocks) : (fsCalls B).Behaves := by
  constructor
  · intro ops w file off buf size out r h
    have hleaves : ∀ {call : Except Halt (ReadResult World FileOps)}, LeavesHeap w file call →
        call = .ok r → r.file = file ∧ r.rc ≠ vfsErrBadFd := by
      rintro call ⟨rc, reads, buffer, outRead, hrc, rfl⟩ hcall
      cases hcall
      exact ⟨rfl, hrc⟩
    cases ops with
    | devfsNull => exact hleaves (leavesHeap_ok (by decide) ..) h
    | devfsZero => exact hleaves (devfsReadZero_leavesHeap ..) h
    | devfsBlock => exact hleaves (devfsReadBlock_leavesHeap ..) h
    | pyfsFile => exact pyfsFileRead_behaves h
  · intro ops w file rc w' file' h
    rw [closeFn_code h]
    decide

end PyramidFs
