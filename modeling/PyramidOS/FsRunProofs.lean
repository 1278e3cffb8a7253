import PyramidOS.FsBootProofs
import Mathlib.Data.List.Perm.Basic

/-! # Runs of file operations

    `vfs_open`, `vfs_read` and `vfs_close` over the mounted filesystems.  The
    invariant `FsInv` splits the heap between the open files and what was live
    before: each descriptor owns the blocks of its file, and a call on one
    descriptor keeps the data of all others (`FsInv.call`).

    * `vfs_table_refines_map` — the descriptor table is a finite map;
    * `vfs_leaks_no_heap` — with every descriptor closed the heap is what it was
      before the first open. -/

namespace PyramidFs

open ByteMem PyramidString PyramidKernel PyramidHeap PyramidBlock PyramidVfs BlockTiling
  LabelledRun

variable {B : Blocks} {boot : Boot} {bs₀ : List Block} {v v' : Vfs World FsType FileOps}
  {m m' : Mem} {files files' : FileMap FileOps} {fds : List Nat} {fd i : Nat}
  {live : List (Nat × Nat)} {file : VfsFile FileOps} {new : Option (VfsFile FileOps)}

/-! ## Who owns what -/

/-- The heap blocks the descriptors `fds` own. -/
def blocksOf (m : Mem) (files : FileMap FileOps) (fds : List Nat) : List (Nat × Nat) :=
  fds.flatMap fun fd => (files fd).elim [] (fileBlocks m)

/-- All descriptors but `fd`. -/
def otherFds (fd : Nat) : List Nat := (List.range vfsMaxOpenFiles).erase fd

theorem mem_otherFds : i ∈ otherFds fd ↔ i ≠ fd ∧ i < vfsMaxOpenFiles := by
  rw [otherFds, List.nodup_range.mem_erase_iff, List.mem_range]

theorem mem_blocksOf {l : Nat × Nat} (hi : i ∈ fds) (hfile : files i = some file)
    (hl : l ∈ fileBlocks m file) : l ∈ blocksOf m files fds := by
  refine List.mem_flatMap.mpr ⟨i, hi, ?_⟩
  rw [hfile]
  exact hl

/-- Descriptors whose files are the same, and whose data is kept, own the same. -/
theorem blocksOf_congr (hk : Keeps live m m') (hsub : ∀ l ∈ blocksOf m files fds, l ∈ live)
    (hsame : ∀ fd ∈ fds, files' fd = files fd) :
    blocksOf m' files' fds = blocksOf m files fds := by
  refine List.flatMap_congr fun fd hfd => ?_
  rw [hsame fd hfd]
  cases hfile : files fd with
  | none => rfl
  | some file => exact fileBlocks_keeps hk fun l hl => hsub l (mem_blocksOf hfd hfile hl)

/-- One descriptor and the others. -/
theorem blocksOf_perm (m : Mem) (files : FileMap FileOps) (hfd : fd < vfsMaxOpenFiles) :
    (blocksOf m files (List.range vfsMaxOpenFiles)).Perm
      ((files fd).elim [] (fileBlocks m) ++ blocksOf m files (otherFds fd)) :=
  (List.perm_cons_erase (List.mem_range.mpr hfd)).flatMap_right _

/-- **THE INVARIANT OF A RUN**: the open files and what was live before own the
    heap between them, and the contexts of the files are in order. -/
structure FsInv (B : Blocks) (boot : Boot) (bs₀ : List Block)
    (v : Vfs World FsType FileOps) : Prop where
  mounts : v.mounts = boot.mounts
  owns : Owns bs₀ v.world.heap
    (blocksOf v.world.mem v.files (List.range vfsMaxOpenFiles) ++ boot.live)
  files : ∀ fd file, v.files fd = some file → FileOk B boot.live v.world.mem file
  created : ∀ fs ∈ boot.created, PyfsCtx B boot.live v.world.mem fs

/-- What everybody but the descriptor `fd` owns. -/
def othersOf (boot : Boot) (v : Vfs World FsType FileOps) (fd : Nat) : List (Nat × Nat) :=
  blocksOf v.world.mem v.files (otherFds fd) ++ boot.live

theorem mem_othersOf_live {l : Nat × Nat} (hl : l ∈ boot.live) : l ∈ othersOf boot v fd :=
  List.mem_append_right _ hl

theorem mem_othersOf_file {l : Nat × Nat} (hi : i ≠ fd) (hfile : v.files i = some file)
    (hl : l ∈ fileBlocks v.world.mem file) : l ∈ othersOf boot v fd := by
  have hlt : i < vfsMaxOpenFiles := by
    by_contra hge
    rw [files_eq_none_iff.mpr fun h => hge h.1] at hfile
    cases hfile
  exact List.mem_append_left _ (mem_blocksOf (mem_otherFds.mpr ⟨hi, hlt⟩) hfile hl)

/-- The heap as the owner of `fd` sees it. -/
theorem FsInv.focus (h : FsInv B boot bs₀ v) (hfd : fd < vfsMaxOpenFiles) :
    Owns bs₀ v.world.heap
      ((v.files fd).elim [] (fileBlocks v.world.mem) ++ othersOf boot v fd) := by
  refine h.owns.perm ?_
  rw [othersOf, ← List.append_assoc]
  exact (blocksOf_perm _ _ hfd).append_right _

/-- **ONE DESCRIPTOR CHANGES** and the others' data is kept. -/
theorem FsInv.update (h : FsInv B boot bs₀ v) (hfd : fd < vfsMaxOpenFiles)
    (hmounts : v'.mounts = v.mounts) (hfiles : v'.files = Function.update v.files fd new)
    (hk : Keeps (othersOf boot v fd) v.world.mem v'.world.mem)
    (hnew : ∀ file, new = some file → FileOk B boot.live v'.world.mem file)
    (ho : Owns bs₀ v'.world.heap
      (new.elim [] (fileBlocks v'.world.mem) ++ othersOf boot v fd)) :
    FsInv B boot bs₀ v' := by
  have hothers : ∀ i, i ≠ fd → v'.files i = v.files i := fun i hi => by
    rw [hfiles, Function.update_of_ne hi]
  refine ⟨hmounts.trans h.mounts, ?_, fun i file hi => ?_, fun fs hfs => ?_⟩
  · have hblocks : blocksOf v'.world.mem v'.files (otherFds fd)
        = blocksOf v.world.mem v.files (otherFds fd) :=
      blocksOf_congr hk (fun l hl => List.mem_append_left _ hl) fun i hi =>
        hothers i (mem_otherFds.mp hi).1
    have hperm := blocksOf_perm v'.world.mem v'.files hfd
    rw [hblocks, hfiles, Function.update_self] at hperm
    refine ho.perm ?_
    rw [othersOf, ← List.append_assoc, hfiles]
    exact (hperm.append_right _).symm
  · by_cases hifd : i = fd
    · rw [hifd, hfiles, Function.update_self] at hi
      exact hnew file hi
    · rw [hothers i hifd] at hi
      exact (h.files i file hi).keeps hk (fun l hl => mem_othersOf_file hifd hi hl)
        fun l hl => mem_othersOf_live hl
  · exact (h.created fs hfs).keeps (hk.mono fun l hl => mem_othersOf_live hl)

/-! ## One call -/

/-- The descriptor a call names. -/
def namedFd : VfsCall → Option Nat
  | .open .. => none
  | .read fd .. => some fd.toNat
  | .close fd => some fd.toNat

/-- What a call on a descriptor delivered. -/
def retBytes : VfsRet → List Byte
  | .read rc (some buf) n => if rc = vfsOk then (List.range n).map buf else []
  | _ => []

/-- What the reads of `fd` delivered, one after the other. -/
def delivered (fd : UInt32) (es : List (VfsCall × VfsRet)) : List Byte :=
  es.flatMap fun e => if namedFd e.1 = some fd.toNat then retBytes e.2 else []

/-- What a call leaves: the invariant, and the files it does not name, with the
    data of their contexts. -/
structure Called (B : Blocks) (boot : Boot) (bs₀ : List Block) (v : Vfs World FsType FileOps)
    (named : Option Nat) (v' : Vfs World FsType FileOps) : Prop where
  inv : FsInv B boot bs₀ v'
  base : Keeps boot.live v.world.mem v'.world.mem
  others : ∀ i file, named ≠ some i → v.files i = some file → v'.files i = some file
    ∧ Keeps (fileBlocks v.world.mem file ++ boot.live) v.world.mem v'.world.mem

variable {named : Option Nat}

/-- A call that changed nothing. -/
theorem Called.refl (h : FsInv B boot bs₀ v) (named : Option Nat) :
    Called B boot bs₀ v named v :=
  ⟨h, Keeps.refl _ _, fun _ _ _ hi => ⟨hi, Keeps.refl _ _⟩⟩

/-- A call on `fd`, which was free or is the one it names. -/
theorem Called.update (h : FsInv B boot bs₀ v) (hfd : fd < vfsMaxOpenFiles)
    (hnamed : v.files fd = none ∨ named = some fd)
    (hmounts : v'.mounts = v.mounts) (hfiles : v'.files = Function.update v.files fd new)
    (hk : Keeps (othersOf boot v fd) v.world.mem v'.world.mem)
    (hnew : ∀ file, new = some file → FileOk B boot.live v'.world.mem file)
    (ho : Owns bs₀ v'.world.heap
      (new.elim [] (fileBlocks v'.world.mem) ++ othersOf boot v fd)) :
    Called B boot bs₀ v named v' := by
  refine ⟨h.update hfd hmounts hfiles hk hnew ho, hk.mono fun l hl => mem_othersOf_live hl,
    fun i file hi hfile => ?_⟩
  have hne : i ≠ fd := by
    rintro rfl
    rcases hnamed with hfree | hthis
    · rw [hfree] at hfile
      cases hfile
    · exact hi hthis
  refine ⟨?_, hk.mono fun l hl => ?_⟩
  · rw [hfiles, Function.update_of_ne hne, hfile]
  · rcases List.mem_append.mp hl with hl | hl
    · exact mem_othersOf_file hne hfile hl
    · exact mem_othersOf_live hl

theorem vfsOpen_called (hboot : BootInv B boot) (h : FsInv B boot bs₀ v)
    (path : Option (List UInt8)) (flags : Nat) (outFd : Option Nat) :
    ∃ rc v' out, vfsOpen (fsCalls B) v path flags outFd = .ok (rc, v', out)
      ∧ Called B boot bs₀ v none v' := by
  cases path with
  | none => exact ⟨_, _, _, rfl, .refl h none⟩
  | some path =>
    cases outFd with
    | none => exact ⟨_, _, _, rfl, .refl h none⟩
    | some old =>
      rw [vfsOpen]
      cases hfind : vfsFindMount v.mounts path with
      | error e => exact ⟨_, _, _, rfl, .refl h none⟩
      | ok r =>
        obtain ⟨i, rel⟩ := r
        simp only
        cases hslot : (List.range vfsMaxOpenFiles).find? fun i => !(v.opened i).used with
        | none => exact ⟨_, _, _, rfl, .refl h none⟩
        | some fd =>
          obtain ⟨hfd, hfree, -⟩ := find_free_slot hslot
          have hfree' : v.files fd = none := hfree
          -- the path resolved to a mount, which can open files
          have hmounted : Mounted boot.mounts i :=
            h.mounts ▸ vfsFindMount_mounted (h.mounts ▸ hboot.mounts) hfind
          obtain ⟨o, ho, hopen⟩ := hboot.mounts.opens i hmounted
          obtain ⟨openFn, hopenFn⟩ := Option.ne_none_iff_exists'.mp hopen
          have hops : mountOpen boot.mounts i = some openFn := by
            rw [mountOpen, ho]
            exact hopenFn
          have hfs : openFn = .pyfs → (v.mounts i).fsCtx ≠ 0 →
              PyfsCtx B boot.live v.world.mem (v.mounts i).fsCtx := by
            intro hpyfs hctx
            rw [h.mounts] at hctx ⊢
            rw [hpyfs] at hops
            exact h.created _ ((hboot.pyfs i hmounted hops).resolve_left hctx)
          have howns : Owns bs₀ v.world.heap (othersOf boot v fd) := by
            have howns := h.focus hfd
            rw [hfree'] at howns
            exact howns
          obtain ⟨rc, w', file', hcall, hk, hcase⟩ :=
            openFn_opens howns (fun l hl => mem_othersOf_live hl) openFn hfs rel flags .blank
          have hops' : (v.mounts i).ops.bind VfsFsOps.openFn = some openFn := by
            rw [h.mounts]
            exact hops
          simp only [hops', hcall]
          rcases hcase with ⟨hrc, ho'⟩ | ⟨hrc, hfile, ho'⟩
          · have hfiles : Vfs.files ⟨v.mounts, v.opened, w'⟩
                = Function.update v.files fd none := by
              rw [← hfree', Function.update_eq_self]
              rfl
            exact ⟨rc, _, _, if_pos hrc, .update h hfd (Or.inl hfree') rfl hfiles hk
              (fun file hc => by cases hc) ho'⟩
          · have hsome : ¬ file'.ops.isNone = true := by
              obtain ⟨ops, hops⟩ := hfile.ops
              simp [hops]
            refine ⟨vfsOk, _, _, (if_neg (not_not.mpr hrc)).trans (if_neg hsome),
              .update h hfd (Or.inl hfree') rfl (files_update_some hfd _ _ _) hk ?_ ho'⟩
            intro file hfile'
            cases hfile'
            exact hfile

theorem vfsRead_called (h : FsInv B boot bs₀ v) (fd : Nat) (buffer : Option Buffer)
    (size outRead : Nat) :
    ∃ rc v' buffer' out, vfsRead (fsCalls B) v fd buffer size outRead = .ok (rc, v', buffer', out)
      ∧ Called B boot bs₀ v (some fd) v' := by
  by_cases hfd : fd ≥ vfsMaxOpenFiles
  · exact ⟨_, _, _, _, if_pos hfd, .refl h _⟩
  by_cases hused : (v.opened fd).used = true
  · have hlt := Nat.not_le.mp hfd
    have hopen := files_of_used hlt hused
    by_cases hbuf : size > 0 ∧ buffer.isNone
    · refine ⟨vfsErrInvalidParam, v, buffer, outRead, ?_, .refl h _⟩
      rw [vfsRead, if_neg hfd, if_neg (by simp [hused]), if_pos hbuf]
    generalize hfile : (v.opened fd).file = file at hopen
    have hok := h.files fd file hopen
    obtain ⟨ops, hops⟩ := hok.ops
    have howns := h.focus hlt
    rw [hopen] at howns
    obtain ⟨r, hcall, hk, hok', ho'⟩ := readFn_reads hops hok howns
      (fun l hl => mem_othersOf_live hl) file.pos buffer size 0
    obtain ⟨hsame, -⟩ := (fsCalls_behaves B).read hcall
    obtain ⟨t, ht, heq⟩ := vfsRead_eq outRead hopen hops hbuf hcall hsame
    -- only the position of the file changes
    have hcalled : ∀ pos, Called B boot bs₀ v (some fd) (t pos) := by
      intro pos
      obtain ⟨hworld, hmounts, hfiles⟩ := ht pos
      rw [← hworld] at hk hok' ho'
      refine .update h hlt (Or.inr rfl) hmounts hfiles hk ?_ ho'
      intro file' hfile'
      cases hfile'
      exact hok'
    rw [heq]
    by_cases hrc : r.rc ≠ vfsOk
    · exact ⟨_, _, _, _, if_pos hrc, hcalled _⟩
    by_cases hlong : r.outRead > size
    · exact ⟨_, _, _, _, (if_neg hrc).trans (if_pos hlong), hcalled _⟩
    · exact ⟨_, _, _, _, (if_neg hrc).trans (if_neg hlong), hcalled _⟩
  · refine ⟨vfsErrBadFd, v, buffer, outRead, ?_, .refl h _⟩
    rw [vfsRead, if_neg hfd, if_pos (by simp [hused])]

theorem vfsClose_called (hcov : Covers boot.live bs₀) (h : FsInv B boot bs₀ v) (fd : Nat) :
    ∃ rc v', vfsClose (fsCalls B) v fd = .ok (rc, v') ∧ Called B boot bs₀ v (some fd) v' := by
  rw [vfsClose]
  by_cases hfd : fd ≥ vfsMaxOpenFiles
  · exact ⟨_, _, if_pos hfd, .refl h _⟩
  rw [if_neg hfd]
  by_cases hused : (v.opened fd).used = true
  · have hlt := Nat.not_le.mp hfd
    have hopen := files_of_used hlt hused
    rw [if_neg (by simp [hused])]
    generalize (v.opened fd).file = file at hopen
    have hok := h.files fd file hopen
    obtain ⟨ops, hops⟩ := hok.ops
    have howns := h.focus hlt
    rw [hopen] at howns
    have hcov' : Covers (othersOf boot v fd) bs₀ := by
      intro b hb
      obtain ⟨n, hn⟩ := hcov b hb
      exact ⟨n, mem_othersOf_live hn⟩
    obtain ⟨rc, w', file', hcall, hk, ho'⟩ := closeFn_closes (B := B) hcov' hops howns
    refine ⟨rc, ⟨v.mounts, Function.update v.opened fd ⟨false, .blank⟩, w'⟩, ?_,
      .update h hlt (Or.inr rfl) rfl (files_update_none fd _ _ _) hk
        (fun file hc => by cases hc) ho'⟩
    simp only [hops, hcall]
    rfl
  · exact ⟨_, _, if_pos (by simp [hused]), .refl h _⟩

/-- **ONE CALL** returns, keeps the invariant, and leaves the other descriptors and
    their data alone. -/
theorem FsInv.call (hboot : BootInv B boot) (hcov : Covers boot.live bs₀)
    (h : FsInv B boot bs₀ v) (c : VfsCall) :
    ∃ r v', VfsStep (fsCalls B) v (c, r) v' ∧ Called B boot bs₀ v (namedFd c) v' := by
  cases c with
  | «open» path flags outFd =>
    obtain ⟨rc, v', out, hcall, hcalled⟩ := vfsOpen_called hboot h path flags.toNat outFd
    exact ⟨_, v', congrArg (· >>= _) hcall, hcalled⟩
  | read fd buffer size outRead =>
    obtain ⟨rc, v', buffer', out, hcall, hcalled⟩ :=
      vfsRead_called h fd.toNat buffer size.toNat outRead
    exact ⟨_, v', congrArg (· >>= _) hcall, hcalled⟩
  | close fd =>
    obtain ⟨rc, v', hcall, hcalled⟩ := vfsClose_called hcov h fd.toNat
    exact ⟨_, v', congrArg (· >>= _) hcall, hcalled⟩

/-- A step is the call that returned. -/
theorem FsInv.step (hboot : BootInv B boot) (hcov : Covers boot.live bs₀)
    (h : FsInv B boot bs₀ v) {e : VfsCall × VfsRet} (hst : VfsStep (fsCalls B) v e v') :
    Called B boot bs₀ v (namedFd e.1) v' := by
  obtain ⟨c, r⟩ := e
  obtain ⟨r', v'', hst', hcalled⟩ := h.call hboot hcov c
  rw [VfsStep] at hst hst'
  rw [hst] at hst'
  cases hst'
  exact hcalled

/-! ## Runs -/

/-- The descriptor table after `vfs_init`, over the mounts and the heap of
    `boot`. -/
def fsStart (boot : Boot) (opened : Nat → VfsOpenEntry FileOps) (reads : Nat) :
    Vfs World FsType FileOps :=
  ⟨boot.mounts, vfsInitOpened opened, ⟨boot.world.heap, reads⟩⟩

variable {opened : Nat → VfsOpenEntry FileOps} {reads : Nat} {es : List (VfsCall × VfsRet)}

theorem fsStart_files (boot : Boot) (opened : Nat → VfsOpenEntry FileOps) (reads : Nat) :
    (fsStart boot opened reads).files = fun _ => none := by
  funext fd
  refine files_eq_none_iff.mpr ?_
  rintro ⟨hfd, hused⟩
  rw [show (fsStart boot opened reads).opened = vfsInitOpened opened from rfl, vfsInitOpened,
    if_pos hfd] at hused
  cases hused

/-- The first file opened gets descriptor 0. -/
theorem fsStart_open {path : Option (List UInt8)} {flags : UInt32} {old : Option Nat} {r : VfsRet}
    (h : VfsStep (fsCalls B) (fsStart boot opened reads) (.open path flags old, r) v)
    (hcode : r.code = vfsOk) : r = .open vfsOk (some 0) := by
  obtain ⟨⟨rc, t, out⟩, hcall, hret⟩ := bind_ok h
  cases hret
  have hrc : rc = vfsOk := hcode
  rcases vfsOpen_cases hcall with ⟨hc, -⟩ | ⟨_, _, fd, _, -, -, -, hout, -, hleast, -⟩
  · exact absurd hrc hc
  · have hzero : (fsStart boot opened reads).files 0 = none := by rw [fsStart_files]
    rw [hout, hrc, Nat.le_zero.mp (hleast.2 hzero)]

theorem fsInv_start (hboot : BootInv B boot)
    (hheap : HeapInv ⟨boot.world.heap, boot.live⟩ bs₀) :
    FsInv B boot bs₀ (fsStart boot opened reads) := by
  refine ⟨rfl, ?_, fun fd file hfile => ?_, hboot.created⟩
  · have hnone : ∀ m : Mem, blocksOf m (fun _ => none) (List.range vfsMaxOpenFiles) = [] :=
      fun m => List.flatMap_eq_nil_iff.mpr fun _ _ => rfl
    rw [fsStart_files, hnone]
    exact ⟨bs₀, hheap, fun _ hb => hb⟩
  · rw [fsStart_files] at hfile
    cases hfile

/-- **EVERY STATE A RUN REACHES** has the invariant. -/
theorem fsInv_run (hboot : BootInv B boot) (hheap : HeapInv ⟨boot.world.heap, boot.live⟩ bs₀)
    (hrun : Run (VfsStep (fsCalls B)) (fsStart boot opened reads) es v) :
    FsInv B boot bs₀ v :=
  hrun.invariant (fsInv_start hboot hheap) fun _ _ _ hI hst =>
    (hI.step hboot hheap.owned hst).inv

/-- **THE DESCRIPTOR TABLE IS A FINITE MAP**: after any mounts, a run of calls is a
    run of the map from descriptors to open files, and every call returns.  A
    failed `vfs_open` leaves the table as it was, and one for a path under a
    mount answers `VFS_ERR_NO_SPACE` without asking the filesystem exactly when
    all descriptors are open. -/
theorem vfs_table_refines_map (mem : Mem) (reads₀ : Nat) (g : MountTable FsType)
    (bootEvents : List BootEvent)
    (hboot : Run (BootStep B) (bootStart mem reads₀ g) bootEvents boot)
    (hrun : Run (VfsStep (fsCalls B)) (fsStart boot opened reads) es v) :
    Run FileMap.Step (fun _ => none) es v.files
    ∧ (∀ c, ∃ r v', VfsStep (fsCalls B) v (c, r) v')
    ∧ (∀ path flags outFd rc v' out,
        vfsOpen (fsCalls B) v path flags outFd = .ok (rc, v', out) → rc ≠ vfsOk →
        v'.opened = v.opened ∧ out = outFd)
    ∧ ∀ path r flags old, vfsFindMount v.mounts path = .ok r →
        ((∀ calls : FsCalls World FsType FileOps,
            vfsOpen calls v (some path) flags (some old) = .ok (vfsErrNoSpace, v, some old))
          ↔ ∀ fd, fd < vfsMaxOpenFiles → v.files fd ≠ none) := by
  have hinv := bootInv_run hboot
  obtain ⟨bs₀, hheap⟩ := hinv.heap
  have hreached := fsInv_run hinv hheap hrun
  refine ⟨?_, fun c => ?_, fun path flags outFd rc v' out hcall hrc => ?_,
    fun path r flags old hfind => vfsOpen_no_space_iff flags old hfind⟩
  · rw [← fsStart_files boot opened reads]
    exact vfs_run_refines (fsCalls_behaves B) hrun
  · obtain ⟨r, v', hst, -⟩ := hreached.call hinv hheap.owned c
    exact ⟨r, v', hst⟩
  · rcases vfsOpen_cases hcall with ⟨-, hsame, hout⟩ | ⟨_, _, _, _, -, -, hok, -⟩
    · exact ⟨hsame, hout⟩
    · exact absurd hok hrc

/-- The superblock file is opened, read twice, and closed; the device fails the
    first read. -/
def smallCalls : List VfsCall :=
  [.open (some (root ++ superblockName)) 1 (some 0), .read 0 (some fun _ => 0) 4 0,
    .read 0 (some fun _ => 0) 4 0, .close 0]

def smallStart (answers : Nat → Bool) : Vfs World FsType FileOps :=
  fsStart (smallBoot answers) (fun _ => ⟨false, .blank⟩) 1

theorem smallCalls_run :
    ∃ es v, Run (VfsStep (fsCalls (smallBlocks onlyFirst))) (smallStart onlyFirst) es v
      ∧ es.map Prod.fst = smallCalls ∧ es.map (fun e => e.2.code) = [0, 5, 0, 0]
      ∧ ∀ fd, v.files fd = none := by
  have hcodes : (vfsCalls (fsCalls (smallBlocks onlyFirst)) (smallStart onlyFirst)
      smallCalls).map (fun r => (r.1.map fun e => e.2.code,
        (List.range 32).all fun fd => (r.2.files fd).isNone)) = .ok ([0, 5, 0, 0], true) := by
    decide +kernel
  obtain ⟨es, v, hrun, hcalls, hmap⟩ := vfsCalls_map hcodes
  obtain ⟨hes, hclosed⟩ := Prod.mk.inj hmap
  refine ⟨es, v, hrun, hcalls, hes, fun fd => ?_⟩
  by_cases hfd : fd < vfsMaxOpenFiles
  · exact Option.isNone_iff_eq_none.mp
      (List.all_eq_true.mp hclosed fd (List.mem_range.mpr hfd))
  · exact files_eq_none_iff.mpr fun h => hfd h.1

/-- The calls on the small system, as a run of the map. -/
theorem vfs_table_refines_map_small :
    ∃ es v, Run (VfsStep (fsCalls (smallBlocks onlyFirst))) (smallStart onlyFirst) es v
      ∧ es.map Prod.fst = smallCalls ∧ es.map (fun e => e.2.code) = [0, 5, 0, 0]
      ∧ Run FileMap.Step (fun _ => none) es v.files := by
  obtain ⟨es, v, hrun, hcalls, hcodes, -⟩ := smallCalls_run
  obtain ⟨hmap, -⟩ := vfs_table_refines_map _ _ _ _ smallBoot_onlyFirst hrun
  exact ⟨es, v, hrun, hcalls, hcodes, hmap⟩

/-- **FILE OPERATIONS LEAK NO HEAP**: in every state reached each call returns, so
    none panics; the blocks the open files hold are in use and different, so none
    is freed twice; and with every descriptor closed the block list is what it
    was before the first open. -/
theorem vfs_leaks_no_heap (mem : Mem) (reads₀ : Nat) (g : MountTable FsType)
    (bootEvents : List BootEvent)
    (hboot : Run (BootStep B) (bootStart mem reads₀ g) bootEvents boot)
    (hrun : Run (VfsStep (fsCalls B)) (fsStart boot opened reads) es v) :
    (∀ c, ∃ r v', VfsStep (fsCalls B) v (c, r) v')
    ∧ ((blocksOf v.world.mem v.files (List.range vfsMaxOpenFiles) ++ boot.live).map
        Prod.fst).Nodup
    ∧ (∀ fd file, v.files fd = some file → ∀ l ∈ fileBlocks v.world.mem file,
        ∃ b ∈ v.world.heap.blockList, l.1 = b.addr + 20 ∧ l.2 ≤ b.size ∧ b.isFree = 0)
    ∧ ((∀ fd, v.files fd = none) →
        v.world.heap.blockList = boot.world.heap.blockList) := by
  have hinv := bootInv_run hboot
  obtain ⟨bs₀, hheap⟩ := hinv.heap
  have hreached := fsInv_run hinv hheap hrun
  refine ⟨fun c => ?_, hreached.owns.nodup, fun fd file hfile l hl => ?_, fun hclosed => ?_⟩
  · obtain ⟨r, v', hst, -⟩ := hreached.call hinv hheap.owned c
    exact ⟨r, v', hst⟩
  · refine hreached.owns.inUse (List.mem_append_left _ ?_)
    exact mem_blocksOf (List.mem_range.mpr (files_some hfile).1) hfile hl
  · have hnone : blocksOf v.world.mem v.files (List.range vfsMaxOpenFiles) = [] := by
      refine List.flatMap_eq_nil_iff.mpr fun fd _ => ?_
      rw [hclosed fd]
      rfl
    have howns := hreached.owns
    rw [hnone] at howns
    exact Owns.blockList_eq hheap howns

/-- A cache whose fill failed is freed like any other. -/
theorem vfs_leaks_no_heap_small :
    ∃ es v, Run (VfsStep (fsCalls (smallBlocks onlyFirst))) (smallStart onlyFirst) es v
      ∧ es.map Prod.fst = smallCalls ∧ es.map (fun e => e.2.code) = [0, 5, 0, 0]
      ∧ v.world.heap.blockList = (smallBoot onlyFirst).world.heap.blockList := by
  obtain ⟨es, v, hrun, hcalls, hcodes, hclosed⟩ := smallCalls_run
  obtain ⟨-, -, -, hlist⟩ := vfs_leaks_no_heap _ _ _ _ smallBoot_onlyFirst hrun
  exact ⟨es, v, hrun, hcalls, hcodes, hlist hclosed⟩

end PyramidFs
