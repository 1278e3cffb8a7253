import PyramidOS.FsRunProofs

/-! # What PyFS reads deliver

    A PyFS file is read through a cache that its first read fills from the
    device.  As long as no fill fails, what a descriptor has delivered is a
    prefix of the sector, whatever else is done in between
    (`pyfs_reads_are_prefix`).  A fill that fails leaves a cache behind that no
    later read tells from a filled one (`pyfs_reads_unfilled_cache`). -/

namespace PyramidFs

open ByteMem PyramidString PyramidKernel PyramidHeap PyramidBlock PyramidVfs BlockTiling
  LabelledRun

variable {B : Blocks} {boot : Boot} {bs₀ : List Block} {v v' : Vfs World FsType FileOps}
  {w w' : World} {file : VfsFile FileOps} {S got : List Byte} {fd : UInt32}
  {e : VfsCall × VfsRet} {es : List (VfsCall × VfsRet)}

/-! ## The cache -/

/-- The device under a PyFS file. -/
def pyfsDevice (B : Blocks) (m : Mem) (file : VfsFile FileOps) : BlockDevice :=
  B.device (pyfsDev m (fctxFs m file.fileCtx))

/-- A read of sector 0 that succeeds delivers `S`. -/
def Delivers (dev : BlockDevice) (S : List Byte) : Prop :=
  ∀ read, dev.read = some read → ∀ n, (read n pyfsSuperblockLba).ok = true →
    (read n pyfsSuperblockLba).bytes = S

/-- The cache of a file is not there yet, or holds `S`. -/
def CacheHolds (m : Mem) (file : VfsFile FileOps) (S : List Byte) : Prop :=
  fctxCache m file.fileCtx = 0
    ∨ ∀ k, k < pyfsBlockSize → m.byte (fctxCache m file.fileCtx + k) = S.getD k 0

/-- **NO FILL FAILS**: if a read of the file now would allocate a cache, the device
    answers. -/
def FillSucceeds (B : Blocks) (w : World) (file : VfsFile FileOps) : Prop :=
  fctxCache w.mem file.fileCtx = 0 → ∀ p h, kmalloc w.heap pyfsBlockSize = .ok (p, h) → p ≠ 0 →
    ∀ read, (pyfsDevice B w.mem file).read = some read →
      (read w.reads pyfsSuperblockLba).ok = true

/-- A fill that does not fail leaves a cache that holds the sector. -/
theorem Filled.cacheHolds {rc : Nat} (h : Filled B w file.fileCtx rc w')
    (hlen : S.length = pyfsBlockSize) (hdev : Delivers (pyfsDevice B w.mem file) S)
    (hcache : CacheHolds w.mem file S) (hfill : FillSucceeds B w file) :
    CacheHolds w'.mem file S := by
  cases h with
  | cached _ => exact hcache
  | noSpace _ _ hempty' => exact Or.inl hempty'
  | read hempty hread halloc hp _ hcache' hbytes =>
    right
    have hok := hfill hempty _ _ halloc hp _ hread
    have hsector := hdev _ hread _ hok
    rw [hsector] at hbytes
    rw [hcache']
    exact fun k hk => hbytes k (by omega)

/-- After a fill that succeeded there is a cache. -/
theorem Filled.cache_ne {fctx : Nat} (h : Filled B w fctx vfsOk w') :
    fctxCache w'.mem fctx ≠ 0 := by
  generalize hrc : vfsOk = rc at h
  cases h with
  | cached hcache => exact hcache
  | noSpace _ _ _ => cases hrc
  | read _ _ _ hp _ hcache' _ =>
    rw [hcache']
    exact hp

theorem Filled.fctxFs_eq {fctx rc : Nat} (h : Filled B w fctx rc w') :
    fctxFs w'.mem fctx = fctxFs w.mem fctx := by
  cases h with
  | cached _ => rfl
  | noSpace _ hfs _ => exact hfs
  | read _ _ _ _ hfs _ _ => exact hfs

/-- While the blocks of a file are kept, its cache holds what it did. -/
theorem CacheHolds.keeps {m m' : Mem} {live : List (Nat × Nat)} (h : CacheHolds m file S)
    (hops : file.ops = some .pyfsFile) (hk : Keeps live m m')
    (hsub : ∀ l ∈ fileBlocks m file, l ∈ live) : CacheHolds m' file S := by
  rw [fileBlocks_pyfs hops] at hsub
  have hcache : fctxCache m' file.fileCtx = fctxCache m file.fileCtx :=
    hk.load32 (hsub _ (List.mem_cons_self ..)) 8 (by decide)
  rw [CacheHolds, hcache]
  rcases h with hempty | hbytes
  · exact Or.inl hempty
  · by_cases hempty : fctxCache m file.fileCtx = 0
    · exact Or.inl hempty
    · right
      intro k hk'
      rw [if_neg hempty] at hsub
      rw [hk _ (hsub _ (List.mem_cons_of_mem _ (List.mem_cons_self ..))) _
        ⟨Nat.le_add_right .., Nat.add_lt_add_left hk' _⟩]
      exact hbytes k hk'

/-! ## One read -/

/-- A `vfs_read` of a PyFS file, in a state a run reaches. -/
theorem vfsRead_pyfs (h : FsInv B boot bs₀ v) {fd size out rc n : Nat} {buf : Buffer}
    {buf' : Option Buffer} (hopen : v.files fd = some file) (hops : file.ops = some .pyfsFile)
    (hcall : vfsRead (fsCalls B) v fd (some buf) size out = .ok (rc, v', buf', n)) :
    ∃ r, PyfsRead B v.world file file.pos buf size r ∧ v'.world = r.world
      ∧ ((rc ≠ vfsOk ∧ v'.files fd = some file)
        ∨ (rc = vfsOk ∧ r.rc = vfsOk ∧ n = r.outRead ∧ buf' = r.buffer
          ∧ v'.files fd = some { file with pos := u32 (file.pos + n) })) := by
  obtain ⟨hfd, -, -⟩ := files_some hopen
  have howns := h.focus hfd
  rw [hopen] at howns
  obtain ⟨r, hread, -, hpyfs⟩ := pyfsFileRead_spec hops (h.files fd file hopen) howns
    (fun l hl => mem_othersOf_live hl) file.pos buf size 0
  have hread' : (fsCalls B).readFn .pyfsFile v.world file file.pos (some buf) size 0 = .ok r :=
    hread
  obtain ⟨hsame, -⟩ := (fsCalls_behaves B).read hread'
  obtain ⟨t, ht, heq⟩ := vfsRead_eq out hopen hops (by simp) hread' hsame
  have hfiles : ∀ pos, (t pos).files fd = some { file with pos := pos } := fun pos => by
    rw [(ht pos).2.2, Function.update_self]
  rw [heq] at hcall
  refine ⟨r, hpyfs, ?_⟩
  by_cases hrc : r.rc ≠ vfsOk
  · rw [if_pos hrc] at hcall
    cases hcall
    exact ⟨(ht _).1, Or.inl ⟨hrc, hfiles _⟩⟩
  rw [if_neg hrc] at hcall
  by_cases hlong : r.outRead > size
  · rw [if_pos hlong] at hcall
    cases hcall
    exact ⟨(ht _).1, Or.inl ⟨by decide, hfiles _⟩⟩
  · rw [if_neg hlong] at hcall
    cases hcall
    exact ⟨(ht _).1, Or.inr ⟨rfl, not_not.mp hrc, rfl, rfl, hfiles _⟩⟩

/-- **THE INVARIANT OF A DESCRIPTOR**: it is open on the sector `S`, its cache holds
    `S` once there is one, and up to its position it delivered `S`. -/
structure CacheInv (B : Blocks) (boot : Boot) (bs₀ : List Block) (S : List Byte) (fd : UInt32)
    (file : VfsFile FileOps) (got : List Byte) (v : Vfs World FsType FileOps) : Prop where
  inv : FsInv B boot bs₀ v
  opened : v.files fd.toNat = some file
  ops : file.ops = some .pyfsFile
  device : Delivers (pyfsDevice B v.world.mem file) S
  cache : CacheHolds v.world.mem file S
  pos : file.pos ≤ pyfsBlockSize
  got : got = S.take file.pos

/-- The next bytes of a sector. -/
theorem take_add_range (S : List Byte) {p n : Nat} (h : p + n ≤ S.length) :
    S.take (p + n) = S.take p ++ (List.range n).map fun k => S.getD (p + k) 0 := by
  rw [List.take_add]
  congr 1
  refine List.ext_getElem (by simp; omega) fun k hk _ => ?_
  simp only [List.length_take, List.length_drop] at hk
  simp [List.getD_eq_getElem?_getD, List.getElem?_eq_getElem (show p + k < S.length by omega)]

/-- The context of a PyFS file belongs to its mount, and so does the device. -/
theorem pyfsDevice_keeps {m m' : Mem} {base : List (Nat × Nat)} (hops : file.ops = some .pyfsFile)
    (hf : FileOk B base m file) (hk : Keeps base m m')
    (hfs : fctxFs m' file.fileCtx = fctxFs m file.fileCtx) :
    pyfsDevice B m' file = pyfsDevice B m file := by
  obtain ⟨hctx, -⟩ := (fileOk_pyfs hops).mp hf
  rw [pyfsDevice, pyfsDevice, hfs]
  exact congrArg B.device (hk.load32 hctx.owned 0 (by decide))

/-- A call that does not name the descriptor keeps its invariant. -/
theorem CacheInv.other (h : CacheInv B boot bs₀ S fd file got v) {named : Option Nat}
    (hcalled : Called B boot bs₀ v named v') (hne : named ≠ some fd.toNat) :
    CacheInv B boot bs₀ S fd file got v' := by
  obtain ⟨hopen, hk⟩ := hcalled.others _ _ hne h.opened
  have hsub : ∀ l ∈ fileBlocks v.world.mem file,
      l ∈ fileBlocks v.world.mem file ++ boot.live := fun l hl => List.mem_append_left _ hl
  refine ⟨hcalled.inv, hopen, h.ops, ?_, h.cache.keeps h.ops hk hsub, h.pos, h.got⟩
  rw [pyfsDevice_keeps h.ops (h.inv.files _ _ h.opened) hcalled.base ?_]
  · exact h.device
  · rw [fileBlocks_pyfs h.ops] at hk
    exact (fctx_keeps hk (List.mem_cons_self ..)).1

/-- **A READ OF THE DESCRIPTOR** whose fill does not fail: if it succeeds it delivers
    the next bytes of the sector, and it keeps the invariant. -/
theorem CacheInv.read (h : CacheInv B boot bs₀ S fd file got v) (hlen : S.length = pyfsBlockSize)
    {size out rc n : Nat} {buf : Buffer} {buf' : Option Buffer}
    (hcalled : Called B boot bs₀ v (some fd.toNat) v') (hfill : FillSucceeds B v.world file)
    (hcall : vfsRead (fsCalls B) v fd.toNat (some buf) size out = .ok (rc, v', buf', n)) :
    (rc = vfsOk → n = min size (pyfsBlockSize - file.pos)
      ∧ ∃ b, buf' = some b ∧ ∀ k, k < n → b k = S.getD (file.pos + k) 0)
    ∧ ∃ pos, CacheInv B boot bs₀ S fd { file with pos := pos }
        (got ++ retBytes (.read rc buf' n)) v' := by
  obtain ⟨r, hpyfs, hworld, hcase⟩ := vfsRead_pyfs h.inv h.opened h.ops hcall
  -- whatever became of the fill, the cache is in order
  have hstate : pyfsDevice B v'.world.mem file = pyfsDevice B v.world.mem file
      ∧ CacheHolds v'.world.mem file S := by
    have hf := h.inv.files _ _ h.opened
    have hbase := hcalled.base
    rw [hworld] at hbase ⊢
    cases hpyfs with
    | refused _ => exact ⟨rfl, h.cache⟩
    | notFilled hfilled _ =>
      exact ⟨pyfsDevice_keeps h.ops hf hbase hfilled.fctxFs_eq,
        hfilled.cacheHolds hlen h.device h.cache hfill⟩
    | copied hfilled _ =>
      exact ⟨pyfsDevice_keeps h.ops hf hbase hfilled.fctxFs_eq,
        hfilled.cacheHolds hlen h.device h.cache hfill⟩
  obtain ⟨hdev, hcache⟩ := hstate
  have hdevice : Delivers (pyfsDevice B v'.world.mem file) S := by
    rw [hdev]
    exact h.device
  rcases hcase with ⟨hrc, hopen⟩ | ⟨rfl, hrrc, rfl, rfl, hopen⟩
  · refine ⟨fun hc => absurd hc hrc, file.pos, hcalled.inv, hopen, h.ops, hdevice, hcache,
      h.pos, ?_⟩
    have hnone : retBytes (.read rc buf' n) = [] := by
      cases buf' with
      | none => rfl
      | some b => exact if_neg hrc
    rw [hnone, List.append_nil]
    exact h.got
  · cases hpyfs with
    | refused hrc => exact absurd hrrc hrc
    | notFilled _ hrc => exact absurd hrrc hrc
    | @copied b w' hfilled hbuf =>
      simp only at hworld hopen
      have hpos := h.pos
      have hbytes : ∀ k, k < min size (pyfsBlockSize - file.pos) →
          b k = S.getD (file.pos + k) 0 := by
        intro k hk
        rw [hworld] at hcache
        rw [hbuf k hk, Nat.add_assoc]
        exact hcache.resolve_left hfilled.cache_ne _ (by omega)
      have hu32 : u32 (file.pos + min size (pyfsBlockSize - file.pos))
          = file.pos + min size (pyfsBlockSize - file.pos) := by
        refine u32_of_lt ?_
        rw [pyfsBlockSize] at hpos ⊢
        omega
      rw [hu32] at hopen
      refine ⟨fun _ => ⟨rfl, b, rfl, hbytes⟩, _, hcalled.inv, hopen, h.ops, hdevice, hcache,
        ?_, ?_⟩
      · show file.pos + min size (pyfsBlockSize - file.pos) ≤ pyfsBlockSize
        omega
      · have hret : retBytes (.read vfsOk (some b) (min size (pyfsBlockSize - file.pos)))
            = (List.range (min size (pyfsBlockSize - file.pos))).map
              fun k => S.getD (file.pos + k) 0 := by
          rw [retBytes, if_pos rfl]
          exact List.map_congr_left fun k hk => hbytes k (List.mem_range.mp hk)
        rw [hret, h.got]
        exact (take_add_range S (by omega)).symm

/-! ## Runs -/

/-- A call in between: it does not close the descriptor, reads it into a buffer, and
    if it reads it no fill fails. -/
structure CleanStep (B : Blocks) (fd : UInt32) (v : Vfs World FsType FileOps)
    (e : VfsCall × VfsRet) (v' : Vfs World FsType FileOps) : Prop where
  step : VfsStep (fsCalls B) v e v'
  stays : e.1 ≠ .close fd
  buffers : ∀ size out, e.1 ≠ .read fd none size out
  fills : ∀ buf size out file, e.1 = .read fd (some buf) size out →
    v.files fd.toNat = some file → FillSucceeds B v.world file

/-- A `vfs_read` that returned. -/
theorem vfsStep_read {fd size : UInt32} {buffer : Option Buffer} {out : Nat} {r : VfsRet}
    (h : VfsStep (fsCalls B) v (.read fd buffer size out, r) v') :
    ∃ rc buffer' n, r = .read rc buffer' n
      ∧ vfsRead (fsCalls B) v fd.toNat buffer size.toNat out = .ok (rc, v', buffer', n) := by
  obtain ⟨⟨rc, t, buffer', n⟩, hcall, h⟩ := bind_ok h
  cases h
  exact ⟨rc, buffer', n, rfl, hcall⟩

theorem CacheInv.step (hboot : BootInv B boot) (hcov : Covers boot.live bs₀)
    (h : CacheInv B boot bs₀ S fd file got v) (hlen : S.length = pyfsBlockSize)
    (hst : CleanStep B fd v e v') :
    ∃ pos, CacheInv B boot bs₀ S fd { file with pos := pos } (got ++ delivered fd [e]) v' := by
  obtain ⟨c, r⟩ := e
  have hcalled := h.inv.step hboot hcov hst.step
  have hdelivered : delivered fd [(c, r)]
      = if namedFd c = some fd.toNat then retBytes r else [] := by
    rw [delivered, List.flatMap_singleton]
  rw [hdelivered]
  by_cases hnamed : namedFd c = some fd.toNat
  · rw [if_pos hnamed]
    cases c with
    | «open» path flags outFd => cases hnamed
    | close fd' =>
      have hfd : fd' = fd := UInt32.toNat_inj.mp (Option.some.inj hnamed)
      exact absurd (congrArg VfsCall.close hfd) hst.stays
    | read fd' buffer size out =>
      have hfd : fd' = fd := UInt32.toNat_inj.mp (Option.some.inj hnamed)
      subst hfd
      cases buffer with
      | none => exact absurd rfl (hst.buffers size out)
      | some buf =>
        obtain ⟨rc, buffer', n, rfl, hcall⟩ := vfsStep_read hst.step
        exact (h.read hlen hcalled (hst.fills _ _ _ _ rfl h.opened) hcall).2
  · rw [if_neg hnamed, List.append_nil]
    exact ⟨file.pos, h.other hcalled hnamed⟩

/-- **THE INVARIANT OF A RUN**, from the open of the descriptor on. -/
theorem cacheInv_run (hboot : BootInv B boot) (hcov : Covers boot.live bs₀)
    (h : CacheInv B boot bs₀ S fd file [] v) (hlen : S.length = pyfsBlockSize)
    (hrun : Run (CleanStep B fd) v es v') :
    ∃ pos, CacheInv B boot bs₀ S fd { file with pos := pos } (delivered fd es) v' := by
  induction hrun with
  | nil => exact ⟨file.pos, h⟩
  | snoc e _ hst ih =>
    obtain ⟨pos, hinv⟩ := ih
    obtain ⟨pos', hinv'⟩ := hinv.step hboot hcov hlen hst
    refine ⟨pos', ?_⟩
    rw [delivered, List.flatMap_append]
    exact hinv'

/-! ## Opening -/

/-- Only PyFS opens PyFS files. -/
theorem devfsOpen_ops {w w' : World} {path : List UInt8} {flags : Nat}
    {file file' : VfsFile FileOps}
    (h : devfsOpen B w path flags file = .ok (vfsOk, w', file')) : file'.ops ≠ some .pyfsFile := by
  have hnode : ∀ {ops : FileOps} {kind blk : Nat}, ops ≠ .pyfsFile →
      devfsNode w ops kind blk file = .ok (vfsOk, w', file') → file'.ops ≠ some .pyfsFile := by
    intro ops kind blk hops hcall
    obtain ⟨⟨ctx, heap⟩, -, hcall⟩ := bind_ok hcall
    by_cases hctx : ctx = 0
    · simp only [hctx, if_true] at hcall
      cases hcall
    · simp only [hctx, if_false] at hcall
      cases hcall
      exact fun hc => hops (Option.some.inj hc)
  rw [devfsOpen] at h
  by_cases hflags : flags &&& vfsOpenWrite ≠ 0
  · rw [if_pos hflags] at h
    cases h
  rw [if_neg hflags] at h
  by_cases hnull : strcmp path nullName = 0
  · rw [if_pos hnull] at h
    exact hnode (by decide) h
  rw [if_neg hnull] at h
  by_cases hzero : strcmp path zeroName = 0
  · rw [if_pos hzero] at h
    exact hnode (by decide) h
  rw [if_neg hzero] at h
  by_cases hdisk : strncmp path diskPrefix 4 = 0
  · rw [if_pos hdisk] at h
    by_cases hdev : blockGetByName B.toRegistry path = 0
    · simp only [hdev, if_true] at h
      cases h
    · simp only [hdev, if_false] at h
      exact hnode (by decide) h
  · rw [if_neg hdisk] at h
    cases h

/-- A PyFS file just opened has no cache. -/
theorem openFn_empty {ops : FsType} {w w' : World} {fs flags : Nat} {rel : List UInt8}
    {file file' : VfsFile FileOps}
    (h : (fsCalls B).openFn ops w fs rel flags file = .ok (vfsOk, w', file'))
    (hops : file'.ops = some .pyfsFile) : fctxCache w'.mem file'.fileCtx = 0 := by
  cases ops with
  | nullfs => cases h
  | devfs => exact absurd hops (devfsOpen_ops h)
  | pyfs =>
    rw [fsCalls] at h
    simp only [pyfsOpen] at h
    by_cases hnull : fs = 0
    · rw [if_pos hnull] at h
      cases h
    rw [if_neg hnull] at h
    by_cases hflags : flags &&& vfsOpenWrite ≠ 0
    · rw [if_pos hflags] at h
      cases h
    rw [if_neg hflags] at h
    by_cases hname : strcmp rel superblockName ≠ 0
    · rw [if_pos hname] at h
      cases h
    rw [if_neg hname] at h
    obtain ⟨⟨fctx, heap⟩, -, h⟩ := bind_ok h
    by_cases hctx : fctx = 0
    · simp only [hctx, if_true] at h
      cases h
    · simp only [hctx, if_false] at h
      cases h
      show fctxCache (Mem.store32 _ (fctx + 8) 0) fctx = 0
      rw [fctxCache, load32_store32_self]
      rfl

/-- A descriptor just opened on a PyFS file. -/
theorem cacheInv_open (hinv : FsInv B boot bs₀ v') {path : Option (List UInt8)}
    {flags : UInt32} {old : Option Nat}
    (hopen : VfsStep (fsCalls B) v (.open path flags old, .open vfsOk (some fd.toNat)) v')
    (hfile : v'.files fd.toNat = some file) (hops : file.ops = some .pyfsFile)
    (hdev : Delivers (pyfsDevice B v'.world.mem file) S) :
    CacheInv B boot bs₀ S fd file [] v' := by
  obtain ⟨⟨rc, t, out⟩, hcall, hret⟩ := bind_ok hopen
  cases hret
  rcases vfsOpen_cases hcall with
    ⟨hrc, -⟩ | ⟨p, o, i, tmp, -, -, -, hi, hlt, -, hupdate, openFn, fsCtx, rel, hcallback⟩
  · exact absurd rfl hrc
  · have hfd : fd.toNat = i := Option.some.inj hi
    have hentry : file = { tmp with pos := 0 } := by
      obtain ⟨-, -, hentry⟩ := files_some hfile
      rw [← hentry, hupdate, hfd, Function.update_self]
    subst hentry
    have hempty := openFn_empty hcallback hops
    exact ⟨hinv, hfile, hops, hdev, Or.inl hempty, Nat.zero_le _, rfl⟩

/-- **WHAT PYFS DELIVERS**: after any mounts and calls, open a PyFS file and read it,
    with other calls in between.  As long as no fill of its cache fails, the reads
    have delivered the sector up to the position `q` they reached, and the next
    read that succeeds delivers `min size (512 - q)` bytes from there. -/
theorem pyfs_reads_are_prefix (mem : Mem) (reads₀ : Nat) (g : MountTable FsType)
    (bootEvents : List BootEvent)
    (hboot : Run (BootStep B) (bootStart mem reads₀ g) bootEvents boot)
    (opened : Nat → VfsOpenEntry FileOps) (reads : Nat) (before : List (VfsCall × VfsRet))
    (v₀ v₁ : Vfs World FsType FileOps)
    (hbefore : Run (VfsStep (fsCalls B)) (fsStart boot opened reads) before v₀)
    (path : Option (List UInt8)) (flags : UInt32) (old : Option Nat)
    (hopen : VfsStep (fsCalls B) v₀ (.open path flags old, .open vfsOk (some fd.toNat)) v₁)
    (hfile : v₁.files fd.toNat = some file) (hops : file.ops = some .pyfsFile)
    (hlen : S.length = pyfsBlockSize) (hdev : Delivers (pyfsDevice B v₁.world.mem file) S)
    (hrun : Run (CleanStep B fd) v₁ es v) :
    ∃ q, v.files fd.toNat = some { file with pos := q } ∧ delivered fd es = S.take q
      ∧ ∀ buf size out buf' n v',
        CleanStep B fd v (.read fd (some buf) size out, .read vfsOk buf' n) v' →
        n = min size.toNat (pyfsBlockSize - q)
          ∧ ∃ b, buf' = some b ∧ ∀ k, k < n → b k = S.getD (q + k) 0 := by
  have hinv := bootInv_run hboot
  obtain ⟨bs₀, hheap⟩ := hinv.heap
  have hinv₁ := ((fsInv_run hinv hheap hbefore).step hinv hheap.owned hopen).inv
  obtain ⟨q, hcache⟩ := cacheInv_run hinv hheap.owned
    (cacheInv_open hinv₁ hopen hfile hops hdev) hlen hrun
  refine ⟨q, hcache.opened, hcache.got, fun buf size out buf' n v' hst => ?_⟩
  obtain ⟨rc, buf'', n', hret, hcall⟩ := vfsStep_read hst.step
  cases hret
  exact (hcache.read hlen (hcache.inv.step hinv hheap.owned hst.step)
    (hst.fills _ _ _ _ rfl hcache.opened) hcall).1 rfl

theorem smallBlocks_read {answers : Nat → Bool} {dev : Nat} {read : Nat → Nat → Reply}
    (h : ((smallBlocks answers).device dev).read = some read) (n lba : Nat) :
    read n lba = smallReply (answers n) := by
  cases h
  rfl

theorem smallBlocks_delivers (answers : Nat → Bool) (dev : Nat) :
    Delivers ((smallBlocks answers).device dev) smallSuperblock := by
  intro read hread n hok
  rw [smallBlocks_read hread] at hok ⊢
  cases hn : answers n with
  | true => rfl
  | false =>
    rw [hn] at hok
    cases hok

/-- With a device that always answers no fill fails. -/
theorem smallBlocks_clean {v v' : Vfs World FsType FileOps} {buf : Buffer} {size : UInt32}
    {out : Nat} {r : VfsRet}
    (h : VfsStep (fsCalls (smallBlocks fun _ => true)) v (.read 0 (some buf) size out, r) v') :
    CleanStep (smallBlocks fun _ => true) 0 v (.read 0 (some buf) size out, r) v' := by
  refine ⟨h, nofun, nofun, fun _ _ _ file _ _ _ p heap _ _ read hread => ?_⟩
  rw [smallBlocks_read hread]
  rfl

/-- Two reads deliver the first six bytes. -/
theorem pyfs_reads_are_prefix_six :
    ∃ v₁ es v q, Run (CleanStep (smallBlocks fun _ => true) 0) v₁ es v
      ∧ es.map (fun e => e.2.code) = [0, 0] ∧ delivered 0 es = smallSuperblock.take q
      ∧ delivered 0 es = [0x50, 0x59, 0x46, 0x53, 1, 0] := by
  have hboot := smallBoot_run (fun _ => true) (by decide +kernel)
  have hcodes : (do
      let (es₁, v₁) ← vfsCalls (fsCalls (smallBlocks fun _ => true)) (smallStart fun _ => true)
        [.open (some (root ++ superblockName)) 1 (some 0)]
      let (es, v) ← vfsCalls (fsCalls (smallBlocks fun _ => true)) v₁
        [.read 0 (some fun _ => 0) 4 0, .read 0 (some fun _ => 0) 2 0]
      .ok (es₁.map (fun e : VfsCall × VfsRet => e.2.code), (v₁.files 0).bind VfsFile.ops,
        es.map (fun e : VfsCall × VfsRet => e.2.code), delivered 0 es))
      = .ok ([0], some .pyfsFile, [0, 0], [0x50, 0x59, 0x46, 0x53, 1, 0]) := by
    decide +kernel
  obtain ⟨⟨es₁, v₁⟩, h₁, h⟩ := bind_ok hcodes
  obtain ⟨⟨es, v⟩, h₂, h⟩ := bind_ok h
  simp only [Except.ok.injEq, Prod.mk.injEq] at h
  obtain ⟨hcode₁, hops, hcodes₂, hgot⟩ := h
  -- the open, which gives descriptor 0
  obtain ⟨⟨r₁, v₁'⟩, hcall, h₁⟩ := bind_ok h₁
  cases h₁
  have hret := fsStart_open hcall (List.head_eq_of_cons_eq hcode₁)
  subst hret
  -- the two reads
  obtain ⟨⟨r₂, v₂⟩, hcall₂, h₂⟩ := bind_ok h₂
  obtain ⟨⟨es₂, v₂'⟩, h₃, h₂⟩ := bind_ok h₂
  cases h₂
  obtain ⟨⟨r₃, v₃⟩, hcall₃, h₃⟩ := bind_ok h₃
  cases h₃
  have hrun := (Run.single (smallBlocks_clean hcall₂)).append
    (Run.single (smallBlocks_clean hcall₃))
  obtain ⟨file, hfile, hfops⟩ := Option.bind_eq_some_iff.mp hops
  have hopen : VfsStep (fsCalls (smallBlocks fun _ => true)) (smallStart fun _ => true)
      (.open (some (root ++ superblockName)) 1 (some 0), .open vfsOk (some (0 : UInt32).toNat))
      v₁ := hcall
  obtain ⟨q, -, hprefix, -⟩ := pyfs_reads_are_prefix _ _ _ _ hboot (fun _ => ⟨false, .blank⟩) 1
    [] _ _ Run.nil _ _ _ hopen hfile hfops (by decide +kernel) (smallBlocks_delivers _ _) hrun
  exact ⟨_, _, _, q, hrun, hcodes₂, hprefix, hgot⟩

/-- **A FAILED FILL IS FORGOTTEN**: the device delivers the sector or fails.  It fails
    the first read of the file, and the second read, which asks it for nothing,
    succeeds and delivers what `kmalloc` found in memory. -/
theorem pyfs_reads_unfilled_cache :
    Run (BootStep (smallBlocks onlyFirst)) (bootStart ⟨fun _ => 0, []⟩ 0 smallMounts)
        [.create 0x1000 0, .mount smallMount] (smallBoot onlyFirst)
    ∧ (∀ dev, Delivers ((smallBlocks onlyFirst).device dev) smallSuperblock)
    ∧ ∃ es v, Run (VfsStep (fsCalls (smallBlocks onlyFirst))) (smallStart onlyFirst) es v
      ∧ es.map Prod.fst = smallCalls.take 3 ∧ es.map (fun e => e.2.code) = [0, 5, 0]
      ∧ delivered 0 es = [0, 0, 0, 0] ∧ smallSuperblock.take 4 = [0x50, 0x59, 0x46, 0x53] := by
  refine ⟨smallBoot_onlyFirst, smallBlocks_delivers onlyFirst, ?_⟩
  have hcodes : (vfsCalls (fsCalls (smallBlocks onlyFirst)) (smallStart onlyFirst)
      (smallCalls.take 3)).map (fun r => (r.1.map fun e => e.2.code, delivered 0 r.1))
      = .ok ([0, 5, 0], [0, 0, 0, 0]) := by
    decide +kernel
  obtain ⟨es, v, hrun, hcalls, hmap⟩ := vfsCalls_map hcodes
  obtain ⟨hes, hgot⟩ := Prod.mk.inj hmap
  exact ⟨es, v, hrun, hcalls, hes, hgot, rfl⟩

end PyramidFs
