import PyramidOS.FsBootProofs

/-! # Relative paths

    `vfs_find_mount` hands a path to the filesystem without the mountpoint and
    without one slash.  Filesystems compare names as they stand, so a second
    slash makes a name no filesystem knows.

    * `relative_head_iff` — when the rest of a path begins with a slash;
    * `relative_path_iff` — the same of what `vfs_find_mount` returns, after any
      run of `vfs_mount`;
    * `openFn_slash` — no filesystem opens such a rest. -/

namespace PyramidVfs

open PyramidString LabelledRun

variable {ω : Type} {g : MountTable ω} {path rel m t rest : List UInt8} {i j : Nat}

/-! ## Two slashes -/

/-- The mountpoint without the slash of the root. -/
def stem (m : List UInt8) : List UInt8 := if m = root then [] else m

/-- The path `t` goes on with two slashes after the mountpoint it resolves to. -/
def DoubleSlash (g : MountTable ω) (t : List UInt8) : Prop :=
  ∃ i, Resolves g t i ∧ stem (text (g i).mountpoint) ++ [slash, slash] <+: t

/-- A path resolves to one entry. -/
theorem Resolves.unique (hi : Resolves g t i) (hj : Resolves g t j) : i = j := by
  by_contra hne
  have hlt := hi.longest j hj.mounted hj.covers fun heq => hne heq.symm
  have hlt' := hj.longest i hi.mounted hi.covers hne
  exact Nat.lt_asymm hlt hlt'

theorem tail_head_iff (h : rest.head? = some slash) :
    rest.tail.head? = some slash ↔ [slash, slash] <+: rest := by
  cases rest with
  | nil => cases h
  | cons a rest =>
    obtain rfl : a = slash := Option.some.inj h
    rw [List.cons_prefix_cons, List.tail_cons]
    cases rest with
    | nil => simp
    | cons b rest => simp [eq_comm]

/-- The rest of a path after its mountpoint begins with a slash when two follow the
    mountpoint. -/
theorem relative_head_iff (hc : Covers m t) (ht : t.head? = some slash) :
    (relative m t).head? = some slash ↔ stem m ++ [slash, slash] <+: t := by
  rw [relative, stem]
  by_cases hroot : m = root
  · rw [if_pos hroot, if_pos hroot, List.nil_append]
    exact tail_head_iff ht
  · rw [if_neg hroot, if_neg hroot]
    obtain ⟨rest, rfl, hrest⟩ := hc.resolve_left hroot
    rw [List.drop_left, List.prefix_append_right_inj]
    rcases hrest with rfl | hslash
    · simp
    · rw [if_pos hslash]
      exact tail_head_iff hslash

/-- **RELATIVE PATHS**, after any run of `vfs_mount`: what the filesystem is handed
    begins with no slash exactly when the path has at most one after the mountpoint
    it resolves to. -/
theorem relative_path_iff {g₀ : MountTable ω} {cs : List (MountCall ω)}
    (hrun : Run MountStep (vfsInitMounts g₀) cs g) (hfind : vfsFindMount g path = .ok (i, rel)) :
    charAt rel 0 ≠ slash ↔ ¬ DoubleSlash g (text path) := by
  have hpath : charAt path 0 = slash := by
    by_contra hne
    rw [vfsFindMount, if_pos hne] at hfind
    cases hfind
  rcases vfsFindMount_spec (mountInv_run hrun) hpath with
    ⟨herr, -⟩ | ⟨j, rel', hok, hres, -, hrel⟩
  · rw [hfind] at herr
    cases herr
  · rw [hfind] at hok
    cases hok
    have hhead := relative_head_iff hres.covers ((charAt_zero_eq_iff (by decide)).mp hpath)
    rw [ne_eq, charAt_zero_eq_iff (by decide), hrel, hhead]
    refine not_congr ⟨fun hpre => ⟨i, hres, hpre⟩, ?_⟩
    rintro ⟨k, hk, hpre⟩
    rwa [hk.unique hres] at hpre

end PyramidVfs

namespace PyramidFs

open ByteMem PyramidString PyramidKernel PyramidHeap PyramidBlock PyramidVfs LabelledRun

variable {B : Blocks} {w : World} {rel name : List UInt8}

/-! ## No such name -/

/-- A string that begins with a slash is none that begins otherwise. -/
theorem strncmp_slash {n : Nat} (hrel : charAt rel 0 = slash)
    (hname : (text name).head? ≠ some slash) : strncmp rel name (n + 1) ≠ 0 := by
  intro hcmp
  have htake := congrArg List.head? ((strncmp_eq_zero_iff _ _ _).mp hcmp)
  rw [List.head?_take, List.head?_take, if_neg (Nat.succ_ne_zero n),
    if_neg (Nat.succ_ne_zero n)] at htake
  exact hname (htake ▸ (charAt_zero_eq_iff (by decide)).mp hrel)

theorem strcmp_slash (hrel : charAt rel 0 = slash)
    (hname : (text name).head? ≠ some slash) : strcmp rel name ≠ 0 := by
  intro hcmp
  have hhead := congrArg List.head? ((strcmp_eq_zero_iff _ _).mp hcmp)
  exact hname (hhead ▸ (charAt_zero_eq_iff (by decide)).mp hrel)

/-- **NO FILESYSTEM OPENS** a name that begins with a slash. -/
theorem openFn_slash (hrel : charAt rel 0 = slash) (ops : FsType) (fs flags : Nat)
    (file : VfsFile FileOps) :
    ∃ rc, rc ≠ vfsOk ∧ (fsCalls B).openFn ops w fs rel flags file = .ok (rc, w, file) := by
  cases ops with
  | nullfs => exact ⟨vfsErrNotFound, by decide, rfl⟩
  | devfs =>
    show ∃ rc, rc ≠ vfsOk ∧ devfsOpen B w rel flags file = .ok (rc, w, file)
    rw [devfsOpen]
    by_cases hflags : flags &&& vfsOpenWrite ≠ 0
    · exact ⟨vfsErrNotSupported, by decide, if_pos hflags⟩
    · rw [if_neg hflags, if_neg (strcmp_slash hrel (by decide)),
        if_neg (strcmp_slash hrel (by decide)), if_neg (strncmp_slash hrel (by decide))]
      exact ⟨vfsErrNotFound, by decide, rfl⟩
  | pyfs =>
    show ∃ rc, rc ≠ vfsOk ∧ pyfsOpen w fs rel flags file = .ok (rc, w, file)
    rw [pyfsOpen]
    by_cases hnull : fs = 0
    · exact ⟨vfsErrInvalidParam, by decide, if_pos hnull⟩
    rw [if_neg hnull]
    by_cases hflags : flags &&& vfsOpenWrite ≠ 0
    · exact ⟨vfsErrNotSupported, by decide, if_pos hflags⟩
    · rw [if_neg hflags, if_pos (strcmp_slash hrel (by decide))]
      exact ⟨vfsErrNotFound, by decide, rfl⟩

/-! ## The null device -/

/-- `/` is NullFS and `/dev` is DevFS. -/
def devMounts : List (MountCall FsType) :=
  [⟨some root, some (chars "root"), some ⟨some .nullfs⟩, 0⟩,
    ⟨some (chars "/dev"), some (chars "devfs"), some ⟨some .devfs⟩, 0⟩]

/-- The mount table after some calls. -/
def mountAll (g : MountTable FsType) (cs : List (MountCall FsType)) : MountTable FsType :=
  cs.foldl (fun g c => (vfsMount g c.mountpoint c.fsName c.ops c.fsCtx).2) g

def devTable : MountTable FsType := mountAll (vfsInitMounts smallMounts) devMounts

theorem devTable_run : Run MountStep (vfsInitMounts smallMounts) devMounts devTable :=
  (Run.single rfl).append (Run.single rfl)

/-- The code `vfs_open` returns for a path of the fresh system. -/
def devOpen (path : String) : Except Halt Nat :=
  (vfsOpen (fsCalls (smallBlocks fun _ => true))
    ⟨devTable, fun _ => ⟨false, .blank⟩, ⟨heapFirstBlock ⟨fun _ => 0, []⟩, 0⟩⟩
    (some (chars path)) 1 (some 0)).map Prod.fst

/-- `/dev/null` reaches DevFS as `null`. -/
theorem relative_path_iff_null :
    ∃ i rel, vfsFindMount devTable (chars "/dev/null") = .ok (i, rel)
      ∧ ¬ DoubleSlash devTable (text (chars "/dev/null")) := by
  have hfind : vfsFindMount devTable (chars "/dev/null") = .ok (1, chars "null") := by
    decide +kernel
  exact ⟨1, chars "null", hfind, (relative_path_iff devTable_run hfind).mp (by decide)⟩

/-- **A SECOND SLASH** reaches DevFS, which then knows no such file. -/
theorem slash_reaches_devfs :
    Run MountStep (vfsInitMounts smallMounts) devMounts devTable
      ∧ vfsFindMount devTable (chars "/dev//null") = .ok (1, chars "/null")
      ∧ charAt (chars "/null") 0 = slash
      ∧ devOpen "/dev/null" = .ok vfsOk ∧ devOpen "/dev//null" = .ok vfsErrNotFound := by
  refine ⟨devTable_run, ?_, rfl, ?_, ?_⟩ <;> decide +kernel

end PyramidFs
