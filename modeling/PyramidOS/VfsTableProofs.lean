import PyramidOS.VfsMountProofs

/-! # Queries of the mount table, and atomic mounts

    `vfs_mount_count`, `vfs_mountpoint` and `vfs_fs_name` walk the slots in use, as
    `vfs_find_mount` does.  A mount that fails may have written into a free slot, which
    none of them reads.

    * `SameMounts.answers` — tables with the same mounts in the same slots answer every
      query alike;
    * `StoredCall` — what a slot in use holds is what one call passed, in full;
    * `vfs_mount_atomic` — over whole runs: the table, when a call succeeds, and that a
      failing one cannot be observed. -/

namespace PyramidVfs

open PyramidString LabelledRun

variable {ω : Type} {g g' : MountTable ω} {i j index n : Nat}

/-! ## The code -/

/-- `vfs_mount_count`. -/
def vfsMountCount (g : MountTable ω) : Nat :=
  (List.range vfsMaxMounts).foldl (fun count i => if (g i).used then count + 1 else count) 0

/-- The loop of `vfs_mountpoint` and `vfs_fs_name`, with `n` slots in use behind it: the
    slot whose turn is `index`. -/
def vfsIndexLoop (g : MountTable ω) (index : Nat) : List Nat → Nat → Option Nat
  | [], _ => none
  | i :: rest, n =>
      if !(g i).used then vfsIndexLoop g index rest n
      else if n = index then some i
      else vfsIndexLoop g index rest (n + 1)

/-- `vfs_mountpoint`; `none` for NULL. -/
def vfsMountpoint (g : MountTable ω) (index : Nat) : Option (List UInt8) :=
  (vfsIndexLoop g index (List.range vfsMaxMounts) 0).map fun i => (g i).mountpoint

/-- `vfs_fs_name`; `none` for NULL. -/
def vfsFsName (g : MountTable ω) (index : Nat) : Option (List UInt8) :=
  (vfsIndexLoop g index (List.range vfsMaxMounts) 0).map fun i => (g i).fsName

/-! ## The queries as positions in the list of mounts -/

/-- Those of the slots `l` that are in use. -/
def usedSlots (g : MountTable ω) (l : List Nat) : List Nat := l.filter fun i => (g i).used

/-- Counting is the length. -/
theorem vfsMountCount_eq (g : MountTable ω) :
    vfsMountCount g = (usedSlots g (List.range vfsMaxMounts)).length := by
  have hfold : ∀ (l : List Nat) (count : Nat), l.foldl (fun count i =>
      if (g i).used then count + 1 else count) count = count + (usedSlots g l).length := by
    intro l
    induction l with
    | nil => intro count; rfl
    | cons i rest ih =>
        intro count
        rw [List.foldl_cons, ih, show usedSlots g (i :: rest)
          = if (g i).used then i :: usedSlots g rest else usedSlots g rest from List.filter_cons]
        cases (g i).used with
        | true => exact Nat.add_right_comm count 1 _
        | false => rfl
  exact (hfold _ 0).trans (Nat.zero_add _)

/-- The loop takes element `index - n`. -/
theorem vfsIndexLoop_eq (g : MountTable ω) (index : Nat) (l : List Nat) :
    ∀ n, n ≤ index → vfsIndexLoop g index l n = (usedSlots g l)[index - n]? := by
  induction l with
  | nil => intro n _; rfl
  | cons i rest ih =>
      intro n hn
      rw [vfsIndexLoop, usedSlots, List.filter_cons]
      cases hused : (g i).used with
      | false => exact ih n hn
      | true =>
          by_cases heq : n = index
          · rw [heq]
            simp
          · obtain ⟨k, hk⟩ : ∃ k, index - n = k + 1 := ⟨index - n - 1, by omega⟩
            have hrest := ih (n + 1) (by omega)
            rw [show index - (n + 1) = k by omega] at hrest
            simp [heq, hk, hrest, usedSlots]

/-- What the loop returns is in use. -/
theorem vfsIndexLoop_used {l : List Nat} (h : vfsIndexLoop g index l n = some i) :
    (g i).used = true := by
  induction l generalizing n with
  | nil => cases h
  | cons j rest ih =>
      rw [vfsIndexLoop] at h
      cases hused : (g j).used with
      | false =>
          rw [hused] at h
          exact ih h
      | true =>
          rw [hused] at h
          by_cases heq : n = index
          · rw [if_neg (by decide), if_pos heq] at h
            cases h
            exact hused
          · rw [if_neg (by decide), if_neg heq] at h
            exact ih h

/-! ## What a query can see -/

/-- Every query is answered alike. -/
structure SameAnswers (g g' : MountTable ω) : Prop where
  count : vfsMountCount g' = vfsMountCount g
  mountpoint : ∀ index, vfsMountpoint g' index = vfsMountpoint g index
  fsName : ∀ index, vfsFsName g' index = vfsFsName g index
  findMount : ∀ path, vfsFindMount g' path = vfsFindMount g path

/-- The loop stops at the same slot. -/
theorem SameMounts.indexLoop (h : SameMounts g g') (index : Nat) (l : List Nat) :
    ∀ n, vfsIndexLoop g' index l n = vfsIndexLoop g index l n := by
  induction l with
  | nil => intro n; rfl
  | cons i rest ih =>
      intro n
      rw [vfsIndexLoop, vfsIndexLoop, h.used, ih n, ih (n + 1)]

/-- What it reads there is the same. -/
theorem SameMounts.indexed {α : Type} (h : SameMounts g g') (read : VfsMount ω → α)
    (index : Nat) (l : List Nat) :
    (vfsIndexLoop g' index l 0).map (fun i => read (g' i))
      = (vfsIndexLoop g index l 0).map fun i => read (g i) := by
  rw [h.indexLoop]
  cases hi : vfsIndexLoop g index l 0 with
  | none => rfl
  | some i =>
      show some (read (g' i)) = some (read (g i))
      rw [h.entry i (vfsIndexLoop_used hi)]

/-- One turn of the search reads nothing of a slot that is not in use. -/
theorem SameMounts.findStep (h : SameMounts g g') (path : List UInt8) (b : Option Nat × Nat)
    (i : Nat) : vfsFindStep g' path b i = vfsFindStep g path b i := by
  cases hused : (g i).used with
  | false =>
      have hnot : (!false) = true := rfl
      rw [vfsFindStep, vfsFindStep, h.used, hused, if_pos hnot, if_pos hnot]
  | true => rw [vfsFindStep, vfsFindStep, h.entry i hused]

/-- **THE SAME MOUNTS GIVE THE SAME ANSWERS**, whatever the free slots hold. -/
theorem SameMounts.answers (h : SameMounts g g') : SameAnswers g g' := by
  constructor
  · rw [vfsMountCount, vfsMountCount]
    simp only [h.used]
  · exact fun index => h.indexed VfsMount.mountpoint index _
  · exact fun index => h.indexed VfsMount.fsName index _
  · intro path
    have hstep : vfsFindStep g' path = vfsFindStep g path := by
      funext b i
      exact h.findStep path b i
    rw [vfsFindMount, vfsFindMount, hstep]

/-! ## What the slots in use hold -/

/-- The texts and pointers of the call `c` are in the entry, in full: each text with its
    NUL in an array of the size `vfs.h` gives it. -/
structure StoredCall (e : VfsMount ω) (c : MountCall ω) : Prop where
  mountpoint : ∃ m, c.mountpoint = some m ∧ (text m).length < vfsMountpointMax
    ∧ e.mountpoint = padded vfsMountpointMax m
  fsName : ∃ name, c.fsName = some name ∧ (text name).length < vfsFsnameMax
    ∧ e.fsName = padded vfsFsnameMax name
  ops : e.ops = c.ops
  fsCtx : e.fsCtx = c.fsCtx

/-- The arrays have their size, hold a NUL, and the text before it is the text passed. -/
theorem StoredCall.sizes {e : VfsMount ω} {c : MountCall ω} (h : StoredCall e c) :
    e.mountpoint.length = vfsMountpointMax ∧ (text e.mountpoint).length < vfsMountpointMax
    ∧ e.fsName.length = vfsFsnameMax ∧ (text e.fsName).length < vfsFsnameMax := by
  obtain ⟨m, -, hm, hmem⟩ := h.mountpoint
  obtain ⟨name, -, hname, hnmem⟩ := h.fsName
  rw [hmem, hnmem, text_padded hm, text_padded hname]
  exact ⟨length_padded hm, hm, length_padded hname, hname⟩

/-- The call can be served: no null pointer, and mountable. -/
def MountCall.Accepted (c : MountCall ω) (g : MountTable ω) : Prop :=
  ∃ m name o, c.mountpoint = some m ∧ c.fsName = some name ∧ c.ops = some o
    ∧ Mountable g m name o

/-- **`vfs_mount` SUCCEEDS EXACTLY ON WHAT IT ACCEPTS**, and a failure keeps the mounts. -/
theorem vfsMount_accepts (g : MountTable ω) (c : MountCall ω) :
    ((vfsMount g c.mountpoint c.fsName c.ops c.fsCtx).1 = vfsOk ↔ c.Accepted g)
    ∧ ((vfsMount g c.mountpoint c.fsName c.ops c.fsCtx).1 ≠ vfsOk →
      SameMounts g (vfsMount g c.mountpoint c.fsName c.ops c.fsCtx).2) := by
  rcases vfsMount_cases g c.mountpoint c.fsName c.ops c.fsCtx with
    ⟨m, name, o, i, hm, hname, ho, hok, -, -, heq⟩ | ⟨hno, rc, g', hrc, hsame, heq⟩
  · rw [heq]
    exact ⟨iff_of_true rfl ⟨m, name, o, hm, hname, ho, hok⟩, fun hc => absurd rfl hc⟩
  · rw [heq]
    refine ⟨iff_of_false hrc ?_, fun _ => hsame⟩
    rintro ⟨m, name, o, hm, hname, ho, hok⟩
    exact hno m name o hm hname ho hok

/-- **WHERE THE MOUNTS COME FROM**: in a run, every slot in use holds one of its calls. -/
theorem stored_run {g₀ : MountTable ω} {cs : List (MountCall ω)}
    (hrun : Run MountStep (vfsInitMounts g₀) cs g) :
    ∀ i, Mounted g i → ∃ c ∈ cs, StoredCall (g i) c := by
  induction hrun with
  | nil =>
      rintro i ⟨hi, hused⟩
      rw [vfsInitMounts, if_pos hi] at hused
      cases hused
  | @snoc cs t u c _ hst ih =>
      intro i hi
      have hold : Mounted t i → ∃ c' ∈ cs ++ [c], StoredCall (t i) c' := by
        intro hmounted
        obtain ⟨c', hc', hstored⟩ := ih i hmounted
        exact ⟨c', List.mem_append_left _ hc', hstored⟩
      rcases vfsMount_cases t c.mountpoint c.fsName c.ops c.fsCtx with
        ⟨m, name, o, k, hm, hname, ho, hok, -, -, heq⟩ | ⟨-, rc, g', -, hsame, heq⟩
      · obtain rfl : Function.update t k _ = u := (congrArg Prod.snd heq).symm.trans hst
        by_cases hik : i = k
        · rw [hik, Function.update_self]
          exact ⟨c, List.mem_append_right _ (List.mem_singleton_self c),
            ⟨m, hm, hok.fits, rfl⟩, ⟨name, hname, hok.nameFits, rfl⟩, ho.symm, rfl⟩
        · rw [Mounted, Function.update_of_ne hik] at hi
          rw [Function.update_of_ne hik]
          exact hold hi
      · obtain rfl : g' = u := (congrArg Prod.snd heq).symm.trans hst
        have hused : (t i).used = true := (hsame.used i).symm.trans hi.2
        rw [hsame.entry i hused]
        exact hold ⟨hi.1, hused⟩

/-- What holds of the table: mountpoints differ, begin with a slash, and each slot in use
    holds one call in full, with an `ops` that can open. -/
structure TableConsistent (g : MountTable ω) (cs : List (MountCall ω)) : Prop where
  distinct : ∀ i j, Mounted g i → Mounted g j →
    text (g i).mountpoint = text (g j).mountpoint → i = j
  slashed : ∀ i, Mounted g i → charAt (g i).mountpoint 0 = slash
  opens : ∀ i, Mounted g i → ∃ ops, (g i).ops = some ops ∧ ops.openFn ≠ none
  sizes : ∀ i, Mounted g i → (g i).mountpoint.length = 32
    ∧ (text (g i).mountpoint).length < 32 ∧ (g i).fsName.length = 16
    ∧ (text (g i).fsName).length < 16
  stored : ∀ i, Mounted g i → ∃ c ∈ cs, StoredCall (g i) c

/-- **THE TABLE IS CONSISTENT AND MOUNTS ARE ATOMIC**, after any run of `vfs_mount`: a call
    succeeds exactly when it is accepted, and one that fails cannot be observed. -/
theorem vfs_mount_atomic {g₀ : MountTable ω} {cs : List (MountCall ω)}
    (hrun : Run MountStep (vfsInitMounts g₀) cs g) :
    TableConsistent g cs
    ∧ ∀ c : MountCall ω,
      ((vfsMount g c.mountpoint c.fsName c.ops c.fsCtx).1 = vfsOk ↔ c.Accepted g)
      ∧ ((vfsMount g c.mountpoint c.fsName c.ops c.fsCtx).1 ≠ vfsOk →
        SameAnswers g (vfsMount g c.mountpoint c.fsName c.ops c.fsCtx).2) := by
  have hinv := mountInv_run hrun
  have hstored := stored_run hrun
  constructor
  · refine ⟨hinv.distinct, fun i hi => ?_, hinv.opens, fun i hi => ?_, hstored⟩
    · exact (charAt_zero_eq_iff (by decide)).mpr (hinv.slashed i hi)
    · obtain ⟨c, -, hc⟩ := hstored i hi
      exact hc.sizes
  · intro c
    obtain ⟨hiff, hsame⟩ := vfsMount_accepts g c
    exact ⟨hiff, fun hfail => (hsame hfail).answers⟩

/-- `/` mounted, then a mount at `/dev` whose name of 16 characters does not fit: it fails
    with the mountpoint written into the second slot, and nobody sees it. -/
theorem vfs_mount_atomic_long_name :
    ∃ g : MountTable Unit, Run MountStep (vfsInitMounts fun _ => ⟨false, [], [], none, 0⟩)
        [⟨some [47], some [110], some ⟨some ()⟩, 0⟩] g
      ∧ (vfsMount g (some [47, 100, 101, 118]) (some (List.replicate 16 97)) (some ⟨some ()⟩)
          0).1 ≠ vfsOk
      ∧ SameAnswers g (vfsMount g (some [47, 100, 101, 118]) (some (List.replicate 16 97))
          (some ⟨some ()⟩) 0).2 := by
  have hrun : Run MountStep (vfsInitMounts fun _ => (⟨false, [], [], none, 0⟩ : VfsMount Unit))
      ([] ++ [⟨some [47], some [110], some ⟨some ()⟩, 0⟩]) _ := .snoc _ .nil rfl
  obtain ⟨-, hcall⟩ := vfs_mount_atomic hrun
  obtain ⟨-, hsame⟩ := hcall
    ⟨some [47, 100, 101, 118], some (List.replicate 16 97), some ⟨some ()⟩, 0⟩
  have hfail : (vfsMount (vfsMount (vfsInitMounts fun _ =>
      (⟨false, [], [], none, 0⟩ : VfsMount Unit)) (some [47]) (some [110]) (some ⟨some ()⟩) 0).2
      (some [47, 100, 101, 118]) (some (List.replicate 16 97)) (some ⟨some ()⟩) 0).1 ≠ vfsOk := by
    decide
  exact ⟨_, hrun, hfail, hsame hfail⟩

end PyramidVfs
