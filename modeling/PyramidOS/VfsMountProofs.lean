import PyramidOS.RunProofs
import PyramidOS.StringProofs
import Mathlib.Logic.Function.Basic
import Mathlib.Data.List.Induction

/-! # The mount table

    `vfs.c`, mounting and path resolution.  A mountpoint covers a path when it
    is the root or a prefix of the path that ends at a component boundary
    (`Covers`), and the table resolves a path to the longest mountpoint that
    covers it.

    * `vfsFindMount_spec` — what the scan of the table finds;
    * `MountInv` — mountpoints begin with a slash and differ pairwise;
    * `vfs_longest_prefix` — resolution after any run of `vfs_mount`, whatever
      the order of the mounts. -/

namespace PyramidVfs

open PyramidString LabelledRun

/-! ## The code -/

/-- The return codes of `vfs.h`. -/
def vfsOk : Nat := 0
def vfsErrInvalidParam : Nat := 1
def vfsErrNoSpace : Nat := 2
def vfsErrNotFound : Nat := 3
def vfsErrNotSupported : Nat := 4
def vfsErrIo : Nat := 5
def vfsErrNoMount : Nat := 6
def vfsErrBadFd : Nat := 7

/-- The limits of `vfs.h`. -/
def vfsMaxMounts : Nat := 8
def vfsMaxOpenFiles : Nat := 32
def vfsMountpointMax : Nat := 32
def vfsFsnameMax : Nat := 16

/-- The character `/`. -/
def slash : UInt8 := 47

/-- `VfsFsOps`, over the type of the open functions. -/
structure VfsFsOps (ω : Type) where
  openFn : Option ω

/-- `VfsMount`. -/
structure VfsMount (ω : Type) where
  used : Bool
  mountpoint : List UInt8
  fsName : List UInt8
  ops : Option (VfsFsOps ω)
  fsCtx : Nat

/-- `g_mounts`. -/
abbrev MountTable (ω : Type) := Nat → VfsMount ω

section Code

variable {ω : Type}

/-- `vfs_strnlen`. -/
def vfsStrnlen (s : List UInt8) (maxLen : Nat) : Nat :=
  ((List.range maxLen).find? fun i => charAt s i = 0).getD maxLen

/-- `vfs_strlcpy`: the return code and the array `dst` afterwards. -/
def vfsStrlcpy (dst : List UInt8) (dstSize : Nat) (src : List UInt8) :
    Nat × List UInt8 :=
  if dstSize = 0 then (vfsErrInvalidParam, dst)
  else
    let n := vfsStrnlen src dstSize
    if n ≥ dstSize then (vfsErrNoSpace, dst)
    else (vfsOk, src.take n ++ List.replicate (dstSize - n) 0)

/-- `vfs_mountpoint_matches`. -/
def vfsMountpointMatches (mountpoint path : List UInt8) : Bool :=
  if charAt mountpoint 0 = slash ∧ charAt mountpoint 1 = 0 then charAt path 0 = slash
  else
    let mlen := strlen mountpoint
    if mlen = 0 then false
    else if strncmp path mountpoint mlen ≠ 0 then false
    else if charAt path mlen = 0 then true
    else charAt path mlen = slash

/-- One turn of the loop of `vfs_find_mount`, on `best` and `best_len`. -/
def vfsFindStep (g : MountTable ω) (path : List UInt8) (b : Option Nat × Nat) (i : Nat) :
    Option Nat × Nat :=
  if !(g i).used then b
  else if !vfsMountpointMatches (g i).mountpoint path then b
  else
    let mlen := strlen (g i).mountpoint
    if mlen > b.2 then (some i, mlen) else b

/-- `vfs_find_mount`: the index of the mount and the relative path, or the
    error code.  `best` is `none` for -1. -/
def vfsFindMount (g : MountTable ω) (path : List UInt8) : Except Nat (Nat × List UInt8) :=
  if charAt path 0 ≠ slash then .error vfsErrInvalidParam
  else
    let (best, bestLen) := (List.range vfsMaxMounts).foldl (vfsFindStep g path) (none, 0)
    match best with
    | none => .error vfsErrNoMount
    | some best =>
        if bestLen = 1 then .ok (best, path.drop 1)
        else
          let rel := path.drop bestLen
          .ok (best, if charAt rel 0 = slash then rel.drop 1 else rel)

/-- `vfs_init`, on the mount table. -/
def vfsInitMounts (g : MountTable ω) : MountTable ω := fun i =>
  if i < vfsMaxMounts then
    { used := false, ops := none, fsCtx := 0
      mountpoint := (g i).mountpoint.set 0 0, fsName := (g i).fsName.set 0 0 }
  else g i

/-- `vfs_mount`; `none` is a null pointer. -/
def vfsMount (g : MountTable ω) (mountpoint fsName : Option (List UInt8))
    (ops : Option (VfsFsOps ω)) (fsCtx : Nat) : Nat × MountTable ω :=
  match mountpoint, fsName, ops with
  | some mountpoint, some fsName, some ops =>
      if ops.openFn.isNone then (vfsErrInvalidParam, g)
      else if charAt mountpoint 0 ≠ slash then (vfsErrInvalidParam, g)
      else if (List.range vfsMaxMounts).any fun i =>
          (g i).used && strcmp (g i).mountpoint mountpoint == 0 then
        (vfsErrInvalidParam, g)
      else
        match (List.range vfsMaxMounts).find? fun i => !(g i).used with
        | none => (vfsErrNoSpace, g)
        | some i =>
            let (rc, buf) := vfsStrlcpy (g i).mountpoint vfsMountpointMax mountpoint
            let g := Function.update g i { g i with mountpoint := buf }
            if rc ≠ vfsOk then (rc, g)
            else
              let (rc, buf) := vfsStrlcpy (g i).fsName vfsFsnameMax fsName
              let g := Function.update g i { g i with fsName := buf }
              if rc ≠ vfsOk then (rc, g)
              else (vfsOk, Function.update g i
                { g i with ops := some ops, fsCtx := fsCtx, used := true })
  | _, _, _ => (vfsErrInvalidParam, g)

end Code

variable {ω : Type} {g g' : MountTable ω} {path m t : List UInt8} {i j n : Nat}

/-! ## Covering -/

/-- The root mountpoint. -/
def root : List UInt8 := [slash]

/-- The mountpoint `m` covers the path `t`. -/
def Covers (m t : List UInt8) : Prop :=
  m = root ∨ ∃ rest, t = m ++ rest ∧ (rest = [] ∨ rest.head? = some slash)

/-- What is left of the path `t` under the mountpoint `m`. -/
def relative (m t : List UInt8) : List UInt8 :=
  if m = root then t.tail
  else if (t.drop m.length).head? = some slash then (t.drop m.length).tail
  else t.drop m.length

/-- Two mountpoints that cover one path differ in length. -/
theorem Covers.eq_of_length {m' : List UInt8} (h : Covers m t) (h' : Covers m' t)
    (hm : m.head? = some slash) (hm' : m'.head? = some slash)
    (hlen : m.length = m'.length) : m = m' := by
  -- a slash alone is the root
  have hroot : ∀ m : List UInt8, m.head? = some slash → m.length = 1 → m = root := by
    intro m hm hl
    obtain ⟨a, rfl⟩ := List.length_eq_one_iff.mp hl
    simpa [root] using hm
  rcases h with rfl | ⟨rest, hrest, -⟩
  · exact (hroot m' hm' hlen.symm).symm
  · rcases h' with rfl | ⟨rest', hrest', -⟩
    · exact hroot m hm hlen
    · rw [hrest] at hrest'
      exact (List.append_inj hrest' hlen).1

theorem text_eq_root_iff :
    text m = root ↔ charAt m 0 = slash ∧ charAt m 1 = 0 := by
  have hs : slash ≠ 0 := by decide
  cases m with
  | nil => simp [root, Ne.symm hs]
  | cons a m =>
      by_cases ha : a = slash
      · subst ha
        rw [text_cons hs]
        simp [root, charAt_zero_eq_zero_iff]
      · refine iff_of_false (fun h => ?_) fun h => ha h.1
        have hhead := (charAt_zero_eq_iff (s := a :: m) hs).mpr (by rw [h]; rfl)
        exact ha hhead

/-- **`vfs_mountpoint_matches`** decides covering. -/
theorem vfsMountpointMatches_iff (hm : (text m).head? = some slash)
    (hpath : charAt path 0 = slash) :
    vfsMountpointMatches m path = true ↔ Covers (text m) (text path) := by
  rw [vfsMountpointMatches]
  by_cases hroot : text m = root
  · rw [if_pos (text_eq_root_iff.mp hroot)]
    exact iff_of_true (decide_eq_true hpath) (Or.inl hroot)
  · rw [if_neg fun h => hroot (text_eq_root_iff.mpr h)]
    have hlen : strlen m ≠ 0 := by
      rw [strlen_eq]
      intro h
      rw [List.length_eq_zero_iff.mp h] at hm
      cases hm
    rw [if_neg hlen, Covers, or_iff_right hroot]
    -- the comparison and the look at the next character
    have hcmp : strncmp path m (strlen m) = 0 ↔ text m <+: text path := by
      rw [strncmp_eq_zero_iff, strlen_eq, List.take_length, List.prefix_iff_eq_take, eq_comm]
    by_cases hpre : text m <+: text path
    · rw [if_neg (not_not.mpr (hcmp.mpr hpre))]
      obtain ⟨rest, hrest⟩ := hpre
      have hdrop : text (path.drop (strlen m)) = rest := by
        rw [strlen_eq, text_drop (by rw [← hrest]; simp), ← hrest, List.drop_left]
      have hnext : ∀ a : UInt8, charAt path (strlen m) = a ↔
          charAt (path.drop (strlen m)) 0 = a := by
        intro a
        rw [charAt_drop, Nat.add_zero]
      have hend : charAt path (strlen m) = 0 ↔ rest = [] := by
        rw [hnext, charAt_zero_eq_zero_iff, hdrop]
      have hslash : charAt path (strlen m) = slash ↔ rest.head? = some slash := by
        rw [hnext, charAt_zero_eq_iff (by decide), hdrop]
      have hcover : (∃ r, text path = text m ++ r ∧ (r = [] ∨ r.head? = some slash))
          ↔ rest = [] ∨ rest.head? = some slash := by
        constructor
        · rintro ⟨r, hr, hcase⟩
          rw [← hrest] at hr
          rw [List.append_cancel_left hr]
          exact hcase
        · intro hcase
          exact ⟨rest, hrest.symm, hcase⟩
      rw [hcover, ← hend, ← hslash]
      by_cases h0 : charAt path (strlen m) = 0
      · simp [h0]
      · simp [h0]
    · rw [if_pos fun h => hpre (hcmp.mp h)]
      refine iff_of_false Bool.false_ne_true ?_
      rintro ⟨r, hr, -⟩
      exact hpre ⟨r, hr.symm⟩

/-! ## The scan of the table -/

/-- Entry `i` is a mount. -/
def Mounted (g : MountTable ω) (i : Nat) : Prop :=
  i < vfsMaxMounts ∧ (g i).used = true

/-- **THE MOUNT INVARIANT**: mountpoints begin with a slash and differ pairwise,
    and every mount can open files. -/
structure MountInv (g : MountTable ω) : Prop where
  slashed : ∀ i, Mounted g i → (text (g i).mountpoint).head? = some slash
  distinct : ∀ i j, Mounted g i → Mounted g j →
    text (g i).mountpoint = text (g j).mountpoint → i = j
  opens : ∀ i, Mounted g i → ∃ ops, (g i).ops = some ops ∧ ops.openFn ≠ none

/-- What the loop of `vfs_find_mount` has found after the entries `l`: the
    longest match, or none. -/
structure Found (g : MountTable ω) (path : List UInt8) (l : List Nat)
    (b : Option Nat × Nat) : Prop where
  longest : ∀ i ∈ l, (g i).used = true → vfsMountpointMatches (g i).mountpoint path = true →
    strlen (g i).mountpoint ≤ b.2
  none : b.1 = none → b.2 = 0
  some : ∀ i, b.1 = some i → i ∈ l ∧ (g i).used = true
    ∧ vfsMountpointMatches (g i).mountpoint path = true ∧ strlen (g i).mountpoint = b.2

theorem vfsFindStep_found {l : List Nat} {b : Option Nat × Nat} (h : Found g path l b)
    (i : Nat) : Found g path (l ++ [i]) (vfsFindStep g path b i) := by
  have hkeep : (∀ k, k = i → (g k).used = true →
      vfsMountpointMatches (g k).mountpoint path = true → strlen (g k).mountpoint ≤ b.2) →
      Found g path (l ++ [i]) b := by
    intro hi
    refine ⟨fun k hk hu hm => ?_, h.none, fun k hk => ?_⟩
    · rcases List.mem_append.mp hk with hl | hlast
      · exact h.longest k hl hu hm
      · exact hi k (List.mem_singleton.mp hlast) hu hm
    · obtain ⟨hl, hrest⟩ := h.some k hk
      exact ⟨List.mem_append_left _ hl, hrest⟩
  rw [vfsFindStep]
  by_cases hused : (g i).used = true
  · rw [if_neg (by simp [hused])]
    by_cases hmatch : vfsMountpointMatches (g i).mountpoint path = true
    · rw [if_neg (by simp [hmatch])]
      by_cases hlen : strlen (g i).mountpoint > b.2
      · rw [if_pos hlen]
        refine ⟨fun k hk hu hm => ?_, fun hc => (nomatch hc), fun k hk => ?_⟩
        · rcases List.mem_append.mp hk with hl | hlast
          · exact Nat.le_trans (h.longest k hl hu hm) (Nat.le_of_lt hlen)
          · rw [List.mem_singleton.mp hlast]
        · rw [← Option.some.inj hk]
          exact ⟨List.mem_append_right _ (List.mem_singleton_self i), hused, hmatch, rfl⟩
      · rw [if_neg hlen]
        refine hkeep fun k hk _ _ => ?_
        rw [hk]
        exact Nat.not_lt.mp hlen
    · rw [if_pos (by simp [hmatch])]
      exact hkeep fun k hk _ hm => absurd (hk ▸ hm) hmatch
  · rw [if_pos (by simp [hused])]
    exact hkeep fun k hk hu _ => absurd (hk ▸ hu) hused

theorem vfsFindFold_found (g : MountTable ω) (path : List UInt8) (l : List Nat) :
    Found g path l (l.foldl (vfsFindStep g path) (none, 0)) := by
  induction l using List.reverseRecOn with
  | nil => exact ⟨fun i hi => (nomatch hi), fun _ => rfl, fun i hi => (nomatch hi)⟩
  | append_singleton l i ih =>
      rw [List.foldl_append]
      exact vfsFindStep_found ih i

/-- Entry `i` is the longest mountpoint that covers the path `t`. -/
structure Resolves (g : MountTable ω) (t : List UInt8) (i : Nat) : Prop where
  mounted : Mounted g i
  covers : Covers (text (g i).mountpoint) t
  longest : ∀ j, Mounted g j → Covers (text (g j).mountpoint) t → j ≠ i →
    (text (g j).mountpoint).length < (text (g i).mountpoint).length

/-- **`vfs_find_mount`** resolves a path to the longest mountpoint that covers
    it, and to nothing when none does. -/
theorem vfsFindMount_spec (h : MountInv g) (hpath : charAt path 0 = slash) :
    (vfsFindMount g path = .error vfsErrNoMount
      ∧ ∀ i, Mounted g i → ¬ Covers (text (g i).mountpoint) (text path))
    ∨ ∃ i rel, vfsFindMount g path = .ok (i, rel) ∧ Resolves g (text path) i
      ∧ (∃ k, k ≤ (text path).length ∧ rel = path.drop k)
      ∧ text rel = relative (text (g i).mountpoint) (text path) := by
  have hcovers : ∀ i, Mounted g i →
      (vfsMountpointMatches (g i).mountpoint path = true
        ↔ Covers (text (g i).mountpoint) (text path)) :=
    fun i hi => vfsMountpointMatches_iff (h.slashed i hi) hpath
  have hfold := vfsFindFold_found g path (List.range vfsMaxMounts)
  rw [vfsFindMount, if_neg (not_not.mpr hpath)]
  obtain ⟨b, hb⟩ : ∃ b, (List.range vfsMaxMounts).foldl (vfsFindStep g path) (none, 0) = b :=
    ⟨_, rfl⟩
  rw [hb] at hfold ⊢
  obtain ⟨best, bestLen⟩ := b
  cases best with
  | none =>
      refine Or.inl ⟨rfl, fun i hi hc => ?_⟩
      have hle := hfold.longest i (List.mem_range.mpr hi.1) hi.2 ((hcovers i hi).mpr hc)
      rw [hfold.none rfl, strlen_eq, Nat.le_zero, List.length_eq_zero_iff] at hle
      have hhead := h.slashed i hi
      rw [hle] at hhead
      cases hhead
  | some i =>
      obtain ⟨hrange, hused, hmatch, hlen⟩ := hfold.some i rfl
      have hi : Mounted g i := ⟨List.mem_range.mp hrange, hused⟩
      have hcov := (hcovers i hi).mp hmatch
      have hlen' : (text (g i).mountpoint).length = bestLen := (strlen_eq _).symm.trans hlen
      have hres : Resolves g (text path) i := by
        refine ⟨hi, hcov, fun j hj hc hne => ?_⟩
        have hle := hfold.longest j (List.mem_range.mpr hj.1) hj.2 ((hcovers j hj).mpr hc)
        rw [strlen_eq, ← hlen'] at hle
        refine Nat.lt_of_le_of_ne hle fun heq => hne (h.distinct j i hj hi ?_)
        exact hc.eq_of_length hcov (h.slashed j hj) (h.slashed i hi) heq
      have hhead : (text path).head? = some slash :=
        (charAt_zero_eq_iff (by decide)).mp hpath
      by_cases hroot : text (g i).mountpoint = root
      · have h1 : bestLen = 1 := by rw [← hlen', hroot]; rfl
        have hpos : 1 ≤ (text path).length := by
          cases ht : text path with
          | nil => rw [ht] at hhead; cases hhead
          | cons a t => simp
        refine Or.inr ⟨i, path.drop 1, ?_, hres, ⟨1, hpos, rfl⟩, ?_⟩
        · simp [h1]
        · rw [relative, if_pos hroot, text_drop hpos, List.drop_one]
      · have h1 : bestLen ≠ 1 := by
          intro h1
          have hle : root.length = (text (g i).mountpoint).length := by rw [hlen', h1]; rfl
          exact hroot (Covers.eq_of_length (Or.inl rfl) hcov rfl (h.slashed i hi) hle).symm
        obtain ⟨rest, hrest, -⟩ := hcov.resolve_left hroot
        have hle : bestLen ≤ (text path).length := by rw [← hlen', hrest]; simp
        have hrel : text (path.drop bestLen) = (text path).drop bestLen := text_drop hle
        have hrelative : relative (text (g i).mountpoint) (text path)
            = if (text (path.drop bestLen)).head? = some slash
              then (text (path.drop bestLen)).tail else text (path.drop bestLen) := by
          rw [relative, if_neg hroot, hlen', hrel]
        by_cases hslash : charAt (path.drop bestLen) 0 = slash
        · have hhead' := (charAt_zero_eq_iff (by decide)).mp hslash
          have hpos : 1 ≤ (text (path.drop bestLen)).length := by
            cases ht : text (path.drop bestLen) with
            | nil => rw [ht] at hhead'; cases hhead'
            | cons a t => simp
          refine Or.inr ⟨i, (path.drop bestLen).drop 1, ?_, hres,
            ⟨bestLen + 1, ?_, List.drop_drop ..⟩, ?_⟩
          · simp [h1, hslash]
          · rw [hrel, List.length_drop] at hpos
            omega
          · rw [hrelative, if_pos hhead', text_drop hpos, List.drop_one]
        · refine Or.inr ⟨i, path.drop bestLen, ?_, hres, ⟨bestLen, hle, rfl⟩, ?_⟩
          · simp [h1, hslash]
          · rw [hrelative, if_neg fun hc => hslash ((charAt_zero_eq_iff (by decide)).mpr hc)]

/-- No failure of `vfs_find_mount` is `VFS_OK`. -/
theorem vfsFindMount_error {e : Nat} (h : vfsFindMount g path = .error e) : e ≠ vfsOk := by
  rw [vfsFindMount] at h
  by_cases hslash : charAt path 0 ≠ slash
  · rw [if_pos hslash] at h
    cases h
    decide
  · rw [if_neg hslash] at h
    generalize (List.range vfsMaxMounts).foldl (vfsFindStep g path) (none, 0) = b at h
    obtain ⟨best, bestLen⟩ := b
    cases best with
    | none =>
      cases h
      decide
    | some i =>
      simp only at h
      by_cases h1 : bestLen = 1
      · rw [if_pos h1] at h
        cases h
      · rw [if_neg h1] at h
        cases h

/-- What `vfs_find_mount` finds is mounted. -/
theorem vfsFindMount_mounted {rel : List UInt8} (h : MountInv g)
    (hfind : vfsFindMount g path = .ok (i, rel)) : Mounted g i := by
  by_cases hslash : charAt path 0 = slash
  · rcases vfsFindMount_spec h hslash with ⟨herr, -⟩ | ⟨j, rel', hok, hres, -⟩
    · rw [hfind] at herr
      cases herr
    · rw [hfind] at hok
      cases hok
      exact hres.mounted
  · rw [vfsFindMount, if_pos hslash] at hfind
    cases hfind

/-! ## Mounting -/

theorem vfsStrnlen_eq (t : List UInt8) (n : Nat) :
    vfsStrnlen t n = min (text t).length n := by
  rw [vfsStrnlen]
  by_cases hlt : (text t).length < n
  · have hfind : (List.range n).find? (fun i => charAt t i = 0) = some (text t).length := by
      rw [List.find?_range_eq_some]
      refine ⟨by simp [charAt_length], List.mem_range.mpr hlt, fun j hj => ?_⟩
      simp [charAt_ne_zero hj]
    rw [hfind, Option.getD_some, Nat.min_eq_left (Nat.le_of_lt hlt)]
  · have hfind : (List.range n).find? (fun i => charAt t i = 0) = none := by
      rw [List.find?_range_eq_none]
      intro i hi
      have hi' : i < (text t).length := by omega
      simp [charAt_ne_zero hi']
    rw [hfind, Option.getD_none, Nat.min_eq_right (Nat.not_lt.mp hlt)]

/-- The text of `t` in an array of `n` bytes, filled up with NULs. -/
def padded (n : Nat) (t : List UInt8) : List UInt8 :=
  text t ++ List.replicate (n - (text t).length) 0

/-- A text that is shorter than the array is complete in it. -/
theorem text_padded (h : (text t).length < n) : text (padded n t) = text t := by
  obtain ⟨k, hk⟩ : ∃ k, n - (text t).length = k + 1 := ⟨n - (text t).length - 1, by omega⟩
  rw [padded, hk, List.replicate_succ]
  exact text_append_zero (fun a ha => text_ne_zero ha) _

theorem length_padded (h : (text t).length < n) : (padded n t).length = n := by
  rw [padded, List.length_append, List.length_replicate]
  omega

/-- **`vfs_strlcpy`** copies a text that fits, and otherwise changes nothing. -/
theorem vfsStrlcpy_spec (dst t : List UInt8) (n : Nat) :
    (n ≤ (text t).length ∧ ∃ rc, rc ≠ vfsOk ∧ vfsStrlcpy dst n t = (rc, dst))
    ∨ ((text t).length < n ∧ vfsStrlcpy dst n t = (vfsOk, padded n t)) := by
  rw [vfsStrlcpy]
  by_cases hn : n = 0
  · exact Or.inl ⟨by omega, vfsErrInvalidParam, by decide, if_pos hn⟩
  · rw [if_neg hn]
    have hlen := vfsStrnlen_eq t n
    by_cases hfit : (text t).length < n
    · have hlen' : vfsStrnlen t n = (text t).length := by omega
      refine Or.inr ⟨hfit, ?_⟩
      have htake : t.take (text t).length = text t :=
        (List.prefix_iff_eq_take.mp (List.takeWhile_prefix _)).symm
      rw [if_neg (by omega), hlen', htake, padded]
    · exact Or.inl ⟨Nat.not_lt.mp hfit, vfsErrNoSpace, by decide, if_pos (by omega)⟩

/-- What one call of `vfs_mount` does: it fails and leaves the mounts as they
    were, or adds one mount under a mountpoint of its own. -/
inductive MountResult (g : MountTable ω) (mountpoint fsName : Option (List UInt8))
    (ops : Option (VfsFsOps ω)) (fsCtx : Nat) : Nat × MountTable ω → Prop where
  | failed {rc : Nat} {g' : MountTable ω} (hrc : rc ≠ vfsOk)
      (hused : ∀ i, (g' i).used = (g i).used)
      (hsame : ∀ i, (g i).used = true → g' i = g i) :
      MountResult g mountpoint fsName ops fsCtx (rc, g')
  | added {i : Nat} {e : VfsMount ω} {m name : List UInt8} {o : VfsFsOps ω}
      (hmountpoint : mountpoint = some m) (hfsName : fsName = some name)
      (hops : ops = some o) (hopen : o.openFn ≠ none) (hslash : charAt m 0 = slash)
      (hfresh : ∀ j, Mounted g j → text (g j).mountpoint ≠ text m)
      (hi : i < vfsMaxMounts) (hfree : (g i).used = false)
      (he : e.used = true ∧ text e.mountpoint = text m ∧ text e.fsName = text name
        ∧ e.ops = some o ∧ e.fsCtx = fsCtx) :
      MountResult g mountpoint fsName ops fsCtx (vfsOk, Function.update g i e)

/-- What `vfs_mount` asks of its arguments and of the table. -/
structure Mountable (g : MountTable ω) (m name : List UInt8) (o : VfsFsOps ω) : Prop where
  opens : o.openFn ≠ none
  slashed : charAt m 0 = slash
  fits : (text m).length < vfsMountpointMax
  fresh : ∀ j, Mounted g j → text (g j).mountpoint ≠ text m
  nameFits : (text name).length < vfsFsnameMax
  room : ∃ i, i < vfsMaxMounts ∧ (g i).used = false

/-- The same mounts in the same slots; the slots not in use may differ. -/
structure SameMounts (g g' : MountTable ω) : Prop where
  used : ∀ i, (g' i).used = (g i).used
  entry : ∀ i, (g i).used = true → g' i = g i

/-- An unused slot written, and left unused. -/
theorem sameMounts_update {e : VfsMount ω} (hi : (g i).used = false) (he : e.used = false) :
    SameMounts g (Function.update g i e) := by
  constructor
  · intro j
    by_cases hji : j = i
    · rw [hji, Function.update_self, he, hi]
    · rw [Function.update_of_ne hji]
  · intro j hj
    refine Function.update_of_ne (fun hji => ?_) _ _
    rw [hji, hi] at hj
    cases hj

/-- **`vfs_mount`, ALL CASES**: it fills a free slot, or it fails, which it does exactly
    on what is not mountable. -/
theorem vfsMount_cases (g : MountTable ω) (mountpoint fsName : Option (List UInt8))
    (ops : Option (VfsFsOps ω)) (fsCtx : Nat) :
    (∃ m name o i, mountpoint = some m ∧ fsName = some name ∧ ops = some o
      ∧ Mountable g m name o ∧ i < vfsMaxMounts ∧ (g i).used = false
      ∧ vfsMount g mountpoint fsName ops fsCtx = (vfsOk, Function.update g i
        ⟨true, padded vfsMountpointMax m, padded vfsFsnameMax name, some o, fsCtx⟩))
    ∨ ((∀ m name o, mountpoint = some m → fsName = some name → ops = some o →
        ¬ Mountable g m name o)
      ∧ ∃ rc g', rc ≠ vfsOk ∧ SameMounts g g'
        ∧ vfsMount g mountpoint fsName ops fsCtx = (rc, g')) := by
  have hself : SameMounts g g := ⟨fun _ => rfl, fun _ _ => rfl⟩
  have hrc : vfsErrInvalidParam ≠ vfsOk := by decide
  cases mountpoint with
  | none => exact Or.inr ⟨fun _ _ _ hm => (nomatch hm), _, g, hrc, hself, rfl⟩
  | some m =>
    cases fsName with
    | none => exact Or.inr ⟨fun _ _ _ _ hname => (nomatch hname), _, g, hrc, hself, rfl⟩
    | some name =>
      cases ops with
      | none => exact Or.inr ⟨fun _ _ _ _ _ ho => (nomatch ho), _, g, hrc, hself, rfl⟩
      | some o =>
        -- the arguments are fixed from here on
        have hfail : ∀ {rc g'}, ¬ Mountable g m name o → rc ≠ vfsOk → SameMounts g g' →
            vfsMount g (some m) (some name) (some o) fsCtx = (rc, g') →
            ((∀ m' name' o', some m = some m' → some name = some name' → some o = some o' →
                ¬ Mountable g m' name' o')
              ∧ ∃ rc g', rc ≠ vfsOk ∧ SameMounts g g'
                ∧ vfsMount g (some m) (some name) (some o) fsCtx = (rc, g')) := by
          intro rc g' hno hrc hsame heq
          refine ⟨?_, rc, g', hrc, hsame, heq⟩
          intro m' name' o' hm hname ho
          cases hm
          cases hname
          cases ho
          exact hno
        rw [vfsMount] at hfail ⊢
        by_cases hopen : o.openFn.isNone = true
        · exact Or.inr (hfail (fun h => h.opens (by simpa using hopen)) hrc hself (if_pos hopen))
        rw [if_neg hopen] at hfail ⊢
        by_cases hslash : charAt m 0 ≠ slash
        · exact Or.inr (hfail (fun h => hslash h.slashed) hrc hself (if_pos hslash))
        rw [if_neg hslash] at hfail ⊢
        by_cases hdup : ((List.range vfsMaxMounts).any fun i =>
            (g i).used && strcmp (g i).mountpoint m == 0) = true
        · refine Or.inr (hfail (fun h => ?_) hrc hself (if_pos hdup))
          obtain ⟨j, hj, hboth⟩ := List.any_eq_true.mp hdup
          simp only [Bool.and_eq_true, beq_iff_eq, strcmp_eq_zero_iff] at hboth
          exact h.fresh j ⟨List.mem_range.mp hj, hboth.1⟩ hboth.2
        rw [if_neg hdup] at hfail ⊢
        cases hslot : (List.range vfsMaxMounts).find? fun i => !(g i).used with
        | none =>
          rw [hslot] at hfail
          refine Or.inr (hfail (fun h => ?_) (by decide) hself rfl)
          obtain ⟨i, hi, hfree⟩ := h.room
          have hall := List.find?_range_eq_none.mp hslot i hi
          simp [hfree] at hall
        | some i =>
          obtain ⟨hfree, hi, -⟩ := List.find?_range_eq_some.mp hslot
          have hfree' : (g i).used = false := by simpa using hfree
          simp only [hslot] at hfail
          rcases vfsStrlcpy_spec (g i).mountpoint m vfsMountpointMax with
            ⟨hlong, rc, hrc, hcopy⟩ | ⟨hfits, hcopy⟩
          · simp only [hcopy, if_pos hrc] at hfail ⊢
            exact Or.inr (hfail (fun h => absurd h.fits (Nat.not_lt.mpr hlong)) hrc
              (sameMounts_update hfree' hfree') rfl)
          · simp only [hcopy, Function.update_self, Function.update_idem] at hfail ⊢
            rw [if_neg (not_not.mpr rfl)] at hfail ⊢
            rcases vfsStrlcpy_spec (g i).fsName name vfsFsnameMax with
              ⟨hlong, rc, hrc, hcopy'⟩ | ⟨hnameFits, hcopy'⟩
            · simp only [hcopy', if_pos hrc] at hfail ⊢
              -- the mountpoint was written into the slot, which stays free
              have hsame : SameMounts g (Function.update g i
                  { g i with mountpoint := padded vfsMountpointMax m }) :=
                sameMounts_update hfree' hfree'
              exact Or.inr (hfail (fun h => absurd h.nameFits (Nat.not_lt.mpr hlong)) hrc
                hsame rfl)
            · simp only [hcopy']
              rw [if_neg (not_not.mpr rfl)]
              refine Or.inl ⟨m, name, o, i, rfl, rfl, rfl, ⟨by simpa using hopen,
                not_not.mp hslash, hfits, ?_, hnameFits, i, List.mem_range.mp hi, hfree'⟩,
                List.mem_range.mp hi, hfree', rfl⟩
              intro j hj heq
              refine hdup (List.any_eq_true.mpr ⟨j, List.mem_range.mpr hj.1, ?_⟩)
              simp [hj.2, strcmp_eq_zero_iff, heq]

/-- **`vfs_mount`**. -/
theorem vfsMount_spec (g : MountTable ω) (mountpoint fsName : Option (List UInt8))
    (ops : Option (VfsFsOps ω)) (fsCtx : Nat) :
    MountResult g mountpoint fsName ops fsCtx (vfsMount g mountpoint fsName ops fsCtx) := by
  rcases vfsMount_cases g mountpoint fsName ops fsCtx with
    ⟨m, name, o, i, hm, hname, ho, hok, hi, hfree, heq⟩ | ⟨-, rc, g', hrc, hsame, heq⟩
  · rw [heq]
    exact .added hm hname ho hok.opens hok.slashed hok.fresh hi hfree
      ⟨rfl, text_padded hok.fits, text_padded hok.nameFits, rfl, rfl⟩
  · rw [heq]
    exact .failed hrc hsame.used hsame.entry

/-! ## Runs -/

/-- A call of `vfs_mount`. -/
structure MountCall (ω : Type) where
  mountpoint : Option (List UInt8)
  fsName : Option (List UInt8)
  ops : Option (VfsFsOps ω)
  fsCtx : Nat

/-- A call, whatever it returns. -/
def MountStep (g : MountTable ω) (c : MountCall ω) (g' : MountTable ω) : Prop :=
  (vfsMount g c.mountpoint c.fsName c.ops c.fsCtx).2 = g'

/-- After `vfs_init` nothing is mounted. -/
theorem mountInv_init (g : MountTable ω) : MountInv (vfsInitMounts g) := by
  have hnone : ∀ i, ¬ Mounted (vfsInitMounts g) i := by
    rintro i ⟨hi, hused⟩
    rw [vfsInitMounts, if_pos hi] at hused
    cases hused
  exact ⟨fun i hi => absurd hi (hnone i), fun i _ hi => absurd hi (hnone i),
    fun i hi => absurd hi (hnone i)⟩

/-- Only entries in use count. -/
theorem MountInv.congr (h : MountInv g) (hused : ∀ i, (g' i).used = (g i).used)
    (hsame : ∀ i, (g i).used = true → g' i = g i) : MountInv g' := by
  have hold : ∀ i, Mounted g' i → Mounted g i ∧ g' i = g i := by
    rintro i ⟨hi, hu⟩
    rw [hused] at hu
    exact ⟨⟨hi, hu⟩, hsame i hu⟩
  refine ⟨fun i hi => ?_, fun i j hi hj heq => ?_, fun i hi => ?_⟩
  · obtain ⟨hm, heq⟩ := hold i hi
    rw [heq]
    exact h.slashed i hm
  · obtain ⟨hmi, hsi⟩ := hold i hi
    obtain ⟨hmj, hsj⟩ := hold j hj
    rw [hsi, hsj] at heq
    exact h.distinct i j hmi hmj heq
  · obtain ⟨hm, heq⟩ := hold i hi
    rw [heq]
    exact h.opens i hm

/-- A mount under a mountpoint of its own. -/
theorem MountInv.add {k : Nat} {e : VfsMount ω} {o : VfsFsOps ω} (h : MountInv g)
    (hslash : (text e.mountpoint).head? = some slash) (hops : e.ops = some o)
    (hopen : o.openFn ≠ none)
    (hfresh : ∀ j, Mounted g j → text (g j).mountpoint ≠ text e.mountpoint) :
    MountInv (Function.update g k e) := by
  have hold : ∀ i, i ≠ k → Mounted (Function.update g k e) i →
      Mounted g i ∧ Function.update g k e i = g i := by
    rintro i hik ⟨hi, hu⟩
    rw [Function.update_of_ne hik] at hu ⊢
    exact ⟨⟨hi, hu⟩, rfl⟩
  refine ⟨fun i hi => ?_, fun i j hi hj heq => ?_, fun i hi => ?_⟩
  · by_cases hik : i = k
    · rw [hik, Function.update_self]
      exact hslash
    · obtain ⟨hm, hsame⟩ := hold i hik hi
      rw [hsame]
      exact h.slashed i hm
  · by_cases hik : i = k
    · by_cases hjk : j = k
      · rw [hik, hjk]
      · obtain ⟨hmj, hsj⟩ := hold j hjk hj
        rw [hik, Function.update_self, hsj] at heq
        exact absurd heq.symm (hfresh j hmj)
    · obtain ⟨hmi, hsi⟩ := hold i hik hi
      by_cases hjk : j = k
      · rw [hjk, Function.update_self, hsi] at heq
        exact absurd heq (hfresh i hmi)
      · obtain ⟨hmj, hsj⟩ := hold j hjk hj
        rw [hsi, hsj] at heq
        exact h.distinct i j hmi hmj heq
  · by_cases hik : i = k
    · rw [hik, Function.update_self]
      exact ⟨o, hops, hopen⟩
    · obtain ⟨hm, hsame⟩ := hold i hik hi
      rw [hsame]
      exact h.opens i hm

/-- **ONE CALL** keeps the mount invariant. -/
theorem MountInv.step {c : MountCall ω} (h : MountInv g) (hst : MountStep g c g') :
    MountInv g' := by
  have hres := vfsMount_spec g c.mountpoint c.fsName c.ops c.fsCtx
  rw [← show (vfsMount g c.mountpoint c.fsName c.ops c.fsCtx).2 = g' from hst]
  generalize vfsMount g c.mountpoint c.fsName c.ops c.fsCtx = r at hres
  cases hres with
  | failed _ hused hsame => exact h.congr hused hsame
  | added _ _ _ hopen hslash hfresh _ _ he =>
      obtain ⟨-, hmount, -, hops, -⟩ := he
      refine h.add ?_ hops hopen fun j hj => ?_
      · rw [hmount]
        exact (charAt_zero_eq_iff (by decide)).mp hslash
      · rw [hmount]
        exact hfresh j hj

theorem mountInv_run {g₀ : MountTable ω} {cs : List (MountCall ω)}
    (hrun : Run MountStep (vfsInitMounts g₀) cs g) : MountInv g :=
  hrun.invariant (mountInv_init g₀) fun _ _ _ hI hst => hI.step hst

/-! ## Order independence -/

/-- A mount, apart from the slot it stands in. -/
structure MountedFs (ω : Type) where
  mountpoint : List UInt8
  fsName : List UInt8
  ops : Option (VfsFsOps ω)
  fsCtx : Nat

/-- The mount in slot `i`. -/
def mountedFs (g : MountTable ω) (i : Nat) : MountedFs ω :=
  ⟨text (g i).mountpoint, text (g i).fsName, (g i).ops, (g i).fsCtx⟩

/-- The set of mounts of a table. -/
def mounts (g : MountTable ω) : Set (MountedFs ω) := {e | ∃ i, Mounted g i ∧ mountedFs g i = e}

/-- The mount a path resolves to, with the relative path. -/
def resolve (g : MountTable ω) (path : List UInt8) : Except Nat (MountedFs ω × List UInt8) :=
  (vfsFindMount g path).map fun r => (mountedFs g r.1, r.2)

/-- Tables with the same mounts resolve a path to the same mount. -/
theorem Resolves.mountedFs_eq (hsame : mounts g = mounts g') (hi : Resolves g t i)
    (hj : Resolves g' t j) :
    mountedFs g i = mountedFs g' j := by
  -- the mount of one table stands in some slot of the other
  obtain ⟨k, hk, hki⟩ : mountedFs g i ∈ mounts g' := hsame ▸ ⟨i, hi.mounted, rfl⟩
  obtain ⟨l, hl, hlj⟩ : mountedFs g' j ∈ mounts g := hsame ▸ ⟨j, hj.mounted, rfl⟩
  have hkm : text (g' k).mountpoint = text (g i).mountpoint := congrArg MountedFs.mountpoint hki
  have hlm : text (g l).mountpoint = text (g' j).mountpoint := congrArg MountedFs.mountpoint hlj
  by_cases hkj : k = j
  · rw [← hki, hkj]
  · have hlt := hj.longest k hk (by rw [hkm]; exact hi.covers) hkj
    by_cases hli : l = i
    · rw [hkm, ← hli, hlm] at hlt
      exact absurd hlt (Nat.lt_irrefl _)
    · have hlt' := hi.longest l hl (by rw [hlm]; exact hj.covers) hli
      rw [hkm] at hlt
      rw [hlm] at hlt'
      omega

/-- **ORDER DOES NOT MATTER**: only the set of mounts does. -/
theorem resolve_congr (h : MountInv g) (h' : MountInv g') (hsame : mounts g = mounts g')
    (hpath : charAt path 0 = slash) : resolve g path = resolve g' path := by
  -- what covers the path in one table covers it in the other
  have htransfer : ∀ {g g' : MountTable ω}, mounts g = mounts g' → ∀ i, Mounted g i →
      Covers (text (g i).mountpoint) (text path) →
      ∃ k, Mounted g' k ∧ Covers (text (g' k).mountpoint) (text path) := by
    intro g g' hsame i hi hc
    obtain ⟨k, hk, hki⟩ : mountedFs g i ∈ mounts g' := hsame ▸ ⟨i, hi, rfl⟩
    have hkm : text (g' k).mountpoint = text (g i).mountpoint :=
      congrArg MountedFs.mountpoint hki
    exact ⟨k, hk, by rw [hkm]; exact hc⟩
  rw [resolve, resolve]
  rcases vfsFindMount_spec h hpath with ⟨herr, hnone⟩ | ⟨i, rel, hok, hi, ⟨k, hk, hrel⟩, htext⟩
  · rcases vfsFindMount_spec h' hpath with ⟨herr', -⟩ | ⟨j, -, -, hj, -⟩
    · rw [herr, herr']
      rfl
    · obtain ⟨k, hk, hc⟩ := htransfer hsame.symm j hj.mounted hj.covers
      exact absurd hc (hnone k hk)
  · rcases vfsFindMount_spec h' hpath with
      ⟨-, hnone⟩ | ⟨j, rel', hok', hj, ⟨l, hl, hrel'⟩, htext'⟩
    · obtain ⟨k, hk, hc⟩ := htransfer hsame i hi.mounted hi.covers
      exact absurd hc (hnone k hk)
    · have hfs := hi.mountedFs_eq hsame hj
      have hm : text (g i).mountpoint = text (g' j).mountpoint :=
        congrArg MountedFs.mountpoint hfs
      -- both pointers leave as much of the path
      have hlen := congrArg List.length (htext.trans ((congrArg (relative · _) hm).trans
        htext'.symm))
      rw [hrel, hrel', text_drop hk, text_drop hl, List.length_drop, List.length_drop] at hlen
      have hkl : k = l := by omega
      rw [hok, hok', hrel, hrel', hkl]
      exact congrArg (fun m => Except.ok (m, path.drop l)) hfs

/-- **LONGEST-PREFIX RESOLUTION**, after any run of `vfs_mount`: a path resolves
    when some mountpoint covers it, to the one longest mountpoint that does and
    the rest of the path after it; and tables with the same mounts resolve it
    alike. -/
theorem vfs_longest_prefix {g₀ : MountTable ω} {cs : List (MountCall ω)}
    (hrun : Run MountStep (vfsInitMounts g₀) cs g) (hpath : charAt path 0 = slash) :
    ((∃ i rel, vfsFindMount g path = .ok (i, rel))
      ↔ ∃ i, Mounted g i ∧ Covers (text (g i).mountpoint) (text path))
    ∧ (∀ i rel, vfsFindMount g path = .ok (i, rel) →
      Resolves g (text path) i
        ∧ text rel = relative (text (g i).mountpoint) (text path))
    ∧ (∀ e, vfsFindMount g path = .error e → e = vfsErrNoMount)
    ∧ ∀ (g₀' : MountTable ω) cs' g', Run MountStep (vfsInitMounts g₀') cs' g' →
      mounts g = mounts g' → resolve g path = resolve g' path := by
  have h := mountInv_run hrun
  refine ⟨?_, ?_, ?_, fun _ _ _ hrun' hsame => resolve_congr h (mountInv_run hrun') hsame hpath⟩
  · rcases vfsFindMount_spec h hpath with ⟨herr, hnone⟩ | ⟨i, rel, hok, hi, -, -⟩
    · refine iff_of_false ?_ fun ⟨i, hi, hc⟩ => hnone i hi hc
      rintro ⟨i, rel, hok⟩
      rw [herr] at hok
      cases hok
    · exact iff_of_true ⟨i, rel, hok⟩ ⟨i, hi.mounted, hi.covers⟩
  · intro i rel hok
    rcases vfsFindMount_spec h hpath with ⟨herr, -⟩ | ⟨j, rel', hok', hj, -, hrel⟩
    · rw [herr] at hok
      cases hok
    · rw [hok'] at hok
      cases hok
      exact ⟨hj, hrel⟩
  · intro e herr
    rcases vfsFindMount_spec h hpath with ⟨herr', -⟩ | ⟨j, rel', hok', -⟩
    · rw [herr'] at herr
      cases herr
      rfl
    · rw [hok'] at herr
      cases herr

/-- With `/` and `/dev` mounted, `/dev/null` is `null` under `/dev`. -/
theorem vfs_longest_prefix_dev :
    ∃ g : MountTable Unit, Run MountStep (vfsInitMounts fun _ => ⟨false, [], [], none, 0⟩)
        [⟨some [47], some [110], some ⟨some ()⟩, 0⟩,
          ⟨some [47, 100, 101, 118], some [100], some ⟨some ()⟩, 0⟩] g
      ∧ ∃ i rel, vfsFindMount g [47, 100, 101, 118, 47, 110, 117, 108, 108] = .ok (i, rel)
        ∧ Resolves g (text [47, 100, 101, 118, 47, 110, 117, 108, 108]) i
        ∧ text rel = relative (text (g i).mountpoint)
          (text [47, 100, 101, 118, 47, 110, 117, 108, 108]) := by
  have hrun : Run MountStep (vfsInitMounts fun _ => (⟨false, [], [], none, 0⟩ : VfsMount Unit))
      ([] ++ [⟨some [47], some [110], some ⟨some ()⟩, 0⟩]
        ++ [⟨some [47, 100, 101, 118], some [100], some ⟨some ()⟩, 0⟩]) _ :=
    .snoc _ (.snoc _ .nil rfl) rfl
  have hok : vfsFindMount _ [47, 100, 101, 118, 47, 110, 117, 108, 108] = .ok (1, _) :=
    (rfl : vfsFindMount (vfsMount (vfsMount (vfsInitMounts fun _ =>
      (⟨false, [], [], none, 0⟩ : VfsMount Unit)) (some [47]) (some [110]) (some ⟨some ()⟩) 0).2
      (some [47, 100, 101, 118]) (some [100]) (some ⟨some ()⟩) 0).2
      [47, 100, 101, 118, 47, 110, 117, 108, 108] = .ok (1, [110, 117, 108, 108]))
  obtain ⟨-, hres, -⟩ := vfs_longest_prefix hrun
    (show charAt [47, 100, 101, 118, 47, 110, 117, 108, 108] 0 = slash from rfl)
  exact ⟨_, hrun, 1, _, hok, hres 1 _ hok⟩

end PyramidVfs
