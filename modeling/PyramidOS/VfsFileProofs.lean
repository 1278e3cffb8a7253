import PyramidOS.KernelBaseProofs
import PyramidOS.VfsMountProofs
import Mathlib.Order.Bounds.Basic

/-! # The descriptor table

    `vfs.c`, open files.  The table calls filesystems through function
    pointers, so everything here is over arbitrary callbacks `FsCalls`, which
    act on a world of their own.

    What the table is for: a finite map from descriptors to open files
    (`FileMap`).  `VfsCall` and `VfsRet` are the calls and what they return, and
    one call is one step of the map (`vfsCall_refines`), provided the callbacks
    return and `read` leaves the file alone (`Returns`). -/

namespace PyramidVfs

open PyramidString PyramidKernel LabelledRun

/-! ## The code -/

/-- A caller's buffer, by offset. -/
abbrev Buffer := Nat → BitVec 8

/-- `VfsFile`, over the type of the file-operation tables. -/
structure VfsFile (φ : Type) where
  ops : Option φ
  fileCtx : Nat
  size : Nat
  pos : Nat

/-- `VfsOpenEntry`. -/
structure VfsOpenEntry (φ : Type) where
  used : Bool
  file : VfsFile φ

/-- What a read callback leaves: its return code, the world, the file, the
    buffer and `*out_read`. -/
structure ReadResult (σ φ : Type) where
  rc : Nat
  world : σ
  file : VfsFile φ
  buffer : Option Buffer
  outRead : Nat

/-- The callbacks behind the function pointers.  Every file-operation table has
    both its functions. -/
structure FsCalls (σ ω φ : Type) where
  openFn : ω → σ → Nat → List UInt8 → Nat → VfsFile φ → Except Halt (Nat × σ × VfsFile φ)
  readFn : φ → σ → VfsFile φ → Nat → Option Buffer → Nat → Nat →
    Except Halt (ReadResult σ φ)
  closeFn : φ → σ → VfsFile φ → Except Halt (Nat × σ × VfsFile φ)

/-- The state of `vfs.c`, `g_mounts` and `g_open`, and the world the callbacks
    act on. -/
structure Vfs (σ ω φ : Type) where
  mounts : MountTable ω
  opened : Nat → VfsOpenEntry φ
  world : σ

section Code

variable {σ ω φ : Type}

/-- A file without operations, as `vfs_open` hands to the callback. -/
def VfsFile.blank : VfsFile φ := ⟨none, 0, 0, 0⟩

/-- `vfs_init`, on the descriptor table. -/
def vfsInitOpened (opened : Nat → VfsOpenEntry φ) : Nat → VfsOpenEntry φ := fun i =>
  if i < vfsMaxOpenFiles then ⟨false, .blank⟩ else opened i

/-- `vfs_open`: the return code, the state and `*out_fd`.  `none` is a null
    pointer; a mount without an open function would be a jump to NULL. -/
def vfsOpen (calls : FsCalls σ ω φ) (s : Vfs σ ω φ) (path : Option (List UInt8))
    (flags : Nat) (outFd : Option Nat) : Except Halt (Nat × Vfs σ ω φ × Option Nat) :=
  match path, outFd with
  | some path, some old =>
      match vfsFindMount s.mounts path with
      | .error rc => .ok (rc, s, some old)
      | .ok (mountIndex, rel) =>
          match (List.range vfsMaxOpenFiles).find? fun i => !(s.opened i).used with
          | none => .ok (vfsErrNoSpace, s, some old)
          | some fd =>
              match (s.mounts mountIndex).ops.bind VfsFsOps.openFn with
              | none => .error .diverges
              | some openFn => do
                  let (rc, world, tmp) ←
                    calls.openFn openFn s.world (s.mounts mountIndex).fsCtx rel flags .blank
                  let s := { s with world := world }
                  if rc ≠ vfsOk then .ok (rc, s, some old)
                  else if tmp.ops.isNone then .ok (vfsErrIo, s, some old)
                  else
                    let entry := ⟨true, { tmp with pos := 0 }⟩
                    .ok (vfsOk, { s with opened := Function.update s.opened fd entry }, some fd)
  | _, outFd => .ok (vfsErrInvalidParam, s, outFd)

/-- `vfs_read`: the return code, the state, the buffer and `*read_ptr`, which
    is `*out_read` or, when `out_read` is NULL, a local. -/
def vfsRead (calls : FsCalls σ ω φ) (s : Vfs σ ω φ) (fd : Nat) (buffer : Option Buffer)
    (size outRead : Nat) : Except Halt (Nat × Vfs σ ω φ × Option Buffer × Nat) :=
  if fd ≥ vfsMaxOpenFiles then .ok (vfsErrBadFd, s, buffer, outRead)
  else if !(s.opened fd).used then .ok (vfsErrBadFd, s, buffer, outRead)
  else if size > 0 ∧ buffer.isNone then .ok (vfsErrInvalidParam, s, buffer, outRead)
  else
    let file := (s.opened fd).file
    match file.ops with
    | none => .ok (vfsErrNotSupported, s, buffer, 0)
    | some ops => do
        let r ← calls.readFn ops s.world file file.pos buffer size 0
        let withFile := fun file => Vfs.mk s.mounts
          (Function.update s.opened fd ⟨(s.opened fd).used, file⟩) r.world
        if r.rc ≠ vfsOk then .ok (r.rc, withFile r.file, r.buffer, r.outRead)
        else if r.outRead > size then .ok (vfsErrIo, withFile r.file, r.buffer, r.outRead)
        else
          let pos := u32 (r.file.pos + r.outRead)
          .ok (vfsOk, withFile { r.file with pos := pos }, r.buffer, r.outRead)

/-- `vfs_close`. -/
def vfsClose (calls : FsCalls σ ω φ) (s : Vfs σ ω φ) (fd : Nat) :
    Except Halt (Nat × Vfs σ ω φ) :=
  if fd ≥ vfsMaxOpenFiles then .ok (vfsErrBadFd, s)
  else if !(s.opened fd).used then .ok (vfsErrBadFd, s)
  else do
    let file := (s.opened fd).file
    let closed : Except Halt (Nat × σ × VfsFile φ) := match file.ops with
      | none => .ok (vfsOk, s.world, file)
      | some ops => calls.closeFn ops s.world file
    let (rc, world, _) ← closed
    .ok (rc, { s with world := world, opened := Function.update s.opened fd ⟨false, .blank⟩ })

end Code

/-- A call, with its arguments.  `outFd` and `outRead` are what the variables
    behind the pointers hold before. -/
inductive VfsCall where
  | open (path : Option (List UInt8)) (flags : UInt32) (outFd : Option Nat)
  | read (fd : UInt32) (buffer : Option Buffer) (size : UInt32) (outRead : Nat)
  | close (fd : UInt32)

/-- What a call returns, with the variables behind its pointers after. -/
inductive VfsRet where
  | open (rc : Nat) (outFd : Option Nat)
  | read (rc : Nat) (buffer : Option Buffer) (outRead : Nat)
  | close (rc : Nat)

variable {σ ω φ : Type} {calls : FsCalls σ ω φ} {s t : Vfs σ ω φ}

/-- A call of `vfs.c`. -/
def vfsCall (calls : FsCalls σ ω φ) (s : Vfs σ ω φ) :
    VfsCall → Except Halt (VfsRet × Vfs σ ω φ)
  | .open path flags outFd => do
      let (rc, s, outFd) ← vfsOpen calls s path flags.toNat outFd
      .ok (.open rc outFd, s)
  | .read fd buffer size outRead => do
      let (rc, s, buffer, outRead) ← vfsRead calls s fd.toNat buffer size.toNat outRead
      .ok (.read rc buffer outRead, s)
  | .close fd => do
      let (rc, s) ← vfsClose calls s fd.toNat
      .ok (.close rc, s)

/-- The return code. -/
def VfsRet.code : VfsRet → Nat
  | .open rc _ => rc
  | .read rc _ _ => rc
  | .close rc => rc

/-- Calls, one after the other, with what each returns. -/
def vfsCalls (calls : FsCalls σ ω φ) (s : Vfs σ ω φ) :
    List VfsCall → Except Halt (List (VfsCall × VfsRet) × Vfs σ ω φ)
  | [] => .ok ([], s)
  | c :: cs => do
      let (r, s) ← vfsCall calls s c
      let (es, s) ← vfsCalls calls s cs
      .ok ((c, r) :: es, s)

/-- A call that returned. -/
def VfsStep (calls : FsCalls σ ω φ) (s : Vfs σ ω φ) (e : VfsCall × VfsRet)
    (t : Vfs σ ω φ) : Prop :=
  vfsCall calls s e.1 = .ok (e.2, t)

/-! ## The map of open files -/

/-- The open files by descriptor. -/
abbrev FileMap (φ : Type) := Nat → Option (VfsFile φ)

/-- The files the descriptor table holds. -/
def Vfs.files (s : Vfs σ ω φ) : FileMap φ := fun fd =>
  if fd < vfsMaxOpenFiles ∧ (s.opened fd).used = true then some (s.opened fd).file else none

/-- **THE SPECIFICATION**: what a call that returned may do to the open files. -/
inductive FileMap.Step (m : FileMap φ) : VfsCall × VfsRet → FileMap φ → Prop where
  | opened {path : List UInt8} {flags : UInt32} {old fd : Nat} {file : VfsFile φ}
      (hleast : IsLeast {i | m i = none} fd) (hfd : fd < vfsMaxOpenFiles)
      (hpos : file.pos = 0) :
      m.Step (.open (some path) flags (some old), .open vfsOk (some fd))
        (Function.update m fd (some file))
  | openFailed {path : Option (List UInt8)} {flags : UInt32} {outFd : Option Nat} {rc : Nat}
      (hrc : rc ≠ vfsOk) :
      m.Step (.open path flags outFd, .open rc outFd) m
  | read {fd size : UInt32} {buffer buffer' : Option Buffer} {out n : Nat}
      {file : VfsFile φ} (hopen : m fd.toNat = some file) (hn : n ≤ size.toNat) :
      m.Step (.read fd buffer size out, .read vfsOk buffer' n)
        (Function.update m fd.toNat (some { file with pos := u32 (file.pos + n) }))
  | readFailed {fd size : UInt32} {buffer buffer' : Option Buffer} {out out' rc : Nat}
      {file : VfsFile φ} (hopen : m fd.toNat = some file) (hrc : rc ≠ vfsOk)
      (hbad : rc ≠ vfsErrBadFd) :
      m.Step (.read fd buffer size out, .read rc buffer' out') m
  | readBadFd {fd size : UInt32} {buffer : Option Buffer} {out : Nat}
      (hclosed : m fd.toNat = none) :
      m.Step (.read fd buffer size out, .read vfsErrBadFd buffer out) m
  | close {fd : UInt32} {file : VfsFile φ} {rc : Nat} (hopen : m fd.toNat = some file)
      (hbad : rc ≠ vfsErrBadFd) :
      m.Step (.close fd, .close rc) (Function.update m fd.toNat none)
  | closeBadFd {fd : UInt32} (hclosed : m fd.toNat = none) :
      m.Step (.close fd, .close vfsErrBadFd) m

/-- What the callbacks must keep to: `read` changes neither the file nor its
    position, and no code of theirs is mistaken for a bad descriptor. -/
structure FsCalls.Behaves (calls : FsCalls σ ω φ) : Prop where
  read : ∀ {ops w file off buf size out r},
    calls.readFn ops w file off buf size out = .ok r → r.file = file ∧ r.rc ≠ vfsErrBadFd
  close : ∀ {ops w file rc w' file'},
    calls.closeFn ops w file = .ok (rc, w', file') → rc ≠ vfsErrBadFd

theorem files_of_used {fd : Nat} (hfd : fd < vfsMaxOpenFiles) (hu : (s.opened fd).used = true) :
    s.files fd = some (s.opened fd).file := if_pos ⟨hfd, hu⟩

theorem files_eq_none_iff {fd : Nat} :
    s.files fd = none ↔ ¬ (fd < vfsMaxOpenFiles ∧ (s.opened fd).used = true) := by
  rw [Vfs.files]
  by_cases h : fd < vfsMaxOpenFiles ∧ (s.opened fd).used = true
  · rw [if_pos h]
    exact iff_of_false (Option.some_ne_none _) fun hc => hc h
  · rw [if_neg h]
    exact iff_of_true rfl h

/-- An open file stands in a slot in use. -/
theorem files_some {fd : Nat} {file : VfsFile φ} (hfile : s.files fd = some file) :
    fd < vfsMaxOpenFiles ∧ (s.opened fd).used = true ∧ (s.opened fd).file = file := by
  by_cases hused : fd < vfsMaxOpenFiles ∧ (s.opened fd).used = true
  · rw [files_of_used hused.1 hused.2] at hfile
    exact ⟨hused.1, hused.2, Option.some.inj hfile⟩
  · rw [files_eq_none_iff.mpr hused] at hfile
    cases hfile

/-- Setting a descriptor to an open file. -/
theorem files_update_some {fd : Nat} (hfd : fd < vfsMaxOpenFiles) (file : VfsFile φ)
    (mounts : MountTable ω) (w : σ) :
    Vfs.files ⟨mounts, Function.update s.opened fd ⟨true, file⟩, w⟩
      = Function.update s.files fd (some file) := by
  funext i
  by_cases hi : i = fd
  · subst hi
    simp [Vfs.files, hfd]
  · simp [Vfs.files, Function.update_of_ne hi]

/-- Freeing a descriptor. -/
theorem files_update_none (fd : Nat) (file : VfsFile φ) (mounts : MountTable ω) (w : σ) :
    Vfs.files ⟨mounts, Function.update s.opened fd ⟨false, file⟩, w⟩
      = Function.update s.files fd none := by
  funext i
  by_cases hi : i = fd
  · subst hi
    simp [Vfs.files]
  · simp [Vfs.files, Function.update_of_ne hi]

/-- The search for a free slot finds the lowest free descriptor. -/
theorem find_free_slot {fd : Nat}
    (hfind : (List.range vfsMaxOpenFiles).find? (fun i => !(s.opened i).used) = some fd) :
    fd < vfsMaxOpenFiles ∧ IsLeast {i | s.files i = none} fd := by
  obtain ⟨hfree, hfd, hbelow⟩ := List.find?_range_eq_some.mp hfind
  refine ⟨List.mem_range.mp hfd, files_eq_none_iff.mpr ?_, fun i hi => ?_⟩
  · rintro ⟨-, hu⟩
    simp [hu] at hfree
  · by_contra hlt
    refine files_eq_none_iff.mp hi ⟨?_, ?_⟩
    · have hfd' := List.mem_range.mp hfd
      omega
    · simpa using hbelow i (by omega)

/-- The files depend on the table only. -/
theorem files_congr (h : t.opened = s.opened) : t.files = s.files := by
  funext fd
  rw [Vfs.files, Vfs.files, h]

/-- **WHAT `vfs_open` DOES** when it returns: it fails and leaves the table and
    `*out_fd`, or puts the file the filesystem opened, at position 0, into the
    lowest free slot. -/
theorem vfsOpen_cases {path : Option (List UInt8)} {flags rc : Nat} {outFd out : Option Nat}
    (h : vfsOpen calls s path flags outFd = .ok (rc, t, out)) :
    (rc ≠ vfsOk ∧ t.opened = s.opened ∧ out = outFd)
    ∨ ∃ p old fd file, path = some p ∧ outFd = some old ∧ rc = vfsOk ∧ out = some fd
      ∧ fd < vfsMaxOpenFiles ∧ IsLeast {i | s.files i = none} fd
      ∧ t.opened = Function.update s.opened fd ⟨true, { file with pos := 0 }⟩
      ∧ ∃ openFn fsCtx rel,
        calls.openFn openFn s.world fsCtx rel flags .blank = .ok (rc, t.world, file) := by
  cases path with
  | none =>
    cases h
    exact Or.inl ⟨by decide, rfl, rfl⟩
  | some path =>
    cases outFd with
    | none =>
      cases h
      exact Or.inl ⟨by decide, rfl, rfl⟩
    | some old =>
      rw [vfsOpen] at h
      cases hfind : vfsFindMount s.mounts path with
      | error e =>
        rw [hfind] at h
        cases h
        exact Or.inl ⟨vfsFindMount_error hfind, rfl, rfl⟩
      | ok r =>
        obtain ⟨i, rel⟩ := r
        simp only [hfind] at h
        cases hslot : (List.range vfsMaxOpenFiles).find? fun i => !(s.opened i).used with
        | none =>
          rw [hslot] at h
          cases h
          exact Or.inl ⟨by decide, rfl, rfl⟩
        | some fd =>
          rw [hslot] at h
          cases hops : (s.mounts i).ops.bind VfsFsOps.openFn with
          | none =>
            simp only [hops] at h
            cases h
          | some openFn =>
            simp only [hops] at h
            obtain ⟨⟨rc', w', tmp⟩, hcall, h⟩ := bind_ok h
            by_cases hrc : rc' ≠ vfsOk
            · rw [if_pos hrc] at h
              cases h
              exact Or.inl ⟨hrc, rfl, rfl⟩
            · rw [if_neg hrc] at h
              by_cases htmp : tmp.ops.isNone = true
              · rw [if_pos htmp] at h
                cases h
                exact Or.inl ⟨by decide, rfl, rfl⟩
              · rw [if_neg htmp] at h
                cases h
                rw [not_not.mp hrc] at hcall
                obtain ⟨hfd, hleast⟩ := find_free_slot hslot
                exact Or.inr ⟨path, old, fd, tmp, rfl, rfl, rfl, rfl, hfd, hleast, rfl,
                  openFn, _, rel, hcall⟩

/-- Opening is one step of the map. -/
theorem vfsOpen_refines {path : Option (List UInt8)} {flags : UInt32} {outFd out : Option Nat}
    {rc : Nat} (h : vfsOpen calls s path flags.toNat outFd = .ok (rc, t, out)) :
    s.files.Step (.open path flags outFd, .open rc out) t.files := by
  rcases vfsOpen_cases h with
    ⟨hrc, hsame, rfl⟩ | ⟨p, old, fd, file, rfl, rfl, rfl, rfl, hfd, hleast, hupdate, -⟩
  · rw [files_congr hsame]
    exact .openFailed hrc
  · have hfiles : t.files = Function.update s.files fd (some { file with pos := 0 }) := by
      rw [← files_update_some hfd { file with pos := 0 } t.mounts t.world]
      exact files_congr hupdate
    rw [hfiles]
    exact .opened hleast hfd rfl

/-- **`vfs_read` ON AN OPEN FILE** whose callback returned `r` and left the file. -/
theorem vfsRead_eq {fd size : Nat} {file : VfsFile φ} {ops : φ} {buffer : Option Buffer}
    {r : ReadResult σ φ} (out : Nat) (hopen : s.files fd = some file) (hops : file.ops = some ops)
    (hbuf : ¬ (size > 0 ∧ buffer.isNone))
    (hread : calls.readFn ops s.world file file.pos buffer size 0 = .ok r)
    (hfile : r.file = file) :
    ∃ t : Nat → Vfs σ ω φ, (∀ pos, (t pos).world = r.world ∧ (t pos).mounts = s.mounts
        ∧ (t pos).files = Function.update s.files fd (some { file with pos := pos }))
      ∧ vfsRead calls s fd buffer size out
        = if r.rc ≠ vfsOk then .ok (r.rc, t file.pos, r.buffer, r.outRead)
          else if r.outRead > size then .ok (vfsErrIo, t file.pos, r.buffer, r.outRead)
          else .ok (vfsOk, t (u32 (file.pos + r.outRead)), r.buffer, r.outRead) := by
  obtain ⟨hfd, hused, hentry⟩ := files_some hopen
  refine ⟨fun pos => ⟨s.mounts, Function.update s.opened fd ⟨true, { file with pos := pos }⟩,
    r.world⟩, fun pos => ⟨rfl, rfl, files_update_some hfd _ _ _⟩, ?_⟩
  rw [vfsRead, if_neg (Nat.not_le.mpr hfd), if_neg (by simp [hused]), if_neg hbuf]
  conv_lhs => simp only [hentry, hops, hread, hused]
  show (if r.rc ≠ vfsOk then _ else if r.outRead > size then _ else _) = _
  rw [hfile]

/-- Reading is one step of the map. -/
theorem vfsRead_refines (hb : calls.Behaves) {fd size : UInt32} {buffer buffer' : Option Buffer}
    {out n rc : Nat}
    (h : vfsRead calls s fd.toNat buffer size.toNat out = .ok (rc, t, buffer', n)) :
    s.files.Step (.read fd buffer size out, .read rc buffer' n) t.files := by
  rw [vfsRead] at h
  by_cases hfd : fd.toNat ≥ vfsMaxOpenFiles
  · rw [if_pos hfd] at h
    cases h
    exact .readBadFd (files_eq_none_iff.mpr fun hc => by omega)
  rw [if_neg hfd] at h
  by_cases hused : (s.opened fd.toNat).used = true
  · have hopen := files_of_used (Nat.not_le.mp hfd) hused
    rw [if_neg (by simp [hused])] at h
    by_cases hbuf : size.toNat > 0 ∧ buffer.isNone
    · rw [if_pos hbuf] at h
      cases h
      exact .readFailed hopen (by decide) (by decide)
    rw [if_neg hbuf] at h
    cases hops : (s.opened fd.toNat).file.ops with
    | none =>
      simp only [hops] at h
      cases h
      exact .readFailed hopen (by decide) (by decide)
    | some ops =>
      simp only [hops] at h
      obtain ⟨r, hr, h⟩ := bind_ok h
      obtain ⟨hfile, hbad⟩ := hb.read hr
      -- the callback leaves the entry, so the table, as it was
      have hsame : Function.update s.opened fd.toNat ⟨(s.opened fd.toNat).used, r.file⟩
          = s.opened := by
        rw [hfile]
        exact Function.update_eq_self fd.toNat s.opened
      by_cases hrc : r.rc ≠ vfsOk
      · rw [if_pos hrc] at h
        rw [hsame] at h
        cases h
        exact .readFailed hopen hrc hbad
      rw [if_neg hrc] at h
      by_cases hlong : r.outRead > size.toNat
      · rw [if_pos hlong] at h
        rw [hsame] at h
        cases h
        exact .readFailed hopen (by decide) (by decide)
      · rw [if_neg hlong, hused, hfile] at h
        cases h
        rw [files_update_some (Nat.not_le.mp hfd)]
        exact .read hopen (Nat.not_lt.mp hlong)
  · rw [if_pos (by simp [hused])] at h
    cases h
    exact .readBadFd (files_eq_none_iff.mpr fun hc => hused hc.2)

/-- Closing is one step of the map. -/
theorem vfsClose_refines (hb : calls.Behaves) {fd : UInt32} {rc : Nat}
    (h : vfsClose calls s fd.toNat = .ok (rc, t)) :
    s.files.Step (.close fd, .close rc) t.files := by
  rw [vfsClose] at h
  by_cases hfd : fd.toNat ≥ vfsMaxOpenFiles
  · rw [if_pos hfd] at h
    cases h
    exact .closeBadFd (files_eq_none_iff.mpr fun hc => by omega)
  rw [if_neg hfd] at h
  by_cases hused : (s.opened fd.toNat).used = true
  · rw [if_neg (by simp [hused])] at h
    obtain ⟨⟨rc', w', file'⟩, hclose, h⟩ := bind_ok h
    cases h
    rw [files_update_none]
    refine .close (files_of_used (Nat.not_le.mp hfd) hused) ?_
    cases hops : (s.opened fd.toNat).file.ops with
    | none =>
      simp only [hops] at hclose
      cases hclose
      decide
    | some ops =>
      simp only [hops] at hclose
      exact hb.close hclose
  · rw [if_pos (by simp [hused])] at h
    cases h
    exact .closeBadFd (files_eq_none_iff.mpr fun hc => hused hc.2)

/-- **ONE CALL, ONE STEP** of the map of open files. -/
theorem vfsCall_refines (hb : calls.Behaves) {e : VfsCall × VfsRet} (h : VfsStep calls s e t) :
    s.files.Step e t.files := by
  obtain ⟨c, r⟩ := e
  rw [VfsStep] at h
  cases c with
  | «open» path flags outFd =>
    obtain ⟨⟨rc, s', out⟩, hopen, h⟩ := bind_ok h
    cases h
    exact vfsOpen_refines hopen
  | read fd buffer size outRead =>
    obtain ⟨⟨rc, s', buffer', n⟩, hread, h⟩ := bind_ok h
    cases h
    exact vfsRead_refines hb hread
  | close fd =>
    obtain ⟨⟨rc, s'⟩, hclose, h⟩ := bind_ok h
    cases h
    exact vfsClose_refines hb hclose

/-- **A RUN OF CALLS IS A RUN OF THE MAP.** -/
theorem vfs_run_refines (hb : calls.Behaves) {es : List (VfsCall × VfsRet)}
    (hrun : Run (VfsStep calls) s es t) : Run FileMap.Step s.files es t.files := by
  obtain ⟨m, hmap, hm⟩ := hrun.simulates (R := fun s m => Vfs.files s = m) rfl
    fun c e c' b hR hst => ⟨c'.files, hR ▸ vfsCall_refines hb hst, rfl⟩
  rw [hm]
  exact hmap

/-- Calls that all returned are a run. -/
theorem vfsCalls_run {cs : List VfsCall} {es : List (VfsCall × VfsRet)}
    (h : vfsCalls calls s cs = .ok (es, t)) :
    Run (VfsStep calls) s es t ∧ es.map Prod.fst = cs := by
  induction cs generalizing s es with
  | nil =>
    cases h
    exact ⟨.nil, rfl⟩
  | cons c cs ih =>
    obtain ⟨⟨r, s'⟩, hcall, h⟩ := bind_ok h
    obtain ⟨⟨es', t'⟩, hcalls, h⟩ := bind_ok h
    cases h
    obtain ⟨hrun, hmap⟩ := ih hcalls
    exact ⟨(Run.single hcall).append hrun, congrArg (c :: ·) hmap⟩

/-- A run, from what was computed of it. -/
theorem vfsCalls_map {β : Type} {f : List (VfsCall × VfsRet) × Vfs σ ω φ → β} {x : β}
    {cs : List VfsCall} (h : (vfsCalls calls s cs).map f = .ok x) :
    ∃ es t, Run (VfsStep calls) s es t ∧ es.map Prod.fst = cs ∧ f (es, t) = x := by
  cases hcalls : vfsCalls calls s cs with
  | error e =>
    rw [hcalls] at h
    cases h
  | ok r =>
    obtain ⟨es, t⟩ := r
    obtain ⟨hrun, hmap⟩ := vfsCalls_run hcalls
    rw [hcalls] at h
    exact ⟨es, t, hrun, hmap, Except.ok.inj h⟩

/-- **A FULL TABLE**: for a path that resolves, `vfs_open` answers
    `VFS_ERR_NO_SPACE` without asking the filesystem, whatever it would do,
    exactly when every descriptor is open. -/
theorem vfsOpen_no_space_iff {path : List UInt8} {r : Nat × List UInt8} (flags old : Nat)
    (hfind : vfsFindMount s.mounts path = .ok r) :
    (∀ calls : FsCalls σ ω φ, vfsOpen calls s (some path) flags (some old)
        = .ok (vfsErrNoSpace, s, some old))
      ↔ ∀ fd, fd < vfsMaxOpenFiles → s.files fd ≠ none := by
  obtain ⟨i, rel⟩ := r
  have hslots : (∀ fd, fd < vfsMaxOpenFiles → s.files fd ≠ none) ↔
      (List.range vfsMaxOpenFiles).find? (fun i => !(s.opened i).used) = none := by
    rw [List.find?_range_eq_none]
    refine forall_congr' fun fd => forall_congr' fun hfd => ?_
    rw [ne_eq, files_eq_none_iff]
    simp [hfd]
  rw [hslots]
  constructor
  · intro hall
    cases hslot : (List.range vfsMaxOpenFiles).find? fun i => !(s.opened i).used with
    | none => rfl
    | some fd =>
      -- a filesystem that finds nothing would be noticed
      have h := hall ⟨fun _ w _ _ _ file => .ok (vfsErrNotFound, w, file),
        fun _ w file _ buf _ _ => .ok ⟨0, w, file, buf, 0⟩, fun _ w file => .ok (0, w, file)⟩
      rw [vfsOpen] at h
      simp only [hfind, hslot] at h
      cases hops : (s.mounts i).ops.bind VfsFsOps.openFn with
      | none =>
        simp only [hops] at h
        cases h
      | some openFn =>
        simp only [hops] at h
        have hcode := congrArg (Except.map Prod.fst) h
        cases hcode
  · intro hfull calls
    rw [vfsOpen]
    simp only [hfind, hfull]

end PyramidVfs
