import PyramidOS.BlockProofs
import PyramidOS.HeapProofs
import PyramidOS.VfsFileProofs

/-! # The filesystems

    `nullfs.c`, `devfs.c` and `pyfs.c`.  Their contexts are blocks of the kernel
    heap: a file holds a pointer, and every field of a context is a load or a
    store through it.  A caller's buffer is its own memory and no part of these
    blocks. -/

namespace PyramidFs

open ByteMem PyramidString PyramidKernel PyramidHeap PyramidBlock PyramidVfs

/-! ## The world -/

/-- What the callbacks act on: the heap, and how many reads the devices have
    answered. -/
structure World where
  heap : Heap
  reads : Nat

/-- Heap memory. -/
def World.mem (w : World) : Mem := w.heap.mem

/-- The world after stores to heap memory. -/
def World.withMem (w : World) (m : Mem) : World := { w with heap := { w.heap with mem := m } }

/-- The open functions of the three filesystems. -/
inductive FsType where
  | nullfs | devfs | pyfs
deriving DecidableEq, Repr

/-- The file-operation tables. -/
inductive FileOps where
  | devfsNull | devfsZero | devfsBlock | pyfsFile
deriving DecidableEq, Repr

/-- `VFS_OPEN_WRITE`. -/
def vfsOpenWrite : Nat := 2

/-- A buffer after `bytes` were stored from `off` on. -/
def bufferStore (buf : Buffer) (off : Nat) (bytes : List Byte) : Buffer := fun k =>
  if off ≤ k ∧ k < off + bytes.length then bytes.getD (k - off) 0 else buf k

/-- A callback's failure that touches nothing. -/
def readFails (rc : Nat) (w : World) (file : VfsFile FileOps) (buffer : Option Buffer)
    (outRead : Nat) : Except Halt (ReadResult World FileOps) :=
  .ok ⟨rc, w, file, buffer, outRead⟩

/-! ## NullFS -/

/-- `nullfs_open`. -/
def nullfsOpen (w : World) (file : VfsFile FileOps) :
    Except Halt (Nat × World × VfsFile FileOps) :=
  .ok (vfsErrNotFound, w, file)

/-! ## DevFS -/

def devfsKindNull : Nat := 0
def devfsKindZero : Nat := 1
def devfsKindBlock : Nat := 2

/-- `sizeof(DevFsFileCtx)`. -/
def sizeofDevFsFileCtx : Nat := 8

/-- `ctx->kind`. -/
def devKind (m : Mem) (ctx : Nat) : Nat := m.load32 ctx

/-- `ctx->blk`. -/
def devBlk (m : Mem) (ctx : Nat) : Nat := m.load32 (ctx + 4)

/-- `devfs_read_null`. -/
def devfsReadNull (w : World) (file : VfsFile FileOps) (buffer : Option Buffer) :
    Except Halt (ReadResult World FileOps) :=
  .ok ⟨vfsOk, w, file, buffer, 0⟩

/-- `devfs_read_zero`. -/
def devfsReadZero (w : World) (file : VfsFile FileOps) (buffer : Option Buffer)
    (size outRead : Nat) : Except Halt (ReadResult World FileOps) :=
  match buffer with
  | none =>
      if size > 0 then readFails vfsErrInvalidParam w file buffer outRead
      else .ok ⟨vfsOk, w, file, buffer, size⟩
  | some buf => .ok ⟨vfsOk, w, file, some fun k => if k < size then 0 else buf k, size⟩

/-- The loop of `devfs_read_block` from sector `i` on, with `n` to go: the
    sector that could not be read, the reads made so far, and the buffer. -/
def devfsReadLoop (read : Nat → Nat → Reply) (lba sectorSize : Nat) :
    Nat → Nat → Nat → Buffer → Option Nat × Nat × Buffer
  | 0, _, reads, buf => (none, reads, buf)
  | n + 1, i, reads, buf =>
      let reply := read reads (u32 (lba + i))
      let buf := bufferStore buf (i * sectorSize) reply.bytes
      if reply.ok then devfsReadLoop read lba sectorSize n (i + 1) (reads + 1) buf
      else (some i, reads + 1, buf)

/-- `devfs_read_block`. -/
def devfsReadBlock (B : Blocks) (w : World) (file : VfsFile FileOps) (offset : Nat)
    (buffer : Option Buffer) (size outRead : Nat) : Except Halt (ReadResult World FileOps) :=
  match buffer with
  | none => readFails vfsErrInvalidParam w file buffer outRead
  | some buf =>
      let ctx := file.fileCtx
      if ctx = 0 ∨ devKind w.mem ctx ≠ devfsKindBlock ∨ devBlk w.mem ctx = 0 then
        readFails vfsErrIo w file buffer outRead
      else
        let dev := B.device (devBlk w.mem ctx)
        match dev.read with
        | none => readFails vfsErrIo w file buffer outRead
        | some read =>
            if offset % dev.sectorSize ≠ 0 then
              readFails vfsErrNotSupported w file buffer outRead
            else if size % dev.sectorSize ≠ 0 then
              readFails vfsErrNotSupported w file buffer outRead
            else
              match devfsReadLoop read (offset / dev.sectorSize) dev.sectorSize
                  (size / dev.sectorSize) 0 w.reads buf with
              | (some i, reads, buf) =>
                  .ok ⟨vfsErrIo, { w with reads := reads }, file, some buf, i * dev.sectorSize⟩
              | (none, reads, buf) =>
                  .ok ⟨vfsOk, { w with reads := reads }, file, some buf, size⟩

/-- `devfs_close`. -/
def devfsClose (w : World) (file : VfsFile FileOps) :
    Except Halt (Nat × World × VfsFile FileOps) := do
  let heap ← if file.fileCtx ≠ 0 then kfree w.heap file.fileCtx else .ok w.heap
  .ok (vfsOk, { w with heap := heap }, .blank)

/-- What `devfs_open` does for each of its nodes: a context with the node's
    `kind` and `blk`, and a file over it. -/
def devfsNode (w : World) (ops : FileOps) (kind blk : Nat) (file : VfsFile FileOps) :
    Except Halt (Nat × World × VfsFile FileOps) := do
  let (ctx, heap) ← kmalloc w.heap sizeofDevFsFileCtx
  let w := { w with heap := heap }
  if ctx = 0 then .ok (vfsErrNoSpace, w, file)
  else
    let m := w.mem.store32 ctx kind
    let m := m.store32 (ctx + 4) blk
    .ok (vfsOk, w.withMem m, ⟨some ops, ctx, 0, 0⟩)

/-- `"null"`. -/
def nullName : List UInt8 := [110, 117, 108, 108]

/-- `"zero"`. -/
def zeroName : List UInt8 := [122, 101, 114, 111]

/-- `"disk"`. -/
def diskPrefix : List UInt8 := [100, 105, 115, 107]

/-- `devfs_open`. -/
def devfsOpen (B : Blocks) (w : World) (path : List UInt8) (flags : Nat)
    (file : VfsFile FileOps) : Except Halt (Nat × World × VfsFile FileOps) :=
  if flags &&& vfsOpenWrite ≠ 0 then .ok (vfsErrNotSupported, w, file)
  else if strcmp path nullName = 0 then devfsNode w .devfsNull devfsKindNull 0 file
  else if strcmp path zeroName = 0 then devfsNode w .devfsZero devfsKindZero 0 file
  else if strncmp path diskPrefix 4 = 0 then
    let dev := blockGetByName B.toRegistry path
    if dev = 0 then .ok (vfsErrNotFound, w, file)
    else devfsNode w .devfsBlock devfsKindBlock dev file
  else .ok (vfsErrNotFound, w, file)

/-! ## PyFS -/

/-- The return codes of `pyfs.c`. -/
def pyfsErrInvalidParam : Nat := 1
def pyfsErrIo : Nat := 2
def pyfsErrBadSuperblock : Nat := 3
def pyfsErrNoSpace : Nat := 4

def pyfsMagic : Nat := 0x53465950
def pyfsVersion1 : Nat := 1
def pyfsBlockSize : Nat := 512
def pyfsSuperblockLba : Nat := 0

/-- `PYFS_FILE_SUPERBLOCK`. -/
def pyfsFileSuperblock : Nat := 1

/-- `sizeof(PyfsCtx)` and `sizeof(PyfsFileCtx)`. -/
def sizeofPyfsCtx : Nat := 20
def sizeofPyfsFileCtx : Nat := 12

/-- `fs->dev`. -/
def pyfsDev (m : Mem) (fs : Nat) : Nat := m.load32 fs

/-- `fctx->fs`. -/
def fctxFs (m : Mem) (fctx : Nat) : Nat := m.load32 fctx

/-- `fctx->file_id`. -/
def fctxFileId (m : Mem) (fctx : Nat) : Nat := m.load32 (fctx + 4)

/-- `fctx->cache`. -/
def fctxCache (m : Mem) (fctx : Nat) : Nat := m.load32 (fctx + 8)

/-- `pyfs_probe`, with `pyfs_read_superblock`: the return code and the world. -/
def pyfsProbe (B : Blocks) (w : World) (fs : Nat) : Nat × World :=
  if fs = 0 ∨ pyfsDev w.mem fs = 0 then (pyfsErrInvalidParam, w)
  else
    match (B.device (pyfsDev w.mem fs)).read with
    | none => (pyfsErrInvalidParam, w)
    | some read =>
        let reply := read w.reads pyfsSuperblockLba
        let w := { w with reads := w.reads + 1 }
        if !reply.ok then (pyfsErrIo, w)
        else
          let sector := reply.bytes
          if le32 sector 0 ≠ pyfsMagic then (pyfsErrBadSuperblock, w)
          else if le32 sector 4 ≠ pyfsVersion1 then (pyfsErrBadSuperblock, w)
          else if le32 sector 8 ≠ pyfsBlockSize then (pyfsErrBadSuperblock, w)
          else
            let m := w.mem.store32 (fs + 4) (le32 sector 0)
            let m := m.store32 (fs + 8) (le32 sector 4)
            let m := m.store32 (fs + 12) (le32 sector 8)
            let m := m.store32 (fs + 16) (le32 sector 12)
            (0, w.withMem m)

/-- `pyfs_create`: the return code, the world and `*out_ctx`. -/
def pyfsCreate (B : Blocks) (w : World) (dev outCtx : Nat) : Except Halt (Nat × World × Nat) :=
  if dev = 0 then .ok (pyfsErrInvalidParam, w, outCtx)
  else do
    let (ctx, heap) ← kmalloc w.heap sizeofPyfsCtx
    let w := { w with heap := heap }
    if ctx = 0 then .ok (pyfsErrNoSpace, w, outCtx)
    else
      let m := w.mem.store32 ctx dev
      let m := m.store32 (ctx + 4) 0
      let m := m.store32 (ctx + 8) 0
      let m := m.store32 (ctx + 12) 0
      let m := m.store32 (ctx + 16) 0
      let (rc, w) := pyfsProbe B (w.withMem m) ctx
      if rc ≠ 0 then do
        let heap ← kfree w.heap ctx
        .ok (rc, { w with heap := heap }, outCtx)
      else .ok (0, w, ctx)

/-- The lazy fill of the cache in `pyfs_file_read`.  A device without a read
    function would be a jump to NULL. -/
def pyfsFillCache (B : Blocks) (w : World) (fctx : Nat) : Except Halt (Nat × World) :=
  if fctxCache w.mem fctx ≠ 0 then .ok (vfsOk, w)
  else do
    let (cache, heap) ← kmalloc w.heap pyfsBlockSize
    let w := World.withMem { w with heap := heap } (heap.mem.store32 (fctx + 8) cache)
    if cache = 0 then .ok (vfsErrNoSpace, w)
    else
      match (B.device (pyfsDev w.mem (fctxFs w.mem fctx))).read with
      | none => .error .diverges
      | some read =>
          let reply := read w.reads pyfsSuperblockLba
          let w := { w.withMem (w.mem.storeBytes cache reply.bytes) with reads := w.reads + 1 }
          .ok (if reply.ok then vfsOk else vfsErrIo, w)

/-- `pyfs_file_read`. -/
def pyfsFileRead (B : Blocks) (w : World) (file : VfsFile FileOps) (offset : Nat)
    (buffer : Option Buffer) (size outRead : Nat) : Except Halt (ReadResult World FileOps) :=
  match buffer with
  | none => readFails vfsErrInvalidParam w file buffer outRead
  | some buf =>
      let fctx := file.fileCtx
      if fctx = 0 ∨ fctxFs w.mem fctx = 0 then readFails vfsErrIo w file buffer outRead
      else if fctxFileId w.mem fctx ≠ pyfsFileSuperblock then
        readFails vfsErrNotFound w file buffer outRead
      else do
        let (rc, w) ← pyfsFillCache B w fctx
        if rc ≠ vfsOk then readFails rc w file buffer outRead
        else if offset ≥ pyfsBlockSize then .ok ⟨vfsOk, w, file, buffer, 0⟩
        else
          let remaining := pyfsBlockSize - offset
          let toCopy := if size < remaining then size else remaining
          let src := fctxCache w.mem fctx + offset
          .ok ⟨vfsOk, w, file,
            some fun k => if k < toCopy then w.mem.byte (src + k) else buf k, toCopy⟩

/-- `pyfs_file_close`. -/
def pyfsFileClose (w : World) (file : VfsFile FileOps) :
    Except Halt (Nat × World × VfsFile FileOps) :=
  let fctx := file.fileCtx
  if fctx ≠ 0 then do
    let heap ← if fctxCache w.mem fctx ≠ 0 then kfree w.heap (fctxCache w.mem fctx)
      else .ok w.heap
    let heap ← kfree heap fctx
    .ok (vfsOk, { w with heap := heap }, .blank)
  else .ok (vfsOk, w, .blank)

/-- `"superblock"`. -/
def superblockName : List UInt8 := [115, 117, 112, 101, 114, 98, 108, 111, 99, 107]

/-- `pyfs_open`. -/
def pyfsOpen (w : World) (fs : Nat) (path : List UInt8) (flags : Nat)
    (file : VfsFile FileOps) : Except Halt (Nat × World × VfsFile FileOps) :=
  if fs = 0 then .ok (vfsErrInvalidParam, w, file)
  else if flags &&& vfsOpenWrite ≠ 0 then .ok (vfsErrNotSupported, w, file)
  else if strcmp path superblockName ≠ 0 then .ok (vfsErrNotFound, w, file)
  else do
    let (fctx, heap) ← kmalloc w.heap sizeofPyfsFileCtx
    let w := { w with heap := heap }
    if fctx = 0 then .ok (vfsErrNoSpace, w, file)
    else
      let m := w.mem.store32 fctx fs
      let m := m.store32 (fctx + 4) pyfsFileSuperblock
      let m := m.store32 (fctx + 8) 0
      .ok (vfsOk, w.withMem m, ⟨some .pyfsFile, fctx, pyfsBlockSize, 0⟩)

/-! ## The callbacks -/

/-- `NULLFS_OPS`, `DEVFS_OPS` and `PYFS_OPS` over the block devices `B`. -/
def fsCalls (B : Blocks) : FsCalls World FsType FileOps where
  openFn
    | .nullfs => fun w _ _ _ file => nullfsOpen w file
    | .devfs => fun w _ path flags file => devfsOpen B w path flags file
    | .pyfs => fun w fs path flags file => pyfsOpen w fs path flags file
  readFn
    | .devfsNull => fun w file _ buffer _ _ => devfsReadNull w file buffer
    | .devfsZero => fun w file _ buffer size outRead => devfsReadZero w file buffer size outRead
    | .devfsBlock => fun w file offset buffer size outRead =>
        devfsReadBlock B w file offset buffer size outRead
    | .pyfsFile => fun w file offset buffer size outRead =>
        pyfsFileRead B w file offset buffer size outRead
  closeFn
    | .pyfsFile => fun w file => pyfsFileClose w file
    | _ => fun w file => devfsClose w file

end PyramidFs
