import PyramidOS.FsBootProofs
import PyramidOS.HeapFitProofs

/-! # `pyfs_create` is all or nothing

    The context is allocated before the volume is probed, so every failure after
    that has to give it back.

    * `pyfsProbe_iff` — what the probe accepts;
    * `pyfsCreate_code` — when a call succeeds, and what it leaves in `*out_ctx`;
    * `pyfs_create_all_or_nothing` — the heap after the call, and after
      `pyfs_destroy`. -/

namespace PyramidFs

open ByteMem PyramidKernel PyramidHeap PyramidBlock BlockTiling LabelledRun

variable {B : Blocks} {w w' : World} {fs rc dev out outCtx : Nat}

/-- `pyfs_destroy`. -/
def pyfsDestroy (w : World) (ctx : Nat) : Except Halt World :=
  if ctx = 0 then .ok w
  else do
    let heap ← kfree w.heap ctx
    .ok { w with heap := heap }

/-- The first words of a PyFS volume. -/
def PyfsSuperblock (sector : List Byte) : Prop :=
  le32 sector 0 = 0x53465950 ∧ le32 sector 4 = 1 ∧ le32 sector 8 = 512

/-- The device has a read function, and after so many reads a read of LBA 0 gives a
    PyFS superblock. -/
def AnswersPyfs (d : BlockDevice) (reads : Nat) : Prop :=
  ∃ read, d.read = some read ∧ (read reads 0).ok = true ∧ PyfsSuperblock (read reads 0).bytes

/-- **`pyfs_probe`** accepts PyFS volumes. -/
theorem pyfsProbe_iff (hfs : fs ≠ 0) (hdev : pyfsDev w.mem fs ≠ 0) :
    (pyfsProbe B w fs).1 = 0 ↔ AnswersPyfs (B.device (pyfsDev w.mem fs)) w.reads := by
  rw [pyfsProbe, if_neg (not_or.mpr ⟨hfs, hdev⟩), AnswersPyfs]
  cases hread : (B.device (pyfsDev w.mem fs)).read with
  | none =>
    refine iff_of_false (show pyfsErrInvalidParam ≠ 0 by decide) ?_
    rintro ⟨read, hc, -⟩
    cases hc
  | some read =>
    simp only [Option.some.injEq, exists_eq_left']
    rw [show read w.reads pyfsSuperblockLba = read w.reads 0 from rfl]
    generalize read w.reads 0 = reply
    rw [PyfsSuperblock]
    by_cases hok : (!reply.ok) = true
    · rw [if_pos hok]
      refine iff_of_false (show pyfsErrIo ≠ 0 by decide) fun hc => ?_
      rw [hc.1] at hok
      cases hok
    rw [if_neg hok]
    have hok' : reply.ok = true := by
      rw [← Bool.not_eq_false]
      intro hc
      rw [hc] at hok
      exact hok rfl
    by_cases hmagic : le32 reply.bytes 0 ≠ pyfsMagic
    · rw [if_pos hmagic]
      exact iff_of_false (show pyfsErrBadSuperblock ≠ 0 by decide) fun hc => hmagic hc.2.1
    rw [if_neg hmagic]
    by_cases hversion : le32 reply.bytes 4 ≠ pyfsVersion1
    · rw [if_pos hversion]
      exact iff_of_false (show pyfsErrBadSuperblock ≠ 0 by decide) fun hc => hversion hc.2.2.1
    rw [if_neg hversion]
    by_cases hblock : le32 reply.bytes 8 ≠ pyfsBlockSize
    · rw [if_pos hblock]
      exact iff_of_false (show pyfsErrBadSuperblock ≠ 0 by decide) fun hc => hblock hc.2.2.2
    · rw [if_neg hblock]
      exact iff_of_true rfl
        ⟨hok', not_not.mp hmagic, not_not.mp hversion, not_not.mp hblock⟩

/-- A context can be allocated. -/
def CtxFits (h : Heap) : Prop := ∃ p h', kmalloc h sizeofPyfsCtx = .ok (p, h') ∧ p ≠ 0

/-- What a call that returned says: 0 exactly for a PyFS volume that a context could
    be had for; and on any other code `*out_ctx` is what it was. -/
theorem pyfsCreate_code {dev : UInt32} (h : pyfsCreate B w dev.toNat outCtx = .ok (rc, w', out)) :
    (rc = 0 ↔ dev ≠ 0 ∧ CtxFits w.heap ∧ AnswersPyfs (B.device dev.toNat) w.reads)
      ∧ (rc ≠ 0 → out = outCtx) := by
  by_cases hdev : dev.toNat = 0
  · rw [pyfsCreate, if_pos hdev] at h
    cases h
    refine ⟨iff_of_false (by decide) fun hc => hc.1 (UInt32.toNat_inj.mp hdev), fun _ => rfl⟩
  have hne : dev ≠ 0 := fun hc => hdev (congrArg UInt32.toNat hc)
  obtain ⟨⟨ctx, heap⟩, hok, hrest⟩ : ∃ r, kmalloc w.heap sizeofPyfsCtx = .ok r ∧ _ := by
    rw [pyfsCreate, if_neg hdev] at h
    exact bind_ok h
  by_cases hctx : ctx = 0
  · simp only [hctx, if_true] at hrest
    cases hrest
    refine ⟨iff_of_false (by decide) fun hc => ?_, fun _ => rfl⟩
    obtain ⟨-, ⟨p, h', hok', hp⟩, -⟩ := hc
    rw [hok] at hok'
    cases hok'
    exact hp hctx
  · have hfits : CtxFits w.heap := ⟨ctx, heap, hok, hctx⟩
    rw [pyfsCreate_alloc hdev hok hctx rfl rfl] at h
    have hnew := pyfsDev_new heap.mem ctx dev
    generalize ((((heap.mem.store32 ctx dev.toNat).store32 (ctx + 4) 0).store32 (ctx + 8) 0).store32
      (ctx + 12) 0).store32 (ctx + 16) 0 = m at h hnew
    have hprobe := pyfsProbe_iff (B := B) (w := ⟨⟨m, heap.startHeader⟩, w.reads⟩) hctx
      (show pyfsDev m ctx ≠ 0 by rw [hnew]; exact hdev)
    rw [show pyfsDev (World.mem ⟨⟨m, heap.startHeader⟩, w.reads⟩) ctx = dev.toNat from hnew]
      at hprobe
    generalize pyfsProbe B ⟨⟨m, heap.startHeader⟩, w.reads⟩ ctx = r at h hprobe
    have hiff : r.1 = 0 ↔ dev ≠ 0 ∧ CtxFits w.heap ∧ AnswersPyfs (B.device dev.toNat) w.reads :=
      hprobe.trans ⟨fun hanswers => ⟨hne, hfits, hanswers⟩, fun hall => hall.2.2⟩
    by_cases hrc : r.1 ≠ 0
    · rw [if_pos hrc] at h
      obtain ⟨heap', -, h⟩ := bind_ok h
      cases h
      exact ⟨hiff, fun _ => rfl⟩
    · rw [if_neg hrc] at h
      cases h
      exact ⟨iff_of_true rfl (hiff.mp (not_not.mp hrc)), fun hc => absurd rfl hc⟩

/-- **ALL OR NOTHING**: in every state of the heap that can be reached, for every
    device and whatever it answers, `pyfs_create` returns.

    * It returns 0 exactly when the device is not NULL, a context can be allocated,
      and a read of LBA 0 gives a PyFS superblock.
    * Then the context is the one block more that is allocated, and `pyfs_destroy`
      restores the block list.
    * Else `*out_ctx` and the block list are what they were. -/
theorem pyfs_create_all_or_nothing (B : Blocks) (mem : Mem) (ops : List HeapOp) (s : HeapClient)
    (hrun : Run HeapStep ⟨heapFirstBlock mem, []⟩ ops s) (reads : Nat) (dev : UInt32)
    (outCtx : Nat) :
    ∃ rc w' out, pyfsCreate B ⟨s.heap, reads⟩ dev.toNat outCtx = .ok (rc, w', out)
      ∧ (rc = 0 ↔ dev ≠ 0 ∧ CtxFits s.heap ∧ AnswersPyfs (B.device dev.toNat) reads)
      ∧ (rc = 0 → w'.heap.allocations.Perm (out :: s.heap.allocations)
        ∧ w'.heap.allocations.Nodup
        ∧ (∃ b ∈ used w'.heap.blocks, out = b.addr + 20 ∧ sizeofPyfsCtx ≤ b.size)
        ∧ (∀ b ∈ used s.heap.blocks, b ∈ used w'.heap.blocks)
        ∧ ∃ w'', pyfsDestroy w' out = .ok w'' ∧ w''.heap.blockList = s.heap.blockList)
      ∧ (rc ≠ 0 → out = outCtx ∧ w'.heap.blockList = s.heap.blockList) := by
  obtain ⟨bs, hi⟩ := heapInv_run hrun
  have howns : Owns bs s.heap s.live := ⟨bs, hi, fun b hb => hb⟩
  obtain ⟨rc, w', out, hok, -, hcase⟩ :=
    pyfsCreate_spec (B := B) (w := ⟨s.heap, reads⟩) howns hi.owned dev outCtx
  obtain ⟨hiff, hkept⟩ := pyfsCreate_code hok
  refine ⟨rc, w', out, hok, hiff, fun hrc => ?_, fun hrc => ?_⟩
  · rcases hcase with ⟨hc, -⟩ | ⟨-, ho, -, -⟩
    · exact absurd hrc hc
    obtain ⟨bs', hi', -⟩ := id ho
    refine ⟨hi'.allocations_perm.trans (hi.allocations_perm.symm.cons out),
      hi'.rep.allocations_nodup, hi'.allocated (List.mem_cons_self ..), ho.used_subset hi, ?_⟩
    obtain ⟨h', hfree, -, hback⟩ := ho.free hi.owned
    have hout := ho.bounds (List.mem_cons_self ..)
    refine ⟨{ w' with heap := h' }, ?_, hback.blockList_eq hi⟩
    rw [pyfsDestroy, if_neg (by omega), hfree]
    rfl
  · rcases hcase with ⟨-, ho⟩ | ⟨hc, -⟩
    · exact ⟨hkept hrc, ho.blockList_eq hi⟩
    · exact absurd hc hrc

/-- On the fresh heap, with a device that answers. -/
theorem pyfs_create_all_or_nothing_fresh :
    ∃ w' out w'', pyfsCreate (smallBlocks fun _ => true)
        ⟨(heapFirstBlock ⟨fun _ => 0, []⟩), 0⟩ (0x1000 : UInt32).toNat 7 = .ok (0, w', out)
      ∧ pyfsDestroy w' out = .ok w''
      ∧ w''.heap.blockList = (heapFirstBlock ⟨fun _ => 0, []⟩).blockList := by
  obtain ⟨rc, w', out, hok, -, hsuccess, -⟩ := pyfs_create_all_or_nothing
    (smallBlocks fun _ => true) ⟨fun _ => 0, []⟩ [] _ Run.nil 0 0x1000 7
  have hcode : (pyfsCreate (smallBlocks fun _ => true) ⟨(heapFirstBlock ⟨fun _ => 0, []⟩), 0⟩
      (0x1000 : UInt32).toNat 7).map Prod.fst = .ok 0 := by
    decide +kernel
  rw [hok] at hcode
  have hrc : rc = 0 := Except.ok.inj hcode
  obtain ⟨-, -, -, -, w'', hdestroy, hlist⟩ := hsuccess hrc
  rw [hrc] at hok
  exact ⟨w', out, w'', hok, hdestroy, hlist⟩

end PyramidFs
