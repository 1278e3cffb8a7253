import PyramidOS.KernelLoadProofs
import PyramidOS.RunProofs

/-! # The CHS fallback

    Where INT 13h AH=42h fails, `read_sectors_universal` asks again with AH=02h, by
    cylinder, head and sector.  That call serves one track, and `read_kernel_robust`
    takes batches of 18 sectors, one track, but its first batch begins in the middle of
    one.

    * `readBatch_moves` — what a turn does to the registers, whatever the BIOS answers;
    * `Reading` — the loop invariant;
    * `chs_in_track_iff` — over every load of a kernel: each CHS address is the one of
      the LBA, and the requests stay within their track exactly for kernels of 11
      sectors or less. -/

namespace PyramidBoot

open ByteMem PyramidKernel LabelledRun

/-! ## The requests -/

/-- The packet of the first attempt, for the registers of the call. -/
def lbaRequest (l : Loader) : Dap := ⟨l.cx, l.bx, l.es, l.eax⟩

/-- The registers of the second one, from `retry_lba` and `retry_cnt`. -/
def chsRequest (lba cnt : Nat) : ChsRead :=
  let track := lba / sectorsPerTrack
  let chsSector := u16 (lba % sectorsPerTrack + 1) % 2 ^ 8
  let chsHead := track % headsPerCylinder
  let chsCyl := u16 (track / headsPerCylinder)
  ⟨cnt % 2 ^ 8, chsCyl % 2 ^ 8, chsSector, chsHead⟩

/-- The registers `loadKernel` starts the loop with. -/
def kernelStart (l : Loader) : Loader :=
  { Loader.setBx { l with es := kernelLoadSeg } 0 with
    eax := kernelLba + 1, ecx := l.kernelSectors }

/-- One turn of the loop of `read_kernel_robust`, with the packet it asks for. -/
inductive Turn (bios : Bios) : Loader → Dap → Loader → Prop where
  | read {l l' : Loader} (hleft : l.cx ≠ 0) (hread : readBatch bios l = .ok l') :
      Turn bios l (lbaRequest (prepareBatch l)) l'

/-- While the loop runs from `start` on, it asks for the packet, and for the CHS read if
    that fails. -/
def Issues (bios : Bios) (start : Loader) (q : Dap) (c : ChsRead) : Prop :=
  ∃ qs l, Run (Turn bios) start qs l ∧ l.cx ≠ 0 ∧ q = lbaRequest (prepareBatch l)
    ∧ c = chsRequest (prepareBatch l).eax (prepareBatch l).cx

/-- The CHS read is for as many sectors, from the same one on, of 18 sectors a track and
    2 heads. -/
structure ChsRead.Decodes (c : ChsRead) (q : Dap) : Prop where
  count : c.count = q.num
  lba : (c.cylinder * headsPerCylinder + c.head) * sectorsPerTrack + (c.sector - 1) = q.lbaLow
  head : c.head < headsPerCylinder
  sector : 1 ≤ c.sector ∧ c.sector ≤ sectorsPerTrack

/-- It stays within one track. -/
def ChsRead.InTrack (c : ChsRead) : Prop := c.sector + c.count - 1 ≤ 18

instance (c : ChsRead) : Decidable c.InTrack :=
  inferInstanceAs (Decidable (c.sector + c.count - 1 ≤ 18))

variable {l l' l2 start : Loader} {bios : Bios} {n done fuel : Nat} {q : Dap} {c : ChsRead}
  {qs : List Dap}

/-! ## The calls of the BIOS -/

/-- The fallback makes the CHS request, and no other. -/
theorem readSectorsChs_eq (bios : Bios) (l : Loader) :
    readSectorsChs bios l =
      let c := chsRequest l.retryLba l.retryCnt
      let r := bios.chsRead l.bootDrive c
      let l := { l with es := l.retrySeg, chsSector := c.sector, chsHead := c.head,
                        chsCyl := u16 (l.retryLba / sectorsPerTrack / headsPerCylinder) }
      if r.carry then .error .ioError else .ok (l.transfer l.es l.retryOff r.bytes) := rfl

/-- The read makes the LBA request, and after a failure the CHS request of the same LBA
    and count. -/
theorem readSectorsUniversal_eq (bios : Bios) (l : Loader) :
    readSectorsUniversal bios l =
      let l1 := { l with
        retryLba := l.eax, retryCnt := l.cx, retrySeg := l.es, retryOff := l.bx
        dap := lbaRequest l, requests := l.requests ++ [lbaRequest l] }
      let r := bios.extendedRead l.bootDrive (lbaRequest l)
      let l1 := l1.transfer l.es l.bx r.bytes
      if r.carry then (readSectorsChs bios l1).map (·.popad l) else .ok (l1.popad l) := rfl

/-- A read that succeeds keeps the registers, the stack and the count. -/
theorem readSectorsUniversal_keeps (h : readSectorsUniversal bios l = .ok l2) :
    l2.stack = l.stack ∧ l2.tmpCount = l.tmpCount ∧ l2.ecx = l.ecx
      ∧ l2.requests = l.requests ++ [lbaRequest l] := by
  rw [readSectorsUniversal_eq] at h
  dsimp only at h
  split at h
  · rw [readSectorsChs_eq] at h
    dsimp only at h
    split at h
    · cases h
    · cases h
      exact ⟨rfl, rfl, rfl, rfl⟩
  · cases h
    exact ⟨rfl, rfl, rfl, rfl⟩

/-- **ONE TURN**, whatever the BIOS answers: the registers move on by a batch. -/
theorem readBatch_moves (h : readBatch bios l = .ok l') (hecx : l.ecx < 2 ^ 16)
    (hlast : l.eax + l.ecx < 2 ^ 32) :
    l'.eax = l.eax + batchSize l.ecx l.bx ∧ l'.ecx = l.ecx - batchSize l.ecx l.bx
      ∧ l'.bx = u16 (l.bx + 512 * batchSize l.ecx l.bx)
      ∧ l'.requests = l.requests ++ [lbaRequest (prepareBatch l)] := by
  obtain ⟨hsize, h18⟩ := batchSize_le l.ecx l.bx
  obtain ⟨edx, hprepare⟩ := prepareBatch_eq hecx
  rw [readBatch] at h
  cases hread : readSectorsUniversal bios (prepareBatch l) with
  | error stop =>
    rw [hread] at h
    cases h
  | ok l2 =>
    rw [hread] at h
    cases h
    obtain ⟨hstack, htmp, hc, hrequests⟩ := readSectorsUniversal_keeps hread
    obtain ⟨hneax, hnecx, hnbx, -, -, hnrequests, -⟩ :=
      moved_spec (hstack.trans (by rw [hprepare])) (htmp.trans (by rw [hprepare]))
        (hc.trans (by rw [hprepare])) hsize h18 hecx hlast
    refine ⟨hneax, hnecx, hnbx, ?_⟩
    rw [hnrequests, hrequests, hprepare]

/-- The LBA and the count of a turn. -/
theorem prepareBatch_request (hecx : l.ecx < 2 ^ 16) :
    (prepareBatch l).eax = l.eax ∧ (prepareBatch l).cx = batchSize l.ecx l.bx := by
  obtain ⟨edx, hprepare⟩ := prepareBatch_eq hecx
  rw [hprepare]
  exact ⟨rfl, u16_of_lt (Nat.lt_of_le_of_lt (batchSize_le _ _).1 hecx)⟩

/-! ## The loop -/

/-- The relation is the loop of `read_kernel_robust`. -/
theorem readKernelRobust_run (h : Run (Turn bios) start qs l) :
    readKernelRobust bios (qs.length + fuel) start = readKernelRobust bios fuel l := by
  induction h generalizing fuel with
  | nil => rw [List.length_nil, Nat.zero_add]
  | @snoc qs l1 l2 q _ hturn ih =>
    cases hturn with
    | read hleft hread =>
      rw [List.length_append, List.length_singleton, Nat.add_assoc, Nat.add_comm 1, ih,
        readKernelRobust, if_neg hleft, hread]
      rfl

/-- **THE LOOP INVARIANT**: of `n` sectors, `done` are read. -/
structure Reading (n done : Nat) (l : Loader) : Prop where
  eax : l.eax = kernelLba + 1 + done
  ecx : l.ecx = n - done
  bx : l.bx = 512 * done % 2 ^ 16

theorem Reading.turn (h : Reading n done l) (hn : n < 2 ^ 16) (hdone : done ≤ n)
    (hturn : Turn bios l q l') : ∃ done', done' ≤ n ∧ Reading n done' l' := by
  cases hturn with
  | read hleft hread =>
    have hlba : kernelLba = 60 := rfl
    have hecx := h.ecx
    have heax := h.eax
    have hsize : batchSize l.ecx l.bx ≤ l.ecx := (batchSize_le _ _).1
    obtain ⟨hneax, hnecx, hnbx, -⟩ := readBatch_moves hread (by omega) (by omega)
    refine ⟨done + batchSize l.ecx l.bx, by omega, ?_, ?_, ?_⟩
    · rw [hneax, heax, Nat.add_assoc]
    · rw [hnecx, hecx, Nat.sub_sub]
    · rw [hnbx, h.bx, u16, Nat.mul_add, Nat.mod_add_mod]

theorem run_reading (hn : n < 2 ^ 16) (hstart : Reading n 0 start)
    (h : Run (Turn bios) start qs l) : ∃ done, done ≤ n ∧ Reading n done l := by
  refine h.invariant (I := fun l => ∃ done, done ≤ n ∧ Reading n done l)
    ⟨0, Nat.zero_le n, hstart⟩ ?_
  rintro l1 q l2 ⟨done, hdone, hreading⟩ hturn
  exact hreading.turn hn hdone hturn

/-- The requests of a turn. -/
theorem Reading.request (h : Reading n done l) (hn : n < 2 ^ 16) :
    lbaRequest (prepareBatch l)
        = ⟨batchSize l.ecx l.bx, (prepareBatch l).bx, (prepareBatch l).es, kernelLba + 1 + done⟩
      ∧ chsRequest (prepareBatch l).eax (prepareBatch l).cx
        = chsRequest (kernelLba + 1 + done) (batchSize l.ecx l.bx) := by
  have hecx := h.ecx
  obtain ⟨heax, hcx⟩ := prepareBatch_request (l := l) (by omega)
  rw [lbaRequest, heax, hcx, h.eax]
  exact ⟨rfl, rfl⟩

/-! ## Geometry -/

/-- **A CHS ADDRESS IS THE ONE OF ITS LBA** on a floppy disk. -/
theorem chsRequest_decodes {lba cnt off seg : Nat} (hlba : lba < 2880) (hcnt : cnt ≤ 18) :
    (chsRequest lba cnt).Decodes ⟨cnt, off, seg, lba⟩ := by
  have hsector : u16 (lba % 18 + 1) % 2 ^ 8 = lba % 18 + 1 := by
    rw [u16]
    omega
  have hcyl : u16 (lba / 18 / 2) % 2 ^ 8 = lba / 18 / 2 := by
    rw [u16]
    omega
  constructor
  · exact Nat.mod_eq_of_lt (by omega)
  · show (u16 (lba / 18 / 2) % 2 ^ 8 * 2 + lba / 18 % 2) * 18
      + (u16 (lba % 18 + 1) % 2 ^ 8 - 1) = lba
    rw [hsector, hcyl]
    omega
  · exact Nat.mod_lt _ (by decide)
  · show 1 ≤ u16 (lba % 18 + 1) % 2 ^ 8 ∧ u16 (lba % 18 + 1) % 2 ^ 8 ≤ 18
    rw [hsector]
    omega

/-- A request stays in its track when the rest of the track is long enough. -/
theorem chsRequest_inTrack_iff {lba cnt : Nat} (hcnt : cnt ≤ 18) :
    (chsRequest lba cnt).InTrack ↔ lba % 18 + cnt ≤ 18 := by
  show u16 (lba % 18 + 1) % 2 ^ 8 + cnt % 2 ^ 8 - 1 ≤ 18 ↔ _
  rw [u16]
  omega

theorem kernelStart_reading (l : Loader) (hn : l.kernelSectors = n) :
    Reading n 0 (kernelStart l) :=
  ⟨rfl, hn, u16_setLow _ _⟩

/-- **THE CHS FALLBACK**: while a kernel that fits on the floppy disk is loaded, with any
    answers of the BIOS, each CHS read is for the sectors of the LBA read before it; and
    all of them stay within one track if and only if the kernel has at most 11 sectors. -/
theorem chs_in_track_iff (bios : Bios) (l : Loader) {size : Nat}
    (hsize : (parseHeader l.toStage2).kernelSize = size)
    (hfits : kernelLba + 1 + (size + 511) / 512 ≤ 2880)
    (hstart : start = kernelStart { l with toStage2 := parseHeader l.toStage2 }) :
    (∀ q c, Issues bios start q c → c.Decodes q)
      ∧ ((∀ q c, Issues bios start q c → c.InTrack) ↔ (size + 511) / 512 ≤ 11) := by
  have hlba : kernelLba = 60 := rfl
  have hn : (size + 511) / 512 < 2 ^ 16 := by omega
  have hreading : Reading ((size + 511) / 512) 0 start :=
    hstart ▸ kernelStart_reading _ (parseHeader_sectors hsize hn)
  generalize (size + 511) / 512 = n at hfits hn hreading ⊢
  refine ⟨?_, ?_, ?_⟩
  · rintro q c ⟨qs, l1, hrun, hleft, rfl, rfl⟩
    obtain ⟨done, hdone, h⟩ := run_reading hn hreading hrun
    obtain ⟨hq, hc⟩ := h.request hn
    rw [hq, hc]
    refine chsRequest_decodes ?_ (batchSize_le _ _).2
    have hecx : l1.cx = n - done := (u16_of_lt (h.ecx ▸ by omega)).trans h.ecx
    omega
  · intro hall
    by_contra hlong
    -- the first batch is enough
    have hcx : start.cx = n := (u16_of_lt (hreading.ecx ▸ by omega)).trans hreading.ecx
    have hfirst := hall _ _ ⟨[], start, .nil, by omega, rfl, rfl⟩
    have hbatch : batchSize n (512 * 0 % 2 ^ 16) = min n 18 := rfl
    rw [(hreading.request hn).2, hreading.ecx, hreading.bx, Nat.sub_zero, hbatch,
      chsRequest_inTrack_iff (Nat.min_le_right _ _)] at hfirst
    omega
  · rintro hshort q c ⟨qs, l1, hrun, hleft, rfl, rfl⟩
    obtain ⟨done, hdone, h⟩ := run_reading hn hreading hrun
    have hsize' : batchSize l1.ecx l1.bx ≤ n - done := h.ecx ▸ (batchSize_le _ _).1
    rw [(h.request hn).2, chsRequest_inTrack_iff (batchSize_le _ _).2]
    omega

/-! ## Kernels of 256 and of 12 sectors -/

theorem chs_in_track_iff_two_segments :
    (∀ q c, Issues smallBios
        (kernelStart { smallLoader with toStage2 := parseHeader smallLoader.toStage2 }) q c
        → c.Decodes q)
      ∧ ((∀ q c, Issues smallBios
          (kernelStart { smallLoader with toStage2 := parseHeader smallLoader.toStage2 }) q c
          → c.InTrack) ↔ (0x20000 + 511) / 512 ≤ 11) :=
  chs_in_track_iff smallBios smallLoader (by decide) (by decide) rfl

/-- A floppy drive without LBA: it reads within one track. -/
def floppyBios : Bios where
  extendedRead _ _ := ⟨true, []⟩
  chsRead _ c :=
    if c.InTrack then ⟨false, List.replicate (512 * c.count) 0⟩ else ⟨true, []⟩

/-- The header in the scratch segment says 0x1800 bytes. -/
def twelveSectors : Loader :=
  { smallLoader with mem := ⟨fun x => if x = 0x7C09 then 0x18 else 0, []⟩ }

/-- Of 12 sectors from LBA 61 on, the last one is on the next track, and the load fails. -/
theorem chs_leaves_track :
    ∃ q c, Issues floppyBios
        (kernelStart { twelveSectors with toStage2 := parseHeader twelveSectors.toStage2 }) q c
      ∧ q.lbaLow = 61 ∧ q.num = 12 ∧ c = ⟨12, 1, 8, 1⟩ ∧ ¬ c.InTrack
      ∧ loadKernel floppyBios 13
          { twelveSectors with toStage2 := parseHeader twelveSectors.toStage2 }
        = .error .ioError := by
  refine ⟨_, _, ⟨[], _, .nil, by decide +kernel, rfl, rfl⟩, ?_, ?_, ?_, ?_, ?_⟩
  · decide +kernel
  · decide +kernel
  · rfl
  · decide +kernel
  · rfl

end PyramidBoot
