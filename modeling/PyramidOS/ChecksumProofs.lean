import Mathlib.Algebra.BigOperators.Group.List.Basic
import Mathlib.Data.Nat.ModEq
import PyramidOS.BootInfoProofs

/-! # The kernel checksum

    The Makefile sums the bytes of the kernel in Python and puts the sum into the
    header; `kernel_checksum_sum32` of `stage2.asm` sums the memory the kernel was
    loaded to, a byte at a time, over segments of 64 KiB.

    * `sum_set_mod_iff` — a sum tells one changed summand;
    * `sum32Loop_spec` — the loop, across the ends of segments;
    * `checksums_agree` — for every kernel: the two sums are equal, a good image boots,
      and an image with one damaged byte does not. -/

namespace PyramidBoot

open ByteMem PyramidKernel

/-! ## The header -/

/-- `sum(open(...).read()) & 0xffffffff`. -/
def headerChecksum (file : List Byte) : Nat := (file.map BitVec.toNat).sum &&& 0xffffffff

/-- `dd`. -/
def dd (v : Nat) : List Byte := [byteOf v 0, byteOf v 1, byteOf v 2, byteOf v 3]

/-- `header.asm`, with `KERNEL_SIZE` and `KERNEL_CHECKSUM`. -/
def header (kernelSize kernelChecksum : Nat) : List Byte :=
  [0x50, 0x79, 0x72, 0x49, 0x6D, 0x67, 0x30, 0x31] ++ dd kernelSize ++ dd 0x00010000
    ++ dd 0x00010000 ++ dd kernelChecksum ++ List.replicate (512 - 24) 0

/-- The rule of the Makefile for `KERNEL_HDR`, for the bytes of `kernel.bin`. -/
def kernelHdr (file : List Byte) : List Byte := header file.length (headerChecksum file)

/-! ## The loader -/

/-- `kernel_size`, `kernel_checksum_expected` and `kernel_checksum_actual`. -/
structure ChecksumVars where
  kernelSize : Nat
  expected : Nat
  actual : Nat

/-- `stage2_main`, step 6: what it takes from the header. -/
def parseChecksum (s : Stage2) : ChecksumVars where
  kernelSize := (parseHeader s).kernelSize
  expected := s.mem.load32 (scratchAddr + 20)
  actual := 0

/-- `.loop` of `kernel_checksum_sum32`, with EDX bytes left: EAX, ECX, and ES:DI. -/
def sum32Loop (m : Mem) : Nat → Nat → Nat → Nat → Nat → Nat
  | 0, eax, _, _, _ => eax
  | edx + 1, eax, ecx, es, di =>
      -- `mov cl, [es:di]` leaves the rest of ECX
      let ecx := ecx / 2 ^ 8 * 2 ^ 8 + m.load8 (16 * es + di)
      let eax := u32 (eax + ecx)
      let di := u16 (di + 1)
      let es := if di ≠ 0 then es else u16 (es + 0x1000)
      sum32Loop m edx eax ecx es di

/-- `kernel_checksum_sum32`. -/
def kernelChecksumSum32 (m : Mem) (kernelSize : Nat) : Nat :=
  sum32Loop m kernelSize 0 0 kernelLoadSeg 0

/-- Where `ui_checksum_verify` ends: it returns from `.skip` or behind
    `ui_checksum_show_ok`, or it shows the error and halts. -/
inductive CsumExit where
  | skip
  | ok
  | fail
  deriving DecidableEq

/-- The boot goes on. -/
def CsumExit.continues : CsumExit → Bool
  | .skip | .ok => true
  | .fail => false

/-- `ui_checksum_verify`. -/
def uiChecksumVerify (m : Mem) (v : ChecksumVars) : CsumExit × ChecksumVars :=
  if v.expected = 0 then (.skip, v)
  else
    let eax := kernelChecksumSum32 m v.kernelSize
    let v := { v with actual := eax }
    if eax ≠ v.expected then (.fail, v) else (.ok, v)

/-- The `n` bytes from 0x10000 on. -/
def kernelBytes (m : Mem) (n : Nat) : List Byte := (List.range' 0x10000 n).map m.byte

/-- Memory from 0x10000 on holds the file. -/
def HoldsFile (m : Mem) (file : List Byte) : Prop :=
  ∀ k (h : k < file.length), m.byte (0x10000 + k) = file[k]

/-- It does but for one byte. -/
def Damaged (m : Mem) (file : List Byte) : Prop :=
  ∃ i, ∃ h : i < file.length, m.byte (0x10000 + i) ≠ file[i]
    ∧ ∀ k (h : k < file.length), k ≠ i → m.byte (0x10000 + k) = file[k]

variable {m : Mem} {s : Stage2} {file : List Byte} {v : ChecksumVars}

/-! ## Sums -/

/-- **ONE CHANGED SUMMAND** below the modulus changes the sum. -/
theorem sum_set_mod_iff {l : List Nat} {i a b n : Nat} (hi : i < l.length) (ha : a < n)
    (hb : b < n) : (l.set i a).sum % n = (l.set i b).sum % n ↔ a = b := by
  constructor
  · intro h
    rw [List.sum_set, List.sum_set, if_pos hi, if_pos hi] at h
    have hmod : Nat.ModEq n a b :=
      Nat.ModEq.add_left_cancel' _ (Nat.ModEq.add_right_cancel' _ h)
    exact Nat.ModEq.eq_of_lt_of_lt hmod ha hb
  · rintro rfl
    rfl

theorem headerChecksum_eq (file : List Byte) :
    headerChecksum file = (file.map BitVec.toNat).sum % 2 ^ 32 :=
  Nat.and_two_pow_sub_one_eq_mod _ 32

/-- **ONE DAMAGED BYTE** changes the checksum. -/
theorem headerChecksum_set {i : Nat} (hi : i < file.length) {b : Byte} (hb : b ≠ file[i]) :
    headerChecksum (file.set i b) ≠ headerChecksum file := by
  have hself : file.map BitVec.toNat = (file.map BitVec.toNat).set i file[i].toNat := by
    rw [← List.map_set, List.set_getElem_self]
  rw [headerChecksum_eq, headerChecksum_eq, List.map_set, hself, List.set_set]
  have hlt : ∀ c : Byte, c.toNat < 2 ^ 32 := fun c => Nat.lt_trans c.isLt (by decide)
  rw [Ne, sum_set_mod_iff (by rw [List.length_map]; exact hi) (hlt b) (hlt _)]
  exact fun h => hb (BitVec.eq_of_toNat_eq h)

/-! ## The loop -/

/-- **THE LOOP** from byte `k` of the kernel on, by induction on the bytes left: ES:DI is
    the byte's address in its 64 KiB segment, and of ECX only CL is ever set. -/
theorem sum32Loop_spec (m : Mem) : ∀ n k eax ecx, k + n ≤ 0x90000 → eax < 2 ^ 32 →
    ecx < 2 ^ 8 →
    sum32Loop m n eax ecx (0x1000 + 0x1000 * (k / 2 ^ 16)) (k % 2 ^ 16)
      = (eax + (((List.range' (0x10000 + k) n).map m.byte).map BitVec.toNat).sum) % 2 ^ 32 := by
  intro n
  induction n with
  | zero =>
    intro k eax ecx _ heax _
    exact (Nat.mod_eq_of_lt heax).symm
  | succ n ih =>
    intro k eax ecx hmax heax hecx
    have haddr : 16 * (0x1000 + 0x1000 * (k / 2 ^ 16)) + k % 2 ^ 16 = 0x10000 + k := by omega
    have hcl : ecx / 2 ^ 8 * 2 ^ 8 + m.load8 (0x10000 + k) = m.load8 (0x10000 + k) := by omega
    have hdi : u16 (k % 2 ^ 16 + 1) = (k + 1) % 2 ^ 16 := by
      rw [u16]
      omega
    have hes : (if (k + 1) % 2 ^ 16 ≠ 0 then 0x1000 + 0x1000 * (k / 2 ^ 16)
        else u16 (0x1000 + 0x1000 * (k / 2 ^ 16) + 0x1000))
          = 0x1000 + 0x1000 * ((k + 1) / 2 ^ 16) := by
      rw [u16_of_lt (by omega)]
      split
      · omega
      · omega
    have hrest := ih (k + 1) (u32 (eax + m.load8 (0x10000 + k))) (m.load8 (0x10000 + k))
      (by omega) (Nat.mod_lt _ (by decide)) (m.byte (0x10000 + k)).isLt
    simp only [sum32Loop, haddr, hcl, hdi, hes]
    rw [hrest, u32, List.range'_succ, List.map_cons, List.map_cons, List.sum_cons,
      Nat.mod_add_mod, Nat.add_assoc, Nat.add_assoc]
    rfl

/-- **THE SUM OF THE LOADER** is the one of the Makefile, over what memory holds. -/
theorem kernelChecksumSum32_eq (m : Mem) {n : Nat} (hmax : n ≤ 0x90000) :
    kernelChecksumSum32 m n = headerChecksum (kernelBytes m n) := by
  have hloop := sum32Loop_spec m n 0 0 0 (by omega) (by decide) (by decide)
  rw [Nat.zero_add] at hloop
  rw [headerChecksum_eq, kernelBytes]
  exact hloop

/-! ## The header sector -/

/-- A little-endian field reads back as the value it was given. -/
theorem le32_dd {l r : List Byte} {v off : Nat} (hoff : l.length = off) (hv : v < 2 ^ 32) :
    le32 (l ++ dd v ++ r) off = v := by
  have hget : ∀ i < 4, (l ++ dd v ++ r).getD (off + i) 0 = byteOf v i := by
    intro i hi
    rw [List.getD_eq_getElem?_getD, List.append_assoc, List.getElem?_append_right (by omega),
      hoff, Nat.add_sub_cancel_left]
    match i, hi with
    | 0, _ | 1, _ | 2, _ | 3, _ => rfl
  have hoff0 := hget 0 (by decide)
  rw [Nat.add_zero] at hoff0
  rw [le32, hoff0, hget 1 (by decide), hget 2 (by decide), hget 3 (by decide)]
  simp only [byteOf, BitVec.toNat_ofNat]
  omega

theorem length_header (a b : Nat) : (header a b).length = 512 := by
  rw [header, List.length_append, List.length_append, List.length_append, List.length_append,
    List.length_append, List.length_replicate]
  rfl

theorem header_size {a : Nat} (b : Nat) (ha : a < 2 ^ 32) : le32 (header a b) 8 = a := by
  rw [header, List.append_assoc _ (dd b), List.append_assoc _ (dd _), List.append_assoc _ (dd _)]
  exact le32_dd rfl ha

theorem header_checksum (a : Nat) {b : Nat} (hb : b < 2 ^ 32) : le32 (header a b) 20 = b :=
  le32_dd rfl hb

/-- What the loader takes from the header of a kernel. -/
theorem parseChecksum_eq (hmax : file.length ≤ 0x90000) (s : Stage2) :
    parseChecksum (readHeader (kernelHdr file) s) = ⟨file.length, headerChecksum file, 0⟩ := by
  have hsum : headerChecksum file < 2 ^ 32 := by
    rw [headerChecksum_eq]
    exact Nat.mod_lt _ (by decide)
  have hexpected : (readHeader (kernelHdr file) s).mem.load32 (scratchAddr + 20)
      = headerChecksum file := by
    rw [readHeader, load32_storeBytes _ _ _ (by rw [kernelHdr, length_header]; decide)]
    exact header_checksum _ hsum
  have hsize : (parseHeader (readHeader (kernelHdr file) s)).kernelSize = file.length := by
    rw [parseHeader_size (by rw [kernelHdr, length_header])]
    exact header_size _ (by omega)
  rw [parseChecksum, hsize, hexpected]

/-! ## Verification -/

theorem kernelBytes_eq (h : HoldsFile m file) : kernelBytes m file.length = file := by
  refine List.ext_getElem (by rw [kernelBytes, List.length_map, List.length_range']) ?_
  intro k hk hk'
  rw [← h k hk']
  simp [kernelBytes]

theorem kernelBytes_set {i : Nat}
    (h : ∀ k (h : k < file.length), k ≠ i → m.byte (0x10000 + k) = file[k]) :
    kernelBytes m file.length = file.set i (m.byte (0x10000 + i)) := by
  have hlen : (file.set i (m.byte (0x10000 + i))).length = file.length := List.length_set
  rw [← hlen]
  refine kernelBytes_eq fun k hk => ?_
  rw [List.getElem_set]
  split
  · rename_i hik
    rw [hik]
  · rename_i hik
    exact h k (hlen ▸ hk) (Ne.symm hik)

/-- Verification fails on a checksum that is not 0 and not the sum. -/
theorem uiChecksumVerify_fst (m : Mem) (v : ChecksumVars) :
    (uiChecksumVerify m v).1 = if v.expected = 0 then .skip
      else if kernelChecksumSum32 m v.kernelSize = v.expected then .ok else .fail := by
  rw [uiChecksumVerify]
  by_cases hzero : v.expected = 0
  · rw [if_pos hzero, if_pos hzero]
  · rw [if_neg hzero, if_neg hzero]
    by_cases hsum : kernelChecksumSum32 m v.kernelSize = v.expected
    · rw [if_neg (not_not.mpr hsum), if_pos hsum]
    · rw [if_pos hsum, if_neg hsum]

/-- **THE CHECKSUMS AGREE**, for every kernel the Makefile gives a header.  Where memory
    holds the file, the loader finds the sum of the header and boots; where that is not 0
    and memory holds the file but for one byte, it fails. -/
theorem checksums_agree (file : List Byte) (hmax : file.length ≤ 0x90000) (s : Stage2)
    (m : Mem) (hv : v = parseChecksum (readHeader (kernelHdr file) s)) :
    (HoldsFile m file → kernelChecksumSum32 m v.kernelSize = headerChecksum file
        ∧ (uiChecksumVerify m v).1.continues = true)
      ∧ (headerChecksum file ≠ 0 → Damaged m file → (uiChecksumVerify m v).1 = .fail) := by
  rw [parseChecksum_eq hmax] at hv
  subst hv
  have hsum : kernelChecksumSum32 m file.length = headerChecksum (kernelBytes m file.length) :=
    kernelChecksumSum32_eq m hmax
  rw [uiChecksumVerify_fst]
  constructor
  · intro hholds
    rw [kernelBytes_eq hholds] at hsum
    refine ⟨hsum, ?_⟩
    by_cases hzero : headerChecksum file = 0
    · rw [if_pos hzero]
      rfl
    · rw [if_neg hzero, if_pos hsum]
      rfl
  · rintro hzero ⟨i, hi, hne, hrest⟩
    rw [kernelBytes_set hrest] at hsum
    rw [if_neg hzero, if_neg]
    exact fun heq => headerChecksum_set hi hne (hsum.symm.trans heq)

/-- Memory where every byte is the low byte of its address. -/
def countingMem : Mem := ⟨fun x => BitVec.ofNat 8 x, []⟩

/-- The kernel 0, 1, 2 boots; where the last byte should be 7, the same memory fails. -/
theorem checksums_agree_three :
    (uiChecksumVerify countingMem
        (parseChecksum (readHeader (kernelHdr [0, 1, 2]) (oneByte 0)))).1.continues = true
      ∧ (uiChecksumVerify countingMem
        (parseChecksum (readHeader (kernelHdr [0, 1, 7]) (oneByte 0)))).1 = .fail := by
  have hholds : HoldsFile countingMem [0, 1, 2] := by
    unfold HoldsFile
    decide
  have hdamaged : Damaged countingMem [0, 1, 7] :=
    ⟨2, by decide, by decide, by decide⟩
  exact ⟨((checksums_agree [0, 1, 2] (by decide) (oneByte 0) countingMem rfl).1 hholds).2,
    (checksums_agree [0, 1, 7] (by decide) (oneByte 0) countingMem rfl).2 (by decide) hdamaged⟩

end PyramidBoot
