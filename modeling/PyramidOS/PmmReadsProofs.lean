import PyramidOS.PmmScanProofs

/-! # What the word scan reads

    `pmm_bitmap_word` assembles the last word of the bitmap from fewer than four bytes.
    Here the scan runs once more with a log of the bitmap bytes it reads.

    * `Logs` — a computation adds events of one kind to its log, with its rules for
      `pure` and `bind`;
    * `pmmFindFreeInRangeLog_logs` — the scan reads below `bitmap_size` only;
    * `pmm_word_scan_exact` — for every bitmap and range it returns the least free frame,
      and -1 exactly when there is none, from such reads. -/

namespace PyramidPmm

open ByteMem WordBitmap PyramidKernel

/-! ## Logs -/

section Logs

variable {ε α β : Type} {P : ε → Prop} {m m' : StateM (List ε) α} {v v' : α}

/-- `m` returns `v`, and adds to the log events that satisfy `P`. -/
def Logs (P : ε → Prop) (m : StateM (List ε) α) (v : α) : Prop :=
  ∀ log, ∃ new, m.run log = (v, log ++ new) ∧ ∀ e ∈ new, P e

theorem Logs.pure (P : ε → Prop) (v : α) : Logs P (pure v) v := fun log =>
  ⟨[], by rw [List.append_nil]; rfl, fun _ he => absurd he List.not_mem_nil⟩

/-- Two computations, one after the other. -/
theorem Logs.bind {f : α → StateM (List ε) β} {w : β} (hm : Logs P m v) (hf : Logs P (f v) w) :
    Logs P (m >>= f) w := by
  intro log
  obtain ⟨new, hrun, hnew⟩ := hm log
  obtain ⟨new', hrun', hnew'⟩ := hf (log ++ new)
  refine ⟨new ++ new', ?_, fun e he => ?_⟩
  · rw [StateT.run_bind, hrun, ← List.append_assoc]
    exact hrun'
  · rcases List.mem_append.mp he with hold | hlast
    · exact hnew e hold
    · exact hnew' e hlast

theorem Logs.ite {c : Prop} [Decidable c] (h : Logs P m v) (h' : Logs P m' v') :
    Logs P (if c then m else m') (if c then v else v') := by
  by_cases hc : c
  · rw [if_pos hc, if_pos hc]
    exact h
  · rw [if_neg hc, if_neg hc]
    exact h'

end Logs

/-! ## The scan with a log -/

/-- `bitmap[i]`. -/
def bitmapLog (p : Pmm) (i : Nat) : StateM (List Nat) Byte := do
  modify (· ++ [i])
  return p.mem.byte (pmmBitmapBase + i)

/-- One turn of the loop of `pmm_bitmap_word`. -/
def pmmBitmapWordByteLog (p : Pmm) (byteIndex : Nat) : StateM (List Nat) Byte :=
  if byteIndex < p.bitmapSize then bitmapLog p byteIndex else return 0xFF#8

/-- `pmm_bitmap_word`. -/
def pmmBitmapWordLog (p : Pmm) (wordIndex : Nat) : StateM (List Nat) (BitVec 32) := do
  let byteIndex := wordIndex * 4
  let b0 ← pmmBitmapWordByteLog p byteIndex
  let b1 ← pmmBitmapWordByteLog p (byteIndex + 1)
  let b2 ← pmmBitmapWordByteLog p (byteIndex + 2)
  let b3 ← pmmBitmapWordByteLog p (byteIndex + 3)
  return b3 ++ b2 ++ b1 ++ b0

/-- `mask`, as the loop of `pmm_find_free_in_range` computes it for a word. -/
def pmmMask (startFrame endFrame wordIndex : Nat) : BitVec 32 :=
  let mask := pmmWordFull
  let startBit := startFrame % pmmWordBits
  let mask := if wordIndex = startFrame / pmmWordBits ∧ startBit ≠ 0
    then mask &&& pmmWordFull <<< startBit else mask
  let endBit := (endFrame - 1) % pmmWordBits
  if wordIndex = (endFrame - 1) / pmmWordBits ∧ endBit ≠ pmmWordBits - 1
    then mask &&& (1#32 <<< (endBit + 1) - 1#32) else mask

/-- The loop of `pmm_find_free_in_range`. -/
def pmmScanWordsLog (p : Pmm) (startFrame endFrame : Nat) : Nat → Nat → StateM (List Nat) Int
  | _, 0 => return -1
  | wordIndex, words + 1 => do
      let word ← pmmBitmapWordLog p wordIndex
      let candidates := ~~~word &&& pmmMask startFrame endFrame wordIndex
      if candidates ≠ 0#32 then
        let bit := pmmFindFirstSetBit candidates
        if bit ≥ 0 then return i32 (u32 (wordIndex * pmmWordBits + castU32 bit))
        else pmmScanWordsLog p startFrame endFrame (wordIndex + 1) words
      else pmmScanWordsLog p startFrame endFrame (wordIndex + 1) words

/-- `pmm_find_free_in_range`. -/
def pmmFindFreeInRangeLog (p : Pmm) (startFrame endFrame : Nat) : StateM (List Nat) Int :=
  if startFrame ≥ endFrame then return -1
  else
    let startWord := startFrame / pmmWordBits
    let endWord := (endFrame - 1) / pmmWordBits
    pmmScanWordsLog p startFrame endFrame startWord (endWord + 1 - startWord)

variable {p : Pmm} {s e : Nat}

/-! ## The reads -/

theorem bitmapLog_logs {P : Nat → Prop} (p : Pmm) {i : Nat} (hi : P i) :
    Logs P (bitmapLog p i) (p.mem.byte (pmmBitmapBase + i)) := fun _ =>
  ⟨[i], rfl, fun _ he => List.mem_singleton.mp he ▸ hi⟩

/-- **BYTES BEHIND THE BITMAP** are not read. -/
theorem pmmBitmapWordByteLog_logs (p : Pmm) (i : Nat) :
    Logs (· < p.bitmapSize) (pmmBitmapWordByteLog p i) (pmmBitmapWordByte p i) := by
  rw [pmmBitmapWordByteLog, pmmBitmapWordByte]
  by_cases hi : i < p.bitmapSize
  · rw [if_pos hi, if_pos hi]
    exact bitmapLog_logs p hi
  · rw [if_neg hi, if_neg hi]
    exact .pure _ _

theorem pmmBitmapWordLog_logs (p : Pmm) (w : Nat) :
    Logs (· < p.bitmapSize) (pmmBitmapWordLog p w) (pmmBitmapWord p w) :=
  (pmmBitmapWordByteLog_logs p _).bind <| (pmmBitmapWordByteLog_logs p _).bind <|
    (pmmBitmapWordByteLog_logs p _).bind <| (pmmBitmapWordByteLog_logs p _).bind <| .pure _ _

/-- **THE WORD LOOP**, by induction on the words left. -/
theorem pmmScanWordsLog_logs (p : Pmm) (s e words w : Nat) :
    Logs (· < p.bitmapSize) (pmmScanWordsLog p s e w words) (pmmScanWords p s e w words) := by
  induction words generalizing w with
  | zero => exact .pure _ _
  | succ n ih =>
    have hcandidates : pmmCandidates p s e w = ~~~(pmmBitmapWord p w) &&& pmmMask s e w := rfl
    rw [pmmScanWords, hcandidates]
    exact (pmmBitmapWordLog_logs p w).bind (.ite (.ite (.pure _ _) (ih (w + 1))) (ih (w + 1)))

/-- **THE SCAN** reads below `bitmap_size` only. -/
theorem pmmFindFreeInRangeLog_logs (p : Pmm) (s e : Nat) :
    Logs (· < p.bitmapSize) (pmmFindFreeInRangeLog p s e) (pmmFindFreeInRange p s e) :=
  .ite (.pure _ _) (pmmScanWordsLog_logs p s e _ _)

/-! ## The result -/

/-- What the scan of a range returns: the least free frame as a number, or -1. -/
theorem pmmFindFreeInRange_cases (htotal : p.totalBlocks < 2 ^ 31)
    (hsize : p.bitmapSize = (p.totalBlocks + 7) / 8) (hend : e ≤ p.totalBlocks) :
    (∃ f : Nat, IsLeast (clearIn p.bit s e) f ∧ pmmFindFreeInRange p s e = f)
      ∨ clearIn p.bit s e = ∅ ∧ pmmFindFreeInRange p s e = -1 := by
  refine (pmmFindFreeInRange_spec (by omega) (by omega)).imp_left ?_
  rintro ⟨f, hleast, hvalue⟩
  have hlt : f < e := hleast.1.2.1
  exact ⟨f, hleast, hvalue.trans (i32_of_lt (by omega))⟩

/-- **THE WORD SCAN IS THE BIT SCAN**, for every bitmap and every range of its frames: it
    returns the least frame of the range whose bit is clear, and -1 if and only if there is
    none; and every bitmap byte it reads has an index below `bitmap_size`. -/
theorem pmm_word_scan_exact (p : Pmm) (s e : Nat) (htotal : p.totalBlocks < 2 ^ 31)
    (hsize : p.bitmapSize = (p.totalBlocks + 7) / 8) (hend : e ≤ p.totalBlocks) :
    ∃ ret reads, (pmmFindFreeInRangeLog p s e).run [] = (ret, reads)
      ∧ ret = pmmFindFreeInRange p s e
      ∧ (∀ f : Nat, ret = f ↔ IsLeast {f | s ≤ f ∧ f < e ∧ p.bit f = false} f)
      ∧ (ret = -1 ↔ ∀ f, s ≤ f → f < e → p.bit f = true)
      ∧ ∀ i ∈ reads, i < p.bitmapSize := by
  obtain ⟨reads, hrun, hreads⟩ := pmmFindFreeInRangeLog_logs p s e []
  refine ⟨_, reads, hrun, rfl, ?_, ?_, hreads⟩
  · intro f
    rcases pmmFindFreeInRange_cases (s := s) htotal hsize hend with
      ⟨g, hleast, hvalue⟩ | ⟨hempty, hvalue⟩
    · rw [hvalue, Int.natCast_inj]
      exact ⟨fun h => h ▸ hleast, fun h => hleast.unique h⟩
    · rw [hvalue]
      refine iff_of_false (by omega) fun h => ?_
      have hmem : f ∈ clearIn p.bit s e := h.1
      rw [hempty] at hmem
      exact hmem
  · rcases pmmFindFreeInRange_cases (s := s) htotal hsize hend with
      ⟨g, hleast, hvalue⟩ | ⟨hempty, hvalue⟩
    · rw [hvalue]
      refine iff_of_false (by omega) fun h => ?_
      obtain ⟨hlo, hhi, hclear⟩ := hleast.1
      rw [h g hlo hhi] at hclear
      cases hclear
    · refine iff_of_true hvalue fun f hlo hhi => ?_
      have hnot : f ∉ clearIn p.bit s e := hempty ▸ Set.notMem_empty f
      exact Bool.of_not_eq_false fun hclear => hnot ⟨hlo, hhi, hclear⟩

/-- A bitmap of 33 frames in five bytes, all used but for the last frame. -/
def lastFrameFree : Pmm :=
  ⟨⟨fun a => if a = pmmBitmapBase + 4 then 0xFE else 0xFF, []⟩, 33, 32, 5, 0, 0⟩

theorem pmm_word_scan_exact_last :
    ∃ ret reads, (pmmFindFreeInRangeLog lastFrameFree 7 33).run [] = (ret, reads)
      ∧ ret = pmmFindFreeInRange lastFrameFree 7 33
      ∧ (∀ f : Nat, ret = f ↔ IsLeast {f | 7 ≤ f ∧ f < 33 ∧ lastFrameFree.bit f = false} f)
      ∧ (ret = -1 ↔ ∀ f, 7 ≤ f → f < 33 → lastFrameFree.bit f = true)
      ∧ ∀ i ∈ reads, i < lastFrameFree.bitmapSize :=
  pmm_word_scan_exact lastFrameFree 7 33 (by decide) (by decide) (by decide)

/-- It returns frame 32 and reads the five bytes. -/
example : Id.run ((pmmFindFreeInRangeLog lastFrameFree 7 33).run []) = (32, [0, 1, 2, 3, 4]) := by
  decide +kernel

end PyramidPmm
