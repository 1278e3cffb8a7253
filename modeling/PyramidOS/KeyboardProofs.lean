import PyramidOS.RingProofs
import PyramidOS.RunProofs
import PyramidOS.StringProofs

/-! # The keyboard

    `keyboard.c`: the interrupt handler turns scancodes into characters and puts them
    into a ring; `keyboard_try_get_char` takes them out with interrupts enabled.  The
    reader loads and stores the indices one at a time, and the handler may run between
    any two of these accesses.

    * `keyboardHandler_ring` — a handler puts at most one character into the ring, and
      none that is 0;
    * `PcFacts` — what the reader knows between two accesses;
    * `keyboard_fifo` — over every interleaving: nothing is lost, doubled or
      overwritten, drops happen in a full ring, and 0 means an empty one. -/

namespace PyramidKeyboard

open PyramidString RingBuffer LabelledRun

/-! ## The code -/

/-- `KB_BUFFER_SIZE`. -/
abbrev kbBufferSize : Nat := 256

/-- `scancode_set1`. -/
def scancodeSet1 : List UInt8 :=
  [0, 27] ++ chars "1234567890-=" ++ [8, 9] ++ chars "qwertyuiop[]\n" ++ [0]
    ++ chars "asdfghjkl;'`" ++ [0] ++ chars "\\zxcvbnm,./" ++ [0] ++ chars "*" ++ [0] ++ chars " "

/-- `scancode_set1_shifted`. -/
def scancodeSet1Shifted : List UInt8 :=
  [0, 27] ++ chars "!@#$%^&*()_+" ++ [8, 9] ++ chars "QWERTYUIOP\x7b\x7d\n" ++ [0]
    ++ chars "ASDFGHJKL:\"~" ++ [0] ++ chars "|ZXCVBNM<>?" ++ [0] ++ chars "*" ++ [0] ++ chars " "

/-- The static variables of `keyboard.c`. -/
structure Keyboard where
  ring : RingBuf UInt8
  shiftPressed : Bool
  capsLock : Bool

/-- `keyboard_init`. -/
def keyboardInit (k : Keyboard) : Keyboard :=
  { ring := { k.ring with write := 0, read := 0 }, shiftPressed := false, capsLock := false }

/-- `buffer_write`. -/
def bufferWrite (r : RingBuf UInt8) (c : UInt8) : RingBuf UInt8 :=
  let next := (r.write + 1) % kbBufferSize
  if next ≠ r.read then { r with buf := Function.update r.buf r.write c, write := next }
  else r

/-- `ascii`, as `keyboard_handler` computes it for a scancode below 58. -/
def ascii (k : Keyboard) (scancode : UInt8) : UInt8 :=
  let useUpper := if k.shiftPressed then true else false
  let base := charAt scancodeSet1 scancode.toNat
  let useUpper := if k.capsLock ∧ base ≥ 97 ∧ base ≤ 122 then !useUpper else useUpper
  if useUpper then charAt scancodeSet1Shifted scancode.toNat
  else charAt scancodeSet1 scancode.toNat

/-- `keyboard_handler`, with the byte `inb(0x60)` gave it. -/
def keyboardHandler (k : Keyboard) (scancode : UInt8) : Keyboard :=
  if scancode = 0x2A ∨ scancode = 0x36 then { k with shiftPressed := true }
  else if scancode = 0xAA ∨ scancode = 0xB6 then { k with shiftPressed := false }
  else if scancode = 0x3A then { k with capsLock := !k.capsLock }
  else if scancode < 0x80 then
    if scancode < 58 then
      if ascii k scancode ≠ 0 then { k with ring := bufferWrite k.ring (ascii k scancode) }
      else k
    else k
  else k

/-- Both tables have an entry for every scancode below 58. -/
example : scancodeSet1.length = 58 ∧ scancodeSet1Shifted.length = 58 := by decide +kernel

/-! ### The reader, access by access -/

/-- What happened so far: the characters `buffer_write` put into the ring, how often the
    reader moved `read_ptr`, the characters it returned, and what was stored when it last
    loaded `write_ptr`. -/
structure KbLog where
  stored : List UInt8
  released : Nat
  returned : List UInt8
  checked : List UInt8

/-- Where the reader stands, with what it loaded. -/
inductive ReadPc where
  | start
  | haveRead (read : Nat)
  | haveWrite (write : Nat)
  | compare (read write : Nat)
  | index
  | load (i : Nat)
  | reload (c : UInt8)
  | store (c : UInt8) (read : Nat)
  | taken (c : UInt8)
  | empty

/-- The ring, the log, and the reader. -/
structure KbState where
  ring : RingBuf UInt8
  log : KbLog
  pc : ReadPc

/-- One access of the reader to the ring, or its branch on the comparison.  The C
    language leaves open which operand of the comparison is loaded first. -/
inductive TakeStep : KbState → KbState → Prop where
  | readFirst (r : RingBuf UInt8) (l : KbLog) :
      TakeStep ⟨r, l, .start⟩ ⟨r, l, .haveRead r.read⟩
  | writeSecond (r : RingBuf UInt8) (l : KbLog) (i : Nat) :
      TakeStep ⟨r, l, .haveRead i⟩ ⟨r, { l with checked := l.stored }, .compare i r.write⟩
  | writeFirst (r : RingBuf UInt8) (l : KbLog) :
      TakeStep ⟨r, l, .start⟩ ⟨r, { l with checked := l.stored }, .haveWrite r.write⟩
  | readSecond (r : RingBuf UInt8) (l : KbLog) (w : Nat) :
      TakeStep ⟨r, l, .haveWrite w⟩ ⟨r, l, .compare r.read w⟩
  | same (r : RingBuf UInt8) (l : KbLog) {i w : Nat} (heq : i = w) :
      TakeStep ⟨r, l, .compare i w⟩ ⟨r, l, .empty⟩
  | differ (r : RingBuf UInt8) (l : KbLog) {i w : Nat} (hne : i ≠ w) :
      TakeStep ⟨r, l, .compare i w⟩ ⟨r, l, .index⟩
  | index (r : RingBuf UInt8) (l : KbLog) :
      TakeStep ⟨r, l, .index⟩ ⟨r, l, .load r.read⟩
  | load (r : RingBuf UInt8) (l : KbLog) (i : Nat) :
      TakeStep ⟨r, l, .load i⟩ ⟨r, l, .reload (r.buf i)⟩
  | reload (r : RingBuf UInt8) (l : KbLog) (c : UInt8) :
      TakeStep ⟨r, l, .reload c⟩ ⟨r, l, .store c r.read⟩
  | store (r : RingBuf UInt8) (l : KbLog) (c : UInt8) (i : Nat) :
      TakeStep ⟨r, l, .store c i⟩ ⟨{ r with read := (i + 1) % kbBufferSize },
        { l with released := l.released + 1 }, .taken c⟩

/-- The state after the handler called `buffer_write`. -/
def KbState.afterWrite (s : KbState) (c : UInt8) : KbState :=
  { s with
    ring := bufferWrite s.ring c
    log := { s.log with stored := s.ring.log kbBufferSize s.log.stored c } }

/-- The state after the reader returned `c`. -/
def KbState.afterReturn (s : KbState) (c : UInt8) : KbState :=
  { s with log := { s.log with returned := s.log.returned ++ [c] }, pc := .start }

/-- What happens next. -/
inductive KbEvent where
  | write (c : UInt8)
  | access
  | ret (c : UInt8)

/-- `buffer_write` at any moment, or the reader goes on; `.start` is also where it
    stands between two calls of `keyboard_try_get_char`. -/
inductive KbStep : KbState → KbEvent → KbState → Prop where
  | write (s : KbState) {c : UInt8} (hc : c ≠ 0) : KbStep s (.write c) (s.afterWrite c)
  | access {s t : KbState} (h : TakeStep s t) : KbStep s .access t
  | ret {s : KbState} {c : UInt8} (h : s.pc = .taken c) : KbStep s (.ret c) (s.afterReturn c)
  | none {s : KbState} (h : s.pc = .empty) : KbStep s (.ret 0) { s with pc := .start }

/-- After `keyboard_init`, whatever the buffer holds. -/
def kbStart (k : Keyboard) : KbState := ⟨(keyboardInit k).ring, ⟨[], 0, [], []⟩, .start⟩

variable {r r' : RingBuf UInt8} {l l' : KbLog} {s t : KbState} {k : Keyboard}
  {c scancode : UInt8} {pc : ReadPc}

/-! ## The handler -/

/-- `buffer_write` is the writer of the ring. -/
theorem bufferWrite_eq (r : RingBuf UInt8) (c : UInt8) :
    bufferWrite r c = r.put kbBufferSize c := by
  rw [bufferWrite, RingBuf.put]
  by_cases hfull : r.Full kbBufferSize
  · rw [if_pos hfull]
    exact if_neg (not_not.mpr hfull)
  · rw [if_neg hfull]
    exact if_pos hfull

/-- The character a scancode puts into the ring; 0 for none. -/
def typed (k : Keyboard) (scancode : UInt8) : UInt8 :=
  if scancode = 0x2A ∨ scancode = 0x36 ∨ scancode = 0xAA ∨ scancode = 0xB6 ∨ scancode = 0x3A then 0
  else if scancode < 58 then ascii k scancode else 0

/-- What a handler does: it changes one flag, or it hands the character of a key to
    `buffer_write`. -/
theorem keyboardHandler_cases (k : Keyboard) (scancode : UInt8) :
    ((scancode = 0x2A ∨ scancode = 0x36)
        ∧ keyboardHandler k scancode = { k with shiftPressed := true })
      ∨ ((scancode = 0xAA ∨ scancode = 0xB6)
        ∧ keyboardHandler k scancode = { k with shiftPressed := false })
      ∨ (scancode = 0x3A ∧ keyboardHandler k scancode = { k with capsLock := !k.capsLock })
      ∨ (¬ (scancode = 0x2A ∨ scancode = 0x36) ∧ ¬ (scancode = 0xAA ∨ scancode = 0xB6)
        ∧ scancode ≠ 0x3A
        ∧ keyboardHandler k scancode
          = { k with
              ring := if typed k scancode = 0 then k.ring
                else bufferWrite k.ring (typed k scancode) }) := by
  by_cases hmake : scancode = 0x2A ∨ scancode = 0x36
  · exact Or.inl ⟨hmake, if_pos hmake⟩
  by_cases hbrk : scancode = 0xAA ∨ scancode = 0xB6
  · refine Or.inr (Or.inl ⟨hbrk, ?_⟩)
    rw [keyboardHandler, if_neg hmake, if_pos hbrk]
  by_cases hcaps : scancode = 0x3A
  · refine Or.inr (Or.inr (Or.inl ⟨hcaps, ?_⟩))
    rw [keyboardHandler, if_neg hmake, if_neg hbrk, if_pos hcaps]
  -- a key with a character, a key with none, or a release
  have htyped : typed k scancode = if scancode < 58 then ascii k scancode else 0 :=
    if_neg (by tauto)
  refine Or.inr (Or.inr (Or.inr ⟨hmake, hbrk, hcaps, ?_⟩))
  rw [keyboardHandler, if_neg hmake, if_neg hbrk, if_neg hcaps, htyped]
  by_cases hkey : scancode < 58
  · have hpress : scancode < 0x80 := UInt8.lt_trans hkey (by decide)
    rw [if_pos hpress, if_pos hkey, if_pos hkey]
    by_cases hzero : ascii k scancode = 0
    · rw [if_neg (not_not.mpr hzero), if_pos hzero]
    · rw [if_pos hzero, if_neg hzero]
  · rw [if_neg hkey, if_neg hkey, if_pos rfl]
    split
    · rfl
    · rfl

/-- A key that only changes a flag types nothing. -/
theorem typed_flag (h : scancode = 0x2A ∨ scancode = 0x36 ∨ scancode = 0xAA ∨ scancode = 0xB6
    ∨ scancode = 0x3A) : typed k scancode = 0 := if_pos h

/-- **THE HANDLER** calls `buffer_write` once at most, and not with 0. -/
theorem keyboardHandler_ring (k : Keyboard) (scancode : UInt8) :
    (keyboardHandler k scancode).ring
      = if typed k scancode = 0 then k.ring else bufferWrite k.ring (typed k scancode) := by
  rcases keyboardHandler_cases k scancode with
    ⟨hmake, heq⟩ | ⟨hbrk, heq⟩ | ⟨hcaps, heq⟩ | ⟨-, -, -, heq⟩
  · rw [heq, if_pos (typed_flag (by tauto))]
  · rw [heq, if_pos (typed_flag (by tauto))]
  · rw [heq, if_pos (typed_flag (by tauto))]
  · rw [heq]

/-- The Shift flag follows the make and the break codes of the two Shift keys. -/
theorem keyboardHandler_shiftPressed (k : Keyboard) (scancode : UInt8) :
    (keyboardHandler k scancode).shiftPressed
      = if scancode = 0x2A ∨ scancode = 0x36 then true
        else if scancode = 0xAA ∨ scancode = 0xB6 then false else k.shiftPressed := by
  rcases keyboardHandler_cases k scancode with
    ⟨hmake, heq⟩ | ⟨hbrk, heq⟩ | ⟨rfl, heq⟩ | ⟨hmake, hbrk, -, heq⟩
  · rw [heq, if_pos hmake]
  · rw [heq, if_neg (by rcases hbrk with rfl | rfl <;> decide), if_pos hbrk]
  · rw [heq, if_neg (by decide), if_neg (by decide)]
  · rw [heq, if_neg hmake, if_neg hbrk]

/-- Each make code of Caps Lock toggles its flag. -/
theorem keyboardHandler_capsLock (k : Keyboard) (scancode : UInt8) :
    (keyboardHandler k scancode).capsLock
      = if scancode = 0x3A then !k.capsLock else k.capsLock := by
  rcases keyboardHandler_cases k scancode with
    ⟨hmake, heq⟩ | ⟨hbrk, heq⟩ | ⟨hcaps, heq⟩ | ⟨-, -, hcaps, heq⟩
  · rw [heq, if_neg (by rcases hmake with rfl | rfl <;> decide)]
  · rw [heq, if_neg (by rcases hbrk with rfl | rfl <;> decide)]
  · rw [heq, if_pos hcaps]
  · rw [heq, if_neg hcaps]

/-! ## What the reader knows -/

/-- The write index the reader loaded is the one of the moment it looked; everything
    released before was stored by then. -/
structure Checked (l : KbLog) (w : Nat) : Prop where
  index : w = l.checked.length % kbBufferSize
  released : l.released ≤ l.checked.length
  before : l.checked <+: l.stored

/-- **BETWEEN TWO ACCESSES**: what the values the reader holds mean.  Until it moves the
    read index it has returned exactly what was released. -/
def PcFacts (r : RingBuf UInt8) (l : KbLog) : ReadPc → Prop
  | .start => l.returned = l.stored.take l.released
  | .haveRead i => l.returned = l.stored.take l.released ∧ i = r.read
  | .haveWrite w => l.returned = l.stored.take l.released ∧ Checked l w
  | .compare i w => l.returned = l.stored.take l.released ∧ i = r.read ∧ Checked l w
  | .index => l.returned = l.stored.take l.released ∧ l.released < l.stored.length
  | .load i =>
      l.returned = l.stored.take l.released ∧ l.released < l.stored.length ∧ i = r.read
  | .reload c => l.returned = l.stored.take l.released ∧ l.stored[l.released]? = some c
  | .store c i =>
      l.returned = l.stored.take l.released ∧ l.stored[l.released]? = some c ∧ i = r.read
  | .taken c => l.returned ++ [c] = l.stored.take l.released
  | .empty => l.returned = l.stored.take l.released ∧ l.checked = l.returned

/-- **THE INVARIANT** of the keyboard ring. -/
structure KbInv (s : KbState) : Prop where
  holds : Holds kbBufferSize s.ring s.log.stored s.log.released
  nonzero : ∀ c ∈ s.log.stored, c ≠ 0
  pc : PcFacts s.ring s.log s.pc

theorem KbInv.pcFacts (h : KbInv s) (hpc : s.pc = pc) : PcFacts s.ring s.log pc := hpc ▸ h.pc

/-- The start satisfies it. -/
theorem kbStart_inv (k : Keyboard) : KbInv (kbStart k) :=
  ⟨Holds.empty (by decide) k.ring.buf, fun _ hc => (nomatch hc), rfl⟩

/-- More characters in the ring change nothing the reader knows. -/
theorem PcFacts.mono (h : PcFacts r l pc) (hread : r'.read = r.read)
    (hle : l.released ≤ l.stored.length) {stored : List UInt8} (hpre : l.stored <+: stored) :
    PcFacts r' { l with stored := stored } pc := by
  obtain ⟨rest, rfl⟩ := hpre
  have htake : (l.stored ++ rest).take l.released = l.stored.take l.released :=
    List.take_append_of_le_length hle
  have hget : ∀ {c}, l.stored[l.released]? = some c → (l.stored ++ rest)[l.released]? = some c := by
    intro c hc
    rw [List.getElem?_append_left (List.getElem?_eq_some_iff.mp hc).1]
    exact hc
  have hlt : l.released < l.stored.length → l.released < (l.stored ++ rest).length := by
    intro h
    rw [List.length_append]
    omega
  have hchecked : ∀ {w}, Checked l w → Checked { l with stored := l.stored ++ rest } w :=
    fun h => ⟨h.index, h.released, h.before.trans (List.prefix_append _ _)⟩
  cases pc with
  | start => exact h.trans htake.symm
  | haveRead i => exact ⟨h.1.trans htake.symm, h.2.trans hread.symm⟩
  | haveWrite w => exact ⟨h.1.trans htake.symm, hchecked h.2⟩
  | compare i w => exact ⟨h.1.trans htake.symm, h.2.1.trans hread.symm, hchecked h.2.2⟩
  | index => exact ⟨h.1.trans htake.symm, hlt h.2⟩
  | load i => exact ⟨h.1.trans htake.symm, hlt h.2.1, h.2.2.trans hread.symm⟩
  | reload c => exact ⟨h.1.trans htake.symm, hget h.2⟩
  | store c i => exact ⟨h.1.trans htake.symm, hget h.2.1, h.2.2.trans hread.symm⟩
  | taken c => exact h.trans htake.symm
  | empty => exact ⟨h.1.trans htake.symm, h.2⟩

/-- The writer does not move the read index. -/
theorem bufferWrite_read (r : RingBuf UInt8) (c : UInt8) : (bufferWrite r c).read = r.read := by
  rw [bufferWrite]
  split
  · rfl
  · rfl

/-- **THE HANDLER'S STEP** keeps the invariant. -/
theorem KbInv.afterWrite (h : KbInv s) (hc : c ≠ 0) : KbInv (s.afterWrite c) := by
  constructor
  · show Holds kbBufferSize (bufferWrite s.ring c) _ _
    rw [bufferWrite_eq]
    exact h.holds.put c
  · intro d hd
    have hd' : d ∈ s.ring.log kbBufferSize s.log.stored c := hd
    rw [RingBuf.log] at hd'
    split at hd'
    · exact h.nonzero d hd'
    · rcases List.mem_append.mp hd' with hold | hnew
      · exact h.nonzero d hold
      · rw [List.mem_singleton.mp hnew]
        exact hc
  · exact h.pc.mono (bufferWrite_read s.ring c) h.holds.le (stored_mono ..)

/-- The write index loaded now. -/
theorem Holds.checked (h : Holds kbBufferSize r l.stored l.released) :
    Checked { l with checked := l.stored } r.write :=
  ⟨h.write, h.le, List.prefix_refl _⟩

/-- **ONE ACCESS** keeps the invariant. -/
theorem KbInv.access (h : KbInv s) (hst : TakeStep s t) : KbInv t := by
  obtain ⟨hholds, hnonzero, hpc⟩ := h
  cases hst with
  | readFirst r l => exact ⟨hholds, hnonzero, hpc, rfl⟩
  | writeSecond r l i => exact ⟨hholds, hnonzero, hpc.1, hpc.2, Holds.checked hholds⟩
  | writeFirst r l => exact ⟨hholds, hnonzero, hpc, Holds.checked hholds⟩
  | readSecond r l w => exact ⟨hholds, hnonzero, hpc.1, rfl, hpc.2⟩
  | @same r l i w heq =>
      obtain ⟨hret, hread, hchecked⟩ : PcFacts r l (.compare i w) := hpc
      refine ⟨hholds, hnonzero, hret, ?_⟩
      -- equal indices: what was stored at the check is what was released
      have hmod : l.released % kbBufferSize = l.checked.length % kbBufferSize := by
        rw [← hholds.read, ← hread, heq, hchecked.index]
      have hle := hchecked.before.length_le
      have hroom : l.stored.length < l.released + kbBufferSize := hholds.room
      have hlen := eq_of_mod_eq hchecked.released (by omega) hmod
      rw [hret, hlen]
      exact List.prefix_iff_eq_take.mp hchecked.before
  | @differ r l i w hne =>
      obtain ⟨hret, hread, hchecked⟩ : PcFacts r l (.compare i w) := hpc
      refine ⟨hholds, hnonzero, hret, ?_⟩
      have hle := hchecked.before.length_le
      have hlt : l.released ≠ l.checked.length := by
        intro heq
        apply hne
        rw [hread, hchecked.index, hholds.read, heq]
      have hbefore := hchecked.released
      show l.released < l.stored.length
      omega
  | index r l => exact ⟨hholds, hnonzero, hpc.1, hpc.2, rfl⟩
  | load r l i =>
      obtain ⟨hret, hlt, hread⟩ := hpc
      refine ⟨hholds, hnonzero, hret, ?_⟩
      rw [hread]
      exact hholds.next hlt
  | reload r l c => exact ⟨hholds, hnonzero, hpc.1, hpc.2, rfl⟩
  | store r l c i =>
      obtain ⟨hret, hget, hread⟩ : PcFacts r l (.store c i) := hpc
      obtain ⟨hlt, hc⟩ := List.getElem?_eq_some_iff.mp hget
      subst hread
      refine ⟨hholds.release hlt, hnonzero, ?_⟩
      show l.returned ++ [c] = l.stored.take (l.released + 1)
      rw [hret, ← hc]
      exact (List.take_succ_eq_append_getElem hlt).symm

/-- The return of a character keeps it. -/
theorem KbInv.afterReturn (h : KbInv s) (hpc : s.pc = .taken c) : KbInv (s.afterReturn c) := by
  exact ⟨h.holds, h.nonzero, h.pcFacts hpc⟩

/-- And the return of 0. -/
theorem KbInv.afterNone (h : KbInv s) (hpc : s.pc = .empty) : KbInv { s with pc := .start } := by
  have hfacts := h.pcFacts hpc
  exact ⟨h.holds, h.nonzero, hfacts.1⟩

/-- **ONE STEP** of the handler or of the reader. -/
theorem KbInv.step {e : KbEvent} (h : KbInv s) (hst : KbStep s e t) : KbInv t := by
  cases hst with
  | write hc => exact h.afterWrite hc
  | access htake => exact h.access htake
  | ret hpc => exact h.afterReturn hpc
  | none hpc => exact h.afterNone hpc

theorem kbInv_run {es : List KbEvent} (hrun : Run KbStep (kbStart k) es s) : KbInv s :=
  hrun.invariant (kbStart_inv k) fun _ _ _ hI hst => hI.step hst

/-! ## A lossless FIFO -/

/-- What was returned is the beginning of what was stored, at every moment. -/
theorem KbInv.fifo (h : KbInv s) : s.log.returned <+: s.log.stored := by
  obtain ⟨r, l, pc⟩ := s
  have htake : l.returned = l.stored.take l.released → l.returned <+: l.stored := by
    intro heq
    rw [heq]
    exact List.take_prefix ..
  have hpc : PcFacts r l pc := h.pc
  cases pc with
  | start => exact htake hpc
  | haveRead i => exact htake hpc.1
  | haveWrite w => exact htake hpc.1
  | compare i w => exact htake hpc.1
  | index => exact htake hpc.1
  | load i => exact htake hpc.1
  | reload c => exact htake hpc.1
  | store c i => exact htake hpc.1
  | taken c =>
      have hmore : l.returned ++ [c] <+: l.stored := by
        rw [show l.returned ++ [c] = l.stored.take l.released from hpc]
        exact List.take_prefix ..
      exact (List.prefix_append l.returned [c]).trans hmore
  | empty => exact htake hpc.1

/-- A character about to be returned is the oldest one not returned, and not 0. -/
theorem KbInv.taken (h : KbInv s) (hpc : s.pc = .taken c) :
    s.log.returned ++ [c] <+: s.log.stored ∧ c ≠ 0 := by
  have hfacts := h.pcFacts hpc
  have hpre : s.log.returned ++ [c] <+: s.log.stored := by
    rw [show s.log.returned ++ [c] = s.log.stored.take s.log.released from hfacts]
    exact List.take_prefix ..
  exact ⟨hpre, h.nonzero c (hpre.subset (by simp))⟩

/-- A lossless FIFO: order, no slot that waits overwritten, drops in a full ring only,
    and 0 only after the ring was seen empty. -/
structure KbSafe (s : KbState) : Prop where
  fifo : s.log.returned <+: s.log.stored
  kept : ∀ i c, s.log.released ≤ i → s.log.stored[i]? = some c →
    s.ring.buf (i % kbBufferSize) = c
  fresh : ∀ c, bufferWrite s.ring c ≠ s.ring → ∀ i, s.log.released ≤ i →
    i < s.log.stored.length → i % kbBufferSize ≠ s.ring.write
  dropped : ∀ c, s.ring.log kbBufferSize s.log.stored c = s.log.stored →
    s.log.stored.length = s.log.released + 255
  zero : ∀ t, KbStep s (.ret 0) t → s.log.returned = s.log.checked ∧ t.log = s.log
  char : ∀ c t, KbStep s (.ret c) t → c ≠ 0 →
    t.log.returned = s.log.returned ++ [c] ∧ t.log.returned <+: s.log.stored

/-- **THE KEYBOARD BUFFER IS A LOSSLESS FIFO** in every interleaving of the handler with
    the accesses of the reader. -/
theorem keyboard_fifo (k : Keyboard) (es : List KbEvent)
    (hrun : Run KbStep (kbStart k) es s) : KbSafe s := by
  have h := kbInv_run hrun
  constructor
  · exact h.fifo
  · exact h.holds.slots
  · intro c hne i hi hlt
    refine h.holds.write_fresh (fun hfull => hne ?_) hi hlt
    rw [bufferWrite_eq]
    exact if_pos hfull
  · intro c hlog
    have hfull : s.ring.Full kbBufferSize := by
      by_contra hnot
      rw [RingBuf.log, if_neg hnot] at hlog
      exact absurd (congrArg List.length hlog) (by simp)
    have hlen : s.log.stored.length + 1 = s.log.released + 256 := h.holds.full_iff.mp hfull
    omega
  · intro t hst
    cases hst with
    | ret hpc => exact absurd rfl (h.taken hpc).2
    | none hpc =>
        have hfacts := h.pcFacts hpc
        exact ⟨hfacts.2.symm, rfl⟩
  · intro c t hst hc
    cases hst with
    | ret hpc => exact ⟨rfl, (h.taken hpc).1⟩
    | none hpc => exact absurd rfl hc

/-- `a` is stored, then `b` while the reader compares the indices: it returns `a`. -/
theorem keyboard_fifo_interrupted :
    ∃ s es, Run KbStep (kbStart ⟨⟨fun _ => 0, 0, 0⟩, false, false⟩) es s
      ∧ s.log.stored = [97, 98] ∧ s.log.returned = [97] ∧ KbSafe s := by
  have h1 : Run KbStep (kbStart ⟨⟨fun _ => 0, 0, 0⟩, false, false⟩) [.write 97] _ :=
    .single (.write _ (by decide))
  have h2 := h1.snoc .access (.access (.readFirst _ _))
  have h3 := h2.snoc (.write 98) (.write _ (by decide))
  have h4 := h3.snoc .access (.access (.writeSecond _ _ _))
  have h5 := h4.snoc .access (.access (.differ _ _ (by decide)))
  have h6 := h5.snoc .access (.access (.index _ _))
  have h7 := h6.snoc .access (.access (.load _ _ _))
  have h8 := h7.snoc .access (.access (.reload _ _ _))
  have h9 := h8.snoc .access (.access (.store _ _ _ _))
  have hrun := h9.snoc (.ret 97) (.ret rfl)
  exact ⟨_, _, hrun, by decide, by decide, keyboard_fifo _ _ hrun⟩

end PyramidKeyboard
