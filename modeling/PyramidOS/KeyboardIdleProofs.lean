import PyramidOS.KeyboardProofs

/-! # Waiting for a key

    `keyboard_get_char` with the processor around it: the interrupt flag, the one
    instruction after `sti` in which no interrupt is taken, `hlt`, and the interrupts
    that wait.  The loop looks at the ring with interrupts off and halts with the `sti`
    right before the `hlt`.

    * `GetInv` — what holds at each place of the loop;
    * `keyboard_no_missed_wakeup` — in every interleaving: a halted processor faces an
      empty ring and takes the next interrupt, and what is returned is the oldest
      character that was not. -/

namespace PyramidKeyboard

open PyramidString RingBuffer LabelledRun

/-- The interrupts that arrive. -/
inductive Irq where
  | timer
  | keyboard
deriving DecidableEq

/-- Where the processor stands: outside, or in `keyboard_get_char` at the top of the loop,
    between the `cli` and the end of the look at the ring, after the `sti` before the
    `return`, or between the `sti` and the `hlt` of `cpu_idle`. -/
inductive GetPc where
  | outside
  | top
  | look
  | ret
  | hlt

/-- The processor, the keyboard, and the place in the loop.  `shadow` is set for the one
    instruction after an `sti` that turned the interrupts on. -/
structure Machine where
  reader : KbState
  shiftPressed : Bool
  capsLock : Bool
  interruptFlag : Bool
  shadow : Bool
  halted : Bool
  pending : Irq → Bool
  pc : GetPc

/-- The static variables of `keyboard.c`. -/
def Machine.keyboard (m : Machine) : Keyboard := ⟨m.reader.ring, m.shiftPressed, m.capsLock⟩

/-- What a handler does to the keyboard; the timer's leaves it alone. -/
def Machine.handled (m : Machine) (scancode : UInt8) : Irq → Machine
  | .timer => m
  | .keyboard =>
      let k := keyboardHandler m.keyboard scancode
      let c := typed m.keyboard scancode
      let stored := if c = 0 then m.reader.log.stored
        else m.reader.ring.log kbBufferSize m.reader.log.stored c
      { m with
        reader := { m.reader with
          ring := k.ring
          log := { m.reader.log with stored := stored } }
        shiftPressed := k.shiftPressed
        capsLock := k.capsLock }

/-- `cli`. -/
def Machine.cli (m : Machine) : Machine := { m with interruptFlag := false, shadow := false }

/-- `sti`. -/
def Machine.sti (m : Machine) : Machine :=
  { m with interruptFlag := true, shadow := !m.interruptFlag }

/-- What happens next. -/
inductive CpuEvent where
  | arrive (i : Irq)
  | interrupt (i : Irq) (scancode : UInt8)
  | instruction
  | ret (c : UInt8)

/-- An interrupt arrives, one that waits is taken, or the next instruction is executed.
    Handlers run to their end; the other code of the kernel may leave the flags as it
    likes. -/
inductive CpuStep : Machine → CpuEvent → Machine → Prop where
  | arrive (m : Machine) (i : Irq) :
      CpuStep m (.arrive i) { m with pending := Function.update m.pending i true }
  | interrupt {m : Machine} {i : Irq} (scancode : UInt8) (hpending : m.pending i = true)
      (hflag : m.interruptFlag = true) (hshadow : m.shadow = false) :
      CpuStep m (.interrupt i scancode) { m.handled scancode i with
        pending := Function.update m.pending i false
        halted := false }
  | other {m : Machine} (hpc : m.pc = .outside) (flag shadow : Bool) :
      CpuStep m .instruction { m with interruptFlag := flag, shadow := shadow }
  | call {m : Machine} (hpc : m.pc = .outside) :
      CpuStep m .instruction { m with pc := .top, shadow := false }
  | cli {m : Machine} (hpc : m.pc = .top) (hrun : m.halted = false) :
      CpuStep m .instruction { m.cli with pc := .look }
  | look {m : Machine} {t : KbState} (hpc : m.pc = .look) (htake : TakeStep m.reader t) :
      CpuStep m .instruction { m with reader := t, shadow := false }
  | sti {m : Machine} {c : UInt8} (hpc : m.pc = .look) (htaken : m.reader.pc = .taken c) :
      CpuStep m .instruction { m.sti with pc := .ret }
  | ret {m : Machine} {c : UInt8} (hpc : m.pc = .ret) (htaken : m.reader.pc = .taken c) :
      CpuStep m (.ret c)
        { m with reader := m.reader.afterReturn c, shadow := false, pc := .outside }
  | idleSti {m : Machine} (hpc : m.pc = .look) (hempty : m.reader.pc = .empty) :
      CpuStep m .instruction { m.sti with pc := .hlt }
  | hlt {m : Machine} (hpc : m.pc = .hlt) :
      CpuStep m .instruction { m with
        reader := { m.reader with pc := .start }
        shadow := false
        halted := true
        pc := .top }

/-- After `keyboard_init`, outside, with any flags and anything pending. -/
def machineStart (k : Keyboard) (flag shadow : Bool) (pending : Irq → Bool) : Machine :=
  { reader := kbStart k, shiftPressed := false, capsLock := false, interruptFlag := flag
    shadow := shadow, halted := false, pending := pending, pc := .outside }

variable {m n : Machine} {k : Keyboard} {s t : KbState} {c : UInt8} {i : Irq}

/-! ## The invariant -/

/-- While the interrupts are off, the write index the reader loaded is still the one in
    the ring. -/
def Frozen (s : KbState) : Prop :=
  match s.pc with
  | .haveWrite _ => s.log.checked = s.log.stored
  | .compare _ _ => s.log.checked = s.log.stored
  | .empty => s.log.checked = s.log.stored
  | _ => True

/-- What holds at each place of the loop. -/
def GetFacts (m : Machine) : GetPc → Prop
  | .outside => m.reader.pc = .start ∧ m.halted = false
  | .top => m.reader.pc = .start ∧ (m.halted = true → m.interruptFlag = true
      ∧ m.shadow = false ∧ m.reader.log.returned = m.reader.log.stored)
  | .look => m.interruptFlag = false ∧ Frozen m.reader ∧ m.halted = false
  | .ret => (∃ c, m.reader.pc = .taken c) ∧ m.halted = false
  | .hlt => m.reader.pc = .empty ∧ m.interruptFlag = true ∧ m.shadow = true
      ∧ m.reader.log.checked = m.reader.log.stored ∧ m.halted = false

/-- **THE INVARIANT** of the machine. -/
structure GetInv (m : Machine) : Prop where
  kb : KbInv m.reader
  facts : GetFacts m m.pc

/-- The start satisfies it. -/
theorem machineStart_inv (k : Keyboard) (flag shadow : Bool) (pending : Irq → Bool) :
    GetInv (machineStart k flag shadow pending) :=
  ⟨kbStart_inv k, rfl, rfl⟩

/-- Without the handler, the reader's look stays current. -/
theorem Frozen.step (h : Frozen s) (hst : TakeStep s t) : Frozen t := by
  cases hst with
  | readFirst r l => trivial
  | writeSecond r l i => rfl
  | writeFirst r l => rfl
  | readSecond r l w => exact h
  | same r l heq => exact h
  | differ r l hne => trivial
  | index r l => trivial
  | load r l i => trivial
  | reload r l c => trivial
  | store r l c i => trivial

/-- A handler keeps what the keyboard ring satisfies. -/
theorem KbInv.handled (h : KbInv m.reader) (scancode : UInt8) (i : Irq) :
    KbInv (m.handled scancode i).reader := by
  cases i with
  | timer => exact h
  | keyboard =>
      rw [Machine.handled]
      simp only [keyboardHandler_ring]
      by_cases hc : typed m.keyboard scancode = 0
      · simp only [if_pos hc]
        exact h
      · simp only [if_neg hc]
        exact h.afterWrite hc

/-- A handler leaves the place of the reader alone. -/
theorem handled_reader_pc (m : Machine) (scancode : UInt8) (i : Irq) :
    (m.handled scancode i).reader.pc = m.reader.pc := by
  cases i with
  | timer => rfl
  | keyboard => rfl

/-- And the place in the loop. -/
theorem handled_pc (m : Machine) (scancode : UInt8) (i : Irq) :
    (m.handled scancode i).pc = m.pc := by
  cases i with
  | timer => rfl
  | keyboard => rfl

/-- **AN INTERRUPT IS TAKEN** only where the loop can bear it, and it wakes the
    processor up. -/
theorem GetInv.interrupt (h : GetInv m) (scancode : UInt8) (pending : Irq → Bool)
    (hflag : m.interruptFlag = true) (hshadow : m.shadow = false) :
    GetInv { m.handled scancode i with pending := pending, halted := false } := by
  have hfacts := h.facts
  refine ⟨h.kb.handled scancode i, ?_⟩
  show GetFacts _ (m.handled scancode i).pc
  rw [handled_pc]
  have hreader := handled_reader_pc m scancode i
  cases hpc : m.pc with
  | outside =>
      rw [hpc] at hfacts
      exact ⟨hreader.trans hfacts.1, rfl⟩
  | top =>
      rw [hpc] at hfacts
      exact ⟨hreader.trans hfacts.1, fun hc => nomatch hc⟩
  | look =>
      rw [hpc] at hfacts
      exact absurd (hfacts.1.symm.trans hflag) Bool.false_ne_true
  | ret =>
      rw [hpc] at hfacts
      obtain ⟨⟨c, hc⟩, -⟩ := hfacts
      exact ⟨⟨c, hreader.trans hc⟩, rfl⟩
  | hlt =>
      rw [hpc] at hfacts
      obtain ⟨-, -, hon, -⟩ := hfacts
      exact absurd (hshadow.symm.trans hon) Bool.false_ne_true

/-- **ONE STEP** keeps the invariant. -/
theorem GetInv.step {e : CpuEvent} (h : GetInv m) (hst : CpuStep m e n) : GetInv n := by
  have hfacts := h.facts
  cases hst with
  | arrive i => exact ⟨h.kb, hfacts⟩
  | interrupt scancode hpending hflag hshadow => exact h.interrupt scancode _ hflag hshadow
  | other hpc flag shadow =>
      rw [hpc] at hfacts
      refine ⟨h.kb, ?_⟩
      show GetFacts _ m.pc
      rw [hpc]
      exact hfacts
  | call hpc =>
      rw [hpc] at hfacts
      refine ⟨h.kb, hfacts.1, fun hc => ?_⟩
      exact absurd (hfacts.2.symm.trans hc) Bool.false_ne_true
  | cli hpc hrun =>
      rw [hpc] at hfacts
      refine ⟨h.kb, rfl, ?_, hrun⟩
      show Frozen m.reader
      rw [Frozen, hfacts.1]
      trivial
  | look hpc htake =>
      rw [hpc] at hfacts
      obtain ⟨hoff, hfrozen, hrun⟩ := hfacts
      refine ⟨h.kb.access htake, ?_⟩
      show GetFacts _ m.pc
      rw [hpc]
      exact ⟨hoff, hfrozen.step htake, hrun⟩
  | sti hpc htaken =>
      rw [hpc] at hfacts
      exact ⟨h.kb, ⟨_, htaken⟩, hfacts.2.2⟩
  | ret hpc htaken =>
      rw [hpc] at hfacts
      exact ⟨h.kb.afterReturn htaken, rfl, hfacts.2⟩
  | idleSti hpc hempty =>
      rw [hpc] at hfacts
      obtain ⟨hoff, hfrozen, hrun⟩ := hfacts
      rw [Frozen, hempty] at hfrozen
      refine ⟨h.kb, hempty, rfl, ?_, hfrozen, hrun⟩
      show (!m.interruptFlag) = true
      rw [hoff]
      rfl
  | hlt hpc =>
      rw [hpc] at hfacts
      obtain ⟨hempty, hflag, -, hchecked, -⟩ := hfacts
      have hpcFacts := h.kb.pcFacts hempty
      exact ⟨h.kb.afterNone hempty, rfl, fun _ => ⟨hflag, rfl, hpcFacts.2.symm.trans hchecked⟩⟩

theorem getInv_run {es : List CpuEvent} {flag shadow : Bool} {pending : Irq → Bool}
    (hrun : Run CpuStep (machineStart k flag shadow pending) es m) : GetInv m :=
  hrun.invariant (machineStart_inv k flag shadow pending) fun _ _ _ hI hst => hI.step hst

/-! ## No missed wake-up -/

/-- A halted processor stands in the loop, sees an empty ring with everything returned,
    and takes the next interrupt that waits. -/
theorem GetInv.halted (h : GetInv m) (hhalt : m.halted = true) :
    m.pc = .top ∧ m.reader.ring.read = m.reader.ring.write
      ∧ m.reader.log.returned = m.reader.log.stored
      ∧ m.interruptFlag = true ∧ m.shadow = false := by
  have hfacts := h.facts
  cases hpc : m.pc with
  | outside =>
      rw [hpc] at hfacts
      exact absurd (hfacts.2.symm.trans hhalt) Bool.false_ne_true
  | top =>
      rw [hpc] at hfacts
      obtain ⟨hstart, hsleep⟩ := hfacts
      obtain ⟨hflag, hshadow, hall⟩ := hsleep hhalt
      refine ⟨rfl, h.kb.holds.empty_iff.mpr ?_, hall, hflag, hshadow⟩
      have hreturned := h.kb.pcFacts hstart
      have hlen := congrArg List.length (hall.symm.trans hreturned)
      have hle := h.kb.holds.le
      rw [List.length_take] at hlen
      omega
  | look =>
      rw [hpc] at hfacts
      exact absurd (hfacts.2.2.symm.trans hhalt) Bool.false_ne_true
  | ret =>
      rw [hpc] at hfacts
      exact absurd (hfacts.2.symm.trans hhalt) Bool.false_ne_true
  | hlt =>
      rw [hpc] at hfacts
      exact absurd (hfacts.2.2.2.2.symm.trans hhalt) Bool.false_ne_true

/-- **NO MISSED WAKE-UP**: in every interleaving, when the processor is halted the ring is
    empty and any interrupt that waits can be taken; and every character returned is the
    oldest one of those stored and not returned. -/
theorem keyboard_no_missed_wakeup (k : Keyboard) (flag shadow : Bool) (pending : Irq → Bool)
    (es : List CpuEvent) (hrun : Run CpuStep (machineStart k flag shadow pending) es m) :
    (m.halted = true → m.reader.ring.read = m.reader.ring.write
      ∧ m.reader.log.returned = m.reader.log.stored
      ∧ ∀ i scancode, m.pending i = true → ∃ n, CpuStep m (.interrupt i scancode) n)
    ∧ m.reader.log.returned <+: m.reader.log.stored
    ∧ ∀ c n, CpuStep m (.ret c) n →
      (m.reader.log.stored.drop m.reader.log.returned.length).head? = some c := by
  have h := getInv_run hrun
  refine ⟨fun hhalt => ?_, h.kb.fifo, fun c n hst => ?_⟩
  · obtain ⟨-, hempty, hall, hflag, hshadow⟩ := h.halted hhalt
    exact ⟨hempty, hall, fun i scancode hpending =>
      ⟨_, CpuStep.interrupt scancode hpending hflag hshadow⟩⟩
  · cases hst with
    | ret hpc htaken =>
        obtain ⟨⟨rest, hrest⟩, -⟩ := h.kb.taken htaken
        rw [← hrest, List.append_assoc, List.drop_left]
        rfl

/-- A key is pressed after the look at the ring: the processor halts with the interrupt
    waiting, and takes it. -/
theorem keyboard_no_missed_wakeup_late_key :
    ∃ m es, Run CpuStep (machineStart ⟨⟨fun _ => 0, 0, 0⟩, false, false⟩ true false
        fun _ => false) es m
      ∧ m.halted = true ∧ m.pending .keyboard = true
      ∧ m.reader.ring.read = m.reader.ring.write
      ∧ ∃ n, CpuStep m (.interrupt .keyboard 0x1E) n := by
  have h1 : Run CpuStep (machineStart ⟨⟨fun _ => 0, 0, 0⟩, false, false⟩ true false
    fun _ => false) [.instruction] _ := .single (.call rfl)
  have h2 := h1.snoc .instruction (.cli rfl rfl)
  have h3 := h2.snoc .instruction (.look rfl (.readFirst _ _))
  have h4 := h3.snoc .instruction (.look rfl (.writeSecond _ _ _))
  have h5 := h4.snoc (.arrive .keyboard) (.arrive _ .keyboard)
  have h6 := h5.snoc .instruction (.look rfl (.same _ _ rfl))
  have h7 := h6.snoc .instruction (.idleSti rfl rfl)
  have hrun := h7.snoc .instruction (.hlt rfl)
  obtain ⟨hwake, -⟩ := keyboard_no_missed_wakeup _ _ _ _ _ hrun
  obtain ⟨hempty, -, htake⟩ := hwake rfl
  exact ⟨_, _, hrun, rfl, rfl, hempty, htake .keyboard 0x1E rfl⟩

end PyramidKeyboard
