import PyramidOS.KeyboardProofs
import PyramidOS.PicProofs
import PyramidOS.ShellProofs
import PyramidOS.TrapProofs

/-! # The kernel under interrupts

    `isr_handler` of `idt.c` with the drivers it calls, and the machine it runs on: the
    two interrupt controllers, the controller of the keyboard and the code that the
    interrupts come to.

    * `interrupt_transparent` — one interrupt, from the interrupted instruction to the
      next one;
    * `Serving` — the invariant: the chips are set up and nothing is in service;
    * `interrupts_run` — over every run: nothing gets stuck in service, and the ticks;
    * `scancodes_run` — over every run: what the keyboard sends is handled once, in
      order; or it is never handled again. -/

namespace PyramidInterrupt

open ByteMem LabelledRun RingBuffer PyramidKeyboard PyramidPic PyramidShell PyramidString

/-! ## isr_handler -/

/-- The output buffer of the keyboard controller: the byte at port 0x60, and whether it
    still waits to be read. -/
structure KbPort where
  data : UInt8
  full : Bool

/-- What the handlers work on: `ticks` of `timer.c`, the statics of `keyboard.c`, and the
    devices. -/
structure Kernel where
  ticks : UInt64
  keyboard : Keyboard
  pics : Pics
  port : KbPort

/-- `timer_handler`. -/
def timerHandler (k : Kernel) : Kernel := { k with ticks := k.ticks + 1 }

/-- `keyboard_handler`, with its `inb(0x60)`. -/
def keyboardIrq (k : Kernel) : Kernel :=
  { k with
    keyboard := keyboardHandler k.keyboard k.port.data
    port := { k.port with full := false } }

/-- The messages of `isr_handler`. -/
def exceptionMessage (intNo : UInt32) : String :=
  if intNo = 0 then "Divide By Zero"
  else if intNo = 13 then "General Protection Fault"
  else if intNo = 14 then "Page Fault"
  else if intNo = 6 then "Invalid Opcode"
  else if intNo = 8 then "Double Fault"
  else "Unknown Exception"

/-- `panic_with_regs`: what it prints before it hangs. -/
def panicWithRegs (message : String) (regs : Registers) : List TermCall :=
  let print (text : String) (color : UInt8) := TermCall.print (chars text) color
  let hex (value : UInt32) (color : UInt8) := TermCall.hex value.toNat color
  [print "\n\n*** KERNEL PANIC (Exception) ***\n" 0x0C,
    print "Reason: " 0x0F, print message 0x0F, print "\n" 0x0F,
    print "INT: 0x" 0x0E, hex regs.intNo 0x0E,
    print "  ERR: 0x" 0x0E, hex regs.errCode 0x0E, print "\n" 0x0F,
    print "EIP: 0x" 0x0E, hex regs.eip 0x0E,
    print "  CS:  0x" 0x0E, hex regs.cs 0x0E,
    print "  EFLAGS: 0x" 0x0E, hex regs.eflags 0x0E, print "\n" 0x0F,
    print "EAX: 0x" 0x07, hex regs.eax 0x07,
    print "  EBX: 0x" 0x07, hex regs.ebx 0x07,
    print "  ECX: 0x" 0x07, hex regs.ecx 0x07, print "\n" 0x0F,
    print "EDX: 0x" 0x07, hex regs.edx 0x07,
    print "  ESI: 0x" 0x07, hex regs.esi 0x07,
    print "  EDI: 0x" 0x07, hex regs.edi 0x07, print "\n" 0x0F,
    print "ESP: 0x" 0x07, hex regs.esp 0x07,
    print "  EBP: 0x" 0x07, hex regs.ebp 0x07, print "\n" 0x0F,
    print "\nSystem Halted." 0x0C]

/-- `isr_handler`; where it does not return, what it printed. -/
def isrHandler (regs : Registers) (k : Kernel) : Except (List TermCall) Kernel :=
  if regs.intNo ≥ 32 ∧ regs.intNo ≤ 47 then
    let k :=
      if regs.intNo = 32 then timerHandler k
      else if regs.intNo = 33 then keyboardIrq k
      else k
    .ok { k with pics := picSendEoi (regs.intNo - 32).toUInt8 k.pics }
  else .error (panicWithRegs (exceptionMessage regs.intNo) regs)

/-! ## The machine -/

/-- The processor, the kernel, and the reader of the keyboard buffer with its log. -/
structure Machine where
  cpu : Cpu
  kernel : Kernel
  log : KbLog
  pc : ReadPc

/-- The keyboard buffer, as its two users see it. -/
def Machine.kb (m : Machine) : KbState := ⟨m.kernel.keyboard.ring, m.log, m.pc⟩

/-- What a handler stored. -/
def typedLog (k : Keyboard) (l : KbLog) (scancode : UInt8) : KbLog :=
  if typed k scancode = 0 then l
  else { l with stored := k.ring.log kbBufferSize l.stored (typed k scancode) }

/-- The processor can take an interrupt: the table is in place, the stack has room, and
    neither the stack nor the data of `isr_handler` is where the other or the table is. -/
structure Interruptible (H : Compiled isrHandler) (s : Symbols) (idt : Nat) (c : Cpu) :
    Prop where
  room : 60 ≤ c.esp.toNat
  static : ∀ x, H.static x → x < c.esp.toNat - 60 ∨ c.esp.toNat ≤ x
  table : ∀ x, idt ≤ x → x < idt + 8 * 48 → ¬ H.static x ∧ ¬ H.Below c.esp x
  gates : ∀ v < 48, gateAt c.mem idt v = ⟨(s.handler v).toNat, 0x08, 0x8E⟩

/-- What can happen next. -/
inductive IrqEvent where
  /-- a device other than the keyboard raises its line -/
  | line (n : Fin 16)
  /-- the keyboard sends a byte -/
  | key (scancode : UInt8)
  /-- the processor takes an interrupt; `data` is the byte at port 0x60 -/
  | irq (vector : Nat) (data : UInt8)
  /-- a request went away before it was acknowledged -/
  | spurious
  /-- `keyboard_try_get_char` goes on -/
  | access
  | ret (c : UInt8)
  /-- the rest of the kernel goes on -/
  | program
deriving DecidableEq

/-- **ONE STEP**.  The kernel has interrupts enabled and leaves the chips alone. -/
inductive IrqStep (H : Compiled isrHandler) (s : Symbols) (idt : Nat) (ret : UInt32) :
    Machine → IrqEvent → Machine → Prop where
  | line (m : Machine) {n : Fin 16} (hn : n ≠ 1) :
      IrqStep H s idt ret m (.line n)
        { m with kernel := { m.kernel with pics := m.kernel.pics.raise n } }
  | key (m : Machine) (scancode : UInt8) (hempty : m.kernel.port.full = false) :
      -- the controller takes the next byte when the last one was read
      IrqStep H s idt ret m (.key scancode)
        { m with kernel := { m.kernel with
            pics := m.kernel.pics.raise 1, port := ⟨scancode, true⟩ } }
  | irq (m : Machine) {vector : Nat} {p : Pics} {c : Cpu} {k : Kernel}
      (hflag : m.cpu.eflags &&& flagIf ≠ 0)
      (hack : m.kernel.pics.acknowledge = some (vector, p))
      (hrun : interrupt H s idt ret m.cpu { m.kernel with pics := p } vector none
        = some (.ok (c, k))) :
      IrqStep H s idt ret m (.irq vector m.kernel.port.data)
        { m with
          cpu := c
          kernel := k
          log := if vector = 33 then typedLog m.kernel.keyboard m.log m.kernel.port.data
            else m.log }
  | spurious (m : Machine) {c : Cpu} {k : Kernel} (hflag : m.cpu.eflags &&& flagIf ≠ 0)
      (hrun : interrupt H s idt ret m.cpu m.kernel (m.kernel.pics.master.offset.toNat + 7) none
        = some (.ok (c, k))) :
      IrqStep H s idt ret m .spurious { m with cpu := c, kernel := k }
  | access (m : Machine) {t : KbState} {c : Cpu} (htake : TakeStep m.kb t)
      (hcpu : Interruptible H s idt c) :
      IrqStep H s idt ret m .access
        { cpu := c
          kernel := { m.kernel with keyboard := { m.kernel.keyboard with ring := t.ring } }
          log := t.log
          pc := t.pc }
  | ret (m : Machine) {t : KbState} {c : Cpu} {ch : UInt8} (hret : KbStep m.kb (.ret ch) t)
      (hcpu : Interruptible H s idt c) :
      IrqStep H s idt ret m (.ret ch) { m with cpu := c, log := t.log, pc := t.pc }
  | program (m : Machine) {c : Cpu} (hcpu : Interruptible H s idt c) :
      IrqStep H s idt ret m .program { m with cpu := c }

variable {H : Compiled isrHandler} {s : Symbols} {idt : Nat} {ret : UInt32} {c : Cpu}
  {k k' : Kernel} {m m' m₀ : Machine} {es : List IrqEvent} {vector : Nat}

/-! ## How it starts -/

/-- **THE INVARIANT**: the chips are as `k_main` left them, with nothing in service, and
    the processor can take an interrupt. -/
structure Serving (H : Compiled isrHandler) (s : Symbols) (idt : Nat) (m : Machine) : Prop where
  ready : Ready m.kernel.pics 0xFC 0xFF
  idle : m.kernel.pics.Idle
  cpu : Interruptible H s idt m.cpu

/-- **HOW `k_main` STARTS**: `idt_init` and the calls of `pic.c`, whatever the chips and the
    memory held before. -/
theorem serving_start (hroom : 60 ≤ c.esp.toNat)
    (hstatic : ∀ x, H.static x → x < c.esp.toNat - 60 ∨ c.esp.toNat ≤ x)
    (htable : ∀ x, idt ≤ x → x < idt + 8 * 48 → ¬ H.static x ∧ ¬ H.Below c.esp x)
    (k : Kernel) (l : KbLog) (pc : ReadPc) :
    Serving H s idt ⟨{ c with mem := idtInit s c.mem idt }, { k with pics := picInit k.pics },
      l, pc⟩ := by
  obtain ⟨hready, hidle⟩ := picInit_ready k.pics
  refine ⟨hready, hidle, hroom, hstatic, htable, fun v hv => ?_⟩
  rw [idtInit_gate s c.mem idt (by omega), if_pos hv]

/-- A kernel at 1 MiB, 16 bytes a stub. -/
def linked : Symbols :=
  ⟨fun v => 0x101000 + 16 * UInt32.ofNat v, fun n => 0x101200 + 16 * UInt32.ofNat n⟩

theorem linked_distinct : linked.Distinct := by
  have hall : ∀ v < 48, ∀ w < 48, linked.handler v = linked.handler w → v = w := by
    decide +kernel
  exact hall

/-- A compilation of `isr_handler` that leaves the processor alone. -/
def compiled : Compiled isrHandler where
  code c k := (isrHandler (registersAt c.mem (c.esp.toNat + 4)) k).map fun k' =>
    ({ c with esp := c.esp + 4 }, k')
  static _ := False
  depth := 0
  halts h := by
    rw [h]
    rfl
  returns {c k k'} h := by
    refine ⟨{ c with esp := c.esp + 4 }, ?_, ⟨rfl, rfl, rfl, rfl, rfl, fun _ _ _ => rfl⟩⟩
    rw [h]
    rfl

/-- A machine that starts, with its stack below 0x90000 and the table at 0x5000. -/
def startCpu : Cpu where
  eax := 1
  ecx := 2
  edx := 3
  ebx := 4
  esp := 0x90000
  ebp := 5
  esi := 6
  edi := 7
  eip := 0x10000
  eflags := 0x202
  cs := 0x08
  ds := 0x10
  es := 0x10
  fs := 0x10
  gs := 0x10
  mem := ⟨fun _ => 0, []⟩

def startKernel : Kernel where
  ticks := 0
  keyboard := keyboardInit ⟨⟨fun _ => 0, 0, 0⟩, false, false⟩
  pics :=
    let p : Pic := ⟨fun _ => true, fun _ => true, 0, 8, .ready⟩
    ⟨p, p⟩
  port := ⟨0, false⟩

def started : Machine :=
  ⟨{ startCpu with mem := idtInit linked startCpu.mem 0x5000 },
    { startKernel with pics := picInit startKernel.pics }, ⟨[], 0, [], []⟩, .start⟩

theorem started_serving : Serving compiled linked 0x5000 started := by
  refine serving_start (by decide) (fun x (h : False) => h.elim)
    (fun x hlow hhigh => ⟨id, fun h => ?_⟩) ..
  have hfar : 0x90000 - 60 - 0 ≤ x := h.1
  omega

/-! ## One interrupt -/

/-- After the interrupt the next one can be taken. -/
theorem Interruptible.after (h : Interruptible H s idt c) {mem : Mem}
    (hbyte : ∀ x, ¬ H.static x → ¬ H.Below c.esp x → mem.byte x = c.mem.byte x) :
    Interruptible H s idt { c with es := c.ds, fs := c.ds, gs := c.ds, mem := mem } := by
  refine ⟨h.room, h.static, h.table, fun v hv => ?_⟩
  rw [← h.gates v hv]
  refine gateAt_congr fun x hlow hhigh => ?_
  obtain ⟨hstatic, hbelow⟩ := h.table x (by omega) (by omega)
  exact hbyte x hstatic hbelow

/-- A hardware interrupt whose handler's effect is known. -/
theorem interrupt_irq (ret : UInt32) (hs : s.Distinct) (hcpu : Interruptible H s idt c)
    (hvector : vector < 48)
    (hcode : vector ∉ errorCodes) (hok : isrHandler (trapRegisters c vector 0) k = .ok k') :
    ∃ mem, interrupt H s idt ret c k vector none
        = some (.ok ({ c with es := c.ds, fs := c.ds, gs := c.ds, mem := mem }, k'))
      ∧ Interruptible H s idt { c with es := c.ds, fs := c.ds, gs := c.ds, mem := mem } := by
  have hnone : (none : Option UInt32).isSome = true ↔ vector ∈ errorCodes :=
    ⟨fun h => Bool.noConfusion h, fun h => absurd h hcode⟩
  obtain ⟨-, hgo⟩ := interrupt_spec H s hs idt ret c k vector none hvector hnone hcpu.room
    (hcpu.gates vector hvector) hcpu.static
  obtain ⟨mem, hrun, hbyte⟩ := hgo k' hok
  exact ⟨mem, hrun, hcpu.after hbyte⟩

/-! ## One interrupt after the other -/

/-- The kernel after a line of the first chip was served. -/
def Kernel.served (k : Kernel) (n : Fin 8) : Kernel :=
  { k with pics := { k.pics with master := { k.pics.master with
      irr := Function.update k.pics.master.irr n false } } }

/-- `isr_handler` for a hardware interrupt. -/
theorem isrHandler_irq {regs : Registers} (intNo : UInt32) (hno : regs.intNo = intNo)
    (hrange : intNo ≥ 32 ∧ intNo ≤ 47) (k : Kernel) :
    isrHandler regs k
      = let k := if intNo = 32 then timerHandler k else if intNo = 33 then keyboardIrq k else k
        .ok { k with pics := picSendEoi (intNo - 32).toUInt8 k.pics } := by
  rw [isrHandler, hno, if_pos hrange]

/-- For the timer. -/
theorem isrHandler_timer (hidle : k.pics.Idle) :
    isrHandler (trapRegisters c 32 0) { k with pics.master := k.pics.master.acknowledge 0 }
      = .ok ((timerHandler k).served 0) := by
  have heoi := picSendEoi_acknowledge hidle 0 0 (by decide)
  rw [isrHandler_irq 32 rfl (by decide), if_pos rfl,
    show ((32 : UInt32) - 32).toUInt8 = 0 by decide]
  simp only [timerHandler, heoi]
  rfl

/-- For the keyboard. -/
theorem isrHandler_keyboard (hidle : k.pics.Idle) :
    isrHandler (trapRegisters c 33 0) { k with pics.master := k.pics.master.acknowledge 1 }
      = .ok ((keyboardIrq k).served 1) := by
  have heoi := picSendEoi_acknowledge hidle 1 1 (by decide)
  rw [isrHandler_irq 33 rfl (by decide), if_neg (by decide), if_pos rfl,
    show ((33 : UInt32) - 32).toUInt8 = 1 by decide]
  simp only [keyboardIrq, heoi]
  rfl

/-- For a spurious interrupt: the end of interrupt ends nothing. -/
theorem isrHandler_spurious (hidle : k.pics.Idle) :
    isrHandler (trapRegisters c 39 0) k = .ok k := by
  have heoi := picSendEoi_idle hidle 7 (by decide)
  rw [isrHandler_irq 39 rfl (by decide), if_neg (by decide), if_neg (by decide),
    show ((39 : UInt32) - 32).toUInt8 = 7 by decide]
  simp only [heoi]

/-- What one interrupt does to the machine: the timer's, or the keyboard's. -/
inductive Served (m : Machine) : Nat → Kernel → KbLog → Prop where
  | timer (hirr : m.kernel.pics.master.irr 0 = true) :
      Served m 32 ((timerHandler m.kernel).served 0) m.log
  | keyboard (hirr : m.kernel.pics.master.irr 1 = true) :
      Served m 33 ((keyboardIrq m.kernel).served 1)
        (typedLog m.kernel.keyboard m.log m.kernel.port.data)

/-- **ONE REQUEST**, from the lines to the next instruction: whatever the chips ask for is
    served, and the handler returns. -/
theorem acknowledge_served (ret : UInt32) (hs : s.Distinct) (h : Serving H s idt m) {p : Pics}
    (hack : m.kernel.pics.acknowledge = some (vector, p)) :
    ∃ k' mem, interrupt H s idt ret m.cpu { m.kernel with pics := p } vector none
        = some (.ok ({ m.cpu with es := m.cpu.ds, fs := m.cpu.ds, gs := m.cpu.ds, mem := mem }, k'))
      ∧ Interruptible H s idt
          { m.cpu with es := m.cpu.ds, fs := m.cpu.ds, gs := m.cpu.ds, mem := mem }
      ∧ Served m vector k' (if vector = 33
          then typedLog m.kernel.keyboard m.log m.kernel.port.data else m.log) := by
  rw [acknowledge_ready h.ready h.idle] at hack
  split at hack
  case isTrue htimer =>
    obtain ⟨rfl, rfl⟩ := Prod.mk.inj (Option.some.inj hack)
    obtain ⟨mem, hrun, hafter⟩ := interrupt_irq ret hs h.cpu (by decide)
      (by decide) (isrHandler_timer h.idle)
    exact ⟨_, mem, hrun, hafter, .timer htimer⟩
  case isFalse =>
    split at hack
    case isTrue hkey =>
      obtain ⟨rfl, rfl⟩ := Prod.mk.inj (Option.some.inj hack)
      obtain ⟨mem, hrun, hafter⟩ := interrupt_irq ret hs h.cpu (by decide)
        (by decide) (isrHandler_keyboard h.idle)
      exact ⟨_, mem, hrun, hafter, .keyboard hkey⟩
    case isFalse => cases hack

/-- What an event does to everything but the processor. -/
inductive Effect (m : Machine) : IrqEvent → Machine → Prop where
  | line (c : Cpu) {n : Fin 16} (hn : n ≠ 1) :
      Effect m (.line n)
        ⟨c, { m.kernel with pics := m.kernel.pics.raise n }, m.log, m.pc⟩
  | key (c : Cpu) (scancode : UInt8) (hempty : m.kernel.port.full = false) :
      Effect m (.key scancode)
        ⟨c, { m.kernel with pics := m.kernel.pics.raise 1, port := ⟨scancode, true⟩ }, m.log, m.pc⟩
  | irq (c : Cpu) {v : Nat} {k : Kernel} {l : KbLog} (hserved : Served m v k l) :
      Effect m (.irq v m.kernel.port.data) ⟨c, k, l, m.pc⟩
  | spurious (c : Cpu) : Effect m .spurious ⟨c, m.kernel, m.log, m.pc⟩
  | access (c : Cpu) {t : KbState} (htake : TakeStep m.kb t) :
      Effect m .access
        ⟨c, { m.kernel with keyboard := { m.kernel.keyboard with ring := t.ring } }, t.log, t.pc⟩
  | ret (c : Cpu) {t : KbState} {ch : UInt8} (hret : KbStep m.kb (.ret ch) t) :
      Effect m (.ret ch) ⟨c, m.kernel, t.log, t.pc⟩
  | program (c : Cpu) : Effect m .program ⟨c, m.kernel, m.log, m.pc⟩

/-- Raising a line changes neither the setting of the chips nor what is in service. -/
theorem raise_ready {p : Pics} {imr1 imr2 : Byte} (h : Ready p imr1 imr2) (hidle : p.Idle)
    (n : Fin 16) : Ready (p.raise n) imr1 imr2 ∧ (p.raise n).Idle := by
  rw [Pics.raise]
  split
  · exact ⟨⟨h.init, h.offset, h.imr⟩, hidle⟩
  · exact ⟨⟨h.init, h.offset, h.imr⟩, hidle⟩

/-- **ONE STEP** keeps the invariant, and does what the event says. -/
theorem IrqStep.effect (hs : s.Distinct) (h : Serving H s idt m) {e : IrqEvent}
    (hst : IrqStep H s idt ret m e m') : Serving H s idt m' ∧ Effect m e m' := by
  cases hst with
  | @line n hn =>
      obtain ⟨hready, hidle⟩ := raise_ready h.ready h.idle n
      exact ⟨⟨hready, hidle, h.cpu⟩, .line _ hn⟩
  | key scancode hempty =>
      obtain ⟨hready, hidle⟩ := raise_ready h.ready h.idle 1
      exact ⟨⟨hready, hidle, h.cpu⟩, .key _ scancode hempty⟩
  | @irq vector p c k hflag hack hrun =>
      obtain ⟨k', mem, hrun', hcpu, hserved⟩ := acknowledge_served ret hs h hack
      obtain ⟨rfl, rfl⟩ := Prod.mk.inj (Except.ok.inj (Option.some.inj (hrun.symm.trans hrun')))
      refine ⟨?_, .irq _ hserved⟩
      -- served is: no longer latched
      cases hserved with
      | timer _ => exact ⟨⟨h.ready.init, h.ready.offset, h.ready.imr⟩, h.idle, hcpu⟩
      | keyboard _ => exact ⟨⟨h.ready.init, h.ready.offset, h.ready.imr⟩, h.idle, hcpu⟩
  | @spurious c k hflag hrun =>
      have hvector : m.kernel.pics.master.offset.toNat + 7 = 39 := by
        rw [h.ready.offset.1]
        rfl
      rw [hvector] at hrun
      obtain ⟨mem, hrun', hcpu⟩ := interrupt_irq ret hs h.cpu (by decide)
        (by decide) (isrHandler_spurious h.idle)
      obtain ⟨rfl, rfl⟩ := Prod.mk.inj (Except.ok.inj (Option.some.inj (hrun.symm.trans hrun')))
      exact ⟨⟨h.ready, h.idle, hcpu⟩, .spurious _⟩
  | access htake hcpu => exact ⟨⟨h.ready, h.idle, hcpu⟩, .access _ htake⟩
  | ret hret hcpu => exact ⟨⟨h.ready, h.idle, hcpu⟩, .ret _ hret⟩
  | program hcpu => exact ⟨⟨h.ready, h.idle, hcpu⟩, .program _⟩

/-- **OVER A RUN**. -/
theorem Serving.run (hs : s.Distinct) (h₀ : Serving H s idt m₀)
    (hrun : Run (IrqStep H s idt ret) m₀ es m) : Serving H s idt m ∧ Run Effect m₀ es m :=
  hrun.mono_of_invariant h₀ fun _ _ _ h hst => hst.effect hs h

/-! ## The timer -/

/-- The event is an interrupt of the timer. -/
def IrqEvent.isTimer : IrqEvent → Bool
  | .irq vector _ => vector == 32
  | _ => false

/-- A tick waits: the line was raised, and no interrupt of the timer came since. -/
def IrqEvent.tick (waiting : Bool) : IrqEvent → Bool
  | .line n => if n = 0 then true else waiting
  | .irq vector _ => if vector = 32 then false else waiting
  | _ => waiting

/-- Whether a line of the first chip is latched. -/
def Machine.latched (m : Machine) (n : Fin 8) : Bool := m.kernel.pics.master.irr n

/-- The lines of the first chip after a device raised one. -/
theorem raise_irr (p : Pics) (line : Fin 16) (n : Fin 8) :
    (p.raise line).master.irr n = if line.val = n.val then true else p.master.irr n := by
  rw [Pics.raise]
  split
  case isTrue hlow =>
    show Function.update p.master.irr ⟨line, hlow⟩ true n = _
    by_cases heq : line.val = n.val
    · rw [if_pos heq, show n = ⟨line, hlow⟩ from Fin.ext heq.symm, Function.update_self]
    · rw [if_neg heq, Function.update_of_ne fun h => heq (Fin.val_eq_of_eq h).symm]
  case isFalse hhigh => rw [if_neg (by omega)]

/-- **ONE EVENT**, for the timer. -/
theorem Effect.timer {e : IrqEvent} (h : Effect m e m') :
    m'.kernel.ticks = m.kernel.ticks + (if e.isTimer then 1 else 0)
      ∧ m'.latched irqTimer = e.tick (m.latched irqTimer)
      ∧ (e.isTimer = true → m.latched irqTimer = true) := by
  cases h with
  | @line c n hn =>
      refine ⟨(UInt64.add_zero _).symm, ?_, nofun⟩
      show (m.kernel.pics.raise n).master.irr 0 = _
      rw [raise_irr]
      by_cases hzero : n = 0
      · rw [hzero]
        rfl
      · have hval : ¬ n.val = (0 : Fin 8).val := fun h => hzero (Fin.ext h)
        rw [if_neg hval, IrqEvent.tick, if_neg hzero]
        rfl
  | key c scancode hempty =>
      refine ⟨(UInt64.add_zero _).symm, ?_, nofun⟩
      show (m.kernel.pics.raise 1).master.irr 0 = _
      rw [raise_irr]
      rfl
  | irq c hserved =>
      cases hserved with
      | timer hirr => exact ⟨rfl, rfl, fun _ => hirr⟩
      | keyboard hirr => exact ⟨(UInt64.add_zero _).symm, rfl, nofun⟩
  | spurious c => exact ⟨(UInt64.add_zero _).symm, rfl, nofun⟩
  | access c htake => exact ⟨(UInt64.add_zero _).symm, rfl, nofun⟩
  | ret c hret => exact ⟨(UInt64.add_zero _).symm, rfl, nofun⟩
  | program c => exact ⟨(UInt64.add_zero _).symm, rfl, nofun⟩

/-- What holds of the timer and of the chips after a run. -/
structure IrqSafe (H : Compiled isrHandler) (s : Symbols) (idt : Nat) (ret : UInt32)
    (m₀ : Machine) (es : List IrqEvent) (m : Machine) : Prop where
  idle : m.kernel.pics.Idle
  masks : picGetMask m.kernel.pics = 0xFFFC
  ticks : m.kernel.ticks = m₀.kernel.ticks + UInt64.ofNat (es.countP IrqEvent.isTimer)
  tick : m.latched irqTimer = es.foldl IrqEvent.tick (m₀.latched irqTimer)
  raised : es.countP IrqEvent.isTimer + (m.latched irqTimer).toNat
    ≤ es.count (.line 0) + (m₀.latched irqTimer).toNat
  asked : m.latched irqTimer = true ∨ m.latched irqKeyboard = true →
    m.kernel.pics.acknowledge.isSome
  taken : ∀ vector p, m.kernel.pics.acknowledge = some (vector, p) →
    (if m.latched irqTimer then vector = 32 else vector = 33)
      ∧ (m.cpu.eflags &&& flagIf ≠ 0 → ∃ m',
        IrqStep H s idt ret m (.irq vector m.kernel.port.data) m'
          ∧ m'.cpu = { m.cpu with
              es := m.cpu.ds, fs := m.cpu.ds, gs := m.cpu.ds, mem := m'.cpu.mem })

/-- An event brings a tick, takes it, or leaves things as they are. -/
theorem IrqEvent.tick_cases (e : IrqEvent) (waiting : Bool) :
    (e = .line 0 ∧ e.isTimer = false ∧ e.tick waiting = true)
      ∨ (e ≠ .line 0 ∧ e.isTimer = true ∧ e.tick waiting = false)
      ∨ (e ≠ .line 0 ∧ e.isTimer = false ∧ e.tick waiting = waiting) := by
  cases e with
  | line n =>
      by_cases hzero : n = 0
      · exact Or.inl ⟨by rw [hzero], rfl, if_pos hzero⟩
      · exact Or.inr (Or.inr ⟨(fun h => hzero (IrqEvent.line.inj h)), rfl, if_neg hzero⟩)
  | irq v data =>
      by_cases htimer : v = 32
      · exact Or.inr (Or.inl ⟨nofun, beq_iff_eq.mpr htimer, if_pos htimer⟩)
      · exact Or.inr (Or.inr ⟨nofun, beq_eq_false_iff_ne.mpr htimer, if_neg htimer⟩)
  | key scancode => exact Or.inr (Or.inr ⟨nofun, rfl, rfl⟩)
  | spurious => exact Or.inr (Or.inr ⟨nofun, rfl, rfl⟩)
  | access => exact Or.inr (Or.inr ⟨nofun, rfl, rfl⟩)
  | ret ch => exact Or.inr (Or.inr ⟨nofun, rfl, rfl⟩)
  | program => exact Or.inr (Or.inr ⟨nofun, rfl, rfl⟩)

/-- No tick is counted twice. -/
theorem Effect.raised {e : IrqEvent} (h : Effect m e m') :
    [e].countP IrqEvent.isTimer + (m'.latched irqTimer).toNat
      ≤ [e].count (.line 0) + (m.latched irqTimer).toNat := by
  obtain ⟨-, htick, hwas⟩ := h.timer
  rw [htick, List.countP_singleton, List.count_singleton]
  rcases e.tick_cases (m.latched irqTimer) with ⟨rfl, htimer, hlatched⟩ | ⟨hne, htimer, hlatched⟩ |
    ⟨hne, htimer, hlatched⟩
  · rw [hlatched, htimer]
    exact Nat.le_add_right 1 _
  · rw [hlatched, htimer, hwas htimer]
    exact Nat.le_add_left 1 _
  · rw [hlatched, htimer]
    exact Nat.add_le_add_right (Nat.zero_le _) _

/-- **THE TIMER OVER A RUN**, by induction on the run. -/
theorem timer_run (hrun : Run Effect m₀ es m) :
    m.kernel.ticks = m₀.kernel.ticks + UInt64.ofNat (es.countP IrqEvent.isTimer)
      ∧ m.latched irqTimer = es.foldl IrqEvent.tick (m₀.latched irqTimer)
      ∧ es.countP IrqEvent.isTimer + (m.latched irqTimer).toNat
        ≤ es.count (.line 0) + (m₀.latched irqTimer).toNat := by
  induction hrun with
  | nil => exact ⟨(UInt64.add_zero _).symm, rfl, by simp⟩
  | snoc e _ hst ih =>
      obtain ⟨hticks, htick, hraised⟩ := ih
      obtain ⟨hticks', htick', -⟩ := hst.timer
      have hraised' := hst.raised
      refine ⟨?_, ?_, ?_⟩
      · rw [hticks', hticks, List.countP_append, UInt64.ofNat_add, UInt64.add_assoc,
          List.countP_singleton]
        cases e.isTimer
        · rfl
        · rfl
      · rw [htick', htick, List.foldl_append]
        rfl
      · rw [List.countP_append, List.count_append]
        omega

/-- What the chips ask for, they ask for until it is taken. -/
theorem acknowledge_asked (h : Serving H s idt m)
    (hirr : m.latched irqTimer = true ∨ m.latched irqKeyboard = true) :
    m.kernel.pics.acknowledge.isSome := by
  rw [acknowledge_ready h.ready h.idle]
  show (if m.latched irqTimer then _ else if m.latched irqKeyboard then _ else _ :
    Option (Nat × Pics)).isSome
  rcases hirr with htimer | hkey
  · rw [if_pos htimer]
    rfl
  · rw [if_pos hkey]
    split
    · rfl
    · rfl

/-- **NOTHING GETS STUCK**: over every run with interrupts enabled, however the devices, the
    reader and the rest of the kernel are interleaved, no line stays in service and only the
    timer and the keyboard are let through; each tick is counted once, a tick that comes
    while another one waits is lost with it, and what was raised is asked for, the timer
    first, until the processor takes it, and then its handler returns. -/
theorem interrupts_run (hs : s.Distinct) (h₀ : Serving H s idt m₀) (es : List IrqEvent)
    (hrun : Run (IrqStep H s idt ret) m₀ es m) : IrqSafe H s idt ret m₀ es m := by
  obtain ⟨h, heffects⟩ := h₀.run hs hrun
  obtain ⟨hticks, htick, hraised⟩ := timer_run heffects
  refine ⟨h.idle, ?_, hticks, htick, hraised, acknowledge_asked h, fun vector p hack => ⟨?_, ?_⟩⟩
  · show (m.kernel.pics.slave.imr ++ m.kernel.pics.master.imr : BitVec 16) = 0xFFFC
    rw [h.ready.imr.1, h.ready.imr.2]
    rfl
  · rw [acknowledge_ready h.ready h.idle] at hack
    show if m.kernel.pics.master.irr 0 then _ else _
    split at hack
    case isTrue htimer =>
      rw [if_pos htimer]
      exact (Prod.mk.inj (Option.some.inj hack)).1.symm
    case isFalse htimer =>
      rw [if_neg htimer]
      split at hack
      · exact (Prod.mk.inj (Option.some.inj hack)).1.symm
      · cases hack
  · intro hflag
    obtain ⟨k', mem, hgo, -, -⟩ := acknowledge_served ret hs h hack
    exact ⟨_, .irq m hflag hack hgo, rfl⟩

/-- The timer, once. -/
theorem interrupts_run_tick :
    ∃ m, IrqSafe compiled linked 0x5000 0 started [.line 0, .irq 32 0] m
      ∧ m.kernel.ticks = 1 := by
  have hline : IrqStep compiled linked 0x5000 0 started (.line 0) _ := .line started (by decide)
  obtain ⟨hserving, -⟩ := hline.effect linked_distinct started_serving
  obtain ⟨k', mem, hgo, -, -⟩ := acknowledge_served 0 linked_distinct hserving rfl
  have hrun := (Run.single hline).snoc _ (.irq _ (by decide) rfl hgo)
  have hsafe := interrupts_run linked_distinct started_serving _ hrun
  exact ⟨_, hsafe, hsafe.ticks.trans (by decide)⟩

/-! ## The keyboard -/

/-- The byte that the keyboard sends. -/
def IrqEvent.sent : IrqEvent → Option UInt8
  | .key scancode => some scancode
  | _ => none

/-- The byte that a keyboard interrupt handles. -/
def IrqEvent.handled : IrqEvent → Option UInt8
  | .irq vector data => if vector = 33 then some data else none
  | _ => none

/-- The byte that waits at port 0x60. -/
def Machine.waiting (m : Machine) : List UInt8 :=
  if m.kernel.port.full then [m.kernel.port.data] else []

/-- The controller and the line of the keyboard agree: a byte waits when and only when the
    interrupt for it does. -/
def Machine.Synced (m : Machine) : Prop := m.kernel.port.full = m.latched irqKeyboard

/-- **ONE EVENT**, for the controller of the keyboard. -/
theorem Effect.waiting {e : IrqEvent} (h : Effect m e m') (hsync : m.Synced) :
    m'.Synced ∧ m.waiting ++ e.sent.toList = e.handled.toList ++ m'.waiting := by
  cases h with
  | @line c n hn =>
      refine ⟨?_, List.append_nil _⟩
      have hval : ¬ n.val = (1 : Fin 8).val := fun h => hn (Fin.ext h)
      show m.kernel.port.full = (m.kernel.pics.raise n).master.irr 1
      rw [raise_irr, if_neg hval]
      exact hsync
  | key c scancode hempty =>
      constructor
      · show true = (m.kernel.pics.raise 1).master.irr 1
        rw [raise_irr]
        rfl
      · rw [Machine.waiting, hempty]
        rfl
  | irq c hserved =>
      cases hserved with
      | timer hirr => exact ⟨hsync, List.append_nil _⟩
      | keyboard hirr =>
          have hfull : m.kernel.port.full = true := hsync.trans hirr
          refine ⟨rfl, ?_⟩
          rw [Machine.waiting, hfull]
          rfl
  | spurious c => exact ⟨hsync, List.append_nil _⟩
  | access c htake => exact ⟨hsync, List.append_nil _⟩
  | ret c hret => exact ⟨hsync, List.append_nil _⟩
  | program c => exact ⟨hsync, List.append_nil _⟩

theorem filterMap_one {α β : Type} (f : α → Option β) (a : α) :
    [a].filterMap f = (f a).toList := by
  rw [List.filterMap_cons, List.filterMap_nil]
  cases f a
  · rfl
  · rfl

/-- **OVER A RUN** a byte is handled once, in order, or it waits. -/
theorem waiting_run (hrun : Run Effect m₀ es m) (hsync : m₀.Synced) :
    m.Synced ∧ m₀.waiting ++ es.filterMap IrqEvent.sent
      = es.filterMap IrqEvent.handled ++ m.waiting := by
  induction hrun with
  | nil => exact ⟨hsync, List.append_nil _⟩
  | snoc e _ hst ih =>
      obtain ⟨hsync', hall⟩ := ih
      obtain ⟨hsync'', hone⟩ := hst.waiting hsync'
      refine ⟨hsync'', ?_⟩
      rw [List.filterMap_append, List.filterMap_append, ← List.append_assoc, hall,
        List.append_assoc, List.append_assoc, filterMap_one, filterMap_one, hone]

/-- A byte that came before its line could be latched blocks the keyboard. -/
def Machine.Deaf (m : Machine) : Prop :=
  m.kernel.port.full = true ∧ m.latched irqKeyboard = false

/-- **ONE EVENT** with the keyboard blocked. -/
theorem Effect.deaf {e : IrqEvent} (h : Effect m e m') (hdeaf : m.Deaf) :
    m'.Deaf ∧ e.sent = none ∧ e.handled = none := by
  obtain ⟨hfull, hirr⟩ := hdeaf
  cases h with
  | @line c n hn =>
      refine ⟨⟨hfull, ?_⟩, rfl, rfl⟩
      have hval : ¬ n.val = (1 : Fin 8).val := fun h => hn (Fin.ext h)
      show (m.kernel.pics.raise n).master.irr 1 = false
      rw [raise_irr, if_neg hval]
      exact hirr
  | key c scancode hempty => exact absurd (hfull.symm.trans hempty) Bool.noConfusion
  | irq c hserved =>
      cases hserved with
      | timer _ => exact ⟨⟨hfull, hirr⟩, rfl, rfl⟩
      | keyboard hlatched => exact absurd (hirr.symm.trans hlatched) Bool.noConfusion
  | spurious c => exact ⟨⟨hfull, hirr⟩, rfl, rfl⟩
  | access c htake => exact ⟨⟨hfull, hirr⟩, rfl, rfl⟩
  | ret c hret => exact ⟨⟨hfull, hirr⟩, rfl, rfl⟩
  | program c => exact ⟨⟨hfull, hirr⟩, rfl, rfl⟩

theorem deaf_run (hrun : Run Effect m₀ es m) (hdeaf : m₀.Deaf) :
    m.Deaf ∧ es.filterMap IrqEvent.sent = [] ∧ es.filterMap IrqEvent.handled = [] := by
  induction hrun with
  | nil => exact ⟨hdeaf, rfl, rfl⟩
  | snoc e _ hst ih =>
      obtain ⟨hdeaf', hsent, hhandled⟩ := ih
      obtain ⟨hdeaf'', hnone, hnone'⟩ := hst.deaf hdeaf'
      refine ⟨hdeaf'', ?_, ?_⟩
      · rw [List.filterMap_append, hsent, List.filterMap_cons_none hnone]
        rfl
      · rw [List.filterMap_append, hhandled, List.filterMap_cons_none hnone']
        rfl

/-! ## What is typed -/

/-- A key's character, if it has one. -/
def typedOne (k : Keyboard) (scancode : UInt8) : List UInt8 :=
  if typed k scancode = 0 then [] else [typed k scancode]

/-- What a list of scancodes types, each with the Shift and Caps Lock of its time. -/
def typedAll (k : Keyboard) : List UInt8 → List UInt8
  | [] => []
  | scancode :: rest => typedOne k scancode ++ typedAll (keyboardHandler k scancode) rest

theorem typedAll_concat (k : Keyboard) (scancodes : List UInt8) (scancode : UInt8) :
    typedAll k (scancodes ++ [scancode])
      = typedAll k scancodes ++ typedOne (scancodes.foldl keyboardHandler k) scancode := by
  induction scancodes generalizing k with
  | nil => exact List.append_nil _
  | cons first rest ih =>
      rw [List.cons_append, typedAll, ih, typedAll, List.append_assoc]
      rfl

/-- The same Shift and the same Caps Lock. -/
structure SameFlags (k k' : Keyboard) : Prop where
  shift : k'.shiftPressed = k.shiftPressed
  caps : k'.capsLock = k.capsLock

theorem SameFlags.typed {k k' : Keyboard} (h : SameFlags k k') (scancode : UInt8) :
    typed k' scancode = typed k scancode := by
  rw [PyramidKeyboard.typed, PyramidKeyboard.typed, ascii, ascii, h.shift, h.caps]

theorem SameFlags.handler {k k' : Keyboard} (h : SameFlags k k') (scancode : UInt8) :
    SameFlags (keyboardHandler k scancode) (keyboardHandler k' scancode) :=
  ⟨by rw [keyboardHandler_shiftPressed, keyboardHandler_shiftPressed, h.shift],
    by rw [keyboardHandler_capsLock, keyboardHandler_capsLock, h.caps]⟩

theorem SameFlags.foldl {k k' : Keyboard} (h : SameFlags k k') (scancodes : List UInt8) :
    SameFlags (scancodes.foldl keyboardHandler k) (scancodes.foldl keyboardHandler k') := by
  induction scancodes generalizing k k' with
  | nil => exact h
  | cons scancode rest ih => exact ih (h.handler scancode)

theorem SameFlags.trans {k k' k'' : Keyboard} (h : SameFlags k k') (h' : SameFlags k' k'') :
    SameFlags k k'' :=
  ⟨h'.shift.trans h.shift, h'.caps.trans h.caps⟩

/-- The reader stores nothing. -/
theorem takeStep_stored {a t : KbState} (h : TakeStep a t) : t.log.stored = a.log.stored := by
  cases h <;> rfl

theorem ret_keeps {a t : KbState} {ch : UInt8} (h : KbStep a (.ret ch) t) :
    t.ring = a.ring ∧ t.log.stored = a.log.stored := by
  cases h <;> exact ⟨rfl, rfl⟩

/-- **THE READER'S STATE** follows the machine's: a handler is one `buffer_write` at most,
    and nothing else of an interrupt is seen. -/
theorem Effect.kb {e : IrqEvent} (h : Effect m e m') :
    SameFlags (e.handled.toList.foldl keyboardHandler m.kernel.keyboard) m'.kernel.keyboard
      ∧ (m'.kb = m.kb ∧ typedAll m.kernel.keyboard e.handled.toList = []
        ∨ (∃ c, typedAll m.kernel.keyboard e.handled.toList = [c]
          ∧ c ≠ 0 ∧ m'.kb = m.kb.afterWrite c)
        ∨ (∃ ke, e.handled = none ∧ KbStep m.kb ke m'.kb ∧ m'.log.stored = m.log.stored)) := by
  cases h with
  | line c hn => exact ⟨⟨rfl, rfl⟩, Or.inl ⟨rfl, rfl⟩⟩
  | key c scancode hempty => exact ⟨⟨rfl, rfl⟩, Or.inl ⟨rfl, rfl⟩⟩
  | irq c hserved =>
      cases hserved with
      | timer _ => exact ⟨⟨rfl, rfl⟩, Or.inl ⟨rfl, rfl⟩⟩
      | keyboard _ =>
          refine ⟨⟨rfl, rfl⟩, ?_⟩
          have hring := keyboardHandler_ring m.kernel.keyboard m.kernel.port.data
          show _ ∨ (∃ c, typedOne m.kernel.keyboard m.kernel.port.data ++ [] = [c] ∧ _) ∨ _
          by_cases hnone : typed m.kernel.keyboard m.kernel.port.data = 0
          · left
            rw [if_pos hnone] at hring
            refine ⟨?_, ?_⟩
            · show (⟨_, _, _⟩ : KbState) = _
              rw [typedLog, if_pos hnone]
              exact congrArg (fun r => (⟨r, m.log, m.pc⟩ : KbState)) hring
            · show typedOne m.kernel.keyboard m.kernel.port.data ++ [] = []
              rw [typedOne, if_pos hnone]
              rfl
          · right
            left
            rw [if_neg hnone] at hring
            refine ⟨typed m.kernel.keyboard m.kernel.port.data, ?_, hnone, ?_⟩
            · rw [typedOne, if_neg hnone]
              rfl
            · show (⟨_, _, _⟩ : KbState) = _
              rw [typedLog, if_neg hnone]
              exact congrArg (fun r => (⟨r, _, m.pc⟩ : KbState)) hring
  | spurious c => exact ⟨⟨rfl, rfl⟩, Or.inl ⟨rfl, rfl⟩⟩
  | @access c t htake =>
      refine ⟨⟨rfl, rfl⟩, Or.inr (Or.inr ⟨.access, rfl, .access htake, ?_⟩)⟩
      exact takeStep_stored htake
  | @ret c t ch hret =>
      obtain ⟨hring, hstored⟩ := ret_keeps hret
      refine ⟨⟨rfl, rfl⟩, Or.inr (Or.inr ⟨.ret ch, rfl, ?_, hstored⟩)⟩
      have heq : (⟨m.kernel.keyboard.ring, t.log, t.pc⟩ : KbState) = t := by
        rw [show m.kernel.keyboard.ring = t.ring from hring.symm]
      show KbStep m.kb (.ret ch) ⟨m.kernel.keyboard.ring, t.log, t.pc⟩
      rw [heq]
      exact hret
  | program c => exact ⟨⟨rfl, rfl⟩, Or.inl ⟨rfl, rfl⟩⟩

/-- The handler finds room in the ring. -/
def RoomStep (step : Machine → IrqEvent → Machine → Prop) (m : Machine) (e : IrqEvent)
    (m' : Machine) : Prop :=
  step m e m' ∧ ¬ m.kernel.keyboard.ring.Full kbBufferSize

/-- What holds of the keyboard after the events `es`. -/
structure TypedInv (m₀ : Machine) (es : List IrqEvent) (m : Machine) : Prop where
  kb : KbInv m.kb
  flags : SameFlags ((es.filterMap IrqEvent.handled).foldl keyboardHandler m₀.kernel.keyboard)
    m.kernel.keyboard
  stored : m.log.stored.Sublist
    (typedAll m₀.kernel.keyboard (es.filterMap IrqEvent.handled))

/-- What an event types. -/
theorem typedAll_snoc {e : IrqEvent} (h : TypedInv m₀ es m) :
    typedAll m₀.kernel.keyboard ((es ++ [e]).filterMap IrqEvent.handled)
      = typedAll m₀.kernel.keyboard (es.filterMap IrqEvent.handled)
        ++ typedAll m.kernel.keyboard e.handled.toList := by
  rw [List.filterMap_append, filterMap_one]
  cases e.handled with
  | none => rw [Option.toList_none, List.append_nil, typedAll, List.append_nil]
  | some scancode =>
      rw [Option.toList_some, typedAll_concat, typedAll, typedAll, List.append_nil, typedOne,
        typedOne, h.flags.typed]

/-- **ONE EVENT**, for what is typed. -/
theorem TypedInv.step {e : IrqEvent} (h : TypedInv m₀ es m) (heffect : Effect m e m') :
    TypedInv m₀ (es ++ [e]) m'
      ∧ (¬ m.kernel.keyboard.ring.Full kbBufferSize →
        m'.log.stored = m.log.stored ++ typedAll m.kernel.keyboard e.handled.toList) := by
  obtain ⟨hflags, hcases⟩ := heffect.kb
  have hflags' : SameFlags
      (((es ++ [e]).filterMap IrqEvent.handled).foldl keyboardHandler m₀.kernel.keyboard)
      m'.kernel.keyboard := by
    rw [List.filterMap_append, filterMap_one, List.foldl_append]
    exact (h.flags.foldl _).trans hflags
  have hstored := h.stored
  rcases hcases with ⟨hsame, hnone⟩ | ⟨c, hone, hc, hwrite⟩ | ⟨ke, hnone, hstep, hlog⟩
  · -- nothing typed
    have hlog : m'.log.stored = m.log.stored := congrArg (fun t => t.log.stored) hsame
    refine ⟨⟨hsame ▸ h.kb, hflags', ?_⟩, fun _ => ?_⟩
    · rw [typedAll_snoc h, hnone, List.append_nil, hlog]
      exact hstored
    · rw [hnone, List.append_nil, hlog]
  · -- one character, which a full ring drops
    have hlog : m'.log.stored = m.kernel.keyboard.ring.log kbBufferSize m.log.stored c :=
      congrArg (fun t => t.log.stored) hwrite
    refine ⟨⟨hwrite ▸ h.kb.afterWrite hc, hflags', ?_⟩, fun hroom => ?_⟩
    · rw [typedAll_snoc h, hone, hlog, RingBuf.log]
      split
      · exact hstored.trans (List.sublist_append_left _ _)
      · exact hstored.append (List.Sublist.refl _)
    · rw [hone, hlog, RingBuf.log, if_neg hroom]
  · -- the reader
    refine ⟨⟨h.kb.step hstep, hflags', ?_⟩, fun _ => ?_⟩
    · rw [typedAll_snoc h, hnone, hlog]
      exact hstored.trans (List.sublist_append_left _ _)
    · rw [hnone, hlog]
      exact (List.append_nil _).symm

/-- **OVER A RUN**: what is stored was typed. -/
theorem typed_run (hrun : Run Effect m₀ es m) (h₀ : TypedInv m₀ [] m₀) : TypedInv m₀ es m := by
  induction hrun with
  | nil => exact h₀
  | snoc e _ hst ih => exact (ih.step hst).1

/-- **WITH ROOM IN THE RING** all that is typed is stored. -/
theorem typed_room_run (hrun : Run (RoomStep Effect) m₀ es m) (h₀ : TypedInv m₀ [] m₀)
    (hnone : m₀.log.stored = []) :
    m.log.stored = typedAll m₀.kernel.keyboard (es.filterMap IrqEvent.handled) := by
  have hall := fun {es m} (h : Run (RoomStep Effect) m₀ es m) =>
    typed_run (h.mono fun _ _ _ hst => hst.1) h₀
  induction hrun with
  | nil => exact hnone
  | snoc e hrun hst ih =>
      obtain ⟨heffect, hroom⟩ := hst
      have hinv := hall hrun
      rw [(hinv.step heffect).2 hroom, ih, typedAll_snoc hinv]

/-- The keyboard and its reader as `keyboard_init` leaves them. -/
structure Machine.Fresh (m : Machine) : Prop where
  keyboard : m.kernel.keyboard = keyboardInit m.kernel.keyboard
  log : m.log = ⟨[], 0, [], []⟩
  pc : m.pc = .start

theorem Machine.Fresh.typed (h : m.Fresh) : TypedInv m [] m := by
  have hkb : m.kb = kbStart m.kernel.keyboard := by
    rw [Machine.kb, kbStart, h.log, h.pc, ← h.keyboard]
  refine ⟨hkb ▸ kbStart_inv _, ⟨rfl, rfl⟩, ?_⟩
  rw [h.log]
  exact List.Sublist.refl _

/-- What holds of the keyboard after a run from `m₀`. -/
structure KeysSafe (H : Compiled isrHandler) (s : Symbols) (idt : Nat) (ret : UInt32)
    (m₀ : Machine) (es : List IrqEvent) (m : Machine) : Prop where
  once : m₀.Synced → m₀.waiting ++ es.filterMap IrqEvent.sent
    = es.filterMap IrqEvent.handled ++ m.waiting
  deaf : m₀.Deaf → es.filterMap IrqEvent.handled = [] ∧ es.filterMap IrqEvent.sent = []
  returned : m.log.returned <+: m.log.stored
  typed : m.log.stored.Sublist (typedAll m₀.kernel.keyboard (es.filterMap IrqEvent.handled))
  room : Run (RoomStep (IrqStep H s idt ret)) m₀ es m →
    m.log.stored = typedAll m₀.kernel.keyboard (es.filterMap IrqEvent.handled)

/-- **FROM THE KEYS TO THE READER**, over every run with interrupts enabled: the bytes the
    keyboard sends are handled in order, each once, or the last of them still waits; what
    the reader gets is a beginning of what their keys type, less what came while the ring
    was full.  A byte that waits from before the chips were set up is never read, and the
    keyboard sends no other. -/
theorem scancodes_run (hs : s.Distinct) (h₀ : Serving H s idt m₀) (hfresh : m₀.Fresh)
    (es : List IrqEvent) (hrun : Run (IrqStep H s idt ret) m₀ es m) :
    KeysSafe H s idt ret m₀ es m := by
  have heffects := (h₀.run hs hrun).2
  have htyped := typed_run heffects hfresh.typed
  refine ⟨fun hsync => (waiting_run heffects hsync).2, fun hdeaf => ?_, htyped.kb.fifo,
    htyped.stored, fun hroom => ?_⟩
  · obtain ⟨-, hsent, hhandled⟩ := deaf_run heffects hdeaf
    exact ⟨hhandled, hsent⟩
  · obtain ⟨-, hrooms⟩ : _ ∧ Run (RoomStep Effect) m₀ es m := Run.mono_of_invariant hroom h₀
      fun _ _ _ h hst => ⟨(hst.1.effect hs h).1, (hst.1.effect hs h).2, hst.2⟩
    refine typed_room_run hrooms hfresh.typed ?_
    rw [hfresh.log]

/-- The key of `a`, once. -/
theorem scancodes_run_a :
    ∃ m, KeysSafe compiled linked 0x5000 0 started [.key 0x1E, .irq 33 0x1E] m
      ∧ m.log.stored.Sublist (chars "a") := by
  have hkey : IrqStep compiled linked 0x5000 0 started (.key 0x1E) _ := .key started 0x1E rfl
  obtain ⟨hserving, -⟩ := hkey.effect linked_distinct started_serving
  obtain ⟨k', mem, hgo, -, -⟩ := acknowledge_served 0 linked_distinct hserving rfl
  have hrun := (Run.single hkey).snoc _ (.irq _ (by decide) rfl hgo)
  have hsafe := scancodes_run linked_distinct started_serving ⟨rfl, rfl, rfl⟩ _ hrun
  exact ⟨_, hsafe, hsafe.typed⟩

end PyramidInterrupt
