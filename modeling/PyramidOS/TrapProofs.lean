import PyramidOS.IdtProofs
import PyramidOS.WordStackProofs

/-! # From an interrupt to `isr_handler` and back

    The processor pushes what it interrupted, a stub of `idt_asm.asm` pushes the rest,
    and `isr_handler` reads all of it as a `Registers` structure; on the way back the
    stub pops in the opposite order.

    * `Cpu.Pushed` — a processor with some words more on its stack;
    * `enter_spec` — the stack at the call of `isr_handler`;
    * `restore_spec` — the way back from the same words;
    * `interrupt_spec` — for each of the 48 vectors: what `isr_handler` is given, and what
      the interrupted code gets back. -/

namespace PyramidInterrupt

open ByteMem WordStack

/-! ## The processor -/

structure Cpu where
  eax : UInt32
  ecx : UInt32
  edx : UInt32
  ebx : UInt32
  esp : UInt32
  ebp : UInt32
  esi : UInt32
  edi : UInt32
  eip : UInt32
  eflags : UInt32
  cs : UInt16
  ds : UInt16
  es : UInt16
  fs : UInt16
  gs : UInt16
  mem : Mem

def Cpu.push (c : Cpu) (v : UInt32) : Cpu :=
  { c with esp := c.esp - 4, mem := c.mem.store32 (c.esp - 4).toNat v.toNat }

/-- The word on top of the stack. -/
def Cpu.top (c : Cpu) : UInt32 := UInt32.ofNat (c.mem.load32 c.esp.toNat)

def Cpu.drop (c : Cpu) : Cpu := { c with esp := c.esp + 4 }

/-- The interrupt flag. -/
def flagIf : UInt32 := 0x200

/-- The flags that an interrupt gate clears: TF, IF, NT, RF and VM. -/
def flagsCleared : UInt32 := 0x34300

/-- The gate is present and a 32-bit interrupt gate. -/
def Gate.Present (g : Gate) : Prop := g.typeAttr / 128 = 1 ∧ g.typeAttr % 32 = 0x0E

instance (g : Gate) : Decidable g.Present :=
  inferInstanceAs (Decidable (_ ∧ _))

/-- The processor takes an interrupt in ring 0, through the table at `idt`; some of its
    exceptions push a code.  Without a gate it does not get to a handler. -/
def deliver (idt : Nat) (c : Cpu) (vector : Nat) (code : Option UInt32) : Option Cpu :=
  let g := gateAt c.mem idt vector
  if g.Present then
    let c' := ((c.push c.eflags).push c.cs.toUInt32).push c.eip
    let c' := match code with
      | some e => c'.push e
      | none => c'
    some { c' with
      eflags := c.eflags &&& ~~~flagsCleared
      cs := UInt16.ofNat g.selector
      eip := UInt32.ofNat g.offset }
  else none

/-! ## The stubs -/

/-- The instructions of `idt_asm.asm` other than the call. -/
inductive Instr where
  | cli
  | push (imm : UInt32)
  | pusha
  | movAxDs
  | pushEax
  | movAx (imm : UInt16)
  | movDsAx
  | movEsAx
  | movFsAx
  | movGsAx
  | popEax
  | popa
  | addEsp (imm : UInt32)
  | iret

/-- The low half of EAX is replaced. -/
def Cpu.setAx (c : Cpu) (ax : UInt16) : Cpu :=
  { c with eax := (c.eax &&& 0xFFFF0000) ||| ax.toUInt32 }

def Cpu.ax (c : Cpu) : UInt16 := c.eax.toUInt16

def Instr.run : Instr → Cpu → Cpu
  | .cli, c => { c with eflags := c.eflags &&& ~~~flagIf }
  | .push imm, c => c.push imm
  | .pusha, c =>
      -- the ESP pushed is the one before the first push
      (((((((c.push c.eax).push c.ecx).push c.edx).push c.ebx).push c.esp).push c.ebp).push
        c.esi).push c.edi
  | .movAxDs, c => c.setAx c.ds
  | .pushEax, c => c.push c.eax
  | .movAx imm, c => c.setAx imm
  | .movDsAx, c => { c with ds := c.ax }
  | .movEsAx, c => { c with es := c.ax }
  | .movFsAx, c => { c with fs := c.ax }
  | .movGsAx, c => { c with gs := c.ax }
  | .popEax, c => { c with eax := c.top }.drop
  | .popa, c =>
      let c := { c with edi := c.top }.drop
      let c := { c with esi := c.top }.drop
      let c := { c with ebp := c.top }.drop
      -- the ESP on the stack is skipped
      let c := c.drop
      let c := { c with ebx := c.top }.drop
      let c := { c with edx := c.top }.drop
      let c := { c with ecx := c.top }.drop
      { c with eax := c.top }.drop
  | .addEsp imm, c => { c with esp := c.esp + imm }
  | .iret, c =>
      let c := { c with eip := c.top }.drop
      let c := { c with cs := c.top.toUInt16 }.drop
      { c with eflags := c.top }.drop

def runAll (is : List Instr) (c : Cpu) : Cpu := is.foldl (fun c i => i.run c) c

/-- The exceptions for which the processor pushes a code, `ISR_ERRCODE`. -/
def errorCodes : List Nat := [8, 10, 11, 12, 13, 14, 17]

/-- `isr%1` and `irq%1`, up to the jump. -/
def stub (v : Nat) : List Instr :=
  if v ∈ errorCodes then [.cli, .push (UInt32.ofNat v)]
  else [.cli, .push 0, .push (UInt32.ofNat v)]

/-- `isr_common_stub` up to the call. -/
def isrCommonSave : List Instr :=
  [.pusha, .movAxDs, .pushEax, .movAx 0x10, .movDsAx, .movEsAx, .movFsAx, .movGsAx]

/-- `isr_common_stub` behind the call. -/
def isrCommonRestore : List Instr :=
  [.popEax, .movDsAx, .movEsAx, .movFsAx, .movGsAx, .popa, .addEsp 8, .iret]

/-- The vector whose function is at an address. -/
def Symbols.vectorAt (s : Symbols) (eip : UInt32) : Option Nat :=
  (List.range 48).find? fun v => s.handler v == eip

/-! ## The C side -/

/-- `Registers` of `cpu.h`. -/
structure Registers where
  ds : UInt32
  edi : UInt32
  esi : UInt32
  ebp : UInt32
  esp : UInt32
  ebx : UInt32
  edx : UInt32
  ecx : UInt32
  eax : UInt32
  intNo : UInt32
  errCode : UInt32
  eip : UInt32
  cs : UInt32
  eflags : UInt32
  useresp : UInt32
  ss : UInt32

/-- The structure at an address. -/
def registersAt (m : Mem) (a : Nat) : Registers :=
  let field (i : Nat) : UInt32 := UInt32.ofNat (m.load32 (a + 4 * i))
  ⟨field 0, field 1, field 2, field 3, field 4, field 5, field 6, field 7, field 8, field 9,
    field 10, field 11, field 12, field 13, field 14, field 15⟩

/-- What a call keeps: the registers of the calling convention, and every byte that is
    neither `static` data of the function nor on its own stack, `depth` bytes below the
    return address.  The function returns behind the call. -/
structure Returns (static : Nat → Prop) (depth : Nat) (c c' : Cpu) : Prop where
  esp : c'.esp = c.esp + 4
  ebx : c'.ebx = c.ebx
  ebp : c'.ebp = c.ebp
  esi : c'.esi = c.esi
  edi : c'.edi = c.edi
  byte : ∀ x, ¬ static x → x < c.esp.toNat - depth ∨ c.esp.toNat ≤ x →
    c'.mem.byte x = c.mem.byte x

/-- The machine code of `isr_handler`: it reads its argument above the return address, does
    what the C code does or stops as it does, and keeps to the calling convention.  Its
    argument is the frame the stub pops from: it must not be written either. -/
structure Compiled {ε κ : Type} (handler : Registers → κ → Except ε κ) where
  code : Cpu → κ → Except ε (Cpu × κ)
  static : Nat → Prop
  depth : Nat
  halts : ∀ {c k e}, handler (registersAt c.mem (c.esp.toNat + 4)) k = .error e →
    code c k = .error e
  returns : ∀ {c k k'}, handler (registersAt c.mem (c.esp.toNat + 4)) k = .ok k' →
    ∃ c', code c k = .ok (c', k') ∧ Returns static depth c c'

variable {ε κ : Type} {handler : Registers → κ → Except ε κ}

/-- **AN INTERRUPT**, from the instruction it comes before: through the table and the stub
    to `isr_handler` and back.  `ret` is the address behind the call; `none` for a vector
    with no gate or with no stub at its address. -/
def interrupt (H : Compiled handler) (s : Symbols) (idt : Nat) (ret : UInt32) (c : Cpu) (k : κ)
    (vector : Nat) (code : Option UInt32) : Option (Except ε (Cpu × κ)) := do
  let c ← deliver idt c vector code
  let v ← s.vectorAt c.eip
  let c := runAll (stub v ++ isrCommonSave) c
  return (H.code (c.push ret) k).map fun r => (runAll isrCommonRestore r.1, r.2)

/-- What `isr_handler` is to see. -/
def trapRegisters (c : Cpu) (vector : Nat) (code : UInt32) : Registers where
  -- `push eax` after `mov ax, ds`
  ds := (c.eax &&& 0xFFFF0000) ||| c.ds.toUInt32
  edi := c.edi
  esi := c.esi
  ebp := c.ebp
  -- five words below the interrupted stack
  esp := c.esp - 20
  ebx := c.ebx
  edx := c.edx
  ecx := c.ecx
  eax := c.eax
  intNo := UInt32.ofNat vector
  errCode := code
  eip := c.eip
  cs := c.cs.toUInt32
  eflags := c.eflags
  -- with no change of privilege these two are the words of the interrupted stack
  useresp := UInt32.ofNat (c.mem.load32 c.esp.toNat)
  ss := UInt32.ofNat (c.mem.load32 (c.esp.toNat + 4))

variable {c c' : Cpu} {m₀ m m' : Mem} {esp esp' v : UInt32} {ws : List UInt32} {base : Nat}
  {s : Symbols} {idt vector : Nat} {code : Option UInt32} {e : UInt32} {k k' : κ}

/-! ## The stack -/

/-- From `esp` up to `base` stand the words `ws`, and everywhere else memory is as it was
    in `m₀`. -/
structure OnStack (base : Nat) (m₀ m : Mem) (esp : UInt32) (ws : List UInt32) : Prop where
  ends : esp.toNat + 4 * ws.length = base
  small : base < 2 ^ 32
  holds : Holds m esp.toNat (ws.map UInt32.toNat)
  outside : ∀ x, x < esp.toNat ∨ base ≤ x → m.byte x = m₀.byte x

theorem OnStack.nil (m : Mem) (esp : UInt32) : OnStack esp.toNat m m esp [] :=
  ⟨rfl, esp.toNat_lt, trivial, fun _ _ => rfl⟩

/-- One push: a word more. -/
theorem OnStack.push (h : OnStack base m₀ m esp ws) (hroom : 4 * ws.length + 4 ≤ base)
    (v : UInt32) :
    OnStack base m₀ (m.store32 (esp - 4).toNat v.toNat) (esp - 4) (v :: ws) := by
  have hends := h.ends
  have hfour : 4 ≤ esp.toNat := by omega
  have hesp : (esp - 4).toNat = esp.toNat - 4 :=
    UInt32.toNat_sub_of_le _ _ (UInt32.le_iff_toNat_le.mpr hfour)
  refine ⟨?_, h.small, ?_, fun x hx => ?_⟩
  · rw [hesp, List.length_cons, ← hends]
    omega
  · refine Holds.push ?_ v.toNat_lt
    rw [hesp, Nat.sub_add_cancel hfour]
    exact h.holds
  · rw [hesp] at hx ⊢
    rw [byte_store32_outside (by omega)]
    exact h.outside x (by omega)

/-- The word on top. -/
theorem OnStack.top (h : OnStack base m₀ m esp (v :: ws)) :
    UInt32.ofNat (m.load32 esp.toNat) = v := by
  rw [h.holds.pop.1, UInt32.ofNat_toNat]

/-- One word less; its bytes no longer count. -/
theorem OnStack.drop (h : OnStack base m m esp (v :: ws)) : OnStack base m m (esp + 4) ws := by
  have hends := h.ends
  have hsmall := h.small
  rw [List.length_cons] at hends
  have hesp : (esp + 4).toNat = esp.toNat + 4 := by
    rw [UInt32.toNat_add]
    exact Nat.mod_eq_of_lt (show esp.toNat + 4 < 2 ^ 32 by omega)
  refine ⟨?_, hsmall, ?_, fun _ _ => rfl⟩
  · rw [hesp]
    omega
  · rw [hesp]
    exact h.holds.pop.2

/-- Another memory with the same words. -/
theorem OnStack.congr (h : OnStack base m₀ m esp ws)
    (hsame : ∀ x, esp.toNat ≤ x → x < base → m'.byte x = m.byte x) :
    OnStack base m' m' esp ws := by
  refine ⟨h.ends, h.small, h.holds.congr fun x hlow hhigh => ?_, fun _ _ => rfl⟩
  rw [List.length_map, h.ends] at hhigh
  exact hsame x hlow hhigh

/-- Word `i` from the top. -/
theorem OnStack.word (h : OnStack base m₀ m esp ws) {i : Nat} (hi : i < ws.length) :
    UInt32.ofNat (m.load32 (esp.toNat + 4 * i)) = ws[i] := by
  rw [h.holds.word (by rw [List.length_map]; exact hi), List.getElem_map, UInt32.ofNat_toNat]

/-! ## On the way in -/

/-- The words below an interrupted stack at the call of `isr_handler`, the top one first. -/
def trapWords (c : Cpu) (vector : Nat) (code : UInt32) : List UInt32 :=
  [(c.eax &&& 0xFFFF0000) ||| c.ds.toUInt32, c.edi, c.esi, c.ebp, c.esp - 4 - 4 - 4 - 4 - 4,
    c.ebx, c.edx, c.ecx, c.eax, UInt32.ofNat vector, code, c.eip, c.cs.toUInt32, c.eflags]

/-- The processor at the call of `isr_handler`. -/
structure Entered (c : Cpu) (vector : Nat) (code : UInt32) (c' : Cpu) : Prop where
  stack : OnStack c.esp.toNat c.mem c'.mem c'.esp (trapWords c vector code)
  segments : c'.ds = 0x10 ∧ c'.es = 0x10 ∧ c'.fs = 0x10 ∧ c'.gs = 0x10
  masked : c'.eflags &&& flagIf = 0

/-- What the processor leaves for the stub: it pushed a code or not. -/
theorem deliver_eq (hgate : gateAt c.mem idt vector = ⟨(s.handler vector).toNat, 0x08, 0x8E⟩) :
    deliver idt c vector code
      = let c' := ((c.push c.eflags).push c.cs.toUInt32).push c.eip
        some { (match code with | some e => c'.push e | none => c') with
          eflags := c.eflags &&& ~~~flagsCleared, cs := 0x08, eip := s.handler vector } := by
  have hpresent : Gate.Present ⟨(s.handler vector).toNat, 0x08, 0x8E⟩ :=
    ⟨show 0x8E / 128 = 1 by decide, show 0x8E % 32 = 0x0E by decide⟩
  rw [deliver, hgate, if_pos hpresent]
  simp only [UInt32.ofNat_toNat]
  rfl

theorem runAll_append (is is' : List Instr) (c : Cpu) :
    runAll (is ++ is') c = runAll is' (runAll is c) := List.foldl_append

/-- The flags of a handler: interrupts are off. -/
theorem flags_masked (f : UInt32) : (f &&& ~~~flagsCleared &&& ~~~flagIf) &&& flagIf = 0 := by
  rw [UInt32.and_assoc, UInt32.and_assoc, show ~~~flagIf &&& flagIf = 0 by decide]
  rw [UInt32.and_zero, UInt32.and_zero]

/-- AX loaded with `0x10`. -/
theorem ax_setAx (c : Cpu) (ax : UInt16) : (c.setAx ax).ax = ax := by
  have hhigh : ((c.eax &&& 0xFFFF0000) : UInt32).toUInt16 = 0 := by
    rw [UInt32.toUInt16_and]
    exact UInt16.and_zero
  show ((c.eax &&& 0xFFFF0000) ||| ax.toUInt32).toUInt16 = ax
  rw [UInt32.toUInt16_or, hhigh, UInt16.zero_or, UInt16.toUInt16_toUInt32]

/-- The stack of a processor. -/
def Cpu.Pushed (base : Nat) (m₀ : Mem) (c : Cpu) (ws : List UInt32) : Prop :=
  OnStack base m₀ c.mem c.esp ws

theorem Cpu.Pushed.push (h : c.Pushed base m₀ ws) (hroom : 4 * ws.length + 4 ≤ base)
    (v : UInt32) : (c.push v).Pushed base m₀ (v :: ws) :=
  OnStack.push h hroom v

theorem Cpu.Pushed.pusha (h : c.Pushed base m₀ ws) (hroom : 4 * ws.length + 32 ≤ base) :
    (Instr.pusha.run c).Pushed base m₀
      (c.edi :: c.esi :: c.ebp :: c.esp :: c.ebx :: c.edx :: c.ecx :: c.eax :: ws) := by
  have hone := h.push (by omega) c.eax
  have htwo := hone.push (by rw [List.length_cons]; omega) c.ecx
  have hthree := htwo.push (by simp only [List.length_cons]; omega) c.edx
  have hfour := hthree.push (by simp only [List.length_cons]; omega) c.ebx
  have hfive := hfour.push (by simp only [List.length_cons]; omega) c.esp
  have hsix := hfive.push (by simp only [List.length_cons]; omega) c.ebp
  have hseven := hsix.push (by simp only [List.length_cons]; omega) c.esi
  exact hseven.push (by simp only [List.length_cons]; omega) c.edi

/-- `isr_common_stub` up to the call. -/
theorem save_spec (h : c.Pushed base m₀ ws) (hroom : 4 * ws.length + 36 ≤ base) :
    (runAll isrCommonSave c).Pushed base m₀
        (((c.eax &&& 0xFFFF0000) ||| c.ds.toUInt32) :: c.edi :: c.esi :: c.ebp :: c.esp :: c.ebx
          :: c.edx :: c.ecx :: c.eax :: ws)
      ∧ ((runAll isrCommonSave c).ds = 0x10 ∧ (runAll isrCommonSave c).es = 0x10
        ∧ (runAll isrCommonSave c).fs = 0x10 ∧ (runAll isrCommonSave c).gs = 0x10)
      ∧ (runAll isrCommonSave c).eflags = c.eflags := by
  have hall := h.pusha (by omega)
  have hkeep : (Instr.pusha.run c).eax = c.eax ∧ (Instr.pusha.run c).ds = c.ds
      ∧ (Instr.pusha.run c).eflags = c.eflags := by
    simp only [Instr.run, Cpu.push, and_self]
  have hrun : runAll isrCommonSave c
      = Instr.movGsAx.run (Instr.movFsAx.run (Instr.movEsAx.run (Instr.movDsAx.run
        ((((Instr.pusha.run c).setAx (Instr.pusha.run c).ds).push
          ((Instr.pusha.run c).setAx (Instr.pusha.run c).ds).eax).setAx 0x10)))) := rfl
  rw [hrun]
  generalize Instr.pusha.run c = c₁ at hall hkeep
  obtain ⟨heax, hds, hflags⟩ := hkeep
  rw [← heax] at hall ⊢
  rw [← hds, ← hflags]
  have hax : (c₁.setAx c₁.ds).Pushed base m₀ _ := hall
  have hds' := hax.push (by simp only [List.length_cons]; omega) (c₁.setAx c₁.ds).eax
  have hflags' : ((c₁.setAx c₁.ds).push (c₁.setAx c₁.ds).eax).eflags = c₁.eflags := rfl
  generalize (c₁.setAx c₁.ds).push (c₁.setAx c₁.ds).eax = c₂ at hds' hflags'
  exact ⟨hds', ⟨ax_setAx _ _, ax_setAx _ _, ax_setAx _ _, ax_setAx _ _⟩, hflags'⟩

/-- What the processor and a stub leave of the interrupted registers. -/
structure Stubbed (c c' : Cpu) : Prop where
  general : c'.eax = c.eax ∧ c'.ecx = c.ecx ∧ c'.edx = c.edx ∧ c'.ebx = c.ebx
    ∧ c'.ebp = c.ebp ∧ c'.esi = c.esi ∧ c'.edi = c.edi
  ds : c'.ds = c.ds
  esp : c'.esp = c.esp - 4 - 4 - 4 - 4 - 4
  masked : c'.eflags &&& flagIf = 0

/-- **THE TWO KINDS OF STUB** meet: with the processor's code or with a 0 in its place, five
    words are on the stack. -/
theorem stub_spec (hcode : code.isSome = true ↔ vector ∈ errorCodes) (hroom : 20 ≤ c.esp.toNat)
    (hgate : gateAt c.mem idt vector = ⟨(s.handler vector).toNat, 0x08, 0x8E⟩) :
    ∃ c₁, deliver idt c vector code = some c₁ ∧ c₁.eip = s.handler vector
      ∧ (runAll (stub vector) c₁).Pushed c.esp.toNat c.mem
          [UInt32.ofNat vector, code.getD 0, c.eip, c.cs.toUInt32, c.eflags]
      ∧ Stubbed c (runAll (stub vector) c₁) := by
  refine ⟨_, deliver_eq hgate, rfl, ?_⟩
  have hstart : c.Pushed c.esp.toNat c.mem [] := OnStack.nil c.mem c.esp
  have hthree := ((hstart.push (by simp; omega) c.eflags).push (by simp; omega)
    c.cs.toUInt32).push (by simp; omega) c.eip
  cases code with
  | none =>
    have hnot : vector ∉ errorCodes := fun h => Bool.noConfusion (hcode.mpr h)
    have hfive := (hthree.push (by simp; omega) 0).push (by simp; omega) (UInt32.ofNat vector)
    rw [stub, if_neg hnot]
    refine ⟨hfive, ?_⟩
    constructor
    · simp only [runAll, List.foldl, Instr.run, Cpu.push, and_self]
    · simp only [runAll, List.foldl, Instr.run, Cpu.push]
    · simp only [runAll, List.foldl, Instr.run, Cpu.push]
    · exact flags_masked c.eflags
  | some e =>
    have hfive := (hthree.push (by simp; omega) e).push (by simp; omega) (UInt32.ofNat vector)
    rw [stub, if_pos (hcode.mp rfl)]
    refine ⟨hfive, ?_⟩
    constructor
    · simp only [runAll, List.foldl, Instr.run, Cpu.push, and_self]
    · simp only [runAll, List.foldl, Instr.run, Cpu.push]
    · simp only [runAll, List.foldl, Instr.run, Cpu.push]
    · exact flags_masked c.eflags

/-- **ON THE WAY IN**: for every vector `isr_handler` finds the same fourteen words. -/
theorem enter_spec (hcode : code.isSome = true ↔ vector ∈ errorCodes) (hroom : 56 ≤ c.esp.toNat)
    (hgate : gateAt c.mem idt vector = ⟨(s.handler vector).toNat, 0x08, 0x8E⟩) :
    ∃ c₁, deliver idt c vector code = some c₁ ∧ c₁.eip = s.handler vector
      ∧ Entered c vector (code.getD 0) (runAll (stub vector ++ isrCommonSave) c₁) := by
  obtain ⟨c₁, hdeliver, heip, hfive, hstub⟩ := stub_spec hcode (by omega) hgate
  refine ⟨c₁, hdeliver, heip, ?_⟩
  rw [runAll_append]
  generalize runAll (stub vector) c₁ = c₂ at hfive hstub
  obtain ⟨hall, hsegments, hflags⟩ := save_spec hfive (by simp only [List.length]; omega)
  generalize runAll isrCommonSave c₂ = c₃ at hall hsegments hflags
  obtain ⟨heax, hecx, hedx, hebx, hebp, hesi, hedi⟩ := hstub.general
  rw [heax, hecx, hedx, hebx, hebp, hesi, hedi, hstub.ds, hstub.esp] at hall
  exact ⟨hall, hsegments, by rw [hflags]; exact hstub.masked⟩

/-! ## On the way out -/

/-- The structure that a C function finds on the stack. -/
theorem registersAt_eq (h : Entered c vector e c') :
    registersAt c'.mem c'.esp.toNat = trapRegisters c vector e := by
  have hends : c'.esp.toNat + 56 = c.esp.toNat := h.stack.ends
  have hword := fun i (hi : i < 14) => h.stack.word (i := i) hi
  have houtside : ∀ x, c.esp.toNat ≤ x → c'.mem.byte x = c.mem.byte x :=
    fun x hx => h.stack.outside x (Or.inr hx)
  have huseresp : c'.mem.load32 (c'.esp.toNat + 4 * 14) = c.mem.load32 c.esp.toNat := by
    rw [hends]
    exact load32_congr fun x hx _ => houtside x hx
  have hss : c'.mem.load32 (c'.esp.toNat + 4 * 15) = c.mem.load32 (c.esp.toNat + 4) := by
    rw [show c'.esp.toNat + 4 * 15 = c'.esp.toNat + 56 + 4 from rfl, hends]
    exact load32_congr fun x hx _ => houtside x (by omega)
  have hesp : c.esp - 4 - 4 - 4 - 4 - 4 = c.esp - 20 := by
    simp only [UInt32.sub_eq_add_neg, UInt32.add_assoc]
    rfl
  simp only [trapWords, hesp] at hword
  rw [registersAt, trapRegisters, ← huseresp, ← hss, Registers.mk.injEq]
  exact ⟨hword 0 (by decide), hword 1 (by decide), hword 2 (by decide), hword 3 (by decide),
    hword 4 (by decide), hword 5 (by decide), hword 6 (by decide), hword 7 (by decide),
    hword 8 (by decide), hword 9 (by decide), hword 10 (by decide), hword 11 (by decide),
    hword 12 (by decide), hword 13 (by decide), rfl, rfl⟩

theorem registersAt_congr {a : Nat} (h : ∀ x, a ≤ x → m'.byte x = m.byte x) :
    registersAt m' a = registersAt m a := by
  have hfield : ∀ i, m'.load32 (a + 4 * i) = m.load32 (a + 4 * i) := fun i =>
    load32_congr fun x hx _ => h x (by omega)
  simp only [registersAt, hfield]

/-- `popa`, eight words. -/
theorem popa_eq {w₁ w₂ w₃ w₄ w₅ w₆ w₇ w₈ : UInt32}
    (h : OnStack base c.mem c.mem c.esp
      (w₁ :: w₂ :: w₃ :: w₄ :: w₅ :: w₆ :: w₇ :: w₈ :: ws)) :
    ∃ esp, Instr.popa.run c
        = { c with edi := w₁, esi := w₂, ebp := w₃, ebx := w₅, edx := w₆, ecx := w₇, eax := w₈,
                   esp := esp }
      ∧ OnStack base c.mem c.mem esp ws := by
  have h₁ := h.drop
  have h₂ := h₁.drop
  have h₄ := h₂.drop.drop
  have h₅ := h₄.drop
  have h₆ := h₅.drop
  have h₇ := h₆.drop
  refine ⟨_, ?_, h₇.drop⟩
  simp only [Instr.run, Cpu.drop, Cpu.top, h.top, h₁.top, h₂.top, h₄.top, h₅.top, h₆.top, h₇.top]

/-- **ON THE WAY OUT** the fourteen words become the registers again; all four segment
    registers are loaded from the one word. -/
theorem restore_spec {w w₁ w₂ w₃ w₄ w₅ w₆ w₇ w₈ w₉ w₁₀ w₁₁ w₁₂ w₁₃ : UInt32}
    (h : OnStack base c.mem c.mem c.esp
      [w, w₁, w₂, w₃, w₄, w₅, w₆, w₇, w₈, w₉, w₁₀, w₁₁, w₁₂, w₁₃]) :
    runAll isrCommonRestore c
      = ⟨w₈, w₇, w₆, w₅, UInt32.ofNat base, w₃, w₂, w₁, w₁₁, w₁₃, w₁₂.toUInt16, w.toUInt16,
        w.toUInt16, w.toUInt16, w.toUInt16, c.mem⟩ := by
  have hds := h.top
  have hregs := h.drop
  have hload : runAll isrCommonRestore c
      = Instr.iret.run ((Instr.addEsp 8).run (Instr.popa.run
        { c with eax := c.top, esp := c.esp + 4, ds := c.top.toUInt16, es := c.top.toUInt16,
                 fs := c.top.toUInt16, gs := c.top.toUInt16 })) := rfl
  rw [hload, Cpu.top, hds]
  obtain ⟨esp, hpopa, hfive⟩ := popa_eq
    (c := ⟨w, c.ecx, c.edx, c.ebx, c.esp + 4, c.ebp, c.esi, c.edi, c.eip, c.eflags, c.cs,
      w.toUInt16, w.toUInt16, w.toUInt16, w.toUInt16, c.mem⟩) h.drop
  rw [hpopa]
  -- the number of the interrupt and its code are dropped
  have hthree := hfive.drop.drop
  have htwo := hthree.drop
  have hone := htwo.drop
  have hbase := hone.drop.ends
  have hskip : esp + 8 = esp + 4 + 4 := by
    rw [UInt32.add_assoc]
    rfl
  have hesp : UInt32.ofNat base = esp + 4 + 4 + 4 + 4 + 4 := by
    rw [← hbase]
    exact UInt32.ofNat_toNat
  simp only [Instr.run, Cpu.drop, Cpu.top, hskip, hesp]
  rw [hthree.top, htwo.top, hone.top]

/-! ## The whole way -/

variable {H : Compiled handler} {ret : UInt32}

/-- Where the words of a trap, the return address and the stack of `isr_handler` are. -/
def Compiled.Below (H : Compiled handler) (esp : UInt32) (x : Nat) : Prop :=
  esp.toNat - 60 - H.depth ≤ x ∧ x < esp.toNat

theorem vectorAt_handler (hs : s.Distinct) (hvector : vector < 48) :
    s.vectorAt (s.handler vector) = some vector := by
  have hfound : ∃ v, s.vectorAt (s.handler vector) = some v := by
    rw [← Option.isSome_iff_exists, Symbols.vectorAt, List.find?_isSome]
    exact ⟨vector, List.mem_range.mpr hvector, beq_self_eq_true _⟩
  obtain ⟨v, hv⟩ := hfound
  have heq := List.find?_some hv
  have hmem := List.mem_range.mp (List.mem_of_find?_eq_some hv)
  rw [hv, hs v hmem vector hvector (beq_iff_eq.mp heq)]

/-- **AN INTERRUPT IS TRANSPARENT**, for each of the 48 vectors and whatever it interrupts:
    `isr_handler` is given the vector, the processor's code or 0 and the interrupted
    registers; if it does not return, the interrupted code does not go on; if it does, the
    interrupted code goes on with all its registers, its flags and its stack, but for ES,
    FS and GS, which are loaded from its DS, and outside the data of `isr_handler` memory
    has changed only below the interrupted stack. -/
theorem interrupt_spec (H : Compiled handler) (s : Symbols) (hs : s.Distinct)
    (idt : Nat) (ret : UInt32) (c : Cpu) (k : κ) (vector : Nat) (code : Option UInt32)
    (hvector : vector < 48) (hcode : code.isSome = true ↔ vector ∈ errorCodes)
    (hroom : 60 ≤ c.esp.toNat)
    (hgate : gateAt c.mem idt vector = ⟨(s.handler vector).toNat, 0x08, 0x8E⟩)
    (hstatic : ∀ x, H.static x → x < c.esp.toNat - 60 ∨ c.esp.toNat ≤ x) :
    (∀ halt, handler (trapRegisters c vector (code.getD 0)) k = .error halt →
      interrupt H s idt ret c k vector code = some (.error halt))
    ∧ ∀ k', handler (trapRegisters c vector (code.getD 0)) k = .ok k' →
      ∃ m, interrupt H s idt ret c k vector code
          = some (.ok ({ c with es := c.ds, fs := c.ds, gs := c.ds, mem := m }, k'))
        ∧ ∀ x, ¬ H.static x → ¬ H.Below c.esp x → m.byte x = c.mem.byte x := by
  obtain ⟨c₁, hdeliver, heip, hin⟩ := enter_spec hcode (by omega) hgate
  have hcall : interrupt H s idt ret c k vector code
      = some ((H.code ((runAll (stub vector ++ isrCommonSave) c₁).push ret) k).map
        fun r => (runAll isrCommonRestore r.1, r.2)) := by
    rw [interrupt, hdeliver]
    show (s.vectorAt c₁.eip).bind _ = _
    rw [heip, vectorAt_handler hs hvector]
    rfl
  rw [hcall]
  generalize runAll (stub vector ++ isrCommonSave) c₁ = c₂ at hin
  have hends : c₂.esp.toNat + 56 = c.esp.toNat := hin.stack.ends
  -- the return address goes below the structure
  have hpush := hin.stack.push (show 4 * 14 + 4 ≤ _ by omega) ret
  have hesp : (c₂.push ret).esp.toNat + 4 = c₂.esp.toNat := by
    have hends' : (c₂.push ret).esp.toNat + 60 = c.esp.toNat := hpush.ends
    omega
  have hregs : registersAt (c₂.push ret).mem ((c₂.push ret).esp.toNat + 4)
      = trapRegisters c vector (code.getD 0) := by
    rw [hesp, ← registersAt_eq hin]
    exact registersAt_congr fun x hx => byte_store32_outside (Or.inr (by
      rw [show (c₂.esp - 4).toNat = (c₂.push ret).esp.toNat from rfl]
      omega))
  rw [← hregs]
  refine ⟨fun halt hhalt => ?_, fun k' hok => ?_⟩
  · rw [H.halts hhalt]
    rfl
  · obtain ⟨c', hcode', hreturns⟩ := H.returns hok
    have hback : c'.esp = c₂.esp := by
      rw [hreturns.esp]
      exact UInt32.sub_add_cancel _ _
    have hframe : OnStack c.esp.toNat c'.mem c'.mem c'.esp
        (trapWords c vector (code.getD 0)) := by
      rw [hback]
      refine hin.stack.congr fun x hlow hhigh => ?_
      rw [hreturns.byte x (fun hx => by have := hstatic x hx; omega) (Or.inr (by omega))]
      exact byte_store32_outside (Or.inr (by
        rw [show (c₂.esp - 4).toNat = (c₂.push ret).esp.toNat from rfl]
        omega))
    refine ⟨c'.mem, ?_, fun x hx hbelow => ?_⟩
    · rw [hcode', show Except.map _ (Except.ok (c', k')) = Except.ok _ from rfl,
        restore_spec hframe]
      have hds : ((c.eax &&& 0xFFFF0000) ||| c.ds.toUInt32).toUInt16 = c.ds := ax_setAx c c.ds
      rw [hds, UInt16.toUInt16_toUInt32, UInt32.ofNat_toNat]
    · have hends' : (c₂.push ret).esp.toNat + 60 = c.esp.toNat := hpush.ends
      rw [Compiled.Below] at hbelow
      rw [hreturns.byte x hx (by omega)]
      exact hpush.outside x (by
        rw [show (c₂.esp - 4).toNat = (c₂.push ret).esp.toNat from rfl]
        omega)

end PyramidInterrupt
