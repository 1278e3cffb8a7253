import Mathlib.Data.Fin.Basic
import Mathlib.Data.List.FinRange
import Mathlib.Logic.Function.Basic
import PyramidOS.ByteMemoryProofs

/-! # The interrupt controllers

    `pic.c` against the two 8259A chips of a PC, the second one on line 2 of the first:
    the initialization words in their order, the masks, and the end of an interrupt.

    * `Pic.command`, `Pic.data` — what a chip does with a byte;
    * `picInit_ready` — what `k_main` leaves, whatever the chips were set to before;
    * `pic_masks_run` — the masks over any sequence of calls. -/

namespace PyramidPic

open ByteMem

/-! ## The chips -/

/-- The word of the initialization sequence a chip waits for, and whether the fourth
    follows; or none. -/
inductive InitState where
  | ready
  | icw2 (icw4 : Bool)
  | icw3 (icw4 : Bool)
  | icw4
deriving DecidableEq

/-- One chip: the requests latched, those in service, the mask and the vector of line 0. -/
structure Pic where
  irr : Fin 8 → Bool
  isr : Fin 8 → Bool
  imr : Byte
  offset : Byte
  init : InitState

/-- The in-service line of the highest priority. -/
def Pic.served (p : Pic) : Option (Fin 8) := (List.finRange 8).find? p.isr

/-- The lines of the timer and of the keyboard. -/
def irqTimer : Fin 8 := 0
def irqKeyboard : Fin 8 := 1

/-- A byte for the command port: the first word of an initialization, or the end of the
    interrupt with the highest priority in service. -/
def Pic.command (p : Pic) (v : Byte) : Pic :=
  if v &&& 0x10 ≠ 0 then
    { p with irr := fun _ => false, isr := fun _ => false, imr := 0,
             init := .icw2 (v &&& 0x01 ≠ 0) }
  else if v = 0x20 then
    match p.served with
    | some n => { p with isr := Function.update p.isr n false }
    | none => p
  else p

/-- A byte for the data port: the next word of an initialization, or the mask. -/
def Pic.data (p : Pic) (v : Byte) : Pic :=
  match p.init with
  | .ready => { p with imr := v }
  | .icw2 icw4 => { p with offset := v &&& 0xF8, init := .icw3 icw4 }
  | .icw3 icw4 => { p with init := if icw4 then .icw4 else .ready }
  | .icw4 => { p with init := .ready }

/-- The line that asks for the processor: latched, not masked, and above what is in
    service. -/
def Pic.request (p : Pic) : Option (Fin 8) :=
  (List.finRange 8).find? fun n =>
    p.irr n && !p.imr.getLsbD n && (List.finRange 8).all fun j => !(decide (j ≤ n) && p.isr j)

/-- The processor takes the request of a line. -/
def Pic.acknowledge (p : Pic) (n : Fin 8) : Pic :=
  { p with irr := Function.update p.irr n false, isr := Function.update p.isr n true }

/-- The two chips of a PC. -/
structure Pics where
  master : Pic
  slave : Pic

/-- `outb` to one of the four ports of the chips; the other ports are not theirs. -/
def Pics.outb (port : Nat) (v : Byte) (p : Pics) : Pics :=
  if port = 0x20 then { p with master := p.master.command v }
  else if port = 0x21 then { p with master := p.master.data v }
  else if port = 0xA0 then { p with slave := p.slave.command v }
  else if port = 0xA1 then { p with slave := p.slave.data v }
  else p

/-- `inb` from a data port. -/
def Pics.inb (port : Nat) (p : Pics) : Byte := if port = 0x21 then p.master.imr else p.slave.imr

/-- A device raises one of the 16 lines; a line that is latched already stays latched. -/
def Pics.raise (p : Pics) (line : Fin 16) : Pics :=
  if h : line.val < 8 then
    { p with master := { p.master with irr := Function.update p.master.irr ⟨line, h⟩ true } }
  else
    { p with slave := { p.slave with
        irr := Function.update p.slave.irr ⟨line - 8, by omega⟩ true } }

/-- The first chip, with the second one on its line 2. -/
def Pics.cascaded (p : Pics) : Pic :=
  { p.master with irr := fun n => if n = 2 then p.slave.request.isSome else p.master.irr n }

/-- The processor acknowledges: the vector it is given, and the chips after it. -/
def Pics.acknowledge (p : Pics) : Option (Nat × Pics) :=
  match p.cascaded.request, p.slave.request with
  | none, _ => none
  | some n, slave =>
      if n = 2 then
        slave.map fun m => (p.slave.offset.toNat + m.val,
          ⟨{ p.master with isr := Function.update p.master.isr 2 true }, p.slave.acknowledge m⟩)
      else some (p.master.offset.toNat + n.val, { p with master := p.master.acknowledge n })

/-! ## pic.c -/

def pic1Command : Nat := 0x20
def pic1Data : Nat := 0x21
def pic2Command : Nat := 0xA0
def pic2Data : Nat := 0xA1

/-- `ICW1_INIT | ICW1_ICW4`, `ICW4_8086` and `PIC_EOI`. -/
def icw1 : Byte := 0x10 ||| 0x01
def icw4 : Byte := 0x01
def picEoi : Byte := 0x20

/-- `io_wait`. -/
def ioWait (p : Pics) : Pics := p.outb 0x80 0

/-- `pic_remap`. -/
def picRemap (p : Pics) : Pics :=
  let a1 := p.inb pic1Data
  let a2 := p.inb pic2Data
  let p := ioWait (p.outb pic1Command icw1)
  let p := ioWait (p.outb pic2Command icw1)
  let p := ioWait (p.outb pic1Data 0x20)
  let p := ioWait (p.outb pic2Data 0x28)
  let p := ioWait (p.outb pic1Data 4)
  let p := ioWait (p.outb pic2Data 2)
  let p := ioWait (p.outb pic1Data icw4)
  let p := ioWait (p.outb pic2Data icw4)
  let p := p.outb pic1Data a1
  p.outb pic2Data a2

/-- `pic_send_eoi`. -/
def picSendEoi (irq : UInt8) (p : Pics) : Pics :=
  let p := if irq ≥ 8 then p.outb pic2Command picEoi else p
  p.outb pic1Command picEoi

/-- `pic_get_mask`. -/
def picGetMask (p : Pics) : BitVec 16 := p.inb pic2Data ++ p.inb pic1Data

/-- `1u << irq`, as a byte. -/
def irqBit (irq : UInt8) : Byte := BitVec.ofNat 8 (1 <<< irq.toNat)

/-- The port and the bit that `pic_set_mask` and `pic_clear_mask` choose. -/
def maskPort (irq : UInt8) : Nat × UInt8 :=
  if irq < 8 then (pic1Data, irq) else (pic2Data, irq - 8)

/-- `pic_set_mask`. -/
def picSetMask (irq : UInt8) (p : Pics) : Pics :=
  let (port, irq) := maskPort irq
  p.outb port (p.inb port ||| irqBit irq)

/-- `pic_clear_mask`. -/
def picClearMask (irq : UInt8) (p : Pics) : Pics :=
  let (port, irq) := maskPort irq
  p.outb port (p.inb port &&& ~~~irqBit irq)

/-- `pic_disable`. -/
def picDisable (p : Pics) : Pics := (p.outb pic1Data 0xFF).outb pic2Data 0xFF

/-- What `k_main` does to the chips, up to `cpu_sti`. -/
def picInit (p : Pics) : Pics := picClearMask 1 (picClearMask 0 (picDisable (picRemap p)))

variable {p : Pics}

/-! ## Set up -/

/-- The chips as the kernel runs with them: nothing half done, the vectors from 0x20 and
    0x28 on, and a mask for each. -/
structure Ready (p : Pics) (imr1 imr2 : Byte) : Prop where
  init : p.master.init = .ready ∧ p.slave.init = .ready
  offset : p.master.offset = 0x20 ∧ p.slave.offset = 0x28
  imr : p.master.imr = imr1 ∧ p.slave.imr = imr2

/-- Nothing is in service. -/
def Pics.Idle (p : Pics) : Prop := ∀ n, p.master.isr n = false ∧ p.slave.isr n = false

/-- **REMAPPED**, whatever the chips were doing before: the masks survive. -/
theorem picRemap_ready (p : Pics) :
    Ready (picRemap p) p.master.imr p.slave.imr ∧ (picRemap p).Idle :=
  ⟨⟨⟨rfl, rfl⟩, ⟨rfl, rfl⟩, ⟨rfl, rfl⟩⟩, fun _ => ⟨rfl, rfl⟩⟩

/-- **AS `k_main` LEAVES THEM**: only lines 0 and 1 get through. -/
theorem picInit_ready (p : Pics) : Ready (picInit p) 0xFC 0xFF ∧ (picInit p).Idle :=
  ⟨⟨⟨rfl, rfl⟩, ⟨rfl, rfl⟩,
    ⟨show ((0xFF : Byte) &&& ~~~irqBit 0) &&& ~~~irqBit 1 = 0xFC by decide, rfl⟩⟩,
    fun _ => ⟨rfl, rfl⟩⟩

/-! ## The masks -/

/-- The chips with other masks. -/
def Pics.withMasks (p : Pics) (imr1 imr2 : Byte) : Pics :=
  ⟨{ p.master with imr := imr1 }, { p.slave with imr := imr2 }⟩

/-- Once the chips are set up, a byte for a data port is a mask. -/
theorem Pics.outb_data (hinit : p.master.init = .ready ∧ p.slave.init = .ready) (v : Byte) :
    p.outb pic1Data v = p.withMasks v p.slave.imr
      ∧ p.outb pic2Data v = p.withMasks p.master.imr v := by
  obtain ⟨hmaster, hslave⟩ := hinit
  constructor
  · show ({ p with master := p.master.data v } : Pics) = _
    simp only [Pic.data, hmaster, Pics.withMasks]
  · show ({ p with slave := p.slave.data v } : Pics) = _
    simp only [Pic.data, hslave, Pics.withMasks]

/-- The calls of `pic.h` that change masks. -/
inductive MaskCall where
  | set (irq : UInt8)
  | clear (irq : UInt8)
  | disable

def MaskCall.run : MaskCall → Pics → Pics
  | .set irq => picSetMask irq
  | .clear irq => picClearMask irq
  | .disable => picDisable

/-- What a call does to one line, which is masked or not. -/
def MaskCall.line (line : Fin 16) : Bool → MaskCall → Bool
  | masked, .set irq => if irq.toNat = line then true else masked
  | masked, .clear irq => if irq.toNat = line then false else masked
  | _, .disable => true

/-- The call names a line. -/
def MaskCall.Named : MaskCall → Prop
  | .set irq | .clear irq => irq < 16
  | .disable => True

/-- The bit of a line is the bit of one chip. -/
theorem picGetMask_bit (p : Pics) (line : Fin 16) :
    (picGetMask p).getLsbD line
      = if line.val < 8 then p.master.imr.getLsbD line else p.slave.imr.getLsbD (line - 8) := by
  show (p.slave.imr ++ p.master.imr).getLsbD line = _
  rw [BitVec.getLsbD_append]

/-- The bit of a line in its byte. -/
theorem irqBit_bit (irq : UInt8) (hirq : irq < 8) (i : Nat) :
    (irqBit irq).getLsbD i = decide (irq.toNat = i) := by
  rw [irqBit, BitVec.getLsbD_ofNat, Nat.shiftLeft_eq, Nat.one_mul, Nat.testBit_two_pow]
  have hlt : irq.toNat < 8 := hirq
  by_cases hi : irq.toNat = i
  · rw [decide_eq_true hi, ← hi, decide_eq_true hlt]
    rfl
  · rw [decide_eq_false hi, Bool.and_false]

/-- **ONE LINE'S BIT** is changed in the byte of its chip: `f` works bit by bit, as `g`
    does, and a 0 of the other byte changes nothing. -/
theorem maskPort_spec (hinit : p.master.init = .ready ∧ p.slave.init = .ready) {irq : UInt8}
    (hirq : irq < 16) {f : Byte → Byte → Byte} {g : Bool → Bool → Bool}
    (hbits : ∀ a b i, i < 8 → (f a b).getLsbD i = g (a.getLsbD i) (b.getLsbD i))
    (hkeep : ∀ b, g b false = b) :
    ∃ imr1 imr2, p.outb (maskPort irq).1
        (f (p.inb (maskPort irq).1) (irqBit (maskPort irq).2)) = p.withMasks imr1 imr2
      ∧ ∀ line : Fin 16, (picGetMask (p.withMasks imr1 imr2)).getLsbD line
        = g ((picGetMask p).getLsbD line) (decide (irq.toNat = line)) := by
  by_cases hmaster : irq < 8
  · have hlt : irq.toNat < 8 := hmaster
    rw [maskPort, if_pos hmaster]
    refine ⟨_, _, (p.outb_data hinit _).1, fun line => ?_⟩
    rw [picGetMask_bit, picGetMask_bit]
    by_cases hline : line.val < 8
    · rw [if_pos hline, if_pos hline, ← irqBit_bit irq hmaster]
      exact hbits _ _ _ hline
    · rw [if_neg hline, if_neg hline, decide_eq_false (by omega), hkeep]
      rfl
  · have hge : 8 ≤ irq.toNat := Nat.not_lt.mp hmaster
    have hsub : (irq - 8).toNat = irq.toNat - 8 :=
      UInt8.toNat_sub_of_le _ _ (UInt8.le_iff_toNat_le.mpr hge)
    have hslave : irq - 8 < 8 := by
      have hlt : irq.toNat < 16 := hirq
      rw [UInt8.lt_iff_toNat_lt, hsub]
      exact show irq.toNat - 8 < 8 by omega
    rw [maskPort, if_neg hmaster]
    refine ⟨_, _, (p.outb_data hinit _).2, fun line => ?_⟩
    rw [picGetMask_bit, picGetMask_bit]
    by_cases hline : line.val < 8
    · rw [if_pos hline, if_pos hline, decide_eq_false (by omega), hkeep]
      rfl
    · have hbit : decide (irq.toNat = line.val) = (irqBit (irq - 8)).getLsbD (line.val - 8) := by
        rw [irqBit_bit _ hslave, hsub]
        exact decide_eq_decide.mpr ⟨fun h => by omega, fun h => by omega⟩
      rw [if_neg hline, if_neg hline, hbit]
      exact hbits _ _ _ (by omega)

/-- **ONE CALL** changes the masks of the lines it names, and nothing else of the chips. -/
theorem MaskCall.run_spec (hinit : p.master.init = .ready ∧ p.slave.init = .ready)
    {call : MaskCall} (hcall : call.Named) :
    ∃ imr1 imr2, call.run p = p.withMasks imr1 imr2
      ∧ ∀ line : Fin 16, (picGetMask (call.run p)).getLsbD line
        = MaskCall.line line ((picGetMask p).getLsbD line) call := by
  cases call with
  | set irq =>
    obtain ⟨imr1, imr2, hrun, hbits⟩ := maskPort_spec hinit hcall (f := (· ||| ·))
      (g := fun a b => if b then true else a)
      (fun a b i _ => by
        rw [BitVec.getLsbD_or]
        cases b.getLsbD i <;> simp)
      (fun b => rfl)
    refine ⟨imr1, imr2, hrun, fun line => ?_⟩
    rw [show MaskCall.run (.set irq) p = p.withMasks imr1 imr2 from hrun, hbits line]
    simp only [MaskCall.line, decide_eq_true_eq]
  | clear irq =>
    obtain ⟨imr1, imr2, hrun, hbits⟩ := maskPort_spec hinit hcall (f := fun a b => a &&& ~~~b)
      (g := fun a b => if b then false else a)
      (fun a b i hi => by
        rw [BitVec.getLsbD_and, BitVec.getLsbD_not, decide_eq_true hi]
        cases b.getLsbD i <;> simp)
      (fun b => rfl)
    refine ⟨imr1, imr2, hrun, fun line => ?_⟩
    rw [show MaskCall.run (.clear irq) p = p.withMasks imr1 imr2 from hrun, hbits line]
    simp only [MaskCall.line, decide_eq_true_eq]
  | disable =>
    have hrun : picDisable p = p.withMasks 0xFF 0xFF := by
      have hinit' : (p.withMasks 0xFF p.slave.imr).master.init = .ready
          ∧ (p.withMasks 0xFF p.slave.imr).slave.init = .ready := hinit
      rw [picDisable, (p.outb_data hinit _).1, (Pics.outb_data hinit' _).2]
      rfl
    refine ⟨0xFF, 0xFF, hrun, fun line => ?_⟩
    rw [show MaskCall.run .disable p = p.withMasks 0xFF 0xFF from hrun]
    show ((0xFF : Byte) ++ (0xFF : Byte)).getLsbD line = true
    revert line
    decide

/-- The chips set up, with nothing half done. -/
theorem withMasks_init (hinit : p.master.init = .ready ∧ p.slave.init = .ready)
    (imr1 imr2 : Byte) :
    (p.withMasks imr1 imr2).master.init = .ready ∧ (p.withMasks imr1 imr2).slave.init = .ready :=
  hinit

/-- **THE MASKS ARE A SET OF LINES**: over any sequence of calls that name lines, a line is
    masked as the last call that named it left it, or as it was, and nothing but the masks
    of the chips changes. -/
theorem pic_masks_run (p : Pics) (hinit : p.master.init = .ready ∧ p.slave.init = .ready) :
    ∀ calls : List MaskCall, (∀ call ∈ calls, call.Named) →
      (∃ imr1 imr2, calls.foldl (fun p call => call.run p) p = p.withMasks imr1 imr2)
      ∧ ∀ line : Fin 16,
        (picGetMask (calls.foldl (fun p call => call.run p) p)).getLsbD line
          = calls.foldl (MaskCall.line line) ((picGetMask p).getLsbD line) := by
  intro calls
  induction calls generalizing p with
  | nil => exact fun _ => ⟨⟨_, _, rfl⟩, fun _ => rfl⟩
  | cons call calls ih =>
    intro hnamed
    obtain ⟨hfirst, hrest⟩ := List.forall_mem_cons.mp hnamed
    obtain ⟨imr1, imr2, hrun, hbits⟩ := MaskCall.run_spec hinit hfirst
    obtain ⟨⟨imr1', imr2', hall⟩, hlines⟩ :=
      ih (call.run p) (by rw [hrun]; exact withMasks_init hinit imr1 imr2) hrest
    refine ⟨⟨imr1', imr2', ?_⟩, fun line => ?_⟩
    · rw [List.foldl_cons, hall, hrun]
      rfl
    · rw [List.foldl_cons, List.foldl_cons, hlines line, hbits line]

/-- The calls of the boot, after `pic_remap` on chips with nothing masked: line 1 ends open
    and line 5 masked. -/
theorem pic_masks_run_boot :
    let p : Pics := ⟨⟨fun _ => false, fun _ => false, 0, 8, .ready⟩,
      ⟨fun _ => false, fun _ => false, 0, 0x70, .ready⟩⟩
    (picGetMask (picInit p)).getLsbD 1 = false ∧ (picGetMask (picInit p)).getLsbD 5 = true := by
  intro p
  obtain ⟨-, hlines⟩ := pic_masks_run (picRemap p) ⟨rfl, rfl⟩ [.disable, .clear 0, .clear 1]
    (by simp [MaskCall.Named])
  exact ⟨(hlines ⟨1, by decide⟩).trans (by decide), (hlines ⟨5, by decide⟩).trans (by decide)⟩

/-! ## One interrupt after the other -/

/-- What a chip asks for with nothing in service and only lines 0 and 1 let through. -/
theorem request_idle (hisr : ∀ n, p.master.isr n = false) (himr : p.master.imr = 0xFC)
    (irr : Fin 8 → Bool) :
    ({ p.master with irr := irr } : Pic).request
      = if irr 0 then some 0 else if irr 1 then some 1 else none := by
  have hmask : ∀ n : Fin 8, (0xFC : Byte).getLsbD n = decide (2 ≤ n.val) := by decide
  have hfind : ∀ f : Fin 8 → Bool, (∀ n, f n = (irr n && decide (n.val < 2))) →
      (List.finRange 8).find? f = if irr 0 then some 0 else if irr 1 then some 1 else none := by
    intro f hf
    rw [show List.finRange 8 = [0, 1, 2, 3, 4, 5, 6, 7] by decide]
    simp only [List.find?, hf]
    cases irr 0 <;> cases irr 1 <;> simp
  refine hfind _ fun n => ?_
  have hnone : (List.finRange 8).all (fun j => !(decide (j ≤ n) && p.master.isr j)) = true := by
    simp [hisr]
  rw [hnone, Bool.and_true, himr, hmask]
  by_cases hlow : n.val < 2
  · rw [decide_eq_true hlow, decide_eq_false (by omega)]
    rfl
  · rw [decide_eq_false hlow, decide_eq_true (by omega)]
    rfl

/-- **WHAT THE PROCESSOR IS GIVEN**: the timer before the keyboard, and nothing else. -/
theorem acknowledge_ready (h : Ready p 0xFC 0xFF) (hidle : p.Idle) :
    p.acknowledge
      = if p.master.irr 0 then some (32, { p with master := p.master.acknowledge 0 })
        else if p.master.irr 1 then some (33, { p with master := p.master.acknowledge 1 })
        else none := by
  have hmaster := request_idle (p := p) (fun n => (hidle n).1) h.imr.1
    (fun n => if n = 2 then p.slave.request.isSome else p.master.irr n)
  have hoffset : p.master.offset.toNat = 32 := by
    rw [h.offset.1]
    rfl
  rw [Pics.acknowledge, Pics.cascaded, hmaster]
  by_cases htimer : p.master.irr 0
  · simp [htimer, hoffset]
  · by_cases hkey : p.master.irr 1
    · simp [htimer, hkey, hoffset]
    · simp [htimer, hkey]

/-- **THE END OF THE INTERRUPT**: the line is out of service, and no longer latched. -/
theorem picSendEoi_acknowledge (hidle : p.Idle) (n : Fin 8) (irq : UInt8) (hirq : irq < 8) :
    picSendEoi irq { p with master := p.master.acknowledge n }
      = { p with master := { p.master with irr := Function.update p.master.irr n false } } := by
  have hisr : p.master.isr = fun _ => false := funext fun j => (hidle j).1
  have hserved : (p.master.acknowledge n).served = some n := by
    show (List.finRange 8).find? (Function.update p.master.isr n true) = some n
    rw [hisr]
    revert n
    decide
  have hback : Function.update (p.master.acknowledge n).isr n false = p.master.isr := by
    show Function.update (Function.update p.master.isr n true) n false = _
    rw [Function.update_idem, ← (hidle n).1, Function.update_eq_self]
  have hlow : ¬ irq ≥ 8 := UInt8.not_le.mpr hirq
  rw [picSendEoi, if_neg hlow]
  show ({ p with master := (p.master.acknowledge n).command picEoi } : Pics) = _
  rw [Pic.command, if_neg (by decide), if_pos (by decide), hserved]
  simp only [hback]
  rfl

/-- With nothing in service the end of an interrupt ends nothing. -/
theorem picSendEoi_idle (hidle : p.Idle) (irq : UInt8) (hirq : irq < 8) :
    picSendEoi irq p = p := by
  have hserved : p.master.served = none := by
    rw [Pic.served, List.find?_eq_none]
    intro n _
    rw [(hidle n).1]
    exact Bool.false_ne_true
  have hlow : ¬ irq ≥ 8 := UInt8.not_le.mpr hirq
  rw [picSendEoi, if_neg hlow]
  show ({ p with master := p.master.command picEoi } : Pics) = _
  rw [Pic.command, if_neg (by decide), if_pos (by decide), hserved]

end PyramidPic
