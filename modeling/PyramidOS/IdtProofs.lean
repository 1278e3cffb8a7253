import PyramidOS.ByteMemoryProofs

/-! # The interrupt descriptor table

    `idt_init` fills 256 entries of a packed structure with stores of 16 and of 8 bits;
    the processor reads each entry as two words.

    * `gateAt_idtSetGate` — an entry reads back, and the others stay;
    * `idtInit_gate` — the table that `idt_init` leaves: the 48 handlers of
      `idt_asm.asm`, and no others. -/

namespace PyramidInterrupt

open ByteMem

/-! ## The table -/

/-- The addresses of `isr0` to `isr31` and `irq0` to `irq15`: the linker gives each
    function one of its own. -/
structure Symbols where
  isr : Nat → UInt32
  irq : Nat → UInt32

/-- The function that `idt_init` installs for a vector. -/
def Symbols.handler (s : Symbols) (v : Nat) : UInt32 := if v < 32 then s.isr v else s.irq (v - 32)

/-- No two of the 48 functions share an address. -/
def Symbols.Distinct (s : Symbols) : Prop :=
  ∀ v < 48, ∀ w < 48, s.handler v = s.handler w → v = w

/-- `idt_set_gate`, on the table at `idt`. -/
def idtSetGate (m : Mem) (idt n : Nat) (handler : UInt32) (selector type : Nat) : Mem :=
  let m := m.store16 (idt + 8 * n) (handler.toNat &&& 0xFFFF)
  let m := m.store16 (idt + 8 * n + 2) selector
  let m := m.store8 (idt + 8 * n + 4) 0
  let m := m.store8 (idt + 8 * n + 5) (BitVec.ofNat 8 type)
  m.store16 (idt + 8 * n + 6) (handler.toNat >>> 16 &&& 0xFFFF)

/-- Step 1 of `idt_init`: every entry is cleared. -/
def idtClear (m : Mem) (idt : Nat) : Mem :=
  (List.range 256).foldl (fun m n => idtSetGate m idt n 0 0x08 0) m

/-- `idt_init`: steps 2 and 3 are one call for each vector. -/
def idtInit (s : Symbols) (m : Mem) (idt : Nat) : Mem :=
  (List.range 48).foldl (fun m n => idtSetGate m idt n (s.handler n) 0x08 0x8E) (idtClear m idt)

/-- An entry, as the processor takes it apart. -/
structure Gate where
  offset : Nat
  selector : Nat
  typeAttr : Nat
deriving DecidableEq

/-- Entry `n` of the table at `idt`. -/
def gateAt (m : Mem) (idt n : Nat) : Gate where
  offset := m.load16 (idt + 8 * n) + 2 ^ 16 * m.load16 (idt + 8 * n + 6)
  selector := m.load16 (idt + 8 * n + 2)
  typeAttr := m.load8 (idt + 8 * n + 5)

variable {m m' : Mem} {idt n k : Nat} {s : Symbols} {handler : UInt32}

/-! ## One entry -/

/-- An entry is its eight bytes. -/
theorem gateAt_congr (h : ∀ x, idt + 8 * n ≤ x → x < idt + 8 * n + 8 → m'.byte x = m.byte x) :
    gateAt m' idt n = gateAt m idt n := by
  rw [gateAt, gateAt, load16_congr fun x hlow hhigh => h x hlow (by omega),
    load16_congr fun x hlow hhigh => h x (by omega) (by omega),
    load16_congr fun x hlow hhigh => h x (by omega) (by omega),
    load8_congr (h _ (by omega) (by omega))]

/-- **ONE ENTRY** reads back as the handler, the selector and the type it was given. -/
theorem gateAt_idtSetGate (m : Mem) (idt n : Nat) (handler : UInt32) {selector type : Nat}
    (hselector : selector < 2 ^ 16) (htype : type < 2 ^ 8) :
    gateAt (idtSetGate m idt n handler selector type) idt n
      = ⟨handler.toNat, selector, type⟩ := by
  have hhandler := handler.toNat_lt
  have hlow : handler.toNat &&& 0xFFFF = handler.toNat % 2 ^ 16 :=
    Nat.and_two_pow_sub_one_eq_mod _ 16
  have hhigh : handler.toNat >>> 16 &&& 0xFFFF = handler.toNat / 2 ^ 16 % 2 ^ 16 := by
    rw [Nat.shiftRight_eq_div_pow]
    exact Nat.and_two_pow_sub_one_eq_mod _ 16
  rw [gateAt, idtSetGate, hlow, hhigh]
  congr 1
  · rw [load16_store16_self, load16_store16_ne (by omega), load16_store8_ne (by omega),
      load16_store8_ne (by omega), load16_store16_ne (by omega), load16_store16_self]
    omega
  · rw [load16_store16_ne (by omega), load16_store8_ne (by omega), load16_store8_ne (by omega),
      load16_store16_self, Nat.mod_eq_of_lt hselector]
  · rw [load8_store16_ne (by omega), load8_store8_self, BitVec.toNat_ofNat,
      Nat.mod_eq_of_lt htype]

/-- The other entries stay. -/
theorem gateAt_idtSetGate_ne (m : Mem) (idt : Nat) (handler : UInt32) (selector type : Nat)
    (hk : k ≠ n) :
    gateAt (idtSetGate m idt n handler selector type) idt k = gateAt m idt k := by
  refine gateAt_congr fun x hlow hhigh => ?_
  rw [idtSetGate, byte_store16_outside (by omega), byte_store8_ne (by omega),
    byte_store8_ne (by omega), byte_store16_outside (by omega), byte_store16_outside (by omega)]

/-! ## The loops -/

/-- **A RUN OF CALLS**, by induction on their number: the entries of the vectors called
    for are set, the others stay. -/
theorem gateAt_foldl (idt : Nat) (f : Nat → UInt32) {selector type : Nat}
    (hselector : selector < 2 ^ 16) (htype : type < 2 ^ 8) (m : Mem) (k : Nat) :
    ∀ count, gateAt ((List.range count).foldl
        (fun m n => idtSetGate m idt n (f n) selector type) m) idt k
      = if k < count then ⟨(f k).toNat, selector, type⟩ else gateAt m idt k := by
  intro count
  induction count with
  | zero => rfl
  | succ count ih =>
    rw [List.range_succ, List.foldl_append, List.foldl_cons, List.foldl_nil]
    by_cases hlast : k = count
    · rw [hlast, gateAt_idtSetGate _ _ _ _ hselector htype, if_pos (Nat.lt_succ_self _)]
    · rw [gateAt_idtSetGate_ne _ _ _ _ _ hlast, ih]
      by_cases hk : k < count
      · rw [if_pos hk, if_pos (by omega)]
      · rw [if_neg hk, if_neg (by omega)]

/-- **THE TABLE**: each of the 48 vectors has its handler, behind a gate that is present and
    switches interrupts off; the rest have none. -/
theorem idtInit_gate (s : Symbols) (m : Mem) (idt : Nat) {v : Nat} (hv : v < 256) :
    gateAt (idtInit s m idt) idt v
      = if v < 48 then ⟨(s.handler v).toNat, 0x08, 0x8E⟩ else ⟨0, 0x08, 0⟩ := by
  rw [idtInit, gateAt_foldl _ _ (by decide) (by decide), idtClear,
    gateAt_foldl _ (fun _ => 0) (by decide) (by decide), if_pos hv]
  rfl

end PyramidInterrupt
