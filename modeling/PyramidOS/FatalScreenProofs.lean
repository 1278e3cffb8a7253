import PyramidOS.RtlTextProofs
import PyramidOS.StringProofs

/-! # The checksum error screen

    The failure path of `ui_checksum_verify` shows the expected and the actual checksum
    in hexadecimal.  The value comes in EAX and the x coordinate in AX, its low half; and
    the routines below pass digits in AL and x in AX.

    * `gfxWriteHexNibbleLtr_eq`, `gfxWriteHex8Ltr_eq`, `gfxWriteHex32Ltr_eq` — what they
      draw, in terms of the coordinate alone;
    * `fatal_rows` — the screen is the same for all checksums;
    * `fatal_screen_never` — it never shows two that differ. -/

namespace PyramidBoot

open PyramidKernel PyramidString

/-! ## Registers and the screen -/

/-- A call of `gfx_draw_glyph_8x16`: BH, AX, DX and BL. -/
structure Glyph where
  glyph : UInt8
  x : UInt16
  y : UInt16
  color : UInt8
deriving DecidableEq

/-- The registers of the text routines, by the parts that are named in them, with SI as
    the offset in a variable; `tmp_dword`; and the glyphs on the screen, in the order
    they were drawn. -/
structure GfxRegs where
  eaxHigh : UInt16
  ah : UInt8
  al : UInt8
  bh : UInt8
  bl : UInt8
  dx : UInt16
  si : Nat
  di : UInt16
  tmpDword : UInt32
  screen : List Glyph

namespace GfxRegs

def ax (r : GfxRegs) : UInt16 := r.ah.toUInt16 * 256 + r.al.toUInt16
def eax (r : GfxRegs) : UInt32 := r.eaxHigh.toUInt32 * 65536 + r.ax.toUInt32
def setAx (r : GfxRegs) (v : UInt16) : GfxRegs :=
  { r with ah := (v / 256).toUInt8, al := v.toUInt8 }
def setEax (r : GfxRegs) (v : UInt32) : GfxRegs :=
  { r with eaxHigh := (v / 65536).toUInt16 }.setAx v.toUInt16

/-- `mov ax, x`, `mov dx, y` and `mov bl, color`. -/
def place (r : GfxRegs) (x y : UInt16) (color : UInt8) : GfxRegs :=
  { r.setAx x with dx := y, bl := color }

/-- `gfx_draw_glyph_8x16`, which keeps the registers. -/
def gfxDrawGlyph (r : GfxRegs) : GfxRegs :=
  { r with screen := r.screen ++ [⟨r.bh, r.ax, r.dx, r.bl⟩] }

end GfxRegs

/-! ## The routines -/

/-- `gfx_write_hex_nibble_ltr`. -/
def gfxWriteHexNibbleLtr (r : GfxRegs) : GfxRegs :=
  let r := if r.al ≤ 9 then { r with al := r.al + 0x30 } else { r with al := r.al + (0x41 - 10) }
  let r := { r with bh := r.al }
  let r := r.setAx r.di
  let r := r.gfxDrawGlyph
  { r with di := r.di + 8 }

/-- `gfx_write_hex8_ltr`. -/
def gfxWriteHex8Ltr (r : GfxRegs) : GfxRegs :=
  let saved := r
  let r := { r with di := r.ax }
  let r := { r with ah := r.al }
  let r := { r with al := r.ah }
  let r := { r with al := r.al >>> 4 }
  let r := gfxWriteHexNibbleLtr r
  let r := { r with al := r.ah }
  let r := { r with al := r.al &&& 0x0F }
  let r := gfxWriteHexNibbleLtr r
  let r := r.setAx r.di
  { r with di := saved.di, dx := saved.dx, bh := saved.bh, bl := saved.bl }

/-- `.loop` of `gfx_write_hex32_ltr`, with CX turns left. -/
def hex32Loop : Nat → GfxRegs → GfxRegs
  | 0, r => r
  | cx + 1, r =>
      let r := { r with al := (r.tmpDword >>> (8 * UInt32.ofNat r.si)).toUInt8 }
      let r := r.setAx r.di
      let r := gfxWriteHex8Ltr r
      let r := { r with di := r.ax }
      hex32Loop cx { r with si := r.si - 1 }

/-- `gfx_write_hex32_ltr`. -/
def gfxWriteHex32Ltr (r : GfxRegs) : GfxRegs :=
  let saved := r
  let r := { r with tmpDword := r.eax }
  let r := { r with di := r.ax }
  let r := hex32Loop 4 { r with si := 3 }
  let r := r.setAx r.di
  { r with di := saved.di, si := saved.si, dx := saved.dx, bh := saved.bh, bl := saved.bl }

/-- `.loop` of `gfx_write_ascii_ltr`, over the characters from SI on. -/
def asciiLoop : List UInt8 → GfxRegs → GfxRegs
  | [], r => r
  | al :: rest, r =>
      if al = 0 then r
      else
        let r := { r with al := al, bh := al }
        let r := r.setAx r.di
        let r := r.gfxDrawGlyph
        asciiLoop rest { r with di := r.di + 8 }

/-- `gfx_write_ascii_ltr`. -/
def gfxWriteAsciiLtr (s : List UInt8) (r : GfxRegs) : GfxRegs :=
  { r with screen := (asciiLoop s { r with di := r.ax }).screen }

/-- `gfx_write_u16_rtl`, which keeps the registers. -/
def gfxWriteU16 (s : List UInt16) (r : GfxRegs) : Except Halt GfxRegs :=
  (gfxWriteU16Rtl s r.dx r.bl r.ax).map fun t =>
    { r with screen := r.screen ++ t.draws.map fun d => ⟨d.glyph, d.x, d.y, d.color⟩ }

/-! ## The failure path -/

/-- `UI_GFX_RIGHT_X`, `GFX_TEXT_COLOR` and `GFX_DIM_COLOR`. -/
def uiGfxRightX : UInt16 := 312
def gfxTextColor : UInt8 := 0x0F
def gfxDimColor : UInt8 := 0x08

def msgArErrChecksum : List UInt16 :=
  [0x0641, 0x0634, 0x0644, 0x0020, 0x0641, 0x062D, 0x0635, 0x0020, 0x0633, 0x0644, 0x0627, 0x0645,
    0x0629, 0x0020, 0x0627, 0x0644, 0x0646, 0x0648, 0x0627, 0x0629, 0x0000]
def msgArExpected : List UInt16 :=
  [0x0627, 0x0644, 0x0645, 0x062A, 0x0648, 0x0642, 0x0639, 0x003A, 0x0000]
def msgArActual : List UInt16 :=
  [0x0627, 0x0644, 0x062D, 0x0642, 0x064A, 0x0642, 0x064A, 0x003A, 0x0000]
def msgArHalt : List UInt16 :=
  [0x062A, 0x0645, 0x0020, 0x0627, 0x0644, 0x0625, 0x064A, 0x0642, 0x0627, 0x0641, 0x002E, 0x0000]
def msgAscii0x : List UInt8 := chars "0x"

/-- `.fatal` of `ui_checksum_verify`, up to the halt, with `kernel_checksum_expected` and
    `kernel_checksum_actual`.  `ui_fatal_prepare` clears the screen. -/
def uiChecksumFatal (expected actual : UInt32) (r : GfxRegs) : Except Halt GfxRegs := do
  let r := { r with screen := [] }
  let r ← gfxWriteU16 msgArErrChecksum (r.place uiGfxRightX 64 0x0C)
  let r ← gfxWriteU16 msgArExpected (r.place uiGfxRightX 96 gfxDimColor)
  let r := gfxWriteAsciiLtr msgAscii0x (r.place 8 96 gfxTextColor)
  let r := gfxWriteHex32Ltr ((r.setEax expected).place 24 96 gfxTextColor)
  let r ← gfxWriteU16 msgArActual (r.place uiGfxRightX 112 gfxDimColor)
  let r := gfxWriteAsciiLtr msgAscii0x (r.place 8 112 gfxTextColor)
  let r := gfxWriteHex32Ltr ((r.setEax actual).place 24 112 gfxTextColor)
  gfxWriteU16 msgArHalt (r.place uiGfxRightX 144 gfxDimColor)

/-! ## The claim -/

/-- An upper-case hexadecimal digit. -/
def hexChar (n : Nat) : UInt8 := if n ≤ 9 then UInt8.ofNat (48 + n) else UInt8.ofNat (55 + n)

/-- Digit `k` of eight, the most significant first. -/
def hexDigit (v : UInt32) (k : Nat) : UInt8 := hexChar (v.toNat / 16 ^ (7 - k) % 16)

/-- Row `y` shows the eight digits of `v` at x = 24, 32, …, 80. -/
def ShowsHex (screen : List Glyph) (v : UInt32) (y : UInt16) : Prop :=
  ∀ k < 8, ∃ g ∈ screen, g.glyph = hexDigit v k ∧ g.x = UInt16.ofNat (24 + 8 * k) ∧ g.y = y

variable {r : GfxRegs} {v x y : UInt16} {color : UInt8}

/-! ## Coordinates -/

/-- AX is what its halves were set to. -/
@[simp] theorem GfxRegs.ax_setAx (r : GfxRegs) (v : UInt16) : (r.setAx v).ax = v := by
  have hv := v.toNat_lt
  refine UInt16.toNat_inj.mp ?_
  simp [ax, setAx]
  omega

@[simp] theorem GfxRegs.screen_setAx (r : GfxRegs) (v : UInt16) :
    (r.setAx v).screen = r.screen := rfl
@[simp] theorem GfxRegs.dx_setAx (r : GfxRegs) (v : UInt16) : (r.setAx v).dx = r.dx := rfl
@[simp] theorem GfxRegs.bl_setAx (r : GfxRegs) (v : UInt16) : (r.setAx v).bl = r.bl := rfl

/-! ## The hexadecimal routines -/

/-- The character of AL. -/
def nibbleChar (al : UInt8) : UInt8 := if al ≤ 9 then al + 0x30 else al + (0x41 - 10)

/-- The nibble leaves x in AX. -/
theorem gfxWriteHexNibbleLtr_eq (r : GfxRegs) :
    gfxWriteHexNibbleLtr r = { r.setAx r.di with
      bh := nibbleChar r.al, di := r.di + 8
      screen := r.screen ++ [⟨nibbleChar r.al, r.di, r.dx, r.bl⟩] } := by
  have hal : (if r.al ≤ 9 then { r with al := r.al + 0x30 }
      else { r with al := r.al + (0x41 - 10) }) = { r with al := nibbleChar r.al } := by
    rw [nibbleChar]
    split
    · rfl
    · rfl
  rw [gfxWriteHexNibbleLtr, hal]
  simp only [GfxRegs.gfxDrawGlyph, GfxRegs.ax_setAx]
  rfl

/-- What a byte with x in AX looks like: the low half of x was in AL, and the high half
    is in AH when the second digit is taken from there. -/
def hex8Glyphs (x y : UInt16) (color : UInt8) : List Glyph :=
  [⟨nibbleChar (x.toUInt8 >>> 4), x, y, color⟩,
    ⟨nibbleChar ((x / 256).toUInt8 &&& 0x0F), x + 8, y, color⟩]

/-- **TWO DIGITS** of the coordinate, whatever AL held before x was put into AX. -/
theorem gfxWriteHex8Ltr_eq (r : GfxRegs) (x : UInt16) :
    gfxWriteHex8Ltr (r.setAx x) = { r.setAx (x + 8 + 8) with
      screen := r.screen ++ hex8Glyphs x r.dx r.bl } := by
  have hax := GfxRegs.ax_setAx r x
  rw [GfxRegs.setAx] at hax
  rw [gfxWriteHex8Ltr]
  simp only [gfxWriteHexNibbleLtr_eq, GfxRegs.setAx, hax, List.append_assoc, List.cons_append,
    List.nil_append, hex8Glyphs]

/-- The digits of `n` bytes from x on. -/
def hexGlyphs : Nat → UInt16 → UInt16 → UInt8 → List Glyph
  | 0, _, _, _ => []
  | n + 1, x, y, color => hex8Glyphs x y color ++ hexGlyphs n (x + 8 + 8) y color

/-- The loop, by induction on the bytes left. -/
theorem hex32Loop_screen (n : Nat) (r : GfxRegs) :
    (hex32Loop n r).screen = r.screen ++ hexGlyphs n r.di r.dx r.bl := by
  induction n generalizing r with
  | zero => exact (List.append_nil _).symm
  | succ n ih =>
    rw [hex32Loop, ih]
    simp only [gfxWriteHex8Ltr_eq, hexGlyphs, List.append_assoc, GfxRegs.dx_setAx,
      GfxRegs.bl_setAx]
    congr 3
    exact GfxRegs.ax_setAx r (r.di + 8 + 8)

/-- **EIGHT DIGITS** of the coordinate, in place of the value. -/
theorem gfxWriteHex32Ltr_screen (r : GfxRegs) (x y : UInt16) (color : UInt8) :
    (gfxWriteHex32Ltr (r.place x y color)).screen = r.screen ++ hexGlyphs 4 x y color := by
  simp only [gfxWriteHex32Ltr, GfxRegs.screen_setAx, hex32Loop_screen]
  exact congrArg (fun v => r.screen ++ hexGlyphs 4 v y color) (GfxRegs.ax_setAx r x)

/-! ## The texts -/

def asciiGlyphs : List UInt8 → UInt16 → UInt16 → UInt8 → List Glyph
  | [], _, _, _ => []
  | al :: rest, x, y, color =>
      if al = 0 then [] else ⟨al, x, y, color⟩ :: asciiGlyphs rest (x + 8) y color

theorem asciiLoop_screen (s : List UInt8) (r : GfxRegs) :
    (asciiLoop s r).screen = r.screen ++ asciiGlyphs s r.di r.dx r.bl := by
  induction s generalizing r with
  | nil => exact (List.append_nil _).symm
  | cons al rest ih =>
    rw [asciiLoop, asciiGlyphs]
    by_cases hnull : al = 0
    · rw [if_pos hnull, if_pos hnull, List.append_nil]
    · rw [if_neg hnull, if_neg hnull, ih]
      simp only [GfxRegs.gfxDrawGlyph, GfxRegs.ax_setAx, List.append_assoc]
      rfl

theorem gfxWriteAsciiLtr_screen (s : List UInt8) (r : GfxRegs) (x y : UInt16) (color : UInt8) :
    (gfxWriteAsciiLtr s (r.place x y color)).screen = r.screen ++ asciiGlyphs s x y color := by
  have hax : (r.place x y color).ax = x := GfxRegs.ax_setAx r x
  simp only [gfxWriteAsciiLtr, asciiLoop_screen, hax]
  rfl

/-- What `gfx_write_u16_rtl` draws. -/
def rtlGlyphs (s : List UInt16) (x y : UInt16) (color : UInt8) : List Glyph :=
  match gfxWriteU16Rtl s y color x with
  | .ok t => t.draws.map fun d => ⟨d.glyph, d.x, d.y, d.color⟩
  | .error _ => []

/-- It returns for every string. -/
theorem gfxWriteU16_ok (s : List UInt16) (r : GfxRegs) (x y : UInt16) (color : UInt8) :
    ∃ r', gfxWriteU16 s (r.place x y color) = .ok r'
      ∧ r'.screen = r.screen ++ rtlGlyphs s x y color := by
  have hax : (r.place x y color).ax = x := GfxRegs.ax_setAx r x
  obtain ⟨t, hok, -⟩ := gfxWriteU16Rtl_spec s x y color
  rw [gfxWriteU16, hax, rtlGlyphs, hok]
  exact ⟨_, congrArg (Except.map _) hok, rfl⟩

/-! ## The screen -/

/-- A value with x = 24 on row `y`, behind its prefix and its label. -/
def valueRow (label : List UInt16) (y : UInt16) : List Glyph :=
  rtlGlyphs label uiGfxRightX y gfxDimColor ++ asciiGlyphs msgAscii0x 8 y gfxTextColor
    ++ hexGlyphs 4 24 y gfxTextColor

/-- The glyphs of the error screen. -/
def fatalGlyphs : List Glyph :=
  rtlGlyphs msgArErrChecksum uiGfxRightX 64 0x0C ++ valueRow msgArExpected 96
    ++ valueRow msgArActual 112 ++ rtlGlyphs msgArHalt uiGfxRightX 144 gfxDimColor

/-- **THE SCREEN IS THE SAME** for all checksums. -/
theorem uiChecksumFatal_screen (expected actual : UInt32) (r : GfxRegs) :
    ∃ r', uiChecksumFatal expected actual r = .ok r' ∧ r'.screen = fatalGlyphs := by
  obtain ⟨r1, hok1, hscreen1⟩ :=
    gfxWriteU16_ok msgArErrChecksum { r with screen := [] } uiGfxRightX 64 0x0C
  obtain ⟨r2, hok2, hscreen2⟩ := gfxWriteU16_ok msgArExpected r1 uiGfxRightX 96 gfxDimColor
  obtain ⟨r3, hok3, hscreen3⟩ := gfxWriteU16_ok msgArActual
    (gfxWriteHex32Ltr (((gfxWriteAsciiLtr msgAscii0x (r2.place 8 96 gfxTextColor)).setEax
      expected).place 24 96 gfxTextColor)) uiGfxRightX 112 gfxDimColor
  obtain ⟨r4, hok4, hscreen4⟩ := gfxWriteU16_ok msgArHalt
    (gfxWriteHex32Ltr (((gfxWriteAsciiLtr msgAscii0x (r3.place 8 112 gfxTextColor)).setEax
      actual).place 24 112 gfxTextColor)) uiGfxRightX 144 gfxDimColor
  refine ⟨r4, ?_, ?_⟩
  · have hok : ∀ (a : GfxRegs) (k : GfxRegs → Except Halt GfxRegs), (Except.ok a >>= k) = k a :=
      fun _ _ => rfl
    simp only [uiChecksumFatal, hok1, hok2, hok3, hok4, hok]
  · have hset : ∀ (r : GfxRegs) (v : UInt32), (r.setEax v).screen = r.screen := fun _ _ => rfl
    rw [hscreen4, gfxWriteHex32Ltr_screen, hset, gfxWriteAsciiLtr_screen, hscreen3,
      gfxWriteHex32Ltr_screen, hset, gfxWriteAsciiLtr_screen, hscreen2, hscreen1]
    simp only [fatalGlyphs, valueRow, List.append_assoc, List.nil_append]

/-- What stands in both rows. -/
theorem fatal_rows : ∀ k < 8, ∀ g ∈ fatalGlyphs, g.x = UInt16.ofNat (24 + 8 * k) →
    g.y = 96 ∨ g.y = 112 → g.glyph = hexDigit 0x10203040 k := by
  decide +kernel

theorem fatal_shows {y : UInt16} (hy : y = 96 ∨ y = 112) :
    ShowsHex fatalGlyphs 0x10203040 y := by
  unfold ShowsHex
  rcases hy with rfl | rfl
  · decide +kernel
  · decide +kernel

/-! ## Digits -/

theorem hexChar_inj : ∀ m < 16, ∀ n < 16, hexChar m = hexChar n → m = n := by
  decide

/-- Digits determine what is below them, by induction on their number. -/
theorem mod_pow_eq_of_digits {b v w : Nat} (n : Nat)
    (h : ∀ k < n, v / b ^ k % b = w / b ^ k % b) : v % b ^ n = w % b ^ n := by
  induction n with
  | zero => rw [Nat.pow_zero, Nat.mod_one, Nat.mod_one]
  | succ n ih =>
    rw [Nat.mod_pow_succ, Nat.mod_pow_succ, ih fun k hk => h k (Nat.lt_succ_of_lt hk),
      h n (Nat.lt_succ_self n)]

/-- Eight digits determine the value. -/
theorem hexDigit_inj {v w : UInt32} (h : ∀ k < 8, hexDigit v k = hexDigit w k) : v = w := by
  have hdigit : ∀ k < 8, v.toNat / 16 ^ k % 16 = w.toNat / 16 ^ k % 16 := by
    intro k hk
    have hchar := h (7 - k) (by omega)
    rw [hexDigit, hexDigit, show 7 - (7 - k) = k by omega] at hchar
    exact hexChar_inj _ (Nat.mod_lt _ (by decide)) _ (Nat.mod_lt _ (by decide)) hchar
  have hmod := mod_pow_eq_of_digits 8 hdigit
  have hv : v.toNat < 16 ^ 8 := v.toNat_lt
  have hw : w.toNat < 16 ^ 8 := w.toNat_lt
  rw [Nat.mod_eq_of_lt hv, Nat.mod_eq_of_lt hw] at hmod
  exact UInt32.toNat_inj.mp hmod

/-- A row shows one value only, and it is the coordinates. -/
theorem showsHex_eq {v : UInt32} {y : UInt16} (hy : y = 96 ∨ y = 112)
    (h : ShowsHex fatalGlyphs v y) : v = 0x10203040 := by
  refine hexDigit_inj fun k hk => ?_
  obtain ⟨g, hg, hglyph, hx, hrow⟩ := h k hk
  rw [← hglyph]
  exact fatal_rows k hk g hg hx (hrow ▸ hy)

/-- **THE ERROR SCREEN NEVER SHOWS THE CHECKSUMS** where they differ.  In both rows it
    shows 10203040, digits of the coordinates. -/
theorem fatal_screen_never (expected actual : UInt32) (hne : expected ≠ actual) (r : GfxRegs) :
    ∃ r', uiChecksumFatal expected actual r = .ok r'
      ∧ ShowsHex r'.screen 0x10203040 96 ∧ ShowsHex r'.screen 0x10203040 112
      ∧ ¬ (ShowsHex r'.screen expected 96 ∧ ShowsHex r'.screen actual 112) := by
  obtain ⟨r', hok, hscreen⟩ := uiChecksumFatal_screen expected actual r
  refine ⟨r', hok, hscreen ▸ fatal_shows (Or.inl rfl), hscreen ▸ fatal_shows (Or.inr rfl), ?_⟩
  rw [hscreen]
  rintro ⟨hexpected, hactual⟩
  exact hne ((showsHex_eq (Or.inl rfl) hexpected).trans (showsHex_eq (Or.inr rfl) hactual).symm)

/-! ## One screen -/

/-- The registers at the call. -/
def zeroRegs : GfxRegs := ⟨0, 0, 0, 0, 0, 0, 0, 0, 0, []⟩

theorem fatal_screen_never_one :
    ∃ r', uiChecksumFatal 0x12345678 0x12345679 zeroRegs = .ok r'
      ∧ ShowsHex r'.screen 0x10203040 96 ∧ ShowsHex r'.screen 0x10203040 112
      ∧ ¬ (ShowsHex r'.screen 0x12345678 96 ∧ ShowsHex r'.screen 0x12345679 112) :=
  fatal_screen_never 0x12345678 0x12345679 (by decide) zeroRegs

/-- Of 12345678, the second digit on the screen is a 0. -/
theorem fatal_screen_wrong_digit :
    ∃ r', uiChecksumFatal 0x12345678 0x12345679 zeroRegs = .ok r'
      ∧ (∀ g ∈ r'.screen, g.x = 32 → g.y = 96 → g.glyph = 0x30)
      ∧ ¬ ShowsHex r'.screen 0x12345678 96 := by
  obtain ⟨r', hok, hscreen⟩ := uiChecksumFatal_screen 0x12345678 0x12345679 zeroRegs
  refine ⟨r', hok, ?_, fun h => ?_⟩
  · rw [hscreen]
    exact fun g hg hx hy => fatal_rows 1 (by decide) g hg hx (Or.inl hy)
  · rw [hscreen] at h
    exact absurd (showsHex_eq (Or.inl rfl) h) (by decide)

end PyramidBoot
