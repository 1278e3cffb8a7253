import PyramidOS.KeyboardProofs

/-! # The Shift keys

    `keyboard_handler` keeps one flag for two Shift keys, and it knows no prefix bytes.
    Here stands the keyboard in front of it: a key sends its make and break code in
    turn, the byte `E0` announces the code of an extended key or a fake Shift code, and
    keys interleave in any order.

    * `Emits` — the bytes a keyboard can send;
    * `Emits.moves` — what one byte does to the Shift keys;
    * `shift_tracks_iff` — over every run: the flag is the state of the two keys, and
      each character comes from the table they choose, exactly when no byte of the run
      is one of those that `Harmless` excludes. -/

namespace PyramidKeyboard

open PyramidString RingBuffer LabelledRun

/-! ## The keyboard -/

/-- The keys that are down, by make code, those with the prefix `E0` apart; the state of
    Caps Lock; and the bytes of the last code that are still to be sent. -/
structure Keys where
  down : UInt8 → Bool
  downE0 : UInt8 → Bool
  capsLock : Bool
  pending : List UInt8

/-- A Shift key is down. -/
def Keys.shiftDown (k : Keys) : Bool := k.down 0x2A || k.down 0x36

/-- What a Set 1 keyboard sends at one go.  The fake codes repeat those of the Shift
    keys behind a prefix; Pause has no break code. -/
inductive KeyCode where
  | make (c : UInt8)
  | brk (c : UInt8)
  | makeE0 (c : UInt8)
  | brkE0 (c : UInt8)
  | fakeMake (c : UInt8)
  | fakeBrk (c : UInt8)
  | pause

def KeyCode.bytes : KeyCode → List UInt8
  | .make c => [c]
  | .brk c => [c + 0x80]
  | .makeE0 c => [0xE0, c]
  | .brkE0 c => [0xE0, c + 0x80]
  | .fakeMake c => [0xE0, c]
  | .fakeBrk c => [0xE0, c + 0x80]
  | .pause => [0xE1, 0x1D, 0x45, 0xE1, 0x9D, 0xC5]

/-- Make and break codes of a key alternate.  No extended key has the code of a Shift key
    or of Caps Lock. -/
def Keys.CanSend (k : Keys) : KeyCode → Prop
  | .make c => c < 0x80 ∧ k.down c = false
  | .brk c => c < 0x80 ∧ k.down c = true
  | .makeE0 c => (c < 0x80 ∧ c ≠ 0x2A ∧ c ≠ 0x36 ∧ c ≠ 0x3A) ∧ k.downE0 c = false
  | .brkE0 c => (c < 0x80 ∧ c ≠ 0x2A ∧ c ≠ 0x36 ∧ c ≠ 0x3A) ∧ k.downE0 c = true
  | .fakeMake c => c = 0x2A ∨ c = 0x36
  | .fakeBrk c => c = 0x2A ∨ c = 0x36
  | .pause => True

/-- The keys behind a code. -/
def Keys.sent (k : Keys) : KeyCode → Keys
  | .make c => { k with
      down := Function.update k.down c true
      capsLock := if c = 0x3A then !k.capsLock else k.capsLock }
  | .brk c => { k with down := Function.update k.down c false }
  | .makeE0 c => { k with downE0 := Function.update k.downE0 c true }
  | .brkE0 c => { k with downE0 := Function.update k.downE0 c false }
  | .fakeMake _ | .fakeBrk _ | .pause => k

/-- **THE BYTES A KEYBOARD CAN SEND**: the next one of a code, or the first of another. -/
inductive Emits : Keys → UInt8 → Keys → Prop where
  | first {k : Keys} {code : KeyCode} {b : UInt8} {rest : List UInt8} (hidle : k.pending = [])
      (hcan : k.CanSend code) (hbytes : code.bytes = b :: rest) :
      Emits k b { k.sent code with pending := rest }
  | next {k : Keys} {b : UInt8} {rest : List UInt8} (hpending : k.pending = b :: rest) :
      Emits k b { k with pending := rest }

/-- The keyboard and its driver. -/
structure Typing where
  keys : Keys
  kb : Keyboard

/-- A byte comes and is handled, or `keyboard_try_get_char` takes a character; labelled
    with the state before and the byte. -/
inductive TypeStep : Typing → Typing × Option UInt8 → Typing → Prop where
  | byte {s : Typing} {b : UInt8} {keys : Keys} (hemits : Emits s.keys b keys) :
      TypeStep s (s, some b) ⟨keys, keyboardHandler s.kb b⟩
  | take {s : Typing} (hsome : s.kb.ring.read ≠ s.kb.ring.write) :
      TypeStep s (s, none) { s with kb := { s.kb with
        ring := { s.kb.ring with read := (s.kb.ring.read + 1) % kbBufferSize } } }

/-- All keys up, after `keyboard_init`. -/
def typingStart (k : Keyboard) : Typing :=
  ⟨⟨fun _ => false, fun _ => false, false, []⟩, keyboardInit k⟩

/-! ## The claim and its condition -/

/-- The flag is the state of the keys. -/
def Tracks (s : Typing) : Prop := s.kb.shiftPressed = s.keys.shiftDown

/-- The character of a scancode: from the shifted table if a Shift key is down, for
    letters the other way round with Caps Lock. -/
def charFor (k : Keys) (b : UInt8) : UInt8 :=
  let base := charAt scancodeSet1 b.toNat
  if xor k.shiftDown (k.capsLock && decide (base ≥ 97 ∧ base ≤ 122)) then
    charAt scancodeSet1Shifted b.toNat
  else base

/-- What the step buffers, if anything, is that character. -/
def TypesRight (p : Typing × Option UInt8) : Prop :=
  ∀ b, p.2 = some b → (keyboardHandler p.1.kb b).ring ≠ p.1.kb.ring →
    (keyboardHandler p.1.kb b).ring = bufferWrite p.1.kb.ring (charFor p.1.keys b)

/-- **THE CONDITION** on a byte: it does not release one Shift key while the other is
    down; and a fake make comes only while a Shift key is down, a fake break only while
    none is. -/
structure Harmless (k : Keys) (b : UInt8) : Prop where
  left : k.pending = [] → b = 0xAA → k.down 0x36 = false
  right : k.pending = [] → b = 0xB6 → k.down 0x2A = false
  fakeMake : k.pending ≠ [] → b = 0x2A ∨ b = 0x36 → k.shiftDown = true
  fakeBrk : k.pending ≠ [] → b = 0xAA ∨ b = 0xB6 → k.shiftDown = false

variable {k k' : Keys} {kb : Keyboard} {b c : UInt8} {s s' : Typing}
  {es : List (Typing × Option UInt8)} {p : Typing × Option UInt8}

/-! ## One byte of the keyboard -/

/-- What a byte does to the Shift keys. -/
inductive Moves (k : Keys) (b : UInt8) (k' : Keys) : Prop where
  | press (hidle : k.pending = []) (hb : b = 0x2A ∨ b = 0x36) (hshift : k'.shiftDown = true)
  | left (hidle : k.pending = []) (hb : b = 0xAA) (hshift : k'.shiftDown = k.down 0x36)
  | right (hidle : k.pending = []) (hb : b = 0xB6) (hshift : k'.shiftDown = k.down 0x2A)
  | none (hb : k.pending = [] → ¬ (b = 0x2A ∨ b = 0x36) ∧ ¬ (b = 0xAA ∨ b = 0xB6))
      (hshift : k'.shiftDown = k.shiftDown)

/-- Break codes are make codes with the top bit set. -/
theorem brk_toNat (hc : c < 0x80) : (c + 0x80).toNat = c.toNat + 128 := by
  rw [UInt8.lt_iff_toNat_lt] at hc
  rw [UInt8.toNat_add]
  exact Nat.mod_eq_of_lt (Nat.add_lt_add_right hc 128)

theorem brk_ne (hc : c < 0x80) (hb : b < 0x80) : c + 0x80 ≠ b := fun h => by
  have hnat := congrArg UInt8.toNat h
  rw [brk_toNat hc] at hnat
  rw [UInt8.lt_iff_toNat_lt] at hb
  exact absurd hb (Nat.not_lt.mpr (hnat ▸ Nat.le_add_left 128 c.toNat))

theorem update_shiftDown (hleft : c ≠ 0x2A) (hright : c ≠ 0x36) (v : Bool) :
    Keys.shiftDown { k with down := Function.update k.down c v } = k.shiftDown := by
  show (Function.update k.down c v 0x2A || Function.update k.down c v 0x36) = k.shiftDown
  rw [Function.update_of_ne hleft.symm, Function.update_of_ne hright.symm]
  rfl

/-- A make code, which is the only one that begins with its byte below 0x80. -/
theorem Moves.make (hidle : k.pending = []) (hc : c < 0x80) (rest : List UInt8) :
    Moves k c { k.sent (.make c) with pending := rest } := by
  by_cases hleft : c = 0x2A
  · subst hleft
    exact .press hidle (Or.inl rfl) rfl
  by_cases hright : c = 0x36
  · subst hright
    exact .press hidle (Or.inr rfl) (Bool.or_true _)
  · refine .none (fun _ => ⟨not_or.mpr ⟨hleft, hright⟩, ?_⟩) (update_shiftDown hleft hright true)
    rintro (rfl | rfl)
    · exact absurd hc (by decide)
    · exact absurd hc (by decide)

theorem Moves.brk (hidle : k.pending = []) (hc : c < 0x80) (rest : List UInt8) :
    Moves k (c + 0x80) { k.sent (.brk c) with pending := rest } := by
  by_cases hleft : c = 0x2A
  · subst hleft
    exact .left hidle rfl rfl
  by_cases hright : c = 0x36
  · subst hright
    exact .right hidle rfl (Bool.or_false _)
  · refine .none (fun _ => ⟨?_, ?_⟩) (update_shiftDown hleft hright false)
    · rintro (h | h)
      · exact brk_ne hc (by decide) h
      · exact brk_ne hc (by decide) h
    · rintro (h | h)
      · exact hleft ((UInt8.add_left_inj 0x80).mp h)
      · exact hright ((UInt8.add_left_inj 0x80).mp h)

/-- A code is a make code, a break code, or has a prefix and leaves plain keys alone. -/
theorem KeyCode.first {code : KeyCode} {rest : List UInt8} (hcan : k.CanSend code)
    (hbytes : code.bytes = b :: rest) :
    (code = .make b ∧ b < 0x80) ∨ (∃ c, code = .brk c ∧ c < 0x80 ∧ b = c + 0x80)
      ∨ (b = 0xE0 ∨ b = 0xE1) ∧ (k.sent code).down = k.down
          ∧ (k.sent code).capsLock = k.capsLock := by
  have hb : code.bytes.head? = some b := congrArg List.head? hbytes
  cases code with
  | make c =>
    obtain rfl : c = b := Option.some.inj hb
    exact Or.inl ⟨rfl, hcan.1⟩
  | brk c => exact Or.inr (Or.inl ⟨c, rfl, hcan.1, (Option.some.inj hb).symm⟩)
  | makeE0 c => exact Or.inr (Or.inr ⟨Or.inl (Option.some.inj hb).symm, rfl, rfl⟩)
  | brkE0 c => exact Or.inr (Or.inr ⟨Or.inl (Option.some.inj hb).symm, rfl, rfl⟩)
  | fakeMake c => exact Or.inr (Or.inr ⟨Or.inl (Option.some.inj hb).symm, rfl, rfl⟩)
  | fakeBrk c => exact Or.inr (Or.inr ⟨Or.inl (Option.some.inj hb).symm, rfl, rfl⟩)
  | pause => exact Or.inr (Or.inr ⟨Or.inr (Option.some.inj hb).symm, rfl, rfl⟩)

/-- **ONE BYTE** of the keyboard. -/
theorem Emits.moves (h : Emits k b k') : Moves k b k' := by
  cases h with
  | next hpending => exact .none (fun hidle => by simp [hidle] at hpending) rfl
  | @first code _ rest hidle hcan hbytes =>
    rcases KeyCode.first hcan hbytes with ⟨rfl, hc⟩ | ⟨c, rfl, hc, rfl⟩ | ⟨hmulti, hdown, -⟩
    · exact .make hidle hc rest
    · exact .brk hidle hc rest
    · have hshift := congrArg (fun down : UInt8 → Bool => down 0x2A || down 0x36) hdown
      refine .none (fun _ => ?_) hshift
      rcases hmulti with rfl | rfl
      · decide
      · decide

/-- Within a code the Shift keys rest. -/
theorem Moves.pending (h : Moves k b k') (hpending : k.pending ≠ []) :
    k'.shiftDown = k.shiftDown := by
  cases h with
  | press hidle _ _ => exact absurd hidle hpending
  | left hidle _ _ => exact absurd hidle hpending
  | right hidle _ _ => exact absurd hidle hpending
  | none _ hshift => exact hshift

/-- Bytes still to be sent never include the make code of Caps Lock. -/
theorem Emits.pending (h : Emits k b k') (hnot : 0x3A ∉ k.pending) : 0x3A ∉ k'.pending := by
  cases h with
  | next hpending =>
    rw [hpending] at hnot
    exact fun hmem => hnot (List.mem_cons_of_mem b hmem)
  | @first code _ rest hidle hcan hbytes =>
    have hrest : code.bytes.tail = rest := congrArg List.tail hbytes
    show 0x3A ∉ rest
    rw [← hrest]
    cases code with
    | make c => exact List.not_mem_nil
    | brk c => exact List.not_mem_nil
    | makeE0 c => exact fun hmem => hcan.1.2.2.2 (List.mem_singleton.mp hmem).symm
    | brkE0 c => exact fun hmem => brk_ne hcan.1.1 (by decide) (List.mem_singleton.mp hmem).symm
    | fakeMake c =>
      rcases hcan with rfl | rfl
      · decide
      · decide
    | fakeBrk c =>
      rcases hcan with rfl | rfl
      · decide
      · decide
    | pause => decide

/-- Caps Lock turns with its make code. -/
theorem Emits.capsLock (h : Emits k b k') (hnot : 0x3A ∉ k.pending) :
    k'.capsLock = if b = 0x3A then !k.capsLock else k.capsLock := by
  cases h with
  | next hpending =>
    rw [hpending] at hnot
    exact (if_neg fun hb : b = 0x3A => hnot (hb ▸ List.mem_cons_self)).symm
  | @first code _ rest hidle hcan hbytes =>
    rcases KeyCode.first hcan hbytes with ⟨rfl, -⟩ | ⟨c, rfl, hc, rfl⟩ | ⟨hmulti, -, hcaps⟩
    · rfl
    · exact (if_neg (brk_ne hc (by decide))).symm
    · refine hcaps.trans (if_neg ?_).symm
      rcases hmulti with rfl | rfl
      · decide
      · decide

/-! ## The handler -/

theorem typed_eq (h : typed kb b ≠ 0) : typed kb b = ascii kb b := by
  rw [typed] at h ⊢
  by_cases hflag : b = 0x2A ∨ b = 0x36 ∨ b = 0xAA ∨ b = 0xB6 ∨ b = 0x3A
  · exact absurd (if_pos hflag) h
  rw [if_neg hflag] at h ⊢
  by_cases hkey : b < 58
  · exact if_pos hkey
  · exact absurd (if_neg hkey) h

/-- A handler that knows the state of the keys buffers the character they choose. -/
theorem ascii_eq (hshift : kb.shiftPressed = k.shiftDown) (hcaps : kb.capsLock = k.capsLock)
    (b : UInt8) : ascii kb b = charFor k b := by
  have hif : (if k.shiftDown then true else false) = k.shiftDown := by
    cases k.shiftDown <;> rfl
  rw [ascii, charFor, hshift, hcaps, hif]
  by_cases hletter : k.capsLock ∧ charAt scancodeSet1 b.toNat ≥ 97
      ∧ charAt scancodeSet1 b.toNat ≤ 122
  · rw [if_pos hletter, hletter.1, decide_eq_true hletter.2, Bool.true_and, Bool.xor_true]
  · have hfalse : (k.capsLock && decide (charAt scancodeSet1 b.toNat ≥ 97
        ∧ charAt scancodeSet1 b.toNat ≤ 122)) = false := by
      rw [Bool.and_eq_false_iff, decide_eq_false_iff_not]
      by_cases hlock : k.capsLock = true
      · exact Or.inr fun hrange => hletter ⟨hlock, hrange⟩
      · exact Or.inl (Bool.eq_false_iff.mpr hlock)
    rw [if_neg hletter, hfalse, Bool.xor_false]

/-- **THE FLAG FOLLOWS** a byte that the condition allows. -/
theorem Moves.tracks (h : Moves k b k') (hb : Harmless k b)
    (hflag : kb.shiftPressed = k.shiftDown) :
    (keyboardHandler kb b).shiftPressed = k'.shiftDown := by
  rw [keyboardHandler_shiftPressed]
  by_cases hidle : k.pending = []
  · cases h with
    | press _ hmake hshift => rw [if_pos hmake, hshift]
    | left _ hbrk hshift =>
      rw [hshift, hb.left hidle hbrk, hbrk]
      rfl
    | right _ hbrk hshift =>
      rw [hshift, hb.right hidle hbrk, hbrk]
      rfl
    | none hother hshift => rw [if_neg (hother hidle).1, if_neg (hother hidle).2, hshift, hflag]
  · rw [h.pending hidle]
    by_cases hmake : b = 0x2A ∨ b = 0x36
    · rw [if_pos hmake, hb.fakeMake hidle hmake]
    rw [if_neg hmake]
    by_cases hbrk : b = 0xAA ∨ b = 0xB6
    · rw [if_pos hbrk, hb.fakeBrk hidle hbrk]
    · rw [if_neg hbrk, hflag]

/-- **AND NO OTHER.** -/
theorem Moves.harmless (h : Moves k b k')
    (hflag : (keyboardHandler kb b).shiftPressed = k'.shiftDown) : Harmless k b := by
  rw [keyboardHandler_shiftPressed] at hflag
  constructor
  · rintro hidle rfl
    cases h with
    | press _ hmake _ => exact absurd hmake (by decide)
    | left _ _ hshift => exact hshift ▸ hflag.symm
    | right _ hbrk _ => exact absurd hbrk (by decide)
    | none hother _ => exact absurd (Or.inl rfl) (hother hidle).2
  · rintro hidle rfl
    cases h with
    | press _ hmake _ => exact absurd hmake (by decide)
    | left _ hbrk _ => exact absurd hbrk (by decide)
    | right _ _ hshift => exact hshift ▸ hflag.symm
    | none hother _ => exact absurd (Or.inr rfl) (hother hidle).2
  · intro hpending hmake
    rw [if_pos hmake, h.pending hpending] at hflag
    exact hflag.symm
  · intro hpending hbrk
    have hmake : ¬ (b = 0x2A ∨ b = 0x36) := by
      rcases hbrk with rfl | rfl
      · decide
      · decide
    rw [if_neg hmake, if_pos hbrk, h.pending hpending] at hflag
    exact hflag.symm

/-! ## Whole runs -/

/-- Caps Lock is never in doubt. -/
structure CapsTracks (s : Typing) : Prop where
  capsLock : s.kb.capsLock = s.keys.capsLock
  pending : 0x3A ∉ s.keys.pending

theorem CapsTracks.step (h : CapsTracks s) (hstep : TypeStep s p s') : CapsTracks s' := by
  cases hstep with
  | byte hemits =>
    refine ⟨?_, hemits.pending h.pending⟩
    rw [hemits.capsLock h.pending, keyboardHandler_capsLock, h.capsLock]
  | take _ => exact ⟨h.capsLock, h.pending⟩

/-- A step begins in the state of its label. -/
theorem TypeStep.label (h : TypeStep s p s') : p.1 = s := by
  cases h with
  | byte _ => rfl
  | take _ => rfl

theorem TypeStep.tracks (h : TypeStep s p s') (hp : ∀ b, p.2 = some b → Harmless s.keys b)
    (hs : Tracks s) : Tracks s' := by
  cases h with
  | byte hemits => exact hemits.moves.tracks (hp _ rfl) hs
  | take _ => exact hs

theorem TypeStep.harmless (h : TypeStep s p s') (hs : Tracks s') :
    ∀ b, p.2 = some b → Harmless s.keys b := by
  cases h with
  | byte hemits =>
    intro b hb
    obtain rfl := Option.some.inj hb
    exact hemits.moves.harmless hs
  | take _ => exact fun b hb => nomatch hb

/-- A tracked state types the right characters. -/
theorem Tracks.typesRight {o : Option UInt8} (hs : Tracks s) (hcaps : CapsTracks s) :
    TypesRight (s, o) := by
  intro b _ hring
  rw [keyboardHandler_ring] at hring ⊢
  by_cases hzero : typed s.kb b = 0
  · exact absurd (if_pos hzero) hring
  · rw [if_neg hzero, ← ascii_eq hs hcaps.capsLock b, typed_eq hzero]

theorem run_capsTracks (k : Keyboard) (hrun : Run TypeStep (typingStart k) es s) : CapsTracks s :=
  hrun.invariant ⟨rfl, List.not_mem_nil⟩ fun _ _ _ h hst => h.step hst

/-- **SHIFT TRACKS THE KEYS**: over every run from `keyboard_init`, in all states the flag
    is true while a Shift key is down and all buffered characters are the ones the keys
    choose, if and only if every byte of the run met the condition. -/
theorem shift_tracks_iff (k : Keyboard) (hrun : Run TypeStep (typingStart k) es s) :
    ((∀ p ∈ es, Tracks p.1 ∧ TypesRight p) ∧ Tracks s)
      ↔ ∀ p ∈ es, ∀ b, p.2 = some b → Harmless p.1.keys b := by
  induction hrun with
  | nil =>
    refine iff_of_true ⟨fun p hp => absurd hp List.not_mem_nil, rfl⟩ fun p hp => ?_
    exact absurd hp List.not_mem_nil
  | @snoc es a b p hrun hstep ih =>
    have hcaps := run_capsTracks k hrun
    obtain rfl : p.1 = a := hstep.label
    have hlast : p ∈ es ++ [p] := List.mem_append_right _ (List.mem_singleton_self p)
    constructor
    · rintro ⟨hall, hend⟩ q hq
      rcases List.mem_append.mp hq with hold | hnew
      · have hfirst := fun r hr => hall r (List.mem_append_left [p] hr)
        exact ih.mp ⟨hfirst, (hall p hlast).1⟩ q hold
      · rw [List.mem_singleton.mp hnew]
        exact hstep.harmless hend
    · intro hall
      obtain ⟨hfirst, hbefore⟩ := ih.mpr fun q hq => hall q (List.mem_append_left [p] hq)
      refine ⟨fun q hq => ?_, hstep.tracks (hall p hlast) hbefore⟩
      rcases List.mem_append.mp hq with hold | hnew
      · exact hfirst q hold
      · rw [List.mem_singleton.mp hnew]
        exact ⟨hbefore, hbefore.typesRight hcaps⟩

/-! ## Two runs -/

/-- A keyboard driver before `keyboard_init`. -/
def freshKeyboard : Keyboard := ⟨⟨fun _ => 0, 0, 0⟩, false, false⟩

theorem TypeStep.press (hidle : s.keys.pending = []) (hc : c < 0x80) (hup : s.keys.down c = false) :
    TypeStep s (s, some c)
      ⟨{ s.keys.sent (.make c) with pending := [] }, keyboardHandler s.kb c⟩ :=
  .byte (.first hidle ⟨hc, hup⟩ rfl)

theorem TypeStep.release (hidle : s.keys.pending = []) (hc : c < 0x80)
    (hdown : s.keys.down c = true) :
    TypeStep s (s, some (c + 0x80))
      ⟨{ s.keys.sent (.brk c) with pending := [] }, keyboardHandler s.kb (c + 0x80)⟩ :=
  .byte (.first hidle ⟨hc, hdown⟩ rfl)

theorem shift_tracks_one :
    ∃ es s, Run TypeStep (typingStart freshKeyboard) es s
      ∧ es.map Prod.snd = [some 0x2A, some 0x1E, some 0xAA]
      ∧ (((∀ p ∈ es, Tracks p.1 ∧ TypesRight p) ∧ Tracks s)
        ↔ ∀ p ∈ es, ∀ b, p.2 = some b → Harmless p.1.keys b) := by
  have h1 : Run TypeStep (typingStart freshKeyboard) _ _ :=
    .single (.press (c := 0x2A) rfl (by decide) rfl)
  have h2 := h1.snoc _ (.press (c := 0x1E) rfl (by decide) rfl)
  have h3 := h2.snoc _ (.release (c := 0x2A) rfl (by decide) rfl)
  exact ⟨_, _, h3, rfl, shift_tracks_iff freshKeyboard h3⟩

/-- Both Shift keys go down and the left one comes up: the flag is false while the right
    one is down, and the key A types a lower-case letter. -/
theorem shift_lost :
    ∃ es s, Run TypeStep (typingStart freshKeyboard) es s
      ∧ es.map Prod.snd = [some 0x2A, some 0x36, some 0xAA]
      ∧ s.keys.shiftDown = true ∧ s.kb.shiftPressed = false
      ∧ s.keys.pending = [] ∧ s.keys.down 0x1E = false ∧ charFor s.keys 0x1E = 65
      ∧ (keyboardHandler s.kb 0x1E).ring = bufferWrite s.kb.ring 97 := by
  have h1 : Run TypeStep (typingStart freshKeyboard) _ _ :=
    .single (.press (c := 0x2A) rfl (by decide) rfl)
  have h2 := h1.snoc _ (.press (c := 0x36) rfl (by decide) rfl)
  have h3 := h2.snoc _ (.release (c := 0x2A) rfl (by decide) rfl)
  exact ⟨_, _, h3, rfl, rfl, rfl, rfl, rfl, by decide +kernel, rfl⟩

end PyramidKeyboard
