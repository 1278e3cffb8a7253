import PyramidOS.PagingProofs

/-! # Programs of loads and stores

    A program that reaches memory only through loads and stores of bytes can run
    on a flat memory or behind page tables; behind page tables every access walks
    the tables as they stand in memory at that moment, and a missing page is a
    fault.

    * `Prog.Runs W p m Q` — on the flat memory `m` the program `p` stays in `W`
      and ends in `Q`, with one rule for each way to build a program;
    * `Window` — the tables map `W` to bytes of their own, away from the tables,
      and these hold what the flat memory holds;
    * `Window.runs` — THE SIMULATION: such a program behind the tables faults
      nowhere, returns what it returns on the flat memory, leaves the same bytes,
      and changes no byte that is not behind `W`. -/

namespace LoadStore

open ByteMem TwoLevelPaging

variable {ε α β : Type} {W : Nat → Prop} {m m' m'' flat flat' : Mem} {dir u v x y a : Nat}
  {pages pages' : List Nat}

/-! ## Programs -/

/-- A program over a byte memory: it returns, or stops with an error. -/
inductive Prog (ε α : Type) where
  | done (r : α)
  | stop (e : ε)
  | load (a : Nat) (next : Byte → Prog ε α)
  | store (a : Nat) (b : Byte) (next : Prog ε α)

/-- One program after the other. -/
def Prog.bind : Prog ε α → (α → Prog ε β) → Prog ε β
  | .done r, f => f r
  | .stop e, _ => .stop e
  | .load a next, f => .load a fun b => (next b).bind f
  | .store a b next, f => .store a b (next.bind f)

instance : Monad (Prog ε) where
  pure := .done
  bind := .bind

/-- Load one byte. -/
def load8 (a : Nat) : Prog ε Nat := .load a fun b => .done b.toNat

/-- Load a little-endian 32-bit value. -/
def load32 (a : Nat) : Prog ε Nat :=
  .load a fun b0 => .load (a + 1) fun b1 => .load (a + 2) fun b2 => .load (a + 3) fun b3 =>
    .done (b0.toNat + 256 * b1.toNat + 65536 * b2.toNat + 16777216 * b3.toNat)

/-- Store one byte. -/
def store8 (a : Nat) (b : Byte) : Prog ε Unit := .store a b (.done ())

/-- Store the low 32 bits of a value, little-endian. -/
def store32 (a v : Nat) : Prog ε Unit :=
  .store a (byteOf v 0) <| .store (a + 1) (byteOf v 1) <| .store (a + 2) (byteOf v 2) <|
    .store (a + 3) (byteOf v 3) <| .done ()

/-- **BEHIND PAGE TABLES**: the result of the program and the physical memory it
    leaves, or nothing on a page fault. -/
def Prog.paged (dir : Nat) : Prog ε α → Mem → Option (Except ε α × Mem)
  | .done r, m => some (.ok r, m)
  | .stop e, m => some (.error e, m)
  | .load a next, m => (translate m dir a).bind fun x => (next (m.byte x)).paged dir m
  | .store a b next, m => (translate m dir a).bind fun x => next.paged dir (m.store8 x b)

/-! ## On a flat memory -/

/-- **THE RUN ON A FLAT MEMORY** accesses bytes in `W` only and ends with a result
    and a memory in `Q`. -/
def Prog.Runs (W : Nat → Prop) : Prog ε α → Mem → (Except ε α → Mem → Prop) → Prop
  | .done r, m, Q => Q (.ok r) m
  | .stop e, m, Q => Q (.error e) m
  | .load a next, m, Q => W a ∧ (next (m.byte a)).Runs W m Q
  | .store a b next, m, Q => W a ∧ next.Runs W (m.store8 a b) Q

variable {p : Prog ε α} {f : α → Prog ε β} {Q Q' : Except ε α → Mem → Prop}
  {R : Except ε β → Mem → Prop}

/-- The rest of a program runs on from a result; an error ends it. -/
def Continues (W : Nat → Prop) (f : α → Prog ε β) (R : Except ε β → Mem → Prop) :
    Except ε α → Mem → Prop
  | .ok r, m => (f r).Runs W m R
  | .error e, m => R (.error e) m

/-- **SEQUENCING**, by induction on the first program. -/
theorem runs_bind : ∀ {p : Prog ε α} {m : Mem},
    (p >>= f).Runs W m R ↔ p.Runs W m (Continues W f R)
  | .done _, _ => Iff.rfl
  | .stop _, _ => Iff.rfl
  | .load _ _, _ => and_congr Iff.rfl runs_bind
  | .store _ _ _, _ => and_congr Iff.rfl runs_bind

theorem Prog.Runs.mono : ∀ {p : Prog ε α} {m : Mem}, p.Runs W m Q →
    (∀ r m', Q r m' → Q' r m') → p.Runs W m Q'
  | .done _, _, h, hQ => hQ _ _ h
  | .stop _, _, h, hQ => hQ _ _ h
  | .load _ _, _, h, hQ => ⟨h.1, h.2.mono hQ⟩
  | .store _ _ _, _, h, hQ => ⟨h.1, h.2.mono hQ⟩

/-- The program stays in `W`, returns `r` and leaves `m'`. -/
def Prog.Returns (W : Nat → Prop) (p : Prog ε α) (m : Mem) (r : α) (m' : Mem) : Prop :=
  p.Runs W m fun r' m'' => r' = .ok r ∧ m'' = m'

theorem returns_pure (r : α) : (pure r : Prog ε α).Returns W m r m := ⟨rfl, rfl⟩

theorem Prog.Returns.bind {r : α} {r' : β} (h : p.Returns W m r m')
    (h' : (f r).Returns W m' r' m'') : (p >>= f).Returns W m r' m'' := by
  refine runs_bind.mpr (h.mono fun r₁ m₁ heq => ?_)
  rw [heq.1, heq.2]
  exact h'

/-- The four bytes of a word. -/
def WordIn (W : Nat → Prop) (a : Nat) : Prop := ∀ k, k < 4 → W (a + k)

theorem returns_load8 (ha : W a) : (load8 a : Prog ε Nat).Returns W m (m.load8 a) m :=
  ⟨ha, rfl, rfl⟩

theorem returns_load32 (ha : WordIn W a) :
    (load32 a : Prog ε Nat).Returns W m (m.load32 a) m :=
  ⟨ha 0 (by decide), ha 1 (by decide), ha 2 (by decide), ha 3 (by decide), rfl, rfl⟩

theorem returns_store8 (ha : W a) (b : Byte) :
    (store8 a b : Prog ε Unit).Returns W m () (m.store8 a b) := ⟨ha, rfl, rfl⟩

theorem returns_store32 (ha : WordIn W a) (v : Nat) :
    (store32 a v : Prog ε Unit).Returns W m () (m.store32 a v) :=
  ⟨ha 0 (by decide), ha 1 (by decide), ha 2 (by decide), ha 3 (by decide), rfl, rfl⟩

/-! ## The window -/

/-- `x` lies in none of the pages. -/
def OffPages (pages : List Nat) (x : Nat) : Prop := ∀ b ∈ pages, ¬ (b ≤ x ∧ x < b + 4096)

/-- **A WINDOW**: the tables in `pages` map the addresses in `W` to bytes apart from
    each other and from the tables, which hold what `flat` holds. -/
structure Window (m : Mem) (dir : Nat) (pages : List Nat) (W : Nat → Prop) (flat : Mem) :
    Prop where
  tree : PageTree m dir pages
  small : ∀ v, W v → v < 2 ^ 32
  sees : ∀ v, W v → ∃ x, translate m dir v = some x ∧ m.byte x = flat.byte v ∧ OffPages pages x
  inj : ∀ u v, W u → W v → translate m dir u = translate m dir v → u = v

/-- A physical byte that no address in `W` reaches. -/
def Beside (m : Mem) (dir : Nat) (W : Nat → Prop) (y : Nat) : Prop :=
  ∀ v, W v → translate m dir v ≠ some y

/-- No translation changes, and no byte beside `W`. -/
structure Confined (dir : Nat) (W : Nat → Prop) (m m' : Mem) : Prop where
  walk : ∀ v, v < 2 ^ 32 → walk m' dir v = walk m dir v
  beside : ∀ y, Beside m dir W y → m'.byte y = m.byte y

theorem Confined.translate (h : Confined dir W m m') (hv : v < 2 ^ 32) :
    translate m' dir v = translate m dir v :=
  congrArg (Option.map fun frame => frame + v % 4096) (h.walk v hv)

theorem Confined.refl : Confined dir W m m := ⟨fun _ _ => rfl, fun _ _ => rfl⟩

theorem Confined.trans (hsmall : ∀ v, W v → v < 2 ^ 32) (h : Confined dir W m m')
    (h' : Confined dir W m' m'') : Confined dir W m m'' := by
  refine ⟨fun v hv => (h'.walk v hv).trans (h.walk v hv), fun y hy => ?_⟩
  rw [h'.beside y fun v hv => ?_, h.beside y hy]
  rw [h.translate (hsmall v hv)]
  exact hy v hv

/-- **FRAME**: the window stays when the translations of `W` and the bytes behind it do. -/
theorem Window.congr (h : Window m dir pages W flat) (htree : PageTree m' dir pages')
    (hwalk : ∀ v, W v → walk m' dir v = walk m dir v)
    (hbytes : ∀ v x, W v → translate m dir v = some x →
      m'.byte x = m.byte x ∧ OffPages pages' x) :
    Window m' dir pages' W flat := by
  have htrans : ∀ v, W v → translate m' dir v = translate m dir v := fun v hv =>
    congrArg (Option.map fun frame => frame + v % 4096) (hwalk v hv)
  refine ⟨htree, h.small, fun v hv => ?_, fun u v hu hv heq => ?_⟩
  · obtain ⟨x, hx, hbyte, -⟩ := h.sees v hv
    obtain ⟨hsame, hoff⟩ := hbytes v x hv hx
    exact ⟨x, (htrans v hv).trans hx, hsame.trans hbyte, hoff⟩
  · rw [htrans u hu, htrans v hv] at heq
    exact h.inj u v hu hv heq

/-- **ONE STORE** through the tables is the store on the flat memory. -/
theorem Window.store (h : Window m dir pages W flat) (ha : W a)
    (hx : translate m dir a = some x) (hoff : OffPages pages x) (b : Byte) :
    Window (m.store8 x b) dir pages W (flat.store8 a b)
    ∧ Confined dir W m (m.store8 x b) := by
  have hpages : ∀ c ∈ pages, ∀ y, c ≤ y → y < c + 4096 → (m.store8 x b).byte y = m.byte y :=
    fun c hc y hy hy' => byte_store8_ne fun heq => hoff c hc ⟨heq ▸ hy, heq ▸ hy'⟩
  obtain ⟨htree, hwalk⟩ := h.tree.congr hpages
  have hconf : Confined dir W m (m.store8 x b) :=
    ⟨hwalk, fun y hy => byte_store8_ne fun heq => hy a ha (heq ▸ hx)⟩
  refine ⟨⟨htree, h.small, fun v hv => ?_, fun u v hu hv heq => ?_⟩, hconf⟩
  · obtain ⟨y, hy, hbyte, hyoff⟩ := h.sees v hv
    refine ⟨y, (hconf.translate (h.small v hv)).trans hy, ?_, hyoff⟩
    by_cases hva : v = a
    · subst hva
      rw [hx] at hy
      rw [← Option.some.inj hy, byte_store8_self, byte_store8_self]
    · have hyx : y ≠ x := fun heq => hva (h.inj v a hv ha (by rw [hx, hy, heq]))
      rw [byte_store8_ne hyx, byte_store8_ne hva, hbyte]
  · rw [hconf.translate (h.small u hu), hconf.translate (h.small v hv)] at heq
    exact h.inj u v hu hv heq

/-- **THE SIMULATION**, by induction on the program. -/
theorem Window.runs : ∀ {p : Prog ε α} {m flat : Mem}, Window m dir pages W flat →
    p.Runs W flat Q →
    ∃ r m' flat', p.paged dir m = some (r, m') ∧ Q r flat'
      ∧ Window m' dir pages W flat' ∧ Confined dir W m m'
  | .done r, m, flat, h, hp => ⟨.ok r, m, flat, rfl, hp, h, Confined.refl⟩
  | .stop e, m, flat, h, hp => ⟨.error e, m, flat, rfl, hp, h, Confined.refl⟩
  | .load a next, m, flat, h, hp => by
      obtain ⟨x, hx, hbyte, -⟩ := h.sees a hp.1
      obtain ⟨r, m', flat', hrun, hrest⟩ := h.runs hp.2
      refine ⟨r, m', flat', ?_, hrest⟩
      rw [Prog.paged, hx, Option.bind_some, hbyte]
      exact hrun
  | .store a b next, m, flat, h, hp => by
      obtain ⟨x, hx, -, hoff⟩ := h.sees a hp.1
      obtain ⟨h', hconf⟩ := h.store hp.1 hx hoff b
      obtain ⟨r, m', flat', hrun, hQ, hwin, hrest⟩ := h'.runs hp.2
      refine ⟨r, m', flat', ?_, hQ, hwin, hconf.trans h.small hrest⟩
      rw [Prog.paged, hx, Option.bind_some]
      exact hrun

end LoadStore
