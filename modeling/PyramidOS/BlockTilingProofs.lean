import Mathlib.Data.List.Chain

/-! # Tilings by headed blocks

    An interval of addresses cut into consecutive blocks, each a header of `hdr`
    bytes followed by its payload, as boundary-tag allocators keep them.

    * `Tiles hdr lo bs hi` — the blocks `bs` are laid end to end from `lo` to
      `hi`; `Tiles.bounds`, `Tiles.sorted`, `Tiles.length_le`;
    * `Coalesced` — no two neighbours are both free;
    * `coalesced_tiling_unique` — THE CANONICITY THEOREM: a coalesced tiling is
      determined by its used blocks.  Two allocators that agree on what is in
      use agree on everything. -/

namespace BlockTiling

/-- A block: the address of its header, its payload size and its free flag. -/
structure Block where
  addr : Nat
  size : Nat
  free : Bool
deriving DecidableEq, Repr

variable {hdr lo hi : Nat} {b c d : Block} {bs bs' xs ys : List Block}

/-- The blocks lie end to end from `lo` to `hi`. -/
def Tiles (hdr : Nat) : Nat → List Block → Nat → Prop
  | lo, [], hi => lo = hi
  | lo, b :: rest, hi => b.addr = lo ∧ Tiles hdr (b.addr + hdr + b.size) rest hi

/-- The blocks in use. -/
def used (bs : List Block) : List Block := bs.filter fun b => !b.free

/-- No two neighbouring blocks are both free. -/
def Coalesced (bs : List Block) : Prop :=
  bs.IsChain fun a b => ¬ (a.free = true ∧ b.free = true)

/-! ## Geometry -/

theorem tiles_append :
    Tiles hdr lo (xs ++ ys) hi ↔ ∃ mid, Tiles hdr lo xs mid ∧ Tiles hdr mid ys hi := by
  induction xs generalizing lo with
  | nil =>
      constructor
      · exact fun h => ⟨lo, rfl, h⟩
      · rintro ⟨mid, rfl, h⟩
        exact h
  | cons b rest ih =>
      constructor
      · rintro ⟨haddr, h⟩
        obtain ⟨mid, h1, h2⟩ := ih.mp h
        exact ⟨mid, ⟨haddr, h1⟩, h2⟩
      · rintro ⟨mid, ⟨haddr, h1⟩, h2⟩
        exact ⟨haddr, ih.mpr ⟨mid, h1, h2⟩⟩

/-- A tiling has room for all its headers. -/
theorem Tiles.length_le (h : Tiles hdr lo bs hi) : lo + bs.length * hdr ≤ hi := by
  induction bs generalizing lo with
  | nil =>
      rw [show lo = hi from h]
      simp
  | cons b rest ih =>
      obtain ⟨haddr, hrest⟩ := h
      have hle := ih hrest
      rw [List.length_cons, Nat.succ_mul]
      omega

theorem Tiles.le (h : Tiles hdr lo bs hi) : lo ≤ hi := by
  have hle := h.length_le
  omega

/-- Every block lies in the interval. -/
theorem Tiles.bounds (h : Tiles hdr lo bs hi) (hb : b ∈ bs) :
    lo ≤ b.addr ∧ b.addr + hdr + b.size ≤ hi := by
  obtain ⟨xs, ys, rfl⟩ := List.append_of_mem hb
  obtain ⟨mid, h1, haddr, h2⟩ := tiles_append.mp h
  have hle1 := h1.le
  have hle2 := h2.le
  omega

/-- A block ends before every later one starts. -/
theorem Tiles.sorted (h : Tiles hdr lo bs hi) :
    bs.Pairwise fun a b => a.addr + hdr + a.size ≤ b.addr := by
  induction bs generalizing lo with
  | nil => exact List.Pairwise.nil
  | cons b rest ih =>
      obtain ⟨-, hrest⟩ := h
      exact List.Pairwise.cons (fun c hc => (hrest.bounds hc).1) (ih hrest)

/-- Different blocks are apart. -/
theorem Tiles.apart (h : Tiles hdr lo bs hi) (hb : b ∈ bs) (hc : c ∈ bs) (hne : b ≠ c) :
    b.addr + hdr + b.size ≤ c.addr ∨ c.addr + hdr + c.size ≤ b.addr := by
  obtain ⟨xs, ys, rfl⟩ := List.append_of_mem hb
  obtain ⟨-, htail, hcross⟩ := List.pairwise_append.mp h.sorted
  rcases List.mem_append.mp hc with hx | hy
  · exact Or.inr (hcross c hx b (List.mem_cons_self ..))
  · rcases List.mem_cons.mp hy with heq | hmem
    · exact absurd heq.symm hne
    · exact Or.inl ((List.pairwise_cons.mp htail).1 c hmem)

/-- With real headers a block is known by its address. -/
theorem Tiles.eq_of_addr (h : Tiles hdr lo bs hi) (hpos : 0 < hdr) (hb : b ∈ bs)
    (hc : c ∈ bs) (haddr : b.addr = c.addr) : b = c := by
  by_contra hne
  have happart := h.apart hb hc hne
  omega

/-! ## Cutting and joining -/

/-- Block `c` taken for a payload of `r` bytes: the rest becomes a free block if
    it has room for a header and more than `slack` bytes. -/
def carve (hdr slack r : Nat) (c : Block) : List Block :=
  if r + hdr + slack < c.size then
    [⟨c.addr, r, false⟩, ⟨c.addr + hdr + r, c.size - r - hdr, true⟩]
  else [{ c with free := false }]

/-- Block `b` joined with the block `c` after it. -/
def Block.absorb (hdr : Nat) (b c : Block) : Block :=
  { b with size := b.size + (hdr + c.size) }

theorem Tiles.carve (slack r : Nat) (h : Tiles hdr lo (xs ++ c :: ys) hi) :
    Tiles hdr lo (xs ++ (carve hdr slack r c ++ ys)) hi := by
  obtain ⟨mid, hx, haddr, hy⟩ := tiles_append.mp h
  refine tiles_append.mpr ⟨mid, hx, ?_⟩
  by_cases hbig : r + hdr + slack < c.size
  · rw [BlockTiling.carve, if_pos hbig]
    refine ⟨haddr, rfl, ?_⟩
    have hstop : c.addr + hdr + r + hdr + (c.size - r - hdr) = c.addr + hdr + c.size := by
      omega
    show Tiles hdr (c.addr + hdr + r + hdr + (c.size - r - hdr)) ys hi
    rw [hstop]
    exact hy
  · rw [BlockTiling.carve, if_neg hbig]
    exact ⟨haddr, hy⟩

theorem Tiles.absorb (h : Tiles hdr lo (xs ++ b :: c :: ys) hi) :
    Tiles hdr lo (xs ++ b.absorb hdr c :: ys) hi := by
  obtain ⟨mid, hx, haddr, haddr', hy⟩ := tiles_append.mp h
  refine tiles_append.mpr ⟨mid, hx, haddr, ?_⟩
  have hstop : b.addr + hdr + (b.size + (hdr + c.size)) = c.addr + hdr + c.size := by
    omega
  show Tiles hdr (b.addr + hdr + (b.size + (hdr + c.size))) ys hi
  rw [hstop]
  exact hy

/-- A change that keeps every block's place and size keeps the tiling. -/
theorem Tiles.setFree (v : Bool) (h : Tiles hdr lo (xs ++ c :: ys) hi) :
    Tiles hdr lo (xs ++ { c with free := v } :: ys) hi := by
  obtain ⟨mid, hx, hy⟩ := tiles_append.mp h
  exact tiles_append.mpr ⟨mid, hx, hy⟩

/-! ## Canonicity -/

theorem used_append (xs ys : List Block) : used (xs ++ ys) = used xs ++ used ys :=
  List.filter_append ..

theorem used_cons_free (hb : b.free = true) (bs : List Block) : used (b :: bs) = used bs := by
  rw [used, List.filter_cons_of_neg (by rw [hb]; decide)]
  rfl

theorem used_cons_used (hb : b.free = false) (bs : List Block) :
    used (b :: bs) = b :: used bs := by
  rw [used, List.filter_cons_of_pos (by rw [hb]; decide)]
  rfl

theorem mem_used : b ∈ used bs ↔ b ∈ bs ∧ b.free = false := by
  rw [used, List.mem_filter, Bool.not_eq_true']

theorem Coalesced.tail (h : Coalesced (b :: bs)) : Coalesced bs :=
  List.IsChain.tail h

/-- After a free block comes a used one, or nothing. -/
theorem Coalesced.head_used (h : Coalesced (b :: bs)) (hb : b.free = true) :
    ∀ c ∈ bs.head?, c.free = false := by
  intro c hc
  have hnot := (List.isChain_cons.mp h).1 c hc
  cases hfree : c.free with
  | false => rfl
  | true => exact absurd ⟨hb, hfree⟩ hnot

/-- A block that is not both free with a neighbour can stand between. -/
theorem Coalesced.insert (hx : Coalesced xs) (hy : Coalesced ys)
    (hl : ∀ a ∈ xs.getLast?, ¬ (a.free = true ∧ c.free = true))
    (hr : ∀ d ∈ ys.head?, ¬ (c.free = true ∧ d.free = true)) :
    Coalesced (xs ++ c :: ys) := by
  refine List.isChain_append.mpr ⟨hx, List.isChain_cons.mpr ⟨hr, hy⟩, fun a ha d hd => ?_⟩
  cases hd
  exact hl a ha

theorem Coalesced.left (h : Coalesced (xs ++ ys)) : Coalesced xs :=
  (List.isChain_append.mp h).1

theorem Coalesced.right (h : Coalesced (xs ++ ys)) : Coalesced ys :=
  (List.isChain_append.mp h).2.1

/-- The seam of a concatenation. -/
theorem Coalesced.seam (h : Coalesced (xs ++ c :: ys)) :
    ∀ a ∈ xs.getLast?, ¬ (a.free = true ∧ c.free = true) := fun a ha =>
  (List.isChain_append.mp h).2.2 a ha c rfl

/-- In a coalesced tiling that starts with a free block, where that block ends
    is decided by the used blocks alone. -/
theorem free_head_stop (h : Tiles hdr lo (b :: bs) hi) (hc : Coalesced (b :: bs))
    (hb : b.free = true) :
    (used bs = [] ∧ bs = [] ∧ b.addr + hdr + b.size = hi)
    ∨ ∃ d rest, used bs = d :: rest ∧ b.addr + hdr + b.size = d.addr := by
  obtain ⟨-, hrest⟩ := h
  cases bs with
  | nil => exact Or.inl ⟨rfl, rfl, hrest⟩
  | cons d ds =>
      have hd := hc.head_used hb d rfl
      exact Or.inr ⟨d, used ds, used_cons_used hd ds, hrest.1.symm⟩

/-- **CANONICITY**: a coalesced tiling is determined by its used blocks. -/
theorem coalesced_tiling_unique (hpos : 0 < hdr) (h : Tiles hdr lo bs hi)
    (h' : Tiles hdr lo bs' hi) (hc : Coalesced bs) (hc' : Coalesced bs')
    (hu : used bs = used bs') : bs = bs' := by
  induction bs generalizing lo bs' with
  | nil =>
      -- an empty tiling leaves no room for another one's header
      cases bs' with
      | nil => rfl
      | cons b' rest' =>
          have hlen := h'.length_le
          rw [show lo = hi from h, List.length_cons, Nat.succ_mul] at hlen
          omega
  | cons b rest ih =>
      cases bs' with
      | nil =>
          have hlen := h.length_le
          rw [show lo = hi from h', List.length_cons, Nat.succ_mul] at hlen
          omega
      | cons b' rest' =>
          have haddr : b.addr = b'.addr := h.1.trans h'.1.symm
          have hsame : b = b' → b :: rest = b' :: rest' := by
            intro heq
            subst heq
            have hu' : used rest = used rest' := by
              cases hb : b.free with
              | true => rw [← used_cons_free hb rest, hu, used_cons_free hb]
              | false =>
                  rw [used_cons_used hb, used_cons_used hb] at hu
                  exact (List.cons.inj hu).2
            rw [ih h.2 h'.2 hc.tail hc'.tail hu']
          -- a used block at `lo` would show among the used blocks of the other
          have hlate : ∀ {e : Block} {es : List Block}, Tiles hdr lo (e :: es) hi →
              ∀ x ∈ used es, x.addr ≠ lo := by
            intro e es he x hx
            have hbound := he.2.bounds (mem_used.mp hx).1
            have hstart := he.1
            omega
          cases hb : b.free with
          | false =>
              cases hb' : b'.free with
              | false =>
                  rw [used_cons_used hb, used_cons_used hb'] at hu
                  exact hsame (List.cons.inj hu).1
              | true =>
                  rw [used_cons_used hb, used_cons_free hb'] at hu
                  exact absurd h.1 (hlate h' b (hu ▸ List.mem_cons_self ..))
          | true =>
              cases hb' : b'.free with
              | false =>
                  rw [used_cons_free hb, used_cons_used hb'] at hu
                  exact absurd h'.1 (hlate h b' (hu ▸ List.mem_cons_self ..))
              | true =>
                  rw [used_cons_free hb, used_cons_free hb'] at hu
                  have hstop : b.addr + hdr + b.size = b'.addr + hdr + b'.size := by
                    rcases free_head_stop h hc hb with ⟨hn, -, hend⟩ | ⟨d, ds, hd, hend⟩ <;>
                      rcases free_head_stop h' hc' hb' with
                        ⟨hn', -, hend'⟩ | ⟨d', ds', hd', hend'⟩
                    · rw [hend, hend']
                    · rw [hn, hd'] at hu
                      exact nomatch hu
                    · rw [hd, hn'] at hu
                      exact nomatch hu
                    · rw [hd, hd'] at hu
                      rw [hend, hend', (List.cons.inj hu).1]
                  refine hsame ?_
                  cases b with
                  | mk addr size free =>
                      cases b' with
                      | mk addr' size' free' =>
                          simp only [Block.mk.injEq] at *
                          exact ⟨haddr, by omega, hb.trans hb'.symm⟩

/-- Tilings with the same blocks in use list them in the same order. -/
theorem used_eq_of_mem_iff (hpos : 0 < hdr) {bs' : List Block} (h : Tiles hdr lo bs hi)
    (h' : Tiles hdr lo bs' hi) (hmem : ∀ b, b ∈ used bs ↔ b ∈ used bs') :
    used bs = used bs' := by
  have hsorted : ∀ {cs}, Tiles hdr lo cs hi →
      (used cs).Pairwise fun a b => a.addr + hdr + a.size ≤ b.addr :=
    fun ht => ht.sorted.sublist List.filter_sublist
  have hnodup : ∀ {cs}, Tiles hdr lo cs hi → (used cs).Nodup :=
    fun ht => (hsorted ht).imp fun hle heq => by
      rw [heq] at hle
      omega
  refine List.Perm.eq_of_pairwise (fun a b _ _ hab hba => ?_) (hsorted h) (hsorted h')
    ((List.perm_ext_iff_of_nodup (hnodup h) (hnodup h')).mpr hmem)
  omega

end BlockTiling
