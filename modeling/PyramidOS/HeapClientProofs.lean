import PyramidOS.HeapOrderProofs
import Mathlib.Data.List.Perm.Basic

/-! # Owning heap blocks

    The heap from the point of view of code that owns some of its blocks and
    keeps data in them.  `Owns bs₀ h live` says that the clients of the heap `h`
    hold exactly `live`, and that the blocks `bs₀` had in use still are.  Each
    operation comes with what it does to the data of the other owners
    (`Keeps`): nothing.

    * `Owns.alloc`, `Owns.free`, `Owns.write` — the three operations;
    * `Owns.blockList_eq` — with the blocks of `bs₀` alone in use, the block list
      is what it was. -/

namespace PyramidHeap

open ByteMem PyramidKernel BlockTiling

variable {h h' : Heap} {m m' : Mem} {bs₀ bs : List Block} {live live' : List (Nat × Nat)}
  {l : Nat × Nat} {p n size x : Nat}

/-- The data of the objects `live` is the same in both memories. -/
def Keeps (live : List (Nat × Nat)) (m m' : Mem) : Prop :=
  ∀ l ∈ live, ∀ x, InRange l x → m'.byte x = m.byte x

theorem Keeps.refl (live : List (Nat × Nat)) (m : Mem) : Keeps live m m :=
  fun _ _ _ _ => rfl

theorem Keeps.trans {m'' : Mem} (h1 : Keeps live m m') (h2 : Keeps live m' m'') :
    Keeps live m m'' :=
  fun l hl x hx => (h2 l hl x hx).trans (h1 l hl x hx)

theorem Keeps.mono (hk : Keeps live m m') (hsub : ∀ l ∈ live', l ∈ live) : Keeps live' m m' :=
  fun l hl => hk l (hsub l hl)

/-- A word of a kept object. -/
theorem Keeps.load32 (hk : Keeps live m m') (hl : (p, n) ∈ live) (off : Nat)
    (hoff : off + 4 ≤ n) : m'.load32 (p + off) = m.load32 (p + off) := by
  refine load32_congr fun x hx hx' => hk (p, n) hl x ⟨?_, ?_⟩
  · show p ≤ x
    omega
  · show x < p + n
    omega

/-- The order in which the clients' blocks are listed does not matter. -/
theorem HeapInv.perm (hi : HeapInv ⟨h, live⟩ bs) (hperm : live.Perm live') :
    HeapInv ⟨h, live'⟩ bs := by
  refine ⟨hi.rep, fun l hl => hi.covers l (hperm.mem_iff.mpr hl), fun b hb => ?_, ?_⟩
  · obtain ⟨size, hsize⟩ := hi.owned b hb
    exact ⟨size, hperm.mem_iff.mp hsize⟩
  · exact (hperm.map Prod.fst).nodup_iff.mp hi.nodup

/-- Stores into a payload keep the invariant. -/
theorem HeapInv.writes (hi : HeapInv ⟨h, live⟩ bs) (hl : l ∈ live)
    (hw : WritesIn (InRange l) h.mem m') : HeapInv ⟨{ h with mem := m' }, live⟩ bs :=
  hi.stores hw fun _ hx => hi.off_headers hl hx

/-- Payloads of two objects do not overlap. -/
theorem HeapInv.apart (hi : HeapInv ⟨h, live⟩ bs) {l' : Nat × Nat} (hl : l ∈ live)
    (hl' : l' ∈ live) (hne : l.1 ≠ l'.1) (hx : InRange l x) : ¬ InRange l' x := by
  obtain ⟨b, hb, hptr, hsize⟩ := hi.covers l hl
  obtain ⟨b', hb', hptr', hsize'⟩ := hi.covers l' hl'
  have hbb : b ≠ b' := fun heq => hne (by rw [hptr, hptr', heq])
  have happart := hi.rep.list.tiles.apart (mem_used.mp hb).1 (mem_used.mp hb').1 hbb
  obtain ⟨hlo, hhi⟩ := hx
  rintro ⟨hlo', hhi'⟩
  omega

/-- **OWNERSHIP**: the clients of `h` hold the blocks `live`, and whatever `bs₀`
    had in use still is. -/
def Owns (bs₀ : List Block) (h : Heap) (live : List (Nat × Nat)) : Prop :=
  ∃ bs, HeapInv ⟨h, live⟩ bs ∧ ∀ b ∈ used bs₀, b ∈ used bs

/-- The blocks in use in `bs₀` belong to objects of `base`. -/
def Covers (base : List (Nat × Nat)) (bs₀ : List Block) : Prop :=
  ∀ b ∈ used bs₀, ∃ n, (b.addr + 20, n) ∈ base

theorem Owns.perm (ho : Owns bs₀ h live) (hperm : live.Perm live') : Owns bs₀ h live' := by
  obtain ⟨bs, hi, hsub⟩ := ho
  exact ⟨bs, hi.perm hperm, hsub⟩

theorem Owns.bounds (ho : Owns bs₀ h live) (hl : l ∈ live) :
    0xD0000000 < l.1 ∧ l.1 + l.2 ≤ 0xD0100000 := by
  obtain ⟨bs, hi, -⟩ := ho
  exact hi.ptr_bounds hl

theorem Owns.nodup (ho : Owns bs₀ h live) : (live.map Prod.fst).Nodup := by
  obtain ⟨bs, hi, -⟩ := ho
  exact hi.nodup

/-- **`kmalloc` FOR AN OWNER**: it returns; it gives a new block or NULL, and
    keeps everybody's data. -/
theorem Owns.alloc (ho : Owns bs₀ h live) (size : Nat) (hsize : size < 2 ^ 32) :
    ∃ p h', kmalloc h size = .ok (p, h') ∧ Keeps live h.mem h'.mem
      ∧ ((p = 0 ∧ Owns bs₀ h' live) ∨ (p ≠ 0 ∧ Owns bs₀ h' ((p, size) :: live))) := by
  obtain ⟨bs, hi, hsub⟩ := ho
  obtain ⟨p, h', bs', hok, hi', hused, hw⟩ := hi.kmalloc hsize
  have hsub' : ∀ b ∈ used bs₀, b ∈ used bs' := fun b hb => hused b (hsub b hb)
  refine ⟨p, h', hok, fun l hl x hx => hw.byte_eq (hi'.off_headers ?_ hx), ?_⟩
  · rw [liveAfter]
    by_cases hp : p = 0
    · rw [if_pos hp]
      exact hl
    · rw [if_neg hp]
      exact List.mem_cons_of_mem _ hl
  · rw [liveAfter] at hi'
    by_cases hp : p = 0
    · rw [if_pos hp] at hi'
      exact Or.inl ⟨hp, bs', hi', hsub'⟩
    · rw [if_neg hp] at hi'
      exact Or.inr ⟨hp, bs', hi', hsub'⟩

/-- **`kfree` FOR AN OWNER**: freeing a block of one's own returns and keeps the
    others' data. -/
theorem Owns.free (ho : Owns bs₀ h ((p, n) :: live)) (hbase : Covers live bs₀) :
    ∃ h', kfree h p = .ok h' ∧ Keeps live h.mem h'.mem ∧ Owns bs₀ h' live := by
  obtain ⟨bs, hi, hsub⟩ := ho
  obtain ⟨hfresh, -⟩ := List.nodup_cons.mp hi.nodup
  have hne : ∀ l ∈ live, l.1 ≠ p := fun l hl heq =>
    hfresh (List.mem_map.mpr ⟨l, hl, heq⟩)
  have hvalid : HeapClient.ValidFree ⟨h, (p, n) :: live⟩ p := Or.inr ⟨n, List.mem_cons_self ..⟩
  obtain ⟨h', bs', hok, hi', hused, hw⟩ := hi.kfree hvalid
  have hrest : liveWithout ((p, n) :: live) p = live := by
    rw [liveWithout, List.filter_cons_of_neg (by simp)]
    exact List.filter_eq_self.mpr fun l hl => decide_eq_true (hne l hl)
  rw [show (HeapClient.mk h ((p, n) :: live)).live = (p, n) :: live from rfl, hrest] at hi'
  refine ⟨h', hok, fun l hl x hx => hw.byte_eq (hi.off_headers ?_ hx), bs', hi', fun b hb => ?_⟩
  · exact List.mem_cons_of_mem _ hl
  · obtain ⟨k, hk⟩ := hbase b hb
    rw [hused]
    exact List.mem_filter.mpr ⟨hsub b hb, decide_eq_true (hne _ hk)⟩

/-- **STORES OF AN OWNER** into a block of its own keep the others' data. -/
theorem Owns.write (ho : Owns bs₀ h ((p, n) :: live))
    (hw : WritesIn (InRange (p, n)) h.mem m') :
    Keeps live h.mem m' ∧ Owns bs₀ { h with mem := m' } ((p, n) :: live) := by
  obtain ⟨bs, hi, hsub⟩ := ho
  refine ⟨fun l hl x hx => hw.byte_eq ?_, bs, hi.writes (List.mem_cons_self ..) hw, hsub⟩
  obtain ⟨hfresh, -⟩ := List.nodup_cons.mp hi.nodup
  refine hi.apart (List.mem_cons_of_mem _ hl) (List.mem_cons_self ..) (fun heq => ?_) hx
  exact hfresh (List.mem_map.mpr ⟨l, hl, heq⟩)

/-- The bytes outside the heap are the same in both memories. -/
def KeepsOutside (m m' : Mem) : Prop :=
  ∀ x, x < 0xD0000000 ∨ 0xD0100000 ≤ x → m'.byte x = m.byte x

/-- Headers lie in the heap. -/
theorem HeapInv.header_bounds (hi : HeapInv ⟨h, live⟩ bs) (hx : HeaderByte bs x) :
    0xD0000000 ≤ x ∧ x < 0xD0100000 := by
  obtain ⟨b, hb, hlo, hhi⟩ := hx
  have hbound := hi.rep.list.bounds hb
  omega

theorem HeapInv.keepsOutside (hi : HeapInv ⟨h', live⟩ bs)
    (hw : WritesIn (HeaderByte bs) m m') : KeepsOutside m m' := by
  refine fun x hx => hw.byte_eq fun hheader => ?_
  have hbound := hi.header_bounds hheader
  omega

theorem Owns.alloc_outside (ho : Owns bs₀ h live) (hsize : size < 2 ^ 32)
    (hok : kmalloc h size = .ok (p, h')) : KeepsOutside h.mem h'.mem := by
  obtain ⟨bs, hi, -⟩ := ho
  obtain ⟨p', h'', bs', hok', hi', -, hw⟩ := hi.kmalloc hsize
  rw [hok] at hok'
  cases hok'
  exact hi'.keepsOutside hw

theorem Owns.free_outside (ho : Owns bs₀ h ((p, n) :: live)) (hok : kfree h p = .ok h') :
    KeepsOutside h.mem h'.mem := by
  obtain ⟨bs, hi, -⟩ := ho
  obtain ⟨h'', bs', hok', -, -, hw⟩ := hi.kfree (Or.inr ⟨n, List.mem_cons_self ..⟩)
  rw [hok] at hok'
  cases hok'
  exact hi.keepsOutside hw

theorem Owns.write_outside (ho : Owns bs₀ h live) (hl : l ∈ live)
    (hw : WritesIn (InRange l) h.mem m') : KeepsOutside h.mem m' := by
  have hbound := ho.bounds hl
  refine fun x hx => hw.byte_eq ?_
  rintro ⟨hlo, hhi⟩
  omega

/-- Stores outside the heap keep the invariant. -/
theorem HeapInv.write_outside (hi : HeapInv ⟨h, live⟩ bs) (val : Byte)
    (hx : x < 0xD0000000 ∨ 0xD0100000 ≤ x) :
    HeapInv ⟨{ h with mem := h.mem.store8 x val }, live⟩ bs := by
  refine hi.stores ((WritesIn.refl (fun y => y = x) _).store8 val rfl) ?_
  rintro y rfl hheader
  have hbound := hi.header_bounds hheader
  omega

/-- The operation frees the object `l`, or stores into it. -/
def HeapOp.Touches (op : HeapOp) (l : Nat × Nat) : Prop :=
  match op with
  | .kmalloc _ => False
  | .kfree ptr => ptr.toNat = l.1
  | .write addr _ => InRange l addr.toNat

/-- **SOMEBODY ELSE'S OPERATION** leaves what it does not touch live and keeps its
    data. -/
theorem HeapInv.step_keeps {s t : HeapClient} {op : HeapOp} (hi : HeapInv s bs)
    (hst : HeapStep s op t) (live : List (Nat × Nat)) (hsub : ∀ l ∈ live, l ∈ s.live)
    (hother : ∀ l ∈ live, ¬ op.Touches l) :
    (∀ l ∈ live, l ∈ t.live) ∧ Keeps live s.heap.mem t.heap.mem := by
  cases hst with
  | @kmalloc size ptr h' hok =>
    obtain ⟨ptr', h'', bs', hok', hinv, -, hw⟩ := hi.kmalloc size.toNat_lt
    rw [hok] at hok'
    cases hok'
    have hafter : ∀ l ∈ live, l ∈ liveAfter s.live ptr size.toNat := by
      intro l hl
      rw [liveAfter]
      by_cases hp : ptr = 0
      · rw [if_pos hp]
        exact hsub l hl
      · rw [if_neg hp]
        exact List.mem_cons_of_mem _ (hsub l hl)
    exact ⟨hafter, fun l hl x hx => hw.byte_eq (hinv.off_headers (hafter l hl) hx)⟩
  | kfree hvalid hok =>
    obtain ⟨h'', bs', hok', -, -, hw⟩ := hi.kfree hvalid
    rw [hok] at hok'
    cases hok'
    refine ⟨fun l hl => List.mem_filter.mpr ⟨hsub l hl, decide_eq_true ?_⟩,
      fun l hl x hx => hw.byte_eq (hi.off_headers (hsub l hl) hx)⟩
    exact fun heq => hother l hl heq.symm
  | write _ _ =>
    refine ⟨hsub, fun l hl x hx => byte_store8_ne fun heq => hother l hl ?_⟩
    rw [heq] at hx
    exact hx

/-- What the block list says of a block. -/
theorem mem_viewsOf {b : Block} (hb : b ∈ bs) (p : Nat) :
    ∃ view ∈ viewsOf p bs, view.addr = b.addr ∧ view.size = b.size
      ∧ view.isFree = if b.free then 1 else 0 := by
  induction bs generalizing p with
  | nil => cases hb
  | cons c rest ih =>
    rcases List.mem_cons.mp hb with rfl | hrest
    · exact ⟨_, List.mem_cons_self .., rfl, rfl, rfl⟩
    · obtain ⟨view, hview, hfacts⟩ := ih hrest c.addr
      exact ⟨view, List.mem_cons_of_mem _ hview, hfacts⟩

/-- An owner's block is in use. -/
theorem Owns.inUse (ho : Owns bs₀ h live) (hl : l ∈ live) :
    ∃ b ∈ h.blockList, l.1 = b.addr + 20 ∧ l.2 ≤ b.size ∧ b.isFree = 0 := by
  obtain ⟨bs, hi, -⟩ := ho
  obtain ⟨b, hb, hptr, hsize⟩ := hi.covers l hl
  obtain ⟨hmem, hused⟩ := mem_used.mp hb
  obtain ⟨view, hview, haddr, hsize', hfree⟩ := mem_viewsOf hmem 0
  refine ⟨view, hi.rep.blockList_eq ▸ hview, ?_, ?_, ?_⟩
  · rw [haddr]
    exact hptr
  · rw [hsize']
    exact hsize
  · rw [hfree, hused]
    rfl

/-- **NOTHING LEAKED**: with the objects of `base` alone live, the block list is
    the one `bs₀` represents. -/
theorem Owns.blockList_eq {base : List (Nat × Nat)} {h₀ : Heap}
    (hi₀ : HeapInv ⟨h₀, base⟩ bs₀) (ho : Owns bs₀ h base) : h.blockList = h₀.blockList := by
  obtain ⟨bs, hi, hsub⟩ := ho
  refine blockList_eq_of_used hi.rep hi₀.rep ?_
  refine used_eq_of_mem_iff (by decide) hi.rep.list.tiles hi₀.rep.list.tiles fun b =>
    ⟨fun hb => ?_, hsub b⟩
  -- a block in use belongs to an object of `base`, so to a block of `bs₀`
  obtain ⟨n, hn⟩ := hi.owned b hb
  obtain ⟨b₀, hb₀, hptr, -⟩ := hi₀.covers _ hn
  have haddr : b.addr = b₀.addr := by
    have hptr' : b.addr + 20 = b₀.addr + 20 := hptr
    omega
  have heq := hi.rep.list.tiles.eq_of_addr (by decide) (mem_used.mp hb).1
    (mem_used.mp (hsub b₀ hb₀)).1 haddr
  rw [heq]
  exact hb₀

end PyramidHeap
