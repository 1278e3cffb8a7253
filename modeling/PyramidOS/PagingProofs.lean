import PyramidOS.ByteMemoryProofs
import Mathlib.Data.Nat.Bitwise

/-! # Two-level page tables

    The 32-bit page tables of the i386 in a byte memory: a directory of 1024
    entries, each naming a table of 1024 entries or nothing.  Bit 0 of an entry
    is its present bit, and its upper 20 bits name a frame.

    * `walk m dir v` — the frame the processor reads for the page of `v`, and
      `translate`, the physical address of `v`;
    * `PageTree m dir pages` — the directory and its tables are distinct pages,
      all among `pages`, and no table hangs in two places;
    * `PageTree.congr`, `PageTree.setEntry`, `PageTree.link` — the three ways
      memory changes under a tree, each with the walk afterwards: outside its
      pages, in one entry of a table, and by hanging in a new table. -/

namespace TwoLevelPaging

open ByteMem

variable {m m' : Mem} {dir t u v i j e : Nat} {pages : List Nat}

/-- The frame a directory or table entry names, if it is present. -/
def decode (e : Nat) : Option Nat :=
  if e &&& 1 = 0 then none else some (e &&& 0xFFFFF000)

/-- Entry `i` of the directory or table at `t`. -/
def entry (m : Mem) (t i : Nat) : Option Nat := decode (m.load32 (t + 4 * i))

/-- The upper 10 bits of a virtual address. -/
def dirIndex (v : Nat) : Nat := v >>> 22

/-- The middle 10 bits of a virtual address. -/
def tableIndex (v : Nat) : Nat := (v >>> 12) &&& 0x3FF

/-- **THE WALK**: the frame of the page of `v`, or nothing on a page fault. -/
def walk (m : Mem) (dir v : Nat) : Option Nat :=
  (entry m dir (dirIndex v)).bind fun t => entry m t (tableIndex v)

/-- The physical address of the virtual address `v`. -/
def translate (m : Mem) (dir v : Nat) : Option Nat :=
  (walk m dir v).map fun frame => frame + v % 4096

/-! ## Entries and indices -/

theorem and_shiftLeft (a b n : Nat) : a &&& (b <<< n) = ((a >>> n) &&& b) <<< n := by
  apply Nat.eq_of_testBit_eq
  intro k
  simp only [Nat.testBit_and, Nat.testBit_shiftLeft, Nat.testBit_shiftRight]
  by_cases hk : n ≤ k
  · simp [hk, Nat.add_sub_cancel' hk]
  · simp [hk]

theorem and_frame (he : e < 2 ^ 32) : e &&& 0xFFFFF000 = e - e % 4096 := by
  rw [show (0xFFFFF000 : Nat) = (2 ^ 20 - 1) <<< 12 from rfl, and_shiftLeft,
    Nat.and_two_pow_sub_one_eq_mod, Nat.shiftLeft_eq, Nat.shiftRight_eq_div_pow]
  omega

/-- A page address with the present and read/write flags. -/
theorem or_flags (ht : t % 4096 = 0) : t ||| 1 ||| 2 = t + 3 := by
  obtain ⟨k, rfl⟩ := Nat.dvd_of_mod_eq_zero ht
  rw [Nat.or_assoc]
  have hlow : (3 : Nat) < 2 ^ 12 := by decide
  exact (Nat.two_pow_add_eq_or_of_lt hlow k).symm

/-- Such an entry is present and names that page. -/
theorem decode_flags (ht : t % 4096 = 0) (hlt : t < 2 ^ 32) :
    decode ((t ||| 1 ||| 2) % 2 ^ 32) = some t := by
  rw [or_flags ht, Nat.mod_eq_of_lt (by omega), decode, Nat.and_one_is_mod,
    if_neg (by omega), and_frame (by omega)]
  congr 1
  omega

theorem dirIndex_eq (v : Nat) : dirIndex v = v / 2 ^ 22 := Nat.shiftRight_eq_div_pow v 22

theorem tableIndex_eq (v : Nat) : tableIndex v = v / 4096 % 1024 := by
  rw [tableIndex, show (0x3FF : Nat) = 2 ^ 10 - 1 from rfl,
    Nat.and_two_pow_sub_one_eq_mod, Nat.shiftRight_eq_div_pow]

theorem dirIndex_lt (hv : v < 2 ^ 32) : dirIndex v < 1024 := by
  rw [dirIndex_eq]
  omega

theorem tableIndex_lt (v : Nat) : tableIndex v < 1024 := by
  rw [tableIndex_eq]
  omega

/-- The two indices together identify the page. -/
theorem indices_eq_iff :
    (dirIndex u = dirIndex v ∧ tableIndex u = tableIndex v) ↔ u / 4096 = v / 4096 := by
  rw [dirIndex_eq, dirIndex_eq, tableIndex_eq, tableIndex_eq]
  omega

/-- All addresses of a page walk alike. -/
theorem walk_page (m : Mem) (dir v : Nat) : walk m dir v = walk m dir (v / 4096 * 4096) := by
  obtain ⟨hd, ht⟩ := indices_eq_iff.mpr (show v / 4096 = v / 4096 * 4096 / 4096 by omega)
  rw [walk, walk, hd, ht]

/-! ## Entries and stores -/

/-- An entry depends on the bytes of its page only. -/
theorem entry_congr (hj : j < 1024)
    (h : ∀ x, t ≤ x → x < t + 4096 → m'.byte x = m.byte x) :
    entry m' t j = entry m t j :=
  congrArg decode (load32_congr fun x _ _ => h x (by omega) (by omega))

theorem entry_store_self (m : Mem) (t i e : Nat) :
    entry (m.store32 (t + 4 * i) e) t i = decode (e % 2 ^ 32) :=
  congrArg decode (load32_store32_self m (t + 4 * i) e)

theorem entry_store_index_ne (hij : i ≠ j) :
    entry (m.store32 (t + 4 * i) e) t j = entry m t j :=
  congrArg decode (load32_store32_ne (by omega))

theorem entry_store_page_ne (ht : t % 4096 = 0) (hu : u % 4096 = 0) (htu : t ≠ u)
    (hi : i < 1024) (hj : j < 1024) :
    entry (m.store32 (t + 4 * i) e) u j = entry m u j :=
  congrArg decode (load32_store32_ne (by omega))

/-- A zeroed page has no present entry. -/
theorem entry_zeroed (m : Mem) (t : Nat) (hj : j < 1024) :
    entry (memset m t 0 4096) t j = none := by
  have hz : ∀ k, k < 4 → (memset m t 0 4096).byte (t + 4 * j + k) = 0#8 := by
    intro k hk
    rw [byte_memset, if_pos (by omega)]
    rfl
  rw [entry, Mem.load32, show t + 4 * j = t + 4 * j + 0 from rfl, hz 0 (by omega),
    hz 1 (by omega), hz 2 (by omega), hz 3 (by omega)]
  rfl

/-! ## Trees -/

/-- **A PAGE-TABLE TREE** made of pages from `pages`. -/
structure PageTree (m : Mem) (dir : Nat) (pages : List Nat) : Prop where
  aligned : ∀ a ∈ pages, a % 4096 = 0
  dirMem : dir ∈ pages
  tableMem : ∀ i, i < 1024 → ∀ t, entry m dir i = some t → t ∈ pages ∧ t ≠ dir
  tableInj : ∀ i j t, i < 1024 → j < 1024 → entry m dir i = some t →
    entry m dir j = some t → i = j

/-- A zeroed page is a tree without tables. -/
theorem PageTree.empty (m : Mem) (hdir : dir % 4096 = 0) :
    PageTree (memset m dir 0 4096) dir [dir] := by
  constructor
  · intro a ha
    rw [List.mem_singleton.mp ha]
    exact hdir
  · exact List.mem_singleton_self dir
  · intro i hi t ht
    rw [entry_zeroed m dir hi] at ht
    exact nomatch ht
  · intro i j t hi _ ht _
    rw [entry_zeroed m dir hi] at ht
    exact nomatch ht

/-- **FRAME**: what happens outside its pages changes no translation. -/
theorem PageTree.congr (h : PageTree m dir pages)
    (hsame : ∀ a ∈ pages, ∀ x, a ≤ x → x < a + 4096 → m'.byte x = m.byte x) :
    PageTree m' dir pages ∧ ∀ v, v < 2 ^ 32 → walk m' dir v = walk m dir v := by
  have hdir : ∀ i, i < 1024 → entry m' dir i = entry m dir i := fun i hi =>
    entry_congr hi (hsame dir h.dirMem)
  constructor
  · refine ⟨h.aligned, h.dirMem, fun i hi t ht => ?_, fun i j t hi hj hti htj => ?_⟩
    · rw [hdir i hi] at ht
      exact h.tableMem i hi t ht
    · rw [hdir i hi] at hti
      rw [hdir j hj] at htj
      exact h.tableInj i j t hi hj hti htj
  · intro v hv
    have hi := dirIndex_lt hv
    rw [walk, walk, hdir _ hi]
    cases ht : entry m dir (dirIndex v) with
    | none => rfl
    | some t =>
        obtain ⟨hmem, -⟩ := h.tableMem _ hi t ht
        exact entry_congr (tableIndex_lt v) (hsame t hmem)

/-- **ONE ENTRY**: storing entry `j` of the table at index `i` changes the
    translation of that one page. -/
theorem PageTree.setEntry (h : PageTree m dir pages) (hi : i < 1024) (hj : j < 1024)
    (ht : entry m dir i = some t) (e : Nat) :
    PageTree (m.store32 (t + 4 * j) e) dir pages
    ∧ ∀ v, v < 2 ^ 32 → walk (m.store32 (t + 4 * j) e) dir v
        = if dirIndex v = i ∧ tableIndex v = j then decode (e % 2 ^ 32)
          else walk m dir v := by
  obtain ⟨hmem, hne⟩ := h.tableMem i hi t ht
  have hta := h.aligned t hmem
  have hda := h.aligned dir h.dirMem
  have hdir : ∀ k, k < 1024 → entry (m.store32 (t + 4 * j) e) dir k = entry m dir k :=
    fun k hk => entry_store_page_ne hta hda hne hj hk
  constructor
  · refine ⟨h.aligned, h.dirMem, fun k hk u hu => ?_, fun k l u hk hl huk hul => ?_⟩
    · rw [hdir k hk] at hu
      exact h.tableMem k hk u hu
    · rw [hdir k hk] at huk
      rw [hdir l hl] at hul
      exact h.tableInj k l u hk hl huk hul
  · intro v hv
    have hdv := dirIndex_lt hv
    rw [walk, walk, hdir _ hdv]
    by_cases hvi : dirIndex v = i
    · rw [hvi, ht]
      by_cases hvj : tableIndex v = j
      · rw [if_pos ⟨rfl, hvj⟩, ← hvj]
        exact entry_store_self m t (tableIndex v) e
      · rw [if_neg fun hc => hvj hc.2]
        exact entry_store_index_ne (Ne.symm hvj)
    · rw [if_neg fun hc => hvi hc.1]
      cases hu : entry m dir (dirIndex v) with
      | none => rfl
      | some u =>
          -- another index holds another table
          obtain ⟨humem, -⟩ := h.tableMem _ hdv u hu
          have htu : t ≠ u := fun heq => hvi (h.tableInj _ _ u hdv hi hu (heq ▸ ht))
          exact entry_store_page_ne hta (h.aligned u humem) htu hj (tableIndex_lt v)

/-- **A NEW TABLE**: hanging the page `t` into slot `i` gives the pages of that
    slot the translations `t` holds. -/
theorem PageTree.link (h : PageTree m dir pages) (hi : i < 1024) (hfresh : t ∉ pages)
    (hta : t % 4096 = 0) (htlt : t < 2 ^ 32) :
    PageTree (m.store32 (dir + 4 * i) (t ||| 1 ||| 2)) dir (t :: pages)
    ∧ entry (m.store32 (dir + 4 * i) (t ||| 1 ||| 2)) dir i = some t
    ∧ ∀ v, v < 2 ^ 32 → walk (m.store32 (dir + 4 * i) (t ||| 1 ||| 2)) dir v
        = if dirIndex v = i then entry m t (tableIndex v) else walk m dir v := by
  have hda := h.aligned dir h.dirMem
  have htd : dir ≠ t := fun heq => hfresh (heq ▸ h.dirMem)
  have hself : entry (m.store32 (dir + 4 * i) (t ||| 1 ||| 2)) dir i = some t :=
    (entry_store_self m dir i _).trans (decode_flags hta htlt)
  -- what the directory holds at each index afterwards
  have hdir : ∀ k u, k < 1024 →
      entry (m.store32 (dir + 4 * i) (t ||| 1 ||| 2)) dir k = some u →
      (k = i ∧ u = t) ∨ (k ≠ i ∧ entry m dir k = some u) := by
    intro k u _ hu
    by_cases hki : k = i
    · rw [hki, hself] at hu
      exact Or.inl ⟨hki, (Option.some.inj hu).symm⟩
    · rw [entry_store_index_ne (Ne.symm hki)] at hu
      exact Or.inr ⟨hki, hu⟩
  refine ⟨⟨fun a ha => ?_, List.mem_cons_of_mem _ h.dirMem, ?_, ?_⟩, hself, ?_⟩
  · rcases List.mem_cons.mp ha with heq | hmem
    · rw [heq]
      exact hta
    · exact h.aligned a hmem
  · intro k hk u hu
    rcases hdir k u hk hu with ⟨-, heq⟩ | ⟨-, hold⟩
    · rw [heq]
      exact ⟨List.mem_cons_self .., Ne.symm htd⟩
    · obtain ⟨hmem, hne⟩ := h.tableMem k hk u hold
      exact ⟨List.mem_cons_of_mem _ hmem, hne⟩
  · intro k l u hk hl huk hul
    rcases hdir k u hk huk with ⟨hki, heq⟩ | ⟨-, hold⟩ <;>
      rcases hdir l u hl hul with ⟨hli, heq'⟩ | ⟨-, hold'⟩
    · rw [hki, hli]
    · exact absurd (heq ▸ (h.tableMem l hl u hold').1) hfresh
    · exact absurd (heq' ▸ (h.tableMem k hk u hold).1) hfresh
    · exact h.tableInj k l u hk hl hold hold'
  · intro v hv
    have hdv := dirIndex_lt hv
    rw [walk]
    by_cases hvi : dirIndex v = i
    · rw [if_pos hvi, hvi, hself]
      exact entry_store_page_ne hda hta htd hi (tableIndex_lt v)
    · rw [if_neg hvi, walk, entry_store_index_ne (Ne.symm hvi)]
      cases hu : entry m dir (dirIndex v) with
      | none => rfl
      | some u =>
          obtain ⟨humem, hud⟩ := h.tableMem _ hdv u hu
          exact entry_store_page_ne hda (h.aligned u humem) (Ne.symm hud) hi
            (tableIndex_lt v)

/-- The tables a directory names. -/
def tables (m : Mem) (dir : Nat) : List Nat := (List.range 1024).filterMap (entry m dir)

theorem mem_tables : t ∈ tables m dir ↔ ∃ i, i < 1024 ∧ entry m dir i = some t := by
  rw [tables, List.mem_filterMap]
  constructor
  · rintro ⟨i, hi, ht⟩
    exact ⟨i, List.mem_range.mp hi, ht⟩
  · rintro ⟨i, hi, ht⟩
    exact ⟨i, List.mem_range.mpr hi, ht⟩

theorem PageTree.tables_subset (h : PageTree m dir pages) :
    ∀ a ∈ dir :: tables m dir, a ∈ pages := by
  intro a ha
  rcases List.mem_cons.mp ha with heq | hmem
  · rw [heq]
    exact h.dirMem
  · obtain ⟨i, hi, ht⟩ := mem_tables.mp hmem
    exact (h.tableMem i hi a ht).1

/-- The directory and its tables are pairwise distinct pages. -/
theorem PageTree.tables_nodup (h : PageTree m dir pages) : (dir :: tables m dir).Nodup := by
  refine List.nodup_cons.mpr ⟨fun hmem => ?_, ?_⟩
  · obtain ⟨i, hi, ht⟩ := mem_tables.mp hmem
    exact (h.tableMem i hi dir ht).2 rfl
  · have hinj : ∀ l : List Nat, (∀ i ∈ l, i < 1024) → l.Nodup →
        (l.filterMap (entry m dir)).Nodup := by
      intro l
      induction l with
      | nil => exact fun _ _ => List.nodup_nil
      | cons i l ih =>
          intro hlt hnd
          obtain ⟨hi, hnd'⟩ := List.nodup_cons.mp hnd
          have hrest := ih (fun j hj => hlt j (List.mem_cons_of_mem _ hj)) hnd'
          cases ht : entry m dir i with
          | none =>
              rw [List.filterMap_cons_none ht]
              exact hrest
          | some t =>
              rw [List.filterMap_cons_some ht]
              refine List.nodup_cons.mpr ⟨fun hmem => ?_, hrest⟩
              obtain ⟨j, hj, hjt⟩ := List.mem_filterMap.mp hmem
              have hij := h.tableInj i j t (hlt i (List.mem_cons_self ..))
                (hlt j (List.mem_cons_of_mem _ hj)) ht hjt
              exact hi (hij ▸ hj)
    exact hinj _ (fun i hi => List.mem_range.mp hi) List.nodup_range

end TwoLevelPaging
