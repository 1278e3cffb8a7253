import PyramidOS.AtaProofs
import PyramidOS.HeapClientProofs
import PyramidOS.ShellProofs

/-! # The sector that `diskread` reads

    `diskread` hands the number behind it to `atoi`, whose result wraps at 32 bits,
    and the result to `ata_read_sector`.

    * `atoi_digits` — the number of a string of digits, modulo 2^32;
    * `cmdDiskread_spec` — the ways the command ends;
    * `diskread_typed_iff` — when the sector that was typed is the only one read. -/

namespace PyramidShell

open ByteMem PyramidString PyramidKernel PyramidHeap PyramidBlock PyramidVfs PyramidFs
  PyramidAta BlockTiling LabelledRun

/-! ## Numbers -/

/-- The value of a string of decimal digits. -/
def decValue (digits : List UInt8) : Nat :=
  digits.foldl (fun n a => n * 10 + (a.toNat - 48)) 0

/-- Decimal digits. -/
def Digits (s : List UInt8) : Prop := ∀ a ∈ s, 48 ≤ a ∧ a ≤ 57

theorem int32_eq (x : Int) : ∃ k, int32 x = x + 2 ^ 32 * k := by
  refine ⟨-((x + 2 ^ 31) / 2 ^ 32), ?_⟩
  rw [int32, Int.bmod_def]
  split <;> omega

/-- Wrapping early or late is the same. -/
theorem int32_congr {x y : Int} (h : ∃ k, x = y + 2 ^ 32 * k) : int32 x = int32 y := by
  obtain ⟨k, rfl⟩ := h
  have hmod : (y + 4294967296 * k) % 4294967296 = y % 4294967296 :=
    Int.add_mul_emod_self_left y 4294967296 k
  rw [int32, int32, Int.bmod_def, Int.bmod_def]
  push_cast
  rw [hmod]

theorem int32_neg_iff (n : Nat) : int32 n < 0 ↔ 2 ^ 31 ≤ n % 2 ^ 32 := by
  rw [int32, Int.bmod_def]
  split <;> omega

theorem castU32_int32 (n : Nat) : castU32 (int32 n) = n % 2 ^ 32 := by
  rw [castU32, int32, Int.bmod_def]
  split <;> omega

theorem atoiLoop_digits {s : List UInt8} (hs : Digits (text s)) (n : Nat) :
    atoiLoop s (int32 n)
      = int32 ((text s).foldl (fun n a => n * 10 + (a.toNat - 48)) n : Nat) := by
  induction s generalizing n with
  | nil => rfl
  | cons a s ih =>
    by_cases ha : a = 0
    · rw [atoiLoop, if_pos ha, ha, text_cons_zero]
      rfl
    · rw [text_cons ha] at hs ⊢
      obtain ⟨hdigit, hrest⟩ := List.forall_mem_cons.mp hs
      have hstep : int32 (int32 n * 10 + a.toNat - 48) = int32 (n * 10 + (a.toNat - 48) : Nat) := by
        obtain ⟨k, hk⟩ := int32_eq n
        have hlow : 48 ≤ a.toNat := hdigit.1
        refine int32_congr ⟨10 * k, ?_⟩
        rw [hk]
        omega
      rw [atoiLoop, if_neg ha, if_pos hdigit, hstep, ih hrest]
      rfl

/-- **`atoi`** of a string of digits is their value, wrapped. -/
theorem atoi_digits {s : List UInt8} (hs : Digits (text s)) :
    atoi s = int32 (decValue (text s)) := by
  have hsign : charAt s 0 ≠ 45 := by
    intro hminus
    have hhead := (charAt_zero_eq_iff (a := 45) (by decide)).mp hminus
    obtain ⟨hlow, -⟩ := hs 45 (List.mem_of_mem_head? hhead)
    exact absurd hlow (by decide)
  have hloop := atoiLoop_digits hs 0
  rw [atoi, if_neg hsign, Int.one_mul, show (0 : Int) = int32 (0 : Nat) from rfl, hloop]
  exact int32_congr ⟨(int32_eq _).choose, (int32_eq _).choose_spec⟩

/-! ## The machine -/

/-- A device state with the disk taken apart: the calls of `ata_read_sector` so far,
    with drive and LBA, and what passed over the ports. -/
structure DiskState (δ : Type) where
  rest : δ
  calls : List (Nat × Nat)
  ports : List PortEvent

variable {δ : Type}

/-- `D` with its disk driven by `ata_read_sector`, over a device and a table of
    drives. -/
def ataDevices (D : Devices δ) (dev : PortDevice) (drives : Nat → AtaDriveState) :
    Devices (DiskState δ) where
  pmmGetTotalMemory d := D.pmmGetTotalMemory d.rest
  pmmGetFreeMemory d := D.pmmGetFreeMemory d.rest
  timerGetTicks d := D.timerGetTicks d.rest
  timerSleep n d := (D.timerSleep n d.rest).map fun rest => { d with rest := rest }
  rtcGetTime d := ((D.rtcGetTime d.rest).1, { d with rest := (D.rtcGetTime d.rest).2 })
  resetCpu d := (D.resetCpu d.rest).map fun rest => { d with rest := rest }
  badStore addr d := (D.badStore addr d.rest).map fun rest => { d with rest := rest }
  ataReadSector drive lba d :=
    let r := PyramidAta.ataReadSector dev drives drive (UInt32.ofNat lba) (some fun _ => 0) d.ports
    .ok (r.1, if r.1 = ataOk then (List.range 512).map (r.2.1.getD fun _ => 0) else [],
      { d with calls := d.calls ++ [(drive, lba)], ports := r.2.2 })
  selftestRunAll vfs d :=
    (D.selftestRunAll vfs d.rest).map fun r => (r.1, r.2.1, { d with rest := r.2.2 })
  stack d := D.stack d.rest

/-- What passed over the ports from `d` to `d'`. -/
def portsSince (d d' : DiskState δ) : List PortEvent := d'.ports.drop d.ports.length

/-- The errors that `diskread` prints. -/
def diskErrors : List (List UInt8) :=
  [chars "Error: Out of Memory\n", chars "Error: LBA must be >= 0\n", chars "Disk Error (code: "]

/-- An error was printed between the two consoles. -/
def PrintsError {δ : Type} (c c' : Console δ) : Prop :=
  ∃ new, c'.term = c.term ++ new ∧ ∃ e ∈ diskErrors, TermCall.print e 0x0C ∈ new

/-- **THE TYPED SECTOR**: `ata_read_sector` was called for sector `v` of drive 0, or an
    error was printed and no sector read; and no other sector was read. -/
structure ReadsTyped (v : Nat) (c c' : Console (DiskState δ)) : Prop where
  outcome : c'.dev.calls = c.dev.calls ++ [(0, v)]
    ∨ (PrintsError c c' ∧ ∀ r, issued r (portsSince c.dev c'.dev) = [])
  never : ∀ r, ∀ command ∈ issued r (portsSince c.dev c'.dev), command.lba = v

/-- The number typed is too large and wraps to a sector that drive 0 has, and there is
    room for it. -/
def WrapsToSector (drives : Nat → AtaDriveState) (heap : Heap) (v : Nat) : Prop :=
  2 ^ 32 ≤ v ∧ v % 2 ^ 32 < 2 ^ 31 ∧ AtaAccepts drives 0 (UInt32.ofNat v)
    ∧ ∃ p heap', kmalloc heap 512 = .ok (p, heap') ∧ p ≠ 0

variable {B : Blocks} {D : Devices δ} {dev : PortDevice} {drives : Nat → AtaDriveState}
  {c c' c₀ : Console (DiskState δ)} {bs₀ : List Block} {live : List (Nat × Nat)}
  {arg digits : List UInt8} {v : Nat}

/-! ## The command -/

theorem printsError_of_term {e : List UInt8} (he : e ∈ diskErrors) (pre post : List TermCall)
    (hterm : c'.term = c.term ++ (pre ++ TermCall.print e 0x0C :: post)) : PrintsError c c' :=
  ⟨_, hterm, e, he, List.mem_append_right _ (List.mem_cons_self ..)⟩

/-- What is printed around it hides no error. -/
theorem PrintsError.around (h : PrintsError c c') {c₁ c₂ : Console (DiskState δ)}
    {pre post : List TermCall} (hpre : c.term = c₁.term ++ pre)
    (hpost : c₂.term = c'.term ++ post) : PrintsError c₁ c₂ := by
  obtain ⟨new, hterm, e, he, hmem⟩ := h
  refine ⟨pre ++ (new ++ post), ?_, e, he, ?_⟩
  · rw [hpost, hterm, hpre, List.append_assoc, List.append_assoc]
  · exact List.mem_append_right _ (List.mem_append_left _ hmem)

/-- How `diskread` ends: without a buffer, on a negative number, or with a call of
    `ata_read_sector`. -/
inductive DiskreadEnds (dev : PortDevice) (drives : Nat → AtaDriveState) (lba : Int)
    (c c' : Console (DiskState δ)) : Prop where
  | noRoom {heap : Heap} (halloc : kmalloc c.heap 512 = .ok (0, heap)) (hdev : c'.dev = c.dev)
      (herror : PrintsError c c')
  | negative (hneg : lba < 0) (hdev : c'.dev = c.dev) (herror : PrintsError c c')
  | called {p rc : Nat} {heap : Heap} {buffer : Option Buffer} (hroom : p ≠ 0)
      (halloc : kmalloc c.heap 512 = .ok (p, heap)) (hnonneg : 0 ≤ lba)
      (hcall : PyramidAta.ataReadSector dev drives 0 (UInt32.ofNat (castU32 lba))
        (some fun _ => 0) c.dev.ports = (rc, buffer, c'.dev.ports))
      (hcalls : c'.dev.calls = c.dev.calls ++ [(0, castU32 lba)])
      (herror : rc ≠ ataOk → PrintsError c c')

section Exits

variable {M : Devices δ} {d d' : Console δ} {s' : δ} {heap heap' : Heap} {p ret : Nat}
  {bytes : List Byte}

/-- The console once the sector is announced. -/
def announced (d : Console δ) (arg : List UInt8) : Console δ :=
  ((d.say "Reading Sector " 0x07).termPrintHex (castU32 (atoi arg)) 0x0E).say "...\n" 0x07

theorem announced_term (d : Console δ) (arg : List UInt8) :
    ∃ pre, (announced d arg).term = d.term ++ pre := by
  refine ⟨[.print (chars "Reading Sector ") 0x07, .hex (castU32 (atoi arg)) 0x0E,
    .print (chars "...\n") 0x07], ?_⟩
  simp only [announced, Console.say, Console.termPrint, Console.termPrintHex, List.append_assoc,
    List.cons_append, List.nil_append]

theorem cmdDiskread_noRoom (halloc : kmalloc d.heap 512 = .ok (0, heap)) :
    cmdDiskread M arg d
      = .ok (true, ((announced d arg).withHeap heap).say "Error: Out of Memory\n" 0x0C) := by
  show (kmalloc d.heap 512 >>= _) = _
  rw [halloc]
  rfl

theorem cmdDiskread_negative (halloc : kmalloc d.heap 512 = .ok (p, heap)) (hp : p ≠ 0)
    (hneg : atoi arg < 0) (hfree : kfree heap p = .ok heap') :
    cmdDiskread M arg d = .ok (true,
      (((announced d arg).withHeap heap).say "Error: LBA must be >= 0\n" 0x0C).withHeap heap') := by
  show (kmalloc d.heap 512 >>= _) = _
  rw [halloc]
  refine (if_neg hp).trans ((if_pos hneg).trans ?_)
  show (kfree heap p >>= _) = _
  rw [hfree]
  rfl

/-- A dump only prints. -/
theorem dumpBytes_keeps (buf : Buffer) (n : Nat) (d : Console δ) :
    (dumpBytes buf n d).heap = d.heap ∧ (dumpBytes buf n d).dev = d.dev := by
  induction n with
  | zero => exact ⟨rfl, rfl⟩
  | succ n ih =>
    rw [dumpBytes, List.range_succ, List.foldl_append, List.foldl_cons, List.foldl_nil]
    rw [dumpBytes] at ih
    by_cases hend : (n + 1) % 16 = 0
    · simp only [if_pos hend]
      exact ih
    · simp only [if_neg hend]
      exact ih

/-- The sector is asked for; when that fails an error is printed. -/
theorem cmdDiskread_called (halloc : kmalloc d.heap 512 = .ok (p, heap)) (hp : p ≠ 0)
    (hneg : ¬ atoi arg < 0)
    (hread : M.ataReadSector 0 (castU32 (atoi arg)) d.dev = .ok (ret, bytes, s'))
    (hfree : kfree { heap with mem := heap.mem.storeBytes p bytes } p = .ok heap') :
    ∃ d', cmdDiskread M arg d = .ok (false, d') ∧ d'.dev = s'
      ∧ (ret ≠ 0 → d'.term = (announced d arg).term ++ [.print (chars "Disk Error (code: ") 0x0C,
        .hex ret 0x0C, .print (chars ")\n") 0x0C]) := by
  generalize hstored : ({ heap with mem := heap.mem.storeBytes p bytes } : Heap) = stored at hfree
  have hcall : cmdDiskread M arg d
      = (let e : Console δ := { (announced d arg).withHeap stored with dev := s' }
        let e := if ret ≠ 0 then
            ((e.say "Disk Error (code: " 0x0C).termPrintHex ret 0x0C).say ")\n" 0x0C
          else dumpBytes (fun i => stored.mem.byte (p + i)) 64
            (e.say "Data (First 64 bytes):\n" 0x0B)
        kfree e.heap p >>= fun h => .ok (false, e.withHeap h)) := by
    subst hstored
    show (kmalloc d.heap 512 >>= _) = _
    rw [halloc]
    refine (if_neg hp).trans ((if_neg hneg).trans ?_)
    show (M.ataReadSector 0 (castU32 (atoi arg)) d.dev >>= _) = _
    rw [hread]
    rfl
  have hend : ∀ e : Console δ, e.heap = stored →
      (kfree e.heap p >>= fun h => .ok (false, e.withHeap h)) = .ok (false, e.withHeap heap') := by
    intro e he
    rw [he, hfree]
    rfl
  rw [hcall]
  by_cases hret : ret ≠ 0
  · simp only [if_pos hret]
    refine ⟨_, hend _ rfl, rfl, fun _ => ?_⟩
    simp only [Console.say, Console.termPrint, Console.termPrintHex, Console.withHeap,
      List.append_assoc, List.cons_append, List.nil_append]
  · simp only [if_neg hret]
    obtain ⟨hheap, hdev⟩ := dumpBytes_keeps (fun i => stored.mem.byte (p + i)) 64
      (Console.say { (announced d arg).withHeap stored with dev := s' }
        "Data (First 64 bytes):\n" 0x0B)
    exact ⟨_, hend _ hheap, hdev, fun hc => absurd hc hret⟩

end Exits

/-- The bytes that the disk stores fit the buffer. -/
theorem ataDevices_fits {drive lba rc : Nat} {bytes : List Byte} {d d' : DiskState δ}
    (h : (ataDevices D dev drives).ataReadSector drive lba d = .ok (rc, bytes, d')) :
    bytes.length ≤ 512 := by
  obtain ⟨-, hbytes⟩ := Prod.mk.inj (Except.ok.inj h)
  obtain ⟨rfl, -⟩ := Prod.mk.inj hbytes
  split
  · rw [List.length_map, List.length_range]
  · exact Nat.zero_le _

/-- **`diskread`** returns, and ends in one of three ways. -/
theorem cmdDiskread_spec (D : Devices δ) (dev : PortDevice) (drives : Nat → AtaDriveState)
    (ho : Owns bs₀ c.heap live) (hcov : Covers live bs₀) (arg : List UInt8) :
    ∃ early c', cmdDiskread (ataDevices D dev drives) arg c = .ok (early, c')
      ∧ DiskreadEnds dev drives (atoi arg) c c' := by
  obtain ⟨p, heap, halloc, -, hcase⟩ := ho.alloc 512 (by decide)
  have hprints : ∀ (e : List UInt8) (post : List TermCall) (c' : Console (DiskState δ)),
      e ∈ diskErrors → c'.term = (announced c arg).term ++ .print e 0x0C :: post →
      PrintsError c c' := by
    intro e post c' he hterm
    obtain ⟨pre, hpre⟩ := announced_term c arg
    refine printsError_of_term he pre post ?_
    rw [hterm, hpre, List.append_assoc]
  rcases hcase with ⟨rfl, -⟩ | ⟨hp, hheld⟩
  · exact ⟨_, _, cmdDiskread_noRoom halloc, .noRoom halloc rfl
      (hprints _ [] _ (List.mem_cons_self ..) rfl)⟩
  by_cases hneg : atoi arg < 0
  · obtain ⟨heap', hfree, -, -⟩ := hheld.free hcov
    exact ⟨_, _, cmdDiskread_negative halloc hp hneg hfree, .negative hneg rfl
      (hprints _ [] _ (List.mem_cons_of_mem _ (List.mem_cons_self ..)) rfl)⟩
  · obtain ⟨⟨ret, bytes, d'⟩, hread⟩ : ∃ r,
        (ataDevices D dev drives).ataReadSector 0 (castU32 (atoi arg)) c.dev = .ok r := ⟨_, rfl⟩
    have hwrites : WritesIn (InRange (p, 512)) heap.mem (heap.mem.storeBytes p bytes) :=
      (WritesIn.refl _ _).storeBytes fun k hk =>
        inRange_add (Nat.lt_of_lt_of_le hk (ataDevices_fits hread))
    obtain ⟨-, hheld'⟩ := hheld.write hwrites
    obtain ⟨heap', hfree, -, -⟩ := hheld'.free hcov
    obtain ⟨c', hok, hdev, hterm⟩ := cmdDiskread_called halloc hp hneg hread hfree
    obtain ⟨hret, hd⟩ := Prod.mk.inj (Except.ok.inj hread)
    obtain ⟨-, hd⟩ := Prod.mk.inj hd
    have hcall : PyramidAta.ataReadSector dev drives 0 (UInt32.ofNat (castU32 (atoi arg)))
        (some fun _ => 0) c.dev.ports
        = (ret, (PyramidAta.ataReadSector dev drives 0 (UInt32.ofNat (castU32 (atoi arg)))
          (some fun _ => 0) c.dev.ports).2.1, c'.dev.ports) := by
      rw [hdev, ← hd]
      exact Prod.ext hret rfl
    refine ⟨false, c', hok, .called hp halloc (Int.not_lt.mp hneg) hcall ?_ ?_⟩
    · rw [hdev, ← hd]
    · intro hrc
      exact hprints _ _ c' (List.mem_cons_of_mem _ (List.mem_cons_of_mem _ (List.mem_cons_self ..)))
        (hterm hrc)

/-! ## The sector that is read -/

/-- An error, and nothing read. -/
theorem ReadsTyped.error (herror : PrintsError c c')
    (hissued : ∀ r, issued r (portsSince c.dev c'.dev) = []) : ReadsTyped v c c' := by
  refine ⟨Or.inr ⟨herror, hissued⟩, fun r command hmem => ?_⟩
  rw [hissued r] at hmem
  exact absurd hmem List.not_mem_nil

theorem issued_since_self (hdev : c'.dev = c.dev) (r : Registers) :
    issued r (portsSince c.dev c'.dev) = [] := by
  rw [hdev, portsSince, List.drop_length]
  rfl

/-- What the command reads is what was typed, unless the number wraps to a sector. -/
theorem DiskreadEnds.reads (h : DiskreadEnds dev drives (int32 v) c c') :
    (¬ WrapsToSector drives c.heap v → ReadsTyped v c c')
      ∧ (WrapsToSector drives c.heap v →
        ∃ r, ∃ command ∈ issued r (portsSince c.dev c'.dev), command.lba ≠ v) := by
  cases h with
  | @noRoom heap halloc hdev herror =>
    refine ⟨fun _ => .error herror (issued_since_self hdev), fun hwraps => ?_⟩
    obtain ⟨-, -, -, p, heap', hroom, hp⟩ := hwraps
    rw [halloc] at hroom
    cases hroom
    exact absurd rfl hp
  | negative hneg hdev herror =>
    refine ⟨fun _ => .error herror (issued_since_self hdev), fun hwraps => ?_⟩
    exact absurd hwraps.2.1 (Nat.not_lt.mpr ((int32_neg_iff v).mp hneg))
  | @called p rc heap buffer hroom halloc hnonneg hcall hcalls herror =>
    have hhalf : v % 2 ^ 32 < 2 ^ 31 := by
      by_contra hhigh
      exact absurd ((int32_neg_iff v).mpr (Nat.not_lt.mp hhigh)) (Int.not_lt.mpr hnonneg)
    have hlba : (UInt32.ofNat v).toNat = v % 2 ^ 32 := UInt32.toNat_ofNat'
    rw [castU32_int32] at hcalls
    rw [castU32_int32, ← hlba, UInt32.ofNat_toNat] at hcall
    obtain ⟨rc', buffer', es, hspec, hread, hrefused⟩ :=
      ataReadSector_spec dev drives 0 (UInt32.ofNat v) (some fun _ => 0) c.dev.ports
    obtain ⟨rfl, hpair⟩ := Prod.mk.inj (hcall.symm.trans hspec)
    have hes : portsSince c.dev c'.dev = es := by
      rw [portsSince, (Prod.mk.inj hpair).2, List.drop_left]
    by_cases haccepts : AtaAccepts drives 0 (UInt32.ofNat v)
    · -- the drive reads the sector that the number wraps to
      have hcommand := hread.command fun hc => hrefused.mp hc nofun haccepts
      rw [← hes, hlba] at hcommand
      constructor
      · intro hnot
        have hsmall : v < 2 ^ 32 := by
          by_contra hlarge
          exact hnot ⟨Nat.not_lt.mp hlarge, hhalf, haccepts, p, heap, halloc, hroom⟩
        rw [Nat.mod_eq_of_lt hsmall] at hcalls hcommand
        refine ⟨Or.inl hcalls, fun r command hmem => ?_⟩
        obtain ⟨d, -, hissued⟩ := hcommand r
        rw [hissued] at hmem
        rw [List.mem_singleton.mp hmem]
      · intro hwraps
        obtain ⟨d, -, hissued⟩ := hcommand ⟨0, 0, 0, 0, 0⟩
        refine ⟨⟨0, 0, 0, 0, 0⟩, _, hissued ▸ List.mem_singleton.mpr rfl, ?_⟩
        exact Nat.ne_of_lt (Nat.lt_of_lt_of_le (Nat.mod_lt _ (by decide)) hwraps.1)
    · have hrc : Refused rc := hrefused.mpr fun _ => haccepts
      have hne : rc ≠ ataOk := by
        rintro rfl
        exact absurd hrc (by unfold Refused; decide)
      refine ⟨fun _ => .error (herror hne) fun r => ?_, fun hwraps => absurd hwraps.2.2.1 haccepts⟩
      rw [hes, ← List.append_nil es]
      exact issued_reads r (hread.quiet hrc) []

theorem diskread_length : (chars "diskread ").length = 9 := by decide

/-- The line reaches `diskread`. -/
theorem dispatch_diskread {M : Devices δ} {line : List UInt8} {d : Console δ}
    (hline : text line = chars "diskread " ++ digits) :
    dispatch B M line d = cmdDiskread M (line.drop 9) d := by
  have hprefix : strncmp line (chars "diskread ") 9 = 0 := by
    rw [strncmp_eq_zero_iff, hline, List.take_left' diskread_length]
    decide
  have hnone : (commands B M).find? (fun command => strcmp line (chars command.1) == 0) = none := by
    refine List.find?_eq_none.mpr fun command hcommand hc => ?_
    have hcmp : text line = text (chars command.1) :=
      (strcmp_eq_zero_iff _ _).mp (by simpa using hc)
    refine commands_not_diskread hcommand ?_
    rw [strncmp_eq_zero_iff, ← hcmp]
    exact (strncmp_eq_zero_iff _ _ _).mp hprefix
  rw [dispatch, hnone]
  exact if_pos hprefix

/-- **THE SECTOR READ IS THE SECTOR TYPED**, or none with an error, unless the number is
    2^32 or more and wraps to a sector that drive 0 has: for every heap that can be
    reached and every device. -/
theorem diskread_typed_iff (B : Blocks) (D : Devices δ) (dev : PortDevice)
    (drives : Nat → AtaDriveState) (mem : Mem) (ops : List HeapOp) (client : HeapClient)
    (hrun : Run HeapStep ⟨heapFirstBlock mem, []⟩ ops client) (s : Shell (DiskState δ))
    (hheap : s.heap = client.heap) (digits : List UInt8) (hdigits : Digits digits)
    (hline : text s.cmdBuffer = chars "diskread " ++ digits) :
    ∃ s', executeCommand B (ataDevices D dev drives) s = .ok s'
      ∧ (ReadsTyped (decValue digits) s.toConsole s'.toConsole
        ↔ ¬ WrapsToSector drives s.heap (decValue digits)) := by
  obtain ⟨bs, hi⟩ := heapInv_run hrun
  have howns : Owns bs (s.toConsole.say "\n" 0x07).heap client.live := by
    show Owns bs s.heap client.live
    rw [hheap]
    exact ⟨bs, hi, fun b hb => hb⟩
  have harg : text (s.cmdBuffer.drop 9) = digits := by
    have hlen : 9 ≤ (text s.cmdBuffer).length := by
      rw [hline, List.length_append, diskread_length]
      exact Nat.le_add_right 9 _
    rw [text_drop hlen, hline, List.drop_left' diskread_length]
  obtain ⟨early, c', hok, hends⟩ := cmdDiskread_spec D dev drives howns hi.owned
    (s.cmdBuffer.drop 9)
  rw [atoi_digits (by rw [harg]; exact hdigits), harg] at hends
  obtain ⟨htyped, hother⟩ := hends.reads
  -- only the newline before the command and the prompt after it are added
  obtain ⟨s', hexec, hdev, post, hpost⟩ : ∃ s',
      executeCommand B (ataDevices D dev drives) s = .ok s'
        ∧ s'.dev = c'.dev ∧ ∃ post, s'.term = c'.term ++ post := by
    rw [executeCommand, dispatch_diskread hline, hok]
    cases early with
    | true => exact ⟨_, rfl, rfl, [], (List.append_nil _).symm⟩
    | false => exact ⟨_, rfl, rfl, _, rfl⟩
  have hports : portsSince s.dev s'.dev = portsSince (s.toConsole.say "\n" 0x07).dev c'.dev := by
    rw [hdev]
    rfl
  refine ⟨s', hexec, ?_, ?_⟩
  · intro hreads hwraps
    obtain ⟨r, command, hmem, hne⟩ := hother hwraps
    exact hne (hreads.never r command (hports ▸ hmem))
  · intro hnot
    obtain ⟨houtcome, hnever⟩ := htyped hnot
    rw [← hports] at houtcome hnever
    refine ⟨houtcome.imp ?_ ?_, hnever⟩
    · intro hcalls
      rw [hdev, hcalls]
      rfl
    · rintro ⟨herror, hissued⟩
      exact ⟨herror.around rfl hpost, hissued⟩

/-! ## A small disk -/

/-- A shell in which `line` was typed. -/
def typedShell (line : List UInt8) (h : line.length < cmdBufSize) : Shell (DiskState Unit) where
  toConsole := ⟨[], smallConsole.vfs, ⟨(), [], []⟩⟩
  cmdBuffer := line ++ List.replicate (cmdBufSize - line.length) 0
  cmdIdx := line.length
  size := by
    rw [List.length_append, List.length_replicate]
    omega
  bound := h

/-- A disk that always has a sector of zeros ready. -/
def readyDisk : PortDevice := ⟨fun _ _ => ataSrDrq, fun _ _ _ => 0⟩

/-- Two drives whose size is not known. -/
def twoDrives : Nat → AtaDriveState := fun _ => ⟨true, 0⟩

/-- Sector 7. -/
theorem diskread_typed_iff_seven :
    ∃ s', executeCommand noBlocks (ataDevices smallDevices readyDisk twoDrives)
        (typedShell (chars "diskread 7") (by decide)) = .ok s'
      ∧ (ReadsTyped 7 (typedShell (chars "diskread 7") (by decide)).toConsole s'.toConsole
        ↔ ¬ WrapsToSector twoDrives (heapFirstBlock ⟨fun _ => 0, []⟩) 7) :=
  diskread_typed_iff noBlocks smallDevices readyDisk twoDrives ⟨fun _ => 0, []⟩ [] _ Run.nil
    (typedShell (chars "diskread 7") (by decide)) rfl [55] (by unfold Digits; decide +kernel)
    (by decide +kernel)

/-- **A SECTOR THAT WAS NOT TYPED**: `diskread 4294967296` reads sector 0. -/
theorem diskread_wraps_to_zero :
    ∃ s', executeCommand noBlocks (ataDevices smallDevices readyDisk twoDrives)
        (typedShell (chars "diskread 4294967296") (by decide)) = .ok s'
      ∧ decValue (chars "4294967296") = 4294967296
      ∧ s'.dev.calls = [(0, 0)]
      ∧ issued ⟨0, 0, 0, 0, 0⟩ s'.dev.ports = [⟨ataCmdReadPio, 1, 0, true, 0⟩]
      ∧ ¬ ReadsTyped 4294967296
          (typedShell (chars "diskread 4294967296") (by decide)).toConsole s'.toConsole := by
  have hseen : (executeCommand noBlocks (ataDevices smallDevices readyDisk twoDrives)
      (typedShell (chars "diskread 4294967296") (by decide))).map
        (fun s' => (s'.dev.calls, issued ⟨0, 0, 0, 0, 0⟩ s'.dev.ports))
      = .ok ([(0, 0)], [⟨ataCmdReadPio, 1, 0, true, 0⟩]) := by
    decide +kernel
  cases hexec : executeCommand noBlocks (ataDevices smallDevices readyDisk twoDrives)
      (typedShell (chars "diskread 4294967296") (by decide)) with
  | error e =>
    rw [hexec] at hseen
    cases hseen
  | ok s' =>
    rw [hexec] at hseen
    obtain ⟨hcalls, hissued⟩ := Prod.mk.inj (Except.ok.inj hseen)
    refine ⟨s', rfl, by decide, hcalls, hissued, fun htyped => ?_⟩
    have hlba := htyped.never ⟨0, 0, 0, 0, 0⟩ ⟨ataCmdReadPio, 1, 0, true, 0⟩ (by
      show _ ∈ issued _ s'.dev.ports
      rw [hissued]
      exact List.mem_singleton.mpr rfl)
    exact absurd hlba (by decide)

end PyramidShell
