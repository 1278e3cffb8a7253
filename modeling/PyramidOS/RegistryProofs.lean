import PyramidOS.DeviceProofs
import PyramidOS.DirectoryProofs

/-! # The registry is an append-only directory

    `block_register`, `block_count`, `block_get` and `block_get_by_name` over whole
    runs.  Memory may change between the calls, as long as registered devices keep
    their names; the registry is then a directory of device pointers by name.

    * `RegistryStep.refines` — one call is one request to the directory;
    * `blockGetByName_eq`, `blockGet_eq` — both lookups read the directory;
    * `block_registry_directory` — over every run. -/

namespace PyramidBlock

open ByteMem PyramidString LabelledRun NamedDirectory

variable {D : Drivers} {dev : Nat} {name : List UInt8}

/-- Memory, and `g_devices` up to `g_device_count`. -/
structure RegistryState where
  mem : Mem
  devices : List Nat

/-- The registry the code sees. -/
def RegistryState.registry (D : Drivers) (s : RegistryState) : Registry :=
  registryAt D s.mem s.devices

/-- After `block_init`. -/
def registryStart (D : Drivers) (mem : Mem) (devices : List Nat) : RegistryState :=
  ⟨mem, (blockInit (registryAt D mem devices)).devices⟩

/-- What `block_register` checks of the device alone. -/
def Sound (m : Mem) (dev : Nat) : Prop :=
  dev ≠ 0 ∧ text (devName m dev) ≠ [] ∧ devSectorSize m dev ≠ 0 ∧ devRead m dev ≠ 0

instance (m : Mem) (dev : Nat) : Decidable (Sound m dev) :=
  inferInstanceAs (Decidable (_ ∧ _ ∧ _ ∧ _))

/-- A call of `block_register` on a device whose name fits its array, or stores that
    leave the names of the registered devices. -/
inductive RegistryStep (D : Drivers) :
    RegistryState → Option (Request Nat (List UInt8)) → RegistryState → Prop where
  | register {s : RegistryState} {dev : UInt32}
      (hfits : (text (devName s.mem dev.toNat)).length < blockNameMax) :
      RegistryStep D s
        (some ⟨dev.toNat, text (devName s.mem dev.toNat), decide (Sound s.mem dev.toNat),
          (blockRegister (s.registry D) dev).1 == blockSuccess⟩)
        ⟨s.mem, (blockRegister (s.registry D) dev).2.devices⟩
  | stores {s : RegistryState} {m : Mem}
      (hnames : ∀ p ∈ s.devices, ∀ k, k < blockNameMax → m.byte (p + k) = s.mem.byte (p + k)) :
      RegistryStep D s none ⟨m, s.devices⟩

variable {s s' : RegistryState} {d d' : Directory Nat (List UInt8) blockMaxDevices}

/-- **THE DIRECTORY OF A STATE**: the registered devices by name. -/
structure Lists (s : RegistryState) (d : Directory Nat (List UInt8) blockMaxDevices) : Prop where
  items : d.items = s.devices.map fun p => (p, text (devName s.mem p))
  fits : ∀ p ∈ s.devices, (text (devName s.mem p)).length < blockNameMax

theorem deviceAt_read {m : Mem} : (deviceAt D m dev).read ≠ none ↔ devRead m dev ≠ 0 := by
  rw [deviceAt]
  by_cases hread : devRead m dev = 0
  · simp [hread]
  · simp [hread]

/-- `block_register` takes what is sound and admitted. -/
theorem Lists.registrable_iff (h : Lists s d) :
    Registrable (s.registry D) dev ↔
      Sound s.mem dev ∧ d.Admits (text (devName s.mem dev)) := by
  have hlen : d.items.length = s.devices.length := by rw [h.items, List.length_map]
  have hnames : d.items.map Prod.snd = s.devices.map fun p => text (devName s.mem p) := by
    rw [h.items, List.map_map]
    rfl
  constructor
  · intro hr
    refine ⟨⟨hr.nonNull, hr.named, hr.sectorSize, deviceAt_read.mp hr.readable⟩, ?_, ?_⟩
    · rw [hlen]
      exact hr.room
    · rw [hnames, List.mem_map]
      rintro ⟨p, hp, heq⟩
      exact hr.fresh p hp heq
  · rintro ⟨⟨hnull, hname, hsize, hread⟩, hroom, hfresh⟩
    rw [hlen] at hroom
    rw [hnames, List.mem_map] at hfresh
    refine ⟨hnull, hname, hsize, deviceAt_read.mpr hread, hroom, fun p hp heq => ?_⟩
    exact hfresh ⟨p, hp, heq⟩

/-- **ONE CALL IS ONE REQUEST** to the directory. -/
theorem RegistryStep.refines {e : Option (Request Nat (List UInt8))} (h : Lists s d)
    (hst : RegistryStep D s e s') : ∃ d', Step d e d' ∧ Lists s' d' := by
  cases hst with
  | @register dev hfits =>
    rcases blockRegister_cases (s.registry D) dev with ⟨hr, heq⟩ | ⟨hr, rc, hrc, heq⟩
    · obtain ⟨hsound, hadmits⟩ := h.registrable_iff.mp hr
      refine ⟨d.add dev.toNat _ hadmits, ?_, ?_, ?_⟩
      · rw [heq, decide_eq_true hsound]
        exact Step.granted hadmits
      · rw [heq]
        show d.items ++ _ = List.map _ (s.devices ++ [dev.toNat])
        rw [List.map_append, h.items]
        rfl
      · rw [heq]
        intro p hp
        rcases List.mem_append.mp hp with hold | hnew
        · exact h.fits p hold
        · rw [List.mem_singleton.mp hnew]
          exact hfits
    · refine ⟨d, ?_, ?_⟩
      · rw [heq, show (rc == blockSuccess) = false from beq_eq_false_iff_ne.mpr hrc]
        refine Step.refused fun hboth => hr (h.registrable_iff.mpr ?_)
        exact ⟨of_decide_eq_true hboth.1, hboth.2⟩
      · rw [heq]
        exact h
  | @stores m hnames =>
    have htext : ∀ p ∈ s.devices, text (devName m p) = text (devName s.mem p) := by
      intro p hp
      refine text_charsFrom_congr fun k hk => hnames p hp k ?_
      exact Nat.lt_of_le_of_lt hk (h.fits p hp)
    refine ⟨d, Step.idle, ?_, fun p hp => ?_⟩
    · rw [h.items]
      exact List.map_congr_left fun p hp => by rw [htext p hp]
    · rw [htext p hp]
      exact h.fits p hp

/-- `block_get` reads the directory by position. -/
theorem blockGet_eq (h : Lists s d) (i : Nat) :
    blockGet (s.registry D) i = (d.items[i]?.map Prod.fst).getD 0 := by
  have hget : (d.items[i]?).map Prod.fst = s.devices[i]? := by
    rw [h.items, List.getElem?_map, Option.map_map]
    exact congrFun Option.map_id _
  rw [hget, blockGet]
  by_cases hi : i ≥ blockCount (s.registry D)
  · have hnone : s.devices[i]? = none := List.getElem?_eq_none hi
    rw [if_pos hi, hnone]
    rfl
  · rw [if_neg hi]
    exact List.getD_eq_getElem?_getD ..

/-- `block_get_by_name` reads it by name. -/
theorem blockGetByName_eq (h : Lists s d) (name : List UInt8) :
    blockGetByName (s.registry D) name = (d.find (text name)).getD 0 := by
  rw [blockGetByName, Directory.find, h.items, List.find?_map, Option.map_map]
  have hpred : (fun p => strcmp ((s.registry D).device p).name name == 0)
      = (fun e : Nat × List UInt8 => decide (e.2 = text name)) ∘
        fun p => (p, text (devName s.mem p)) := by
    funext p
    rw [Function.comp_apply, Bool.eq_iff_iff, beq_iff_eq, decide_eq_true_iff,
      strcmp_eq_zero_iff]
    rfl
  rw [hpred]
  exact congrArg (Option.getD · 0) (congrFun Option.map_id _).symm

/-- Every run is a run of the directory, from the empty one. -/
theorem registry_run {mem : Mem} {devices : List Nat}
    {es : List (Option (Request Nat (List UInt8)))}
    (hrun : Run (RegistryStep D) (registryStart D mem devices) es s) :
    ∃ d, Run Step Directory.empty es d ∧ Lists s d := by
  refine hrun.simulates (R := Lists) ⟨rfl, fun p hp => (nomatch hp)⟩ ?_
  intro c e c' b hR hst
  exact RegistryStep.refines hR hst

/-- No item of a directory is NULL. -/
theorem Lists.item_ne_zero {mem : Mem} {devices : List Nat}
    {es : List (Option (Request Nat (List UInt8)))}
    (hrun : Run (RegistryStep D) (registryStart D mem devices) es s) :
    ∀ p ∈ s.devices, p ≠ 0 := by
  refine hrun.invariant (I := fun s => ∀ p ∈ s.devices, p ≠ 0) (fun p hp => (nomatch hp)) ?_
  intro a e b hI hst
  cases hst with
  | @register dev hfits =>
    rcases blockRegister_cases (a.registry D) dev with ⟨hr, heq⟩ | ⟨-, rc, -, heq⟩
    · intro p hp
      rw [heq] at hp
      rcases List.mem_append.mp hp with hold | hnew
      · exact hI p hold
      · rw [List.mem_singleton.mp hnew]
        exact hr.nonNull
    · rw [heq]
      exact hI
  | stores => exact hI

/-- The conditions of `block_register`, in terms of the registry. -/
theorem Lists.registrable_here (h : Lists s d) :
    Registrable (s.registry D) dev ↔ Sound s.mem dev ∧ blockCount (s.registry D) < 8
      ∧ ∀ p ∈ s.devices, text (devName s.mem p) ≠ text (devName s.mem dev) := by
  constructor
  · intro hr
    exact ⟨(h.registrable_iff.mp hr).1, hr.room, hr.fresh⟩
  · rintro ⟨⟨hnull, hname, hsize, hread⟩, hroom, hfresh⟩
    exact ⟨hnull, hname, hsize, deviceAt_read.mpr hread, hroom, hfresh⟩

theorem Lists.found_iff (h : Lists s d) (hnonNull : ∀ e ∈ d.items, e.1 ≠ 0)
    (name : List UInt8) (p : Nat) :
    (p, text name) ∈ d.items ↔ p ≠ 0 ∧ blockGetByName (s.registry D) name = p := by
  rw [blockGetByName_eq h, ← Directory.find_eq_some_iff]
  cases hfind : d.find (text name) with
  | none => exact iff_of_false nofun fun h => h.1 h.2.symm
  | some q =>
    refine ⟨fun h => ?_, fun h => congrArg some h.2⟩
    cases h
    exact ⟨hnonNull _ (Directory.find_eq_some_iff.mp hfind), rfl⟩

theorem Lists.missing_iff (h : Lists s d) (hnonNull : ∀ e ∈ d.items, e.1 ≠ 0)
    (name : List UInt8) :
    blockGetByName (s.registry D) name = 0 ↔ ∀ p, (p, text name) ∉ d.items := by
  rw [blockGetByName_eq h, ← Directory.find_eq_none_iff]
  cases hfind : d.find (text name) with
  | none => exact iff_of_true rfl rfl
  | some q =>
    exact iff_of_false (hnonNull _ (Directory.find_eq_some_iff.mp hfind)) (Option.some_ne_none q)

/-- **THE REGISTRY IS AN APPEND-ONLY DIRECTORY**, over every run of `block_register`
    after `block_init`: a call succeeds exactly for a sound device, with room left, under
    a new name; it appends the device at `block_count()`, and a failure changes nothing;
    by index and by name the code finds what was registered, and nothing else. -/
theorem block_registry_directory (D : Drivers) (mem : Mem) (devices : List Nat)
    (es : List (Option (Request Nat (List UInt8)))) (s : RegistryState)
    (hrun : Run (RegistryStep D) (registryStart D mem devices) es s) :
    (∀ dev : UInt32,
      ((blockRegister (s.registry D) dev).1 = blockSuccess
        ↔ Sound s.mem dev.toNat ∧ blockCount (s.registry D) < 8
          ∧ ∀ p ∈ s.devices, text (devName s.mem p) ≠ text (devName s.mem dev.toNat))
      ∧ ((blockRegister (s.registry D) dev).1 = blockSuccess →
        (blockRegister (s.registry D) dev).2.devices = s.devices ++ [dev.toNat]
        ∧ blockGet (blockRegister (s.registry D) dev).2 (blockCount (s.registry D)) = dev.toNat)
      ∧ ((blockRegister (s.registry D) dev).1 ≠ blockSuccess →
        (blockRegister (s.registry D) dev).2 = s.registry D))
    ∧ ∃ d : Directory Nat (List UInt8) 8, Run Step Directory.empty es d
      ∧ d.items = grantedItems es
      ∧ d.items = s.devices.map (fun p => (p, text (devName s.mem p)))
      ∧ blockCount (s.registry D) = d.items.length
      ∧ (∀ i, i < blockCount (s.registry D) →
        d.items[i]?.map Prod.fst = some (blockGet (s.registry D) i))
      ∧ (∀ i, blockCount (s.registry D) ≤ i → blockGet (s.registry D) i = 0)
      ∧ (∀ name p, (p, text name) ∈ d.items
        ↔ p ≠ 0 ∧ blockGetByName (s.registry D) name = p)
      ∧ ∀ name, blockGetByName (s.registry D) name = 0 ↔ ∀ p, (p, text name) ∉ d.items := by
  obtain ⟨d, hd, hlists⟩ := registry_run hrun
  have hlen : blockCount (s.registry D) = d.items.length := by
    rw [hlists.items, List.length_map]
    rfl
  have hnonNull : ∀ e ∈ d.items, e.1 ≠ 0 := by
    intro e he
    rw [hlists.items] at he
    obtain ⟨p, hp, rfl⟩ := List.mem_map.mp he
    exact Lists.item_ne_zero hrun p hp
  refine ⟨fun dev => ?_, d, hd, (granted_run hd).trans (List.nil_append _), hlists.items, hlen,
    fun i hi => ?_, fun i hi => if_pos hi, hlists.found_iff hnonNull,
    hlists.missing_iff hnonNull⟩
  · rw [← hlists.registrable_here]
    rcases blockRegister_cases (s.registry D) dev with ⟨hr, heq⟩ | ⟨hr, rc, hrc, heq⟩
    · rw [heq]
      exact ⟨iff_of_true rfl hr, fun _ => ⟨rfl, blockGet_append _ _⟩, fun hc => absurd rfl hc⟩
    · rw [heq]
      exact ⟨iff_of_false hrc hr, fun hc => absurd hc hrc, fun _ => rfl⟩
  · have hi' : i < d.items.length := hlen ▸ hi
    rw [blockGet_eq hlists, List.getElem?_eq_getElem hi']
    rfl

/-- Drivers of disks of zeros. -/
def zeroDrivers : Drivers :=
  ⟨fun _ _ _ _ => ⟨true, List.replicate 512 0, Nat.le_of_eq List.length_replicate,
    fun _ => List.length_replicate⟩, 0x5200, 0x5300, by decide⟩

/-- A device named `d`, as static data. -/
def oneDevice : Mem :=
  (((⟨fun _ => 0, []⟩ : Mem).store8 0x1000 0x64).store32 0x1020 512).store32 0x1028 0x4000

/-- It is registered, and found under its name. -/
theorem block_registry_directory_one :
    ∃ s, Run (RegistryStep zeroDrivers) (registryStart zeroDrivers oneDevice [7])
        [some ⟨0x1000, [0x64], true, true⟩] s
      ∧ blockGetByName (s.registry zeroDrivers) [0x64, 0, 0x65] = 0x1000
      ∧ blockGet (s.registry zeroDrivers) 1 = 0 := by
  have hname : text (devName oneDevice (0x1000 : UInt32).toNat) = [0x64] := by
    decide +kernel
  have hsound : decide (Sound oneDevice (0x1000 : UInt32).toNat) = true := by
    decide +kernel
  have hcall : ((blockRegister ((registryStart zeroDrivers oneDevice [7]).registry zeroDrivers)
      0x1000).1 == blockSuccess) = true := by
    decide +kernel
  have hshort : (text (devName (registryStart zeroDrivers oneDevice [7]).mem
      (0x1000 : UInt32).toNat)).length < blockNameMax := by
    show (text (devName oneDevice (0x1000 : UInt32).toNat)).length < blockNameMax
    rw [hname]
    decide
  have hstep := RegistryStep.register (D := zeroDrivers) hshort
  rw [hcall, show (registryStart zeroDrivers oneDevice [7]).mem = oneDevice from rfl, hname,
    hsound] at hstep
  have hrun := Run.single hstep
  obtain ⟨-, d, -, hitems, -, hcount, -, hbeyond, hfound, -⟩ :=
    block_registry_directory zeroDrivers oneDevice [7] _ _ hrun
  refine ⟨_, hrun, ((hfound [0x64, 0, 0x65] 0x1000).mp ?_).2, hbeyond 1 ?_⟩
  · rw [hitems]
    exact List.mem_singleton.mpr rfl
  · rw [hcount, hitems]
    exact Nat.le_refl 1

end PyramidBlock
