import DynLinker.Registry.HostObjects
import DynLinker.Tls.AddressIsolation
import DynLinker.Tls.BlockAlignment
import DynLinker.Tls.Resolver

/-! The link map of a loaded object (`on_after_dynamic_load` in `dlopen/observer.rs`). Its
thread-local fields lead glibc to the static block of every thread. -/

set_option autoImplicit false

namespace DynLinker.Tls

open Lib Registry

/-- A program header with its alignment. -/
structure LoadedPhdr extends MappedPhdr where
  align : Nat

/-- What the event shows of the object. -/
structure LoadedObject where
  name : String
  path : String
  base : Nat
  phdrs : List LoadedPhdr
  entry : Nat
  tls : Option ModuleTls

/-- `LinkMap` without its links. -/
structure ObjectLinkMap extends RawLinkMap where
  lTlsInitimage : Nat
  lTlsInitimageSize : Nat
  lTlsBlocksize : Nat
  lTlsAlign : Nat
  lTlsFirstbyteOffset : Nat
  lTlsOffset : Int
  lTlsModid : Nat

def LoadedPhdr.IsTls (phdr : LoadedPhdr) : Prop := phdr.programType = ElfProgramType.tls

instance : DecidablePred LoadedPhdr.IsTls := fun _ => inferInstanceAs (Decidable (_ = _))

/-- What the loader makes of the segment when it registers it. -/
def LoadedPhdr.tlsInfo (phdr : LoadedPhdr) : TlsInfo := ⟨phdr.memsz, phdr.vaddr, phdr.align⟩

def populateLinkMapTls (map : ObjectLinkMap) (base : Nat) (phdrs : List LoadedPhdr)
    (tlsModId : Option Nat) (tlsTpOffset : Option Int) : ObjectLinkMap :=
  match tlsModId with
  | none => map
  | some modId =>
      let map := { map with lTlsModid := modId, lTlsOffset := tlsTpOffset.getD 0 }
      match phdrs.find? (·.IsTls) with
      | none => map
      | some tls => { map with
          lTlsBlocksize := tls.memsz
          lTlsAlign := tls.align
          lTlsFirstbyteOffset := tls.vaddr &&& (tls.align - 1)
          lTlsInitimageSize := tls.filesz
          lTlsInitimage :=
            if tls.filesz = 0 then map.lTlsInitimage else (base + tls.vaddr) % 2 ^ 64 }

/-- `link_name`: without a path it is the name. -/
def LoadedObject.linkName (object : LoadedObject) : String :=
  if object.path = "" then object.name else object.path

/-- `on_after_dynamic_load` up to the registration with the debugger. -/
def onAfterDynamicLoad (object : LoadedObject) : Except Panic ObjectLinkMap :=
  let dynamicPtr := (object.phdrs.find? fun phdr => phdr.IsDynamic).elim 0 fun phdr =>
    (object.base + phdr.vaddr) % 2 ^ 64
  if Char.ofNat 0 ∈ object.linkName.toList then
    .error ⟨"called `Result::unwrap()` on an `Err` value: NulError"⟩
  else
    .ok (populateLinkMapTls {
      lAddr := object.base
      lName := object.linkName
      lLd := dynamicPtr
      lPhdr := if object.phdrs = [] then none else some (object.phdrs.map (·.toMappedPhdr))
      lEntry := object.entry
      lPhnum := min object.phdrs.length 65535
      lTlsInitimage := 0
      lTlsInitimageSize := 0
      lTlsBlocksize := 0
      lTlsAlign := 0
      lTlsFirstbyteOffset := 0
      lTlsOffset := 0
      lTlsModid := 0
    } object.base object.phdrs (object.tls.map ModuleTls.modId)
      (object.tls.bind ModuleTls.tpOffset))

/-- `dl_tls_get_addr_soft`; `none` is the null pointer. -/
def dlTlsGetAddrSoft (runtime : Runtime) (tp : Nat) : Option ObjectLinkMap → Nat
  | none => 0
  | some map => runtime.getAddrSoft tp map.lTlsModid

namespace ObjectLinkMap

/-- The thread's block, as the link map describes it: it has the bytes of the image in
`memory` and then zeros, and it is where the soft address leads. -/
structure DescribesBlock (map : ObjectLinkMap) (memory : ByteMemory) (runtime : Runtime)
    (tp : Nat) : Prop where
  size : map.lTlsInitimageSize ≤ map.lTlsBlocksize
  bytes : runtime.memory.Holds (offsetPtr tp map.lTlsOffset)
    (memory.slice map.lTlsInitimage map.lTlsInitimageSize ++
      List.replicate (map.lTlsBlocksize - map.lTlsInitimageSize) 0)
  soft : dlTlsGetAddrSoft runtime tp (some map) = 0 ∨
    dlTlsGetAddrSoft runtime tp (some map) = offsetPtr tp map.lTlsOffset

/-- The block of the thread starts where the link map says that its first byte lies. -/
def PlacesBlock (map : ObjectLinkMap) (tp : Nat) : Prop :=
  (tp + map.lTlsOffset) % (map.lTlsAlign : Int) = map.lTlsFirstbyteOffset

end ObjectLinkMap

section Fields

variable {object : LoadedObject} {map : ObjectLinkMap} {segment : LoadedPhdr} {tls : ModuleTls}

/-- What the thread-local fields are read from. -/
theorem onAfterDynamicLoad_tls (built : onAfterDynamicLoad object = .ok map)
    (registered : object.tls = some tls)
    (found : object.phdrs.find? (·.IsTls) = some segment) :
    map.lTlsModid = tls.modId ∧ map.lTlsOffset = tls.tpOffset.getD 0 ∧
      map.lTlsBlocksize = segment.memsz ∧ map.lTlsAlign = segment.align ∧
      map.lTlsFirstbyteOffset = segment.vaddr &&& (segment.align - 1) ∧
      map.lTlsInitimageSize = segment.filesz ∧
      map.lTlsInitimage =
        if segment.filesz = 0 then 0 else (object.base + segment.vaddr) % 2 ^ 64 := by
  rw [onAfterDynamicLoad] at built
  split at built
  · cases built
  · cases built
    simp [populateLinkMapTls, registered, found]

theorem slice_initimage {memory : ByteMemory} (built : onAfterDynamicLoad object = .ok map)
    (registered : object.tls = some tls)
    (found : object.phdrs.find? (·.IsTls) = some segment)
    (mapped : object.base + segment.vaddr < 2 ^ 64) :
    memory.slice map.lTlsInitimage map.lTlsInitimageSize =
      memory.slice (object.base + segment.vaddr) segment.filesz := by
  obtain ⟨_, _, _, _, _, size, image⟩ := onAfterDynamicLoad_tls built registered found
  rw [size, image]
  split
  · next empty => rw [empty]; rfl
  · rw [Nat.mod_eq_of_lt mapped]

/-- The first byte's offset is what a congruence to the segment's address says. -/
theorem placesBlock_of_modEq {tp low : Nat} {offset : Int}
    (built : onAfterDynamicLoad object = .ok map)
    (registered : object.tls = some tls)
    (found : object.phdrs.find? (·.IsTls) = some segment)
    (placed : tls.tpOffset = some offset) (power : segment.align = 2 ^ low)
    (suitable : Int.ModEq segment.align (tp + offset) segment.vaddr) : map.PlacesBlock tp := by
  obtain ⟨_, same, _, align, first, _⟩ := onAfterDynamicLoad_tls built registered found
  rw [ObjectLinkMap.PlacesBlock, same, placed, align, first, power, Nat.and_two_pow_sub_one_eq_mod]
  rw [power] at suitable
  rw [Option.getD_some, suitable.eq]
  exact (Int.natCast_mod _ _).symm

end Fields

/-! ## Threads -/

/-- Static modules are published while only the initial thread exists, and placed where
every live thread has room for them. -/
def Orderly (world : World) (action : Action) : Prop := Timely world action ∧ RoomFor world action

instance (world : World) (action : Action) : Decidable (Orderly world action) :=
  inferInstanceAs (Decidable (_ ∧ _))

theorem orderly_inductive : (World.system.restrict Orderly).Inductive
    fun world => Settled world ∧ Isolated world where
  initially world initial :=
    ⟨settled_inductive.initially world initial, isolated_inductive.initially world initial⟩
  preserved _ _ _ valid step :=
    ⟨settled_inductive.preserved _ _ _ valid.1 ⟨step.1.1, step.2⟩,
      isolated_inductive.preserved _ _ _ valid.2 ⟨step.1.2, step.2⟩⟩

theorem describesBlock_of_valid {object : LoadedObject} {map : ObjectLinkMap}
    {segment : LoadedPhdr} {id : Nat} {offset : Int} {memory : ByteMemory} {world : World}
    {source : TlsImageSource} {tp : Nat}
    (built : onAfterDynamicLoad object = .ok map)
    (registered : object.tls = some (.static id offset))
    (found : object.phdrs.find? (·.IsTls) = some segment)
    (mapped : object.base + segment.vaddr < 2 ^ 64)
    (settled : Settled world) (isolated : Isolated world)
    (slot : world.runtime.tlsModule id = some (.static segment.tlsInfo offset))
    (listed : ⟨id, segment.tlsInfo, some source, offset⟩ ∈ world.runtime.staticModules)
    (published : source.image = some (memory.slice (object.base + segment.vaddr) segment.filesz))
    (live : tp ∈ world.live) : map.DescribesBlock memory world.runtime tp := by
  obtain ⟨modid, beside, blocksize, _, _, size, _⟩ := onAfterDynamicLoad_tls built registered found
  have filled := (settled.blocksReady tp live id _ offset source slot listed).2 _ published
  rw [ByteMemory.slice_length] at filled
  obtain ⟨shorter, holds⟩ := filled
  refine ⟨by rw [size, blocksize]; exact shorter, ?_, ?_⟩
  · rw [slice_initimage built registered found mapped, beside, size, blocksize]
    exact holds
  · rw [dlTlsGetAddrSoft, modid, beside]
    refine (isolated.softAgrees tp live id (by simp [slot])).imp_right ?_
    rintro ⟨region, present, same⟩
    rw [ModuleTls.modId, same]
    have place : world.runtime.placement id = some (segment.tlsInfo, some offset) := by
      rw [Runtime.placement, slot]
      rfl
    rw [Runtime.block_static place] at present
    cases present
    rfl

/-- The link map of an object that was given static storage describes the block of every
live thread once the image is published, and the place of the block on the initial thread
and in all storage made since. -/
theorem link_map_describes_blocks (object : LoadedObject) (map : ObjectLinkMap)
    (segment : LoadedPhdr) (memory : ByteMemory) (world later : World) (base id : Nat)
    (installed : Bool) (offset : Int) (actions : List Action)
    (built : onAfterDynamicLoad object = .ok map)
    (found : object.phdrs.find? (·.IsTls) = some segment)
    (mapped : object.base + segment.vaddr < 2 ^ 64)
    (reached : (World.system.restrict Orderly).Reachable world)
    (registering : (World.system.restrict Orderly).step world
      (.registerStatic segment.tlsInfo base installed)
      (world.registerStaticAt segment.tlsInfo base installed))
    (accepted : (world.runtime.registerStaticModule segment.tlsInfo base installed).1 =
      .ok (id, offset))
    (registered : object.tls = some (.static id offset))
    (run : (World.system.restrict Orderly).Run
      (world.registerStaticAt segment.tlsInfo base installed) actions later) :
    (∀ source, later.runtime.tlsModule id = some (.static segment.tlsInfo offset) →
      ⟨id, segment.tlsInfo, some source, offset⟩ ∈ later.runtime.staticModules →
      source.image = some (memory.slice (object.base + segment.vaddr) segment.filesz) →
      ∀ tp ∈ later.live, map.DescribesBlock memory later.runtime tp) ∧
    (segment.tlsInfo.Word → ∀ low < usizeBits, segment.align = 2 ^ low →
      segment.align ≤ 0x1000 →
      (∀ area, later.runtime.staticTls = some area → map.PlacesBlock area.tp) ∧
      ∀ start tp next, later.Granted start (later.runtime.storageLayout.map Prod.snd) →
        later.runtime.allocateStorage start = some (tp, next) → map.PlacesBlock tp) := by
  constructor
  · intro source slot listed published tp live
    obtain ⟨settled, isolated⟩ := run.preserves orderly_inductive.preserved
      (orderly_inductive.reachable (reached.next registering))
    exact describesBlock_of_valid built registered found mapped settled isolated slot listed
      published live
  · intro word low bounded power small
    have granted : world.Granted base world.wantedArena := by
      have stepped : world.act (.registerStatic segment.tlsInfo base installed) = some (.ok _) :=
        registering.2
      rw [World.act] at stepped
      by_contra refused
      rw [if_neg refused] at stepped
      cases stepped
    obtain ⟨initial, threads⟩ := staticAligned_of_small word bounded power small world
      reached.unrestrict base installed id offset granted accepted actions later run.unrestrict
    exact ⟨fun area present => placesBlock_of_modEq built registered found rfl power
        (initial area present),
      fun start tp next room started => placesBlock_of_modEq built registered found rfl power
        (threads start tp next room started)⟩

def mainSegment : LoadedPhdr := ⟨⟨⟨ElfProgramType.tls, 0x100, 0x100, 3⟩, 64⟩, 16⟩

/-- A program with three initialised bytes of thread-local data. -/
def mainObject : LoadedObject where
  name := "main"
  path := "/bin/main"
  base := 0x10000
  phdrs := [mainSegment]
  entry := 0x11000
  tls := some (.static 1 (-64))

theorem link_map_describes_blocks_main :
    ∃ (map : ObjectLinkMap) (later : World), onAfterDynamicLoad mainObject = .ok map ∧
      0x400080 ∈ later.live ∧
      map.DescribesBlock (ByteMemory.write (fun _ => 0) 0x10100 [1, 2, 3]) later.runtime 0x400080 ∧
      map.PlacesBlock 0x300000 := by
  have registering : (World.system.restrict Orderly).step .new
      (.registerStatic mainSegment.tlsInfo 0x200000 true)
      (World.new.registerStaticAt mainSegment.tlsInfo 0x200000 true) := by
    refine ⟨by decide +kernel, ?_⟩
    change World.act _ _ = _
    rw [World.act, if_pos (by decide +kernel)]
  have evaluated : (TransitionSystem.runLabels (World.actWhen Orderly)
      (World.new.registerStaticAt mainSegment.tlsInfo 0x200000 true)
      [.initTls smallImage 1 (some (-64)), .allocate 0x400000]).map
      (fun world => decide (0x400080 ∈ world.live ∧
        world.runtime.tlsModule 1 = some (.static mainSegment.tlsInfo (-64)) ∧
        ⟨1, mainSegment.tlsInfo, some smallImage, -64⟩ ∈ world.runtime.staticModules ∧
        world.runtime.staticTls.map StaticTlsArea.tp = some 0x300000)) = some true := by
    decide +kernel
  obtain ⟨later, ran, facts⟩ := Option.map_eq_some_iff.mp evaluated
  obtain ⟨live, slot, listed, initial⟩ := of_decide_eq_true facts
  obtain ⟨area, present, place⟩ := Option.map_eq_some_iff.mp initial
  have run := World.run_of_actWhen ran
  have published : smallImage.image = some
      ((ByteMemory.write (fun _ => 0) 0x10100 [1, 2, 3]).slice
        (mainObject.base + mainSegment.vaddr) mainSegment.filesz) := by decide +kernel
  obtain ⟨map, built⟩ : ∃ map, onAfterDynamicLoad mainObject = .ok map := ⟨_, rfl⟩
  obtain ⟨filled, placed⟩ := link_map_describes_blocks mainObject map mainSegment
    (ByteMemory.write (fun _ => 0) 0x10100 [1, 2, 3]) .new later 0x200000 1 true (-64) _ built rfl
    (by decide) (.start rfl) registering (by decide +kernel) rfl run
  refine ⟨map, later, built, live, filled smallImage slot listed published _ live, ?_⟩
  rw [← place]
  exact (placed ⟨by decide, by decide, by decide⟩ 4 (by decide) rfl (by decide)).1 area present

end DynLinker.Tls
