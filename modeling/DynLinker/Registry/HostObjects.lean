import DynLinker.Lib.MachineWord
import DynLinker.Registry.AddressQueries
import DynLinker.Registry.HostDynamic
import DynLinker.Registry.HostImportProperties

/-! The objects that are made of what the host's `dl_iterate_phdr` reports (`callback` and
`from_raw` in `runtime/host.rs`): their headers, their extent, their dynamic table and their
place in static thread-local storage. -/

set_option autoImplicit false

namespace DynLinker.Registry

open Lib Loader ElfLoader

/-- A program header with the size in memory. -/
structure MappedPhdr extends ElfPhdr where
  memsz : Nat
deriving DecidableEq

/-- `CDlPhdrInfo`; zero is the null pointer. -/
structure HostInfo where
  dlpiAddr : Nat
  dlpiName : String
  dlpiPhdr : List MappedPhdr
  dlpiTlsData : Nat

/-- What `from_raw` finds in the memory of the process: the entries from the pointer to a
dynamic table on, empty where none can be read, and the entry and the headers that the file
header at a base leads to, `none` where none can be read. -/
structure HostImage where
  tableAt : Nat → List ElfDyn
  entryAt : Nat → Option Nat
  phdrsAt : Nat → Option (List MappedPhdr)

/-- The ways in which the process stops: a panic, or an access to memory that is not there. -/
inductive HostStop where
  | panicked (panic : Panic)
  | faulted (address : Nat)
deriving DecidableEq

def readable {Value : Type} (address : Nat) : Option Value → Except HostStop Value
  | some value => .ok value
  | none => .error (.faulted address)

def orPanic {Value : Type} (result : Except Panic Value) : Except HostStop Value :=
  result.mapError .panicked

/-- The fields of a link map that `from_raw` fills in or takes over. -/
structure RawLinkMap where
  lAddr : Nat
  lName : String
  lLd : Nat
  lPhdr : Option (List MappedPhdr)
  lEntry : Nat
  lPhnum : Nat

structure RawObject where
  name : String
  base : Nat
  phdrs : List MappedPhdr
  len : Nat
  tpOffset : Option Int
  linkMap : RawLinkMap
  dynamicTable : List ElfDyn

/-- The word read as `isize`. -/
def asIsize (word : Nat) : Int := if word < 2 ^ 63 then word else word - 2 ^ 64

/-- `-(word as isize)`. -/
def negIsize (checks : Bool) (word : Nat) : Except Panic Int :=
  if asIsize word = -2 ^ 63 then
    if checks then .error ⟨"attempt to negate with overflow"⟩ else .ok (-2 ^ 63)
  else .ok (-asIsize word)

/-- The length that `get_phdrs_and_len` finds. -/
def loadLen (checks : Bool) (phdrs : List MappedPhdr) : Except Panic Nat :=
  (phdrs.filter fun phdr => phdr.programType = ElfProgramType.load).foldlM
    (fun len phdr => (plainAdd checks 64 phdr.vaddr phdr.memsz).map (max len)) 0

/-- The first `PT_DYNAMIC` is sent to the recovered table. -/
def redirectDynamic (base table : Nat) : List MappedPhdr → List MappedPhdr
  | [] => []
  | phdr :: rest =>
      if phdr.programType = ElfProgramType.dynamic then
        { phdr with vaddr := wrappingSub 64 table base } :: rest
      else phdr :: redirectDynamic base table rest

/-- musl and the vDSO leave their tables as they were linked. -/
def keepsTable (isMusl : Bool) (name : String) : Bool :=
  decide ("linux-vdso.so.1".toList <:+: name.toList) || isMusl

/-- The table that the object keeps; it is empty where it stays the one in memory. -/
def keptTable (isMusl : Bool) (image : HostImage) (name : String) (base dynamicPtr : Nat) :
    Except HostStop (List ElfDyn) :=
  if keepsTable isMusl name then .ok []
  else match image.tableAt dynamicPtr with
    | [] => .error (.faulted dynamicPtr)
    | entry :: rest => .ok (recoverDynamicTable (entry :: rest) base)

/-- `use_phdrs`: without thread-local data there is no `PT_TLS`. -/
def usePhdrs (base table : Nat) (dynamicTable : List ElfDyn) (tlsData : Option Nat)
    (phdrs : List MappedPhdr) : List MappedPhdr :=
  let redirected := if dynamicTable = [] then phdrs else redirectDynamic base table phdrs
  if tlsData = none then redirected.filter fun phdr => phdr.programType ≠ ElfProgramType.tls
  else redirected

/-- What the callback passes besides the base and the pointers. -/
structure HostExtra where
  phdrs : List MappedPhdr
  tlsData : Option Nat
  staticOffset : Option Nat

/-- The headers that the caller passes, or else those that the file header leads to. -/
def phdrsOf (image : HostImage) (base : Nat) :
    Option HostExtra → Except HostStop (List MappedPhdr)
  | some extra => .ok extra.phdrs
  | none => readable base (image.phdrsAt base)

/-- `from_raw`. The recovered table comes to lie at `table`, and `newUnchecked` is the ELF
loader crate, which makes an object of the parts or refuses them. -/
def fromRaw {Object : Type} (checks isMusl : Bool) (image : HostImage)
    (newUnchecked : RawObject → Except LinkError Object) (table : Nat) (name : String)
    (base dynamicPtr : Nat) (extra : Option HostExtra) (hostLinkMap : Option RawLinkMap) :
    Except HostStop (Except LinkError (Option Object)) :=
  if dynamicPtr = 0 then .ok (.ok none)
  else do
    let dynamicTable ← keptTable isMusl image name base dynamicPtr
    let phdrs ← phdrsOf image base extra
    let len ← orPanic (loadLen checks phdrs)
    let usePhdrs := usePhdrs base table dynamicTable (extra.bind HostExtra.tlsData) phdrs
    let entry ← readable base (image.entryAt base)
    let padded ← orPanic (plainAdd checks 64 len 0xfff)
    let tpOffset ← orPanic ((extra.bind HostExtra.staticOffset).mapM (negIsize checks))
    let linkMap := hostLinkMap.getD ⟨base, name, dynamicPtr, none, 0, 0⟩
    let made := newUnchecked {
      name := name
      base := base
      phdrs := usePhdrs
      len := clearLow 64 padded 0x1000
      tpOffset := tpOffset
      linkMap := { linkMap with
        lName := name
        lPhdr := if usePhdrs = [] then none else some usePhdrs
        lEntry := (entry + base) % 2 ^ 64
        lPhnum := min usePhdrs.length 65535 }
      dynamicTable := dynamicTable
    }
    return made.map some

/-- `find_host_link_map` in the list of the host's loader. -/
def findHostLinkMap (hostMaps : List RawLinkMap) (base : Nat) : Option RawLinkMap :=
  hostMaps.find? fun map => map.lAddr = base

/-- The `unwrap` and the `expect` on what `from_raw` returns. -/
def unwrapRaw {Object : Type} : Except LinkError (Option Object) → Except Panic Object
  | .error failure =>
      .error ⟨"called `Result::unwrap()` on an `Err` value: " ++ failure.text⟩
  | .ok found => expectSome "from_raw failed in callback" found

/-- `callback`, up to the registration. -/
def callback {Object : Type} (checks isMusl : Bool) (image : HostImage)
    (newUnchecked : RawObject → Except LinkError Object) (table threadPointer : Nat)
    (hostMaps : List RawLinkMap) (info : HostInfo) : Except HostStop Object := do
  let phdr ← orPanic (expectSome "No PT_DYNAMIC found in phdrs"
    (info.dlpiPhdr.find? fun phdr => phdr.programType = ElfProgramType.dynamic))
  let dynamicPtr ← orPanic (plainAdd checks 64 info.dlpiAddr phdr.vaddr)
  let tlsData := if info.dlpiTlsData = 0 then none else some info.dlpiTlsData
  let extra : HostExtra := {
    phdrs := info.dlpiPhdr
    tlsData := tlsData
    staticOffset := tlsData.map fun data => wrappingSub 64 threadPointer data
  }
  let found ← fromRaw checks isMusl image newUnchecked table info.dlpiName info.dlpiAddr dynamicPtr
    (some extra) (findHostLinkMap hostMaps info.dlpiAddr)
  orPanic (unwrapRaw found)

namespace MappedPhdr

def IsDynamic (phdr : MappedPhdr) : Prop := phdr.programType = ElfProgramType.dynamic

instance : DecidablePred IsDynamic := fun _ => inferInstanceAs (Decidable (_ = _))

def IsLoad (phdr : MappedPhdr) : Prop := phdr.programType = ElfProgramType.load

instance : DecidablePred IsLoad := fun _ => inferInstanceAs (Decidable (_ = _))

def stop (phdr : MappedPhdr) : Nat := phdr.vaddr + phdr.memsz

def phdr (phdr : MappedPhdr) : Phdr := ⟨phdr.programType, phdr.vaddr, phdr.memsz⟩

end MappedPhdr

/-- The bounds of the segments that are loaded. -/
def segmentBounds (phdrs : List MappedPhdr) : Set Nat :=
  { bound | ∀ phdr ∈ phdrs, phdr.IsLoad → phdr.stop ≤ bound }

section Lengths

variable {phdrs : List MappedPhdr}

theorem foldlM_stop (checks : Bool) (start : Nat)
    (fits : ∀ phdr ∈ phdrs, phdr.stop < 2 ^ 64) :
    ∃ len, phdrs.foldlM
        (fun len phdr => (plainAdd checks 64 phdr.vaddr phdr.memsz).map (max len)) start =
        .ok len ∧
      IsLeast { bound | start ≤ bound ∧ ∀ phdr ∈ phdrs, phdr.stop ≤ bound } len := by
  induction phdrs generalizing start with
  | nil => exact ⟨start, rfl, ⟨le_refl start, by simp⟩, fun bound above => above.1⟩
  | cons phdr rest ih =>
      have small : phdr.vaddr + phdr.memsz < 2 ^ 64 := fits phdr List.mem_cons_self
      obtain ⟨len, folded, ⟨above, ends⟩, least⟩ :=
        ih (max start phdr.stop) fun other member => fits other (List.mem_cons_of_mem _ member)
      refine ⟨len, ?_, ⟨le_trans (le_max_left _ _) above, ?_⟩, ?_⟩
      · rw [List.foldlM_cons, plainAdd_of_lt checks small]
        exact folded
      · intro other member
        rcases List.mem_cons.mp member with rfl | later
        · exact le_trans (le_max_right _ _) above
        · exact ends other later
      · intro bound ⟨started, bounded⟩
        apply least
        exact ⟨max_le started (bounded phdr List.mem_cons_self),
          fun other member => bounded other (List.mem_cons_of_mem _ member)⟩

theorem loadLen_spec (checks : Bool)
    (fits : ∀ phdr ∈ phdrs, phdr.IsLoad → phdr.stop < 2 ^ 64) :
    ∃ len, loadLen checks phdrs = .ok len ∧ IsLeast (segmentBounds phdrs) len := by
  have small : ∀ phdr ∈ phdrs.filter fun phdr => phdr.programType = ElfProgramType.load,
      phdr.stop < 2 ^ 64 := by
    intro phdr member
    obtain ⟨listed, load⟩ := List.mem_filter.mp member
    exact fits phdr listed (of_decide_eq_true load)
  obtain ⟨len, folded, ⟨_, ends⟩, least⟩ := foldlM_stop checks 0 small
  refine ⟨len, folded, ?_, ?_⟩
  · intro phdr listed load
    exact ends phdr (List.mem_filter.mpr ⟨listed, decide_eq_true load⟩)
  · intro bound bounded
    apply least
    refine ⟨Nat.zero_le bound, ?_⟩
    intro phdr member
    obtain ⟨listed, load⟩ := List.mem_filter.mp member
    exact bounded phdr listed (of_decide_eq_true load)

end Lengths

/-- An object as the host may report it: it lies in the address space with its pages, its file
header is mapped at its base, it has a dynamic table, and its thread-local data is where user
addresses are. -/
structure HostInfo.Fits (info : HostInfo) (image : HostImage) (threadPointer : Nat) : Prop where
  header : ∃ entry, image.entryAt info.dlpiAddr = some entry
  extent : ∀ phdr ∈ info.dlpiPhdr, phdr.IsLoad → info.dlpiAddr + phdr.stop + 0xfff < 2 ^ 64
  dynamic : ∃ phdr, info.dlpiPhdr.find? (·.IsDynamic) = some phdr ∧
    info.dlpiAddr + phdr.vaddr ≠ 0 ∧ info.dlpiAddr + phdr.vaddr < 2 ^ 64 ∧
    image.tableAt (info.dlpiAddr + phdr.vaddr) ≠ []
  threadPointer : threadPointer < 2 ^ 63
  tlsData : info.dlpiTlsData < 2 ^ 63

/-- The object that is made of a report resolves its addresses as the host's does. -/
structure TakesOver (isMusl : Bool) (image : HostImage) (table threadPointer : Nat)
    (info : HostInfo) (raw : RawObject) : Prop where
  name : raw.name = info.dlpiName
  base : raw.base = info.dlpiAddr
  extent : IsLeast { bound | 0x1000 ∣ bound ∧ bound ∈ segmentBounds info.dlpiPhdr } raw.len
  headers : raw.phdrs.filter (¬ ·.IsDynamic) = info.dlpiPhdr.filter fun phdr =>
    ¬ phdr.IsDynamic ∧ (phdr.programType = ElfProgramType.tls → info.dlpiTlsData ≠ 0)
  dynamic : ∃ hosted phdr, info.dlpiPhdr.find? (·.IsDynamic) = some hosted ∧
    raw.phdrs.find? (·.IsDynamic) = some phdr ∧
    (if keepsTable isMusl info.dlpiName then
      raw.dynamicTable = [] ∧ phdr = hosted
    else (raw.base + phdr.vaddr) % 2 ^ 64 = table ∧
      raw.dynamicTable =
        recoverDynamicTable (image.tableAt (info.dlpiAddr + hosted.vaddr)) info.dlpiAddr)
  linkMap : raw.linkMap.lAddr = info.dlpiAddr ∧ raw.linkMap.lName = info.dlpiName ∧
    raw.linkMap.lPhnum = min raw.phdrs.length 65535
  tls : raw.tpOffset =
    if info.dlpiTlsData = 0 then none else some ((info.dlpiTlsData : Int) - threadPointer)

section Callback

variable {checks isMusl : Bool} {image : HostImage} {table threadPointer base : Nat}

/-- Relative to the thread pointer the block lies where the host put it. -/
theorem negIsize_block {data : Nat} (checks : Bool) (pointer : threadPointer < 2 ^ 63)
    (block : data < 2 ^ 63) :
    negIsize checks (wrappingSub 64 threadPointer data) = .ok ((data : Int) - threadPointer) := by
  have signed : asIsize (wrappingSub 64 threadPointer data) = (threadPointer : Int) - data := by
    rw [asIsize, wrappingSub]
    split <;> omega
  rw [negIsize, signed, if_neg (by omega)]
  exact congrArg Except.ok (by omega)

theorem copyTable_ne_nil {entries : List ElfDyn} (nonempty : entries ≠ []) :
    copyTable entries ≠ [] := by
  cases entries with
  | nil => exact absurd rfl nonempty
  | cons entry rest =>
      rw [copyTable]
      split <;> exact List.cons_ne_nil _ _

theorem recoverDynamicTable_ne_nil {entries : List ElfDyn} (nonempty : entries ≠ []) :
    recoverDynamicTable entries base ≠ [] :=
  fun empty => copyTable_ne_nil nonempty (List.map_eq_nil_iff.mp empty)

theorem redirectDynamic_filter (phdrs : List MappedPhdr) :
    (redirectDynamic base table phdrs).filter (¬ ·.IsDynamic) =
      phdrs.filter (¬ ·.IsDynamic) := by
  induction phdrs with
  | nil => rfl
  | cons phdr rest ih =>
      rw [redirectDynamic]
      split
      · next dynamic => simp [MappedPhdr.IsDynamic, dynamic]
      · rw [List.filter_cons, ih, List.filter_cons]

theorem redirectDynamic_find? (phdrs : List MappedPhdr) :
    (redirectDynamic base table phdrs).find? (·.IsDynamic) =
      (phdrs.find? (·.IsDynamic)).map fun phdr =>
        { phdr with vaddr := wrappingSub 64 table base } := by
  induction phdrs with
  | nil => rfl
  | cons phdr rest ih =>
      rw [redirectDynamic]
      split
      · next dynamic => simp [MappedPhdr.IsDynamic, dynamic]
      · next other =>
          have other : ¬phdr.IsDynamic := other
          simp [other, ih]

/-- Rounding up to pages keeps the bound of the segments least. -/
theorem isLeast_pages {phdrs : List MappedPhdr} {len : Nat}
    (least : IsLeast (segmentBounds phdrs) len) (small : len + 0xfff < 2 ^ 64) :
    IsLeast { bound | 0x1000 ∣ bound ∧ bound ∈ segmentBounds phdrs }
      (clearLow 64 (len + 0xfff) 0x1000) := by
  have rounded : clearLow 64 (len + 0xfff) 0x1000 = roundUp len 0x1000 :=
    @clearLow_two_pow 64 12 _ (by decide) small
  rw [rounded]
  refine ⟨⟨dvd_roundUp, ?_⟩, ?_⟩
  · intro phdr listed load
    exact le_trans (least.1 phdr listed load) (le_roundUp (by decide))
  · intro bound ⟨pages, bounds⟩
    exact roundUp_le (by decide) (least.2 bounds) pages

/-- No header loses its kind, and a thread-local segment goes only without its data. -/
theorem usePhdrs_filter (dynamicTable : List ElfDyn) (tlsData : Option Nat)
    (phdrs : List MappedPhdr) :
    (usePhdrs base table dynamicTable tlsData phdrs).filter (¬ ·.IsDynamic) =
      phdrs.filter fun phdr =>
        ¬ phdr.IsDynamic ∧ (phdr.programType = ElfProgramType.tls → tlsData ≠ none) := by
  have others : (if dynamicTable = [] then phdrs else redirectDynamic base table phdrs).filter
      (¬ ·.IsDynamic) = phdrs.filter (¬ ·.IsDynamic) := by
    split
    · rfl
    · exact redirectDynamic_filter phdrs
  rw [usePhdrs]
  split
  · next absent =>
      rw [List.filter_comm, others, List.filter_filter]
      simp [absent, and_comm]
  · next present =>
      rw [others]
      simp [present]

theorem usePhdrs_find? (dynamicTable : List ElfDyn) (tlsData : Option Nat)
    (phdrs : List MappedPhdr) :
    (usePhdrs base table dynamicTable tlsData phdrs).find? (·.IsDynamic) =
      if dynamicTable = [] then phdrs.find? (·.IsDynamic)
      else (phdrs.find? (·.IsDynamic)).map fun phdr =>
        { phdr with vaddr := wrappingSub 64 table base } := by
  have kept (headers : List MappedPhdr) :
      (headers.filter fun phdr => phdr.programType ≠ ElfProgramType.tls).find? (·.IsDynamic) =
        headers.find? (·.IsDynamic) := by
    rw [List.find?_filter]
    congr 1
    funext phdr
    by_cases dynamic : phdr.IsDynamic
    · have other : phdr.programType ≠ ElfProgramType.tls := by
        rw [show phdr.programType = ElfProgramType.dynamic from dynamic]
        decide
      simp [dynamic, other]
    · simp [dynamic]
  have redirected : (if dynamicTable = [] then phdrs else
      redirectDynamic base table phdrs).find? (·.IsDynamic) = if dynamicTable = [] then
        phdrs.find? (·.IsDynamic) else (phdrs.find? (·.IsDynamic)).map fun phdr =>
          { phdr with vaddr := wrappingSub 64 table base } := by
    split
    · rfl
    · exact redirectDynamic_find? phdrs
  rw [usePhdrs, ← redirected]
  split
  · exact kept _
  · rfl

theorem keptTable_eq {name : String} {dynamicPtr : Nat} (mapped : image.tableAt dynamicPtr ≠ []) :
    keptTable isMusl image name base dynamicPtr = .ok (if keepsTable isMusl name then []
      else recoverDynamicTable (image.tableAt dynamicPtr) base) := by
  rw [keptTable]
  split
  · rfl
  · cases entries : image.tableAt dynamicPtr with
    | nil => exact absurd entries mapped
    | cons entry rest => rfl

theorem unwrapRaw_eq_ok {Object : Type} {result : Except LinkError Object} {object : Object} :
    orPanic (unwrapRaw (result.map some)) = .ok object ↔ result = .ok object := by
  cases result with
  | error failure =>
      constructor
      · intro impossible
        cases impossible
      · intro impossible
        cases impossible
  | ok made =>
      constructor
      · intro same
        cases same
        rfl
      · intro same
        cases same
        rfl

/-- Of every report that fits the crate is given an object which resolves its addresses as
the host's does; the callback returns what the crate makes of it, or panics. -/
theorem callback_spec {Object : Type} (checks : Bool)
    (newUnchecked : RawObject → Except LinkError Object) {info : HostInfo}
    (fits : info.Fits image threadPointer) (placed : table < 2 ^ 64) (hostMaps : List RawLinkMap) :
    ∃ raw, TakesOver isMusl image table threadPointer info raw ∧
      callback checks isMusl image newUnchecked table threadPointer hostMaps info =
        orPanic (unwrapRaw ((newUnchecked raw).map some)) := by
  obtain ⟨entry, header⟩ := fits.header
  obtain ⟨hosted, first, nonnull, inside, present⟩ := fits.dynamic
  have below : ∀ phdr ∈ info.dlpiPhdr, phdr.IsLoad → phdr.stop ≤ 2 ^ 64 - 0x1000 := by
    intro phdr listed load
    have room := fits.extent phdr listed load
    omega
  obtain ⟨len, loaded, least⟩ := loadLen_spec checks fun phdr listed load =>
    lt_of_le_of_lt (below phdr listed load) (by decide)
  have small : len + 0xfff < 2 ^ 64 := by
    have bounded := least.2 below
    omega
  have located : (info.dlpiPhdr.find? fun phdr =>
      phdr.programType = ElfProgramType.dynamic) = some hosted := first
  have offset : ((if info.dlpiTlsData = 0 then none else some info.dlpiTlsData).map fun data =>
      wrappingSub 64 threadPointer data).mapM (negIsize checks) =
      .ok (if info.dlpiTlsData = 0 then none
        else some ((info.dlpiTlsData : Int) - threadPointer)) := by
    split
    · rfl
    · rw [Option.map_some, Option.mapM_some, negIsize_block checks fits.threadPointer fits.tlsData]
      rfl
  have data : (if info.dlpiTlsData = 0 then none else some info.dlpiTlsData) ≠ none ↔
      info.dlpiTlsData ≠ 0 := by
    split <;> simp_all
  simp only [callback, located, expectSome, plainAdd_of_lt checks inside, fromRaw, if_neg nonnull,
    keptTable_eq present, phdrsOf, readable, header, loaded, plainAdd_of_lt checks small, orPanic,
    Except.mapError, Option.bind_some, bind, Except.bind, offset, pure, Except.pure]
  refine ⟨_, ⟨rfl, rfl, isLeast_pages least small, ?_, ?_, ⟨?_, rfl, rfl⟩, rfl⟩, rfl⟩
  · rw [usePhdrs_filter]
    simp only [data]
  · by_cases keeps : keepsTable isMusl info.dlpiName = true
    · refine ⟨hosted, hosted, first, ?_, ?_⟩
      · rw [usePhdrs_find?, if_pos keeps, if_pos rfl, first]
      · rw [if_pos keeps]
        exact ⟨if_pos keeps, rfl⟩
    · refine ⟨hosted, { hosted with vaddr := wrappingSub 64 table info.dlpiAddr }, first, ?_, ?_⟩
      · rw [usePhdrs_find?, if_neg keeps, if_neg (recoverDynamicTable_ne_nil present), first,
          Option.map_some]
      · rw [if_neg keeps]
        exact ⟨add_wrappingSub placed, if_neg keeps⟩
  · cases mapped : findHostLinkMap hostMaps info.dlpiAddr with
    | none => rfl
    | some map => simpa using List.find?_some mapped

/-- Nothing is made of a report whose file header is not mapped, such as that of a program
which was linked to a fixed address, or which the crate refuses. -/
theorem callback_made {Object : Type} {newUnchecked : RawObject → Except LinkError Object}
    {hostMaps : List RawLinkMap} {info : HostInfo} {object : Object}
    (made : callback checks isMusl image newUnchecked table threadPointer hostMaps info =
      .ok object) :
    image.entryAt info.dlpiAddr ≠ none ∧ ∃ raw, newUnchecked raw = .ok object := by
  obtain ⟨phdr, _, made⟩ := bind_eq_ok.mp made
  obtain ⟨dynamicPtr, _, made⟩ := bind_eq_ok.mp made
  obtain ⟨found, rebuilt, made⟩ := bind_eq_ok.mp made
  rw [fromRaw] at rebuilt
  split at rebuilt
  · cases rebuilt
    cases made
  · obtain ⟨kept, _, rebuilt⟩ := bind_eq_ok.mp rebuilt
    obtain ⟨phdrs, _, rebuilt⟩ := bind_eq_ok.mp rebuilt
    obtain ⟨len, _, rebuilt⟩ := bind_eq_ok.mp rebuilt
    obtain ⟨entry, header, rebuilt⟩ := bind_eq_ok.mp rebuilt
    obtain ⟨padded, _, rebuilt⟩ := bind_eq_ok.mp rebuilt
    obtain ⟨tpOffset, _, rebuilt⟩ := bind_eq_ok.mp rebuilt
    cases rebuilt
    refine ⟨?_, _, unwrapRaw_eq_ok.mp made⟩
    intro unmapped
    rw [unmapped] at header
    cases header

end Callback

/-- The object that the crate makes of a rebuilt image: one mapped region from its base on. -/
structure HostObject.MadeFrom (object : HostObject) (raw : RawObject) : Prop where
  name : object.name = raw.name
  base : object.base = raw.base
  phdrs : object.phdrs = raw.phdrs.map MappedPhdr.phdr
  ranges : object.ranges = [(raw.base, raw.base + raw.len)]

section Import

variable {Ctx : Type} [ElfLoader Ctx] [LawfulElfLoader Ctx] {objects : List HostObject}

omit [LawfulElfLoader Ctx] in
theorem Linked.mappedApart {manager : Manager Ctx} (linked : Linked manager.view objects)
    (apart : objects.Pairwise fun left right => ∀ leftRange ∈ left.ranges,
      ∀ rightRange ∈ right.ranges, leftRange.2 ≤ rightRange.1 ∨ rightRange.2 ≤ leftRange.1)
    (located : ∀ record ∈ manager.view.modules, ∀ addr, record.handle.Contains addr →
      moduleIdAt manager.linkCtx addr ≠ none) : MappedApart manager.linkCtx := by
  have handles : (objects.map HostObject.handle).Pairwise fun left right =>
      ∀ leftRange ∈ left.ranges, ∀ rightRange ∈ right.ranges,
        leftRange.2 ≤ rightRange.1 ∨ rightRange.2 ≤ leftRange.1 :=
    List.pairwise_map.mpr apart
  rw [← linked.order] at handles
  exact ⟨List.pairwise_map.mp handles, located⟩

theorem TakesOver.ehFrameOf_eq {isMusl : Bool} {image : HostImage} {table threadPointer : Nat}
    {info : HostInfo} {raw : RawObject}
    (taken : TakesOver isMusl image table threadPointer info raw) (base : Nat) :
    ehFrameOf base (raw.phdrs.map MappedPhdr.phdr) =
      ehFrameOf base (info.dlpiPhdr.map MappedPhdr.phdr) := by
  have kept (phdrs : List MappedPhdr) (keep : MappedPhdr → Prop) [DecidablePred keep]
      (keeps : ∀ phdr, phdr.programType = gnuEhFrame → keep phdr) :
      (phdrs.filter keep).find? (·.programType = gnuEhFrame) =
        phdrs.find? (·.programType = gnuEhFrame) := by
    rw [List.find?_filter]
    congr 1
    funext phdr
    by_cases found : phdr.programType = gnuEhFrame
    · simp [found, keeps phdr found]
    · simp [found]
  have other {phdr : MappedPhdr} (found : phdr.programType = gnuEhFrame) : ¬ phdr.IsDynamic := by
    intro dynamic
    exact absurd (found.symm.trans dynamic) (by decide)
  have same : raw.phdrs.find? (·.programType = gnuEhFrame) =
      info.dlpiPhdr.find? (·.programType = gnuEhFrame) := by
    rw [← kept raw.phdrs (¬ ·.IsDynamic) fun _ => other, taken.headers]
    apply kept
    intro phdr found
    refine ⟨other found, fun tls => ?_⟩
    exact absurd (found.symm.trans tls) (by decide)
  rw [ehFrameOf, ehFrameOf, List.find?_map, List.find?_map]
  exact congrArg (fun found => ((found.map MappedPhdr.phdr).map fun phdr =>
    base + phdr.vaddr).getD 0) same

theorem contains_of_segment {isMusl : Bool} {image : HostImage} {table threadPointer : Nat}
    {info : HostInfo} {raw : RawObject} {object : HostObject}
    (taken : TakesOver isMusl image table threadPointer info raw) (made : object.MadeFrom raw)
    {phdr : MappedPhdr} (listed : phdr ∈ info.dlpiPhdr) (load : phdr.IsLoad) {addr : Nat}
    (above : info.dlpiAddr + phdr.vaddr ≤ addr) (below : addr < info.dlpiAddr + phdr.stop) :
    object.handle.Contains addr := by
  have inside : phdr.stop ≤ raw.len := taken.extent.1.2 phdr listed load
  have base := taken.base
  refine ⟨(raw.base, raw.base + raw.len), ?_, ?_, ?_⟩
  · rw [HostObject.handle, made.ranges]
    exact List.mem_cons_self
  · omega
  · omega

end Import

/-- A program and its C library, whose tables are recovered to these addresses. -/
def programReport : HostInfo × Nat :=
  (⟨0x10000, "", [⟨⟨ElfProgramType.load, 0, 0, 0x1200⟩, 0x1200⟩,
    ⟨⟨ElfProgramType.dynamic, 0x1000, 0x1000, 0x20⟩, 0x20⟩], 0⟩, 0x90000)

def libcReport : HostInfo × Nat :=
  (⟨0x20000, "/lib/libc.so.6", [⟨⟨ElfProgramType.load, 0, 0, 0x900⟩, 0x900⟩,
    ⟨⟨gnuEhFrame, 0x800, 0x800, 0x40⟩, 0x40⟩, ⟨⟨ElfProgramType.tls, 0x100, 0x100, 8⟩, 16⟩,
    ⟨⟨ElfProgramType.dynamic, 0x400, 0x400, 0x20⟩, 0x20⟩,
    ⟨⟨ElfProgramType.load, 0x2000, 0x2000, 0x300⟩, 0x345⟩], 0x7000⟩, 0x91000)

/-- Both have their file headers at their bases. -/
def processImage : HostImage where
  tableAt address :=
    if address = 0x11000 then [⟨ElfDynamicTag.strtab, 0x10100⟩, ⟨ElfDynamicTag.null, 0⟩]
    else [⟨ElfDynamicTag.null, 0⟩]
  entryAt base := if base = 0 then none else some 0x100
  phdrsAt base := if base = 0 then none else some []

/-- A crate that accepts what has a dynamic header. -/
def referenceNew (raw : RawObject) : Except LinkError HostObject :=
  if dynamic : ∃ phdr ∈ raw.phdrs.map MappedPhdr.phdr, phdr.programType = ptDynamic then
    .ok { (if raw.name = "" then hostMain else hostLibc) with
      name := raw.name
      base := raw.base
      phdrs := raw.phdrs.map MappedPhdr.phdr
      ranges := [(raw.base, raw.base + raw.len)]
      dynamic := dynamic }
  else .error ⟨"missing PT_DYNAMIC"⟩

theorem referenceNew_makes (raw : RawObject) (object : HostObject)
    (made : referenceNew raw = .ok object) : object.MadeFrom raw := by
  rw [referenceNew] at made
  split at made
  · cases made
    exact ⟨rfl, rfl, rfl, rfl⟩
  · cases made

theorem referenceNew_accepts {isMusl : Bool} {image : HostImage} {table threadPointer : Nat}
    {info : HostInfo} {raw : RawObject}
    (taken : TakesOver isMusl image table threadPointer info raw) :
    ∃ object, referenceNew raw = .ok object := by
  obtain ⟨_, phdr, _, found, _⟩ := taken.dynamic
  have dynamic : phdr.IsDynamic := by simpa only [decide_eq_true_eq] using List.find?_some found
  exact ⟨_, dif_pos ⟨phdr.phdr, List.mem_map_of_mem (List.mem_of_find?_eq_some found), dynamic⟩⟩

def takenProgram : HostObject := { hostMain with
  phdrs := [⟨ElfProgramType.load, 0, 0x1200⟩, ⟨ElfProgramType.dynamic, 0x80000, 0x20⟩]
  ranges := [(0x10000, 0x12000)]
  dynamic := ⟨⟨ElfProgramType.dynamic, 0x80000, 0x20⟩, by decide, rfl⟩ }

def takenLibc : HostObject := { hostLibc with
  phdrs := [⟨ElfProgramType.load, 0, 0x900⟩, ⟨gnuEhFrame, 0x800, 0x40⟩,
    ⟨ElfProgramType.tls, 0x100, 16⟩, ⟨ElfProgramType.dynamic, 0x71000, 0x20⟩,
    ⟨ElfProgramType.load, 0x2000, 0x345⟩]
  ranges := [(0x20000, 0x23000)]
  dynamic := ⟨⟨ElfProgramType.dynamic, 0x71000, 0x20⟩, by decide, rfl⟩ }

theorem program_fits : programReport.1.Fits processImage 0x7100 where
  header := ⟨0x100, by decide⟩
  extent := by decide
  dynamic := ⟨⟨⟨ElfProgramType.dynamic, 0x1000, 0x1000, 0x20⟩, 0x20⟩, by decide, by decide,
    by decide, by decide⟩
  threadPointer := by decide
  tlsData := by decide

theorem libc_fits : libcReport.1.Fits processImage 0x7100 where
  header := ⟨0x100, by decide⟩
  extent := by decide
  dynamic := ⟨⟨⟨ElfProgramType.dynamic, 0x400, 0x400, 0x20⟩, 0x20⟩, by decide, by decide,
    by decide, by decide⟩
  threadPointer := by decide
  tlsData := by decide

end DynLinker.Registry
