import DynLinker.Tls.RuntimeProperties

/-! The control blocks and their vectors: which calls leave the tables of modules
alone, and when an entry of a vector can be stored. -/

set_option autoImplicit false

namespace DynLinker.Tls.Runtime

open Lib

/-- Every vector has its full number of slots, and storage starts below its thread pointer. -/
structure Sized (runtime : Runtime) : Prop where
  dtvs : ∀ tp dtv, (runtime.tcbs tp).dtv = some dtv → dtv.slots = dtvSlotCount
  storages : ∀ allocation ∈ runtime.allocations, allocation.base ≤ allocation.tp

/-- A call that registers nothing. -/
structure Quiet (runtime next : Runtime) : Prop where
  modules : next.modules = runtime.modules
  staticTls : next.staticTls = runtime.staticTls
  sized : runtime.Sized → next.Sized

namespace Quiet

theorem refl (runtime : Runtime) : runtime.Quiet runtime := ⟨rfl, rfl, id⟩

theorem trans {first second third : Runtime} (before : first.Quiet second)
    (after : second.Quiet third) : first.Quiet third :=
  ⟨after.modules.trans before.modules, after.staticTls.trans before.staticTls,
    fun sized => after.sized (before.sized sized)⟩

theorem tlsModule {runtime next : Runtime} (quiet : runtime.Quiet next) (id : Nat) :
    next.tlsModule id = runtime.tlsModule id := by
  rw [Runtime.tlsModule, Runtime.tlsModule, quiet.modules]

end Quiet

theorem allocZeroed_quiet (runtime : Runtime) (layout : Layout) (ptr : Nat) :
    runtime.Quiet (runtime.allocZeroed layout ptr) := by
  refine ⟨rfl, rfl, fun sized => ⟨?_, sized.storages⟩⟩
  intro tp dtv found
  simp only [allocZeroed] at found
  split at found
  · cases found
  · exact sized.dtvs tp dtv found

theorem updateTcb_quiet (runtime : Runtime) (tp : Nat) (tcb : Tcb)
    (full : runtime.Sized → ∀ dtv, tcb.dtv = some dtv → dtv.slots = dtvSlotCount) :
    runtime.Quiet { runtime with tcbs := Function.update runtime.tcbs tp tcb } := by
  refine ⟨rfl, rfl, fun sized => ⟨?_, sized.storages⟩⟩
  intro other dtv found
  change (Function.update runtime.tcbs tp tcb other).dtv = some dtv at found
  by_cases same : other = tp
  · rw [same, Function.update_self] at found
    exact full sized dtv found
  · rw [Function.update_of_ne same] at found
    exact sized.dtvs other dtv found

theorem initTcb_quiet (runtime : Runtime) (tp : Nat) : runtime.Quiet (runtime.initTcb tp) := by
  refine updateTcb_quiet runtime tp _ ?_
  intro _ dtv found
  cases found
  rfl

theorem setDtvValue_quiet {runtime next : Runtime} {tp id value toFree : Nat}
    (accepted : runtime.setDtvValue tp id value toFree = some next) : runtime.Quiet next := by
  rw [setDtvValue] at accepted
  split at accepted
  · cases accepted
  · obtain ⟨entry, _, returned⟩ := Option.bind_eq_some_iff.mp accepted
    cases returned
    refine updateTcb_quiet runtime tp _ ?_
    intro sized dtv found
    obtain ⟨old, present, rfl⟩ := Option.map_eq_some_iff.mp found
    exact sized.dtvs tp old present

theorem write_quiet (runtime : Runtime) (memory : ByteMemory) :
    runtime.Quiet { runtime with memory := memory } :=
  ⟨rfl, rfl, fun sized => ⟨sized.dtvs, sized.storages⟩⟩

theorem initStaticTlsModule_quiet {runtime next : Runtime} {tp : Nat} {module : StaticTlsModule}
    (accepted : runtime.initStaticTlsModule tp module = .ok next) : runtime.Quiet next := by
  rw [initStaticTlsModule] at accepted
  split at accepted
  · cases accepted
    exact .refl _
  · next image _ =>
      obtain ⟨bytes, _, returned⟩ := bind_eq_ok.mp accepted
      have written := write_quiet runtime (runtime.memory.write (offsetPtr tp module.offset) bytes)
      have same := Except.ok.inj returned
      cases stored : setDtvValue { runtime with
          memory := runtime.memory.write (offsetPtr tp module.offset) bytes } tp module.id
          (offsetPtr tp module.offset) 0 with
      | none =>
          rw [stored, Option.getD_none] at same
          exact same ▸ written
      | some middle =>
          rw [stored, Option.getD_some] at same
          exact same ▸ written.trans (setDtvValue_quiet stored)

theorem initModules_quiet {modules : List StaticTlsModule} {runtime next : Runtime} {tp : Nat}
    (accepted : modules.foldlM (fun runtime module => runtime.initStaticTlsModule tp module)
      runtime = .ok next) : runtime.Quiet next :=
  foldlM_relates Quiet.refl (fun _ _ _ => Quiet.trans)
    (fun _ _ _ initialising => initStaticTlsModule_quiet initialising) accepted

theorem initRseqArea_quiet (runtime : Runtime) (tp used : Nat) :
    runtime.Quiet (runtime.initRseqArea tp used) := by
  rw [initRseqArea]
  split
  · exact .refl _
  · exact write_quiet _ _

theorem init_quiet {runtime : Runtime} {tp : Nat} {result : Nat × Runtime}
    (accepted : runtime.init tp = .ok result) : runtime.Quiet result.2 := by
  rw [init] at accepted
  split at accepted
  · cases accepted
    exact .refl _
  · obtain ⟨middle, folding, returned⟩ := bind_eq_ok.mp accepted
    cases returned
    exact ((initTcb_quiet runtime tp).trans (initModules_quiet folding)).trans
      (initRseqArea_quiet _ _ _)

theorem allocate_quiet {runtime : Runtime} {base : Nat} {result : Nat × Runtime}
    (accepted : runtime.allocate base = .ok result) : runtime.Quiet result.2 := by
  rw [allocate] at accepted
  split at accepted
  · cases accepted
    exact .refl _
  · next storage allocated allocating =>
      obtain ⟨⟨staticSize, layout⟩, _, returned⟩ := Option.bind_eq_some_iff.mp allocating
      obtain ⟨rfl, rfl⟩ := Prod.mk.inj (Option.some.inj returned)
      refine Quiet.trans ?_ (init_quiet accepted)
      have zeroed := allocZeroed_quiet runtime layout base
      refine ⟨rfl, rfl, fun sized => ⟨(zeroed.sized sized).dtvs, ?_⟩⟩
      intro allocation listed
      rcases List.mem_append.mp listed with old | new
      · exact sized.storages allocation old
      · cases List.mem_singleton.mp new
        exact Nat.le_add_right _ _

theorem deallocateTcb_quiet (runtime : Runtime) (tp : Nat) :
    runtime.Quiet (runtime.deallocateTcb tp) := by
  rw [deallocateTcb]
  split
  · exact .refl _
  · refine updateTcb_quiet runtime tp _ ?_
    intro _ dtv found
    cases found

theorem dlDeallocateTls_quiet (runtime : Runtime) (tp : Nat) (deallocTcb : Bool) :
    runtime.Quiet (runtime.dlDeallocateTls tp deallocTcb) := by
  rw [dlDeallocateTls]
  refine (deallocateTcb_quiet runtime tp).trans ?_
  obtain ⟨blocks, allocations, freed, kept, reordered, sublist, _⟩ :=
    deallocate_spec (runtime.deallocateTcb tp) tp deallocTcb
  rw [freed]
  refine ⟨rfl, rfl, fun sized => ⟨sized.dtvs, ?_⟩⟩
  intro allocation listed
  exact sized.storages allocation (sublist.subset (reordered.mem_iff.mp listed))

theorem fillDynamicBlock_quiet {runtime next : Runtime} {tp id ptr : Nat} {info : TlsInfo}
    {source : Option TlsImageSource} {block : Option Nat} {layout : Layout}
    (accepted : runtime.fillDynamicBlock tp id info source layout ptr = .ok (block, next)) :
    runtime.Quiet next := by
  unfold fillDynamicBlock at accepted
  have zeroed := allocZeroed_quiet runtime layout ptr
  cases source with
  | none =>
      obtain ⟨_, rfl⟩ := Prod.mk.inj (Except.ok.inj accepted)
      exact ⟨rfl, rfl, fun sized => ⟨(zeroed.sized sized).dtvs, sized.storages⟩⟩
  | some source =>
      cases given : source.image with
      | none =>
          simp only [given] at accepted
          obtain ⟨_, rfl⟩ := Prod.mk.inj (Except.ok.inj accepted)
          exact zeroed
      | some image =>
          simp only [given] at accepted
          obtain ⟨bytes, _, storing⟩ := bind_eq_ok.mp accepted
          have written := zeroed.trans (write_quiet _
            ((runtime.allocZeroed layout ptr).memory.write ptr bytes))
          split at storing
          · obtain ⟨_, rfl⟩ := Prod.mk.inj (Except.ok.inj storing)
            exact written
          · next stored entry =>
              obtain ⟨_, rfl⟩ := Prod.mk.inj (Except.ok.inj storing)
              have whole := written.trans (setDtvValue_quiet entry)
              exact ⟨whole.modules, whole.staticTls, fun sized =>
                ⟨(whole.sized sized).dtvs, (whole.sized sized).storages⟩⟩

theorem getAddr_quiet {runtime next : Runtime} {tp id tiOffset ptr addr : Nat}
    (accepted : runtime.getAddr tp id tiOffset ptr = .ok (addr, next)) : runtime.Quiet next := by
  cases getAddr_answers accepted with
  | null => exact .refl _
  | static _ _ => exact .refl _
  | known _ _ => exact .refl _
  | filled _ _ _ _ _ filling => exact fillDynamicBlock_quiet filling

theorem initStaticTls_quiet {runtime next : Runtime} {info : TlsInfo} {source : TlsImageSource}
    {id : Nat} {offset : Int} {result : Except TlsError Unit}
    (accepted : runtime.initStaticTls info source id offset = .ok (result, next)) :
    next = runtime ∨ ∃ statics, Quiet { runtime with
      modules := runtime.modules.set (id - 1) (some (.static info offset))
      staticModules := statics } next := by
  rw [initStaticTls] at accepted
  cases replacing : runtime.replaceSlot id (.static info offset) with
  | error error =>
      rw [replacing] at accepted
      exact .inl (Prod.mk.inj (Except.ok.inj accepted)).2.symm
  | ok replaced =>
      rw [replacing] at accepted
      obtain rfl := replaceSlot_spec replacing
      refine .inr ⟨publishStatic runtime.staticModules ⟨id, info, some source, offset⟩, ?_⟩
      cases present : runtime.staticTls with
      | none =>
          simp only [present] at accepted
          obtain ⟨_, rfl⟩ := Prod.mk.inj (Except.ok.inj accepted)
          exact .refl _
      | some area =>
          simp only [present] at accepted
          obtain ⟨middle, initialising, returned⟩ := bind_eq_ok.mp accepted
          obtain ⟨_, rfl⟩ := Prod.mk.inj (Except.ok.inj returned)
          exact (initStaticTlsModule_quiet initialising).trans (initRseqArea_quiet _ _ _)

/-! ## Entries -/

theorem dtvValue_ne_zero {runtime : Runtime} {tp id block : Nat}
    (known : runtime.dtvValue tp id = some block) : block ≠ 0 := by
  rw [dtvValue] at known
  split at known
  · cases known
  · obtain ⟨entry, _, returned⟩ := Option.bind_eq_some_iff.mp known
    split at returned
    · cases returned
    · next filled =>
        cases returned
        exact filled

theorem setDtvValue_total {runtime : Runtime} {tp id : Nat} {dtv : Dtv} (value toFree : Nat)
    (nonnull : tp ≠ 0) (vector : (runtime.tcbs tp).dtv = some dtv) (positive : id ≠ 0)
    (bounded : id ≤ dtv.slots) : ∃ next, runtime.setDtvValue tp id value toFree = some next := by
  have entry : (runtime.tcbs tp).dtvEntry id = some (dtv.entries id) := by
    have inside : ¬ (id = 0 ∨ dtv.slots < id) := by omega
    simp [Tcb.dtvEntry, vector, inside]
  rw [setDtvValue, if_neg nonnull, entry]
  exact ⟨_, rfl⟩

theorem fillDynamicBlock_total {runtime : Runtime} {tp id ptr : Nat} {info : TlsInfo}
    {source : TlsImageSource} {layout : Layout} {image : List UInt8} {dtv : Dtv}
    (nonnull : tp ≠ 0) (vector : (runtime.tcbs tp).dtv = some dtv) (positive : id ≠ 0)
    (bounded : id ≤ dtv.slots) (readable : source.image = some image)
    (fits : image.length ≤ info.memsz) (outside : ¬ (ptr ≤ tp ∧ tp < ptr + layout.size)) :
    ∃ next, runtime.fillDynamicBlock tp id info (some source) layout ptr =
      .ok (some ptr, next) := by
  -- the new block does not lie over the control block
  have kept : (runtime.allocZeroed layout ptr).tcbs tp = runtime.tcbs tp := by
    simp only [allocZeroed, if_neg outside]
  rw [← kept] at vector
  obtain ⟨stored, storing⟩ := @setDtvValue_total { runtime.allocZeroed layout ptr with
      memory := (runtime.allocZeroed layout ptr).memory.write ptr
        (image ++ List.replicate (info.memsz - image.length) 0) }
    tp id dtv ptr ptr nonnull vector positive bounded
  refine ⟨{ stored with dynamicBlocks := stored.dynamicBlocks ++ [⟨tp, ptr, layout⟩] }, ?_⟩
  simp only [fillDynamicBlock, readable, blockBytes, if_pos fits]
  refine bind_eq_ok.mpr ⟨_, rfl, ?_⟩
  simp only [storing]
  rfl

theorem dynamicTlsAddr_nonnull {runtime : Runtime} {tp id tiOffset ptr : Nat} {info : TlsInfo}
    {source : TlsImageSource} {layout : Layout} {image : List UInt8} {dtv : Dtv}
    (nonnull : tp ≠ 0) (vector : (runtime.tcbs tp).dtv = some dtv) (positive : id ≠ 0)
    (bounded : id ≤ dtv.slots) (laid : blockLayout info = some layout)
    (readable : source.image = some image) (fits : image.length ≤ info.memsz)
    (granted : runtime.dtvValue tp id = none →
      ptr ≠ 0 ∧ ¬ (ptr ≤ tp ∧ tp < ptr + layout.size)) :
    ∃ addr next, runtime.dynamicTlsAddr tp id info (some source) tiOffset ptr = .ok (addr, next) ∧
      addr ≠ 0 := by
  rw [dynamicTlsAddr, if_neg nonnull]
  cases known : runtime.dtvValue tp id with
  | some block =>
      have filled := dtvValue_ne_zero known
      exact ⟨block + tiOffset, runtime, rfl, by omega⟩
  | none =>
      obtain ⟨mapped, outside⟩ := granted known
      obtain ⟨next, filling⟩ := fillDynamicBlock_total nonnull vector positive bounded readable fits
        outside
      refine ⟨ptr + tiOffset, next, ?_, by omega⟩
      refine bind_eq_ok.mpr ⟨(some ptr, next), ?_, rfl⟩
      unfold allocateDynamicBlock
      rw [laid]
      exact filling

end DynLinker.Tls.Runtime
