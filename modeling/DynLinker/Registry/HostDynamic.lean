import DynLinker.Lib.Elf
import Mathlib.Data.List.Forall2

/-! The dynamic table of an object that the host has loaded (`recover_dynamic_table` in
`runtime/host.rs`). The host may have added the load address to some of the table's
addresses; which ones is not recorded anywhere and is told from the values. -/

set_option autoImplicit false

namespace DynLinker.Registry

open Lib

/-- `DT_ADDR_TAGS`. -/
def dtAddrTags : List Nat :=
  [ElfDynamicTag.pltgot, ElfDynamicTag.hash, ElfDynamicTag.strtab, ElfDynamicTag.symtab,
    ElfDynamicTag.rela, ElfDynamicTag.init, ElfDynamicTag.fini, ElfDynamicTag.rel,
    ElfDynamicTag.jmprel, ElfDynamicTag.initArray, ElfDynamicTag.finiArray, ElfDynamicTag.relr,
    ElfDynamicTag.gnuHash, ElfDynamicTag.gnuLiblist, ElfDynamicTag.relacount,
    ElfDynamicTag.versym, ElfDynamicTag.verdef, ElfDynamicTag.verneed]

/-- The copy that is made of the entries up to `DT_NULL`. -/
def copyTable : List ElfDyn → List ElfDyn
  | [] => []
  | entry :: rest =>
      if entry.tag = ElfDynamicTag.null then [entry] else entry :: copyTable rest

def recoverEntry (base : Nat) (entry : ElfDyn) : ElfDyn :=
  if entry.tag ∈ dtAddrTags ∧ base < entry.value then { entry with value := entry.value - base }
  else entry

/-- `recover_dynamic_table` of the entries that lie in memory from the pointer on. -/
def recoverDynamicTable (memory : List ElfDyn) (base : Nat) : List ElfDyn :=
  (copyTable memory).map (recoverEntry base)

/-- What the host may have done to an entry. -/
inductive HostRelocates (base : Nat) (entry : ElfDyn) : ElfDyn → Prop where
  | kept : HostRelocates base entry entry
  | relocated : entry.tag ∈ dtAddrTags → entry.value ≠ 0 → entry.value + base < 2 ^ 64 →
      HostRelocates base entry { entry with value := entry.value + base }

/-- A link-time entry: an offset no larger than the load address, or an object that lies
where it was linked. -/
def LinkTime (base : Nat) (entry : ElfDyn) : Prop :=
  entry.tag ∈ dtAddrTags → entry.value ≤ base ∨ base = 0

instance (base : Nat) (entry : ElfDyn) : Decidable (LinkTime base entry) :=
  inferInstanceAs (Decidable (_ → _))

section Entries

variable {base : Nat} {entry hosted : ElfDyn}

theorem HostRelocates.tag_eq (relocated : HostRelocates base entry hosted) :
    hosted.tag = entry.tag := by
  cases relocated with
  | kept => rfl
  | relocated => rfl

theorem recoverEntry_other (other : entry.tag ∉ dtAddrTags) : recoverEntry base entry = entry := by
  simp [recoverEntry, other]

theorem LinkTime.recoverEntry_eq (linkTime : LinkTime base entry) :
    recoverEntry base entry = entry := by
  rw [recoverEntry]
  split
  · next above =>
      rcases linkTime above.1 with below | rfl
      · exact absurd above.2 (Nat.not_lt.mpr below)
      · rfl
  · rfl

/-- Whether or not the host relocated it, the entry comes back as it was linked. -/
theorem HostRelocates.recoverEntry_eq (relocated : HostRelocates base entry hosted)
    (linkTime : LinkTime base entry) : recoverEntry base hosted = entry := by
  cases relocated with
  | kept => exact linkTime.recoverEntry_eq
  | relocated address nonzero _ =>
      have above : base < entry.value + base := by omega
      simp [recoverEntry, address, above]

end Entries

theorem copyTable_append {entries : List ElfDyn} {last : ElfDyn} (above : List ElfDyn)
    (others : ∀ entry ∈ entries, entry.tag ≠ ElfDynamicTag.null)
    (ended : last.tag = ElfDynamicTag.null) :
    copyTable (entries ++ [last] ++ above) = entries ++ [last] := by
  induction entries with
  | nil => simp [copyTable, ended]
  | cons first rest ih =>
      have other := others first List.mem_cons_self
      simp only [List.cons_append, copyTable, if_neg other]
      rw [ih fun entry member => others entry (List.mem_cons_of_mem _ member)]

theorem map_tag_hosted {base : Nat} {linked hosted : List ElfDyn}
    (relocated : List.Forall₂ (HostRelocates base) linked hosted) :
    hosted.map ElfDyn.tag = linked.map ElfDyn.tag := by
  induction relocated with
  | nil => rfl
  | cons first _ ih => rw [List.map_cons, List.map_cons, first.tag_eq, ih]

/-- The host moves no tag, so the copy ends where the table does. -/
theorem copyTable_hosted {base : Nat} {table : DynamicTable} {hosted : List ElfDyn}
    (relocated : List.Forall₂ (HostRelocates base) table.all hosted) (above : List ElfDyn) :
    copyTable (hosted ++ above) = hosted := by
  have tags := map_tag_hosted relocated
  rw [DynamicTable.all, List.map_append, List.map_singleton] at tags
  obtain ⟨front, back, rfl, frontTags, backTags⟩ := List.map_eq_append_iff.mp tags
  obtain ⟨last, rfl, lastTag⟩ := List.map_eq_singleton_iff.mp backTags
  refine copyTable_append above ?_ (lastTag.trans table.ended)
  intro entry member
  have listed : entry.tag ∈ table.entries.map ElfDyn.tag := frontTags ▸ List.mem_map_of_mem member
  obtain ⟨original, old, same⟩ := List.mem_map.mp listed
  rw [← same]
  exact table.others original old

theorem map_recoverEntry_hosted {base : Nat} {linked hosted : List ElfDyn}
    (linkTime : ∀ entry ∈ linked, LinkTime base entry)
    (relocated : List.Forall₂ (HostRelocates base) linked hosted) :
    hosted.map (recoverEntry base) = linked := by
  induction relocated with
  | nil => rfl
  | cons first _ ih =>
      rw [List.map_cons, first.recoverEntry_eq (linkTime _ List.mem_cons_self),
        ih fun entry member => linkTime entry (List.mem_cons_of_mem _ member)]

/-- Whichever addresses the host relocated, and whatever lies above the table, the table
comes back as it was linked, and recovering it again changes nothing. -/
theorem recover_undoes_host (base : Nat) (table : DynamicTable) (hosted above : List ElfDyn)
    (linkTime : ∀ entry ∈ table.entries, LinkTime base entry)
    (relocated : List.Forall₂ (HostRelocates base) table.all hosted) :
    recoverDynamicTable (hosted ++ above) base = table.all ∧
      (∀ (i : Nat) (entry : ElfDyn), hosted[i]? = some entry → entry.tag ∉ dtAddrTags →
        (recoverDynamicTable (hosted ++ above) base)[i]? = some entry) ∧
      recoverDynamicTable (recoverDynamicTable (hosted ++ above) base) base =
        recoverDynamicTable (hosted ++ above) base := by
  have linked : ∀ entry ∈ table.all, LinkTime base entry := by
    intro entry member
    rcases List.mem_append.mp member with old | last
    · exact linkTime entry old
    · rw [List.mem_singleton.mp last]
      intro address
      rw [table.ended] at address
      exact absurd address (by decide)
  have once : recoverDynamicTable (hosted ++ above) base = table.all := by
    rw [recoverDynamicTable, copyTable_hosted relocated]
    exact map_recoverEntry_hosted linked relocated
  refine ⟨once, ?_, ?_⟩
  · intro i entry found other
    rw [recoverDynamicTable, copyTable_hosted relocated, List.getElem?_map, found, Option.map_some,
      recoverEntry_other other]
  · have unmoved : List.Forall₂ (HostRelocates base) table.all table.all :=
      List.forall₂_same.mpr fun _ _ => HostRelocates.kept
    have again := copyTable_hosted unmoved []
    rw [List.append_nil] at again
    rw [once, recoverDynamicTable, again]
    exact map_recoverEntry_hosted linked unmoved

/-- A table whose hash table the host has relocated and whose string table it has not. -/
def hashedTable : DynamicTable :=
  .ofEntries [⟨ElfDynamicTag.needed, 1⟩, ⟨ElfDynamicTag.hash, 0x300⟩,
    ⟨ElfDynamicTag.strtab, 0x400⟩] (by decide)

theorem recover_undoes_host_hash :
    recoverDynamicTable [⟨ElfDynamicTag.needed, 1⟩, ⟨ElfDynamicTag.hash, 0x7000300⟩,
      ⟨ElfDynamicTag.strtab, 0x400⟩, ⟨ElfDynamicTag.null, 0⟩, ⟨99, 99⟩] 0x7000000 =
      hashedTable.all := by
  have relocated : List.Forall₂ (HostRelocates 0x7000000) hashedTable.all
      [⟨ElfDynamicTag.needed, 1⟩, ⟨ElfDynamicTag.hash, 0x7000300⟩, ⟨ElfDynamicTag.strtab, 0x400⟩,
        ⟨ElfDynamicTag.null, 0⟩] :=
    .cons .kept (.cons (.relocated (by decide) (by decide) (by decide))
      (.cons .kept (.cons .kept .nil)))
  exact (recover_undoes_host 0x7000000 hashedTable _ [⟨99, 99⟩]
    (by decide) relocated).1

end DynLinker.Registry
