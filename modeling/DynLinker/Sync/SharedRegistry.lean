import DynLinker.Lib.CriticalSections
import DynLinker.Lib.RefCell
import DynLinker.Sync.MutualExclusion

/-! The registry behind its lock (`Registry` and `RegistryGuard` in
`registry/loader_lock.rs`). Threads borrow the manager through their guards; the borrow
flag and the manager are plain words, so that they may be shared rests on the lock alone. -/

set_option autoImplicit false

namespace DynLinker.Sync

open Lib

/-- `Ref` and `RefMut`. -/
inductive Reference where
  | ref
  | refMut
deriving DecidableEq

/-- The `RefCell` of the registry and the references that are alive, with their threads. -/
structure SharedCell (Value Thread : Type) where
  cell : RefCell Value
  live : List (Thread × Reference)

inductive CellAccess (Value : Type) where
  | borrow
  | borrowMut
  | read (value : Value)
  | write (value : Value)
  | drop (reference : Reference)

section

variable {Value Thread : Type}

/-- `Registry::new`. -/
def SharedCell.new (manager : Value) : SharedCell Value Thread := ⟨⟨manager, .unused⟩, []⟩

variable [DecidableEq Thread]

/-- A borrow that conflicts ends its thread, so it is no step. -/
inductive CellStep : SharedCell Value Thread → Thread × CellAccess Value →
    SharedCell Value Thread → Prop where
  | borrow {shared : SharedCell Value Thread} {thread : Thread} {state : BorrowState} :
      shared.cell.state.share = some state →
      CellStep shared (thread, .borrow)
        ⟨{ shared.cell with state := state }, (thread, .ref) :: shared.live⟩
  | borrowMut {shared : SharedCell Value Thread} {thread : Thread} {state : BorrowState} :
      shared.cell.state.claim = some state →
      CellStep shared (thread, .borrowMut)
        ⟨{ shared.cell with state := state }, (thread, .refMut) :: shared.live⟩
  | read {shared : SharedCell Value Thread} {thread : Thread} (reference : Reference) :
      (thread, reference) ∈ shared.live →
      CellStep shared (thread, .read shared.cell.value) shared
  | write {shared : SharedCell Value Thread} {thread : Thread} (value : Value) :
      (thread, .refMut) ∈ shared.live →
      CellStep shared (thread, .write value)
        { shared with cell := { shared.cell with value := value } }
  | drop {shared : SharedCell Value Thread} {thread : Thread} (reference : Reference) :
      (thread, reference) ∈ shared.live →
      CellStep shared (thread, .drop reference)
        ⟨{ shared.cell with state := shared.cell.state.giveBack },
          shared.live.erase (thread, reference)⟩

/-- A reference borrows from a guard: it never outlives the guards of its thread. -/
def sharedManager (Thread : Type) [DecidableEq Thread] (manager : Value) :
    Protected (SharedCell Value Thread) Thread (CellAccess Value) where
  system.initial shared := shared = .new manager
  system.step := CellStep
  idle shared thread := ∀ reference, (thread, reference) ∉ shared.live

theorem sharedManager_local (manager : Value) : (sharedManager Thread manager).Local where
  fresh shared initial thread reference alive := by
    subst initial
    cases alive
  other shared thread access next step other different idle reference alive := by
    cases step with
    | borrow _ =>
        cases alive with
        | head => exact different rfl
        | tail _ alive => exact idle reference alive
    | borrowMut _ =>
        cases alive with
        | head => exact different rfl
        | tail _ alive => exact idle reference alive
    | read _ _ => exact idle reference alive
    | write _ _ => exact idle reference alive
    | drop _ _ => exact idle reference (List.mem_of_mem_erase alive)

/-! ## The borrow flag counts the references -/

/-- Any number of `Ref` and no `RefMut`, or one `RefMut` alone. -/
inductive Flagged : BorrowState → List (Thread × Reference) → Prop where
  | unused : Flagged .unused []
  | reading {others : Nat} {live : List (Thread × Reference)} :
      live.length = others + 1 → (∀ entry ∈ live, entry.2 = .ref) →
      Flagged (.reading others) live
  | writing {thread : Thread} : Flagged .writing [(thread, .refMut)]

variable {state after : BorrowState} {live : List (Thread × Reference)} {thread : Thread}

omit [DecidableEq Thread] in
theorem Flagged.share (flagged : Flagged state live) (shared : state.share = some after) :
    Flagged after ((thread, .ref) :: live) := by
  cases flagged with
  | unused =>
      cases shared
      exact .reading rfl (by simp)
  | reading counted shares =>
      cases shared
      exact .reading (by simp [counted]) (by simpa using shares)
  | writing => cases shared

omit [DecidableEq Thread] in
theorem Flagged.claim (flagged : Flagged state live) (claimed : state.claim = some after) :
    Flagged after ((thread, .refMut) :: live) := by
  cases flagged with
  | unused =>
      cases claimed
      exact .writing
  | reading _ _ => cases claimed
  | writing => cases claimed

theorem Flagged.giveBack {reference : Reference} (flagged : Flagged state live)
    (alive : (thread, reference) ∈ live) :
    Flagged state.giveBack (live.erase (thread, reference)) := by
  cases flagged with
  | unused => cases alive
  | @reading others _ counted shares =>
      have left : (live.erase (thread, reference)).length = others := by
        rw [List.length_erase_of_mem alive, counted, Nat.add_sub_cancel]
      cases others with
      | zero =>
          rw [List.eq_nil_of_length_eq_zero left]
          exact .unused
      | succ others =>
          exact .reading left fun entry kept => shares entry (List.mem_of_mem_erase kept)
  | writing =>
      cases List.mem_singleton.mp alive
      simp only [BorrowState.giveBack, List.erase_cons_head]
      exact .unused

theorem flagged_inductive (manager : Value) :
    (sharedManager Thread manager).system.Inductive
      fun shared => Flagged shared.cell.state shared.live where
  initially shared initial := by
    subst initial
    exact .unused
  preserved shared label next flagged step := by
    cases step with
    | borrow shared => exact flagged.share shared
    | borrowMut claimed => exact flagged.claim claimed
    | read _ _ => exact flagged
    | write _ _ => exact flagged
    | drop _ alive => exact flagged.giveBack alive

omit [DecidableEq Thread] in
theorem Flagged.alone (flagged : Flagged state live) (alive : (thread, .refMut) ∈ live) :
    live = [(thread, .refMut)] := by
  cases flagged with
  | unused => cases alive
  | reading _ shares => cases shares _ alive
  | writing =>
      cases List.mem_singleton.mp alive
      rfl

omit [DecidableEq Thread] in
/-- Only a reference that is alive refuses a borrow. -/
theorem Flagged.claimable (flagged : Flagged state live) (free : live = []) :
    state.claim = some .writing := by
  cases flagged with
  | unused => rfl
  | reading counted _ =>
      subst free
      cases counted
  | writing => cases free

omit [DecidableEq Thread] in
theorem Flagged.shareable (flagged : Flagged state live)
    (unwritten : ∀ entry ∈ live, entry.2 ≠ .refMut) : state.share.isSome := by
  cases flagged with
  | unused => rfl
  | reading _ _ => rfl
  | writing => exact absurd rfl (unwritten _ List.mem_cons_self)

/-! ## Reads and writes -/

/-- The manager after an access. -/
def CellAccess.result (current : Value) : CellAccess Value → Value
  | .write value => value
  | .borrow | .borrowMut | .read _ | .drop _ => current

/-- The manager after these accesses, made one after the other. -/
def written (current : Value) (accesses : List (Thread × CellAccess Value)) : Value :=
  accesses.foldl (fun current entry => entry.2.result current) current

/-- Every read returns what the last write before it left. -/
def ReadsLatest (current : Value) : List (Thread × CellAccess Value) → Prop
  | [] => True
  | entry :: rest =>
      (∀ value, entry.2 = .read value → value = current) ∧
        ReadsLatest (entry.2.result current) rest

omit [DecidableEq Thread] in
theorem written_concat (current : Value) (accesses : List (Thread × CellAccess Value))
    (entry : Thread × CellAccess Value) :
    written current (accesses ++ [entry]) = entry.2.result (written current accesses) := by
  simp [written]

omit [DecidableEq Thread] in
theorem readsLatest_concat {current : Value} {accesses : List (Thread × CellAccess Value)}
    {entry : Thread × CellAccess Value} (early : ReadsLatest current accesses)
    (last : ∀ value, entry.2 = .read value → value = written current accesses) :
    ReadsLatest current (accesses ++ [entry]) := by
  induction accesses generalizing current with
  | nil => exact ⟨last, trivial⟩
  | cons first rest ih => exact ⟨early.1, ih early.2 last⟩

theorem CellStep.value {before next : SharedCell Value Thread}
    {entry : Thread × CellAccess Value} (step : CellStep before entry next) :
    next.cell.value = entry.2.result before.cell.value ∧
      ∀ value, entry.2 = .read value → value = before.cell.value := by
  cases step with
  | borrow _ => exact ⟨rfl, fun _ read => by cases read⟩
  | borrowMut _ => exact ⟨rfl, fun _ read => by cases read⟩
  | read _ _ =>
      refine ⟨rfl, ?_⟩
      intro value read
      cases read
      rfl
  | write _ _ => exact ⟨rfl, fun _ read => by cases read⟩
  | drop _ _ => exact ⟨rfl, fun _ read => by cases read⟩

theorem run_written {manager : Value} {start finish : SharedCell Value Thread}
    {accesses : List (Thread × CellAccess Value)}
    (run : (sharedManager Thread manager).system.Run start accesses finish)
    (fresh : start.cell.value = manager) :
    finish.cell.value = written manager accesses ∧ ReadsLatest manager accesses := by
  induction run with
  | refl => exact ⟨fresh, trivial⟩
  | snoc _ step ih =>
      obtain ⟨current, latest⟩ := ih
      obtain ⟨next, read⟩ := CellStep.value step
      rw [current] at next read
      exact ⟨next.trans (written_concat _ _ _).symm, readsLatest_concat latest read⟩

end

/-! ## Both locks -/

/-- What `unsafe impl Sync for Registry` relies on. -/
structure SafelyShared {Lock Value Thread : Type} (manager : Value) (guards : Thread → Nat)
    (session : Session Lock (SharedCell Value Thread) Thread (CellAccess Value)) : Prop where
  ordered : ∃ sections : List (Thread × List (CellAccess Value)),
    sections.map Prod.fst = session.taken ∧ Session.inOrder sections = session.accesses
  latest : ReadsLatest manager session.accesses
  value : session.data.cell.value = written manager session.accesses
  current : ∀ thread, 0 < guards thread → session.taken.getLast? = some thread
  guarded : ∀ thread reference, (thread, reference) ∈ session.data.live → 0 < guards thread
  alone : ∀ thread, (thread, .refMut) ∈ session.data.live →
    session.data.live = [(thread, .refMut)]
  claimable : ∀ thread, 0 < guards thread →
    (∀ reference, (thread, reference) ∉ session.data.live) →
    session.data.cell.state.claim = some .writing
  shareable : ∀ thread, 0 < guards thread → (thread, .refMut) ∉ session.data.live →
    session.data.cell.state.share.isSome

section

variable {Lock Value Thread : Type} [DecidableEq Thread]

theorem safelyShared_of_exclusive {lock : GuardedLock Lock Thread} (exclusive : lock.Exclusive)
    {manager : Value} {session : Session Lock (SharedCell Value Thread) Thread (CellAccess Value)}
    (reached : (Session.system lock (sharedManager Thread manager)).Reachable session) :
    SafelyShared manager (lock.guards session.lock) session := by
  have serial :=
    (Session.serial_inductive exclusive (sharedManager_local manager)).reachable reached
  obtain ⟨start, initial, run⟩ := serial.ran
  have flagged := (flagged_inductive manager).reachable ⟨start, _, initial, run⟩
  have fresh : start.cell.value = manager := by
    cases initial
    rfl
  obtain ⟨value, latest⟩ := run_written run fresh
  have guarded : ∀ thread reference, (thread, reference) ∈ session.data.live →
      0 < lock.guards session.lock thread := by
    intro thread reference alive
    exact serial.holder fun idle => idle reference alive
  -- Whatever is alive belongs to the one thread that has a guard.
  have own : ∀ thread, 0 < lock.guards session.lock thread → ∀ entry ∈ session.data.live,
      entry.1 = thread := by
    intro thread held entry alive
    exact exclusive.exclusive _ serial.locked _ _ (guarded entry.1 entry.2 alive) held
  refine ⟨serial.ordered, latest, value, serial.last, guarded, fun _ => flagged.alone, ?_, ?_⟩
  · intro thread held unborrowed
    refine flagged.claimable (List.eq_nil_iff_forall_not_mem.mpr ?_)
    intro entry alive
    have mine := own thread held entry alive
    subst mine
    exact unborrowed entry.2 alive
  · intro thread held unwritten
    refine flagged.shareable ?_
    intro entry alive writes
    obtain ⟨other, reference⟩ := entry
    have mine : other = thread := own thread held _ alive
    subst mine
    cases writes
    exact unwritten alive

end

def signalLock (debugAssertions : Bool) : GuardedLock LockState ThreadId where
  system := signalLockSystem debugAssertions
  guards := LockState.guards

def stdLock (Thread : Type) [DecidableEq Thread] (debugAssertions : Bool) :
    GuardedLock (StdLockState Thread) Thread where
  system := stdLockSystem Thread debugAssertions
  guards := StdLockState.guards

theorem signalLock_exclusive (debugAssertions : Bool) : (signalLock debugAssertions).Exclusive where
  fresh state initial thread := by
    cases initial
    rfl
  own state thread next step other different := by
    cases step with
    | interrupt _ => rfl
    | access step =>
        cases step with
        | fetchUpdate _ _ => exact LockState.setGuards_guards_ne different
        | storeDepth _ => exact LockState.setGuards_guards_ne different
        | unlock _ _ => exact LockState.setGuards_guards_ne different
        | _ => rfl
  exclusive state reached :=
    ((owned_signal_inductive debugAssertions).reachable reached).reentrant.exclusive

theorem stdLock_exclusive (Thread : Type) [DecidableEq Thread] (debugAssertions : Bool) :
    (stdLock Thread debugAssertions).Exclusive where
  fresh state initial thread := by
    cases initial
    rfl
  own state thread next step other different := by
    cases step with
    | acquire _ _ _ => exact StdLockState.setGuards_guards_ne different
    | unlock _ _ => exact StdLockState.setGuards_guards_ne different
    | _ => rfl
  exclusive state reached :=
    ((stdOwned_inductive debugAssertions).reachable reached).reentrant.exclusive

/-- The registry may be shared between threads, with either lock. -/
theorem registry_is_sync {Manager : Type} (manager : Manager) (debugAssertions : Bool)
    (Thread : Type) [DecidableEq Thread] :
    (∀ session,
      (Session.system (signalLock debugAssertions) (sharedManager ThreadId manager)).Reachable
        session → SafelyShared manager session.lock.guards session) ∧
    ∀ session,
      (Session.system (stdLock Thread debugAssertions) (sharedManager Thread manager)).Reachable
        session → SafelyShared manager session.lock.guards session :=
  ⟨fun _ => safelyShared_of_exclusive (signalLock_exclusive debugAssertions),
    fun _ => safelyShared_of_exclusive (stdLock_exclusive Thread debugAssertions)⟩

/-- A step of the lock that neither ends nor begins a critical section. -/
theorem reachable_turn {Lock Value Thread : Type} [DecidableEq Thread]
    {lock : GuardedLock Lock Thread} {manager : Value}
    {session : Session Lock (SharedCell Value Thread) Thread (CellAccess Value)} {next : Lock}
    (reached : (Session.system lock (sharedManager Thread manager)).Reachable session)
    (thread : Thread) (moved : lock.system.step session.lock thread next)
    (same : lock.guards next thread = lock.guards session.lock thread)
    (idle : ∀ reference, (thread, reference) ∉ session.data.live) :
    (Session.system lock (sharedManager Thread manager)).Reachable
      { session with lock := next } :=
  reached.next (.turn thread moved (fun held => Nat.lt_of_lt_of_eq held same) fun _ => idle)

/-- A nested guard reads what the outer one wrote; and `waiter` reads, after it has waited,
what `holder` wrote before it gave the lock up. -/
theorem registry_is_sync_handed_over :
    (∃ session, (Session.system (signalLock true) (sharedManager ThreadId 0)).Reachable session ∧
      session.taken = [holder] ∧ session.lock.guards holder = 2 ∧
      SafelyShared 0 session.lock.guards session) ∧
    ∃ session, (Session.system (stdLock ThreadId true) (sharedManager ThreadId 0)).Reachable
        session ∧
      session.taken = [holder, waiter] ∧
      session.accesses = Session.inOrder
        [(holder, [.borrowMut, .write 7, .drop .refMut]), (waiter, [.borrow, .read 7])] ∧
      SafelyShared 0 session.lock.guards session := by
  constructor
  · have started : (Session.system (signalLock true) (sharedManager ThreadId 0)).Reachable
        ⟨.new, .new 0, [], []⟩ := .start ⟨rfl, rfl, rfl, rfl⟩
    have entered := reachable_turn started holder (.access (.lock rfl)) rfl
      (fun _ alive => by cases alive)
    have read := reachable_turn entered holder (.access (.load rfl)) rfl
      (fun _ alive => by cases alive)
    have exchanged := reachable_turn read holder (.access (.compareExchange rfl rfl)) rfl
      (fun _ alive => by cases alive)
    have taken := exchanged.next (.take holder (.access (.storeDepth rfl)) rfl (by decide))
    have borrowed := taken.next (.access holder (by decide) (.borrowMut rfl))
    have wrote := borrowed.next (.access holder (by decide) (.write 7 List.mem_cons_self))
    have dropped := wrote.next (.access holder (by decide) (.drop .refMut List.mem_cons_self))
    have again := reachable_turn dropped holder (.access (.lock rfl)) rfl
      (fun _ alive => by cases alive)
    have readAgain := reachable_turn again holder (.access (.load rfl)) rfl
      (fun _ alive => by cases alive)
    have twice := readAgain.next
      (.turn holder (.access (.fetchUpdate rfl rfl)) (fun _ => by decide) fun free => by cases free)
    have shared := twice.next (.access holder (by decide) (.borrow rfl))
    have seen := shared.next (.access holder (by decide) (.read .ref List.mem_cons_self))
    exact ⟨_, seen, rfl, rfl, (registry_is_sync 0 true ThreadId).1 _ seen⟩
  · have started : (Session.system (stdLock ThreadId true) (sharedManager ThreadId 0)).Reachable
        ⟨.new, .new 0, [], []⟩ := .start ⟨rfl, rfl, rfl, rfl⟩
    have free : ∀ thread, ∀ other, (none : Option ThreadId) = some other → other = thread := by
      intro _ _ named
      cases named
    have different : waiter ≠ holder := by decide
    have entered := reachable_turn started holder (.lock rfl) rfl (fun _ alive => by cases alive)
    have taken := entered.next (.take holder (.acquire rfl (free holder) rfl) rfl (by decide))
    have borrowed := taken.next (.access holder (by decide) (.borrowMut rfl))
    have wrote := borrowed.next (.access holder (by decide) (.write 7 List.mem_cons_self))
    have begun := reachable_turn wrote waiter (.lock rfl) rfl
      (fun _ alive => by cases alive with | tail _ alive => cases alive)
    have waits := reachable_turn begun waiter (.wait rfl rfl different.symm) rfl
      (fun _ alive => by cases alive with | tail _ alive => cases alive)
    have dropped := waits.next (.access holder (by decide) (.drop .refMut List.mem_cons_self))
    have unlocked := dropped.next (.turn holder (.unlock rfl rfl) (fun _ => by decide)
      fun _ _ alive => by cases alive)
    have released := reachable_turn unlocked holder
      (@StdStep.releaseLast _ _ true _ holder waiter rfl (fun _ => rfl) rfl rfl) rfl
      (fun _ alive => by cases alive)
    have handed := released.next (.take waiter (.acquire rfl (free waiter) rfl) rfl (by decide))
    have shared := handed.next (.access waiter (by decide) (.borrow rfl))
    have seen := shared.next (.access waiter (by decide) (.read .ref List.mem_cons_self))
    exact ⟨_, seen, rfl, rfl, (registry_is_sync 0 true ThreadId).2 _ seen⟩

end DynLinker.Sync
