import DynLinker.Lib.MachineWord
import Mathlib.Data.List.MinMax

/-! The symbol that `dladdr` names for an address (`find_best_symbol` in `api/dladdr.rs`),
and when it is the enclosing one. -/

set_option autoImplicit false

namespace DynLinker.Api

open Lib

/-- What `find_best_symbol` reads of an exported symbol; `name` is what the table's string
section gives for it. -/
structure ExportSymbol where
  isExported : Bool
  stValue : Nat
  stSize : Nat
  name : Option String
deriving DecidableEq

/-- `Option<(Option<&'static str>, usize)>`. -/
abbrev BestMatch : Type := Option (Option String × Nat)

/-- The visitor that is passed to `for_each`. -/
def visitSymbol (checks : Bool) (base addr : Nat) (bestMatch : BestMatch) (symbol : ExportSymbol) :
    Except Panic BestMatch := do
  if symbol.isExported = false ∨ symbol.stValue = 0 then return bestMatch
  let start ← plainAdd checks 64 base symbol.stValue
  let finish ← plainAdd checks 64 start symbol.stSize
  if start ≤ addr ∧ (symbol.stSize = 0 ∨ addr < finish) ∧
      (∀ best ∈ bestMatch, best.2 < start) then
    return some (symbol.name, start)
  else return bestMatch

def findBestSymbol (checks : Bool) (base addr : Nat) (exports : List ExportSymbol) :
    Except Panic BestMatch :=
  exports.foldlM (visitSymbol checks base addr) none

namespace ExportSymbol

def start (base : Nat) (symbol : ExportSymbol) : Nat := (base + symbol.stValue) % 2 ^ 64

def report (base : Nat) (symbol : ExportSymbol) : Option String × Nat :=
  (symbol.name, symbol.start base)

/-- An exported symbol of nonzero value that starts at or below the address. -/
def Eligible (base addr : Nat) (symbol : ExportSymbol) : Prop :=
  symbol.isExported = true ∧ symbol.stValue ≠ 0 ∧ symbol.start base ≤ addr

/-- A symbol that contains the address; one of size zero contains where it starts. -/
def Encloses (base addr : Nat) (symbol : ExportSymbol) : Prop :=
  symbol.Eligible base addr ∧
    if symbol.stSize = 0 then symbol.start base = addr
    else addr < symbol.start base + symbol.stSize

/-- A symbol that the scan takes for one that contains the address. -/
def Scanned (base addr : Nat) (symbol : ExportSymbol) : Prop :=
  symbol.Eligible base addr ∧
    (symbol.stSize = 0 ∨ addr < (symbol.start base + symbol.stSize) % 2 ^ 64)

/-- Neither the start nor the end of the symbol overflows where overflow is checked. -/
def Fits (checks : Bool) (base : Nat) (symbol : ExportSymbol) : Prop :=
  checks = true → symbol.isExported = true → symbol.stValue ≠ 0 →
    base + symbol.stValue + symbol.stSize < 2 ^ 64

instance (base addr : Nat) (symbol : ExportSymbol) : Decidable (symbol.Eligible base addr) :=
  inferInstanceAs (Decidable (_ ∧ _))

instance (base addr : Nat) (symbol : ExportSymbol) : Decidable (symbol.Encloses base addr) :=
  inferInstanceAs (Decidable (_ ∧ _))

instance (base addr : Nat) (symbol : ExportSymbol) : Decidable (symbol.Scanned base addr) :=
  inferInstanceAs (Decidable (_ ∧ _))

end ExportSymbol

/-- The first of the symbols that contain the address and start the highest. -/
def enclosing (base addr : Nat) (exports : List ExportSymbol) : Option ExportSymbol :=
  (exports.filter (·.Encloses base addr)).argmax (·.start base)

/-- The preference that `dladdr` is to follow: where a symbol of nonzero size contains the
address, the enclosing symbol, otherwise any symbol that starts at or below it. -/
def Preferred (base addr : Nat) (exports : List ExportSymbol) (result : BestMatch) : Prop :=
  if ∃ symbol ∈ exports, symbol.stSize ≠ 0 ∧ symbol.Encloses base addr then
    result = (enclosing base addr exports).map (·.report base)
  else ∀ found ∈ result, ∃ symbol ∈ exports, symbol.Eligible base addr ∧
    found = symbol.report base

/-- No symbol of size zero hides the enclosing symbol, and where several symbols start
there, the first that the scan takes has its name. -/
def Unhidden (base addr : Nat) (exports : List ExportSymbol) : Prop :=
  (∃ symbol ∈ exports, symbol.stSize ≠ 0 ∧ symbol.Encloses base addr) →
    ∀ best ∈ enclosing base addr exports,
      (∀ label ∈ exports, label.stSize = 0 → label.Eligible base addr →
        label.start base ≤ best.start base) ∧
      (exports.find? fun symbol => decide (symbol.Scanned base addr ∧
        symbol.start base = best.start base)).map (·.name) = some best.name

section Scan

variable {checks : Bool} {base addr : Nat} {symbol : ExportSymbol} {exports : List ExportSymbol}

theorem ExportSymbol.Scanned.encloses (scanned : symbol.Scanned base addr)
    (sized : symbol.stSize ≠ 0) : symbol.Encloses base addr := by
  refine ⟨scanned.1, ?_⟩
  rw [if_neg sized]
  exact Nat.lt_of_lt_of_le (scanned.2.resolve_left sized) (Nat.mod_le _ _)

/-- The ends that a visit computes without overflow. -/
theorem ExportSymbol.Fits.ends (fits : symbol.Fits checks base)
    (isExported : symbol.isExported = true) (nonzero : symbol.stValue ≠ 0) :
    plainAdd checks 64 base symbol.stValue = .ok (symbol.start base) ∧
      plainAdd checks 64 (symbol.start base) symbol.stSize =
        .ok ((symbol.start base + symbol.stSize) % 2 ^ 64) := by
  constructor
  · refine plainAdd_eq_ok.mpr ⟨?_, rfl⟩
    intro checked
    have bounded := fits checked isExported nonzero
    omega
  · refine plainAdd_eq_ok.mpr ⟨?_, rfl⟩
    intro checked
    have bounded := fits checked isExported nonzero
    rw [start, Nat.mod_eq_of_lt (by omega)]
    exact bounded

/-- A visit keeps the better of the best symbol so far and a scanned one. -/
theorem visitSymbol_of_fits (fits : symbol.Fits checks base) (best : Option ExportSymbol) :
    visitSymbol checks base addr (best.map (·.report base)) symbol =
      .ok ((if symbol.Scanned base addr then
        List.argAux (fun left right => right.start base < left.start base) best symbol
        else best).map (·.report base)) := by
  rw [visitSymbol]
  split
  · next skipped =>
      have unscanned : ¬symbol.Scanned base addr := by
        intro scanned
        have isExported := scanned.1.1
        have nonzero := scanned.1.2.1
        rcases skipped with hidden | zero
        · exact absurd (hidden.symm.trans isExported) Bool.false_ne_true
        · exact nonzero zero
      rw [if_neg unscanned]
      rfl
  · next taken =>
      have isExported : symbol.isExported = true := by grind
      have nonzero : symbol.stValue ≠ 0 := by grind
      obtain ⟨startOk, finishOk⟩ := fits.ends isExported nonzero
      have scans : symbol.Scanned base addr ↔ symbol.start base ≤ addr ∧
          (symbol.stSize = 0 ∨ addr < (symbol.start base + symbol.stSize) % 2 ^ 64) := by
        simp [ExportSymbol.Scanned, ExportSymbol.Eligible, isExported, nonzero]
      rw [startOk]
      show (plainAdd checks 64 (symbol.start base) symbol.stSize >>= _) = _
      rw [finishOk]
      show (if _ then Except.ok _ else Except.ok _) = _
      by_cases scanned : symbol.Scanned base addr
      · obtain ⟨below, inside⟩ := scans.mp scanned
        rw [if_pos scanned]
        cases best with
        | none => exact if_pos ⟨below, inside, fun _ impossible => absurd impossible (by simp)⟩
        | some found =>
            show _ = Except.ok ((if _ then some symbol else some found).map _)
            by_cases better : found.start base < symbol.start base
            · rw [if_pos better]
              exact if_pos ⟨below, inside, fun _ same => Option.mem_some.mp same ▸ better⟩
            · rw [if_neg better]
              exact if_neg fun kept => better (kept.2.2 _ (Option.mem_some.mpr rfl))
      · rw [if_neg scanned]
        exact if_neg fun kept => scanned (scans.mpr ⟨kept.1, kept.2.1⟩)

/-- A visit that does not panic has not overflowed. -/
theorem visitSymbol_fits {before after : BestMatch}
    (accepted : visitSymbol checks base addr before symbol = .ok after) :
    symbol.Fits checks base := by
  intro checked isExported nonzero
  rw [visitSymbol, if_neg (by simp [isExported, nonzero])] at accepted
  obtain ⟨start, startOk, accepted⟩ := bind_eq_ok.mp accepted
  obtain ⟨finish, finishOk, _⟩ := bind_eq_ok.mp accepted
  obtain ⟨startBound, rfl⟩ := plainAdd_eq_ok.mp startOk
  obtain ⟨finishBound, _⟩ := plainAdd_eq_ok.mp finishOk
  have bounded := finishBound checked
  rwa [Nat.mod_eq_of_lt (startBound checked)] at bounded

theorem foldlM_visitSymbol (fits : ∀ symbol ∈ exports, symbol.Fits checks base)
    (best : Option ExportSymbol) :
    exports.foldlM (visitSymbol checks base addr) (best.map (·.report base)) =
      .ok (((exports.filter (·.Scanned base addr)).foldl
        (List.argAux fun left right => right.start base < left.start base) best).map
          (·.report base)) := by
  induction exports generalizing best with
  | nil => rfl
  | cons symbol rest ih =>
      have restFits : ∀ other ∈ rest, other.Fits checks base :=
        fun other member => fits other (List.mem_cons_of_mem _ member)
      rw [List.foldlM_cons, visitSymbol_of_fits (fits symbol List.mem_cons_self) best]
      show rest.foldlM (visitSymbol checks base addr) _ = _
      rw [ih restFits]
      by_cases scanned : symbol.Scanned base addr
      · rw [if_pos scanned, List.filter_cons_of_pos (by simpa using scanned), List.foldl_cons]
      · rw [if_neg scanned, List.filter_cons_of_neg (by simpa using scanned)]

/-- The scan reports the first of the scanned symbols that start the highest. -/
theorem findBestSymbol_of_fits (fits : ∀ symbol ∈ exports, symbol.Fits checks base) :
    findBestSymbol checks base addr exports =
      .ok (((exports.filter (·.Scanned base addr)).argmax (·.start base)).map (·.report base)) :=
  foldlM_visitSymbol fits none

theorem findBestSymbol_fits {result : BestMatch}
    (accepted : findBestSymbol checks base addr exports = .ok result) :
    ∀ symbol ∈ exports, symbol.Fits checks base := by
  rw [findBestSymbol] at accepted
  generalize (none : BestMatch) = before at accepted
  induction exports generalizing before with
  | nil => exact fun symbol member => absurd member List.not_mem_nil
  | cons first rest ih =>
      rw [List.foldlM_cons] at accepted
      obtain ⟨middle, firstOk, restOk⟩ := bind_eq_ok.mp accepted
      intro symbol member
      rcases List.mem_cons.mp member with rfl | later
      · exact visitSymbol_fits firstOk
      · exact ih middle restOk symbol later

theorem find?_of_argmax {Item : Type} {key : Item → Nat} {items : List Item} {best : Item}
    (found : items.argmax key = some best) :
    items.find? (fun item => decide (key item = key best)) = some best := by
  induction items with
  | nil => cases found
  | cons first rest ih =>
      rw [List.argmax_cons] at found
      cases later : rest.argmax key with
      | none =>
          rw [later] at found
          cases found
          simp
      | some above =>
          rw [later] at found
          change (if key first < key above then some above else some first) = some best at found
          split at found
          · next higher =>
              cases found
              rw [List.find?_cons_of_neg (by simpa using Nat.ne_of_lt higher)]
              exact ih later
          · cases found
            simp

/-- The scanned symbol that is reported, and the first one that starts where it does. -/
theorem find?_scanned {best : ExportSymbol}
    (found : (exports.filter (·.Scanned base addr)).argmax (·.start base) = some best) :
    (exports.find? fun symbol => decide (symbol.Scanned base addr ∧
      symbol.start base = best.start base)) = some best := by
  rw [← find?_of_argmax found, List.find?_filter]
  simp only [decide_eq_true_eq]

theorem enclosing_highest {best : ExportSymbol} (found : best ∈ enclosing base addr exports)
    (listed : symbol ∈ exports) (encloses : symbol.Encloses base addr) :
    symbol.start base ≤ best.start base :=
  List.le_of_mem_argmax (by simpa using And.intro listed encloses) found

end Scan

/-- The scan does not panic and follows the preference exactly when no overflow is caught
and nothing hides the enclosing symbol. -/
theorem findBestSymbol_preferred_iff (checks : Bool) (base addr : Nat)
    (exports : List ExportSymbol) :
    (∃ result, findBestSymbol checks base addr exports = .ok result ∧
        Preferred base addr exports result) ↔
      (∀ symbol ∈ exports, symbol.Fits checks base) ∧ Unhidden base addr exports := by
  constructor
  · rintro ⟨result, accepted, preferred⟩
    have fits := findBestSymbol_fits accepted
    refine ⟨fits, ?_⟩
    intro sized best highest
    rw [findBestSymbol_of_fits fits] at accepted
    rw [Preferred, if_pos sized, highest, ← Except.ok.inj accepted] at preferred
    obtain ⟨reported, found, same⟩ := Option.map_eq_some_iff.mp preferred
    have sameName : reported.name = best.name := congrArg Prod.fst same
    have sameStart : reported.start base = best.start base := congrArg Prod.snd same
    constructor
    · intro label listed zero eligible
      rw [← sameStart]
      have scanned : label.Scanned base addr := ⟨eligible, .inl zero⟩
      exact List.le_of_mem_argmax (by simpa using And.intro listed scanned) found
    · rw [← sameStart, find?_scanned found, Option.map_some, sameName]
  · rintro ⟨fits, unhidden⟩
    refine ⟨_, findBestSymbol_of_fits fits, ?_⟩
    rw [Preferred]
    split
    · next sized =>
        obtain ⟨symbol, listed, nonzero, encloses⟩ := sized
        obtain ⟨best, highest⟩ : ∃ best, enclosing base addr exports = some best := by
          apply Option.ne_none_iff_exists'.mp
          intro none
          have empty := List.argmax_eq_none.mp none
          exact List.not_mem_nil (empty ▸ List.mem_filter.mpr ⟨listed, by simpa using encloses⟩)
        obtain ⟨labels, named⟩ := unhidden ⟨symbol, listed, nonzero, encloses⟩ best highest
        obtain ⟨first, found, sameName⟩ := Option.map_eq_some_iff.mp named
        have taken := List.find?_some found
        obtain ⟨firstScanned, firstStart⟩ := of_decide_eq_true taken
        have firstListed := List.mem_of_find?_eq_some found
        obtain ⟨reported, scan⟩ : ∃ reported,
            (exports.filter (·.Scanned base addr)).argmax (·.start base) = some reported := by
          apply Option.ne_none_iff_exists'.mp
          intro none
          have empty := List.argmax_eq_none.mp none
          exact List.not_mem_nil
            (empty ▸ List.mem_filter.mpr ⟨firstListed, by simpa using firstScanned⟩)
        obtain ⟨reportedListed, reportedScanned⟩ :
            reported ∈ exports ∧ reported.Scanned base addr := by
          simpa using List.argmax_mem scan
        have below : reported.start base ≤ best.start base := by
          by_cases zero : reported.stSize = 0
          · exact labels reported reportedListed zero reportedScanned.1
          · exact enclosing_highest highest reportedListed (reportedScanned.encloses zero)
        have above : best.start base ≤ reported.start base := by
          rw [← firstStart]
          exact List.le_of_mem_argmax (by simpa using And.intro firstListed firstScanned) scan
        have sameStart : reported.start base = best.start base := Nat.le_antisymm below above
        have same := find?_scanned scan
        rw [sameStart, found] at same
        cases same
        rw [scan, highest, Option.map_some, Option.map_some, ExportSymbol.report,
          ExportSymbol.report, sameName, sameStart]
    · intro reported found
      obtain ⟨symbol, scan, same⟩ := Option.map_eq_some_iff.mp found
      obtain ⟨listed, scanned⟩ : symbol ∈ exports ∧ symbol.Scanned base addr := by
        simpa using List.argmax_mem scan
      exact ⟨symbol, listed, scanned.1, same.symm⟩

/-- A label inside a function is named instead of the function. -/
def labelledExports : List ExportSymbol :=
  [⟨true, 0x100, 0x100, some "outer"⟩, ⟨true, 0x180, 0, some "label"⟩]

theorem findBestSymbol_label :
    ¬∃ result, findBestSymbol true 0x1000 0x1190 labelledExports = .ok result ∧
      Preferred 0x1000 0x1190 labelledExports result := by
  rintro ⟨result, accepted, preferred⟩
  have found : findBestSymbol true 0x1000 0x1190 labelledExports =
    .ok (some (some "label", 0x1180)) := rfl
  cases found.symm.trans accepted
  rw [Preferred, if_pos (by decide)] at preferred
  exact absurd preferred (by decide)

end DynLinker.Api
