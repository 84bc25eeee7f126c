import DynLinker.Cache.LdCache

/-! What `ldconfig` writes: the order of names, and new-format images. The order
is glibc's `_dl_cache_libcmp`, which is not part of this repository: runs of
digits compare as numbers, a digit sorts above any other character, and other
characters compare by value. -/

set_option autoImplicit false

namespace DynLinker.Cache

open Lib

inductive NameToken where
  | char (byte : UInt8)
  | number (value : Nat)
deriving DecidableEq

def NameToken.compare : NameToken → NameToken → Ordering
  | .char left, .char right => Ord.compare left.toNat right.toNat
  | .char _, .number _ => .lt
  | .number _, .char _ => .gt
  | .number left, .number right => Ord.compare left right

private def digitValue (byte : UInt8) : Option Nat :=
  if 0x30 ≤ byte.toNat ∧ byte.toNat ≤ 0x39 then some (byte.toNat - 0x30) else none

/-- The tokens of a name that follows the digits read so far. -/
def nameTokens : Option Nat → Bytes → List NameToken
  | none, [] => []
  | some value, [] => [.number value]
  | digits, byte :: rest =>
      match digitValue byte, digits with
      | some digit, none => nameTokens (some digit) rest
      | some digit, some value => nameTokens (some (value * 10 + digit)) rest
      | none, none => .char byte :: nameTokens none rest
      | none, some value => .number value :: .char byte :: nameTokens none rest

private def compareTokens : List NameToken → List NameToken → Ordering
  | [], [] => .eq
  | [], _ :: _ => .lt
  | _ :: _, [] => .gt
  | left :: lefts, right :: rights =>
      match left.compare right with
      | .eq => compareTokens lefts rights
      | unequal => unequal

/-- `_dl_cache_libcmp`. -/
def libcmp (left right : Bytes) : Ordering :=
  compareTokens (nameTokens none left) (nameTokens none right)

theorem NameToken.compare_swap (left right : NameToken) :
    left.compare right = (right.compare left).swap := by
  cases left with
  | char byte =>
      cases right with
      | char other => exact (Nat.compare_swap other.toNat byte.toNat).symm
      | number other => rfl
  | number value =>
      cases right with
      | char other => rfl
      | number other => exact (Nat.compare_swap other value).symm

private theorem compareTokens_swap (left right : List NameToken) :
    compareTokens left right = (compareTokens right left).swap := by
  induction left generalizing right with
  | nil => cases right <;> rfl
  | cons head tail ih =>
      cases right with
      | nil => rfl
      | cons other rest =>
          simp only [compareTokens]
          rw [NameToken.compare_swap head other]
          cases other.compare head with
          | lt => rfl
          | eq => exact ih rest
          | gt => rfl

theorem libcmp_swap (left right : Bytes) : libcmp left right = (libcmp right left).swap :=
  compareTokens_swap _ _

theorem libcmp_self (name : Bytes) : libcmp name name = .eq := by
  have swapped := libcmp_swap name name
  cases order : libcmp name name with
  | lt =>
      rw [order] at swapped
      cases swapped
  | eq => rfl
  | gt =>
      rw [order] at swapped
      cases swapped

namespace LdCache

variable (cache : LdCache)

/-- The C string that the key offset of an entry gives, relative to the header. -/
def entryName (idx : Nat) : Option Bytes :=
  extractStr (cache.data.drop cache.headerOffset)
    (readU32 cache.data (cache.entryOffset idx + 4))

/-- A well-formed image in the order `ldconfig` writes: every entry has a name
that is not empty and not a path, and the names descend by `libcmp`. -/
structure LdconfigImage : Prop where
  named : ∀ idx, idx < cache.nlibs →
    ∃ name, cache.entryName idx = some name ∧ name ≠ [] ∧ startsWithSlash name = false
  descending : ∀ earlier later, earlier < later → later < cache.nlibs →
    ∀ earlierName laterName, cache.entryName earlier = some earlierName →
      cache.entryName later = some laterName → libcmp earlierName laterName ≠ .lt

/-- The path of the first entry named `libName` that passes the flag check and
has a path. -/
def FirstMatch (arch : Arch) (libName path : Bytes) : Prop :=
  ∃ idx, idx < cache.nlibs ∧ cache.entryName idx = some libName ∧
    cache.candidate arch idx = some path ∧
    ∀ earlier, earlier < idx → cache.entryName earlier = some libName →
      cache.candidate arch earlier = none

def SameRun (idx other : Nat) : Prop :=
  ∀ between, min idx other ≤ between → between ≤ max idx other →
    cache.entryName between = cache.entryName idx

/-- The path of the first entry that has one in the run of equal names around an
entry. -/
def FirstInRun (arch : Arch) (idx : Nat) (path : Bytes) : Prop :=
  ∃ other, other < cache.nlibs ∧ cache.SameRun idx other ∧
    cache.candidate arch other = some path ∧
    ∀ earlier, earlier < other → cache.SameRun idx earlier →
      cache.candidate arch earlier = none

/-- The direction that the first and the last name suggest. -/
def guessedDescending : Bool :=
  match cache.entryName 0, cache.entryName (cache.nlibs - 1) with
  | some firstName, some lastName => isDescending firstName lastName
  | _, _ => false

/-! ## The two orders -/

/-- How an entry and a name compare in the order of the cache. -/
def libcmpAt (libName : Bytes) (idx : Nat) : Option Ordering :=
  (cache.entryName idx).map fun name => libcmp name libName

/-- How they compare by bytes, in the direction that is guessed. -/
def byteOrderAt (libName : Bytes) (idx : Nat) : Option Ordering :=
  (cache.entryName idx).map fun name =>
    if cache.guessedDescending then byteCompare name libName else byteCompare libName name

/-- Every entry that `libcmp` takes for the name is spelled like it. Another spelling has
other leading zeros in a number: `lib.so.01` for `lib.so.1`. -/
def OneSpelling (libName : Bytes) : Prop :=
  ∀ idx, idx < cache.nlibs → cache.libcmpAt libName idx = some .eq →
    cache.entryName idx = some libName

/-- The two orders agree on each entry that a search in the order of the cache leaves
behind before it meets the name. -/
def OrdersAgree (libName : Bytes) : Prop :=
  ∀ visited ∈ searchPath (cache.libcmpAt libName) cache.nlibs 0 cache.nlibs,
    cache.byteOrderAt libName visited = cache.libcmpAt libName visited

/-- On the way to the entry at `idx` the two orders agree where `libcmp` tells a name from
`libName`, and where it does not, byte order follows the positions. -/
def OrdersAgreeTo (libName : Bytes) (idx : Nat) : Prop :=
  ∀ visited ∈ halvingPath cache.nlibs 0 cache.nlibs idx,
    if cache.libcmpAt libName visited = some .eq then
      Towards (cache.byteOrderAt libName) idx visited
    else cache.byteOrderAt libName visited = cache.libcmpAt libName visited

end LdCache

/-! ## Encoding -/

structure CacheEntry where
  flags : Nat
  name : Bytes
  path : Bytes

/-- The strings of the entries, each ended by a NUL. -/
def stringTable : List CacheEntry → Bytes
  | [] => []
  | entry :: rest => entry.name ++ 0 :: (entry.path ++ 0 :: stringTable rest)

/-- Flags, key, value, OS version and hardware capabilities of each entry; `offset` is
where its strings start, relative to the header. -/
def entryRecords : Nat → List CacheEntry → Bytes
  | _, [] => []
  | offset, entry :: rest =>
      littleEndian 4 entry.flags ++ littleEndian 4 offset ++
        littleEndian 4 (offset + entry.name.length + 1) ++ List.replicate 12 0 ++
        entryRecords (offset + entry.name.length + entry.path.length + 2) rest

/-- A new-format cache file without an embedded old-format cache. -/
def encodeImage (entries : List CacheEntry) : Bytes :=
  magicNew ++ littleEndian 4 entries.length ++ littleEndian 4 (stringTable entries).length ++
    List.replicate 20 0 ++ entryRecords (headerSize + entries.length * entrySize) entries ++
    stringTable entries

end DynLinker.Cache
