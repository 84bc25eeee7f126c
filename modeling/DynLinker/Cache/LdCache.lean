import DynLinker.Arch
import DynLinker.Error
import DynLinker.Lib.Bisection
import DynLinker.Lib.Bytes

/-! The reader of `/etc/ld.so.cache` (`dlopen/ld_cache.rs`). Strings are their
bytes; offsets are unbounded, since on 64-bit targets no sum of a file offset
and 32-bit counts overflows. -/

set_option autoImplicit false

namespace DynLinker.Cache

open Lib

def headerSize : Nat := 48
def entrySize : Nat := 24
def flagTypeMask : Nat := 0x00ff
def flagLibc6 : Nat := 0x0003

def flagArchCurrent : Arch → Nat
  | .x86_64 => 0x0300
  | .aarch64 => 0x0200
  | .riscv64 => 0x0500
  | .other => 0x0000

def magicNew : Bytes := ascii "glibc-ld.so.cache1.1"

/-- A parsed cache. The entries end where the string table starts, inside the
file: the check that `LdCache::new` makes. -/
structure LdCache where
  data : Bytes
  headerOffset : Nat
  nlibs : Nat
  stringTableOffset : Nat
  layout : stringTableOffset = headerOffset + headerSize + nlibs * entrySize
  bounded : stringTableOffset ≤ data.length
deriving DecidableEq

/-- `windows(MAGIC_NEW.len()).position(..)`. -/
def magicPosition : Bytes → Option Nat
  | [] => none
  | byte :: rest =>
      if magicNew.isPrefixOf (byte :: rest) then some 0
      else (magicPosition rest).map (· + 1)

/-- `LdCache::new`, given what `read_file("/etc/ld.so.cache")` returned. -/
def LdCache.new (file : Except Error Bytes) : Except Error LdCache := do
  let buffer ← file
  match magicPosition buffer with
  | none => throw (.parseLdCacheError "Could not find glibc-ld.so.cache1.1 magic")
  | some startOffset =>
      if (buffer.drop startOffset).length < headerSize then
        throw (.parseLdCacheError "Cache file too small for header")
      else
        let nlibs := readU32 (buffer.drop startOffset) 20
        let stringTableOffset := startOffset + headerSize + nlibs * entrySize
        if exceeds : stringTableOffset > buffer.length then
          throw (.parseLdCacheError "Cache entries exceed file size")
        else
          return {
            data := buffer
            headerOffset := startOffset
            nlibs := nlibs
            stringTableOffset := stringTableOffset
            layout := rfl
            bounded := Nat.le_of_not_lt exceeds
          }

/-- `extract_str`. -/
def extractStr (table : Bytes) (offset : Nat) : Option Bytes :=
  if offset ≥ table.length then none
  else fromUtf8 (untilNul (table.drop offset))

def slash : UInt8 := 0x2f

def startsWithSlash (text : Bytes) : Bool := text.head? = some slash

namespace LdCache

variable (cache : LdCache)

def entryOffset (idx : Nat) : Nat := cache.headerOffset + headerSize + idx * entrySize

def getName (idx : Nat) : Option Bytes :=
  if cache.entryOffset idx + 8 > cache.data.length then none
  else
    let keyIdx := readU32 cache.data (cache.entryOffset idx + 4)
    match extractStr (cache.data.drop cache.headerOffset) keyIdx with
    | some text =>
        if !text.isEmpty && !startsWithSlash text then some text
        else extractStr (cache.data.drop cache.stringTableOffset) keyIdx
    | none => extractStr (cache.data.drop cache.stringTableOffset) keyIdx

def getPath (idx : Nat) : Option Bytes :=
  if cache.entryOffset idx + 12 > cache.data.length then none
  else
    let valIdx := readU32 cache.data (cache.entryOffset idx + 8)
    match extractStr (cache.data.drop cache.headerOffset) valIdx with
    | some text =>
        if startsWithSlash text then some text
        else extractStr (cache.data.drop cache.stringTableOffset) valIdx
    | none => extractStr (cache.data.drop cache.stringTableOffset) valIdx

def checkFlags (arch : Arch) (idx : Nat) : Bool :=
  if cache.entryOffset idx + 4 > cache.data.length then false
  else
    let flags := readU32 cache.data (cache.entryOffset idx)
    if flags &&& flagTypeMask ≠ flagLibc6 then false
    else if flagArchCurrent arch ≠ 0 ∧ flags &&& flagArchCurrent arch = 0 then false
    else true

/-- The path that the forward scan returns at an entry, if it stops there. -/
def candidate (arch : Arch) (idx : Nat) : Option Bytes :=
  if cache.checkFlags arch idx then cache.getPath idx else none

/-- The answer of one probe: `name.cmp(lib_name)` in a descending cache,
`lib_name.cmp(name)` in an ascending one. -/
def probe (descending : Bool) (libName : Bytes) (mid : Nat) : Option Ordering :=
  (cache.getName mid).map fun name =>
    if descending then byteCompare name libName else byteCompare libName name

/-- The backward loop: the first position of the run of entries named `name`
that ends at the given position. -/
def runStart (name : Bytes) : Nat → Nat
  | 0 => 0
  | start + 1 => if cache.getName start = some name then runStart name start else start + 1

/-- The forward loop over at most `remaining` entries from `idx` on. -/
def scanRun (arch : Arch) (name : Bytes) : Nat → Nat → Option Bytes
  | 0, _ => none
  | remaining + 1, idx =>
      if cache.getName idx = some name then
        match cache.candidate arch idx with
        | some path => some path
        | none => scanRun arch name remaining (idx + 1)
      else none

/-- The direction guessed from the first and the last name. -/
def isDescending (firstName lastName : Bytes) : Bool :=
  byteCompare firstName lastName = .gt

/-- `LdCache::lookup`. A name found in the loop equals the requested one, so the
two scans are left out of the loop. -/
def lookup (arch : Arch) (libName : Bytes) : Option Bytes :=
  if cache.nlibs = 0 then none
  else do
    let firstName ← cache.getName 0
    let lastName ← cache.getName (cache.nlibs - 1)
    let mid ← bisect (cache.probe (isDescending firstName lastName) libName) cache.nlibs 0
      cache.nlibs
    let name ← cache.getName mid
    let start := cache.runStart name mid
    cache.scanRun arch name (cache.nlibs - start) start

end LdCache

end DynLinker.Cache
