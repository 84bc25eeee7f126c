import DynLinker.Cache.LdCache
import DynLinker.Lib.Slices

/-! The reader of `/etc/ld.so.cache` once more, line by line: with the checks of every index
and of every sum, and with its three loops. Nothing is known about the fields of the cache
beyond their types. -/

set_option autoImplicit false

namespace DynLinker.Cache

open Lib

structure RawCache where
  data : Bytes
  headerOffset : Nat
  nlibs : Nat
  stringTableOffset : Nat
deriving DecidableEq

/-- `extract_str`. -/
def extractStrChecked (table : Bytes) (offset : Nat) : Except Halt (Option Bytes) :=
  if offset ≥ table.length then .ok none
  else do
    let slice ← sliceFrom table offset
    let len := slice.findIdx (· = 0)
    let text ← sliceBetween slice 0 len
    return fromUtf8 text

namespace RawCache

variable (checks : Bool) (cache : RawCache)

/-- `self.header_offset + HEADER_SIZE + idx * ENTRY_SIZE`. -/
def entryOffset (idx : Nat) : Except Halt Nat := do
  let entries ← usizeAdd checks cache.headerOffset headerSize
  let skipped ← usizeMul checks idx entrySize
  usizeAdd checks entries skipped

def getName (idx : Nat) : Except Halt (Option Bytes) := do
  let entryOffset ← cache.entryOffset checks idx
  let limit ← usizeAdd checks entryOffset 8
  if limit > cache.data.length then return none
  else do
    let start ← usizeAdd checks entryOffset 4
    let stop ← usizeAdd checks entryOffset 8
    let keyIdx ← sliceBetween cache.data start stop >>= u32FromSlice
    let header ← sliceFrom cache.data cache.headerOffset
    let text ← extractStrChecked header keyIdx
    match text.filter fun text => !text.isEmpty && !startsWithSlash text with
    | some text => return some text
    | none => do
        let table ← sliceFrom cache.data cache.stringTableOffset
        extractStrChecked table keyIdx

def getPath (idx : Nat) : Except Halt (Option Bytes) := do
  let entryOffset ← cache.entryOffset checks idx
  let limit ← usizeAdd checks entryOffset 12
  if limit > cache.data.length then return none
  else do
    let start ← usizeAdd checks entryOffset 8
    let stop ← usizeAdd checks entryOffset 12
    let valIdx ← sliceBetween cache.data start stop >>= u32FromSlice
    let header ← sliceFrom cache.data cache.headerOffset
    let text ← extractStrChecked header valIdx
    match text.filter startsWithSlash with
    | some text => return some text
    | none => do
        let table ← sliceFrom cache.data cache.stringTableOffset
        extractStrChecked table valIdx

def checkFlags (arch : Arch) (idx : Nat) : Except Halt Bool := do
  let entryOffset ← cache.entryOffset checks idx
  let limit ← usizeAdd checks entryOffset 4
  if limit > cache.data.length then return false
  else do
    let stop ← usizeAdd checks entryOffset 4
    let flags ← sliceBetween cache.data entryOffset stop >>= u32FromSlice
    if flags &&& flagTypeMask ≠ flagLibc6 then return false
    else if flagArchCurrent arch ≠ 0 ∧ flags &&& flagArchCurrent arch = 0 then return false
    else return true

/-- `LdCache::new`, with the names that it logs. -/
def new (file : Except Error Bytes) : Except Halt (Except Error RawCache) :=
  match file with
  | .error error => .ok (.error error)
  | .ok buffer =>
      match magicPosition buffer with
      | none =>
          .ok (.error (.parseLdCacheError "Could not find glibc-ld.so.cache1.1 magic"))
      | some startOffset => do
          let header ← sliceFrom buffer startOffset
          if header.length < headerSize then
            return .error (.parseLdCacheError "Cache file too small for header")
          else do
            let nlibs ← sliceBetween header 20 24 >>= u32FromSlice
            let entries ← usizeAdd checks startOffset headerSize
            let size ← usizeMul checks nlibs entrySize
            let stringTableOffset ← usizeAdd checks entries size
            if stringTableOffset > buffer.length then
              return .error (.parseLdCacheError "Cache entries exceed file size")
            else do
              let cache : RawCache := ⟨buffer, startOffset, nlibs, stringTableOffset⟩
              if nlibs > 0 then do
                let _first ← cache.getName checks 0
                let last ← usizeSub checks nlibs 1
                let _last ← cache.getName checks last
                return .ok cache
              else return .ok cache

/-- The backward loop, from the position of a hit. -/
def backLoop (name : Bytes) : Nat → Except Halt Nat
  | 0 => .ok 0
  | start + 1 => do
      let previous ← cache.getName checks start
      if previous = some name then backLoop name start else return start + 1

/-- The forward loop; the rounds bound how often it is entered. -/
def forwardLoop (arch : Arch) (name : Bytes) : Nat → Nat → Except Halt (Option Bytes)
  | 0, _ => .error .unfinished
  | rounds + 1, i =>
      if i < cache.nlibs then do
        let here ← cache.getName checks i
        if here = some name then do
          let matching ← cache.checkFlags checks arch i
          let path ← (if matching then cache.getPath checks i else .ok none)
          match path with
          | some path => return some path
          | none => do
              let next ← usizeAdd checks i 1
              forwardLoop arch name rounds next
        else return none
      else return none

/-- The two scans from a hit. -/
def scanFrom (arch : Arch) (name : Bytes) (rounds mid : Nat) : Except Halt (Option Bytes) := do
  let start ← cache.backLoop checks name mid
  cache.forwardLoop checks arch name rounds start

/-- The binary search; the rounds bound how often each loop is entered. -/
def searchLoop (arch : Arch) (descending : Bool) (libName : Bytes) (scanRounds : Nat) :
    Nat → Nat → Nat → Except Halt (Option Bytes)
  | 0, _, _ => .error .unfinished
  | rounds + 1, left, right =>
      if left < right then do
        let width ← usizeSub checks right left
        let mid ← usizeAdd checks left (width / 2)
        match ← cache.getName checks mid with
        | none => return none
        | some name =>
            match if descending then byteCompare name libName else byteCompare libName name with
            | .eq => cache.scanFrom checks arch name scanRounds mid
            | .lt => searchLoop arch descending libName scanRounds rounds left mid
            | .gt => do
                let next ← usizeAdd checks mid 1
                searchLoop arch descending libName scanRounds rounds next right
      else return none

def lookup (arch : Arch) (libName : Bytes) (rounds : Nat) : Except Halt (Option Bytes) :=
  if cache.nlibs = 0 then .ok none
  else do
    match ← cache.getName checks 0 with
    | none => return none
    | some firstName => do
        let last ← usizeSub checks cache.nlibs 1
        match ← cache.getName checks last with
        | none => return none
        | some lastName =>
            cache.searchLoop checks arch (LdCache.isDescending firstName lastName) libName rounds
              rounds 0 cache.nlibs

end RawCache

end DynLinker.Cache
