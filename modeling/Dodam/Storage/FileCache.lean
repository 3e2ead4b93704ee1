import Dodam.Execution.Error
import Dodam.Foundation.KeyedTable
import Dodam.Foundation.Machine
import Mathlib.Algebra.BigOperators.Fin
import Mathlib.Data.List.MinMax

/-! # The cache of file chunks

Reads of a file go through a cache of aligned chunks that is spread over shards. An insert
evicts in a bounded number of attempts before.
-/
namespace Dodam.Storage
open Foundation Execution

/-- What a cached chunk is keyed by besides its start. -/
structure FileVersion where
  path : String
  len : ℕ
  modified : Option ℕ
deriving DecidableEq

structure Disk where
  content : FileVersion → List UInt8
  length_content : ∀ file, (content file).length = file.len

structure CachedFileChunkKey where
  file : FileVersion
  chunkStart : ℕ
deriving DecidableEq

structure CachedFileChunkEntry where
  bytes : List UInt8
  lastAccessEpoch : ℕ

open CachedFileChunkEntry

def parquetFileCacheShards : ℕ := 64

abbrev Entries := Map CachedFileChunkKey CachedFileChunkEntry

/-- The entries of every shard and the counter of their bytes. -/
structure CachedChunks where
  entries : Fin parquetFileCacheShards → Entries
  bytes : ℕ

structure ParquetFileCache where
  chunks : CachedChunks
  admissions : Fin parquetFileCacheShards → Map CachedFileChunkKey ℕ
  accessEpoch : ℕ

/-- The settings of a cache, with the hash that picks the shard of a key. -/
structure FileCacheSettings where
  maxBytes : ℕ
  chunkBytes : ℕ
  chunkBytes_pos : 0 < chunkBytes
  admitOnFirstRead : Bool
  shardIndex : CachedFileChunkKey → Fin parquetFileCacheShards

/-- A call of `get_or_read_range`; `contended` are the attempts at which the lock of another shard is taken. -/
structure RangeRead where
  file : FileVersion
  start : ℕ
  length : ℕ
  contended : ℕ → Bool

open RangeRead

/-- A call of `get_bytes`; before the segment of a chunk other readers make the reads of `others`. -/
structure BytesRequest where
  file : FileVersion
  start : ℕ
  length : ℕ
  contended : ℕ → ℕ → Bool
  others : ℕ → List RangeRead

def ParquetFileCache.empty : ParquetFileCache := ⟨⟨fun _ => ∅,0⟩,fun _ => ∅,1⟩

def readFileRange (content : List UInt8) (start length : ℕ) : Result (List UInt8) :=
  let read := min length (content.length - start)
  if read = length then .ok ((content.drop start).take length)
  else parquetGeneral s!"EOF: Expected to read {length} bytes at offset {start}, read only {read}"

/-- `Bytes::slice` -/
def sliceBytes (bytes : List UInt8) (start length : ℕ) : Result (List UInt8) :=
  if start + length ≤ bytes.length then .ok ((bytes.drop start).take length) else .error .panicked

namespace CachedChunks

def setShard (chunks : CachedChunks) (shard : Fin parquetFileCacheShards) (entries : Entries) : CachedChunks :=
  { chunks with entries := Function.update chunks.entries shard entries }

/-- `evict_one_from_entries` at a shard. -/
def evictOne (chunks : CachedChunks) (shard : Fin parquetFileCacheShards) : CachedChunks :=
  match (chunks.entries shard).toPairs.argmin fun e => e.2.lastAccessEpoch with
  | none => chunks
  | some victim =>
    { chunks.setShard shard ((chunks.entries shard).erase victim.1) with bytes := chunks.bytes - victim.2.bytes.length }

def shardAt (start attempts : ℕ) : Fin parquetFileCacheShards := ⟨(start + attempts) % parquetFileCacheShards,Nat.mod_lt _ (by decide)⟩

/-- An attempt of the eviction, which finds the lock of the shard taken or evicts an entry. -/
def attempt (lockedShard : Fin parquetFileCacheShards) (contended : ℕ → Bool) (start attempts : ℕ) (chunks : CachedChunks) : CachedChunks :=
  if shardAt start attempts = lockedShard || !contended attempts then chunks.evictOne (shardAt start attempts) else chunks

def evictionAttempts : ℕ := parquetFileCacheShards * 4

/-- The loop of `evict_until_has_space` with the attempts that are left. -/
def evictUntilHasSpace (maxBytes incomingBytes : ℕ) (lockedShard : Fin parquetFileCacheShards) (contended : ℕ → Bool) (start : ℕ) :
    ℕ → CachedChunks → CachedChunks
  | 0, chunks => chunks
  | left + 1, chunks =>
    if maxBytes < chunks.bytes + incomingBytes then
      evictUntilHasSpace maxBytes incomingBytes lockedShard contended start left
        (chunks.attempt lockedShard contended start (evictionAttempts - (left + 1)))
    else chunks

end CachedChunks

section Reads
variable (settings : FileCacheSettings)

def chunkLen (fileLen chunkStart : ℕ) : ℕ := min (fileLen - chunkStart) settings.chunkBytes

def cachePressure (cache : ParquetFileCache) (incomingBytes : ℕ) : Bool :=
  min (settings.maxBytes * 3) (maxUnsigned 64) ≤ min ((cache.chunks.bytes + incomingBytes) * 4) (maxUnsigned 64)

/-- Whether a missing chunk is admitted, and the admissions after the question. -/
def shouldAdmit (cache : ParquetFileCache) (key : CachedFileChunkKey) (epoch incomingBytes : ℕ) :
    Bool × (Fin parquetFileCacheShards → Map CachedFileChunkKey ℕ) :=
  let shard := settings.shardIndex key
  let admissions := cache.admissions shard
  if settings.admitOnFirstRead && !cachePressure settings cache incomingBytes then (true,cache.admissions)
  else if (admissions.lookup key).isSome then (true,Function.update cache.admissions shard (admissions.erase key))
  else
    let kept :=
      if 4096 ≤ admissions.entries.length then
        match admissions.toPairs.argmin Prod.snd with
        | some oldest => admissions.erase oldest.1
        | none => admissions
      else admissions
    (false,Function.update cache.admissions shard (kept.insert key epoch))

variable (disk : Disk)

def alignedStart (start : ℕ) : ℕ := start / settings.chunkBytes * settings.chunkBytes

def getOrReadRange (read : RangeRead) (cache : ParquetFileCache) : Result (List UInt8) × ParquetFileCache :=
  if settings.maxBytes = 0 then (readFileRange (disk.content read.file) read.start read.length,cache)
  else
    let chunkStart := alignedStart settings read.start
    let localStart := read.start - chunkStart
    let chunkBytes := chunkLen settings read.file.len chunkStart
    let key : CachedFileChunkKey := ⟨read.file,chunkStart⟩
    let shard := settings.shardIndex key
    let epoch := cache.accessEpoch
    let cache := { cache with accessEpoch := epoch + 1 }
    match (cache.chunks.entries shard).lookup key with
    | some entry =>
      (sliceBytes entry.bytes localStart read.length,
        { cache with chunks := cache.chunks.setShard shard ((cache.chunks.entries shard).insert key { entry with lastAccessEpoch := epoch }) })
    | none =>
      if settings.maxBytes < chunkBytes then (readFileRange (disk.content read.file) read.start read.length,cache)
      else
        let admitted := shouldAdmit settings cache key epoch chunkBytes
        let cache := { cache with admissions := admitted.2 }
        if admitted.1 then
          match readFileRange (disk.content read.file) chunkStart chunkBytes with
          | .error error => (.error error,cache)
          | .ok bytes =>
            let chunks := CachedChunks.evictUntilHasSpace settings.maxBytes chunkBytes shard read.contended cache.accessEpoch
              CachedChunks.evictionAttempts cache.chunks
            (sliceBytes bytes localStart read.length,
              { cache with
                chunks := { chunks.setShard shard ((chunks.entries shard).insert key ⟨bytes,epoch⟩) with bytes := chunks.bytes + chunkBytes } })
        else (readFileRange (disk.content read.file) read.start read.length,cache)

def interfere (reads : List RangeRead) (cache : ParquetFileCache) : ParquetFileCache :=
  reads.foldl (fun cache read => (getOrReadRange settings disk read cache).2) cache

/-- The read of a request in the chunk that starts at `chunkStart`. -/
def BytesRequest.segment (request : BytesRequest) (chunkStart : ℕ) : RangeRead :=
  ⟨request.file,max request.start chunkStart,
    min (min (chunkStart + settings.chunkBytes) request.file.len) (request.start + request.length) - max request.start chunkStart,
    request.contended chunkStart⟩

/-- The loop over the chunks of a request from `chunkStart` on. -/
def readSegments (request : BytesRequest) (chunkStart : ℕ) (output : List UInt8) (cache : ParquetFileCache) :
    Result (List UInt8) × ParquetFileCache :=
  if chunkStart < request.start + request.length then
    match getOrReadRange settings disk (request.segment settings chunkStart) (interfere settings disk (request.others chunkStart) cache) with
    | (.error error,cache) => (.error error,cache)
    | (.ok chunk,cache) => readSegments request (chunkStart + settings.chunkBytes) (output ++ chunk) cache
  else (.ok output,cache)
termination_by request.start + request.length - chunkStart
decreasing_by
  have := settings.chunkBytes_pos
  omega

def getBytes (request : BytesRequest) (cache : ParquetFileCache) : Result (List UInt8) × ParquetFileCache :=
  let start := request.start
  let length := request.length
  let len := request.file.len
  if len < start ∨ len < start + length then
    (parquetGeneral s!"EOF: Expected to read {length} bytes at offset {start}, while file has length {len}",cache)
  else if length = 0 then (.ok [],cache)
  else
    let chunkStart := alignedStart settings start
    if start + length ≤ chunkStart + settings.chunkBytes then
      getOrReadRange settings disk ⟨request.file,start,length,request.contended chunkStart⟩
        (interfere settings disk (request.others chunkStart) cache)
    else readSegments settings disk request chunkStart [] cache

def getAllBytes : List BytesRequest → ParquetFileCache → List (Result (List UInt8)) × ParquetFileCache
  | [], cache => ([],cache)
  | request :: requests, cache =>
    let answer := getBytes settings disk request cache
    let rest := getAllBytes requests answer.2
    (answer.1 :: rest.1,rest.2)

end Reads

def chunkContent (settings : FileCacheSettings) (disk : Disk) (key : CachedFileChunkKey) : List UInt8 :=
  ((disk.content key.file).drop key.chunkStart).take (chunkLen settings key.file.len key.chunkStart)

def CachedFileChunkEntry.size (entry : CachedFileChunkEntry) : ℕ := entry.bytes.length

def CachedChunks.held (chunks : CachedChunks) : ℕ := ∑ shard, (chunks.entries shard).total size

/-- Every entry holds the bytes of its chunk, and the counter is the total size of the entries. -/
structure CachedChunks.Good (settings : FileCacheSettings) (disk : Disk) (chunks : CachedChunks) : Prop where
  exact_bytes : ∀ {shard : Fin parquetFileCacheShards} {key : CachedFileChunkKey} {entry : CachedFileChunkEntry},
    (chunks.entries shard).lookup key = some entry → entry.bytes = chunkContent settings disk key
  counter : chunks.bytes = chunks.held

section Chunks
variable {settings : FileCacheSettings} {disk : Disk} {chunks : CachedChunks} {shard : Fin parquetFileCacheShards}
  {key : CachedFileChunkKey} {entry : CachedFileChunkEntry}

theorem length_chunkContent (key : CachedFileChunkKey) :
    (chunkContent settings disk key).length = chunkLen settings key.file.len key.chunkStart := by
  rw [chunkContent,List.length_take,List.length_drop,disk.length_content]
  exact min_eq_left (min_le_left ..)

namespace CachedChunks

theorem held_setShard (chunks : CachedChunks) (shard : Fin parquetFileCacheShards) (entries : Entries) :
    (chunks.setShard shard entries).held + (chunks.entries shard).total size =
      chunks.held + entries.total size := by
  simp only [held,setShard]
  rw [← Finset.add_sum_erase _ _ (Finset.mem_univ shard),
    ← Finset.add_sum_erase _ (fun i => (chunks.entries i).total size) (Finset.mem_univ shard)]
  have hrest : ∑ i ∈ Finset.univ.erase shard, (Function.update chunks.entries shard entries i).total size =
      ∑ i ∈ Finset.univ.erase shard, (chunks.entries i).total size := by
    apply Finset.sum_congr rfl
    intro i hi
    rw [Function.update_of_ne (Finset.ne_of_mem_erase hi)]
  rw [hrest,Function.update_self]
  omega

variable {shard' : Fin parquetFileCacheShards}

theorem exact_setShard (h : chunks.Good settings disk) {entries : Entries}
    (hentries : ∀ {key entry}, entries.lookup key = some entry → entry.bytes = chunkContent settings disk key) (hlookup : ((chunks.setShard shard entries).entries shard').lookup key = some entry) :
    entry.bytes = chunkContent settings disk key := by
  simp only [setShard] at hlookup
  by_cases hshard : shard' = shard
  · subst hshard
    rw [Function.update_self] at hlookup
    exact hentries hlookup
  · rw [Function.update_of_ne hshard] at hlookup
    exact h.exact_bytes hlookup

theorem exact_insert (h : chunks.Good settings disk) {new : CachedFileChunkEntry} (hnew : new.bytes = chunkContent settings disk key)
    {key' : CachedFileChunkKey} (hlookup : ((chunks.entries shard).insert key new).lookup key' = some entry) :
    entry.bytes = chunkContent settings disk key' := by
  by_cases hkey : key' = key
  · subst hkey
    rw [AList.lookup_insert] at hlookup
    rw [← Option.some.inj hlookup]
    exact hnew
  · rw [AList.lookup_insert_ne hkey] at hlookup
    exact h.exact_bytes hlookup

theorem good_touch (h : chunks.Good settings disk) (hlookup : (chunks.entries shard).lookup key = some entry) (epoch : ℕ) :
    (chunks.setShard shard ((chunks.entries shard).insert key { entry with lastAccessEpoch := epoch })).Good settings disk where
  exact_bytes := by
    have hbytes := h.exact_bytes hlookup
    have hnew : ({ entry with lastAccessEpoch := epoch } : CachedFileChunkEntry).bytes = chunkContent settings disk key := hbytes
    intro shard' key' entry' hlookup'
    exact exact_setShard h (fun hin => exact_insert h hnew hin) hlookup'
  counter := by
    have hheld := held_setShard chunks shard ((chunks.entries shard).insert key { entry with lastAccessEpoch := epoch })
    rw [Map.total_insert,Map.total_eq_of_lookup _ hlookup] at hheld
    have hsize : ({ entry with lastAccessEpoch := epoch } : CachedFileChunkEntry).size = entry.size := rfl
    have hcounter := h.counter
    change chunks.bytes = _
    omega

theorem good_insert (h : chunks.Good settings disk) (hlookup : (chunks.entries shard).lookup key = none) (epoch : ℕ) :
    ({ chunks.setShard shard ((chunks.entries shard).insert key ⟨chunkContent settings disk key,epoch⟩) with
      bytes := chunks.bytes + chunkLen settings key.file.len key.chunkStart } : CachedChunks).Good settings disk where
  exact_bytes := exact_setShard h fun hin => exact_insert h rfl hin
  counter := by
    have hheld := held_setShard chunks shard ((chunks.entries shard).insert key ⟨chunkContent settings disk key,epoch⟩)
    rw [Map.total_insert,Map.total_erase_of_notMem _ hlookup] at hheld
    have hsize : (⟨chunkContent settings disk key,epoch⟩ : CachedFileChunkEntry).size = chunkLen settings key.file.len key.chunkStart :=
      length_chunkContent key
    have hcounter := h.counter
    change chunks.bytes + _ = (chunks.setShard shard _).held
    omega

theorem lookup_of_argmin {victim : CachedFileChunkKey × CachedFileChunkEntry}
    (h : (chunks.entries shard).toPairs.argmin (fun e => e.2.lastAccessEpoch) = some victim) :
    (chunks.entries shard).lookup victim.1 = some victim.2 :=
  Map.mem_toPairs.mp (List.argmin_mem h)

theorem good_evictOne (h : chunks.Good settings disk) (shard : Fin parquetFileCacheShards) : (chunks.evictOne shard).Good settings disk := by
  unfold evictOne
  split
  · exact h
  · next victim hvictim =>
    have hlookup := lookup_of_argmin hvictim
    refine ⟨exact_setShard h fun {key entry} hin => ?_,?_⟩
    · by_cases hkey : key = victim.1
      · rw [hkey,AList.lookup_erase] at hin
        cases hin
      · rw [AList.lookup_erase_ne hkey] at hin
        exact h.exact_bytes hin
    · have hheld := held_setShard chunks shard ((chunks.entries shard).erase victim.1)
      rw [Map.total_eq_of_lookup _ hlookup] at hheld
      have hcounter := h.counter
      change chunks.bytes - victim.2.size = (chunks.setShard shard _).held
      omega

theorem lookup_of_evictOne (hlookup : ((chunks.evictOne shard').entries shard).lookup key = some entry) :
    (chunks.entries shard).lookup key = some entry := by
  unfold evictOne at hlookup
  split at hlookup
  · exact hlookup
  · next victim _ =>
    simp only [setShard] at hlookup
    by_cases hshard : shard = shard'
    · subst hshard
      rw [Function.update_self] at hlookup
      by_cases hkey : key = victim.1
      · rw [hkey,AList.lookup_erase] at hlookup
        cases hlookup
      · rwa [AList.lookup_erase_ne hkey] at hlookup
    · rwa [Function.update_of_ne hshard] at hlookup

theorem evictOne_bytes_le (chunks : CachedChunks) (shard : Fin parquetFileCacheShards) : (chunks.evictOne shard).bytes ≤ chunks.bytes := by
  unfold evictOne
  split
  · exact le_rfl
  · exact Nat.sub_le ..

variable (lockedShard : Fin parquetFileCacheShards) (contended : ℕ → Bool) (start : ℕ)

theorem good_attempt (h : chunks.Good settings disk) (attempts : ℕ) : (chunks.attempt lockedShard contended start attempts).Good settings disk := by
  unfold attempt
  split_ifs
  · exact good_evictOne h _
  · exact h

theorem attempt_bytes_le (chunks : CachedChunks) (attempts : ℕ) :
    (chunks.attempt lockedShard contended start attempts).bytes ≤ chunks.bytes := by
  unfold attempt
  split_ifs
  · exact evictOne_bytes_le ..
  · exact le_rfl

theorem good_evictUntilHasSpace (h : chunks.Good settings disk) (maxBytes incomingBytes left : ℕ) :
    (evictUntilHasSpace maxBytes incomingBytes lockedShard contended start left chunks).Good settings disk := by
  induction left generalizing chunks with
  | zero => exact h
  | succ left ih =>
    rw [evictUntilHasSpace]
    split_ifs
    · exact ih (good_attempt lockedShard contended start h _)
    · exact h

theorem lookup_of_attempt {attempts : ℕ}
    (hlookup : ((chunks.attempt lockedShard contended start attempts).entries shard).lookup key = some entry) :
    (chunks.entries shard).lookup key = some entry := by
  unfold attempt at hlookup
  split_ifs at hlookup
  · exact lookup_of_evictOne hlookup
  · exact hlookup

theorem lookup_of_evictUntilHasSpace {maxBytes incomingBytes left : ℕ}
    (hlookup : ((evictUntilHasSpace maxBytes incomingBytes lockedShard contended start left chunks).entries shard).lookup key = some entry) :
    (chunks.entries shard).lookup key = some entry := by
  induction left generalizing chunks with
  | zero => exact hlookup
  | succ left ih =>
    rw [evictUntilHasSpace] at hlookup
    split_ifs at hlookup
    · exact lookup_of_attempt lockedShard contended start (ih hlookup)
    · exact hlookup

/-- All the attempts of an eviction, whether there is space or not. -/
def sweep : ℕ → CachedChunks → CachedChunks
  | 0, chunks => chunks
  | left + 1, chunks => sweep left (chunks.attempt lockedShard contended start (evictionAttempts - (left + 1)))

theorem sweep_bytes_le (left : ℕ) (chunks : CachedChunks) : (sweep lockedShard contended start left chunks).bytes ≤ chunks.bytes := by
  induction left generalizing chunks with
  | zero => exact le_rfl
  | succ left ih => exact (ih _).trans (attempt_bytes_le ..)

theorem evictUntilHasSpace_fits_iff (maxBytes incomingBytes left : ℕ) (chunks : CachedChunks) :
    (evictUntilHasSpace maxBytes incomingBytes lockedShard contended start left chunks).bytes + incomingBytes ≤ maxBytes ↔
      (sweep lockedShard contended start left chunks).bytes + incomingBytes ≤ maxBytes := by
  induction left generalizing chunks with
  | zero => exact Iff.rfl
  | succ left ih =>
    rw [evictUntilHasSpace]
    split_ifs with hfull
    · exact ih _
    · have hle := sweep_bytes_le lockedShard contended start (left + 1) chunks
      exact iff_of_true (Nat.not_lt.mp hfull) (by omega)

end CachedChunks
end Chunks

open CachedChunks

section Steps
variable {settings : FileCacheSettings} {disk : Disk} {cache : ParquetFileCache}

theorem readFileRange_ok {content : List UInt8} {start length : ℕ} (h : length ≤ content.length - start) :
    readFileRange content start length = .ok ((content.drop start).take length) := by
  unfold readFileRange
  rw [if_pos (min_eq_left h)]

theorem readFileRange_chunk (settings : FileCacheSettings) (disk : Disk) (key : CachedFileChunkKey) :
    readFileRange (disk.content key.file) key.chunkStart (chunkLen settings key.file.len key.chunkStart) =
      .ok (chunkContent settings disk key) := by
  apply readFileRange_ok
  rw [disk.length_content]
  exact min_le_left ..

theorem sliceBytes_chunk (disk : Disk) {file : FileVersion} {chunkStart start length : ℕ} (hlow : chunkStart ≤ start)
    (hhigh : start + length ≤ chunkStart + settings.chunkBytes) (hlen : start + length ≤ file.len) :
    sliceBytes (chunkContent settings disk ⟨file,chunkStart⟩) (start - chunkStart) length =
      .ok (((disk.content file).drop start).take length) := by
  have hfits : start - chunkStart + length ≤ chunkLen settings file.len chunkStart := by
    rw [chunkLen,Nat.le_min]
    omega
  rw [sliceBytes,length_chunkContent,if_pos hfits,chunkContent,List.drop_take,List.drop_drop,List.take_take]
  congr 2
  · exact min_eq_left (Nat.le_sub_of_add_le (by rw [Nat.add_comm]; exact hfits))
  · congr 1
    simp only
    omega

theorem alignedStart_le (settings : FileCacheSettings) (start : ℕ) : alignedStart settings start ≤ start := Nat.div_mul_le_self ..

theorem lt_alignedStart (settings : FileCacheSettings) (start : ℕ) : start < alignedStart settings start + settings.chunkBytes := Nat.lt_div_mul_add settings.chunkBytes_pos

def RangeRead.key (settings : FileCacheSettings) (read : RangeRead) : CachedFileChunkKey := ⟨read.file,alignedStart settings read.start⟩

def RangeRead.incoming (settings : FileCacheSettings) (read : RangeRead) : ℕ :=
  chunkLen settings read.file.len (alignedStart settings read.start)

def RangeRead.evicted (settings : FileCacheSettings) (read : RangeRead) (cache : ParquetFileCache) : CachedChunks :=
  evictUntilHasSpace settings.maxBytes (read.incoming settings) (settings.shardIndex (read.key settings)) read.contended
    (cache.accessEpoch + 1) evictionAttempts cache.chunks

def RangeRead.inserted (settings : FileCacheSettings) (disk : Disk) (read : RangeRead) (cache : ParquetFileCache) : CachedChunks :=
  { (read.evicted settings cache).setShard (settings.shardIndex (read.key settings))
      (((read.evicted settings cache).entries (settings.shardIndex (read.key settings))).insert (read.key settings)
        ⟨chunkContent settings disk (read.key settings),cache.accessEpoch⟩) with
    bytes := (read.evicted settings cache).bytes + read.incoming settings }

/-- The room that the eviction of a read makes when it needs all its attempts. -/
def RangeRead.HasRoom (settings : FileCacheSettings) (read : RangeRead) (cache : ParquetFileCache) : Prop :=
  (sweep (settings.shardIndex (read.key settings)) read.contended (cache.accessEpoch + 1) evictionAttempts
    cache.chunks).bytes + read.incoming settings ≤ settings.maxBytes

theorem getOrReadRange_cases (settings : FileCacheSettings) (disk : Disk) (read : RangeRead) (cache : ParquetFileCache) :
    (∃ cache', getOrReadRange settings disk read cache = (readFileRange (disk.content read.file) read.start read.length,cache') ∧
        cache'.chunks = cache.chunks) ∨
      (∃ entry cache', (cache.chunks.entries (settings.shardIndex (read.key settings))).lookup (read.key settings) = some entry ∧
        getOrReadRange settings disk read cache =
          (sliceBytes entry.bytes (read.start - alignedStart settings read.start) read.length,cache') ∧
        cache'.chunks = cache.chunks.setShard (settings.shardIndex (read.key settings))
          ((cache.chunks.entries (settings.shardIndex (read.key settings))).insert (read.key settings)
            { entry with lastAccessEpoch := cache.accessEpoch })) ∨
      ∃ cache', (cache.chunks.entries (settings.shardIndex (read.key settings))).lookup (read.key settings) = none ∧
        getOrReadRange settings disk read cache =
          (sliceBytes (chunkContent settings disk (read.key settings)) (read.start - alignedStart settings read.start) read.length,cache') ∧
        cache'.chunks = read.inserted settings disk cache := by
  have hfile := readFileRange_chunk settings disk (read.key settings)
  simp only [key] at hfile
  simp only [getOrReadRange,hfile]
  by_cases hmax : settings.maxBytes = 0
  · rw [if_pos hmax]
    exact .inl ⟨_,rfl,rfl⟩
  · rw [if_neg hmax]
    split
    · next entry hentry => exact .inr (.inl ⟨entry,_,hentry,rfl,rfl⟩)
    · next hnone =>
      split_ifs
      · exact .inl ⟨_,rfl,rfl⟩
      · exact .inr (.inr ⟨_,hnone,rfl,rfl⟩)
      · exact .inl ⟨_,rfl,rfl⟩

theorem getOrReadRange_miss {read : RangeRead} (hmax : settings.maxBytes ≠ 0)
    (hnone : (cache.chunks.entries (settings.shardIndex (read.key settings))).lookup (read.key settings) = none)
    (hlen : read.incoming settings ≤ settings.maxBytes) {admitted : Bool × (Fin parquetFileCacheShards → Map CachedFileChunkKey ℕ)}
    (haccepts : shouldAdmit settings { cache with accessEpoch := cache.accessEpoch + 1 } (read.key settings) cache.accessEpoch
      (read.incoming settings) = admitted) :
    (getOrReadRange settings disk read cache).2 =
      ⟨if admitted.1 then read.inserted settings disk cache else cache.chunks,admitted.2,cache.accessEpoch + 1⟩ := by
  have hfile := readFileRange_chunk settings disk (read.key settings)
  simp only [key] at hfile hnone
  simp only [key,incoming] at haccepts hlen
  simp only [getOrReadRange,hfile,hnone,haccepts]
  rw [if_neg hmax,if_neg (Nat.not_lt.mpr hlen)]
  split_ifs <;> rfl

theorem good_getOrReadRange (h : cache.chunks.Good settings disk) (read : RangeRead) :
    (getOrReadRange settings disk read cache).2.chunks.Good settings disk := by
  obtain ⟨cache',hread,hchunks⟩ | ⟨entry,cache',hlookup,hread,hchunks⟩ | ⟨cache',hlookup,hread,hchunks⟩ :=
    getOrReadRange_cases settings disk read cache
  · rw [hread,hchunks]
    exact h
  · rw [hread,hchunks]
    exact good_touch h hlookup _
  · rw [hread,hchunks]
    exact good_insert (good_evictUntilHasSpace _ _ _ h ..)
      (Option.eq_none_iff_forall_ne_some.mpr fun entry hentry =>
        absurd (hlookup.symm.trans (lookup_of_evictUntilHasSpace _ _ _ hentry)) (by simp)) _

theorem bytes_getOrReadRange (read : RangeRead) (cache : ParquetFileCache) :
    (getOrReadRange settings disk read cache).2.chunks.bytes = cache.chunks.bytes ∨
      ((getOrReadRange settings disk read cache).2.chunks.bytes ≤ settings.maxBytes ↔ read.HasRoom settings cache) := by
  obtain ⟨cache',hread,hchunks⟩ | ⟨entry,cache',hlookup,hread,hchunks⟩ | ⟨cache',hlookup,hread,hchunks⟩ :=
    getOrReadRange_cases settings disk read cache
  · rw [hread,hchunks]
    exact .inl rfl
  · rw [hread,hchunks]
    exact .inl rfl
  · rw [hread,hchunks]
    exact .inr (evictUntilHasSpace_fits_iff ..)

theorem getOrReadRange_ok (h : cache.chunks.Good settings disk) {read : RangeRead}
    (hchunk : read.start + read.length ≤ alignedStart settings read.start + settings.chunkBytes)
    (hlen : read.start + read.length ≤ read.file.len) :
    (getOrReadRange settings disk read cache).1 = .ok (((disk.content read.file).drop read.start).take read.length) := by
  have hslice := sliceBytes_chunk disk (alignedStart_le settings read.start) hchunk hlen
  obtain ⟨cache',hread,hchunks⟩ | ⟨entry,cache',hlookup,hread,hchunks⟩ | ⟨cache',hlookup,hread,hchunks⟩ :=
    getOrReadRange_cases settings disk read cache
  · rw [hread]
    apply readFileRange_ok
    rw [disk.length_content]
    omega
  · rw [hread,h.exact_bytes hlookup]
    exact hslice
  · rw [hread]
    exact hslice

theorem good_interfere (h : cache.chunks.Good settings disk) (reads : List RangeRead) :
    (interfere settings disk reads cache).chunks.Good settings disk := by
  induction reads generalizing cache with
  | nil => exact h
  | cons read reads ih => exact ih (good_getOrReadRange h read)

theorem alignedStart_eq {chunkStart position : ℕ} (hdvd : settings.chunkBytes ∣ chunkStart) (hlow : chunkStart ≤ position)
    (hhigh : position < chunkStart + settings.chunkBytes) : alignedStart settings position = chunkStart := by
  obtain ⟨index,rfl⟩ := hdvd
  have hindex : position / settings.chunkBytes = index := by
    apply Nat.div_eq_of_lt_le
    · rw [Nat.mul_comm]
      exact hlow
    · rw [Nat.succ_mul,Nat.mul_comm index]
      exact hhigh
  rw [alignedStart,hindex,Nat.mul_comm]

theorem length_segment (settings : FileCacheSettings) {request : BytesRequest} (hlen : request.start + request.length ≤ request.file.len) (chunkStart : ℕ) :
    (request.segment settings chunkStart).length =
      min (chunkStart + settings.chunkBytes) (request.start + request.length) - max request.start chunkStart := by
  rw [BytesRequest.segment,min_assoc,min_eq_right hlen]

/-- The loop over the chunks of a request appends the rest of its bytes. -/
theorem readSegments_ok {cache : ParquetFileCache} (h : cache.chunks.Good settings disk) (request : BytesRequest)
    (hlen : request.start + request.length ≤ request.file.len) {chunkStart : ℕ} (hdvd : settings.chunkBytes ∣ chunkStart)
    (hstart : request.start < chunkStart + settings.chunkBytes) {output : List UInt8}
    (houtput : output = ((disk.content request.file).drop request.start).take
      (min (max request.start chunkStart) (request.start + request.length) - request.start)) :
    (readSegments settings disk request chunkStart output cache).1 =
        .ok (((disk.content request.file).drop request.start).take request.length) ∧
      (readSegments settings disk request chunkStart output cache).2.chunks.Good settings disk := by
  rw [readSegments]
  split_ifs with hmore
  · have hpos := settings.chunkBytes_pos
    have hgood := good_interfere h (request.others chunkStart)
    have hlow : max request.start chunkStart ≤ chunkStart + settings.chunkBytes := max_le hstart.le (Nat.le_add_right ..)
    have hhigh : max request.start chunkStart ≤ request.start + request.length := max_le (Nat.le_add_right ..) hmore.le
    have haligned : alignedStart settings (request.segment settings chunkStart).start = chunkStart :=
      alignedStart_eq hdvd (le_max_right ..) (max_lt hstart (Nat.lt_add_of_pos_right hpos))
    have hlength := length_segment settings hlen chunkStart
    have hend : (request.segment settings chunkStart).start + (request.segment settings chunkStart).length =
        min (chunkStart + settings.chunkBytes) (request.start + request.length) := by
      rw [hlength]
      exact Nat.add_sub_cancel' (le_min hlow hhigh)
    have hread := getOrReadRange_ok hgood (by rw [haligned,hend]; exact min_le_left ..) (by rw [hend]; exact (min_le_right ..).trans hlen)
    have hgood' := good_getOrReadRange hgood (request.segment settings chunkStart)
    generalize getOrReadRange settings disk (request.segment settings chunkStart)
      (interfere settings disk (request.others chunkStart) cache) = answer at hread hgood' ⊢
    obtain ⟨result,cache'⟩ := answer
    subst hread
    refine readSegments_ok hgood' request hlen (hdvd.add (dvd_refl _)) (by omega) ?_
    -- the bytes so far and those of the segment
    have hsofar : request.start + (max request.start chunkStart - request.start) = max request.start chunkStart :=
      Nat.add_sub_cancel' (le_max_left ..)
    have hsum : min (chunkStart + settings.chunkBytes) (request.start + request.length) - request.start =
        max request.start chunkStart - request.start + (request.segment settings chunkStart).length := by
      rw [hlength,← Nat.sub_add_sub_cancel (le_min hlow hhigh) (le_max_left ..),Nat.add_comm]
    rw [max_eq_right hstart.le,hsum,List.take_add,houtput,min_eq_left hhigh,List.drop_drop,hsofar]
    rfl
  · have hall : min (max request.start chunkStart) (request.start + request.length) - request.start = request.length := by omega
    rw [houtput,hall]
    exact ⟨rfl,h⟩
termination_by request.start + request.length - chunkStart

theorem getBytes_ok (h : cache.chunks.Good settings disk) (request : BytesRequest) :
    (request.start + request.length ≤ request.file.len →
        (getBytes settings disk request cache).1 = .ok (((disk.content request.file).drop request.start).take request.length)) ∧
      (getBytes settings disk request cache).2.chunks.Good settings disk := by
  simp only [getBytes]
  split_ifs with hout hempty hsingle
  · exact ⟨fun hlen => absurd hout (by omega),h⟩
  · rw [hempty]
    exact ⟨fun _ => rfl,h⟩
  · have hgood := good_interfere h (request.others (alignedStart settings request.start))
    exact ⟨fun hlen => getOrReadRange_ok hgood hsingle hlen,good_getOrReadRange hgood _⟩
  · have hle := alignedStart_le settings request.start
    have hnone : min (max request.start (alignedStart settings request.start)) (request.start + request.length) - request.start = 0 := by
      omega
    have hdvd : settings.chunkBytes ∣ alignedStart settings request.start := Dvd.intro_left _ rfl
    have hsegments := readSegments_ok h request (by omega) hdvd (lt_alignedStart settings request.start)
      (by rw [hnone,List.take_zero] : [] = _)
    exact ⟨fun _ => hsegments.1,hsegments.2⟩

theorem good_empty (settings : FileCacheSettings) (disk : Disk) : ParquetFileCache.empty.chunks.Good settings disk where
  exact_bytes := fun hlookup => by simp [ParquetFileCache.empty] at hlookup
  counter := by
    simp [ParquetFileCache.empty,held,Map.total]

theorem getAllBytes_ok (h : cache.chunks.Good settings disk) (requests : List BytesRequest) :
    List.Forall₂ (fun request answer => request.start + request.length ≤ request.file.len →
        answer = .ok (((disk.content request.file).drop request.start).take request.length))
      requests (getAllBytes settings disk requests cache).1 ∧ (getAllBytes settings disk requests cache).2.chunks.Good settings disk := by
  induction requests generalizing cache with
  | nil => exact ⟨.nil,h⟩
  | cons request requests ih =>
    obtain ⟨hanswer,hgood⟩ := getBytes_ok h request
    obtain ⟨hanswers,hgood'⟩ := ih hgood
    exact ⟨.cons hanswer hanswers,hgood'⟩

end Steps

section GivingUp

def thousandBytes (shardIndex : CachedFileChunkKey → Fin parquetFileCacheShards) : FileCacheSettings :=
  ⟨1000,1000,by decide,true,shardIndex⟩

def zeroDisk : Disk := ⟨fun file => List.replicate file.len 0,fun _ => List.length_replicate ..⟩

def tinyFile (modified : ℕ) : FileVersion := ⟨"tiny.parquet",1,some modified⟩

def bigFile : FileVersion := ⟨"big.parquet",1000,none⟩

def wholeRead (file : FileVersion) : RangeRead := ⟨file,0,file.len,fun _ => false⟩

def wholeFile (file : FileVersion) : BytesRequest := ⟨file,0,file.len,fun _ _ => false,fun _ => []⟩

variable {shardIndex : CachedFileChunkKey → Fin parquetFileCacheShards} {cache : ParquetFileCache}

/-- The cache holds the bytes of `n` tiny files and has deferred nothing. -/
structure HoldsTiny (n : ℕ) (cache : ParquetFileCache) : Prop where
  bytes : cache.chunks.bytes = n
  tiny : ∀ {shard : Fin parquetFileCacheShards} {key : CachedFileChunkKey} {entry : CachedFileChunkEntry},
    (cache.chunks.entries shard).lookup key = some entry → entry.size = 1 ∧ ∃ i < n, key.file = tinyFile i
  admissions : cache.admissions = fun _ => ∅

theorem evictUntilHasSpace_of_fits {maxBytes incomingBytes : ℕ} {chunks : CachedChunks} (h : chunks.bytes + incomingBytes ≤ maxBytes)
    (lockedShard : Fin parquetFileCacheShards) (contended : ℕ → Bool) (start left : ℕ) :
    evictUntilHasSpace maxBytes incomingBytes lockedShard contended start left chunks = chunks := by
  cases left with
  | zero => rfl
  | succ left => rw [evictUntilHasSpace,if_neg (Nat.not_lt.mpr h)]

theorem le_evictUntilHasSpace (lockedShard : Fin parquetFileCacheShards) (contended : ℕ → Bool) (start maxBytes incomingBytes left : ℕ)
    {chunks : CachedChunks} (h : ∀ {shard key entry}, (chunks.entries shard).lookup key = some entry → entry.size = 1) :
    chunks.bytes ≤ (evictUntilHasSpace maxBytes incomingBytes lockedShard contended start left chunks).bytes + left := by
  induction left generalizing chunks with
  | zero => exact le_rfl
  | succ left ih =>
    rw [evictUntilHasSpace]
    split_ifs
    · generalize evictionAttempts - (left + 1) = attempts
      have hone : chunks.bytes ≤ (chunks.attempt lockedShard contended start attempts).bytes + 1 := by
        unfold attempt evictOne
        split_ifs
        · split
          · exact Nat.le_succ _
          · next victim hvictim =>
            have hsize : victim.2.bytes.length = 1 := h (lookup_of_argmin hvictim)
            simp only [hsize]
            omega
        · exact Nat.le_succ _
      have hrest := @ih (chunks.attempt lockedShard contended start attempts) fun hlookup =>
        h (lookup_of_attempt lockedShard contended start hlookup)
      omega
    · exact Nat.le_add_right ..

theorem alignedStart_zero (settings : FileCacheSettings) : alignedStart settings 0 = 0 := by simp [alignedStart]

theorem wholeRead_key (settings : FileCacheSettings) (file : FileVersion) : (wholeRead file).key settings = ⟨file,0⟩ := by
  rw [key,wholeRead,alignedStart_zero]

variable {file : FileVersion}

theorem wholeRead_incoming (hle : file.len ≤ 1000) :
    (wholeRead file).incoming (thousandBytes shardIndex) = file.len := by
  rw [incoming,wholeRead,alignedStart_zero]
  exact min_eq_left hle

theorem getBytes_wholeFile (hpos : 0 < file.len) (hle : file.len ≤ 1000) :
    getBytes (thousandBytes shardIndex) zeroDisk (wholeFile file) cache =
      getOrReadRange (thousandBytes shardIndex) zeroDisk (wholeRead file) cache := by
  simp only [getBytes,wholeFile,alignedStart_zero]
  rw [if_neg (by omega),if_neg (by omega),if_pos (by simpa [thousandBytes] using hle)]
  rfl

theorem getBytes_miss (hpos : 0 < file.len) (hle : file.len ≤ 1000)
    (hnone : ∀ shard, (cache.chunks.entries shard).lookup ⟨file,0⟩ = none)
    {admitted : Bool × (Fin parquetFileCacheShards → Map CachedFileChunkKey ℕ)}
    (haccepts : shouldAdmit (thousandBytes shardIndex) { cache with accessEpoch := cache.accessEpoch + 1 } ⟨file,0⟩ cache.accessEpoch file.len = admitted) :
    (getBytes (thousandBytes shardIndex) zeroDisk (wholeFile file) cache).2 =
      ⟨if admitted.1 then (wholeRead file).inserted (thousandBytes shardIndex) zeroDisk cache else cache.chunks,admitted.2,
        cache.accessEpoch + 1⟩ := by
  rw [getBytes_wholeFile hpos hle]
  apply getOrReadRange_miss
  · exact Nat.succ_ne_zero 999
  · rw [wholeRead_key]
    exact hnone _
  · rw [wholeRead_incoming hle]
    exact hle
  · rw [wholeRead_key,wholeRead_incoming hle]
    exact haccepts

theorem lookup_inserted {settings : FileCacheSettings} {disk : Disk} {read : RangeRead} {shard : Fin parquetFileCacheShards}
    {key : CachedFileChunkKey} {entry : CachedFileChunkEntry}
    (h : ((read.inserted settings disk cache).entries shard).lookup key = some entry) :
    (key = read.key settings ∧ entry.bytes = chunkContent settings disk (read.key settings)) ∨
      (cache.chunks.entries shard).lookup key = some entry := by
  simp only [inserted,setShard] at h
  by_cases hshard : shard = settings.shardIndex (read.key settings)
  · subst hshard
    rw [Function.update_self] at h
    by_cases hkey : key = read.key settings
    · rw [hkey,AList.lookup_insert] at h
      rw [← Option.some.inj h]
      exact .inl ⟨hkey,rfl⟩
    · rw [AList.lookup_insert_ne hkey] at h
      exact .inr (lookup_of_evictUntilHasSpace _ _ _ h)
  · rw [Function.update_of_ne hshard] at h
    exact .inr (lookup_of_evictUntilHasSpace _ _ _ h)

theorem HoldsTiny.lookup_none {n : ℕ} (h : HoldsTiny n cache) (hfile : ∀ i < n, file ≠ tinyFile i)
    (shard : Fin parquetFileCacheShards) : (cache.chunks.entries shard).lookup ⟨file,0⟩ = none := by
  apply Option.eq_none_iff_forall_ne_some.mpr
  intro entry hentry
  obtain ⟨_,i,hi,heq⟩ := h.tiny hentry
  exact hfile i hi heq

theorem holdsTiny_succ {n : ℕ} (h : HoldsTiny n cache) (hn : n < 300) :
    HoldsTiny (n + 1) (getBytes (thousandBytes shardIndex) zeroDisk (wholeFile (tinyFile n)) cache).2 := by
  have hnone := h.lookup_none fun i hi (heq : tinyFile n = tinyFile i) => by
    simp only [tinyFile,FileVersion.mk.injEq,Option.some.injEq,true_and] at heq
    omega
  have haccepts : shouldAdmit (thousandBytes shardIndex) { cache with accessEpoch := cache.accessEpoch + 1 } ⟨tinyFile n,0⟩
      cache.accessEpoch (tinyFile n).len = (true,cache.admissions) := by
    have hpressure : cachePressure (thousandBytes shardIndex) { cache with accessEpoch := cache.accessEpoch + 1 } (tinyFile n).len = false := by
      simp only [cachePressure,thousandBytes,h.bytes,maxUnsigned,tinyFile,decide_eq_false_iff_not]
      omega
    rw [shouldAdmit,hpressure]
    rfl
  have hincoming : (wholeRead (tinyFile n)).incoming (thousandBytes shardIndex) = 1 := wholeRead_incoming (by simp [tinyFile])
  rw [getBytes_miss (by simp [tinyFile]) (by simp [tinyFile]) hnone haccepts,if_pos rfl]
  have hevicted : (wholeRead (tinyFile n)).evicted (thousandBytes shardIndex) cache = cache.chunks :=
    evictUntilHasSpace_of_fits (by rw [h.bytes,hincoming]; simp only [thousandBytes]; omega) ..
  refine ⟨?_,?_,h.admissions⟩
  · rw [inserted,hevicted,hincoming,h.bytes]
  · intro shard key entry hlookup
    obtain ⟨rfl,hbytes⟩ | hold := lookup_inserted hlookup
    · refine ⟨?_,n,Nat.lt_succ_self n,by rw [wholeRead_key]⟩
      rw [size,hbytes,length_chunkContent]
      exact hincoming
    · obtain ⟨hsize,i,hi,hfile⟩ := h.tiny hold
      exact ⟨hsize,i,Nat.lt_succ_of_lt hi,hfile⟩

theorem getAllBytes_append (settings : FileCacheSettings) (disk : Disk) (front back : List BytesRequest) (cache : ParquetFileCache) :
    (getAllBytes settings disk (front ++ back) cache).2 =
      (getAllBytes settings disk back (getAllBytes settings disk front cache).2).2 := by
  induction front generalizing cache with
  | nil => rfl
  | cons request front ih => exact ih _

theorem getAllBytes_pair (settings : FileCacheSettings) (disk : Disk) (first second : BytesRequest) (cache : ParquetFileCache) :
    (getAllBytes settings disk [first,second] cache).2 = (getBytes settings disk second (getBytes settings disk first cache).2).2 := rfl

def tinyRequests (n : ℕ) : List BytesRequest := (List.range n).map fun i => wholeFile (tinyFile i)

theorem holdsTiny_tinyRequests {n : ℕ} (hn : n ≤ 300) :
    HoldsTiny n (getAllBytes (thousandBytes shardIndex) zeroDisk (tinyRequests n) .empty).2 := by
  induction n with
  | zero => exact ⟨rfl,fun hlookup => by simp [tinyRequests,getAllBytes,ParquetFileCache.empty] at hlookup,rfl⟩
  | succ n ih =>
    rw [tinyRequests,List.range_succ,List.map_append,getAllBytes_append]
    exact holdsTiny_succ (ih (Nat.le_of_succ_le hn)) hn

theorem bigFile_pressure {cache : ParquetFileCache} (hbytes : cache.chunks.bytes = 300) :
    cachePressure (thousandBytes shardIndex) cache bigFile.len = true := by
  simp only [cachePressure,thousandBytes,hbytes,bigFile,maxUnsigned,decide_eq_true_eq]
  omega

theorem bigFile_deferred (h : HoldsTiny 300 cache) :
    ∃ admissions : Fin parquetFileCacheShards → Map CachedFileChunkKey ℕ,
      (getBytes (thousandBytes shardIndex) zeroDisk (wholeFile bigFile) cache).2 = ⟨cache.chunks,admissions,cache.accessEpoch + 1⟩ ∧
        ((admissions (shardIndex ⟨bigFile,0⟩)).lookup ⟨bigFile,0⟩).isSome := by
  have hnone := h.lookup_none fun i _ (heq : bigFile = tinyFile i) => by simp [bigFile,tinyFile] at heq
  have hpressure : cachePressure (thousandBytes shardIndex) { cache with accessEpoch := cache.accessEpoch + 1 } bigFile.len = true :=
    bigFile_pressure h.bytes
  have haccepts : shouldAdmit (thousandBytes shardIndex) { cache with accessEpoch := cache.accessEpoch + 1 } ⟨bigFile,0⟩ cache.accessEpoch
      bigFile.len = (false,Function.update cache.admissions (shardIndex ⟨bigFile,0⟩) (AList.insert ⟨bigFile,0⟩ cache.accessEpoch ∅)) := by
    simp only [shouldAdmit,hpressure]
    simp [h.admissions,thousandBytes]
  refine ⟨_,getBytes_miss (by decide) (by decide) hnone haccepts,?_⟩
  simp only [Function.update_self]
  exact congrArg Option.isSome (AList.lookup_insert ∅)

theorem bigFile_overflow (h : HoldsTiny 300 cache) {admissions : Fin parquetFileCacheShards → Map CachedFileChunkKey ℕ} {epoch : ℕ}
    (hseen : ((admissions (shardIndex ⟨bigFile,0⟩)).lookup ⟨bigFile,0⟩).isSome) :
    1000 < (getBytes (thousandBytes shardIndex) zeroDisk (wholeFile bigFile) ⟨cache.chunks,admissions,epoch⟩).2.chunks.bytes := by
  have hnone := h.lookup_none fun i _ (heq : bigFile = tinyFile i) => by simp [bigFile,tinyFile] at heq
  have haccepts : shouldAdmit (thousandBytes shardIndex) ⟨cache.chunks,admissions,epoch + 1⟩ ⟨bigFile,0⟩ epoch bigFile.len =
      (true,Function.update admissions (shardIndex ⟨bigFile,0⟩) ((admissions (shardIndex ⟨bigFile,0⟩)).erase ⟨bigFile,0⟩)) := by
    have hpressure : cachePressure (thousandBytes shardIndex) ⟨cache.chunks,admissions,epoch + 1⟩ bigFile.len = true :=
      bigFile_pressure h.bytes
    have hshard : (thousandBytes shardIndex).shardIndex = shardIndex := rfl
    simp [shouldAdmit,hpressure,hshard,hseen]
  have hmiss := @getBytes_miss shardIndex ⟨cache.chunks,admissions,epoch⟩ bigFile (by decide) (by decide) hnone _ haccepts
  rw [hmiss]
  have hincoming : (wholeRead bigFile).incoming (thousandBytes shardIndex) = 1000 := wholeRead_incoming (by decide)
  have hevicted : 300 ≤ ((wholeRead bigFile).evicted (thousandBytes shardIndex) ⟨cache.chunks,admissions,epoch⟩).bytes + 256 := by
    rw [← h.bytes]
    exact le_evictUntilHasSpace _ _ _ _ _ _ fun hlookup => (h.tiny hlookup).1
  have hbytes : ((wholeRead bigFile).inserted (thousandBytes shardIndex) zeroDisk ⟨cache.chunks,admissions,epoch⟩).bytes =
      ((wholeRead bigFile).evicted (thousandBytes shardIndex) ⟨cache.chunks,admissions,epoch⟩).bytes + 1000 := by
    rw [inserted,hincoming]
  rw [if_pos rfl,hbytes]
  omega

end GivingUp
end Dodam.Storage
