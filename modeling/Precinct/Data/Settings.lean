import Precinct.Cache.Stats
import Precinct.Data.Value
import Precinct.Settings.Program

/-!
# Settings and counts as values

Every structure here is a record of its fields.  The settings of a cache and of a program may leave
out fields, which then have their defaults; those of a log and the counts of a cache may not.
-/

namespace Precinct
open Data (Value Structured)
open Data.Structured (optional)

instance : Structured Settings where
  names := ["min_threads", "max_threads", "keep_alive_ms", "thread_name", "hot_column",
    "rebuild_batch_size"]
  parts s := [.ofUInt64 s.minThreads, .ofUInt64 s.maxThreads, .ofUInt64 s.keepAliveMs,
    .text s.threadName, .flag s.hotColumn, .ofUInt64 s.batchSize]
  ofParts? _
    | [minThreads, maxThreads, keepAliveMs, threadName, hotColumn, batchSize] => do
      let absent : Settings := {}
      return {
        minThreads := ← optional absent.minThreads Value.uint64? minThreads
        maxThreads := ← optional absent.maxThreads Value.uint64? maxThreads
        keepAliveMs := ← optional absent.keepAliveMs Value.uint64? keepAliveMs
        threadName := ← optional absent.threadName Value.text? threadName
        hotColumn := ← optional absent.hotColumn Value.flag? hotColumn
        batchSize := ← optional absent.batchSize Value.uint64? batchSize }
    | _ => none

instance : Structured Logging where
  names := ["level", "json_format"]
  parts l := [.text l.level, .flag l.jsonFormat]
  ofParts? _
    | [level, jsonFormat] => do return ⟨← (← level).text?, ← (← jsonFormat).flag?⟩
    | _ => none

instance : Structured ProgramSettings where
  names := ["cache", "logging"]
  parts s := [Structured.toRecord s.cache, Structured.toRecord s.logging]
  ofParts? surplus
    | [cache, logging] => do
      return {
        cache := ← optional {} (Structured.read Settings surplus) cache
        logging := ← optional {} (Structured.read Logging surplus) logging }
    | _ => none

instance : Structured Stats where
  names := ["hot_column_hits", "column_hits", "store_fallbacks", "columns_loaded", "rebuilds",
    "tasks_cancelled"]
  parts s := [.ofUInt64 s.hotColumnHits, .ofUInt64 s.columnHits, .ofUInt64 s.storeFallbacks,
    .ofUInt64 s.columnsLoaded, .ofUInt64 s.rebuilds, .ofUInt64 s.tasksCancelled]
  ofParts? _
    | [hotColumnHits, columnHits, storeFallbacks, columnsLoaded, rebuilds, tasksCancelled] => do
      return {
        hotColumnHits := ← (← hotColumnHits).uint64?
        columnHits := ← (← columnHits).uint64?
        storeFallbacks := ← (← storeFallbacks).uint64?
        columnsLoaded := ← (← columnsLoaded).uint64?
        rebuilds := ← (← rebuilds).uint64?
        tasksCancelled := ← (← tasksCancelled).uint64? }
    | _ => none

end Precinct
