import UsageBoard.Usage.Record

/-!
# The series of cached tokens

Each cache record gives two rows, one for each kind of tokens.
-/

namespace UsageBoard.Usage

structure CachePoint where
  time : String
  kind : String
  value : Int64
deriving DecidableEq, Repr

def nonCacheTokens : String := "Non-Cache Tokens"

def cacheHitTokens : String := "Cache Hit Tokens"

namespace CachePoint

def ofRecord (r : CacheRecord) : List CachePoint :=
  [⟨r.time, nonCacheTokens, r.nonCacheTokens⟩, ⟨r.time, cacheHitTokens, r.cacheHitTokens⟩]

def series (records : List CacheRecord) : List CachePoint := records.flatMap ofRecord

def toJson (p : CachePoint) : Json :=
  .object [("Time", .text p.time), ("Type", .text p.kind), ("Value", .integer p.value.toInt)]

end CachePoint

end UsageBoard.Usage
