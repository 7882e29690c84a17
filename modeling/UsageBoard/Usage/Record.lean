import UsageBoard.Document.Decoder
import UsageBoard.Json.Value

/-!
# Usage as the backend reports it

A usage record counts the calls of one model in one time bucket; a cache record counts the prompt
tokens of one bucket.
-/

namespace UsageBoard.Usage

open UsageBoard.Document

structure UsageRecord where
  id : Option Int64
  userId : Option Int64
  username : Option String
  modelName : String
  /-- The start of the bucket in seconds since 1970. -/
  createdAt : Int64
  count : Int64
  quota : Float
  tokenUsed : Int64
deriving Inhabited

namespace UsageRecord

/-- The model name of the row that stands for an empty result. -/
def noDataModel : String := "no-data"

/-- The row that stands for an empty result, with nothing in it. -/
def placeholder (now : Int64) : UsageRecord :=
  ⟨none, none, none, noDataModel, now, 0, 0.0, 0⟩

def record : Record UsageRecord :=
  UsageRecord.mk <$> Record.optional "id" Decoder.int64
    <*> Record.optional "user_id" Decoder.int64
    <*> Record.optional "username" Decoder.string
    <*> Record.required "model_name" Decoder.string
    <*> Record.required "created_at" Decoder.lenientInt64
    <*> Record.defaulted "count" Decoder.lenientInt64 0
    <*> Record.defaulted "quota" Decoder.real 0.0
    <*> Record.defaulted "token_used" Decoder.lenientInt64 0

def decoder : Decoder UsageRecord := record.decoder "UsageRecord" .data

def given {α : Type} (name : String) (encode : α → Json) : Option α → List (String × Json)
  | none => []
  | some value => [(name, encode value)]

def toJson (r : UsageRecord) : Json :=
  .object (given "id" (fun n => .integer n.toInt) r.id ++
    given "user_id" (fun n => .integer n.toInt) r.userId ++
    given "username" .text r.username ++
    [("model_name", .text r.modelName), ("created_at", .integer r.createdAt.toInt),
      ("count", .integer r.count.toInt), ("quota", .real r.quota),
      ("token_used", .integer r.tokenUsed.toInt)])

end UsageRecord

structure CacheRecord where
  /-- The bucket as the backend writes it. -/
  time : String
  nonCacheTokens : Int64
  cacheHitTokens : Int64
deriving Inhabited, DecidableEq

namespace CacheRecord

def record : Record CacheRecord :=
  CacheRecord.mk <$> Record.required "time" Decoder.string
    <*> Record.defaulted "non_cache_tokens" Decoder.lenientInt64 0
    <*> Record.defaulted "cache_hit_tokens" Decoder.lenientInt64 0

def decoder : Decoder CacheRecord := record.decoder "CacheHitRecord" .data

def toJson (r : CacheRecord) : Json :=
  .object [("time", .text r.time), ("non_cache_tokens", .integer r.nonCacheTokens.toInt),
    ("cache_hit_tokens", .integer r.cacheHitTokens.toInt)]

end CacheRecord

end UsageBoard.Usage
