import ServiceCatalog.Settings.Basic
/-! Settings in JSON. Anything may be left out except within a topic. -/
namespace ServiceCatalog

/-- The text of a path. -/
def pathText : Json → Decoded String
  | .str s => .ok s
  | j => Decode.wrongType "path string" j

namespace StoreSettings

def toJson (s : StoreSettings) : Json :=
  .obj [("backend", .str s.storage.text), ("directory", .str s.directory),
    ("fetch_timeout_ms", .nat s.fetchTimeout), ("save_timeout_ms", .nat s.saveTimeout)]

def fields : Decode.Fields StoreSettings :=
  let d : StoreSettings := {}
  StoreSettings.mk <$> .withDefault "backend" d.storage (Decode.variant false Storage.names)
    <*> .withDefault "directory" d.directory pathText
    <*> .withDefault "fetch_timeout_ms" d.fetchTimeout Decode.u64
    <*> .withDefault "save_timeout_ms" d.saveTimeout Decode.u64

def ofJson : Json → Decoded StoreSettings := Decode.record false "struct StoreConfig" fields

end StoreSettings

namespace SinkSettings

def toJson (s : SinkSettings) : Json :=
  .obj [("path", .str s.path), ("publish_timeout_ms", .nat s.publishTimeout)]

def fields : Decode.Fields SinkSettings :=
  let d : SinkSettings := {}
  SinkSettings.mk <$> .withDefault "path" d.path pathText
    <*> .withDefault "publish_timeout_ms" d.publishTimeout Decode.u64

def ofJson : Json → Decoded SinkSettings := Decode.record false "struct SinkConfig" fields

end SinkSettings

namespace TopicSettings

def toJson (s : TopicSettings) : Json :=
  .obj [("ttl_seconds", .nat s.ttlSeconds), ("list", .arr (s.list.map Topic.toJson))]

def fields : Decode.Fields TopicSettings :=
  let d : TopicSettings := {}
  TopicSettings.mk <$> .withDefault "ttl_seconds" d.ttlSeconds Decode.u64
    <*> .withDefault "list" d.list (Decode.list Topic.ofJson)

def ofJson : Json → Decoded TopicSettings := Decode.record false "struct TopicsConfig" fields

end TopicSettings

namespace LogSettings

def toJson (s : LogSettings) : Json := .obj [("log_level", .str s.level), ("json", .bool s.json)]

def fields : Decode.Fields LogSettings :=
  let d : LogSettings := {}
  LogSettings.mk <$> .withDefault "log_level" d.level Decode.string
    <*> .withDefault "json" d.json Decode.bool

def ofJson : Json → Decoded LogSettings := Decode.record false "struct ObservabilityConfig" fields

end LogSettings

namespace Settings

def toJson (s : Settings) : Json :=
  .obj [("store", s.store.toJson), ("sink", s.sink.toJson), ("topics", s.topics.toJson),
    ("observability", s.log.toJson)]

def fields : Decode.Fields Settings :=
  Settings.mk <$> .withDefault "store" {} StoreSettings.ofJson
    <*> .withDefault "sink" {} SinkSettings.ofJson
    <*> .withDefault "topics" {} TopicSettings.ofJson
    <*> .withDefault "observability" {} LogSettings.ofJson

def ofJson : Json → Decoded Settings := Decode.record false "struct ServicesCmsConfig" fields

end Settings
end ServiceCatalog
