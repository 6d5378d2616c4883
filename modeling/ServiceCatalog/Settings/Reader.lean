import ServiceCatalog.Settings.Basic
import ServiceCatalog.Settings.Layer
/-! Settings from a tree of values. Whatever is absent keeps its default, except within a topic. -/
namespace ServiceCatalog

namespace StoreSettings

def ofSetting (v : Setting) : Option StoreSettings := do
  guard v.isRecord
  let d : StoreSettings := {}
  return {
    storage := ← v.member 0 "backend" (Setting.variant? Storage.names) d.storage,
    directory := ← v.member 1 "directory" Setting.text? d.directory,
    fetchTimeout := ← v.member 2 "fetch_timeout_ms" Setting.nat? d.fetchTimeout,
    saveTimeout := ← v.member 3 "save_timeout_ms" Setting.nat? d.saveTimeout }

end StoreSettings

namespace SinkSettings

def ofSetting (v : Setting) : Option SinkSettings := do
  guard v.isRecord
  let d : SinkSettings := {}
  return {
    path := ← v.member 0 "path" Setting.text? d.path,
    publishTimeout := ← v.member 1 "publish_timeout_ms" Setting.nat? d.publishTimeout }

end SinkSettings

/-- A number of 32 bits. -/
def Setting.nat32? (v : Setting) : Option Nat := do
  let n ← v.nat?
  if n < 1 <<< 32 then return n else none

def Topic.ofSetting (v : Setting) : Option Topic := do
  guard v.isRecord
  return {
    id := ← (← v.member? 0 "id").nat32?,
    name := ← (← v.member? 1 "name").text? }

namespace TopicSettings

def listOf : Setting → Option (List Topic)
  | .list vs => vs.mapM Topic.ofSetting
  | _ => none

def ofSetting (v : Setting) : Option TopicSettings := do
  guard v.isRecord
  let d : TopicSettings := {}
  return {
    ttlSeconds := ← v.member 0 "ttl_seconds" Setting.nat? d.ttlSeconds,
    list := ← v.member 1 "list" listOf d.list }

end TopicSettings

namespace LogSettings

def ofSetting (v : Setting) : Option LogSettings := do
  guard v.isRecord
  let d : LogSettings := {}
  return {
    level := ← v.member 0 "log_level" Setting.text? d.level,
    json := ← v.member 1 "json" Setting.bool? d.json }

end LogSettings

namespace Settings

def ofSetting (v : Setting) : Option Settings := do
  guard v.isRecord
  return {
    store := ← v.member 0 "store" StoreSettings.ofSetting {},
    sink := ← v.member 1 "sink" SinkSettings.ofSetting {},
    topics := ← v.member 2 "topics" TopicSettings.ofSetting {},
    log := ← v.member 3 "observability" LogSettings.ofSetting {} }

end Settings
end ServiceCatalog
