import ChangeFeed.Codec
import ChangeFeed.Config.Basic

namespace ChangeFeed

namespace FailurePolicy

def toData (p : FailurePolicy) : Data := .text p.name

def ofTree? {ν : Type} [Tree ν] : ν → Option FailurePolicy := Tree.oneOf? all name

end FailurePolicy

namespace TimeUnit

def toData (u : TimeUnit) : Data := .text u.name

def ofTree? {ν : Type} [Tree ν] : ν → Option TimeUnit := Tree.oneOf? all name

end TimeUnit

namespace PollingConfig

def toData (p : PollingConfig) : Data :=
  .record [
    ("interval", .ofNat p.interval.toNat),
    ("unit", p.unit.toData),
    ("batch_size", .ofNat p.batchSize.toNat),
    ("window_size", .ofNat p.windowSize.toNat),
    ("consumer_failure", p.policy.toData)]

def ofTree? {ν : Type} [Tree ν] (t : ν) : Option PollingConfig := do
  let [interval, unit, batchSize, windowSize, policy] ←
    Tree.fields true ["interval", "unit", "batch_size", "window_size", "consumer_failure"] t | none
  return {
    interval := ← Tree.orElse interval 500 Tree.uint64?
    unit := ← Tree.orElse unit .milliseconds TimeUnit.ofTree?
    batchSize := ← Tree.orElse batchSize 100 Tree.uint64?
    windowSize := ← Tree.orElse windowSize 100 Tree.uint64?
    policy := ← Tree.orElse policy .abort FailurePolicy.ofTree? }

end PollingConfig

namespace IndexConfig

def toData (i : IndexConfig) : Data :=
  .record [("page_size", .ofNat i.pageSize.toNat), ("text_fields", .ofTexts i.textFields)]

def ofTree? {ν : Type} [Tree ν] (t : ν) : Option IndexConfig := do
  let [pageSize, textFields] ← Tree.fields true ["page_size", "text_fields"] t | none
  return {
    pageSize := ← Tree.orElse pageSize 100 Tree.uint64?
    textFields := ← Tree.orElse textFields [] Tree.texts? }

end IndexConfig

namespace EmbedConfig

def toData (e : EmbedConfig) : Data :=
  .record [("entity_type", .text e.entityType), ("id_fields", .ofTexts e.idFields)]

def ofTree? {ν : Type} [Tree ν] (t : ν) : Option EmbedConfig := do
  let [entityType, idFields] ← Tree.fields true ["entity_type", "id_fields"] t | none
  return { entityType := ← entityType >>= Tree.text?, idFields := ← idFields >>= Tree.texts? }

end EmbedConfig

namespace RootConfig

def toData (r : RootConfig) : Data :=
  .record [("entity_type", .text r.entityType), ("embeds", .list (r.embeds.map EmbedConfig.toData))]

def ofTree? {ν : Type} [Tree ν] (t : ν) : Option RootConfig := do
  let [entityType, embeds] ← Tree.fields true ["entity_type", "embeds"] t | none
  return {
    entityType := ← entityType >>= Tree.text?
    embeds := ← Tree.orElse embeds [] (Tree.list? EmbedConfig.ofTree?) }

end RootConfig

structure ConfigFile where
  version : Option UInt32 := none
  config : SyncConfig := {}
  deriving DecidableEq

namespace ConfigFile

def versionData : Option UInt32 → Data
  | none => .null
  | some n => .ofNat n.toNat

def versionOfTree? {ν : Type} [Tree ν] (t : ν) : Option (Option UInt32) := do
  match ← Tree.optional? t with
  | none => some none
  | some t => some <$> Tree.uint32? t

def toData (f : ConfigFile) : Data :=
  .record [
    ("version", versionData f.version),
    ("polling", f.config.polling.toData),
    ("index", f.config.index.toData),
    ("log_tables", .list (f.config.logTables.map LogModel.toData)),
    ("roots", .list (f.config.roots.map RootConfig.toData))]

def ofTree? {ν : Type} [Tree ν] (t : ν) : Option ConfigFile := do
  let [version, polling, index, logTables, roots] ←
    Tree.fields true ["version", "polling", "index", "log_tables", "roots"] t | none
  return {
    version := ← Tree.orElse version none versionOfTree?
    config := {
      polling := ← Tree.orElse polling {} PollingConfig.ofTree?
      index := ← Tree.orElse index {} IndexConfig.ofTree?
      logTables := ← Tree.orElse logTables [] (Tree.list? LogModel.ofTree?)
      roots := ← Tree.orElse roots [] (Tree.list? RootConfig.ofTree?) } }

end ConfigFile

end ChangeFeed
