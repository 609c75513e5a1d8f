import ChangeFeed.Config.File
import ChangeFeed.Proofs.Yaml.Tree

namespace ChangeFeed

namespace Yaml

theorem Named.texts (l : List String) : Named (.ofTexts l) :=
  .list (List.forall_mem_map.2 fun s _ => .text s)

theorem Named.map {α : Type} {write : α → Data} (h : ∀ a, Named (write a)) (l : List α) :
    Named (.list (l.map write)) :=
  .list (List.forall_mem_map.2 fun a _ => h a)

theorem named_idMapping (m : IdMapping) : Named m.toData :=
  .record (by simp [isName, Plain.isWordChar]) (by simp [Named.text, Named.texts, ColumnType.toData])

theorem named_logModel (m : LogModel) : Named m.toData :=
  .record (by simp [isName, Plain.isWordChar]) (by simp [Named.text, Named.map named_idMapping])

theorem named_polling (p : PollingConfig) : Named p.toData :=
  .record (by simp [isName, Plain.isWordChar])
    (by simp [Named.text, Named.int, Data.ofNat, TimeUnit.toData, FailurePolicy.toData])

theorem named_index (i : IndexConfig) : Named i.toData :=
  .record (by simp [isName, Plain.isWordChar]) (by simp [Named.int, Data.ofNat, Named.texts])

theorem named_embed (e : EmbedConfig) : Named e.toData :=
  .record (by simp [isName, Plain.isWordChar]) (by simp [Named.text, Named.texts])

theorem named_root (r : RootConfig) : Named r.toData :=
  .record (by simp [isName, Plain.isWordChar]) (by simp [Named.text, Named.map named_embed])

theorem named_version (v : Option UInt32) : Named (ConfigFile.versionData v) := by
  cases v with
  | none => exact .null
  | some n => exact .int n.toNat

theorem named_file (f : ConfigFile) : Named f.toData :=
  .record (by simp [isName, Plain.isWordChar])
    (by simp [named_version, named_polling, named_index, Named.map named_logModel, Named.map named_root])

end Yaml

theorem ConfigFile.parse?_print (f : ConfigFile) :
    Yaml.Node.parse? (Yaml.Printer.print f.toData) >>= ofTree? = some f := by
  rw [toData, Yaml.Node.parse?_print (Yaml.named_file f)]
  exact ConfigFile.ofTree?_toData Yaml.faithful f

namespace SyncConfig

variable {c : SyncConfig}

theorem ofFile_current (h : c.validate = .ok ()) : ofFile ⟨some 1, c⟩ = .ok c := by
  rw [ofFile]
  dsimp only
  rw [h]
  rfl

/-- A valid configuration is read back from its YAML text as it was. -/
theorem ofYaml_toYaml (h : c.validate = .ok ()) : ofYaml (toYaml c) = .ok c := by
  rw [ofYaml, toYaml, ConfigFile.parse?_print]
  exact ofFile_current h

end SyncConfig

end ChangeFeed

namespace ChangeFeed.Sample

/-- Names that read as something else, that need quotes or escapes, and that have lines. -/
def awkwardConfig : SyncConfig where
  polling := { interval := 18446744073709551615, unit := .minutes }
  index := { textFields := ["", "- a", "it's: #1", "line\n  line\n"] }
  logTables := [{
    logTable := "0x1F"
    watchedTable := "tab\there \u2028"
    ids := [{ entityType := "null", logColumns := ["true", " "], watchedColumns := ["~", "007"] }] }]
  roots := [{ entityType := "1e3", embeds := [{ entityType := "null", idFields := ["\n", "\"\\'"] }] }]

theorem ofYaml_awkwardConfig : awkwardConfig.validate = .ok () ∧
    SyncConfig.ofYaml (SyncConfig.toYaml awkwardConfig) = .ok awkwardConfig := by
  have hvalid : awkwardConfig.validate = .ok () := by rfl
  exact ⟨hvalid, SyncConfig.ofYaml_toYaml hvalid⟩

end ChangeFeed.Sample
