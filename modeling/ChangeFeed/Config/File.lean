import ChangeFeed.Config.Codec
import ChangeFeed.Yaml.Printer
import ChangeFeed.Yaml.Tree

namespace ChangeFeed.SyncConfig

def supportedVersions : List UInt32 := [1]

def ofFile (f : ConfigFile) : Except ConfigError SyncConfig := do
  match f.version with
  | none => throw .missingVersion
  | some v =>
    if v ∉ supportedVersions then
      throw (.unsupportedVersion v.toNat (supportedVersions.map (·.toNat)))
  f.config.validate
  return f.config

def ofYaml (text : String) : Except ConfigError SyncConfig :=
  match Yaml.Node.parse? text >>= ConfigFile.ofTree? with
  | none => .error .yaml
  | some f => ofFile f

/-- Reads the content of a file; `none` is a file that does not exist. The version is looked at before
anything else that the text says. -/
def ofContent : Option ByteArray → Except ConfigError SyncConfig
  | none => .error (.io "No such file or directory (os error 2)")
  | some bytes =>
    match String.fromUTF8? bytes with
    | none => .error (.io "stream did not contain valid UTF-8")
    | some text => ofYaml text

def toYaml (c : SyncConfig) : String := Yaml.Printer.print (ConfigFile.mk (some 1) c).toData

end ChangeFeed.SyncConfig
