import PagePrep.Options.Read
import PagePrep.Store.Basic

namespace PagePrep.Store

def localConfig : String := "ocr-preprocess.toml"

-- Where a configuration file is looked for: in the directory that paths start from, and then in the
-- one for configurations of the user, if there is one.
def configPaths (userDirectory : Option String) : List String :=
  localConfig :: userDirectory.toList.map fun directory =>
    Path.join (Path.join directory "ocr-preprocess") "config.toml"

def loadConfigFrom (s : Store) (path : String) : Except ConfigError Config := do
  if !s.contains path then
    throw (.notFound path)
  let content ← (s.read path).mapError fun e => .read path e.message
  match content.toText? with
  | none      => throw (.read path "stream did not contain valid UTF-8")
  | some text =>
    match Config.ofToml? text with
    | some config => return config
    | none        => throw (.parse path "not a configuration")

-- The first file there is counts, even if it can not be read. Without any, all options keep their
-- defaults.
def loadConfig (s : Store) (userDirectory : Option String) : Except ConfigError Config :=
  match (configPaths userDirectory).find? s.isFile with
  | some path => s.loadConfigFrom path
  | none      => .ok {}

end PagePrep.Store
