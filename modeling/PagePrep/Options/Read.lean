import PagePrep.Options.Decode
import PagePrep.Text.Json
import PagePrep.Text.Toml.Reader

namespace PagePrep

def PageOptions.ofJson? (text : String) : Option PageOptions :=
  (Json.parse? text).bind (Decode.pageOptions? .json)

def Config.ofToml? (text : String) : Option Config :=
  (Toml.parse? text).bind (Decode.config? .toml)

end PagePrep
