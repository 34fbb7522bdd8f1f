import WorkMarket.Command.Request
import WorkMarket.Text.Json.Reader
import WorkMarket.Text.Record.Config
import WorkMarket.Text.Yaml.Reader

/-!
# Configuration files

A file whose name ends in `.json` holds the configuration as JSON; every other
file holds it as YAML.
-/

namespace WorkMarket
namespace ConfigFile

/-- The last part of a path. -/
def baseName
    (path : List Char) :
    List Char :=
  ((path.reverse.dropWhile (· = '/')).takeWhile (· ≠ '/')).reverse

/-- Whether a path names a JSON file.  A name needs something before its
ending. -/
def isJson
    (path : String) :
    Bool :=
  let name := baseName path.toList
  5 < name.length && ['.', 'j', 's', 'o', 'n'].isSuffixOf name

/-- Read a file of so a path that holds a text. -/
def read
    (path text : String) :
    Except Failure (Config Float) :=
  if isJson path then
    match (Json.read? text).bind (Config.ofFormat? Json.format) with
    | some config => .ok config
    | none => .error .json
  else
    let config := (Yaml.Document.read? text).bind fun document =>
      Config.ofFormat? document.format document.root
    match config with
    | some config => .ok config
    | none => .error .yaml

end ConfigFile

namespace Request

/-- A request together with the file it names, which was read by `contents`. -/
def load
    (request : Request)
    (contents : Except FileFault String) :
    Except Failure Request :=
  match request.configFile with
  | none => .ok request
  | some path => do
      let text ← contents.mapError .file
      return request.withFile (← ConfigFile.read path text)

end Request
end WorkMarket
