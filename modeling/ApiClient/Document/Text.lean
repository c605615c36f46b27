import ApiClient.Document.Reader
import ApiClient.Json.Reader
import ApiClient.Text.Pieces
import ApiClient.Yaml.Reader

namespace ApiClient

def Document.ofYamlText (text : String) : Except Failure Document :=
  match Yaml.json? text with
  | some tree => Document.ofJson tree
  | none => .error .documentYaml

/-- What stands behind the last dot of a file name, unless that dot is its first character. -/
def fileExtension? (path : List Char) : Option (List Char) :=
  let name := (path.reverse.takeWhile (· != '/')).reverse
  match (name.splitOnP (· == '.')).reverse with
  | last :: before :: more => if before.isEmpty ∧ more.isEmpty then none else some last
  | _ => none

def Document.ofFile (path : String) : Option String → Except Failure Document
  | none => .error .documentFile
  | some text =>
    if (fileExtension? path.toList).map (·.map Char.toLower) = some "json".toList then
      Document.ofJsonText text
    else Document.ofYamlText text

end ApiClient
