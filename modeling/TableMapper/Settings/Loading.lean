/-
TableMapper.Settings.Loading — a configuration from a text or a file.
-/
import TableMapper.Files.Access
import TableMapper.Settings.Reading
import TableMapper.Yaml.Document

namespace TableMapper

/-- Why there is no configuration. -/
inductive LoadError where
  | missing (path : String)
  | unreadable (path : String) (error : FileError)
  | notYaml (problem : Yaml.Problem)
  | malformed (error : Settings.ShapeError)

namespace LoadError

/-- The wording of the error. -/
def message : LoadError → String
  | missing path => "config file \"" ++ path ++ "\" does not exist"
  | unreadable path _ => "failed to read config file \"" ++ path ++ "\""
  | notYaml problem => "invalid config: " ++ problem.message
  | malformed error => "invalid config: " ++ error.message

/-- The wording of what is behind the error. -/
def causes : LoadError → List String
  | missing _ => []
  | unreadable _ error => [error.message]
  | notYaml problem => [problem.message]
  | malformed error => [error.message]

end LoadError

namespace Settings

/-- The configuration of a document. -/
def ofDocument (node : Yaml.Node) : Except LoadError Settings :=
  (ofNode node).mapError .malformed

/-- The configuration of a YAML text. -/
def ofText (text : String) : Except LoadError Settings := do
  ofDocument (← (Yaml.Node.ofText text).mapError .notYaml)

/-- The configuration of a file. -/
def load {m : Type → Type} [Monad m] (files : FileAccess m) (path : String) :
    m (Except LoadError Settings) := do
  match ← files.readText path with
  | .ok text => return ofText text
  | .error .missing => return .error (.missing path)
  | .error e => return .error (.unreadable path e)

end Settings

end TableMapper
