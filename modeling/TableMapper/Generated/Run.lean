/-
TableMapper.Generated.Run — the files of all mappers of a
configuration.
-/
import TableMapper.Generated.Mapper

namespace TableMapper

open TypeScript (Style)

/-- A mapper of that name fails. -/
structure GenerationError where
  mapper : String
  error : MapperError
deriving DecidableEq, Repr

namespace GenerationError

/-- The wording of the error. -/
def message (e : GenerationError) : String := "failed to generate mapper `" ++ e.mapper ++ "`"

/-- The wording of what is behind the error. -/
def causes (e : GenerationError) : List String := e.error.message :: e.error.causes

end GenerationError

namespace Settings

/-- The mappers of named settings, or the first of them that is
none. -/
def mappersOf : Fields MapperSettings → Except GenerationError (List Mapper)
  | [] => .ok []
  | (name, s) :: rest =>
    match Mapper.ofSettings name s with
    | .error e => .error ⟨name, e⟩
    | .ok m => do return m :: (← mappersOf rest)

/-- Stages the files of mappers one after the other; a mapper that
fails stages nothing, and ends the run. -/
def stageMappers (style : Style) (base : Location) (staging : Staging) :
    List Mapper → Except GenerationError Staging
  | [] => .ok staging
  | m :: rest =>
    match m.generate style base with
    | .error e => .error ⟨m.name, e⟩
    | .ok files => stageMappers style base (staging.stage files) rest

/-- The files of a configuration, seen from a working directory. Every
mapper has to be one before any file is generated. -/
def generateFiles (s : Settings) (style : Style) (base : Location) :
    Except GenerationError (List SourceFile) := do
  let mappers ← mappersOf s.mappers.entries
  return (← stageMappers style base {} mappers).files

end Settings

end TableMapper
