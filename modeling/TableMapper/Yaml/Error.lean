/-
TableMapper.Yaml.Error — why a text is no YAML document.
-/

namespace TableMapper.Yaml

/-- What is wrong with a text. -/
inductive Problem where
  | controlCharacter
  | strayCharacter
  | misplacedEntry
  | misplacedKey
  | misplacedValue
  | unfinishedKey
  | badDirective
  | badAnchor
  | badTag
  | badBlockHeader
  | tabInIndentation
  | markerInQuotes
  | unclosedQuotes
  | badEscape
  | colonInFlow
  | wrongVersion
  | unknownTagHandle
  | missingDocumentStart
  | missingContent
  | missingEntry
  | missingKey
  | missingComma
  | unknownAnchor
  | severalDocuments
  | localTag
  | badTaggedValue
  | hugeInteger
  | duplicateKey
  | tooDeep
  | tooManyAliases
deriving DecidableEq, Repr

/-- The wording of a problem. -/
def Problem.message : Problem → String
  | .controlCharacter => "control characters are not allowed"
  | .strayCharacter => "found character that cannot start any token"
  | .misplacedEntry => "block sequence entries are not allowed in this context"
  | .misplacedKey => "mapping keys are not allowed in this context"
  | .misplacedValue => "mapping values are not allowed in this context"
  | .unfinishedKey => "could not find expected ':'"
  | .badDirective => "found a malformed directive"
  | .badAnchor => "did not find expected alphabetic or numeric character"
  | .badTag => "did not find expected tag URI"
  | .badBlockHeader => "did not find expected comment or line break"
  | .tabInIndentation => "found a tab character where an indentation space is expected"
  | .markerInQuotes => "found unexpected document indicator"
  | .unclosedQuotes => "found unexpected end of stream"
  | .badEscape => "found unknown escape character"
  | .colonInFlow => "found unexpected ':'"
  | .wrongVersion => "found incompatible YAML document"
  | .unknownTagHandle => "found undefined tag handle"
  | .missingDocumentStart => "did not find expected <document start>"
  | .missingContent => "did not find expected node content"
  | .missingEntry => "did not find expected '-' indicator"
  | .missingKey => "did not find expected key"
  | .missingComma => "did not find expected ',' or a closing bracket"
  | .unknownAnchor => "unknown anchor"
  | .severalDocuments => "deserializing from YAML containing more than one document is not supported"
  | .localTag => "local tags are not supported"
  | .badTaggedValue => "the value does not fit its tag"
  | .hugeInteger => "the integer is out of range"
  | .duplicateKey => "duplicate entry"
  | .tooDeep => "recursion limit exceeded"
  | .tooManyAliases => "repetition limit exceeded"

end TableMapper.Yaml
