import TableMapper.CommandLine
import TableMapper.Dictionary
import TableMapper.Files.Access
import TableMapper.Files.Disk
import TableMapper.Generated.ItemTypes
import TableMapper.Generated.Mapper
import TableMapper.Generated.MapperFile
import TableMapper.Generated.Run
import TableMapper.Generated.SourceFile
import TableMapper.Generated.TableDescription
import TableMapper.Generated.Writing
import TableMapper.ImportPath
import TableMapper.Json.Basic
import TableMapper.JsonSchema.Basic
import TableMapper.JsonSchema.Pointer
import TableMapper.JsonSchema.Reading
import TableMapper.JsonSchema.TypeName
import TableMapper.JsonSchema.Typing
import TableMapper.Location
import TableMapper.Main
import TableMapper.Number
import TableMapper.Number.Binary64
import TableMapper.Number.Decimal
import TableMapper.Proofs.Dictionary
import TableMapper.Proofs.Except
import TableMapper.Proofs.Files.Following
import TableMapper.Proofs.Generated.ItemNames
import TableMapper.Proofs.Generated.ItemVariants
import TableMapper.Proofs.Generated.KeyAttributes
import TableMapper.Proofs.Generated.MapperFailure
import TableMapper.Proofs.Generated.MapperNames
import TableMapper.Proofs.Generated.PropertyTypes
import TableMapper.Proofs.Generated.RecordDocuments
import TableMapper.Proofs.Generated.RunAgain
import TableMapper.Proofs.Generated.RunEffects
import TableMapper.Proofs.Generated.RunFailure
import TableMapper.Proofs.Generated.Specifiers
import TableMapper.Proofs.Generated.Staging
import TableMapper.Proofs.Generated.TableReading
import TableMapper.Proofs.Generated.WrittenNames
import TableMapper.Proofs.ImportPath.Packages
import TableMapper.Proofs.ImportPath.Specifier
import TableMapper.Proofs.ImportPath.Way
import TableMapper.Proofs.Json.Compact
import TableMapper.Proofs.JsonSchema.Candidates
import TableMapper.Proofs.JsonSchema.Culprits
import TableMapper.Proofs.JsonSchema.DeclaredEnumerations
import TableMapper.Proofs.JsonSchema.Enumerations
import TableMapper.Proofs.JsonSchema.Expressed
import TableMapper.Proofs.JsonSchema.Meaning
import TableMapper.Proofs.JsonSchema.Nesting
import TableMapper.Proofs.JsonSchema.ObjectMembers
import TableMapper.Proofs.JsonSchema.ObjectsOfDocuments
import TableMapper.Proofs.JsonSchema.PartsRead
import TableMapper.Proofs.JsonSchema.Places
import TableMapper.Proofs.JsonSchema.PointerReading
import TableMapper.Proofs.JsonSchema.ReadingSteps
import TableMapper.Proofs.JsonSchema.ReasonReading
import TableMapper.Proofs.JsonSchema.Renumbering
import TableMapper.Proofs.JsonSchema.Sites
import TableMapper.Proofs.JsonSchema.SitesOfDocuments
import TableMapper.Proofs.Location.NormalForm
import TableMapper.Proofs.Location.Place
import TableMapper.Proofs.Location.Written
import TableMapper.Proofs.Number.Reading
import TableMapper.Proofs.Number.Rounding
import TableMapper.Proofs.Provider.WrittenForms
import TableMapper.Proofs.Settings.Contents
import TableMapper.Proofs.Settings.RecordContents
import TableMapper.Proofs.Settings.RoundTrip
import TableMapper.Proofs.Settings.Serialization
import TableMapper.Proofs.Settings.Shape
import TableMapper.Proofs.Text.Splitting
import TableMapper.Proofs.Text.Unquoting
import TableMapper.Proofs.TypeScript.CommentContents
import TableMapper.Proofs.TypeScript.Comments
import TableMapper.Proofs.TypeScript.Grids
import TableMapper.Proofs.TypeScript.Grouping
import TableMapper.Proofs.TypeScript.Indentation
import TableMapper.Proofs.TypeScript.LiteralGrammar
import TableMapper.Proofs.TypeScript.LiteralLines
import TableMapper.Proofs.TypeScript.MemberLists
import TableMapper.Proofs.TypeScript.Renaming
import TableMapper.Proofs.TypeScript.SingleQuotes
import TableMapper.Proofs.TypeScript.Statements
import TableMapper.Proofs.TypeScript.TextReading
import TableMapper.Proofs.TypeScript.Tokens
import TableMapper.Proofs.TypeScript.TypeReading
import TableMapper.Proofs.TypeScript.TypeText
import TableMapper.Proofs.TypeScript.TypeTree
import TableMapper.Proofs.TypeScript.WrittenTokens
import TableMapper.Provider
import TableMapper.Settings.Basic
import TableMapper.Settings.Error
import TableMapper.Settings.Loading
import TableMapper.Settings.Reading
import TableMapper.Settings.RecordSchema
import TableMapper.Text.Basic
import TableMapper.Text.Blank
import TableMapper.Text.Case
import TableMapper.Text.CaseTable
import TableMapper.Text.Cluster
import TableMapper.Text.ClusterTable
import TableMapper.Text.PrintableTable
import TableMapper.Text.Quoted
import TableMapper.Text.Shown
import TableMapper.Text.Words
import TableMapper.TypeScript.Declaration
import TableMapper.TypeScript.DocComment
import TableMapper.TypeScript.Identifier
import TableMapper.TypeScript.Literal
import TableMapper.TypeScript.TypeExpr
import TableMapper.Yaml.Cursor
import TableMapper.Yaml.Document
import TableMapper.Yaml.Error
import TableMapper.Yaml.Node
import TableMapper.Yaml.Scalar
import TableMapper.Yaml.ScalarText
import TableMapper.Yaml.Token
import TableMapper.Yaml.TokenStream
import TableMapper.Yaml.Tree
