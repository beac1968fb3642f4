import HeaderBindings.Header.Block
import HeaderBindings.Declarator
import HeaderBindings.DocComment
import HeaderBindings.Conventions
import HeaderBindings.Diagnostic
import HeaderBindings.Declarations.Listing
import HeaderBindings.Declarations.Collect
import HeaderBindings.Types.Method
import HeaderBindings.Overrides
import HeaderBindings.Module.Render
import HeaderBindings.Module.Assemble
import HeaderBindings.Files.Path
import HeaderBindings.Toml.Value
import HeaderBindings.Toml.Parser
import HeaderBindings.Config
import HeaderBindings.Files.Tree
import HeaderBindings.Run.Run
import HeaderBindings.Main
import HeaderBindings.Proofs.Header.AliasNames
import HeaderBindings.Proofs.Types.Following
import HeaderBindings.Proofs.Types.Settling
import HeaderBindings.Proofs.Types.Derivation
import HeaderBindings.Proofs.Header.Diagnostics
import HeaderBindings.Proofs.Run.Readings
import HeaderBindings.Proofs.Types.Missing
import HeaderBindings.Proofs.Module.Contents
import HeaderBindings.Proofs.Types.Extension
import HeaderBindings.Proofs.Run.Completeness
import HeaderBindings.Proofs.Module.Arity
import HeaderBindings.Proofs.Text.Words
import HeaderBindings.Proofs.Text.Finding
import HeaderBindings.Proofs.Text.Symbols
import HeaderBindings.Proofs.Header.Layout
import HeaderBindings.Proofs.Text.WholeWords
import HeaderBindings.Proofs.Header.Written
import HeaderBindings.Proofs.Header.NamePlaces
import HeaderBindings.Proofs.Header.Declarators
import HeaderBindings.Proofs.Header.Prototypes
import HeaderBindings.Proofs.Header.Functions
import HeaderBindings.Proofs.Header.Structs
import HeaderBindings.Proofs.Header.SharedTypes
import HeaderBindings.Proofs.Header.Respacing
import HeaderBindings.Proofs.Header.Enums
import HeaderBindings.Proofs.Header.Fates
import HeaderBindings.Proofs.Header.Deprecated
import HeaderBindings.Proofs.Header.Documentation
import HeaderBindings.Proofs.Module.Prologue
import HeaderBindings.Proofs.Module.Classes
import HeaderBindings.Proofs.Module.References
import HeaderBindings.Proofs.Module.Attachment
import HeaderBindings.Proofs.Text.Lines
import HeaderBindings.Proofs.Text.Demands
import HeaderBindings.Proofs.Header.Resuming
import HeaderBindings.Proofs.Header.PlainComments
import HeaderBindings.Proofs.Header.Placement
import HeaderBindings.Proofs.Header.Isolation
import HeaderBindings.Proofs.Header.Concatenation
import HeaderBindings.Proofs.Header.LineShapes
import HeaderBindings.Proofs.Header.Skipping
import HeaderBindings.Proofs.Header.WrittenDeclarations
import HeaderBindings.Proofs.Header.Mixture
import HeaderBindings.Proofs.Types.Inheritance
import HeaderBindings.Proofs.Types.Growth
import HeaderBindings.Proofs.Types.HeaderOrder
import HeaderBindings.Proofs.Files.Storing
import HeaderBindings.Proofs.Run.Writing
import HeaderBindings.Proofs.Run.Dash
import HeaderBindings.Proofs.Header.Tokens
import HeaderBindings.Proofs.Header.TypeNames
import HeaderBindings.Proofs.Header.Spellings
import HeaderBindings.Proofs.Header.DeclaredTypes
import HeaderBindings.Proofs.Types.TypedefNames
import HeaderBindings.Proofs.Header.SpelledDeclarators
import HeaderBindings.Proofs.Run.Modes
import HeaderBindings.Proofs.Docs.Grouping
import HeaderBindings.Proofs.Docs.Directions
import HeaderBindings.Proofs.Header.LineBreaks
import HeaderBindings.Proofs.Docs.Results
import HeaderBindings.Proofs.Module.ConstantNames
import HeaderBindings.Proofs.Module.MethodNames
import HeaderBindings.Proofs.Module.MethodDocs
import HeaderBindings.Proofs.Module.MethodLinks
import HeaderBindings.Proofs.Header.ConstantLines
import HeaderBindings.Proofs.Header.ConstantValues
import HeaderBindings.Proofs.Module.Docstrings
import HeaderBindings.Proofs.Module.ConstantOrder
import HeaderBindings.Proofs.Module.DerivedNames
import HeaderBindings.Proofs.Overrides.Sections
import HeaderBindings.Proofs.Overrides.Methods
