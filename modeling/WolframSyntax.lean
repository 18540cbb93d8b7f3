import WolframSyntax.Command.Desk
import WolframSyntax.Main
import WolframSyntax.Message.Bundle
import WolframSyntax.Reading.Session
import WolframSyntax.Production.Build
import WolframSyntax.Config.Report
import WolframSyntax.Config.Basic
import WolframSyntax.Resolve.Symbol
import WolframSyntax.Scope.Classifier
import WolframSyntax.Scope.Construct
import WolframSyntax.Forest.Edit
import WolframSyntax.Tree.Output
import WolframSyntax.Json.Reader
import WolframSyntax.Json.Printer
import WolframSyntax.Json.Display
import WolframSyntax.Number.Binary64
import WolframSyntax.Text.Lowercase
import WolframSyntax.Text.CodeRanges
import WolframSyntax.Tree.FullForm
import WolframSyntax.Token.Cursor
import WolframSyntax.Reading.File
import WolframSyntax.Proofs.Lossless
import WolframSyntax.Proofs.FullForm
import WolframSyntax.Proofs.Climbing
import WolframSyntax.Proofs.Inquiry
import WolframSyntax.Proofs.Definitions
import WolframSyntax.Proofs.Positions
import WolframSyntax.Proofs.Arguments
import WolframSyntax.Proofs.Assembling
import WolframSyntax.Proofs.Accepting
import WolframSyntax.Proofs.Strays
import WolframSyntax.Proofs.Resolving
import WolframSyntax.Proofs.Locality
import WolframSyntax.Proofs.Mappings
import WolframSyntax.Proofs.Updates
import WolframSyntax.Proofs.Histories
import WolframSyntax.Proofs.Reporting
import WolframSyntax.Proofs.Factors
import WolframSyntax.Proofs.Multiplying
import WolframSyntax.Proofs.Spacing
import WolframSyntax.Proofs.Renaming
import WolframSyntax.Proofs.Placing
import WolframSyntax.Proofs.Versions
import WolframSyntax.Proofs.Prompting
import WolframSyntax.Proofs.Blanks
import WolframSyntax.Proofs.Making
import WolframSyntax.Proofs.Refusals
import WolframSyntax.Proofs.Advancing
import WolframSyntax.Proofs.Parsing
