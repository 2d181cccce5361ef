import SuiteShift.Main
import SuiteShift.Outline
import SuiteShift.Proofs.Rule.Code
import SuiteShift.Proofs.Lowering.Outcome
import SuiteShift.Proofs.Lowering.Step
import SuiteShift.Proofs.Lowering.Chain
import SuiteShift.Proofs.Lowering.Accounting
import SuiteShift.Proofs.Lowering.ChainOrder
import SuiteShift.Proofs.Path.Components
import SuiteShift.Proofs.Literal.Identifier
import SuiteShift.Proofs.Lowering.Imports
import SuiteShift.Proofs.CustomCommand.Shape
import SuiteShift.Proofs.Output.Layout
import SuiteShift.Proofs.Output.Support
import SuiteShift.Proofs.Output.ImportLine
import SuiteShift.Proofs.Output.TestFile
import SuiteShift.Proofs.Output.ImportClosure
import SuiteShift.Proofs.Workspace.Location
import SuiteShift.Proofs.Path.Join
import SuiteShift.Proofs.Workspace.Keeps
import SuiteShift.Proofs.Workspace.Edit
import SuiteShift.Proofs.Conversion.Writing
import SuiteShift.Proofs.Output.Paths
import SuiteShift.Proofs.Conversion.Distinct
import SuiteShift.Proofs.Rule.Receiver
import SuiteShift.Proofs.Lowering.Effect
import SuiteShift.Proofs.Lowering.Silence
import SuiteShift.Proofs.Text.Mark
import SuiteShift.Proofs.Literal.Mark
import SuiteShift.Proofs.Rule.CallMark
import SuiteShift.Proofs.Lowering.Mark
import SuiteShift.Proofs.CustomCommand.Name
import SuiteShift.Proofs.Output.SpecOrder
import SuiteShift.Proofs.Output.FirstCalls
import SuiteShift.Proofs.Output.TodoCount
import SuiteShift.Proofs.Output.Totals
import SuiteShift.Proofs.Lowering.LoneCall
import SuiteShift.Proofs.Literal.Nesting
import SuiteShift.Proofs.Literal.Quoted
import SuiteShift.Proofs.Number.Numeral
import SuiteShift.Proofs.CustomCommand.CallText
import SuiteShift.Proofs.Spec.Shape
import SuiteShift.Proofs.Spec.Accounting
import SuiteShift.Proofs.Lowering.AliasWait
import SuiteShift.Proofs.Output.Placement
import SuiteShift.Proofs.Output.TemplateText
import SuiteShift.Proofs.Output.NestedCalls
import SuiteShift.Proofs.Text.Declared
import SuiteShift.Proofs.CustomCommand.Declaration
import SuiteShift.Proofs.Output.SupportNames
import SuiteShift.Proofs.CustomCommand.RegistrationText
import SuiteShift.Proofs.Workspace.Refusal
import SuiteShift.Proofs.Conversion.Discovery
import SuiteShift.Proofs.Conversion.Effects
import SuiteShift.Proofs.Conversion.Registrations
import SuiteShift.Proofs.CustomCommand.PageCapture
import SuiteShift.Proofs.Literal.Arguments
import SuiteShift.Proofs.Literal.RoundTrip
import SuiteShift.Proofs.Script.StringLiteral
import SuiteShift.Proofs.Spec.StringValue
import SuiteShift.Proofs.Rule.AttributeSelector
import SuiteShift.Proofs.Rule.TypedText
import SuiteShift.Proofs.CustomCommand.ParameterPattern
import SuiteShift.Proofs.CustomCommand.BodyComment
import SuiteShift.Proofs.CustomCommand.LineRebinding
import SuiteShift.Proofs.CustomCommand.CallbackLine
import SuiteShift.Proofs.CustomCommand.Navigation
import SuiteShift.Proofs.Script.TemplateLiteral
import SuiteShift.Proofs.Script.Regex
import SuiteShift.Proofs.Lowering.AssertionPattern
import SuiteShift.Proofs.CustomCommand.StubText
import SuiteShift.Proofs.CustomCommand.Consistency
import SuiteShift.Proofs.Script.IdentifierName
import SuiteShift.Proofs.Text.CasedLetter
import SuiteShift.Proofs.Literal.BindingIdentifier
import SuiteShift.Proofs.Spec.DriverChain
import SuiteShift.Proofs.Output.RawText
import SuiteShift.Proofs.Literal.Partner
import SuiteShift.Proofs.Rule.Substitution
