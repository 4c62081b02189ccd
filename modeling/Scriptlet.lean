import Scriptlet.Command.Arguments
import Scriptlet.Command.Bracket
import Scriptlet.Command.Equation
import Scriptlet.Command.Form
import Scriptlet.Command.Split
import Scriptlet.Command.Sugar
import Scriptlet.CommandLine.Flag
import Scriptlet.CommandLine.Run
import Scriptlet.Config.Basic
import Scriptlet.Config.File
import Scriptlet.Config.Format
import Scriptlet.Console
import Scriptlet.Disk.Basic
import Scriptlet.Disk.Path
import Scriptlet.Env
import Scriptlet.Failure
import Scriptlet.Main
import Scriptlet.Number.Decimal
import Scriptlet.Number.Integer
import Scriptlet.Number.Power
import Scriptlet.Number.Remainder
import Scriptlet.Number.Shortest
import Scriptlet.Number.Word
import Scriptlet.Operator
import Scriptlet.Prompt
import Scriptlet.Proofs.Number.Bits
import Scriptlet.Proofs.Number.Nearest
import Scriptlet.Proofs.Number.Reading
import Scriptlet.Script.Action
import Scriptlet.Script.Builtin
import Scriptlet.Script.Loop
import Scriptlet.Script.Run
import Scriptlet.Script.Scope
import Scriptlet.Session.Basic
import Scriptlet.Session.Prelude
import Scriptlet.Store.Address
import Scriptlet.Store.Basic
import Scriptlet.Store.Database
import Scriptlet.Store.Fault
import Scriptlet.Store.File
import Scriptlet.Store.Image
import Scriptlet.Store.Memory
import Scriptlet.Text.Basic
import Scriptlet.Text.Blank
import Scriptlet.Text.Bytes
import Scriptlet.Text.Letter
import Scriptlet.Text.Quoted
import Scriptlet.Text.Visible
import Scriptlet.Value
import Scriptlet.Yaml.Binary
import Scriptlet.Yaml.Block
import Scriptlet.Yaml.Cursor
import Scriptlet.Yaml.Directive
import Scriptlet.Yaml.Node
import Scriptlet.Yaml.Printer
import Scriptlet.Yaml.Property
import Scriptlet.Yaml.Scalar
import Scriptlet.Yaml.Token
import Scriptlet.Yaml.Word
import Scriptlet.Proofs.Command.Equation
import Scriptlet.Proofs.Command.Bracket
import Scriptlet.Proofs.Command.Form
import Scriptlet.Proofs.Script.Evaluation
import Scriptlet.Proofs.Expression.Evaluation
import Scriptlet.Proofs.Expression.Print
import Scriptlet.Proofs.Command.Split
import Scriptlet.Proofs.Script.Branch
import Scriptlet.Proofs.Store.Tables
import Scriptlet.Proofs.Script.Source
import Scriptlet.Proofs.Script.Persist
import Scriptlet.Proofs.Store.Agreement
import Scriptlet.Proofs.Store.Image
import Scriptlet.Proofs.Text.Bytes
import Scriptlet.Proofs.Text.ByteOrder
import Scriptlet.Proofs.Store.Reopen
import Scriptlet.Proofs.Store.Exchange
import Scriptlet.Proofs.Script.Congruence
import Scriptlet.Proofs.Script.Scope
import Scriptlet.Proofs.Script.Limits
import Scriptlet.Proofs.Script.Termination
import Scriptlet.Proofs.Command.Join
import Scriptlet.Proofs.Script.Join
import Scriptlet.Proofs.Store.History
import Scriptlet.Proofs.Script.Loading
import Scriptlet.Proofs.Script.Console
import Scriptlet.Proofs.Prompt.Reading
import Scriptlet.Proofs.Prompt.Agreement
import Scriptlet.Proofs.Command.Arguments
import Scriptlet.Proofs.Command.Grammar
import Scriptlet.Proofs.Command.Literal
import Scriptlet.Proofs.Yaml.Cursor
import Scriptlet.Proofs.Yaml.Word
import Scriptlet.Proofs.Yaml.Block
import Scriptlet.Proofs.Yaml.Printer
import Scriptlet.Proofs.Yaml.Token
import Scriptlet.Proofs.Yaml.Node
import Scriptlet.Proofs.Yaml.Scalar
import Scriptlet.Proofs.Config.Format
import Scriptlet.Proofs.Disk.Path
import Scriptlet.Proofs.Config.File
import Scriptlet.Proofs.Command.Shape
import Scriptlet.Proofs.Script.Definition
import Scriptlet.Proofs.Expression.Exponent
import Scriptlet.Proofs.Script.PlainText
import Scriptlet.Proofs.Command.Expansion
import Scriptlet.Proofs.Command.Incomplete
import Scriptlet.Proofs.Command.Reread
import Scriptlet.Proofs.Script.Choice
import Scriptlet.Proofs.Script.Prelude
import Scriptlet.Proofs.Command.Nesting
import Scriptlet.Proofs.Command.Counting
import Scriptlet.Proofs.Script.Rounds
import Scriptlet.Proofs.Prompt.Groups
import Scriptlet.Proofs.Command.Bytes
import Scriptlet.Proofs.Command.Items
import Scriptlet.Proofs.Command.Matching
