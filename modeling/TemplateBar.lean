import TemplateBar.CommandLine.Arguments
import TemplateBar.CommandLine.Environment
import TemplateBar.CommandLine.Flag
import TemplateBar.CommandLine.Help
import TemplateBar.CommandLine.Run
import TemplateBar.CommandLine.Variable
import TemplateBar.Config.Basic
import TemplateBar.Config.File
import TemplateBar.Config.Module
import TemplateBar.Config.Translations
import TemplateBar.Config.Window
import TemplateBar.Decimal.Basic
import TemplateBar.Decimal.Layout
import TemplateBar.Decimal.Literal
import TemplateBar.Decimal.Shortest
import TemplateBar.Dict
import TemplateBar.Error
import TemplateBar.Host.Bridge
import TemplateBar.Host.Brightness
import TemplateBar.Host.Command
import TemplateBar.Host.Effect
import TemplateBar.Icon.Catalog
import TemplateBar.Icon.Node
import TemplateBar.Icon.Token
import TemplateBar.Item.Basic
import TemplateBar.Item.Function
import TemplateBar.Item.Lifecycle
import TemplateBar.Item.Settings
import TemplateBar.Json.Basic
import TemplateBar.Json.Read
import TemplateBar.Json.Record
import TemplateBar.Json.Text
import TemplateBar.Main
import TemplateBar.Template.Builtin
import TemplateBar.Template.Compiled
import TemplateBar.Template.Error
import TemplateBar.Template.Eval
import TemplateBar.Template.Expr.Basic
import TemplateBar.Template.Expr.Cursor
import TemplateBar.Template.Expr.Parse
import TemplateBar.Template.Lexeme
import TemplateBar.Template.Operation
import TemplateBar.Template.Symbol
import TemplateBar.Template.Value
import TemplateBar.Text.Blank
import TemplateBar.Text.Cut
import TemplateBar.Text.Intervals
import TemplateBar.Text.Quoted
import TemplateBar.Text.Word
import TemplateBar.Toml.Document
import TemplateBar.Toml.Key
import TemplateBar.Toml.Moment
import TemplateBar.Toml.Number
import TemplateBar.Toml.StringForm
import TemplateBar.Toml.Table
import TemplateBar.Toml.Value
import TemplateBar.Toolbar.Basic
import TemplateBar.Toolbar.Item
import TemplateBar.Proofs.Dict
import TemplateBar.Proofs.Item.Run
import TemplateBar.Proofs.Item.Scope
import TemplateBar.Proofs.Item.Coherent
import TemplateBar.Proofs.Toolbar.Operation
import TemplateBar.Proofs.Toolbar.Lone
import TemplateBar.Proofs.Toolbar.Brightness
import TemplateBar.Proofs.Template.Cache
import TemplateBar.Proofs.Toolbar.Items
import TemplateBar.Proofs.Icon.Catalog
import TemplateBar.Proofs.Icon.WordRun
import TemplateBar.Proofs.Icon.Split
import TemplateBar.Proofs.Template.Follow
import TemplateBar.Proofs.Template.Reading
import TemplateBar.Proofs.Template.Complete
import TemplateBar.Proofs.Template.Sound
import TemplateBar.Proofs.Template.Parse
import TemplateBar.Proofs.Template.Checked
import TemplateBar.Proofs.Template.Balance
import TemplateBar.Proofs.Template.Walk
import TemplateBar.Proofs.Template.Budget
import TemplateBar.Proofs.Toolbar.Session
import TemplateBar.Proofs.Toolbar.Soundness
import TemplateBar.Proofs.Toolbar.HostCalls
import TemplateBar.Proofs.Toolbar.Answers
import TemplateBar.Proofs.Toolbar.Independence
import TemplateBar.Proofs.Template.EffectFree
import TemplateBar.Proofs.Toolbar.Effects
import TemplateBar.Proofs.Icon.Node
import TemplateBar.Proofs.Item.Lifecycle
import TemplateBar.Proofs.Template.Nesting
import TemplateBar.Proofs.Item.IconMember
import TemplateBar.Proofs.Template.Tokenize
import TemplateBar.Proofs.Toolbar.Panel
import TemplateBar.Proofs.Toolbar.Degraded
import TemplateBar.Proofs.Toolbar.Refused
import TemplateBar.Proofs.Template.Counters
import TemplateBar.Proofs.Template.Threshold
import TemplateBar.Proofs.Template.Append
import TemplateBar.Proofs.Template.Joined
import TemplateBar.Proofs.Template.Stuck
import TemplateBar.Proofs.Template.Refusal
import TemplateBar.Proofs.Template.FirstError
import TemplateBar.Proofs.Template.Trace
import TemplateBar.Proofs.Template.Names
import TemplateBar.Proofs.Template.Regrouped
import TemplateBar.Proofs.Toolbar.Outcome
import TemplateBar.Proofs.Toolbar.Twins
import TemplateBar.Proofs.Toolbar.Captured
import TemplateBar.Proofs.Toolbar.Rerendered
import TemplateBar.Proofs.Decimal.Whole
import TemplateBar.Proofs.Template.Document
import TemplateBar.Proofs.Icon.Snapshot
import TemplateBar.Proofs.Toolbar.Order
import TemplateBar.Proofs.Toolbar.Together
import TemplateBar.Proofs.Item.Shown
import TemplateBar.Proofs.Toml.StringForm
import TemplateBar.Proofs.Toml.Key
import TemplateBar.Proofs.Toml.Value
import TemplateBar.Proofs.Toml.Document
import TemplateBar.Proofs.Toml.Table
import TemplateBar.Proofs.Config.File
