import ScriptLint.Log.Fields
import ScriptLint.Main
import ScriptLint.Proofs.Reading
import ScriptLint.Settings.Frozen
import ScriptLint.Proofs.NumberTexts
import ScriptLint.Proofs.Writing
import ScriptLint.Proofs.HandOver
import ScriptLint.Proofs.FiniteNumbers
import ScriptLint.Proofs.Columns
import ScriptLint.Proofs.Records
import ScriptLint.Proofs.BundledRun
import ScriptLint.Proofs.CheckOutcome
import ScriptLint.Proofs.Echo
import ScriptLint.Proofs.CommandLine
import ScriptLint.Proofs.Escapes
import ScriptLint.Proofs.CommandExit
import ScriptLint.Proofs.Policies
import ScriptLint.Proofs.Histories
import ScriptLint.Proofs.Editions
import ScriptLint.Proofs.NonzeroNumbers
import ScriptLint.Proofs.Truth
import ScriptLint.Proofs.Stores
import ScriptLint.Proofs.Consulted
import ScriptLint.Proofs.OrderedStores
import ScriptLint.Proofs.Precedence
import ScriptLint.Proofs.Passes
import ScriptLint.Proofs.Formats
import ScriptLint.Proofs.Places
import ScriptLint.Proofs.ScriptCache
import ScriptLint.Proofs.ReadBack
import ScriptLint.Proofs.FileTexts
import ScriptLint.Proofs.Discovered
import ScriptLint.Proofs.Schemas
import ScriptLint.Proofs.Scanner
import ScriptLint.Proofs.MaskedSources
import ScriptLint.Proofs.Tokens
import ScriptLint.Proofs.JoinedSources
import ScriptLint.Proofs.FirstFinding
import ScriptLint.Proofs.RuleSwitches
import ScriptLint.Proofs.Bodies
import ScriptLint.Proofs.Comparisons
import ScriptLint.Proofs.DanglingNames
import ScriptLint.Proofs.TrailingSpace
import ScriptLint.Proofs.AccessorNames
import ScriptLint.Proofs.GlueLines
import ScriptLint.Proofs.Collections
import ScriptLint.Proofs.SingleUse
import ScriptLint.Proofs.MissingStarts
import ScriptLint.Proofs.ControlCharacters
import ScriptLint.Proofs.Grammar
import ScriptLint.Proofs.Documents
import ScriptLint.Proofs.OptionValues
import ScriptLint.Proofs.OptionTokens
import ScriptLint.Proofs.LogDocuments
import ScriptLint.Proofs.LoggerRuns
import ScriptLint.Proofs.NormalValues
import ScriptLint.Proofs.Layers
import ScriptLint.Proofs.TableColumns
