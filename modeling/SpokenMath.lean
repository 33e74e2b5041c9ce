import SpokenMath.Cache.Basic
import SpokenMath.Cache.Codec
import SpokenMath.Cache.Key
import SpokenMath.Cache.Snapshot
import SpokenMath.CommandLine.Arguments
import SpokenMath.CommandLine.Json
import SpokenMath.CommandLine.Repl
import SpokenMath.CommandLine.Report
import SpokenMath.CommandLine.Run
import SpokenMath.CommandLine.Toml
import SpokenMath.Config.Engine
import SpokenMath.Config.Setting
import SpokenMath.Deadline
import SpokenMath.Detection.Basic
import SpokenMath.Detection.DomainClues
import SpokenMath.Detection.Features
import SpokenMath.Detection.Mark
import SpokenMath.Detection.TopicClues
import SpokenMath.Digest
import SpokenMath.Domain
import SpokenMath.Engine.Error
import SpokenMath.Engine.Process
import SpokenMath.Engine.Speech
import SpokenMath.Main
import SpokenMath.Markup.Canonical
import SpokenMath.Markup.Command
import SpokenMath.Markup.Occurrence
import SpokenMath.Markup.Reader
import SpokenMath.Markup.Tag
import SpokenMath.Markup.Token
import SpokenMath.Markup.Tree
import SpokenMath.Memory.Analysis
import SpokenMath.Memory.Basic
import SpokenMath.Memory.Fingerprint
import SpokenMath.Memory.Structure
import SpokenMath.Notice
import SpokenMath.Numeral
import SpokenMath.Pattern.Basic
import SpokenMath.Pattern.Class
import SpokenMath.Pattern.Escape
import SpokenMath.Pattern.Flags
import SpokenMath.Pattern.Matching
import SpokenMath.Pattern.Program
import SpokenMath.Pattern.Reader
import SpokenMath.Pattern.Syntax
import SpokenMath.Pattern.Weight
import SpokenMath.Polish
import SpokenMath.Proofs.Cache.Codec
import SpokenMath.Proofs.Cache.Entries
import SpokenMath.Proofs.Cache.History
import SpokenMath.Proofs.Cache.Restoration
import SpokenMath.Proofs.Cache.Snapshot
import SpokenMath.Proofs.Cache.TimeToLive
import SpokenMath.Proofs.Encoding
import SpokenMath.Proofs.Engine.CacheTransparency
import SpokenMath.Proofs.Engine.Failure
import SpokenMath.Proofs.Engine.Independence
import SpokenMath.Proofs.Engine.Knowledge
import SpokenMath.Proofs.Engine.Provenance
import SpokenMath.Proofs.Engine.Revision
import SpokenMath.Proofs.Engine.Service
import SpokenMath.Proofs.Engine.SharedCache
import SpokenMath.Proofs.Lists
import SpokenMath.Proofs.Markup.Balance
import SpokenMath.Proofs.Markup.Base
import SpokenMath.Proofs.Markup.BraceNesting
import SpokenMath.Proofs.Markup.Conservation
import SpokenMath.Proofs.Markup.Course
import SpokenMath.Proofs.Markup.Depth
import SpokenMath.Proofs.Markup.Endings
import SpokenMath.Proofs.Markup.Environments
import SpokenMath.Proofs.Markup.Expansion
import SpokenMath.Proofs.Markup.FixedPoint
import SpokenMath.Proofs.Markup.Grammar
import SpokenMath.Proofs.Markup.Literal
import SpokenMath.Proofs.Markup.Lossless
import SpokenMath.Proofs.Markup.Milestone
import SpokenMath.Proofs.Markup.Notices
import SpokenMath.Proofs.Markup.Order
import SpokenMath.Proofs.Markup.Place
import SpokenMath.Proofs.Markup.Proper
import SpokenMath.Proofs.Markup.Reading
import SpokenMath.Proofs.Markup.Rereading.Command
import SpokenMath.Proofs.Markup.Rereading.Scripts
import SpokenMath.Proofs.Markup.Rereading.Sequence
import SpokenMath.Proofs.Markup.Risk
import SpokenMath.Proofs.Markup.RiskyNesting
import SpokenMath.Proofs.Markup.Spelling
import SpokenMath.Proofs.Markup.Termination
import SpokenMath.Proofs.Markup.Uses
import SpokenMath.Proofs.Markup.WellFormed
import SpokenMath.Proofs.Markup.Writing
import SpokenMath.Proofs.Memory.LoneEnds
import SpokenMath.Proofs.Memory.OpenProofs
import SpokenMath.Proofs.Memory.References
import SpokenMath.Proofs.Memory.Stack
import SpokenMath.Proofs.Memory.Symbols
import SpokenMath.Proofs.Memory.View
import SpokenMath.Proofs.Memory.Visits
import SpokenMath.Proofs.Pattern.Occurrence
import SpokenMath.Proofs.Pattern.SingleChar
import SpokenMath.Proofs.Polish
import SpokenMath.Proofs.Polish.Capitals
import SpokenMath.Proofs.Polish.Items
import SpokenMath.Proofs.Polish.Losses
import SpokenMath.Proofs.Polish.Pauses
import SpokenMath.Proofs.Polish.Phrases
import SpokenMath.Proofs.Polish.Quantities
import SpokenMath.Proofs.Polish.Repetition
import SpokenMath.Proofs.Polish.Rounds
import SpokenMath.Proofs.Polish.Spacing
import SpokenMath.Proofs.Polish.Vocabulary
import SpokenMath.Proofs.Rule.Captured
import SpokenMath.Proofs.Rule.Command
import SpokenMath.Proofs.Rule.Iteration
import SpokenMath.Proofs.Rule.Passes
import SpokenMath.Proofs.Rule.Substitution
import SpokenMath.Proofs.Rulebook.Ranks
import SpokenMath.Proofs.Rulebook.Revision
import SpokenMath.Proofs.Rulebook.Rows
import SpokenMath.Proofs.Rulebook.Selection
import SpokenMath.Proofs.Rulebook.Signs
import SpokenMath.Proofs.Screening.Accepted
import SpokenMath.Proofs.Screening.Agreement
import SpokenMath.Proofs.Screening.CleanedCommands
import SpokenMath.Proofs.Screening.CleanedLimits
import SpokenMath.Proofs.Screening.CleanedText
import SpokenMath.Proofs.Screening.Counting
import SpokenMath.Proofs.Screening.Descent
import SpokenMath.Proofs.Screening.Nesting
import SpokenMath.Proofs.Screening.Reading
import SpokenMath.Proofs.Screening.Remnants
import SpokenMath.Proofs.Screening.Skipping
import SpokenMath.Proofs.Screening.Thinning
import SpokenMath.Proofs.Screening.Tokens
import SpokenMath.Proofs.Text.Alike
import SpokenMath.Proofs.Text.Basic
import SpokenMath.Proofs.Text.Collapse
import SpokenMath.Proofs.Text.Pieces
import SpokenMath.Proofs.Text.Signs
import SpokenMath.Rule.Basic
import SpokenMath.Rule.Book
import SpokenMath.Rule.Rewriting
import SpokenMath.Rulebook.Algorithms
import SpokenMath.Rulebook.Calculus
import SpokenMath.Rulebook.Combinatorics
import SpokenMath.Rulebook.ComplexAnalysis
import SpokenMath.Rulebook.Critical
import SpokenMath.Rulebook.DifferentialEquations
import SpokenMath.Rulebook.General.BigOperator
import SpokenMath.Rulebook.General.Command
import SpokenMath.Rulebook.General.Delimiter
import SpokenMath.Rulebook.General.Environment
import SpokenMath.Rulebook.General.Symbol
import SpokenMath.Rulebook.LinearAlgebra
import SpokenMath.Rulebook.Logic
import SpokenMath.Rulebook.Manifolds
import SpokenMath.Rulebook.MeasureTheory
import SpokenMath.Rulebook.NumberTheory
import SpokenMath.Rulebook.NumericalAnalysis
import SpokenMath.Rulebook.Phrase
import SpokenMath.Rulebook.RealAnalysis
import SpokenMath.Rulebook.SetTheory
import SpokenMath.Rulebook.Standard
import SpokenMath.Rulebook.Statistics
import SpokenMath.Rulebook.Topology
import SpokenMath.Screening.Check
import SpokenMath.Screening.Cleaning
import SpokenMath.Screening.Limits
import SpokenMath.Screening.Profile
import SpokenMath.Screening.Violation
import SpokenMath.Text.Basic
import SpokenMath.Unicode.Age
import SpokenMath.Unicode.Boundary
import SpokenMath.Unicode.CaseFolding
import SpokenMath.Unicode.Category
import SpokenMath.Unicode.CharSet
import SpokenMath.Unicode.Lookup
import SpokenMath.Unicode.Property
import SpokenMath.Unicode.Recipe
import SpokenMath.Unicode.Script
import SpokenMath.Unicode.ScriptExtension
import SpokenMath.Unicode.WordChars
import SpokenMath.Voice
