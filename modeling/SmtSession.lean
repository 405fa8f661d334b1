import SmtSession.Backend
import SmtSession.Command
import SmtSession.Context
import SmtSession.Emitter
import SmtSession.Eval
import SmtSession.Exchange.Basic
import SmtSession.Exchange.Wait
import SmtSession.Frames
import SmtSession.Json.Basic
import SmtSession.Json.Reader
import SmtSession.Number.Binary64
import SmtSession.Number.Integer
import SmtSession.Number.PlainOp
import SmtSession.Number.ShortestDecimal
import SmtSession.Outcome
import SmtSession.Rehearsal.Bench
import SmtSession.Rehearsal.ScriptedBackend
import SmtSession.Rehearsal.StandIn
import SmtSession.Reply
import SmtSession.ResultModel
import SmtSession.Session.Basic
import SmtSession.Session.Change
import SmtSession.Session.Check
import SmtSession.Session.Model
import SmtSession.Session.Run
import SmtSession.SessionConfig.Basic
import SmtSession.SessionConfig.Json
import SmtSession.Sexp.Basic
import SmtSession.Sexp.Reader
import SmtSession.SmtSort
import SmtSession.SolverError
import SmtSession.SolverKind
import SmtSession.SolverLaunch
import SmtSession.SolverOption
import SmtSession.Term.Basic
import SmtSession.Term.Printer
import SmtSession.Text.Basic
import SmtSession.Text.Quoted
import SmtSession.Value
import SmtSession.Proofs.Acceptance
import SmtSession.Proofs.Alignment
import SmtSession.Proofs.Applications
import SmtSession.Proofs.Atomicity
import SmtSession.Proofs.Attrition
import SmtSession.Proofs.Authority
import SmtSession.Proofs.Calls
import SmtSession.Proofs.Causality
import SmtSession.Proofs.Charging
import SmtSession.Proofs.CheckedArithmetic
import SmtSession.Proofs.CheckedEvaluation
import SmtSession.Proofs.Collection
import SmtSession.Proofs.Congruence
import SmtSession.Proofs.Containment
import SmtSession.Proofs.ErrorMessages
import SmtSession.Proofs.Evaluation
import SmtSession.Proofs.ExchangeLedger
import SmtSession.Proofs.Faults
import SmtSession.Proofs.Framing
import SmtSession.Proofs.History
import SmtSession.Proofs.JsonLiterals
import SmtSession.Proofs.JsonText
import SmtSession.Proofs.Layout
import SmtSession.Proofs.Ledger
import SmtSession.Proofs.LexicalRules
import SmtSession.Proofs.Lifecycle
import SmtSession.Proofs.LineScan
import SmtSession.Proofs.Literals
import SmtSession.Proofs.LiveAssertions
import SmtSession.Proofs.Locality
import SmtSession.Proofs.Lockstep
import SmtSession.Proofs.Masking
import SmtSession.Proofs.Meaning
import SmtSession.Proofs.Milestones
import SmtSession.Proofs.ModelEvaluation
import SmtSession.Proofs.ModelGate
import SmtSession.Proofs.ModelReply
import SmtSession.Proofs.ModelViews
import SmtSession.Proofs.NumberText
import SmtSession.Proofs.Openness
import SmtSession.Proofs.Operators
import SmtSession.Proofs.OptionResolution
import SmtSession.Proofs.OverflowFreedom
import SmtSession.Proofs.Persistence
import SmtSession.Proofs.Printing
import SmtSession.Proofs.Readback
import SmtSession.Proofs.Reading
import SmtSession.Proofs.Recording
import SmtSession.Proofs.Refusal
import SmtSession.Proofs.Rendering
import SmtSession.Proofs.Renewal
import SmtSession.Proofs.Replay
import SmtSession.Proofs.ReplyStream
import SmtSession.Proofs.Reprinting
import SmtSession.Proofs.Results
import SmtSession.Proofs.Scoping
import SmtSession.Proofs.SessionLedger
import SmtSession.Proofs.Simulation
import SmtSession.Proofs.Spelling
import SmtSession.Proofs.Staleness
import SmtSession.Proofs.Stamping
import SmtSession.Proofs.StreamBudget
import SmtSession.Proofs.StreamText
import SmtSession.Proofs.TextDeclarations
import SmtSession.Proofs.Transitions
import SmtSession.Proofs.Trimming
import SmtSession.Proofs.ValueText
import SmtSession.Proofs.Waiting
import SmtSession.Proofs.WideEvaluation
import SmtSession.Proofs.WideModels
import SmtSession.Proofs.WideOperators
