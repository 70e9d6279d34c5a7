import Arbiter.Text.Ranges
import Arbiter.Text.Alphabetic
import Arbiter.Text.Numeric
import Arbiter.Text.Printable
import Arbiter.Text.LowerCase
import Arbiter.Text.Quoted
import Arbiter.Text.Numeral
import Arbiter.Text.Fields
import Arbiter.Side
import Arbiter.Cell
import Arbiter.Square
import Arbiter.Square.Name
import Arbiter.Board
import Arbiter.Board.Placement
import Arbiter.Move
import Arbiter.Move.Notation
import Arbiter.CastlingRight
import Arbiter.Position
import Arbiter.Rules.Ruling
import Arbiter.Rules.Movement
import Arbiter.Rules.Attack
import Arbiter.Rules.Castling
import Arbiter.Rules.Guarded
import Arbiter.Rules.Guarded.Play
import Arbiter.Rules.Guarded.Probe
import Arbiter.Rules.Legality
import Arbiter.Descriptor.Basic
import Arbiter.Descriptor.Error
import Arbiter.Descriptor.Parser
import Arbiter.Descriptor.Setup
import Arbiter.Status
import Arbiter.Rules.Guarded.Trial
import Arbiter.Game.Basic
import Arbiter.Game.Turn
import Arbiter.Game.Dealing
import Arbiter.Identifier
import Arbiter.Form
import Arbiter.Request
import Arbiter.Register
import Arbiter.Desk
import Arbiter.Settings
import Arbiter.Proofs.Geometry
import Arbiter.Proofs.Attack
import Arbiter.Proofs.Rulings
import Arbiter.Proofs.Aftermath
import Arbiter.Proofs.Legality
import Arbiter.Proofs.Notation
import Arbiter.Proofs.Turns
import Arbiter.Proofs.Acceptance
import Arbiter.Proofs.OpenGames
import Arbiter.Proofs.Setup
import Arbiter.Proofs.KingSafety
import Arbiter.Proofs.Placement
import Arbiter.Proofs.DescriptorText
import Arbiter.Proofs.Likeness
import Arbiter.Proofs.DoubleSteps
import Arbiter.Proofs.Regular
import Arbiter.Proofs.Restoring
import Arbiter.Proofs.Endurance
import Arbiter.Proofs.GameLength
import Arbiter.Proofs.Mirror
import Arbiter.Proofs.ColourSymmetry
import Arbiter.Proofs.Resumption
import Arbiter.Proofs.Redescribing
import Arbiter.Proofs.PassingWindow
import Arbiter.Proofs.CastlingHistory
import Arbiter.Proofs.StatusHistory
import Arbiter.Proofs.Refiling
import Arbiter.Proofs.DeskCalls
import Arbiter.Proofs.Filing
import Arbiter.Proofs.Isolation
import Arbiter.Proofs.Lines
import Arbiter.Proofs.GuardedRules
import Arbiter.Proofs.AttackMap
import Arbiter.Proofs.Rulebook
import Arbiter.Proofs.CastlingReplies
import Arbiter.Proofs.Reopening
import Arbiter.Proofs.ModestClocks
import Arbiter.Proofs.DeclaredFaults
import Arbiter.Proofs.Trials
import Arbiter.Proofs.Material
import Arbiter.Proofs.Replies
import Arbiter.Proofs.Grammar
import Arbiter.Proofs.Recognition
import Arbiter.Proofs.TersePlacement
import Arbiter.Proofs.CanonicalText
import Arbiter.Proofs.Refusals
import Arbiter.Proofs.NotationGrammar
import Arbiter.Proofs.Confinement
