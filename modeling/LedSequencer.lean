import LedSequencer.Main
import LedSequencer.Rehearsal.Excerpt
import LedSequencer.Rehearsal.Stand
import LedSequencer.Proofs.PauseLiterals
import LedSequencer.Proofs.Pushes
import LedSequencer.Proofs.Drafting
import LedSequencer.Proofs.Emission
import LedSequencer.Proofs.DocumentFaults
import LedSequencer.Proofs.ValidDocuments
import LedSequencer.Proofs.AcceptedMap
import LedSequencer.Proofs.Conduct
import LedSequencer.Proofs.Ensemble
import LedSequencer.Proofs.Outputs
import LedSequencer.Proofs.MappedPins
import LedSequencer.Proofs.Activities
import LedSequencer.Proofs.Shutdown
import LedSequencer.Proofs.Adoption
import LedSequencer.Proofs.Levels
import LedSequencer.Proofs.Replacement
import LedSequencer.Proofs.Seal
import LedSequencer.Proofs.Lines
import LedSequencer.Proofs.Deeds
import LedSequencer.Proofs.Readings
import LedSequencer.Proofs.Intake
import LedSequencer.Proofs.Effects
import LedSequencer.Proofs.Histories
import LedSequencer.Proofs.Composition
import LedSequencer.Proofs.RejectedLines
import LedSequencer.Proofs.Repetition
import LedSequencer.Proofs.Rests
import LedSequencer.Proofs.Lobby
import LedSequencer.Proofs.Places
import LedSequencer.Proofs.Wakeups
import LedSequencer.Proofs.Lookups
import LedSequencer.Proofs.Reordering
import LedSequencer.Proofs.Addressing
import LedSequencer.Proofs.Ticking
import LedSequencer.Proofs.Exchanges
import LedSequencer.Proofs.Layouts
import LedSequencer.Proofs.DocumentedFormat
import LedSequencer.Proofs.Selectable
import LedSequencer.Proofs.Trees
import LedSequencer.Proofs.PinTrees
import LedSequencer.Proofs.GivingWay
import LedSequencer.Proofs.WordFates
