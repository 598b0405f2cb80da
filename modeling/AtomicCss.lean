import AtomicCss.Main
import AtomicCss.Proofs.AuthoredColors
import AtomicCss.Proofs.BracketedValues
import AtomicCss.Proofs.Cascade
import AtomicCss.Proofs.Checked
import AtomicCss.Proofs.DecorationRules
import AtomicCss.Proofs.EqualColors
import AtomicCss.Proofs.FamilyLists
import AtomicCss.Proofs.FiniteLengths
import AtomicCss.Proofs.FoldedSheets
import AtomicCss.Proofs.GatedRules
import AtomicCss.Proofs.KeyReading
import AtomicCss.Proofs.MissingBreakpoints
import AtomicCss.Proofs.NamedStates
import AtomicCss.Proofs.OrderFree
import AtomicCss.Proofs.Outputs
import AtomicCss.Proofs.PathUpdates
import AtomicCss.Proofs.RadiusNumbers
import AtomicCss.Proofs.RequestedTones
import AtomicCss.Proofs.RuleFailures
import AtomicCss.Proofs.SavedSchemas
import AtomicCss.Proofs.ScaleNumbers
import AtomicCss.Proofs.SelectedElements
import AtomicCss.Proofs.SelectedScopes
import AtomicCss.Proofs.ShadowRules
import AtomicCss.Proofs.ShortestNames
import AtomicCss.Proofs.SingleSheet
import AtomicCss.Proofs.StateLabels
import AtomicCss.Proofs.StateOrder
import AtomicCss.Proofs.ToneOrder
import AtomicCss.Proofs.TrackClasses
import AtomicCss.Proofs.WordOrder
import AtomicCss.Proofs.WriteSteps
import AtomicCss.Value.Tree
