import Wardrobe.Disk.Volume
import Wardrobe.Json.Writer
import Wardrobe.Main
import Wardrobe.Proofs.Distribution.ChainOrder
import Wardrobe.Proofs.Distribution.HandoutFixpoint
import Wardrobe.Proofs.Rule.ConditionText
import Wardrobe.Proofs.Form.PluginBar
import Wardrobe.Proofs.Rule.BarredMeaning
import Wardrobe.Proofs.Distribution.HandoutOrder
import Wardrobe.Proofs.Distribution.ContestInput
import Wardrobe.Proofs.Distribution.ContestInsertion
import Wardrobe.Proofs.Record.EditorId
import Wardrobe.Proofs.Rule.ClausalMeaning
import Wardrobe.Proofs.Record.SnapshotRoundTrip
import Wardrobe.Proofs.Distribution.TextResolution
import Wardrobe.Proofs.Distribution.FormResolution
import Wardrobe.Proofs.Rule.BarredSpacing
import Wardrobe.Proofs.Distribution.GateSpacing
import Wardrobe.Proofs.Distribution.HandoutBooks
import Wardrobe.Proofs.Distribution.HandoutLocality
import Wardrobe.Proofs.Rule.RuleShape
import Wardrobe.Proofs.Sheet.AcceptedLines
import Wardrobe.Proofs.Graph.ReadyRun
import Wardrobe.Proofs.Distribution.ResolvedRecords
import Wardrobe.Proofs.Distribution.PinnedIds
import Wardrobe.Proofs.Distribution.SurveyTexts
import Wardrobe.Proofs.Record.ActorRegistration
import Wardrobe.Proofs.Distribution.KeySpelling
import Wardrobe.Proofs.Rule.KeyTargets
import Wardrobe.Proofs.Text.Loosening
import Wardrobe.Proofs.Rule.BarSpacing
import Wardrobe.Proofs.Rule.AttachedNegations
import Wardrobe.Proofs.Sheet.TaggedLines
import Wardrobe.Proofs.Rule.LevelText
import Wardrobe.Proofs.Rule.ChanceText
import Wardrobe.Proofs.Console.FormattedLines
import Wardrobe.Proofs.Distribution.LiteralOccurrences
import Wardrobe.Proofs.Form.PinnedNames
import Wardrobe.Proofs.Graph.ReleaseOrder
