import DeclOrder.Main
import DeclOrder.Session
import DeclOrder.Proofs.EditorPositions
import DeclOrder.Proofs.EmbeddedBodies
import DeclOrder.Proofs.RequestOptions
import DeclOrder.Proofs.RewrittenFiles
import DeclOrder.Proofs.HookPlaces
import DeclOrder.Proofs.Preservation
import DeclOrder.Proofs.Spacing
import DeclOrder.Proofs.WrittenScripts
import DeclOrder.Proofs.AttachedComments
import DeclOrder.Proofs.ByteOffsets
import DeclOrder.Proofs.UnrankedHooks
import DeclOrder.Proofs.VerbatimRuns
import DeclOrder.Proofs.GroupedItems
import DeclOrder.Proofs.SimultaneousEdits
import DeclOrder.Proofs.CommentPlaces
import DeclOrder.Proofs.CondensedRuns
import DeclOrder.Proofs.FirstSetup
import DeclOrder.Proofs.HookCalls
import DeclOrder.Proofs.OptionSpellings
import DeclOrder.Proofs.FaultPositions
import DeclOrder.Proofs.FirstFaults
import DeclOrder.Proofs.FileUris
import DeclOrder.Proofs.HandledSources
