import Graft.Crash
import Graft.Main
import Graft.Proofs.Asking
import Graft.Proofs.Capture
import Graft.Proofs.Lifetime
import Graft.Proofs.Filling
import Graft.Proofs.Refusing
import Graft.Proofs.Registrers
import Graft.Proofs.Restoring
import Graft.Rehearsal.Stage
import Graft.Proofs.Answers
import Graft.Proofs.CleaningUp
import Graft.Proofs.Base64Texts
import Graft.Proofs.Guests
import Graft.Proofs.ManifestLayouts
import Graft.Proofs.Phases
import Graft.Proofs.Leftovers
import Graft.Proofs.PathNames
import Graft.Proofs.Reporting
import Graft.Proofs.Searching
import Graft.Proofs.Packages
import Graft.Proofs.Contexts
import Graft.Proofs.Templates
import Graft.Proofs.RefusedSources
import Graft.Proofs.StartCalls
import Graft.Proofs.Exposure
import Graft.Proofs.Interleaving
import Graft.Proofs.Ordering
import Graft.Proofs.SeederCalls
import Graft.Proofs.SpelledReferences
import Graft.Proofs.ManifestFaults
import Graft.Proofs.PassedSettings
import Graft.Proofs.Uncommented
import Graft.Proofs.WordPlaces
import Graft.Proofs.StubChoice
import Graft.Proofs.StubParts
import Graft.Proofs.Complaints
import Graft.Proofs.StubNames
import Graft.Proofs.ScanStreams
import Graft.Proofs.Walks
import Graft.Proofs.LineRounds
