import Datability.Transition
import Datability.Reserve
import Datability.Completion
import Datability.Profile
import Datability.Firestore
import Datability.PlantScanner
import Datability.Device
import Datability.World
import Datability.Ledger
import Datability.Session
import Datability.Entries
import Datability.Mirror
import Datability.Home
import Datability.Privacy
import Datability.Restore
import Datability.Scanner
import Datability.Capture
import Datability.Maps
import Datability.Proofs.TransitionProofs
import Datability.Proofs.OutstandingProofs
import Datability.Proofs.CompletionProofs
import Datability.Proofs.DeviceProofs
import Datability.Proofs.StepProofs
import Datability.Proofs.FirestoreProofs
import Datability.Proofs.LedgerProofs
import Datability.Proofs.ConservationProofs
import Datability.Proofs.PayoutProofs
import Datability.Proofs.BackingProofs
import Datability.Proofs.SessionProofs
import Datability.Proofs.AttributionProofs
import Datability.Proofs.EntriesProofs
import Datability.Proofs.MirrorProofs
import Datability.Proofs.ParticipationProofs
import Datability.Proofs.ProfileProofs
import Datability.Proofs.HomeProofs
import Datability.Proofs.PrivacyProofs
import Datability.Proofs.RestoreProofs
import Datability.Proofs.ScannerProofs
import Datability.Proofs.CaptureProofs
import Datability.Proofs.PhoneProofs
import Datability.Proofs.MapsProofs
import Datability.RemoteStore
import Datability.Delivery
import Datability.Proofs.DeliveryProofs
import Datability.Proofs.SyncEngineProofs
import Datability.Proofs.RemoteStoreProofs
import Datability.Proofs.WriteStreamProofs
import Datability.Proofs.WriteDeliveryProofs
import Datability.SortedMap
import Datability.ObjectValue
import Datability.Mutation
import Datability.LocalStore
import Datability.DocumentView
import Datability.Proofs.SortedMapProofs
import Datability.Proofs.ObjectValueProofs
import Datability.Proofs.FieldPathProofs
import Datability.Proofs.OverlayProofs
import Datability.Proofs.MutationProofs
import Datability.Proofs.LocalStoreProofs
import Datability.Proofs.LocalViewProofs
import Datability.Proofs.IncrementProofs
import Datability.Proofs.DocumentViewProofs
