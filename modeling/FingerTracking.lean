import FingerTracking.Main
import FingerTracking.Tree
import FingerTracking.Proofs.Reachable
import FingerTracking.Proofs.Lifeline
import FingerTracking.Proofs.Conservation
import FingerTracking.Proofs.Capacity
import FingerTracking.Proofs.Pointer
import FingerTracking.Proofs.FreshStart
import FingerTracking.Proofs.Wire
import FingerTracking.Proofs.Idle
import FingerTracking.Proofs.Announced
import FingerTracking.Proofs.Approach
import FingerTracking.Proofs.Clock
import FingerTracking.Proofs.Register
import FingerTracking.Proofs.Assembly
import FingerTracking.Proofs.Retelling
import FingerTracking.Proofs.StartOrder
import FingerTracking.Proofs.Sessions
import FingerTracking.Proofs.Tenure
import FingerTracking.Proofs.Steady
import FingerTracking.Proofs.BatchShape
import FingerTracking.Proofs.Slack
import FingerTracking.Proofs.Displaced
import FingerTracking.Proofs.Pace
import FingerTracking.Proofs.Timeless
import FingerTracking.Proofs.CleanPrefix
import FingerTracking.Proofs.Stability
import FingerTracking.Proofs.Separation
import FingerTracking.Proofs.FirstCome
import FingerTracking.Proofs.AnyOrder
import FingerTracking.Proofs.Chronology
import FingerTracking.Proofs.LateContacts
import FingerTracking.Proofs.Listing
import FingerTracking.Proofs.Layering
import FingerTracking.Proofs.Quiet
