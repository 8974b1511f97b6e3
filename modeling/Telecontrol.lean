import Telecontrol.Batch
import Telecontrol.Main
import Telecontrol.Proofs.Schedule
import Telecontrol.Proofs.Undisturbed
import Telecontrol.Proofs.Unselect
import Telecontrol.Server.Run
import Telecontrol.Task.Session
import Telecontrol.Service.Place
import Telecontrol.Proofs.Tenure
import Telecontrol.Proofs.Interrogation
import Telecontrol.Proofs.Ledger
import Telecontrol.Proofs.Estate
import Telecontrol.Proofs.Conservation
import Telecontrol.Proofs.Containment
import Telecontrol.Proofs.Duties
import Telecontrol.Proofs.Staffing
import Telecontrol.Proofs.Splitting
import Telecontrol.Proofs.Identity
import Telecontrol.Proofs.Attendance
import Telecontrol.Proofs.Silence
import Telecontrol.Proofs.Chains
import Telecontrol.Proofs.Refusal
import Telecontrol.Proofs.Deadlines
import Telecontrol.Proofs.Eviction
import Telecontrol.Proofs.Membership
import Telecontrol.Proofs.Commissioning
import Telecontrol.Proofs.Returning
import Telecontrol.Proofs.Bookkeeping
import Telecontrol.Proofs.Dangling
import Telecontrol.Proofs.ConnectionLimit
import Telecontrol.Proofs.Pace
import Telecontrol.Proofs.Offering
import Telecontrol.Proofs.Transcript
