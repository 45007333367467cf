import Iprotate.LoaderRace
import Iprotate.Snapshots
import Iprotate.TornWrite
import Iprotate.KeyCheck
import Iprotate.TaskRace
import Iprotate.Injection
import Iprotate.BusyStatus
import Iprotate.LastTaskFields
import Iprotate.RecordFrame
import Iprotate.Numbering
import Iprotate.Scripts
import Iprotate.OpenWindow
import Iprotate.SameCredentials
import Iprotate.SavedValue
import Iprotate.TaskEnd
import Iprotate.Timeout
import Iprotate.UnknownName
import Iprotate.Endpoints
import Iprotate.Addresses
import Iprotate.SecurityGroups
import Iprotate.Terminations
import Iprotate.Launches
import Iprotate.StoredSettings
import Iprotate.FreeTier
import Iprotate.KeyPairs
import Iprotate.Processes
import Iprotate.Services
import Iprotate.NetworkCard
import Iprotate.WriteChanges
import Iprotate.ElasticIps
import Iprotate.Strangers
import Iprotate.AlwaysLoads
import Iprotate.SoleInstance
import Iprotate.Delivery
import Iprotate.Normalisation
