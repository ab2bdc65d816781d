import Searchlight.Proofs.Client.Pending
import Searchlight.Proofs.Client.Reading
import Searchlight.Proofs.Schema.Tiers
import Searchlight.Proofs.Session.Adding
import Searchlight.Proofs.Session.Algebra
import Searchlight.Proofs.Session.Reopening
import Searchlight.Proofs.SetStore.Compiling
import Searchlight.Proofs.SetStore.Exact
import Searchlight.Proofs.Binary.Decimals
import Searchlight.Proofs.Client.Accepted
import Searchlight.Proofs.Client.Windows
import Searchlight.Proofs.Session.Registrations
import Searchlight.Proofs.Client.Persisting
import Searchlight.Proofs.Session.Views
import Searchlight.Proofs.Client.Lifecycle
import Searchlight.Proofs.Session.Writers
import Searchlight.Proofs.Document.Encoding
import Searchlight.Proofs.Query.Translating
import Searchlight.Proofs.Schema.Lossless
import Searchlight.Proofs.Memory.Arriving
import Searchlight.Proofs.Client.Complete
import Searchlight.Proofs.Session.Listing
import Searchlight.Proofs.Disk.Agreement
import Searchlight.Proofs.Disk.Dating
import Searchlight.Proofs.Session.Refusing
import Searchlight.Proofs.Query.Literal
import Searchlight.Proofs.Query.Numbers
import Searchlight.Proofs.Query.Words
import Searchlight.Proofs.Schema.Resolving
import Searchlight.Proofs.Client.Ignoring
import Searchlight.Proofs.Document.Settling
import Searchlight.Proofs.Driver.Ranking
import Searchlight.Proofs.Client.Calls
import Searchlight.Proofs.Client.Failing
import Searchlight.Proofs.Config
import Searchlight.Proofs.Driver.Native
import Searchlight.Proofs.Query.Grouping
