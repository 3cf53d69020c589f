import Retrovert.Library.Runs
import Retrovert.Queue.Ownership
import Retrovert.Queue.Cancelling
import Retrovert.Queue.Draining
import Retrovert.Queue.Pausing
import Retrovert.Queue.Completing
import Retrovert.Queue.Preempting
import Retrovert.Queue.Publishing
import Retrovert.Queue.Hashing
import Retrovert.Queue.Counting
import Retrovert.Queue.Choosing
import Retrovert.Transport.Splicing
import Retrovert.Channel.Rollback
import Retrovert.Apply.Crash
import Retrovert.Apply.Announcing
import Retrovert.Apply.Destinations
import Retrovert.Publish.Remote
import Retrovert.Publish.Host
import Retrovert.Publish.Pull
import Retrovert.Publish.Refusing
import Retrovert.Playlists.Failing
import Retrovert.Playlists.Identity
import Retrovert.Playlists.Covering
import Retrovert.Playlists.Predicting
import Retrovert.Playlists.Saving
import Retrovert.Playlists.Persisting
import Retrovert.Catalog.Loaded
import Retrovert.Catalog.Waiting
import Retrovert.Catalog.Converging
import Retrovert.Catalog.Booting
import Retrovert.Catalog.Installing
import Retrovert.Tuf.Authorizing
import Retrovert.Present.Grid
import Retrovert.Present.Scope
import Retrovert.Player.Backend
import Retrovert.Harness.Staging
import Retrovert.Bridge.Modes
import Retrovert.Bridge.Mounted
import Retrovert.Bridge.Scanning
import Retrovert.Bridge.Rows
import Retrovert.Update.Stopping
import Retrovert.Update.Accounting
import Retrovert.Update.Pacing
import Retrovert.Update.CheckLog
import Retrovert.Catalog.Recording
import Retrovert.Publish.Reading
import Retrovert.Bridge.Documents
import Retrovert.Harness.Playing
import Retrovert.Bridge.Walking
import Retrovert.Bridge.Sounding
import Retrovert.Bridge.Drawing
import Retrovert.Harness.Archive
import Retrovert.Harness.Lint
