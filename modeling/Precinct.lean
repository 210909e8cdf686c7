import Precinct.Main
import Precinct.Pool.Drill
import Precinct.Pool.Token
import Precinct.Registry
import Precinct.Json.Reader
import Precinct.Proofs.Plane.Overlap
import Precinct.Proofs.Plane.Containment
import Precinct.Proofs.Plane.Crossing
import Precinct.Proofs.Region.Overlap
import Precinct.Proofs.Cache.Coverage
import Precinct.Proofs.Cache.Exactness
import Precinct.Proofs.Cache.Waits
import Precinct.Proofs.Store.Replay
import Precinct.Proofs.Store.Saves
import Precinct.Proofs.Cache.Crowd
import Precinct.Proofs.Cache.Freshness
import Precinct.Proofs.Cache.InOrder
import Precinct.Proofs.Cache.Upkeep
import Precinct.Proofs.Cache.Epochs
import Precinct.Proofs.Store.Mirror
import Precinct.Proofs.Cache.Sturdy
import Precinct.Proofs.Store.Descent
import Precinct.Proofs.Region.Made
import Precinct.Proofs.Store.Purge
import Precinct.Proofs.Cache.Purge
import Precinct.Proofs.Cache.Deeds
import Precinct.Proofs.Cache.Prompt
import Precinct.Proofs.Cache.Backlog
import Precinct.Proofs.Cache.Tracks
import Precinct.Proofs.Cache.Alike
import Precinct.Proofs.Plane.Reflection
import Precinct.Proofs.Region.Polygon
import Precinct.Proofs.Pool.Roster
import Precinct.Proofs.Store.Choice
import Precinct.Proofs.Probe.Layout
import Precinct.Proofs.Probe.Agreement
import Precinct.Proofs.Plane.Listing
import Precinct.Proofs.Region.Intersection
import Precinct.Proofs.Store.Releasing
import Precinct.Proofs.Cache.InSight
import Precinct.Proofs.Cache.Warming
import Precinct.Proofs.Cache.EarlyStop
import Precinct.Proofs.Cache.Areas
import Precinct.Proofs.Cache.Accounts
import Precinct.Proofs.Registry.Faithful
import Precinct.Proofs.Grid.Chart
import Precinct.Proofs.Store.Standing
import Precinct.Proofs.Probe.AnyOrder
import Precinct.Proofs.Data.Documents
