import MatrixSession.Main
import MatrixSession.Race
import MatrixSession.Scenario.CacheStep
import MatrixSession.Scenario.Together
import MatrixSession.Proofs.Execution.Point
import MatrixSession.Proofs.Execution.Course
import MatrixSession.Proofs.Execution.Protocol
import MatrixSession.Proofs.Session.Errand
import MatrixSession.Proofs.Session.Intact
import MatrixSession.Proofs.Crowd.Basic
import MatrixSession.Proofs.Crowd.Place
import MatrixSession.Proofs.Crowd.Rotation
import MatrixSession.Proofs.Crowd.Single
import MatrixSession.Proofs.Crowd.Trek
import MatrixSession.Proofs.Catalog.Lineage
import MatrixSession.Proofs.Connection.InMemory
import MatrixSession.Proofs.Connection.Highest
import MatrixSession.Proofs.Connection.Promises
import MatrixSession.Proofs.Probe.Rotation
import MatrixSession.Proofs.Text.Utf8
import MatrixSession.Proofs.Json.Grammar
import MatrixSession.Proofs.Json.Strings
import MatrixSession.Proofs.Json.Numbers
import MatrixSession.Proofs.Json.Values
import MatrixSession.Proofs.Connection.Description
import MatrixSession.Proofs.Connection.VersionsOnly
import MatrixSession.Proofs.Discovery.Coherence
import MatrixSession.Proofs.Discovery.Overlap
import MatrixSession.Proofs.Json.Ordered
import MatrixSession.Proofs.Session.Secret
import MatrixSession.Proofs.Execution.Outcome
import MatrixSession.Proofs.Session.Helpers
import MatrixSession.Proofs.Json.Members
import MatrixSession.Proofs.Session.Wire
import MatrixSession.Proofs.Session.Gates
import MatrixSession.Proofs.Lock.Hall
import MatrixSession.Proofs.Lock.Exclusion
import MatrixSession.Proofs.Lock.Races
import MatrixSession.Proofs.Http.Phases
import MatrixSession.Proofs.Catalog.Chain
import MatrixSession.Proofs.Connection.Choice
import MatrixSession.Proofs.Url.Percent
import MatrixSession.Proofs.Url.Segments
import MatrixSession.Proofs.Endpoint.Rooms
import MatrixSession.Proofs.Url.Hosts
import MatrixSession.Proofs.UserId.Qualified
import MatrixSession.Proofs.Catalog.Listing
import MatrixSession.Proofs.Catalog.Requirements
import MatrixSession.Proofs.Command.Segments
import MatrixSession.Proofs.Lock.Fairness
import MatrixSession.Proofs.Command.Steps
import MatrixSession.Proofs.Url.Queries
import MatrixSession.Proofs.Command.Queries
import MatrixSession.Proofs.Config.Environment
import MatrixSession.Proofs.UserId.Whole
import MatrixSession.Proofs.Discovery.RoundTrip
