import Rankd.Wire.Api
import Rankd.Wire.Ethernet
import Rankd.Properties.Isolation
import Rankd.Properties.Rollback
import Rankd.Properties.Listener
import Rankd.Properties.Closed
import Rankd.Properties.Hops
import Rankd.Properties.Granted
import Rankd.Properties.Unsolicited
import Rankd.Properties.Single
import Rankd.Properties.Accepted
import Rankd.Properties.Connections
import Rankd.Node.BidSpec
import Rankd.Properties.Auction
import Rankd.Node.Tally
import Rankd.Node.Upstream
import Rankd.Properties.Relays
import Rankd.Properties.Requests
import Rankd.Properties.Payload
import Rankd.Properties.Assertions
import Rankd.Properties.Ties
import Rankd.Properties.Replenishment
import Rankd.Node.Path
import Rankd.Properties.Agreement
import Rankd.Properties.Requirements
import Rankd.Properties.Accessor
import Rankd.Properties.Documents
import Rankd.Properties.CurrentResources
import Rankd.Properties.Proximity
import Rankd.Infra.Grade
import Rankd.Properties.Estimates
import Rankd.Properties.Admission
import Rankd.Properties.Duplicates
import Rankd.Properties.Capabilities
import Rankd.Properties.Neighboring
import Rankd.Properties.Cpu
import Rankd.Properties.Latency
import Rankd.Properties.Answer
import Rankd.Dry.Draw
import Rankd.Dry.Memory
import Rankd.Properties.Simulated
import Rankd.Properties.Translations
import Rankd.Node.Log
import Rankd.Properties.Interference
import Rankd.Infra.Slice
import Rankd.Properties.Traffic
import Rankd.Infra.Pipeline
import Rankd.Wire.Reading
import Rankd.Node.Wiring
import Rankd.Properties.Wired
import Rankd.Node.Acts
import Rankd.Properties.Causality
import Rankd.Properties.Unbroken
import Rankd.Node.Armed
import Rankd.Properties.Pending
import Rankd.Properties.Course
import Rankd.Properties.Completion
import Rankd.Infra.Origin
import Rankd.Properties.Origins
import Rankd.Properties.Refusals
import Rankd.Infra.Passage
import Rankd.Properties.Delivered
