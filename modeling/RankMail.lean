import RankMail.Holdings
import RankMail.Main
import RankMail.Proofs.Queue.Strung
import RankMail.Proofs.Queue.Traffic
import RankMail.Proofs.Queue.Order
import RankMail.Proofs.Queue.HandOver
import RankMail.Proofs.Doorbell.Wake
import RankMail.Proofs.Ends
import RankMail.Proofs.Memory.Frame
import RankMail.Proofs.Queue.Quiet
import RankMail.Proofs.Queue.Listed
import RankMail.Proofs.Pool.Slots
import RankMail.Proofs.Arena.Forecast
import RankMail.Proofs.Disk.Files
import RankMail.Proofs.Network.Basic
import RankMail.Proofs.Network.Chart
import RankMail.Proofs.Network.Zones
import RankMail.Proofs.Network.Places
import RankMail.Proofs.Network.Letters
import RankMail.Proofs.Network.Sound
import RankMail.Proofs.Network.Steps
import RankMail.Proofs.Network.Pooling
import RankMail.Proofs.Network.Sending
import RankMail.Proofs.Network.Receiving
import RankMail.Proofs.Network.Operations
import RankMail.Proofs.Disk.Names
import RankMail.Proofs.Segment.Lifecycle
import RankMail.Proofs.Network.Attaching
import RankMail.Proofs.Network.Creating
import RankMail.Proofs.Network.Runs
import RankMail.Proofs.Network.Settled
import RankMail.Proofs.Queue.Waiting
import RankMail.Proofs.Network.Assembled
import RankMail.Proofs.Network.GivingBack
import RankMail.Proofs.Network.Delivery
import RankMail.Proofs.Network.Conservation
import RankMail.Proofs.Network.Reading
import RankMail.Proofs.Arena.Quarry
import RankMail.Proofs.Arena.Exhaustion
import RankMail.Proofs.Arena.Alignment
import RankMail.Proofs.Segment.Publication
import RankMail.Proofs.Segment.Admission
import RankMail.Proofs.Segment.Removal
import RankMail.Proofs.Address.Translation
import RankMail.Proofs.Node.Peers
import RankMail.Proofs.Node.Attachments
import RankMail.Proofs.Memory.Scope
import RankMail.Proofs.Node.Anchored
import RankMail.Proofs.Address.Guard
import RankMail.Proofs.Config.Agreement
import RankMail.Proofs.Config.RoundTrip
import RankMail.Proofs.Pool.Recycling
import RankMail.Proofs.Pool.Batches
import RankMail.Proofs.Network.Refusals
import RankMail.Proofs.Network.Oversize
import RankMail.Proofs.Estate.Attachable
import RankMail.Proofs.Network.Frames
import RankMail.Proofs.Network.Steady
import RankMail.Proofs.Network.FirstBatch
import RankMail.Proofs.Network.Exchange
import RankMail.Proofs.Network.Rally
import RankMail.Proofs.Network.PingPong
import RankMail.Proofs.Node.Creation
