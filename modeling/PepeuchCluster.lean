import PepeuchCluster.ControlPlane.Missions
import PepeuchCluster.ControlPlane.DeadlineInput
import PepeuchCluster.Discovery.PlanReplay
import PepeuchCluster.Discovery.CheckpointHistory
import PepeuchCluster.Bench.ExactlyOnce
import PepeuchCluster.Bench.Planning
import PepeuchCluster.Worker.Roots
import PepeuchCluster.Worker.Mounts
import PepeuchCluster.Worker.Recovery
import PepeuchCluster.Worker.FailClosed
import PepeuchCluster.Worker.Pinning
import PepeuchCluster.Worker.Verifier
import PepeuchCluster.Worker.Observer
import PepeuchCluster.Discovery.Agents
import PepeuchCluster.ControlPlane.Completion
import PepeuchCluster.ControlPlane.Updates
import PepeuchCluster.Discovery.ManualResumes
import PepeuchCluster.Worker.TextDigest
import PepeuchCluster.Worker.JournalStore
