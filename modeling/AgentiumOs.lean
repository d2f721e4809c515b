import AgentiumOs.Archive.HistoryText
import AgentiumOs.Archive.Replay
import AgentiumOs.Bus.Emitter
import AgentiumOs.Callbacks.Concurrent
import AgentiumOs.Callbacks.Delivery
import AgentiumOs.Callbacks.Limit
import AgentiumOs.Chat.Collector
import AgentiumOs.Chat.Deduplicator
import AgentiumOs.Citation.Parse
import AgentiumOs.Cluster.Heartbeat
import AgentiumOs.Daemon.ClickupCycles
import AgentiumOs.Executor.IntraTurn
import AgentiumOs.Executor.StepLoop
import AgentiumOs.Ingress.Datasources
import AgentiumOs.Ingress.Delivery
import AgentiumOs.Ingress.SlackBatch
import AgentiumOs.Interceptor.Pipeline
import AgentiumOs.Memory.Manager
import AgentiumOs.Provenance.Allocation
import AgentiumOs.Provenance.Mermaid
import AgentiumOs.Provenance.NodeIds
import AgentiumOs.Provenance.RefSequence
import AgentiumOs.Repository.Concurrent
import AgentiumOs.Repository.ContentHash
import AgentiumOs.Repository.Lineage
import AgentiumOs.Router.SseDecoder
import AgentiumOs.Router.Ssrf
import AgentiumOs.Sandbox.Codec
import AgentiumOs.Sandbox.Pairing
import AgentiumOs.Sandbox.PoolCensus
import AgentiumOs.Sandbox.PoolProgress
import AgentiumOs.Sandbox.Routing
import AgentiumOs.Semiotic.Liveness
import AgentiumOs.Semiotic.Trojan
import AgentiumOs.Session.Attribution
import AgentiumOs.Session.Interleaving
import AgentiumOs.Tasks.Chunk
import AgentiumOs.Tasks.Race
import AgentiumOs.Tools.Execute
import AgentiumOs.Tools.PlanCleanup
import AgentiumOs.Tools.PlanRetry
import AgentiumOs.Tools.Policy
import AgentiumOs.Tools.SessionEffects
import AgentiumOs.Transcript.Compaction
import AgentiumOs.Transcript.TaskScope
import AgentiumOs.Updates.Delivery
import AgentiumOs.Tasks.Wire
