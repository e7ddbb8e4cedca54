import KvFlowSim.Policy.Lru
import KvFlowSim.Policy.Evictions
import KvFlowSim.Serving.Scheduler
import KvFlowSim.Serving.CacheRunner
import KvFlowSim.Serving.Runner
import KvFlowSim.Serving.Refinement
import KvFlowSim.Serving.WorkConserving
import KvFlowSim.Serving.AnyTrace
import KvFlowSim.Serving.Causality
import KvFlowSim.Serving.Findable
import KvFlowSim.Serving.Ledger
import KvFlowSim.Serving.Waiting
import KvFlowSim.Serving.Fetches
import KvFlowSim.Policy.Durations
import KvFlowSim.Serving.Interchange
import KvFlowSim.Decision
import KvFlowSim.Serving.Summary
import KvFlowSim.Trace.Stats
import KvFlowSim.Trace.Jsonl
import KvFlowSim.Serving.Conservation
import KvFlowSim.Serving.Exclusive
import KvFlowSim.Cache.Reachable
import KvFlowSim.Serving.NoHits
import KvFlowSim.Serving.Reproducible
import KvFlowSim.Cluster.Alike
import KvFlowSim.Policy.Oblivious
import KvFlowSim.Cluster.Uniform
import KvFlowSim.Serving.Lockstep
import KvFlowSim.Serving.LeftOver
import KvFlowSim.Serving.SameLoad
import KvFlowSim.Transfer.Queued
import KvFlowSim.Serving.NoReuse
import KvFlowSim.Cluster.Pool
import KvFlowSim.Serving.InTime
import KvFlowSim.Serving.Equivalence
import KvFlowSim.Serving.FirstCome
import KvFlowSim.Policy.Scoring
import KvFlowSim.Policy.Wasted
import KvFlowSim.Policy.Placing
import KvFlowSim.Serving.Recency
import KvFlowSim.Serving.AmpleCache
import KvFlowSim.Serving.Charged
import KvFlowSim.Serving.Timeline
import KvFlowSim.Serving.Rerun
import KvFlowSim.Transfer.WhatIf
import KvFlowSim.Transfer.Fifo
import KvFlowSim.Cache.Atomic
import KvFlowSim.Model.KvSize
import KvFlowSim.Trace.Synthetic
import KvFlowSim.Policy.GpuFirst
import KvFlowSim.Serving.PoolLoad
import KvFlowSim.Serving.FirstToken
import KvFlowSim.Serving.Metrics
import KvFlowSim.Core.StableQueue
import KvFlowSim.Cluster.Selection
