import MongoShardingPoc.GoValues
import MongoShardingPoc.Bson
import MongoShardingPoc.Config
import MongoShardingPoc.Loadbalancer.StaticResolver
import MongoShardingPoc.Loadbalancer.PeriodicDNS
import MongoShardingPoc.Loadbalancer.PeriodicDNSOnce
import MongoShardingPoc.Loadbalancer.PeriodicDNSClosed
import MongoShardingPoc.Loadbalancer.PeriodicDNSShutdown
import MongoShardingPoc.Sharding.BatchInsert
import MongoShardingPoc.Sharding.ShardStats
import MongoShardingPoc.Sharding.Zones
import MongoShardingPoc.Operations.ChunkInfo
import MongoShardingPoc.Operations.Balancer
import MongoShardingPoc.Operations.Hedged
import MongoShardingPoc.Throughput.BulkInsert
import MongoShardingPoc.Throughput.BulkInsertSafety
import MongoShardingPoc.Throughput.BulkInsertProgress
import MongoShardingPoc.Throughput.Mixed
import MongoShardingPoc.Throughput.MixedSafety
import MongoShardingPoc.Cluster.Status
import MongoShardingPoc.Cluster.Setup
import MongoShardingPoc.HA.Primary
import MongoShardingPoc.HA.Jumbo
import MongoShardingPoc.HA.Labs
import MongoShardingPoc.Setup.Main
