import OpenTogetherTube.Balancer.Authority
import OpenTogetherTube.Balancer.Cluster
import OpenTogetherTube.Balancer.Connections
import OpenTogetherTube.Balancer.Context
import OpenTogetherTube.Balancer.Delivery
import OpenTogetherTube.Balancer.Deregistration
import OpenTogetherTube.Balancer.Discovery
import OpenTogetherTube.Balancer.FailedJoins
import OpenTogetherTube.Balancer.Gossip
import OpenTogetherTube.Balancer.Integrity
import OpenTogetherTube.Balancer.OldestHolder
import OpenTogetherTube.Balancer.OldestLoad
import OpenTogetherTube.Balancer.Placement
import OpenTogetherTube.Balancer.Presence
import OpenTogetherTube.Balancer.Readiness
import OpenTogetherTube.Balancer.Rest
import OpenTogetherTube.Balancer.RoomNames
import OpenTogetherTube.Balancer.RoomSync
import OpenTogetherTube.Balancer.Segments
import OpenTogetherTube.Balancer.Selection
import OpenTogetherTube.Balancer.Supervision
import OpenTogetherTube.Balancer.Tasks
import OpenTogetherTube.Balancer.Work
import OpenTogetherTube.Client.AddPreview
import OpenTogetherTube.Client.Connection
import OpenTogetherTube.Client.PermissionsEditor
import OpenTogetherTube.Client.ProcessedText
import OpenTogetherTube.Client.Replica
import OpenTogetherTube.Client.RoomStore
import OpenTogetherTube.Client.SettingsForm
import OpenTogetherTube.Client.Timestamps
import OpenTogetherTube.Client.Toasts
import OpenTogetherTube.Client.UserList
import OpenTogetherTube.Client.UserStore
import OpenTogetherTube.Common.AnyGrants
import OpenTogetherTube.Common.GrantForms
import OpenTogetherTube.Common.Granted
import OpenTogetherTube.Common.Grants
import OpenTogetherTube.Common.Models
import OpenTogetherTube.Common.Numerals
import OpenTogetherTube.Common.Permissions
import OpenTogetherTube.Lib.Calls
import OpenTogetherTube.Lib.Cursor
import OpenTogetherTube.Lib.Decode
import OpenTogetherTube.Lib.Grouping
import OpenTogetherTube.Lib.Handler
import OpenTogetherTube.Lib.Json
import OpenTogetherTube.Lib.Levels
import OpenTogetherTube.Lib.Lines
import OpenTogetherTube.Lib.Machine
import OpenTogetherTube.Lib.Mirror
import OpenTogetherTube.Lib.Neighbours
import OpenTogetherTube.Lib.Operators
import OpenTogetherTube.Lib.OrderedMap
import OpenTogetherTube.Lib.PlainObject
import OpenTogetherTube.Lib.Rest
import OpenTogetherTube.Lib.Routine
import OpenTogetherTube.Lib.StepIntegral
import OpenTogetherTube.Lib.Table
import OpenTogetherTube.Lib.Tasks
import OpenTogetherTube.Panel.Aggregate
import OpenTogetherTube.Panel.FilterTreeGroups
import OpenTogetherTube.Panel.Hierarchy
import OpenTogetherTube.Panel.MergeTrees
import OpenTogetherTube.Panel.PruneTrees
import OpenTogetherTube.Server.AccountLink
import OpenTogetherTube.Server.AccountUpdates
import OpenTogetherTube.Server.Advance
import OpenTogetherTube.Server.AfterUnload
import OpenTogetherTube.Server.Announce
import OpenTogetherTube.Server.Appointment
import OpenTogetherTube.Server.AutoSkip
import OpenTogetherTube.Server.BalancerManager
import OpenTogetherTube.Server.BulkCache
import OpenTogetherTube.Server.BulkLookup
import OpenTogetherTube.Server.ClassifiedLinks
import OpenTogetherTube.Server.ClientManager
import OpenTogetherTube.Server.ConcurrentQueue
import OpenTogetherTube.Server.Constructor
import OpenTogetherTube.Server.Creation
import OpenTogetherTube.Server.Dirty
import OpenTogetherTube.Server.Duplicates
import OpenTogetherTube.Server.Durations
import OpenTogetherTube.Server.Emission
import OpenTogetherTube.Server.Escapes
import OpenTogetherTube.Server.Frames
import OpenTogetherTube.Server.Ghosts
import OpenTogetherTube.Server.GrantEdits
import OpenTogetherTube.Server.Handshake
import OpenTogetherTube.Server.Identity
import OpenTogetherTube.Server.InfoExtractor
import OpenTogetherTube.Server.InstanceIds
import OpenTogetherTube.Server.Instances
import OpenTogetherTube.Server.Keepalive
import OpenTogetherTube.Server.Kicks
import OpenTogetherTube.Server.LinkClasses
import OpenTogetherTube.Server.LoginLimit
import OpenTogetherTube.Server.LoginNames
import OpenTogetherTube.Server.LookedUp
import OpenTogetherTube.Server.LoopMode
import OpenTogetherTube.Server.Mediation
import OpenTogetherTube.Server.Numeric
import OpenTogetherTube.Server.OdyseePaths
import OpenTogetherTube.Server.Persistence
import OpenTogetherTube.Server.PlutoLinks
import OpenTogetherTube.Server.Position
import OpenTogetherTube.Server.Promotion
import OpenTogetherTube.Server.QueueImport
import OpenTogetherTube.Server.QueueVotes
import OpenTogetherTube.Server.RateLimits
import OpenTogetherTube.Server.Recovery
import OpenTogetherTube.Server.RecoveryKeys
import OpenTogetherTube.Server.Rejection
import OpenTogetherTube.Server.Reload
import OpenTogetherTube.Server.Requests
import OpenTogetherTube.Server.Room
import OpenTogetherTube.Server.RoomLookup
import OpenTogetherTube.Server.RoomManager
import OpenTogetherTube.Server.Settings
import OpenTogetherTube.Server.SettingsEffect
import OpenTogetherTube.Server.SkipSegments
import OpenTogetherTube.Server.SkipVotes
import OpenTogetherTube.Server.Started
import OpenTogetherTube.Server.Stock
import OpenTogetherTube.Server.Survival
import OpenTogetherTube.Server.Sync
import OpenTogetherTube.Server.UndoAdd
import OpenTogetherTube.Server.UndoSkip
import OpenTogetherTube.Server.UniqueRooms
import OpenTogetherTube.Server.Unloading
import OpenTogetherTube.Server.UserMessages
import OpenTogetherTube.Server.UserModified
import OpenTogetherTube.Server.VideoCache
import OpenTogetherTube.Server.VideoQueue
import OpenTogetherTube.Server.YoutubeLinks
