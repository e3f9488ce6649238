import SeminarTouhou.Library.Ownership
import SeminarTouhou.Level.ObjectPool
import SeminarTouhou.Level.BulletReturn
import SeminarTouhou.Level.BossPhase
import SeminarTouhou.Level.LevelSession
import SeminarTouhou.Level.ResultOnce
import SeminarTouhou.Level.StageOrder
import SeminarTouhou.Level.StageAttacks
import SeminarTouhou.Level.AttacksOver
import SeminarTouhou.Level.AttackSpacing
import SeminarTouhou.Level.WaveSpacing
import SeminarTouhou.Level.PoolSetUp
import SeminarTouhou.Level.BaseBullet
import SeminarTouhou.Level.Formations
import SeminarTouhou.Level.EnemyDeath
import SeminarTouhou.Level.PlayerBombs
import SeminarTouhou.Level.BackgroundSession
import SeminarTouhou.Level.HologramBombs
import SeminarTouhou.Level.Patrol
import SeminarTouhou.Level.DropPlaces
import SeminarTouhou.Network.ServerHandler
import SeminarTouhou.Network.HostSession
import SeminarTouhou.Network.ServerLaws
import SeminarTouhou.Network.EndDetection
import SeminarTouhou.Network.ClientHandler
import SeminarTouhou.Network.Attribution
import SeminarTouhou.Network.ServerSurvival
import SeminarTouhou.Network.ClientSurvival
import SeminarTouhou.Network.Connections
import SeminarTouhou.Network.PhaseAgreement
import SeminarTouhou.Network.Tombstones
import SeminarTouhou.Network.RosterConvergence
import SeminarTouhou.Network.Joining
import SeminarTouhou.Network.Bombs
import SeminarTouhou.Network.ReceiveLoop
import SeminarTouhou.Network.StoringResults
import SeminarTouhou.Network.Interpolation
import SeminarTouhou.Network.Starting
import SeminarTouhou.Network.Singletons
import SeminarTouhou.Network.Discovery
import SeminarTouhou.UI.ResultsDisplay
import SeminarTouhou.UI.Ranking
import SeminarTouhou.UI.AttackPower
import SeminarTouhou.UI.Scoreboard
import SeminarTouhou.Network.BoardConvergence
import SeminarTouhou.Network.Announcements
import SeminarTouhou.Network.BombCounts
import SeminarTouhou.Network.Positions
import SeminarTouhou.Network.Identities
import SeminarTouhou.Engine.EventSystem
import SeminarTouhou.Level.AttackOrder
import SeminarTouhou.Library.Layout
import SeminarTouhou.Level.PatrolBoss
import SeminarTouhou.Level.DropManager
import SeminarTouhou.Network.RoomIDs
import SeminarTouhou.Network.ActiveRooms
import SeminarTouhou.Level.HealthSession
import SeminarTouhou.Level.PickUps
import SeminarTouhou.Level.ScrollRate
import SeminarTouhou.Level.EnemyPath
import SeminarTouhou.Level.Shooting
import SeminarTouhou.UI.IconRows
import SeminarTouhou.Network.Lobbies
import SeminarTouhou.Network.LanRooms
import SeminarTouhou.Level.Actives
import SeminarTouhou.Network.Frames
import SeminarTouhou.Network.FrameRefinement
import SeminarTouhou.Network.FramePacing
import SeminarTouhou.Network.FrameDelivery
import SeminarTouhou.Network.FrameBacklog
