import Pathological.Framework.System
import Pathological.Scheduler.Steps
import Pathological.Scheduler.WellFormed
import Pathological.Scheduler.Conservation
import Pathological.Scheduler.Accounting
import Pathological.Scheduler.Finality
import Pathological.Scheduler.Orphans
import Pathological.Scheduler.WorkerTable
import Pathological.Scheduler.Connections
import Pathological.Scheduler.StaleCompletion
import Pathological.Cluster.Model
import Pathological.Cluster.Completion
import Pathological.Cluster.FailedCalls
import Pathological.Cluster.Registration
import Pathological.Framework.Tiling
import Pathological.RenderWorker.PathTracer
import Pathological.RenderWorker.TiledRender
import Pathological.Framework.Before
import Pathological.Scheduler.ProgressOrder
import Pathological.Framework.DepthFirst
import Pathological.RenderWorker.Gltf
import Pathological.RenderWorker.SceneBuilder
import Pathological.RenderWorker.SceneGraph
import Pathological.RenderWorker.LoadedScene
import Pathological.RenderWorker.Hierarchy
import Pathological.RenderWorker.Animation
import Pathological.RenderWorker.Flatten
import Pathological.Framework.Threads
import Pathological.RenderWorker.SharedFiles
import Pathological.Scheduler.Wakeup
import Pathological.Framework.Locks
import Pathological.Scheduler.Deadlock
import Pathological.Scheduler.SceneUpload
import Pathological.Framework.PieceSizes
import Pathological.RenderWorker.TileSizes
import Pathological.Framework.Keyframes
import Pathological.RenderWorker.Sampling
import Pathological.Framework.Overwrites
import Pathological.RenderWorker.AnimatedScene
import Pathological.RenderWorker.AnimatedTransforms
import Pathological.Framework.Runs
import Pathological.RenderWorker.MaterialIndices
import Pathological.RenderWorker.TriangleList
import Pathological.RenderWorker.VertexLayout
import Pathological.RenderWorker.SavedFrame
import Pathological.Framework.Descent
import Pathological.RenderWorker.LoaderBounds
import Pathological.Scheduler.Assignment
import Pathological.Scheduler.Stop
import Pathological.Scheduler.RejectedUploads
import Pathological.Framework.Separator
import Pathological.Cluster.SceneKeys
import Pathological.Cluster.FrameKeys
import Pathological.Framework.PercentEncoding
import Pathological.Scheduler.RenderJob
import Pathological.Frontend.FrameNames
import Pathological.Frontend.ImageKeys
import Pathological.Framework.Words
import Pathological.RenderWorker.RandomWords
import Pathological.Cluster.RequestedNumbers
import Pathological.RenderWorker.LocalFiles
import Pathological.Frontend.SubmitPage
import Pathological.Framework.UrlQuery
import Pathological.Framework.Potential
import Pathological.Scheduler.Work
import Pathological.Cluster.Draining
import Pathological.Cluster.Reliable
import Pathological.Cluster.Rest
import Pathological.Framework.Queue
import Pathological.Scheduler.QueueOrder
import Pathological.Framework.Frame
import Pathological.RenderWorker.ExactGlsl
import Pathological.RenderWorker.Rays
import Pathological.RenderWorker.Radiance
import Pathological.Cluster.Bucket
import Pathological.Frontend.RenderImage
import Pathological.Frontend.ShownFrames
