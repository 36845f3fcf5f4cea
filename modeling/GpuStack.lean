import GpuStack.Admission.Exact
import GpuStack.Admission.Charged
import GpuStack.DevicePlugin.Strict
import GpuStack.DevicePlugin.Occupancy
import GpuStack.Elastic.Reconcile
import GpuStack.Scaler.Independence
import GpuStack.Scaler.Undo
import GpuStack.Scaler.Stabilization
import GpuStack.Retirement.Runs
import GpuStack.Download.Crash
import GpuStack.Download.Count
import GpuStack.Download.Recovery
import GpuStack.Metax.Exclusive
import GpuStack.Reclaim.Absences
import GpuStack.Nvidia.Ownership
import GpuStack.Hygon.Slices
import GpuStack.Admission.SharedRoom
import GpuStack.Admission.SliceRoom
import GpuStack.Admission.Counting
import GpuStack.Device.Selection
import GpuStack.DevicePlugin.PartitionPool
import GpuStack.DevicePlugin.HintTaken
import GpuStack.DevicePlugin.HintShape
import GpuStack.Rdma.Grant
import GpuStack.Rollout.Release
import GpuStack.Rollout.Exclusive
import GpuStack.Rollout.Capacity
import GpuStack.Thead.AllocTable
import GpuStack.Priors.LaunchParameters
import GpuStack.DevicePlugin.SliceMemory
import GpuStack.ModelArtifact.Affinity
import GpuStack.ModelArtifact.Glob
import GpuStack.Amd.Cumask
import GpuStack.Metax.Retry
import GpuStack.Cambricon.Runs
import GpuStack.DevicePlugin.Tokens
import GpuStack.ModelArtifact.MountInfo
import GpuStack.NodeFeature.Profiles
