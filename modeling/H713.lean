import H713.CpuComm.Socket.Ack
import H713.CpuComm.Socket.Call
import H713.CpuComm.Routine.Bulk
import H713.CpuComm.Rpc.Marshal
import H713.CpuComm.Action.Acks
import H713.CpuComm.Action.Slots
import H713.CpuComm.Channel.Calls
import H713.CpuComm.SpinLock.Assign
import H713.CpuComm.SpinLock.Solo
import H713.CpuComm.SpinLock.Reset
import H713.Userspace.SharedMem
import H713.Userspace.CallById
import H713.BoardMgr.Ntc
import H713.Keystone.Edges
import H713.CpuComm.User
import H713.Tvtop.Refcount
import H713.CpuComm.Component.Listeners
import H713.CpuComm.Routine.Names
import H713.CpuComm.Reset.Slots
import H713.Ge2d.Bounds
import H713.CpuComm.Smm.Order
import H713.CpuComm.Smm.Capacity
import H713.CpuComm.Channel.Outcome
import H713.CpuComm.Socket.Refinement
import H713.CpuComm.Socket.Sessions
import H713.CpuComm.Action.Pointers
import H713.Decd.Shutdown
import H713.Decd.Owners
import H713.Decd.Submit
import H713.Decd.VsyncRing
import H713.Decd.Debug
import H713.Drm.Pipe
import H713.AudioBridge.CopyRing
import H713.AudioBridge.Segments
import H713.Codec.Suspend
import H713.Pwm.Frame
import H713.Pwm.Period
import H713.Userspace.Name2Id
import H713.Userspace.Gamma
import H713.Keystone.Position
import H713.Keystone.Commands
import H713.Mipsloader.Scan
import H713.Mipsloader.Poll
import H713.Av1.Formats
import H713.Msgbox.Enable
import H713.Msgbox.Payload
import H713.Tools.PatchEnv
import H713.Wifi.FrameQueue
