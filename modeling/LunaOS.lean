import LunaOS.Lib.Runs
import LunaOS.Lib.Slots
import LunaOS.Lib.Ledger
import LunaOS.Drm.Requests
import LunaOS.Drm.Shim
import LunaOS.Drm.Table
import LunaOS.Drm.Refinement
import LunaOS.Drm.Geometry
import LunaOS.Drm.Crtc
import LunaOS.Drm.MapOffsets
import LunaOS.Gbm.Bo
import LunaOS.Gbm.Clients
import LunaOS.Gbm.Isolation
import LunaOS.Lib.LexicalPath
import LunaOS.Seatd.Client
import LunaOS.Seatd.Paths
import LunaOS.Lib.Chunks
import LunaOS.Seatd.Framing
import LunaOS.Seatd.Server
import LunaOS.Seatd.Outcomes
import LunaOS.Seatd.Invariant
import LunaOS.Seatd.Sources
import LunaOS.Seatd.Admission
import LunaOS.Evdev.Device
import LunaOS.Lib.Frames
import LunaOS.Evdev.Stream
import LunaOS.Evdev.Touch
import LunaOS.EventLoop.Loop
import LunaOS.EventLoop.Removal
import LunaOS.EventLoop.Capacity
import LunaOS.Compositor.Server
import LunaOS.Compositor.Stacking
import LunaOS.Compositor.Activation
import LunaOS.Compositor.Lifetimes
import LunaOS.Compositor.Routing
import LunaOS.Compositor.KeyStream
import LunaOS.Lib.Custody
import LunaOS.Shell.Surfaces
import LunaOS.Shell.Handshake
import LunaOS.Shell.Ownership
import LunaOS.Lib.Monitors
import LunaOS.Drm.Modeset
import LunaOS.Drm.Framebuffers
import LunaOS.Lib.Copies
import LunaOS.Drm.Blit
import LunaOS.Gbm.Objects
import LunaOS.Gbm.LiveHandles
import LunaOS.Gbm.Locking
import LunaOS.Shell.Main
import LunaOS.Shell.Panels
import LunaOS.Seatd.Grants
import LunaOS.Seatd.Exchange
import LunaOS.Evdev.Contacts
import LunaOS.Evdev.TouchButton
import LunaOS.Evdev.KeyState
import LunaOS.EventLoop.Suspension
import LunaOS.EventLoop.Timers
import LunaOS.EventLoop.OneShot
import LunaOS.EventLoop.Writability
import LunaOS.Compositor.CloseFocused
import LunaOS.Compositor.Taskbar
import LunaOS.Compositor.HitTest
import LunaOS.Lib.Lines
import LunaOS.Shell.DesktopEntry
import LunaOS.Shell.Apps
import LunaOS.Lib.Replace
import LunaOS.Kernel.FixBuildXnu
import LunaOS.Apps.Editor
import LunaOS.Lib.Comparators
import LunaOS.Lib.CStrings
import LunaOS.Apps.Files
import LunaOS.Lib.Ints
import LunaOS.Lib.Rects
import LunaOS.Shell.Drawing
import LunaOS.Shell.PanelDrawing
import LunaOS.Shell.PanelZones
import LunaOS.Shell.PanelBounds
import LunaOS.Shell.LauncherDrawing
import LunaOS.Shell.LauncherGrid
import LunaOS.Shell.Buffers
import LunaOS.Shell.LauncherBounds
import LunaOS.Drm.Pitch
import LunaOS.Lib.Linearize
import LunaOS.Drm.Concurrent
import LunaOS.Lib.Dialogues
import LunaOS.Lib.Layers
import LunaOS.Drm.Libdrm
import LunaOS.Drm.Store
import LunaOS.Lib.Codecs
import LunaOS.Evdev.Bridge
import LunaOS.Drm.Wire
import LunaOS.Drm.EndToEnd
import LunaOS.Lib.Loans
import LunaOS.Drm.Handles
import LunaOS.EventLoop.Handlers
import LunaOS.Seatd.Protocol
import LunaOS.Seatd.Custody
import LunaOS.Seatd.Descriptors
import LunaOS.Seatd.Replies
import LunaOS.Seatd.Progress
import LunaOS.Seatd.Schedules
