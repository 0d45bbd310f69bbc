import Yaza.Zwin.Refinement
import Yaza.Zwin.AppLink
import Yaza.Gles.Direct
import Yaza.Input.Listen
import Yaza.Server.Dragging
import Yaza.Server.Seats
import Yaza.Server.Answers
import Yaza.Wayland.DataPool
import Yaza.Wayland.Texels
import Yaza.Server.Roles
import Yaza.Server.Selection
import Yaza.Server.Layers
import Yaza.Server.Keyboard
import Yaza.Server.Informed
import Yaza.Server.Contents
import Yaza.Server.Handles
import Yaza.Zwin.Leaves
import Yaza.Zwin.Linking
import Yaza.Zwin.Uploads
import Yaza.Zwin.Slots
import Yaza.Zwin.Bindings
import Yaza.Zwin.Uniforms
import Yaza.Zwin.DoubleBuffering
import Yaza.Server.Drawing
import Yaza.Shm.Keeping
import Yaza.Server.Focusing
import Yaza.Remote.FrameTimer
import Yaza.Wayland.Picking
import Yaza.Zwin.Picking
import Yaza.Server.Cursors
import Yaza.Server.Hotspot
import Yaza.Server.Following
import Yaza.Server.Pressing
import Yaza.Zwin.Samplers
import Yaza.Zwin.Damage
import Yaza.Shm.Extents
import Yaza.Util.WeakResource
import Yaza.Util.BlockSafety
import Yaza.Server.Offsets
import Yaza.Zwin.Replication
import Yaza.Zwin.Addressing
import Yaza.Zwin.Confinement
import Yaza.Server.Delivery
import Yaza.Server.Safety
import Yaza.Server.Windows
import Yaza.Shm.Access
import Yaza.Shm.Seals
import Yaza.Util.Emission
