import C64Iec.Client.DataBounds
import C64Iec.Client.ErrorPackets
import C64Iec.Client.FileOutput
import C64Iec.Client.Wedge

set_option autoImplicit false

/-! # What `send_file` returns

`send_file` returns `1` when it leaves its loops, and its caller takes that for a complete LOAD
(`Loaded`). The loops are also left when they were never entered, with no request of this call sent,
they are entered for a GET that is still in progress, and any short DATA packet ends them, whoever has
sent it and whatever its number. So no state is safe from a wrong report; when the server's blocks come
one after another and nothing else does, `reportsLoads_iff` says which states are.
-/

namespace C64Iec.Client

open Lib

section Blocks

variable (myip : Bytes) (serverip : Vector Byte 4)

end Blocks

/-! ## The start -/

section Turns

variable {myip : Bytes} {g g' : Globals} {l : SendFile} {out : List Output}

end Turns

/-! ## The report -/

end C64Iec.Client
