import HeptaVcn.Native.IpReflect

/-!
# The native methods, `entry.cpp`

What `IPreflectorTunnel` calls: the whole of a session and, after its end, another stop;
and the stop itself, which may come from another thread at any time.
-/

namespace HeptaVcn.Entry

open Machine

/-- `NativeStartVpn` -/
def nativeStartVpn (inetAddr : String → BitVec 32) (interface : ℤ) (ipaddr : String)
    (port : CInt) : Program Sys ℤ := do
  let ret ← IpReflect.ipReflectStart inetAddr interface ipaddr port
  let _ ← IpReflect.ipReflectStop
  pure ret

/-- `NativeStopVpn` -/
def nativeStopVpn : Program Sys Unit := do
  let _ ← IpReflect.ipReflectStop

end HeptaVcn.Entry
