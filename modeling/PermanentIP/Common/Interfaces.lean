import PermanentIP.Common.Types

/-!
# The device's address (`Utils::GetCurrentIPAddress`)

`getifaddrs` gives the device's interfaces as a list, each entry with the
address of one interface, or with none. An address is a `sockaddr`: a family,
and bytes whose meaning the family says. `GetCurrentIPAddress` casts every one
of them to `sockaddr_in` and reads four bytes where an IPv4 address would be,
so the model keeps the bytes.
-/

namespace PermanentIP

/-- `AF_INET` -/
def afInet : UInt16 := 2

/-- `struct sockaddr` -/
structure InterfaceAddr where
  saFamily : UInt16
  saData : Vector UInt8 14
deriving DecidableEq

/-- `((struct sockaddr_in*) addr)->sin_addr.s_addr`, on a little-endian machine:
the port takes the first two bytes of `sa_data`. -/
def InterfaceAddr.sAddr (a : InterfaceAddr) : UInt32 :=
  UInt32.ofNat (a.saData[2].toNat + a.saData[3].toNat * 256 +
    a.saData[4].toNat * 65536 + a.saData[5].toNat * 16777216)

/-- An entry of the list `getifaddrs` gives -/
structure IfAddrs where
  ifaAddr : Option InterfaceAddr
deriving DecidableEq

def getCurrentIPAddress : List IfAddrs → Int32
  | [] => -1
  | ifAddress :: ifaNext =>
      match ifAddress.ifaAddr with
      | none => getCurrentIPAddress ifaNext
      | some address =>
          if (address.sAddr <<< 24) >>> 24 > 127 then address.sAddr.toInt32
          else getCurrentIPAddress ifaNext

/-! ## A device with one interface -/

/-- An IPv4 address as `getifaddrs` gives it -/
def InterfaceAddr.inet (addr : UInt32) : InterfaceAddr :=
  let byte (weight : Nat) : UInt8 := UInt8.ofNat (addr.toNat / weight)
  ⟨afInet, #v[0, 0, byte 1, byte 256, byte 65536, byte 16777216,
    0, 0, 0, 0, 0, 0, 0, 0]⟩

/-- 127.0.0.1 and one more -/
def interfacesAt (ip : Int32) : List IfAddrs :=
  [⟨some (.inet 0x0100007F)⟩, ⟨some (.inet ip.toUInt32)⟩]

/-- What `GetCurrentIPAddress()` returns on a device whose address is `ip` -/
def currentIPAddress (ip : Int32) : Int32 := getCurrentIPAddress (interfacesAt ip)

end PermanentIP
