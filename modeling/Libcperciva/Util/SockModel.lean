import Libcperciva.Util.ParsenumModel
import Libcperciva.Util.Sysendian
import Mathlib.Data.Nat.Digits.Defs

/-!
# Socket addresses, `util/sock.c` and `util/sock_util.c`

A string is the list of its bytes, without the NUL that ends it.  A socket
address holds the bytes of a `struct sockaddr`; the structures are those of a
little-endian machine with Linux.  The functions of the system are parameters.
Allocations succeed.
-/

namespace Libcperciva.Util.SockModel

open Libcperciva.Util.Cstring
open Libcperciva.Util.ParsenumModel
open Libcperciva.Util.SizeT
open Libcperciva.Util.Sysendian

/-! ## Socket addresses -/

def AF_UNIX : Int32 := 1
def AF_INET : Int32 := 2
def AF_INET6 : Int32 := 10
def SOCK_STREAM : Int32 := 1

/-- `INET_ADDRSTRLEN`. -/
def INET_ADDRSTRLEN : Nat := 16

/-- `INET6_ADDRSTRLEN`. -/
def INET6_ADDRSTRLEN : Nat := 46

/-- `sizeof(sa_un->sun_path)`. -/
def sunPathSize : Nat := 108

/-- `struct sock_addr`, with the name it points to. -/
@[ext]
structure SockAddr where
  aiFamily : Int32
  aiSocktype : Int32
  name : List UInt8
  namelen : UInt32
  length : name.length = namelen.toNat
deriving DecidableEq

/-- The functions of the system. -/
structure System where
  /-- `getaddrinfo`, with the hints of `sock_resolve_host`. -/
  getaddrinfo : (node service : List UInt8) → Option (List SockAddr)
  /-- `inet_pton`; `none` if it does not return 1. -/
  inetPton : (af : Int32) → (src : List UInt8) → Option (List UInt8)
  /-- `inet_ntop`; `none` is NULL. -/
  inetNtop : (af : Int32) → (src : List UInt8) → (size : Nat) →
    Option (List UInt8)

/-- The bytes of `htons`, and of a number in this byte order. -/
def htons (p : Nat) : List UInt8 :=
  [UInt8.ofNat (p / 256), UInt8.ofNat p]

/-- `ntohs`, of the two bytes at a position. -/
def ntohs (name : List UInt8) (position : Nat) : Nat :=
  (name.getD position 0).toNat * 256 + (name.getD (position + 1) 0).toNat

/-- `struct sockaddr_in`: family, port, address and zeros. -/
def sockaddrIn (port addr : List UInt8) : List UInt8 :=
  [2, 0] ++ port ++ addr ++ List.replicate 8 0

/-- `struct sockaddr_in6`: family, port, flow information, address and
scope. -/
def sockaddrIn6 (port addr : List UInt8) : List UInt8 :=
  [10, 0] ++ port ++ List.replicate 4 0 ++ addr ++ List.replicate 4 0

/-- `struct sockaddr_un`: family and path. -/
def sockaddrUn (path : List UInt8) : List UInt8 :=
  [1, 0] ++ path ++ List.replicate (sunPathSize - path.length) 0

/-- A wrapper of a structure of `namelen` bytes. -/
def wrap (family : Int32) (name : List UInt8) (namelen : UInt32) :
    Option SockAddr :=
  if length : name.length = namelen.toNat then
    some ⟨family, SOCK_STREAM, name, namelen, length⟩
  else none

/-! ## Strings -/

/-- `strrchr`; the position of the last occurrence. -/
def strrchr : (s : List UInt8) → (c : UInt8) → Option Nat
  | [], _ => none
  | b :: s, c =>
      match strrchr s c with
      | some position => some (position + 1)
      | none => if b = c then some 0 else none

/-- The conversion `%d`, of a number that is not negative. -/
def decimal (n : Nat) : List UInt8 :=
  if n = 0 then [48]
  else (Nat.digits 10 n).reverse.map fun digit => UInt8.ofNat (48 + digit)

/-- `[%s]:%d`. -/
def bracketed (addr : List UInt8) (port : Nat) : List UInt8 :=
  [91] ++ addr ++ [93, 58] ++ decimal port

/-- `sock_addr_validate`; is the string valid? -/
def sockAddrValidate (addr : List UInt8) : Bool :=
  addr ≠ [] && addr.head? ≠ some 58

/-- `sock_addr_ensure_port`. -/
def sockAddrEnsurePort (addr : List UInt8) : List UInt8 :=
  let cr := strrchr addr 58
  if cr = some 0 then addr
  else if addr.head? = some 47 then addr
  else if addr.head? ≠ some 91 then
    if cr = none then addr ++ [58, 48] else addr
  else
    match cr with
    | none => addr ++ [58, 48]
    | some cr => if addr[cr - 1]? ≠ some 93 then addr ++ [58, 48] else addr

/-! ## Resolving -/

/-- `long`. -/
def long : IntType := ⟨true, 64, intmax.positive, intmax.fits⟩

/-- `sock_resolve_unix`. -/
def sockResolveUnix (addr : List UInt8) : Option (List SockAddr) :=
  if strlen addr ≥ sunPathSize then none
  else (wrap AF_UNIX (sockaddrUn addr) 110).map fun sa => [sa]

/-- `sock_resolve_host`. -/
def sockResolveHost (sys : System) (addr ports : List UInt8) :
    Option (List SockAddr) := sys.getaddrinfo addr ports

/-- `sock_resolve_ipv6`. -/
def sockResolveIpv6 (sys : System) (addr : List UInt8) (p : Nat) :
    Option (List SockAddr) :=
  match sys.inetPton AF_INET6 addr with
  | none => none
  | some sin6Addr =>
      (wrap AF_INET6 (sockaddrIn6 (htons p) sin6Addr) 28).map fun sa => [sa]

/-- `sock_resolve_ipv4`. -/
def sockResolveIpv4 (sys : System) (addr : List UInt8) (p : Nat) :
    Option (List SockAddr) :=
  match sys.inetPton AF_INET addr with
  | none => none
  | some sinAddr =>
      (wrap AF_INET (sockaddrIn (htons p) sinAddr) 16).map fun sa => [sa]

/-- `sock_resolve`; the list does not have the NULL at its end. -/
def sockResolve (sys : System) (addr : List UInt8) :
    Option (List SockAddr) :=
  if !sockAddrValidate addr then none
  else if addr.head? = some 47 then sockResolveUnix addr
  else
    match strrchr addr 58 with
    | none => none
    | some colon =>
        let s := addr.take colon
        let ports := addr.drop (colon + 1)
        if s.head? ≠ some 91 then sockResolveHost sys s ports
        else if s.getLast? ≠ some 93 then none
        else
          let ips := s.tail.dropLast
          match parsenumEx6 long ports 1 65535 10 false with
          | none => none
          | some p =>
              let p := (p % 2 ^ 16).toNat
              if 58 ∈ ips then sockResolveIpv6 sys ips p
              else sockResolveIpv4 sys ips p

/-- `sock_resolve_one`. -/
def sockResolveOne (sys : System) (addr : List UInt8) (addport : Bool) :
    Option SockAddr :=
  let addr := if addport then sockAddrEnsurePort addr else addr
  (sockResolve sys addr).bind List.head?

/-! ## Printing and comparing -/

/-- The function reads behind the end of a name. -/
inductive OutOfBounds where
  | name
deriving DecidableEq

/-- `prettyprint_ipv4`. -/
def prettyprintIpv4 (sys : System) (name : List UInt8) :
    Option (List UInt8) :=
  if name.length ≠ 16 then none
  else
    (sys.inetNtop AF_INET ((name.drop 4).take 4) INET_ADDRSTRLEN).map
      fun addr => bracketed addr (ntohs name 2)

/-- `prettyprint_ipv6`. -/
def prettyprintIpv6 (sys : System) (name : List UInt8) :
    Option (List UInt8) :=
  if name.length ≠ 28 then none
  else
    (sys.inetNtop AF_INET6 ((name.drop 8).take 16) INET6_ADDRSTRLEN).map
      fun addr => bracketed addr (ntohs name 2)

/-- `prettyprint_unix`. -/
def prettyprintUnix (name : List UInt8) : Except OutOfBounds (List UInt8) :=
  if 0 ∈ name.drop 2 then .ok ((name.drop 2).takeWhile (· ≠ 0))
  else .error .name

/-- The bytes of "Unknown address". -/
def unknownAddress : List UInt8 :=
  [85, 110, 107, 110, 111, 119, 110, 32, 97, 100, 100, 114, 101, 115, 115]

/-- `sock_addr_prettyprint`; `none` is NULL. -/
def sockAddrPrettyprint (sys : System) (sa : SockAddr) :
    Except OutOfBounds (Option (List UInt8)) :=
  if sa.aiFamily = AF_INET then .ok (prettyprintIpv4 sys sa.name)
  else if sa.aiFamily = AF_INET6 then .ok (prettyprintIpv6 sys sa.name)
  else if sa.aiFamily = AF_UNIX then (prettyprintUnix sa.name).map some
  else .ok (some unknownAddress)

/-- `sock_addr_cmp`. -/
def sockAddrCmp (sa1 sa2 : SockAddr) : Nat :=
  if sa1.aiFamily ≠ sa2.aiFamily ∨ sa1.aiSocktype ≠ sa2.aiSocktype ∨
      sa1.namelen ≠ sa2.namelen then 1
  else if sa1.name ≠ sa2.name then 1
  else 0

/-! ## Serialized addresses -/

/-- `2 * sizeof(int) + sizeof(socklen_t)`. -/
def headerSize : Nat := sizeAdd (sizeMul 2 4) 4

/-- `sock_addr_serialize`; the buffer and its length. -/
def sockAddrSerialize (sa : SockAddr) : List UInt8 × Nat :=
  (le32enc sa.aiFamily.toUInt32 ++ le32enc sa.aiSocktype.toUInt32 ++
    le32enc sa.namelen ++ sa.name, sizeAdd headerSize sa.namelen.toNat)

/-- A number of four bytes at a position. -/
def fieldAt (buf : List UInt8) (position : Nat) : UInt32 :=
  le32dec fun j => buf.getD (position + j) 0

theorem sizeAdd_headerSize (namelen : UInt32) :
    sizeAdd headerSize namelen.toNat = 12 + namelen.toNat := by
  have small := namelen.toNat_lt
  have header : headerSize = 12 := by decide
  rw [header]
  exact sizeAdd_eq (by omega)

/-- The name of a buffer of the right size. -/
theorem length_name {buf : List UInt8} {namelen : UInt32}
    (size : ¬ buf.length ≠ sizeAdd headerSize namelen.toNat) :
    ((buf.drop 12).take namelen.toNat).length = namelen.toNat := by
  rw [not_not, sizeAdd_headerSize] at size
  rw [List.length_take, List.length_drop]
  omega

/-- `sock_addr_deserialize`. -/
def sockAddrDeserialize (buf : List UInt8) : Option SockAddr :=
  if buf.length < headerSize then none
  else
    let namelen := fieldAt buf 8
    if size : buf.length ≠ sizeAdd headerSize namelen.toNat then none
    else
      some ⟨Int32.ofUInt32 (fieldAt buf 0), Int32.ofUInt32 (fieldAt buf 4),
        (buf.drop 12).take namelen.toNat, namelen, length_name size⟩

end Libcperciva.Util.SockModel
