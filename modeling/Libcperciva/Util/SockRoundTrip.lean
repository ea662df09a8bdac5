import Libcperciva.Util.SockPort
import Mathlib.Data.List.GetD

/-!
# Printed and serialized addresses

What is printed for an address that was resolved is resolved to the same
address.  What is serialized is deserialized to the same address, and only
what was serialized is accepted.
-/

namespace Libcperciva.Util.SockRoundTrip

open Libcperciva.Util.Cstring
open Libcperciva.Util.ParsenumModel
open Libcperciva.Util.SizeT
open Libcperciva.Util.Sysendian
open Libcperciva.Util.SockModel
open Libcperciva.Util.SockText
open Libcperciva.Util.SockPort

variable {sys : System} {sa : SockAddr} {sas : List SockAddr}
  {addr ips name port buf pre post : List UInt8}

/-- `inet_ntop` prints the address which `inet_pton` has read so that it is
read again. -/
structure NtopDocumented (sys : System) : Prop where
  ipv4 : ∀ {src addr}, sys.inetPton AF_INET src = some addr →
    ∃ text, sys.inetNtop AF_INET addr INET_ADDRSTRLEN = some text ∧
      sys.inetPton AF_INET text = some addr
  ipv6 : ∀ {src addr}, sys.inetPton AF_INET6 src = some addr →
    ∃ text, sys.inetNtop AF_INET6 addr INET6_ADDRSTRLEN = some text ∧
      sys.inetPton AF_INET6 text = some addr

/-! ## Resolved addresses -/

/-- What `sock_resolve` finds. -/
inductive Resolved (sys : System) : SockAddr → Prop where
  | unix {path : List UInt8} (isPath : path.head? = some 47)
      (noNul : 0 ∉ path) (short : path.length < sunPathSize) :
      Resolved sys ⟨AF_UNIX, SOCK_STREAM, sockaddrUn path, 110,
        length_sockaddrUn short⟩
  | ipv4 {src addr : List UInt8} {p : Nat} (positive : 1 ≤ p)
      (small : p ≤ 65535) (accepted : sys.inetPton AF_INET src = some addr)
      (length : (sockaddrIn (htons p) addr).length = (16 : UInt32).toNat) :
      Resolved sys ⟨AF_INET, SOCK_STREAM, sockaddrIn (htons p) addr, 16,
        length⟩
  | ipv6 {src addr : List UInt8} {p : Nat} (positive : 1 ≤ p)
      (small : p ≤ 65535) (accepted : sys.inetPton AF_INET6 src = some addr)
      (length : (sockaddrIn6 (htons p) addr).length = (28 : UInt32).toNat) :
      Resolved sys ⟨AF_INET6, SOCK_STREAM, sockaddrIn6 (htons p) addr, 28,
        length⟩

/-- An address that begins with a bracket is resolved only if it is a literal
with a port. -/
theorem literal_of_resolves (isLiteral : addr.head? = some 91)
    (resolves : sockResolve sys addr = some sas) :
    ∃ ips ports, addr = literal ips (58 :: ports) ∧ 58 ∉ ports := by
  have notPath : ¬ addr.head? = some 47 := by
    rw [isLiteral]
    decide
  unfold sockResolve at resolves
  rw [if_neg notPath] at resolves
  cases found : strrchr addr 58 with
  | none =>
      rw [found, ite_self] at resolves
      exact absurd resolves (Option.some_ne_none _).symm
  | some colon =>
      rcases strrchr_split found with ⟨split, noColon⟩
      rw [found] at resolves
      dsimp only at resolves
      generalize addr.take colon = before at split resolves
      generalize addr.drop (colon + 1) = ports at split noColon resolves
      have begins : before.head? = some 91 := by
        cases before with
        | nil =>
            rw [split] at isLiteral
            exact absurd (Option.some.inj isLiteral) (by decide)
        | cons b rest =>
            rw [split] at isLiteral
            exact isLiteral
      rw [if_neg (not_not.mpr begins)] at resolves
      by_cases ends : before.getLast? = some 93
      · rcases List.getLast?_eq_some_iff.mp ends with ⟨init, isBefore⟩
        cases init with
        | nil =>
            rw [isBefore] at begins
            exact absurd (Option.some.inj begins) (by decide)
        | cons b ips =>
            rw [isBefore] at begins
            rcases begins with ⟨rfl⟩
            refine ⟨ips, ports, ?_, noColon⟩
            rw [split, isBefore, literal_split]
      · rw [if_pos ends, ite_self] at resolves
        exact absurd resolves (Option.some_ne_none _).symm

theorem sockResolveIpv4_resolved (documented : PtonDocumented sys) {p : Nat}
    (positive : 1 ≤ p) (small : p ≤ 65535)
    (resolves : sockResolveIpv4 sys ips p = some sas) :
    ∃ sa, sas = [sa] ∧ Resolved sys sa := by
  cases accepted : sys.inetPton AF_INET ips with
  | none =>
      unfold sockResolveIpv4 at resolves
      rw [accepted] at resolves
      exact absurd resolves (Option.some_ne_none _).symm
  | some addr =>
      rw [sockResolveIpv4_eq documented accepted] at resolves
      exact ⟨_, (Option.some.inj resolves).symm,
        Resolved.ipv4 positive small accepted _⟩

theorem sockResolveIpv6_resolved (documented : PtonDocumented sys) {p : Nat}
    (positive : 1 ≤ p) (small : p ≤ 65535)
    (resolves : sockResolveIpv6 sys ips p = some sas) :
    ∃ sa, sas = [sa] ∧ Resolved sys sa := by
  cases accepted : sys.inetPton AF_INET6 ips with
  | none =>
      unfold sockResolveIpv6 at resolves
      rw [accepted] at resolves
      exact absurd resolves (Option.some_ne_none _).symm
  | some addr =>
      rw [sockResolveIpv6_eq documented accepted] at resolves
      exact ⟨_, (Option.some.inj resolves).symm,
        Resolved.ipv6 positive small accepted _⟩

/-- There is one address, and its port is from 1 to 65535. -/
theorem sockResolve_resolved (documented : PtonDocumented sys)
    (noNul : 0 ∉ addr)
    (form : addr.head? = some 47 ∨ addr.head? = some 91)
    (resolves : sockResolve sys addr = some sas) :
    ∃ sa, sas = [sa] ∧ Resolved sys sa := by
  rcases form with isPath | isLiteral
  · rw [sockResolve_unix isPath] at resolves
    by_cases short : addr.length < sunPathSize
    · rw [sockResolveUnix_eq noNul short] at resolves
      exact ⟨_, (Option.some.inj resolves).symm,
        Resolved.unix isPath noNul short⟩
    · unfold sockResolveUnix at resolves
      rw [strlen_eq noNul, if_pos (not_lt.mp short)] at resolves
      exact absurd resolves (Option.some_ne_none _).symm
  · rcases literal_of_resolves isLiteral resolves with
      ⟨ips, ports, rfl, noColon⟩
    rw [sockResolve_literal sys noColon] at resolves
    cases isPort : parsenumEx6 long ports 1 65535 10 false with
    | none =>
        rw [isPort] at resolves
        exact absurd resolves (Option.some_ne_none _).symm
    | some p =>
        rcases parsenum_port.mp isPort with ⟨_, _, _, positive, small⟩
        rw [isPort] at resolves
        dsimp only at resolves
        have positive' : 1 ≤ (p % 2 ^ 16).toNat := by omega
        have small' : (p % 2 ^ 16).toNat ≤ 65535 := by omega
        by_cases isIpv6 : 58 ∈ ips
        · rw [if_pos isIpv6] at resolves
          exact sockResolveIpv6_resolved documented positive' small' resolves
        · rw [if_neg isIpv6] at resolves
          exact sockResolveIpv4_resolved documented positive' small' resolves

/-! ## Printing -/

theorem ntohs_htons {p : Nat} (small : p ≤ 65535) (low high : UInt8)
    (rest : List UInt8) : ntohs (low :: high :: (htons p ++ rest)) 2 = p := by
  show (UInt8.ofNat (p / 256)).toNat * 256 + (UInt8.ofNat p).toNat = p
  rw [UInt8.toNat_ofNat', UInt8.toNat_ofNat']
  omega

theorem isPort_decimal {p : Nat} (positive : 1 ≤ p) (small : p ≤ 65535) :
    IsPort (decimal p) := by
  rcases decimal_digits p with ⟨nonempty, digits⟩
  refine ⟨nonempty, digits, ?_, ?_⟩
  · rw [digitsValue_decimal]
    exact positive
  · rw [digitsValue_decimal]
    exact small

theorem bracketed_eq (ips : List UInt8) (p : Nat) :
    bracketed ips p = literal ips (58 :: decimal p) := by
  unfold bracketed literal
  simp

theorem prettyprintUnix_sockaddrUn (noNul : 0 ∉ addr)
    (short : addr.length < sunPathSize) :
    prettyprintUnix (sockaddrUn addr) = .ok addr := by
  rcases Nat.exists_eq_add_of_lt short with ⟨more, isSize⟩
  have zeros : sunPathSize - addr.length = more + 1 := by omega
  have path : (sockaddrUn addr).drop 2 =
      addr ++ 0 :: List.replicate more 0 := by
    unfold sockaddrUn
    rw [zeros]
    rfl
  have text : (addr ++ 0 :: List.replicate more 0).takeWhile (· ≠ 0) =
      addr := by
    rw [List.takeWhile_append_of_pos]
    · exact List.append_nil addr
    · intro b member
      apply decide_eq_true
      rintro rfl
      exact noNul member
  unfold prettyprintUnix
  rw [path, if_pos (List.mem_append_right _ List.mem_cons_self), text]

theorem prettyprintIpv4_sockaddrIn {p : Nat} (small : p ≤ 65535)
    (length : (sockaddrIn (htons p) addr).length = (16 : UInt32).toNat)
    (isAddr : addr.length = 4) {text : List UInt8}
    (prints : sys.inetNtop AF_INET addr INET_ADDRSTRLEN = some text) :
    prettyprintIpv4 sys (sockaddrIn (htons p) addr) =
      some (bracketed text p) := by
  have inner : ((sockaddrIn (htons p) addr).drop 4).take 4 = addr := by
    show (addr ++ List.replicate 8 0).take 4 = addr
    rw [← isAddr]
    exact List.take_left
  have isPort : ntohs (sockaddrIn (htons p) addr) 2 = p :=
    ntohs_htons small 2 0 (addr ++ List.replicate 8 0)
  have isLength : ¬ (sockaddrIn (htons p) addr).length ≠ 16 :=
    not_not.mpr length
  unfold prettyprintIpv4
  rw [if_neg isLength, inner, isPort, prints]
  rfl

theorem prettyprintIpv6_sockaddrIn6 {p : Nat} (small : p ≤ 65535)
    (length : (sockaddrIn6 (htons p) addr).length = (28 : UInt32).toNat)
    (isAddr : addr.length = 16) {text : List UInt8}
    (prints : sys.inetNtop AF_INET6 addr INET6_ADDRSTRLEN = some text) :
    prettyprintIpv6 sys (sockaddrIn6 (htons p) addr) =
      some (bracketed text p) := by
  have inner : ((sockaddrIn6 (htons p) addr).drop 8).take 16 = addr := by
    show (addr ++ List.replicate 4 0).take 16 = addr
    rw [← isAddr]
    exact List.take_left
  have isPort : ntohs (sockaddrIn6 (htons p) addr) 2 = p :=
    ntohs_htons small 10 0 (List.replicate 4 0 ++ addr ++ List.replicate 4 0)
  have isLength : ¬ (sockaddrIn6 (htons p) addr).length ≠ 28 :=
    not_not.mpr length
  unfold prettyprintIpv6
  rw [if_neg isLength, inner, isPort, prints]
  rfl

/-- A printed address is resolved to the same address. -/
theorem Resolved.prettyprint (documented : PtonDocumented sys)
    (inverse : NtopDocumented sys) (resolved : Resolved sys sa) :
    ∃ text, sockAddrPrettyprint sys sa = .ok (some text) ∧
      sockResolve sys text = some [sa] := by
  cases resolved with
  | @unix path isPath noNul short =>
      refine ⟨path, ?_, ?_⟩
      · unfold sockAddrPrettyprint
        dsimp only
        rw [if_neg (by decide), if_neg (by decide), if_pos rfl,
          prettyprintUnix_sockaddrUn noNul short]
        rfl
      · rw [sockResolve_unix isPath, sockResolveUnix_eq noNul short]
  | @ipv4 src addr p positive small accepted length =>
      rcases inverse.ipv4 accepted with ⟨text, prints, reads⟩
      refine ⟨bracketed text p, ?_, ?_⟩
      · unfold sockAddrPrettyprint
        dsimp only
        rw [if_pos rfl, prettyprintIpv4_sockaddrIn small length
          (documented.ipv4_length accepted) prints]
      · rw [bracketed_eq, sockResolve_port sys text
          (isPort_decimal positive small),
          if_neg (ipv4_absent documented reads).1,
          sockResolveIpv4_eq documented reads]
        congr 4
        rw [digitsValue_decimal]
  | @ipv6 src addr p positive small accepted length =>
      rcases inverse.ipv6 accepted with ⟨text, prints, reads⟩
      refine ⟨bracketed text p, ?_, ?_⟩
      · unfold sockAddrPrettyprint
        dsimp only
        rw [if_neg (by decide), if_pos rfl, prettyprintIpv6_sockaddrIn6 small
          length (documented.ipv6_length accepted) prints]
      · rw [bracketed_eq, sockResolve_port sys text
          (isPort_decimal positive small),
          if_pos (documented.ipv6_colon reads),
          sockResolveIpv6_eq documented reads]
        congr 4
        rw [digitsValue_decimal]

theorem sockAddrCmp_self (sa : SockAddr) : sockAddrCmp sa sa = 0 := by
  unfold sockAddrCmp
  simp

/-! ## Serializing -/

/-- The numbers of the header are read where they were written. -/
theorem fieldAt_serialized (sa : SockAddr) :
    fieldAt (sockAddrSerialize sa).1 0 = sa.aiFamily.toUInt32 ∧
      fieldAt (sockAddrSerialize sa).1 4 = sa.aiSocktype.toUInt32 ∧
      fieldAt (sockAddrSerialize sa).1 8 = sa.namelen :=
  ⟨le32dec_le32enc sa.aiFamily.toUInt32,
    le32dec_le32enc sa.aiSocktype.toUInt32, le32dec_le32enc sa.namelen⟩

theorem length_serialized (sa : SockAddr) :
    (sockAddrSerialize sa).1.length = 12 + sa.namelen.toNat := by
  rw [← sa.length, Nat.add_comm]
  rfl

/-- The buffer is as long as it was allocated. -/
theorem sockAddrSerialize_length (sa : SockAddr) :
    (sockAddrSerialize sa).2 = (sockAddrSerialize sa).1.length := by
  rw [length_serialized]
  exact sizeAdd_headerSize sa.namelen

theorem deserialize_serialize (sa : SockAddr) :
    sockAddrDeserialize (sockAddrSerialize sa).1 = some sa := by
  rcases fieldAt_serialized sa with ⟨family, socktype, namelen⟩
  have length := length_serialized sa
  have enough : ¬ (sockAddrSerialize sa).1.length < headerSize := by
    rw [length]
    exact not_lt.mpr (Nat.le_add_right 12 _)
  have size : ¬ (sockAddrSerialize sa).1.length ≠
      sizeAdd headerSize (fieldAt (sockAddrSerialize sa).1 8).toNat := by
    rw [not_not, namelen, sizeAdd_headerSize, length]
  have name : ((sockAddrSerialize sa).1.drop 12).take
      (fieldAt (sockAddrSerialize sa).1 8).toNat = sa.name := by
    rw [namelen, ← sa.length]
    exact List.take_length
  unfold sockAddrDeserialize
  dsimp only
  rw [if_neg enough, dif_neg size]
  apply congrArg some
  apply SockAddr.ext
  · show Int32.ofUInt32 _ = sa.aiFamily
    rw [family]
  · show Int32.ofUInt32 _ = sa.aiSocktype
    rw [socktype]
  · exact name
  · exact namelen

/-- A buffer is accepted if its length is that of the header and of the name
whose length it holds. -/
theorem deserialize_isSome_iff (buf : List UInt8) :
    sockAddrDeserialize buf ≠ none ↔
      12 ≤ buf.length ∧ buf.length = 12 + (fieldAt buf 8).toNat := by
  have header : headerSize = 12 := by decide
  unfold sockAddrDeserialize
  dsimp only
  by_cases short : buf.length < headerSize
  · rw [if_pos short]
    exact iff_of_false (fun isSome => isSome rfl) fun ⟨enough, _⟩ =>
      absurd (header ▸ short) (not_lt.mpr enough)
  rw [if_neg short]
  by_cases size : buf.length ≠ sizeAdd headerSize (fieldAt buf 8).toNat
  · rw [dif_pos size]
    rw [sizeAdd_headerSize] at size
    exact iff_of_false (fun isSome => isSome rfl) fun ⟨_, same⟩ => size same
  · rw [dif_neg size]
    rw [not_not, sizeAdd_headerSize] at size
    exact iff_of_true (Option.some_ne_none _)
      ⟨header ▸ not_lt.mp short, size⟩

/-- Four bytes are written as they were read. -/
theorem le32enc_fieldAt {position : Nat}
    (inside : position + 4 ≤ buf.length) :
    le32enc (fieldAt buf position) = (buf.drop position).take 4 := by
  unfold fieldAt
  rw [le32enc_le32dec, List.drop_eq_getElem_cons (by omega),
    List.drop_eq_getElem_cons (by omega), List.drop_eq_getElem_cons (by omega),
    List.drop_eq_getElem_cons (by omega)]
  simp only [List.take_succ_cons, List.take_zero, List.cons.injEq, and_true]
  refine ⟨?_, ?_, ?_, ?_⟩ <;> exact List.getD_eq_getElem _ _ (by omega)

theorem serialize_deserialize (accepted : sockAddrDeserialize buf = some sa) :
    (sockAddrSerialize sa).1 = buf := by
  have isSome : sockAddrDeserialize buf ≠ none := by
    rw [accepted]
    exact Option.some_ne_none sa
  rcases (deserialize_isSome_iff buf).mp isSome with ⟨enough, length⟩
  have parts : buf.take 4 ++ (buf.drop 4).take 4 ++ (buf.drop 8).take 4 ++
      (buf.drop 12).take (fieldAt buf 8).toNat = buf := by
    have rest : (buf.drop 12).take (fieldAt buf 8).toNat = buf.drop 12 := by
      apply List.take_of_length_le
      rw [List.length_drop]
      omega
    have second : (buf.drop 4).drop 4 = buf.drop 8 := List.drop_drop
    have third : (buf.drop 8).drop 4 = buf.drop 12 := List.drop_drop
    rw [rest, ← third, List.append_assoc, List.take_append_drop, ← second,
      List.append_assoc, List.take_append_drop, List.take_append_drop]
  unfold sockAddrDeserialize at accepted
  dsimp only at accepted
  split_ifs at accepted
  rcases accepted with ⟨⟩
  show le32enc (fieldAt buf 0) ++ le32enc (fieldAt buf 4) ++
    le32enc (fieldAt buf 8) ++ (buf.drop 12).take (fieldAt buf 8).toNat = buf
  rw [le32enc_fieldAt (by omega), le32enc_fieldAt (by omega),
    le32enc_fieldAt (by omega)]
  exact parts

/-! ## The round trips -/

/-- Addresses make the round trips. -/
structure RoundTrips (sys : System) : Prop where
  /-- A path or a literal with a port is resolved to one address, which is
  printed and resolved again. -/
  printed : ∀ addr sas, 0 ∉ addr →
    (addr.head? = some 47 ∨ addr.head? = some 91) →
    sockResolve sys addr = some sas → ∀ sa ∈ sas, ∃ text sa',
      sockAddrPrettyprint sys sa = .ok (some text) ∧
        sockResolve sys text = some [sa'] ∧ sockAddrCmp sa' sa = 0
  serialized : ∀ sa, sockAddrDeserialize (sockAddrSerialize sa).1 = some sa
  allocated : ∀ sa,
    (sockAddrSerialize sa).2 = (sockAddrSerialize sa).1.length
  accepted : ∀ buf, sockAddrDeserialize buf ≠ none ↔
    12 ≤ buf.length ∧ buf.length = 12 + (fieldAt buf 8).toNat
  deserialized : ∀ buf sa, sockAddrDeserialize buf = some sa →
    (sockAddrSerialize sa).1 = buf

/-- If `inet_ntop` and `inet_pton` are as documented, addresses make the round
trips. -/
theorem sock_addr_round_trips (documented : PtonDocumented sys)
    (inverse : NtopDocumented sys) : RoundTrips sys where
  printed addr sas noNul form resolves sa member := by
    rcases sockResolve_resolved documented noNul form resolves with
      ⟨only, rfl, resolved⟩
    rcases List.mem_singleton.mp member with rfl
    rcases resolved.prettyprint documented inverse with ⟨text, prints, again⟩
    exact ⟨text, sa, prints, again, sockAddrCmp_self sa⟩
  serialized := deserialize_serialize
  allocated := sockAddrSerialize_length
  accepted := deserialize_isSome_iff
  deserialized _ _ := serialize_deserialize

theorem localSystem_inverse : NtopDocumented localSystem where
  ipv4 accepted := by
    rw [(localSystem_ipv4 accepted).2]
    exact ⟨_, rfl, rfl⟩
  ipv6 accepted := by
    rw [(localSystem_ipv6 accepted).2]
    exact ⟨_, rfl, rfl⟩

/-- The address "[127.0.0.1]:80". -/
def loopback : List UInt8 :=
  [91, 49, 50, 55, 46, 48, 46, 48, 46, 49, 93, 58, 56, 48]

/-- It is resolved, printed as it was, and resolved again. -/
theorem sock_addr_round_trips_local :
    RoundTrips localSystem ∧
      ∃ sa, sockResolve localSystem loopback = some [sa] ∧
        sockAddrPrettyprint localSystem sa = .ok (some loopback) ∧
        ∃ sa', sockResolve localSystem loopback = some [sa'] ∧
          sockAddrCmp sa' sa = 0 := by
  have trips := sock_addr_round_trips localSystem_documented
    localSystem_inverse
  have resolves : sockResolve localSystem loopback =
      some [⟨AF_INET, SOCK_STREAM,
        [2, 0, 0, 80, 127, 0, 0, 1, 0, 0, 0, 0, 0, 0, 0, 0], 16, rfl⟩] := by
    decide +kernel
  obtain ⟨text, sa', prints, again, same⟩ := trips.printed loopback _
    (by decide +kernel) (Or.inr rfl) resolves _ (List.mem_singleton.mpr rfl)
  have isText : sockAddrPrettyprint localSystem ⟨AF_INET, SOCK_STREAM,
      [2, 0, 0, 80, 127, 0, 0, 1, 0, 0, 0, 0, 0, 0, 0, 0], 16, rfl⟩ =
      .ok (some loopback) := by
    have printed : prettyprintIpv4 localSystem
        [2, 0, 0, 80, 127, 0, 0, 1, 0, 0, 0, 0, 0, 0, 0, 0] =
          some loopback := by
      decide +kernel
    exact (if_pos rfl).trans (congrArg Except.ok printed)
  rw [isText] at prints
  obtain rfl := Option.some.inj (Except.ok.inj prints)
  exact ⟨trips, _, resolves, isText, sa', again, same⟩

end Libcperciva.Util.SockRoundTrip
