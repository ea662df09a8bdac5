import Libcperciva.Util.SockText
import Mathlib.Data.Bool.AllAny

/-!
# Adding a port to an address

`sock_addr_ensure_port` adds port 0 to a literal address that has no port, and
`sock_resolve` accepts the ports from 1 only.  So what the first function
returns is resolved, as the address that it names, if and only if it did not
have to add a port.
-/

namespace Libcperciva.Util.SockPort

open Libcperciva.Util.Cstring
open Libcperciva.Util.ParsenumModel
open Libcperciva.Util.SockModel
open Libcperciva.Util.SockText

variable {sys : System} {ips ports addr : List UInt8}

/-! ## Addresses -/

/-- An address: a path, or a literal with or without a port. -/
inductive Address where
  | unix (path : List UInt8)
  | ipv4 (ips : List UInt8) (ports : Option (List UInt8))
  | ipv6 (ips : List UInt8) (ports : Option (List UInt8))
deriving DecidableEq

/-- An address in brackets, and what follows it. -/
def literal (ips after : List UInt8) : List UInt8 := 91 :: ips ++ 93 :: after

/-- The port with its colon. -/
def portText : Option (List UInt8) → List UInt8
  | none => []
  | some ports => 58 :: ports

/-- The address as a string. -/
def Address.text : Address → List UInt8
  | .unix path => path
  | .ipv4 ips ports | .ipv6 ips ports => literal ips (portText ports)

/-- The string of digits is a port from 1 to 65535. -/
structure IsPort (ports : List UInt8) : Prop where
  nonempty : ports ≠ []
  digits : ∀ b ∈ ports, isDigit 10 b = true
  positive : 1 ≤ digitsValue 10 ports
  small : digitsValue 10 ports ≤ 65535

/-- The path is short enough, or the literal is accepted by `inet_pton`. -/
def Address.Valid (sys : System) : Address → Prop
  | .unix path => path.head? = some 47 ∧ 0 ∉ path ∧
      path.length < sunPathSize
  | .ipv4 ips ports => (∃ addr, sys.inetPton AF_INET ips = some addr) ∧
      ∀ port ∈ ports, IsPort port
  | .ipv6 ips ports => (∃ addr, sys.inetPton AF_INET6 ips = some addr) ∧
      ∀ port ∈ ports, IsPort port

/-- The address is a path, or has a port. -/
def Address.Complete : Address → Prop
  | .unix _ => True
  | .ipv4 _ ports | .ipv6 _ ports => ports ≠ none

/-- The port of a literal, 0 if there is none. -/
def portOf (ports : Option (List UInt8)) : Nat :=
  (ports.map (digitsValue 10)).getD 0

/-- The socket address is exactly what the address names. -/
def Address.Names (sys : System) (a : Address) (sa : SockAddr) : Prop :=
  sa.aiSocktype = SOCK_STREAM ∧
    match a with
    | .unix path => sa.aiFamily = AF_UNIX ∧ sa.name = sockaddrUn path
    | .ipv4 ips ports => sa.aiFamily = AF_INET ∧
        ∃ addr, sys.inetPton AF_INET ips = some addr ∧
          sa.name = sockaddrIn (htons (portOf ports)) addr
    | .ipv6 ips ports => sa.aiFamily = AF_INET6 ∧
        ∃ addr, sys.inetPton AF_INET6 ips = some addr ∧
          sa.name = sockaddrIn6 (htons (portOf ports)) addr

/-- The two functions agree on an address. -/
structure Agrees (sys : System) (a : Address) : Prop where
  idempotent : sockAddrEnsurePort (sockAddrEnsurePort a.text) =
    sockAddrEnsurePort a.text
  resolves : ∃ sa, sockResolve sys (sockAddrEnsurePort a.text) = some [sa] ∧
    sockResolveOne sys a.text true = some sa ∧ a.Names sys sa

/-! ## Paths -/

theorem strlen_eq (noNul : 0 ∉ addr) : strlen addr = addr.length := by
  unfold strlen
  rw [List.takeWhile_eq_self_iff.mpr]
  intro b member
  apply decide_eq_true
  rintro rfl
  exact noNul member

theorem wrap_eq {family : Int32} {name : List UInt8} {namelen : UInt32}
    (length : name.length = namelen.toNat) :
    wrap family name namelen =
      some ⟨family, SOCK_STREAM, name, namelen, length⟩ := dif_pos length

theorem length_sockaddrUn (short : addr.length < sunPathSize) :
    (sockaddrUn addr).length = (110 : UInt32).toNat := by
  show _ = 110
  unfold sunPathSize at short
  unfold sockaddrUn sunPathSize
  simp only [List.length_append, List.length_replicate, List.length_cons,
    List.length_nil]
  omega

theorem sockResolveUnix_eq (noNul : 0 ∉ addr)
    (short : addr.length < sunPathSize) :
    sockResolveUnix addr = some [⟨AF_UNIX, SOCK_STREAM, sockaddrUn addr, 110,
      length_sockaddrUn short⟩] := by
  have notLong : ¬ strlen addr ≥ sunPathSize := by
    rw [strlen_eq noNul]
    exact not_le.mpr short
  unfold sockResolveUnix
  rw [if_neg notLong, wrap_eq (length_sockaddrUn short)]
  rfl

theorem ensurePort_unix (isPath : addr.head? = some 47) :
    sockAddrEnsurePort addr = addr := by
  unfold sockAddrEnsurePort
  dsimp only
  rw [if_pos isPath, ite_self]

theorem sockResolve_unix (isPath : addr.head? = some 47) (sys : System) :
    sockResolve sys addr = sockResolveUnix addr := by
  have isValid : sockAddrValidate addr = true := by
    unfold sockAddrValidate
    rw [isPath]
    cases addr with
    | nil => cases isPath
    | cons b addr => rfl
  unfold sockResolve
  rw [isValid, if_neg (by decide), if_pos isPath]

/-! ## Literals -/

theorem literal_split (ips ports : List UInt8) :
    literal ips (58 :: ports) = (91 :: ips ++ [93]) ++ 58 :: ports := by
  unfold literal
  rw [List.append_assoc]
  rfl

/-- A literal with a port is split where it should be. -/
theorem sockResolve_literal (sys : System) (noColon : 58 ∉ ports) :
    sockResolve sys (literal ips (58 :: ports)) =
      match parsenumEx6 long ports 1 65535 10 false with
      | none => none
      | some p =>
          if 58 ∈ ips then sockResolveIpv6 sys ips (p % 2 ^ 16).toNat
          else sockResolveIpv4 sys ips (p % 2 ^ 16).toNat := by
  have found : strrchr (literal ips (58 :: ports)) 58 =
      some (91 :: ips ++ [93]).length := by
    rw [literal_split]
    exact strrchr_append noColon
  have before : (literal ips (58 :: ports)).take
      (91 :: ips ++ [93]).length = 91 :: ips ++ [93] := by
    rw [literal_split]
    exact List.take_left
  have after : (literal ips (58 :: ports)).drop
      ((91 :: ips ++ [93]).length + 1) = ports := by
    rw [literal_split, List.drop_append]
    simp
  have inner : (91 :: ips ++ [93]).tail.dropLast = ips := by simp
  have isValid : sockAddrValidate (literal ips (58 :: ports)) = true := rfl
  have notPath : ¬ (literal ips (58 :: ports)).head? = some 47 := by
    show ¬ some (91 : UInt8) = some 47
    decide
  have begins : ¬ (91 :: ips ++ [93]).head? ≠ some 91 := not_not.mpr rfl
  have ends : ¬ (91 :: ips ++ [93]).getLast? ≠ some 93 :=
    not_not.mpr List.getLast?_concat
  unfold sockResolve
  rw [isValid, if_neg (by decide), if_neg notPath, found]
  dsimp only
  rewrite [before, after, inner, if_neg begins, if_neg ends]
  cases parsenumEx6 long ports 1 65535 10 false <;> rfl

theorem ensurePort_port (ips : List UInt8) (noColon : 58 ∉ ports) :
    sockAddrEnsurePort (literal ips (58 :: ports)) =
      literal ips (58 :: ports) := by
  have found : strrchr (literal ips (58 :: ports)) 58 =
      some (91 :: ips ++ [93]).length := by
    rw [literal_split]
    exact strrchr_append noColon
  have bracket : (literal ips (58 :: ports))[(91 :: ips ++ [93]).length - 1]?
      = some 93 := by
    simp [literal]
  have notPath : ¬ (literal ips (58 :: ports)).head? = some 47 := by
    show ¬ some (91 : UInt8) = some 47
    decide
  have begins : ¬ (literal ips (58 :: ports)).head? ≠ some 91 :=
    not_not.mpr rfl
  unfold sockAddrEnsurePort
  rw [found]
  dsimp only
  rw [if_neg (by simp), if_neg notPath, if_neg begins, bracket,
    if_neg (not_not.mpr rfl)]

/-- No colon inside of the brackets follows a bracket that closes. -/
theorem colon_inside (noBracket : 93 ∉ ips) {position : Nat}
    (found : strrchr (literal ips []) 58 = some position) :
    position ≠ 0 ∧ (literal ips [])[position - 1]? ≠ some 93 := by
  have isColon : (literal ips [])[position]? = some 58 := by
    have split := (strrchr_split found).1
    have bound : position ≤ (literal ips []).length := by
      by_contra outside
      have all := List.take_of_length_le (not_le.mp outside).le
      rw [all] at split
      have lengths := congrArg List.length split
      rw [List.length_append, List.length_cons] at lengths
      omega
    rw [split, List.getElem?_append_right (by simp),
      List.length_take_of_le bound, Nat.sub_self]
    rfl
  rcases position with _ | _ | position
  · exact absurd (Option.some.inj isColon) (by decide)
  · exact ⟨Nat.succ_ne_zero 0, by show ¬ some (91 : UInt8) = some 93; decide⟩
  refine ⟨Nat.succ_ne_zero _, fun isBracket => ?_⟩
  have bracket : (ips ++ [93])[position]? = some 93 := isBracket
  have colon : (ips ++ [93])[position + 1]? = some 58 := isColon
  rcases lt_or_ge position ips.length with before | after
  · rw [List.getElem?_append_left before] at bracket
    exact noBracket (List.mem_of_getElem? bracket)
  · rw [List.getElem?_eq_none (by simp; omega)] at colon
    exact Option.some_ne_none _ colon.symm

/-- No colon of the address itself is taken for the one of a port. -/
theorem ensurePort_noPort (noBracket : 93 ∉ ips) :
    sockAddrEnsurePort (literal ips []) = literal ips [58, 48] := by
  have notPath : ¬ (literal ips []).head? = some 47 := by
    show ¬ some (91 : UInt8) = some 47
    decide
  have added : literal ips [] ++ [58, 48] = literal ips [58, 48] := by
    simp [literal]
  have inside : ∀ position : Nat, strrchr (literal ips []) 58 =
      some position → position ≠ 0 ∧
        (literal ips [])[position - 1]? ≠ some 93 := by
    intro position found
    exact colon_inside noBracket found
  have begins : ¬ (literal ips []).head? ≠ some 91 := not_not.mpr rfl
  unfold sockAddrEnsurePort
  dsimp only
  rw [if_neg (fun atStart => (inside 0 atStart).1 rfl), if_neg notPath,
    if_neg begins, added]
  cases found : strrchr (literal ips []) 58 with
  | none => rfl
  | some position => exact if_pos (inside position found).2

/-! ## Literals that are resolved -/

theorem IsPort.noColon (isPort : IsPort ports) : 58 ∉ ports := by
  intro member
  exact absurd (isPort.digits 58 member) (by decide)

theorem ipv4_absent (documented : PtonDocumented sys)
    (accepted : sys.inetPton AF_INET ips = some addr) :
    58 ∉ ips ∧ 93 ∉ ips := by
  constructor <;> intro member <;>
    exact absurd (documented.ipv4_text accepted _ member) (by decide)

theorem ipv6_absent (documented : PtonDocumented sys)
    (accepted : sys.inetPton AF_INET6 ips = some addr) : 93 ∉ ips := by
  intro member
  exact absurd (documented.ipv6_text accepted _ member) (by decide)

theorem length_sockaddrIn {port : List UInt8} (isPort : port.length = 2)
    (isAddr : addr.length = 4) :
    (sockaddrIn port addr).length = (16 : UInt32).toNat := by
  unfold sockaddrIn
  simp only [List.length_append, isPort, isAddr, List.length_replicate]
  rfl

theorem length_sockaddrIn6 {port : List UInt8} (isPort : port.length = 2)
    (isAddr : addr.length = 16) :
    (sockaddrIn6 port addr).length = (28 : UInt32).toNat := by
  unfold sockaddrIn6
  simp only [List.length_append, isPort, isAddr, List.length_replicate]
  rfl

/-- The literal and a port make the address that they name. -/
theorem sockResolveIpv4_eq (documented : PtonDocumented sys)
    (accepted : sys.inetPton AF_INET ips = some addr) (p : Nat) :
    sockResolveIpv4 sys ips p = some [⟨AF_INET, SOCK_STREAM,
      sockaddrIn (htons p) addr, 16,
      length_sockaddrIn rfl (documented.ipv4_length accepted)⟩] := by
  unfold sockResolveIpv4
  rw [accepted]
  dsimp only
  rw [wrap_eq (length_sockaddrIn rfl (documented.ipv4_length accepted))]
  rfl

theorem sockResolveIpv6_eq (documented : PtonDocumented sys)
    (accepted : sys.inetPton AF_INET6 ips = some addr) (p : Nat) :
    sockResolveIpv6 sys ips p = some [⟨AF_INET6, SOCK_STREAM,
      sockaddrIn6 (htons p) addr, 28,
      length_sockaddrIn6 rfl (documented.ipv6_length accepted)⟩] := by
  unfold sockResolveIpv6
  rw [accepted]
  dsimp only
  rw [wrap_eq (length_sockaddrIn6 rfl (documented.ipv6_length accepted))]
  rfl

/-- The port of a literal is the number that its digits stand for. -/
theorem sockResolve_port (sys : System) (ips : List UInt8)
    (isPort : IsPort ports) :
    sockResolve sys (literal ips (58 :: ports)) =
      if 58 ∈ ips then sockResolveIpv6 sys ips (digitsValue 10 ports)
      else sockResolveIpv4 sys ips (digitsValue 10 ports) := by
  have small := isPort.small
  have same : ((digitsValue 10 ports : Int) % 2 ^ 16).toNat =
      digitsValue 10 ports := by omega
  rw [sockResolve_literal sys isPort.noColon,
    parsenum_digits isPort.nonempty isPort.digits isPort.positive small]
  dsimp only
  rw [same]

/-- Port 0, which was added, is not accepted. -/
theorem sockResolve_zero (sys : System) :
    sockResolve sys (literal ips [58, 48]) = none := by
  rw [sockResolve_literal sys (by decide), parsenum_zero]

/-! ## The two functions agree -/

theorem Agrees.of_same {a : Address} {sa : SockAddr}
    (same : sockAddrEnsurePort a.text = a.text)
    (resolved : sockResolve sys a.text = some [sa])
    (names : a.Names sys sa) : Agrees sys a := by
  refine ⟨by rw [same, same], sa, same.symm ▸ resolved, ?_, names⟩
  unfold sockResolveOne
  dsimp only
  rw [if_pos rfl, same, resolved]
  rfl

theorem agrees_unix {path : List UInt8}
    (valid : (Address.unix path).Valid sys) :
    Agrees sys (.unix path) := by
  rcases valid with ⟨isPath, noNul, short⟩
  exact Agrees.of_same (ensurePort_unix isPath)
    ((sockResolve_unix isPath sys).trans (sockResolveUnix_eq noNul short))
    ⟨rfl, rfl, rfl⟩

theorem agrees_ipv4 (documented : PtonDocumented sys)
    (accepted : sys.inetPton AF_INET ips = some addr)
    (isPort : IsPort ports) : Agrees sys (.ipv4 ips (some ports)) := by
  have resolved := sockResolve_port sys ips isPort
  rw [if_neg (ipv4_absent documented accepted).1,
    sockResolveIpv4_eq documented accepted] at resolved
  exact Agrees.of_same (ensurePort_port ips isPort.noColon) resolved
    ⟨rfl, rfl, addr, accepted, rfl⟩

theorem agrees_ipv6 (documented : PtonDocumented sys)
    (accepted : sys.inetPton AF_INET6 ips = some addr)
    (isPort : IsPort ports) : Agrees sys (.ipv6 ips (some ports)) := by
  have resolved := sockResolve_port sys ips isPort
  rw [if_pos (documented.ipv6_colon accepted),
    sockResolveIpv6_eq documented accepted] at resolved
  exact Agrees.of_same (ensurePort_port ips isPort.noColon) resolved
    ⟨rfl, rfl, addr, accepted, rfl⟩

theorem not_agrees {a : Address} (isText : a.text = literal ips [])
    (noBracket : 93 ∉ ips) : ¬ Agrees sys a := by
  rintro ⟨_, sa, resolved, _⟩
  rw [isText, ensurePort_noPort noBracket, sockResolve_zero] at resolved
  exact absurd resolved (Option.some_ne_none _).symm

/-- A port is added once, also where it is not accepted. -/
theorem ensurePort_idempotent (documented : PtonDocumented sys)
    (a : Address) (valid : a.Valid sys) :
    sockAddrEnsurePort (sockAddrEnsurePort a.text) =
      sockAddrEnsurePort a.text := by
  have ofLiteral : ∀ ips ports, 93 ∉ ips → (∀ port ∈ ports, IsPort port) →
      sockAddrEnsurePort (sockAddrEnsurePort (literal ips (portText ports))) =
        sockAddrEnsurePort (literal ips (portText ports)) := by
    intro ips ports noBracket arePorts
    cases ports with
    | none =>
        have noColon : 58 ∉ ([48] : List UInt8) := by decide
        dsimp only [portText]
        rw [ensurePort_noPort noBracket]
        exact ensurePort_port ips noColon
    | some ports =>
        have same := ensurePort_port ips (arePorts ports rfl).noColon
        dsimp only [portText]
        rw [same]
        exact same
  cases a with
  | unix path =>
      dsimp only [Address.text]
      rw [ensurePort_unix valid.1, ensurePort_unix valid.1]
  | ipv4 ips ports =>
      rcases valid with ⟨⟨addr, accepted⟩, arePorts⟩
      exact ofLiteral ips ports (ipv4_absent documented accepted).2 arePorts
  | ipv6 ips ports =>
      rcases valid with ⟨⟨addr, accepted⟩, arePorts⟩
      exact ofLiteral ips ports (ipv6_absent documented accepted) arePorts

/-- For a path or a literal, `sock_resolve` accepts what
`sock_addr_ensure_port` returns, as exactly the address that it names, if and
only if it is a path or has a port. -/
theorem sock_ensure_port_agrees_iff (documented : PtonDocumented sys)
    (a : Address) (valid : a.Valid sys) : Agrees sys a ↔ a.Complete := by
  cases a with
  | unix path => exact iff_of_true (agrees_unix valid) trivial
  | ipv4 ips ports =>
      rcases valid with ⟨⟨addr, accepted⟩, arePorts⟩
      cases ports with
      | none =>
          exact iff_of_false
            (not_agrees rfl (ipv4_absent documented accepted).2)
            fun hasPort => hasPort rfl
      | some ports =>
          exact iff_of_true (agrees_ipv4 documented accepted
            (arePorts ports rfl)) (Option.some_ne_none ports)
  | ipv6 ips ports =>
      rcases valid with ⟨⟨addr, accepted⟩, arePorts⟩
      cases ports with
      | none =>
          exact iff_of_false
            (not_agrees rfl (ipv6_absent documented accepted))
            fun hasPort => hasPort rfl
      | some ports =>
          exact iff_of_true (agrees_ipv6 documented accepted
            (arePorts ports rfl)) (Option.some_ne_none ports)

/-- `inet_pton` and `inet_ntop`, for 127.0.0.1 and ::1 only. -/
def localSystem : System where
  getaddrinfo _ _ := none
  inetPton af src :=
    if af = AF_INET then
      if src = [49, 50, 55, 46, 48, 46, 48, 46, 49] then some [127, 0, 0, 1]
      else none
    else if af = AF_INET6 then
      if src = [58, 58, 49] then some (List.replicate 15 0 ++ [1]) else none
    else none
  inetNtop af src _ :=
    if af = AF_INET ∧ src = [127, 0, 0, 1] then
      some [49, 50, 55, 46, 48, 46, 48, 46, 49]
    else if af = AF_INET6 ∧ src = List.replicate 15 0 ++ [1] then
      some [58, 58, 49]
    else none

theorem localSystem_ipv4
    (accepted : localSystem.inetPton AF_INET ips = some addr) :
    ips = [49, 50, 55, 46, 48, 46, 48, 46, 49] ∧ addr = [127, 0, 0, 1] := by
  change (if ips = _ then some _ else none) = some addr at accepted
  rw [Option.ite_none_right_eq_some] at accepted
  exact ⟨accepted.1, (Option.some.inj accepted.2).symm⟩

theorem localSystem_ipv6
    (accepted : localSystem.inetPton AF_INET6 ips = some addr) :
    ips = [58, 58, 49] ∧ addr = List.replicate 15 0 ++ [1] := by
  change (if ips = _ then some _ else none) = some addr at accepted
  rw [Option.ite_none_right_eq_some] at accepted
  exact ⟨accepted.1, (Option.some.inj accepted.2).symm⟩

theorem localSystem_documented : PtonDocumented localSystem where
  ipv4_length accepted := by
    rw [(localSystem_ipv4 accepted).2]
    rfl
  ipv4_text accepted := by
    rw [(localSystem_ipv4 accepted).1]
    exact List.all_iff_forall_prop.mp (by decide)
  ipv6_length accepted := by
    rw [(localSystem_ipv6 accepted).2]
    rfl
  ipv6_text accepted := by
    rw [(localSystem_ipv6 accepted).1]
    exact List.all_iff_forall_prop.mp (by decide)
  ipv6_colon accepted := by
    rw [(localSystem_ipv6 accepted).1]
    decide

/-- [::1]:80 -/
theorem sock_ensure_port_agrees_iff_port :
    Agrees localSystem (.ipv6 [58, 58, 49] (some [56, 48])) := by
  have valid : (Address.ipv6 [58, 58, 49] (some [56, 48])).Valid
      localSystem := by
    refine ⟨⟨_, rfl⟩, ?_⟩
    rintro _ ⟨⟩
    exact ⟨by decide, List.all_iff_forall_prop.mp (by decide), by decide,
      by decide⟩
  exact (sock_ensure_port_agrees_iff localSystem_documented _ valid).mpr
    (Option.some_ne_none _)

/-- [127.0.0.1] -/
theorem sock_ensure_port_not_agrees :
    let a : Address := .ipv4 [49, 50, 55, 46, 48, 46, 48, 46, 49] none
    a.Valid localSystem ∧ sockResolveOne localSystem a.text true = none ∧
      ¬ Agrees localSystem a := by
  have rejected : sockResolve localSystem (sockAddrEnsurePort
      (literal [49, 50, 55, 46, 48, 46, 48, 46, 49] [])) = none := by decide
  refine ⟨⟨⟨_, rfl⟩, nofun⟩, ?_, ?_⟩
  · decide
  · rintro ⟨_, sa, resolved, _⟩
    exact absurd (rejected.symm.trans resolved) (Option.some_ne_none _).symm

end Libcperciva.Util.SockPort
