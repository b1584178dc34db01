/-
Module: Hfc.Proofs.EndpointDialled
Layer: Proofs
Purpose: Which endpoint `httpc_parse_uri` dials, and which one its URI names. A name goes to the
  resolver as it stands, so a port behind it is refused there; the port of an IPv4 address is split
  off by hand, and what is wrong with it is passed over or wraps around.
Imports: Hfc.Proofs.Dialling, Hfc.Proofs.HostRecognition
Main exports: Endpoint, portNumber, namedEndpoint, dialTarget, dialTo, dial_eq, PortHeld,
  dialledPort, inetPton4_spec, dialTarget_literal, dialTarget_other, PortTaken, PlainResolver,
  DialsNamed, dialled_endpoint_iff
-/
import Hfc.Proofs.Dialling
import Hfc.Proofs.HostRecognition

namespace Hfc

open ByteText Numeral Splitting

/-! ### The endpoint of an authority

Host and port as the authority names them, the default port where it names none. -/

/-- What a client connects to: an address, or whatever addresses a name has. -/
inductive Endpoint where
  | address (addr : SockAddr)
  | name (host service : Bytes)
deriving DecidableEq, Repr

/-- The number of a port: decimal digits for a value from 1 to 65535. -/
def portNumber (text : Bytes) : Option Nat :=
  if text ≠ [] ∧ (text.all fun b => (digitVal 10 b).isSome) ∧ 1 ≤ value 10 (digits 10 text) ∧
      value 10 (digits 10 text) ≤ 65535 then
    some (value 10 (digits 10 text))
  else none

/-- The text behind the first colon of an authority. -/
def givenPort (host : Bytes) : Bytes :=
  host.drop ((hostPart host).length + 1)

/-- The port an authority names, if not as a number then as a text: the one behind the colon, or the
argument when nothing stands there. -/
def portText (host port : Bytes) : Bytes :=
  if givenPort host = [] then port else givenPort host

/-- The endpoint that an authority and a `port` argument name. -/
def namedEndpoint (host port : Bytes) : Option Endpoint :=
  match inetPton4 (hostPart host) with
  | some octets =>
      (portNumber (portText host port)).map fun n => .address { addr := octets, port := n }
  | none =>
      if givenPort host = [] then some (.name (hostPart host) port)
      else (portNumber (givenPort host)).map fun _ => .name (hostPart host) (givenPort host)

theorem portNumber_eq_some {text : Bytes} {n : Nat} :
    portNumber text = some n ↔
      text ≠ [] ∧ (∀ b ∈ text, (digitVal 10 b).isSome) ∧ 1 ≤ n ∧ n ≤ 65535 ∧
        value 10 (digits 10 text) = n := by
  rw [← List.all_eq_true, portNumber]
  split
  · rename_i valid
    rw [Option.some.injEq]
    constructor
    · rintro rfl
      exact ⟨valid.1, valid.2.1, valid.2.2.1, valid.2.2.2, rfl⟩
    · exact fun number => number.2.2.2.2
  · rename_i invalid
    refine iff_of_false (by simp) ?_
    rintro ⟨nonempty, all, lower, upper, rfl⟩
    exact invalid ⟨nonempty, all, lower, upper⟩

/-- A port number is what `htons` makes of its digits. -/
theorem htons_of_portNumber {text : Bytes} {n : Nat} (number : portNumber text = some n) :
    htons (atoi text) = n := by
  obtain ⟨nonempty, all, -, upper, rfl⟩ := portNumber_eq_some.mp number
  rw [atoi_digits nonempty all (by omega), htons]
  omega

/-! ### The endpoint that is dialled

For an address the port behind its colon, when that is one to five digits, otherwise the argument,
and sixteen bits of either. A name is handed to the resolver as it stands. -/

/-- The endpoint `httpc_parse_uri` decides for, none when it fails before it dials. -/
def dialTarget (check : Ipv4Check) (host port : Bytes) : Option Endpoint :=
  if check.ret = httpcErrOk then
    (inetPton4 (cstr check.addr)).map fun octets =>
      .address
        { addr := octets
          port := htons (if cstr check.port = [] then atoi port else atoi (cstr check.port)) }
  else some (.name host port)

/-- Dialling an endpoint: one connect call to an address, and for a name the resolver and the
addresses it returns. -/
def dialTo (env : Platform) (s : Setup) : Endpoint → Int × Setup
  | .address addr =>
      let tried := env.connectTo s addr
      if tried.1 = 0 then (httpcErrOk, tried.2) else (httpcErrFail, tried.2)
  | .name host service => dialName env host service s

/-- Connecting to a host is dialling the endpoint decided for. -/
theorem dial_eq (env : Platform) (classify : Option Bytes → Ipv4Check) (host port : Bytes)
    (s : Setup) :
    dial env classify host port s =
      (dialTarget (classify (some host)) host port).elim (httpcErrFail, s) (dialTo env s) := by
  unfold dial dialTarget
  dsimp only
  split
  · unfold dialAddress
    cases inetPton4 (cstr (classify (some host)).addr) <;> rfl
  · rfl

/-- The port behind the colon is looked at when it is one to five digits. -/
def PortHeld (host : Bytes) : Prop :=
  givenPort host ≠ [] ∧ (givenPort host).length ≤ 5 ∧
    ∀ b ∈ givenPort host, (digitVal 10 b).isSome

instance (host : Bytes) : Decidable (PortHeld host) :=
  inferInstanceAs (Decidable (_ ∧ _))

/-- The port of an IPv4 address as it is dialled: sixteen bits of the port behind the colon, when it
is looked at, and otherwise of the argument. -/
def dialledPort (host port : Bytes) : Nat :=
  htons (if PortHeld host then atoi (givenPort host) else atoi port)

section

variable {host : Bytes}

/-- Without a colon nothing stands behind it, and the whole authority is the host. -/
theorem hostPart_of_no_colon (plain : 58 ∉ host) : hostPart host = host ∧ givenPort host = [] := by
  have whole : hostPart host = host := by
    apply List.takeWhile_eq_self_iff.mpr
    intro b member
    have different : b ≠ 58 := fun equal => plain (equal ▸ member)
    simpa using different
  refine ⟨whole, ?_⟩
  rw [givenPort, whole]
  exact List.drop_of_length_le (Nat.le_succ _)

/-- What is copied to `ip_port`. -/
theorem ipv4PortText_eq :
    ipv4PortText host = if (givenPort host).length ≤ 5 then givenPort host else [] := by
  unfold ipv4PortText
  rw [show ascii ":" = [58] from rfl, strstr_singleton]
  by_cases colon : 58 ∈ host
  · rw [if_pos colon]
    rfl
  · rw [if_neg colon, (hostPart_of_no_colon colon).2]
    rfl

/-- A byte is a digit exactly when it is between `0` and `9`. -/
theorem digit_iff {b : Byte} :
    (48 ≤ b.toNat && b.toNat ≤ 57) = true ↔ (digitVal 10 b).isSome := by
  rw [digitVal_isSome, charVal, Bool.and_eq_true, decide_eq_true_iff, decide_eq_true_iff]
  split
  · rename_i digit
    exact iff_of_true digit (by omega)
  · rename_i other
    refine iff_of_false other ?_
    split
    · omega
    · split <;> omega

/-- What the check leaves in `port`. -/
theorem ipv4Check_port (free : nul ∉ host) (total : host.length ≤ 21) :
    cstr (httpcIpv4AddressCheck (some host)).port =
      if PortHeld host then givenPort host else [] := by
  obtain ⟨noNul, short⟩ := portText_spec free
  have held : cstr (ipv4IpPort host) = ipv4PortText host := by
    rw [ipv4IpPort, strncpy_eq noNul _ le_rfl, List.take_length]
    exact cstr_patch_blank noNul short
  have digitsOnly : ipv4PortDigits host = true ↔
      ∀ b ∈ ipv4PortText host, (digitVal 10 b).isSome := by
    rw [ipv4PortDigits, held, List.all_eq_true]
    exact forall₂_congr fun b _ => digit_iff
  rw [httpcIpv4AddressCheck_eq (by omega)]
  dsimp only
  by_cases all : ∀ b ∈ ipv4PortText host, (digitVal 10 b).isSome
  · rw [if_pos (digitsOnly.mpr all), strncpy, held, List.take_length, Nat.sub_self,
      List.replicate_zero, List.append_nil, cstr_patch_blank noNul (short.trans (by decide))]
    rw [ipv4PortText_eq] at all ⊢
    by_cases few : (givenPort host).length ≤ 5
    · rw [if_pos few] at all ⊢
      by_cases empty : givenPort host = []
      · simp [empty]
      · rw [if_pos ⟨empty, few, all⟩]
    · rw [if_neg few, if_neg fun portHeld => few portHeld.2.1]
  · rw [if_neg fun only => all (digitsOnly.mp only), if_neg]
    · rfl
    · rintro ⟨-, few, digitsGiven⟩
      rw [ipv4PortText_eq, if_pos few] at all
      exact all digitsGiven

/-- An octet that `inet_pton` takes is one by the wider rule, of up to three digits. -/
theorem ptonOctet_spec {piece : Bytes} {n : Nat} (taken : ptonOctet piece = some n) :
    IsOctet piece ∧ piece.length ≤ 3 := by
  unfold ptonOctet at taken
  dsimp only at taken
  split at taken
  · rename_i valid
    obtain ⟨whole, nonempty, few, -, small⟩ := valid
    exact ⟨⟨List.length_pos_iff.mp nonempty, all_digits_of_length whole, small⟩, few⟩
  · simp at taken

/-- What `mapM` succeeds on is a list of successes. -/
theorem exists_of_mapM {pieces : List Bytes} {octets : List Nat}
    (taken : pieces.mapM ptonOctet = some octets) :
    ∀ piece ∈ pieces, ∃ n, ptonOctet piece = some n := by
  induction pieces generalizing octets with
  | nil => simp
  | cons first pieces ih =>
      rw [List.mapM_cons] at taken
      obtain ⟨n, head, rest⟩ := Option.bind_eq_some_iff.mp taken
      obtain ⟨later, tail, -⟩ := Option.bind_eq_some_iff.mp rest
      intro piece member
      rcases List.mem_cons.mp member with rfl | behind
      · exact ⟨n, head⟩
      · exact ih tail piece behind

/-- An address that `inet_pton` takes is one by the wider rule, of at most fifteen characters. -/
theorem inetPton4_spec {text : Bytes} {octets : List Nat} (taken : inetPton4 text = some octets) :
    DottedQuad text ∧ text.length ≤ 15 := by
  unfold inetPton4 at taken
  split at taken
  · rename_i four
    have each := exists_of_mapM taken
    refine ⟨⟨four, ?_⟩, ?_⟩
    · intro piece member
      obtain ⟨n, octet⟩ := each piece member
      exact (ptonOctet_spec octet).1
    · have total := splitOn_length 46 text
      have few : ∀ piece ∈ text.splitOn 46, piece.length ≤ 3 := by
        intro piece member
        obtain ⟨n, octet⟩ := each piece member
        exact (ptonOctet_spec octet).2
      have bound := sum_length_le few
      rw [four] at bound total
      omega
  · simp at taken

/-! ### Which endpoint that is

The two compared, for an authority that is an address and for one that is a name. -/

/-- An authority of at most twenty-one characters whose host is an IPv4 address. -/
def Literal (host : Bytes) (octets : List Nat) : Prop :=
  inetPton4 (hostPart host) = some octets ∧ host.length ≤ 21

/-- Such an address is dialled, on the port that was made out. -/
theorem dialTarget_literal (free : nul ∉ host) {octets : List Nat} (literal : Literal host octets)
    (port : Bytes) :
    dialTarget (httpcIpv4AddressCheck (some host)) host port =
      some (.address { addr := octets, port := dialledPort host port }) := by
  obtain ⟨taken, total⟩ := literal
  obtain ⟨quad, part⟩ := inetPton4_spec taken
  have accepted := (ipv4Check_ok_iff free part total).mpr (dottedQuad_iff.mp quad).1
  rw [dialTarget, if_pos accepted, ipv4Check_addr free part total, taken, Option.map_some,
    dialledPort, ipv4Check_port free total]
  by_cases portHeld : PortHeld host
  · rw [if_pos portHeld, if_pos portHeld, if_neg portHeld.1]
  · rw [if_neg portHeld, if_neg portHeld, if_pos rfl]

/-- A text that `ip_addr` cannot hold is no address. -/
theorem inetPton4_long (free : nul ∉ host) (long : 15 < (hostPart host).length) :
    inetPton4 (cstr (ipv4IpAddr host)) = none := by
  have full : nul ∉ ipv4IpAddr host := by
    rw [nul_mem_ipAddr free]
    exact not_lt.mpr long
  cases taken : inetPton4 (cstr (ipv4IpAddr host)) with
  | none => rfl
  | some octets =>
      have bound := (inetPton4_spec taken).2
      rw [cstr_of_nul_free full, length_ipAddr] at bound
      exact absurd bound (by decide)

/-- Every other authority is resolved as it stands, if it does not fail. -/
theorem dialTarget_other (free : nul ∉ host) (other : ∀ octets, ¬ Literal host octets)
    (port : Bytes) :
    ∀ e ∈ dialTarget (httpcIpv4AddressCheck (some host)) host port, e = .name host port := by
  intro e target
  unfold dialTarget at target
  split at target
  · rename_i accepted
    have total : host.length ≤ 21 := by
      by_contra long
      have refused : (httpcIpv4AddressCheck (some host)).ret = httpcErrParam := by
        unfold httpcIpv4AddressCheck
        dsimp only
        rw [if_pos (not_le.mp long)]
      rw [refused] at accepted
      exact absurd accepted (by decide)
    obtain ⟨octets, taken, -⟩ := Option.map_eq_some_iff.mp target
    rw [ipv4Check_addr_eq total] at taken
    by_cases part : (hostPart host).length ≤ 15
    · rw [ipAddr_text free part] at taken
      exact absurd ⟨taken, total⟩ (other octets)
    · rw [inetPton4_long free (not_le.mp part)] at taken
      simp at taken
  · exact (Option.some.inj target).symm

/-- The port of an IPv4 address is taken as it is named: it is a number from 1 to 65535, and if more
than five characters stand behind the colon, the argument happens to give the same. -/
def PortTaken (host port : Bytes) : Prop :=
  ∃ n, portNumber (portText host port) = some n ∧
    (5 < (givenPort host).length → htons (atoi port) = n)

/-- Then the port that is dialled is the one named, and only then. -/
theorem portTaken_iff (port : Bytes) :
    PortTaken host port ↔ portNumber (portText host port) = some (dialledPort host port) := by
  have exactly : ∀ n, portNumber (portText host port) = some n →
      ((5 < (givenPort host).length → htons (atoi port) = n) ↔ dialledPort host port = n) := by
    intro n number
    unfold dialledPort
    unfold portText at number
    by_cases empty : givenPort host = []
    · rw [if_pos empty] at number
      rw [if_neg (fun portHeld : PortHeld host => portHeld.1 empty), htons_of_portNumber number]
      simp
    · rw [if_neg empty] at number
      by_cases few : (givenPort host).length ≤ 5
      · have all := (portNumber_eq_some.mp number).2.1
        rw [if_pos (show PortHeld host from ⟨empty, few, all⟩), htons_of_portNumber number]
        simp [not_lt.mpr few]
      · rw [if_neg (fun portHeld : PortHeld host => few portHeld.2.1)]
        simp [not_le.mp few]
  constructor
  · rintro ⟨n, number, long⟩
    rw [number, (exactly n number).mp long]
  · intro number
    exact ⟨_, number, (exactly _ number).mpr rfl⟩

/-- An authority that the resolver takes names itself, with the argument as its port. -/
theorem namedEndpoint_of_name (plain : 58 ∉ host) (other : ∀ octets, ¬ Literal host octets)
    (port : Bytes) : namedEndpoint host port = some (.name host port) := by
  obtain ⟨whole, nothing⟩ := hostPart_of_no_colon plain
  unfold namedEndpoint
  cases taken : inetPton4 (hostPart host) with
  | none =>
      dsimp only
      rw [if_pos nothing, whole]
  | some octets =>
      have bound := (inetPton4_spec taken).2
      rw [whole] at bound
      exact absurd ⟨taken, bound.trans (by decide)⟩ (other octets)

end

/-! ### The whole function

With a resolver that returns the addresses of the host and the port it was asked for, every
connection goes to the endpoint that was named exactly under the condition on the port. -/

/-- The resolver knows no name with a colon in it. -/
def PlainResolver (env : Platform) : Prop :=
  ∀ host service, 58 ∈ host → (env.getaddrinfo host service).1 < 0

/-- On success, `httpc_parse_uri` has decided for the endpoint that its URI and `port` name, and its
connect calls are those of dialling it. -/
def DialsNamed (env : Platform) (httpc : Httpc) (uri : Option Bytes) (port : Bytes) (s : Setup) :
    Prop :=
  (httpcParseUri env httpcIpv4AddressCheck httpc uri port s).ret = httpcErrOk →
    ∃ tls hostPtr e, schemeOf uri = some (tls, hostPtr) ∧
      namedEndpoint (uriHost hostPtr) port = some e ∧
      dialTarget (httpcIpv4AddressCheck (some (uriHost hostPtr))) (uriHost hostPtr) port = some e ∧
      (httpcParseUri env httpcIpv4AddressCheck httpc uri port s).setup.connects =
        (dialTo env (blocksTaken env s) e).2.connects

/-- The authority is an IPv4 address that can be connected to with connect call number `first`, on
the port that is dialled. -/
def LiteralConnects (env : Platform) (host port : Bytes) (first : Nat) : Prop :=
  ∃ octets, Literal host octets ∧
    env.connect first { addr := octets, port := dialledPort host port } = 0

section

variable {env : Platform} {s : Setup} {host port : Bytes}

/-- Dialling an address succeeds when it connects. -/
theorem dial_literal (free : nul ∉ host) {octets : List Nat} (literal : Literal host octets) :
    (dial env httpcIpv4AddressCheck host port s).1 = httpcErrOk ↔
      env.connect s.connects.length { addr := octets, port := dialledPort host port } = 0 := by
  rw [dial_eq, dialTarget_literal free literal, Option.elim_some, dialTo]
  unfold Platform.connectTo
  dsimp only
  split
  · rename_i connects
    exact iff_of_true rfl connects
  · rename_i refused
    exact iff_of_false (show httpcErrFail ≠ httpcErrOk by decide) refused

/-- Dialling anything else succeeds only for a name without a colon. -/
theorem dial_other (plain : PlainResolver env) (free : nul ∉ host)
    (other : ∀ octets, ¬ Literal host octets)
    (succeeds : (dial env httpcIpv4AddressCheck host port s).1 = httpcErrOk) :
    dialTarget (httpcIpv4AddressCheck (some host)) host port = some (.name host port) ∧
      58 ∉ host := by
  rw [dial_eq] at succeeds
  cases target : dialTarget (httpcIpv4AddressCheck (some host)) host port with
  | none =>
      rw [target] at succeeds
      exact absurd succeeds (show httpcErrFail ≠ httpcErrOk by decide)
  | some e =>
      obtain rfl := dialTarget_other free other port e target
      refine ⟨rfl, ?_⟩
      intro colon
      rw [target, Option.elim_some, dialTo, dialName, if_pos (plain host port colon)] at succeeds
      exact absurd succeeds (show httpcErrFail ≠ httpcErrOk by decide)

/-- On a host that is dialled, the endpoint is the one named exactly where an address that connects
has its port taken. -/
theorem dial_named_iff (plain : PlainResolver env) (free : nul ∉ host) :
    ((dial env httpcIpv4AddressCheck host port s).1 = httpcErrOk →
        ∃ e, namedEndpoint host port = some e ∧
          dialTarget (httpcIpv4AddressCheck (some host)) host port = some e) ↔
      (LiteralConnects env host port s.connects.length → PortTaken host port) := by
  by_cases isLiteral : ∃ octets, Literal host octets
  · obtain ⟨octets, literal⟩ := isLiteral
    have connects : LiteralConnects env host port s.connects.length ↔
        env.connect s.connects.length { addr := octets, port := dialledPort host port } = 0 := by
      constructor
      · rintro ⟨octets', ⟨taken, -⟩, works⟩
        obtain rfl := Option.some.inj (taken.symm.trans literal.1)
        exact works
      · exact fun works => ⟨octets, literal, works⟩
    rw [dial_literal free literal, connects, portTaken_iff, dialTarget_literal free literal]
    refine imp_congr_right fun _ => ?_
    unfold namedEndpoint
    rw [literal.1]
    cases portNumber (portText host port) <;> simp [eq_comm]
  · have other : ∀ octets, ¬ Literal host octets := not_exists.mp isLiteral
    refine iff_of_true ?_ ?_
    · intro succeeds
      obtain ⟨target, noColon⟩ := dial_other plain free other succeeds
      exact ⟨_, namedEndpoint_of_name noColon other port, target⟩
    · rintro ⟨octets, literal, -⟩
      exact absurd literal (other octets)

end

/-- With a resolver that knows only plain names, a success of `httpc_parse_uri` means that the
endpoint named was dialled, exactly where an IPv4 address that connects has its port taken as it is
named. -/
theorem dialled_endpoint_iff {env : Platform} (plain : PlainResolver env) (httpc : Httpc)
    (uri : Option Bytes) (port : Bytes) (s : Setup) :
    DialsNamed env httpc uri port s ↔
      ∀ host, dialledHost env uri s.callocs = some host →
        LiteralConnects env host port s.connects.length → PortTaken host port := by
  unfold DialsNamed
  cases dials : dialledHost env uri s.callocs with
  | none =>
      have fails := (httpcParseUri_stops env httpcIpv4AddressCheck httpc port dials).1
      exact iff_of_true (fun succeeds => absurd succeeds fails.ne) (by simp)
  | some host =>
      obtain ⟨ret, connects⟩ := httpcParseUri_reports env httpcIpv4AddressCheck httpc port dials
      obtain ⟨tls, hostPtr, scheme, -, -, rfl⟩ := dialledHost_eq_some.mp dials
      have unchanged : (blocksTaken env s).connects = s.connects := by simp [blocksTaken]
      have exactly := @dial_named_iff env (blocksTaken env s) (uriHost hostPtr) port plain
        (uriHost_free hostPtr)
      rw [unchanged] at exactly
      rw [ret, connects, scheme]
      simp only [Option.some.injEq, Prod.mk.injEq, forall_eq', ← exactly]
      refine imp_congr_right fun _ => ?_
      constructor
      · rintro ⟨_, _, e, ⟨rfl, rfl⟩, named, target, -⟩
        exact ⟨e, named, target⟩
      · rintro ⟨e, named, target⟩
        exact ⟨_, _, e, ⟨rfl, rfl⟩, named, target, by rw [dial_eq, target, Option.elim_some]⟩

/-- A network on which every address connects and no name is known. -/
def answering : Platform where
  calloc _ := true
  socket := 3
  getaddrinfo _ _ := (-2, [])
  connect _ _ := 0
  mbedtls _ := 0

/-- There a port of four digits is dialled as it is named. -/
theorem dialled_endpoint_iff_answering :
    DialsNamed answering (Httpc.plain 3) (some (ascii "http://10.0.0.1:8080/")) (ascii "80")
      Setup.fresh := by
  have plain : PlainResolver answering := fun _ _ _ => show (-2 : Int) < 0 by decide
  refine (dialled_endpoint_iff plain _ _ _ _).mpr ?_
  intro host dials _
  have host_eq : dialledHost answering (some (ascii "http://10.0.0.1:8080/")) 0 =
      some (ascii "10.0.0.1:8080") := by decide +kernel
  obtain rfl := Option.some.inj (host_eq.symm.trans dials)
  exact (portTaken_iff _).mpr (by decide +kernel)

/-- A URI that names no endpoint must not succeed. -/
theorem not_dialsNamed {env : Platform} {httpc : Httpc} {uri : Option Bytes} {port : Bytes}
    {s : Setup} (succeeds : (httpcParseUri env httpcIpv4AddressCheck httpc uri port s).ret =
      httpcErrOk) {tls : Bool} {hostPtr : Bytes} (scheme : schemeOf uri = some (tls, hostPtr))
    (nothing : namedEndpoint (uriHost hostPtr) port = none) :
    ¬ DialsNamed env httpc uri port s := by
  intro named
  obtain ⟨_, _, e, scheme', endpoint, -⟩ := named succeeds
  cases scheme.symm.trans scheme'
  rw [nothing] at endpoint
  cases endpoint

/-- Port 70000 is dialled as 4464, and neither port 0 nor the port `8080x` is refused. -/
theorem dialled_port_wraps :
    ¬ DialsNamed answering (Httpc.plain 3) (some (ascii "http://10.0.0.1:70000/")) (ascii "80")
        Setup.fresh ∧
      (httpcParseUri answering httpcIpv4AddressCheck (Httpc.plain 3)
        (some (ascii "http://10.0.0.1:70000/")) (ascii "80") Setup.fresh).setup.connects =
          [{ addr := { addr := [10, 0, 0, 1], port := 4464 }, ret := 0 }] ∧
      ¬ DialsNamed answering (Httpc.plain 3) (some (ascii "http://10.0.0.1:0/")) (ascii "80")
        Setup.fresh ∧
      ¬ DialsNamed answering (Httpc.plain 3) (some (ascii "http://10.0.0.1:8080x/")) (ascii "80")
        Setup.fresh := by
  refine ⟨?_, by decide +kernel, ?_, ?_⟩
  · exact not_dialsNamed (by decide +kernel)
      (show schemeOf _ = some (false, ascii "10.0.0.1:70000/") by decide +kernel)
      (by decide +kernel)
  · exact not_dialsNamed (by decide +kernel)
      (show schemeOf _ = some (false, ascii "10.0.0.1:0/") by decide +kernel) (by decide +kernel)
  · exact not_dialsNamed (by decide +kernel)
      (show schemeOf _ = some (false, ascii "10.0.0.1:8080x/") by decide +kernel)
      (by decide +kernel)

end Hfc
