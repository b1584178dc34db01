/-
Module: Hfc.Proofs.Dialling
Layer: Proofs
Purpose: Whether a client that was set up is connected. Both branches of `httpc_parse_uri` make
  attempts in order up to the first one that succeeds; the branch for an IPv4 address reports how
  they ended, the branch for a name does not.
Imports: Hfc.Core.Client
Main exports: attempts, attempts_connected_iff, connectLoop_connects, DialsName,
  httpcParseUri_dials, httpcParseUri_ret, httpcParseUri_client, ParseSound, NameConnects,
  parse_connected_iff, InitSound, connected_client_iff
-/
import Hfc.Core.Client

namespace Hfc

open ByteText

/-! ### Attempts in order

The addresses of a host are tried in order until one answers. What was tried is a front of the list
that ends with the first success. -/

/-- The calls made when addresses are tried in order until one of them connects, from call number
`first` on. -/
def attempts (connect : Nat → SockAddr → Int) : (first : Nat) → List SockAddr → List ConnectCall
  | _, [] => []
  | first, addr :: later =>
      { addr := addr, ret := connect first addr } ::
        if connect first addr = 0 then [] else attempts connect (first + 1) later

/-- One of the calls connected. -/
def Connected (calls : List ConnectCall) : Prop :=
  ∃ call ∈ calls, call.ret = 0

instance (calls : List ConnectCall) : Decidable (Connected calls) :=
  inferInstanceAs (Decidable (∃ call ∈ calls, call.ret = 0))

/-- The attempts up to the first success contain one if and only if some address would connect in
its turn. -/
theorem attempts_connected_iff (connect : Nat → SockAddr → Int) (first : Nat)
    (addrs : List SockAddr) :
    Connected (attempts connect first addrs) ↔
      ∃ i addr, addrs[i]? = some addr ∧ connect (first + i) addr = 0 := by
  induction addrs generalizing first with
  | nil => simp [attempts, Connected]
  | cons addr later ih =>
      by_cases works : connect first addr = 0
      · have head : Connected (attempts connect first (addr :: later)) :=
          ⟨_, List.mem_cons_self, works⟩
        exact ⟨fun _ => ⟨0, addr, rfl, works⟩, fun _ => head⟩
      · have tail : Connected (attempts connect first (addr :: later)) ↔
            Connected (attempts connect (first + 1) later) := by
          simp [attempts, Connected, works]
        rw [tail, ih]
        constructor
        · rintro ⟨i, other, found, connects⟩
          exact ⟨i + 1, other, found, by rwa [Nat.add_assoc, Nat.add_comm 1 i] at connects⟩
        · rintro ⟨i, other, found, connects⟩
          cases i with
          | zero =>
              cases found
              exact absurd connects works
          | succ i =>
              exact ⟨i, other, found, by rwa [Nat.add_assoc, Nat.add_comm 1 i]⟩

/-- The IPv4 addresses of a list the resolver returned. -/
def inetAddrs (list : List AddrInfo) : List SockAddr :=
  (list.filter fun cur => cur.family = .inet).map (·.addr)

/-- The loop makes the attempts to the IPv4 addresses of the list. -/
theorem connectLoop_connects (env : Platform) (list : List AddrInfo) (ret : Int) (s : Setup) :
    (connectLoop env list ret s).2.connects =
      s.connects ++ attempts env.connect s.connects.length (inetAddrs list) := by
  induction list generalizing ret s with
  | nil => simp [connectLoop, inetAddrs, attempts]
  | cons cur next ih =>
      by_cases inet : cur.family = .inet
      · have split : inetAddrs (cur :: next) = cur.addr :: inetAddrs next := by
          simp [inetAddrs, inet]
        by_cases works : env.connect s.connects.length cur.addr = 0
        · simp [connectLoop, Platform.connectTo, inet, works, split, attempts]
        · simp [connectLoop, Platform.connectTo, inet, works, split, attempts, ih]
      · have skip : inetAddrs (cur :: next) = inetAddrs next := by simp [inetAddrs, inet]
        simp [connectLoop, inet, skip, ih]

/-! ### The two branches

An address in digits is dialled once and its failure is reported. A name is looked up, and the
failure of all its addresses is not. -/

section Branches

variable (env : Platform) (classify : Option Bytes → Ipv4Check)

/-- The host is taken for a name and the resolver does not fail: what it returns. -/
def DialsName (host port : Bytes) (list : List AddrInfo) : Prop :=
  (classify (some host)).ret ≠ httpcErrOk ∧ 0 ≤ (env.getaddrinfo host port).1 ∧
    list = (env.getaddrinfo host port).2

/-- The branch for an IPv4 address fails, or makes one attempt and reports how it ended. -/
theorem dialAddress_eq (check : Ipv4Check) (port : Bytes) (s : Setup) :
    dialAddress env check port s = (httpcErrFail, s) ∨
      ∃ addr, dialAddress env check port s =
        (if (env.connectTo s addr).1 = 0 then httpcErrOk else httpcErrFail,
          (env.connectTo s addr).2) := by
  simp only [dialAddress]
  generalize htons _ = sinPort
  cases inetPton4 (cstr check.addr) with
  | none => exact .inl rfl
  | some octets =>
      refine .inr ⟨{ addr := octets, port := sinPort }, ?_⟩
      simp only
      split <;> rfl

/-- What it reports is right. -/
theorem dialAddress_reports (check : Ipv4Check) (port : Bytes) (s : Setup) :
    ∃ made, (dialAddress env check port s).2.connects = s.connects ++ made ∧
      ((dialAddress env check port s).1 = httpcErrOk ↔ Connected made) := by
  rcases dialAddress_eq env check port s with fails | ⟨addr, tried⟩
  · rw [fails]
    exact ⟨[], by simp, by simp [Connected]⟩
  · rw [tried]
    refine ⟨_, Platform.connectTo_connects env s addr, ?_⟩
    by_cases works : (env.connectTo s addr).1 = 0 <;> simp [works, Connected]

/-- A dialled host yields success or an error. -/
theorem dial_ret (host port : Bytes) (s : Setup) :
    (dial env classify host port s).1 = httpcErrOk ∨
      (dial env classify host port s).1 < httpcErrOk := by
  unfold dial
  simp only
  split
  · rcases dialAddress_eq env (classify (some host)) port s with fails | ⟨addr, tried⟩
    · simp [fails]
    · by_cases works : (env.connectTo s addr).1 = 0 <;> simp [tried, works]
  · unfold dialName
    by_cases fails : (env.getaddrinfo host port).1 < 0 <;> simp [fails]

/-- The branch for a name that the resolver knows reports success whatever its attempts did. -/
theorem dial_name {host port : Bytes} {list : List AddrInfo}
    (name : DialsName env classify host port list) (s : Setup) :
    (dial env classify host port s).1 = httpcErrOk ∧
      (dial env classify host port s).2.connects =
        s.connects ++ attempts env.connect s.connects.length (inetAddrs list) := by
  obtain ⟨other, resolves, rfl⟩ := name
  rw [dial, if_neg other, dialName, if_neg (not_lt.mpr resolves)]
  exact ⟨rfl, connectLoop_connects env _ _ s⟩

/-- In every other case the report is right. -/
theorem dial_reports {host port : Bytes} (noName : ∀ list, ¬ DialsName env classify host port list)
    (s : Setup) :
    ∃ made, (dial env classify host port s).2.connects = s.connects ++ made ∧
      ((dial env classify host port s).1 = httpcErrOk ↔ Connected made) := by
  by_cases address : (classify (some host)).ret = httpcErrOk
  · rw [dial, if_pos address]
    exact dialAddress_reports env (classify (some host)) port s
  · have fails : (env.getaddrinfo host port).1 < 0 := by
      by_contra resolves
      exact noName _ ⟨address, not_lt.mp resolves, rfl⟩
    rw [dial, if_neg address, dialName, if_pos fails]
    exact ⟨[], by simp, by simp [Connected]⟩

end Branches

/-! ### The whole function

The result of `httpc_parse_uri` and the connections it tried, by the branch the host takes. -/

/-- Whether the URI asks for TLS, and the text behind its scheme. -/
def schemeOf (uri : Option Bytes) : Option (Bool × Bytes) :=
  uri.bind fun uri => uriScheme (cstr uri)

/-- The host that is dialled: the URI has a scheme the client knows and the blocks for host and path
are there, when `callocs` allocations were made before. -/
def dialledHost (env : Platform) (uri : Option Bytes) (callocs : Nat) : Option Bytes :=
  match schemeOf uri with
  | none => none
  | some (_, hostPtr) =>
      if env.calloc callocs && env.calloc (callocs + 1) then some (uriHost hostPtr) else none

theorem dialledHost_eq_some {env : Platform} {uri : Option Bytes} {callocs : Nat} {host : Bytes} :
    dialledHost env uri callocs = some host ↔
      ∃ tls hostPtr, schemeOf uri = some (tls, hostPtr) ∧ env.calloc callocs = true ∧
        env.calloc (callocs + 1) = true ∧ uriHost hostPtr = host := by
  unfold dialledHost
  rcases schemeOf uri with _ | ⟨tls, hostPtr⟩
  · simp
  · simp [and_assoc]

@[simp] theorem parseExit_connects (ret : Int) (httpc : Httpc) (s : Setup) :
    (parseExit ret httpc s).setup.connects = s.connects := by
  simp [parseExit]

variable (env : Platform) (classify : Option Bytes → Ipv4Check)

/-- What has been done when the blocks for host and path are there. -/
def blocksTaken (s : Setup) : Setup :=
  (env.acquire (env.acquire s .host).2 .path).2

/-- `httpc_parse_uri` where it dials the host. -/
theorem httpcParseUri_dials (httpc : Httpc) {uri : Option Bytes} (port : Bytes) {s : Setup}
    {tls : Bool} {hostPtr : Bytes} (scheme : schemeOf uri = some (tls, hostPtr))
    (hostBlock : env.calloc s.callocs = true) (pathBlock : env.calloc (s.callocs + 1) = true) :
    httpcParseUri env classify httpc uri port s =
      let client :=
        { httpc with
          enableMbedtls := tls
          host := some (uriHost hostPtr)
          path := some (uriPath hostPtr) }
      let dialled := dial env classify (uriHost hostPtr) port (blocksTaken env s)
      if dialled.1 = httpcErrOk then { ret := httpcErrOk, httpc := client, setup := dialled.2 }
      else parseExit dialled.1 client dialled.2 := by
  cases uri with
  | none => simp [schemeOf] at scheme
  | some uri =>
      have scheme : uriScheme (cstr uri) = some (tls, hostPtr) := scheme
      simp only [httpcParseUri, scheme, Platform.acquire_ok, Platform.acquire_callocs, hostBlock,
        pathBlock, Bool.true_eq_false, if_false]
      rfl

/-- `httpc_parse_uri` where it dials nothing: it fails without a connect call. -/
theorem httpcParseUri_stops (httpc : Httpc) {uri : Option Bytes} (port : Bytes) {s : Setup}
    (nothing : dialledHost env uri s.callocs = none) :
    (httpcParseUri env classify httpc uri port s).ret < httpcErrOk ∧
      (httpcParseUri env classify httpc uri port s).setup.connects = s.connects := by
  cases uri with
  | none => simp [httpcParseUri, parseExit]
  | some uri =>
      cases scheme : uriScheme (cstr uri) with
      | none => simp [httpcParseUri, scheme, parseExit]
      | some parts =>
          cases hostBlock : env.calloc s.callocs with
          | false => simp [httpcParseUri, scheme, hostBlock, parseExit]
          | true =>
              cases pathBlock : env.calloc (s.callocs + 1) with
              | false => simp [httpcParseUri, scheme, hostBlock, pathBlock, parseExit]
              | true => simp [dialledHost, schemeOf, scheme, hostBlock, pathBlock] at nothing

/-- Where it dials a host, `httpc_parse_uri` reports what dialling it does. -/
theorem httpcParseUri_reports (httpc : Httpc) {uri : Option Bytes} (port : Bytes) {s : Setup}
    {host : Bytes} (dials : dialledHost env uri s.callocs = some host) :
    (httpcParseUri env classify httpc uri port s).ret =
        (dial env classify host port (blocksTaken env s)).1 ∧
      (httpcParseUri env classify httpc uri port s).setup.connects =
        (dial env classify host port (blocksTaken env s)).2.connects := by
  obtain ⟨tls, hostPtr, scheme, hostBlock, pathBlock, rfl⟩ := dialledHost_eq_some.mp dials
  rw [httpcParseUri_dials env classify httpc port scheme hostBlock pathBlock]
  simp only
  split
  · rename_i done
    exact ⟨done.symm, rfl⟩
  · exact ⟨rfl, parseExit_connects _ _ _⟩

/-- `httpc_parse_uri` succeeds or returns an error. -/
theorem httpcParseUri_ret (httpc : Httpc) (uri : Option Bytes) (port : Bytes) (s : Setup) :
    (httpcParseUri env classify httpc uri port s).ret = httpcErrOk ∨
      (httpcParseUri env classify httpc uri port s).ret < httpcErrOk := by
  cases dials : dialledHost env uri s.callocs with
  | none => exact .inr (httpcParseUri_stops env classify httpc port dials).1
  | some host =>
      rw [(httpcParseUri_reports env classify httpc port dials).1]
      exact dial_ret env classify host port _

/-- What `httpc_parse_uri` makes of the client when it succeeds: it sets `enable_mbedtls` by the
scheme, and host and path. -/
theorem httpcParseUri_client {httpc : Httpc} {uri : Option Bytes} {port : Bytes} {s : Setup}
    (done : (httpcParseUri env classify httpc uri port s).ret = httpcErrOk) :
    ∃ tls hostPtr, schemeOf uri = some (tls, hostPtr) ∧
      (httpcParseUri env classify httpc uri port s).httpc =
        { httpc with
          enableMbedtls := tls
          host := some (uriHost hostPtr)
          path := some (uriPath hostPtr) } := by
  cases dials : dialledHost env uri s.callocs with
  | none => exact absurd done (httpcParseUri_stops env classify httpc port dials).1.ne
  | some host =>
      have dialled := (httpcParseUri_reports env classify httpc port dials).1.symm.trans done
      obtain ⟨tls, hostPtr, scheme, hostBlock, pathBlock, rfl⟩ := dialledHost_eq_some.mp dials
      refine ⟨tls, hostPtr, scheme, ?_⟩
      rw [httpcParseUri_dials env classify httpc port scheme hostBlock pathBlock]
      simp only [dialled, if_true]

/-- The connect calls that were made from `s` on. -/
def Setup.connectsSince (after s : Setup) : List ConnectCall :=
  after.connects.drop s.connects.length

/-- `httpc_parse_uri` succeeds if and only if one of the connect calls it made did. -/
def ParseSound (httpc : Httpc) (uri : Option Bytes) (port : Bytes) (s : Setup) : Prop :=
  (httpcParseUri env classify httpc uri port s).ret = httpcErrOk ↔
    Connected ((httpcParseUri env classify httpc uri port s).setup.connectsSince s)

/-- One of the IPv4 addresses of the list connects when its turn comes. -/
def SomeAddressConnects (first : Nat) (list : List AddrInfo) : Prop :=
  ∃ i addr, (inetAddrs list)[i]? = some addr ∧ env.connect (first + i) addr = 0

/-- Where a name is dialled and the resolver does not fail, one of the IPv4 addresses it returns
connects when its turn comes. -/
def NameConnects (uri : Option Bytes) (port : Bytes) (callocs first : Nat) : Prop :=
  ∀ host list, dialledHost env uri callocs = some host → DialsName env classify host port list →
    SomeAddressConnects env first list

/-- Where a name is dialled, `httpc_parse_uri` succeeds, and its connect calls are the attempts to
the IPv4 addresses of the name. -/
theorem parse_name (httpc : Httpc) {uri : Option Bytes} {port : Bytes} {s : Setup} {host : Bytes}
    {list : List AddrInfo} (dials : dialledHost env uri s.callocs = some host)
    (name : DialsName env classify host port list) :
    (httpcParseUri env classify httpc uri port s).ret = httpcErrOk ∧
      (httpcParseUri env classify httpc uri port s).setup.connectsSince s =
        attempts env.connect s.connects.length (inetAddrs list) := by
  obtain ⟨ret, connects⟩ := httpcParseUri_reports env classify httpc port dials
  obtain ⟨reports, made⟩ := dial_name env classify name (blocksTaken env s)
  have unchanged : (blocksTaken env s).connects = s.connects := by simp [blocksTaken]
  refine ⟨ret.trans reports, ?_⟩
  rw [Setup.connectsSince, connects, made, unchanged, List.drop_left]

/-- Where no name is dialled, `httpc_parse_uri` succeeds if and only if one of its connect calls
did. -/
theorem parse_otherwise (httpc : Httpc) {uri : Option Bytes} {port : Bytes} {s : Setup}
    (noName : ∀ host list, dialledHost env uri s.callocs = some host →
      ¬ DialsName env classify host port list) :
    ParseSound env classify httpc uri port s := by
  unfold ParseSound Setup.connectsSince
  cases dials : dialledHost env uri s.callocs with
  | none =>
      obtain ⟨fails, same⟩ := httpcParseUri_stops env classify httpc port dials
      have noSuccess : ¬ (httpcParseUri env classify httpc uri port s).ret = 0 := fails.ne
      simp [same, noSuccess, Connected]
  | some host =>
      obtain ⟨ret, connects⟩ := httpcParseUri_reports env classify httpc port dials
      obtain ⟨made, dialled, reports⟩ :=
        dial_reports env classify (fun list => noName host list dials) (blocksTaken env s)
      have unchanged : (blocksTaken env s).connects = s.connects := by simp [blocksTaken]
      rw [ret, connects, dialled, unchanged, List.drop_left]
      exact reports

/-- A success of `httpc_parse_uri` means a connection exactly where no name is dialled in vain. -/
theorem parse_connected_iff (httpc : Httpc) (uri : Option Bytes) (port : Bytes) (s : Setup) :
    ((httpcParseUri env classify httpc uri port s).ret = httpcErrOk →
        Connected ((httpcParseUri env classify httpc uri port s).setup.connectsSince s)) ↔
      NameConnects env classify uri port s.callocs s.connects.length := by
  constructor
  · intro connected host list dials name
    obtain ⟨succeeds, made⟩ := parse_name env classify httpc dials name
    rw [made] at connected
    exact (attempts_connected_iff env.connect _ _).mp (connected succeeds)
  · intro connects succeeds
    by_cases named : ∃ host list, dialledHost env uri s.callocs = some host ∧
        DialsName env classify host port list
    · obtain ⟨host, list, dials, name⟩ := named
      rw [(parse_name env classify httpc dials name).2]
      exact (attempts_connected_iff env.connect _ _).mpr (connects host list dials name)
    · exact (parse_otherwise env classify httpc fun host list dials name =>
        named ⟨host, list, dials, name⟩).mp succeeds

/-- A connection means success: only the other direction can fail. -/
theorem parse_of_connected (httpc : Httpc) {uri : Option Bytes} {port : Bytes} {s : Setup}
    (connected : Connected ((httpcParseUri env classify httpc uri port s).setup.connectsSince s)) :
    (httpcParseUri env classify httpc uri port s).ret = httpcErrOk := by
  by_cases named : ∃ host list, dialledHost env uri s.callocs = some host ∧
      DialsName env classify host port list
  · obtain ⟨host, list, dials, name⟩ := named
    exact (parse_name env classify httpc dials name).1
  · exact (parse_otherwise env classify httpc fun host list dials name =>
      named ⟨host, list, dials, name⟩).mpr connected

/-! ### A client without TLS

For a URI without TLS `httpc_parse_uri` decides what `httpc_init` returns, once the block of the
client is there. -/

/-- The URI asks for a connection without TLS. -/
def PlainUri (uri : Option Bytes) : Prop :=
  ∃ text ∈ uri, ascii "http://" <+: cstr text

/-- The scheme of a URI that asks for no TLS. -/
theorem PlainUri.scheme {uri : Option Bytes} (plain : PlainUri uri) :
    ∃ hostPtr, schemeOf uri = some (false, hostPtr) := by
  obtain ⟨text, rfl, starts⟩ := plain
  refine ⟨(cstr text).drop 7, ?_⟩
  rw [schemeOf, Option.bind_some, uriScheme, if_pos (List.isPrefixOf_iff_prefix.mpr starts)]

variable (node : Option HttpcMemNode) (sslInfo : Option HttpcTlsInfo)

/-- For a URI without TLS, `httpc_init` returns a client only when one of its connect calls
succeeded. -/
def InitSound (uri : Option Bytes) (port : Bytes) (s : Setup) : Prop :=
  PlainUri uri → (httpcInit env classify uri port node sslInfo s).httpc.isSome →
    Connected ((httpcInit env classify uri port node sslInfo s).setup.connectsSince s)

@[simp] theorem initFail_connects (failed : SetupOutcome) :
    (initFail failed).setup.connects = failed.setup.connects := by
  unfold initFail
  split <;> rfl

@[simp] theorem initOpened_connects (s : Setup) : (initOpened env s).connects = s.connects := by
  simp [initOpened]

@[simp] theorem initOpened_callocs (s : Setup) : (initOpened env s).callocs = s.callocs + 1 := by
  simp [initOpened]

/-- Without TLS, `httpc_init` returns a client if and only if it has a block and a descriptor and
`httpc_parse_uri` succeeds; the connect calls are those of that function. -/
theorem httpcInit_plain {uri : Option Bytes} (plain : PlainUri uri) (port : Bytes) (s : Setup)
    (block : env.calloc s.callocs = true) (valid : 0 ≤ env.socket) :
    ((httpcInit env classify uri port node sslInfo s).httpc.isSome ↔
        (initParsed env classify uri port s).ret = httpcErrOk) ∧
      (httpcInit env classify uri port node sslInfo s).setup.connects =
        (initParsed env classify uri port s).setup.connects := by
  obtain ⟨hostPtr, scheme⟩ := plain.scheme
  simp only [httpcInit, block, Bool.true_eq_false, if_false, not_lt.mpr valid]
  rcases httpcParseUri_ret env classify (Httpc.plain env.socket) uri port (initOpened env s) with
    done | fails
  · have done : (initParsed env classify uri port s).ret = httpcErrOk := done
    obtain ⟨tls, hostPtr', scheme', client⟩ := httpcParseUri_client env classify done
    cases scheme.symm.trans scheme'
    have noTls : (initParsed env classify uri port s).httpc.enableMbedtls = false := by
      rw [initParsed, client]
    simp [done, noTls]
  · have fails : (initParsed env classify uri port s).ret < httpcErrOk := fails
    have noSuccess : ¬ (initParsed env classify uri port s).ret = 0 := fails.ne
    rw [if_pos fails]
    exact ⟨by simp [initFail, noSuccess], initFail_connects _⟩

/-- Without a block or without a descriptor there is no client. -/
theorem httpcInit_none {uri : Option Bytes} (port : Bytes) {s : Setup}
    (unready : ¬ (env.calloc s.callocs = true ∧ 0 ≤ env.socket)) :
    (httpcInit env classify uri port node sslInfo s).httpc = none := by
  unfold httpcInit
  cases block : env.calloc s.callocs with
  | false => rfl
  | true =>
      have invalid : env.socket < 0 := not_le.mp fun valid => unready ⟨block, valid⟩
      simp [invalid]

/-- `httpc_init` is right about its connection exactly where no name is dialled in vain. -/
theorem initSound_iff (uri : Option Bytes) (port : Bytes) (s : Setup) :
    InitSound env classify node sslInfo uri port s ↔
      (PlainUri uri → env.calloc s.callocs = true → 0 ≤ env.socket →
        NameConnects env classify uri port (s.callocs + 1) s.connects.length) := by
  refine imp_congr_right fun plain => ?_
  by_cases ready : env.calloc s.callocs = true ∧ 0 ≤ env.socket
  · obtain ⟨block, valid⟩ := ready
    obtain ⟨returned, connects⟩ :=
      httpcInit_plain env classify node sslInfo plain port s block valid
    have sound :=
      parse_connected_iff env classify (Httpc.plain env.socket) uri port (initOpened env s)
    rw [initOpened_callocs, Setup.connectsSince, initOpened_connects] at sound
    rw [returned, Setup.connectsSince, connects]
    exact sound.trans ⟨fun holds _ _ => holds, fun holds => holds block valid⟩
  · simp only [httpcInit_none env classify node sslInfo port ready, Option.isSome_none,
      Bool.false_eq_true, false_imp_iff, true_iff]
    exact fun block valid => absurd ⟨block, valid⟩ ready

/-! ### Success and connection

Success means a connection except where every address of a name refused. -/

/-- Whatever the URI, the list of addresses and the results of the connect calls are, and whatever
hosts are taken for IPv4 addresses: `httpc_parse_uri` succeeds if and only if one of its connect
calls did, and `httpc_init` returns a client without TLS only then, exactly where no name is dialled
in vain. -/
theorem connected_client_iff (httpc : Httpc) (uri : Option Bytes) (port : Bytes) (s : Setup) :
    (ParseSound env classify httpc uri port s ↔
        NameConnects env classify uri port s.callocs s.connects.length) ∧
      (InitSound env classify node sslInfo uri port s ↔
        (PlainUri uri → env.calloc s.callocs = true → 0 ≤ env.socket →
          NameConnects env classify uri port (s.callocs + 1) s.connects.length)) := by
  refine ⟨?_, initSound_iff env classify node sslInfo uri port s⟩
  rw [← parse_connected_iff env classify httpc]
  exact ⟨Iff.mp, fun sound => ⟨sound, parse_of_connected env classify httpc⟩⟩

/-- A network on which a name has two addresses, none of which can be connected to. -/
def refusing : Platform where
  calloc _ := true
  socket := 3
  getaddrinfo _ _ :=
    (0, [{ family := .inet6, addr := { addr := [], port := 80 } },
      { family := .inet, addr := { addr := [93, 184, 216, 34], port := 80 } }])
  connect _ _ := -1
  mbedtls _ := 0

/-- There `httpc_parse_uri` reports success and `httpc_init` returns a client for a name, while for
an address they fail. -/
theorem refused_name_is_a_client :
    ¬ ParseSound refusing httpcIpv4AddressCheck (Httpc.plain 3) (some (ascii "http://example.com/"))
        (ascii "80") Setup.fresh ∧
      ¬ InitSound refusing httpcIpv4AddressCheck none none (some (ascii "http://example.com/"))
        (ascii "80") Setup.fresh ∧
      (httpcInit refusing httpcIpv4AddressCheck (some (ascii "http://93.184.216.34/")) (ascii "80")
        none none Setup.fresh).httpc = none := by
  refine ⟨?_, ?_, by decide +kernel⟩
  · show ¬ (_ ↔ _)
    decide +kernel
  · intro sound
    exact absurd (sound ⟨_, rfl, by decide +kernel⟩ (by decide +kernel)) (by decide +kernel)

end Hfc
