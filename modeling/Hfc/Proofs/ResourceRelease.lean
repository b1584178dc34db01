/-
Module: Hfc.Proofs.ResourceRelease
Layer: Proofs
Purpose: Whether the setup and the end of a client give back what they took. Every way through
  `httpc_init` up to `httpc_tls_init` settles the ledger, and so does the end of a client without
  TLS. From `httpc_tls_init` on none does: its failure leaves host and path behind, and its success
  has the descriptor closed by the TLS context and by the client.
Imports: Hfc.Library.Ledger, Hfc.Proofs.TlsSetup
Main exports: LedgerEntry.event, Setup.ledgerSince, httpcParseUri_ledger,
  httpcTlsInit_verify_ledger, calls_sameBlocks, Released, InitReleases, releases_of_no_tls,
  not_releases_of_tls, init_releases_iff
-/
import Hfc.Library.Ledger
import Hfc.Proofs.TlsSetup

namespace Hfc

open ByteText EventRun Ledger

/-! ### Ledgers

What each call adds to the list of what was taken and given back. -/

/-- An entry as the event of a ledger. -/
def LedgerEntry.event : LedgerEntry → Event Resource
  | .acquire resource => .acquire resource
  | .release resource => .release resource

/-- The resources taken and given back from `s` on. -/
def Setup.ledgerSince (after s : Setup) : List (Event Resource) :=
  (after.ledger.drop s.ledger.length).map LedgerEntry.event

theorem Setup.ledgerSince_eq {after s : Setup} {made : List LedgerEntry}
    (appended : after.ledger = s.ledger ++ made) :
    after.ledgerSince s = made.map LedgerEntry.event := by
  rw [Setup.ledgerSince, appended, List.drop_left]

@[simp] theorem Setup.release_ledger (s : Setup) (resource : Resource) :
    (s.release resource).ledger = s.ledger ++ [.release resource] := rfl

@[simp] theorem Setup.take_ledger (s : Setup) (resource : Resource) :
    (s.take resource).ledger = s.ledger ++ [.acquire resource] := rfl

@[simp] theorem Setup.safeFree_ledger (s : Setup) (present : Bool) (resource : Resource) :
    (s.safeFree present resource).ledger =
      s.ledger ++ if present then [.release resource] else [] := by
  cases present <;> simp [Setup.safeFree]

@[simp] theorem Platform.acquire_ledger (env : Platform) (s : Setup) (resource : Resource) :
    (env.acquire s resource).2.ledger =
      s.ledger ++ if env.calloc s.callocs then [.acquire resource] else [] := by
  cases block : env.calloc s.callocs <;> simp [Platform.acquire, block]

/-! ### Setup without TLS

Dialling takes a socket and the two blocks, whatever its result. -/

section Setup

variable (env : Platform) (classify : Option Bytes → Ipv4Check)

/-- Connecting takes nothing. -/
theorem connectLoop_ledger (list : List AddrInfo) (ret : Int) (s : Setup) :
    (connectLoop env list ret s).2.ledger = s.ledger := by
  induction list generalizing ret s with
  | nil => rfl
  | cons cur next ih =>
      unfold connectLoop
      by_cases inet : cur.family = .inet
      · rw [if_pos inet]
        by_cases works : (env.connectTo s cur.addr).1 = 0
        · simp only [works, if_true]
          rfl
        · simp only [works, if_false]
          exact ih _ _
      · rw [if_neg inet]
        exact ih _ _

theorem dial_ledger (host port : Bytes) (s : Setup) :
    (dial env classify host port s).2.ledger = s.ledger := by
  unfold dial
  dsimp only
  split
  · unfold dialAddress
    generalize htons _ = sinPort
    cases inetPton4 (cstr (classify (some host)).addr) with
    | none => rfl
    | some octets =>
        dsimp only
        split <;> rfl
  · unfold dialName
    dsimp only
    split
    · rfl
    · exact connectLoop_ledger env _ _ s

/-- `httpc_parse_uri` keeps the descriptor. -/
theorem httpcParseUri_socket (httpc : Httpc) (uri : Option Bytes) (port : Bytes) (s : Setup) :
    (httpcParseUri env classify httpc uri port s).httpc.socket = httpc.socket := by
  unfold httpcParseUri
  dsimp only
  repeat' split
  all_goals rfl

/-- What `httpc_parse_uri` takes it keeps when it succeeds, and gives back when it fails. -/
theorem httpcParseUri_ledger {httpc : Httpc} (noHost : httpc.host = none)
    (noPath : httpc.path = none) (uri : Option Bytes) (port : Bytes) (s : Setup) :
    ∃ made, (httpcParseUri env classify httpc uri port s).setup.ledger = s.ledger ++ made ∧
      (((httpcParseUri env classify httpc uri port s).ret = httpcErrOk ∧
          made = [.acquire .host, .acquire .path]) ∨
        ((httpcParseUri env classify httpc uri port s).ret < httpcErrOk ∧
          ∀ held, .host ∉ held → .path ∉ held → Neutral held (made.map LedgerEntry.event))) := by
  cases uri with
  | none =>
      refine ⟨[], ?_, .inr ⟨by simp [httpcParseUri, parseExit], fun held _ _ => rfl⟩⟩
      simp [httpcParseUri, parseExit, noHost, noPath]
  | some uri =>
      rcases scheme : uriScheme (cstr uri) with _ | ⟨tls, hostPtr⟩
      · refine ⟨[], ?_, .inr ⟨by simp [httpcParseUri, parseExit, scheme], fun held _ _ => rfl⟩⟩
        simp [httpcParseUri, parseExit, scheme, noHost, noPath]
      · cases hostBlock : env.calloc s.callocs with
        | false =>
            refine ⟨[], ?_, .inr ⟨?_, fun held _ _ => rfl⟩⟩
            · simp [httpcParseUri, parseExit, scheme, hostBlock, noPath]
            · simp [httpcParseUri, parseExit, scheme, hostBlock]
        | true =>
            -- From here on the host is held, and every exit has to give it back.
            cases pathBlock : env.calloc (s.callocs + 1) with
            | false =>
                refine ⟨[.acquire .host, .release .host], ?_, .inr ⟨?_, ?_⟩⟩
                · simp [httpcParseUri, parseExit, scheme, hostBlock, pathBlock]
                · simp [httpcParseUri, parseExit, scheme, hostBlock, pathBlock]
                · intro held noHostHeld _
                  simp [Neutral, LedgerEntry.event, replay, noHostHeld]
            | true =>
                have taken : (blocksTaken env s).ledger =
                    s.ledger ++ [.acquire .host, .acquire .path] := by
                  simp [blocksTaken, hostBlock, pathBlock]
                have dials := httpcParseUri_dials env classify httpc port
                  (show schemeOf (some uri) = some (tls, hostPtr) from scheme) hostBlock pathBlock
                have same := dial_ledger env classify (uriHost hostPtr) port (blocksTaken env s)
                rw [dials]
                -- Both blocks are held. They are kept by a connection, and given back otherwise.
                rcases dial_ret env classify (uriHost hostPtr) port (blocksTaken env s) with
                  done | fails
                · refine ⟨[.acquire .host, .acquire .path], ?_, .inl ⟨?_, rfl⟩⟩
                  · simp [done, same, taken]
                  · simp [done]
                · have noSuccess :
                      ¬ (dial env classify (uriHost hostPtr) port (blocksTaken env s)).1 = 0 :=
                    fails.ne
                  refine ⟨[.acquire .host, .acquire .path, .release .path, .release .host], ?_,
                    .inr ⟨?_, ?_⟩⟩
                  · simp [parseExit, noSuccess, same, taken]
                  · simpa [parseExit, noSuccess] using fails
                  · intro held noHostHeld noPathHeld
                    simp [Neutral, LedgerEntry.event, replay, noHostHeld, noPathHeld]

end Setup

/-! ### TLS

The context is taken first. In front of the handshake a failure gives it back, and closes nothing
else. -/

section Tls

variable {env : Platform} {sslInfo : Option HttpcTlsInfo}

@[simp] theorem tlsParse_ledger (fn : MbedtlsFn) (text : Option Bytes) (s : Setup) :
    (tlsParse env fn text s).2.ledger = s.ledger := by
  cases text <;> rfl

/-- The calls that configure the context take nothing. -/
@[simp] theorem tlsConfigure_ledger (s : Setup) : (tlsConfigure env s).ledger = s.ledger := by
  rw [tlsConfigure]
  rfl

/-- Where the handshake is called, the context is all that was taken. -/
theorem beforeHandshake_ledger {s : Setup} (block : env.calloc s.callocs = true) :
    (beforeHandshake env sslInfo s).ledger = s.ledger ++ [.acquire .mbedtlsCtx] := by
  simp [beforeHandshake, block]

/-- In front of the handshake `httpc_tls_init` gives its context back. -/
theorem httpcTlsInit_early_ledger (httpc : Httpc) {s : Setup}
    (early : ¬ ReachesHandshake env sslInfo s.callocs) :
    ∃ made, (httpcTlsInit env httpc sslInfo s).setup.ledger = s.ledger ++ made ∧
      (made = [] ∨ made = [.acquire .mbedtlsCtx, .release .mbedtlsCtx]) := by
  cases block : env.calloc s.callocs with
  | false =>
      refine ⟨[], ?_, .inl rfl⟩
      simp [httpcTlsInit, block, tlsExit, httpcTlsDeinit]
  | true =>
      refine ⟨[.acquire .mbedtlsCtx, .release .mbedtlsCtx], ?_, .inr rfl⟩
      simp only [httpcTlsInit, Platform.acquire_ok, block, Bool.true_eq_false, if_false]
      by_cases crt : (tlsParse env .x509CrtParseCert (sslInfo.bind (·.cert))
          (tlsConfigure env (env.acquire s .mbedtlsCtx).2)).1 = 0
      · rw [if_neg (not_not.mpr crt)]
        by_cases pk : (tlsParse env .x509CrtParsePk (sslInfo.bind (·.pk))
            (tlsParse env .x509CrtParseCert (sslInfo.bind (·.cert))
              (tlsConfigure env (env.acquire s .mbedtlsCtx).2)).2).1 = 0
        · refine absurd ⟨block, ?_⟩ early
          intro fn called
          rcases List.mem_append.mp called with inCert | inPk
          · exact (tlsParse_ret env _ _ _).mp crt fn inCert
          · exact (tlsParse_ret env _ _ _).mp pk fn inPk
        · rw [if_pos pk]
          simp [tlsExit, httpcTlsDeinit, block]
      · rw [if_pos crt]
        simp [tlsExit, httpcTlsDeinit, block]

/-- `httpc_tls_init` keeps the descriptor. -/
theorem httpcTlsInit_socket (httpc : Httpc) {s : Setup} :
    (httpcTlsInit env httpc sslInfo s).httpc.socket = httpc.socket := by
  unfold httpcTlsInit
  dsimp only
  repeat' split
  all_goals rfl

/-- A handshake that succeeds leaves the context taken. -/
theorem httpcTlsInit_done_ledger (httpc : Httpc) {s : Setup}
    (reaches : ReachesHandshake env sslInfo s.callocs) (works : env.mbedtls .sslHandshake = 0) :
    (httpcTlsInit env httpc sslInfo s).setup.ledger = s.ledger ++ [.acquire .mbedtlsCtx] := by
  rw [httpcTlsInit_done httpc reaches works]
  exact beforeHandshake_ledger reaches.1

/-- The text that explains a verify result is given back at once. -/
theorem tlsReport_ledger (env : Platform) (ret : Int) (s : Setup) :
    ∃ report, (tlsReport env ret s).ledger = s.ledger ++ report ∧
      (report = [] ∨ report = [.acquire .verifyText, .release .verifyText]) := by
  unfold tlsReport
  by_cases nothing : ret = 0
  · exact ⟨[], by simp [nothing], .inl rfl⟩
  · rw [if_pos nothing]
    cases block : env.calloc s.callocs with
    | false => exact ⟨[], by simp [block], .inl rfl⟩
    | true => exact ⟨_, by simp [block], .inr rfl⟩

/-- After a handshake that fails the context is given back, and the descriptor is closed with it. -/
theorem httpcTlsInit_verify_ledger {httpc : Httpc} {s : Setup} (valid : 0 ≤ httpc.socket)
    (reaches : ReachesHandshake env sslInfo s.callocs) (fails : env.mbedtls .sslHandshake ≠ 0) :
    ∃ report, (httpcTlsInit env httpc sslInfo s).setup.ledger =
        s.ledger ++ (.acquire .mbedtlsCtx :: report) ++
          [.release (.descriptor httpc.socket), .release .mbedtlsCtx] ∧
      (report = [] ∨ report = [.acquire .verifyText, .release .verifyText]) := by
  have fd : httpc.socket ≠ -1 := by omega
  rw [httpcTlsInit_reaches httpc reaches]
  simp only [tlsCall_ret, fails, if_false, tlsExit, httpcTlsDeinit, fd]
  generalize called : (env.tlsCall (env.tlsCall (beforeHandshake env sslInfo s) .sslHandshake).2
    .sslGetVerifyResult).2 = before
  have ledger : before.ledger = s.ledger ++ [.acquire .mbedtlsCtx] := by
    rw [← called, ← beforeHandshake_ledger reaches.1]
    rfl
  obtain ⟨report, same, entries⟩ := tlsReport_ledger env (env.mbedtls .sslGetVerifyResult) before
  exact ⟨report, by simp [same, ledger], entries⟩

/-- No failure of `httpc_tls_init` gives the host back. -/
theorem httpcTlsInit_keeps_host {httpc : Httpc} {s : Setup} (valid : 0 ≤ httpc.socket)
    (fails : (httpcTlsInit env httpc sslInfo s).ret ≠ 0) :
    ∃ made, (httpcTlsInit env httpc sslInfo s).setup.ledger = s.ledger ++ made ∧
      .release .host ∉ made := by
  by_cases reaches : ReachesHandshake env sslInfo s.callocs
  · have handshake : env.mbedtls .sslHandshake ≠ 0 := by
      intro works
      rw [httpcTlsInit_done httpc reaches works] at fails
      exact fails rfl
    obtain ⟨report, ledger, entries⟩ := httpcTlsInit_verify_ledger valid reaches handshake
    rw [List.append_assoc] at ledger
    refine ⟨_, ledger, ?_⟩
    rcases entries with rfl | rfl <;> simp
  · obtain ⟨made, ledger, entries⟩ := httpcTlsInit_early_ledger httpc reaches
    refine ⟨made, ledger, ?_⟩
    rcases entries with rfl | rfl <;> simp

end Tls

/-! ### The calls in between

No call between setup and the end takes or gives back a block of the client. -/

/-- A run of calls keeps the blocks and the descriptor of its client. -/
theorem calls_sameBlocks (net : Transport) (s : Session) (calls : List ApiCall) :
    SameBlocks s.httpc (exec (Session.step net) s calls).httpc := by
  apply invariant_exec (fun now : Session => SameBlocks s.httpc now.httpc)
  · intro now call same
    exact same.trans (step_sameBlocks net now call)
  · exact .refl s.httpc

/-! ### The whole life of a client

From `httpc_init` to `httpc_deinit`, by the step setup ends with. Once `httpc_tls_init` is reached
the balance fails: a descriptor is closed twice, or host and path are left behind. -/

variable (env : Platform) (sslInfo : Option HttpcTlsInfo) (classify : Option Bytes → Ipv4Check)
  (node : Option HttpcMemNode)

/-- When NULL was returned, everything that was taken from `s` on was given back once; when a client
was, everything was after any calls with the client and `httpc_deinit`. -/
def Released (opened : InitResult) (s : Setup) : Prop :=
  match opened.httpc with
  | none => Settled (opened.setup.ledgerSince s)
  | some client => ∀ net w calls,
      let last := (exec (Session.step net) { httpc := client, world := w } calls).httpc
      Settled ((httpcDeinit (some last) opened.setup).ledgerSince s)

/-- What `httpc_init` takes is released. -/
def InitReleases (uri : Option Bytes) (port : Bytes) (s : Setup) : Prop :=
  Released (httpcInit env classify uri port node sslInfo s) s

/-- What `httpc_init` takes first. -/
theorem initOpened_ledger {s : Setup} (block : env.calloc s.callocs = true) :
    (initOpened env s).ledger =
      s.ledger ++ [.acquire .httpc, .acquire (.descriptor env.socket)] := by
  simp [initOpened, block]

/-- What `httpc_deinit` gives back of a client without TLS. -/
theorem httpcDeinit_plain {client last : Httpc} (same : SameBlocks client last)
    (noTls : client.enableMbedtls = false) (host : client.host.isSome) (path : client.path.isSome)
    (s : Setup) :
    (httpcDeinit (some last) s).ledger =
      s.ledger ++ [.release (.descriptor client.socket), .release .path, .release .host,
        .release .httpc] := by
  have off : last.enableMbedtls = false := same.enableMbedtls.trans noTls
  simp [httpcDeinit, off, same.socket, same.host, same.path, host, path]

/-- What has been taken when `httpc_parse_uri` has succeeded. -/
def setupTaken : List LedgerEntry :=
  [.acquire .httpc, .acquire (.descriptor env.socket), .acquire .host, .acquire .path]

/-- The ledger behind `httpc_parse_uri`. -/
theorem initParsed_ledger (uri : Option Bytes) (port : Bytes) {s : Setup}
    (block : env.calloc s.callocs = true) :
    ∃ made, (initParsed env classify uri port s).setup.ledger =
        s.ledger ++ ([.acquire .httpc, .acquire (.descriptor env.socket)] ++ made) ∧
      (((initParsed env classify uri port s).ret = httpcErrOk ∧
          made = [.acquire .host, .acquire .path]) ∨
        ((initParsed env classify uri port s).ret < httpcErrOk ∧
          ∀ held, .host ∉ held → .path ∉ held → Neutral held (made.map LedgerEntry.event))) := by
  obtain ⟨made, ledger, outcome⟩ := httpcParseUri_ledger env classify
    (show (Httpc.plain env.socket).host = none from rfl) rfl uri port (initOpened env s)
  refine ⟨made, ?_, outcome⟩
  rw [initParsed, ledger, initOpened_ledger env block, List.append_assoc]

/-- What the `parse_fail` of `httpc_init` gives back. -/
theorem initFail_ledger {failed : SetupOutcome} (valid : 0 ≤ failed.httpc.socket) :
    (initFail failed).setup.ledger =
      failed.setup.ledger ++ [.release (.descriptor failed.httpc.socket), .release .httpc] := by
  simp [initFail, valid]

/-- What `httpc_deinit` gives back of the client itself. -/
def ownReleases (httpc : Httpc) : List LedgerEntry :=
  .release (.descriptor httpc.socket) :: ((if httpc.path.isSome then [.release .path] else []) ++
    (if httpc.host.isSome then [.release .host] else []) ++ [.release .httpc])

/-- What `httpc_deinit` gives back of a client with TLS. -/
theorem httpcDeinit_tls {httpc : Httpc} (withTls : httpc.enableMbedtls = true) (s : Setup) :
    (httpcDeinit (some httpc) s).ledger =
      (httpcTlsDeinit httpc s).2.ledger ++ ownReleases httpc := by
  have same : (httpcTlsDeinit httpc s).1.socket = httpc.socket ∧
      (httpcTlsDeinit httpc s).1.path = httpc.path ∧
      (httpcTlsDeinit httpc s).1.host = httpc.host := by
    unfold httpcTlsDeinit
    cases httpc.mbedtlsCtx <;> exact ⟨rfl, rfl, rfl⟩
  simp [httpcDeinit, withTls, same, ownReleases]

/-- The descriptor is closed once there. -/
theorem count_ownReleases (httpc : Httpc) :
    ((ownReleases httpc).map LedgerEntry.event).count (.release (.descriptor httpc.socket)) = 1 ∧
      ((ownReleases httpc).map LedgerEntry.event).count (.acquire (.descriptor httpc.socket)) =
        0 := by
  unfold ownReleases
  cases httpc.path.isSome <;> cases httpc.host.isSome <;> simp [LedgerEntry.event]

/-- After a `httpc_tls_init` that fails, host and path stay behind. -/
theorem not_released_of_tls_fails {parsed : SetupOutcome} {s : Setup}
    (valid : 0 ≤ parsed.httpc.socket)
    (taken : parsed.setup.ledger = s.ledger ++ setupTaken env)
    (fails : (httpcTlsInit env parsed.httpc sslInfo parsed.setup).ret ≠ 0) :
    ¬ Released (initFail (httpcTlsInit env parsed.httpc sslInfo parsed.setup)) s := by
  obtain ⟨made, ledger, noHost⟩ := httpcTlsInit_keeps_host valid fails
  have open' : 0 ≤ (httpcTlsInit env parsed.httpc sslInfo parsed.setup).httpc.socket := by
    rwa [httpcTlsInit_socket]
  have since := initFail_ledger open'
  rw [ledger, taken, List.append_assoc, List.append_assoc] at since
  intro settled
  have balance := Settled.count_release settled .host
  rw [Setup.ledgerSince_eq since] at balance
  have unreleased : (made.map LedgerEntry.event).count (.release .host) = 0 := by
    apply List.count_eq_zero.mpr
    intro member
    obtain ⟨entry, inMade, same⟩ := List.mem_map.mp member
    cases entry with
    | acquire resource => cases same
    | release resource =>
        cases same
        exact noHost inMade
  simp [setupTaken, LedgerEntry.event, unreleased] at balance

/-- A descriptor that is closed in front of `httpc_deinit`, or by the TLS context in it, is closed
twice. -/
theorem not_settled_of_closed {httpc : Httpc} {closed : List LedgerEntry} {fd : Int}
    (socket : httpc.socket = fd)
    (once : (closed.map LedgerEntry.event).count (.acquire (.descriptor fd)) ≤
      (closed.map LedgerEntry.event).count (.release (.descriptor fd))) :
    ¬ Settled ((closed ++ ownReleases httpc).map LedgerEntry.event) := by
  intro settled
  have balance := settled.count_release (.descriptor fd)
  obtain ⟨released, acquired⟩ := count_ownReleases httpc
  rw [socket] at released acquired
  rw [List.map_append, List.count_append, List.count_append, released, acquired] at balance
  omega

/-- After one that succeeds, the descriptor is closed twice. -/
theorem not_released_of_tls_succeeds {parsed : SetupOutcome} {s : Setup}
    (valid : 0 ≤ parsed.httpc.socket) (withTls : parsed.httpc.enableMbedtls = true)
    (socket : parsed.httpc.socket = env.socket)
    (taken : parsed.setup.ledger = s.ledger ++ setupTaken env)
    (succeeds : (httpcTlsInit env parsed.httpc sslInfo parsed.setup).ret = 0) :
    ¬ Released
      { httpc :=
          some
            { (httpcTlsInit env parsed.httpc sslInfo parsed.setup).httpc with
              headerNode := node }
        setup := (httpcTlsInit env parsed.httpc sslInfo parsed.setup).setup } s := by
  have reaches : ReachesHandshake env sslInfo parsed.setup.callocs := by
    by_contra early
    exact httpcTlsInit_early parsed.httpc early succeeds
  have fd : parsed.httpc.socket ≠ -1 := by omega
  rw [setupTaken, ← socket] at taken
  intro released
  have settled := released .prompt (.opened []) []
  rw [exec_nil] at settled
  by_cases works : env.mbedtls .sslHandshake = 0
  · -- by the context and by the client
    have ledger := httpcTlsInit_done_ledger parsed.httpc reaches works
    rw [congrArg SetupOutcome.httpc (httpcTlsInit_done parsed.httpc reaches works)] at settled
    generalize (httpcTlsInit env parsed.httpc sslInfo parsed.setup).setup = setup at ledger settled
    have since := httpcDeinit_tls
      (show ({ parsed.httpc with
        mbedtlsCtx := some { netFd := parsed.httpc.socket, handshakeDone := true }
        headerNode := node } : Httpc).enableMbedtls = true from withTls) setup
    simp only [httpcTlsDeinit, if_neg fd, Setup.release_ledger, ledger, taken,
      List.append_assoc] at since
    have closed := (congrArg Settled (Setup.ledgerSince_eq since)).mp settled
    simp only [← List.append_assoc] at closed
    refine not_settled_of_closed rfl ?_ closed
    simp [LedgerEntry.event]
  · -- by the failed `httpc_tls_init` and by the client
    obtain ⟨report, ledger, entries⟩ := httpcTlsInit_verify_ledger valid reaches works
    rw [(httpcTlsInit_verify parsed.httpc reaches works).2.1] at settled
    generalize (httpcTlsInit env parsed.httpc sslInfo parsed.setup).setup = setup at ledger settled
    have since := httpcDeinit_tls
      (show ({ parsed.httpc with mbedtlsCtx := none, headerNode := node } : Httpc).enableMbedtls =
        true from withTls) setup
    simp only [httpcTlsDeinit, ledger, taken, List.append_assoc] at since
    have closed := (congrArg Settled (Setup.ledgerSince_eq since)).mp settled
    simp only [← List.append_assoc] at closed
    refine not_settled_of_closed rfl ?_ closed
    rcases entries with rfl | rfl <;> simp [LedgerEntry.event]

/-- A client that got as far as `httpc_tls_init` is not released. -/
theorem not_releases_of_tls {uri : Option Bytes} {port : Bytes} {s : Setup}
    (reaches : ReachesTls env classify uri port s) :
    ¬ InitReleases env sslInfo classify node uri port s := by
  obtain ⟨socket, withTls⟩ := initParsed_client env classify reaches
  have taken : (initParsed env classify uri port s).setup.ledger = s.ledger ++ setupTaken env := by
    obtain ⟨made, parsed, outcome⟩ := initParsed_ledger env classify uri port reaches.2.1
    rcases outcome with ⟨-, rfl⟩ | ⟨fails, -⟩
    · exact parsed
    · exact absurd reaches.2.2.2 fails.ne
  have valid : 0 ≤ (initParsed env classify uri port s).httpc.socket := by
    rw [socket]
    exact reaches.2.2.1
  rw [InitReleases, httpcInit_reaches env sslInfo classify node reaches]
  dsimp only
  split
  · rename_i fails
    exact not_released_of_tls_fails env sslInfo valid taken fails
  · rename_i succeeds
    exact not_released_of_tls_succeeds env sslInfo node valid withTls socket taken
      (not_not.mp succeeds)

/-- A client without TLS is released. -/
theorem released_of_plain {parsed : SetupOutcome} {s : Setup}
    (noTls : parsed.httpc.enableMbedtls = false) (host : parsed.httpc.host.isSome)
    (path : parsed.httpc.path.isSome) (socket : parsed.httpc.socket = env.socket)
    (taken : parsed.setup.ledger = s.ledger ++ setupTaken env) :
    Released
      { httpc := some { parsed.httpc with headerNode := node }, setup := parsed.setup } s := by
  intro net w calls
  dsimp only
  have same := calls_sameBlocks net
    { httpc := { parsed.httpc with headerNode := node }, world := w } calls
  have since := httpcDeinit_plain same noTls host path parsed.setup
  rw [taken, List.append_assoc] at since
  rw [Setup.ledgerSince_eq since]
  simp [Settled, setupTaken, LedgerEntry.event, replay, socket]

/-- A `httpc_parse_uri` that fails is released. -/
theorem released_of_parse_fails {uri : Option Bytes} {port : Bytes} {s : Setup}
    (block : env.calloc s.callocs = true) (valid : 0 ≤ env.socket)
    (fails : (initParsed env classify uri port s).ret < httpcErrOk) :
    Released (initFail (initParsed env classify uri port s)) s := by
  obtain ⟨made, ledger, outcome⟩ := initParsed_ledger env classify uri port block
  have neutral := (outcome.resolve_left fun done => fails.ne done.1).2
  have socket : (initParsed env classify uri port s).httpc.socket = env.socket :=
    httpcParseUri_socket env classify (Httpc.plain env.socket) uri port (initOpened env s)
  have since := initFail_ledger (socket.symm ▸ valid)
  rw [ledger, List.append_assoc, List.append_assoc, socket] at since
  show Settled _
  rw [Setup.ledgerSince_eq since, List.map_append, List.map_append]
  apply Settled.of_neutral rfl (neutral _ ?_ ?_)
  · simp [replay, LedgerEntry.event]
  · simp
  · simp

/-- `httpc_init` in front of `httpc_tls_init`. -/
theorem httpcInit_before_tls {uri : Option Bytes} {port : Bytes} {s : Setup}
    (block : env.calloc s.callocs = true) (valid : 0 ≤ env.socket)
    (before : (initParsed env classify uri port s).ret < httpcErrOk ∨
      (initParsed env classify uri port s).httpc.enableMbedtls = false) :
    httpcInit env classify uri port node sslInfo s =
      let parsed := initParsed env classify uri port s
      if parsed.ret < httpcErrOk then initFail parsed
      else { httpc := some { parsed.httpc with headerNode := node }, setup := parsed.setup } := by
  simp only [httpcInit, block, Bool.true_eq_false, if_false, not_lt.mpr valid]
  rcases before with fails | noTls
  · rw [if_pos fails, if_pos fails]
  · simp only [noTls, Bool.false_eq_true, if_false]

/-- In front of `httpc_tls_init` everything is released. -/
theorem releases_of_no_tls {uri : Option Bytes} {port : Bytes} {s : Setup}
    (noTls : ¬ ReachesTls env classify uri port s) :
    InitReleases env sslInfo classify node uri port s := by
  unfold InitReleases
  cases block : env.calloc s.callocs with
  | false =>
      have since : (env.acquire s .httpc).2.ledger = s.ledger ++ [] := by simp [block]
      rw [httpcInit, if_pos block]
      show Settled _
      rw [Setup.ledgerSince_eq since]
      rfl
  | true =>
      by_cases invalid : env.socket < 0
      · have since : ((env.acquire s .httpc).2.release .httpc).ledger =
            s.ledger ++ [.acquire .httpc, .release .httpc] := by simp [block]
        rw [httpcInit, if_neg (by simp [block]), if_pos invalid]
        show Settled _
        rw [Setup.ledgerSince_eq since]
        decide
      · have valid := not_lt.mp invalid
        -- Up to here nothing but the client was taken. Now `httpc_parse_uri` decides.
        rcases httpcParseUri_ret env classify (Httpc.plain env.socket) uri port (initOpened env s)
          with done | fails
        · have done : (initParsed env classify uri port s).ret = httpcErrOk := done
          obtain ⟨tls, hostPtr, scheme, client⟩ := httpcParseUri_client env classify done
          have parsed : (initParsed env classify uri port s).httpc = _ := client
          have isPlain : tls = false := by
            by_contra on
            rw [Bool.not_eq_false] at on
            exact noTls ⟨tlsUri_of_scheme (on ▸ scheme), block, valid, done⟩
          subst isPlain
          have off : (initParsed env classify uri port s).httpc.enableMbedtls = false := by
            rw [parsed]
          obtain ⟨made, ledger, outcome⟩ := initParsed_ledger env classify uri port block
          have all := (outcome.resolve_right fun fails => fails.1.ne done).2
          rw [all] at ledger
          rw [httpcInit_before_tls env sslInfo classify node block valid (.inr off)]
          dsimp only
          rw [if_neg (not_lt.mpr done.ge)]
          exact released_of_plain env node off (by rw [parsed]; rfl) (by rw [parsed]; rfl)
            (by rw [parsed]; rfl) ledger
        · have fails : (initParsed env classify uri port s).ret < httpcErrOk := fails
          rw [httpcInit_before_tls env sslInfo classify node block valid (.inl fails)]
          dsimp only
          rw [if_pos fails]
          exact released_of_parse_fails env classify block valid fails

/-- Whatever the allocations, the socket, the resolver, the connect calls and the TLS library answer
and whatever is called in between: everything `httpc_init` took is given back exactly once, by
itself when it returns NULL and by `httpc_deinit` when it returns a client, if and only if setup
does not get as far as `httpc_tls_init`. -/
theorem init_releases_iff (uri : Option Bytes) (port : Bytes) (s : Setup) :
    InitReleases env sslInfo classify node uri port s ↔ ¬ ReachesTls env classify uri port s :=
  ⟨fun releases reaches => not_releases_of_tls env sslInfo classify node reaches releases,
    releases_of_no_tls env sslInfo classify node⟩

/-- A server with which the handshake succeeds. -/
def trustedServer : Platform :=
  { silentServer with mbedtls := fun _ => 0 }

/-- The client that is set up with it. -/
def trustedInit : InitResult :=
  httpcInit trustedServer httpcIpv4AddressCheck silentUri (ascii "443") (some smallNode) none
    Setup.fresh

/-- The descriptor of that client is taken once, and `httpc_deinit` closes it twice. -/
theorem tls_descriptor_closed_twice :
    ¬ InitReleases trustedServer none httpcIpv4AddressCheck (some smallNode) silentUri (ascii "443")
        Setup.fresh ∧
      ∃ client ∈ trustedInit.httpc,
        let ledger := (httpcDeinit (some client) trustedInit.setup).ledgerSince Setup.fresh
        ledger.count (.acquire (.descriptor 3)) = 1 ∧
          ledger.count (.release (.descriptor 3)) = 2 := by
  have twice : ∃ client ∈ trustedInit.httpc,
      let ledger := (httpcDeinit (some client) trustedInit.setup).ledgerSince Setup.fresh
      ledger.count (.acquire (.descriptor 3)) = 1 ∧
        ledger.count (.release (.descriptor 3)) = 2 := by decide +kernel
  refine ⟨fun releases => ?_, twice⟩
  obtain ⟨client, returned, acquired, released⟩ := twice
  have releases : Released trustedInit Setup.fresh := releases
  rw [Released, Option.mem_def.mp returned] at releases
  have balance := (releases .prompt (.opened []) []).count_release (.descriptor 3)
  rw [exec_nil, released, acquired] at balance
  cases balance

end Hfc
