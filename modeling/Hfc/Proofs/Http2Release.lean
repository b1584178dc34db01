/-
Module: Hfc.Proofs.Http2Release
Layer: Proofs
Purpose: Whether the setup and the end of an HTTP/2 client give back what they took. Every outcome
  of `httpc2_init` does but one kind: what fails behind the creation of the session has the block
  freed by `httpc2_deinit` and once more behind it.
Imports: Hfc.Core.Http2Setup, Hfc.Proofs.TlsSetup
Main exports: Http2Setup.ledgerSince, Http2InitReleases, FailsBehindSession, http2_init_releases_iff
-/
import Hfc.Core.Http2Setup
import Hfc.Proofs.TlsSetup

namespace Hfc

open ByteText EventRun Ledger

variable {Read Write : Type}

/-- What was taken and given back from `s` on. -/
def Http2Setup.ledgerSince (after s : Http2Setup) : List (Event Http2Resource) :=
  after.ledger.drop s.ledger.length

/-- When NULL was returned, everything that was taken from `s` on was given back once; when a client
was, everything was after any requests and `httpc2_deinit`. -/
def Http2Released (Read : Type) (opened : Http2InitResult Write) (s : Http2Setup) : Prop :=
  match opened.httpc2 with
  | none => Settled (opened.setup.ledgerSince s)
  | some client => ∀ events : List (Http2Event Read Write),
      let last := { client with toHttpc2 := exec http2Step client.toHttpc2 events }
      Settled ((httpc2Deinit (some last) opened.setup).ledgerSince s)

variable (Write) (env : Http2Platform) (classify : Option Bytes → Ipv4Check)
  (sslInfo : Option HttpcTlsInfo)

/-- What `httpc2_init` takes is released. -/
def Http2InitReleases (Read : Type) (uri port : Option Bytes) (s : Http2Setup) : Prop :=
  Http2Released Read (httpc2Init env classify uri port sslInfo s : Http2InitResult Write) s

/-- What has been done in the setup of the inner client when it starts. -/
def innerStart (s : Setup) : Setup :=
  { s with callocs := s.callocs + 1 }

/-- The session is there, and then the setup of the inner client or one of the calls that make its
descriptor non-blocking fails. -/
def FailsBehindSession (uri port : Option Bytes) (s : Http2Setup) : Prop :=
  ∃ uriText ∈ uri, ∃ portText ∈ port, env.calloc s.setup.callocs = true ∧
    env.sessionClientNew = 0 ∧
    ∀ inner ∈ (httpcInit env.toPlatform classify (some uriText) portText none sslInfo
        (innerStart s.setup)).httpc,
      env.fcntlGetfl inner.socket = -1 ∨
        env.fcntlSetfl inner.socket (env.fcntlGetfl inner.socket) = -1

/-! ### The ledger

What `httpc2_init` takes and gives back, by the step that fails, and what `httpc2_deinit` gives back
afterwards. -/

@[simp] theorem Http2Setup.note_ledger (s : Http2Setup) (event : Event Http2Resource) :
    (s.note event).ledger = s.ledger ++ [event] := rfl

theorem Http2Setup.ledgerSince_eq {after s : Http2Setup} {made : List (Event Http2Resource)}
    (appended : after.ledger = s.ledger ++ made) : after.ledgerSince s = made := by
  rw [Http2Setup.ledgerSince, appended, List.drop_left]

variable {Write}

/-- What `httpc2_deinit` gives back of a client. -/
def deinitReleases (client : Httpc2Block Write) : List (Event Http2Resource) :=
  (if client.session then [.release .session] else []) ++
    (if client.httpc.isSome then [.release .inner] else []) ++ [.release .httpc2]

theorem httpc2Deinit_ledger (client : Httpc2Block Write) (s : Http2Setup) :
    (httpc2Deinit (some client) s).ledger = s.ledger ++ deinitReleases client := by
  unfold httpc2Deinit deinitReleases
  cases session : client.session <;> cases inner : client.httpc.isSome <;>
    simp [session, inner]

/-- A failure behind the session has the block freed twice. -/
theorem not_released_of_initFail {client : Httpc2Block Write} {s after : Http2Setup}
    {made : List (Event Http2Resource)} (ledger : after.ledger = s.ledger ++ made)
    (once : made.count (.acquire .httpc2) = 1) :
    ¬ Http2Released Read (httpc2InitFail client after) s := by
  have since : (httpc2InitFail client after).setup.ledger =
      s.ledger ++ (made ++ deinitReleases client ++ [.release .httpc2]) := by
    simp [httpc2InitFail, httpc2MallocFail, httpc2Deinit_ledger, ledger]
  intro released
  have settled : Settled ((httpc2InitFail client after).setup.ledgerSince s) := released
  have balance := settled.count_release .httpc2
  rw [Http2Setup.ledgerSince_eq since] at balance
  have twice : (deinitReleases client).count (.release .httpc2) = 1 ∧
      (deinitReleases client).count (.acquire .httpc2) = 0 := by
    unfold deinitReleases
    cases client.session <;> cases client.httpc.isSome <;> simp
  simp [List.count_append, twice, once] at balance

/-- Requests keep the inner client. -/
theorem requests_httpc (client : Httpc2 Write) (events : List (Http2Event Read Write)) :
    (exec http2Step client events).httpc = client.httpc := by
  apply invariant_exec (fun now : Httpc2 Write => now.httpc = client.httpc)
  · intro now event same
    rw [← same]
    cases event with
    | submit nva readCallback writeCallback answer => cases nva <;> rfl
    | data flags streamId chunk => rfl
    | close streamId => rfl
  · rfl

/-- `httpc2_init` from `httpc_init` on, with the block and the session taken. -/
theorem connect_released_iff (uri port : Bytes) {client : Httpc2Block Write}
    (session : client.session = true) {s after : Http2Setup}
    (ledger : after.ledger = s.ledger ++ [.acquire .httpc2, .acquire .session]) :
    Http2Released Read (httpc2Connect env classify uri port sslInfo client after) s ↔
      ∃ inner ∈ (httpcInit env.toPlatform classify (some uri) port none sslInfo after.setup).httpc,
        env.fcntlGetfl inner.socket ≠ -1 ∧
          env.fcntlSetfl inner.socket (env.fcntlGetfl inner.socket) ≠ -1 := by
  unfold httpc2Connect
  generalize httpcInit env.toPlatform classify (some uri) port none sslInfo after.setup = inner
  dsimp only
  cases returned : inner.httpc with
  -- Without a client the failure of `httpc2_init` frees the block twice, as after the two calls of
  -- fcntl below.
  | none =>
      have taken : ({ after with setup := inner.setup } : Http2Setup).ledger =
          s.ledger ++ [.acquire .httpc2, .acquire .session] := ledger
      apply iff_of_false
      · exact not_released_of_initFail taken (by simp)
      · simp
  | some httpc =>
      have taken : ({ after with setup := inner.setup }.note (.acquire .inner)).ledger =
          s.ledger ++ [.acquire .httpc2, .acquire .session, .acquire .inner] := by
        simp [ledger]
      generalize { after with setup := inner.setup }.note (.acquire .inner) = now at taken
      dsimp only
      simp only [Option.mem_def, Option.some.injEq, exists_eq_left']
      by_cases getfl : env.fcntlGetfl httpc.socket = -1
      · rw [if_pos getfl]
        apply iff_of_false
        · exact not_released_of_initFail taken (by simp)
        · simp [getfl]
      · rw [if_neg getfl]
        by_cases setfl : env.fcntlSetfl httpc.socket (env.fcntlGetfl httpc.socket) = -1
        · rw [if_pos setfl]
          apply iff_of_false
          · exact not_released_of_initFail taken (by simp)
          · simp [setfl]
        · rw [if_neg setfl]
          apply iff_of_true
          -- Requests in between change neither the session nor the client, so the end gives back
          -- what was taken.
          · intro events
            have kept := requests_httpc { client.toHttpc2 with httpc := some httpc } events
            dsimp only
            have since := httpc2Deinit_ledger
              { client with
                toHttpc2 := exec http2Step { client.toHttpc2 with httpc := some httpc } events } now
            rw [taken, List.append_assoc] at since
            refine (congrArg Settled (Http2Setup.ledgerSince_eq since)).mpr ?_
            simp [deinitReleases, session, kept, Settled, replay]
          · exact ⟨getfl, setfl⟩

/-- Whatever the allocations, the creation of the session, the setup of the inner client and the
calls of `fcntl` answer and whatever is requested in between: everything `httpc2_init` took is given
back exactly once, by itself when it returns NULL and by `httpc2_deinit` when it returns a client,
if and only if nothing fails behind the creation of the session. -/
theorem http2_init_releases_iff (uri port : Option Bytes) (s : Http2Setup) :
    Http2InitReleases Write env classify sslInfo Read uri port s ↔
      ¬ FailsBehindSession env classify sslInfo uri port s := by
  by_cases given : uri.isSome ∧ port.isSome
  · obtain ⟨uriText, rfl⟩ := Option.isSome_iff_exists.mp given.1
    obtain ⟨portText, rfl⟩ := Option.isSome_iff_exists.mp given.2
    simp only [Http2InitReleases, httpc2Init, FailsBehindSession, Option.mem_def,
      Option.some.injEq, exists_eq_left']
    cases block : env.calloc s.setup.callocs with
    | false =>
        have since : ({ s with setup := innerStart s.setup } : Http2Setup).ledger =
            s.ledger ++ [] := (List.append_nil s.ledger).symm
        refine iff_of_true ?_ (by simp)
        exact (congrArg Settled (Http2Setup.ledgerSince_eq since)).mpr rfl
    | true =>
        rw [if_neg (by decide)]
        by_cases made : env.sessionClientNew = 0
        · rw [if_neg (not_not.mpr made), connect_released_iff]
          · simp only [made, true_and, not_forall, not_or, exists_prop]
            rfl
          · rfl
          · simp
        · have since : ((({ s with setup := innerStart s.setup } : Http2Setup).note
              (.acquire .httpc2)).note (.release .httpc2)).ledger =
              s.ledger ++ [.acquire .httpc2, .release .httpc2] := by simp
          rw [if_pos made]
          refine iff_of_true ?_ (by simp [made])
          exact (congrArg Settled (Http2Setup.ledgerSince_eq since)).mpr rfl
  · refine iff_of_true ?_ ?_
    · have since : s.ledger = s.ledger ++ [] := (List.append_nil s.ledger).symm
      have settled := (congrArg Settled (Http2Setup.ledgerSince_eq since)).mpr rfl
      rcases uri with _ | uri
      · exact settled
      · rcases port with _ | port
        · exact settled
        · exact absurd ⟨rfl, rfl⟩ given
    · rintro ⟨uriText, isUri, portText, isPort, -⟩
      exact given ⟨Option.isSome_of_mem isUri, Option.isSome_of_mem isPort⟩

/-- A host on which a session can be made but no socket. -/
def deafHost : Http2Platform :=
  { silentServer with
    socket := -1
    sessionClientNew := 0
    fcntlGetfl := fun _ => 2
    fcntlSetfl := fun _ _ => 0 }

/-- There `httpc2_init` returns NULL and has freed its block twice. -/
theorem http2_block_freed_twice :
    ¬ Http2InitReleases Unit deafHost httpcIpv4AddressCheck none Unit silentUri (some (ascii "443"))
        Http2Setup.fresh ∧
      (httpc2Init deafHost httpcIpv4AddressCheck silentUri (some (ascii "443")) none
        Http2Setup.fresh : Http2InitResult Unit).setup.ledger =
          [.acquire .httpc2, .acquire .session, .release .session, .release .httpc2,
            .release .httpc2] := by
  refine ⟨fun released => ?_, by decide +kernel⟩
  have settled : Settled ((httpc2Init deafHost httpcIpv4AddressCheck silentUri
    (some (ascii "443")) none Http2Setup.fresh : Http2InitResult Unit).setup.ledgerSince
      Http2Setup.fresh) := released
  exact absurd settled (by decide +kernel)

end Hfc
