/-
Module: Hfc.Proofs.WouldBlock
Layer: Proofs
Purpose: What becomes of an operation that would block under HTTP/2. Both callbacks know it by the
  two results of the TLS library; the result of a plain socket is taken for a failure, and the
  session passes it on.
Imports: Hfc.Core.Http2Run, Hfc.Library.EventRun, Hfc.Proofs.LineReader
Main exports: Faithful, Manageable, sessionSendLoop_spec, sessionRecvLoop_spec, coreRun_spec,
  WouldBlock, Undisturbed, NonFatal, NoPlainBlock, would_block_not_fatal_iff
-/
import Hfc.Core.Http2Run
import Hfc.Library.EventRun
import Hfc.Proofs.LineReader

namespace Hfc

open ByteText Numeral EventRun

variable {Write σ : Type}

/-! ### Single operations

What the callbacks report for each result of the transport. Only the TLS codes become the error that
nghttp2 takes as a pause. -/

/-- An operation that failed was reported as both callbacks report errors. -/
def Faithful (op : TransportOp) : Prop :=
  op.result < 0 → op.reported = errorReport op.result

/-- An operation the callbacks know how to deal with: it moved some bytes, or the TLS library would
block. -/
def Manageable (op : TransportOp) : Prop :=
  0 < op.result ∨ op.result = mbedtlsErrSslWantRead ∨ op.result = mbedtlsErrSslWantWrite

theorem errorReport_want {ret : Int}
    (want : ret = mbedtlsErrSslWantRead ∨ ret = mbedtlsErrSslWantWrite) :
    ret < 0 ∧ errorReport ret = nghttp2ErrWouldblock := by
  refine ⟨?_, if_pos want⟩
  rcases want with rfl | rfl <;> decide

theorem errorReport_neg (ret : Int) : errorReport ret < 0 := by
  unfold errorReport
  split <;> decide

/-- A report that is not negative is a number of bytes. -/
theorem sendReport_nonneg {ret : Int} (nonneg : ¬ sendReport ret < 0) :
    0 < ret ∧ sendReport ret = ret := by
  unfold sendReport at nonneg ⊢
  split at nonneg
  · exact absurd (errorReport_neg ret) nonneg
  · rename_i positive
    exact ⟨not_le.mp positive, if_neg positive⟩

/-- The session reads as many bytes as the callback received. -/
theorem readlen_moved {ret : Int} (moved : 0 < ret) (bound : ret ≤ nghttp2InboundBufferLength) :
    readlenOf (recvReport ret) = ret := by
  have same : recvReport ret = ret := by
    rw [recvReport, if_neg (by omega), if_neg (by omega)]
  rw [readlenOf, same, if_pos moved, if_neg (by omega)]

/-- It reads nothing where the callback received nothing. -/
theorem readlen_nonpos {ret : Int} (nothing : ret ≤ 0) : readlenOf (recvReport ret) ≤ 0 := by
  have report : recvReport ret < 0 := by
    unfold recvReport
    split
    · exact errorReport_neg ret
    · rw [if_pos (by omega)]
      exact Int.negSucc_lt_zero _
  unfold readlenOf
  rw [if_neg (by omega)]
  split
  · exact Int.negSucc_le_zero _
  · exact report.le

theorem readlen_want {ret : Int}
    (want : ret = mbedtlsErrSslWantRead ∨ ret = mbedtlsErrSslWantWrite) :
    readlenOf (recvReport ret) = nghttp2ErrWouldblock := by
  rcases want with rfl | rfl <;> decide

section

variable (net : Transport) (httpc2 : Option (Httpc2 Write)) (w : World)

theorem sendCallback_faithful (data : Bytes) :
    Faithful (httpc2SendCallback net httpc2 w data).op :=
  fun fails => if_pos (le_of_lt fails)

theorem recvCallback_faithful (n : Nat) : Faithful (httpc2RecvCallback net httpc2 w n).op :=
  fun fails => if_pos fails

/-- A callback that has received something has taken it off the stream, and no more than it was
asked for. -/
theorem recvCallback_takes
    (received : 0 < (httpc2RecvCallback net httpc2 w nghttp2InboundBufferLength).op.result) :
    (httpc2RecvCallback net httpc2 w nghttp2InboundBufferLength).op.result ≤
        nghttp2InboundBufferLength ∧
      (httpc2RecvCallback net httpc2 w nghttp2InboundBufferLength).world.unread.length <
        w.unread.length := by
  have size : toInt32 (nghttp2InboundBufferLength : Nat) = (nghttp2InboundBufferLength : Nat) := by
    decide
  cases httpc2 with
  | none => exact absurd received (lt_irrefl 0)
  | some client =>
      unfold httpc2RecvCallback at received ⊢
      dsimp only at received ⊢
      cases inner : client.httpc with
      | none =>
          rw [inner] at received
          exact absurd received (show ¬ (0 : Int) < httpcErrParam by decide)
      | some httpc =>
          rw [inner] at received
          dsimp only at received ⊢
          rw [size] at received ⊢
          obtain ⟨consumes, -, bound, ret⟩ := httpcRecv_spec net httpc w
            (show nghttp2InboundBufferLength < 2 ^ 64 by decide)
          have got := ret.resolve_right fun failed => by omega
          have enough := consumes.bound
          rw [consumes.unread, List.length_drop]
          omega

/-! ### The loops of the session

A loop ends without an error as long as its callbacks report none, and it ends at all because the
stream gets shorter. -/

/-- What a function of the session does however the callbacks fare: it returns, errors are reported
as the callbacks report them, and it succeeds if it makes no error of its own and the callbacks can
deal with every operation. -/
structure Orderly (good : Int) (call : SessionCall σ) : Prop where
  faithful : ∀ op ∈ call.ops, Faithful op
  succeeds : (∀ op ∈ call.ops, Manageable op) → call.faults = [] → call.ret = good

/-- An operation in front changes nothing of that. -/
theorem Orderly.after {good : Int} {call : SessionCall σ} (orderly : Orderly good call)
    {op : TransportOp} (faithful : Faithful op) : Orderly good (call.after op) where
  faithful := List.forall_mem_cons.mpr ⟨faithful, orderly.faithful⟩
  succeeds handled noFault :=
    orderly.succeeds (fun other member => handled other (List.mem_cons_of_mem op member)) noFault

variable (ng : Nghttp2 σ)

/-- The loop that sends. -/
theorem sessionSendLoop_spec {fuel : Nat} {s : σ} (enough : ng.pending s < fuel) :
    ∃ call, sessionSendLoop net ng httpc2 fuel s w = some call ∧ Orderly 0 call := by
  induction fuel generalizing s w with
  | zero => exact absurd enough (Nat.not_lt_zero _)
  | succ fuel ih =>
      unfold sessionSendLoop
      rcases answer : ng.memSend s with ⟨⟨data⟩ | ⟨code⟩, s'⟩
      · dsimp only
        by_cases empty : data = []
        · rw [if_pos empty]
          exact ⟨_, rfl, by simp [SessionCall.returned], fun _ _ => rfl⟩
        · rw [if_neg empty]
          have faithful := sendCallback_faithful net httpc2 w data
          have report : (httpc2SendCallback net httpc2 w data).op.reported =
              sendReport (httpc2SendCallback net httpc2 w data).op.result := rfl
          by_cases fails : (httpc2SendCallback net httpc2 w data).op.reported < 0
          · rw [if_pos fails]
            by_cases blocks :
                (httpc2SendCallback net httpc2 w data).op.reported = nghttp2ErrWouldblock
            · rw [if_pos blocks]
              exact ⟨_, rfl, by simpa [SessionCall.returned] using faithful, fun _ _ => rfl⟩
            · rw [if_neg blocks]
              refine ⟨_, rfl, by simpa [SessionCall.returned] using faithful, ?_⟩
              intro handled _
              rcases handled _ List.mem_cons_self with moved | want
              · rw [report, sendReport, if_neg (not_le.mpr moved)] at fails
                exact absurd moved (not_lt.mpr fails.le)
              · obtain ⟨negative, known⟩ := errorReport_want want
                exact absurd ((faithful negative).trans known) blocks
          · rw [if_neg fails]
            rw [report] at fails
            obtain ⟨moved, same⟩ := sendReport_nonneg fails
            have positive := List.length_pos_iff.mpr empty
            have less := ng.sends s data s'
              (data.length - (httpc2SendCallback net httpc2 w data).op.reported.toNat) answer
              (by rw [report, same]; omega)
            obtain ⟨call, loop, orderly⟩ :=
              ih (httpc2SendCallback net httpc2 w data).world (less.trans_le (by omega))
            exact ⟨_, by rw [loop]; rfl, orderly.after faithful⟩
      · exact ⟨_, rfl, by simp [SessionCall.fault], by simp [SessionCall.fault]⟩

/-- The loop that receives. -/
theorem sessionRecvLoop_spec {fuel : Nat} {s : σ} (enough : w.unread.length < fuel) :
    ∃ call, sessionRecvLoop net ng httpc2 fuel s w = some call ∧ Orderly 0 call := by
  induction fuel generalizing s w with
  | zero => exact absurd enough (Nat.not_lt_zero _)
  | succ fuel ih =>
      unfold sessionRecvLoop
      have faithful := recvCallback_faithful net httpc2 w nghttp2InboundBufferLength
      have takes := recvCallback_takes net httpc2 w
      have report :
          (httpc2RecvCallback net httpc2 w nghttp2InboundBufferLength).op.reported =
            recvReport
              (httpc2RecvCallback net httpc2 w nghttp2InboundBufferLength).op.result := rfl
      generalize httpc2RecvCallback net httpc2 w nghttp2InboundBufferLength = read
        at faithful takes report
      dsimp only
      rw [report]
      by_cases moved : 0 < read.op.result
      -- Bytes were received, so the stream is shorter and the loop goes on.
      · obtain ⟨bound, less⟩ := takes moved
        rw [readlen_moved moved bound, if_pos moved]
        split
        · exact ⟨_, rfl, by simpa [SessionCall.fault] using faithful, by simp [SessionCall.fault]⟩
        · obtain ⟨call, loop, orderly⟩ :=
            ih read.world (s := (ng.memRecv s read.data).2) (by omega)
          exact ⟨_, by rw [loop]; rfl, orderly.after faithful⟩
      -- Nothing was received. A pause ends the loop well, and nothing else counts as one.
      · have nothing := readlen_nonpos (not_lt.mp moved)
        rw [if_neg (not_lt.mpr nothing)]
        by_cases blocks : readlenOf (recvReport read.op.result) = nghttp2ErrWouldblock
        · rw [if_pos (.inr blocks)]
          exact ⟨_, rfl, by simpa [SessionCall.returned] using faithful, fun _ _ => rfl⟩
        · have unhandled : ¬ Manageable read.op := by
            rintro (moves | want)
            · exact moved moves
            · exact blocks (readlen_want want)
          have ends : ∀ ret, Orderly 0 (SessionCall.returned ret [read.op] s read.world) :=
            fun ret => ⟨by simpa [SessionCall.returned] using faithful,
              fun handled _ => absurd (handled _ List.mem_cons_self) unhandled⟩
          split
          · exact ⟨_, rfl, ends 0⟩
          · split
            · exact ⟨_, rfl, ends _⟩
            · exact ⟨_, rfl, ends _⟩

/-- `httpc2_core_run`. -/
theorem coreRun_spec (client : Httpc2 Write) (s : σ) :
    ∃ call, httpc2CoreRun net ng client s w = some call ∧ Orderly httpcErrOk call := by
  obtain ⟨sent, sending, sends⟩ :=
    sessionSendLoop_spec net (some client) w ng (Nat.lt_succ_self (ng.pending s))
  obtain ⟨received, receiving, receives⟩ :=
    sessionRecvLoop_spec net (some client) sent.world ng (s := sent.session)
      (Nat.lt_succ_self sent.world.unread.length)
  unfold httpc2CoreRun nghttp2SessionSend nghttp2SessionRecv
  rw [sending, Option.bind_some]
  by_cases failed : sent.ret ≠ 0
  · rw [if_pos failed]
    exact ⟨_, rfl, sends.faithful,
      fun handled noFault => absurd (sends.succeeds handled noFault) failed⟩
  · rw [if_neg failed, receiving]
    refine ⟨_, rfl, List.forall_mem_append.mpr ⟨sends.faithful, receives.faithful⟩, ?_⟩
    intro handled noFault
    have done := receives.succeeds (List.forall_mem_append.mp handled).2
      (List.append_eq_nil_iff.mp noFault).2
    exact if_neg (not_not.mpr done)

end

/-! ### Runs of a client

Rounds of the client one after the other. A pause is not fatal exactly when no operation on a plain
socket would block. -/

section

/-- The client has a TLS connection. -/
def UsesTls (client : Httpc2 Write) : Prop :=
  ∃ httpc ∈ client.httpc, httpc.enableMbedtls = true

/-- The result of an operation that would block: what the TLS library returns then, or `-1` from a
plain socket. -/
def WouldBlock (client : Httpc2 Write) (ret : Int) : Prop :=
  (UsesTls client ∧ (ret = mbedtlsErrSslWantRead ∨ ret = mbedtlsErrSslWantWrite)) ∨
    (¬ UsesTls client ∧ ret = -1)

instance (client : Httpc2 Write) : Decidable (UsesTls client) :=
  inferInstanceAs (Decidable (∃ httpc ∈ client.httpc, httpc.enableMbedtls = true))

instance (client : Httpc2 Write) (ret : Int) : Decidable (WouldBlock client ret) :=
  inferInstanceAs (Decidable (_ ∨ _))

variable (net : Transport) (ng : Nghttp2 σ) (client : Httpc2 Write)

/-- Nothing goes wrong but that operations would block: each moves some bytes or would block, and
the session makes no error of its own. -/
def Undisturbed (conn : Http2Conn σ) : Http2Call σ → Prop
  | .coreRun =>
      ∀ call ∈ httpc2CoreRun net ng client conn.session conn.world,
        call.faults = [] ∧ ∀ op ∈ call.ops, 0 < op.result ∨ WouldBlock client op.result
  | .other _ => True

/-- Would-block is not fatal: each operation that would block is reported to the session as such,
and `httpc2_core_run` succeeds. -/
def NonFatal (conn : Http2Conn σ) : Http2Call σ → Prop
  | .coreRun =>
      ∃ call ∈ httpc2CoreRun net ng client conn.session conn.world, call.ret = httpcErrOk ∧
        ∀ op ∈ call.ops, WouldBlock client op.result → op.reported = nghttp2ErrWouldblock
  | .other _ => True

/-- No operation on a plain socket would block. -/
def NoPlainBlock (conn : Http2Conn σ) : Http2Call σ → Prop
  | .coreRun =>
      UsesTls client ∨ ∀ call ∈ httpc2CoreRun net ng client conn.session conn.world,
        ∀ op ∈ call.ops, ¬ WouldBlock client op.result
  | .other _ => True

instance (conn : Http2Conn σ) :
    (call : Http2Call σ) → Decidable (Undisturbed net ng client conn call)
  | .coreRun =>
      inferInstanceAs (Decidable (∀ call ∈ httpc2CoreRun net ng client conn.session conn.world,
        call.faults = [] ∧ ∀ op ∈ call.ops, 0 < op.result ∨ WouldBlock client op.result))
  | .other _ => .isTrue trivial

instance (conn : Http2Conn σ) :
    (call : Http2Call σ) → Decidable (NoPlainBlock net ng client conn call)
  | .coreRun =>
      inferInstanceAs (Decidable (UsesTls client ∨
        ∀ call ∈ httpc2CoreRun net ng client conn.session conn.world,
          ∀ op ∈ call.ops, ¬ WouldBlock client op.result))
  | .other _ => .isTrue trivial

/-- One call of an undisturbed run. -/
theorem nonFatal_iff (conn : Http2Conn σ) (call : Http2Call σ)
    (undisturbed : Undisturbed net ng client conn call) :
    NonFatal net ng client conn call ↔ NoPlainBlock net ng client conn call := by
  cases call with
  | other change => exact Iff.rfl
  | coreRun =>
      obtain ⟨call, run, orderly⟩ := coreRun_spec net conn.world ng client conn.session
      unfold Undisturbed at undisturbed
      unfold NonFatal NoPlainBlock
      simp only [run, Option.mem_some_iff, forall_eq', exists_eq_left'] at undisturbed ⊢
      obtain ⟨noFault, moves⟩ := undisturbed
      constructor
      · rintro ⟨-, reported⟩
        by_cases tls : UsesTls client
        · exact .inl tls
        · refine .inr fun op member blocks => ?_
          have plain : op.result = -1 := by
            rcases blocks with ⟨withTls, -⟩ | ⟨-, plain⟩
            · exact absurd withTls tls
            · exact plain
          have known := reported op member blocks
          rw [orderly.faithful op member (by omega), plain] at known
          exact absurd known (by decide)
      · intro noBlock
        have want : ∀ op ∈ call.ops, WouldBlock client op.result →
            op.result = mbedtlsErrSslWantRead ∨ op.result = mbedtlsErrSslWantWrite := by
          intro op member blocks
          rcases noBlock with tls | never
          · exact (blocks.resolve_right fun plain => plain.1 tls).2
          · exact absurd blocks (never op member)
        refine ⟨orderly.succeeds ?_ noFault, ?_⟩
        · intro op member
          exact (moves op member).imp_right (want op member)
        · intro op member blocks
          obtain ⟨fails, known⟩ := errorReport_want (want op member blocks)
          exact (orderly.faithful op member fails).trans known

/-- In a run in which nothing goes wrong but that operations would block, every such operation is
reported to the session as one and every `httpc2_core_run` succeeds, if and only if no operation on
a plain socket would block. -/
theorem would_block_not_fatal_iff {start : Http2Conn σ} {calls : List (Http2Call σ)}
    (undisturbed : Along (http2CallStep net ng client) (Undisturbed net ng client) start calls) :
    Along (http2CallStep net ng client) (NonFatal net ng client) start calls ↔
      Along (http2CallStep net ng client) (NoPlainBlock net ng client) start calls :=
  Along.congr_of (fun _ => True)
    (fun conn call _ quiet => nonFatal_iff net ng client conn call quiet)
    (fun _ _ _ _ => trivial) trivial undisturbed

end

/-- A session that has some bytes to send and takes every byte it is given. -/
def byteQueue : Nghttp2 Bytes where
  memSend s := (.bytes s, s)
  rewind s n := s.drop (s.length - n)
  memRecv s data := (data.length, s)
  pending := List.length
  sends s data s' n answer short := by
    cases answer
    rw [List.length_drop]
    omega

/-- The network takes what is sent to it, and the peer is silent: a receive call returns `ret`. -/
def Transport.silent (ret : Int) : Transport :=
  { Transport.prompt with recv := fun _ _ _ => .fail (-1 - ret).toNat }

/-- An HTTP/2 client over TLS. -/
def tlsClient : Httpc2 Unit where
  httpc :=
    some
      { Httpc.plain 3 with
        enableMbedtls := true
        mbedtlsCtx := some { netFd := 3, handshakeDone := true } }
  writeCallback := none

/-- An HTTP/2 client over a plain socket. -/
def plainClient : Httpc2 Unit where
  httpc := some (Httpc.plain 3)
  writeCallback := none

/-- Over TLS a silent peer does no harm. -/
theorem would_block_not_fatal_iff_tls :
    Along (http2CallStep (.silent mbedtlsErrSslWantRead) byteQueue tlsClient)
      (NonFatal (.silent mbedtlsErrSslWantRead) byteQueue tlsClient)
      { session := ascii "PRI", world := .opened [] } [.coreRun, .coreRun] :=
  (would_block_not_fatal_iff _ _ _ (by decide +kernel)).mpr (by decide +kernel)

/-- Over a plain socket the same silence is reported to the session as a failure, and the call
fails. -/
theorem plain_would_block_fatal :
    Along (http2CallStep (.silent (-1)) byteQueue plainClient)
        (Undisturbed (.silent (-1)) byteQueue plainClient)
        { session := ascii "PRI", world := .opened [] } [.coreRun] ∧
      (httpc2CoreRun (.silent (-1)) byteQueue plainClient (ascii "PRI") (.opened [])).map
          (fun call => (call.ret, call.ops)) =
        some (httpcErrFail,
          [{ result := 3, reported := 3 },
            { result := -1, reported := nghttp2ErrCallbackFailure }]) ∧
      ¬ Along (http2CallStep (.silent (-1)) byteQueue plainClient)
        (NonFatal (.silent (-1)) byteQueue plainClient)
        { session := ascii "PRI", world := .opened [] } [.coreRun] := by
  refine ⟨by decide +kernel, by decide +kernel, ?_⟩
  rintro ⟨⟨call, run, done, -⟩, -⟩
  have fails : (httpc2CoreRun (.silent (-1)) byteQueue plainClient (ascii "PRI")
      (.opened [])).map SessionCall.ret = some httpcErrFail := by decide +kernel
  rw [Option.mem_def.mp run, Option.map_some, Option.some.injEq, done] at fails
  exact absurd fails (by decide)

end Hfc
